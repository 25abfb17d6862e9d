import C6021Light.RoutingTask.CANForwarder
import C6021Light.RoutingTask.CanEngineDB
import C6021Light.RoutingTask.LocoNetForwarder

/-!
# `C6021Light.RoutingTask.RoutingTask`: the routing loop

`RoutingTask` (`RoutingTask.cpp`) owns the slot server and the engine database. `loop`
receives from every bus, forwards between them and drives the state machines. `taskMain`
repeats it. Between two calls the task waits, and the low-priority ConsoleTask runs: it sends
queued LocoNet messages and executes console commands.

Three parts of the loop reach the slot table and the engine database only through code of
the CAN library, and they enter as inputs of the loop:

* `handlePacket` is what the library's packet handler does to the engine database for one
  frame, through the engine callbacks and the configuration data streams;
* `lnForward` is the message that `LocoNetForwarder::forward` sends for the frame, if any;
* `stateMachines` is what the download state machine does to the engine database.

A `TaskEvent` is one step of the loop or of the console. `loop_eq_events` says that `loop`
is the sequence of its events.

`canTx` is a ghost field. It records the frames that `matchEnginesFromLocoNetAndCan` sends
through the CAN forwarder, with the slot and its `inUse` flag at that moment.
-/

set_option autoImplicit false

namespace C6021Light

/-- A frame sent for a slot. -/
structure SlotFrame where
  slotIt : SlotIt
  inUse : Bool
  frame : EngineFrame
deriving DecidableEq, Repr

/-- The slot server and the engine database, with a record of the frames that were sent on CAN. -/
structure RoutingTask where
  slotServer : LocoNetSlotServer
  engineDb : CanEngineDB := {}
  canTx : List SlotFrame := []

/-- A function of the routing task, which may reach outside a table. -/
abbrev RoutingTaskRun := StateT RoutingTask (Except Fault)

/-- A slot server program, run on the task's slot server. -/
def onSlotServer {α : Type} (program : SlotServerRun α) : RoutingTaskRun α := do
  let task ← get
  let (result, slotServer) ← program.run task.slotServer
  set { task with slotServer := slotServer }
  pure result

/-! ### CAN to LocoNet -/

/-- One iteration of the second loop of `processCAN`. -/
def forwardEngineUpdate [AddressScheme] (entryIdx : Fin kMaxNumDbEntries) :
    RoutingTaskRun Unit := do
  let task ← get
  let locoEntry := task.engineDb.entry entryIdx
  if locoEntry.hasUpdate then
    let diff ← onSlotServer
      (LocoNetForwarder.forwardLocoChange locoEntry.loco.toLocomotiveData locoEntry.diff)
    -- The source passes `diff` by reference, so the flags of the entry change in place.
    modify fun task =>
      { task with engineDb := task.engineDb.setEntry entryIdx { locoEntry with diff := diff } }

/-- The second loop of `processCAN`. -/
def forwardEngineUpdates [AddressScheme] : RoutingTaskRun Unit := do
  -- The mode is read once. Nothing in the loop changes it.
  let task ← get
  if !task.slotServer.isDisabled then
    forM (List.finRange kMaxNumDbEntries) forwardEngineUpdate

/-! ### LocoNet to CAN -/

/-- The slot after the first test of `matchEnginesFromLocoNetAndCan`: a slot that waits for
its match takes the UID of the engine with its address. -/
def SlotEntry.matchToCAN (engineDb : CanEngineDB) (locoEntry : SlotEntry) : SlotEntry :=
  if locoEntry.needsMatchToCAN then
    match engineDb.findEngine locoEntry.loco.address with
    -- `needsMatchToCAN` stays set, so the match is repeated in every round.
    | some engine => { locoEntry with loco := locoEntry.loco.setUid engine.uid }
    | none => locoEntry
  else locoEntry

/-- The slot after one iteration of `matchEnginesFromLocoNetAndCan`, and the frames sent. -/
def SlotEntry.forwardToCAN (engineDb : CanEngineDB) (entry : SlotEntry) :
    List EngineFrame × SlotEntry :=
  let locoEntry := entry.matchToCAN engineDb
  if locoEntry.hasUpdate then
    let (frames, diff) := CANForwarder.forwardLocoChange locoEntry.loco locoEntry.diff
    -- Neither `inUse` nor the UID is asked here.
    (frames, { locoEntry with diff := diff })
  else ([], locoEntry)

/-- One iteration of `matchEnginesFromLocoNetAndCan`. -/
def matchEngineOfSlot (slotIdx : Fin kNumSlots) : RoutingTaskRun Unit :=
  modify fun task =>
    let (frames, locoEntry) :=
      (task.slotServer.slot slotIdx).forwardToCAN task.engineDb
    { task with
        slotServer := task.slotServer.setSlot slotIdx locoEntry
        canTx := task.canTx ++ frames.map fun frame =>
          { slotIt := slotIdx, inUse := locoEntry.inUse, frame := frame } }

/-- `matchEnginesFromLocoNetAndCan`. -/
def matchEnginesFromLocoNetAndCan : RoutingTaskRun Unit := do
  let task ← get
  if !task.slotServer.isDisabled then
    forM (List.finRange kNumSlots) matchEngineOfSlot

/-! ### Events -/

/-- One step of the routing task, or of the console while the routing task waits. -/
inductive TaskEvent
  | handlePacket (effect : CanEngineDB → CanEngineDB)
  | lnForward (msg : LnMsg)
  | forwardEngineUpdates
  | lnReceive (msg : LnMsg)
  | matchEngines
  | setSlotServerState (state : SlotServerState)
  | dispatch (addr : LocoAddr)
  | blockingSend

/-- The engine database after the packet handler or the download has changed it. -/
def changeEngineDb (effect : CanEngineDB → CanEngineDB) : RoutingTaskRun Unit :=
  modify fun task => { task with engineDb := effect task.engineDb }

/-- `run_ln_slot_server_active`, `_passive` and `_disable` of the console. -/
def setSlotServerState (state : SlotServerState) : SlotServerRun Unit :=
  modify fun server =>
    { server with dataModel := { server.dataModel with lnSlotServerState := state } }

/-- `DoBlockingSend` of the ConsoleTask. -/
def blockingSend : SlotServerRun Unit :=
  modify fun server => { server with tx := server.tx.doBlockingSend }

/-- The end of one iteration of `processLocoNet`. -/
def receiveLn [AddressScheme] (msg : LnMsg) : SlotServerRun Unit := do
  LocoNetForwarder.handleDummyMessages msg
  process msg

/-- What an event does to the task. -/
def TaskEvent.exec [AddressScheme] : TaskEvent → RoutingTaskRun Unit
  | .handlePacket effect => changeEngineDb effect
  | .lnForward msg => onSlotServer (asyncSend msg)
  | .forwardEngineUpdates => C6021Light.forwardEngineUpdates
  | .lnReceive msg => onSlotServer (receiveLn msg)
  | .matchEngines => matchEnginesFromLocoNetAndCan
  | .setSlotServerState state => onSlotServer (C6021Light.setSlotServerState state)
  | .dispatch addr => onSlotServer (do let _ ← markAddressForDispatch addr)
  | .blockingSend => onSlotServer C6021Light.blockingSend

/-! ### The loop -/

/-- One frame that `loop` handles: a received CAN frame, or one made from an I2C message or a
Stop/Go request. -/
structure FrameInput where
  lnForward : Option LnMsg
  handlePacket : CanEngineDB → CanEngineDB

/-- One received LocoNet message. `handlePacket` is the effect of the CAN frame that
`MakeRR32CanMsg` makes from it, and the identity when it makes none. -/
structure LnInput where
  msg : LnMsg
  handlePacket : CanEngineDB → CanEngineDB

/-- What one call of `loop` receives. -/
structure LoopInput where
  stopGo : List FrameInput
  can : List FrameInput
  i2c : List FrameInput
  loconet : List LnInput
  stateMachines : CanEngineDB → CanEngineDB

/-- A frame is forwarded to LocoNet and then handled by the task itself. -/
def processFrame (input : FrameInput) : RoutingTaskRun Unit := do
  match input.lnForward with
  | some msg => onSlotServer (asyncSend msg)
  | none => pure ()
  changeEngineDb input.handlePacket

/-- `processCAN`. -/
def processCAN [AddressScheme] (frames : List FrameInput) : RoutingTaskRun Unit := do
  -- All received frames come first, so one round of updates follows many commands.
  forM frames processFrame
  forwardEngineUpdates

/-- `processLocoNet`. -/
def processLocoNet [AddressScheme] (messages : List LnInput) : RoutingTaskRun Unit :=
  forM messages fun input => do
    changeEngineDb input.handlePacket
    onSlotServer (receiveLn input.msg)

/-- `RoutingTask::loop`. -/
def RoutingTask.loop [AddressScheme] (input : LoopInput) : RoutingTaskRun Unit := do
  forM input.stopGo processFrame
  processCAN input.can
  forM input.i2c processFrame
  processLocoNet input.loconet
  changeEngineDb input.stateMachines
  matchEnginesFromLocoNetAndCan

/-- What the console does between two calls of `loop`. -/
inductive ConsoleCommand
  | setSlotServerState (state : SlotServerState)
  | dispatch (addr : LocoAddr)
  | blockingSend
deriving DecidableEq, Repr

/-- The event of a console command. -/
def ConsoleCommand.event : ConsoleCommand → TaskEvent
  | setSlotServerState state => .setSlotServerState state
  | dispatch addr => .dispatch addr
  | blockingSend => .blockingSend

/-- One iteration of `TaskMain`: the console runs while the task waits, then `loop`. -/
structure TaskInput where
  console : List ConsoleCommand
  loop : LoopInput

/-- `TaskMain`, for the iterations given. -/
def RoutingTask.taskMain [AddressScheme] (inputs : List TaskInput) : RoutingTaskRun Unit :=
  forM inputs fun input => do
    forM input.console fun command => command.event.exec
    RoutingTask.loop input.loop

/-! ### The loop as a sequence of events -/

/-- The events of a frame: what is forwarded, and what the CAN library makes of it. -/
def FrameInput.events (input : FrameInput) : List TaskEvent :=
  (match input.lnForward with
    | some msg => [.lnForward msg]
    | none => []) ++ [.handlePacket input.handlePacket]

/-- The events of a LocoNet message. -/
def LnInput.events (input : LnInput) : List TaskEvent :=
  [.handlePacket input.handlePacket, .lnReceive input.msg]

/-- The events of one loop, in the order of `RoutingTask::loop`. -/
def LoopInput.events (input : LoopInput) : List TaskEvent :=
  input.stopGo.flatMap FrameInput.events
    ++ (input.can.flatMap FrameInput.events ++ [.forwardEngineUpdates])
    ++ input.i2c.flatMap FrameInput.events
    ++ input.loconet.flatMap LnInput.events
    ++ [.handlePacket input.stateMachines, .matchEngines]

/-- The events of the commands and of the loop behind them. -/
def TaskInput.events (input : TaskInput) : List TaskEvent :=
  input.console.map ConsoleCommand.event ++ input.loop.events

variable [AddressScheme]

/-- A loop whose body is a sequence of events is the sequence of all these events. -/
theorem forM_eq_events {ι : Type} {body : ι → RoutingTaskRun Unit} {events : ι → List TaskEvent}
    (h : ∀ i, body i = forM (events i) TaskEvent.exec) :
    ∀ is : List ι, forM is body = forM (is.flatMap events) TaskEvent.exec := by
  intro is
  induction is with
  | nil => rfl
  | cons i is ih =>
      rw [List.forM_cons, h i, ih, List.flatMap_cons, List.forM_append]

/-- A frame is processed as its events say. -/
theorem processFrame_eq_events (input : FrameInput) :
    processFrame input = forM input.events TaskEvent.exec := by
  cases hfwd : input.lnForward with
  | none => simp [processFrame, FrameInput.events, hfwd, TaskEvent.exec]
  | some msg => simp [processFrame, FrameInput.events, hfwd, TaskEvent.exec]

/-- `loop` is the sequence of its events. -/
theorem loop_eq_events (input : LoopInput) :
    RoutingTask.loop input = forM input.events TaskEvent.exec := by
  have hframes := forM_eq_events processFrame_eq_events
  have hln : processLocoNet input.loconet
      = forM (input.loconet.flatMap LnInput.events) TaskEvent.exec :=
    forM_eq_events (fun i => by simp [LnInput.events, TaskEvent.exec]) input.loconet
  simp only [RoutingTask.loop, processCAN, hframes, hln, LoopInput.events, List.forM_append,
    List.forM_cons, List.forM_nil, TaskEvent.exec, bind_assoc, bind_pure_unit]

/-- `taskMain` is the sequence of the events of its iterations. -/
theorem taskMain_eq_events (inputs : List TaskInput) :
    RoutingTask.taskMain inputs = forM (inputs.flatMap TaskInput.events) TaskEvent.exec := by
  refine forM_eq_events (fun input => ?_) inputs
  rw [TaskInput.events, List.forM_append, List.forM_map, loop_eq_events]

end C6021Light
