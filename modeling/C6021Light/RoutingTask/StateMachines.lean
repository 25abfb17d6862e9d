import C6021Light.Lib.RetryLog
import C6021Light.RoutingTask.EngineDownload

/-!
# `C6021Light.RoutingTask.StateMachines`: the state machines of the routing task

`StopGoStateMachine` asks for the state of the track power after start-up, and
`CanEngineDBStateMachine` starts the download of the engine database. Both repeat their
request on a timer (`StateMachineBase.h`, `StopGoStateMachine.h`,
`CanEngineDBStateMachine.h`).

The timer callback only latches a flag. `loop` of the machine handles it later, so a packet,
the end of a download or a restart can come between the two. A callback in the middle of
`loop` finds the flag set, and `loop` clears it as if there had been one callback less.

The machines have got their timers and the status indicator, as `RoutingTask::begin` leaves
them. `CanEngineDBStateMachine` refers to the engine database, and to the status indicator of
the database. `history` and `pings` are ghost fields. `history` records each reset of `tries` and
each request, and `pings` counts the pings that the machine sent.
-/

set_option autoImplicit false

namespace C6021Light

open RetryLog

/-! ### Frames -/

/-- `RR32Can::Command`, as far as the machines ask for it. -/
inductive FrameCommand
  | systemCommand
  | configDataStream
  | other
deriving DecidableEq, Repr

/-- `RR32Can::SystemSubcommand`, as far as `isSystemStopGoSubcommand` asks for it. -/
inductive SystemMessageSubcommand
  | systemStop
  | systemGo
  | systemHalt
  | other
deriving DecidableEq, Repr

/-- What the machines read of a CAN frame. `subcommand` is what the data says when it is read
as a system message. -/
structure PacketInfo where
  command : FrameCommand
  subcommand : SystemMessageSubcommand
  dlc : Nat
deriving DecidableEq, Repr

/-! ### `StateMachineBase` -/

/-- `StateMachineBase`. `timerRunning` is the state of the timer. -/
structure StateMachineBase where
  timerExpired : Bool := false
  timerRunning : Bool := false
deriving DecidableEq, Repr

namespace StateMachineBase

/-- `TimerCallback`. -/
def timerCallback (base : StateMachineBase) : StateMachineBase :=
  { base with timerExpired := true }

/-- `startTimerDelayed`. -/
def startTimerDelayed (base : StateMachineBase) : StateMachineBase :=
  { base with timerRunning := true }

/-- `startTimerImmediate`: the timer counts as expired at once. -/
def startTimerImmediate (base : StateMachineBase) : StateMachineBase :=
  base.startTimerDelayed.timerCallback

/-- `stopTimer`. -/
def stopTimer (base : StateMachineBase) : StateMachineBase :=
  { base with timerRunning := false }

end StateMachineBase

/-! ### `StopGoStateMachine` -/

/-- `kMaxRetries`. -/
abbrev kMaxRetries : Nat := 10

/-- `StopGoStateMachine::State`. -/
inductive StopGoState
  | idle
  | requesting
deriving DecidableEq, Repr

/-- `StopGoStateMachine`. `tries` has no initial value in the source. -/
structure StopGoStateMachine extends StateMachineBase where
  state : StopGoState := .idle
  tries : Nat
  history : List Mark := []
deriving DecidableEq, Repr

namespace StopGoStateMachine

/-- `isIdle`. -/
def isIdle (machine : StopGoStateMachine) : Bool := machine.state = .idle

/-- `startRequesting`. -/
def startRequesting (machine : StopGoStateMachine) : StopGoStateMachine :=
  { machine with
    state := .requesting
    tries := 0
    history := machine.history ++ [.reset]
    toStateMachineBase := machine.startTimerImmediate }

/-- `stopRequesting`. -/
def stopRequesting (machine : StopGoStateMachine) : StopGoStateMachine :=
  { machine with
    state := .idle
    toStateMachineBase := machine.stopTimer }

/-- `sendRequest`: a `System_GetStatus` on CAN. -/
def sendRequest (machine : StopGoStateMachine) : StopGoStateMachine :=
  { machine with history := machine.history ++ [.attempt] }

/-- What `loop` does about an expired timer. -/
def handleTimer (machine : StopGoStateMachine) : StopGoStateMachine :=
  match machine.state with
  | .requesting =>
      if machine.tries < kMaxRetries then
        { machine.sendRequest with tries := machine.tries + 1 }
      else machine.stopRequesting
  | .idle => machine

/-- `loop`. -/
def loop (machine : StopGoStateMachine) : StopGoStateMachine :=
  if machine.timerExpired then { machine.handleTimer with timerExpired := false }
  else machine

/-- `notifyStatusMessageReceived`. -/
def notifyStatusMessageReceived (machine : StopGoStateMachine) : StopGoStateMachine :=
  if machine.state ≠ .idle then machine.stopRequesting else machine

/-- `isSystemStopGoSubcommand`. -/
def isSystemStopGoSubcommand (subcommand : SystemMessageSubcommand) : Bool :=
  subcommand = .systemGo || subcommand = .systemStop || subcommand = .systemHalt

/-- `handlePacket`. -/
def handlePacket (machine : StopGoStateMachine) (frame : PacketInfo) : StopGoStateMachine :=
  if frame.command = .systemCommand then
    if isSystemStopGoSubcommand frame.subcommand then machine.notifyStatusMessageReceived
    else machine
  else machine

end StopGoStateMachine

/-! ### `CanEngineDBStateMachine` -/

/-- `kMaxDownloadTries`. -/
abbrev kMaxDownloadTries : Nat := 10

/-- `CanEngineDBStateMachine::RequestState`. -/
inductive RequestState
  | idle
  | requesting
  | downloading
  | requestingProtocol
deriving DecidableEq, Repr

/-- `CanEngineDBStateMachine`, with the engine database that it uses. -/
structure CanEngineDBStateMachine extends StateMachineBase where
  requestState : RequestState := .idle
  tries : Nat := 0
  engineDb : EngineDownload := {}
  history : List Mark := []
  pings : Nat := 0
deriving DecidableEq

namespace CanEngineDBStateMachine

/-- `isIdle`. -/
def isIdle (machine : CanEngineDBStateMachine) : Bool := machine.requestState = .idle

/-- The status indicator, after a call of one of its setters. -/
def changeStatusIndicator (machine : CanEngineDBStateMachine)
    (effect : StatusIndicator → StatusIndicator) : CanEngineDBStateMachine :=
  { machine with
    engineDb := { machine.engineDb with
      statusIndicator := effect machine.engineDb.statusIndicator } }

/-- `tries = 0` and the start of the timer. -/
def restart (machine : CanEngineDBStateMachine) : CanEngineDBStateMachine :=
  { machine with
    tries := 0
    history := machine.history ++ [.reset]
    toStateMachineBase := machine.startTimerImmediate }

/-- `startRequestingProtocol`: one ping, and the indicator is set. -/
def startRequestingProtocol (machine : CanEngineDBStateMachine) : CanEngineDBStateMachine :=
  let machine := { machine with requestState := .requestingProtocol, pings := machine.pings + 1 }
  (machine.changeStatusIndicator (·.setCanDbDownload)).restart

/-- `startRequestingEngineDB`: the indicator is set. -/
def startRequestingEngineDB (machine : CanEngineDBStateMachine) : CanEngineDBStateMachine :=
  let machine := { machine with requestState := .requesting }
  (machine.changeStatusIndicator (·.setCanDbDownload)).restart

/-- `startRequesting`: the protocol has to be known before the list is requested. -/
def startRequesting (machine : CanEngineDBStateMachine) : CanEngineDBStateMachine :=
  if machine.engineDb.downloadProtocol = .unknown then machine.startRequestingProtocol
  else machine.startRequestingEngineDB

/-- `stopRequesting`: the indicator is cleared. -/
def stopRequesting (machine : CanEngineDBStateMachine) : CanEngineDBStateMachine :=
  let machine := { machine with
    requestState := .idle
    toStateMachineBase := machine.stopTimer }
  machine.changeStatusIndicator (·.clearCanDbDownload)

/-- `AbortCurrentConfigRequest` of the station, and `fetchEngineDB`. -/
def fetchEngineDB (machine : CanEngineDBStateMachine) : CanEngineDBStateMachine :=
  { machine with
    engineDb := machine.engineDb.endRequest.fetchEngineDB
    history := machine.history ++ [.attempt] }

/-- What `loop` does about an expired timer. -/
def handleTimer (machine : CanEngineDBStateMachine) : CanEngineDBStateMachine :=
  match machine.requestState with
  | .requestingProtocol =>
      if machine.engineDb.downloadProtocol ≠ .unknown then machine.startRequesting
      else if machine.tries < kMaxDownloadTries then { machine with tries := machine.tries + 1 }
      else machine.stopRequesting
  | .requesting =>
      if machine.tries < kMaxDownloadTries then
        { machine.fetchEngineDB with tries := machine.tries + 1 }
      else machine.stopRequesting
  | .idle | .downloading => machine

/-- `loop`. -/
def loop (machine : CanEngineDBStateMachine) : CanEngineDBStateMachine :=
  if machine.timerExpired then { machine.handleTimer with timerExpired := false }
  else machine

/-- `isFirstPacketInConfigDataStream`. -/
def isFirstPacketInConfigDataStream (frame : PacketInfo) : Bool :=
  frame.command = .configDataStream && (frame.dlc = 6 || frame.dlc = 7)

/-- `handlePacket`. -/
def handlePacket (machine : CanEngineDBStateMachine) (frame : PacketInfo) :
    CanEngineDBStateMachine :=
  if !machine.isIdle && isFirstPacketInConfigDataStream frame then
    { machine with requestState := .downloading }
  else machine

/-- `notifyEngineDBComplete`. -/
def notifyEngineDBComplete (machine : CanEngineDBStateMachine) : CanEngineDBStateMachine :=
  if !machine.isIdle then machine.stopRequesting else machine

end CanEngineDBStateMachine

/-! ### The two machines in the routing task -/

/-- The machines of the routing task. -/
structure StateMachines where
  stopGoStateM : StopGoStateMachine
  canEngineDBStateM : CanEngineDBStateMachine := {}
deriving DecidableEq

/-- A step of the machines; the engine database may fault. -/
abbrev StateMachinesRun := StateT StateMachines (Except DbFault)

/-- The machines after construction. -/
def StateMachines.start (tries : Nat) : StateMachines :=
  { stopGoStateM := { tries := tries } }

/-- One step of the machines, of the engine database or of the console. -/
inductive MachineEvent
  | startRequestingStopGo
  | startRequestingEngineDB
  | stopGoTimerCallback
  | canEngineDBTimerCallback
  | stopGoLoop
  | notifyEngineDBComplete
  | canEngineDBLoop
  | handlePacket (frame : PacketInfo)
  | database (event : DatabaseEvent)
  | downloadEngines

/-- A step of the Stop/Go machine. -/
def onStopGo (effect : StopGoStateMachine → StopGoStateMachine) : StateMachinesRun Unit :=
  modify fun machines => { machines with stopGoStateM := effect machines.stopGoStateM }

/-- A step of the download machine. -/
def onCanEngineDB (effect : CanEngineDBStateMachine → CanEngineDBStateMachine) :
    StateMachinesRun Unit :=
  modify fun machines => { machines with canEngineDBStateM := effect machines.canEngineDBStateM }

/-- A program of the engine database. -/
def onEngineDb (program : DownloadRun Unit) : StateMachinesRun Unit := do
  let machines ← get
  let (_, engineDb) ← program.run machines.canEngineDBStateM.engineDb
  set { machines with
    canEngineDBStateM := { machines.canEngineDBStateM with engineDb := engineDb } }

/-- `run_app_download_enginedb_can` of the console. -/
def downloadEngines : DownloadRun Unit := do
  changeStatusIndicator (·.setCanDbDownload)
  modify (·.fetchEngineDB)

/-- What an event does to the machines. -/
def MachineEvent.exec : MachineEvent → StateMachinesRun Unit
  | .startRequestingStopGo => onStopGo (·.startRequesting)
  | .startRequestingEngineDB => onCanEngineDB (·.startRequesting)
  | .stopGoTimerCallback =>
      onStopGo fun machine => { machine with toStateMachineBase := machine.timerCallback }
  | .canEngineDBTimerCallback =>
      onCanEngineDB fun machine => { machine with toStateMachineBase := machine.timerCallback }
  | .stopGoLoop => onStopGo (·.loop)
  | .notifyEngineDBComplete => onCanEngineDB (·.notifyEngineDBComplete)
  | .canEngineDBLoop => onCanEngineDB (·.loop)
  | .handlePacket frame => do
      onStopGo (·.handlePacket frame)
      onCanEngineDB (·.handlePacket frame)
  | .database event => onEngineDb event.exec
  | .downloadEngines => onEngineDb C6021Light.downloadEngines

/-- `processStateMachines`. -/
def StateMachines.processStateMachines (machines : StateMachines) : StateMachines :=
  let machines := { machines with stopGoStateM := machines.stopGoStateM.loop }
  let machines :=
    if machines.canEngineDBStateM.engineDb.isComplete then
      { machines with canEngineDBStateM := machines.canEngineDBStateM.notifyEngineDBComplete }
    else machines
  { machines with canEngineDBStateM := machines.canEngineDBStateM.loop }

/-- `processStateMachines` is a sequence of events. -/
theorem processStateMachines_eq_events (machines : StateMachines) :
    (forM (if machines.canEngineDBStateM.engineDb.isComplete
      then [.stopGoLoop, .notifyEngineDBComplete, .canEngineDBLoop]
      else [.stopGoLoop, .canEngineDBLoop]) MachineEvent.exec).run machines
      = .ok ((), machines.processStateMachines) := by
  cases hcomplete : machines.canEngineDBStateM.engineDb.isComplete with
  | true => simp only [StateMachines.processStateMachines, hcomplete, if_true]; rfl
  | false =>
      simp only [StateMachines.processStateMachines, hcomplete]
      rfl

end C6021Light
