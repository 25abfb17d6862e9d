import C6021Light.Lib.FaultRun
import C6021Light.LocoNetTx
import C6021Light.RoutingTask.LocoNetHelpers

/-!
# `C6021Light.RoutingTask.LocoNetSlotServer`: the slot table and the message handler

The class `LocoNetSlotServer` (`LocoNetSlotServer.h`, `LocoNetSlotServer.cpp`). Its members
are the slot table, the dispatch marker, and pointers to the configuration and the transmit
queue. The record `LocoNetSlotServer` holds what they point to.

An iterator into `slotDB_` is its distance from `begin()`, so `end()` is `kNumSlots`. A read
or write through an iterator outside the table is undefined behaviour in the source. It is a
`Fault` here, and the run stops.

Each handler that changes one slot is split in two: the part that finds the slot, in
`SlotServerRun`, and the change of the `SlotEntry`, a pure function with the name of the
handler.
-/

set_option autoImplicit false

namespace C6021Light

open BitMask AddressScheme

/-- `LocoDiff_t` (`RoutingForwarder.h`): which attributes the other bus has not been told. -/
structure LocoDiff where
  velocity : Bool := false
  direction : Bool := false
  functions : FunctionBits := 0
deriving DecidableEq, Repr

/-- `hasDiff`: an attribute is flagged. -/
def LocoDiff.hasDiff (diff : LocoDiff) : Bool :=
  diff.velocity || diff.direction || decide (diff.functions ≠ 0)

/-- `SlotServerState`. -/
inductive SlotServerState
  | disabled
  | passive
  | active
deriving DecidableEq, Repr

/-- `DataModel`, the configuration. -/
structure DataModel where
  accessoryRailProtocol : RailProtocol := .mm2
  lnSlotServerState : SlotServerState := .disabled
  generateI2CTurnoutResponse : Bool := false
deriving DecidableEq, Repr

/-- `SlotEntry`. -/
structure SlotEntry where
  inUse : Bool := false
  loco : LocomotiveData := {}
  diff : LocoDiff := {}
  needsMatchToCAN : Bool := false
deriving DecidableEq, Repr

/-- `hasUpdate`. -/
def SlotEntry.hasUpdate (entry : SlotEntry) : Bool := entry.diff.hasDiff

/-- `kNumSlots`: slots 0 to 126. -/
abbrev kNumSlots : Nat := 127

/-- The slot table. Slot 0 is not used. -/
abbrev SlotDB := Vector SlotEntry kNumSlots

/-- The table at start-up. -/
def SlotDB.empty : SlotDB := .replicate kNumSlots {}

/-- An iterator into the slot table. `kNumSlots` is `end()`. -/
abbrev SlotIt := Nat

/-- The entry behind an iterator inside the table. -/
def SlotDB.entry (slotDB : SlotDB) (i : Fin kNumSlots) : SlotEntry := slotDB[i]

/-- `LocoNetSlotServer`. `slotInDispatch` is `end()` when no slot is in dispatch. -/
structure LocoNetSlotServer where
  dataModel : DataModel
  tx : LocoNetTx := {}
  slotDB : SlotDB := .empty
  slotInDispatch : SlotIt := kNumSlots

/-- An access outside the slot table. -/
inductive Fault
  | slotOutOfBounds (slotIt : SlotIt)
deriving DecidableEq, Repr

/-- A function of the slot server, which may reach outside the table. -/
abbrev SlotServerRun := StateT LocoNetSlotServer (Except Fault)

/-! ### Access to the members -/

namespace LocoNetSlotServer

/-- The entry of a slot inside the table. -/
def slot (s : LocoNetSlotServer) (i : Fin kNumSlots) : SlotEntry := s.slotDB.entry i

/-- The server with one slot replaced. -/
def setSlot (s : LocoNetSlotServer) (i : Fin kNumSlots) (entry : SlotEntry) :
    LocoNetSlotServer :=
  { s with slotDB := s.slotDB.set i entry }

end LocoNetSlotServer

/-- `*slotIt`. -/
def slotAt (slotIt : SlotIt) : SlotServerRun SlotEntry := do
  let server ← get
  if h : slotIt < kNumSlots then pure (server.slot ⟨slotIt, h⟩)
  else throw (.slotOutOfBounds slotIt)

/-- `*slotIt = entry`. -/
def writeSlot (slotIt : SlotIt) (entry : SlotEntry) : SlotServerRun Unit := do
  let server ← get
  if h : slotIt < kNumSlots then set (server.setSlot ⟨slotIt, h⟩ entry)
  else throw (.slotOutOfBounds slotIt)

/-- A change of the entry behind `slotIt`. -/
def modifySlot (slotIt : SlotIt) (change : SlotEntry → SlotEntry) : SlotServerRun Unit := do
  writeSlot slotIt (change (← slotAt slotIt))

/-- `tx_->AsyncSend(msg)`, with the result dropped. -/
def asyncSend (msg : LnMsg) : SlotServerRun Unit :=
  modify fun server => { server with tx := (server.tx.asyncSend msg).2 }

namespace LocoNetSlotServer

/-- `isDisabled`. -/
def isDisabled (server : LocoNetSlotServer) : Bool :=
  server.dataModel.lnSlotServerState = .disabled

/-- `isPassive`. -/
def isPassive (server : LocoNetSlotServer) : Bool :=
  server.dataModel.lnSlotServerState = .passive

/-- `isActive`. -/
def isActive (server : LocoNetSlotServer) : Bool :=
  server.dataModel.lnSlotServerState = .active

/-- `dispatchSlotAvailable`. -/
def dispatchSlotAvailable (server : LocoNetSlotServer) : Bool :=
  server.slotInDispatch ≠ kNumSlots

end LocoNetSlotServer

/-- `isSlotInBounds`: the source compares with `end()` only. -/
def isSlotInBounds (slotIt : SlotIt) : Bool := slotIt ≠ kNumSlots

/-- `findSlotIndex`. -/
def findSlotIndex (slotIt : SlotIt) : Byte := .ofNat 8 slotIt

/-- `findSlot`: `end()` for a slot number that is too large. -/
def findSlot (lnMsgSlot : Byte) : SlotIt := min lnMsgSlot.toNat kNumSlots

/-! ### Slots by address -/

/-- `findSlotForAddress`: the first slot in use with exactly this address, or `end()`. -/
def findSlotForAddress (addr : LocoAddr) : SlotServerRun SlotIt := do
  let server ← get
  -- Whole addresses are compared, with their protocol. The search that allocates compares
  -- numeric parts.
  pure (server.slotDB.toList.findIdx fun entry =>
    entry.inUse && decide (entry.loco.address = addr))

/-- `clearSlot`. -/
def clearSlot (slot : SlotIt) : SlotServerRun Unit := writeSlot slot {}

/-- `initializeSlot`. -/
def initializeSlot (slot : SlotIt) (address : LocoAddr) : SlotServerRun Unit := do
  clearSlot slot
  modifySlot slot fun entry =>
    { entry with loco := entry.loco.setAddress address, inUse := true, needsMatchToCAN := true }

/-- The loop of `findOrAllocateSlotForAddress`. `.inl` is the slot that holds the address.
`.inr` is `freeIt` after the loop: the first free slot, or `end()`. -/
def searchSlots [AddressScheme] (slotDB : SlotDB) (addr : LocoAddr) :
    List (Fin kNumSlots) → SlotIt → SlotIt ⊕ SlotIt
  | [], freeIt => .inr freeIt
  | addrIt :: rest, freeIt =>
      -- `inUse` is not asked here, so a free slot that kept its address is found too.
      if getNumericAddress (slotDB.entry addrIt).loco.address = addr then .inl addrIt
      -- Only the first free slot is remembered.
      else if freeIt = kNumSlots ∧ ¬ (slotDB.entry addrIt).inUse then
        searchSlots slotDB addr rest addrIt
      else searchSlots slotDB addr rest freeIt

/-- The iterators from `begin() + 1` up to `end()`. -/
def searchRange : List (Fin kNumSlots) := (List.finRange kNumSlots).tail

/-- `findOrAllocateSlotForAddress`. The source initializes `freeIt` without a test, also
when the loop leaves it at `end()`. -/
def findOrAllocateSlotForAddress [AddressScheme] (addr : LocoAddr) : SlotServerRun SlotIt := do
  let server ← get
  let addr := getNumericAddress addr
  match searchSlots server.slotDB addr searchRange kNumSlots with
  | .inl addrIt => pure addrIt
  | .inr freeIt =>
      initializeSlot freeIt addr
      pure freeIt

/-- `markAddressForDispatch`. -/
def markAddressForDispatch [AddressScheme] (addr : LocoAddr) : SlotServerRun Bool := do
  let it ← findOrAllocateSlotForAddress addr
  -- `end()` has been initialized by now, so this test comes too late.
  if it = kNumSlots then pure false
  else
    modify fun server => { server with slotInDispatch := it }
    pure true

/-! ### Answers -/

/-- The status byte of `sendSlotDataRead`: 128 steps mode, no advanced consisting, and busy
or free. -/
def slotStatus (entry : SlotEntry) : Byte :=
  let stat : Byte := 0b00000011
  if entry.inUse then stat ||| 0b00110000 else stat &&& ~~~0b00110000

/-- `sendSlotDataRead`. -/
def sendSlotDataRead (slot : SlotIt) : SlotServerRun Unit := do
  let slotIdx := findSlotIndex slot
  let entry ← slotAt slot
  asyncSend (lnSlotDataRead slotIdx (slotStatus entry) entry.loco)

/-- `sendNoDispatch`. -/
def sendNoDispatch : SlotServerRun Unit := asyncSend (lnLongAck opcMoveSlots false)

/-- `processRequestSlotRead`. -/
def processRequestSlotRead (slotReq : SlotReqMsg) : SlotServerRun Unit :=
  sendSlotDataRead (findSlot slotReq.slot)

/-- `requestSlotDataRead`. -/
def requestSlotDataRead (slot : SlotIt) : SlotServerRun Unit := do
  let server ← get
  if !server.isDisabled then
    -- What the slot has pending is dropped: the answer will bring the engine's state.
    modifySlot slot fun entry => { entry with diff := {} }
    asyncSend (lnRequestSlotData (findSlotIndex slot))

/-- `findOrRequestSlot`. -/
def findOrRequestSlot (lnMsgSlot : Byte) : SlotServerRun SlotIt := do
  let slotIt := findSlot lnMsgSlot
  -- The source reads `slotIt->inUse` here, before any caller asks for the bounds.
  let entry ← slotAt slotIt
  if !entry.inUse then
    requestSlotDataRead slotIt
  pure slotIt

/-! ### Slot moves and address requests -/

/-- `processSlotMove`. -/
def processSlotMove (msg : SlotMoveMsg) : SlotServerRun Unit := do
  let server ← get
  if isDispatchGet msg then
    if server.isActive then
      if server.dispatchSlotAvailable then
        sendSlotDataRead server.slotInDispatch
        modify fun server => { server with slotInDispatch := kNumSlots }
      else sendNoDispatch
  else if isDispatchPut msg then
    -- The source advances from `begin()` by the received byte, in every mode.
    set { server with slotInDispatch := msg.src.toNat }
  else if isNullMove msg then
    -- Self-moves are ignored.
    pure ()
  else
    let fromSlot := msg.src.toNat
    let toSlot := msg.dest.toNat
    if isSlotInBounds toSlot then
      if isSlotInBounds fromSlot then
        -- The slot moves with its pending changes.
        writeSlot toSlot (← slotAt fromSlot)
        clearSlot fromSlot
      else clearSlot toSlot

/-- `processLocoRequest`. -/
def processLocoRequest [AddressScheme] (locoAddr : LocoAddr) : SlotServerRun Unit := do
  let server ← get
  if server.isActive then
    let slot ← findOrAllocateSlotForAddress locoAddr
    -- Allocation has written to `end()` before this test.
    if slot ≠ kNumSlots then
      sendSlotDataRead slot

/-! ### Messages that change one slot -/

/-- The slot after `processSlotRead`. The status byte is not read. -/
def SlotEntry.slotRead (msg : RwSlotDataMsg) (entry : SlotEntry) : SlotEntry :=
  let loco := entry.loco.reset.setAddress (getLocoAddress msg)
  -- The UID is the plain address: the engine is taken for an MM2 engine.
  let loco := loco.setUid ((getLocoAddress msg).setWidth 32)
  let loco := loco.setVelocity (lnSpeedToCanVelocity msg.spd)
  let loco := sndToLoco msg.snd (dirfToLoco msg.dirf loco) kLowestFunctionInSndMessage
  { entry with inUse := true, loco := loco, needsMatchToCAN := true }

/-- `processSlotRead`. -/
def processSlotRead (msg : RwSlotDataMsg) : SlotServerRun Unit := do
  let slotIt := findSlot msg.slot
  if slotIt ≠ kNumSlots then
    modifySlot slotIt (·.slotRead msg)

/-- The slot after `processLocoSpeed`. -/
def SlotEntry.locoSpeed (msg : LocoSpdMsg) (entry : SlotEntry) : SlotEntry :=
  { entry with
      loco := entry.loco.setVelocity (lnSpeedToCanVelocity msg.spd)
      -- The flag goes up also when the velocity stays the same.
      diff := { entry.diff with velocity := true } }

/-- The slot after `processLocoDirF`. -/
def SlotEntry.locoDirF (msg : LocoDirfMsg) (entry : SlotEntry) : SlotEntry :=
  let oldDirf := locoToDirf entry.loco
  -- Bits 6 and 7 of the received byte have no meaning, but they count as a difference.
  let delta := oldDirf ^^^ msg.dirf
  if delta ≠ 0 then
    let loco := dirfToLoco msg.dirf entry.loco
    { entry with
        loco := loco
        diff := { entry.diff with
          direction := entry.diff.direction || decide (delta &&& kDirfDirMask ≠ 0)
          functions := entry.diff.functions ||| (loco.functions ^^^ entry.loco.functions) } }
  else entry

/-- The slot after `processLocoSnd`. -/
def SlotEntry.locoSnd (msg : LocoSndMsg) (functionOffset : Nat) (entry : SlotEntry) :
    SlotEntry :=
  let oldSnd := locoToSnd entry.loco functionOffset
  let delta := oldSnd ^^^ msg.snd
  if delta ≠ 0 then
    let loco := sndToLoco msg.snd entry.loco functionOffset
    { entry with
        loco := loco
        diff := { entry.diff with
          functions := entry.diff.functions ||| (loco.functions ^^^ entry.loco.functions) } }
  else entry

/-- The slot after `processLocoFunExt`, for a message with the magic byte. -/
def SlotEntry.locoFunExt (msg : MultiSenseDeviceInfoMsg) (entry : SlotEntry) : SlotEntry :=
  let blockId : LocoFunExtBlockId := msg.arg3
  let loco :=
    if blockId = .third then
      (entry.loco.setFunction 20 (decide (msg.arg4 &&& kFunExt20Mask ≠ 0))).setFunction 28
        (decide (msg.arg4 &&& kFunExt28Mask ≠ 0))
    else
      -- Every other block id is read as FIRST or SECOND, see `funExtStartIdx`.
      maskLoop
        (fun loco functionIdx mask =>
          loco.setFunction functionIdx (decide (msg.arg4 &&& mask ≠ 0#8)))
        (List.range' (funExtStartIdx blockId) kFunExtFunctionPerMessage) 1#8 entry.loco
  { entry with
      loco := loco
      diff := { entry.diff with
        functions := entry.diff.functions ||| (entry.loco.functions ^^^ loco.functions) } }

/-- The common frame of the control message handlers: find the slot, ask for its data when it
is not in use, and change it when it is inside the table. -/
def changeRequestedSlot (slot : Byte) (change : SlotEntry → SlotEntry) :
    SlotServerRun Unit := do
  let slotIt ← findOrRequestSlot slot
  if isSlotInBounds slotIt then
    modifySlot slotIt change

/-- `processLocoSpeed`. -/
def processLocoSpeed (msg : LocoSpdMsg) : SlotServerRun Unit :=
  changeRequestedSlot msg.slot (·.locoSpeed msg)

/-- `processLocoDirF`. -/
def processLocoDirF (msg : LocoDirfMsg) : SlotServerRun Unit :=
  changeRequestedSlot msg.slot (·.locoDirF msg)

/-- `processLocoSnd`. -/
def processLocoSnd (msg : LocoSndMsg) (functionOffset : Nat) : SlotServerRun Unit :=
  changeRequestedSlot msg.slot (·.locoSnd msg functionOffset)

/-- `processLocoFunExt`. -/
def processLocoFunExt (msg : MultiSenseDeviceInfoMsg) : SlotServerRun Unit := do
  if msg.arg1 = kFunExtMagicByte then
    changeRequestedSlot msg.arg2 (·.locoFunExt msg)

/-! ### The message switch -/

/-- `LocoNetSlotServer::process`. -/
def process [AddressScheme] : LnMsg → SlotServerRun Unit
  | .moveSlots sm => processSlotMove sm
  | .locoAdr la => processLocoRequest (extractLocoAddress la)
  | .rqSlData sr => processRequestSlotRead sr
  | .slRdData sd => processSlotRead sd
  | .wrSlData sd => do
      processSlotRead sd
      let server ← get
      if server.isActive then
        asyncSend (lnLongAck opcWrSlData true)
  | .locoSpd lsp => processLocoSpeed lsp
  | .locoDirf ldf => processLocoDirF ldf
  | .locoSnd ls => processLocoSnd ls kLowestFunctionInSndMessage
  | .locoSnd2 ls => processLocoSnd ls (kLowestFunctionInSndMessage + kFunctionsInSndMessage)
  | .locoFunext msdi => processLocoFunExt msdi
  -- The `default` of the switch.
  | .longAck _ | .swState _ | .swReq _ | .inputRep _ | .gpOn _ | .gpOff _ | .other _ => pure ()

end C6021Light
