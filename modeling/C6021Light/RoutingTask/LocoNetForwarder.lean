import C6021Light.RoutingTask.LocoNetSlotServer

/-!
# `C6021Light.RoutingTask.LocoNetForwarder`: translations to and from LocoNet

The class `LocoNetForwarder` (`LocoNetForwarder.cpp`). `forwardLocoChange` and
`HandleDummyMessages` share the configuration, the slot server and the transmit queue with
the slot server, so they are `SlotServerRun` programs too.

`forward` and `MakeRR32CanMsg` translate turnout, sensor and power messages between CAN and
LocoNet without any state. `forward` gives the message that the source hands to `AsyncSend`,
if any, and `makeRR32CanMsg` the frame, or `none` where the source returns `false`.
-/

set_option autoImplicit false

namespace C6021Light

open BitMask

/-- `0x1F`: F0 to F4. -/
abbrev f0_4Mask : FunctionBits := 0x1F

/-- F5 to F8. -/
abbrev f5_8Mask : FunctionBits := 0x0F <<< kLowestFunctionInSndMessage

/-- F9 to F12. -/
abbrev f9_12Mask : FunctionBits :=
  0x0F <<< (kLowestFunctionInSndMessage + kFunctionsInSndMessage)

/-- F13 to F19. -/
abbrev f13_19Mask : FunctionBits := 0x7F <<< kFunExtFirstOffset

/-- F21 to F27. -/
abbrev f21_27Mask : FunctionBits := 0x7F <<< kFunExtSecondOffset

/-- F20 and F28. -/
abbrev f20_28Mask : FunctionBits := (1 <<< 20) ||| (1 <<< 28)

/-- `tx_->AsyncSend(msg)` under a condition. -/
def asyncSendIf (condition : Bool) (msg : LnMsg) : SlotServerRun Unit :=
  if condition then asyncSend msg else pure ()

/-- A change of a slot under a condition. -/
def modifySlotIf (condition : Bool) (slotIt : SlotIt) (change : SlotEntry → SlotEntry) :
    SlotServerRun Unit :=
  if condition then modifySlot slotIt change else pure ()

/-- The slot's functions after the loop of `forwardLocoChange`, which copies the flagged
functions among the first nine. -/
def SlotEntry.copyFunctions (loco : LocomotiveData) (diff : LocoDiff) (entry : SlotEntry) :
    SlotEntry :=
  { entry with
      loco := (List.range 9).foldl
        (fun slotLoco i =>
          if diff.functions &&& (1#32 <<< i) ≠ 0 then
            slotLoco.setFunction i (loco.getFunction i)
          else slotLoco)
        entry.loco }

/-- The slot of a locomotive: in active mode a new one is allocated when there is none. -/
def LocoNetForwarder.findSlot [AddressScheme] (addr : LocoAddr) : SlotServerRun SlotIt := do
  let server ← get
  -- An active server makes a slot for every address, or writes behind a full table.
  if server.isActive then findOrAllocateSlotForAddress addr
  else findSlotForAddress addr

/-- The part of `forwardLocoChange` behind the bounds check. The source's block under
`diff.velocity` is the first two calls. -/
def LocoNetForwarder.announce (slotIt : SlotIt) (loco : LocomotiveData) (diff : LocoDiff) :
    SlotServerRun Unit := do
  let slotIdx := findSlotIndex slotIt
  modifySlotIf diff.velocity slotIt fun entry =>
    { entry with loco := entry.loco.setVelocity loco.velocity }
  asyncSendIf diff.velocity (lnLocoSpeed slotIdx loco.velocity)
  modifySlotIf diff.direction slotIt fun entry =>
    { entry with loco := entry.loco.setDirection loco.direction }
  -- The source's loop ends at F8, so higher functions stay as they were in the slot.
  modifySlotIf (diff.functions ≠ 0) slotIt (·.copyFunctions loco diff)
  -- From here on the messages carry whole groups of `loco`, also its unflagged functions.
  asyncSendIf (diff.direction || decide (diff.functions &&& f0_4Mask ≠ 0))
    (lnLocoDirf slotIdx loco)
  asyncSendIf (diff.functions &&& f5_8Mask ≠ 0) (lnLocoSnd slotIdx loco)
  asyncSendIf (diff.functions &&& f9_12Mask ≠ 0) (lnLocoSnd2 slotIdx loco)
  asyncSendIf (diff.functions &&& f13_19Mask ≠ 0) (lnLocoFunExt slotIdx .first loco)
  asyncSendIf (diff.functions &&& f21_27Mask ≠ 0) (lnLocoFunExt slotIdx .second loco)
  asyncSendIf (diff.functions &&& f20_28Mask ≠ 0) (lnLocoFunExt slotIdx .third loco)

/-- `LocoNetForwarder::forwardLocoChange`. The result is `diff` afterwards. -/
def LocoNetForwarder.forwardLocoChange [AddressScheme] (loco : LocomotiveData)
    (diff : LocoDiff) : SlotServerRun LocoDiff := do
  let server ← get
  if server.isDisabled then pure diff
  else
    let slotIt ← LocoNetForwarder.findSlot loco.address
    if isSlotInBounds slotIt then
      LocoNetForwarder.announce slotIt loco diff
      -- The flags go down whatever `AsyncSend` returned.
      pure { velocity := false, direction := false, functions := 0 }
    else pure diff

/-- `LocoNetForwarder::forward`. -/
def LocoNetForwarder.forward [TurnoutScheme] : CanFrame → Option LnMsg
  | .accessorySwitch isResponse packet =>
      if !isResponse then some (lnTurnout packet.locid packet.direction packet.power) else none
  | .systemCommand isResponse subcommand =>
      match subcommand with
      | .systemStop => if !isResponse then some lnOff else none
      | .systemGo => if !isResponse then some lnOn else none
      | .other => none
  -- The response flag of an S88 frame is not read, its subtype is.
  | .s88Event _ event =>
      if event.subtype = .response then some (lnSensor event.contactId event.newState) else none
  | .other => none

/-- `LocoNetForwarder::MakeRR32CanMsg`. -/
def LocoNetForwarder.makeRR32CanMsg [TurnoutScheme] (dataModel : DataModel) :
    LnMsg → Option CanFrame
  | .swReq srq =>
      let lnAddr :=
        TurnoutScheme.setProtocol (getTurnoutAddress srq) dataModel.accessoryRailProtocol
      let direction : TurnoutDirection := if srq.sw2 &&& opcSwReqDir = 0 then .red else .green
      let turnoutPacket := (({} : TurnoutPacket).initData.setLocid lnAddr).setDirection direction
      some (.accessorySwitch false (turnoutPacket.setPower (srq.sw2 &&& opcSwReqOut)))
  | .gpOn _ => some (.systemCommand false .systemGo)
  | .gpOff _ => some (.systemCommand false .systemStop)
  | .inputRep ir =>
      let addr : TurnoutAddr := ir.in1.setWidth 16 <<< 1
      let addr := addr ||| ((ir.in2 &&& 0x0F#8).setWidth 16 <<< 8)
      let addr := addr ||| ((ir.in2 &&& 0x20#8).setWidth 16 >>> 5)
      -- The old state is the opposite of the new one.
      let newState : SensorState := if (ir.in2 &&& 0x10#8) >>> 4 = 0 then .opened else .closed
      let oldState : SensorState := if (ir.in2 &&& 0x10#8) >>> 4 = 0 then .closed else .opened
      some (.s88Event true
        { subtype := .response
          deviceId := 0
          contactId := addr
          oldState := oldState
          newState := newState
          time := 0 })
  -- Other packet types are not handled.
  | _ => none

/-- `LocoNetForwarder::HandleDummyMessages`. -/
def LocoNetForwarder.handleDummyMessages : LnMsg → SlotServerRun Unit
  | .swState _ => do
      let server ← get
      if server.isActive then
        asyncSend (lnLongAck opcSwState true)
  | _ => pure ()

end C6021Light
