import C6021Light.LocoNet.Messages
import C6021Light.RR32Can.Frames

/-!
# `C6021Light.RoutingTask.LocoNetHelpers`: building and reading LocoNet messages

The conversions of `LocoNetHelpers.h` and `LocoNetHelpers.cpp`: velocities, the direction and
function bytes, addresses, turnouts and sensors, and the message constructors.

The source's mask loops are `maskLoop`s here: the list is the range of the loop index, and
the one-bit mask moves left once for each index. A `uint16_t` intermediate result is cut to
16 bits where the source assigns it.
-/

set_option autoImplicit false

namespace C6021Light

open BitMask

/-- `kLocoNetMaxVeloctiy`. -/
abbrev kLocoNetMaxVeloctiy : Nat := 127

/-- Mask set means reverse. -/
abbrev kDirfDirMask : Byte := 0b00100000

/-- `kFunctionsInDirfMessage`: F0 to F4. -/
abbrev kFunctionsInDirfMessage : Nat := 5

/-- `kFunctionsInSndMessage`. -/
abbrev kFunctionsInSndMessage : Nat := 4

/-- `kLowestFunctionInSndMessage`. -/
abbrev kLowestFunctionInSndMessage : Nat := 5

/-- `kFunExtMagicByte`. -/
abbrev kFunExtMagicByte : Byte := 0x20

/-- `kFunExtFunctionPerMessage`. -/
abbrev kFunExtFunctionPerMessage : Nat := 7

/-- `kFunExtFirstOffset`: the first block starts at F13. -/
abbrev kFunExtFirstOffset : Nat := 13

/-- `kFunExtSecondOffset`: the second block starts at F21. -/
abbrev kFunExtSecondOffset : Nat := 21

/-- `kFunExt20Mask`, in the third block. -/
abbrev kFunExt20Mask : Byte := 0x20

/-- `kFunExt28Mask`, in the third block. -/
abbrev kFunExt28Mask : Byte := 0x40

/-- `LocoFunExtBlockId`. A received byte can hold any other value too, so the values are
bytes and not an enumeration. -/
abbrev LocoFunExtBlockId := Byte

/-- The block of F13 to F19. -/
abbrev LocoFunExtBlockId.first : LocoFunExtBlockId := 8

/-- The block of F21 to F27. -/
abbrev LocoFunExtBlockId.second : LocoFunExtBlockId := 9

/-- The block of F20 and F28. -/
abbrev LocoFunExtBlockId.third : LocoFunExtBlockId := 5

/-! ### Velocities -/

/-- `lnSpeedToCanVelocity`. -/
def lnSpeedToCanVelocity (speed : Byte) : Velocity :=
  -- Ten times the value, so that adding 5 and dividing by 10 rounds.
  let adjustedSpeed : BitVec 16 := .ofNat 16 (speed.toNat * 10)
  let velocity := adjustedSpeed.toNat * kMaxEngineVelocity / kLocoNetMaxVeloctiy
  let roundedVelocity := (velocity + 5) / 10
  .ofNat 16 roundedVelocity

/-- `canVelocityToLnSpeed`. -/
def canVelocityToLnSpeed (velocity : Velocity) : Byte :=
  -- This product wraps for velocities from 6554 on.
  let adjustedVelocity : Velocity := .ofNat 16 (velocity.toNat * 10)
  let speed := adjustedVelocity.toNat * kLocoNetMaxVeloctiy / kMaxEngineVelocity
  let roundedSpeed := (speed + 5) / 10
  .ofNat 8 roundedSpeed

/-! ### Direction and function bytes -/

/-- Which function the `i`-th bit of a direction byte controls: F1 to F4, then F0. -/
def dirfFunctionIdx (i : Nat) : Nat :=
  if i + 1 = kFunctionsInDirfMessage then 0 else i + 1

/-- `dirfToLoco`. -/
def dirfToLoco (dirf : Byte) (loco : LocomotiveData) : LocomotiveData :=
  let direction : EngineDirection :=
    if dirf &&& kDirfDirMask = kDirfDirMask then .reverse else .forward
  maskLoop
    (fun loco i functionMask =>
      loco.setFunction (dirfFunctionIdx i) (decide (dirf &&& functionMask ≠ 0#8)))
    (List.range kFunctionsInDirfMessage) 1#8 (loco.setDirection direction)

/-- `locoToDirf`. -/
def locoToDirf (loco : LocomotiveData) : Byte :=
  let dirf : Byte :=
    -- Bits 6 and 7 stay clear.
    if loco.direction = .reverse then 0#8 ||| kDirfDirMask else 0#8 &&& ~~~kDirfDirMask
  maskLoop
    (fun dirf i functionMask =>
      if loco.getFunction (dirfFunctionIdx i) then dirf ||| functionMask
      else dirf &&& ~~~functionMask)
    (List.range kFunctionsInDirfMessage) 1#8 dirf

/-- `sndToLoco`, from the function at the offset on. -/
def sndToLoco (snd : Byte) (loco : LocomotiveData) (functionOffset : Nat) : LocomotiveData :=
  maskLoop
    (fun loco functionIdx functionMask =>
      loco.setFunction functionIdx (decide (snd &&& functionMask ≠ 0#8)))
    (List.range' functionOffset kFunctionsInSndMessage) 1#8 loco

/-- `locoToSnd`, from the function at the offset on. -/
def locoToSnd (loco : LocomotiveData) (functionOffset : Nat) : Byte :=
  maskLoop
    (fun snd functionIdx functionMask =>
      if loco.getFunction functionIdx then snd ||| functionMask
      else snd &&& ~~~functionMask)
    (List.range' functionOffset kFunctionsInSndMessage) 1#8 0#8

/-- Every block id other than `third` and `first` is read as `second`. -/
def funExtStartIdx (blockId : LocoFunExtBlockId) : Nat :=
  if blockId = .first then kFunExtFirstOffset else kFunExtSecondOffset

/-- `locoToFunExtByte`. The third block has two functions that do not follow each other. -/
def locoToFunExtByte (blockId : LocoFunExtBlockId) (loco : LocomotiveData) : Byte :=
  if blockId = .third then
    let result : Byte := if loco.getFunction 20 then 0#8 ||| kFunExt20Mask else 0#8
    if loco.getFunction 28 then result ||| kFunExt28Mask else result
  else
    maskLoop
      (fun result i mask => if loco.getFunction i then result ||| mask else result)
      (List.range' (funExtStartIdx blockId) kFunExtFunctionPerMessage) 1#8 0#8

/-! ### Addresses -/

/-- `getLocoAddress`. -/
def getLocoAddress (slotRead : RwSlotDataMsg) : LocoAddr :=
  -- The high byte is not masked: a seven-bit byte needs no mask.
  (slotRead.adr2.setWidth 16 <<< 7) ||| (slotRead.adr &&& 0x7F#8).setWidth 16

/-- The two address bytes of `putLocoAddress`, low bits first. -/
def putLocoAddress (address : LocoAddr) : Byte × Byte :=
  ((address &&& 0x7F#16).setWidth 8, (address >>> 7).setWidth 8)

/-- `extractLocoAddress` on an `OPC_LOCO_ADR` message: `data[1]` and `data[2]` are its two
address bytes. -/
def extractLocoAddress (la : LocoAdrMsg) : LocoAddr :=
  (la.adrHi.setWidth 16 <<< 7) ||| (la.adrLo &&& 0x7F#8).setWidth 16

/-! ### Turnouts and sensors -/

/-- `OPC_SW_REQ_DIR`. Mask set means green. -/
abbrev opcSwReqDir : Byte := 0x20

/-- `OPC_SW_REQ_OUT`. -/
abbrev opcSwReqOut : Byte := 0x10

/-- `OPC_INPUT_REP_HI`. Mask set means closed. -/
abbrev opcInputRepHi : Byte := 0x10

/-- `getTurnoutAddress`. -/
def getTurnoutAddress (srq : SwitchReqMsg) : TurnoutAddr :=
  ((srq.sw2 &&& 0x0F#8).setWidth 16 <<< 7) ||| srq.sw1.setWidth 16

/-- The two bytes that `putTurnoutAddress` writes. -/
def putTurnoutAddress [TurnoutScheme] (address : TurnoutAddr) (direction : TurnoutDirection)
    (power : Bool) : SwitchReqMsg :=
  let addr := TurnoutScheme.getNumericAddress address
  let sw1 : Byte := (addr &&& 0x7F#16).setWidth 8
  -- Address bits from 11 on are dropped.
  let sw2 : Byte := ((addr >>> 7) &&& 0x0F#16).setWidth 8
  let sw2 := if power then sw2 ||| opcSwReqOut else sw2
  let sw2 := if direction = .green then sw2 ||| opcSwReqDir else sw2
  { sw1 := sw1, sw2 := sw2 }

/-! ### Slot moves -/

/-- `isDispatchGet`: slot 0 is the source. -/
def isDispatchGet (msg : SlotMoveMsg) : Bool := msg.src = 0

/-- `isDispatchPut`: slot 0 is the destination. -/
def isDispatchPut (msg : SlotMoveMsg) : Bool := msg.dest = 0

/-- `isNullMove`: source and destination are one slot. -/
def isNullMove (msg : SlotMoveMsg) : Bool := msg.src = msg.dest

/-! ### Message constructors -/

/-- `Ln_Turnout`. -/
def lnTurnout [TurnoutScheme] (address : TurnoutAddr) (direction : TurnoutDirection)
    (power : Bool) : LnMsg :=
  .swReq (putTurnoutAddress address direction power)

/-- `Ln_Sensor`. -/
def lnSensor (address : TurnoutAddr) (state : SensorState) : LnMsg :=
  let bit0 : Byte := (address &&& 1#16).setWidth 8
  let bits1to7 : Byte := ((address >>> 1) &&& 0x7F#16).setWidth 8
  -- Bits from 12 on are dropped.
  let bits8to11 : Byte := ((address >>> 8) &&& 0x0F#16).setWidth 8
  let in2 := (bit0 <<< 5) ||| bits8to11
  .inputRep { in1 := bits1to7, in2 := if state = .closed then in2 ||| opcInputRepHi else in2 }

/-- `Ln_On`. -/
def lnOn : LnMsg := .gpOn { in1 := 0, in2 := 0 }

/-- `Ln_Off`. -/
def lnOff : LnMsg := .gpOff { in1 := 0, in2 := 0 }

/-- `Ln_LongAck`. -/
def lnLongAck (lopc : Byte) (success : Bool) : LnMsg :=
  .longAck { opcode := lopc &&& 0x7F, ack1 := if success then 0x7F else 0 }

/-- `Ln_RequestSlotData`. -/
def lnRequestSlotData (slot : Byte) : LnMsg := .rqSlData { slot := slot, pad := 0 }

/-- `Ln_SlotReadWriteMessage`. -/
def lnSlotReadWriteMessage (slot stat : Byte) (engine : LocomotiveData) : RwSlotDataMsg :=
  { mesgSize := 0x0E
    slot := slot
    stat := stat
    adr := (putLocoAddress engine.address).1
    spd := canVelocityToLnSpeed engine.velocity
    dirf := locoToDirf engine
    trk := 0
    ss2 := 0
    adr2 := (putLocoAddress engine.address).2
    snd := locoToSnd engine kLowestFunctionInSndMessage
    id1 := 0
    id2 := 0 }

/-- `Ln_SlotDataRead`. -/
def lnSlotDataRead (slot stat : Byte) (engine : LocomotiveData) : LnMsg :=
  .slRdData (lnSlotReadWriteMessage slot stat engine)

/-- `Ln_SlotDataWrite`. -/
def lnSlotDataWrite (slot stat : Byte) (engine : LocomotiveData) : LnMsg :=
  .wrSlData (lnSlotReadWriteMessage slot stat engine)

/-- `Ln_LocoSpeed`. -/
def lnLocoSpeed (slotIdx : Byte) (velocity : Velocity) : LnMsg :=
  .locoSpd { slot := slotIdx, spd := canVelocityToLnSpeed velocity }

/-- `Ln_LocoDirf`. -/
def lnLocoDirf (slotIdx : Byte) (loco : LocomotiveData) : LnMsg :=
  .locoDirf { slot := slotIdx, dirf := locoToDirf loco }

/-- `Ln_LocoSnd`. -/
def lnLocoSnd (slotIdx : Byte) (loco : LocomotiveData) : LnMsg :=
  .locoSnd { slot := slotIdx, snd := locoToSnd loco kLowestFunctionInSndMessage }

/-- `Ln_LocoSnd2`. -/
def lnLocoSnd2 (slotIdx : Byte) (loco : LocomotiveData) : LnMsg :=
  .locoSnd2 { slot := slotIdx,
              snd := locoToSnd loco (kLowestFunctionInSndMessage + kFunctionsInSndMessage) }

/-- `Ln_LocoFunExt`. -/
def lnLocoFunExt (slotIdx : Byte) (blockId : LocoFunExtBlockId) (loco : LocomotiveData) :
    LnMsg :=
  .locoFunext { arg1 := kFunExtMagicByte, arg2 := slotIdx, arg3 := blockId,
                arg4 := locoToFunExtByte blockId loco }

end C6021Light
