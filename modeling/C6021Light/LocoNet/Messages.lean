import C6021Light.RR32Can.Locomotive

/-!
# `C6021Light.LocoNet.Messages`: LocoNet messages

`lnMsg` is a union of byte structures over one buffer, and the opcode in the first byte says
which structure applies. `LnMsg` has one constructor for each opcode that the routing code
reads or sends, with the structure that the code uses for it. The structures keep the
library's field names. The checksum is left out: every sender writes 0 and the LocoNet
driver fills it in.

`argBytes` lists the bytes between opcode and checksum. A byte with bit 7 set starts a new
message on the bus, so a received message has 7-bit argument bytes (`SevenBit`).
-/

set_option autoImplicit false

namespace C6021Light

/-- `slotMoveMsg`. -/
structure SlotMoveMsg where
  src : Byte
  dest : Byte
deriving DecidableEq, Repr

/-- `locoAdrMsg`. -/
structure LocoAdrMsg where
  adrHi : Byte
  adrLo : Byte
deriving DecidableEq, Repr

/-- `slotReqMsg`. -/
structure SlotReqMsg where
  slot : Byte
  pad : Byte := 0
deriving DecidableEq, Repr

/-- `rwSlotDataMsg`. -/
structure RwSlotDataMsg where
  mesgSize : Byte := 0x0E
  slot : Byte
  stat : Byte
  adr : Byte
  spd : Byte
  dirf : Byte
  trk : Byte := 0
  ss2 : Byte := 0
  adr2 : Byte
  snd : Byte
  id1 : Byte := 0
  id2 : Byte := 0
deriving DecidableEq, Repr

/-- `locoSpdMsg`. -/
structure LocoSpdMsg where
  slot : Byte
  spd : Byte
deriving DecidableEq, Repr

/-- `locoDirfMsg`. -/
structure LocoDirfMsg where
  slot : Byte
  dirf : Byte
deriving DecidableEq, Repr

/-- `locoSndMsg`. -/
structure LocoSndMsg where
  slot : Byte
  snd : Byte
deriving DecidableEq, Repr

/-- `multiSenseDeviceInfoMsg`. -/
structure MultiSenseDeviceInfoMsg where
  arg1 : Byte
  arg2 : Byte
  arg3 : Byte
  arg4 : Byte
deriving DecidableEq, Repr

/-- `longAckMsg`. -/
structure LongAckMsg where
  opcode : Byte
  ack1 : Byte
deriving DecidableEq, Repr

/-- `switchReqMsg`. -/
structure SwitchReqMsg where
  sw1 : Byte
  sw2 : Byte
deriving DecidableEq, Repr

/-- `inputRepMsg`. The code also writes the power messages through it. -/
structure InputRepMsg where
  in1 : Byte
  in2 : Byte
deriving DecidableEq, Repr

/-- A LocoNet message, by opcode. `other` stands for the opcodes that the routing code
ignores. -/
inductive LnMsg
  | moveSlots (sm : SlotMoveMsg)
  | locoAdr (la : LocoAdrMsg)
  | rqSlData (sr : SlotReqMsg)
  | slRdData (sd : RwSlotDataMsg)
  | wrSlData (sd : RwSlotDataMsg)
  | locoSpd (lsp : LocoSpdMsg)
  | locoDirf (ldf : LocoDirfMsg)
  | locoSnd (ls : LocoSndMsg)
  | locoSnd2 (ls : LocoSndMsg)
  | locoFunext (msdi : MultiSenseDeviceInfoMsg)
  | longAck (lack : LongAckMsg)
  | swState (srq : SwitchReqMsg)
  | swReq (srq : SwitchReqMsg)
  | inputRep (ir : InputRepMsg)
  | gpOn (ir : InputRepMsg)
  | gpOff (ir : InputRepMsg)
  | other (args : List Byte)
deriving DecidableEq, Repr

/-- `OPC_MOVE_SLOTS`. -/
abbrev opcMoveSlots : Byte := 0xBA

/-- `OPC_WR_SL_DATA`. -/
abbrev opcWrSlData : Byte := 0xEF

/-- `OPC_SW_STATE`. -/
abbrev opcSwState : Byte := 0xBC

namespace LnMsg

/-- The bytes between opcode and checksum, in wire order. -/
def argBytes : LnMsg → List Byte
  | moveSlots sm => [sm.src, sm.dest]
  | locoAdr la => [la.adrHi, la.adrLo]
  | rqSlData sr => [sr.slot, sr.pad]
  | slRdData sd | wrSlData sd =>
      [sd.mesgSize, sd.slot, sd.stat, sd.adr, sd.spd, sd.dirf, sd.trk, sd.ss2, sd.adr2,
        sd.snd, sd.id1, sd.id2]
  | locoSpd lsp => [lsp.slot, lsp.spd]
  | locoDirf ldf => [ldf.slot, ldf.dirf]
  | locoSnd ls | locoSnd2 ls => [ls.slot, ls.snd]
  | locoFunext msdi => [msdi.arg1, msdi.arg2, msdi.arg3, msdi.arg4]
  | longAck lack => [lack.opcode, lack.ack1]
  | swState srq | swReq srq => [srq.sw1, srq.sw2]
  | inputRep ir | gpOn ir | gpOff ir => [ir.in1, ir.in2]
  | other args => args

/-- No argument byte can be taken for an opcode. -/
def SevenBit (m : LnMsg) : Prop := ∀ b ∈ m.argBytes, b < 128#8

/-- The bytes can be checked. -/
instance (m : LnMsg) : Decidable m.SevenBit := by
  unfold SevenBit
  infer_instance

end LnMsg

end C6021Light
