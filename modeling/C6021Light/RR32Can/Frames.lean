import C6021Light.RR32Can.Locomotive

/-!
# `C6021Light.RR32Can.Frames`: accessory, sensor and power frames on CAN

The frames of the RR32Can library that the routing code translates: accessory packets, S88
sensor events, and the two system commands for track power. They are modelled by the fields
that the code reads and writes, with the names of the library's getters and setters. Every
other command is `other`. A frame that `initData` has cleared has address 0, power off and
direction `RED`.

A `MachineTurnoutAddress` carries the rail protocol in its upper bits, in the library's own
encoding. That encoding stays a parameter: `TurnoutScheme` has the three functions that the
code calls. `TurnoutScheme.upperBits` is one to evaluate with.
-/

set_option autoImplicit false

namespace C6021Light

/-- `RR32Can::MachineTurnoutAddress`. -/
abbrev TurnoutAddr := BitVec 16

/-- `RR32Can::RailProtocol`, as far as the code names it. -/
inductive RailProtocol
  | unknown
  | mm1
  | mm2
  | mfx
  | sx1
  | sx2
  | dcc
deriving DecidableEq, Repr

/-- The encoding of turnout addresses with their protocol. -/
class TurnoutScheme where
  getNumericAddress : TurnoutAddr → TurnoutAddr
  setProtocol : TurnoutAddr → RailProtocol → TurnoutAddr
  getRailProtocol : TurnoutAddr → RailProtocol

/-- `RR32Can::TurnoutDirection`. -/
inductive TurnoutDirection
  | red
  | green
deriving DecidableEq, Repr

/-- `RR32Can::TurnoutPacket`. -/
structure TurnoutPacket where
  locid : TurnoutAddr := 0
  direction : TurnoutDirection := .red
  power : Bool := false
deriving DecidableEq, Repr

namespace TurnoutPacket

/-- Back to an empty packet. -/
def initData (_ : TurnoutPacket) : TurnoutPacket := {}

/-- `setLocid`. -/
def setLocid (packet : TurnoutPacket) (locid : TurnoutAddr) : TurnoutPacket :=
  { packet with locid := locid }

/-- `setDirection`. -/
def setDirection (packet : TurnoutPacket) (direction : TurnoutDirection) : TurnoutPacket :=
  { packet with direction := direction }

/-- The packet stores a truth value. -/
def setPower (packet : TurnoutPacket) (power : Byte) : TurnoutPacket :=
  { packet with power := decide (power ≠ 0) }

/-- `getRailProtocol`. -/
def getRailProtocol [TurnoutScheme] (packet : TurnoutPacket) : RailProtocol :=
  TurnoutScheme.getRailProtocol packet.locid

end TurnoutPacket

/-- `RR32Can::SystemSubcommand`. -/
inductive SystemSubcommand
  | systemStop
  | systemGo
  | other
deriving DecidableEq, Repr

/-- `RR32Can::SensorState`. -/
inductive SensorState
  | opened
  | closed
deriving DecidableEq, Repr

/-- `RR32Can::S88Event::Subtype`. -/
inductive S88Subtype
  | response
  | other
deriving DecidableEq, Repr

/-- `RR32Can::S88Event`. -/
structure S88Event where
  subtype : S88Subtype := .other
  deviceId : TurnoutAddr := 0
  contactId : TurnoutAddr := 0
  oldState : SensorState := .opened
  newState : SensorState := .opened
  time : BitVec 16 := 0
deriving DecidableEq, Repr

/-- `RR32Can::CanFrame`, by command. -/
inductive CanFrame
  | accessorySwitch (isResponse : Bool) (packet : TurnoutPacket)
  | systemCommand (isResponse : Bool) (subcommand : SystemSubcommand)
  | s88Event (isResponse : Bool) (event : S88Event)
  | other
deriving DecidableEq, Repr

/-! ### A scheme to evaluate with -/

namespace TurnoutScheme

/-- The protocols are numbered from 0 to 6. -/
def protocolNumber : RailProtocol → Nat
  | .unknown => 0
  | .mm1 => 1
  | .mm2 => 2
  | .mfx => 3
  | .sx1 => 4
  | .sx2 => 5
  | .dcc => 6

/-- The protocol of a number of the scheme. -/
def protocolOfNumber : Nat → RailProtocol
  | 1 => .mm1
  | 2 => .mm2
  | 3 => .mfx
  | 4 => .sx1
  | 5 => .sx2
  | 6 => .dcc
  | _ => .unknown

/-- The protocol is above the 11 address bits. -/
@[reducible] def upperBits : TurnoutScheme where
  getNumericAddress address := .ofNat 16 (address.toNat % 2 ^ 11)
  setProtocol address railProtocol :=
    .ofNat 16 (address.toNat % 2 ^ 11 + protocolNumber railProtocol * 2 ^ 11)
  getRailProtocol address := protocolOfNumber (address.toNat / 2 ^ 11)

/-- A protocol is set above the 11 bits of the address. -/
theorem upperBits_toNat_setProtocol (address : TurnoutAddr) (railProtocol : RailProtocol) :
    (upperBits.setProtocol address railProtocol).toNat
      = address.toNat % 2 ^ 11 + protocolNumber railProtocol * 2 ^ 11 := by
  have hnumber : protocolNumber railProtocol ≤ 6 := by cases railProtocol <;> decide
  have hlt : address.toNat % 2 ^ 11 < 2 ^ 11 := Nat.mod_lt _ (by decide)
  show (BitVec.ofNat 16 _).toNat = _
  rw [BitVec.toNat_ofNat, Nat.mod_eq_of_lt (by omega)]

/-- An address with a protocol has its number. -/
theorem upperBits_getNumericAddress (address : TurnoutAddr) (railProtocol : RailProtocol)
    (h : address.toNat < 2 ^ 11) :
    upperBits.getNumericAddress (upperBits.setProtocol address railProtocol) = address := by
  refine BitVec.eq_of_toNat_eq ?_
  show (BitVec.ofNat 16 ((upperBits.setProtocol address railProtocol).toNat % 2 ^ 11)).toNat = _
  rw [upperBits_toNat_setProtocol, BitVec.toNat_ofNat, Nat.add_mul_mod_self_right,
    Nat.mod_eq_of_lt h, Nat.mod_eq_of_lt h, Nat.mod_eq_of_lt (by omega)]

/-- An address with a protocol has this protocol. -/
theorem upperBits_getRailProtocol (address : TurnoutAddr) (railProtocol : RailProtocol)
    (h : address.toNat < 2 ^ 11) :
    upperBits.getRailProtocol (upperBits.setProtocol address railProtocol) = railProtocol := by
  show protocolOfNumber ((upperBits.setProtocol address railProtocol).toNat / 2 ^ 11) = _
  rw [upperBits_toNat_setProtocol, Nat.mod_eq_of_lt h, Nat.add_mul_div_right _ _ (by decide),
    Nat.div_eq_of_lt h, Nat.zero_add]
  cases railProtocol <;> rfl

end TurnoutScheme

end C6021Light
