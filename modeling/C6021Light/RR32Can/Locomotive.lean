import C6021Light.Lib.BitMask

/-!
# `C6021Light.RR32Can.Locomotive`: the locomotive data of the CAN library

`RR32Can::LocomotiveData` and `RR32Can::Locomotive` come from the RR32Can library, which is
not part of the repository. The routing code uses them as plain records with getters and
setters, and this module models them as records. The widths are those of the library's
typedefs: 16 bits for addresses and velocities, 32 bits for the function bits and the UID.

A default-constructed locomotive has UID 0, address 0, velocity 0, direction forward and
all functions off, and `reset` restores that. The directions are the two that the code
names. `changeDirection` switches between them.

A `MachineLocomotiveAddress` carries a rail protocol in its upper bits, in the library's own
encoding. The code compares addresses and asks for the numeric part, so the encoding stays a
parameter: `AddressScheme.getNumericAddress` stands for the library's function.

An `EngineFrame` is what one `Send*` call of the library's station emits on CAN: the UID of
the engine and one attribute value.
-/

set_option autoImplicit false

namespace C6021Light

open BitMask

/-- A `uint8_t`. -/
abbrev Byte := BitVec 8

/-- `RR32Can::Uid_t`. -/
abbrev Uid := BitVec 32

/-- `RR32Can::Velocity_t`. -/
abbrev Velocity := BitVec 16

/-- The functions of a locomotive, one bit each. -/
abbrev FunctionBits := BitVec 32

/-- `RR32Can::MachineLocomotiveAddress`. -/
abbrev LocoAddr := BitVec 16

/-- `RR32Can::kMaxEngineVelocity`. -/
abbrev kMaxEngineVelocity : Nat := 1000

/-- The numeric part of a locomotive address. The encoding of the protocol belongs to the
library. -/
class AddressScheme where
  getNumericAddress : LocoAddr → LocoAddr

/-- A scheme to evaluate with: the protocol is the upper two bits. -/
@[reducible] def AddressScheme.upperBits : AddressScheme :=
  ⟨fun address => address &&& 0x3FFF#16⟩

/-- The numeric part has no protocol to take away. -/
theorem AddressScheme.upperBits_idempotent (address : LocoAddr) :
    upperBits.getNumericAddress (upperBits.getNumericAddress address)
      = upperBits.getNumericAddress address := by
  show (address &&& 0x3FFF#16) &&& 0x3FFF#16 = address &&& 0x3FFF#16
  rw [BitVec.and_assoc, BitVec.and_self]

/-- An address of 14 bits has no protocol. -/
theorem AddressScheme.upperBits_plain (address : LocoAddr) (h : address.toNat < 2 ^ 14) :
    upperBits.getNumericAddress address = address := by
  refine BitVec.eq_of_toNat_eq ?_
  show (address &&& 0x3FFF#16).toNat = address.toNat
  rw [BitVec.toNat_and]
  exact Nat.and_two_pow_sub_one_of_lt_two_pow h

/-- The numeric part has 14 bits. -/
theorem AddressScheme.upperBits_lt (address : LocoAddr) :
    (upperBits.getNumericAddress address).toNat < 2 ^ 14 := by
  show (address &&& BitVec.ofNat 16 (2 ^ 14 - 1)).toNat < 2 ^ 14
  rw [toNat_and_lowMask (by decide)]
  exact Nat.mod_lt _ (by decide)

/-- `RR32Can::EngineDirection`. -/
inductive EngineDirection
  | forward
  | reverse
deriving DecidableEq, Repr

/-- `RR32Can::LocomotiveData`. -/
structure LocomotiveData where
  uid : Uid := 0
  address : LocoAddr := 0
  velocity : Velocity := 0
  direction : EngineDirection := .forward
  functions : FunctionBits := 0
deriving DecidableEq, Repr

namespace LocomotiveData

/-- Back to the default-constructed value. -/
def reset (_ : LocomotiveData) : LocomotiveData := {}

/-- `setUid`. -/
def setUid (loco : LocomotiveData) (uid : Uid) : LocomotiveData := { loco with uid := uid }

/-- `setAddress`. -/
def setAddress (loco : LocomotiveData) (address : LocoAddr) : LocomotiveData :=
  { loco with address := address }

/-- `setVelocity`. -/
def setVelocity (loco : LocomotiveData) (velocity : Velocity) : LocomotiveData :=
  { loco with velocity := velocity }

/-- `setDirection`. -/
def setDirection (loco : LocomotiveData) (direction : EngineDirection) : LocomotiveData :=
  { loco with direction := direction }

/-- `changeDirection`. -/
def changeDirection (loco : LocomotiveData) : LocomotiveData :=
  { loco with direction := match loco.direction with
    | .forward => .reverse
    | .reverse => .forward }

/-- `getFunction`; a function behind the last one is off. -/
def getFunction (loco : LocomotiveData) (functionIdx : Nat) : Bool :=
  loco.functions.getLsbD functionIdx

/-- `setFunction`. -/
def setFunction (loco : LocomotiveData) (functionIdx : Nat) (functionOn : Bool) :
    LocomotiveData :=
  { loco with functions := setBit loco.functions functionIdx functionOn }

end LocomotiveData

/-- `RR32Can::LocomotiveShortInfo::AvailabilityStatus`. -/
inductive AvailabilityStatus
  | free
  | nameOnly
  | fullDetails
deriving DecidableEq, Repr

/-- `RR32Can::Locomotive`, an engine database record. -/
structure Locomotive extends LocomotiveData where
  availability : AvailabilityStatus := .free
deriving DecidableEq, Repr

/-- Name, UID, address and protocol of the engine have been downloaded. -/
def Locomotive.isFullDetailsKnown (loco : Locomotive) : Bool :=
  loco.availability = .fullDetails

/-- One engine control frame on CAN. -/
inductive EngineFrame
  | velocity (uid : Uid) (velocity : Velocity)
  | direction (uid : Uid) (direction : EngineDirection)
  | function (uid : Uid) (functionIdx : Nat) (functionOn : Bool)
deriving DecidableEq, Repr

/-- The engine that a frame addresses. UID 0 addresses every engine. -/
def EngineFrame.uid : EngineFrame → Uid
  | .velocity uid _ => uid
  | .direction uid _ => uid
  | .function uid _ _ => uid

/-- `Station::SendEngineVelocity`. -/
def sendEngineVelocity (loco : LocomotiveData) (velocity : Velocity) : EngineFrame :=
  .velocity loco.uid velocity

/-- `Station::SendEngineDirection`. -/
def sendEngineDirection (loco : LocomotiveData) (direction : EngineDirection) : EngineFrame :=
  .direction loco.uid direction

/-- `Station::SendEngineFunction`. -/
def sendEngineFunction (loco : LocomotiveData) (functionIdx : Nat) (functionOn : Bool) :
    EngineFrame :=
  .function loco.uid functionIdx functionOn

end C6021Light
