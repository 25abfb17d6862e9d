import C6021Light.RR32Can.Locomotive

/-!
# `C6021Light.RR32Can.ConfigData`: engine names and configuration data streams

What the download of the engine database uses of the RR32Can and RR32CanEngineDb libraries,
which are not part of the repository.

An engine name is a C string. It is the list of its characters in front of the terminator, so
a character is a byte other than 0. `strncmpEqual` is the test `strncmp(…) == 0`.

The station has at most one configuration request at a time, and hands the stream that
answers it to the consumer of the request. The consumers are the three of `CanEngineDB`. A
`LocoListConsumer` collects `kEngineBrowserEntries` short infos and the total number of
engines. Free entries of a chunk are free short infos.
-/

set_option autoImplicit false

namespace C6021Light

/-- `RR32Can::kEngineNameLength`. -/
abbrev kEngineNameLength : Nat := 16

/-- `RR32Can::kEngineBrowserEntries`. -/
abbrev kEngineBrowserEntries : Nat := 2

/-- A character of a C string. -/
abbrev NameChar := { b : Byte // b ≠ 0 }

/-- A C string. -/
abbrev EngineName := List NameChar

/-- `strncmp(left, right, n) == 0`. -/
def strncmpEqual : Nat → EngineName → EngineName → Bool
  | 0, _, _ => true
  | _ + 1, [], [] => true
  | n + 1, a :: left, b :: right => decide (a = b) && strncmpEqual n left right
  -- One of the strings has ended.
  | _ + 1, _, _ => false

/-- The comparison reads the first `n` characters. -/
theorem strncmpEqual_iff (n : Nat) (left right : EngineName) :
    strncmpEqual n left right = true ↔ left.take n = right.take n := by
  induction n generalizing left right with
  | zero => simp [strncmpEqual]
  | succ n ih =>
      cases left with
      | nil => cases right <;> simp [strncmpEqual]
      | cons a left =>
          cases right with
          | nil => simp [strncmpEqual]
          | cons b right => simp [strncmpEqual, ih]

/-- `RR32Can::LocomotiveShortInfo`. -/
structure LocomotiveShortInfo where
  name : EngineName := []
  availability : AvailabilityStatus := .free
deriving DecidableEq, Repr

/-- `LocomotiveShortInfo::isFree`. -/
def LocomotiveShortInfo.isFree (info : LocomotiveShortInfo) : Bool :=
  info.availability = .free

/-- Only the name of the engine has been downloaded. -/
def Locomotive.isNameOnlyKnown (loco : Locomotive) : Bool := loco.availability = .nameOnly

/-- `Locomotive::isFree`. -/
def Locomotive.isFree (loco : Locomotive) : Bool := loco.availability = .free

/-- `RR32Can::LocoListConsumer`. -/
structure LocoListConsumer where
  streamOffset : Byte := 0
  engineInfos : Vector LocomotiveShortInfo kEngineBrowserEntries := .replicate _ {}
  numEnginesKnownByMaster : Nat := 0
deriving DecidableEq

namespace LocoListConsumer

/-- `LocoListConsumer::reset`. -/
def reset (_ : LocoListConsumer) : LocoListConsumer := {}

/-- `LocoListConsumer::setStreamOffset`. -/
def setStreamOffset (consumer : LocoListConsumer) (offset : Byte) : LocoListConsumer :=
  { consumer with streamOffset := offset }

end LocoListConsumer

end C6021Light
