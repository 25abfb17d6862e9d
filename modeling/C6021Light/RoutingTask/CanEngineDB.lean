import C6021Light.RoutingTask.LocoNetSlotServer

/-!
# `C6021Light.RoutingTask.CanEngineDB`: the engine database

`CanEngineDB` (`CanEngineDB.h`, `CanEngineDB.cpp`): the array of engines downloaded from CAN,
each with the attributes that LocoNet has not been told, and the setters that the CAN
library calls for engine commands. The download is not modelled here.

`EngineCall` names one call of a setter, so that a sequence of calls is a list.
-/

set_option autoImplicit false

namespace C6021Light

open BitMask

/-- `kMaxNumDbEntries`. -/
abbrev kMaxNumDbEntries : Nat := 40

/-- `DbEntry_t`. -/
structure DbEntry where
  loco : Locomotive := {}
  diff : LocoDiff := {}
deriving DecidableEq, Repr

/-- `hasUpdate`. -/
def DbEntry.hasUpdate (entry : DbEntry) : Bool := entry.diff.hasDiff

/-- The entries of `CanEngineDB`. -/
structure CanEngineDB where
  db : Vector DbEntry kMaxNumDbEntries := .replicate kMaxNumDbEntries {}
deriving DecidableEq

/-! ### Changes of one entry -/

/-- The body of `setLocoVelocity` on the entry of the engine. -/
def DbEntry.setLocoVelocity (velocity : Velocity) (entry : DbEntry) : DbEntry :=
  -- A velocity that is already there raises no flag, and so on for the other setters.
  if entry.loco.velocity ≠ velocity then
    { loco := { entry.loco with velocity := velocity }
      diff := { entry.diff with velocity := true } }
  else entry

/-- The body of `setLocoFunction`. -/
def DbEntry.setLocoFunction (functionIdx : Nat) (functionOn : Bool) (entry : DbEntry) :
    DbEntry :=
  if entry.loco.getFunction functionIdx ≠ functionOn then
    { loco := { entry.loco with
        functions := setBit entry.loco.functions functionIdx functionOn }
      diff := { entry.diff with functions := entry.diff.functions ||| (1#32 <<< functionIdx) } }
  else entry

/-- The body of `setLocoDirection`. -/
def DbEntry.setLocoDirection (direction : EngineDirection) (entry : DbEntry) : DbEntry :=
  if entry.loco.direction ≠ direction then
    { loco := { entry.loco with direction := direction }
      diff := { entry.diff with direction := true } }
  else entry

/-- The body of `changeLocoDirection`. -/
def DbEntry.changeLocoDirection (entry : DbEntry) : DbEntry :=
  { loco := { entry.loco with toLocomotiveData := entry.loco.changeDirection }
    -- A toggle is always a change, so there is no test.
    diff := { entry.diff with direction := true } }

/-! ### The database -/

namespace CanEngineDB

/-- The entry at an index. -/
def entry (engineDb : CanEngineDB) (k : Fin kMaxNumDbEntries) : DbEntry := engineDb.db[k]

/-- The database with one entry replaced. -/
def setEntry (engineDb : CanEngineDB) (k : Fin kMaxNumDbEntries) (entry : DbEntry) :
    CanEngineDB :=
  { engineDb with db := engineDb.db.set k entry }

/-- The entry that was set is the new one. -/
@[simp] theorem entry_setEntry_self (engineDb : CanEngineDB) (k : Fin kMaxNumDbEntries)
    (e : DbEntry) : (engineDb.setEntry k e).entry k = e := by
  simp [entry, setEntry]

/-- The other entries stay. -/
theorem entry_setEntry_ne (engineDb : CanEngineDB) {j k : Fin kMaxNumDbEntries} (h : j ≠ k)
    (e : DbEntry) : (engineDb.setEntry j e).entry k = engineDb.entry k := by
  have hne : (j : Nat) ≠ k := fun hval => h (Fin.ext hval)
  simp [entry, setEntry, hne]

/-- `getEntry`: the index of the first fully known engine with this UID, or 40. -/
def getEntry (engineDb : CanEngineDB) (uid : Uid) : Nat :=
  engineDb.db.toList.findIdx fun entry =>
    entry.loco.isFullDetailsKnown && decide (entry.loco.uid = uid)

/-- A change of the entry of the engine, when there is one. -/
def changeEntry (engineDb : CanEngineDB) (uid : Uid) (change : DbEntry → DbEntry) :
    CanEngineDB :=
  let entry := engineDb.getEntry uid
  if h : entry < kMaxNumDbEntries then
    -- `getEntry` found an engine. Otherwise the source compares with `end()` and does nothing.
    engineDb.setEntry ⟨entry, h⟩ (change (engineDb.entry ⟨entry, h⟩))
  else engineDb

/-- `setLocoVelocity` for one engine. -/
def setLocoVelocity (engineDb : CanEngineDB) (engineUid : Uid) (velocity : Velocity) :
    CanEngineDB :=
  engineDb.changeEntry engineUid (·.setLocoVelocity velocity)

/-- `setLocoVelocity` without an engine: every fully known engine. -/
def setAllLocoVelocity (engineDb : CanEngineDB) (velocity : Velocity) : CanEngineDB :=
  { engineDb with
      db := engineDb.db.map fun entry =>
        if entry.loco.isFullDetailsKnown then entry.setLocoVelocity velocity else entry }

/-- `setLocoFunction`. -/
def setLocoFunction (engineDb : CanEngineDB) (engineUid : Uid) (functionIdx : Nat)
    (functionOn : Bool) : CanEngineDB :=
  engineDb.changeEntry engineUid (·.setLocoFunction functionIdx functionOn)

/-- `setLocoDirection`. -/
def setLocoDirection (engineDb : CanEngineDB) (engineUid : Uid)
    (direction : EngineDirection) : CanEngineDB :=
  engineDb.changeEntry engineUid (·.setLocoDirection direction)

/-- `changeLocoDirection`. -/
def changeLocoDirection (engineDb : CanEngineDB) (engineUid : Uid) : CanEngineDB :=
  engineDb.changeEntry engineUid (·.changeLocoDirection)

/-- `findEngine`: the first fully known engine with exactly this address. -/
def findEngine (engineDb : CanEngineDB) (address : LocoAddr) : Option Locomotive :=
  (engineDb.db.toList.find? fun entry =>
    entry.loco.isFullDetailsKnown && decide (address = entry.loco.address)).map (·.loco)

end CanEngineDB

/-- One engine command that the CAN library passes to the database. -/
inductive EngineCall
  | setLocoVelocity (engineUid : Uid) (velocity : Velocity)
  | setAllLocoVelocity (velocity : Velocity)
  | setLocoFunction (engineUid : Uid) (functionIdx : Nat) (functionOn : Bool)
  | setLocoDirection (engineUid : Uid) (direction : EngineDirection)
  | changeLocoDirection (engineUid : Uid)
deriving DecidableEq, Repr

/-- The call on the database. -/
def EngineCall.run : EngineCall → CanEngineDB → CanEngineDB
  | setLocoVelocity uid velocity, engineDb => engineDb.setLocoVelocity uid velocity
  | setAllLocoVelocity velocity, engineDb => engineDb.setAllLocoVelocity velocity
  | setLocoFunction uid functionIdx functionOn, engineDb =>
      engineDb.setLocoFunction uid functionIdx functionOn
  | setLocoDirection uid direction, engineDb => engineDb.setLocoDirection uid direction
  | changeLocoDirection uid, engineDb => engineDb.changeLocoDirection uid

/-- A sequence of calls, the first one first. -/
def EngineCall.runAll (calls : List EngineCall) (engineDb : CanEngineDB) : CanEngineDB :=
  calls.foldl (fun engineDb call => call.run engineDb) engineDb

/-- A change of the entry of an engine changes this entry, or another one. -/
theorem CanEngineDB.changeEntry_cases (engineDb : CanEngineDB) (uid : Uid)
    (change : DbEntry → DbEntry) (k : Fin kMaxNumDbEntries) :
    (engineDb.changeEntry uid change).entry k = change (engineDb.entry k) ∨
      (engineDb.changeEntry uid change).entry k = engineDb.entry k := by
  rw [CanEngineDB.changeEntry]
  split
  · next hidx =>
      by_cases hk : ⟨engineDb.getEntry uid, hidx⟩ = k
      · subst hk
        exact .inl (engineDb.entry_setEntry_self _ _)
      · exact .inr (engineDb.entry_setEntry_ne hk _)
  · exact .inr rfl

/-- What the bodies of the setters do to an entry, a call does to every entry. -/
theorem EngineCall.run_rel {R : DbEntry → DbEntry → Prop} (hrefl : ∀ entry, R entry entry)
    (hvelocity : ∀ velocity entry, R entry (entry.setLocoVelocity velocity))
    (hfunction : ∀ functionIdx functionOn entry,
      R entry (entry.setLocoFunction functionIdx functionOn))
    (hdirection : ∀ direction entry, R entry (entry.setLocoDirection direction))
    (htoggle : ∀ entry, R entry entry.changeLocoDirection)
    (call : EngineCall) (engineDb : CanEngineDB) (k : Fin kMaxNumDbEntries) :
    R (engineDb.entry k) ((call.run engineDb).entry k) := by
  -- A setter changes the first entry with the UID, or none.
  have hentry : ∀ (uid : Uid) (change : DbEntry → DbEntry), (∀ entry, R entry (change entry)) →
      R (engineDb.entry k) ((engineDb.changeEntry uid change).entry k) := by
    intro uid change hchange
    rcases engineDb.changeEntry_cases uid change k with heq | heq
    · rw [heq]
      exact hchange _
    · rw [heq]
      exact hrefl _
  cases call with
  | setLocoVelocity uid velocity => exact hentry uid _ (hvelocity velocity)
  -- Every engine whose details are known gets the velocity.
  | setAllLocoVelocity velocity =>
      have heq : (EngineCall.run (.setAllLocoVelocity velocity) engineDb).entry k
          = if (engineDb.entry k).loco.isFullDetailsKnown then
              (engineDb.entry k).setLocoVelocity velocity else engineDb.entry k := by
        simp only [EngineCall.run, CanEngineDB.setAllLocoVelocity, CanEngineDB.entry,
          Fin.getElem_fin, Vector.getElem_map]
        rfl
      rw [heq]
      split
      · exact hvelocity velocity _
      · exact hrefl _
  | setLocoFunction uid functionIdx functionOn =>
      exact hentry uid _ (hfunction functionIdx functionOn)
  | setLocoDirection uid direction => exact hentry uid _ (hdirection direction)
  | changeLocoDirection uid => exact hentry uid _ htoggle

end C6021Light
