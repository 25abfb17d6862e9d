import C6021Light.Proofs.ServerCalls

/-!
# `C6021Light.Proofs.SlotLookup`: which slot a search finds

`searchSlots` walks the table once and looks for two things: a slot with the address, and a
free slot. This module says what it finds in terms of the table: the first slot of 1 to 126
with the numeric address (`slotWithAddress`), or else the first free one (`firstFree`). The
runs of `findOrAllocateSlotForAddress` follow. `findSlotForAddress` finds the first slot in
use with exactly the address.

`AllocationCall` adds the bare allocation to the calls on the slot server.
-/

set_option autoImplicit false

namespace C6021Light

open FaultRun AddressScheme

/-- In a sorted list `find?` finds the least element with the property. -/
theorem find?_eq_some_iff_of_sorted {n : Nat} {l : List (Fin n)} (hl : l.Pairwise (· < ·))
    (p : Fin n → Bool) (i : Fin n) :
    l.find? p = some i ↔ i ∈ l ∧ p i = true ∧ ∀ j ∈ l, j < i → p j = false := by
  induction l with
  | nil => simp
  | cons a l ih =>
      obtain ⟨ha, hl⟩ := List.pairwise_cons.mp hl
      cases hp : p a with
      | true =>
          rw [List.find?_cons_of_pos hp, Option.some.injEq]
          constructor
          · rintro rfl
            refine ⟨List.mem_cons_self, hp, fun j hj hlt => ?_⟩
            -- No element of the list is less than its head.
            rcases List.mem_cons.mp hj with rfl | hj
            · exact absurd hlt (lt_irrefl j)
            · exact absurd (hlt.trans (ha j hj)) (lt_irrefl j)
          · rintro ⟨hi, _, hleast⟩
            rcases List.mem_cons.mp hi with rfl | hi
            · rfl
            · have hfalse := hleast a List.mem_cons_self (ha i hi)
              rw [hp] at hfalse
              cases hfalse
      | false =>
          have hne : p a ≠ true := by simp [hp]
          rw [List.find?_cons_of_neg hne, ih hl]
          constructor
          · rintro ⟨hi, hpi, hleast⟩
            refine ⟨List.mem_cons_of_mem a hi, hpi, fun j hj hlt => ?_⟩
            rcases List.mem_cons.mp hj with rfl | hj
            · exact hp
            · exact hleast j hj hlt
          · rintro ⟨hi, hpi, hleast⟩
            rcases List.mem_cons.mp hi with rfl | hi
            · exact absurd hpi hne
            · exact ⟨hi, hpi, fun j hj => hleast j (List.mem_cons_of_mem a hj)⟩

/-! ### The range of the search -/

/-- The search looks at every slot but slot 0. -/
theorem mem_searchRange {i : Fin kNumSlots} : i ∈ searchRange ↔ i ≠ 0 := by
  have hcons : List.finRange kNumSlots = 0 :: searchRange := rfl
  have hnodup : (0 :: searchRange).Nodup := hcons ▸ List.nodup_finRange kNumSlots
  constructor
  · rintro hi rfl
    exact (List.nodup_cons.mp hnodup).1 hi
  · intro hi
    have hall : i ∈ 0 :: searchRange := hcons ▸ List.mem_finRange i
    exact (List.mem_cons.mp hall).resolve_left hi

/-- It goes from slot 1 upwards. -/
theorem searchRange_sorted : searchRange.Pairwise (· < ·) :=
  (List.pairwise_lt_finRange kNumSlots).tail

/-! ### What the search finds -/

section Search

variable [AddressScheme]

/-- The slot has the numeric address, in use or not. -/
def SlotEntry.hasAddress (addr : LocoAddr) (entry : SlotEntry) : Bool :=
  getNumericAddress entry.loco.address = getNumericAddress addr

/-- The first slot of 1 to 126 with the numeric address. -/
def LocoNetSlotServer.slotWithAddress (s : LocoNetSlotServer) (addr : LocoAddr) :
    Option (Fin kNumSlots) :=
  searchRange.find? fun i => (s.slot i).hasAddress addr

omit [AddressScheme] in
/-- The first free slot of 1 to 126. -/
def LocoNetSlotServer.firstFree (s : LocoNetSlotServer) : Option (Fin kNumSlots) :=
  searchRange.find? fun i => !(s.slot i).inUse

variable {s : LocoNetSlotServer} {addr : LocoAddr} {i : Fin kNumSlots}

/-- An entry has an address, up to the protocol. -/
theorem SlotEntry.hasAddress_iff {entry : SlotEntry} :
    entry.hasAddress addr = true ↔
      getNumericAddress entry.loco.address = getNumericAddress addr :=
  decide_eq_true_iff

/-- The slot with an address is the first one that has it. -/
theorem slotWithAddress_eq_some : s.slotWithAddress addr = some i ↔
    i ≠ 0 ∧ (s.slot i).hasAddress addr = true ∧
      ∀ j, j ≠ 0 → j < i → (s.slot j).hasAddress addr = false := by
  rw [LocoNetSlotServer.slotWithAddress, find?_eq_some_iff_of_sorted searchRange_sorted]
  simp only [mem_searchRange]

/-- There is none when no slot has it. -/
theorem slotWithAddress_eq_none :
    s.slotWithAddress addr = none ↔ ∀ i, i ≠ 0 → (s.slot i).hasAddress addr = false := by
  simp [LocoNetSlotServer.slotWithAddress, mem_searchRange]

omit [AddressScheme] in
/-- The free slot is the first one that is not in use. -/
theorem firstFree_eq_some : s.firstFree = some i ↔
    i ≠ 0 ∧ (s.slot i).inUse = false ∧ ∀ j, j ≠ 0 → j < i → (s.slot j).inUse = true := by
  rw [LocoNetSlotServer.firstFree, find?_eq_some_iff_of_sorted searchRange_sorted]
  simp only [mem_searchRange, Bool.not_eq_true', Bool.not_eq_false']

omit [AddressScheme] in
/-- There is none when every slot is in use. -/
theorem firstFree_eq_none : s.firstFree = none ↔ ∀ i, i ≠ 0 → (s.slot i).inUse = true := by
  simp [LocoNetSlotServer.firstFree, mem_searchRange]

/-- The loop stops at the first slot with the address. -/
theorem searchSlots_of_found (slotDB : SlotDB) (addr : LocoAddr) :
    ∀ (its : List (Fin kNumSlots)) (freeIt : SlotIt),
      its.find? (fun i => decide (getNumericAddress (slotDB.entry i).loco.address = addr))
        = some i →
      searchSlots slotDB addr its freeIt = .inl i := by
  intro its
  induction its with
  | nil => intro freeIt h; cases h
  | cons j its ih =>
      intro freeIt h
      rw [searchSlots]
      by_cases haddr : getNumericAddress (slotDB.entry j).loco.address = addr
      · simp only [List.find?_cons, haddr, decide_true, Option.some.injEq] at h
        rw [if_pos haddr, h]
      · simp only [List.find?_cons, haddr, decide_false] at h
        rw [if_neg haddr, ih j h, ih freeIt h, ite_self]

/-- Without one it ends with the slot it remembers, which is the first free one when it came
with none. -/
theorem searchSlots_of_notFound (slotDB : SlotDB) (addr : LocoAddr) :
    ∀ (its : List (Fin kNumSlots)) (freeIt : SlotIt),
      its.find? (fun i => decide (getNumericAddress (slotDB.entry i).loco.address = addr))
        = none →
      searchSlots slotDB addr its freeIt = .inr (if freeIt = kNumSlots then
        (its.find? fun i => !(slotDB.entry i).inUse).elim kNumSlots fun i => (i : SlotIt)
        else freeIt) := by
  intro its
  induction its with
  | nil =>
      intro freeIt _
      rw [searchSlots, List.find?_nil]
      split
      · next hend => rw [hend]; rfl
      · rfl
  | cons j its ih =>
      intro freeIt h
      rw [List.find?_eq_none] at h
      have haddr : ¬ getNumericAddress (slotDB.entry j).loco.address = addr := by
        simpa using h j List.mem_cons_self
      have hrest := List.find?_eq_none.mpr fun i hi => h i (List.mem_cons_of_mem j hi)
      have hjlt : (j : Nat) ≠ kNumSlots := Nat.ne_of_lt j.isLt
      rw [searchSlots, if_neg haddr, ih j hrest, ih freeIt hrest, if_neg hjlt]
      by_cases hend : freeIt = kNumSlots
      -- Only here the choice depends on the slot at hand.
      · cases hin : (slotDB.entry j).inUse <;> simp [hend, hin]
      · simp [hend]

/-! ### findOrAllocateSlotForAddress -/

/-- The search finds the first slot with the address. -/
theorem searchSlots_of_slotWithAddress (h : s.slotWithAddress addr = some i) :
    searchSlots s.slotDB (getNumericAddress addr) searchRange kNumSlots = .inl i :=
  searchSlots_of_found s.slotDB (getNumericAddress addr) searchRange kNumSlots h

/-- Without such a slot the search remembers the first free one. -/
theorem searchSlots_of_noSlot (h : s.slotWithAddress addr = none) :
    searchSlots s.slotDB (getNumericAddress addr) searchRange kNumSlots
      = .inr (s.firstFree.elim kNumSlots fun i => (i : SlotIt)) :=
  searchSlots_of_notFound s.slotDB (getNumericAddress addr) searchRange kNumSlots h

/-- An address with a slot gets this slot. -/
theorem findOrAllocateSlotForAddress_run_of_found (h : s.slotWithAddress addr = some i) :
    (findOrAllocateSlotForAddress addr).run s = .ok ((i : SlotIt), s) := by
  rw [findOrAllocateSlotForAddress_run, searchSlots_of_slotWithAddress h]
  rfl

/-- A new address gets the first free slot, initialized. -/
theorem findOrAllocateSlotForAddress_run_of_free (h : s.slotWithAddress addr = none)
    (hfree : s.firstFree = some i) :
    (findOrAllocateSlotForAddress addr).run s
      = .ok ((i : SlotIt), s.setSlot i (.initialized (getNumericAddress addr))) := by
  rw [findOrAllocateSlotForAddress_run, searchSlots_of_noSlot h, hfree]
  exact run_bind_of_ok (initializeSlot_run s i _)

/-- A new address and a full table make it write behind the table. -/
theorem findOrAllocateSlotForAddress_run_of_full (h : s.slotWithAddress addr = none)
    (hfull : s.firstFree = none) :
    (findOrAllocateSlotForAddress addr).run s = .error (.slotOutOfBounds kNumSlots) := by
  rw [findOrAllocateSlotForAddress_run, searchSlots_of_noSlot h, hfull]
  exact run_bind_of_error (initializeSlot_run_end s _)

/-- The search allocates the first free slot, and only for an address that no slot has. -/
theorem allocates_eq_some_iff :
    s.allocates addr = some i ↔ s.slotWithAddress addr = none ∧ s.firstFree = some i := by
  cases hfind : s.slotWithAddress addr with
  | some j =>
      rw [LocoNetSlotServer.allocates, searchSlots_of_slotWithAddress hfind]
      simp
  | none =>
      rw [LocoNetSlotServer.allocates, searchSlots_of_noSlot hfind]
      cases hfree : s.firstFree with
      | none => simp
      | some j =>
          have hlt : (j : Nat) < kNumSlots := j.isLt
          simp [hlt]

/-! ### findSlotForAddress -/

omit [AddressScheme] in
/-- The passive search finds the first slot in use with exactly the address. -/
theorem findSlotForAddress_run_iff :
    (findSlotForAddress addr).run s = .ok ((i : SlotIt), s) ↔
      ((s.slot i).inUse = true ∧ (s.slot i).loco.address = addr) ∧
        ∀ j, j < i → (s.slot j).inUse = true → (s.slot j).loco.address ≠ addr := by
  have hlen : (i : Nat) < s.slotDB.toList.length := by simp
  have hrun : (findSlotForAddress addr).run s
      = .ok (s.slotDB.toList.findIdx fun entry =>
          entry.inUse && decide (entry.loco.address = addr), s) := rfl
  have hget : ∀ (j : Nat) (hj : j < s.slotDB.toList.length) (hj' : j < kNumSlots),
      s.slotDB.toList[j] = s.slot ⟨j, hj'⟩ := fun j _ _ => by
    simp [LocoNetSlotServer.slot, SlotDB.entry]
  rw [hrun, Except.ok.injEq, Prod.mk.injEq, List.findIdx_eq hlen, hget i hlen i.isLt]
  simp only [and_true, Bool.and_eq_true, decide_eq_true_eq]
  refine and_congr_right fun _ => ⟨fun h j hj hin haddr => ?_, fun h j hj => ?_⟩
  · have hnot := h j hj
    rw [hget j (by simp) j.isLt] at hnot
    simp [hin, haddr] at hnot
  · have hj' : j < kNumSlots := hj.trans i.isLt
    have hnot := h ⟨j, hj'⟩ hj
    rw [hget j (by simpa using hj') hj']
    cases hin : (s.slot ⟨j, hj'⟩).inUse with
    | true => simpa using hnot hin
    | false => rfl

end Search

/-! ### Allocation as a call -/

/-- A call on the slot server, or an allocation alone. -/
inductive AllocationCall
  | server (call : ServerCall)
  | findOrAllocateSlotForAddress (addr : LocoAddr)

/-- What a call does. -/
def AllocationCall.exec [AddressScheme] : AllocationCall → SlotServerRun Unit
  | server call => call.exec
  | findOrAllocateSlotForAddress addr => do
      let _ ← C6021Light.findOrAllocateSlotForAddress addr

end C6021Light
