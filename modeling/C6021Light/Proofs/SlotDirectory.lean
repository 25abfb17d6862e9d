import C6021Light.Proofs.ForwarderRun

/-!
# `C6021Light.Proofs.SlotDirectory`: what the slot lookup reads

The lookup of the forwarder reads the mode, and of each slot whether it is in use and its
address. That part of the server is its directory. Two servers with one directory find the
same slots (`findSlot_congr`), and forwarding a change leaves the directory as the lookup left
it.
-/

set_option autoImplicit false

namespace C6021Light

open FaultRun AddressScheme

/-! ### Directories -/

/-- The two servers have the same mode, and the same slots for the same addresses. -/
structure SameDirectory (s u : LocoNetSlotServer) : Prop where
  dataModel : s.dataModel = u.dataModel
  inUse : ∀ i, (s.slot i).inUse = (u.slot i).inUse
  address : ∀ i, (s.slot i).loco.address = (u.slot i).loco.address

namespace SameDirectory

variable {s t u : LocoNetSlotServer}

/-- A server has its own directory. -/
theorem refl (s : LocoNetSlotServer) : SameDirectory s s := ⟨rfl, fun _ => rfl, fun _ => rfl⟩

/-- The relation is transitive. -/
theorem trans (h₁ : SameDirectory s t) (h₂ : SameDirectory t u) : SameDirectory s u where
  dataModel := h₁.dataModel.trans h₂.dataModel
  inUse := fun i => (h₁.inUse i).trans (h₂.inUse i)
  address := fun i => (h₁.address i).trans (h₂.address i)

/-- Both servers are active, or none is. -/
theorem isActive (h : SameDirectory s u) : s.isActive = u.isActive := by
  rw [LocoNetSlotServer.isActive, LocoNetSlotServer.isActive, h.dataModel]

/-- Both servers are disabled, or none is. -/
theorem isDisabled (h : SameDirectory s u) : s.isDisabled = u.isDisabled := by
  rw [LocoNetSlotServer.isDisabled, LocoNetSlotServer.isDisabled, h.dataModel]

/-- The same slot replaced by entries for the same address. -/
theorem setSlot (h : SameDirectory s u) (i : Fin kNumSlots) {entry entry' : SlotEntry}
    (hin : entry.inUse = entry'.inUse) (haddr : entry.loco.address = entry'.loco.address) :
    SameDirectory (s.setSlot i entry) (u.setSlot i entry') := by
  refine ⟨h.dataModel, ?_, ?_⟩
  · intro j
    rw [LocoNetSlotServer.slot_setSlot, LocoNetSlotServer.slot_setSlot]
    split
    · exact hin
    · exact h.inUse j
  · intro j
    rw [LocoNetSlotServer.slot_setSlot, LocoNetSlotServer.slot_setSlot]
    split
    · exact haddr
    · exact h.address j

/-- Announcing a change to LocoNet keeps the directory. -/
theorem announce (h : SameDirectory s u) (i : Fin kNumSlots) (loco : LocomotiveData)
    (diff : LocoDiff) (msgs : List LnMsg) :
    SameDirectory ((s.setSlot i ((s.slot i).cacheChange loco diff)).send msgs) u := by
  have hset : SameDirectory (s.setSlot i ((s.slot i).cacheChange loco diff))
      (u.setSlot i (u.slot i)) := h.setSlot i (h.inUse i) (h.address i)
  rw [LocoNetSlotServer.setSlot_slot] at hset
  exact ⟨hset.dataModel, hset.inUse, hset.address⟩

end SameDirectory

/-! ### Lookups -/

section

variable [AddressScheme] {s u : LocoNetSlotServer}

/-- The search loop reads the directory only. -/
theorem searchSlots_congr (h : SameDirectory s u) (addr : LocoAddr) :
    ∀ (its : List (Fin kNumSlots)) (freeIt : SlotIt),
      searchSlots s.slotDB addr its freeIt = searchSlots u.slotDB addr its freeIt := by
  intro its
  induction its with
  | nil => intro freeIt; rfl
  | cons i its ih =>
      intro freeIt
      have hin : (s.slotDB.entry i).inUse = (u.slotDB.entry i).inUse := h.inUse i
      have haddr : (s.slotDB.entry i).loco.address = (u.slotDB.entry i).loco.address := h.address i
      rw [searchSlots, searchSlots, hin, haddr, ih i, ih freeIt]

omit [AddressScheme] in
/-- Both servers have the address at one position. -/
theorem findSlotForAddress_congr (h : SameDirectory s u) (addr : LocoAddr) :
    s.slotDB.toList.findIdx (fun entry => entry.inUse && decide (entry.loco.address = addr))
      = u.slotDB.toList.findIdx
          (fun entry => entry.inUse && decide (entry.loco.address = addr)) := by
  have hmap : s.slotDB.toList.map (fun entry => (entry.inUse, entry.loco.address))
      = u.slotDB.toList.map (fun entry => (entry.inUse, entry.loco.address)) := by
    apply List.ext_getElem
    · simp
    · intro n hn _
      have hlt : n < kNumSlots := by simpa using hn
      have hin : (s.slot ⟨n, hlt⟩).inUse = (u.slot ⟨n, hlt⟩).inUse := h.inUse ⟨n, hlt⟩
      have haddr : (s.slot ⟨n, hlt⟩).loco.address = (u.slot ⟨n, hlt⟩).loco.address :=
        h.address ⟨n, hlt⟩
      simpa [LocoNetSlotServer.slot, SlotDB.entry] using ⟨hin, haddr⟩
  have hfind : ∀ db : SlotDB,
      db.toList.findIdx (fun entry => entry.inUse && decide (entry.loco.address = addr))
        = (db.toList.map (fun entry => (entry.inUse, entry.loco.address))).findIdx
            (fun p => p.1 && decide (p.2 = addr)) := by
    intro db
    rw [List.findIdx_map]
    rfl
  rw [hfind, hfind, hmap]

/-- Two lookups of one address end at the same slot, and leave the same directory, or both
write behind the table. -/
theorem findSlot_congr (h : SameDirectory s u) (addr : LocoAddr) :
    (∃ slotIt s' u', (LocoNetForwarder.findSlot addr).run s = .ok (slotIt, s') ∧
      (LocoNetForwarder.findSlot addr).run u = .ok (slotIt, u') ∧ SameDirectory s' u') ∨
    (∃ fault, (LocoNetForwarder.findSlot addr).run s = .error fault ∧
      (LocoNetForwarder.findSlot addr).run u = .error fault) := by
  have hrun : ∀ t : LocoNetSlotServer, (LocoNetForwarder.findSlot addr).run t
      = (if t.isActive then findOrAllocateSlotForAddress addr
        else findSlotForAddress addr : SlotServerRun SlotIt).run t := fun _ => rfl
  rw [hrun s, hrun u, h.isActive]
  cases u.isActive with
  | true =>
      rw [if_pos rfl, findOrAllocateSlotForAddress_run s, findOrAllocateSlotForAddress_run u,
        searchSlots_congr h]
      rcases searchSlots_cases u.slotDB (getNumericAddress addr) searchRange kNumSlots with
        ⟨j, _, _, hres⟩ | hres | ⟨_, j, _, _, hres⟩
      · rw [hres]
        exact .inl ⟨j, s, u, rfl, rfl, h⟩
      · rw [hres]
        exact .inr ⟨_, run_bind_of_error (initializeSlot_run_end s _),
          run_bind_of_error (initializeSlot_run_end u _)⟩
      · rw [hres]
        exact .inl ⟨j, _, _, run_bind_of_ok (initializeSlot_run s j _),
          run_bind_of_ok (initializeSlot_run u j _), h.setSlot j rfl rfl⟩
  | false =>
      refine .inl ⟨_, s, u, rfl, ?_, h⟩
      rw [findSlotForAddress_congr h]
      rfl

/-! ### Which addresses have a slot -/

/-- The lookup ends at a slot: an active server makes one when there is none. -/
def LocoNetSlotServer.finds (s : LocoNetSlotServer) (addr : LocoAddr) : Bool :=
  s.isActive || decide (∃ i, (s.slot i).inUse = true ∧ (s.slot i).loco.address = addr)

/-- When the lookup returns, the result says whether there is a slot. -/
theorem finds_of_findSlot {addr : LocoAddr} {slotIt : SlotIt} {s' : LocoNetSlotServer}
    (h : (LocoNetForwarder.findSlot addr).run s = .ok (slotIt, s')) :
    s.finds addr = isSlotInBounds slotIt := by
  have heffect := findSlot_effect s addr
  rw [h] at heffect
  cases heffect with
  | found i _ hin haddr =>
      have hex : ∃ i, (s.slot i).inUse = true ∧ (s.slot i).loco.address = addr := ⟨i, hin, haddr⟩
      rw [LocoNetSlotServer.finds, decide_eq_true hex, Bool.or_true, isSlotInBounds_fin]
  | foundActive i hactive =>
      rw [LocoNetSlotServer.finds, hactive, Bool.true_or, isSlotInBounds_fin]
  | allocated i hactive =>
      rw [LocoNetSlotServer.finds, hactive, Bool.true_or, isSlotInBounds_fin]
  | notFound hpassive hnone =>
      have hnex : ¬ ∃ i, (s.slot i).inUse = true ∧ (s.slot i).loco.address = addr := by
        rintro ⟨i, hin, haddr⟩
        exact hnone i hin haddr
      rw [LocoNetSlotServer.finds, hpassive, decide_eq_false hnex]
      rfl

/-- A lookup does not change which addresses have a slot. -/
theorem finds_findSlot {addr : LocoAddr} {slotIt : SlotIt} {s' : LocoNetSlotServer}
    (h : (LocoNetForwarder.findSlot addr).run s = .ok (slotIt, s')) (addr' : LocoAddr) :
    s'.finds addr' = s.finds addr' := by
  have heffect := findSlot_effect s addr
  rw [h] at heffect
  cases heffect with
  | allocated i hactive =>
      have hactive' : (s.setSlot i (.initialized (getNumericAddress addr))).isActive = true :=
        hactive
      rw [LocoNetSlotServer.finds, LocoNetSlotServer.finds, hactive', hactive, Bool.true_or,
        Bool.true_or]
  | _ => rfl

omit [AddressScheme] in
/-- Both servers find the address, or none does. -/
theorem finds_congr (h : SameDirectory s u) (addr : LocoAddr) : s.finds addr = u.finds addr := by
  rw [LocoNetSlotServer.finds, LocoNetSlotServer.finds, h.isActive]
  simp only [h.inUse, h.address]

end

end C6021Light
