import C6021Light.Proofs.SlotAssignment

/-!
# `C6021Light.Proofs.FullTable`: a request when every slot is taken

`findOrAllocateSlotForAddress` remembers the first free slot, and `freeIt` stays `end()` when
there is none. It initializes `freeIt` all the same, so it writes behind the table. Each of its
callers tests for `end()` afterwards, which is too late.
-/

set_option autoImplicit false

namespace C6021Light

open FaultRun FirstCome AddressScheme

variable [AddressScheme] {s : LocoNetSlotServer} {addr : LocoAddr}

/-- Slots 1 to 126 are in use, and none of them holds the address. -/
structure FullWithout (s : LocoNetSlotServer) (addr : LocoAddr) : Prop where
  inUse : ∀ i, i ≠ 0 → (s.slot i).inUse = true
  unheld : ∀ i, i ≠ 0 → (s.slot i).hasAddress addr = false

/-- The program returns, and leaves the slots, the dispatch marker and the transmit queue as
they were. -/
def ChangesNothing {α : Type} (program : SlotServerRun α) (s : LocoNetSlotServer) : Prop :=
  ∃ a, program.run s = .ok (a, s)

omit [AddressScheme] in
/-- A program that faults does not return. -/
theorem not_changesNothing_of_fault {α : Type} {program : SlotServerRun α} {fault : Fault}
    (h : program.run s = .error fault) : ¬ ChangesNothing program s := by
  rintro ⟨a, hrun⟩
  cases h.symm.trans hrun

namespace FullWithout

/-- The search initializes `end()`. -/
theorem findOrAllocate_fault (h : FullWithout s addr) :
    (findOrAllocateSlotForAddress addr).run s = .error (.slotOutOfBounds kNumSlots) :=
  findOrAllocateSlotForAddress_run_of_full (slotWithAddress_eq_none.mpr h.unheld)
    (firstFree_eq_none.mpr h.inUse)

/-- A request for the address faults. -/
theorem locoRequest_fault (hactive : s.isActive = true) {la : LocoAdrMsg}
    (h : FullWithout s (extractLocoAddress la)) :
    (process (.locoAdr la)).run s = .error (.slotOutOfBounds kNumSlots) := by
  rw [processLocoRequest_run s la hactive]
  exact run_bind_of_error h.findOrAllocate_fault

/-- Marking the address for dispatch faults. -/
theorem markAddressForDispatch_fault (h : FullWithout s addr) :
    (markAddressForDispatch addr).run s = .error (.slotOutOfBounds kNumSlots) :=
  run_bind_of_error h.findOrAllocate_fault

/-- Forwarding a change of that engine faults. -/
theorem forwardLocoChange_fault (hactive : s.isActive = true) {loco : LocomotiveData}
    (h : FullWithout s loco.address) (diff : LocoDiff) :
    (LocoNetForwarder.forwardLocoChange loco diff).run s
      = .error (.slotOutOfBounds kNumSlots) := by
  have hfind := (findSlot_run_of_active hactive loco.address).trans h.findOrAllocate_fault
  rw [forwardLocoChange_run_of_enabled (not_disabled_of_active hactive)]
  exact run_bind_of_error hfind

end FullWithout

/-- When the table is full, no request for an unknown address is an error that changes nothing. -/
theorem fullTable_changes (hactive : s.isActive = true) (h : FullWithout s addr) :
    (findOrAllocateSlotForAddress addr).run s ≠ .ok (kNumSlots, s) ∧
    (∀ la : LocoAdrMsg, extractLocoAddress la = addr →
      ¬ ChangesNothing (process (.locoAdr la)) s) ∧
    ¬ ChangesNothing (markAddressForDispatch addr) s ∧
    ∀ (loco : LocomotiveData) (diff : LocoDiff), loco.address = addr →
      ¬ ChangesNothing (LocoNetForwarder.forwardLocoChange loco diff) s := by
  -- Each caller runs into the fault of the search.
  refine ⟨fun hrun => ?_, fun la hla => ?_, ?_, fun loco diff hloco => ?_⟩
  · exact not_changesNothing_of_fault h.findOrAllocate_fault ⟨_, hrun⟩
  · subst hla
    exact not_changesNothing_of_fault (h.locoRequest_fault hactive)
  · exact not_changesNothing_of_fault h.markAddressForDispatch_fault
  · subst hloco
    exact not_changesNothing_of_fault (h.forwardLocoChange_fault hactive diff)

omit [AddressScheme] in
/-- A table in which every slot is in use for engine 3, and a dispatch of engine 5. -/
theorem fullTable_changes_dispatch :
    letI := AddressScheme.upperBits
    let s : LocoNetSlotServer :=
      { dataModel := { lnSlotServerState := .active }
        slotDB := .replicate kNumSlots { inUse := true, loco := { address := 3 } } }
    ¬ ChangesNothing (markAddressForDispatch 5) s := by
  let _ := AddressScheme.upperBits
  intro s
  have hslot : ∀ i, s.slot i = { inUse := true, loco := { address := 3 } } := fun i =>
    Vector.getElem_replicate i.isLt
  have hfull : FullWithout s 5 :=
    ⟨fun i _ => by rw [hslot], fun i _ => by rw [hslot]; decide⟩
  exact (fullTable_changes rfl hfull).2.2.1

/-! ### A full table -/

/-- With 126 engines the table is full, and an address that is not among them is unknown. -/
theorem Assigned.fullWithout
    (hplain : ∀ addr : LocoAddr, addr.toNat < 2 ^ 14 → getNumericAddress addr = addr)
    {roster : List LocoAddr} (hs : Assigned s roster) (hlen : roster.length = 126)
    (haddr : getNumericAddress addr ∉ roster) (hzero : getNumericAddress addr ≠ 0) :
    FullWithout s addr := by
  have hunheld := hs.slotWithAddress_of_notMem hplain haddr hzero
  refine ⟨fun i hi => ?_, slotWithAddress_eq_none.mp hunheld⟩
  have hin : (s.slot i).inUse = (rosterDirectory roster i).1 :=
    congrArg Prod.fst (congrFun hs.directory i)
  rw [hin]
  rcases rosterDirectory_cases roster i with ⟨_, hbehind⟩ | ⟨_, _, hused, _⟩
  · have hlt : (i : Nat) < 127 := i.isLt
    have hge := hbehind hi
    omega
  · rw [hused]

omit [AddressScheme] in
/-- Requests for the addresses 1 to `n`. -/
def requestsUpTo (n : Nat) : List LocoAdrMsg :=
  (List.range n).map fun k => { adrHi := 0, adrLo := .ofNat 8 (k + 1) }

omit [AddressScheme] in
/-- The requests of the events are the addresses of the messages. -/
theorem requests_map_request (las : List LocoAdrMsg) :
    (las.map .request).flatMap EngineEvent.requests = las.map extractLocoAddress := by
  rw [List.flatMap_map, List.map_eq_flatMap]
  rfl

/-- Requests alone are allowed when their addresses are. -/
theorem allAllowed_requests {las : List LocoAdrMsg}
    (h : ∀ la ∈ las, 0 < (extractLocoAddress la).toNat ∧
      (extractLocoAddress la).toNat < 2 ^ 14) :
    ∀ requested : List LocoAddr, AllAllowed requested (las.map .request) := by
  induction las with
  | nil => intro _; trivial
  | cons la las ih =>
      intro requested
      exact ⟨h la List.mem_cons_self,
        ih (fun la' hla' => h la' (List.mem_cons_of_mem la hla')) _⟩

omit [AddressScheme] in
/-- 126 engines fill the table, and the request of the next one writes behind it. -/
theorem fullTable_next_engine :
    letI := AddressScheme.upperBits
    let server : LocoNetSlotServer := { dataModel := { lnSlotServerState := .active } }
    ∃ s, (forM ((requestsUpTo 126).map .request) EngineEvent.exec).run server = .ok ((), s) ∧
      s.isActive = true ∧ FullWithout s 127 ∧
      (findOrAllocateSlotForAddress 127).run s ≠ .ok (kNumSlots, s) ∧
      ¬ ChangesNothing (process (.locoAdr { adrHi := 0, adrLo := 127 })) s ∧
      ¬ ChangesNothing (markAddressForDispatch 127) s ∧
      ¬ ChangesNothing (LocoNetForwarder.forwardLocoChange { address := 127 } {}) s := by
  let _ := AddressScheme.upperBits
  intro server
  -- The empty table is that of the empty roster, and each request appends one address.
  have hstart : Assigned server (([] : List LocoAddr).foldl enroll []) :=
    ⟨rfl, (directory_of_empty rfl).trans rosterDirectory_nil.symm, List.nodup_nil,
      fun _ h => absurd h List.not_mem_nil⟩
  have hrange : ∀ la ∈ requestsUpTo 126, 0 < (extractLocoAddress la).toNat ∧
      (extractLocoAddress la).toNat < 2 ^ 14 := by
    set_option maxRecDepth 8000 in
    decide
  have hallowed : AllAllowed [] ((requestsUpTo 126).map .request) :=
    allAllowed_requests hrange []
  -- The addresses are 126 different ones.
  have hlen : (((requestsUpTo 126).map .request).flatMap EngineEvent.requests).toFinset.card
      = 126 := by
    rw [requests_map_request]
    set_option maxRecDepth 8000 in
    decide
  obtain ⟨s, hrun, hs⟩ := forM_assigned upperBits_plain _ [] server hstart hallowed
    ((length_enroll_foldl _).trans hlen).le
  rw [List.nil_append] at hs
  -- The table holds 126 engines, and 127 is none of them.
  have hfull : FullWithout s 127 := by
    refine hs.fullWithout upperBits_plain ((length_enroll_foldl _).trans hlen) ?_ (by decide)
    rw [mem_enroll_foldl, requests_map_request]
    decide
  have hrequest : (process (.locoAdr { adrHi := 0, adrLo := 127 })).run s
      = .error (.slotOutOfBounds kNumSlots) := FullWithout.locoRequest_fault hs.active hfull
  have hforward : (LocoNetForwarder.forwardLocoChange { address := 127 } {}).run s
      = .error (.slotOutOfBounds kNumSlots) :=
    FullWithout.forwardLocoChange_fault hs.active hfull {}
  exact ⟨s, hrun, hs.active, hfull,
    fun hfind => not_changesNothing_of_fault hfull.findOrAllocate_fault ⟨_, hfind⟩,
    not_changesNothing_of_fault hrequest,
    not_changesNothing_of_fault hfull.markAddressForDispatch_fault,
    not_changesNothing_of_fault hforward⟩

end C6021Light
