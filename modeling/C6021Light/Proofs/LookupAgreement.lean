import C6021Light.Proofs.SlotTable

/-!
# `C6021Light.Proofs.LookupAgreement`: the two searches for a slot

A passive server searches with `findSlotForAddress`, an active one with
`findOrAllocateSlotForAddress`. The first starts at slot 0, asks for `inUse` and compares
whole addresses. The second starts at slot 1, does not ask for `inUse` and compares numeric
parts. So they differ in three ways, and `PlainLookup` excludes each of them: an address with
a protocol, a slot 0 in use with the address, and address 0, which every free slot has.

In a reachable table the addresses are plain, and a free slot has address 0
(`PlainAddresses`). There the two searches agree on an address in use exactly when the lookup
is plain (`lookupsAgree_iff`).
-/

set_option autoImplicit false

namespace C6021Light

open BitMask FaultRun AddressScheme

/-- The server in another mode. -/
def LocoNetSlotServer.inMode (s : LocoNetSlotServer) (state : SlotServerState) :
    LocoNetSlotServer :=
  { s with dataModel := { s.dataModel with lnSlotServerState := state } }

section

variable [AddressScheme]

/-! ### Plain addresses -/

/-- No address of the table has a protocol, and the free slots have the default address. -/
structure PlainAddresses (d : Directory) : Prop where
  numeric : ∀ i, getNumericAddress (d i).2 = (d i).2
  unused : ∀ i, (d i).1 = false → (d i).2 = 0

/-- A slot replaced by another plain one. -/
theorem PlainAddresses.update {d : Directory} (hd : PlainAddresses d) (i : Fin kNumSlots)
    {e : Bool × LocoAddr} (hnumeric : getNumericAddress e.2 = e.2)
    (hunused : e.1 = false → e.2 = 0) : PlainAddresses (Function.update d i e) := by
  constructor
  · intro j
    rw [Function.update_apply]
    split
    · exact hnumeric
    · exact hd.numeric j
  · intro j
    rw [Function.update_apply]
    split
    · exact hunused
    · exact hd.unused j

omit [AddressScheme] in
/-- A seven-bit message writes a plain address. -/
theorem LnMsg.SevenBit.slotWrite_lt {m : LnMsg} (h7 : m.SevenBit) {i : Fin kNumSlots}
    {addr : LocoAddr} (hw : m.slotWrite = some (i, addr)) : addr.toNat < 2 ^ 14 := by
  rw [LnMsg.slotWrite, Option.bind_eq_some_iff] at hw
  obtain ⟨sd, hsd, hw⟩ := hw
  have hadr2 : sd.adr2 < 128#8 := by
    cases m with
    | slRdData sd' => cases hsd; exact h7 _ (by simp [LnMsg.argBytes])
    | wrSlData sd' => cases hsd; exact h7 _ (by simp [LnMsg.argBytes])
    | _ => cases hsd
  split at hw
  · cases hw
    exact getLocoAddress_lt hadr2
  · cases hw

variable {s s' : LocoNetSlotServer}

/-- Every call keeps the addresses plain: slot data has 14 bits, and an allocation strips
the protocol. -/
theorem DirectoryChange.plainAddresses
    (hnumeric : ∀ addr, getNumericAddress (getNumericAddress addr) = getNumericAddress addr)
    (hplain : ∀ addr : LocoAddr, addr.toNat < 2 ^ 14 → getNumericAddress addr = addr)
    (hs : PlainAddresses s.directory) {msg : Option LnMsg} {d : Directory}
    (h7 : ∀ m, msg = some m → m.SevenBit) (h : DirectoryChange s msg d) :
    PlainAddresses d := by
  have hzero : getNumericAddress 0 = 0 := hplain 0 (by decide)
  cases h with
  | unchanged => exact hs
  | written i addr hw =>
      obtain ⟨m, hm, hw⟩ := Option.bind_eq_some_iff.mp hw
      exact hs.update i (hplain addr ((h7 m hm).slotWrite_lt hw)) (fun hin => nomatch hin)
  | allocated i addr => exact hs.update i (hnumeric addr) (fun hin => nomatch hin)
  | moved sm i j =>
      exact (hs.update j (hs.numeric i) (hs.unused i)).update i hzero (fun _ => rfl)
  | cleared sm j => exact hs.update j hzero (fun _ => rfl)

/-- The tables that calls reach from the table at start-up have plain addresses. -/
theorem reachable_plainAddresses
    (hnumeric : ∀ addr, getNumericAddress (getNumericAddress addr) = getNumericAddress addr)
    (hplain : ∀ addr : LocoAddr, addr.toNat < 2 ^ 14 → getNumericAddress addr = addr)
    {server : LocoNetSlotServer} (hstart : server.slotDB = .empty)
    (h : Reachable AllocationCall.exec
      (fun call => ∀ m, call.processed = some m → m.SevenBit) server s) :
    PlainAddresses s.directory := by
  refine Reachable.invariant AllocationCall.exec (I := fun s => PlainAddresses s.directory)
    ?_ (fun s call s' hs h7 hrun => ?_) h
  · rw [directory_of_empty hstart]
    exact ⟨fun _ => hplain 0 (by decide), fun _ _ => rfl⟩
  · exact (AllocationCall.exec_directoryChange hrun).plainAddresses hnumeric hplain hs h7

/-! ### Agreement -/

/-- Both searches end at slot `i`, which is in use with the numeric address, and change
nothing. So a passive and an active server forward a change of the engine alike. -/
structure LookupsAgree (s : LocoNetSlotServer) (addr : LocoAddr) (i : Fin kNumSlots) : Prop where
  passive : (findSlotForAddress addr).run s = .ok ((i : SlotIt), s)
  active : (findOrAllocateSlotForAddress addr).run s = .ok ((i : SlotIt), s)
  inUse : (s.slot i).inUse = true
  address : getNumericAddress (s.slot i).loco.address = getNumericAddress addr
  forward : ∀ (loco : LocomotiveData) (diff : LocoDiff), loco.address = addr →
    ∃ (entry : SlotEntry) (msgs : List LnMsg), ∀ state, state ≠ .disabled →
      (LocoNetForwarder.forwardLocoChange loco diff).run (s.inMode state)
        = .ok ({}, ((s.inMode state).setSlot i entry).send msgs)

/-- The address has no protocol, slot 0 is not in use with it, and for address 0 each free
slot is behind a slot in use with address 0. -/
structure PlainLookup (s : LocoNetSlotServer) (addr : LocoAddr) : Prop where
  numeric : getNumericAddress addr = addr
  slotZero : (s.slot 0).inUse = true → (s.slot 0).loco.address ≠ addr
  addressZero : addr = 0 → ∀ j, j ≠ 0 → (s.slot j).inUse = false →
    ∃ i, i ≠ 0 ∧ i < j ∧ (s.slot i).inUse = true ∧ (s.slot i).loco.address = 0

variable {addr : LocoAddr} {i : Fin kNumSlots}

/-- The searches do not read the mode, so they end at the same slot in every mode. -/
theorem forwardLocoChange_run_inMode
    (hpassive : (findSlotForAddress addr).run s = .ok ((i : SlotIt), s))
    (hactive : s.slotWithAddress addr = some i) {loco : LocomotiveData}
    (haddr : loco.address = addr) (diff : LocoDiff) {state : SlotServerState}
    (hstate : state ≠ .disabled) :
    (LocoNetForwarder.forwardLocoChange loco diff).run (s.inMode state)
      = .ok ({}, ((s.inMode state).setSlot i ((s.slot i).cacheChange loco diff)).send
          (announcements (findSlotIndex i) loco diff)) := by
  subst haddr
  have henabled : (s.inMode state).isDisabled = false := decide_eq_false hstate
  have hfind : (LocoNetForwarder.findSlot loco.address).run (s.inMode state)
      = .ok ((i : SlotIt), s.inMode state) := by
    cases state with
    | disabled => exact absurd rfl hstate
    | passive =>
        have hfirst := findSlotForAddress_run_iff.mp hpassive
        have hlookup : (findSlotForAddress loco.address).run (s.inMode .passive)
            = .ok ((i : SlotIt), s.inMode .passive) := findSlotForAddress_run_iff.mpr hfirst
        exact hlookup
    | active =>
        have hslot : (s.inMode .active).slotWithAddress loco.address = some i := hactive
        exact findOrAllocateSlotForAddress_run_of_found hslot
  exact forwardLocoChange_run_of_found henabled hfind diff

/-- When both searches end at a slot in use and nothing changes, the active one has found
it. -/
theorem slotWithAddress_of_run (hin : (s.slot i).inUse = true)
    (h : (findOrAllocateSlotForAddress addr).run s = .ok ((i : SlotIt), s)) :
    s.slotWithAddress addr = some i := by
  cases hfind : s.slotWithAddress addr with
  | some j =>
      rw [findOrAllocateSlotForAddress_run_of_found hfind, Except.ok.injEq, Prod.mk.injEq] at h
      rw [Fin.ext h.1]
  | none =>
      cases hfree : s.firstFree with
      | none =>
          rw [findOrAllocateSlotForAddress_run_of_full hfind hfree] at h
          cases h
      | some j =>
          -- An allocated slot was free.
          rw [findOrAllocateSlotForAddress_run_of_free hfind hfree, Except.ok.injEq,
            Prod.mk.injEq] at h
          have hij : j = i := Fin.ext h.1
          rw [← hij, (firstFree_eq_some.mp hfree).2.1] at hin
          cases hin

/-- Agreement in a table with plain addresses. -/
theorem lookupsAgree_iff_of_plain (hs : PlainAddresses s.directory)
    (hheld : ∃ k, (s.slot k).inUse = true ∧
      getNumericAddress (s.slot k).loco.address = getNumericAddress addr) :
    (∃ i, LookupsAgree s addr i) ↔ PlainLookup s addr := by
  constructor
  · rintro ⟨i, hagree⟩
    obtain ⟨⟨hin, haddr⟩, hfirst⟩ := findSlotForAddress_run_iff.mp hagree.passive
    obtain ⟨hi0, _, hleast⟩ :=
      slotWithAddress_eq_some.mp (slotWithAddress_of_run hin hagree.active)
    have hnumeric : getNumericAddress (s.slot i).loco.address = (s.slot i).loco.address :=
      hs.numeric i
    refine ⟨haddr ▸ hnumeric, fun hzero => ?_, ?_⟩
    · exact hfirst 0 (Fin.pos_of_ne_zero hi0) hzero
    · rintro rfl j hj0 hfree
      refine ⟨i, hi0, ?_, hin, haddr⟩
      have hzero : (s.slot j).loco.address = 0 := hs.unused j hfree
      rcases lt_trichotomy i j with hlt | rfl | hlt
      · exact hlt
      · rw [hin] at hfree
        cases hfree
      · have hno := hleast j hj0 hlt
        rw [SlotEntry.hasAddress, hzero] at hno
        exact absurd rfl (of_decide_eq_false hno)
  · intro hlookup
    obtain ⟨k, hkin, hk⟩ := hheld
    have hexact : ∀ j, (s.slot j).hasAddress addr = true → (s.slot j).loco.address = addr := by
      intro j hj
      have hnumeric : getNumericAddress (s.slot j).loco.address = (s.slot j).loco.address :=
        hs.numeric j
      rw [← hnumeric, SlotEntry.hasAddress_iff.mp hj, hlookup.numeric]
    have hk0 : k ≠ 0 := by
      rintro rfl
      exact hlookup.slotZero hkin (hexact 0 (SlotEntry.hasAddress_iff.mpr hk))
    obtain ⟨i, hi⟩ : ∃ i, s.slotWithAddress addr = some i := by
      cases hfind : s.slotWithAddress addr with
      | some i => exact ⟨i, rfl⟩
      | none =>
          have hno := slotWithAddress_eq_none.mp hfind k hk0
          rw [SlotEntry.hasAddress_iff.mpr hk] at hno
          cases hno
    obtain ⟨hi0, hhas, hleast⟩ := slotWithAddress_eq_some.mp hi
    have haddr := hexact i hhas
    have hin : (s.slot i).inUse = true := by
      cases hfree : (s.slot i).inUse with
      | true => rfl
      | false =>
          -- A free slot has address 0, and then an earlier one is in use with address 0.
          have hzero : (s.slot i).loco.address = 0 := hs.unused i hfree
          obtain ⟨j, hj0, hlt, _, hjaddr⟩ := hlookup.addressZero (haddr ▸ hzero) i hi0 hfree
          have hno := hleast j hj0 hlt
          rw [SlotEntry.hasAddress, hjaddr, ← hzero] at hno
          exact absurd (SlotEntry.hasAddress_iff.mp hhas) (of_decide_eq_false hno)
    have hpassive : (findSlotForAddress addr).run s = .ok ((i : SlotIt), s) := by
      refine findSlotForAddress_run_iff.mpr ⟨⟨hin, haddr⟩, fun j hlt hjin hjaddr => ?_⟩
      by_cases hj0 : j = 0
      · subst hj0
        exact hlookup.slotZero hjin hjaddr
      · have hno := hleast j hj0 hlt
        rw [SlotEntry.hasAddress, hjaddr] at hno
        exact absurd rfl (of_decide_eq_false hno)
    exact ⟨i, hpassive, findOrAllocateSlotForAddress_run_of_found hi, hin,
      SlotEntry.hasAddress_iff.mp hhas, fun loco diff hloco =>
        ⟨_, _, fun _ hstate => forwardLocoChange_run_inMode hpassive hi hloco diff hstate⟩⟩

/-- In every reachable table, and for every address whose numeric part is in use, the two
searches agree exactly when the lookup is plain. -/
theorem lookupsAgree_iff
    (hnumeric : ∀ addr, getNumericAddress (getNumericAddress addr) = getNumericAddress addr)
    (hplain : ∀ addr : LocoAddr, addr.toNat < 2 ^ 14 → getNumericAddress addr = addr)
    (server : LocoNetSlotServer) (hstart : server.slotDB = .empty)
    (h : Reachable AllocationCall.exec
      (fun call => ∀ m, call.processed = some m → m.SevenBit) server s)
    (hheld : ∃ k, (s.slot k).inUse = true ∧
      getNumericAddress (s.slot k).loco.address = getNumericAddress addr) :
    (∃ i, LookupsAgree s addr i) ↔ PlainLookup s addr :=
  lookupsAgree_iff_of_plain (reachable_plainAddresses hnumeric hplain hstart h) hheld

end

/-- Slot 1 is in the table. -/
theorem one_lt_kNumSlots : 1 < kNumSlots := by decide

/-- An active server with slot 1 for address 3. -/
def LocoNetSlotServer.withEngine3 : LocoNetSlotServer :=
  let server : LocoNetSlotServer := { dataModel := { lnSlotServerState := .active } }
  server.setSlot ⟨1, one_lt_kNumSlots⟩ (.initialized 3)

/-- The server is reached by one allocation. -/
theorem withEngine3_reachable :
    letI := AddressScheme.upperBits
    Reachable AllocationCall.exec (fun call => ∀ m, call.processed = some m → m.SevenBit)
      { dataModel := { lnSlotServerState := .active } } LocoNetSlotServer.withEngine3 := by
  let _ := AddressScheme.upperBits
  have hfind : (findOrAllocateSlotForAddress 3).run
        { dataModel := { lnSlotServerState := .active } }
      = .ok ((1 : Fin kNumSlots).val, LocoNetSlotServer.withEngine3) :=
    findOrAllocateSlotForAddress_run_of_free (by decide) (by decide)
  have hcall : (AllocationCall.exec (.findOrAllocateSlotForAddress 3)).run
        { dataModel := { lnSlotServerState := .active } }
      = .ok ((), LocoNetSlotServer.withEngine3) := run_bind_of_ok hfind
  refine Reachable.init.step (fun m hm => ?_) hcall
  cases hm

/-- The lookup of address 3. -/
theorem lookupsAgree_iff_engine3 :
    letI := AddressScheme.upperBits
    ∃ i, LookupsAgree LocoNetSlotServer.withEngine3 3 i := by
  let _ := AddressScheme.upperBits
  have hlookup : PlainLookup LocoNetSlotServer.withEngine3 3 :=
    ⟨by decide, by decide, fun h => absurd h (by decide)⟩
  exact (lookupsAgree_iff upperBits_idempotent upperBits_plain _ rfl withEngine3_reachable
    ⟨1, by decide, by decide⟩).mpr hlookup

/-- Address 3 as a protocol address: the allocating search finds slot 1 and the other search
finds nothing. -/
theorem lookups_differ_protocol :
    letI := AddressScheme.upperBits
    let server : LocoNetSlotServer := { dataModel := { lnSlotServerState := .active } }
    let s := LocoNetSlotServer.withEngine3
    Reachable AllocationCall.exec (fun call => ∀ m, call.processed = some m → m.SevenBit)
        server s ∧
      (s.slot 1).inUse = true ∧
      getNumericAddress (s.slot 1).loco.address = getNumericAddress 0xC003 ∧
      (findSlotForAddress 0xC003).run s = .ok (kNumSlots, s) ∧
      (findOrAllocateSlotForAddress 0xC003).run s = .ok ((1 : Fin kNumSlots).val, s) ∧
      ¬ ∃ i, LookupsAgree s 0xC003 i := by
  let _ := AddressScheme.upperBits
  intro server s
  have hnone : (findSlotForAddress 0xC003).run s = .ok (kNumSlots, s) := by
    rcases findSlotForAddress_cases s 0xC003 with ⟨i, hin, haddr, _⟩ | ⟨_, hrun⟩
    · have hno : ∀ i, (s.slot i).loco.address ≠ 0xC003 := by decide
      exact absurd haddr (hno i)
    · exact hrun
  refine ⟨withEngine3_reachable, by decide, by decide, hnone,
    findOrAllocateSlotForAddress_run_of_found (by decide), ?_⟩
  rintro ⟨i, hagree⟩
  have hpassive := hagree.passive
  rw [hnone, Except.ok.injEq, Prod.mk.injEq] at hpassive
  exact absurd hpassive.1.symm (Nat.ne_of_lt i.isLt)

end C6021Light
