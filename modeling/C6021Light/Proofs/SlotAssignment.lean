import C6021Light.Lib.FirstCome
import C6021Light.Proofs.SlotTable

/-!
# `C6021Light.Proofs.SlotAssignment`: every engine gets a slot of its own

An active server that starts with an empty table gives slots in the order of the first
requests: the first address gets slot 1, the next one slot 2, and so on. The table is then
determined by the roster of the addresses requested so far (`rosterDirectory`), and `Assigned`
is that invariant. Control messages and engine updates do not touch the directory, so a run of
any length with at most 126 different addresses is answered as `slotAssignment` says.
-/

set_option autoImplicit false

namespace C6021Light

open FaultRun FirstCome AddressScheme

/-! ### Events -/

/-- A request for the slot of an address, a control message, or an engine update from CAN. -/
inductive EngineEvent
  | request (la : LocoAdrMsg)
  | control (m : LnMsg)
  | forward (loco : LocomotiveData) (diff : LocoDiff)

/-- The address that an event requests. -/
def EngineEvent.requests : EngineEvent → List LocoAddr
  | request la => [extractLocoAddress la]
  | _ => []

section

variable [AddressScheme]

/-- What an event does to the slot server. -/
def EngineEvent.exec : EngineEvent → SlotServerRun Unit
  | request la => process (.locoAdr la)
  | control m => process m
  | forward loco diff => do let _ ← LocoNetForwarder.forwardLocoChange loco diff

/-- Requested addresses have 14 bits and are not 0, control messages are for slots of the
table, and engine updates are for addresses that were requested before. -/
def EngineEvent.Allowed (requested : List LocoAddr) : EngineEvent → Prop
  | request la => 0 < (extractLocoAddress la).toNat ∧ (extractLocoAddress la).toNat < 2 ^ 14
  | control m => ∃ i : Fin kNumSlots, m.ControlsSlot i
  | forward loco _ => getNumericAddress loco.address ∈ requested

/-- Each event is allowed after the requests in front of it. -/
def AllAllowed : List LocoAddr → List EngineEvent → Prop
  | _, [] => True
  | requested, e :: es => e.Allowed requested ∧ AllAllowed (requested ++ e.requests) es

/-! ### The table of a roster -/

omit [AddressScheme] in
/-- Slot `k + 1` belongs to the address at position `k`, and the other slots are free. -/
def rosterDirectory (roster : List LocoAddr) : Directory := fun i =>
  if (i : Nat) = 0 then (false, 0)
  else (roster[(i : Nat) - 1]?).elim (false, 0) fun addr => (true, addr)

omit [AddressScheme] in
/-- The slot behind the first `n` engines. -/
def slotAfter (n : Nat) : Fin kNumSlots :=
  ⟨(n + 1) % kNumSlots, Nat.mod_lt (n + 1) (Nat.succ_pos 126)⟩

omit [AddressScheme] in
/-- Behind `n` engines comes slot `n + 1`. -/
theorem slotAfter_val {n : Nat} (h : n + 1 ≤ 126) : (slotAfter n : Nat) = n + 1 :=
  Nat.mod_eq_of_lt (show n + 1 < 127 by omega)

omit [AddressScheme] in
/-- The slot of an address. -/
def slotOf (roster : List LocoAddr) (addr : LocoAddr) : Fin kNumSlots :=
  slotAfter (roster.idxOf addr)

section Roster

variable {roster : List LocoAddr} {addr : LocoAddr}

omit [AddressScheme] in
/-- The slot of an address is one more than its place on the roster. -/
theorem slotOf_val (hlen : roster.length ≤ 126) (haddr : addr ∈ roster) :
    (slotOf roster addr : Nat) = roster.idxOf addr + 1 := by
  have hidx := List.idxOf_lt_length_of_mem haddr
  exact slotAfter_val (by omega)

omit [AddressScheme] in
/-- No address has slot 0. -/
theorem slotOf_ne_zero (hlen : roster.length ≤ 126) (haddr : addr ∈ roster) :
    slotOf roster addr ≠ 0 := by
  intro h
  have hval := slotOf_val hlen haddr
  rw [h] at hval
  cases hval

omit [AddressScheme] in
/-- Slot 0 is free. -/
@[simp] theorem rosterDirectory_zero (roster : List LocoAddr) :
    rosterDirectory roster 0 = (false, 0) := rfl

omit [AddressScheme] in
/-- A slot has the address of its place, if there is one. -/
theorem rosterDirectory_of_ne {i : Fin kNumSlots} (hi : i ≠ 0) (roster : List LocoAddr) :
    rosterDirectory roster i
      = (roster[(i : Nat) - 1]?).elim (false, 0) fun addr => (true, addr) :=
  if_neg (Nat.pos_iff_ne_zero.mp (Fin.pos_of_ne_zero hi))

omit [AddressScheme] in
/-- Without engines every slot is free. -/
theorem rosterDirectory_nil : rosterDirectory [] = fun _ => (false, 0) := by
  funext i
  simp [rosterDirectory]

omit [AddressScheme] in
/-- The slot of an address is in use with this address. -/
theorem rosterDirectory_slotOf (hlen : roster.length ≤ 126) (haddr : addr ∈ roster) :
    rosterDirectory roster (slotOf roster addr) = (true, addr) := by
  have hget : roster[roster.idxOf addr]? = some addr := List.getElem?_idxOf haddr
  rw [rosterDirectory_of_ne (slotOf_ne_zero hlen haddr), slotOf_val hlen haddr,
    Nat.add_sub_cancel, hget]
  rfl

omit [AddressScheme] in
/-- A slot of the roster's table has an address of the roster, or address 0. -/
theorem rosterDirectory_cases (roster : List LocoAddr) (i : Fin kNumSlots) :
    (rosterDirectory roster i = (false, 0) ∧ (i ≠ 0 → roster.length < i)) ∨
      ∃ addr ∈ roster, rosterDirectory roster i = (true, addr) ∧
        (i : Nat) ≤ roster.length ∧ roster[(i : Nat) - 1]? = some addr := by
  by_cases hi : i = 0
  · subst hi
    exact .inl ⟨rfl, fun h => absurd rfl h⟩
  · have hpos : 0 < (i : Nat) := Fin.pos_of_ne_zero hi
    cases hget : roster[(i : Nat) - 1]? with
    | none =>
        have hge := List.getElem?_eq_none_iff.mp hget
        refine .inl ⟨?_, fun _ => by omega⟩
        rw [rosterDirectory_of_ne hi, hget]
        rfl
    | some addr =>
        have hlt : (i : Nat) - 1 < roster.length := (List.getElem?_eq_some_iff.mp hget).1
        refine .inr ⟨addr, List.mem_of_getElem? hget, ?_, by omega, rfl⟩
        rw [rosterDirectory_of_ne hi, hget]
        rfl

omit [AddressScheme] in
/-- The table after one more address. -/
theorem rosterDirectory_append (hlen : roster.length + 1 ≤ 126) :
    rosterDirectory (roster ++ [addr])
      = Function.update (rosterDirectory roster) (slotAfter roster.length)
          (true, addr) := by
  have hval := slotAfter_val hlen
  funext i
  rw [Function.update_apply]
  split
  -- The new address is at the end of the roster.
  · next hi =>
      have hi0 : i ≠ 0 := by
        rintro rfl
        rw [← hi] at hval
        cases hval
      rw [rosterDirectory_of_ne hi0, hi, hval, Nat.add_sub_cancel,
        List.getElem?_concat_length]
      rfl
  -- The other slots have what they had, or nothing.
  · next hi =>
      have hne : (i : Nat) ≠ roster.length + 1 := fun h => hi (Fin.ext (h.trans hval.symm))
      by_cases hi0 : i = 0
      · rw [hi0, rosterDirectory_zero, rosterDirectory_zero]
      · have hpos : 0 < (i : Nat) := Fin.pos_of_ne_zero hi0
        have hget : (roster ++ [addr])[(i : Nat) - 1]? = roster[(i : Nat) - 1]? := by
          by_cases hlt : (i : Nat) - 1 < roster.length
          · exact List.getElem?_append_left hlt
          · have hold : roster.length ≤ (i : Nat) - 1 := Nat.le_of_not_lt hlt
            have hnew : (roster ++ [addr]).length ≤ (i : Nat) - 1 := by
              rw [List.length_append, List.length_singleton]
              omega
            rw [List.getElem?_eq_none_iff.mpr hold, List.getElem?_eq_none_iff.mpr hnew]
        rw [rosterDirectory_of_ne hi0, rosterDirectory_of_ne hi0, hget]

end Roster

/-! ### The invariant -/

/-- The table is that of the roster, whose addresses are different 14-bit addresses. -/
structure Assigned (s : LocoNetSlotServer) (roster : List LocoAddr) : Prop where
  active : s.isActive = true
  directory : s.directory = rosterDirectory roster
  nodup : roster.Nodup
  plain : ∀ addr ∈ roster, 0 < addr.toNat ∧ addr.toNat < 2 ^ 14

variable {s : LocoNetSlotServer} {roster : List LocoAddr} {addr : LocoAddr}

namespace Assigned

/-- Every address of the table is its own numeric part. -/
theorem hasAddress_iff
    (hplain : ∀ addr : LocoAddr, addr.toNat < 2 ^ 14 → getNumericAddress addr = addr)
    (hs : Assigned s roster) (i : Fin kNumSlots) :
    (s.slot i).hasAddress addr = true ↔ (rosterDirectory roster i).2 = getNumericAddress addr := by
  have hentry : (s.slot i).loco.address = (rosterDirectory roster i).2 :=
    congrArg Prod.snd (congrFun hs.directory i)
  have hlt : (rosterDirectory roster i).2.toNat < 2 ^ 14 := by
    rcases rosterDirectory_cases roster i with ⟨hfree, _⟩ | ⟨a, ha, hused, _⟩
    · rw [hfree]
      decide
    · rw [hused]
      exact (hs.plain a ha).2
  rw [SlotEntry.hasAddress_iff, hentry, hplain _ hlt]

/-- An address of the roster is found in its slot. -/
theorem slotWithAddress_of_mem
    (hplain : ∀ addr : LocoAddr, addr.toNat < 2 ^ 14 → getNumericAddress addr = addr)
    (hs : Assigned s roster) (hlen : roster.length ≤ 126)
    (haddr : getNumericAddress addr ∈ roster) :
    s.slotWithAddress addr = some (slotOf roster (getNumericAddress addr)) := by
  have hslot := rosterDirectory_slotOf hlen haddr
  refine slotWithAddress_eq_some.mpr ⟨slotOf_ne_zero hlen haddr, ?_, fun j hj0 hlt => ?_⟩
  · rw [hs.hasAddress_iff hplain, hslot]
  · refine Bool.eq_false_iff.mpr fun hhas => ?_
    have hj := (hs.hasAddress_iff hplain j).mp hhas
    -- A slot before it has another address of the roster, or address 0.
    rcases rosterDirectory_cases roster j with ⟨hfree, hbehind⟩ | ⟨a, _, hused, _, hget⟩
    · have hval := slotOf_val hlen haddr
      have hidx := List.idxOf_lt_length_of_mem haddr
      have hlt : (j : Nat) < slotOf roster (getNumericAddress addr) := hlt
      have hge := hbehind hj0
      omega
    · rw [hused] at hj
      have ha : a = getNumericAddress addr := hj
      subst ha
      have hpos : 0 < (j : Nat) := Fin.pos_of_ne_zero hj0
      have hidx := hs.nodup.idxOf_getElem ((j : Nat) - 1) (List.getElem?_eq_some_iff.mp hget).1
      rw [(List.getElem?_eq_some_iff.mp hget).2] at hidx
      have hval := slotOf_val hlen haddr
      have hlt : (j : Nat) < slotOf roster (getNumericAddress addr) := hlt
      omega

/-- Any other address but 0 is not found. -/
theorem slotWithAddress_of_notMem
    (hplain : ∀ addr : LocoAddr, addr.toNat < 2 ^ 14 → getNumericAddress addr = addr)
    (hs : Assigned s roster) (haddr : getNumericAddress addr ∉ roster)
    (hzero : getNumericAddress addr ≠ 0) : s.slotWithAddress addr = none := by
  refine slotWithAddress_eq_none.mpr fun i _ => Bool.eq_false_iff.mpr fun hhas => ?_
  have hi := (hs.hasAddress_iff hplain i).mp hhas
  rcases rosterDirectory_cases roster i with ⟨hfree, _⟩ | ⟨a, ha, hused, _⟩
  · rw [hfree] at hi
    exact hzero hi.symm
  · rw [hused] at hi
    have haeq : a = getNumericAddress addr := hi
    exact haddr (haeq ▸ ha)

omit [AddressScheme] in
/-- The first free slot is the next one. -/
theorem firstFree (hs : Assigned s roster) (hlen : roster.length + 1 ≤ 126) :
    s.firstFree = some (slotAfter roster.length) := by
  have hval := slotAfter_val hlen
  have hin : ∀ i, (s.slot i).inUse = (rosterDirectory roster i).1 := fun i =>
    congrArg Prod.fst (congrFun hs.directory i)
  refine firstFree_eq_some.mpr ⟨?_, ?_, fun j hj0 hlt => ?_⟩
  · intro h
    rw [h] at hval
    cases hval
  · rw [hin]
    rcases rosterDirectory_cases roster (slotAfter roster.length) with
      ⟨hfree, _⟩ | ⟨_, _, _, hle, _⟩
    · rw [hfree]
    · omega
  · have hlt : (j : Nat) < slotAfter roster.length := hlt
    rw [hin]
    rcases rosterDirectory_cases roster j with ⟨_, hbehind⟩ | ⟨_, _, hused, _⟩
    · have hge := hbehind hj0
      omega
    · rw [hused]

end Assigned

/-! ### One event -/

/-- The answer to a request: one slot data read of a slot in use, for slot `i` and the
address. The answer is the call of `AsyncSend`, whether the queue has room for it or not. -/
structure AnswersRequest (s s' : LocoNetSlotServer) (i : Fin kNumSlots) (addr : LocoAddr) :
    Prop where
  inUse : (s'.slot i).inUse = true
  answer : ∃ sd, s'.tx = s.tx.sendAll [.slRdData sd] ∧ sd.slot.toNat = i ∧
    sd.reportsFree = false ∧ getLocoAddress sd = addr

omit [AddressScheme] in
/-- The slot data of a slot in use is such an answer. -/
theorem answersRequest_of_directory {s s₁ : LocoNetSlotServer} {i : Fin kNumSlots}
    (htx : s₁.tx = s.tx) (hi : s₁.directory i = (true, addr)) (haddr : addr.toNat < 2 ^ 14) :
    AnswersRequest s (s₁.send [s₁.slotData i]) i addr := by
  have hin : (s₁.slot i).inUse = true := congrArg Prod.fst hi
  have haddress : (s₁.slot i).loco.address = addr := congrArg Prod.snd hi
  refine ⟨hin, lnSlotReadWriteMessage (findSlotIndex i) (slotStatus (s₁.slot i)) (s₁.slot i).loco,
    ?_, findSlotIndex_toNat i, ?_, ?_⟩
  · rw [LocoNetSlotServer.tx_send, htx]
    rfl
  · have hstat : slotStatus (s₁.slot i) = 0x33 := by
      rw [slotStatus, hin]
      rfl
    simp [RwSlotDataMsg.reportsFree, lnSlotReadWriteMessage, hstat]
  · show ((putLocoAddress (s₁.slot i).loco.address).2.setWidth 16 <<< 7)
      ||| ((putLocoAddress (s₁.slot i).loco.address).1 &&& 0x7F#8).setWidth 16 = addr
    rw [haddress, joinAddress_putLocoAddress haddr]

section Events

variable (hplain : ∀ addr : LocoAddr, addr.toNat < 2 ^ 14 → getNumericAddress addr = addr)

include hplain

/-- A request enrolls its address and is answered with its slot. -/
theorem Assigned.request (hs : Assigned s roster) {la : LocoAdrMsg}
    (hallowed : EngineEvent.Allowed roster (.request la))
    (hlen : (enroll roster (extractLocoAddress la)).length ≤ 126) :
    ∃ s', (process (.locoAdr la)).run s = .ok ((), s') ∧
      Assigned s' (enroll roster (extractLocoAddress la)) ∧
      AnswersRequest s s' (slotOf (enroll roster (extractLocoAddress la)) (extractLocoAddress la))
        (extractLocoAddress la) := by
  obtain ⟨hpos, hlt⟩ := hallowed
  have hnumeric := hplain (extractLocoAddress la) hlt
  by_cases hmem : extractLocoAddress la ∈ roster
  · rw [enroll_of_mem hmem] at hlen ⊢
    have hfind := hs.slotWithAddress_of_mem hplain hlen (hnumeric.symm ▸ hmem)
    rw [hnumeric] at hfind
    have hdir : s.directory (slotOf roster (extractLocoAddress la))
        = (true, extractLocoAddress la) := by
      rw [hs.directory, rosterDirectory_slotOf hlen hmem]
    exact ⟨_, processLocoRequest_run_of_ok hs.active
        (findOrAllocateSlotForAddress_run_of_found hfind),
      ⟨hs.active, hs.directory, hs.nodup, hs.plain⟩, answersRequest_of_directory rfl hdir hlt⟩
  · have hnodup := enroll_nodup hs.nodup (extractLocoAddress la)
    rw [enroll_of_notMem hmem] at hlen hnodup ⊢
    have hroom : roster.length + 1 ≤ 126 := by
      rw [List.length_append, List.length_singleton] at hlen
      exact hlen
    have hzero : extractLocoAddress la ≠ 0 := by
      intro h
      rw [h] at hpos
      exact absurd hpos (by decide)
    have hnone := hs.slotWithAddress_of_notMem hplain (hnumeric.symm ▸ hmem)
      (hnumeric.symm ▸ hzero)
    have hfind := findOrAllocateSlotForAddress_run_of_free hnone (hs.firstFree hroom)
    rw [hnumeric] at hfind
    have hdir : (s.setSlot (slotAfter roster.length)
          (.initialized (extractLocoAddress la))).directory
        = rosterDirectory (roster ++ [extractLocoAddress la]) := by
      rw [LocoNetSlotServer.directory_setSlot, hs.directory, rosterDirectory_append hroom]
      rfl
    have hlast : extractLocoAddress la ∈ roster ++ [extractLocoAddress la] := by simp
    -- The new slot is the slot of the new address.
    have hslot : slotOf (roster ++ [extractLocoAddress la]) (extractLocoAddress la)
        = slotAfter roster.length := by
      rw [slotOf, List.idxOf_append_of_notMem hmem, List.idxOf_cons_self, Nat.add_zero]
    refine ⟨_, processLocoRequest_run_of_ok hs.active hfind, ⟨hs.active, hdir, hnodup, ?_⟩, ?_⟩
    · intro a ha
      rcases List.mem_append.mp ha with ha | ha
      · exact hs.plain a ha
      · rw [List.mem_singleton.mp ha]
        exact ⟨hpos, hlt⟩
    · rw [hslot]
      refine answersRequest_of_directory rfl ?_ hlt
      rw [hdir, ← hslot, rosterDirectory_slotOf hlen hlast]

omit hplain in
/-- A control message for a slot of the table keeps the table's directory. -/
theorem Assigned.control (hs : Assigned s roster) {m : LnMsg} {i : Fin kNumSlots}
    (hm : m.ControlsSlot i) :
    ∃ s', (process m).run s = .ok ((), s') ∧ Assigned s' roster := by
  obtain ⟨slot, hslot, hi⟩ := hm.exists_slot
  cases hmagic : m.hasMagic with
  | true =>
      refine ⟨_, process_control_run hslot hmagic hi s, hs.active, ?_, hs.nodup, hs.plain⟩
      rw [LocoNetSlotServer.directory_send, LocoNetSlotServer.directory_control, hs.directory]
  | false =>
      exact ⟨s, by rw [process_of_no_magic hmagic]; rfl, hs⟩

/-- So does an engine update for an address of the roster. -/
theorem Assigned.forward (hs : Assigned s roster) (hlen : roster.length ≤ 126)
    {loco : LocomotiveData} (haddr : getNumericAddress loco.address ∈ roster) (diff : LocoDiff) :
    ∃ s', (EngineEvent.exec (.forward loco diff)).run s = .ok ((), s') ∧ Assigned s' roster := by
  have henabled : s.isDisabled = false := not_disabled_of_active hs.active
  have hfind : (LocoNetForwarder.findSlot loco.address).run s
      = .ok ((slotOf roster (getNumericAddress loco.address) : SlotIt), s) := by
    show (if s.isActive then findOrAllocateSlotForAddress loco.address
      else findSlotForAddress loco.address : SlotServerRun SlotIt).run s = _
    rw [if_pos hs.active]
    exact findOrAllocateSlotForAddress_run_of_found
      (hs.slotWithAddress_of_mem hplain hlen haddr)
  refine ⟨_, run_bind_of_ok (forwardLocoChange_run_of_found henabled hfind diff), hs.active, ?_,
    hs.nodup, hs.plain⟩
  rw [LocoNetSlotServer.directory_send, LocoNetSlotServer.directory_announce, hs.directory]

/-! ### Runs -/

/-- One allowed event. The roster is that of the requests so far. -/
theorem EngineEvent.exec_assigned {requested : List LocoAddr} {e : EngineEvent}
    (hs : Assigned s (requested.foldl enroll [])) (hallowed : e.Allowed requested)
    (hlen : ((requested ++ e.requests).foldl enroll []).length ≤ 126) :
    ∃ s', (e.exec).run s = .ok ((), s') ∧
      Assigned s' ((requested ++ e.requests).foldl enroll []) := by
  rw [List.foldl_append] at hlen ⊢
  cases e with
  | request la =>
      obtain ⟨s', hrun, hs', _⟩ := hs.request hplain hallowed hlen
      exact ⟨s', hrun, hs'⟩
  | control m =>
      obtain ⟨i, hi⟩ := hallowed
      exact hs.control hi
  | forward loco diff =>
      have hmem : getNumericAddress loco.address ∈ requested.foldl enroll [] :=
        (mem_enroll_foldl requested []).mpr (.inr hallowed)
      exact hs.forward hplain hlen hmem diff

/-- Every run of allowed events completes, with the table of its roster. -/
theorem forM_assigned :
    ∀ (events : List EngineEvent) (requested : List LocoAddr) (s : LocoNetSlotServer),
      Assigned s (requested.foldl enroll []) → AllAllowed requested events →
      ((requested ++ events.flatMap EngineEvent.requests).foldl enroll []).length ≤ 126 →
      ∃ s', (forM events EngineEvent.exec).run s = .ok ((), s') ∧
        Assigned s' ((requested ++ events.flatMap EngineEvent.requests).foldl enroll []) := by
  intro events
  induction events with
  | nil =>
      intro requested s hs _ _
      rw [List.flatMap_nil, List.append_nil]
      exact ⟨s, rfl, hs⟩
  | cons e events ih =>
      intro requested s hs hallowed hlen
      rw [List.flatMap_cons, ← List.append_assoc] at hlen ⊢
      -- The roster only grows, so it was short enough all along.
      have hgrows : (requested ++ e.requests).foldl enroll [] <+: _ :=
        enroll_foldl_extends (events.flatMap EngineEvent.requests) _
      rw [← List.foldl_append] at hgrows
      obtain ⟨s₁, hrun₁, hs₁⟩ :=
        EngineEvent.exec_assigned hplain hs hallowed.1 (hgrows.length_le.trans hlen)
      obtain ⟨s', hrun, hs'⟩ := ih (requested ++ e.requests) s₁ hs₁ hallowed.2 hlen
      exact ⟨s', (run_forM_cons EngineEvent.exec).mpr ⟨s₁, hrun₁, hrun⟩, hs'⟩

omit hplain in
/-- Two parts of a run are allowed one after the other. -/
theorem allAllowed_append (events : List EngineEvent) :
    ∀ (before : List EngineEvent) (requested : List LocoAddr),
      AllAllowed requested (before ++ events) ↔ AllAllowed requested before ∧
        AllAllowed (requested ++ before.flatMap EngineEvent.requests) events := by
  intro before
  induction before with
  | nil => simp [AllAllowed]
  | cons e before ih =>
      intro requested
      rw [List.cons_append, AllAllowed, AllAllowed, ih, and_assoc, List.flatMap_cons,
        List.append_assoc]

end Events

/-- In every run from the empty table that requests at most 126 different addresses, each
address has one slot of 1 to 126 that belongs to no other address, and every request for it
is answered with the slot data of that slot. -/
theorem slotAssignment
    (hplain : ∀ addr : LocoAddr, addr.toNat < 2 ^ 14 → getNumericAddress addr = addr)
    (server : LocoNetSlotServer) (hactive : server.isActive = true)
    (hstart : server.slotDB = .empty) (events : List EngineEvent)
    (hallowed : AllAllowed [] events)
    (hfew : (events.flatMap EngineEvent.requests).toFinset.card ≤ 126) :
    ∃ assign : LocoAddr → Fin kNumSlots,
      Set.InjOn assign {addr | addr ∈ events.flatMap EngineEvent.requests} ∧
      (∀ addr ∈ events.flatMap EngineEvent.requests, assign addr ≠ 0) ∧
      (∃ s, (forM events EngineEvent.exec).run server = .ok ((), s)) ∧
      ∀ before la after, events = before ++ .request la :: after →
        ∃ s s', (forM before EngineEvent.exec).run server = .ok ((), s) ∧
          (process (.locoAdr la)).run s = .ok ((), s') ∧
          AnswersRequest s s' (assign (extractLocoAddress la)) (extractLocoAddress la) := by
  have hstartRoster : Assigned server (([] : List LocoAddr).foldl enroll []) := by
    refine ⟨hactive, ?_, List.nodup_nil, fun _ h => nomatch h⟩
    rw [directory_of_empty hstart, List.foldl_nil, rosterDirectory_nil]
  have hlen : ((events.flatMap EngineEvent.requests).foldl enroll []).length ≤ 126 :=
    (length_enroll_foldl _).trans_le hfew
  have hroster : ∀ addr ∈ events.flatMap EngineEvent.requests,
      addr ∈ (events.flatMap EngineEvent.requests).foldl enroll [] :=
    fun addr h => (mem_enroll_foldl _ []).mpr (.inr h)
  refine ⟨slotOf ((events.flatMap EngineEvent.requests).foldl enroll []), ?_, ?_, ?_, ?_⟩
  · intro a ha b hb hab
    have hval := congrArg (fun i : Fin kNumSlots => (i : Nat)) hab
    simp only [slotOf_val hlen (hroster a ha), slotOf_val hlen (hroster b hb)] at hval
    exact (List.idxOf_inj (hroster a ha)).mp (Nat.succ.inj hval)
  · exact fun addr haddr => slotOf_ne_zero hlen (hroster addr haddr)
  · obtain ⟨s, hrun, _⟩ := forM_assigned hplain events [] server hstartRoster hallowed hlen
    exact ⟨s, hrun⟩
  · rintro before la after rfl
    -- The run is taken apart at the request, and the numbers given later do not matter.
    obtain ⟨hbefore, hrequest, _⟩ := (allAllowed_append _ before []).mp hallowed
    have hsplit : (before ++ .request la :: after).flatMap EngineEvent.requests
        = (before.flatMap EngineEvent.requests ++ [extractLocoAddress la])
          ++ after.flatMap EngineEvent.requests := by
      rw [List.flatMap_append, List.flatMap_cons, List.append_assoc]
      rfl
    rw [hsplit, List.foldl_append] at hlen ⊢
    rw [List.foldl_append, List.foldl_cons, List.foldl_nil] at hlen ⊢
    have hnow := enroll_foldl_extends (after.flatMap EngineEvent.requests)
      (enroll ((before.flatMap EngineEvent.requests).foldl enroll []) (extractLocoAddress la))
    have hearlier := enroll_extends ((before.flatMap EngineEvent.requests).foldl enroll [])
      (extractLocoAddress la)
    have hlenNow := hnow.length_le.trans hlen
    obtain ⟨s, hrun, hs⟩ := forM_assigned hplain before [] server hstartRoster hbefore
      (hearlier.length_le.trans hlenNow)
    obtain ⟨s', hrun', _, hanswer⟩ := hs.request hplain hrequest hlenNow
    have hslot := idxOf_of_extends hnow (mem_enroll.mpr (.inr rfl))
    refine ⟨s, s', hrun, hrun', ?_⟩
    rw [slotOf, hslot]
    exact hanswer

end

/-- Two engines, with a control message and an engine update in between. -/
theorem slotAssignment_two_engines :
    letI := AddressScheme.upperBits
    let server : LocoNetSlotServer := { dataModel := { lnSlotServerState := .active } }
    let before : List EngineEvent :=
      [.request { adrHi := 0, adrLo := 3 }, .control (.locoSpd { slot := 1, spd := 50 }),
        .request { adrHi := 0, adrLo := 5 }, .forward { address := 3 } { velocity := true }]
    ∃ assign : LocoAddr → Fin kNumSlots, assign 3 ≠ assign 5 ∧
      ∃ s s', (forM before EngineEvent.exec).run server = .ok ((), s) ∧
        (process (.locoAdr { adrHi := 0, adrLo := 3 })).run s = .ok ((), s') ∧
        AnswersRequest s s' (assign 3) 3 := by
  let _ := AddressScheme.upperBits
  intro server before
  let last : EngineEvent := .request { adrHi := 0, adrLo := 3 }
  have hknown : getNumericAddress 3 ∈ [(3 : LocoAddr), 5] := by decide
  have hallowed : AllAllowed [] (before ++ [last]) :=
    ⟨⟨by decide, by decide⟩, ⟨1, rfl⟩, ⟨by decide, by decide⟩, hknown, ⟨by decide, by decide⟩,
      trivial⟩
  obtain ⟨assign, hinj, _, _, hanswer⟩ :=
    slotAssignment upperBits_plain server rfl rfl _ hallowed (by decide)
  have h3 : (3 : LocoAddr) ∈ (before ++ [last]).flatMap EngineEvent.requests := by decide
  have h5 : (5 : LocoAddr) ∈ (before ++ [last]).flatMap EngineEvent.requests := by decide
  refine ⟨assign, fun h => ?_, hanswer before { adrHi := 0, adrLo := 3 } [] rfl⟩
  exact absurd (hinj h3 h5 h) (by decide)

end C6021Light
