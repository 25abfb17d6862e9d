import C6021Light.Proofs.SlotTable

/-!
# `C6021Light.Proofs.Dispatch`: a dispatched engine is handed over once

A throttle puts an engine up for dispatch, with a slot move to slot 0 or from the console.
Another throttle gets it with a slot move from slot 0. The server remembers the slot in
`slotInDispatch` and not the engine, and no other handler looks at that marker.

`DispatchAudit` adds a ghost to the server: the engine that was dispatched and not handed
over yet. `AnswersDispatch` says what a get has to answer. It holds in every run whose steps
leave the marker right (`KeepsDispatch`): a put names a slot in use, and no move or slot data
takes the dispatched engine out of its slot.
-/

set_option autoImplicit false

namespace C6021Light

open FaultRun AddressScheme

/-! ### The ghost -/

/-- A LocoNet message, or a dispatch from the console. -/
inductive DispatchEvent
  | process (msg : LnMsg)
  | markAddressForDispatch (addr : LocoAddr)

/-- A slot server with the address that was dispatched last and not handed over yet. -/
structure DispatchAudit where
  server : LocoNetSlotServer
  dispatched : Option LocoAddr := none

/-- Slot data is among the messages that a step passes to `AsyncSend`. A full queue may still refuse
it, and nothing tells the server. -/
def LocoNetSlotServer.answersSlotData (s s' : LocoNetSlotServer) : Bool :=
  (s.tx.newCalls s'.tx).any fun call => call.1.slotData.isSome

/-- The dispatched address after a message. A get that is answered with slot data hands the
engine over, and a put of a slot of the table dispatches the slot's address. -/
def LnMsg.dispatchedAfter (s s' : LocoNetSlotServer) (dispatched : Option LocoAddr) :
    LnMsg → Option LocoAddr
  | moveSlots sm =>
      if isDispatchGet sm then
        if s.answersSlotData s' then none else dispatched
      else if isDispatchPut sm then
        if h : sm.src.toNat < kNumSlots then some (s.slot ⟨sm.src.toNat, h⟩).loco.address
        else dispatched
      else dispatched
  | _ => dispatched

section

variable [AddressScheme]

/-- An event on the server, with the ghost kept. -/
def DispatchEvent.exec : DispatchEvent → StateT DispatchAudit (Except Fault) Unit
  | process msg => do
      let audit ← get
      let (_, server) ← (C6021Light.process msg).run audit.server
      set ({ server := server,
             dispatched := msg.dispatchedAfter audit.server server audit.dispatched } :
        DispatchAudit)
  | markAddressForDispatch addr => do
      let audit ← get
      let (marked, server) ← (C6021Light.markAddressForDispatch addr).run audit.server
      set ({ server := server,
             dispatched := if marked then some addr else audit.dispatched } : DispatchAudit)

/-- The slot is in use with the numeric address. -/
def HoldsAddress (d : Directory) (i : Fin kNumSlots) (addr : LocoAddr) : Prop :=
  (d i).1 = true ∧ getNumericAddress (d i).2 = getNumericAddress addr

/-- What a get has to answer: a negative acknowledge when nothing is dispatched, and else the
slot data of one slot in use with the dispatched address. The answer is the call of `AsyncSend`,
whether the queue has room for it or not. -/
def AnswersDispatch (audit : DispatchAudit) (get : SlotMoveMsg) : Prop :=
  ∃ s', (process (.moveSlots get)).run audit.server = .ok ((), s') ∧
    ((audit.dispatched = none ∧
        s'.tx = audit.server.tx.sendAll [lnLongAck opcMoveSlots false]) ∨
      ∃ addr i, audit.dispatched = some addr ∧ HoldsAddress audit.server.directory i addr ∧
        s'.tx = audit.server.tx.sendAll [audit.server.slotData i])

/-- Something is dispatched, and the marker points to slot `k`. -/
def DispatchAudit.Marks (audit : DispatchAudit) (k : Fin kNumSlots) : Prop :=
  audit.dispatched ≠ none ∧ audit.server.slotInDispatch = k

/-- The event leaves the marker right. -/
structure KeepsDispatch (audit : DispatchAudit) (e : DispatchEvent) : Prop where
  /-- A put names a slot in use. With nothing dispatched it may also name slot 127. -/
  put : ∀ sm, e = .process (.moveSlots sm) → isDispatchGet sm = false →
    isDispatchPut sm = true →
      (∃ i : Fin kNumSlots, sm.src.toNat = i ∧ (audit.server.slot i).inUse = true) ∨
      (sm.src.toNat = kNumSlots ∧ audit.dispatched = none)
  /-- A slot that is found for an address is in use. -/
  mark : ∀ addr i, e = .markAddressForDispatch addr →
    audit.server.slotWithAddress addr = some i → (audit.server.slot i).inUse = true
  /-- The dispatched engine is not moved away, and only the same engine is moved into its
  slot. -/
  move : ∀ sm k, e = .process (.moveSlots sm) → sm.isSlotToSlot = true → audit.Marks k →
    sm.src.toNat ≠ k ∧ (sm.dest.toNat = k → ∃ i : Fin kNumSlots, sm.src.toNat = i ∧
      HoldsAddress audit.server.directory i (audit.server.slot k).loco.address)
  /-- Slot data for its slot brings the same address. -/
  write : ∀ m k addr, e = .process m → m.slotWrite = some (k, addr) → audit.Marks k →
    getNumericAddress addr = getNumericAddress (audit.server.slot k).loco.address

/-! ### Gets and puts -/

variable {s s' : LocoNetSlotServer}

/-- A get with a marked slot of the table. -/
theorem dispatchGet_run_of_marked {get : SlotMoveMsg} (hget : isDispatchGet get = true)
    (hactive : s.isActive = true) {i : Fin kNumSlots} (hi : s.slotInDispatch = i) :
    (process (.moveSlots get)).run s
      = .ok ((), { s.send [s.slotData i] with slotInDispatch := kNumSlots }) := by
  have havail : s.dispatchSlotAvailable = true :=
    decide_eq_true (hi ▸ Nat.ne_of_lt i.isLt)
  have hrun := processSlotMove_run_of_get s hget
  rw [if_pos hactive, if_pos havail, hi, run_bind_of_ok (sendSlotDataRead_run s i)] at hrun
  exact hrun

/-- A get with nothing marked. -/
theorem dispatchGet_run_of_unmarked {get : SlotMoveMsg} (hget : isDispatchGet get = true)
    (hactive : s.isActive = true) (hend : s.slotInDispatch = kNumSlots) :
    (process (.moveSlots get)).run s
      = .ok ((), s.send [lnLongAck opcMoveSlots false]) := by
  have havail : ¬ s.dispatchSlotAvailable = true := by
    simp [LocoNetSlotServer.dispatchSlotAvailable, hend]
  have hrun := processSlotMove_run_of_get s hget
  rw [if_pos hactive, if_neg havail] at hrun
  exact hrun

/-- The message neither dispatches an engine nor asks for one. -/
def LnMsg.isNoDispatch : LnMsg → Bool
  | moveSlots sm => !isDispatchGet sm && !isDispatchPut sm
  | _ => true

/-- No other message changes the marker. -/
theorem process_slotInDispatch {m : LnMsg} (hm : m.isNoDispatch = true)
    (h : (process m).run s = .ok ((), s')) : s'.slotInDispatch = s.slotInDispatch := by
  have heffect := process_effect s m
  rw [h] at heffect
  cases heffect with
  | dispatchGet msg _ _ _ hget => simp [LnMsg.isNoDispatch, hget] at hm
  | dispatchPut msg hput => simp [LnMsg.isNoDispatch, hput] at hm
  | addressAllocated _ _ _ _ _ s₁ hs₁ =>
      subst hs₁
      rfl
  | _ => rfl

omit [AddressScheme] in
/-- A message that has nothing to do with dispatching leaves the marker alone. -/
theorem LnMsg.dispatchedAfter_of_noDispatch {m : LnMsg} (hm : m.isNoDispatch = true)
    (s s' : LocoNetSlotServer) (dispatched : Option LocoAddr) :
    m.dispatchedAfter s s' dispatched = dispatched := by
  cases m with
  | moveSlots sm =>
      simp only [LnMsg.isNoDispatch, Bool.and_eq_true, Bool.not_eq_true'] at hm
      simp [LnMsg.dispatchedAfter, hm.1, hm.2]
  | _ => rfl

/-! ### One step -/

/-- A change of the directory leaves an engine in its slot, when no move takes it out and
nothing else is written there. -/
theorem DirectoryChange.holdsAddress {msg : Option LnMsg} {d : Directory}
    (h : DirectoryChange s msg d) {k : Fin kNumSlots} {addr : LocoAddr}
    (hk : HoldsAddress s.directory k addr)
    (hmove : ∀ sm, msg = some (.moveSlots sm) → sm.src ≠ sm.dest → sm.src.toNat ≠ k ∧
      (sm.dest.toNat = k → ∃ i : Fin kNumSlots, sm.src.toNat = i ∧
        HoldsAddress s.directory i addr))
    (hwrite : ∀ addr', msg.bind LnMsg.slotWrite = some (k, addr') →
      getNumericAddress addr' = getNumericAddress addr) :
    HoldsAddress d k addr := by
  cases h with
  | unchanged => exact hk
  | written i addr' hw =>
      by_cases hki : k = i
      · subst hki
        rw [HoldsAddress, Function.update_self]
        exact ⟨rfl, hwrite addr' hw⟩
      · rw [HoldsAddress, Function.update_of_ne hki]
        exact hk
  | allocated i addr' _ _ hfree =>
      -- The slot in use is not the free one.
      have hki : k ≠ i := by
        rintro rfl
        have hunused : (s.directory k).1 = false := (firstFree_eq_some.mp hfree).2.1
        rw [hk.1] at hunused
        cases hunused
      rw [HoldsAddress, Function.update_of_ne hki]
      exact hk
  | moved sm i j hmsg hi hj _ hne =>
      have hbytes : sm.src ≠ sm.dest := by
        intro heq
        exact hne (Fin.ext (by rw [← hi, ← hj, heq]))
      obtain ⟨hsrc, hdest⟩ := hmove sm hmsg hbytes
      have hki : k ≠ i := by
        rintro rfl
        exact hsrc hi
      rw [HoldsAddress, Function.update_of_ne hki]
      by_cases hkj : k = j
      · subst hkj
        obtain ⟨i', hi', hholds⟩ := hdest hj
        have hii' : i = i' := Fin.ext (hi.symm.trans hi')
        rw [Function.update_self, hii']
        exact hholds
      · rw [Function.update_of_ne hkj]
        exact hk
  | cleared sm j hmsg hj hsrc =>
      have hbytes : sm.src ≠ sm.dest := by
        intro heq
        have hlt := j.isLt
        rw [heq, hj] at hsrc
        omega
      have hkj : k ≠ j := by
        rintro rfl
        obtain ⟨i, hi, _⟩ := (hmove sm hmsg hbytes).2 hj
        have hlt := i.isLt
        omega
      rw [HoldsAddress, Function.update_of_ne hkj]
      exact hk

/-- A marked address has a slot in use. -/
theorem markAddressForDispatch_holds
    (hnumeric : ∀ addr, getNumericAddress (getNumericAddress addr) = getNumericAddress addr)
    {addr : LocoAddr} (hused : ∀ i, s.slotWithAddress addr = some i → (s.slot i).inUse = true)
    {marked : Bool} (h : (markAddressForDispatch addr).run s = .ok (marked, s')) :
    marked = true ∧ s'.dataModel = s.dataModel ∧
      ∃ i : Fin kNumSlots, s'.slotInDispatch = i ∧ HoldsAddress s'.directory i addr := by
  obtain ⟨hmarked, it, s₁, hfind, _, rfl⟩ := markAddressForDispatch_eq_ok h
  refine ⟨hmarked, ?_⟩
  -- The slot is found or allocated. In a full table the call faults and does not return.
  cases hslot : s.slotWithAddress addr with
  | some i =>
      rw [findOrAllocateSlotForAddress_run_of_found hslot] at hfind
      cases hfind
      exact ⟨rfl, i, rfl, hused i hslot,
        SlotEntry.hasAddress_iff.mp (slotWithAddress_eq_some.mp hslot).2.1⟩
  | none =>
      cases hfree : s.firstFree with
      | none =>
          rw [findOrAllocateSlotForAddress_run_of_full hslot hfree] at hfind
          cases hfind
      | some i =>
          rw [findOrAllocateSlotForAddress_run_of_free hslot hfree] at hfind
          cases hfind
          have hdir : (s.setSlot i (.initialized (getNumericAddress addr))).directory i
              = (true, getNumericAddress addr) := by
            -- The numeric part of the new entry is that of the address, as taking it twice is
            -- taking it once.
            rw [LocoNetSlotServer.directory_setSlot, Function.update_self]
            rfl
          refine ⟨rfl, i, rfl, congrArg Prod.fst hdir, ?_⟩
          exact (congrArg (fun e => getNumericAddress e.2) hdir).trans (hnumeric addr)

/-- The marker agrees with the ghost. -/
structure DispatchInv (audit : DispatchAudit) : Prop where
  active : audit.server.isActive = true
  unmarked : audit.dispatched = none → audit.server.slotInDispatch = kNumSlots
  marked : ∀ addr, audit.dispatched = some addr → ∃ i : Fin kNumSlots,
    audit.server.slotInDispatch = i ∧ HoldsAddress audit.server.directory i addr

/-- Under the invariant a get is answered as it should be, and nothing is dispatched
afterwards. -/
theorem DispatchInv.get {audit : DispatchAudit} (hinv : DispatchInv audit) {get : SlotMoveMsg}
    (hget : isDispatchGet get = true) :
    ∃ s', (process (.moveSlots get)).run audit.server = .ok ((), s') ∧
      s'.dataModel = audit.server.dataModel ∧ s'.slotInDispatch = kNumSlots ∧
      (LnMsg.moveSlots get).dispatchedAfter audit.server s' audit.dispatched = none ∧
      ((audit.dispatched = none ∧
          s'.tx = audit.server.tx.sendAll [lnLongAck opcMoveSlots false]) ∨
        ∃ addr i, audit.dispatched = some addr ∧ HoldsAddress audit.server.directory i addr ∧
          s'.tx = audit.server.tx.sendAll [audit.server.slotData i]) := by
  -- The ghost says what the marker is, and with it which answer comes.
  cases hdispatched : audit.dispatched with
  | none =>
      have hend := hinv.unmarked hdispatched
      refine ⟨_, dispatchGet_run_of_unmarked hget hinv.active hend, rfl, hend, ?_,
        .inl ⟨rfl, rfl⟩⟩
      rw [LnMsg.dispatchedAfter, if_pos hget, ite_self]
  | some addr =>
      obtain ⟨i, hi, hholds⟩ := hinv.marked addr hdispatched
      refine ⟨_, dispatchGet_run_of_marked hget hinv.active hi, rfl, rfl, ?_,
        .inr ⟨addr, i, rfl, hholds, rfl⟩⟩
      have hcalls : (audit.server.tx.newCalls
          (audit.server.tx.sendAll [audit.server.slotData i])).map Prod.fst
          = [audit.server.slotData i] := LocoNetTx.newCalls_sendAll_map_fst _ _
      -- The answer is slot data, so the ghost is cleared.
      have hanswer : ((audit.server.tx.newCalls
          (audit.server.tx.sendAll [audit.server.slotData i])).map Prod.fst).any
            (fun msg => msg.slotData.isSome) = true := by
        rw [hcalls]
        rfl
      rw [List.any_map] at hanswer
      rw [LnMsg.dispatchedAfter, if_pos hget]
      exact if_pos hanswer

/-- An audited message is processed, and the audit follows it. -/
theorem DispatchEvent.exec_process_run {m : LnMsg} {audit audit' : DispatchAudit}
    (h : (DispatchEvent.exec (.process m)).run audit = .ok ((), audit')) :
    ∃ s', (C6021Light.process m).run audit.server = .ok ((), s') ∧
      audit' = { server := s',
                 dispatched := m.dispatchedAfter audit.server s' audit.dispatched } := by
  obtain ⟨t, _, hget, hrest⟩ := run_bind_eq_ok.mp h
  cases hget
  obtain ⟨r, _, hlift, hset⟩ := run_bind_eq_ok.mp hrest
  obtain ⟨hexec, rfl⟩ := run_liftM_eq_ok.mp hlift
  cases hset
  exact ⟨r.2, hexec, rfl⟩

/-- An audited mark is made, and a successful one is the dispatched address. -/
theorem DispatchEvent.exec_mark_run {addr : LocoAddr} {audit audit' : DispatchAudit}
    (h : (DispatchEvent.exec (.markAddressForDispatch addr)).run audit = .ok ((), audit')) :
    ∃ marked, (C6021Light.markAddressForDispatch addr).run audit.server
        = .ok (marked, audit'.server) ∧
      audit'.dispatched = if marked then some addr else audit.dispatched := by
  obtain ⟨t, _, hget, hrest⟩ := run_bind_eq_ok.mp h
  cases hget
  obtain ⟨r, _, hlift, hset⟩ := run_bind_eq_ok.mp hrest
  obtain ⟨hexec, rfl⟩ := run_liftM_eq_ok.mp hlift
  cases hset
  exact ⟨r.1, hexec, rfl⟩

/-- A put keeps the invariant, when it names a slot in use or resets an empty marker. -/
theorem DispatchInv.put {audit : DispatchAudit} (hinv : DispatchInv audit) {put : SlotMoveMsg}
    (hget : isDispatchGet put = false) (hput : isDispatchPut put = true)
    (hkeeps : (∃ i : Fin kNumSlots, put.src.toNat = i ∧ (audit.server.slot i).inUse = true) ∨
      (put.src.toNat = kNumSlots ∧ audit.dispatched = none)) {s' : LocoNetSlotServer}
    (h : (process (.moveSlots put)).run audit.server = .ok ((), s')) :
    DispatchInv { server := s', dispatched :=
      (LnMsg.moveSlots put).dispatchedAfter audit.server s' audit.dispatched } := by
  have hrun := processSlotMove_run_of_put audit.server hget hput
  rw [show (process (.moveSlots put)).run audit.server = _ from hrun] at h
  cases h
  have hafter : (LnMsg.moveSlots put).dispatchedAfter audit.server
        { audit.server with slotInDispatch := put.src.toNat } audit.dispatched
      = if h : put.src.toNat < kNumSlots then
          some (audit.server.slot ⟨put.src.toNat, h⟩).loco.address
        else audit.dispatched := by
    simp only [LnMsg.dispatchedAfter, hget, hput]
    rfl
  rw [hafter]
  rcases hkeeps with ⟨i, hi, hin⟩ | ⟨hend, hnone⟩
  · have hlt : put.src.toNat < kNumSlots := hi ▸ i.isLt
    have hslot : (⟨put.src.toNat, hlt⟩ : Fin kNumSlots) = i := Fin.ext hi
    rw [dif_pos hlt, hslot]
    refine ⟨hinv.active, (fun hno => nomatch hno), fun addr haddr => ⟨i, hi, hin, ?_⟩⟩
    cases haddr
    rfl
  · rw [dif_neg (by omega), hnone]
    exact ⟨hinv.active, fun _ => hend, fun _ haddr => nomatch haddr⟩

/-- Any other message keeps it. -/
theorem DispatchInv.process {audit : DispatchAudit} (hinv : DispatchInv audit) {m : LnMsg}
    (hm : m.isNoDispatch = true) (hkeeps : KeepsDispatch audit (.process m))
    {s' : LocoNetSlotServer} (h : (C6021Light.process m).run audit.server = .ok ((), s')) :
    DispatchInv { server := s', dispatched := audit.dispatched } := by
  have hmarker := process_slotInDispatch hm h
  have hactive : s'.isActive = true := by
    rw [LocoNetSlotServer.isActive, process_dataModel h]
    exact hinv.active
  refine ⟨hactive, fun hnone => hmarker.trans (hinv.unmarked hnone), fun addr hsome => ?_⟩
  obtain ⟨k, hk, hholds⟩ := hinv.marked addr hsome
  have hmarks : audit.Marks k := ⟨by rw [hsome]; exact Option.some_ne_none addr, hk⟩
  refine ⟨k, hmarker.trans hk, (process_directoryChange h).holdsAddress hholds ?_ ?_⟩
  · intro sm hsm hbytes
    cases hsm
    have hmove : sm.isSlotToSlot = true := by
      have hnull : isNullMove sm = false := decide_eq_false hbytes
      rw [LnMsg.isNoDispatch] at hm
      rw [SlotMoveMsg.isSlotToSlot, hm, hnull]
      rfl
    obtain ⟨hsrc, hdest⟩ := hkeeps.move sm k rfl hmove hmarks
    refine ⟨hsrc, fun hd => ?_⟩
    obtain ⟨i, hi, hin, haddr⟩ := hdest hd
    exact ⟨i, hi, hin, haddr.trans hholds.2⟩
  · intro addr' hw
    exact (hkeeps.write m k addr' rfl hw hmarks).trans hholds.2

/-- Every step that leaves the marker right keeps the invariant. -/
theorem DispatchEvent.exec_inv
    (hnumeric : ∀ addr, getNumericAddress (getNumericAddress addr) = getNumericAddress addr)
    {audit audit' : DispatchAudit} {e : DispatchEvent} (hinv : DispatchInv audit)
    (h : (e.exec).run audit = .ok ((), audit')) (hkeeps : KeepsDispatch audit e) :
    DispatchInv audit' := by
  cases e with
  | process m =>
      obtain ⟨s', hrun, rfl⟩ := DispatchEvent.exec_process_run h
      cases hm : m.isNoDispatch with
      | true =>
          rw [LnMsg.dispatchedAfter_of_noDispatch hm]
          exact hinv.process hm hkeeps hrun
      | false =>
          cases m with
          | moveSlots sm =>
              cases hget : isDispatchGet sm with
              -- A get clears the marker and the ghost.
              | true =>
                  obtain ⟨s₁, hrun', hdata, hend, hafter, _⟩ := hinv.get hget
                  rw [hrun] at hrun'
                  cases hrun'
                  have hactive : s'.isActive = true := by
                    rw [LocoNetSlotServer.isActive, hdata]
                    exact hinv.active
                  rw [hafter]
                  exact ⟨hactive, fun _ => hend, fun _ haddr => nomatch haddr⟩
              -- Of the other messages only a put has to do with dispatching.
              | false =>
                  have hput : isDispatchPut sm = true := by
                    simpa [LnMsg.isNoDispatch, hget] using hm
                  exact hinv.put hget hput (hkeeps.put sm rfl hget hput) hrun
          | _ => cases hm
  -- The console marks the slot that holds the address.
  | markAddressForDispatch addr =>
      obtain ⟨marked, hrun, hdispatched⟩ := DispatchEvent.exec_mark_run h
      obtain ⟨rfl, hdata, i, hi, hholds⟩ :=
        markAddressForDispatch_holds hnumeric (fun i => hkeeps.mark addr i rfl) hrun
      have hactive : audit'.server.isActive = true := by
        rw [LocoNetSlotServer.isActive, hdata]
        exact hinv.active
      refine ⟨hactive, fun hnone => ?_, fun addr' hsome => ?_⟩
      · rw [hdispatched] at hnone
        cases hnone
      · rw [hdispatched] at hsome
        cases hsome
        exact ⟨i, hi, hholds⟩

/-! ### Runs -/

/-- In every run of an active server whose steps leave the marker right, every get hands over
the dispatched engine, and is refused when there is none. -/
theorem dispatch_handsOver
    (hnumeric : ∀ addr, getNumericAddress (getNumericAddress addr) = getNumericAddress addr)
    (server : LocoNetSlotServer) (hactive : server.isActive = true)
    (hstart : server.slotInDispatch = kNumSlots) (events : List DispatchEvent)
    (audit : DispatchAudit)
    (hrun : (forM events DispatchEvent.exec).run { server := server } = .ok ((), audit))
    (hkeeps : Along DispatchEvent.exec (fun audit e _ => KeepsDispatch audit e)
      { server := server } events)
    (get : SlotMoveMsg) (hget : isDispatchGet get = true) : AnswersDispatch audit get := by
  have hinit : DispatchInv { server := server } :=
    ⟨hactive, fun _ => hstart, fun _ haddr => nomatch haddr⟩
  -- The invariant is carried along the steps that leave the marker right.
  have hinv : DispatchInv audit := invariant_of_along DispatchEvent.exec
    (fun _ _ _ hinv h hkeeps => DispatchEvent.exec_inv hnumeric hinv h hkeeps)
    events _ _ hinit hkeeps hrun
  obtain ⟨s', hanswer, _, _, _, hsent⟩ := hinv.get hget
  exact ⟨s', hanswer, hsent⟩

omit [AddressScheme] in
/-- The slot data of two slots differ in the slot byte. -/
theorem slotData_injective {i j : Fin kNumSlots} (h : s.slotData i = s.slotData j) : i = j := by
  have hbytes := congrArg (fun m => m.slotData.map (·.slot)) h
  have hindex : findSlotIndex i = findSlotIndex j := Option.some.inj hbytes
  exact Fin.ext (by rw [← findSlotIndex_toNat i, hindex, findSlotIndex_toNat])

/-- A marker on a free slot hands over nothing. -/
theorem not_answersDispatch_of_unused {audit : DispatchAudit}
    (hactive : audit.server.isActive = true) {i : Fin kNumSlots}
    (hi : audit.server.slotInDispatch = i) (hunused : (audit.server.slot i).inUse = false)
    (hdispatched : audit.dispatched ≠ none) {get : SlotMoveMsg}
    (hget : isDispatchGet get = true) : ¬ AnswersDispatch audit get := by
  rintro ⟨s', hrun, ⟨hnone, _⟩ | ⟨addr, j, _, hholds, htx⟩⟩
  · exact hdispatched hnone
  · rw [dispatchGet_run_of_marked hget hactive hi] at hrun
    cases hrun
    -- The one message sent is the slot data of the marked slot.
    have hcalls := LocoNetTx.newCalls_sendAll_map_fst audit.server.tx [audit.server.slotData i]
    have htx : audit.server.tx.sendAll [audit.server.slotData i]
        = audit.server.tx.sendAll [audit.server.slotData j] := htx
    rw [htx, LocoNetTx.newCalls_sendAll_map_fst, List.cons.injEq] at hcalls
    have hin : (audit.server.slot j).inUse = true := hholds.1
    rw [slotData_injective hcalls.1, hunused] at hin
    cases hin

end

/-- Slot data for engine 3 in slot 1, and a put of that slot. -/
def dispatchEngine3 : List DispatchEvent :=
  [.process (.slRdData (lnSlotReadWriteMessage 1 0x33 { address := 3 })),
    .process (.moveSlots { src := 1, dest := 0 })]

/-- The put is followed by a get. -/
theorem dispatch_handsOver_engine3 :
    letI := AddressScheme.upperBits
    let server : LocoNetSlotServer := { dataModel := { lnSlotServerState := .active } }
    ∃ audit, (forM dispatchEngine3 DispatchEvent.exec).run { server := server } = .ok ((), audit) ∧
      audit.dispatched = some 3 ∧ AnswersDispatch audit { src := 0, dest := 0 } := by
  let _ := AddressScheme.upperBits
  intro server
  refine ⟨_, rfl, rfl, dispatch_handsOver upperBits_idempotent server rfl rfl dispatchEngine3 _
    rfl ?_ _ rfl⟩
  intro audit₁ hrun₁
  cases hrun₁
  refine ⟨?_, fun audit₂ hrun₂ => ⟨?_, trivial⟩⟩
  -- Slot data with nothing dispatched.
  · refine ⟨?_, ?_, ?_, ?_⟩
    · intro sm hsm
      cases hsm
    · intro addr i haddr
      cases haddr
    · intro sm k hsm
      cases hsm
    · intro m k addr _ _ hmarks
      exact absurd rfl hmarks.1
  -- The put names a slot in use.
  · refine ⟨?_, ?_, ?_, ?_⟩
    · intro sm hsm _ _
      cases hsm
      exact .inl ⟨1, rfl, by decide⟩
    · intro addr i haddr
      cases haddr
    · intro sm k _ _ hmarks
      exact absurd rfl hmarks.1
    · intro m k addr _ _ hmarks
      exact absurd rfl hmarks.1

/-- A move from slot 1 to slot 2 in between: the marker stays with the cleared slot 1, and the
get is answered with the slot data of a free slot. -/
theorem dispatch_moved_engine :
    letI := AddressScheme.upperBits
    let server : LocoNetSlotServer := { dataModel := { lnSlotServerState := .active } }
    let events := dispatchEngine3 ++ [.process (.moveSlots { src := 1, dest := 2 })]
    (∀ m, DispatchEvent.process m ∈ events → m.SevenBit) ∧
      ∃ audit, (forM events DispatchEvent.exec).run { server := server } = .ok ((), audit) ∧
        audit.dispatched = some 3 ∧ ¬ AnswersDispatch audit { src := 0, dest := 0 } := by
  let _ := AddressScheme.upperBits
  intro server events
  refine ⟨?_, _, rfl, rfl, ?_⟩
  · intro m hm
    simp only [events, dispatchEngine3, List.cons_append, List.nil_append, List.mem_cons,
      DispatchEvent.process.injEq, List.not_mem_nil, or_false] at hm
    rcases hm with rfl | rfl | rfl <;> decide
  · have hmarker : ((1 : Fin kNumSlots) : Nat) = 1 := rfl
    have hdispatched : some (3 : LocoAddr) ≠ none := Option.some_ne_none 3
    exact not_answersDispatch_of_unused rfl hmarker.symm (by decide) hdispatched rfl

end C6021Light
