import C6021Light.Proofs.SlotLookup
import C6021Light.Proofs.UpdateQueue
import C6021Light.Proofs.EngineFrames
import C6021Light.RoutingTask.FullTask
import Mathlib.Data.Fintype.Card

/-!
# `C6021Light.Proofs.NoFeedback`: no echo between the buses

Forwarding an engine change to LocoNet writes to the slot of the engine, and forwarding a
slot change to CAN reads the slot. Neither raises a flag in the other database, so nothing
comes back (`noFeedback`).

An update that cannot be delivered stays flagged: a passive server waits for a slot of the
engine. `FullTask.Settled` says that such updates are the only ones left. One idle loop
settles the task, and an idle loop of a settled task sends nothing. In active mode each
update takes at most one free slot, and the table must not run full on the way
(`freeSlots`).
-/

set_option autoImplicit false

namespace C6021Light

open FaultRun AddressScheme

/-! ### The state machines in an idle loop -/

/-- `loop` clears the latched expiry. -/
theorem StopGoStateMachine.timerExpired_loop (machine : StopGoStateMachine) :
    machine.loop.timerExpired = false := by
  rw [loop]
  split
  · rfl
  · rename_i hexpired
    exact eq_false_of_ne_true hexpired

namespace CanEngineDBStateMachine

variable {machine : CanEngineDBStateMachine}

/-- `loop` clears the latched expiry. -/
theorem timerExpired_loop (machine : CanEngineDBStateMachine) :
    machine.loop.timerExpired = false := by
  rw [loop]
  split
  · rfl
  · rename_i hexpired
    exact eq_false_of_ne_true hexpired

/-- Without an expiry `loop` does nothing. -/
theorem loop_of_notExpired (h : machine.timerExpired = false) : machine.loop = machine := by
  rw [loop, if_neg (ne_true_of_eq_false h)]

/-- What the machine does to the entries: a new download clears them. -/
theorem entries_handleTimer (machine : CanEngineDBStateMachine) :
    machine.handleTimer.engineDb.toCanEngineDB = machine.engineDb.toCanEngineDB ∨
      machine.handleTimer.engineDb.toCanEngineDB = {} := by
  rw [handleTimer]
  split
  · split
    · refine .inl ?_
      rw [startRequesting]
      split <;> rfl
    · split <;> exact .inl rfl
  · split
    · refine .inr ?_
      show machine.engineDb.endRequest.fetchEngineDB.toCanEngineDB = {}
      rw [EngineDownload.fetchEngineDB]
      split <;> rfl
    · exact .inl rfl
  · exact .inl rfl
  · exact .inl rfl

/-- A notification reaches the timer and the indicator only. -/
theorem notifyEngineDBComplete_keeps (machine : CanEngineDBStateMachine) :
    machine.notifyEngineDBComplete.timerExpired = machine.timerExpired ∧
      machine.notifyEngineDBComplete.engineDb.toCanEngineDB = machine.engineDb.toCanEngineDB := by
  rw [notifyEngineDBComplete]
  split <;> exact ⟨rfl, rfl⟩

end CanEngineDBStateMachine

namespace StateMachines

/-- No expiry is latched. -/
def Quiet (machines : StateMachines) : Prop :=
  machines.stopGoStateM.timerExpired = false ∧ machines.canEngineDBStateM.timerExpired = false

/-- After the machines no expiry is latched. -/
theorem quiet_processStateMachines (machines : StateMachines) :
    machines.processStateMachines.Quiet := by
  rw [processStateMachines]
  split
  · exact ⟨StopGoStateMachine.timerExpired_loop _, CanEngineDBStateMachine.timerExpired_loop _⟩
  · exact ⟨StopGoStateMachine.timerExpired_loop _, CanEngineDBStateMachine.timerExpired_loop _⟩

/-- Without an expiry the entries of the database are left alone. -/
theorem entries_processStateMachines {machines : StateMachines} (h : machines.Quiet) :
    machines.processStateMachines.entries = machines.entries := by
  obtain ⟨hexpired, hentries⟩ := machines.canEngineDBStateM.notifyEngineDBComplete_keeps
  rw [processStateMachines]
  split
  · have hquiet := CanEngineDBStateMachine.loop_of_notExpired (hexpired.trans h.2)
    show machines.canEngineDBStateM.notifyEngineDBComplete.loop.engineDb.toCanEngineDB = _
    rw [hquiet]
    exact hentries
  · show machines.canEngineDBStateM.loop.engineDb.toCanEngineDB = _
    rw [CanEngineDBStateMachine.loop_of_notExpired h.2]
    rfl

/-- The machines leave the entries alone, or clear them for a new download. -/
theorem entries_processStateMachines_cases (machines : StateMachines) :
    machines.processStateMachines.entries = machines.entries ∨
      machines.processStateMachines.entries = {} := by
  have hloop : ∀ machine : CanEngineDBStateMachine,
      machine.loop.engineDb.toCanEngineDB = machine.engineDb.toCanEngineDB ∨
        machine.loop.engineDb.toCanEngineDB = {} := by
    intro machine
    rw [CanEngineDBStateMachine.loop]
    split
    · exact machine.entries_handleTimer
    · exact .inl rfl
  obtain ⟨_, hentries⟩ := machines.canEngineDBStateM.notifyEngineDBComplete_keeps
  rw [processStateMachines]
  split
  · exact (hloop machines.canEngineDBStateM.notifyEngineDBComplete).imp_left
      fun h => h.trans hentries
  · exact hloop machines.canEngineDBStateM

end StateMachines

/-! ### Slot flags -/

section

variable [AddressScheme] {s s' : LocoNetSlotServer}

/-- Looking for the slot of an engine raises no flag. -/
theorem diff_findSlot {addr : LocoAddr} {slotIt : SlotIt}
    (h : (LocoNetForwarder.findSlot addr).run s = .ok (slotIt, s')) (j : Fin kNumSlots) :
    (s'.slot j).diff = (s.slot j).diff ∨ (s'.slot j).diff = {} := by
  have heffect := findSlot_effect s addr
  rw [h] at heffect
  cases heffect with
  | allocated i =>
      -- A slot that is taken into use is cleared.
      rw [LocoNetSlotServer.slot_setSlot]
      split
      · exact .inr rfl
      · exact .inl rfl
  | _ => exact .inl rfl

/-- Forwarding an engine change raises no flag of any slot. -/
theorem diff_forwardLocoChange {loco : LocomotiveData} {diff diff' : LocoDiff}
    (h : (LocoNetForwarder.forwardLocoChange loco diff).run s = .ok (diff', s'))
    (j : Fin kNumSlots) : (s'.slot j).diff = (s.slot j).diff ∨ (s'.slot j).diff = {} := by
  have heffect := forwardLocoChange_effect s loco diff
  rw [h] at heffect
  cases heffect with
  | found _ i s₁ hfind =>
      have hcache : (((s₁.setSlot i ((s₁.slot i).cacheChange loco diff)).send
          (announcements (findSlotIndex i) loco diff)).slot j).diff = (s₁.slot j).diff := by
        rw [LocoNetSlotServer.slot_send, LocoNetSlotServer.slot_setSlot]
        split
        · rename_i hij
          subst hij
          rfl
        · rfl
      rw [hcache]
      exact diff_findSlot hfind j
  | _ => exact .inl rfl

/-! ### Free slots -/

omit [AddressScheme] in
/-- The slots of 1 to 126 that are not in use. -/
def LocoNetSlotServer.freeSlots (s : LocoNetSlotServer) : Finset (Fin kNumSlots) :=
  Finset.univ.filter fun i => i.val ≠ 0 ∧ (s.slot i).inUse = false

omit [AddressScheme] in
/-- A free slot is one of 1 to 126 that is not in use. -/
theorem mem_freeSlots {i : Fin kNumSlots} :
    i ∈ s.freeSlots ↔ i ≠ 0 ∧ (s.slot i).inUse = false := by
  rw [LocoNetSlotServer.freeSlots, Finset.mem_filter, and_iff_right (Finset.mem_univ i)]
  exact and_congr_left' (not_congr Fin.val_eq_zero_iff)

omit [AddressScheme] in
/-- With a free slot the search finds one. -/
theorem firstFree_ne_none (h : 0 < s.freeSlots.card) : s.firstFree ≠ none := by
  obtain ⟨i, hi⟩ := Finset.card_pos.mp h
  obtain ⟨hi0, hfree⟩ := mem_freeSlots.mp hi
  intro hnone
  have hin := List.find?_eq_none.mp hnone i (mem_searchRange.mpr hi0)
  rw [hfree] at hin
  exact hin rfl

omit [AddressScheme] in
/-- A slot that is taken costs one free slot at most. -/
theorem card_freeSlots_setSlot (i : Fin kNumSlots) (entry : SlotEntry) :
    s.freeSlots.card ≤ (s.setSlot i entry).freeSlots.card + 1 := by
  have hsub : s.freeSlots.erase i ⊆ (s.setSlot i entry).freeSlots := by
    intro j hj
    obtain ⟨hji, hj⟩ := Finset.mem_erase.mp hj
    obtain ⟨hj0, hfree⟩ := mem_freeSlots.mp hj
    refine mem_freeSlots.mpr ⟨hj0, ?_⟩
    rw [LocoNetSlotServer.slot_setSlot_ne s i j entry hji]
    exact hfree
  have hcard := Finset.card_le_card hsub
  have herase := Finset.pred_card_le_card_erase (s := s.freeSlots) (a := i)
  omega

/-- With a free slot the lookup of an active server completes, and takes one at most. -/
theorem exists_findSlot_of_free (hactive : s.isActive = true) (hfree : 0 < s.freeSlots.card)
    (addr : LocoAddr) : ∃ slotIt s', (LocoNetForwarder.findSlot addr).run s = .ok (slotIt, s') ∧
      s'.isActive = true ∧ s.freeSlots.card ≤ s'.freeSlots.card + 1 := by
  rw [findSlot_run_of_active hactive]
  cases haddr : s.slotWithAddress addr with
  | some i =>
      exact ⟨i, s, findOrAllocateSlotForAddress_run_of_found haddr, hactive, Nat.le_succ _⟩
  | none =>
      obtain ⟨i, hi⟩ := Option.ne_none_iff_exists'.mp (firstFree_ne_none hfree)
      exact ⟨i, _, findOrAllocateSlotForAddress_run_of_free haddr hi, hactive,
        card_freeSlots_setSlot i _⟩

/-- An active server with enough free slots completes the lookups of all pending updates. -/
theorem exists_forM_lookupSlot (engineDb : CanEngineDB) (ks : List (Fin kMaxNumDbEntries)) :
    ∀ s : LocoNetSlotServer, s.isActive = true →
      ks.countP (fun k => (engineDb.entry k).hasUpdate) ≤ s.freeSlots.card →
        ∃ s', (forM ks (lookupSlot engineDb)).run s = .ok ((), s') := by
  induction ks with
  | nil => intro s _ _; exact ⟨s, rfl⟩
  | cons k ks ih =>
      intro s hactive hcount
      rw [List.countP_cons] at hcount
      cases hupdate : (engineDb.entry k).hasUpdate with
      | false =>
          rw [hupdate] at hcount
          have hlookup : (lookupSlot engineDb k).run s = .ok ((), s) := by
            rw [lookupSlot, hupdate]
            rfl
          obtain ⟨s', hrun⟩ := ih s hactive hcount
          exact ⟨s', (run_forM_cons _).mpr ⟨s, hlookup, hrun⟩⟩
      | true =>
          rw [hupdate, if_pos rfl] at hcount
          obtain ⟨slotIt, s₁, hfind, hactive₁, hcard⟩ :=
            exists_findSlot_of_free hactive (by omega) (engineDb.entry k).loco.address
          have hlookup : (lookupSlot engineDb k).run s = .ok ((), s₁) := by
            rw [lookupSlot, hupdate]
            exact run_bind_of_ok hfind
          obtain ⟨s', hrun⟩ := ih s₁ hactive₁ (by omega)
          exact ⟨s', (run_forM_cons _).mpr ⟨s₁, hlookup, hrun⟩⟩

/-- The engines with an update that is not forwarded yet. -/
def RoutingTask.pendingEngines (task : RoutingTask) : Nat :=
  (List.finRange kMaxNumDbEntries).countP fun k => (task.engineDb.entry k).hasUpdate

/-- Enough free slots are enough for the loop over the engines. -/
theorem slotsSuffice_of_freeSlots {task : RoutingTask}
    (h : task.pendingEngines ≤ task.slotServer.freeSlots.card) : task.SlotsSuffice := by
  cases hactive : task.slotServer.isActive with
  | false => exact slotsSuffice_of_passive hactive
  | true => exact exists_forM_lookupSlot task.engineDb _ task.slotServer hactive h

/-! ### The engine updates -/

variable {task task' : RoutingTask}

/-- The update is waiting for a slot. -/
def RoutingTask.Waits (k : Fin kMaxNumDbEntries) (task : RoutingTask) : Prop :=
  (task.engineDb.entry k).hasUpdate = true →
    task.slotServer.finds (task.engineDb.entry k).loco.address = false

/-- After its iteration an update is delivered or waits. -/
theorem waits_forwardEngineUpdate {k : Fin kMaxNumDbEntries}
    (henabled : task.slotServer.isDisabled = false)
    (h : (forwardEngineUpdate k).run task = .ok ((), task')) : task'.Waits k := by
  rcases forwardEngineUpdate_run h with ⟨hclean, rfl⟩ | ⟨_, diff, hserver, heq⟩
  · intro hupdate
    rw [hclean] at hupdate
    cases hupdate
  · have hentry : task'.engineDb.entry k = { task.engineDb.entry k with diff := diff } := by
      rw [heq, CanEngineDB.entry_setEntry_self]
    rw [RoutingTask.Waits, hentry]
    have heffect := forwardLocoChange_effect task.slotServer
      (task.engineDb.entry k).loco.toLocomotiveData (task.engineDb.entry k).diff
    rw [hserver] at heffect
    generalize task'.slotServer = s' at heffect
    cases heffect with
    | disabled hdisabled =>
        rw [henabled] at hdisabled
        cases hdisabled
    | notFound _ hfind => exact fun _ => finds_of_findSlot hfind
    -- No flag is left.
    | found => exact fun hupdate => absurd hupdate Bool.false_ne_true

/-- An iteration for another engine leaves the update waiting. -/
theorem waits_forwardEngineUpdate_other {j k : Fin kMaxNumDbEntries} (hjk : j ≠ k)
    (h : (forwardEngineUpdate j).run task = .ok ((), task')) (hwaits : task.Waits k) :
    task'.Waits k := by
  rw [RoutingTask.Waits, forwardEngineUpdate_other hjk h, (forwardEngineUpdate_server h).2]
  exact hwaits

/-- The loop over the engines leaves only updates that wait. -/
theorem waits_forwardEngineUpdates (henabled : task.slotServer.isDisabled = false)
    (h : (forM (List.finRange kMaxNumDbEntries) forwardEngineUpdate).run task
      = .ok ((), task')) (k : Fin kMaxNumDbEntries) : task'.Waits k :=
  forM_establishes forwardEngineUpdate (I := fun task => task.slotServer.isDisabled = false)
    (Q := RoutingTask.Waits)
    (fun _ _ _ henabled h => (forwardEngineUpdate_server h).1.trans henabled)
    (fun _ _ _ henabled h => waits_forwardEngineUpdate henabled h)
    (fun _ _ _ _ hne h hwaits => waits_forwardEngineUpdate_other hne h hwaits)
    _ task task' henabled h k (List.mem_finRange k)

/-- A change that waits for a slot is not forwarded. -/
theorem forwardLocoChange_run_of_noSlot {loco : LocomotiveData}
    (h : s.finds loco.address = false) (diff : LocoDiff) :
    (LocoNetForwarder.forwardLocoChange loco diff).run s = .ok (diff, s) := by
  have heffect := forwardLocoChange_effect s loco diff
  generalize (LocoNetForwarder.forwardLocoChange loco diff).run s = r at heffect ⊢
  cases heffect with
  | disabled => rfl
  | notFound => rfl
  | found _ i s₁ hfind =>
      rw [finds_of_findSlot hfind, isSlotInBounds_fin] at h
      cases h
  | full _ hfind =>
      have hlookup := findSlot_effect s loco.address
      rw [hfind] at hlookup
      cases hlookup with
      | full hactive =>
          rw [LocoNetSlotServer.finds, hactive] at h
          cases h

omit [AddressScheme] in
/-- Writing an entry back changes nothing. -/
theorem setEntry_entry (engineDb : CanEngineDB) (k : Fin kMaxNumDbEntries) :
    engineDb.setEntry k (engineDb.entry k) = engineDb := by
  simp [CanEngineDB.setEntry, CanEngineDB.entry]

/-- An iteration for an update that waits does nothing. -/
theorem forwardEngineUpdate_run_of_waits {k : Fin kMaxNumDbEntries} (h : task.Waits k) :
    (forwardEngineUpdate k).run task = .ok ((), task) := by
  cases hupdate : (task.engineDb.entry k).hasUpdate with
  | false => exact forwardEngineUpdate_run_of_clean hupdate
  | true =>
      have hforward := forwardLocoChange_run_of_noSlot (h hupdate) (task.engineDb.entry k).diff
      rw [forwardEngineUpdate_run_of_update hupdate,
        run_bind_of_ok (onSlotServer_run_of_ok hforward)]
      show Except.ok ((), { task with
        engineDb := task.engineDb.setEntry k (task.engineDb.entry k) }) = _
      rw [setEntry_entry]

/-- When every update waits, the loop over the engines does nothing. -/
theorem forwardEngineUpdates_run_of_waits (h : ∀ k, task.Waits k) :
    forwardEngineUpdates.run task = .ok ((), task) := by
  cases hdis : task.slotServer.isDisabled with
  | true => exact forwardEngineUpdates_run_of_disabled hdis
  | false =>
      obtain ⟨task', hrun, rfl⟩ := exists_run_forM forwardEngineUpdate (I := fun t => t = task)
        (fun k t ht => ⟨t, forwardEngineUpdate_run_of_waits (ht ▸ h k), ht⟩)
        (List.finRange kMaxNumDbEntries) task rfl
      rw [forwardEngineUpdates_run_of_enabled hdis]
      exact hrun

end

/-! ### The slot updates -/

section

variable {task task' : RoutingTask}

/-- What matching the slots leaves alone. -/
structure MatchFrame (task task' : RoutingTask) : Prop where
  engineDb : task'.engineDb = task.engineDb
  tx : task'.slotServer.tx = task.slotServer.tx
  directory : SameDirectory task'.slotServer task.slotServer
  canTx : (∀ i, (task.slotServer.slot i).hasUpdate = false) → task'.canTx = task.canTx ∧
    ∀ i, (task'.slotServer.slot i).hasUpdate = false

/-- Matching nothing leaves everything alone. -/
theorem MatchFrame.refl (task : RoutingTask) : MatchFrame task task :=
  ⟨rfl, rfl, .refl _, fun h => ⟨rfl, h⟩⟩

/-- One slot: its flags go down, and the rest is as before. -/
theorem MatchFrame.step {start : RoutingTask} (i : Fin kNumSlots) (h : MatchFrame start task) :
    ∃ task', (matchEngineOfSlot i).run task = .ok ((), task') ∧ MatchFrame start task' := by
  refine ⟨_, rfl, h.engineDb, h.tx, ?_, fun hclean => ?_⟩
  · obtain ⟨uid, diff, heq⟩ := (task.slotServer.slot i).forwardToCAN_eq task.engineDb
    have hset : SameDirectory
        (task.slotServer.setSlot i ((task.slotServer.slot i).forwardToCAN task.engineDb).2)
        (task.slotServer.setSlot i (task.slotServer.slot i)) :=
      (SameDirectory.refl task.slotServer).setSlot i (by rw [heq]) (by rw [heq]; rfl)
    rw [LocoNetSlotServer.setSlot_slot] at hset
    exact hset.trans h.directory
  · obtain ⟨hcanTx, hslots⟩ := h.canTx hclean
    obtain ⟨hdown, hnone⟩ := SlotEntry.forwardToCAN_hasUpdate task.engineDb (task.slotServer.slot i)
    refine ⟨?_, fun j => ?_⟩
    · show task.canTx ++ List.map _ ((task.slotServer.slot i).forwardToCAN task.engineDb).1 = _
      rw [hnone (hslots i), List.map_nil, List.append_nil, hcanTx]
    · show ((task.slotServer.setSlot i _).slot j).hasUpdate = false
      rw [LocoNetSlotServer.slot_setSlot]
      split
      · exact hdown
      · exact hslots j

/-- Matching another slot raises no flag of this one. -/
theorem hasUpdate_matchEngineOfSlot_other {i j : Fin kNumSlots} (hij : i ≠ j)
    (h : (matchEngineOfSlot i).run task = .ok ((), task'))
    (hclean : (task.slotServer.slot j).hasUpdate = false) :
    (task'.slotServer.slot j).hasUpdate = false := by
  cases h
  show ((task.slotServer.setSlot i _).slot j).hasUpdate = false
  rw [LocoNetSlotServer.slot_setSlot_ne _ i j _ (Ne.symm hij)]
  exact hclean

/-- Matching completes, and leaves no slot with a flag. -/
theorem exists_matchEngines (task : RoutingTask) :
    ∃ task', matchEnginesFromLocoNetAndCan.run task = .ok ((), task') ∧ MatchFrame task task' ∧
      (task.slotServer.isDisabled = true → task' = task) ∧
      (task.slotServer.isDisabled = false →
        ∀ i, (task'.slotServer.slot i).hasUpdate = false) := by
  cases hdis : task.slotServer.isDisabled with
  | true =>
      refine ⟨task, ?_, .refl task, fun _ => rfl, fun h => absurd h.symm Bool.false_ne_true⟩
      rw [matchEnginesFromLocoNetAndCan, run_get_bind, hdis]
      rfl
  | false =>
      obtain ⟨task', hrun, hframe⟩ := exists_run_forM matchEngineOfSlot (I := MatchFrame task)
        (fun i _ h => h.step i) (List.finRange kNumSlots) task (.refl task)
      refine ⟨task', ?_, hframe, fun h => absurd h Bool.false_ne_true, fun _ i => ?_⟩
      · rw [matchEnginesFromLocoNetAndCan, run_get_bind, hdis]
        exact hrun
      · exact forM_establishes matchEngineOfSlot (I := fun _ => True)
          (Q := fun i task => (task.slotServer.slot i).hasUpdate = false)
          (fun _ _ _ _ _ => trivial)
          (fun i t _ _ h => by
            cases h
            show ((t.slotServer.setSlot i _).slot i).hasUpdate = false
            rw [LocoNetSlotServer.slot_setSlot_self]
            exact (SlotEntry.forwardToCAN_hasUpdate _ _).1)
          (fun _ _ _ _ hne h hclean => hasUpdate_matchEngineOfSlot_other hne h hclean)
          _ task task' trivial hrun i (List.mem_finRange i)

end

/-! ### Idle loops -/

namespace FullTask

variable [AddressScheme] {full full' : FullTask}

/-- The updates that are left wait for a slot, and the timers have nothing latched. -/
structure Settled (full : FullTask) : Prop where
  quiet : full.machines.Quiet
  updates : full.slotServer.isDisabled = true ∨
    (∀ i, (full.slotServer.slot i).hasUpdate = false) ∧ ∀ k, full.task.Waits k

omit [AddressScheme] in
/-- Whether an update waits depends on the database and on the directory of the slots. -/
theorem waits_congr {task task' : RoutingTask} {k : Fin kMaxNumDbEntries}
    (hdb : task'.engineDb = task.engineDb)
    (hdirectory : SameDirectory task'.slotServer task.slotServer) (h : task.Waits k) :
    task'.Waits k := by
  rw [RoutingTask.Waits, hdb, finds_congr hdirectory]
  exact h

/-- The second half of an idle loop settles the task. -/
theorem exists_idleLoop {task : RoutingTask}
    (hforward : forwardEngineUpdates.run full.task = .ok ((), task))
    (hwaits : task.slotServer.isDisabled = true ∨ ∀ k, (afterMachines full.machines task).Waits k) :
    ∃ task', idleLoop.run full = .ok ((), { full.withTask task with
        machines := (full.machines.withEntries task.engineDb).processStateMachines }.withTask
          task') ∧
      MatchFrame (afterMachines full.machines task) task' ∧
      (task.slotServer.isDisabled = true → task' = afterMachines full.machines task) ∧
      Settled ({ full.withTask task with
        machines := (full.machines.withEntries task.engineDb).processStateMachines }.withTask
          task') := by
  obtain ⟨task', hmatch, hframe, hsame, hslots⟩ :=
    exists_matchEngines (afterMachines full.machines task)
  refine ⟨task', idleLoop_run hforward hmatch, hframe, hsame, ?_, ?_⟩
  · exact StateMachines.quiet_processStateMachines (full.machines.withEntries task.engineDb)
  · cases hdis : task.slotServer.isDisabled with
    | true => exact .inl (hframe.directory.isDisabled.trans hdis)
    | false =>
        refine .inr ⟨hslots hdis, fun k => ?_⟩
        exact waits_congr hframe.engineDb hframe.directory
          (hwaits.resolve_left (fun h => absurd (hdis.symm.trans h) Bool.false_ne_true) k)

/-- One idle loop settles the task, when there are slots for the updates. -/
theorem exists_idleLoop_of_freeSlots
    (h : full.task.pendingEngines ≤ full.slotServer.freeSlots.card) :
    ∃ full', idleLoop.run full = .ok ((), full') ∧ Settled full' := by
  obtain ⟨task, hforward, hwaits⟩ : ∃ task, forwardEngineUpdates.run full.task = .ok ((), task) ∧
      (task.slotServer.isDisabled = true ∨
        ∀ k, (afterMachines full.machines task).Waits k) := by
    cases hdis : full.task.slotServer.isDisabled with
    | true => exact ⟨_, forwardEngineUpdates_run_of_disabled hdis, .inl hdis⟩
    | false =>
        obtain ⟨task, hrun⟩ := (forM_forwardEngineUpdate_completes_iff full.task hdis).mpr
          (slotsSuffice_of_freeSlots h)
        refine ⟨task, (forwardEngineUpdates_run_of_enabled hdis).trans hrun, .inr fun k => ?_⟩
        have hwaits : task.Waits k := waits_forwardEngineUpdates hdis hrun k
        rcases (full.machines.withEntries task.engineDb).entries_processStateMachines_cases with
          hsame | hclear
        · exact waits_congr hsame (.refl _) hwaits
        · intro hupdate
          have hentry : (afterMachines full.machines task).engineDb.entry k
              = ({} : CanEngineDB).entry k := congrArg (fun engineDb => engineDb.entry k) hclear
          have hclean : (({} : CanEngineDB).entry k).hasUpdate = false := by
            simp [CanEngineDB.entry, DbEntry.hasUpdate, LocoDiff.hasDiff]
          rw [hentry, hclean] at hupdate
          cases hupdate
  obtain ⟨task', hrun, _, _, hsettled⟩ := exists_idleLoop hforward hwaits
  exact ⟨_, hrun, hsettled⟩

/-- An idle loop of a settled task sends nothing. -/
theorem Settled.exists_idleLoop (h : Settled full) :
    ∃ full', idleLoop.run full = .ok ((), full') ∧ Settled full' ∧
      full'.slotServer.tx = full.slotServer.tx ∧ full'.canTx = full.canTx := by
  have hmachines : afterMachines full.machines full.task = full.task := by
    have hentries := StateMachines.entries_processStateMachines h.quiet
    show { full.task with engineDb := full.machines.processStateMachines.entries } = full.task
    rw [hentries]
    rfl
  have hforward : forwardEngineUpdates.run full.task = .ok ((), full.task) := by
    rcases h.updates with hdis | ⟨_, hwaits⟩
    · exact forwardEngineUpdates_run_of_disabled hdis
    · exact forwardEngineUpdates_run_of_waits hwaits
  obtain ⟨task', hrun, hframe, hsame, hsettled⟩ := FullTask.exists_idleLoop hforward
    (h.updates.imp_right fun hslots => hmachines.symm ▸ hslots.2)
  rw [hmachines] at hframe hsame
  refine ⟨_, hrun, hsettled, hframe.tx, ?_⟩
  show task'.canTx = full.canTx
  rcases h.updates with hdis | ⟨hslots, _⟩
  · rw [hsame hdis]
    rfl
  · exact (hframe.canTx hslots).1

/-- A number of idle loops after each other. -/
def idleLoops (n : Nat) : FullTaskRun Unit := forM (List.replicate n ()) fun _ => idleLoop

/-- A settled task sends nothing in any number of idle loops. -/
theorem Settled.exists_idleLoops (h : Settled full) (n : Nat) :
    ∃ full', (idleLoops n).run full = .ok ((), full') ∧
      full'.slotServer.tx = full.slotServer.tx ∧ full'.canTx = full.canTx := by
  obtain ⟨full', hrun, _, hsent⟩ := exists_run_forM (fun _ : Unit => idleLoop)
    (I := fun t => Settled t ∧ t.slotServer.tx = full.slotServer.tx ∧ t.canTx = full.canTx)
    (fun _ t ht => by
      obtain ⟨t', hrun, hsettled, htx, hcanTx⟩ := ht.1.exists_idleLoop
      exact ⟨t', hrun, hsettled, htx.trans ht.2.1, hcanTx.trans ht.2.2⟩)
    (List.replicate n ()) full ⟨h, rfl, rfl⟩
  exact ⟨full', hrun, hsent⟩

end FullTask

/-- Forwarding raises no flag on the way back: a change forwarded to LocoNet leaves the flags
of every slot alone or clears them, and matching a slot to CAN leaves the engine database
alone. After one loop without anything to receive, no further such loop sends an engine
message on either bus. -/
theorem noFeedback [AddressScheme] {full : FullTask}
    (hfree : full.task.pendingEngines ≤ full.slotServer.freeSlots.card) :
    (∀ loco diff diff' server,
      (LocoNetForwarder.forwardLocoChange loco diff).run full.slotServer = .ok (diff', server) →
        ∀ i, (server.slot i).diff = (full.slotServer.slot i).diff ∨ (server.slot i).diff = {}) ∧
    (∀ i task', (matchEngineOfSlot i).run full.task = .ok ((), task') →
      task'.engineDb = full.task.engineDb) ∧
    ∃ full₁, FullTask.idleLoop.run full = .ok ((), full₁) ∧
      ∀ n, ∃ full', (FullTask.idleLoops n).run full₁ = .ok ((), full') ∧
        full'.slotServer.tx.calls = full₁.slotServer.tx.calls ∧ full'.canTx = full₁.canTx := by
  -- The slot is looked up and written, but no flag is raised. The match does not touch the
  -- database.
  refine ⟨fun loco diff diff' server h => diff_forwardLocoChange h, fun i task' h => ?_, ?_⟩
  · cases h
    rfl
  -- After one idle loop what is left waits for a slot, so the later ones send nothing.
  · obtain ⟨full₁, hrun, hsettled⟩ := FullTask.exists_idleLoop_of_freeSlots hfree
    refine ⟨full₁, hrun, fun n => ?_⟩
    obtain ⟨full', hloops, htx, hcanTx⟩ := hsettled.exists_idleLoops n
    exact ⟨full', hloops, congrArg LocoNetTx.calls htx, hcanTx⟩

/-- An active server, an empty table, and one engine with a new velocity. -/
theorem noFeedback_velocity :
    letI := AddressScheme.upperBits
    let entries : CanEngineDB := ({} : CanEngineDB).setEntry 0
      { loco := { uid := 3, address := 3, velocity := 500, availability := .fullDetails }
        diff := { velocity := true } }
    let full : FullTask :=
      { slotServer := { dataModel := { lnSlotServerState := .active } }
        machines := (StateMachines.start 0).withEntries entries }
    ∃ full₁, FullTask.idleLoop.run full = .ok ((), full₁) ∧
      ∀ n, ∃ full', (FullTask.idleLoops n).run full₁ = .ok ((), full') ∧
        full'.slotServer.tx.calls = full₁.slotServer.tx.calls ∧ full'.canTx = full₁.canTx := by
  let _ := AddressScheme.upperBits
  intro entries full
  have hfree : full.task.pendingEngines ≤ full.slotServer.freeSlots.card := by
    set_option maxRecDepth 8000 in
    decide
  exact (noFeedback hfree).2.2

end C6021Light
