import C6021Light.Proofs.LocoNetReplication
import C6021Light.Proofs.ServerCalls
import C6021Light.Proofs.SlotDirectory
import Mathlib.Algebra.GroupWithZero.Nat

/-!
# `C6021Light.Proofs.UpdateQueue`: engine updates and the transmit queue

`forwardEngineUpdates` forwards up to 40 engines in one loop, with up to seven messages each,
into a queue of eight. The console task drains the queue later, so within the loop nothing
leaves it. `AsyncSend` reports whether a message was accepted, but the forwarder drops the
report and clears all flags of an engine whose slot it found.

`UpdatesKept` is what the loop should do: a cleared flag stands for an accepted message, and a
rejected message leaves its flags up. The loop does that exactly when everything fits
(`updatesKept_iff`). The number of messages is known before the loop (`messagesNeeded`): the
flags give the messages of each engine, and which engines have a slot does not depend on what
is sent.
-/

set_option autoImplicit false

namespace C6021Light

open FaultRun

/-! ### How much is sent -/

/-- The number of messages that announce a diff. -/
def LocoDiff.messageCount (diff : LocoDiff) : Nat :=
  (if diff.velocity then 1 else 0)
    + (FunctionGroup.all.filter (FunctionGroup.announcedBy diff)).length

/-- There are as many announcements as the flags call for. -/
theorem length_announcements (slotIdx : Byte) (loco : LocomotiveData) (diff : LocoDiff) :
    (announcements slotIdx loco diff).length = diff.messageCount := by
  rw [announcements, List.length_append, List.length_map, LocoDiff.messageCount]
  cases diff.velocity <;> rfl

/-- The number of messages for one entry of the database. -/
def DbEntry.messagesNeeded (s : LocoNetSlotServer) (entry : DbEntry) : Nat :=
  if entry.hasUpdate && s.finds entry.loco.address then entry.diff.messageCount else 0

/-- The number of messages for all entries. -/
def RoutingTask.messagesNeeded (task : RoutingTask) : Nat :=
  ((List.finRange kMaxNumDbEntries).map fun k =>
    (task.engineDb.entry k).messagesNeeded task.slotServer).sum

section

variable [AddressScheme]

/-- The slot lookup of one iteration, without the rest. -/
def lookupSlot (engineDb : CanEngineDB) (k : Fin kMaxNumDbEntries) : SlotServerRun Unit :=
  if (engineDb.entry k).hasUpdate then do
    let _ ← LocoNetForwarder.findSlot (engineDb.entry k).loco.address
  else pure ()

/-- The slots of the updated engines can be looked up one after the other. An active server
makes a slot for each new address, so the table may run full on the way. -/
def RoutingTask.SlotsSuffice (task : RoutingTask) : Prop :=
  ∃ s, (forM (List.finRange kMaxNumDbEntries) (lookupSlot task.engineDb)).run task.slotServer
    = .ok ((), s)

/-! ### What should be kept -/

/-- The message gives slot `i` the engine's value of an attribute, whatever the slot holds. -/
def Carries (i : Fin kNumSlots) (engine : EngineState) (a : EngineAttribute) (m : LnMsg) : Prop :=
  m.ControlsSlot i ∧ ∀ entry : SlotEntry, AgreesOnLocoNet a engine (entry.control m).loco.state

/-- The task before and after the iteration for entry `k`. -/
def IterationOf (task : RoutingTask) (k : Fin kMaxNumDbEntries) (before after : RoutingTask) :
    Prop :=
  ∃ ks ks', List.finRange kMaxNumDbEntries = ks ++ k :: ks' ∧
    (forM ks forwardEngineUpdate).run task = .ok ((), before) ∧
    (forwardEngineUpdate k).run before = .ok ((), after)

/-- What is known of an iteration says how it runs. -/
theorem IterationOf.run {task before after : RoutingTask} {k : Fin kMaxNumDbEntries}
    (h : IterationOf task k before after) :
    (forwardEngineUpdate k).run before = .ok ((), after) := by
  obtain ⟨_, _, _, _, hk⟩ := h
  exact hk

/-- No update is lost between `task` and `task'`. -/
structure UpdatesKept (task task' : RoutingTask) : Prop where
  /-- A flag that was cleared stands for an accepted message with the current value. -/
  cleared : ∀ k a, a.onLocoNet = true → (task.engineDb.entry k).diff.flagged a = true →
    (task'.engineDb.entry k).diff.flagged a = false →
    ∃ before after i server, IterationOf task k before after ∧
      (LocoNetForwarder.findSlot (task.engineDb.entry k).loco.address).run before.slotServer
        = .ok ((i : Fin kNumSlots), server) ∧
      ∃ call ∈ before.slotServer.tx.newCalls after.slotServer.tx, call.2 = true ∧
        Carries i (task.engineDb.entry k).loco.state a call.1
  /-- An attribute whose message was rejected keeps its flag. -/
  rejected : ∀ k before after (i : Fin kNumSlots) server, IterationOf task k before after →
    (LocoNetForwarder.findSlot (task.engineDb.entry k).loco.address).run before.slotServer
      = .ok ((i : SlotIt), server) →
    ∀ call ∈ before.slotServer.tx.newCalls after.slotServer.tx, call.2 = false →
      ∀ a, (task.engineDb.entry k).diff.flagged a = true →
        Carries i (task.engineDb.entry k).loco.state a call.1 →
        (task'.engineDb.entry k).diff.flagged a = true

/-- Nothing is lost when nothing is forwarded. -/
theorem UpdatesKept.refl (task : RoutingTask) : UpdatesKept task task where
  cleared := by
    intro k a _ hflag hcleared
    rw [hflag] at hcleared
    cases hcleared
  rejected := fun _ _ _ _ _ _ _ _ _ _ _ hflag _ => hflag

/-! ### One iteration -/

/-- What a completed iteration does, when the slot server is not disabled. -/
inductive IterationEffect (task : RoutingTask) (k : Fin kMaxNumDbEntries)
    (task' : RoutingTask) : Prop
  | kept (htx : task'.slotServer.tx = task.slotServer.tx)
      (hdiff : (task'.engineDb.entry k).diff = (task.engineDb.entry k).diff)
      (hneeded : (task.engineDb.entry k).messagesNeeded task.slotServer = 0)
  | announced (i : Fin kNumSlots) (server : LocoNetSlotServer)
      (hupdate : (task.engineDb.entry k).hasUpdate = true)
      (hfind : (LocoNetForwarder.findSlot (task.engineDb.entry k).loco.address).run task.slotServer
        = .ok ((i : SlotIt), server))
      (htx : task'.slotServer.tx = task.slotServer.tx.sendAll (announcements (findSlotIndex i)
        (task.engineDb.entry k).loco.toLocomotiveData (task.engineDb.entry k).diff))
      (hdiff : (task'.engineDb.entry k).diff = {})

/-- An iteration that runs through has one of these effects. -/
theorem forwardEngineUpdate_effect {task task' : RoutingTask} {k : Fin kMaxNumDbEntries}
    (henabled : task.slotServer.isDisabled = false)
    (h : (forwardEngineUpdate k).run task = .ok ((), task')) : IterationEffect task k task' := by
  rcases forwardEngineUpdate_run h with ⟨hclean, heq⟩ | ⟨hupdate, diff, hserver, heq⟩
  · subst heq
    refine .kept rfl rfl ?_
    rw [DbEntry.messagesNeeded, hclean]
    rfl
  · have hdiff : (task'.engineDb.entry k).diff = diff := by
      rw [heq, CanEngineDB.entry_setEntry_self]
    have heffect := forwardLocoChange_effect task.slotServer
      (task.engineDb.entry k).loco.toLocomotiveData (task.engineDb.entry k).diff
    rw [hserver] at heffect
    generalize hs' : task'.slotServer = s' at heffect
    cases heffect with
    | disabled hdisabled =>
        rw [henabled] at hdisabled
        cases hdisabled
    | notFound _ hfind =>
        refine .kept (by rw [hs']) hdiff ?_
        have hfinds := finds_of_findSlot hfind
        rw [DbEntry.messagesNeeded, hfinds, hupdate]
        rfl
    | found _ i s₁ hfind =>
        refine .announced i s₁ hupdate hfind ?_ hdiff
        rw [hs', LocoNetSlotServer.tx_send, LocoNetSlotServer.tx_setSlot, (findSlot_frame hfind).1]

/-- The entries of other engines are left alone. -/
theorem forwardEngineUpdate_other {task task' : RoutingTask} {j k : Fin kMaxNumDbEntries}
    (hjk : j ≠ k) (h : (forwardEngineUpdate j).run task = .ok ((), task')) :
    task'.engineDb.entry k = task.engineDb.entry k := by
  rcases forwardEngineUpdate_run h with ⟨_, heq⟩ | ⟨_, diff, _, heq⟩
  · rw [heq]
  · rw [heq]
    exact task.engineDb.entry_setEntry_ne hjk _

/-- The mode and the addresses with a slot stay as they are. -/
theorem forwardEngineUpdate_server {task task' : RoutingTask} {k : Fin kMaxNumDbEntries}
    (h : (forwardEngineUpdate k).run task = .ok ((), task')) :
    task'.slotServer.isDisabled = task.slotServer.isDisabled ∧
      ∀ addr, task'.slotServer.finds addr = task.slotServer.finds addr := by
  rcases forwardEngineUpdate_run h with ⟨_, heq⟩ | ⟨_, diff, hserver, _⟩
  · rw [heq]
    exact ⟨rfl, fun _ => rfl⟩
  · have heffect := forwardLocoChange_effect task.slotServer
      (task.engineDb.entry k).loco.toLocomotiveData (task.engineDb.entry k).diff
    rw [hserver] at heffect
    generalize task'.slotServer = s' at heffect
    cases heffect with
    | disabled => exact ⟨rfl, fun _ => rfl⟩
    | notFound => exact ⟨rfl, fun _ => rfl⟩
    | found _ i s₁ hfind =>
        have hsame := (SameDirectory.refl s₁).announce i
          (task.engineDb.entry k).loco.toLocomotiveData (task.engineDb.entry k).diff
          (announcements (findSlotIndex i) (task.engineDb.entry k).loco.toLocomotiveData
            (task.engineDb.entry k).diff)
        refine ⟨?_, ?_⟩
        · rw [hsame.isDisabled, LocoNetSlotServer.isDisabled, LocoNetSlotServer.isDisabled,
            (findSlot_frame hfind).2.1]
        · intro addr
          rw [finds_congr hsame, finds_findSlot hfind]

/-- An iteration makes one call for each message it needs. -/
theorem IterationEffect.sends {task task' : RoutingTask} {k : Fin kMaxNumDbEntries}
    (h : IterationEffect task k task') :
    ∃ msgs, task'.slotServer.tx = task.slotServer.tx.sendAll msgs ∧
      msgs.length = (task.engineDb.entry k).messagesNeeded task.slotServer := by
  cases h with
  | kept htx _ hneeded => exact ⟨[], htx, hneeded.symm⟩
  | announced i server hupdate hfind htx _ =>
      refine ⟨_, htx, ?_⟩
      rw [length_announcements, DbEntry.messagesNeeded, hupdate, finds_of_findSlot hfind,
        isSlotInBounds_fin]
      rfl

/-! ### The loop -/

section

variable {task task' : RoutingTask}

/-- The loop does not enable or disable the slot server. -/
theorem forM_forwardEngineUpdate_enabled {ks : List (Fin kMaxNumDbEntries)}
    (h : (forM ks forwardEngineUpdate).run task = .ok ((), task')) :
    task'.slotServer.isDisabled = task.slotServer.isDisabled :=
  (forM_rel forwardEngineUpdate (fun task => Eq.refl task.slotServer.isDisabled)
    (fun _ _ _ h₁ h₂ => h₁.trans h₂) (fun _ _ _ h => (forwardEngineUpdate_server h).1.symm) ks
    task task' h).symm

/-- Entries that the loop does not visit keep their flags. -/
theorem forM_forwardEngineUpdate_other {ks : List (Fin kMaxNumDbEntries)}
    {k : Fin kMaxNumDbEntries} (hk : k ∉ ks)
    (h : (forM ks forwardEngineUpdate).run task = .ok ((), task')) :
    task'.engineDb.entry k = task.engineDb.entry k :=
  (forM_rel_mem forwardEngineUpdate (fun task => Eq.refl (task.engineDb.entry k))
    (fun _ _ _ h₁ h₂ => h₁.trans h₂) ks
    (fun j hj _ _ hrun =>
      (forwardEngineUpdate_other (show j ≠ k from fun hjk => hk (hjk ▸ hj)) hrun).symm)
    task task' h).symm

/-- The loop makes one call for each message that its entries need in front of it. -/
theorem forM_forwardEngineUpdate_sends :
    ∀ (ks : List (Fin kMaxNumDbEntries)) (task task' : RoutingTask), ks.Nodup →
      task.slotServer.isDisabled = false →
      (forM ks forwardEngineUpdate).run task = .ok ((), task') →
      ∃ msgs, task'.slotServer.tx = task.slotServer.tx.sendAll msgs ∧
        msgs.length
          = (ks.map fun k => (task.engineDb.entry k).messagesNeeded task.slotServer).sum := by
  intro ks
  induction ks with
  | nil =>
      intro task task' _ _ h
      rw [run_forM_nil] at h
      rw [h]
      exact ⟨[], rfl, rfl⟩
  | cons k ks ih =>
      intro task task'' hnodup henabled h
      obtain ⟨hk, hks⟩ := List.nodup_cons.mp hnodup
      obtain ⟨task', hrun, hrest⟩ := (run_forM_cons forwardEngineUpdate).mp h
      obtain ⟨hmode, hfinds⟩ := forwardEngineUpdate_server hrun
      obtain ⟨msgs, htx, hlen⟩ := (forwardEngineUpdate_effect henabled hrun).sends
      obtain ⟨msgs', htx', hlen'⟩ := ih task' task'' hks (hmode.trans henabled) hrest
      -- The first iteration changes neither the other entries nor which of them have a slot.
      have hsame : (ks.map fun j => (task'.engineDb.entry j).messagesNeeded task'.slotServer)
          = ks.map fun j => (task.engineDb.entry j).messagesNeeded task.slotServer := by
        apply List.map_congr_left
        intro j hj
        have hne : k ≠ j := fun hkj => hk (hkj ▸ hj)
        rw [forwardEngineUpdate_other hne hrun, DbEntry.messagesNeeded, DbEntry.messagesNeeded,
          hfinds]
      refine ⟨msgs ++ msgs', ?_, ?_⟩
      · rw [htx', htx, LocoNetTx.sendAll_append]
      · rw [List.length_append, hlen, hlen', hsame, List.map_cons, List.sum_cons]

/-- Every call of the loop is made by one of its iterations. -/
theorem exists_iteration_of_newCall :
    ∀ (ks : List (Fin kMaxNumDbEntries)) (task task' : RoutingTask), ks.Nodup →
      task.slotServer.isDisabled = false →
      (forM ks forwardEngineUpdate).run task = .ok ((), task') →
      ∀ call ∈ task.slotServer.tx.newCalls task'.slotServer.tx,
        ∃ pre k post before after, ks = pre ++ k :: post ∧
          (forM pre forwardEngineUpdate).run task = .ok ((), before) ∧
          (forwardEngineUpdate k).run before = .ok ((), after) ∧
          call ∈ before.slotServer.tx.newCalls after.slotServer.tx := by
  intro ks
  induction ks with
  | nil =>
      intro task task' _ _ h call hcall
      rw [run_forM_nil] at h
      rw [h, LocoNetTx.newCalls_self] at hcall
      cases hcall
  | cons k ks ih =>
      intro task task'' hnodup henabled h call hcall
      have hks := (List.nodup_cons.mp hnodup).2
      obtain ⟨task', hrun, hrest⟩ := (run_forM_cons forwardEngineUpdate).mp h
      have henabled' := (forwardEngineUpdate_server hrun).1.trans henabled
      obtain ⟨msgs, htx, _⟩ := (forwardEngineUpdate_effect henabled hrun).sends
      obtain ⟨msgs', htx', _⟩ := forM_forwardEngineUpdate_sends ks task' task'' hks henabled' hrest
      rw [htx', htx, ← LocoNetTx.sendAll_append, LocoNetTx.newCalls_sendAll_append, ← htx, ← htx']
        at hcall
      rcases List.mem_append.mp hcall with hfirst | hlater
      -- The calls of the loop are those of its first iteration and those of the rest.
      · exact ⟨[], k, ks, task, task', rfl, rfl, hrun, hfirst⟩
      · obtain ⟨pre, j, post, before, after, hsplit, hpre, hj, hmem⟩ :=
          ih task' task'' hks henabled' hrest call hlater
        exact ⟨k :: pre, j, post, before, after, by rw [hsplit]; rfl,
          (run_forM_cons forwardEngineUpdate).mpr ⟨task', hrun, hpre⟩, hj, hmem⟩

/-- The states around one iteration of the whole loop: the entry is still as it was before
the loop, keeps what the iteration leaves, and the calls of the iteration are calls of the
loop. -/
theorem iteration_frame (henabled : task.slotServer.isDisabled = false)
    (hrun : (forM (List.finRange kMaxNumDbEntries) forwardEngineUpdate).run task
      = .ok ((), task')) {k : Fin kMaxNumDbEntries} {before after : RoutingTask}
    (h : IterationOf task k before after) :
    before.slotServer.isDisabled = false ∧
      before.engineDb.entry k = task.engineDb.entry k ∧
      task'.engineDb.entry k = after.engineDb.entry k ∧
      ∀ call ∈ before.slotServer.tx.newCalls after.slotServer.tx,
        call ∈ task.slotServer.tx.newCalls task'.slotServer.tx := by
  obtain ⟨ks, ks', hsplit, hbefore, hk⟩ := h
  rw [hsplit, run_forM_split] at hrun
  obtain ⟨before', after', hbefore', hk', hafter⟩ := hrun
  rw [hbefore] at hbefore'
  cases hbefore'
  rw [hk] at hk'
  cases hk'
  have hnodup : (ks ++ k :: ks').Nodup := hsplit ▸ List.nodup_finRange kMaxNumDbEntries
  obtain ⟨hks, hrest, hdisjoint⟩ := List.nodup_append.mp hnodup
  obtain ⟨hkks', hks'⟩ := List.nodup_cons.mp hrest
  have hkks : k ∉ ks := fun hmem => hdisjoint k hmem k List.mem_cons_self rfl
  have henabled₁ := (forM_forwardEngineUpdate_enabled hbefore).trans henabled
  have henabled₂ := (forwardEngineUpdate_server hk).1.trans henabled₁
  obtain ⟨msgs₁, htx₁, _⟩ := forM_forwardEngineUpdate_sends ks task before hks henabled hbefore
  obtain ⟨msgs₂, htx₂, _⟩ := (forwardEngineUpdate_effect henabled₁ hk).sends
  obtain ⟨msgs₃, htx₃, _⟩ :=
    forM_forwardEngineUpdate_sends ks' after task' hks' henabled₂ hafter
  refine ⟨henabled₁, forM_forwardEngineUpdate_other hkks hbefore,
    forM_forwardEngineUpdate_other hkks' hafter, ?_⟩
  intro call hcall
  -- The calls of the loop are those before, in and after the iteration.
  rw [htx₃, htx₂, htx₁, ← LocoNetTx.sendAll_append, ← LocoNetTx.sendAll_append,
    LocoNetTx.newCalls_sendAll_append, LocoNetTx.newCalls_sendAll_append, ← htx₁, ← htx₂]
  exact List.mem_append_right _ (List.mem_append_left _ hcall)

/-- Every entry has its iteration in a completed loop. -/
theorem exists_iteration
    (hrun : (forM (List.finRange kMaxNumDbEntries) forwardEngineUpdate).run task
      = .ok ((), task')) (k : Fin kMaxNumDbEntries) :
    ∃ before after, IterationOf task k before after := by
  obtain ⟨ks, ks', hsplit⟩ := List.append_of_mem (List.mem_finRange k)
  rw [hsplit, run_forM_split] at hrun
  obtain ⟨before, after, hbefore, hk, _⟩ := hrun
  exact ⟨before, after, ks, ks', hsplit, hbefore, hk⟩

/-! ### Lost updates -/

omit [AddressScheme] in
/-- An announcement gives its slot the attributes it was built for. -/
theorem carries_of_announces {i : Fin kNumSlots} {loco : LocomotiveData} {diff : LocoDiff}
    {m : LnMsg} {a : EngineAttribute} (hm : m ∈ announcements (findSlotIndex i) loco diff)
    (ha : Announces (findSlotIndex i) loco m a) : Carries i loco.state a m :=
  ⟨announcements_controlSlot i loco diff m hm, fun entry =>
    (announcements_carrier (findSlotIndex i) loco diff m hm).updates a entry ha⟩

omit [AddressScheme] in
/-- An announcement is built for a flagged attribute. -/
theorem exists_flagged_of_announcement {slotIdx : Byte} {loco : LocomotiveData} {diff : LocoDiff}
    {m : LnMsg} (hm : m ∈ announcements slotIdx loco diff) :
    ∃ a, diff.flagged a = true ∧ Announces slotIdx loco m a := by
  rcases List.mem_append.mp hm with hm | hm
  · split at hm
    · next hvelocity =>
        exact ⟨.velocity, hvelocity, .inl ⟨List.mem_singleton.mp hm, rfl⟩⟩
    · cases hm
  · obtain ⟨g, hg, rfl⟩ := List.mem_map.mp hm
    have hannounced := (List.mem_filter.mp hg).2
    rcases g.announcedBy_cases hannounced with ⟨rfl, hdirection⟩ | ⟨f, hmask, hflag⟩
    · exact ⟨.direction, hdirection, .inr ⟨.dirf, rfl, rfl⟩⟩
    · exact ⟨.function f, hflag, .inr ⟨g, rfl, hmask⟩⟩

/-- A loop that loses no update has all its messages accepted. -/
theorem all_accepted_of_updatesKept (henabled : task.slotServer.isDisabled = false)
    (hrun : (forM (List.finRange kMaxNumDbEntries) forwardEngineUpdate).run task
      = .ok ((), task')) (hkept : UpdatesKept task task') :
    ∀ call ∈ task.slotServer.tx.newCalls task'.slotServer.tx, call.2 = true := by
  intro call hcall
  by_contra hrejected
  obtain ⟨ks, k, ks', before, after, hsplit, hbefore, hk, hmem⟩ := exists_iteration_of_newCall _
    task task' (List.nodup_finRange kMaxNumDbEntries) henabled hrun call hcall
  have hiteration : IterationOf task k before after := ⟨ks, ks', hsplit, hbefore, hk⟩
  obtain ⟨henabled', hentry, hend, _⟩ := iteration_frame henabled hrun hiteration
  cases forwardEngineUpdate_effect henabled' hk with
  | kept htx =>
      rw [htx, LocoNetTx.newCalls_self] at hmem
      cases hmem
  | announced i server _ hfind htx hdiff =>
      have hannounced : call.1 ∈ announcements (findSlotIndex i)
          (before.engineDb.entry k).loco.toLocomotiveData (before.engineDb.entry k).diff := by
        rw [htx] at hmem
        exact LocoNetTx.mem_newCalls_sendAll hmem
      rw [hentry] at hfind hannounced
      -- The rejected message has a flagged attribute, and the flag is gone.
      obtain ⟨a, hflag, ha⟩ := exists_flagged_of_announcement hannounced
      have hstill := hkept.rejected k before after i server hiteration hfind call hmem
        (Bool.eq_false_of_not_eq_true hrejected) a hflag (carries_of_announces hannounced ha)
      rw [hend, hdiff, LocoDiff.flagged_empty] at hstill
      cases hstill

/-- A loop whose messages are all accepted loses no update. -/
theorem updatesKept_of_all_accepted (henabled : task.slotServer.isDisabled = false)
    (hrun : (forM (List.finRange kMaxNumDbEntries) forwardEngineUpdate).run task
      = .ok ((), task'))
    (hall : ∀ call ∈ task.slotServer.tx.newCalls task'.slotServer.tx, call.2 = true) :
    UpdatesKept task task' where
  cleared := by
    intro k a hon hflag hcleared
    obtain ⟨before, after, hiteration⟩ := exists_iteration hrun k
    obtain ⟨henabled', hentry, hend, hcalls⟩ := iteration_frame henabled hrun hiteration
    cases forwardEngineUpdate_effect henabled' hiteration.run with
    | kept _ hdiff =>
        rw [hend, hdiff, hentry, hflag] at hcleared
        cases hcleared
    | announced i server _ hfind htx =>
        rw [hentry] at hfind htx
        -- Every flagged attribute has its message, and the iteration made a call for it.
        obtain ⟨m, hm, ha⟩ := exists_announcement hflag hon (findSlotIndex i)
          (task.engineDb.entry k).loco.toLocomotiveData
        have hsent := hm
        rw [← LocoNetTx.newCalls_sendAll_map_fst before.slotServer.tx (announcements _ _ _), ← htx]
          at hsent
        obtain ⟨call, hcall, rfl⟩ := List.mem_map.mp hsent
        exact ⟨before, after, i, server, hiteration, hfind, call, hcall,
          hall call (hcalls call hcall), carries_of_announces hm ha⟩
  rejected := by
    intro k before after i server hiteration _ call hcall hrejected
    obtain ⟨_, _, _, hcalls⟩ := iteration_frame henabled hrun hiteration
    rw [hall call (hcalls call hcall)] at hrejected
    cases hrejected

/-- A completed loop loses no update exactly when all its messages fit the queue. -/
theorem updatesKept_iff_room (henabled : task.slotServer.isDisabled = false)
    (hrun : (forM (List.finRange kMaxNumDbEntries) forwardEngineUpdate).run task
      = .ok ((), task')) :
    UpdatesKept task task' ↔ task.messagesNeeded ≤ task.slotServer.tx.msgBuffer.room := by
  obtain ⟨msgs, htx, hlen⟩ := forM_forwardEngineUpdate_sends _ task task'
    (List.nodup_finRange kMaxNumDbEntries) henabled hrun
  have hfits : task.messagesNeeded ≤ task.slotServer.tx.msgBuffer.room ↔
      ∀ call ∈ task.slotServer.tx.newCalls task'.slotServer.tx, call.2 = true := by
    rw [htx, LocoNetTx.newCalls_sendAll_all_accepted, hlen, RoutingTask.messagesNeeded]
  rw [hfits]
  exact ⟨all_accepted_of_updatesKept henabled hrun, updatesKept_of_all_accepted henabled hrun⟩

/-! ### Whether the loop completes -/

/-- An iteration and the lookup of its slot complete together, and leave the same directory. -/
theorem forwardEngineUpdate_lookup {engineDb : CanEngineDB} {k : Fin kMaxNumDbEntries}
    {server : LocoNetSlotServer} (henabled : task.slotServer.isDisabled = false)
    (hentry : task.engineDb.entry k = engineDb.entry k)
    (hsame : SameDirectory task.slotServer server) :
    (∃ task' server', (forwardEngineUpdate k).run task = .ok ((), task') ∧
      (lookupSlot engineDb k).run server = .ok ((), server') ∧
      SameDirectory task'.slotServer server') ∨
    (∃ fault fault', (forwardEngineUpdate k).run task = .error fault ∧
      (lookupSlot engineDb k).run server = .error fault') := by
  rw [lookupSlot, ← hentry]
  cases hupdate : (task.engineDb.entry k).hasUpdate with
  | false => exact .inl ⟨task, server, forwardEngineUpdate_run_of_clean hupdate, rfl, hsame⟩
  | true =>
      rw [if_pos rfl]
      -- The iteration completes when the change was forwarded.
      have hiteration : ∀ {diff : LocoDiff} {s' : LocoNetSlotServer},
          (LocoNetForwarder.forwardLocoChange (task.engineDb.entry k).loco.toLocomotiveData
            (task.engineDb.entry k).diff).run task.slotServer = .ok (diff, s') →
          (forwardEngineUpdate k).run task
            = .ok ((), { task with
                slotServer := s'
                engineDb :=
                  task.engineDb.setEntry k { task.engineDb.entry k with diff := diff } }) := by
        intro diff s' hforward
        rw [forwardEngineUpdate_run_of_update hupdate,
          run_bind_of_ok (onSlotServer_run_of_ok hforward)]
        rfl
      rcases findSlot_congr hsame (task.engineDb.entry k).loco.address with
        ⟨slotIt, s', u', hs, hu, hsame'⟩ | ⟨fault, hs, hu⟩
      · have heffect := forwardLocoChange_effect task.slotServer
          (task.engineDb.entry k).loco.toLocomotiveData (task.engineDb.entry k).diff
        generalize hforward : (LocoNetForwarder.forwardLocoChange
          (task.engineDb.entry k).loco.toLocomotiveData (task.engineDb.entry k).diff).run
            task.slotServer = r at heffect
        cases heffect with
        | disabled hdisabled =>
            rw [henabled] at hdisabled
            cases hdisabled
        | notFound _ hfind =>
            cases hs.symm.trans hfind
            exact .inl ⟨_, u', hiteration hforward, run_bind_of_ok hu, hsame'⟩
        | found _ i s₁ hfind =>
            cases hs.symm.trans hfind
            exact .inl ⟨_, u', hiteration hforward, run_bind_of_ok hu, hsame'.announce i _ _ _⟩
        -- The lookup completed, so the table was not full.
        | full _ hfind => cases hs.symm.trans hfind
      · have hforward : (LocoNetForwarder.forwardLocoChange
            (task.engineDb.entry k).loco.toLocomotiveData (task.engineDb.entry k).diff).run
            task.slotServer = .error fault := by
          rw [forwardLocoChange_run_of_enabled henabled, run_bind_of_error hs]
        refine .inr ⟨fault, fault, ?_, run_bind_of_error hu⟩
        rw [forwardEngineUpdate_run_of_update hupdate]
        exact run_bind_of_error (onSlotServer_run_of_error hforward)

/-- The loop and the lookups in front of the entries `ks`: the entries are as before the loop,
and the two servers have one directory. -/
structure InStep (engineDb : CanEngineDB) (ks : List (Fin kMaxNumDbEntries)) (task : RoutingTask)
    (server : LocoNetSlotServer) : Prop where
  nodup : ks.Nodup
  enabled : task.slotServer.isDisabled = false
  entries : ∀ k ∈ ks, task.engineDb.entry k = engineDb.entry k
  directory : SameDirectory task.slotServer server

/-- One iteration and one lookup keep in step, or both fail. -/
theorem InStep.step (engineDb : CanEngineDB) (k : Fin kMaxNumDbEntries)
    (ks : List (Fin kMaxNumDbEntries)) (task : RoutingTask) (server : LocoNetSlotServer)
    (h : InStep engineDb (k :: ks) task server) :
    (∃ task' server', (forwardEngineUpdate k).run task = .ok ((), task') ∧
      (lookupSlot engineDb k).run server = .ok ((), server') ∧
      InStep engineDb ks task' server') ∨
    (∃ fault fault', (forwardEngineUpdate k).run task = .error fault ∧
      (lookupSlot engineDb k).run server = .error fault') := by
  obtain ⟨hk, hks⟩ := List.nodup_cons.mp h.nodup
  rcases forwardEngineUpdate_lookup h.enabled (h.entries k List.mem_cons_self) h.directory with
    ⟨task', server', hrun, hlookup, hdirectory⟩ | hfault
  · refine .inl ⟨task', server', hrun, hlookup, hks, ?_, ?_, hdirectory⟩
    · exact (forwardEngineUpdate_server hrun).1.trans h.enabled
    · intro j hj
      have hne : k ≠ j := fun hkj => hk (hkj ▸ hj)
      rw [forwardEngineUpdate_other hne hrun, h.entries j (List.mem_cons_of_mem k hj)]
  · exact .inr hfault

/-- The loop completes exactly when there are slots for all updated engines. -/
theorem forM_forwardEngineUpdate_completes_iff (task : RoutingTask)
    (henabled : task.slotServer.isDisabled = false) :
    (∃ task', (forM (List.finRange kMaxNumDbEntries) forwardEngineUpdate).run task
      = .ok ((), task')) ↔ task.SlotsSuffice :=
  forM_lockstep forwardEngineUpdate (InStep.step task.engineDb) (List.finRange kMaxNumDbEntries)
    task task.slotServer
    ⟨List.nodup_finRange kMaxNumDbEntries, henabled, fun _ _ => rfl, .refl task.slotServer⟩

end

/-! ### The transmit queue -/

/-- A disabled slot server leaves everything as it was. -/
theorem forwardEngineUpdates_run_of_disabled {task : RoutingTask}
    (hdisabled : task.slotServer.isDisabled = true) :
    forwardEngineUpdates.run task = .ok ((), task) := by
  show (if !task.slotServer.isDisabled then _ else pure () : RoutingTaskRun Unit).run task = _
  rw [hdisabled]
  rfl

/-- An enabled slot server goes through all entries of the database. -/
theorem forwardEngineUpdates_run_of_enabled {task : RoutingTask}
    (henabled : task.slotServer.isDisabled = false) :
    forwardEngineUpdates.run task
      = (forM (List.finRange kMaxNumDbEntries) forwardEngineUpdate).run task := by
  show (if !task.slotServer.isDisabled then _ else pure () : RoutingTaskRun Unit).run task = _
  rw [henabled]
  rfl

/-- The loop completes and loses no update exactly when the slot server is disabled, so that
nothing is forwarded, or when there are slots for the updated engines and room in the queue
for all their messages. -/
theorem updatesKept_iff (task : RoutingTask) :
    (∃ task', forwardEngineUpdates.run task = .ok ((), task') ∧ UpdatesKept task task') ↔
      task.slotServer.isDisabled = true ∨
        (task.SlotsSuffice ∧ task.messagesNeeded ≤ task.slotServer.tx.msgBuffer.room) := by
  cases hdis : task.slotServer.isDisabled with
  | true =>
      exact iff_of_true ⟨task, forwardEngineUpdates_run_of_disabled hdis, .refl task⟩ (.inl rfl)
  | false =>
      rw [forwardEngineUpdates_run_of_enabled hdis,
        ← forM_forwardEngineUpdate_completes_iff task hdis]
      -- The loop runs through when the slots suffice. What it keeps is a question of the room.
      constructor
      · rintro ⟨task', hrun, hkept⟩
        exact .inr ⟨⟨task', hrun⟩, (updatesKept_iff_room hdis hrun).mp hkept⟩
      · rintro (hdisabled | ⟨⟨task', hrun⟩, hroom⟩)
        · cases hdisabled
        · exact ⟨task', hrun, (updatesKept_iff_room hdis hrun).mpr hroom⟩

/-- The lookup of a server that is not active makes no slot, so it does not run out of them. -/
theorem slotsSuffice_of_passive {task : RoutingTask} (hpassive : task.slotServer.isActive = false) :
    task.SlotsSuffice := by
  have hlookup : ∀ k s, s = task.slotServer →
      ∃ s', (lookupSlot task.engineDb k).run s = .ok ((), s') ∧ s' = task.slotServer := by
    rintro k s rfl
    refine ⟨task.slotServer, ?_, rfl⟩
    rw [lookupSlot]
    split
    · exact run_bind_of_ok ((findSlot_run_of_passive hpassive _).trans rfl)
    · rfl
  obtain ⟨s', hrun, -⟩ := exists_run_forM (lookupSlot task.engineDb) hlookup
    (List.finRange kMaxNumDbEntries) task.slotServer rfl
  exact ⟨s', hrun⟩

end

/-- Nine known engines get a new velocity. All have their slots, and the queue is empty. -/
theorem updatesKept_nine_engines :
    letI := AddressScheme.upperBits
    let engineDb : CanEngineDB := { db := .ofFn fun k =>
      if (k : Nat) < 9 then
        { loco := { uid := BitVec.ofNat 32 (k + 1), address := BitVec.ofNat 16 (k + 1),
                    availability := .fullDetails } }
      else {} }
    let slotDB : SlotDB := .ofFn fun i =>
      { inUse := true, loco := { address := BitVec.ofNat 16 i } }
    let task : RoutingTask :=
      { slotServer := { dataModel := { lnSlotServerState := .passive }, slotDB := slotDB }
        engineDb := EngineCall.run (.setAllLocoVelocity 500) engineDb }
    ∃ task', forwardEngineUpdates.run task = .ok ((), task') ∧ ¬ UpdatesKept task task' := by
  let _ := AddressScheme.upperBits
  intro engineDb slotDB task
  have hneeded : task.messagesNeeded = 9 := by decide +kernel
  have hroom : task.slotServer.tx.msgBuffer.room = 8 := by decide
  obtain ⟨task', hrun⟩ := (forM_forwardEngineUpdate_completes_iff task rfl).mpr
    (slotsSuffice_of_passive rfl)
  refine ⟨task', (forwardEngineUpdates_run_of_enabled rfl).trans hrun, ?_⟩
  rw [updatesKept_iff_room rfl hrun, hneeded, hroom]
  decide

end C6021Light
