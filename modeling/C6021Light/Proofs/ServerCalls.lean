import C6021Light.Proofs.ForwarderRun
import C6021Light.RoutingTask.RoutingTask

/-!
# `C6021Light.Proofs.ServerCalls`: the slot server as a transition system

The routing task and the console act on the slot server through a handful of calls. A
`ServerCall` is one of them, and the slot server with its calls is a transition system of its
own: any call, with any argument, in any order.

Every step of the routing task is a run of such calls (`TaskEvent.exec_serverCalls`), so every
slot server that the routing task can reach is reachable in this system
(`reachable_serverCalls`, and `taskMain_serverCalls` for the task's own loop). An invariant
of the calls is an invariant of the task.
-/

set_option autoImplicit false

namespace C6021Light

open FaultRun

/-- One call on the slot server. -/
inductive ServerCall
  | process (msg : LnMsg)
  | handleDummyMessages (msg : LnMsg)
  | markAddressForDispatch (addr : LocoAddr)
  | forwardLocoChange (loco : LocomotiveData) (diff : LocoDiff)
  | matchSlot (engineDb : CanEngineDB) (i : Fin kNumSlots)
  | setSlotServerState (state : SlotServerState)
  | asyncSend (msg : LnMsg)
  | blockingSend

section Exec

variable [AddressScheme]

/-- The call on the server. `matchSlot` is the part of `matchEnginesFromLocoNetAndCan` that
changes one slot. -/
def ServerCall.exec : ServerCall → SlotServerRun Unit
  | process msg => C6021Light.process msg
  | handleDummyMessages msg => LocoNetForwarder.handleDummyMessages msg
  | markAddressForDispatch addr => do let _ ← C6021Light.markAddressForDispatch addr
  | forwardLocoChange loco diff => do let _ ← LocoNetForwarder.forwardLocoChange loco diff
  | matchSlot engineDb i =>
      modify fun server => server.setSlot i ((server.slot i).forwardToCAN engineDb).2
  | setSlotServerState state => C6021Light.setSlotServerState state
  | asyncSend msg => C6021Light.asyncSend msg
  | blockingSend => C6021Light.blockingSend

/-- The only message a call may process is `msg`. -/
def ServerCall.ProcessesOnly (msg : Option LnMsg) : ServerCall → Prop
  | process msg' => msg = some msg'
  | _ => True

/-- The message that an event processes. -/
def TaskEvent.received : TaskEvent → Option LnMsg
  | lnReceive msg => some msg
  | _ => none

/-! ### Programs that run calls -/

variable {C : ServerCall → Prop}

/-- One call makes the state behind it reachable. -/
theorem reachable_of_call {s s' : LocoNetSlotServer} (call : ServerCall) (hC : C call)
    (h : (call.exec).run s = .ok ((), s')) : Reachable ServerCall.exec C s s' :=
  Reachable.init.step hC h

omit [AddressScheme] in
/-- A slot server program inside the task. -/
theorem onSlotServer_run {α : Type} {program : SlotServerRun α} {task task' : RoutingTask}
    {a : α} (h : (onSlotServer program).run task = .ok (a, task')) :
    program.run task.slotServer = .ok (a, task'.slotServer) ∧
      task' = { task with slotServer := task'.slotServer } := by
  obtain ⟨t, _, hget, hrest⟩ := run_bind_eq_ok.mp h
  cases hget
  obtain ⟨r, task₁, hlift, hset⟩ := run_bind_eq_ok.mp hrest
  obtain ⟨hp, htask₁⟩ := run_liftM_eq_ok.mp hlift
  subst htask₁
  cases hset
  exact ⟨hp, rfl⟩

omit [AddressScheme] in
/-- A program that returns does so inside the task, which keeps the rest. -/
theorem onSlotServer_run_of_ok {α : Type} {program : SlotServerRun α} {task : RoutingTask}
    {a : α} {server : LocoNetSlotServer} (h : program.run task.slotServer = .ok (a, server)) :
    (onSlotServer program).run task = .ok (a, { task with slotServer := server }) := by
  have hlift : (liftM (program.run task.slotServer) : RoutingTaskRun _).run task
      = .ok ((a, server), task) := run_liftM_eq_ok.mpr ⟨h, rfl⟩
  have hget : (get : RoutingTaskRun RoutingTask).run task = .ok (task, task) := rfl
  exact (run_bind_of_ok hget).trans (run_bind_of_ok hlift)

omit [AddressScheme] in
/-- A program that fails does so inside the task. -/
theorem onSlotServer_run_of_error {α : Type} {program : SlotServerRun α} {task : RoutingTask}
    {fault : Fault} (h : program.run task.slotServer = .error fault) :
    (onSlotServer program).run task = .error fault := by
  have hlift : (liftM (program.run task.slotServer) : RoutingTaskRun _).run task
      = .error fault := run_liftM_of_error h task
  have hget : (get : RoutingTaskRun RoutingTask).run task = .ok (task, task) := rfl
  exact (run_bind_of_ok hget).trans (run_bind_of_error hlift)

/-- A loop whose iterations are runs of calls is a run of calls. -/
theorem reachable_forM {ι : Type} {body : ι → RoutingTaskRun Unit}
    (hbody : ∀ i task task', (body i).run task = .ok ((), task') →
      Reachable ServerCall.exec C task.slotServer task'.slotServer)
    (is : List ι) {task task' : RoutingTask} (h : (forM is body).run task = .ok ((), task')) :
    Reachable ServerCall.exec C task.slotServer task'.slotServer :=
  forM_rel body (fun _ => .init) (fun _ _ _ h₁ h₂ => h₁.trans _ h₂) hbody is task task' h

/-! ### The loops of the routing task -/

/-- An iteration of the loop over the engine database does nothing for an entry without
update. -/
theorem forwardEngineUpdate_run_of_clean {k : Fin kMaxNumDbEntries} {task : RoutingTask}
    (hclean : (task.engineDb.entry k).hasUpdate = false) :
    (forwardEngineUpdate k).run task = .ok ((), task) := by
  show (if (task.engineDb.entry k).hasUpdate then _ else pure () : RoutingTaskRun Unit).run task = _
  rw [hclean]
  rfl

/-- For an updated entry it forwards the change and keeps the flags that are left. -/
theorem forwardEngineUpdate_run_of_update {k : Fin kMaxNumDbEntries} {task : RoutingTask}
    (hupdate : (task.engineDb.entry k).hasUpdate = true) :
    (forwardEngineUpdate k).run task
      = (do let diff ← onSlotServer (LocoNetForwarder.forwardLocoChange
              (task.engineDb.entry k).loco.toLocomotiveData (task.engineDb.entry k).diff)
            modify fun t => { t with
              engineDb := t.engineDb.setEntry k { task.engineDb.entry k with diff := diff } } :
          RoutingTaskRun Unit).run task := by
  show (if (task.engineDb.entry k).hasUpdate then _ else pure () : RoutingTaskRun Unit).run task = _
  rw [if_pos hupdate]

/-- One iteration of the loop, when it completes. -/
theorem forwardEngineUpdate_run {k : Fin kMaxNumDbEntries} {task task' : RoutingTask}
    (h : (forwardEngineUpdate k).run task = .ok ((), task')) :
    ((task.engineDb.entry k).hasUpdate = false ∧ task' = task) ∨
    ((task.engineDb.entry k).hasUpdate = true ∧ ∃ diff,
      (LocoNetForwarder.forwardLocoChange (task.engineDb.entry k).loco.toLocomotiveData
        (task.engineDb.entry k).diff).run task.slotServer = .ok (diff, task'.slotServer) ∧
      task' = { task with
        slotServer := task'.slotServer
        engineDb := task.engineDb.setEntry k { task.engineDb.entry k with diff := diff } }) := by
  cases hupdate : (task.engineDb.entry k).hasUpdate with
  | false =>
      rw [forwardEngineUpdate_run_of_clean hupdate] at h
      cases h
      exact .inl ⟨rfl, rfl⟩
  | true =>
      rw [forwardEngineUpdate_run_of_update hupdate] at h
      obtain ⟨diff, task₁, hforward, hset⟩ := run_bind_eq_ok.mp h
      obtain ⟨hserver, htask₁⟩ := onSlotServer_run hforward
      cases hset
      refine .inr ⟨rfl, diff, hserver, ?_⟩
      rw [htask₁]

/-- An iteration calls `forwardLocoChange` or nothing. -/
theorem forwardEngineUpdate_serverCalls {k : Fin kMaxNumDbEntries} {task task' : RoutingTask}
    (hC : ∀ loco diff, C (.forwardLocoChange loco diff))
    (h : (forwardEngineUpdate k).run task = .ok ((), task')) :
    Reachable ServerCall.exec C task.slotServer task'.slotServer := by
  rcases forwardEngineUpdate_run h with ⟨_, heq⟩ | ⟨_, diff, hserver, _⟩
  · rw [heq]
    exact .init
  · exact reachable_of_call (.forwardLocoChange (task.engineDb.entry k).loco.toLocomotiveData
      (task.engineDb.entry k).diff) (hC _ _) (run_bind_of_ok hserver)

omit [AddressScheme] in
/-- The match changes at most the UID of a slot. -/
theorem SlotEntry.matchToCAN_eq (engineDb : CanEngineDB) (entry : SlotEntry) :
    ∃ uid, entry.matchToCAN engineDb = { entry with loco := entry.loco.setUid uid } := by
  rw [SlotEntry.matchToCAN]
  split
  · split
    · exact ⟨_, rfl⟩
    · exact ⟨entry.loco.uid, rfl⟩
  · exact ⟨entry.loco.uid, rfl⟩

omit [AddressScheme] in
/-- Forwarding changes the flags as well, and nothing else. -/
theorem SlotEntry.forwardToCAN_eq (engineDb : CanEngineDB) (entry : SlotEntry) :
    ∃ uid diff, (entry.forwardToCAN engineDb).2
      = { entry with loco := entry.loco.setUid uid, diff := diff } := by
  obtain ⟨uid, hmatch⟩ := entry.matchToCAN_eq engineDb
  rw [SlotEntry.forwardToCAN, hmatch]
  split
  · exact ⟨uid, _, rfl⟩
  · exact ⟨uid, entry.diff, rfl⟩

omit [AddressScheme] in
/-- The match leaves the flags alone. -/
theorem SlotEntry.matchToCAN_hasUpdate (engineDb : CanEngineDB) (entry : SlotEntry) :
    (entry.matchToCAN engineDb).hasUpdate = entry.hasUpdate := by
  obtain ⟨uid, heq⟩ := entry.matchToCAN_eq engineDb
  rw [heq]
  rfl

omit [AddressScheme] in
/-- No flag is left, and without one nothing is sent. -/
theorem SlotEntry.forwardToCAN_hasUpdate (engineDb : CanEngineDB) (entry : SlotEntry) :
    (entry.forwardToCAN engineDb).2.hasUpdate = false ∧
      (entry.hasUpdate = false → (entry.forwardToCAN engineDb).1 = []) := by
  have hmatch := entry.matchToCAN_hasUpdate engineDb
  rw [SlotEntry.forwardToCAN]
  cases hupdate : (entry.matchToCAN engineDb).hasUpdate with
  | true =>
      refine ⟨rfl, fun hclean => ?_⟩
      rw [← hmatch, hupdate] at hclean
      cases hclean
  | false => exact ⟨hupdate, fun _ => rfl⟩

/-- An iteration of the match is one call. -/
theorem matchEngineOfSlot_serverCalls {i : Fin kNumSlots} {task task' : RoutingTask}
    (hC : ∀ engineDb i, C (.matchSlot engineDb i))
    (h : (matchEngineOfSlot i).run task = .ok ((), task')) :
    Reachable ServerCall.exec C task.slotServer task'.slotServer := by
  cases h
  exact reachable_of_call (.matchSlot task.engineDb i) (hC _ _) rfl

omit [AddressScheme] in
/-- The loops run only when the slot server is not disabled. -/
theorem run_ifEnabled {body : RoutingTaskRun Unit} {task task' : RoutingTask}
    (h : (do let t ← get
             if !t.slotServer.isDisabled then body : RoutingTaskRun Unit).run task
      = .ok ((), task')) :
    (task.slotServer.isDisabled = true ∧ task' = task) ∨
    (task.slotServer.isDisabled = false ∧ body.run task = .ok ((), task')) := by
  have hrun : (do let t ← get
                  if !t.slotServer.isDisabled then body : RoutingTaskRun Unit).run task
      = (if !task.slotServer.isDisabled then body else pure () : RoutingTaskRun Unit).run task :=
    rfl
  rw [hrun] at h
  cases hdis : task.slotServer.isDisabled with
  | true =>
      rw [hdis] at h
      cases h
      exact .inl ⟨rfl, rfl⟩
  | false =>
      rw [hdis] at h
      exact .inr ⟨rfl, h⟩

/-! ### The simulation -/

/-- The slot server part of an event is a run of calls, and they process only the message
that the event receives. -/
theorem TaskEvent.exec_serverCalls {e : TaskEvent} {task task' : RoutingTask}
    (h : (e.exec).run task = .ok ((), task')) :
    Reachable ServerCall.exec (ServerCall.ProcessesOnly e.received) task.slotServer
      task'.slotServer := by
  cases e with
  | handlePacket effect =>
      cases h
      exact .init
  | lnForward msg =>
      exact reachable_of_call (.asyncSend msg) trivial (onSlotServer_run h).1
  | forwardEngineUpdates =>
      rcases run_ifEnabled h with ⟨_, heq⟩ | ⟨_, hloop⟩
      · rw [heq]
        exact .init
      · exact reachable_forM
          (fun _ _ _ => forwardEngineUpdate_serverCalls fun _ _ => trivial) _ hloop
  | lnReceive msg =>
      -- Two calls: the answer to dummy messages, then the message switch.
      obtain ⟨_, s₁, hdummy, hprocess⟩ := run_bind_eq_ok.mp (onSlotServer_run h).1
      have hfirst : Reachable ServerCall.exec (ServerCall.ProcessesOnly (some msg))
          task.slotServer s₁ := reachable_of_call (.handleDummyMessages msg) trivial hdummy
      have hcall : (ServerCall.exec (.process msg)).run s₁ = .ok ((), task'.slotServer) :=
        hprocess
      have honly : ServerCall.ProcessesOnly (some msg) (.process msg) := rfl
      exact hfirst.step honly hcall
  | matchEngines =>
      rcases run_ifEnabled h with ⟨_, heq⟩ | ⟨_, hloop⟩
      · rw [heq]
        exact .init
      · exact reachable_forM
          (fun _ _ _ => matchEngineOfSlot_serverCalls fun _ _ => trivial) _ hloop
  | setSlotServerState state =>
      exact reachable_of_call (.setSlotServerState state) trivial (onSlotServer_run h).1
  | dispatch addr =>
      exact reachable_of_call (.markAddressForDispatch addr) trivial (onSlotServer_run h).1
  | blockingSend =>
      exact reachable_of_call .blockingSend trivial (onSlotServer_run h).1

/-- A slot server that the routing task reaches is reachable by calls. `P` is a condition on
the received messages. -/
theorem reachable_serverCalls {P : LnMsg → Prop} {task₀ task : RoutingTask}
    (h : Reachable TaskEvent.exec (fun e => ∀ msg, e.received = some msg → P msg) task₀ task) :
    Reachable ServerCall.exec (fun call => ∀ msg, call = .process msg → P msg)
      task₀.slotServer task.slotServer := by
  refine Reachable.simulate TaskEvent.exec (fun task e task' hP hrun => ?_) h
  refine Reachable.mono ServerCall.exec (fun call hcall msg hmsg => ?_)
    (TaskEvent.exec_serverCalls hrun)
  subst hmsg
  exact hP msg hcall

/-- So is the slot server after any iterations of `taskMain`. -/
theorem taskMain_serverCalls {P : LnMsg → Prop} {inputs : List TaskInput}
    {task task' : RoutingTask} (h : (RoutingTask.taskMain inputs).run task = .ok ((), task'))
    (hP : ∀ e ∈ inputs.flatMap TaskInput.events, ∀ msg, e.received = some msg → P msg) :
    Reachable ServerCall.exec (fun call => ∀ msg, call = .process msg → P msg)
      task.slotServer task'.slotServer := by
  rw [taskMain_eq_events] at h
  exact reachable_serverCalls (Reachable.of_run TaskEvent.exec _ task task' .init hP h)

end Exec

end C6021Light
