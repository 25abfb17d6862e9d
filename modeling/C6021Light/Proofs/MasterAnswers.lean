import C6021Light.Proofs.ServerCalls

/-!
# `C6021Light.Proofs.MasterAnswers`: what is sent in which mode

Only one station on a LocoNet answers as master. The slot server takes that part when it is
active. While it is passive it may ask for slot data, and while it is disabled it is silent.

`MaySend` is that rule for one message. Every handler of the message switch keeps to it but
one: `processRequestSlotRead` answers a request for slot data in every mode. So a run of the
routing task keeps to the rule exactly when it answers no such request outside active mode
(`answersByMode_iff`).
-/

set_option autoImplicit false

namespace C6021Light

open FaultRun

/-! ### The rule -/

/-- The answers of a LocoNet master: slot data and long acknowledges. -/
def LnMsg.isMasterAnswer : LnMsg → Bool
  | slRdData _ => true
  | longAck _ => true
  | _ => false

/-- An active server may send anything, a passive one may ask for slot data. -/
def LocoNetSlotServer.MaySend (s : LocoNetSlotServer) (msg : LnMsg) : Prop :=
  s.isActive = true ∨ (s.isDisabled = false ∧ ∃ sr, msg = .rqSlData sr)

/-- The event comes from the other bus or from LocoNet, and not from a frame of the CAN
library. -/
def TaskEvent.controlsEngines : TaskEvent → Bool
  | lnReceive _ => true
  | forwardEngineUpdates => true
  | _ => false

/-- The messages that an event puts into the transmit queue. -/
def RoutingTask.sent (task task' : RoutingTask) : List LnMsg :=
  task.slotServer.tx.accepted task'.slotServer.tx

/-- What one event may send in the mode it finds. `lnForward` is left out of the last part:
its message is an input of the loop. -/
structure AnswersByMode (task : RoutingTask) (e : TaskEvent) (task' : RoutingTask) : Prop where
  disabled : e.controlsEngines = true → task.slotServer.isDisabled = true →
    task.sent task' = []
  passive : e.received.isSome = true → task.slotServer.isPassive = true →
    ∀ msg ∈ task.sent task', ∃ sr, msg = .rqSlData sr
  answers : (∀ msg, e ≠ .lnForward msg) → ∀ msg ∈ task.sent task',
    msg.isMasterAnswer = true → task.slotServer.isActive = true

/-- A request for slot data that finds the server not active and room for the answer. -/
def TaskEvent.asksInactive (task : RoutingTask) : TaskEvent → Bool
  | lnReceive (.rqSlData _) =>
      !task.slotServer.isActive && decide (0 < task.slotServer.tx.msgBuffer.room)
  | _ => false

/-! ### One message -/

/-- A disabled server is not active. -/
theorem LocoNetSlotServer.not_active_of_disabled {s : LocoNetSlotServer}
    (h : s.isDisabled = true) : s.isActive = false := by
  have hstate : s.dataModel.lnSlotServerState = .disabled := of_decide_eq_true h
  simp [LocoNetSlotServer.isActive, hstate]

/-- A passive server is not active. -/
theorem LocoNetSlotServer.not_active_of_passive {s : LocoNetSlotServer}
    (h : s.isPassive = true) : s.isActive = false := by
  have hstate : s.dataModel.lnSlotServerState = .passive := of_decide_eq_true h
  simp [LocoNetSlotServer.isActive, hstate]

/-- The answer to a write is sent by an active server only. -/
theorem LocoNetSlotServer.maySend_writeAck (s : LocoNetSlotServer) :
    ∀ msg ∈ s.writeAck, s.MaySend msg := by
  intro msg hmsg
  rw [LocoNetSlotServer.writeAck] at hmsg
  split at hmsg
  · next hactive => exact .inl hactive
  · cases hmsg

/-- The dummy answer comes from an active server. -/
theorem LocoNetSlotServer.maySend_dummyAnswer (s : LocoNetSlotServer) (m : LnMsg) :
    ∀ msg ∈ s.dummyAnswer m, s.MaySend msg := by
  intro msg hmsg
  cases m with
  | swState srq =>
      rw [LocoNetSlotServer.dummyAnswer] at hmsg
      split at hmsg
      · next hactive => exact .inl hactive
      · cases hmsg
  | _ => cases hmsg

/-- The request for an unknown slot is sent by every server but a disabled one. -/
theorem LocoNetSlotServer.maySend_slotRequests (s : LocoNetSlotServer) (i : Fin kNumSlots) :
    ∀ msg ∈ s.slotRequests i, s.MaySend msg := by
  intro msg hmsg
  rw [LocoNetSlotServer.slotRequests] at hmsg
  split at hmsg
  · next hcond =>
      have henabled : s.isDisabled = false := by
        cases hdis : s.isDisabled with
        | true => simp [hdis] at hcond
        | false => rfl
      exact .inr ⟨henabled, _, List.mem_singleton.mp hmsg⟩
  · cases hmsg

/-- A control message is no answer. -/
theorem LnMsg.ControlsSlot.isMasterAnswer {m : LnMsg} {i : Fin kNumSlots}
    (h : m.ControlsSlot i) : m.isMasterAnswer = false := by
  cases m <;> first
    | rfl
    | cases h

section

variable [AddressScheme] {s s' : LocoNetSlotServer}

/-- The answer to a request for slot data, in any mode. -/
theorem process_rqSlData_sends {sr : SlotReqMsg}
    (h : (process (.rqSlData sr)).run s = .ok ((), s')) :
    ∃ sd, s'.tx = s.tx.sendAll [.slRdData sd] := by
  have heffect := process_effect s (.rqSlData sr)
  rw [h] at heffect
  cases heffect with
  | control i hslot => cases hslot
  | controlIgnored hmagic => cases hmagic
  | slotRequest msg i => exact ⟨_, rfl⟩
  | unhandled m hm => cases hm

/-- Every other message is handled by the rule. -/
theorem process_sends {m : LnMsg} (h : (process m).run s = .ok ((), s'))
    (hm : ∀ sr, m ≠ .rqSlData sr) :
    ∃ msgs, s'.tx = s.tx.sendAll msgs ∧ ∀ msg ∈ msgs, s.MaySend msg := by
  have hnothing : ∃ msgs, s.tx = s.tx.sendAll msgs ∧ ∀ msg ∈ msgs, s.MaySend msg :=
    ⟨[], rfl, fun _ hmsg => nomatch hmsg⟩
  have heffect := process_effect s m
  rw [h] at heffect
  cases heffect with
  | control i => exact ⟨_, rfl, s.maySend_slotRequests i⟩
  | controlIgnored => exact hnothing
  | slotRead => exact hnothing
  | slotReadOutside => exact hnothing
  | slotWrite => exact ⟨_, rfl, s.maySend_writeAck⟩
  | slotWriteOutside => exact ⟨_, rfl, s.maySend_writeAck⟩
  | slotRequest msg => exact absurd rfl (hm msg)
  | addressFound la i hactive => exact ⟨_, rfl, fun _ _ => .inl hactive⟩
  | addressAllocated la i hactive _ _ s₁ hs₁ =>
      subst hs₁
      exact ⟨_, rfl, fun _ _ => .inl hactive⟩
  | addressIgnored => exact hnothing
  | dispatchGet msg i hactive => exact ⟨_, rfl, fun _ _ => .inl hactive⟩
  | noDispatch msg hactive => exact ⟨_, rfl, fun _ _ => .inl hactive⟩
  | dispatchPut => exact hnothing
  | move => exact hnothing
  | clear => exact hnothing
  | moveIgnored => exact hnothing
  | unhandled => exact hnothing

/-- Received messages bring what the mode allows, but for a request for slot data. -/
theorem receiveLn_sends {m : LnMsg} (h : (receiveLn m).run s = .ok ((), s'))
    (hm : ∀ sr, m ≠ .rqSlData sr) :
    ∃ msgs, s'.tx = s.tx.sendAll msgs ∧ ∀ msg ∈ msgs, s.MaySend msg := by
  have hprocess : (process m).run (s.send (s.dummyAnswer m)) = .ok ((), s') := by
    rw [← h, receiveLn, run_bind_of_ok (handleDummyMessages_run s m)]
  obtain ⟨msgs, htx, hmay⟩ := process_sends hprocess hm
  refine ⟨s.dummyAnswer m ++ msgs, ?_, ?_⟩
  · rw [htx, LocoNetTx.sendAll_append]
    rfl
  · intro msg hmsg
    rcases List.mem_append.mp hmsg with hdummy | hmsg
    · exact s.maySend_dummyAnswer m msg hdummy
    · exact hmay msg hmsg

/-! ### Engine updates -/

/-- The server has sent something, and no answer of a master. -/
def LocoNetSlotServer.SendsNoAnswer (s s' : LocoNetSlotServer) : Prop :=
  ∃ msgs, s'.tx = s.tx.sendAll msgs ∧ ∀ msg ∈ msgs, msg.isMasterAnswer = false

omit [AddressScheme] in
/-- Nothing sent is no answer. -/
theorem LocoNetSlotServer.SendsNoAnswer.refl (s : LocoNetSlotServer) : s.SendsNoAnswer s :=
  ⟨[], rfl, fun _ hmsg => nomatch hmsg⟩

omit [AddressScheme] in
/-- Two steps without an answer. -/
theorem LocoNetSlotServer.SendsNoAnswer.trans {s₁ s₂ s₃ : LocoNetSlotServer}
    (h₁ : s₁.SendsNoAnswer s₂) (h₂ : s₂.SendsNoAnswer s₃) : s₁.SendsNoAnswer s₃ := by
  obtain ⟨msgs, htx, hmsgs⟩ := h₁
  obtain ⟨msgs', htx', hmsgs'⟩ := h₂
  refine ⟨msgs ++ msgs', by rw [htx', htx, LocoNetTx.sendAll_append], ?_⟩
  intro msg hmsg
  rcases List.mem_append.mp hmsg with hmsg | hmsg
  · exact hmsgs msg hmsg
  · exact hmsgs' msg hmsg

/-- A forwarded change brings no answer. -/
theorem forwardLocoChange_sends {loco : LocomotiveData} {diff diff' : LocoDiff}
    (h : (LocoNetForwarder.forwardLocoChange loco diff).run s = .ok (diff', s')) :
    s.SendsNoAnswer s' := by
  have heffect := forwardLocoChange_effect s loco diff
  rw [h] at heffect
  cases heffect with
  | disabled => exact .refl s
  | notFound => exact .refl s
  | found _ i s₁ hfind =>
      refine ⟨announcements (findSlotIndex i) loco diff, ?_, ?_⟩
      · show s₁.tx.sendAll _ = _
        rw [(findSlot_frame hfind).1]
      · intro msg hmsg
        exact (announcements_controlSlot i loco diff msg hmsg).isMasterAnswer

/-- An iteration over the engines brings no answer. -/
theorem forwardEngineUpdate_sends (k : Fin kMaxNumDbEntries) (task task' : RoutingTask)
    (h : (forwardEngineUpdate k).run task = .ok ((), task')) :
    task.slotServer.SendsNoAnswer task'.slotServer := by
  rcases forwardEngineUpdate_run h with ⟨_, heq⟩ | ⟨_, diff, hserver, _⟩
  · rw [heq]
    exact .refl _
  · exact forwardLocoChange_sends hserver

/-- The loop over the engines brings no answer. -/
theorem forwardEngineUpdates_sends {task task' : RoutingTask}
    (h : (forM (List.finRange kMaxNumDbEntries) forwardEngineUpdate).run task
      = .ok ((), task')) :
    task.slotServer.SendsNoAnswer task'.slotServer :=
  forM_rel forwardEngineUpdate
    (fun task => LocoNetSlotServer.SendsNoAnswer.refl task.slotServer)
    (fun _ _ _ h₁ h₂ => h₁.trans h₂) forwardEngineUpdate_sends _ _ _ h

omit [AddressScheme] in
/-- The loop over the slots sends nothing on LocoNet. -/
theorem matchEngines_sends {task task' : RoutingTask}
    (h : (forM (List.finRange kNumSlots) matchEngineOfSlot).run task = .ok ((), task')) :
    task'.slotServer.tx = task.slotServer.tx := by
  have hstep : ∀ (i : Fin kNumSlots) (task₁ task₂ : RoutingTask),
      (matchEngineOfSlot i).run task₁ = .ok ((), task₂) →
      task₁.slotServer.tx = task₂.slotServer.tx := by
    intro i task₁ task₂ hi
    cases hi
    rfl
  exact (forM_rel matchEngineOfSlot (fun task => Eq.refl task.slotServer.tx)
    (fun _ _ _ h₁ h₂ => h₁.trans h₂) hstep _ _ _ h).symm

/-- A dispatch mark sends nothing. -/
theorem markAddressForDispatch_sends {addr : LocoAddr}
    (h : (do let _ ← markAddressForDispatch addr : SlotServerRun Unit).run s = .ok ((), s')) :
    s'.tx = s.tx := by
  obtain ⟨it, s₁, hfind, _, rfl⟩ := markAddressForDispatch_run h
  have heffect := findOrAllocateSlotForAddress_effect s addr
  rw [hfind] at heffect
  cases heffect with
  | found => rfl
  | allocated => rfl

end

/-! ### One event -/

section

variable {task task' : RoutingTask} {e : TaskEvent}

/-- With the same queue nothing was sent. -/
theorem RoutingTask.sent_of_tx_eq (h : task'.slotServer.tx = task.slotServer.tx) :
    task.sent task' = [] := by
  rw [RoutingTask.sent, h, LocoNetTx.accepted_self]

/-- Whoever sends nothing answers by the mode. -/
theorem AnswersByMode.of_silent (h : task.sent task' = []) : AnswersByMode task e task' := by
  refine ⟨fun _ _ => h, ?_, ?_⟩
  · intro _ _ msg hmsg
    rw [h] at hmsg
    cases hmsg
  · intro _ msg hmsg
    rw [h] at hmsg
    cases hmsg

/-- Messages that keep to the rule. -/
theorem AnswersByMode.of_maySend (h : ∀ msg ∈ task.sent task', task.slotServer.MaySend msg) :
    AnswersByMode task e task' := by
  refine ⟨?_, ?_, ?_⟩
  · intro _ hdisabled
    apply List.eq_nil_iff_forall_not_mem.mpr
    intro msg hmsg
    have hactive := LocoNetSlotServer.not_active_of_disabled hdisabled
    rcases h msg hmsg with hyes | ⟨henabled, _⟩
    · rw [hactive] at hyes
      cases hyes
    · rw [hdisabled] at henabled
      cases henabled
  · intro _ hpassive msg hmsg
    have hactive := LocoNetSlotServer.not_active_of_passive hpassive
    rcases h msg hmsg with hyes | ⟨_, hrequest⟩
    · rw [hactive] at hyes
      cases hyes
    · exact hrequest
  · intro _ msg hmsg hanswer
    rcases h msg hmsg with hyes | ⟨_, sr, rfl⟩
    · exact hyes
    · cases hanswer

variable [AddressScheme]

/-- A received message is processed by the slot server. -/
theorem lnReceive_run {m : LnMsg} (h : (TaskEvent.exec (.lnReceive m)).run task = .ok ((), task')) :
    (receiveLn m).run task.slotServer = .ok ((), task'.slotServer) :=
  (onSlotServer_run h).1

/-- A request for slot data keeps to the rule only in active mode, or when the answer is
lost. -/
theorem answersByMode_request {sr : SlotReqMsg}
    (h : (TaskEvent.exec (.lnReceive (.rqSlData sr))).run task = .ok ((), task')) :
    AnswersByMode task (.lnReceive (.rqSlData sr)) task' ↔
      TaskEvent.asksInactive task (.lnReceive (.rqSlData sr)) = false := by
  have hprocess : (process (.rqSlData sr)).run task.slotServer = .ok ((), task'.slotServer) := by
    rw [← lnReceive_run h, receiveLn, run_bind_of_ok (handleDummyMessages_run _ _)]
    rfl
  obtain ⟨sd, htx⟩ := process_rqSlData_sends hprocess
  have hsent : task.sent task'
      = if 0 < task.slotServer.tx.msgBuffer.room then [LnMsg.slRdData sd] else [] := by
    rw [RoutingTask.sent, htx, LocoNetTx.accepted_sendAll_singleton]
  rw [TaskEvent.asksInactive]
  by_cases hroom : 0 < task.slotServer.tx.msgBuffer.room
  · rw [if_pos hroom] at hsent
    cases hactive : task.slotServer.isActive with
    | true =>
        refine iff_of_true (.of_maySend fun _ _ => .inl hactive) ?_
        simp
    -- The answer enters the queue of a server that is not active.
    | false =>
        refine iff_of_false ?_ ?_
        · intro hanswers
          have hmem : LnMsg.slRdData sd ∈ task.sent task' := by
            rw [hsent]
            exact List.mem_singleton_self _
          have hyes := hanswers.answers (fun msg hmsg => nomatch hmsg) _ hmem rfl
          rw [hactive] at hyes
          cases hyes
        · simp [hroom]
  -- A full queue drops the answer, so nothing is sent.
  · rw [if_neg hroom] at hsent
    exact iff_of_true (.of_silent hsent) (by simp [hroom])

/-- One event keeps to the rule exactly when it does not ask an inactive server. -/
theorem answersByMode_step (h : (e.exec).run task = .ok ((), task')) :
    AnswersByMode task e task' ↔ e.asksInactive task = false := by
  cases e with
  | handlePacket effect =>
      cases h
      exact iff_of_true (.of_silent (RoutingTask.sent_of_tx_eq rfl)) rfl
  | lnForward msg =>
      -- The rule says nothing about a message that the CAN library hands over.
      refine iff_of_true ⟨?_, ?_, ?_⟩ rfl
      · intro hcontrols
        cases hcontrols
      · intro hreceived
        cases hreceived
      · intro hne
        exact absurd rfl (hne msg)
  | forwardEngineUpdates =>
      refine iff_of_true ?_ rfl
      rcases run_ifEnabled h with ⟨_, heq⟩ | ⟨henabled, hloop⟩
      · rw [heq]
        exact .of_silent (RoutingTask.sent_of_tx_eq rfl)
      · obtain ⟨msgs, htx, hmsgs⟩ := forwardEngineUpdates_sends hloop
        refine ⟨?_, fun hreceived => (nomatch hreceived), ?_⟩
        -- The loop does not run in a disabled server.
        · intro _ hdisabled
          rw [henabled] at hdisabled
          cases hdisabled
        · intro _ msg hmsg hanswer
          rw [RoutingTask.sent, htx] at hmsg
          rw [hmsgs msg (LocoNetTx.mem_accepted_sendAll hmsg)] at hanswer
          cases hanswer
  | lnReceive msg =>
      by_cases hrequest : ∃ sr, msg = .rqSlData sr
      · obtain ⟨sr, rfl⟩ := hrequest
        exact answersByMode_request h
      · have hne : ∀ sr, msg ≠ .rqSlData sr := fun sr hmsg => hrequest ⟨sr, hmsg⟩
        obtain ⟨msgs, htx, hmay⟩ := receiveLn_sends (lnReceive_run h) hne
        refine iff_of_true (.of_maySend ?_) ?_
        · intro msg' hmsg'
          rw [RoutingTask.sent, htx] at hmsg'
          exact hmay msg' (LocoNetTx.mem_accepted_sendAll hmsg')
        · cases msg with
          | rqSlData sr => exact absurd rfl (hne sr)
          | _ => rfl
  | matchEngines =>
      refine iff_of_true (.of_silent (RoutingTask.sent_of_tx_eq ?_)) rfl
      rcases run_ifEnabled h with ⟨_, heq⟩ | ⟨_, hloop⟩
      · rw [heq]
      · exact matchEngines_sends hloop
  | setSlotServerState state =>
      cases h
      exact iff_of_true (.of_silent (RoutingTask.sent_of_tx_eq rfl)) rfl
  | dispatch addr =>
      have htx := markAddressForDispatch_sends (onSlotServer_run h).1
      exact iff_of_true (.of_silent (RoutingTask.sent_of_tx_eq htx)) rfl
  | blockingSend =>
      cases h
      exact iff_of_true (.of_silent (LocoNetTx.accepted_doBlockingSend _)) rfl

/-! ### Runs -/

/-- A run of the routing task keeps to the rule in every step exactly when no request for
slot data is answered outside active mode. A step that reads behind the table has no state after
it, and is not judged. -/
theorem answersByMode_iff (events : List TaskEvent) (task : RoutingTask) :
    Along TaskEvent.exec AnswersByMode task events ↔
      Along TaskEvent.exec (fun task e _ => e.asksInactive task = false) task events :=
  along_congr TaskEvent.exec (fun _ _ _ hrun => answersByMode_step hrun) events task

end

/-- A passive server that is asked for slot 1 answers like a master. -/
theorem answersByMode_passive_request :
    letI := AddressScheme.upperBits
    let task : RoutingTask :=
      { slotServer := { dataModel := { lnSlotServerState := .passive } } }
    let e : TaskEvent := .lnReceive (.rqSlData { slot := 1 })
    ∃ task', (e.exec).run task = .ok ((), task') ∧
      task.sent task' = [lnSlotDataRead 1 3 {}] ∧
      ¬ Along TaskEvent.exec AnswersByMode task [e] := by
  let _ := AddressScheme.upperBits
  intro task e
  have hrun : (e.exec).run task
      = .ok ((), { task with slotServer := task.slotServer.send [lnSlotDataRead 1 3 {}] }) := rfl
  refine ⟨_, hrun, rfl, ?_⟩
  intro halong
  obtain ⟨hanswers, _⟩ := halong _ hrun
  have hactive : task.slotServer.isActive = true :=
    hanswers.answers (fun msg hmsg => nomatch hmsg) (lnSlotDataRead 1 3 {})
      (List.mem_singleton_self _) rfl
  cases hactive

end C6021Light
