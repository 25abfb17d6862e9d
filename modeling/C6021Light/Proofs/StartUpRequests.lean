import C6021Light.RoutingTask.StateMachines

/-!
# `C6021Light.Proofs.StartUpRequests`: the requests of the state machines are bounded

The invariant of each machine couples its counter to its log: while the machine is not idle,
`tries` is at least the number of requests behind the last reset. Both machines test the
counter in front of a request, so at most ten follow each other (`Lib.RetryLog`). The timer
runs exactly while the machine is not idle.

An expiry that comes while the machine has nothing to repeat stays latched, possibly until a
restart. But a restart latches one itself, and any other step either drops the flag or keeps
it latched. So the run goes on as if there had been no expiry. `StopGoStateMachine.SameRequests`
and `CanEngineDBStateMachine.SameRequests` relate the states of the two runs.
-/

set_option autoImplicit false

namespace C6021Light

open FaultRun RetryLog

/-! ### The Stop/Go machine -/

namespace StopGoStateMachine

variable {machine machine' : StopGoStateMachine}

/-- What every state of the stop/go machine satisfies: the requests since a reset are bounded and
counted by `tries`, and the timer runs exactly outside of IDLE. -/
structure Inv (machine : StopGoStateMachine) : Prop where
  bounded : Bounded kMaxRetries machine.history
  counted : machine.state ≠ .idle → sinceReset machine.history ≤ machine.tries
  timer : machine.timerRunning = true ↔ machine.state ≠ .idle

/-- A machine that was just constructed has the invariant, whatever `tries` holds. -/
theorem inv_start (tries : Nat) : Inv { tries := tries } :=
  ⟨.nil _, fun h => absurd rfl h, iff_of_false Bool.false_ne_true fun h => h rfl⟩

/-- A restart opens a new part of the history, so the bound holds for it. -/
theorem Inv.startRequesting (h : machine.Inv) : machine.startRequesting.Inv where
  bounded := h.bounded.append_reset
  counted _ := (sinceReset_append_reset _).le
  timer := iff_of_true rfl fun h => StopGoState.noConfusion h

/-- Stopping asks nothing and stops the timer. -/
theorem Inv.stopRequesting (h : machine.Inv) : machine.stopRequesting.Inv where
  bounded := h.bounded
  counted hstate := absurd rfl hstate
  timer := iff_of_false Bool.false_ne_true fun hstate => hstate rfl

/-- An expiry either asks once more, with `tries` counted up, or gives up. -/
theorem Inv.handleTimer (h : machine.Inv) : machine.handleTimer.Inv := by
  rw [StopGoStateMachine.handleTimer]
  split
  · rename_i hstate
    have hne : machine.state ≠ .idle := by
      rw [hstate]
      decide
    split
    · rename_i htries
      have hcounted := h.counted hne
      refine ⟨h.bounded.append_attempt (lt_of_le_of_lt hcounted htries), fun _ => ?_, h.timer⟩
      show sinceReset (machine.history ++ [.attempt]) ≤ machine.tries + 1
      rw [sinceReset_append_attempt]
      exact Nat.succ_le_succ hcounted
    · exact h.stopRequesting
  · exact h

/-- The loop handles a latched expiry or does nothing. -/
theorem Inv.loop (h : machine.Inv) : machine.loop.Inv := by
  rw [StopGoStateMachine.loop]
  split
  · exact ⟨h.handleTimer.bounded, h.handleTimer.counted, h.handleTimer.timer⟩
  · exact h

/-- A status message stops the requests. -/
theorem Inv.notifyStatusMessageReceived (h : machine.Inv) :
    machine.notifyStatusMessageReceived.Inv := by
  rw [StopGoStateMachine.notifyStatusMessageReceived]
  split
  · exact h.stopRequesting
  · exact h

/-- A packet does no more than notify a status message. -/
theorem Inv.handlePacket (h : machine.Inv) (frame : PacketInfo) :
    (machine.handlePacket frame).Inv := by
  rw [StopGoStateMachine.handlePacket]
  split
  · split
    · exact h.notifyStatusMessageReceived
    · exact h
  · exact h

/-- A packet makes the machine send nothing. -/
theorem history_handlePacket (frame : PacketInfo) :
    (machine.handlePacket frame).history = machine.history := by
  rw [StopGoStateMachine.handlePacket, notifyStatusMessageReceived]
  split
  · split
    · split <;> rfl
    · rfl
  · rfl

/-- The machine can only differ by an expiry that came while it was idle. -/
def SameRequests (machine machine' : StopGoStateMachine) : Prop :=
  machine' = machine ∨
    machine.state = .idle ∧ ∃ expired, machine' = { machine with timerExpired := expired }

/-- Machines with the same requests have the same history. -/
theorem SameRequests.history (h : SameRequests machine machine') :
    machine'.history = machine.history := by
  rcases h with rfl | ⟨_, expired, rfl⟩ <;> rfl

/-- Restarting keeps two machines together. -/
theorem SameRequests.startRequesting (h : SameRequests machine machine') :
    SameRequests machine.startRequesting machine'.startRequesting := by
  -- The restart latches the flag in both.
  rcases h with rfl | ⟨_, expired, rfl⟩ <;> exact .inl rfl

/-- The timer callback latches the expiry in both machines. -/
theorem SameRequests.timerCallback (h : SameRequests machine machine') :
    SameRequests { machine with toStateMachineBase := machine.timerCallback }
      { machine' with toStateMachineBase := machine'.timerCallback } := by
  rcases h with rfl | ⟨_, expired, rfl⟩ <;> exact .inl rfl

/-- In IDLE the loop only clears the latched expiry. -/
theorem loop_of_idle (h : machine.state = .idle) :
    machine.loop = { machine with timerExpired := false } := by
  have hhandle : machine.handleTimer = machine := by
    rw [handleTimer, h]
  rw [loop, hhandle]
  split
  · rfl
  · rename_i hexpired
    rw [← eq_false_of_ne_true hexpired]

/-- The loop keeps two machines together, also where only one of them has a latched expiry. -/
theorem SameRequests.loop (h : SameRequests machine machine') :
    SameRequests machine.loop machine'.loop := by
  rcases h with rfl | ⟨hidle, expired, rfl⟩
  · exact .inl rfl
  · -- `loop` drops the flag in both.
    refine .inl ?_
    have hidle' : ({ machine with timerExpired := expired } : StopGoStateMachine).state = .idle :=
      hidle
    rw [loop_of_idle hidle, loop_of_idle hidle']

/-- In IDLE no packet changes the machine. -/
theorem handlePacket_of_idle (h : machine.state = .idle) (frame : PacketInfo) :
    machine.handlePacket frame = machine := by
  have hnotify : machine.notifyStatusMessageReceived = machine :=
    if_neg fun hne => hne h
  rw [handlePacket, hnotify]
  split
  · split <;> rfl
  · rfl

/-- A packet keeps two machines together. -/
theorem SameRequests.handlePacket (h : SameRequests machine machine') (frame : PacketInfo) :
    SameRequests (machine.handlePacket frame) (machine'.handlePacket frame) := by
  rcases h with rfl | ⟨hidle, expired, rfl⟩
  · exact .inl rfl
  · have hidle' : ({ machine with timerExpired := expired } : StopGoStateMachine).state = .idle :=
      hidle
    rw [handlePacket_of_idle hidle, handlePacket_of_idle hidle']
    exact .inr ⟨hidle, expired, rfl⟩

end StopGoStateMachine

/-! ### The download machine -/

namespace CanEngineDBStateMachine

variable {machine machine' : CanEngineDBStateMachine}

/-- The same for the engine database machine, where only the requests made in REQUESTING are
counted. -/
structure Inv (machine : CanEngineDBStateMachine) : Prop where
  bounded : Bounded kMaxDownloadTries machine.history
  counted : machine.requestState = .requesting → sinceReset machine.history ≤ machine.tries
  timer : machine.timerRunning = true ↔ machine.requestState ≠ .idle

/-- A machine that was just constructed has the invariant. -/
theorem inv_start : Inv {} :=
  ⟨.nil _, fun h => RequestState.noConfusion h,
    iff_of_false Bool.false_ne_true fun h => h rfl⟩

/-- The invariant does not read the database. -/
theorem Inv.withEngineDb (h : machine.Inv) (engineDb : EngineDownload) :
    Inv { machine with engineDb := engineDb } :=
  ⟨h.bounded, h.counted, h.timer⟩

/-- A restart opens a new part of the history. -/
theorem Inv.startRequesting (h : machine.Inv) : machine.startRequesting.Inv := by
  rw [CanEngineDBStateMachine.startRequesting]
  split
  · exact ⟨h.bounded.append_reset, fun _ => (sinceReset_append_reset _).le,
      iff_of_true rfl fun h => RequestState.noConfusion h⟩
  · exact ⟨h.bounded.append_reset, fun _ => (sinceReset_append_reset _).le,
      iff_of_true rfl fun h => RequestState.noConfusion h⟩

/-- Stopping asks nothing and stops the timer. -/
theorem Inv.stopRequesting (h : machine.Inv) : machine.stopRequesting.Inv :=
  ⟨h.bounded, fun hstate => RequestState.noConfusion hstate,
    iff_of_false Bool.false_ne_true fun hstate => hstate rfl⟩

/-- An expiry starts over, asks once more with `tries` counted up, or gives up. -/
theorem Inv.handleTimer (h : machine.Inv) : machine.handleTimer.Inv := by
  rw [CanEngineDBStateMachine.handleTimer]
  split
  · rename_i hstate
    split
    · exact h.startRequesting
    · split
      -- The tries of the protocol phase are not requests.
      · refine ⟨h.bounded, fun hrequesting => ?_, h.timer⟩
        exact RequestState.noConfusion (hstate.symm.trans hrequesting)
      · exact h.stopRequesting
  · rename_i hstate
    split
    · rename_i htries
      have hcounted := h.counted hstate
      refine ⟨h.bounded.append_attempt (lt_of_le_of_lt hcounted htries), fun _ => ?_, h.timer⟩
      show sinceReset (machine.history ++ [.attempt]) ≤ machine.tries + 1
      rw [sinceReset_append_attempt]
      exact Nat.succ_le_succ hcounted
    · exact h.stopRequesting
  · exact h
  · exact h

/-- The loop handles a latched expiry or does nothing. -/
theorem Inv.loop (h : machine.Inv) : machine.loop.Inv := by
  rw [CanEngineDBStateMachine.loop]
  split
  · exact ⟨h.handleTimer.bounded, h.handleTimer.counted, h.handleTimer.timer⟩
  · exact h

/-- A packet changes the state only between the two states in which the timer runs. -/
theorem Inv.handlePacket (h : machine.Inv) (frame : PacketInfo) :
    (machine.handlePacket frame).Inv := by
  rw [CanEngineDBStateMachine.handlePacket]
  split
  · rename_i hstream
    rw [Bool.and_eq_true, isIdle, Bool.not_eq_true', decide_eq_false_iff_not] at hstream
    exact ⟨h.bounded, fun hstate => RequestState.noConfusion hstate,
      iff_of_true (h.timer.mpr hstream.1) fun hstate => RequestState.noConfusion hstate⟩
  · exact h

/-- The end of a download goes back to IDLE or asks for nothing. -/
theorem Inv.notifyEngineDBComplete (h : machine.Inv) : machine.notifyEngineDBComplete.Inv := by
  rw [CanEngineDBStateMachine.notifyEngineDBComplete]
  split
  · exact h.stopRequesting
  · exact h

/-- The machine repeats no request. -/
def Waits (machine : CanEngineDBStateMachine) : Prop :=
  machine.requestState = .idle ∨ machine.requestState = .downloading

/-- The machine can only differ by an expiry that came while it had nothing to repeat. -/
def SameRequests (machine machine' : CanEngineDBStateMachine) : Prop :=
  machine' = machine ∨
    machine.Waits ∧ ∃ expired, machine' = { machine with timerExpired := expired }

/-- What an observer sees of two machines with the same requests is the same. -/
theorem SameRequests.observed (h : SameRequests machine machine') :
    machine'.history = machine.history ∧ machine'.engineDb = machine.engineDb := by
  rcases h with rfl | ⟨_, expired, rfl⟩ <;> exact ⟨rfl, rfl⟩

/-- A step of the database that both machines see keeps them together. -/
theorem SameRequests.withEngineDb (h : SameRequests machine machine')
    (engineDb : EngineDownload) :
    SameRequests { machine with engineDb := engineDb } { machine' with engineDb := engineDb } := by
  rcases h with rfl | ⟨hwaits, expired, rfl⟩
  · exact .inl rfl
  · exact .inr ⟨hwaits, expired, rfl⟩

/-- Restarting keeps two machines together. -/
theorem SameRequests.startRequesting (h : SameRequests machine machine') :
    SameRequests machine.startRequesting machine'.startRequesting := by
  -- The restart latches the flag in both.
  rcases h with rfl | ⟨_, expired, rfl⟩
  · exact .inl rfl
  · refine .inl ?_
    rw [CanEngineDBStateMachine.startRequesting, CanEngineDBStateMachine.startRequesting]
    split <;> rfl

/-- The timer callback latches the expiry in both machines. -/
theorem SameRequests.timerCallback (h : SameRequests machine machine') :
    SameRequests { machine with toStateMachineBase := machine.timerCallback }
      { machine' with toStateMachineBase := machine'.timerCallback } := by
  rcases h with rfl | ⟨_, expired, rfl⟩ <;> exact .inl rfl

/-- While the machine waits, the loop only clears the latched expiry. -/
theorem loop_of_waits (h : machine.Waits) :
    machine.loop = { machine with timerExpired := false } := by
  have hhandle : machine.handleTimer = machine := by
    rcases h with h | h <;> rw [handleTimer, h]
  rw [loop, hhandle]
  split
  · rfl
  · rename_i hexpired
    rw [← eq_false_of_ne_true hexpired]

/-- The loop keeps two machines together, also where only one of them has a latched expiry. -/
theorem SameRequests.loop (h : SameRequests machine machine') :
    SameRequests machine.loop machine'.loop := by
  rcases h with rfl | ⟨hwaits, expired, rfl⟩
  · exact .inl rfl
  · -- `loop` drops the flag in both.
    refine .inl ?_
    have hwaits' : ({ machine with timerExpired := expired } : CanEngineDBStateMachine).Waits :=
      hwaits
    rw [loop_of_waits hwaits, loop_of_waits hwaits']

/-- A packet keeps two machines together. -/
theorem SameRequests.handlePacket (h : SameRequests machine machine') (frame : PacketInfo) :
    SameRequests (machine.handlePacket frame) (machine'.handlePacket frame) := by
  rcases h with rfl | ⟨hwaits, expired, rfl⟩
  · exact .inl rfl
  · rw [CanEngineDBStateMachine.handlePacket, CanEngineDBStateMachine.handlePacket]
    show SameRequests (if !machine.isIdle && isFirstPacketInConfigDataStream frame then _ else _)
      (if !machine.isIdle && isFirstPacketInConfigDataStream frame then _ else _)
    split
    · exact .inr ⟨.inr rfl, expired, rfl⟩
    · exact .inr ⟨hwaits, expired, rfl⟩

/-- The end of a download keeps two machines together. -/
theorem SameRequests.notifyEngineDBComplete (h : SameRequests machine machine') :
    SameRequests machine.notifyEngineDBComplete machine'.notifyEngineDBComplete := by
  rcases h with rfl | ⟨hwaits, expired, rfl⟩
  · exact .inl rfl
  · rw [CanEngineDBStateMachine.notifyEngineDBComplete,
      CanEngineDBStateMachine.notifyEngineDBComplete]
    show SameRequests (if !machine.isIdle then _ else _) (if !machine.isIdle then _ else _)
    split
    · exact .inr ⟨.inl rfl, expired, rfl⟩
    · exact .inr ⟨hwaits, expired, rfl⟩

end CanEngineDBStateMachine

/-! ### Both machines -/

namespace StateMachines

variable {s s' : StateMachines}

/-- A program of the engine database, run in the system. -/
theorem onEngineDb_run (program : DownloadRun Unit) (s : StateMachines) :
    (onEngineDb program).run s = (program.run s.canEngineDBStateM.engineDb).map fun r =>
      ((), { s with
        canEngineDBStateM := { s.canEngineDBStateM with engineDb := r.2 } }) := by
  rw [onEngineDb, run_get_bind]
  cases program.run s.canEngineDBStateM.engineDb <;> rfl

/-- A call to the database that returns changes nothing but the database. -/
theorem onEngineDb_run_eq_ok {program : DownloadRun Unit}
    (h : (onEngineDb program).run s = .ok ((), s')) :
    ∃ engineDb, program.run s.canEngineDBStateM.engineDb = .ok ((), engineDb) ∧
      s' = { s with canEngineDBStateM := { s.canEngineDBStateM with engineDb := engineDb } } := by
  rw [onEngineDb_run] at h
  cases hrun : program.run s.canEngineDBStateM.engineDb with
  | error e =>
      rw [hrun] at h
      cases h
  | ok r =>
      rw [hrun] at h
      cases h
      exact ⟨r.2, rfl, rfl⟩

/-- Both machines have their invariants. -/
structure Inv (machines : StateMachines) : Prop where
  stopGo : machines.stopGoStateM.Inv
  canEngineDB : machines.canEngineDBStateM.Inv

/-- The invariants hold at start-up. -/
theorem inv_start (tries : Nat) : (start tries).Inv :=
  ⟨StopGoStateMachine.inv_start tries, CanEngineDBStateMachine.inv_start⟩

/-- A call to the database touches neither history. -/
theorem Inv.onEngineDb (h : s.Inv) {program : DownloadRun Unit}
    (hrun : (C6021Light.onEngineDb program).run s = .ok ((), s')) : s'.Inv := by
  obtain ⟨engineDb, _, rfl⟩ := onEngineDb_run_eq_ok hrun
  exact ⟨h.stopGo, h.canEngineDB.withEngineDb engineDb⟩

/-- Every event keeps the invariants. -/
theorem Inv.step (h : s.Inv) (event : MachineEvent) (hrun : event.exec.run s = .ok ((), s')) :
    s'.Inv := by
  cases event with
  | startRequestingStopGo => cases hrun; exact ⟨h.stopGo.startRequesting, h.canEngineDB⟩
  | startRequestingEngineDB => cases hrun; exact ⟨h.stopGo, h.canEngineDB.startRequesting⟩
  | stopGoTimerCallback =>
      cases hrun
      exact ⟨⟨h.stopGo.bounded, h.stopGo.counted, h.stopGo.timer⟩, h.canEngineDB⟩
  | canEngineDBTimerCallback =>
      cases hrun
      exact ⟨h.stopGo, h.canEngineDB.bounded, h.canEngineDB.counted, h.canEngineDB.timer⟩
  | stopGoLoop => cases hrun; exact ⟨h.stopGo.loop, h.canEngineDB⟩
  | notifyEngineDBComplete =>
      cases hrun
      exact ⟨h.stopGo, h.canEngineDB.notifyEngineDBComplete⟩
  | canEngineDBLoop => cases hrun; exact ⟨h.stopGo, h.canEngineDB.loop⟩
  | handlePacket frame =>
      cases hrun
      exact ⟨h.stopGo.handlePacket frame, h.canEngineDB.handlePacket frame⟩
  | database event => exact h.onEngineDb hrun
  | downloadEngines => exact h.onEngineDb hrun

/-- What the requests of the machines depend on is the same. -/
structure SameRequests (s s' : StateMachines) : Prop where
  stopGo : s.stopGoStateM.SameRequests s'.stopGoStateM
  canEngineDB : s.canEngineDBStateM.SameRequests s'.canEngineDBStateM

/-- The requests so far, and the database with what it has sent. -/
def sent (machines : StateMachines) : List Mark × List Mark × EngineDownload :=
  (machines.stopGoStateM.history, machines.canEngineDBStateM.history,
    machines.canEngineDBStateM.engineDb)

/-- The same messages were sent in both runs. -/
theorem SameRequests.sent (h : SameRequests s s') : s.sent = s'.sent := by
  obtain ⟨hhistory, hdb⟩ := h.canEngineDB.observed
  rw [StateMachines.sent, StateMachines.sent, h.stopGo.history, hhistory, hdb]

/-- A call to the database ends the same way in both runs. -/
theorem SameRequests.onEngineDb (h : SameRequests s s') (program : DownloadRun Unit) :
    (∃ t t', (C6021Light.onEngineDb program).run s = .ok ((), t) ∧
      (C6021Light.onEngineDb program).run s' = .ok ((), t') ∧ SameRequests t t') ∨
    ∃ fault, (C6021Light.onEngineDb program).run s = .error fault ∧
      (C6021Light.onEngineDb program).run s' = .error fault := by
  rw [onEngineDb_run, onEngineDb_run, h.canEngineDB.observed.2]
  cases program.run s.canEngineDBStateM.engineDb with
  | error fault => exact .inr ⟨fault, rfl, rfl⟩
  | ok r => exact .inl ⟨_, _, rfl, rfl, h.stopGo, h.canEngineDB.withEngineDb r.2⟩

/-- Every event ends the same way in both runs and keeps them together. -/
theorem SameRequests.step (event : MachineEvent) (s s' : StateMachines)
    (h : SameRequests s s') :
    (∃ t t', event.exec.run s = .ok ((), t) ∧ event.exec.run s' = .ok ((), t') ∧
      SameRequests t t') ∨
    ∃ fault, event.exec.run s = .error fault ∧ event.exec.run s' = .error fault := by
  cases event with
  | startRequestingStopGo => exact .inl ⟨_, _, rfl, rfl, h.stopGo.startRequesting, h.canEngineDB⟩
  | startRequestingEngineDB => exact .inl ⟨_, _, rfl, rfl, h.stopGo, h.canEngineDB.startRequesting⟩
  | stopGoTimerCallback => exact .inl ⟨_, _, rfl, rfl, h.stopGo.timerCallback, h.canEngineDB⟩
  | canEngineDBTimerCallback =>
      exact .inl ⟨_, _, rfl, rfl, h.stopGo, h.canEngineDB.timerCallback⟩
  | stopGoLoop => exact .inl ⟨_, _, rfl, rfl, h.stopGo.loop, h.canEngineDB⟩
  | notifyEngineDBComplete =>
      exact .inl ⟨_, _, rfl, rfl, h.stopGo, h.canEngineDB.notifyEngineDBComplete⟩
  | canEngineDBLoop => exact .inl ⟨_, _, rfl, rfl, h.stopGo, h.canEngineDB.loop⟩
  | handlePacket frame =>
      exact .inl ⟨_, _, rfl, rfl, h.stopGo.handlePacket frame, h.canEngineDB.handlePacket frame⟩
  | database event => exact h.onEngineDb _
  | downloadEngines => exact h.onEngineDb _

end StateMachines

end C6021Light
