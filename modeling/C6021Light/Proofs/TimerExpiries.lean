import C6021Light.RoutingTask.LoopSteps

/-!
# `C6021Light.Proofs.TimerExpiries`: expiries that come during `loop`

`loop` clears `timerExpired_` behind the handler. So an expiry that is latched between test and
clear is dropped: a `TimerCallback` of the timer task, and in the download machine also the one
of a restart. `Lib.LatchedFlag` shows that no other expiry is.

The restart is no rare case. The machine leaves `requestingProtocol` through it only, so the
first `fetchEngineDB` always waits for one more period of the timer (`loop_loop_of_restarts`).
-/

set_option autoImplicit false

namespace C6021Light

open FaultRun LatchedFlag

/-- Behind every step an expiry since the last test is still latched, unless `loop` is running,
and a call of `loop` that finds one handles it. -/
abbrev ExpiriesKept {σ ε : Type} (steps : Poll σ ε) (machine : σ) (es : List (PollEvent ε)) :
    Prop :=
  Along (total steps.exec) (fun s e s' => steps.Kept s' ∧ Poll.Handles s e s')
    { component := machine } es

/-- No step latches an expiry between test and clear. -/
abbrev LatchedOutside {σ ε : Type} (steps : Poll σ ε) (machine : σ) (es : List (PollEvent ε)) :
    Prop :=
  Along (total steps.exec) steps.Quiet { component := machine } es

/-- `loop` is not running at the end. -/
abbrev EndsOutside {σ ε : Type} (steps : Poll σ ε) (machine : σ) (es : List (PollEvent ε)) :
    Prop :=
  (es.foldl steps.exec { component := machine }).position = .idle

/-- When no step latches an expiry inside `loop`, all are kept. -/
theorem expiriesKept_of_latchedOutside {σ ε : Type} {steps : Poll σ ε} {machine : σ}
    {es : List (PollEvent ε)} (h : LatchedOutside steps machine es) :
    ExpiriesKept steps machine es :=
  Poll.kept_of_quiet es _ ⟨fun _ hunhandled => absurd hunhandled Bool.false_ne_true,
    fun hne => absurd rfl hne⟩ h

/-- When all are kept up to an end outside `loop`, no step latched one inside. -/
theorem latchedOutside_of_expiriesKept {σ ε : Type} {steps : Poll σ ε} {machine : σ}
    {es : List (PollEvent ε)} (hend : EndsOutside steps machine es)
    (h : ExpiriesKept steps machine es) : LatchedOutside steps machine es :=
  Poll.quiet_of_kept es _ hend (along_mono _ (fun _ _ _ h => h.1) es _ h)

open CanEngineDBStateMachine in
/-- The call of `loop` that leaves `requestingProtocol` drops the expiry of the restart, and the
next one does nothing. -/
theorem loop_loop_of_restarts {machine : CanEngineDBStateMachine}
    (hexpired : machine.timerExpired = true) (hrestarts : machine.restarts = true) :
    machine.loop.requestState = .requesting ∧ machine.loop.loop = machine.loop := by
  rw [restarts, Bool.and_eq_true, decide_eq_true_eq, decide_eq_true_eq] at hrestarts
  obtain ⟨hstate, hknown⟩ := hrestarts
  have hloop : machine.loop = { machine.startRequestingEngineDB with timerExpired := false } := by
    rw [loop, if_pos hexpired]
    simp only [handleTimer, hstate, startRequesting, if_pos hknown, if_neg hknown]
  rw [hloop]
  exact ⟨rfl, rfl⟩

/-- For both machines: a run that latches no expiry between test and clear loses none. A run that
loses none latches none there, unless it ends in `loop`. The restart of the download machine
always loses its expiry, and the next call of `loop` does not fetch the database. -/
theorem timerExpiries_kept (stopGo : StopGoStateMachine)
    (stopGoEvents : List (PollEvent StopGoCall)) (download : CanEngineDBStateMachine)
    (downloadEvents : List (PollEvent CanEngineDBCall)) :
    let stopGoSteps := StopGoStateMachine.loopSteps
    let downloadSteps := CanEngineDBStateMachine.loopSteps
    ((LatchedOutside stopGoSteps stopGo stopGoEvents →
          ExpiriesKept stopGoSteps stopGo stopGoEvents) ∧
        (EndsOutside stopGoSteps stopGo stopGoEvents →
          ExpiriesKept stopGoSteps stopGo stopGoEvents →
            LatchedOutside stopGoSteps stopGo stopGoEvents)) ∧
      ((LatchedOutside downloadSteps download downloadEvents →
          ExpiriesKept downloadSteps download downloadEvents) ∧
        (EndsOutside downloadSteps download downloadEvents →
          ExpiriesKept downloadSteps download downloadEvents →
            LatchedOutside downloadSteps download downloadEvents)) ∧
      (download.timerExpired = true → download.restarts = true →
        download.loop.requestState = .requesting ∧ download.loop.loop = download.loop) :=
  ⟨⟨expiriesKept_of_latchedOutside, latchedOutside_of_expiriesKept⟩,
    ⟨expiriesKept_of_latchedOutside, latchedOutside_of_expiriesKept⟩,
    loop_loop_of_restarts⟩

/-- Two expiries of the Stop/Go machine, the second one right behind the call that handles the
first. -/
theorem timerExpiries_kept_outside :
    ExpiriesKept StopGoStateMachine.loopSteps { tries := 0 }
      [.other .startRequesting, .poll, .poll, .poll, .other .timerCallback, .poll] := by
  refine (timerExpiries_kept _ _ {} []).1.1 ?_
  refine along_total_cons.mpr ⟨fun hne => absurd rfl hne, ?_⟩
  refine along_total_cons.mpr ⟨fun _ => rfl, ?_⟩
  refine along_total_cons.mpr ⟨fun _ => rfl, ?_⟩
  refine along_total_cons.mpr ⟨fun _ => rfl, ?_⟩
  refine along_total_cons.mpr ⟨fun hne => absurd rfl hne, ?_⟩
  exact along_total_cons.mpr ⟨fun _ => rfl, trivial⟩

/-- A callback behind the test of the Stop/Go machine, and a restart of the download machine. -/
theorem timerExpiries_dropped :
    ¬ ExpiriesKept StopGoStateMachine.loopSteps { tries := 0 }
      [.other .startRequesting, .poll, .other .timerCallback, .poll, .poll] ∧
    ¬ ExpiriesKept CanEngineDBStateMachine.loopSteps {}
      [.other .startRequesting,
        .other (.changeEngineDb (({} : EngineDownload).setDownloadProtocol .loknamen)),
        .poll, .poll, .poll] := by
  refine ⟨fun h => ?_, fun h => ?_⟩
  · obtain ⟨⟨hkept, -⟩, -⟩ := ((((h _ rfl).2 _ rfl).2 _ rfl).2 _ rfl).2 _ rfl
    exact Bool.false_ne_true (hkept rfl rfl)
  · obtain ⟨⟨hkept, -⟩, -⟩ := ((((h _ rfl).2 _ rfl).2 _ rfl).2 _ rfl).2 _ rfl
    exact Bool.false_ne_true (hkept rfl rfl)

end C6021Light
