import C6021Light.Hal.StopGo
import C6021Light.Lib.FaultRun

/-!
# `C6021Light.Proofs.StopGoReports`: button presses between interrupt and task

`getStopGoRequest` copies the flags and then resets them. An edge between the two statements
raises a flag that the copy may not have, and the reset clears it.

`EdgeKept` is the condition that excludes this. Under it the flags are those of the copy when
the reset comes (`CopyIsCurrent`), so the two statements are as good as one. Then each accepted
edge is reported by one of the next two calls that return. The first of them can be a call that
has its copy already.
-/

set_option autoImplicit false

namespace C6021Light

open FaultRun

namespace Buttons

/-- An edge that is accepted between copy and reset has its flag in the copy. -/
def EdgeKept (buttons : Buttons) (event : ButtonEvent) (_ : Buttons) : Prop :=
  ∀ button request, buttons.position = .copied request →
    buttons.accepts button event = true → request.flag button = true

/-- A flag is cleared only by a call that returns it. -/
def ClearedByReport (buttons : Buttons) (event : ButtonEvent) (buttons' : Buttons) : Prop :=
  ∀ button, buttons.stopGoRequest.flag button = true →
    buttons'.stopGoRequest.flag button = false →
    event = .getStopGoRequest ∧
      ∃ request, buttons'.position = .cleared request ∧ request.flag button = true

/-- Between copy and reset the flags are those of the copy. -/
def CopyIsCurrent (buttons : Buttons) : Prop :=
  ∀ request, buttons.position = .copied request →
    ∀ button, buttons.stopGoRequest.flag button = request.flag button

/-- One of the next `n` calls that return reports the flag. -/
def DueWithin (button : Button) (n : Nat) (buttons : Buttons) : Prop :=
  (buttons.HasCopied button ∧ 1 ≤ n) ∨
    (buttons.stopGoRequest.flag button = true ∧
      (if buttons.position = .outside then 1 else 2) ≤ n)

variable {buttons : Buttons} {button : Button} {event : ButtonEvent}

/-! ### One step -/

/-- What an interrupt does: it raises the flag of an accepted edge. -/
theorem step_interrupt (buttons : Buttons) (h : event ≠ .getStopGoRequest) :
    (buttons.step event).position = buttons.position ∧
      (buttons.step event).reports = buttons.reports ∧
      ∀ button, (buttons.step event).stopGoRequest.flag button
        = (buttons.stopGoRequest.flag button || buttons.accepts button event) := by
  cases event with
  | exti4Isr now later =>
      refine ⟨rfl, rfl, fun button => ?_⟩
      simp only [step, exti4Isr, accepts, Debounce.addEdge_accepted]
      cases buttons.stopLine.isCooldownActive now <;> cases button <;>
        simp [StopGoRequest.flag]
  | exti15Isr now later =>
      refine ⟨rfl, rfl, fun button => ?_⟩
      simp only [step, exti15Isr, accepts, Debounce.addEdge_accepted]
      cases buttons.goLine.isCooldownActive now <;> cases button <;>
        simp [StopGoRequest.flag]
  | getStopGoRequest => exact absurd rfl h

/-- An interrupt leaves every raised flag alone. -/
theorem flag_step_interrupt (h : event ≠ .getStopGoRequest)
    (hflag : buttons.stopGoRequest.flag button = true) :
    (buttons.step event).stopGoRequest.flag button = true := by
  rw [(step_interrupt buttons h).2.2, hflag, Bool.true_or]

/-- Edges come from interrupts only. -/
theorem ne_getStopGoRequest_of_accepts (h : buttons.accepts button event = true) :
    event ≠ .getStopGoRequest := by
  rintro rfl
  exact Bool.false_ne_true h

/-- A step keeps the copy current when no edge is lost. -/
theorem copyIsCurrent_step (hcopy : buttons.CopyIsCurrent)
    (hkept : buttons.EdgeKept event (buttons.step event)) :
    (buttons.step event).CopyIsCurrent := by
  by_cases htask : event = .getStopGoRequest
  · subst htask
    intro request hposition
    simp only [step, getStopGoRequest] at hposition ⊢
    split at hposition <;> cases hposition
    intro button
    rfl
  · obtain ⟨hsame, -, hflags⟩ := step_interrupt buttons htask
    intro request hposition button
    rw [hsame] at hposition
    rw [hflags, hcopy request hposition]
    cases haccepts : buttons.accepts button event with
    | false => exact Bool.or_false _
    | true => rw [hkept button request hposition haccepts, Bool.or_true]

/-- The reset clears what the copy has. -/
theorem clearedByReport_step (hcopy : buttons.CopyIsCurrent) :
    buttons.ClearedByReport event (buttons.step event) := by
  intro button hset hcleared
  by_cases htask : event = .getStopGoRequest
  · subst htask
    refine ⟨rfl, ?_⟩
    simp only [step, getStopGoRequest] at hcleared ⊢
    split at hcleared
    · exact absurd hset (ne_true_of_eq_false hcleared)
    · rename_i request hposition
      exact ⟨request, rfl, hcopy request hposition button ▸ hset⟩
    · exact absurd hset (ne_true_of_eq_false hcleared)
  · exact absurd (flag_step_interrupt htask hset) (ne_true_of_eq_false hcleared)

/-- Reports are only added. -/
theorem exists_reports_step (buttons : Buttons) (event : ButtonEvent) :
    ∃ reports, (buttons.step event).reports = buttons.reports ++ reports := by
  by_cases htask : event = .getStopGoRequest
  · subst htask
    rw [step, getStopGoRequest]
    split
    · exact ⟨[], (List.append_nil _).symm⟩
    · exact ⟨[], (List.append_nil _).symm⟩
    · exact ⟨_, rfl⟩
  · exact ⟨[], (step_interrupt buttons htask).2.1.trans (List.append_nil _).symm⟩

/-- A step reports the flag, or brings its report closer. -/
theorem dueWithin_step {n : Nat} (hcopy : buttons.CopyIsCurrent)
    (hdue : DueWithin button (n + 1) buttons) :
    ((buttons.step event).reports = buttons.reports ∧
        DueWithin button (n + 1) (buttons.step event)) ∨
      ∃ request, (buttons.step event).reports = buttons.reports ++ [request] ∧
        (request.flag button = true ∨ DueWithin button n (buttons.step event)) := by
  by_cases htask : event = .getStopGoRequest
  · subst htask
    simp only [step, getStopGoRequest]
    split
    · rename_i hposition
      -- The call copies the flags.
      refine .inl ⟨rfl, .inl ⟨⟨_, rfl, ?_⟩, Nat.le_add_left 1 n⟩⟩
      rcases hdue with ⟨⟨request, hrequest, -⟩, -⟩ | ⟨hflag, -⟩
      · rw [hposition] at hrequest
        cases hrequest
      · exact hflag
    · rename_i request hposition
      -- The reset leaves the copy alone, and the copy has the flag.
      refine .inl ⟨rfl, .inl ⟨⟨request, rfl, ?_⟩, Nat.le_add_left 1 n⟩⟩
      rcases hdue with ⟨⟨copy, hcopied, hflag⟩, -⟩ | ⟨hflag, -⟩
      · rw [hposition] at hcopied
        cases hcopied
        exact hflag
      · exact hcopy request hposition button ▸ hflag
    · rename_i request hposition
      -- The call returns. A flag that came after the reset is for the next call.
      refine .inr ⟨request, rfl, ?_⟩
      rcases hdue with ⟨⟨copy, hcopied, hflag⟩, -⟩ | ⟨hflag, hn⟩
      · rw [hposition] at hcopied
        cases hcopied
        exact .inl hflag
      · rw [if_neg (fun h => CallPosition.noConfusion (hposition.symm.trans h))] at hn
        exact .inr (.inr ⟨hflag, by rw [if_pos rfl]; omega⟩)
  · obtain ⟨hposition, hreports, -⟩ := step_interrupt buttons htask
    refine .inl ⟨hreports, ?_⟩
    rcases hdue with ⟨⟨request, hcopied, hflag⟩, hn⟩ | ⟨hflag, hn⟩
    · exact .inl ⟨⟨request, hposition ▸ hcopied, hflag⟩, hn⟩
    · exact .inr ⟨flag_step_interrupt htask hflag, hposition ▸ hn⟩

/-! ### Runs -/

/-- Reports are only added. -/
theorem exists_reports (events : List ButtonEvent) :
    ∀ buttons : Buttons,
      ∃ reports, (events.foldl step buttons).reports = buttons.reports ++ reports := by
  induction events with
  | nil => exact fun buttons => ⟨[], (List.append_nil _).symm⟩
  | cons event events ih =>
      intro buttons
      obtain ⟨later, hlater⟩ := ih (buttons.step event)
      obtain ⟨now, hnow⟩ := exists_reports_step buttons event
      exact ⟨now ++ later, by rw [List.foldl_cons, hlater, hnow, List.append_assoc]⟩

/-- A flag that is due is reported in time, or still due. -/
theorem reported_of_dueWithin :
    ∀ (events : List ButtonEvent) (n : Nat) (buttons : Buttons), buttons.CopyIsCurrent →
      Along (total step) EdgeKept buttons events → DueWithin button n buttons →
      ∃ reports, (events.foldl step buttons).reports = buttons.reports ++ reports ∧
        ((∃ request ∈ reports.take n, request.flag button = true) ∨
          reports.length < n ∧
            DueWithin button (n - reports.length) (events.foldl step buttons)) := by
  intro events
  -- The induction is on the events, with the reports that are left for the edge.
  induction events with
  | nil =>
      intro n buttons _ _ hdue
      refine ⟨[], (List.append_nil _).symm, .inr ⟨?_, hdue⟩⟩
      rcases hdue with ⟨-, hn⟩ | ⟨-, hn⟩
      · exact hn
      · split at hn
        · exact hn
        · exact Nat.lt_of_lt_of_le Nat.zero_lt_two hn
  | cons event events ih =>
      intro n buttons hcopy halong hdue
      obtain ⟨hkept, hrest⟩ := along_total_cons.mp halong
      have hcopy' := copyIsCurrent_step hcopy hkept
      cases n with
      | zero => rcases hdue with ⟨-, hn⟩ | ⟨-, hn⟩ <;> (try split at hn) <;> omega
      | succ n =>
          -- A step makes no report, or one with the edge, or one that leaves the edge due.
          rcases @dueWithin_step buttons button event n hcopy hdue with
            ⟨hreports, hdue'⟩ | ⟨request, hreports, hflag | hdue'⟩
          · rw [List.foldl_cons, ← hreports]
            exact ih (n + 1) _ hcopy' hrest hdue'
          · obtain ⟨rest, hrun⟩ := exists_reports events (buttons.step event)
            refine ⟨request :: rest, ?_, .inl ⟨request, List.mem_cons_self, hflag⟩⟩
            rw [List.foldl_cons, hrun, hreports, List.append_assoc, List.singleton_append]
          · obtain ⟨rest, hrun, hresult⟩ := ih n _ hcopy' hrest hdue'
            refine ⟨request :: rest, ?_, ?_⟩
            · rw [List.foldl_cons, hrun, hreports, List.append_assoc, List.singleton_append]
            · rw [List.take_succ_cons, List.length_cons, Nat.succ_lt_succ_iff,
                Nat.succ_sub_succ, List.foldl_cons]
              refine hresult.imp_left ?_
              rintro ⟨reported, hmem, hflag⟩
              exact ⟨reported, List.mem_cons_of_mem request hmem, hflag⟩

/-- A run that loses no flag to a reset has a current copy, unless it ends before the reset. -/
theorem copy_has_flag_of_clearedByReport :
    ∀ (events : List ButtonEvent) (buttons : Buttons),
      (∀ request, (events.foldl step buttons).position ≠ .copied request) →
      Along (total step) ClearedByReport buttons events →
      ∀ request button, buttons.position = .copied request →
        buttons.stopGoRequest.flag button = true → request.flag button = true := by
  intro events
  induction events with
  | nil =>
      intro buttons hend _ request button hposition _
      exact absurd hposition (hend request)
  | cons event events ih =>
      intro buttons hend halong request button hposition hflag
      obtain ⟨hcleared, hrest⟩ := along_total_cons.mp halong
      by_cases htask : event = .getStopGoRequest
      · subst htask
        have hreset : buttons.step .getStopGoRequest
            = { buttons with stopGoRequest := {}, position := .cleared request } := by
          rw [step, getStopGoRequest, hposition]
        rw [hreset] at hcleared
        obtain ⟨-, copy, hcopy, hreported⟩ := hcleared button hflag (by cases button <;> rfl)
        cases hcopy
        exact hreported
      · obtain ⟨hsame, -, -⟩ := step_interrupt buttons htask
        exact ih _ hend hrest request button (hsame.trans hposition)
          (flag_step_interrupt htask hflag)

/-- When the last report is complete and every cleared flag was reported, no edge was lost. -/
theorem along_edgeKept_of_clearedByReport :
    ∀ (events : List ButtonEvent) (buttons : Buttons),
      (∀ request, (events.foldl step buttons).position ≠ .copied request) →
      Along (total step) ClearedByReport buttons events →
      Along (total step) EdgeKept buttons events := by
  intro events
  induction events with
  | nil => intro _ _ _; trivial
  | cons event events ih =>
      intro buttons hend halong
      obtain ⟨-, hrest⟩ := along_total_cons.mp halong
      refine along_total_cons.mpr ⟨fun button request hposition haccepts => ?_, ih _ hend hrest⟩
      obtain ⟨hsame, -, hflags⟩ :=
        step_interrupt buttons (ne_getStopGoRequest_of_accepts haccepts)
      refine copy_has_flag_of_clearedByReport events _ hend hrest request button
        (hsame.trans hposition) ?_
      rw [hflags, haccepts, Bool.or_true]

end Buttons

/-! ### The result -/

open Buttons

/-- Each accepted edge is reported by one of the next two calls that return. Until then the flag
is set, or the call in progress has it in its copy. -/
def EdgesReported (events : List ButtonEvent) : Prop :=
  ∀ before event after button, events = before ++ event :: after →
    (before.foldl step {}).accepts button event = true →
    ∃ reports,
      (events.foldl step {}).reports
        = ((before ++ [event]).foldl step {}).reports ++ reports ∧
      ((∃ request ∈ reports.take 2, request.flag button = true) ∨
        reports.length < 2 ∧
          ((events.foldl step {}).stopGoRequest.flag button = true ∨
            (events.foldl step {}).HasCopied button))

/-- No press is lost when every edge is kept. A run that loses no flag to a reset has kept every
edge, when it does not end between copy and reset. -/
theorem getStopGoRequest_reports (events : List ButtonEvent) :
    (Along (total step) EdgeKept {} events →
      EdgesReported events ∧ Along (total step) ClearedByReport {} events) ∧
    ((∀ request, (events.foldl step {}).position ≠ .copied request) →
      Along (total step) ClearedByReport {} events → Along (total step) EdgeKept {} events) := by
  have hstart : CopyIsCurrent {} := fun _ h => CallPosition.noConfusion h
  refine ⟨fun halong => ⟨?_, ?_⟩, along_edgeKept_of_clearedByReport events {}⟩
  -- The accepted edge sets its flag, and it is due within two reports.
  · intro before event after button hevents haccepts
    subst hevents
    obtain ⟨hbefore, hrest⟩ := along_total_append.mp halong
    obtain ⟨hkept, hafter⟩ := along_total_cons.mp hrest
    have hcopy := foldl_invariant (fun _ _ => copyIsCurrent_step) hstart hbefore
    have hflag := (step_interrupt (before.foldl step {})
      (ne_getStopGoRequest_of_accepts haccepts)).2.2 button
    rw [haccepts, Bool.or_true] at hflag
    obtain ⟨reports, hreports, hresult⟩ :=
      reported_of_dueWithin after 2 _ (copyIsCurrent_step hcopy hkept) hafter
        (.inr ⟨hflag, by split <;> omega⟩)
    rw [List.foldl_append, List.foldl_cons, List.foldl_append, List.foldl_cons, List.foldl_nil]
    refine ⟨reports, hreports, hresult.imp_right ?_⟩
    rintro ⟨hlength, hcopied | hset⟩
    · exact ⟨hlength, .inr hcopied.1⟩
    · exact ⟨hlength, .inl hset.1⟩
  -- Along the run the copy stays current, so a reset clears only what is reported.
  · exact along_of_invariant (total step) (I := CopyIsCurrent)
      (fun s event s' hcopy hstep hkept => by
        rw [run_total_eq_ok] at hstep
        subst hstep
        exact ⟨copyIsCurrent_step hcopy hkept, clearedByReport_step hcopy⟩)
      events {} hstart halong

/-- A STOP edge between copy and reset of a call that reports the edge before. -/
theorem getStopGoRequest_reports_twice :
    EdgesReported [.exti4Isr 0 0, .getStopGoRequest, .exti4Isr 100 100, .getStopGoRequest,
      .getStopGoRequest] := by
  refine ((getStopGoRequest_reports _).1 ?_).1
  refine along_total_cons.mpr ⟨fun _ _ h => CallPosition.noConfusion h, ?_⟩
  refine along_total_cons.mpr ⟨fun _ _ _ h => absurd h Bool.false_ne_true, ?_⟩
  refine along_total_cons.mpr ⟨fun button request h haccepts => ?_, ?_⟩
  · cases h
    cases button with
    | stop => rfl
    | go => exact absurd haccepts Bool.false_ne_true
  refine along_total_cons.mpr ⟨fun _ _ _ h => absurd h Bool.false_ne_true, ?_⟩
  exact along_total_cons.mpr ⟨fun _ _ _ h => absurd h Bool.false_ne_true, trivial⟩

/-- A STOP edge between copy and reset: the reset clears the flag, and neither this call nor the
next one reports it. -/
theorem getStopGoRequest_loses_edge :
    let events : List ButtonEvent :=
      [.getStopGoRequest, .exti4Isr 0 0, .getStopGoRequest, .getStopGoRequest,
        .getStopGoRequest, .getStopGoRequest, .getStopGoRequest]
    ¬ EdgesReported events ∧ ¬ Along (total step) ClearedByReport {} events := by
  refine ⟨fun h => ?_, fun h => ?_⟩
  · obtain ⟨reports, hreports, hresult⟩ :=
      h [.getStopGoRequest] (.exti4Isr 0 0) _ .stop rfl (by decide)
    have hvalue : reports = [{}, {}] := hreports.symm
    subst hvalue
    rcases hresult with ⟨request, hmem, hflag⟩ | ⟨hlength, -⟩
    · have hempty : request = {} := by simpa using hmem
      rw [hempty] at hflag
      exact Bool.false_ne_true hflag
    · exact absurd hlength (by decide)
  · have hcleared := (h _ rfl).2 _ rfl |>.2 _ rfl |>.1 .stop (by decide) (by decide)
    obtain ⟨-, request, hposition, hflag⟩ := hcleared
    cases hposition
    exact Bool.false_ne_true hflag

end C6021Light
