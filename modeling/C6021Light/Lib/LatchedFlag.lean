import C6021Light.Lib.FaultRun

/-!
# `C6021Light.Lib.LatchedFlag`: a flag that is polled

Others latch a flag, and a poll handles it: it tests the flag, runs a handler if the flag is set,
and clears the flag behind the handler. The steps of the others can come between any two of these
statements, and the handler can latch the flag itself. `Poll` is such a component, for any states
and steps. `PollState` adds the statement that comes next, and the ghost field `unhandled`: a
latch came after the last test.

A latch between test and clear is lost, because the clear takes it for the one that was handled.
`kept_of_quiet` and `quiet_of_kept` say that no other latch is.
-/

set_option autoImplicit false

namespace LatchedFlag

open FaultRun

variable {σ ε : Type}

/-- A component with a flag. `handleLatches` and `stepLatches` say when the handler and the steps
of the others latch the flag. -/
structure Poll (σ ε : Type) where
  flag : σ → Bool
  clear : σ → σ
  handle : σ → σ
  step : σ → ε → σ
  handleLatches : σ → Bool
  stepLatches : σ → ε → Bool
  flag_clear : ∀ s, flag (clear s) = false
  flag_handle : ∀ s, flag (handle s) = (flag s || handleLatches s)
  flag_step : ∀ s e, flag (step s e) = (flag s || stepLatches s e)

/-- The last statement of the poll that was executed. -/
inductive Position
  | idle
  | tested
  | handled
deriving DecidableEq, Repr

/-- A component and its poll. `unhandled` is a ghost: the flag was latched since the last test. -/
structure PollState (σ : Type) where
  component : σ
  position : Position := .idle
  unhandled : Bool := false

/-- The next statement of the poll, or a step of the others. -/
inductive PollEvent (ε : Type)
  | poll
  | other (event : ε)

namespace Poll

variable (p : Poll σ ε)

/-- The next statement of the poll. A poll that finds the flag clear is over. -/
def poll (s : PollState σ) : PollState σ :=
  match s.position with
  | .idle =>
      { s with
        position := if p.flag s.component then .tested else .idle
        unhandled := false }
  | .tested =>
      { component := p.handle s.component
        position := .handled
        unhandled := s.unhandled || p.handleLatches s.component }
  | .handled => { s with component := p.clear s.component, position := .idle }

/-- One event. -/
def exec (s : PollState σ) : PollEvent ε → PollState σ
  | .poll => p.poll s
  | .other event =>
      { s with
        component := p.step s.component event
        unhandled := s.unhandled || p.stepLatches s.component event }

/-- Outside of the poll a latch since the last test is still there for the next one. -/
def Kept (s : PollState σ) : Prop :=
  s.position = .idle → s.unhandled = true → p.flag s.component = true

/-- A poll that begins after a latch since the last test runs its handler. -/
def Handles (s : PollState σ) (event : PollEvent ε) (s' : PollState σ) : Prop :=
  event = .poll → s.position = .idle → s.unhandled = true → s'.position = .tested

/-- Between test and clear neither the handler nor the others latch the flag. -/
def Quiet (s : PollState σ) (event : PollEvent ε) (_ : PollState σ) : Prop :=
  match event with
  | .poll => s.position = .tested → p.handleLatches s.component = false
  | .other event => s.position ≠ .idle → p.stepLatches s.component event = false

/-- What a quiet run keeps. -/
structure Inv (s : PollState σ) : Prop where
  kept : p.Kept s
  quiet : s.position ≠ .idle → s.unhandled = false

variable {p}

/-! ### One poll -/

variable (p) in
/-- The statements of a poll with nothing between them. -/
def call (component : σ) : σ :=
  let tested := p.poll { component := component }
  if tested.position = .tested then (p.poll (p.poll tested)).component
  else tested.component

/-- Without anything in between, a poll handles and clears a flag that is set. -/
theorem call_eq (component : σ) :
    p.call component
      = if p.flag component then p.clear (p.handle component) else component := by
  rw [call]
  cases hflag : p.flag component with
  | true =>
      have htest : p.poll { component := component }
          = { component := component, position := .tested } := by
        simp [poll, hflag]
      rw [htest]
      rfl
  | false =>
      have htest : p.poll { component := component } = { component := component } := by
        simp [poll, hflag]
      rw [htest]
      rfl

/-! ### Steps -/

/-- While latches are kept, a poll that starts with an unhandled one finds the flag set. -/
theorem handles_of_kept {s : PollState σ} (h : p.Kept s) (event : PollEvent ε) :
    Handles s event (p.exec s event) := by
  rintro rfl hidle hunhandled
  show (p.poll s).position = .tested
  rw [poll, hidle, h hidle hunhandled]
  rfl

/-- A quiet step keeps the invariant. -/
theorem Inv.step {s : PollState σ} {event : PollEvent ε} (h : p.Inv s)
    (hquiet : p.Quiet s event (p.exec s event)) : p.Inv (p.exec s event) := by
  cases event with
  | poll =>
      show p.Inv (p.poll s)
      rw [poll]
      split
      · exact ⟨fun _ hunhandled => absurd hunhandled Bool.false_ne_true, fun _ => rfl⟩
      · rename_i htested
        have hnew : (s.unhandled || p.handleLatches s.component) = false := by
          rw [h.quiet (by rw [htested]; decide), hquiet htested, Bool.or_false]
        exact ⟨fun hidle => Position.noConfusion hidle, fun _ => hnew⟩
      · rename_i hhandled
        have hnone : s.unhandled = false := h.quiet (by rw [hhandled]; decide)
        exact ⟨fun _ hunhandled => absurd (hnone.symm.trans hunhandled) Bool.false_ne_true,
          fun hne => absurd rfl hne⟩
  | other event =>
      refine ⟨fun hidle hunhandled => ?_, fun hne => ?_⟩
      · show p.flag (p.step s.component event) = true
        rw [p.flag_step, Bool.or_eq_true]
        exact ((Bool.or_eq_true _ _).mp hunhandled).imp_left (h.kept hidle)
      · show (s.unhandled || p.stepLatches s.component event) = false
        rw [h.quiet hne, hquiet hne, Bool.or_false]

/-! ### Runs -/

/-- In a quiet run no latch is lost, and the next poll handles it. -/
theorem kept_of_quiet (es : List (PollEvent ε)) (s : PollState σ) (h : p.Inv s)
    (hquiet : Along (total p.exec) p.Quiet s es) :
    Along (total p.exec) (fun s e s' => p.Kept s' ∧ Handles s e s') s es :=
  along_of_invariant (total p.exec) (I := p.Inv)
    (fun s event s' hs hstep hR => by
      rw [run_total_eq_ok] at hstep
      subst hstep
      have hs' := hs.step hR
      exact ⟨hs', hs'.kept, handles_of_kept hs.kept event⟩)
    es s h hquiet

/-- A latch between test and clear is lost at the clear. -/
theorem unhandled_of_kept :
    ∀ (es : List (PollEvent ε)) (s : PollState σ), (es.foldl p.exec s).position = .idle →
      Along (total p.exec) (fun _ _ s' => p.Kept s') s es → s.position ≠ .idle →
      s.unhandled = false := by
  intro es
  induction es with
  | nil => intro s hend _ hposition; exact absurd hend hposition
  | cons event es ih =>
      intro s hend halong hposition
      obtain ⟨hkept, hrest⟩ := along_total_cons.mp halong
      cases event with
      | poll =>
          change p.Kept (p.poll s) at hkept
          have hnext := ih (p.poll s) hend hrest
          rw [poll] at hkept hnext
          split at hnext
          · rename_i hidle
            exact absurd hidle hposition
          · exact (Bool.or_eq_false_iff.mp (hnext fun h => Position.noConfusion h)).1
          · rename_i hhandled
            rw [hhandled] at hkept
            refine eq_false_of_ne_true fun hunhandled => ?_
            exact absurd ((p.flag_clear _).symm.trans (hkept rfl hunhandled)) Bool.false_ne_true
      | other event => exact (Bool.or_eq_false_iff.mp (ih _ hend hrest hposition)).1

/-- A run that loses no latch, and does not end between test and clear, is quiet. -/
theorem quiet_of_kept :
    ∀ (es : List (PollEvent ε)) (s : PollState σ), (es.foldl p.exec s).position = .idle →
      Along (total p.exec) (fun _ _ s' => p.Kept s') s es → Along (total p.exec) p.Quiet s es := by
  intro es
  induction es with
  | nil => intro _ _ _; trivial
  | cons event es ih =>
      intro s hend halong
      obtain ⟨-, hrest⟩ := along_total_cons.mp halong
      refine along_total_cons.mpr ⟨?_, ih _ hend hrest⟩
      have hnext := unhandled_of_kept es (p.exec s event) hend hrest
      cases event with
      | poll =>
          intro htested
          change (p.poll s).position ≠ .idle → (p.poll s).unhandled = false at hnext
          rw [poll, htested] at hnext
          exact (Bool.or_eq_false_iff.mp (hnext fun h => Position.noConfusion h)).2
      | other event => intro hne; exact (Bool.or_eq_false_iff.mp (hnext hne)).2

end Poll

end LatchedFlag
