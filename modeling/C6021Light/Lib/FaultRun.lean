import Mathlib.Logic.Function.Basic

/-!
# `C6021Light.Lib.FaultRun`: runs of state transformers that can fault

A state transformer here is a `StateT σ (Except φ)` program: it returns a value and the
next state, or it stops with a fault of type `φ`. This library has what proofs about such
programs need, for any state, event and fault types.

* `run_bind_of_ok` and `run_bind_eq_ok` take a sequence apart at its first program.
* `run_forM_cons` and `run_forM_append` do the same for a loop over a list of events, and
  `forM_rel` relates the two ends of a loop. `forM_observe` is about two runs of the same
  loop that an observer cannot tell apart.
* `Along exec R s es` says that each step of the run of `es` from `s` satisfies `R`, where
  `R` reads the state before the step, the event, and the state after it. Steps after a
  fault do not exist, so they are not constrained.
* `invariant_of_along` is the invariant rule: a predicate that each step preserves, given
  the step's condition, holds at the end of the run. `along_of_invariant` is its
  counterpart for a property of every step.
* `total step` is the program of a step function that cannot fault (`run_forM_total`).
* `Guarded exec C s es` says that the environment may bring each event of the run of `es`, where
  `C` reads the state before the event. `exists_run_of_guarded` is the rule for runs that complete.
* `Reachable exec C s₀` is the set of states that runs from `s₀` reach, when each event
  satisfies `C`. `Reachable.simulate` carries it from one system to another whose steps
  imitate each step by a run.
-/

set_option autoImplicit false

namespace FaultRun

variable {σ ε φ α β : Type}

/-! ### Sequencing -/

/-- The run of a sequence whose first program succeeds. -/
theorem run_bind_of_ok {x : StateT σ (Except φ) α} {f : α → StateT σ (Except φ) β}
    {s s' : σ} {a : α} (h : x.run s = .ok (a, s')) :
    (x >>= f).run s = (f a).run s' := by
  rw [StateT.run_bind, h]
  rfl

/-- The run of a sequence whose first program faults. -/
theorem run_bind_of_error {x : StateT σ (Except φ) α} {f : α → StateT σ (Except φ) β}
    {s : σ} {e : φ} (h : x.run s = .error e) :
    (x >>= f).run s = .error e := by
  rw [StateT.run_bind, h]
  rfl

/-- A sequence succeeds exactly when both of its programs do. -/
theorem run_bind_eq_ok {x : StateT σ (Except φ) α} {f : α → StateT σ (Except φ) β}
    {s : σ} {r : β × σ} :
    (x >>= f).run s = .ok r ↔
      ∃ a s', x.run s = .ok (a, s') ∧ (f a).run s' = .ok r := by
  cases h : x.run s with
  | error e =>
      rw [run_bind_of_error h]
      constructor
      · intro hr
        cases hr
      · rintro ⟨_, _, hx, _⟩
        cases hx
  | ok p =>
      obtain ⟨a, s'⟩ := p
      rw [run_bind_of_ok h]
      constructor
      · intro hr
        exact ⟨a, s', rfl, hr⟩
      · rintro ⟨_, _, hx, hr⟩
        cases hx
        exact hr

/-- A program that only returns. -/
@[simp] theorem run_pure_eq_ok {a : α} {s : σ} {r : α × σ} :
    (pure a : StateT σ (Except φ) α).run s = .ok r ↔ r = (a, s) := by
  constructor
  · intro h
    cases h
    rfl
  · rintro rfl
    rfl

/-- A program that starts with a look at the state. -/
theorem run_get_bind {f : σ → StateT σ (Except φ) β} {s : σ} :
    (get >>= f).run s = (f s).run s := rfl

/-- A program that reads and writes no state leaves it alone. -/
theorem run_liftM_eq_ok {x : Except φ α} {s : σ} {r : α × σ} :
    (liftM x : StateT σ (Except φ) α).run s = .ok r ↔ x = .ok r.1 ∧ r.2 = s := by
  obtain ⟨b, s'⟩ := r
  cases x with
  | error e => exact iff_of_false (fun h => nomatch h) (fun h => nomatch h.1)
  | ok a =>
      constructor
      · intro h
        cases h
        exact ⟨rfl, rfl⟩
      · rintro ⟨ha, hs⟩
        cases ha
        cases hs
        rfl

/-- A fault of an inner computation is one of the program. -/
theorem run_liftM_of_error {x : Except φ α} {e : φ} (h : x = .error e) (s : σ) :
    (liftM x : StateT σ (Except φ) α).run s = .error e := by
  rw [h]
  rfl

/-- A run whose end has an observable value has an end. -/
theorem exists_run_of_observed {x : StateT σ (Except φ) PUnit} {s : σ} (observe : σ → β) {b : β}
    (h : (x.run s).toOption.map (fun r => observe r.2) = some b) :
    ∃ s', x.run s = .ok (⟨⟩, s') ∧ observe s' = b := by
  cases hrun : x.run s with
  | error e =>
      rw [hrun] at h
      cases h
  | ok r =>
      rw [hrun] at h
      exact ⟨r.2, rfl, Option.some.inj h⟩

/-- A list of values, when there is one for each element. -/
theorem exists_mapM_ok {f : α → Except φ β} {l : List α} (h : ∀ a ∈ l, ∃ b, f a = .ok b) :
    ∃ bs, l.mapM f = .ok bs := by
  induction l with
  | nil => exact ⟨[], rfl⟩
  | cons a l ih =>
      obtain ⟨b, hb⟩ := h a List.mem_cons_self
      obtain ⟨bs, hbs⟩ := ih fun a' ha' => h a' (List.mem_cons_of_mem a ha')
      refine ⟨b :: bs, ?_⟩
      rw [List.mapM_cons, hb, hbs]
      rfl

/-! ### Loops over events -/

variable (exec : ε → StateT σ (Except φ) PUnit)

/-- A loop over `e :: es` runs `e` first. -/
theorem run_forM_cons {e : ε} {es : List ε} {s s'' : σ} :
    (forM (e :: es) exec).run s = .ok (⟨⟩, s'') ↔
      ∃ s', (exec e).run s = .ok (⟨⟩, s') ∧ (forM es exec).run s' = .ok (⟨⟩, s'') := by
  rw [List.forM_cons, run_bind_eq_ok]
  constructor
  · rintro ⟨⟨⟩, s', h₁, h₂⟩
    exact ⟨s', h₁, h₂⟩
  · rintro ⟨s', h₁, h₂⟩
    exact ⟨⟨⟩, s', h₁, h₂⟩

/-- The run without events. -/
theorem run_forM_nil {s s' : σ} :
    (forM ([] : List ε) exec).run s = .ok (⟨⟩, s') ↔ s' = s := by
  rw [List.forM_nil, run_pure_eq_ok, Prod.mk.injEq]
  exact ⟨fun h => h.2, fun h => ⟨rfl, h⟩⟩

/-- A loop over `es ++ es'` runs `es` first. -/
theorem run_forM_append {es es' : List ε} {s s'' : σ} :
    (forM (es ++ es') exec).run s = .ok (⟨⟩, s'') ↔
      ∃ s', (forM es exec).run s = .ok (⟨⟩, s') ∧
        (forM es' exec).run s' = .ok (⟨⟩, s'') := by
  rw [List.forM_append, run_bind_eq_ok]
  constructor
  · rintro ⟨⟨⟩, s', h₁, h₂⟩
    exact ⟨s', h₁, h₂⟩
  · rintro ⟨s', h₁, h₂⟩
    exact ⟨⟨⟩, s', h₁, h₂⟩

/-- A reflexive and transitive relation that holds between the states of each step holds
between the two ends of a loop. -/
theorem forM_rel_mem {R : σ → σ → Prop} (hrefl : ∀ s, R s s)
    (htrans : ∀ s s' s'', R s s' → R s' s'' → R s s'') :
    ∀ (es : List ε), (∀ e ∈ es, ∀ s s', (exec e).run s = .ok (⟨⟩, s') → R s s') →
      ∀ s s' : σ, (forM es exec).run s = .ok (⟨⟩, s') → R s s' := by
  intro es
  induction es with
  | nil =>
      intro _ s s' h
      rw [run_forM_nil] at h
      rw [h]
      exact hrefl s
  | cons e es ih =>
      intro hstep s s'' h
      obtain ⟨s', he, hes⟩ := (run_forM_cons exec).mp h
      have hrest := ih (fun e' he' => hstep e' (List.mem_cons_of_mem e he')) s' s'' hes
      exact htrans s s' s'' (hstep e List.mem_cons_self s s' he) hrest

/-- The same when every event of the system has the relation. -/
theorem forM_rel {R : σ → σ → Prop} (hrefl : ∀ s, R s s)
    (htrans : ∀ s s' s'', R s s' → R s' s'' → R s s'')
    (hstep : ∀ e s s', (exec e).run s = .ok (⟨⟩, s') → R s s') (es : List ε) :
    ∀ s s' : σ, (forM es exec).run s = .ok (⟨⟩, s') → R s s' :=
  forM_rel_mem exec hrefl htrans es fun e _ => hstep e

/-- What the step of each event establishes for this event, and the steps of the others keep,
holds for all events after the loop. -/
theorem forM_establishes {I : σ → Prop} {Q : ε → σ → Prop}
    (hinv : ∀ e s s', I s → (exec e).run s = .ok (⟨⟩, s') → I s')
    (hself : ∀ e s s', I s → (exec e).run s = .ok (⟨⟩, s') → Q e s')
    (hother : ∀ e e' s s', e' ≠ e → (exec e').run s = .ok (⟨⟩, s') → Q e s → Q e s') :
    ∀ (es : List ε) (s s' : σ), I s → (forM es exec).run s = .ok (⟨⟩, s') → ∀ e ∈ es, Q e s' := by
  intro es
  induction es with
  | nil => intro _ _ _ _ e he; cases he
  | cons e es ih =>
      intro s s' hI hrun e₀ he₀
      obtain ⟨s₁, he, hes⟩ := (run_forM_cons exec).mp hrun
      by_cases hlater : e₀ ∈ es
      · exact ih s₁ s' (hinv e s s₁ hI he) hes e₀ hlater
      · have hfirst : e₀ = e := (List.mem_cons.mp he₀).resolve_right hlater
        subst hfirst
        exact forM_rel_mem exec (R := fun s s' => Q e₀ s → Q e₀ s') (fun _ h => h)
          (fun _ _ _ h h' hs => h' (h hs)) es
          (fun e' he' t t' => hother e₀ e' t t' fun heq => hlater (heq ▸ he'))
          s₁ s' hes (hself e₀ s s₁ hI he)

/-- A loop completes when each of its steps does, and the next one can rely on it. -/
theorem exists_run_forM {I : σ → Prop}
    (hstep : ∀ e s, I s → ∃ s', (exec e).run s = .ok (⟨⟩, s') ∧ I s') :
    ∀ (es : List ε) (s : σ), I s → ∃ s', (forM es exec).run s = .ok (⟨⟩, s') ∧ I s' := by
  intro es
  induction es with
  | nil => intro s hI; exact ⟨s, rfl, hI⟩
  | cons e es ih =>
      intro s hI
      obtain ⟨s₁, he, hI₁⟩ := hstep e s hI
      obtain ⟨s', hes, hI'⟩ := ih s₁ hI₁
      exact ⟨s', (run_forM_cons exec).mpr ⟨s₁, he, hes⟩, hI'⟩

/-- A completed loop, taken apart at one of its events. -/
theorem run_forM_split {before after : List ε} {e : ε} {s s'' : σ} :
    (forM (before ++ e :: after) exec).run s = .ok (⟨⟩, s'') ↔
      ∃ t t', (forM before exec).run s = .ok (⟨⟩, t) ∧ (exec e).run t = .ok (⟨⟩, t') ∧
        (forM after exec).run t' = .ok (⟨⟩, s'') := by
  rw [run_forM_append]
  constructor
  · rintro ⟨t, hbefore, hrest⟩
    obtain ⟨t', he, hafter⟩ := (run_forM_cons exec).mp hrest
    exact ⟨t, t', hbefore, he, hafter⟩
  · rintro ⟨t, t', hbefore, he, hafter⟩
    exact ⟨t, hbefore, (run_forM_cons exec).mpr ⟨t', he, hafter⟩⟩

/-- What holds at the end of a run and not at its start came with one of its steps. -/
theorem exists_step_of_run {P : σ → Prop} :
    ∀ (es : List ε) (s s' : σ), ¬ P s → (forM es exec).run s = .ok (⟨⟩, s') → P s' →
      ∃ before e after t t', es = before ++ e :: after ∧
        (forM before exec).run s = .ok (⟨⟩, t) ∧ (exec e).run t = .ok (⟨⟩, t') ∧ ¬ P t ∧ P t' := by
  intro es
  induction es with
  | nil =>
      intro s s' hs hrun hs'
      rw [run_forM_nil] at hrun
      exact absurd (hrun ▸ hs') hs
  | cons e es ih =>
      intro s s' hs hrun hs'
      obtain ⟨s₁, he, hes⟩ := (run_forM_cons exec).mp hrun
      by_cases h₁ : P s₁
      · exact ⟨[], e, es, s, s₁, rfl, rfl, he, hs, h₁⟩
      · obtain ⟨before, e', after, t, t', rfl, hbefore, hstep, ht, ht'⟩ := ih s₁ s' h₁ hes hs'
        exact ⟨e :: before, e', after, t, t', rfl, (run_forM_cons exec).mpr ⟨s₁, he, hbefore⟩,
          hstep, ht, ht'⟩

/-- Two loops in lockstep: when each pair of steps completes or faults together, so do the
loops. `Rel` relates the states in front of the events that remain. -/
theorem forM_lockstep {σ' φ' : Type} {exec' : ε → StateT σ' (Except φ') PUnit}
    {Rel : List ε → σ → σ' → Prop}
    (hstep : ∀ e es s u, Rel (e :: es) s u →
      (∃ s' u', (exec e).run s = .ok (⟨⟩, s') ∧ (exec' e).run u = .ok (⟨⟩, u') ∧ Rel es s' u') ∨
      (∃ f f', (exec e).run s = .error f ∧ (exec' e).run u = .error f')) :
    ∀ (es : List ε) (s : σ) (u : σ'), Rel es s u →
      ((∃ s', (forM es exec).run s = .ok (⟨⟩, s')) ↔
        ∃ u', (forM es exec').run u = .ok (⟨⟩, u')) := by
  intro es
  induction es with
  | nil => intro s u _; exact iff_of_true ⟨s, rfl⟩ ⟨u, rfl⟩
  | cons e es ih =>
      intro s u hrel
      rcases hstep e es s u hrel with ⟨s', u', hs, hu, hrel'⟩ | ⟨f, f', hs, hu⟩
      -- Both steps complete: the rest of the loops is in lockstep again.
      · rw [List.forM_cons, List.forM_cons, run_bind_of_ok hs, run_bind_of_ok hu]
        exact ih s' u' hrel'
      -- Both steps fault, and so do the loops.
      · rw [List.forM_cons, List.forM_cons, run_bind_of_error hs, run_bind_of_error hu]
        exact iff_of_false (fun ⟨_, h⟩ => nomatch h) (fun ⟨_, h⟩ => nomatch h)

/-- Each completed step of the run of `es` from `s` satisfies `R`. -/
def Along (R : σ → ε → σ → Prop) : σ → List ε → Prop
  | _, [] => True
  | s, e :: es => ∀ s', (exec e).run s = .ok (⟨⟩, s') → R s e s' ∧ Along R s' es

/-- The invariant rule. -/
theorem invariant_of_along {I : σ → Prop} {R : σ → ε → σ → Prop}
    (hstep : ∀ s e s', I s → (exec e).run s = .ok (⟨⟩, s') → R s e s' → I s') :
    ∀ (es : List ε) (s s' : σ), I s → Along exec R s es →
      (forM es exec).run s = .ok (⟨⟩, s') → I s' := by
  intro es
  induction es with
  | nil =>
      intro s s' hI _ hrun
      rw [run_forM_nil] at hrun
      exact hrun ▸ hI
  | cons e es ih =>
      intro s s'' hI halong hrun
      obtain ⟨s', he, hes⟩ := (run_forM_cons exec).mp hrun
      obtain ⟨hR, hrest⟩ := halong s' he
      exact ih s' s'' (hstep s e s' hI he hR) hrest hes

/-- A property that each step has in states with the invariant holds along the run. -/
theorem along_of_invariant {I : σ → Prop} {R Q : σ → ε → σ → Prop}
    (hstep : ∀ s e s', I s → (exec e).run s = .ok (⟨⟩, s') → R s e s' → I s' ∧ Q s e s') :
    ∀ (es : List ε) (s : σ), I s → Along exec R s es → Along exec Q s es := by
  intro es
  induction es with
  | nil => intro s _ _; trivial
  | cons e es ih =>
      intro s hI halong s' he
      obtain ⟨hR, hrest⟩ := halong s' he
      obtain ⟨hI', hQ⟩ := hstep s e s' hI he hR
      exact ⟨hQ, ih s' hI' hrest⟩

/-- A relation that follows from another one along a run. -/
theorem along_mono {R Q : σ → ε → σ → Prop} (h : ∀ s e s', R s e s' → Q s e s') (es : List ε)
    (s : σ) (halong : Along exec R s es) : Along exec Q s es :=
  along_of_invariant exec (I := fun _ => True) (fun s e s' _ _ hR => ⟨trivial, h s e s' hR⟩)
    es s trivial halong

/-- A condition on the events of a run may be read off at every step. -/
theorem along_and_of_forall {R : σ → ε → σ → Prop} {C : ε → Prop} :
    ∀ (es : List ε) (s : σ), (∀ e ∈ es, C e) → Along exec R s es →
      Along exec (fun s e s' => C e ∧ R s e s') s es := by
  intro es
  induction es with
  | nil => intro s _ _; trivial
  | cons e es ih =>
      intro s hC halong s' he
      obtain ⟨hR, hrest⟩ := halong s' he
      exact ⟨⟨hC e List.mem_cons_self, hR⟩,
        ih s' (fun e' he' => hC e' (List.mem_cons_of_mem e he')) hrest⟩

/-- Two step properties that agree on every completed step hold along the same runs. -/
theorem along_congr {R Q : σ → ε → σ → Prop}
    (h : ∀ s e s', (exec e).run s = .ok (⟨⟩, s') → (R s e s' ↔ Q s e s'))
    (es : List ε) (s : σ) : Along exec R s es ↔ Along exec Q s es := by
  constructor
  · exact along_of_invariant exec (I := fun _ => True)
      (fun s e s' _ he hR => ⟨trivial, (h s e s' he).mp hR⟩) es s trivial
  · exact along_of_invariant exec (I := fun _ => True)
      (fun s e s' _ he hQ => ⟨trivial, (h s e s' he).mpr hQ⟩) es s trivial

/-- When each step from a state with `I` keeps it exactly under `Q`, then `I` holds after every
step of a run exactly when every step satisfies `Q`. The step may rely on an invariant of every
run. -/
theorem along_iff_of_invariant {J I : σ → Prop} {Q : σ → ε → σ → Prop}
    (hinv : ∀ s e s', J s → (exec e).run s = .ok (⟨⟩, s') → J s')
    (hstep : ∀ s e s', J s → I s → (exec e).run s = .ok (⟨⟩, s') → (I s' ↔ Q s e s'))
    (es : List ε) (s : σ) (hs : J s) (hI : I s) :
    Along exec (fun _ _ s' => I s') s es ↔ Along exec Q s es := by
  constructor
  · exact along_of_invariant exec (I := fun s => J s ∧ I s)
      (fun s e s' h he hI' => ⟨⟨hinv s e s' h.1 he, hI'⟩, (hstep s e s' h.1 h.2 he).mp hI'⟩)
      es s ⟨hs, hI⟩
  · refine along_of_invariant exec (I := fun s => J s ∧ I s) (fun s e s' h he hQ => ?_)
      es s ⟨hs, hI⟩
    have hI' := (hstep s e s' h.1 h.2 he).mpr hQ
    exact ⟨⟨hinv s e s' h.1 he, hI'⟩, hI'⟩

/-- The same without an invariant. -/
theorem along_invariant_iff {I : σ → Prop} {Q : σ → ε → σ → Prop}
    (hstep : ∀ s e s', I s → (exec e).run s = .ok (⟨⟩, s') → (I s' ↔ Q s e s'))
    (es : List ε) (s : σ) (hI : I s) :
    Along exec (fun _ _ s' => I s') s es ↔ Along exec Q s es :=
  along_iff_of_invariant exec (J := fun _ => True) (fun _ _ _ _ _ => trivial)
    (fun s e s' _ => hstep s e s') es s trivial hI

/-- The completed steps of the run of `es` from `s` that `count` counts. -/
def stepsCounted (count : σ → ε → σ → Bool) : σ → List ε → Nat
  | _, [] => 0
  | s, e :: es =>
      match (exec e).run s with
      | .ok (_, s') => (count s e s').toNat + stepsCounted count s' es
      | .error _ => 0

/-- What grows by one with each step that is counted, and never shrinks, has grown by at least the
number of these steps. -/
theorem add_stepsCounted_le {count : σ → ε → σ → Bool} {R : σ → ε → σ → Prop} {m : σ → Nat}
    (hstep : ∀ s e s', (exec e).run s = .ok (⟨⟩, s') → R s e s' →
      m s + (count s e s').toNat ≤ m s') :
    ∀ (es : List ε) (s s' : σ), Along exec R s es → (forM es exec).run s = .ok (⟨⟩, s') →
      m s + stepsCounted exec count s es ≤ m s' := by
  intro es
  induction es with
  | nil =>
      intro s s' _ hrun
      rw [run_forM_nil] at hrun
      rw [hrun]
      exact Nat.le_of_eq (Nat.add_zero _)
  | cons e es ih =>
      intro s s'' halong hrun
      obtain ⟨s', he, hes⟩ := (run_forM_cons exec).mp hrun
      obtain ⟨hR, hrest⟩ := halong s' he
      have hfirst := hstep s e s' he hR
      have hlater := ih s' s'' hrest hes
      simp only [stepsCounted, he]
      omega

/-- A run is no longer than what its steps use up. -/
theorem length_add_le_of_run {I : σ → Prop} {R : σ → ε → σ → Prop} {m : σ → Nat}
    (hstep : ∀ s e s', I s → (exec e).run s = .ok (⟨⟩, s') → R s e s' → I s' ∧ m s' < m s) :
    ∀ (es : List ε) (s s' : σ), I s → Along exec R s es →
      (forM es exec).run s = .ok (⟨⟩, s') → es.length + m s' ≤ m s := by
  intro es
  induction es with
  | nil =>
      intro s s' _ _ hrun
      rw [run_forM_nil] at hrun
      rw [hrun]
      exact Nat.le_of_eq (Nat.zero_add _)
  | cons e es ih =>
      intro s s'' hI halong hrun
      obtain ⟨s', he, hes⟩ := (run_forM_cons exec).mp hrun
      obtain ⟨hR, hrest⟩ := halong s' he
      obtain ⟨hI', hless⟩ := hstep s e s' hI he hR
      have hlater := ih s' s'' hI' hrest hes
      rw [List.length_cons]
      omega

/-! ### Systems without faults -/

/-- The program of a step that always completes. -/
def total (step : σ → ε → σ) (e : ε) : StateT σ (Except Empty) PUnit := modify (step · e)

/-- A total step completes. -/
theorem run_total (step : σ → ε → σ) (e : ε) (s : σ) :
    (total step e).run s = .ok (⟨⟩, step s e) := rfl

/-- It completes in the state of the step. -/
theorem run_total_eq_ok {step : σ → ε → σ} {e : ε} {s s' : σ} :
    (total step e).run s = .ok (⟨⟩, s') ↔ s' = step s e := by
  rw [run_total]
  constructor
  · intro h
    cases h
    rfl
  · rintro rfl
    rfl

/-- A loop of such steps is a fold. -/
theorem run_forM_total (step : σ → ε → σ) :
    ∀ (es : List ε) (s : σ), (forM es (total step)).run s = .ok (⟨⟩, es.foldl step s) := by
  intro es
  induction es with
  | nil => intro s; rfl
  | cons e es ih =>
      intro s
      exact (run_forM_cons _).mpr ⟨step s e, rfl, ih (step s e)⟩

/-- The step properties of such a system, one step at a time. -/
theorem along_total_cons {step : σ → ε → σ} {R : σ → ε → σ → Prop} {s : σ} {e : ε}
    {es : List ε} :
    Along (total step) R s (e :: es) ↔
      R s e (step s e) ∧ Along (total step) R (step s e) es := by
  constructor
  · intro h
    exact h (step s e) rfl
  · intro h s' hs'
    rw [run_total_eq_ok.mp hs']
    exact h

/-- A relation along a run of two parts. -/
theorem along_total_append {step : σ → ε → σ} {R : σ → ε → σ → Prop} {es es' : List ε} :
    ∀ {s : σ}, Along (total step) R s (es ++ es') ↔
      Along (total step) R s es ∧ Along (total step) R (es.foldl step s) es' := by
  induction es with
  | nil =>
      intro s
      exact ⟨fun h => ⟨trivial, h⟩, fun h => h.2⟩
  | cons e es ih =>
      intro s
      rw [List.cons_append, along_total_cons, along_total_cons, ih, List.foldl_cons, and_assoc]

/-- The invariant rule for such a system. -/
theorem foldl_invariant {step : σ → ε → σ} {I : σ → Prop} {R : σ → ε → σ → Prop}
    (hstep : ∀ s e, I s → R s e (step s e) → I (step s e)) {es : List ε} {s : σ} (hI : I s)
    (halong : Along (total step) R s es) : I (es.foldl step s) :=
  invariant_of_along (total step)
    (fun s e s' hs he hR => by
      rw [run_total_eq_ok] at he
      subst he
      exact hstep s e hs hR)
    es s _ hI halong (run_forM_total step es s)

/-! ### Reachable states -/

/-- The states that runs from `s₀` reach, when each event satisfies `C`. -/
inductive Reachable (C : ε → Prop) (s₀ : σ) : σ → Prop
  | init : Reachable C s₀ s₀
  | step {s s' : σ} {e : ε} : Reachable C s₀ s → C e → (exec e).run s = .ok (⟨⟩, s') →
      Reachable C s₀ s'

/-- Reachability composes. -/
theorem Reachable.trans {C : ε → Prop} {s₀ s₁ s₂ : σ} (h₁ : Reachable exec C s₀ s₁)
    (h₂ : Reachable exec C s₁ s₂) : Reachable exec C s₀ s₂ := by
  induction h₂ with
  -- The induction is on the later run, and the earlier one is its start.
  | init => exact h₁
  | step _ hC he ih => exact ih.step hC he

/-- Every event may be allowed by a weaker condition. -/
theorem Reachable.mono {C D : ε → Prop} (hCD : ∀ e, C e → D e) {s₀ s : σ}
    (h : Reachable exec C s₀ s) : Reachable exec D s₀ s := by
  induction h with
  | init => exact .init
  | step _ hC he ih => exact ih.step (hCD _ hC) he

/-- An invariant of every step holds in every reachable state. -/
theorem Reachable.invariant {C : ε → Prop} {s₀ s : σ} {I : σ → Prop} (h₀ : I s₀)
    (hstep : ∀ s e s', I s → C e → (exec e).run s = .ok (⟨⟩, s') → I s')
    (h : Reachable exec C s₀ s) : I s := by
  induction h with
  | init => exact h₀
  | step _ hC he ih => exact hstep _ _ _ ih hC he

/-- Simulation: when every step of one system is a run of another under `abs`, its reachable
states are reachable there. -/
theorem Reachable.simulate {σ' ε' φ' : Type} {exec' : ε' → StateT σ' (Except φ') PUnit}
    {abs : σ → σ'} {C : ε → Prop} {C' : ε' → Prop} {s₀ s : σ}
    (hstep : ∀ s e s', C e → (exec e).run s = .ok (⟨⟩, s') →
      Reachable exec' C' (abs s) (abs s'))
    (h : Reachable exec C s₀ s) : Reachable exec' C' (abs s₀) (abs s) := by
  induction h with
  | init => exact .init
  | step _ hC he ih => exact ih.trans exec' (hstep _ _ _ hC he)

/-- A run whose events satisfy `C` ends in a reachable state. -/
theorem Reachable.of_run {C : ε → Prop} {s₀ : σ} :
    ∀ (es : List ε) (s s' : σ), Reachable exec C s₀ s → (∀ e ∈ es, C e) →
      (forM es exec).run s = .ok (⟨⟩, s') → Reachable exec C s₀ s' := by
  intro es
  induction es with
  | nil =>
      intro s s' hs _ hrun
      rw [run_forM_nil] at hrun
      exact hrun ▸ hs
  | cons e es ih =>
      intro s s'' hs hC hrun
      obtain ⟨s', he, hes⟩ := (run_forM_cons exec).mp hrun
      exact ih s' s'' (hs.step (hC e (by simp)) he) (fun e' he' => hC e' (by simp [he'])) hes

/-! ### Runs in an environment -/

/-- Each event of the run is one that the environment may bring in the state in front of it. -/
def Guarded (C : σ → ε → Prop) : σ → List ε → Prop
  | _, [] => True
  | s, e :: es => C s e ∧ ∀ s', (exec e).run s = .ok (⟨⟩, s') → Guarded C s' es

/-- A run of such events completes, when each of its steps does and keeps the invariant. -/
theorem exists_run_of_guarded {I : σ → Prop} {C : σ → ε → Prop}
    (hstep : ∀ e s, I s → C s e → ∃ s', (exec e).run s = .ok (⟨⟩, s') ∧ I s') :
    ∀ (es : List ε) (s : σ), I s → Guarded exec C s es →
      ∃ s', (forM es exec).run s = .ok (⟨⟩, s') ∧ I s' := by
  intro es
  induction es with
  | nil => intro s hI _; exact ⟨s, rfl, hI⟩
  | cons e es ih =>
      intro s hI hguarded
      obtain ⟨s₁, he, hI₁⟩ := hstep e s hI hguarded.1
      obtain ⟨s', hes, hI'⟩ := ih s₁ hI₁ (hguarded.2 s₁ he)
      exact ⟨s', (run_forM_cons exec).mpr ⟨s₁, he, hes⟩, hI'⟩

/-- Behind a fault nothing is asked of the environment. -/
theorem guarded_cons_iff_of_error {C : σ → ε → Prop} {s : σ} {e : ε} {es : List ε} {fault : φ}
    (hrun : (exec e).run s = .error fault) : Guarded exec C s (e :: es) ↔ C s e := by
  refine ⟨And.left, fun hC => ⟨hC, fun s' hrun' => ?_⟩⟩
  cases hrun.symm.trans hrun'

/-- Behind a step the environment goes on in its state. -/
theorem guarded_cons_iff_of_ok {C : σ → ε → Prop} {s s' : σ} {e : ε} {es : List ε}
    (hrun : (exec e).run s = .ok (⟨⟩, s')) :
    Guarded exec C s (e :: es) ↔ C s e ∧ Guarded exec C s' es := by
  refine ⟨fun h => ⟨h.1, h.2 s' hrun⟩, fun h => ⟨h.1, fun s'' hrun' => ?_⟩⟩
  cases hrun.symm.trans hrun'
  exact h.2

/-- The run of the events tells whether the environment may bring them. -/
instance decidableGuarded {C : σ → ε → Prop} [∀ s e, Decidable (C s e)] :
    ∀ (s : σ) (es : List ε), Decidable (Guarded exec C s es)
  | _, [] => .isTrue trivial
  | s, e :: es =>
      match hrun : (exec e).run s with
      | .error _ => decidable_of_iff _ (guarded_cons_iff_of_error exec hrun).symm
      | .ok (⟨⟩, s') =>
          have : Decidable (Guarded exec C s' es) := decidableGuarded s' es
          decidable_of_iff _ (guarded_cons_iff_of_ok exec hrun).symm

end FaultRun
