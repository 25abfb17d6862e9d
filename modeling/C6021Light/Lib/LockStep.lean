import Mathlib.Logic.Function.Basic

/-!
# `C6021Light.Lib.LockStep`: two programs that fail in the same way

A program here has a result in `Except`. Two programs agree when both succeed with related results,
or when both stop with the same fault. So a fault of one is a fault of the other.

* `Agree.bind` composes agreements, and `Agree.same` is for a part that both programs share.
* `Agree.foldlM` is the rule for a run over a list of events: if one step agrees, the run agrees.
* `foldlM_invariant` is the invariant rule for one such run.
-/

set_option autoImplicit false

namespace LockStep

variable {α β γ δ φ ι : Type}

/-- A sequence succeeds when both of its parts do. -/
theorem bind_eq_ok {x : Except φ α} {f : α → Except φ β} {b : β} :
    x >>= f = .ok b ↔ ∃ a, x = .ok a ∧ f a = .ok b := by
  cases x with
  | ok a => exact ⟨fun h => ⟨a, rfl, h⟩, fun ⟨_, ha, h⟩ => Except.ok.inj ha ▸ h⟩
  | error e => exact ⟨nofun, fun ⟨_, ha, _⟩ => nomatch ha⟩

/-- A sequence fails in its first part, or in its second one. -/
theorem bind_eq_error {x : Except φ α} {f : α → Except φ β} {e : φ} :
    x >>= f = .error e ↔ x = .error e ∨ ∃ a, x = .ok a ∧ f a = .error e := by
  cases x with
  | ok a =>
      exact ⟨fun h => .inr ⟨a, rfl, h⟩, fun h => by
        obtain h | ⟨_, ha, h⟩ := h
        · cases h
        · exact Except.ok.inj ha ▸ h⟩
  | error e' =>
      exact ⟨fun h => .inl (congrArg Except.error (Except.error.inj h)), fun h => by
        obtain h | ⟨_, ha, _⟩ := h
        · exact congrArg Except.error (Except.error.inj h)
        · cases ha⟩

/-- Related results, or the same fault. -/
inductive Agree (R : α → β → Prop) : Except φ α → Except φ β → Prop
  | ok {a : α} {b : β} (h : R a b) : Agree R (.ok a) (.ok b)
  | fault (e : φ) : Agree R (.error e) (.error e)

namespace Agree

variable {R : α → β → Prop} {S : γ → δ → Prop} {x : Except φ α} {y : Except φ β}

/-- Sequences agree when their parts do. -/
theorem bind {f : α → Except φ γ} {g : β → Except φ δ} (h : Agree R x y)
    (hnext : ∀ a b, R a b → Agree S (f a) (g b)) : Agree S (x >>= f) (y >>= g) := by
  cases h with
  | ok h => exact hnext _ _ h
  | fault e => exact .fault e

/-- The first part is the same in both programs. -/
theorem same {f : α → Except φ γ} {g : α → Except φ δ} (x : Except φ α)
    (hnext : ∀ a, x = .ok a → Agree S (f a) (g a)) : Agree S (x >>= f) (x >>= g) := by
  cases hx : x with
  | ok a => exact hnext a hx
  | error e => exact .fault e

/-- A weaker relation holds, too. -/
theorem mono {R' : α → β → Prop} (h : Agree R x y) (himp : ∀ a b, R a b → R' a b) :
    Agree R' x y := by
  cases h with
  | ok h => exact .ok (himp _ _ h)
  | fault e => exact .fault e

/-- A fact about the result of the second program. -/
theorem and_right {Q : β → Prop} (h : Agree R x y) (hright : ∀ b, y = .ok b → Q b) :
    Agree (fun a b => R a b ∧ Q b) x y := by
  cases h with
  | ok h => exact .ok ⟨h, hright _ rfl⟩
  | fault e => exact .fault e

/-- When the left side returns, the right side returns a related result. -/
theorem exists_right (h : Agree R x y) {a : α} (hx : x = .ok a) : ∃ b, y = .ok b ∧ R a b := by
  subst hx
  cases h with
  | ok h => exact ⟨_, rfl, h⟩

/-- When the right side returns, the left side returns a related result. -/
theorem exists_left (h : Agree R x y) {b : β} (hy : y = .ok b) : ∃ a, x = .ok a ∧ R a b := by
  subst hy
  cases h with
  | ok h => exact ⟨_, rfl, h⟩

/-- One side fails exactly when the other does, with the same fault. -/
theorem error_iff (h : Agree R x y) {e : φ} : x = .error e ↔ y = .error e := by
  cases h with
  | ok h => exact ⟨nofun, nofun⟩
  | fault e' => exact Iff.of_eq (by simp only [Except.error.injEq])

/-- Runs agree when the steps do. -/
theorem foldlM {f : α → ι → Except φ α} {g : β → ι → Except φ β}
    (hstep : ∀ a b i, R a b → Agree R (f a i) (g b i)) (events : List ι) :
    ∀ a b, R a b → Agree R (events.foldlM f a) (events.foldlM g b) := by
  induction events with
  | nil => exact fun a b h => .ok h
  | cons i events ih =>
      intro a b h
      rw [List.foldlM_cons, List.foldlM_cons]
      exact (hstep a b i h).bind ih

end Agree

/-- What each step preserves holds at the end of the run. -/
theorem foldlM_invariant {P : α → Prop} {f : α → ι → Except φ α}
    (hstep : ∀ a i a', P a → f a i = .ok a' → P a') (events : List ι) :
    ∀ {a a' : α}, P a → events.foldlM f a = .ok a' → P a' := by
  induction events with
  | nil =>
      intro a a' h hrun
      cases hrun
      exact h
  | cons i events ih =>
      intro a a' h hrun
      rw [List.foldlM_cons] at hrun
      cases hi : f a i with
      | error e =>
          rw [hi] at hrun
          cases hrun
      | ok next =>
          rw [hi] at hrun
          exact ih (hstep a i next h hi) hrun

/-- A run fails at one of its steps. -/
theorem foldlM_eq_error {f : α → ι → Except φ α} {e : φ} (events : List ι) :
    ∀ {a : α}, events.foldlM f a = .error e ↔
      ∃ front i rest a', events = front ++ i :: rest ∧ front.foldlM f a = .ok a' ∧
        f a' i = .error e := by
  induction events with
  | nil => exact ⟨nofun, fun ⟨front, _, _, _, hnil, _⟩ => by cases front <;> cases hnil⟩
  | cons j events ih =>
      intro a
      rw [List.foldlM_cons, bind_eq_error]
      constructor
      · rintro (h | ⟨next, hj, h⟩)
        · exact ⟨[], j, events, a, rfl, rfl, h⟩
        · obtain ⟨front, i, rest, a', rfl, hfront, hi⟩ := ih.mp h
          exact ⟨j :: front, i, rest, a', rfl, by rw [List.foldlM_cons, hj]; exact hfront, hi⟩
      · rintro ⟨front, i, rest, a', hevents, hfront, hi⟩
        cases front with
        | nil =>
            cases hevents
            cases hfront
            exact .inl hi
        | cons k front =>
            cases hevents
            rw [List.foldlM_cons] at hfront
            obtain ⟨next, hk, hfront⟩ := bind_eq_ok.mp hfront
            exact .inr ⟨next, hk, ih.mpr ⟨front, i, rest, a', rfl, hfront, hi⟩⟩

end LockStep
