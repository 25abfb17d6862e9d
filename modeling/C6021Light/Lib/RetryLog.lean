import Mathlib.Data.List.Induction

/-!
# `C6021Light.Lib.RetryLog`: attempts between resets

A component that repeats an attempt, with a counter that it sets back now and then, leaves a
log of two kinds of marks. `sinceReset` is the number of attempts behind the last reset, and
`Bounded n` says that there are never more than `n` attempts without a reset between them.

A counter that is at least `sinceReset` and is tested before each attempt keeps the log
bounded (`Bounded.append_attempt`). The counter may be anything while no attempt is made.
-/

set_option autoImplicit false

namespace RetryLog

/-- A reset of the counter, or an attempt. -/
inductive Mark
  | reset
  | attempt
deriving DecidableEq, Repr

/-- The attempts behind the last reset. -/
def sinceReset (log : List Mark) : Nat :=
  log.foldl (fun count mark => match mark with
    | .reset => 0
    | .attempt => count + 1) 0

/-- A reset starts the count again. -/
@[simp] theorem sinceReset_append_reset (log : List Mark) :
    sinceReset (log ++ [.reset]) = 0 := by
  simp [sinceReset]

/-- An attempt counts. -/
@[simp] theorem sinceReset_append_attempt (log : List Mark) :
    sinceReset (log ++ [.attempt]) = sinceReset log + 1 := by
  simp [sinceReset]

/-- `k` attempts in a row count `k`. -/
theorem sinceReset_append_replicate (log : List Mark) (k : Nat) :
    sinceReset (log ++ List.replicate k .attempt) = sinceReset log + k := by
  induction k with
  | zero => simp
  | succ k ih =>
      rw [List.replicate_succ', ← List.append_assoc, sinceReset_append_attempt, ih, Nat.add_assoc]

/-- At most `n` attempts follow each other without a reset. -/
def Bounded (n : Nat) (log : List Mark) : Prop :=
  ∀ before k after, log = before ++ List.replicate k .attempt ++ after → k ≤ n

/-- Nothing was attempted in an empty log. -/
theorem Bounded.nil (n : Nat) : Bounded n [] := by
  intro before k after h
  have hlen := congrArg List.length h
  simp only [List.length_nil, List.length_append, List.length_replicate] at hlen
  omega

/-- The attempts at the end of a longer log, or the attempts of the log itself. -/
theorem Bounded.append {n : Nat} {log : List Mark} (h : Bounded n log) (mark : Mark)
    (hend : ∀ before k, log ++ [mark] = before ++ List.replicate k .attempt → k ≤ n) :
    Bounded n (log ++ [mark]) := by
  intro before k after hsplit
  rcases after.eq_nil_or_concat with rfl | ⟨init, last, rfl⟩
  · exact hend before k (by rwa [List.append_nil] at hsplit)
  · rw [List.concat_eq_append, ← List.append_assoc] at hsplit
    obtain ⟨hlog, _⟩ := List.append_inj' hsplit rfl
    exact h before k init hlog

/-- A reset keeps the bound. -/
theorem Bounded.append_reset {n : Nat} {log : List Mark} (h : Bounded n log) :
    Bounded n (log ++ [.reset]) := by
  refine h.append .reset fun before k hsplit => ?_
  have hcount := congrArg sinceReset hsplit
  rw [sinceReset_append_reset, sinceReset_append_replicate] at hcount
  omega

/-- One more attempt, when fewer than `n` follow the last reset. -/
theorem Bounded.append_attempt {n : Nat} {log : List Mark} (h : Bounded n log)
    (hlt : sinceReset log < n) : Bounded n (log ++ [.attempt]) := by
  refine h.append .attempt fun before k hsplit => ?_
  have hcount := congrArg sinceReset hsplit
  rw [sinceReset_append_attempt, sinceReset_append_replicate] at hcount
  omega

end RetryLog
