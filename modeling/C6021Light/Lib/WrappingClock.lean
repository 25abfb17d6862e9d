import Mathlib.Data.Nat.Basic

/-!
# `C6021Light.Lib.WrappingClock`: deadlines on a clock that wraps around

A clock shows the time modulo its period, and a deadline is stored as the clock will show it.
`readsRight_iff` says when the comparison of what the clock shows with what is stored tells
whether the deadline is still to come. Within one round of the clock it always does. A deadline
of a later round is read as if it had passed, and a deadline of an earlier round as if it were
still to come, until the clock shows its time again.
-/

set_option autoImplicit false

namespace WrappingClock

variable {period now deadline : Nat}

/-- The time and the deadline are in one round, or the deadline is in an earlier one and the clock
shows no less than the deadline. -/
def ReadsRight (period now deadline : Nat) : Prop :=
  now / period = deadline / period ∨
    (deadline / period < now / period ∧ deadline % period ≤ now % period)

/-- Whether the clock reads right can be evaluated. -/
instance : Decidable (ReadsRight period now deadline) :=
  inferInstanceAs (Decidable (_ ∨ _))

/-- In one round the clock shows the order of the times. -/
theorem mod_lt_mod_iff_of_div_eq (h : now / period = deadline / period) :
    now % period < deadline % period ↔ now < deadline := by
  have hnow := Nat.div_add_mod now period
  have hdeadline := Nat.div_add_mod deadline period
  rw [h] at hnow
  omega

/-- A time of an earlier round comes first. -/
theorem add_period_le_of_div_lt {a b : Nat} (h : a / period < b / period) :
    period * (a / period) + period ≤ period * (b / period) := by
  rw [← Nat.mul_succ]
  exact Nat.mul_le_mul_left period h

/-- A time in an earlier round is less. -/
theorem lt_of_div_lt {a b : Nat} (hperiod : 0 < period) (h : a / period < b / period) :
    a < b := by
  have hrounds := add_period_le_of_div_lt h
  have ha := Nat.div_add_mod a period
  have hb := Nat.div_add_mod b period
  have hmod := Nat.mod_lt a hperiod
  omega

/-- A deadline of a later round, but less than a round away, looks as if it had passed. -/
theorem mod_lt_mod_of_later (h : now / period < deadline / period)
    (hnear : deadline < now + period) : deadline % period < now % period := by
  have hrounds := add_period_le_of_div_lt h
  have hnow := Nat.div_add_mod now period
  have hdeadline := Nat.div_add_mod deadline period
  omega

/-- The comparison is right exactly when `ReadsRight` holds, for deadlines less than a round
away. -/
theorem readsRight_iff (hperiod : 0 < period) (hnear : deadline < now + period) :
    (now % period < deadline % period ↔ now < deadline) ↔ ReadsRight period now deadline := by
  rcases Nat.lt_trichotomy (now / period) (deadline / period) with hlt | heq | hgt
  · have hbefore := lt_of_div_lt hperiod hlt
    have hmod := mod_lt_mod_of_later hlt hnear
    rw [ReadsRight]
    omega
  · exact iff_of_true (mod_lt_mod_iff_of_div_eq heq) (.inl heq)
  · have hbefore := lt_of_div_lt hperiod hgt
    rw [ReadsRight]
    omega

end WrappingClock
