import Mathlib

/-!
# `C6021Light.Lib.NewestFit`: the newest items that fit

A store of a bounded size drops its oldest items until a new one fits. Each item has a weight, and
the weights of the stored items do not exceed a capacity. `newest` is the longest end of a list that
fits (`length_le_of_isSuffix`).

A store that keeps the newest items that fit, and makes room for one more, keeps the newest items of
the longer list (`newest_append_singleton`, `newest_newest`).
-/

set_option autoImplicit false

namespace NewestFit

variable {α : Type} (weight : α → Nat)

/-- The weight of a list. -/
def total (as : List α) : Nat := (as.map weight).sum

/-- The longest end that fits. -/
def newest (cap : Nat) : List α → List α
  | [] => []
  | a :: as => if total weight (a :: as) ≤ cap then a :: as else newest cap as

variable {weight} {cap cap' : Nat} {as bs : List α}

/-- The weights add up. -/
theorem total_append (as bs : List α) :
    total weight (as ++ bs) = total weight as + total weight bs := by
  rw [total, List.map_append, List.sum_append]
  rfl

/-- It is an end of the list. -/
theorem newest_isSuffix (cap : Nat) (as : List α) : newest weight cap as <:+ as := by
  induction as with
  | nil => exact List.suffix_refl []
  | cons a as ih =>
      rw [newest]
      split
      · exact List.suffix_refl _
      · exact ih.trans (List.suffix_cons a as)

/-- It fits. -/
theorem total_newest_le (cap : Nat) (as : List α) : total weight (newest weight cap as) ≤ cap := by
  induction as with
  | nil => exact Nat.zero_le _
  | cons a as ih =>
      rw [newest]
      split
      · assumption
      · exact ih

/-- A list that fits is its own longest end. -/
theorem newest_of_le (h : total weight as ≤ cap) : newest weight cap as = as := by
  cases as with
  | nil => rfl
  | cons a as => exact if_pos h

/-- Each end that fits is within the longest one. -/
theorem isSuffix_newest (hsuffix : bs <:+ as) (h : total weight bs ≤ cap) :
    bs <:+ newest weight cap as := by
  induction as with
  | nil => exact hsuffix
  | cons a as ih =>
      rcases List.suffix_cons_iff.mp hsuffix with rfl | hsuffix'
      · exact ⟨[], (newest_of_le h).symm⟩
      · rw [newest]
        split
        · exact hsuffix
        · exact ih hsuffix'

/-- An end weighs no more than the list. -/
theorem total_le_of_isSuffix (hsuffix : bs <:+ as) : total weight bs ≤ total weight as := by
  obtain ⟨front, rfl⟩ := hsuffix
  rw [total_append]
  exact Nat.le_add_left _ _

/-- Less room leaves an end of what more room leaves. -/
theorem newest_newest (h : cap ≤ cap') (as : List α) :
    newest weight cap (newest weight cap' as) = newest weight cap as := by
  refine (List.IsSuffix.eq_of_length_le ?_ ?_)
  · refine isSuffix_newest ((newest_isSuffix _ _).trans (newest_isSuffix _ _)) ?_
    exact total_newest_le _ _
  · refine List.IsSuffix.length_le (isSuffix_newest ?_ (total_newest_le _ _))
    exact isSuffix_newest (newest_isSuffix _ _) (Nat.le_trans (total_newest_le _ _) h)

/-- One more item takes its weight from the room of the others. -/
theorem newest_append_singleton {a : α} (ha : weight a ≤ cap) (as : List α) :
    newest weight cap (as ++ [a]) = newest weight (cap - weight a) as ++ [a] := by
  have hsingle : total weight [a] = weight a := Nat.add_zero _
  refine (List.IsSuffix.eq_of_length_le ?_ ?_).symm
  · refine isSuffix_newest (List.suffix_append_self_iff.mpr (newest_isSuffix _ _)) ?_
    · rw [total_append, hsingle]
      have hle := @total_newest_le _ weight (cap - weight a) as
      omega
  · -- The longer list keeps the new item, and what it keeps in front of it fits in the rest.
    have hmem : [a] <:+ newest weight cap (as ++ [a]) :=
      isSuffix_newest (List.suffix_append as [a]) (hsingle ▸ ha)
    obtain ⟨front, hfront⟩ := hmem
    have hsuffix := @newest_isSuffix _ weight cap (as ++ [a])
    have htotal := @total_newest_le _ weight cap (as ++ [a])
    rw [← hfront] at hsuffix htotal ⊢
    rw [total_append, hsingle] at htotal
    have hle : front.length ≤ (newest weight (cap - weight a) as).length := by
      refine List.IsSuffix.length_le (isSuffix_newest ?_ (by omega))
      exact List.suffix_append_self_iff.mp hsuffix
    simp only [List.length_append]
    omega

end NewestFit
