/-!
# `C6021Light.Lib.OwnerFlag`: a flag that one party at a time owns

Parties compete for a resource through one flag. `OwnerFlag busy owns` says that the flag is set
exactly when one party owns the resource. It has one rule for each thing that parties do: take a
free resource (`acquire`), give it back (`release`) and pass it on (`handOver`). A step of anybody
else leaves the owners alone (`congr`).
-/

set_option autoImplicit false

/-- The flag is set when there is an owner, and there are never two. -/
structure OwnerFlag {ι : Type} (busy : Bool) (owns : ι → Prop) : Prop where
  busy_iff : busy = true ↔ ∃ i, owns i
  exclusive : ∀ i j, owns i → owns j → i = j

namespace OwnerFlag

variable {ι : Type} {busy : Bool} {owns owns' : ι → Prop} {i j : ι}

/-- A free resource has no owner. -/
theorem not_owns (h : OwnerFlag false owns) (i : ι) : ¬ owns i :=
  fun hi => Bool.false_ne_true (h.busy_iff.mpr ⟨i, hi⟩)

/-- An owned resource is busy. -/
theorem busy_of_owns (h : OwnerFlag busy owns) (hi : owns i) : busy = true :=
  h.busy_iff.mpr ⟨i, hi⟩

/-- Without an owner the resource is free. -/
theorem of_none (h : ∀ i, ¬ owns i) : OwnerFlag false owns where
  busy_iff := iff_of_false Bool.false_ne_true fun ⟨i, hi⟩ => h i hi
  exclusive i _ hi := absurd hi (h i)

/-- With exactly one owner the resource is busy. -/
theorem of_only (hi : owns i) (honly : ∀ j, owns j → j = i) : OwnerFlag true owns where
  busy_iff := iff_of_true rfl ⟨i, hi⟩
  exclusive j k hj hk := (honly j hj).trans (honly k hk).symm

/-- Only who owns it matters. -/
theorem congr (h : OwnerFlag busy owns) (howns : ∀ k, owns' k ↔ owns k) : OwnerFlag busy owns' := by
  rwa [funext fun k => propext (howns k)]

/-- A free resource may be taken. -/
theorem acquire (h : OwnerFlag false owns) (hi : owns' i) (howns : ∀ k, k ≠ i → owns' k → owns k) :
    OwnerFlag true owns' := by
  refine of_only hi fun k hk => ?_
  by_cases hne : k = i
  · exact hne
  · exact absurd (howns k hne hk) (h.not_owns k)

/-- The owner gives it back. -/
theorem release (h : OwnerFlag busy owns) (hi : owns i) (hi' : ¬ owns' i)
    (howns : ∀ k, k ≠ i → owns' k → owns k) : OwnerFlag false owns' := by
  refine of_none fun k hk => ?_
  by_cases hne : k = i
  · exact hi' (hne ▸ hk)
  · exact hne (h.exclusive k i (howns k hne hk) hi)

/-- The owner passes it on. -/
theorem handOver (h : OwnerFlag busy owns) (hi : owns i) (hi' : i ≠ j → ¬ owns' i) (hj : owns' j)
    (howns : ∀ k, k ≠ i → k ≠ j → owns' k → owns k) : OwnerFlag busy owns' := by
  rw [h.busy_of_owns hi]
  refine of_only hj fun k hk => ?_
  by_cases hki : k = i
  · by_cases hij : i = j
    · exact hki.trans hij
    · exact absurd (hki ▸ hk) (hi' hij)
  · by_cases hkj : k = j
    · exact hkj
    · exact absurd (h.exclusive k i (howns k hki hkj hk) hi) hki

end OwnerFlag
