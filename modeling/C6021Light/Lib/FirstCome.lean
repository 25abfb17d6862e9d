import Mathlib.Data.Finset.Card

/-!
# `C6021Light.Lib.FirstCome`: numbering in the order of first requests

A roster is a list without duplicates. `enroll` appends a newcomer to it and leaves a roster
with the element alone, so a fold of `enroll` over a list of requests is the list of what was
requested, in the order of the first requests. The position of an element is its number.

* `enroll_foldl_extends` and `idxOf_of_extends`: a roster only grows at its end, so a number
  never changes.
* `enroll_foldl_nodup` and `mem_enroll_foldl`: the roster has each request once.
* `length_enroll_foldl`: it is as long as there are different requests.
-/

set_option autoImplicit false

namespace FirstCome

variable {α : Type} [DecidableEq α]

/-- A newcomer goes to the end of the roster. -/
def enroll (roster : List α) (a : α) : List α :=
  if a ∈ roster then roster else roster ++ [a]

/-- Who is on the roster is not enrolled again. -/
theorem enroll_of_mem {roster : List α} {a : α} (h : a ∈ roster) : enroll roster a = roster :=
  if_pos h

/-- Who is not on the roster comes behind the others. -/
theorem enroll_of_notMem {roster : List α} {a : α} (h : a ∉ roster) :
    enroll roster a = roster ++ [a] := if_neg h

/-- The roster afterwards has one more member at most. -/
theorem mem_enroll {roster : List α} {a b : α} : b ∈ enroll roster a ↔ b ∈ roster ∨ b = a := by
  by_cases h : a ∈ roster
  · rw [enroll_of_mem h]
    exact ⟨.inl, fun hb => hb.elim id fun hba => hba ▸ h⟩
  · rw [enroll_of_notMem h]
    simp

/-- The roster grows at its end. -/
theorem enroll_extends (roster : List α) (a : α) : roster <+: enroll roster a := by
  by_cases h : a ∈ roster
  · rw [enroll_of_mem h]
  · rw [enroll_of_notMem h]
    exact List.prefix_append roster [a]

/-- No one is on the roster twice. -/
theorem enroll_nodup {roster : List α} (h : roster.Nodup) (a : α) :
    (enroll roster a).Nodup := by
  by_cases ha : a ∈ roster
  · rwa [enroll_of_mem ha]
  · rw [enroll_of_notMem ha, List.nodup_append]
    refine ⟨h, List.nodup_singleton a, fun b hb c hc hbc => ?_⟩
    rw [List.mem_singleton.mp hc] at hbc
    exact ha (hbc ▸ hb)

/-! ### A list of requests -/

/-- The roster grows at its end over many arrivals. -/
theorem enroll_foldl_extends (as : List α) :
    ∀ roster : List α, roster <+: as.foldl enroll roster := by
  induction as with
  | nil => intro roster; exact List.prefix_refl roster
  | cons a as ih =>
      intro roster
      exact (enroll_extends roster a).trans (ih (enroll roster a))

/-- The members are those of before and those that arrived. -/
theorem mem_enroll_foldl {b : α} (as : List α) :
    ∀ roster : List α, b ∈ as.foldl enroll roster ↔ b ∈ roster ∨ b ∈ as := by
  induction as with
  | nil => simp
  | cons a as ih =>
      intro roster
      rw [List.foldl_cons, ih, mem_enroll, List.mem_cons, or_assoc]

/-- No one is on the roster twice after many arrivals. -/
theorem enroll_foldl_nodup (as : List α) :
    ∀ {roster : List α}, roster.Nodup → (as.foldl enroll roster).Nodup := by
  induction as with
  | nil => intro roster h; exact h
  | cons a as ih =>
      intro roster h
      exact ih (enroll_nodup h a)

/-- The roster of all requests has one entry for each different request. -/
theorem length_enroll_foldl (as : List α) : (as.foldl enroll []).length = as.toFinset.card := by
  have hnodup : (as.foldl enroll []).Nodup := enroll_foldl_nodup as List.nodup_nil
  have hset : (as.foldl enroll []).toFinset = as.toFinset := by
    ext a
    simp [mem_enroll_foldl]
  rw [← hset, List.toFinset_card_of_nodup hnodup]

/-- A number given early stays. -/
theorem idxOf_of_extends {roster roster' : List α} (h : roster <+: roster') {a : α}
    (ha : a ∈ roster) : roster'.idxOf a = roster.idxOf a := by
  obtain ⟨more, rfl⟩ := h
  exact List.idxOf_append_of_mem ha

end FirstCome
