import Mathlib.Data.List.Induction

/-!
# `C6021Light.Lib.Journal`: entries that the entries before them justify

A journal is a list that grows at its end. `Justified P log` says that `P` holds of each entry
and the entries in front of it, as they were when the entry was made.

`justified_append_singleton` is the step: one more entry is justified by the whole journal so
far.
-/

set_option autoImplicit false

namespace Journal

variable {α : Type} {P : List α → α → Prop} {log : List α}

/-- Each entry satisfies `P` with the entries in front of it. -/
def Justified (P : List α → α → Prop) (log : List α) : Prop :=
  ∀ before a after, log = before ++ a :: after → P before a

/-- There is nothing to justify. -/
theorem Justified.nil : Justified P [] := by
  intro before a after h
  exact absurd h.symm (by simp)

/-- A new entry has to be justified, the others are already. -/
theorem justified_append_singleton {a : α} :
    Justified P (log ++ [a]) ↔ Justified P log ∧ P log a := by
  constructor
  · intro h
    refine ⟨fun before b after hlog => h before b (after ++ [a]) ?_, h log a [] rfl⟩
    rw [hlog, List.append_assoc, List.cons_append]
  · rintro ⟨hlog, ha⟩ before b after hsplit
    rcases after.eq_nil_or_concat with rfl | ⟨init, last, rfl⟩
    -- The entry is the new one.
    · obtain ⟨rfl, hlast⟩ := List.append_inj' hsplit rfl
      cases hlast
      exact ha
    · rw [List.concat_eq_append, ← List.cons_append, ← List.append_assoc] at hsplit
      obtain ⟨hfront, -⟩ := List.append_inj' hsplit rfl
      exact hlog before b init hfront

/-- Entries that need no justification. -/
theorem Justified.append {new : List α} (h : Justified P log)
    (hnew : ∀ a ∈ new, ∀ before, P before a) : Justified P (log ++ new) := by
  intro before a after hsplit
  rcases List.append_eq_append_iff.mp hsplit with ⟨front, rfl, hfront⟩ | ⟨rest, hlog, hrest⟩
  -- The entry is behind the journal, so it is a new one.
  · exact hnew a (hfront ▸ List.mem_append_right front List.mem_cons_self) _
  · cases rest with
    | nil =>
        rw [List.nil_append] at hrest
        exact hnew a (hrest ▸ List.mem_cons_self) before
    | cons b rest =>
        cases hrest
        exact h before a rest hlog

/-- What holds of an entry holds of a prefix of the journal. -/
theorem Justified.of_append {new : List α} (h : Justified P (log ++ new)) : Justified P log := by
  intro before a after hlog
  exact h before a (after ++ new) (by rw [hlog, List.append_assoc, List.cons_append])

end Journal
