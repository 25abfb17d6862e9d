import Mathlib.Data.List.Nodup

/-!
# `C6021Light.Lib.LastWrite`: a log of writes

A log holds writes of values to keys, the oldest one first. `lastWrite` is what a key holds after
them.

* `register_foldl` is the rule for a program that reads a log and keeps one register for a key: the
  register ends with the last write.
* `lastWrite_of_mem` is the case of a log that writes no key twice.
-/

set_option autoImplicit false

namespace LastWrite

variable {κ ν σ ρ : Type} [DecidableEq κ] {key : κ}

/-- The value that a key was written with last. -/
def lastWrite (log : List (κ × ν)) (key : κ) : Option ν :=
  match log with
  | [] => none
  | entry :: log => (lastWrite log key).or (if entry.1 = key then some entry.2 else none)

/-- A later log comes first. -/
theorem lastWrite_append (log log' : List (κ × ν)) (key : κ) :
    lastWrite (log ++ log') key = (lastWrite log' key).or (lastWrite log key) := by
  induction log with
  | nil => exact (Option.or_none).symm
  | cons entry log ih =>
      rw [List.cons_append, lastWrite, lastWrite, ih, Option.or_assoc]

/-- A key that is not written. -/
theorem lastWrite_eq_none {log : List (κ × ν)} (h : key ∉ log.map Prod.fst) :
    lastWrite log key = none := by
  induction log with
  | nil => rfl
  | cons entry log ih =>
      rw [List.map_cons, List.mem_cons, not_or] at h
      rw [lastWrite, ih h.2, if_neg (Ne.symm h.1)]
      rfl

/-- A log that writes no key twice. -/
theorem lastWrite_of_mem {log : List (κ × ν)} {value : ν} (hnodup : (log.map Prod.fst).Nodup)
    (h : (key, value) ∈ log) : lastWrite log key = some value := by
  induction log with
  | nil => cases h
  | cons entry log ih =>
      obtain ⟨hnew, hrest⟩ := List.nodup_cons.mp hnodup
      obtain rfl | hmem := List.mem_cons.mp h
      · rw [lastWrite, lastWrite_eq_none hnew, if_pos rfl]
        rfl
      · rw [lastWrite, ih hrest hmem]
        rfl

/-- A register that each write of its key sets, and no other write. -/
theorem register_foldl {step : σ → κ × ν → σ} {register : σ → ρ} {decode : ν → ρ}
    (hstep : ∀ s entry,
      register (step s entry) = if entry.1 = key then decode entry.2 else register s)
    (log : List (κ × ν)) :
    ∀ s, register (log.foldl step s) = (lastWrite log key).elim (register s) decode := by
  induction log with
  | nil => exact fun s => rfl
  | cons entry log ih =>
      intro s
      rw [List.foldl_cons, ih, hstep, lastWrite]
      cases lastWrite log key with
      | some value => rfl
      | none =>
          by_cases hkey : entry.1 = key
          · rw [if_pos hkey, if_pos hkey]
            rfl
          · rw [if_neg hkey, if_neg hkey]
            rfl

end LastWrite
