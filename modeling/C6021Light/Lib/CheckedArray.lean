import Mathlib.Data.List.Basic
import Mathlib.Data.List.TakeDrop

/-!
# `C6021Light.Lib.CheckedArray`: arrays with bounds

An array is a list of its cells. The operations are those of C: `memcpy` to a position
(`overwrite`), `memmove`, the read of a range (`slice`), and the read of a string that a mark ends
(`untilMark`). An access outside of the array has no result.

The lemmas are about arrays in pieces, `front ++ old ++ rest`. The operation names the piece by the
length of what is in front of it, and the other pieces stay.
-/

set_option autoImplicit false

namespace CheckedArray

variable {α : Type}

/-! ### Ranges -/

/-- The cells of a range. -/
def slice (array : List α) (offset len : Nat) : Option (List α) :=
  if offset + len ≤ array.length then some ((array.drop offset).take len) else none

/-- `memcpy` to a position. -/
def overwrite (array : List α) (offset : Nat) (src : List α) : Option (List α) :=
  if offset + src.length ≤ array.length then
    some (array.take offset ++ src ++ array.drop (offset + src.length))
  else none

/-- A write to one cell. -/
def put (array : List α) (offset : Nat) (a : α) : Option (List α) := overwrite array offset [a]

/-- `memmove` within an array. -/
def memmove (array : List α) (dest src len : Nat) : Option (List α) :=
  (slice array src len).bind (overwrite array dest)

variable {array array' front rest : List α}

/-- A piece of the array is read at the place where it is. -/
theorem slice_append (front piece rest : List α) :
    slice (front ++ piece ++ rest) front.length piece.length = some piece := by
  have hfit : front.length + piece.length ≤ (front ++ piece ++ rest).length := by
    simp only [List.length_append]
    omega
  rw [slice, if_pos hfit, List.append_assoc, List.drop_left, List.take_left]

/-- What is read has the length that was asked for. -/
theorem length_of_slice {offset len : Nat} {piece : List α}
    (h : slice array offset len = some piece) :
    piece.length = len := by
  obtain ⟨hfit, hpiece⟩ := Option.ite_none_right_eq_some.mp h
  rw [← Option.some.inj hpiece, List.length_take, List.length_drop]
  omega

/-- A piece is replaced by one of its length. -/
theorem overwrite_append (front rest : List α) {old src : List α}
    (hlen : src.length = old.length) :
    overwrite (front ++ old ++ rest) front.length src = some (front ++ src ++ rest) := by
  have hfit : front.length + src.length ≤ (front ++ old ++ rest).length := by
    simp only [List.length_append]
    omega
  rw [overwrite, if_pos hfit, hlen, ← List.length_append, List.drop_left, List.append_assoc front,
    List.take_left]

/-- Writing nothing is possible at any place up to the end. -/
theorem overwrite_nil {offset : Nat} (h : offset ≤ array.length) :
    overwrite array offset [] = some array := by
  rw [overwrite, List.length_nil, Nat.add_zero, if_pos h, List.append_nil, List.take_append_drop]

/-- One cell is replaced. -/
theorem put_append (front rest : List α) (old a : α) :
    put (front ++ old :: rest) front.length a = some (front ++ a :: rest) := by
  have h := @overwrite_append _ front rest [old] [a] rfl
  rwa [List.append_assoc, List.append_assoc] at h

/-- A write that fits is a write to the cells of the range. -/
theorem overwrite_eq_some {offset : Nat} {src : List α}
    (hfit : offset + src.length ≤ array.length) :
    ∃ written, overwrite array offset src = some written ∧ written.length = array.length ∧
      (∀ i a, src[i]? = some a → written[offset + i]? = some a) ∧
      ∀ i, i < offset ∨ offset + src.length ≤ i → written[i]? = array[i]? := by
  have hfront : (array.take offset).length = offset := by
    rw [List.length_take]
    omega
  refine ⟨_, if_pos hfit, ?_, fun i a hi => ?_, fun i hi => ?_⟩
  · simp only [List.length_append, List.length_drop, hfront]
    omega
  · obtain ⟨hlt, -⟩ := List.getElem?_eq_some_iff.mp hi
    rw [List.append_assoc, List.getElem?_append_right (by omega), hfront, Nat.add_sub_cancel_left,
      List.getElem?_append_left hlt, hi]
  · obtain hi | hi := hi
    · rw [List.append_assoc, List.getElem?_append_left (by omega), List.getElem?_take_of_lt hi]
    · rw [List.getElem?_append_right (by rw [List.length_append]; omega), List.length_append,
        hfront,
        List.getElem?_drop]
      congr 1
      omega

/-- An array in pieces, with a cell behind the range. -/
theorem exists_pieces {offset len : Nat} (h : offset + len < array.length) :
    ∃ front old c rest, array = front ++ old ++ c :: rest ∧ front.length = offset ∧
      old.length = len := by
  have hdrop := List.take_append_drop (offset + len) array
  obtain ⟨c, rest, hrest⟩ : ∃ c rest, array.drop (offset + len) = c :: rest :=
    List.exists_cons_of_ne_nil fun hnil => absurd (List.drop_eq_nil_iff.mp hnil) (by omega)
  rw [hrest, List.take_add] at hdrop
  refine ⟨array.take offset, (array.drop offset).take len, c, rest, hdrop.symm, ?_, ?_⟩
  · rw [List.length_take, Nat.min_eq_left (by omega)]
  · rw [List.length_take, List.length_drop, Nat.min_eq_left (by omega)]

/-- A move succeeds when both the read and the write do. -/
theorem memmove_eq_some {dest src len : Nat} {moved : List α} :
    memmove array dest src len = some moved ↔
      ∃ piece, slice array src len = some piece ∧ overwrite array dest piece = some moved :=
  Option.bind_eq_some_iff

/-! ### Strings -/

section

variable [DecidableEq α] {mark : α}

/-- The cells in front of the first mark. -/
def untilMark (mark : α) : List α → Option (List α)
  | [] => none
  | a :: array => if a = mark then some [] else (untilMark mark array).map (a :: ·)

/-- A text without the mark is found in front of it. -/
theorem untilMark_append {text : List α} (hmark : mark ∉ text) (rest : List α) :
    untilMark mark (text ++ mark :: rest) = some text := by
  induction text with
  | nil => exact if_pos rfl
  | cons a text ih =>
      obtain ⟨hne, hmem⟩ := not_or.mp (mt List.mem_cons.mpr hmark)
      rw [List.cons_append, untilMark, if_neg (Ne.symm hne), ih hmem, Option.map_some]

end

end CheckedArray
