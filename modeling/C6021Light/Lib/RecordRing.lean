import C6021Light.Lib.CheckedArray
import Mathlib.Data.Nat.ModEq

/-!
# `C6021Light.Lib.RecordRing`: records in a circular memory

A record is a list of cells. In the memory its length is in front of it, as a cell (`code`), and the
records follow each other. Behind the last one is the cell of the length zero. The memory is
circular: behind its last cell is its first one.

`Holds ring p cells` says that the cells are in the memory from the position `p` on. `Stores` is the
representation of a list of records from `first` to `last`, where the end mark is. A record leaves
at the front (`Stores.tail`), and another one is written at the end (`Stores.push`). `Stores.header`
and `Stores.record` read the record at an index.
-/

set_option autoImplicit false

namespace RecordRing

open CheckedArray

variable {α : Type}

/-! ### Circular memory -/

/-- The cells are in the memory from a position on. -/
def Holds (ring : List α) (p : Nat) (cells : List α) : Prop :=
  ∀ i a, cells[i]? = some a → ring[(p + i) % ring.length]? = some a

section

variable {ring ring' cells more : List α} {p : Nat}

/-- No cells are anywhere. -/
theorem Holds.nil : Holds ring p [] := by
  intro i a h
  rw [List.getElem?_nil] at h
  cases h

/-- Cells in two parts. -/
theorem holds_append :
    Holds ring p (cells ++ more) ↔ Holds ring p cells ∧ Holds ring (p + cells.length) more := by
  constructor
  · intro h
    refine ⟨fun i a hi => h i a ?_, fun i a hi => ?_⟩
    · exact (List.getElem?_append_left (List.getElem?_eq_some_iff.mp hi).1).trans hi
    · rw [Nat.add_assoc]
      refine h _ a ?_
      rw [List.getElem?_append_right (Nat.le_add_right _ _), Nat.add_sub_cancel_left, hi]
  · rintro ⟨hcells, hmore⟩ i a hi
    by_cases hlt : i < cells.length
    · rw [List.getElem?_append_left hlt] at hi
      exact hcells i a hi
    · rw [List.getElem?_append_right (Nat.le_of_not_lt hlt)] at hi
      have h := hmore _ a hi
      rwa [Nat.add_assoc, Nat.add_sub_of_le (Nat.le_of_not_lt hlt)] at h

/-- One cell. -/
theorem holds_singleton {a : α} : Holds ring p [a] ↔ ring[p % ring.length]? = some a := by
  constructor
  · intro h
    exact h 0 a rfl
  · intro h i b hi
    obtain ⟨hlt, hget⟩ := List.getElem?_eq_some_iff.mp hi
    obtain rfl : i = 0 := Nat.lt_one_iff.mp hlt
    obtain rfl : a = b := hget
    exact h

/-- Cells from their first one. -/
theorem holds_cons {a : α} :
    Holds ring p (a :: cells) ↔ ring[p % ring.length]? = some a ∧ Holds ring (p + 1) cells := by
  rw [← holds_singleton, ← List.singleton_append, holds_append]
  rfl

/-- A position counts up to the length of the memory. -/
theorem holds_mod : Holds ring (p % ring.length) cells ↔ Holds ring p cells := by
  simp only [Holds, Nat.mod_add_mod]

/-- Cells that do not go over the end of the memory are a range of it. -/
theorem Holds.slice (h : Holds ring p cells) (hfit : p + cells.length ≤ ring.length) :
    slice ring p cells.length = some cells := by
  rw [CheckedArray.slice, if_pos hfit]
  refine congrArg some (List.ext_getElem? fun i => ?_)
  by_cases hlt : i < cells.length
  · have hcell := h i _ (List.getElem?_eq_getElem hlt)
    rw [Nat.mod_eq_of_lt (by omega)] at hcell
    rw [List.getElem?_take_of_lt hlt, List.getElem?_drop, hcell, List.getElem?_eq_getElem hlt]
  · rw [List.getElem?_eq_none (Nat.le_of_not_lt hlt),
      List.getElem?_eq_none ((List.length_take_le _ _).trans (Nat.le_of_not_lt hlt))]

/-! ### Writes -/

/-- `ring'` is the memory with the cells written from a position on. -/
structure Writes (ring ring' : List α) (p : Nat) (cells : List α) : Prop where
  length : ring'.length = ring.length
  holds : Holds ring' p cells
  other : ∀ i, cells.length ≤ i → i < ring.length →
    ring'[(p + i) % ring.length]? = ring[(p + i) % ring.length]?

/-- Cells in front of the written ones stay. -/
theorem Writes.frame {before written : List α} (h : Writes ring ring' (p + before.length) written)
    (hfit : before.length + written.length ≤ ring.length) (hbefore : Holds ring p before) :
    Holds ring' p before := by
  intro i a hi
  have hlt : i < before.length := (List.getElem?_eq_some_iff.mp hi).1
  -- The cell is that many steps behind the written position, once around.
  have hround : (p + before.length + (ring.length - before.length + i)) % ring.length
      = (p + i) % ring.length := by
    have hsum : p + before.length + (ring.length - before.length + i) = p + i + ring.length := by
      omega
    rw [hsum, Nat.add_mod_right]
  have hkept := h.other (ring.length - before.length + i) (by omega) (by omega)
  rw [hround] at hkept
  rw [h.length, hkept]
  exact hbefore i a hi

/-- A write behind a write. -/
theorem Writes.append {ring'' : List α} (h : Writes ring ring' p cells)
    (hmore : Writes ring' ring'' (p + cells.length) more)
    (hfit : cells.length + more.length ≤ ring.length) :
    Writes ring ring'' p (cells ++ more) := by
  refine ⟨hmore.length.trans h.length, holds_append.mpr ⟨?_, hmore.holds⟩, fun i hle hlt => ?_⟩
  · exact hmore.frame (h.length ▸ hfit) h.holds
  · rw [List.length_append] at hle
    have hlater := hmore.other (i - cells.length) (by omega) (h.length ▸ by omega)
    have hsum : p + cells.length + (i - cells.length) = p + i := by omega
    rw [hsum, h.length] at hlater
    rw [hlater]
    exact h.other i (by omega) hlt

/-- A write in front of a write. -/
theorem Writes.cons {ring'' : List α} {a : α} (h : Writes ring ring' (p + 1) cells)
    (hfirst : Writes ring' ring'' p [a]) (hfit : cells.length + 1 ≤ ring.length) :
    Writes ring ring'' p (a :: cells) := by
  refine ⟨hfirst.length.trans h.length, holds_cons.mpr ⟨holds_singleton.mp hfirst.holds, ?_⟩,
    fun i hle hlt => ?_⟩
  · intro i b hi
    have hlt : i < cells.length := (List.getElem?_eq_some_iff.mp hi).1
    have hkept := hfirst.other (i + 1) (Nat.le_add_left 1 i) (h.length ▸ by omega)
    have hsum : p + (i + 1) = p + 1 + i := by omega
    rw [hsum, ← hfirst.length] at hkept
    rw [hkept, hfirst.length]
    exact h.holds i b hi
  · rw [List.length_cons] at hle
    have hkept := hfirst.other i (Nat.one_le_iff_ne_zero.mpr (by omega)) (h.length ▸ hlt)
    have hother := h.other (i - 1) (by omega) (by omega)
    have hsum : p + 1 + (i - 1) = p + i := by omega
    rw [h.length] at hkept
    rw [hsum] at hother
    rw [hkept, hother]

/-- A write to cells that a later write overwrites. -/
theorem Writes.absorb {ring'' : List α} (h : Writes ring ring' p cells)
    (hlater : Writes ring' ring'' p more) (hle : cells.length ≤ more.length) :
    Writes ring ring'' p more := by
  refine ⟨hlater.length.trans h.length, hlater.holds, fun i hi hlt => ?_⟩
  have hkept := hlater.other i hi (h.length ▸ hlt)
  rw [h.length] at hkept
  rw [hkept]
  exact h.other i (hle.trans hi) hlt

/-- A write of cells that do not go over the end of the memory. -/
theorem writes_overwrite (hfit : p + cells.length ≤ ring.length) :
    ∃ ring', overwrite ring p cells = some ring' ∧ Writes ring ring' p cells := by
  obtain ⟨ring', hring', hlength, hcells, hother⟩ := overwrite_eq_some hfit
  refine ⟨ring', hring', hlength, fun i a hi => ?_, fun i hle hlt => hother _ ?_⟩
  · have hi' := (List.getElem?_eq_some_iff.mp hi).1
    rw [hlength, Nat.mod_eq_of_lt (by omega)]
    exact hcells i a hi
  · by_cases hround : p + i < ring.length
    · rw [Nat.mod_eq_of_lt hround]
      omega
    · rw [Nat.mod_eq_sub_mod (by omega), Nat.mod_eq_of_lt (by omega)]
      omega

/-- A write at a wrapped position is one at the position. -/
theorem Writes.of_mod (h : Writes ring ring' (p % ring.length) cells) :
    Writes ring ring' p cells := by
  refine ⟨h.length, ?_, fun i hle hlt => ?_⟩
  · have hholds := h.holds
    rwa [← h.length, holds_mod] at hholds
  · have hother := h.other i hle hlt
    rwa [Nat.mod_add_mod] at hother

end

/-! ### Records -/

variable (code : Nat → α)

/-- The records with their lengths. -/
def encode (records : List (List α)) : List α :=
  records.flatMap fun record => code record.length :: record

/-- Records in two parts. -/
theorem encode_append (records more : List (List α)) :
    encode code (records ++ more) = encode code records ++ encode code more :=
  List.flatMap_append

/-- Records from their first one. -/
theorem encode_cons (record : List α) (records : List (List α)) :
    encode code (record :: records) = code record.length :: record ++ encode code records :=
  List.flatMap_cons

/-- The number of cells of the records. -/
def size (records : List (List α)) : Nat := (records.map fun record => record.length + 1).sum

/-- The records take as many cells as their size says. -/
theorem length_encode (records : List (List α)) :
    (encode code records).length = size records := by
  induction records with
  | nil => rfl
  | cons record records ih =>
      rw [encode_cons, List.length_append, List.length_cons, ih]
      rfl

/-- The size of records in two parts. -/
theorem size_append (records more : List (List α)) :
    size (records ++ more) = size records + size more := by
  rw [size, List.map_append, List.sum_append]
  rfl

/-- Each record takes a cell at least. -/
theorem length_le_size (records : List (List α)) : records.length ≤ size records := by
  induction records with
  | nil => exact Nat.zero_le _
  | cons record records ih =>
      rw [size, List.map_cons, List.sum_cons, List.length_cons]
      exact Nat.add_comm _ 1 ▸ Nat.add_le_add (Nat.le_add_left 1 _) ih

/-- The memory stores the records from one position to another. -/
structure Stores (ring : List α) (first last : Nat) (records : List (List α)) : Prop where
  first_lt : first < ring.length
  last_eq : last = (first + size records) % ring.length
  holds : Holds ring first (encode code records ++ [code 0])
  room : size records + 1 ≤ ring.length
  nonempty : ∀ record ∈ records, record ≠ []

namespace Stores

variable {code} {ring : List α} {first last : Nat} {records : List (List α)}

/-- The end mark is in the memory. -/
theorem last_lt (h : Stores code ring first last records) : last < ring.length := by
  rw [h.last_eq]
  exact Nat.mod_lt _ (Nat.zero_lt_of_lt h.first_lt)

/-- The length of the record at an index, or the end mark. -/
def lengthAt (records : List (List α)) (i : Nat) : Nat := (records[i]?.getD []).length

/-- Where the record at an index is. -/
def position (ring : List α) (first : Nat) (records : List (List α)) (i : Nat) : Nat :=
  (first + size (records.take i)) % ring.length

/-- Every header is in the memory. -/
theorem position_lt (h : Stores code ring first last records) (i : Nat) :
    position ring first records i < ring.length :=
  Nat.mod_lt _ (Nat.zero_lt_of_lt h.first_lt)

/-- The first header is at the start. -/
theorem position_zero (h : Stores code ring first last records) :
    position ring first records 0 = first := by
  rw [position, List.take_zero]
  exact Nat.mod_eq_of_lt h.first_lt

/-- The record behind a record. -/
theorem position_succ (ring : List α) (first : Nat) {i : Nat} (hi : i < records.length) :
    position ring first records (i + 1)
      = (position ring first records i + lengthAt records i + 1) % ring.length := by
  rw [position, position, List.take_add_one, List.getElem?_eq_getElem hi, size_append, lengthAt,
    List.getElem?_eq_getElem hi, Nat.add_assoc (_ % _), Nat.mod_add_mod, ← Nat.add_assoc]
  rfl

/-- The cells from a record on. -/
theorem holds_position (h : Stores code ring first last records) (i : Nat) :
    Holds ring (position ring first records i) (encode code (records.drop i) ++ [code 0]) := by
  have hholds := h.holds
  rw [← List.take_append_drop i records, encode_append, List.append_assoc, holds_append,
    length_encode] at hholds
  exact holds_mod.mpr hholds.2

/-- A header holds the length of its record, and the end mark a zero. -/
theorem header (h : Stores code ring first last records) {i : Nat} (hi : i ≤ records.length) :
    ring[position ring first records i]? = some (code (lengthAt records i)) := by
  have hholds := h.holds_position i
  have hmod := Nat.mod_eq_of_lt (h.position_lt i)
  rw [lengthAt]
  by_cases hlt : i < records.length
  · rw [List.drop_eq_getElem_cons hlt, encode_cons, List.cons_append, List.cons_append, holds_cons,
      hmod] at hholds
    rw [List.getElem?_eq_getElem hlt]
    exact hholds.1
  · obtain rfl : i = records.length := by omega
    rw [List.drop_length] at hholds
    have hmark := hholds 0 (code 0) rfl
    rw [Nat.add_zero, hmod] at hmark
    rw [List.getElem?_eq_none (Nat.le_refl _), hmark]
    rfl

/-- The cells behind a header are those of its record. -/
theorem record (h : Stores code ring first last records) {i : Nat} (hi : i < records.length) :
    Holds ring (position ring first records i + 1) records[i] := by
  have hholds := h.holds_position i
  rw [List.drop_eq_getElem_cons hi, encode_cons, List.cons_append, List.cons_append, holds_cons,
    List.append_assoc, holds_append] at hholds
  exact hholds.2.1

/-- The memory without the oldest record. -/
theorem tail {record : List α} (h : Stores code ring first last (record :: records)) :
    Stores code ring ((first + record.length + 1) % ring.length) last records := by
  have hsize : size (record :: records) = record.length + 1 + size records := rfl
  refine ⟨Nat.mod_lt _ (Nat.zero_lt_of_lt h.first_lt), ?_, ?_, ?_, fun r hr =>
    h.nonempty r (List.mem_cons_of_mem _ hr)⟩
  · rw [h.last_eq, hsize, Nat.mod_add_mod]
    congr 1
    omega
  · have hholds := h.holds
    rw [encode_cons, List.append_assoc, holds_append] at hholds
    exact holds_mod.mpr hholds.2
  · have hroom := h.room
    omega

/-- An empty memory. -/
theorem nil (hfirst : first < ring.length) (hmark : ring[first]? = some (code 0)) :
    Stores code ring first first [] := by
  have hmod := Nat.mod_eq_of_lt hfirst
  refine ⟨hfirst, hmod.symm, ?_, Nat.zero_lt_of_lt hfirst, nofun⟩
  exact holds_singleton.mpr (hmod.symm ▸ hmark)

/-- Another record behind the last one, with a new end mark. -/
theorem push {ring' : List α} {record : List α} (h : Stores code ring first last records)
    (hwrites : Writes ring ring' last (code record.length :: record ++ [code 0]))
    (hroom : size records + record.length + 2 ≤ ring.length) (hrecord : record ≠ []) :
    Stores code ring' first ((last + record.length + 1) % ring.length) (records ++ [record]) := by
  have hsize : size (records ++ [record]) = size records + (record.length + 1) := by
    rw [size_append]
    rfl
  have hlast : Writes ring ring' (first + (encode code records).length)
      (code record.length :: record ++ [code 0]) := by
    rw [length_encode]
    exact Writes.of_mod (h.last_eq ▸ hwrites)
  refine ⟨hwrites.length ▸ h.first_lt, ?_, ?_, ?_, ?_⟩
  · rw [h.last_eq, hsize, hwrites.length, Nat.add_assoc, Nat.mod_add_mod, Nat.add_assoc]
  · rw [encode_append, List.append_assoc, holds_append]
    refine ⟨hlast.frame ?_ (holds_append.mp h.holds).1, ?_⟩
    · simp only [length_encode, List.length_append, List.length_cons, List.length_nil]
      omega
    · rw [encode_cons, List.append_assoc]
      exact hlast.holds
  · rw [hsize, hwrites.length]
    omega
  · intro r hr
    rcases List.mem_append.mp hr with hr | hr
    · exact h.nonempty r hr
    · exact List.mem_singleton.mp hr ▸ hrecord

end Stores

end RecordRing
