import Mathlib.Data.List.Basic

/-!
# `C6021Light.Lib.BoundedFifo`: a queue that drops what does not fit

`BoundedFifo α cap` is a queue of at most `cap` items. The bound is a field, so a longer
queue cannot be built. `offer` appends an item when there is room and reports whether it
did. `offerAll` offers a list of items in order and collects the reports. `peek` shows the
oldest item, and `consume` removes it (`items_eq_cons_consume`).

Nothing is removed between the offers of one `offerAll`, so the accepted items are a prefix
of the list: the first `room` of them (`offerAll_reports`). All are accepted exactly when
the list fits (`offerAll_all_accepted`).
-/

set_option autoImplicit false

/-- A queue of at most `cap` items, oldest first. -/
structure BoundedFifo (α : Type) (cap : Nat) where
  items : List α
  bounded : items.length ≤ cap

namespace BoundedFifo

variable {α : Type} {cap : Nat}

/-- The empty queue. -/
def empty : BoundedFifo α cap := ⟨[], Nat.zero_le _⟩

/-- The number of items that still fit. -/
def room (q : BoundedFifo α cap) : Nat := cap - q.items.length

/-- Append an item when there is room. The truth value tells whether it was appended. -/
def offer (q : BoundedFifo α cap) (a : α) : Bool × BoundedFifo α cap :=
  if h : q.items.length < cap then
    (true, ⟨q.items ++ [a], by simp only [List.length_append, List.length_singleton]; omega⟩)
  else
    (false, q)

/-- The queue without its oldest item. -/
def drop (q : BoundedFifo α cap) : BoundedFifo α cap :=
  ⟨q.items.tail, by have := q.bounded; simp only [List.length_tail]; omega⟩

/-- The oldest item. -/
def peek (q : BoundedFifo α cap) : Option α := q.items.head?

/-- Remove what `peek` gave: the oldest item, or nothing. -/
def consume (q : BoundedFifo α cap) (range : Option α) : BoundedFifo α cap :=
  if range.isSome then q.drop else q

/-- Offer a list of items in order. -/
def offerAll : BoundedFifo α cap → List α → List Bool × BoundedFifo α cap
  | q, [] => ([], q)
  | q, a :: as => ((q.offer a).1 :: (offerAll (q.offer a).2 as).1, (offerAll (q.offer a).2 as).2)

/-- With room the item is accepted and takes one place. -/
theorem offer_of_room {q : BoundedFifo α cap} (h : 0 < q.room) (a : α) :
    (q.offer a).1 = true ∧ (q.offer a).2.room = q.room - 1 := by
  have hlt : q.items.length < cap := by unfold room at h; omega
  rw [offer, dif_pos hlt]
  refine ⟨rfl, ?_⟩
  simp only [room, List.length_append, List.length_singleton]
  omega

/-- A full queue rejects the item and stays as it was. -/
theorem offer_of_full {q : BoundedFifo α cap} (h : q.room = 0) (a : α) :
    q.offer a = (false, q) := by
  have hge : ¬ q.items.length < cap := by unfold room at h; omega
  rw [offer, dif_neg hge]

/-- An accepted item is the newest one, and a rejected one changes nothing. -/
theorem items_offer (q : BoundedFifo α cap) (a : α) :
    (q.offer a).2.items = if (q.offer a).1 then q.items ++ [a] else q.items := by
  rw [offer]
  split <;> rfl

/-- A queue that refuses an item is not empty. -/
theorem items_offer_ne_nil (q : BoundedFifo α cap) (a : α) (hcap : 0 < cap) :
    (q.offer a).2.items ≠ [] := by
  rw [offer]
  split
  · exact List.append_ne_nil_of_right_ne_nil _ (List.cons_ne_nil a [])
  · rename_i hfull
    intro hempty
    rw [hempty] at hfull
    exact hfull hcap

/-- Consuming nothing changes nothing. -/
@[simp] theorem consume_none (q : BoundedFifo α cap) : q.consume none = q := rfl

/-- What `peek` gave comes off the front. -/
theorem items_eq_cons_consume {q : BoundedFifo α cap} {a : α} (h : q.peek = some a) :
    q.items = a :: (q.consume (some a)).items := by
  obtain ⟨rest, hitems⟩ := List.head?_eq_some_iff.mp h
  have htail : (q.consume (some a)).items = q.items.tail := rfl
  rw [htail, hitems, List.tail_cons]

/-- The reports of a list of offers: accepted while there is room, rejected afterwards. -/
theorem offerAll_reports :
    ∀ (as : List α) (q : BoundedFifo α cap),
      (q.offerAll as).1
        = List.replicate (min q.room as.length) true
          ++ List.replicate (as.length - q.room) false := by
  intro as
  induction as with
  | nil => intro q; simp [offerAll]
  | cons a as ih =>
      intro q
      rcases Nat.eq_zero_or_pos q.room with h0 | hpos
      · have hrec := ih q
        simp only [h0, Nat.zero_min, Nat.sub_zero, List.replicate_zero, List.nil_append] at hrec
        simp only [offerAll, offer_of_full h0, hrec, h0, Nat.zero_min, Nat.sub_zero,
          List.replicate_zero, List.nil_append, List.length_cons, List.replicate_succ]
      · obtain ⟨haccept, hroom⟩ := offer_of_room hpos a
        have hmin : min q.room (as.length + 1) = min (q.room - 1) as.length + 1 := by omega
        have hrest : as.length + 1 - q.room = as.length - (q.room - 1) := by omega
        simp only [offerAll, haccept, ih, hroom, List.length_cons, hmin, hrest,
          List.replicate_succ, List.cons_append]

/-- There is one report for each item. -/
theorem length_offerAll (q : BoundedFifo α cap) (as : List α) :
    (q.offerAll as).1.length = as.length := by
  rw [offerAll_reports, List.length_append, List.length_replicate, List.length_replicate]
  omega

/-- Every item is accepted exactly when the list fits. -/
theorem offerAll_all_accepted (q : BoundedFifo α cap) (as : List α) :
    (∀ b ∈ (q.offerAll as).1, b = true) ↔ as.length ≤ q.room := by
  rw [offerAll_reports]
  constructor
  · intro h
    by_contra hlt
    have hmem : false ∈ List.replicate (as.length - q.room) false :=
      List.mem_replicate.mpr ⟨by omega, rfl⟩
    exact absurd (h false (List.mem_append_right _ hmem)) (by decide)
  · intro hle b hb
    rw [Nat.sub_eq_zero_of_le hle, List.replicate_zero, List.append_nil] at hb
    exact List.eq_of_mem_replicate hb

end BoundedFifo
