import C6021Light.Lib.FirstCome
import Mathlib.Data.Fintype.Basic
import Mathlib.Order.Fin.Basic

/-!
# `C6021Light.Lib.ChunkedTable`: a table filled in chunks at fixed offsets

A table has `n` cells, each empty or with a key. It is filled with chunks of keys: chunk `j`
goes to the cells from `w * j` on, and a key that `search` finds already is left out, so a
chunk may leave cells behind. `search` looks from the front and stops at the first empty cell.

* `Represents t keys` says that the table is the list `keys`: its keys come first, without an
  empty cell between them. Then `search` is exact (`search_iff_of_represents`), and a chunk
  that goes right behind the keys extends them (`fill_represents`).
* `fill_frame` and `fill_new` say which cells a chunk changes, and that a key that is nowhere
  in the table is stored.
* `fillChunks_represents_iff`: the table ends as the list of the keys that came, each once,
  exactly when the chunks `ArriveFull`: as long as a new key is still to come, every chunk so
  far has brought `w` new ones.
-/

set_option autoImplicit false

namespace ChunkedTable

open FirstCome

variable {κ : Type} {n : Nat}

/-- A table of `n` cells. -/
abbrev Table (κ : Type) (n : Nat) := Fin n → Option κ

section

variable [DecidableEq κ]

/-- The search for a key, from the front up to the first empty cell. -/
def search (t : Table κ n) (x : κ) : Bool :=
  ((List.finRange n).takeWhile fun k => (t k).isSome).any fun k => decide (t k = some x)

/-- A chunk of keys, stored from offset `o` on. There is no table when a key falls behind the
last cell. -/
def fill : List κ → Nat → Table κ n → Option (Table κ n)
  | [], _, t => some t
  | x :: xs, o, t =>
      if search t x then fill xs o t
      else if h : o < n then fill xs (o + 1) (Function.update t ⟨o, h⟩ (some x))
      else none

/-- Chunks, `w` cells apart. -/
def fillChunks (w : Nat) : List (List κ) → Nat → Table κ n → Option (Table κ n)
  | [], _, t => some t
  | c :: cs, o, t => (fill c o t).bind (fillChunks w cs (o + w))

end

/-! ### Tables without gaps -/

/-- The table is the list of keys. -/
structure Represents (t : Table κ n) (keys : List κ) : Prop where
  length_le : keys.length ≤ n
  cell : ∀ k : Fin n, t k = keys[(k : Nat)]?

/-- The filled cells are those in front. -/
theorem Represents.isSome_iff {t : Table κ n} {keys : List κ} (h : Represents t keys)
    (k : Fin n) : (t k).isSome = true ↔ (k : Nat) < keys.length := by
  rw [h.cell k, isSome_getElem?]

/-- A key of the list is in the cell with its position. -/
theorem Represents.exists_cell {t : Table κ n} {keys : List κ} (h : Represents t keys) {x : κ}
    (hx : x ∈ keys) : ∃ k, t k = some x := by
  obtain ⟨i, hi, hget⟩ := List.mem_iff_getElem.mp hx
  refine ⟨⟨i, hi.trans_le h.length_le⟩, ?_⟩
  rw [h.cell]
  exact (List.getElem?_eq_getElem hi).trans (congrArg some hget)

/-- A key in a cell is one of the list. -/
theorem Represents.mem_of_cell {t : Table κ n} {keys : List κ} (h : Represents t keys) {x : κ}
    {k : Fin n} (hx : t k = some x) : x ∈ keys := by
  rw [h.cell k] at hx
  exact List.mem_of_getElem? hx

/-- The empty table. -/
theorem represents_empty {t : Table κ n} (h : ∀ k, t k = none) : Represents t [] :=
  ⟨Nat.zero_le _, fun k => by rw [h k]; rfl⟩

/-- A key goes to the first empty cell. -/
theorem Represents.update {t : Table κ n} {keys : List κ} (h : Represents t keys)
    (hlt : keys.length < n) (x : κ) :
    Represents (Function.update t ⟨keys.length, hlt⟩ (some x)) (keys ++ [x]) := by
  refine ⟨by simpa using Nat.succ_le_of_lt hlt, fun k => ?_⟩
  by_cases hk : k = ⟨keys.length, hlt⟩
  · subst hk
    rw [Function.update_self]
    exact (List.getElem?_concat_length).symm
  · rw [Function.update_of_ne hk, h.cell k]
    have hne : (k : Nat) ≠ keys.length := fun hval => hk (Fin.ext hval)
    rcases Nat.lt_or_gt_of_ne hne with hlt' | hgt
    · exact (List.getElem?_append_left hlt').symm
    · rw [List.getElem?_eq_none (by omega), List.getElem?_eq_none]
      simp only [List.length_append, List.length_singleton]
      omega

/-! ### The search -/

variable [DecidableEq κ]

/-- What the search finds is in the table. -/
theorem exists_of_search {t : Table κ n} {x : κ} (h : search t x = true) : ∃ k, t k = some x := by
  obtain ⟨k, _, hk⟩ := List.any_eq_true.mp h
  exact ⟨k, of_decide_eq_true hk⟩

omit [DecidableEq κ] in
/-- A cell with only filled cells in front of it is in reach of the search. -/
theorem mem_takeWhile_of_filled {t : Table κ n} {l : List (Fin n)} (hl : l.Pairwise (· < ·))
    {k : Fin n} (hk : k ∈ l) (hfilled : ∀ j ≤ k, (t j).isSome = true) :
    k ∈ l.takeWhile fun k => (t k).isSome := by
  induction l with
  | nil => exact hk
  | cons a l ih =>
      obtain ⟨ha, hl⟩ := List.pairwise_cons.mp hl
      rcases List.mem_cons.mp hk with rfl | hk'
      · rw [List.takeWhile_cons, hfilled k le_rfl]
        exact List.mem_cons_self
      · rw [List.takeWhile_cons, hfilled a (ha k hk').le]
        exact List.mem_cons_of_mem a (ih hl hk')

/-- In a table without gaps the search finds every key. -/
theorem search_iff_of_represents {t : Table κ n} {keys : List κ} (h : Represents t keys)
    (x : κ) : search t x = true ↔ x ∈ keys := by
  constructor
  · intro hsearch
    obtain ⟨k, hk⟩ := exists_of_search hsearch
    exact h.mem_of_cell hk
  · intro hx
    obtain ⟨k, hk⟩ := h.exists_cell hx
    have hlt : (k : Nat) < keys.length := (h.isSome_iff k).mp (by rw [hk]; rfl)
    refine List.any_eq_true.mpr ⟨k, ?_, decide_eq_true hk⟩
    refine mem_takeWhile_of_filled (List.pairwise_lt_finRange n) (List.mem_finRange k) ?_
    intro j hj
    exact (h.isSome_iff j).mpr (lt_of_le_of_lt hj hlt)

/-! ### One chunk -/

/-- A key that the search finds is not stored again. -/
theorem fill_cons_of_found {t : Table κ n} {x : κ} (h : search t x = true) (xs : List κ)
    (o : Nat) : fill (x :: xs) o t = fill xs o t := by
  rw [fill, if_pos h]

/-- A new key goes to the cell at the offset. -/
theorem fill_cons_of_new {t : Table κ n} {x : κ} (h : search t x = false) (xs : List κ)
    {o : Nat} (ho : o < n) :
    fill (x :: xs) o t = fill xs (o + 1) (Function.update t ⟨o, ho⟩ (some x)) := by
  rw [fill, if_neg (ne_true_of_eq_false h), dif_pos ho]

/-- A chunk that fits is stored. -/
theorem exists_fill (c : List κ) :
    ∀ (o : Nat) (t : Table κ n), o + c.length ≤ n → ∃ t', fill c o t = some t' := by
  induction c with
  | nil => intro o t _; exact ⟨t, rfl⟩
  | cons x c ih =>
      intro o t hfits
      rw [List.length_cons] at hfits
      cases hx : search t x with
      | true =>
          rw [fill_cons_of_found hx]
          exact ih o t (by omega)
      | false =>
          rw [fill_cons_of_new hx c (by omega : o < n)]
          exact ih (o + 1) _ (by omega)

/-- A chunk of known keys changes nothing, wherever it goes. -/
theorem fill_of_known (c : List κ) (o : Nat) {t : Table κ n}
    (h : ∀ x ∈ c, search t x = true) : fill c o t = some t := by
  induction c with
  | nil => rfl
  | cons x c ih =>
      rw [fill_cons_of_found (h x List.mem_cons_self)]
      exact ih fun y hy => h y (List.mem_cons_of_mem x hy)

/-- A chunk changes no cell in front of its offset, and none behind its length. -/
theorem fill_frame (c : List κ) :
    ∀ (o : Nat) (t t' : Table κ n), fill c o t = some t' →
      ∀ k : Fin n, (k : Nat) < o ∨ o + c.length ≤ k → t' k = t k := by
  induction c with
  | nil =>
      intro o t t' h k _
      rw [← Option.some.inj h]
  | cons x c ih =>
      intro o t t' h k hk
      rw [List.length_cons] at hk
      cases hx : search t x with
      | true =>
          rw [fill_cons_of_found hx] at h
          exact ih o t t' h k (by omega)
      | false =>
          by_cases ho : o < n
          · rw [fill_cons_of_new hx c ho] at h
            have hne : k ≠ ⟨o, ho⟩ := fun heq => by
              have hval : (k : Nat) = o := congrArg (fun i : Fin n => (i : Nat)) heq
              omega
            rw [ih (o + 1) _ t' h k (by omega), Function.update_of_ne hne]
          · rw [fill, if_neg (ne_true_of_eq_false hx), dif_neg ho] at h
            cases h

/-- The keys after a chunk were there before or came with it. -/
theorem fill_held (c : List κ) :
    ∀ (o : Nat) (t t' : Table κ n), fill c o t = some t' →
      ∀ (k : Fin n) (x : κ), t' k = some x → (∃ j, t j = some x) ∨ x ∈ c := by
  induction c with
  | nil =>
      intro o t t' h k x hk
      rw [← Option.some.inj h] at hk
      exact .inl ⟨k, hk⟩
  | cons y c ih =>
      intro o t t' h k x hk
      cases hy : search t y with
      | true =>
          rw [fill_cons_of_found hy] at h
          exact (ih o t t' h k x hk).imp_right (List.mem_cons_of_mem y)
      | false =>
          by_cases ho : o < n
          · rw [fill_cons_of_new hy c ho] at h
            rcases ih (o + 1) _ t' h k x hk with ⟨j, hj⟩ | hc
            · by_cases hjo : j = ⟨o, ho⟩
              · rw [hjo, Function.update_self] at hj
                rw [← Option.some.inj hj]
                exact .inr List.mem_cons_self
              · rw [Function.update_of_ne hjo] at hj
                exact .inl ⟨j, hj⟩
            · exact .inr (List.mem_cons_of_mem y hc)
          · rw [fill, if_neg (ne_true_of_eq_false hy), dif_neg ho] at h
            cases h

/-- A key of the chunk that is nowhere in the table is stored behind the offset. -/
theorem fill_new {x : κ} (c : List κ) :
    ∀ (o : Nat) (t t' : Table κ n), fill c o t = some t' → x ∈ c → (∀ k, t k ≠ some x) →
      ∃ k : Fin n, o ≤ k ∧ t' k = some x := by
  induction c with
  | nil => intro o t t' _ hx; cases hx
  | cons y c ih =>
      intro o t t' h hx hnot
      cases hy : search t y with
      | true =>
          rw [fill_cons_of_found hy] at h
          obtain ⟨j, hj⟩ := exists_of_search hy
          have hne : x ≠ y := fun heq => hnot j (heq ▸ hj)
          -- The key is not `y`, as `y` is in the table already.
          exact ih o t t' h ((List.mem_cons.mp hx).resolve_left hne) hnot
      | false =>
          by_cases ho : o < n
          · rw [fill_cons_of_new hy c ho] at h
            -- The key is stored now, and the rest of the chunk leaves it there.
            by_cases hxy : x = y
            · refine ⟨⟨o, ho⟩, le_rfl, ?_⟩
              rw [fill_frame c (o + 1) _ t' h ⟨o, ho⟩ (.inl (Nat.lt_succ_self o)),
                Function.update_self, hxy]
            · have hnot' : ∀ k, Function.update t ⟨o, ho⟩ (some y) k ≠ some x := by
                intro k hk
                by_cases hko : k = ⟨o, ho⟩
                · rw [hko, Function.update_self] at hk
                  exact hxy (Option.some.inj hk).symm
                · rw [Function.update_of_ne hko] at hk
                  exact hnot k hk
              obtain ⟨k, hle, hk⟩ :=
                ih (o + 1) _ t' h ((List.mem_cons.mp hx).resolve_left hxy) hnot'
              exact ⟨k, by omega, hk⟩
          -- Outside of the table the write fails.
          · rw [fill, if_neg (ne_true_of_eq_false hy), dif_neg ho] at h
            cases h

/-- A chunk right behind the keys extends them by its new keys. -/
theorem fill_represents (c : List κ) :
    ∀ {t : Table κ n} {keys : List κ}, Represents t keys → keys.length + c.length ≤ n →
      ∃ t', fill c keys.length t = some t' ∧ Represents t' (c.foldl enroll keys) := by
  induction c with
  | nil => intro t keys h _; exact ⟨t, rfl, h⟩
  | cons x c ih =>
      intro t keys h hfits
      rw [List.length_cons] at hfits
      rw [List.foldl_cons]
      by_cases hx : x ∈ keys
      · rw [fill_cons_of_found ((search_iff_of_represents h x).mpr hx), enroll_of_mem hx]
        exact ih h (by omega)
      · have hnew : search t x = false :=
          eq_false_of_ne_true fun hs => hx ((search_iff_of_represents h x).mp hs)
        have hlt : keys.length < n := by omega
        have hlen : (keys ++ [x]).length = keys.length + 1 := by simp
        rw [fill_cons_of_new hnew c hlt, enroll_of_notMem hx, ← hlen]
        exact ih (h.update hlt x) (by rw [hlen]; omega)

/-! ### Chunk after chunk -/

/-- The first chunk is stored, and then the others behind it. -/
theorem fillChunks_cons {w : Nat} {c : List κ} {cs : List (List κ)} {o : Nat}
    {t t' : Table κ n} :
    fillChunks w (c :: cs) o t = some t' ↔
      ∃ t₁, fill c o t = some t₁ ∧ fillChunks w cs (o + w) t₁ = some t' :=
  Option.bind_eq_some_iff

/-- Chunks that fit are stored. -/
theorem exists_fillChunks {w : Nat} (cs : List (List κ)) :
    ∀ (o : Nat) (t : Table κ n), (∀ c ∈ cs, c.length ≤ w) → o + w * cs.length ≤ n →
      ∃ t', fillChunks w cs o t = some t' := by
  induction cs with
  | nil => intro o t _ _; exact ⟨t, rfl⟩
  | cons c cs ih =>
      intro o t hw hfits
      have hlen : c.length ≤ w := hw c List.mem_cons_self
      rw [List.length_cons, Nat.mul_succ] at hfits
      obtain ⟨t₁, hc⟩ := exists_fill c o t (by omega)
      obtain ⟨t', hcs⟩ := ih (o + w) t₁ (fun c' hc' => hw c' (List.mem_cons_of_mem c hc'))
        (by omega)
      exact ⟨t', fillChunks_cons.mpr ⟨t₁, hc, hcs⟩⟩

/-- Chunks change no cell in front of the first offset. -/
theorem fillChunks_frame {w : Nat} (cs : List (List κ)) :
    ∀ (o : Nat) (t t' : Table κ n), fillChunks w cs o t = some t' →
      ∀ k : Fin n, (k : Nat) < o → t' k = t k := by
  induction cs with
  | nil =>
      intro o t t' h k _
      rw [← Option.some.inj h]
  | cons c cs ih =>
      intro o t t' h k hk
      obtain ⟨t₁, hc, hcs⟩ := fillChunks_cons.mp h
      rw [ih (o + w) t₁ t' hcs k (by omega), fill_frame c o t t₁ hc k (.inl hk)]

/-- A key that is nowhere in the table is stored behind the first offset. -/
theorem fillChunks_new {w : Nat} {x : κ} (cs : List (List κ)) :
    ∀ (o : Nat) (t t' : Table κ n), (∀ c ∈ cs, c.length ≤ w) →
      fillChunks w cs o t = some t' → x ∈ cs.flatten → (∀ k, t k ≠ some x) →
        ∃ k : Fin n, o ≤ k ∧ (t' k).isSome = true := by
  induction cs with
  | nil => intro o t t' _ _ hx; cases hx
  | cons c cs ih =>
      intro o t t' hw h hx hnot
      obtain ⟨t₁, hc, hcs⟩ := fillChunks_cons.mp h
      have hlen : c.length ≤ w := hw c List.mem_cons_self
      by_cases hxc : x ∈ c
      · obtain ⟨k, hle, hk⟩ := fill_new c o t t₁ hc hxc hnot
        -- The cell is one of the chunk's, so the later chunks leave it alone.
        have hlt : (k : Nat) < o + w := by
          by_contra hge
          have hsame := fill_frame c o t t₁ hc k (.inr (by omega))
          exact hnot k (hsame ▸ hk)
        refine ⟨k, hle, ?_⟩
        rw [fillChunks_frame cs (o + w) t₁ t' hcs k hlt, hk]
        rfl
      · have hnot' : ∀ k, t₁ k ≠ some x := fun k hk =>
          (fill_held c o t t₁ hc k x hk).elim (fun ⟨j, hj⟩ => hnot j hj) hxc
        rw [List.flatten_cons, List.mem_append] at hx
        obtain ⟨k, hle, hk⟩ := ih (o + w) t₁ t' (fun c' hc' => hw c' (List.mem_cons_of_mem c hc'))
          hcs (hx.resolve_left hxc) hnot'
        exact ⟨k, by omega, hk⟩

/-- Behind `keys`, which came in `j` chunks: every chunk brings `w` new keys as long as a new
key is still to come. -/
def FullFrom (w : Nat) (keys : List κ) (j : Nat) (cs : List (List κ)) : Prop :=
  ∀ before after, cs = before ++ after →
    (before.flatten.foldl enroll keys).length = w * (j + before.length) ∨
      ∀ x ∈ after.flatten, x ∈ before.flatten.foldl enroll keys

/-- Behind a chunk the condition goes on with the keys known by then. -/
theorem FullFrom.tail {w : Nat} {keys : List κ} {j : Nat} {c : List κ} {cs : List (List κ)}
    (h : FullFrom w keys j (c :: cs)) : FullFrom w (c.foldl enroll keys) (j + 1) cs := by
  intro before after hcs
  have hcons := h (c :: before) after (by rw [hcs, List.cons_append])
  rw [List.flatten_cons, List.foldl_append, List.length_cons] at hcons
  rwa [show j + 1 + before.length = j + (before.length + 1) by omega]

/-- Known keys do not extend a list. -/
theorem foldl_enroll_of_known {c keys : List κ} (h : ∀ x ∈ c, x ∈ keys) :
    c.foldl enroll keys = keys := by
  induction c with
  | nil => rfl
  | cons x c ih =>
      rw [List.foldl_cons, enroll_of_mem (h x List.mem_cons_self)]
      exact ih fun y hy => h y (List.mem_cons_of_mem x hy)

/-- A chunk makes a list longer by its own length at most. -/
theorem length_foldl_enroll_le (c : List κ) :
    ∀ keys : List κ, (c.foldl enroll keys).length ≤ keys.length + c.length := by
  induction c with
  | nil => intro keys; exact le_rfl
  | cons x c ih =>
      intro keys
      have hstep : (enroll keys x).length ≤ keys.length + 1 := by
        rw [enroll]
        split
        · omega
        · simp
      have hrest := ih (enroll keys x)
      rw [List.foldl_cons, List.length_cons]
      omega

/-- The first chunk of a full sequence leaves a table without gaps. -/
theorem fill_of_fullFrom {w j : Nat} {c : List κ} {cs : List (List κ)} {t : Table κ n}
    {keys : List κ} (h : Represents t keys)
    (hc : keys.length = w * j ∨ ∀ x ∈ (c :: cs).flatten, x ∈ keys)
    (hfits : w * j + c.length ≤ n) :
    ∃ t', fill c (w * j) t = some t' ∧ Represents t' (c.foldl enroll keys) := by
  rcases hc with hlen | hknown
  · rw [← hlen] at hfits ⊢
    exact fill_represents c h hfits
  · have hknown' : ∀ x ∈ c, x ∈ keys := fun x hx =>
      hknown x (by rw [List.flatten_cons]; exact List.mem_append_left _ hx)
    refine ⟨t, fill_of_known c _ fun x hx => ?_, ?_⟩
    · exact (search_iff_of_represents h x).mpr (hknown' x hx)
    · rwa [foldl_enroll_of_known hknown']

/-- A full sequence of chunks leaves the list of its keys. -/
theorem fillChunks_of_fullFrom {w : Nat} (cs : List (List κ)) :
    ∀ {j : Nat} {t : Table κ n} {keys : List κ}, Represents t keys →
      (∀ c ∈ cs, c.length ≤ w) → w * (j + cs.length) ≤ n → FullFrom w keys j cs →
        ∃ t', fillChunks w cs (w * j) t = some t' ∧
          Represents t' (cs.flatten.foldl enroll keys) := by
  induction cs with
  | nil => intro j t keys h _ _ _; exact ⟨t, rfl, h⟩
  | cons c cs ih =>
      intro j t keys h hw hn hfull
      have hlen : c.length ≤ w := hw c List.mem_cons_self
      rw [List.length_cons] at hn
      have hroom : w * j + w ≤ n := by
        refine le_trans ?_ hn
        rw [← Nat.mul_succ]
        exact Nat.mul_le_mul_left w (by omega)
      have hfirst : keys.length = w * j ∨ ∀ x ∈ (c :: cs).flatten, x ∈ keys :=
        hfull [] (c :: cs) rfl
      obtain ⟨t₁, hc, h₁⟩ := fill_of_fullFrom h hfirst (by omega)
      obtain ⟨t', hcs, h'⟩ := ih h₁ (fun c' hc' => hw c' (List.mem_cons_of_mem c hc'))
        (show w * (j + 1 + cs.length) ≤ n by rwa [show j + 1 + cs.length = j + (cs.length + 1) by
          omega]) hfull.tail
      refine ⟨t', fillChunks_cons.mpr ⟨t₁, hc, by rwa [← Nat.mul_succ]⟩, ?_⟩
      rwa [List.flatten_cons, List.foldl_append]

/-- Chunks that leave a table without gaps were full. -/
theorem fullFrom_of_fillChunks {w : Nat} (cs : List (List κ)) :
    ∀ {j : Nat} {t t' : Table κ n} {keys : List κ}, Represents t keys → keys.length ≤ w * j →
      (∀ c ∈ cs, c.length ≤ w) → w * (j + cs.length) ≤ n →
        fillChunks w cs (w * j) t = some t' →
          (∃ keys', Represents t' keys') → FullFrom w keys j cs := by
  induction cs with
  | nil =>
      intro j t t' keys h _ _ _ _ _ before after hcs
      obtain ⟨rfl, rfl⟩ := List.nil_eq_append_iff.mp hcs
      exact .inr (List.forall_mem_nil _)
  | cons c cs ih =>
      intro j t t' keys h hle hw hn hfill hend
      have hlen : c.length ≤ w := hw c List.mem_cons_self
      rw [List.length_cons] at hn
      have hroom : w * j + w ≤ n := by
        refine le_trans ?_ hn
        rw [← Nat.mul_succ]
        exact Nat.mul_le_mul_left w (by omega)
      -- A new key behind a gap would leave the gap in front of it.
      have hfirst : keys.length = w * j ∨ ∀ x ∈ (c :: cs).flatten, x ∈ keys := by
        by_contra hnot
        rw [not_or] at hnot
        obtain ⟨hne, hnew⟩ := hnot
        simp only [not_forall] at hnew
        obtain ⟨x, hx, hxkeys⟩ := hnew
        obtain ⟨k, hk, hsome⟩ := fillChunks_new (c :: cs) (w * j) t t' hw hfill hx
          fun i hi => hxkeys (h.mem_of_cell hi)
        obtain ⟨keys', h'⟩ := hend
        have hgap : keys.length < n := by omega
        have hbefore : (t' ⟨keys.length, hgap⟩).isSome = true := by
          have hkey := (h'.isSome_iff k).mp hsome
          exact (h'.isSome_iff _).mpr (show keys.length < keys'.length by omega)
        rw [fillChunks_frame (c :: cs) (w * j) t t' hfill _ (show keys.length < w * j by omega)]
          at hbefore
        exact absurd ((h.isSome_iff _).mp hbefore) (lt_irrefl _)
      obtain ⟨t₁, hc, hcs⟩ := fillChunks_cons.mp hfill
      obtain ⟨t₁', hc', h₁⟩ := fill_of_fullFrom h hfirst (by omega)
      have hsame : t₁' = t₁ := Option.some.inj (hc'.symm.trans hc)
      rw [hsame] at h₁
      have hle₁ : (c.foldl enroll keys).length ≤ w * (j + 1) := by
        rw [Nat.mul_succ]
        exact (length_foldl_enroll_le c keys).trans (by omega)
      have hrest : FullFrom w (c.foldl enroll keys) (j + 1) cs := by
        refine ih h₁ hle₁ (fun c' hc' => hw c' (List.mem_cons_of_mem c hc')) ?_ ?_ hend
        · rwa [show j + 1 + cs.length = j + (cs.length + 1) by omega]
        · rwa [← Nat.mul_succ] at hcs
      intro before after hsplit
      cases before with
      | nil =>
          rw [List.nil_append] at hsplit
          exact hsplit ▸ hfirst
      | cons b before =>
          rw [List.cons_append, List.cons.injEq] at hsplit
          obtain ⟨rfl, hsplit⟩ := hsplit
          have htail := hrest before after hsplit
          rw [List.flatten_cons, List.foldl_append, List.length_cons]
          rwa [show j + (before.length + 1) = j + 1 + before.length by omega]

/-- As long as a new key is still to come, every chunk so far has brought `w` new ones. -/
def ArriveFull (w : Nat) (cs : List (List κ)) : Prop :=
  ∀ before after, cs = before ++ after →
    before.flatten.toFinset.card = w * before.length ∨ ∀ x ∈ after.flatten, x ∈ before.flatten

/-- The condition on all chunks, from the first one on. -/
theorem fullFrom_nil_iff {w : Nat} {cs : List (List κ)} :
    FullFrom w [] 0 cs ↔ ArriveFull w cs := by
  refine forall₃_congr fun before after _ => ?_
  rw [length_enroll_foldl, Nat.zero_add]
  refine or_congr_right (forall₂_congr fun x _ => ?_)
  rw [mem_enroll_foldl]
  simp

/-- From an empty table, the table ends as the list of the keys that came, each once, exactly
when the chunks arrive full. -/
theorem fillChunks_represents_iff {w : Nat} {cs : List (List κ)} {t : Table κ n}
    (ht : ∀ k, t k = none) (hw : ∀ c ∈ cs, c.length ≤ w) (hn : w * cs.length ≤ n) :
    (∃ t' keys, fillChunks w cs 0 t = some t' ∧ Represents t' keys ∧ keys.Nodup ∧
      ∀ x, x ∈ keys ↔ x ∈ cs.flatten) ↔ ArriveFull w cs := by
  have hempty : Represents t [] := represents_empty ht
  have hroom : w * (0 + cs.length) ≤ n := by rwa [Nat.zero_add]
  constructor
  · rintro ⟨t', keys, hfill, hkeys, _, _⟩
    exact fullFrom_nil_iff.mp
      (fullFrom_of_fillChunks cs hempty (Nat.zero_le _) hw hroom hfill ⟨keys, hkeys⟩)
  · intro hfull
    obtain ⟨t', hfill, h'⟩ := fillChunks_of_fullFrom cs hempty hw hroom (fullFrom_nil_iff.mpr hfull)
    refine ⟨t', _, hfill, h', enroll_foldl_nodup _ List.nodup_nil, fun x => ?_⟩
    rw [mem_enroll_foldl]
    simp

end ChunkedTable
