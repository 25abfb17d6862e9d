import Mathlib.Algebra.Group.Nat.Defs
import Mathlib.Data.List.Perm.Basic
import Mathlib.Data.Nat.Bitwise
import Mathlib.Order.Fin.Basic

/-!
# `C6021Light.Lib.BitMask`: registers, masks and bit layouts

A register is a `BitVec v`. Three C idioms on registers recur in message codecs, and this
library gives each one its laws.

* `setBit` is `r |= 1 << i` or `r &= ~(1 << i)`, depending on a truth value.
* `maskLoop` is the loop that walks a list of indices while a one-bit mask moves left.
  `maskLoop_eq_foldl` turns it into a plain fold over the indices and their positions.
* A `BitLayout` says which register bit travels in which bit of a message word. `scatter`
  writes a word into a register, `gather` builds the word from a register, and the two
  are inverse up to the masks of the layout (`scatter_gather`, `gather_scatter`).

`merge mask new old` takes `new` under the mask and `old` elsewhere. Writing several
groups one after the other is one merge under the union of their masks (`merge_merge`),
also for a second register that collects the changed bits (`merge_merge_dirty`). The union
does not depend on the order of the masks (`unionMask_perm`).
-/

set_option autoImplicit false

namespace BitMask

variable {v w : Nat}

/-! ### Single bits -/

/-- A one-bit mask test reads the bit. -/
theorem and_shiftLeft_one_ne_zero (x : BitVec w) (k : Nat) :
    (x &&& (1#w <<< k)) ≠ 0#w ↔ x.getLsbD k = true := by
  rw [← BitVec.twoPow_eq, BitVec.and_twoPow]
  cases hx : x.getLsbD k with
  | false => simp
  | true =>
      have hk : k < w := BitVec.lt_of_getLsbD hx
      have hne : BitVec.twoPow w k ≠ 0#w := by
        intro h
        have hbit := congrArg (fun b => b.getLsbD k) h
        simp [hk] at hbit
      simp [hne]

/-- The same test as a truth value, the form in which a loop body passes it on. -/
theorem decide_and_shiftLeft_one (x : BitVec w) (k : Nat) :
    decide ((x &&& (1#w <<< k)) ≠ 0#w) = x.getLsbD k := by
  cases hx : x.getLsbD k with
  | false =>
      rw [decide_eq_false_iff_not, and_shiftLeft_one_ne_zero, hx]
      decide
  | true => rw [decide_eq_true_eq, and_shiftLeft_one_ne_zero, hx]

/-- Bit `i` of the register set to `b`. -/
def setBit (r : BitVec v) (i : Nat) (b : Bool) : BitVec v :=
  if b then r ||| (1#v <<< i) else r &&& ~~~(1#v <<< i)

/-- The bits behind a set bit. -/
theorem getLsbD_setBit (r : BitVec v) (i j : Nat) (b : Bool) :
    (setBit r i b).getLsbD j = if i = j ∧ j < v then b else r.getLsbD j := by
  have hbit : (1#v <<< i).getLsbD j = (decide (i < v) && decide (i = j)) := by
    rw [← BitVec.twoPow_eq, BitVec.getLsbD_twoPow]
  by_cases hj : j < v
  · by_cases hij : i = j
    · subst hij
      cases b <;> simp only [setBit, if_true, Bool.false_eq_true, if_false, BitVec.getLsbD_or,
        BitVec.getLsbD_and, BitVec.getLsbD_not, hbit, hj] <;> simp
    · cases b <;> simp only [setBit, if_true, Bool.false_eq_true, if_false, BitVec.getLsbD_or,
        BitVec.getLsbD_and, BitVec.getLsbD_not, hbit, hj, hij] <;> simp
  · rw [if_neg (fun h => hj h.2), BitVec.getLsbD_of_ge _ _ (Nat.le_of_not_lt hj),
      BitVec.getLsbD_of_ge _ _ (Nat.le_of_not_lt hj)]

/-- The bit that was set. -/
theorem getLsbD_setBit_self (r : BitVec v) {i : Nat} (hi : i < v) (b : Bool) :
    (setBit r i b).getLsbD i = b := by
  rw [getLsbD_setBit, if_pos ⟨rfl, hi⟩]

/-- The other bits. -/
theorem getLsbD_setBit_ne (r : BitVec v) {i j : Nat} (hij : i ≠ j) (b : Bool) :
    (setBit r i b).getLsbD j = r.getLsbD j := by
  rw [getLsbD_setBit, if_neg (fun h => hij h.1)]

/-- Writes to different bits can be swapped. -/
theorem setBit_comm (r : BitVec v) {i j : Nat} (hij : i ≠ j) (a b : Bool) :
    setBit (setBit r i a) j b = setBit (setBit r j b) i a := by
  apply BitVec.eq_of_getLsbD_eq
  intro k hk
  by_cases hjk : j = k
  · subst hjk
    rw [getLsbD_setBit_self _ hk, getLsbD_setBit_ne _ hij, getLsbD_setBit_self _ hk]
  · rw [getLsbD_setBit_ne _ hjk, getLsbD_setBit, getLsbD_setBit, getLsbD_setBit_ne _ hjk]

/-! ### The walking mask -/

/-- `for (i : is) { s = f(s, i, mask); mask <<= 1; }`. -/
def maskLoop {σ ι : Type} (f : σ → ι → BitVec w → σ) : List ι → BitVec w → σ → σ
  | [], _, s => s
  | i :: is, mask, s => maskLoop f is (mask <<< 1) (f s i mask)

/-- A mask that starts at `1 << k` is `1 << (k + n)` at the `n`-th index. -/
theorem maskLoop_eq_foldl {σ ι : Type} (f : σ → ι → BitVec w → σ) :
    ∀ (is : List ι) (k : Nat) (s : σ),
      maskLoop f is (1#w <<< k) s
        = (is.zipIdx k).foldl (fun s p => f s p.1 (1#w <<< p.2)) s := by
  intro is
  induction is with
  | nil => intro k s; rfl
  | cons i is ih =>
      intro k s
      -- The shifted mask is the mask of the next position.
      rw [maskLoop, ← BitVec.shiftLeft_add, ih (k + 1)]
      rfl

/-- An encoding loop, `word |= mask` or `word &= ~mask` at each index, sets one bit after the
other. -/
theorem maskLoop_encode {ι : Type} (g : ι → Bool) (is : List ι) (word : BitVec w) :
    maskLoop (fun word i mask => if g i then word ||| mask else word &&& ~~~mask) is 1#w word
      = is.zipIdx.foldl (fun word p => setBit word p.2 (g p.1)) word := by
  have hloop := maskLoop_eq_foldl
    (fun word i (mask : BitVec w) => if g i then word ||| mask else word &&& ~~~mask) is 0 word
  rwa [BitVec.shiftLeft_zero] at hloop

/-- A loop that visits the indices from `k` on and emits one item for each flag that is set. -/
theorem maskLoop_select {α : Type} (flags : BitVec w) (g : Nat → α) :
    ∀ (n k : Nat) (items : List α),
      maskLoop (fun items i mask => if mask &&& flags ≠ 0#w then items ++ [g i] else items)
          (List.range' k n) (1#w <<< k) items
        = items ++ ((List.range' k n).filter fun i => flags.getLsbD i).map g := by
  intro n
  induction n with
  | zero => intro k items; simp [maskLoop]
  | succ n ih =>
      intro k items
      have hflag : (1#w <<< k) &&& flags ≠ 0#w ↔ flags.getLsbD k = true := by
        rw [BitVec.and_comm, and_shiftLeft_one_ne_zero]
      rw [List.range'_succ, maskLoop, ← BitVec.shiftLeft_add, ih (k + 1)]
      by_cases hk : flags.getLsbD k = true
      · rw [if_pos (hflag.mpr hk), List.filter_cons_of_pos hk, List.map_cons, List.append_assoc]
        rfl
      · rw [if_neg (fun h => hk (hflag.mp h)), List.filter_cons_of_neg hk]

/-- An encoding loop that only sets bits is the same loop when the bits it reaches are clear. -/
theorem maskLoop_encode_of_clear {ι : Type} (g : ι → Bool) :
    ∀ (is : List ι) (k : Nat) (word : BitVec w), (∀ j, k ≤ j → word.getLsbD j = false) →
      maskLoop (fun word i mask => if g i then word ||| mask else word) is (1#w <<< k) word
        = maskLoop (fun word i mask => if g i then word ||| mask else word &&& ~~~mask) is
            (1#w <<< k) word := by
  intro is
  induction is with
  | nil => intro k word _; rfl
  | cons i is ih =>
      intro k word hclear
      -- Bit `k` is clear, so leaving it alone is the same as clearing it.
      have hhead : (if g i then word ||| (1#w <<< k) else word) = setBit word k (g i) := by
        cases g i with
        | true => rfl
        | false =>
            apply BitVec.eq_of_getLsbD_eq
            intro j hj
            show word.getLsbD j = _
            rw [getLsbD_setBit]
            split
            · next h => rw [← h.1, hclear k (Nat.le_refl k)]
            · rfl
      have htail : ∀ j, k + 1 ≤ j → (setBit word k (g i)).getLsbD j = false := by
        intro j hj
        rw [getLsbD_setBit_ne word (by omega), hclear j (by omega)]
      rw [maskLoop, maskLoop, ← BitVec.shiftLeft_add, hhead]
      exact ih (k + 1) _ htail

/-! ### Merging under a mask -/

/-- A number below `2 ^ n` has no bits from `n` on. -/
theorem getLsbD_of_toNat_lt {x : BitVec v} {n : Nat} (h : x.toNat < 2 ^ n) {i : Nat}
    (hi : n ≤ i) : x.getLsbD i = false := by
  rw [← BitVec.testBit_toNat]
  exact Nat.testBit_lt_two_pow (Nat.lt_of_lt_of_le h (Nat.pow_le_pow_right (by decide) hi))

/-- The mask of the `n` lowest bits. -/
theorem getLsbD_lowMask {n : Nat} (hn : n ≤ v) (i : Nat) :
    (BitVec.ofNat v (2 ^ n - 1)).getLsbD i = decide (i < n) := by
  rw [BitVec.getLsbD_ofNat, Nat.testBit_two_pow_sub_one, ← Bool.decide_and]
  exact decide_eq_decide.mpr (by omega)

/-- The `n` lowest bits as a number. -/
theorem toNat_and_lowMask {n : Nat} (hn : n ≤ v) (x : BitVec v) :
    (x &&& BitVec.ofNat v (2 ^ n - 1)).toNat = x.toNat % 2 ^ n := by
  have hpos : 0 < 2 ^ n := Nat.two_pow_pos n
  have hle : 2 ^ n ≤ 2 ^ v := Nat.pow_le_pow_right (by decide) hn
  rw [BitVec.toNat_and, BitVec.toNat_ofNat, Nat.mod_eq_of_lt (by omega),
    Nat.and_two_pow_sub_one_eq_mod]

/-- One bit of a register as a number. -/
theorem toNat_and_bit {k : Nat} (hk : k < v) (x : BitVec v) :
    (x &&& BitVec.twoPow v k).toNat = x.toNat / 2 ^ k % 2 * 2 ^ k := by
  have hlt : 2 ^ k < 2 ^ v := Nat.pow_lt_pow_right (by decide) hk
  rw [BitVec.toNat_and, BitVec.toNat_twoPow, Nat.mod_eq_of_lt hlt, Nat.and_two_pow,
    Nat.toNat_testBit]

/-- What is left under a mask is at most the mask. -/
theorem toNat_and_le (x mask : BitVec v) : (x &&& mask).toNat ≤ mask.toNat := by
  rw [BitVec.toNat_and]
  exact Nat.and_le_right

/-- A field of `k` bits below another one. -/
theorem toNat_shiftLeft_or {x y : BitVec v} {k : Nat} (hy : y.toNat < 2 ^ k)
    (hx : x.toNat * 2 ^ k < 2 ^ v) : ((x <<< k) ||| y).toNat = x.toNat * 2 ^ k + y.toNat := by
  rw [BitVec.toNat_or, BitVec.toNat_shiftLeft, Nat.shiftLeft_eq, Nat.mod_eq_of_lt hx,
    ← Nat.shiftLeft_eq, Nat.shiftLeft_add_eq_or_of_lt hy]

/-- `new` under the mask, `old` elsewhere. -/
def merge (mask new old : BitVec v) : BitVec v := (old &&& ~~~mask) ||| (new &&& mask)

/-- The bits of a merge come from the new word where the mask is set. -/
theorem getLsbD_merge (mask new old : BitVec v) (i : Nat) :
    (merge mask new old).getLsbD i
      = if mask.getLsbD i then new.getLsbD i else old.getLsbD i := by
  simp only [merge, BitVec.getLsbD_or, BitVec.getLsbD_and, BitVec.getLsbD_not]
  by_cases hi : i < v
  · cases mask.getLsbD i <;> simp [hi]
  · simp [BitVec.getLsbD_of_ge _ i (Nat.le_of_not_lt hi)]

/-- Two merges from one source are one merge under both masks. -/
theorem merge_merge (m₁ m₂ new old : BitVec v) :
    merge m₂ new (merge m₁ new old) = merge (m₁ ||| m₂) new old := by
  apply BitVec.eq_of_getLsbD_eq
  intro i hi
  simp only [getLsbD_merge, BitVec.getLsbD_or]
  cases m₁.getLsbD i <;> cases m₂.getLsbD i <;> simp

/-- An empty mask keeps the old word. -/
theorem merge_zero (new old : BitVec v) : merge 0#v new old = old := by
  apply BitVec.eq_of_getLsbD_eq
  intro i hi
  simp [getLsbD_merge]

/-- A loop that copies the flagged bits among the lowest `n` is a merge under the flags. -/
theorem foldl_copyBits (flags new : BitVec v) :
    ∀ (n : Nat) (old : BitVec v), n ≤ v →
      (List.range n).foldl
          (fun r i => if flags.getLsbD i then setBit r i (new.getLsbD i) else r) old
        = merge (flags &&& BitVec.ofNat v (2 ^ n - 1)) new old := by
  intro n
  induction n with
  | zero =>
      intro old _
      apply BitVec.eq_of_getLsbD_eq
      intro j hj
      rw [getLsbD_merge, BitVec.getLsbD_and, getLsbD_lowMask (Nat.zero_le v)]
      simp
  | succ n ih =>
      intro old hn
      rw [List.range_succ, List.foldl_append, ih old (by omega)]
      apply BitVec.eq_of_getLsbD_eq
      intro j hj
      have hlow : (flags &&& BitVec.ofNat v (2 ^ n - 1)).getLsbD j
          = (flags.getLsbD j && decide (j < n)) := by
        rw [BitVec.getLsbD_and, getLsbD_lowMask (by omega)]
      rw [getLsbD_merge, BitVec.getLsbD_and, getLsbD_lowMask hn]
      show (if flags.getLsbD n then setBit _ n (new.getLsbD n) else _).getLsbD j = _
      -- Bit `n` is the one that the last round decides.
      by_cases hjn : n = j
      · subst hjn
        cases flags.getLsbD n <;> simp [getLsbD_setBit_self _ hj, getLsbD_merge, hlow]
      · have hlt : decide (j < n + 1) = decide (j < n) := decide_eq_decide.mpr (by omega)
        rw [hlt]
        split <;> simp [getLsbD_setBit_ne _ hjn, getLsbD_merge, hlow]

/-- Two merges from one source, with a register `dirty` that collects the changed bits. The
second merge reports nothing that the first has reported, so both together report what one
merge under both masks reports. -/
theorem merge_merge_dirty (m₁ m₂ new old dirty : BitVec v) :
    (dirty ||| (merge m₁ new old ^^^ old))
        ||| (merge m₂ new (merge m₁ new old) ^^^ merge m₁ new old)
      = dirty ||| (merge (m₁ ||| m₂) new old ^^^ old) := by
  apply BitVec.eq_of_getLsbD_eq
  intro i hi
  simp only [BitVec.getLsbD_or, BitVec.getLsbD_xor, getLsbD_merge]
  -- Bit by bit this is a table of three truth values.
  cases m₁.getLsbD i <;> cases m₂.getLsbD i <;> cases dirty.getLsbD i <;> simp

/-- The union of a list of masks. -/
def unionMask (masks : List (BitVec v)) : BitVec v := masks.foldl (· ||| ·) 0#v

/-- Masks collected one by one. -/
theorem foldl_or_eq (masks : List (BitVec v)) :
    ∀ m : BitVec v, masks.foldl (· ||| ·) m = m ||| unionMask masks := by
  induction masks with
  | nil => intro m; simp [unionMask]
  | cons a masks ih =>
      intro m
      have hcons : unionMask (a :: masks) = a ||| unionMask masks := by
        unfold unionMask
        rw [List.foldl_cons, BitVec.zero_or]
        exact ih a
      rw [List.foldl_cons, ih (m ||| a), hcons, BitVec.or_assoc]

/-- The union with one more mask. -/
theorem unionMask_cons (m : BitVec v) (masks : List (BitVec v)) :
    unionMask (m :: masks) = m ||| unionMask masks := by
  rw [unionMask, List.foldl_cons, foldl_or_eq, BitVec.zero_or]

/-- A bit is in the union when it is in a mask. -/
theorem getLsbD_unionMask (masks : List (BitVec v)) (i : Nat) :
    (unionMask masks).getLsbD i = masks.any fun m => m.getLsbD i := by
  induction masks with
  | nil => exact BitVec.getLsbD_zero
  | cons m masks ih => rw [unionMask_cons, BitVec.getLsbD_or, ih, List.any_cons]

/-- The union does not depend on the order of the masks. -/
theorem unionMask_perm {l₁ l₂ : List (BitVec v)} (h : l₁.Perm l₂) :
    unionMask l₁ = unionMask l₂ := by
  induction h with
  | nil => rfl
  | cons m _ ih => rw [unionMask_cons, unionMask_cons, ih]
  | swap a b l =>
      rw [unionMask_cons, unionMask_cons, unionMask_cons, unionMask_cons,
        ← BitVec.or_assoc, BitVec.or_comm b a, BitVec.or_assoc]
  | trans _ _ ih₁ ih₂ => exact ih₁.trans ih₂

/-! ### Layouts -/

/-- Which bit of a `v`-bit register travels in which bit of a `w`-bit word. No register bit
and no word bit is used twice. -/
structure BitLayout (w v : Nat) where
  cells : List (Fin v × Fin w)
  register_nodup : (cells.map Prod.fst).Nodup
  word_nodup : (cells.map Prod.snd).Nodup

namespace BitLayout

/-- The register with the word's bits written to their places. -/
def scatter (l : BitLayout w v) (b : BitVec w) (r : BitVec v) : BitVec v :=
  l.cells.foldl (fun r p => setBit r p.1 (b.getLsbD p.2)) r

/-- The word built from the register's bits. -/
def gather (l : BitLayout w v) (r : BitVec v) : BitVec w :=
  l.cells.foldl (fun b p => setBit b p.2 (r.getLsbD p.1)) 0#w

/-- The register bits of the layout. -/
def mask (l : BitLayout w v) : BitVec v :=
  l.cells.foldl (fun m p => setBit m p.1 true) 0#v

/-- The word bits of the layout. -/
def wordMask (l : BitLayout w v) : BitVec w :=
  l.cells.foldl (fun m p => setBit m p.2 true) 0#w

end BitLayout

/-- A fold that sets bits named by `pos` leaves every other bit. -/
theorem foldl_setBit_of_notMem {α : Type} (pos : α → Fin v) (val : α → Bool) (i : Fin v) :
    ∀ (cells : List α) (r : BitVec v), i ∉ cells.map pos →
      (cells.foldl (fun r p => setBit r (pos p) (val p)) r).getLsbD i = r.getLsbD i := by
  intro cells
  induction cells with
  | nil => intro r _; rfl
  | cons c cells ih =>
      intro r hi
      simp only [List.map_cons, List.mem_cons, not_or] at hi
      rw [List.foldl_cons, ih _ hi.2, getLsbD_setBit_ne]
      exact fun h => hi.1 (Fin.ext h.symm)

/-- A fold that sets bits at distinct positions leaves at each position its own value. -/
theorem foldl_setBit_of_mem {α : Type} (pos : α → Fin v) (val : α → Bool) (c : α) :
    ∀ (cells : List α) (r : BitVec v), (cells.map pos).Nodup → c ∈ cells →
      (cells.foldl (fun r p => setBit r (pos p) (val p)) r).getLsbD (pos c) = val c := by
  intro cells
  induction cells with
  | nil => intro r _ hc; cases hc
  | cons d cells ih =>
      intro r hnd hc
      rw [List.map_cons, List.nodup_cons] at hnd
      rw [List.foldl_cons]
      -- The later cells have other positions, so they leave the first write alone.
      rcases List.mem_cons.mp hc with rfl | hc
      · rw [foldl_setBit_of_notMem pos val _ cells _ hnd.1, getLsbD_setBit_self _ (Fin.isLt _)]
      · exact ih _ hnd.2 hc

/-- A write to a bit that a fold does not touch can come after the fold. -/
theorem foldl_setBit_setBit {α : Type} (pos : α → Fin v) (val : α → Bool) (i : Fin v)
    (b : Bool) :
    ∀ (cells : List α) (r : BitVec v), i ∉ cells.map pos →
      cells.foldl (fun r p => setBit r (pos p) (val p)) (setBit r i b)
        = setBit (cells.foldl (fun r p => setBit r (pos p) (val p)) r) i b := by
  intro cells
  induction cells with
  | nil => intro r _; rfl
  | cons c cells ih =>
      intro r hi
      simp only [List.map_cons, List.mem_cons, not_or] at hi
      have hne : (i : Nat) ≠ pos c := fun h => hi.1 (Fin.ext h)
      rw [List.foldl_cons, List.foldl_cons, setBit_comm r hne, ih _ hi.2]

namespace BitLayout

variable (l : BitLayout w v)

/-- A scattered cell has the bit of the word. -/
theorem getLsbD_scatter_of_mem {c : Fin v × Fin w} (hc : c ∈ l.cells) (b : BitVec w)
    (r : BitVec v) : (l.scatter b r).getLsbD c.1 = b.getLsbD c.2 :=
  foldl_setBit_of_mem Prod.fst (fun p : Fin v × Fin w => b.getLsbD p.2) c l.cells r
    l.register_nodup hc

/-- The other bits of the register stay. -/
theorem getLsbD_scatter_of_notMem {i : Fin v} (hi : i ∉ l.cells.map Prod.fst) (b : BitVec w)
    (r : BitVec v) : (l.scatter b r).getLsbD i = r.getLsbD i :=
  foldl_setBit_of_notMem Prod.fst (fun p : Fin v × Fin w => b.getLsbD p.2) i l.cells r hi

/-- A gathered cell has the bit of the register. -/
theorem getLsbD_gather_of_mem {c : Fin v × Fin w} (hc : c ∈ l.cells) (r : BitVec v) :
    (l.gather r).getLsbD c.2 = r.getLsbD c.1 :=
  foldl_setBit_of_mem Prod.snd (fun p : Fin v × Fin w => r.getLsbD p.1) c l.cells 0#w
    l.word_nodup hc

/-- The other bits of the word are clear. -/
theorem getLsbD_gather_of_notMem {k : Fin w} (hk : k ∉ l.cells.map Prod.snd)
    (r : BitVec v) : (l.gather r).getLsbD k = false := by
  have h := foldl_setBit_of_notMem Prod.snd (fun p : Fin v × Fin w => r.getLsbD p.1) k
    l.cells 0#w hk
  rwa [BitVec.getLsbD_zero] at h

/-- A written register reads the old one bit by bit. -/
theorem scatter_congr {r r' : BitVec v} (b : BitVec w) {i : Nat}
    (h : r.getLsbD i = r'.getLsbD i) : (l.scatter b r).getLsbD i = (l.scatter b r').getLsbD i := by
  by_cases hi : i < v
  · by_cases hmem : (⟨i, hi⟩ : Fin v) ∈ l.cells.map Prod.fst
    · obtain ⟨c, hc, hci⟩ := List.mem_map.mp hmem
      have hidx : (c.1 : Nat) = i := congrArg Fin.val hci
      rw [← hidx, l.getLsbD_scatter_of_mem hc, l.getLsbD_scatter_of_mem hc]
    · have hnew := l.getLsbD_scatter_of_notMem hmem b r
      have hnew' := l.getLsbD_scatter_of_notMem hmem b r'
      exact hnew.trans (h.trans hnew'.symm)
  · rw [BitVec.getLsbD_of_ge _ _ (Nat.le_of_not_lt hi),
      BitVec.getLsbD_of_ge _ _ (Nat.le_of_not_lt hi)]

/-- Membership in the register mask. -/
theorem getLsbD_mask (i : Fin v) :
    l.mask.getLsbD i = decide (i ∈ l.cells.map Prod.fst) := by
  by_cases hi : i ∈ l.cells.map Prod.fst
  · obtain ⟨c, hc, rfl⟩ := List.mem_map.mp hi
    rw [decide_eq_true hi]
    exact foldl_setBit_of_mem Prod.fst (fun _ => true) c l.cells 0#v l.register_nodup hc
  · have h := foldl_setBit_of_notMem Prod.fst (fun _ => true) i l.cells 0#v hi
    rw [decide_eq_false hi]
    rwa [BitVec.getLsbD_zero] at h

/-- Membership in the word mask. -/
theorem getLsbD_wordMask (k : Fin w) :
    l.wordMask.getLsbD k = decide (k ∈ l.cells.map Prod.snd) := by
  by_cases hk : k ∈ l.cells.map Prod.snd
  · obtain ⟨c, hc, rfl⟩ := List.mem_map.mp hk
    rw [decide_eq_true hk]
    exact foldl_setBit_of_mem Prod.snd (fun _ => true) c l.cells 0#w l.word_nodup hc
  · have h := foldl_setBit_of_notMem Prod.snd (fun _ => true) k l.cells 0#w hk
    rw [decide_eq_false hk]
    rwa [BitVec.getLsbD_zero] at h

/-- Writing a word that was built from `new` copies the layout's bits of `new`. -/
theorem scatter_gather (new old : BitVec v) :
    l.scatter (l.gather new) old = merge l.mask new old := by
  apply BitVec.eq_of_getLsbD_eq
  intro i hi
  have hmask := l.getLsbD_mask ⟨i, hi⟩
  rw [getLsbD_merge, hmask]
  -- A bit of the layout goes through the word and back, any other bit is the old one.
  by_cases hmem : (⟨i, hi⟩ : Fin v) ∈ l.cells.map Prod.fst
  · obtain ⟨c, hc, hci⟩ := List.mem_map.mp hmem
    have h := l.getLsbD_scatter_of_mem hc (l.gather new) old
    rw [l.getLsbD_gather_of_mem hc, hci] at h
    rw [decide_eq_true hmem, if_pos rfl]
    exact h
  · have h := l.getLsbD_scatter_of_notMem hmem (l.gather new) old
    rw [decide_eq_false hmem, if_neg (by decide)]
    exact h

/-- Reading back a word that was written gives the word's bits of the layout. -/
theorem gather_scatter (b : BitVec w) (r : BitVec v) :
    l.gather (l.scatter b r) = b &&& l.wordMask := by
  apply BitVec.eq_of_getLsbD_eq
  intro k hk
  have hmask := l.getLsbD_wordMask ⟨k, hk⟩
  rw [BitVec.getLsbD_and, hmask]
  -- A word bit without a cell is never gathered, so it comes back clear.
  by_cases hmem : (⟨k, hk⟩ : Fin w) ∈ l.cells.map Prod.snd
  · obtain ⟨c, hc, hck⟩ := List.mem_map.mp hmem
    have h := l.getLsbD_gather_of_mem hc (l.scatter b r)
    rw [l.getLsbD_scatter_of_mem hc, hck] at h
    rw [decide_eq_true hmem, Bool.and_true]
    exact h
  · have h := l.getLsbD_gather_of_notMem hmem (l.scatter b r)
    rw [decide_eq_false hmem, Bool.and_false]
    exact h

/-- A gathered word has no bits outside the layout. -/
theorem gather_and_wordMask (r : BitVec v) : l.gather r &&& l.wordMask = l.gather r := by
  apply BitVec.eq_of_getLsbD_eq
  intro k hk
  have hmask := l.getLsbD_wordMask ⟨k, hk⟩
  rw [BitVec.getLsbD_and, hmask]
  by_cases hmem : (⟨k, hk⟩ : Fin w) ∈ l.cells.map Prod.snd
  · rw [decide_eq_true hmem, Bool.and_true]
  · rw [decide_eq_false hmem, Bool.and_false]
    exact (l.getLsbD_gather_of_notMem hmem r).symm

/-- A write leaves the register bits outside the layout. -/
theorem scatter_outside (b : BitVec w) (r : BitVec v) {i : Nat}
    (hi : l.mask.getLsbD i = false) : (l.scatter b r).getLsbD i = r.getLsbD i := by
  by_cases hv : i < v
  · have hmask := l.getLsbD_mask ⟨i, hv⟩
    rw [hi] at hmask
    exact l.getLsbD_scatter_of_notMem (i := ⟨i, hv⟩) (of_decide_eq_false hmask.symm) b r
  · rw [BitVec.getLsbD_of_ge _ i (by omega), BitVec.getLsbD_of_ge _ i (by omega)]

/-- A word depends only on the register bits of the layout. -/
theorem gather_congr {r r' : BitVec v}
    (h : ∀ c ∈ l.cells, r.getLsbD c.1 = r'.getLsbD c.1) : l.gather r = l.gather r' := by
  apply BitVec.eq_of_getLsbD_eq
  intro k hk
  by_cases hmem : (⟨k, hk⟩ : Fin w) ∈ l.cells.map Prod.snd
  · obtain ⟨c, hc, hck⟩ := List.mem_map.mp hmem
    have hk' : k = c.2 := congrArg Fin.val hck.symm
    rw [hk', l.getLsbD_gather_of_mem hc, l.getLsbD_gather_of_mem hc, h c hc]
  · have hnone := l.getLsbD_gather_of_notMem hmem
    exact (hnone r).trans (hnone r').symm

/-- A word bit outside the layout is not read. -/
theorem scatter_setBit {k : Fin w} (hk : k ∉ l.cells.map Prod.snd) (x : Bool) (b : BitVec w)
    (r : BitVec v) : l.scatter (setBit b k x) r = l.scatter b r := by
  apply BitVec.eq_of_getLsbD_eq
  intro i hi
  by_cases hmem : (⟨i, hi⟩ : Fin v) ∈ l.cells.map Prod.fst
  · obtain ⟨c, hc, hci⟩ := List.mem_map.mp hmem
    have hi' : i = c.1 := congrArg Fin.val hci.symm
    have hne : (k : Nat) ≠ c.2 := fun h => hk (List.mem_map.mpr ⟨c, hc, (Fin.ext h).symm⟩)
    rw [hi', l.getLsbD_scatter_of_mem hc, l.getLsbD_scatter_of_mem hc, getLsbD_setBit_ne b hne]
  · have h := l.getLsbD_scatter_of_notMem hmem
    exact (h (setBit b k x) r).trans (h b r).symm

/-- A write changes nothing exactly when the register holds the word's bits already. -/
theorem scatter_eq_self_iff {b : BitVec w} {r : BitVec v} :
    l.scatter b r = r ↔ ∀ c ∈ l.cells, b.getLsbD c.2 = r.getLsbD c.1 := by
  constructor
  · intro h c hc
    rw [← l.getLsbD_scatter_of_mem hc b r, h]
  · intro h
    apply BitVec.eq_of_getLsbD_eq
    intro i hi
    by_cases hmem : (⟨i, hi⟩ : Fin v) ∈ l.cells.map Prod.fst
    · obtain ⟨c, hc, hci⟩ := List.mem_map.mp hmem
      have hidx : i = c.1 := congrArg Fin.val hci.symm
      rw [hidx, l.getLsbD_scatter_of_mem hc, h c hc]
    · exact l.getLsbD_scatter_of_notMem hmem b r

/-- Two registers that give the same word agree under the mask. -/
theorem merge_eq_of_gather_eq {new old : BitVec v} (h : l.gather new = l.gather old) :
    merge l.mask new old = old := by
  rw [← l.scatter_gather, h, l.scatter_gather]
  apply BitVec.eq_of_getLsbD_eq
  intro i hi
  rw [getLsbD_merge, ite_self]

end BitLayout

end BitMask
