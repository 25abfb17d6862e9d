import C6021Light.Lib.FaultRun
import C6021Light.Lib.RecordRing
import C6021Light.Microrl.LineEditor

/-!
# `C6021Light.Proofs.HistoryRing`: the ring buffer of the history

The ring buffer stores the lines of a `CommandHistory` as records (`Lib.RecordRing`). Every loop of
`hist_save_line` and `hist_restore_line` walks over these records, so it ends, and no access is
outside of an array.

`histSaveLine_eq` makes room by dropping the oldest lines. What is left is the newest lines that fit
(`Lib.NewestFit`). `histRestoreLine_up` and `histRestoreLine_down` copy a stored line, also when it
goes over the end of the buffer.
-/

set_option autoImplicit false

namespace C6021Light

open CheckedArray CommandHistory FaultRun NewestFit RecordRing

/-! ### Accesses -/

/-- An access that finds something. -/
@[simp] theorem access_some {α : Type} (a : α) : access (some a) = .ok a := rfl

/-- A sequence whose first part succeeds. -/
@[simp] theorem ok_bind {φ α β : Type} (a : α) (f : α → Except φ β) :
    ((Except.ok a : Except φ α) >>= f) = f a := rfl

namespace RingHistory

/-- A position that went over the end once is wrapped. -/
theorem wrap_eq_mod {pos : Nat} (h : pos < 2 * ringHistoryLen) :
    wrap pos = pos % ringHistoryLen := by
  rw [wrap]
  split
  · rename_i hle
    rw [Nat.mod_eq_sub_mod hle, Nat.mod_eq_of_lt (by omega)]
  · rename_i hlt
    exact (Nat.mod_eq_of_lt (Nat.lt_of_not_le hlt)).symm

/-- A length of the ring is kept as a character. -/
theorem toNat_ofNat_length {n : Nat} (h : n < ringHistoryLen) : (Char.ofNat n).toNat = n := by
  have hall : ∀ n < ringHistoryLen, (Char.ofNat n).toNat = n := by decide
  exact hall n h

/-- The ring buffer stores the lines. -/
structure Represents (hist : RingHistory) (history : CommandHistory) : Prop where
  length : hist.ringBuf.length = ringHistoryLen
  stores : Stores Char.ofNat hist.ringBuf hist.first hist.last history.lines
  cur : hist.cur = history.cur
  cur_le : history.cur ≤ history.lines.length

variable {hist : RingHistory} {history : CommandHistory} {lines : List CString}

/-- There are fewer lines than cells. -/
theorem Represents.length_lines_lt (h : Represents hist history) :
    history.lines.length < ringHistoryLen :=
  Nat.lt_of_le_of_lt (length_le_size history.lines) (h.length ▸ h.stores.room)

/-- The cells of the lines are the weight of the history. -/
theorem size_eq_total (lines : List CString) : size lines = total lineWeight lines := rfl

/-- A line that is not stored has length zero, like the end mark. -/
theorem lengthAt_eq_zero_iff (h : Stores Char.ofNat hist.ringBuf hist.first hist.last lines)
    {i : Nat} : Stores.lengthAt lines i = 0 ↔ lines.length ≤ i := by
  rw [Stores.lengthAt, List.length_eq_zero_iff]
  constructor
  · intro hnil
    by_contra hlt
    rw [List.getElem?_eq_getElem (Nat.lt_of_not_le hlt)] at hnil
    exact h.nonempty _ (List.getElem_mem _) hnil
  · intro hle
    rw [List.getElem?_eq_none hle]
    rfl

/-- A stored line has room for its length. -/
theorem lengthAt_lt (hlen : hist.ringBuf.length = ringHistoryLen)
    (h : Stores Char.ofNat hist.ringBuf hist.first hist.last lines) (i : Nat) :
    Stores.lengthAt lines i + 1 < ringHistoryLen := by
  have hroom := h.room
  rw [hlen] at hroom
  rw [Stores.lengthAt]
  by_cases hlt : i < lines.length
  · have hle : total lineWeight [lines[i]] ≤ total lineWeight (lines.take (i + 1)) := by
      refine total_le_of_isSuffix ⟨lines.take i, ?_⟩
      rw [List.take_add_one, List.getElem?_eq_getElem hlt]
      rfl
    have htake := @total_append _ lineWeight (lines.take (i + 1)) (lines.drop (i + 1))
    rw [List.take_append_drop] at htake
    have hsingle : total lineWeight [lines[i]] = lines[i].length + 1 := rfl
    rw [List.getElem?_eq_getElem hlt, Option.getD_some]
    rw [size_eq_total] at hroom
    omega
  · rw [List.getElem?_eq_none (Nat.le_of_not_lt hlt)]
    decide

/-- The header of a record. -/
theorem lengthAt_eq (hlen : hist.ringBuf.length = ringHistoryLen)
    (h : Stores Char.ofNat hist.ringBuf hist.first hist.last lines) {i : Nat}
    (hi : i ≤ lines.length) :
    hist.lengthAt (Stores.position hist.ringBuf hist.first lines i)
      = .ok (Stores.lengthAt lines i) := by
  have hlt := lengthAt_lt hlen h i
  rw [RingHistory.lengthAt, h.header hi, access_some]
  exact congrArg Except.ok (toNat_ofNat_length (by omega))

/-- The first header has the length of the oldest line. -/
theorem lengthAt_first (hlen : hist.ringBuf.length = ringHistoryLen)
    (h : Stores Char.ofNat hist.ringBuf hist.first hist.last lines) :
    hist.lengthAt hist.first = .ok (Stores.lengthAt lines 0) := by
  have hhead := lengthAt_eq hlen h (Nat.zero_le _)
  rwa [h.position_zero] at hhead

/-! ### Room for a line -/

/-- There is room for a line when its cells and the end mark fit behind the others. -/
theorem histIsSpaceForNew_eq (hlen : hist.ringBuf.length = ringHistoryLen)
    (h : Stores Char.ofNat hist.ringBuf hist.first hist.last lines) {len : Nat}
    (hfits : len + 2 ≤ ringHistoryLen) :
    hist.histIsSpaceForNew len = .ok (decide (size lines + len + 2 ≤ ringHistoryLen)) := by
  have hfirst := h.first_lt
  have hroom := h.room
  have hlast := h.last_eq
  rw [hlen] at hfirst hroom hlast
  rw [histIsSpaceForNew, lengthAt_first hlen h]
  show (if Stores.lengthAt lines 0 = 0 then _ else _) = _
  cases lines with
  | nil =>
      have hsize : size ([] : List CString) + len + 2 ≤ ringHistoryLen := by
        show 0 + len + 2 ≤ _
        omega
      rw [if_pos ((lengthAt_eq_zero_iff h).mpr (Nat.le_refl 0)), decide_eq_true hsize]
      rfl
  | cons line lines =>
      have hpos : 0 < size (line :: lines) := Nat.lt_of_lt_of_le (Nat.succ_pos _)
        (length_le_size (line :: lines))
      rw [if_neg fun h0 => absurd ((lengthAt_eq_zero_iff h).mp h0) (Nat.not_succ_le_zero _)]
      simp only [ringHistoryLen] at hfirst hroom hlast ⊢
      split
      · exact congrArg Except.ok (decide_eq_decide.mpr (by omega))
      · exact congrArg Except.ok (decide_eq_decide.mpr (by omega))

/-- Erasing the oldest line moves the start behind it. -/
theorem histEraseOlder_eq {line : CString} (hlen : hist.ringBuf.length = ringHistoryLen)
    (h : Stores Char.ofNat hist.ringBuf hist.first hist.last (line :: lines)) :
    hist.histEraseOlder
      = .ok { hist with first := (hist.first + line.length + 1) % ringHistoryLen } := by
  have hfirst := h.first_lt
  rw [hlen] at hfirst
  have hlt := lengthAt_lt hlen h 0
  have hline : Stores.lengthAt (line :: lines) 0 = line.length := rfl
  rw [hline] at hlt
  rw [histEraseOlder, lengthAt_first hlen h, hline]
  show Except.ok { hist with first := wrap (hist.first + line.length + 1) } = _
  rw [wrap_eq_mod (by omega)]

/-- Room is made by dropping the oldest lines. -/
theorem makeSpace_eq {len : Nat} (hfits : len + 2 ≤ ringHistoryLen) :
    ∀ (lines : List CString) (rounds : Nat) (hist : RingHistory), lines.length < rounds →
      hist.ringBuf.length = ringHistoryLen →
      Stores Char.ofNat hist.ringBuf hist.first hist.last lines →
        ∃ first, makeSpace len rounds hist = .ok { hist with first := first } ∧
          Stores Char.ofNat hist.ringBuf first hist.last
            (newest lineWeight (ringHistoryLen - 1 - (len + 1)) lines) := by
  intro lines
  -- The induction is on the lines that are still there. Each round drops the oldest one.
  induction lines with
  | nil =>
      intro rounds hist hrounds hlen h
      obtain ⟨rounds, rfl⟩ := Nat.exists_eq_succ_of_ne_zero (Nat.ne_zero_of_lt hrounds)
      have hsize : size ([] : List CString) + len + 2 ≤ ringHistoryLen := by
        show 0 + len + 2 ≤ _
        omega
      rw [makeSpace, histIsSpaceForNew_eq hlen h hfits, decide_eq_true hsize]
      exact ⟨hist.first, rfl, h⟩
  | cons line lines ih =>
      intro rounds hist hrounds hlen h
      obtain ⟨rounds, rfl⟩ := Nat.exists_eq_succ_of_ne_zero (Nat.ne_zero_of_lt hrounds)
      rw [makeSpace, histIsSpaceForNew_eq hlen h hfits]
      -- There is room, so the loop ends with all lines that are left.
      by_cases hsize : size (line :: lines) + len + 2 ≤ ringHistoryLen
      · rw [decide_eq_true hsize, newest_of_le (by rw [← size_eq_total]; omega)]
        exact ⟨hist.first, rfl, h⟩
      -- There is no room, so the oldest line is not among the newest that fit.
      · have hweight : ¬ total lineWeight (line :: lines) ≤ ringHistoryLen - 1 - (len + 1) := by
          rw [← size_eq_total]
          omega
        have htail := h.tail
        rw [hlen] at htail
        rw [decide_eq_false hsize, newest, if_neg hweight]
        obtain ⟨first, hspace, hstores⟩ := ih rounds
          { hist with first := (hist.first + line.length + 1) % ringHistoryLen }
          (Nat.lt_of_succ_lt_succ hrounds) hlen htail
        refine ⟨first, ?_, hstores⟩
        show (do makeSpace len rounds (← hist.histEraseOlder)) = _
        rw [histEraseOlder_eq hlen h]
        exact hspace

/-! ### The stored line -/

/-- The text is written behind the header, in one part or in two. -/
theorem storeLine_eq {line text : CString} (hlen : hist.ringBuf.length = ringHistoryLen)
    (hlast : hist.last < ringHistoryLen) (htext : slice line 0 text.length = some text)
    (hfits : text.length + 2 ≤ ringHistoryLen) :
    ∃ ringBuf, hist.storeLine line text.length = .ok ringBuf ∧
      Writes hist.ringBuf ringBuf (hist.last + 1) text := by
  rw [storeLine]
  split
  · rename_i hshort
    obtain ⟨ringBuf, hwrite, hwrites⟩ :=
      @writes_overwrite _ hist.ringBuf text (hist.last + 1) (by rw [hlen]; omega)
    refine ⟨ringBuf, ?_, hwrites⟩
    rw [htext]
    show access (overwrite hist.ringBuf (hist.last + 1) text) = _
    rw [hwrite, access_some]
  · rename_i hlong
    -- The first part goes to the end of the buffer, and the rest to its front.
    obtain ⟨partLen, hpart⟩ : ∃ partLen, ringHistoryLen - hist.last - 1 = partLen := ⟨_, rfl⟩
    have hround : hist.last + 1 + partLen = ringHistoryLen := by omega
    have hle : partLen ≤ text.length := Nat.le_of_not_lt (hpart ▸ hlong)
    obtain ⟨hbound, hline⟩ : text.length ≤ line.length ∧ line.take text.length = text := by
      rw [slice] at htext
      split at htext
      · rename_i hbound
        rw [Nat.zero_add] at hbound
        exact ⟨hbound, Option.some.inj htext⟩
      · cases htext
    have hfront : slice line 0 partLen = some (text.take partLen) := by
      rw [slice, if_pos (by omega), ← hline, List.take_take, Nat.min_eq_left hle]
      rfl
    have hrest : slice line partLen (text.length - partLen) = some (text.drop partLen) := by
      rw [slice, if_pos (by omega)]
      refine congrArg some ?_
      rw [← hline, List.drop_take, hline]
    have hfrontLen : (text.take partLen).length = partLen := by
      rw [List.length_take, Nat.min_eq_left hle]
    obtain ⟨ringBuf₁, hwrite₁, hwrites₁⟩ :=
      @writes_overwrite _ hist.ringBuf (text.take partLen) (hist.last + 1)
        (by rw [hlen, hfrontLen]; omega)
    have hlen₁ : ringBuf₁.length = ringHistoryLen := hwrites₁.length.trans hlen
    obtain ⟨ringBuf₂, hwrite₂, hwrites₂⟩ :=
      @writes_overwrite _ ringBuf₁ (text.drop partLen) 0 (by rw [hlen₁, List.length_drop]; omega)
    refine ⟨ringBuf₂, ?_, ?_⟩
    · show (do
        let part ← access (slice line 0 (ringHistoryLen - hist.last - 1))
        let ringBuf ← access (overwrite hist.ringBuf (hist.last + 1) part)
        let rest ← access (slice line (ringHistoryLen - hist.last - 1)
          (text.length - (ringHistoryLen - hist.last - 1)))
        access (overwrite ringBuf 0 rest)) = _
      rw [hpart, hfront]
      show (do
        let ringBuf ← access (overwrite hist.ringBuf (hist.last + 1) (text.take partLen))
        let rest ← access (slice line partLen (text.length - partLen))
        access (overwrite ringBuf 0 rest)) = _
      rw [hwrite₁, hrest]
      show access (overwrite ringBuf₁ 0 (text.drop partLen)) = _
      rw [hwrite₂, access_some]
    · have hfirst : (hist.last + 1 + (text.take partLen).length) % ringBuf₁.length = 0 := by
        rw [hfrontLen, hlen₁, hround, Nat.mod_self]
      have hwrites := hwrites₁.append (Writes.of_mod (hfirst ▸ hwrites₂)) (by
        rw [List.length_drop, hfrontLen, hlen]
        omega)
      rwa [List.take_append_drop] at hwrites

/-- Putting a character is a write of one cell. -/
theorem writes_put {ring : CString} {p : Nat} (h : p < ring.length) (c : Char) :
    ∃ ring', put ring p c = some ring' ∧ Writes ring ring' p [c] :=
  @writes_overwrite _ _ [c] _ h

/-- The length of a first line is where the header of the line will be. -/
theorem storeFirstLength_eq (hlen : hist.ringBuf.length = ringHistoryLen)
    (h : Stores Char.ofNat hist.ringBuf hist.first hist.last lines) (len : Nat) :
    ∃ ringBuf, hist.storeFirstLength len = .ok ringBuf ∧ ringBuf.length = ringHistoryLen ∧
      ∀ ring' c cells, Writes ringBuf ring' hist.last (c :: cells) →
        Writes hist.ringBuf ring' hist.last (c :: cells) := by
  rw [storeFirstLength, lengthAt_first hlen h, ok_bind]
  split
  · rename_i hzero
    have hempty := (lengthAt_eq_zero_iff h).mp hzero
    have hfirst : hist.last = hist.first := by
      rw [h.last_eq, List.length_eq_zero_iff.mp (Nat.le_zero.mp hempty)]
      exact Nat.mod_eq_of_lt h.first_lt
    obtain ⟨ringBuf, hput, hwrites⟩ := writes_put h.first_lt (Char.ofNat len)
    refine ⟨ringBuf, congrArg access hput, hwrites.length.trans hlen,
      fun ring' c cells hlater => ?_⟩
    rw [hfirst] at hlater ⊢
    exact hwrites.absorb hlater (Nat.le_add_left 1 _)
  · exact ⟨hist.ringBuf, rfl, hlen, fun _ _ _ hlater => hlater⟩

/-- A line is stored behind the others, and the oldest lines make room for it. -/
theorem histSaveLine_eq (h : Represents hist history) {line text : CString}
    (htext : slice line 0 text.length = some text) (hne : text ≠ []) :
    ∃ hist', hist.histSaveLine line text.length = .ok hist' ∧
      Represents hist' (history.save text) := by
  rw [histSaveLine, CommandHistory.save]
  split
  · exact ⟨hist, rfl, h⟩
  rename_i hshort
  have hfits : text.length + 2 ≤ ringHistoryLen := by
    simp only [ringHistoryLen] at hshort ⊢
    omega
  have hlen := h.length
  have hlast : hist.last < ringHistoryLen := hlen ▸ h.stores.last_lt
  obtain ⟨first, hspace, hstores⟩ :=
    makeSpace_eq hfits history.lines ringHistoryLen hist h.length_lines_lt hlen h.stores
  obtain ⟨ringBuf₀, hfirst, hlen₀, hlater⟩ :=
    @storeFirstLength_eq { hist with first := first } _ hlen hstores text.length
  obtain ⟨ringBuf₁, hstore, hwrites₁⟩ :=
    @storeLine_eq { hist with first := first, ringBuf := ringBuf₀ } _ _ hlen₀ hlast htext hfits
  have hlen₁ : ringBuf₁.length = ringHistoryLen := hwrites₁.length.trans hlen₀
  obtain ⟨ringBuf₂, hput₂, hwrites₂⟩ :=
    writes_put (hlen₁.symm ▸ hlast) (Char.ofNat text.length)
  have hlen₂ : ringBuf₂.length = ringHistoryLen := hwrites₂.length.trans hlen₁
  have hwrap := @wrap_eq_mod (hist.last + text.length + 1) (by omega)
  have hmark : wrap (hist.last + text.length + 1) < ringBuf₂.length := by
    rw [hwrap, hlen₂]
    exact Nat.mod_lt _ (Nat.zero_lt_of_lt hlast)
  obtain ⟨ringBuf₃, hput₃, hwrites₃⟩ := writes_put hmark nul
  refine ⟨{ hist with ringBuf := ringBuf₃, first := first
                      last := wrap (hist.last + text.length + 1), cur := 0 }, ?_, ?_⟩
  · rw [hspace, ok_bind, hfirst, ok_bind, hstore, ok_bind]
    simp only [hput₂, access_some, ok_bind, hput₃]
    rfl
  · -- The header, the line and the new end mark are behind the other lines.
    have hrecord : Writes ringBuf₀ ringBuf₂ hist.last (Char.ofNat text.length :: text) :=
      hwrites₁.cons hwrites₂ (by rw [hlen₀]; omega)
    have hall : Writes hist.ringBuf ringBuf₃ hist.last
        (Char.ofNat text.length :: text ++ [nul]) := by
      refine hlater _ _ _ (hrecord.append (Writes.of_mod ?_) ?_)
      · rw [List.length_cons, hlen₂, ← Nat.add_assoc, ← hwrap]
        exact hwrites₃
      · rw [List.length_cons, hlen₀]
        exact hfits
    have hroom : size (newest lineWeight (ringHistoryLen - 1 - (text.length + 1)) history.lines)
        + text.length + 2 ≤ hist.ringBuf.length := by
      have htotal := @total_newest_le _ lineWeight (ringHistoryLen - 1 - (text.length + 1))
        history.lines
      rw [← size_eq_total] at htotal
      omega
    have hpush := hstores.push hall hroom hne
    have hweight : lineWeight text ≤ ringHistoryLen - 1 := by
      rw [lineWeight]
      omega
    rw [hlen, ← hwrap] at hpush
    refine ⟨hwrites₃.length.trans hlen₂, ?_, rfl, Nat.zero_le _⟩
    rw [newest_append_singleton hweight]
    exact hpush

/-! ### The walk over the records -/

/-- The header behind a header. -/
theorem wrap_position (hlen : hist.ringBuf.length = ringHistoryLen)
    (h : Stores Char.ofNat hist.ringBuf hist.first hist.last lines) {i : Nat}
    (hi : i < lines.length) :
    wrap (Stores.position hist.ringBuf hist.first lines i + Stores.lengthAt lines i + 1)
      = Stores.position hist.ringBuf hist.first lines (i + 1) := by
  have hlt := lengthAt_lt hlen h i
  have hpos := h.position_lt i
  rw [hlen] at hpos
  rw [Stores.position_succ _ _ hi, wrap_eq_mod (by omega), hlen]

/-- The walk from a record counts the records from there on. -/
theorem countRecords_eq (hlen : hist.ringBuf.length = ringHistoryLen)
    (h : Stores Char.ofNat hist.ringBuf hist.first hist.last lines) :
    ∀ rounds i cnt, i ≤ lines.length → lines.length < i + rounds →
      hist.countRecords rounds (Stores.position hist.ringBuf hist.first lines i) cnt
        = .ok (cnt + (lines.length - i)) := by
  intro rounds
  induction rounds with
  | zero => intro i cnt hi hrounds; omega
  | succ rounds ih =>
      intro i cnt hi hrounds
      rw [countRecords, lengthAt_eq hlen h hi, ok_bind]
      by_cases hend : lines.length ≤ i
      · rw [if_neg (not_not.mpr ((lengthAt_eq_zero_iff h).mpr hend)), Nat.sub_eq_zero_of_le hend]
        rfl
      · rw [if_pos (mt (lengthAt_eq_zero_iff h).mp hend),
          wrap_position hlen h (Nat.lt_of_not_le hend),
          ih _ _ (by omega) (by omega)]
        congr 1
        omega

/-- The walk stops at the first record that is wanted, or behind the last one. -/
theorem findRecord_eq (hlen : hist.ringBuf.length = ringHistoryLen)
    (h : Stores Char.ofNat hist.ringBuf hist.first hist.last lines) {wanted : Nat → Bool} {k : Nat}
    (hk : k ≤ lines.length) (hwanted : k < lines.length → wanted k = true)
    (hbefore : ∀ j < k, wanted j = false) :
    ∀ rounds i, i ≤ k → k < i + rounds →
      hist.findRecord wanted rounds (Stores.position hist.ringBuf hist.first lines i) i
        = .ok (Stores.position hist.ringBuf hist.first lines k) := by
  intro rounds
  induction rounds with
  | zero => intro i hi hrounds; omega
  | succ rounds ih =>
      intro i hi hrounds
      have hle : i ≤ lines.length := hi.trans hk
      rw [findRecord, lengthAt_eq hlen h hle, ok_bind]
      -- The walk is at record `k`, and stops.
      by_cases hend : i = k
      · subst hend
        have hstop : (Stores.lengthAt lines i ≠ 0 && !wanted i) = false := by
          by_cases hlt : i < lines.length
          · rw [hwanted hlt, Bool.not_true, Bool.and_false]
          · rw [(lengthAt_eq_zero_iff h).mpr (Nat.le_of_not_lt hlt)]
            rfl
        rw [hstop]
        rfl
      -- It is in front of record `k`, which is no end of the list and not wanted.
      · have hlt : i < k := Nat.lt_of_le_of_ne hi hend
        have hgo : (Stores.lengthAt lines i ≠ 0 && !wanted i) = true := by
          rw [hbefore i hlt, Bool.not_false, Bool.and_true]
          exact decide_eq_true (mt (lengthAt_eq_zero_iff h).mp (by omega))
        rw [hgo, if_pos rfl, wrap_position hlen h (by omega)]
        exact ih _ hlt (by omega)

/-! ### The restored line -/

/-- The line at an index. Behind the last one it is empty. -/
theorem holds_record (h : Stores Char.ofNat hist.ringBuf hist.first hist.last lines) (i : Nat) :
    Holds hist.ringBuf (Stores.position hist.ringBuf hist.first lines i + 1)
      (lines[i]?.getD []) := by
  by_cases hi : i < lines.length
  · rw [List.getElem?_eq_getElem hi]
    exact h.record hi
  · rw [List.getElem?_eq_none (Nat.le_of_not_lt hi)]
    exact Holds.nil

/-- The line is copied in one part, or in two when it goes over the end of the buffer. -/
theorem copyRecord_eq (hlen : hist.ringBuf.length = ringHistoryLen)
    (h : Stores Char.ofNat hist.ringBuf hist.first hist.last lines) {i : Nat}
    (hi : i ≤ lines.length) {line : CString} (hline : line.length = commandLineLen) :
    hist.copyRecord (Stores.position hist.ringBuf hist.first lines i) line
      = .ok (lines[i]?.getD [] ++ line.drop (lines[i]?.getD []).length) := by
  have hlt := lengthAt_lt hlen h i
  have hpos := h.position_lt i
  have hholds := holds_record h i
  have hroom : ringHistoryLen < commandLineLen := by decide
  rw [copyRecord, lengthAt_eq hlen h hi, ok_bind]
  rw [Stores.lengthAt] at hlt ⊢
  generalize Stores.position hist.ringBuf hist.first lines i = header at hpos hholds ⊢
  generalize lines[i]?.getD [] = text at hlt hholds ⊢
  rw [hlen] at hpos
  split
  -- The line does not reach the end of the buffer.
  · have hslice := hholds.slice (by rw [hlen]; omega)
    have hwrite := @overwrite_append _ [] (line.drop text.length) (line.take text.length) text
      (by rw [List.length_take]; omega)
    rw [List.nil_append, List.take_append_drop] at hwrite
    rw [hslice, access_some, ok_bind]
    exact congrArg access hwrite
  -- `part0` characters are in front of the end of the buffer, the others at its start.
  · rename_i hlong
    obtain ⟨part0, hpart⟩ : ∃ part0, ringHistoryLen - header - 1 = part0 := ⟨_, rfl⟩
    have hround : header + 1 + part0 = ringHistoryLen := by omega
    have hle : part0 ≤ text.length := by omega
    have htake : (text.take part0).length = part0 := by rw [List.length_take, Nat.min_eq_left hle]
    have hdrop : (text.drop part0).length = text.length - part0 := List.length_drop
    rw [← List.take_append_drop part0 text, holds_append, htake, hround] at hholds
    obtain ⟨hfront, hrest⟩ := hholds
    rw [← holds_mod, hlen, Nat.mod_self] at hrest
    have hslice₁ := hfront.slice (by rw [hlen, htake]; omega)
    have hslice₂ := hrest.slice (by rw [hlen, hdrop]; omega)
    rw [htake] at hslice₁
    rw [hdrop] at hslice₂
    have hwrite₁ := @overwrite_append _ [] (line.drop part0) (line.take part0) (text.take part0)
      (by rw [htake, List.length_take]; omega)
    rw [List.nil_append, List.take_append_drop, List.nil_append, List.length_nil] at hwrite₁
    have hwrite₂ := @overwrite_append _ (text.take part0)
      ((line.drop part0).drop (text.length - part0))
      ((line.drop part0).take (text.length - part0)) (text.drop part0)
      (by rw [hdrop, List.length_take, List.length_drop]; omega)
    rw [List.append_assoc, List.take_append_drop, htake, List.drop_drop,
      Nat.add_sub_of_le hle, List.take_append_drop] at hwrite₂
    simp only [hpart, hslice₁, access_some, ok_bind, hwrite₁, hslice₂]
    exact congrArg access hwrite₂

/-- Where the record of a line is that is so many lines up. -/
theorem lineAt_eq (history : CommandHistory) (up : Nat) :
    history.lines[history.lines.length - up]?.getD [] = history.lineAt up := by
  rw [CommandHistory.lineAt]
  split
  · rename_i hzero
    rw [hzero, Nat.sub_zero, List.getElem?_eq_none (Nat.le_refl _)]
    rfl
  · rfl

/-- The walk to the line that is so many lines up. -/
theorem findRecord_up (h : Represents hist history) {wanted : Nat → Bool} {up : Nat}
    (hup : up ≤ history.lines.length)
    (hwanted : ∀ j ≤ history.lines.length, wanted j = decide (history.lines.length - j = up)) :
    hist.findRecord wanted ringHistoryLen hist.first 0
      = .ok (Stores.position hist.ringBuf hist.first history.lines
          (history.lines.length - up)) := by
  have hrounds := h.length_lines_lt
  have hfind := @findRecord_eq _ _ h.length h.stores wanted (history.lines.length - up)
    (Nat.sub_le _ _)
    (fun _ => (hwanted _ (Nat.sub_le _ _)).trans (decide_eq_true (Nat.sub_sub_self hup)))
    (fun j hj => (hwanted j (by omega)).trans (decide_eq_false (by omega)))
    ringHistoryLen 0 (Nat.zero_le _) (by omega)
  rwa [h.stores.position_zero] at hfind

/-- The walk from the first header counts the lines. -/
theorem countRecords_first (h : Represents hist history) :
    hist.countRecords ringHistoryLen hist.first 0 = .ok history.lines.length := by
  have hrounds := h.length_lines_lt
  have hcount := countRecords_eq h.length h.stores ringHistoryLen 0 0 (Nat.zero_le _) (by omega)
  rwa [h.stores.position_zero, Nat.zero_add, Nat.sub_zero] at hcount

/-- A line of the history is shorter than the ring. -/
theorem length_lineAt_lt (h : Represents hist history) (up : Nat) :
    (history.lineAt up).length + 1 < ringHistoryLen := by
  rw [← lineAt_eq history up]
  exact lengthAt_lt h.length h.stores _

/-- Up: the stored line is in the command line, and NULs are behind it. -/
theorem histRestoreLine_up (h : Represents hist history) (line : CString) :
    match history.up with
    | some (text, history') =>
        ∃ hist', hist.histRestoreLine line .up
            = .ok (some text.length, hist',
              text ++ .replicate (commandLineLen - text.length) nul) ∧
          Represents hist' history' ∧ text.length + 1 < ringHistoryLen
    | none => hist.histRestoreLine line .up = .ok (none, hist, line) := by
  have hcur : hist.cur ≤ history.lines.length := h.cur ▸ h.cur_le
  rw [CommandHistory.up, histRestoreLine, countRecords_first h, ok_bind, ← h.cur]
  simp only [if_pos hcur]
  -- There is an older line: it is found, and copied in front of NULs.
  by_cases hlt : hist.cur < history.lines.length
  · rw [if_pos hlt]
    have hfind := @findRecord_up _ _ h
      (fun j => decide ((history.lines.length : Int) - j - 1 = hist.cur)) _ hlt
      (fun j hj => decide_eq_decide.mpr (by omega))
    have hindex : history.lines.length - (hist.cur + 1) < history.lines.length := by omega
    have hcopy := @copyRecord_eq _ _ h.length h.stores _ hindex.le (.replicate commandLineLen nul)
      List.length_replicate
    rw [lineAt_eq history, List.drop_replicate] at hcopy
    have hhead := lengthAt_eq h.length h.stores hindex.le
    have hlength : Stores.lengthAt history.lines (history.lines.length - (hist.cur + 1))
        = (history.lineAt (hist.cur + 1)).length := congrArg List.length (lineAt_eq history _)
    have hne : Stores.lengthAt history.lines (history.lines.length - (hist.cur + 1)) ≠ 0 :=
      mt (lengthAt_eq_zero_iff h.stores).mp (Nat.not_le_of_lt hindex)
    refine ⟨{ hist with cur := hist.cur + 1 }, ?_, ⟨h.length, h.stores, rfl, hlt⟩,
      length_lineAt_lt h _⟩
    rw [hfind, ok_bind, hhead, ok_bind, if_pos hne, hcopy, hlength]
    rfl
  -- The oldest line was restored already. No record is wanted, and the walk ends behind the last
  -- one.
  · rw [if_neg hlt]
    have hfull : hist.cur = history.lines.length := by omega
    have hfind := @findRecord_eq _ _ h.length h.stores
      (fun j => decide ((history.lines.length : Int) - j - 1 = hist.cur)) _ (Nat.le_refl _)
      (fun h => absurd h (Nat.lt_irrefl _)) (fun j hj => decide_eq_false (by omega))
      ringHistoryLen 0 (Nat.zero_le _) (by rw [Nat.zero_add]; exact h.length_lines_lt)
    rw [h.stores.position_zero] at hfind
    have hzero := (lengthAt_eq_zero_iff h.stores).mpr (Nat.le_refl history.lines.length)
    rw [hfind, ok_bind, lengthAt_eq h.length h.stores (Nat.le_refl _), ok_bind,
      if_neg (not_not.mpr hzero)]
    rfl

/-- Down: the stored line, or the empty line, is in front of what the command line had. -/
theorem histRestoreLine_down (h : Represents hist history) {line : CString}
    (hline : line.length = commandLineLen) :
    ∃ hist', hist.histRestoreLine line .down
        = .ok (some history.down.1.length, hist',
          history.down.1 ++ line.drop history.down.1.length) ∧
      Represents hist' history.down.2 ∧ history.down.1.length + 1 < ringHistoryLen := by
  have hcur : hist.cur ≤ history.lines.length := h.cur ▸ h.cur_le
  rw [CommandHistory.down, histRestoreLine, countRecords_first h, ok_bind, ← h.cur]
  -- The line below is restored, which is the empty one when `cur` becomes 0.
  by_cases hpos : 0 < hist.cur
  · simp only [if_pos hpos]
    have hup : hist.cur - 1 ≤ history.lines.length := by omega
    have hfind := @findRecord_up { hist with cur := hist.cur - 1 }
      { history with cur := hist.cur - 1 } ⟨h.length, h.stores, rfl, hup⟩
      (fun j => decide ((history.lines.length : Int) - j = (hist.cur - 1 : Nat))) _ hup
      (fun j hj => decide_eq_decide.mpr (by
        have hj' : j ≤ history.lines.length := hj
        show (history.lines.length : Int) - j = _ ↔ history.lines.length - j = _
        omega))
    have hindex := Nat.sub_le history.lines.length (hist.cur - 1)
    have hcopy := @copyRecord_eq { hist with cur := hist.cur - 1 } _ h.length h.stores _ hindex _
      hline
    rw [lineAt_eq history] at hcopy
    have hhead := @lengthAt_eq { hist with cur := hist.cur - 1 } _ h.length h.stores _ hindex
    have hlength : Stores.lengthAt history.lines (history.lines.length - (hist.cur - 1))
        = (history.lineAt (hist.cur - 1)).length := congrArg List.length (lineAt_eq history _)
    refine ⟨{ hist with cur := hist.cur - 1 }, ?_, ⟨h.length, h.stores, rfl, hup⟩,
      length_lineAt_lt h _⟩
    rw [hfind, ok_bind]
    simp only
    rw [hcopy, ok_bind, hhead, hlength]
    rfl
  -- Below the newest line there is nothing, and `cur` stays 0.
  · have hzero : hist.cur = 0 := by omega
    simp only [if_neg hpos]
    have hline : history.lineAt (hist.cur - 1) = [] := by
      rw [hzero]
      rfl
    rw [hline]
    refine ⟨hist, rfl, ⟨h.length, h.stores, ?_, ?_⟩, by decide⟩
    · show hist.cur = hist.cur - 1
      omega
    · show hist.cur - 1 ≤ _
      omega

/-- The empty ring holds the empty history. -/
theorem represents_start : Represents {} {} :=
  ⟨List.length_replicate, Stores.nil (by decide) (by decide), rfl, Nat.le_refl 0⟩

/-! ### Runs -/

/-- A call of a function of the history, with the command line. -/
inductive Call
  | histSaveLine (line : CString) (len : Nat)
  | histRestoreLine (line : CString) (dir : HistDirection)

/-- What the line editor calls with: a line that is not empty, and a whole command line. -/
def Call.Valid : Call → Prop
  | .histSaveLine line len => 0 < len ∧ len ≤ line.length
  | .histRestoreLine line _ => line.length = commandLineLen

/-- The calls as programs of the ring buffer. -/
def exec : Call → StateT RingHistory (Except MicrorlFault) PUnit
  | .histSaveLine line len => fun hist => do return (⟨⟩, ← hist.histSaveLine line len)
  | .histRestoreLine line dir => fun hist => do
      let (_, hist, _) ← hist.histRestoreLine line dir
      return (⟨⟩, hist)

/-- What a call does to the history. -/
def Call.apply (history : CommandHistory) : Call → CommandHistory
  | .histSaveLine line len => history.save (line.take len)
  | .histRestoreLine _ .up => (history.up.map (·.2)).getD history
  | .histRestoreLine _ .down => history.down.2

/-- The line of a call, if it is short enough for the buffer. -/
def Call.stored : Call → Option CString
  | .histSaveLine line len =>
      if len ≤ ringHistoryLen - 2 then some (line.take len) else none
  | .histRestoreLine _ _ => none

/-- A valid call never faults, and the ring holds the history behind it. -/
theorem Represents.exec (h : Represents hist history) {call : Call} (hvalid : call.Valid) :
    ∃ hist', (RingHistory.exec call).run hist = .ok (⟨⟩, hist') ∧
      Represents hist' (call.apply history) := by
  cases call with
  -- A line of the length that the editor gives is saved.
  | histSaveLine line len =>
      obtain ⟨hpos, hle⟩ := hvalid
      have hlen : (line.take len).length = len := by rw [List.length_take, Nat.min_eq_left hle]
      have hslice : slice line 0 (line.take len).length = some (line.take len) := by
        rw [slice, hlen, if_pos (by omega)]
        rfl
      obtain ⟨hist', hsave, hrep⟩ := histSaveLine_eq h hslice (by
        rw [← List.length_pos_iff, hlen]
        exact hpos)
      rw [hlen] at hsave
      refine ⟨hist', ?_, hrep⟩
      show (do return (PUnit.unit, ← hist.histSaveLine line len)) = _
      rw [hsave]
      rfl
  -- A restored line changes only the position.
  | histRestoreLine line dir =>
      show ∃ hist', (do
        let (_, hist, _) ← hist.histRestoreLine line dir
        return (PUnit.unit, hist)) = Except.ok (PUnit.unit, hist') ∧ _
      cases dir with
      | up =>
          have hup := histRestoreLine_up h line
          rw [Call.apply]
          cases hline : history.up with
          | none =>
              rw [hline] at hup
              exact ⟨hist, by rw [hup]; rfl, h⟩
          | some up =>
              rw [hline] at hup
              obtain ⟨hist', hrestore, hrep, -⟩ := hup
              exact ⟨hist', by rw [hrestore]; rfl, hrep⟩
      | down =>
          obtain ⟨hist', hrestore, hrep, -⟩ := histRestoreLine_down h hvalid
          exact ⟨hist', by rw [hrestore]; rfl, hrep⟩

/-- The newest lines that fit, of the old ones and a new one. -/
theorem lines_save {saved : List CString} {line : CString}
    (h : history.lines = newest lineWeight (ringHistoryLen - 1) saved) :
    (history.save line).lines = newest lineWeight (ringHistoryLen - 1)
      (saved ++ if line.length ≤ ringHistoryLen - 2 then [line] else []) := by
  rw [CommandHistory.save]
  by_cases hshort : line.length ≤ ringHistoryLen - 2
  · have hweight : lineWeight line ≤ ringHistoryLen - 1 := by
      rw [lineWeight]
      simp only [ringHistoryLen] at hshort ⊢
      omega
    rw [if_neg (by omega), if_pos hshort, newest_append_singleton hweight,
      newest_append_singleton hweight, h, newest_newest (Nat.sub_le _ _)]
  · rw [if_pos (by omega), if_neg hshort, List.append_nil, h]

/-- A call leaves the newest of the lines that were stored so far. -/
theorem lines_apply (saved : List CString) (call : Call)
    (h : history.lines = newest lineWeight (ringHistoryLen - 1) saved) (hvalid : call.Valid) :
    (call.apply history).lines
      = newest lineWeight (ringHistoryLen - 1) (saved ++ call.stored.toList) := by
  cases call with
  | histSaveLine line len =>
      have hlen : (line.take len).length = len := by
        rw [List.length_take, Nat.min_eq_left hvalid.2]
      rw [Call.apply, lines_save h, hlen, Call.stored]
      split <;> rfl
  | histRestoreLine line dir =>
      rw [Call.stored, Option.toList_none, List.append_nil, ← h]
      cases dir with
      | up =>
          rw [Call.apply, CommandHistory.up]
          split <;> rfl
      | down => rfl

/-- The calls of a run do to the ring what they do to the history. -/
theorem Represents.execs {calls : List Call} :
    ∀ {hist : RingHistory} {history : CommandHistory}, Represents hist history →
      (∀ call ∈ calls, call.Valid) → ∃ hist', (forM calls RingHistory.exec).run hist
        = .ok (⟨⟩, hist') ∧ Represents hist' (calls.foldl Call.apply history) := by
  induction calls with
  | nil => exact fun {hist _} h _ => ⟨hist, rfl, h⟩
  | cons call calls ih =>
      intro hist history h hvalid
      obtain ⟨hcall, hcalls⟩ := List.forall_mem_cons.mp hvalid
      obtain ⟨next, hexec, hnext⟩ := h.exec hcall
      obtain ⟨hist', hrun, h'⟩ := ih hnext hcalls
      exact ⟨hist', (run_forM_cons RingHistory.exec).mpr ⟨next, hexec, hrun⟩, h'⟩

/-- The calls of a run leave the newest of the lines that were stored so far. -/
theorem lines_foldl_apply {calls : List Call} :
    ∀ {history : CommandHistory} {saved : List CString}, (∀ call ∈ calls, call.Valid) →
      history.lines = newest lineWeight (ringHistoryLen - 1) saved →
        (calls.foldl Call.apply history).lines
          = newest lineWeight (ringHistoryLen - 1) (saved ++ calls.filterMap Call.stored) := by
  induction calls with
  | nil =>
      intro history saved _ hlines
      rw [List.filterMap_nil, List.append_nil]
      exact hlines
  | cons call calls ih =>
      intro history saved hvalid hlines
      obtain ⟨hcall, hcalls⟩ := List.forall_mem_cons.mp hvalid
      rw [List.foldl_cons, ih hcalls (lines_apply saved call hlines hcall), List.append_assoc]
      cases hstored : call.stored with
      | none => rw [List.filterMap_cons_none hstored]; rfl
      | some text => rw [List.filterMap_cons_some hstored]; rfl

/-- Any calls of the history functions come to their end without an access outside of an array. The
buffer and its position then are the history that the calls make, one after the other, and its lines
are the newest of the saved lines that fit. The next restored line is the one above the last one, or
the one below it, and NULs or the old command line are behind it. The position moves with it. -/
theorem history_run (calls : List Call) (hvalid : ∀ call ∈ calls, call.Valid) :
    let history := calls.foldl Call.apply {}
    ∃ hist, (forM calls exec).run {} = .ok (⟨⟩, hist) ∧ Represents hist history ∧
      history.lines = newest lineWeight (ringHistoryLen - 1) (calls.filterMap Call.stored) ∧
      ∀ line : CString, line.length = commandLineLen →
        (match history.up with
        | some (text, next) => ∃ hist', hist.histRestoreLine line .up
            = .ok (some text.length, hist', text ++ .replicate (commandLineLen - text.length) nul) ∧
            Represents hist' next
        | none => hist.histRestoreLine line .up = .ok (none, hist, line)) ∧
        ∃ hist', hist.histRestoreLine line .down = .ok (some history.down.1.length, hist',
            history.down.1 ++ line.drop history.down.1.length) ∧
          Represents hist' history.down.2 := by
  intro history
  obtain ⟨hist, hrun, hrep⟩ := represents_start.execs hvalid
  have hlines := @lines_foldl_apply calls {} [] hvalid rfl
  -- `Represents` is kept along the calls, and the two directions start from its last state.
  refine ⟨hist, hrun, hrep, hlines, fun line hline => ⟨?_, ?_⟩⟩
  · have hup := histRestoreLine_up hrep line
    cases hnext : history.up with
    | none => rwa [hnext] at hup
    | some next =>
        rw [hnext] at hup
        obtain ⟨hist', hrestore, hrep', -⟩ := hup
        exact ⟨hist', hrestore, hrep'⟩
  · obtain ⟨hist', hrestore, hrep', -⟩ := histRestoreLine_down hrep hline
    exact ⟨hist', hrestore, hrep'⟩

/-- Two commands are stored, and the user goes up to the older one. -/
def helpCalls : List Call :=
  [.histSaveLine ("help".toList ++ .replicate 97 nul) 4,
    .histSaveLine ("version".toList ++ .replicate 94 nul) 7,
    .histRestoreLine (.replicate commandLineLen nul) .up,
    .histRestoreLine (.replicate commandLineLen nul) .up]

/-- Two saves and two restores go to the older of the two lines. -/
theorem history_run_helpCalls : ∃ hist, (forM helpCalls exec).run {} = .ok (⟨⟩, hist) ∧
    Represents hist { lines := ["help".toList, "version".toList], cur := 2 } := by
  have hvalid : ∀ call ∈ helpCalls, call.Valid :=
    List.forall_mem_cons.mpr ⟨⟨by decide, by decide⟩,
      List.forall_mem_cons.mpr ⟨⟨by decide, by decide⟩,
        List.forall_mem_cons.mpr ⟨List.length_replicate,
          List.forall_mem_singleton.mpr List.length_replicate⟩⟩⟩
  obtain ⟨hist, hrun, hrep, -⟩ := history_run helpCalls hvalid
  have hhistory : helpCalls.foldl Call.apply {}
      = { lines := ["help".toList, "version".toList], cur := 2 } := by decide
  exact ⟨hist, hrun, hhistory ▸ hrep⟩

end RingHistory

end C6021Light
