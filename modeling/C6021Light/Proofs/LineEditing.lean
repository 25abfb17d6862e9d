import C6021Light.Lib.LockStep
import C6021Light.Proofs.CommandTokens

/-!
# `C6021Light.Proofs.LineEditing`: the line editor implements its abstract model

`Represents` relates the arrays of `Microrl` to a `LineEditor`. The command line has the text in
front of the cursor, the text behind it, the killed text and a NUL. What is behind that NUL does not
matter.

Each function has one lemma: it does to the arrays what the abstract editor does to its line, or it
has the same fault (`Lib.LockStep`). `microrlInsertChar_agree` is the step for any key, and
`insertChars_agree` the run for any keys.
-/

set_option autoImplicit false

namespace C6021Light

open CheckedArray LockStep Words

/-! ### The relation -/

/-- An array with a line in it, and the text behind the line up to a NUL. -/
structure HoldsLine (cmdline before after killed : CString) : Prop where
  length : cmdline.length = commandLineLen
  cells : ∃ junk, cmdline = before ++ after ++ (killed ++ nul :: junk)
  killed : Solid isBlank killed

namespace HoldsLine

variable {cmdline before after killed rest : CString}

/-- What is behind the line. It counts up to the first NUL. -/
theorem exists_rest (h : HoldsLine cmdline before after killed) :
    ∃ rest, cmdline = before ++ after ++ rest ∧ nul ∈ rest ∧
      rest.takeWhile (!isBlank ·) = killed := by
  obtain ⟨junk, hcells⟩ := h.cells
  refine ⟨killed ++ nul :: junk, hcells, List.mem_append_right _ List.mem_cons_self, ?_⟩
  rw [List.takeWhile_append_of_pos fun c hc => by rw [h.killed c hc]; rfl]
  exact List.append_nil killed

/-- Any rest with a NUL in it will do: its solid start is the killed text. -/
theorem of_rest (hlength : cmdline.length = commandLineLen)
    (hcells : cmdline = before ++ after ++ rest) (hnul : nul ∈ rest) :
    HoldsLine cmdline before after (rest.takeWhile (!isBlank ·)) := by
  have hsolid : Solid isBlank (rest.takeWhile (!isBlank ·)) := fun c hc =>
    Bool.not_eq_true' _ ▸ List.all_eq_true.mp List.all_takeWhile c hc
  have hrest := List.takeWhile_append_dropWhile (p := (!isBlank ·)) (l := rest)
  have hhead := List.head?_dropWhile_not (!isBlank ·) rest
  refine ⟨hlength, ?_, hsolid⟩
  cases hdrop : rest.dropWhile (!isBlank ·) with
  | nil =>
      -- There is a NUL, so something is left.
      rw [hdrop, List.append_nil] at hrest
      rw [← hrest] at hnul
      cases hsolid nul hnul
  | cons c junk =>
      rw [hdrop] at hhead hrest
      obtain rfl : c = nul := of_decide_eq_true (Bool.not_eq_false' _ ▸ hhead)
      exact ⟨junk, by rw [hrest, hcells]⟩

/-- A NUL ends the text in front of it. -/
theorem takeWhile_append_nul (text junk : CString) :
    (text ++ nul :: junk).takeWhile (!isBlank ·) = text.takeWhile (!isBlank ·) := by
  have hnul : (nul :: junk).takeWhile (!isBlank ·) = [] := List.takeWhile_cons_of_neg (by decide)
  rw [List.takeWhile_append, hnul, List.append_nil]
  split
  · rename_i hall
    exact (List.IsPrefix.eq_of_length (List.takeWhile_prefix _) hall).symm
  · rfl

/-- A NUL behind the first character ends the killed text there. -/
theorem takeWhile_take_one (d : Char) (rest : CString) :
    (d :: nul :: rest).takeWhile (!isBlank ·) = ((d :: rest).takeWhile (!isBlank ·)).take 1 := by
  by_cases hd : d = nul
  · subst hd
    rfl
  · have hblank : (!isBlank d) = true := by rw [isBlank, decide_eq_false hd]; rfl
    have hnul : (!isBlank nul) = false := rfl
    simp only [List.takeWhile_cons, hblank, hnul, if_true, Bool.false_eq_true, if_false,
      List.take_succ_cons, List.take_zero]

/-- The text behind the cursor moves over the character in front of it. A character from behind the
line moves with it. -/
theorem backspace {c : Char} (h : HoldsLine cmdline (before ++ [c]) after killed) :
    ∃ moved cmdline', memmove cmdline before.length (before.length + 1) (after.length + 1)
        = some moved ∧
      put moved (before.length + 1 + after.length) nul = some cmdline' ∧
      HoldsLine cmdline' before after (killed.take 1) := by
  -- One cell behind the line moves as well: a NUL, or a character that was cut off before.
  obtain ⟨rest, hcells, hnul, rfl⟩ := h.exists_rest
  obtain ⟨d, rest, rfl⟩ := List.exists_cons_of_ne_nil (List.ne_nil_of_mem hnul)
  have hslice := slice_append (before ++ [c]) (after ++ [d]) rest
  have hlen : (after ++ [d]).length = (c :: after).length := List.length_append
  have hwrite := overwrite_append before (d :: rest) hlen
  have hput := put_append (before ++ (after ++ [d])) rest d nul
  have hpiece : before ++ [c] ++ after ++ d :: rest = before ++ [c] ++ (after ++ [d]) ++ rest := by
    simp only [List.append_assoc, List.cons_append, List.nil_append]
  have hold : before ++ [c] ++ after ++ d :: rest = before ++ c :: after ++ d :: rest := by
    simp only [List.append_assoc, List.cons_append, List.nil_append]
  have hmark : (before ++ (after ++ [d])).length = before.length + 1 + after.length := by
    simp only [List.length_append, List.length_cons, List.length_nil]
    omega
  rw [List.length_append, List.length_append, List.length_singleton, List.length_singleton,
    ← hpiece, ← hcells] at hslice
  rw [← hold, ← hcells] at hwrite
  rw [hmark] at hput
  have hlength := h.length
  rw [hcells] at hlength
  refine ⟨_, _, memmove_eq_some.mpr ⟨_, hslice, hwrite⟩, hput, ?_⟩
  rw [← takeWhile_take_one d rest]
  refine of_rest ?_ ?_ (List.mem_cons_of_mem d List.mem_cons_self)
  · rw [← hlength]
    simp only [List.length_append, List.length_cons, List.length_nil]
    omega
  · simp only [List.append_assoc, List.cons_append, List.nil_append]

/-- The text behind the cursor moves, and characters go in front of it. Shorter text in front of the
cursor loses its end. -/
theorem insertText {len : Int} {chars : CString} (h : HoldsLine cmdline before after killed)
    (hchars : chars.length = len.toNat) (hcursor : 0 ≤ before.length + len)
    (hfit : before.length + after.length + len < commandLineLen) :
    ∃ moved written cmdline',
      memmove cmdline (before.length + len).toNat before.length after.length = some moved ∧
      overwrite moved before.length chars = some written ∧
      put written (before.length + after.length + len).toNat nul = some cmdline' ∧
      HoldsLine cmdline' (before.take (before.length + len).toNat ++ chars) after [] := by
  obtain ⟨junk, hcells⟩ := h.cells
  have hlength := h.length
  obtain ⟨front, old, c, rest, hpieces, hfront, hold⟩ :=
    exists_pieces (show (before.length + len).toNat + after.length < cmdline.length by omega)
  have hslice := slice_append before after (killed ++ nul :: junk)
  have hmove := overwrite_append front (c :: rest) hold.symm
  rw [← hcells] at hslice
  rw [← hpieces, hfront] at hmove
  have hbefore : before <+: cmdline := ⟨after ++ (killed ++ nul :: junk), by
    rw [hcells, List.append_assoc]⟩
  have hbegin : front <+: cmdline := ⟨old ++ c :: rest, by rw [hpieces, List.append_assoc]⟩
  have hmoved := memmove_eq_some.mpr ⟨after, hslice, hmove⟩
  have hsum : cmdline.length = front.length + after.length + (rest.length + 1) := by
    rw [hpieces, List.length_append, List.length_append, hold, List.length_cons]
  rcases le_or_gt 0 len with hlen | hlen
  · -- There is a gap between the text in front of the cursor and the text behind it.
    obtain ⟨gap, rfl⟩ := List.prefix_of_prefix_length_le hbefore hbegin (by omega)
    rw [List.length_append] at hfront hsum
    have hgap : chars.length = gap.length := by omega
    have hwrite := overwrite_append before (after ++ c :: rest) hgap
    have hput := put_append (before ++ chars ++ after) rest c nul
    have hmark : (before ++ chars ++ after).length
        = (before.length + after.length + len).toNat := by
      rw [List.length_append, List.length_append]
      omega
    rw [← List.append_assoc, ← List.append_assoc] at hwrite
    rw [hmark] at hput
    rw [List.take_of_length_le (by omega)]
    refine ⟨_, _, _, hmoved, hwrite, hput, ?_, ⟨rest, rfl⟩, nofun⟩
    rw [List.length_append, hmark, List.length_cons]
    omega
  · obtain rfl : chars = [] := List.eq_nil_of_length_eq_zero (by omega)
    obtain ⟨dropped, hdropped⟩ := List.prefix_of_prefix_length_le hbegin hbefore (by omega)
    have hle := hbefore.length_le
    have hsame := @overwrite_nil _ (front ++ after ++ c :: rest) before.length (by
      rw [List.length_append, List.length_append, List.length_cons]
      omega)
    have hput := put_append (front ++ after) rest c nul
    have hmark : (front ++ after).length = (before.length + after.length + len).toNat := by
      rw [List.length_append]
      omega
    rw [hmark] at hput
    have htake : before.take (before.length + len).toNat = front := by
      rw [← hfront, ← hdropped, List.take_left]
    rw [htake, List.append_nil]
    refine ⟨_, _, _, hmoved, hsame, hput, ?_, ⟨rest, rfl⟩, nofun⟩
    rw [List.length_append, List.length_append, List.length_cons]
    omega

/-- The line is cut at the cursor. What was behind it is killed up to the next blank. -/
theorem kill (h : HoldsLine cmdline before after killed) :
    HoldsLine cmdline before [] ((after ++ killed).takeWhile (!isBlank ·)) := by
  obtain ⟨junk, hcells⟩ := h.cells
  rw [← takeWhile_append_nul (after ++ killed) junk]
  refine of_rest h.length ?_ (List.mem_append_right _ List.mem_cons_self)
  rw [hcells, List.append_nil]
  simp only [List.append_assoc]

/-- A text with a NUL behind it. -/
theorem set {text rest : CString} (hlength : (text ++ rest).length = commandLineLen)
    (hlt : text.length < commandLineLen) :
    ∃ cmdline', put (text ++ rest) text.length nul = some cmdline' ∧
      HoldsLine cmdline' text [] [] := by
  obtain ⟨c, rest, rfl⟩ : ∃ c rest', rest = c :: rest' := by
    refine List.exists_cons_of_ne_nil fun hnil => ?_
    rw [hnil, List.append_nil] at hlength
    omega
  rw [List.length_append] at hlength
  refine ⟨_, put_append text rest c nul, ?_, ⟨rest, by rw [List.append_nil]; rfl⟩, nofun⟩
  rw [List.length_append]
  exact hlength

end HoldsLine

namespace Microrl

/-- The C editor holds the state of the line editor: the same calls and callbacks, its history in
the ring, and its line in the buffer. -/
structure Represents (microrl : Microrl) (editor : LineEditor) : Prop where
  escapeSeq : microrl.escapeSeq = editor.escapeSeq
  escape : microrl.escape = editor.escape
  promptStr : microrl.promptStr = promptDefault
  execute : microrl.execute = editor.execute
  getCompletion : microrl.getCompletion = editor.getCompletion
  calls : microrl.calls = editor.calls
  history : microrl.ringHist.Represents editor.history
  cmdline : HoldsLine microrl.cmdline editor.before editor.after editor.killed
  cmdlen : microrl.cmdlen = editor.line.length
  cursor : microrl.cursor = editor.before.length

variable {microrl : Microrl} {editor : LineEditor}

/-- The text behind the cursor is not longer than the line. -/
theorem Represents.length_after (h : microrl.Represents editor) :
    microrl.cmdlen - microrl.cursor = editor.after.length := by
  rw [h.cmdlen, h.cursor, LineEditor.line, List.length_append, Nat.add_sub_cancel_left]

/-- There is room for a NUL behind the line. -/
theorem Represents.length_line_lt (h : microrl.Represents editor) :
    editor.line.length < commandLineLen := by
  obtain ⟨junk, hcells⟩ := h.cmdline.cells
  have hlength := h.cmdline.length
  rw [hcells] at hlength
  simp only [List.length_append, List.length_cons] at hlength
  rw [LineEditor.line, List.length_append]
  omega

/-- The line is another one. -/
theorem Represents.edit (h : microrl.Represents editor)
    {cmdline before after killed : CString} {cmdlen cursor : Nat}
    (hline : HoldsLine cmdline before after killed)
    (hcmdlen : cmdlen = before.length + after.length) (hcursor : cursor = before.length) :
    Represents { microrl with cmdline := cmdline, cmdlen := cmdlen, cursor := cursor }
      { editor with before := before, after := after, killed := killed } where
  escapeSeq := h.escapeSeq
  escape := h.escape
  promptStr := h.promptStr
  execute := h.execute
  getCompletion := h.getCompletion
  calls := h.calls
  history := h.history
  cmdline := hline
  cmdlen := hcmdlen.trans List.length_append.symm
  cursor := hcursor

/-- The length of the line is that of its two parts. -/
theorem Represents.cmdlen_eq (h : microrl.Represents editor) :
    microrl.cmdlen = editor.before.length + editor.after.length :=
  h.cmdlen.trans List.length_append

/-! ### Calls -/

/-- Calls are recorded on both sides. -/
theorem Represents.call (h : microrl.Represents editor) (calls : List MicrorlCall) :
    Represents { microrl with calls := microrl.calls ++ calls } (editor.call calls) :=
  { h with calls := congrArg (· ++ calls) h.calls }

/-- A printed text is recorded on both sides. -/
theorem Represents.print (h : microrl.Represents editor) (text : CString) :
    (microrl.print text).Represents (editor.print text) := h.call _

/-- Characters printed one by one are one call each. -/
theorem foldl_print (text : CString) :
    ∀ microrl : Microrl, text.foldl (fun microrl c => microrl.print [shown c]) microrl
      = { microrl with calls := microrl.calls ++ text.map fun c => .print [shown c] } := by
  induction text with
  | nil =>
      intro microrl
      rw [List.map_nil, List.append_nil]
      rfl
  | cons c text ih =>
      intro microrl
      rw [List.foldl_cons, ih, List.map_cons]
      simp only [Microrl.print, List.append_assoc, List.singleton_append]

/-- The line is drawn from a position on. -/
theorem terminalPrintLine_eq (h : microrl.Represents editor) {pos : Nat}
    (hpos : pos ≤ editor.line.length) :
    ∃ microrl', microrl.terminalPrintLine pos microrl.cursor = .ok microrl' ∧
      microrl'.Represents (editor.draw pos) := by
  obtain ⟨junk, hcells⟩ := h.cmdline.cells
  have htext : (microrl.print eraseText).lineFrom pos = .ok (editor.line.drop pos) := by
    rw [lineFrom]
    show (if pos < microrl.cmdlen then _ else _) = _
    rw [h.cmdlen]
    split
    · have hslice := slice_append (editor.line.take pos) (editor.line.drop pos)
        (editor.killed ++ nul :: junk)
      rw [List.take_append_drop, List.length_take, Nat.min_eq_left hpos, List.length_drop] at hslice
      show access (slice microrl.cmdline pos (microrl.cmdlen - pos)) = _
      rw [hcells, h.cmdlen]
      exact congrArg access hslice
    · rw [List.drop_eq_nil_of_le (by omega)]
  refine ⟨_, ?_, h.call (LineEditor.drawCalls (editor.line.drop pos) editor.before.length)⟩
  rw [terminalPrintLine, htext, ok_bind, foldl_print]
  simp only [terminalResetCursor, terminalMoveCursor, Microrl.print, LineEditor.drawCalls, h.cursor,
    List.append_assoc, List.cons_append, List.nil_append]
  rfl

/-- Both editors draw the line from a position inside of it. -/
theorem Represents.draw (h : microrl.Represents editor) {pos : Nat}
    (hpos : pos ≤ editor.line.length) :
    Agree Represents (microrl.terminalPrintLine pos microrl.cursor) (.ok (editor.draw pos)) := by
  obtain ⟨microrl', hdraw, h'⟩ := terminalPrintLine_eq h hpos
  rw [hdraw]
  exact .ok h'

/-! ### Cursor -/

/-- The cursor moves within the line. -/
theorem Represents.moveCursor (h : microrl.Represents editor) (calls : List MicrorlCall)
    {before after : CString} {cursor : Nat} (hline : before ++ after = editor.line)
    (hcursor : cursor = before.length) :
    Represents { microrl with cursor := cursor, calls := microrl.calls ++ calls }
      { editor.call calls with before := before, after := after } := by
  obtain ⟨junk, hcells⟩ := h.cmdline.cells
  refine (h.call calls).edit ⟨h.cmdline.length, ⟨junk, ?_⟩, h.cmdline.killed⟩ ?_ hcursor
  · rw [hline]
    exact hcells
  · rw [← List.length_append, hline]
    exact h.cmdlen

/-- Both editors move to the right. -/
theorem Represents.moveRight (h : microrl.Represents editor) :
    microrl.moveRight.Represents editor.moveRight := by
  have hlen := h.length_after
  rw [Microrl.moveRight, LineEditor.moveRight]
  cases hafter : editor.after with
  | nil =>
      rw [hafter, List.length_nil] at hlen
      rw [if_neg (by omega)]
      exact h
  | cons c after =>
      rw [hafter, List.length_cons] at hlen
      rw [if_pos (by omega)]
      refine h.moveCursor [.print (moveText 1)] ?_ ?_
      · rw [List.append_assoc, LineEditor.line, hafter]
        rfl
      · rw [h.cursor, List.length_append]
        rfl

/-- Both editors move to the left. -/
theorem Represents.moveLeft (h : microrl.Represents editor) :
    microrl.moveLeft.Represents editor.moveLeft := by
  rw [Microrl.moveLeft, LineEditor.moveLeft, h.cursor]
  rcases editor.before.eq_nil_or_concat with hnil | ⟨before, c, hbefore⟩
  · rw [hnil]
    exact h
  · rw [List.concat_eq_append] at hbefore
    rw [hbefore, List.getLast?_concat, List.length_append, List.length_singleton,
      if_pos (Nat.succ_pos _), List.dropLast_concat]
    refine h.moveCursor [.print (moveText (-1))] ?_ (Nat.add_sub_cancel _ _)
    rw [LineEditor.line, hbefore, List.append_assoc]
    rfl

/-- Both editors go to the start of the line. -/
theorem Represents.moveHome (h : microrl.Represents editor) :
    microrl.moveHome.Represents editor.moveHome :=
  h.moveCursor [.print resetText] (List.nil_append _) rfl

/-- Both editors go to the end of the line. -/
theorem Represents.moveEnd (h : microrl.Represents editor) :
    microrl.moveEnd.Represents editor.moveEnd := by
  have hoffset : (microrl.cmdlen : Int) - microrl.cursor = editor.after.length := by
    rw [h.cmdlen_eq, h.cursor]
    omega
  rw [Microrl.moveEnd, LineEditor.moveEnd, hoffset]
  exact h.moveCursor [.print (moveText editor.after.length)] (List.append_nil _) h.cmdlen

/-! ### Editing -/

/-- A backspace never faults, and both editors take the same character away. -/
theorem Represents.backspace (h : microrl.Represents editor) :
    ∃ microrl', microrl.microrlBackspace = .ok microrl' ∧
      microrl'.Represents editor.backspace := by
  rw [microrlBackspace, LineEditor.backspace]
  -- In front of the first character a backspace does nothing.
  rcases editor.before.eq_nil_or_concat with hnil | ⟨before, c, hbefore⟩
  · have hcursor : ¬ 0 < microrl.cursor := by
      rw [h.cursor, hnil]
      exact Nat.lt_irrefl 0
    rw [if_neg hcursor, if_pos hnil]
    exact ⟨microrl, rfl, h⟩
  · rw [List.concat_eq_append] at hbefore
    have hcursor : microrl.cursor = before.length + 1 := by
      rw [h.cursor, hbefore, List.length_append, List.length_singleton]
    have hcmdlen : microrl.cmdlen = before.length + 1 + editor.after.length := by
      rw [h.cmdlen_eq, ← h.cursor, hcursor]
    obtain ⟨moved, cmdline, hmove, hput, hline⟩ := (hbefore ▸ h.cmdline).backspace
    rw [if_pos (hcursor ▸ Nat.succ_pos _), if_neg (by rw [hbefore]; simp), hbefore,
      List.dropLast_concat]
    have hcmdlen' : microrl.cmdlen - 1 = before.length + editor.after.length := by omega
    have hcursor' : microrl.cursor - 1 = before.length := by omega
    refine ⟨_, ?_, (h.call [.print backspaceText]).edit hline hcmdlen' hcursor'⟩
    have hmove' : memmove microrl.cmdline (microrl.cursor - 1) microrl.cursor
        (microrl.cmdlen - microrl.cursor + 1) = some moved := by
      rw [hcmdlen, hcursor, Nat.add_sub_cancel, Nat.add_sub_cancel_left]
      exact hmove
    have hput' : put moved microrl.cmdlen nul = some cmdline := hcmdlen ▸ hput
    simp only [terminalBackspace, Microrl.print, hmove', hput', access_some, ok_bind]
    rfl

/-- As many characters go as there are in front of the cursor. -/
theorem backspaceWhile_eq : ∀ {rounds : Nat} {microrl : Microrl} {editor : LineEditor},
    microrl.Represents editor → microrl.cursor < rounds →
    ∃ microrl', backspaceWhile rounds microrl = .ok microrl' ∧
      microrl'.Represents (editor.backspaceAll editor.before.length) := by
  intro rounds
  -- The induction is on the rounds. Each one takes one character away.
  induction rounds with
  | zero => intro microrl editor h hcursor; omega
  | succ rounds ih =>
      intro microrl editor h hcursor
      rw [backspaceWhile, h.cursor]
      cases hlen : editor.before.length with
      | zero => exact ⟨microrl, by rw [if_neg (Nat.lt_irrefl 0)]; rfl, h⟩
      | succ n =>
          obtain ⟨microrl', hback, h'⟩ := h.backspace
          have hbefore : editor.backspace.before.length = n := by
            rw [LineEditor.backspace, if_neg (List.ne_nil_of_length_eq_add_one hlen)]
            show editor.before.dropLast.length = n
            rw [List.length_dropLast, hlen, Nat.add_sub_cancel]
          have hless : microrl'.cursor < rounds := by
            rw [h'.cursor, hbefore]
            rw [h.cursor, hlen] at hcursor
            omega
          obtain ⟨microrl'', hwhile, h''⟩ := ih h' hless
          rw [hbefore] at h''
          exact ⟨microrl'', by rw [if_pos (Nat.succ_pos n), hback, ok_bind, hwhile], h''⟩

/-- The texts agree on what is inserted, or both do not fit, or both fault. -/
theorem Represents.insertText (h : microrl.Represents editor) (text : CString) (len : Int) :
    Agree (fun result next => result.1 = next.1 ∧ result.2.Represents next.2)
      (microrl.microrlInsertText text len) (editor.insertText text len) := by
  have hcmdlen : (microrl.cmdlen : Int) + len = editor.line.length + len := by rw [h.cmdlen]
  have hcursor : (microrl.cursor : Int) + len = editor.before.length + len := by rw [h.cursor]
  rw [microrlInsertText, LineEditor.insertText]
  simp only [hcmdlen, hcursor]
  -- A text that does not fit is not inserted, and that is no fault.
  by_cases hfit : (editor.line.length : Int) + len < commandLineLen
  · simp only [if_pos hfit]
    -- In front of the line the cursor would be negative, which is a fault on both sides.
    by_cases hneg : (editor.before.length : Int) + len < 0
    · simp only [if_pos hneg]
      exact .fault _
    · have hcells (chars : CString) (hchars : chars.length = len.toNat) :=
        h.cmdline.insertText hchars (Int.not_lt.mp hneg)
          (by rwa [LineEditor.line, List.length_append, Int.natCast_add] at hfit)
      have hrange : microrl.cmdlen - editor.before.length = editor.after.length :=
        h.cursor ▸ h.length_after
      simp only [if_neg hneg, h.cursor, hrange]
      -- The source is read behind the text, which is a fault as well.
      cases hslice : slice text 0 len.toNat with
      | none =>
          obtain ⟨moved, -, -, hmove, -⟩ := hcells (.replicate len.toNat nul) List.length_replicate
          rw [hmove]
          exact .fault _
      | some chars =>
          have hchars := length_of_slice hslice
          obtain ⟨moved, written, cmdline, hmove, hwrite, hput, hline⟩ :=
            hcells (chars.map stored) (by rw [List.length_map, hchars])
          have hmark : ((editor.line.length : Int) + len).toNat
              = (editor.before.length + editor.after.length + len).toNat := by
            rw [LineEditor.line, List.length_append, Int.natCast_add]
          simp only [hmove, hwrite, hmark, hput, access_some, ok_bind]
          refine .ok ⟨rfl, h.edit hline ?_ ?_⟩
          · rw [List.length_append, List.length_map, List.length_take, hchars]
            omega
          · rw [List.length_append, List.length_map, List.length_take, hchars]
            omega
  · simp only [if_neg hfit]
    exact .ok ⟨rfl, h⟩

/-- Both editors cut the line at the cursor. -/
theorem Represents.kill (h : microrl.Represents editor) :
    Represents { microrl.print eraseText with cmdlen := microrl.cursor } editor.kill :=
  (h.print eraseText).edit h.cmdline.kill h.cursor h.cursor

/-- Both editors insert a key, or fault on it. -/
theorem Represents.insertKey (h : microrl.Represents editor) (ch : Byte) :
    Agree Represents (microrl.insertKey ch) (editor.insert ch) := by
  have hempty : decide (microrl.cmdlen = 0) = editor.line.isEmpty := by
    rw [h.cmdlen, Bool.eq_iff_iff, decide_eq_true_iff, List.isEmpty_iff, List.length_eq_zero_iff]
  rw [Microrl.insertKey, LineEditor.insert, hempty]
  split
  · exact .ok h
  refine (h.insertText [charOfByte ch] 1).bind ?_
  rintro ⟨inserted, microrl'⟩ ⟨_, editor'⟩ ⟨rfl, h'⟩
  cases inserted with
  | false => exact .ok h'
  | true =>
      have hpos : microrl'.cursor - 1 = editor'.before.length - 1 := by rw [h'.cursor]
      have hle : editor'.before.length - 1 ≤ editor'.line.length := by
        rw [LineEditor.line, List.length_append]
        omega
      show Agree Represents (microrl'.terminalPrintLine (microrl'.cursor - 1) microrl'.cursor)
        (.ok (editor'.draw (editor'.before.length - 1)))
      rw [hpos]
      exact Represents.draw h' hle

/-! ### History -/

/-- The restored line is the command line. -/
theorem Represents.setLine (h : microrl.Represents editor) {text rest : CString}
    {hist : RingHistory} {history : CommandHistory} (hhist : hist.Represents history)
    (hlength : (text ++ rest).length = commandLineLen) (hlt : text.length < commandLineLen) :
    Agree Represents
      (do
        let cmdline ← access (put (text ++ rest) text.length nul)
        let microrl := { microrl with
          ringHist := hist, cmdline := cmdline, cursor := text.length, cmdlen := text.length }
        microrl.terminalResetCursor.terminalPrintLine 0 microrl.cursor)
      (.ok (editor.setLine text history)) := by
  obtain ⟨cmdline, hput, hline⟩ := HoldsLine.set hlength hlt
  have hset : Represents
      { microrl with
        ringHist := hist, cmdline := cmdline, cursor := text.length, cmdlen := text.length }
      { editor with before := text, after := [], killed := [], history := history } :=
    { h with history := hhist, cmdline := hline, cmdlen := by rw [LineEditor.line, List.append_nil],
             cursor := rfl }
  rw [hput, access_some, ok_bind]
  exact (hset.print resetText).draw (Nat.zero_le _)

/-- Both editors take an older line of the history. -/
theorem Represents.historyUp (h : microrl.Represents editor) :
    Agree Represents (microrl.histSearch .up) (.ok editor.historyUp) := by
  have hup := RingHistory.histRestoreLine_up h.history microrl.cmdline
  rw [histSearch, LineEditor.historyUp]
  cases hnext : editor.history.up with
  | none =>
      rw [hnext] at hup
      rw [hup]
      exact .ok h
  | some next =>
      rw [hnext] at hup
      obtain ⟨hist, hrestore, hhist, hlt⟩ := hup
      rw [hrestore]
      refine h.setLine hhist ?_
        (by simp only [ringHistoryLen] at hlt; simp only [commandLineLen]; omega)
      rw [List.length_append, List.length_replicate]
      simp only [ringHistoryLen] at hlt
      simp only [commandLineLen]
      omega

/-- Both editors take a newer line of the history. -/
theorem Represents.historyDown (h : microrl.Represents editor) :
    Agree Represents (microrl.histSearch .down) (.ok editor.historyDown) := by
  obtain ⟨hist, hrestore, hhist, hlt⟩ :=
    RingHistory.histRestoreLine_down h.history h.cmdline.length
  rw [histSearch, hrestore]
  refine h.setLine hhist ?_
    (by simp only [ringHistoryLen] at hlt; simp only [commandLineLen]; omega)
  rw [List.length_append, List.length_drop, h.cmdline.length]
  simp only [ringHistoryLen] at hlt
  simp only [commandLineLen]
  omega

/-! ### Lines -/

/-- Saving never faults, and only a line that is not empty goes into the history. -/
theorem Represents.saveLine (h : microrl.Represents editor) :
    ∃ hist, microrl.saveLine = .ok hist ∧ hist.Represents
      (if editor.line = [] then editor.history else editor.history.save editor.line) := by
  obtain ⟨junk, hcells⟩ := h.cmdline.cells
  rw [Microrl.saveLine, h.cmdlen]
  by_cases hnil : editor.line = []
  · rw [hnil, if_pos rfl]
    exact ⟨microrl.ringHist, rfl, h.history⟩
  · have hslice := slice_append [] editor.line (editor.killed ++ nul :: junk)
    rw [List.nil_append, List.length_nil, LineEditor.line, ← hcells] at hslice
    rw [if_neg hnil, if_pos (List.length_pos_iff.mpr hnil)]
    exact RingHistory.histSaveLine_eq h.history hslice hnil

/-- What `split` finds in the whole line. -/
theorem Represents.split_line (h : microrl.Represents editor) :
    microrl.split microrl.cmdlen = .ok (splitResult [] editor.command) := by
  obtain ⟨junk, hcells⟩ := h.cmdline.cells
  rw [h.cmdlen]
  exact split_eq hcells h.cmdline.killed

/-- Both editors execute the words of the line, or print the error text. -/
theorem Represents.executeTokens (h : microrl.Represents editor) :
    Represents
      (microrl.executeTokens (splitResult [] editor.command).1 (splitResult [] editor.command).2)
      (editor.call editor.commandCalls) := by
  have hcall := h.call editor.commandCalls
  rw [LineEditor.commandCalls] at hcall ⊢
  rw [Microrl.executeTokens, splitResult, List.length_nil, Nat.zero_add, List.nil_append]
  by_cases hmany : commandTokenNmb ≤ editor.command.length
  · rw [if_neg (Nat.not_lt.mpr hmany)]
    rw [if_pos hmany] at hcall ⊢
    simpa [Microrl.print] using hcall
  · rw [if_pos (Nat.lt_of_not_le hmany)]
    rw [if_neg hmany] at hcall ⊢
    have hstatus : ¬ (editor.command.length : Int) = -1 := by omega
    have hsome : decide (0 < (editor.command.length : Int)) = decide (editor.command ≠ []) := by
      rw [decide_eq_decide, Int.natCast_pos, List.length_pos_iff]
    simp only [if_neg hstatus, hsome]
    split
    · rename_i hexec
      rw [h.execute] at hexec
      rwa [if_pos hexec] at hcall ⊢
    · rename_i hexec
      rw [h.execute] at hexec
      rw [if_neg hexec] at hcall ⊢
      simpa using hcall

/-- Both editors print the prompt. -/
theorem Represents.printPrompt (h : microrl.Represents editor) :
    microrl.printPrompt.Represents (editor.print promptDefault) := by
  rw [Microrl.printPrompt, h.promptStr]
  exact h.print promptDefault

/-- Both editors empty the line and forget the recalled one. -/
theorem Represents.clearLine (h : microrl.Represents editor) :
    microrl.clearLine.Represents
      { editor with
        before := [], after := [], killed := [], history := { editor.history with cur := 0 } } :=
  { h with
    cmdline := ⟨List.length_replicate, ⟨.replicate (commandLineLen - 1) nul, rfl⟩, nofun⟩
    cmdlen := rfl
    cursor := rfl
    history := { h.history with cur := rfl, cur_le := Nat.zero_le _ } }

/-- A submitted line never faults. -/
theorem Represents.submit (h : microrl.Represents editor) :
    ∃ microrl', microrl.newLineHandler = .ok microrl' ∧ microrl'.Represents editor.submit := by
  obtain ⟨hist, hsave, hhist⟩ := (h.print endl).saveLine
  have hsaved : Represents { microrl.print endl with ringHist := hist }
      { editor.print endl with history :=
        if editor.line = [] then editor.history else editor.history.save editor.line } :=
    { h.print endl with history := hhist }
  have hsplit : { microrl.print endl with ringHist := hist }.split (microrl.print endl).cmdlen
      = .ok (splitResult [] editor.command) := hsaved.split_line
  rw [newLineHandler]
  simp only [terminalNewline, hsave, ok_bind, hsplit]
  exact ⟨_, rfl, hsaved.executeTokens.printPrompt.clearLine⟩

/-! ### Completion -/

/-- The last character in front of the cursor; there is none at the start of the line. -/
theorem lastChar_eq (h : microrl.Represents editor) :
    microrl.lastChar = access editor.before.getLast? := by
  obtain ⟨junk, hcells⟩ := h.cmdline.cells
  rw [lastChar, h.cursor]
  rcases editor.before.eq_nil_or_concat with hnil | ⟨before, c, hbefore⟩
  · rw [hnil]
    rfl
  · rw [List.concat_eq_append] at hbefore
    have hget : microrl.cmdline[before.length]? = some c := by
      rw [hcells, hbefore, List.append_assoc, List.append_assoc,
        List.getElem?_append_right (Nat.le_refl _), Nat.sub_self]
      rfl
    rw [hbefore, List.getLast?_concat, List.length_append, List.length_singleton,
      if_neg (Nat.succ_ne_zero _), Nat.add_sub_cancel, hget]

/-- What `split` finds in front of the cursor. -/
theorem Represents.split_cursor (h : microrl.Represents editor) :
    microrl.split microrl.cursor = .ok (splitResult [] editor.tokens) := by
  obtain ⟨junk, hcells⟩ := h.cmdline.kill.cells
  rw [List.append_nil] at hcells
  rw [h.cursor]
  exact split_eq hcells h.cmdline.kill.killed

/-- The arguments of a completion, with an empty word behind a blank. -/
theorem addEmptyToken_eq (editor : LineEditor) (last : Char) :
    addEmptyToken (splitResult [] editor.tokens).1 (splitResult [] editor.tokens).2 last
      = editor.completionArgs last := by
  rw [addEmptyToken, LineEditor.completionArgs, splitResult, List.length_nil, Nat.zero_add,
    List.nil_append]
  by_cases hmany : commandTokenNmb ≤ editor.tokens.length
  · rw [if_neg (Nat.not_lt.mpr hmany), if_pos hmany]
    by_cases hblank : last = nul
    · simp only [isBlank, hblank, decide_true, if_true]
      rfl
    · simp only [isBlank, hblank, decide_false, if_false]
      rfl
  · rw [if_pos (Nat.lt_of_not_le hmany), if_neg hmany]
    by_cases hblank : last = nul
    · have hstatus : ¬ (editor.tokens.length : Int) < 0 := by omega
      simp only [isBlank, hblank, decide_true, if_true, if_neg hstatus, List.length_append]
      rfl
    · simp only [isBlank, hblank, decide_false, if_false]
      rfl

/-- A number of arguments that is not negative is right. -/
theorem of_completionArgs {last : Char} {argc : Int} {argv : List CString}
    (h : editor.completionArgs last = .ok (argc, argv)) : argc < 0 ∨ argc = argv.length := by
  rw [LineEditor.completionArgs] at h
  split at h
  · split at h
    · cases h
    · cases h
      exact .inl (by decide)
  · cases h
    exact .inr rfl

/-- The last word of the arguments, when their number is right. -/
theorem tokenAt_eq {argc : Int} {argv : List CString} (h : argc < 0 ∨ argc = argv.length) :
    tokenAt argv (argc - 1) = access (if argc < 0 then none else argv.getLast?) := by
  rw [tokenAt]
  obtain h | rfl := h
  · rw [if_pos (by omega), if_pos h]
    rfl
  · rw [if_neg (show ¬ (argv.length : Int) < 0 by omega)]
    rcases argv.eq_nil_or_concat with rfl | ⟨front, token, rfl⟩
    · rfl
    · have hindex : (((front.concat token).length : Int) - 1) = front.length := by
        rw [List.length_concat]
        omega
      rw [hindex, if_neg (by omega), Int.toNat_natCast, List.concat_eq_append,
        List.getLast?_concat, List.getElem?_append_right (Nat.le_refl _), Nat.sub_self]
      rfl

/-- Strings printed one by one, each with a space behind it. -/
theorem foldl_printCompletion (strings : List CString) :
    ∀ microrl : Microrl,
      strings.foldl (fun microrl s => (microrl.print s).print " ".toList) microrl
        = { microrl with calls := microrl.calls
            ++ strings.flatMap fun s => [.print s, .print " ".toList] } := by
  induction strings with
  | nil =>
      intro microrl
      rw [List.flatMap_nil, List.append_nil]
      rfl
  | cons s strings ih =>
      intro microrl
      rw [List.foldl_cons, ih, List.flatMap_cons]
      simp only [Microrl.print, List.append_assoc, List.cons_append, List.nil_append]

/-- Both editors print the possible words. -/
theorem Represents.printCompletions (h : microrl.Represents editor) (first : CString)
    (more : List CString) :
    (microrl.printCompletions first more).Represents (editor.printCompletions first more) := by
  rw [Microrl.printCompletions, LineEditor.printCompletions]
  split
  · exact h
  · simp only [foldl_printCompletion]
    exact (((h.print endl).call _).print endl).printPrompt

/-- Both editors insert what the words have in common. -/
theorem Represents.insertCommon (h : microrl.Represents editor) {argc : Int} {argv : List CString}
    (hargs : argc < 0 ∨ argc = argv.length) (first : CString) (more : List CString) :
    Agree Represents (microrl.insertCommon argc argv first more)
      (editor.insertCommon (if argc < 0 then none else argv.getLast?) first more) := by
  rw [Microrl.insertCommon, LineEditor.insertCommon, tokenAt_eq hargs]
  split
  · refine .same _ fun word _ => ?_
    refine (h.insertText _ _).bind ?_
    rintro ⟨inserted, microrl'⟩ ⟨_, editor'⟩ ⟨-, h'⟩
    by_cases hmore : more.isEmpty
    · simp only [if_pos hmore]
      refine (Represents.insertText h' " ".toList 1).bind ?_
      rintro ⟨inserted, microrl''⟩ ⟨_, editor''⟩ ⟨-, h''⟩
      exact .ok h''
    · simp only [if_neg hmore]
      exact .ok h'
  · exact .ok h

/-- Both editors complete the line, or fault on it. -/
theorem Represents.complete (h : microrl.Represents editor) :
    Agree Represents microrl.microrlGetComplite editor.complete := by
  rw [microrlGetComplite, LineEditor.complete, h.getCompletion]
  cases editor.getCompletion with
  | none => exact .ok h
  | some getCompletion =>
      simp only [h.split_cursor, ok_bind, lastChar_eq h, addEmptyToken_eq]
      refine .same _ fun last _ => ?_
      refine .same _ fun args hargs => ?_
      obtain ⟨argc, argv⟩ := args
      refine .same _ fun complToken _ => ?_
      refine .same _ fun strings _ => ?_
      cases strings with
      | nil => exact .ok h
      | cons first more =>
          refine ((h.printCompletions first more).insertCommon (of_completionArgs hargs) first
            more).bind fun microrl' editor' h' => ?_
          exact (h'.print resetText).draw (Nat.zero_le _)

/-! ### Escape sequences -/

/-- The escape sequence after a key. -/
theorem Represents.escape_of (h : microrl.Represents editor) {escapeSeq : EscapeSeq}
    (hseq : editor.escapeSeq = escapeSeq) (escape : Bool) :
    Represents { microrl with escape := escape }
      { editor with escape := escape, escapeSeq := escapeSeq } :=
  { h with escapeSeq := h.escapeSeq.trans hseq, escape := rfl }

/-- Moving to the right does not touch the escape state. -/
theorem escapeSeq_moveRight (editor : LineEditor) :
    editor.moveRight.escapeSeq = editor.escapeSeq := by
  rw [LineEditor.moveRight]
  split <;> rfl

/-- Moving to the left does not touch the escape state. -/
theorem escapeSeq_moveLeft (editor : LineEditor) :
    editor.moveLeft.escapeSeq = editor.escapeSeq := by
  rw [LineEditor.moveLeft]
  split <;> rfl

/-- A recalled line does not touch the escape state. -/
theorem escapeSeq_historyUp (editor : LineEditor) :
    editor.historyUp.escapeSeq = editor.escapeSeq := by
  rw [LineEditor.historyUp]
  split <;> rfl

/-- The end of `microrl_insert_char` in an escape sequence. -/
def endEscape (result : Bool × Microrl) : Microrl :=
  if result.1 then { result.2 with escape := false } else result.2

/-- The sequence is at its end after an action. -/
theorem Represents.endSequence {result : Except MicrorlFault Microrl} {editor' : LineEditor}
    {seq : EscapeSeq} (h : Agree Represents result (.ok editor')) (hseq : editor'.escapeSeq = seq) :
    Agree (fun result editor' =>
        (endEscape result).Represents { editor' with escape := false, escapeSeq := seq })
      (do return (true, ← result)) (.ok editor') := by
  obtain ⟨microrl', rfl, h'⟩ := h.exists_left rfl
  exact .ok (h'.escape_of hseq false)

/-- A key in an escape sequence. -/
theorem Represents.escapeProcess (h : microrl.Represents editor) (hescape : editor.escape = true)
    (c : Char) {escape : Bool} {escapeSeq : EscapeSeq} {action : LineEditor.Action}
    (hnext : LineEditor.actionOfEscape editor.escapeSeq c = (escape, escapeSeq, action)) :
    Agree (fun result editor' =>
        (endEscape result).Represents { editor' with escape := escape, escapeSeq := escapeSeq })
      (microrl.escapeProcess c) (editor.act action) := by
  -- A key that goes on with the sequence changes nothing else.
  have hstays (seq : EscapeSeq) :
      Represents { microrl with escapeSeq := seq }
        { editor with escape := true, escapeSeq := seq } :=
    { h with escapeSeq := rfl, escape := h.escape.trans hescape }
  rw [LineEditor.actionOfEscape.eq_def] at hnext
  rw [Microrl.escapeProcess, h.escapeSeq]
  -- `[` opens the sequence, whatever was read before.
  by_cases hopen : c = '['
  · rw [if_pos hopen] at hnext ⊢
    cases hnext
    exact .ok (hstays .bracket)
  rw [if_neg hopen] at hnext ⊢
  cases hseq : editor.escapeSeq with
  | bracket =>
      rw [if_pos rfl]
      simp only [hseq] at hnext
      -- The chain of tests of the source, one key after the other.
      by_cases hA : c = 'A'
      · rw [if_pos hA] at hnext ⊢
        cases hnext
        exact endSequence h.historyUp ((escapeSeq_historyUp editor).trans hseq)
      rw [if_neg hA] at hnext ⊢
      by_cases hB : c = 'B'
      · rw [if_pos hB] at hnext ⊢
        cases hnext
        exact endSequence h.historyDown hseq
      rw [if_neg hB] at hnext ⊢
      by_cases hC : c = 'C'
      · rw [if_pos hC] at hnext ⊢
        cases hnext
        exact endSequence (.ok h.moveRight) ((escapeSeq_moveRight editor).trans hseq)
      rw [if_neg hC] at hnext ⊢
      by_cases hD : c = 'D'
      · rw [if_pos hD] at hnext ⊢
        cases hnext
        exact endSequence (.ok h.moveLeft) ((escapeSeq_moveLeft editor).trans hseq)
      rw [if_neg hD] at hnext ⊢
      by_cases h7 : c = '7'
      · rw [if_pos h7] at hnext ⊢
        cases hnext
        exact .ok (hstays .home)
      rw [if_neg h7] at hnext ⊢
      by_cases h8 : c = '8'
      · rw [if_pos h8] at hnext ⊢
        cases hnext
        exact .ok (hstays .atEnd)
      rw [if_neg h8] at hnext ⊢
      cases hnext
      exact endSequence (.ok h) hseq
  | home =>
      rw [if_neg (c := EscapeSeq.home = .bracket) (by decide), if_pos rfl]
      simp only [hseq] at hnext
      cases hnext
      by_cases htilde : c = '~'
      · rw [if_pos htilde, if_pos htilde]
        exact endSequence (.ok h.moveHome) hseq
      -- Every other key ends the sequence without an action.
      · rw [if_neg htilde, if_neg htilde]
        exact endSequence (.ok h) hseq
  | atEnd =>
      rw [if_neg (c := EscapeSeq.atEnd = .bracket) (by decide),
        if_neg (c := EscapeSeq.atEnd = .home) (by decide), if_pos rfl]
      simp only [hseq] at hnext
      cases hnext
      by_cases htilde : c = '~'
      · rw [if_pos htilde, if_pos htilde]
        exact endSequence (.ok h.moveEnd) hseq
      · rw [if_neg htilde, if_neg htilde]
        exact endSequence (.ok h) hseq
  | unset =>
      rw [if_neg (c := EscapeSeq.unset = .bracket) (by decide),
        if_neg (c := EscapeSeq.unset = .home) (by decide),
        if_neg (c := EscapeSeq.unset = .atEnd) (by decide), ite_self]
      simp only [hseq] at hnext
      cases hnext
      exact endSequence (.ok h) hseq

/-! ### Keys -/

/-- A key does to the arrays what it does to the line of the abstract editor. -/
theorem microrlInsertChar_agree (h : microrl.Represents editor) (ch : Byte) :
    Agree Represents (microrl.microrlInsertChar ch) (editor.step ch) := by
  rw [microrlInsertChar, LineEditor.step, h.escape]
  -- In an escape sequence the key goes to `escape_process`, whatever it is.
  by_cases hescape : editor.escape = true
  · rw [if_pos hescape, if_pos hescape]
    cases hnext : LineEditor.actionOfEscape editor.escapeSeq (charOfByte ch) with
    | mk escape next =>
        obtain ⟨escapeSeq, action⟩ := next
        exact (h.escapeProcess hescape (charOfByte ch) hnext).bind fun result editor' h' => .ok h'
  rw [if_neg hescape, if_neg hescape, LineEditor.actionOfKey]
  cases hkey : MicrorlKey.ofByte ch with
  | cr =>
      obtain ⟨microrl', hsubmit, h'⟩ := h.submit
      simp only [reduceCtorEq, if_false]
      rw [hsubmit]
      exact .ok h'
  | lf => exact .ok h
  | ht => exact h.complete
  | esc => exact .ok { h with escape := rfl }
  | nak =>
      -- Each round deletes one character in front of the cursor, so there are fewer rounds than
      -- cells.
      have hrounds : microrl.cursor < commandLineLen := by
        have hlt := h.length_line_lt
        rw [LineEditor.line, List.length_append] at hlt
        rw [h.cursor]
        omega
      obtain ⟨microrl', hwhile, h'⟩ := backspaceWhile_eq h hrounds
      simp only [reduceCtorEq, if_false]
      rw [hwhile]
      exact h'.draw (Nat.zero_le _)
  | vt => exact .ok h.kill
  | enq => exact .ok h.moveEnd
  | soh => exact .ok h.moveHome
  | ack => exact .ok h.moveRight
  | stx => exact .ok h.moveLeft
  | dle => exact h.historyUp
  | so => exact h.historyDown
  | del =>
      obtain ⟨microrl', hback, h'⟩ := h.backspace
      -- The cursor is still inside the line that the backspace left.
      have hle : editor.backspace.before.length ≤ editor.backspace.line.length := by
        rw [LineEditor.line, List.length_append]
        exact Nat.le_add_right _ _
      simp only [reduceCtorEq, if_false]
      rw [hback]
      show Agree Represents (microrl'.terminalPrintLine microrl'.cursor microrl'.cursor)
        (.ok (editor.backspace.draw editor.backspace.before.length))
      have hdraw := h'.draw hle
      rwa [← h'.cursor] at hdraw ⊢
  | dc2 => exact (((h.print endl).printPrompt).print resetText).draw (Nat.zero_le _)
  | other => exact h.insertKey ch

/-- At the start both editors are empty. -/
theorem represents_begin (execute : Bool) (getCompletion : Option GetCompletion) :
    (Microrl.begin execute getCompletion).Represents (.start execute getCompletion) where
  escapeSeq := rfl
  escape := rfl
  promptStr := rfl
  execute := rfl
  getCompletion := rfl
  calls := rfl
  history := RingHistory.represents_start
  cmdline := ⟨List.length_replicate, ⟨.replicate (commandLineLen - 1) nul, rfl⟩, nofun⟩
  cmdlen := rfl
  cursor := rfl

/-- Whatever keys come, the line editor with its arrays does what the abstract one does. It prints
and executes the same, and it accesses an array outside of its bounds where the abstract one has a
fault. -/
theorem insertChars_agree (execute : Bool) (getCompletion : Option GetCompletion)
    (keys : List Byte) :
    Agree Represents
      (keys.foldlM microrlInsertChar (.begin execute getCompletion))
      (keys.foldlM LineEditor.step (.start execute getCompletion)) :=
  Agree.foldlM (fun _ _ ch h => microrlInsertChar_agree h ch) keys _ _
    (represents_begin execute getCompletion)

/-- The run has a fault exactly when the abstract one does, and it is the same fault. Otherwise the
arrays represent the abstract line editor in the end. -/
theorem insertChars_refines (execute : Bool) (getCompletion : Option GetCompletion)
    (keys : List Byte) :
    (∀ e, keys.foldlM microrlInsertChar (.begin execute getCompletion) = .error e ↔
      keys.foldlM LineEditor.step (.start execute getCompletion) = .error e) ∧
    ∀ microrl, keys.foldlM microrlInsertChar (.begin execute getCompletion) = .ok microrl →
      ∃ editor, keys.foldlM LineEditor.step (.start execute getCompletion) = .ok editor ∧
        microrl.Represents editor ∧ microrl.calls = editor.calls := by
  have hagree := insertChars_agree execute getCompletion keys
  refine ⟨fun e => hagree.error_iff, fun microrl hrun => ?_⟩
  obtain ⟨editor, heditor, h⟩ := hagree.exists_right hrun
  exact ⟨editor, heditor, h, h.calls⟩

end Microrl

end C6021Light
