import C6021Light.Proofs.LineEditorRuns

/-!
# `C6021Light.Proofs.TypedCommands`: what is typed is executed

`foldlM_insert` is a run of typed characters. They go in front of the cursor, as many as fit, and
blanks at the start of an empty line are ignored. With a CR behind them the words of the text are
executed (`submit_typed`), and the line is empty again.

`Ctrl-P` brings back the lines that were typed before, the newest one first (`recall_step`).
-/

set_option autoImplicit false

namespace C6021Light

open CheckedArray LockStep NewestFit Words

/-- A key that is inserted, when there is room. -/
def Typable (ch : Byte) : Prop := MicrorlKey.ofByte ch = .other ∧ isControlChar ch = false

/-- Whether a key is typable can be computed. -/
instance (ch : Byte) : Decidable (Typable ch) := inferInstanceAs (Decidable (_ ∧ _))

namespace LineEditor

variable {editor editor' editor'' : LineEditor}

/-! ### Typing -/

/-- A text was typed. -/
structure Typed (editor editor' : LineEditor) (typed : CString) : Prop where
  before : editor'.before = editor.before ++ typed
  after : editor'.after = editor.after
  killed : editor'.killed = if typed = [] then editor.killed else []
  escape : editor'.escape = editor.escape
  history : editor'.history = editor.history
  edits : Edits (fun _ => True) editor editor'

/-- Nothing was typed. -/
theorem Typed.refl (editor : LineEditor) : Typed editor editor [] :=
  ⟨(List.append_nil _).symm, rfl, rfl, rfl, rfl, .refl editor⟩

/-- Two texts typed one behind the other. -/
theorem Typed.trans {typed typed' : CString} (h : Typed editor editor' typed)
    (h' : Typed editor' editor'' typed') : Typed editor editor'' (typed ++ typed') := by
  refine ⟨?_, h'.after.trans h.after, ?_, h'.escape.trans h.escape, h'.history.trans h.history,
    h.edits.trans h'.edits⟩
  · rw [h'.before, h.before, List.append_assoc]
  · rw [h'.killed, h.killed]
    by_cases hnil : typed' = []
    · rw [hnil, List.append_nil, if_pos rfl]
    · rw [if_neg hnil, if_neg (List.append_ne_nil_of_right_ne_nil _ hnil)]

/-- What is inserted of a text: no blank at the start of the line, and nothing that does not fit. -/
def inserted (line text : CString) : CString :=
  ((if line = [] then text.dropWhile (· = ' ') else text).take
    (commandLineLen - 1 - line.length)).map
    Microrl.stored

/-- Nothing is inserted of no text. -/
theorem inserted_nil (line : CString) : inserted line [] = [] := by
  rw [inserted, List.dropWhile_nil, ite_self, List.take_nil]
  rfl

/-- A blank at the start of the line is not inserted. -/
theorem inserted_blank (text : CString) : inserted [] (' ' :: text) = inserted [] text := rfl

/-- Nothing is inserted into a full line. -/
theorem inserted_full {line : CString} (hfull : commandLineLen ≤ line.length + 1) (text : CString) :
    inserted line text = [] := by
  rw [inserted, Nat.sub_eq_zero_of_le (by omega), List.take_zero]
  rfl

/-- A character that fits is inserted, and the rest of the text behind it. -/
theorem inserted_cons {line : CString} {c : Char} (hroom : line.length + 1 < commandLineLen)
    (hblank : ¬ (c = ' ' ∧ line = [])) (text : CString) {line' : CString}
    (hline : line'.length = line.length + 1) :
    inserted line (c :: text) = Microrl.stored c :: inserted line' text := by
  have hne : line' ≠ [] := List.ne_nil_of_length_eq_add_one hline
  have htext : (if line = [] then (c :: text).dropWhile (· = ' ') else c :: text) = c :: text := by
    split
    · rename_i hnil
      exact List.dropWhile_cons_of_neg fun hspace =>
        hblank ⟨of_decide_eq_true hspace, hnil⟩
    · rfl
  have hlen : commandLineLen - 1 - line.length = commandLineLen - 1 - line'.length + 1 := by omega
  rw [inserted, inserted, htext, if_neg hne, hlen, List.take_succ_cons, List.map_cons]

/-- Outside of an escape sequence a key does what it stands for. -/
theorem step_of_key {ch : Byte} {key : MicrorlKey} (hescape : editor.escape = false)
    (hkey : MicrorlKey.ofByte ch = key) (hesc : key ≠ .esc) :
    editor.step ch = editor.act (actionOfKey ch) := by
  rw [step, if_neg (by rw [hescape]; exact Bool.false_ne_true), if_neg (by rw [hkey]; exact hesc)]

/-- A typed character. -/
theorem step_typable {ch : Byte} (hch : Typable ch) (hescape : editor.escape = false) :
    editor.step ch = editor.insert ch := by
  obtain ⟨hother, -⟩ := hch
  have haction : actionOfKey ch = .insert ch := by rw [actionOfKey, hother]
  rw [step_of_key hescape hother (by decide), haction]
  rfl

/-- A CR submits the line. -/
theorem step_cr {cr : Byte} (hcr : MicrorlKey.ofByte cr = .cr) (hescape : editor.escape = false) :
    editor.step cr = .ok editor.submit := by
  rw [step_of_key hescape hcr (by decide), (actionOfKey_cases cr).1.mpr hcr]
  rfl

/-- A blank at the start of the line has no effect. -/
theorem insert_blank {ch : Byte} (hblank : charOfByte ch = ' ' ∧ editor.line = []) :
    editor.insert ch = .ok editor := by
  rw [insert, hblank.1, hblank.2]
  rfl

/-- A typable key has no effect on a full line, and is typed otherwise. -/
theorem insert_typable {ch : Byte} (hch : Typable ch)
    (hblank : ¬ (charOfByte ch = ' ' ∧ editor.line = [])) :
    (commandLineLen ≤ editor.line.length + 1 ∧ editor.insert ch = .ok editor) ∨
      (editor.line.length + 1 < commandLineLen ∧ ∃ editor', editor.insert ch = .ok editor' ∧
        Typed editor editor' [Microrl.stored (charOfByte ch)]) := by
  have hinserts : ¬ (charOfByte ch = ' ' && editor.line.isEmpty || isControlChar ch) = true := by
    rw [hch.2, Bool.or_false, Bool.and_eq_true, decide_eq_true_iff, List.isEmpty_iff]
    exact hblank
  obtain ⟨⟨inserted, next⟩, hinsert⟩ := @exists_insertText editor [charOfByte ch] 1 (Nat.le_refl 1)
  rw [insert, if_neg hinserts]
  obtain ⟨rfl, rfl, hfull⟩ | ⟨rfl, hroom, -, -, rfl⟩ := insertText_cases hinsert
  · exact .inl ⟨by omega, bind_eq_ok.mpr ⟨_, hinsert, rfl⟩⟩
  · refine .inr ⟨by omega, _, bind_eq_ok.mpr ⟨_, hinsert, rfl⟩, ?_⟩
    have hbefore : editor.before.take ((editor.before.length : Int) + (1 : Nat)).toNat
        = editor.before := List.take_of_length_le (by omega)
    refine ⟨congrArg (· ++ [Microrl.stored (charOfByte ch)]) hbefore, rfl, rfl, rfl, rfl, ?_⟩
    exact (edits_insertText (fun _ _ => trivial) hinsert).trans (edits_draw _ _)

/-- Characters that are typed one after the other. -/
theorem foldlM_insert {text : List Byte} (htext : ∀ ch ∈ text, Typable ch) :
    ∀ {editor : LineEditor}, editor.escape = false →
      ∃ editor', text.foldlM step editor = .ok editor' ∧
        Typed editor editor' (inserted editor.line (text.map charOfByte)) := by
  -- The induction is on the text. A character is dropped in front of the line, rejected or
  -- inserted.
  induction text with
  | nil =>
      intro editor _
      exact ⟨editor, rfl, by rw [List.map_nil, inserted_nil]; exact .refl editor⟩
  | cons ch text ih =>
      intro editor hescape
      obtain ⟨hch, hrest⟩ := List.forall_mem_cons.mp htext
      rw [List.foldlM_cons, step_typable hch hescape, List.map_cons]
      -- A blank at the start of the line is not inserted.
      by_cases hblank : charOfByte ch = ' ' ∧ editor.line = []
      · obtain ⟨editor', hrun, htyped⟩ := ih hrest hescape
        refine ⟨editor', by rw [insert_blank hblank, ok_bind, hrun], ?_⟩
        rw [hblank.2] at htyped ⊢
        rwa [hblank.1, inserted_blank]
      obtain ⟨hfull, hinsert⟩ | ⟨hroom, next, hinsert, htyped⟩ := insert_typable hch hblank
      -- The line is full, and the character is dropped.
      · obtain ⟨editor', hrun, htyped⟩ := ih hrest hescape
        refine ⟨editor', by rw [hinsert, ok_bind, hrun], ?_⟩
        rw [inserted_full hfull] at htyped ⊢
        exact htyped
      -- The character goes behind the line.
      · obtain ⟨editor', hrun, htyped'⟩ := ih hrest (htyped.escape.trans hescape)
        have hline : next.line.length = editor.line.length + 1 := by
          rw [line, line, htyped.before, htyped.after]
          simp only [List.length_append, List.length_singleton]
          omega
        refine ⟨editor', by rw [hinsert, ok_bind, hrun], ?_⟩
        rw [inserted_cons hroom hblank _ hline]
        exact htyped.trans htyped'

/-! ### Commands -/

/-- The next key starts a new line. -/
structure Ready (editor : LineEditor) : Prop where
  escape : editor.escape = false
  before : editor.before = []
  after : editor.after = []

/-- A line that is ready is empty. -/
theorem Ready.line (h : editor.Ready) : editor.line = [] := by
  rw [LineEditor.line, h.before, h.after]
  rfl

/-- What is executed of some words. -/
def commandOf (execute : Bool) (words : List CString) : List (List CString) :=
  if words.length < commandTokenNmb && words ≠ [] && execute then [words] else []

/-- The words of a typed text, without what does not fit. -/
def typedWords (text : CString) : List CString :=
  words (· = ' ') ((text.dropWhile (· = ' ')).take (commandLineLen - 1))

/-- The executed words are those of the line, by their number. -/
theorem executions_commandCalls_eq (editor : LineEditor) :
    Microrl.executions editor.commandCalls = commandOf editor.execute editor.command := by
  rw [commandCalls, commandOf]
  by_cases hmany : commandTokenNmb ≤ editor.command.length
  · rw [if_pos hmany, decide_eq_false (Nat.not_lt.mpr hmany)]
    rfl
  · rw [if_neg hmany, decide_eq_true (Nat.lt_of_not_le hmany), Bool.true_and]
    split <;> rfl

/-- What a CR calls: a new row, then the words or the error text for too many, and the prompt. -/
def answerCalls (execute : Bool) (words : List CString) : List MicrorlCall :=
  .print Microrl.endl ::
    (if commandTokenNmb ≤ words.length then
      [.print "ERROR:too many tokens".toList, .print Microrl.endl]
    else (commandOf execute words).map .execute) ++ [.print promptDefault]

/-- A submitted line is answered for its words. -/
theorem calls_submit (editor : LineEditor) :
    editor.submit.calls = editor.calls ++ answerCalls editor.execute editor.command := by
  have hcommand : editor.commandCalls = if commandTokenNmb ≤ editor.command.length then
        [.print "ERROR:too many tokens".toList, .print Microrl.endl]
      else (commandOf editor.execute editor.command).map .execute := by
    rw [commandCalls, commandOf]
    by_cases hmany : commandTokenNmb ≤ editor.command.length
    · rw [if_pos hmany, if_pos hmany]
    · rw [if_neg hmany, if_neg hmany, decide_eq_true (Nat.lt_of_not_le hmany), Bool.true_and]
      split <;> rfl
  show ((editor.calls ++ [.print Microrl.endl]) ++ editor.commandCalls) ++ [.print promptDefault]
    = _
  rw [hcommand, answerCalls]
  simp only [List.append_assoc, List.cons_append, List.nil_append]

/-- Of the answer, the words are executed. -/
theorem executions_answerCalls (execute : Bool) (words : List CString) :
    Microrl.executions (answerCalls execute words) = commandOf execute words := by
  rw [answerCalls, commandOf]
  by_cases hmany : commandTokenNmb ≤ words.length
  · rw [if_pos hmany, decide_eq_false (Nat.not_lt.mpr hmany)]
    rfl
  · rw [if_neg hmany]
    split <;> rfl

/-- An echo executes nothing, so the words of the answer are all that is executed. -/
theorem executions_echo {calls calls' : List MicrorlCall} {echo : List CString} {execute : Bool}
    {words : List CString}
    (h : calls' = calls ++ echo.map .print ++ answerCalls execute words) :
    Microrl.executions calls' = Microrl.executions calls ++ commandOf execute words := by
  rw [h, Microrl.executions_append, Microrl.executions_append, Microrl.executions_prints,
    List.append_nil, executions_answerCalls]

/-- A typed character is no NUL. -/
theorem charOfByte_ne_nul {ch : Byte} (hch : Typable ch) : charOfByte ch ≠ nul := by
  intro hnul
  have hcontrol := of_decide_eq_false hch.2
  have hzero : (charOfByte ch).toNat = 0 := by
    rw [hnul]
    rfl
  rw [toNat_charOfByte] at hzero
  omega

/-- The blanks of the line are those of the text. -/
theorem isBlank_stored {text : List Byte} (htext : ∀ ch ∈ text, Typable ch) {part : CString}
    (hpart : part ⊆ text.map charOfByte) :
    ∀ c ∈ part, isBlank (Microrl.stored c) = decide (c = ' ') := by
  intro c hc
  obtain ⟨ch, hch, rfl⟩ := List.mem_map.mp (hpart hc)
  rw [isBlank, Microrl.stored]
  split
  · rename_i hspace
    rw [hspace]
    rfl
  · rename_i hspace
    rw [decide_eq_false hspace, decide_eq_false (charOfByte_ne_nul (htext ch hch))]

/-- A word is stored as it is. -/
theorem map_stored {word : CString} (hword : Solid (· = ' ') word) :
    word.map Microrl.stored = word :=
  (List.map_congr_left fun c hc => if_neg (of_decide_eq_false (hword c hc))).trans (List.map_id _)

/-- The words of the line are those of the text. -/
theorem words_inserted {text : List Byte} (htext : ∀ ch ∈ text, Typable ch) :
    words isBlank (inserted [] (text.map charOfByte)) = typedWords (text.map charOfByte) := by
  have hsub : ((text.map charOfByte).dropWhile (· = ' ')).take (commandLineLen - 1)
      ⊆ text.map charOfByte := fun _ hc =>
    (List.dropWhile_suffix _).subset (List.mem_of_mem_take hc)
  have hblank := isBlank_stored htext hsub
  rw [inserted, if_pos rfl, typedWords, List.length_nil, Nat.sub_zero, words_map hblank]
  exact (List.map_congr_left fun word hword => map_stored (mem_words hword).2).trans
    (List.map_id _)

/-- A text and a CR. -/
theorem submit_typed {text : List Byte} (htext : ∀ ch ∈ text, Typable ch) {cr : Byte}
    (hcr : MicrorlKey.ofByte cr = .cr) (hready : editor.Ready) :
    ∃ editor', (text ++ [cr]).foldlM step editor = .ok editor' ∧ editor'.Ready ∧
      editor'.execute = editor.execute ∧
      editor'.history =
        { (if inserted [] (text.map charOfByte) = [] then editor.history
          else editor.history.save (inserted [] (text.map charOfByte))) with cur := 0 } ∧
      ∃ echo : List CString, editor'.calls = editor.calls ++ echo.map .print
        ++ answerCalls editor.execute (typedWords (text.map charOfByte)) := by
  obtain ⟨next, hrun, htyped⟩ := foldlM_insert htext hready.escape
  rw [hready.line] at htyped
  have hline : next.line = inserted [] (text.map charOfByte) := by
    rw [line, htyped.before, htyped.after, hready.before, hready.after, List.append_nil,
      List.nil_append]
  have hstep : next.step cr = .ok next.submit :=
    step_cr hcr (htyped.escape.trans hready.escape)
  -- The CR splits the line into its words, which are those of the text.
  have hcommand : next.command = typedWords (text.map charOfByte) := by
    rw [command, hline, htyped.killed]
    split
    · rename_i hnil
      rw [← words_inserted htext, hnil]
      rfl
    · rw [wordsWithTail_nil_right, words_inserted htext]
  obtain ⟨texts, hcalls⟩ := htyped.edits.calls
  refine ⟨next.submit, ?_, ⟨?_, rfl, rfl⟩, htyped.edits.execute, ?_,
    texts, ?_⟩
  · rw [List.foldlM_append, hrun, ok_bind, List.foldlM_cons, hstep]
    rfl
  · exact htyped.escape.trans hready.escape
  · rw [← hline, ← htyped.history]
    rfl
  · rw [calls_submit, hcommand, htyped.edits.execute, hcalls]

/-! ### Sessions -/

/-- What a typed text leaves in the history. -/
def storedLine (text : List Byte) : Option CString :=
  let line := inserted [] (text.map charOfByte)
  if line ≠ [] ∧ line.length ≤ ringHistoryLen - 2 then some line else none

/-- The lines of the history, after some typed texts. -/
def storedLines (texts : List (List Byte)) : List CString :=
  newest CommandHistory.lineWeight (ringHistoryLen - 1) (texts.filterMap storedLine)

/-- Typed texts, each with a CR behind it. -/
theorem submit_texts {cr : Byte} (hcr : MicrorlKey.ofByte cr = .cr) (texts : List (List Byte)) :
    ∀ {editor : LineEditor} {saved : List CString},
      (∀ text ∈ texts, ∀ ch ∈ text, Typable ch) → editor.Ready →
      editor.history.cur = 0 →
      editor.history.lines = newest CommandHistory.lineWeight (ringHistoryLen - 1) saved →
      ∃ editor', (texts.flatMap (· ++ [cr])).foldlM step editor = .ok editor' ∧ editor'.Ready ∧
        editor'.execute = editor.execute ∧ editor'.history.cur = 0 ∧
        editor'.history.lines = newest CommandHistory.lineWeight (ringHistoryLen - 1)
          (saved ++ texts.filterMap storedLine) ∧
        Microrl.executions editor'.calls = Microrl.executions editor.calls
          ++ texts.flatMap fun text =>
            commandOf editor.execute (typedWords (text.map charOfByte)) := by
  -- The induction is on the texts. Each one leaves the editor ready for the next.
  induction texts with
  | nil =>
      intro editor saved _ hready hcur hlines
      exact ⟨editor, rfl, hready, rfl, hcur, by rw [hlines, List.filterMap_nil, List.append_nil],
        (List.append_nil _).symm⟩
  | cons text texts ih =>
      intro editor saved htexts hready hcur hlines
      obtain ⟨htext, hrest⟩ := List.forall_mem_cons.mp htexts
      obtain ⟨next, hrun, hready', hexecute, hhistory, echo, hcalls⟩ :=
        submit_typed htext hcr hready
      -- An empty line is not stored, and neither is one that is longer than the ring.
      have hstored : next.history.lines = newest CommandHistory.lineWeight (ringHistoryLen - 1)
          (saved ++ (storedLine text).toList) := by
        rw [hhistory, storedLine]
        by_cases hnil : inserted [] (text.map charOfByte) = []
        · rw [if_pos hnil, if_neg fun h => h.1 hnil]
          exact hlines.trans (congrArg _ (List.append_nil saved).symm)
        · rw [if_neg hnil]
          refine (RingHistory.lines_save hlines).trans (congrArg _ ?_)
          by_cases hshort : (inserted [] (text.map charOfByte)).length ≤ ringHistoryLen - 2
          · rw [if_pos hshort, if_pos ⟨hnil, hshort⟩]
            rfl
          · rw [if_neg hshort, if_neg fun h => hshort h.2]
            rfl
      obtain ⟨editor', hrun', hready'', hexecute', hcur', hlines', hexecutions'⟩ :=
        ih hrest hready' (by rw [hhistory]) hstored
      refine ⟨editor', ?_, hready'', hexecute'.trans hexecute, hcur', ?_, ?_⟩
      · rw [List.flatMap_cons, List.foldlM_append, hrun, ok_bind, hrun']
      · rw [hlines', List.append_assoc]
        cases hline : storedLine text with
        | none => rw [List.filterMap_cons_none hline]; rfl
        | some line => rw [List.filterMap_cons_some hline]; rfl
      · rw [hexecutions', executions_echo hcalls, hexecute, List.flatMap_cons, List.append_assoc]

/-- A line is brought back. -/
theorem recall_run {up : Byte} (hup : MicrorlKey.ofByte up = .dle) (hready : editor.Ready)
    (hcur : editor.history.cur = 0) :
    ∀ {k : Nat}, k ≤ editor.history.lines.length →
      ∃ editor', (List.replicate k up).foldlM step editor = .ok editor' ∧
        editor'.escape = false ∧ editor'.execute = editor.execute ∧
        editor'.line = editor.history.lineAt k ∧ (editor'.line = [] ∨ editor'.killed = []) ∧
        editor'.history = { editor.history with cur := k } ∧
        Microrl.executions editor'.calls = Microrl.executions editor.calls := by
  intro k
  -- The induction is on the number of keys. Each one goes up one line.
  induction k with
  | zero =>
      exact fun _ => ⟨editor, rfl, hready.escape, rfl, hready.line, .inl hready.line,
        by rw [← hcur], rfl⟩
  | succ k ih =>
      intro hk
      obtain ⟨next, hrun, hescape, hexecute, -, -, hhistory, hexecutions⟩ := ih (by omega)
      have hstep : next.step up = .ok next.historyUp := by
        rw [step_of_key hescape hup (by decide), actionOfKey, hup]
        rfl
      -- There is a line above, so the history does not stop.
      have hset : next.historyUp
          = next.setLine (editor.history.lineAt (k + 1)) { editor.history with cur := k + 1 } := by
        rw [historyUp, hhistory, CommandHistory.up,
          if_pos (show k < editor.history.lines.length by omega)]
        rfl
      have hedits : Edits (fun _ => True) next next.historyUp := edits_historyUp next
      obtain ⟨texts, hcalls⟩ := hedits.calls
      refine ⟨next.historyUp, ?_, ?_, hedits.execute.trans hexecute, ?_, .inr ?_, ?_, ?_⟩
      · rw [List.replicate_succ', List.foldlM_append, hrun, ok_bind, List.foldlM_cons, hstep]
        rfl
      · rw [hset]
        exact hescape
      · rw [hset]
        exact List.append_nil _
      · rw [hset]
        rfl
      · rw [hset]
        rfl
      · rw [hcalls, Microrl.executions_append, Microrl.executions_prints, List.append_nil,
          hexecutions]

/-- A line that is brought back is executed with a CR. -/
theorem submit_recalled {up cr : Byte} (hup : MicrorlKey.ofByte up = .dle)
    (hcr : MicrorlKey.ofByte cr = .cr) (hready : editor.Ready) (hcur : editor.history.cur = 0)
    {k : Nat} (hk : k ≤ editor.history.lines.length) :
    ∃ editor', (List.replicate k up ++ [cr]).foldlM step editor = .ok editor' ∧
      Microrl.executions editor'.calls = Microrl.executions editor.calls
        ++ commandOf editor.execute (words isBlank (editor.history.lineAt k)) := by
  obtain ⟨next, hrun, hescape, hexecute, hline, hkilled, -, hexecutions⟩ :=
    recall_run hup hready hcur hk
  have hstep : next.step cr = .ok next.submit := step_cr hcr hescape
  have hcommand : next.command = words isBlank (editor.history.lineAt k) := by
    rw [command]
    obtain hnil | hnil := hkilled
    · rw [← hline, hnil]
      rfl
    · rw [hnil, wordsWithTail_nil_right, hline]
  refine ⟨next.submit, ?_, ?_⟩
  · rw [List.foldlM_append, hrun, ok_bind, List.foldlM_cons, hstep]
    rfl
  · rw [Microrl.executions_submit, executions_commandCalls_eq, hcommand, hexecute, hexecutions]

end LineEditor

namespace Microrl

open LineEditor

variable {microrl : Microrl}

/-- An empty line outside of an escape sequence is ready. -/
theorem Represents.ready {editor : LineEditor} (h : microrl.Represents editor)
    (hescape : microrl.escape = false) (hcmdlen : microrl.cmdlen = 0) : editor.Ready := by
  have hline : editor.line = [] := List.eq_nil_of_length_eq_zero (h.cmdlen ▸ hcmdlen)
  exact ⟨h.escape ▸ hescape, (List.append_eq_nil_iff.mp hline).1,
    (List.append_eq_nil_iff.mp hline).2⟩

/-- After any keys, when the line is empty and no escape sequence is open, a typed text and a CR
execute the words of the text. The prints of the typed text go in front of the answer, which is the
error text when there are too many words. Then the line is empty again. -/
theorem typed_executed {execute : Bool} {getCompletion : Option GetCompletion} {keys : List Byte}
    (hrun : keys.foldlM microrlInsertChar (.begin execute getCompletion) = .ok microrl)
    (hescape : microrl.escape = false) (hcmdlen : microrl.cmdlen = 0) {text : List Byte}
    (htext : ∀ ch ∈ text, Typable ch) {cr : Byte} (hcr : MicrorlKey.ofByte cr = .cr) :
    ∃ microrl', (text ++ [cr]).foldlM microrlInsertChar microrl = .ok microrl' ∧
      microrl'.escape = false ∧ microrl'.cmdlen = 0 ∧
      (∃ echo : List CString, microrl'.calls = microrl.calls ++ echo.map .print
        ++ answerCalls microrl.execute (typedWords (text.map charOfByte))) ∧
      executions microrl'.calls = executions microrl.calls
        ++ commandOf microrl.execute (typedWords (text.map charOfByte)) := by
  obtain ⟨editor, -, h⟩ := (insertChars_agree execute getCompletion keys).exists_right hrun
  -- The text is typed into the abstract editor, and the arrays follow it.
  obtain ⟨editor', hrun', hready', -, -, echo, hcalls⟩ :=
    submit_typed htext hcr (h.ready hescape hcmdlen)
  obtain ⟨microrl', hconcrete, h'⟩ :=
    (Agree.foldlM (fun _ _ ch h => microrlInsertChar_agree h ch) _ _ _ h).exists_left hrun'
  rw [← h'.calls, ← h.calls, ← h.execute] at hcalls
  refine ⟨microrl', hconcrete, h'.escape.trans hready'.escape, ?_, ⟨echo, hcalls⟩,
    executions_echo hcalls⟩
  rw [h'.cmdlen, hready'.line]
  rfl

/-- `config get`, with one blank too many. -/
def configGetText : List Byte := [99, 111, 110, 102, 105, 103, 32, 32, 103, 101, 116]

/-- `config get` and CR execute these two words. -/
theorem typed_executed_configGet :
    ∃ microrl, (configGetText ++ [13]).foldlM microrlInsertChar (.begin true none) = .ok microrl ∧
      executions microrl.calls = [["config".toList, "get".toList]] := by
  obtain ⟨microrl, hrun, -, -, -, hexecutions⟩ :=
    @typed_executed (.begin true none) _ _ _ (show List.foldlM _ _ [] = _ from rfl) rfl rfl _
      (show ∀ ch ∈ configGetText, Typable ch by decide) _
      (show MicrorlKey.ofByte 13 = .cr from rfl)
  exact ⟨microrl, hrun, hexecutions⟩

/-- Some texts are typed, each with a CR behind it, and `Ctrl-P` goes up to one of the lines that
are still in the history. A CR executes it again. -/
theorem recalled_executed {up cr : Byte} (hup : MicrorlKey.ofByte up = .dle)
    (hcr : MicrorlKey.ofByte cr = .cr) (getCompletion : Option GetCompletion)
    {texts : List (List Byte)} (htexts : ∀ text ∈ texts, ∀ ch ∈ text, Typable ch) {k : Nat}
    (hk : k < (storedLines texts).length) :
    ∃ microrl, (texts.flatMap (· ++ [cr]) ++ (List.replicate (k + 1) up ++ [cr])).foldlM
        microrlInsertChar (.begin true getCompletion) = .ok microrl ∧
      executions microrl.calls
        = texts.flatMap (fun text => commandOf true (typedWords (text.map charOfByte)))
          ++ commandOf true (words isBlank ((storedLines texts).reverse[k]?.getD [])) := by
  have hstart : (LineEditor.start true getCompletion).Ready := ⟨rfl, rfl, rfl⟩
  obtain ⟨editor, hrun, hready, hexecute, hcur, hlines, hexecutions⟩ :=
    @submit_texts _ hcr texts _ [] htexts hstart rfl rfl
  rw [List.nil_append] at hlines
  have hk' : k + 1 ≤ editor.history.lines.length := hlines ▸ hk
  obtain ⟨editor', hrun', hexecutions'⟩ := submit_recalled hup hcr hready hcur hk'
  -- The typed texts leave the history, and the keys for going up find the line in it.
  have hall : (texts.flatMap (· ++ [cr]) ++ (List.replicate (k + 1) up ++ [cr])).foldlM
      LineEditor.step (.start true getCompletion) = .ok editor' := by
    rw [List.foldlM_append, hrun, ok_bind, hrun']
  obtain ⟨microrl, hconcrete, h⟩ := (insertChars_agree true getCompletion _).exists_left hall
  -- The `k`-th line from the end is `k + 1` steps up.
  have hline : editor.history.lineAt (k + 1) = (storedLines texts).reverse[k]?.getD [] := by
    rw [CommandHistory.lineAt, if_neg (Nat.succ_ne_zero k), hlines, List.getElem?_reverse hk,
      Nat.sub_right_comm, Nat.sub_sub]
    rfl
  refine ⟨microrl, hconcrete, ?_⟩
  rw [h.calls, hexecutions', hexecutions, hexecute, hline]
  rfl

/-- `help`. -/
def helpText : List Byte := [104, 101, 108, 112]

/-- Two lines, then the older of them recalled: its words are executed a second time. -/
theorem recalled_executed_configGet :
    ∃ microrl, ([configGetText, helpText].flatMap (· ++ [13])
        ++ (List.replicate 2 16 ++ [13])).foldlM
        microrlInsertChar (.begin true none) = .ok microrl ∧
      executions microrl.calls = [["config".toList, "get".toList], ["help".toList],
        ["config".toList, "get".toList]] :=
  recalled_executed (k := 1) (show MicrorlKey.ofByte 16 = .dle from rfl)
    (show MicrorlKey.ofByte 13 = .cr from rfl) none
    (show ∀ text ∈ [configGetText, helpText], ∀ ch ∈ text, Typable ch by decide) (by decide)

end Microrl

end C6021Light
