import C6021Light.Proofs.LineEditing

/-!
# `C6021Light.Proofs.LineEditorRuns`: what the line editor prints and executes

`Edits` says what a key can do to the abstract editor. Its callbacks stay, and it prints. Only a CR
executes something. And when each character that is typed or completed satisfies a predicate, so
does each character of the line and of the history (`Over`).

`insertChars_agree` carries these facts to the arrays of `Microrl`, for a run over any keys.
-/

set_option autoImplicit false

namespace C6021Light

open CheckedArray LockStep NewestFit Words

namespace LineEditor

variable {P : Char → Prop} {editor editor' editor'' : LineEditor}

/-! ### Characters -/

/-- Each stored character satisfies a predicate. -/
structure Over (P : Char → Prop) (editor : LineEditor) : Prop where
  before : ∀ c ∈ editor.before, P c
  after : ∀ c ∈ editor.after, P c
  killed : ∀ c ∈ editor.killed, P c
  history : ∀ line ∈ editor.history.lines, ∀ c ∈ line, P c

/-- What may be stored: a blank, what is typed, and what is completed. -/
structure Allows (P : Char → Prop) (getCompletion : Option GetCompletion) : Prop where
  blank : P nul
  typed : ∀ ch, MicrorlKey.ofByte ch = .other → isControlChar ch = false →
    P (Microrl.stored (charOfByte ch))
  completed : ∀ complete, getCompletion = some complete → ∀ argc argv complToken s,
    complete argc argv = .ok complToken → some s ∈ complToken → ∀ c ∈ s, P (Microrl.stored c)

/-- The characters of the line are among those of the editor. -/
theorem Over.line (h : editor.Over P) : ∀ c ∈ editor.line, P c :=
  List.forall_mem_append.mpr ⟨h.before, h.after⟩

/-- A line that the history gives back has only characters that were stored. -/
theorem forall_mem_lineAt {history : CommandHistory}
    (h : ∀ line ∈ history.lines, ∀ c ∈ line, P c) (up : Nat) : ∀ c ∈ history.lineAt up, P c := by
  rw [CommandHistory.lineAt]
  split
  · exact List.forall_mem_nil _
  · cases hline : history.lines[history.lines.length - up]? with
    | none => exact List.forall_mem_nil _
    | some line => exact h line (List.mem_of_getElem? hline)

/-- Saving a line adds only its own characters to the history. -/
theorem forall_mem_save {history : CommandHistory} {line : CString}
    (h : ∀ line ∈ history.lines, ∀ c ∈ line, P c) (hline : ∀ c ∈ line, P c) :
    ∀ line' ∈ (history.save line).lines, ∀ c ∈ line', P c := by
  rw [CommandHistory.save]
  split
  · exact h
  · intro line' hmem
    have hsuffix : newest CommandHistory.lineWeight (ringHistoryLen - 1) (history.lines ++ [line])
        <:+ history.lines ++ [line] := newest_isSuffix _ _
    obtain hold | hnew := List.mem_append.mp (hsuffix.subset hmem)
    · exact h line' hold
    · rw [List.mem_singleton.mp hnew]
      exact hline

/-- A byte and its character have the same code. -/
theorem toNat_charOfByte (ch : Byte) : (charOfByte ch).toNat = ch.toNat := by
  have hvalid : ch.toNat.isValidChar := .inl (by omega)
  rw [charOfByte, Char.ofNat, dif_pos hvalid]
  rfl

/-! ### What a key can do -/

/-- `editor'` comes from `editor` by editing: it only prints, keeps the callbacks, and adds no
character outside of `P`. -/
structure Edits (P : Char → Prop) (editor editor' : LineEditor) : Prop where
  calls : ∃ texts : List CString, editor'.calls = editor.calls ++ texts.map .print
  execute : editor'.execute = editor.execute
  getCompletion : editor'.getCompletion = editor.getCompletion
  chars : editor.Over P → editor'.Over P

/-- Doing nothing is an edit. -/
theorem Edits.refl (editor : LineEditor) : Edits P editor editor :=
  ⟨⟨[], (List.append_nil _).symm⟩, rfl, rfl, id⟩

/-- Edits compose. -/
theorem Edits.trans (h : Edits P editor editor') (h' : Edits P editor' editor'') :
    Edits P editor editor'' := by
  obtain ⟨texts, hcalls⟩ := h.calls
  obtain ⟨texts', hcalls'⟩ := h'.calls
  exact ⟨⟨texts ++ texts', by rw [hcalls', hcalls, List.map_append, List.append_assoc]⟩,
    h'.execute.trans h.execute, h'.getCompletion.trans h.getCompletion, h'.chars ∘ h.chars⟩

/-- Printing is an edit. -/
theorem edits_call (editor : LineEditor) (texts : List CString) :
    Edits P editor (editor.call (texts.map .print)) :=
  ⟨⟨texts, rfl⟩, rfl, rfl, fun h => ⟨h.before, h.after, h.killed, h.history⟩⟩

/-- `print` prints one text. -/
theorem edits_print (editor : LineEditor) (text : CString) : Edits P editor (editor.print text) :=
  edits_call editor [text]

/-- Redrawing the line prints only. -/
theorem edits_draw (editor : LineEditor) (pos : Nat) : Edits P editor (editor.draw pos) := by
  have h := edits_call (P := P) editor (Microrl.eraseText
    :: (editor.line.drop pos).map (fun c => [Microrl.shown c])
    ++ [Microrl.resetText, Microrl.moveText editor.before.length])
  rwa [List.map_append, List.map_cons, List.map_map] at h

/-- Another line, and perhaps another history. -/
theorem Edits.setText (h : Edits P editor editor') {before after killed : CString}
    {history : CommandHistory}
    (hover : editor.Over P →
      Over P { editor' with before := before, after := after, killed := killed,
                            history := history }) :
    Edits P editor
      { editor' with before := before, after := after, killed := killed, history := history } :=
  ⟨h.calls, h.execute, h.getCompletion, hover⟩

/-- Backspace takes a character away. -/
theorem edits_backspace (editor : LineEditor) : Edits P editor editor.backspace := by
  rw [backspace]
  split
  · exact .refl editor
  · exact (edits_print editor _).setText fun h =>
      ⟨fun c hc => h.before c (List.dropLast_subset _ hc), h.after,
        fun c hc => h.killed c (List.mem_of_mem_take hc), h.history⟩

/-- So do several, by induction on the rounds. -/
theorem edits_backspaceAll (rounds : Nat) :
    ∀ editor : LineEditor, Edits P editor (editor.backspaceAll rounds) := by
  induction rounds with
  | zero => exact .refl
  | succ rounds ih => exact fun editor => (edits_backspace editor).trans (ih editor.backspace)

/-- Killing drops what stands behind the cursor. -/
theorem edits_kill (editor : LineEditor) : Edits P editor editor.kill :=
  (edits_print editor Microrl.eraseText).setText fun h =>
    ⟨h.before, nofun, fun c hc => List.forall_mem_append.mpr ⟨h.after, h.killed⟩ c
      ((List.takeWhile_prefix _).subset hc), h.history⟩

/-- Moving the cursor to the right prints at most the escape sequence. -/
theorem edits_moveRight (editor : LineEditor) : Edits P editor editor.moveRight := by
  rw [moveRight]
  split
  · exact .refl editor
  · rename_i c after hafter
    refine (edits_print editor _).setText fun h => ?_
    obtain ⟨hc, hrest⟩ := List.forall_mem_cons.mp (hafter ▸ h.after)
    exact ⟨List.forall_mem_append.mpr ⟨h.before, List.forall_mem_singleton.mpr hc⟩, hrest,
      h.killed, h.history⟩

/-- Moving to the left likewise. -/
theorem edits_moveLeft (editor : LineEditor) : Edits P editor editor.moveLeft := by
  rw [moveLeft]
  split
  · exact .refl editor
  · rename_i c hlast
    exact (edits_print editor _).setText fun h =>
      ⟨fun c hc => h.before c (List.dropLast_subset _ hc),
        List.forall_mem_cons.mpr ⟨h.before c (List.mem_of_getLast? hlast), h.after⟩,
        h.killed, h.history⟩

/-- Home prints one escape sequence. -/
theorem edits_moveHome (editor : LineEditor) : Edits P editor editor.moveHome :=
  (edits_print editor Microrl.resetText).setText fun h => ⟨nofun, h.line, h.killed, h.history⟩

/-- End prints one escape sequence. -/
theorem edits_moveEnd (editor : LineEditor) : Edits P editor editor.moveEnd :=
  (edits_print editor _).setText fun h => ⟨h.line, nofun, h.killed, h.history⟩

/-- A line taken from the history replaces the line, with characters that were stored. -/
theorem edits_setLine (editor : LineEditor) (up : Nat) {history : CommandHistory}
    (hlines : history.lines = editor.history.lines) :
    Edits P editor (editor.setLine (editor.history.lineAt up) history) := by
  refine (Edits.trans ?_ (edits_print _ _)).trans (edits_draw _ 0)
  exact (Edits.refl editor).setText fun h =>
    ⟨forall_mem_lineAt h.history up, nofun, nofun, by rw [hlines]; exact h.history⟩

/-- Up takes an older line of the history. -/
theorem edits_historyUp (editor : LineEditor) : Edits P editor editor.historyUp := by
  rw [historyUp, CommandHistory.up]
  split
  · rename_i line history hup
    split at hup
    · cases hup
      exact edits_setLine editor _ rfl
    · cases hup
  · exact .refl editor

/-- Down takes a newer line, or the empty one. -/
theorem edits_historyDown (editor : LineEditor) : Edits P editor editor.historyDown :=
  edits_setLine editor _ rfl

/-- A text that fits is inserted, and one that does not fit is not. -/
theorem insertText_cases {text : CString} {len : Int} {inserted : Bool}
    (h : editor.insertText text len = .ok (inserted, editor')) :
    (inserted = false ∧ editor' = editor ∧ commandLineLen ≤ editor.line.length + len) ∨
      (inserted = true ∧ editor.line.length + len < commandLineLen ∧
        0 ≤ editor.before.length + len ∧ len.toNat ≤ text.length ∧
        editor' = { editor with
          before := editor.before.take (editor.before.length + len).toNat
            ++ (text.take len.toNat).map Microrl.stored
          killed := [] }) := by
  rw [insertText] at h
  -- The text fits or not. When it fits, neither the start nor the slice may be out of range.
  by_cases hfit : (editor.line.length : Int) + len < commandLineLen
  · simp only [if_pos hfit] at h
    by_cases hneg : (editor.before.length : Int) + len < 0
    · simp only [if_pos hneg] at h
      cases h
    · simp only [if_neg hneg] at h
      cases hslice : slice text 0 len.toNat with
      | none =>
          rw [hslice] at h
          cases h
      | some chars =>
          rw [hslice] at h
          cases h
          obtain ⟨hle, hchars⟩ := Option.ite_none_right_eq_some.mp hslice
          rw [Nat.zero_add] at hle
          obtain rfl : text.take len.toNat = chars := Option.some.inj hchars
          exact .inr ⟨rfl, hfit, Int.not_lt.mp hneg, hle, rfl⟩
  · simp only [if_neg hfit] at h
    cases h
    exact .inl ⟨rfl, rfl, Int.not_lt.mp hfit⟩

/-- A text that is inserted adds only its stored characters. -/
theorem edits_insertText {text : CString} {len : Int} {inserted : Bool}
    (htext : ∀ c ∈ text, P (Microrl.stored c))
    (h : editor.insertText text len = .ok (inserted, editor')) : Edits P editor editor' := by
  obtain ⟨-, rfl, -⟩ | ⟨-, -, -, -, rfl⟩ := insertText_cases h
  · exact .refl _
  · exact (Edits.refl editor).setText fun h =>
      ⟨List.forall_mem_append.mpr ⟨fun c hc => h.before c (List.mem_of_mem_take hc),
        List.forall_mem_map.mpr fun c hc => htext c (List.mem_of_mem_take hc)⟩,
        h.after, nofun, h.history⟩

/-- A key that is no control character inserts itself. -/
theorem edits_insert {ch : Byte}
    (hch : isControlChar ch = false → P (Microrl.stored (charOfByte ch)))
    (h : editor.insert ch = .ok editor') : Edits P editor editor' := by
  rw [insert] at h
  split at h
  · cases h
    exact .refl editor
  · rename_i htyped
    have hcontrol : isControlChar ch = false := by
      rw [Bool.not_eq_true, Bool.or_eq_false_iff] at htyped
      exact htyped.2
    obtain ⟨⟨inserted, next⟩, hinsert, hnext⟩ := bind_eq_ok.mp h
    have hedits : Edits P editor next :=
      edits_insertText (List.forall_mem_singleton.mpr (hch hcontrol)) hinsert
    cases inserted with
    | false =>
        cases hnext
        exact hedits
    | true =>
        cases hnext
        exact hedits.trans (edits_draw _ _)

/-! ### Completion -/

/-- Printing the completions is an edit. -/
theorem edits_printCompletions (editor : LineEditor) (first : CString) (more : List CString) :
    Edits P editor (editor.printCompletions first more) := by
  rw [printCompletions]
  split
  · exact .refl editor
  · have htexts : ((first :: more).flatMap fun s => [MicrorlCall.print s, .print " ".toList])
        = ((first :: more).flatMap fun s => [s, " ".toList]).map .print := by
      rw [List.map_flatMap]
      rfl
    rw [htexts]
    exact (((edits_print _ _).trans (edits_call _ _)).trans (edits_print _ _)).trans
      (edits_print _ _)

/-- What is inserted comes from the first completion. -/
theorem edits_insertCommon {word : Option CString} {first : CString} {more : List CString}
    (hblank : P nul) (hfirst : ∀ c ∈ first, P (Microrl.stored c))
    (h : editor.insertCommon word first more = .ok editor') : Edits P editor editor' := by
  rw [insertCommon] at h
  split at h
  · obtain ⟨word, -, h⟩ := bind_eq_ok.mp h
    obtain ⟨⟨inserted, next⟩, hinsert, hnext⟩ := bind_eq_ok.mp h
    have hedits : Edits P editor next :=
      edits_insertText (fun c hc => hfirst c (List.mem_of_mem_drop hc)) hinsert
    simp only at hnext
    split at hnext
    · obtain ⟨⟨inserted', next'⟩, hspace, hend⟩ := bind_eq_ok.mp hnext
      cases hend
      refine hedits.trans (edits_insertText (fun c hc => ?_) hspace)
      obtain rfl := List.mem_singleton.mp hc
      exact hblank
    · cases hnext
      exact hedits
  · cases h
    exact .refl editor

/-- An access that does not fault returns what was there. -/
theorem of_access {α : Type} {result : Option α} {a : α} (h : access result = .ok a) :
    result = some a := by
  cases result with
  | none => cases h
  | some b => exact congrArg some (Except.ok.inj h)

/-- A result without an error is not changed by renaming errors. -/
theorem of_mapError {φ ψ α : Type} {f : φ → ψ} {result : Except φ α} {a : α}
    (h : result.mapError f = .ok a) : result = .ok a := by
  cases result with
  | ok b => exact congrArg Except.ok (Except.ok.inj h)
  | error e => cases h

/-- The strings that the console reads are strings of the buffer. -/
theorem mem_of_stringsOf {complToken : CompletionBuffer} :
    ∀ {strings : List CString}, Microrl.stringsOf complToken = some strings →
      ∀ s ∈ strings, some s ∈ complToken := by
  induction complToken with
  | nil => exact nofun
  | cons entry complToken ih =>
      intro strings h s hs
      cases entry with
      | none =>
          cases h
          cases hs
      | some first =>
          obtain ⟨rest, hrest, rfl⟩ := Option.map_eq_some_iff.mp h
          obtain rfl | hmem := List.mem_cons.mp hs
          · exact List.mem_cons_self
          · exact List.mem_cons_of_mem _ (ih hrest s hmem)

/-- A completion inserts only characters of the callback's answer. -/
theorem edits_complete (hallows : Allows P editor.getCompletion)
    (h : editor.complete = .ok editor') : Edits P editor editor' := by
  rw [complete] at h
  cases hcompletion : editor.getCompletion with
  | none =>
      rw [hcompletion] at h
      cases h
      exact .refl editor
  | some getCompletion =>
      rw [hcompletion] at h
      obtain ⟨last, -, h⟩ := bind_eq_ok.mp h
      obtain ⟨⟨argc, argv⟩, -, h⟩ := bind_eq_ok.mp h
      obtain ⟨complToken, hcall, h⟩ := bind_eq_ok.mp h
      obtain ⟨strings, hstrings, h⟩ := bind_eq_ok.mp h
      cases strings with
      | nil =>
          cases h
          exact .refl editor
      | cons first more =>
          obtain ⟨next, hinsert, hend⟩ := bind_eq_ok.mp h
          cases hend
          have hfirst := mem_of_stringsOf (of_access hstrings) first List.mem_cons_self
          have hchars := hallows.completed _ hcompletion _ _ _ _ (of_mapError hcall) hfirst
          exact (((edits_printCompletions editor first more).trans
            (edits_insertCommon hallows.blank hchars hinsert)).trans (edits_print _ _)).trans
              (edits_draw _ _)

/-! ### Keys -/

/-- Any action but the submission of the line. -/
theorem edits_act {action : Action} (hallows : Allows P editor.getCompletion)
    (htyped : ∀ ch, action = .insert ch → isControlChar ch = false →
      P (Microrl.stored (charOfByte ch)))
    (hsubmit : action ≠ .submit) (h : editor.act action = .ok editor') :
    Edits P editor editor' := by
  -- One case per action: what it draws are prints, and the characters are those that were there.
  cases action with
  | insert ch => exact edits_insert (htyped ch rfl) h
  | backspace =>
      cases h
      exact (edits_backspace editor).trans (edits_draw _ _)
  | eraseToStart =>
      cases h
      exact (edits_backspaceAll _ editor).trans (edits_draw _ _)
  | kill =>
      cases h
      exact edits_kill editor
  | moveRight =>
      cases h
      exact edits_moveRight editor
  | moveLeft =>
      cases h
      exact edits_moveLeft editor
  | moveHome =>
      cases h
      exact edits_moveHome editor
  | moveEnd =>
      cases h
      exact edits_moveEnd editor
  | historyUp =>
      cases h
      exact edits_historyUp editor
  | historyDown =>
      cases h
      exact edits_historyDown editor
  | submit => exact absurd rfl hsubmit
  | complete => exact edits_complete hallows h
  | redraw =>
      cases h
      exact (((edits_print _ _).trans (edits_print _ _)).trans (edits_print _ _)).trans
        (edits_draw _ _)
  | nothing =>
      cases h
      exact .refl editor

/-- Submitting keeps the characters: the line is saved and emptied. -/
theorem over_submit (h : editor.Over P) : editor.submit.Over P := by
  refine ⟨nofun, nofun, nofun, ?_⟩
  show ∀ line ∈ (if editor.line = [] then editor.history
    else editor.history.save editor.line).lines, _
  split
  · exact h.history
  · exact forall_mem_save h.history h.line

/-- What the key of an action is. -/
theorem actionOfKey_cases (ch : Byte) :
    (actionOfKey ch = .submit ↔ MicrorlKey.ofByte ch = .cr) ∧
      (actionOfKey ch = .complete ↔ MicrorlKey.ofByte ch = .ht) ∧
      ∀ ch', actionOfKey ch = .insert ch' → ch' = ch ∧ MicrorlKey.ofByte ch = .other := by
  rw [actionOfKey]
  cases MicrorlKey.ofByte ch with
  | other => exact ⟨by simp, by simp, fun ch' h => ⟨(Action.insert.inj h).symm, rfl⟩⟩
  | _ => simp

/-- An escape sequence moves the cursor, or goes through the history. -/
theorem actionOfEscape_cases (escapeSeq : EscapeSeq) (c : Char) :
    ∃ escape escapeSeq' action, actionOfEscape escapeSeq c = (escape, escapeSeq', action) ∧
      action ≠ .submit ∧ action ≠ .complete ∧ ∀ ch, action ≠ .insert ch := by
  have hmem : (actionOfEscape escapeSeq c).2.2 ∈ [Action.nothing, .moveRight, .moveLeft, .moveHome,
      .moveEnd, .historyUp, .historyDown] := by
    rw [actionOfEscape.eq_def]
    cases escapeSeq <;> (repeat' split) <;> decide
  obtain ⟨escape, escapeSeq', action, hnext⟩ : ∃ escape escapeSeq' action,
      actionOfEscape escapeSeq c = (escape, escapeSeq', action) := ⟨_, _, _, rfl⟩
  rw [hnext] at hmem
  refine ⟨escape, escapeSeq', action, hnext, ?_, ?_, fun ch => ?_⟩ <;>
    (rintro rfl; simp at hmem)

/-- A key is an edit, or it is a CR outside of an escape sequence, which submits the line. -/
theorem step_cases (hallows : Allows P editor.getCompletion) {ch : Byte}
    (h : editor.step ch = .ok editor') :
    Edits P editor editor' ∨
      (editor.escape = false ∧ MicrorlKey.ofByte ch = .cr ∧ editor' = editor.submit) := by
  rw [step] at h
  split at h
  -- In an escape sequence no key submits the line or inserts a character.
  · obtain ⟨escape, escapeSeq, action, haction, hsubmit, -, hinsert⟩ :=
      actionOfEscape_cases editor.escapeSeq (charOfByte ch)
    simp only [haction] at h
    obtain ⟨next, hact, hend⟩ := bind_eq_ok.mp h
    cases hend
    have hedits : Edits P editor next :=
      edits_act hallows (fun ch' heq => absurd heq (hinsert ch')) hsubmit hact
    exact .inl ⟨hedits.calls, hedits.execute, hedits.getCompletion, fun hover =>
      have hnext := hedits.chars hover
      ⟨hnext.before, hnext.after, hnext.killed, hnext.history⟩⟩
  rename_i hescape
  rw [Bool.not_eq_true] at hescape
  obtain ⟨hsubmit, -, hinsert⟩ := actionOfKey_cases ch
  split at h
  -- ESC begins a sequence, and nothing else happens.
  · cases h
    exact .inl ⟨⟨[], (List.append_nil _).symm⟩, rfl, rfl, fun hover =>
      ⟨hover.before, hover.after, hover.killed, hover.history⟩⟩
  -- Of the other keys only CR submits the line.
  · by_cases hcr : MicrorlKey.ofByte ch = .cr
    · rw [hsubmit.mpr hcr] at h
      cases h
      exact .inr ⟨hescape, hcr, rfl⟩
    · refine .inl (edits_act hallows (fun ch' heq hcontrol => ?_) (mt hsubmit.mp hcr) h)
      obtain ⟨rfl, hother⟩ := hinsert ch' heq
      exact hallows.typed ch' hother hcontrol

/-- What holds of the characters of the line holds of those of its command. -/
theorem forall_mem_command (hover : editor.Over P) {word : CString}
    (hword : word ∈ editor.command) : ∀ c ∈ word, P c := by
  refine forall_mem_words (List.forall_mem_append.mpr ⟨hover.line, ?_⟩) hword
  split
  · exact hover.killed
  · exact List.forall_mem_nil _

/-! ### Faults -/

/-- Inserting a text from its start never reads behind its end. -/
theorem exists_insertText {text : CString} {len : Nat} (hlen : len ≤ text.length) :
    ∃ result, editor.insertText text len = .ok result := by
  have hslice : slice text 0 (len : Int).toNat = some (text.take len) := by
    rw [slice, Int.toNat_natCast, if_pos (by omega)]
    rfl
  have hpos : ¬ (editor.before.length : Int) + len < 0 := by omega
  rw [insertText]
  split
  · simp only [if_neg hpos, hslice, access_some, ok_bind]
    exact ⟨_, rfl⟩
  · exact ⟨_, rfl⟩

/-- Every action but the completion returns. -/
theorem exists_act {action : Action} (h : action ≠ .complete) :
    ∃ editor', editor.act action = .ok editor' := by
  cases action with
  | insert ch =>
      show ∃ editor', editor.insert ch = .ok editor'
      rw [insert]
      split
      · exact ⟨editor, rfl⟩
      · obtain ⟨⟨inserted, next⟩, hinsert⟩ :=
          @exists_insertText editor [charOfByte ch] 1 (Nat.le_refl 1)
        exact ⟨_, bind_eq_ok.mpr ⟨_, hinsert, rfl⟩⟩
  | complete => exact absurd rfl h
  | _ => exact ⟨_, rfl⟩

/-- Only a completion can have a fault. -/
theorem step_error_iff {ch : Byte} {e : MicrorlFault} :
    editor.step ch = .error e ↔
      editor.escape = false ∧ MicrorlKey.ofByte ch = .ht ∧ editor.complete = .error e := by
  rw [step]
  split
  · rename_i hescape
    obtain ⟨escape, escapeSeq, action, haction, -, hcomplete, -⟩ :=
      actionOfEscape_cases editor.escapeSeq (charOfByte ch)
    obtain ⟨next, hact⟩ := @exists_act editor _ hcomplete
    simp only [haction, hact, ok_bind, hescape]
    exact iff_of_false (by rintro ⟨⟩) (by rintro ⟨⟨⟩, -⟩)
  rename_i hescape
  rw [Bool.not_eq_true] at hescape
  have hcomplete := (actionOfKey_cases ch).2.1
  split
  · rename_i hesc
    rw [hesc]
    exact iff_of_false (by rintro ⟨⟩) (by rintro ⟨-, ⟨⟩, -⟩)
  · by_cases hht : MicrorlKey.ofByte ch = .ht
    · rw [hcomplete.mpr hht]
      exact ⟨fun h => ⟨hescape, hht, h⟩, fun h => h.2.2⟩
    · obtain ⟨next, hact⟩ := @exists_act editor _ (mt hcomplete.mp hht)
      rw [hact]
      exact iff_of_false (by rintro ⟨⟩) fun h => hht h.2.1

end LineEditor

namespace Microrl

open LineEditor

variable {microrl : Microrl} {editor editor' : LineEditor}

/-- A fault of the run is the fault of a completion. -/
theorem insertChars_error_iff (execute : Bool) (getCompletion : Option GetCompletion)
    (keys : List Byte) (e : MicrorlFault) :
    keys.foldlM microrlInsertChar (.begin execute getCompletion) = .error e ↔
      ∃ front ch rest editor, keys = front ++ ch :: rest ∧ MicrorlKey.ofByte ch = .ht ∧
        front.foldlM LineEditor.step (.start execute getCompletion) = .ok editor ∧
        editor.escape = false ∧ editor.complete = .error e := by
  rw [(insertChars_agree execute getCompletion keys).error_iff, foldlM_eq_error]
  constructor
  · rintro ⟨front, ch, rest, editor, hkeys, hfront, hstep⟩
    obtain ⟨hescape, hht, hcomplete⟩ := step_error_iff.mp hstep
    exact ⟨front, ch, rest, editor, hkeys, hht, hfront, hescape, hcomplete⟩
  · rintro ⟨front, ch, rest, editor, hkeys, hht, hfront, hescape, hcomplete⟩
    exact ⟨front, ch, rest, editor, hkeys, hfront, step_error_iff.mpr ⟨hescape, hht, hcomplete⟩⟩

/-- Without a TAB there is no fault. -/
theorem exists_insertChars (execute : Bool) (getCompletion : Option GetCompletion)
    {keys : List Byte} (htab : ∀ ch ∈ keys, MicrorlKey.ofByte ch ≠ .ht) :
    ∃ microrl, keys.foldlM microrlInsertChar (.begin execute getCompletion) = .ok microrl := by
  cases hrun : keys.foldlM microrlInsertChar (.begin execute getCompletion) with
  | ok microrl => exact ⟨microrl, rfl⟩
  | error e =>
      obtain ⟨front, ch, rest, -, rfl, hht, -⟩ :=
        (insertChars_error_iff execute getCompletion keys e).mp hrun
      exact absurd hht (htab ch (List.mem_append_right _ List.mem_cons_self))

/-! ### Commands -/

/-- The executed commands of two parts are those of the one followed by those of the other. -/
theorem executions_append (calls calls' : List MicrorlCall) :
    executions (calls ++ calls') = executions calls ++ executions calls' :=
  List.filterMap_append

/-- Printing executes nothing. -/
theorem executions_prints (texts : List CString) : executions (texts.map .print) = [] := by
  rw [executions, List.filterMap_map]
  exact List.filterMap_eq_nil_iff.mpr fun _ _ => rfl

/-- What the line editor may execute: some words that fit into the command line. -/
structure CommandWords (argv : List CString) : Prop where
  nonempty : argv ≠ []
  few : argv.length < commandTokenNmb
  fits : (argv.map fun word => word.length + 1).sum ≤ commandLineLen
  words : ∀ word ∈ argv, word ≠ [] ∧ nul ∉ word ∧ ' ' ∉ word

/-- A submitted line executes its words, when there are some and fewer than the token limit. -/
theorem executions_commandCalls (editor : LineEditor) :
    executions editor.commandCalls = [] ∨
      (executions editor.commandCalls = [editor.command] ∧ editor.command ≠ [] ∧
        editor.command.length < commandTokenNmb) := by
  rw [commandCalls]
  split
  · exact .inl rfl
  · rename_i hfew
    split
    · rename_i hexec
      rw [Bool.and_eq_true, decide_eq_true_iff] at hexec
      exact .inr ⟨rfl, hexec.1, Nat.lt_of_not_le hfew⟩
    · exact .inl rfl

/-- Submitting adds what the line executes. -/
theorem executions_submit (editor : LineEditor) :
    executions editor.submit.calls
      = executions editor.calls ++ executions editor.commandCalls := by
  show executions (((editor.calls ++ [.print endl]) ++ editor.commandCalls)
    ++ [.print promptDefault]) = _
  have hprint (text : CString) : executions [.print text] = [] := rfl
  rw [executions_append, executions_append, executions_append, hprint, hprint, List.append_nil,
    List.append_nil]

/-- The words of a represented line are command words, which fit into the command line together. -/
theorem Represents.commandWords (h : microrl.Represents editor)
    (hover : editor.Over (· ≠ ' ')) (hnonempty : editor.command ≠ [])
    (hfew : editor.command.length < commandTokenNmb) : CommandWords editor.command := by
  refine ⟨hnonempty, hfew, ?_, fun word hword => ?_⟩
  · obtain ⟨junk, hcells⟩ := h.cmdline.cells
    have hlength := h.cmdline.length
    rw [hcells, List.length_append, List.length_append, List.length_append,
      List.length_cons] at hlength
    refine (sum_length_words_le _ _).trans ?_
    rw [List.length_append, LineEditor.line, List.length_append]
    split
    · omega
    · rw [List.length_nil]
      omega
  · obtain ⟨hne, hsolid⟩ := mem_words hword
    refine ⟨hne, fun hnul => ?_, fun hspace => ?_⟩
    · have hblank := hsolid nul hnul
      cases hblank
    · exact forall_mem_command hover hword ' ' hspace rfl

/-- A character is never stored as a blank. -/
theorem stored_ne_space (c : Char) : stored c ≠ ' ' := by
  rw [stored]
  split
  · decide
  · assumption

/-- What is stored is never a blank, so any callback may complete. -/
theorem allows_ne_space (getCompletion : Option GetCompletion) :
    Allows (· ≠ ' ') getCompletion :=
  ⟨by decide, fun _ _ _ => stored_ne_space _, fun _ _ _ _ _ _ _ _ c _ => stored_ne_space c⟩

/-- A key executes the words of the line, if it is a CR. -/
theorem executions_step {ch : Byte} (h : editor.step ch = .ok editor') :
    ∃ new, executions editor'.calls = executions editor.calls ++ new ∧
      new.length ≤ [ch].countP (fun ch => MicrorlKey.ofByte ch = .cr) ∧
      ∀ argv ∈ new, argv = editor.command ∧ argv ≠ [] ∧ argv.length < commandTokenNmb := by
  obtain hedits | ⟨-, hcr, rfl⟩ := step_cases (allows_ne_space editor.getCompletion) h
  · obtain ⟨texts, hcalls⟩ := hedits.calls
    refine ⟨[], ?_, Nat.zero_le _, nofun⟩
    rw [hcalls, executions_append, executions_prints]
  · refine ⟨executions editor.commandCalls, executions_submit editor, ?_, ?_⟩
    · rw [List.countP_singleton, if_pos (decide_eq_true hcr)]
      obtain hnone | ⟨hone, -⟩ := executions_commandCalls editor
      · rw [hnone]
        exact Nat.zero_le _
      · rw [hone]
        exact Nat.le_refl _
    · obtain hnone | ⟨hone, hne, hfew⟩ := executions_commandCalls editor
      · rw [hnone]
        exact nofun
      · rw [hone]
        exact List.forall_mem_singleton.mpr ⟨rfl, hne, hfew⟩

/-- What holds in each state of a run. -/
structure Executes (microrl : Microrl) (editor : LineEditor) : Prop where
  represents : microrl.Represents editor
  chars : editor.Over (· ≠ ' ')
  commands : ∀ argv ∈ executions editor.calls, CommandWords argv

/-- One key keeps the executed commands of the C editor and of the line editor together. -/
theorem executes_step (ch : Byte) (h : Executes microrl editor) :
    Agree Executes (microrl.microrlInsertChar ch) (editor.step ch) := by
  refine ((microrlInsertChar_agree h.represents ch).and_right
    (Q := fun editor' => editor'.Over (· ≠ ' ') ∧
      ∀ argv ∈ executions editor'.calls, CommandWords argv) fun editor' hstep => ⟨?_, ?_⟩).mono
    fun _ _ h => ⟨h.1, h.2.1, h.2.2⟩
  · obtain hedits | ⟨-, -, rfl⟩ := step_cases (allows_ne_space editor.getCompletion) hstep
    · exact hedits.chars h.chars
    · exact over_submit h.chars
  · obtain ⟨new, hnew, -, hall⟩ := executions_step hstep
    rw [hnew]
    refine List.forall_mem_append.mpr ⟨h.commands, fun argv hargv => ?_⟩
    obtain ⟨rfl, hne, hfew⟩ := hall argv hargv
    exact h.represents.commandWords h.chars hne hfew

/-- Whatever keys come, each command that is executed is one to seven words without a blank, which
fit into the command line. Each one takes a CR of its own. -/
theorem executions_insertChars {execute : Bool} {getCompletion : Option GetCompletion}
    {keys : List Byte}
    (hrun : keys.foldlM microrlInsertChar (.begin execute getCompletion) = .ok microrl) :
    (∀ argv ∈ executions microrl.calls, CommandWords argv) ∧
      (executions microrl.calls).length
        ≤ keys.countP fun ch => MicrorlKey.ofByte ch = .cr := by
  have hstart : Executes (.begin execute getCompletion) (.start execute getCompletion) :=
    ⟨represents_begin execute getCompletion, ⟨nofun, nofun, nofun, nofun⟩, nofun⟩
  obtain ⟨editor, heditor, h⟩ :=
    (Agree.foldlM (fun _ _ ch h => executes_step ch h) keys _ _ hstart).exists_right hrun
  have hcalls : microrl.calls = editor.calls := h.represents.calls
  -- The count needs no invariant: a key executes at most one command, and only as a CR.
  have hcount : ∀ (keys : List Byte) {editor editor' : LineEditor},
      keys.foldlM LineEditor.step editor = .ok editor' →
      (executions editor'.calls).length ≤ (executions editor.calls).length
        + keys.countP fun ch => MicrorlKey.ofByte ch = .cr := by
    intro keys
    induction keys with
    | nil =>
        intro editor editor' hrun
        cases hrun
        exact Nat.le_refl _
    | cons ch keys ih =>
        intro editor editor' hrun
        rw [List.foldlM_cons] at hrun
        obtain ⟨next, hstep, hrest⟩ := bind_eq_ok.mp hrun
        obtain ⟨new, hnew, hlen, -⟩ := executions_step hstep
        have hle := ih hrest
        rw [hnew, List.length_append] at hle
        rw [← List.singleton_append, List.countP_append]
        omega
  refine ⟨hcalls ▸ h.commands, ?_⟩
  rw [hcalls]
  exact (hcount keys heditor).trans_eq (Nat.zero_add _)

/-- `help` and a CR. -/
def helpKeys : List Byte := [104, 101, 108, 112, 13]

/-- The keys of `help` and CR execute command words only. -/
theorem executions_insertChars_helpKeys :
    ∃ microrl, helpKeys.foldlM microrlInsertChar (.begin true none) = .ok microrl ∧
      ∀ argv ∈ executions microrl.calls, CommandWords argv := by
  obtain ⟨microrl, hrun⟩ := exists_insertChars true none (show ∀ ch ∈ helpKeys, _ by decide)
  exact ⟨microrl, hrun, (executions_insertChars hrun).1⟩

end Microrl

end C6021Light
