import C6021Light.ConsoleTask
import C6021Light.Lib.Terminal
import C6021Light.Proofs.LineEditorRuns
import Mathlib.Data.Bool.AllAny

/-!
# `C6021Light.Proofs.ConsoleScreen`: what the user sees

The terminal reads what the line editor prints (`Lib.Terminal`). After each key its last row is the
prompt and the line, and the cursor is where the line editor has it (`screen_insertChars`). Blanks
of the line are shown as spaces.

`Draws` is a rule for one part of a function: from any terminal that satisfies the first condition,
what the part prints leads to a terminal that satisfies the second one. The commands may answer, as
long as they write whole rows.
-/

set_option autoImplicit false

namespace C6021Light

open LockStep

/-! ### What is sent -/

/-- Rows of printable characters, with their ends. -/
def WholeRows (reply : CString) : Prop :=
  ∃ rows : List CString, reply = rows.flatMap (· ++ [Terminal.cr, Terminal.lf]) ∧
    ∀ row ∈ rows, ∀ c ∈ row, Terminal.Printable c

/-- What is sent for a call. A command answers with whole rows. -/
def SendsCall : MicrorlCall → CString → Prop
  | .print text, sent => sent = serialText Terminal.cr text
  | .execute _, sent => WholeRows sent

/-- What is sent for a list of calls: the parts of the calls, one behind the other. -/
def Sends : List MicrorlCall → CString → Prop
  | [], sent => sent = []
  | call :: calls, sent => ∃ part rest, sent = part ++ rest ∧ SendsCall call part ∧ Sends calls rest

/-- What is sent for two lists of calls falls into two parts. -/
theorem sends_append {calls calls' : List MicrorlCall} :
    ∀ {sent : CString}, Sends (calls ++ calls') sent ↔
      ∃ first rest, sent = first ++ rest ∧ Sends calls first ∧ Sends calls' rest := by
  induction calls with
  | nil =>
      intro sent
      constructor
      · exact fun h => ⟨[], sent, rfl, rfl, h⟩
      · rintro ⟨_, rest, rfl, rfl, h⟩
        exact h
  | cons call calls ih =>
      intro sent
      constructor
      · rintro ⟨part, more, rfl, hpart, hmore⟩
        obtain ⟨first, rest, rfl, hfirst, hrest⟩ := ih.mp hmore
        exact ⟨part ++ first, rest, (List.append_assoc _ _ _).symm,
          ⟨part, first, rfl, hpart, hfirst⟩,
          hrest⟩
      · rintro ⟨_, rest, rfl, ⟨part, first, rfl, hpart, hfirst⟩, hrest⟩
        exact ⟨part, first ++ rest, List.append_assoc _ _ _, hpart,
          ih.mpr ⟨first, rest, rfl, hfirst,
          hrest⟩⟩

/-- What is sent for one call. -/
theorem sends_singleton {call : MicrorlCall} {sent : CString} :
    Sends [call] sent ↔ SendsCall call sent := by
  constructor
  · rintro ⟨part, _, rfl, hpart, rfl⟩
    rwa [List.append_nil]
  · exact fun h => ⟨sent, [], (List.append_nil _).symm, h, rfl⟩

/-- Text without a line end is sent as it is. -/
theorem serialText_of_ne {lineEnd : Char} {text : CString} (h : ∀ c ∈ text, c ≠ lineEnd) :
    serialText lineEnd text = text := by
  induction text with
  | nil => rfl
  | cons c text ih =>
      obtain ⟨hc, hrest⟩ := List.forall_mem_cons.mp h
      rw [serialText, List.flatMap_cons, if_neg hc]
      exact congrArg (c :: ·) (ih hrest)

/-- A CR is not printable. -/
theorem ne_cr_of_printable {c : Char} (hc : Terminal.Printable c) : c ≠ Terminal.cr := by
  rintro rfl
  exact absurd hc (by decide)

namespace LineEditor

open Microrl (shown)

/-! ### Rules -/

variable {editor editor' editor'' : LineEditor} {Q R S : Terminal → Prop}

/-- What was printed leads from one terminal to another one. -/
def Draws (Q : Terminal → Prop) (editor editor' : LineEditor) (R : Terminal → Prop) : Prop :=
  ∃ calls, editor'.calls = editor.calls ++ calls ∧
    ∀ sent, Sends calls sent → ∀ t, Q t → R (t.feed sent)

/-- Nothing printed leaves the terminal as it is. -/
theorem Draws.refl (editor : LineEditor) : Draws Q editor editor Q :=
  ⟨[], (List.append_nil _).symm, fun _ hsent _ h => hsent ▸ h⟩

/-- What is printed for two steps goes on the terminal in turn. -/
theorem Draws.trans (h : Draws Q editor editor' R) (h' : Draws R editor' editor'' S) :
    Draws Q editor editor'' S := by
  obtain ⟨calls, hcalls, hdraws⟩ := h
  obtain ⟨calls', hcalls', hdraws'⟩ := h'
  refine ⟨calls ++ calls', by rw [hcalls', hcalls, List.append_assoc], fun sent hsent t hq => ?_⟩
  obtain ⟨first, rest, rfl, hfirst, hrest⟩ := sends_append.mp hsent
  rw [Terminal.feed_append]
  exact hdraws' rest hrest _ (hdraws first hfirst t hq)

/-- The terminal afterwards may be described more weakly. -/
theorem Draws.imp (h : Draws Q editor editor' R) (himp : ∀ t, R t → S t) :
    Draws Q editor editor' S := by
  obtain ⟨calls, hcalls, hdraws⟩ := h
  exact ⟨calls, hcalls, fun sent hsent t hq => himp _ (hdraws sent hsent t hq)⟩

/-- The terminal before may be described more strongly. -/
theorem Draws.pre (h : Draws R editor editor' S) (hpre : ∀ t, Q t → R t) :
    Draws Q editor editor' S := by
  obtain ⟨calls, hcalls, hdraws⟩ := h
  exact ⟨calls, hcalls, fun sent hsent t hq => hdraws sent hsent t (hpre t hq)⟩

/-- Only what was printed counts. -/
theorem Draws.of_calls (h : Draws Q editor editor' R) (hcalls : editor''.calls = editor'.calls) :
    Draws Q editor editor'' R := by
  rwa [Draws, hcalls]

/-- A text without a CR. -/
theorem draws_print (editor : LineEditor) {text : CString} (hcr : ∀ c ∈ text, c ≠ Terminal.cr)
    (h : ∀ t, Q t → R (t.feed text)) : Draws Q editor (editor.print text) R := by
  refine ⟨[.print text], rfl, fun sent hsent t hq => ?_⟩
  rw [sends_singleton.mp hsent, serialText_of_ne hcr]
  exact h t hq

/-! ### Texts of the line editor -/

/-- The row has the prompt and a text behind it. -/
def Screen (text : CString) (cursor : Nat) (t : Terminal) : Prop :=
  t.Shows (promptDefault ++ text) (promptLen + cursor)

/-- The prompt and a text are in front of the cursor. -/
def Front (text : CString) (t : Terminal) : Prop := t.StartsWith (promptDefault ++ text)

variable {text text' : CString} {cursor : Nat}

/-- The cursor is behind the text. -/
theorem screen_length {t : Terminal} :
    Screen text text.length t ↔
      t.Shows (promptDefault ++ text) (promptDefault ++ text).length := by
  rw [List.length_append]
  exact Iff.rfl

/-- A screen with the cursor inside the text starts with the part in front of the cursor. -/
theorem Screen.front {t : Terminal} (h : Screen text cursor t) (hcursor : cursor ≤ text.length) :
    Front (text.take cursor) t := by
  have hle : promptLen + cursor ≤ (promptDefault ++ text).length := by
    rw [List.length_append]
    exact Nat.add_le_add_left hcursor promptLen
  have hstart := h.startsWith hle
  have htake : (promptDefault ++ text).take (promptLen + cursor)
      = promptDefault ++ text.take cursor := by
    have hlen : promptLen = promptDefault.length := rfl
    rw [hlen, List.take_length_add_append]
  rwa [htake] at hstart

/-- A control sequence holds no CR. -/
theorem ne_cr_control {digits : CString} {final : Char} (hdigits : ∀ c ∈ digits, c.isDigit = true)
    (hfinal : final ≠ Terminal.cr) : ∀ c ∈ Terminal.sequence digits final, c ≠ Terminal.cr := by
  refine List.forall_mem_cons.mpr ⟨by decide, List.forall_mem_cons.mpr ⟨by decide, ?_⟩⟩
  refine List.forall_mem_append.mpr ⟨?_, List.forall_mem_singleton.mpr hfinal⟩
  rintro c hc rfl
  cases hdigits _ hc

/-- The digits of a number are digits. -/
theorem isDigit_toDigits (n : Nat) : ∀ c ∈ Nat.toDigits 10 n, c.isDigit = true := fun _ hc =>
  Nat.isDigit_of_mem_toDigits (by decide) (by decide) hc

/-- A control sequence of the line editor is one of the terminal. -/
theorem controlSequence_decimal (n : Nat) (final : Char) :
    Microrl.controlSequence (Microrl.decimal n ++ [final])
      = Terminal.sequence (Nat.toDigits 10 n) final := by
  rw [Microrl.decimal, Nat.toString_eq_repr, Nat.toList_repr]
  rfl

/-- Erasing leaves the row with what is in front of the cursor. -/
theorem draws_erase (editor : LineEditor) :
    Draws (Front text) editor (editor.print Microrl.eraseText) (Screen text text.length) :=
  draws_print editor (@ne_cr_control [] _ nofun (by decide)) fun _ h => by
    have hshows := h.erase
    rw [List.length_append] at hshows
    exact hshows

/-- The backspace text takes one character from the front. -/
theorem draws_back (editor : LineEditor) {c : Char} :
    Draws (Front (text ++ [c])) editor (editor.print Microrl.backspaceText) (Front text) := by
  refine draws_print editor (List.all_iff_forall_prop.mp (by decide)) fun t h => ?_
  rw [Front, ← List.append_assoc] at h
  exact h.back

/-- The reset text moves the cursor behind the prompt. -/
theorem draws_reset (editor : LineEditor) (hcursor : cursor ≤ commandLineLen) :
    Draws (Screen text cursor) editor (editor.print Microrl.resetText) (Screen text 0) := by
  have htext : Microrl.resetText
      = Terminal.sequence (Nat.toDigits 10 (commandLineLen + promptLen + 2)) 'D'
        ++ Terminal.sequence (Nat.toDigits 10 promptLen) 'C' := by
    rw [← controlSequence_decimal, ← controlSequence_decimal]
    rfl
  rw [htext]
  refine draws_print editor ?_ fun t h => ?_
  · exact List.forall_mem_append.mpr ⟨ne_cr_control (isDigit_toDigits _) (by decide),
      ne_cr_control (isDigit_toDigits _) (by decide)⟩
  · rw [Terminal.feed_append]
    have hleft := h.left (n := commandLineLen + promptLen + 2) (by decide)
    have hzero : promptLen + cursor - (commandLineLen + promptLen + 2) = 0 := by omega
    rw [hzero] at hleft
    have hright := hleft.right (n := promptLen) (by decide)
    rwa [Nat.zero_add] at hright

/-- A move text moves the cursor by its offset. -/
theorem draws_move (editor : LineEditor) (offset : Int) (hpos : 0 ≤ cursor + offset) :
    Draws (Screen text cursor) editor (editor.print (Microrl.moveText offset))
      (Screen text (cursor + offset).toNat) := by
  rw [Microrl.moveText]
  split
  · rename_i hright
    have htext : Microrl.controlSequence (Microrl.decimal offset.toNat ++ "C".toList)
        = Terminal.sequence (Nat.toDigits 10 offset.toNat) 'C' := controlSequence_decimal _ 'C'
    rw [htext]
    refine draws_print editor (ne_cr_control (isDigit_toDigits _) (by decide)) fun t h => ?_
    have hmove := Terminal.Shows.right h (n := offset.toNat) (by omega)
    have hcol : promptLen + cursor + offset.toNat = promptLen + (cursor + offset).toNat := by omega
    rwa [hcol] at hmove
  · split
    · rename_i hleft
      have htext : Microrl.controlSequence (Microrl.decimal (-offset).toNat ++ "D".toList)
          = Terminal.sequence (Nat.toDigits 10 (-offset).toNat) 'D' := controlSequence_decimal _ 'D'
      rw [htext]
      refine draws_print editor (ne_cr_control (isDigit_toDigits _) (by decide)) fun t h => ?_
      have hmove := Terminal.Shows.left h (n := (-offset).toNat) (by omega)
      have hcol : promptLen + cursor - (-offset).toNat = promptLen + (cursor + offset).toNat := by
        omega
      rwa [hcol] at hmove
    · have hstays : (cursor + offset).toNat = cursor := by omega
      rw [hstays]
      exact draws_print editor nofun fun t h => h

/-- Characters behind the text, one call for each. -/
theorem draws_chars (chars : CString) (hprintable : ∀ c ∈ chars, Terminal.Printable (shown c)) :
    ∀ (editor : LineEditor) (text : CString),
      Draws (Screen text text.length) editor
        (editor.call (chars.map fun c => .print [shown c]))
        (Screen (text ++ chars.map shown) (text ++ chars.map shown).length) := by
  induction chars with
  | nil =>
      intro editor text
      rw [List.map_nil, List.map_nil, List.append_nil]
      exact ⟨[], rfl, fun _ hsent _ h => hsent ▸ h⟩
  | cons c chars ih =>
      intro editor text
      obtain ⟨hc, hrest⟩ := List.forall_mem_cons.mp hprintable
      have hfirst : Draws (Screen text text.length) editor (editor.print [shown c])
          (Screen (text ++ [shown c]) (text ++ [shown c]).length) := by
        refine draws_print editor (List.forall_mem_singleton.mpr (ne_cr_of_printable hc))
          fun t h => ?_
        have hput := (screen_length.mp h).put hc
        rw [List.append_assoc] at hput
        exact screen_length.mpr hput
      have hnext := hfirst.trans (ih hrest (editor.print [shown c]) (text ++ [shown c]))
      rw [List.append_assoc, List.singleton_append] at hnext
      refine hnext.of_calls ?_
      simp only [LineEditor.call, LineEditor.print, List.map_cons, List.append_assoc,
        List.singleton_append]

/-- A line end starts an empty row, outside of an escape sequence. -/
theorem draws_newline (editor : LineEditor) :
    Draws (·.mode = .ground) editor (editor.print Microrl.endl) (·.Shows [] 0) :=
  ⟨[.print Microrl.endl], rfl, fun sent hsent t h => by
    rw [sends_singleton.mp hsent]
    exact Terminal.feed_newline h⟩

/-- The prompt goes to an empty row. -/
theorem draws_prompt (editor : LineEditor) :
    Draws (·.Shows [] 0) editor (editor.print promptDefault) (Screen [] 0) :=
  draws_print editor (List.all_iff_forall_prop.mp (by decide)) fun t h => by
    have hprompt : ∀ c ∈ promptDefault, Terminal.Printable c :=
      List.all_iff_forall_prop.mp (by decide)
    have hshows := Terminal.Shows.feed hprompt h
    exact hshows

/-! ### The line on the screen -/

/-- The last row is the prompt and the line, with the cursor at its place. -/
abbrev OnScreen (editor : LineEditor) : Terminal → Prop :=
  Screen (editor.line.map shown) editor.before.length

/-- The prompt and the text in front of the cursor are in front of the terminal's cursor. -/
abbrev InFront (editor : LineEditor) : Terminal → Prop := Front (editor.before.map shown)

/-- With the line on the screen, the prompt and the text before the cursor are in front of it. -/
theorem OnScreen.inFront {t : Terminal} (h : editor.OnScreen t) : editor.InFront t := by
  have hfront := Screen.front h (by rw [List.length_map, line, List.length_append]; omega)
  rwa [← List.map_take, line, List.take_left] at hfront

/-- The line is drawn from a position on. -/
theorem draws_draw (hprintable : ∀ c ∈ editor.line, Terminal.Printable (shown c))
    (hlen : editor.line.length ≤ commandLineLen) {pos : Nat} :
    Draws (Front ((editor.line.take pos).map shown)) editor (editor.draw pos) editor.OnScreen := by
  have hchars := draws_chars (editor.line.drop pos)
    (fun c hc => hprintable c (List.mem_of_mem_drop hc)) (editor.print Microrl.eraseText)
    ((editor.line.take pos).map shown)
  rw [← List.map_append, List.take_append_drop] at hchars
  have hreset := (((draws_erase editor).trans hchars).trans
    (draws_reset _ (by rwa [List.length_map]))).trans
      (draws_move _ (editor.before.length : Int) (by omega))
  have hcursor : (((0 : Nat) : Int) + editor.before.length).toNat = editor.before.length := by omega
  rw [hcursor] at hreset
  refine hreset.of_calls ?_
  simp only [draw, drawCalls, LineEditor.call, LineEditor.print, List.append_assoc,
    List.cons_append,
    List.nil_append]

/-- The line is drawn from the cursor on. -/
theorem draws_drawCursor (hprintable : ∀ c ∈ editor.line, Terminal.Printable (shown c))
    (hlen : editor.line.length ≤ commandLineLen) :
    Draws editor.InFront editor (editor.draw editor.before.length) editor.OnScreen := by
  have hdraw := @draws_draw _ hprintable hlen editor.before.length
  rwa [line, List.take_left] at hdraw

/-- The prompt is at the start of the row. -/
def HasPrompt (t : Terminal) : Prop :=
  ∃ text cursor, cursor ≤ commandLineLen ∧ Screen text cursor t

/-- With the line on the screen, the prompt is at the start of the row. -/
theorem OnScreen.hasPrompt (hlen : editor.line.length ≤ commandLineLen) {t : Terminal}
    (h : editor.OnScreen t) : HasPrompt t := by
  rw [line, List.length_append] at hlen
  exact ⟨_, _, by omega, h⟩

/-- The cursor goes behind the prompt, and the line is drawn. -/
theorem draws_resetDraw (hprintable : ∀ c ∈ editor.line, Terminal.Printable (shown c))
    (hlen : editor.line.length ≤ commandLineLen) :
    Draws HasPrompt editor ((editor.print Microrl.resetText).draw 0) editor.OnScreen := by
  have hdraw : Draws (Front []) (editor.print Microrl.resetText)
      ((editor.print Microrl.resetText).draw 0) editor.OnScreen :=
    @draws_draw (editor.print Microrl.resetText) hprintable hlen 0
  refine Draws.trans ⟨[.print Microrl.resetText], rfl, ?_⟩ hdraw
  rintro sent hsent t ⟨text, cursor, hcursor, h⟩
  obtain ⟨calls, hcalls, hreset⟩ := @draws_reset text _ editor hcursor
  obtain rfl : [.print Microrl.resetText] = calls := List.append_cancel_left hcalls
  exact (hreset sent hsent t h).front (Nat.zero_le _)

/-- A backspace keeps what is in front of the cursor right. -/
theorem draws_backspace (editor : LineEditor) :
    Draws editor.InFront editor editor.backspace editor.backspace.InFront := by
  rw [backspace]
  rcases editor.before.eq_nil_or_concat with hnil | ⟨before, c, hbefore⟩
  · rw [if_pos hnil]
    exact .refl editor
  · rw [List.concat_eq_append] at hbefore
    rw [if_neg (by rw [hbefore]; simp), InFront, InFront, hbefore, List.dropLast_concat,
      List.map_append]
    exact (draws_back editor).of_calls rfl

/-- So do several, by induction on the rounds. -/
theorem draws_backspaceAll (rounds : Nat) :
    ∀ editor : LineEditor, Draws editor.InFront editor (editor.backspaceAll rounds)
      (editor.backspaceAll rounds).InFront := by
  induction rounds with
  | zero => exact fun editor => .refl editor
  | succ rounds ih => exact fun editor => (draws_backspace editor).trans (ih editor.backspace)

/-- As many rounds as there are characters empty the part before the cursor. -/
theorem before_backspaceAll (editor : LineEditor) :
    (editor.backspaceAll editor.before.length).before = [] := by
  suffices hlength : ∀ (rounds : Nat) (editor : LineEditor),
      (editor.backspaceAll rounds).before.length = editor.before.length - rounds from
    List.eq_nil_of_length_eq_zero ((hlength _ editor).trans (Nat.sub_self _))
  intro rounds
  induction rounds with
  | zero => exact fun editor => rfl
  | succ rounds ih =>
      intro editor
      have hback : editor.backspace.before.length = editor.before.length - 1 := by
        rw [backspace]
        split
        · rename_i hnil
          rw [hnil]
          rfl
        · exact List.length_dropLast
      rw [backspaceAll, ih, hback, Nat.sub_sub, Nat.add_comm]

/-- Killing the rest of the line erases it on the screen. -/
theorem draws_kill (editor : LineEditor) :
    Draws editor.OnScreen editor editor.kill editor.kill.OnScreen := by
  have herase : Draws editor.OnScreen editor (editor.print Microrl.eraseText)
      (Screen (editor.before.map shown) (editor.before.map shown).length) :=
    (draws_erase editor).pre fun _ h => h.inFront
  have hline : editor.kill.line = editor.before := List.append_nil _
  rw [List.length_map] at herase
  show Draws _ editor editor.kill (Screen (editor.kill.line.map shown) editor.before.length)
  rw [hline]
  exact herase.of_calls rfl

/-- A move within the line. -/
theorem draws_moveCursor (editor : LineEditor) {offset : Int}
    (hpos : 0 ≤ editor.before.length + offset)
    (hcalls : editor'.calls = (editor.print (Microrl.moveText offset)).calls)
    (hline : editor'.line = editor.line)
    (hbefore : (editor'.before.length : Int) = editor.before.length + offset) :
    Draws editor.OnScreen editor editor' editor'.OnScreen := by
  have hmove := @draws_move (editor.line.map shown) _ editor offset hpos
  rw [← hbefore, Int.toNat_natCast] at hmove
  rw [OnScreen, OnScreen, hline]
  exact hmove.of_calls hcalls

/-- Moving to the right moves the cursor on the screen. -/
theorem draws_moveRight (editor : LineEditor) :
    Draws editor.OnScreen editor editor.moveRight editor.moveRight.OnScreen := by
  cases hafter : editor.after with
  | nil =>
      have hsame : editor.moveRight = editor := by rw [moveRight, hafter]
      rw [hsame]
      exact .refl editor
  | cons c after =>
      rw [moveRight, hafter]
      refine @draws_moveCursor _ editor 1 (by omega) rfl ?_ ?_
      · show (editor.before ++ [c]) ++ after = editor.line
        rw [List.append_assoc, line, hafter]
        rfl
      · show ((editor.before ++ [c]).length : Int) = _
        rw [List.length_append]
        rfl

/-- Moving to the left moves the cursor on the screen. -/
theorem draws_moveLeft (editor : LineEditor) :
    Draws editor.OnScreen editor editor.moveLeft editor.moveLeft.OnScreen := by
  rcases editor.before.eq_nil_or_concat with hnil | ⟨before, c, hbefore⟩
  · have hsame : editor.moveLeft = editor := by rw [moveLeft, hnil]; rfl
    rw [hsame]
    exact .refl editor
  · rw [List.concat_eq_append] at hbefore
    have hlast : editor.before.getLast? = some c := by rw [hbefore, List.getLast?_concat]
    rw [moveLeft, hlast]
    have hlen : editor.before.length = before.length + 1 := by
      rw [hbefore, List.length_append]
      rfl
    refine @draws_moveCursor _ editor (-1) (by omega) rfl ?_ ?_
    · show editor.before.dropLast ++ c :: editor.after = editor.line
      rw [hbefore, List.dropLast_concat, line, hbefore, List.append_assoc]
      rfl
    · show (editor.before.dropLast.length : Int) = _
      rw [hbefore, List.dropLast_concat, ← hbefore]
      omega

/-- Home moves the cursor behind the prompt. -/
theorem draws_moveHome (hlen : editor.line.length ≤ commandLineLen) :
    Draws editor.OnScreen editor editor.moveHome editor.moveHome.OnScreen := by
  have hcursor : editor.before.length ≤ commandLineLen := by
    rw [line, List.length_append] at hlen
    omega
  exact (draws_reset editor hcursor).of_calls rfl

/-- End moves the cursor behind the line. -/
theorem draws_moveEnd (editor : LineEditor) :
    Draws editor.OnScreen editor editor.moveEnd editor.moveEnd.OnScreen := by
  refine @draws_moveCursor _ editor editor.after.length (by omega) rfl (List.append_nil _) ?_
  show (editor.line.length : Int) = _
  rw [line, List.length_append]
  exact Int.natCast_add _ _

/-- A line that replaces another one is drawn behind the prompt. -/
theorem draws_setLine {line : CString} (history : CommandHistory)
    (hprintable : ∀ c ∈ line, Terminal.Printable (shown c)) (hlen : line.length ≤ commandLineLen)
    (hlen' : editor.line.length ≤ commandLineLen) :
    Draws editor.OnScreen editor (editor.setLine line history)
      (editor.setLine line history).OnScreen := by
  let next : LineEditor :=
    { editor with before := line, after := [], killed := [], history := history }
  have hline : next.line = line := List.append_nil line
  have hdraw : Draws HasPrompt next ((next.print Microrl.resetText).draw 0) next.OnScreen :=
    draws_resetDraw (hline ▸ hprintable) (hline ▸ hlen)
  exact Draws.pre hdraw fun _ h => h.hasPrompt hlen'

/-- An inserted character is drawn with what stands behind it. -/
theorem draws_insert {ch : Byte} (hprintable : ∀ c ∈ editor'.line, Terminal.Printable (shown c))
    (hlen : editor'.line.length ≤ commandLineLen) (h : editor.insert ch = .ok editor') :
    Draws editor.OnScreen editor editor' editor'.OnScreen := by
  rw [insert] at h
  split at h
  · cases h
    exact .refl editor
  obtain ⟨⟨inserted, next⟩, hinsert, hnext⟩ := bind_eq_ok.mp h
  obtain ⟨rfl, rfl, -⟩ | ⟨rfl, -, -, -, heq⟩ := insertText_cases hinsert
  · cases hnext
    exact .refl _
  · cases hnext
    have hbefore : next.before = editor.before ++ [Microrl.stored (charOfByte ch)] := by
      rw [heq]
      exact congrArg (· ++ _) (List.take_of_length_le (by omega))
    have hcalls : next.calls = editor.calls := by rw [heq]
    have hfront : next.line.take (next.before.length - 1) = editor.before := by
      rw [line, hbefore, List.length_append, List.length_singleton, Nat.add_sub_cancel,
        List.append_assoc, List.take_left]
    have hdraw := @draws_draw next hprintable hlen (next.before.length - 1)
    rw [hfront] at hdraw
    rw [Draws, hcalls] at hdraw
    exact Draws.pre hdraw fun _ h => h.inFront

/-! ### Completion -/

/-- Printable characters at the end of a row. -/
def EndsRow (t : Terminal) : Prop := ∃ text, t.Shows text text.length

/-- Printable text extends a row at its end. -/
theorem draws_write (editor : LineEditor) {text : CString}
    (hprintable : ∀ c ∈ text, Terminal.Printable c) :
    Draws EndsRow editor (editor.print text) EndsRow :=
  draws_print editor (fun c hc => ne_cr_of_printable (hprintable c hc)) fun _ h => by
    obtain ⟨row, hrow⟩ := h
    exact ⟨row ++ text, hrow.feed hprintable⟩

/-- So do the strings of a completion, each with a space behind it. -/
theorem draws_strings (strings : List CString)
    (hprintable : ∀ s ∈ strings, ∀ c ∈ s, Terminal.Printable c) :
    ∀ editor : LineEditor, Draws EndsRow editor
      (editor.call (strings.flatMap fun s => [.print s, .print " ".toList])) EndsRow := by
  induction strings with
  | nil => exact fun editor => (Draws.refl editor).of_calls (List.append_nil _)
  | cons s strings ih =>
      intro editor
      obtain ⟨hs, hrest⟩ := List.forall_mem_cons.mp hprintable
      have hfirst := (draws_write editor hs).trans
        (@draws_write (editor.print s) " ".toList (List.all_iff_forall_prop.mp (by decide)))
      refine (hfirst.trans (ih hrest _)).of_calls ?_
      simp only [LineEditor.call, LineEditor.print, List.flatMap_cons, List.append_assoc,
        List.cons_append, List.nil_append]

/-- A line end and the prompt give a screen with an empty line. -/
theorem draws_freshPrompt (editor : LineEditor) :
    Draws (·.mode = .ground) editor ((editor.print Microrl.endl).print promptDefault)
      (Screen [] 0) :=
  (draws_newline editor).trans (draws_prompt _)

/-- Completions end with a prompt. -/
theorem draws_printCompletions (hlen : editor.line.length ≤ commandLineLen) {first : CString}
    {more : List CString} (hprintable : ∀ s ∈ first :: more, ∀ c ∈ s, Terminal.Printable c) :
    Draws editor.OnScreen editor (editor.printCompletions first more) HasPrompt := by
  rw [printCompletions]
  split
  · exact (Draws.refl editor).imp fun t h => h.hasPrompt hlen
  · have hnames := ((draws_newline editor).pre (Q := editor.OnScreen) fun _ h => h.mode).trans
      ((draws_strings (first :: more) hprintable (editor.print Microrl.endl)).pre
        fun _ h => ⟨[], h⟩)
    have hprompt := hnames.trans ((draws_freshPrompt _).pre fun _ h => h.elim fun _ h => h.mode)
    exact hprompt.imp fun t h => ⟨[], 0, Nat.zero_le _, h⟩

/-- An insertion prints nothing by itself. -/
theorem calls_insertCommon {word : Option CString} {first : CString} {more : List CString}
    (h : editor.insertCommon word first more = .ok editor') : editor'.calls = editor.calls := by
  have hinsert {text : CString} {len : Int} {inserted : Bool} {editor editor' : LineEditor}
      (h : editor.insertText text len = .ok (inserted, editor')) :
      editor'.calls = editor.calls := by
    obtain ⟨-, rfl, -⟩ | ⟨-, -, -, -, rfl⟩ := insertText_cases h <;> rfl
  rw [insertCommon] at h
  split at h
  · obtain ⟨word, -, h⟩ := bind_eq_ok.mp h
    obtain ⟨⟨inserted, next⟩, hfirst, h⟩ := bind_eq_ok.mp h
    simp only at h
    split at h
    · obtain ⟨⟨inserted', next'⟩, hspace, hend⟩ := bind_eq_ok.mp h
      cases hend
      exact (hinsert hspace).trans (hinsert hfirst)
    · cases h
      exact hinsert hfirst
  · cases h
    rfl

/-- The names of the completions can be shown. -/
def CompletesPrintable (getCompletion : Option GetCompletion) : Prop :=
  ∀ complete, getCompletion = some complete → ∀ argc argv complToken s,
    complete argc argv = .ok complToken → some s ∈ complToken → ∀ c ∈ s, Terminal.Printable c

/-- A completion leaves the line on the screen, also when it prints the possible words. -/
theorem draws_complete (hcompletion : CompletesPrintable editor.getCompletion)
    (hlen : editor.line.length ≤ commandLineLen)
    (hprintable : ∀ c ∈ editor'.line, Terminal.Printable (shown c))
    (hlen' : editor'.line.length ≤ commandLineLen) (h : editor.complete = .ok editor') :
    Draws editor.OnScreen editor editor' editor'.OnScreen := by
  rw [complete] at h
  cases hget : editor.getCompletion with
  | none =>
      rw [hget] at h
      cases h
      exact .refl editor
  | some getCompletion =>
      rw [hget] at h
      obtain ⟨last, -, h⟩ := bind_eq_ok.mp h
      obtain ⟨⟨argc, argv⟩, -, h⟩ := bind_eq_ok.mp h
      obtain ⟨complToken, hcall, h⟩ := bind_eq_ok.mp h
      obtain ⟨strings, hstrings, h⟩ := bind_eq_ok.mp h
      -- Without names the line is not drawn again.
      cases strings with
      | nil =>
          cases h
          exact .refl editor
      | cons first more =>
          obtain ⟨next, hinsert, hend⟩ := bind_eq_ok.mp h
          cases hend
          -- The names are printed in lines of their own, with a prompt behind them.
          have hnames : ∀ s ∈ first :: more, ∀ c ∈ s, Terminal.Printable c := fun s hs =>
            hcompletion getCompletion hget _ _ _ s (of_mapError hcall)
              (mem_of_stringsOf (of_access hstrings) s hs)
          have hprinted : Draws editor.OnScreen editor next HasPrompt :=
            (draws_printCompletions hlen hnames).of_calls (calls_insertCommon hinsert)
          exact hprinted.trans (draws_resetDraw hprintable hlen')

/-! ### Commands -/

/-- Whole rows lead from one empty row to another one. -/
theorem feed_wholeRows {reply : CString} (hreply : WholeRows reply) {t : Terminal}
    (h : t.Shows [] 0) : (t.feed reply).Shows [] 0 := by
  obtain ⟨rows, rfl, hrows⟩ := hreply
  -- The induction is on the rows. Each one begins in an empty row.
  induction rows generalizing t with
  | nil => exact h
  | cons row rows ih =>
      obtain ⟨hrow, hrest⟩ := List.forall_mem_cons.mp hrows
      rw [List.flatMap_cons, Terminal.feed_append, Terminal.feed_append]
      exact ih (Terminal.feed_newline (Terminal.Shows.feed hrow h).mode) hrest

/-- A command line is answered with whole rows. -/
theorem draws_commandCalls (editor editor' : LineEditor) :
    Draws (·.Shows [] 0) editor' (editor'.call editor.commandCalls) (·.Shows [] 0) := by
  rw [commandCalls]
  split
  -- The error text is a whole row, too.
  · have herror := (@draws_write editor' "ERROR:too many tokens".toList
        (List.all_iff_forall_prop.mp (by decide))).trans
      ((draws_newline _).pre fun _ h => h.elim fun _ h => h.mode)
    exact (herror.pre fun _ h => ⟨[], h⟩).of_calls (by
      simp only [LineEditor.call, LineEditor.print, List.append_assoc, List.cons_append,
        List.nil_append])
  · split
    · exact ⟨[.execute editor.command], rfl, fun sent hsent t h =>
        feed_wholeRows (sends_singleton.mp hsent) h⟩
    · exact (Draws.refl editor').of_calls (List.append_nil _)

/-- After a submitted line an empty line is on the screen. -/
theorem draws_submit (editor : LineEditor) :
    Draws editor.OnScreen editor editor.submit editor.submit.OnScreen :=
  (((draws_newline editor).pre fun _ h => h.mode).trans
    (draws_commandCalls editor (editor.print Microrl.endl))).trans (draws_prompt _)

/-! ### Keys -/

/-- Every action leaves the line on the screen. -/
theorem draws_act (hcompletion : CompletesPrintable editor.getCompletion)
    (hlen : editor.line.length < commandLineLen)
    (hover' : editor'.Over fun c => Terminal.Printable (shown c))
    (hlen' : editor'.line.length < commandLineLen) {action : Action}
    (h : editor.act action = .ok editor') :
    Draws editor.OnScreen editor editor' editor'.OnScreen := by
  cases action with
  | insert ch => exact draws_insert hover'.line hlen'.le h
  -- One character is erased on the screen, then the rest of the line is drawn from the cursor on.
  | backspace =>
      cases h
      exact ((draws_backspace editor).pre fun _ h => h.inFront).trans
        (@draws_drawCursor editor.backspace hover'.line hlen'.le)
  | eraseToStart =>
      cases h
      -- The cursor goes back to the prompt, then the rest of the line is drawn from there.
      have hback := (draws_backspaceAll editor.before.length editor).pre
        (Q := editor.OnScreen) fun _ h => h.inFront
      rw [InFront, before_backspaceAll] at hback
      exact hback.trans
        (@draws_draw (editor.backspaceAll editor.before.length) hover'.line hlen'.le 0)
  | kill =>
      cases h
      exact draws_kill editor
  | moveRight =>
      cases h
      exact draws_moveRight editor
  | moveLeft =>
      cases h
      exact draws_moveLeft editor
  | moveHome =>
      cases h
      exact draws_moveHome hlen.le
  | moveEnd =>
      cases h
      exact draws_moveEnd editor
  | historyUp =>
      cases h
      -- Above the oldest line the history stays where it is, and nothing is sent.
      rw [historyUp] at hover' hlen' ⊢
      cases hup : editor.history.up with
      | none => exact .refl editor
      | some next =>
          rw [hup] at hover' hlen'
          exact draws_setLine next.2 hover'.before
            (by rw [← List.append_nil next.1]; exact hlen'.le) hlen.le
  | historyDown =>
      cases h
      exact draws_setLine _ hover'.before
        (by rw [← List.append_nil editor.history.down.1]; exact hlen'.le) hlen.le
  | submit =>
      cases h
      exact draws_submit editor
  | complete => exact draws_complete hcompletion hlen.le hover'.line hlen'.le h
  | redraw =>
      cases h
      -- The prompt begins in a new row, and the line is drawn behind it.
      have hprompt := (draws_freshPrompt editor).pre (Q := editor.OnScreen) fun _ h => h.mode
      have hreset : Draws HasPrompt ((editor.print Microrl.endl).print promptDefault) _ _ :=
        @draws_resetDraw ((editor.print Microrl.endl).print promptDefault) hover'.line hlen'.le
      exact hprompt.trans (hreset.pre fun _ h => ⟨[], 0, Nat.zero_le _, h⟩)
  | nothing =>
      cases h
      exact .refl editor

/-- Every key leaves the line on the screen. -/
theorem draws_step (hcompletion : CompletesPrintable editor.getCompletion)
    (hlen : editor.line.length < commandLineLen)
    (hover' : editor'.Over fun c => Terminal.Printable (shown c))
    (hlen' : editor'.line.length < commandLineLen) {ch : Byte} (h : editor.step ch = .ok editor') :
    Draws editor.OnScreen editor editor' editor'.OnScreen := by
  rw [step] at h
  split at h
  · obtain ⟨escape, escapeSeq, action, haction, -⟩ :=
      actionOfEscape_cases editor.escapeSeq (charOfByte ch)
    simp only [haction] at h
    obtain ⟨next, hact, hend⟩ := bind_eq_ok.mp h
    cases hend
    have hnext : next.Over fun c => Terminal.Printable (shown c) :=
      ⟨hover'.before, hover'.after, hover'.killed, hover'.history⟩
    have hdraws : Draws editor.OnScreen editor next next.OnScreen :=
      draws_act hcompletion hlen hnext hlen' hact
    exact hdraws
  · split at h
    · cases h
      exact .refl editor
    · exact draws_act hcompletion hlen hover' hlen' h

/-! ### Characters of the line -/

/-- A stored character is shown as a printable one. -/
theorem printable_shown {c : Char} (h : c = nul ∨ Terminal.Printable c) :
    Terminal.Printable (shown c) := by
  rw [shown]
  split
  · decide
  · exact h.resolve_left ‹_›

/-- A printable character stays printable when it is stored and shown. -/
theorem printable_stored {c : Char} (h : Terminal.Printable c) :
    Terminal.Printable (shown (Microrl.stored c)) := by
  refine printable_shown ?_
  rw [Microrl.stored]
  split
  · exact .inl rfl
  · exact .inr h

/-- With printable completions only printable characters are stored. -/
theorem allows_printable {getCompletion : Option GetCompletion}
    (h : CompletesPrintable getCompletion) :
    Allows (fun c => Terminal.Printable (shown c)) getCompletion where
  blank := by decide
  typed ch _ hcontrol := by
    have hbig := of_decide_eq_false hcontrol
    refine printable_stored ?_
    rw [Terminal.Printable, toNat_charOfByte]
    omega
  completed complete hget argc argv complToken s hcall hs c hc :=
    printable_stored (h complete hget argc argv complToken s hcall hs c hc)

end LineEditor

namespace Microrl

open LineEditor

variable {microrl : Microrl} {editor : LineEditor}

/-- What the user sees of a line editor: the prompt, the line with spaces for its blanks, and the
cursor. -/
def Seen (microrl : Microrl) (t : Terminal) : Prop :=
  t.Shows (promptDefault ++ (microrl.cmdline.take microrl.cmdlen).map shown)
    (promptLen + microrl.cursor)

/-- The line on the screen is the line of the editor's buffer. -/
theorem Represents.seen (h : microrl.Represents editor) {t : Terminal}
    (hscreen : editor.OnScreen t) :
    microrl.Seen t := by
  obtain ⟨junk, hcells⟩ := h.cmdline.cells
  have hline : microrl.cmdline.take microrl.cmdlen = editor.line := by
    rw [h.cmdlen, hcells]
    exact List.take_left
  rw [Seen, hline, h.cursor]
  exact hscreen

/-- What holds along a run: the C editor is represented, its characters are printable, and its line
is on the screen. -/
structure Displays (microrl : Microrl) (editor : LineEditor) : Prop where
  represents : microrl.Represents editor
  completion : CompletesPrintable editor.getCompletion
  chars : editor.Over fun c => Terminal.Printable (shown c)
  screen : ∀ sent, Sends editor.calls sent → editor.OnScreen (Terminal.feed {} sent)

/-- One key keeps the line on the screen, and both editors fault on the same keys. -/
theorem displays_step (ch : Byte) (h : Displays microrl editor) :
    Agree Displays (microrl.microrlInsertChar ch) (editor.step ch) := by
  have hagree := microrlInsertChar_agree h.represents ch
  cases hstep : editor.step ch with
  | error e =>
      rw [hagree.error_iff.mpr hstep]
      exact .fault e
  | ok editor' =>
      obtain ⟨microrl', hconcrete, h'⟩ := hagree.exists_left hstep
      rw [hconcrete]
      have hover' : editor'.Over fun c => Terminal.Printable (shown c) := by
        obtain hedits | ⟨-, -, rfl⟩ := step_cases (allows_printable h.completion) hstep
        · exact hedits.chars h.chars
        · exact over_submit h.chars
      have hcompletion' : CompletesPrintable editor'.getCompletion := by
        obtain hedits | ⟨-, -, rfl⟩ := step_cases (allows_printable h.completion) hstep
        · exact hedits.getCompletion ▸ h.completion
        · exact h.completion
      refine .ok ⟨h', hcompletion', hover', fun sent hsent => ?_⟩
      obtain ⟨calls, hcalls, hdraws⟩ := draws_step h.completion h.represents.length_line_lt hover'
        h'.length_line_lt hstep
      rw [hcalls] at hsent
      obtain ⟨first, rest, rfl, hfirst, hrest⟩ := sends_append.mp hsent
      rw [Terminal.feed_append]
      exact hdraws rest hrest _ (h.screen first hfirst)

/-- Whatever keys come, the user sees the prompt and the line, and the cursor where it is. The
completions must be printable, and each command must answer with whole rows. -/
theorem seen_insertChars {execute : Bool} {getCompletion : Option GetCompletion}
    (hcompletion : CompletesPrintable getCompletion) {keys : List Byte}
    (hrun : keys.foldlM microrlInsertChar (.begin execute getCompletion) = .ok microrl)
    {sent : CString} (hsent : Sends microrl.calls sent) :
    microrl.Seen (Terminal.feed {} sent) := by
  have hstart : Displays (.begin execute getCompletion) (.start execute getCompletion) := by
    refine ⟨represents_begin execute getCompletion, hcompletion, ⟨nofun, nofun, nofun, nofun⟩, ?_⟩
    intro sent hsent
    obtain ⟨calls, hcalls, hdraws⟩ :=
      draws_prompt { execute := execute, getCompletion := getCompletion }
    obtain rfl : [.print promptDefault] = calls := List.append_cancel_left hcalls
    exact hdraws sent hsent _ Terminal.shows_new
  obtain ⟨editor, -, h⟩ :=
    (Agree.foldlM (fun _ _ ch h => displays_step ch h) keys _ _ hstart).exists_right hrun
  exact h.represents.seen (h.screen sent (h.represents.calls ▸ hsent))

end Microrl

end C6021Light
