import Mathlib.Data.List.Basic
import Mathlib.Logic.Function.Basic

/-!
# `C6021Light.Lib.Terminal`: the last row of a terminal

A terminal reads characters. It writes them to its last row, or they are control characters: CR and
LF, and the sequences `ESC [ n C`, `ESC [ n D` and `ESC [ K`, which move the cursor to the right and
to the left, and erase from the cursor on. A LF starts a new row. The row has no end, so the
terminal is wide enough for what is written.

`Shows` says what the whole row is, and `StartsWith` what is in front of the cursor. The lemmas say
what a text does to them. A program that redraws a part of the row goes from `Shows` to `StartsWith`
and back with an erase.
-/

set_option autoImplicit false

/-- `ESC` and `[` were read, and the digits of a parameter. -/
inductive TerminalMode
  | ground
  | escape
  | control (param : Option Nat)
deriving DecidableEq, Repr

/-- A terminal with one row. The row has no right end. -/
structure Terminal where
  mode : TerminalMode := .ground
  row : Nat → Char := fun _ => ' '
  col : Nat := 0

namespace Terminal

/-- The start of an escape sequence. -/
abbrev esc : Char := Char.ofNat 27

/-- Carriage return. -/
abbrev cr : Char := Char.ofNat 13

/-- Line feed. -/
abbrev lf : Char := Char.ofNat 10

/-- A character that is written to the row. -/
def Printable (c : Char) : Prop := 32 ≤ c.toNat

/-- Whether a character is printable can be computed. -/
instance (c : Char) : Decidable (Printable c) := inferInstanceAs (Decidable (_ ≤ _))

/-- The end of a control sequence. -/
def control (t : Terminal) (param : Option Nat) (final : Char) : Terminal :=
  if final = 'C' then { t with mode := .ground, col := t.col + max 1 (param.getD 1) }
  else if final = 'D' then { t with mode := .ground, col := t.col - max 1 (param.getD 1) }
  else if final = 'K' ∧ param.getD 0 = 0 then
    { t with mode := .ground, row := fun i => if t.col ≤ i then ' ' else t.row i }
  else { t with mode := .ground }

/-- What a character does. A line feed starts an empty row. -/
def put (t : Terminal) (c : Char) : Terminal :=
  match t.mode with
  | .ground =>
      if Printable c then { t with row := Function.update t.row t.col c, col := t.col + 1 }
      else if c = esc then { t with mode := .escape }
      else if c = cr then { t with col := 0 }
      else if c = lf then { t with row := fun _ => ' ' }
      else t
  | .escape => if c = '[' then { t with mode := .control none } else { t with mode := .ground }
  | .control param =>
      if c.isDigit then
        { t with mode := .control (some (10 * param.getD 0 + (c.toNat - '0'.toNat))) }
      else t.control param c

/-- The characters of a text, one after the other. -/
def feed (t : Terminal) (text : List Char) : Terminal := text.foldl put t

/-- A text in two parts. -/
theorem feed_append (t : Terminal) (text text' : List Char) :
    t.feed (text ++ text') = (t.feed text).feed text' := List.foldl_append

/-- A text from its first character. -/
theorem feed_cons (t : Terminal) (c : Char) (text : List Char) :
    t.feed (c :: text) = (t.put c).feed text := rfl

variable {t : Terminal} {text : List Char} {col : Nat}

/-! ### Rows -/

/-- The row has the text, and blanks behind it. -/
structure Shows (t : Terminal) (text : List Char) (col : Nat) : Prop where
  mode : t.mode = .ground
  row : ∀ i, t.row i = text[i]?.getD ' '
  col : t.col = col

/-- The text is in front of the cursor. -/
structure StartsWith (t : Terminal) (text : List Char) : Prop where
  mode : t.mode = .ground
  row : ∀ i < text.length, t.row i = text[i]?.getD ' '
  col : t.col = text.length

/-- A row with the cursor inside the text starts with the part in front of it. -/
theorem Shows.startsWith (h : t.Shows text col) (hcol : col ≤ text.length) :
    t.StartsWith (text.take col) := by
  have hlen : (text.take col).length = col := List.length_take_of_le hcol
  refine ⟨h.mode, fun i hi => ?_, by rw [h.col, hlen]⟩
  rw [h.row, List.getElem?_take_of_lt (hlen ▸ hi)]

/-- A new terminal shows an empty row. -/
theorem shows_new : Shows {} [] 0 := ⟨rfl, fun _ => rfl, rfl⟩

/-! ### Characters -/

/-- A printable character goes to the row, and the cursor behind it. -/
theorem put_printable {c : Char} (hmode : t.mode = .ground) (hc : Printable c) :
    t.put c = { t with row := Function.update t.row t.col c, col := t.col + 1 } := by
  rw [put, hmode]
  exact if_pos hc

/-- A character behind the text. -/
theorem Shows.put {c : Char} (h : t.Shows text text.length) (hc : Printable c) :
    (t.put c).Shows (text ++ [c]) (text ++ [c]).length := by
  rw [put_printable h.mode hc]
  refine ⟨h.mode, fun i => ?_, by rw [List.length_append, ← h.col]; rfl⟩
  show Function.update t.row t.col c i = _
  rw [h.col]
  obtain hlt | rfl | hgt := Nat.lt_trichotomy i text.length
  · rw [Function.update_of_ne (Nat.ne_of_lt hlt), h.row, List.getElem?_append_left hlt]
  · rw [Function.update_self, List.getElem?_append_right (Nat.le_refl _), Nat.sub_self]
    rfl
  · rw [Function.update_of_ne (Nat.ne_of_gt hgt), h.row, List.getElem?_eq_none (by omega),
      List.getElem?_eq_none (by rw [List.length_append, List.length_singleton]; omega)]

/-- A text behind the text. -/
theorem Shows.feed {text' : List Char} (hprintable : ∀ c ∈ text', Printable c) :
    ∀ {t : Terminal} {text : List Char}, t.Shows text text.length →
      (t.feed text').Shows (text ++ text') (text ++ text').length := by
  induction text' with
  | nil =>
      intro t text h
      rw [List.append_nil]
      exact h
  | cons c text' ih =>
      intro t text h
      obtain ⟨hc, hrest⟩ := List.forall_mem_cons.mp hprintable
      have hnext := ih hrest (h.put hc)
      rwa [List.append_assoc, List.singleton_append] at hnext

/-- A new row. -/
theorem feed_newline (hmode : t.mode = .ground) : (t.feed [cr, lf]).Shows [] 0 := by
  have hcr : t.put cr = { t with col := 0 } := by
    rw [put, hmode]
    rfl
  have hlf : ({ t with col := 0 } : Terminal).put lf
      = { t with col := 0, row := fun _ => ' ' } := by
    rw [put]
    show (match t.mode with | _ => _) = _
    rw [hmode]
    rfl
  rw [feed_cons, hcr, feed_cons, hlf]
  exact ⟨hmode, fun _ => rfl, rfl⟩

/-! ### Control sequences -/

/-- `ESC`, `[`, a number and the end of the sequence. -/
def sequence (digits : List Char) (final : Char) : List Char := esc :: '[' :: (digits ++ [final])

/-- Digits make up the parameter. -/
theorem feed_digits {digits : List Char} (hdigits : ∀ c ∈ digits, c.isDigit = true) :
    ∀ {t : Terminal} {param : Nat}, t.mode = .control (some param) →
      t.feed digits = { t with mode := .control (some (Nat.ofDigitChars 10 digits param)) } := by
  induction digits with
  | nil =>
      intro t param hmode
      rw [Nat.ofDigitChars_nil, ← hmode]
      rfl
  | cons c digits ih =>
      intro t param hmode
      obtain ⟨hc, hrest⟩ := List.forall_mem_cons.mp hdigits
      have hput : t.put c
          = { t with mode := .control (some (10 * param + (c.toNat - '0'.toNat))) } := by
        rw [put, hmode]
        exact if_pos hc
      rw [feed_cons, hput, ih hrest rfl, Nat.ofDigitChars_cons]

/-- A control sequence starts with `ESC` and `[`. -/
theorem feed_escape (hmode : t.mode = .ground) (text : List Char) :
    t.feed (esc :: '[' :: text) = ({ t with mode := .control none } : Terminal).feed text := by
  have hesc : t.put esc = { t with mode := .escape } := by
    rw [put, hmode]
    rfl
  rw [feed_cons, hesc]
  rfl

/-- The end of a sequence. -/
theorem put_final {final : Char} (param : Option Nat) (hfinal : final.isDigit = false) :
    ({ t with mode := .control param } : Terminal).put final = t.control param final :=
  if_neg (by rw [hfinal]; exact Bool.false_ne_true)

/-- A sequence without a number. -/
theorem feed_sequence_nil {final : Char} (hmode : t.mode = .ground)
    (hfinal : final.isDigit = false) :
    t.feed (sequence [] final) = t.control none final := by
  rw [sequence, feed_escape hmode]
  exact put_final none hfinal

/-- A sequence with a number. -/
theorem feed_sequence {final : Char} (hmode : t.mode = .ground) (hfinal : final.isDigit = false)
    (n : Nat) : t.feed (sequence (Nat.toDigits 10 n) final) = t.control (some n) final := by
  obtain ⟨c, digits, hn⟩ := List.exists_cons_of_ne_nil (Nat.toDigits_ne_nil (n := n) (b := 10))
  have hdigits : ∀ d ∈ c :: digits, d.isDigit = true := fun d hd =>
    Nat.isDigit_of_mem_toDigits (n := n) (b := 10) (by decide) (by decide) (by rwa [hn])
  obtain ⟨hc, hrest⟩ := List.forall_mem_cons.mp hdigits
  have hput : ({ t with mode := .control none } : Terminal).put c
      = { t with mode := .control (some (10 * 0 + (c.toNat - '0'.toNat))) } := if_pos hc
  have hvalue : Nat.ofDigitChars 10 digits (10 * 0 + (c.toNat - '0'.toNat)) = n := by
    rw [← Nat.ofDigitChars_cons, ← hn, Nat.ofDigitChars_ten_toDigits]
  rw [hn, sequence, feed_escape hmode, List.cons_append, feed_cons, hput, feed_append,
    feed_digits hrest rfl, hvalue]
  exact put_final (some n) hfinal

/-! ### Moves -/

/-- The sequence with `C` moves the cursor to the right. -/
theorem Shows.right (h : t.Shows text col) {n : Nat} (hn : 0 < n) :
    (t.feed (sequence (Nat.toDigits 10 n) 'C')).Shows text (col + n) := by
  rw [feed_sequence h.mode rfl]
  exact ⟨rfl, h.row, by rw [← h.col]; exact congrArg (t.col + ·) (Nat.max_eq_right hn)⟩

/-- The sequence with `D` moves the cursor to the left. -/
theorem Shows.left (h : t.Shows text col) {n : Nat} (hn : 0 < n) :
    (t.feed (sequence (Nat.toDigits 10 n) 'D')).Shows text (col - n) := by
  rw [feed_sequence h.mode rfl]
  exact ⟨rfl, h.row, by rw [← h.col]; exact congrArg (t.col - ·) (Nat.max_eq_right hn)⟩

/-- One character back, and a blank on it. What is behind it does not matter. -/
theorem StartsWith.back {c : Char} (h : t.StartsWith (text ++ [c])) :
    (t.feed (sequence [] 'D' ++ ' ' :: sequence [] 'D')).StartsWith text := by
  have hcol : t.col - 1 = text.length := by
    rw [h.col, List.length_append]
    rfl
  rw [feed_append, feed_sequence_nil h.mode rfl, feed_cons, put_printable rfl (by decide),
    feed_sequence_nil rfl rfl]
  refine ⟨rfl, fun i hi => ?_, hcol⟩
  show Function.update t.row (t.col - 1) ' ' i = _
  rw [hcol, Function.update_of_ne (Nat.ne_of_lt hi),
    h.row i (by rw [List.length_append]; omega), List.getElem?_append_left hi]

/-- The sequence with `K` erases what is behind the cursor. -/
theorem StartsWith.erase (h : t.StartsWith text) :
    (t.feed (sequence [] 'K')).Shows text text.length := by
  rw [feed_sequence_nil h.mode rfl]
  refine ⟨rfl, fun i => ?_, h.col⟩
  show (if t.col ≤ i then ' ' else t.row i) = _
  rw [h.col]
  split
  · rename_i hle
    rw [List.getElem?_eq_none hle]
    rfl
  · rename_i hlt
    exact h.row i (Nat.lt_of_not_le hlt)

end Terminal
