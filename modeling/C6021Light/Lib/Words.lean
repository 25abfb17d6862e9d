import Mathlib

/-!
# `C6021Light.Lib.Words`: the words of a text

A text is a list, and some of its items are blank. The words of the text are its longest parts
without a blank, in their order. A reader of words skips the blanks (`words_append_blanks`), takes a
word, and goes on behind it (`words_word`, `words_word_append`).

`wordsWithTail` is about a text that goes on behind its end. A word that is open at the end of the
text goes on to the end of the tail.
-/

set_option autoImplicit false

namespace Words

variable {α : Type}

/-- The words of a text. -/
def words (blank : α → Bool) (text : List α) : List (List α) :=
  (text.splitOnP blank).filter (!·.isEmpty)

/-- Nothing in it is blank. -/
def Solid (blank : α → Bool) (text : List α) : Prop := ∀ a ∈ text, blank a = false

variable {blank : α → Bool} {text word blanks : List α} {a : α}

/-- A blank in front of a text does not count. -/
theorem words_blank_cons (ha : blank a = true) (text : List α) :
    words blank (a :: text) = words blank text := by
  rw [words, List.splitOnP_cons_eq_if_modifyHead, if_pos ha]
  rfl

/-- Blanks in front of a text do not count. -/
theorem words_append_blanks (hblanks : ∀ a ∈ blanks, blank a = true) (text : List α) :
    words blank (blanks ++ text) = words blank text := by
  induction blanks with
  | nil => rfl
  | cons a blanks ih =>
      rw [List.cons_append, words_blank_cons (hblanks a List.mem_cons_self),
        ih fun b hb => hblanks b (List.mem_cons_of_mem a hb)]

/-- A solid text is one word. -/
theorem words_word (hsolid : Solid blank word) (hword : word ≠ []) : words blank word = [word] := by
  rw [words, List.splitOnP_eq_singleton hsolid]
  rw [List.filter_cons_of_pos (by rw [List.isEmpty_eq_false_iff.mpr hword]; rfl), List.filter_nil]

/-- A solid part with a blank behind it is the first word. -/
theorem words_word_append (hsolid : Solid blank word) (hword : word ≠ []) (ha : blank a = true)
    (text : List α) : words blank (word ++ a :: text) = word :: words blank text := by
  rw [words, List.splitOnP_append_cons_of_forall_mem hsolid a ha, List.filter_cons_of_pos]
  · rfl
  · rw [List.isEmpty_eq_false_iff.mpr hword]
    rfl

/-- A text is blanks and a rest that does not start with a blank. -/
theorem exists_blanks (blank : α → Bool) (text : List α) :
    ∃ blanks rest, text = blanks ++ rest ∧ (∀ a ∈ blanks, blank a = true) ∧
      ∀ a ∈ rest.head?, blank a = false := by
  refine ⟨text.takeWhile blank, text.dropWhile blank, List.takeWhile_append_dropWhile.symm,
    List.all_eq_true.mp List.all_takeWhile, fun a ha => ?_⟩
  have hnot := List.head?_dropWhile_not blank text
  rw [ha] at hnot
  exact hnot

/-- A text is a part without a blank and a rest that starts with one. -/
theorem exists_word (blank : α → Bool) (text : List α) :
    ∃ word rest, text = word ++ rest ∧ Solid blank word ∧ ∀ a ∈ rest.head?, blank a = true := by
  obtain ⟨word, rest, htext, hword, hrest⟩ := exists_blanks (fun a => !blank a) text
  exact ⟨word, rest, htext, fun a ha => Bool.not_eq_true' _ ▸ hword a ha,
    fun a ha => Bool.not_eq_false' _ ▸ hrest a ha⟩

/-- The parts between blanks are solid. -/
theorem solid_of_mem_splitOnP (text : List α) :
    ∀ part ∈ text.splitOnP blank, Solid blank part := by
  induction text with
  | nil =>
      intro part hpart a ha
      rw [List.splitOnP_nil, List.mem_singleton] at hpart
      rw [hpart] at ha
      cases ha
  | cons b text ih =>
      rw [List.splitOnP_cons_eq_if_modifyHead]
      split
      · exact List.forall_mem_cons.mpr ⟨nofun, ih⟩
      · rename_i hb
        obtain ⟨first, rest, hsplit⟩ :=
          List.exists_cons_of_ne_nil (List.splitOnP_ne_nil blank text)
        rw [hsplit, List.forall_mem_cons] at ih
        rw [hsplit, List.modifyHead_cons, List.forall_mem_cons]
        exact ⟨List.forall_mem_cons.mpr ⟨Bool.eq_false_iff.mpr hb, ih.1⟩, ih.2⟩

/-- What holds of the text holds of its words. -/
theorem forall_mem_words {P : α → Prop} (htext : ∀ a ∈ text, P a) (h : word ∈ words blank text) :
    ∀ a ∈ word, P a := by
  have hparts : ∀ text : List α, (∀ a ∈ text, P a) → ∀ part ∈ text.splitOnP blank,
      ∀ a ∈ part, P a := by
    intro text
    induction text with
    | nil =>
        intro _ part hpart a ha
        rw [List.splitOnP_nil, List.mem_singleton] at hpart
        rw [hpart] at ha
        cases ha
    | cons b text ih =>
        intro htext
        obtain ⟨hb, hrest⟩ := List.forall_mem_cons.mp htext
        rw [List.splitOnP_cons_eq_if_modifyHead]
        split
        · exact List.forall_mem_cons.mpr ⟨nofun, ih hrest⟩
        · obtain ⟨first, rest, hsplit⟩ :=
            List.exists_cons_of_ne_nil (List.splitOnP_ne_nil blank text)
          have hall := ih hrest
          rw [hsplit, List.forall_mem_cons] at hall
          rw [hsplit, List.modifyHead_cons, List.forall_mem_cons]
          exact ⟨List.forall_mem_cons.mpr ⟨hb, hall.1⟩, hall.2⟩
  exact hparts text htext word (List.mem_filter.mp h).1

/-- A word is not empty and holds no blank. -/
theorem mem_words (h : word ∈ words blank text) : word ≠ [] ∧ Solid blank word := by
  obtain ⟨hmem, hne⟩ := List.mem_filter.mp h
  refine ⟨fun hnil => ?_, solid_of_mem_splitOnP text word hmem⟩
  rw [hnil] at hne
  cases hne

/-- There is a place for the words in the text, each with one blank behind it but the last one. -/
theorem sum_length_words_le (blank : α → Bool) (text : List α) :
    ((words blank text).map fun word => word.length + 1).sum ≤ text.length + 1 := by
  have hparts : ∀ text : List α,
      ((text.splitOnP blank).map fun part => part.length + 1).sum = text.length + 1 := by
    intro text
    induction text with
    | nil => rfl
    | cons a text ih =>
        rw [List.splitOnP_cons_eq_if_modifyHead]
        split
        · rw [List.map_cons, List.sum_cons, ih, List.length_cons, List.length_nil]
          omega
        · obtain ⟨first, rest, hsplit⟩ :=
            List.exists_cons_of_ne_nil (List.splitOnP_ne_nil blank text)
          rw [hsplit, List.map_cons, List.sum_cons] at ih
          rw [hsplit, List.modifyHead_cons, List.map_cons, List.sum_cons, List.length_cons,
            List.length_cons]
          omega
  rw [← hparts text]
  exact (List.filter_sublist.map _).sum_le_sum fun _ _ => Nat.zero_le _

/-- Words of an image, where the map keeps the blanks apart. -/
theorem words_map {β : Type} {f : α → β} {blank' : β → Bool} :
    ∀ {text : List α}, (∀ a ∈ text, blank' (f a) = blank a) →
      words blank' (text.map f) = (words blank text).map (List.map f) := by
  suffices hparts : ∀ text : List α, (∀ a ∈ text, blank' (f a) = blank a) →
      (text.map f).splitOnP blank' = (text.splitOnP blank).map (List.map f) by
    intro text htext
    rw [words, words, hparts text htext, List.filter_map]
    congr 2
    funext part
    cases part <;> rfl
  intro text
  induction text with
  | nil => exact fun _ => rfl
  | cons a text ih =>
      intro htext
      obtain ⟨ha, hrest⟩ := List.forall_mem_cons.mp htext
      rw [List.map_cons, List.splitOnP_cons_eq_if_modifyHead, List.splitOnP_cons_eq_if_modifyHead,
        ha, ih hrest]
      split
      · rfl
      · obtain ⟨first, rest, hsplit⟩ :=
          List.exists_cons_of_ne_nil (List.splitOnP_ne_nil blank text)
        rw [hsplit]
        rfl

/-! ### Words that go on behind the text -/

/-- The text ends within a word. -/
def endsOpen (blank : α → Bool) (text : List α) : Bool := text.getLast?.any (!blank ·)

/-- The words of a text, the last one with the tail when the text ends within it. -/
def wordsWithTail (blank : α → Bool) (text tail : List α) : List (List α) :=
  words blank (text ++ if endsOpen blank text then tail else [])

/-- Without a tail the words are those of the text. -/
theorem wordsWithTail_nil_right (text : List α) :
    wordsWithTail blank text [] = words blank text := by
  rw [wordsWithTail, ite_self, List.append_nil]

/-- Blanks do not end within a word. -/
theorem endsOpen_of_blanks (hblanks : ∀ a ∈ blanks, blank a = true) :
    endsOpen blank blanks = false := by
  rw [endsOpen]
  cases hlast : blanks.getLast? with
  | none => rfl
  | some a =>
      rw [Option.any_some, hblanks a (List.mem_of_getLast? hlast)]
      rfl

/-- How a text ends depends on its last part. -/
theorem endsOpen_append (front : List α) (htext : text ≠ []) :
    endsOpen blank (front ++ text) = endsOpen blank text := by
  rw [endsOpen, endsOpen, List.getLast?_append_of_ne_nil front htext]

/-- A solid text ends within its word. -/
theorem endsOpen_of_solid (hsolid : Solid blank text) (htext : text ≠ []) :
    endsOpen blank text = true := by
  rw [endsOpen, List.getLast?_eq_getLast_of_ne_nil htext, Option.any_some,
    hsolid _ (List.getLast_mem htext)]
  rfl

/-- Blanks hold no word. -/
theorem words_blanks (hblanks : ∀ a ∈ blanks, blank a = true) : words blank blanks = [] := by
  rw [← List.append_nil blanks, words_append_blanks hblanks]
  rfl

/-- Blanks behind a word do not count. -/
theorem words_word_blanks (hsolid : Solid blank word) (hword : word ≠ [])
    (hblanks : ∀ a ∈ blanks, blank a = true) : words blank (word ++ blanks) = [word] := by
  cases blanks with
  | nil =>
      rw [List.append_nil]
      exact words_word hsolid hword
  | cons a blanks =>
      obtain ⟨ha, hrest⟩ := List.forall_mem_cons.mp hblanks
      rw [words_word_append hsolid hword ha, words_blanks hrest]

/-- Words do not go on behind a blank. -/
theorem words_append {front : List α} (hfront : endsOpen blank front = false) (text : List α) :
    words blank (front ++ text) = words blank front ++ words blank text := by
  rcases front.eq_nil_or_concat with rfl | ⟨rest, a, rfl⟩
  · rfl
  · rw [List.concat_eq_append] at hfront ⊢
    have ha : blank a = true := by
      rw [endsOpen, List.getLast?_concat, Option.any_some, Bool.not_eq_false'] at hfront
      exact hfront
    have hsplit (text : List α) :
        words blank (rest ++ a :: text) = words blank rest ++ words blank text := by
      rw [words, List.splitOnP_append_cons rest text ha, List.filter_append]
      rfl
    rw [List.append_assoc, List.singleton_append, hsplit text, hsplit []]
    exact congrArg (· ++ words blank text) (List.append_nil _).symm

/-- The part of a text behind its last blank. -/
theorem exists_lastWord (blank : α → Bool) (text : List α) :
    ∃ front word, text = front ++ word ∧ endsOpen blank front = false ∧ Solid blank word := by
  obtain ⟨rest, blanks, htext, hrest, hblanks⟩ := exists_word blank text.reverse
  refine ⟨blanks.reverse, rest.reverse, ?_, ?_, fun a ha => hrest a (List.mem_reverse.mp ha)⟩
  · rw [← List.reverse_append, ← htext, List.reverse_reverse]
  · rw [endsOpen, List.getLast?_reverse]
    cases hhead : blanks.head? with
    | none => rfl
    | some a =>
        rw [Option.any_some, hblanks a hhead]
        rfl

/-- Blanks do not take the tail. -/
theorem wordsWithTail_blanks (hblanks : ∀ a ∈ blanks, blank a = true) (tail : List α) :
    wordsWithTail blank blanks tail = [] := by
  rw [wordsWithTail, endsOpen_of_blanks hblanks, words_append_blanks hblanks]
  rfl

/-- Blanks in front of a text do not count. -/
theorem wordsWithTail_blanks_append (hblanks : ∀ a ∈ blanks, blank a = true) (htext : text ≠ [])
    (tail : List α) :
    wordsWithTail blank (blanks ++ text) tail = wordsWithTail blank text tail := by
  rw [wordsWithTail, endsOpen_append blanks htext, List.append_assoc, words_append_blanks hblanks]
  rfl

/-- One word, which is open. -/
theorem wordsWithTail_word {tail : List α} (hsolid : Solid blank word) (hword : word ≠ [])
    (htail : Solid blank tail) : wordsWithTail blank word tail = [word ++ tail] := by
  rw [wordsWithTail, endsOpen_of_solid hsolid hword, if_pos rfl]
  exact words_word (List.forall_mem_append.mpr ⟨hsolid, htail⟩)
    (List.append_ne_nil_of_left_ne_nil hword tail)

/-- The first word does not take the tail when a blank is behind it. -/
theorem wordsWithTail_word_append (hsolid : Solid blank word) (hword : word ≠ [])
    (ha : blank a = true) (text tail : List α) :
    wordsWithTail blank (word ++ a :: text) tail
      = word :: wordsWithTail blank (a :: text) tail := by
  rw [wordsWithTail, endsOpen_append word (List.cons_ne_nil a text), List.append_assoc,
    List.cons_append, words_word_append hsolid hword ha, wordsWithTail, List.cons_append,
    words_blank_cons ha]

/-! ### The word at the end -/

/-- The words of a text, with an empty one behind a blank. -/
def wordsToEnd (blank : α → Bool) (text : List α) : List (List α) :=
  if endsOpen blank text then words blank text else words blank text ++ [[]]

/-- The last word is the part behind the last blank. -/
theorem wordsToEnd_append {front : List α} (hfront : endsOpen blank front = false)
    (hword : Solid blank word) :
    wordsToEnd blank (front ++ word) = words blank front ++ [word] := by
  cases word with
  | nil => rw [List.append_nil, wordsToEnd, hfront, if_neg Bool.false_ne_true]
  | cons a word =>
      have hne : a :: word ≠ [] := List.cons_ne_nil a word
      rw [wordsToEnd, endsOpen_append front hne, endsOpen_of_solid hword hne, if_pos rfl,
        words_append hfront, words_word hword hne]

/-- The words are solid, and so is the empty one. -/
theorem solid_of_mem_wordsToEnd (h : word ∈ wordsToEnd blank text) : Solid blank word := by
  rw [wordsToEnd] at h
  split at h
  · exact (mem_words h).2
  · obtain h | h := List.mem_append.mp h
    · exact (mem_words h).2
    · rw [List.mem_singleton.mp h]
      exact nofun

/-- Blanks in front of a text do not count. -/
theorem wordsToEnd_dropWhile (text : List α) :
    wordsToEnd blank (text.dropWhile blank) = wordsToEnd blank text := by
  have hblanks : ∀ a ∈ text.takeWhile blank, blank a = true := fun a ha =>
    List.all_eq_true.mp List.all_takeWhile a ha
  obtain ⟨front, word, hrest, hfront, hword⟩ := exists_lastWord blank (text.dropWhile blank)
  have htext : text = (text.takeWhile blank ++ front) ++ word := by
    rw [List.append_assoc, ← hrest, List.takeWhile_append_dropWhile]
  have hfront' : endsOpen blank (text.takeWhile blank ++ front) = false := by
    cases front with
    | nil =>
        rw [List.append_nil]
        exact endsOpen_of_blanks hblanks
    | cons a front => rwa [endsOpen_append _ (List.cons_ne_nil a front)]
  rw [hrest, wordsToEnd_append hfront hword]
  rw [htext, wordsToEnd_append hfront' hword, words_append_blanks hblanks]

/-- Words of an image, where the map keeps the blanks apart. -/
theorem wordsToEnd_map {β : Type} {f : α → β} {blank' : β → Bool}
    (htext : ∀ a ∈ text, blank' (f a) = blank a) :
    wordsToEnd blank' (text.map f) = (wordsToEnd blank text).map (List.map f) := by
  have hopen : endsOpen blank' (text.map f) = endsOpen blank text := by
    rw [endsOpen, endsOpen, List.getLast?_map]
    cases hlast : text.getLast? with
    | none => rfl
    | some a =>
        rw [Option.map_some, Option.any_some, Option.any_some, htext a (List.mem_of_getLast? hlast)]
  rw [wordsToEnd, wordsToEnd, hopen, words_map htext]
  split
  · rfl
  · rw [List.map_append]
    rfl

end Words
