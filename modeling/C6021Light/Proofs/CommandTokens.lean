import C6021Light.Proofs.HistoryRing

/-!
# `C6021Light.Proofs.CommandTokens`: the tokens of the command line

`split` finds the words of the text in front of its limit (`split_eq`). The string of a token ends
at a NUL, so a word that is open at the limit goes on behind it, in whatever the array has there.
With the eighth word it gives up.
-/

set_option autoImplicit false

namespace C6021Light

open CheckedArray Words

namespace Microrl

/-! ### The inner loops -/

/-- The loop stops at the limit, or at the first character that does not satisfy the condition. -/
theorem skipWhile_eq {cond : Char → Bool} {run : CString} (hrun : ∀ c ∈ run, cond c = true)
    {text rest : CString} (htext : ∀ c ∈ text.head?, cond c = false) (hrest : rest ≠ []) :
    ∀ front : CString, skipWhile cond (front ++ (run ++ text) ++ rest) (run ++ text).length
      front.length = .ok (front ++ run).length := by
  -- The induction is on the characters that satisfy the condition, with those in front of them.
  induction run with
  | nil =>
      intro front
      rw [List.append_nil, List.nil_append]
      cases text with
      | nil =>
          obtain ⟨c, rest, rfl⟩ := List.exists_cons_of_ne_nil hrest
          have hget : (front ++ [] ++ c :: rest)[front.length]? = some c := by
            rw [List.append_nil, List.getElem?_append_right (Nat.le_refl _), Nat.sub_self]
            rfl
          rw [List.length_nil, skipWhile, hget]
          rfl
      -- The first character behind the run ends the loop.
      | cons c text =>
          have hget : (front ++ c :: text ++ rest)[front.length]? = some c := by
            rw [List.append_assoc, List.getElem?_append_right (Nat.le_refl _), Nat.sub_self]
            rfl
          rw [List.length_cons, skipWhile, hget, access_some, ok_bind, htext c rfl]
          rfl
  | cons c run ih =>
      intro front
      obtain ⟨hc, hrun'⟩ := List.forall_mem_cons.mp hrun
      have hget : (front ++ (c :: run ++ text) ++ rest)[front.length]? = some c := by
        rw [List.append_assoc, List.getElem?_append_right (Nat.le_refl _), Nat.sub_self]
        rfl
      rw [List.cons_append, List.length_cons, skipWhile]
      rw [List.cons_append] at hget
      rw [hget, access_some, ok_bind, hc, if_pos rfl]
      have hnext := ih hrun' (front ++ [c])
      rwa [List.append_assoc front [c] (run ++ text), List.append_assoc front [c] run,
        List.singleton_append, List.singleton_append, @List.length_append _ _ [c],
        List.length_singleton] at hnext

/-- The string of a token. -/
theorem untilMark_drop {front token : CString} (rest : CString) (htoken : Solid isBlank token) :
    untilMark nul ((front ++ (token ++ nul :: rest)).drop front.length) = some token := by
  rw [List.drop_left]
  refine untilMark_append (fun hmem => ?_) rest
  have hsolid := htoken nul hmem
  cases hsolid

/-! ### The outer loop -/

/-- What the loop returns with the words of the text. -/
def splitResult (tknArr words : List CString) : Int × List CString :=
  if tknArr.length + words.length < commandTokenNmb then
    ((tknArr ++ words).length, tknArr ++ words)
  else (-1, (tknArr ++ words).take commandTokenNmb)

/-- A word that was taken is the next one of the words. -/
theorem splitResult_append (tknArr : List CString) (word : CString) (words : List CString) :
    splitResult (tknArr ++ [word]) words = splitResult tknArr (word :: words) := by
  have hlen : (tknArr ++ [word]).length + words.length
      = tknArr.length + (word :: words).length := by
    simp only [List.length_append, List.length_cons, List.length_nil]
    omega
  rw [splitResult, splitResult, hlen, List.append_assoc, List.singleton_append]

/-- When the words are used up, the tokens are complete. -/
theorem splitResult_nil {tknArr : List CString} (h : tknArr.length < commandTokenNmb) :
    splitResult tknArr [] = ((tknArr.length : Int), tknArr) := by
  rw [splitResult, List.append_nil, List.length_nil, Nat.add_zero, if_pos h]

/-- The word that fills the array is the last one, and too many. -/
theorem splitResult_full {tknArr : List CString} {word : CString} (words : List CString)
    (h : commandTokenNmb ≤ (tknArr ++ [word]).length) (hlt : tknArr.length < commandTokenNmb) :
    splitResult tknArr (word :: words) = (-1, tknArr ++ [word]) := by
  rw [List.length_append, List.length_singleton] at h
  have hfull : ¬ tknArr.length + (word :: words).length < commandTokenNmb := by
    rw [List.length_cons]
    omega
  have hlen : (tknArr ++ [word]).length = commandTokenNmb := by
    rw [List.length_append, List.length_singleton]
    omega
  have hsplit : tknArr ++ word :: words = (tknArr ++ [word]) ++ words := by
    rw [List.append_assoc, List.singleton_append]
  rw [splitResult, if_neg hfull, hsplit, ← hlen, List.take_left]

/-- The loop goes over the words of the text between `front` and the limit. The array goes on with
`tail` up to the next NUL. -/
theorem splitFrom_eq {tail : CString} (junk : CString) (htail : Solid isBlank tail) :
    ∀ (left : Nat) (front text : CString) (tknArr : List CString),
      tknArr.length + left = commandTokenNmb → tknArr.length < commandTokenNmb →
      splitFrom (front ++ text ++ (tail ++ nul :: junk)) (front.length + text.length) left
          front.length tknArr
        = .ok (splitResult tknArr (wordsWithTail isBlank text tail)) := by
  intro left
  induction left with
  | zero => intro front text tknArr hleft hlt; omega
  | succ left ih =>
      intro front text tknArr hleft hlt
      have hrest : tail ++ nul :: junk ≠ [] := List.append_ne_nil_of_right_ne_nil _ (by simp)
      -- The blanks in front of the next word.
      obtain ⟨blanks, text, rfl, hblanks, hhead⟩ := exists_blanks isBlank text
      have hskip := @skipWhile_eq isBlank _ hblanks _ _ hhead hrest front
      rw [splitFrom, Nat.add_sub_cancel_left, hskip, ok_bind]
      by_cases htext : text = []
      · rw [htext, List.append_nil, List.length_append, if_pos (Nat.lt_irrefl _),
          wordsWithTail_blanks hblanks, splitResult_nil hlt]
        rfl
      rw [← List.append_assoc front, ← List.length_append, ← List.append_assoc front,
        wordsWithTail_blanks_append hblanks htext]
      generalize front ++ blanks = front
      have hopen : front.length < (front ++ text).length := by
        rw [List.length_append]
        exact Nat.lt_add_of_pos_right (List.length_pos_iff.mpr htext)
      rw [if_neg (not_not.mpr hopen)]
      obtain ⟨word, text, rfl, hsolid, hnext⟩ := exists_word isBlank text
      have hword : word ≠ [] := by
        rintro rfl
        obtain ⟨c, text, rfl⟩ := List.exists_cons_of_ne_nil htext
        exact absurd ((hhead c rfl).symm.trans (hnext c rfl)) Bool.false_ne_true
      have hskipWord := @skipWhile_eq (· ≠ nul) word
        (fun c hc => decide_eq_true (of_decide_eq_false (hsolid c hc))) text _
        (fun c hc => decide_eq_false (not_not.mpr (of_decide_eq_true (hnext c hc)))) hrest front
      rw [@List.length_append _ front _, Nat.add_sub_cancel_left]
      cases text with
      | nil =>
          -- The word is open at the limit, and it is the last one.
          have htoken := @untilMark_drop front (word ++ tail) junk
            (List.forall_mem_append.mpr ⟨hsolid, htail⟩)
          rw [List.append_nil] at hskipWord ⊢
          rw [List.append_assoc word, ← List.append_assoc front] at htoken
          rw [htoken, access_some, ok_bind, wordsWithTail_word hsolid hword htail]
          by_cases hfull : commandTokenNmb ≤ (tknArr ++ [word ++ tail]).length
          · simp only [if_pos hfull]
            rw [splitResult_full [] hfull hlt]
            rfl
          · simp only [if_neg hfull, hskipWord, ok_bind]
            rw [@List.length_append _ front _, if_pos (Nat.lt_irrefl _), ← splitResult_append,
              splitResult_nil (Nat.lt_of_not_le hfull)]
            rfl
      | cons c text =>
          obtain rfl : c = nul := of_decide_eq_true (hnext c rfl)
          have htoken := @untilMark_drop front _ (text ++ (tail ++ nul :: junk)) hsolid
          have hcells : front ++ (word ++ nul :: text) ++ (tail ++ nul :: junk)
              = front ++ (word ++ nul :: (text ++ (tail ++ nul :: junk))) := by
            simp only [List.append_assoc, List.cons_append]
          rw [← hcells] at htoken
          rw [htoken, access_some, ok_bind,
            wordsWithTail_word_append hsolid hword (decide_eq_true rfl)]
          by_cases hfull : commandTokenNmb ≤ (tknArr ++ [word]).length
          · simp only [if_pos hfull]
            rw [splitResult_full _ hfull hlt]
            rfl
          · have hmore : (front ++ word).length < front.length + (word ++ nul :: text).length := by
              simp only [List.length_append, List.length_cons]
              omega
            have hrec := ih (front ++ word) (nul :: text) (tknArr ++ [word])
              (by rw [List.length_append, List.length_singleton]; omega)
              (Nat.lt_of_not_le hfull)
            rw [List.append_assoc front, @List.length_append _ front word,
              Nat.add_assoc, ← List.length_append] at hrec
            simp only [if_neg hfull, hskipWord, ok_bind, if_neg (not_not.mpr hmore)]
            rw [← splitResult_append, @List.length_append _ front _]
            exact hrec

/-- `split` finds the words in front of the limit. -/
theorem split_eq {microrl : Microrl} {text tail junk : CString}
    (hcmdline : microrl.cmdline = text ++ (tail ++ nul :: junk)) (htail : Solid isBlank tail) :
    microrl.split text.length
      = .ok (splitResult [] (wordsWithTail isBlank text tail)) := by
  have h := splitFrom_eq junk htail commandTokenNmb [] text [] rfl (by decide)
  rw [List.nil_append, List.length_nil, Nat.zero_add] at h
  rw [split, hcmdline]
  exact h

end Microrl

end C6021Light
