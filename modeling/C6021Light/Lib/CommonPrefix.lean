import Mathlib.Data.List.Infix

/-!
# `C6021Light.Lib.CommonPrefix`: the longest common prefix

`LongestCommon` says that a text is the longest one that each of some strings begins with. There is
one at most (`LongestCommon.unique`). It has each other common prefix as its own prefix, so a text
that all strings begin with is the beginning of it.

`longestCommon_take` is for a loop that compares the strings position by position with one of them:
they agree up to a position, and there one differs or is at its end.
-/

set_option autoImplicit false

namespace CommonPrefix

variable {α : Type} {text text' first : List α} {strings : List (List α)}

/-- Each of the strings begins with the text. -/
def Common (text : List α) (strings : List (List α)) : Prop := ∀ s ∈ strings, text <+: s

/-- The longest text that each of the strings begins with. -/
structure LongestCommon (text : List α) (strings : List (List α)) : Prop where
  common : Common text strings
  longest : ∀ text', Common text' strings → text' <+: text

/-- There is one longest common text. -/
theorem LongestCommon.unique (h : LongestCommon text strings) (h' : LongestCommon text' strings) :
    text = text' :=
  (h'.longest text h.common).eq_of_length_le (h.longest text' h'.common).length_le

/-- A single string is its own longest common text. -/
theorem longestCommon_singleton (first : List α) : LongestCommon first [first] :=
  ⟨List.forall_mem_singleton.mpr (List.prefix_refl first), fun _ h => h first List.mem_cons_self⟩

/-- A prefix is the same characters at the same positions. -/
theorem isPrefix_of_getElem? {s : List α} (h : ∀ i < text.length, s[i]? = text[i]?) :
    text <+: s := by
  rw [List.prefix_iff_eq_take]
  refine List.ext_getElem? fun i => ?_
  rw [List.getElem?_take]
  split
  · rename_i hi
    exact (h i hi).symm
  · rename_i hi
    exact List.getElem?_eq_none (Nat.le_of_not_lt hi)

/-- A prefix has the same characters at its positions. -/
theorem getElem?_of_isPrefix {s : List α} (h : text <+: s) {i : Nat} (hi : i < text.length) :
    s[i]? = text[i]? := by
  obtain ⟨rest, rfl⟩ := h
  exact List.getElem?_append_left hi

/-- The strings agree up to a position, and there one of them is different. -/
theorem longestCommon_take {n : Nat} (hfirst : first ∈ strings) (hn : n ≤ first.length)
    (hagree : ∀ i < n, ∀ s ∈ strings, s[i]? = first[i]?)
    (hstop : ∃ s ∈ strings, ∃ s' ∈ strings, s[n]? ≠ s'[n]? ∨ s[n]? = none) :
    LongestCommon (first.take n) strings := by
  have hlen : (first.take n).length = n := List.length_take_of_le hn
  have hcommon : Common (first.take n) strings := by
    intro s hs
    refine isPrefix_of_getElem? fun i hi => ?_
    rw [hlen] at hi
    rw [hagree i hi s hs, List.getElem?_take_of_lt hi]
  refine ⟨hcommon, fun text htext => ?_⟩
  refine List.prefix_of_prefix_length_le (htext first hfirst) (List.take_prefix n first) ?_
  rw [hlen]
  -- A longer text has a character at the position, which is that of each string.
  refine Nat.le_of_not_lt fun hlt => ?_
  have hchar : ∀ s ∈ strings, s[n]? = text[n]? := fun s hs => getElem?_of_isPrefix (htext s hs) hlt
  obtain ⟨s, hs, s', hs', hne | hnone⟩ := hstop
  · exact hne ((hchar s hs).trans (hchar s' hs').symm)
  · rw [hchar s hs, List.getElem?_eq_none_iff] at hnone
    omega

end CommonPrefix
