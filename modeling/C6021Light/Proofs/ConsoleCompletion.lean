import C6021Light.ConsoleTask
import C6021Light.Lib.CommonPrefix
import C6021Light.Proofs.CommandLines
import C6021Light.Proofs.TypedCommands
import Mathlib.Data.Bool.AllAny

/-!
# `C6021Light.Proofs.ConsoleCompletion`: the TAB key of the console

The line editor with `microrl_complete_callback`. `completionNames` is what the callback finds for
some tokens. The line editor prints these names, and inserts what they have in common behind the
last word. That is the longest common prefix of the names (`longestCommon_completionLen`).

The callback completes the first token that is not matched, and this may be another word than the
last one. Then the number of characters to insert can be negative, and the `memmove` may write in
front of the command line. `complete_error_iff` lists all accesses outside of the arrays.
-/

set_option autoImplicit false

namespace C6021Light

open CheckedArray CommonPrefix LockStep Words

/-! ### The common prefix -/

namespace Microrl

variable {arr : List CString} {shortest first : CString} {more : List CString}

/-- The loop ends at the first position with a difference. -/
theorem commonLenFrom_spec (arr : List CString) (shortest : CString) :
    ∀ {left i : Nat}, i + left = shortest.length →
      i ≤ commonLenFrom arr shortest left i ∧
        commonLenFrom arr shortest left i ≤ shortest.length ∧
        (∀ j, i ≤ j → j < commonLenFrom arr shortest left i →
          ∀ s ∈ arr, s[j]? = shortest[j]?) ∧
        (commonLenFrom arr shortest left i = shortest.length ∨
          ∃ s ∈ arr, s[commonLenFrom arr shortest left i]?
            ≠ shortest[commonLenFrom arr shortest left i]?) := by
  intro left
  -- `i` goes up while the rest of the shortest name goes down.
  induction left with
  | zero =>
      intro i hi
      rw [commonLenFrom]
      exact ⟨Nat.le_refl i, hi.le, fun j hle hlt => absurd hlt (Nat.not_lt.mpr hle), .inl hi⟩
  | succ left ih =>
      intro i hi
      rw [commonLenFrom]
      split
      -- The loop stops at a difference, which is at `i` itself.
      · rename_i hdiff
        obtain ⟨s, hs, hne⟩ := List.any_eq_true.mp hdiff
        exact ⟨Nat.le_refl i, by omega, fun j hle hlt => absurd hlt (Nat.not_lt.mpr hle),
          .inr ⟨s, hs, of_decide_eq_true hne⟩⟩
      -- All names agree at `i`, so the loop goes on behind it.
      · rename_i hsame
        obtain ⟨hle, hlen, hagree, hstop⟩ := ih (i := i + 1) (by omega)
        refine ⟨by omega, hlen, fun j hij hlt s hs => ?_, hstop⟩
        obtain rfl | hij := Nat.eq_or_lt_of_le hij
        · by_contra hne
          exact hsame (List.any_eq_true.mpr ⟨s, hs, decide_eq_true hne⟩)
        · exact hagree j hij hlt s hs

/-- The shortest string is one of the strings. -/
theorem shortest_mem (arr : List CString) :
    ∀ first : CString, arr.foldl
      (fun shortest s => if s.length < shortest.length then s else shortest) first
        ∈ first :: arr := by
  induction arr with
  | nil => exact fun first => List.mem_singleton.mpr rfl
  | cons s arr ih =>
      intro first
      rw [List.foldl_cons]
      split
      · exact List.mem_cons_of_mem _ (ih s)
      · exact List.cons_subset_cons _ (List.subset_cons_self _ _) (ih first)

/-- `common_len` is the length of the longest common prefix. -/
theorem longestCommon_commonLen (first : CString) (more : List CString) :
    LongestCommon (first.take (commonLen first (first :: more))) (first :: more) ∧
      commonLen first (first :: more) ≤ first.length := by
  have hshortest := shortest_mem (first :: more) first
  obtain ⟨-, hlen, hagree, hstop⟩ := commonLenFrom_spec (first :: more) _ (Nat.zero_add _)
  rw [← commonLen] at hlen hagree hstop
  generalize commonLen first (first :: more) = n at hlen hagree hstop ⊢
  generalize List.foldl _ first (first :: more) = shortest at hshortest hlen hagree hstop
  have hmem : shortest ∈ first :: more := by
    obtain rfl | hmem := List.mem_cons.mp hshortest
    · exact List.mem_cons_self
    · exact hmem
  have hfirst : n ≤ first.length := by
    refine Nat.le_of_not_lt fun hlt => ?_
    have hnone := hagree first.length (Nat.zero_le _) hlt first List.mem_cons_self
    rw [List.getElem?_eq_none (Nat.le_refl _), eq_comm, List.getElem?_eq_none_iff] at hnone
    omega
  refine ⟨longestCommon_take List.mem_cons_self hfirst (fun i hi s hs => ?_) ?_, hfirst⟩
  · rw [hagree i (Nat.zero_le i) hi s hs, hagree i (Nat.zero_le i) hi first List.mem_cons_self]
  · obtain rfl | ⟨s, hs, hne⟩ := hstop
    · exact ⟨shortest, hmem, shortest, hmem, .inr (List.getElem?_eq_none (Nat.le_refl _))⟩
    · exact ⟨s, hs, shortest, hmem, .inl hne⟩

/-- The length that is computed is that of the longest common start. -/
theorem longestCommon_completionLen (first : CString) (more : List CString) :
    LongestCommon (first.take (completionLen first more)) (first :: more) ∧
      completionLen first more ≤ first.length := by
  rw [completionLen]
  cases more with
  | nil =>
      rw [List.isEmpty_nil, if_pos rfl, List.take_length]
      exact ⟨longestCommon_singleton first, Nat.le_refl _⟩
  | cons second more => exact longestCommon_commonLen first (second :: more)

end Microrl

/-! ### The callback -/

open ConsoleManager (argtable)

variable {argv path : List CString}

/-- The names that the callback finds: the first five completions of the first token that is not
matched. -/
def completionNames (argv : List CString) : List CString :=
  match argv[(matchedPath argtable argv).length]? with
  | some token =>
      (completionsIn (reachedTable argtable (argv.take (matchedPath argtable argv).length))
        token).take (numCompletions - 1)
  | none => []

/-- All tokens but the last one are matched, and the last one is completed. -/
theorem completionNames_concat {word : CString}
    (hpath : (matchedPath argtable (path ++ [word])).length = path.length) :
    completionNames (path ++ [word])
      = (completionsIn (reachedTable argtable path) word).take (numCompletions - 1) := by
  rw [completionNames, hpath, List.getElem?_concat_length, List.take_left]

/-- The strings of the buffer end at its first null pointer. -/
theorem stringsOf_append (names : List CString) (rest : CompletionBuffer) :
    Microrl.stringsOf (names.map some ++ none :: rest) = some names := by
  induction names with
  | nil => rfl
  | cons name names ih =>
      rw [List.map_cons, List.cons_append, Microrl.stringsOf, ih]
      rfl

/-- The entry behind the names is null, also in a full buffer. -/
theorem stringsOf_bufferOf (maxNumCompletions : Nat) (names : List CString) :
    Microrl.stringsOf (bufferOf maxNumCompletions names ++ [none])
      = some (names.take maxNumCompletions) := by
  rw [bufferOf, List.append_assoc]
  cases maxNumCompletions - names.length with
  | zero => exact stringsOf_append _ _
  | succ room => exact stringsOf_append _ _

/-- The callback reads behind the tokens when all of them are matched. -/
theorem microrlCompleteCallback_of_matched
    (hmatched : (matchedPath argtable argv).length = argv.length) (hargv : argv ≠ []) :
    microrlCompleteCallback argv.length argv = .error (.argvOutOfBounds argv.length) := by
  rw [microrlCompleteCallback, Int.toNat_natCast, List.take_length,
    fillCompletionData_eq _ hargv, readArgv, hmatched, List.getElem?_eq_none (Nat.le_refl _)]
  rfl

/-- Otherwise its buffer has the names, and a null pointer behind them. -/
theorem microrlCompleteCallback_of_lt
    (hmatched : (matchedPath argtable argv).length < argv.length) :
    ∃ complToken, microrlCompleteCallback argv.length argv = .ok complToken ∧
      Microrl.stringsOf complToken = some (completionNames argv) := by
  have hargv : argv ≠ [] := List.ne_nil_of_length_pos (Nat.zero_lt_of_lt hmatched)
  rw [microrlCompleteCallback, Int.toNat_natCast, List.take_length,
    fillCompletionData_eq _ hargv, readArgv_of_lt hmatched, completionNames,
    List.getElem?_eq_getElem hmatched]
  exact ⟨_, rfl, stringsOf_bufferOf _ _⟩

/-- Without tokens there are no names. -/
theorem microrlCompleteCallback_of_neg (argv : List CString) :
    ∃ complToken, microrlCompleteCallback (-1) argv = .ok complToken ∧
      Microrl.stringsOf complToken = some [] := ⟨_, rfl, rfl⟩

/-! ### The names -/

/-- The names of the commands have letters and digits only. -/
theorem isAlphanum_of_mem_completionsIn {token s : CString}
    (hs : s ∈ completionsIn (reachedTable argtable
      (argv.take (matchedPath argtable argv).length)) token) :
    s ≠ [] ∧ ∀ c ∈ s, c.isAlphanum = true := by
  have hnames : ∀ path ∈ ConsoleManager.chains 5 (some argtable),
      ∀ node ∈ (argumentTables.belowLast (some argtable) path).getD [],
        node.name ≠ [] ∧ node.name.all Char.isAlphanum = true := by decide
  have htable : reachedTable argtable (argv.take (matchedPath argtable argv).length)
      = argumentTables.belowLast (some argtable) (matchedPath argtable argv) :=
    KeyPath.Tables.reached_take_length argv _
  rw [htable] at hs
  obtain ⟨node, hnode, rfl⟩ := List.mem_map.mp (List.mem_filter.mp hs).1
  obtain ⟨hne, hall⟩ := hnames _ (ConsoleManager.matchedPath_mem_chains argv) node hnode
  exact ⟨hne, List.all_eq_true.mp hall⟩

/-- Every name that is found has letters and digits only. -/
theorem isAlphanum_of_mem_completionNames {s : CString} (hs : s ∈ completionNames argv) :
    s ≠ [] ∧ ∀ c ∈ s, c.isAlphanum = true := by
  rw [completionNames] at hs
  split at hs
  · exact isAlphanum_of_mem_completionsIn (List.mem_of_mem_take hs)
  · cases hs

/-- Each name begins with the token that is completed. -/
theorem isPrefix_of_mem_completionNames {word s : CString}
    (hpath : (matchedPath argtable (path ++ [word])).length = path.length)
    (hs : s ∈ completionNames (path ++ [word])) : word <+: s := by
  rw [completionNames_concat hpath] at hs
  exact List.isPrefixOf_iff_prefix.mp (List.mem_filter.mp (List.mem_of_mem_take hs)).2

namespace LineEditor

variable {editor editor' : LineEditor} {first : CString} {more : List CString}

/-! ### The key -/

/-- The tokens for the completion. Behind a blank there is an empty one. -/
def completionArgv (editor : LineEditor) : List CString :=
  if endsOpen isBlank editor.before then editor.tokens else editor.tokens ++ [[]]

/-- The last character is a blank exactly when the line does not end within a word. -/
theorem exists_last (hbefore : editor.before ≠ []) :
    ∃ last, editor.before.getLast? = some last ∧
      isBlank last = !endsOpen isBlank editor.before := by
  refine ⟨_, List.getLast?_eq_getLast_of_ne_nil hbefore, ?_⟩
  rw [endsOpen, List.getLast?_eq_getLast_of_ne_nil hbefore, Option.any_some, Bool.not_not]

/-- Text that ends within a word has a word. -/
theorem completionArgv_ne_nil (editor : LineEditor) : editor.completionArgv ≠ [] := by
  rw [completionArgv]
  split
  · rename_i hopen
    obtain ⟨front, word, hbefore, hfront, hword⟩ := exists_lastWord isBlank editor.before
    have hne : word ≠ [] := by
      rintro rfl
      rw [hbefore, List.append_nil, hfront] at hopen
      cases hopen
    rw [tokens, wordsWithTail, if_pos hopen, hbefore, List.append_assoc, words_append hfront]
    refine List.append_ne_nil_of_right_ne_nil _ ?_
    have htail : Solid isBlank ((editor.after ++ editor.killed).takeWhile (!isBlank ·)) :=
      fun c hc =>
      Bool.not_eq_true' _ ▸ List.all_eq_true.mp List.all_takeWhile c hc
    rw [words_word (List.forall_mem_append.mpr ⟨hword, htail⟩)
      (List.append_ne_nil_of_left_ne_nil hne _)]
    exact List.cons_ne_nil _ _
  · exact List.append_ne_nil_of_right_ne_nil _ (List.cons_ne_nil _ _)

/-- There is no character in front of the cursor. -/
theorem complete_of_start (hget : editor.getCompletion = some microrlCompleteCallback)
    (hbefore : editor.before = []) : editor.complete = .error .outOfBounds := by
  rw [complete, hget, hbefore]
  rfl

/-- With too many words nothing is completed. There is no place for an empty one. -/
theorem complete_of_many (hget : editor.getCompletion = some microrlCompleteCallback)
    (hbefore : editor.before ≠ []) (hmany : commandTokenNmb ≤ editor.tokens.length) :
    editor.complete
      = if endsOpen isBlank editor.before then .ok editor else .error .outOfBounds := by
  obtain ⟨last, hlast, hblank⟩ := exists_last hbefore
  rw [complete, hget]
  simp only [hlast, access_some, ok_bind, completionArgs, if_pos hmany, hblank]
  cases endsOpen isBlank editor.before with
  | true =>
      obtain ⟨complToken, hcall, hstrings⟩ :=
        microrlCompleteCallback_of_neg (editor.tokens.take commandTokenNmb)
      simp only [Bool.not_true, Bool.false_eq_true, if_false, if_true, pure_bind, hcall]
      show (access (Microrl.stringsOf complToken) >>= _) = _
      rw [hstrings]
      rfl
  | false => rfl

/-- With few tokens the arguments are the tokens, with an empty one behind a blank. -/
theorem completionArgs_of_few {last : Char} (hfew : editor.tokens.length < commandTokenNmb)
    (hblank : isBlank last = !endsOpen isBlank editor.before) :
    editor.completionArgs last
      = .ok (editor.completionArgv.length, editor.completionArgv) := by
  rw [completionArgs, if_neg (Nat.not_le.mpr hfew), hblank, completionArgv]
  cases endsOpen isBlank editor.before <;> rfl

/-- The names are printed, and what they have in common is inserted. -/
def insertNames (editor : LineEditor) (first : CString) (more : List CString) :
    Except MicrorlFault LineEditor := do
  let editor ←
    (editor.printCompletions first more).insertCommon editor.completionArgv.getLast? first more
  return (editor.print Microrl.resetText).draw 0

section

variable (hget : editor.getCompletion = some microrlCompleteCallback)
  (hbefore : editor.before ≠ []) (hfew : editor.tokens.length < commandTokenNmb)

include hget hbefore hfew

/-- All words are matched. -/
theorem complete_of_matched
    (hmatched : (matchedPath argtable editor.completionArgv).length
      = editor.completionArgv.length) :
    editor.complete = .error (.completion (.argvOutOfBounds editor.completionArgv.length)) := by
  obtain ⟨last, hlast, hblank⟩ := exists_last hbefore
  rw [complete, hget]
  simp only [hlast, access_some, ok_bind, completionArgs_of_few hfew hblank,
    microrlCompleteCallback_of_matched hmatched (completionArgv_ne_nil editor)]
  rfl

/-- A word is not matched, and no name begins with it. -/
theorem complete_of_nil
    (hmatched : (matchedPath argtable editor.completionArgv).length < editor.completionArgv.length)
    (hnames : completionNames editor.completionArgv = []) : editor.complete = .ok editor := by
  obtain ⟨last, hlast, hblank⟩ := exists_last hbefore
  obtain ⟨complToken, hcall, hstrings⟩ := microrlCompleteCallback_of_lt hmatched
  rw [complete, hget]
  simp only [hlast, access_some, ok_bind, completionArgs_of_few hfew hblank, hcall]
  show (access (Microrl.stringsOf complToken) >>= _) = _
  rw [hstrings, hnames]
  rfl

/-- With names found, they are printed and what they have in common is inserted. -/
theorem complete_of_cons
    (hmatched : (matchedPath argtable editor.completionArgv).length < editor.completionArgv.length)
    (hnames : completionNames editor.completionArgv = first :: more) :
    editor.complete = editor.insertNames first more := by
  obtain ⟨last, hlast, hblank⟩ := exists_last hbefore
  obtain ⟨complToken, hcall, hstrings⟩ := microrlCompleteCallback_of_lt hmatched
  have hargc : ¬ (editor.completionArgv.length : Int) < 0 := by omega
  rw [complete, hget]
  simp only [hlast, access_some, ok_bind, completionArgs_of_few hfew hblank, hcall]
  show (access (Microrl.stringsOf complToken) >>= _) = _
  rw [hstrings, hnames, access_some, ok_bind]
  simp only [if_neg hargc]
  rfl

end

/-! ### Faults -/

/-- An inserted text faults when it would reach in front of the line, or is read behind its end. -/
theorem insertText_error_iff {text : CString} {len : Int} :
    (∃ e, editor.insertText text len = .error e) ↔
      editor.line.length + len < commandLineLen ∧
        (editor.before.length + len < 0 ∨ text.length < len.toNat) := by
  rw [insertText]
  by_cases hfit : (editor.line.length : Int) + len < commandLineLen
  · simp only [if_pos hfit]
    by_cases hneg : (editor.before.length : Int) + len < 0
    · simp only [if_pos hneg]
      exact iff_of_true ⟨_, rfl⟩ ⟨hfit, .inl hneg⟩
    · simp only [if_neg hneg]
      by_cases hlen : len.toNat ≤ text.length
      · rw [slice, Nat.zero_add, if_pos hlen]
        exact iff_of_false (by rintro ⟨_, ⟨⟩⟩) fun h => h.2.elim hneg (Nat.not_lt.mpr hlen)
      · rw [slice, Nat.zero_add, if_neg hlen]
        exact iff_of_true ⟨_, rfl⟩ ⟨hfit, .inr (Nat.lt_of_not_le hlen)⟩
  · simp only [if_neg hfit]
    exact iff_of_false (by rintro ⟨_, ⟨⟩⟩) fun h => hfit h.1

/-- The first of two steps fails, when the second one cannot. -/
theorem bind_error_iff {α β φ : Type} {x : Except φ α} {f : α → Except φ β}
    (hnext : ∀ a, ∃ b, f a = .ok b) : (∃ e, x >>= f = .error e) ↔ ∃ e, x = .error e := by
  cases x with
  | error e => exact iff_of_true ⟨e, rfl⟩ ⟨e, rfl⟩
  | ok a =>
      obtain ⟨b, hb⟩ := hnext a
      rw [ok_bind, hb]
      exact iff_of_false (by rintro ⟨_, ⟨⟩⟩) (by rintro ⟨_, ⟨⟩⟩)

/-- The names are inserted, unless the last word is longer than the text in front of the cursor
and what the names have in common. -/
theorem insertNames_error_iff {word : CString} (hword : editor.completionArgv.getLast? = some word)
    (hlen : editor.line.length < commandLineLen) :
    (∃ e, editor.insertNames first more = .error e) ↔
      Microrl.completionLen first more ≠ 0 ∧
        editor.before.length + Microrl.completionLen first more < word.length := by
  have hle := (Microrl.longestCommon_completionLen first more).2
  have hbefore : (editor.printCompletions first more).before = editor.before := by
    rw [printCompletions]
    split <;> rfl
  have hline : (editor.printCompletions first more).line = editor.line := by
    rw [printCompletions]
    split <;> rfl
  have hdraw (next : LineEditor) :
      ∃ drawn, (pure ((next.print Microrl.resetText).draw 0) : Except MicrorlFault LineEditor)
        = .ok drawn := ⟨_, rfl⟩
  rw [insertNames, bind_error_iff hdraw, insertCommon, hword]
  -- Nothing is inserted without a common prefix, and then nothing can go wrong.
  by_cases hzero : Microrl.completionLen first more ≠ 0
  · rw [if_pos hzero, access_some, ok_bind, bind_error_iff, insertText_error_iff, hbefore, hline,
      List.length_drop]
    · constructor
      -- The length that is left is negative exactly when the word is longer than the common prefix
      -- and the text in front of the cursor.
      · rintro ⟨-, h⟩
        exact ⟨hzero, by omega⟩
      · rintro ⟨-, h⟩
        exact ⟨by omega, .inl (by omega)⟩
    · rintro ⟨inserted, next⟩
      by_cases hmore : more.isEmpty
      · obtain ⟨⟨inserted', next'⟩, hspace⟩ := @exists_insertText next " ".toList 1 (Nat.le_refl 1)
        exact ⟨next', by simp only [if_pos hmore]; exact bind_eq_ok.mpr ⟨_, hspace, rfl⟩⟩
      · exact ⟨next, by simp only [if_neg hmore]; rfl⟩
  · rw [if_neg hzero]
    exact iff_of_false (by rintro ⟨_, ⟨⟩⟩) fun h => hzero h.1

/-- The TAB key reads or writes outside of an array. -/
inductive TabFaults (editor : LineEditor) : Prop
  /-- The character in front of the line is read. -/
  | start (hbefore : editor.before = [])
  /-- An empty token is written in front of `tkn_arr`. -/
  | many (hbefore : editor.before ≠ []) (hmany : commandTokenNmb ≤ editor.tokens.length)
      (hopen : endsOpen isBlank editor.before = false)
  /-- The token behind the last one is read. -/
  | matched (hbefore : editor.before ≠ []) (hfew : editor.tokens.length < commandTokenNmb)
      (hmatched : (matchedPath argtable editor.completionArgv).length
        = editor.completionArgv.length)
  /-- The text behind the cursor moves in front of the line. -/
  | moved (hbefore : editor.before ≠ []) (hfew : editor.tokens.length < commandTokenNmb)
      {word first : CString} {more : List CString}
      (hnames : completionNames editor.completionArgv = first :: more)
      (hword : editor.completionArgv.getLast? = some word)
      (hlen : Microrl.completionLen first more ≠ 0)
      (hlong : editor.before.length + Microrl.completionLen first more < word.length)

/-- With the console's callback a TAB faults exactly in the cases of `TabFaults`. -/
theorem complete_error_iff (hget : editor.getCompletion = some microrlCompleteCallback)
    (hlen : editor.line.length < commandLineLen) :
    (∃ e, editor.complete = .error e) ↔ editor.TabFaults := by
  by_cases hbefore : editor.before = []
  · rw [complete_of_start hget hbefore]
    exact iff_of_true ⟨_, rfl⟩ (.start hbefore)
  by_cases hmany : commandTokenNmb ≤ editor.tokens.length
  · rw [complete_of_many hget hbefore hmany]
    cases hopen : endsOpen isBlank editor.before with
    | true =>
        refine iff_of_false (by rintro ⟨_, ⟨⟩⟩) fun h => ?_
        cases h with
        | start hnil => exact hbefore hnil
        | many _ _ hopen' => cases hopen.symm.trans hopen'
        | matched _ hfew => omega
        | moved _ hfew => omega
    | false => exact iff_of_true ⟨_, rfl⟩ (.many hbefore hmany hopen)
  have hfew := Nat.lt_of_not_le hmany
  obtain hmatched | hmatched :=
    Nat.lt_or_eq_of_le (length_matchedPath_le argtable editor.completionArgv)
  · -- A token is completed.
    obtain ⟨word, hword⟩ : ∃ word, editor.completionArgv.getLast? = some word :=
      ⟨_, List.getLast?_eq_getLast_of_ne_nil (completionArgv_ne_nil editor)⟩
    cases hnames : completionNames editor.completionArgv with
    | nil =>
        rw [complete_of_nil hget hbefore hfew hmatched hnames]
        refine iff_of_false (by rintro ⟨_, ⟨⟩⟩) fun h => ?_
        cases h with
        | start hnil => exact hbefore hnil
        | many _ hmany' => exact hmany hmany'
        | matched _ _ hmatched' => omega
        | moved _ _ hnames' => cases hnames.symm.trans hnames'
    | cons first more =>
        rw [complete_of_cons hget hbefore hfew hmatched hnames,
          insertNames_error_iff hword hlen]
        refine ⟨fun ⟨hzero, hlong⟩ => .moved hbefore hfew hnames hword hzero hlong, fun h => ?_⟩
        cases h with
        | start hnil => exact absurd hnil hbefore
        | many _ hmany' => exact absurd hmany' hmany
        | matched _ _ hmatched' => omega
        | moved _ _ hnames' hword' hzero hlong =>
            cases hnames.symm.trans hnames'
            cases hword.symm.trans hword'
            exact ⟨hzero, hlong⟩
  · rw [complete_of_matched hget hbefore hfew hmatched]
    exact iff_of_true ⟨_, rfl⟩ (.matched hbefore hfew hmatched)

/-! ### Words that are completed -/

section

variable {front word common : CString}

/-- The cursor is at the end of a word. -/
theorem completionArgv_of_word (hbefore : editor.before = front ++ word)
    (hfront : endsOpen isBlank front = false) (hword : Solid isBlank word)
    (htail : (editor.after ++ editor.killed).takeWhile (!isBlank ·) = []) :
    editor.completionArgv = words isBlank front ++ [word] := by
  rw [completionArgv, tokens, htail, wordsWithTail_nil_right, ← wordsToEnd_append hfront hword,
    ← hbefore]
  rfl

/-- Letters and digits are stored as they are. -/
theorem stored_of_isAlphanum {c : Char} (h : c.isAlphanum = true) : Microrl.stored c = c := by
  rw [Microrl.stored, if_neg]
  rintro rfl
  cases h

/-- The text in front of the cursor is another one. -/
structure Rewritten (editor editor' : LineEditor) (before : CString) : Prop where
  before : editor'.before = before
  after : editor'.after = editor.after
  killed : editor.killed = [] → editor'.killed = []
  escape : editor'.escape = editor.escape

/-- Two changes of the text one after the other. -/
theorem Rewritten.trans {editor'' : LineEditor} {before before' : CString}
    (h : Rewritten editor editor' before) (h' : Rewritten editor' editor'' before') :
    Rewritten editor editor'' before' :=
  ⟨h'.before, h'.after.trans h.after, h'.killed ∘ h.killed, h'.escape.trans h.escape⟩

/-- Printing the names does not change the text. -/
theorem rewritten_printCompletions (editor : LineEditor) (first : CString) (more : List CString) :
    Rewritten editor (editor.printCompletions first more) editor.before := by
  rw [printCompletions]
  split <;> exact ⟨rfl, rfl, id, rfl⟩

/-- A text without blanks is inserted, if there is room for it. -/
theorem insert_rest {text rest : CString} (htext : text.take rest.length = rest)
    (hrest : ∀ c ∈ rest, c.isAlphanum = true)
    (hfit : editor.line.length + rest.length < commandLineLen) :
    ∃ inserted editor', editor.insertText text (rest.length : Nat) = .ok (inserted, editor') ∧
      Rewritten editor editor' (editor.before ++ rest) := by
  have hroom : rest.length ≤ text.length := by
    rw [← htext, List.length_take]
    exact Nat.min_le_right _ _
  obtain ⟨⟨inserted, next⟩, hinsert⟩ := @exists_insertText editor _ _ hroom
  refine ⟨inserted, next, hinsert, ?_⟩
  obtain ⟨-, -, hfull⟩ | ⟨-, -, -, -, rfl⟩ := insertText_cases hinsert
  · omega
  · refine ⟨?_, rfl, fun _ => rfl, rfl⟩
    have hstored : rest.map Microrl.stored = rest :=
      (List.map_congr_left fun c hc => stored_of_isAlphanum (hrest c hc)).trans (List.map_id rest)
    show editor.before.take _ ++ (text.take _).map Microrl.stored = _
    rw [Int.toNat_natCast, htext, hstored, List.take_of_length_le (by omega)]

/-- A blank is inserted, if there is room for it. -/
theorem insert_space (editor : LineEditor) :
    ∃ inserted editor' blanks, editor.insertText " ".toList 1 = .ok (inserted, editor') ∧
      Rewritten editor editor' (editor.before ++ blanks) ∧ ∀ c ∈ blanks, isBlank c = true := by
  obtain ⟨⟨inserted, next⟩, hspace⟩ := @exists_insertText editor " ".toList 1 (Nat.le_refl 1)
  refine ⟨inserted, next, ?_⟩
  obtain ⟨-, rfl, -⟩ | ⟨-, -, -, -, rfl⟩ := insertText_cases hspace
  · exact ⟨[], hspace, ⟨(List.append_nil _).symm, rfl, id, rfl⟩, List.forall_mem_nil _⟩
  · refine ⟨[nul], hspace, ⟨?_, rfl, fun _ => rfl, rfl⟩, List.forall_mem_singleton.mpr rfl⟩
    exact congrArg (· ++ [nul]) (List.take_of_length_le (by omega))

/-- The rest of the common prefix goes behind the word. A single name gets a blank behind it. -/
theorem insertCommon_word (hbefore : editor.before = front ++ word)
    (hcommon : LongestCommon common (first :: more)) (hbegin : word <+: common)
    (hfirst : ∀ c ∈ first, c.isAlphanum = true)
    (hfit : editor.line.length + (common.length - word.length) < commandLineLen) :
    ∃ editor' blanks, editor.insertCommon (some word) first more = .ok editor' ∧
      Rewritten editor editor' (front ++ common ++ blanks) ∧ ∀ c ∈ blanks, isBlank c = true := by
  -- `common` is the prefix that the loop found, as there is only one.
  obtain ⟨hlongest, hle⟩ := Microrl.longestCommon_completionLen first more
  have htake := hcommon.unique hlongest
  have hlen : common.length = Microrl.completionLen first more := by
    rw [htake, List.length_take_of_le hle]
  obtain ⟨rest, rfl⟩ := hbegin
  rw [insertCommon, ← hlen]
  -- The common prefix begins with the word. What is inserted is the rest of it.
  by_cases hzero : (word ++ rest).length ≠ 0
  · have hrest : (first.drop word.length).take rest.length = rest := by
      have hdrop := congrArg (List.drop word.length) htake
      rw [List.drop_left, ← hlen, List.drop_take, List.length_append,
        Nat.add_sub_cancel_left] at hdrop
      exact hdrop.symm
    have hoffset : (((word ++ rest).length : Nat) : Int) - word.length = (rest.length : Nat) := by
      rw [List.length_append]
      omega
    rw [List.length_append, Nat.add_sub_cancel_left] at hfit
    obtain ⟨inserted, next, hinsert, hnext⟩ := insert_rest hrest (fun c hc => hfirst c
      (List.mem_of_mem_drop (List.mem_of_mem_take (hrest.symm ▸ hc)))) hfit
    rw [hbefore, List.append_assoc] at hnext
    rw [if_pos hzero, access_some, ok_bind, hoffset, hinsert, ok_bind]
    -- A single name gets a blank.
    by_cases hmore : more.isEmpty
    · obtain ⟨inserted', next', blanks, hspace, hnext', hblanks⟩ := insert_space next
      rw [hnext.before] at hnext'
      refine ⟨next', blanks, ?_, hnext.trans hnext', hblanks⟩
      simp only [if_pos hmore, hspace, ok_bind]
      rfl
    · refine ⟨next, [], ?_, (List.append_nil _).symm ▸ hnext, List.forall_mem_nil _⟩
      simp only [if_neg hmore]
      rfl
  -- Without a common prefix the word is empty as well, and nothing is inserted.
  · rw [if_neg hzero]
    rw [not_not, List.length_eq_zero_iff, List.append_eq_nil_iff] at hzero
    obtain ⟨rfl, rfl⟩ := hzero
    exact ⟨editor, [], rfl, ⟨by simp only [hbefore, List.append_nil], rfl, id, rfl⟩,
      List.forall_mem_nil _⟩

/-- The last word becomes the longest common prefix of the names that begin with it. -/
theorem complete_word (hget : editor.getCompletion = some microrlCompleteCallback)
    (hbefore : editor.before = front ++ word) (hne : editor.before ≠ [])
    (hfront : endsOpen isBlank front = false) (hword : Solid isBlank word)
    (htail : (editor.after ++ editor.killed).takeWhile (!isBlank ·) = [])
    (hpath : (matchedPath argtable (words isBlank front ++ [word])).length
      = (words isBlank front).length)
    (hnames : completionNames (words isBlank front ++ [word]) = first :: more)
    (hcommon : LongestCommon common (first :: more))
    (hfit : editor.line.length + (common.length - word.length) < commandLineLen) :
    ∃ editor' blanks, editor.complete = .ok editor' ∧
      Rewritten editor editor' (front ++ common ++ blanks) ∧ ∀ c ∈ blanks, isBlank c = true := by
  have hargv := completionArgv_of_word hbefore hfront hword htail
  have hlen : editor.completionArgv.length = (words isBlank front).length + 1 := by
    rw [hargv, List.length_append, List.length_singleton]
  -- No path of the tables has more than four names, so the tokens fit the array.
  have hfew : editor.tokens.length < commandTokenNmb := by
    have hle : editor.tokens.length ≤ editor.completionArgv.length := by
      rw [completionArgv]
      split
      · exact Nat.le_refl _
      · rw [List.length_append]
        exact Nat.le_add_right _ _
    have hshort : ∀ path ∈ ConsoleManager.chains 5 (some argtable), path.length ≤ 4 := by decide
    have hmatched := hshort _
      (ConsoleManager.matchedPath_mem_chains (words isBlank front ++ [word]))
    rw [hpath] at hmatched
    simp only [commandTokenNmb]
    omega
  have hmatched : (matchedPath argtable editor.completionArgv).length
      < editor.completionArgv.length := by
    rw [hlen, hargv, hpath]
    exact Nat.lt_succ_self _
  -- The common prefix begins with the word, as all names do.
  have hbegin : word <+: common := hcommon.longest word fun s hs =>
    isPrefix_of_mem_completionNames hpath (hnames ▸ hs)
  have hfirst : ∀ c ∈ first, c.isAlphanum = true :=
    (isAlphanum_of_mem_completionNames (hnames ▸ List.mem_cons_self)).2
  -- Printing the names leaves the line as it is.
  have hprinted := rewritten_printCompletions editor first more
  have hline : (editor.printCompletions first more).line = editor.line := by
    rw [line, line, hprinted.before, hprinted.after]
  obtain ⟨next, blanks, hinsert, hnext, hblanks⟩ :=
    insertCommon_word (hprinted.before.trans hbefore) hcommon hbegin hfirst (hline ▸ hfit)
  obtain ⟨hbefore', hafter', hkilled', hescape'⟩ := hprinted.trans hnext
  refine ⟨(next.print Microrl.resetText).draw 0, blanks, ?_,
    ⟨hbefore', hafter', hkilled', hescape'⟩, hblanks⟩
  rw [complete_of_cons hget hne hfew hmatched (hargv ▸ hnames), insertNames, hargv,
    List.getLast?_concat, hinsert]
  rfl

end

/-! ### Typed words -/

/-- A text that fits is inserted up to its last word. -/
theorem wordsToEnd_inserted {text : List Byte} (htext : ∀ ch ∈ text, Typable ch)
    (hfit : text.length < commandLineLen) :
    wordsToEnd isBlank (inserted [] (text.map charOfByte))
      = wordsToEnd (· = ' ') (text.map charOfByte) := by
  rw [inserted, if_pos rfl, List.length_nil, Nat.sub_zero, List.take_of_length_le]
  · rw [wordsToEnd_map (isBlank_stored htext (List.dropWhile_suffix _).subset),
      wordsToEnd_dropWhile]
    exact (List.map_congr_left fun word hword => map_stored (solid_of_mem_wordsToEnd hword)).trans
      (List.map_id _)
  · refine (List.dropWhile_suffix _).length_le.trans ?_
    rw [List.length_map]
    omega

/-- Any callback may complete when every character is allowed. -/
theorem allows_true (getCompletion : Option GetCompletion) :
    Allows (fun _ => True) getCompletion :=
  ⟨trivial, fun _ _ _ => trivial, fun _ _ _ _ _ _ _ _ _ _ => trivial⟩

section

variable {text : List Byte} {tab cr : Byte} {path : List CString} {word common : CString}

/-- A text is typed, and its last word is completed and executed. -/
theorem submit_completed (hget : editor.getCompletion = some microrlCompleteCallback)
    (hready : editor.Ready) (htext : ∀ ch ∈ text, Typable ch)
    (htab : MicrorlKey.ofByte tab = .ht) (hcr : MicrorlKey.ofByte cr = .cr)
    (hargv : wordsToEnd (· = ' ') (text.map charOfByte) = path ++ [word])
    (htyped : path ≠ [] ∨ word ≠ [])
    (hpath : (matchedPath argtable (path ++ [word])).length = path.length)
    (hnames : completionNames (path ++ [word]) = first :: more)
    (hcommon : LongestCommon common (first :: more))
    (hfit : text.length + (common.length - word.length) < commandLineLen) :
    ∃ editor', (text ++ [tab, cr]).foldlM step editor = .ok editor' ∧ editor'.Ready ∧
      Microrl.executions editor'.calls = Microrl.executions editor.calls
        ++ commandOf editor.execute (if common = [] then path else path ++ [common]) := by
  obtain ⟨next, hrun, hnext⟩ := foldlM_insert htext hready.escape
  rw [hready.line] at hnext
  have hbefore : next.before = inserted [] (text.map charOfByte) := by
    rw [hnext.before, hready.before]
    rfl
  have hafter : next.after = [] := hnext.after.trans hready.after
  -- The last word of the line is the last word of the text.
  obtain ⟨front, word', hsplit, hfront, hword⟩ := exists_lastWord isBlank next.before
  obtain ⟨hfrontWords, hlast⟩ : words isBlank front = path ∧ word' = word := by
    have hwords := wordsToEnd_inserted htext (by omega)
    rw [← hbefore, hsplit, wordsToEnd_append hfront hword, hargv] at hwords
    exact (List.append_inj' hwords rfl).imp_right List.singleton_inj.mp
  subst hfrontWords hlast
  have hne : next.before ≠ [] := by
    intro hnil
    obtain ⟨rfl, rfl⟩ := List.append_eq_nil_iff.mp (hsplit.symm.trans hnil)
    exact htyped.elim (fun h => h rfl) fun h => h rfl
  have hkilled : next.killed = [] := by
    rw [hnext.killed, if_neg (hbefore ▸ hne)]
  have hline : next.line.length ≤ text.length := by
    rw [line, hafter, List.append_nil, hbefore, inserted, if_pos rfl, List.length_map,
      List.length_take]
    refine (Nat.min_le_right _ _).trans ((List.dropWhile_suffix _).length_le.trans ?_)
    rw [List.length_map]
  -- The TAB completes the word in front of the cursor.
  obtain ⟨last, blanks, hcomplete, hlast, hblanks⟩ :=
    complete_word (hnext.edits.getCompletion.trans hget) hsplit hne hfront hword
      (by rw [hafter, hkilled]; rfl) hpath hnames hcommon (by omega)
  have hescape : next.escape = false := hnext.escape.trans hready.escape
  have htabStep : next.step tab = .ok last := by
    rw [step_of_key hescape htab (by decide), (actionOfKey_cases tab).2.1.mpr htab]
    exact hcomplete
  have hcrStep : last.step cr = .ok last.submit := step_cr hcr (hlast.escape.trans hescape)
  -- The blanks behind the completed word do not count when the line is split.
  have hcommand : last.command
      = if common = [] then words isBlank front else words isBlank front ++ [common] := by
    rw [command, hlast.killed hkilled, wordsWithTail_nil_right, line, hlast.after, hafter,
      List.append_nil, hlast.before, List.append_assoc, words_append hfront]
    split
    · rename_i hnil
      rw [hnil, List.nil_append, words_blanks hblanks, List.append_nil]
    · rename_i hsome
      refine congrArg (_ ++ ·) (words_word_blanks (fun c hc => ?_) hsome hblanks)
      have hname := (hcommon.common first List.mem_cons_self).subset hc
      have halnum := (isAlphanum_of_mem_completionNames (hnames ▸ List.mem_cons_self)).2 c hname
      exact decide_eq_false fun hnul => by
        rw [hnul] at halnum
        cases halnum
  have hedits := edits_complete (allows_true next.getCompletion) hcomplete
  obtain ⟨texts, hcalls⟩ := hnext.edits.calls
  obtain ⟨texts', hcalls'⟩ := hedits.calls
  refine ⟨last.submit, ?_, ⟨hlast.escape.trans hescape, rfl, rfl⟩, ?_⟩
  · rw [List.foldlM_append, hrun, ok_bind, List.foldlM_cons, htabStep, ok_bind, List.foldlM_cons,
      hcrStep]
    rfl
  · rw [Microrl.executions_submit, executions_commandCalls_eq, hcommand, hcalls', hcalls,
      hedits.execute, hnext.edits.execute, Microrl.executions_append, Microrl.executions_append,
      Microrl.executions_prints, Microrl.executions_prints, List.append_nil, List.append_nil]

end

end LineEditor

namespace Microrl

open LineEditor

variable {microrl : Microrl}

/-- No key changes the callback. -/
theorem getCompletion_step {editor editor' : LineEditor} {ch : Byte}
    (h : editor.step ch = .ok editor') : editor'.getCompletion = editor.getCompletion := by
  obtain hedits | ⟨-, -, rfl⟩ := step_cases (allows_ne_space editor.getCompletion) h
  · exact hedits.getCompletion
  · rfl

/-- No keys change the callback. -/
theorem getCompletion_run {execute : Bool} {getCompletion : Option GetCompletion}
    {keys : List Byte} {editor : LineEditor}
    (hrun : keys.foldlM LineEditor.step (.start execute getCompletion) = .ok editor) :
    editor.getCompletion = getCompletion :=
  foldlM_invariant (P := fun editor : LineEditor => editor.getCompletion = getCompletion)
    (fun _ _ _ h hstep => (getCompletion_step hstep).trans h) keys rfl hrun

/-- After any keys, when the line is empty and no escape sequence is open, a text is typed. Its
words but the last one lead to a table, and the last one is the beginning of a name there. A TAB
makes the last word the longest common prefix of these names, and a CR executes the words. -/
theorem completed_executed {execute : Bool} {keys : List Byte}
    (hrun : keys.foldlM microrlInsertChar (.begin execute (some microrlCompleteCallback))
      = .ok microrl)
    (hescape : microrl.escape = false) (hcmdlen : microrl.cmdlen = 0)
    {text : List Byte} (htext : ∀ ch ∈ text, Typable ch) {tab cr : Byte}
    (htab : MicrorlKey.ofByte tab = .ht) (hcr : MicrorlKey.ofByte cr = .cr)
    {path : List CString} {word first common : CString} {more : List CString}
    (hargv : wordsToEnd (· = ' ') (text.map charOfByte) = path ++ [word])
    (htyped : path ≠ [] ∨ word ≠ [])
    (hpath : (matchedPath argtable (path ++ [word])).length = path.length)
    (hnames : (completionsIn (reachedTable argtable path) word).take (numCompletions - 1)
      = first :: more)
    (hcommon : LongestCommon common (first :: more))
    (hfit : text.length + (common.length - word.length) < commandLineLen) :
    ∃ microrl', (text ++ [tab, cr]).foldlM microrlInsertChar microrl = .ok microrl' ∧
      microrl'.escape = false ∧ microrl'.cmdlen = 0 ∧
      executions microrl'.calls = executions microrl.calls
        ++ commandOf microrl.execute (if common = [] then path else path ++ [common]) := by
  -- Typed into the abstract editor, the keys do what the model of the arrays does as well.
  obtain ⟨editor, hrun', h⟩ := (insertChars_agree execute _ keys).exists_right hrun
  obtain ⟨editor', hdone, hready', hexecutions⟩ :=
    submit_completed (getCompletion_run hrun') (h.ready hescape hcmdlen) htext htab hcr hargv
      htyped hpath ((completionNames_concat hpath).trans hnames) hcommon hfit
  obtain ⟨microrl', hconcrete, h'⟩ :=
    (Agree.foldlM (fun _ _ ch h => microrlInsertChar_agree h ch) _ _ _ h).exists_left hdone
  refine ⟨microrl', hconcrete, h'.escape.trans hready'.escape, ?_, ?_⟩
  · rw [h'.cmdlen, hready'.line]
    rfl
  · rw [h'.calls, h.calls, h.execute, hexecutions]

/-- `flash d`, a TAB and a CR. -/
def flashText : List Byte := [102, 108, 97, 115, 104, 32, 100]

/-- `flash d`, a TAB and a CR execute `flash dump`. -/
theorem completed_executed_flashDump :
    ∃ microrl, (flashText ++ [9, 13]).foldlM microrlInsertChar
        (.begin true (some microrlCompleteCallback)) = .ok microrl ∧
      executions microrl.calls = [["flash".toList, "dump".toList]] := by
  obtain ⟨microrl, hrun, -, -, hexecutions⟩ :=
    @completed_executed (.begin true (some microrlCompleteCallback)) _ _
      (show List.foldlM _ _ [] = _ from rfl) rfl rfl _
      (show ∀ ch ∈ flashText, Typable ch by decide) _ _ (show MicrorlKey.ofByte 9 = .ht from rfl)
      (show MicrorlKey.ofByte 13 = .cr from rfl) _ _ _ _ _
      (show wordsToEnd (· = ' ') (flashText.map charOfByte)
        = ["flash".toList] ++ ["d".toList] by decide)
      (.inl (List.cons_ne_nil _ _)) (by decide) (show _ = "dump".toList :: [] by decide)
      (longestCommon_singleton _) (by decide)
  exact ⟨microrl, hrun, hexecutions⟩

end Microrl

end C6021Light
