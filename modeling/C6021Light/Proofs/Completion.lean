import C6021Light.CliSupport
import C6021Light.Lib.KeyPath

/-!
# `C6021Light.Proofs.Completion`: tab completion

`findLongestPrefix` walks through the tables with the tokens of `argv` (`Lib.KeyPath`). Its result
is the deepest node of the path that its predicate accepts (`findLongestPrefixFrom_eq`).

`fillCompletionData` completes the first token that the path does not match, in the table that the
path leads to. That token is the last one when all others are matched. When a token in front of it
is not, the completions are those of another token. When all tokens are matched there is none left,
and the source reads behind `argv`.
-/

set_option autoImplicit false

namespace C6021Light

open KeyPath

variable {CliHandlerFunc : Type}

/-! ### The walk -/

/-- The tables of arguments. -/
def argumentTables :
    Tables (List (Argument CliHandlerFunc)) CString (Argument CliHandlerFunc) where
  find := findArgument
  below argument := argument.options

/-- The arguments that the tokens match, from the root on. -/
def matchedPath (argtable : List (Argument CliHandlerFunc)) (argv : List CString) :
    List (Argument CliHandlerFunc) :=
  argumentTables.path (some argtable) argv

/-- The table that the tokens reach from the root, when each of them is matched. -/
def reachedTable (argtable : List (Argument CliHandlerFunc)) (argv : List CString) :
    Option (List (Argument CliHandlerFunc)) :=
  argumentTables.reached (some argtable) argv

/-- The result of the walk is that of a loop over the path. -/
theorem findLongestPrefixFrom_eq (predicate : PrefixPredicate CliHandlerFunc)
    (argv : List CString) :
    ∀ (table : Option (List (Argument CliHandlerFunc))) (argvIdx : Nat)
      (result : PrefixResult CliHandlerFunc),
      findLongestPrefixFrom predicate table argvIdx argv result
        = keepDeepest predicate (fun node depth => { arg := some node, level := depth })
            (argumentTables.path table argv) argvIdx result := by
  induction argv with
  | nil =>
      intro table argvIdx result
      rw [Tables.path_nil]
      cases table <;> rfl
  | cons token argv ih =>
      intro table argvIdx result
      cases table with
      | none => rfl
      | some table =>
          have hfind : argumentTables.find table token = findArgument table token := rfl
          rw [findLongestPrefixFrom, Tables.path, hfind]
          cases findArgument table token with
          | none => rfl
          | some argument => exact ih _ _ _

section

variable {argtable : List (Argument CliHandlerFunc)} {argv : List CString}
  {predicate : PrefixPredicate CliHandlerFunc}

/-- The longest prefix is the deepest node of the path that the predicate accepts. -/
theorem findLongestPrefix_eq (predicate : PrefixPredicate CliHandlerFunc) :
    findLongestPrefix argtable argv predicate
      = keepDeepest predicate (fun node depth => { arg := some node, level := depth })
          (matchedPath argtable argv) 0 {} :=
  findLongestPrefixFrom_eq predicate argv (some argtable) 0 {}

/-- No node of the path is accepted. -/
theorem findLongestPrefix_of_none
    (hnone : ∀ node ∈ matchedPath argtable argv, predicate node = false) :
    findLongestPrefix argtable argv predicate = {} := by
  rw [findLongestPrefix_eq]
  exact keepDeepest_of_none hnone 0 _

/-- The deepest node that is accepted is the result, with its depth. -/
theorem findLongestPrefix_of_deepest {front rest : List (Argument CliHandlerFunc)}
    {node : Argument CliHandlerFunc} (hpath : matchedPath argtable argv = front ++ node :: rest)
    (hnode : predicate node = true) (hrest : ∀ deeper ∈ rest, predicate deeper = false) :
    findLongestPrefix argtable argv predicate = { arg := some node, level := front.length } := by
  rw [findLongestPrefix_eq, hpath, keepDeepest_of_deepest hnode hrest, Nat.zero_add]

end

/-- Every node counts for `truePredicate`, so the last one of the path is the result. -/
theorem findLongestPrefix_truePredicate (argtable : List (Argument CliHandlerFunc))
    (argv : List CString) :
    findLongestPrefix argtable argv truePredicate
      = { arg := (matchedPath argtable argv).getLast?
          level := (matchedPath argtable argv).length - 1 } := by
  rcases (matchedPath argtable argv).eq_nil_or_concat with hnil | ⟨front, last, hpath⟩
  · rw [findLongestPrefix_of_none (by simp [hnil]), hnil]
    rfl
  · rw [List.concat_eq_append] at hpath
    rw [findLongestPrefix_of_deepest hpath rfl (by simp), hpath, List.getLast?_concat,
      List.length_append, List.length_singleton, Nat.add_sub_cancel]

/-! ### The loop over a table -/

/-- The names in a table that begin with a token, in the order of the table. -/
def completionsIn (table : Option (List (Argument CliHandlerFunc))) (token : CString) :
    List CString :=
  ((table.getD []).map (·.name)).filter (token.isPrefixOf ·)

/-- A buffer with as many of the names as it can hold. The rest is null. -/
def bufferOf (maxNumCompletions : Nat) (names : List CString) : CompletionBuffer :=
  (names.take maxNumCompletions).map some ++ .replicate (maxNumCompletions - names.length) none

variable {maxNumCompletions : Nat} {names : List CString}

/-- Without names the buffer is all null. -/
theorem bufferOf_nil (maxNumCompletions : Nat) :
    bufferOf maxNumCompletions [] = .replicate maxNumCompletions none := by
  rw [bufferOf, List.take_nil]
  rfl

/-- The next name goes to the first null entry. -/
theorem bufferOf_set (hroom : names.length < maxNumCompletions) (name : CString) :
    (bufferOf maxNumCompletions names).set names.length (some name)
      = bufferOf maxNumCompletions (names ++ [name]) := by
  have hlen : (names ++ [name]).length ≤ maxNumCompletions := by
    rw [List.length_append, List.length_singleton]
    exact hroom
  obtain ⟨room, hmax⟩ : ∃ room, maxNumCompletions - names.length = room + 1 :=
    ⟨maxNumCompletions - names.length - 1, by omega⟩
  rw [bufferOf, bufferOf, List.take_of_length_le (Nat.le_of_lt hroom),
    List.take_of_length_le hlen, hmax,
    List.set_append_right _ _ (Nat.le_of_eq (List.length_map _)), List.length_map, Nat.sub_self,
    List.replicate_succ, List.set_cons_zero, List.map_append, List.append_assoc,
    List.length_append, List.length_singleton, ← Nat.sub_sub, hmax]
  rfl

/-- A full buffer takes no more names. -/
theorem bufferOf_append (hfull : maxNumCompletions ≤ names.length) (more : List CString) :
    bufferOf maxNumCompletions (names ++ more) = bufferOf maxNumCompletions names := by
  rw [bufferOf, bufferOf, List.take_append_of_le_length hfull, List.length_append,
    Nat.sub_eq_zero_of_le hfull, Nat.sub_eq_zero_of_le (by omega)]

/-- The loop adds the completions of the table to those in the buffer. -/
theorem fillCompletions_eq (argvToMatch : CString) (table : List (Argument CliHandlerFunc)) :
    ∀ names : List CString, names.length ≤ maxNumCompletions →
      fillCompletions maxNumCompletions argvToMatch table names.length
          (bufferOf maxNumCompletions names)
        = bufferOf maxNumCompletions (names ++ completionsIn (some table) argvToMatch) := by
  induction table with
  | nil => intro names _; exact congrArg (bufferOf _) (List.append_nil names).symm
  | cons argument table ih =>
      intro names hlen
      rw [fillCompletions]
      split
      · rename_i hroom
        have hcons : completionsIn (some (argument :: table)) argvToMatch
            = if argvToMatch.isPrefixOf argument.name
              then argument.name :: completionsIn (some table) argvToMatch
              else completionsIn (some table) argvToMatch := List.filter_cons
        rw [hcons]
        by_cases hmatch : argvToMatch.isPrefixOf argument.name = true
        · have hstr := (strstr_eq_zero_iff argument.name argvToMatch).mpr
            (List.isPrefixOf_iff_prefix.mp hmatch)
          have hnext := ih (names ++ [argument.name])
            (by rw [List.length_append, List.length_singleton]; exact hroom)
          rw [List.length_append, List.length_singleton, ← bufferOf_set hroom,
            List.append_assoc] at hnext
          rw [if_pos hstr, if_pos hmatch]
          exact hnext
        · have hstr : ¬ strstr argument.name argvToMatch = some 0 := fun h =>
            hmatch (List.isPrefixOf_iff_prefix.mpr ((strstr_eq_zero_iff _ _).mp h))
          rw [if_neg hstr, if_neg hmatch]
          exact ih names hlen
      · rename_i hroom
        exact (bufferOf_append (Nat.le_of_not_lt hroom) _).symm

/-- The buffer stays empty when it has no room, or when there are no names. -/
theorem bufferOf_eq_nil_iff :
    bufferOf maxNumCompletions names = bufferOf maxNumCompletions [] ↔
      maxNumCompletions = 0 ∨ names = [] := by
  cases maxNumCompletions with
  | zero => exact iff_of_true (@bufferOf_append 0 [] (Nat.le_refl 0) names) (.inl rfl)
  | succ n =>
      cases names with
      | nil => exact iff_of_true rfl (.inr rfl)
      | cons name names =>
          refine iff_of_false (fun h => ?_) fun h => ?_
          · have hhead := congrArg List.head? h
            simp [bufferOf, List.replicate_succ] at hhead
          · rcases h with h | h <;> cases h

/-! ### Completion -/

variable {argtable : List (Argument CliHandlerFunc)} {argv : List CString}

/-- The walk matches no more than all tokens. -/
theorem length_matchedPath_le (argtable : List (Argument CliHandlerFunc)) (argv : List CString) :
    (matchedPath argtable argv).length ≤ argv.length :=
  Tables.length_path_le argv _

/-- A token inside `argv` can be read. -/
theorem readArgv_of_lt {idx : Nat} (h : idx < argv.length) : readArgv argv idx = .ok argv[idx] := by
  rw [readArgv, List.getElem?_eq_getElem h]

/-- The completion starts in the table that the path leads to, with the next token. -/
theorem completionStart_eq (argtable : List (Argument CliHandlerFunc)) (argv : List CString) :
    completionStart argtable argv (findLongestPrefix argtable argv truePredicate)
      = (readArgv argv (matchedPath argtable argv).length).map fun token =>
          (reachedTable argtable (argv.take (matchedPath argtable argv).length), some token) := by
  have htable : reachedTable argtable (argv.take (matchedPath argtable argv).length)
      = argumentTables.belowLast (some argtable) (matchedPath argtable argv) :=
    Tables.reached_take_length argv _
  have hle := length_matchedPath_le argtable argv
  rw [htable, findLongestPrefix_truePredicate, completionStart]
  rcases (matchedPath argtable argv).eq_nil_or_concat with hnil | ⟨front, last, hpath⟩
  · rw [hnil]
    show (do
      let argvToMatch ← readArgv argv 0
      return (some argtable, some argvToMatch)) = _
    cases readArgv argv 0 <;> rfl
  · rw [hpath, List.concat_eq_append] at hle ⊢
    rw [List.length_append, List.length_singleton] at hle ⊢
    have hvalid : (({ arg := some last, level := front.length } :
        PrefixResult CliHandlerFunc).valid argv.length) = true := decide_eq_true hle
    rw [Tables.belowLast, List.getLast?_concat, Nat.add_sub_cancel, hvalid]
    show (do
      let argvToMatch ← readArgv argv (front.length + 1)
      return (last.options, some argvToMatch)) = _
    cases readArgv argv (front.length + 1) <;> rfl

/-- What `fillCompletionData` does with at least one token. -/
theorem fillCompletionData_eq (maxNumCompletions : Nat) (hargc : argv ≠ []) :
    fillCompletionData maxNumCompletions argtable argv
      = (readArgv argv (matchedPath argtable argv).length).map fun token =>
          bufferOf maxNumCompletions (completionsIn
            (reachedTable argtable (argv.take (matchedPath argtable argv).length)) token) := by
  have hlen : ¬ argv.length < 1 := by
    rw [Nat.lt_one_iff, List.length_eq_zero_iff]
    exact hargc
  have hlevel : (findLongestPrefix argtable argv truePredicate).level ≤ argv.length := by
    rw [findLongestPrefix_truePredicate]
    exact Nat.le_trans (Nat.sub_le _ _) (length_matchedPath_le argtable argv)
  rw [fillCompletionData, if_neg hlen]
  simp only [hlevel, if_true, completionStart_eq]
  cases readArgv argv (matchedPath argtable argv).length with
  | error fault => rfl
  | ok token =>
      rw [← bufferOf_nil]
      cases reachedTable argtable (argv.take (matchedPath argtable argv).length) with
      | none => rfl
      | some table => exact congrArg Except.ok (fillCompletions_eq token table [] (Nat.zero_le _))

/-! ### The result -/

/-- The completions of the last token, in the table behind all others. -/
def lastTokenCompletions (argtable : List (Argument CliHandlerFunc)) (argv : List CString)
    (hargc : argv ≠ []) : List CString :=
  completionsIn (reachedTable argtable argv.dropLast) (argv.getLast hargc)

/-- Not all tokens are matched, and the first one that is not is the last one, or has no
completion in the table where the match stops. -/
def StopsAtLastToken (maxNumCompletions : Nat) (argtable : List (Argument CliHandlerFunc))
    (argv : List CString) : Prop :=
  let matched := (matchedPath argtable argv).length
  ∃ token, argv[matched]? = some token ∧
    (matched + 1 = argv.length ∨ maxNumCompletions = 0 ∨
      completionsIn (reachedTable argtable (argv.take matched)) token = [])

/-- The completions of the last token are those of the first one that is not matched, when it is
the same. Otherwise there are none. -/
theorem lastTokenCompletions_eq (hargc : argv ≠ []) {token : CString}
    (htoken : argv[(matchedPath argtable argv).length]? = some token) :
    lastTokenCompletions argtable argv hargc
      = if (matchedPath argtable argv).length + 1 = argv.length
        then completionsIn (reachedTable argtable
          (argv.take (matchedPath argtable argv).length)) token
        else [] := by
  obtain ⟨hlt, hget⟩ := List.getElem?_eq_some_iff.mp htoken
  rw [lastTokenCompletions, List.dropLast_eq_take]
  split
  · rename_i hlast
    have hindex : argv.length - 1 = (matchedPath argtable argv).length := by omega
    have htokens : argv.getLast hargc = token := by
      rw [List.getLast_eq_getElem, ← hget]
      simp only [hindex]
    rw [hindex, htokens]
  · rename_i hmore
    have hnone : reachedTable argtable (argv.take (argv.length - 1)) = none :=
      Tables.reached_take_of_lt argv (some argtable) (argv.length - 1)
        (by show (matchedPath argtable argv).length < _; omega) (Nat.sub_le _ _)
    rw [hnone]
    rfl

/-- `fillCompletionData` stays in `argv` and completes the last token exactly when the match stops
at the last token, or where there is nothing to complete. -/
theorem fillCompletionData_iff (maxNumCompletions : Nat)
    (argtable : List (Argument CliHandlerFunc)) (argv : List CString) (hargc : argv ≠ []) :
    fillCompletionData maxNumCompletions argtable argv
        = .ok (bufferOf maxNumCompletions (lastTokenCompletions argtable argv hargc)) ↔
      StopsAtLastToken maxNumCompletions argtable argv := by
  rw [fillCompletionData_eq maxNumCompletions hargc]
  -- Behind the path there is a token to complete, or the read is behind the last one.
  cases htoken : argv[(matchedPath argtable argv).length]? with
  | none =>
      rw [readArgv, htoken]
      refine iff_of_false (fun h => by cases h) ?_
      rintro ⟨token, hsome, -⟩
      cases htoken.symm.trans hsome
  | some token =>
      rw [readArgv, htoken, lastTokenCompletions_eq hargc htoken]
      constructor
      · intro h
        refine ⟨token, htoken, ?_⟩
        have hbuffer := Except.ok.inj h
        -- The completion is right for the last token, or it has nothing to do.
        split at hbuffer
        · rename_i hlast
          exact .inl hlast
        · exact .inr (bufferOf_eq_nil_iff.mp hbuffer)
      · rintro ⟨token', hsome, hcases⟩
        cases htoken.symm.trans hsome
        refine congrArg Except.ok ?_
        split
        · rfl
        · rename_i hmore
          exact bufferOf_eq_nil_iff.mpr (hcases.resolve_left hmore)

/-- A table with a command that has two options, and one that has none. -/
def sampleTable : List (Argument Unit) :=
  [{ name := "config".toList
     options := some [{ name := "get".toList }, { name := "set".toList }] },
    { name := "help".toList, handler := some () }]

/-- `config s` is completed to `config set`. -/
theorem fillCompletionData_option :
    fillCompletionData 2 sampleTable ["config".toList, "s".toList]
      = .ok [some "set".toList, none] :=
  (fillCompletionData_iff 2 sampleTable ["config".toList, "s".toList] (List.cons_ne_nil _ _)).mpr
    ⟨"s".toList, by decide, .inl (by decide)⟩

/-- A command that is typed out is read together with the token behind it, and behind an unknown
word the unknown word is completed. -/
theorem fillCompletionData_wrong_token :
    fillCompletionData 2 sampleTable ["help".toList] = .error (.argvOutOfBounds 1) ∧
      fillCompletionData 2 sampleTable ["con".toList, "x".toList]
        = .ok [some "config".toList, none] ∧
      lastTokenCompletions sampleTable ["con".toList, "x".toList] (List.cons_ne_nil _ _) = [] := by
  decide

end C6021Light
