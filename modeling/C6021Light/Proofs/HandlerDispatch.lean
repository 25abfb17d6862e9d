import C6021Light.Proofs.Completion

/-!
# `C6021Light.Proofs.HandlerDispatch`: which handler a command line calls

The matched path of a command line is its longest chain through the tables (`IsMatchedPath`). There
is exactly one, and the walk of `Lib.KeyPath` finds it (`isMatchedPath_iff`).

`callHandler` asks `findLongestPrefix` for a node with a handler. It calls the deepest handler that
the path has, wherever the path ends (`callHandler_of_deepest`).
-/

set_option autoImplicit false

namespace C6021Light

open KeyPath

variable {CliHandlerFunc : Type} {argtable : List (Argument CliHandlerFunc)} {argv : List CString}

/-! ### The matched path -/

/-- The first entry of a table with the name. -/
def FirstNamed (table : List (Argument CliHandlerFunc)) (token : CString)
    (argument : Argument CliHandlerFunc) : Prop :=
  ∃ before after, table = before ++ argument :: after ∧ argument.name = token ∧
    ∀ other ∈ before, other.name ≠ token

/-- Each node is the first one with its token, in the options of the node before it. -/
inductive MatchedChain :
    Option (List (Argument CliHandlerFunc)) → List CString → List (Argument CliHandlerFunc) → Prop
  | nil {table : Option (List (Argument CliHandlerFunc))} {argv : List CString} :
      MatchedChain table argv []
  | cons {table : List (Argument CliHandlerFunc)} {token : CString} {argv : List CString}
      {argument : Argument CliHandlerFunc} {nodes : List (Argument CliHandlerFunc)}
      (first : FirstNamed table token argument)
      (rest : MatchedChain argument.options argv nodes) :
      MatchedChain (some table) (token :: argv) (argument :: nodes)

/-- The longest chain from the root. -/
structure IsMatchedPath (argtable : List (Argument CliHandlerFunc)) (argv : List CString)
    (path : List (Argument CliHandlerFunc)) : Prop where
  chain : MatchedChain (some argtable) argv path
  longest : ∀ nodes, MatchedChain (some argtable) argv nodes → nodes.length ≤ path.length

/-- The search finds the first argument of that name. -/
theorem findArgument_eq_some_iff {table : List (Argument CliHandlerFunc)} {token : CString}
    {argument : Argument CliHandlerFunc} :
    findArgument table token = some argument ↔ FirstNamed table token argument := by
  rw [findArgument, List.find?_eq_some_iff_append, FirstNamed]
  simp only [decide_eq_true_eq, Bool.not_eq_true', decide_eq_false_iff_not]
  constructor
  · rintro ⟨hname, before, after, htable, hbefore⟩
    exact ⟨before, after, htable, hname, hbefore⟩
  · rintro ⟨before, after, htable, hname, hbefore⟩
    exact ⟨hname, before, after, htable, hbefore⟩

/-- The chains are the beginnings of the path. -/
theorem matchedChain_iff_isPrefix (argv : List CString) :
    ∀ (table : Option (List (Argument CliHandlerFunc))) (nodes : List (Argument CliHandlerFunc)),
      MatchedChain table argv nodes ↔ nodes <+: argumentTables.path table argv := by
  -- The induction is on the tokens, with the table that each one is looked up in.
  induction argv with
  | nil =>
      intro table nodes
      rw [Tables.path_nil, List.prefix_nil]
      constructor
      · intro h
        cases h
        rfl
      · rintro rfl
        exact .nil
  | cons token argv ih =>
      intro table nodes
      cases nodes with
      | nil => exact iff_of_true .nil List.nil_prefix
      | cons argument nodes =>
          cases table with
          | none =>
              refine iff_of_false (fun h => ?_) fun h => ?_
              · cases h
              · cases List.prefix_nil.mp h
          | some table =>
              have hfind : argumentTables.find table token = findArgument table token := rfl
              rw [Tables.path, hfind]
              -- The first node of the chain is the one that the search finds, and the rest is the
              -- chain below it.
              constructor
              · intro h
                cases h with
                | cons first rest =>
                    rw [findArgument_eq_some_iff.mpr first]
                    exact (List.prefix_cons_inj argument).mpr ((ih _ _).mp rest)
              · intro h
                cases hfound : findArgument table token with
                | none =>
                    rw [hfound] at h
                    cases List.prefix_nil.mp h
                | some found =>
                    rw [hfound] at h
                    obtain ⟨rfl, hrest⟩ := List.cons_prefix_cons.mp h
                    exact .cons (findArgument_eq_some_iff.mp hfound) ((ih _ _).mpr hrest)

/-- There is one longest chain, the path of the walk. -/
theorem isMatchedPath_iff {path : List (Argument CliHandlerFunc)} :
    IsMatchedPath argtable argv path ↔ path = matchedPath argtable argv := by
  constructor
  · rintro ⟨hchain, hlongest⟩
    have hall := (matchedChain_iff_isPrefix argv (some argtable) _).mpr
      (List.prefix_refl (matchedPath argtable argv))
    exact ((matchedChain_iff_isPrefix argv _ _).mp hchain).eq_of_length_le (hlongest _ hall)
  · rintro rfl
    refine ⟨(matchedChain_iff_isPrefix argv _ _).mpr (List.prefix_refl _), fun nodes hnodes => ?_⟩
    exact ((matchedChain_iff_isPrefix argv _ _).mp hnodes).length_le

/-- The nodes of a chain have the names of the tokens. -/
theorem MatchedChain.map_name_isPrefix {table : Option (List (Argument CliHandlerFunc))}
    {nodes : List (Argument CliHandlerFunc)} (h : MatchedChain table argv nodes) :
    nodes.map (·.name) <+: argv := by
  induction h with
  | nil => exact List.nil_prefix
  | cons first _ ih =>
      obtain ⟨-, -, -, hname, -⟩ := first
      exact List.cons_prefix_cons.mpr ⟨hname, ih⟩

/-! ### The call -/

variable {front rest : List (Argument CliHandlerFunc)} {node : Argument CliHandlerFunc}

/-- The predicate is false of an argument without a handler. -/
theorem handler_eq_none_iff {argument : Argument CliHandlerFunc} :
    hasHandlerPredicate argument = false ↔ argument.handler = none :=
  Option.isSome_eq_false_iff.trans Option.isNone_iff_eq_none

section

variable {m : Type → Type} [Monad m] (call : Option CliHandlerFunc → List CString → Nat → m Int)

/-- Without a handler on the path, `kNoHandler` is returned and nothing is called. -/
theorem callHandler_of_none (hnone : ∀ node ∈ matchedPath argtable argv, node.handler = none) :
    callHandler call argtable argv = pure kNoHandler := by
  have hresult : findLongestPrefix argtable argv hasHandlerPredicate = {} :=
    findLongestPrefix_of_none fun node hnode => handler_eq_none_iff.mpr (hnone node hnode)
  rw [callHandler, hresult]
  rfl

/-- The deepest handler is called with all tokens, and those up to its node are matched. -/
theorem callHandler_of_deepest {handler : CliHandlerFunc}
    (hpath : matchedPath argtable argv = front ++ node :: rest)
    (hhandler : node.handler = some handler) (hrest : ∀ deeper ∈ rest, deeper.handler = none) :
    front.length + 1 ≤ argv.length ∧
      callHandler call argtable argv = call (some handler) argv (front.length + 1) := by
  have hmatched : front.length + 1 ≤ argv.length := by
    have hle := length_matchedPath_le argtable argv
    rw [hpath, List.length_append, List.length_cons] at hle
    omega
  have haccepts : hasHandlerPredicate node = true := by
    rw [hasHandlerPredicate, hhandler]
    rfl
  have hvalid : (({ arg := some node, level := front.length } :
      PrefixResult CliHandlerFunc).valid argv.length) = true := decide_eq_true hmatched
  refine ⟨hmatched, ?_⟩
  rw [callHandler, findLongestPrefix_of_deepest hpath haccepts fun deeper hdeeper =>
    handler_eq_none_iff.mpr (hrest deeper hdeeper)]
  simp only [hvalid, if_true, Option.bind_some, hhandler]

end

/-- A call through a handler pointer. -/
structure HandlerCall (CliHandlerFunc : Type) where
  handler : Option CliHandlerFunc
  argv : List CString
  argcMatched : Nat

/-- Handlers that leave a record of each call. What a handler returns may depend on the call. -/
def recordCall (returns : HandlerCall CliHandlerFunc → Int) (handler : Option CliHandlerFunc)
    (argv : List CString) (argcMatched : Nat) :
    StateM (List (HandlerCall CliHandlerFunc)) Int := do
  let handlerCall : HandlerCall CliHandlerFunc := ⟨handler, argv, argcMatched⟩
  modify (· ++ [handlerCall])
  return returns handlerCall

/-- `findLongestPrefix` finds the end of the matched path, and `callHandler` makes one call, that of
the deepest handler on it, or none when there is no handler. -/
theorem callHandler_deepest (argtable : List (Argument CliHandlerFunc)) (argv : List CString)
    {path : List (Argument CliHandlerFunc)} (hpath : IsMatchedPath argtable argv path)
    (returns : HandlerCall CliHandlerFunc → Int) (calls : List (HandlerCall CliHandlerFunc)) :
    (path = [] → findLongestPrefix argtable argv truePredicate = {}) ∧
    (∀ front last, path = front ++ [last] →
      findLongestPrefix argtable argv truePredicate
        = { arg := some last, level := front.length }) ∧
    (∀ front node rest handler, path = front ++ node :: rest → node.handler = some handler →
      (∀ deeper ∈ rest, deeper.handler = none) →
        let handlerCall : HandlerCall CliHandlerFunc :=
          ⟨some handler, argv, front.length + 1⟩
        front.length + 1 ≤ argv.length ∧
          (callHandler (recordCall returns) argtable argv).run calls
            = (returns handlerCall, calls ++ [handlerCall])) ∧
    ((callHandler (recordCall returns) argtable argv).run calls = (kNoHandler, calls) ↔
      ∀ node ∈ path, node.handler = none) := by
  obtain rfl := isMatchedPath_iff.mp hpath
  refine ⟨fun hnil => ?_, fun front last hlast => ?_,
    fun front node rest handler hdeepest hhandler hrest => ?_, fun hrun => ?_, fun hnone => ?_⟩
  · exact findLongestPrefix_of_none fun node hnode => absurd (hnil ▸ hnode) List.not_mem_nil
  · exact findLongestPrefix_of_deepest hlast rfl fun _ h => absurd h List.not_mem_nil
  · obtain ⟨hmatched, hcall⟩ :=
      callHandler_of_deepest (recordCall returns) hdeepest hhandler hrest
    refine ⟨hmatched, ?_⟩
    rw [hcall]
    rfl
  · rcases none_or_exists_deepest hasHandlerPredicate (matchedPath argtable argv) with
      hnone | ⟨front, node, rest, hdeepest, hnode, hrest⟩
    · exact fun node hnode => handler_eq_none_iff.mp (hnone node hnode)
    · -- A call would have been recorded.
      obtain ⟨handler, hhandler⟩ := Option.isSome_iff_exists.mp hnode
      obtain ⟨-, hcall⟩ := callHandler_of_deepest (recordCall returns) hdeepest hhandler
        fun deeper hdeeper => handler_eq_none_iff.mp (hrest deeper hdeeper)
      rw [hcall] at hrun
      have hcalls : calls ++ [_] = calls := congrArg Prod.snd hrun
      exact absurd hcalls (by simp)
  · rw [callHandler_of_none (recordCall returns) hnone]
    rfl

/-- A command with a handler, and two options of one name. The second one has a handler, too. -/
def protocolTable : List (Argument Bool) :=
  [{ name := "set".toList
     options := some [{ name := "MM2".toList }, { name := "MM2".toList, handler := some false }]
     handler := some true }]

/-- `set MM2 now`: the first `MM2` is matched, and as it has no handler, that of `set` is called. -/
theorem callHandler_deepest_protocolTable :
    let argv := ["set".toList, "MM2".toList, "now".toList]
    findLongestPrefix protocolTable argv truePredicate
        = { arg := some { name := "MM2".toList }, level := 1 } ∧
      (callHandler (recordCall fun _ => 7) protocolTable argv).run []
        = (7, [⟨some true, argv, 1⟩]) := by
  intro argv
  obtain ⟨-, hlast, hdeepest, -⟩ :=
    callHandler_deepest protocolTable argv (isMatchedPath_iff.mpr rfl) (fun _ => 7) []
  have hset : ∀ deeper ∈ [({ name := "MM2".toList } : Argument Bool)], deeper.handler = none :=
    List.forall_mem_singleton.mpr rfl
  exact ⟨hlast [protocolTable.head (List.cons_ne_nil _ _)] _ rfl,
    (hdeepest [] _ [{ name := "MM2".toList }] true rfl rfl hset).2⟩

end C6021Light
