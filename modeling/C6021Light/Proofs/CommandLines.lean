import C6021Light.Proofs.ConsoleHelp

/-!
# `C6021Light.Proofs.CommandLines`: command lines and null tables

What a command line does depends on its matched path and on its number of tokens. The path is one
of the chains of the command tables, and there are finitely many (`chains`). So the command lines
that read a table through a null pointer can be listed: a command without options, whose handler
expects another number of arguments (`leafCommands`).
-/

set_option autoImplicit false

namespace C6021Light

open KeyPath FaultRun

namespace ConsoleManager

variable {argv : List CString}

/-! ### The lookup -/

/-- The lookup tests each table before it reads it. -/
theorem readLongestPrefixFrom_eq (predicate : PrefixPredicate CommandHandler)
    (argv : List CString) :
    ∀ (table : Option Table) (argvIdx : Nat) (result : PrefixResult CommandHandler),
      readLongestPrefixFrom predicate argv table argvIdx result
        = .ok (findLongestPrefixFrom predicate table argvIdx argv result) := by
  induction argv with
  | nil => intro table argvIdx result; cases table <;> rfl
  | cons token argv ih =>
      intro table argvIdx result
      cases table with
      | none => rfl
      | some entries =>
          have hderef : ∀ f : Table → Except ConsoleFault (PrefixResult CommandHandler),
              (derefTable (some entries) >>= f) = f entries := fun _ => rfl
          have htable : (some entries).isSome = true := rfl
          rw [readLongestPrefixFrom, findLongestPrefixFrom, if_pos htable, hderef]
          cases findArgument entries token with
          | none => rfl
          | some argument => exact ih _ _ _

/-! ### The handler of a path -/

/-- The deepest handler on a path, and its depth. -/
def deepestHandler (path : Table) : Option (CommandHandler × Nat) :=
  keepDeepest hasHandlerPredicate (fun node depth => node.handler.map (·, depth)) path 0 none

/-- Without a handler on the path nothing is called. -/
theorem callHandler_of_deepestHandler_none (h : deepestHandler (matchedPath argtable argv) = none) :
    callHandler call argtable argv = pure kNoHandler := by
  refine callHandler_of_none call ?_
  rcases none_or_exists_deepest hasHandlerPredicate (matchedPath argtable argv) with
    hnone | ⟨front, node, rest, hpath, hnode, hrest⟩
  · exact fun node hnode => handler_eq_none_iff.mp (hnone node hnode)
  · rw [hpath, deepestHandler, keepDeepest_of_deepest hnode hrest] at h
    rw [hasHandlerPredicate, Option.map_eq_none_iff.mp h] at hnode
    cases hnode

/-- The deepest handler on the path is called. -/
theorem callHandler_of_deepestHandler_some {handler : CommandHandler} {depth : Nat}
    (h : deepestHandler (matchedPath argtable argv) = some (handler, depth)) :
    callHandler call argtable argv = call (some handler) argv (depth + 1) := by
  rcases none_or_exists_deepest hasHandlerPredicate (matchedPath argtable argv) with
    hnone | ⟨front, node, rest, hpath, hnode, hrest⟩
  · rw [deepestHandler, keepDeepest_of_none hnone] at h
    cases h
  · rw [hpath, deepestHandler, keepDeepest_of_deepest hnode hrest, Nat.zero_add] at h
    obtain ⟨_, hhandler, heq⟩ := Option.map_eq_some_iff.mp h
    cases heq
    exact (callHandler_of_deepest call hpath hhandler fun deeper hdeeper =>
      handler_eq_none_iff.mp (hrest deeper hdeeper)).2

/-! ### The execution of a command line -/

variable {handler : CommandHandler} {depth : Nat}

/-- The help of the deepest handler has no table. -/
theorem microrlExecuteCallback_run_of_none {expected : Nat} (htable : helpTable argv = none)
    (hdeepest : deepestHandler (matchedPath argtable argv) = some (handler, depth))
    (hargs : numArgs handler = some expected) (hne : argv.length ≠ depth + 1 + expected)
    (console : ConsoleManager) :
    (microrlExecuteCallback argv).run console = .error .nullTable := by
  obtain ⟨appName, body, hcall, -⟩ := call_eq_expectArgs hargs argv (depth + 1)
  rw [microrlExecuteCallback, callHandler_of_deepestHandler_some hdeepest, hcall]
  exact run_bind_of_error (expectArgs_run_of_none hne htable console)

/-- The arguments are as many as the deepest handler expects. -/
def ArgsFit (argv : List CString) : Prop :=
  ∃ handler depth, deepestHandler (matchedPath argtable argv) = some (handler, depth) ∧
    ∀ expected, numArgs handler = some expected → argv.length = depth + 1 + expected

/-- The handler returns, as there is a help table or the arguments fit. -/
theorem call_returns (hdeepest : deepestHandler (matchedPath argtable argv) = some (handler, depth))
    (h : (helpTable argv).isSome = true ∨ ArgsFit argv) :
    ReturnsWithTables (call (some handler) argv (depth + 1)) := by
  cases hargs : numArgs handler with
  | none => exact call_returns_of_none hargs argv _
  | some expected =>
      obtain ⟨appName, body, hcall, hbody⟩ := call_eq_expectArgs hargs argv (depth + 1)
      rw [hcall]
      refine expectArgs_returns hbody (h.symm.imp_left ?_)
      rintro ⟨_, _, hdeepest', hfit⟩
      cases hdeepest.symm.trans hdeepest'
      exact hfit expected hargs

/-- With a table for the help, or with the right number of arguments, the command line is executed
to its end. -/
theorem microrlExecuteCallback_run (h : (helpTable argv).isSome = true ∨ ArgsFit argv)
    (console : ConsoleManager) :
    ∃ result console' helps,
      (microrlExecuteCallback argv).run console = .ok (result, console') ∧
      console'.helps = console.helps ++ helps ∧
      ∀ help ∈ helps, (helpTable help.argv).isSome = true := by
  rw [microrlExecuteCallback]
  cases hdeepest : deepestHandler (matchedPath argtable argv) with
  | none =>
      have htable : (helpTable argv).isSome = true := by
        refine h.resolve_right ?_
        rintro ⟨_, _, hsome, -⟩
        cases hdeepest.symm.trans hsome
      obtain ⟨entries, hentries⟩ := Option.isSome_iff_exists.mp htable
      rw [callHandler_of_deepestHandler_none hdeepest, pure_bind, if_pos rfl,
        run_bind_of_ok (print_run _ _)]
      obtain ⟨lines, hrun⟩ := displayHelp_run_of_some hentries _
      exact ⟨kNoHandler, _, [⟨argv, lines⟩], run_bind_of_ok hrun, rfl,
        List.forall_mem_singleton.mpr htable⟩
  | some found =>
      obtain ⟨result, console', helps, hrun, hresult, hhelps, htables⟩ :=
        call_returns hdeepest h console
      rw [callHandler_of_deepestHandler_some hdeepest, run_bind_of_ok hrun, if_neg hresult]
      exact ⟨result, console', helps, rfl, hhelps, htables⟩

/-! ### The chains of the tables -/

/-- The chains of a table, down to a depth. -/
def chains : Nat → Option Table → List Table
  | 0, _ => [[]]
  | _ + 1, none => [[]]
  | depth + 1, some entries =>
      [] :: entries.flatMap fun node => (chains depth node.options).map (node :: ·)

/-- Every path of the tables is in the list, cut at the depth. -/
theorem take_path_mem_chains (depth : Nat) :
    ∀ (table : Option Table) (argv : List CString),
      (argumentTables.path table argv).take depth ∈ chains depth table := by
  induction depth with
  | zero => intro table argv; exact List.mem_singleton.mpr rfl
  | succ depth ih =>
      intro table argv
      cases table with
      | none => cases argv <;> exact List.mem_singleton.mpr rfl
      | some entries =>
          cases argv with
          | nil => exact List.mem_cons_self
          | cons token argv =>
              have hfind : argumentTables.find entries token = findArgument entries token := rfl
              rw [Tables.path, hfind]
              cases hnode : findArgument entries token with
              | none => exact List.mem_cons_self
              | some node =>
                  refine List.mem_cons_of_mem _ (List.mem_flatMap.mpr ⟨node, ?_, ?_⟩)
                  · exact List.mem_of_find?_eq_some hnode
                  · exact List.mem_map_of_mem (ih node.options argv)

/-- No chain of the commands has more than four nodes. -/
theorem matchedPath_mem_chains (argv : List CString) :
    matchedPath argtable argv ∈ chains 5 (some argtable) := by
  have hshort : ∀ path ∈ chains 5 (some argtable), path.length ≤ 4 := by decide
  have hmem : (matchedPath argtable argv).take 5 ∈ chains 5 (some argtable) :=
    take_path_mem_chains 5 (some argtable) argv
  have hlen := hshort _ hmem
  rw [List.length_take] at hlen
  rwa [List.take_of_length_le (by omega)] at hmem

/-! ### The commands without options -/

/-- The commands without options that may display the help, and how many tokens they expect behind
their own. -/
def leafCommands : List (List CString × Nat) :=
  [(["config", "get", "lnSlotServer"], 0), (["config", "get", "generateI2CTurnoutResponse"], 0),
    (["config", "set", "turnoutProtocol", "MM2"], 0),
    (["config", "set", "turnoutProtocol", "DCC"], 0),
    (["config", "set", "turnoutProtocol", "SX1"], 0),
    (["config", "set", "lnSlotServer", "active"], 0),
    (["config", "set", "lnSlotServer", "passive"], 0),
    (["config", "set", "lnSlotServer", "disabled"], 0),
    (["config", "set", "generateI2CTurnoutResponse", "enabled"], 0),
    (["config", "set", "generateI2CTurnoutResponse", "disabled"], 0),
    (["lnSlotServer", "dump"], 0), (["lnSlotServer", "dispatch"], 1),
    (["canEngineDB", "downloadProtocol"], 1)].map
      fun command => (command.1.map String.toList, command.2)

/-- Each command of the list is a whole path without a table behind it, and its deepest handler
expects the number of tokens in the list. -/
theorem leafCommands_sound : ∀ command ∈ leafCommands,
    (matchedPath argtable command.1).length = command.1.length ∧
      (helpTable command.1).isNone = true ∧
      (deepestHandler (matchedPath argtable command.1)).any fun found =>
        (numArgs found.1).any fun expected =>
          found.2 + 1 + expected = command.1.length + command.2 := by
  decide

/-- A path without a table behind it has a handler. When the handler may display the help, the path
is in the list. -/
theorem leafCommands_complete : ∀ path ∈ chains 5 (some argtable),
    (argumentTables.belowLast (some argtable) path).isNone = true →
      (deepestHandler path).any fun found =>
        (numArgs found.1).all fun expected =>
          leafCommands.any fun command =>
            command.1 = path.map (·.name) ∧
              found.2 + 1 + expected = command.1.length + command.2 := by
  decide

/-- Behind the tokens of such a command the walk is at its end. -/
theorem matchedPath_of_leafCommand {command : List CString × Nat} (hmem : command ∈ leafCommands)
    (hbegins : command.1 <+: argv) :
    matchedPath argtable argv = matchedPath argtable command.1 ∧ helpTable argv = none := by
  obtain ⟨more, rfl⟩ := hbegins
  obtain ⟨hlen, htable, -⟩ := leafCommands_sound command hmem
  have hnone : helpTable command.1 = none := Option.isNone_iff_eq_none.mp htable
  have hpath : matchedPath argtable (command.1 ++ more) = matchedPath argtable command.1 := by
    have happend : matchedPath argtable (command.1 ++ more)
        = matchedPath argtable command.1 ++ argumentTables.path (helpTable command.1) more :=
      Tables.path_append command.1 more (some argtable) hlen
    rwa [hnone, Tables.path_of_none, List.append_nil] at happend
  refine ⟨hpath, ?_⟩
  rw [helpTable, hpath]
  exact hnone

/-- A path without a table behind it and with arguments that its handler refuses. -/
theorem exists_refused (htable : helpTable argv = none) (hargs : ¬ ArgsFit argv) :
    ∃ handler depth expected, deepestHandler (matchedPath argtable argv) = some (handler, depth) ∧
      numArgs handler = some expected ∧ argv.length ≠ depth + 1 + expected := by
  have hcomplete := leafCommands_complete _ (matchedPath_mem_chains argv)
    (Option.isNone_iff_eq_none.mpr htable)
  obtain ⟨⟨handler, depth⟩, hdeepest, -⟩ := (Option.any_eq_true _ _).mp hcomplete
  simp only [ArgsFit, not_exists, not_and, not_forall] at hargs
  obtain ⟨expected, hexpected, hne⟩ := hargs handler depth hdeepest
  exact ⟨handler, depth, expected, hdeepest, hexpected, hne⟩

/-- The condition on the tables is one on the list of commands and their numbers of arguments. -/
theorem isSome_or_argsFit_iff :
    (helpTable argv).isSome = true ∨ ArgsFit argv ↔
      ∀ command ∈ leafCommands, command.1 <+: argv →
        argv.length = command.1.length + command.2 := by
  constructor
  · intro h command hmem hbegins
    obtain ⟨hpath, hnone⟩ := matchedPath_of_leafCommand hmem hbegins
    obtain ⟨-, -, hsound⟩ := leafCommands_sound command hmem
    obtain ⟨⟨handler, depth⟩, hdeepest, hargs⟩ := (Option.any_eq_true _ _).mp hsound
    obtain ⟨expected, hexpected, hsum⟩ := (Option.any_eq_true _ _).mp hargs
    have hfit : ArgsFit argv := h.resolve_left (by rw [hnone]; exact Bool.false_ne_true)
    obtain ⟨_, _, hdeepest', hlen⟩ := hfit
    rw [hpath, hdeepest] at hdeepest'
    cases hdeepest'
    exact (hlen expected hexpected).trans (of_decide_eq_true hsum)
  · intro h
    cases htable : helpTable argv with
    | some entries => exact .inl rfl
    | none =>
        have hcomplete := leafCommands_complete _ (matchedPath_mem_chains argv)
          (Option.isNone_iff_eq_none.mpr htable)
        obtain ⟨⟨handler, depth⟩, hdeepest, hcommands⟩ := (Option.any_eq_true _ _).mp hcomplete
        refine .inr ⟨handler, depth, hdeepest, fun expected hexpected => ?_⟩
        -- The path is a command of the list, and `argv` begins with its names.
        rw [hexpected, Option.all_some] at hcommands
        obtain ⟨command, hmem, hcommand⟩ := List.any_eq_true.mp hcommands
        obtain ⟨hnames, hsum⟩ := of_decide_eq_true hcommand
        have hchain := (isMatchedPath_iff.mpr (Eq.refl (matchedPath argtable argv))).chain
        have hbegins : command.1 <+: argv := hnames ▸ hchain.map_name_isPrefix
        exact (h command hmem hbegins).trans hsum.symm

/-! ### Null tables -/

/-- The last matched node has no options. -/
def WithoutOptions (argv : List CString) : Prop :=
  ∃ last, (matchedPath argtable argv).getLast? = some last ∧ last.options = none

/-- There are no options to show a help for. -/
theorem WithoutOptions.helpTable_eq_none (h : WithoutOptions argv) : helpTable argv = none := by
  obtain ⟨last, hlast, hnone⟩ := h
  rw [helpTable, Tables.belowLast, hlast]
  exact hnone

/-- The lookup and the execution of a command line read no table through a null pointer, and a help
for a command without options has no entries. -/
structure ReadsNoNullTable (argv : List CString) (console : ConsoleManager) : Prop where
  lookup : ∀ predicate, readLongestPrefixFrom predicate argv (some argtable) 0 {}
    ≠ .error .nullTable
  execution : (microrlExecuteCallback argv).run console ≠ .error .nullTable
  entries : ∀ result console', (microrlExecuteCallback argv).run console = .ok (result, console') →
    ∃ helps, console'.helps = console.helps ++ helps ∧
      ∀ help ∈ helps, WithoutOptions help.argv → help.entries = []

/-- The command lines that read no null table are those where each command without options has as
many arguments as its handler expects. -/
theorem readsNoNullTable_iff (argv : List CString) (console : ConsoleManager) :
    ReadsNoNullTable argv console ↔
      ∀ command ∈ leafCommands, command.1 <+: argv →
        argv.length = command.1.length + command.2 := by
  rw [← isSome_or_argsFit_iff]
  constructor
  · intro h
    cases htable : helpTable argv with
    | some entries => exact .inl rfl
    | none =>
        refine .inr (by_contra fun hargs => ?_)
        obtain ⟨handler, depth, expected, hdeepest, hexpected, hne⟩ := exists_refused htable hargs
        exact h.execution
          (microrlExecuteCallback_run_of_none htable hdeepest hexpected hne console)
  · intro h
    obtain ⟨result, console', helps, hrun, hhelps, htables⟩ :=
      microrlExecuteCallback_run h console
    refine ⟨fun predicate hnull => ?_, fun hnull => ?_, fun result' console'' hrun' => ?_⟩
    · cases (readLongestPrefixFrom_eq predicate argv _ _ _).symm.trans hnull
    · cases hrun.symm.trans hnull
    · cases hrun.symm.trans hrun'
      refine ⟨helps, hhelps, fun help hmem hwithout => ?_⟩
      -- No help was displayed for a command without options.
      have htable := htables help hmem
      rw [hwithout.helpTable_eq_none] at htable
      cases htable

/-- One word too many behind a command, and the help reads its options. -/
theorem not_readsNoNullTable_getLnSlotServer :
    ¬ ReadsNoNullTable (["config", "get", "lnSlotServer", "please"].map String.toList) {} :=
  fun h => h.execution (microrlExecuteCallback_run_of_none rfl rfl rfl (by decide) {})

end ConsoleManager

end C6021Light
