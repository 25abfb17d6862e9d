import C6021Light.ConsoleManager
import C6021Light.Proofs.HandlerDispatch

/-!
# `C6021Light.Proofs.ConsoleHelp`: the help and its table

`display_help` shows the options of the last node that the command line matches (`helpTable`). A
node without options has a null pointer there, and the source reads a name through it.

A handler that expects a number of arguments displays the help for another number (`numArgs`). All
other handlers return, and what help they display is that of the root.
-/

set_option autoImplicit false

namespace C6021Light

open KeyPath FaultRun

namespace ConsoleManager

variable {argv : List CString} {argcMatched : Nat}

/-- Printing adds to the output. -/
theorem print_run (text : CString) (console : ConsoleManager) :
    (print text).run console = .ok ((), { console with output := console.output ++ text }) := rfl

/-- A table that is there can be read. -/
theorem derefTable_run (entries : Table) (console : ConsoleManager) :
    (liftM (derefTable (some entries)) : ConsoleRun Table).run console
      = .ok (entries, console) := rfl

/-! ### The help -/

/-- The table that `display_help` shows. -/
def helpTable (argv : List CString) : Option Table :=
  argumentTables.belowLast (some argtable) (matchedPath argtable argv)

/-- The help starts from the table that the matched words lead to. -/
theorem helpStart_eq (argv : List CString) :
    helpStart argv = .ok (helpTable argv, (matchedPath argtable argv).length) := by
  rw [helpStart, helpTable, findLongestPrefix_truePredicate]
  rcases (matchedPath argtable argv).eq_nil_or_concat with hnil | ⟨front, last, hpath⟩
  · rw [hnil]
    rfl
  · rw [hpath, List.concat_eq_append, List.length_append, List.length_singleton,
      Nat.add_sub_cancel, Tables.belowLast, List.getLast?_concat]
    rfl

/-- The tokens of a line are in `argv`. -/
theorem exists_argumentsText {argc : Nat} (h : argc ≤ argv.length) :
    ∃ text, argumentsText argc argv = .ok text := by
  have htoken : ∀ idx ∈ List.range argc, ∃ token, tokenAt argv idx = .ok token := by
    intro idx hidx
    have hlt : idx < argv.length := Nat.lt_of_lt_of_le (List.mem_range.mp hidx) h
    exact ⟨_, by rw [tokenAt, readArgv_of_lt hlt]; rfl⟩
  obtain ⟨tokens, htokens⟩ := exists_mapM_ok htoken
  exact ⟨_, by rw [argumentsText, htokens]; rfl⟩

/-- Without a table the help reads through a null pointer. -/
theorem displayHelp_run_of_none (h : helpTable argv = none) (console : ConsoleManager) :
    (displayHelp argv).run console = .error .nullTable := by
  rw [displayHelp, helpStart_eq, h]
  rfl

/-- With a table, the help comes to its end. -/
theorem displayHelp_run_of_some {entries : Table} (h : helpTable argv = some entries)
    (console : ConsoleManager) :
    ∃ lines, (displayHelp argv).run console
      = .ok ((), { console with
          output := console.output ++ "Available commands:\n".toList ++ lines.flatten
          helps := console.helps ++ [⟨argv, lines⟩] }) := by
  obtain ⟨arguments, harguments⟩ := exists_argumentsText (length_matchedPath_le argtable argv)
  have hline : ∀ entry ∈ entries,
      ∃ line, entryText (matchedPath argtable argv).length argv entry = .ok line :=
    fun entry _ => ⟨_, by rw [entryText, harguments]; rfl⟩
  obtain ⟨lines, hlines⟩ := exists_mapM_ok hline
  have hstart : (liftM (helpStart argv) : ConsoleRun (Option Table × Nat)).run console
      = .ok ((some entries, (matchedPath argtable argv).length), console) := by
    rw [helpStart_eq, h]
    rfl
  have hlist : ∀ console : ConsoleManager, (liftM (entries.mapM
      (entryText (matchedPath argtable argv).length argv)) : ConsoleRun (List CString)).run console
      = .ok (lines, console) := by
    intro console
    rw [hlines]
    rfl
  refine ⟨lines, ?_⟩
  rw [displayHelp, run_bind_of_ok hstart]
  dsimp only
  rw [run_bind_of_ok (print_run _ _), run_bind_of_ok (derefTable_run _ _),
    run_bind_of_ok (hlist _)]
  rfl

/-! ### Programs that return -/

/-- The program returns, and does not display the help. -/
def ReturnsQuietly (program : ConsoleRun Int) : Prop :=
  ∀ console, ∃ result console', program.run console = .ok (result, console') ∧
    result ≠ kNoHandler ∧ console'.helps = console.helps

/-- The program returns, and each help that it displays has a table. -/
def ReturnsWithTables (program : ConsoleRun Int) : Prop :=
  ∀ console, ∃ result console' helps, program.run console = .ok (result, console') ∧
    result ≠ kNoHandler ∧ console'.helps = console.helps ++ helps ∧
    ∀ help ∈ helps, (helpTable help.argv).isSome = true

/-- A program that displays no help displays none without a table. -/
theorem ReturnsQuietly.withTables {program : ConsoleRun Int} (h : ReturnsQuietly program) :
    ReturnsWithTables program := by
  intro console
  obtain ⟨result, console', hrun, hresult, hhelps⟩ := h console
  exact ⟨result, console', [], hrun, hresult, hhelps.trans (List.append_nil _).symm,
    fun _ hmem => absurd hmem List.not_mem_nil⟩

/-- The help for `argv`, and a return. -/
theorem displayHelp_returns (htable : (helpTable argv).isSome = true) {result : Int}
    (hresult : result ≠ kNoHandler) :
    ReturnsWithTables (do displayHelp argv; return result) := by
  intro console
  obtain ⟨entries, hentries⟩ := Option.isSome_iff_exists.mp htable
  obtain ⟨lines, hrun⟩ := displayHelp_run_of_some hentries console
  refine ⟨result, _, [⟨argv, lines⟩], run_bind_of_ok hrun, hresult, rfl, ?_⟩
  exact List.forall_mem_singleton.mpr htable

/-! ### Numbers of arguments -/

variable {argc : Int} {expected : Nat} {appName : CString} {body : ConsoleRun Int}

/-- With the expected number of arguments the check is silent. -/
theorem checkNumArgs_run_of_eq {bound : Int} (h : argc = bound) (console : ConsoleManager) :
    (checkNumArgs argc bound bound appName).run console = .ok (true, console) := by
  rw [checkNumArgs, if_neg (h ▸ lt_irrefl _), if_neg (h ▸ lt_irrefl _)]
  rfl

/-- With another number the check prints a text. -/
theorem checkNumArgs_run_of_ne {bound : Int} (h : argc ≠ bound) (console : ConsoleManager) :
    ∃ text, (checkNumArgs argc bound bound appName).run console
      = .ok (false, { console with output := console.output ++ text }) := by
  rw [checkNumArgs]
  by_cases hfew : argc < bound
  · rw [if_pos hfew]
    exact ⟨_, rfl⟩
  · have hmany : bound < argc := by omega
    rw [if_neg hfew, if_pos hmany]
    exact ⟨_, rfl⟩

/-- Another number of arguments, and no table for the help. -/
theorem expectArgs_run_of_none (hne : argv.length ≠ argcMatched + expected)
    (htable : helpTable argv = none) (console : ConsoleManager) :
    (expectArgs appName expected argv argcMatched body).run console = .error .nullTable := by
  have hargc : (argv.length : Int) - argcMatched ≠ expected := by omega
  obtain ⟨text, hcheck⟩ := @checkNumArgs_run_of_ne _ appName _ hargc console
  rw [expectArgs, run_bind_of_ok hcheck]
  exact run_bind_of_error (displayHelp_run_of_none htable _)

/-- A handler returns with its arguments, or when its help has a table. -/
theorem expectArgs_returns (hbody : argv.length = argcMatched + expected → ReturnsQuietly body)
    (h : argv.length = argcMatched + expected ∨ (helpTable argv).isSome = true) :
    ReturnsWithTables (expectArgs appName expected argv argcMatched body) := by
  intro console
  by_cases heq : argv.length = argcMatched + expected
  · have hargc : (argv.length : Int) - argcMatched = expected := by omega
    rw [expectArgs, run_bind_of_ok (checkNumArgs_run_of_eq hargc console)]
    exact (hbody heq).withTables console
  · have hargc : (argv.length : Int) - argcMatched ≠ expected := by omega
    obtain ⟨text, hcheck⟩ := @checkNumArgs_run_of_ne _ appName _ hargc console
    rw [expectArgs, run_bind_of_ok hcheck]
    exact displayHelp_returns (h.resolve_left heq) (by decide) _

/-- A handler without a help returns whatever its arguments are. -/
theorem expectNoArgs_returnsQuietly (hbody : ReturnsQuietly body) :
    ReturnsQuietly (expectNoArgs appName argv argcMatched body) := by
  intro console
  by_cases heq : (argv.length : Int) - argcMatched = 0
  · rw [expectNoArgs, run_bind_of_ok (checkNumArgs_run_of_eq heq console)]
    exact hbody console
  · obtain ⟨text, hcheck⟩ := @checkNumArgs_run_of_ne _ appName _ heq console
    rw [expectNoArgs, run_bind_of_ok hcheck]
    exact ⟨-2, _, rfl, by decide, rfl⟩

/-! ### Handlers -/

/-- How many arguments a handler expects, when it displays the help for another number. -/
def numArgs : CommandHandler → Option Nat
  | .runAppSetTurnoutProtocol | .runLnSlotServerDispatch | .runAppSetEnginedbProtocol => some 1
  | .runLnSlotServerActive | .runLnSlotServerPassive | .runLnSlotServerDisable
  | .runLnSlotServerGetstatus | .runLnSlotServerDump | .runGetGenerateI2CTurnoutResponse
  | .runSetGenerateI2CTurnoutResponseEnable | .runSetGenerateI2CTurnoutResponseDisable => some 0
  | .runAppGetTurnoutProtocol | .runAppSave | .runAppHelp | .runAppVersion | .runAppDumpFlash
  | .runAppFormatFlash | .runAppDownloadEnginedbCan | .runAppDumpEnginedbCan | .runAppCanPing =>
      none

/-- The argument behind the matched tokens. -/
theorem tokenAt_run (h : argv.length = argcMatched + 1) :
    ∃ token, ∀ console : ConsoleManager,
      (liftM (tokenAt argv argcMatched) : ConsoleRun CString).run console
        = .ok (token, console) := by
  have hlt : argcMatched < argv.length := by omega
  exact ⟨_, fun console => by rw [tokenAt, readArgv_of_lt hlt]; rfl⟩

/-- A handler that displays the help is a body behind the check of its arguments. -/
theorem call_eq_expectArgs {handler : CommandHandler} {expected : Nat}
    (h : numArgs handler = some expected) (argv : List CString) (argcMatched : Nat) :
    ∃ appName body,
      call (some handler) argv argcMatched = expectArgs appName expected argv argcMatched body ∧
      (argv.length = argcMatched + expected → ReturnsQuietly body) := by
  -- The handlers with an argument read it, and the others have nothing to read.
  cases handler with
  | runAppSetTurnoutProtocol =>
      cases h
      refine ⟨_, _, rfl, fun hlen console => ?_⟩
      obtain ⟨token, htoken⟩ := tokenAt_run hlen
      rw [run_bind_of_ok (htoken console)]
      cases railProtocolOf token with
      | some railProtocol => exact ⟨0, _, rfl, by decide, rfl⟩
      | none => exact ⟨-3, _, rfl, by decide, rfl⟩
  | runLnSlotServerDispatch =>
      cases h
      refine ⟨_, _, rfl, fun hlen console => ?_⟩
      obtain ⟨token, htoken⟩ := tokenAt_run hlen
      rw [run_bind_of_ok (htoken console)]
      exact ⟨0, _, rfl, by decide, rfl⟩
  | runAppSetEnginedbProtocol =>
      cases h
      refine ⟨_, _, rfl, fun hlen console => ?_⟩
      obtain ⟨token, htoken⟩ := tokenAt_run hlen
      rw [run_bind_of_ok (htoken console)]
      cases downloadProtocolOf token with
      | some selectedProtocol => exact ⟨0, _, rfl, by decide, rfl⟩
      | none => exact ⟨-3, _, rfl, by decide, rfl⟩
  | runLnSlotServerActive | runLnSlotServerPassive | runLnSlotServerDisable
  | runLnSlotServerGetstatus | runLnSlotServerDump | runGetGenerateI2CTurnoutResponse
  | runSetGenerateI2CTurnoutResponseEnable | runSetGenerateI2CTurnoutResponseDisable =>
      cases h
      exact ⟨_, _, rfl, fun _ console => ⟨0, _, rfl, by decide, rfl⟩⟩
  | _ => cases h

/-- The help of a handler that checks no arguments is that of the root. -/
theorem call_returns_of_none {handler : CommandHandler} (h : numArgs handler = none)
    (argv : List CString) (argcMatched : Nat) :
    ReturnsWithTables (call (some handler) argv argcMatched) := by
  cases handler with
  | runAppHelp => exact displayHelp_returns rfl (by decide)
  | runAppGetTurnoutProtocol | runAppSave =>
      refine (expectNoArgs_returnsQuietly ?_).withTables
      exact fun console => ⟨0, _, rfl, by decide, rfl⟩
  | runAppVersion | runAppDumpFlash | runAppFormatFlash | runAppDownloadEnginedbCan
  | runAppDumpEnginedbCan | runAppCanPing =>
      exact ReturnsQuietly.withTables fun console => ⟨0, _, rfl, by decide, rfl⟩
  | _ => cases h

end ConsoleManager

end C6021Light
