import C6021Light.ConsoleLanguage
import C6021Light.Proofs.ConsoleCompletion

/-!
# `C6021Light.Proofs.ConsoleSession`: a session at the console

A session is a run of the console over any keys (`ConsoleTask`). It executes the command lines of
the line editor in their order. The table walk finds the command that a line begins with
(`deepestHandler_eq`), and its handler does what the command means (`call_does`). So the
configuration after a session is what its command lines mean, one after the other.
-/

set_option autoImplicit false

namespace C6021Light

open FaultRun KeyPath LockStep

namespace ConsoleManager

open ConsoleState

variable {argv : List CString}

/-! ### The command of a line -/

/-- The tokens of a command lead to its node. -/
theorem commands_matched : ∀ command ∈ commands,
    (matchedPath argtable command.1).map (·.name) = command.1 := by
  decide

/-- On a path that begins with a command, its handler is the deepest one. -/
theorem deepestHandler_of_chain : ∀ path ∈ chains 5 (some argtable), ∀ command ∈ commands,
    command.1 <+: path.map (·.name) →
      deepestHandler path = some (command.2, command.1.length - 1) := by
  decide

/-- A path with a handler begins with a command. -/
theorem command_of_chain : ∀ path ∈ chains 5 (some argtable), (deepestHandler path).isSome = true →
    ∃ command ∈ commands, command.1 <+: path.map (·.name) := by
  decide

/-- The words of a command start the matched path exactly when they start the line. -/
theorem isPrefix_names_iff {command : List CString × CommandHandler} (hmem : command ∈ commands) :
    command.1 <+: (matchedPath argtable argv).map (·.name) ↔ command.1 <+: argv := by
  constructor
  · intro h
    have hmatched := isMatchedPath_iff.mpr (Eq.refl (matchedPath argtable argv))
    exact h.trans hmatched.chain.map_name_isPrefix
  · rintro ⟨more, rfl⟩
    have hnames := commands_matched command hmem
    have hlen : (matchedPath argtable command.1).length = command.1.length := by
      rw [← List.length_map (·.name), hnames]
    have happend : matchedPath argtable (command.1 ++ more)
        = matchedPath argtable command.1 ++ argumentTables.path (helpTable command.1) more :=
      Tables.path_append command.1 more (some argtable) hlen
    rw [happend, List.map_append, hnames]
    exact List.prefix_append _ _

/-- The command of a line is one of the tables, and its words start the line. -/
theorem of_commandAt {command : List CString × CommandHandler}
    (h : commandAt argv = some command) : command ∈ commands ∧ command.1 <+: argv := by
  have hfound : commands.find? (·.1.isPrefixOf argv) = some command := h
  exact ⟨List.mem_of_find?_eq_some hfound,
    List.isPrefixOf_iff_prefix.mp (List.find?_eq_some_iff_append.mp hfound).1⟩

/-- The walk through the tables finds the command that the line begins with. -/
theorem deepestHandler_eq (argv : List CString) :
    deepestHandler (matchedPath argtable argv)
      = (commandAt argv).map fun command => (command.2, command.1.length - 1) := by
  have hchain := matchedPath_mem_chains argv
  cases hcommand : commandAt argv with
  | some command =>
      obtain ⟨hmem, hbegins⟩ := of_commandAt hcommand
      exact deepestHandler_of_chain _ hchain command hmem ((isPrefix_names_iff hmem).mpr hbegins)
  | none =>
      rw [Option.map_none, ← Option.not_isSome_iff_eq_none]
      intro hsome
      obtain ⟨command, hmem, hnames⟩ := command_of_chain _ hchain hsome
      exact List.find?_eq_none.mp hcommand command hmem
        (List.isPrefixOf_iff_prefix.mpr ((isPrefix_names_iff hmem).mp hnames))

/-! ### What a handler does -/

variable {argcMatched expected : Nat} {appName : CString} {program body : ConsoleRun Int}
  {f : ConsoleState → ConsoleState}

/-- What a program does to the state, when it returns. -/
def Does (program : ConsoleRun Int) (f : ConsoleState → ConsoleState) : Prop :=
  ∀ console result console', program.run console = .ok (result, console') →
    console'.state = f console.state

/-- The effect may be written in another way. -/
theorem Does.congr {g : ConsoleState → ConsoleState} (h : Does program f)
    (heq : ∀ state, f state = g state) : Does program g :=
  fun console result console' hrun => (h console result console' hrun).trans (heq _)

/-- The help does nothing to the state. -/
theorem displayHelp_state {console console' : ConsoleManager} {done : Unit}
    (hrun : (displayHelp argv).run console = .ok (done, console')) :
    console'.state = console.state := by
  cases htable : helpTable argv with
  | none => cases (displayHelp_run_of_none htable console).symm.trans hrun
  | some entries =>
      obtain ⟨lines, hlines⟩ := displayHelp_run_of_some htable console
      cases hlines.symm.trans hrun
      rfl

/-- With the expected number of arguments the body runs. -/
theorem expectArgs_does (heq : argv.length = argcMatched + expected) (hbody : Does body f) :
    Does (expectArgs appName expected argv argcMatched body) f := by
  intro console result console' hrun
  have hargc : (argv.length : Int) - argcMatched = expected := by omega
  rw [expectArgs, run_bind_of_ok (checkNumArgs_run_of_eq hargc console)] at hrun
  exact hbody console result console' hrun

/-- With another number of arguments than expected, nothing is done. -/
theorem expectArgs_does_of_ne (hne : argv.length ≠ argcMatched + expected) :
    Does (expectArgs appName expected argv argcMatched body) id := by
  intro console result console' hrun
  have hargc : (argv.length : Int) - argcMatched ≠ expected := by omega
  obtain ⟨text, hcheck⟩ := @checkNumArgs_run_of_ne _ appName _ hargc console
  rw [expectArgs, run_bind_of_ok hcheck] at hrun
  obtain ⟨_, next, hhelp, hend⟩ := run_bind_eq_ok.mp hrun
  cases hend
  have hstate := displayHelp_state hhelp
  exact hstate

/-- Without further words a handler without arguments does its work. -/
theorem noArgs_drop (hle : argcMatched ≤ argv.length) (state done : ConsoleState) :
    state.noArgs (argv.drop argcMatched) done
      = if argv.length = argcMatched then done else state := by
  refine if_congr (List.drop_eq_nil_iff.trans ?_) rfl rfl
  exact ⟨fun h => Nat.le_antisymm h hle, fun h => h.le⟩

/-- With another number of words than one the handler does nothing. -/
theorem oneArg_drop_of_ne {α : Type} (hne : argv.length ≠ argcMatched + 1) (state : ConsoleState)
    (parse : CString → Option α) (done : α → ConsoleState) :
    state.oneArg (argv.drop argcMatched) parse done = state := by
  rw [oneArg.eq_def]
  split
  · rename_i arg harg
    have hlen := congrArg List.length harg
    rw [List.length_drop, List.length_singleton] at hlen
    omega
  · rfl

/-- With one further word the handler gets it. -/
theorem exists_oneArg {α : Type} (hlen : argv.length = argcMatched + 1) :
    ∃ arg, tokenAt argv argcMatched = .ok arg ∧
      ∀ (state : ConsoleState) (parse : CString → Option α) (done : α → ConsoleState),
        state.oneArg (argv.drop argcMatched) parse done = (parse arg).elim state done := by
  have hlt : argcMatched < argv.length := by omega
  refine ⟨argv[argcMatched], by rw [tokenAt, readArgv_of_lt hlt]; rfl, fun state parse done => ?_⟩
  have hdrop : argv.drop argcMatched = [argv[argcMatched]] := by
    rw [List.drop_eq_getElem_cons hlt, List.drop_of_length_le (by omega)]
  rw [hdrop]
  rfl

/-- A handler with one argument. -/
theorem oneArg_does {α : Type} {parse : CString → Option α} {done : ConsoleState → α → ConsoleState}
    {body : CString → ConsoleRun Int}
    (hbody : ∀ arg, Does (body arg) fun state => (parse arg).elim state (done state)) :
    Does (expectArgs appName 1 argv argcMatched
        (do body (← (liftM (tokenAt argv argcMatched) : ConsoleRun CString))))
      fun state => state.oneArg (argv.drop argcMatched) parse (done state) := by
  by_cases hlen : argv.length = argcMatched + 1
  · obtain ⟨arg, htoken, hone⟩ := exists_oneArg (α := α) hlen
    refine (expectArgs_does hlen fun console result console' hrun => ?_).congr fun state =>
      (hone state parse (done state)).symm
    obtain ⟨arg', next, hread, hnext⟩ := run_bind_eq_ok.mp hrun
    obtain ⟨harg, hsame⟩ := run_liftM_eq_ok.mp hread
    obtain rfl : arg = arg' := Except.ok.inj (htoken.symm.trans harg)
    obtain rfl : next = console := hsame
    exact hbody arg _ _ _ hnext
  · exact (expectArgs_does_of_ne hlen).congr fun state =>
      (oneArg_drop_of_ne hlen state parse (done state)).symm

/-- A handler without arguments. -/
theorem noArgs_does {done : ConsoleState → ConsoleState} (hle : argcMatched ≤ argv.length)
    (hbody : Does body done) :
    Does (expectArgs appName 0 argv argcMatched body) fun state =>
      state.noArgs (argv.drop argcMatched) (done state) := by
  by_cases hlen : argv.length = argcMatched
  · exact (expectArgs_does hlen hbody).congr fun state =>
      ((noArgs_drop hle state _).trans (if_pos hlen)).symm
  · exact (expectArgs_does_of_ne hlen).congr fun state =>
      ((noArgs_drop hle state _).trans (if_neg hlen)).symm

/-- A handler that refuses arguments without the help. -/
theorem expectNoArgs_does {done : ConsoleState → ConsoleState} (hle : argcMatched ≤ argv.length)
    (hbody : Does body done) :
    Does (expectNoArgs appName argv argcMatched body) fun state =>
      state.noArgs (argv.drop argcMatched) (done state) := by
  intro console result console' hrun
  refine Eq.trans ?_ (noArgs_drop hle console.state _).symm
  by_cases heq : (argv.length : Int) - argcMatched = 0
  · rw [expectNoArgs, run_bind_of_ok (checkNumArgs_run_of_eq heq console)] at hrun
    rw [if_pos (by omega)]
    exact hbody console result console' hrun
  · obtain ⟨text, hcheck⟩ := @checkNumArgs_run_of_ne _ appName _ heq console
    rw [expectNoArgs, run_bind_of_ok hcheck] at hrun
    cases hrun
    rw [if_neg (by omega)]
    rfl

/-- Each handler does what its command means. -/
theorem call_does (handler : CommandHandler) (hle : argcMatched ≤ argv.length) :
    Does (call (some handler) argv argcMatched)
      (effect handler (argv.drop argcMatched)) := by
  -- The handlers differ in how they check their arguments.
  cases handler with
  | runAppSetTurnoutProtocol =>
      refine oneArg_does fun arg console result console' hrun => ?_
      cases hparse : railProtocolOf arg with
      | none =>
          rw [hparse] at hrun
          cases hrun
          rfl
      | some railProtocol =>
          rw [hparse] at hrun
          cases hrun
          rfl
  | runAppSetEnginedbProtocol =>
      refine oneArg_does fun arg console result console' hrun => ?_
      cases hparse : downloadProtocolOf arg with
      | none =>
          rw [hparse] at hrun
          cases hrun
          rfl
      | some selectedProtocol =>
          rw [hparse] at hrun
          cases hrun
          rfl
  | runLnSlotServerDispatch =>
      refine oneArg_does fun arg console result console' hrun => ?_
      cases hrun
      rfl
  | runLnSlotServerActive | runLnSlotServerPassive | runLnSlotServerDisable | runLnSlotServerDump
  | runSetGenerateI2CTurnoutResponseEnable | runSetGenerateI2CTurnoutResponseDisable =>
      refine noArgs_does hle fun console result console' hrun => ?_
      cases hrun
      rfl
  | runAppSave =>
      refine expectNoArgs_does hle fun console result console' hrun => ?_
      cases hrun
      rfl
  | runLnSlotServerGetstatus | runGetGenerateI2CTurnoutResponse =>
      refine (noArgs_does hle fun console result console' hrun => ?_).congr
        fun state => ite_self state
      cases hrun
      rfl
  | runAppGetTurnoutProtocol =>
      refine (expectNoArgs_does hle fun console result console' hrun => ?_).congr fun state =>
        ite_self state
      cases hrun
      rfl
  | runAppHelp =>
      intro console result console' hrun
      obtain ⟨_, next, hhelp, hend⟩ := run_bind_eq_ok.mp hrun
      cases hend
      exact displayHelp_state hhelp
  | runAppVersion | runAppDumpFlash | runAppFormatFlash | runAppDownloadEnginedbCan
  | runAppDumpEnginedbCan | runAppCanPing =>
      intro console result console' hrun
      cases hrun
      rfl

/-- A command line does what it means. -/
theorem microrlExecuteCallback_does (argv : List CString) :
    Does (microrlExecuteCallback argv) (meaning argv) := by
  intro console result console' hrun
  obtain ⟨result', next, hcall, hend⟩ := run_bind_eq_ok.mp hrun
  -- The help for an unknown command does not matter.
  have hstate : console'.state = next.state := by
    split at hend
    · obtain ⟨_, printed, hprint, hnext⟩ := run_bind_eq_ok.mp hend
      obtain ⟨_, helped, hhelp, hreturn⟩ := run_bind_eq_ok.mp hnext
      cases hprint
      cases hreturn
      have hhelped := displayHelp_state hhelp
      exact hhelped
    · cases hend
      rfl
  rw [hstate, meaning]
  have hdeepest := deepestHandler_eq argv
  cases hcommand : commandAt argv with
  | none =>
      rw [hcommand] at hdeepest
      rw [callHandler_of_deepestHandler_none hdeepest] at hcall
      cases hcall
      rfl
  | some command =>
      rw [hcommand] at hdeepest
      obtain ⟨hmem, hbegins⟩ := of_commandAt hcommand
      have hsome : ∀ command ∈ commands, command.1.length - 1 + 1 = command.1.length := by decide
      rw [callHandler_of_deepestHandler_some hdeepest, hsome command hmem] at hcall
      exact call_does command.2 hbegins.length_le _ _ _ hcall

end ConsoleManager

namespace ConsoleTask

open ConsoleManager ConsoleState Microrl

variable {task task' : ConsoleTask} {editor : LineEditor} {keys : List Byte}

/-! ### The keys of the console -/

/-- A command line is executed. -/
def runCommand (console : ConsoleManager) (argv : List CString) :
    Except ConsoleFault ConsoleManager :=
  ((microrlExecuteCallback argv).run console).map (·.2)

/-- A command that returns does what the line means. -/
theorem runCommand_state {console console' : ConsoleManager} {argv : List CString}
    (h : runCommand console argv = .ok console') : console'.state = meaning argv console.state := by
  rw [runCommand] at h
  cases hrun : (microrlExecuteCallback argv).run console with
  | error e =>
      rw [hrun] at h
      cases h
  | ok result =>
      rw [hrun] at h
      cases h
      exact microrlExecuteCallback_does argv console result.1 result.2 hrun

/-- The calls of a key run its commands. -/
theorem foldlM_handleCall (calls : List MicrorlCall) :
    ∀ {task task' : ConsoleTask}, calls.foldlM handleCall task = .ok task' →
      task'.microrl = task.microrl ∧
        (executions calls).foldlM runCommand task.console = .ok task'.console := by
  -- The induction is on the calls. A print leaves the console alone.
  induction calls with
  | nil =>
      intro task task' h
      cases h
      exact ⟨rfl, rfl⟩
  | cons call calls ih =>
      intro task task' h
      rw [List.foldlM_cons] at h
      obtain ⟨next, hcall, hrest⟩ := bind_eq_ok.mp h
      obtain ⟨hmicrorl, hconsole⟩ := ih hrest
      cases call with
      | print text =>
          cases hcall
          exact ⟨hmicrorl, hconsole⟩
      | execute argv =>
          obtain ⟨⟨result, console⟩, hrun, hend⟩ := bind_eq_ok.mp hcall
          cases hend
          have hrun' := LineEditor.of_mapError hrun
          refine ⟨hmicrorl, ?_⟩
          show (argv :: executions calls).foldlM runCommand task.console = _
          have hcommand : runCommand task.console argv = .ok console := by
            rw [runCommand, hrun']
            rfl
          rw [List.foldlM_cons, hcommand]
          exact hconsole

/-- A key adds calls. Only a CR executes something. -/
theorem calls_step {editor' : LineEditor} {ch : Byte} (h : editor.step ch = .ok editor') :
    ∃ new, editor'.calls = editor.calls ++ new ∧
      executions new = if editor.escape = false ∧ MicrorlKey.ofByte ch = .cr
        then executions editor.commandCalls else [] := by
  by_cases hsubmit : editor.escape = false ∧ MicrorlKey.ofByte ch = .cr
  · cases (LineEditor.step_cr hsubmit.2 hsubmit.1).symm.trans h
    refine ⟨.print endl :: editor.commandCalls ++ [.print promptDefault], ?_, ?_⟩
    · show ((editor.calls ++ [.print endl]) ++ editor.commandCalls) ++ [.print promptDefault] = _
      simp only [List.append_assoc, List.cons_append, List.nil_append]
    · rw [if_pos hsubmit, executions_append]
      exact List.append_nil _
  · obtain hedits | ⟨hescape, hcr, -⟩ :=
      LineEditor.step_cases (allows_ne_space editor.getCompletion) h
    · obtain ⟨texts, hcalls⟩ := hedits.calls
      exact ⟨_, hcalls, by rw [if_neg hsubmit, executions_prints]⟩
    · exact absurd ⟨hescape, hcr⟩ hsubmit

/-- What holds in each state of a session. -/
structure Session (console : ConsoleManager) (task : ConsoleTask) (editor : LineEditor) : Prop where
  represents : task.microrl.Represents editor
  execute : editor.execute = true
  getCompletion : editor.getCompletion = some microrlCompleteCallback
  commands : (executions task.microrl.calls).foldlM runCommand console = .ok task.console

variable {console : ConsoleManager}

/-- A session starts with an empty line and no command. -/
theorem session_begin (console : ConsoleManager) :
    Session console (.begin console) (.start true (some microrlCompleteCallback)) :=
  ⟨represents_begin true _, rfl, rfl, rfl⟩

/-- A key is a step of the line editor, and its calls are executed. -/
theorem exists_step (h : task.microrl.Represents editor) {ch : Byte}
    (hstep : task.insertChar ch = .ok task') :
    ∃ editor' new, editor.step ch = .ok editor' ∧ task'.microrl.Represents editor' ∧
      editor'.calls = editor.calls ++ new ∧
      new.foldlM handleCall { task with microrl := task'.microrl } = .ok task' := by
  obtain ⟨microrl, hmicrorl, hcalls⟩ := bind_eq_ok.mp hstep
  obtain ⟨editor', heditor, h'⟩ :=
    (microrlInsertChar_agree h ch).exists_right (LineEditor.of_mapError hmicrorl)
  obtain ⟨new, hnew, -⟩ := calls_step heditor
  rw [h'.calls, hnew, h.calls, List.drop_left] at hcalls
  obtain rfl : task'.microrl = microrl := (foldlM_handleCall new hcalls).1
  exact ⟨editor', new, heditor, h', hnew, hcalls⟩

/-- A session goes on with each key. -/
theorem session_step (h : Session console task editor) {ch : Byte}
    (hstep : task.insertChar ch = .ok task') :
    ∃ editor', editor.step ch = .ok editor' ∧ Session console task' editor' := by
  obtain ⟨editor', new, heditor, h', hnew, hcalls⟩ := exists_step h.represents hstep
  have hexecute : editor'.execute = editor.execute := by
    obtain hedits | ⟨-, -, rfl⟩ :=
      LineEditor.step_cases (allows_ne_space editor.getCompletion) heditor
    · exact hedits.execute
    · rfl
  refine ⟨editor', heditor, h', hexecute.trans h.execute,
    (getCompletion_step heditor).trans h.getCompletion, ?_⟩
  rw [h'.calls, hnew, executions_append, List.foldlM_append, ← h.represents.calls, h.commands]
  exact (foldlM_handleCall new hcalls).2

/-- The session of some keys. -/
theorem session_run {front : List Byte} :
    ∀ {task : ConsoleTask} {editor : LineEditor}, Session console task editor →
      front.foldlM insertChar task = .ok task' →
      ∃ editor', front.foldlM LineEditor.step editor = .ok editor' ∧
        Session console task' editor' := by
  induction front with
  | nil =>
      intro task editor h hrun
      cases hrun
      exact ⟨editor, rfl, h⟩
  | cons ch front ih =>
      intro task editor h hrun
      rw [List.foldlM_cons] at hrun
      obtain ⟨next, hstep, hrest⟩ := bind_eq_ok.mp hrun
      obtain ⟨editor', heditor, h'⟩ := session_step h hstep
      obtain ⟨last, hlast, hsession⟩ := ih h' hrest
      exact ⟨last, by rw [List.foldlM_cons, heditor]; exact hlast, hsession⟩

/-- The commands of a session, one after the other. -/
theorem foldlM_runCommand_state (commands : List (List CString)) :
    ∀ {console console' : ConsoleManager}, commands.foldlM runCommand console = .ok console' →
      console'.state = commands.foldl (fun state argv => meaning argv state) console.state := by
  induction commands with
  | nil =>
      intro console console' h
      cases h
      rfl
  | cons argv commands ih =>
      intro console console' h
      rw [List.foldlM_cons] at h
      obtain ⟨next, hcommand, hrest⟩ := bind_eq_ok.mp h
      rw [List.foldl_cons, ← runCommand_state hcommand]
      exact ih hrest

/-! ### Faults -/

/-- A command without options that has the wrong number of arguments. Its help has no table. -/
def Refused (argv : List CString) : Prop :=
  ∃ command ∈ leafCommands, command.1 <+: argv ∧ argv.length ≠ command.1.length + command.2

/-- Whether a line is refused can be computed. -/
instance (argv : List CString) : Decidable (Refused argv) :=
  inferInstanceAs (Decidable (∃ command ∈ leafCommands, _))

/-- A command faults exactly when it is refused. -/
theorem runCommand_error_iff {argv : List CString} :
    (∃ e, runCommand console argv = .error e) ↔ Refused argv := by
  have hrefused : Refused argv ↔ ¬ ((helpTable argv).isSome = true ∨ ArgsFit argv) := by
    rw [isSome_or_argsFit_iff]
    simp only [Refused, not_forall, exists_prop]
  rw [hrefused]
  constructor
  · rintro ⟨e, herror⟩ h
    obtain ⟨result, console', helps, hrun, -⟩ := microrlExecuteCallback_run h console
    rw [runCommand, hrun] at herror
    cases herror
  · intro h
    obtain ⟨htable, hargs⟩ := not_or.mp h
    have hnone : helpTable argv = none := Option.not_isSome_iff_eq_none.mp htable
    obtain ⟨handler, depth, expected, hdeepest, hexpected, hne⟩ := exists_refused hnone hargs
    refine ⟨.nullTable, ?_⟩
    rw [runCommand, microrlExecuteCallback_run_of_none hnone hdeepest hexpected hne console]
    rfl

/-- Printing never faults. -/
theorem handleCall_print (task : ConsoleTask) (text : CString) :
    ∃ task', task.handleCall (.print text) = .ok task' := ⟨_, rfl⟩

/-- A call faults exactly when its command is refused. -/
theorem handleCall_error_iff {argv : List CString} :
    (∃ e, task.handleCall (.execute argv) = .error e) ↔ Refused argv := by
  rw [← @runCommand_error_iff task.console _, handleCall, runCommand]
  cases (microrlExecuteCallback argv).run task.console with
  | error e => exact iff_of_true ⟨_, rfl⟩ ⟨_, rfl⟩
  | ok result => exact iff_of_false (fun h => nomatch h) fun h => nomatch h

/-- The calls of a key have a fault when a command line is refused. -/
theorem foldlM_handleCall_error_iff (calls : List MicrorlCall) :
    ∀ {task : ConsoleTask}, (∃ e, calls.foldlM handleCall task = .error e) ↔
      ∃ argv ∈ executions calls, Refused argv := by
  induction calls with
  | nil => exact iff_of_false (fun h => nomatch h) fun h => nomatch h
  | cons call calls ih =>
      intro task
      rw [List.foldlM_cons]
      cases call with
      | print text =>
          obtain ⟨next, hnext⟩ := handleCall_print task text
          rw [hnext]
          exact ih
      | execute argv =>
          show _ ↔ ∃ argv' ∈ argv :: executions calls, Refused argv'
          rw [List.exists_mem_cons_iff]
          cases hcall : task.handleCall (.execute argv) with
          | error e =>
              exact iff_of_true ⟨e, rfl⟩ (.inl (handleCall_error_iff.mp ⟨e, hcall⟩))
          | ok next =>
              have haccepted : ¬ Refused argv := fun h => by
                obtain ⟨e, herror⟩ := (@handleCall_error_iff task _).mpr h
                cases hcall.symm.trans herror
              rw [or_iff_right haccepted]
              exact ih

/-- A key faults exactly when it is a TAB where the completion faults, or a CR behind a refused
command. -/
theorem Session.insertChar_error_iff (h : Session console task editor) {ch : Byte} :
    (∃ e, task.insertChar ch = .error e) ↔
      editor.escape = false ∧
        (MicrorlKey.ofByte ch = .ht ∧ editor.TabFaults ∨
          MicrorlKey.ofByte ch = .cr ∧ editor.command.length < commandTokenNmb ∧
            Refused editor.command) := by
  have hagree := microrlInsertChar_agree h.represents ch
  have htab : (∃ e, editor.complete = .error e) ↔ editor.TabFaults :=
    LineEditor.complete_error_iff h.getCompletion h.represents.length_line_lt
  rw [insertChar]
  cases hstep : editor.step ch with
  | error e =>
      -- The editor itself faults in the completion only.
      obtain ⟨hescape, hht, hcomplete⟩ := LineEditor.step_error_iff.mp hstep
      rw [hagree.error_iff.mpr hstep]
      exact iff_of_true ⟨_, rfl⟩ ⟨hescape, .inl ⟨hht, htab.mp ⟨e, hcomplete⟩⟩⟩
  | ok editor' =>
      -- The editor goes on, so only the execution of its command can fault.
      obtain ⟨microrl, hmicrorl, h'⟩ := hagree.exists_left hstep
      obtain ⟨new, hnew, hexecutions⟩ := calls_step hstep
      have hdrop : microrl.calls.drop task.microrl.calls.length = new := by
        rw [h'.calls, hnew, h.represents.calls, List.drop_left]
      rw [hmicrorl]
      show (∃ e, (microrl.calls.drop task.microrl.calls.length).foldlM handleCall _ = .error e) ↔ _
      rw [hdrop, foldlM_handleCall_error_iff, hexecutions]
      -- A TAB that does not fault executes nothing.
      have hnotab : ¬ (editor.escape = false ∧ MicrorlKey.ofByte ch = .ht ∧ editor.TabFaults) := by
        rintro ⟨hescape, hht, hfaults⟩
        obtain ⟨e, hcomplete⟩ := htab.mpr hfaults
        cases hstep.symm.trans (LineEditor.step_error_iff.mpr ⟨hescape, hht, hcomplete⟩)
      rw [and_or_left, or_iff_right hnotab]
      by_cases hsubmit : editor.escape = false ∧ MicrorlKey.ofByte ch = .cr
      · rw [if_pos hsubmit, LineEditor.executions_commandCalls_eq, LineEditor.commandOf, h.execute,
          Bool.and_true, and_iff_right hsubmit.1, and_iff_right hsubmit.2]
        split
        · rename_i hfew
          rw [Bool.and_eq_true, decide_eq_true_iff] at hfew
          simp only [List.mem_singleton, exists_eq_left, hfew.1, true_and]
        · rename_i hmany
          -- A refused command is not empty, so an empty line is no exception.
          refine iff_of_false (by simp) fun h => hmany ?_
          obtain ⟨hfew, hrefused⟩ := h
          rw [Bool.and_eq_true, decide_eq_true_iff, decide_eq_true_iff]
          refine ⟨hfew, fun hnil => ?_⟩
          obtain ⟨command, hmem, hbegins, -⟩ := hrefused
          rw [hnil, List.prefix_nil] at hbegins
          have hne : ∀ command ∈ leafCommands, command.1 ≠ [] := by decide
          exact hne command hmem hbegins
      · rw [if_neg hsubmit]
        exact iff_of_false (by simp) fun h => hsubmit ⟨h.1, h.2.1⟩

/-- The console reads and writes within its arrays and its tables, whatever keys come, up to a TAB
in one of four situations, or a CR behind a command that has the wrong number of arguments. -/
theorem session_error_iff (console : ConsoleManager) (keys : List Byte) :
    (∃ e, keys.foldlM insertChar (.begin console) = .error e) ↔
      ∃ front ch rest editor, keys = front ++ ch :: rest ∧
        front.foldlM LineEditor.step (.start true (some microrlCompleteCallback)) = .ok editor ∧
        editor.escape = false ∧
        (MicrorlKey.ofByte ch = .ht ∧ editor.TabFaults ∨
          MicrorlKey.ofByte ch = .cr ∧ editor.command.length < commandTokenNmb ∧
            Refused editor.command) := by
  constructor
  · rintro ⟨e, herror⟩
    -- The first key that faults comes behind a session.
    obtain ⟨front, ch, rest, task, hkeys, hfront, hstep⟩ := foldlM_eq_error _ |>.mp herror
    obtain ⟨editor, heditor, h⟩ := session_run (session_begin console) hfront
    exact ⟨front, ch, rest, editor, hkeys, heditor, h.insertChar_error_iff.mp ⟨e, hstep⟩⟩
  · rintro ⟨front, ch, rest, editor, rfl, heditor, hfault⟩
    rw [List.foldlM_append]
    -- The keys in front of it may fault in the console, which is a fault of the whole run.
    cases hfront : front.foldlM insertChar (.begin console) with
    | error e => exact ⟨e, rfl⟩
    | ok task =>
        obtain ⟨editor', heditor', h⟩ := session_run (session_begin console) hfront
        cases heditor.symm.trans heditor'
        obtain ⟨e, hstep⟩ := h.insertChar_error_iff.mpr hfault
        refine ⟨e, ?_⟩
        show (ch :: rest).foldlM insertChar task = .error e
        rw [List.foldlM_cons, hstep]
        rfl

/-! ### Typed sessions -/

/-- A run only adds to the executed commands. -/
theorem executions_run {front : List Byte} :
    ∀ {editor editor' : LineEditor}, front.foldlM LineEditor.step editor = .ok editor' →
      ∃ new, executions editor'.calls = executions editor.calls ++ new := by
  induction front with
  | nil =>
      intro editor editor' hrun
      cases hrun
      exact ⟨[], (List.append_nil _).symm⟩
  | cons ch front ih =>
      intro editor editor' hrun
      rw [List.foldlM_cons] at hrun
      obtain ⟨next, hstep, hrest⟩ := bind_eq_ok.mp hrun
      obtain ⟨new, hnew, -⟩ := calls_step hstep
      obtain ⟨more, hmore⟩ := ih hrest
      exact ⟨executions new ++ more, by rw [hmore, hnew, executions_append, List.append_assoc]⟩

/-- A run of the line editor is a session, when no command line is refused. -/
theorem Session.exists_run {front : List Byte} :
    ∀ {task : ConsoleTask} {editor editor' : LineEditor}, Session console task editor →
      front.foldlM LineEditor.step editor = .ok editor' →
      (∀ argv ∈ executions editor'.calls, ¬ Refused argv) →
      ∃ task', front.foldlM insertChar task = .ok task' ∧ Session console task' editor' := by
  induction front with
  | nil =>
      intro task editor editor' h hrun _
      cases hrun
      exact ⟨task, rfl, h⟩
  | cons ch front ih =>
      intro task editor editor' h hrun haccepted
      rw [List.foldlM_cons] at hrun
      obtain ⟨next, hstep, hrest⟩ := bind_eq_ok.mp hrun
      obtain ⟨new, hnew, hexecutions⟩ := calls_step hstep
      obtain ⟨more, hmore⟩ := executions_run hrest
      -- The console faults only where the editor does, or behind a refused command. Neither is the
      -- case.
      cases htask : task.insertChar ch with
      | error e =>
          obtain ⟨hescape, ⟨hht, hfaults⟩ | ⟨hcr, hfew, hrefused⟩⟩ :=
            h.insertChar_error_iff.mp ⟨e, htask⟩
          · obtain ⟨e', hcomplete⟩ := (LineEditor.complete_error_iff h.getCompletion
              h.represents.length_line_lt).mpr hfaults
            cases hstep.symm.trans (LineEditor.step_error_iff.mpr ⟨hescape, hht, hcomplete⟩)
          · refine absurd hrefused (haccepted _ ?_)
            rw [if_pos ⟨hescape, hcr⟩, LineEditor.executions_commandCalls_eq, LineEditor.commandOf,
              if_pos] at hexecutions
            · rw [hmore, hnew, executions_append, hexecutions]
              exact List.mem_append_left _ (List.mem_append_right _ List.mem_cons_self)
            · obtain ⟨command, hmem, hbegins, -⟩ := hrefused
              have hne : ∀ command ∈ leafCommands, command.1 ≠ [] := by decide
              have hsome : editor.command ≠ [] := fun hnil =>
                hne command hmem (List.prefix_nil.mp (hnil ▸ hbegins))
              rw [h.execute, decide_eq_true hfew, decide_eq_true hsome]
              rfl
      | ok next' =>
          obtain ⟨editor'', heditor'', h'⟩ := session_step h htask
          cases hstep.symm.trans heditor''
          obtain ⟨last, hlast, hsession⟩ := ih h' hrest haccepted
          exact ⟨last, by rw [List.foldlM_cons, htask]; exact hlast, hsession⟩

/-- Typed texts, each with a CR behind it. Their words are executed in their order. -/
theorem typed_session (console : ConsoleManager) {cr : Byte} (hcr : MicrorlKey.ofByte cr = .cr)
    {texts : List (List Byte)} (htexts : ∀ text ∈ texts, ∀ ch ∈ text, Typable ch)
    (haccepted : ∀ text ∈ texts, ¬ Refused (LineEditor.typedWords (text.map charOfByte))) :
    ∃ task, (texts.flatMap (· ++ [cr])).foldlM insertChar (.begin console) = .ok task ∧
      executions task.microrl.calls
        = texts.flatMap fun text =>
            LineEditor.commandOf true (LineEditor.typedWords (text.map charOfByte)) := by
  obtain ⟨editor, hrun, -, -, -, -, hexecutions⟩ :=
    @LineEditor.submit_texts _ hcr texts (.start true (some microrlCompleteCallback)) [] htexts
      ⟨rfl, rfl, rfl⟩ rfl rfl
  have hall : ∀ argv ∈ executions editor.calls, ¬ Refused argv := by
    rw [hexecutions]
    intro argv hargv
    obtain ⟨text, htext, hwords⟩ := List.mem_flatMap.mp hargv
    rw [LineEditor.commandOf] at hwords
    split at hwords
    · rw [List.mem_singleton.mp hwords]
      exact haccepted text htext
    · cases hwords
  obtain ⟨task, htask, h⟩ := (session_begin console).exists_run hrun hall
  refine ⟨task, htask, ?_⟩
  rw [h.represents.calls, hexecutions]
  rfl

/-! ### What a session does -/

/-- Whatever keys come, the configuration and the calls of other components are what the executed
command lines mean, one after the other. -/
theorem session_meaning (hrun : keys.foldlM insertChar (.begin console) = .ok task) :
    task.console.state
      = (executions task.microrl.calls).foldl (fun state argv => meaning argv state)
          console.state := by
  obtain ⟨editor, -, h⟩ := session_run (session_begin console) hrun
  exact foldlM_runCommand_state _ h.commands

/-- The keys of a text. -/
def keysOf (text : String) : List Byte := text.toList.map fun c => .ofNat 8 c.toNat

/-- The configuration is saved once. The second `flash save` has an argument. -/
def flashTexts : List (List Byte) := ["flash save", "flash", "flash save now"].map keysOf

/-- The session with `flash save` saves the default configuration. -/
theorem session_meaning_flashSave :
    ∃ task, (flashTexts.flatMap (· ++ [13])).foldlM insertChar (.begin {}) = .ok task ∧
      task.console.requests = [.saveConfig {}] := by
  obtain ⟨task, hrun, hexecutions⟩ :=
    typed_session {} (show MicrorlKey.ofByte 13 = .cr from rfl)
      (show ∀ text ∈ flashTexts, ∀ ch ∈ text, Typable ch by decide)
      (show ∀ text ∈ flashTexts, ¬ Refused (LineEditor.typedWords (text.map charOfByte)) by decide)
  have hstate := session_meaning hrun
  rw [hexecutions] at hstate
  exact ⟨task, hrun, congrArg ConsoleState.requests hstate⟩

end ConsoleTask

end C6021Light
