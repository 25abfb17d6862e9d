import C6021Light.Proofs.ConsoleSession

/-!
# `C6021Light.Proofs.ConsoleSettings`: `config set` and `config get`

A command line changes the configuration only when it is a `config set` with a value that the
setting has (`meaning_dataModel`). So `config get` shows the value that was set last, whatever was
executed in between, and whatever keys were pressed for it.
-/

set_option autoImplicit false

namespace C6021Light

open ConsoleManager ConsoleState FaultRun LockStep Setting

namespace ConsoleState

variable {state : ConsoleState} {argv args : List CString}

/-! ### What changes the configuration -/

/-- The setting and the value in the name of a command. -/
def valueOf : CommandHandler → Option (Setting × CString)
  | .runLnSlotServerActive => some (.lnSlotServer, "active".toList)
  | .runLnSlotServerPassive => some (.lnSlotServer, "passive".toList)
  | .runLnSlotServerDisable => some (.lnSlotServer, "disabled".toList)
  | .runSetGenerateI2CTurnoutResponseEnable =>
      some (.generateI2CTurnoutResponse, "enabled".toList)
  | .runSetGenerateI2CTurnoutResponseDisable =>
      some (.generateI2CTurnoutResponse, "disabled".toList)
  | _ => none

/-- The command whose handler stores a value is the `config set` of that value. -/
theorem commands_valueOf : ∀ command ∈ commands,
    (valueOf command.2).all fun value => command.1 = value.1.setCommand value.2 := by
  decide

/-- The turnout protocol has one command. -/
theorem commands_turnoutProtocol : ∀ command ∈ commands,
    command.2 = .runAppSetTurnoutProtocol →
      command.1 = ["config", "set", "turnoutProtocol"].map String.toList := by
  decide

/-- The command changes the configuration. -/
def Changes (argv : List CString) (dataModel dataModel' : DataModel) : Prop :=
  ∃ setting value, argv = setCommand setting value ∧
    change setting value dataModel = some dataModel'

/-- A command without arguments is executed only when none are given. -/
theorem noArgs_cases (state done : ConsoleState) (args : List CString) :
    state.noArgs args done = state ∨ (args = [] ∧ state.noArgs args done = done) := by
  rw [noArgs]
  split
  · rename_i hnil
    exact .inr ⟨hnil, rfl⟩
  · exact .inl rfl

/-- A call of another component does not change the configuration. -/
theorem noArgs_ask (state : ConsoleState) (args : List CString) (consoleRequest : ConsoleRequest) :
    (state.noArgs args (state.ask consoleRequest)).dataModel = state.dataModel := by
  obtain hsame | ⟨-, hasked⟩ := noArgs_cases state (state.ask consoleRequest) args
  · rw [hsame]
  · rw [hasked]
    rfl

/-- An argument that is known, or nothing happens. -/
theorem oneArg_cases {α : Type} (state : ConsoleState) (args : List CString)
    (parse : CString → Option α) (done : α → ConsoleState) :
    state.oneArg args parse done = state ∨
      ∃ arg a, args = [arg] ∧ parse arg = some a ∧ state.oneArg args parse done = done a := by
  rw [oneArg.eq_def]
  split
  · rename_i arg
    cases hparse : parse arg with
    | none => exact .inl rfl
    | some a => exact .inr ⟨arg, a, rfl, hparse, rfl⟩
  · exact .inl rfl

/-- A call with an argument does not change the configuration either. -/
theorem oneArg_ask {α : Type} (state : ConsoleState) (args : List CString)
    (parse : CString → Option α) (consoleRequest : α → ConsoleRequest) :
    (state.oneArg args parse fun a => state.ask (consoleRequest a)).dataModel
      = state.dataModel := by
  obtain hsame | ⟨arg, a, -, -, hasked⟩ :=
    oneArg_cases state args parse fun a => state.ask (consoleRequest a)
  · rw [hsame]
  · rw [hasked]
    rfl

/-- A command whose name has the value. -/
theorem noArgs_changes {command : List CString × CommandHandler} (hmem : command ∈ commands)
    {setting : Setting} {value : CString} (hvalue : valueOf command.2 = some (setting, value))
    {done : ConsoleState}
    (hdone : change setting value state.dataModel = some done.dataModel) :
    (state.noArgs args done).dataModel = state.dataModel ∨
      Changes (command.1 ++ args) state.dataModel (state.noArgs args done).dataModel := by
  obtain hsame | ⟨rfl, hchanged⟩ := noArgs_cases state done args
  · exact .inl (congrArg _ hsame)
  · have hname := commands_valueOf command hmem
    rw [hvalue, Option.all_some, decide_eq_true_iff] at hname
    rw [hchanged, List.append_nil]
    exact .inr ⟨setting, value, hname, hdone⟩

/-- Only a `config set` changes the configuration. -/
theorem meaning_dataModel (argv : List CString) (state : ConsoleState) :
    (meaning argv state).dataModel = state.dataModel ∨
      Changes argv state.dataModel (meaning argv state).dataModel := by
  rw [meaning]
  cases hcommand : commandAt argv with
  | none => exact .inl rfl
  | some command =>
      obtain ⟨hmem, args, rfl⟩ := of_commandAt hcommand
      simp only [List.drop_left]
      -- One case per handler. Those that store a value are the commands of `config set`.
      cases hhandler : command.2 with
      | runAppSetTurnoutProtocol =>
          have hname := commands_turnoutProtocol command hmem hhandler
          obtain hsame | ⟨protocol, railProtocol, rfl, hparse, hdone⟩ :=
            oneArg_cases state args railProtocolOf state.setTurnoutProtocol
          · exact .inl (congrArg _ hsame)
          · refine .inr ⟨.turnoutProtocol, protocol, by rw [hname]; rfl, ?_⟩
            rw [change, hparse, effect, hdone]
            rfl
      | runLnSlotServerActive =>
          exact noArgs_changes hmem (by rw [hhandler]; rfl) rfl
      | runLnSlotServerPassive =>
          exact noArgs_changes hmem (by rw [hhandler]; rfl) rfl
      | runLnSlotServerDisable =>
          exact noArgs_changes hmem (by rw [hhandler]; rfl) rfl
      | runSetGenerateI2CTurnoutResponseEnable =>
          exact noArgs_changes hmem (by rw [hhandler]; rfl) rfl
      | runSetGenerateI2CTurnoutResponseDisable =>
          exact noArgs_changes hmem (by rw [hhandler]; rfl) rfl
      | runAppSave | runLnSlotServerDump => exact .inl (noArgs_ask state args _)
      | runLnSlotServerDispatch => exact .inl (oneArg_ask state args some .markAddressForDispatch)
      | runAppSetEnginedbProtocol =>
          exact .inl (oneArg_ask state args downloadProtocolOf .setDownloadProtocol)
      | _ => exact .inl rfl

/-- What is shown of a value does not depend on the rest of the configuration. -/
theorem exists_change {setting : Setting} {value text : CString}
    (h : setting.shown value = some text) (dataModel : DataModel) :
    ∃ dataModel', setting.change value dataModel = some dataModel' ∧
      setting.answer dataModel' = text := by
  obtain ⟨changed, hchange, rfl⟩ := Option.map_eq_some_iff.mp h
  cases setting with
  | turnoutProtocol =>
      obtain ⟨railProtocol, hvalue, rfl⟩ := Option.map_eq_some_iff.mp hchange
      exact ⟨{ dataModel with accessoryRailProtocol := railProtocol },
        by rw [change, hvalue]; rfl, rfl⟩
  | lnSlotServer =>
      obtain ⟨slotServerState, hvalue, rfl⟩ := Option.map_eq_some_iff.mp hchange
      exact ⟨{ dataModel with lnSlotServerState := slotServerState },
        by rw [change, hvalue]; rfl, rfl⟩
  | generateI2CTurnoutResponse =>
      obtain ⟨enabled, hvalue, rfl⟩ := Option.map_eq_some_iff.mp hchange
      exact ⟨{ dataModel with generateI2CTurnoutResponse := enabled },
        by rw [change, hvalue]; rfl, rfl⟩

/-- A value that the setting does not have changes nothing. -/
theorem change_of_shown_eq_none {setting : Setting} {value : CString}
    (h : setting.shown value = none) (dataModel : DataModel) :
    setting.change value dataModel = none := by
  have hnone := Option.map_eq_none_iff.mp h
  cases setting <;> exact Option.map_eq_none_iff.mpr (Option.map_eq_none_iff.mp hnone)

/-- A `config set` of another setting does not change what is shown. -/
theorem answer_change {setting setting' : Setting} (hne : setting ≠ setting') {value : CString}
    {dataModel dataModel' : DataModel} (h : change setting' value dataModel = some dataModel') :
    setting.answer dataModel' = setting.answer dataModel := by
  cases setting' <;> obtain ⟨changed, -, rfl⟩ := Option.map_eq_some_iff.mp h <;> cases setting <;>
    first
      | exact absurd rfl hne
      | rfl

/-- What is shown of a setting stays, when no value that it has is set. -/
theorem answer_meaning {setting : Setting}
    (hkeeps : ∀ value, argv = setting.setCommand value →
      ∀ dataModel, setting.change value dataModel = none) :
    setting.answer (meaning argv state).dataModel = setting.answer state.dataModel := by
  obtain hsame | ⟨setting', value, hargv, hchange⟩ := meaning_dataModel argv state
  · rw [hsame]
  · by_cases hsetting : setting = setting'
    · subst hsetting
      cases (hkeeps value hargv state.dataModel).symm.trans hchange
    · exact answer_change hsetting hchange

/-- The same for a list of commands. -/
theorem answer_meanings {setting : Setting} {commands : List (List CString)}
    (hkeeps : ∀ argv ∈ commands, ∀ value, argv = setting.setCommand value →
      ∀ dataModel, setting.change value dataModel = none) (state : ConsoleState) :
    setting.answer (commands.foldl (fun state argv => meaning argv state) state).dataModel
      = setting.answer state.dataModel := by
  induction commands generalizing state with
  | nil => rfl
  | cons argv commands ih =>
      obtain ⟨hargv, hrest⟩ := List.forall_mem_cons.mp hkeeps
      rw [List.foldl_cons, ih hrest, answer_meaning hargv]

/-- A value that the setting has is set. -/
theorem setCommand_meaning {setting : Setting} {value : CString} {dataModel : DataModel}
    (h : setting.change value state.dataModel = some dataModel) :
    meaning (setting.setCommand value) state = { state with dataModel := dataModel } := by
  -- One case per setting. Its value decides which command of the tables is meant.
  cases setting with
  | turnoutProtocol =>
      obtain ⟨railProtocol, hvalue, rfl⟩ := Option.map_eq_some_iff.mp h
      show (railProtocolOf value).elim state state.setTurnoutProtocol = _
      rw [hvalue]
      rfl
  | lnSlotServer =>
      obtain ⟨slotServerState, hvalue, rfl⟩ := Option.map_eq_some_iff.mp h
      rw [slotServerStateOf] at hvalue
      split at hvalue
      · rename_i hactive
        cases hvalue
        rw [hactive]
        rfl
      split at hvalue
      · rename_i hpassive
        cases hvalue
        rw [hpassive]
        rfl
      split at hvalue
      · rename_i hdisabled
        cases hvalue
        rw [hdisabled]
        rfl
      · cases hvalue
  | generateI2CTurnoutResponse =>
      obtain ⟨enabled, hvalue, rfl⟩ := Option.map_eq_some_iff.mp h
      rw [enabledOf] at hvalue
      split at hvalue
      · rename_i henabled
        cases hvalue
        rw [henabled]
        rfl
      split at hvalue
      · rename_i hdisabled
        cases hvalue
        rw [hdisabled]
        rfl
      · cases hvalue

end ConsoleState

namespace ConsoleTask

open Microrl

variable {task : ConsoleTask} {console : ConsoleManager} {keys : List Byte}

/-! ### What is shown -/

/-- A `config get` shows the value. -/
theorem getCommand_output (setting : Setting) {console' : ConsoleManager}
    (h : runCommand console setting.getCommand = .ok console') :
    console'.output = console.output ++ setting.answer console.dataModel := by
  rw [runCommand] at h
  cases setting with
  | turnoutProtocol =>
      have hdeepest : deepestHandler (matchedPath argtable (getCommand .turnoutProtocol))
          = some (.runAppGetTurnoutProtocol, 2) := by decide
      rw [microrlExecuteCallback, callHandler_of_deepestHandler_some hdeepest] at h
      cases h
      rfl
  | lnSlotServer =>
      have hdeepest : deepestHandler (matchedPath argtable (getCommand .lnSlotServer))
          = some (.runLnSlotServerGetstatus, 2) := by decide
      rw [microrlExecuteCallback, callHandler_of_deepestHandler_some hdeepest] at h
      cases h
      rfl
  | generateI2CTurnoutResponse =>
      have hdeepest : deepestHandler (matchedPath argtable (getCommand .generateI2CTurnoutResponse))
          = some (.runGetGenerateI2CTurnoutResponse, 2) := by decide
      rw [microrlExecuteCallback, callHandler_of_deepestHandler_some hdeepest] at h
      cases h
      rfl

/-- Whatever keys come: when a `config get` is executed, it shows the value that was set last. -/
theorem config_get_after_set (hrun : keys.foldlM insertChar (.begin console) = .ok task)
    {setting : Setting} {value text : CString} {front mid : List (List CString)}
    (hexecutions : executions task.microrl.calls
      = front ++ setting.setCommand value :: mid ++ [setting.getCommand])
    (hshown : setting.shown value = some text)
    (hmid : ∀ other, setting.setCommand other ∈ mid → setting.shown other = none) :
    text <:+ task.console.output := by
  obtain ⟨editor, -, h⟩ := session_run (session_begin console) hrun
  have hcommands := h.commands
  rw [hexecutions, List.foldlM_append] at hcommands
  obtain ⟨before, hbefore, hget⟩ := bind_eq_ok.mp hcommands
  rw [List.foldlM_cons] at hget
  obtain ⟨last, hlast, hend⟩ := bind_eq_ok.mp hget
  cases hend
  -- The state in front of the `config get`.
  have hstate := foldlM_runCommand_state _ hbefore
  rw [List.foldl_append, List.foldl_cons] at hstate
  obtain ⟨dataModel, hchange, hanswer⟩ := exists_change hshown
    (front.foldl (fun state argv => meaning argv state) console.state).dataModel
  have hkeeps := @answer_meanings setting mid
    (fun argv hargv other heq => change_of_shown_eq_none (hmid other (heq ▸ hargv)))
  have hfinal : setting.answer before.state.dataModel = text := by
    rw [hstate, hkeeps, setCommand_meaning hchange]
    exact hanswer
  rw [getCommand_output setting hlast]
  exact ⟨before.output, congrArg _ hfinal.symm⟩

/-- DCC is set, and SX1 is misspelled. -/
def settingTexts : List (List Byte) :=
  ["config set turnoutProtocol dcc", "config set turnoutProtocol xs1", "flash save",
    "config get turnoutProtocol"].map keysOf

/-- DCC is read back behind a misspelled value and `flash save`. -/
theorem config_get_after_set_dcc :
    ∃ task, (settingTexts.flatMap (· ++ [13])).foldlM insertChar (.begin {}) = .ok task ∧
      "GetTurnoutProtocol: The current turnout protocol is DCC.\n".toList
        <:+ task.console.output := by
  obtain ⟨task, hrun, hexecutions⟩ :=
    typed_session {} (show MicrorlKey.ofByte 13 = .cr from rfl)
      (show ∀ text ∈ settingTexts, ∀ ch ∈ text, Typable ch by decide)
      (show ∀ text ∈ settingTexts, ¬ Refused (LineEditor.typedWords (text.map charOfByte)) by
        decide)
  refine ⟨task, hrun, @config_get_after_set _ _ _ hrun .turnoutProtocol "dcc".toList _ []
    [Setting.setCommand .turnoutProtocol "xs1".toList, ["flash".toList, "save".toList]]
    hexecutions rfl fun other hother => ?_⟩
  obtain hsame | hflash := List.mem_cons.mp hother
  · have hlast : some other = some "xs1".toList := congrArg List.getLast? hsame
    rw [Option.some.inj hlast]
    rfl
  · have hlen : 4 = 2 := congrArg List.length (List.mem_singleton.mp hflash)
    cases hlen

end ConsoleTask

end C6021Light
