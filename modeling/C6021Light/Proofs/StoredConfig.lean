import C6021Light.Hal.EepromEmulation
import C6021Light.Proofs.ConsoleSettings

/-!
# `C6021Light.Proofs.StoredConfig`: the configuration across resets

`StoredConfig` is the abstract board: the configuration that is used, and the one in the flash.
`flash save` makes the second one the first one, `flash format` makes it the default one, and a
reset makes the first one the second one. No other event touches the flash. `config_across_resets`
shows that the board (`Device`) does this for all keys and resets, whatever `FlashFairyPP` does
inside.

`loadConfig_eq` is what the load depends on: the last write of each of the three keys.
-/

set_option autoImplicit false

namespace C6021Light

open ConsoleManager ConsoleState FaultRun LastWrite LockStep Microrl

/-- The command that saves the configuration. -/
abbrev flashSave : List CString := ["flash".toList, "save".toList]

/-- The command that erases it. -/
abbrev flashFormat : List CString := ["flash".toList, "format".toList]

/-- The configuration that is used, and the one in the flash. -/
structure StoredConfig where
  current : DataModel
  saved : DataModel
deriving DecidableEq, Repr

/-- `flash format` has no use for further arguments, and `flash save` refuses them. -/
def StoredConfig.step (config : StoredConfig) : ConfigEvent → StoredConfig
  | .command argv =>
      { current := (meaning argv ⟨config.current, []⟩).dataModel
        saved :=
          if argv = flashSave then config.current
          else if flashFormat.isPrefixOf argv then {}
          else config.saved }
  | .reset => { config with current := config.saved }

/-! ### Loading -/

variable {railProtocols : RailProtocolValues} {entries entries' : List (Nat × Nat)}
  {dataModel : DataModel}

/-- The configuration is the last write of each key. -/
theorem loadConfig_eq (railProtocols : RailProtocolValues) (entries : List (Nat × Nat)) :
    loadConfig railProtocols entries
      = LoadedModel.toDataModel
          { accessoryRailProtocol :=
              (lastWrite entries DataAddresses.accessoryRailProtocol).elim
                LoadedModel.default.accessoryRailProtocol railProtocols.ofValue
            lnSlotServerState :=
              (lastWrite entries DataAddresses.lnSlotServerState).elim
                LoadedModel.default.lnSlotServerState SlotServerState.ofValue
            generateI2CTurnoutResponse :=
              (lastWrite entries DataAddresses.generateI2CTurnoutResponse).elim
                LoadedModel.default.generateI2CTurnoutResponse
                fun value => decide (value ≠ 0) } := by
  have hstep : ∀ (model : LoadedModel) (entry : Nat × Nat),
      (loadVisitor railProtocols model entry).accessoryRailProtocol
          = (if entry.1 = DataAddresses.accessoryRailProtocol
              then railProtocols.ofValue entry.2 else model.accessoryRailProtocol) ∧
        (loadVisitor railProtocols model entry).lnSlotServerState
          = (if entry.1 = DataAddresses.lnSlotServerState
              then SlotServerState.ofValue entry.2 else model.lnSlotServerState) ∧
        (loadVisitor railProtocols model entry).generateI2CTurnoutResponse
          = (if entry.1 = DataAddresses.generateI2CTurnoutResponse
              then decide (entry.2 ≠ 0) else model.generateI2CTurnoutResponse) := by
    intro model entry
    rw [loadVisitor]
    -- The addresses are different.
    split
    · rename_i hkey
      rw [hkey]
      exact ⟨rfl, rfl, rfl⟩
    split
    · rename_i hkey
      rw [hkey]
      exact ⟨rfl, rfl, rfl⟩
    split
    · exact ⟨rfl, rfl, rfl⟩
    · exact ⟨rfl, rfl, rfl⟩
  rw [loadConfig]
  refine congrArg LoadedModel.toDataModel ?_
  rw [← @register_foldl _ _ _ _ _ _ _ LoadedModel.accessoryRailProtocol _
    (fun model entry => (hstep model entry).1),
    ← @register_foldl _ _ _ _ _ _ _ LoadedModel.lnSlotServerState _
      (fun model entry => (hstep model entry).2.1),
    ← @register_foldl _ _ _ _ _ _ _ LoadedModel.generateI2CTurnoutResponse _
      (fun model entry => (hstep model entry).2.2)]

/-- Loading depends on the last writes only. -/
theorem loadConfig_congr (h : ∀ key, lastWrite entries key = lastWrite entries' key) :
    loadConfig railProtocols entries = loadConfig railProtocols entries' := by
  simp only [loadConfig_eq, h]

/-- Nothing was written. -/
theorem loadConfig_of_none (h : ∀ key, lastWrite entries key = none) :
    loadConfig railProtocols entries = some {} := by
  simp only [loadConfig_eq, h]
  rfl

/-- The state of the slot server is read back from its value. -/
theorem slotServerState_ofValue (slotServerState : SlotServerState) :
    SlotServerState.ofValue slotServerState.value = some slotServerState := by
  cases slotServerState <;> rfl

/-- What `DataModelStoreVisitor` gives is loaded again. -/
theorem loadConfig_of_stored (hvalues : railProtocols.Documented)
    (h : ∀ entry ∈ (dataModelStoreVisitor railProtocols dataModel).entries,
      lastWrite entries entry.1 = some entry.2) :
    loadConfig railProtocols entries = some dataModel := by
  have hkey : ∀ key < DataAddresses.kNumAddresses,
      lastWrite entries key = some (dataModel.getValueForKey railProtocols key) := fun key hlt =>
    h (key, _) (List.mem_map.mpr ⟨key, List.mem_range.mpr hlt, rfl⟩)
  rw [loadConfig_eq, hkey _ (by decide), hkey _ (by decide), hkey _ (by decide)]
  show LoadedModel.toDataModel
    { accessoryRailProtocol :=
        railProtocols.ofValue (railProtocols.value dataModel.accessoryRailProtocol)
      lnSlotServerState := SlotServerState.ofValue dataModel.lnSlotServerState.value
      generateI2CTurnoutResponse :=
        decide (dataModel.generateI2CTurnoutResponse.toNat ≠ 0) } = _
  rw [hvalues.ofValue, slotServerState_ofValue]
  obtain ⟨accessoryRailProtocol, lnSlotServerState, generateI2CTurnoutResponse⟩ := dataModel
  cases generateI2CTurnoutResponse <;> rfl

/-! ### Writing -/

/-- Every value fits into the 16 bits of the flash. -/
theorem getValueForKey_lt (hvalues : railProtocols.Documented) (dataModel : DataModel)
    (key : Nat) : dataModel.getValueForKey railProtocols key < 2 ^ 16 := by
  rw [DataModel.getValueForKey]
  split
  · exact hvalues.lt _
  split
  · cases dataModel.lnSlotServerState <;> decide
  split
  · cases dataModel.generateI2CTurnoutResponse <;> decide
  · decide

/-- The visitor gives each key once, in order. -/
theorem keys_dataModelStoreVisitor (dataModel : DataModel) :
    (dataModelStoreVisitor railProtocols dataModel).entries.map Prod.fst
      = List.range DataAddresses.kNumAddresses :=
  rfl

namespace Device

variable {flash : FlashFairy} {Usable : flash.Pages → Prop} {pages : flash.Pages}
  {saved : DataModel}

/-- The flash holds a configuration. -/
def Holds (railProtocols : RailProtocolValues) (Usable : flash.Pages → Prop)
    (pages : flash.Pages) (saved : DataModel) : Prop :=
  Usable pages ∧ loadConfig railProtocols (flash.visitEntries pages) = some saved

/-- What a call does to the configuration in the flash. -/
def saves (saved : DataModel) : ConsoleRequest → DataModel
  | .saveConfig dataModel => dataModel
  | .formatFlash => {}
  | _ => saved

/-- Loading at start-up keeps what the flash holds. -/
theorem Holds.load (hflash : flash.Documented Usable)
    (h : Holds railProtocols Usable pages saved) :
    Holds railProtocols Usable (flash.initializePages pages) saved :=
  ⟨hflash.usable_initializePages pages,
    (loadConfig_congr (hflash.lastWrite_initializePages pages h.1)).trans h.2⟩

/-- A call of the console writes the flash as it should. -/
theorem Holds.write (hflash : flash.Documented Usable) (hvalues : railProtocols.Documented)
    (h : Holds railProtocols Usable pages saved) (consoleRequest : ConsoleRequest) :
    Holds railProtocols Usable (writeFlash railProtocols pages consoleRequest)
      (saves saved consoleRequest) := by
  cases consoleRequest with
  | saveConfig dataModel =>
      refine ⟨hflash.usable_storeVisitor _ _ h.1,
        loadConfig_of_stored hvalues (hflash.lastWrite_storeVisitor _ _ h.1 ?_ ?_ ?_)⟩
      · intro key
        rw [keys_dataModelStoreVisitor, List.mem_range]
        exact decide_eq_true_iff
      · rw [keys_dataModelStoreVisitor]
        exact List.nodup_range
      · intro entry hentry
        obtain ⟨index, hindex, rfl⟩ := List.mem_map.mp hentry
        have hlt : index < 3 := List.mem_range.mp hindex
        exact ⟨by omega, getValueForKey_lt hvalues dataModel index⟩
  | formatFlash =>
      exact ⟨hflash.usable_formatFlash pages,
        loadConfig_of_none (hflash.lastWrite_formatFlash pages)⟩
  | _ => exact h

/-- So do several, by induction on the calls. -/
theorem Holds.foldl_write (hflash : flash.Documented Usable)
    (hvalues : railProtocols.Documented) (requests : List ConsoleRequest) :
    ∀ {pages : flash.Pages} {saved : DataModel}, Holds railProtocols Usable pages saved →
      Holds railProtocols Usable (requests.foldl (writeFlash railProtocols) pages)
        (requests.foldl saves saved) := by
  induction requests with
  | nil => exact fun h => h
  | cons consoleRequest requests ih =>
      exact fun h => ih (h.write hflash hvalues consoleRequest)

end Device

/-! ### What a command does to the flash -/

section

variable {argv args : List CString} {saved : DataModel} {requests : List ConsoleRequest}
  {state : ConsoleState}

/-- The calls come behind the earlier ones, and do not depend on them. -/
def ConsoleState.after (requests : List ConsoleRequest) (state : ConsoleState) : ConsoleState :=
  { state with requests := requests ++ state.requests }

/-- A command without arguments does not read the earlier calls. -/
theorem noArgs_after (state done : ConsoleState) (args : List CString) :
    (state.after requests).noArgs args (done.after requests)
      = (state.noArgs args done).after requests := by
  rw [noArgs, noArgs]
  split <;> rfl

/-- Nor does one with an argument. -/
theorem oneArg_after {α : Type} (state : ConsoleState) (args : List CString)
    (parse : CString → Option α) (done : α → ConsoleState) :
    (state.after requests).oneArg args parse (fun a => (done a).after requests)
      = (state.oneArg args parse done).after requests := by
  rw [oneArg.eq_def, oneArg.eq_def]
  split
  · rename_i arg
    cases parse arg <;> rfl
  · rfl

/-- Nor does a call of its own. -/
theorem ask_after (consoleRequest : ConsoleRequest) :
    (state.after requests).ask consoleRequest = (state.ask consoleRequest).after requests := by
  rw [ask, ask, ConsoleState.after, ConsoleState.after, List.append_assoc]

/-- No handler reads the earlier calls. -/
theorem effect_after (handler : CommandHandler) (args : List CString) (state : ConsoleState) :
    effect handler args (state.after requests) = (effect handler args state).after requests := by
  cases handler with
  | runAppSetTurnoutProtocol =>
      exact oneArg_after state args railProtocolOf state.setTurnoutProtocol
  | runLnSlotServerActive => exact noArgs_after state (state.setSlotServer .active) args
  | runLnSlotServerPassive => exact noArgs_after state (state.setSlotServer .passive) args
  | runLnSlotServerDisable => exact noArgs_after state (state.setSlotServer .disabled) args
  | runSetGenerateI2CTurnoutResponseEnable =>
      exact noArgs_after state (state.setTurnoutResponse true) args
  | runSetGenerateI2CTurnoutResponseDisable =>
      exact noArgs_after state (state.setTurnoutResponse false) args
  | runAppSave | runLnSlotServerDump =>
      rw [effect, effect, ask_after]
      exact noArgs_after state _ args
  | runLnSlotServerDispatch | runAppSetEnginedbProtocol =>
      simp only [effect, ask_after]
      exact oneArg_after state args _ _
  | runAppDumpFlash | runAppFormatFlash | runAppDumpEnginedbCan | runAppCanPing =>
      exact ask_after _
  | runAppDownloadEnginedbCan =>
      rw [effect, effect, ask_after, ask_after]
  | _ => rfl

/-- No command line reads the earlier calls. -/
theorem meaning_after (argv : List CString) (state : ConsoleState) :
    meaning argv (state.after requests) = (meaning argv state).after requests := by
  rw [meaning, meaning]
  cases commandAt argv with
  | none => rfl
  | some command => exact effect_after command.2 _ state

/-! #### The configuration in the flash -/

/-- Only `flash save` saves. -/
theorem commands_flashSave : ∀ command ∈ commands,
    command.2 = .runAppSave → command.1 = flashSave := by
  decide

/-- Only `flash format` erases. -/
theorem commands_flashFormat : ∀ command ∈ commands,
    command.2 = .runAppFormatFlash → command.1 = flashFormat := by
  decide

/-- `flash save` is a command of the tables. -/
theorem commandAt_flashSave : commandAt flashSave = some (flashSave, .runAppSave) := by
  decide

/-- A line that starts with `flash format` is that command. -/
theorem commandAt_flashFormat (h : flashFormat.isPrefixOf argv = true) :
    commandAt argv = some (flashFormat, .runAppFormatFlash) := by
  obtain ⟨args, rfl⟩ := List.isPrefixOf_iff_prefix.mp h
  rfl

/-- `flash format` starts with itself, whatever follows. -/
theorem flashFormat_isPrefixOf (args : List CString) :
    flashFormat.isPrefixOf (flashFormat ++ args) = true :=
  rfl

/-- `flash format` with arguments is not `flash save`. -/
theorem flashFormat_ne_flashSave (args : List CString) : flashFormat ++ args ≠ flashSave := by
  intro h
  have hsecond : "format".toList = "save".toList := (List.cons.inj (List.cons.inj h).2).1
  exact absurd hsecond (by decide)

/-- `flash save` with arguments does not start with `flash format`. -/
theorem flashFormat_not_flashSave (args : List CString) :
    flashFormat.isPrefixOf (flashSave ++ args) = false :=
  rfl

/-- A command with an argument saves nothing when its effect does not. -/
theorem oneArg_saves {α : Type} (parse : CString → Option α) (done : α → ConsoleState)
    (hdone : ∀ a, (done a).requests.foldl Device.saves saved = saved) :
    (oneArg ⟨dataModel, []⟩ args parse done).requests.foldl Device.saves saved = saved := by
  obtain hsame | ⟨arg, a, -, -, hparsed⟩ := oneArg_cases ⟨dataModel, []⟩ args parse done
  · rw [hsame]
    rfl
  · rw [hparsed]
    exact hdone a

/-- A command with another handler does not write to the flash. -/
theorem saves_effect {handler : CommandHandler} (hsave : handler ≠ .runAppSave)
    (hformat : handler ≠ .runAppFormatFlash) (args : List CString) (dataModel : DataModel) :
    (effect handler args ⟨dataModel, []⟩).requests.foldl Device.saves saved = saved := by
  cases handler with
  | runAppSave => exact absurd rfl hsave
  | runAppFormatFlash => exact absurd rfl hformat
  | runAppSetTurnoutProtocol =>
      exact oneArg_saves railProtocolOf _ fun railProtocol => rfl
  | runAppSetEnginedbProtocol =>
      exact oneArg_saves downloadProtocolOf _ fun selectedProtocol => rfl
  | runLnSlotServerDispatch =>
      exact oneArg_saves some _ fun dispatchAddr => rfl
  | runLnSlotServerActive | runLnSlotServerPassive | runLnSlotServerDisable | runLnSlotServerDump
  | runSetGenerateI2CTurnoutResponseEnable | runSetGenerateI2CTurnoutResponseDisable =>
      rw [effect, noArgs]
      split <;> rfl
  | _ => rfl

/-- What a command line does to the configuration in the flash. -/
theorem saves_meaning (argv : List CString) (dataModel saved : DataModel) :
    (meaning argv ⟨dataModel, []⟩).requests.foldl Device.saves saved
      = (StoredConfig.step ⟨dataModel, saved⟩ (.command argv)).saved := by
  show _ = if argv = flashSave then dataModel
    else if flashFormat.isPrefixOf argv then {} else saved
  rw [meaning]
  cases hcommand : commandAt argv with
  -- A line that is no command saves nothing and formats nothing.
  | none =>
      rw [if_neg, if_neg]
      · rfl
      · intro hformat
        cases (commandAt_flashFormat hformat).symm.trans hcommand
      · rintro rfl
        cases hcommand
  | some command =>
      obtain ⟨hmem, args, rfl⟩ := of_commandAt hcommand
      simp only [List.drop_left]
      -- `flash save` has no arguments. With one it asks for nothing.
      by_cases hsave : command.2 = .runAppSave
      · rw [hsave, commands_flashSave command hmem hsave, flashFormat_not_flashSave, effect, noArgs]
        by_cases hargs : args = []
        · rw [if_pos hargs, hargs, if_pos (List.append_nil _)]
          rfl
        · rw [if_neg hargs, if_neg (fun h => hargs (List.append_right_eq_self.mp h))]
          rfl
      -- `flash format` takes anything behind it.
      by_cases hformat : command.2 = .runAppFormatFlash
      · rw [hformat, commands_flashFormat command hmem hformat,
          if_neg (flashFormat_ne_flashSave args), if_pos (flashFormat_isPrefixOf args)]
        rfl
      · rw [saves_effect hsave hformat, if_neg, if_neg]
        · intro h
          cases (commandAt_flashFormat h).symm.trans hcommand
          exact hformat rfl
        · intro h
          rw [h, commandAt_flashSave] at hcommand
          cases hcommand
          exact hsave rfl

/-- What some command lines do. -/
theorem meanings_requests (commands : List (List CString)) :
    ∀ (state : ConsoleState) (saved : DataModel), ∃ requests,
      (commands.foldl (fun state argv => meaning argv state) state).requests
        = state.requests ++ requests ∧
      (commands.map ConfigEvent.command).foldl StoredConfig.step ⟨state.dataModel, saved⟩
        = ⟨(commands.foldl (fun state argv => meaning argv state) state).dataModel,
            requests.foldl Device.saves saved⟩ := by
  induction commands with
  | nil => exact fun state saved => ⟨[], (List.append_nil _).symm, rfl⟩
  | cons argv commands ih =>
      intro state saved
      -- The calls of this command, without the earlier ones.
      have hnew : meaning argv state
          = (meaning argv ⟨state.dataModel, []⟩).after state.requests := by
        rw [← meaning_after]
        exact congrArg _ (congrArg (ConsoleState.mk _) (List.append_nil _).symm)
      obtain ⟨requests, hrequests, hfold⟩ :=
        ih (meaning argv state) (StoredConfig.step ⟨state.dataModel, saved⟩ (.command argv)).saved
      refine ⟨(meaning argv ⟨state.dataModel, []⟩).requests ++ requests, ?_, ?_⟩
      · rw [List.foldl_cons, hrequests, hnew]
        exact List.append_assoc _ _ _
      · rw [List.foldl_append, saves_meaning, List.foldl_cons, ← hfold, List.map_cons,
          List.foldl_cons]
        refine congrArg (List.foldl StoredConfig.step · _) ?_
        show StoredConfig.mk _ _ = ⟨(meaning argv state).dataModel, _⟩
        rw [hnew]
        rfl

end

/-! ### Runs of the board -/

namespace Device

variable {flash : FlashFairy} {Usable : flash.Pages → Prop} {device device' : Device flash}
  {config : StoredConfig}

/-- What holds in each state of the board. -/
structure Represents (railProtocols : RailProtocolValues) (Usable : flash.Pages → Prop)
    (device : Device flash) (config : StoredConfig) : Prop where
  session : ∃ console editor, ConsoleTask.Session console device.task editor
  current : device.task.console.dataModel = config.current
  saved : Holds railProtocols Usable device.pages config.saved

/-- A key executes commands, and the flash is written by their calls. -/
theorem represents_key (hflash : flash.Documented Usable) (hvalues : railProtocols.Documented)
    (h : Represents railProtocols Usable device config) {ch : Byte}
    (hstep : device.step railProtocols (.key ch) = .ok device') :
    ∃ new, device'.log = device.log ++ new ∧
      Represents railProtocols Usable device' (new.foldl StoredConfig.step config) := by
  obtain ⟨task, htask, hdevice⟩ := bind_eq_ok.mp hstep
  have hinsert := LineEditor.of_mapError htask
  obtain ⟨console, editor, hsession⟩ := h.session
  obtain ⟨editor', heditor, hsession'⟩ := ConsoleTask.session_step hsession hinsert
  obtain ⟨newCalls, hcalls, -⟩ := ConsoleTask.calls_step heditor
  have hexecutions : executions task.microrl.calls
      = executions device.task.microrl.calls ++ executions newCalls := by
    rw [hsession'.represents.calls, hcalls, executions_append, hsession.represents.calls]
  -- The commands of this key.
  have hcommands := hsession'.commands
  rw [hexecutions, List.foldlM_append, hsession.commands] at hcommands
  have hstate := ConsoleTask.foldlM_runCommand_state _ hcommands
  obtain ⟨requests, hrequests, hfold⟩ :=
    meanings_requests (executions newCalls) device.task.console.state config.saved
  rw [← hstate] at hrequests hfold
  have hnew : task.console.requests = device.task.console.requests ++ requests := hrequests
  have hconfig : config = ⟨device.task.console.state.dataModel, config.saved⟩ :=
    congrArg (StoredConfig.mk · config.saved) h.current.symm
  cases hdevice
  refine ⟨(executions newCalls).map .command, ?_, ⟨console, editor', hsession'⟩, ?_, ?_⟩
  · rw [hexecutions, List.drop_left]
  · rw [hconfig, hfold]
    rfl
  · rw [hnew, List.drop_left, hconfig, hfold]
    exact h.saved.foldl_write hflash hvalues requests

/-- Start-up with a configuration in the flash uses it. -/
theorem setup_of_load {pages : flash.Pages}
    (hload : loadConfig railProtocols (flash.visitEntries (flash.initializePages pages))
      = some dataModel) (log : List ConfigEvent) :
    setup railProtocols pages log
      = .ok { pages := flash.initializePages pages
              task := .begin { dataModel := dataModel }, log := log } := by
  rw [setup, hload]

/-- A reset loads what is in the flash. It has no fault. -/
theorem represents_setup (hflash : flash.Documented Usable) {pages : flash.Pages}
    {saved : DataModel} (h : Holds railProtocols Usable pages saved) (log : List ConfigEvent) :
    ∃ device, setup railProtocols pages log = .ok device ∧ device.log = log ∧
      Represents railProtocols Usable device ⟨saved, saved⟩ := by
  have hloaded := h.load hflash
  exact ⟨_, setup_of_load hloaded.2 log, rfl, ⟨_, _, ConsoleTask.session_begin _⟩, rfl, hloaded⟩

/-- Every event keeps the configuration that is used and the one in the flash in step with the
abstract pair. -/
theorem represents_step (hflash : flash.Documented Usable) (hvalues : railProtocols.Documented)
    (h : Represents railProtocols Usable device config) (event : DeviceEvent) :
    device.step railProtocols event ≠ .error .loadConfig ∧
      ∀ device', device.step railProtocols event = .ok device' →
        ∃ new, device'.log = device.log ++ new ∧
          Represents railProtocols Usable device' (new.foldl StoredConfig.step config) := by
  cases event with
  | key ch =>
      refine ⟨fun hfault => ?_, fun device' hstep => represents_key hflash hvalues h hstep⟩
      obtain hinsert | ⟨_, -, hend⟩ := bind_eq_error.mp hfault
      · cases hrun : device.task.insertChar ch with
        | ok task =>
            rw [hrun] at hinsert
            cases hinsert
        | error e =>
            rw [hrun] at hinsert
            cases hinsert
      · cases hend
  | reset =>
      obtain ⟨device', hsetup, hlog, h'⟩ :=
        represents_setup hflash h.saved (device.log ++ [.reset])
      have hstep : device.step railProtocols .reset = .ok device' := hsetup
      rw [hstep]
      refine ⟨nofun, fun _ hsame => ?_⟩
      cases hsame
      exact ⟨[.reset], hlog, h'⟩

/-- The board does what the abstract board does. -/
theorem represents_run (hflash : flash.Documented Usable) (hvalues : railProtocols.Documented)
    (events : List DeviceEvent) :
    ∀ {device : Device flash} {config : StoredConfig},
      Represents railProtocols Usable device config →
      events.foldlM (step railProtocols) device ≠ .error .loadConfig ∧
        ∀ device', events.foldlM (step railProtocols) device = .ok device' →
          ∃ new, device'.log = device.log ++ new ∧
            Represents railProtocols Usable device' (new.foldl StoredConfig.step config) := by
  -- The induction is on the events. A reset loads what is in the flash, a key may save.
  induction events with
  | nil =>
      intro device config h
      refine ⟨nofun, fun device' hrun => ?_⟩
      cases hrun
      exact ⟨[], (List.append_nil _).symm, h⟩
  | cons event events ih =>
      intro device config h
      obtain ⟨hfault, hok⟩ := represents_step hflash hvalues h event
      rw [List.foldlM_cons]
      cases hstep : device.step railProtocols event with
      | error e =>
          refine ⟨fun hrun => hfault (hstep.trans hrun), nofun⟩
      | ok next =>
          obtain ⟨new, hlog, h'⟩ := hok next hstep
          obtain ⟨hrest, hend⟩ := ih h'
          refine ⟨hrest, fun device' hrun => ?_⟩
          obtain ⟨more, hmore, hlast⟩ := hend device' hrun
          refine ⟨new ++ more, ?_, ?_⟩
          · rw [hmore, hlog, List.append_assoc]
          · rw [List.foldl_append]
            exact hlast

/-- Whatever keys and resets come, the configuration is the one of the abstract board, and the flash
holds the one that was saved. A reset always finds one. -/
theorem config_across_resets (hflash : flash.Documented Usable)
    (hvalues : railProtocols.Documented) {pages : flash.Pages} {start : DataModel}
    (hstart : Holds railProtocols Usable pages start) :
    ∃ first, setup railProtocols pages [] = .ok first ∧ ∀ events : List DeviceEvent,
      events.foldlM (step railProtocols) first ≠ .error .loadConfig ∧
      ∀ device, events.foldlM (step railProtocols) first = .ok device →
        -- The board starts as the abstract one, and from there the run lemma says the rest.
        device.task.console.dataModel
            = (device.log.foldl StoredConfig.step ⟨start, start⟩).current ∧
          loadConfig railProtocols (flash.visitEntries device.pages)
            = some (device.log.foldl StoredConfig.step ⟨start, start⟩).saved := by
  obtain ⟨first, hsetup, hlog, h⟩ := represents_setup hflash hstart []
  refine ⟨first, hsetup, fun events => ?_⟩
  obtain ⟨hfault, hok⟩ := represents_run hflash hvalues events h
  refine ⟨hfault, fun device hrun => ?_⟩
  obtain ⟨new, hnew, h'⟩ := hok device hrun
  rw [hlog, List.nil_append] at hnew
  rw [hnew]
  exact ⟨h'.current, h'.saved.2⟩

/-- The commands of some keys. -/
theorem exists_run_keys {console : ConsoleManager} (keys : List Byte) :
    ∀ {device : Device flash} {editor : LineEditor} {task : ConsoleTask},
      ConsoleTask.Session console device.task editor →
      keys.foldlM ConsoleTask.insertChar device.task = .ok task →
      ∃ device' new, (keys.map DeviceEvent.key).foldlM (step railProtocols) device = .ok device' ∧
        device'.task = task ∧ device'.log = device.log ++ new.map .command ∧
        executions task.microrl.calls = executions device.task.microrl.calls ++ new := by
  -- The induction is on the keys, with the session that says which commands a key executes.
  induction keys with
  | nil =>
      intro device editor task hsession hrun
      cases hrun
      exact ⟨device, [], rfl, rfl, (List.append_nil _).symm, (List.append_nil _).symm⟩
  | cons ch keys ih =>
      intro device editor task hsession hrun
      rw [List.foldlM_cons] at hrun
      obtain ⟨next, hinsert, hrest⟩ := bind_eq_ok.mp hrun
      obtain ⟨editor', heditor, hsession'⟩ := ConsoleTask.session_step hsession hinsert
      obtain ⟨newCalls, hcalls, -⟩ := ConsoleTask.calls_step heditor
      have hexecutions : executions next.microrl.calls
          = executions device.task.microrl.calls ++ executions newCalls := by
        rw [hsession'.represents.calls, hcalls, executions_append, hsession.represents.calls]
      have hstep : ∃ device', device.step railProtocols (.key ch) = .ok device' ∧
          device'.task = next ∧
          device'.log = device.log ++ (executions newCalls).map ConfigEvent.command := by
        refine ⟨_, by rw [step, hinsert]; rfl, rfl, ?_⟩
        show device.log ++ List.map _ (List.drop _ (executions next.microrl.calls)) = _
        rw [hexecutions, List.drop_left]
      obtain ⟨device', hdevice, rfl, hlog⟩ := hstep
      obtain ⟨last, new, hlast, htask, hlastLog, hnew⟩ := ih hsession' hrest
      refine ⟨last, executions newCalls ++ new, ?_, htask, ?_, ?_⟩
      · rw [List.map_cons, List.foldlM_cons, hdevice]
        exact hlast
      · rw [hlastLog, hlog, List.map_append, List.append_assoc]
      · rw [hnew, hexecutions, List.append_assoc]

/-- A flash that appends its entries, and never has to write its log anew. -/
def appendFlash : FlashFairy where
  Pages := List (Nat × Nat)
  initializePages := id
  visitEntries := id
  storeVisitor pages visitor := pages ++ visitor.entries
  formatFlash _ := []

/-- The appending flash does what the documentation of FlashFairyPP says. -/
theorem appendFlash_documented : appendFlash.Documented fun _ => True where
  usable_initializePages _ := trivial
  usable_storeVisitor _ _ _ := trivial
  usable_formatFlash _ := trivial
  lastWrite_initializePages _ _ _ := rfl
  lastWrite_storeVisitor := by
    intro pages visitor _ _ hnodup _ entry hentry
    refine (lastWrite_append _ _ _).trans ?_
    rw [lastWrite_of_mem hnodup hentry]
    rfl
  lastWrite_formatFlash _ _ := rfl

/-- The protocols in a fixed order. -/
def railProtocolList : List RailProtocol := [.unknown, .mm1, .mm2, .mfx, .sx1, .sx2, .dcc]

/-- Their places in the list as values. -/
def railProtocolValues : RailProtocolValues where
  value railProtocol := railProtocolList.idxOf railProtocol
  ofValue value := railProtocolList[value]?

/-- The places fit into 16 bits and are read back. -/
theorem railProtocolValues_documented : railProtocolValues.Documented where
  lt railProtocol := by cases railProtocol <;> decide
  ofValue railProtocol := by cases railProtocol <;> rfl

/-- The second change is not saved. -/
def savingTexts : List (List Byte) :=
  ["config set turnoutProtocol dcc", "flash save", "config set turnoutProtocol sx1"].map
    ConsoleTask.keysOf

/-- The board with an empty flash. -/
def emptyDevice : Device appendFlash where
  pages := ([] : List (Nat × Nat))
  task := .begin {}
  log := []

/-- After the reset the saved protocol is used, and not the one set after saving. -/
theorem config_across_resets_dcc :
    ∃ device, @setup appendFlash railProtocolValues [] [] = .ok emptyDevice ∧
      ((savingTexts.flatMap (· ++ [13])).map DeviceEvent.key ++ [DeviceEvent.reset]).foldlM
        (step railProtocolValues) emptyDevice = .ok device ∧
      device.task.console.dataModel = { accessoryRailProtocol := .dcc } := by
  obtain ⟨first, hfirst, h⟩ := @config_across_resets _ _ _ appendFlash_documented
    railProtocolValues_documented [] {} ⟨trivial, rfl⟩
  have hsetup : @setup appendFlash railProtocolValues [] [] = .ok emptyDevice := rfl
  obtain rfl : first = emptyDevice := Except.ok.inj (hfirst.symm.trans hsetup)
  obtain ⟨task, htask, hexecutions⟩ :=
    ConsoleTask.typed_session {} (show MicrorlKey.ofByte 13 = .cr from rfl)
      (show ∀ text ∈ savingTexts, ∀ ch ∈ text, Typable ch by decide)
      (show ∀ text ∈ savingTexts,
        ¬ ConsoleTask.Refused (LineEditor.typedWords (text.map charOfByte)) by decide)
  obtain ⟨typed, new, htyped, -, hlog, hnew⟩ :=
    @exists_run_keys railProtocolValues _ _ _ emptyDevice _ _ (ConsoleTask.session_begin {}) htask
  have hcommands : new = [["config", "set", "turnoutProtocol", "dcc"], ["flash", "save"],
      ["config", "set", "turnoutProtocol", "sx1"]].map (·.map String.toList) :=
    hnew.symm.trans hexecutions
  obtain ⟨-, hload⟩ := (h _).2 typed htyped
  rw [hlog, hcommands] at hload
  refine ⟨{ typed with
      task := .begin { dataModel := { accessoryRailProtocol := .dcc } }
      log := typed.log ++ [.reset] }, hsetup, ?_, rfl⟩
  rw [List.foldlM_append, htyped, ok_bind]
  rw [List.foldlM_cons]
  exact congrArg (· >>= pure) (setup_of_load hload (typed.log ++ [ConfigEvent.reset]))

end Device

end C6021Light
