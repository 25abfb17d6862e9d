import C6021Light.CliSupport
import C6021Light.RoutingTask.EngineDownload

/-!
# `C6021Light.ConsoleManager`: the commands of the console

`ConsoleManager.cpp`, and the handlers in `main.cpp` and `stm32eepromEmulation.cpp`. The tables
name their handlers (`CommandHandler`), and `call` is what a handler does.

A handler changes the configuration, writes to the console, and calls other components. These calls
are `requests`, in their order. What they write and return is not in this model. `output` is all
that was written.

`derefTable` is the first read of a table. A null pointer has no table, and the read is a
`ConsoleFault`. `helps` is a ghost field, the calls of `display_help` that came to their end.
-/

set_option autoImplicit false

namespace C6021Light

/-- The functions in the tables. -/
inductive CommandHandler
  | runAppSetTurnoutProtocol
  | runAppGetTurnoutProtocol
  | runAppSave
  | runAppHelp
  | runAppVersion
  | runAppDumpFlash
  | runAppFormatFlash
  | runLnSlotServerActive
  | runLnSlotServerPassive
  | runLnSlotServerDisable
  | runLnSlotServerGetstatus
  | runLnSlotServerDispatch
  | runLnSlotServerDump
  | runAppDownloadEnginedbCan
  | runAppDumpEnginedbCan
  | runAppSetEnginedbProtocol
  | runAppCanPing
  | runGetGenerateI2CTurnoutResponse
  | runSetGenerateI2CTurnoutResponseEnable
  | runSetGenerateI2CTurnoutResponseDisable
deriving DecidableEq, Repr

/-- What a handler calls in another component. `dispatch` has the token of the address. -/
inductive ConsoleRequest
  | saveConfig (dataModel : DataModel)
  | dumpFlash
  | formatFlash
  | dumpSlots
  | markAddressForDispatch (dispatchAddr : CString)
  | setCanDbDownload
  | fetchEngineDB
  | dumpEngineDB
  | setDownloadProtocol (selectedProtocol : EngineDownloadProtocol)
  | sendPing
deriving DecidableEq, Repr

/-- A call of `display_help` and the lines that it wrote for the entries of a table. -/
structure HelpCall where
  argv : List CString
  entries : List CString
deriving DecidableEq, Repr

/-- The console with what it prints, asks of the other components and displays as help. -/
structure ConsoleManager where
  dataModel : DataModel := {}
  buildGitRevision : CString := []
  output : CString := []
  requests : List ConsoleRequest := []
  helps : List HelpCall := []

/-- An access that the source makes through a null pointer, or behind `argv`. -/
inductive ConsoleFault
  | nullTable
  | nullArgument
  | nullHandler
  | argv (fault : CliFault)
deriving DecidableEq, Repr

/-- A function of the console, which may fault. -/
abbrev ConsoleRun := StateT ConsoleManager (Except ConsoleFault)

namespace ConsoleManager

/-! ### Names -/

/-- The name `MM2Name`. -/
abbrev mm2Name : CString := "MM2".toList

/-- The name `DCCName`. -/
abbrev dccName : CString := "DCC".toList

/-- The name `SX1Name`. -/
abbrev sx1Name : CString := "SX1".toList

/-- The help text of `turnoutProtocol`. -/
abbrev turnoutProtocolHelp : CString :=
  "Data Protocol used for turnout commands generated by I2C or LocoNet.".toList

/-- The help text of `lnSlotServer`. -/
abbrev lnSlotServerHelp : CString :=
  "Slot Server for supporting throttles on LocoNet.".toList

/-- The help text of `generateI2CTurnoutResponse`. -/
abbrev generateI2CTurnoutResponseHelp : CString :=
  "Auto-generate response messages for Turnout requests on I2C.".toList

/-! ### Tables -/

/-- An argument table; the source ends it with an entry without a name. -/
abbrev Table := List (Argument CommandHandler)

/-- The protocols that `config set turnoutProtocol` takes; its handler reads them. -/
def turnoutProtocolArguments : Table :=
  [{ name := mm2Name }, { name := dccName }, { name := sx1Name }]

/-- The states that `config set lnSlotServer` takes, each with its handler. -/
def lnSlotServerConfigArguments : Table :=
  [{ name := "active".toList, handler := some .runLnSlotServerActive },
    { name := "passive".toList, handler := some .runLnSlotServerPassive },
    { name := "disabled".toList, handler := some .runLnSlotServerDisable }]

/-- The values of `config set generateI2CTurnoutResponse`. -/
def argsGenerateI2CTurnoutResponse : Table :=
  [{ name := "enabled".toList, handler := some .runSetGenerateI2CTurnoutResponseEnable },
    { name := "disabled".toList, handler := some .runSetGenerateI2CTurnoutResponseDisable }]

/-- The settings that `config get` shows. -/
def argsConfigGet : Table :=
  [{ name := "turnoutProtocol".toList, handler := some .runAppGetTurnoutProtocol
     help := some turnoutProtocolHelp },
    { name := "lnSlotServer".toList, handler := some .runLnSlotServerGetstatus
      help := some lnSlotServerHelp },
    { name := "generateI2CTurnoutResponse".toList
      handler := some .runGetGenerateI2CTurnoutResponse
      help := some generateI2CTurnoutResponseHelp }]

/-- The settings that `config set` changes. -/
def argsConfigSet : Table :=
  [{ name := "turnoutProtocol".toList, options := some turnoutProtocolArguments
     handler := some .runAppSetTurnoutProtocol, help := some turnoutProtocolHelp },
    { name := "lnSlotServer".toList, options := some lnSlotServerConfigArguments
      help := some lnSlotServerHelp },
    { name := "generateI2CTurnoutResponse".toList
      options := some argsGenerateI2CTurnoutResponse
      help := some generateI2CTurnoutResponseHelp }]

/-- The words behind `config`. -/
def argsConfig : Table :=
  [{ name := "get".toList, options := some argsConfigGet
     help := some "Display configuration value.".toList },
    { name := "set".toList, options := some argsConfigSet
      help := some "Modify configuraiton value.".toList }]

/-- The words behind `lnSlotServer`. -/
def argsLnSlotServer : Table :=
  [{ name := "dump".toList, handler := some .runLnSlotServerDump
     help := some "Display current slots.".toList },
    { name := "dispatch".toList, handler := some .runLnSlotServerDispatch
      help := some "Dispatch engine.".toList }]

/-- The words behind `canEngineDB`. -/
def argsCanEngineDB : Table :=
  [{ name := "dump".toList, handler := some .runAppDumpEnginedbCan
     help := some "Display current Engine DB.".toList },
    { name := "downloadEngines".toList, handler := some .runAppDownloadEnginedbCan
      help := some "Fetch CAN EngineDB.".toList },
    { name := "downloadProtocol".toList, handler := some .runAppSetEnginedbProtocol
      help := some "Force Engine DB download protocol (UNKNOWN, LOKNAMEN, LOKLISTE).".toList }]

/-- The words behind `cansend`. -/
def argsCansend : Table :=
  [{ name := "ping".toList, handler := some .runAppCanPing
     help := some "Send a CAN ping.".toList }]

/-- The words behind `flash`. -/
def argsFlash : Table :=
  [{ name := "dump".toList, handler := some .runAppDumpFlash
     help := some "Show contents of EEPROM Emulation Flash.".toList },
    { name := "save".toList, handler := some .runAppSave
      help := some "Save configuration across reset.".toList },
    { name := "format".toList, handler := some .runAppFormatFlash
      help := some "Erase all settings from flash.".toList }]

/-- The commands. -/
def argtable : Table :=
  [{ name := "config".toList, options := some argsConfig
     help := some "Change runtime configuration.".toList },
    { name := "flash".toList, options := some argsFlash
      help := some "Operations on persistent storage.".toList },
    { name := "lnSlotServer".toList, options := some argsLnSlotServer
      help := some "Control the LocoNet Refresh Slot server.".toList },
    { name := "canEngineDB".toList, options := some argsCanEngineDB
      help := some "Control the Can Engine DB.".toList },
    { name := "cansend".toList, options := some argsCansend
      help := some "Send CAN protocol messages.".toList },
    { name := "help".toList, handler := some .runAppHelp
      help := some "Display this help message.".toList },
    { name := "version".toList, handler := some .runAppVersion
      help := some "Display version information.".toList }]

/-! ### Pointers -/

/-- The entries of a table, when something is read from it. -/
def derefTable (table : Option Table) : Except ConsoleFault Table :=
  match table with
  | some entries => .ok entries
  | none => .error .nullTable

/-- `argv[idx]`. -/
def tokenAt (argv : List CString) (idx : Nat) : Except ConsoleFault CString :=
  (readArgv argv idx).mapError .argv

/-- `findLongestPrefix` from a level on, with its reads of the tables. -/
def readLongestPrefixFrom (predicate : PrefixPredicate CommandHandler) :
    List CString → Option Table → Nat → PrefixResult CommandHandler →
      Except ConsoleFault (PrefixResult CommandHandler)
  | [], _, _, result => .ok result
  | token :: argv, currentLevelArguments, argvIdx, result =>
      -- `currentLevelArguments != nullptr`
      if currentLevelArguments.isSome then do
        let entries ← derefTable currentLevelArguments
        match findArgument entries token with
        | some argument =>
            readLongestPrefixFrom predicate argv argument.options (argvIdx + 1)
              (setResultIfPredicateHolds result predicate argument argvIdx)
        | none => return result
      else return result

/-! ### Help and version -/

/-- `printf`, to the output of the console. -/
def print (text : CString) : ConsoleRun Unit :=
  modify fun console => { console with output := console.output ++ text }

/-- `printArguments`. -/
def argumentsText (argc : Nat) (argv : List CString) : Except ConsoleFault CString := do
  let tokens ← (List.range argc).mapM (tokenAt argv)
  return tokens.flatMap (· ++ " ".toList)

/-- A line of the help. -/
def entryText (validArgc : Nat) (argv : List CString) (argument : Argument CommandHandler) :
    Except ConsoleFault CString := do
  let arguments ← argumentsText validArgc argv
  let more : CString := if argument.options.isSome then " ...".toList else []
  let help : CString := match argument.help with
    | some help => " - ".toList ++ help
    | none => []
  return "  ".toList ++ arguments ++ argument.name ++ more ++ help ++ "\n".toList

/-- `argumentIt` and `validArgc` of `display_help`. -/
def helpStart (argv : List CString) : Except ConsoleFault (Option Table × Nat) :=
  let result := findLongestPrefix argtable argv truePredicate
  if result.empty then .ok (some argtable, 0)
  else match result.arg with
    | some arg => .ok (arg.options, result.level + 1)
    | none => .error .nullArgument

/-- `display_help`. -/
def displayHelp (argv : List CString) : ConsoleRun Unit := do
  let (argumentIt, validArgc) ← liftM (helpStart argv)
  print "Available commands:\n".toList
  let entries ← liftM (derefTable argumentIt)
  let lines ← liftM (entries.mapM (entryText validArgc argv))
  print lines.flatten
  modify fun console => { console with helps := console.helps ++ [⟨argv, lines⟩] }

/-- `display_version`. -/
def displayVersion : ConsoleRun Unit := do
  print ("Current Version: ".toList ++ (← get).buildGitRevision ++ "\n".toList)

/-! ### Numbers of arguments -/

/-- `checkNumArgs`: the texts give the number expected and the number given. -/
def checkNumArgs (argc lower upper : Int) (appName : CString) : ConsoleRun Bool := do
  let message (few : CString) : CString :=
    appName ++ ": Too ".toList ++ few ++ " arguments (".toList ++ (toString lower).toList
      ++ " expected, ".toList ++ (toString argc).toList ++ " given).\n".toList
  if argc < lower then
    print (message "few".toList)
    return false
  else if upper < argc then
    print (message "many".toList)
    return false
  else return true

/-- The front of the handlers that display the help when they do not have as many arguments as
they expect. -/
def expectArgs (appName : CString) (expected : Nat) (argv : List CString) (argcMatched : Nat)
    (body : ConsoleRun Int) : ConsoleRun Int := do
  if ← checkNumArgs ((argv.length : Int) - argcMatched) expected expected appName then body
  else
    displayHelp argv
    return -2

/-! ### Handlers -/

/-- A call of another component. -/
def request (consoleRequest : ConsoleRequest) : ConsoleRun Unit :=
  modify fun console => { console with requests := console.requests ++ [consoleRequest] }

/-- A change of the configuration. -/
def configure (change : DataModel → DataModel) : ConsoleRun Unit :=
  modify fun console => { console with dataModel := change console.dataModel }

/-- `strncasecmp(s, name, strlen(name)) == 0`. -/
def startsWithNoCase (s name : CString) : Bool :=
  (s.take name.length).map Char.toLower = name.map Char.toLower

/-- `strcasecmp(s, name) == 0`. -/
def equalsNoCase (s name : CString) : Bool := s.map Char.toLower = name.map Char.toLower

/-- The comparisons of `run_app_set_turnout_protocol`. -/
def railProtocolOf (protocolArgument : CString) : Option RailProtocol :=
  if startsWithNoCase protocolArgument mm2Name then some .mm2
  else if startsWithNoCase protocolArgument dccName then some .dcc
  else if startsWithNoCase protocolArgument sx1Name then some .sx1
  else none

/-- `run_app_set_turnout_protocol`: the word behind the command names the protocol. -/
def runAppSetTurnoutProtocol (argv : List CString) (argcMatched : Nat) : ConsoleRun Int :=
  let appName := "SetTurnoutProtocol".toList
  expectArgs appName 1 argv argcMatched do
    let protocolArgument ← liftM (tokenAt argv argcMatched)
    match railProtocolOf protocolArgument with
    | some railProtocol =>
        configure fun dataModel => { dataModel with accessoryRailProtocol := railProtocol }
        print (appName ++ ": Set Turnout protocol to '".toList ++ protocolArgument
          ++ "'.\n".toList)
        return 0
    | none =>
        print (appName ++ ": Unknown rail protocol '".toList ++ protocolArgument ++ "'.\n".toList)
        return -3

/-- The front of the handlers that refuse any further argument without the help. -/
def expectNoArgs (appName : CString) (argv : List CString) (argcMatched : Nat)
    (body : ConsoleRun Int) : ConsoleRun Int := do
  if ← checkNumArgs ((argv.length : Int) - argcMatched) 0 0 appName then body
  else return -2

/-- The name that `run_app_get_turnout_protocol` shows. -/
def turnoutProtocolName : RailProtocol → CString
  | .mm1 | .mm2 | .mfx | .unknown => mm2Name
  | .dcc => dccName
  | .sx1 | .sx2 => sx1Name

/-- `run_app_get_turnout_protocol`. -/
def runAppGetTurnoutProtocol (argv : List CString) (argcMatched : Nat) : ConsoleRun Int :=
  let appName := "GetTurnoutProtocol".toList
  expectNoArgs appName argv argcMatched do
    let turnoutProtocol := turnoutProtocolName (← get).dataModel.accessoryRailProtocol
    print (appName ++ ": The current turnout protocol is ".toList ++ turnoutProtocol
      ++ ".\n".toList)
    return 0

/-- `run_app_save`: the settings go to the flash. -/
def runAppSave (argv : List CString) (argcMatched : Nat) : ConsoleRun Int :=
  let appName := "SaveToFlash".toList
  expectNoArgs appName argv argcMatched do
    request (.saveConfig (← get).dataModel)
    print (appName ++ ": Configuration saved to flash.\n".toList)
    return 0

/-- `run_app_help`: the overview of all commands. -/
def runAppHelp : ConsoleRun Int := do
  displayHelp []
  return 0

/-- `run_app_version`. -/
def runAppVersion : ConsoleRun Int := do
  displayVersion
  return 0

/-- `run_ln_slot_server_active`, `_passive` and `_disable`. -/
def setSlotServerState (appName : CString) (slotServerState : SlotServerState)
    (argv : List CString) (argcMatched : Nat) : ConsoleRun Int :=
  expectArgs appName 0 argv argcMatched do
    configure fun dataModel => { dataModel with lnSlotServerState := slotServerState }
    return 0

/-- `run_ln_slot_server_active`. -/
def runLnSlotServerActive : List CString → Nat → ConsoleRun Int :=
  setSlotServerState "LnSlotServerActive".toList .active

/-- `run_ln_slot_server_passive`. -/
def runLnSlotServerPassive : List CString → Nat → ConsoleRun Int :=
  setSlotServerState "LnSlotServerPassive".toList .passive

/-- `run_ln_slot_server_disable`. -/
def runLnSlotServerDisable : List CString → Nat → ConsoleRun Int :=
  setSlotServerState "LnSlotServerDisable".toList .disabled

/-- The words that the console prints for the states of the slot server. -/
def slotServerStateName : SlotServerState → CString
  | .disabled => "disabled".toList
  | .passive => "passive".toList
  | .active => "active".toList

/-- `run_ln_slot_server_getstatus`. -/
def runLnSlotServerGetstatus (argv : List CString) (argcMatched : Nat) : ConsoleRun Int :=
  expectArgs "LnSlotServerGetstatus".toList 0 argv argcMatched do
    let status := slotServerStateName (← get).dataModel.lnSlotServerState
    print ("LocoNet Slot Server is ".toList ++ status ++ ".\n".toList)
    return 0

/-- `run_ln_slot_server_dump`; the component prints the table. -/
def runLnSlotServerDump (argv : List CString) (argcMatched : Nat) : ConsoleRun Int :=
  expectArgs "LnSlotServerDump".toList 0 argv argcMatched do
    request .dumpSlots
    return 0

/-- `run_ln_slot_server_dispatch`, for the address that the word names. -/
def runLnSlotServerDispatch (argv : List CString) (argcMatched : Nat) : ConsoleRun Int :=
  expectArgs "LnSlotServerDispatch".toList 1 argv argcMatched do
    let dispatchAddr ← liftM (tokenAt argv argcMatched)
    request (.markAddressForDispatch dispatchAddr)
    return 0

/-- `run_app_download_enginedb_can`: the indicator is set, then the download starts. -/
def runAppDownloadEnginedbCan : ConsoleRun Int := do
  request .setCanDbDownload
  request .fetchEngineDB
  return 0

/-- The comparisons of `run_app_set_enginedb_protocol`. -/
def downloadProtocolOf (protocol : CString) : Option EngineDownloadProtocol :=
  if equalsNoCase protocol "UNKNOWN".toList then some .unknown
  else if equalsNoCase protocol "LOKNAMEN".toList then some .loknamen
  else if equalsNoCase protocol "LOKLISTE".toList then some .lokliste
  else none

/-- `run_app_set_enginedb_protocol`: the word behind the command names the protocol. -/
def runAppSetEnginedbProtocol (argv : List CString) (argcMatched : Nat) : ConsoleRun Int :=
  let appName := "SetEngineDBDownloadProtocol".toList
  expectArgs appName 1 argv argcMatched do
    let protocol ← liftM (tokenAt argv argcMatched)
    match downloadProtocolOf protocol with
    | some selectedProtocol =>
        request (.setDownloadProtocol selectedProtocol)
        -- The source writes a backslash and an `n` at the end.
        print (appName ++ ": Download protocol set to '".toList ++ protocol
          ++ "' (runtime only).\\n".toList)
        return 0
    | none =>
        print (appName ++ ": Unknown download protocol '".toList ++ protocol ++ "'.\n".toList)
        return -3

/-- `run_get_generateI2CTurnoutResponse`. -/
def runGetGenerateI2CTurnoutResponse (argv : List CString) (argcMatched : Nat) :
    ConsoleRun Int :=
  expectArgs "GetGenerateI2CTurnoutResponse".toList 0 argv argcMatched do
    let enabled := (← get).dataModel.generateI2CTurnoutResponse
    let state : CString := if enabled then "enabled".toList else "disabled".toList
    print ("generateI2CTurnoutResponse is ".toList ++ state ++ ".\n".toList)
    return 0

/-- `run_set_generateI2CTurnoutResponse_enable` and `_disable`. -/
def setGenerateI2CTurnoutResponse (appName : CString) (enabled : Bool) (argv : List CString)
    (argcMatched : Nat) : ConsoleRun Int :=
  expectArgs appName 0 argv argcMatched do
    configure fun dataModel => { dataModel with generateI2CTurnoutResponse := enabled }
    return 0

/-- `run_set_generateI2CTurnoutResponse_enable`. -/
def runSetGenerateI2CTurnoutResponseEnable : List CString → Nat → ConsoleRun Int :=
  setGenerateI2CTurnoutResponse "EnableGenerateI2CTurnoutResponse".toList true

/-- `run_set_generateI2CTurnoutResponse_disable`. -/
def runSetGenerateI2CTurnoutResponseDisable : List CString → Nat → ConsoleRun Int :=
  setGenerateI2CTurnoutResponse "DisableGenerateI2CTurnoutResponse".toList false

/-- A handler that makes one call and does not look at its arguments. -/
def runRequest (consoleRequest : ConsoleRequest) : ConsoleRun Int := do
  request consoleRequest
  return 0

/-- The call through a handler pointer. -/
def call (handler : Option CommandHandler) (argv : List CString) (argcMatched : Nat) :
    ConsoleRun Int :=
  match handler with
  | none => throw .nullHandler
  | some .runAppSetTurnoutProtocol => runAppSetTurnoutProtocol argv argcMatched
  | some .runAppGetTurnoutProtocol => runAppGetTurnoutProtocol argv argcMatched
  | some .runAppSave => runAppSave argv argcMatched
  | some .runAppHelp => runAppHelp
  | some .runAppVersion => runAppVersion
  | some .runAppDumpFlash => runRequest .dumpFlash
  | some .runAppFormatFlash => runRequest .formatFlash
  | some .runLnSlotServerActive => runLnSlotServerActive argv argcMatched
  | some .runLnSlotServerPassive => runLnSlotServerPassive argv argcMatched
  | some .runLnSlotServerDisable => runLnSlotServerDisable argv argcMatched
  | some .runLnSlotServerGetstatus => runLnSlotServerGetstatus argv argcMatched
  | some .runLnSlotServerDispatch => runLnSlotServerDispatch argv argcMatched
  | some .runLnSlotServerDump => runLnSlotServerDump argv argcMatched
  | some .runAppDownloadEnginedbCan => runAppDownloadEnginedbCan
  | some .runAppDumpEnginedbCan => runRequest .dumpEngineDB
  | some .runAppSetEnginedbProtocol => runAppSetEnginedbProtocol argv argcMatched
  | some .runAppCanPing => runRequest .sendPing
  | some .runGetGenerateI2CTurnoutResponse => runGetGenerateI2CTurnoutResponse argv argcMatched
  | some .runSetGenerateI2CTurnoutResponseEnable =>
      runSetGenerateI2CTurnoutResponseEnable argv argcMatched
  | some .runSetGenerateI2CTurnoutResponseDisable =>
      runSetGenerateI2CTurnoutResponseDisable argv argcMatched

/-- `microrl_execute_callback`. -/
def microrlExecuteCallback (argv : List CString) : ConsoleRun Int := do
  let result ← callHandler call argtable argv
  if result = kNoHandler then
    print ("No handler for command \"".toList ++ argv.flatMap (· ++ " ".toList)
      ++ "\"\n".toList)
    displayHelp argv
  return result

end ConsoleManager

end C6021Light
