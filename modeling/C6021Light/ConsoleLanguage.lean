import C6021Light.ConsoleManager

/-!
# `C6021Light.ConsoleLanguage`: what the commands of the console mean

An abstract console, without tables and without a search in them. `commands` are the commands as
they are typed. A command line is one of them with arguments behind it, and `meaning` is what it
does to the configuration and which calls of other components it makes. Any other command line does
nothing.

Most commands do nothing when they have another number of arguments than they expect. Some of them
ignore their arguments.

`Proofs.ConsoleSession` shows that the console does what its commands mean.
-/

set_option autoImplicit false

namespace C6021Light

/-- What a command can change. -/
structure ConsoleState where
  dataModel : DataModel
  requests : List ConsoleRequest
deriving DecidableEq, Repr

/-- What the commands of a console depend on and change. -/
def ConsoleManager.state (console : ConsoleManager) : ConsoleState where
  dataModel := console.dataModel
  requests := console.requests

namespace ConsoleState

open ConsoleManager (railProtocolOf downloadProtocolOf)

/-- A call of another component. -/
def ask (state : ConsoleState) (consoleRequest : ConsoleRequest) : ConsoleState :=
  { state with requests := state.requests ++ [consoleRequest] }

/-- `config set turnoutProtocol`. -/
def setTurnoutProtocol (state : ConsoleState) (railProtocol : RailProtocol) : ConsoleState :=
  { state with dataModel := { state.dataModel with accessoryRailProtocol := railProtocol } }

/-- `config set lnSlotServer`. -/
def setSlotServer (state : ConsoleState) (slotServerState : SlotServerState) : ConsoleState :=
  { state with dataModel := { state.dataModel with lnSlotServerState := slotServerState } }

/-- `config set generateI2CTurnoutResponse`. -/
def setTurnoutResponse (state : ConsoleState) (enabled : Bool) : ConsoleState :=
  { state with dataModel := { state.dataModel with generateI2CTurnoutResponse := enabled } }

/-- A command without arguments. -/
def noArgs (state : ConsoleState) (args : List CString) (done : ConsoleState) : ConsoleState :=
  if args = [] then done else state

/-- A command with one argument, which must be a name that is known. -/
def oneArg {α : Type} (state : ConsoleState) (args : List CString) (parse : CString → Option α)
    (done : α → ConsoleState) : ConsoleState :=
  match args with
  | [arg] => (parse arg).elim state done
  | _ => state

/-- What a command does with its arguments. -/
def effect (handler : CommandHandler) (args : List CString) (state : ConsoleState) :
    ConsoleState :=
  match handler with
  | .runAppSetTurnoutProtocol => state.oneArg args railProtocolOf state.setTurnoutProtocol
  | .runLnSlotServerActive => state.noArgs args (state.setSlotServer .active)
  | .runLnSlotServerPassive => state.noArgs args (state.setSlotServer .passive)
  | .runLnSlotServerDisable => state.noArgs args (state.setSlotServer .disabled)
  | .runSetGenerateI2CTurnoutResponseEnable => state.noArgs args (state.setTurnoutResponse true)
  | .runSetGenerateI2CTurnoutResponseDisable => state.noArgs args (state.setTurnoutResponse false)
  | .runAppSave => state.noArgs args (state.ask (.saveConfig state.dataModel))
  | .runLnSlotServerDump => state.noArgs args (state.ask .dumpSlots)
  | .runLnSlotServerDispatch =>
      state.oneArg args some fun dispatchAddr => state.ask (.markAddressForDispatch dispatchAddr)
  | .runAppSetEnginedbProtocol =>
      state.oneArg args downloadProtocolOf fun selectedProtocol =>
        state.ask (.setDownloadProtocol selectedProtocol)
  -- The arguments are ignored.
  | .runAppDumpFlash => state.ask .dumpFlash
  | .runAppFormatFlash => state.ask .formatFlash
  | .runAppDownloadEnginedbCan => (state.ask .setCanDbDownload).ask .fetchEngineDB
  | .runAppDumpEnginedbCan => state.ask .dumpEngineDB
  | .runAppCanPing => state.ask .sendPing
  -- These write to the console only.
  | .runAppGetTurnoutProtocol | .runLnSlotServerGetstatus | .runGetGenerateI2CTurnoutResponse
  | .runAppHelp | .runAppVersion => state

/-- The commands. None of them is the beginning of another one. -/
def commands : List (List CString × CommandHandler) :=
  [(["config", "get", "turnoutProtocol"], .runAppGetTurnoutProtocol),
    (["config", "get", "lnSlotServer"], .runLnSlotServerGetstatus),
    (["config", "get", "generateI2CTurnoutResponse"], .runGetGenerateI2CTurnoutResponse),
    (["config", "set", "turnoutProtocol"], .runAppSetTurnoutProtocol),
    (["config", "set", "lnSlotServer", "active"], .runLnSlotServerActive),
    (["config", "set", "lnSlotServer", "passive"], .runLnSlotServerPassive),
    (["config", "set", "lnSlotServer", "disabled"], .runLnSlotServerDisable),
    (["config", "set", "generateI2CTurnoutResponse", "enabled"],
      .runSetGenerateI2CTurnoutResponseEnable),
    (["config", "set", "generateI2CTurnoutResponse", "disabled"],
      .runSetGenerateI2CTurnoutResponseDisable),
    (["flash", "dump"], .runAppDumpFlash),
    (["flash", "save"], .runAppSave),
    (["flash", "format"], .runAppFormatFlash),
    (["lnSlotServer", "dump"], .runLnSlotServerDump),
    (["lnSlotServer", "dispatch"], .runLnSlotServerDispatch),
    (["canEngineDB", "dump"], .runAppDumpEnginedbCan),
    (["canEngineDB", "downloadEngines"], .runAppDownloadEnginedbCan),
    (["canEngineDB", "downloadProtocol"], .runAppSetEnginedbProtocol),
    (["cansend", "ping"], .runAppCanPing),
    (["help"], .runAppHelp),
    (["version"], .runAppVersion)].map
      fun command : List String × CommandHandler => (command.1.map String.toList, command.2)

/-- The command that a command line begins with. -/
def commandAt (argv : List CString) : Option (List CString × CommandHandler) :=
  commands.find? (·.1.isPrefixOf argv)

/-- What a command line does. -/
def meaning (argv : List CString) (state : ConsoleState) : ConsoleState :=
  match commandAt argv with
  | some command => effect command.2 (argv.drop command.1.length) state
  | none => state

end ConsoleState

/-! ### Settings -/

/-- The settings of `config get` and `config set`. -/
inductive Setting
  | turnoutProtocol
  | lnSlotServer
  | generateI2CTurnoutResponse
deriving DecidableEq, Repr

namespace Setting

open ConsoleManager (railProtocolOf turnoutProtocolName slotServerStateName)

/-- The word for a setting. -/
def name : Setting → CString
  | .turnoutProtocol => "turnoutProtocol".toList
  | .lnSlotServer => "lnSlotServer".toList
  | .generateI2CTurnoutResponse => "generateI2CTurnoutResponse".toList

/-- The command that shows a setting. -/
def getCommand (setting : Setting) : List CString :=
  ["config".toList, "get".toList, setting.name]

/-- The command that sets it. -/
def setCommand (setting : Setting) (value : CString) : List CString :=
  ["config".toList, "set".toList, setting.name, value]

/-- The state of the slot server that a word names. -/
def slotServerStateOf (value : CString) : Option SlotServerState :=
  if value = "active".toList then some .active
  else if value = "passive".toList then some .passive
  else if value = "disabled".toList then some .disabled
  else none

/-- The truth value that a word names. -/
def enabledOf (value : CString) : Option Bool :=
  if value = "enabled".toList then some true
  else if value = "disabled".toList then some false
  else none

/-- A value of the setting, if it has the value. -/
def change (setting : Setting) (value : CString) (dataModel : DataModel) : Option DataModel :=
  match setting with
  | .turnoutProtocol =>
      (railProtocolOf value).map fun railProtocol =>
        { dataModel with accessoryRailProtocol := railProtocol }
  | .lnSlotServer =>
      (slotServerStateOf value).map fun slotServerState =>
        { dataModel with lnSlotServerState := slotServerState }
  | .generateI2CTurnoutResponse =>
      (enabledOf value).map fun enabled =>
        { dataModel with generateI2CTurnoutResponse := enabled }

/-- What `config get` shows. -/
def answer (setting : Setting) (dataModel : DataModel) : CString :=
  match setting with
  | .turnoutProtocol =>
      "GetTurnoutProtocol: The current turnout protocol is ".toList
        ++ turnoutProtocolName dataModel.accessoryRailProtocol ++ ".\n".toList
  | .lnSlotServer =>
      "LocoNet Slot Server is ".toList ++ slotServerStateName dataModel.lnSlotServerState
        ++ ".\n".toList
  | .generateI2CTurnoutResponse =>
      "generateI2CTurnoutResponse is ".toList
        ++ (if dataModel.generateI2CTurnoutResponse then "enabled".toList else "disabled".toList)
        ++ ".\n".toList

/-- What is shown of a value that the setting has. -/
def shown (setting : Setting) (value : CString) : Option CString :=
  (setting.change value {}).map setting.answer

end Setting

end C6021Light
