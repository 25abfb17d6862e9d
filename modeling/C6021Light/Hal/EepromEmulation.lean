import C6021Light.ConsoleTask
import C6021Light.Lib.LastWrite

/-!
# `C6021Light.Hal.EepromEmulation`: the configuration in the flash

`stm32eepromEmulation.cpp` and `DataModel.h`. The flash pages belong to the library `FlashFairyPP`,
which is not in this repository. `FlashFairy` is what the code calls of it, and `Documented` is
what the code relies on. A page is a log of entries with a key and a value. `initializePages`
(`initialize`) and `storeVisitor` may write the log anew.

The values of `RailProtocol` are in `RR32Can`, which is not in this repository either
(`RailProtocolValues`).

`Device` is the board: the flash, and the console that runs since the last reset. `setup` reads the
configuration (`main.cpp`). A reset loses everything except the flash. `log` is a ghost field, the
commands that were executed and the resets.
-/

set_option autoImplicit false

namespace C6021Light

open LastWrite Microrl

namespace DataAddresses

/-- `kNumAddresses`. -/
abbrev kNumAddresses : Nat := 3

/-- `startAddr`. -/
abbrev startAddr : Nat := 0

/-- The key of the turnout protocol. -/
abbrev accessoryRailProtocol : Nat := startAddr + 0

/-- The key of the slot server. -/
abbrev lnSlotServerState : Nat := accessoryRailProtocol + 1

/-- The key of the turnout responses. -/
abbrev generateI2CTurnoutResponse : Nat := lnSlotServerState + 1

end DataAddresses

/-! ### Values -/

/-- The values of `RailProtocol`, and its `static_cast`. Not each number is a protocol. -/
structure RailProtocolValues where
  value : RailProtocol → Nat
  ofValue : Nat → Option RailProtocol

/-- A value of the flash is a half word, and it is cast back to what it was. -/
structure RailProtocolValues.Documented (railProtocols : RailProtocolValues) : Prop where
  lt : ∀ railProtocol, railProtocols.value railProtocol < 2 ^ 16
  ofValue : ∀ railProtocol,
    railProtocols.ofValue (railProtocols.value railProtocol) = some railProtocol

/-- The values of `SlotServerState`. -/
def SlotServerState.value : SlotServerState → Nat
  | .disabled => 0
  | .passive => 1
  | .active => 2

/-- A `static_cast` to an enumeration of 8 bits. -/
def SlotServerState.ofValue (value : Nat) : Option SlotServerState :=
  match value % 2 ^ 8 with
  | 0 => some .disabled
  | 1 => some .passive
  | 2 => some .active
  | _ => none

/-- `getValueForKey`. -/
def DataModel.getValueForKey (railProtocols : RailProtocolValues) (dataModel : DataModel)
    (key : Nat) : Nat :=
  if key = DataAddresses.accessoryRailProtocol then
    railProtocols.value dataModel.accessoryRailProtocol
  else if key = DataAddresses.lnSlotServerState then dataModel.lnSlotServerState.value
  else if key = DataAddresses.generateI2CTurnoutResponse then
    dataModel.generateI2CTurnoutResponse.toNat
  else 0xDEAD

/-! ### Flash -/

/-- What `storeVisitor` asks a visitor for. -/
structure StoreVisitor where
  contains : Nat → Bool
  entries : List (Nat × Nat)

/-- `DataModelStoreVisitor`. -/
def dataModelStoreVisitor (railProtocols : RailProtocolValues) (dataModel : DataModel) :
    StoreVisitor where
  contains key := decide (key < DataAddresses.kNumAddresses)
  entries := (List.range DataAddresses.kNumAddresses).map fun index =>
    (index, dataModel.getValueForKey railProtocols index)

/-- The calls of `FlashFairyPP`. -/
structure FlashFairy where
  Pages : Type
  initializePages : Pages → Pages
  visitEntries : Pages → List (Nat × Nat)
  storeVisitor : Pages → StoreVisitor → Pages
  formatFlash : Pages → Pages

/-- What the code relies on. `Usable` are pages that were formatted. Nothing is said about a key
that a visitor does not contain. -/
structure FlashFairy.Documented (flash : FlashFairy) (Usable : flash.Pages → Prop) : Prop where
  usable_initializePages : ∀ pages, Usable (flash.initializePages pages)
  usable_storeVisitor : ∀ pages visitor, Usable pages → Usable (flash.storeVisitor pages visitor)
  usable_formatFlash : ∀ pages, Usable (flash.formatFlash pages)
  lastWrite_initializePages : ∀ pages, Usable pages → ∀ key,
    lastWrite (flash.visitEntries (flash.initializePages pages)) key
      = lastWrite (flash.visitEntries pages) key
  lastWrite_storeVisitor : ∀ pages visitor, Usable pages →
    (∀ key, visitor.contains key = true ↔ key ∈ visitor.entries.map Prod.fst) →
    (visitor.entries.map Prod.fst).Nodup →
    (∀ entry ∈ visitor.entries, entry.1 < 2 ^ 16 - 1 ∧ entry.2 < 2 ^ 16) →
    ∀ entry ∈ visitor.entries,
      lastWrite (flash.visitEntries (flash.storeVisitor pages visitor)) entry.1 = some entry.2
  lastWrite_formatFlash : ∀ pages key,
    lastWrite (flash.visitEntries (flash.formatFlash pages)) key = none

/-- The configuration that `LoadConfig` fills. A value that an enumeration does not have is `none`.
-/
structure LoadedModel where
  accessoryRailProtocol : Option RailProtocol
  lnSlotServerState : Option SlotServerState
  generateI2CTurnoutResponse : Bool

/-- `loadVisitor`. Other keys are ignored. -/
def loadVisitor (railProtocols : RailProtocolValues) (model : LoadedModel) (entry : Nat × Nat) :
    LoadedModel :=
  if entry.1 = DataAddresses.accessoryRailProtocol then
    { model with accessoryRailProtocol := railProtocols.ofValue entry.2 }
  else if entry.1 = DataAddresses.lnSlotServerState then
    { model with lnSlotServerState := SlotServerState.ofValue entry.2 }
  else if entry.1 = DataAddresses.generateI2CTurnoutResponse then
    { model with generateI2CTurnoutResponse := decide (entry.2 ≠ 0) }
  else model

/-- The configuration that the software starts with. -/
def LoadedModel.default : LoadedModel where
  accessoryRailProtocol := some ({} : DataModel).accessoryRailProtocol
  lnSlotServerState := some ({} : DataModel).lnSlotServerState
  generateI2CTurnoutResponse := ({} : DataModel).generateI2CTurnoutResponse

/-- The configuration, when each value was one of its enumeration. -/
def LoadedModel.toDataModel (model : LoadedModel) : Option DataModel := do
  let accessoryRailProtocol ← model.accessoryRailProtocol
  let lnSlotServerState ← model.lnSlotServerState
  return {
    accessoryRailProtocol := accessoryRailProtocol
    lnSlotServerState := lnSlotServerState
    generateI2CTurnoutResponse := model.generateI2CTurnoutResponse }

/-- `LoadConfig`. -/
def loadConfig (railProtocols : RailProtocolValues) (entries : List (Nat × Nat)) :
    Option DataModel :=
  (entries.foldl (loadVisitor railProtocols) .default).toDataModel

/-! ### Board -/

/-- Start-up reads a value that is none, or the console faults. -/
inductive DeviceFault
  | loadConfig
  | console (fault : ConsoleTaskFault)
deriving DecidableEq, Repr

/-- What the configuration depends on: the executed commands and the resets. -/
inductive ConfigEvent
  | command (argv : List CString)
  | reset
deriving DecidableEq, Repr

/-- The board: the pages of the flash, the console, and the record of its commands and resets. -/
structure Device (flash : FlashFairy) where
  pages : flash.Pages
  task : ConsoleTask
  log : List ConfigEvent

/-- A key of the console, or a reset of the board. -/
inductive DeviceEvent
  | key (receivedCharacter : Byte)
  | reset
deriving DecidableEq, Repr

namespace Device

variable {flash : FlashFairy}

/-- `SaveConfig` and `run_app_format_flash`. The other calls do not write to the flash. -/
def writeFlash (railProtocols : RailProtocolValues) (pages : flash.Pages) :
    ConsoleRequest → flash.Pages
  | .saveConfig dataModel =>
      flash.storeVisitor pages (dataModelStoreVisitor railProtocols dataModel)
  | .formatFlash => flash.formatFlash pages
  | _ => pages

/-- `setup`, `beginEE` and `LoadConfig` of it. -/
def setup (railProtocols : RailProtocolValues) (pages : flash.Pages) (log : List ConfigEvent) :
    Except DeviceFault (Device flash) :=
  let pages := flash.initializePages pages
  match loadConfig railProtocols (flash.visitEntries pages) with
  | none => .error .loadConfig
  | some dataModel => .ok { pages, task := .begin { dataModel := dataModel }, log }

/-- One step of the board. The calls of a key write the flash. -/
def step (railProtocols : RailProtocolValues) (device : Device flash) :
    DeviceEvent → Except DeviceFault (Device flash)
  | .key receivedCharacter => do
      let task ← (device.task.insertChar receivedCharacter).mapError .console
      let newRequests := task.console.requests.drop device.task.console.requests.length
      let newCommands :=
        (executions task.microrl.calls).drop (executions device.task.microrl.calls).length
      return {
        pages := newRequests.foldl (writeFlash railProtocols) device.pages
        task := task
        log := device.log ++ newCommands.map .command }
  | .reset => setup railProtocols device.pages (device.log ++ [.reset])

end Device

end C6021Light
