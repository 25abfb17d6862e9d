import C6021Light.Lib.FaultRun
import C6021Light.RR32Can.ConfigData
import C6021Light.RoutingTask.CanEngineDB

/-!
# `C6021Light.RoutingTask.EngineDownload`: the download of the engine database

The part of `CanEngineDB` (`CanEngineDB.h`, `CanEngineDB.cpp`) that asks the master for its
engines. The master answers a request with a configuration data stream, and `streamComplete`
stores what the stream brought and sends the next request. With the protocol "Loknamen" a
download asks for two names at a time, with "Lokliste" for the whole list at once. Then each
engine of which only the name is known is asked for on its own.

`EngineDownload` adds the members of the download to the entries of `CanEngineDB`. The names
of the entries are a vector next to the entries. `configRequest` is the current request of
the station: the consumer whose stream is expected. The status indicator is the object that
the member points to, after `init`. `requests` is a ghost field. It records what was sent.

A write outside the database is undefined behaviour in the source, and a `DbFault` here.
-/

set_option autoImplicit false

namespace C6021Light

/-- `EngineDownloadProtocol`. -/
inductive EngineDownloadProtocol
  | unknown
  | loknamen
  | lokliste
deriving DecidableEq, Repr

/-- `CanEngineDB::DBState`. -/
inductive DBState
  | empty
  | downloading
  | complete
deriving DecidableEq, Repr

/-- `StatusIndicator`, its two flags. -/
structure StatusIndicator where
  error : Bool := false
  canDbDownload : Bool := false
deriving DecidableEq, Repr

namespace StatusIndicator

/-- `setCanDbDownload`. -/
def setCanDbDownload (si : StatusIndicator) : StatusIndicator := { si with canDbDownload := true }

/-- `clearCanDbDownload`. -/
def clearCanDbDownload (si : StatusIndicator) : StatusIndicator :=
  { si with canDbDownload := false }

end StatusIndicator

/-- The consumers that `CanEngineDB` starts a stream with. The consumer of an engine knows
the entry that it was set to. -/
inductive ConfigDataConsumer
  | listConsumer
  | locoConsumer (engine : Fin kMaxNumDbEntries)
  | loklisteConsumer
deriving DecidableEq, Repr

/-- `RequestEngineList`, `RequestEngine` and `RequestLokliste`. -/
inductive EngineRequest
  | engineList (offset : Byte)
  | engine (engine : Fin kMaxNumDbEntries)
  | lokliste
deriving DecidableEq, Repr

/-- A write outside the database. -/
inductive DbFault
  | entryOutOfBounds (idx : Nat)
deriving DecidableEq, Repr

/-- The engine database with the state of its download, and a record of the requests it has sent. -/
structure EngineDownload extends CanEngineDB where
  names : Vector EngineName kMaxNumDbEntries := .replicate _ []
  listConsumer : LocoListConsumer := {}
  dbState : DBState := .empty
  downloadProtocol : EngineDownloadProtocol := .unknown
  statusIndicator : StatusIndicator := {}
  configRequest : Option ConfigDataConsumer := none
  requests : List EngineRequest := []
deriving DecidableEq

/-- A function of the database, which may reach outside the table. -/
abbrev DownloadRun := StateT EngineDownload (Except DbFault)

namespace EngineDownload

/-! ### Entries -/

/-- The name of an entry. -/
def name (engineDb : EngineDownload) (k : Fin kMaxNumDbEntries) : EngineName :=
  engineDb.names.get k

/-- `loco.isFree()` of an entry. -/
def isFree (engineDb : EngineDownload) (k : Fin kMaxNumDbEntries) : Bool :=
  (engineDb.entry k).loco.isFree

/-- `loco.isNameOnlyKnown()` of an entry. -/
def isNameOnlyKnown (engineDb : EngineDownload) (k : Fin kMaxNumDbEntries) : Bool :=
  (engineDb.entry k).loco.isNameOnlyKnown

/-- An entry with a new content. -/
def setEntry (engineDb : EngineDownload) (k : Fin kMaxNumDbEntries) (name : EngineName)
    (entry : DbEntry) : EngineDownload :=
  { engineDb with
      toCanEngineDB := engineDb.toCanEngineDB.setEntry k entry
      names := engineDb.names.set k name k.isLt }

/-- `reset()` of an entry and `setName`. The library keeps `kEngineNameLength` characters. -/
def storeName (engineDb : EngineDownload) (k : Fin kMaxNumDbEntries) (name : EngineName) :
    EngineDownload :=
  engineDb.setEntry k (name.take kEngineNameLength) { loco := { availability := .nameOnly } }

/-- `clear`. -/
def clear (engineDb : EngineDownload) : EngineDownload :=
  { engineDb with toCanEngineDB := {}, names := .replicate _ [] }

/-- `isEmpty`. -/
def isEmpty (engineDb : EngineDownload) : Bool := engineDb.dbState = .empty

/-- `isDownloading`. -/
def isDownloading (engineDb : EngineDownload) : Bool := engineDb.dbState = .downloading

/-- `isComplete`. -/
def isComplete (engineDb : EngineDownload) : Bool := engineDb.dbState = .complete

/-! ### Requests -/

/-- One of the `Request*` functions of the station. -/
def sendRequest (engineDb : EngineDownload) (consumer : ConfigDataConsumer)
    (request : EngineRequest) : EngineDownload :=
  { engineDb with configRequest := some consumer, requests := engineDb.requests ++ [request] }

/-- `FinishCurrentConfigRequest` of the station, and `AbortCurrentConfigRequest`. -/
def endRequest (engineDb : EngineDownload) : EngineDownload :=
  { engineDb with configRequest := none }

/-- `fetchEnginesFromOffset`. -/
def fetchEnginesFromOffset (engineDb : EngineDownload) (offset : Byte) : EngineDownload :=
  let engineDb := { engineDb with
    dbState := .downloading
    listConsumer := engineDb.listConsumer.reset.setStreamOffset offset }
  engineDb.sendRequest .listConsumer (.engineList offset)

/-- `fetchLokliste`. -/
def fetchLokliste (engineDb : EngineDownload) : EngineDownload :=
  { engineDb with dbState := .downloading }.sendRequest .loklisteConsumer .lokliste

/-- `fetchEngineDB`. -/
def fetchEngineDB (engineDb : EngineDownload) : EngineDownload :=
  let engineDb := engineDb.clear
  match engineDb.downloadProtocol with
  -- Nothing is requested, and `dbState_` stays as it was.
  | .unknown => engineDb
  | .loknamen => engineDb.fetchEnginesFromOffset 0
  | .lokliste => engineDb.fetchLokliste

/-- `fetchEngine`. -/
def fetchEngine (engineDb : EngineDownload) (loco : Fin kMaxNumDbEntries) : EngineDownload :=
  engineDb.sendRequest (.locoConsumer loco) (.engine loco)

/-- `findFirstIncompleteEngine`. -/
def findFirstIncompleteEngine (engineDb : EngineDownload) : Option (Fin kMaxNumDbEntries) :=
  (List.finRange kMaxNumDbEntries).find? engineDb.isNameOnlyKnown

/-- `fetchNextEngine`. -/
def fetchNextEngine (engineDb : EngineDownload) : EngineDownload :=
  match engineDb.findFirstIncompleteEngine with
  | some loco => { engineDb with dbState := .downloading }.fetchEngine loco
  | none =>
      { engineDb with
          dbState := .complete
          statusIndicator := engineDb.statusIndicator.clearCanDbDownload }

/-- `setDownloadProtocol`. -/
def setDownloadProtocol (engineDb : EngineDownload) (downloadProtocol : EngineDownloadProtocol) :
    EngineDownload :=
  { engineDb with downloadProtocol := downloadProtocol }

/-- `HandlePingResponse`. -/
def handlePingResponse (engineDb : EngineDownload) (deviceInformation : BitVec 16)
    (major minor : Byte) : EngineDownload :=
  -- MS2 devices report device information 0x0032.
  if deviceInformation ≠ 0x0032 then engineDb
  else if major < 3 ∨ (major = 3 ∧ minor < 55) then engineDb.setDownloadProtocol .loknamen
  else engineDb.setDownloadProtocol .lokliste

/-! ### Streams -/

/-- The loop of `hasEngine`, from an entry on. -/
def hasEngineFrom (engineDb : EngineDownload) (engineName : EngineName) :
    List (Fin kMaxNumDbEntries) → Bool
  | [] => false
  | k :: rest =>
      -- The loop ends at the first free entry.
      if engineDb.isFree k then false
      else if strncmpEqual kEngineNameLength engineName (engineDb.name k) then true
      else engineDb.hasEngineFrom engineName rest

/-- `hasEngine`. -/
def hasEngine (engineDb : EngineDownload) (engineName : EngineName) : Bool :=
  engineDb.hasEngineFrom engineName (List.finRange kMaxNumDbEntries)

/-- The loop of `streamComplete` over the short infos of a chunk. -/
def storeShortInfos : List LocomotiveShortInfo → Byte → DownloadRun Unit
  | [], _ => pure ()
  | engineShortInfo :: rest, engineOffset => do
      let engineDb ← get
      if !engineShortInfo.isFree && !engineDb.hasEngine engineShortInfo.name then
        -- The source writes at the offset without a test of the bounds.
        if h : engineOffset.toNat < kMaxNumDbEntries then
          set (engineDb.storeName ⟨engineOffset.toNat, h⟩ engineShortInfo.name)
          storeShortInfos rest (engineOffset + 1)
        else throw (.entryOutOfBounds engineOffset.toNat)
      else storeShortInfos rest engineOffset

/-- `streamComplete`. -/
def streamComplete (consumer : ConfigDataConsumer) : DownloadRun Unit := do
  modify (·.endRequest)
  match consumer with
  | .listConsumer =>
      let engineDb ← get
      let engineOffset := engineDb.listConsumer.streamOffset
      let nextRequestedStreamOffset := engineOffset.toNat + kEngineBrowserEntries
      storeShortInfos engineDb.listConsumer.engineInfos.toList engineOffset
      if nextRequestedStreamOffset ≥ engineDb.listConsumer.numEnginesKnownByMaster then
        modify (·.fetchNextEngine)
      else
        -- The parameter of the source is an 8-bit number.
        modify (·.fetchEnginesFromOffset (.ofNat 8 nextRequestedStreamOffset))
  | .locoConsumer _ | .loklisteConsumer => modify (·.fetchNextEngine)

/-! ### What the library does with a stream

A stream without a current request is not consumed, and neither is one for another consumer.
-/

/-- A complete stream for the list consumer. -/
def receiveList (numEngines : Nat) (engineInfos : Vector LocomotiveShortInfo 2) :
    DownloadRun Unit := do
  let engineDb ← get
  if engineDb.configRequest = some .listConsumer then
    set { engineDb with
      listConsumer := { engineDb.listConsumer with
        engineInfos := engineInfos
        numEnginesKnownByMaster := numEngines } }
    streamComplete .listConsumer

/-- The consumer of the Lokliste stores an entry while its stream is received, through
`getLokInfoShort`. -/
def receiveLokInfoShort (index : Nat) (info : LocomotiveShortInfo) : DownloadRun Unit := do
  let engineDb ← get
  if engineDb.configRequest = some .loklisteConsumer then
    -- `getLokInfoShort` has a test of the bounds.
    if h : index < kMaxNumDbEntries then
      let entry := engineDb.entry ⟨index, h⟩
      set (engineDb.setEntry ⟨index, h⟩ info.name
        { entry with loco := { entry.loco with availability := info.availability } })

/-- The consumer of an engine writes to its entry while its stream is received. -/
def receiveLoco (name : EngineName) (loco : Locomotive) : DownloadRun Unit := do
  let engineDb ← get
  match engineDb.configRequest with
  | some (.locoConsumer k) =>
      set (engineDb.setEntry k name { engineDb.entry k with loco := loco })
  | _ => pure ()

/-- The end of a stream for the consumer of an engine or of the Lokliste. -/
def receiveEnd : DownloadRun Unit := do
  let engineDb ← get
  match engineDb.configRequest with
  | some (.locoConsumer k) => streamComplete (.locoConsumer k)
  | some .loklisteConsumer => streamComplete .loklisteConsumer
  | _ => pure ()

end EngineDownload

/-! ### Events -/

open EngineDownload

/-- What reaches the database from outside the download: the streams, the answers to a ping,
the console command that selects the protocol, the engine commands of the bus, and the flags
that the loop of `processCAN` clears. -/
inductive DatabaseEvent
  | setDownloadProtocol (downloadProtocol : EngineDownloadProtocol)
  | handlePingResponse (deviceInformation : BitVec 16) (major minor : Byte)
  | receiveList (numEngines : Nat) (engineInfos : Vector LocomotiveShortInfo 2)
  | receiveLokInfoShort (index : Nat) (info : LocomotiveShortInfo)
  | receiveLoco (name : EngineName) (loco : Locomotive)
  | receiveEnd
  | engineCall (call : EngineCall)
  | setDiff (entryIdx : Fin kMaxNumDbEntries) (diff : LocoDiff)

/-- An engine command or a cleared flag changes the entries only. -/
def changeEntries (effect : CanEngineDB → CanEngineDB) : DownloadRun Unit :=
  modify fun engineDb => { engineDb with toCanEngineDB := effect engineDb.toCanEngineDB }

/-- The entry with other flags. -/
def CanEngineDB.setDiff (engineDb : CanEngineDB) (entryIdx : Fin kMaxNumDbEntries)
    (diff : LocoDiff) : CanEngineDB :=
  engineDb.setEntry entryIdx { engineDb.entry entryIdx with diff := diff }

/-- What an event does to the database. -/
def DatabaseEvent.exec : DatabaseEvent → DownloadRun Unit
  | .setDownloadProtocol downloadProtocol => modify (·.setDownloadProtocol downloadProtocol)
  | .handlePingResponse deviceInformation major minor =>
      modify (·.handlePingResponse deviceInformation major minor)
  | .receiveList numEngines engineInfos => EngineDownload.receiveList numEngines engineInfos
  | .receiveLokInfoShort index info => EngineDownload.receiveLokInfoShort index info
  | .receiveLoco name loco => EngineDownload.receiveLoco name loco
  | .receiveEnd => EngineDownload.receiveEnd
  | .engineCall call => changeEntries call.run
  | .setDiff entryIdx diff => changeEntries (·.setDiff entryIdx diff)

/-- One step of the database: an event from outside, or a call of the download state machine
or of the console. -/
inductive DownloadEvent
  | database (event : DatabaseEvent)
  | fetchEngineDB
  | abortCurrentConfigRequest
  | setCanDbDownload
  | clearCanDbDownload

/-- The status indicator of the database, after a call of one of its setters. -/
def changeStatusIndicator (effect : StatusIndicator → StatusIndicator) : DownloadRun Unit :=
  modify fun engineDb => { engineDb with statusIndicator := effect engineDb.statusIndicator }

/-- What an event of the download does, the calls of the state machine included. -/
def DownloadEvent.exec : DownloadEvent → DownloadRun Unit
  | .database event => event.exec
  | .fetchEngineDB => modify (·.fetchEngineDB)
  | .abortCurrentConfigRequest => modify (·.endRequest)
  | .setCanDbDownload => changeStatusIndicator (·.setCanDbDownload)
  | .clearCanDbDownload => changeStatusIndicator (·.clearCanDbDownload)

end C6021Light
