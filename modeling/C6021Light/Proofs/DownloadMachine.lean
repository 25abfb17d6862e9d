import C6021Light.Proofs.EngineDetails
import C6021Light.Proofs.StartUpRequests

/-!
# `C6021Light.Proofs.DownloadMachine`: the download machine and the engine database

The machine drives the database through its calls only (`MachineEvent.calls`), so what holds
of every state of the database holds in the routing task.

`downloading_agrees`: the machine takes any first packet of a configuration data stream for
the answer to its own request, and omits the request. So it can be in `DOWNLOADING` while the
database has sent nothing. That is the only such case.

`indicatorTruth_iff`: the console sets the download indicator before it calls
`fetchEngineDB`, which sends nothing without a protocol. Every other step sets the indicator
together with the machine, or clears it.
-/

set_option autoImplicit false

namespace C6021Light

open FaultRun

/-! ### Steps of the database -/

namespace EngineDownload

variable {s s' t : EngineDownload}

/-- A step of the download phase: it goes on with the same indicator, or it is complete and the
indicator is cleared. -/
structure Continues (s s' : EngineDownload) : Prop where
  notEmpty : s'.dbState = .empty → s.dbState = .empty
  indicator : s'.statusIndicator.canDbDownload = true →
    s.statusIndicator.canDbDownload = true ∧
      (s.dbState = .downloading → s'.dbState = .downloading)

/-- A step that leaves the state and the indicator alone continues the download. -/
theorem Continues.of_eq (hstate : s'.dbState = s.dbState)
    (hindicator : s'.statusIndicator = s.statusIndicator) : Continues s s' :=
  ⟨fun h => hstate ▸ h, fun h => ⟨hindicator ▸ h, fun hdownloading => hstate.trans hdownloading⟩⟩

/-- A step into DOWNLOADING continues the download when the indicator stays. -/
theorem Continues.of_downloading (hstate : s'.dbState = .downloading)
    (hindicator : s'.statusIndicator = s.statusIndicator) : Continues s s' :=
  ⟨fun h => DBState.noConfusion (hstate.symm.trans h), fun h => ⟨hindicator ▸ h, fun _ => hstate⟩⟩

/-- Asking for the next engine continues the download. -/
theorem continues_fetchNextEngine (hindicator : t.statusIndicator = s.statusIndicator) :
    Continues s t.fetchNextEngine := by
  rw [fetchNextEngine]
  split
  · exact .of_downloading rfl hindicator
  · exact ⟨fun h => DBState.noConfusion h, fun h => absurd h Bool.false_ne_true⟩

/-- So does its start. -/
theorem continues_fetchEngineDB : Continues s s.fetchEngineDB := by
  rw [EngineDownload.fetchEngineDB]
  split
  · exact .of_eq rfl rfl
  · exact .of_downloading rfl rfl
  · exact .of_downloading rfl rfl

/-- With an unknown protocol the start only clears the database. -/
theorem fetchEngineDB_of_unknown (h : s.downloadProtocol = .unknown) :
    s.fetchEngineDB = s.clear := by
  rw [EngineDownload.fetchEngineDB]
  split
  · rfl
  · rename_i hother
    cases h.symm.trans hother
  · rename_i hother
    cases h.symm.trans hother

/-- With a known protocol the database downloads after the start. -/
theorem dbState_fetchEngineDB (h : s.downloadProtocol ≠ .unknown) :
    s.fetchEngineDB.dbState = .downloading := by
  rw [EngineDownload.fetchEngineDB]
  split
  · rename_i hunknown
    exact absurd hunknown h
  · rfl
  · rfl

/-- A chunk of the list continues the download. -/
theorem continues_receiveList {numEngines : Nat} {engineInfos : Vector LocomotiveShortInfo 2}
    (h : (EngineDownload.receiveList numEngines engineInfos).run s = .ok ((), s')) :
    Continues s s' := by
  by_cases hrequest : s.configRequest = some .listConsumer
  · obtain ⟨t, hstore, rfl⟩ :=
      (ListChunk.receive_ok_iff hrequest ⟨numEngines, engineInfos⟩).mp h
    obtain ⟨hsame, _⟩ := storeShortInfos_frame _ _ _ _ hstore
    have hindicator : t.statusIndicator = s.statusIndicator := by rw [hsame]; rfl
    rw [requestNext]
    split
    · exact continues_fetchNextEngine hindicator
    · exact .of_downloading rfl hindicator
  · rw [receiveList_run_of_other hrequest] at h
    cases h
    exact .of_eq rfl rfl

/-- The end of a data stream continues the download. -/
theorem continues_receiveEnd (h : EngineDownload.receiveEnd.run s = .ok ((), s')) :
    Continues s s' := by
  rw [EngineDownload.receiveEnd, run_get_bind] at h
  split at h
  · cases h
    exact continues_fetchNextEngine rfl
  · cases h
    exact continues_fetchNextEngine rfl
  · cases h
    exact .of_eq rfl rfl

/-- Every event of the database continues the download. -/
theorem continues_database (event : DatabaseEvent) (h : event.exec.run s = .ok ((), s')) :
    Continues s s' := by
  cases event with
  | setDownloadProtocol downloadProtocol => cases h; exact .of_eq rfl rfl
  | handlePingResponse deviceInformation major minor =>
      cases h
      show Continues s (s.handlePingResponse deviceInformation major minor)
      rw [EngineDownload.handlePingResponse]
      split
      · exact .of_eq rfl rfl
      · split <;> exact .of_eq rfl rfl
  | receiveList numEngines engineInfos => exact continues_receiveList h
  | receiveLokInfoShort index info =>
      change (EngineDownload.receiveLokInfoShort index info).run s = _ at h
      rw [EngineDownload.receiveLokInfoShort, run_get_bind] at h
      split at h
      · split at h <;> cases h <;> exact .of_eq rfl rfl
      · cases h
        exact .of_eq rfl rfl
  | receiveLoco name loco =>
      change (EngineDownload.receiveLoco name loco).run s = _ at h
      rw [EngineDownload.receiveLoco, run_get_bind] at h
      split at h <;> cases h <;> exact .of_eq rfl rfl
  | receiveEnd => exact continues_receiveEnd h
  | engineCall call => cases h; exact .of_eq rfl rfl
  | setDiff entryIdx diff => cases h; exact .of_eq rfl rfl

end EngineDownload

/-! ### The machine as a user of the database -/

/-- What a sequence of calls makes of the database. -/
abbrev DbCalls (engineDb engineDb' : EngineDownload) : Prop :=
  Reachable DownloadEvent.exec (fun _ => True) engineDb engineDb'

/-- One event of the database is a list of calls with one member. -/
theorem DbCalls.one {engineDb engineDb' : EngineDownload} (event : DownloadEvent)
    (h : event.exec.run engineDb = .ok ((), engineDb')) : DbCalls engineDb engineDb' :=
  Reachable.init.step trivial h

namespace CanEngineDBStateMachine

variable {machine : CanEngineDBStateMachine}

/-- `startRequesting` acts on the database through its own functions only. -/
theorem calls_startRequesting : DbCalls machine.engineDb machine.startRequesting.engineDb := by
  rw [startRequesting]
  split <;> exact .one .setCanDbDownload rfl

/-- `stopRequesting` does not touch the database. -/
theorem calls_stopRequesting : DbCalls machine.engineDb machine.stopRequesting.engineDb :=
  .one .clearCanDbDownload rfl

/-- An expiry reaches the database through its calls only. -/
theorem calls_handleTimer : DbCalls machine.engineDb machine.handleTimer.engineDb := by
  rw [handleTimer]
  split
  · split
    · exact calls_startRequesting
    · split
      · exact .init
      · exact calls_stopRequesting
  · split
    · exact (DbCalls.one .abortCurrentConfigRequest rfl).step (e := .fetchEngineDB) trivial rfl
    · exact calls_stopRequesting
  · exact .init
  · exact .init

/-- The loop handles a latched expiry or does nothing. -/
theorem calls_loop : DbCalls machine.engineDb machine.loop.engineDb := by
  rw [loop]
  split
  · exact calls_handleTimer
  · exact .init

/-- A packet does not touch the database. -/
theorem engineDb_handlePacket (frame : PacketInfo) :
    (machine.handlePacket frame).engineDb = machine.engineDb := by
  rw [handlePacket]
  split <;> rfl

/-- The end of a download is handled through the database's own functions. -/
theorem calls_notifyEngineDBComplete :
    DbCalls machine.engineDb machine.notifyEngineDBComplete.engineDb := by
  rw [notifyEngineDBComplete]
  split
  · exact calls_stopRequesting
  · exact .init

end CanEngineDBStateMachine

namespace StateMachines

variable {s s' : StateMachines}

/-- A step of the routing task changes the database by calls. -/
theorem calls_of_step (event : MachineEvent) (h : event.exec.run s = .ok ((), s')) :
    DbCalls s.canEngineDBStateM.engineDb s'.canEngineDBStateM.engineDb := by
  cases event with
  | startRequestingStopGo => cases h; exact .init
  | startRequestingEngineDB => cases h; exact CanEngineDBStateMachine.calls_startRequesting
  | stopGoTimerCallback => cases h; exact .init
  | canEngineDBTimerCallback => cases h; exact .init
  | stopGoLoop => cases h; exact .init
  | notifyEngineDBComplete =>
      cases h
      exact CanEngineDBStateMachine.calls_notifyEngineDBComplete
  | canEngineDBLoop => cases h; exact CanEngineDBStateMachine.calls_loop
  | handlePacket frame =>
      cases h
      show DbCalls _ (s.canEngineDBStateM.handlePacket frame).engineDb
      rw [CanEngineDBStateMachine.engineDb_handlePacket]
      exact .init
  | database event =>
      obtain ⟨engineDb, hrun, rfl⟩ := onEngineDb_run_eq_ok h
      exact .one (.database event) hrun
  | downloadEngines =>
      obtain ⟨engineDb, hrun, rfl⟩ := onEngineDb_run_eq_ok h
      cases hrun
      exact (DbCalls.one .setCanDbDownload rfl).step (e := .fetchEngineDB) trivial rfl

/-- The database of the routing task is in a state that calls of the database reach. -/
theorem calls_of_reachable {tries : Nat}
    (h : Reachable MachineEvent.exec (fun _ => True) (start tries) s) :
    DbCalls (start tries).canEngineDBStateM.engineDb s.canEngineDBStateM.engineDb :=
  @Reachable.simulate _ _ _ MachineEvent.exec _ _ _ DownloadEvent.exec
    (fun machines => machines.canEngineDBStateM.engineDb) _ _ _ _
    (fun _ event _ _ hstep => calls_of_step event hstep) h

/-- In every run the database of the machine keeps the invariant of the download. -/
theorem downloadInv_of_run {tries : Nat} {es : List MachineEvent}
    (h : (forM es MachineEvent.exec).run (start tries) = .ok ((), s)) :
    EngineDownload.DownloadInv s.canEngineDBStateM.engineDb := by
  have hreachable : Reachable MachineEvent.exec (fun _ => True) (start tries) s :=
    .of_run _ es _ s .init (fun _ _ => trivial) h
  exact EngineDownload.downloadInv_of_reachable (calls_of_reachable hreachable)

end StateMachines

/-! ### Machine and database -/

/-- A database that has left `EMPTY` does not come back to it. -/
theorem DbCalls.notEmpty {engineDb engineDb' : EngineDownload} (h : DbCalls engineDb engineDb') :
    engineDb'.dbState = .empty → engineDb.dbState = .empty := by
  refine h.invariant _
    (I := fun engineDb' => engineDb'.dbState = .empty → engineDb.dbState = .empty) id
    fun s event s' hs _ hstep hempty => hs ?_
  cases event with
  | database event => exact (EngineDownload.continues_database event hstep).notEmpty hempty
  | fetchEngineDB =>
      cases hstep
      exact EngineDownload.continues_fetchEngineDB.notEmpty hempty
  | abortCurrentConfigRequest => cases hstep; exact hempty
  | setCanDbDownload => cases hstep; exact hempty
  | clearCanDbDownload => cases hstep; exact hempty

namespace CanEngineDBStateMachine

variable {machine : CanEngineDBStateMachine}

/-- After a restart the machine is not DOWNLOADING. -/
theorem not_downloading_startRequesting : machine.startRequesting.requestState ≠ .downloading := by
  rw [startRequesting]
  split <;> exact fun h => RequestState.noConfusion h

/-- Nor after a stop. -/
theorem not_downloading_stopRequesting : machine.stopRequesting.requestState ≠ .downloading :=
  fun h => RequestState.noConfusion h

/-- The loop does not enter DOWNLOADING. -/
theorem downloading_of_loop (h : machine.loop.requestState = .downloading) :
    machine.requestState = .downloading := by
  rw [loop] at h
  split at h
  · change machine.handleTimer.requestState = .downloading at h
    rw [handleTimer] at h
    split at h
    · split at h
      · exact absurd h not_downloading_startRequesting
      · split at h
        · exact h
        · exact absurd h not_downloading_stopRequesting
    · split at h
      · exact h
      · exact absurd h not_downloading_stopRequesting
    · exact h
    · exact h
  · exact h

/-- A packet enters DOWNLOADING only when it starts a data stream outside of IDLE. -/
theorem downloading_of_handlePacket {frame : PacketInfo}
    (h : (machine.handlePacket frame).requestState = .downloading) :
    machine.requestState = .downloading ∨
      isFirstPacketInConfigDataStream frame = true ∧ machine.requestState ≠ .idle := by
  rw [handlePacket] at h
  split at h
  · rename_i hstream
    rw [Bool.and_eq_true, isIdle, Bool.not_eq_true', decide_eq_false_iff_not] at hstream
    exact .inr ⟨hstream.2, hstream.1⟩
  · exact .inl h

/-- The end of a download does not enter DOWNLOADING. -/
theorem downloading_of_notify (h : machine.notifyEngineDBComplete.requestState = .downloading) :
    machine.requestState = .downloading := by
  rw [notifyEngineDBComplete] at h
  split at h
  · exact absurd h not_downloading_stopRequesting
  · exact h

end CanEngineDBStateMachine

namespace StateMachines

variable {s s' : StateMachines}

/-- The machine comes to `DOWNLOADING` through the first packet of a stream only. -/
theorem downloading_of_step (event : MachineEvent) (h : event.exec.run s = .ok ((), s'))
    (hdownloading : s'.canEngineDBStateM.requestState = .downloading) :
    s.canEngineDBStateM.requestState = .downloading ∨
      ∃ frame, event = .handlePacket frame ∧
        CanEngineDBStateMachine.isFirstPacketInConfigDataStream frame = true ∧
        s.canEngineDBStateM.requestState ≠ .idle := by
  -- One case per event. Only a stream packet leads to `DOWNLOADING`.
  cases event with
  | startRequestingEngineDB =>
      cases h
      exact absurd hdownloading CanEngineDBStateMachine.not_downloading_startRequesting
  | notifyEngineDBComplete =>
      cases h
      exact .inl (CanEngineDBStateMachine.downloading_of_notify hdownloading)
  | canEngineDBLoop =>
      cases h
      exact .inl (CanEngineDBStateMachine.downloading_of_loop hdownloading)
  | handlePacket frame =>
      cases h
      exact (CanEngineDBStateMachine.downloading_of_handlePacket hdownloading).imp_right
        fun hstream => ⟨frame, rfl, hstream⟩
  | database event =>
      obtain ⟨engineDb, _, rfl⟩ := onEngineDb_run_eq_ok h
      exact .inl hdownloading
  | downloadEngines =>
      obtain ⟨engineDb, _, rfl⟩ := onEngineDb_run_eq_ok h
      exact .inl hdownloading
  | startRequestingStopGo => cases h; exact .inl hdownloading
  | stopGoTimerCallback => cases h; exact .inl hdownloading
  | canEngineDBTimerCallback => cases h; exact .inl hdownloading
  | stopGoLoop => cases h; exact .inl hdownloading

end StateMachines

open StateMachines in
/-- A machine in `DOWNLOADING` has a database that has sent requests and downloads, or one
that is complete. The one exception: the database has not sent any request, and the first
packet of a stream reached the machine while it was not idle. -/
theorem downloading_agrees {tries : Nat} {es : List MachineEvent} {s : StateMachines}
    (hrun : (forM es MachineEvent.exec).run (.start tries) = .ok ((), s))
    (hdownloading : s.canEngineDBStateM.requestState = .downloading) :
    (s.canEngineDBStateM.engineDb.dbState = .downloading ∧
      s.canEngineDBStateM.engineDb.requests ≠ []) ∨
    s.canEngineDBStateM.engineDb.dbState = .complete ∨
    (s.canEngineDBStateM.engineDb.requests = [] ∧
      ∃ before frame after t, es = before ++ .handlePacket frame :: after ∧
        CanEngineDBStateMachine.isFirstPacketInConfigDataStream frame = true ∧
        (forM before MachineEvent.exec).run (.start tries) = .ok ((), t) ∧
        t.canEngineDBStateM.requestState ≠ .idle ∧
        t.canEngineDBStateM.engineDb.requests = []) := by
  have hinv := downloadInv_of_run hrun
  cases hstate : s.canEngineDBStateM.engineDb.dbState with
  | downloading => exact .inl ⟨rfl, hinv.requests_ne_nil hstate⟩
  | complete => exact .inr (.inl rfl)
  | empty =>
      -- The last step to this combination is the packet, since `EMPTY` is never entered.
      obtain ⟨before, event, after, t, t', hsplit, hbefore, hstep, ht, ht'⟩ :=
        exists_step_of_run MachineEvent.exec
          (P := fun s => s.canEngineDBStateM.requestState = .downloading ∧
            s.canEngineDBStateM.engineDb.dbState = .empty) es _ s
          (fun h => RequestState.noConfusion h.1) hrun ⟨hdownloading, hstate⟩
      have hempty : t.canEngineDBStateM.engineDb.dbState = .empty :=
        (calls_of_step event hstep).notEmpty ht'.2
      have hinvt := downloadInv_of_run hbefore
      rcases downloading_of_step event hstep ht'.1 with h | ⟨frame, rfl, hframe, hidle⟩
      · exact absurd ⟨h, hempty⟩ ht
      · exact .inr (.inr ⟨hinv.requested.mp hstate, before, frame, after, t, hsplit, hframe,
          hbefore, hidle, hinvt.requested.mp hempty⟩)

/-- The start of another station's stream, in front of the first timer handling. -/
def streamBeforeRequest : List MachineEvent :=
  [.database (.setDownloadProtocol .loknamen), .startRequestingEngineDB,
    .handlePacket { command := .configDataStream, subcommand := .other, dlc := 6 }]

/-- The stream of another station is an instance: nothing was requested. -/
theorem downloading_agrees_stream :
    ∃ s, (forM streamBeforeRequest MachineEvent.exec).run (.start 0) = .ok ((), s) ∧
      ((s.canEngineDBStateM.engineDb.dbState = .downloading ∧
          s.canEngineDBStateM.engineDb.requests ≠ []) ∨
        s.canEngineDBStateM.engineDb.dbState = .complete ∨
        s.canEngineDBStateM.engineDb.requests = []) :=
  ⟨_, rfl, (@downloading_agrees 0 streamBeforeRequest _ rfl rfl).imp_right
    (Or.imp_right And.left)⟩

/-- The stream of another station leaves the machine DOWNLOADING over an empty database. -/
theorem downloading_without_request :
    ∃ s, (forM streamBeforeRequest MachineEvent.exec).run (.start 0) = .ok ((), s) ∧
      s.canEngineDBStateM.requestState = .downloading ∧
      s.canEngineDBStateM.engineDb.dbState = .empty ∧
      s.canEngineDBStateM.engineDb.requests = [] :=
  ⟨_, rfl, rfl, rfl, rfl⟩

/-! ### The download indicator -/

/-- A download indicator that is set belongs to a machine at work or to a download. -/
def CanEngineDBStateMachine.IndicatorTrue (machine : CanEngineDBStateMachine) : Prop :=
  machine.engineDb.statusIndicator.canDbDownload = true →
    machine.requestState ≠ .idle ∨ machine.engineDb.dbState = .downloading

namespace CanEngineDBStateMachine

variable {machine : CanEngineDBStateMachine}

/-- Outside of IDLE the indicator makes no promise. -/
theorem indicatorTrue_of_busy (h : machine.requestState ≠ .idle) : machine.IndicatorTrue :=
  fun _ => .inl h

/-- What continues the download keeps the indicator true. -/
theorem IndicatorTrue.continues (h : machine.IndicatorTrue) {engineDb : EngineDownload}
    (hdb : EngineDownload.Continues machine.engineDb engineDb) :
    IndicatorTrue { machine with engineDb := engineDb } := fun hset =>
  (h (hdb.indicator hset).1).imp_right (hdb.indicator hset).2

/-- A restart puts the machine to work. -/
theorem indicatorTrue_startRequesting : machine.startRequesting.IndicatorTrue := by
  rw [startRequesting]
  split <;> exact indicatorTrue_of_busy fun h => RequestState.noConfusion h

/-- A stop clears the indicator. -/
theorem indicatorTrue_stopRequesting : machine.stopRequesting.IndicatorTrue :=
  fun hset => absurd hset Bool.false_ne_true

/-- An expiry goes on, restarts or stops, and a stop clears the indicator. -/
theorem IndicatorTrue.handleTimer (h : machine.IndicatorTrue) :
    machine.handleTimer.IndicatorTrue := by
  rw [CanEngineDBStateMachine.handleTimer]
  split
  · split
    · exact indicatorTrue_startRequesting
    · split
      · exact h
      · exact indicatorTrue_stopRequesting
  · rename_i hstate
    split
    · refine indicatorTrue_of_busy fun hidle => ?_
      exact RequestState.noConfusion (hstate.symm.trans hidle)
    · exact indicatorTrue_stopRequesting
  · exact h
  · exact h

/-- The loop handles a latched expiry or does nothing. -/
theorem IndicatorTrue.loop (h : machine.IndicatorTrue) : machine.loop.IndicatorTrue := by
  rw [CanEngineDBStateMachine.loop]
  split
  · exact h.handleTimer
  · exact h

/-- A packet leaves the machine alone or puts it to DOWNLOADING. -/
theorem IndicatorTrue.handlePacket (h : machine.IndicatorTrue) (frame : PacketInfo) :
    (machine.handlePacket frame).IndicatorTrue := by
  rw [CanEngineDBStateMachine.handlePacket]
  split
  · exact indicatorTrue_of_busy fun hidle => RequestState.noConfusion hidle
  · exact h

/-- The end of a download keeps the indicator true. -/
theorem IndicatorTrue.notifyEngineDBComplete (h : machine.IndicatorTrue) :
    machine.notifyEngineDBComplete.IndicatorTrue := by
  rw [CanEngineDBStateMachine.notifyEngineDBComplete]
  split
  · exact indicatorTrue_stopRequesting
  · exact h

/-- A download that the console starts runs, or another one does, or the machine is at work. -/
def CanDownload (machine : CanEngineDBStateMachine) : Prop :=
  machine.engineDb.downloadProtocol ≠ .unknown ∨ machine.requestState ≠ .idle ∨
    machine.engineDb.dbState = .downloading

/-- With the indicator set, starting a download keeps it true exactly when a download can run. -/
theorem indicatorTrue_fetchEngineDB_iff
    (hset : machine.engineDb.statusIndicator.canDbDownload = true) :
    IndicatorTrue { machine with engineDb := machine.engineDb.fetchEngineDB } ↔
      machine.CanDownload := by
  by_cases hprotocol : machine.engineDb.downloadProtocol = .unknown
  · -- Nothing is requested, and the indicator is set.
    rw [EngineDownload.fetchEngineDB_of_unknown hprotocol, CanDownload]
    exact ⟨fun h => .inr (h hset), fun h _ => h.resolve_left fun hne => hne hprotocol⟩
  · refine iff_of_true (fun _ => .inr ?_) (.inl hprotocol)
    exact EngineDownload.dbState_fetchEngineDB hprotocol

end CanEngineDBStateMachine

/-- The console starts a download only where one can run. -/
def MachineEvent.DownloadRuns (machines : StateMachines) : MachineEvent → Prop
  | .downloadEngines => machines.canEngineDBStateM.CanDownload
  | _ => True

namespace StateMachines

variable {s s' : StateMachines}

/-- A step keeps the indicator true exactly when a download that it starts can run. -/
theorem indicatorTrue_step_iff (event : MachineEvent) (hs : s.canEngineDBStateM.IndicatorTrue)
    (h : event.exec.run s = .ok ((), s')) :
    s'.canEngineDBStateM.IndicatorTrue ↔ event.DownloadRuns s := by
  cases event with
  | downloadEngines =>
      obtain ⟨engineDb, hrun, rfl⟩ := onEngineDb_run_eq_ok h
      cases hrun
      exact @CanEngineDBStateMachine.indicatorTrue_fetchEngineDB_iff
        (s.canEngineDBStateM.changeStatusIndicator (·.setCanDbDownload)) rfl
  | startRequestingEngineDB =>
      cases h
      exact iff_of_true CanEngineDBStateMachine.indicatorTrue_startRequesting trivial
  | notifyEngineDBComplete => cases h; exact iff_of_true hs.notifyEngineDBComplete trivial
  | canEngineDBLoop => cases h; exact iff_of_true hs.loop trivial
  | handlePacket frame => cases h; exact iff_of_true (hs.handlePacket frame) trivial
  | database event =>
      obtain ⟨engineDb, hrun, rfl⟩ := onEngineDb_run_eq_ok h
      exact iff_of_true (hs.continues (EngineDownload.continues_database event hrun)) trivial
  | startRequestingStopGo => cases h; exact iff_of_true hs trivial
  | stopGoTimerCallback => cases h; exact iff_of_true hs trivial
  | canEngineDBTimerCallback => cases h; exact iff_of_true hs trivial
  | stopGoLoop => cases h; exact iff_of_true hs trivial

end StateMachines

/-- The indicator is true after every step of a run exactly when the console starts downloads
only with a known protocol, while the machine is not idle, or while a download runs. -/
theorem indicatorTruth_iff (tries : Nat) (es : List MachineEvent) :
    Along MachineEvent.exec (fun _ _ s' => s'.canEngineDBStateM.IndicatorTrue)
        (.start tries) es ↔
      Along MachineEvent.exec (fun s event _ => event.DownloadRuns s) (.start tries) es :=
  along_invariant_iff MachineEvent.exec
    (I := fun s => s.canEngineDBStateM.IndicatorTrue)
    (fun _ event _ hs h => StateMachines.indicatorTrue_step_iff event hs h) es _
    fun hset => absurd hset Bool.false_ne_true

/-- The console command before a protocol is known. -/
theorem indicatorTruth_downloadEngines :
    ∃ s, (forM [.downloadEngines] MachineEvent.exec).run (.start 0) = .ok ((), s) ∧
      s.canEngineDBStateM.engineDb.statusIndicator.canDbDownload = true ∧
      s.canEngineDBStateM.requestState = .idle ∧
      s.canEngineDBStateM.engineDb.dbState = .empty :=
  ⟨_, rfl, rfl, rfl, rfl⟩

end C6021Light
