import C6021Light.Proofs.DownloadMachine

/-!
# `C6021Light.Proofs.CountedTries`: a counted try and its request

Both machines count their tries, and give up after ten. The Stop/Go machine sends a
`System_GetStatus` with each of them. The download machine asks for the engines with each try of
`requesting`, as long as the protocol is known. But a try of `requestingProtocol` is a count and
nothing else: the only ping of this state is that of `startRequestingProtocol`.

`countsTry` says which steps count a try, and `requestsOf` counts the requests of each state. So
each try transmits in exactly the runs where the protocol is known whenever the download machine
handles an expiry (`ProtocolKnown`).
-/

set_option autoImplicit false

namespace C6021Light

open FaultRun RetryLog

/-! ### Tries and requests -/

/-- The states in which `loop` counts tries. -/
inductive TryState
  | stopGoRequesting
  | requesting
  | requestingProtocol

/-- A request that starts a download of the engine database. -/
def EngineRequest.startsDownload : EngineRequest → Bool
  | .engineList offset => offset = 0
  | .lokliste => true
  | .engine _ => false

namespace StateMachines

/-- The requests of a state so far. -/
def requestsOf (machines : StateMachines) : TryState → Nat
  | .stopGoRequesting => machines.stopGoStateM.history.count .attempt
  | .requesting => machines.canEngineDBStateM.engineDb.requests.countP EngineRequest.startsDownload
  | .requestingProtocol => machines.canEngineDBStateM.pings

/-- `loop` increments `tries` in the state. -/
def countsTry (state : TryState) (machines : StateMachines) (event : MachineEvent)
    (machines' : StateMachines) : Bool :=
  match state, event with
  | .stopGoRequesting, .stopGoLoop =>
      machines.stopGoStateM.state = .requesting &&
        machines'.stopGoStateM.tries = machines.stopGoStateM.tries + 1
  | .requesting, .canEngineDBLoop =>
      machines.canEngineDBStateM.requestState = .requesting &&
        machines'.canEngineDBStateM.tries = machines.canEngineDBStateM.tries + 1
  | .requestingProtocol, .canEngineDBLoop =>
      machines.canEngineDBStateM.requestState = .requestingProtocol &&
        machines'.canEngineDBStateM.tries = machines.canEngineDBStateM.tries + 1
  | _, _ => false

/-- A step that counts a try of a state transmits one request of this state. -/
def TryTransmits (machines : StateMachines) (event : MachineEvent) (machines' : StateMachines) :
    Prop :=
  ∀ state, countsTry state machines event machines' = true →
    machines'.requestsOf state = machines.requestsOf state + 1

/-- The download machine knows the protocol when it handles an expiry and has a try left. -/
def ProtocolKnown (machines : StateMachines) (event : MachineEvent) (_ : StateMachines) : Prop :=
  let machine := machines.canEngineDBStateM
  event = .canEngineDBLoop → machine.timerExpired = true → machine.tries < kMaxDownloadTries →
    machine.requestState = .requesting ∨ machine.requestState = .requestingProtocol →
    machine.engineDb.downloadProtocol ≠ .unknown

end StateMachines

/-! ### `loop` -/

namespace StopGoStateMachine

variable {machine : StopGoStateMachine}

/-- A try of the Stop/Go machine. -/
theorem loop_of_try (hexpired : machine.timerExpired = true)
    (hstate : machine.state = .requesting) (hleft : machine.tries < kMaxRetries) :
    machine.loop
      = { machine.sendRequest with tries := machine.tries + 1, timerExpired := false } := by
  rw [loop, if_pos hexpired]
  simp only [handleTimer, hstate, if_pos hleft]

/-- In REQUESTING `loop` counts a try exactly for an expiry below the limit. -/
theorem tries_loop_iff (hstate : machine.state = .requesting) :
    machine.loop.tries = machine.tries + 1 ↔
      machine.timerExpired = true ∧ machine.tries < kMaxRetries := by
  refine ⟨fun htries => ?_, fun h => by rw [loop_of_try h.1 hstate h.2]⟩
  rw [loop] at htries
  split at htries
  · rename_i hexpired
    simp only [handleTimer, hstate] at htries
    split at htries
    · rename_i hleft
      exact ⟨hexpired, hleft⟩
    · exact absurd htries (Nat.ne_add_one _)
  · exact absurd htries (Nat.ne_add_one _)

end StopGoStateMachine

/-- `fetchEngineDB` asks for the database when it knows how. -/
theorem EngineDownload.requests_fetchEngineDB (engineDb : EngineDownload) :
    engineDb.fetchEngineDB.requests.countP EngineRequest.startsDownload
      = engineDb.requests.countP EngineRequest.startsDownload
        + (engineDb.downloadProtocol ≠ .unknown : Bool).toNat := by
  have hclear : engineDb.clear.downloadProtocol = engineDb.downloadProtocol := rfl
  rw [fetchEngineDB, hclear]
  cases engineDb.downloadProtocol with
  | unknown => rfl
  | loknamen => exact List.countP_append
  | lokliste => exact List.countP_append

/-- Starting the download does not change the protocol. -/
theorem EngineDownload.downloadProtocol_fetchEngineDB (engineDb : EngineDownload) :
    engineDb.fetchEngineDB.downloadProtocol = engineDb.downloadProtocol := by
  rw [fetchEngineDB]
  split <;> rfl

namespace CanEngineDBStateMachine

variable {machine : CanEngineDBStateMachine}

/-- A try of `requesting` calls `fetchEngineDB`. -/
theorem loop_of_try (hexpired : machine.timerExpired = true)
    (hstate : machine.requestState = .requesting) (hleft : machine.tries < kMaxDownloadTries) :
    machine.loop
      = { machine.fetchEngineDB with tries := machine.tries + 1, timerExpired := false } := by
  rw [loop, if_pos hexpired]
  simp only [handleTimer, hstate, if_pos hleft]

/-- In REQUESTING `loop` counts a try exactly for an expiry below the limit. -/
theorem tries_loop_iff_of_requesting (hstate : machine.requestState = .requesting) :
    machine.loop.tries = machine.tries + 1 ↔
      machine.timerExpired = true ∧ machine.tries < kMaxDownloadTries := by
  refine ⟨fun htries => ?_, fun h => by rw [loop_of_try h.1 hstate h.2]⟩
  rw [loop] at htries
  split at htries
  · rename_i hexpired
    simp only [handleTimer, hstate] at htries
    split at htries
    · rename_i hleft
      exact ⟨hexpired, hleft⟩
    · exact absurd htries (Nat.ne_add_one _)
  · exact absurd htries (Nat.ne_add_one _)

/-- A try of `requestingProtocol` is a count. -/
theorem loop_of_protocolTry (hexpired : machine.timerExpired = true)
    (hstate : machine.requestState = .requestingProtocol)
    (hleft : machine.tries < kMaxDownloadTries)
    (hunknown : machine.engineDb.downloadProtocol = .unknown) :
    machine.loop = { machine with tries := machine.tries + 1, timerExpired := false } := by
  rw [loop, if_pos hexpired]
  simp only [handleTimer, hstate, hunknown, ne_eq, not_true, if_false, if_pos hleft]

/-- In REQUESTING_PROTOCOL `loop` counts one exactly for such an expiry while the protocol is
unknown. -/
theorem tries_loop_iff_of_requestingProtocol
    (hstate : machine.requestState = .requestingProtocol) :
    machine.loop.tries = machine.tries + 1 ↔
      machine.timerExpired = true ∧ machine.tries < kMaxDownloadTries ∧
        machine.engineDb.downloadProtocol = .unknown := by
  refine ⟨fun htries => ?_, fun h => by rw [loop_of_protocolTry h.1 hstate h.2.1 h.2.2]⟩
  rw [loop] at htries
  split at htries
  · rename_i hexpired
    simp only [handleTimer, hstate] at htries
    split at htries
    · -- The protocol became known: the machine starts anew, and the counter with it.
      rw [startRequesting] at htries
      split at htries <;> exact absurd htries (Nat.zero_ne_add_one _)
    · rename_i hunknown
      split at htries
      · rename_i hleft
        exact ⟨hexpired, hleft, not_not.mp hunknown⟩
      · exact absurd htries (Nat.ne_add_one _)
  · exact absurd htries (Nat.ne_add_one _)

end CanEngineDBStateMachine

/-! ### Requests are only added -/

namespace EngineDownload

variable {s s' t : EngineDownload}

/-- `fetchNextEngine` only adds to the requests. -/
theorem requests_fetchNextEngine (s : EngineDownload) :
    s.requests <+: s.fetchNextEngine.requests := by
  rw [fetchNextEngine]
  split
  · exact List.prefix_append _ _
  · exact List.prefix_rfl

/-- A chunk only adds to the requests. -/
theorem requests_receiveList {numEngines : Nat} {engineInfos : Vector LocomotiveShortInfo 2}
    (h : (EngineDownload.receiveList numEngines engineInfos).run s = .ok ((), s')) :
    s.requests <+: s'.requests := by
  by_cases hrequest : s.configRequest = some .listConsumer
  · obtain ⟨t, hstore, rfl⟩ :=
      (ListChunk.receive_ok_iff hrequest ⟨numEngines, engineInfos⟩).mp h
    obtain ⟨hsame, _⟩ := storeShortInfos_frame _ _ _ _ hstore
    have hsent : t.requests = s.requests := by rw [hsame]; rfl
    rw [requestNext, ← hsent]
    split
    · exact t.requests_fetchNextEngine
    · exact List.prefix_append _ _
  · rw [receiveList_run_of_other hrequest] at h
    cases h
    exact List.prefix_rfl

/-- The end of a stream only adds to the requests. -/
theorem requests_receiveEnd (h : EngineDownload.receiveEnd.run s = .ok ((), s')) :
    s.requests <+: s'.requests := by
  rw [EngineDownload.receiveEnd, run_get_bind] at h
  split at h
  · cases h
    exact s.endRequest.requests_fetchNextEngine
  · cases h
    exact s.endRequest.requests_fetchNextEngine
  · cases h
    exact List.prefix_rfl

/-- Every event of the database only adds to the requests. -/
theorem requests_database (event : DatabaseEvent) (h : event.exec.run s = .ok ((), s')) :
    s.requests <+: s'.requests := by
  cases event with
  | setDownloadProtocol downloadProtocol => cases h; exact List.prefix_rfl
  | handlePingResponse deviceInformation major minor =>
      cases h
      show s.requests <+: (s.handlePingResponse deviceInformation major minor).requests
      rw [EngineDownload.handlePingResponse]
      split
      · exact List.prefix_rfl
      · split <;> exact List.prefix_rfl
  | receiveList numEngines engineInfos => exact requests_receiveList h
  | receiveLokInfoShort index info =>
      change (EngineDownload.receiveLokInfoShort index info).run s = _ at h
      rw [EngineDownload.receiveLokInfoShort, run_get_bind] at h
      split at h
      · split at h <;> cases h <;> exact List.prefix_rfl
      · cases h
        exact List.prefix_rfl
  | receiveLoco name loco =>
      change (EngineDownload.receiveLoco name loco).run s = _ at h
      rw [EngineDownload.receiveLoco, run_get_bind] at h
      split at h <;> cases h <;> exact List.prefix_rfl
  | receiveEnd => exact requests_receiveEnd h
  | engineCall call => cases h; exact List.prefix_rfl
  | setDiff entryIdx diff => cases h; exact List.prefix_rfl

end EngineDownload

/-- Calls of the database add requests. -/
theorem DbCalls.requests {engineDb engineDb' : EngineDownload} (h : DbCalls engineDb engineDb') :
    engineDb.requests <+: engineDb'.requests := by
  refine h.invariant _ (I := fun engineDb' => engineDb.requests <+: engineDb'.requests)
    List.prefix_rfl fun s event s' hs _ hstep => hs.trans ?_
  cases event with
  | database event => exact EngineDownload.requests_database event hstep
  | fetchEngineDB =>
      cases hstep
      show s.requests <+: s.fetchEngineDB.requests
      rw [EngineDownload.fetchEngineDB]
      split
      · exact List.prefix_rfl
      · exact List.prefix_append _ _
      · exact List.prefix_append _ _
  | abortCurrentConfigRequest => cases hstep; exact List.prefix_rfl
  | setCanDbDownload => cases hstep; exact List.prefix_rfl
  | clearCanDbDownload => cases hstep; exact List.prefix_rfl

/-- `loop` only adds to the history. -/
theorem StopGoStateMachine.history_loop (machine : StopGoStateMachine) :
    machine.history <+: machine.loop.history := by
  rw [loop, handleTimer]
  split
  · split
    · split
      · exact List.prefix_append _ _
      · exact List.prefix_rfl
    · exact List.prefix_rfl
  · exact List.prefix_rfl

namespace CanEngineDBStateMachine

/-- A restart only adds to the pings. -/
theorem pings_startRequesting (machine : CanEngineDBStateMachine) :
    machine.pings ≤ machine.startRequesting.pings := by
  rw [startRequesting]
  split
  · exact Nat.le_succ _
  · exact Nat.le_refl _

/-- `loop` only adds to the pings. -/
theorem pings_loop (machine : CanEngineDBStateMachine) : machine.pings ≤ machine.loop.pings := by
  rw [loop, handleTimer]
  split
  · split
    · split
      · exact machine.pings_startRequesting
      · split <;> exact Nat.le_refl _
    · split <;> exact Nat.le_refl _
    · exact Nat.le_refl _
    · exact Nat.le_refl _
  · exact Nat.le_refl _

end CanEngineDBStateMachine

/-! ### Both machines -/

namespace StateMachines

variable {s s' : StateMachines} {event : MachineEvent}

/-- No step takes a request of the Stop/Go machine back. -/
theorem history_step (event : MachineEvent) (h : event.exec.run s = .ok ((), s')) :
    s.stopGoStateM.history <+: s'.stopGoStateM.history := by
  cases event with
  | startRequestingStopGo => cases h; exact List.prefix_append _ _
  | stopGoLoop => cases h; exact s.stopGoStateM.history_loop
  | handlePacket frame =>
      cases h
      show s.stopGoStateM.history <+: (s.stopGoStateM.handlePacket frame).history
      rw [StopGoStateMachine.history_handlePacket]
  | database event =>
      obtain ⟨engineDb, -, rfl⟩ := onEngineDb_run_eq_ok h
      exact List.prefix_rfl
  | downloadEngines =>
      obtain ⟨engineDb, -, rfl⟩ := onEngineDb_run_eq_ok h
      exact List.prefix_rfl
  | startRequestingEngineDB | stopGoTimerCallback | canEngineDBTimerCallback
  | notifyEngineDBComplete | canEngineDBLoop =>
      cases h
      exact List.prefix_rfl

/-- No step takes a ping back. -/
theorem pings_step (event : MachineEvent) (h : event.exec.run s = .ok ((), s')) :
    s.canEngineDBStateM.pings ≤ s'.canEngineDBStateM.pings := by
  cases event with
  | startRequestingEngineDB => cases h; exact s.canEngineDBStateM.pings_startRequesting
  | canEngineDBLoop => cases h; exact s.canEngineDBStateM.pings_loop
  | handlePacket frame =>
      cases h
      show s.canEngineDBStateM.pings ≤ (s.canEngineDBStateM.handlePacket frame).pings
      rw [CanEngineDBStateMachine.handlePacket]
      split <;> exact Nat.le_refl _
  | notifyEngineDBComplete =>
      cases h
      show s.canEngineDBStateM.pings ≤ s.canEngineDBStateM.notifyEngineDBComplete.pings
      rw [CanEngineDBStateMachine.notifyEngineDBComplete]
      split <;> exact Nat.le_refl _
  | database event =>
      obtain ⟨engineDb, -, rfl⟩ := onEngineDb_run_eq_ok h
      exact Nat.le_refl _
  | downloadEngines =>
      obtain ⟨engineDb, -, rfl⟩ := onEngineDb_run_eq_ok h
      exact Nat.le_refl _
  | startRequestingStopGo | stopGoTimerCallback | canEngineDBTimerCallback | stopGoLoop =>
      cases h
      exact Nat.le_refl _

/-- No step takes a request back. -/
theorem requestsOf_step (h : event.exec.run s = .ok ((), s')) (state : TryState) :
    s.requestsOf state ≤ s'.requestsOf state := by
  cases state with
  | stopGoRequesting => exact (history_step event h).sublist.count_le _
  | requesting => exact (calls_of_step event h).requests.sublist.countP_le
  | requestingProtocol => exact pings_step event h

/-- The machines behind `loop` of the download machine. -/
def afterLoop (s : StateMachines) : StateMachines :=
  { s with canEngineDBStateM := s.canEngineDBStateM.loop }

/-- When `loop` counts a try of REQUESTING. -/
theorem countsTry_requesting_iff (s : StateMachines) :
    countsTry .requesting s .canEngineDBLoop s.afterLoop = true ↔
      s.canEngineDBStateM.requestState = .requesting ∧
        s.canEngineDBStateM.timerExpired = true ∧
          s.canEngineDBStateM.tries < kMaxDownloadTries := by
  rw [countsTry, Bool.and_eq_true, decide_eq_true_eq, decide_eq_true_eq]
  exact and_congr_right CanEngineDBStateMachine.tries_loop_iff_of_requesting

/-- When `loop` counts a try of REQUESTING_PROTOCOL. -/
theorem countsTry_requestingProtocol_iff (s : StateMachines) :
    countsTry .requestingProtocol s .canEngineDBLoop s.afterLoop = true ↔
      s.canEngineDBStateM.requestState = .requestingProtocol ∧
        s.canEngineDBStateM.timerExpired = true ∧
          s.canEngineDBStateM.tries < kMaxDownloadTries ∧
            s.canEngineDBStateM.engineDb.downloadProtocol = .unknown := by
  rw [countsTry, Bool.and_eq_true, decide_eq_true_eq, decide_eq_true_eq]
  exact and_congr_right CanEngineDBStateMachine.tries_loop_iff_of_requestingProtocol

/-- A try of `requesting` transmits exactly when the protocol is known. -/
theorem requestsOf_requesting
    (h : countsTry .requesting s .canEngineDBLoop s.afterLoop = true) :
    s.afterLoop.requestsOf .requesting = s.requestsOf .requesting
      + (s.canEngineDBStateM.engineDb.downloadProtocol ≠ .unknown : Bool).toNat := by
  obtain ⟨hstate, hexpired, hleft⟩ := s.countsTry_requesting_iff.mp h
  show List.countP _ s.canEngineDBStateM.loop.engineDb.requests = _
  rw [CanEngineDBStateMachine.loop_of_try hexpired hstate hleft]
  exact s.canEngineDBStateM.engineDb.endRequest.requests_fetchEngineDB

/-- A try of `requestingProtocol` transmits nothing. -/
theorem requestsOf_requestingProtocol
    (h : countsTry .requestingProtocol s .canEngineDBLoop s.afterLoop = true) :
    s.afterLoop.requestsOf .requestingProtocol = s.requestsOf .requestingProtocol := by
  obtain ⟨hstate, hexpired, hleft, hunknown⟩ := s.countsTry_requestingProtocol_iff.mp h
  show s.canEngineDBStateM.loop.pings = _
  rw [CanEngineDBStateMachine.loop_of_protocolTry hexpired hstate hleft hunknown]
  rfl

/-- Each try of the Stop/Go machine transmits a request. -/
theorem tryTransmits_stopGoLoop (s : StateMachines) :
    TryTransmits s .stopGoLoop { s with stopGoStateM := s.stopGoStateM.loop } := by
  intro state hcounts
  cases state with
  | stopGoRequesting =>
      rw [countsTry, Bool.and_eq_true, decide_eq_true_eq, decide_eq_true_eq] at hcounts
      obtain ⟨hexpired, hleft⟩ := (StopGoStateMachine.tries_loop_iff hcounts.1).mp hcounts.2
      show s.stopGoStateM.loop.history.count _ = _
      rw [StopGoStateMachine.loop_of_try hexpired hcounts.1 hleft]
      exact List.count_append
  | requesting => exact absurd hcounts Bool.false_ne_true
  | requestingProtocol => exact absurd hcounts Bool.false_ne_true

/-- The tries of the download machine transmit exactly when the protocol is known. -/
theorem tryTransmits_canEngineDBLoop_iff (s : StateMachines) :
    TryTransmits s .canEngineDBLoop s.afterLoop ↔ ProtocolKnown s .canEngineDBLoop s.afterLoop := by
  constructor
  · intro htransmits _ hexpired hleft hstate hunknown
    rcases hstate with hstate | hstate
    · have hcounts := s.countsTry_requesting_iff.mpr ⟨hstate, hexpired, hleft⟩
      have hsent := requestsOf_requesting hcounts
      rw [hunknown] at hsent
      exact Nat.ne_add_one _ (hsent.symm.trans (htransmits _ hcounts))
    · have hcounts :=
        s.countsTry_requestingProtocol_iff.mpr ⟨hstate, hexpired, hleft, hunknown⟩
      have hsent := requestsOf_requestingProtocol hcounts
      exact Nat.ne_add_one _ (hsent.symm.trans (htransmits _ hcounts))
  · intro hknown state hcounts
    cases state with
    | stopGoRequesting => exact absurd hcounts Bool.false_ne_true
    | requesting =>
        obtain ⟨hstate, hexpired, hleft⟩ := s.countsTry_requesting_iff.mp hcounts
        rw [requestsOf_requesting hcounts,
          decide_eq_true (hknown rfl hexpired hleft (.inl hstate))]
        rfl
    | requestingProtocol =>
        obtain ⟨hstate, hexpired, hleft, hunknown⟩ :=
          s.countsTry_requestingProtocol_iff.mp hcounts
        exact absurd hunknown (hknown rfl hexpired hleft (.inr hstate))

/-- A step transmits with each try that it counts exactly when the protocol is known. -/
theorem tryTransmits_iff (hstep : event.exec.run s = .ok ((), s')) :
    TryTransmits s event s' ↔ ProtocolKnown s event s' := by
  cases event with
  | stopGoLoop =>
      cases hstep
      exact iff_of_true s.tryTransmits_stopGoLoop fun h => MachineEvent.noConfusion h
  | canEngineDBLoop => cases hstep; exact s.tryTransmits_canEngineDBLoop_iff
  | startRequestingStopGo | startRequestingEngineDB | stopGoTimerCallback
  | canEngineDBTimerCallback | notifyEngineDBComplete | handlePacket | database
  | downloadEngines =>
      exact iff_of_true (fun state hcounts => by cases state <;> cases hcounts)
        fun h => MachineEvent.noConfusion h

/-- One expiry of the timer, handled by the next `loop`. -/
def expiry : TryState → List MachineEvent
  | .stopGoRequesting => [.stopGoTimerCallback, .stopGoLoop]
  | .requesting | .requestingProtocol => [.canEngineDBTimerCallback, .canEngineDBLoop]

/-- The machine of the state is there, with `n` tries, and what it waits for has not come. -/
def Waiting (machines : StateMachines) (n : Nat) : TryState → Prop
  | .stopGoRequesting =>
      machines.stopGoStateM.state = .requesting ∧ machines.stopGoStateM.tries = n
  | .requesting =>
      machines.canEngineDBStateM.requestState = .requesting ∧
        machines.canEngineDBStateM.tries = n ∧
        machines.canEngineDBStateM.engineDb.downloadProtocol ≠ .unknown
  | .requestingProtocol =>
      machines.canEngineDBStateM.requestState = .requestingProtocol ∧
        machines.canEngineDBStateM.tries = n ∧
        machines.canEngineDBStateM.engineDb.downloadProtocol = .unknown

/-- What a try of the state transmits. -/
def requestsPerTry : TryState → Nat
  | .stopGoRequesting | .requesting => 1
  | .requestingProtocol => 0

/-- The next expiry is counted, and transmits what a try of the state does. -/
theorem expiry_transmits {state : TryState} {n : Nat} (h : s.Waiting n state) (hleft : n < 10) :
    ∃ s', (forM (expiry state) MachineEvent.exec).run s = .ok ((), s') ∧
      s'.Waiting (n + 1) state ∧
      s'.requestsOf state = s.requestsOf state + requestsPerTry state := by
  -- Each state has its own loop. In the first two a try transmits, in the last one it does not.
  cases state with
  | stopGoRequesting =>
      obtain ⟨hstate, rfl⟩ := h
      let expired : StopGoStateMachine :=
        { s.stopGoStateM with toStateMachineBase := s.stopGoStateM.timerCallback }
      have hexpired : expired.timerExpired = true := rfl
      have hloop := StopGoStateMachine.loop_of_try hexpired hstate hleft
      refine ⟨_, rfl, ?_, ?_⟩
      · show expired.loop.state = _ ∧ expired.loop.tries = _
        rw [hloop]
        exact ⟨hstate, rfl⟩
      · show expired.loop.history.count _ = _
        rw [hloop]
        exact List.count_append
  | requesting =>
      obtain ⟨hstate, rfl, hknown⟩ := h
      let expired : CanEngineDBStateMachine :=
        { s.canEngineDBStateM with toStateMachineBase := s.canEngineDBStateM.timerCallback }
      have hexpired : expired.timerExpired = true := rfl
      have hloop := CanEngineDBStateMachine.loop_of_try hexpired hstate hleft
      refine ⟨_, rfl, ?_, ?_⟩
      · show expired.loop.requestState = _ ∧ expired.loop.tries = _ ∧
          expired.loop.engineDb.downloadProtocol ≠ _
        rw [hloop]
        refine ⟨hstate, rfl, ?_⟩
        show expired.engineDb.endRequest.fetchEngineDB.downloadProtocol ≠ _
        rw [EngineDownload.downloadProtocol_fetchEngineDB]
        exact hknown
      · show List.countP _ expired.loop.engineDb.requests = _
        rw [hloop]
        show List.countP _ expired.engineDb.endRequest.fetchEngineDB.requests = _
        rw [EngineDownload.requests_fetchEngineDB]
        -- The list is requested, as the protocol is known.
        show _ + (expired.engineDb.downloadProtocol ≠ .unknown : Bool).toNat = _ + 1
        rw [decide_eq_true hknown]
        rfl
  | requestingProtocol =>
      obtain ⟨hstate, rfl, hunknown⟩ := h
      let expired : CanEngineDBStateMachine :=
        { s.canEngineDBStateM with toStateMachineBase := s.canEngineDBStateM.timerCallback }
      have hexpired : expired.timerExpired = true := rfl
      have hloop := CanEngineDBStateMachine.loop_of_protocolTry hexpired hstate hleft hunknown
      refine ⟨_, rfl, ?_, ?_⟩
      · show expired.loop.requestState = _ ∧ expired.loop.tries = _ ∧
          expired.loop.engineDb.downloadProtocol = _
        rw [hloop]
        exact ⟨hstate, rfl, hunknown⟩
      -- The state was entered with its ping, so an expiry only counts.
      · show expired.loop.pings = _
        rw [hloop]
        rfl

/-- `k` expiries, as long as no more than ten tries are made. -/
theorem expiries_transmit (state : TryState) :
    ∀ (k n : Nat) (s : StateMachines), s.Waiting n state → n + k ≤ 10 →
      ∃ s', (forM (List.replicate k (expiry state)).flatten MachineEvent.exec).run s
          = .ok ((), s') ∧
        s'.requestsOf state = s.requestsOf state + k * requestsPerTry state := by
  intro k
  induction k with
  | zero => intro n s _ _; exact ⟨s, rfl, by rw [Nat.zero_mul, Nat.add_zero]⟩
  | succ k ih =>
      intro n s hwaiting htries
      obtain ⟨t, hfirst, hwaiting', hone⟩ := expiry_transmits hwaiting (by omega)
      obtain ⟨s', hrest, hmore⟩ := ih (n + 1) t hwaiting' (by omega)
      refine ⟨s', ?_, ?_⟩
      · rw [List.replicate_succ, List.flatten_cons]
        exact (run_forM_append MachineEvent.exec).mpr ⟨t, hfirst, hrest⟩
      · rw [hmore, hone, Nat.add_mul, Nat.one_mul, Nat.add_assoc,
          Nat.add_comm (requestsPerTry state)]

end StateMachines

open StateMachines in
/-- In each run, every counted try transmits exactly when the protocol is known at every expiry
that the download machine handles with a try left. Then any part of the run transmits at least
as many requests of a state as it counts tries there. When nothing else happens, `k` expiries
transmit `k` requests, but none in `requestingProtocol`. -/
theorem countedTries_transmit_iff (tries : Nat) (es : List MachineEvent) :
    (Along MachineEvent.exec TryTransmits (start tries) es ↔
      Along MachineEvent.exec ProtocolKnown (start tries) es) ∧
    (∀ (s s' : StateMachines) (part : List MachineEvent),
      (forM part MachineEvent.exec).run s = .ok ((), s') →
      Along MachineEvent.exec ProtocolKnown s part →
      ∀ state, s.requestsOf state + stepsCounted MachineEvent.exec (countsTry state) s part
        ≤ s'.requestsOf state) ∧
    ∀ (state : TryState) (k n : Nat) (s : StateMachines), s.Waiting n state → n + k ≤ 10 →
      ∃ s', (forM (List.replicate k (expiry state)).flatten MachineEvent.exec).run s
          = .ok ((), s') ∧
        s'.requestsOf state = s.requestsOf state + k * requestsPerTry state := by
  refine ⟨along_congr MachineEvent.exec (fun _ _ _ hstep => tryTransmits_iff hstep) es _,
    fun s s' part hpart hknown state => ?_, expiries_transmit⟩
  -- The requests never get fewer, and a counted try that transmits makes one more.
  refine add_stepsCounted_le MachineEvent.exec (m := fun s => s.requestsOf state)
    (fun t event t' hstep hR => ?_) part s s' hknown hpart
  cases hcounts : countsTry state t event t' with
  | false => exact requestsOf_step hstep state
  | true => exact ((tryTransmits_iff hstep).mpr hR state hcounts).ge

open StateMachines in
/-- With the protocol "Loknamen" each of the ten tries asks for the list. -/
theorem countedTries_transmit_loknamen :
    ∃ s s', (forM [.database (.setDownloadProtocol .loknamen), .startRequestingEngineDB]
        MachineEvent.exec).run (start 0) = .ok ((), s) ∧
      (forM (List.replicate 10 (expiry .requesting)).flatten MachineEvent.exec).run s
        = .ok ((), s') ∧
      s'.requestsOf .requesting = 10 := by
  obtain ⟨s', hrun, hrequests⟩ := (countedTries_transmit_iff 0 []).2.2 .requesting 10 0
    { (start 0) with canEngineDBStateM :=
      { (start 0).canEngineDBStateM with
        engineDb := ({} : EngineDownload).setDownloadProtocol .loknamen }.startRequesting }
    ⟨rfl, rfl, fun h => EngineDownloadProtocol.noConfusion h⟩ (by omega)
  exact ⟨_, s', rfl, hrun, hrequests⟩

open StateMachines in
/-- After power-up the protocol is not known: the first expiry counts a try, and no ping follows
that of the start. -/
theorem countedTries_without_ping :
    let events : List MachineEvent := [.startRequestingEngineDB, .canEngineDBLoop]
    ¬ Along MachineEvent.exec TryTransmits (start 0) events ∧
      ∃ s s', (forM events MachineEvent.exec).run (start 0) = .ok ((), s) ∧
        (forM (List.replicate 9 (expiry .requestingProtocol)).flatten MachineEvent.exec).run s
          = .ok ((), s') ∧
        s'.canEngineDBStateM.tries = 10 ∧ s'.canEngineDBStateM.pings = 1 := by
  refine ⟨fun h => ?_, ?_⟩
  · have hone := ((h _ rfl).2 _ rfl).1 .requestingProtocol rfl
    exact absurd hone (by decide)
  · exact ⟨_, _, rfl, rfl, rfl, rfl⟩

end C6021Light
