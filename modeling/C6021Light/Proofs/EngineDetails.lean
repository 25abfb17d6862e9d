import C6021Light.Proofs.EngineList

/-!
# `C6021Light.Proofs.EngineDetails`: the detail phase of a download

The list of the engines brings their names only. `fetchNextEngine` then searches the database
for the first such entry and asks for it, and the end of its stream calls `fetchNextEngine`
again. There is no index that counts up. The list of the entries that the search has still to
find (`nameOnlyEntries`) is the measure: a stream takes its head off, and the request that
follows is for the new head.

`detailPhase_complete` says this of a whole phase, and that no entry of a complete database
waits for its details, in any order of calls and streams.
-/

set_option autoImplicit false

namespace C6021Light

open FaultRun

namespace EngineDownload

variable {s s' t : EngineDownload}

/-! ### The entries that wait for their details -/

/-- The entries of which only the name is known, in the order of the search. -/
def nameOnlyEntries (engineDb : EngineDownload) : List (Fin kMaxNumDbEntries) :=
  (List.finRange kMaxNumDbEntries).filter engineDb.isNameOnlyKnown

/-- No entry waits for details when none has only its name. -/
theorem nameOnlyEntries_eq_nil_iff :
    s.nameOnlyEntries = [] ↔ ∀ k, s.isNameOnlyKnown k = false := by
  simp [nameOnlyEntries]

/-- The entries that wait are in the order of the table. -/
theorem pairwise_nameOnlyEntries : s.nameOnlyEntries.Pairwise (· < ·) :=
  (List.pairwise_lt_finRange kMaxNumDbEntries).filter _

/-- `findFirstIncompleteEngine` finds the first of the entries that wait. -/
theorem findFirstIncompleteEngine_eq :
    s.findFirstIncompleteEngine = s.nameOnlyEntries.head? :=
  List.head?_filter.symm

/-- Which entries wait depends on their availability only. -/
theorem nameOnlyEntries_congr (h : ∀ k, s'.isNameOnlyKnown k = s.isNameOnlyKnown k) :
    s'.nameOnlyEntries = s.nameOnlyEntries := by
  rw [nameOnlyEntries, nameOnlyEntries, funext h]

/-- Full details of the first entry take it off the list. -/
theorem nameOnlyEntries_setEntry {k : Fin kMaxNumDbEntries} {rest : List (Fin kMaxNumDbEntries)}
    (h : s.nameOnlyEntries = k :: rest) (name : EngineName) {entry : DbEntry}
    (hfull : entry.loco.isNameOnlyKnown = false) :
    (s.setEntry k name entry).nameOnlyEntries = rest := by
  have hfilter : (s.setEntry k name entry).isNameOnlyKnown
      = fun j => decide (j ≠ k) && s.isNameOnlyKnown j := by
    funext j
    by_cases hj : j = k
    · rw [hj, isNameOnlyKnown, entry_setEntry_self, hfull]
      simp
    · rw [isNameOnlyKnown, entry_setEntry_ne (Ne.symm hj)]
      simp [isNameOnlyKnown, hj]
  have hnotMem : ∀ j ∈ rest, decide (j ≠ k) = true := fun j hj => by
    have hsorted := pairwise_nameOnlyEntries (s := s)
    rw [h] at hsorted
    exact decide_eq_true (List.rel_of_pairwise_cons hsorted hj).ne'
  have hsplit : (s.setEntry k name entry).nameOnlyEntries
      = s.nameOnlyEntries.filter fun j => decide (j ≠ k) := by
    rw [nameOnlyEntries, hfilter, ← List.filter_filter]
    rfl
  rw [hsplit, h, List.filter_cons_of_neg (by simp), List.filter_eq_self.mpr hnotMem]

/-- The call asks for the first entry that waits, or ends the download. -/
theorem fetchNextEngine_eq (h : s.configRequest = none) :
    s.fetchNextEngine = { s with
      dbState := if s.nameOnlyEntries = [] then .complete else .downloading
      statusIndicator :=
        if s.nameOnlyEntries = [] then s.statusIndicator.clearCanDbDownload
        else s.statusIndicator
      configRequest := s.nameOnlyEntries.head?.map .locoConsumer
      requests := s.requests ++ (s.nameOnlyEntries.take 1).map .engine } := by
  rw [fetchNextEngine, findFirstIncompleteEngine_eq]
  cases s.nameOnlyEntries with
  | nil => simp [h]
  | cons k rest => rfl

/-- Asking for an engine does not change which entries wait. -/
theorem nameOnlyEntries_fetchNextEngine (engineDb : EngineDownload) :
    engineDb.fetchNextEngine.nameOnlyEntries = engineDb.nameOnlyEntries := by
  refine nameOnlyEntries_congr fun k => ?_
  rw [isNameOnlyKnown, isNameOnlyKnown, (sameEntry_fetchNextEngine k).1]

/-! ### The detail phase -/

/-- The first entry that waits has been asked for, or the download is complete. `si` is the
status indicator from before the phase. -/
structure InDetails (si : StatusIndicator) (engineDb : EngineDownload) : Prop where
  request : engineDb.configRequest = engineDb.nameOnlyEntries.head?.map .locoConsumer
  state : engineDb.dbState = if engineDb.nameOnlyEntries = [] then .complete else .downloading
  indicator : engineDb.statusIndicator
    = if engineDb.nameOnlyEntries = [] then si.clearCanDbDownload else si

/-- `fetchNextEngine` starts the detail phase. -/
theorem inDetails_fetchNextEngine (h : s.configRequest = none) :
    InDetails s.statusIndicator s.fetchNextEngine := by
  rw [fetchNextEngine_eq h]
  exact ⟨rfl, rfl, rfl⟩

/-- A stream ends the list phase: the last chunk of the list, or a Lokliste. -/
inductive EndsListPhase (s s' : EngineDownload) : Prop
  | list (numEngines : Nat) (engineInfos : Vector LocomotiveShortInfo 2)
      (request : s.configRequest = some .listConsumer)
      (last : numEngines ≤ s.listConsumer.streamOffset.toNat + kEngineBrowserEntries)
      (run : (receiveList numEngines engineInfos).run s = .ok ((), s'))
  | lokliste (request : s.configRequest = some .loklisteConsumer)
      (run : receiveEnd.run s = .ok ((), s'))

/-- The end of a stream for the Lokliste. -/
theorem receiveEnd_run_of_lokliste (h : s.configRequest = some .loklisteConsumer) :
    receiveEnd.run s = .ok ((), s.endRequest.fetchNextEngine) := by
  rw [receiveEnd, run_get_bind, h]
  rfl

/-- The end of a stream for an engine. -/
theorem receiveEnd_run_of_loco {k : Fin kMaxNumDbEntries}
    (h : s.configRequest = some (.locoConsumer k)) :
    receiveEnd.run s = .ok ((), s.endRequest.fetchNextEngine) := by
  rw [receiveEnd, run_get_bind, h]
  rfl

/-- Without a request the end of a stream has no effect. -/
theorem receiveEnd_run_of_none (h : s.configRequest = none) : receiveEnd.run s = .ok ((), s) := by
  rw [receiveEnd, run_get_bind, h]
  rfl

/-- Both ends of the list phase call `fetchNextEngine`. -/
theorem EndsListPhase.exists_fetchNextEngine (h : EndsListPhase s s') :
    ∃ t : EngineDownload, t.configRequest = none ∧ t.requests = s.requests ∧
      t.statusIndicator = s.statusIndicator ∧ s' = t.fetchNextEngine := by
  cases h with
  | list numEngines engineInfos request last run =>
      obtain ⟨t, hstore, rfl⟩ :=
        (ListChunk.receive_ok_iff request ⟨numEngines, engineInfos⟩).mp run
      obtain ⟨hsame, _⟩ := storeShortInfos_frame _ _ _ _ hstore
      refine ⟨t, ?_, ?_, ?_, if_pos last⟩ <;> rw [hsame] <;> rfl
  | lokliste request run =>
      rw [receiveEnd_run_of_lokliste request] at run
      cases run
      exact ⟨s.endRequest, rfl, rfl, rfl, rfl⟩

end EngineDownload

/-- A stream for an engine, with all its details. -/
structure LocoStream where
  name : EngineName
  loco : Locomotive
  fullDetails : loco.isFullDetailsKnown = true

namespace LocoStream

open EngineDownload

variable {s s' : EngineDownload} {si : StatusIndicator}

/-- The stream of an engine and its end arrive at the database. -/
def receive (stream : LocoStream) : DownloadRun Unit := do
  receiveLoco stream.name stream.loco
  receiveEnd

/-- A stream brings more than the name. -/
theorem isNameOnlyKnown (stream : LocoStream) : stream.loco.isNameOnlyKnown = false := by
  have hfull : stream.loco.availability = .fullDetails := of_decide_eq_true stream.fullDetails
  rw [Locomotive.isNameOnlyKnown, hfull]
  rfl

/-- The stream completes the entry that was asked for. -/
def store (stream : LocoStream) (engineDb : EngineDownload) (k : Fin kMaxNumDbEntries) :
    EngineDownload :=
  engineDb.setEntry k stream.name { engineDb.entry k with loco := stream.loco }

/-- Then the next one is asked for. -/
theorem receive_run {k : Fin kMaxNumDbEntries} (h : s.configRequest = some (.locoConsumer k))
    (stream : LocoStream) :
    (stream.receive).run s = .ok ((), (stream.store s k).endRequest.fetchNextEngine) := by
  have hstore : (receiveLoco stream.name stream.loco).run s = .ok ((), stream.store s k) := by
    rw [receiveLoco, run_get_bind, h]
    rfl
  rw [receive, run_bind_of_ok hstore]
  exact receiveEnd_run_of_loco h

/-- Without a current request a stream is not consumed. -/
theorem receive_run_of_none (h : s.configRequest = none) (stream : LocoStream) :
    (stream.receive).run s = .ok ((), s) := by
  have hstore : (receiveLoco stream.name stream.loco).run s = .ok ((), s) := by
    rw [receiveLoco, run_get_bind, h]
    rfl
  rw [receive, run_bind_of_ok hstore]
  exact receiveEnd_run_of_none h

/-- One stream takes the first entry off the list and asks for the next one. -/
theorem exists_receive (h : InDetails si s) (stream : LocoStream) :
    ∃ s', (stream.receive).run s = .ok ((), s') ∧ InDetails si s' ∧
      s'.nameOnlyEntries = s.nameOnlyEntries.tail ∧
      s'.requests = s.requests ++ (s.nameOnlyEntries.tail.take 1).map .engine := by
  cases hentries : s.nameOnlyEntries with
  | nil =>
      have hnone : s.configRequest = none := by
        rw [h.request, hentries]
        rfl
      exact ⟨s, receive_run_of_none hnone stream, h, hentries, (List.append_nil _).symm⟩
  | cons k rest =>
      have hrequest : s.configRequest = some (.locoConsumer k) := by
        rw [h.request, hentries]
        rfl
      have hindicator : (stream.store s k).endRequest.statusIndicator = si := by
        have hopen := h.indicator
        rw [hentries, if_neg (List.cons_ne_nil k rest)] at hopen
        exact hopen
      have hrest : (stream.store s k).endRequest.nameOnlyEntries = rest :=
        nameOnlyEntries_setEntry hentries stream.name stream.isNameOnlyKnown
      refine ⟨_, receive_run hrequest stream, ?_, ?_, ?_⟩
      · exact hindicator ▸ inDetails_fetchNextEngine rfl
      · exact (nameOnlyEntries_fetchNextEngine _).trans hrest
      · rw [fetchNextEngine_eq rfl, hrest]
        rfl

/-- After `n` streams the first `n` entries are off the list, and one more is asked for. -/
theorem exists_forM_receive (streams : List LocoStream) :
    ∀ s : EngineDownload, InDetails si s →
      ∃ s', (forM streams receive).run s = .ok ((), s') ∧ InDetails si s' ∧
        s'.nameOnlyEntries = s.nameOnlyEntries.drop streams.length ∧
        s'.requests
          = s.requests ++ (s.nameOnlyEntries.tail.take streams.length).map .engine := by
  induction streams with
  | nil => intro s h; exact ⟨s, rfl, h, rfl, (List.append_nil _).symm⟩
  | cons stream streams ih =>
      intro s h
      obtain ⟨s₁, hrun₁, h₁, hentries₁, hrequests₁⟩ := exists_receive h stream
      obtain ⟨s', hrun, h', hentries, hrequests⟩ := ih s₁ h₁
      refine ⟨s', (run_forM_cons receive).mpr ⟨s₁, hrun₁, hrun⟩, h', ?_, ?_⟩
      · rw [hentries, hentries₁, List.length_cons, ← List.drop_one, List.drop_drop, Nat.add_comm]
      · rw [hrequests, hrequests₁, hentries₁, List.append_assoc, ← List.map_append]
        cases s.nameOnlyEntries.tail <;> simp

end LocoStream

/-! ### Every state of the database -/

namespace EngineDownload

variable {s s' t : EngineDownload}

/-- A request is only under way in a download, a complete database waits for no details, and
an empty one has never sent a request. -/
structure DownloadInv (engineDb : EngineDownload) : Prop where
  idle : engineDb.dbState ≠ .downloading → engineDb.configRequest = none
  known : engineDb.dbState = .complete → ∀ k, engineDb.isNameOnlyKnown k = false
  requested : engineDb.dbState = .empty ↔ engineDb.requests = []

/-- An empty database has the invariant, whatever its indicator shows. -/
theorem downloadInv_start (statusIndicator : StatusIndicator) :
    DownloadInv { statusIndicator := statusIndicator } :=
  ⟨fun _ => rfl, fun h => DBState.noConfusion h, iff_of_true rfl rfl⟩

/-- A request belongs to a download. -/
theorem DownloadInv.isDownloading (hs : DownloadInv s) {consumer : ConfigDataConsumer}
    (h : s.configRequest = some consumer) : s.dbState = .downloading := by
  by_contra hnot
  rw [hs.idle hnot] at h
  cases h

/-- A download has sent a request. -/
theorem DownloadInv.requests_ne_nil (hs : DownloadInv s) (h : s.dbState = .downloading) :
    s.requests ≠ [] := fun hnil => by
  rw [hs.requested.mpr hnil] at h
  cases h

/-- Any request belongs to a download. -/
theorem downloadInv_sendRequest (h : s.dbState = .downloading) (consumer : ConfigDataConsumer)
    (request : EngineRequest) : DownloadInv (s.sendRequest consumer request) := by
  refine ⟨fun hnot => absurd h hnot, fun hcomplete => ?_, ?_⟩
  · cases h.symm.trans hcomplete
  · refine iff_of_false (fun hempty => ?_) (by simp [sendRequest])
    cases h.symm.trans hempty

/-- `fetchNextEngine` sends a request for an entry that waits, or completes the download. -/
theorem downloadInv_fetchNextEngine (h : s.configRequest = none) (hsent : s.requests ≠ []) :
    DownloadInv s.fetchNextEngine := by
  rw [fetchNextEngine]
  split
  · exact downloadInv_sendRequest rfl _ _
  · rename_i hnone
    rw [findFirstIncompleteEngine_eq, List.head?_eq_none_iff, nameOnlyEntries_eq_nil_iff] at hnone
    refine ⟨fun _ => h, fun _ => hnone, iff_of_false (fun hempty => ?_) hsent⟩
    exact DBState.noConfusion hempty

/-- Nothing but entries changes, and a complete database still waits for no details. -/
theorem DownloadInv.of_entries (hs : DownloadInv s) (hstate : s'.dbState = s.dbState)
    (hrequest : s'.configRequest = s.configRequest) (hrequests : s'.requests = s.requests)
    (hknown : s.dbState = .complete → (∀ k, s.isNameOnlyKnown k = false) →
      ∀ k, s'.isNameOnlyKnown k = false) : DownloadInv s' where
  idle h := hrequest.trans (hs.idle (hstate ▸ h))
  known h := hknown (hstate ▸ h) (hs.known (hstate ▸ h))
  requested := by rw [hstate, hrequests, hs.requested]

/-- A cleared database waits for no details. -/
theorem isNameOnlyKnown_clear (k : Fin kMaxNumDbEntries) : s.clear.isNameOnlyKnown k = false := by
  show (Vector.replicate kMaxNumDbEntries ({} : DbEntry))[k].loco.isNameOnlyKnown = false
  simp [Locomotive.isNameOnlyKnown]

/-- A new download clears the entries and sends its first request. -/
theorem DownloadInv.fetchEngineDB (hs : DownloadInv s) : DownloadInv s.fetchEngineDB := by
  rw [EngineDownload.fetchEngineDB]
  split
  · exact hs.of_entries rfl rfl rfl fun _ _ => isNameOnlyKnown_clear
  · exact downloadInv_sendRequest rfl _ _
  · exact downloadInv_sendRequest rfl _ _

/-! ### Streams -/

/-- A chunk is stored before the next request goes out. -/
theorem DownloadInv.receiveList (hs : DownloadInv s) {numEngines : Nat}
    {engineInfos : Vector LocomotiveShortInfo 2}
    (h : (EngineDownload.receiveList numEngines engineInfos).run s = .ok ((), s')) :
    DownloadInv s' := by
  by_cases hrequest : s.configRequest = some .listConsumer
  · obtain ⟨t, hstore, rfl⟩ :=
      (ListChunk.receive_ok_iff hrequest ⟨numEngines, engineInfos⟩).mp h
    obtain ⟨hsame, _⟩ := storeShortInfos_frame _ _ _ _ hstore
    have hnone : t.configRequest = none := by rw [hsame]; rfl
    have hsent : t.requests = s.requests := by rw [hsame]; rfl
    rw [requestNext]
    split
    · refine downloadInv_fetchNextEngine hnone ?_
      rw [hsent]
      exact hs.requests_ne_nil (hs.isDownloading hrequest)
    · exact downloadInv_sendRequest rfl _ _
  · rw [receiveList_run_of_other hrequest] at h
    cases h
    exact hs

/-- The end of a stream sends the next request or completes the download. -/
theorem DownloadInv.receiveEnd (hs : DownloadInv s)
    (h : EngineDownload.receiveEnd.run s = .ok ((), s')) : DownloadInv s' := by
  have hnext : ∀ {consumer}, s.configRequest = some consumer →
      DownloadInv s.endRequest.fetchNextEngine := fun hrequest =>
    downloadInv_fetchNextEngine rfl (hs.requests_ne_nil (hs.isDownloading hrequest))
  rw [EngineDownload.receiveEnd, run_get_bind] at h
  split at h
  · rename_i hrequest
    cases h
    exact hnext hrequest
  · rename_i hrequest
    cases h
    exact hnext hrequest
  · cases h
    exact hs

/-- A write for the current request is a write of a download. -/
theorem DownloadInv.setEntry (hs : DownloadInv s) {consumer : ConfigDataConsumer}
    (h : s.configRequest = some consumer) (k : Fin kMaxNumDbEntries) (name : EngineName)
    (entry : DbEntry) : DownloadInv (s.setEntry k name entry) := by
  refine hs.of_entries rfl rfl rfl fun hcomplete => ?_
  cases (hs.isDownloading h).symm.trans hcomplete

/-- A short info changes entries only. -/
theorem DownloadInv.receiveLokInfoShort (hs : DownloadInv s) {index : Nat}
    {info : LocomotiveShortInfo}
    (h : (EngineDownload.receiveLokInfoShort index info).run s = .ok ((), s')) :
    DownloadInv s' := by
  rw [EngineDownload.receiveLokInfoShort, run_get_bind] at h
  split at h
  · rename_i hrequest
    split at h
    · cases h
      exact hs.setEntry hrequest _ _ _
    · cases h
      exact hs
  · cases h
    exact hs

/-- The details of an engine change its entry only. -/
theorem DownloadInv.receiveLoco (hs : DownloadInv s) {name : EngineName} {loco : Locomotive}
    (h : (EngineDownload.receiveLoco name loco).run s = .ok ((), s')) : DownloadInv s' := by
  rw [EngineDownload.receiveLoco, run_get_bind] at h
  split at h
  · rename_i k hrequest
    cases h
    exact hs.setEntry hrequest _ _ _
  · cases h
    exact hs

/-! ### Events -/

/-- An engine command changes nothing of what is known about an engine. -/
theorem availability_engineCall (call : EngineCall) (engineDb : CanEngineDB)
    (k : Fin kMaxNumDbEntries) :
    ((call.run engineDb).entry k).loco.availability = (engineDb.entry k).loco.availability := by
  refine call.run_rel (R := fun entry entry' => entry'.loco.availability = entry.loco.availability)
    (fun _ => rfl) ?_ ?_ ?_ (fun _ => rfl) engineDb k
  · intro velocity entry
    rw [DbEntry.setLocoVelocity]
    split <;> rfl
  · intro functionIdx functionOn entry
    rw [DbEntry.setLocoFunction]
    split <;> rfl
  · intro direction entry
    rw [DbEntry.setLocoDirection]
    split <;> rfl

/-- Flags do not change what is known of an engine. -/
theorem availability_setDiff (engineDb : CanEngineDB) (entryIdx : Fin kMaxNumDbEntries)
    (diff : LocoDiff) (k : Fin kMaxNumDbEntries) :
    ((engineDb.setDiff entryIdx diff).entry k).loco.availability
      = (engineDb.entry k).loco.availability := by
  rw [CanEngineDB.setDiff]
  by_cases hk : entryIdx = k
  · subst hk
    rw [CanEngineDB.entry_setEntry_self]
  · rw [CanEngineDB.entry_setEntry_ne _ hk]

/-- A change of entries that keeps what is known about the engines. -/
theorem DownloadInv.changeEntries (hs : DownloadInv s) {effect : CanEngineDB → CanEngineDB}
    (heffect : ∀ engineDb k, ((effect engineDb).entry k).loco.availability
      = (engineDb.entry k).loco.availability)
    (h : (C6021Light.changeEntries effect).run s = .ok ((), s')) : DownloadInv s' := by
  cases h
  refine hs.of_entries rfl rfl rfl fun _ hknown k => ?_
  rw [isNameOnlyKnown, Locomotive.isNameOnlyKnown, heffect]
  exact hknown k

/-- Every event of the database keeps the invariant. -/
theorem DownloadInv.database (hs : DownloadInv s) (event : DatabaseEvent)
    (h : event.exec.run s = .ok ((), s')) : DownloadInv s' := by
  cases event with
  | setDownloadProtocol downloadProtocol =>
      cases h
      exact hs.of_entries rfl rfl rfl fun _ hknown => hknown
  | handlePingResponse deviceInformation major minor =>
      cases h
      show DownloadInv (s.handlePingResponse deviceInformation major minor)
      rw [EngineDownload.handlePingResponse]
      split
      · exact hs
      · split <;> exact hs.of_entries rfl rfl rfl fun _ hknown => hknown
  | receiveList numEngines engineInfos => exact hs.receiveList h
  | receiveLokInfoShort index info => exact hs.receiveLokInfoShort h
  | receiveLoco name loco => exact hs.receiveLoco h
  | receiveEnd => exact hs.receiveEnd h
  | engineCall call => exact hs.changeEntries (availability_engineCall call) h
  | setDiff entryIdx diff =>
      exact hs.changeEntries (fun engineDb => availability_setDiff engineDb entryIdx diff) h

/-- Every step of the database keeps the invariant. -/
theorem DownloadInv.step (hs : DownloadInv s) (event : DownloadEvent)
    (h : event.exec.run s = .ok ((), s')) : DownloadInv s' := by
  cases event with
  | database event => exact hs.database event h
  | fetchEngineDB =>
      cases h
      exact hs.fetchEngineDB
  | abortCurrentConfigRequest =>
      cases h
      exact ⟨fun _ => rfl, hs.known, hs.requested⟩
  | setCanDbDownload =>
      cases h
      exact hs.of_entries rfl rfl rfl fun _ hknown => hknown
  | clearCanDbDownload =>
      cases h
      exact hs.of_entries rfl rfl rfl fun _ hknown => hknown

/-- Every state that the database reaches has the invariant. -/
theorem downloadInv_of_reachable {statusIndicator : StatusIndicator}
    (h : Reachable DownloadEvent.exec (fun _ => True) { statusIndicator := statusIndicator } s) :
    DownloadInv s :=
  h.invariant _ (downloadInv_start statusIndicator)
    fun _ event _ hs _ hstep => hs.step event hstep

/-- What the detail phase has done after `n` streams. `start` is the state in front of the
stream that ended the list phase, and `begun` the one behind it. -/
structure DetailsFetched (start begun : EngineDownload) (n : Nat) (engineDb : EngineDownload) :
    Prop where
  nameOnly : engineDb.nameOnlyEntries = begun.nameOnlyEntries.drop n
  -- The entries are in ascending order, and none is asked for twice.
  requests : engineDb.requests
    = start.requests ++ (begun.nameOnlyEntries.take (n + 1)).map .engine
  downloading : engineDb.nameOnlyEntries ≠ [] →
    engineDb.dbState = .downloading ∧ engineDb.statusIndicator = start.statusIndicator
  complete : engineDb.nameOnlyEntries = [] →
    engineDb.dbState = .complete ∧
      engineDb.statusIndicator = start.statusIndicator.clearCanDbDownload

/-- The detail phase asks for every engine of which only the name is known, once and in
ascending order, and the database is complete when there is none left. In every state that
the database reaches, a complete one has no such engine. -/
theorem detailPhase_complete (statusIndicator : StatusIndicator) :
    (∀ start begun, EndsListPhase start begun → ∀ streams : List LocoStream,
      begun.nameOnlyEntries.Pairwise (· < ·) ∧
      ∃ engineDb, (forM streams LocoStream.receive).run begun = .ok ((), engineDb) ∧
        DetailsFetched start begun streams.length engineDb) ∧
    (∀ engineDb, Reachable DownloadEvent.exec (fun _ => True)
      { statusIndicator := statusIndicator } engineDb →
        engineDb.dbState = .complete → ∀ k, engineDb.isNameOnlyKnown k = false) := by
  constructor
  · intro start begun hends streams
    -- The list phase ends in `fetchNextEngine`, which asks for the first engine or for none.
    obtain ⟨t, hnone, hrequests, hindicator, rfl⟩ := hends.exists_fetchNextEngine
    obtain ⟨engineDb, hrun, hdetails, hentries, hsent⟩ := LocoStream.exists_forM_receive streams
      t.fetchNextEngine (inDetails_fetchNextEngine hnone)
    refine ⟨pairwise_nameOnlyEntries, engineDb, hrun, hentries, ?_, fun hne => ?_, fun hnil => ?_⟩
    -- The first request comes before the streams, and each stream is followed by the next one.
    · have hfirst : t.fetchNextEngine.requests
          = start.requests ++ (t.nameOnlyEntries.take 1).map .engine := by
        rw [fetchNextEngine_eq hnone, ← hrequests]
      rw [hsent, hfirst, nameOnlyEntries_fetchNextEngine, List.append_assoc, ← List.map_append]
      cases t.nameOnlyEntries <;> simp
    · rw [hdetails.state, hdetails.indicator, if_neg hne, if_neg hne]
      exact ⟨rfl, hindicator⟩
    · rw [hdetails.state, hdetails.indicator, if_pos hnil, if_pos hnil, hindicator]
      exact ⟨rfl, rfl⟩
  -- A complete database has no name without details, in every reachable state.
  · intro engineDb hreachable hcomplete
    exact (downloadInv_of_reachable hreachable).known hcomplete

/-- The protocol with the names in pairs is selected, and a download starts. -/
def namesRequested : EngineDownload :=
  (EngineDownload.setDownloadProtocol {} .loknamen).fetchEngineDB

/-- Two engines of the last chunk. -/
def twoNames : Vector LocomotiveShortInfo 2 :=
  #v[{ name := [⟨65, by decide⟩], availability := .nameOnly },
    { name := [⟨66, by decide⟩], availability := .nameOnly }]

/-- Their details. -/
def twoStreams : List LocoStream :=
  [⟨[⟨65, by decide⟩], { uid := 5, address := 3, availability := .fullDetails }, rfl⟩,
    ⟨[⟨66, by decide⟩], { uid := 6, address := 4, availability := .fullDetails }, rfl⟩]

/-- A list of two names and two streams complete the download with three requests. -/
theorem detailPhase_complete_twoNames :
    ∃ begun engineDb, (receiveList 2 twoNames).run namesRequested = .ok ((), begun) ∧
      (forM twoStreams LocoStream.receive).run begun = .ok ((), engineDb) ∧
      engineDb.dbState = .complete ∧ engineDb.requests = [.engineList 0, .engine 0, .engine 1] := by
  obtain ⟨begun, hbegun⟩ : ∃ begun, (receiveList 2 twoNames).run namesRequested = .ok ((), begun) :=
    ⟨_, rfl⟩
  have hentries : begun.nameOnlyEntries = [0, 1] := by
    cases hbegun
    decide
  obtain ⟨-, engineDb, hrun, hdetails⟩ := (detailPhase_complete {}).1 namesRequested begun
    (.list 2 twoNames rfl (by decide) hbegun) twoStreams
  have hnone : engineDb.nameOnlyEntries = [] := by
    rw [hdetails.nameOnly, hentries]
    rfl
  refine ⟨begun, engineDb, hbegun, hrun, (hdetails.complete hnone).1, ?_⟩
  rw [hdetails.requests, hentries]
  rfl

end EngineDownload

end C6021Light
