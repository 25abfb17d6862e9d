import C6021Light.Proofs.EngineDetails
import C6021Light.Proofs.ListPhase
import C6021Light.Proofs.StartUpRequests

/-!
# `C6021Light.Proofs.WholeDownload`: a download from an honest master

A master with at most 40 engines of different names answers the requests of a "Loknamen" download.
Its answer fits to the current request (`Master.Honest`). Everything else may happen in any order
between the answers: timer expiries and loops of the state machines, frames of other stations,
requests that are given up, streams without a request, a `canEngineDB downloadEngines` of the
console, engine commands and cleared flags.

`Content` says what the database has of the engines: first the names, two at a time, and then the
details, one engine at a time. A new request of the list starts with a free database. `Downloads`
adds what the database waits for, and each step keeps it. `download_exact` shows that no run writes
outside of the database, and that the database is complete only with exactly the engines of the
master, in their order. `download_ends` shows that the answers alone complete a download, and how
many it takes (`Master.left`).
-/

set_option autoImplicit false

namespace C6021Light

open EngineDownload FaultRun ListChunk

/-- A master and its engines. The library keeps names of `kEngineNameLength`. -/
structure Master where
  engines : List (EngineName × Locomotive)
  few : engines.length ≤ kMaxNumDbEntries
  distinct : (engines.map Prod.fst).Nodup
  short : ∀ engine ∈ engines, engine.1.length ≤ kEngineNameLength
  detailed : ∀ engine ∈ engines, engine.2.isNameOnlyKnown = false

namespace Master

variable {master : Master} {s s' t : EngineDownload} {named : Nat} {k : Fin kMaxNumDbEntries}
  {engine : EngineName × Locomotive}

/-- The number of its engines. -/
abbrev size (master : Master) : Nat := master.engines.length

/-- The short info at an offset. It is free behind the last engine. -/
def shortInfo (master : Master) (offset : Nat) : LocomotiveShortInfo :=
  (master.engines[offset]?).elim {} fun engine => { name := engine.1, availability := .nameOnly }

/-- The answer to a list request. -/
def chunk (master : Master) (offset : Nat) : ListChunk where
  numEngines := master.size
  engineInfos := #v[master.shortInfo offset, master.shortInfo (offset + 1)]

/-- The master sends what was asked for, and its version is an old one. -/
def Allows (master : Master) (engineDb : EngineDownload) : DatabaseEvent → Prop
  | .receiveList numEngines engineInfos =>
      engineDb.configRequest = some .listConsumer →
        ListChunk.mk numEngines engineInfos
          = master.chunk engineDb.listConsumer.streamOffset.toNat
  | .receiveLoco name loco =>
      match engineDb.configRequest with
      | some (.locoConsumer k) => (name, loco) ∈ master.engines ∧ name = engineDb.name k
      | _ => True
  | .setDownloadProtocol downloadProtocol => downloadProtocol = .loknamen
  | .handlePingResponse deviceInformation major minor =>
      deviceInformation = 0x0032 → major < 3 ∨ (major = 3 ∧ minor < 55)
  | _ => True

/-- The master's part in an event; the others are free. -/
def Honest (master : Master) (machines : StateMachines) : MachineEvent → Prop
  | .database event => master.Allows machines.canEngineDBStateM.engineDb event
  | _ => True

/-- Whether the master allows an event can be computed. -/
instance (master : Master) (engineDb : EngineDownload) :
    ∀ event, Decidable (master.Allows engineDb event)
  | .receiveList _ _ => inferInstanceAs (Decidable (_ = _ → _ = _))
  | .receiveLoco name loco =>
      match hrequest : engineDb.configRequest with
      | some (.locoConsumer k) =>
          decidable_of_iff ((name, loco) ∈ master.engines ∧ name = engineDb.name k)
            (by rw [Allows, hrequest])
      | some .listConsumer | some .loklisteConsumer | none =>
          .isTrue (by rw [Allows, hrequest]; trivial)
  | .setDownloadProtocol _ => inferInstanceAs (Decidable (_ = _))
  | .handlePingResponse _ _ _ => inferInstanceAs (Decidable (_ = _ → _ ∨ _))
  | .receiveLokInfoShort _ _ | .receiveEnd | .engineCall _ | .setDiff _ _ => .isTrue trivial

/-- So can whether an event is honest. -/
instance (master : Master) (machines : StateMachines) :
    ∀ event, Decidable (master.Honest machines event)
  | .database event => inferInstanceAs (Decidable (master.Allows _ event))
  | .startRequestingStopGo | .startRequestingEngineDB | .stopGoTimerCallback
  | .canEngineDBTimerCallback | .stopGoLoop | .notifyEngineDBComplete | .canEngineDBLoop
  | .handlePacket _ | .downloadEngines => .isTrue trivial

/-! ### The content of the database -/

/-- The engine that was downloaded. Its velocity, direction and functions are commanded. -/
structure SameEngine (loco loco' : Locomotive) : Prop where
  availability : loco.availability = loco'.availability
  uid : loco.uid = loco'.uid
  address : loco.address = loco'.address

/-- Commands that come one after the other keep the engine. -/
theorem SameEngine.trans {loco loco' loco'' : Locomotive} (h : SameEngine loco loco')
    (h' : SameEngine loco' loco'') : SameEngine loco loco'' :=
  ⟨h.availability.trans h'.availability, h.uid.trans h'.uid, h.address.trans h'.address⟩

/-- The entry of an engine has its name, and either nothing else yet or its details. -/
structure EntryOf (engine : EngineName × Locomotive) (s : EngineDownload)
    (k : Fin kMaxNumDbEntries) : Prop where
  name : s.name k = engine.1
  known : (s.entry k).loco.availability = .nameOnly ∨ SameEngine (s.entry k).loco engine.2

/-- The first engines have an entry, in their order. The other entries are free. -/
structure Content (master : Master) (named : Nat) (s : EngineDownload) : Prop where
  named_le : named ≤ master.size
  free : ∀ k : Fin kMaxNumDbEntries, named ≤ k → s.isFree k = true
  entry : ∀ (k : Fin kMaxNumDbEntries) (engine : EngineName × Locomotive), (k : Nat) < named →
    master.engines[(k : Nat)]? = some engine → EntryOf engine s k

/-- The database has exactly the engines of the master, with their details. -/
def Exact (master : Master) (s : EngineDownload) : Prop :=
  ∀ k : Fin kMaxNumDbEntries,
    match master.engines[(k : Nat)]? with
    | some engine => s.name k = engine.1 ∧ SameEngine (s.entry k).loco engine.2
    | none => s.isFree k = true

/-- The entries stay the same, apart from what engine commands change. -/
def SameEngines (s s' : EngineDownload) : Prop :=
  ∀ k, s'.name k = s.name k ∧ SameEngine (s'.entry k).loco (s.entry k).loco

/-- A free entry, by its availability. -/
theorem isFree_iff : s.isFree k = true ↔ (s.entry k).loco.availability = .free :=
  decide_eq_true_iff

/-- An entry with only its name, by its availability. -/
theorem isNameOnlyKnown_iff :
    s.isNameOnlyKnown k = true ↔ (s.entry k).loco.availability = .nameOnly :=
  decide_eq_true_iff

/-- What leaves every entry alone leaves every engine alone. -/
theorem SameEngines.of_sameEntry (h : ∀ k, SameEntry s s' k) : SameEngines s s' := fun k =>
  ⟨(h k).2, by rw [(h k).1]; exact ⟨rfl, rfl, rfl⟩⟩

/-- A command does not give an engine its details. -/
theorem SameEngines.isNameOnlyKnown (h : SameEngines s s') (k : Fin kMaxNumDbEntries) :
    s'.isNameOnlyKnown k = s.isNameOnlyKnown k := by
  rw [EngineDownload.isNameOnlyKnown, EngineDownload.isNameOnlyKnown, Locomotive.isNameOnlyKnown,
    Locomotive.isNameOnlyKnown, (h k).2.availability]

/-- The content of the database does not depend on commands. -/
theorem Content.same (h : Content master named s) (hsame : SameEngines s s') :
    Content master named s' where
  named_le := h.named_le
  free k hk := by
    rw [isFree_iff, (hsame k).2.availability, ← isFree_iff]
    exact h.free k hk
  entry k engine hk hget := by
    have hentry := h.entry k engine hk hget
    exact ⟨(hsame k).1.trans hentry.name, hentry.known.imp (hsame k).2.availability.trans
      (hsame k).2.trans⟩

/-- A cleared database has none of the engines. -/
theorem content_clear (master : Master) (s : EngineDownload) : Content master 0 s.clear where
  named_le := Nat.zero_le _
  free k _ := by
    rw [isFree_iff]
    simp [clear, CanEngineDB.entry]
  entry _ _ hk _ := absurd hk (Nat.not_lt_zero _)

/-- Behind the list the entries that are not free are those of the engines. -/
theorem Content.lt_of_isNameOnlyKnown (h : Content master named s)
    (hk : s.isNameOnlyKnown k = true) : (k : Nat) < named := by
  refine Nat.lt_of_not_le fun hle => ?_
  have hfree := isFree_iff.mp (h.free k hle)
  rw [isNameOnlyKnown_iff.mp hk] at hfree
  cases hfree

/-- With all engines named and none without details the database is exact. -/
theorem Content.exact (h : Content master master.size s)
    (hknown : ∀ k, s.isNameOnlyKnown k = false) : Exact master s := by
  intro k
  cases hget : master.engines[(k : Nat)]? with
  | none => exact h.free k (List.getElem?_eq_none_iff.mp hget)
  | some engine =>
      have hentry := h.entry k engine (List.getElem?_eq_some_iff.mp hget).1 hget
      refine ⟨hentry.name, hentry.known.resolve_left fun hname => ?_⟩
      have hfalse := hknown k
      rw [isNameOnlyKnown_iff.mpr hname] at hfalse
      cases hfalse

/-! ### Names -/

/-- The next name. -/
theorem Content.storeName (h : Content master named s)
    (hget : master.engines[named]? = some engine) (hk : named < kMaxNumDbEntries) :
    Content master (named + 1) (s.storeName ⟨named, hk⟩ engine.1) where
  named_le := (List.getElem?_eq_some_iff.mp hget).1
  free k hle := by
    have hne : (⟨named, hk⟩ : Fin kMaxNumDbEntries) ≠ k := fun heq => by
      rw [← heq] at hle
      exact absurd hle (Nat.not_succ_le_self named)
    rw [(sameEntry_storeName_ne hne engine.1).isFree]
    exact h.free k (Nat.le_of_succ_le hle)
  entry k engine' hlt hget' := by
    by_cases heq : (⟨named, hk⟩ : Fin kMaxNumDbEntries) = k
    · subst heq
      cases hget.symm.trans hget'
      refine ⟨?_, .inl ?_⟩
      · rw [EngineDownload.storeName, name_setEntry_self]
        exact List.take_of_length_le (master.short engine (List.mem_of_getElem? hget))
      · rw [EngineDownload.storeName, entry_setEntry_self]
    · have hne : (k : Nat) ≠ named := fun hval => heq (Fin.ext hval.symm)
      obtain ⟨hentry, hname⟩ := @sameEntry_storeName_ne s _ _ heq engine.1
      have hold := h.entry k engine' (by omega) hget'
      exact ⟨hname.trans hold.name, by rw [hentry]; exact hold.known⟩

/-- Two engines with one name are the same engine. -/
theorem index_eq_of_name_eq {i j : Nat} {engine' : EngineName × Locomotive}
    (hi : master.engines[i]? = some engine) (hj : master.engines[j]? = some engine')
    (hname : engine.1 = engine'.1) : i = j := by
  refine (List.getElem?_inj ?_ master.distinct).mp ?_
  · rw [List.length_map]
    exact (List.getElem?_eq_some_iff.mp hi).1
  · rw [List.getElem?_map, List.getElem?_map, hi, hj, Option.map_some, Option.map_some, hname]

/-- The next name is not in the database. -/
theorem Content.hasEngine_eq_false (h : Content master named s)
    (hget : master.engines[named]? = some engine) : s.hasEngine engine.1 = false := by
  rw [EngineDownload.hasEngine, hasEngineFrom_eq, List.any_eq_false]
  intro k _ hkey
  rw [decide_eq_true_iff] at hkey
  cases hfree : s.isFree k with
  | true =>
      rw [table_of_free hfree] at hkey
      cases hkey
  | false =>
      have hlt : (k : Nat) < named := Nat.lt_of_not_le fun hle => by
        rw [h.free k hle] at hfree
        cases hfree
      obtain ⟨other, hother⟩ : ∃ other, master.engines[(k : Nat)]? = some other :=
        ⟨_, List.getElem?_eq_getElem (Nat.lt_of_lt_of_le hlt h.named_le)⟩
      rw [table_of_notFree hfree, Option.some.injEq, (h.entry k other hlt hother).name, nameKey,
        nameKey, List.take_of_length_le (master.short other (List.mem_of_getElem? hother)),
        List.take_of_length_le (master.short engine (List.mem_of_getElem? hget))] at hkey
      exact absurd (index_eq_of_name_eq hother hget hkey) (Nat.ne_of_lt hlt)

/-- One short info of the answer. It is free, or it is the next name. -/
theorem Content.storeShortInfo (h : Content master named s) {o : Byte} (ho : o.toNat = named)
    (rest : List LocomotiveShortInfo) :
    (master.engines[named]? = none ∧
        (storeShortInfos (master.shortInfo named :: rest) o).run s
          = (storeShortInfos rest o).run s) ∨
      ∃ t, Content master (named + 1) t ∧ (o + 1).toNat = named + 1 ∧
        (storeShortInfos (master.shortInfo named :: rest) o).run s
          = (storeShortInfos rest (o + 1)).run t := by
  rw [shortInfo]
  cases hget : master.engines[named]? with
  | none => exact .inl ⟨rfl, storeShortInfos_run_of_known (.inl rfl) rest o⟩
  | some engine =>
      have hlt : named < kMaxNumDbEntries :=
        Nat.lt_of_lt_of_le (List.getElem?_eq_some_iff.mp hget).1 master.few
      subst ho
      exact .inr ⟨_, h.storeName hget hlt, toNat_add_one_of_lt hlt,
        storeShortInfos_run_of_new rfl (h.hasEngine_eq_false hget) rest hlt⟩

/-- The answer to a list request brings the next two names. -/
theorem Content.storeChunk (h : Content master named s) {o : Byte} (ho : o.toNat = named) :
    ∃ t, (storeShortInfos (master.chunk named).engineInfos.toList o).run s = .ok ((), t) ∧
      Content master (min (named + 2) master.size) t := by
  show ∃ t, (storeShortInfos [master.shortInfo named, master.shortInfo (named + 1)] o).run s
    = .ok ((), t) ∧ _
  -- The chunk has two infos. Either of them may be behind the end of the master's list.
  obtain ⟨hnone, hrun⟩ | ⟨t, ht, ho', hrun⟩ := h.storeShortInfo ho [master.shortInfo (named + 1)]
  · have hsize : master.size ≤ named := List.getElem?_eq_none_iff.mp hnone
    have hnone' : master.engines[named + 1]? = none :=
      List.getElem?_eq_none_iff.mpr (Nat.le_succ_of_le hsize)
    have hmin : min (named + 2) master.size = named := by
      have hle := h.named_le
      omega
    -- The second info is behind the end as well, and a free one is not stored.
    have hfree : (master.shortInfo (named + 1)).isFree = true := by
      rw [shortInfo, hnone']
      rfl
    rw [hrun, storeShortInfos_run_of_known (.inl hfree), hmin]
    exact ⟨s, rfl, h⟩
  · rw [hrun]
    -- The first name was stored. The second one is stored, too, or it is behind the end.
    obtain ⟨hnone, hrun'⟩ | ⟨t', ht', -, hrun'⟩ := ht.storeShortInfo ho' []
    · have hmin : min (named + 2) master.size = named + 1 := by
        have hle := ht.named_le
        have hsize : master.size ≤ named + 1 := List.getElem?_eq_none_iff.mp hnone
        omega
      rw [hrun', hmin]
      exact ⟨t, rfl, ht⟩
    · have hmin : min (named + 2) master.size = named + 2 := by
        have hle : named + 1 + 1 ≤ master.size := ht'.named_le
        omega
      rw [hrun', hmin]
      exact ⟨t', rfl, ht'⟩

/-! ### What the database waits for -/

/-- A list request goes on behind the names that are stored. The details come behind the names. -/
def Waits (master : Master) (named : Nat) (s : EngineDownload) : Prop :=
  match s.configRequest with
  | some .listConsumer =>
      s.dbState = .downloading ∧ s.listConsumer.streamOffset.toNat = named
  | some (.locoConsumer k) =>
      s.dbState = .downloading ∧ named = master.size ∧ (k : Nat) < master.size
  | some .loklisteConsumer => False
  | none =>
      s.dbState = .complete → named = master.size ∧ ∀ k, s.isNameOnlyKnown k = false

/-- The invariant of a download from this master. Nothing is requested before the protocol is
known. -/
structure Downloads (master : Master) (s : EngineDownload) : Prop where
  content : ∃ named, Content master named s ∧ Waits master named s
  protocol : s.downloadProtocol = .loknamen ∨
    (s.downloadProtocol = .unknown ∧ s.dbState = .empty ∧ s.configRequest = none)

/-- The database at start-up waits for a download. -/
theorem downloads_start (master : Master) (statusIndicator : StatusIndicator) :
    Downloads master { statusIndicator := statusIndicator } where
  content := ⟨0, content_clear master { statusIndicator := statusIndicator },
    fun hcomplete => by cases hcomplete⟩
  protocol := .inr ⟨rfl, rfl, rfl⟩

/-- A complete download is exact. -/
theorem Downloads.exact (h : Downloads master s) (hcomplete : s.dbState = .complete) :
    Exact master s := by
  obtain ⟨named, hcontent, hwaits⟩ := h.content
  rw [Waits] at hwaits
  split at hwaits
  · cases hcomplete.symm.trans hwaits.1
  · cases hcomplete.symm.trans hwaits.1
  · exact hwaits.elim
  · obtain ⟨rfl, hknown⟩ := hwaits hcomplete
    exact hcontent.exact hknown

/-- A request that was sent shows that the protocol is known. -/
theorem Downloads.loknamen (h : Downloads master s) {consumer : ConfigDataConsumer}
    (hrequest : s.configRequest = some consumer) : s.downloadProtocol = .loknamen :=
  h.protocol.resolve_right fun hnone => Option.some_ne_none _ (hrequest.symm.trans hnone.2.2)

/-! ### Steps -/

/-- A step that changes no more than engine commands, the status indicator and the rest of what a
download does not read. -/
theorem Downloads.of_same (h : Downloads master s) (hsame : SameEngines s s')
    (hstate : s'.dbState = s.dbState) (hrequest : s'.configRequest = s.configRequest)
    (hlist : s'.listConsumer = s.listConsumer)
    (hprotocol : s'.downloadProtocol = s.downloadProtocol ∨ s'.downloadProtocol = .loknamen) :
    Downloads master s' where
  content := by
    obtain ⟨named, hcontent, hwaits⟩ := h.content
    refine ⟨named, hcontent.same hsame, ?_⟩
    rw [Waits, hrequest, hstate, hlist]
    rw [Waits] at hwaits
    split
    · next hreq => rwa [hreq] at hwaits
    · next hreq => rwa [hreq] at hwaits
    · next hreq => rwa [hreq] at hwaits
    · next hreq =>
        rw [hreq] at hwaits
        exact fun hcomplete => (hwaits hcomplete).imp id fun hknown k =>
          (hsame.isNameOnlyKnown k).trans (hknown k)
  protocol := by
    obtain hprotocol | hprotocol := hprotocol
    · rw [hprotocol, hstate, hrequest]
      exact h.protocol
    · exact .inl hprotocol

/-- A request that is aborted leaves the content. -/
theorem Downloads.endRequest (h : Downloads master s) : Downloads master s.endRequest := by
  obtain ⟨named, hcontent, hwaits⟩ := h.content
  refine ⟨⟨named, hcontent.same (SameEngines.of_sameEntry fun _ => ⟨rfl, rfl⟩), ?_⟩,
    h.protocol.imp id fun hnone => ⟨hnone.1, hnone.2.1, rfl⟩⟩
  intro hcomplete
  have hcomplete' : s.dbState = .complete := hcomplete
  rw [Waits] at hwaits
  split at hwaits
  · cases hcomplete'.symm.trans hwaits.1
  · cases hcomplete'.symm.trans hwaits.1
  · exact hwaits.elim
  · exact hwaits hcomplete'

/-- A new download starts with a free database. -/
theorem Downloads.fetchEngineDB (h : Downloads master s) : Downloads master s.fetchEngineDB := by
  have hclear := content_clear master s
  rw [EngineDownload.fetchEngineDB]
  obtain hloknamen | ⟨hunknown, hempty, hnone⟩ := h.protocol
  · have hclear' : s.clear.downloadProtocol = .loknamen := hloknamen
    simp only [hclear']
    exact ⟨⟨0, hclear.same (SameEngines.of_sameEntry fun _ => ⟨rfl, rfl⟩), rfl, rfl⟩, .inl hclear'⟩
  · have hclear' : s.clear.downloadProtocol = .unknown := hunknown
    have hempty' : s.clear.dbState = .empty := hempty
    have hnone' : s.clear.configRequest = none := hnone
    simp only [hclear']
    refine ⟨⟨0, hclear, ?_⟩, .inr ⟨hclear', hempty', hnone'⟩⟩
    rw [Waits, hnone']
    intro hcomplete
    cases hempty'.symm.trans hcomplete

/-- Behind the list the next engine is asked for, or the download is complete. -/
theorem downloads_fetchNextEngine (h : Content master master.size s)
    (hnone : s.configRequest = none) (hprotocol : s.downloadProtocol = .loknamen) :
    Downloads master s.fetchNextEngine := by
  have hsame : SameEngines s s.fetchNextEngine := SameEngines.of_sameEntry sameEntry_fetchNextEngine
  have hcontent := h.same hsame
  rw [fetchNextEngine] at hcontent hsame ⊢
  cases hfind : s.findFirstIncompleteEngine with
  | some k =>
      have hk : s.isNameOnlyKnown k = true := List.find?_some hfind
      simp only [hfind] at hcontent
      exact ⟨⟨_, hcontent, rfl, rfl, h.lt_of_isNameOnlyKnown hk⟩, .inl hprotocol⟩
  | none =>
      simp only [hfind] at hcontent hsame
      refine ⟨⟨_, hcontent, ?_⟩, .inl hprotocol⟩
      rw [Waits, show _ = none from hnone]
      refine fun _ => ⟨rfl, fun k => (hsame.isNameOnlyKnown k).trans ?_⟩
      exact Bool.eq_false_iff.mpr (List.find?_eq_none.mp hfind k (List.mem_finRange k))

/-- The answer to a list request is stored, and then the next request goes out. -/
theorem Downloads.receiveChunk (h : Downloads master s)
    (hrequest : s.configRequest = some .listConsumer) :
    ∃ t, (EngineDownload.receiveList master.size
          (master.chunk s.listConsumer.streamOffset.toNat).engineInfos).run s
        = .ok ((), t.requestNext (s.listConsumer.streamOffset.toNat + 2) master.size) ∧
      Content master (min (s.listConsumer.streamOffset.toNat + 2) master.size) t ∧
      t.configRequest = none ∧ t.downloadProtocol = .loknamen := by
  obtain ⟨named, hcontent, hwaits⟩ := h.content
  rw [Waits, hrequest] at hwaits
  obtain ⟨-, rfl⟩ := hwaits
  have hlist : Content master s.listConsumer.streamOffset.toNat (s.withList master.size
      (master.chunk s.listConsumer.streamOffset.toNat).engineInfos) :=
    hcontent.same (SameEngines.of_sameEntry fun _ => ⟨rfl, rfl⟩)
  obtain ⟨t, hrun, ht⟩ := hlist.storeChunk rfl
  obtain ⟨hframe, -⟩ := storeShortInfos_frame _ _ _ _ hrun
  refine ⟨t, ?_, ht, congrArg EngineDownload.configRequest hframe,
    (congrArg EngineDownload.downloadProtocol hframe).trans (h.loknamen hrequest)⟩
  rw [receiveList_run hrequest, hrun]
  rfl

/-- After a chunk the next one is requested, or the details of the first engine. -/
theorem downloads_requestNext {offset : Nat} (h : Content master (min (offset + 2) master.size) s)
    (hnone : s.configRequest = none) (hprotocol : s.downloadProtocol = .loknamen) :
    Downloads master (s.requestNext (offset + 2) master.size) := by
  rw [requestNext]
  split
  · next hend =>
      rw [Nat.min_eq_right hend] at h
      exact downloads_fetchNextEngine h hnone hprotocol
  · next hmore =>
      have hlt : offset + 2 < master.size := Nat.lt_of_not_le hmore
      have hfew : master.size ≤ 40 := master.few
      rw [Nat.min_eq_left hlt.le] at h
      refine ⟨⟨_, h.same (SameEngines.of_sameEntry fun _ => ⟨rfl, rfl⟩), rfl, ?_⟩, .inl hprotocol⟩
      show (BitVec.ofNat 8 _).toNat = _
      rw [BitVec.toNat_ofNat, Nat.mod_eq_of_lt (by omega)]

/-- An honest chunk names the next two engines. -/
theorem Downloads.receiveList (h : Downloads master s) {numEngines : Nat}
    {engineInfos : Vector LocomotiveShortInfo kEngineBrowserEntries}
    (hallows : master.Allows s (.receiveList numEngines engineInfos)) :
    ∃ s', (receiveList numEngines engineInfos).run s = .ok ((), s') ∧ Downloads master s' := by
  by_cases hrequest : s.configRequest = some .listConsumer
  · obtain ⟨rfl, rfl⟩ : numEngines = master.size ∧
        engineInfos = (master.chunk s.listConsumer.streamOffset.toNat).engineInfos :=
      ⟨congrArg ListChunk.numEngines (hallows hrequest),
        congrArg ListChunk.engineInfos (hallows hrequest)⟩
    obtain ⟨t, hrun, ht, hnone, hprotocol⟩ := h.receiveChunk hrequest
    exact ⟨_, hrun, downloads_requestNext ht hnone hprotocol⟩
  · exact ⟨s, receiveList_run_of_other hrequest _ _, h⟩

/-- The details of an engine. -/
theorem Content.storeLoco (h : Content master named s) (hk : (k : Nat) < named)
    {loco : Locomotive} (hmem : (s.name k, loco) ∈ master.engines) :
    Content master named (s.setEntry k (s.name k) { s.entry k with loco := loco }) where
  named_le := h.named_le
  free j hj := by
    have hne : k ≠ j := fun heq => absurd hj (Nat.not_le.mpr (heq ▸ hk))
    rw [isFree_iff, entry_setEntry_ne hne, ← isFree_iff]
    exact h.free j hj
  entry j engine hj hget := by
    by_cases heq : k = j
    · subst heq
      obtain ⟨i, hi⟩ := List.getElem?_of_mem hmem
      have hname := (h.entry k engine hj hget).name
      rw [index_eq_of_name_eq hi hget hname, hget] at hi
      cases hi
      exact ⟨name_setEntry_self _ _ _, .inr (by rw [entry_setEntry_self]; exact ⟨rfl, rfl, rfl⟩)⟩
    · obtain ⟨hname, hknown⟩ := h.entry j engine hj hget
      exact ⟨(name_setEntry_ne heq _ _).trans hname, by rw [entry_setEntry_ne heq]; exact hknown⟩

/-- A stream for an engine stores it, and anything else is not for the database. -/
theorem Downloads.receiveLoco (h : Downloads master s) {name : EngineName} {loco : Locomotive}
    (hallows : master.Allows s (.receiveLoco name loco)) :
    ∃ s', (receiveLoco name loco).run s = .ok ((), s') ∧ Downloads master s' := by
  rw [EngineDownload.receiveLoco, run_get_bind]
  rw [Allows] at hallows
  split
  · next k hrequest =>
      rw [hrequest] at hallows
      obtain ⟨hmem, rfl⟩ := hallows
      refine ⟨_, rfl, ?_⟩
      obtain ⟨named, hcontent, hwaits⟩ := h.content
      rw [Waits, hrequest] at hwaits
      obtain ⟨hstate, rfl, hk⟩ := hwaits
      refine ⟨⟨_, hcontent.storeLoco hk hmem, ?_⟩, .inl (h.loknamen hrequest)⟩
      have hrequest' : (s.setEntry k (s.name k) { s.entry k with loco := loco }).configRequest
          = some (.locoConsumer k) := hrequest
      rw [Waits, hrequest']
      exact ⟨hstate, rfl, hk⟩
  · exact ⟨s, rfl, h⟩

/-- The end of a stream for an engine. -/
theorem Downloads.receiveEnd (h : Downloads master s) :
    ∃ s', receiveEnd.run s = .ok ((), s') ∧ Downloads master s' := by
  obtain ⟨named, hcontent, hwaits⟩ := h.content
  rw [Waits] at hwaits
  split at hwaits
  · next hrequest => exact ⟨s, by rw [EngineDownload.receiveEnd, run_get_bind, hrequest]; rfl, h⟩
  · next k hrequest =>
      obtain ⟨-, rfl, -⟩ := hwaits
      have hend := hcontent.same (@SameEngines.of_sameEntry s s.endRequest fun _ => ⟨rfl, rfl⟩)
      exact ⟨_, receiveEnd_run_of_loco hrequest,
        downloads_fetchNextEngine hend rfl (h.loknamen hrequest)⟩
  · exact hwaits.elim
  · next hrequest => exact ⟨s, receiveEnd_run_of_none hrequest, h⟩

/-- The whole list is never asked for. -/
theorem Downloads.not_lokliste (h : Downloads master s) :
    s.configRequest ≠ some .loklisteConsumer := by
  intro hlokliste
  obtain ⟨named, -, hwaits⟩ := h.content
  rw [Waits, hlokliste] at hwaits
  exact hwaits

/-- The whole list is never asked for, so a short info has no effect. -/
theorem Downloads.receiveLokInfoShort (h : Downloads master s) (index : Nat)
    (info : LocomotiveShortInfo) :
    (receiveLokInfoShort index info).run s = .ok ((), s) := by
  show (if s.configRequest = some .loklisteConsumer then _ else _ : DownloadRun Unit).run s = _
  rw [if_neg h.not_lokliste]
  rfl

/-! ### Engine commands -/

/-- A command changes no engine. -/
theorem sameEngine_engineCall (call : EngineCall) (engineDb : CanEngineDB)
    (k : Fin kMaxNumDbEntries) :
    SameEngine ((call.run engineDb).entry k).loco (engineDb.entry k).loco := by
  refine call.run_rel (R := fun entry entry' => SameEngine entry'.loco entry.loco)
    (fun _ => ⟨rfl, rfl, rfl⟩) ?_ ?_ ?_ (fun _ => ⟨rfl, rfl, rfl⟩) engineDb k
  · intro velocity entry
    rw [DbEntry.setLocoVelocity]
    split <;> exact ⟨rfl, rfl, rfl⟩
  · intro functionIdx functionOn entry
    rw [DbEntry.setLocoFunction]
    split <;> exact ⟨rfl, rfl, rfl⟩
  · intro direction entry
    rw [DbEntry.setLocoDirection]
    split <;> exact ⟨rfl, rfl, rfl⟩

/-- Flags change no engine. -/
theorem sameEngine_setDiff (engineDb : CanEngineDB) (entryIdx : Fin kMaxNumDbEntries)
    (diff : LocoDiff) (k : Fin kMaxNumDbEntries) :
    SameEngine ((engineDb.setDiff entryIdx diff).entry k).loco (engineDb.entry k).loco := by
  rw [CanEngineDB.setDiff]
  by_cases hk : entryIdx = k
  · subst hk
    rw [CanEngineDB.entry_setEntry_self]
    exact ⟨rfl, rfl, rfl⟩
  · rw [CanEngineDB.entry_setEntry_ne _ hk]
    exact ⟨rfl, rfl, rfl⟩

/-- What changes no engine keeps the invariant. -/
theorem Downloads.changeEntries (h : Downloads master s) {effect : CanEngineDB → CanEngineDB}
    (heffect : ∀ engineDb k, SameEngine ((effect engineDb).entry k).loco (engineDb.entry k).loco) :
    ∃ s', (C6021Light.changeEntries effect).run s = .ok ((), s') ∧ Downloads master s' :=
  ⟨_, rfl, h.of_same (fun k => ⟨rfl, heffect _ k⟩) rfl rfl rfl (.inl rfl)⟩

/-! ### Runs -/

/-- Every honest event of the database returns and keeps the invariant. -/
theorem Downloads.database (h : Downloads master s) (event : DatabaseEvent)
    (hallows : master.Allows s event) :
    ∃ s', event.exec.run s = .ok ((), s') ∧ Downloads master s' := by
  have hsame : SameEngines s s := SameEngines.of_sameEntry fun _ => ⟨rfl, rfl⟩
  cases event with
  | setDownloadProtocol downloadProtocol =>
      exact ⟨_, rfl, h.of_same hsame rfl rfl rfl (.inr hallows)⟩
  | handlePingResponse deviceInformation major minor =>
      refine ⟨_, rfl, ?_⟩
      show Downloads master (s.handlePingResponse deviceInformation major minor)
      rw [EngineDownload.handlePingResponse]
      split
      · exact h
      · next hdevice =>
          rw [if_pos (hallows (not_not.mp hdevice))]
          exact h.of_same hsame rfl rfl rfl (.inr rfl)
  | receiveList numEngines engineInfos => exact h.receiveList hallows
  | receiveLokInfoShort index info => exact ⟨s, h.receiveLokInfoShort index info, h⟩
  | receiveLoco name loco => exact h.receiveLoco hallows
  | receiveEnd => exact h.receiveEnd
  | engineCall call => exact h.changeEntries (sameEngine_engineCall call)
  | setDiff entryIdx diff =>
      exact h.changeEntries fun engineDb => sameEngine_setDiff engineDb entryIdx diff

/-! ### The state machines -/

/-- The status indicator is not read by a download. -/
theorem Downloads.indicator (h : Downloads master s) (effect : StatusIndicator → StatusIndicator) :
    Downloads master { s with statusIndicator := effect s.statusIndicator } :=
  h.of_same (SameEngines.of_sameEntry fun _ => ⟨rfl, rfl⟩) rfl rfl rfl (.inl rfl)

section

variable {machine : CanEngineDBStateMachine} (h : Downloads master machine.engineDb)

include h

/-- A restart sets the indicator only. -/
theorem Downloads.startRequesting : Downloads master machine.startRequesting.engineDb := by
  rw [CanEngineDBStateMachine.startRequesting]
  split <;> exact h.indicator _

/-- A stop clears the indicator only. -/
theorem Downloads.stopRequesting : Downloads master machine.stopRequesting.engineDb :=
  h.indicator _

/-- An expiry restarts, stops, or asks for the list from its start. -/
theorem Downloads.handleTimer : Downloads master machine.handleTimer.engineDb := by
  rw [CanEngineDBStateMachine.handleTimer]
  split
  · split
    · exact h.startRequesting
    · split
      · exact h
      · exact h.stopRequesting
  · split
    · exact h.endRequest.fetchEngineDB
    · exact h.stopRequesting
  · exact h
  · exact h

/-- The loop handles a latched expiry or does nothing. -/
theorem Downloads.loop : Downloads master machine.loop.engineDb := by
  rw [CanEngineDBStateMachine.loop]
  split
  · exact h.handleTimer
  · exact h

/-- A packet does not touch the database. -/
theorem Downloads.handlePacket (frame : PacketInfo) :
    Downloads master (machine.handlePacket frame).engineDb := by
  rw [CanEngineDBStateMachine.handlePacket]
  split <;> exact h

/-- The end of a download clears the indicator only. -/
theorem Downloads.notifyEngineDBComplete :
    Downloads master machine.notifyEngineDBComplete.engineDb := by
  rw [CanEngineDBStateMachine.notifyEngineDBComplete]
  split
  · exact h.stopRequesting
  · exact h

end

/-- Every step that the master allows completes, and keeps the invariant. -/
theorem Downloads.step (event : MachineEvent) (machines : StateMachines)
    (h : Downloads master machines.canEngineDBStateM.engineDb)
    (hhonest : master.Honest machines event) :
    ∃ machines', event.exec.run machines = .ok (⟨⟩, machines') ∧
      Downloads master machines'.canEngineDBStateM.engineDb := by
  cases event with
  | startRequestingStopGo => exact ⟨_, rfl, h⟩
  | startRequestingEngineDB => exact ⟨_, rfl, h.startRequesting⟩
  | stopGoTimerCallback => exact ⟨_, rfl, h⟩
  | canEngineDBTimerCallback => exact ⟨_, rfl, h⟩
  | stopGoLoop => exact ⟨_, rfl, h⟩
  | notifyEngineDBComplete => exact ⟨_, rfl, h.notifyEngineDBComplete⟩
  | canEngineDBLoop => exact ⟨_, rfl, h.loop⟩
  | handlePacket frame => exact ⟨_, rfl, h.handlePacket frame⟩
  | database event =>
      obtain ⟨engineDb, hrun, h'⟩ := h.database event hhonest
      refine ⟨{ machines with
        canEngineDBStateM := { machines.canEngineDBStateM with engineDb := engineDb } }, ?_, h'⟩
      rw [MachineEvent.exec, StateMachines.onEngineDb_run, hrun]
      rfl
  | downloadEngines => exact ⟨_, rfl, (h.indicator StatusIndicator.setCanDbDownload).fetchEngineDB⟩

/-- Whatever comes between the answers of the master, the download does not write outside of the
database. What it has stored are the first engines of the master, each one at its place, and when it
is complete, these are all engines with their details. -/
theorem download_exact (master : Master) (tries : Nat) {events : List MachineEvent}
    (hhonest : Guarded MachineEvent.exec master.Honest (.start tries) events) :
    ∃ machines, (forM events MachineEvent.exec).run (.start tries) = .ok (⟨⟩, machines) ∧
      (∃ named, Content master named machines.canEngineDBStateM.engineDb) ∧
      (machines.canEngineDBStateM.engineDb.isComplete = true →
        Exact master machines.canEngineDBStateM.engineDb) := by
  obtain ⟨machines, hrun, h⟩ := exists_run_of_guarded MachineEvent.exec Downloads.step events
    (.start tries) (downloads_start master {}) hhonest
  obtain ⟨named, hcontent, -⟩ := h.content
  exact ⟨machines, hrun, ⟨named, hcontent⟩, fun hcomplete => h.exact (of_decide_eq_true hcomplete)⟩

/-- Three engines. The list takes two chunks. -/
def threeEngines : Master where
  engines := [(nameOf 1, { uid := 5, address := 3, availability := .fullDetails }),
    (nameOf 2, { uid := 6, address := 4, availability := .fullDetails }),
    (nameOf 3, { uid := 7, address := 5, availability := .fullDetails })]
  few := by decide
  distinct := by decide
  short := by decide
  detailed := by decide

/-- The stream for an engine. -/
def locoEvents (engine : EngineName × Locomotive) : List MachineEvent :=
  [.database (.receiveLoco engine.1 engine.2), .database .receiveEnd]

/-- Their download. The second expiry starts it again. -/
def threeDownload : List MachineEvent :=
  [.startRequestingEngineDB, .database (.handlePingResponse 0x0032 3 54),
    .canEngineDBTimerCallback, .canEngineDBLoop, .canEngineDBTimerCallback, .canEngineDBLoop,
    .canEngineDBTimerCallback, .canEngineDBLoop,
    .database (.receiveList 3 (threeEngines.chunk 0).engineInfos),
    .database (.receiveList 3 (threeEngines.chunk 2).engineInfos)]
    ++ threeEngines.engines.flatMap locoEvents

/-- The master with three engines answers honestly in the run. -/
theorem honest_threeDownload :
    Guarded MachineEvent.exec threeEngines.Honest (.start 0) threeDownload := by
  decide +kernel

/-- The run ends with the three engines and their details. -/
theorem download_exact_three :
    ∃ machines, (forM threeDownload MachineEvent.exec).run (.start 0) = .ok (⟨⟩, machines) ∧
      machines.canEngineDBStateM.engineDb.isComplete = true ∧
      Exact threeEngines machines.canEngineDBStateM.engineDb := by
  obtain ⟨machines, hrun, hcomplete⟩ :=
    exists_run_of_observed (x := forM threeDownload MachineEvent.exec) (s := .start 0)
      (fun machines => machines.canEngineDBStateM.engineDb.isComplete)
      (show _ = some true by decide +kernel)
  obtain ⟨machines', hrun', -, hexact⟩ := download_exact threeEngines 0 honest_threeDownload
  cases hrun.symm.trans hrun'
  exact ⟨machines, hrun, hcomplete, hexact hcomplete⟩

/-! ### The end of a download -/

/-- What the master sends for the current request. -/
def answer (master : Master) (engineDb : EngineDownload) : List DatabaseEvent :=
  match engineDb.configRequest with
  | some .listConsumer =>
      let chunk := master.chunk engineDb.listConsumer.streamOffset.toNat
      [.receiveList chunk.numEngines chunk.engineInfos]
  | some (.locoConsumer k) =>
      (master.engines[(k : Nat)]?).elim [] fun engine =>
        [.receiveLoco engine.1 engine.2, .receiveEnd]
  | _ => []

/-- Some answers, one after the other. -/
def answers (master : Master) : Nat → DownloadRun PUnit
  | 0 => pure ⟨⟩
  | n + 1 => do
      forM (master.answer (← get)) DatabaseEvent.exec
      answers master n

/-- The number of answers that a download still takes. -/
def left (master : Master) (s : EngineDownload) : Nat :=
  match s.configRequest with
  | some .listConsumer =>
      rounds (master.size - s.listConsumer.streamOffset.toNat) + master.size
  | some (.locoConsumer k) => (s.nameOnlyEntries.filter fun j => decide (j ≠ k)).length + 1
  | _ => 0

/-- Something is requested, or the download is complete. -/
def Proceeds (s : EngineDownload) : Prop := s.configRequest ≠ none ∨ s.dbState = .complete

/-- `fetchNextEngine` asks for an engine or completes the download. -/
theorem proceeds_fetchNextEngine (s : EngineDownload) : Proceeds s.fetchNextEngine := by
  rw [fetchNextEngine]
  split
  · exact .inl (Option.some_ne_none _)
  · exact .inr rfl

/-- Behind `fetchNextEngine` one answer is left for each engine without details. -/
theorem left_fetchNextEngine (master : Master) (hnone : s.configRequest = none) :
    master.left s.fetchNextEngine = s.nameOnlyEntries.length := by
  have hpairwise := @pairwise_nameOnlyEntries s
  rw [left, nameOnlyEntries_fetchNextEngine, fetchNextEngine_eq hnone]
  cases hentries : s.nameOnlyEntries with
  | nil => rfl
  | cons k rest =>
      rw [hentries] at hpairwise
      show ((k :: rest).filter fun j => decide (j ≠ k)).length + 1 = rest.length + 1
      rw [List.filter_cons_of_neg (by simp), List.filter_eq_self.mpr fun j hj =>
        decide_eq_true ((List.pairwise_cons.mp hpairwise).1 j hj).ne']

/-- Only the entries of engines wait for details. -/
theorem Content.length_nameOnlyEntries_le (h : Content master master.size s) :
    s.nameOnlyEntries.length ≤ master.size := by
  have hnodup : (s.nameOnlyEntries.map Fin.val).Nodup :=
    List.Nodup.map Fin.val_injective (pairwise_nameOnlyEntries.imp fun hlt => ne_of_lt hlt)
  have hsubset : s.nameOnlyEntries.map Fin.val ⊆ List.range master.size := by
    intro i hi
    obtain ⟨k, hk, rfl⟩ := List.mem_map.mp hi
    exact List.mem_range.mpr (h.lt_of_isNameOnlyKnown (List.mem_filter.mp hk).2)
  have hle := (List.subperm_of_subset hnodup hsubset).length_le
  rwa [List.length_map, List.length_range] at hle

/-- The answer to a list request. -/
theorem Downloads.answer_list (h : Downloads master s)
    (hrequest : s.configRequest = some .listConsumer) :
    ∃ s', (forM (master.answer s) DatabaseEvent.exec).run s = .ok (⟨⟩, s') ∧
      Downloads master s' ∧ Proceeds s' ∧ master.left s' < master.left s := by
  obtain ⟨t, hrun, ht, hnone, hprotocol⟩ := h.receiveChunk hrequest
  have hleft : master.left s
      = rounds (master.size - s.listConsumer.streamOffset.toNat) + master.size := by
    rw [left, hrequest]
  have hanswer : master.answer s = [.receiveList master.size
      (master.chunk s.listConsumer.streamOffset.toNat).engineInfos] := by
    rw [answer, hrequest]
    rfl
  have hdownloads := downloads_requestNext ht hnone hprotocol
  refine ⟨t.requestNext (s.listConsumer.streamOffset.toNat + 2) master.size, ?_, hdownloads, ?_⟩
  · rw [hanswer]
    exact (run_forM_cons _).mpr ⟨_, hrun, rfl⟩
  · rw [hleft, requestNext]
    split
    -- The list is complete, and the details come next. The last round is done.
    · next hend =>
        rw [Nat.min_eq_right hend] at ht
        refine ⟨proceeds_fetchNextEngine t, ?_⟩
        rw [left_fetchNextEngine master hnone]
        have hle := ht.length_nameOnlyEntries_le
        have hrounds : 1 ≤ rounds (master.size - s.listConsumer.streamOffset.toNat) :=
          Nat.le_max_left _ _
        omega
    -- Another round follows, and the offset of a list of 40 engines does not wrap.
    · next hmore =>
        have hlt : s.listConsumer.streamOffset.toNat + 2 < master.size := Nat.lt_of_not_le hmore
        have hfew : master.size ≤ 40 := master.few
        refine ⟨.inl (Option.some_ne_none _), ?_⟩
        show rounds (master.size - (BitVec.ofNat 8 _).toNat) + master.size < _
        rw [BitVec.toNat_ofNat, Nat.mod_eq_of_lt (by omega), rounds, rounds]
        omega

/-- The answer to a request for an engine. -/
theorem Downloads.answer_loco (h : Downloads master s)
    (hrequest : s.configRequest = some (.locoConsumer k)) :
    ∃ s', (forM (master.answer s) DatabaseEvent.exec).run s = .ok (⟨⟩, s') ∧
      Downloads master s' ∧ Proceeds s' ∧ master.left s' < master.left s := by
  obtain ⟨named, hcontent, hwaits⟩ := h.content
  rw [Waits, hrequest] at hwaits
  obtain ⟨-, rfl, hk⟩ := hwaits
  -- The name that is asked for is that of a master's engine.
  obtain ⟨engine, hget⟩ : ∃ engine, master.engines[(k : Nat)]? = some engine :=
    ⟨_, List.getElem?_eq_getElem hk⟩
  have hname := (hcontent.entry k engine hk hget).name
  have hmem : (s.name k, engine.2) ∈ master.engines := by
    rw [hname]
    exact List.mem_of_getElem? hget
  have hanswer : master.answer s
      = [.receiveLoco (s.name k) engine.2, .receiveEnd] := by
    rw [answer, hrequest, hname]
    simp only [hget, Option.elim_some]
  have hloco : (EngineDownload.receiveLoco (s.name k) engine.2).run s
      = .ok ((), s.setEntry k (s.name k) { s.entry k with loco := engine.2 }) := by
    rw [EngineDownload.receiveLoco, run_get_bind, hrequest]
    rfl
  have hend : (s.setEntry k (s.name k) { s.entry k with loco := engine.2 }).configRequest
      = some (.locoConsumer k) := hrequest
  have hstored := hcontent.storeLoco hk hmem
  have hentries : (s.setEntry k (s.name k) { s.entry k with loco := engine.2 }).nameOnlyEntries
      -- The answered engine is no longer one of those with a name only, so one less is left.
      = s.nameOnlyEntries.filter fun j => decide (j ≠ k) := by
    rw [nameOnlyEntries, nameOnlyEntries, List.filter_filter]
    refine List.filter_congr fun j _ => ?_
    by_cases hj : j = k
    · subst hj
      rw [EngineDownload.isNameOnlyKnown, entry_setEntry_self,
        master.detailed _ (List.mem_of_getElem? hget)]
      simp
    · rw [EngineDownload.isNameOnlyKnown, entry_setEntry_ne (Ne.symm hj)]
      simp [EngineDownload.isNameOnlyKnown, hj]
  have hsame (engineDb : EngineDownload) : SameEngines engineDb engineDb.endRequest :=
    SameEngines.of_sameEntry fun _ => ⟨rfl, rfl⟩
  refine ⟨_, ?_, downloads_fetchNextEngine (hstored.same (hsame _)) rfl (h.loknamen hrequest),
    proceeds_fetchNextEngine _, ?_⟩
  · rw [hanswer]
    exact (run_forM_cons _).mpr ⟨_, hloco, (run_forM_cons _).mpr
      ⟨_, receiveEnd_run_of_loco hend, rfl⟩⟩
  · rw [left_fetchNextEngine master rfl, left, hrequest]
    exact Nat.lt_succ_of_le (Nat.le_of_eq (congrArg List.length hentries))

/-- One answer, if there is a request. -/
theorem Downloads.answer (h : Downloads master s) (hproceeds : Proceeds s) :
    ∃ s', (forM (master.answer s) DatabaseEvent.exec).run s = .ok (⟨⟩, s') ∧
      Downloads master s' ∧ Proceeds s' ∧ master.left s' ≤ master.left s - 1 := by
  cases hrequest : s.configRequest with
  | none =>
      refine ⟨s, ?_, h, hproceeds, ?_⟩
      · rw [Master.answer, hrequest]
        rfl
      · rw [left, hrequest]
        exact Nat.zero_le _
  | some consumer =>
      cases consumer with
      | listConsumer =>
          obtain ⟨s', hrun, h', hproceeds', hleft⟩ := h.answer_list hrequest
          exact ⟨s', hrun, h', hproceeds', Nat.le_sub_one_of_lt hleft⟩
      | locoConsumer k =>
          obtain ⟨s', hrun, h', hproceeds', hleft⟩ := h.answer_loco hrequest
          exact ⟨s', hrun, h', hproceeds', Nat.le_sub_one_of_lt hleft⟩
      | loklisteConsumer => exact absurd hrequest h.not_lokliste

/-- A download that takes no more answers is complete. -/
theorem Downloads.isComplete_of_left (h : Downloads master s) (hproceeds : Proceeds s)
    (hleft : master.left s = 0) : s.dbState = .complete := by
  refine hproceeds.resolve_left fun hsome => ?_
  obtain ⟨consumer, hrequest⟩ := Option.ne_none_iff_exists'.mp hsome
  rw [left, hrequest] at hleft
  cases consumer with
  | listConsumer =>
      have hrounds : 1 ≤ rounds (master.size - s.listConsumer.streamOffset.toNat) :=
        Nat.le_max_left _ _
      simp only at hleft
      omega
  | locoConsumer k => cases hleft
  | loklisteConsumer => exact h.not_lokliste hrequest

/-- Enough answers complete the download. -/
theorem Downloads.exists_answers (n : Nat) :
    ∀ {s : EngineDownload}, Downloads master s → Proceeds s → master.left s ≤ n →
      ∃ s', (master.answers n).run s = .ok (⟨⟩, s') ∧ s'.dbState = .complete ∧ Exact master s' := by
  induction n with
  | zero =>
      intro s h hproceeds hleft
      have hcomplete := h.isComplete_of_left hproceeds (Nat.le_zero.mp hleft)
      exact ⟨s, rfl, hcomplete, h.exact hcomplete⟩
  | succ n ih =>
      intro s h hproceeds hleft
      obtain ⟨s₁, hrun, h₁, hproceeds₁, hleft₁⟩ := h.answer hproceeds
      obtain ⟨s', hrest, hend⟩ := ih h₁ hproceeds₁ (by omega)
      refine ⟨s', ?_, hend⟩
      show (get >>= fun engineDb => forM (master.answer engineDb) DatabaseEvent.exec >>= fun _ =>
        master.answers n).run s = _
      rw [run_get_bind, run_bind_of_ok hrun]
      exact hrest

/-- No request takes more answers than the whole download. -/
theorem Downloads.left_le (h : Downloads master s) :
    master.left s ≤ rounds master.size + master.size := by
  obtain ⟨named, hcontent, hwaits⟩ := h.content
  rw [Waits] at hwaits
  rw [left]
  split
  · rw [rounds, rounds]
    omega
  · next k hrequest =>
      rw [hrequest] at hwaits
      obtain ⟨-, rfl, -⟩ := hwaits
      have hfilter := List.length_filter_le (fun j => decide (j ≠ k)) s.nameOnlyEntries
      have hle := hcontent.length_nameOnlyEntries_le
      have hrounds : 1 ≤ rounds master.size := Nat.le_max_left _ _
      omega
  · exact Nat.zero_le _

/-- When something is requested after such a run, the answers of the master complete the download:
one for every two names, at least one, and one for each engine. -/
theorem download_ends (master : Master) (tries : Nat) {events : List MachineEvent}
    (hhonest : Guarded MachineEvent.exec master.Honest (.start tries) events)
    {machines : StateMachines}
    (hrun : (forM events MachineEvent.exec).run (.start tries) = .ok (⟨⟩, machines))
    (hrequest : machines.canEngineDBStateM.engineDb.configRequest ≠ none) :
    ∃ engineDb, (master.answers (rounds master.size + master.size)).run
        machines.canEngineDBStateM.engineDb = .ok (⟨⟩, engineDb) ∧
      engineDb.isComplete = true ∧ Exact master engineDb := by
  -- Every honest run keeps the invariant of the download.
  obtain ⟨machines', hrun', h⟩ := exists_run_of_guarded MachineEvent.exec Downloads.step events
    (.start tries) (downloads_start master {}) hhonest
  cases hrun.symm.trans hrun'
  -- From there each answer lowers `left`, so `rounds` and the number of engines are enough.
  obtain ⟨engineDb, hanswers, hcomplete, hexact⟩ := h.exists_answers _ (.inl hrequest) h.left_le
  exact ⟨engineDb, hanswers, decide_eq_true hcomplete, hexact⟩

/-- The names are asked for. -/
def oneRequest : List MachineEvent :=
  [.startRequestingEngineDB, .database (.setDownloadProtocol .loknamen), .downloadEngines]

/-- Five answers end the download of three engines: two chunks and three details. -/
theorem download_ends_three :
    ∃ machines engineDb,
      (forM oneRequest MachineEvent.exec).run (.start 0) = .ok (⟨⟩, machines) ∧
      (threeEngines.answers 5).run machines.canEngineDBStateM.engineDb = .ok (⟨⟩, engineDb) ∧
      engineDb.isComplete = true ∧ Exact threeEngines engineDb := by
  have hhonest : Guarded MachineEvent.exec threeEngines.Honest (.start 0) oneRequest := by
    decide
  obtain ⟨engineDb, hend⟩ := download_ends threeEngines 0 hhonest rfl (Option.some_ne_none _)
  exact ⟨_, engineDb, rfl, hend⟩

end Master

end C6021Light
