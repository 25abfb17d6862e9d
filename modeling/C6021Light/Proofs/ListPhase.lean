import C6021Light.Proofs.EngineList

/-!
# `C6021Light.Proofs.ListPhase`: the list phase of a download ends

`streamComplete` asks for the next chunk as long as the master has more engines. It computes
the next offset as an `int` and compares it with the number of engines, but
`fetchEnginesFromOffset` takes it as an 8-bit number. So 256 becomes 0 again, and with more than
256 engines the list phase starts over.

`InRound j` is the state in front of the answer to the request `j`, as the source numbers them:
`2 * j` modulo 256.
-/

set_option autoImplicit false

namespace C6021Light.ListChunk

open FaultRun EngineDownload

variable {s s' start : EngineDownload} {base : List EngineRequest}

/-! ### The list phase -/

/-- The list requests for the offsets 0, 2, 4 and so on. -/
def listRequests (count : Nat) : List EngineRequest :=
  (List.range count).map fun j => .engineList (.ofNat 8 (kEngineBrowserEntries * j))

/-- One more request is for the next offset. -/
theorem listRequests_succ (count : Nat) : listRequests (count + 1)
    = listRequests count ++ [.engineList (.ofNat 8 (kEngineBrowserEntries * count))] := by
  rw [listRequests, List.range_succ, List.map_append]
  rfl

/-- The list streams that a list of `numEngines` engines takes: one for every two engines, and
at least one. -/
def rounds (numEngines : Nat) : Nat := max 1 ((numEngines + 1) / 2)

/-- The offset of a list request. -/
def listOffset : EngineRequest → Option Nat
  | .engineList offset => some offset.toNat
  | _ => none

/-- The offsets of the list requests that were sent behind `base`. -/
def listOffsets (base : List EngineRequest) (engineDb : EngineDownload) : List Nat :=
  (engineDb.requests.drop base.length).filterMap listOffset

/-- The list phase is left through `fetchNextEngine`, after list requests for the offsets 0, 2, 4
and so on, one for each stream at most. -/
structure ListPhaseOver (base : List EngineRequest) (streams : Nat) (engineDb : EngineDownload) :
    Prop where
  left : ∃ before : EngineDownload, before.configRequest = none ∧
    engineDb = before.fetchNextEngine
  offsets : ∃ count ≤ streams,
    listOffsets base engineDb = (List.range count).map (kEngineBrowserEntries * ·)

/-- What the streams of a list of `numEngines` engines bring. -/
abbrev ListContent (numEngines : Nat) :=
  Vector (Vector LocomotiveShortInfo kEngineBrowserEntries) (rounds numEngines)

/-- The streams, each with the number of engines. -/
def chunksOf {numEngines : Nat} (content : ListContent numEngines) : List ListChunk :=
  content.toList.map (ListChunk.mk numEngines)

/-- The list phase of the download is over when the streams are complete. -/
def ListPhaseEnds (engineDb : EngineDownload) {numEngines : Nat}
    (content : ListContent numEngines) : Prop :=
  ∃ engineDb', (forM (chunksOf content) receive).run
      (engineDb.setDownloadProtocol .loknamen).fetchEngineDB = .ok ((), engineDb') ∧
    ListPhaseOver engineDb.requests (rounds numEngines) engineDb'

/-- No stream behind the first twenty brings a new name. -/
def NoNewNameBehind (engineDb : EngineDownload) (chunks : List ListChunk) : Prop :=
  ∀ before chunk after t, chunks = before ++ chunk :: after → 20 ≤ before.length →
    (forM before receive).run (engineDb.setDownloadProtocol .loknamen).fetchEngineDB
      = .ok ((), t) → ¬ chunk.BringsNewName t

/-! ### One stream -/

/-- The request for chunk `j` is the current one, and it is the last of `j + 1` list requests. -/
structure InRound (base : List EngineRequest) (j : Nat) (engineDb : EngineDownload) : Prop where
  current : engineDb.configRequest = some .listConsumer
  offset : engineDb.listConsumer.streamOffset = .ofNat 8 (kEngineBrowserEntries * j)
  requests : engineDb.requests = base ++ listRequests (j + 1)

/-- `fetchEngineDB` starts the first round. -/
theorem inRound_fetchEngineDB (engineDb : EngineDownload) :
    InRound engineDb.requests 0 (engineDb.setDownloadProtocol .loknamen).fetchEngineDB :=
  ⟨rfl, rfl, rfl⟩

/-- The 8-bit parameter drops what is above 256. -/
theorem ofNat_next (j : Nat) : BitVec.ofNat 8 ((2 * j) % 256 + 2) = .ofNat 8 (2 * (j + 1)) := by
  apply BitVec.eq_of_toNat_eq
  rw [BitVec.toNat_ofNat, BitVec.toNat_ofNat]
  omega

/-- A list stream is followed by the next list request, or by the end of the list phase. -/
theorem InRound.receive {j : Nat} (hs : InRound base j s) {chunk : ListChunk}
    (hrun : (chunk.receive).run s = .ok ((), s')) :
    (chunk.numEngines ≤ (kEngineBrowserEntries * j) % 256 + kEngineBrowserEntries ∧
      ∃ before : EngineDownload, before.configRequest = none ∧
        before.requests = base ++ listRequests (j + 1) ∧ s' = before.fetchNextEngine) ∨
    (¬ chunk.numEngines ≤ (kEngineBrowserEntries * j) % 256 + kEngineBrowserEntries ∧
      InRound base (j + 1) s') := by
  obtain ⟨t, hstore, rfl⟩ := (receive_ok_iff hs.current chunk).mp hrun
  obtain ⟨hsame, _⟩ := storeShortInfos_frame _ _ _ _ hstore
  have hrequests : t.requests = base ++ listRequests (j + 1) := by
    rw [hsame]
    exact hs.requests
  have hoffset : s.listConsumer.streamOffset.toNat = (kEngineBrowserEntries * j) % 256 := by
    rw [hs.offset, BitVec.toNat_ofNat]
  rw [hoffset, requestNext]
  -- The test compares the number of engines with the 8-bit offset.
  split
  · rename_i hlast
    refine .inl ⟨hlast, t, ?_, hrequests, rfl⟩
    rw [hsame]
    rfl
  · rename_i hmore
    have hnext : BitVec.ofNat 8 ((kEngineBrowserEntries * j) % 256 + kEngineBrowserEntries)
        = .ofNat 8 (kEngineBrowserEntries * (j + 1)) := ofNat_next j
    refine .inr ⟨hmore, rfl, ?_, ?_⟩
    · rw [← hnext]
      rfl
    · show t.requests ++ [.engineList _] = _
      rw [hrequests, hnext, List.append_assoc, listRequests_succ (j + 1)]

/-! ### All streams -/

/-- As long as more engines are to come the list phase goes on. -/
theorem InRound.forM_receive {numEngines : Nat} (chunks : List ListChunk) :
    ∀ (j : Nat) (s s' : EngineDownload), InRound base j s →
      (∀ chunk ∈ chunks, chunk.numEngines = numEngines) →
      (∀ i, j ≤ i → i < j + chunks.length → (2 * i) % 256 + 2 < numEngines) →
      (forM chunks ListChunk.receive).run s = .ok ((), s') →
        InRound base (j + chunks.length) s' := by
  induction chunks with
  | nil =>
      intro j s s' hs _ _ hrun
      cases hrun
      exact hs
  | cons chunk chunks ih =>
      intro j s s'' hs hnum hmore hrun
      obtain ⟨s', hchunk, hrest⟩ := (run_forM_cons ListChunk.receive).mp hrun
      rw [List.length_cons] at hmore ⊢
      have hj : (2 * j) % 256 + 2 < numEngines := hmore j le_rfl (by omega)
      rcases hs.receive hchunk with ⟨hlast, _⟩ | ⟨_, hs'⟩
      · rw [hnum chunk List.mem_cons_self] at hlast
        exact absurd hj (Nat.not_lt.mpr hlast)
      · rw [show j + (chunks.length + 1) = j + 1 + chunks.length by omega]
        exact ih (j + 1) s' s'' hs' (fun c hc => hnum c (List.mem_cons_of_mem chunk hc))
          (fun i hi hlt => hmore i (by omega) (by omega)) hrest

/-- The offsets of up to 128 list requests are the multiples of 2. -/
theorem listOffsets_fetchNextEngine {count : Nat} (hcount : count ≤ 128)
    (h : s.requests = base ++ listRequests count) :
    listOffsets base s.fetchNextEngine = (List.range count).map (kEngineBrowserEntries * ·) := by
  have hlist : (listRequests count).filterMap listOffset
      = (List.range count).map (kEngineBrowserEntries * ·) := by
    rw [listRequests, List.filterMap_map, ← List.filterMap_eq_map]
    refine List.filterMap_congr fun j hj => ?_
    have hlt : j < count := List.mem_range.mp hj
    show some (BitVec.ofNat 8 (2 * j)).toNat = some (2 * j)
    rw [BitVec.toNat_ofNat, Nat.mod_eq_of_lt (by omega)]
  have hnext : ∃ rest, s.fetchNextEngine.requests = base ++ listRequests count ++ rest ∧
      ∀ request ∈ rest, ∃ k, request = .engine k := by
    rw [fetchNextEngine]
    split
    · rename_i k _
      refine ⟨[.engine k], ?_, fun request hrequest => ⟨k, List.mem_singleton.mp hrequest⟩⟩
      rw [← h]
      rfl
    · exact ⟨[], by rw [← h, List.append_nil], fun _ h => absurd h List.not_mem_nil⟩
  obtain ⟨rest, hrequests, hrest⟩ := hnext
  have hnone : rest.filterMap listOffset = [] := by
    refine List.filterMap_eq_nil_iff.mpr fun request hrequest => ?_
    obtain ⟨k, rfl⟩ := hrest request hrequest
    rfl
  rw [listOffsets, hrequests, List.append_assoc, List.drop_left, List.filterMap_append, hlist,
    hnone, List.append_nil]

section Content

variable {numEngines : Nat} (content : ListContent numEngines)

/-- There is a chunk for each round. -/
theorem length_chunksOf : (chunksOf content).length = rounds numEngines := by
  rw [chunksOf, List.length_map, Vector.length_toList]

/-- Every chunk has the length of the list. -/
theorem numEngines_of_mem_chunksOf {chunk : ListChunk} (h : chunk ∈ chunksOf content) :
    chunk.numEngines = numEngines := by
  obtain ⟨infos, _, rfl⟩ := List.mem_map.mp h
  rfl

/-- In front of a stream of a list of at most 256 engines the request is for its offset. -/
theorem inRound_of_before (h256 : numEngines ≤ 256) {engineDb : EngineDownload}
    {before after : List ListChunk} {chunk : ListChunk}
    (hsplit : chunksOf content = before ++ chunk :: after)
    (hrun : (forM before ListChunk.receive).run
      (engineDb.setDownloadProtocol .loknamen).fetchEngineDB = .ok ((), s)) :
    InRound engineDb.requests before.length s ∧ before.length < 128 := by
  have hlen := congrArg List.length hsplit
  rw [length_chunksOf, List.length_append, List.length_cons, rounds] at hlen
  have hround := InRound.forM_receive before 0 _ s (inRound_fetchEngineDB engineDb)
    (fun c hc => numEngines_of_mem_chunksOf content (hsplit ▸ List.mem_append_left _ hc))
    (fun i _ hi => by omega) hrun
  rw [Nat.zero_add] at hround
  exact ⟨hround, by omega⟩

/-- With more engines the end of the list phase is never reached, because the offset is below
256. -/
theorem not_listPhaseEnds (h : 256 < numEngines) (engineDb : EngineDownload) :
    ¬ ListPhaseEnds engineDb content := by
  rintro ⟨t, hrun, ⟨before, hnone, rfl⟩, _⟩
  have hround := InRound.forM_receive (chunksOf content) 0 _ _
    (inRound_fetchEngineDB engineDb) (fun c hc => numEngines_of_mem_chunksOf content hc)
    (fun i _ _ => by omega) hrun
  exact configRequest_fetchNextEngine hnone hround.current

/-- The list phase of a download is over after one stream for every two engines, and every offset
is requested once, exactly when the master has at most 256 engines and no stream brings a new
name behind the end of the database. -/
theorem listPhaseEnds_iff (engineDb : EngineDownload) :
    ListPhaseEnds engineDb content ↔
      numEngines ≤ 256 ∧ NoNewNameBehind engineDb (chunksOf content) := by
  constructor
  · intro hends
    have h256 : numEngines ≤ 256 := by
      by_contra hmore
      exact not_listPhaseEnds content (Nat.lt_of_not_le hmore) engineDb hends
    obtain ⟨t, hrun, _⟩ := hends
    refine ⟨h256, fun before chunk after u hsplit hlen hu => ?_⟩
    obtain ⟨hround, hlt⟩ := inRound_of_before content h256 hsplit hu
    refine not_bringsNewName_of_run (hsplit ▸ hrun) hu ?_
    rw [hround.offset, BitVec.toNat_ofNat]
    show 40 ≤ (2 * before.length) % 256
    omega
  · rintro ⟨h256, hnew⟩
    obtain ⟨⟨t, hrun⟩, _⟩ := storesInBounds_of_noNewName (chunksOf content) 0 _
      (atChunk_fetchEngineDB engineDb) fun before chunk after u hsplit hlen hu =>
        hnew before chunk after u hsplit (by omega) hu
    refine ⟨t, hrun, ?_⟩
    have hlen := length_chunksOf content
    rcases (chunksOf content).eq_nil_or_concat with hnil | ⟨before, last, hsplit⟩
    · rw [hnil, List.length_nil, rounds] at hlen
      omega
    · rw [hsplit, List.concat_eq_append, List.length_append, List.length_singleton, rounds] at hlen
      rw [List.concat_eq_append] at hsplit
      rw [hsplit] at hrun
      obtain ⟨u, u', hu, hlast, hdone⟩ := (run_forM_split ListChunk.receive).mp hrun
      cases hdone
      obtain ⟨hround, hlt⟩ := inRound_of_before content h256 hsplit hu
      have hnum : last.numEngines = numEngines :=
        numEngines_of_mem_chunksOf content (by rw [hsplit]; simp)
      -- The last stream reaches the number of engines.
      rcases hround.receive hlast with ⟨_, w, hnone, hrequests, rfl⟩ | ⟨hmore, _⟩
      · refine ⟨⟨w, hnone, rfl⟩, before.length + 1, ?_, ?_⟩
        · rw [rounds]
          omega
        · exact listOffsets_fetchNextEngine (by omega) hrequests
      · rw [hnum] at hmore
        refine absurd ?_ hmore
        show numEngines ≤ (2 * before.length) % 256 + 2
        omega

end Content

/-- With 257 engines the request after the one for offset 254 is for offset 0 again. -/
theorem listPhase_starts_over :
    ¬ ListPhaseEnds {} (.replicate (rounds 257) (.replicate 2 {}) : ListContent 257) :=
  not_listPhaseEnds _ (by decide) {}

end C6021Light.ListChunk
