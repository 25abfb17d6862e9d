import C6021Light.Lib.ChunkedTable
import C6021Light.RoutingTask.EngineDownload

/-!
# `C6021Light.Proofs.EngineList`: the list phase of a download

With the protocol "Loknamen" the master sends its engines in chunks of two short infos.
`streamComplete` stores chunk `j` from entry `2 * j` on, and `hasEngine` looks for duplicates
up to the first free entry. This is the table of `Lib.ChunkedTable`: the key of an entry is
its name, up to `kEngineNameLength` characters, and a free entry is an empty cell
(`EngineDownload.table`). `storeShortInfos_table` says that the loop over a chunk is
`ChunkedTable.fill`, with a fault where `fill` has no table.

`listDownload_inBounds`: with a list of more than 40 engines the chunks go on behind entry 39,
and the source writes there. It stays in the database when the chunks behind the first twenty
bring no new name.

`listDownload_exact_iff`: a chunk with a free or a known name leaves entries free behind it.
The list is exact only when no new name comes after that.
-/

set_option autoImplicit false

namespace C6021Light

open FaultRun ChunkedTable

namespace EngineDownload

variable {s s' t : EngineDownload}

/-! ### The database as a table -/

/-- What the source compares of a name. -/
def nameKey (name : EngineName) : EngineName := name.take kEngineNameLength

/-- The names of the entries that are not free. -/
def table (engineDb : EngineDownload) : Table EngineName kMaxNumDbEntries := fun k =>
  if engineDb.isFree k then none else some (nameKey (engineDb.name k))

/-- A free entry has no key. -/
theorem table_of_free {k : Fin kMaxNumDbEntries} (h : s.isFree k = true) : s.table k = none :=
  if_pos h

/-- An entry that is not free has the key of its name. -/
theorem table_of_notFree {k : Fin kMaxNumDbEntries} (h : s.isFree k = false) :
    s.table k = some (nameKey (s.name k)) :=
  if_neg (ne_true_of_eq_false h)

/-- A cell is filled exactly when its entry is not free. -/
theorem isSome_table (k : Fin kMaxNumDbEntries) : (s.table k).isSome = !s.isFree k := by
  cases h : s.isFree k with
  | true => rw [table_of_free h]; rfl
  | false => rw [table_of_notFree h]; rfl

/-- `hasEngine` is the search in the table. -/
theorem hasEngineFrom_eq (name : EngineName) (l : List (Fin kMaxNumDbEntries)) :
    s.hasEngineFrom name l
      = (l.takeWhile fun k => (s.table k).isSome).any
          fun k => decide (s.table k = some (nameKey name)) := by
  induction l with
  | nil => rfl
  | cons k l ih =>
      rw [hasEngineFrom, List.takeWhile_cons, isSome_table]
      cases hfree : s.isFree k with
      | true => rfl
      | false =>
          have hsame : decide (s.table k = some (nameKey name))
              = strncmpEqual kEngineNameLength name (s.name k) := by
            refine Bool.eq_iff_iff.mpr ?_
            rw [decide_eq_true_iff, table_of_notFree hfree, Option.some.injEq, strncmpEqual_iff,
              eq_comm]
            rfl
          show (if strncmpEqual kEngineNameLength name (s.name k) = true then true
            else s.hasEngineFrom name l) = List.any (k :: _) _
          rw [List.any_cons, hsame, ← ih]
          cases strncmpEqual kEngineNameLength name (s.name k) <;> rfl

/-- `hasEngine` searches the table for the key of the name. -/
theorem hasEngine_eq_search (name : EngineName) :
    s.hasEngine name = search s.table (nameKey name) :=
  hasEngineFrom_eq name (List.finRange kMaxNumDbEntries)

/-! ### Reading an entry after a write -/

/-- The entry that was set is the new one. -/
theorem entry_setEntry_self (k : Fin kMaxNumDbEntries) (name : EngineName) (entry : DbEntry) :
    (s.setEntry k name entry).entry k = entry :=
  CanEngineDB.entry_setEntry_self s.toCanEngineDB k entry

/-- Setting an entry leaves the others. -/
theorem entry_setEntry_ne {j k : Fin kMaxNumDbEntries} (h : j ≠ k) (name : EngineName)
    (entry : DbEntry) : (s.setEntry j name entry).entry k = s.entry k :=
  CanEngineDB.entry_setEntry_ne s.toCanEngineDB h entry

/-- The name that was set is the new one. -/
theorem name_setEntry_self (k : Fin kMaxNumDbEntries) (name : EngineName) (entry : DbEntry) :
    (s.setEntry k name entry).name k = name := by
  show (s.names.set (k : Nat) name k.isLt)[(k : Nat)] = name
  simp

/-- Setting an entry leaves the other names. -/
theorem name_setEntry_ne {j k : Fin kMaxNumDbEntries} (h : j ≠ k) (name : EngineName)
    (entry : DbEntry) : (s.setEntry j name entry).name k = s.name k := by
  have hne : (j : Nat) ≠ k := fun hval => h (Fin.ext hval)
  show (s.names.set (j : Nat) name j.isLt)[(k : Nat)] = s.names[(k : Nat)]
  simp [hne]

/-- An entry as a whole: its content and its name. -/
def SameEntry (s s' : EngineDownload) (k : Fin kMaxNumDbEntries) : Prop :=
  s'.entry k = s.entry k ∧ s'.name k = s.name k

/-- The same entry is free or not in both databases. -/
theorem SameEntry.isFree {k : Fin kMaxNumDbEntries} (h : SameEntry s s' k) :
    s'.isFree k = s.isFree k := by
  rw [EngineDownload.isFree, EngineDownload.isFree, h.1]

/-- Two steps that leave an entry leave it together. -/
theorem SameEntry.trans {k : Fin kMaxNumDbEntries} (h : SameEntry s s' k)
    (h' : SameEntry s' t k) : SameEntry s t k :=
  ⟨h'.1.trans h.1, h'.2.trans h.2⟩

/-- A stored name leaves the other entries. -/
theorem sameEntry_storeName_ne {j k : Fin kMaxNumDbEntries} (h : j ≠ k) (name : EngineName) :
    SameEntry s (s.storeName j name) k :=
  ⟨entry_setEntry_ne h _ _, name_setEntry_ne h _ _⟩

/-- With the same entries the table is the same. -/
theorem table_congr (h : ∀ k, SameEntry s s' k) : s'.table = s.table := by
  funext k
  rw [table, table, (h k).isFree, (h k).2]

/-- A stored name is a key in its cell. -/
theorem table_storeName (k : Fin kMaxNumDbEntries) (name : EngineName) :
    (s.storeName k name).table = Function.update s.table k (some (nameKey name)) := by
  funext j
  by_cases hj : j = k
  · subst hj
    have hfree : (s.storeName j name).isFree j = false := by
      rw [EngineDownload.isFree, storeName, entry_setEntry_self]
      rfl
    rw [Function.update_self, table_of_notFree hfree, storeName, name_setEntry_self, nameKey,
      nameKey, List.take_take, Nat.min_self]
  · have hsame := sameEntry_storeName_ne (s := s) (Ne.symm hj) name
    rw [Function.update_of_ne hj, table, table, hsame.isFree, hsame.2]

/-! ### The loop over a chunk -/

/-- The keys of the names that a chunk brings. -/
def chunkKeys (infos : List LocomotiveShortInfo) : List EngineName :=
  (infos.filter fun info => !info.isFree).map fun info => nameKey info.name

/-- A short info that is not stored. -/
theorem storeShortInfos_run_of_known {info : LocomotiveShortInfo}
    (h : info.isFree = true ∨ s.hasEngine info.name = true) (rest : List LocomotiveShortInfo)
    (o : Byte) : (storeShortInfos (info :: rest) o).run s = (storeShortInfos rest o).run s := by
  have hnot : (!info.isFree && !s.hasEngine info.name) = false := by
    rcases h with h | h <;> simp [h]
  show (if (!info.isFree && !s.hasEngine info.name) = true then _ else _ : DownloadRun Unit).run s
    = _
  rw [hnot]
  rfl

/-- A new short info inside the database. -/
theorem storeShortInfos_run_of_new {info : LocomotiveShortInfo} (hinfo : info.isFree = false)
    (hnew : s.hasEngine info.name = false) (rest : List LocomotiveShortInfo) {o : Byte}
    (ho : o.toNat < kMaxNumDbEntries) :
    (storeShortInfos (info :: rest) o).run s
      = (storeShortInfos rest (o + 1)).run (s.storeName ⟨o.toNat, ho⟩ info.name) := by
  show (if (!info.isFree && !s.hasEngine info.name) = true then
    if h : o.toNat < kMaxNumDbEntries then _ else _ else _ : DownloadRun Unit).run s = _
  rw [hinfo, hnew]
  show (if h : o.toNat < kMaxNumDbEntries then _ else _ : DownloadRun Unit).run s = _
  rw [dif_pos ho]
  rfl

/-- A new short info behind the database. -/
theorem storeShortInfos_run_of_outside {info : LocomotiveShortInfo}
    (hinfo : info.isFree = false) (hnew : s.hasEngine info.name = false)
    (rest : List LocomotiveShortInfo) {o : Byte} (ho : kMaxNumDbEntries ≤ o.toNat) :
    (storeShortInfos (info :: rest) o).run s = .error (.entryOutOfBounds o.toNat) := by
  show (if (!info.isFree && !s.hasEngine info.name) = true then
    if h : o.toNat < kMaxNumDbEntries then _ else _ else _ : DownloadRun Unit).run s = _
  rw [hinfo, hnew]
  show (if h : o.toNat < kMaxNumDbEntries then _ else _ : DownloadRun Unit).run s = _
  rw [dif_neg (Nat.not_lt.mpr ho)]
  rfl

/-- The offset does not wrap inside of the table. -/
theorem toNat_add_one_of_lt {o : Byte} (ho : o.toNat < kMaxNumDbEntries) :
    (o + 1).toNat = o.toNat + 1 := by
  have ho' : o.toNat < 40 := ho
  rw [BitVec.toNat_add, show (1 : Byte).toNat = 1 from rfl]
  omega

/-- The loop fills the table with the keys of the chunk. -/
theorem storeShortInfos_table (infos : List LocomotiveShortInfo) :
    ∀ (o : Byte) (s : EngineDownload),
      ((storeShortInfos infos o).run s).toOption.map (fun r => r.2.table)
        = fill (chunkKeys infos) o.toNat s.table := by
  -- The induction is on the infos. A free one and a known one do not move the offset.
  induction infos with
  | nil => intro o s; rfl
  | cons info rest ih =>
      intro o s
      cases hinfo : info.isFree with
      | true =>
          have hkeys : chunkKeys (info :: rest) = chunkKeys rest := by
            simp [chunkKeys, hinfo]
          rw [storeShortInfos_run_of_known (.inl hinfo), hkeys]
          exact ih o s
      | false =>
          have hkeys : chunkKeys (info :: rest) = nameKey info.name :: chunkKeys rest := by
            simp [chunkKeys, hinfo]
          rw [hkeys]
          cases hnew : s.hasEngine info.name with
          | true =>
              rw [storeShortInfos_run_of_known (.inr hnew), ih,
                fill_cons_of_found (by rw [← hasEngine_eq_search, hnew])]
          | false =>
              have hsearch : search s.table (nameKey info.name) = false := by
                rw [← hasEngine_eq_search, hnew]
              -- Inside the database the name is stored, behind it the write is a fault on both
              -- sides.
              by_cases ho : o.toNat < kMaxNumDbEntries
              · rw [storeShortInfos_run_of_new hinfo hnew rest ho, ih, toNat_add_one_of_lt ho,
                  fill_cons_of_new hsearch _ ho, table_storeName]
              · rw [storeShortInfos_run_of_outside hinfo hnew rest (Nat.not_lt.mp ho), fill,
                  if_neg (ne_true_of_eq_false hsearch), dif_neg ho]
                rfl

/-- The loop writes to the entries from the offset on, one for each short info at most, and
to nothing else. -/
theorem storeShortInfos_frame (infos : List LocomotiveShortInfo) :
    ∀ (o : Byte) (s t : EngineDownload), (storeShortInfos infos o).run s = .ok ((), t) →
      t = { s with toCanEngineDB := t.toCanEngineDB, names := t.names } ∧
        ∀ k : Fin kMaxNumDbEntries, (k : Nat) < o.toNat ∨ o.toNat + infos.length ≤ k →
          SameEntry s t k := by
  -- The induction is on the infos, with the offset one further behind each new name.
  induction infos with
  | nil =>
      intro o s t h
      cases h
      exact ⟨rfl, fun k _ => ⟨rfl, rfl⟩⟩
  | cons info rest ih =>
      intro o s t h
      by_cases hknown : info.isFree = true ∨ s.hasEngine info.name = true
      · rw [storeShortInfos_run_of_known hknown] at h
        obtain ⟨hrest, hframe⟩ := ih o s t h
        refine ⟨hrest, fun k hk => hframe k ?_⟩
        rw [List.length_cons] at hk
        omega
      · rw [not_or, Bool.not_eq_true, Bool.not_eq_true] at hknown
        obtain ⟨hinfo, hnew⟩ := hknown
        by_cases ho : o.toNat < kMaxNumDbEntries
        · rw [storeShortInfos_run_of_new hinfo hnew rest ho] at h
          obtain ⟨hrest, hframe⟩ := ih (o + 1) _ t h
          refine ⟨hrest, fun k hk => ?_⟩
          rw [List.length_cons] at hk
          -- The new name goes to entry `o`, which is not `k`.
          have hne : (⟨o.toNat, ho⟩ : Fin kMaxNumDbEntries) ≠ k := fun heq => by
            have hval : o.toNat = k := congrArg (fun i : Fin kMaxNumDbEntries => (i : Nat)) heq
            omega
          refine (sameEntry_storeName_ne hne info.name).trans (hframe k ?_)
          rw [toNat_add_one_of_lt ho]
          omega
        · rw [storeShortInfos_run_of_outside hinfo hnew rest (Nat.not_lt.mp ho)] at h
          cases h

/-- Known names are not stored. -/
theorem storeShortInfos_run_of_allKnown (infos : List LocomotiveShortInfo) (o : Byte)
    (h : ∀ info ∈ infos, info.isFree = true ∨ s.hasEngine info.name = true) :
    (storeShortInfos infos o).run s = .ok ((), s) := by
  induction infos with
  | nil => rfl
  | cons info rest ih =>
      rw [storeShortInfos_run_of_known (h info List.mem_cons_self)]
      exact ih fun i hi => h i (List.mem_cons_of_mem info hi)

/-- Behind the database the first new name is a fault. -/
theorem storeShortInfos_run_of_someNew (infos : List LocomotiveShortInfo) {o : Byte}
    (ho : kMaxNumDbEntries ≤ o.toNat) {info : LocomotiveShortInfo} (hinfo : info ∈ infos)
    (hfree : info.isFree = false) (hnew : s.hasEngine info.name = false) :
    (storeShortInfos infos o).run s = .error (.entryOutOfBounds o.toNat) := by
  induction infos with
  | nil => cases hinfo
  | cons first rest ih =>
      by_cases hknown : first.isFree = true ∨ s.hasEngine first.name = true
      · rw [storeShortInfos_run_of_known hknown]
        refine ih ((List.mem_cons.mp hinfo).resolve_left ?_)
        rintro rfl
        rcases hknown with h | h
        · rw [hfree] at h; cases h
        · rw [hnew] at h; cases h
      · rw [not_or, Bool.not_eq_true, Bool.not_eq_true] at hknown
        exact storeShortInfos_run_of_outside hknown.1 hknown.2 rest ho

/-! ### One stream -/

/-- The database when the consumer has received a list and the request is over. -/
def withList (engineDb : EngineDownload) (numEngines : Nat)
    (engineInfos : Vector LocomotiveShortInfo 2) : EngineDownload :=
  { engineDb with
      configRequest := none
      listConsumer := { engineDb.listConsumer with
        engineInfos := engineInfos
        numEnginesKnownByMaster := numEngines } }

/-- The end of `streamComplete` for a chunk. -/
def requestNext (engineDb : EngineDownload) (next numEngines : Nat) : EngineDownload :=
  if next ≥ numEngines then engineDb.fetchNextEngine
  else engineDb.fetchEnginesFromOffset (.ofNat 8 next)

/-- A list that was not asked for has no effect. -/
theorem receiveList_run_of_other (h : s.configRequest ≠ some .listConsumer) (numEngines : Nat)
    (engineInfos : Vector LocomotiveShortInfo 2) :
    (receiveList numEngines engineInfos).run s = .ok ((), s) := by
  show (if s.configRequest = some .listConsumer then _ else _ : DownloadRun Unit).run s = _
  rw [if_neg h]
  rfl

/-- A list for the current request is stored, and then the next request goes out. -/
theorem receiveList_run (h : s.configRequest = some .listConsumer) (numEngines : Nat)
    (engineInfos : Vector LocomotiveShortInfo 2) :
    (receiveList numEngines engineInfos).run s
      = ((storeShortInfos engineInfos.toList s.listConsumer.streamOffset).run
          (s.withList numEngines engineInfos)).map fun r =>
            ((), r.2.requestNext (s.listConsumer.streamOffset.toNat + kEngineBrowserEntries)
              numEngines) := by
  show (if s.configRequest = some .listConsumer then _ else _ : DownloadRun Unit).run s = _
  rw [if_pos h]
  show (storeShortInfos engineInfos.toList s.listConsumer.streamOffset >>= fun _ => _ :
    DownloadRun Unit).run (s.withList numEngines engineInfos) = _
  cases hrun : (storeShortInfos engineInfos.toList s.listConsumer.streamOffset).run
      (s.withList numEngines engineInfos) with
  | error e =>
      rw [run_bind_of_error hrun]
      rfl
  | ok r =>
      obtain ⟨⟨⟩, t⟩ := r
      rw [run_bind_of_ok hrun]
      show (if s.listConsumer.streamOffset.toNat + kEngineBrowserEntries ≥ numEngines then _
        else _ : DownloadRun Unit).run t = .ok ((), t.requestNext _ _)
      rw [requestNext]
      split <;> rfl

/-- `fetchNextEngine` leaves every entry. -/
theorem sameEntry_fetchNextEngine (k : Fin kMaxNumDbEntries) :
    SameEntry s s.fetchNextEngine k := by
  rw [fetchNextEngine]
  split <;> exact ⟨rfl, rfl⟩

/-- The next request leaves every entry. -/
theorem sameEntry_requestNext (next numEngines : Nat) (k : Fin kMaxNumDbEntries) :
    SameEntry s (s.requestNext next numEngines) k := by
  rw [requestNext]
  split
  · exact sameEntry_fetchNextEngine k
  · exact ⟨rfl, rfl⟩

/-- After a list the consumer of the list is active only when it was not the last chunk. -/
theorem configRequest_fetchNextEngine (h : s.configRequest = none) :
    s.fetchNextEngine.configRequest ≠ some .listConsumer := by
  rw [fetchNextEngine]
  split
  · intro hlist
    cases hlist
  · exact fun hlist => Option.some_ne_none _ (hlist.symm.trans h)

end EngineDownload

/-! ### A sequence of list streams -/

/-- What the master sends in one list stream. -/
structure ListChunk where
  numEngines : Nat
  engineInfos : Vector LocomotiveShortInfo kEngineBrowserEntries
deriving DecidableEq

namespace ListChunk

open EngineDownload

variable {s s' start : EngineDownload}

/-- The chunk arrives at the database. -/
def receive (chunk : ListChunk) : DownloadRun Unit :=
  receiveList chunk.numEngines chunk.engineInfos

/-- The chunk is received for a request, with a name that is not free and that the database
does not have. -/
def BringsNewName (chunk : ListChunk) (engineDb : EngineDownload) : Prop :=
  engineDb.configRequest = some .listConsumer ∧
    ∃ info ∈ chunk.engineInfos.toList, info.isFree = false ∧
      engineDb.hasEngine info.name = false

/-- The chunks are stored inside the database, and what was stored stays. -/
def StoresInBounds (engineDb : EngineDownload) (chunks : List ListChunk) : Prop :=
  (∃ engineDb', (forM chunks receive).run engineDb = .ok ((), engineDb')) ∧
    Along receive
      (fun engineDb _ engineDb' => ∀ k, engineDb.isFree k = false → SameEntry engineDb engineDb' k)
      engineDb chunks

/-- A chunk that is received and stored. -/
theorem receive_ok_iff (h : s.configRequest = some .listConsumer) (chunk : ListChunk) :
    (chunk.receive).run s = .ok ((), s') ↔
      ∃ t, (storeShortInfos chunk.engineInfos.toList s.listConsumer.streamOffset).run
          (s.withList chunk.numEngines chunk.engineInfos) = .ok ((), t) ∧
        s' = t.requestNext (s.listConsumer.streamOffset.toNat + kEngineBrowserEntries)
          chunk.numEngines := by
  rw [receive, receiveList_run h]
  cases (storeShortInfos chunk.engineInfos.toList s.listConsumer.streamOffset).run
      (s.withList chunk.numEngines chunk.engineInfos) with
  | error e =>
      refine iff_of_false (fun heq => ?_) (fun ⟨t, heq, _⟩ => ?_) <;> cases heq
  | ok r =>
      obtain ⟨⟨⟩, t⟩ := r
      constructor
      · intro heq
        cases heq
        exact ⟨t, rfl, rfl⟩
      · rintro ⟨t', heq, rfl⟩
        cases heq
        rfl

/-- A chunk without a new name changes no entry. -/
theorem receive_of_noNewName {chunk : ListChunk} (hnew : ¬ chunk.BringsNewName s) :
    ∃ s', (chunk.receive).run s = .ok ((), s') ∧ ∀ k, SameEntry s s' k := by
  by_cases h : s.configRequest = some .listConsumer
  · have hknown : ∀ info ∈ chunk.engineInfos.toList, info.isFree = true ∨
        (s.withList chunk.numEngines chunk.engineInfos).hasEngine info.name = true := by
      intro info hinfo
      by_contra hnot
      rw [not_or, Bool.not_eq_true, Bool.not_eq_true] at hnot
      exact hnew ⟨h, info, hinfo, hnot⟩
    refine ⟨_, (receive_ok_iff h chunk).mpr
      ⟨_, storeShortInfos_run_of_allKnown _ _ hknown, rfl⟩, fun k => ?_⟩
    exact SameEntry.trans ⟨rfl, rfl⟩ (sameEntry_requestNext _ _ k)
  · exact ⟨s, receiveList_run_of_other h _ _, fun k => ⟨rfl, rfl⟩⟩

/-- In front of one of the first twenty chunks of a download the request is for the entries
from `2 * j` on, and these are still free. -/
def AtChunk (j : Nat) (engineDb : EngineDownload) : Prop :=
  j < 20 → engineDb.configRequest = some .listConsumer →
    engineDb.listConsumer.streamOffset.toNat = 2 * j ∧
      ∀ k : Fin kMaxNumDbEntries, 2 * j ≤ k → engineDb.isFree k = true

/-- A chunk at an offset in the database is stored there. -/
theorem exists_receive_of_fits {j : Nat} (hj : j < 20) (hs : AtChunk j s) (chunk : ListChunk) :
    ∃ s', (chunk.receive).run s = .ok ((), s') ∧ AtChunk (j + 1) s' ∧
      ∀ k, s.isFree k = false → SameEntry s s' k := by
  -- A chunk that was not asked for is ignored.
  by_cases h : s.configRequest = some .listConsumer
  · obtain ⟨hoffset, hfree⟩ := hs hj h
    have hlen : chunk.engineInfos.toList.length = 2 := by simp
    obtain ⟨t, hrun⟩ : ∃ t, (storeShortInfos chunk.engineInfos.toList
        s.listConsumer.streamOffset).run (s.withList chunk.numEngines chunk.engineInfos)
        = .ok ((), t) := by
      -- At most two names are stored from entry `2 * j` on, and with `j < 20` they fit.
      have hkeys : (chunkKeys chunk.engineInfos.toList).length ≤ 2 := by
        rw [chunkKeys, List.length_map, ← hlen]
        exact List.length_filter_le _ _
      obtain ⟨t', hfill⟩ := exists_fill (n := kMaxNumDbEntries)
        (chunkKeys chunk.engineInfos.toList) s.listConsumer.streamOffset.toNat
        (s.withList chunk.numEngines chunk.engineInfos).table
        (by rw [hoffset]; show _ ≤ 40; omega)
      rw [← storeShortInfos_table] at hfill
      obtain ⟨t, hrun, _⟩ := exists_run_of_observed EngineDownload.table hfill
      exact ⟨t, hrun⟩
    obtain ⟨hsame, hframe⟩ := storeShortInfos_frame _ _ _ _ hrun
    rw [hoffset, hlen] at hframe
    refine ⟨_, (receive_ok_iff h chunk).mpr ⟨t, hrun, rfl⟩, ?_, ?_⟩
    -- The next request is for the next offset, unless the list is complete.
    · intro hj' hrequest
      have hnone : t.configRequest = none := by rw [hsame]; rfl
      rw [requestNext, hoffset] at hrequest ⊢
      split at hrequest
      · exact absurd hrequest (configRequest_fetchNextEngine hnone)
      · rename_i hmore
        rw [if_neg hmore]
        refine ⟨?_, fun k hk => ?_⟩
        -- The offset does not wrap in this range.
        · show (BitVec.ofNat 8 (2 * j + 2)).toNat = 2 * (j + 1)
          rw [BitVec.toNat_ofNat]
          omega
        · have hk' : SameEntry s t k := hframe k (.inr (by omega))
          exact hk'.isFree.trans (hfree k (by omega))
    -- An entry that is not free is in front of the chunk.
    · intro k hk
      have hlt : (k : Nat) < 2 * j := by
        by_contra hge
        rw [hfree k (by omega)] at hk
        cases hk
      have hk' : SameEntry s t k := hframe k (.inl hlt)
      exact hk'.trans (sameEntry_requestNext _ _ k)
  · exact ⟨s, receiveList_run_of_other h _ _, fun _ h' => absurd h' h, fun k _ => ⟨rfl, rfl⟩⟩

/-- A download starts with the first chunk and free entries. -/
theorem atChunk_fetchEngineDB (engineDb : EngineDownload) :
    AtChunk 0 (engineDb.setDownloadProtocol .loknamen).fetchEngineDB := by
  intro _ _
  refine ⟨rfl, fun k _ => ?_⟩
  show (Vector.replicate kMaxNumDbEntries ({} : DbEntry))[k].loco.isFree = true
  simp [Locomotive.isFree]

/-- From chunk `j` on: the chunks behind the first twenty must not bring a new name. -/
theorem storesInBounds_of_noNewName (chunks : List ListChunk) :
    ∀ (j : Nat) (s : EngineDownload), AtChunk j s →
      (∀ before chunk after t, chunks = before ++ chunk :: after → 20 ≤ j + before.length →
        (forM before receive).run s = .ok ((), t) → ¬ chunk.BringsNewName t) →
        StoresInBounds s chunks := by
  induction chunks with
  | nil => intro j s _ _; exact ⟨⟨s, rfl⟩, trivial⟩
  | cons chunk chunks ih =>
      intro j s hs hnew
      obtain ⟨s', hrun, hs', hkept⟩ : ∃ s', (chunk.receive).run s = .ok ((), s') ∧
          AtChunk (j + 1) s' ∧ ∀ k, s.isFree k = false → SameEntry s s' k := by
        rcases Nat.lt_or_ge j 20 with hj | hj
        · exact exists_receive_of_fits hj hs chunk
        · obtain ⟨s', hrun, hsame⟩ := receive_of_noNewName
            (hnew [] chunk chunks s rfl (show 20 ≤ j + 0 by omega) rfl)
          exact ⟨s', hrun, fun hlt => absurd hlt (by omega), fun k _ => hsame k⟩
      obtain ⟨⟨s'', hrest⟩, halong⟩ := ih (j + 1) s' hs' fun before c after t hsplit hlen ht =>
        hnew (chunk :: before) c after t (by rw [hsplit, List.cons_append])
          (by rw [List.length_cons]; omega) ((run_forM_cons receive).mpr ⟨s', hrun, ht⟩)
      refine ⟨⟨s'', (run_forM_cons receive).mpr ⟨s', hrun, hrest⟩⟩, fun u hu => ?_⟩
      have hsame : s' = u := congrArg Prod.snd (Except.ok.inj (hrun.symm.trans hu))
      exact hsame ▸ ⟨hkept, halong⟩

/-- At an offset behind the database a new name would be a fault. -/
theorem not_bringsNewName_of_run {before after : List ListChunk} {chunk : ListChunk}
    (hrun : (forM (before ++ chunk :: after) receive).run start = .ok ((), s'))
    (ht : (forM before receive).run start = .ok ((), s))
    (hoffset : kMaxNumDbEntries ≤ s.listConsumer.streamOffset.toNat) :
    ¬ chunk.BringsNewName s := by
  rintro ⟨hlist, info, hinfo, hfree, hnew⟩
  obtain ⟨u, u', hu, hchunk, _⟩ := (run_forM_split receive).mp hrun
  have hsame : s = u := congrArg Prod.snd (Except.ok.inj (ht.symm.trans hu))
  subst hsame
  obtain ⟨v, hv, _⟩ := (receive_ok_iff hlist chunk).mp hchunk
  have hfault : (storeShortInfos chunk.engineInfos.toList s.listConsumer.streamOffset).run
      (s.withList chunk.numEngines chunk.engineInfos)
      = .error (.entryOutOfBounds s.listConsumer.streamOffset.toNat) :=
    storeShortInfos_run_of_someNew _ hoffset hinfo hfree hnew
  cases hfault.symm.trans hv

/-- A list download stays in the database, and keeps what it stored, when no chunk behind the
first twenty brings a new name. At an offset behind the database it must not. -/
theorem listDownload_inBounds (engineDb : EngineDownload) (chunks : List ListChunk) :
    ((∀ before chunk after t, chunks = before ++ chunk :: after → 20 ≤ before.length →
        (forM before receive).run (engineDb.setDownloadProtocol .loknamen).fetchEngineDB
          = .ok ((), t) → ¬ chunk.BringsNewName t) →
      StoresInBounds (engineDb.setDownloadProtocol .loknamen).fetchEngineDB chunks) ∧
    (StoresInBounds (engineDb.setDownloadProtocol .loknamen).fetchEngineDB chunks →
      ∀ before chunk after t, chunks = before ++ chunk :: after →
        (forM before receive).run (engineDb.setDownloadProtocol .loknamen).fetchEngineDB
          = .ok ((), t) →
        kMaxNumDbEntries ≤ t.listConsumer.streamOffset.toNat → ¬ chunk.BringsNewName t) := by
  constructor
  · intro hnew
    -- The entries are free from the offset of each chunk on, so the first twenty chunks fit.
    refine storesInBounds_of_noNewName chunks 0 _ (atChunk_fetchEngineDB engineDb) ?_
    intro before chunk after t hsplit hlen ht
    exact hnew before chunk after t hsplit (by omega) ht
  -- Behind the end of the table a new name would have been a fault.
  · rintro ⟨⟨s', hrun⟩, _⟩ before chunk after t hsplit ht hoffset
    exact not_bringsNewName_of_run (hsplit ▸ hrun) ht hoffset

/-- The name of one character that stands for a number. -/
def nameOf (n : Nat) : EngineName :=
  [⟨.ofNat 8 (n % 255 + 1), by
    intro h
    have hval := congrArg BitVec.toNat h
    rw [BitVec.toNat_ofNat, show (0 : Byte).toNat = 0 from rfl] at hval
    omega⟩]

/-- A chunk with the names of two numbers. -/
def ofNumbers (numEngines first second : Nat) : ListChunk where
  numEngines := numEngines
  engineInfos := #v[⟨nameOf first, .nameOnly⟩, ⟨nameOf second, .nameOnly⟩]

/-- In a list of 42 engines with different names, the chunk for offset 40 is stored behind the
database. -/
theorem listDownload_outOfBounds :
    (forM ((List.range 21).map fun j => ofNumbers 42 (2 * j) (2 * j + 1)) receive).run
      (({} : EngineDownload).setDownloadProtocol .loknamen).fetchEngineDB
      = .error (.entryOutOfBounds 40) := by
  decide +kernel

/-! ### An exact list -/

/-- The names of the chunk, up to the characters that are compared. -/
def nameKeys (chunk : ListChunk) : List EngineName := chunkKeys chunk.engineInfos.toList

/-- The chunks are a whole download: the last one is the first that reaches the number of
engines that it reports. -/
def IsDownload (chunks : List ListChunk) : Prop :=
  ∀ before chunk after, chunks = before ++ chunk :: after →
    (chunk.numEngines ≤ kEngineBrowserEntries * (before.length + 1) ↔ after = [])

/-- The entries that are not free come first, and their names are those received, each
once. -/
structure HasExactly (chunks : List ListChunk) (engineDb : EngineDownload) : Prop where
  prefixed : ∃ count ≤ kMaxNumDbEntries, ∀ k : Fin kMaxNumDbEntries,
    engineDb.isFree k = false ↔ (k : Nat) < count
  once : ∀ j k, engineDb.isFree j = false → engineDb.isFree k = false →
    nameKey (engineDb.name j) = nameKey (engineDb.name k) → j = k
  received : ∀ k, engineDb.isFree k = false →
    ∃ chunk ∈ chunks, nameKey (engineDb.name k) ∈ chunk.nameKeys
  stored : ∀ chunk ∈ chunks, ∀ name ∈ chunk.nameKeys,
    ∃ k, engineDb.isFree k = false ∧ nameKey (engineDb.name k) = name

/-- As long as a new name is still to come, every chunk so far has brought two new ones. -/
def NamesArriveInPairs (chunks : List ListChunk) : Prop :=
  ArriveFull kEngineBrowserEntries (chunks.map nameKeys)

/-- The database is exact when its table is the list of the keys received. -/
theorem hasExactly_iff (chunks : List ListChunk) :
    HasExactly chunks s ↔ ∃ keys, Represents s.table keys ∧ keys.Nodup ∧
      ∀ x, x ∈ keys ↔ x ∈ (chunks.map nameKeys).flatten := by
  have hmem : ∀ x, x ∈ (chunks.map nameKeys).flatten ↔ ∃ chunk ∈ chunks, x ∈ chunk.nameKeys :=
    fun x => by simp [List.mem_flatten]
  -- An entry of the table is the key of the name that is stored.
  have hcell : ∀ k, s.isFree k = false ↔ s.table k = some (nameKey (s.name k)) := fun k =>
    ⟨table_of_notFree, fun hk => by
      have hsome := isSome_table (s := s) k
      rw [hk] at hsome
      simpa using hsome⟩
  constructor
  · rintro ⟨⟨count, hle, hfront⟩, honce, hreceived, hstored⟩
    have hlt : ∀ i : Fin count, (i : Nat) < kMaxNumDbEntries := fun i => i.isLt.trans_le hle
    -- The keys are those of the entries at the front.
    refine ⟨List.ofFn fun i : Fin count => nameKey (s.name ⟨i, hlt i⟩), ⟨?_, fun k => ?_⟩, ?_, ?_⟩
    · rwa [List.length_ofFn]
    · rw [List.getElem?_ofFn]
      by_cases hk : (k : Nat) < count
      · rw [dif_pos hk]
        exact table_of_notFree ((hfront k).mpr hk)
      · rw [dif_neg hk]
        exact table_of_free (eq_true_of_ne_false fun hfree => hk ((hfront k).mp hfree))
    · rw [List.nodup_ofFn]
      intro i j hij
      have hsame := honce _ _ ((hfront ⟨i, hlt i⟩).mpr i.isLt) ((hfront ⟨j, hlt j⟩).mpr j.isLt)
        hij
      exact Fin.ext (congrArg (fun k : Fin kMaxNumDbEntries => (k : Nat)) hsame)
    · intro x
      rw [List.mem_ofFn, hmem]
      constructor
      · rintro ⟨i, rfl⟩
        exact hreceived _ ((hfront ⟨i, hlt i⟩).mpr i.isLt)
      · rintro ⟨chunk, hchunk, hx⟩
        obtain ⟨k, hfree, rfl⟩ := hstored chunk hchunk x hx
        exact ⟨⟨k, (hfront k).mp hfree⟩, rfl⟩
  -- The other way round the keys say which entries are not free.
  · rintro ⟨keys, hkeys, hnodup, hall⟩
    have hfree : ∀ k, s.isFree k = false ↔ (k : Nat) < keys.length := fun k => by
      rw [← hkeys.isSome_iff k, isSome_table, Bool.not_eq_true']
    refine ⟨⟨keys.length, hkeys.length_le, hfree⟩, fun j k hj hk hjk => ?_, fun k hk => ?_, ?_⟩
    · have hj' := (hkeys.cell j).symm.trans ((hcell j).mp hj)
      have hk' := (hkeys.cell k).symm.trans ((hcell k).mp hk)
      rw [← hjk] at hk'
      have hindex := (List.getElem?_inj ((hfree j).mp hj) hnodup).mp (hj'.trans hk'.symm)
      exact Fin.ext hindex
    · exact (hmem _).mp ((hall _).mp (hkeys.mem_of_cell ((hcell k).mp hk)))
    · intro chunk hchunk name hname
      obtain ⟨k, hk⟩ := hkeys.exists_cell ((hall name).mpr ((hmem name).mpr ⟨chunk, hchunk, hname⟩))
      have hsome := isSome_table (s := s) k
      rw [hk] at hsome
      have hnot : s.isFree k = false := by simpa using hsome
      exact ⟨k, hnot, Option.some.inj ((table_of_notFree hnot).symm.trans hk)⟩

/-- The next request does not change the table. -/
theorem table_requestNext (next numEngines : Nat) :
    (s.requestNext next numEngines).table = s.table :=
  table_congr (sameEntry_requestNext next numEngines)

/-- A chunk for the current request fills the table. -/
theorem receive_table (h : s.configRequest = some .listConsumer) (chunk : ListChunk) :
    ((chunk.receive).run s).toOption.map (fun r => r.2.table)
      = fill chunk.nameKeys s.listConsumer.streamOffset.toNat s.table := by
  have hstore := storeShortInfos_table chunk.engineInfos.toList s.listConsumer.streamOffset
    (s.withList chunk.numEngines chunk.engineInfos)
  rw [receive, receiveList_run h]
  cases hrun : (storeShortInfos chunk.engineInfos.toList s.listConsumer.streamOffset).run
      (s.withList chunk.numEngines chunk.engineInfos) with
  | error e =>
      rw [hrun] at hstore
      exact hstore
  | ok r =>
      rw [hrun] at hstore
      show some (r.2.requestNext _ _).table = _
      rw [table_requestNext]
      exact hstore

/-- The request for chunk `j` is the current one. -/
def InList (j : Nat) (engineDb : EngineDownload) : Prop :=
  engineDb.configRequest = some .listConsumer ∧
    engineDb.listConsumer.streamOffset.toNat = kEngineBrowserEntries * j

/-- `IsDownload` for the chunks from chunk `j` on. -/
def IsDownloadFrom (j : Nat) (chunks : List ListChunk) : Prop :=
  ∀ before chunk after, chunks = before ++ chunk :: after →
    (chunk.numEngines ≤ kEngineBrowserEntries * (j + before.length + 1) ↔ after = [])

/-- Behind its first chunk a download goes on with the next one. -/
theorem IsDownloadFrom.tail {j : Nat} {chunk : ListChunk} {chunks : List ListChunk}
    (h : IsDownloadFrom j (chunk :: chunks)) : IsDownloadFrom (j + 1) chunks := by
  intro before c after hsplit
  have hcons := h (chunk :: before) c after (by rw [hsplit, List.cons_append])
  rw [List.length_cons] at hcons
  rwa [show j + 1 + before.length + 1 = j + (before.length + 1) + 1 by omega]

/-- Behind a chunk that is not the last one the next chunk is asked for. -/
theorem inList_receive {j : Nat} (hs : InList j s) {chunk : ListChunk}
    (hnum : chunk.numEngines ≤ kMaxNumDbEntries)
    (hmore : ¬ chunk.numEngines ≤ kEngineBrowserEntries * (j + 1))
    (hrun : (chunk.receive).run s = .ok ((), s')) : InList (j + 1) s' := by
  obtain ⟨t, _, rfl⟩ := (receive_ok_iff hs.1 chunk).mp hrun
  rw [requestNext, hs.2, ← Nat.mul_succ, if_neg hmore]
  refine ⟨rfl, ?_⟩
  have hnum' : chunk.numEngines ≤ 40 := hnum
  have hmore' : ¬ chunk.numEngines ≤ 2 * (j + 1) := hmore
  show (BitVec.ofNat 8 (2 * (j + 1))).toNat = 2 * (j + 1)
  rw [BitVec.toNat_ofNat]
  omega

/-- The chunks of a download fill the table one after the other. -/
theorem forM_receive_table (chunks : List ListChunk) :
    ∀ (j : Nat) (s : EngineDownload), InList j s → IsDownloadFrom j chunks →
      (∀ chunk ∈ chunks, chunk.numEngines ≤ kMaxNumDbEntries) →
        ((forM chunks receive).run s).toOption.map (fun r => r.2.table)
          = fillChunks kEngineBrowserEntries (chunks.map nameKeys) (kEngineBrowserEntries * j)
              s.table := by
  -- The induction is on the chunks, with the offset of the next one.
  induction chunks with
  | nil => intro j s _ _ _; rfl
  | cons chunk chunks ih =>
      intro j s hs hdownload hnum
      have htable := receive_table hs.1 chunk
      rw [hs.2] at htable
      rw [List.map_cons, fillChunks, ← htable, List.forM_cons]
      -- A fault ends both loops.
      cases hrun : (chunk.receive).run s with
      | error e =>
          rw [run_bind_of_error hrun]
          rfl
      | ok r =>
          obtain ⟨⟨⟩, s'⟩ := r
          rw [run_bind_of_ok hrun]
          show _ = fillChunks kEngineBrowserEntries (chunks.map nameKeys) _ s'.table
          have hlast := hdownload [] chunk chunks rfl
          rw [List.length_nil, Nat.add_zero] at hlast
          -- The last chunk ends the download, the others ask for the next one.
          cases chunks with
          | nil => rfl
          | cons c rest =>
              have hmore : ¬ chunk.numEngines ≤ kEngineBrowserEntries * (j + 1) :=
                fun hle => List.cons_ne_nil c rest (hlast.mp hle)
              rw [← Nat.mul_succ]
              exact ih (j + 1) s' (inList_receive hs (hnum chunk List.mem_cons_self) hmore hrun)
                hdownload.tail fun c' hc' => hnum c' (List.mem_cons_of_mem chunk hc')

/-- A list of at most 40 engines comes in twenty chunks. -/
theorem IsDownload.length_le {chunks : List ListChunk} (h : IsDownload chunks)
    (hnum : ∀ chunk ∈ chunks, chunk.numEngines ≤ kMaxNumDbEntries) :
    kEngineBrowserEntries * chunks.length ≤ kMaxNumDbEntries := by
  show 2 * chunks.length ≤ 40
  rcases chunks.eq_nil_or_concat with rfl | ⟨init, last, rfl⟩
  · simp
  · rcases init.eq_nil_or_concat with rfl | ⟨before, chunk, rfl⟩
    · simp
    · -- The number that the last chunk but one reports is not reached yet.
      have hsplit : (before.concat chunk).concat last = before ++ chunk :: [last] := by simp
      have hmore : ¬ chunk.numEngines ≤ 2 * (before.length + 1) := fun hle =>
        List.cons_ne_nil last [] ((h before chunk [last] hsplit).mp hle)
      have hle : chunk.numEngines ≤ 40 := hnum chunk (by simp)
      simp only [List.length_concat]
      omega

/-- A download starts with the request for the first chunk. -/
theorem inList_fetchEngineDB (engineDb : EngineDownload) :
    InList 0 (engineDb.setDownloadProtocol .loknamen).fetchEngineDB := ⟨rfl, rfl⟩

/-- A download starts with an empty table. -/
theorem table_fetchEngineDB (engineDb : EngineDownload) (k : Fin kMaxNumDbEntries) :
    (engineDb.setDownloadProtocol .loknamen).fetchEngineDB.table k = none := by
  refine table_of_free ?_
  show (Vector.replicate kMaxNumDbEntries ({} : DbEntry))[k].loco.isFree = true
  simp [Locomotive.isFree]

/-- A whole download of at most 40 engines leaves exactly the list that was received, exactly
when the names arrive in pairs. -/
theorem listDownload_exact_iff (engineDb : EngineDownload) {chunks : List ListChunk}
    (hdownload : IsDownload chunks)
    (hnum : ∀ chunk ∈ chunks, chunk.numEngines ≤ kMaxNumDbEntries) :
    ∃ engineDb', (forM chunks receive).run
        (engineDb.setDownloadProtocol .loknamen).fetchEngineDB = .ok ((), engineDb') ∧
      (HasExactly chunks engineDb' ↔ NamesArriveInPairs chunks) := by
  -- The general statement for a download from any offset on, at the first chunk.
  have hfrom : IsDownloadFrom 0 chunks := fun before chunk after hsplit => by
    rw [Nat.zero_add]
    exact hdownload before chunk after hsplit
  have htable := forM_receive_table chunks 0 _ (inList_fetchEngineDB engineDb) hfrom hnum
  rw [Nat.mul_zero] at htable
  have hw : ∀ c ∈ chunks.map nameKeys, c.length ≤ kEngineBrowserEntries := by
    intro c hc
    obtain ⟨chunk, _, rfl⟩ := List.mem_map.mp hc
    rw [nameKeys, chunkKeys, List.length_map]
    exact (List.length_filter_le _ _).trans_eq (by simp)
  have hfits : kEngineBrowserEntries * (chunks.map nameKeys).length ≤ kMaxNumDbEntries := by
    rw [List.length_map]
    exact hdownload.length_le hnum
  -- Forty names fit the table, so the loop over the chunks returns.
  obtain ⟨t, hfill⟩ := exists_fillChunks (chunks.map nameKeys) 0
    (engineDb.setDownloadProtocol .loknamen).fetchEngineDB.table hw (by rwa [Nat.zero_add])
  rw [hfill] at htable
  obtain ⟨s', hrun, hs'⟩ := exists_run_of_observed EngineDownload.table htable
  refine ⟨s', hrun, ?_⟩
  -- What the table represents is now a question about the chunks alone.
  rw [hasExactly_iff, NamesArriveInPairs,
    ← fillChunks_represents_iff (table_fetchEngineDB engineDb) hw hfits, hfill, hs']
  constructor
  · rintro ⟨keys, hkeys⟩
    exact ⟨t, keys, rfl, hkeys⟩
  · rintro ⟨t', keys, ht', hkeys⟩
    exact ⟨keys, Option.some.inj ht' ▸ hkeys⟩

/-- A download of two chunks. -/
theorem isDownload_two {first last : ListChunk}
    (hfirst : ¬ first.numEngines ≤ kEngineBrowserEntries)
    (hlast : last.numEngines ≤ kEngineBrowserEntries * 2) : IsDownload [first, last] := by
  intro before chunk after h
  rcases before with _ | ⟨_, _ | ⟨_, before⟩⟩
  · cases h
    exact iff_of_false hfirst (List.cons_ne_nil last [])
  · cases h
    exact iff_of_true hlast rfl
  · cases before <;> cases h

/-- A download of three engines in two chunks has them exactly when their names arrive in pairs. -/
theorem listDownload_exact_iff_three :
    ∃ engineDb', (forM [ofNumbers 3 0 1, ofNumbers 3 2 0] receive).run
        (({} : EngineDownload).setDownloadProtocol .loknamen).fetchEngineDB
        = .ok ((), engineDb') ∧
      (HasExactly [ofNumbers 3 0 1, ofNumbers 3 2 0] engineDb' ↔
        NamesArriveInPairs [ofNumbers 3 0 1, ofNumbers 3 2 0]) :=
  listDownload_exact_iff {} (isDownload_two (by decide) (by decide)) (by decide)

/-- Two chunks with the names 0, 0 and 1, 2 leave entry 1 free. -/
theorem listDownload_gap :
    IsDownload [ofNumbers 4 0 0, ofNumbers 4 1 2] ∧
      ∃ engineDb', (forM [ofNumbers 4 0 0, ofNumbers 4 1 2] receive).run
          (({} : EngineDownload).setDownloadProtocol .loknamen).fetchEngineDB
          = .ok ((), engineDb') ∧
        ¬ HasExactly [ofNumbers 4 0 0, ofNumbers 4 1 2] engineDb' := by
  refine ⟨isDownload_two (by decide) (by decide), ?_⟩
  obtain ⟨engineDb', hrun, hfree⟩ := exists_run_of_observed
    (x := forM [ofNumbers 4 0 0, ofNumbers 4 1 2] receive)
    (s := (({} : EngineDownload).setDownloadProtocol .loknamen).fetchEngineDB)
    (fun engineDb => (engineDb.isFree 1, engineDb.isFree 2)) (b := (true, false))
    (by decide)
  refine ⟨engineDb', hrun, fun h => ?_⟩
  obtain ⟨hfree₁, hfree₂⟩ := Prod.mk.inj hfree
  obtain ⟨count, _, hfront⟩ := h.prefixed
  have htwo : 2 < count := (hfront 2).mp hfree₂
  have hone : engineDb'.isFree 1 = false := (hfront 1).mpr (show 1 < count by omega)
  rw [hfree₁] at hone
  cases hone

end ListChunk

end C6021Light
