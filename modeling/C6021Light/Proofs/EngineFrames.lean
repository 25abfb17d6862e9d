import C6021Light.Proofs.CANForwarderRun
import C6021Light.Proofs.ServerCalls

/-!
# `C6021Light.Proofs.EngineFrames`: which engines the CAN forwarder commands

A frame with UID 0 commands every engine on the layout. So a slot whose changes go out to CAN
has to be in use, and has to have an engine: a UID of its own, or one that
`matchEnginesFromLocoNetAndCan` finds in the database. `SlotEntry.Known` says that.

The invariant is that every slot with pending changes is known. The handlers do not look
after it themselves. A control message flags its changes for an unknown slot too, slot data
replaces the UID and keeps the flags, and the engine database changes under the slots.
`KeepsKnown` is the condition under which an event keeps the invariant, and
`framesKnown_along` is the run theorem.
-/

set_option autoImplicit false

namespace C6021Light

open FaultRun

/-! ### Known slots -/

/-- The slot is in use, and its UID is not 0 once the engine database has been asked. -/
def SlotEntry.Known (engineDb : CanEngineDB) (entry : SlotEntry) : Prop :=
  entry.inUse = true ∧ (entry.matchToCAN engineDb).loco.uid ≠ 0

/-- Pending changes belong to a known slot. -/
def SlotEntry.PendingKnown (engineDb : CanEngineDB) (entry : SlotEntry) : Prop :=
  entry.hasUpdate = true → entry.Known engineDb

/-- Every slot of the table with pending changes is known. -/
def RoutingTask.PendingKnown (task : RoutingTask) : Prop :=
  ∀ i, (task.slotServer.slot i).PendingKnown task.engineDb

/-- Every frame sent so far was for a slot in use and has an engine. -/
def RoutingTask.FramesKnown (task : RoutingTask) : Prop :=
  ∀ sent ∈ task.canTx, sent.inUse = true ∧ sent.frame.uid ≠ 0

/-- The invariant of the runs. -/
structure RoutingTask.EnginesKnown (task : RoutingTask) : Prop where
  pending : task.PendingKnown
  frames : task.FramesKnown

/-- The event leaves no changes pending for an unknown slot.

A control message is for a known slot, or changes nothing there. Slot data for a slot with
pending changes names an engine. A change of the database does not take away the engine of a
slot with pending changes. -/
def KeepsKnown (task : RoutingTask) : TaskEvent → Prop
  | .handlePacket effect => ∀ i, (task.slotServer.slot i).PendingKnown (effect task.engineDb)
  | .lnReceive (.slRdData sd) | .lnReceive (.wrSlData sd) =>
      ∀ i : Fin kNumSlots, sd.slot.toNat = i →
      (task.slotServer.slot i).hasUpdate = true →
      ((task.slotServer.slot i).slotRead sd).Known task.engineDb
  | .lnReceive m => ∀ i, m.ControlsSlot i →
      (task.slotServer.slot i).Known task.engineDb ∨
      (((task.slotServer.slot i).requested task.slotServer.isDisabled).control m).hasUpdate
        = false
  | _ => True

/-- The match reads nothing of a slot but its identity. -/
theorem SlotEntry.known_congr {entry entry' : SlotEntry} (h : entry'.identity = entry.identity)
    {engineDb : CanEngineDB} : entry'.Known engineDb ↔ entry.Known engineDb := by
  obtain ⟨hin, hrest⟩ := Prod.mk.inj h
  obtain ⟨huid, hrest⟩ := Prod.mk.inj hrest
  obtain ⟨haddr, hneeds⟩ := Prod.mk.inj hrest
  have hmatch : (entry'.matchToCAN engineDb).loco.uid = (entry.matchToCAN engineDb).loco.uid := by
    rw [SlotEntry.matchToCAN, SlotEntry.matchToCAN, hneeds, haddr]
    split
    · split
      · rfl
      · exact huid
    · exact huid
  rw [SlotEntry.Known, SlotEntry.Known, hin, hmatch]

/-- A slot without changes has nothing pending. -/
theorem SlotEntry.pendingKnown_of_clean {entry : SlotEntry} (h : entry.hasUpdate = false)
    (engineDb : CanEngineDB) : entry.PendingKnown engineDb := by
  intro hupdate
  rw [h] at hupdate
  cases hupdate

/-! ### LocoNet messages -/

section

variable [AddressScheme] {s s' : LocoNetSlotServer} {engineDb : CanEngineDB}

omit [AddressScheme] in
/-- A slot that is set to an entry with known changes leaves all of them known. -/
theorem pendingKnown_setSlot (hs : ∀ i, (s.slot i).PendingKnown engineDb) {i : Fin kNumSlots}
    {entry : SlotEntry} (hi : entry.PendingKnown engineDb) :
    ∀ j, ((s.setSlot i entry).slot j).PendingKnown engineDb := by
  intro j
  rw [LocoNetSlotServer.slot_setSlot]
  split
  · exact hi
  · exact hs j

/-- A message keeps the invariant, when the slot it changes has no pending changes or is
known afterwards. -/
theorem process_pendingKnown {m : LnMsg} (hs : ∀ i, (s.slot i).PendingKnown engineDb)
    (h : (process m).run s = .ok ((), s'))
    (hcontrol : ∀ i, m.ControlsSlot i →
      (((s.slot i).requested s.isDisabled).control m).PendingKnown engineDb)
    (hread : ∀ sd, m = .slRdData sd ∨ m = .wrSlData sd → ∀ i : Fin kNumSlots,
      sd.slot.toNat = i → ((s.slot i).slotRead sd).PendingKnown engineDb) :
    ∀ i, (s'.slot i).PendingKnown engineDb := by
  have hempty : SlotEntry.PendingKnown engineDb {} := SlotEntry.pendingKnown_of_clean rfl engineDb
  have heffect := process_effect s m
  rw [h] at heffect
  cases heffect with
  | control i hslot _ hi =>
      have hm : m.ControlsSlot i := by
        rw [LnMsg.ControlsSlot, hslot]
        exact congrArg some hi
      exact pendingKnown_setSlot hs (hcontrol i hm)
  | slotRead msg i hi => exact pendingKnown_setSlot hs (hread msg (.inl rfl) i hi)
  | slotWrite msg i hi => exact pendingKnown_setSlot hs (hread msg (.inr rfl) i hi)
  | addressAllocated la i _ _ _ s₁ hs₁ =>
      subst hs₁
      exact pendingKnown_setSlot hs (SlotEntry.pendingKnown_of_clean rfl engineDb)
  -- The slot takes its changes and its identity along.
  | move msg i j => exact pendingKnown_setSlot (pendingKnown_setSlot hs (hs i)) hempty
  | clear msg j => exact pendingKnown_setSlot hs hempty
  | _ => exact hs

omit [AddressScheme] in
/-- A control message for a known slot, or one that leaves nothing to send. -/
theorem control_pendingKnown {m : LnMsg} {i : Fin kNumSlots}
    (h : (s.slot i).Known engineDb ∨
      (((s.slot i).requested s.isDisabled).control m).hasUpdate = false) :
    (((s.slot i).requested s.isDisabled).control m).PendingKnown engineDb := by
  rcases h with hknown | hclean
  · intro _
    have hidentity := (SlotEntry.control_identity m ((s.slot i).requested s.isDisabled)).trans
      (SlotEntry.requested_identity s.isDisabled (s.slot i))
    exact (SlotEntry.known_congr hidentity).mpr hknown
  · exact SlotEntry.pendingKnown_of_clean hclean engineDb

/-- `process` leaves the pending changes known under the condition on its message. -/
theorem process_keepsKnown {m : LnMsg} {task : RoutingTask} (htask : task.PendingKnown)
    (hkeeps : KeepsKnown task (.lnReceive m))
    (h : (process m).run task.slotServer = .ok ((), s')) :
    ∀ i, (s'.slot i).PendingKnown task.engineDb := by
  refine process_pendingKnown htask h ?_ ?_
  · intro i hm
    cases m with
    | slRdData sd => cases hm
    | wrSlData sd => cases hm
    | _ => exact control_pendingKnown (hkeeps i hm)
  · intro sd hm i hi hupdate
    rcases hm with rfl | rfl
    · exact hkeeps i hi hupdate
    · exact hkeeps i hi hupdate

/-- So does `receiveLn`. -/
theorem receiveLn_keepsKnown {m : LnMsg} {task : RoutingTask} (htask : task.PendingKnown)
    (hkeeps : KeepsKnown task (.lnReceive m))
    (h : (receiveLn m).run task.slotServer = .ok ((), s')) :
    ∀ i, (s'.slot i).PendingKnown task.engineDb := by
  -- The dummy messages only send, so `process` finds the table of the task.
  let sent : RoutingTask := { task with
    slotServer := task.slotServer.send (task.slotServer.dummyAnswer m) }
  have hprocess : (process m).run sent.slotServer = .ok ((), s') := by
    rw [← h, receiveLn, run_bind_of_ok (handleDummyMessages_run _ _)]
  have hsent : sent.PendingKnown := htask
  have hkeeps' : KeepsKnown sent (.lnReceive m) := by
    cases m <;> exact hkeeps
  have hs' := process_keepsKnown hsent hkeeps' hprocess
  exact hs'

/-! ### Engine updates -/

omit [AddressScheme] in
/-- The flags of an engine have no influence on the search for engines. -/
theorem findEngine_set_diff (k : Fin kMaxNumDbEntries) (diff : LocoDiff) (address : LocoAddr) :
    (engineDb.setEntry k { engineDb.entry k with diff := diff }).findEngine address
      = engineDb.findEngine address := by
  have hlocos : (engineDb.setEntry k { engineDb.entry k with diff := diff }).db.toList.map (·.loco)
      = engineDb.db.toList.map (·.loco) := by
    have hlen : (k : Nat) < (engineDb.db.toList.map (·.loco)).length := by simp
    have hk : (engineDb.db.toList.map (·.loco))[(k : Nat)] = (engineDb.entry k).loco := by
      simp [CanEngineDB.entry]
    rw [CanEngineDB.setEntry, Vector.toList_set, List.map_set]
    show (engineDb.db.toList.map (·.loco)).set k (engineDb.entry k).loco = _
    rw [← hk, List.set_getElem_self]
  have hfind : ∀ db : Vector DbEntry kMaxNumDbEntries,
      CanEngineDB.findEngine { db := db } address
        = (db.toList.map (·.loco)).find? fun loco =>
            loco.isFullDetailsKnown && decide (address = loco.address) := by
    intro db
    rw [List.find?_map]
    rfl
  exact (hfind _).trans ((congrArg _ hlocos).trans (hfind _).symm)

omit [AddressScheme] in
/-- Flags of the database do not take away an engine. -/
theorem pendingKnown_set_diff (k : Fin kMaxNumDbEntries) (diff : LocoDiff) {entry : SlotEntry}
    (h : entry.PendingKnown engineDb) :
    entry.PendingKnown (engineDb.setEntry k { engineDb.entry k with diff := diff }) := by
  intro hupdate
  obtain ⟨hin, huid⟩ := h hupdate
  refine ⟨hin, ?_⟩
  rw [SlotEntry.matchToCAN, findEngine_set_diff]
  exact huid

/-- The lookup of the forwarder allocates at most a slot without pending changes. -/
theorem findSlot_pendingKnown {addr : LocoAddr} {slotIt : SlotIt}
    (hs : ∀ i, (s.slot i).PendingKnown engineDb)
    (h : (LocoNetForwarder.findSlot addr).run s = .ok (slotIt, s')) :
    ∀ i, (s'.slot i).PendingKnown engineDb := by
  have heffect := findSlot_effect s addr
  rw [h] at heffect
  cases heffect with
  | allocated i =>
      exact pendingKnown_setSlot hs (SlotEntry.pendingKnown_of_clean rfl engineDb)
  | _ => exact hs

/-- A dispatch mark leaves the pending changes known. -/
theorem markAddressForDispatch_pendingKnown {addr : LocoAddr}
    (hs : ∀ i, (s.slot i).PendingKnown engineDb)
    (h : (do let _ ← markAddressForDispatch addr : SlotServerRun Unit).run s = .ok ((), s')) :
    ∀ i, (s'.slot i).PendingKnown engineDb := by
  obtain ⟨it, s₁, hfind, _, rfl⟩ := markAddressForDispatch_run h
  have heffect := findOrAllocateSlotForAddress_effect s addr
  rw [hfind] at heffect
  cases heffect with
  | found => exact hs
  | allocated =>
      exact pendingKnown_setSlot hs (SlotEntry.pendingKnown_of_clean rfl engineDb)

/-- A forwarded change leaves the pending changes known. -/
theorem forwardLocoChange_pendingKnown {loco : LocomotiveData} {diff diff' : LocoDiff}
    (hs : ∀ i, (s.slot i).PendingKnown engineDb)
    (h : (LocoNetForwarder.forwardLocoChange loco diff).run s = .ok (diff', s')) :
    ∀ i, (s'.slot i).PendingKnown engineDb := by
  have heffect := forwardLocoChange_effect s loco diff
  rw [h] at heffect
  cases heffect with
  | found _ i s₁ hfind =>
      have hs₁ := findSlot_pendingKnown hs hfind
      -- The announced values are written without touching the flags or the identity.
      have hidentity : ((s₁.slot i).cacheChange loco diff).identity = (s₁.slot i).identity := rfl
      exact pendingKnown_setSlot hs₁ fun hupdate =>
        (SlotEntry.known_congr hidentity).mpr (hs₁ i hupdate)
  | _ => exact hs

/-- One engine update keeps the invariant. It sends nothing on CAN. -/
theorem forwardEngineUpdate_known (k : Fin kMaxNumDbEntries) (task task' : RoutingTask)
    (h : (forwardEngineUpdate k).run task = .ok ((), task')) (htask : task.EnginesKnown) :
    task'.EnginesKnown := by
  rcases forwardEngineUpdate_run h with ⟨_, heq⟩ | ⟨_, diff, hserver, heq⟩
  · rw [heq]
    exact htask
  · have hs' := forwardLocoChange_pendingKnown htask.pending hserver
    rw [heq]
    exact ⟨fun i => pendingKnown_set_diff k diff (hs' i), htask.frames⟩

/-! ### Frames -/

omit [AddressScheme] in
/-- One slot of `matchEnginesFromLocoNetAndCan`: the frames are for a known slot. -/
theorem forwardToCAN_known {entry : SlotEntry} (h : entry.PendingKnown engineDb) :
    ∀ frame ∈ (entry.forwardToCAN engineDb).1,
      (entry.forwardToCAN engineDb).2.inUse = true ∧ frame.uid ≠ 0 := by
  intro frame hframe
  obtain ⟨uid, diff, heq⟩ := entry.forwardToCAN_eq engineDb
  cases hupdate : entry.hasUpdate with
  | true =>
      obtain ⟨hin, huid⟩ := h hupdate
      rw [heq]
      refine ⟨hin, ?_⟩
      rw [SlotEntry.forwardToCAN, if_pos ((entry.matchToCAN_hasUpdate engineDb).trans hupdate)]
        at hframe
      rw [CANForwarder.forwardLocoChange_uid _ _ frame hframe]
      exact huid
  | false =>
      rw [(entry.forwardToCAN_hasUpdate engineDb).2 hupdate] at hframe
      exact absurd hframe List.not_mem_nil

omit [AddressScheme] in
/-- Matching a slot sends frames for known engines only. -/
theorem matchEngineOfSlot_known (i : Fin kNumSlots) (task task' : RoutingTask)
    (h : (matchEngineOfSlot i).run task = .ok ((), task')) (htask : task.EnginesKnown) :
    task'.EnginesKnown := by
  have hknown := forwardToCAN_known (htask.pending i)
  have hclean := ((task.slotServer.slot i).forwardToCAN_hasUpdate task.engineDb).1
  cases h
  refine ⟨?_, ?_⟩
  · exact pendingKnown_setSlot htask.pending
      (SlotEntry.pendingKnown_of_clean hclean task.engineDb)
  · intro sent hsent
    rcases List.mem_append.mp hsent with hold | hnew
    · exact htask.frames sent hold
    · obtain ⟨frame, hframe, rfl⟩ := List.mem_map.mp hnew
      exact hknown frame hframe

/-! ### Runs -/

omit [AddressScheme] in
/-- A loop keeps the invariant when each iteration does. -/
theorem forM_known {ι : Type} {body : ι → RoutingTaskRun Unit}
    (hbody : ∀ i task task', (body i).run task = .ok ((), task') → task.EnginesKnown →
      task'.EnginesKnown) (is : List ι) {task task' : RoutingTask}
    (h : (forM is body).run task = .ok ((), task')) (htask : task.EnginesKnown) :
    task'.EnginesKnown :=
  forM_rel body (R := fun task task' => task.EnginesKnown → task'.EnginesKnown)
    (fun _ htask => htask) (fun _ _ _ h₁ h₂ htask => h₂ (h₁ htask)) hbody is task task' h htask

/-- The step lemma. -/
theorem TaskEvent.exec_known {e : TaskEvent} {task task' : RoutingTask}
    (htask : task.EnginesKnown) (h : (e.exec).run task = .ok ((), task'))
    (hkeeps : KeepsKnown task e) : task'.EnginesKnown := by
  cases e with
  -- The database changes under the slots, so the event's condition is the invariant itself.
  | handlePacket effect => cases h; exact ⟨hkeeps, htask.frames⟩
  | lnForward msg => cases h; exact ⟨htask.pending, htask.frames⟩
  | forwardEngineUpdates =>
      rcases run_ifEnabled h with ⟨_, heq⟩ | ⟨_, hloop⟩
      · rw [heq]
        exact htask
      · exact forM_known forwardEngineUpdate_known _ hloop htask
  | lnReceive msg =>
      obtain ⟨hrun, heq⟩ := onSlotServer_run h
      have hs' := receiveLn_keepsKnown htask.pending hkeeps hrun
      rw [heq]
      exact ⟨hs', htask.frames⟩
  | matchEngines =>
      rcases run_ifEnabled h with ⟨_, heq⟩ | ⟨_, hloop⟩
      · rw [heq]
        exact htask
      · exact forM_known matchEngineOfSlot_known _ hloop htask
  | setSlotServerState state => cases h; exact ⟨htask.pending, htask.frames⟩
  | dispatch addr =>
      obtain ⟨hrun, heq⟩ := onSlotServer_run h
      have hs' := markAddressForDispatch_pendingKnown htask.pending hrun
      rw [heq]
      exact ⟨hs', htask.frames⟩
  | blockingSend => cases h; exact ⟨htask.pending, htask.frames⟩

/-- In a run from the start-up table whose events keep pending changes with known slots, every
frame of every `matchEnginesFromLocoNetAndCan` is for a slot in use and has a UID other
than 0. -/
theorem framesKnown_along (task : RoutingTask) (hempty : task.slotServer.slotDB = .empty)
    (hcanTx : task.canTx = []) (events : List TaskEvent)
    (hkeeps : Along TaskEvent.exec (fun task e _ => KeepsKnown task e) task events) :
    Along TaskEvent.exec (fun _ _ task' => task'.FramesKnown) task events := by
  refine along_of_invariant TaskEvent.exec (I := RoutingTask.EnginesKnown) ?_ events task ?_
    hkeeps
  -- What is known of the engines is kept by a step, and the frames of the step are for known ones.
  · intro task e task' htask hrun hkeep
    have htask' := TaskEvent.exec_known htask hrun hkeep
    exact ⟨htask', htask'.frames⟩
  -- In an empty table nothing is pending, and nothing was sent.
  · refine ⟨?_, ?_⟩
    · intro i
      have hslot : task.slotServer.slot i = {} := by
        simp [LocoNetSlotServer.slot, SlotDB.entry, hempty, SlotDB.empty]
      rw [hslot]
      exact SlotEntry.pendingKnown_of_clean rfl task.engineDb
    · intro sent hsent
      rw [hcanTx] at hsent
      cases hsent

end

/-- Slot data for address 3, and then a speed message for that slot. -/
theorem framesKnown_along_learned :
    letI := AddressScheme.upperBits
    let task : RoutingTask :=
      { slotServer := { dataModel := { lnSlotServerState := .passive } } }
    let learned : LnMsg := lnSlotDataRead 1 0x33 { address := 3 }
    let speed : LnMsg := .locoSpd { slot := 1, spd := 10 }
    Along TaskEvent.exec (fun _ _ task' => task'.FramesKnown) task
      [.lnReceive learned, .lnReceive speed, .matchEngines] := by
  let _ := AddressScheme.upperBits
  intro task learned speed
  let server := task.slotServer
  let entry := (server.slot 1).slotRead (lnSlotReadWriteMessage 1 0x33 { address := 3 })
  let task₁ : RoutingTask := { task with slotServer := server.setSlot 1 entry }
  have hrun : (TaskEvent.exec (.lnReceive learned)).run task = .ok ((), task₁) := rfl
  have hfresh : ∀ i, (task.slotServer.slot i).hasUpdate = false := by decide
  have hlearned : SlotEntry.Known task₁.engineDb entry := by
    unfold SlotEntry.Known
    decide
  -- The runs of the theorem are followed step by step: the slot data, the speed, and the match.
  refine framesKnown_along task rfl rfl _ ?_
  intro t ht
  rw [hrun] at ht
  cases ht
  refine ⟨?_, ?_⟩
  · intro i _ hupdate
    rw [hfresh i] at hupdate
    cases hupdate
  · intro t _
    refine ⟨?_, fun _ _ => ⟨trivial, trivial⟩⟩
    intro i hi
    have hslot : i = 1 := Fin.ext (Option.some.inj hi).symm
    rw [hslot]
    refine .inl ?_
    show SlotEntry.Known task₁.engineDb ((server.setSlot 1 entry).slot 1)
    rw [LocoNetSlotServer.slot_setSlot_self]
    exact hlearned

/-- A speed message for a slot that nobody has told the server about, and the next match. -/
theorem framesKnown_unknown_slot :
    letI := AddressScheme.upperBits
    let task : RoutingTask :=
      { slotServer := { dataModel := { lnSlotServerState := .passive } } }
    let speed : LnMsg := .locoSpd { slot := 1, spd := 10 }
    let events : List TaskEvent := [.lnReceive speed, .matchEngines]
    speed.SevenBit ∧
      (∃ task', (forM events TaskEvent.exec).run task = .ok ((), task') ∧
        task'.canTx = [{ slotIt := 1, inUse := false, frame := .velocity 0 79 }]) ∧
      ¬ Along TaskEvent.exec (fun _ _ task' => task'.FramesKnown) task events := by
  let _ := AddressScheme.upperBits
  intro task speed events
  have hcanTx : ((forM events TaskEvent.exec).run task).toOption.map (·.2.canTx)
      = some [{ slotIt := 1, inUse := false, frame := .velocity 0 79 }] := by
    set_option maxRecDepth 8000 in
    decide
  obtain ⟨task', hrun, hframes⟩ := exists_run_of_observed RoutingTask.canTx hcanTx
  refine ⟨by decide, ⟨task', hrun, hframes⟩, ?_⟩
  intro halong
  have hknown : task'.FramesKnown :=
    invariant_of_along TaskEvent.exec (I := RoutingTask.FramesKnown)
      (fun _ _ _ _ _ hafter => hafter) events task task' (fun _ hsent => nomatch hsent)
      halong hrun
  obtain ⟨hin, _⟩ := hknown _ (hframes ▸ List.mem_singleton_self _)
  cases hin

end C6021Light
