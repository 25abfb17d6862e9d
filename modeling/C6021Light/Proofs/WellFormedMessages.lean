import C6021Light.Proofs.MessageBytes
import C6021Light.Proofs.UpdateQueue

/-!
# `C6021Light.Proofs.WellFormedMessages`: no message starts a second one

Every LocoNet message goes through `AsyncSend`, and `asyncSends` are the messages of all calls
so far. `WellFramed` is the invariant of the slot server: all of them have seven-bit arguments,
and every slot has an address and a velocity that fit a message of its own.

Messages from LocoNet keep it, because what they put into a slot came in seven-bit bytes. A
velocity from CAN does not have to fit. It is sent when it is flagged for an engine with a
slot, and the invariant holds after the loop over the engine database exactly when all these
velocities fit (`forM_forwardEngineUpdate_wellFramed` and `forM_forwardEngineUpdate_fits`).
`asyncSends_sevenBit_iff` carries this over every run of the routing task.
-/

set_option autoImplicit false

namespace C6021Light

open FaultRun AddressScheme

/-! ### The invariant -/

/-- The messages of all `AsyncSend` calls. -/
def LocoNetSlotServer.asyncSends (s : LocoNetSlotServer) : List LnMsg :=
  s.tx.calls.map Prod.fst

/-- What is sent comes behind the messages of the earlier calls. -/
theorem asyncSends_send (s : LocoNetSlotServer) (msgs : List LnMsg) :
    (s.send msgs).asyncSends = s.asyncSends ++ msgs := by
  have hlen := s.tx.msgBuffer.length_offerAll msgs
  rw [LocoNetSlotServer.asyncSends, LocoNetSlotServer.tx_send,
    (LocoNetTx.sendAll_eq_offerAll msgs s.tx).2, List.map_append, List.map_fst_zip (by omega)]
  rfl

/-- The slot can be sent as slot data. -/
structure SlotEntry.FitsSlotData (entry : SlotEntry) : Prop where
  address : entry.loco.address.toNat < 2 ^ 14
  velocity : FitsLnSpeed entry.loco.velocity

/-- The invariant: every slot can be sent, and every message of a call has seven-bit arguments. -/
structure LocoNetSlotServer.WellFramed (s : LocoNetSlotServer) : Prop where
  slot : ∀ i, (s.slot i).FitsSlotData
  asyncSends : ∀ m ∈ s.asyncSends, m.SevenBit

/-- An empty slot can be sent. -/
theorem fitsSlotData_default : SlotEntry.FitsSlotData {} := ⟨by decide, by decide⟩

/-- The invariant holds at start-up. -/
theorem wellFramed_start (dataModel : DataModel) :
    LocoNetSlotServer.WellFramed { dataModel := dataModel } := by
  refine ⟨fun i => ?_, fun m hm => by cases hm⟩
  have hempty : (SlotDB.empty.entry i : SlotEntry) = {} := by
    simp [SlotDB.entry, SlotDB.empty]
  show (SlotDB.empty.entry i).FitsSlotData
  rw [hempty]
  exact fitsSlotData_default

namespace LocoNetSlotServer.WellFramed

variable {s : LocoNetSlotServer}

/-- Seven-bit messages keep the invariant. -/
theorem send (hs : s.WellFramed) {msgs : List LnMsg} (h : ∀ m ∈ msgs, m.SevenBit) :
    (s.send msgs).WellFramed := by
  refine ⟨hs.slot, ?_⟩
  rw [asyncSends_send]
  exact List.forall_mem_append.mpr ⟨hs.asyncSends, h⟩

/-- An entry that can be sent keeps the invariant. -/
theorem setSlot (hs : s.WellFramed) (i : Fin kNumSlots) {entry : SlotEntry}
    (h : entry.FitsSlotData) : (s.setSlot i entry).WellFramed := by
  refine ⟨fun j => ?_, hs.asyncSends⟩
  rw [LocoNetSlotServer.slot_setSlot]
  split
  · exact h
  · exact hs.slot j

/-- The slot data of a slot. -/
theorem slotData (hs : s.WellFramed) (i : Fin kNumSlots) :
    ∀ m ∈ [s.slotData i], m.SevenBit :=
  List.forall_mem_singleton.mpr (lnSlotDataRead_sevenBit i (slotStatus_lt (s.slot i))
    (hs.slot i).address (hs.slot i).velocity)

end LocoNetSlotServer.WellFramed

/-! ### What messages put into a slot -/

/-- Slot data was sent in seven-bit bytes. -/
theorem SlotEntry.slotRead_fits {msg : RwSlotDataMsg} (hadr2 : msg.adr2 < 128#8)
    (hspd : msg.spd < 128#8) (entry : SlotEntry) : (entry.slotRead msg).FitsSlotData := by
  refine ⟨?_, ?_⟩
  · rw [SlotEntry.slotRead_loco]
    exact getLocoAddress_lt hadr2
  · rw [SlotEntry.slotRead_loco]
    exact fitsLnSpeed_lnSpeedToCanVelocity hspd

/-- A control message changes the velocity when it has a speed. -/
theorem SlotEntry.FitsSlotData.control {m : LnMsg} (h7 : m.SevenBit) {entry : SlotEntry}
    (h : entry.FitsSlotData) : (entry.control m).FitsSlotData := by
  cases m with
  | locoSpd lsp =>
      exact ⟨h.address, fitsLnSpeed_lnSpeedToCanVelocity (sevenBit_pair_iff.mp h7).2⟩
  | locoDirf ldf =>
      rw [SlotEntry.control, SlotEntry.locoDirF_eq]
      exact ⟨h.address, h.velocity⟩
  | locoSnd ls =>
      rw [SlotEntry.control, SlotEntry.locoSnd_eq]
      exact ⟨h.address, h.velocity⟩
  | locoSnd2 ls =>
      rw [SlotEntry.control, SlotEntry.locoSnd2_eq]
      exact ⟨h.address, h.velocity⟩
  | locoFunext msdi =>
      rw [SlotEntry.control, SlotEntry.locoFunExt_eq]
      split
      · exact ⟨h.address, h.velocity⟩
      · exact h
  | _ => exact h

/-- A request leaves an entry that can be sent as one. -/
theorem SlotEntry.FitsSlotData.requested {entry : SlotEntry} (h : entry.FitsSlotData)
    (disabled : Bool) : (entry.requested disabled).FitsSlotData := by
  refine ⟨?_, ?_⟩
  · rw [SlotEntry.requested_loco]
    exact h.address
  · rw [SlotEntry.requested_loco]
    exact h.velocity

/-- A request for slot data has seven-bit arguments. -/
theorem slotRequests_sevenBit (s : LocoNetSlotServer) (i : Fin kNumSlots) :
    ∀ m ∈ s.slotRequests i, m.SevenBit := by
  rw [LocoNetSlotServer.slotRequests]
  split
  · exact List.forall_mem_singleton.mpr (lnRequestSlotData_sevenBit i)
  · exact List.forall_mem_nil _

/-- So has the acknowledge of a write. -/
theorem writeAck_sevenBit (s : LocoNetSlotServer) : ∀ m ∈ s.writeAck, m.SevenBit := by
  rw [LocoNetSlotServer.writeAck]
  split
  · exact List.forall_mem_singleton.mpr (lnLongAck_sevenBit (by decide) true)
  · exact List.forall_mem_nil _

/-- So has the dummy answer. -/
theorem dummyAnswer_sevenBit (s : LocoNetSlotServer) (m : LnMsg) :
    ∀ answer ∈ s.dummyAnswer m, answer.SevenBit := by
  cases m with
  | swState srq =>
      rw [LocoNetSlotServer.dummyAnswer]
      split
      · exact List.forall_mem_singleton.mpr (lnLongAck_sevenBit (by decide) true)
      · exact List.forall_mem_nil _
  | _ => exact List.forall_mem_nil _

section

variable [AddressScheme] {s s' : LocoNetSlotServer}

/-- A new slot has a numeric address. -/
theorem initialized_fits {address : LocoAddr}
    (h : (getNumericAddress address).toNat < 2 ^ 14) :
    (SlotEntry.initialized (getNumericAddress address)).FitsSlotData :=
  ⟨h, fitsSlotData_default.velocity⟩

variable (hnumeric : ∀ address : LocoAddr, (getNumericAddress address).toNat < 2 ^ 14)
include hnumeric

/-- A message from LocoNet keeps the invariant. -/
theorem process_wellFramed {m : LnMsg} (hs : s.WellFramed) (h7 : m.SevenBit)
    (h : (process m).run s = .ok ((), s')) : s'.WellFramed := by
  have heffect := process_effect s m
  rw [h] at heffect
  -- One case per effect. Answers are built from slots that fit, and slots from messages of seven
  -- bits.
  cases heffect with
  | control i =>
      exact (hs.setSlot i (((hs.slot i).requested _).control h7)).send
        (slotRequests_sevenBit s i)
  | controlIgnored => exact hs
  | slotRead msg i =>
      exact hs.setSlot i ((s.slot i).slotRead_fits (h7 msg.adr2 (by simp [LnMsg.argBytes]))
        (h7 msg.spd (by simp [LnMsg.argBytes])))
  | slotReadOutside => exact hs
  | slotWrite msg i =>
      exact (hs.setSlot i ((s.slot i).slotRead_fits (h7 msg.adr2 (by simp [LnMsg.argBytes]))
        (h7 msg.spd (by simp [LnMsg.argBytes])))).send (writeAck_sevenBit s)
  | slotWriteOutside => exact hs.send (writeAck_sevenBit s)
  | slotRequest msg i => exact hs.send (hs.slotData i)
  | addressFound la i => exact hs.send (hs.slotData i)
  -- The new slot fits before the answer for it is built.
  | addressAllocated la i _ _ _ s₁ hs₁ =>
      have hnew : s₁.WellFramed := hs₁ ▸ hs.setSlot i (initialized_fits (hnumeric _))
      exact hnew.send (hnew.slotData i)
  | addressIgnored => exact hs
  | dispatchGet msg i =>
      have hsend := hs.send (hs.slotData i)
      exact ⟨hsend.slot, hsend.asyncSends⟩
  | noDispatch =>
      exact hs.send (List.forall_mem_singleton.mpr (lnLongAck_sevenBit (by decide) false))
  | dispatchPut => exact ⟨hs.slot, hs.asyncSends⟩
  | move msg i j => exact (hs.setSlot j (hs.slot i)).setSlot i fitsSlotData_default
  | clear msg j => exact hs.setSlot j fitsSlotData_default
  | moveIgnored => exact hs
  | unhandled => exact hs

/-- Finding or allocating a slot keeps the invariant. -/
theorem findOrAllocateSlotForAddress_wellFramed {addr : LocoAddr} {slotIt : SlotIt}
    (hs : s.WellFramed) (h : (findOrAllocateSlotForAddress addr).run s = .ok (slotIt, s')) :
    s'.WellFramed := by
  have heffect := findOrAllocateSlotForAddress_effect s addr
  rw [h] at heffect
  cases heffect with
  | found => exact hs
  | allocated i => exact hs.setSlot i (initialized_fits (hnumeric addr))

/-- The lookup of the forwarder keeps the invariant. -/
theorem findSlot_wellFramed {addr : LocoAddr} {slotIt : SlotIt} (hs : s.WellFramed)
    (h : (LocoNetForwarder.findSlot addr).run s = .ok (slotIt, s')) : s'.WellFramed := by
  have heffect := findSlot_effect s addr
  rw [h] at heffect
  cases heffect with
  | found => exact hs
  | foundActive => exact hs
  | allocated i => exact hs.setSlot i (initialized_fits (hnumeric addr))
  | notFound => exact hs

/-- A change of an engine keeps the invariant, when a velocity that is sent fits. -/
theorem forwardLocoChange_wellFramed {loco : LocomotiveData} {diff diff' : LocoDiff}
    (hs : s.WellFramed)
    (hfits : diff.velocity = true → s.finds loco.address = true → FitsLnSpeed loco.velocity)
    (h : (LocoNetForwarder.forwardLocoChange loco diff).run s = .ok (diff', s')) :
    s'.WellFramed := by
  have heffect := forwardLocoChange_effect s loco diff
  rw [h] at heffect
  cases heffect with
  | disabled => exact hs
  | notFound => exact hs
  | found _ i s₁ hfind =>
      have hs₁ := findSlot_wellFramed hnumeric hs hfind
      have hfound : s.finds loco.address = true := by
        rw [finds_of_findSlot hfind, isSlotInBounds_fin]
      have hvelocity : diff.velocity = true → FitsLnSpeed loco.velocity :=
        fun hflag => hfits hflag hfound
      have hslot : ((s₁.slot i).cacheChange loco diff).FitsSlotData := by
        refine ⟨(hs₁.slot i).address, ?_⟩
        show FitsLnSpeed (if diff.velocity then loco.velocity else (s₁.slot i).loco.velocity)
        split
        · rename_i hflag
          exact hvelocity hflag
        · exact (hs₁.slot i).velocity
      exact (hs₁.setSlot i hslot).send ((announcements_sevenBit_iff i loco diff).mpr hvelocity)

omit hnumeric

/-- A velocity that was sent in seven bits fits. -/
theorem forwardLocoChange_fits {loco : LocomotiveData} {diff diff' : LocoDiff}
    (henabled : s.isDisabled = false)
    (h : (LocoNetForwarder.forwardLocoChange loco diff).run s = .ok (diff', s'))
    (hsends : ∀ m ∈ s'.asyncSends, m.SevenBit) (hflag : diff.velocity = true)
    (hfinds : s.finds loco.address = true) : FitsLnSpeed loco.velocity := by
  have heffect := forwardLocoChange_effect s loco diff
  rw [h] at heffect
  cases heffect with
  | disabled hdisabled =>
      rw [henabled] at hdisabled
      cases hdisabled
  | notFound _ hfind =>
      rw [finds_of_findSlot hfind] at hfinds
      cases hfinds
  | found _ i s₁ hfind =>
      rw [asyncSends_send] at hsends
      exact (announcements_sevenBit_iff i loco diff).mp (List.forall_mem_append.mp hsends).2 hflag

/-! ### The loop over the engine database -/

/-- A flagged velocity fits, when the engine has a slot. -/
def DbEntry.VelocityFits (s : LocoNetSlotServer) (entry : DbEntry) : Prop :=
  entry.diff.velocity = true → s.finds entry.loco.address = true →
    FitsLnSpeed entry.loco.velocity

omit [AddressScheme] in
/-- A clean entry has no velocity flagged. -/
theorem DbEntry.velocity_of_clean {entry : DbEntry} (h : entry.hasUpdate = false) :
    entry.diff.velocity = false := by
  cases hflag : entry.diff.velocity with
  | false => rfl
  | true =>
      rw [DbEntry.hasUpdate, LocoDiff.hasDiff, hflag] at h
      exact h

/-- What the loop needs to know of an entry does not change before its turn. -/
theorem forwardEngineUpdate_velocityFits {task task' : RoutingTask}
    {j k : Fin kMaxNumDbEntries} (hjk : j ≠ k)
    (h : (forwardEngineUpdate j).run task = .ok ((), task')) :
    (task'.engineDb.entry k).VelocityFits task'.slotServer ↔
      (task.engineDb.entry k).VelocityFits task.slotServer := by
  rw [forwardEngineUpdate_other hjk h, DbEntry.VelocityFits, DbEntry.VelocityFits,
    (forwardEngineUpdate_server h).2]

omit [AddressScheme] in
/-- Messages are only added. -/
theorem asyncSends_of_sendAll {msgs : List LnMsg} (htx : s'.tx = s.tx.sendAll msgs)
    (hsends : ∀ m ∈ s'.asyncSends, m.SevenBit) : ∀ m ∈ s.asyncSends, m.SevenBit := by
  have happend : s'.asyncSends = s.asyncSends ++ msgs := by
    rw [← asyncSends_send, LocoNetSlotServer.asyncSends, htx]
    rfl
  rw [happend] at hsends
  exact (List.forall_mem_append.mp hsends).1

/-- When the iteration has sent seven-bit messages only, the velocity fits. -/
theorem forwardEngineUpdate_fits {task task' : RoutingTask} {k : Fin kMaxNumDbEntries}
    (henabled : task.slotServer.isDisabled = false)
    (h : (forwardEngineUpdate k).run task = .ok ((), task'))
    (hsends : ∀ m ∈ task'.slotServer.asyncSends, m.SevenBit) :
    (task.engineDb.entry k).VelocityFits task.slotServer := by
  rcases forwardEngineUpdate_run h with ⟨hclean, _⟩ | ⟨_, diff, hserver, _⟩
  · intro hflag
    rw [DbEntry.velocity_of_clean hclean] at hflag
    cases hflag
  · exact forwardLocoChange_fits henabled hserver hsends

/-- When the loop has sent seven-bit messages only, the velocities that it sent fit. -/
theorem forM_forwardEngineUpdate_fits :
    ∀ (ks : List (Fin kMaxNumDbEntries)) (task task' : RoutingTask), ks.Nodup →
      task.slotServer.isDisabled = false →
      (forM ks forwardEngineUpdate).run task = .ok ((), task') →
      (∀ m ∈ task'.slotServer.asyncSends, m.SevenBit) →
      ∀ k ∈ ks, (task.engineDb.entry k).VelocityFits task.slotServer := by
  intro ks
  induction ks with
  | nil => intro _ _ _ _ _ _ k hk; cases hk
  | cons j ks ih =>
      intro task task'' hnodup henabled h hsends k hk
      obtain ⟨hj, hks⟩ := List.nodup_cons.mp hnodup
      obtain ⟨task', hrun, hrest⟩ := (run_forM_cons forwardEngineUpdate).mp h
      have henabled' := (forwardEngineUpdate_server hrun).1.trans henabled
      obtain ⟨msgs, htx, _⟩ := forM_forwardEngineUpdate_sends ks task' task'' hks henabled' hrest
      rcases List.mem_cons.mp hk with rfl | hmem
      · exact forwardEngineUpdate_fits henabled hrun (asyncSends_of_sendAll htx hsends)
      · have hjk : j ≠ k := fun heq => hj (heq ▸ hmem)
        exact (forwardEngineUpdate_velocityFits hjk hrun).mp
          (ih task' task'' hks henabled' hrest hsends k hmem)

include hnumeric

/-- When the velocity fits, the iteration keeps the invariant. -/
theorem forwardEngineUpdate_wellFramed {task task' : RoutingTask} {k : Fin kMaxNumDbEntries}
    (hs : task.slotServer.WellFramed)
    (hfits : (task.engineDb.entry k).VelocityFits task.slotServer)
    (h : (forwardEngineUpdate k).run task = .ok ((), task')) : task'.slotServer.WellFramed := by
  rcases forwardEngineUpdate_run h with ⟨_, heq⟩ | ⟨_, diff, hserver, _⟩
  · rw [heq]
    exact hs
  · exact forwardLocoChange_wellFramed hnumeric hs hfits hserver

/-- When the velocities that it sends fit, the loop keeps the invariant. -/
theorem forM_forwardEngineUpdate_wellFramed :
    ∀ (ks : List (Fin kMaxNumDbEntries)) (task task' : RoutingTask), ks.Nodup →
      task.slotServer.WellFramed →
      (∀ k ∈ ks, (task.engineDb.entry k).VelocityFits task.slotServer) →
      (forM ks forwardEngineUpdate).run task = .ok ((), task') → task'.slotServer.WellFramed := by
  intro ks
  induction ks with
  | nil =>
      intro task task' _ hs _ h
      rw [run_forM_nil] at h
      rw [h]
      exact hs
  | cons j ks ih =>
      intro task task'' hnodup hs hfits h
      obtain ⟨hj, hks⟩ := List.nodup_cons.mp hnodup
      obtain ⟨task', hrun, hrest⟩ := (run_forM_cons forwardEngineUpdate).mp h
      have hs' := forwardEngineUpdate_wellFramed hnumeric hs (hfits j List.mem_cons_self) hrun
      refine ih task' task'' hks hs' (fun k hk => ?_) hrest
      have hjk : j ≠ k := fun heq => hj (heq ▸ hk)
      exact (forwardEngineUpdate_velocityFits hjk hrun).mpr (hfits k (List.mem_cons_of_mem j hk))

/-! ### Runs of the routing task -/

omit [AddressScheme] hnumeric in
/-- The loop over the slots changes neither addresses nor velocities. -/
theorem matchEngineOfSlot_wellFramed (i : Fin kNumSlots) (task task' : RoutingTask)
    (h : (matchEngineOfSlot i).run task = .ok ((), task'))
    (hs : task.slotServer.WellFramed) : task'.slotServer.WellFramed := by
  cases h
  refine hs.setSlot i ?_
  obtain ⟨uid, diff, hentry⟩ := (task.slotServer.slot i).forwardToCAN_eq task.engineDb
  rw [hentry]
  exact ⟨(hs.slot i).address, (hs.slot i).velocity⟩

end

/-- The messages in an event are messages that can come: received ones have seven-bit
arguments, and forwarded ones are made from a frame. -/
def TaskEvent.WellFormed [TurnoutScheme] : TaskEvent → Prop
  | .lnReceive msg => msg.SevenBit
  | .lnForward msg => ∃ frame, LocoNetForwarder.forward frame = some msg
  | _ => True

/-- Every velocity that the event sends fits. -/
def TaskEvent.VelocitiesFit (task : RoutingTask) : TaskEvent → Prop
  | .forwardEngineUpdates => task.slotServer.isDisabled = false →
      ∀ k, (task.engineDb.entry k).VelocityFits task.slotServer
  | _ => True

section

variable [AddressScheme] {task task' : RoutingTask} {e : TaskEvent}

/-- When the event has sent seven-bit messages only, its velocities fit. -/
theorem TaskEvent.exec_velocitiesFit (h : (e.exec).run task = .ok ((), task'))
    (hsends : ∀ m ∈ task'.slotServer.asyncSends, m.SevenBit) : e.VelocitiesFit task := by
  cases e with
  | forwardEngineUpdates =>
      intro henabled k
      rcases run_ifEnabled h with ⟨hdisabled, _⟩ | ⟨_, hloop⟩
      · rw [henabled] at hdisabled
        cases hdisabled
      · exact forM_forwardEngineUpdate_fits _ task task' (List.nodup_finRange _) henabled hloop
          hsends k (List.mem_finRange k)
  | _ => trivial

/-- Every event keeps the invariant, when the velocities that it sends fit. -/
theorem TaskEvent.exec_wellFramed [TurnoutScheme]
    (hnumeric : ∀ address : LocoAddr, (getNumericAddress address).toNat < 2 ^ 14)
    (hs : task.slotServer.WellFramed) (he : e.WellFormed) (hfits : e.VelocitiesFit task)
    (h : (e.exec).run task = .ok ((), task')) : task'.slotServer.WellFramed := by
  -- One case per event. Those that do not touch the slots keep them by definition.
  cases e with
  | handlePacket effect =>
      cases h
      exact hs
  | lnForward msg =>
      obtain ⟨frame, hframe⟩ := he
      have hsend := (onSlotServer_run h).1
      rw [asyncSend_run, Except.ok.injEq, Prod.mk.injEq] at hsend
      rw [← hsend.2]
      exact hs.send (List.forall_mem_singleton.mpr (forward_sevenBit hframe))
  | forwardEngineUpdates =>
      rcases run_ifEnabled h with ⟨_, heq⟩ | ⟨henabled, hloop⟩
      · rw [heq]
        exact hs
      · exact forM_forwardEngineUpdate_wellFramed hnumeric _ task task' (List.nodup_finRange _) hs
          (fun k _ => hfits henabled k) hloop
  -- The dummy answers come first, then the message itself.
  | lnReceive msg =>
      obtain ⟨_, s₁, hdummy, hprocess⟩ := run_bind_eq_ok.mp (onSlotServer_run h).1
      have hs₁ : s₁.WellFramed := by
        rw [handleDummyMessages_eq hdummy]
        exact hs.send (dummyAnswer_sevenBit task.slotServer msg)
      exact process_wellFramed hnumeric hs₁ he hprocess
  | matchEngines =>
      rcases run_ifEnabled h with ⟨_, heq⟩ | ⟨_, hloop⟩
      · rw [heq]
        exact hs
      · exact forM_rel matchEngineOfSlot
          (R := fun task task' => task.slotServer.WellFramed → task'.slotServer.WellFramed)
          (fun _ hs => hs) (fun _ _ _ h₁ h₂ hs => h₂ (h₁ hs)) matchEngineOfSlot_wellFramed _ _ _
          hloop hs
  | setSlotServerState state =>
      cases h
      exact ⟨hs.slot, hs.asyncSends⟩
  -- Marking an address may take a slot into use, and sends nothing.
  | dispatch addr =>
      obtain ⟨it, s₁, hfind, _, heq⟩ := markAddressForDispatch_run (onSlotServer_run h).1
      have hs₁ := findOrAllocateSlotForAddress_wellFramed hnumeric hs hfind
      rw [heq]
      exact ⟨hs₁.slot, hs₁.asyncSends⟩
  | blockingSend =>
      cases h
      exact ⟨hs.slot, hs.asyncSends⟩

end

/-- In a run of the routing task from start-up, all messages that are handed to `AsyncSend` have
seven-bit arguments exactly when, whenever the loop over the engine database runs, every
flagged velocity of an engine with a slot fits. -/
theorem asyncSends_sevenBit_iff [AddressScheme] [TurnoutScheme]
    (hnumeric : ∀ address : LocoAddr, (getNumericAddress address).toNat < 2 ^ 14)
    (dataModel : DataModel) (es : List TaskEvent) (hes : ∀ e ∈ es, e.WellFormed) :
    Along TaskEvent.exec (fun _ _ task' => ∀ m ∈ task'.slotServer.asyncSends, m.SevenBit)
        { slotServer := { dataModel := dataModel } } es ↔
      Along TaskEvent.exec (fun task e _ => e.VelocitiesFit task)
        { slotServer := { dataModel := dataModel } } es := by
  constructor
  · intro halong
    -- Seven-bit messages show that the velocities fitted, and then the slots keep fitting, too.
    refine along_of_invariant TaskEvent.exec (I := fun task => task.slotServer.WellFramed)
      (fun task e task' hs hrun hstep => ?_) es _ (wellFramed_start dataModel)
      (along_and_of_forall TaskEvent.exec es _ hes halong)
    have hfits := TaskEvent.exec_velocitiesFit hrun hstep.2
    exact ⟨TaskEvent.exec_wellFramed hnumeric hs hstep.1 hfits hrun, hfits⟩
  · intro halong
    -- Velocities that fit keep the invariant, which has the messages as a field.
    refine along_of_invariant TaskEvent.exec (I := fun task => task.slotServer.WellFramed)
      (fun task e task' hs hrun hstep => ?_) es _ (wellFramed_start dataModel)
      (along_and_of_forall TaskEvent.exec es _ hes halong)
    have hs' := TaskEvent.exec_wellFramed hnumeric hs hstep.1 hstep.2 hrun
    exact ⟨hs', hs'.asyncSends⟩

/-- The database has an entry. -/
theorem zero_lt_kMaxNumDbEntries : 0 < kMaxNumDbEntries := by decide

/-- Engine 3 is downloaded, and its velocity is set. -/
def TaskEvent.setVelocityOfEngine3 (velocity : Velocity) : TaskEvent :=
  .handlePacket fun engineDb =>
    (engineDb.setEntry ⟨0, zero_lt_kMaxNumDbEntries⟩
      { loco := { uid := 3, address := 3, availability := .fullDetails } }).setLocoVelocity 3
        velocity

/-- The two events are well formed: they receive nothing. -/
theorem TaskEvent.setVelocityOfEngine3_wellFormed [TurnoutScheme] (velocity : Velocity) :
    ∀ e ∈ [TaskEvent.setVelocityOfEngine3 velocity, .forwardEngineUpdates], e.WellFormed :=
  List.forall_mem_cons.mpr ⟨trivial, List.forall_mem_singleton.mpr trivial⟩

/-- Velocity 500 goes to LocoNet in a seven-bit message. -/
theorem asyncSends_sevenBit_iff_velocity500 :
    letI := AddressScheme.upperBits
    Along TaskEvent.exec (fun _ _ task' => ∀ m ∈ task'.slotServer.asyncSends, m.SevenBit)
      { slotServer := { dataModel := { lnSlotServerState := .active } } }
      [.setVelocityOfEngine3 500, .forwardEngineUpdates] := by
  let _ := AddressScheme.upperBits
  let _ := TurnoutScheme.upperBits
  refine (asyncSends_sevenBit_iff upperBits_lt { lnSlotServerState := .active } _
    (TaskEvent.setVelocityOfEngine3_wellFormed 500)).mpr fun task h => ⟨trivial, ?_⟩
  cases h
  refine fun task' _ => ⟨fun _ k _ _ => ?_, trivial⟩
  revert k
  decide

/-- An engine drives at velocity 1100: the speed byte is 140. -/
theorem velocity1100_speed140 :
    letI := AddressScheme.upperBits
    letI := TurnoutScheme.upperBits
    let task : RoutingTask := { slotServer := { dataModel := { lnSlotServerState := .active } } }
    let es : List TaskEvent := [.setVelocityOfEngine3 1100, .forwardEngineUpdates]
    (∀ e ∈ es, e.WellFormed) ∧ canVelocityToLnSpeed 1100 = 140 ∧
      ∃ task', (forM es TaskEvent.exec).run task = .ok ((), task') ∧
        task'.slotServer.asyncSends = [.locoSpd { slot := 1, spd := 140 }] ∧
        ¬ (LnMsg.locoSpd { slot := 1, spd := 140 }).SevenBit := by
  let _ := AddressScheme.upperBits
  let _ := TurnoutScheme.upperBits
  intro task es
  have hsends : ((forM es TaskEvent.exec).run task).toOption.map (·.2.slotServer.asyncSends)
      = some [.locoSpd { slot := 1, spd := 140 }] := by
    set_option maxRecDepth 8000 in
    decide
  obtain ⟨task', hrun, hcalls⟩ :=
    exists_run_of_observed (fun task : RoutingTask => task.slotServer.asyncSends) hsends
  exact ⟨TaskEvent.setVelocityOfEngine3_wellFormed 1100, by decide, task', hrun, hcalls, by decide⟩

end C6021Light
