import C6021Light.Proofs.CANForwarderRun

/-!
# `C6021Light.Proofs.CANReplication`: from a slot to CAN

An engine on CAN follows its slot. Control messages change the slot and raise flags, and the
next `CANForwarder::forwardLocoChange` sends the flagged attributes. This is replication by
change flags: the slot is the primary, the engine on CAN is the replica, and the frames are
the messages.

The invariant between two forwards is that every attribute without a flag agrees. The flags may
name more: a function that was switched on and off again is sent once, with its old value.
-/

set_option autoImplicit false

namespace C6021Light

open BitMask DirtyFlags

/-! ### Frames as messages -/

/-- What a frame does to the engine it addresses. -/
def EngineFrame.apply : EngineFrame → EngineState → EngineState
  | .velocity _ v, engine => { engine with velocity := v }
  | .direction _ d, engine => { engine with direction := d }
  | .function _ functionIdx functionOn, engine =>
      { engine with functions := setBit engine.functions functionIdx functionOn }

/-- The slot and the engine on CAN have the same value of an attribute. -/
def AgreesOnCAN (a : EngineAttribute) (slot engine : EngineState) : Prop := slot.SameOn a engine

/-- The frame of an attribute carries it over, and leaves the other attributes alone. -/
theorem LocomotiveData.frame_carrier (loco : LocomotiveData) (a : EngineAttribute) :
    Carrier AgreesOnCAN EngineFrame.apply loco.state (fun frame a => frame.attribute = a)
      (loco.frame a) where
  updates := by
    intro b engine hb
    rw [LocomotiveData.frame_attribute] at hb
    subst hb
    cases a with
    | velocity => rfl
    | direction => rfl
    | function f =>
        show loco.functions.getLsbD f
          = (setBit engine.functions f (loco.functions.getLsbD f)).getLsbD f
        rw [getLsbD_setBit]
        -- A function outside the register reads as off on both sides.
        by_cases hf : f < 32
        · rw [if_pos ⟨rfl, hf⟩]
        · rw [if_neg (fun h => hf h.2), BitVec.getLsbD_of_ge _ _ (Nat.le_of_not_lt hf),
            BitVec.getLsbD_of_ge _ _ (Nat.le_of_not_lt hf)]
  keeps := by
    intro b engine hb
    cases a with
    | velocity =>
        cases b with
        | velocity => rfl
        | direction => exact hb
        | function g => exact hb
    | direction =>
        cases b with
        | velocity => exact hb
        | direction => rfl
        | function g => exact hb
    | function f =>
        cases b with
        | velocity => exact hb
        | direction => exact hb
        | function g =>
            have hg : loco.functions.getLsbD g = engine.functions.getLsbD g := hb
            show loco.functions.getLsbD g
              = (setBit engine.functions f (loco.functions.getLsbD f)).getLsbD g
            rw [getLsbD_setBit]
            split
            · next h => rw [h.1]
            · exact hg

/-! ### Control messages as changes -/

/-- A control message flags what it changes. -/
theorem SlotEntry.control_flaggedChange (m : LnMsg) (entry : SlotEntry) :
    FlaggedChange AgreesOnCAN entry.loco.state (fun a => entry.diff.flagged a = true)
      (entry.control m).loco.state (fun a => (entry.control m).diff.flagged a = true) where
  keeps_flags := fun _ h => SlotEntry.control_flagged m h
  flags_changes := by
    intro a engine hclean hagrees
    exact (SlotEntry.control_sameOn m (Bool.eq_false_iff.mpr hclean)).trans hagrees

/-- Control messages do not change which engine the slot stands for. -/
theorem foldl_control_identity :
    ∀ (msgs : List LnMsg) (entry : SlotEntry),
      (msgs.foldl (fun entry m => entry.control m) entry).identity = entry.identity := by
  intro msgs
  induction msgs with
  | nil => intro entry; rfl
  | cons m msgs ih =>
      intro entry
      rw [List.foldl_cons, ih, SlotEntry.control_identity]

/-- The function frames that are sent for a slot were raised by one of its messages. -/
theorem exists_message_of_flagged {entry : SlotEntry} (hclean : entry.diff = {})
    {msgs : List LnMsg} {f : Nat}
    (hflag : (msgs.foldl (fun entry m => entry.control m) entry).diff.flagged (.function f)
      = true) :
    ∃ before m after, msgs = before ++ m :: after ∧
      ((before.foldl (fun entry m => entry.control m) entry).control m).loco.getFunction f
        ≠ (before.foldl (fun entry m => entry.control m) entry).loco.getFunction f := by
  have hdown : ¬ entry.diff.flagged (.function f) = true := by
    rw [hclean, LocoDiff.flagged_empty]
    decide
  obtain ⟨before, m, after, hmsgs, hbefore, hafter⟩ :=
    exists_raising_step (fun entry : SlotEntry => entry.diff.flagged (.function f) = true)
      SlotEntry.control msgs entry hdown hflag
  exact ⟨before, m, after, hmsgs,
    SlotEntry.control_raises_function (Bool.eq_false_iff.mpr hbefore) hafter⟩

/-- Among messages for a slot in use without flags, the one that raised a function's flag changed
this function when it was processed. -/
theorem exists_process_of_flagged [AddressScheme] {server : LocoNetSlotServer}
    {i : Fin kNumSlots} (hin : (server.slot i).inUse = true)
    (hclean : (server.slot i).diff = {}) {msgs : List LnMsg}
    (hmsgs : ∀ m ∈ msgs, m.ControlsSlot i) {f : Nat}
    (hflag : (msgs.foldl (fun entry m => entry.control m) (server.slot i)).diff.flagged
      (.function f) = true) :
    ∃ before m after, msgs = before ++ m :: after ∧
      ∃ server₁ server₂, (forM before process).run server = .ok ((), server₁) ∧
        (process m).run server₁ = .ok ((), server₂) ∧
        (server₂.slot i).loco.getFunction f ≠ (server₁.slot i).loco.getFunction f := by
  obtain ⟨before, m, after, hsplit, hchanged⟩ := exists_message_of_flagged hclean hflag
  have hbefore : ∀ m ∈ before, m.ControlsSlot i := fun m' hm' =>
    hmsgs m' (by rw [hsplit]; exact List.mem_append_left _ hm')
  obtain ⟨slot, hslot, hi⟩ := (hmsgs m (by simp [hsplit])).exists_slot
  let server₁ := server.setSlot i
    (before.foldl (fun entry m => entry.control m) (server.slot i))
  have hin₁ : (server₁.slot i).inUse = true := by
    rw [LocoNetSlotServer.slot_setSlot_self]
    exact (congrArg Prod.fst (foldl_control_identity before (server.slot i))).trans hin
  refine ⟨before, m, after, hsplit, server₁, _, forM_control_run before server hbefore hin,
    process_control_run_of_inUse hslot hi hin₁, ?_⟩
  rw [LocoNetSlotServer.slot_setSlot_self, LocoNetSlotServer.slot_setSlot_self]
  exact hchanged

/-! ### Replication -/

/-- A slot in use without flags, and an engine on CAN with the same attributes. After any
control messages for the slot, the frames of the next forward make the engine equal to the
slot again. No attribute is sent twice, a function is sent only when a message changed it, and
no flag is left. -/
theorem forwardToCAN_replicates [AddressScheme] (server : LocoNetSlotServer)
    (i : Fin kNumSlots) (hin : (server.slot i).inUse = true)
    (hclean : (server.slot i).diff = {}) (engine : EngineState)
    (hengine : engine = (server.slot i).loco.state) (msgs : List LnMsg)
    (hmsgs : ∀ m ∈ msgs, m.ControlsSlot i) :
    ∃ entry frames, (forM msgs process).run server = .ok ((), server.setSlot i entry) ∧
      CANForwarder.forwardLocoChange entry.loco entry.diff = (frames, {}) ∧
      frames.foldl (fun engine frame => frame.apply engine) engine = entry.loco.state ∧
      (frames.map EngineFrame.attribute).Nodup ∧
      (∀ frame ∈ frames, frame.uid = (server.slot i).loco.uid) ∧
      (∀ f, (∃ frame ∈ frames, frame.attribute = .function f) →
        ∃ before m after, msgs = before ++ m :: after ∧
          ∃ server₁ server₂, (forM before process).run server = .ok ((), server₁) ∧
            (process m).run server₁ = .ok ((), server₂) ∧
            (server₂.slot i).loco.getFunction f ≠ (server₁.slot i).loco.getFunction f) := by
  let entry := msgs.foldl (fun entry m => entry.control m) (server.slot i)
  have hrun := forM_control_run msgs server hmsgs hin
  have hstart : SyncedOff AgreesOnCAN (fun a => (server.slot i).diff.flagged a = true)
      (server.slot i).loco.state engine := by
    intro a _
    rw [hengine]
    exact .refl a _
  have hsynced : SyncedOff AgreesOnCAN (fun a => entry.diff.flagged a = true) entry.loco.state
      engine :=
    SyncedOff.run SlotEntry.control_flaggedChange msgs (server.slot i) engine hstart
  have hcarriers : ∀ frame ∈ entry.diff.attributes.map entry.loco.frame,
      Carrier AgreesOnCAN EngineFrame.apply entry.loco.state (fun frame a => frame.attribute = a)
        frame := by
    intro frame hframe
    obtain ⟨a, _, rfl⟩ := List.mem_map.mp hframe
    exact entry.loco.frame_carrier a
  have hall : ∀ a, entry.diff.flagged a = true →
      ∃ frame ∈ entry.diff.attributes.map entry.loco.frame, frame.attribute = a := fun a ha =>
    ⟨_, List.mem_map_of_mem (LocoDiff.mem_attributes.mpr ha), entry.loco.frame_attribute a⟩
  -- In order: the state, the frames' attributes, their UID, and where a function frame comes from.
  refine ⟨entry, _, hrun, CANForwarder.forwardLocoChange_eq entry.loco entry.diff, ?_, ?_, ?_, ?_⟩
  · exact (EngineState.eq_of_sameOn (hsynced.flush hcarriers hall)).symm
  · have hattributes : (entry.diff.attributes.map entry.loco.frame).map EngineFrame.attribute
        = entry.diff.attributes := by
      simp [Function.comp_def]
    rw [hattributes]
    exact entry.diff.attributes_nodup
  · intro frame hframe
    obtain ⟨a, _, rfl⟩ := List.mem_map.mp hframe
    rw [LocomotiveData.frame_uid]
    exact congrArg (fun identity => identity.2.1) (foldl_control_identity msgs (server.slot i))
  · rintro f ⟨frame, hframe, hattribute⟩
    obtain ⟨a, ha, rfl⟩ := List.mem_map.mp hframe
    rw [LocomotiveData.frame_attribute] at hattribute
    subst hattribute
    exact exists_process_of_flagged hin hclean hmsgs (LocoDiff.mem_attributes.mp ha)

/-- Sound functions switched on and off again, and a new speed. -/
theorem forwardToCAN_replicates_toggled :
    letI := AddressScheme.upperBits
    let loco : LocomotiveData := { uid := 5, velocity := 300, functions := 0x5 }
    let server := ({ dataModel := { lnSlotServerState := .active } } : LocoNetSlotServer).setSlot
      3 { inUse := true, loco := loco }
    let msgs : List LnMsg := [.locoSnd { slot := 3, snd := 15 }, .locoSpd { slot := 3, spd := 99 },
      .locoSnd { slot := 3, snd := 0 }]
    ∃ entry frames, (forM msgs process).run server = .ok ((), server.setSlot 3 entry) ∧
      CANForwarder.forwardLocoChange entry.loco entry.diff = (frames, {}) ∧
      frames.foldl (fun engine frame => frame.apply engine) loco.state = entry.loco.state := by
  let _ := AddressScheme.upperBits
  intro loco server msgs
  have hslot : server.slot 3 = { inUse := true, loco := loco } :=
    LocoNetSlotServer.slot_setSlot_self _ _ _
  obtain ⟨entry, frames, hrun, hforward, hstate, _⟩ := forwardToCAN_replicates server 3
    (by rw [hslot]) (by rw [hslot]) loco.state (by rw [hslot]) msgs (by decide)
  exact ⟨entry, frames, hrun, hforward, hstate⟩

end C6021Light
