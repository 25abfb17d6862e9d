import C6021Light.Proofs.EngineAttributes
import C6021Light.Proofs.ForwarderRun
import C6021Light.RoutingTask.CanEngineDB

/-!
# `C6021Light.Proofs.LocoNetReplication`: from the engine database to LocoNet

A slot server on LocoNet follows an engine of the database. The setters of `CanEngineDB` change
the engine and raise flags, and the next `LocoNetForwarder::forwardLocoChange` announces the
flagged attributes. The engine is the primary, the slot of the peer is the replica, and the
announcements are the messages.

LocoNet has 127 speeds for 1000 velocities and no functions above F28, so `AgreesOnLocoNet`
compares the velocity after rounding and leaves F29 to F31 out.

A function message carries its whole group, so an announcement brings more than the flagged
functions. It is built from the engine, so what it brings on top agrees as well.
-/

set_option autoImplicit false

namespace C6021Light

open BitMask FaultRun DirtyFlags

/-! ### The comparison -/

/-- The attribute exists on LocoNet. -/
def EngineAttribute.onLocoNet : EngineAttribute → Bool
  | .velocity => true
  | .direction => true
  | .function f => decide (f ≤ 28)

/-- The engine and the slot have the same value of an attribute, as far as LocoNet can tell. -/
def AgreesOnLocoNet (a : EngineAttribute) (engine slot : EngineState) : Prop :=
  match a with
  | .velocity => slot.velocity = lnSpeedToCanVelocity (canVelocityToLnSpeed engine.velocity)
  | .direction => slot.direction = engine.direction
  | .function f => f ≤ 28 → slot.functions.getLsbD f = engine.functions.getLsbD f

/-- An attribute that LocoNet does not have agrees. -/
theorem agreesOnLocoNet_of_notOn {a : EngineAttribute} (h : a.onLocoNet = false)
    (engine slot : EngineState) : AgreesOnLocoNet a engine slot := by
  cases a with
  | velocity => cases h
  | direction => cases h
  | function f => exact fun hf => absurd hf (of_decide_eq_false h)

/-- The comparison reads one attribute of the engine. -/
theorem agreesOnLocoNet_of_sameOn (a : EngineAttribute) (engine engine' slot : EngineState)
    (hsame : engine'.SameOn a engine) (h : AgreesOnLocoNet a engine slot) :
    AgreesOnLocoNet a engine' slot := by
  cases a with
  | velocity =>
      have hvelocity : engine'.velocity = engine.velocity := hsame
      show slot.velocity = lnSpeedToCanVelocity (canVelocityToLnSpeed engine'.velocity)
      rw [hvelocity]
      exact h
  | direction =>
      have hdirection : engine'.direction = engine.direction := hsame
      show slot.direction = engine'.direction
      rw [hdirection]
      exact h
  | function f =>
      have hfunction : engine'.functions.getLsbD f = engine.functions.getLsbD f := hsame
      intro hf
      rw [hfunction]
      exact h hf

/-! ### What a message carries -/

/-- The attributes that the message of a group carries. -/
def FunctionGroup.carries (g : FunctionGroup) : EngineAttribute → Bool
  | .velocity => false
  | .direction => g = .dirf
  | .function f => g.mask.getLsbD f

/-- Every function of LocoNet has its group. -/
theorem FunctionGroup.exists_mask {f : Nat} (hf : f ≤ 28) : ∃ g ∈ all, g.mask.getLsbD f = true := by
  have hall : ∀ f : Fin 29, ∃ g ∈ all, g.mask.getLsbD f = true := by decide
  exact hall ⟨f, Nat.lt_succ_of_le hf⟩

/-- The groups end at F28. -/
theorem FunctionGroup.le_of_mask {g : FunctionGroup} {f : Nat} (h : g.mask.getLsbD f = true) :
    f ≤ 28 := by
  have hwidth : f < 32 := BitVec.lt_of_getLsbD h
  -- The masks are closed terms, so the 32 functions can be tried.
  have hall : ∀ g : FunctionGroup, ∀ f : Fin 32, g.mask.getLsbD f = true → (f : Nat) ≤ 28 := by
    intro g
    cases g <;> decide
  exact hall g ⟨f, hwidth⟩ h

/-- A message of the announcements carries an attribute. -/
def Announces (slotIdx : Byte) (loco : LocomotiveData) (m : LnMsg) (a : EngineAttribute) : Prop :=
  (m = lnLocoSpeed slotIdx loco.velocity ∧ a = .velocity) ∨
    ∃ g : FunctionGroup, m = g.message slotIdx loco ∧ g.carries a = true

/-- The slot after a function message, attribute by attribute. -/
theorem SlotEntry.control_message_state (g : FunctionGroup) (slotIdx : Byte)
    (loco : LocomotiveData) (entry : SlotEntry) :
    (entry.control (g.message slotIdx loco)).loco.state =
      { velocity := entry.loco.velocity
        direction := if g = .dirf then loco.direction else entry.loco.direction
        functions := merge g.mask loco.functions entry.loco.functions } := by
  rw [SlotEntry.control_message]
  cases g <;> rfl

/-- The announcement of a velocity. -/
theorem lnLocoSpeed_carrier (slotIdx : Byte) (loco : LocomotiveData) :
    Carrier (fun a engine (entry : SlotEntry) => AgreesOnLocoNet a engine entry.loco.state)
      SlotEntry.control loco.state (Announces slotIdx loco)
      (lnLocoSpeed slotIdx loco.velocity) where
  updates := by
    intro a entry ha
    rcases ha with ⟨_, rfl⟩ | ⟨g, hg, _⟩
    -- No group message is a speed message.
    · rfl
    · cases g <;> cases hg
  keeps := by
    intro a entry ha
    cases a with
    | velocity => rfl
    | direction => exact ha
    | function f => exact ha

/-- The announcement of a group. -/
theorem FunctionGroup.message_carrier (g : FunctionGroup) (slotIdx : Byte)
    (loco : LocomotiveData) :
    Carrier (fun a engine (entry : SlotEntry) => AgreesOnLocoNet a engine entry.loco.state)
      SlotEntry.control loco.state (Announces slotIdx loco) (g.message slotIdx loco) where
  updates := by
    intro a entry ha
    have hcarries : g.carries a = true := by
      rcases ha with ⟨hspeed, _⟩ | ⟨g', hg', hcarries⟩
      · cases g <;> cases hspeed
      · rw [FunctionGroup.message_injective slotIdx loco hg']
        exact hcarries
    simp only [SlotEntry.control_message_state]
    cases a with
    | velocity => cases hcarries
    | direction =>
        have hdirf : g = .dirf := of_decide_eq_true hcarries
        exact if_pos hdirf
    | function f =>
        have hmask : g.mask.getLsbD f = true := hcarries
        intro _
        show (merge g.mask loco.functions entry.loco.functions).getLsbD f = _
        rw [getLsbD_merge, hmask]
        rfl
  keeps := by
    intro a entry ha
    simp only [SlotEntry.control_message_state]
    cases a with
    | velocity => exact ha
    | direction =>
        show (if g = .dirf then loco.direction else entry.loco.direction) = loco.direction
        split
        · rfl
        · exact ha
    | function f =>
        intro hf
        show (merge g.mask loco.functions entry.loco.functions).getLsbD f = _
        rw [getLsbD_merge]
        -- A function under the mask comes from the engine, so it agrees in any case.
        cases g.mask.getLsbD f with
        | true => rfl
        | false => exact ha hf

/-- Every announcement carries attributes of the engine and breaks none. -/
theorem announcements_carrier (slotIdx : Byte) (loco : LocomotiveData) (diff : LocoDiff) :
    ∀ m ∈ announcements slotIdx loco diff,
      Carrier (fun a engine (entry : SlotEntry) => AgreesOnLocoNet a engine entry.loco.state)
        SlotEntry.control loco.state (Announces slotIdx loco) m := by
  intro m hm
  rcases List.mem_append.mp hm with hm | hm
  · split at hm
    · rw [List.mem_singleton.mp hm]
      exact lnLocoSpeed_carrier slotIdx loco
    · cases hm
  · obtain ⟨g, _, rfl⟩ := List.mem_map.mp hm
    exact g.message_carrier slotIdx loco

/-- A flagged function of a group makes the forwarder announce the group. -/
theorem FunctionGroup.announcedBy_of_flagged {g : FunctionGroup} {diff : LocoDiff} {f : Nat}
    (hmask : g.mask.getLsbD f = true) (hflag : diff.functions.getLsbD f = true) :
    g.announcedBy diff = true := by
  have hne : diff.functions &&& g.mask ≠ 0 := by
    intro hzero
    have hbit := congrArg (fun word => word.getLsbD f) hzero
    simp [hmask, hflag] at hbit
  have htest : decide (diff.functions &&& g.mask ≠ 0) = true := decide_eq_true hne
  cases g with
  | dirf => exact Bool.or_eq_true_iff.mpr (.inr htest)
  | _ => exact htest

/-- A group is announced for the direction, or for one of its flagged functions. -/
theorem FunctionGroup.announcedBy_cases {g : FunctionGroup} {diff : LocoDiff}
    (h : g.announcedBy diff = true) :
    (g = .dirf ∧ diff.direction = true) ∨
      ∃ f, g.mask.getLsbD f = true ∧ diff.functions.getLsbD f = true := by
  have hmasked : decide (diff.functions &&& g.mask ≠ 0) = true →
      ∃ f, g.mask.getLsbD f = true ∧ diff.functions.getLsbD f = true := by
    intro htest
    -- Without a flagged function of the group the masked word is 0.
    by_contra hnone
    refine of_decide_eq_true htest (BitVec.eq_of_getLsbD_eq fun f _ => ?_)
    rw [BitVec.getLsbD_and]
    cases hflag : diff.functions.getLsbD f with
    | true =>
        cases hmask : g.mask.getLsbD f with
        | true => exact absurd ⟨f, hmask, hflag⟩ hnone
        | false => simp
    | false => simp
  cases g with
  | dirf =>
      rcases Bool.or_eq_true_iff.mp h with hdirection | htest
      · exact .inl ⟨rfl, hdirection⟩
      · exact .inr (hmasked htest)
  | _ => exact .inr (hmasked h)

/-- An announced group is among the messages. -/
theorem mem_announcements_of_announcedBy {g : FunctionGroup} {diff : LocoDiff}
    (h : g.announcedBy diff = true) (slotIdx : Byte) (loco : LocomotiveData) :
    g.message slotIdx loco ∈ announcements slotIdx loco diff := by
  have hall : g ∈ FunctionGroup.all := by cases g <;> decide
  exact List.mem_append_right _
    (List.mem_map_of_mem (List.mem_filter.mpr ⟨hall, h⟩))

/-- Every flagged attribute of LocoNet is announced. -/
theorem exists_announcement {diff : LocoDiff} {a : EngineAttribute}
    (hflag : diff.flagged a = true) (hon : a.onLocoNet = true) (slotIdx : Byte)
    (loco : LocomotiveData) :
    ∃ m ∈ announcements slotIdx loco diff, Announces slotIdx loco m a := by
  cases a with
  | velocity =>
      have hvelocity : diff.velocity = true := hflag
      refine ⟨lnLocoSpeed slotIdx loco.velocity, ?_, .inl ⟨rfl, rfl⟩⟩
      rw [announcements, if_pos hvelocity]
      exact List.mem_append_left _ (List.mem_singleton_self _)
  | direction =>
      have hdirection : diff.direction = true := hflag
      have hannounced : FunctionGroup.dirf.announcedBy diff = true := by
        rw [FunctionGroup.announcedBy, hdirection, Bool.true_or]
      exact ⟨_, mem_announcements_of_announcedBy hannounced slotIdx loco,
        .inr ⟨.dirf, rfl, rfl⟩⟩
  | function f =>
      obtain ⟨g, _, hmask⟩ := FunctionGroup.exists_mask (of_decide_eq_true hon)
      exact ⟨_, mem_announcements_of_announcedBy
        (FunctionGroup.announcedBy_of_flagged hmask hflag) slotIdx loco, .inr ⟨g, rfl, hmask⟩⟩

/-! ### The setters -/

/-- A setter flags what it changes. -/
def DbEntry.Flags (entry entry' : DbEntry) : Prop :=
  FlaggedChange EngineState.SameOn entry.loco.state (fun a => entry.diff.flagged a = true)
    entry'.loco.state (fun a => entry'.diff.flagged a = true)

/-- No change needs no flag. -/
theorem DbEntry.Flags.refl (entry : DbEntry) : entry.Flags entry where
  keeps_flags := fun _ h => h
  flags_changes := fun _ _ _ h => h

/-- A setter that changes one attribute `b`, raises its flag and leaves the rest alone. -/
theorem DbEntry.Flags.of_attribute {entry entry' : DbEntry} (b : EngineAttribute)
    (hraised : entry'.diff.flagged b = true)
    (hflags : ∀ a, a ≠ b → entry'.diff.flagged a = entry.diff.flagged a)
    (hstate : ∀ a, a ≠ b → entry'.loco.state.SameOn a entry.loco.state) :
    entry.Flags entry' where
  keeps_flags := by
    intro a ha
    by_cases hab : a = b
    · rw [hab]
      exact hraised
    · rw [hflags a hab]
      exact ha
  flags_changes := by
    intro a r hclean hsame
    have hab : a ≠ b := by
      rintro rfl
      exact hclean hraised
    exact (hstate a hab).trans hsame

/-- Setting the velocity flags it. -/
theorem DbEntry.setLocoVelocity_flags (velocity : Velocity) (entry : DbEntry) :
    entry.Flags (entry.setLocoVelocity velocity) := by
  rw [DbEntry.setLocoVelocity]
  split
  · refine .of_attribute .velocity rfl ?_ ?_
    · intro a ha
      cases a with
      | velocity => exact absurd rfl ha
      | _ => rfl
    · intro a ha
      cases a with
      | velocity => exact absurd rfl ha
      | _ => rfl
  · exact .refl entry

/-- The two ways to change a direction. -/
theorem DbEntry.direction_flags (direction : EngineDirection) (entry : DbEntry) :
    entry.Flags
      { loco := { entry.loco with direction := direction }
        diff := { entry.diff with direction := true } } := by
  refine .of_attribute .direction rfl ?_ ?_
  · intro a ha
    cases a with
    | direction => exact absurd rfl ha
    | _ => rfl
  · intro a ha
    cases a with
    | direction => exact absurd rfl ha
    | _ => rfl

/-- Setting the direction flags it. -/
theorem DbEntry.setLocoDirection_flags (direction : EngineDirection) (entry : DbEntry) :
    entry.Flags (entry.setLocoDirection direction) := by
  rw [DbEntry.setLocoDirection]
  split
  · exact entry.direction_flags direction
  · exact .refl entry

/-- Changing the direction flags it. -/
theorem DbEntry.changeLocoDirection_flags (entry : DbEntry) :
    entry.Flags entry.changeLocoDirection :=
  entry.direction_flags _

/-- Setting a function flags it. -/
theorem DbEntry.setLocoFunction_flags (functionIdx : Nat) (functionOn : Bool)
    (entry : DbEntry) : entry.Flags (entry.setLocoFunction functionIdx functionOn) := by
  rw [DbEntry.setLocoFunction]
  split
  · by_cases hwidth : functionIdx < 32
    · refine .of_attribute (.function functionIdx) ?_ ?_ ?_
      · show (entry.diff.functions ||| (1#32 <<< functionIdx)).getLsbD functionIdx = true
        rw [BitVec.getLsbD_or, ← BitVec.twoPow_eq, BitVec.getLsbD_twoPow]
        simp [hwidth]
      · intro a ha
        cases a with
        | function f =>
            have hne : functionIdx ≠ f := fun h => ha (by rw [h])
            show (entry.diff.functions ||| (1#32 <<< functionIdx)).getLsbD f
              = entry.diff.functions.getLsbD f
            rw [BitVec.getLsbD_or, ← BitVec.twoPow_eq, BitVec.getLsbD_twoPow]
            simp [hne]
        | _ => rfl
      · intro a ha
        cases a with
        | function f =>
            have hne : functionIdx ≠ f := fun h => ha (by rw [h])
            exact getLsbD_setBit_ne _ hne functionOn
        | _ => rfl
    · -- A function that does not exist: neither the register nor the flags change.
      have hout : ∀ x : FunctionBits, setBit x functionIdx functionOn = x := by
        intro x
        apply BitVec.eq_of_getLsbD_eq
        intro j hj
        exact getLsbD_setBit_ne _ (by omega) functionOn
      have hflag : entry.diff.functions ||| (1#32 <<< functionIdx) = entry.diff.functions := by
        rw [BitVec.shiftLeft_eq_zero (by omega), BitVec.or_zero]
      rw [hout, hflag]
      exact .refl entry
  · exact .refl entry

/-! ### The calls on the database -/

/-- Every call of a setter flags what it changes, in every entry. -/
theorem EngineCall.run_flags (call : EngineCall) (engineDb : CanEngineDB)
    (k : Fin kMaxNumDbEntries) : (engineDb.entry k).Flags ((call.run engineDb).entry k) :=
  call.run_rel .refl DbEntry.setLocoVelocity_flags DbEntry.setLocoFunction_flags
    DbEntry.setLocoDirection_flags DbEntry.changeLocoDirection_flags engineDb k

/-! ### Replication -/

/-- The flagged attributes of LocoNet. An attribute that LocoNet does not have agrees with or
without its flag. -/
theorem syncedOff_onLocoNet {diff : LocoDiff} {engine : EngineState} {entry : SlotEntry}
    (h : SyncedOff (fun a engine (entry : SlotEntry) => AgreesOnLocoNet a engine entry.loco.state)
      (fun a => diff.flagged a = true) engine entry) :
    SyncedOff (fun a engine (entry : SlotEntry) => AgreesOnLocoNet a engine entry.loco.state)
      (fun a => diff.flagged a = true ∧ a.onLocoNet = true) engine entry := by
  intro a ha
  cases hon : a.onLocoNet with
  | true => exact h a fun hflag => ha ⟨hflag, hon⟩
  | false => exact agreesOnLocoNet_of_notOn hon engine entry.loco.state

/-- After any engine commands, the announcements of a database entry make a slot agree with the
entry, when it agreed before the commands. -/
theorem announcements_replicate {engineDb : CanEngineDB} {k : Fin kMaxNumDbEntries}
    {entry : SlotEntry}
    (hentry : ∀ a, AgreesOnLocoNet a (engineDb.entry k).loco.state entry.loco.state)
    (calls : List EngineCall) (slotIdx : Byte) (a : EngineAttribute) :
    AgreesOnLocoNet a ((EngineCall.runAll calls engineDb).entry k).loco.state
      ((announcements slotIdx ((EngineCall.runAll calls engineDb).entry k).loco.toLocomotiveData
        ((EngineCall.runAll calls engineDb).entry k).diff).foldl (fun entry m => entry.control m)
        entry).loco.state := by
  have hstart : SyncedOff
      (fun a engine (entry : SlotEntry) => AgreesOnLocoNet a engine entry.loco.state)
      (fun a => (engineDb.entry k).diff.flagged a = true) (engineDb.entry k).loco.state entry :=
    fun a _ => hentry a
  have hstep : ∀ (call : EngineCall) (engineDb : CanEngineDB), FlaggedChange
      (fun a engine (entry : SlotEntry) => AgreesOnLocoNet a engine entry.loco.state)
      (engineDb.entry k).loco.state (fun a => (engineDb.entry k).diff.flagged a = true)
      ((call.run engineDb).entry k).loco.state
      (fun a => ((call.run engineDb).entry k).diff.flagged a = true) := fun call engineDb =>
    (call.run_flags engineDb k).transfer (fun a engine => .refl a engine)
      fun a engine engine' entry => agreesOnLocoNet_of_sameOn a engine engine' entry.loco.state
  have hsynced := syncedOff_onLocoNet (SyncedOff.run hstep calls engineDb entry hstart)
  exact hsynced.flush (announcements_carrier slotIdx _ _)
    (fun a ha => exists_announcement ha.1 ha.2 slotIdx _) a

/-- An engine of the database, and a slot of a peer on LocoNet that agrees with it. After any
engine commands the next forward finds the engine's slot. When all its messages fit the
transmit queue, the peer that processes them agrees with the engine again, and no flag is
left.

The flags of the engine before the commands may be any. A flag too many only makes the
forwarder announce what the peer knows already. -/
theorem forwardLocoChange_replicates [AddressScheme] (engineDb : CanEngineDB)
    (k : Fin kMaxNumDbEntries) (i : Fin kNumSlots) (peer : LocoNetSlotServer)
    (hpeer : ∀ a, AgreesOnLocoNet a (engineDb.entry k).loco.state (peer.slot i).loco.state)
    (calls : List EngineCall) (server server₁ : LocoNetSlotServer)
    (henabled : server.isDisabled = false)
    (hfind : (LocoNetForwarder.findSlot
      ((EngineCall.runAll calls engineDb).entry k).loco.address).run server
        = .ok ((i : SlotIt), server₁)) :
    ∃ server', (LocoNetForwarder.forwardLocoChange
        ((EngineCall.runAll calls engineDb).entry k).loco.toLocomotiveData
        ((EngineCall.runAll calls engineDb).entry k).diff).run server = .ok ({}, server') ∧
      ((∀ call ∈ server.tx.newCalls server'.tx, call.2 = true) →
        ∃ peer', (forM (server.tx.accepted server'.tx) process).run peer = .ok ((), peer') ∧
          ∀ a, AgreesOnLocoNet a ((EngineCall.runAll calls engineDb).entry k).loco.state
            (peer'.slot i).loco.state) := by
  -- From here on only the engine that the calls have left matters, not how it came about.
  have hreplicate := announcements_replicate hpeer calls (findSlotIndex i)
  generalize (EngineCall.runAll calls engineDb).entry k = engine at hfind hreplicate ⊢
  refine ⟨_, forwardLocoChange_run_of_found henabled hfind engine.diff, ?_⟩
  rw [LocoNetSlotServer.tx_send, LocoNetSlotServer.tx_setSlot, (findSlot_frame hfind).1]
  -- All messages were accepted, so the peer receives every announcement.
  intro hall
  rw [LocoNetTx.accepted_sendAll_of_all hall]
  obtain ⟨peer', hrun, hloco⟩ := forM_control_run_loco
    (announcements (findSlotIndex i) engine.loco.toLocomotiveData engine.diff) peer
    (announcements_controlSlot i engine.loco.toLocomotiveData engine.diff)
  refine ⟨peer', hrun, ?_⟩
  intro a
  rw [hloco]
  exact hreplicate a

/-- A stopped engine gets a velocity, a function and the other direction. -/
theorem forwardLocoChange_replicates_start :
    letI := AddressScheme.upperBits
    let entry : DbEntry := { loco := { uid := 5, address := 3, availability := .fullDetails } }
    let engineDb : CanEngineDB := { db := .replicate kMaxNumDbEntries entry }
    let server := ({ dataModel := { lnSlotServerState := .passive } } : LocoNetSlotServer).setSlot
      1 { inUse := true, loco := { address := 3 } }
    let calls : List EngineCall :=
      [.setLocoVelocity 5 500, .setLocoFunction 5 28 true, .changeLocoDirection 5]
    let engine : DbEntry := (EngineCall.runAll calls engineDb).entry 0
    ∃ server', (LocoNetForwarder.forwardLocoChange engine.loco.toLocomotiveData
        engine.diff).run server = .ok ({}, server') ∧
      ∃ peer', (forM (server.tx.accepted server'.tx) process).run server = .ok ((), peer') ∧
        (peer'.slot 1).loco.velocity = 504 := by
  let _ := AddressScheme.upperBits
  intro entry engineDb server calls engine
  have hslot : server.slot 1 = { inUse := true, loco := { address := 3 } } :=
    LocoNetSlotServer.slot_setSlot_self _ _ _
  have hbefore : engineDb.entry 0 = entry := by decide
  have hafter : (EngineCall.runAll calls engineDb).entry 0
      = { loco := { uid := 5, address := 3, velocity := 500, direction := .reverse,
                    functions := 0x10000000, availability := .fullDetails }
          diff := { velocity := true, direction := true, functions := 0x10000000 } } := by
    decide
  have hpeer : ∀ a, AgreesOnLocoNet a (engineDb.entry 0).loco.state
      (server.slot 1).loco.state := by
    intro a
    rw [hslot, hbefore]
    -- The slot and the engine agree before the calls, as both are new.
    cases a with
    | velocity => exact (by decide : (0 : Velocity) = lnSpeedToCanVelocity (canVelocityToLnSpeed 0))
    | direction => exact Eq.refl EngineDirection.forward
    | function f => exact fun _ => rfl
  have hfind : (LocoNetForwarder.findSlot
      ((EngineCall.runAll calls engineDb).entry 0).loco.address).run server
      = .ok (((1 : Fin kNumSlots) : SlotIt), server) := by
    rw [hafter]
    rfl
  obtain ⟨server', hrun, hreplicates⟩ :=
    forwardLocoChange_replicates engineDb 0 1 server hpeer calls server server rfl hfind
  refine ⟨server', hrun, ?_⟩
  -- The server of the theorem is the one that the forwarder leaves.
  have hsent := forwardLocoChange_run_of_found rfl hfind
    ((EngineCall.runAll calls engineDb).entry 0).diff
  rw [hrun] at hsent
  cases hsent
  obtain ⟨peer', hpeerRun, hagrees⟩ := hreplicates (by decide)
  refine ⟨peer', hpeerRun, ?_⟩
  have hvelocity : (peer'.slot 1).loco.velocity = _ := hagrees .velocity
  rw [hvelocity, hafter]
  decide

end C6021Light
