import C6021Light.Proofs.CANForwarderRun
import C6021Light.Proofs.LocoNetReplication

/-!
# `C6021Light.Proofs.SlotCache`: the slot as a cache of what LocoNet was told

`LocoNetForwarder::forwardLocoChange` tells LocoNet about an engine and updates the engine's
slot, so that a later LocoNet message is compared with what LocoNet knows. What it tells are
whole groups, built from the engine. What it writes into the slot are the flagged attributes,
and of the functions only the first nine.

So the slot agrees with LocoNet exactly when every attribute that is told is also written, or
was the same in the slot before (`CacheFresh`).
-/

set_option autoImplicit false

namespace C6021Light

open BitMask FaultRun

/-! ### Told and written -/

/-- A group message with this attribute is sent. -/
def LocoDiff.announces (diff : LocoDiff) (a : EngineAttribute) : Bool :=
  FunctionGroup.all.any fun g => g.announcedBy diff && g.carries a

/-- The attribute is written into the slot. -/
def LocoDiff.caches (diff : LocoDiff) : EngineAttribute → Bool
  | .velocity => diff.velocity
  | .direction => diff.direction
  | .function f => decide (f < 9) && diff.functions.getLsbD f

/-- Every attribute that is told is written, or the slot has the engine's value already. -/
def CacheFresh (diff : LocoDiff) (engine slot : EngineState) : Prop :=
  ∀ a, diff.announces a = true → diff.caches a = true ∨ slot.SameOn a engine

/-- Agreement is symmetric. -/
theorem EngineState.SameOn.symm {a : EngineAttribute} {p r : EngineState} (h : p.SameOn a r) :
    r.SameOn a p := by
  cases a with
  | velocity => exact Eq.symm (a := p.velocity) h
  | direction => exact Eq.symm (a := p.direction) h
  | function f => exact Eq.symm (a := p.functions.getLsbD f) h

/-- What is written comes from the engine, and the rest stays. -/
theorem SlotEntry.cacheChange_sameOn (loco : LocomotiveData) (diff : LocoDiff)
    (entry : SlotEntry) (a : EngineAttribute) :
    (entry.cacheChange loco diff).loco.state.SameOn a
      (if diff.caches a then loco.state else entry.loco.state) := by
  cases a with
  | velocity =>
      show (if diff.velocity then loco.velocity else entry.loco.velocity) = _
      rw [LocoDiff.caches]
      split <;> rfl
  | direction =>
      show (if diff.direction then loco.direction else entry.loco.direction) = _
      rw [LocoDiff.caches]
      split <;> rfl
  | function f =>
      have hlow : (0x1FF#32).getLsbD f = decide (f < 9) :=
        getLsbD_lowMask (show 9 ≤ 32 by decide) f
      show (merge (diff.functions &&& 0x1FF#32) loco.functions entry.loco.functions).getLsbD f = _
      rw [getLsbD_merge, BitVec.getLsbD_and, hlow, Bool.and_comm, LocoDiff.caches]
      split <;> rfl

/-- What is told comes from the engine, and the rest stays. Velocities are told apart from
the groups. -/
theorem foldl_control_announcements_sameOn (slotIdx : Byte) (loco : LocomotiveData)
    (diff : LocoDiff) (entry : SlotEntry) {a : EngineAttribute} (ha : a ≠ .velocity) :
    ((announcements slotIdx loco diff).foldl (fun entry m => entry.control m)
        entry).loco.state.SameOn
      a (if diff.announces a then loco.state else entry.loco.state) := by
  -- The speed message comes first and changes neither direction nor functions.
  have hspeed : ∀ entry : SlotEntry, (if diff.velocity then [lnLocoSpeed slotIdx loco.velocity]
      else []).foldl (fun entry m => entry.control m) entry
        = if diff.velocity then entry.control (lnLocoSpeed slotIdx loco.velocity) else entry := by
    intro entry
    cases diff.velocity <;> rfl
  rw [announcements, List.foldl_append, hspeed, foldl_control_messages]
  cases a with
  | velocity => exact absurd rfl ha
  | direction =>
      have hmem : decide (FunctionGroup.dirf ∈ FunctionGroup.all.filter
          (FunctionGroup.announcedBy diff)) = diff.announces .direction := by
        cases hdirf : FunctionGroup.dirf.announcedBy diff <;>
          simp [LocoDiff.announces, FunctionGroup.all, FunctionGroup.carries, hdirf]
      rw [hmem]
      cases diff.announces .direction <;> cases diff.velocity <;> rfl
  | function f =>
      have hunion : (unionMask ((FunctionGroup.all.filter (FunctionGroup.announcedBy diff)).map
          FunctionGroup.mask)).getLsbD f = diff.announces (.function f) := by
        rw [getLsbD_unionMask, List.any_map, List.any_filter]
        rfl
      show (merge _ loco.functions _).getLsbD f = _
      rw [getLsbD_merge, hunion]
      cases diff.announces (.function f) with
      | true => rfl
      | false =>
          cases diff.velocity <;>
            cases decide (FunctionGroup.dirf ∈ FunctionGroup.all.filter
              (FunctionGroup.announcedBy diff)) <;> rfl

/-- Only attributes of LocoNet are told, and no group carries the velocity. -/
theorem LocoDiff.onLocoNet_of_announces {diff : LocoDiff} {a : EngineAttribute}
    (h : diff.announces a = true) : a ≠ .velocity ∧ a.onLocoNet = true := by
  obtain ⟨g, _, hg⟩ := List.any_eq_true.mp h
  have hcarries := (Bool.and_eq_true_iff.mp hg).2
  cases a with
  | velocity => cases hcarries
  | direction => exact ⟨EngineAttribute.noConfusion, rfl⟩
  | function f =>
      exact ⟨EngineAttribute.noConfusion, decide_eq_true (FunctionGroup.le_of_mask hcarries)⟩

/-- What is written is told. -/
theorem LocoDiff.announces_of_caches {diff : LocoDiff} {a : EngineAttribute} (ha : a ≠ .velocity)
    (h : diff.caches a = true) : diff.announces a = true := by
  cases a with
  | velocity => exact absurd rfl ha
  | direction =>
      have hdirection : diff.direction = true := h
      refine List.any_eq_true.mpr ⟨.dirf, List.mem_cons_self, ?_⟩
      rw [FunctionGroup.announcedBy, hdirection]
      rfl
  | function f =>
      have hboth := Bool.and_eq_true_iff.mp h
      have hlow : f < 9 := of_decide_eq_true hboth.1
      obtain ⟨g, hg, hmask⟩ := FunctionGroup.exists_mask (show f ≤ 28 by omega)
      exact List.any_eq_true.mpr ⟨g, hg,
        Bool.and_eq_true_iff.mpr ⟨FunctionGroup.announcedBy_of_flagged hmask hboth.2, hmask⟩⟩

/-- The slot agrees with the replayed messages exactly when it was fresh. -/
theorem cacheChange_sameOn_replay_iff (slotIdx : Byte) (loco : LocomotiveData) (diff : LocoDiff)
    (entry : SlotEntry) :
    (∀ a, a ≠ .velocity → a.onLocoNet = true →
      (entry.cacheChange loco diff).loco.state.SameOn a
        ((announcements slotIdx loco diff).foldl (fun entry m => entry.control m)
          entry).loco.state) ↔
      CacheFresh diff loco.state entry.loco.state := by
  constructor
  · intro hagrees a hannounced
    obtain ⟨ha, hon⟩ := LocoDiff.onLocoNet_of_announces hannounced
    have hcached := entry.cacheChange_sameOn loco diff a
    have hreplayed := foldl_control_announcements_sameOn slotIdx loco diff entry ha
    rw [if_pos hannounced] at hreplayed
    cases hcaches : diff.caches a with
    | true => exact .inl rfl
    -- Told and not written: the slot kept its value, so the value was the engine's already.
    | false =>
        rw [hcaches, if_neg (by decide)] at hcached
        exact .inr (hcached.symm.trans ((hagrees a ha hon).trans hreplayed))
  · intro hfresh a ha _
    have hcached := entry.cacheChange_sameOn loco diff a
    have hreplayed := foldl_control_announcements_sameOn slotIdx loco diff entry ha
    cases hannounced : diff.announces a with
    | true =>
        rw [if_pos hannounced] at hreplayed
        refine EngineState.SameOn.trans ?_ hreplayed.symm
        rcases hfresh a hannounced with hcaches | hsame
        · rw [if_pos hcaches] at hcached
          exact hcached
        · split at hcached
          · exact hcached
          · exact hcached.trans hsame
    | false =>
        -- What is not told is not written either, so slot and LocoNet keep what they had.
        have hcaches : diff.caches a = false := by
          cases hcaches : diff.caches a with
          | true =>
              rw [LocoDiff.announces_of_caches ha hcaches] at hannounced
              cases hannounced
          | false => rfl
        rw [hannounced, if_neg (by decide)] at hreplayed
        rw [hcaches, if_neg (by decide)] at hcached
        exact hcached.trans hreplayed.symm

/-! ### A later message -/

/-- A control message sets a function, or keeps it, whatever the other attributes are. -/
theorem SlotEntry.control_function_congr (m : LnMsg) {entry entry' : SlotEntry} {f : Nat}
    (h : entry.loco.getFunction f = entry'.loco.getFunction f) :
    (entry.control m).loco.getFunction f = (entry'.control m).loco.getFunction f := by
  have hwrite : ∀ (l : BitLayout 8 32) (word : Byte),
      (entry.writeFunctions l word).loco.getFunction f
        = (entry'.writeFunctions l word).loco.getFunction f := fun l word =>
    l.scatter_congr word h
  cases m with
  | locoDirf ldf =>
      rw [SlotEntry.control, SlotEntry.control, SlotEntry.locoDirF_eq, SlotEntry.locoDirF_eq]
      exact dirfLayout.scatter_congr ldf.dirf h
  | locoSnd ls =>
      rw [SlotEntry.control, SlotEntry.control, SlotEntry.locoSnd_eq, SlotEntry.locoSnd_eq]
      exact hwrite _ _
  | locoSnd2 ls =>
      rw [SlotEntry.control, SlotEntry.control, SlotEntry.locoSnd2_eq, SlotEntry.locoSnd2_eq]
      exact hwrite _ _
  | locoFunext msdi =>
      rw [SlotEntry.control, SlotEntry.control, SlotEntry.locoFunExt_eq, SlotEntry.locoFunExt_eq]
      split
      · exact hwrite _ _
      · exact h
  | _ => exact h

/-- Two slots that agree on a function agree on it behind the same messages. -/
theorem foldl_control_function_congr {f : Nat} (msgs : List LnMsg) {entry entry' : SlotEntry}
    (h : entry.loco.getFunction f = entry'.loco.getFunction f) :
    (msgs.foldl (fun entry m => entry.control m) entry).loco.getFunction f
      = (msgs.foldl (fun entry m => entry.control m) entry').loco.getFunction f :=
  List.foldl_rel
    (r := fun entry entry' : SlotEntry =>
      entry.loco.getFunction f = entry'.loco.getFunction f) h
    fun m _ _ _ h => SlotEntry.control_function_congr m h

section

variable [AddressScheme]

/-- A message that turns a function of a slot off is recognised: the function is flagged, and
the next forward tells CAN. -/
theorem process_switchOff {m : LnMsg} {i : Fin kNumSlots} (hm : m.ControlsSlot i) {f : Nat}
    {s s' : LocoNetSlotServer} (hrun : (process m).run s = .ok ((), s'))
    (hon : (s.slot i).loco.getFunction f = true) (hoff : (s'.slot i).loco.getFunction f = false) :
    (s'.slot i).diff.flagged (.function f) = true ∧
      .function (s'.slot i).loco.uid f false
        ∈ (CANForwarder.forwardLocoChange (s'.slot i).loco (s'.slot i).diff).1 := by
  obtain ⟨slot, hslot, hi⟩ := hm.exists_slot
  have hflag : (s'.slot i).diff.flagged (.function f) = true := by
    cases hmagic : m.hasMagic with
    | true =>
        rw [process_control_run hslot hmagic hi] at hrun
        cases hrun
        rw [LocoNetSlotServer.slot_send, LocoNetSlotServer.slot_setSlot_self] at hoff ⊢
        have hbefore : ((s.slot i).requested s.isDisabled).loco.functions.getLsbD f = true := by
          rw [SlotEntry.requested_loco]
          exact hon
        have hafter : (((s.slot i).requested s.isDisabled).control m).loco.functions.getLsbD f
            = false := hoff
        show (((s.slot i).requested s.isDisabled).control m).diff.functions.getLsbD f = true
        rw [SlotEntry.control_diff_functions, BitVec.getLsbD_or, BitVec.getLsbD_xor, hbefore,
          hafter]
        exact Bool.or_true _
    | false =>
        rw [process_of_no_magic hmagic] at hrun
        cases hrun
        rw [hon] at hoff
        cases hoff
  refine ⟨hflag, ?_⟩
  rw [CANForwarder.forwardLocoChange_eq]
  refine List.mem_map.mpr ⟨.function f, LocoDiff.mem_attributes.mpr hflag, ?_⟩
  show sendEngineFunction (s'.slot i).loco f ((s'.slot i).loco.getFunction f) = _
  rw [hoff]
  rfl

/-! ### The cache and LocoNet -/

/-- The slot has the direction and the functions F0 to F28 that LocoNet was told. -/
def CacheAgrees (cached told : LocomotiveData) : Prop :=
  cached.direction = told.direction ∧ ∀ f, f ≤ 28 → cached.getFunction f = told.getFunction f

/-- From two servers on: when later messages and `m` switch function `f` off in slot `i` of
what LocoNet was told, `m` is recognised as a change of the cached slot, and CAN is told. -/
def SwitchOffSeen (server told : LocoNetSlotServer) (i : Fin kNumSlots) (f : Nat) : Prop :=
  ∀ (later : List LnMsg) (m : LnMsg), (∀ m' ∈ later, m'.ControlsSlot i) → m.ControlsSlot i →
    ∀ told₁ told₂, (forM later process).run told = .ok ((), told₁) →
      (process m).run told₁ = .ok ((), told₂) →
      (told₁.slot i).loco.getFunction f = true → (told₂.slot i).loco.getFunction f = false →
      ∃ server₁ server₂, (forM later process).run server = .ok ((), server₁) ∧
        (process m).run server₁ = .ok ((), server₂) ∧
        (server₂.slot i).diff.flagged (.function f) = true ∧
        .function (server₂.slot i).loco.uid f false
          ∈ (CANForwarder.forwardLocoChange (server₂.slot i).loco (server₂.slot i).diff).1

/-- When the slot has what LocoNet was told, switching the function off is seen. -/
theorem switchOffSeen_of_agrees {server told : LocoNetSlotServer} {i : Fin kNumSlots} {f : Nat}
    (h : (server.slot i).loco.getFunction f = (told.slot i).loco.getFunction f) :
    SwitchOffSeen server told i f := by
  intro later m hlater hm told₁ told₂ hrun₁ hrun₂ hon hoff
  obtain ⟨t₁, ht₁, htold₁⟩ := forM_control_run_loco later told hlater
  rw [hrun₁] at ht₁
  cases ht₁
  obtain ⟨t₂, ht₂, htold₂⟩ := process_control_run_loco hm told₁
  rw [hrun₂] at ht₂
  cases ht₂
  obtain ⟨server₁, hserver₁, hloco₁⟩ := forM_control_run_loco later server hlater
  obtain ⟨server₂, hserver₂, hloco₂⟩ := process_control_run_loco hm server₁
  -- Both sides have the function on before `m`, and off after it.
  have hbefore : (server₁.slot i).loco.getFunction f = (told₁.slot i).loco.getFunction f := by
    rw [hloco₁, htold₁]
    exact foldl_control_function_congr later h
  have hafter : (server₂.slot i).loco.getFunction f = (told₂.slot i).loco.getFunction f := by
    rw [hloco₂, htold₂]
    exact SlotEntry.control_function_congr m hbefore
  obtain ⟨hflag, hframe⟩ :=
    process_switchOff hm hserver₂ (hbefore.trans hon) (hafter.trans hoff)
  exact ⟨server₁, server₂, hserver₁, hserver₂, hflag, hframe⟩

/-- The engine's slot was found and all messages were accepted. Then the slot agrees with what
LocoNet was told, and a later message that switches off a function that CAN switched on is
recognised and forwarded, exactly when every attribute that was told was also written into the
slot or had the engine's value there before. -/
theorem forwardLocoChange_cache_iff {server server₁ server' : LocoNetSlotServer}
    (henabled : server.isDisabled = false) {loco : LocomotiveData} {i : Fin kNumSlots}
    (hfind : (LocoNetForwarder.findSlot loco.address).run server = .ok ((i : SlotIt), server₁))
    {diff diff' : LocoDiff}
    (hrun : (LocoNetForwarder.forwardLocoChange loco diff).run server = .ok (diff', server'))
    (haccepted : ∀ call ∈ server.tx.newCalls server'.tx, call.2 = true) :
    (∃ told, (forM (server.tx.accepted server'.tx) process).run server₁ = .ok ((), told) ∧
      CacheAgrees (server'.slot i).loco (told.slot i).loco ∧
      ∀ f, f ≤ 28 → diff.flagged (.function f) = true → loco.getFunction f = true →
        SwitchOffSeen server' told i f) ↔
      CacheFresh diff loco.state (server₁.slot i).loco.state := by
  rw [forwardLocoChange_run_of_found henabled hfind] at hrun
  cases hrun
  rw [LocoNetSlotServer.tx_send, LocoNetSlotServer.tx_setSlot, (findSlot_frame hfind).1]
    at haccepted ⊢
  -- What the slot and the replayed messages agree on is a statement about one entry.
  rw [LocoNetTx.accepted_sendAll_of_all haccepted, LocoNetSlotServer.slot_send,
    LocoNetSlotServer.slot_setSlot_self, ← cacheChange_sameOn_replay_iff (findSlotIndex i)]
  obtain ⟨told, htold, hloco⟩ := forM_control_run_loco
    (announcements (findSlotIndex i) loco diff) server₁ (announcements_controlSlot i loco diff)
  rw [← hloco]
  -- The cache agrees only when the entry is the one that LocoNet was told.
  constructor
  · rintro ⟨told', htold', ⟨hdirection, hfunctions⟩, _⟩
    rw [htold] at htold'
    cases htold'
    intro a ha hon
    cases a with
    | velocity => exact absurd rfl ha
    | direction => exact hdirection
    | function f => exact hfunctions f (of_decide_eq_true hon)
  -- When they agree, every later switch-off changes both entries alike.
  · intro hagrees
    have hfunctions : ∀ f, f ≤ 28 →
        ((server₁.slot i).cacheChange loco diff).loco.getFunction f
          = (told.slot i).loco.getFunction f := fun f hf =>
      hagrees (.function f) EngineAttribute.noConfusion (decide_eq_true hf)
    have hdirection := hagrees .direction EngineAttribute.noConfusion rfl
    refine ⟨told, htold, ⟨hdirection, hfunctions⟩, ?_⟩
    intro f hf _ _
    refine switchOffSeen_of_agrees ?_
    rw [LocoNetSlotServer.slot_send, LocoNetSlotServer.slot_setSlot_self]
    exact hfunctions f hf

end

/-- F3, a function that the forwarder writes into the slot. -/
theorem forwardLocoChange_cache_iff_f3 :
    letI := AddressScheme.upperBits
    let server := ({ dataModel := { lnSlotServerState := .passive } } : LocoNetSlotServer).setSlot
      1 { inUse := true, loco := { address := 3 } }
    let loco : LocomotiveData := { address := 3, functions := 0x8 }
    let diff : LocoDiff := { functions := 0x8 }
    ∃ server' told, (LocoNetForwarder.forwardLocoChange loco diff).run server = .ok ({}, server') ∧
      (forM (server.tx.accepted server'.tx) process).run server = .ok ((), told) ∧
      CacheAgrees (server'.slot 1).loco (told.slot 1).loco := by
  let _ := AddressScheme.upperBits
  intro server loco diff
  have hslot : server.slot 1 = { inUse := true, loco := { address := 3 } } :=
    LocoNetSlotServer.slot_setSlot_self _ _ _
  have hfind : (LocoNetForwarder.findSlot loco.address).run server
      = .ok (((1 : Fin kNumSlots) : SlotIt), server) := rfl
  have hrun := forwardLocoChange_run_of_found rfl hfind diff
  have hfresh : CacheFresh diff loco.state (server.slot 1).loco.state := by
    -- Only F3 differs between the engine and the slot.
    have hother : ∀ f : Fin 32, f ≠ 3 → (0#32).getLsbD f = (0x8#32).getLsbD f := by decide
    intro a ha
    rw [hslot]
    cases a with
    | velocity => exact absurd rfl (LocoDiff.onLocoNet_of_announces ha).1
    | direction => exact .inr rfl
    | function f =>
        have hf : f ≤ 28 := of_decide_eq_true (LocoDiff.onLocoNet_of_announces ha).2
        by_cases h3 : f = 3
        · subst h3
          exact .inl (by decide)
        · exact .inr (hother ⟨f, by omega⟩ fun h => h3 (congrArg Fin.val h))
  obtain ⟨told, htold, hagrees, _⟩ :=
    (forwardLocoChange_cache_iff rfl hfind hrun (by decide)).mpr hfresh
  exact ⟨_, told, hrun, htold, hagrees⟩

/-- F9, switched on by CAN. LocoNet is told, the slot is not, and the throttle that switches F9
off again is not heard. -/
theorem forwardLocoChange_f9_not_cached :
    letI := AddressScheme.upperBits
    let server := ({ dataModel := { lnSlotServerState := .passive } } : LocoNetSlotServer).setSlot
      1 { inUse := true, loco := { address := 3 } }
    let loco : LocomotiveData := { address := 3, functions := 0x200 }
    let diff : LocoDiff := { functions := 0x200 }
    ∃ server' told, (LocoNetForwarder.forwardLocoChange loco diff).run server = .ok ({}, server') ∧
      (∀ call ∈ server.tx.newCalls server'.tx, call.2 = true) ∧
      (forM (server.tx.accepted server'.tx) process).run server = .ok ((), told) ∧
      ¬ CacheAgrees (server'.slot 1).loco (told.slot 1).loco ∧
      ¬ SwitchOffSeen server' told 1 9 := by
  let _ := AddressScheme.upperBits
  intro server loco diff
  have hfind : (LocoNetForwarder.findSlot loco.address).run server
      = .ok (((1 : Fin kNumSlots) : SlotIt), server) := rfl
  have hin : (server.slot 1).inUse = true := by
    rw [LocoNetSlotServer.slot_setSlot_self]
  let server' := (server.setSlot 1 ((server.slot 1).cacheChange loco diff)).send
    (announcements (findSlotIndex 1) loco diff)
  -- LocoNet gets one message for F9 to F12.
  have hmsgs : server.tx.accepted server'.tx = [lnLocoSnd2 1 loco] := by decide
  let told := server.setSlot 1 ((server.slot 1).control (lnLocoSnd2 1 loco))
  have htold : (forM (server.tx.accepted server'.tx) process).run server = .ok ((), told) := by
    rw [hmsgs]
    exact forM_control_run [lnLocoSnd2 1 loco] server (by decide) hin
  refine ⟨server', told, forwardLocoChange_run_of_found rfl hfind diff, by decide, htold,
    ?_, ?_⟩
  -- In the slot F9 is still off.
  · intro hagrees
    exact absurd (hagrees.2 9 (by decide)) (by decide)
  -- A throttle switches F9 off: for the slot nothing changes, and nothing is flagged.
  · intro hseen
    let off : LnMsg := .locoSnd2 { slot := 1, snd := 0 }
    have hslot : off.controlSlot = some 1#8 := rfl
    have hi : (1#8).toNat = (1 : Fin kNumSlots) := rfl
    obtain ⟨server₁, server₂, hrun₁, hrun₂, hflag, _⟩ := hseen [] off (by decide) (by decide)
      told (told.setSlot 1 ((told.slot 1).control off)) rfl
      (process_control_run_of_inUse hslot hi (by decide)) (by decide)
      (by decide)
    cases hrun₁
    rw [process_control_run_of_inUse hslot hi (by decide)] at hrun₂
    cases hrun₂
    exact absurd hflag (by decide)

end C6021Light
