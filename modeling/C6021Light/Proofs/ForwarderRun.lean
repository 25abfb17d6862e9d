import C6021Light.Proofs.FunctionMessages

/-!
# `C6021Light.Proofs.ForwarderRun`: what the LocoNet forwarder does

`LocoNetForwarder::forwardLocoChange` finds the slot of an engine, updates the slot, and sends
one message for each group of attributes with a flag. `announcements` is that list of
messages, and `SlotEntry.cacheChange` is the slot afterwards.

The six mask tests of the source are one test for each `FunctionGroup`, with the mask of its
layout (`FunctionGroup.announcedBy`).
-/

set_option autoImplicit false

namespace C6021Light

open BitMask FaultRun AddressScheme

/-! ### Messages -/

/-- The group's message is sent for this diff. -/
def FunctionGroup.announcedBy (diff : LocoDiff) : FunctionGroup → Bool
  | .dirf => diff.direction || decide (diff.functions &&& mask .dirf ≠ 0)
  | g => decide (diff.functions &&& g.mask ≠ 0)

/-- The messages of `forwardLocoChange`, in order. -/
def announcements (slotIdx : Byte) (loco : LocomotiveData) (diff : LocoDiff) : List LnMsg :=
  (if diff.velocity then [lnLocoSpeed slotIdx loco.velocity] else [])
    ++ (FunctionGroup.all.filter (FunctionGroup.announcedBy diff)).map
        (FunctionGroup.message slotIdx loco)

/-- A speed message controls the slot it is sent for. -/
theorem lnLocoSpeed_controlsSlot (i : Fin kNumSlots) (velocity : Velocity) :
    (lnLocoSpeed (findSlotIndex i) velocity).ControlsSlot i :=
  congrArg some (findSlotIndex_toNat i)

/-- So does every message of a forwarded change. -/
theorem announcements_controlSlot (i : Fin kNumSlots) (loco : LocomotiveData)
    (diff : LocoDiff) :
    ∀ m ∈ announcements (findSlotIndex i) loco diff, m.ControlsSlot i := by
  intro m hm
  rw [announcements, List.mem_append] at hm
  rcases hm with hm | hm
  · split at hm
    · rw [List.mem_singleton.mp hm]
      exact lnLocoSpeed_controlsSlot i loco.velocity
    · cases hm
  · obtain ⟨g, _, rfl⟩ := List.mem_map.mp hm
    exact g.message_controlsSlot i loco

/-! ### The slot afterwards -/

/-- The slot after `forwardLocoChange`: the flagged velocity, the flagged direction, and the
flagged functions among the first nine. -/
def SlotEntry.cacheChange (loco : LocomotiveData) (diff : LocoDiff) (entry : SlotEntry) :
    SlotEntry :=
  { entry with
      loco := { entry.loco with
        velocity := if diff.velocity then loco.velocity else entry.loco.velocity
        direction := if diff.direction then loco.direction else entry.loco.direction
        functions := merge (diff.functions &&& 0x1FF#32) loco.functions entry.loco.functions } }

/-- The copy loop is a merge. -/
theorem SlotEntry.copyFunctions_eq (loco : LocomotiveData) (diff : LocoDiff)
    (entry : SlotEntry) :
    entry.copyFunctions loco diff = { entry with
      loco := { entry.loco with
        functions := merge (diff.functions &&& 0x1FF#32) loco.functions
          entry.loco.functions } } := by
  -- The loop changes the function register only.
  have hfold : ∀ (is : List Nat) (slotLoco : LocomotiveData),
      is.foldl (fun (slotLoco : LocomotiveData) i =>
          if diff.functions &&& (1#32 <<< i) ≠ 0 then
            slotLoco.setFunction i (loco.getFunction i)
          else slotLoco) slotLoco
        = { slotLoco with
            functions := is.foldl (fun r i => if diff.functions.getLsbD i then
              setBit r i (loco.functions.getLsbD i) else r) slotLoco.functions } := by
    intro is
    induction is with
    | nil => intro slotLoco; rfl
    | cons i is ih =>
        intro slotLoco
        have hbit : diff.functions &&& (1#32 <<< i) ≠ 0 ↔ diff.functions.getLsbD i = true :=
          and_shiftLeft_one_ne_zero diff.functions i
        rw [List.foldl_cons, List.foldl_cons, ih]
        by_cases h : diff.functions.getLsbD i = true
        · rw [if_pos (hbit.mpr h), if_pos h]
          rfl
        · rw [if_neg (fun hne => h (hbit.mp hne)), if_neg h]
  rw [SlotEntry.copyFunctions, hfold, foldl_copyBits _ _ 9 _ (by decide)]
  rfl

/-! ### The program -/

section Run

variable (s : LocoNetSlotServer) (i : Fin kNumSlots) (loco : LocomotiveData) (diff : LocoDiff)

/-- A sequence of conditional sends. -/
theorem forM_asyncSendIf_run {ι : Type} (condition : ι → Bool) (message : ι → LnMsg) :
    ∀ (is : List ι) (s : LocoNetSlotServer),
      (forM is fun i => asyncSendIf (condition i) (message i)).run s
        = .ok ((), s.send ((is.filter condition).map message)) := by
  intro is
  induction is with
  | nil => intro s; rfl
  | cons i is ih =>
      intro s
      rw [List.forM_cons, run_bind_of_ok (asyncSendIf_run s (condition i) (message i)), ih,
        LocoNetSlotServer.send_send, List.filter_cons]
      cases condition i <;> rfl

/-- The mask tests of the source are those of the groups. -/
theorem asyncSendIf_groups (slotIdx : Byte) :
    (do asyncSendIf (diff.direction || decide (diff.functions &&& f0_4Mask ≠ 0))
          (lnLocoDirf slotIdx loco)
        asyncSendIf (diff.functions &&& f5_8Mask ≠ 0) (lnLocoSnd slotIdx loco)
        asyncSendIf (diff.functions &&& f9_12Mask ≠ 0) (lnLocoSnd2 slotIdx loco)
        asyncSendIf (diff.functions &&& f13_19Mask ≠ 0) (lnLocoFunExt slotIdx .first loco)
        asyncSendIf (diff.functions &&& f21_27Mask ≠ 0) (lnLocoFunExt slotIdx .second loco)
        asyncSendIf (diff.functions &&& f20_28Mask ≠ 0) (lnLocoFunExt slotIdx .third loco) :
      SlotServerRun Unit)
      = forM FunctionGroup.all fun g =>
          asyncSendIf (g.announcedBy diff) (g.message slotIdx loco) := by
  simp only [FunctionGroup.all, List.forM_cons, List.forM_nil, bind_pure_unit]
  rfl

/-- Without flagged functions no function is copied. -/
theorem copyFunctions_of_no_functions (h : diff.functions = 0) (entry : SlotEntry) :
    entry.copyFunctions loco diff = entry := by
  have hnone : merge (0#32 &&& 0x1FF#32) loco.functions entry.loco.functions
      = entry.loco.functions := by
    rw [BitVec.zero_and, merge_zero]
  rw [SlotEntry.copyFunctions_eq, h]
  show { entry with loco := { entry.loco with functions := merge (0#32 &&& 0x1FF#32) _ _ } } = _
  rw [hnone]

/-- A conditional change of a slot sets it to the changed entry or to its own. -/
theorem modifySlotIf_run (condition : Bool) (change : SlotEntry → SlotEntry)
    (s : LocoNetSlotServer) :
    (modifySlotIf condition i change).run s
      = .ok ((), s.setSlot i (if condition then change (s.slot i) else s.slot i)) := by
  cases condition with
  | true => exact modifySlot_run s i change
  | false =>
      show Except.ok ((), s) = Except.ok ((), s.setSlot i (s.slot i))
      rw [LocoNetSlotServer.setSlot_slot]

/-- A conditional velocity is the entry with one of two velocities. -/
theorem setVelocityIf_eq (condition : Bool) (velocity : Velocity) (entry : SlotEntry) :
    (if condition then { entry with loco := entry.loco.setVelocity velocity } else entry)
      = { entry with loco := { entry.loco with
          velocity := if condition then velocity else entry.loco.velocity } } := by
  cases condition <;> rfl

/-- A conditional direction is the entry with one of two directions. -/
theorem setDirectionIf_eq (condition : Bool) (direction : EngineDirection)
    (entry : SlotEntry) :
    (if condition then { entry with loco := entry.loco.setDirection direction } else entry)
      = { entry with loco := { entry.loco with
          direction := if condition then direction else entry.loco.direction } } := by
  cases condition <;> rfl

/-- The test for flagged functions only skips a loop that does nothing. -/
theorem copyFunctionsIf_eq (entry : SlotEntry) :
    (if decide (diff.functions ≠ 0) then entry.copyFunctions loco diff else entry)
      = entry.copyFunctions loco diff := by
  by_cases h : diff.functions = 0
  · rw [copyFunctions_of_no_functions loco diff h, ite_self]
  · rw [if_pos (decide_eq_true h)]

/-- The announcement writes the change into the slot and sends its messages. -/
theorem announce_run :
    (LocoNetForwarder.announce i loco diff).run s
      = .ok ((), (s.setSlot i ((s.slot i).cacheChange loco diff)).send
          (announcements (findSlotIndex i) loco diff)) := by
  simp only [LocoNetForwarder.announce]
  rw [asyncSendIf_groups, run_bind_of_ok (modifySlotIf_run i _ _ s), setVelocityIf_eq,
    run_bind_of_ok (asyncSendIf_run _ _ _), run_bind_of_ok (modifySlotIf_run i _ _ _),
    LocoNetSlotServer.slot_send, LocoNetSlotServer.slot_setSlot_self, setDirectionIf_eq,
    LocoNetSlotServer.setSlot_send, LocoNetSlotServer.setSlot_setSlot,
    run_bind_of_ok (modifySlotIf_run i _ _ _), LocoNetSlotServer.slot_send,
    LocoNetSlotServer.slot_setSlot_self, copyFunctionsIf_eq, SlotEntry.copyFunctions_eq,
    LocoNetSlotServer.setSlot_send, LocoNetSlotServer.setSlot_setSlot, forM_asyncSendIf_run,
    LocoNetSlotServer.send_send]
  rfl

end Run

/-! ### Lookup -/

section Lookup

variable [AddressScheme] {s : LocoNetSlotServer}

/-- What the slot lookup of `forwardLocoChange` does. -/
inductive LookupEffect (s : LocoNetSlotServer) (addr : LocoAddr) :
    Except Fault (SlotIt × LocoNetSlotServer) → Prop
  | found (i : Fin kNumSlots) (hpassive : s.isActive = false) (hin : (s.slot i).inUse = true)
      (haddr : (s.slot i).loco.address = addr) : LookupEffect s addr (.ok (i, s))
  | foundActive (i : Fin kNumSlots) (hactive : s.isActive = true)
      (halloc : s.allocates addr = none)
      (haddr : getNumericAddress (s.slot i).loco.address = getNumericAddress addr) :
      LookupEffect s addr (.ok (i, s))
  | allocated (i : Fin kNumSlots) (hactive : s.isActive = true)
      (halloc : s.allocates addr = some i) (hunused : (s.slot i).inUse = false) :
      LookupEffect s addr
        (.ok (i, s.setSlot i (.initialized (getNumericAddress addr))))
  | notFound (hpassive : s.isActive = false)
      (hnone : ∀ i, (s.slot i).inUse = true → (s.slot i).loco.address ≠ addr) :
      LookupEffect s addr (.ok (kNumSlots, s))
  | full (hactive : s.isActive = true) (halloc : s.allocates addr = none) :
      LookupEffect s addr (.error (.slotOutOfBounds kNumSlots))

omit [AddressScheme] in
/-- An active server is not disabled. -/
theorem not_disabled_of_active (hactive : s.isActive = true) : s.isDisabled = false := by
  have hstate : s.dataModel.lnSlotServerState = .active := of_decide_eq_true hactive
  simp [LocoNetSlotServer.isDisabled, hstate]

/-- An active server makes a slot when it has none for the address. -/
theorem findSlot_run_of_active (hactive : s.isActive = true) (addr : LocoAddr) :
    (LocoNetForwarder.findSlot addr).run s = (findOrAllocateSlotForAddress addr).run s := by
  rw [LocoNetForwarder.findSlot, run_get_bind, if_pos hactive]

/-- A server that is not active looks for the address in its table only. -/
theorem findSlot_run_of_passive (hpassive : s.isActive = false) (addr : LocoAddr) :
    (LocoNetForwarder.findSlot addr).run s = (findSlotForAddress addr).run s := by
  rw [LocoNetForwarder.findSlot, run_get_bind, if_neg (ne_true_of_eq_false hpassive)]

/-- Every lookup ends in one of its ways. -/
theorem findSlot_effect (s : LocoNetSlotServer) (addr : LocoAddr) :
    LookupEffect s addr ((LocoNetForwarder.findSlot addr).run s) := by
  cases hactive : s.isActive with
  | true =>
      have heffect := findOrAllocateSlotForAddress_effect s addr
      rw [findSlot_run_of_active hactive]
      generalize (findOrAllocateSlotForAddress addr).run s = r at heffect ⊢
      cases heffect with
      | found i halloc haddr => exact .foundActive i hactive halloc haddr
      | allocated i halloc hunused => exact .allocated i hactive halloc hunused
      | full halloc => exact .full hactive halloc
  | false =>
      rw [findSlot_run_of_passive hactive]
      rcases findSlotForAddress_cases s addr with ⟨i, hin, haddr, hfind⟩ | ⟨hnone, hfind⟩
      · rw [hfind]
        exact .found i hactive hin haddr
      · rw [hfind]
        exact .notFound hactive hnone

/-- A lookup changes at most the slot that it allocates. -/
theorem findSlot_frame {addr : LocoAddr} {slotIt : SlotIt} {s₁ : LocoNetSlotServer}
    (h : (LocoNetForwarder.findSlot addr).run s = .ok (slotIt, s₁)) :
    s₁.tx = s.tx ∧ s₁.dataModel = s.dataModel ∧ s₁.slotInDispatch = s.slotInDispatch := by
  have heffect := findSlot_effect s addr
  rw [h] at heffect
  cases heffect with
  | found => exact ⟨rfl, rfl, rfl⟩
  | foundActive => exact ⟨rfl, rfl, rfl⟩
  | allocated => exact ⟨rfl, rfl, rfl⟩
  | notFound => exact ⟨rfl, rfl, rfl⟩

/-! ### forwardLocoChange -/

/-- A disabled server forwards nothing. -/
theorem forwardLocoChange_run_of_disabled (hdisabled : s.isDisabled = true)
    (loco : LocomotiveData) (diff : LocoDiff) :
    (LocoNetForwarder.forwardLocoChange loco diff).run s = .ok (diff, s) := by
  show (if s.isDisabled then pure diff else _ : SlotServerRun LocoDiff).run s = _
  rw [if_pos hdisabled]
  rfl

/-- The program behind the mode test. -/
theorem forwardLocoChange_run_of_enabled (henabled : s.isDisabled = false)
    (loco : LocomotiveData) (diff : LocoDiff) :
    (LocoNetForwarder.forwardLocoChange loco diff).run s
      = (do let slotIt ← LocoNetForwarder.findSlot loco.address
            if isSlotInBounds slotIt then
              LocoNetForwarder.announce slotIt loco diff
              pure {}
            else pure diff : SlotServerRun LocoDiff).run s := by
  show (if s.isDisabled then pure diff else _ : SlotServerRun LocoDiff).run s = _
  rw [if_neg (by rw [henabled]; decide)]

/-- The slot is found: it is updated, the messages are sent, and no flag is left. -/
theorem forwardLocoChange_run_of_found (henabled : s.isDisabled = false)
    {loco : LocomotiveData} {i : Fin kNumSlots} {s₁ : LocoNetSlotServer}
    (hfind : (LocoNetForwarder.findSlot loco.address).run s = .ok ((i : SlotIt), s₁))
    (diff : LocoDiff) :
    (LocoNetForwarder.forwardLocoChange loco diff).run s
      = .ok ({}, (s₁.setSlot i ((s₁.slot i).cacheChange loco diff)).send
          (announcements (findSlotIndex i) loco diff)) := by
  rw [forwardLocoChange_run_of_enabled henabled, run_bind_of_ok hfind, isSlotInBounds_fin]
  show (LocoNetForwarder.announce i loco diff >>= fun _ => pure ({} : LocoDiff)).run s₁ = _
  rw [run_bind_of_ok (announce_run s₁ i loco diff)]
  rfl

/-- No slot is found: nothing happens. -/
theorem forwardLocoChange_run_of_notFound (henabled : s.isDisabled = false)
    {loco : LocomotiveData}
    (hfind : (LocoNetForwarder.findSlot loco.address).run s = .ok (kNumSlots, s))
    (diff : LocoDiff) :
    (LocoNetForwarder.forwardLocoChange loco diff).run s = .ok (diff, s) := by
  rw [forwardLocoChange_run_of_enabled henabled, run_bind_of_ok hfind]
  rfl

/-- What `forwardLocoChange` does. -/
inductive ForwardEffect (s : LocoNetSlotServer) (loco : LocomotiveData) (diff : LocoDiff) :
    Except Fault (LocoDiff × LocoNetSlotServer) → Prop
  | disabled (hdisabled : s.isDisabled = true) : ForwardEffect s loco diff (.ok (diff, s))
  | notFound (henabled : s.isDisabled = false)
      (hfind : (LocoNetForwarder.findSlot loco.address).run s = .ok (kNumSlots, s)) :
      ForwardEffect s loco diff (.ok (diff, s))
  | found (henabled : s.isDisabled = false) (i : Fin kNumSlots) (s₁ : LocoNetSlotServer)
      (hfind : (LocoNetForwarder.findSlot loco.address).run s = .ok ((i : SlotIt), s₁)) :
      ForwardEffect s loco diff
        (.ok ({}, (s₁.setSlot i ((s₁.slot i).cacheChange loco diff)).send
          (announcements (findSlotIndex i) loco diff)))
  | full (henabled : s.isDisabled = false)
      (hfind : (LocoNetForwarder.findSlot loco.address).run s
        = .error (.slotOutOfBounds kNumSlots)) :
      ForwardEffect s loco diff (.error (.slotOutOfBounds kNumSlots))

/-- Every forwarding ends in one of its ways. -/
theorem forwardLocoChange_effect (s : LocoNetSlotServer) (loco : LocomotiveData)
    (diff : LocoDiff) :
    ForwardEffect s loco diff ((LocoNetForwarder.forwardLocoChange loco diff).run s) := by
  cases hdis : s.isDisabled with
  | true =>
      rw [forwardLocoChange_run_of_disabled hdis]
      exact .disabled hdis
  | false =>
      have hlookup := findSlot_effect s loco.address
      generalize hfind : (LocoNetForwarder.findSlot loco.address).run s = r at hlookup
      cases hlookup with
      | found i =>
          rw [forwardLocoChange_run_of_found hdis hfind]
          exact .found hdis i s hfind
      | foundActive i =>
          rw [forwardLocoChange_run_of_found hdis hfind]
          exact .found hdis i s hfind
      | allocated i =>
          rw [forwardLocoChange_run_of_found hdis hfind]
          exact .found hdis i _ hfind
      | notFound =>
          rw [forwardLocoChange_run_of_notFound hdis hfind]
          exact .notFound hdis hfind
      | full =>
          rw [forwardLocoChange_run_of_enabled hdis, run_bind_of_error hfind]
          exact .full hdis hfind

end Lookup

/-! ### Dummy messages -/

/-- The answer of `HandleDummyMessages`. -/
def LocoNetSlotServer.dummyAnswer (s : LocoNetSlotServer) : LnMsg → List LnMsg
  | .swState _ => if s.isActive then [lnLongAck opcSwState true] else []
  | _ => []

/-- A dummy message is answered, or ignored. -/
theorem handleDummyMessages_run (s : LocoNetSlotServer) (m : LnMsg) :
    (LocoNetForwarder.handleDummyMessages m).run s = .ok ((), s.send (s.dummyAnswer m)) := by
  cases m with
  | swState srq =>
      show (if s.isActive then asyncSend (lnLongAck opcSwState true) else pure () :
        SlotServerRun Unit).run s = _
      rw [LocoNetSlotServer.dummyAnswer]
      cases s.isActive <;> rfl
  | _ => rfl

/-- It changes nothing but what was sent. -/
theorem handleDummyMessages_eq {s s' : LocoNetSlotServer} {m : LnMsg}
    (h : (LocoNetForwarder.handleDummyMessages m).run s = .ok ((), s')) :
    s' = s.send (s.dummyAnswer m) := by
  rw [handleDummyMessages_run] at h
  cases h
  rfl

end C6021Light
