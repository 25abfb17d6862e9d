import Mathlib.Data.Set.List
import C6021Light.Proofs.SlotServerRun

/-!
# `C6021Light.Proofs.FunctionMessages`: the six function messages partition F0 to F28

`FunctionGroup` names the six messages that carry functions, and `message` builds each of
them from a locomotive as the source does. Processing such a message takes the functions of
its group from the locomotive and leaves the others (`control_message`). Two groups one after
the other are one merge under both masks, so a list of groups is one merge under the union of
their masks (`foldl_control_messages`), and the union does not depend on the order.

The six masks together are the 29 low bits (`unionMask_all`). That is the partition.
-/

set_option autoImplicit false

namespace C6021Light

open BitMask FaultRun

/-! ### The groups -/

/-- The messages that carry engine functions. -/
inductive FunctionGroup
  | dirf
  | snd
  | snd2
  | funExtFirst
  | funExtSecond
  | funExtThird
deriving DecidableEq, Repr

namespace FunctionGroup

/-- The six messages that carry functions. -/
def all : List FunctionGroup := [dirf, snd, snd2, funExtFirst, funExtSecond, funExtThird]

/-- Where a message has its functions. -/
def layout : FunctionGroup → BitLayout 8 32
  | dirf => dirfLayout
  | snd => sndLayout
  | snd2 => snd2Layout
  | funExtFirst => funExtFirstLayout
  | funExtSecond => funExtSecondLayout
  | funExtThird => funExtThirdLayout

/-- The functions of a group. -/
def mask (g : FunctionGroup) : FunctionBits := g.layout.mask

/-- The message of a group, built from a locomotive. -/
def message (slotIdx : Byte) (loco : LocomotiveData) : FunctionGroup → LnMsg
  | dirf => lnLocoDirf slotIdx loco
  | snd => lnLocoSnd slotIdx loco
  | snd2 => lnLocoSnd2 slotIdx loco
  | funExtFirst => lnLocoFunExt slotIdx .first loco
  | funExtSecond => lnLocoFunExt slotIdx .second loco
  | funExtThird => lnLocoFunExt slotIdx .third loco

/-- Different groups have different messages. -/
theorem message_injective (slotIdx : Byte) (loco : LocomotiveData) :
    Function.Injective (message slotIdx loco) := by
  intro g g' h
  cases g <;> cases g' <;> first
    | rfl
    | exact absurd h (by simp [message, lnLocoDirf, lnLocoSnd, lnLocoSnd2, lnLocoFunExt])

/-- Every group mask lies within F0 to F28, and together they are all of them. -/
theorem unionMask_all : unionMask (all.map mask) = 0x1FFFFFFF#32 := by decide

end FunctionGroup

/-- The union of the masks has the functions F0 to F28. -/
theorem getLsbD_allMask (f : Nat) : (0x1FFFFFFF#32).getLsbD f = decide (f < 29) :=
  getLsbD_lowMask (show 29 ≤ 32 by decide) f

/-- The message of a group goes to the slot it was made for. -/
theorem FunctionGroup.message_controlsSlot (g : FunctionGroup) (i : Fin kNumSlots)
    (loco : LocomotiveData) : (g.message (findSlotIndex i) loco).ControlsSlot i := by
  have hi := congrArg some (findSlotIndex_toNat i)
  cases g <;> exact hi

/-! ### What one message does -/

/-- The functions under a mask taken from a locomotive, with the changed ones flagged. -/
def SlotEntry.mergeFunctions (mask functions : FunctionBits) (entry : SlotEntry) : SlotEntry :=
  let merged := merge mask functions entry.loco.functions
  { entry with
      loco := { entry.loco with functions := merged }
      diff := { entry.diff with
        functions := entry.diff.functions ||| (merged ^^^ entry.loco.functions) } }

/-- Writing a word that was built from a register merges the register. -/
theorem SlotEntry.writeFunctions_of_scatter {l : BitLayout 8 32} {word : Byte}
    {functions : FunctionBits} {entry : SlotEntry}
    (h : l.scatter word entry.loco.functions
      = l.scatter (l.gather functions) entry.loco.functions) :
    entry.writeFunctions l word = entry.mergeFunctions l.mask functions := by
  simp only [SlotEntry.writeFunctions, SlotEntry.mergeFunctions, h, l.scatter_gather]

/-- The entry after the direction of `loco` was written, when the group carries it. -/
def SlotEntry.takeDirection (carried : Bool) (direction : EngineDirection)
    (entry : SlotEntry) : SlotEntry :=
  if carried then entry.writeDirection direction else entry

/-- A function message takes its group from the locomotive it was built from. -/
theorem SlotEntry.control_message (g : FunctionGroup) (slotIdx : Byte) (loco : LocomotiveData)
    (entry : SlotEntry) :
    entry.control (g.message slotIdx loco)
      = (entry.takeDirection (g = .dirf) loco.direction).mergeFunctions g.mask
          loco.functions := by
  cases g with
  | dirf =>
      show entry.locoDirF _ = _
      rw [SlotEntry.locoDirF_eq, dirfDirection_locoToDirf]
      exact SlotEntry.writeFunctions_of_scatter (scatter_locoToDirf loco _)
  | snd =>
      show entry.locoSnd _ kLowestFunctionInSndMessage = _
      rw [SlotEntry.locoSnd_eq, locoToSnd_eq]
      exact SlotEntry.writeFunctions_of_scatter rfl
  | snd2 =>
      show entry.locoSnd _ (kLowestFunctionInSndMessage + kFunctionsInSndMessage) = _
      rw [SlotEntry.locoSnd2_eq, locoToSnd2_eq]
      exact SlotEntry.writeFunctions_of_scatter rfl
  | funExtFirst =>
      show entry.locoFunExt _ = _
      rw [SlotEntry.locoFunExt_eq, locoToFunExtByte_eq]
      exact SlotEntry.writeFunctions_of_scatter rfl
  | funExtSecond =>
      show entry.locoFunExt _ = _
      rw [SlotEntry.locoFunExt_eq, locoToFunExtByte_eq]
      exact SlotEntry.writeFunctions_of_scatter rfl
  | funExtThird =>
      show entry.locoFunExt _ = _
      rw [SlotEntry.locoFunExt_eq, locoToFunExtByte_eq]
      exact SlotEntry.writeFunctions_of_scatter rfl

/-! ### What a list of messages does -/

/-- Two merges from one locomotive are one merge. -/
theorem SlotEntry.mergeFunctions_mergeFunctions (m₁ m₂ functions : FunctionBits)
    (entry : SlotEntry) :
    (entry.mergeFunctions m₁ functions).mergeFunctions m₂ functions
      = entry.mergeFunctions (m₁ ||| m₂) functions := by
  have hdirty := merge_merge_dirty m₁ m₂ functions entry.loco.functions entry.diff.functions
  rw [merge_merge] at hdirty
  simp only [SlotEntry.mergeFunctions, merge_merge, hdirty]

/-- Nothing is taken under an empty mask. -/
theorem SlotEntry.mergeFunctions_zero (functions : FunctionBits) (entry : SlotEntry) :
    entry.mergeFunctions 0 functions = entry := by
  have hzero : merge 0#32 functions entry.loco.functions = entry.loco.functions :=
    merge_zero _ _
  simp [SlotEntry.mergeFunctions, hzero]

/-- Functions and direction are taken in any order. -/
theorem SlotEntry.takeDirection_mergeFunctions (carried : Bool) (direction : EngineDirection)
    (mask functions : FunctionBits) (entry : SlotEntry) :
    (entry.mergeFunctions mask functions).takeDirection carried direction
      = (entry.takeDirection carried direction).mergeFunctions mask functions := by
  cases carried <;> rfl

/-- A second message with the same direction reports no change. -/
theorem SlotEntry.takeDirection_takeDirection (c₁ c₂ : Bool) (direction : EngineDirection)
    (entry : SlotEntry) :
    (entry.takeDirection c₁ direction).takeDirection c₂ direction
      = entry.takeDirection (c₁ || c₂) direction := by
  cases c₁ <;> cases c₂ <;> simp [SlotEntry.takeDirection, SlotEntry.writeDirection]

/-- A list of function messages built from one locomotive, in any order. -/
theorem foldl_control_messages (slotIdx : Byte) (loco : LocomotiveData) :
    ∀ (gs : List FunctionGroup) (entry : SlotEntry),
      (gs.map (FunctionGroup.message slotIdx loco)).foldl (fun entry m => entry.control m) entry
        = (entry.takeDirection (decide (.dirf ∈ gs)) loco.direction).mergeFunctions
            (unionMask (gs.map FunctionGroup.mask)) loco.functions := by
  intro gs
  induction gs with
  | nil =>
      intro entry
      show entry = entry.mergeFunctions 0 loco.functions
      rw [SlotEntry.mergeFunctions_zero]
  | cons g gs ih =>
      intro entry
      -- The direction was written by the first message, or comes with a later one.
      have hmem : decide (FunctionGroup.dirf ∈ g :: gs)
          = (decide (g = .dirf) || decide (.dirf ∈ gs)) := by
        simp only [List.mem_cons, Bool.decide_or, eq_comm]
      rw [List.map_cons, List.foldl_cons, SlotEntry.control_message, ih,
        SlotEntry.takeDirection_mergeFunctions, SlotEntry.takeDirection_takeDirection,
        SlotEntry.mergeFunctions_mergeFunctions, List.map_cons, unionMask_cons, hmem]

/-- A permutation of the messages of a list of groups is the messages of a permutation. -/
theorem FunctionGroup.exists_perm_of_perm_map {slotIdx : Byte} {loco : LocomotiveData}
    {msgs : List LnMsg} {gs : List FunctionGroup}
    (h : msgs.Perm (gs.map (message slotIdx loco))) :
    ∃ gs' : List FunctionGroup, gs'.Perm gs ∧ msgs = gs'.map (message slotIdx loco) := by
  have hmem : ∀ m ∈ msgs, ∃ g, message slotIdx loco g = m := by
    intro m hm
    obtain ⟨g, _, hg⟩ := List.mem_map.mp (h.mem_iff.mp hm)
    exact ⟨g, hg⟩
  obtain ⟨gs', hgs'⟩ : ∃ gs' : List FunctionGroup, gs'.map (message slotIdx loco) = msgs := by
    have hrange : msgs ∈ Set.range (List.map (message slotIdx loco)) := by
      rw [Set.range_list_map]
      exact hmem
    exact hrange
  subst hgs'
  exact ⟨gs', (List.map_perm_map_iff (message_injective slotIdx loco)).mp h, rfl⟩

/-! ### The partition -/

/-- The six function messages of a locomotive, processed in any order for a slot in use,
give the slot the locomotive's direction and its functions F0 to F28. Functions F29 to F31
and the velocity keep their values. The flags gain exactly the functions that changed, and
the direction when it changed. No other slot changes and nothing is sent. -/
theorem processFunctionMessages_perm [AddressScheme] (server : LocoNetSlotServer)
    (i : Fin kNumSlots) (hin : (server.slot i).inUse = true) (loco : LocomotiveData)
    (msgs : List LnMsg)
    (hperm : msgs.Perm
      [lnLocoDirf (findSlotIndex i) loco,
       lnLocoSnd (findSlotIndex i) loco,
       lnLocoSnd2 (findSlotIndex i) loco,
       lnLocoFunExt (findSlotIndex i) .first loco,
       lnLocoFunExt (findSlotIndex i) .second loco,
       lnLocoFunExt (findSlotIndex i) .third loco]) :
    ∃ entry, (forM msgs process).run server = .ok ((), server.setSlot i entry) ∧
      entry.loco.direction = loco.direction ∧
      (∀ f, f ≤ 28 → entry.loco.getFunction f = loco.getFunction f) ∧
      (∀ f, 29 ≤ f → entry.loco.getFunction f = (server.slot i).loco.getFunction f) ∧
      entry.loco.velocity = (server.slot i).loco.velocity ∧
      entry.diff.functions
        = (server.slot i).diff.functions
            ||| (entry.loco.functions ^^^ (server.slot i).loco.functions) ∧
      entry.diff.direction
        = ((server.slot i).diff.direction
            || decide (loco.direction ≠ (server.slot i).loco.direction)) ∧
      entry.diff.velocity = (server.slot i).diff.velocity := by
  have hall : msgs.Perm
      (FunctionGroup.all.map (FunctionGroup.message (findSlotIndex i) loco)) := hperm
  obtain ⟨gs, hgs, rfl⟩ := FunctionGroup.exists_perm_of_perm_map hall
  have hcontrols : ∀ m ∈ gs.map (FunctionGroup.message (findSlotIndex i) loco),
      m.ControlsSlot i := by
    intro m hm
    obtain ⟨g, _, rfl⟩ := List.mem_map.mp hm
    exact g.message_controlsSlot i loco
  have hmask : unionMask (gs.map FunctionGroup.mask) = 0x1FFFFFFF#32 := by
    rw [unionMask_perm (hgs.map FunctionGroup.mask), FunctionGroup.unionMask_all]
  -- The direction travels with F0 to F4, so it is written whatever the order.
  have hdirf : decide (FunctionGroup.dirf ∈ gs) = true :=
    decide_eq_true (hgs.mem_iff.mpr (by decide))
  refine ⟨_, forM_control_run _ server hcontrols hin, ?_⟩
  rw [foldl_control_messages, hmask, hdirf]
  refine ⟨rfl, ?_, ?_, rfl, rfl, rfl, rfl⟩
  · intro f hf
    show (merge 0x1FFFFFFF#32 loco.functions _).getLsbD f = _
    rw [getLsbD_merge, getLsbD_allMask, decide_eq_true (Nat.lt_succ_of_le hf)]
    rfl
  · intro f hf
    show (merge 0x1FFFFFFF#32 loco.functions _).getLsbD f = _
    rw [getLsbD_merge, getLsbD_allMask, decide_eq_false (by omega)]
    rfl

/-- The messages in reverse order, for a slot with other functions. -/
theorem processFunctionMessages_perm_reverse :
    letI := AddressScheme.upperBits
    let server := ({ dataModel := { lnSlotServerState := .active } } : LocoNetSlotServer).setSlot
      3 { inUse := true, loco := { velocity := 500, functions := 0xF0F0F0F0 } }
    let loco : LocomotiveData := { direction := .reverse, functions := 0x12345678 }
    ∃ entry, (forM
        [lnLocoFunExt 3 .third loco, lnLocoFunExt 3 .second loco, lnLocoFunExt 3 .first loco,
         lnLocoSnd2 3 loco, lnLocoSnd 3 loco, lnLocoDirf 3 loco] process).run server
        = .ok ((), server.setSlot 3 entry) ∧
      entry.loco.direction = .reverse ∧
      ∀ f, f ≤ 28 → entry.loco.getFunction f = loco.getFunction f := by
  let _ := AddressScheme.upperBits
  intro server loco
  obtain ⟨entry, hrun, hdir, hfunctions, _⟩ := processFunctionMessages_perm server 3
    (by rw [LocoNetSlotServer.slot_setSlot_self]) loco _ (List.reverse_perm _)
  exact ⟨entry, hrun, hdir, hfunctions⟩

end C6021Light
