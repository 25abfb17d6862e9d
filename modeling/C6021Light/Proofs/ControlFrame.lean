import C6021Light.Proofs.EngineAttributes

/-!
# `C6021Light.Proofs.ControlFrame`: a control message changes only what it names

`LnMsg.names` is the table of which attributes each control message names: the velocity, the
direction with F0 to F4, and the function groups. `ChangesOnlyNamed` is the frame condition
for `process`: other slots, the dispatch marker, the identity of the addressed slot and the
attributes outside the table stay as they were.

`processLocoFunExt` knows three blocks, but its test reads every block id other than `THIRD`
and `FIRST` as `SECOND`. So a message for a block that does not exist writes F21 to F27. The
frame condition holds for all other messages, and for such a message exactly when its bits
are those of the slot (`process_changesOnlyNamed_iff`).
-/

set_option autoImplicit false

namespace C6021Light

open BitMask

/-! ### What a message names -/

/-- The functions of a block. A block id that the source does not name has none. -/
def LocoFunExtBlockId.hasFunction (blockId : LocoFunExtBlockId) (f : Nat) : Bool :=
  if blockId = .first then 13 ≤ f ∧ f ≤ 19
  else if blockId = .second then 21 ≤ f ∧ f ≤ 27
  else if blockId = .third then f = 20 ∨ f = 28
  else false

/-- The source names the block id. -/
def LocoFunExtBlockId.isKnown (blockId : LocoFunExtBlockId) : Bool :=
  blockId = .first ∨ blockId = .second ∨ blockId = .third

/-- The attributes that a control message names. -/
def LnMsg.names : LnMsg → EngineAttribute → Bool
  | locoSpd _, .velocity => true
  | locoDirf _, .direction => true
  | locoDirf _, .function f => f ≤ 4
  | locoSnd _, .function f => 5 ≤ f ∧ f ≤ 8
  | locoSnd2 _, .function f => 9 ≤ f ∧ f ≤ 12
  | locoFunext msdi, .function f =>
      msdi.arg1 = kFunExtMagicByte ∧ LocoFunExtBlockId.hasFunction msdi.arg3 f
  | _, _ => false

/-- An extended function message without the magic byte, or for an unknown block. -/
def LnMsg.isIgnorable : LnMsg → Bool
  | locoFunext msdi => msdi.arg1 ≠ kFunExtMagicByte ∨ ¬ LocoFunExtBlockId.isKnown msdi.arg3
  | _ => false

/-- From `s` to `s'` a message changed at most what it names, in slot `i`. -/
structure ChangesOnlyNamed (m : LnMsg) (i : Fin kNumSlots) (s s' : LocoNetSlotServer) :
    Prop where
  others : ∀ j, j ≠ i → s'.slot j = s.slot j
  marker : s'.slotInDispatch = s.slotInDispatch
  identity : (s'.slot i).identity = (s.slot i).identity
  value : ∀ a, m.names a = false → (s'.slot i).loco.state.SameOn a (s.slot i).loco.state
  flag : ∀ a, m.names a = false → (s'.slot i).diff.flagged a = (s.slot i).diff.flagged a
  ignored : m.isIgnorable = true → s' = s

/-- When the message is for an unknown block, its function bits are those of F21 to F27. -/
def LnMsg.RepeatsUnknownBlock (m : LnMsg) (entry : SlotEntry) : Prop :=
  match m with
  | locoFunext msdi =>
      msdi.arg1 = kFunExtMagicByte → LocoFunExtBlockId.isKnown msdi.arg3 = false →
        ∀ k < 7, msdi.arg4.getLsbD k = entry.loco.getFunction (21 + k)
  | _ => True

/-! ### Writes of a layout -/

/-- A bit outside a range that covers the register is clear. -/
theorem getLsbD_eq_false_of_range {x : FunctionBits} (range : Nat → Bool)
    (hrange : ∀ f : Fin 32, x.getLsbD f = true → range f = true) {f : Nat}
    (hf : range f = false) : x.getLsbD f = false := by
  by_cases hlt : f < 32
  · refine Bool.eq_false_iff.mpr fun hx => ?_
    have hin : range f = true := hrange ⟨f, hlt⟩ hx
    rw [hf] at hin
    cases hin
  · exact BitVec.getLsbD_of_ge _ _ (Nat.le_of_not_lt hlt)

/-- Writing the functions of a layout keeps an attribute outside it, with its flag. -/
theorem SlotEntry.writeFunctions_frame {l : BitLayout 8 32} {a : EngineAttribute}
    (ha : ∀ f, a = .function f → l.mask.getLsbD f = false) (word : Byte) (entry : SlotEntry) :
    (entry.writeFunctions l word).loco.state.SameOn a entry.loco.state ∧
      (entry.writeFunctions l word).diff.flagged a = entry.diff.flagged a := by
  cases a with
  | velocity => exact ⟨rfl, rfl⟩
  | direction => exact ⟨rfl, rfl⟩
  | function f =>
      have hsame := l.scatter_outside word entry.loco.functions (ha f rfl)
      refine ⟨hsame, ?_⟩
      show (entry.diff.functions ||| (l.scatter word entry.loco.functions
        ^^^ entry.loco.functions)).getLsbD f = entry.diff.functions.getLsbD f
      rw [BitVec.getLsbD_or, BitVec.getLsbD_xor, hsame, Bool.xor_self, Bool.or_false]

/-- The functions of a known block are those of its layout. -/
theorem funExtLayout_outside {blockId : LocoFunExtBlockId} (hblock : blockId.isKnown = true)
    {f : Nat} (hf : blockId.hasFunction f = false) :
    (funExtLayout blockId).mask.getLsbD f = false := by
  rcases of_decide_eq_true hblock with rfl | rfl | rfl
  · exact getLsbD_eq_false_of_range (fun f => 13 ≤ f ∧ f ≤ 19) (by decide) hf
  · exact getLsbD_eq_false_of_range (fun f => 21 ≤ f ∧ f ≤ 27) (by decide) hf
  · exact getLsbD_eq_false_of_range (fun f => f = 20 ∨ f = 28) (by decide) hf

/-- An unknown block is written as `SECOND`, which changes nothing exactly when the bits are
there already. -/
theorem SlotEntry.locoFunExt_unknown_eq_self_iff {msdi : MultiSenseDeviceInfoMsg}
    (hblock : LocoFunExtBlockId.isKnown msdi.arg3 = false) (entry : SlotEntry) :
    entry.locoFunExt msdi = entry ↔
      ∀ k < 7, msdi.arg4.getLsbD k = entry.loco.getFunction (21 + k) := by
  have hlayout : funExtLayout msdi.arg3 = funExtSecondLayout := by
    rw [LocoFunExtBlockId.isKnown, decide_eq_false_iff_not, not_or, not_or] at hblock
    rw [funExtLayout, if_neg hblock.2.2, if_neg hblock.1]
  have hcells : (∀ c ∈ funExtSecondLayout.cells,
      msdi.arg4.getLsbD c.2 = entry.loco.functions.getLsbD c.1) ↔
      ∀ k < 7, msdi.arg4.getLsbD k = entry.loco.getFunction (21 + k) := by
    have hmem : ∀ (f : Fin 32) (k : Fin 8),
        (f, k) ∈ funExtSecondLayout.cells ↔ (k : Nat) < 7 ∧ (f : Nat) = 21 + k := by
      decide
    constructor
    · intro h k hk
      exact h (⟨21 + k, by omega⟩, ⟨k, by omega⟩) ((hmem _ _).mpr ⟨hk, rfl⟩)
    · rintro h ⟨f, k⟩ hc
      obtain ⟨hk, hregister⟩ := (hmem f k).mp hc
      show msdi.arg4.getLsbD k = entry.loco.functions.getLsbD f
      rw [hregister]
      exact h k hk
  rw [SlotEntry.locoFunExt_eq, hlayout, ← hcells, ← BitLayout.scatter_eq_self_iff]
  constructor
  · intro h
    exact congrArg (fun entry : SlotEntry => entry.loco.functions) h
  · intro h
    simp only [SlotEntry.writeFunctions, h, BitVec.xor_self, BitVec.or_zero]

/-! ### What a message leaves alone -/

/-- Outside unknown blocks, a control message keeps every attribute that it does not name. -/
theorem SlotEntry.control_frame {m : LnMsg} {a : EngineAttribute} (hm : m.names a = false)
    (hknown : m.isIgnorable = false) (entry : SlotEntry) :
    (entry.control m).loco.state.SameOn a entry.loco.state ∧
      (entry.control m).diff.flagged a = entry.diff.flagged a := by
  have hself : entry.loco.state.SameOn a entry.loco.state ∧
      entry.diff.flagged a = entry.diff.flagged a := ⟨.refl a _, rfl⟩
  cases m with
  -- One case per message. The layouts say which functions are out of reach.
  | locoSpd lsp =>
      cases a with
      | velocity => cases hm
      | direction => exact hself
      | function f => exact hself
  | locoDirf ldf =>
      -- DIRF is two writes, and neither touches an attribute that is not named.
      rw [SlotEntry.control, SlotEntry.locoDirF_eq]
      have hdirection : (entry.writeDirection (dirfDirection ldf.dirf)).loco.state.SameOn a
          entry.loco.state ∧ (entry.writeDirection (dirfDirection ldf.dirf)).diff.flagged a
            = entry.diff.flagged a := by
        cases a with
        | direction => cases hm
        | velocity => exact ⟨rfl, rfl⟩
        | function f => exact ⟨rfl, rfl⟩
      have hfunctions := SlotEntry.writeFunctions_frame (l := dirfLayout) (a := a) (fun f ha => by
        subst ha
        exact getLsbD_eq_false_of_range (fun f => f ≤ 4) (by decide) hm) ldf.dirf
          (entry.writeDirection (dirfDirection ldf.dirf))
      exact ⟨hfunctions.1.trans hdirection.1, hfunctions.2.trans hdirection.2⟩
  | locoSnd ls =>
      rw [SlotEntry.control, SlotEntry.locoSnd_eq]
      refine SlotEntry.writeFunctions_frame (fun f ha => ?_) ls.snd entry
      subst ha
      exact getLsbD_eq_false_of_range (fun f => 5 ≤ f ∧ f ≤ 8) (by decide) hm
  | locoSnd2 ls =>
      rw [SlotEntry.control, SlotEntry.locoSnd2_eq]
      refine SlotEntry.writeFunctions_frame (fun f ha => ?_) ls.snd entry
      subst ha
      exact getLsbD_eq_false_of_range (fun f => 9 ≤ f ∧ f ≤ 12) (by decide) hm
  -- An unknown block is excluded, so the layout has only the functions of the block.
  | locoFunext msdi =>
      rw [LnMsg.isIgnorable, decide_eq_false_iff_not, not_or, not_not, not_not] at hknown
      obtain ⟨hmagic, hblock⟩ := hknown
      rw [SlotEntry.control, if_pos hmagic, SlotEntry.locoFunExt_eq]
      refine SlotEntry.writeFunctions_frame (fun f ha => ?_) msdi.arg4 entry
      subst ha
      have hf : LocoFunExtBlockId.hasFunction msdi.arg3 f = false := by
        simpa [LnMsg.names, hmagic] using hm
      exact funExtLayout_outside hblock hf
  | _ => exact hself

/-- A message that names nothing leaves the slot as it is, if it repeats the bits of an unknown
block. -/
theorem SlotEntry.control_eq_self {m : LnMsg} {entry : SlotEntry} (hm : m.isIgnorable = true)
    (hrepeats : m.RepeatsUnknownBlock entry) : entry.control m = entry := by
  cases m with
  | locoFunext msdi =>
      rw [SlotEntry.control]
      by_cases hmagic : msdi.arg1 = kFunExtMagicByte
      · have hblock : LocoFunExtBlockId.isKnown msdi.arg3 = false := by
          simpa [LnMsg.isIgnorable, hmagic] using hm
        rw [if_pos hmagic]
        exact (SlotEntry.locoFunExt_unknown_eq_self_iff hblock _).mpr (hrepeats hmagic hblock)
      · rw [if_neg hmagic]
  | _ => cases hm

/-- A control message that repeats the bits of an unknown block keeps every attribute that it
does not name. -/
theorem SlotEntry.control_frame_of_repeats {m : LnMsg} {a : EngineAttribute}
    {entry : SlotEntry} (hrepeats : m.RepeatsUnknownBlock entry) (hm : m.names a = false) :
    (entry.control m).loco.state.SameOn a entry.loco.state ∧
      (entry.control m).diff.flagged a = entry.diff.flagged a := by
  cases hknown : m.isIgnorable with
  | true =>
      rw [SlotEntry.control_eq_self hknown hrepeats]
      exact ⟨.refl a _, rfl⟩
  | false => exact SlotEntry.control_frame hm hknown entry

variable [AddressScheme]

/-- A control message for a slot in use changes only what it names, exactly when it is not
for an unknown block, or repeats the bits that the slot has in the block `SECOND`. -/
theorem process_changesOnlyNamed_iff {m : LnMsg} {i : Fin kNumSlots} (hm : m.ControlsSlot i)
    {s : LocoNetSlotServer} (hin : (s.slot i).inUse = true) :
    (∃ s', (process m).run s = .ok ((), s') ∧ ChangesOnlyNamed m i s s') ↔
      m.RepeatsUnknownBlock (s.slot i) := by
  obtain ⟨slot, hslot, hi⟩ := hm.exists_slot
  have hrun := process_control_run_of_inUse hslot hi hin
  constructor
  · rintro ⟨s', hrun', h⟩
    cases hrun.symm.trans hrun'
    -- Only a message for an unknown block has something to repeat.
    cases m with
    | locoFunext msdi =>
        intro hmagic hblock
        have hsame := congrArg (·.slot i) (h.ignored (by simp [LnMsg.isIgnorable, hblock]))
        rw [LocoNetSlotServer.slot_setSlot_self, SlotEntry.control, if_pos hmagic] at hsame
        exact (SlotEntry.locoFunExt_unknown_eq_self_iff hblock _).mp hsame
    | _ => trivial
  · intro hrepeats
    refine ⟨_, hrun, ?_⟩
    -- The parts of the frame: the other slots, the server, the identity, the values and the flags.
    refine ⟨fun j hj => LocoNetSlotServer.slot_setSlot_ne s i j _ hj, rfl, ?_, ?_, ?_, ?_⟩
    · rw [LocoNetSlotServer.slot_setSlot_self, SlotEntry.control_identity]
    · intro a ha
      rw [LocoNetSlotServer.slot_setSlot_self]
      exact (SlotEntry.control_frame_of_repeats hrepeats ha).1
    · intro a ha
      rw [LocoNetSlotServer.slot_setSlot_self]
      exact (SlotEntry.control_frame_of_repeats hrepeats ha).2
    · intro hm'
      rw [SlotEntry.control_eq_self hm' hrepeats, LocoNetSlotServer.setSlot_slot]

omit [AddressScheme] in
/-- A message for the block `SECOND`. -/
theorem process_changesOnlyNamed_iff_second :
    letI := AddressScheme.upperBits
    let server := LocoNetSlotServer.setSlot { dataModel := { lnSlotServerState := .passive } } 1
      { inUse := true }
    let m : LnMsg := .locoFunext { arg1 := 0x20, arg2 := 1, arg3 := 9, arg4 := 1 }
    ∃ s', (process m).run server = .ok ((), s') ∧ ChangesOnlyNamed m 1 server s' := by
  let _ := AddressScheme.upperBits
  intro server m
  refine (process_changesOnlyNamed_iff (m := m) (i := 1) (s := server) (by decide) ?_).mpr ?_
  · rw [LocoNetSlotServer.slot_setSlot_self]
  · intro _ hblock
    cases hblock

omit [AddressScheme] in
/-- A message for block 7, which does not exist, switches F21 of slot 1 on. -/
theorem process_unknown_block_changes :
    letI := AddressScheme.upperBits
    let server := LocoNetSlotServer.setSlot { dataModel := { lnSlotServerState := .passive } } 1
      { inUse := true }
    let m : LnMsg := .locoFunext { arg1 := 0x20, arg2 := 1, arg3 := 7, arg4 := 1 }
    m.SevenBit ∧ m.ControlsSlot 1 ∧ (server.slot 1).inUse = true ∧ m.isIgnorable = true ∧
      ¬ ∃ s', (process m).run server = .ok ((), s') ∧ ChangesOnlyNamed m 1 server s' := by
  let _ := AddressScheme.upperBits
  intro server m
  have hslot : server.slot 1 = { inUse := true } := LocoNetSlotServer.slot_setSlot_self _ _ _
  have hin : (server.slot 1).inUse = true := by rw [hslot]
  refine ⟨by decide, by decide, hin, by decide, ?_⟩
  rintro ⟨s', hrun, h⟩
  have hcontrol : m.controlSlot = some 1 := rfl
  cases (process_control_run_of_inUse hcontrol rfl hin).symm.trans hrun
  have hsame := congrArg (·.slot 1) (h.ignored (by decide))
  rw [LocoNetSlotServer.slot_setSlot_self, hslot] at hsame
  exact absurd hsame (by decide)

end C6021Light
