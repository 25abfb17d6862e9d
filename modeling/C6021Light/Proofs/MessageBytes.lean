import C6021Light.Proofs.ForwarderRun
import C6021Light.Proofs.SlotData
import C6021Light.Proofs.StatelessRouting

/-!
# `C6021Light.Proofs.MessageBytes`: the argument bytes of the messages that are sent

A LocoNet argument byte has seven bits. The message builders take a slot number, an address,
a velocity and function bits, and this module says for each of them when its bytes fit.

Slot numbers and function bits always do. An address does below `2 ^ 14`. A velocity is the
exception: `canVelocityToLnSpeed` multiplies in 16 bits and cuts the result to a byte, so the
velocities whose speed fits are four intervals of its wrapped product
(`canVelocityToLnSpeed_lt_iff`).
-/

set_option autoImplicit false

namespace C6021Light

open BitMask

/-! ### Velocities -/

/-- Ten times the velocity, wrapped, is in one of the intervals with a seven-bit speed. -/
def FitsLnSpeed (velocity : Velocity) : Prop :=
  let adjustedVelocity := velocity.toNat * 10 % 2 ^ 16
  adjustedVelocity ≤ 10039 ∨ (20119 ≤ adjustedVelocity ∧ adjustedVelocity ≤ 30196) ∨
    (40276 ≤ adjustedVelocity ∧ adjustedVelocity ≤ 50354) ∨ 60434 ≤ adjustedVelocity

/-- Whether a velocity fits can be computed. -/
instance (velocity : Velocity) : Decidable (FitsLnSpeed velocity) := by
  unfold FitsLnSpeed
  infer_instance

/-- The rounded speed of a wrapped product, against a bound. -/
theorem roundedSpeed_lt_iff (adjustedVelocity bound : Nat) :
    (adjustedVelocity * 127 / 1000 + 5) / 10 < bound ↔
      adjustedVelocity * 127 + 5000 < bound * 10000 := by
  rw [Nat.div_lt_iff_lt_mul (by decide)]
  omega

/-- Its byte is a speed in the lower half of each turn. -/
theorem speedByte_lt_iff {adjustedVelocity : Nat} (h : adjustedVelocity < 2 ^ 16) :
    (adjustedVelocity * 127 / 1000 + 5) / 10 % 2 ^ 8 < 128 ↔
      adjustedVelocity ≤ 10039 ∨ (20119 ≤ adjustedVelocity ∧ adjustedVelocity ≤ 30196) ∨
        (40276 ≤ adjustedVelocity ∧ adjustedVelocity ≤ 50354) ∨ 60434 ≤ adjustedVelocity := by
  have h128 := roundedSpeed_lt_iff adjustedVelocity 128
  have h256 := roundedSpeed_lt_iff adjustedVelocity 256
  have h384 := roundedSpeed_lt_iff adjustedVelocity 384
  have h512 := roundedSpeed_lt_iff adjustedVelocity 512
  have h640 := roundedSpeed_lt_iff adjustedVelocity 640
  have h768 := roundedSpeed_lt_iff adjustedVelocity 768
  have h896 := roundedSpeed_lt_iff adjustedVelocity 896
  generalize (adjustedVelocity * 127 / 1000 + 5) / 10 = roundedSpeed at *
  omega

/-- The speed byte has seven bits exactly when the velocity fits. -/
theorem canVelocityToLnSpeed_lt_iff (velocity : Velocity) :
    canVelocityToLnSpeed velocity < 128#8 ↔ FitsLnSpeed velocity := by
  have hlt : velocity.toNat * 10 % 2 ^ 16 < 2 ^ 16 := Nat.mod_lt _ (by decide)
  rw [FitsLnSpeed, ← speedByte_lt_iff hlt]
  show (BitVec.ofNat 8
    (((BitVec.ofNat 16 (velocity.toNat * 10)).toNat * 127 / 1000 + 5) / 10)).toNat < 128 ↔ _
  rw [BitVec.toNat_ofNat, BitVec.toNat_ofNat]

/-- Every velocity that came from LocoNet fits. -/
theorem fitsLnSpeed_lnSpeedToCanVelocity {spd : Byte} (h : spd < 128#8) :
    FitsLnSpeed (lnSpeedToCanVelocity spd) := by
  rw [← canVelocityToLnSpeed_lt_iff, canVelocityToLnSpeed_lnSpeedToCanVelocity spd h]
  exact h

/-! ### Slot numbers, functions and addresses -/

/-- The slot number of an index has seven bits. -/
theorem findSlotIndex_lt (i : Fin kNumSlots) : findSlotIndex i < 128#8 := by
  rw [BitVec.lt_def, findSlotIndex_toNat]
  exact Nat.lt_succ_of_lt i.isLt

/-- A byte without bit 7 has seven bits. -/
theorem lt_of_bit7 {b : Byte} (h : b.getLsbD 7 = false) : b < 128#8 := by
  revert b
  decide

/-- The direction byte has seven bits. -/
theorem locoToDirf_sevenBit (loco : LocomotiveData) : locoToDirf loco < 128#8 :=
  BitVec.lt_trans (locoToDirf_lt loco) (show 64#8 < 128#8 by decide)

/-- The byte of F5 to F8 has seven bits. -/
theorem locoToSnd_sevenBit (loco : LocomotiveData) :
    locoToSnd loco kLowestFunctionInSndMessage < 128#8 :=
  BitVec.lt_trans (locoToSnd_lt loco) (show 16#8 < 128#8 by decide)

/-- A layout without a cell for bit 7. -/
theorem gather_lt (l : BitLayout 8 32) (hcells : (⟨7, by decide⟩ : Fin 8) ∉ l.cells.map Prod.snd)
    (functions : FunctionBits) : l.gather functions < 128#8 :=
  lt_of_bit7 (l.getLsbD_gather_of_notMem hcells functions)

/-- The high address byte. -/
theorem putLocoAddress_high_lt {address : LocoAddr} (h : address.toNat < 2 ^ 14) :
    (putLocoAddress address).2 < 128#8 := by
  show ((address >>> 7).setWidth 8).toNat < 128
  rw [BitVec.toNat_setWidth, BitVec.toNat_ushiftRight, Nat.shiftRight_eq_div_pow]
  omega

/-! ### The messages of the slot server -/

/-- A request for slot data has seven-bit arguments. -/
theorem lnRequestSlotData_sevenBit (i : Fin kNumSlots) :
    (lnRequestSlotData (findSlotIndex i)).SevenBit :=
  sevenBit_pair_iff.mpr ⟨findSlotIndex_lt i, show (0 : Byte) < 128#8 by decide⟩

/-- So has a long acknowledge. -/
theorem lnLongAck_sevenBit {lopc : Byte} (h : lopc &&& 0x7F < 128#8) (success : Bool) :
    (lnLongAck lopc success).SevenBit := by
  have hack : ∀ success : Bool, (if success then 0x7F else 0 : Byte) < 128#8 := by decide
  exact sevenBit_pair_iff.mpr ⟨h, hack success⟩

/-- The status byte has seven bits. -/
theorem slotStatus_lt (entry : SlotEntry) : slotStatus entry < 128#8 := by
  rw [slotStatus]
  split <;> decide

/-- Slot data fits, when the address and the velocity of the slot do. -/
theorem lnSlotDataRead_sevenBit (i : Fin kNumSlots) {stat : Byte} (hstat : stat < 128#8)
    {engine : LocomotiveData} (haddress : engine.address.toNat < 2 ^ 14)
    (hvelocity : FitsLnSpeed engine.velocity) :
    (lnSlotDataRead (findSlotIndex i) stat engine).SevenBit := by
  have hspd := (canVelocityToLnSpeed_lt_iff engine.velocity).mpr hvelocity
  have hzero : (0 : Byte) < 128#8 := by decide
  have hsize : (0x0E : Byte) < 128#8 := by decide
  intro b hb
  simp only [lnSlotDataRead, lnSlotReadWriteMessage, LnMsg.argBytes, List.mem_cons,
    List.not_mem_nil, or_false] at hb
  rcases hb with rfl | rfl | rfl | rfl | rfl | rfl | rfl | rfl | rfl | rfl | rfl | rfl
  · exact hsize
  · exact findSlotIndex_lt i
  · exact hstat
  · exact putLocoAddress_lt engine.address
  · exact hspd
  · exact locoToDirf_sevenBit engine
  · exact hzero
  · exact hzero
  · exact putLocoAddress_high_lt haddress
  · exact locoToSnd_sevenBit engine
  · exact hzero
  · exact hzero

/-! ### The messages of the forwarder -/

/-- A speed message has seven-bit arguments exactly when the velocity fits. -/
theorem lnLocoSpeed_sevenBit_iff (i : Fin kNumSlots) (velocity : Velocity) :
    (lnLocoSpeed (findSlotIndex i) velocity).SevenBit ↔ FitsLnSpeed velocity := by
  rw [← canVelocityToLnSpeed_lt_iff]
  exact sevenBit_pair_iff.trans (and_iff_right (findSlotIndex_lt i))

/-- An extended function message has them when its block and its functions do. -/
theorem lnLocoFunExt_sevenBit (i : Fin kNumSlots) {blockId : LocoFunExtBlockId}
    (hblock : blockId < 128#8) (loco : LocomotiveData)
    (hbyte : locoToFunExtByte blockId loco < 128#8) :
    (lnLocoFunExt (findSlotIndex i) blockId loco).SevenBit := by
  have hmagic : kFunExtMagicByte < 128#8 := by decide
  intro b hb
  simp only [lnLocoFunExt, LnMsg.argBytes, List.mem_cons, List.not_mem_nil, or_false] at hb
  rcases hb with rfl | rfl | rfl | rfl
  · exact hmagic
  · exact findSlotIndex_lt i
  · exact hblock
  · exact hbyte

/-- A function message always fits. -/
theorem FunctionGroup.message_sevenBit (g : FunctionGroup) (i : Fin kNumSlots)
    (loco : LocomotiveData) : (g.message (findSlotIndex i) loco).SevenBit := by
  cases g with
  | dirf => exact sevenBit_pair_iff.mpr ⟨findSlotIndex_lt i, locoToDirf_sevenBit loco⟩
  | snd => exact sevenBit_pair_iff.mpr ⟨findSlotIndex_lt i, locoToSnd_sevenBit loco⟩
  | snd2 =>
      refine sevenBit_pair_iff.mpr ⟨findSlotIndex_lt i, ?_⟩
      rw [locoToSnd2_eq]
      exact gather_lt _ (by decide) _
  | funExtFirst =>
      refine lnLocoFunExt_sevenBit i (by decide) loco ?_
      rw [locoToFunExtByte_eq]
      exact gather_lt _ (by decide) _
  | funExtSecond =>
      refine lnLocoFunExt_sevenBit i (by decide) loco ?_
      rw [locoToFunExtByte_eq]
      exact gather_lt _ (by decide) _
  | funExtThird =>
      refine lnLocoFunExt_sevenBit i (by decide) loco ?_
      rw [locoToFunExtByte_eq]
      exact gather_lt _ (by decide) _

/-- The messages for a change fit, when a flagged velocity does. -/
theorem announcements_sevenBit_iff (i : Fin kNumSlots) (loco : LocomotiveData)
    (diff : LocoDiff) :
    (∀ m ∈ announcements (findSlotIndex i) loco diff, m.SevenBit) ↔
      (diff.velocity = true → FitsLnSpeed loco.velocity) := by
  have hgroups : ∀ m ∈ (FunctionGroup.all.filter (FunctionGroup.announcedBy diff)).map
      (FunctionGroup.message (findSlotIndex i) loco), m.SevenBit := by
    intro m hm
    obtain ⟨g, _, rfl⟩ := List.mem_map.mp hm
    exact g.message_sevenBit i loco
  rw [announcements, List.forall_mem_append, and_iff_left hgroups]
  cases diff.velocity with
  | true =>
      rw [if_pos rfl, List.forall_mem_singleton, lnLocoSpeed_sevenBit_iff]
      exact ⟨fun h _ => h, fun h => h rfl⟩
  | false => exact iff_of_true (List.forall_mem_nil _) (fun h => Bool.noConfusion h)

/-- A frame that is forwarded without any state has a message that fits. -/
theorem forward_sevenBit [TurnoutScheme] {frame : CanFrame} {m : LnMsg}
    (h : LocoNetForwarder.forward frame = some m) : m.SevenBit := by
  cases frame with
  | accessorySwitch isResponse packet =>
      cases isResponse with
      | false =>
          cases h
          exact (LayoutEvent.toLnMsg_wellFormed (.turnout
            (TurnoutScheme.getNumericAddress packet.locid) packet.direction packet.power)).1
      | true => cases h
  | s88Event isResponse event =>
      rw [LocoNetForwarder.forward] at h
      split at h
      · cases h
        exact (LayoutEvent.toLnMsg_wellFormed (.contact event.contactId event.newState)).1
      · cases h
  | systemCommand isResponse subcommand =>
      cases subcommand <;> cases isResponse <;> cases h <;> decide
  | other => cases h

end C6021Light
