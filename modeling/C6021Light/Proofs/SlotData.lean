import C6021Light.Proofs.SlotServerRun

/-!
# `C6021Light.Proofs.SlotData`: slot data messages

A slot data message carries a locomotive in seven-bit bytes: a 14-bit address in two bytes, a
speed from 0 to 127, the direction with F0 to F4, and F5 to F8. This module shows that the
encoder and the decoder are inverse, field by field.

The two velocity conversions round, so they are not inverse on velocities. They meet in every
speed byte (`canVelocityToLnSpeed_lnSpeedToCanVelocity`), and that is enough: a velocity that
went through a message once is a fixed point of going through it again.
-/

set_option autoImplicit false

namespace C6021Light

open BitMask FaultRun

/-! ### Velocities -/

/-- Every speed byte survives the way to a velocity and back. -/
theorem canVelocityToLnSpeed_lnSpeedToCanVelocity :
    ∀ spd : Byte, spd < 128#8 → canVelocityToLnSpeed (lnSpeedToCanVelocity spd) = spd := by
  decide

/-- A velocity of the CAN range gives a seven-bit speed. -/
theorem canVelocityToLnSpeed_lt {velocity : Velocity}
    (h : velocity.toNat ≤ kMaxEngineVelocity) : canVelocityToLnSpeed velocity < 128#8 := by
  have hv : velocity.toNat ≤ 1000 := h
  show (BitVec.ofNat 8
    (((BitVec.ofNat 16 (velocity.toNat * 10)).toNat * 127 / 1000 + 5) / 10)).toNat < 128
  -- 10000 fits 16 bits, so the product does not wrap.
  have hfits : velocity.toNat * 10 % 2 ^ 16 = velocity.toNat * 10 :=
    Nat.mod_eq_of_lt (by omega)
  have hspeed : (velocity.toNat * 10 * 127 / 1000 + 5) / 10 ≤ 127 := by omega
  rw [BitVec.toNat_ofNat, BitVec.toNat_ofNat, hfits, Nat.mod_eq_of_lt (by omega)]
  omega

/-! ### Addresses -/

/-- The seven-bit mask, for a byte and for an address. -/
theorem getLsbD_sevenBitMask (i : Nat) : (0x7F#8).getLsbD i = decide (i < 7) :=
  getLsbD_lowMask (show 7 ≤ 8 by decide) i

/-- The mask has the lowest seven bits. -/
theorem getLsbD_sevenBitMask16 (i : Nat) : (0x7F#16).getLsbD i = decide (i < 7) :=
  getLsbD_lowMask (show 7 ≤ 16 by decide) i

/-- The two address bytes hold an address below `2 ^ 14`. -/
theorem joinAddress_putLocoAddress {address : LocoAddr} (h : address.toNat < 2 ^ 14) :
    ((putLocoAddress address).2.setWidth 16 <<< 7)
        ||| ((putLocoAddress address).1 &&& 0x7F#8).setWidth 16 = address := by
  refine BitVec.eq_of_getLsbD_eq fun i hi => ?_
  simp only [putLocoAddress, BitVec.getLsbD_or, BitVec.getLsbD_shiftLeft,
    BitVec.getLsbD_setWidth, BitVec.getLsbD_and, BitVec.getLsbD_ushiftRight,
    getLsbD_sevenBitMask, getLsbD_sevenBitMask16]
  -- The low byte gives bits 0 to 6, the high byte bits 7 to 13, and there are no others.
  by_cases hlow : i < 7
  · simp [hlow, hi, show i < 8 by omega]
  · have hidx : 7 + (i - 7) = i := by omega
    by_cases hmid : i < 14
    · simp [hlow, hi, hidx, show i - 7 < 8 by omega, show i - 7 < 16 by omega]
    · simp [hlow, hidx, getLsbD_of_toNat_lt h (show 14 ≤ i by omega)]

/-- Two address bytes come back from the address they make, the low one when it is a
seven-bit byte. -/
theorem putLocoAddress_joinAddress {adr : Byte} (h : adr < 128#8) (adr2 : Byte) :
    putLocoAddress ((adr2.setWidth 16 <<< 7) ||| (adr &&& 0x7F#8).setWidth 16)
      = (adr, adr2) := by
  have hadr : adr.toNat < 2 ^ 7 := h
  rw [putLocoAddress, Prod.mk.injEq]
  refine ⟨?_, ?_⟩
  · refine BitVec.eq_of_getLsbD_eq fun i hi => ?_
    simp only [BitVec.getLsbD_or, BitVec.getLsbD_shiftLeft, BitVec.getLsbD_setWidth,
      BitVec.getLsbD_and, getLsbD_sevenBitMask, getLsbD_sevenBitMask16]
    by_cases hlow : i < 7
    · simp [hlow, hi, show i < 16 by omega]
    · simp [hlow, getLsbD_of_toNat_lt hadr (show 7 ≤ i by omega)]
  · refine BitVec.eq_of_getLsbD_eq fun i hi => ?_
    simp only [BitVec.getLsbD_or, BitVec.getLsbD_shiftLeft, BitVec.getLsbD_setWidth,
      BitVec.getLsbD_and, BitVec.getLsbD_ushiftRight, getLsbD_sevenBitMask]
    -- Bit `i` of the high byte was moved up by seven, past the bits of the low byte.
    simp [hi, show i < 16 by omega, show 7 + i < 16 by omega, show ¬ 7 + i < 7 by omega]

/-- Slot data of seven-bit bytes has a 14-bit address. -/
theorem getLocoAddress_lt {msg : RwSlotDataMsg} (h : msg.adr2 < 128#8) :
    (getLocoAddress msg).toNat < 2 ^ 14 := by
  have hhigh : msg.adr2.toNat < 128 := BitVec.lt_def.mp h
  have hadr2 : (msg.adr2.setWidth 16).toNat = msg.adr2.toNat :=
    BitVec.toNat_setWidth_of_le (by decide)
  have hadr : ((msg.adr &&& 0x7F#8).setWidth 16).toNat = msg.adr.toNat % 2 ^ 7 := by
    rw [BitVec.toNat_setWidth_of_le (by decide)]
    exact toNat_and_lowMask (show 7 ≤ 8 by decide) msg.adr
  have hlow : msg.adr.toNat % 2 ^ 7 < 2 ^ 7 := Nat.mod_lt _ (by decide)
  rw [getLocoAddress, toNat_shiftLeft_or (by omega) (by omega), hadr2, hadr]
  omega

/-! ### Direction, function and sound bytes -/

/-- The layouts of the direction byte and of the sound byte share no function. -/
theorem gather_dirf_scatter_snd (snd : Byte) (functions : FunctionBits) :
    dirfLayout.gather (sndLayout.scatter snd functions) = dirfLayout.gather functions := by
  have hapart : dirfLayout.cells.all (fun c => !sndLayout.mask.getLsbD c.1) = true := by decide
  refine dirfLayout.gather_congr fun c hc => sndLayout.scatter_outside snd functions ?_
  exact Bool.not_eq_true' _ ▸ List.all_eq_true.mp hapart c hc

/-- Putting the direction back restores the byte. -/
theorem setBit_direction_eq (dirf : Byte) (h : dirf < 64#8) :
    setBit (dirf &&& dirfLayout.wordMask) 5 (dirf.getLsbD 5) = dirf := by
  have hmask : dirfLayout.wordMask = BitVec.ofNat 8 (2 ^ 5 - 1) := by decide
  refine BitVec.eq_of_getLsbD_eq fun i hi => ?_
  rw [getLsbD_setBit]
  split
  · next h5 => rw [h5.1]
  · next h5 =>
    rw [BitVec.getLsbD_and, hmask, getLsbD_lowMask (by decide)]
    by_cases hlow : i < 5
    · simp [hlow]
    · simp [hlow, getLsbD_of_toNat_lt (n := 6) (BitVec.lt_def.mp h) (show 6 ≤ i by omega)]

/-- The mask of `snd` keeps a value of four bits. -/
theorem and_sndMask_eq (snd : Byte) (h : snd < 16#8) : snd &&& sndLayout.wordMask = snd := by
  have hmask : sndLayout.wordMask = 0x0F#8 := by decide
  have hlt : snd.toNat < 16 := BitVec.lt_def.mp h
  refine BitVec.eq_of_toNat_eq ?_
  rw [hmask]
  exact (toNat_and_lowMask (show 4 ≤ 8 by decide) snd).trans (Nat.mod_eq_of_lt hlt)

/-! ### The locomotive of a slot data message -/

/-- The slot after a slot data message, field by field. -/
theorem SlotEntry.slotRead_loco (msg : RwSlotDataMsg) (entry : SlotEntry) :
    (entry.slotRead msg).loco =
      { uid := (getLocoAddress msg).setWidth 32
        address := getLocoAddress msg
        velocity := lnSpeedToCanVelocity msg.spd
        direction := dirfDirection msg.dirf
        functions := sndLayout.scatter msg.snd (dirfLayout.scatter msg.dirf 0) } := by
  simp only [SlotEntry.slotRead, sndToLoco_eq, dirfToLoco_eq]
  rfl

/-- Encoding what was decoded gives back the bytes of the message. -/
theorem lnSlotReadWriteMessage_slotRead {msg : RwSlotDataMsg} (hspd : msg.spd < 128#8)
    (hdirf : msg.dirf < 64#8) (hsnd : msg.snd < 16#8) (hadr : msg.adr < 128#8)
    (slot stat : Byte) (entry : SlotEntry) :
    lnSlotReadWriteMessage slot stat (entry.slotRead msg).loco
      = { slot := slot, stat := stat, adr := msg.adr, spd := msg.spd, dirf := msg.dirf,
          adr2 := msg.adr2, snd := msg.snd } := by
  have haddress : putLocoAddress (getLocoAddress msg) = (msg.adr, msg.adr2) :=
    putLocoAddress_joinAddress hadr msg.adr2
  have hdirection : (dirfDirection msg.dirf = .reverse : Bool) = msg.dirf.getLsbD 5 := by
    rw [dirfDirection]
    cases msg.dirf.getLsbD 5 <;> rfl
  have hdirfByte : locoToDirf (entry.slotRead msg).loco = msg.dirf := by
    rw [locoToDirf_eq, SlotEntry.slotRead_loco, gather_dirf_scatter_snd,
      dirfLayout.gather_scatter, hdirection, setBit_direction_eq msg.dirf hdirf]
  have hsndByte : locoToSnd (entry.slotRead msg).loco kLowestFunctionInSndMessage = msg.snd := by
    rw [locoToSnd_eq, SlotEntry.slotRead_loco, sndLayout.gather_scatter,
      and_sndMask_eq msg.snd hsnd]
  rw [lnSlotReadWriteMessage, hdirfByte, hsndByte, SlotEntry.slotRead_loco]
  simp only [haddress, canVelocityToLnSpeed_lnSpeedToCanVelocity msg.spd hspd]

/-- The bytes of an encoded locomotive are in the range that the decoder inverts. -/
theorem locoToDirf_lt (loco : LocomotiveData) : locoToDirf loco < 64#8 := by
  have hmask : dirfLayout.wordMask.toNat ≤ 31 := by decide
  rw [locoToDirf_eq, ← dirfLayout.gather_and_wordMask, BitVec.lt_def]
  have hle := toNat_and_le (dirfLayout.gather loco.functions) dirfLayout.wordMask
  rw [setBit]
  split
  · rw [BitVec.toNat_or]
    exact Nat.or_lt_two_pow (n := 6) (by omega) (by decide)
  · rw [BitVec.and_comm]
    exact (toNat_and_le _ _).trans_lt (show _ < 64 by omega)

/-- `snd` has four bits. -/
theorem locoToSnd_lt (loco : LocomotiveData) :
    locoToSnd loco kLowestFunctionInSndMessage < 16#8 := by
  have hmask : sndLayout.wordMask.toNat < 16 := by decide
  rw [locoToSnd_eq, ← sndLayout.gather_and_wordMask, BitVec.lt_def]
  exact (toNat_and_le _ _).trans_lt hmask

/-- The lower part of the address has seven bits. -/
theorem putLocoAddress_lt (address : LocoAddr) : (putLocoAddress address).1 < 128#8 := by
  have hlow : address.toNat &&& 127 ≤ 127 := Nat.and_le_right
  show ((address &&& 0x7F#16).setWidth 8).toNat < 128
  rw [BitVec.toNat_setWidth, BitVec.toNat_and]
  show (address.toNat &&& 127) % 2 ^ 8 < 128
  omega

/-- The slot after it received an encoded locomotive. -/
theorem SlotEntry.slotRead_lnSlotReadWriteMessage (slot stat : Byte) {loco : LocomotiveData}
    (haddress : loco.address.toNat < 2 ^ 14) (entry : SlotEntry) :
    (entry.slotRead (lnSlotReadWriteMessage slot stat loco)).loco =
      { uid := loco.address.setWidth 32
        address := loco.address
        velocity := lnSpeedToCanVelocity (canVelocityToLnSpeed loco.velocity)
        direction := loco.direction
        functions := merge 0x1FF#32 loco.functions 0 } := by
  have hjoin : getLocoAddress (lnSlotReadWriteMessage slot stat loco) = loco.address :=
    joinAddress_putLocoAddress haddress
  have hmasks : dirfLayout.mask ||| sndLayout.mask = 0x1FF#32 := by decide
  rw [SlotEntry.slotRead_loco, hjoin]
  simp only [lnSlotReadWriteMessage, dirfDirection_locoToDirf, locoToSnd_eq, scatter_locoToDirf,
    BitLayout.scatter_gather, merge_merge, hmasks]

/-- Slot data for slot `i`, read or written: the slot decodes it, and no other slot changes. -/
theorem process_slotData_run [AddressScheme] (server : LocoNetSlotServer) {msg : RwSlotDataMsg}
    {i : Fin kNumSlots} (hi : msg.slot.toNat = i) {m : LnMsg}
    (hm : m = .slRdData msg ∨ m = .wrSlData msg) :
    ∃ server', (process m).run server = .ok ((), server') ∧
      server'.slot i = (server.slot i).slotRead msg ∧
      ∀ j, j ≠ i → server'.slot j = server.slot j := by
  have hread := processSlotRead_run server msg hi
  rcases hm with rfl | rfl
  · refine ⟨_, hread, LocoNetSlotServer.slot_setSlot_self _ _ _, ?_⟩
    intro j hj
    exact LocoNetSlotServer.slot_setSlot_ne _ _ _ _ hj
  · refine ⟨_, process_wrSlData_run hread, LocoNetSlotServer.slot_setSlot_self _ _ _, ?_⟩
    intro j hj
    exact LocoNetSlotServer.slot_setSlot_ne _ _ _ _ hj

/-! ### The round trip -/

/-- Slot data in both directions.

The first part: processing the slot data of a locomotive, read or write, gives slot `i` the
locomotive's address, a UID equal to the address, its direction, its functions F0 to F8 and
its velocity after rounding. The higher functions are off, no other slot changes, and encoding
the slot's locomotive gives the same message again.

The second part: encoding the slot after any slot data message with a speed, a direction and
a sound byte in range gives back the bytes of that message. -/
theorem processSlotData_roundTrip [AddressScheme] (server : LocoNetSlotServer)
    (i : Fin kNumSlots) :
    (∀ (stat : Byte) (loco : LocomotiveData) (m : LnMsg),
      loco.address.toNat < 2 ^ 14 → loco.velocity.toNat ≤ kMaxEngineVelocity →
      m = lnSlotDataRead (findSlotIndex i) stat loco
        ∨ m = lnSlotDataWrite (findSlotIndex i) stat loco →
      ∃ server', (process m).run server = .ok ((), server') ∧
        (server'.slot i).loco.address = loco.address ∧
        (server'.slot i).loco.uid = loco.address.setWidth 32 ∧
        (server'.slot i).loco.direction = loco.direction ∧
        (∀ f, f ≤ 8 → (server'.slot i).loco.getFunction f = loco.getFunction f) ∧
        (∀ f, 8 < f → (server'.slot i).loco.getFunction f = false) ∧
        (server'.slot i).loco.velocity
          = lnSpeedToCanVelocity (canVelocityToLnSpeed loco.velocity) ∧
        (∀ j, j ≠ i → server'.slot j = server.slot j) ∧
        lnSlotReadWriteMessage (findSlotIndex i) stat (server'.slot i).loco
          = lnSlotReadWriteMessage (findSlotIndex i) stat loco) ∧
    (∀ msg : RwSlotDataMsg, msg.slot.toNat = i →
      msg.spd < 128#8 → msg.dirf < 64#8 → msg.snd < 16#8 → msg.adr < 128#8 →
      ∃ server', (process (.slRdData msg)).run server = .ok ((), server') ∧
        lnSlotReadWriteMessage msg.slot msg.stat (server'.slot i).loco
          = { slot := msg.slot, stat := msg.stat, adr := msg.adr, spd := msg.spd,
              dirf := msg.dirf, adr2 := msg.adr2, snd := msg.snd }) := by
  refine ⟨?_, ?_⟩
  · intro stat loco m haddress hvelocity hm
    obtain ⟨server', hrun, hslot, hother⟩ :=
      process_slotData_run server (findSlotIndex_toNat i) hm
    have hloco := SlotEntry.slotRead_lnSlotReadWriteMessage (findSlotIndex i) stat haddress
      (server.slot i)
    have hmask : ∀ f, (0x1FF#32).getLsbD f = decide (f < 9) :=
      getLsbD_lowMask (show 9 ≤ 32 by decide)
    refine ⟨server', hrun, ?_, ?_, ?_, ?_, ?_, ?_, hother, ?_⟩
    · rw [hslot, hloco]
    · rw [hslot, hloco]
    · rw [hslot, hloco]
    · intro f hf
      rw [hslot, hloco]
      show (merge 0x1FF#32 loco.functions 0).getLsbD f = _
      rw [getLsbD_merge, hmask, decide_eq_true (Nat.lt_succ_of_le hf)]
      rfl
    · intro f hf
      rw [hslot, hloco]
      show (merge 0x1FF#32 loco.functions 0).getLsbD f = _
      rw [getLsbD_merge, hmask, decide_eq_false (by omega)]
      exact BitVec.getLsbD_zero
    · rw [hslot, hloco]
    -- The slot holds the rounded velocity, and rounding it again gives the same speed byte.
    · rw [hslot]
      exact lnSlotReadWriteMessage_slotRead (canVelocityToLnSpeed_lt hvelocity)
        (locoToDirf_lt loco) (locoToSnd_lt loco) (putLocoAddress_lt loco.address) _ _ _
  · intro msg hi hspd hdirf hsnd hadr
    refine ⟨_, processSlotRead_run server msg hi, ?_⟩
    rw [LocoNetSlotServer.slot_setSlot_self]
    exact lnSlotReadWriteMessage_slotRead hspd hdirf hsnd hadr _ _ _

/-- A reversing locomotive with address 16383 at full speed, into a used slot, and the highest
bytes that a message can hold. -/
theorem processSlotData_roundTrip_extremes :
    letI := AddressScheme.upperBits
    let server := ({ dataModel := {} } : LocoNetSlotServer).setSlot 126
      { inUse := true, loco := { uid := 5, functions := 0xFFFFFFFF } }
    let loco : LocomotiveData :=
      { address := 16383, velocity := 1000, direction := .reverse, functions := 0x155 }
    let msg : RwSlotDataMsg :=
      { slot := 126, stat := 0x33, adr := 127, spd := 127, dirf := 63, adr2 := 127, snd := 15 }
    (∃ server', (process (lnSlotDataWrite 126 0x33 loco)).run server = .ok ((), server') ∧
      (server'.slot 126).loco.address = 16383) ∧
    (∃ server', (process (.slRdData msg)).run server = .ok ((), server') ∧
      lnSlotReadWriteMessage 126 0x33 (server'.slot 126).loco = msg) := by
  let _ := AddressScheme.upperBits
  intro server loco msg
  obtain ⟨hencode, hdecode⟩ := processSlotData_roundTrip server 126
  refine ⟨?_, ?_⟩
  · obtain ⟨server', hrun, haddress, _⟩ :=
      hencode 0x33 loco _ (by decide) (by decide) (.inr rfl)
    exact ⟨server', hrun, haddress⟩
  · exact hdecode msg (by decide) (by decide) (by decide) (by decide) (by decide)

end C6021Light
