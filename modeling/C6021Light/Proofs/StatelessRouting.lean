import C6021Light.RoutingTask.LocoNetForwarder

/-!
# `C6021Light.Proofs.StatelessRouting`: turnouts, sensors and power between CAN and LocoNet

`forward` encodes a CAN frame as a LocoNet message and `makeRR32CanMsg` decodes one. The
address of a turnout or sensor is spread over two bytes, next to the flags. Both halves are
described here as numbers: what `putTurnoutAddress` and `lnSensor` keep of an address is its
remainder (`getTurnoutAddress_switchRequest`, `sensorAddress_sensorReport`).

From LocoNet to CAN and back nothing is lost (`stateless_roundTrip`). From CAN to LocoNet an
address of 16 bits goes into 11 bits for a turnout and 12 for a sensor, and no one asks
whether it fits. So a frame reads back as it was exactly when its address fits
(`forward_readsBack_iff`).
-/

set_option autoImplicit false

namespace C6021Light

open BitMask

/-! ### Fields of an address -/

/-- The `k` lowest bits of an address, in a byte. -/
theorem lowField_toNat {k : Nat} (hk : k ≤ 8) (address : TurnoutAddr) :
    ((address &&& BitVec.ofNat 16 (2 ^ k - 1)).setWidth 8).toNat = address.toNat % 2 ^ k := by
  have hpow : 2 ^ k ≤ 2 ^ 8 := Nat.pow_le_pow_right (by decide) hk
  have hlt : address.toNat % 2 ^ k < 2 ^ k := Nat.mod_lt _ (Nat.two_pow_pos k)
  rw [BitVec.toNat_setWidth, toNat_and_lowMask (by omega), Nat.mod_eq_of_lt (by omega)]

/-- The `k` bits from bit `lowest` on. -/
theorem field_toNat {k : Nat} (hk : k ≤ 8) (address : TurnoutAddr) (lowest : Nat) :
    (((address >>> lowest) &&& BitVec.ofNat 16 (2 ^ k - 1)).setWidth 8).toNat
      = address.toNat / 2 ^ lowest % 2 ^ k := by
  rw [lowField_toNat hk, BitVec.toNat_ushiftRight, Nat.shiftRight_eq_div_pow]

/-! ### Turnout addresses -/

/-- The flags of a switch request next to the four address bits of its second byte. -/
def switchByte (addrHigh : Byte) (direction : TurnoutDirection) (power : Bool) : Byte :=
  let sw2 := if power then addrHigh ||| opcSwReqOut else addrHigh
  if direction = .green then sw2 ||| opcSwReqDir else sw2

/-- The second byte has its three fields. -/
theorem switchByte_fields {addrHigh : Byte} (h : addrHigh < 16#8)
    (direction : TurnoutDirection) (power : Bool) :
    switchByte addrHigh direction power &&& 0x0F#8 = addrHigh ∧
      (switchByte addrHigh direction power &&& opcSwReqDir = 0 ↔ direction = .red) ∧
      (switchByte addrHigh direction power &&& opcSwReqOut ≠ 0 ↔ power = true) ∧
      switchByte addrHigh direction power < 64#8 := by
  revert addrHigh
  cases direction <;> cases power <;> decide

/-- And nothing else, when bits 6 and 7 are clear. -/
theorem switchByte_of_byte {sw2 : Byte} (h : sw2 < 64#8) :
    switchByte (sw2 &&& 0x0F#8) (if sw2 &&& opcSwReqDir = 0 then .red else .green)
      (decide (sw2 &&& opcSwReqOut ≠ 0)) = sw2 := by
  revert sw2
  decide

/-- The low four bits of a byte as a number. -/
theorem toNat_and_nibble (b : Byte) : (b &&& 0x0F#8).toNat = b.toNat % 16 :=
  toNat_and_lowMask (show 4 ≤ 8 by decide) b

/-- The address of a switch request as a number. -/
theorem getTurnoutAddress_toNat {srq : SwitchReqMsg} (h : srq.sw1 < 128#8) :
    (getTurnoutAddress srq).toNat = srq.sw2.toNat % 16 * 128 + srq.sw1.toNat := by
  have hsw1 : srq.sw1.toNat < 128 := BitVec.lt_def.mp h
  have hlow : (srq.sw1.setWidth 16).toNat = srq.sw1.toNat :=
    BitVec.toNat_setWidth_of_le (by decide)
  have hhigh : ((srq.sw2 &&& 0x0F#8).setWidth 16).toNat = srq.sw2.toNat % 16 := by
    rw [BitVec.toNat_setWidth_of_le (by decide), toNat_and_nibble]
  have hlt : srq.sw2.toNat % 16 < 16 := Nat.mod_lt _ (by decide)
  rw [getTurnoutAddress, toNat_shiftLeft_or (by omega) (by omega), hlow, hhigh]
  rfl

/-- The two address fields of a number: seven bits, and four bits above them. -/
theorem turnoutFields_toNat (addr : TurnoutAddr) :
    ((addr &&& 0x7F#16).setWidth 8).toNat = addr.toNat % 128 ∧
      (((addr >>> 7) &&& 0x0F#16).setWidth 8).toNat = addr.toNat / 128 % 16 :=
  ⟨lowField_toNat (show 7 ≤ 8 by decide) addr, field_toNat (show 4 ≤ 8 by decide) addr 7⟩

/-- The payload of `lnTurnout` for a numeric address. -/
def switchRequest (addr : TurnoutAddr) (direction : TurnoutDirection) (power : Bool) :
    SwitchReqMsg :=
  { sw1 := (addr &&& 0x7F#16).setWidth 8
    sw2 := switchByte (((addr >>> 7) &&& 0x0F#16).setWidth 8) direction power }

/-- The bytes of a turnout address are a switch request for its number. -/
theorem putTurnoutAddress_eq [TurnoutScheme] (address : TurnoutAddr)
    (direction : TurnoutDirection) (power : Bool) :
    putTurnoutAddress address direction power
      = switchRequest (TurnoutScheme.getNumericAddress address) direction power := rfl

/-- The four address bits of the second byte. -/
theorem turnoutHigh_lt (addr : TurnoutAddr) :
    ((addr >>> 7) &&& 0x0F#16).setWidth 8 < 16#8 := by
  rw [BitVec.lt_def, (turnoutFields_toNat addr).2]
  exact Nat.mod_lt _ (by decide)

/-- What is left of an address: its 11 lowest bits. -/
theorem getTurnoutAddress_switchRequest (addr : TurnoutAddr) (direction : TurnoutDirection)
    (power : Bool) :
    (getTurnoutAddress (switchRequest addr direction power)).toNat = addr.toNat % 2 ^ 11 := by
  obtain ⟨hlow, hhigh⟩ := turnoutFields_toNat addr
  have hfield := (switchByte_fields (turnoutHigh_lt addr) direction power).1
  have hsw1 : (switchRequest addr direction power).sw1.toNat = addr.toNat % 128 := hlow
  have hsw2 : (switchRequest addr direction power).sw2.toNat % 16 = addr.toNat / 128 % 16 := by
    rw [← toNat_and_nibble, ← hhigh]
    exact congrArg BitVec.toNat hfield
  have hlt : (switchRequest addr direction power).sw1 < 128#8 :=
    BitVec.lt_def.mpr (hsw1.trans_lt (Nat.mod_lt _ (by decide)))
  rw [getTurnoutAddress_toNat hlt, hsw2, hsw1]
  omega

/-- A switch request comes back from its address and flags. -/
theorem switchRequest_getTurnoutAddress {srq : SwitchReqMsg} (hsw1 : srq.sw1 < 128#8)
    (hsw2 : srq.sw2 < 64#8) :
    switchRequest (getTurnoutAddress srq)
      (if srq.sw2 &&& opcSwReqDir = 0 then .red else .green)
      (decide (srq.sw2 &&& opcSwReqOut ≠ 0)) = srq := by
  obtain ⟨hlow, hhigh⟩ := turnoutFields_toNat (getTurnoutAddress srq)
  rw [getTurnoutAddress_toNat hsw1] at hlow hhigh
  have hlt : srq.sw1.toNat < 128 := BitVec.lt_def.mp hsw1
  have hfirst : ((getTurnoutAddress srq &&& 0x7F#16).setWidth 8 : Byte) = srq.sw1 := by
    refine BitVec.eq_of_toNat_eq ?_
    rw [hlow]
    omega
  have hsecond : (((getTurnoutAddress srq >>> 7) &&& 0x0F#16).setWidth 8 : Byte)
      = srq.sw2 &&& 0x0F#8 := by
    refine BitVec.eq_of_toNat_eq ?_
    rw [hhigh, toNat_and_nibble]
    omega
  have hbyte := switchByte_of_byte hsw2
  rw [← hsecond] at hbyte
  exact congrArg₂ SwitchReqMsg.mk hfirst hbyte

/-! ### Sensor addresses -/

/-- The second byte of an input report. -/
def sensorByte (bit0 bits8to11 : Byte) (state : SensorState) : Byte :=
  let in2 := (bit0 <<< 5) ||| bits8to11
  if state = .closed then in2 ||| opcInputRepHi else in2

/-- Bit 4 of the second byte. -/
def SensorState.bit : SensorState → Nat
  | .opened => 0
  | .closed => 1

/-- The second byte of an input report as a number. -/
theorem sensorByte_toNat {bit0 : Byte} (h0 : bit0 < 2#8) {bits8to11 : Byte}
    (h8 : bits8to11 < 16#8) (state : SensorState) :
    (sensorByte bit0 bits8to11 state).toNat
      = bit0.toNat * 32 + state.bit * 16 + bits8to11.toNat := by
  have hbit0 : bit0.toNat < 2 := BitVec.lt_def.mp h0
  have hbits : bits8to11.toNat < 16 := BitVec.lt_def.mp h8
  cases state with
  | opened =>
      show ((bit0 <<< 5) ||| bits8to11).toNat = _
      rw [toNat_shiftLeft_or (by omega) (by omega)]
      rfl
  | closed =>
      -- The state bit is between the two fields.
      have hlow : ((1#8 <<< 4) ||| bits8to11).toNat = 16 + bits8to11.toNat :=
        toNat_shiftLeft_or (show bits8to11.toNat < 2 ^ 4 by omega) (by decide)
      show ((bit0 <<< 5 ||| bits8to11) ||| (1#8 <<< 4)).toNat = bit0.toNat * 32 + 16 + _
      rw [BitVec.or_assoc, BitVec.or_comm bits8to11,
        toNat_shiftLeft_or (by rw [hlow]; omega) (by omega), hlow]
      omega

/-- The sensor address that is read from an input report. -/
def sensorAddress (ir : InputRepMsg) : TurnoutAddr :=
  (ir.in1.setWidth 16 <<< 1 ||| ((ir.in2 &&& 0x0F#8).setWidth 16 <<< 8))
    ||| ((ir.in2 &&& 0x20#8).setWidth 16 >>> 5)

/-- Bit 5 of a byte as a number. -/
theorem toNat_bit5 (b : Byte) :
    ((b &&& 0x20#8).setWidth 16 >>> 5 : BitVec 16).toNat = b.toNat / 32 % 2 := by
  have hbit : (b &&& 0x20#8).toNat = b.toNat / 32 % 2 * 32 :=
    toNat_and_bit (show 5 < 8 by decide) b
  rw [BitVec.toNat_ushiftRight, BitVec.toNat_setWidth_of_le (by decide), hbit,
    Nat.shiftRight_eq_div_pow]
  omega

/-- Bit 4 of a byte. -/
theorem sensorBit_eq_zero_iff (b : Byte) :
    (b &&& 0x10#8) >>> 4 = 0 ↔ b.toNat / 16 % 2 = 0 := by
  have hbit : (b &&& 0x10#8).toNat = b.toNat / 16 % 2 * 16 :=
    toNat_and_bit (show 4 < 8 by decide) b
  rw [← BitVec.toNat_inj, BitVec.toNat_ushiftRight, hbit, Nat.shiftRight_eq_div_pow]
  show _ = 0 ↔ _
  omega

/-- The sensor address of an input report as a number. -/
theorem sensorAddress_toNat {ir : InputRepMsg} (h : ir.in1 < 128#8) :
    (sensorAddress ir).toNat
      = ir.in2.toNat % 16 * 2 ^ 8 + (ir.in1.toNat * 2 + ir.in2.toNat / 32 % 2) := by
  have hin1 : ir.in1.toNat < 128 := BitVec.lt_def.mp h
  have hmiddle : (ir.in1.setWidth 16).toNat = ir.in1.toNat :=
    BitVec.toNat_setWidth_of_le (by decide)
  have hhigh : ((ir.in2 &&& 0x0F#8).setWidth 16).toNat = ir.in2.toNat % 16 := by
    rw [BitVec.toNat_setWidth_of_le (by decide), toNat_and_nibble]
  have hbit := toNat_bit5 ir.in2
  -- The two low fields first, and the high one above them.
  have hlow : (ir.in1.setWidth 16 <<< 1 ||| ((ir.in2 &&& 0x20#8).setWidth 16 >>> 5)).toNat
      = ir.in1.toNat * 2 + ir.in2.toNat / 32 % 2 := by
    rw [toNat_shiftLeft_or (by omega) (by omega), hmiddle, hbit, Nat.pow_one]
  rw [sensorAddress, BitVec.or_comm (ir.in1.setWidth 16 <<< 1), BitVec.or_assoc,
    toNat_shiftLeft_or (by omega) (by omega), hlow, hhigh]

/-- The payload of `lnSensor`. -/
def sensorReport (address : TurnoutAddr) (state : SensorState) : InputRepMsg :=
  { in1 := ((address >>> 1) &&& 0x7F#16).setWidth 8
    in2 := sensorByte ((address &&& 1#16).setWidth 8)
      (((address >>> 8) &&& 0x0F#16).setWidth 8) state }

/-- `lnSensor` sends the input report of the address. -/
theorem lnSensor_eq (address : TurnoutAddr) (state : SensorState) :
    lnSensor address state = .inputRep (sensorReport address state) := rfl

/-- Its two bytes as numbers. -/
theorem sensorReport_toNat (address : TurnoutAddr) (state : SensorState) :
    (sensorReport address state).in1.toNat = address.toNat / 2 % 128 ∧
      (sensorReport address state).in2.toNat
        = address.toNat % 2 * 32 + state.bit * 16 + address.toNat / 256 % 16 := by
  have hbit0 : ((address &&& 1#16).setWidth 8 : Byte).toNat = address.toNat % 2 :=
    lowField_toNat (show 1 ≤ 8 by decide) address
  have hhigh : (((address >>> 8) &&& 0x0F#16).setWidth 8 : Byte).toNat
      = address.toNat / 256 % 16 := field_toNat (show 4 ≤ 8 by decide) address 8
  refine ⟨field_toNat (show 7 ≤ 8 by decide) address 1, ?_⟩
  have hbyte := sensorByte_toNat
    (BitVec.lt_def.mpr (hbit0.trans_lt (Nat.mod_lt _ (by decide))))
    (BitVec.lt_def.mpr (hhigh.trans_lt (Nat.mod_lt _ (by decide)))) state
  rw [hbit0, hhigh] at hbyte
  exact hbyte

/-- The three fields of a second byte, read back. -/
theorem sensorByte_split {bit0 state high : Nat} (h0 : bit0 < 2) (hstate : state < 2)
    (hhigh : high < 16) :
    (bit0 * 32 + state * 16 + high) % 16 = high ∧
      (bit0 * 32 + state * 16 + high) / 32 % 2 = bit0 ∧
      (bit0 * 32 + state * 16 + high) / 16 % 2 = state := by
  omega

/-- The three fields of a sensor address, read back. -/
theorem sensorAddress_split {high middle bit0 : Nat} (hhigh : high < 16) (hmiddle : middle < 128)
    (h0 : bit0 < 2) :
    (high * 2 ^ 8 + (middle * 2 + bit0)) / 256 % 16 = high ∧
      (high * 2 ^ 8 + (middle * 2 + bit0)) / 2 % 128 = middle ∧
      (high * 2 ^ 8 + (middle * 2 + bit0)) % 2 = bit0 := by
  omega

/-- The bit of a state is a bit. -/
theorem SensorState.bit_lt (state : SensorState) : state.bit < 2 := by
  cases state <;> decide

/-- What is left of a contact: its 12 lowest bits. -/
theorem sensorAddress_sensorReport (address : TurnoutAddr) (state : SensorState) :
    (sensorAddress (sensorReport address state)).toNat = address.toNat % 2 ^ 12 := by
  obtain ⟨hin1, hin2⟩ := sensorReport_toNat address state
  have hlt : (sensorReport address state).in1 < 128#8 :=
    BitVec.lt_def.mpr (hin1.trans_lt (Nat.mod_lt _ (by decide)))
  obtain ⟨hhigh, h0, _⟩ := sensorByte_split (Nat.mod_lt address.toNat (by decide))
    state.bit_lt (Nat.mod_lt (address.toNat / 256) (by decide))
  have hmiddle : address.toNat / 2 / 128 = address.toNat / 256 := Nat.div_div_eq_div_mul _ _ _
  have htop : address.toNat / 256 / 16 = address.toNat / 2 ^ 12 := Nat.div_div_eq_div_mul _ _ _
  rw [sensorAddress_toNat hlt, hin1, hin2, hhigh, h0]
  omega

/-- An input report comes back from its address and state. -/
theorem sensorReport_sensorAddress {ir : InputRepMsg} (hin1 : ir.in1 < 128#8)
    (hin2 : ir.in2 < 64#8) {state : SensorState} (hstate : state.bit = ir.in2.toNat / 16 % 2) :
    sensorReport (sensorAddress ir) state = ir := by
  obtain ⟨hfirst, hsecond⟩ := sensorReport_toNat (sensorAddress ir) state
  have hlt1 : ir.in1.toNat < 128 := BitVec.lt_def.mp hin1
  have hlt2 : ir.in2.toNat < 64 := BitVec.lt_def.mp hin2
  obtain ⟨hhigh, hmiddle, h0⟩ := sensorAddress_split (Nat.mod_lt ir.in2.toNat (by decide)) hlt1
    (Nat.mod_lt (ir.in2.toNat / 32) (by decide))
  rw [sensorAddress_toNat hin1] at hfirst hsecond
  rw [hmiddle] at hfirst
  rw [h0, hhigh, hstate] at hsecond
  have h1 : (sensorReport (sensorAddress ir) state).in1 = ir.in1 :=
    BitVec.eq_of_toNat_eq (by omega)
  have h2 : (sensorReport (sensorAddress ir) state).in2 = ir.in2 :=
    BitVec.eq_of_toNat_eq (by omega)
  exact congrArg₂ InputRepMsg.mk h1 h2

/-- The new state in a report. -/
def sensorState (ir : InputRepMsg) : SensorState :=
  if (ir.in2 &&& 0x10#8) >>> 4 = 0 then .opened else .closed

/-- The state of an input report is its bit 4. -/
theorem sensorState_bit (ir : InputRepMsg) :
    (sensorState ir).bit = ir.in2.toNat / 16 % 2 := by
  have hzero := sensorBit_eq_zero_iff ir.in2
  rw [sensorState]
  split
  · rename_i h
    exact (hzero.mp h).symm
  · rename_i h
    have hone : ir.in2.toNat / 16 % 2 ≠ 0 := fun h0 => h (hzero.mpr h0)
    show 1 = _
    omega

/-- The state of a report for a sensor is the sensor's. -/
theorem sensorState_sensorReport (address : TurnoutAddr) (state : SensorState) :
    sensorState (sensorReport address state) = state := by
  have hbit := sensorState_bit (sensorReport address state)
  have hsplit := (sensorByte_split (Nat.mod_lt address.toNat (by decide)) state.bit_lt
    (Nat.mod_lt (address.toNat / 256) (by decide))).2.2
  rw [(sensorReport_toNat address state).2, hsplit] at hbit
  revert hbit
  cases sensorState (sensorReport address state) <;> cases state <;> simp [SensorState.bit]

/-! ### Layout events -/

/-- What a frame reports of the layout: a turnout, or a contact with its new state. -/
inductive LayoutEvent
  | turnout (address : TurnoutAddr) (direction : TurnoutDirection) (power : Bool)
  | contact (contactId : TurnoutAddr) (newState : SensorState)
deriving DecidableEq, Repr

namespace LayoutEvent

/-- The LocoNet message with the event. -/
def toLnMsg : LayoutEvent → LnMsg
  | turnout address direction power => .swReq (switchRequest address direction power)
  | contact contactId newState => .inputRep (sensorReport contactId newState)

/-- LocoNet has 11 bits for the address of a turnout and 12 for a contact. -/
def FitsLocoNet : LayoutEvent → Prop
  | turnout address _ _ => address.toNat < 2 ^ 11
  | contact contactId _ => contactId.toNat < 2 ^ 12

/-- The event that is left on LocoNet. -/
def onLocoNet : LayoutEvent → LayoutEvent
  | turnout address direction power =>
      turnout (.ofNat 16 (address.toNat % 2 ^ 11)) direction power
  | contact contactId newState => contact (.ofNat 16 (contactId.toNat % 2 ^ 12)) newState

/-- The low bits of an address as a number. -/
theorem toNat_ofNat_mod (address : TurnoutAddr) {k : Nat} (hk : k ≤ 16) :
    (BitVec.ofNat 16 (address.toNat % 2 ^ k)).toNat = address.toNat % 2 ^ k := by
  have hlt : address.toNat % 2 ^ k < 2 ^ k := Nat.mod_lt _ (Nat.two_pow_pos k)
  have hpow : 2 ^ k ≤ 2 ^ 16 := Nat.pow_le_pow_right (by decide) hk
  rw [BitVec.toNat_ofNat, Nat.mod_eq_of_lt (by omega)]

/-- An address is its low bits exactly when it has no others. -/
theorem ofNat_mod_eq_iff (address : TurnoutAddr) {k : Nat} (hk : k ≤ 16) :
    BitVec.ofNat 16 (address.toNat % 2 ^ k) = address ↔ address.toNat < 2 ^ k := by
  rw [← BitVec.toNat_inj, toNat_ofNat_mod address hk]
  exact Nat.mod_eq_iff_lt (Nat.two_pow_pos k).ne'

/-- Nothing is lost exactly when the event fits. -/
theorem onLocoNet_eq_iff (event : LayoutEvent) : event.onLocoNet = event ↔ event.FitsLocoNet := by
  cases event with
  | turnout address direction power =>
      rw [onLocoNet, FitsLocoNet, ← ofNat_mod_eq_iff address (by decide)]
      simp only [turnout.injEq, and_true]
  | contact contactId newState =>
      rw [onLocoNet, FitsLocoNet, ← ofNat_mod_eq_iff contactId (by decide)]
      simp only [contact.injEq, and_true]

/-- What is left on LocoNet fits there. -/
theorem onLocoNet_fits (event : LayoutEvent) : event.onLocoNet.FitsLocoNet := by
  cases event with
  | turnout address direction power =>
      rw [onLocoNet, FitsLocoNet, toNat_ofNat_mod address (by decide)]
      exact Nat.mod_lt _ (by decide)
  | contact contactId newState =>
      rw [onLocoNet, FitsLocoNet, toNat_ofNat_mod contactId (by decide)]
      exact Nat.mod_lt _ (by decide)

end LayoutEvent

/-! ### Events of LocoNet messages -/

namespace LnMsg

/-- The event in a message. -/
def layoutEvent : LnMsg → Option LayoutEvent
  | swReq srq =>
      some (.turnout (getTurnoutAddress srq) (if srq.sw2 &&& opcSwReqDir = 0 then .red else .green)
        (decide (srq.sw2 &&& opcSwReqOut ≠ 0)))
  | inputRep ir => some (.contact (sensorAddress ir) (sensorState ir))
  | _ => none

/-- Bit 6 of a second argument byte has no meaning, and neither has an argument of a power
message. -/
def UnusedBitsClear : LnMsg → Prop
  | swReq srq => srq.sw2 &&& 0x40#8 = 0
  | inputRep ir => ir.in2 &&& 0x40#8 = 0
  | gpOn ir | gpOff ir => ir.in1 = 0 ∧ ir.in2 = 0
  | _ => True

end LnMsg

/-- The two argument bytes of a short message. -/
theorem sevenBit_pair_iff {x y : Byte} :
    (∀ b ∈ [x, y], b < 128#8) ↔ x < 128#8 ∧ y < 128#8 := by
  simp only [List.forall_mem_cons, List.not_mem_nil, false_implies, implies_true, and_true]

/-- A byte below 64 is a seven-bit byte with bit 6 clear. -/
theorem lt_sixtyFour_iff (b : Byte) : b < 64#8 ↔ b < 128#8 ∧ b &&& 0x40#8 = 0 := by
  have hbit : (b &&& 0x40#8).toNat = b.toNat / 64 % 2 * 64 :=
    toNat_and_bit (show 6 < 8 by decide) b
  rw [← BitVec.toNat_inj, hbit]
  show b.toNat < 64 ↔ b.toNat < 128 ∧ _ = 0
  omega

namespace LayoutEvent

/-- A message written for an event has only its own bits set. -/
theorem toLnMsg_wellFormed (event : LayoutEvent) :
    event.toLnMsg.SevenBit ∧ event.toLnMsg.UnusedBitsClear := by
  cases event with
  | turnout address direction power =>
      have hsw1 : (switchRequest address direction power).sw1 < 128#8 :=
        BitVec.lt_def.mpr ((turnoutFields_toNat address).1.trans_lt (Nat.mod_lt _ (by decide)))
      have hsw2 : (switchRequest address direction power).sw2 < 64#8 :=
        (switchByte_fields (turnoutHigh_lt address) direction power).2.2.2
      obtain ⟨hseven, hclear⟩ := (lt_sixtyFour_iff _).mp hsw2
      exact ⟨sevenBit_pair_iff.mpr ⟨hsw1, hseven⟩, hclear⟩
  | contact contactId newState =>
      obtain ⟨h1, h2⟩ := sensorReport_toNat contactId newState
      have hbit := newState.bit_lt
      have hin1 : (sensorReport contactId newState).in1 < 128#8 :=
        BitVec.lt_def.mpr (h1.trans_lt (Nat.mod_lt _ (by decide)))
      have hin2 : (sensorReport contactId newState).in2 < 64#8 := by
        rw [BitVec.lt_def, h2]
        show _ < 64
        omega
      obtain ⟨hseven, hclear⟩ := (lt_sixtyFour_iff _).mp hin2
      exact ⟨sevenBit_pair_iff.mpr ⟨hin1, hseven⟩, hclear⟩

/-- Reading after writing. -/
theorem layoutEvent_toLnMsg (event : LayoutEvent) :
    event.toLnMsg.layoutEvent = some event.onLocoNet := by
  cases event with
  | turnout address direction power =>
      obtain ⟨_, hred, hpower, _⟩ := switchByte_fields (turnoutHigh_lt address) direction power
      have haddr : getTurnoutAddress (switchRequest address direction power)
          = .ofNat 16 (address.toNat % 2 ^ 11) := by
        refine BitVec.eq_of_toNat_eq ?_
        rw [getTurnoutAddress_switchRequest, toNat_ofNat_mod address (by decide)]
      have hdirection : (if (switchRequest address direction power).sw2 &&& opcSwReqDir = 0 then
          TurnoutDirection.red else .green) = direction := by
        cases direction with
        | red => exact if_pos (hred.mpr rfl)
        | green => exact if_neg fun h => absurd (hred.mp h) (by decide)
      have hout : decide ((switchRequest address direction power).sw2 &&& opcSwReqOut ≠ 0)
          = power := by
        cases power with
        | true => exact decide_eq_true (hpower.mpr rfl)
        | false => exact decide_eq_false fun h => absurd (hpower.mp h) (by decide)
      rw [toLnMsg, LnMsg.layoutEvent, haddr, hdirection, hout, onLocoNet]
  | contact contactId newState =>
      have haddr : sensorAddress (sensorReport contactId newState)
          = .ofNat 16 (contactId.toNat % 2 ^ 12) := by
        refine BitVec.eq_of_toNat_eq ?_
        rw [sensorAddress_sensorReport, toNat_ofNat_mod contactId (by decide)]
      rw [toLnMsg, LnMsg.layoutEvent, haddr, sensorState_sensorReport, onLocoNet]

/-- Writing after reading. -/
theorem toLnMsg_of_layoutEvent {m : LnMsg} (hseven : m.SevenBit) (hclear : m.UnusedBitsClear)
    {event : LayoutEvent} (h : m.layoutEvent = some event) : event.toLnMsg = m := by
  cases m with
  | swReq srq =>
      obtain ⟨hsw1, hsw2⟩ := sevenBit_pair_iff.mp hseven
      cases h
      exact congrArg LnMsg.swReq
        (switchRequest_getTurnoutAddress hsw1 ((lt_sixtyFour_iff _).mpr ⟨hsw2, hclear⟩))
  | inputRep ir =>
      obtain ⟨hin1, hin2⟩ := sevenBit_pair_iff.mp hseven
      cases h
      exact congrArg LnMsg.inputRep (sensorReport_sensorAddress hin1
        ((lt_sixtyFour_iff _).mpr ⟨hin2, hclear⟩) (sensorState_bit ir))
  | _ => cases h

/-- Two events that leave the same on LocoNet have the same message. -/
theorem toLnMsg_onLocoNet (event : LayoutEvent) : event.onLocoNet.toLnMsg = event.toLnMsg :=
  toLnMsg_of_layoutEvent event.toLnMsg_wellFormed.1 event.toLnMsg_wellFormed.2
    event.layoutEvent_toLnMsg

end LayoutEvent

/-! ### Between CAN and LocoNet -/

section

variable [TurnoutScheme]

/-- The event of an accessory request or of an S88 response. -/
def CanFrame.layoutEvent : CanFrame → Option LayoutEvent
  | .accessorySwitch false packet =>
      some (.turnout (TurnoutScheme.getNumericAddress packet.locid) packet.direction packet.power)
  | .s88Event _ event =>
      if event.subtype = .response then some (.contact event.contactId event.newState) else none
  | _ => none

/-- An accessory request or S88 response goes to LocoNet as the message of its event. -/
theorem forward_of_layoutEvent {frame : CanFrame} {event : LayoutEvent}
    (h : frame.layoutEvent = some event) :
    LocoNetForwarder.forward frame = some event.toLnMsg := by
  cases frame with
  | accessorySwitch isResponse packet =>
      cases isResponse with
      | false =>
          cases h
          exact congrArg (fun srq => some (LnMsg.swReq srq))
            (putTurnoutAddress_eq packet.locid packet.direction packet.power)
      | true => cases h
  | s88Event isResponse s88 =>
      rw [CanFrame.layoutEvent] at h
      split at h
      · rename_i hsubtype
        cases h
        rw [LocoNetForwarder.forward, if_pos hsubtype, lnSensor_eq]
        rfl
      · cases h
  | systemCommand isResponse subcommand => cases h
  | other => cases h

/-- The frame of a message that names a turnout. -/
theorem makeRR32CanMsg_of_turnout (dataModel : DataModel) {m : LnMsg} {address : TurnoutAddr}
    {direction : TurnoutDirection} {power : Bool}
    (h : m.layoutEvent = some (.turnout address direction power)) :
    LocoNetForwarder.makeRR32CanMsg dataModel m
      = some (.accessorySwitch false
          { locid := TurnoutScheme.setProtocol address dataModel.accessoryRailProtocol
            direction := direction
            power := power }) := by
  cases m with
  | swReq srq =>
      cases h
      rfl
  | _ => cases h

variable (hnumeric : ∀ (address : TurnoutAddr) (railProtocol : RailProtocol),
  address.toNat < 2 ^ 11 →
    TurnoutScheme.getNumericAddress (TurnoutScheme.setProtocol address railProtocol) = address)
include hnumeric

/-- A message with an event goes to CAN as a frame with the same event. -/
theorem makeRR32CanMsg_of_layoutEvent (dataModel : DataModel) {m : LnMsg} (hseven : m.SevenBit)
    {event : LayoutEvent} (h : m.layoutEvent = some event) :
    ∃ frame, LocoNetForwarder.makeRR32CanMsg dataModel m = some frame ∧
      frame.layoutEvent = some event := by
  cases m with
  | swReq srq =>
      have hsw1 : srq.sw1.toNat < 128 := BitVec.lt_def.mp (sevenBit_pair_iff.mp hseven).1
      have hlt : (getTurnoutAddress srq).toNat < 2 ^ 11 := by
        rw [getTurnoutAddress_toNat (sevenBit_pair_iff.mp hseven).1]
        omega
      have haddr := hnumeric _ dataModel.accessoryRailProtocol hlt
      refine ⟨_, makeRR32CanMsg_of_turnout dataModel rfl, ?_⟩
      rw [← h]
      exact congrArg (fun addr => some (LayoutEvent.turnout addr _ _)) haddr
  | inputRep ir => exact ⟨_, rfl, h⟩
  | _ => cases h

/-- What is left of a frame behind LocoNet. -/
theorem makeRR32CanMsg_toLnMsg (dataModel : DataModel) (event : LayoutEvent) :
    ∃ frame, LocoNetForwarder.makeRR32CanMsg dataModel event.toLnMsg = some frame ∧
      frame.layoutEvent = some event.onLocoNet :=
  makeRR32CanMsg_of_layoutEvent hnumeric dataModel event.toLnMsg_wellFormed.1
    event.layoutEvent_toLnMsg

omit hnumeric

/-- A message is translated to a frame with the event, and `getTurnoutAddress` of a switch
request is the address of the turnout. -/
def ReadsBack (dataModel : DataModel) (m : LnMsg) (event : LayoutEvent) : Prop :=
  (∃ frame, LocoNetForwarder.makeRR32CanMsg dataModel m = some frame ∧
    frame.layoutEvent = some event) ∧
  ∀ srq, m = .swReq srq →
    ∃ direction power, event = .turnout (getTurnoutAddress srq) direction power

include hnumeric

/-- The message of an event reads back as what is left of it on LocoNet, and as nothing else. -/
theorem readsBack_toLnMsg_iff (dataModel : DataModel) (event event' : LayoutEvent) :
    ReadsBack dataModel event.toLnMsg event' ↔ event' = event.onLocoNet := by
  obtain ⟨frame, hmake, hevent⟩ := makeRR32CanMsg_toLnMsg hnumeric dataModel event
  refine ⟨?_, ?_⟩
  · rintro ⟨⟨frame', hmake', hevent'⟩, _⟩
    cases hmake.symm.trans hmake'
    exact Option.some.inj (hevent'.symm.trans hevent)
  · rintro rfl
    refine ⟨⟨frame, hmake, hevent⟩, fun srq hsrq => ?_⟩
    have hread := event.layoutEvent_toLnMsg
    rw [hsrq] at hread
    exact ⟨_, _, (Option.some.inj hread).symm⟩

end

/-- An accessory request or S88 response reads back from LocoNet as it was exactly when its
address fits. When it does not, its message is also the one of a turnout or contact that
fits. -/
theorem forward_readsBack_iff [TurnoutScheme]
    (hnumeric : ∀ (address : TurnoutAddr) (railProtocol : RailProtocol),
      address.toNat < 2 ^ 11 →
        TurnoutScheme.getNumericAddress (TurnoutScheme.setProtocol address railProtocol)
          = address)
    (dataModel : DataModel) {frame : CanFrame} {event : LayoutEvent}
    (hevent : frame.layoutEvent = some event) :
    ((∀ m, LocoNetForwarder.forward frame = some m → ReadsBack dataModel m event) ↔
        event.FitsLocoNet) ∧
      ((∀ frame' event', frame'.layoutEvent = some event' → event'.FitsLocoNet →
          LocoNetForwarder.forward frame' = LocoNetForwarder.forward frame →
            event' = event) ↔ event.FitsLocoNet) := by
  have hforward := forward_of_layoutEvent hevent
  refine ⟨?_, ?_, ?_⟩
  · rw [← event.onLocoNet_eq_iff, hforward, eq_comm,
      ← readsBack_toLnMsg_iff hnumeric dataModel]
    exact ⟨fun h => h _ rfl, fun h m hm => Option.some.inj hm ▸ h⟩
  · intro h
    -- The frame that comes back has the same message and fits.
    obtain ⟨frame', _, hevent'⟩ := makeRR32CanMsg_toLnMsg hnumeric dataModel event
    have hsame : LocoNetForwarder.forward frame' = LocoNetForwarder.forward frame := by
      rw [forward_of_layoutEvent hevent', hforward, event.toLnMsg_onLocoNet]
    have heq := h frame' _ hevent' event.onLocoNet_fits hsame
    exact heq ▸ event.onLocoNet_fits
  · intro hfits frame' event' hevent' hfits' hsame
    rw [forward_of_layoutEvent hevent', hforward, Option.some.injEq] at hsame
    have hread := event'.layoutEvent_toLnMsg
    rw [hsame, event.layoutEvent_toLnMsg, event.onLocoNet_eq_iff.mpr hfits,
      event'.onLocoNet_eq_iff.mpr hfits', Option.some.injEq] at hread
    exact hread.symm

/-- Contact 4096 and contact 0 have the same message, and it reads back as contact 0. -/
theorem contact4096_aliased :
    letI := TurnoutScheme.upperBits
    let far : S88Event := { subtype := .response, contactId := 4096, newState := .closed }
    let near : S88Event := { subtype := .response, contactId := 0, newState := .closed }
    ∃ m, LocoNetForwarder.forward (.s88Event true far) = some m ∧
      LocoNetForwarder.forward (.s88Event true near) = some m ∧
      (CanFrame.s88Event true far).layoutEvent = some (.contact 4096 .closed) ∧
      ¬ ReadsBack {} m (.contact 4096 .closed) := by
  let _ := TurnoutScheme.upperBits
  intro far near
  refine ⟨LayoutEvent.toLnMsg (.contact 4096 .closed), rfl, by decide, rfl, ?_⟩
  rw [readsBack_toLnMsg_iff TurnoutScheme.upperBits_getNumericAddress]
  decide

/-- Turnout 3, with the protocol 2 in the upper bits. -/
theorem turnout3_readsBack :
    letI := TurnoutScheme.upperBits
    let packet : TurnoutPacket := { locid := 0x1003, direction := .green, power := true }
    ∀ m, LocoNetForwarder.forward (.accessorySwitch false packet) = some m →
      ReadsBack {} m (.turnout 3 .green true) := by
  let _ := TurnoutScheme.upperBits
  have hfits : 3 < 2048 := by decide
  exact (forward_readsBack_iff TurnoutScheme.upperBits_getNumericAddress {} rfl).1.mpr hfits

/-! ### From LocoNet to CAN and back -/

/-- A message that goes to CAN without any state. -/
def LnMsg.isStateless : LnMsg → Bool
  | swReq _ | inputRep _ | gpOn _ | gpOff _ => true
  | _ => false

/-- A power message with zero arguments is the one that is built for its frame. -/
theorem InputRepMsg.eq_zero {ir : InputRepMsg} (h : ir.in1 = 0 ∧ ir.in2 = 0) :
    ({ in1 := 0, in2 := 0 } : InputRepMsg) = ir :=
  congrArg₂ InputRepMsg.mk h.1.symm h.2.symm

/-- A stateless LocoNet message comes back from CAN as it was, and no other message gets
there. -/
theorem stateless_roundTrip [TurnoutScheme]
    (hnumeric : ∀ (address : TurnoutAddr) (railProtocol : RailProtocol),
      address.toNat < 2 ^ 11 →
        TurnoutScheme.getNumericAddress (TurnoutScheme.setProtocol address railProtocol)
          = address)
    (dataModel : DataModel) (m : LnMsg) :
    (m.isStateless = true → m.SevenBit → m.UnusedBitsClear →
      ∃ frame, LocoNetForwarder.makeRR32CanMsg dataModel m = some frame ∧
        LocoNetForwarder.forward frame = some m) ∧
      (m.isStateless = false → LocoNetForwarder.makeRR32CanMsg dataModel m = none) := by
  -- A message of the layout becomes a frame, and the frame becomes the message that was left of it.
  have hlayout : ∀ event, m.layoutEvent = some event → m.SevenBit → m.UnusedBitsClear →
      ∃ frame, LocoNetForwarder.makeRR32CanMsg dataModel m = some frame ∧
        LocoNetForwarder.forward frame = some m := by
    intro event hevent hseven hclear
    obtain ⟨frame, hmake, hframe⟩ :=
      makeRR32CanMsg_of_layoutEvent hnumeric dataModel hseven hevent
    have hforward := forward_of_layoutEvent hframe
    rw [LayoutEvent.toLnMsg_of_layoutEvent hseven hclear hevent] at hforward
    exact ⟨frame, hmake, hforward⟩
  -- The power messages have only one content, and all other messages are not stateless.
  cases m with
  | swReq srq => exact ⟨fun _ => hlayout _ rfl, fun h => Bool.noConfusion h⟩
  | inputRep ir => exact ⟨fun _ => hlayout _ rfl, fun h => Bool.noConfusion h⟩
  | gpOn ir =>
      refine ⟨fun _ _ hclear => ⟨_, rfl, ?_⟩, fun h => Bool.noConfusion h⟩
      exact congrArg (fun ir => some (LnMsg.gpOn ir)) (InputRepMsg.eq_zero hclear)
  | gpOff ir =>
      refine ⟨fun _ _ hclear => ⟨_, rfl, ?_⟩, fun h => Bool.noConfusion h⟩
      exact congrArg (fun ir => some (LnMsg.gpOff ir)) (InputRepMsg.eq_zero hclear)
  | _ => exact ⟨fun h => Bool.noConfusion h, fun _ => rfl⟩

/-- A switch request for turnout 2047. -/
theorem turnout2047_roundTrip :
    letI := TurnoutScheme.upperBits
    let m : LnMsg := .swReq { sw1 := 0x7F, sw2 := 0x3F }
    ∃ frame, LocoNetForwarder.makeRR32CanMsg {} m = some frame ∧
      LocoNetForwarder.forward frame = some m := by
  let _ := TurnoutScheme.upperBits
  exact (stateless_roundTrip TurnoutScheme.upperBits_getNumericAddress {} _).1 rfl (by decide) rfl

end C6021Light
