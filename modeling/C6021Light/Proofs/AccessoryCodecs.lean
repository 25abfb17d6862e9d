import C6021Light.RoutingTask.I2CForwarder
import C6021Light.Proofs.StatelessRouting

/-!
# `C6021Light.Proofs.AccessoryCodecs`: one turnout on three buses

A keyboard names a turnout by its own number and two fields of the data byte, LocoNet by 7
and 4 bits, and CAN by a word with the protocol. `accessoryCodecs_commute` says that a
power-on request of a keyboard keeps its turnout, direction and power on every way: over
LocoNet back to CAN, and as a response back to the keyboard.

The address of a message is `(keyboard <<< 4) ||| output` with two nibbles
(`getInboundSender_lt`, `outputOfData_lt`). The address field of a message reads the
first of them and the data field the second, so every lemma about a field is about one byte.
-/

set_option autoImplicit false

namespace C6021Light

open BitMask

namespace AccessoryMsg

/-! ### The two nibbles of an address -/

/-- A keyboard number has four bits. -/
theorem senderNibble_lt (b : Byte) : (b &&& kSenderAddrMask) >>> 1 < 16#8 := by
  have hle : (b &&& kSenderAddrMask).toNat ≤ 30 := toNat_and_le b _
  rw [BitVec.lt_def, BitVec.toNat_ushiftRight, Nat.shiftRight_eq_div_pow]
  show _ < 16
  omega

/-- So has the sender of a message to the central. -/
theorem getInboundSender_lt (msg : AccessoryMsg) : msg.getInboundSender < 16#8 :=
  senderNibble_lt msg.source

/-- The decoder output in a data byte. -/
def outputOfData (data : Byte) : Byte :=
  (data &&& kDataUpperAddrMask) >>> 2 ||| ((data &&& kDataLowerAddrMask) >>> 1)

/-- The decoder output depends on the data byte only. -/
theorem getDecoderOutput_eq (msg : AccessoryMsg) :
    msg.getDecoderOutput = outputOfData msg.data := rfl

/-- A decoder output has four bits. -/
theorem outputOfData_lt (data : Byte) : outputOfData data < 16#8 := by
  have hupper : (data &&& kDataUpperAddrMask).toNat ≤ 48 := toNat_and_le data _
  have hlower : (data &&& kDataLowerAddrMask).toNat ≤ 6 := toNat_and_le data _
  rw [BitVec.lt_def, outputOfData, BitVec.toNat_or, BitVec.toNat_ushiftRight,
    BitVec.toNat_ushiftRight, Nat.shiftRight_eq_div_pow, Nat.shiftRight_eq_div_pow]
  exact Nat.or_lt_two_pow (n := 4) (by omega) (by omega)

/-- Two nibbles as a number. -/
theorem nibbles_toNat {keyboard output : Byte} (hkeyboard : keyboard < 16#8)
    (houtput : output < 16#8) :
    ((keyboard <<< 4) ||| output).toNat = keyboard.toNat * 16 + output.toNat := by
  have hhigh : keyboard.toNat < 16 := BitVec.lt_def.mp hkeyboard
  have hlow : output.toNat < 16 := BitVec.lt_def.mp houtput
  exact toNat_shiftLeft_or (show output.toNat < 2 ^ 4 by omega)
    (show keyboard.toNat * 2 ^ 4 < 2 ^ 8 by omega)

/-- The high nibble is the keyboard. -/
theorem highNibble {keyboard output : Byte} (hkeyboard : keyboard < 16#8)
    (houtput : output < 16#8) : ((keyboard <<< 4) ||| output) >>> 4 = keyboard := by
  have hlow : output.toNat < 16 := BitVec.lt_def.mp houtput
  refine BitVec.eq_of_toNat_eq ?_
  rw [BitVec.toNat_ushiftRight, nibbles_toNat hkeyboard houtput, Nat.shiftRight_eq_div_pow]
  omega

/-- The low nibble is the decoder output. -/
theorem lowNibble {keyboard output : Byte} (hkeyboard : keyboard < 16#8)
    (houtput : output < 16#8) : ((keyboard <<< 4) ||| output) &&& 0x0F#8 = output := by
  have hlow : output.toNat < 16 := BitVec.lt_def.mp houtput
  refine BitVec.eq_of_toNat_eq ?_
  rw [toNat_and_nibble, nibbles_toNat hkeyboard houtput]
  omega

/-- The address field of a message has the keyboard. -/
theorem makeAddressField_of_nibbles {keyboard output : Byte} (hkeyboard : keyboard < 16#8)
    (houtput : output < 16#8) :
    makeAddressField (((keyboard <<< 4) ||| output).setWidth 16) = 0x20#8 ||| (keyboard <<< 1) := by
  have hbyte : ∀ b : Byte, makeAddressField (b.setWidth 16) = 0x20#8 ||| ((b >>> 4) <<< 1) := by
    decide
  rw [hbyte, highNibble hkeyboard houtput]

/-- The data field has the output. -/
theorem makeDataField_of_nibbles {keyboard output : Byte} (hkeyboard : keyboard < 16#8)
    (houtput : output < 16#8) (direction : TurnoutDirection) :
    makeDataField (((keyboard <<< 4) ||| output).setWidth 16) direction true
      = makeDataField (output.setWidth 16) direction true := by
  have hbyte : ∀ b : Byte, makeDataField (b.setWidth 16) direction true
      = makeDataField ((b &&& 0x0F#8).setWidth 16) direction true := by
    cases direction <;> decide
  rw [hbyte, lowNibble hkeyboard houtput]

/-! ### Responses -/

/-- The sender in the source byte of a keyboard. -/
theorem addressByte_sender {keyboard : Byte} (h : keyboard < 16#8) :
    ((0x20#8 ||| (keyboard <<< 1)) &&& kSenderAddrMask) >>> 1 = keyboard := by
  revert keyboard
  decide

/-- The data field of a power-on message, built again from what it says. -/
theorem makeDataField_of_data {data : Byte} (h : data &&& kDataPowerMask ≠ 0) :
    makeDataField ((outputOfData data).setWidth 16)
        (if data &&& kDataDirMask = 0 then .red else .green) true
      = data &&& 0x3F#8 := by
  revert data
  decide

/-- Masking the data byte keeps its power bit. -/
theorem power_of_masked (data : Byte) :
    data &&& 0x3F#8 &&& kDataPowerMask = data &&& kDataPowerMask := by
  rw [BitVec.and_assoc]
  rfl

/-- The power of a message is its power bit. -/
theorem getPower_ne_zero_iff (msg : AccessoryMsg) :
    msg.getPower ≠ 0 ↔ msg.data &&& kDataPowerMask ≠ 0 := by
  have hbit : (msg.data &&& kDataPowerMask).toNat = msg.data.toNat / 8 % 2 * 8 :=
    toNat_and_bit (show 3 < 8 by decide) msg.data
  rw [ne_eq, ne_eq, getPower, ← BitVec.toNat_inj, ← BitVec.toNat_inj, BitVec.toNat_ushiftRight,
    hbit, Nat.shiftRight_eq_div_pow]
  show ¬ _ = 0 ↔ ¬ _ = 0
  omega

/-- With power a message is consistent as it is. -/
theorem makePowerConsistent_of_power {msg : AccessoryMsg} (h : msg.getPower ≠ 0) :
    msg.makePowerConsistent = msg :=
  if_neg ((getPower_ne_zero_iff msg).mp h)

/-- The response to a power-on message goes to its keyboard with the same data. -/
theorem makeOutboundResponse_of_power {msg : AccessoryMsg} {keyboard : Byte}
    (hkeyboard : keyboard < 16#8) (hsource : msg.source = 0x20#8 ||| (keyboard <<< 1))
    (hpower : msg.getPower ≠ 0) :
    msg.makeOutboundResponse
      = { destination := msg.source, source := kCentralAddr, data := msg.data &&& 0x3F#8 } := by
  have hsender : msg.getInboundSender = keyboard := by
    rw [getInboundSender, hsource, addressByte_sender hkeyboard]
  have houtput : msg.getDecoderOutput < 16#8 := by
    rw [getDecoderOutput_eq]
    exact outputOfData_lt msg.data
  have hmask := (getPower_ne_zero_iff msg).mp hpower
  have haddress : makeAddressField msg.getInboundTurnoutAddr = msg.source := by
    rw [getInboundTurnoutAddr, getTurnoutAddr, hsender,
      makeAddressField_of_nibbles hkeyboard houtput, hsource]
  have hdata : makeDataField msg.getInboundTurnoutAddr msg.getDirection true
      = msg.data &&& 0x3F#8 := by
    rw [getInboundTurnoutAddr, getTurnoutAddr,
      makeDataField_of_nibbles (getInboundSender_lt msg) houtput]
    exact makeDataField_of_data hmask
  rw [makeOutboundResponse, makeOutbound, decide_eq_true hpower, haddress, hdata]
  refine makePowerConsistent_of_power ((getPower_ne_zero_iff _).mpr ?_)
  rw [power_of_masked]
  exact hmask

/-! ### Reading what was built -/

/-- Every address below 256 is a byte. -/
theorem exists_byte {address : TurnoutAddr} (h : address.toNat < 256) :
    ∃ b : Byte, b.setWidth 16 = address :=
  ⟨address.setWidth 8, BitVec.eq_of_toNat_eq (by
    rw [BitVec.toNat_setWidth, BitVec.toNat_setWidth, Nat.mod_eq_of_lt h,
      Nat.mod_eq_of_lt address.isLt])⟩

/-- What is left of an address: the decoder without power. -/
def readAddress (address : TurnoutAddr) (power : Bool) : TurnoutAddr :=
  if power then address else address &&& 0xFFFC#16

/-- The address of a message to the central reads back, without power as its decoder's. -/
theorem makeInbound_getInboundTurnoutAddr {address : TurnoutAddr} (h : address.toNat < 256)
    (direction : TurnoutDirection) (power : Bool) :
    (makeInbound address direction power).getInboundTurnoutAddr = readAddress address power := by
  obtain ⟨b, rfl⟩ := exists_byte h
  clear h
  revert b
  cases direction <;> cases power <;> decide

/-- So does the address of a message from the central. -/
theorem makeOutbound_getOutboundTurnoutAddr {address : TurnoutAddr} (h : address.toNat < 256)
    (direction : TurnoutDirection) (power : Bool) :
    (makeOutbound address direction power).getOutboundTurnoutAddr = readAddress address power := by
  rw [← makeInbound_getInboundTurnoutAddr h direction power, makeOutbound, makeInbound,
    makePowerConsistent, makePowerConsistent]
  split <;> rfl

/-- A message and its response have the same data. -/
theorem makeOutbound_data (address : TurnoutAddr) (direction : TurnoutDirection) (power : Bool) :
    (makeOutbound address direction power).data = (makeInbound address direction power).data := by
  rw [makeOutbound, makeInbound, makePowerConsistent, makePowerConsistent]
  split <;> rfl

/-- The direction of a message to the central reads back. -/
theorem makeInbound_getDirection {address : TurnoutAddr} (h : address.toNat < 256)
    (direction : TurnoutDirection) :
    (makeInbound address direction true).getDirection = direction := by
  obtain ⟨b, rfl⟩ := exists_byte h
  clear h
  revert b
  cases direction <;> decide

/-- So does the direction of a message from the central. -/
theorem makeOutbound_getDirection {address : TurnoutAddr} (h : address.toNat < 256)
    (direction : TurnoutDirection) :
    (makeOutbound address direction true).getDirection = direction := by
  rw [getDirection, makeOutbound_data]
  exact makeInbound_getDirection h direction

/-- An address of a message is a byte. -/
theorem getInboundTurnoutAddr_lt (msg : AccessoryMsg) : msg.getInboundTurnoutAddr.toNat < 256 := by
  rw [getInboundTurnoutAddr, getTurnoutAddr, BitVec.toNat_setWidth_of_le (by decide)]
  exact BitVec.isLt _

end AccessoryMsg

/-! ### The three ways of a request -/

section

variable [TurnoutScheme]

/-- The packet for a turnout with the configured protocol. -/
def DataModel.turnoutPacket (dataModel : DataModel) (address : TurnoutAddr)
    (direction : TurnoutDirection) (power : Bool) : TurnoutPacket :=
  { locid := TurnoutScheme.setProtocol address dataModel.accessoryRailProtocol
    direction := direction
    power := power }

/-- A power-on message goes to CAN with its own turnout and direction. -/
theorem I2CForwarder.makeRR32CanMsg_of_power (forwarder : I2CForwarder) {request : AccessoryMsg}
    (hpower : request.getPower ≠ 0) :
    forwarder.makeRR32CanMsg request
      = (some (.accessorySwitch false (forwarder.dataModel.turnoutPacket
          request.getInboundTurnoutAddr request.getDirection true)),
        { forwarder with
            lastPowerOnDirection := request.getDirection
            lastPowerOnTurnoutAddr := request.getInboundTurnoutAddr }) := by
  rw [I2CForwarder.makeRR32CanMsg, if_pos hpower, DataModel.turnoutPacket,
    ← decide_eq_true hpower]
  rfl

omit [TurnoutScheme] in
/-- A protocol matches itself. -/
theorem isMatchingTurnoutRailProtocol_self (railProtocol : RailProtocol) :
    isMatchingTurnoutRailProtocol railProtocol railProtocol = true := by
  cases railProtocol <;> rfl

/-- A turnout that fits LocoNet comes back from there. -/
theorem turnoutPacket_roundTrip
    (hnumeric : ∀ (address : TurnoutAddr) (railProtocol : RailProtocol),
      address.toNat < 2 ^ 11 →
        TurnoutScheme.getNumericAddress (TurnoutScheme.setProtocol address railProtocol)
          = address)
    (dataModel : DataModel) {address : TurnoutAddr} (h : address.toNat < 2 ^ 11)
    (direction : TurnoutDirection) (power : Bool) :
    (LocoNetForwarder.forward
        (.accessorySwitch false (dataModel.turnoutPacket address direction power))).bind
        (LocoNetForwarder.makeRR32CanMsg dataModel)
      = some (.accessorySwitch false (dataModel.turnoutPacket address direction power)) := by
  have hevent : (CanFrame.accessorySwitch false
      (dataModel.turnoutPacket address direction power)).layoutEvent
        = some (.turnout address direction power) :=
    congrArg (fun addr => some (LayoutEvent.turnout addr direction power)) (hnumeric address _ h)
  have hread := (LayoutEvent.turnout address direction power).layoutEvent_toLnMsg
  rw [(LayoutEvent.turnout address direction power).onLocoNet_eq_iff.mpr h] at hread
  rw [forward_of_layoutEvent hevent]
  exact makeRR32CanMsg_of_turnout dataModel hread

/-- The confirmation of a turnout that fits the bus goes back to its keyboard. -/
theorem I2CForwarder.forward_of_turnoutPacket
    (hnumeric : ∀ (address : TurnoutAddr) (railProtocol : RailProtocol),
      address.toNat < 2 ^ 11 →
        TurnoutScheme.getNumericAddress (TurnoutScheme.setProtocol address railProtocol)
          = address)
    (hprotocol : ∀ (address : TurnoutAddr) (railProtocol : RailProtocol),
      address.toNat < 2 ^ 11 →
        TurnoutScheme.getRailProtocol (TurnoutScheme.setProtocol address railProtocol)
          = railProtocol)
    (forwarder : I2CForwarder) {address : TurnoutAddr} (h : address.toNat < 256)
    (direction : TurnoutDirection) (power : Bool) :
    forwarder.forward
        (.accessorySwitch true (forwarder.dataModel.turnoutPacket address direction power))
      = some (.makeOutbound address direction power) := by
  have hfits : address.toNat < 2 ^ 11 := h.trans (by decide)
  have hmatch : isMatchingTurnoutRailProtocol
      (forwarder.dataModel.turnoutPacket address direction power).getRailProtocol
      forwarder.dataModel.accessoryRailProtocol = true := by
    rw [TurnoutPacket.getRailProtocol, DataModel.turnoutPacket, hprotocol address _ hfits]
    exact isMatchingTurnoutRailProtocol_self _
  have haddr : TurnoutScheme.getNumericAddress
      (forwarder.dataModel.turnoutPacket address direction power).locid = address :=
    hnumeric address _ hfits
  have hlarge : ¬ address.toNat > 0xFF := by omega
  simp only [I2CForwarder.forward, hmatch, haddr, hlarge]
  rfl

end

/-- A power-on request of a keyboard keeps its turnout on LocoNet and in the response, and
the messages that the code builds for a turnout name it. -/
theorem accessoryCodecs_commute [TurnoutScheme]
    (hnumeric : ∀ (address : TurnoutAddr) (railProtocol : RailProtocol),
      address.toNat < 2 ^ 11 →
        TurnoutScheme.getNumericAddress (TurnoutScheme.setProtocol address railProtocol)
          = address)
    (hprotocol : ∀ (address : TurnoutAddr) (railProtocol : RailProtocol),
      address.toNat < 2 ^ 11 →
        TurnoutScheme.getRailProtocol (TurnoutScheme.setProtocol address railProtocol)
          = railProtocol) :
    (∀ (forwarder : I2CForwarder) (request : AccessoryMsg) (keyboard : Byte),
      keyboard < 16#8 → request.source = 0x20#8 ||| (keyboard <<< 1) → request.getPower ≠ 0 →
        ∃ packet, (forwarder.makeRR32CanMsg request).1 = some (.accessorySwitch false packet) ∧
          (LocoNetForwarder.forward (.accessorySwitch false packet)).bind
              (LocoNetForwarder.makeRR32CanMsg forwarder.dataModel)
            = some (.accessorySwitch false packet) ∧
          ∀ sender : I2CForwarder, sender.dataModel = forwarder.dataModel →
            ∃ response, sender.forward (.accessorySwitch true packet) = some response ∧
              response = request.makeOutboundResponse ∧
              response.destination = request.source ∧
              response.data = request.data &&& 0x3F#8) ∧
      ∀ (address : TurnoutAddr) (direction : TurnoutDirection), address.toNat < 256 →
        let inbound := AccessoryMsg.makeInbound address direction
        let outbound := AccessoryMsg.makeOutbound address direction
        ((inbound true).getInboundTurnoutAddr = address ∧
          (inbound true).getDirection = direction ∧
          (inbound false).getInboundTurnoutAddr = address &&& 0xFFFC#16) ∧
        (outbound true).getOutboundTurnoutAddr = address ∧
          (outbound true).getDirection = direction ∧
          (outbound false).getOutboundTurnoutAddr = address &&& 0xFFFC#16 := by
  refine ⟨?_, ?_⟩
  -- A power-on request: to CAN, to LocoNet and back, and to the keyboard as a response.
  · intro forwarder request keyboard hkeyboard hsource hpower
    have haddr := request.getInboundTurnoutAddr_lt
    refine ⟨_, congrArg Prod.fst (forwarder.makeRR32CanMsg_of_power hpower),
      turnoutPacket_roundTrip hnumeric forwarder.dataModel (haddr.trans (by decide))
        request.getDirection true, fun sender hsender => ?_⟩
    have hforward := sender.forward_of_turnoutPacket hnumeric hprotocol haddr
      request.getDirection true
    rw [hsender] at hforward
    -- The response is the message for the turnout, built from the same address and direction.
    have hresponse : AccessoryMsg.makeOutbound request.getInboundTurnoutAddr request.getDirection
        true = request.makeOutboundResponse := by
      rw [AccessoryMsg.makeOutboundResponse, decide_eq_true hpower]
    have hfields := AccessoryMsg.makeOutboundResponse_of_power hkeyboard hsource hpower
    refine ⟨_, hforward, hresponse, ?_, ?_⟩
    · rw [hresponse, hfields]
    · rw [hresponse, hfields]
  -- A turnout of a keyboard: both codecs name it, and without power only its decoder.
  · intro address direction h inbound outbound
    exact ⟨⟨AccessoryMsg.makeInbound_getInboundTurnoutAddr h direction true,
        AccessoryMsg.makeInbound_getDirection h direction,
        AccessoryMsg.makeInbound_getInboundTurnoutAddr h direction false⟩,
      AccessoryMsg.makeOutbound_getOutboundTurnoutAddr h direction true,
      AccessoryMsg.makeOutbound_getDirection h direction,
      AccessoryMsg.makeOutbound_getOutboundTurnoutAddr h direction false⟩

/-- The green button of the fourth turnout on keyboard 2. -/
theorem accessoryCodecs_keyboard2 :
    letI := TurnoutScheme.upperBits
    let request : AccessoryMsg := { destination := kCentralAddr, source := 0x24, data := 0x0F }
    let forwarder : I2CForwarder := { dataModel := {}, lastPowerOnDirection := .red }
    ∃ packet, (forwarder.makeRR32CanMsg request).1 = some (.accessorySwitch false packet) ∧
      packet.locid = 0x1023 ∧
      forwarder.forward (.accessorySwitch true packet)
        = some { destination := 0x24, source := kCentralAddr, data := 0x0F } := by
  let _ := TurnoutScheme.upperBits
  intro request forwarder
  obtain ⟨packet, hmake, _, hresponse⟩ :=
    (accessoryCodecs_commute TurnoutScheme.upperBits_getNumericAddress
      TurnoutScheme.upperBits_getRailProtocol).1 forwarder request 2 (by decide) (by decide)
      (by decide)
  obtain ⟨response, hforward, heq, _, _⟩ := hresponse forwarder rfl
  have hpacket : some (CanFrame.accessorySwitch false packet)
      = some (.accessorySwitch false { locid := 0x1023, direction := .green, power := true }) :=
    hmake.symm.trans (by decide)
  refine ⟨packet, hmake, ?_, ?_⟩
  · rw [Option.some.injEq, CanFrame.accessorySwitch.injEq] at hpacket
    rw [hpacket.2]
  · rw [hforward, heq]
    decide

/-! ### The stop and go buttons -/

/-- What the buttons send on LocoNet reads back as the frame that they send on CAN. A press of both
is a stop, and without a press nothing is sent. -/
theorem processI2CStopGo_readsBack [TurnoutScheme] (dataModel : DataModel)
    (stopGoRequest : StopGoRequest) :
    (processI2CStopGo stopGoRequest).loconet.filterMap
        (LocoNetForwarder.makeRR32CanMsg dataModel)
      = (processI2CStopGo stopGoRequest).can := by
  obtain ⟨stopRequest, goRequest⟩ := stopGoRequest
  cases stopRequest <;> cases goRequest <;> rfl

end C6021Light
