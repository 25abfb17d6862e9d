import C6021Light.RR32Can.Frames

/-!
# `C6021Light.MarklinI2C.AccessoryMsg`: accessory messages of the keyboards

`MarklinI2C::Messages::AccessoryMsg` (`AccessoryMsg.h`, `AccessoryMsg.cpp`) and its constants
(`MarklinI2C/Constants.h`). A message is three bytes. Four bits of the turnout address are the
number of the keyboard, in the source byte of an inbound message and in the destination byte
of an outbound one. The other four bits are in the data byte, in two fields around the power
bit.
-/

set_option autoImplicit false

namespace C6021Light

/-- I2C address of the central. -/
abbrev kCentralAddr : Byte := 0x7F

/-- `kSenderAddrMask`. -/
abbrev kSenderAddrMask : Byte := 0b00011110

/-- `kDataDirMask`. -/
abbrev kDataDirMask : Byte := 0x01

/-- What stays of a data byte with the power bit clear. -/
abbrev kDataPowerConsistentMask : Byte := 0xF0

/-- `kDataPowerMask`. -/
abbrev kDataPowerMask : Byte := 0b00001000

/-- `kDataLowerAddrMask`. -/
abbrev kDataLowerAddrMask : Byte := 0b00000110

/-- `kDataUpperAddrMask`. -/
abbrev kDataUpperAddrMask : Byte := 0b00110000

/-- `AccessoryMsg`, three bytes. -/
structure AccessoryMsg where
  destination : Byte := 0
  source : Byte := 0
  data : Byte := 0
deriving DecidableEq, Repr

namespace AccessoryMsg

/-! ### Reading -/

/-- `getDirection`: a set bit means green. -/
def getDirection (msg : AccessoryMsg) : TurnoutDirection :=
  if msg.data &&& kDataDirMask = 0 then .red else .green

/-- `getPower`: 0 or 1. -/
def getPower (msg : AccessoryMsg) : Byte := (msg.data &&& kDataPowerMask) >>> 3

/-- `getInboundSender`: the keyboard of a message to the central. -/
def getInboundSender (msg : AccessoryMsg) : Byte := (msg.source &&& kSenderAddrMask) >>> 1

/-- `getOutboundDestination`: the keyboard of a message from the central. -/
def getOutboundDestination (msg : AccessoryMsg) : Byte :=
  (msg.destination &&& kSenderAddrMask) >>> 1

/-- `getDecoderOutput`: the number of the turnout within its keyboard. -/
def getDecoderOutput (msg : AccessoryMsg) : Byte :=
  let lowerBits := (msg.data &&& kDataLowerAddrMask) >>> 1
  let upperBits := (msg.data &&& kDataUpperAddrMask) >>> 2
  upperBits ||| lowerBits

/-- `getTurnoutAddr`. -/
def getTurnoutAddr (msg : AccessoryMsg) (keyboardAddr : Byte) : TurnoutAddr :=
  -- The source computes in a `uint8_t`.
  let addr := (keyboardAddr <<< 4) ||| msg.getDecoderOutput
  addr.setWidth 16

/-- `getInboundTurnoutAddr`. -/
def getInboundTurnoutAddr (msg : AccessoryMsg) : TurnoutAddr :=
  msg.getTurnoutAddr msg.getInboundSender

/-- `getOutboundTurnoutAddr`. -/
def getOutboundTurnoutAddr (msg : AccessoryMsg) : TurnoutAddr :=
  msg.getTurnoutAddr msg.getOutboundDestination

/-! ### Building -/

/-- `makeAddressField`. -/
def makeAddressField (address : TurnoutAddr) : Byte :=
  0x20 ||| ((address &&& (kSenderAddrMask <<< 3).setWidth 16) >>> 3).setWidth 8

/-- `makeDataField`. -/
def makeDataField (address : TurnoutAddr) (direction : TurnoutDirection) (power : Bool) : Byte :=
  let data : Byte := ((address &&& (kDataUpperAddrMask >>> 2).setWidth 16) <<< 2).setWidth 8
  let data := data ||| ((address &&& (kDataLowerAddrMask >>> 1).setWidth 16) <<< 1).setWidth 8
  let data := if power then data ||| kDataPowerMask else data
  if direction = .green then data ||| kDataDirMask else data

/-- Without power a message addresses the decoder: output and direction are cleared. -/
def makePowerConsistent (msg : AccessoryMsg) : AccessoryMsg :=
  if msg.data &&& kDataPowerMask = 0 then { msg with data := msg.data &&& kDataPowerConsistentMask }
  else msg

/-- `makeInbound`: from a keyboard to the central. -/
def makeInbound (address : TurnoutAddr) (direction : TurnoutDirection) (power : Bool) :
    AccessoryMsg :=
  makePowerConsistent
    { destination := kCentralAddr
      source := makeAddressField address
      data := makeDataField address direction power }

/-- `makeOutbound`: from the central to a keyboard. -/
def makeOutbound (address : TurnoutAddr) (direction : TurnoutDirection) (power : Bool) :
    AccessoryMsg :=
  makePowerConsistent
    { destination := makeAddressField address
      source := kCentralAddr
      data := makeDataField address direction power }

/-- `makeOutbound` of an inbound message: the response to it. -/
def makeOutboundResponse (inboundMsg : AccessoryMsg) : AccessoryMsg :=
  makeOutbound inboundMsg.getInboundTurnoutAddr inboundMsg.getDirection
    (decide (inboundMsg.getPower ≠ 0))

end AccessoryMsg

end C6021Light
