import C6021Light.MarklinI2C.AccessoryMsg
import C6021Light.RoutingTask.LocoNetForwarder

/-!
# `C6021Light.RoutingTask.I2CForwarder`: translations to and from the keyboards

The class `I2CForwarder` (`I2CForwarder.cpp`) and the loop of `RoutingTask::processI2CMessages`
(`RoutingTask.cpp`). A keyboard sends a message without output and direction when a button is
released, so the forwarder remembers the turnout that was powered on last.

`makeRR32CanMsg` gives the frame and the forwarder afterwards. `processI2CMessage` is one
round of the loop: what it sends on each bus.
-/

set_option autoImplicit false

namespace C6021Light

/-- The forwarder with the most recent power-on. -/
structure I2CForwarder where
  dataModel : DataModel
  lastPowerOnTurnoutAddr : TurnoutAddr := 0
  /-- The source does not initialize this member, so it may be either direction at start-up. -/
  lastPowerOnDirection : TurnoutDirection
deriving DecidableEq, Repr

/-- Two addresses are on the same decoder, if they match apart from the lowest two bits. -/
def sameDecoder (left right : TurnoutAddr) : Bool := left &&& 0xFC = right &&& 0xFC

/-- MM1 and MM2 match each other, and every protocol matches itself. -/
def isMatchingTurnoutRailProtocol (left right : RailProtocol) : Bool :=
  if left = .mm1 ∨ left = .mm2 then right = .mm1 ∨ right = .mm2 else left = right

/-- `hal::StopGoRequest`. -/
structure StopGoRequest where
  stopRequest : Bool := false
  goRequest : Bool := false
deriving DecidableEq, Repr

namespace I2CForwarder

variable [TurnoutScheme]

/-- `I2CForwarder::forward`: the message that it sends on I2C, if any. -/
def forward (forwarder : I2CForwarder) : CanFrame → Option AccessoryMsg
  | .accessorySwitch isResponse turnoutPacket =>
      if isResponse then
        if !isMatchingTurnoutRailProtocol turnoutPacket.getRailProtocol
            forwarder.dataModel.accessoryRailProtocol then none
        else
          let turnoutAddr := TurnoutScheme.getNumericAddress turnoutPacket.locid
          -- Larger addresses do not fit the bus.
          if turnoutAddr.toNat > 0xFF then none
          else some (.makeOutbound turnoutAddr turnoutPacket.direction turnoutPacket.power)
      else none
  | _ => none

/-- `I2CForwarder::MakeRR32CanMsg`. It returns `true` on every path, so there is always a
frame. -/
def makeRR32CanMsg (forwarder : I2CForwarder) (request : AccessoryMsg) :
    Option CanFrame × I2CForwarder :=
  let turnoutPacket := ({} : TurnoutPacket).initData
  if request.getPower ≠ 0 then
    let forwarder :=
      { forwarder with
          lastPowerOnDirection := request.getDirection
          lastPowerOnTurnoutAddr := request.getInboundTurnoutAddr }
    let protocolAddr := TurnoutScheme.setProtocol forwarder.lastPowerOnTurnoutAddr
      forwarder.dataModel.accessoryRailProtocol
    let turnoutPacket := (turnoutPacket.setLocid protocolAddr).setPower request.getPower
    (some (.accessorySwitch false (turnoutPacket.setDirection request.getDirection)), forwarder)
  else if sameDecoder request.getInboundTurnoutAddr forwarder.lastPowerOnTurnoutAddr then
    let protocolAddr := TurnoutScheme.setProtocol forwarder.lastPowerOnTurnoutAddr
      forwarder.dataModel.accessoryRailProtocol
    let turnoutPacket := (turnoutPacket.setLocid protocolAddr).setPower request.getPower
    (some (.accessorySwitch false (turnoutPacket.setDirection forwarder.lastPowerOnDirection)),
      forwarder)
  else
    -- The source prints that the decoder is the wrong one, and the packet stays empty.
    (some (.accessorySwitch false turnoutPacket), forwarder)

omit [TurnoutScheme] in
/-- `I2CForwarder::MakeRR32CanPowerMsg`. -/
def makeRR32CanPowerMsg (stopGoRequest : StopGoRequest) : Option CanFrame :=
  if stopGoRequest.stopRequest then some (.systemCommand false .systemStop)
  else if stopGoRequest.goRequest then some (.systemCommand false .systemGo)
  else none

omit [TurnoutScheme] in
/-- `I2CForwarder::sendI2CResponseIfEnabled`. -/
def sendI2CResponseIfEnabled (forwarder : I2CForwarder) (i2cMsg : AccessoryMsg) :
    List AccessoryMsg :=
  if forwarder.dataModel.generateI2CTurnoutResponse then [i2cMsg.makeOutboundResponse] else []

end I2CForwarder

/-! ### The loop of the routing task -/

/-- What one round sends on each bus. -/
structure I2COutput where
  can : List CanFrame := []
  loconet : List LnMsg := []
  i2c : List AccessoryMsg := []
deriving DecidableEq, Repr

variable [TurnoutScheme]

/-- One round of `RoutingTask::processI2CMessages`. -/
def processI2CMessage (request : AccessoryMsg) (forwarder : I2CForwarder) :
    I2COutput × I2CForwarder :=
  let (frame, forwarder) := forwarder.makeRR32CanMsg request
  ({ can := frame.toList
     loconet := (frame.bind LocoNetForwarder.forward).toList
     i2c := forwarder.sendI2CResponseIfEnabled request }, forwarder)

/-- The loop, for the messages received: what each round sends, and the forwarder at the
end. -/
def processI2CMessages :
    List AccessoryMsg → I2CForwarder → List I2COutput × I2CForwarder
  | [], forwarder => ([], forwarder)
  | request :: requests, forwarder =>
      let (output, forwarder) := processI2CMessage request forwarder
      let (outputs, forwarder) := processI2CMessages requests forwarder
      (output :: outputs, forwarder)

/-- `RoutingTask::processI2CStopGo`, for what `getStopGoRequest` returned. -/
def processI2CStopGo (stopGoRequest : StopGoRequest) : I2COutput :=
  let frame := I2CForwarder.makeRR32CanPowerMsg stopGoRequest
  { can := frame.toList
    loconet := (frame.bind LocoNetForwarder.forward).toList }

end C6021Light
