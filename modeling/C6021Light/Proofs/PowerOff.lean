import C6021Light.Proofs.AccessoryCodecs

/-!
# `C6021Light.Proofs.PowerOff`: which turnout a released button switches off

A keyboard sends a power-off message for a decoder, not for a turnout. The forwarder sends it
for the turnout that it remembers from the last power-on message. `expectedFrame` says what a
request should send after the requests `before` it: a power-off message has a frame only when
the last power-on message went to its decoder.

The forwarder remembers the last power-on message (`remembers_processI2CMessages`, an
induction on the requests). When the decoder does not match, the source prints a message and
returns `true` anyway, so an empty packet is sent. And at start-up the forwarder remembers
turnout 0, so a power-off message for the first decoder matches it. Either way there is a
frame: `powerOff_followsPowerOn_iff` says that the requests are forwarded as expected exactly
when no power-off message is without its power-on message.
-/

set_option autoImplicit false

namespace C6021Light

/-! ### The expected frames -/

/-- The request is for power on. -/
def AccessoryMsg.isPowerOn (msg : AccessoryMsg) : Bool := decide (msg.getPower ≠ 0)

/-- The most recent power-on message. -/
def lastPowerOn (requests : List AccessoryMsg) : Option AccessoryMsg :=
  (requests.filter AccessoryMsg.isPowerOn).getLast?

/-- The power-on message that a power-off message belongs to: the most recent one, when it
went to the same decoder. -/
def matchingPowerOn (before : List AccessoryMsg) (request : AccessoryMsg) :
    Option AccessoryMsg :=
  (lastPowerOn before).filter fun powerOn =>
    sameDecoder request.getInboundTurnoutAddr powerOn.getInboundTurnoutAddr

section

variable [TurnoutScheme]

/-- The frame for a request, when the requests in `before` came first. -/
def expectedFrame (dataModel : DataModel) (before : List AccessoryMsg) (request : AccessoryMsg) :
    Option CanFrame :=
  if request.isPowerOn then
    some (.accessorySwitch false
      (dataModel.turnoutPacket request.getInboundTurnoutAddr request.getDirection true))
  else
    (matchingPowerOn before request).map fun powerOn =>
      .accessorySwitch false
        (dataModel.turnoutPacket powerOn.getInboundTurnoutAddr powerOn.getDirection false)

/-- A request sends the expected frame on CAN and LocoNet, or nothing. -/
def I2COutput.IsExpected (dataModel : DataModel) (before : List AccessoryMsg)
    (request : AccessoryMsg) (output : I2COutput) : Prop :=
  output.can = (expectedFrame dataModel before request).toList ∧
    output.loconet
      = ((expectedFrame dataModel before request).bind LocoNetForwarder.forward).toList

omit [TurnoutScheme] in
/-- A power-on request is the most recent one. -/
theorem lastPowerOn_append_of_on (before : List AccessoryMsg) {request : AccessoryMsg}
    (hpower : request.isPowerOn = true) :
    lastPowerOn (before ++ [request]) = some request := by
  rw [lastPowerOn, List.filter_append, List.filter_cons_of_pos hpower, List.filter_nil,
    List.getLast?_concat]

omit [TurnoutScheme] in
/-- A power-off request leaves the most recent power-on as it was. -/
theorem lastPowerOn_append_of_off (before : List AccessoryMsg) {request : AccessoryMsg}
    (hpower : request.isPowerOn = false) :
    lastPowerOn (before ++ [request]) = lastPowerOn before := by
  rw [lastPowerOn, List.filter_append, List.filter_cons_of_neg (ne_true_of_eq_false hpower),
    List.filter_nil, List.append_nil, lastPowerOn]

/-! ### What the forwarder remembers -/

namespace I2CForwarder

/-- The forwarder has the configuration, and it has the most recent power-on message. -/
def Remembers (dataModel : DataModel) (before : List AccessoryMsg) (forwarder : I2CForwarder) :
    Prop :=
  forwarder.dataModel = dataModel ∧
    ∀ powerOn, lastPowerOn before = some powerOn →
      forwarder.lastPowerOnTurnoutAddr = powerOn.getInboundTurnoutAddr ∧
        forwarder.lastPowerOnDirection = powerOn.getDirection

omit [TurnoutScheme] in
/-- Before the first request there is nothing to remember. -/
theorem remembers_start (dataModel : DataModel) (direction : TurnoutDirection) :
    Remembers dataModel [] { dataModel := dataModel, lastPowerOnDirection := direction } :=
  ⟨rfl, fun powerOn h => by cases h⟩

/-- A power-off message goes to CAN for the remembered turnout, or as an empty packet. -/
theorem makeRR32CanMsg_of_powerOff (forwarder : I2CForwarder) {request : AccessoryMsg}
    (hpower : request.isPowerOn = false) :
    forwarder.makeRR32CanMsg request
      = (some (.accessorySwitch false
          (if sameDecoder request.getInboundTurnoutAddr forwarder.lastPowerOnTurnoutAddr then
            forwarder.dataModel.turnoutPacket forwarder.lastPowerOnTurnoutAddr
              forwarder.lastPowerOnDirection false
          else {})), forwarder) := by
  rw [makeRR32CanMsg, if_neg (of_decide_eq_false hpower)]
  split
  · rw [DataModel.turnoutPacket, ← hpower]
    rfl
  · rfl

/-- A request changes what is remembered exactly when it is a power-on message. -/
theorem remembers_makeRR32CanMsg {dataModel : DataModel} {before : List AccessoryMsg}
    {forwarder : I2CForwarder} (h : forwarder.Remembers dataModel before)
    (request : AccessoryMsg) :
    (forwarder.makeRR32CanMsg request).2.Remembers dataModel (before ++ [request]) := by
  cases hpower : request.isPowerOn with
  | false =>
      rw [makeRR32CanMsg_of_powerOff forwarder hpower]
      refine ⟨h.1, fun powerOn hlast => ?_⟩
      rw [lastPowerOn_append_of_off before hpower] at hlast
      exact h.2 powerOn hlast
  | true =>
      rw [makeRR32CanMsg_of_power forwarder (of_decide_eq_true hpower)]
      refine ⟨h.1, fun powerOn hlast => ?_⟩
      rw [lastPowerOn_append_of_on before hpower, Option.some.injEq] at hlast
      subst hlast
      exact ⟨rfl, rfl⟩

end I2CForwarder

/-! ### The requests one after the other -/

/-- The forwarder behind one round. -/
theorem processI2CMessage_snd (request : AccessoryMsg) (forwarder : I2CForwarder) :
    (processI2CMessage request forwarder).2 = (forwarder.makeRR32CanMsg request).2 := rfl

/-- The forwarder has the last power-on message of all requests. -/
theorem remembers_processI2CMessages {dataModel : DataModel} (requests : List AccessoryMsg)
    {before : List AccessoryMsg} {forwarder : I2CForwarder}
    (h : forwarder.Remembers dataModel before) :
    (processI2CMessages requests forwarder).2.Remembers dataModel (before ++ requests) := by
  induction requests generalizing before forwarder with
  | nil =>
      rw [List.append_nil]
      exact h
  | cons request requests ih =>
      have hround : (processI2CMessage request forwarder).2.Remembers dataModel
          (before ++ [request]) := by
        rw [processI2CMessage_snd]
        exact I2CForwarder.remembers_makeRR32CanMsg h request
      have hrest := ih hround
      rw [List.append_assoc] at hrest
      exact hrest

/-- The round of a request starts where the requests before it have ended. -/
theorem processI2CMessages_getElem? (before : List AccessoryMsg) (request : AccessoryMsg)
    (after : List AccessoryMsg) (forwarder : I2CForwarder) :
    (processI2CMessages (before ++ request :: after) forwarder).1[before.length]?
      = some (processI2CMessage request (processI2CMessages before forwarder).2).1 := by
  induction before generalizing forwarder with
  | nil => rfl
  | cons first before ih => exact ih (processI2CMessage first forwarder).2

/-- What a round sends on CAN and LocoNet. -/
theorem processI2CMessage_of_frame {request : AccessoryMsg} {forwarder : I2CForwarder}
    {frame : CanFrame} (h : (forwarder.makeRR32CanMsg request).1 = some frame) :
    (processI2CMessage request forwarder).1.can = [frame] ∧
      (processI2CMessage request forwarder).1.loconet
        = (LocoNetForwarder.forward frame).toList := by
  have hcan : (processI2CMessage request forwarder).1.can
      = (forwarder.makeRR32CanMsg request).1.toList := rfl
  have hloconet : (processI2CMessage request forwarder).1.loconet
      = ((forwarder.makeRR32CanMsg request).1.bind LocoNetForwarder.forward).toList := rfl
  rw [hcan, hloconet, h]
  exact ⟨rfl, rfl⟩

omit [TurnoutScheme] in
/-- The matching power-on is the most recent one, and it is for the same decoder. -/
theorem matchingPowerOn_eq_some_iff {before : List AccessoryMsg} {request powerOn : AccessoryMsg} :
    matchingPowerOn before request = some powerOn ↔
      lastPowerOn before = some powerOn ∧
        sameDecoder request.getInboundTurnoutAddr powerOn.getInboundTurnoutAddr = true :=
  Option.filter_eq_some_iff

/-- A request sends what is expected exactly when it is not a power-off message without its
power-on message. -/
theorem processI2CMessage_isExpected_iff {dataModel : DataModel} {before : List AccessoryMsg}
    {forwarder : I2CForwarder} (h : forwarder.Remembers dataModel before)
    (request : AccessoryMsg) :
    (processI2CMessage request forwarder).1.IsExpected dataModel before request ↔
      (request.isPowerOn = false → (matchingPowerOn before request).isSome = true) := by
  obtain ⟨hconfig, hlast⟩ := h
  cases hpower : request.isPowerOn with
  | true =>
      have hmake := forwarder.makeRR32CanMsg_of_power (of_decide_eq_true hpower)
      obtain ⟨hcan, hloconet⟩ := processI2CMessage_of_frame (congrArg Prod.fst hmake)
      refine iff_of_true ?_ (fun h => Bool.noConfusion h)
      rw [I2COutput.IsExpected, expectedFrame, if_pos hpower, hcan, hloconet, hconfig]
      exact ⟨rfl, rfl⟩
  | false =>
      have hmake := forwarder.makeRR32CanMsg_of_powerOff hpower
      obtain ⟨hcan, hloconet⟩ := processI2CMessage_of_frame (congrArg Prod.fst hmake)
      rw [I2COutput.IsExpected, expectedFrame, if_neg (ne_true_of_eq_false hpower), hcan, hloconet]
      cases hmatch : matchingPowerOn before request with
      | none =>
          -- A frame is sent, and none is expected.
          refine iff_of_false (fun hexpected => ?_) (fun h => Bool.noConfusion (h rfl))
          exact List.cons_ne_nil _ _ hexpected.1
      | some powerOn =>
          obtain ⟨hpowerOn, hdecoder⟩ := matchingPowerOn_eq_some_iff.mp hmatch
          obtain ⟨haddr, hdirection⟩ := hlast powerOn hpowerOn
          refine iff_of_true ?_ (fun _ => rfl)
          rw [haddr, hdirection, hconfig, if_pos hdecoder]
          exact ⟨rfl, rfl⟩

end

/-- From start-up every request sends what is expected exactly when every power-off message
follows a power-on message for its decoder, with no other power-on message in between. -/
theorem powerOff_followsPowerOn_iff [TurnoutScheme] (dataModel : DataModel)
    (direction : TurnoutDirection) (requests : List AccessoryMsg) :
    (∀ before request after, requests = before ++ request :: after →
      ∃ output, (processI2CMessages requests
          { dataModel := dataModel, lastPowerOnDirection := direction }).1[before.length]?
            = some output ∧
        output.IsExpected dataModel before request) ↔
      ∀ before request after, requests = before ++ request :: after →
        request.isPowerOn = false → (matchingPowerOn before request).isSome = true := by
  -- One request at a time: the state in front of it remembers the last power-on.
  refine forall₄_congr fun before request after hsplit => ?_
  have hremembers := remembers_processI2CMessages before
    (I2CForwarder.remembers_start dataModel direction)
  rw [List.nil_append] at hremembers
  rw [hsplit, processI2CMessages_getElem?, ← processI2CMessage_isExpected_iff hremembers request]
  exact ⟨fun ⟨output, houtput, hexpected⟩ => Option.some.inj houtput ▸ hexpected,
    fun hexpected => ⟨_, rfl, hexpected⟩⟩

/-- Turnout 0 is switched on, and then the button of another decoder is released: an empty
packet goes to CAN, and a request for turnout 0 to LocoNet. -/
theorem powerOff_wrongDecoder :
    letI := TurnoutScheme.upperBits
    let powerOn : AccessoryMsg := { destination := kCentralAddr, source := 0x20, data := 0x09 }
    let powerOff : AccessoryMsg := { destination := kCentralAddr, source := 0x22, data := 0 }
    let start : I2CForwarder := { dataModel := {}, lastPowerOnDirection := .red }
    matchingPowerOn [powerOn] powerOff = none ∧
      (processI2CMessages [powerOn, powerOff] start).1.map (·.can)
        = [[.accessorySwitch false { locid := 0x1000, direction := .green, power := true }],
            [.accessorySwitch false {}]] ∧
      (processI2CMessages [powerOn, powerOff] start).1.map (·.loconet)
        = [[.swReq { sw1 := 0, sw2 := 0x30 }], [.swReq { sw1 := 0, sw2 := 0 }]] ∧
      ∀ output, (processI2CMessages [powerOn, powerOff] start).1[1]? = some output →
        ¬ output.IsExpected {} [powerOn] powerOff := by
  let _ := TurnoutScheme.upperBits
  intro powerOn powerOff start
  have hnone : matchingPowerOn [powerOn] powerOff = none := by decide
  have hcan : (processI2CMessages [powerOn, powerOff] start).1[1]?.map (·.can)
      = some [.accessorySwitch false {}] := by decide
  refine ⟨hnone, by decide, by decide, fun output houtput hexpected => ?_⟩
  rw [houtput, Option.map_some, Option.some.injEq, hexpected.1] at hcan
  exact absurd hcan (by decide)

end C6021Light
