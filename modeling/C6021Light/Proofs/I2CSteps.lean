import C6021Light.Hal.Stm32I2C

/-!
# `C6021Light.Proofs.I2CSteps`: what a step of the I2C driver can do

`Branch` lists the branches of `I2CDriver.step`, each with the flags that lead to it. Every step
is one of them (`branch_step`), so an invariant needs one case for each.

`startTx` does one of three things: nothing when the control block is claimed, nothing when the
queue is empty, and a claim of the oldest message otherwise.
-/

set_option autoImplicit false

namespace C6021Light.I2CDriver

variable {i2c : I2CDriver} {busy : Bool} {queued : QueuedMessage}

/-! ### `startTx` -/

/-- The transmission in progress goes on. -/
theorem startTx_of_occupied (h : i2c.txControl.bufferOccupied = true) :
    i2c.startTx busy = i2c := by
  simp only [startTx, TransmissionControlBlock.tryClaim, h, if_true, Bool.false_eq_true, if_false]

/-- Without a message nothing is started, and the claim is given back. -/
theorem startTx_of_empty (hfree : i2c.txControl.bufferOccupied = false)
    (hpeek : i2c.i2cTxQueue.peek = none) :
    i2c.startTx busy = { i2c with txControl := {} } := by
  simp only [startTx, TransmissionControlBlock.tryClaim, hfree, hpeek, Bool.false_eq_true,
    if_false, if_true, Option.isSome_none]
  rfl

/-- The oldest message is claimed, and its transmission starts. -/
theorem startTx_of_peek (hfree : i2c.txControl.bufferOccupied = false)
    (hpeek : i2c.i2cTxQueue.peek = some queued) :
    i2c.startTx busy
      = { i2c with txControl := ⟨some queued, 0, true⟩ }.resumeTx busy := by
  simp only [startTx, TransmissionControlBlock.tryClaim, hfree, hpeek, Bool.false_eq_true,
    if_false, if_true, Option.isSome_some]

/-! ### Before `startTx` -/

/-- `sendI2CMessage` up to the point where it looks for a message to send. -/
def offered (i2c : I2CDriver) (msg : AccessoryMsg) : I2CDriver :=
  let message : QueuedMessage := { serial := i2c.accepted.length, message := msg }
  { i2c with
    i2cTxQueue := (i2c.i2cTxQueue.offer message).2
    accepted :=
      if (i2c.i2cTxQueue.offer message).1 then i2c.accepted ++ [message] else i2c.accepted }

/-- `sendI2CMessage` queues the message and looks for one to send. -/
theorem sendI2CMessage_eq (i2c : I2CDriver) (msg : AccessoryMsg) (busy : Bool) :
    i2c.sendI2CMessage msg busy = (i2c.offered msg).startTx busy := rfl

/-- There is a message in the queue then, the new one or one that fills it. -/
theorem exists_peek_offered (i2c : I2CDriver) (msg : AccessoryMsg) :
    ∃ queued, (i2c.offered msg).i2cTxQueue.peek = some queued :=
  Option.ne_none_iff_exists'.mp fun h =>
    i2c.i2cTxQueue.items_offer_ne_nil _ (by decide) (List.head?_eq_none_iff.mp h)

/-- `finishTx` up to the point where it looks for the next message. -/
def afterConsume (i2c : I2CDriver) : I2CDriver :=
  { i2c with
    i2cTxQueue := i2c.i2cTxQueue.consume i2c.txControl.msgMemory
    actions := i2c.actions ++ (i2c.txControl.msgMemory.map I2CAction.consume).toList
      ++ [.sendStop]
    txControl := i2c.txControl.release
    txInProgress := false }

/-- `finishTx` consumes the message and looks for the next one. -/
theorem finishTx_eq (i2c : I2CDriver) (busy : Bool) :
    i2c.finishTx busy = i2c.afterConsume.startTx busy := rfl

/-- The end of a reception, up to the point where it looks for a message to send. -/
def received (i2c : I2CDriver) (rxControl : TransmissionControlBlock AccessoryMsg)
    (i2cRxQueue : BoundedFifo AccessoryMsg kI2CQueueSize) : I2CDriver :=
  { i2c with
    rxInProgress := false
    rxControl := rxControl
    i2cRxQueue := i2cRxQueue }

/-- A reception changes the transmit side only when it starts a transmission. -/
theorem endReception_eq (i2c : I2CDriver) (busy : Bool) :
    ∃ rxControl i2cRxQueue, i2c.endReception busy
      = if i2c.rxControl.messageValid then
          (i2c.received rxControl i2cRxQueue).startTxFromISR busy
        else i2c.received rxControl i2cRxQueue := by
  rw [endReception, forwardRx]
  split
  · cases i2c.rxControl.msgMemory with
    | none => exact ⟨_, _, rfl⟩
    | some message => exact ⟨_, _, rfl⟩
  · exact ⟨i2c.rxControl, i2c.i2cRxQueue, rfl⟩

/-- A received byte changes the receive block only. -/
theorem handleReceiveNotEmpty_eq (i2c : I2CDriver) (data : Byte) :
    ∃ rxControl, i2c.handleReceiveNotEmpty data = { i2c with rxControl := rxControl } := by
  rw [handleReceiveNotEmpty]
  split
  · split
    · exact ⟨_, rfl⟩
    · exact ⟨i2c.rxControl, rfl⟩
  · exact ⟨i2c.rxControl, rfl⟩

/-! ### Branches -/

/-- The branches of a step. -/
inductive Branch (i2c : I2CDriver) : I2CEvent → I2CDriver → Prop
  | sendI2CMessage (msg : AccessoryMsg) (busy : Bool) :
      Branch i2c (.sendI2CMessage msg busy) (i2c.sendI2CMessage msg busy)
  | freeI2CRXMessage : Branch i2c .freeI2CRXMessage i2c.freeI2CRXMessage
  | startBit {status : StatusRegisters} {data : Byte} {busy : Bool} (hsb : status.sb = true) :
      Branch i2c (.i2c1EvIsr status data busy) i2c.handleStartBit
  | addressMatched {status : StatusRegisters} {data : Byte} {busy : Bool}
      (hsb : status.sb = false) (haddr : status.addr = true) (hmsl : status.msl = false) :
      Branch i2c (.i2c1EvIsr status data busy) i2c.handleAddressMatched
  | addressSent {status : StatusRegisters} {data : Byte} {busy : Bool}
      (hsb : status.sb = false) (haddr : status.addr = true) (hmsl : status.msl = true) :
      Branch i2c (.i2c1EvIsr status data busy) i2c
  | receiveNotEmpty {status : StatusRegisters} {data : Byte} {busy : Bool}
      (hsb : status.sb = false) (haddr : status.addr = false) (hrxNE : status.rxNE = true) :
      Branch i2c (.i2c1EvIsr status data busy) (i2c.handleReceiveNotEmpty data)
  | transmitEmpty {status : StatusRegisters} {data : Byte} {busy : Bool}
      (hsb : status.sb = false) (haddr : status.addr = false) (hrxNE : status.rxNE = false)
      (htxE : (status.txE && !status.btf) = true) :
      Branch i2c (.i2c1EvIsr status data busy) (i2c.handleTransmitEmpty busy)
  | stop {status : StatusRegisters} {data : Byte} {busy : Bool}
      (hsb : status.sb = false) (haddr : status.addr = false) (hrxNE : status.rxNE = false)
      (htxE : (status.txE && !status.btf) = false) (hstopF : status.stopF = true) :
      Branch i2c (.i2c1EvIsr status data busy) (i2c.endReception busy)
  | noEvent {status : StatusRegisters} {data : Byte} {busy : Bool}
      (hsb : status.sb = false) (haddr : status.addr = false) (hrxNE : status.rxNE = false)
      (htxE : (status.txE && !status.btf) = false) (hstopF : status.stopF = false) :
      Branch i2c (.i2c1EvIsr status data busy) i2c
  | acknowledgeFailure {status : StatusRegisters} {busy : Bool} (haf : status.af = true) :
      Branch i2c (.i2c1ErIsr status busy) ((i2c.act [.acknowledgeFailure]).finishTx busy)
  | arbitrationLost {status : StatusRegisters} {busy : Bool} (haf : status.af = false)
      (harlo : status.arlo = true) :
      Branch i2c (.i2c1ErIsr status busy)
        { i2c with startPending := false, txInProgress := false }
  | busErrorMaster {status : StatusRegisters} {busy : Bool} (haf : status.af = false)
      (harlo : status.arlo = false) (hberr : status.berr = true) (hmsl : status.msl = true) :
      Branch i2c (.i2c1ErIsr status busy) { i2c with txInProgress := false }.resumeTxForce
  | busErrorSlave {status : StatusRegisters} {busy : Bool} (haf : status.af = false)
      (harlo : status.arlo = false) (hberr : status.berr = true) (hmsl : status.msl = false) :
      Branch i2c (.i2c1ErIsr status busy) (i2c.endReception busy)
  | noError {status : StatusRegisters} {busy : Bool} (haf : status.af = false)
      (harlo : status.arlo = false) (hberr : status.berr = false) :
      Branch i2c (.i2c1ErIsr status busy) i2c

/-- Every step is one of the branches. -/
theorem branch_step (i2c : I2CDriver) (event : I2CEvent) : Branch i2c event (i2c.step event) := by
  cases event with
  | sendI2CMessage msg busy => exact .sendI2CMessage msg busy
  | freeI2CRXMessage => exact .freeI2CRXMessage
  -- The flags are tested in the order of the source.
  | i2c1EvIsr status data busy =>
      rw [step, i2c1EvIsr]
      cases hsb : status.sb
      case true => exact .startBit hsb
      cases haddr : status.addr
      case true =>
        cases hmsl : status.msl
        case true => exact .addressSent hsb haddr hmsl
        case false => exact .addressMatched hsb haddr hmsl
      cases hrxNE : status.rxNE
      case true => exact .receiveNotEmpty hsb haddr hrxNE
      cases htxE : status.txE && !status.btf
      case true => exact .transmitEmpty hsb haddr hrxNE htxE
      cases hstopF : status.stopF
      case true => exact .stop hsb haddr hrxNE htxE hstopF
      case false => exact .noEvent hsb haddr hrxNE htxE hstopF
  | i2c1ErIsr status busy =>
      rw [step, i2c1ErIsr]
      cases haf : status.af
      case true => exact .acknowledgeFailure haf
      cases harlo : status.arlo
      case true => exact .arbitrationLost haf harlo
      cases hberr : status.berr
      case false => exact .noError haf harlo hberr
      cases hmsl : status.msl
      case true => exact .busErrorMaster haf harlo hberr hmsl
      case false => exact .busErrorSlave haf harlo hberr hmsl

end C6021Light.I2CDriver
