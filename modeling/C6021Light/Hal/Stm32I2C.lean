import C6021Light.Lib.BoundedFifo
import C6021Light.MarklinI2C.AccessoryMsg

/-!
# `C6021Light.Hal.Stm32I2C`: the driver of the I2C bus

The control blocks, `sendI2CMessage` and the interrupts `i2c1_ev_isr` and `i2c1_er_isr`
(`stm32I2C.cpp`). A call of the task is one step, and so is an interrupt.

The hardware is an input. An interrupt finds any status flags, any byte in the data register,
and the bus busy or not. No step tests the bus twice. The two queues are objects of the
AtomicRingBuffer library, so they are a `BoundedFifo` here. The breakpoints of the source do
nothing.

`msgMemory` is a pointer into a queue. For a reception it is the content of the slot that the
block has allocated. For a transmission it is the message. When it is null, the handler reads the
bytes behind address 0, which the processor allows, and hands out bytes of no message.

The other fields are ghosts. `accepted` and `actions` record the messages that found room and
what the driver did. `startPending`, `txInProgress` and `rxInProgress` say what the hardware is
doing. A START condition is pending until the interrupt that answers it, and a transmission
lasts from there to the STOP condition. A reception lasts from the address match to the STOP
condition of the master. A bus error ends both. A lost arbitration puts the interface into slave
mode, so it ends the transmission and takes back a START condition.
-/

set_option autoImplicit false

namespace C6021Light

/-- `kI2CQueueSize`. -/
abbrev kI2CQueueSize : Nat := 10

/-- The bytes of an accessory message, its address included. -/
abbrev kAccessoryMessageLength : Nat := 3

/-- `DataModel::kMyAddr`. -/
abbrev kMyAddr : Byte := kCentralAddr

/-! ### `TransmissionControlBlock` -/

/-- `TransmissionControlBlock`. -/
structure TransmissionControlBlock (Memory : Type) where
  msgMemory : Option Memory := none
  bytesProcessed : Nat := 0
  bufferOccupied : Bool := false
deriving DecidableEq, Repr

namespace TransmissionControlBlock

variable {Memory : Type}

/-- `isOccupied`. -/
def isOccupied (block : TransmissionControlBlock Memory) : Bool := block.bufferOccupied

/-- `isFree`. -/
def isFree (block : TransmissionControlBlock Memory) : Bool := !block.isOccupied

/-- `messageValid`: all bytes of a message were processed. -/
def messageValid (block : TransmissionControlBlock Memory) : Bool :=
  block.isOccupied && block.bytesProcessed = kAccessoryMessageLength

/-- `tryClaim`. The truth value tells whether the block was free. -/
def tryClaim (block : TransmissionControlBlock Memory) :
    Bool × TransmissionControlBlock Memory :=
  if block.bufferOccupied then (false, block)
  else (true, { msgMemory := none, bytesProcessed := 0, bufferOccupied := true })

/-- `release`. -/
def release (_ : TransmissionControlBlock Memory) : TransmissionControlBlock Memory :=
  { msgMemory := none, bytesProcessed := 0, bufferOccupied := false }

end TransmissionControlBlock

/-! ### State -/

/-- A message in the transmit queue. `serial` is a ghost: how many messages were accepted
before. -/
structure QueuedMessage where
  serial : Nat
  message : AccessoryMsg
deriving DecidableEq, Repr

namespace QueuedMessage

/-- What the driver passes to `i2c_send_7bit_address`. -/
def address (queued : QueuedMessage) : Byte := queued.message.destination >>> 1

/-- The first byte of data. -/
def sourceByte (queued : QueuedMessage) : Byte := queued.message.source <<< 1

/-- The second byte of data. -/
def dataByte (queued : QueuedMessage) : Byte := queued.message.data

end QueuedMessage

/-- What the driver does. A byte comes with the message that it is read from. -/
inductive I2CAction
  | sendStart
  | send7bitAddress (message : Option QueuedMessage) (address : Option Byte)
  | sendData (message : Option QueuedMessage) (data : Option Byte)
  | sendStop
  /-- An acknowledge failure interrupt. -/
  | acknowledgeFailure
  /-- The message leaves the transmit queue. -/
  | consume (message : QueuedMessage)
deriving DecidableEq, Repr

/-- The driver. `accepted` and `actions` are a record of what was queued and done. -/
structure I2CDriver where
  rxControl : TransmissionControlBlock AccessoryMsg := {}
  txControl : TransmissionControlBlock QueuedMessage := {}
  i2cRxQueue : BoundedFifo AccessoryMsg kI2CQueueSize := .empty
  i2cTxQueue : BoundedFifo QueuedMessage kI2CQueueSize := .empty
  accepted : List QueuedMessage := []
  actions : List I2CAction := []
  startPending : Bool := false
  txInProgress : Bool := false
  rxInProgress : Bool := false

/-- The flags of `I2C_SR1` and `I2C_SR2` that the interrupts read. -/
structure StatusRegisters where
  sb : Bool := false
  addr : Bool := false
  rxNE : Bool := false
  txE : Bool := false
  btf : Bool := false
  stopF : Bool := false
  af : Bool := false
  arlo : Bool := false
  berr : Bool := false
  msl : Bool := false
deriving DecidableEq, Repr

/-- A call of the task, or an interrupt. `busy` is what a test of the bus reads. -/
inductive I2CEvent
  | sendI2CMessage (msg : AccessoryMsg) (busy : Bool)
  /-- The task gives the oldest received message back. -/
  | freeI2CRXMessage
  | i2c1EvIsr (status : StatusRegisters) (data : Byte) (busy : Bool)
  | i2c1ErIsr (status : StatusRegisters) (busy : Bool)
deriving DecidableEq, Repr

namespace I2CDriver

/-! ### Hardware -/

/-- Add to the record. -/
def act (i2c : I2CDriver) (actions : List I2CAction) : I2CDriver :=
  { i2c with actions := i2c.actions ++ actions }

/-- `i2c_send_start`. -/
def i2cSendStart (i2c : I2CDriver) : I2CDriver :=
  { i2c.act [.sendStart] with startPending := true }

/-- `i2c_send_stop`. -/
def i2cSendStop (i2c : I2CDriver) : I2CDriver :=
  { i2c.act [.sendStop] with txInProgress := false }

/-! ### Starting and finishing -/

/-- `resumeTx`: a claimed message starts when the bus is free. -/
def resumeTx (i2c : I2CDriver) (busy : Bool) : I2CDriver :=
  if i2c.txControl.isOccupied && !busy then i2c.i2cSendStart else i2c

/-- `resumeTxForce`: the same without a look at the bus. -/
def resumeTxForce (i2c : I2CDriver) : I2CDriver :=
  if i2c.txControl.isOccupied then i2c.i2cSendStart else i2c

/-- `startTx`: the block is claimed for the front of the queue. -/
def startTx (i2c : I2CDriver) (busy : Bool) : I2CDriver :=
  let claim := i2c.txControl.tryClaim
  if claim.1 then
    let i2c := { i2c with txControl := { claim.2 with msgMemory := i2c.i2cTxQueue.peek } }
    if i2c.txControl.msgMemory.isSome then i2c.resumeTx busy
    else { i2c with txControl := i2c.txControl.release }
  else
    { i2c with txControl := claim.2 }

/-- `startTxFromISR`. -/
def startTxFromISR (i2c : I2CDriver) (busy : Bool) : I2CDriver :=
  if i2c.txControl.isFree then i2c.startTx busy else i2c.resumeTx busy

/-- `forwardRx`. The peripheral is enabled already, and the task is woken. -/
def forwardRx (i2c : I2CDriver) (busy : Bool) : I2CDriver :=
  if i2c.rxControl.messageValid then
    let i2c :=
      match i2c.rxControl.msgMemory with
      | some message => { i2c with i2cRxQueue := (i2c.i2cRxQueue.offer message).2 }
      | none => i2c
    { i2c with rxControl := i2c.rxControl.release }.startTxFromISR busy
  else i2c

/-- `finishTx`: the message leaves the queue, and the next one starts. -/
def finishTx (i2c : I2CDriver) (busy : Bool) : I2CDriver :=
  let message := i2c.txControl.msgMemory
  let i2c := { i2c with i2cTxQueue := i2c.i2cTxQueue.consume message }
  let i2c := i2c.act (message.map I2CAction.consume).toList
  let i2c := { i2c with txControl := i2c.txControl.release }
  i2c.i2cSendStop.startTx busy

/-! ### Task -/

/-- `sendI2CMessage`: the message is queued, and the transmission starts. -/
def sendI2CMessage (i2c : I2CDriver) (msg : AccessoryMsg) (busy : Bool) : I2CDriver :=
  let message : QueuedMessage := { serial := i2c.accepted.length, message := msg }
  let offer := i2c.i2cTxQueue.offer message
  { i2c with
    i2cTxQueue := offer.2
    accepted := if offer.1 then i2c.accepted ++ [message] else i2c.accepted }.startTx busy

/-- `freeI2CRXMessage`: the oldest received message is dropped. -/
def freeI2CRXMessage (i2c : I2CDriver) : I2CDriver :=
  { i2c with i2cRxQueue := i2c.i2cRxQueue.drop }

/-! ### Interrupts -/

/-- `I2C_SR1_SB`: the START condition is on the bus. -/
def handleStartBit (i2c : I2CDriver) : I2CDriver :=
  let message := i2c.txControl.msgMemory
  { i2c.act [.send7bitAddress message (message.map (·.address))] with
    txControl := { i2c.txControl with bytesProcessed := 1 }
    startPending := false
    txInProgress := true }

/-- `I2C_SR1_ADDR` of a slave. -/
def handleAddressMatched (i2c : I2CDriver) : I2CDriver :=
  let claim := i2c.rxControl.tryClaim
  let rxControl :=
    -- A fresh slot has any content. The reception writes all of it.
    if claim.1 then
      { claim.2 with msgMemory := if 0 < i2c.i2cRxQueue.room then some {} else none }
    else claim.2
  { i2c with
    rxControl := { rxControl with
      msgMemory := rxControl.msgMemory.map fun message => { message with destination := kMyAddr }
      bytesProcessed := 1 }
    rxInProgress := true }

/-- `I2C_SR1_RxNE`. -/
def handleReceiveNotEmpty (i2c : I2CDriver) (data : Byte) : I2CDriver :=
  if i2c.rxControl.isOccupied && i2c.rxControl.msgMemory.isSome then
    if i2c.rxControl.bytesProcessed < 3 then
      { i2c with
        rxControl := { i2c.rxControl with
          msgMemory := i2c.rxControl.msgMemory.map fun message =>
            if i2c.rxControl.bytesProcessed = 1 then { message with source := data }
            else if i2c.rxControl.bytesProcessed = 2 then { message with data := data }
            else message
          bytesProcessed := i2c.rxControl.bytesProcessed + 1 } }
    else i2c
  else i2c

/-- Hand a data byte to the hardware. -/
def transmitByte (i2c : I2CDriver) (data : Option Byte) : I2CDriver :=
  { i2c.act [.sendData i2c.txControl.msgMemory data] with
    txControl := { i2c.txControl with bytesProcessed := i2c.txControl.bytesProcessed + 1 } }

/-- `I2C_SR1_TxE` without `I2C_SR1_BTF`. -/
def handleTransmitEmpty (i2c : I2CDriver) (busy : Bool) : I2CDriver :=
  if i2c.txControl.bytesProcessed = 1 then
    i2c.transmitByte (i2c.txControl.msgMemory.map (·.sourceByte))
  else if i2c.txControl.bytesProcessed = 2 then
    i2c.transmitByte (i2c.txControl.msgMemory.map (·.dataByte))
  else i2c.finishTx busy

/-- The end of a reception: a STOP condition, or a bus error in slave mode. -/
def endReception (i2c : I2CDriver) (busy : Bool) : I2CDriver :=
  { i2c with rxInProgress := false }.forwardRx busy

/-- `i2c1_ev_isr`. -/
def i2c1EvIsr (i2c : I2CDriver) (status : StatusRegisters) (data : Byte) (busy : Bool) :
    I2CDriver :=
  if status.sb then i2c.handleStartBit
  else if status.addr then
    if !status.msl then i2c.handleAddressMatched else i2c
  else if status.rxNE then i2c.handleReceiveNotEmpty data
  else if status.txE && !status.btf then i2c.handleTransmitEmpty busy
  else if status.stopF then i2c.endReception busy
  -- `I2C_SR1_AF` is reset.
  else i2c

/-- `i2c1_er_isr`. -/
def i2c1ErIsr (i2c : I2CDriver) (status : StatusRegisters) (busy : Bool) : I2CDriver :=
  if status.af then (i2c.act [.acknowledgeFailure]).finishTx busy
  else if status.arlo then { i2c with startPending := false, txInProgress := false }
  else if status.berr then
    if status.msl then { i2c with txInProgress := false }.resumeTxForce
    else i2c.endReception busy
  else i2c

/-- One step of the tasks or of the interrupts. -/
def step (i2c : I2CDriver) : I2CEvent → I2CDriver
  | .sendI2CMessage msg busy => i2c.sendI2CMessage msg busy
  | .freeI2CRXMessage => i2c.freeI2CRXMessage
  | .i2c1EvIsr status data busy => i2c.i2c1EvIsr status data busy
  | .i2c1ErIsr status busy => i2c.i2c1ErIsr status busy

end I2CDriver

end C6021Light
