import C6021Light.Hal.Stm32I2C
import C6021Light.Lib.Journal
import Mathlib.Logic.Function.Basic

/-!
# `C6021Light.Hal.I2CReceiver`: received messages in the memory of the queue

The receiving part of the I2C driver (`stm32I2C.cpp`) once more, with the memory that it writes
to. `rxControl.msgMemory` is a pointer to a slot of `i2cRxQueue` here, and `memory` is what the
slots hold. `Hal.Stm32I2C` has the driver as a whole, with the content of the slot in place of the
pointer.

`journal` is a ghost field. It records the address matches and the bytes of the bus, and what the
driver does to the queue and its memory. The slots that are published and not consumed follow
from it (`queueOf`). The ring buffer comes from the AtomicRingBuffer library, which is not part of
the repository. So `allocate` is a parameter: the slot that the queue hands out, or none, and it
may depend on the journal in any way.
-/

set_option autoImplicit false

namespace C6021Light

/-! ### What an event is for the receiver -/

/-- What the receiver does at an event. -/
inductive RxEvent
  | addressMatched
  | receiveNotEmpty (data : Byte)
  /-- A STOP condition, or a bus error in slave mode. -/
  | endReception
  | freeI2CRXMessage
  | other
deriving DecidableEq, Repr

/-- The branch of `i2c1_ev_isr` and `i2c1_er_isr`, as far as it receives. -/
def I2CEvent.forReceiver : I2CEvent → RxEvent
  | .sendI2CMessage _ _ => .other
  | .freeI2CRXMessage => .freeI2CRXMessage
  | .i2c1EvIsr status data _ =>
      if status.sb then .other
      else if status.addr then
        if !status.msl then .addressMatched else .other
      else if status.rxNE then .receiveNotEmpty data
      else if status.txE && !status.btf then .other
      else if status.stopF then .endReception
      else .other
  | .i2c1ErIsr status _ =>
      if status.af then .other
      else if status.arlo then .other
      else if status.berr then
        if status.msl then .other else .endReception
      else .other

/-! ### State -/

/-- An entry of the journal. -/
inductive RxAction (Slot : Type)
  | addressMatched
  | received (data : Byte)
  | allocate (slot : Slot)
  | write (slot : Slot)
  | publish (slot : Slot) (message : AccessoryMsg)
  | consume
deriving DecidableEq, Repr

/-- What an entry does to the published slots, oldest first. -/
def RxAction.onQueue {Slot : Type} (queue : List Slot) : RxAction Slot → List Slot
  | .publish slot _ => queue ++ [slot]
  | .consume => queue.tail
  | _ => queue

/-- The published slots. -/
def queueOf {Slot : Type} (journal : List (RxAction Slot)) : List Slot :=
  journal.foldl RxAction.onQueue []

/-- The receiver, with the memory of the slots and what was done to the queue. -/
structure I2CReceiver (Slot : Type) where
  rxControl : TransmissionControlBlock Slot := {}
  memory : Slot → AccessoryMsg
  journal : List (RxAction Slot) := []

namespace I2CReceiver

section

variable {Slot : Type}

/-- The slots in the queue. -/
def i2cRxQueue (receiver : I2CReceiver Slot) : List Slot := queueOf receiver.journal

/-- Add to the journal. -/
def act (receiver : I2CReceiver Slot) (actions : List (RxAction Slot)) : I2CReceiver Slot :=
  { receiver with journal := receiver.journal ++ actions }

/-- `forwardRx`. -/
def forwardRx (receiver : I2CReceiver Slot) : I2CReceiver Slot :=
  if receiver.rxControl.messageValid then
    let receiver :=
      match receiver.rxControl.msgMemory with
      | some slot => receiver.act [.publish slot (receiver.memory slot)]
      -- A breakpoint.
      | none => receiver
    { receiver with rxControl := receiver.rxControl.release }
  else receiver

/-- The task gives the oldest message back, if there is one. -/
def freeI2CRXMessage (receiver : I2CReceiver Slot) : I2CReceiver Slot :=
  if receiver.i2cRxQueue.isEmpty then receiver else receiver.act [.consume]

end

variable {Slot : Type} [DecidableEq Slot]

/-- Write to a slot. -/
def write (receiver : I2CReceiver Slot) (slot : Slot) (effect : AccessoryMsg → AccessoryMsg) :
    I2CReceiver Slot :=
  { receiver.act [.write slot] with
    memory := Function.update receiver.memory slot (effect (receiver.memory slot)) }

/-- `I2C_SR1_ADDR` of a slave. -/
def handleAddressMatched (allocate : List (RxAction Slot) → Option Slot)
    (receiver : I2CReceiver Slot) : I2CReceiver Slot :=
  let receiver := receiver.act [.addressMatched]
  let claim := receiver.rxControl.tryClaim
  let receiver :=
    if claim.1 then
      let slot := allocate receiver.journal
      { receiver.act (slot.map RxAction.allocate).toList with
        rxControl := { claim.2 with msgMemory := slot } }
    else { receiver with rxControl := claim.2 }
  let receiver :=
    match receiver.rxControl.msgMemory with
    | some slot => receiver.write slot fun message => { message with destination := kMyAddr }
    -- A breakpoint.
    | none => receiver
  { receiver with rxControl := { receiver.rxControl with bytesProcessed := 1 } }

/-- `I2C_SR1_RxNE`. -/
def handleReceiveNotEmpty (receiver : I2CReceiver Slot) (data : Byte) : I2CReceiver Slot :=
  let receiver := receiver.act [.received data]
  let bytesProcessed := receiver.rxControl.bytesProcessed
  match receiver.rxControl.isOccupied, receiver.rxControl.msgMemory with
  | true, some slot =>
      if bytesProcessed < 3 then
        let receiver :=
          if bytesProcessed = 1 then
            receiver.write slot fun message => { message with source := data }
          else if bytesProcessed = 2 then
            receiver.write slot fun message => { message with data := data }
          else receiver
        { receiver with
          rxControl := { receiver.rxControl with bytesProcessed := bytesProcessed + 1 } }
      else receiver
  | _, _ => receiver

/-- What an event makes of the receiver. -/
def step (allocate : List (RxAction Slot) → Option Slot) (receiver : I2CReceiver Slot)
    (event : I2CEvent) : I2CReceiver Slot :=
  match event.forReceiver with
  | .addressMatched => receiver.handleAddressMatched allocate
  | .receiveNotEmpty data => receiver.handleReceiveNotEmpty data
  | .endReception => receiver.forwardRx
  | .freeI2CRXMessage => receiver.freeI2CRXMessage
  | .other => receiver

end I2CReceiver

end C6021Light
