import C6021Light.Proofs.I2CSteps
import C6021Light.Proofs.ReceptionRecovery

/-!
# `C6021Light.Proofs.ReceptionRefinement`: the two models of a reception

`Hal.Stm32I2C` has the content of the slot where the driver has a pointer to it, and its queue
holds messages. `Hal.I2CReceiver` has the pointer and the memory. Every run of the one is a run of
the other (`sameReception_run`): the blocks agree, and the queue of the driver shows what the memory
holds in the published slots. A message that is still incomplete agrees as far as it was written
(`SoFar`).

The queue of the library hands out a slot that is not published (`hfresh`), so a write to the slot
of the block leaves the published messages alone.
-/

set_option autoImplicit false

namespace C6021Light

/-! ### The receiving part of the driver -/

namespace I2CDriver

variable {i2c : I2CDriver} {busy : Bool}

/-- The receive block and the receive queue. -/
def rx (i2c : I2CDriver) :
    TransmissionControlBlock AccessoryMsg × BoundedFifo AccessoryMsg kI2CQueueSize :=
  (i2c.rxControl, i2c.i2cRxQueue)

/-- `resumeTx` does not touch the reception. -/
@[simp] theorem rx_resumeTx : (i2c.resumeTx busy).rx = i2c.rx := by
  rw [resumeTx]
  split <;> rfl

/-- `resumeTxForce` does not touch the reception. -/
@[simp] theorem rx_resumeTxForce : i2c.resumeTxForce.rx = i2c.rx := by
  rw [resumeTxForce]
  split <;> rfl

/-- `startTx` does not touch the reception. -/
@[simp] theorem rx_startTx : (i2c.startTx busy).rx = i2c.rx := by
  rw [startTx]
  dsimp only
  split
  · split
    · exact rx_resumeTx
    · rfl
  · rfl

/-- `startTxFromISR` does not touch the reception. -/
@[simp] theorem rx_startTxFromISR : (i2c.startTxFromISR busy).rx = i2c.rx := by
  rw [startTxFromISR]
  split
  · exact rx_startTx
  · exact rx_resumeTx

/-- `finishTx` does not touch the reception. -/
@[simp] theorem rx_finishTx : (i2c.finishTx busy).rx = i2c.rx := by
  rw [finishTx_eq, rx_startTx]
  rfl

/-- `handleTransmitEmpty` does not touch the reception. -/
theorem rx_handleTransmitEmpty : (i2c.handleTransmitEmpty busy).rx = i2c.rx := by
  rw [handleTransmitEmpty]
  split
  · rfl
  · split
    · rfl
    · exact rx_finishTx

/-- The end of a reception with a valid message frees the block and offers the message to the
queue. -/
theorem rx_endReception : (i2c.endReception busy).rx =
    if i2c.rxControl.messageValid then
      ({}, i2c.rxControl.msgMemory.elim i2c.i2cRxQueue fun message =>
        (i2c.i2cRxQueue.offer message).2)
    else i2c.rx := by
  rw [endReception, forwardRx]
  split
  · rw [rx_startTxFromISR]
    cases i2c.rxControl.msgMemory <;> rfl
  · rfl

/-- What a step does to the receiving part. -/
theorem rx_step (event : I2CEvent) :
    (i2c.step event).rx = match event.forReceiver with
      | .addressMatched => i2c.handleAddressMatched.rx
      | .receiveNotEmpty data => (i2c.handleReceiveNotEmpty data).rx
      | .endReception => (i2c.endReception false).rx
      | .freeI2CRXMessage => (i2c.rxControl, i2c.i2cRxQueue.drop)
      | .other => i2c.rx := by
  -- Each branch is either one of the receiver's, or it does not touch the receiver.
  have hbranch := branch_step i2c event
  generalize i2c.step event = i2c' at hbranch
  cases hbranch with
  | sendI2CMessage msg busy => rw [sendI2CMessage_eq, rx_startTx]; rfl
  | freeI2CRXMessage => rfl
  | startBit hsb => simp [I2CEvent.forReceiver, hsb]; rfl
  | addressMatched hsb haddr hmsl => simp [I2CEvent.forReceiver, hsb, haddr, hmsl]
  | addressSent hsb haddr hmsl => simp [I2CEvent.forReceiver, hsb, haddr, hmsl]
  | receiveNotEmpty hsb haddr hrxNE => simp [I2CEvent.forReceiver, hsb, haddr, hrxNE]
  | transmitEmpty hsb haddr hrxNE htxE =>
      simp [I2CEvent.forReceiver, hsb, haddr, hrxNE, htxE, rx_handleTransmitEmpty]
  | stop hsb haddr hrxNE htxE hstopF =>
      simp [I2CEvent.forReceiver, hsb, haddr, hrxNE, htxE, hstopF, rx_endReception]
  | noEvent hsb haddr hrxNE htxE hstopF =>
      simp [I2CEvent.forReceiver, hsb, haddr, hrxNE, htxE, hstopF]
  | acknowledgeFailure haf => simp [I2CEvent.forReceiver, haf]; rfl
  | arbitrationLost haf harlo => simp [I2CEvent.forReceiver, haf, harlo]; rfl
  | busErrorMaster haf harlo hberr hmsl =>
      simp [I2CEvent.forReceiver, haf, harlo, hberr, hmsl]; rfl
  | busErrorSlave haf harlo hberr hmsl =>
      simp [I2CEvent.forReceiver, haf, harlo, hberr, hmsl, rx_endReception]
  | noError haf harlo hberr => simp [I2CEvent.forReceiver, haf, harlo, hberr]

end I2CDriver

/-! ### Both models -/

/-- The messages agree in what was received so far. The address counts as a byte. -/
structure SoFar (bytesProcessed : Nat) (message message' : AccessoryMsg) : Prop where
  destination : 1 ≤ bytesProcessed → message.destination = message'.destination
  source : 2 ≤ bytesProcessed → message.source = message'.source
  data : 3 ≤ bytesProcessed → message.data = message'.data

/-- Messages that agree in all three bytes are equal. -/
theorem SoFar.eq {bytesProcessed : Nat} {message message' : AccessoryMsg}
    (h : SoFar bytesProcessed message message') (hthree : bytesProcessed = 3) :
    message = message' := by
  cases message
  cases message'
  rw [AccessoryMsg.mk.injEq]
  exact ⟨h.destination (by omega), h.source (by omega), h.data (by omega)⟩

section

variable {Slot : Type}

/-- The driver with contents, and the receiver with pointers. -/
structure SameReception (i2c : I2CDriver) (receiver : I2CReceiver Slot) : Prop where
  occupied : i2c.rxControl.bufferOccupied = receiver.rxControl.bufferOccupied
  bytesProcessed : i2c.rxControl.bytesProcessed = receiver.rxControl.bytesProcessed
  message : Option.Rel (fun message slot =>
    SoFar receiver.rxControl.bytesProcessed message (receiver.memory slot))
    i2c.rxControl.msgMemory receiver.rxControl.msgMemory
  queue : i2c.i2cRxQueue.items = receiver.i2cRxQueue.map receiver.memory
  notQueued : ∀ slot, receiver.rxControl.msgMemory = some slot → slot ∉ receiver.i2cRxQueue

/-- At the start both models have received nothing. -/
theorem sameReception_start (memory : Slot → AccessoryMsg) :
    SameReception {} { memory := memory } where
  occupied := rfl
  bytesProcessed := rfl
  message := .none
  queue := rfl
  notQueued _ h := absurd h.symm (Option.some_ne_none _)

/-- Only the receiving part of the driver counts. -/
theorem SameReception.congr {i2c i2c' : I2CDriver} {receiver : I2CReceiver Slot}
    (h : SameReception i2c receiver) (hrx : i2c'.rx = i2c.rx) : SameReception i2c' receiver := by
  obtain ⟨hcontrol, hqueue⟩ := Prod.mk.inj hrx
  refine ⟨?_, ?_, ?_, ?_, h.notQueued⟩
  · rw [hcontrol, h.occupied]
  · rw [hcontrol, h.bytesProcessed]
  · rw [hcontrol]
    exact h.message
  · rw [hqueue, h.queue]

variable {i2c : I2CDriver} {receiver : I2CReceiver Slot}

/-- A receiver without a slot belongs to a driver without a message. -/
theorem SameReception.message_none (h : SameReception i2c receiver)
    (hslot : receiver.rxControl.msgMemory = none) : i2c.rxControl.msgMemory = none := by
  have hmessage := h.message
  rw [hslot] at hmessage
  cases hcontent : i2c.rxControl.msgMemory with
  | none => rfl
  | some message =>
      rw [hcontent] at hmessage
      exact absurd hmessage Option.not_rel_some_none

/-- A receiver with a slot belongs to a driver with its message so far. -/
theorem SameReception.message_some (h : SameReception i2c receiver) {slot : Slot}
    (hslot : receiver.rxControl.msgMemory = some slot) :
    ∃ message, i2c.rxControl.msgMemory = some message ∧
      SoFar receiver.rxControl.bytesProcessed message (receiver.memory slot) := by
  have hmessage := h.message
  rw [hslot] at hmessage
  cases hcontent : i2c.rxControl.msgMemory with
  | none =>
      rw [hcontent] at hmessage
      exact absurd hmessage Option.not_rel_none_some
  | some message =>
      rw [hcontent, Option.rel_some_some] at hmessage
      exact ⟨message, rfl, hmessage⟩

/-- The receiver adds an entry that does not concern the block and the queue. -/
theorem SameReception.act (h : SameReception i2c receiver) {action : RxAction Slot}
    (hquiet : action.onQueue receiver.i2cRxQueue = receiver.i2cRxQueue) :
    SameReception i2c (receiver.act [action]) := by
  have hsame : (receiver.act [action]).i2cRxQueue = receiver.i2cRxQueue :=
    queueOf_append.trans hquiet
  refine ⟨h.occupied, h.bytesProcessed, h.message, ?_, fun slot hslot => ?_⟩
  · exact hsame ▸ h.queue
  · exact hsame ▸ h.notQueued slot hslot

/-- A block without a slot leaves the queue alone. -/
theorem sameReception_of_noSlot {bytesProcessed : Nat} {occupied : Bool}
    (hcontrol : i2c.rxControl = ⟨none, bytesProcessed, occupied⟩)
    (hcontrol' : receiver.rxControl = ⟨none, bytesProcessed, occupied⟩)
    (hqueue : i2c.i2cRxQueue.items = receiver.i2cRxQueue.map receiver.memory) :
    SameReception i2c receiver where
  occupied := by rw [hcontrol, hcontrol']
  bytesProcessed := by rw [hcontrol, hcontrol']
  message := by
    rw [hcontrol, hcontrol']
    exact .none
  queue := hqueue
  notQueued slot hslot := by
    rw [hcontrol'] at hslot
    cases hslot

variable [DecidableEq Slot] {allocate : List (RxAction Slot) → Option Slot}

/-- A write to a slot that is not in the queue. -/
theorem map_update {queue : List Slot} {slot : Slot} (h : slot ∉ queue)
    (memory : Slot → AccessoryMsg) (message : AccessoryMsg) :
    queue.map (Function.update memory slot message) = queue.map memory := by
  refine List.map_congr_left fun other hother => Function.update_of_ne ?_ message memory
  rintro rfl
  exact h hother

/-- The block writes to its slot. -/
theorem sameReception_write {i2c' : I2CDriver} {receiver' : I2CReceiver Slot} {slot : Slot}
    {message message' : AccessoryMsg} {bytesProcessed : Nat}
    (hqueue : i2c.i2cRxQueue.items = receiver.i2cRxQueue.map receiver.memory)
    (hnot : slot ∉ receiver.i2cRxQueue) (hsame : i2c'.i2cRxQueue = i2c.i2cRxQueue)
    (hsame' : receiver'.i2cRxQueue = receiver.i2cRxQueue)
    (hmemory : receiver'.memory = Function.update receiver.memory slot message')
    (hcontrol : i2c'.rxControl = ⟨some message, bytesProcessed, true⟩)
    (hcontrol' : receiver'.rxControl = ⟨some slot, bytesProcessed, true⟩)
    (hmessage : SoFar bytesProcessed message message') : SameReception i2c' receiver' where
  occupied := by rw [hcontrol, hcontrol']
  bytesProcessed := by rw [hcontrol, hcontrol']
  message := by
    rw [hcontrol, hcontrol', hmemory]
    refine .some ?_
    rw [Function.update_self]
    exact hmessage
  queue := by rw [hsame, hsame', hmemory, map_update hnot, hqueue]
  notQueued other hother := by
    rw [hcontrol'] at hother
    cases hother
    exact hsame' ▸ hnot

/-- Both models take a byte. -/
theorem SameReception.handleReceiveNotEmpty (hinv : receiver.ReceiverInv)
    (h : SameReception i2c receiver) (data : Byte) :
    SameReception (i2c.handleReceiveNotEmpty data) (receiver.handleReceiveNotEmpty data) := by
  cases hslot : receiver.rxControl.msgMemory with
  | none =>
      have heq : i2c.handleReceiveNotEmpty data = i2c := by
        simp [I2CDriver.handleReceiveNotEmpty, h.message_none hslot]
      have heq' : receiver.handleReceiveNotEmpty data = receiver.act [.received data] := by
        simp [I2CReceiver.handleReceiveNotEmpty, I2CReceiver.act, hslot]
      rw [heq, heq']
      exact h.act rfl
  | some slot =>
      have hheld := hinv.holding slot hslot
      have hnot := h.notQueued slot hslot
      have hoccupied : i2c.rxControl.bufferOccupied = true := h.occupied.trans hheld.occupied
      obtain ⟨message, hcontent, hsoFar⟩ := h.message_some hslot
      have hqueue : queueOf (receiver.journal ++ [.received data] ++ [.write slot])
          = receiver.i2cRxQueue := queueOf_append.trans queueOf_append
      -- The block has bytes 1, 2 or 3 behind the address. The third is the last one that fits.
      obtain ⟨-, ⟨hone, -⟩ | ⟨htwo, -⟩ | ⟨hthree, -⟩⟩ := hheld.fits
      · have heq : i2c.handleReceiveNotEmpty data
            = { i2c with rxControl := ⟨some { message with source := data }, 2, true⟩ } := by
          simp [I2CDriver.handleReceiveNotEmpty, hcontent, h.bytesProcessed, hone, hoccupied,
            TransmissionControlBlock.isOccupied]
        have heq' : receiver.handleReceiveNotEmpty data
            = { (receiver.act [.received data]).write slot
                  (fun message => { message with source := data }) with
                rxControl := ⟨some slot, 2, true⟩ } := by
          simp [I2CReceiver.handleReceiveNotEmpty, I2CReceiver.act, I2CReceiver.write, hslot, hone,
            hheld.occupied, TransmissionControlBlock.isOccupied]
        rw [heq, heq']
        exact sameReception_write h.queue hnot rfl hqueue rfl rfl rfl
          ⟨fun _ => hsoFar.destination (by omega), fun _ => rfl, fun hthree => by omega⟩
      · have heq : i2c.handleReceiveNotEmpty data
            = { i2c with rxControl := ⟨some { message with data := data }, 3, true⟩ } := by
          simp [I2CDriver.handleReceiveNotEmpty, hcontent, h.bytesProcessed, htwo, hoccupied,
            TransmissionControlBlock.isOccupied]
        have heq' : receiver.handleReceiveNotEmpty data
            = { (receiver.act [.received data]).write slot
                  (fun message => { message with data := data }) with
                rxControl := ⟨some slot, 3, true⟩ } := by
          simp [I2CReceiver.handleReceiveNotEmpty, I2CReceiver.act, I2CReceiver.write, hslot, htwo,
            hheld.occupied, TransmissionControlBlock.isOccupied]
        rw [heq, heq']
        exact sameReception_write h.queue hnot rfl hqueue rfl rfl rfl
          ⟨fun _ => hsoFar.destination (by omega), fun _ => hsoFar.source (by omega), fun _ => rfl⟩
      -- A further byte is not stored.
      · have heq : i2c.handleReceiveNotEmpty data = i2c := by
          simp [I2CDriver.handleReceiveNotEmpty, h.bytesProcessed, hthree]
        have heq' : receiver.handleReceiveNotEmpty data = receiver.act [.received data] := by
          simp [I2CReceiver.handleReceiveNotEmpty, I2CReceiver.act, hslot, hthree,
            hheld.occupied, TransmissionControlBlock.isOccupied]
        rw [heq, heq']
        exact h.act rfl

/-- Both models see an address match: a slot is allocated exactly when the queue has room. -/
theorem SameReception.handleAddressMatched (hlaw : QueueLaw allocate)
    (hfresh : ∀ journal slot, allocate journal = some slot → slot ∉ queueOf journal)
    (hinv : receiver.Inv) (h : SameReception i2c receiver) :
    SameReception i2c.handleAddressMatched (receiver.handleAddressMatched allocate) := by
  -- The queue has as much room as the receiver counts, so both find a slot, or none does.
  have hroom : i2c.i2cRxQueue.room = kI2CQueueSize - receiver.i2cRxQueue.length := by
    rw [BoundedFifo.room, h.queue, List.length_map]
  have hmatched : queueOf (receiver.journal ++ [.addressMatched]) = receiver.i2cRxQueue :=
    queueOf_append
  have hbranch := receiver.branch_handleAddressMatched allocate
  generalize receiver.handleAddressMatched allocate = receiver' at hbranch
  cases hbranch with
  -- A new slot. The queue has room, as otherwise nothing would have been allocated.
  | allocated slot hfree hslot =>
      have hpositive : 0 < i2c.i2cRxQueue.room := by
        rw [hroom]
        refine Nat.sub_pos_of_lt (Nat.lt_of_not_le fun hfull => Option.some_ne_none slot ?_)
        rw [← hslot, hinv.queue.allocate_eq_none_iff hlaw hinv.reception hfree]
        exact hfull
      have heq : i2c.handleAddressMatched
          = { i2c with
              rxControl := ⟨some { destination := kMyAddr, source := 0, data := 0 }, 1, true⟩
              rxInProgress := true } := by
        simp [I2CDriver.handleAddressMatched, h.occupied, hfree, hpositive,
          TransmissionControlBlock.tryClaim]
      rw [heq]
      have hnot : slot ∉ receiver.i2cRxQueue := hmatched ▸ hfresh _ slot hslot
      exact sameReception_write h.queue hnot rfl
        (queueOf_append.trans (queueOf_append.trans queueOf_append)) rfl rfl rfl
        ⟨fun _ => rfl, fun htwo => by omega, fun hthree => by omega⟩
  -- The slot of the reception before is used again, with its old content.
  | kept slot hoccupied hslot =>
      obtain ⟨message, hcontent, -⟩ := h.message_some hslot
      have heq : i2c.handleAddressMatched
          = { i2c with
              rxControl := ⟨some { message with destination := kMyAddr }, 1, true⟩
              rxInProgress := true } := by
        simp [I2CDriver.handleAddressMatched, h.occupied, hoccupied, hcontent,
          TransmissionControlBlock.tryClaim]
      rw [heq]
      exact sameReception_write h.queue (h.notQueued slot hslot) rfl
        (queueOf_append.trans queueOf_append) rfl rfl rfl
        ⟨fun _ => rfl, fun htwo => by omega, fun hthree => by omega⟩
  -- The queue is full, and nothing can be allocated.
  | full hfree hnone =>
      have hzero : i2c.i2cRxQueue.room = 0 := by
        rw [hroom]
        exact Nat.sub_eq_zero_of_le
          ((hinv.queue.allocate_eq_none_iff hlaw hinv.reception hfree).mp hnone)
      have heq : i2c.handleAddressMatched
          = { i2c with rxControl := ⟨none, 1, true⟩, rxInProgress := true } := by
        simp [I2CDriver.handleAddressMatched, h.occupied, hfree, hzero,
          TransmissionControlBlock.tryClaim]
      rw [heq]
      exact sameReception_of_noSlot rfl rfl (h.queue.trans (congrArg _ hmatched.symm))
  | stillNoSlot hoccupied hnone =>
      have heq : i2c.handleAddressMatched
          = { i2c with rxControl := ⟨none, 1, true⟩, rxInProgress := true } := by
        simp [I2CDriver.handleAddressMatched, h.occupied, hoccupied, h.message_none hnone,
          TransmissionControlBlock.tryClaim]
      rw [heq]
      exact sameReception_of_noSlot rfl rfl (h.queue.trans (congrArg _ hmatched.symm))

omit [DecidableEq Slot] in
/-- Both models tell the same when a message is valid. -/
theorem SameReception.messageValid (h : SameReception i2c receiver) :
    i2c.rxControl.messageValid = receiver.rxControl.messageValid := by
  rw [TransmissionControlBlock.messageValid, TransmissionControlBlock.messageValid,
    TransmissionControlBlock.isOccupied, TransmissionControlBlock.isOccupied, h.occupied,
    h.bytesProcessed]

omit [DecidableEq Slot] in
/-- Both models publish a valid message at the end of a reception. -/
theorem SameReception.forwardRx (hinv : receiver.Inv) (h : SameReception i2c receiver) :
    SameReception (i2c.endReception false) receiver.forwardRx := by
  have hrx := @I2CDriver.rx_endReception i2c false
  rw [h.messageValid] at hrx
  rw [I2CReceiver.forwardRx]
  cases hvalid : receiver.rxControl.messageValid with
  | false =>
      rw [hvalid] at hrx
      exact h.congr hrx
  | true =>
      obtain ⟨slot, hslot, hheld, hthree⟩ := hinv.reception.slot_of_messageValid hvalid
      obtain ⟨message, hcontent, hsoFar⟩ := h.message_some hslot
      -- A slot that is held was reserved, so the message enters the queue.
      have hroom : 0 < i2c.i2cRxQueue.room := by
        rw [BoundedFifo.room, h.queue, List.length_map]
        exact Nat.sub_pos_of_lt (hinv.queue.reserved slot hslot)
      rw [hvalid, if_pos rfl, hcontent] at hrx
      obtain ⟨hcontrol, hqueue⟩ := Prod.mk.inj hrx
      have hitems : (i2c.endReception false).i2cRxQueue.items
          = i2c.i2cRxQueue.items ++ [message] := by
        rw [hqueue]
        exact (i2c.i2cRxQueue.items_offer message).trans
          (if_pos (BoundedFifo.offer_of_room hroom message).1)
      have hpublished : queueOf (receiver.journal ++ [.publish slot (receiver.memory slot)])
          = receiver.i2cRxQueue ++ [slot] := queueOf_append
      rw [hslot]
      refine sameReception_of_noSlot hcontrol rfl ?_
      rw [hitems, h.queue, hsoFar.eq hthree]
      exact (List.map_append.trans rfl).symm.trans (congrArg (List.map _) hpublished.symm)

omit [DecidableEq Slot] in
/-- Both models drop the oldest message. -/
theorem SameReception.freeI2CRXMessage (h : SameReception i2c receiver) :
    SameReception i2c.freeI2CRXMessage receiver.freeI2CRXMessage := by
  rw [I2CReceiver.freeI2CRXMessage]
  split
  · rename_i hempty
    have hnil := List.isEmpty_iff.mp hempty
    refine ⟨h.occupied, h.bytesProcessed, h.message, ?_, h.notQueued⟩
    show i2c.i2cRxQueue.items.tail = _
    rw [h.queue, hnil]
    rfl
  · have hconsumed : queueOf (receiver.journal ++ [.consume]) = receiver.i2cRxQueue.tail :=
      queueOf_append
    refine ⟨h.occupied, h.bytesProcessed, h.message, ?_, fun slot hslot hmem => ?_⟩
    · show i2c.i2cRxQueue.items.tail = (queueOf (receiver.journal ++ [.consume])).map _
      rw [hconsumed, h.queue, List.map_tail]
      rfl
    · refine h.notQueued slot hslot (List.mem_of_mem_tail ?_)
      exact hconsumed ▸ hmem

/-- Every event keeps the models together. -/
theorem SameReception.step (hlaw : QueueLaw allocate)
    (hfresh : ∀ journal slot, allocate journal = some slot → slot ∉ queueOf journal)
    (hinv : receiver.Inv) (h : SameReception i2c receiver) (event : I2CEvent) :
    SameReception (i2c.step event) (receiver.step allocate event) := by
  have hrx := @I2CDriver.rx_step i2c event
  rw [I2CReceiver.step]
  cases hevent : event.forReceiver with
  | addressMatched =>
      rw [hevent] at hrx
      exact (h.handleAddressMatched hlaw hfresh hinv).congr hrx
  | receiveNotEmpty data =>
      rw [hevent] at hrx
      exact (h.handleReceiveNotEmpty hinv.reception data).congr hrx
  | endReception =>
      rw [hevent] at hrx
      exact (h.forwardRx hinv).congr hrx
  | freeI2CRXMessage =>
      rw [hevent] at hrx
      exact h.freeI2CRXMessage.congr hrx
  | other =>
      rw [hevent] at hrx
      exact h.congr hrx

/-- The driver and the receiver run in step. What the task sees in the queue of the driver is what
the memory holds. -/
theorem sameReception_run (hlaw : QueueLaw allocate)
    (hfresh : ∀ journal slot, allocate journal = some slot → slot ∉ queueOf journal)
    (memory : Slot → AccessoryMsg) (events : List I2CEvent) :
    SameReception (events.foldl I2CDriver.step {})
      (events.foldl (I2CReceiver.step allocate) { memory := memory }) := by
  suffices hboth : ∀ (i2c : I2CDriver) (receiver : I2CReceiver Slot), receiver.Inv →
      SameReception i2c receiver → SameReception (events.foldl I2CDriver.step i2c)
        (events.foldl (I2CReceiver.step allocate) receiver) from
    hboth _ _ (I2CReceiver.inv_start memory) (sameReception_start memory)
  induction events with
  | nil => exact fun _ _ _ h => h
  | cons event events ih =>
      intro i2c receiver hinv h
      exact ih _ _ (hinv.step hlaw event) (h.step hlaw hfresh hinv event)

end

end C6021Light
