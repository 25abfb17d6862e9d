import C6021Light.Proofs.I2CSteps
import C6021Light.Lib.FaultRun
import C6021Light.Lib.Journal
import Mathlib.Data.List.Nodup

/-!
# `C6021Light.Proofs.TransmitQueue`: messages leave the queue when they are sent

`finishTx` takes the claimed message from the queue. It runs at the end of a transmission, and
also when an interrupt asks for a byte, or refuses one, of a message that is claimed and not
started. `StartedWhenFinished` is the condition that excludes this. It is exact: a run consumes
every message when it is sent or refused exactly when all its steps meet it.

The order of the messages does not depend on it. `TransmitState` is the invariant. The claimed
message is the oldest one of the queue, and the bytes handed out so far are the first
`bytesProcessed` of its transfer.
-/

set_option autoImplicit false

namespace C6021Light

open FaultRun Journal

/-! ### Reading the record -/

namespace I2CAction

/-- The message that a byte is read from. -/
def handed : I2CAction → Option QueuedMessage
  | .send7bitAddress message _ => message
  | .sendData message _ => message
  | _ => none

/-- The actions that hand a byte to the hardware. -/
def isByte : I2CAction → Bool
  | .send7bitAddress _ _ => true
  | .sendData _ _ => true
  | _ => false

/-- The message that an action takes out of the queue. -/
def consumed : I2CAction → Option QueuedMessage
  | .consume message => some message
  | _ => none

end I2CAction

/-- The bytes that went to the hardware. -/
def bytesHanded (actions : List I2CAction) : List I2CAction := actions.filter (·.isByte)

/-- The messages that left the queue. -/
def completed (actions : List I2CAction) : List QueuedMessage := actions.filterMap (·.consumed)

/-- The bytes of two parts of a record. -/
@[simp] theorem bytesHanded_append (actions actions' : List I2CAction) :
    bytesHanded (actions ++ actions') = bytesHanded actions ++ bytesHanded actions' :=
  List.filter_append ..

/-- The messages that left the queue in two parts of a record. -/
@[simp] theorem completed_append (actions actions' : List I2CAction) :
    completed (actions ++ actions') = completed actions ++ completed actions' :=
  List.filterMap_append ..

/-- Address, source and data byte of a message, as they are handed to the hardware. -/
def QueuedMessage.transfer (queued : QueuedMessage) : List I2CAction :=
  [.send7bitAddress (some queued) (some queued.address),
    .sendData (some queued) (some queued.sourceByte),
    .sendData (some queued) (some queued.dataByte)]

/-- A message is consumed when its three bytes were the last ones handed out, or when an
acknowledge failure has come after some of them. -/
def SentOrRefused (before : List I2CAction) (action : I2CAction) : Prop :=
  ∀ queued, action = .consume queued →
    queued.transfer <:+ bytesHanded before ∨
      ∃ earlier n, before = earlier ++ [.acknowledgeFailure] ∧ 0 < n ∧
        queued.transfer.take n <:+ bytesHanded earlier

/-- A byte is handed out when the messages accepted before its own are consumed. -/
def InTurn (before : List I2CAction) (action : I2CAction) : Prop :=
  ∀ queued, action.handed = some queued → (completed before).length = queued.serial

/-- The interrupts that can finish a transmission: the hardware asks for a byte, or one was not
acknowledged. -/
def I2CEvent.MayFinishTx : I2CEvent → Prop
  | .i2c1EvIsr status _ _ =>
      status.sb = false ∧ status.addr = false ∧ status.rxNE = false ∧
        (status.txE && !status.btf) = true
  | .i2c1ErIsr status _ => status.af = true
  | _ => False

/-! ### The invariant -/

/-- The invariant of the transmission: a claimed buffer holds the front of the queue, messages leave
in the order of acceptance, and the bytes of the claimed one were handed over in turn. -/
structure TransmitState (control : TransmissionControlBlock QueuedMessage)
    (queue : BoundedFifo QueuedMessage kI2CQueueSize) (accepted : List QueuedMessage)
    (actions : List I2CAction) : Prop where
  claimed : control.bufferOccupied = true → ∃ queued,
    control.msgMemory = some queued ∧ queue.peek = some queued
  released : control.bufferOccupied = false → control.msgMemory = none
  fifo : completed actions ++ queue.items = accepted
  serials : accepted.map (·.serial) = List.range accepted.length
  transfer : ∀ queued, control.msgMemory = some queued →
    queued.transfer.take control.bytesProcessed <:+ bytesHanded actions
  handed : ∀ action ∈ actions, ∀ queued, action.handed = some queued →
    queued ∈ completed actions ∨
      control.msgMemory = some queued ∧ control.bytesProcessed ≠ 0
  inTurn : Justified InTurn actions

namespace TransmitState

variable {control : TransmissionControlBlock QueuedMessage}
  {queue : BoundedFifo QueuedMessage kI2CQueueSize} {accepted : List QueuedMessage}
  {actions : List I2CAction} {queued : QueuedMessage}

/-- At start-up nothing is accepted. -/
theorem start : TransmitState {} .empty [] [] where
  claimed h := Bool.noConfusion h
  released _ := rfl
  fifo := rfl
  serials := rfl
  transfer _ h := absurd h.symm (Option.some_ne_none _)
  handed _ h := absurd h List.not_mem_nil
  inTurn := .nil

/-- The message in the control block is the oldest one of the queue. -/
theorem peek_eq (h : TransmitState control queue accepted actions)
    (hmemory : control.msgMemory = some queued) :
    control.bufferOccupied = true ∧ queue.peek = some queued := by
  cases hoccupied : control.bufferOccupied with
  | false => exact absurd (hmemory.symm.trans (h.released hoccupied)) (Option.some_ne_none _)
  | true =>
      obtain ⟨claimed, hclaimed, hpeek⟩ := h.claimed hoccupied
      exact ⟨rfl, hpeek.trans (hclaimed.symm.trans hmemory)⟩

/-- The oldest message of the queue has as many messages before it as are consumed. -/
theorem length_completed (h : TransmitState control queue accepted actions)
    (hpeek : queue.peek = some queued) : (completed actions).length = queued.serial := by
  have hserials := h.serials
  rw [← h.fifo, BoundedFifo.items_eq_cons_consume hpeek, List.map_append, List.map_cons] at hserials
  have hserial := congrArg (·[(completed actions).length]?) hserials
  rw [List.getElem?_append_right (by simp), List.length_map, Nat.sub_self,
    List.getElem?_cons_zero, List.getElem?_range (by simp)] at hserial
  exact (Option.some.inj hserial).symm

/-- No message is accepted twice. -/
theorem nodup_accepted (h : TransmitState control queue accepted actions) : accepted.Nodup := by
  refine List.Nodup.of_map (·.serial) ?_
  rw [h.serials]
  exact List.nodup_range

/-- The front of the queue has not left it. -/
theorem not_mem_completed (h : TransmitState control queue accepted actions)
    (hpeek : queue.peek = some queued) : queued ∉ completed actions := by
  intro hmem
  have hnodup := h.nodup_accepted
  rw [← h.fifo, BoundedFifo.items_eq_cons_consume hpeek] at hnodup
  exact (List.disjoint_of_nodup_append hnodup) hmem List.mem_cons_self

/-- Actions that are no byte and consume nothing. -/
theorem act (h : TransmitState control queue accepted actions) {new : List I2CAction}
    (hnew : ∀ action ∈ new, action.isByte = false ∧ action.handed = none ∧
      action.consumed = none) :
    TransmitState control queue accepted (actions ++ new) := by
  have hbytes : bytesHanded (actions ++ new) = bytesHanded actions := by
    have hnone : bytesHanded new = [] :=
      List.filter_eq_nil_iff.mpr fun action haction => by simp [(hnew action haction).1]
    rw [bytesHanded_append, hnone, List.append_nil]
  have hcompleted : completed (actions ++ new) = completed actions := by
    have hnone : completed new = [] :=
      List.filterMap_eq_nil_iff.mpr fun action haction => (hnew action haction).2.2
    rw [completed_append, hnone, List.append_nil]
  refine ⟨h.claimed, h.released, hcompleted ▸ h.fifo, h.serials, hbytes ▸ h.transfer, ?_,
    h.inTurn.append ?_⟩
  · rw [hcompleted]
    intro action hmem queued hhanded
    rcases List.mem_append.mp hmem with hold | hnewmem
    · exact h.handed action hold queued hhanded
    · exact absurd (hhanded.symm.trans (hnew action hnewmem).2.1) (Option.some_ne_none _)
  · intro action hmem before queued hhanded
    exact absurd (hhanded.symm.trans (hnew action hmem).2.1) (Option.some_ne_none _)

/-- The next byte of the claimed message. -/
theorem byte (h : TransmitState control queue accepted actions) {action : I2CAction} {n : Nat}
    (hbyte : action.isByte = true) (hhanded : action.handed = control.msgMemory)
    (hconsumed : action.consumed = none)
    (htransfer : ∀ queued, control.msgMemory = some queued →
      queued.transfer.take (n + 1) <:+ bytesHanded actions ++ [action]) :
    TransmitState { control with bytesProcessed := n + 1 } queue accepted
      (actions ++ [action]) := by
  have hbytes : bytesHanded [action] = [action] := List.filter_cons_of_pos hbyte
  have hcompleted : completed (actions ++ [action]) = completed actions := by
    have hnone : completed [action] = [] := List.filterMap_cons_none hconsumed
    rw [completed_append, hnone, List.append_nil]
  refine ⟨h.claimed, h.released, hcompleted ▸ h.fifo, h.serials, ?_, ?_,
    justified_append_singleton.mpr ⟨h.inTurn, ?_⟩⟩
  · intro queued hmemory
    rw [bytesHanded_append, hbytes]
    exact htransfer queued hmemory
  · rw [hcompleted]
    intro action' hmem queued hqueued
    rcases List.mem_append.mp hmem with hold | hnew
    · exact (h.handed action' hold queued hqueued).imp_right
        fun hclaimed => ⟨hclaimed.1, Nat.succ_ne_zero n⟩
    · cases List.mem_singleton.mp hnew
      exact .inr ⟨hhanded.symm.trans hqueued, Nat.succ_ne_zero n⟩
  · intro queued hqueued
    exact h.length_completed (h.peek_eq (hhanded.symm.trans hqueued)).2

/-- The claimed message leaves the queue, and the block is released. -/
theorem consume (h : TransmitState control queue accepted actions) :
    TransmitState control.release (queue.consume control.msgMemory) accepted
      (actions ++ (control.msgMemory.map I2CAction.consume).toList) := by
  refine ⟨fun hclaimed => Bool.noConfusion hclaimed, fun _ => rfl, ?_, h.serials,
    fun _ hmemory => absurd hmemory.symm (Option.some_ne_none _), ?_, h.inTurn.append ?_⟩
  · cases hmemory : control.msgMemory with
    | none =>
        rw [Option.map_none, Option.toList_none, List.append_nil]
        exact h.fifo
    | some queued =>
        have hfifo := h.fifo
        rw [BoundedFifo.items_eq_cons_consume (h.peek_eq hmemory).2] at hfifo
        rw [← hfifo, completed_append, List.append_assoc]
        rfl
  · intro action hmem queued hhanded
    refine .inl ?_
    rw [completed_append]
    rcases List.mem_append.mp hmem with hold | hnew
    · rcases h.handed action hold queued hhanded with hcompleted | ⟨hmemory, -⟩
      · exact List.mem_append_left _ hcompleted
      · rw [hmemory]
        exact List.mem_append_right _ List.mem_cons_self
    · obtain ⟨message, -, rfl⟩ := List.mem_map.mp (Option.toList_map .. ▸ hnew)
      cases hhanded
  · intro action hmem before queued hhanded
    obtain ⟨message, -, rfl⟩ := List.mem_map.mp (Option.toList_map .. ▸ hmem)
    cases hhanded

/-- A released block is claimed for the oldest message. -/
theorem claim (h : TransmitState control queue accepted actions)
    (hfree : control.bufferOccupied = false) (hpeek : queue.peek = some queued) :
    TransmitState { msgMemory := some queued, bytesProcessed := 0, bufferOccupied := true }
      queue accepted actions := by
  refine ⟨fun _ => ⟨queued, rfl, hpeek⟩, fun hreleased => Bool.noConfusion hreleased, h.fifo,
    h.serials, fun _ _ => List.nil_suffix, ?_, h.inTurn⟩
  intro action hmem message hhanded
  refine (h.handed action hmem message hhanded).imp_right fun hclaimed => ?_
  exact absurd (hclaimed.1.symm.trans (h.released hfree)) (Option.some_ne_none _)

/-- A block that is free is released once more. -/
theorem release (h : TransmitState control queue accepted actions)
    (hfree : control.bufferOccupied = false) : TransmitState {} queue accepted actions := by
  refine ⟨fun hclaimed => Bool.noConfusion hclaimed, fun _ => rfl, h.fifo, h.serials,
    fun _ hmemory => absurd hmemory.symm (Option.some_ne_none _), ?_, h.inTurn⟩
  intro action hmem message hhanded
  refine (h.handed action hmem message hhanded).imp_right fun hclaimed => ?_
  exact absurd (hclaimed.1.symm.trans (h.released hfree)) (Option.some_ne_none _)

/-- One more message in the queue. -/
theorem accept (h : TransmitState control queue accepted actions) (message : QueuedMessage)
    (hserial : message.serial = accepted.length) :
    TransmitState control (queue.offer message).2
      (if (queue.offer message).1 then accepted ++ [message] else accepted) actions := by
  refine ⟨fun hoccupied => ?_, h.released, ?_, ?_, h.transfer, h.handed, h.inTurn⟩
  · obtain ⟨claimed, hmemory, hpeek⟩ := h.claimed hoccupied
    refine ⟨claimed, hmemory, ?_⟩
    rw [BoundedFifo.peek, BoundedFifo.items_offer]
    split
    · rw [List.head?_append, show queue.items.head? = some claimed from hpeek]
      rfl
    · exact hpeek
  · rw [BoundedFifo.items_offer]
    split
    · rw [← h.fifo, List.append_assoc]
    · exact h.fifo
  · split
    · rw [List.map_append, h.serials, List.length_append, List.length_singleton, List.range_succ,
        List.map_singleton, hserial]
    · exact h.serials

end TransmitState

/-- A message without a byte handed out is neither sent nor refused. -/
theorem TransmitState.not_sentOrRefused {control : TransmissionControlBlock QueuedMessage}
    {queue : BoundedFifo QueuedMessage kI2CQueueSize} {accepted : List QueuedMessage}
    {actions : List I2CAction} {queued : QueuedMessage}
    (h : TransmitState control queue accepted actions) (hmemory : control.msgMemory = some queued)
    (hbytes : control.bytesProcessed = 0) : ¬ SentOrRefused actions (.consume queued) := by
  intro hsent
  have haddress : I2CAction.send7bitAddress (some queued) (some queued.address) ∈ actions := by
    rcases hsent queued rfl with hall | ⟨earlier, n, rfl, hn, hsome⟩
    · exact (List.mem_filter.mp (hall.subset List.mem_cons_self)).1
    · obtain ⟨k, rfl⟩ := Nat.exists_eq_succ_of_ne_zero (Nat.ne_of_gt hn)
      exact List.mem_append_left _ (List.mem_filter.mp (hsome.subset List.mem_cons_self)).1
  rcases h.handed _ haddress queued rfl with hcompleted | ⟨-, hbytes'⟩
  · exact h.not_mem_completed (h.peek_eq hmemory).2 hcompleted
  · exact hbytes' hbytes

namespace I2CDriver

variable {i2c i2c' : I2CDriver} {busy : Bool} {queued : QueuedMessage} {event : I2CEvent}

/-- The invariant for the driver's fields. -/
abbrev TransmitInv (i2c : I2CDriver) : Prop :=
  TransmitState i2c.txControl i2c.i2cTxQueue i2c.accepted i2c.actions

/-! ### Actions that consume nothing -/

/-- The record grows, and no message leaves the queue. -/
def ConsumesNothing (i2c i2c' : I2CDriver) : Prop :=
  ∃ new, i2c'.actions = i2c.actions ++ new ∧ ∀ action ∈ new, action.consumed = none

/-- A step without an action consumes nothing. -/
theorem ConsumesNothing.of_eq (h : i2c'.actions = i2c.actions) : ConsumesNothing i2c i2c' :=
  ⟨[], h.trans (List.append_nil _).symm, fun _ hmem => absurd hmem List.not_mem_nil⟩

/-- An action that consumes nothing, by itself. -/
theorem ConsumesNothing.of_singleton {action : I2CAction}
    (h : i2c'.actions = i2c.actions ++ [action]) (hconsumed : action.consumed = none) :
    ConsumesNothing i2c i2c' :=
  ⟨[action], h, fun _ hmem => List.mem_singleton.mp hmem ▸ hconsumed⟩

/-- Such a record is justified as before. -/
theorem ConsumesNothing.justified_iff (h : ConsumesNothing i2c i2c') :
    Justified SentOrRefused i2c'.actions ↔ Justified SentOrRefused i2c.actions := by
  obtain ⟨new, hactions, hnew⟩ := h
  rw [hactions]
  refine ⟨Justified.of_append, fun h => h.append fun action hmem before queued hqueued => ?_⟩
  have hnone := hnew action hmem
  rw [hqueued] at hnone
  exact absurd hnone (Option.some_ne_none queued)

/-- `resumeTx` starts at most. -/
theorem consumesNothing_resumeTx : ConsumesNothing i2c (i2c.resumeTx busy) := by
  rw [resumeTx]
  split
  · exact .of_singleton rfl rfl
  · exact .of_eq rfl

/-- `resumeTxForce` starts at most. -/
theorem consumesNothing_resumeTxForce : ConsumesNothing i2c i2c.resumeTxForce := by
  rw [resumeTxForce]
  split
  · exact .of_singleton rfl rfl
  · exact .of_eq rfl

/-! ### `startTx` -/

/-- `startTx` claims the buffer and consumes nothing. -/
theorem consumesNothing_startTx : ConsumesNothing i2c (i2c.startTx busy) := by
  cases hfree : i2c.txControl.bufferOccupied with
  | true => exact .of_eq (by rw [startTx_of_occupied hfree])
  | false =>
      cases hpeek : i2c.i2cTxQueue.peek with
      | none => exact .of_eq (by rw [startTx_of_empty hfree hpeek])
      | some queued =>
          rw [startTx_of_peek hfree hpeek]
          exact consumesNothing_resumeTx

/-- `resumeTx` keeps the invariant. -/
theorem TransmitInv.resumeTx (h : i2c.TransmitInv) : (i2c.resumeTx busy).TransmitInv := by
  rw [I2CDriver.resumeTx]
  split
  · exact TransmitState.act h (by simp [I2CAction.isByte, I2CAction.handed, I2CAction.consumed])
  · exact h

/-- `resumeTxForce` keeps the invariant. -/
theorem TransmitInv.resumeTxForce (h : i2c.TransmitInv) : i2c.resumeTxForce.TransmitInv := by
  rw [I2CDriver.resumeTxForce]
  split
  · exact TransmitState.act h (by simp [I2CAction.isByte, I2CAction.handed, I2CAction.consumed])
  · exact h

/-- `startTx` claims the front of the queue, when there is one. -/
theorem TransmitInv.startTx (h : i2c.TransmitInv) : (i2c.startTx busy).TransmitInv := by
  cases hfree : i2c.txControl.bufferOccupied with
  | true => rwa [startTx_of_occupied hfree]
  | false =>
      cases hpeek : i2c.i2cTxQueue.peek with
      | none =>
          rw [startTx_of_empty hfree hpeek]
          exact TransmitState.release h hfree
      | some queued =>
          rw [startTx_of_peek hfree hpeek]
          have hclaim : I2CDriver.TransmitInv
              { i2c with txControl := ⟨some queued, 0, true⟩ } := TransmitState.claim h hfree hpeek
          exact hclaim.resumeTx

/-- `startTxFromISR` resumes a claimed message or starts a new one. -/
theorem TransmitInv.startTxFromISR (h : i2c.TransmitInv) :
    (i2c.startTxFromISR busy).TransmitInv := by
  rw [I2CDriver.startTxFromISR]
  split
  · exact h.startTx
  · exact h.resumeTx

/-- `startTxFromISR` consumes nothing. -/
theorem consumesNothing_startTxFromISR : ConsumesNothing i2c (i2c.startTxFromISR busy) := by
  rw [startTxFromISR]
  split
  · exact consumesNothing_startTx
  · exact consumesNothing_resumeTx

/-! ### Reception -/

/-- The end of a reception consumes nothing. -/
theorem consumesNothing_endReception : ConsumesNothing i2c (i2c.endReception busy) := by
  obtain ⟨rxControl, i2cRxQueue, heq⟩ := endReception_eq i2c busy
  rw [heq]
  split
  · exact consumesNothing_startTxFromISR
  · exact .of_eq rfl

/-- The end of a reception resumes the transmission. -/
theorem TransmitInv.endReception (h : i2c.TransmitInv) :
    (i2c.endReception busy).TransmitInv := by
  obtain ⟨rxControl, i2cRxQueue, heq⟩ := endReception_eq i2c busy
  rw [heq]
  split
  · exact @TransmitInv.startTxFromISR (i2c.received rxControl i2cRxQueue) busy h
  · exact h

/-! ### Transmission -/

/-- The address goes out first, with nothing handed over before. -/
theorem TransmitInv.handleStartBit (h : i2c.TransmitInv) : i2c.handleStartBit.TransmitInv := by
  refine TransmitState.byte h rfl rfl rfl fun queued hmemory => ?_
  rw [hmemory]
  exact List.suffix_append (bytesHanded i2c.actions) _

/-- One more data byte of the transfer. -/
theorem TransmitInv.transmitByte (h : i2c.TransmitInv) {data : Option Byte}
    (hdata : ∀ queued, i2c.txControl.msgMemory = some queued →
      queued.transfer.take (i2c.txControl.bytesProcessed + 1)
        = queued.transfer.take i2c.txControl.bytesProcessed ++ [.sendData (some queued) data]) :
    (i2c.transmitByte data).TransmitInv := by
  refine TransmitState.byte h rfl rfl rfl fun queued hmemory => ?_
  rw [hdata queued hmemory, hmemory]
  exact List.suffix_append_self_iff.mpr (h.transfer queued hmemory)

/-- A finished message leaves the queue, and the next one is claimed. -/
theorem TransmitInv.finishTx (h : i2c.TransmitInv) : (i2c.finishTx busy).TransmitInv := by
  have hconsume : i2c.afterConsume.TransmitInv :=
    TransmitState.act (TransmitState.consume h)
      (by simp [I2CAction.isByte, I2CAction.handed, I2CAction.consumed])
  rw [finishTx_eq]
  exact hconsume.startTx

/-- The record after `finishTx` is justified when the claimed message was sent or refused. -/
theorem justified_finishTx_iff :
    Justified SentOrRefused (i2c.finishTx busy).actions ↔
      Justified SentOrRefused i2c.actions ∧ ∀ queued, i2c.txControl.msgMemory = some queued →
        SentOrRefused i2c.actions (.consume queued) := by
  have hstop : ConsumesNothing
      { i2c with
        actions := i2c.actions ++ (i2c.txControl.msgMemory.map I2CAction.consume).toList }
      i2c.afterConsume := .of_singleton rfl rfl
  rw [finishTx_eq, consumesNothing_startTx.justified_iff, hstop.justified_iff]
  cases i2c.txControl.msgMemory with
  | none =>
      rw [Option.map_none, Option.toList_none, List.append_nil]
      exact ⟨fun h => ⟨h, fun _ hnone => absurd hnone.symm (Option.some_ne_none _)⟩,
        fun h => h.1⟩
  | some queued =>
      rw [Option.map_some, Option.toList_some, justified_append_singleton]
      refine and_congr_right fun _ => ⟨fun h message hmessage => ?_, fun h => h queued rfl⟩
      cases hmessage
      exact h

/-- The hardware gets the next byte, or the message is finished. -/
theorem TransmitInv.handleTransmitEmpty (h : i2c.TransmitInv) :
    (i2c.handleTransmitEmpty busy).TransmitInv := by
  rw [I2CDriver.handleTransmitEmpty]
  split
  · rename_i hbytes
    exact h.transmitByte fun queued hmemory => by rw [hbytes, hmemory]; rfl
  · split
    · rename_i hbytes
      exact h.transmitByte fun queued hmemory => by rw [hbytes, hmemory]; rfl
    · exact h.finishTx

/-- A missing acknowledge is recorded. -/
theorem TransmitInv.acknowledgeFailure (h : i2c.TransmitInv) :
    (i2c.act [.acknowledgeFailure]).TransmitInv :=
  TransmitState.act h (by simp [I2CAction.isByte, I2CAction.handed, I2CAction.consumed])

/-- A message that the queue accepts comes behind the others, with its own serial. -/
theorem TransmitInv.sendI2CMessage (h : i2c.TransmitInv) (msg : AccessoryMsg) :
    (i2c.sendI2CMessage msg busy).TransmitInv := by
  have hoffered : (i2c.offered msg).TransmitInv := TransmitState.accept h _ rfl
  rw [sendI2CMessage_eq]
  exact hoffered.startTx

/-! ### Steps -/

/-- Every branch of the interrupts keeps the invariant. -/
theorem Branch.transmitInv (hbranch : Branch i2c event i2c') (h : i2c.TransmitInv) :
    i2c'.TransmitInv := by
  cases hbranch with
  | sendI2CMessage msg busy => exact h.sendI2CMessage msg
  | freeI2CRXMessage => exact h
  | startBit hsb => exact h.handleStartBit
  | addressMatched hsb haddr hmsl => exact h
  | addressSent hsb haddr hmsl => exact h
  | receiveNotEmpty hsb haddr hrxNE =>
      obtain ⟨rxControl, heq⟩ := handleReceiveNotEmpty_eq i2c _
      rw [heq]
      exact h
  | transmitEmpty hsb haddr hrxNE htxE => exact h.handleTransmitEmpty
  | stop hsb haddr hrxNE htxE hstopF => exact h.endReception
  | noEvent hsb haddr hrxNE htxE hstopF => exact h
  | acknowledgeFailure haf => exact h.acknowledgeFailure.finishTx
  | arbitrationLost haf harlo => exact h
  | busErrorMaster haf harlo hberr hmsl => exact TransmitInv.resumeTxForce h
  | busErrorSlave haf harlo hberr hmsl => exact h.endReception
  | noError haf harlo hberr => exact h

/-- Such an interrupt does not come while a message is claimed and not started. -/
def StartedWhenFinished (i2c : I2CDriver) (event : I2CEvent) (_ : I2CDriver) : Prop :=
  event.MayFinishTx → i2c.txControl.isOccupied = true → i2c.txControl.bytesProcessed ≠ 0

/-- Every other interrupt leaves the messages in the queue. -/
theorem Branch.consumesNothing (hbranch : Branch i2c event i2c') (h : ¬ event.MayFinishTx) :
    ConsumesNothing i2c i2c' := by
  cases hbranch with
  | sendI2CMessage msg busy =>
      rw [I2CDriver.sendI2CMessage]
      exact consumesNothing_startTx
  | freeI2CRXMessage => exact .of_eq rfl
  | startBit hsb => exact .of_singleton rfl rfl
  | addressMatched hsb haddr hmsl => exact .of_eq rfl
  | addressSent hsb haddr hmsl => exact .of_eq rfl
  | receiveNotEmpty hsb haddr hrxNE =>
      obtain ⟨rxControl, heq⟩ := handleReceiveNotEmpty_eq i2c _
      exact .of_eq (by rw [heq])
  | transmitEmpty hsb haddr hrxNE htxE => exact absurd ⟨hsb, haddr, hrxNE, htxE⟩ h
  | stop hsb haddr hrxNE htxE hstopF => exact consumesNothing_endReception
  | noEvent hsb haddr hrxNE htxE hstopF => exact .of_eq rfl
  | acknowledgeFailure haf => exact absurd haf h
  | arbitrationLost haf harlo => exact .of_eq rfl
  | busErrorMaster haf harlo hberr hmsl =>
      exact @consumesNothing_resumeTxForce { i2c with txInProgress := false }
  | busErrorSlave haf harlo hberr hmsl => exact consumesNothing_endReception
  | noError haf harlo hberr => exact .of_eq rfl

/-- What such an interrupt does. -/
theorem Branch.of_mayFinishTx (hbranch : Branch i2c event i2c') (h : event.MayFinishTx) :
    ∃ busy, i2c' = i2c.handleTransmitEmpty busy ∨
      i2c' = (i2c.act [.acknowledgeFailure]).finishTx busy := by
  cases hbranch with
  | sendI2CMessage msg busy => exact h.elim
  | freeI2CRXMessage => exact h.elim
  | startBit hsb => cases hsb.symm.trans h.1
  | addressMatched hsb haddr hmsl => cases haddr.symm.trans h.2.1
  | addressSent hsb haddr hmsl => cases haddr.symm.trans h.2.1
  | receiveNotEmpty hsb haddr hrxNE => cases hrxNE.symm.trans h.2.2.1
  | transmitEmpty hsb haddr hrxNE htxE => exact ⟨_, .inl rfl⟩
  | stop hsb haddr hrxNE htxE hstopF => cases htxE.symm.trans h.2.2.2
  | noEvent hsb haddr hrxNE htxE hstopF => cases htxE.symm.trans h.2.2.2
  | acknowledgeFailure haf => exact ⟨_, .inr rfl⟩
  | arbitrationLost haf harlo => cases haf.symm.trans h
  | busErrorMaster haf harlo hberr hmsl => cases haf.symm.trans h
  | busErrorSlave haf harlo hberr hmsl => cases haf.symm.trans h
  | noError haf harlo hberr => cases haf.symm.trans h

/-- A claimed message is justified to leave the queue exactly when it is started. -/
theorem TransmitInv.forall_sentOrRefused_iff (h : i2c.TransmitInv) {before : List I2CAction}
    (hsent : ∀ queued, i2c.txControl.msgMemory = some queued →
      i2c.txControl.bytesProcessed ≠ 0 → SentOrRefused before (.consume queued))
    (hunsent : ∀ queued, i2c.txControl.msgMemory = some queued →
      i2c.txControl.bytesProcessed = 0 → ¬ SentOrRefused before (.consume queued)) :
    (∀ queued, i2c.txControl.msgMemory = some queued →
      SentOrRefused before (.consume queued)) ↔
      (i2c.txControl.isOccupied = true → i2c.txControl.bytesProcessed ≠ 0) := by
  constructor
  · intro hall hoccupied hbytes
    obtain ⟨queued, hmemory, -⟩ := h.claimed hoccupied
    exact hunsent queued hmemory hbytes (hall queued hmemory)
  · intro hstarted queued hmemory
    exact hsent queued hmemory (hstarted (TransmitState.peek_eq h hmemory).1)

/-- A step keeps the record justified exactly when it meets the condition. -/
theorem justified_step_iff (h : i2c.TransmitInv) (hrecord : Justified SentOrRefused i2c.actions) :
    Justified SentOrRefused (i2c.step event).actions ↔
      i2c.StartedWhenFinished event (i2c.step event) := by
  by_cases hfinish : event.MayFinishTx
  · have hcondition : i2c.StartedWhenFinished event (i2c.step event) ↔
        (i2c.txControl.isOccupied = true → i2c.txControl.bytesProcessed ≠ 0) :=
      ⟨fun hstarted => hstarted hfinish, fun hstarted _ => hstarted⟩
    rw [hcondition]
    obtain ⟨busy, hstep | hstep⟩ := (branch_step i2c event).of_mayFinishTx hfinish
    · rw [hstep, handleTransmitEmpty]
      split
      · rename_i hbytes
        have hsource : ConsumesNothing i2c (i2c.transmitByte
            (i2c.txControl.msgMemory.map (·.sourceByte))) := .of_singleton rfl rfl
        exact iff_of_true (hsource.justified_iff.mpr hrecord) fun _ => by omega
      split
      · rename_i hbytes
        have hdata : ConsumesNothing i2c (i2c.transmitByte
            (i2c.txControl.msgMemory.map (·.dataByte))) := .of_singleton rfl rfl
        exact iff_of_true (hdata.justified_iff.mpr hrecord) fun _ => by omega
      · rename_i hone htwo
        rw [justified_finishTx_iff, and_iff_right hrecord]
        refine h.forall_sentOrRefused_iff (fun queued hmemory hbytes => ?_)
          fun queued hmemory hbytes => h.not_sentOrRefused hmemory hbytes
        -- The counter is past the last byte.
        have htransfer := h.transfer queued hmemory
        have hlength : queued.transfer.length ≤ i2c.txControl.bytesProcessed := by
          show 3 ≤ _
          omega
        rw [List.take_of_length_le hlength] at htransfer
        intro message hmessage
        cases hmessage
        exact .inl htransfer
    · have hfailure : ConsumesNothing i2c (i2c.act [.acknowledgeFailure]) :=
        .of_singleton rfl rfl
      rw [hstep, justified_finishTx_iff, and_iff_right (hfailure.justified_iff.mpr hrecord)]
      refine h.forall_sentOrRefused_iff (fun queued hmemory hbytes => ?_)
        fun queued hmemory hbytes => h.acknowledgeFailure.not_sentOrRefused hmemory hbytes
      intro message hmessage
      cases hmessage
      exact .inr ⟨i2c.actions, _, rfl, Nat.pos_of_ne_zero hbytes, h.transfer queued hmemory⟩
  · have hother := (branch_step i2c event).consumesNothing hfinish
    exact iff_of_true (hother.justified_iff.mpr hrecord)
      fun h => absurd h hfinish

end I2CDriver

/-! ### The result -/

open I2CDriver

/-- A run consumes every message when it is sent or refused exactly when all steps meet the
condition. In every run the messages leave the queue in the order they were accepted, each at
most once, and their bytes are handed out in turn. -/
theorem i2cTxQueue_consumed (events : List I2CEvent) :
    (Along (total step) (fun _ _ i2c => Justified SentOrRefused i2c.actions) {} events ↔
      Along (total step) StartedWhenFinished {} events) ∧
    completed (events.foldl step {}).actions ++ (events.foldl step {}).i2cTxQueue.items
      = (events.foldl step {}).accepted ∧
    (events.foldl step {}).accepted.Nodup ∧
    Justified InTurn (events.foldl step {}).actions := by
  have hstart : I2CDriver.TransmitInv {} := .start
  -- The invariant holds at the end of the run, and it has the queue as a field.
  have hend : (events.foldl step {}).TransmitInv :=
    List.foldlRecOn events step hstart fun i2c h event _ => (branch_step i2c event).transmitInv h
  -- Along the run a message is consumed without a reason only where the condition fails.
  refine ⟨along_iff_of_invariant (total step) (J := I2CDriver.TransmitInv)
    (I := fun i2c => Justified SentOrRefused i2c.actions) (fun s event s' h hstep => ?_)
    (fun s event s' h hrecord hstep => ?_) events {} hstart .nil,
    hend.fifo, hend.nodup_accepted, hend.inTurn⟩
  · rw [run_total_eq_ok.mp hstep]
    exact (branch_step s event).transmitInv h
  · rw [run_total_eq_ok.mp hstep]
    exact justified_step_iff h hrecord

/-- A message is claimed and its START condition is pending. An acknowledge failure, or a request
for a byte, takes it from the queue, and no byte of it was handed out. -/
theorem i2cTxQueue_loses_message :
    let afterSend := fun interrupt => [.sendI2CMessage {} false, interrupt].foldl step {}
    let lost := fun i2c : I2CDriver => completed i2c.actions = [⟨0, {}⟩] ∧
      bytesHanded i2c.actions = [] ∧ ¬ Justified SentOrRefused i2c.actions
    lost (afterSend (.i2c1ErIsr { af := true } true)) ∧
      lost (afterSend (.i2c1EvIsr { txE := true } 0 true)) := by
  have hstart : I2CDriver.TransmitInv {} := .start
  have hsent : (I2CDriver.sendI2CMessage {} {} false).TransmitInv := hstart.sendI2CMessage {}
  have hrecord : Justified SentOrRefused (I2CDriver.sendI2CMessage {} {} false).actions :=
    consumesNothing_startTx.justified_iff.mpr .nil
  refine ⟨⟨by decide, by decide, fun h => ?_⟩, ⟨by decide, by decide, fun h => ?_⟩⟩
  · exact (@justified_step_iff _ (.i2c1ErIsr { af := true } true) hsent hrecord).mp h rfl rfl rfl
  · exact (@justified_step_iff _ (.i2c1EvIsr { txE := true } 0 true) hsent hrecord).mp h
      ⟨rfl, rfl, rfl, rfl⟩ rfl rfl

end C6021Light
