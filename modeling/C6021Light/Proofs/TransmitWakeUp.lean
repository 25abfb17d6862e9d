import C6021Light.Proofs.TransmitQueue

/-!
# `C6021Light.Proofs.TransmitWakeUp`: a claimed message waits for something

`startTx` claims a message before it tests the bus. When the bus is busy, the message stays
claimed without a START condition, and `startTx` does nothing as long as the block is claimed.
So something else has to start the message: a START condition that is pending, the end of a
transmission, or the end of a reception. `Waited` is the invariant that one of these is to come.

`KeepsWakeUp` is the condition on the steps that keep it, and it is exact. Without it a message
can stay in the block for ever, and no later message starts.
-/

set_option autoImplicit false

namespace C6021Light

open FaultRun

namespace I2CDriver

variable {i2c i2c' : I2CDriver} {busy : Bool} {queued : QueuedMessage} {event : I2CEvent}

/-- A START condition is pending, or a transmission or a reception is in progress. -/
def Active (i2c : I2CDriver) : Prop :=
  i2c.startPending = true ∨ i2c.txInProgress = true ∨ i2c.rxInProgress = true

/-- A call of `sendI2CMessage` issues a START condition, when it finds room in the queue, the
bus is not busy, and nothing is going on. -/
def SendStarts (i2c : I2CDriver) : Prop :=
  ∀ msg, 0 < i2c.i2cTxQueue.room → ¬ i2c.Active →
    ∃ new, (i2c.sendI2CMessage msg false).actions = i2c.actions ++ new ∧ .sendStart ∈ new

/-- A message does not wait in the control block for nothing. -/
def Waited (i2c : I2CDriver) : Prop := i2c.txControl.bufferOccupied = true → i2c.Active

/-- A free control block has nothing to send. -/
def Idle (i2c : I2CDriver) : Prop :=
  i2c.txControl.bufferOccupied = false → i2c.i2cTxQueue.items = []

/-! ### The condition -/

/-- The transmission can finish: the next message finds the bus not busy, or waits for a START
condition or for a reception. -/
def FinishKeepsWakeUp (i2c : I2CDriver) (busy : Bool) : Prop :=
  2 ≤ i2c.i2cTxQueue.items.length →
    busy = false ∨ i2c.startPending = true ∨ i2c.rxInProgress = true

/-- The reception can end: it got a valid message and finds the bus not busy, or a claimed
message waits for a START condition or for the end of its transmission. -/
def ReceptionKeepsWakeUp (i2c : I2CDriver) (busy : Bool) : Prop :=
  i2c.txControl.bufferOccupied = true →
    (i2c.rxControl.messageValid = true ∧ busy = false) ∨ i2c.startPending = true ∨
      i2c.txInProgress = true

/-- No message is left in the control block without something to wait for. -/
def KeepsWakeUp (i2c : I2CDriver) (event : I2CEvent) (_ : I2CDriver) : Prop :=
  match event with
  | .sendI2CMessage _ busy =>
      i2c.txControl.bufferOccupied = false → busy = false ∨ i2c.Active
  | .freeI2CRXMessage => True
  | .i2c1EvIsr status _ busy =>
      if status.sb || status.addr || status.rxNE then True
      else if status.txE && !status.btf then
        i2c.txControl.bytesProcessed ≠ 1 → i2c.txControl.bytesProcessed ≠ 2 →
          i2c.FinishKeepsWakeUp busy
      else status.stopF = true → i2c.ReceptionKeepsWakeUp busy
  | .i2c1ErIsr status busy =>
      if status.af then i2c.FinishKeepsWakeUp busy
      else if status.arlo then i2c.txControl.bufferOccupied = true → i2c.rxInProgress = true
      else status.berr = true → status.msl = false → i2c.ReceptionKeepsWakeUp busy

/-! ### The functions of the driver -/

/-- The queue has no front exactly when it is empty. -/
theorem peek_eq_none_iff : i2c.i2cTxQueue.peek = none ↔ i2c.i2cTxQueue.items = [] :=
  List.head?_eq_none_iff

/-- Resuming a claimed message starts it when the bus is not busy. -/
theorem active_resumeTx (hoccupied : i2c.txControl.bufferOccupied = true) :
    (i2c.resumeTx busy).Active ↔ busy = false ∨ i2c.Active := by
  rw [resumeTx, TransmissionControlBlock.isOccupied, hoccupied, Bool.true_and]
  cases busy with
  | false => exact iff_of_true (.inl rfl) (.inl rfl)
  | true => exact ⟨.inr, fun h => h.resolve_left (Bool.noConfusion ·)⟩

/-- Resuming does not touch the control block. -/
theorem bufferOccupied_resumeTx :
    (i2c.resumeTx busy).txControl.bufferOccupied = i2c.txControl.bufferOccupied := by
  rw [resumeTx]
  split <;> rfl

/-- A free block is claimed for a message of the queue, which needs something to wait for. -/
theorem waited_startTx_iff (hfree : i2c.txControl.bufferOccupied = false) :
    (i2c.startTx busy).Waited ↔ (i2c.i2cTxQueue.items ≠ [] → busy = false ∨ i2c.Active) := by
  cases hpeek : i2c.i2cTxQueue.peek with
  | none =>
      rw [startTx_of_empty hfree hpeek]
      exact iff_of_true (fun h => Bool.noConfusion h)
        fun hitems => absurd (peek_eq_none_iff.mp hpeek) hitems
  | some queued =>
      have hitems : i2c.i2cTxQueue.items ≠ [] := fun h =>
        Option.some_ne_none queued (hpeek.symm.trans (peek_eq_none_iff.mpr h))
      have hclaimed : (i2c.startTx busy).txControl.bufferOccupied = true := by
        rw [startTx_of_peek hfree hpeek, bufferOccupied_resumeTx]
      have hactive : (i2c.startTx busy).Active ↔ busy = false ∨ i2c.Active := by
        rw [startTx_of_peek hfree hpeek]
        exact active_resumeTx rfl
      exact ⟨fun h _ => hactive.mp (h hclaimed), fun h _ => hactive.mpr (h hitems)⟩

/-- A new message does not wait for nothing exactly when the block was claimed already, the bus is
not busy or something is active. -/
theorem waited_offered_iff (h : i2c.Waited) {msg : AccessoryMsg} :
    ((i2c.offered msg).startTx busy).Waited ↔
      (i2c.txControl.bufferOccupied = false → busy = false ∨ i2c.Active) := by
  cases hfree : i2c.txControl.bufferOccupied with
  | true =>
      have hclaimed : (i2c.offered msg).txControl.bufferOccupied = true := hfree
      rw [startTx_of_occupied hclaimed]
      exact iff_of_true h fun hfalse => Bool.noConfusion hfalse
  | false =>
      have hitems : (i2c.offered msg).i2cTxQueue.items ≠ [] :=
        i2c.i2cTxQueue.items_offer_ne_nil _ (by decide)
      rw [@waited_startTx_iff (i2c.offered msg) busy hfree]
      exact ⟨fun hstart _ => hstart hitems, fun hstart _ => hstart rfl⟩

/-- `startTx` leaves a free block only over an empty queue. -/
theorem idle_startTx : (i2c.startTx busy).Idle := by
  intro hend
  cases hfree : i2c.txControl.bufferOccupied with
  | true =>
      rw [startTx_of_occupied hfree, hfree] at hend
      cases hend
  | false =>
      cases hpeek : i2c.i2cTxQueue.peek with
      | none =>
          rw [startTx_of_empty hfree hpeek]
          exact peek_eq_none_iff.mp hpeek
      | some queued =>
          rw [startTx_of_peek hfree hpeek, bufferOccupied_resumeTx] at hend
          cases hend

/-- Resuming leaves it so. -/
theorem Idle.resumeTx (h : i2c.Idle) : (i2c.resumeTx busy).Idle := by
  rw [I2CDriver.resumeTx]
  split <;> exact h

/-- With a message claimed, `startTxFromISR` is `resumeTx`. -/
theorem startTxFromISR_of_occupied (h : i2c.txControl.bufferOccupied = true) :
    i2c.startTxFromISR busy = i2c.resumeTx busy := by
  rw [startTxFromISR, TransmissionControlBlock.isFree, TransmissionControlBlock.isOccupied, h]
  rfl

/-- With nothing to send, `startTxFromISR` starts nothing. -/
theorem waited_startTxFromISR_of_free (hidle : i2c.Idle)
    (hfree : i2c.txControl.bufferOccupied = false) : (i2c.startTxFromISR busy).Waited := by
  rw [startTxFromISR, TransmissionControlBlock.isFree, TransmissionControlBlock.isOccupied, hfree]
  exact (waited_startTx_iff hfree).mpr fun hitems => absurd (hidle hfree) hitems

/-- The message behind the claimed one is the next. -/
theorem items_afterConsume (hinv : i2c.TransmitInv) (hidle : i2c.Idle) :
    i2c.afterConsume.i2cTxQueue.items ≠ [] ↔ 2 ≤ i2c.i2cTxQueue.items.length := by
  have hqueue : i2c.afterConsume.i2cTxQueue
      = i2c.i2cTxQueue.consume i2c.txControl.msgMemory := rfl
  rw [hqueue]
  cases hmemory : i2c.txControl.msgMemory with
  | none =>
      have hfree : i2c.txControl.bufferOccupied = false := by
        refine eq_false_of_ne_true fun hoccupied => ?_
        obtain ⟨queued, hclaimed, -⟩ := hinv.claimed hoccupied
        exact absurd (hclaimed.symm.trans hmemory) (Option.some_ne_none queued)
      rw [BoundedFifo.consume_none, hidle hfree]
      exact iff_of_false (fun h => h rfl) (by decide)
  | some queued =>
      rw [BoundedFifo.items_eq_cons_consume (TransmitState.peek_eq hinv hmemory).2,
        List.length_cons, ← List.length_pos_iff]
      omega

/-- Behind a finished message the next one does not wait for nothing exactly under the condition on
the finish. -/
theorem waited_finishTx_iff (hinv : i2c.TransmitInv) (hidle : i2c.Idle) :
    (i2c.finishTx busy).Waited ↔ i2c.FinishKeepsWakeUp busy := by
  have hactive : i2c.afterConsume.Active ↔ i2c.startPending = true ∨ i2c.rxInProgress = true := by
    simp [Active, afterConsume]
  rw [finishTx_eq, waited_startTx_iff rfl, items_afterConsume hinv hidle, hactive]
  rfl

/-- Behind a reception a claimed message does not wait for nothing exactly under the condition on
the reception. -/
theorem waited_endReception_iff (hidle : i2c.Idle) :
    (i2c.endReception busy).Waited ↔ i2c.ReceptionKeepsWakeUp busy := by
  obtain ⟨rxControl, i2cRxQueue, heq⟩ := endReception_eq i2c busy
  have hactive : (i2c.received rxControl i2cRxQueue).Active ↔
      i2c.startPending = true ∨ i2c.txInProgress = true := by
    simp [Active, received]
  rw [heq]
  -- A free block waits for nothing. A claimed one needs the start that a complete message brings.
  cases hoccupied : i2c.txControl.bufferOccupied with
  | false =>
      refine iff_of_true ?_ fun h => absurd h (ne_true_of_eq_false hoccupied)
      split
      · exact waited_startTxFromISR_of_free hidle hoccupied
      · exact fun h => absurd h (ne_true_of_eq_false hoccupied)
  | true =>
      have hcondition : i2c.ReceptionKeepsWakeUp busy ↔
          (i2c.rxControl.messageValid = true ∧ busy = false) ∨ i2c.startPending = true ∨
            i2c.txInProgress = true := ⟨fun h => h hoccupied, fun h _ => h⟩
      have hclaimed : (i2c.received rxControl i2cRxQueue).txControl.bufferOccupied = true :=
        hoccupied
      rw [hcondition, ← hactive]
      -- Only a complete message is forwarded, and only then the transmission is started again.
      cases hvalid : i2c.rxControl.messageValid with
      | true =>
          rw [if_pos rfl, startTxFromISR_of_occupied hclaimed, eq_self, true_and,
            ← active_resumeTx hclaimed]
          exact ⟨fun h => h (bufferOccupied_resumeTx.trans hclaimed), fun h _ => h⟩
      | false =>
          rw [if_neg Bool.false_ne_true]
          exact ⟨fun h => .inr (h hclaimed), fun h _ => h.resolve_left fun hv => by cases hv.1⟩

/-! ### Steps -/

/-- No branch leaves a free block with something to send. -/
theorem Branch.idle (hbranch : Branch i2c event i2c') (h : i2c.Idle) : i2c'.Idle := by
  -- A reception may start a transmission, which leaves a message claimed or the queue empty.
  have hreception : ∀ busy, (i2c.endReception busy).Idle := by
    intro busy
    obtain ⟨rxControl, i2cRxQueue, heq⟩ := endReception_eq i2c busy
    rw [heq]
    split
    · rw [startTxFromISR]
      split
      · exact idle_startTx
      · exact @Idle.resumeTx (i2c.received rxControl i2cRxQueue) busy h
    · exact h
  cases hbranch with
  | sendI2CMessage msg busy => exact idle_startTx
  | freeI2CRXMessage => exact h
  | startBit hsb => exact h
  | addressMatched hsb haddr hmsl => exact h
  | addressSent hsb haddr hmsl => exact h
  | receiveNotEmpty hsb haddr hrxNE =>
      obtain ⟨rxControl, heq⟩ := handleReceiveNotEmpty_eq i2c _
      rw [heq]
      exact h
  | transmitEmpty hsb haddr hrxNE htxE =>
      rw [handleTransmitEmpty]
      split
      · exact h
      · split
        · exact h
        · exact idle_startTx
  | stop hsb haddr hrxNE htxE hstopF => exact hreception _
  | noEvent hsb haddr hrxNE htxE hstopF => exact h
  | acknowledgeFailure haf => exact idle_startTx
  | arbitrationLost haf harlo => exact h
  | busErrorMaster haf harlo hberr hmsl =>
      rw [resumeTxForce]
      split <;> exact h
  | busErrorSlave haf harlo hberr hmsl => exact hreception _
  | noError haf harlo hberr => exact h

/-- A step leaves every claimed message something to wait for exactly when it meets the
condition. -/
theorem Branch.waited_iff (hbranch : Branch i2c event i2c') (hinv : i2c.TransmitInv)
    (hidle : i2c.Idle) (h : i2c.Waited) : i2c'.Waited ↔ i2c.KeepsWakeUp event i2c' := by
  cases hbranch with
  | sendI2CMessage msg busy =>
      rw [sendI2CMessage_eq]
      exact waited_offered_iff h
  | freeI2CRXMessage => exact iff_of_true h trivial
  -- A start bit shows that the transmission goes on.
  | startBit hsb =>
      simp only [KeepsWakeUp, hsb, Bool.true_or, if_true, iff_true]
      exact fun _ => .inr (.inl rfl)
  | addressMatched hsb haddr hmsl =>
      simp only [KeepsWakeUp, haddr, Bool.or_true, Bool.true_or, if_true, iff_true]
      exact fun _ => .inr (.inr rfl)
  | addressSent hsb haddr hmsl =>
      simp only [KeepsWakeUp, haddr, Bool.or_true, Bool.true_or, if_true, iff_true]
      exact h
  | receiveNotEmpty hsb haddr hrxNE =>
      obtain ⟨rxControl, heq⟩ := handleReceiveNotEmpty_eq i2c _
      simp only [KeepsWakeUp, hrxNE, Bool.or_true, if_true, iff_true]
      rw [heq]
      exact h
  | transmitEmpty hsb haddr hrxNE htxE =>
      simp only [KeepsWakeUp, hsb, haddr, hrxNE, htxE, Bool.or_self, Bool.false_eq_true, if_false,
        if_true]
      rw [handleTransmitEmpty]
      split
      -- The source byte is next, and the transmission goes on.
      · rename_i hone
        exact iff_of_true h fun hne => absurd hone hne
      · rename_i hone
        split
        -- The data byte is next, and the transmission goes on.
        · rename_i htwo
          exact iff_of_true h fun _ hne => absurd htwo hne
        -- All bytes were sent, so the message is finished.
        · rename_i htwo
          rw [waited_finishTx_iff hinv hidle]
          exact ⟨fun hfinish _ _ => hfinish, fun hfinish => hfinish hone htwo⟩
  | stop hsb haddr hrxNE htxE hstopF =>
      simp only [KeepsWakeUp, hsb, haddr, hrxNE, htxE, hstopF, Bool.or_self, Bool.false_eq_true,
        if_false, true_implies]
      exact waited_endReception_iff hidle
  | noEvent hsb haddr hrxNE htxE hstopF =>
      simp only [KeepsWakeUp, hsb, haddr, hrxNE, htxE, hstopF, Bool.or_self, Bool.false_eq_true,
        if_false, false_implies, iff_true]
      exact h
  | acknowledgeFailure haf =>
      simp only [KeepsWakeUp, haf, if_true]
      exact @waited_finishTx_iff (i2c.act [.acknowledgeFailure]) _ hinv.acknowledgeFailure hidle
  | arbitrationLost haf harlo =>
      -- A lost arbitration ends the activity of the transmission, so only a reception is left to
      -- wait for.
      simp only [KeepsWakeUp, haf, harlo, Bool.false_eq_true, if_false, if_true]
      simp [Waited, Active]
  | busErrorMaster haf harlo hberr hmsl =>
      simp only [KeepsWakeUp, haf, harlo, hberr, hmsl, Bool.false_eq_true, Bool.true_eq_false,
        if_false, true_implies, false_implies, iff_true]
      rw [resumeTxForce]
      split
      · exact fun _ => .inl rfl
      · rename_i hfree
        exact fun hoccupied => absurd hoccupied hfree
  | busErrorSlave haf harlo hberr hmsl =>
      simp only [KeepsWakeUp, haf, harlo, hberr, hmsl, Bool.false_eq_true, if_false,
        true_implies]
      exact waited_endReception_iff hidle
  | noError haf harlo hberr =>
      simp only [KeepsWakeUp, haf, harlo, hberr, Bool.false_eq_true, if_false, false_implies,
        iff_true]
      exact h

/-! ### Calls of `sendI2CMessage` -/

/-- With a claimed block a new message only waits in the queue. -/
theorem actions_sendI2CMessage_of_occupied (h : i2c.txControl.bufferOccupied = true)
    (msg : AccessoryMsg) : (i2c.sendI2CMessage msg busy).actions = i2c.actions := by
  have hclaimed : (i2c.offered msg).txControl.bufferOccupied = true := h
  rw [sendI2CMessage_eq, startTx_of_occupied hclaimed]
  rfl

/-- With a free block and a bus that is not busy it starts. -/
theorem actions_sendI2CMessage_of_free (h : i2c.txControl.bufferOccupied = false)
    (msg : AccessoryMsg) :
    (i2c.sendI2CMessage msg false).actions = i2c.actions ++ [.sendStart] := by
  have hfree : (i2c.offered msg).txControl.bufferOccupied = false := h
  obtain ⟨queued, hpeek⟩ := exists_peek_offered i2c msg
  rw [sendI2CMessage_eq, startTx_of_peek hfree hpeek]
  rfl

/-- A driver where nothing waits for nothing starts each message it accepts. -/
theorem Waited.sendStarts (h : i2c.Waited) : i2c.SendStarts := by
  intro msg _ hactive
  have hfree : i2c.txControl.bufferOccupied = false :=
    eq_false_of_ne_true fun hoccupied => hactive (h hoccupied)
  exact ⟨[.sendStart], actions_sendI2CMessage_of_free hfree msg, List.mem_singleton_self _⟩

/-- With room in the queue, only a message that waits for nothing keeps a call from it. -/
theorem SendStarts.waited (h : i2c.SendStarts) (hroom : 0 < i2c.i2cTxQueue.room) :
    i2c.Waited := by
  intro hoccupied
  by_contra hactive
  obtain ⟨new, hactions, hstart⟩ := h {} hroom hactive
  rw [actions_sendI2CMessage_of_occupied hoccupied] at hactions
  rw [List.self_eq_append_right.mp hactions] at hstart
  exact List.not_mem_nil hstart

end I2CDriver

/-! ### The result -/

open I2CDriver

/-- A run whose steps all meet the condition reaches no state where a message blocks the queue.
When the queue has room in every state, no other run avoids it. -/
theorem sendI2CMessage_starts (events : List I2CEvent) :
    SendStarts {} ∧
    (Along (total step) KeepsWakeUp {} events →
      Along (total step) (fun _ _ i2c => i2c.SendStarts) {} events) ∧
    (Along (total step) (fun _ _ i2c => 0 < i2c.i2cTxQueue.room ∧ i2c.SendStarts) {} events →
      Along (total step) KeepsWakeUp {} events) := by
  have hwaited : I2CDriver.Waited {} := fun h => Bool.noConfusion h
  -- What waits is claimed. The invariant of the queue and `Idle` carry the equivalence along.
  have hiff : Along (total step) (fun _ _ i2c => i2c.Waited) {} events ↔
      Along (total step) KeepsWakeUp {} events := by
    refine along_iff_of_invariant (total step) (J := fun i2c => i2c.TransmitInv ∧ i2c.Idle)
      (I := I2CDriver.Waited) (fun i2c event i2c' h hstep => ?_)
      (fun i2c event i2c' h hwaited hstep => ?_) events {} ⟨.start, fun _ => rfl⟩ hwaited
    · rw [run_total_eq_ok.mp hstep]
      have hbranch := branch_step i2c event
      exact ⟨hbranch.transmitInv h.1, hbranch.idle h.2⟩
    · rw [run_total_eq_ok.mp hstep]
      exact (branch_step i2c event).waited_iff h.1 h.2 hwaited
  refine ⟨hwaited.sendStarts, fun halong => ?_, fun halong => hiff.mp ?_⟩
  -- Where every claimed message waits for something, a call starts what it accepts.
  · exact along_mono (total step) (fun _ _ _ h => h.sendStarts) events {} (hiff.mpr halong)
  -- With room, a call that starts nothing shows that a message waits for nothing.
  · exact along_mono (total step) (fun _ _ _ h => h.2.waited h.1) events {} halong

/-- A message is sent, and the bus is busy when it is finished. -/
theorem sendI2CMessage_starts_again :
    Along (total step) (fun _ _ i2c => i2c.SendStarts) {}
      [.sendI2CMessage {} false, .i2c1EvIsr { sb := true } 0 true,
        .i2c1EvIsr { txE := true } 0 true, .i2c1EvIsr { txE := true } 0 true,
        .i2c1EvIsr { txE := true } 0 true] := by
  refine (sendI2CMessage_starts _).2.1 ?_
  refine along_total_cons.mpr ⟨fun _ => .inl rfl, along_total_cons.mpr ⟨trivial, ?_⟩⟩
  refine along_total_cons.mpr ⟨fun hone => absurd rfl hone, ?_⟩
  refine along_total_cons.mpr ⟨fun _ htwo => absurd rfl htwo, ?_⟩
  exact along_total_cons.mpr ⟨fun _ _ hlength => absurd hlength (by decide), trivial⟩

/-- The bus is busy when the first message is sent, or when the first of two messages is refused.
The message in the control block has no START condition, and later calls give it none. -/
theorem sendI2CMessage_blocked :
    ¬ ([.sendI2CMessage {} true].foldl step {}).SendStarts ∧
      ¬ ([.sendI2CMessage {} false, .sendI2CMessage {} false, .i2c1EvIsr { sb := true } 0 true,
          .i2c1ErIsr { af := true } true].foldl step {}).SendStarts := by
  refine ⟨fun h => ?_, fun h => ?_⟩
  · have hactive := h.waited (by decide) rfl
    exact absurd hactive (by unfold I2CDriver.Active; decide)
  · have hactive := h.waited (by decide) rfl
    exact absurd hactive (by unfold I2CDriver.Active; decide)

end C6021Light
