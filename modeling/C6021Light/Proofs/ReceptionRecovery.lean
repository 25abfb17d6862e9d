import C6021Light.Proofs.Reception
import C6021Light.Lib.FaultRun

/-!
# `C6021Light.Proofs.ReceptionRecovery`: an address match at a full queue

An address match that finds the control block free claims it and asks the queue for a slot. When
the queue is full, the block stays claimed without memory. Such a block is `Stranded`: no byte
counts, so no STOP condition finds a complete message, and only a complete message releases the
block. `not_stranded_run_iff` says that a run strands the block exactly when one of its address
matches comes while the queue is full. From then on nothing is published, whatever the task
consumes. Without such a match, each complete reception is published.

`QueueLaw` is what the driver relies on: the queue has a slot for it as long as it is not full.
-/

set_option autoImplicit false

namespace C6021Light

open Journal FaultRun

/-! ### The bus and the messages -/

/-- What the events say on the bus. -/
def onBus (events : List I2CEvent) : List RxEvent :=
  (events.map (·.forReceiver)).filter fun event => match event with
    | .addressMatched | .receiveNotEmpty _ | .endReception => true
    | .freeI2CRXMessage | .other => false

/-- An address match on the bus is that of the first event, or of a later one. -/
theorem addressMatched_mem_onBus_cons {event : I2CEvent} {events : List I2CEvent} :
    .addressMatched ∈ onBus (event :: events) ↔
      event.forReceiver = .addressMatched ∨ .addressMatched ∈ onBus events := by
  simp [onBus, @eq_comm _ RxEvent.addressMatched]

/-- The message of an entry. -/
def RxAction.message {Slot : Type} : RxAction Slot → Option AccessoryMsg
  | .publish _ message => some message
  | _ => none

/-- The queue is an object of a library. When no slot is handed out, it has one exactly when it is
not full. -/
def QueueLaw {Slot : Type} (allocate : List (RxAction Slot) → Option Slot) : Prop :=
  ∀ journal, (∀ slot, ¬ HandedOut slot journal) →
    (allocate journal = none ↔ kI2CQueueSize ≤ (queueOf journal).length)

/-! ### One more entry -/

section

variable {Slot : Type} {journal : List (RxAction Slot)} {action : RxAction Slot} {slot : Slot}

/-- No slot is handed out at the start. -/
theorem not_handedOut_nil : ¬ HandedOut slot [] := by
  rintro ⟨earlier, later, h, -⟩
  exact absurd h.symm (by simp)

/-- A slot that is handed out after an entry was allocated by it, or was handed out before and not
published by it. -/
theorem HandedOut.of_append (h : HandedOut slot (journal ++ [action])) :
    action = .allocate slot ∨
      HandedOut slot journal ∧ ∀ message, action ≠ .publish slot message := by
  obtain ⟨earlier, later, heq, hlater⟩ := h
  rcases List.eq_nil_or_concat' later with rfl | ⟨later, last, rfl⟩
  · exact .inl (List.append_inj_right' heq rfl |> List.singleton_inj.mp)
  · rw [← List.cons_append, ← List.append_assoc] at heq
    obtain ⟨rfl, hlast⟩ := List.append_inj' heq rfl
    cases List.singleton_inj.mp hlast
    refine .inr ⟨⟨earlier, later, rfl, fun message hmem => hlater message ?_⟩, ?_⟩
    · exact List.mem_append_left _ hmem
    · rintro message rfl
      exact hlater message (List.mem_append_right _ List.mem_cons_self)

/-- An entry acts on the queue of the entries before it. -/
@[simp] theorem queueOf_append : queueOf (journal ++ [action]) = action.onQueue (queueOf journal) :=
  List.foldl_append

/-- Any entry but its allocation leaves the slot handed out before. -/
theorem HandedOut.of_append_of_ne (h : HandedOut slot (journal ++ [action]))
    (hne : action ≠ .allocate slot) : HandedOut slot journal :=
  (h.of_append.resolve_left hne).1

end

namespace I2CReceiver

section

variable {Slot : Type}

/-- All messages that were published, in order. -/
def published (receiver : I2CReceiver Slot) : List AccessoryMsg :=
  receiver.journal.filterMap (·.message)

/-- The block is claimed, and it has no memory. -/
def Stranded (receiver : I2CReceiver Slot) : Prop :=
  receiver.rxControl.bufferOccupied = true ∧ receiver.rxControl.msgMemory = none

end

section

variable {Slot : Type} [DecidableEq Slot]

/-- Once the task has consumed a message, the next complete reception is published: an address
match, two bytes and a STOP condition, when nothing else was published before. -/
def Recovers (allocate : List (RxAction Slot) → Option Slot) (receiver : I2CReceiver Slot) : Prop :=
  ∀ (events : List I2CEvent) (stop : I2CEvent) (source data : Byte),
    [.addressMatched, .receiveNotEmpty source, .receiveNotEmpty data] <:+ onBus events →
    stop.forReceiver = .endReception →
    let consumed := receiver.step allocate .freeI2CRXMessage
    let received := events.foldl (step allocate) consumed
    received.published = consumed.published →
      (received.step allocate stop).published = received.published ++
        [{ destination := 0x7F, source := source, data := data }]

/-- Nothing is published any more, whatever happens. -/
def DiscardsAll (allocate : List (RxAction Slot) → Option Slot) (receiver : I2CReceiver Slot) :
    Prop :=
  ∀ later : List I2CEvent, (later.foldl (step allocate) receiver).published = receiver.published

/-- Each address match of the run comes while the queue has room. -/
def MatchesFindRoom (allocate : List (RxAction Slot) → Option Slot) :
    I2CReceiver Slot → List I2CEvent → Prop :=
  Along (total (step allocate)) fun receiver event _ =>
    event.forReceiver = .addressMatched → receiver.i2cRxQueue.length < kI2CQueueSize

end

/-! ### The queue and the slot of the block -/

section

variable {Slot : Type} {receiver : I2CReceiver Slot}

/-- A slot of the block has its place in the queue, and no other slot is handed out. -/
structure QueueInv (receiver : I2CReceiver Slot) : Prop where
  bounded : receiver.i2cRxQueue.length ≤ kI2CQueueSize
  reserved : ∀ slot, receiver.rxControl.msgMemory = some slot →
    receiver.i2cRxQueue.length < kI2CQueueSize
  outstanding : ∀ slot, HandedOut slot receiver.journal → receiver.rxControl.msgMemory = some slot

/-- At the start the queue is empty and no slot is handed out. -/
theorem queueInv_start (memory : Slot → AccessoryMsg) : QueueInv { memory := memory } where
  bounded := Nat.zero_le _
  reserved _ h := absurd h.symm (Option.some_ne_none _)
  outstanding _ h := absurd h not_handedOut_nil

variable [DecidableEq Slot] {allocate : List (RxAction Slot) → Option Slot}

omit [DecidableEq Slot] in
/-- A free block gets a slot unless the queue is full. -/
theorem QueueInv.allocate_eq_none_iff (hlaw : QueueLaw allocate) (hinv : receiver.ReceiverInv)
    (h : receiver.QueueInv) (hfree : receiver.rxControl.bufferOccupied = false) :
    allocate (receiver.journal ++ [.addressMatched]) = none ↔
      kI2CQueueSize ≤ receiver.i2cRxQueue.length := by
  have hnone : ∀ slot, ¬ HandedOut slot (receiver.journal ++ [.addressMatched]) := by
    intro slot hslot
    have hmemory := h.outstanding slot (hslot.of_append_of_ne (by simp))
    exact absurd (hmemory.symm.trans (hinv.free hfree)) (Option.some_ne_none _)
  rw [hlaw _ hnone, queueOf_append]
  rfl

omit [DecidableEq Slot] in
/-- An entry that leaves the queue and its slots alone. -/
theorem QueueInv.append {receiver' : I2CReceiver Slot} (h : receiver.QueueInv)
    (action : RxAction Slot) (hjournal : receiver'.journal = receiver.journal ++ [action])
    (hqueue : action.onQueue receiver.i2cRxQueue = receiver.i2cRxQueue)
    (hallocate : ∀ slot, action ≠ .allocate slot)
    (hmemory : receiver'.rxControl.msgMemory = receiver.rxControl.msgMemory) :
    receiver'.QueueInv := by
  have hsame : receiver'.i2cRxQueue = receiver.i2cRxQueue := by
    rw [i2cRxQueue, hjournal, queueOf_append]
    exact hqueue
  refine ⟨hsame ▸ h.bounded, fun slot hslot => ?_, fun other hother => ?_⟩
  · exact hsame ▸ h.reserved slot (hmemory.symm.trans hslot)
  · rw [hjournal] at hother
    exact hmemory.trans (h.outstanding other (hother.of_append_of_ne (hallocate other)))

/-- Every branch keeps the invariant of the queue. -/
theorem QueueInv.of_branch {event : RxEvent} {receiver' : I2CReceiver Slot}
    (hlaw : QueueLaw allocate) (hinv : receiver.ReceiverInv) (h : receiver.QueueInv)
    (hbranch : RxBranch allocate receiver event receiver') : receiver'.QueueInv := by
  have hmatched : (receiver.act [.addressMatched]).QueueInv :=
    h.append .addressMatched rfl rfl (by simp) rfl
  cases hbranch with
  | allocated slot hfree hslot =>
      have hroom : receiver.i2cRxQueue.length < kI2CQueueSize := by
        refine Nat.lt_of_not_le fun hfull => Option.some_ne_none slot ?_
        rw [← hslot, h.allocate_eq_none_iff hlaw hinv hfree]
        exact hfull
      have hqueue : queueOf (receiver.journal ++ [.addressMatched] ++ [.allocate slot])
          = receiver.i2cRxQueue := by
        rw [queueOf_append, queueOf_append]
        rfl
      have hallocated : QueueInv { (receiver.act [.addressMatched]).act [.allocate slot] with
          rxControl := ⟨some slot, 1, true⟩ } := by
        refine ⟨?_, fun _ _ => ?_, fun other hother => ?_⟩
        · exact le_of_eq_of_le (congrArg List.length hqueue) h.bounded
        · exact lt_of_eq_of_lt (congrArg List.length hqueue) hroom
        · rcases HandedOut.of_append hother with hsame | ⟨hearlier, -⟩
          · exact congrArg some (RxAction.allocate.inj hsame)
          · exact absurd ((hmatched.outstanding other hearlier).symm.trans (hinv.free hfree))
              (Option.some_ne_none _)
      exact hallocated.append (.write slot) rfl rfl (by simp) rfl
  | kept slot hoccupied hslot => exact hmatched.append (.write slot) rfl rfl (by simp) hslot.symm
  | full hfree => exact h.append .addressMatched rfl rfl (by simp) (hinv.free hfree).symm
  | stillNoSlot hoccupied hnone => exact h.append .addressMatched rfl rfl (by simp) hnone.symm
  | stored data slot =>
      have hreceived : (receiver.act [.received data]).QueueInv :=
        h.append (.received data) rfl rfl (by simp) rfl
      exact hreceived.append (.write slot) rfl rfl (by simp) rfl
  | dropped data => exact h.append (.received data) rfl rfl (by simp) rfl
  | published slot hslot =>
      refine ⟨?_, fun _ hsome => absurd hsome.symm (Option.some_ne_none _), fun other hother => ?_⟩
      · show (queueOf (receiver.journal ++ [.publish slot (receiver.memory slot)])).length ≤ _
        rw [queueOf_append, RxAction.onQueue, List.length_append]
        exact h.reserved slot hslot
      · -- The slot that the block had is the one that was published.
        obtain heq | ⟨hearlier, hother'⟩ := HandedOut.of_append hother
        · cases heq
        · cases hslot.symm.trans (h.outstanding other hearlier)
          exact absurd rfl (hother' (receiver.memory slot))
  | consumed =>
      have hqueue : (queueOf (receiver.journal ++ [.consume])).length
          ≤ receiver.i2cRxQueue.length := by
        rw [queueOf_append, RxAction.onQueue, List.length_tail]
        exact Nat.sub_le _ 1
      refine ⟨hqueue.trans h.bounded, fun slot hslot => hqueue.trans_lt (h.reserved slot hslot),
        fun other hother => ?_⟩
      exact h.outstanding other (HandedOut.of_append_of_ne hother (by simp))
  | incomplete | nothingToConsume | other => exact h

/-- Both invariants. -/
structure Inv (receiver : I2CReceiver Slot) : Prop where
  reception : receiver.ReceiverInv
  queue : receiver.QueueInv

omit [DecidableEq Slot] in
/-- Both invariants hold at the start. -/
theorem inv_start (memory : Slot → AccessoryMsg) : Inv { memory := memory } :=
  ⟨receiverInv_start memory, queueInv_start memory⟩

/-- Every event keeps both invariants. -/
theorem Inv.step (hlaw : QueueLaw allocate) (h : receiver.Inv) (event : I2CEvent) :
    (receiver.step allocate event).Inv :=
  ⟨h.reception.step allocate event,
    h.queue.of_branch hlaw h.reception (h.reception.branch allocate event)⟩

/-- Both invariants hold after any events. -/
theorem Inv.run (hlaw : QueueLaw allocate) (h : receiver.Inv) (events : List I2CEvent) :
    (events.foldl (I2CReceiver.step allocate) receiver).Inv :=
  List.foldlRecOn events _ h fun _ h event _ => h.step hlaw event

/-! ### What is published -/

omit [DecidableEq Slot] in
/-- An entry without a message publishes nothing. -/
theorem published_append {journal : List (RxAction Slot)} {action : RxAction Slot}
    (h : action.message = none) :
    (journal ++ [action]).filterMap (·.message) = journal.filterMap (·.message) := by
  rw [List.filterMap_append, List.filterMap_cons_none h, List.filterMap_nil, List.append_nil]

/-- A step publishes the message of the block, or nothing. -/
theorem published_of_branch {event : RxEvent} {receiver' : I2CReceiver Slot}
    (hbranch : RxBranch allocate receiver event receiver') :
    receiver'.published = receiver.published ∨
      ∃ slot, receiver.rxControl.msgMemory = some slot ∧
        receiver'.published = receiver.published ++ [receiver.memory slot] := by
  cases hbranch with
  | allocated =>
      exact .inl <|
        (published_append rfl).trans ((published_append rfl).trans (published_append rfl))
  | kept | stored => exact .inl <| (published_append rfl).trans (published_append rfl)
  | full | stillNoSlot | dropped | consumed => exact .inl (published_append rfl)
  | published slot hslot => exact .inr ⟨slot, hslot, List.filterMap_append⟩
  | incomplete | nothingToConsume | other => exact .inl rfl

/-- Nothing that was published is taken back. -/
theorem length_published_le (hinv : receiver.ReceiverInv)
    (allocate : List (RxAction Slot) → Option Slot) (events : List I2CEvent) :
    receiver.published.length ≤ (events.foldl (step allocate) receiver).published.length := by
  induction events generalizing receiver with
  | nil => exact Nat.le_refl _
  | cons event events ih =>
      refine Nat.le_trans ?_ (ih (hinv.step allocate event))
      rcases published_of_branch (hinv.branch allocate event) with
        hsame | ⟨slot, -, hmore⟩
      · rw [hsame]
      · rw [hmore, List.length_append]
        exact Nat.le_add_right _ _

/-! ### The stranded block -/

/-- A stranded block does not see the STOP condition, and nothing else releases it. -/
theorem Stranded.of_branch {event : RxEvent} {receiver' : I2CReceiver Slot}
    (h : receiver.Stranded) (hbranch : RxBranch allocate receiver event receiver') :
    receiver'.Stranded ∧ receiver'.published = receiver.published := by
  obtain ⟨hoccupied, hnone⟩ := h
  have hpublished : receiver'.published = receiver.published := by
    rcases published_of_branch hbranch with hsame | ⟨slot, hslot, -⟩
    · exact hsame
    · exact absurd (hslot.symm.trans hnone) (Option.some_ne_none _)
  refine ⟨?_, hpublished⟩
  cases hbranch with
  | allocated slot hfree => exact absurd (hfree.symm.trans hoccupied) Bool.false_ne_true
  | kept slot _ hslot | stored _ slot _ _ hslot | published slot hslot =>
      exact absurd (hslot.symm.trans hnone) (Option.some_ne_none _)
  | full | stillNoSlot => exact ⟨rfl, rfl⟩
  | dropped | consumed | incomplete | nothingToConsume | other => exact ⟨hoccupied, hnone⟩

/-- A stranded block stays stranded, and nothing is published any more. -/
theorem Stranded.run (hinv : receiver.ReceiverInv) (h : receiver.Stranded) (later : List I2CEvent) :
    (later.foldl (I2CReceiver.step allocate) receiver).Stranded ∧
      (later.foldl (I2CReceiver.step allocate) receiver).published = receiver.published := by
  induction later generalizing receiver with
  | nil => exact ⟨h, rfl⟩
  | cons event later ih =>
      obtain ⟨hstranded, hsame⟩ := h.of_branch (hinv.branch allocate event)
      rw [List.foldl_cons, ← hsame]
      exact ih (hinv.step allocate event) hstranded

/-- A step strands the block when it is an address match at a full queue. -/
theorem stranded_iff_of_branch {event : RxEvent} {receiver' : I2CReceiver Slot}
    (hlaw : QueueLaw allocate) (h : receiver.Inv) (hready : ¬ receiver.Stranded)
    (hbranch : RxBranch allocate receiver event receiver') :
    receiver'.Stranded ↔
      event = .addressMatched ∧ kI2CQueueSize ≤ receiver.i2cRxQueue.length := by
  cases hbranch with
  | allocated slot hfree hslot =>
      refine iff_of_false (fun hstranded => Option.some_ne_none slot hstranded.2) ?_
      rintro ⟨-, hfull⟩
      rw [← h.queue.allocate_eq_none_iff hlaw h.reception hfree, hslot] at hfull
      exact Option.some_ne_none slot hfull
  | kept slot _ hslot =>
      refine iff_of_false (fun hstranded => Option.some_ne_none slot hstranded.2) ?_
      exact fun hfull => Nat.not_lt_of_le hfull.2 (h.queue.reserved slot hslot)
  | full hfree hnone =>
      exact iff_of_true ⟨rfl, rfl⟩
        ⟨rfl, (h.queue.allocate_eq_none_iff hlaw h.reception hfree).mp hnone⟩
  | stillNoSlot hoccupied hnone => exact absurd ⟨hoccupied, hnone⟩ hready
  | published => exact iff_of_false (fun hstranded => Bool.false_ne_true hstranded.1) (by simp)
  | stored | dropped | incomplete | consumed | nothingToConsume | other =>
      exact iff_of_false hready (by simp)

/-- A run strands the block when one of its address matches comes at a full queue. -/
theorem not_stranded_run_iff (hlaw : QueueLaw allocate) {events : List I2CEvent} :
    ∀ {receiver : I2CReceiver Slot}, receiver.Inv → ¬ receiver.Stranded →
      (¬ (events.foldl (step allocate) receiver).Stranded ↔
        receiver.MatchesFindRoom allocate events) := by
  induction events with
  | nil => intro receiver _ hready; exact iff_of_true hready trivial
  | cons event events ih =>
      intro receiver h hready
      have hstep := stranded_iff_of_branch hlaw h hready
        (h.reception.branch allocate event)
      rw [MatchesFindRoom, along_total_cons, List.foldl_cons]
      by_cases hstranded : (receiver.step allocate event).Stranded
      · -- The block stays stranded.
        obtain ⟨hmatch, hfull⟩ := hstep.mp hstranded
        exact iff_of_false
          (fun hrun => hrun (hstranded.run (h.step hlaw event).reception events).1)
          fun hroom => absurd (hroom.1 hmatch) (Nat.not_lt_of_le hfull)
      · rw [ih (h.step hlaw event) hstranded]
        refine (and_iff_right fun hmatch => ?_).symm
        exact Nat.lt_of_not_le fun hfull => hstranded (hstep.mpr ⟨hmatch, hfull⟩)

/-! ### Complete receptions -/

/-- What the bus says to the bytes behind the last address match. -/
def onBytes (bytes : List Byte) : RxEvent → List Byte
  | .addressMatched => []
  | .receiveNotEmpty data => bytes ++ [data]
  | _ => bytes

/-- A step counts the bytes since the last match as the bus does. -/
theorem bytesSinceMatch_of_branch {event : RxEvent} {receiver' : I2CReceiver Slot}
    (hbranch : RxBranch allocate receiver event receiver') :
    bytesSinceMatch receiver'.journal = onBytes (bytesSinceMatch receiver.journal) event := by
  have happend : ∀ {journal : List (RxAction Slot)} {action : RxAction Slot},
      action ≠ .addressMatched → action.byte = none →
        bytesSinceMatch (journal ++ [action]) = bytesSinceMatch journal := by
    intro journal action hne hbyte
    rw [bytesSinceMatch_append hne, hbyte]
    exact List.append_nil _
  cases hbranch with
  | allocated =>
      exact (happend (by simp) rfl).trans
        ((happend (by simp) rfl).trans bytesSinceMatch_addressMatched)
  | kept => exact (happend (by simp) rfl).trans bytesSinceMatch_addressMatched
  | full | stillNoSlot => exact bytesSinceMatch_addressMatched
  | stored => exact (happend (by simp) rfl).trans (bytesSinceMatch_append (by simp))
  | dropped => exact bytesSinceMatch_append (by simp)
  | published | consumed => exact happend (by simp) rfl
  | incomplete | nothingToConsume | other => rfl

/-- So do any events. -/
theorem bytesSinceMatch_run (hinv : receiver.ReceiverInv) (events : List I2CEvent) :
    bytesSinceMatch (events.foldl (I2CReceiver.step allocate) receiver).journal
      = (onBus events).foldl onBytes (bytesSinceMatch receiver.journal) := by
  induction events generalizing receiver with
  | nil => rfl
  | cons event events ih =>
      rw [List.foldl_cons, ih (hinv.step allocate event),
        bytesSinceMatch_of_branch (hinv.branch allocate event), onBus, onBus, List.map_cons]
      cases event.forReceiver <;> rfl

/-- Without a publication the queue does not grow, and the block stays claimed. -/
theorem claimed_of_branch {event : RxEvent} {receiver' : I2CReceiver Slot}
    (hbranch : RxBranch allocate receiver event receiver')
    (hsame : receiver'.published = receiver.published) :
    receiver'.i2cRxQueue.length ≤ receiver.i2cRxQueue.length ∧
      (receiver.rxControl.bufferOccupied = true ∨ event = .addressMatched →
        receiver'.rxControl.bufferOccupied = true) := by
  -- Only a publication makes the queue longer or frees the block.
  cases hbranch with
  | allocated =>
      refine ⟨Nat.le_of_eq (congrArg List.length ?_), fun _ => rfl⟩
      exact queueOf_append.trans (queueOf_append.trans queueOf_append)
  | kept =>
      exact ⟨Nat.le_of_eq (congrArg List.length (queueOf_append.trans queueOf_append)),
        fun _ => rfl⟩
  | full | stillNoSlot =>
      exact ⟨Nat.le_of_eq (congrArg List.length queueOf_append), fun _ => rfl⟩
  | stored =>
      refine ⟨Nat.le_of_eq (congrArg List.length (queueOf_append.trans queueOf_append)),
        fun h => h.resolve_right (by simp)⟩
  | dropped =>
      exact ⟨Nat.le_of_eq (congrArg List.length queueOf_append),
        fun h => h.resolve_right (by simp)⟩
  -- A publication is excluded.
  | published slot =>
      have hmore : receiver.published ++ [receiver.memory slot] = receiver.published :=
        List.filterMap_append.symm.trans hsame
      exact absurd (List.append_right_eq_self.mp hmore) (by simp)
  | consumed =>
      refine ⟨?_, fun h => h.resolve_right (by simp)⟩
      refine (congrArg List.length queueOf_append).trans_le ?_
      rw [RxAction.onQueue, List.length_tail]
      exact Nat.sub_le _ 1
  | incomplete | nothingToConsume | other =>
      exact ⟨Nat.le_refl _, fun h => h.resolve_right (by simp)⟩

/-- While nothing is published, a queue with room keeps it. So the block gets a slot with the first
address match, and it keeps it. -/
theorem claimed_run (hlaw : QueueLaw allocate) {events : List I2CEvent} :
    ∀ {receiver : I2CReceiver Slot}, receiver.Inv → ¬ receiver.Stranded →
      receiver.i2cRxQueue.length < kI2CQueueSize →
      (events.foldl (I2CReceiver.step allocate) receiver).published = receiver.published →
      ¬ (events.foldl (I2CReceiver.step allocate) receiver).Stranded ∧
        (receiver.rxControl.bufferOccupied = true ∨ .addressMatched ∈ onBus events →
          (events.foldl (I2CReceiver.step allocate) receiver).rxControl.bufferOccupied = true) := by
  -- The induction is on the events. Publications are only added, so none was made in between
  -- either.
  induction events with
  | nil =>
      intro receiver _ hready _ _
      exact ⟨hready, fun h => h.resolve_right (by simp [onBus])⟩
  | cons event events ih =>
      intro receiver h hready hroom hsame
      have hbranch := h.reception.branch allocate event
      have hinv := h.step hlaw event
      have hsame₁ : (receiver.step allocate event).published = receiver.published := by
        rcases published_of_branch hbranch with hsame₁ | ⟨slot, -, hmore⟩
        · exact hsame₁
        · have hle := length_published_le hinv.reception allocate events
          rw [List.foldl_cons] at hsame
          rw [hsame, hmore, List.length_append] at hle
          exact absurd hle (by simp)
      -- The first step leaves the queue with room, and so the block is not stranded behind it.
      obtain ⟨hqueue, hclaimed⟩ := claimed_of_branch hbranch hsame₁
      have hready₁ : ¬ (receiver.step allocate event).Stranded := fun hstranded =>
        Nat.not_lt_of_le ((stranded_iff_of_branch hlaw h hready hbranch).mp hstranded).2 hroom
      obtain ⟨hready', hclaimed'⟩ :=
        ih hinv hready₁ (hqueue.trans_lt hroom) (hsame.trans hsame₁.symm)
      refine ⟨hready', fun hoccupied => hclaimed' ?_⟩
      rw [addressMatched_mem_onBus_cons, ← or_assoc] at hoccupied
      exact hoccupied.imp_left hclaimed

/-- A complete message of the block is published. -/
theorem published_of_complete (h : receiver.ReceiverInv) {slot : Slot} {source data : Byte}
    {stop : I2CEvent} (hslot : receiver.rxControl.msgMemory = some slot)
    (hbytes : bytesSinceMatch receiver.journal = [source, data])
    (hstop : stop.forReceiver = .endReception) :
    (receiver.step allocate stop).published = receiver.published ++
      [{ destination := 0x7F, source := source, data := data }] := by
  have hheld := h.holding slot hslot
  have hcomplete : receiver.rxControl.bytesProcessed = 3 ∧
      receiver.memory slot = { destination := 0x7F, source := source, data := data } := by
    -- Two bytes behind the address are a complete message.
    obtain ⟨hdestination, ⟨-, hnone⟩ | ⟨-, hone⟩ | ⟨hthree, htwo⟩⟩ := hheld.fits
    · simp [hbytes] at hnone
    · simp [hbytes] at hone
    · rw [hbytes] at htwo
      obtain ⟨hsource, hdata⟩ : source = (receiver.memory slot).source ∧
          data = (receiver.memory slot).data := by simpa using htwo
      refine ⟨hthree, ?_⟩
      rw [hsource, hdata, ← hdestination]
  have hbranch := h.branch allocate stop
  rw [hstop] at hbranch
  generalize receiver.step allocate stop = receiver' at hbranch
  -- The end of a reception publishes what is complete.
  cases hbranch with
  | published slot' hslot' =>
      cases hslot.symm.trans hslot'
      rw [← hcomplete.2]
      exact List.filterMap_append
  | incomplete hvalid =>
      rw [TransmissionControlBlock.messageValid, TransmissionControlBlock.isOccupied,
        hheld.occupied, hcomplete.1] at hvalid
      exact absurd hvalid (by decide)

/-- A block that is not stranded recovers. -/
theorem recovers_of_not_stranded (hlaw : QueueLaw allocate) (h : receiver.Inv)
    (hready : ¬ receiver.Stranded) : receiver.Recovers allocate := by
  intro events stop source data hbus hstop consumed received hsame
  have hconsumed : consumed.Inv := h.step hlaw _
  have hbranch := h.reception.branch allocate .freeI2CRXMessage
  have hready' : ¬ consumed.Stranded := fun hstranded => by
    have := (stranded_iff_of_branch hlaw h hready hbranch).mp hstranded
    exact absurd this.1 (by simp [I2CEvent.forReceiver])
  have hroom : consumed.i2cRxQueue.length < kI2CQueueSize := by
    show (receiver.freeI2CRXMessage).i2cRxQueue.length < kI2CQueueSize
    rw [freeI2CRXMessage]
    split
    · rename_i hempty
      rw [List.isEmpty_iff.mp hempty]
      exact Nat.succ_pos _
    · rename_i hnonempty
      show (queueOf (receiver.journal ++ [.consume])).length < kI2CQueueSize
      rw [queueOf_append, RxAction.onQueue, List.length_tail]
      refine Nat.sub_one_lt_of_le (List.length_pos_iff.mpr fun hempty => ?_) h.queue.bounded
      exact hnonempty (List.isEmpty_iff.mpr hempty)
  obtain ⟨earlier, hearlier⟩ := hbus
  obtain ⟨hready, hclaimed⟩ := claimed_run hlaw hconsumed hready' hroom hsame
  have hoccupied := hclaimed (.inr (by simp [← hearlier]))
  obtain ⟨slot, hslot⟩ := Option.ne_none_iff_exists'.mp fun hnone => hready ⟨hoccupied, hnone⟩
  refine published_of_complete (hconsumed.reception.run allocate events) hslot ?_ hstop
  rw [bytesSinceMatch_run hconsumed.reception, ← hearlier, List.foldl_append]
  rfl

/-- Who recovers does not discard everything: an address match, two bytes and a STOP condition
show it. -/
theorem Recovers.not_discardsAll (h : receiver.Recovers allocate) :
    ¬ receiver.DiscardsAll allocate := by
  intro hdiscards
  let reception : List I2CEvent :=
    [.i2c1EvIsr { addr := true } 0 false, .i2c1EvIsr { rxNE := true } 0x10 false,
      .i2c1EvIsr { rxNE := true } 0x21 false]
  let stop : I2CEvent := .i2c1EvIsr { stopF := true } 0 false
  have hconsumed := hdiscards [.freeI2CRXMessage]
  have hreceived := hdiscards (.freeI2CRXMessage :: reception)
  have hstopped := hdiscards (.freeI2CRXMessage :: reception ++ [stop])
  have hpublished := h reception stop 0x10 0x21 List.suffix_rfl rfl
    (hreceived.trans hconsumed.symm)
  have hnone : _ ++ [_] = _ := hpublished.symm.trans (hstopped.trans hreceived.symm)
  exact absurd (List.append_right_eq_self.mp hnone) (by simp)

/-- The receiver recovers in the states of the runs whose address matches all find room in the
queue. In all other runs nothing is published any more. -/
theorem recovers_iff (hlaw : QueueLaw allocate) (memory : Slot → AccessoryMsg)
    (events : List I2CEvent) :
    let start : I2CReceiver Slot := { memory := memory }
    let receiver := events.foldl (I2CReceiver.step allocate) start
    (receiver.Recovers allocate ↔ start.MatchesFindRoom allocate events) ∧
      (¬ receiver.DiscardsAll allocate ↔ start.MatchesFindRoom allocate events) := by
  intro start receiver
  have hinv : receiver.Inv := (inv_start memory).run hlaw events
  have hready : ¬ start.Stranded := fun hstranded => Bool.false_ne_true hstranded.1
  -- A run strands the block exactly when a match finds no room.
  rw [← not_stranded_run_iff hlaw (inv_start memory) hready]
  have hrecovers : ¬ receiver.Stranded → receiver.Recovers allocate :=
    recovers_of_not_stranded hlaw hinv
  -- A stranded block stays so, and discards everything.
  have hdiscards : ¬ receiver.DiscardsAll allocate → ¬ receiver.Stranded := fun h hstranded =>
    h fun later => (hstranded.run hinv.reception later).2
  exact ⟨⟨fun h => hdiscards h.not_discardsAll, hrecovers⟩,
    ⟨hdiscards, fun h => (hrecovers h).not_discardsAll⟩⟩

end

/-! ### A ring of slots -/

/-- The slots of a ring buffer, in their order. -/
def ringAllocate (journal : List (RxAction Nat)) : Option Nat :=
  if (queueOf journal).length < kI2CQueueSize then
    some ((journal.filter fun action => match action with
      | .allocate _ => true
      | _ => false).length % kI2CQueueSize)
  else none

/-- The ring hands out a slot exactly when it is not full. -/
theorem queueLaw_ringAllocate : QueueLaw ringAllocate := by
  intro journal _
  rw [ringAllocate]
  split
  · exact iff_of_false (Option.some_ne_none _) (Nat.not_le_of_lt ‹_›)
  · exact iff_of_true rfl (Nat.le_of_not_lt ‹_›)

/-- A complete reception. -/
def reception : List I2CEvent :=
  [.i2c1EvIsr { addr := true } 0 false, .i2c1EvIsr { rxNE := true } 0x10 false,
    .i2c1EvIsr { rxNE := true } 0x21 false, .i2c1EvIsr { stopF := true } 0 false]

/-- After one reception the receiver is ready for the next one. -/
theorem recovers_reception :
    let receiver := reception.foldl (I2CReceiver.step ringAllocate) { memory := fun _ => {} }
    receiver.Recovers ringAllocate ∧ ¬ receiver.DiscardsAll ringAllocate := by
  have hroom : MatchesFindRoom ringAllocate { memory := fun _ => {} } reception := by
    refine along_total_cons.mpr ⟨fun _ => by decide, ?_⟩
    refine along_total_cons.mpr ⟨fun h => absurd h (by decide), ?_⟩
    refine along_total_cons.mpr ⟨fun h => absurd h (by decide), ?_⟩
    exact along_total_cons.mpr ⟨fun h => absurd h (by decide), trivial⟩
  have h := recovers_iff queueLaw_ringAllocate (fun _ => {}) reception
  exact ⟨h.1.mpr hroom, h.2.mpr hroom⟩

/-- Ten receptions that nobody consumes, and an address match. -/
def receptionsAndMatch : List I2CEvent :=
  (List.replicate 10 reception).flatten ++ [.i2c1EvIsr { addr := true } 0 false]

/-- Behind ten receptions the match strands the block; the task still has a message to consume. -/
theorem stranded_receptionsAndMatch :
    let receiver := receptionsAndMatch.foldl (I2CReceiver.step ringAllocate)
      { memory := fun _ => {} }
    (receiver.rxControl.bufferOccupied = true ∧ receiver.rxControl.msgMemory = none) ∧
      (receiver.step ringAllocate .freeI2CRXMessage).i2cRxQueue.length = 9 := by
  set_option maxRecDepth 8000 in
  decide

/-- After them, each reception is discarded, even when the task has consumed a message. -/
theorem not_recovers_full_queue :
    let receiver := receptionsAndMatch.foldl (I2CReceiver.step ringAllocate)
      { memory := fun _ => {} }
    ¬ receiver.Recovers ringAllocate ∧ receiver.DiscardsAll ringAllocate ∧
      (receiver.step ringAllocate .freeI2CRXMessage).i2cRxQueue.length = 9 := by
  intro receiver
  have hinv := (receiverInv_start fun _ => {}).run ringAllocate receptionsAndMatch
  obtain ⟨hstranded, hlength⟩ := stranded_receptionsAndMatch
  have hdiscards : receiver.DiscardsAll ringAllocate := fun later =>
    (Stranded.run hinv hstranded later).2
  exact ⟨fun h => h.not_discardsAll hdiscards, hdiscards, hlength⟩

end I2CReceiver

end C6021Light
