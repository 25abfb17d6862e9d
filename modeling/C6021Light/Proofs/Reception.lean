import C6021Light.Hal.I2CReceiver

/-!
# `C6021Light.Proofs.Reception`: received messages are complete

A reception can stop at any byte, and the next address match goes on with the slot of the one
before. `ReceiverInv` is the invariant of all orders of events. While the block has a slot, the
queue has handed it out and it is not published, and the first `bytesProcessed` bytes of the message
in it are those behind the last address match (`Fits`). A block without a slot counts no bytes, so
it never holds a complete message.
-/

set_option autoImplicit false

namespace C6021Light

open Journal

/-! ### Reading the journal -/

namespace RxAction

variable {Slot : Type}

/-- A byte of the bus. -/
def byte : RxAction Slot → Option Byte
  | .received data => some data
  | _ => none

end RxAction

section

variable {Slot : Type} {journal : List (RxAction Slot)} {action : RxAction Slot} {slot : Slot}

/-- The entries behind the last address match. -/
def sinceMatch (journal : List (RxAction Slot)) : List (RxAction Slot) :=
  journal.foldl (fun since action => match action with
    | .addressMatched => []
    | action => since ++ [action]) []

/-- The bytes behind the last address match. -/
def bytesSinceMatch (journal : List (RxAction Slot)) : List Byte :=
  (sinceMatch journal).filterMap (·.byte)

/-- Nothing was published behind the last address match. -/
def Unpublished (journal : List (RxAction Slot)) : Prop :=
  ∀ slot message, .publish slot message ∉ sinceMatch journal

/-- The queue has handed out the slot, and it was not published since. -/
def HandedOut (slot : Slot) (journal : List (RxAction Slot)) : Prop :=
  ∃ earlier later, journal = earlier ++ .allocate slot :: later ∧
    ∀ message, .publish slot message ∉ later

/-- A published message is that of the last address match: our address, and the first two bytes
behind it. It is the only one of this match. A write goes to a slot that the driver has. -/
def Allowed (before : List (RxAction Slot)) : RxAction Slot → Prop
  | .publish _ message =>
      .addressMatched ∈ before ∧ message.destination = 0x7F ∧
        (bytesSinceMatch before).take 2 = [message.source, message.data] ∧ Unpublished before
  | .write slot => HandedOut slot before
  | _ => True

/-- An entry comes behind the last address match, unless it is one. -/
theorem sinceMatch_append_of_ne (h : action ≠ .addressMatched) :
    sinceMatch (journal ++ [action]) = sinceMatch journal ++ [action] := by
  rw [sinceMatch, List.foldl_append]
  cases action with
  | addressMatched => exact absurd rfl h
  | received | allocate | write | publish | consume => rfl

/-- Behind a match there are no bytes yet. -/
@[simp] theorem bytesSinceMatch_addressMatched :
    bytesSinceMatch (journal ++ [.addressMatched]) = [] := by
  rw [bytesSinceMatch, sinceMatch, List.foldl_append]
  rfl

/-- Any other entry adds its byte, if it has one. -/
@[simp] theorem bytesSinceMatch_append (h : action ≠ .addressMatched) :
    bytesSinceMatch (journal ++ [action])
      = bytesSinceMatch journal ++ (action.byte).toList := by
  rw [bytesSinceMatch, sinceMatch_append_of_ne h, List.filterMap_append]
  cases action <;> rfl

/-- Behind a match nothing was published yet. -/
theorem unpublished_addressMatched : Unpublished (journal ++ [.addressMatched]) := by
  intro slot message h
  rw [sinceMatch, List.foldl_append] at h
  cases h

/-- An entry that does not publish leaves it so. -/
theorem Unpublished.append (h : Unpublished journal)
    (hne : ∀ slot message, action ≠ .publish slot message) : Unpublished (journal ++ [action]) := by
  by_cases hmatch : action = .addressMatched
  · subst hmatch
    exact unpublished_addressMatched
  · intro slot message hmem
    rw [sinceMatch_append_of_ne hmatch, List.mem_append, List.mem_singleton] at hmem
    exact hmem.elim (h slot message) fun heq => hne slot message heq.symm

/-- An allocated slot is handed out. -/
theorem handedOut_allocate : HandedOut slot (journal ++ [.allocate slot]) :=
  ⟨journal, [], rfl, fun _ => List.not_mem_nil⟩

/-- It stays handed out until it is published. -/
theorem HandedOut.append (h : HandedOut slot journal)
    (hne : ∀ message, action ≠ .publish slot message) : HandedOut slot (journal ++ [action]) := by
  obtain ⟨earlier, later, rfl, hlater⟩ := h
  refine ⟨earlier, later ++ [action], by rw [List.append_assoc, List.cons_append], ?_⟩
  intro message hmem
  rw [List.mem_append, List.mem_singleton] at hmem
  exact hmem.elim (hlater message) fun heq => hne message heq.symm

end

/-! ### The invariant -/

/-- The first `bytesProcessed` bytes of the message are there. The address counts as a byte. -/
def Fits (bytes : List Byte) (bytesProcessed : Nat) (message : AccessoryMsg) : Prop :=
  message.destination = 0x7F ∧
    (bytesProcessed = 1 ∧ bytes = [] ∨
      bytesProcessed = 2 ∧ bytes = [message.source] ∨
      bytesProcessed = 3 ∧ bytes.take 2 = [message.source, message.data])

namespace I2CReceiver

variable {Slot : Type}

/-- The block has the slot, with the beginning of a message. -/
structure Holding (receiver : I2CReceiver Slot) (slot : Slot) : Prop where
  occupied : receiver.rxControl.bufferOccupied = true
  handedOut : HandedOut slot receiver.journal
  matched : .addressMatched ∈ receiver.journal
  unpublished : Unpublished receiver.journal
  fits : Fits (bytesSinceMatch receiver.journal) receiver.rxControl.bytesProcessed
    (receiver.memory slot)

/-- The invariant of the receiver: a block with a slot holds the beginning of a message, and every
entry of the journal is allowed. -/
structure ReceiverInv (receiver : I2CReceiver Slot) : Prop where
  free : receiver.rxControl.bufferOccupied = false → receiver.rxControl.msgMemory = none
  noSlot : receiver.rxControl.msgMemory = none → receiver.rxControl.bytesProcessed ≤ 1
  holding : ∀ slot, receiver.rxControl.msgMemory = some slot → receiver.Holding slot
  justified : Justified Allowed receiver.journal

/-- The invariant holds at start-up. -/
theorem receiverInv_start (memory : Slot → AccessoryMsg) :
    ReceiverInv { memory := memory } where
  free _ := rfl
  noSlot _ := Nat.zero_le 1
  holding _ h := absurd h.symm (Option.some_ne_none _)
  justified := .nil

variable {receiver : I2CReceiver Slot}

/-- A block without a slot holds no complete message. -/
theorem ReceiverInv.slot_of_messageValid (h : receiver.ReceiverInv)
    (hvalid : receiver.rxControl.messageValid = true) :
    ∃ slot, receiver.rxControl.msgMemory = some slot ∧ receiver.Holding slot ∧
      receiver.rxControl.bytesProcessed = 3 := by
  have hthree : receiver.rxControl.bytesProcessed = 3 :=
    of_decide_eq_true ((Bool.and_eq_true _ _).mp hvalid).2
  cases hslot : receiver.rxControl.msgMemory with
  | none =>
      have hone := h.noSlot hslot
      omega
  | some slot => exact ⟨slot, rfl, h.holding slot hslot, hthree⟩

/-- A consumed message does not concern the reception. -/
theorem ReceiverInv.act_consume (h : receiver.ReceiverInv) :
    (receiver.act [.consume]).ReceiverInv where
  free := h.free
  noSlot := h.noSlot
  holding slot hslot := by
    have hheld := h.holding slot hslot
    refine ⟨hheld.occupied, hheld.handedOut.append (by simp),
      List.mem_append_left _ hheld.matched,
      hheld.unpublished.append (by simp), ?_⟩
    show Fits (bytesSinceMatch (receiver.journal ++ [.consume])) _ _
    rw [bytesSinceMatch_append (by simp)]
    exact (List.append_nil _).symm ▸ hheld.fits
  justified := justified_append_singleton.mpr ⟨h.justified, trivial⟩

/-- A complete message may be published. -/
theorem ReceiverInv.publish (h : receiver.ReceiverInv) {slot : Slot}
    (hheld : receiver.Holding slot) (hthree : receiver.rxControl.bytesProcessed = 3) :
    ReceiverInv { receiver.act [.publish slot (receiver.memory slot)] with rxControl := {} } where
  free _ := rfl
  noSlot _ := Nat.zero_le 1
  holding _ hnone := absurd hnone.symm (Option.some_ne_none _)
  justified := by
    obtain ⟨hdestination, hbytes⟩ := hheld.fits
    refine justified_append_singleton.mpr ⟨h.justified, hheld.matched, hdestination, ?_,
      hheld.unpublished⟩
    rcases hbytes with ⟨hone, -⟩ | ⟨htwo, -⟩ | ⟨-, hbytes⟩
    · omega
    · omega
    · exact hbytes

/-- A byte for which there is no room in the message. -/
theorem ReceiverInv.act_received (h : receiver.ReceiverInv) (data : Byte)
    (hfull : ∀ slot, receiver.rxControl.msgMemory = some slot →
      receiver.rxControl.bytesProcessed = 3) :
    (receiver.act [.received data]).ReceiverInv where
  free := h.free
  noSlot := h.noSlot
  holding slot hslot := by
    have hheld := h.holding slot hslot
    refine ⟨hheld.occupied, hheld.handedOut.append (by simp),
      List.mem_append_left _ hheld.matched,
      hheld.unpublished.append (by simp), ?_⟩
    have hthree := hfull slot hslot
    obtain ⟨hdestination, hbytes⟩ := hheld.fits
    refine ⟨hdestination, .inr (.inr ⟨hthree, ?_⟩)⟩
    show (bytesSinceMatch (receiver.journal ++ [.received data])).take 2 = _
    rw [bytesSinceMatch_append (by simp)]
    rcases hbytes with ⟨hone, -⟩ | ⟨htwo, -⟩ | ⟨-, hbytes⟩
    · omega
    · omega
    · have hlength : 2 ≤ (bytesSinceMatch receiver.journal).length := by
        have := congrArg List.length hbytes
        rw [List.length_take] at this
        simp only [List.length_cons, List.length_nil] at this
        omega
      rw [List.take_append_of_le_length hlength]
      exact hbytes
  justified := justified_append_singleton.mpr ⟨h.justified, trivial⟩

/-- A block that holds a slot has the rest of the invariant. -/
theorem receiverInv_of_holding {slot : Slot} (hslot : receiver.rxControl.msgMemory = some slot)
    (hheld : receiver.Holding slot) (hjustified : Justified Allowed receiver.journal) :
    receiver.ReceiverInv where
  free hfree := absurd (hfree.symm.trans hheld.occupied) Bool.false_ne_true
  noSlot hnone := absurd (hnone.symm.trans hslot).symm (Option.some_ne_none _)
  holding slot' hslot' := by
    cases hslot.symm.trans hslot'
    exact hheld
  justified := hjustified

section

variable [DecidableEq Slot]

/-- A byte goes to the message. -/
theorem Holding.received {slot : Slot} (h : receiver.Holding slot) (data : Byte)
    {effect : AccessoryMsg → AccessoryMsg} {bytesProcessed : Nat}
    (hfits : Fits (bytesSinceMatch receiver.journal ++ [data]) bytesProcessed
      (effect (receiver.memory slot))) :
    Holding { (receiver.act [.received data]).write slot effect with
      rxControl := { receiver.rxControl with bytesProcessed := bytesProcessed } } slot where
  occupied := h.occupied
  handedOut := (h.handedOut.append (by simp)).append (by simp)
  matched := List.mem_append_left _ (List.mem_append_left _ h.matched)
  unpublished := (h.unpublished.append (by simp)).append (by simp)
  fits := by
    show Fits (bytesSinceMatch (receiver.journal ++ [.received data] ++ [.write slot]))
      bytesProcessed (Function.update receiver.memory slot (effect (receiver.memory slot)) slot)
    rw [bytesSinceMatch_append (by simp), bytesSinceMatch_append (by simp), Function.update_self]
    exact (List.append_nil _).symm ▸ hfits

omit [DecidableEq Slot] in
/-- The journal of a byte that is written is justified. -/
theorem justified_received {journal : List (RxAction Slot)} {slot : Slot} {data : Byte}
    (h : Justified Allowed journal) (hslot : HandedOut slot journal) :
    Justified Allowed (journal ++ [.received data] ++ [.write slot]) :=
  justified_append_singleton.mpr
    ⟨justified_append_singleton.mpr ⟨h, trivial⟩, hslot.append (by simp)⟩

/-- The address match goes on with a slot that the queue has handed out. -/
theorem holding_addressMatched (receiver : I2CReceiver Slot) {slot : Slot}
    (hslot : HandedOut slot receiver.journal) (hmatched : .addressMatched ∈ receiver.journal)
    (hunpublished : Unpublished receiver.journal) (hbytes : bytesSinceMatch receiver.journal = []) :
    Holding { receiver.write slot (fun message => { message with destination := kMyAddr }) with
      rxControl := ⟨some slot, 1, true⟩ } slot where
  occupied := rfl
  handedOut := hslot.append (by simp)
  matched := List.mem_append_left _ hmatched
  unpublished := hunpublished.append (by simp)
  fits := by
    show Fits (bytesSinceMatch (receiver.journal ++ [.write slot])) 1
      (Function.update receiver.memory slot _ slot)
    rw [bytesSinceMatch_append (by simp), hbytes, Function.update_self]
    exact ⟨rfl, .inl ⟨rfl, rfl⟩⟩

omit [DecidableEq Slot] in
/-- A block that has no slot waits for the next address match. -/
theorem receiverInv_of_noSlot (hnone : receiver.rxControl.msgMemory = none)
    (hbytes : receiver.rxControl.bytesProcessed ≤ 1) (h : Justified Allowed receiver.journal) :
    receiver.ReceiverInv where
  free _ := hnone
  noSlot _ := hbytes
  holding _ hsome := absurd (hsome.symm.trans hnone) (Option.some_ne_none _)
  justified := h

/-! ### Branches -/

/-- The branches of a step. -/
inductive RxBranch (allocate : List (RxAction Slot) → Option Slot) (receiver : I2CReceiver Slot) :
    RxEvent → I2CReceiver Slot → Prop
  | allocated (slot : Slot) (hfree : receiver.rxControl.bufferOccupied = false)
      (hslot : allocate (receiver.journal ++ [.addressMatched]) = some slot) :
      RxBranch allocate receiver .addressMatched
        { ((receiver.act [.addressMatched]).act [.allocate slot]).write slot
            (fun message => { message with destination := kMyAddr }) with
          rxControl := ⟨some slot, 1, true⟩ }
  /-- The block keeps the slot of a reception that did not end. -/
  | kept (slot : Slot) (hoccupied : receiver.rxControl.bufferOccupied = true)
      (hslot : receiver.rxControl.msgMemory = some slot) :
      RxBranch allocate receiver .addressMatched
        { (receiver.act [.addressMatched]).write slot
            (fun message => { message with destination := kMyAddr }) with
          rxControl := ⟨some slot, 1, true⟩ }
  | full (hfree : receiver.rxControl.bufferOccupied = false)
      (hnone : allocate (receiver.journal ++ [.addressMatched]) = none) :
      RxBranch allocate receiver .addressMatched
        { receiver.act [.addressMatched] with rxControl := ⟨none, 1, true⟩ }
  | stillNoSlot (hoccupied : receiver.rxControl.bufferOccupied = true)
      (hnone : receiver.rxControl.msgMemory = none) :
      RxBranch allocate receiver .addressMatched
        { receiver.act [.addressMatched] with rxControl := ⟨none, 1, true⟩ }
  | stored (data : Byte) (slot : Slot) (effect : AccessoryMsg → AccessoryMsg)
      (bytesProcessed : Nat) (hslot : receiver.rxControl.msgMemory = some slot)
      (hfits : Fits (bytesSinceMatch receiver.journal ++ [data]) bytesProcessed
        (effect (receiver.memory slot))) :
      RxBranch allocate receiver (.receiveNotEmpty data)
        { (receiver.act [.received data]).write slot effect with
          rxControl := { receiver.rxControl with bytesProcessed := bytesProcessed } }
  | dropped (data : Byte)
      (hfull : ∀ slot, receiver.rxControl.msgMemory = some slot →
        receiver.rxControl.bytesProcessed = 3) :
      RxBranch allocate receiver (.receiveNotEmpty data) (receiver.act [.received data])
  | published (slot : Slot) (hslot : receiver.rxControl.msgMemory = some slot)
      (hheld : receiver.Holding slot) (hthree : receiver.rxControl.bytesProcessed = 3) :
      RxBranch allocate receiver .endReception
        { receiver.act [.publish slot (receiver.memory slot)] with rxControl := {} }
  | incomplete (hvalid : receiver.rxControl.messageValid = false) :
      RxBranch allocate receiver .endReception receiver
  | consumed : RxBranch allocate receiver .freeI2CRXMessage (receiver.act [.consume])
  | nothingToConsume (hempty : receiver.i2cRxQueue = []) :
      RxBranch allocate receiver .freeI2CRXMessage receiver
  | other : RxBranch allocate receiver .other receiver

/-- An address match is one of its branches. -/
theorem branch_handleAddressMatched (receiver : I2CReceiver Slot)
    (allocate : List (RxAction Slot) → Option Slot) :
    RxBranch allocate receiver .addressMatched (receiver.handleAddressMatched allocate) := by
  -- The branches of the source: a block that is free or claimed, and a slot that is there or not.
  cases hoccupied : receiver.rxControl.bufferOccupied with
  | false =>
      cases hslot : allocate (receiver.journal ++ [.addressMatched]) with
      | none =>
          have heq : receiver.handleAddressMatched allocate
              = { receiver.act [.addressMatched] with rxControl := ⟨none, 1, true⟩ } := by
            simp [handleAddressMatched, act, hoccupied, hslot, TransmissionControlBlock.tryClaim]
          exact heq ▸ .full hoccupied hslot
      | some slot =>
          have heq : receiver.handleAddressMatched allocate
              = { ((receiver.act [.addressMatched]).act [.allocate slot]).write slot
                    (fun message => { message with destination := kMyAddr }) with
                  rxControl := ⟨some slot, 1, true⟩ } := by
            simp [handleAddressMatched, act, write, hoccupied, hslot,
              TransmissionControlBlock.tryClaim]
          exact heq ▸ .allocated slot hoccupied hslot
  | true =>
      cases hslot : receiver.rxControl.msgMemory with
      | none =>
          have heq : receiver.handleAddressMatched allocate
              = { receiver.act [.addressMatched] with rxControl := ⟨none, 1, true⟩ } := by
            simp [handleAddressMatched, act, hoccupied, hslot, TransmissionControlBlock.tryClaim]
          exact heq ▸ .stillNoSlot hoccupied hslot
      | some slot =>
          have heq : receiver.handleAddressMatched allocate
              = { (receiver.act [.addressMatched]).write slot
                    (fun message => { message with destination := kMyAddr }) with
                  rxControl := ⟨some slot, 1, true⟩ } := by
            simp [handleAddressMatched, act, write, hoccupied, hslot,
              TransmissionControlBlock.tryClaim]
          exact heq ▸ .kept slot hoccupied hslot

variable {allocate : List (RxAction Slot) → Option Slot}

/-- A received byte is one of its branches. -/
theorem ReceiverInv.branch_handleReceiveNotEmpty (h : receiver.ReceiverInv) (data : Byte) :
    RxBranch allocate receiver (.receiveNotEmpty data) (receiver.handleReceiveNotEmpty data) := by
  cases hslot : receiver.rxControl.msgMemory with
  | none =>
      have heq : receiver.handleReceiveNotEmpty data = receiver.act [.received data] := by
        simp [handleReceiveNotEmpty, act, hslot]
      exact heq ▸ .dropped data fun _ hsome =>
        absurd (hsome.symm.trans hslot) (Option.some_ne_none _)
  | some slot =>
      have hheld := h.holding slot hslot
      -- The byte is the first or the second one. A third has no place.
      obtain ⟨hdestination, ⟨hone, hbytes⟩ | ⟨htwo, hbytes⟩ | ⟨hthree, -⟩⟩ := hheld.fits
      · have heq : receiver.handleReceiveNotEmpty data
            = { (receiver.act [.received data]).write slot
                  (fun message => { message with source := data }) with
                rxControl := { receiver.rxControl with bytesProcessed := 2 } } := by
          simp [handleReceiveNotEmpty, act, write, hslot, hone,
            TransmissionControlBlock.isOccupied, hheld.occupied]
        refine heq ▸ .stored data slot _ 2 hslot ?_
        rw [hbytes]
        exact ⟨hdestination, .inr (.inl ⟨rfl, rfl⟩)⟩
      · have heq : receiver.handleReceiveNotEmpty data
            = { (receiver.act [.received data]).write slot
                  (fun message => { message with data := data }) with
                rxControl := { receiver.rxControl with bytesProcessed := 3 } } := by
          simp [handleReceiveNotEmpty, act, write, hslot, htwo,
            TransmissionControlBlock.isOccupied, hheld.occupied]
        refine heq ▸ .stored data slot _ 3 hslot ?_
        rw [hbytes]
        exact ⟨hdestination, .inr (.inr ⟨rfl, rfl⟩)⟩
      · have heq : receiver.handleReceiveNotEmpty data = receiver.act [.received data] := by
          simp [handleReceiveNotEmpty, act, hslot, hthree,
            TransmissionControlBlock.isOccupied, hheld.occupied]
        exact heq ▸ .dropped data fun _ _ => hthree

/-- The end of a reception is one of its branches. -/
theorem ReceiverInv.branch_forwardRx (h : receiver.ReceiverInv) :
    RxBranch allocate receiver .endReception receiver.forwardRx := by
  rw [forwardRx]
  cases hvalid : receiver.rxControl.messageValid with
  | false => exact .incomplete hvalid
  | true =>
      obtain ⟨slot, hslot, hheld, hthree⟩ := h.slot_of_messageValid hvalid
      rw [hslot]
      exact .published slot hslot hheld hthree

/-- Every step is one of the branches. -/
theorem ReceiverInv.branch (h : receiver.ReceiverInv)
    (allocate : List (RxAction Slot) → Option Slot) (event : I2CEvent) :
    RxBranch allocate receiver event.forReceiver (receiver.step allocate event) := by
  rw [step]
  cases event.forReceiver with
  | addressMatched => exact receiver.branch_handleAddressMatched allocate
  | receiveNotEmpty data => exact h.branch_handleReceiveNotEmpty data
  | endReception => exact h.branch_forwardRx
  | freeI2CRXMessage =>
      dsimp only
      rw [freeI2CRXMessage]
      split
      · exact .nothingToConsume (List.isEmpty_iff.mp ‹_›)
      · exact .consumed
  | other => exact .other

/-! ### Every order of events -/

/-- Every branch keeps the invariant. -/
theorem ReceiverInv.of_branch {event : RxEvent} {receiver' : I2CReceiver Slot}
    (h : receiver.ReceiverInv) (hbranch : RxBranch allocate receiver event receiver') :
    receiver'.ReceiverInv := by
  -- Each branch writes to the journal first, so its entries are justified before the block changes.
  have hjournal : Justified Allowed (receiver.journal ++ [.addressMatched]) :=
    justified_append_singleton.mpr ⟨h.justified, trivial⟩
  have hmatched : .addressMatched ∈ receiver.journal ++ [.addressMatched] :=
    List.mem_append_right _ List.mem_cons_self
  cases hbranch with
  -- The block is claimed with a new slot, and no byte has come yet.
  | allocated slot hfree hslot =>
      have hbytes :
          bytesSinceMatch (receiver.journal ++ [.addressMatched] ++ [.allocate slot]) = [] := by
        rw [bytesSinceMatch_append (by simp), bytesSinceMatch_addressMatched]
        rfl
      exact receiverInv_of_holding rfl
        (holding_addressMatched ((receiver.act [.addressMatched]).act [.allocate slot])
          handedOut_allocate (List.mem_append_left _ hmatched)
          (unpublished_addressMatched.append (by simp)) hbytes)
        (justified_append_singleton.mpr
          ⟨justified_append_singleton.mpr ⟨hjournal, trivial⟩, handedOut_allocate⟩)
  -- The block begins again with its old slot.
  | kept slot hoccupied hslot =>
      have hhanded : HandedOut slot (receiver.journal ++ [.addressMatched]) :=
        (h.holding slot hslot).handedOut.append (by simp)
      exact receiverInv_of_holding rfl
        (holding_addressMatched (receiver.act [.addressMatched]) hhanded hmatched
          unpublished_addressMatched bytesSinceMatch_addressMatched)
        (justified_append_singleton.mpr ⟨hjournal, hhanded⟩)
  | full | stillNoSlot => exact receiverInv_of_noSlot rfl (Nat.le_refl 1) hjournal
  | stored data slot effect bytesProcessed hslot hfits =>
      have hheld := h.holding slot hslot
      exact receiverInv_of_holding hslot (hheld.received data hfits)
        (justified_received h.justified hheld.handedOut)
  | dropped data hfull => exact h.act_received data hfull
  | published slot hslot hheld hthree => exact h.publish hheld hthree
  | consumed => exact h.act_consume
  | incomplete | nothingToConsume | other => exact h

/-- Every event keeps the invariant. -/
theorem ReceiverInv.step (h : receiver.ReceiverInv)
    (allocate : List (RxAction Slot) → Option Slot) (event : I2CEvent) :
    (receiver.step allocate event).ReceiverInv :=
  h.of_branch (h.branch allocate event)

/-- Any events keep the invariant. -/
theorem ReceiverInv.run (h : receiver.ReceiverInv)
    (allocate : List (RxAction Slot) → Option Slot) (events : List I2CEvent) :
    (events.foldl (I2CReceiver.step allocate) receiver).ReceiverInv :=
  List.foldlRecOn events _ h fun _ h event _ => h.step allocate event

/-- Each message in the queue is the one of the last address match, no match gives two of them, and
the driver writes only to slots that the queue has handed out. A complete message has a slot. -/
theorem reception_complete (allocate : List (RxAction Slot) → Option Slot)
    (memory : Slot → AccessoryMsg) (events : List I2CEvent) :
    let receiver := events.foldl (I2CReceiver.step allocate) { memory := memory }
    Justified Allowed receiver.journal ∧
      (receiver.rxControl.messageValid = true → receiver.rxControl.msgMemory ≠ none) := by
  have h := (receiverInv_start memory).run allocate events
  refine ⟨h.justified, fun hvalid => ?_⟩
  obtain ⟨slot, hslot, -⟩ := h.slot_of_messageValid hvalid
  rw [hslot]
  exact Option.some_ne_none slot

end

end I2CReceiver

end C6021Light
