import C6021Light.Proofs.ServerCalls

/-!
# `C6021Light.Proofs.SlotBounds`: slot numbers and the slot table

`findSlot` returns `end()` for slot 127, and its callers have to test the result before they
use it. The handlers of slot data do. `findOrRequestSlot` and `processRequestSlotRead` do not:
the first reads `inUse` before its callers test, the second hands the iterator on.

`process_inBounds_iff` is the exact statement for every reachable server and every message
that names a slot. What it needs of the history is one invariant: the slot marked for
dispatch is a slot of the table or `end()`.
-/

set_option autoImplicit false

namespace C6021Light

open FaultRun

/-! ### Messages that name a slot -/

/-- The slot that a control message, slot data or a request for slot data names. -/
def LnMsg.namedSlot : LnMsg → Option Byte
  | rqSlData sr => some sr.slot
  | slRdData sd => some sd.slot
  | wrSlData sd => some sd.slot
  | m => m.controlSlot

/-- The opcodes that name a slot: those of `namedSlot`, and `OPC_MOVE_SLOTS`. -/
def LnMsg.namesSlot : LnMsg → Bool
  | moveSlots _ => true
  | m => m.namedSlot.isSome

/-- The messages for slot 127 whose handlers use the iterator before they test it. -/
def LnMsg.dereferencesEnd : LnMsg → Bool
  | rqSlData sr => sr.slot = 127
  | m => decide (m.controlSlot = some 127) && m.hasMagic

/-- A control message uses the iterator for slot 127, when its magic byte is right. -/
theorem LnMsg.dereferencesEnd_of_control {m : LnMsg} {slot : Byte}
    (hslot : m.controlSlot = some slot) :
    m.dereferencesEnd = (decide (slot = 127) && m.hasMagic) := by
  cases m with
  | rqSlData sr => cases hslot
  | _ => simp only [LnMsg.dereferencesEnd, hslot, Option.some.injEq]

/-- A control message names the slot of its slot byte. -/
theorem LnMsg.namedSlot_of_control {m : LnMsg} {slot : Byte}
    (hslot : m.controlSlot = some slot) : m.namedSlot = some slot := by
  cases m <;> first
    | exact hslot
    | cases hslot

/-- A message that is not handled names no slot. -/
theorem LnMsg.namesSlot_of_unhandled {m : LnMsg} (h : m.isHandled = false) :
    m.namesSlot = false := by
  cases m <;> first
    | rfl
    | cases h

/-- Without its magic byte a message uses no iterator. -/
theorem LnMsg.dereferencesEnd_of_no_magic {m : LnMsg} (hmagic : m.hasMagic = false) :
    m.dereferencesEnd = false := by
  cases m <;> first
    | cases hmagic
    | simp only [LnMsg.dereferencesEnd, hmagic, Bool.and_false]

/-- A seven-bit slot number behind the table is 127. -/
theorem slot_eq_127 {slot : Byte} (h7 : slot < 128#8) (hge : kNumSlots ≤ slot.toNat) :
    slot = 127 := by
  have hlt : slot.toNat < 128 := h7
  have hge' : 127 ≤ slot.toNat := hge
  exact BitVec.eq_of_toNat_eq (show slot.toNat = 127 by omega)

/-- A slot of the table is not slot 127. -/
theorem slot_ne_127 {slot : Byte} {i : Fin kNumSlots} (hi : slot.toNat = i) : slot ≠ 127 := by
  intro h
  have hlt : (i : Nat) < 127 := i.isLt
  rw [h] at hi
  have h127 : (127 : Nat) = i := hi
  omega

/-- The slot of a seven-bit message has seven bits. -/
theorem LnMsg.SevenBit.controlSlot_lt {m : LnMsg} {slot : Byte} (h7 : m.SevenBit)
    (hslot : m.controlSlot = some slot) : slot < 128#8 := by
  cases m <;> cases hslot <;> exact h7 _ (by simp [LnMsg.argBytes])

/-! ### The dispatch marker -/

/-- The slot in dispatch is a slot of the table, or `end()`. -/
def LocoNetSlotServer.DispatchInTable (s : LocoNetSlotServer) : Prop :=
  s.slotInDispatch ≤ kNumSlots

section

variable [AddressScheme] {s s' : LocoNetSlotServer}

/-- `process` keeps the marker inside the table. -/
theorem process_dispatchInTable {m : LnMsg} (hs : s.DispatchInTable) (h7 : m.SevenBit)
    (h : (process m).run s = .ok ((), s')) : s'.DispatchInTable := by
  have heffect := process_effect s m
  rw [h] at heffect
  cases heffect with
  | addressAllocated la i _ _ _ s₁ hs₁ => subst hs₁; exact hs
  | dispatchGet => exact Nat.le_refl _
  -- The only message that moves the marker to a slot number of its own.
  | dispatchPut msg =>
      have hsrc : msg.src.toNat < 128 := h7 msg.src (by simp [LnMsg.argBytes])
      exact Nat.le_of_lt_succ hsrc
  | _ => exact hs

/-- A forwarded change leaves the slot in dispatch in the table. -/
theorem forwardLocoChange_dispatchInTable {loco : LocomotiveData} {diff diff' : LocoDiff}
    (hs : s.DispatchInTable)
    (h : (LocoNetForwarder.forwardLocoChange loco diff).run s = .ok (diff', s')) :
    s'.DispatchInTable := by
  have heffect := forwardLocoChange_effect s loco diff
  rw [h] at heffect
  cases heffect with
  | disabled => exact hs
  | notFound => exact hs
  | found _ i s₁ hfind =>
      show s₁.slotInDispatch ≤ kNumSlots
      rw [(findSlot_frame hfind).2.2]
      exact hs

/-- Every call keeps the marker inside the table, when received messages are seven-bit. -/
theorem ServerCall.exec_dispatchInTable {call : ServerCall} (hs : s.DispatchInTable)
    (h7 : ∀ msg, call = .process msg → msg.SevenBit)
    (h : (call.exec).run s = .ok ((), s')) : s'.DispatchInTable := by
  cases call with
  | process msg => exact process_dispatchInTable hs (h7 msg rfl) h
  | handleDummyMessages msg =>
      rw [handleDummyMessages_eq h]
      exact hs
  | markAddressForDispatch addr =>
      obtain ⟨it, s₁, _, hit, rfl⟩ := markAddressForDispatch_run h
      exact Nat.le_of_lt hit
  | forwardLocoChange loco diff =>
      obtain ⟨diff', s₁, hforward, hpure⟩ := run_bind_eq_ok.mp h
      cases hpure
      exact forwardLocoChange_dispatchInTable hs hforward
  | matchSlot engineDb i => cases h; exact hs
  | setSlotServerState state => cases h; exact hs
  | asyncSend msg => cases h; exact hs
  | blockingSend => cases h; exact hs

/-- The marker stays inside the table in every run. -/
theorem reachable_dispatchInTable {s₀ : LocoNetSlotServer}
    (h₀ : s₀.slotInDispatch = kNumSlots)
    (h : Reachable ServerCall.exec (fun call => ∀ msg, call = .process msg → msg.SevenBit)
      s₀ s) : s.DispatchInTable :=
  h.invariant ServerCall.exec (Nat.le_of_eq h₀)
    fun _ _ _ hs h7 hrun => ServerCall.exec_dispatchInTable hs h7 hrun

/-! ### Which messages stay inside the table -/

/-- `process` completes, so it used the table only at its slots. When the message names slot
127, it left the table unchanged and sent no slot data. -/
def ProcessInBounds (s : LocoNetSlotServer) (m : LnMsg) : Prop :=
  ∃ s', (process m).run s = .ok ((), s') ∧
    (m.namedSlot = some 127 →
      s'.slotDB = s.slotDB ∧ ∀ call ∈ s.tx.newCalls s'.tx, ∀ sd, call.1 ≠ .slRdData sd)

/-- A completed run for a message that does not name slot 127. -/
theorem processInBounds_of_ne {m : LnMsg} (h : (process m).run s = .ok ((), s'))
    (hne : m.namedSlot ≠ some 127) : ProcessInBounds s m :=
  ⟨s', h, fun hslot => absurd hslot hne⟩

/-- A completed run that changed nothing. -/
theorem processInBounds_of_unchanged {m : LnMsg} (h : (process m).run s = .ok ((), s)) :
    ProcessInBounds s m := by
  refine ⟨s, h, fun _ => ⟨rfl, ?_⟩⟩
  intro call hcall
  rw [LocoNetTx.newCalls_self] at hcall
  cases hcall

/-- A step that faults is not in bounds. -/
theorem not_processInBounds_of_fault {m : LnMsg} {fault : Fault}
    (h : (process m).run s = .error fault) : ¬ ProcessInBounds s m := by
  rintro ⟨s', hrun, _⟩
  rw [h] at hrun
  cases hrun

/-- In every reachable state, a message that names a slot is handled inside the table exactly
when it is not a control message or a slot data request for slot 127. -/
theorem process_inBounds_iff {s₀ : LocoNetSlotServer} (hdispatch : s₀.slotInDispatch = kNumSlots)
    (hs : Reachable ServerCall.exec (fun call => ∀ msg, call = .process msg → msg.SevenBit)
      s₀ s) {m : LnMsg} (hnames : m.namesSlot = true) (h7 : m.SevenBit) :
    ProcessInBounds s m ↔ m.dereferencesEnd = false := by
  have htable := reachable_dispatchInTable hdispatch hs
  have hne : ∀ {slot : Byte} {i : Fin kNumSlots}, slot.toNat = i → some slot ≠ some 127 :=
    fun hi h => slot_ne_127 hi (Option.some.inj h)
  have hmove : ∀ sm, (LnMsg.moveSlots sm).namedSlot ≠ some 127 := fun _ h => nomatch h
  have heffect := process_effect s m
  generalize hrun : (process m).run s = r at heffect
  cases heffect with
  | control i hslot hmagic hi =>
      have hclear : m.dereferencesEnd = false := by
        rw [LnMsg.dereferencesEnd_of_control hslot, decide_eq_false (slot_ne_127 hi),
          Bool.false_and]
      refine iff_of_true (processInBounds_of_ne hrun ?_) hclear
      rw [LnMsg.namedSlot_of_control hslot]
      exact hne hi
  | controlFault hslot hmagic hge =>
      have hend : m.dereferencesEnd = true := by
        rw [LnMsg.dereferencesEnd_of_control hslot, hmagic, Bool.and_true]
        exact decide_eq_true (slot_eq_127 (h7.controlSlot_lt hslot) hge)
      refine iff_of_false (not_processInBounds_of_fault hrun) ?_
      rw [hend]
      decide
  | controlIgnored hmagic =>
      exact iff_of_true (processInBounds_of_unchanged hrun)
        (LnMsg.dereferencesEnd_of_no_magic hmagic)
  | slotRead msg i hi => exact iff_of_true (processInBounds_of_ne hrun (hne hi)) rfl
  | slotReadOutside => exact iff_of_true (processInBounds_of_unchanged hrun) rfl
  | slotWrite msg i hi => exact iff_of_true (processInBounds_of_ne hrun (hne hi)) rfl
  | slotWriteOutside msg hge =>
      refine iff_of_true ⟨_, hrun, fun _ => ⟨rfl, ?_⟩⟩ rfl
      intro call hcall sd hsd
      -- The only possible answer is the long acknowledge.
      have hmem := LocoNetTx.mem_newCalls_sendAll hcall
      rw [LocoNetSlotServer.writeAck] at hmem
      split at hmem
      · rw [hsd] at hmem
        cases List.mem_singleton.mp hmem
      · cases hmem
  | slotRequest msg i hi =>
      exact iff_of_true (processInBounds_of_ne hrun (hne hi))
        (decide_eq_false (slot_ne_127 hi))
  | slotRequestFault msg hge =>
      have h127 : msg.slot = 127 := slot_eq_127 (h7 msg.slot (by simp [LnMsg.argBytes])) hge
      have hend : (LnMsg.rqSlData msg).dereferencesEnd = true := decide_eq_true h127
      refine iff_of_false (not_processInBounds_of_fault hrun) ?_
      rw [hend]
      decide
  | addressFound => cases hnames
  | addressAllocated => cases hnames
  | addressFault => cases hnames
  | addressIgnored => cases hnames
  | dispatchGet => exact iff_of_true (processInBounds_of_ne hrun (hmove _)) rfl
  -- This is where the invariant is needed.
  | dispatchFault msg hactive hgt => exact absurd hgt (Nat.not_lt.mpr htable)
  | noDispatch => exact iff_of_true (processInBounds_of_ne hrun (hmove _)) rfl
  | dispatchPut => exact iff_of_true (processInBounds_of_ne hrun (hmove _)) rfl
  | move => exact iff_of_true (processInBounds_of_ne hrun (hmove _)) rfl
  | clear => exact iff_of_true (processInBounds_of_ne hrun (hmove _)) rfl
  -- A fault needs a byte above 127, and seven-bit messages have none.
  | moveFault msg slotIt hgt =>
      have hsrc : msg.src.toNat < 128 := h7 msg.src (by simp [LnMsg.argBytes])
      have hdest : msg.dest.toNat < 128 := h7 msg.dest (by simp [LnMsg.argBytes])
      have hbound : 127 < msg.src.toNat ∨ 127 < msg.dest.toNat := hgt
      omega
  | moveIgnored => exact iff_of_true (processInBounds_of_unchanged hrun) rfl
  | unhandled m h =>
      rw [LnMsg.namesSlot_of_unhandled h] at hnames
      cases hnames

end

/-- A request for the last slot, after slot 5 was marked for dispatch. -/
theorem process_inBounds_iff_dispatched :
    letI := AddressScheme.upperBits
    let server₀ : LocoNetSlotServer := { dataModel := { lnSlotServerState := .active } }
    let put : LnMsg := .moveSlots { src := 5, dest := 0 }
    ∃ server, (process put).run server₀ = .ok ((), server) ∧
      (ProcessInBounds server (.rqSlData { slot := 126 })
        ↔ (LnMsg.rqSlData { slot := 126 }).dereferencesEnd = false) := by
  let _ := AddressScheme.upperBits
  intro server₀ put
  have hput : put.SevenBit := by decide
  have hrun : (process put).run server₀ = .ok ((), { server₀ with slotInDispatch := 5 }) := rfl
  have hreach : Reachable ServerCall.exec
      (fun call => ∀ msg, call = .process msg → msg.SevenBit) server₀
      { server₀ with slotInDispatch := 5 } := by
    refine reachable_of_call (.process put) ?_ hrun
    intro msg hmsg
    cases hmsg
    exact hput
  have hdispatch : server₀.slotInDispatch = kNumSlots := rfl
  exact ⟨_, hrun, process_inBounds_iff hdispatch hreach rfl (by decide)⟩

/-- A speed message for slot 127 makes the server read behind its table. -/
theorem process_slot127_fault :
    letI := AddressScheme.upperBits
    let server : LocoNetSlotServer := { dataModel := { lnSlotServerState := .passive } }
    let msg : LnMsg := .locoSpd { slot := 127, spd := 10 }
    msg.namesSlot = true ∧ msg.SevenBit ∧
      (process msg).run server = .error (.slotOutOfBounds 127) ∧
      ¬ ProcessInBounds server msg := by
  let _ := AddressScheme.upperBits
  intro server msg
  have hfault : (process msg).run server = .error (.slotOutOfBounds 127) := rfl
  exact ⟨rfl, by decide, hfault, not_processInBounds_of_fault hfault⟩

end C6021Light
