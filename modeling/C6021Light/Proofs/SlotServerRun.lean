import C6021Light.Proofs.FunctionGroups
import C6021Light.RoutingTask.LocoNetForwarder

/-!
# `C6021Light.Proofs.SlotServerRun`: what one slot server call does

The slot server's functions are `SlotServerRun` programs. This module says what each of them
does to the state, once, so that no later proof unfolds them.

Two operations describe every successful run: `setSlot` replaces one slot of the table, and
`send` hands a list of messages to the transmit queue. A run that leaves the table through an
iterator is the fault `slotOutOfBounds`.

`ProcessEffect` lists what `process` can do with one message, and `process_effect` says that
every run of `process` is one of its cases.
-/

set_option autoImplicit false

namespace C6021Light

open BitMask FaultRun AddressScheme

/-! ### State operations -/

namespace LocoNetSlotServer

/-- The server after `AsyncSend` calls for `msgs`. -/
def send (s : LocoNetSlotServer) (msgs : List LnMsg) : LocoNetSlotServer :=
  { s with tx := s.tx.sendAll msgs }

variable (s : LocoNetSlotServer) (i j : Fin kNumSlots) (entry entry' : SlotEntry)
  (msgs msgs' : List LnMsg)

/-- A slot that was set has the new entry. -/
@[simp] theorem slot_setSlot_self : (s.setSlot i entry).slot i = entry := by
  simp [slot, setSlot, SlotDB.entry]

/-- The other slots keep theirs. -/
theorem slot_setSlot_ne (h : j ≠ i) : (s.setSlot i entry).slot j = s.slot j := by
  have hne : (i : Nat) ≠ j := fun hij => h (Fin.ext hij.symm)
  simp [slot, setSlot, SlotDB.entry, hne]

/-- Both cases of setting a slot. -/
theorem slot_setSlot : (s.setSlot i entry).slot j = if j = i then entry else s.slot j := by
  split
  · next hj => rw [hj, slot_setSlot_self]
  · next hj => rw [slot_setSlot_ne s i j entry hj]

/-- Setting a slot to its own entry changes nothing. -/
@[simp] theorem setSlot_slot : s.setSlot i (s.slot i) = s := by
  have hset : s.slotDB.set i (s.slot i) = s.slotDB := by simp [slot, SlotDB.entry]
  rw [setSlot, hset]

/-- The last of two entries counts. -/
@[simp] theorem setSlot_setSlot : (s.setSlot i entry).setSlot i entry' = s.setSlot i entry' := by
  have hset : (s.slotDB.set i entry).set i entry' = s.slotDB.set i entry' := by simp
  simp only [setSlot, hset]

/-- Sending does not touch the slots. -/
@[simp] theorem slot_send : (s.send msgs).slot i = s.slot i := rfl

/-- Sending nothing changes nothing. -/
@[simp] theorem send_nil : s.send [] = s := rfl

/-- Setting a slot does not touch the settings. -/
@[simp] theorem dataModel_setSlot : (s.setSlot i entry).dataModel = s.dataModel := rfl

/-- Sending does not touch the settings. -/
@[simp] theorem dataModel_send : (s.send msgs).dataModel = s.dataModel := rfl

/-- Setting a slot sends nothing. -/
@[simp] theorem tx_setSlot : (s.setSlot i entry).tx = s.tx := rfl

/-- Sending offers the messages to the queue in order. -/
@[simp] theorem tx_send : (s.send msgs).tx = s.tx.sendAll msgs := rfl

/-- Setting a slot does not touch the slot in dispatch. -/
@[simp] theorem slotInDispatch_setSlot :
    (s.setSlot i entry).slotInDispatch = s.slotInDispatch := rfl

/-- Nor does sending. -/
@[simp] theorem slotInDispatch_send : (s.send msgs).slotInDispatch = s.slotInDispatch := rfl

/-- The table is changed first, then the messages are sent. -/
@[simp] theorem setSlot_send : (s.send msgs).setSlot i entry = (s.setSlot i entry).send msgs :=
  rfl

/-- Two lists sent in turn are one list. -/
@[simp] theorem send_send : (s.send msgs).send msgs' = s.send (msgs ++ msgs') := by
  simp only [send, LocoNetTx.sendAll_append]

end LocoNetSlotServer

/-! ### Primitive programs -/

section Primitives

variable (s : LocoNetSlotServer) (i : Fin kNumSlots)

/-- Reading a slot of the table. -/
theorem slotAt_run : (slotAt i).run s = .ok (s.slot i, s) := by
  show (if h : (i : Nat) < kNumSlots then pure (s.slot ⟨i, h⟩)
    else throw (.slotOutOfBounds i) : SlotServerRun SlotEntry).run s = _
  rw [dif_pos i.isLt]
  rfl

/-- Reading behind the table faults. -/
theorem slotAt_run_fault {slotIt : SlotIt} (h : ¬ slotIt < kNumSlots) :
    (slotAt slotIt).run s = .error (.slotOutOfBounds slotIt) := by
  show (if h : slotIt < kNumSlots then pure (s.slot ⟨slotIt, h⟩)
    else throw (.slotOutOfBounds slotIt) : SlotServerRun SlotEntry).run s = _
  rw [dif_neg h]
  rfl

/-- Writing a slot of the table. -/
theorem writeSlot_run (entry : SlotEntry) :
    (writeSlot i entry).run s = .ok ((), s.setSlot i entry) := by
  show (if h : (i : Nat) < kNumSlots then
      set (s.setSlot ⟨i, h⟩ entry)
    else throw (.slotOutOfBounds i) : SlotServerRun Unit).run s = _
  rw [dif_pos i.isLt]
  rfl

/-- Writing behind the table faults. -/
theorem writeSlot_run_fault {slotIt : SlotIt} (h : ¬ slotIt < kNumSlots) (entry : SlotEntry) :
    (writeSlot slotIt entry).run s = .error (.slotOutOfBounds slotIt) := by
  show (if h : slotIt < kNumSlots then
      set (s.setSlot ⟨slotIt, h⟩ entry)
    else throw (.slotOutOfBounds slotIt) : SlotServerRun Unit).run s = _
  rw [dif_neg h]
  rfl

/-- Changing a slot of the table is setting it. -/
theorem modifySlot_run (change : SlotEntry → SlotEntry) :
    (modifySlot i change).run s = .ok ((), s.setSlot i (change (s.slot i))) := by
  rw [modifySlot, run_bind_of_ok (slotAt_run s i), writeSlot_run]

/-- `AsyncSend` offers its message to the queue. -/
theorem asyncSend_run (msg : LnMsg) : (asyncSend msg).run s = .ok ((), s.send [msg]) := rfl

/-- The conditional form offers it when the condition holds. -/
theorem asyncSendIf_run (condition : Bool) (msg : LnMsg) :
    (asyncSendIf condition msg).run s = .ok ((), s.send (if condition then [msg] else [])) := by
  cases condition <;> rfl

end Primitives

/-! ### Control messages -/

/-- The slot byte of a message that controls an engine. -/
def LnMsg.controlSlot : LnMsg → Option Byte
  | .locoSpd lsp => some lsp.slot
  | .locoDirf ldf => some ldf.slot
  | .locoSnd ls => some ls.slot
  | .locoSnd2 ls => some ls.slot
  | .locoFunext msdi => some msdi.arg2
  | _ => none

/-- A message that controls the engine of slot `i`. -/
def LnMsg.ControlsSlot (m : LnMsg) (i : Fin kNumSlots) : Prop :=
  m.controlSlot.map BitVec.toNat = some (i : Nat)

/-- Which slot a message controls can be computed. -/
instance (m : LnMsg) (i : Fin kNumSlots) : Decidable (m.ControlsSlot i) :=
  inferInstanceAs (Decidable (_ = _))

/-- A message that controls a slot names it in its slot byte. -/
theorem LnMsg.ControlsSlot.exists_slot {m : LnMsg} {i : Fin kNumSlots} (h : m.ControlsSlot i) :
    ∃ slot, m.controlSlot = some slot ∧ slot.toNat = i :=
  Option.map_eq_some_iff.mp h

/-- `processLocoFunExt` ignores a message without its magic byte. -/
def LnMsg.hasMagic : LnMsg → Bool
  | .locoFunext msdi => msdi.arg1 = kFunExtMagicByte
  | _ => true

/-- The change that a control message makes to its slot. -/
def SlotEntry.control : LnMsg → SlotEntry → SlotEntry
  | .locoSpd lsp, entry => entry.locoSpeed lsp
  | .locoDirf ldf, entry => entry.locoDirF ldf
  | .locoSnd ls, entry => entry.locoSnd ls kLowestFunctionInSndMessage
  | .locoSnd2 ls, entry =>
      entry.locoSnd ls (kLowestFunctionInSndMessage + kFunctionsInSndMessage)
  | .locoFunext msdi, entry =>
      if msdi.arg1 = kFunExtMagicByte then entry.locoFunExt msdi else entry
  | _, entry => entry

/-- What tells which engine a slot stands for. -/
def SlotEntry.identity (entry : SlotEntry) : Bool × Uid × LocoAddr × Bool :=
  (entry.inUse, entry.loco.uid, entry.loco.address, entry.needsMatchToCAN)

/-- A control message does not change which engine the slot stands for. -/
theorem SlotEntry.control_identity (m : LnMsg) (entry : SlotEntry) :
    (entry.control m).identity = entry.identity := by
  cases m with
  | locoDirf ldf => rw [SlotEntry.control, SlotEntry.locoDirF_eq]; rfl
  | locoSnd ls => rw [SlotEntry.control, SlotEntry.locoSnd_eq]; rfl
  | locoSnd2 ls => rw [SlotEntry.control, SlotEntry.locoSnd2_eq]; rfl
  | locoFunext msdi =>
      rw [SlotEntry.control, SlotEntry.locoFunExt_eq]
      split <;> rfl
  | _ => rfl

/-- A control message does not take a slot into use. -/
@[simp] theorem SlotEntry.control_inUse (m : LnMsg) (entry : SlotEntry) :
    (entry.control m).inUse = entry.inUse :=
  congrArg Prod.fst (SlotEntry.control_identity m entry)

/-- The flags of a slot have no influence on its locomotive. -/
theorem SlotEntry.control_loco_congr (m : LnMsg) {entry entry' : SlotEntry}
    (h : entry.loco = entry'.loco) : (entry.control m).loco = (entry'.control m).loco := by
  cases m with
  | locoSpd lsp => simp only [SlotEntry.control, SlotEntry.locoSpeed, h]
  | locoDirf ldf =>
      simp only [SlotEntry.control, SlotEntry.locoDirF_eq, SlotEntry.writeFunctions,
        SlotEntry.writeDirection, h]
  | locoSnd ls =>
      simp only [SlotEntry.control, SlotEntry.locoSnd_eq, SlotEntry.writeFunctions, h]
  | locoSnd2 ls =>
      simp only [SlotEntry.control, SlotEntry.locoSnd2_eq, SlotEntry.writeFunctions, h]
  | locoFunext msdi =>
      simp only [SlotEntry.control, SlotEntry.locoFunExt_eq, SlotEntry.writeFunctions]
      split
      · simp only [h]
      · exact h
  | _ => exact h

/-- Nor have they for a list of control messages. -/
theorem SlotEntry.foldl_control_loco_congr (msgs : List LnMsg) {entry entry' : SlotEntry}
    (h : entry.loco = entry'.loco) :
    (msgs.foldl (fun entry m => entry.control m) entry).loco
      = (msgs.foldl (fun entry m => entry.control m) entry').loco :=
  List.foldl_rel (r := fun entry entry' : SlotEntry => entry.loco = entry'.loco) h
    fun m _ _ _ h => SlotEntry.control_loco_congr m h

/-- The slot after `findOrRequestSlot`: a request for slot data drops what was flagged. -/
def SlotEntry.requested (disabled : Bool) (entry : SlotEntry) : SlotEntry :=
  if !entry.inUse && !disabled then { entry with diff := {} } else entry

/-- A slot in use is not requested. -/
theorem SlotEntry.requested_of_inUse {entry : SlotEntry} (h : entry.inUse = true)
    (disabled : Bool) : entry.requested disabled = entry := by
  simp [SlotEntry.requested, h]

/-- A disabled server requests no slot. -/
@[simp] theorem SlotEntry.requested_disabled (entry : SlotEntry) :
    entry.requested true = entry := by
  simp [SlotEntry.requested]

/-- A request for an unused slot clears its flags. -/
theorem SlotEntry.requested_of_unused {entry : SlotEntry} (h : entry.inUse = false) :
    entry.requested false = { entry with diff := {} } := by
  simp [SlotEntry.requested, h]

/-- A request does not change which engine the slot stands for. -/
theorem SlotEntry.requested_identity (disabled : Bool) (entry : SlotEntry) :
    (entry.requested disabled).identity = entry.identity := by
  rw [SlotEntry.requested]
  split <;> rfl

/-- A request does not change the locomotive. -/
@[simp] theorem SlotEntry.requested_loco (disabled : Bool) (entry : SlotEntry) :
    (entry.requested disabled).loco = entry.loco := by
  rw [SlotEntry.requested]
  split <;> rfl

/-- The messages of `findOrRequestSlot`. -/
def LocoNetSlotServer.slotRequests (s : LocoNetSlotServer) (i : Fin kNumSlots) : List LnMsg :=
  if !(s.slot i).inUse && !s.isDisabled then [lnRequestSlotData (findSlotIndex i)] else []

/-- A slot number of the table is its own index. -/
theorem findSlot_of_lt {slot : Byte} {i : Fin kNumSlots} (h : slot.toNat = i) :
    findSlot slot = i := by
  have hi : (i : Nat) < 127 := i.isLt
  show min slot.toNat 127 = i
  omega

/-- Any other slot number is the end of the table. -/
theorem findSlot_of_ge {slot : Byte} (h : kNumSlots ≤ slot.toNat) :
    findSlot slot = kNumSlots := by
  exact Nat.min_eq_right h

/-- An index of the table is its own slot number. -/
theorem findSlotIndex_toNat (i : Fin kNumSlots) : (findSlotIndex i).toNat = i := by
  have hi : (i : Nat) < 127 := i.isLt
  rw [findSlotIndex, BitVec.toNat_ofNat]
  omega

/-- An index of the table is in bounds. -/
theorem isSlotInBounds_fin (i : Fin kNumSlots) : isSlotInBounds (i : Nat) = true := by
  have hi : (i : Nat) < 127 := i.isLt
  have hne : (i : Nat) ≠ 127 := by omega
  exact decide_eq_true hne

/-- A slot data request clears the flags of the slot and is sent, unless the server is disabled. -/
theorem requestSlotDataRead_run (s : LocoNetSlotServer) (i : Fin kNumSlots) :
    (requestSlotDataRead i).run s
      = .ok ((), if s.isDisabled then s
          else (s.setSlot i { s.slot i with diff := {} }).send
            [lnRequestSlotData (findSlotIndex i)]) := by
  show (if !s.isDisabled then
      (do modifySlot i fun entry => { entry with diff := {} }
          asyncSend (lnRequestSlotData (findSlotIndex i)))
    else pure () : SlotServerRun Unit).run s = _
  cases s.isDisabled with
  | true => rfl
  | false =>
      show (do modifySlot i fun entry => { entry with diff := {} }
               asyncSend (lnRequestSlotData (findSlotIndex i)) : SlotServerRun Unit).run s = _
      rw [run_bind_of_ok (modifySlot_run s i _), asyncSend_run]
      rfl

/-- `findOrRequestSlot` returns the slot and requests its data when it is unused. -/
theorem findOrRequestSlot_run (s : LocoNetSlotServer) {slot : Byte} {i : Fin kNumSlots}
    (h : slot.toNat = i) :
    (findOrRequestSlot slot).run s
      = .ok ((i : SlotIt), (s.setSlot i ((s.slot i).requested s.isDisabled)).send
          (s.slotRequests i)) := by
  rw [findOrRequestSlot, findSlot_of_lt h, run_bind_of_ok (slotAt_run s i)]
  by_cases hin : (s.slot i).inUse = true
  -- A slot in use is not asked for.
  · rw [SlotEntry.requested_of_inUse hin, LocoNetSlotServer.slotRequests, hin]
    show Except.ok ((i : SlotIt), s) = _
    simp
  · have hfree : (s.slot i).inUse = false := Bool.not_eq_true _ ▸ hin
    show (if !(s.slot i).inUse then requestSlotDataRead i >>= fun _ => pure (i : SlotIt)
      else pure (i : SlotIt) : SlotServerRun SlotIt).run s = _
    rw [if_pos (by rw [hfree]; rfl), run_bind_of_ok (requestSlotDataRead_run s i),
      LocoNetSlotServer.slotRequests, hfree]
    cases hdis : s.isDisabled with
    | true =>
        show Except.ok ((i : SlotIt), s) = _
        simp
    | false =>
        rw [SlotEntry.requested_of_unused hfree]
        rfl

/-- `findOrRequestSlot` faults on a slot number behind the table. -/
theorem findOrRequestSlot_run_fault (s : LocoNetSlotServer) {slot : Byte}
    (h : kNumSlots ≤ slot.toNat) :
    (findOrRequestSlot slot).run s = .error (.slotOutOfBounds kNumSlots) := by
  rw [findOrRequestSlot, findSlot_of_ge h]
  exact run_bind_of_error (slotAt_run_fault s (Nat.lt_irrefl kNumSlots))

/-- A control message for a slot of the table changes that slot, after the request. -/
theorem changeRequestedSlot_run (s : LocoNetSlotServer) {slot : Byte} {i : Fin kNumSlots}
    (h : slot.toNat = i) (change : SlotEntry → SlotEntry) :
    (changeRequestedSlot slot change).run s
      = .ok ((), (s.setSlot i (change ((s.slot i).requested s.isDisabled))).send
          (s.slotRequests i)) := by
  rw [changeRequestedSlot, run_bind_of_ok (findOrRequestSlot_run s h), isSlotInBounds_fin]
  show (modifySlot i change).run _ = _
  rw [modifySlot_run]
  simp

/-- A control message for a larger slot number dereferences the end of the table. -/
theorem changeRequestedSlot_run_fault (s : LocoNetSlotServer) {slot : Byte}
    (h : kNumSlots ≤ slot.toNat) (change : SlotEntry → SlotEntry) :
    (changeRequestedSlot slot change).run s = .error (.slotOutOfBounds kNumSlots) :=
  run_bind_of_error (findOrRequestSlot_run_fault s h)

section Process

variable [AddressScheme]

/-- Every control message goes through the same frame. -/
theorem process_control {m : LnMsg} {slot : Byte} (hslot : m.controlSlot = some slot)
    (hmagic : m.hasMagic = true) :
    process m = changeRequestedSlot slot (SlotEntry.control m) := by
  cases m with
  | locoSpd lsp => cases hslot; rfl
  | locoDirf ldf => cases hslot; rfl
  | locoSnd ls => cases hslot; rfl
  | locoSnd2 ls => cases hslot; rfl
  | locoFunext msdi =>
      cases hslot
      have harg : msdi.arg1 = kFunExtMagicByte := of_decide_eq_true hmagic
      show processLocoFunExt msdi = changeRequestedSlot msdi.arg2 _
      -- The magic byte is tested once by the handler and once by `control`.
      have hcontrol : SlotEntry.control (.locoFunext msdi) = SlotEntry.locoFunExt msdi := by
        funext entry
        exact if_pos harg
      rw [processLocoFunExt, if_pos harg, hcontrol]
  | _ => cases hslot

/-- A message without its magic byte does nothing. -/
theorem process_of_no_magic {m : LnMsg} (hmagic : m.hasMagic = false) :
    process m = pure () := by
  cases m with
  | locoFunext msdi =>
      have harg : ¬ msdi.arg1 = kFunExtMagicByte := of_decide_eq_false hmagic
      show processLocoFunExt msdi = _
      rw [processLocoFunExt, if_neg harg]
  | _ => cases hmagic

omit [AddressScheme] in
/-- A message without its magic byte changes no slot. -/
theorem control_of_no_magic {m : LnMsg} (hmagic : m.hasMagic = false) (entry : SlotEntry) :
    entry.control m = entry := by
  cases m with
  | locoFunext msdi =>
      have harg : ¬ msdi.arg1 = kFunExtMagicByte := of_decide_eq_false hmagic
      exact if_neg harg
  | _ => cases hmagic

/-- A control message for a slot of the table. -/
theorem process_control_run {m : LnMsg} {slot : Byte} {i : Fin kNumSlots}
    (hslot : m.controlSlot = some slot) (hmagic : m.hasMagic = true) (hi : slot.toNat = i)
    (s : LocoNetSlotServer) :
    (process m).run s
      = .ok ((), (s.setSlot i (((s.slot i).requested s.isDisabled).control m)).send
          (s.slotRequests i)) := by
  rw [process_control hslot hmagic, changeRequestedSlot_run s hi]

/-- A control message for a slot in use: the slot changes and nothing is sent. -/
theorem process_control_run_of_inUse {m : LnMsg} {slot : Byte} {i : Fin kNumSlots}
    (hslot : m.controlSlot = some slot) (hi : slot.toNat = i) {s : LocoNetSlotServer}
    (hin : (s.slot i).inUse = true) :
    (process m).run s = .ok ((), s.setSlot i ((s.slot i).control m)) := by
  cases hmagic : m.hasMagic with
  | true =>
      have hrequests : s.slotRequests i = [] := by simp [LocoNetSlotServer.slotRequests, hin]
      rw [process_control_run hslot hmagic hi, SlotEntry.requested_of_inUse hin, hrequests,
        LocoNetSlotServer.send_nil]
  | false =>
      rw [process_of_no_magic hmagic, control_of_no_magic hmagic, LocoNetSlotServer.setSlot_slot]
      rfl

/-- A sequence of control messages for a slot in use: the slot changes and nothing is sent. -/
theorem forM_control_run {i : Fin kNumSlots} :
    ∀ (msgs : List LnMsg) (s : LocoNetSlotServer), (∀ m ∈ msgs, m.ControlsSlot i) →
      (s.slot i).inUse = true →
      (forM msgs process).run s
        = .ok ((), s.setSlot i (msgs.foldl (fun entry m => entry.control m) (s.slot i))) := by
  intro msgs
  induction msgs with
  | nil =>
      intro s _ _
      rw [List.foldl_nil, LocoNetSlotServer.setSlot_slot]
      rfl
  | cons m msgs ih =>
      intro s hms hin
      obtain ⟨slot, hslot, hi⟩ := (hms m List.mem_cons_self).exists_slot
      -- No message changes `inUse`, so the rest runs for a slot in use as well.
      have hrest := ih (s.setSlot i ((s.slot i).control m))
        (fun m' hm' => hms m' (List.mem_cons_of_mem m hm')) (by simpa using hin)
      rw [List.forM_cons, run_bind_of_ok (process_control_run_of_inUse hslot hi hin), hrest]
      simp

/-- A control message for any slot changes the locomotive in the same way. -/
theorem process_control_run_loco {m : LnMsg} {i : Fin kNumSlots} (hm : m.ControlsSlot i)
    (s : LocoNetSlotServer) :
    ∃ s', (process m).run s = .ok ((), s') ∧ (s'.slot i).loco = ((s.slot i).control m).loco := by
  obtain ⟨slot, hslot, hi⟩ := hm.exists_slot
  cases hmagic : m.hasMagic with
  | true =>
      refine ⟨_, process_control_run hslot hmagic hi s, ?_⟩
      rw [LocoNetSlotServer.slot_send, LocoNetSlotServer.slot_setSlot_self]
      exact SlotEntry.control_loco_congr m (SlotEntry.requested_loco _ _)
  | false =>
      refine ⟨s, by rw [process_of_no_magic hmagic]; rfl, ?_⟩
      rw [control_of_no_magic hmagic]

/-- A sequence of control messages for any slot. The requests for unknown slots drop flags
and send messages, but the locomotive is the same. -/
theorem forM_control_run_loco {i : Fin kNumSlots} :
    ∀ (msgs : List LnMsg) (s : LocoNetSlotServer), (∀ m ∈ msgs, m.ControlsSlot i) →
      ∃ s', (forM msgs process).run s = .ok ((), s') ∧
        (s'.slot i).loco
          = (msgs.foldl (fun entry m => entry.control m) (s.slot i)).loco := by
  intro msgs
  induction msgs with
  | nil => intro s _; exact ⟨s, rfl, rfl⟩
  | cons m msgs ih =>
      intro s hms
      obtain ⟨s₁, hrun, hloco⟩ := process_control_run_loco (hms m List.mem_cons_self) s
      obtain ⟨s', hrest, hloco'⟩ := ih s₁ (fun m' hm' => hms m' (List.mem_cons_of_mem m hm'))
      refine ⟨s', ?_, ?_⟩
      · rw [List.forM_cons, run_bind_of_ok hrun, hrest]
      · rw [hloco', List.foldl_cons]
        exact SlotEntry.foldl_control_loco_congr msgs hloco

end Process

/-! ### Slot data -/

section SlotData

variable (s : LocoNetSlotServer)

/-- `processSlotRead` writes the slot that the message names. -/
theorem processSlotRead_run (msg : RwSlotDataMsg) {i : Fin kNumSlots} (hi : msg.slot.toNat = i) :
    (processSlotRead msg).run s = .ok ((), s.setSlot i ((s.slot i).slotRead msg)) := by
  have hlt : (i : Nat) < 127 := i.isLt
  have hne : (i : Nat) ≠ 127 := by omega
  rw [processSlotRead, findSlot_of_lt hi]
  show (if (i : Nat) ≠ kNumSlots then modifySlot i (·.slotRead msg) else pure ()).run s = _
  rw [if_pos hne, modifySlot_run]

/-- Slot data for a slot outside the table is dropped. -/
theorem processSlotRead_run_of_ge (msg : RwSlotDataMsg) (h : kNumSlots ≤ msg.slot.toNat) :
    (processSlotRead msg).run s = .ok ((), s) := by
  rw [processSlotRead, findSlot_of_ge h]
  rfl

/-- `sendSlotDataRead` sends the slot's status and locomotive. -/
theorem sendSlotDataRead_run (i : Fin kNumSlots) :
    (sendSlotDataRead i).run s
      = .ok ((), s.send [lnSlotDataRead (findSlotIndex i) (slotStatus (s.slot i))
          (s.slot i).loco]) := by
  rw [sendSlotDataRead, run_bind_of_ok (slotAt_run s i), asyncSend_run]

/-- `sendSlotDataRead` faults behind the table. -/
theorem sendSlotDataRead_run_fault {slotIt : SlotIt} (h : ¬ slotIt < kNumSlots) :
    (sendSlotDataRead slotIt).run s = .error (.slotOutOfBounds slotIt) := by
  rw [sendSlotDataRead]
  exact run_bind_of_error (slotAt_run_fault s h)

end SlotData

/-! ### Search and allocation -/

/-- The entry of a new slot. -/
def SlotEntry.initialized (address : LocoAddr) : SlotEntry :=
  { inUse := true, loco := { address := address }, needsMatchToCAN := true }

/-- `clearSlot` sets the slot to its defaults. -/
theorem clearSlot_run (s : LocoNetSlotServer) (i : Fin kNumSlots) :
    (clearSlot i).run s = .ok ((), s.setSlot i {}) := writeSlot_run s i {}

/-- `initializeSlot` sets the slot to a new locomotive with the address. -/
theorem initializeSlot_run (s : LocoNetSlotServer) (i : Fin kNumSlots) (address : LocoAddr) :
    (initializeSlot i address).run s = .ok ((), s.setSlot i (.initialized address)) := by
  rw [initializeSlot, run_bind_of_ok (clearSlot_run s i), modifySlot_run]
  simp [SlotEntry.initialized, LocomotiveData.setAddress]

/-- When no slot has the address and none is free, `initializeSlot` gets `end()`. -/
theorem initializeSlot_run_end (s : LocoNetSlotServer) (address : LocoAddr) :
    (initializeSlot kNumSlots address).run s = .error (.slotOutOfBounds kNumSlots) :=
  run_bind_of_error (writeSlot_run_fault s (Nat.lt_irrefl kNumSlots) {})

section Search

variable [AddressScheme]

/-- The loop of `findOrAllocateSlotForAddress` ends with a slot that has the address, or with
the free slot it remembers: the one it came with, or an unused slot of the list. -/
theorem searchSlots_cases (slotDB : SlotDB) (addr : LocoAddr) :
    ∀ (its : List (Fin kNumSlots)) (freeIt : SlotIt),
      (∃ j ∈ its, getNumericAddress (slotDB.entry j).loco.address = addr ∧
        searchSlots slotDB addr its freeIt = .inl j) ∨
      searchSlots slotDB addr its freeIt = .inr freeIt ∨
      (freeIt = kNumSlots ∧ ∃ j ∈ its, (slotDB.entry j).inUse = false ∧
        searchSlots slotDB addr its freeIt = .inr j) := by
  intro its
  induction its with
  | nil => intro freeIt; exact .inr (.inl rfl)
  | cons i its ih =>
      intro freeIt
      rw [searchSlots]
      split
      · next haddr => exact .inl ⟨i, List.mem_cons_self, haddr, rfl⟩
      · split
        · next hfree =>
            -- `i` becomes the remembered slot, and no later slot replaces it.
            rcases ih i with ⟨j, hj, haddr, hres⟩ | hres | ⟨hend, _⟩
            · exact .inl ⟨j, List.mem_cons_of_mem i hj, haddr, hres⟩
            · have hunused : (slotDB.entry i).inUse = false := by simpa using hfree.2
              exact .inr (.inr ⟨hfree.1, i, List.mem_cons_self, hunused, hres⟩)
            · exact absurd hend (Nat.ne_of_lt i.isLt)
        · rcases ih freeIt with ⟨j, hj, haddr, hres⟩ | hres | ⟨hend, j, hj, hunused, hres⟩
          · exact .inl ⟨j, List.mem_cons_of_mem i hj, haddr, hres⟩
          · exact .inr (.inl hres)
          · exact .inr (.inr ⟨hend, j, List.mem_cons_of_mem i hj, hunused, hres⟩)

/-- The slot that `findOrAllocateSlotForAddress` initializes, when it does not find one. -/
def LocoNetSlotServer.allocates (s : LocoNetSlotServer) (addr : LocoAddr) :
    Option (Fin kNumSlots) :=
  match searchSlots s.slotDB (getNumericAddress addr) searchRange kNumSlots with
  | .inl _ => none
  | .inr freeIt => if h : freeIt < kNumSlots then some ⟨freeIt, h⟩ else none

/-- What `findOrAllocateSlotForAddress` does: it finds a slot and changes nothing, it
allocates an unused slot, or it writes behind the table. -/
inductive AllocateEffect (s : LocoNetSlotServer) (addr : LocoAddr) :
    Except Fault (SlotIt × LocoNetSlotServer) → Prop
  | found (i : Fin kNumSlots) (halloc : s.allocates addr = none)
      (haddr : getNumericAddress (s.slot i).loco.address = getNumericAddress addr) :
      AllocateEffect s addr (.ok (i, s))
  | allocated (i : Fin kNumSlots) (halloc : s.allocates addr = some i)
      (hunused : (s.slot i).inUse = false) :
      AllocateEffect s addr
        (.ok (i, s.setSlot i (.initialized (getNumericAddress addr))))
  | full (halloc : s.allocates addr = none) :
      AllocateEffect s addr (.error (.slotOutOfBounds kNumSlots))

/-- `findOrAllocateSlotForAddress` takes the slot that the search finds, or initializes the free
one. -/
theorem findOrAllocateSlotForAddress_run (s : LocoNetSlotServer) (addr : LocoAddr) :
    (findOrAllocateSlotForAddress addr).run s
      = (match searchSlots s.slotDB (getNumericAddress addr) searchRange kNumSlots with
        | .inl addrIt => pure addrIt
        | .inr freeIt => do
            initializeSlot freeIt (getNumericAddress addr)
            pure freeIt : SlotServerRun SlotIt).run s := rfl

/-- The search ends in one of three ways, each with its effect on the server. -/
theorem findOrAllocateSlotForAddress_effect (s : LocoNetSlotServer) (addr : LocoAddr) :
    AllocateEffect s addr ((findOrAllocateSlotForAddress addr).run s) := by
  rw [findOrAllocateSlotForAddress_run]
  have halloc : s.allocates addr
      = match searchSlots s.slotDB (getNumericAddress addr) searchRange kNumSlots with
        | .inl _ => none
        | .inr freeIt => if h : freeIt < kNumSlots then some ⟨freeIt, h⟩ else none := rfl
  rcases searchSlots_cases s.slotDB (getNumericAddress addr) searchRange kNumSlots with
    ⟨j, _, haddr, hres⟩ | hres | ⟨_, j, _, hunused, hres⟩
  · rw [hres] at halloc ⊢
    exact .found j halloc haddr
  · rw [hres] at halloc ⊢
    show AllocateEffect s addr
      ((initializeSlot kNumSlots (getNumericAddress addr) >>= fun _ => pure kNumSlots).run s)
    rw [run_bind_of_error (initializeSlot_run_end s _)]
    exact .full halloc
  · rw [hres] at halloc ⊢
    show AllocateEffect s addr
      ((initializeSlot j (getNumericAddress addr) >>= fun _ => pure (j : SlotIt)).run s)
    rw [run_bind_of_ok (initializeSlot_run s j _)]
    exact .allocated j (halloc.trans (dif_pos j.isLt)) hunused

/-- A completed `markAddressForDispatch` has a slot of the table, and marks it. -/
theorem markAddressForDispatch_eq_ok {addr : LocoAddr} {s s' : LocoNetSlotServer}
    {marked : Bool} (h : (markAddressForDispatch addr).run s = .ok (marked, s')) :
    marked = true ∧ ∃ it s₁, (findOrAllocateSlotForAddress addr).run s = .ok (it, s₁) ∧
      it < kNumSlots ∧ s' = { s₁ with slotInDispatch := it } := by
  obtain ⟨it, s₁, hfind, hset⟩ := run_bind_eq_ok.mp h
  have hit : it < kNumSlots := by
    have heffect := findOrAllocateSlotForAddress_effect s addr
    rw [hfind] at heffect
    cases heffect with
    | found i => exact i.isLt
    | allocated i => exact i.isLt
  -- The test for `end()` comes after `end()` was initialized, so it never succeeds.
  rw [if_neg (Nat.ne_of_lt hit)] at hset
  cases hset
  exact ⟨rfl, it, s₁, hfind, hit, rfl⟩

/-- A dispatch mark that does not fault names a slot of the table. -/
theorem markAddressForDispatch_run {addr : LocoAddr} {s s' : LocoNetSlotServer}
    (h : (do let _ ← markAddressForDispatch addr : SlotServerRun Unit).run s = .ok ((), s')) :
    ∃ it s₁, (findOrAllocateSlotForAddress addr).run s = .ok (it, s₁) ∧ it < kNumSlots ∧
      s' = { s₁ with slotInDispatch := it } := by
  obtain ⟨_, _, hmark, hpure⟩ := run_bind_eq_ok.mp h
  cases hpure
  exact (markAddressForDispatch_eq_ok hmark).2

end Search

/-- A search through an array finds an index with the property, or ends at its length. -/
theorem findIdx_toList_cases {α : Type} {n : Nat} (v : Vector α n) (p : α → Bool) :
    (∃ i : Fin n, p v[i] = true ∧ v.toList.findIdx p = i) ∨
    ((∀ i : Fin n, p v[i] = false) ∧ v.toList.findIdx p = n) := by
  have hlen : v.toList.length = n := Vector.length_toList
  by_cases hidx : v.toList.findIdx p < v.toList.length
  -- `find_if` stopped inside the array, or it ran to the end.
  · have hfound : p v.toList[v.toList.findIdx p] = true := List.findIdx_getElem
    exact .inl ⟨⟨v.toList.findIdx p, by omega⟩, by simpa using hfound, rfl⟩
  · have hend : v.toList.findIdx p = v.toList.length :=
      Nat.le_antisymm List.findIdx_le_length (Nat.le_of_not_lt hidx)
    refine .inr ⟨?_, hend.trans hlen⟩
    intro i
    rw [List.findIdx_eq_length] at hend
    exact hend v[i] (by simp)

/-- `findSlotForAddress` finds a slot in use with the address, or returns `end()`. -/
theorem findSlotForAddress_cases (s : LocoNetSlotServer) (addr : LocoAddr) :
    (∃ i : Fin kNumSlots, (s.slot i).inUse = true ∧ (s.slot i).loco.address = addr ∧
      (findSlotForAddress addr).run s = .ok ((i : SlotIt), s)) ∨
    ((∀ i, (s.slot i).inUse = true → (s.slot i).loco.address ≠ addr) ∧
      (findSlotForAddress addr).run s = .ok (kNumSlots, s)) := by
  have hrun : (findSlotForAddress addr).run s
      = .ok (s.slotDB.toList.findIdx fun entry =>
          entry.inUse && decide (entry.loco.address = addr), s) := rfl
  rw [hrun]
  rcases findIdx_toList_cases s.slotDB (fun entry =>
      entry.inUse && decide (entry.loco.address = addr)) with ⟨i, hp, hidx⟩ | ⟨hnone, hidx⟩
  · rw [Bool.and_eq_true, decide_eq_true_eq] at hp
    exact .inl ⟨i, hp.1, hp.2, by rw [hidx]⟩
  · refine .inr ⟨fun i hin haddr => ?_, by rw [hidx]⟩
    have hi : ((s.slot i).inUse && decide ((s.slot i).loco.address = addr)) = false := hnone i
    simp [hin, haddr] at hi

/-! ### What `process` can do -/

/-- The slot data of slot `i`, as `sendSlotDataRead` sends it. -/
def LocoNetSlotServer.slotData (s : LocoNetSlotServer) (i : Fin kNumSlots) : LnMsg :=
  lnSlotDataRead (findSlotIndex i) (slotStatus (s.slot i)) (s.slot i).loco

/-- The acknowledge of `OPC_WR_SL_DATA`. -/
def LocoNetSlotServer.writeAck (s : LocoNetSlotServer) : List LnMsg :=
  if s.isActive then [lnLongAck opcWrSlData true] else []

/-- The message switch has a case for the message. -/
def LnMsg.isHandled : LnMsg → Bool
  | longAck _ | swState _ | swReq _ | inputRep _ | gpOn _ | gpOff _ | other _ => false
  | _ => true

/-- A move from one slot to another: no dispatch and no self-move. -/
def SlotMoveMsg.isSlotToSlot (msg : SlotMoveMsg) : Bool :=
  !isDispatchGet msg && !isDispatchPut msg && !isNullMove msg

/-- The effects of `process`, one case for each way through the message switch. -/
inductive ProcessEffect [AddressScheme] (s : LocoNetSlotServer) :
    LnMsg → Except Fault (Unit × LocoNetSlotServer) → Prop
  | control {m : LnMsg} {slot : Byte} (i : Fin kNumSlots) (hslot : m.controlSlot = some slot)
      (hmagic : m.hasMagic = true) (hi : slot.toNat = i) :
      ProcessEffect s m
        (.ok ((), (s.setSlot i (((s.slot i).requested s.isDisabled).control m)).send
          (s.slotRequests i)))
  | controlFault {m : LnMsg} {slot : Byte} (hslot : m.controlSlot = some slot)
      (hmagic : m.hasMagic = true) (hge : kNumSlots ≤ slot.toNat) :
      ProcessEffect s m (.error (.slotOutOfBounds kNumSlots))
  | controlIgnored {m : LnMsg} (hmagic : m.hasMagic = false) : ProcessEffect s m (.ok ((), s))
  | slotRead (msg : RwSlotDataMsg) (i : Fin kNumSlots) (hi : msg.slot.toNat = i) :
      ProcessEffect s (.slRdData msg) (.ok ((), s.setSlot i ((s.slot i).slotRead msg)))
  | slotReadOutside (msg : RwSlotDataMsg) (hge : kNumSlots ≤ msg.slot.toNat) :
      ProcessEffect s (.slRdData msg) (.ok ((), s))
  | slotWrite (msg : RwSlotDataMsg) (i : Fin kNumSlots) (hi : msg.slot.toNat = i) :
      ProcessEffect s (.wrSlData msg)
        (.ok ((), (s.setSlot i ((s.slot i).slotRead msg)).send s.writeAck))
  | slotWriteOutside (msg : RwSlotDataMsg) (hge : kNumSlots ≤ msg.slot.toNat) :
      ProcessEffect s (.wrSlData msg) (.ok ((), s.send s.writeAck))
  | slotRequest (msg : SlotReqMsg) (i : Fin kNumSlots) (hi : msg.slot.toNat = i) :
      ProcessEffect s (.rqSlData msg) (.ok ((), s.send [s.slotData i]))
  | slotRequestFault (msg : SlotReqMsg) (hge : kNumSlots ≤ msg.slot.toNat) :
      ProcessEffect s (.rqSlData msg) (.error (.slotOutOfBounds kNumSlots))
  | addressFound (la : LocoAdrMsg) (i : Fin kNumSlots) (hactive : s.isActive = true)
      (halloc : s.allocates (extractLocoAddress la) = none) :
      ProcessEffect s (.locoAdr la) (.ok ((), s.send [s.slotData i]))
  | addressAllocated (la : LocoAdrMsg) (i : Fin kNumSlots) (hactive : s.isActive = true)
      (halloc : s.allocates (extractLocoAddress la) = some i)
      (hunused : (s.slot i).inUse = false) (s₁ : LocoNetSlotServer)
      (hs₁ : s₁ = s.setSlot i (.initialized (getNumericAddress (extractLocoAddress la)))) :
      ProcessEffect s (.locoAdr la) (.ok ((), s₁.send [s₁.slotData i]))
  | addressFault (la : LocoAdrMsg) (hactive : s.isActive = true) :
      ProcessEffect s (.locoAdr la) (.error (.slotOutOfBounds kNumSlots))
  | addressIgnored (la : LocoAdrMsg) (hpassive : s.isActive = false) :
      ProcessEffect s (.locoAdr la) (.ok ((), s))
  | dispatchGet (msg : SlotMoveMsg) (i : Fin kNumSlots) (hactive : s.isActive = true)
      (hi : s.slotInDispatch = i) (hget : isDispatchGet msg = true) :
      ProcessEffect s (.moveSlots msg)
        (.ok ((), { s.send [s.slotData i] with slotInDispatch := kNumSlots }))
  | dispatchFault (msg : SlotMoveMsg) (hactive : s.isActive = true)
      (hgt : kNumSlots < s.slotInDispatch) :
      ProcessEffect s (.moveSlots msg) (.error (.slotOutOfBounds s.slotInDispatch))
  | noDispatch (msg : SlotMoveMsg) (hactive : s.isActive = true)
      (hget : isDispatchGet msg = true) :
      ProcessEffect s (.moveSlots msg) (.ok ((), s.send [lnLongAck opcMoveSlots false]))
  | dispatchPut (msg : SlotMoveMsg) (hput : isDispatchPut msg = true) :
      ProcessEffect s (.moveSlots msg) (.ok ((), { s with slotInDispatch := msg.src.toNat }))
  | move (msg : SlotMoveMsg) (i j : Fin kNumSlots) (hmove : msg.isSlotToSlot = true)
      (hi : msg.src.toNat = i) (hj : msg.dest.toNat = j) (hne : i ≠ j) :
      ProcessEffect s (.moveSlots msg) (.ok ((), (s.setSlot j (s.slot i)).setSlot i {}))
  | clear (msg : SlotMoveMsg) (j : Fin kNumSlots) (hj : msg.dest.toNat = j)
      (hmove : msg.isSlotToSlot = true) (hsrc : msg.src.toNat = kNumSlots) :
      ProcessEffect s (.moveSlots msg) (.ok ((), s.setSlot j {}))
  | moveFault (msg : SlotMoveMsg) (slotIt : SlotIt)
      (hgt : kNumSlots < msg.src.toNat ∨ kNumSlots < msg.dest.toNat) :
      ProcessEffect s (.moveSlots msg) (.error (.slotOutOfBounds slotIt))
  | moveIgnored (msg : SlotMoveMsg) : ProcessEffect s (.moveSlots msg) (.ok ((), s))
  | unhandled (m : LnMsg) (h : m.isHandled = false) : ProcessEffect s m (.ok ((), s))

section Inversion

/-- A slot number names a slot of the table, or lies behind it. -/
theorem slotNumber_cases (slot : Byte) :
    (∃ i : Fin kNumSlots, slot.toNat = i) ∨ kNumSlots ≤ slot.toNat := by
  by_cases h : slot.toNat < kNumSlots
  · exact .inl ⟨⟨slot.toNat, h⟩, rfl⟩
  · exact .inr (Nat.le_of_not_lt h)

/-- A slot number behind the table, other than that of `end()`. -/
theorem lt_of_isSlotInBounds {slot : Byte} (hin : isSlotInBounds slot.toNat = true)
    (hge : kNumSlots ≤ slot.toNat) : kNumSlots < slot.toNat :=
  Nat.lt_of_le_of_ne hge (of_decide_eq_true hin : slot.toNat ≠ kNumSlots).symm

variable [AddressScheme] (s : LocoNetSlotServer)

/-- A control message has its effect on its slot, or faults. -/
theorem process_control_effect {m : LnMsg} {slot : Byte} (hslot : m.controlSlot = some slot) :
    ProcessEffect s m ((process m).run s) := by
  cases hmagic : m.hasMagic with
  | false =>
      rw [process_of_no_magic hmagic]
      exact .controlIgnored hmagic
  | true =>
      rcases slotNumber_cases slot with ⟨i, hi⟩ | hge
      · rw [process_control_run hslot hmagic hi]
        exact .control i hslot hmagic hi
      · rw [process_control hslot hmagic, changeRequestedSlot_run_fault s hge]
        exact .controlFault hslot hmagic hge

/-- A request for slot data has its effect, or faults. -/
theorem processRequestSlotRead_effect (msg : SlotReqMsg) :
    ProcessEffect s (.rqSlData msg) ((process (.rqSlData msg)).run s) := by
  have hrun : (process (.rqSlData msg)).run s = (sendSlotDataRead (findSlot msg.slot)).run s :=
    rfl
  rcases slotNumber_cases msg.slot with ⟨i, hi⟩ | hge
  · rw [hrun, findSlot_of_lt hi, sendSlotDataRead_run]
    exact .slotRequest msg i hi
  · rw [hrun, findSlot_of_ge hge, sendSlotDataRead_run_fault s (Nat.lt_irrefl kNumSlots)]
    exact .slotRequestFault msg hge

/-- Slot data is written to a slot of the table, or ignored. -/
theorem processSlotRead_effect (msg : RwSlotDataMsg) :
    ProcessEffect s (.slRdData msg) ((process (.slRdData msg)).run s) := by
  have hrun : (process (.slRdData msg)).run s = (processSlotRead msg).run s := rfl
  rcases slotNumber_cases msg.slot with ⟨i, hi⟩ | hge
  · rw [hrun, processSlotRead_run s msg hi]
    exact .slotRead msg i hi
  · rw [hrun, processSlotRead_run_of_ge s msg hge]
    exact .slotReadOutside msg hge

variable {s} in
/-- `OPC_WR_SL_DATA` after the slot has been read. -/
theorem process_wrSlData_run {msg : RwSlotDataMsg} {t : LocoNetSlotServer}
    (hread : (processSlotRead msg).run s = .ok ((), t)) :
    (process (.wrSlData msg)).run s = .ok ((), t.send t.writeAck) := by
  have hrun : (process (.wrSlData msg)).run s
      = (do processSlotRead msg
            let server ← get
            if server.isActive then asyncSend (lnLongAck opcWrSlData true) :
          SlotServerRun Unit).run s := rfl
  rw [hrun, run_bind_of_ok hread]
  show (if t.isActive then asyncSend (lnLongAck opcWrSlData true) else pure () :
    SlotServerRun Unit).run t = _
  rw [LocoNetSlotServer.writeAck]
  cases t.isActive <;> rfl

/-- Written slot data does the same, and an active server acknowledges it. -/
theorem processSlotWrite_effect (msg : RwSlotDataMsg) :
    ProcessEffect s (.wrSlData msg) ((process (.wrSlData msg)).run s) := by
  rcases slotNumber_cases msg.slot with ⟨i, hi⟩ | hge
  · rw [process_wrSlData_run (processSlotRead_run s msg hi)]
    exact .slotWrite msg i hi
  · rw [process_wrSlData_run (processSlotRead_run_of_ge s msg hge)]
    exact .slotWriteOutside msg hge

/-- An active server answers a request for an address with the slot data, when there is a slot. -/
theorem processLocoRequest_run (la : LocoAdrMsg) (hactive : s.isActive = true) :
    (process (.locoAdr la)).run s
      = (do let slot ← findOrAllocateSlotForAddress (extractLocoAddress la)
            if slot ≠ kNumSlots then sendSlotDataRead slot : SlotServerRun Unit).run s := by
  show (if s.isActive then
      (do let slot ← findOrAllocateSlotForAddress (extractLocoAddress la)
          if slot ≠ kNumSlots then sendSlotDataRead slot)
    else pure () : SlotServerRun Unit).run s = _
  rw [if_pos hactive]

variable {s} in
/-- The answer to a request, when the address has a slot. -/
theorem processLocoRequest_run_of_ok {la : LocoAdrMsg} (hactive : s.isActive = true)
    {i : Fin kNumSlots} {s₁ : LocoNetSlotServer}
    (hfind : (findOrAllocateSlotForAddress (extractLocoAddress la)).run s
      = .ok ((i : SlotIt), s₁)) :
    (process (.locoAdr la)).run s = .ok ((), s₁.send [s₁.slotData i]) := by
  rw [processLocoRequest_run s la hactive, run_bind_of_ok hfind,
    if_pos (Nat.ne_of_lt i.isLt), sendSlotDataRead_run]
  rfl

/-- A request for an address has its effect, or faults. -/
theorem processLocoRequest_effect (la : LocoAdrMsg) :
    ProcessEffect s (.locoAdr la) ((process (.locoAdr la)).run s) := by
  cases hactive : s.isActive with
  | true =>
      have heffect := findOrAllocateSlotForAddress_effect s (extractLocoAddress la)
      generalize hfind : (findOrAllocateSlotForAddress (extractLocoAddress la)).run s = r
        at heffect
      cases heffect with
      | found i halloc _ =>
          rw [processLocoRequest_run_of_ok hactive hfind]
          exact .addressFound la i hactive halloc
      | allocated i halloc hunused =>
          rw [processLocoRequest_run_of_ok hactive hfind]
          exact .addressAllocated la i hactive halloc hunused _ rfl
      | full _ =>
          rw [processLocoRequest_run s la hactive, run_bind_of_error hfind]
          exact .addressFault la hactive
  | false =>
      have hrun : (process (.locoAdr la)).run s = .ok ((), s) := by
        show (if s.isActive then _ else pure () : SlotServerRun Unit).run s = _
        rw [if_neg (by rw [hactive]; decide)]
        rfl
      rw [hrun]
      exact .addressIgnored la hactive

/-- A dispatch get with a slot marked for dispatch. -/
theorem dispatchGet_effect (msg : SlotMoveMsg) (hget : isDispatchGet msg = true)
    (hactive : s.isActive = true) (havail : s.dispatchSlotAvailable = true) :
    ProcessEffect s (.moveSlots msg)
      ((do sendSlotDataRead s.slotInDispatch
           modify fun server => { server with slotInDispatch := kNumSlots } :
        SlotServerRun Unit).run s) := by
  by_cases hlt : s.slotInDispatch < kNumSlots
  · rw [run_bind_of_ok (sendSlotDataRead_run s ⟨s.slotInDispatch, hlt⟩)]
    exact .dispatchGet msg ⟨s.slotInDispatch, hlt⟩ hactive rfl hget
  -- The marker points behind `end()`. Only a byte above 127 can put it there.
  · have hne : s.slotInDispatch ≠ kNumSlots := of_decide_eq_true havail
    rw [run_bind_of_error (sendSlotDataRead_run_fault s hlt)]
    exact .dispatchFault msg hactive (Nat.lt_of_le_of_ne (Nat.le_of_not_lt hlt) hne.symm)

/-- A move between two different slots. -/
theorem slotToSlot_effect (msg : SlotMoveMsg) (hmove : msg.isSlotToSlot = true)
    (hne : ¬ isNullMove msg = true) :
    ProcessEffect s (.moveSlots msg)
      ((if isSlotInBounds msg.dest.toNat then
        (if isSlotInBounds msg.src.toNat then
          (do writeSlot msg.dest.toNat (← slotAt msg.src.toNat)
              clearSlot msg.src.toNat)
        else clearSlot msg.dest.toNat)
      else pure () : SlotServerRun Unit).run s) := by
  by_cases hdest : isSlotInBounds msg.dest.toNat = true
  · rw [if_pos hdest]
    by_cases hsrc : isSlotInBounds msg.src.toNat = true
    · rw [if_pos hsrc]
      -- `isSlotInBounds` only excludes `end()`. Numbers behind it pass the test and fault.
      rcases slotNumber_cases msg.src with ⟨i, hi⟩ | hge
      · rcases slotNumber_cases msg.dest with ⟨j, hj⟩ | hge
        · have hij : i ≠ j := by
            intro hij
            have hbytes : msg.src = msg.dest := BitVec.eq_of_toNat_eq (by rw [hi, hj, hij])
            exact hne (decide_eq_true hbytes)
          rw [hi, hj, run_bind_of_ok (slotAt_run s i), run_bind_of_ok (writeSlot_run s j _),
            clearSlot_run]
          exact .move msg i j hmove hi hj hij
        · rw [hi, run_bind_of_ok (slotAt_run s i),
            run_bind_of_error (writeSlot_run_fault s (Nat.not_lt.mpr hge) _)]
          exact .moveFault msg _ (.inr (lt_of_isSlotInBounds hdest hge))
      · rw [run_bind_of_error (slotAt_run_fault s (Nat.not_lt.mpr hge))]
        exact .moveFault msg _ (.inl (lt_of_isSlotInBounds hsrc hge))
    · have hend : msg.src.toNat = kNumSlots := by simpa [isSlotInBounds] using hsrc
      rw [if_neg hsrc]
      rcases slotNumber_cases msg.dest with ⟨j, hj⟩ | hge
      · rw [hj, clearSlot_run]
        exact .clear msg j hj hmove hend
      · rw [clearSlot, writeSlot_run_fault s (Nat.not_lt.mpr hge)]
        exact .moveFault msg _ (.inr (lt_of_isSlotInBounds hdest hge))
  · rw [if_neg hdest]
    exact .moveIgnored msg

omit [AddressScheme] in
/-- A dispatch get. -/
theorem processSlotMove_run_of_get {msg : SlotMoveMsg} (hget : isDispatchGet msg = true) :
    (processSlotMove msg).run s
      = (if s.isActive then
          (if s.dispatchSlotAvailable then
            (do sendSlotDataRead s.slotInDispatch
                modify fun server => { server with slotInDispatch := kNumSlots })
          else sendNoDispatch)
        else pure () : SlotServerRun Unit).run s := by
  simp only [processSlotMove, hget, if_true]
  rfl

omit [AddressScheme] in
/-- A dispatch put, in any mode. -/
theorem processSlotMove_run_of_put {msg : SlotMoveMsg} (hget : isDispatchGet msg = false)
    (hput : isDispatchPut msg = true) :
    (processSlotMove msg).run s = .ok ((), { s with slotInDispatch := msg.src.toNat }) := by
  simp only [processSlotMove, hget, hput]
  rfl

/-- A slot move has its effect, or faults. -/
theorem processSlotMove_effect (msg : SlotMoveMsg) :
    ProcessEffect s (.moveSlots msg) ((process (.moveSlots msg)).run s) := by
  have hrun : (process (.moveSlots msg)).run s = (processSlotMove msg).run s := rfl
  rw [hrun]
  -- The branches of the source: get, put, null move, and a move between two slots.
  by_cases hget : isDispatchGet msg = true
  · rw [processSlotMove_run_of_get s hget]
    by_cases hactive : s.isActive = true
    · rw [if_pos hactive]
      by_cases havail : s.dispatchSlotAvailable = true
      · rw [if_pos havail]
        exact dispatchGet_effect s msg hget hactive havail
      · rw [if_neg havail]
        exact .noDispatch msg hactive hget
    · rw [if_neg hactive]
      exact .moveIgnored msg
  · by_cases hput : isDispatchPut msg = true
    · rw [processSlotMove_run_of_put s (Bool.eq_false_iff.mpr hget) hput]
      exact .dispatchPut msg hput
    · by_cases hnull : isNullMove msg = true
      · have hcase : (processSlotMove msg).run s = .ok ((), s) := by
          simp only [processSlotMove, hget, hput, hnull]
          rfl
        rw [hcase]
        exact .moveIgnored msg
      · have hcase : (processSlotMove msg).run s
            = (if isSlotInBounds msg.dest.toNat then
                (if isSlotInBounds msg.src.toNat then
                  (do writeSlot msg.dest.toNat (← slotAt msg.src.toNat)
                      clearSlot msg.src.toNat)
                else clearSlot msg.dest.toNat)
              else pure () : SlotServerRun Unit).run s := by
          simp only [processSlotMove, hget, hput, hnull]
          rfl
        have hmove : msg.isSlotToSlot = true := by
          simp [SlotMoveMsg.isSlotToSlot, hget, hput, hnull]
        rw [hcase]
        exact slotToSlot_effect s msg hmove hnull

/-- Every run of `process` has one of the effects. -/
theorem process_effect (m : LnMsg) : ProcessEffect s m ((process m).run s) := by
  cases m with
  | moveSlots sm => exact processSlotMove_effect s sm
  | locoAdr la => exact processLocoRequest_effect s la
  | rqSlData sr => exact processRequestSlotRead_effect s sr
  | slRdData sd => exact processSlotRead_effect s sd
  | wrSlData sd => exact processSlotWrite_effect s sd
  | locoSpd lsp => exact process_control_effect s rfl
  | locoDirf ldf => exact process_control_effect s rfl
  | locoSnd ls => exact process_control_effect s rfl
  | locoSnd2 ls => exact process_control_effect s rfl
  | locoFunext msdi => exact process_control_effect s rfl
  | longAck lack => exact .unhandled _ rfl
  | swState srq => exact .unhandled _ rfl
  | swReq srq => exact .unhandled _ rfl
  | inputRep ir => exact .unhandled _ rfl
  | gpOn ir => exact .unhandled _ rfl
  | gpOff ir => exact .unhandled _ rfl
  | other args => exact .unhandled _ rfl

variable {s} in
/-- No message changes the configuration. -/
theorem process_dataModel {s' : LocoNetSlotServer} {m : LnMsg}
    (h : (process m).run s = .ok ((), s')) : s'.dataModel = s.dataModel := by
  have heffect := process_effect s m
  rw [h] at heffect
  cases heffect with
  | addressAllocated _ _ _ _ _ s₁ hs₁ =>
      subst hs₁
      rfl
  | _ => rfl

end Inversion

end C6021Light
