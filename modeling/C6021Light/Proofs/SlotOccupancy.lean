import C6021Light.Proofs.ServerCalls

/-!
# `C6021Light.Proofs.SlotOccupancy`: which slots are in use

A slot becomes in use in three ways: slot data is read for it, it is allocated for an address,
or a slot in use is moved into it. A `Ledger` keeps, for each slot, whether the history
explains that it is in use. Slot data replaces the explanation by what its status byte says.
Allocations and moves add one.

`sendSlotDataRead` writes the occupancy into the status byte, but `processSlotRead` does not
read it back: the slot is in use afterwards, whatever the byte says. So the ledger explains
every slot in use exactly as long as no slot data reports a slot free, and slot data sent from
one server to another keeps the occupancy exactly for a slot in use (`slotOccupancy_iff`).
-/

set_option autoImplicit false

namespace C6021Light

open FaultRun

/-! ### The ledger -/

/-- The slots whose use the history explains. -/
abbrev Ledger := Fin kNumSlots → Bool

/-- The slot data that a message carries. -/
def LnMsg.slotData : LnMsg → Option RwSlotDataMsg
  | slRdData sd => some sd
  | wrSlData sd => some sd
  | _ => none

/-- The status is FREE: bits 4 and 5 are both clear. -/
def RwSlotDataMsg.reportsFree (sd : RwSlotDataMsg) : Bool := sd.stat &&& 0b00110000 = 0

/-- The message moves a slot in use into slot `i`. -/
def SlotMoveMsg.movesInto (s : LocoNetSlotServer) (i : Fin kNumSlots) (sm : SlotMoveMsg) : Bool :=
  sm.isSlotToSlot && decide (sm.dest.toNat = i) &&
    (if h : sm.src.toNat < kNumSlots then (s.slot ⟨sm.src.toNat, h⟩).inUse else false)

section

variable [AddressScheme]

/-- The ledger after a received message. -/
def LnMsg.ledgerAfter (s : LocoNetSlotServer) (ledger : Ledger) : LnMsg → Ledger
  | slRdData sd | wrSlData sd => fun i =>
      if sd.slot.toNat = i then !sd.reportsFree else ledger i
  | locoAdr la => fun i =>
      ledger i || (s.isActive && decide (s.allocates (extractLocoAddress la) = some i))
  | moveSlots sm => fun i => ledger i || sm.movesInto s i
  | _ => ledger

/-- The ledger after a call. -/
def ServerCall.ledgerAfter (s : LocoNetSlotServer) (ledger : Ledger) : ServerCall → Ledger
  | process msg => msg.ledgerAfter s ledger
  | markAddressForDispatch addr => fun i => ledger i || decide (s.allocates addr = some i)
  | forwardLocoChange loco _ => fun i =>
      ledger i || (s.isActive && decide (s.allocates loco.address = some i))
  | _ => ledger

/-- The call reads slot data that reports a slot of the table free. -/
def ServerCall.readsFree : ServerCall → Bool
  | process msg =>
      match msg.slotData with
      | some sd => decide (sd.slot.toNat < kNumSlots) && sd.reportsFree
      | none => false
  | _ => false

/-- A slot server with its ledger. -/
structure AuditedServer where
  server : LocoNetSlotServer
  ledger : Ledger := fun _ => false

/-- A call on the server, with the ledger kept. -/
def ServerCall.execAudited (call : ServerCall) : StateT AuditedServer (Except Fault) Unit := do
  let audited ← get
  let (_, server) ← call.exec.run audited.server
  set ({ server := server,
         ledger := call.ledgerAfter audited.server audited.ledger } : AuditedServer)

omit [AddressScheme] in
/-- Every slot in use is explained. -/
def Explained (s : LocoNetSlotServer) (ledger : Ledger) : Prop :=
  ∀ i, (s.slot i).inUse = true → ledger i = true

/-- An audited call is the call, and the ledger follows it. -/
theorem ServerCall.execAudited_run {call : ServerCall} {a a' : AuditedServer}
    (h : (call.execAudited).run a = .ok ((), a')) :
    (call.exec).run a.server = .ok ((), a'.server) ∧
      a'.ledger = call.ledgerAfter a.server a.ledger := by
  obtain ⟨t, _, hget, hrest⟩ := run_bind_eq_ok.mp h
  cases hget
  obtain ⟨r, a₁, hlift, hset⟩ := run_bind_eq_ok.mp hrest
  obtain ⟨hexec, ha₁⟩ := run_liftM_eq_ok.mp hlift
  subst ha₁
  cases hset
  exact ⟨hexec, rfl⟩

/-! ### One step -/

variable {s s' : LocoNetSlotServer} {ledger : Ledger}

omit [AddressScheme] in
/-- Replacing a slot by one that is in use only if it was, or if the new ledger explains it. -/
theorem Explained.setSlot {ledger' : Ledger} (hs : Explained s ledger) {i : Fin kNumSlots}
    {entry : SlotEntry} (hle : ∀ j, j ≠ i → ledger j = true → ledger' j = true)
    (hi : entry.inUse = true → ledger' i = true) : Explained (s.setSlot i entry) ledger' := by
  intro j hj
  rw [LocoNetSlotServer.slot_setSlot] at hj
  split at hj
  · next hji => exact hji ▸ hi hj
  · next hne => exact hle j hne (hs j hj)

omit [AddressScheme] in
/-- Further explanations. -/
theorem Explained.or (hs : Explained s ledger) (more : Ledger) :
    Explained s (fun i => ledger i || more i) :=
  fun i hi => Bool.or_eq_true_iff.mpr (.inl (hs i hi))

omit [AddressScheme] in
/-- A slot that is taken into use with an explanation. -/
theorem Explained.setSlot_or (hs : Explained s ledger) {more : Ledger} {i : Fin kNumSlots}
    {entry : SlotEntry} (hi : entry.inUse = true → more i = true) :
    Explained (s.setSlot i entry) (fun j => ledger j || more j) :=
  hs.setSlot (fun _ _ hj => Bool.or_eq_true_iff.mpr (.inl hj))
    (fun hin => Bool.or_eq_true_iff.mpr (.inr (hi hin)))

/-- Only slot data takes an explanation away. -/
theorem LnMsg.ledgerAfter_of_ledger {m : LnMsg} (hm : m.slotData = none) {i : Fin kNumSlots}
    (h : ledger i = true) : m.ledgerAfter s ledger i = true := by
  cases m with
  | slRdData sd => cases hm
  | wrSlData sd => cases hm
  | locoAdr la => exact Bool.or_eq_true_iff.mpr (.inl h)
  | moveSlots sm => exact Bool.or_eq_true_iff.mpr (.inl h)
  | _ => exact h

omit [AddressScheme] in
/-- A control message has no slot data. -/
theorem LnMsg.slotData_of_control {m : LnMsg} {slot : Byte} (h : m.controlSlot = some slot) :
    m.slotData = none := by
  cases m <;> first
    | rfl
    | cases h

omit [AddressScheme] in
/-- Slot data that does not report FREE explains the slot. -/
theorem Explained.slotRead (hs : Explained s ledger) {sd : RwSlotDataMsg} {i : Fin kNumSlots}
    (hi : sd.slot.toNat = i) (hused : sd.reportsFree = false) :
    Explained (s.setSlot i ((s.slot i).slotRead sd))
      (fun j => if sd.slot.toNat = j then !sd.reportsFree else ledger j) := by
  refine hs.setSlot ?_ ?_
  · intro j hj hold
    have hne : ¬ sd.slot.toNat = j := by
      intro h
      exact hj (Fin.ext (h.symm.trans hi))
    rw [if_neg hne, hold]
  · intro _
    rw [if_pos hi, hused]
    rfl

/-- A message keeps the ledger complete, when it does not report a slot free. -/
theorem process_explained {m : LnMsg} (hs : Explained s ledger)
    (h : (process m).run s = .ok ((), s')) (hfree : (ServerCall.process m).readsFree = false) :
    Explained s' (m.ledgerAfter s ledger) := by
  have hkeep : m.slotData = none → Explained s (m.ledgerAfter s ledger) :=
    fun hm i hi => LnMsg.ledgerAfter_of_ledger hm (hs i hi)
  have hused : ∀ {sd : RwSlotDataMsg} {i : Fin kNumSlots}, m.slotData = some sd →
      sd.slot.toNat = i → sd.reportsFree = false := by
    intro sd i hm hi
    have hlt : sd.slot.toNat < kNumSlots := hi ▸ i.isLt
    simpa [ServerCall.readsFree, hm, hlt] using hfree
  have houtside : ∀ {sd : RwSlotDataMsg}, kNumSlots ≤ sd.slot.toNat →
      Explained s (fun i => if sd.slot.toNat = i then !sd.reportsFree else ledger i) := by
    intro sd hge i hi
    have hne : ¬ sd.slot.toNat = i := by
      have hlt := i.isLt
      omega
    simp only [if_neg hne, hs i hi]
  have heffect := process_effect s m
  rw [h] at heffect
  cases heffect with
  | control i hslot =>
      have hm := LnMsg.slotData_of_control hslot
      refine hs.setSlot (fun j _ hj => LnMsg.ledgerAfter_of_ledger hm hj) ?_
      intro hin
      -- A control message does not take a slot into use.
      have hold : (s.slot i).inUse = true := by
        rw [SlotEntry.control_inUse] at hin
        rw [SlotEntry.requested] at hin
        split at hin <;> exact hin
      exact LnMsg.ledgerAfter_of_ledger hm (hs i hold)
  | controlIgnored hmagic =>
      cases m with
      | locoFunext msdi => exact hkeep rfl
      | _ => cases hmagic
  | slotRead msg i hi => exact hs.slotRead hi (hused rfl hi)
  | slotReadOutside msg hge => exact houtside hge
  | slotWrite msg i hi => exact hs.slotRead hi (hused rfl hi)
  | slotWriteOutside msg hge => exact houtside hge
  | slotRequest => exact hkeep rfl
  | addressFound => exact hkeep rfl
  | addressAllocated la i hactive halloc _ s₁ hs₁ =>
      subst hs₁
      refine hs.setSlot_or fun _ => ?_
      rw [hactive, halloc, decide_eq_true rfl, Bool.true_and]
  | addressIgnored => exact hkeep rfl
  | dispatchGet => exact hkeep rfl
  | noDispatch => exact hkeep rfl
  | dispatchPut => exact hkeep rfl
  | move msg i j hmove hi hj =>
      have hdest : Explained (s.setSlot j (s.slot i))
          ((LnMsg.moveSlots msg).ledgerAfter s ledger) := by
        refine hs.setSlot_or fun hin => ?_
        have hlt : msg.src.toNat < kNumSlots := hi ▸ i.isLt
        have hsrc : (⟨msg.src.toNat, hlt⟩ : Fin kNumSlots) = i := Fin.ext hi
        simp [SlotMoveMsg.movesInto, hmove, hj, hlt, hsrc, hin]
      -- The source slot of the move is cleared afterwards.
      refine hdest.setSlot (fun k _ hk => hk) fun hin => ?_
      cases hin
  | clear msg j =>
      refine hs.setSlot (fun k _ hk => LnMsg.ledgerAfter_of_ledger rfl hk) fun hin => ?_
      cases hin
  | moveIgnored => exact hkeep rfl
  | unhandled m hm =>
      refine hkeep ?_
      cases m <;> first
        | rfl
        | cases hm

/-- Slot data that reports a slot free leaves it in use without an explanation. -/
theorem process_not_explained {m : LnMsg} (h : (process m).run s = .ok ((), s'))
    (hfree : (ServerCall.process m).readsFree = true) :
    ¬ Explained s' (m.ledgerAfter s ledger) := by
  obtain ⟨sd, hm, hfree'⟩ : ∃ sd, m.slotData = some sd ∧
      (decide (sd.slot.toNat < kNumSlots) && sd.reportsFree) = true := by
    cases hm : m.slotData with
    | some sd => exact ⟨sd, rfl, by simpa [ServerCall.readsFree, hm] using hfree⟩
    | none => simp [ServerCall.readsFree, hm] at hfree
  rw [Bool.and_eq_true, decide_eq_true_eq] at hfree'
  obtain ⟨hlt, hreports⟩ := hfree'
  have hledger : m.ledgerAfter s ledger ⟨sd.slot.toNat, hlt⟩ = false := by
    cases m with
    | slRdData sd' =>
        cases hm
        simp [LnMsg.ledgerAfter, hreports]
    | wrSlData sd' =>
        cases hm
        simp [LnMsg.ledgerAfter, hreports]
    | _ => cases hm
  -- `processSlotRead` sets `inUse` without a look at the status byte.
  have hin : (s'.slot ⟨sd.slot.toNat, hlt⟩).inUse = true := by
    cases m with
    | slRdData sd' =>
        cases hm
        have hrun : (process (.slRdData sd)).run s = (processSlotRead sd).run s := rfl
        rw [hrun, processSlotRead_run s sd (i := ⟨sd.slot.toNat, hlt⟩) rfl] at h
        cases h
        rw [LocoNetSlotServer.slot_setSlot_self]
        rfl
    | wrSlData sd' =>
        cases hm
        rw [process_wrSlData_run (processSlotRead_run s sd (i := ⟨sd.slot.toNat, hlt⟩) rfl)] at h
        cases h
        rw [LocoNetSlotServer.slot_send, LocoNetSlotServer.slot_setSlot_self]
        rfl
    | _ => cases hm
  intro hexplained
  have hyes := hexplained _ hin
  rw [hledger] at hyes
  cases hyes

/-- A lookup keeps the ledger complete: a slot that it allocates is explained. -/
theorem findOrAllocateSlotForAddress_explained {addr : LocoAddr} {slotIt : SlotIt}
    (hs : Explained s ledger)
    (h : (findOrAllocateSlotForAddress addr).run s = .ok (slotIt, s')) :
    Explained s' (fun i => ledger i || decide (s.allocates addr = some i)) := by
  have heffect := findOrAllocateSlotForAddress_effect s addr
  rw [h] at heffect
  cases heffect with
  | found => exact hs.or _
  | allocated i halloc => exact hs.setSlot_or fun _ => decide_eq_true halloc

/-- The same for the lookup of the forwarder, which allocates in active mode only. -/
theorem findSlot_explained {addr : LocoAddr} {slotIt : SlotIt} (hs : Explained s ledger)
    (h : (LocoNetForwarder.findSlot addr).run s = .ok (slotIt, s')) :
    Explained s' (fun i =>
      ledger i || (s.isActive && decide (s.allocates addr = some i))) := by
  have heffect := findSlot_effect s addr
  rw [h] at heffect
  cases heffect with
  | found => exact hs.or _
  | foundActive => exact hs.or _
  | notFound => exact hs.or _
  | allocated i hactive halloc =>
      refine hs.setSlot_or fun _ => ?_
      rw [hactive, halloc, decide_eq_true rfl, Bool.true_and]

/-- Forwarding a change of an engine keeps the slots explained. -/
theorem forwardLocoChange_explained {loco : LocomotiveData} {diff diff' : LocoDiff}
    (hs : Explained s ledger)
    (h : (LocoNetForwarder.forwardLocoChange loco diff).run s = .ok (diff', s')) :
    Explained s' ((ServerCall.forwardLocoChange loco diff).ledgerAfter s ledger) := by
  have heffect := forwardLocoChange_effect s loco diff
  rw [h] at heffect
  cases heffect with
  | disabled => exact hs.or _
  | notFound => exact hs.or _
  -- Only the lookup can take a slot into use. The announcement keeps `inUse`.
  | found _ i s₁ hfind =>
      have hs₁ := findSlot_explained hs hfind
      exact hs₁.setSlot (fun j _ hj => hj) (fun hin => hs₁ i hin)

/-- A call leaves every slot in use explained exactly when it does not read slot data that
reports a slot free. -/
theorem ServerCall.exec_explained_iff {call : ServerCall} (hs : Explained s ledger)
    (h : (call.exec).run s = .ok ((), s')) :
    Explained s' (call.ledgerAfter s ledger) ↔ call.readsFree = false := by
  -- One case per call. Only slot data takes a slot into use that is reported free.
  cases call with
  | process msg =>
      cases hfree : (ServerCall.process msg).readsFree with
      | true => exact iff_of_false (process_not_explained h hfree) (by decide)
      | false => exact iff_of_true (process_explained hs h hfree) rfl
  | handleDummyMessages msg =>
      rw [handleDummyMessages_eq h]
      exact iff_of_true hs rfl
  | markAddressForDispatch addr =>
      obtain ⟨it, s₁, hfind, _, rfl⟩ := markAddressForDispatch_run h
      have hs₁ := findOrAllocateSlotForAddress_explained hs hfind
      exact iff_of_true hs₁ rfl
  | forwardLocoChange loco diff =>
      obtain ⟨diff', s₁, hforward, hpure⟩ := run_bind_eq_ok.mp h
      cases hpure
      exact iff_of_true (forwardLocoChange_explained hs hforward) rfl
  | matchSlot engineDb i =>
      cases h
      refine iff_of_true (hs.setSlot (fun j _ hj => hj) ?_) rfl
      obtain ⟨uid, diff, hentry⟩ := (s.slot i).forwardToCAN_eq engineDb
      intro hin
      rw [hentry] at hin
      exact hs i hin
  | setSlotServerState state => cases h; exact iff_of_true hs rfl
  | asyncSend msg => cases h; exact iff_of_true hs rfl
  | blockingSend => cases h; exact iff_of_true hs rfl

/-! ### The wire -/

/-- The receiver's slot is in use after the slot data exactly when the sender's is. -/
def OccupancySurvives (sender receiver : LocoNetSlotServer) (i : Fin kNumSlots) : Prop :=
  ∃ sender' sd receiver', (sendSlotDataRead i).run sender = .ok ((), sender') ∧
    (sender.tx.newCalls sender'.tx).map Prod.fst = [.slRdData sd] ∧
    (process (.slRdData sd)).run receiver = .ok ((), receiver') ∧
    ((receiver'.slot i).inUse = true ↔ (sender.slot i).inUse = true)

/-- The occupancy survives exactly when the sender's slot is in use. -/
theorem occupancySurvives_iff (sender receiver : LocoNetSlotServer) (i : Fin kNumSlots) :
    OccupancySurvives sender receiver i ↔ (sender.slot i).inUse = true := by
  have hsend := sendSlotDataRead_run sender i
  have hreceive := processSlotRead_run receiver (i := i)
    (lnSlotReadWriteMessage (findSlotIndex i) (slotStatus (sender.slot i)) (sender.slot i).loco)
    (findSlotIndex_toNat i)
  constructor
  · rintro ⟨sender', sd, receiver', hsend', hsent, hreceive', hiff⟩
    rw [hsend] at hsend'
    cases hsend'
    rw [LocoNetSlotServer.tx_send, LocoNetTx.newCalls_sendAll_map_fst] at hsent
    cases hsent
    have hread : (process (.slRdData _)).run receiver = _ := hreceive
    rw [hread] at hreceive'
    cases hreceive'
    rw [LocoNetSlotServer.slot_setSlot_self] at hiff
    exact hiff.mp rfl
  · intro hin
    refine ⟨_, _, _, hsend, LocoNetTx.newCalls_sendAll_map_fst _ _, hreceive, ?_⟩
    rw [LocoNetSlotServer.slot_setSlot_self]
    exact iff_of_true rfl hin

/-! ### Both -/

/-- Slot data keeps the occupancy of a slot exactly when the sender's slot is in use. And in
a run from an unused table, every slot in use is explained after every call exactly when no
slot data reports a slot free. -/
theorem slotOccupancy_iff :
    (∀ (sender receiver : LocoNetSlotServer) (i : Fin kNumSlots),
      OccupancySurvives sender receiver i ↔ (sender.slot i).inUse = true) ∧
    (∀ (server : LocoNetSlotServer) (calls : List ServerCall),
      (∀ i, (server.slot i).inUse = false) →
      (Along ServerCall.execAudited (fun _ _ a => Explained a.server a.ledger)
          { server := server } calls ↔
        Along ServerCall.execAudited (fun _ call _ => call.readsFree = false)
          { server := server } calls)) := by
  refine ⟨occupancySurvives_iff, ?_⟩
  -- The ledger is right in front of a call, and behind it exactly when the call reads nothing free.
  intro server calls hunused
  refine along_invariant_iff ServerCall.execAudited
    (I := fun a => Explained a.server a.ledger) ?_ calls _ ?_
  · intro a call a' hI hrun
    obtain ⟨hexec, hledger⟩ := ServerCall.execAudited_run hrun
    rw [hledger]
    exact ServerCall.exec_explained_iff hI hexec
  · intro i hin
    rw [hunused i] at hin
    cases hin

end

/-- No slot of the table at start-up is in use. -/
theorem slot_empty_inUse {s : LocoNetSlotServer} (h : s.slotDB = .empty) (i : Fin kNumSlots) :
    (s.slot i).inUse = false := by
  simp [LocoNetSlotServer.slot, SlotDB.entry, h, SlotDB.empty]

/-- Slot data for a busy slot, into the table at start-up. -/
theorem slotOccupancy_iff_busy :
    letI := AddressScheme.upperBits
    let server : LocoNetSlotServer := { dataModel := { lnSlotServerState := .passive } }
    let busy : RwSlotDataMsg := lnSlotReadWriteMessage 1 0x33 { address := 3 }
    Along ServerCall.execAudited (fun _ _ a => Explained a.server a.ledger)
      { server := server } [.process (.slRdData busy)] := by
  let _ := AddressScheme.upperBits
  intro server busy
  have hbusy : (ServerCall.process (.slRdData busy)).readsFree = false := by decide
  refine (slotOccupancy_iff.2 server _ (slot_empty_inUse rfl)).mpr ?_
  intro a _
  exact ⟨hbusy, trivial⟩

/-- A server that was asked for its unused slot 1 sends a FREE status, and the receiver
takes the slot into use. -/
theorem slotOccupancy_free_slot :
    letI := AddressScheme.upperBits
    let server : LocoNetSlotServer := { dataModel := { lnSlotServerState := .active } }
    let free : RwSlotDataMsg := lnSlotReadWriteMessage 1 0x03 {}
    (sendSlotDataRead 1).run server = .ok ((), server.send [.slRdData free]) ∧
      ¬ OccupancySurvives server server 1 ∧
      ¬ Along ServerCall.execAudited (fun _ _ a => Explained a.server a.ledger)
        { server := server } [.process (.slRdData free)] := by
  let _ := AddressScheme.upperBits
  intro server free
  have hunused := slot_empty_inUse (s := server) rfl 1
  refine ⟨rfl, ?_, ?_⟩
  · intro hsurvives
    have hin := (occupancySurvives_iff server server 1).mp hsurvives
    rw [hunused] at hin
    cases hin
  · intro halong
    have hrun : (process (.slRdData free)).run server
        = .ok ((), server.setSlot 1 ((server.slot 1).slotRead free)) := rfl
    obtain ⟨hexplained, _⟩ := halong _ rfl
    exact process_not_explained hrun (by decide) hexplained

end C6021Light
