import C6021Light.Proofs.SlotData
import C6021Light.Proofs.SlotLookup
import C6021Light.Proofs.SlotOccupancy

/-!
# `C6021Light.Proofs.SlotTable`: the slot table as a map from slots to engines

The directory of a server tells for each slot whether it is in use, and its address.
`DirectoryChange` lists what a call can do to it: nothing, a write by slot data, an
allocation, a move, or a clear. Every later invariant of the table follows from this list.

The first of them is that slot 0 is not used and that no two slots in use have the same
numeric address (`TableInv`). Allocation searches before it inserts, and a move takes the
address along. Slot data is the exception: `processSlotRead` writes the received address into
the received slot and asks nothing. So a run keeps the invariant exactly when all its slot
data are for slots other than 0 and bring no address of another slot (`tableInv_iff`).
-/

set_option autoImplicit false

namespace C6021Light

open FaultRun AddressScheme

/-! ### Directories -/

/-- For each slot whether it is in use, and its address. -/
abbrev Directory := Fin kNumSlots → Bool × LocoAddr

/-- The directory of a server's table. -/
def LocoNetSlotServer.directory (s : LocoNetSlotServer) : Directory :=
  fun i => ((s.slot i).inUse, (s.slot i).loco.address)

namespace LocoNetSlotServer

variable (s : LocoNetSlotServer) (i : Fin kNumSlots) (entry : SlotEntry)

/-- A slot that was set changes the directory in its place. -/
theorem directory_setSlot : (s.setSlot i entry).directory
    = Function.update s.directory i (entry.inUse, entry.loco.address) := by
  funext j
  rw [directory, slot_setSlot, Function.update_apply]
  split <;> rfl

/-- An entry for the same engine. -/
theorem directory_setSlot_of_eq (hin : entry.inUse = (s.slot i).inUse)
    (haddr : entry.loco.address = (s.slot i).loco.address) :
    (s.setSlot i entry).directory = s.directory := by
  rw [directory_setSlot, hin, haddr]
  exact Function.update_eq_self i s.directory

/-- Sending does not touch the directory. -/
@[simp] theorem directory_send (msgs : List LnMsg) : (s.send msgs).directory = s.directory :=
  rfl

/-- A control message does not touch the directory. -/
theorem directory_control (m : LnMsg) :
    (s.setSlot i (((s.slot i).requested s.isDisabled).control m)).directory = s.directory := by
  have hid := (SlotEntry.control_identity m ((s.slot i).requested s.isDisabled)).trans
    ((s.slot i).requested_identity s.isDisabled)
  exact s.directory_setSlot_of_eq i _ (congrArg (·.1) hid) (congrArg (·.2.2.1) hid)

/-- Neither does the announcement of a change. -/
theorem directory_announce (loco : LocomotiveData) (diff : LocoDiff) :
    (s.setSlot i ((s.slot i).cacheChange loco diff)).directory = s.directory :=
  s.directory_setSlot_of_eq i _ rfl rfl

end LocoNetSlotServer

/-- The slot of the table and the address that slot data writes. -/
def LnMsg.slotWrite (m : LnMsg) : Option (Fin kNumSlots × LocoAddr) :=
  m.slotData.bind fun sd =>
    if h : sd.slot.toNat < kNumSlots then some (⟨sd.slot.toNat, h⟩, getLocoAddress sd) else none

/-- Slot data for the table writes its slot. -/
theorem LnMsg.slotWrite_of_slot {m : LnMsg} {sd : RwSlotDataMsg} {i : Fin kNumSlots}
    (hm : m.slotData = some sd) (hi : sd.slot.toNat = i) :
    m.slotWrite = some (i, getLocoAddress sd) := by
  have hlt : sd.slot.toNat < kNumSlots := hi ▸ i.isLt
  have hslot : (⟨sd.slot.toNat, hlt⟩ : Fin kNumSlots) = i := Fin.ext hi
  rw [LnMsg.slotWrite, hm, Option.bind_some, dif_pos hlt, hslot]

/-- Slot data for a slot behind the table writes nothing. -/
theorem LnMsg.slotWrite_of_ge {m : LnMsg} {sd : RwSlotDataMsg} (hm : m.slotData = some sd)
    (hge : kNumSlots ≤ sd.slot.toNat) : m.slotWrite = none := by
  rw [LnMsg.slotWrite, hm, Option.bind_some, dif_neg (Nat.not_lt.mpr hge)]

/-- A message without slot data writes nothing. -/
theorem LnMsg.slotWrite_of_no_data {m : LnMsg} (hm : m.slotData = none) :
    m.slotWrite = none := by
  rw [LnMsg.slotWrite, hm, Option.bind_none]

section

variable [AddressScheme]

/-- What a call does to the directory. `msg` is the message that it processes, if any. -/
inductive DirectoryChange (s : LocoNetSlotServer) (msg : Option LnMsg) : Directory → Prop
  | unchanged (hw : msg.bind LnMsg.slotWrite = none) : DirectoryChange s msg s.directory
  | written (i : Fin kNumSlots) (addr : LocoAddr)
      (hw : msg.bind LnMsg.slotWrite = some (i, addr)) :
      DirectoryChange s msg (Function.update s.directory i (true, addr))
  | allocated (i : Fin kNumSlots) (addr : LocoAddr) (hw : msg.bind LnMsg.slotWrite = none)
      (hnone : s.slotWithAddress addr = none) (hfree : s.firstFree = some i) :
      DirectoryChange s msg (Function.update s.directory i (true, getNumericAddress addr))
  | moved (sm : SlotMoveMsg) (i j : Fin kNumSlots) (hmsg : msg = some (.moveSlots sm))
      (hi : sm.src.toNat = i) (hj : sm.dest.toNat = j) (hj0 : j ≠ 0) (hne : i ≠ j) :
      DirectoryChange s msg
        (Function.update (Function.update s.directory j (s.directory i)) i (false, 0))
  | cleared (sm : SlotMoveMsg) (j : Fin kNumSlots) (hmsg : msg = some (.moveSlots sm))
      (hj : sm.dest.toNat = j) (hsrc : sm.src.toNat = kNumSlots) :
      DirectoryChange s msg (Function.update s.directory j (false, 0))

variable {s s' : LocoNetSlotServer}

omit [AddressScheme] in
/-- A slot-to-slot move does not go to slot 0. -/
theorem SlotMoveMsg.dest_ne_zero {sm : SlotMoveMsg} (h : sm.isSlotToSlot = true)
    {j : Fin kNumSlots} (hj : sm.dest.toNat = j) : j ≠ 0 := by
  rintro rfl
  have hzero : sm.dest = 0 := BitVec.eq_of_toNat_eq hj
  simp [SlotMoveMsg.isSlotToSlot, isDispatchPut, hzero] at h

omit [AddressScheme] in
/-- A message without its magic byte has no slot data. -/
theorem LnMsg.slotData_of_no_magic {m : LnMsg} (h : m.hasMagic = false) :
    m.slotData = none := by
  cases m <;> first
    | rfl
    | cases h

omit [AddressScheme] in
/-- A message that is not handled has no slot data. -/
theorem LnMsg.slotData_of_unhandled {m : LnMsg} (h : m.isHandled = false) :
    m.slotData = none := by
  cases m <;> first
    | rfl
    | cases h

/-- `process` writes slot data into its slot, allocates a free slot, moves an engine or leaves the
directory. -/
theorem process_directoryChange {m : LnMsg} (h : (process m).run s = .ok ((), s')) :
    DirectoryChange s (some m) s'.directory := by
  have hkeep : ∀ {m : LnMsg}, m.slotWrite = none → DirectoryChange s (some m) s.directory :=
    fun hw => .unchanged hw
  have hsame : ∀ {m : LnMsg}, m.slotData = none → DirectoryChange s (some m) s.directory :=
    fun hm => hkeep (LnMsg.slotWrite_of_no_data hm)
  -- Slot data in the table is a write, whatever the rest of the slot becomes.
  have hwritten : ∀ {m : LnMsg} {sd : RwSlotDataMsg} {i : Fin kNumSlots},
      m.slotData = some sd → sd.slot.toNat = i →
      DirectoryChange s (some m) (s.setSlot i ((s.slot i).slotRead sd)).directory := by
    intro m sd i hm hi
    have haddr : ((s.slot i).slotRead sd).loco.address = getLocoAddress sd := by
      rw [SlotEntry.slotRead_loco]
    rw [LocoNetSlotServer.directory_setSlot, haddr]
    exact .written i _ (LnMsg.slotWrite_of_slot hm hi)
  have heffect := process_effect s m
  rw [h] at heffect
  cases heffect with
  | control i hslot =>
      rw [LocoNetSlotServer.directory_send, LocoNetSlotServer.directory_control]
      exact hsame (LnMsg.slotData_of_control hslot)
  | controlIgnored hmagic => exact hsame (LnMsg.slotData_of_no_magic hmagic)
  | slotRead msg i hi => exact hwritten rfl hi
  | slotReadOutside msg hge => exact hkeep (LnMsg.slotWrite_of_ge rfl hge)
  | slotWrite msg i hi => exact hwritten rfl hi
  | slotWriteOutside msg hge => exact hkeep (LnMsg.slotWrite_of_ge rfl hge)
  | slotRequest => exact hsame rfl
  | addressFound => exact hsame rfl
  | addressAllocated la i _ halloc _ s₁ hs₁ =>
      subst hs₁
      obtain ⟨hnone, hfree⟩ := allocates_eq_some_iff.mp halloc
      rw [LocoNetSlotServer.directory_send, LocoNetSlotServer.directory_setSlot]
      exact .allocated i _ rfl hnone hfree
  | addressIgnored => exact hsame rfl
  | dispatchGet => exact hsame rfl
  | noDispatch => exact hsame rfl
  | dispatchPut => exact hsame rfl
  | move msg i j hmove hi hj hne =>
      rw [LocoNetSlotServer.directory_setSlot, LocoNetSlotServer.directory_setSlot]
      exact .moved msg i j rfl hi hj (SlotMoveMsg.dest_ne_zero hmove hj) hne
  | clear msg j hj _ hsrc =>
      rw [LocoNetSlotServer.directory_setSlot]
      exact .cleared msg j rfl hj hsrc
  | moveIgnored => exact hsame rfl
  | unhandled _ hm => exact hsame (LnMsg.slotData_of_unhandled hm)

/-- `findOrAllocateSlotForAddress` leaves the directory or allocates the first free slot. -/
theorem findOrAllocateSlotForAddress_directoryChange {addr : LocoAddr} {slotIt : SlotIt}
    (h : (findOrAllocateSlotForAddress addr).run s = .ok (slotIt, s')) :
    DirectoryChange s none s'.directory := by
  have heffect := findOrAllocateSlotForAddress_effect s addr
  rw [h] at heffect
  cases heffect with
  | found => exact .unchanged rfl
  | allocated i halloc =>
      obtain ⟨hnone, hfree⟩ := allocates_eq_some_iff.mp halloc
      rw [LocoNetSlotServer.directory_setSlot]
      exact .allocated i addr rfl hnone hfree

/-- So does the lookup of a forwarded change. -/
theorem findSlot_directoryChange {addr : LocoAddr} {slotIt : SlotIt}
    (h : (LocoNetForwarder.findSlot addr).run s = .ok (slotIt, s')) :
    DirectoryChange s none s'.directory := by
  have heffect := findSlot_effect s addr
  rw [h] at heffect
  cases heffect with
  | allocated i _ halloc =>
      obtain ⟨hnone, hfree⟩ := allocates_eq_some_iff.mp halloc
      rw [LocoNetSlotServer.directory_setSlot]
      exact .allocated i addr rfl hnone hfree
  | _ => exact .unchanged rfl

/-- So does the whole forwarding. -/
theorem forwardLocoChange_directoryChange {loco : LocomotiveData} {diff diff' : LocoDiff}
    (h : (LocoNetForwarder.forwardLocoChange loco diff).run s = .ok (diff', s')) :
    DirectoryChange s none s'.directory := by
  have heffect := forwardLocoChange_effect s loco diff
  rw [h] at heffect
  cases heffect with
  | disabled => exact .unchanged rfl
  | notFound => exact .unchanged rfl
  | found _ i s₁ hfind =>
      rw [LocoNetSlotServer.directory_send, LocoNetSlotServer.directory_announce]
      exact findSlot_directoryChange hfind

/-- The message that a call processes. -/
def ServerCall.processed : ServerCall → Option LnMsg
  | process msg => some msg
  | _ => none

/-- Every call of the server changes the directory in one of these ways. -/
theorem ServerCall.exec_directoryChange {call : ServerCall}
    (h : (call.exec).run s = .ok ((), s')) :
    DirectoryChange s call.processed s'.directory := by
  cases call with
  | process msg => exact process_directoryChange h
  | handleDummyMessages msg =>
      rw [handleDummyMessages_eq h, LocoNetSlotServer.directory_send]
      exact .unchanged rfl
  | markAddressForDispatch addr =>
      obtain ⟨it, s₁, hfind, _, rfl⟩ := markAddressForDispatch_run h
      exact (findOrAllocateSlotForAddress_directoryChange hfind :
        DirectoryChange s none s₁.directory)
  | forwardLocoChange loco diff =>
      obtain ⟨_, s₁, hforward, hpure⟩ := run_bind_eq_ok.mp h
      cases hpure
      exact forwardLocoChange_directoryChange hforward
  -- The match writes UID and flags only.
  | matchSlot engineDb i =>
      cases h
      have hsame : (s.setSlot i ((s.slot i).forwardToCAN engineDb).2).directory
          = s.directory := by
        obtain ⟨uid, diff, hentry⟩ := (s.slot i).forwardToCAN_eq engineDb
        rw [hentry]
        exact s.directory_setSlot_of_eq i _ rfl rfl
      show DirectoryChange s none (s.setSlot i ((s.slot i).forwardToCAN engineDb).2).directory
      rw [hsame]
      exact .unchanged rfl
  | setSlotServerState state =>
      cases h
      exact .unchanged rfl
  | asyncSend msg =>
      cases h
      exact .unchanged rfl
  | blockingSend =>
      cases h
      exact .unchanged rfl

/-- The message that a call processes. -/
def AllocationCall.processed : AllocationCall → Option LnMsg
  | server call => call.processed
  | findOrAllocateSlotForAddress _ => none

/-- So does every call with the allocations of the console. -/
theorem AllocationCall.exec_directoryChange {call : AllocationCall}
    (h : (call.exec).run s = .ok ((), s')) :
    DirectoryChange s call.processed s'.directory := by
  cases call with
  | server call => exact ServerCall.exec_directoryChange h
  | findOrAllocateSlotForAddress addr =>
      obtain ⟨it, s₁, hfind, hpure⟩ := run_bind_eq_ok.mp h
      cases hpure
      exact findOrAllocateSlotForAddress_directoryChange hfind

/-! ### The invariant -/

/-- Slot 0 is not in use, and no two slots in use have the same numeric address. -/
structure TableInv (d : Directory) : Prop where
  slotZero : (d 0).1 = false
  injective : ∀ i j, (d i).1 = true → (d j).1 = true →
    getNumericAddress (d i).2 = getNumericAddress (d j).2 → i = j

/-- No slot but `i` is in use with this numeric address. -/
def Directory.IsFresh (d : Directory) (i : Fin kNumSlots) (addr : LocoAddr) : Prop :=
  ∀ j, j ≠ i → (d j).1 = true → getNumericAddress (d j).2 ≠ getNumericAddress addr

/-- When the message is slot data for the table, the slot is not 0 and the address belongs to
no other slot. -/
def WritesFreshAddress (d : Directory) (msg : Option LnMsg) : Prop :=
  ∀ i addr, msg.bind LnMsg.slotWrite = some (i, addr) → i ≠ 0 ∧ d.IsFresh i addr

namespace TableInv

variable {d : Directory} {i j : Fin kNumSlots} {addr : LocoAddr}

/-- An engine written into a slot keeps the invariant exactly when it is new. -/
theorem update_iff (hd : TableInv d) :
    TableInv (Function.update d i (true, addr)) ↔ i ≠ 0 ∧ d.IsFresh i addr := by
  constructor
  -- Slot 0 and a second slot for the address break the invariant.
  · intro h
    constructor
    · rintro rfl
      have hzero := h.slotZero
      rw [Function.update_self] at hzero
      cases hzero
    · intro j hj hin haddr
      have hself : Function.update d i (true, addr) i = (true, addr) := Function.update_self ..
      have hother : Function.update d i (true, addr) j = d j := Function.update_of_ne hj ..
      refine hj (h.injective j i ?_ ?_ ?_)
      · rw [hother, hin]
      · rw [hself]
      · rw [hother, hself, haddr]
  -- Of two slots that hold one address at least one is the new one, and the other is not in use.
  · rintro ⟨hi, hfresh⟩
    constructor
    · rw [Function.update_of_ne hi.symm, hd.slotZero]
    · intro j k hj hk haddr
      by_cases hji : j = i
      · subst hji
        by_cases hkj : k = j
        · exact hkj.symm
        · rw [Function.update_self, Function.update_of_ne hkj] at haddr
          rw [Function.update_of_ne hkj] at hk
          exact absurd haddr.symm (hfresh k hkj hk)
      · rw [Function.update_of_ne hji] at hj haddr
        by_cases hki : k = i
        · subst hki
          rw [Function.update_self] at haddr
          exact absurd haddr (hfresh j hji hj)
        · rw [Function.update_of_ne hki] at hk haddr
          exact hd.injective j k hj hk haddr

/-- Clearing a slot. -/
theorem clear (hd : TableInv d) (j : Fin kNumSlots) (addr : LocoAddr) :
    TableInv (Function.update d j (false, addr)) := by
  have hused : ∀ k, (Function.update d j (false, addr) k).1 = true →
      Function.update d j (false, addr) k = d k ∧ (d k).1 = true := by
    intro k hk
    have hkj : k ≠ j := by
      rintro rfl
      rw [Function.update_self] at hk
      cases hk
    rw [Function.update_of_ne hkj] at hk ⊢
    exact ⟨rfl, hk⟩
  constructor
  · refine Bool.eq_false_iff.mpr fun hzero => ?_
    have hin := (hused 0 hzero).2
    rw [hd.slotZero] at hin
    cases hin
  · intro k l hk hl haddr
    obtain ⟨hkeq, hk⟩ := hused k hk
    obtain ⟨hleq, hl⟩ := hused l hl
    rw [hkeq, hleq] at haddr
    exact hd.injective k l hk hl haddr

/-- Moving a slot. -/
theorem move (hd : TableInv d) (hj0 : j ≠ 0) (hne : i ≠ j) :
    TableInv (Function.update (Function.update d j (d i)) i (false, 0)) := by
  rw [Function.update_comm hne.symm]
  have hcleared := hd.clear i 0
  -- With slot `i` cleared first, its engine is new for slot `j`.
  cases hin : (d i).1 with
  | false =>
      have hentry : d i = (false, (d i).2) := Prod.ext hin rfl
      rw [hentry]
      exact hcleared.clear j _
  | true =>
      have hentry : d i = (true, (d i).2) := Prod.ext hin rfl
      rw [hentry]
      refine hcleared.update_iff.mpr ⟨hj0, fun k hk hkin haddr => ?_⟩
      have hki : k ≠ i := by
        rintro rfl
        rw [Function.update_self] at hkin
        cases hkin
      rw [Function.update_of_ne hki] at hkin haddr
      exact hki (hd.injective k i hkin hin haddr)

end TableInv

/-- One call keeps the invariant exactly when it writes no known address. -/
theorem DirectoryChange.keeps_tableInv_iff
    (hnumeric : ∀ addr, getNumericAddress (getNumericAddress addr) = getNumericAddress addr)
    (hs : TableInv s.directory) {msg : Option LnMsg} {d : Directory}
    (h : DirectoryChange s msg d) : TableInv d ↔ WritesFreshAddress s.directory msg := by
  have hnowrite : msg.bind LnMsg.slotWrite = none → WritesFreshAddress s.directory msg := by
    intro hw i addr hsome
    rw [hw] at hsome
    cases hsome
  cases h with
  | unchanged hw => exact iff_of_true hs (hnowrite hw)
  | written i addr hw =>
      rw [hs.update_iff]
      constructor
      · intro hfresh j addr' hsome
        rw [hw] at hsome
        cases hsome
        exact hfresh
      · intro hfresh
        exact hfresh i addr hw
  | allocated i addr hw hnone hfree =>
      refine iff_of_true (hs.update_iff.mpr ⟨(firstFree_eq_some.mp hfree).1, ?_⟩) (hnowrite hw)
      intro j _ hin haddr
      have hj0 : j ≠ 0 := by
        rintro rfl
        rw [hs.slotZero] at hin
        cases hin
      -- The search asked every slot but slot 0 for the address.
      have hno := slotWithAddress_eq_none.mp hnone j hj0
      rw [hnumeric addr] at haddr
      rw [SlotEntry.hasAddress_iff.mpr haddr] at hno
      cases hno
  | moved sm i j hmsg hi hj hj0 hne =>
      subst hmsg
      exact iff_of_true (hs.move hj0 hne) (hnowrite rfl)
  | cleared sm j hmsg hj =>
      subst hmsg
      exact iff_of_true (hs.clear j 0) (hnowrite rfl)

omit [AddressScheme] in
/-- At start-up no slot is in use, and every address is 0. -/
theorem directory_of_empty (h : s.slotDB = .empty) : s.directory = fun _ => (false, 0) := by
  funext i
  simp [LocoNetSlotServer.directory, LocoNetSlotServer.slot, SlotDB.entry, h, SlotDB.empty]

/-- An empty table has the invariant. -/
theorem tableInv_of_empty (h : s.slotDB = .empty) : TableInv s.directory := by
  rw [directory_of_empty h]
  exact ⟨rfl, fun _ _ hin => nomatch hin⟩

/-- The invariant holds at start-up, and after every call of a run exactly when each call
writes no known address and not to slot 0. -/
theorem tableInv_iff
    (hnumeric : ∀ addr, getNumericAddress (getNumericAddress addr) = getNumericAddress addr)
    (server : LocoNetSlotServer) (hstart : server.slotDB = .empty)
    (calls : List AllocationCall) :
    TableInv server.directory ∧
      (Along AllocationCall.exec (fun _ _ s' => TableInv s'.directory) server calls ↔
        Along AllocationCall.exec
          (fun s call _ => WritesFreshAddress s.directory call.processed) server calls) := by
  have hinit := tableInv_of_empty hstart
  -- One call keeps the invariant exactly when what it writes is fresh.
  refine ⟨hinit, along_invariant_iff AllocationCall.exec
    (I := fun s => TableInv s.directory) ?_ calls server hinit⟩
  intro s call s' hs hrun
  exact (AllocationCall.exec_directoryChange hrun).keeps_tableInv_iff hnumeric hs

end

/-- A request and slot data for another address, into the table at start-up. -/
theorem tableInv_iff_learned :
    letI := AddressScheme.upperBits
    let server : LocoNetSlotServer := { dataModel := { lnSlotServerState := .passive } }
    Along AllocationCall.exec (fun _ _ s' => TableInv s'.directory) server
      [.findOrAllocateSlotForAddress 3,
        .server (.process (.slRdData (lnSlotReadWriteMessage 2 0x33 { address := 4 })))] := by
  let _ := AddressScheme.upperBits
  intro server
  refine ((tableInv_iff upperBits_idempotent server rfl _).2).mpr ?_
  have hfind : (findOrAllocateSlotForAddress 3).run server
      = .ok ((1 : Fin kNumSlots).val, server.setSlot 1 (.initialized 3)) :=
    findOrAllocateSlotForAddress_run_of_free (by decide) (by decide)
  intro s₁ hrun₁
  obtain ⟨_, _, hfound, hpure⟩ := run_bind_eq_ok.mp hrun₁
  rw [hfind] at hfound
  cases hfound
  cases hpure
  refine ⟨(fun i addr hw => nomatch hw), fun s₂ _ => ⟨fun i addr hw => ?_, trivial⟩⟩
  cases hw
  refine ⟨by decide, fun j hj hin => ?_⟩
  -- Slot 1 has address 3, and every other slot but slot 2 is free.
  revert j
  decide

/-- Slot data for slot 0 takes it into use, and slot data for two slots gives both the same
address. -/
theorem tableInv_slot_data :
    letI := AddressScheme.upperBits
    let server : LocoNetSlotServer := { dataModel := { lnSlotServerState := .passive } }
    let busy : Byte → LnMsg := fun slot =>
      .slRdData (lnSlotReadWriteMessage slot 0x33 { address := 3 })
    (busy 0).SevenBit ∧ (busy 1).SevenBit ∧ (busy 2).SevenBit ∧
      ¬ Along AllocationCall.exec (fun _ _ s' => TableInv s'.directory) server
        [.server (.process (busy 0))] ∧
      ¬ Along AllocationCall.exec (fun _ _ s' => TableInv s'.directory) server
        [.server (.process (busy 1)), .server (.process (busy 2))] := by
  let _ := AddressScheme.upperBits
  intro server busy
  refine ⟨by decide, by decide, by decide, ?_, ?_⟩
  · intro halong
    obtain ⟨hinv, _⟩ := halong _ rfl
    exact absurd hinv.slotZero (by decide)
  · intro halong
    obtain ⟨_, halong⟩ := halong _ rfl
    obtain ⟨hinv, _⟩ := halong _ rfl
    exact absurd (hinv.injective 1 2 (by decide) (by decide) (by decide)) (by decide)

end C6021Light
