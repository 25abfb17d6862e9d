import C6021Light.Hal.SerialTx
import C6021Light.Lib.FaultRun
import C6021Light.Lib.OwnerFlag
import Mathlib.Algebra.Order.BigOperators.Group.Finset

/-!
# `C6021Light.Proofs.SerialOutput`: the serial line does not stall

The flag `serialDmaBusy_` has one owner at a time: a task between the compare-exchange and the
start of its transfer, or the DMA controller with its active transfer. `SerialInv` adds two things
to this. The bytes that were transferred and the bytes in the buffer are the published ones, in
order, and the transfer is at the front of the buffer. And when there are bytes and no transfer,
some task is in `startSerialTx` (`waiting`). A task that loses the compare-exchange may return,
because the owner of the flag is still there. A task that finds the peeked range empty gives the
flag back and tests the size again.

A task whose range is empty calls `startSerialTx` as well, without a `publish` in front of it. Such
a task can be the one that the published bytes wait for.
-/

set_option autoImplicit false

namespace C6021Light

open FaultRun

/-! ### Owners of the flag -/

/-- The accesses between the compare-exchange and the start of the transfer, or the release. -/
def TxPosition.Owns : TxPosition → Prop
  | .size | .compareExchange => False
  | .peek | .release | .startDma => True

namespace WriterPosition

/-- The task has won the flag and has not given it up. -/
def Owns : WriterPosition → Prop
  | .startSerialTx _ position => position.Owns
  | _ => False

/-- The task is in `startSerialTx`, or in front of it. -/
def InStartSerialTx (position : WriterPosition) : Prop :=
  ∃ hasPublished access, position = .startSerialTx hasPublished access

/-- Who owns the flag is in `startSerialTx`. -/
theorem Owns.inStartSerialTx {position : WriterPosition} (h : position.Owns) :
    position.InStartSerialTx := by
  cases position with
  | outside | allocated => exact h.elim
  | startSerialTx hasPublished access => exact ⟨hasPublished, access, rfl⟩

end WriterPosition

namespace SerialLine

/-- The peeked range is the front of the buffer. -/
def Ready (line : SerialLine) : Prop :=
  line.serialDmaMemory ≠ [] ∧ ∃ rest, line.serialBuffer = line.serialDmaMemory ++ rest

/-- What holds of the buffer and the transfers. -/
structure LineInv (line : SerialLine) : Prop where
  order : line.output ++ line.serialBuffer = line.published
  transfer : line.transfers = [] ∨ line.transfers = [line.serialDmaMemory] ∧ line.Ready
  started : line.started.flatten = line.output ++ line.transfers.flatten
  nonempty : ∀ transfer ∈ line.started, transfer ≠ []

variable {line : SerialLine}

/-- At start-up the buffer is empty and no transfer is active. -/
theorem lineInv_start : LineInv {} where
  order := rfl
  transfer := .inl rfl
  started := rfl
  nonempty _ h := absurd h List.not_mem_nil

/-- A publication goes behind the peeked range. -/
theorem Ready.publish (h : line.Ready) (dest : List Byte) : (line.publish dest).Ready := by
  obtain ⟨hmemory, rest, hrest⟩ := h
  refine ⟨hmemory, rest ++ dest, ?_⟩
  show line.serialBuffer ++ dest = line.serialDmaMemory ++ (rest ++ dest)
  rw [hrest, List.append_assoc]

/-- A publication is the end of what is output and buffered. -/
theorem LineInv.publish (h : line.LineInv) (dest : List Byte) : (line.publish dest).LineInv where
  order := by
    show line.output ++ (line.serialBuffer ++ dest) = line.published ++ dest
    rw [← List.append_assoc, h.order]
  transfer := h.transfer.imp_right fun htransfer => ⟨htransfer.1, htransfer.2.publish dest⟩
  started := h.started
  nonempty := h.nonempty

/-- The range that `peek` returns. -/
theorem ready_peek (contiguous : Nat) (h : line.serialBuffer ≠ []) :
    Ready { line with serialDmaMemory := line.peek contiguous } := by
  refine ⟨fun hempty => ?_, line.serialBuffer.drop (contiguous + 1), ?_⟩
  · rcases List.take_eq_nil_iff.mp hempty with hzero | hnil
    · exact Nat.succ_ne_zero contiguous hzero
    · exact h hnil
  · exact (List.take_append_drop _ _).symm

/-- A transfer starts when there is none. -/
theorem LineInv.startDma (h : line.LineInv) (hnone : line.transfers = []) (hready : line.Ready) :
    line.startDma.LineInv where
  order := h.order
  transfer := .inr ⟨by rw [SerialLine.startDma, hnone]; rfl, hready⟩
  started := by
    show (line.started ++ [line.serialDmaMemory]).flatten
      = line.output ++ (line.transfers ++ [line.serialDmaMemory]).flatten
    rw [List.flatten_append, List.flatten_append, h.started, List.append_assoc]
  nonempty transfer hmem := by
    rcases List.mem_append.mp hmem with hearlier | hlast
    · exact h.nonempty transfer hearlier
    · exact List.mem_singleton.mp hlast ▸ hready.1

/-- The end of a transfer. -/
def completed (line : SerialLine) : SerialLine :=
  { line with
    transfers := []
    output := line.output ++ line.serialDmaMemory
    serialBuffer := line.serialBuffer.drop line.serialDmaMemory.length
    serialDmaBusy := false }

/-- A completed transfer moves its bytes from the buffer to the output. -/
theorem LineInv.completed (h : line.LineInv) (htransfer : line.transfers = [line.serialDmaMemory])
    (hready : line.Ready) : line.completed.LineInv where
  order := by
    obtain ⟨-, rest, hrest⟩ := hready
    show line.output ++ line.serialDmaMemory ++ line.serialBuffer.drop _ = line.published
    rw [hrest, List.drop_left, List.append_assoc, ← hrest, h.order]
  transfer := .inl rfl
  started := by
    show line.started.flatten = line.output ++ line.serialDmaMemory ++ [].flatten
    rw [h.started, htransfer]
    simp
  nonempty := h.nonempty

/-- A whole call of `startSerialTx` that finds the flag free. -/
theorem startSerialTx_of_free (contiguous : Nat) (hfree : line.serialDmaBusy = false) :
    line.startSerialTx contiguous 4 .size
      = if line.serialBuffer = [] then line
        else { line with
          serialDmaBusy := true
          serialDmaMemory := line.peek contiguous }.startDma := by
  by_cases hempty : line.serialBuffer = []
  · simp [startSerialTx, txStep, hempty]
  · have hlength : 0 < line.serialBuffer.length := List.length_pos_iff.mpr hempty
    have hmemory : (line.peek contiguous).length ≠ 0 := fun hzero =>
      (ready_peek contiguous hempty).1 (List.length_eq_zero_iff.mp hzero)
    have hpeek : peek { line with serialDmaBusy := true } contiguous = line.peek contiguous := rfl
    simp only [startSerialTx, txStep, hlength, hfree, hpeek, hmemory, hempty, if_true, if_false,
      Bool.not_false]

/-- The interrupt completes the transfer. It starts the next one if there are bytes. -/
theorem dma1Channel4Isr_eq (contiguous : Nat) :
    line.dma1Channel4Isr contiguous line.serialDmaMemory []
      = if line.completed.serialBuffer = [] then line.completed
        else { line.completed with
          serialDmaBusy := true
          serialDmaMemory := line.completed.peek contiguous }.startDma :=
  startSerialTx_of_free contiguous rfl

end SerialLine

/-! ### Positions -/

namespace SerialSystem

variable {Writer : Type} [DecidableEq Writer] {system : SerialSystem Writer} {writer : Writer}
  {position : WriterPosition}

/-- Going to another position does not touch the line. -/
@[simp] theorem goTo_line : (system.goTo writer position).line = system.line := rfl

/-- The task that goes is at its new position. -/
@[simp] theorem goTo_self : (system.goTo writer position).position writer = position := by
  simp [goTo]

/-- The other tasks stay where they are. -/
theorem goTo_of_ne {other : Writer} (h : other ≠ writer) :
    (system.goTo writer position).position other = system.position other := by
  simp [goTo, h]

/-- Who owns the flag. `none` is the DMA controller. -/
def Owns (system : SerialSystem Writer) : Option Writer → Prop
  | none => system.line.transfers ≠ []
  | some writer => (system.position writer).Owns

/-- The invariant of the writers and the line. Bytes that wait without a transfer have a task that
will start one. -/
structure SerialInv (system : SerialSystem Writer) : Prop where
  line : system.line.LineInv
  owner : OwnerFlag system.line.serialDmaBusy system.Owns
  ready : ∀ writer hasPublished,
    system.position writer = .startSerialTx hasPublished .startDma → system.line.Ready
  waiting : system.line.serialBuffer ≠ [] → system.line.transfers = [] →
    ∃ writer, (system.position writer).InStartSerialTx

omit [DecidableEq Writer] in
/-- The invariant holds at start-up. -/
theorem serialInv_start : SerialInv ({} : SerialSystem Writer) where
  line := SerialLine.lineInv_start
  owner := .of_none fun i h => by
    cases i with
    | none => exact h rfl
    | some writer => exact h
  ready _ _ h := by cases h
  waiting h := absurd rfl h

/-- The owners after a step of a task: the others own what they owned before. -/
theorem owns_goTo {line : SerialLine} (mutex : Option Writer) {i : Option Writer}
    (hi : i ≠ some writer) (htransfers : i = none → line.transfers = system.line.transfers) :
    SerialSystem.Owns (goTo { line := line, serialWriteMutex := mutex, position := system.position }
      writer position) i ↔ system.Owns i := by
  cases i with
  | none =>
      show line.transfers ≠ [] ↔ system.line.transfers ≠ []
      rw [htransfers rfl]
  | some other =>
      show WriterPosition.Owns (SerialSystem.position _ other) ↔ _
      rw [goTo_of_ne fun heq => hi (congrArg some heq)]
      rfl

/-- A task that goes owns the flag exactly at an owning position. -/
theorem owns_goTo_self {line : SerialLine} {mutex : Option Writer} :
    SerialSystem.Owns (goTo { line := line, serialWriteMutex := mutex, position := system.position }
      writer position) (some writer) ↔ position.Owns := by
  show WriterPosition.Owns (SerialSystem.position _ writer) ↔ _
  rw [goTo_self]

/-- A step of a task that does not touch the flag. -/
theorem SerialInv.owner_goTo (h : system.SerialInv) {line : SerialLine} {mutex : Option Writer}
    (hbusy : line.serialDmaBusy = system.line.serialDmaBusy)
    (htransfers : line.transfers = system.line.transfers)
    (howns : position.Owns ↔ (system.position writer).Owns) :
    OwnerFlag line.serialDmaBusy (SerialSystem.Owns
      (goTo { line := line, serialWriteMutex := mutex, position := system.position }
        writer position)) := by
  rw [hbusy]
  refine h.owner.congr fun i => ?_
  by_cases hi : i = some writer
  · subst hi
    exact owns_goTo_self.trans howns
  · exact owns_goTo mutex hi fun _ => htransfers

/-- The task that is waited for is another one, or it stays in `startSerialTx`. -/
theorem waiting_goTo {line : SerialLine} {mutex : Option Writer}
    (hposition : position.InStartSerialTx ∨ ¬ (system.position writer).InStartSerialTx)
    (h : ∃ writer, (system.position writer).InStartSerialTx) :
    ∃ other, (SerialSystem.position
      (goTo { line := line, serialWriteMutex := mutex, position := system.position }
        writer position) other).InStartSerialTx := by
  obtain ⟨other, hother⟩ := h
  by_cases heq : other = writer
  · subst heq
    refine ⟨other, ?_⟩
    rw [goTo_self]
    exact hposition.resolve_right fun hnot => hnot hother
  · refine ⟨other, ?_⟩
    rw [goTo_of_ne heq]
    exact hother

/-- A task that goes into `startSerialTx` is one to wait for. -/
theorem waiting_goTo_self {line : SerialLine} {mutex : Option Writer}
    (hposition : position.InStartSerialTx) :
    ∃ other, (SerialSystem.position
      (goTo { line := line, serialWriteMutex := mutex, position := system.position }
        writer position) other).InStartSerialTx := by
  refine ⟨writer, ?_⟩
  rw [goTo_self]
  exact hposition

/-- A range stays ready, and the task is not at the start of a transfer, or it is ready too. -/
theorem ready_goTo {line : SerialLine} {mutex : Option Writer}
    (hself : ∀ hasPublished, position = .startSerialTx hasPublished .startDma → line.Ready)
    (hother : ∀ other hasPublished, other ≠ writer →
      system.position other = .startSerialTx hasPublished .startDma → line.Ready)
    (other : Writer) (hasPublished : Bool)
    (h : SerialSystem.position
      (goTo { line := line, serialWriteMutex := mutex, position := system.position }
        writer position) other = .startSerialTx hasPublished .startDma) : line.Ready := by
  by_cases heq : other = writer
  · subst heq
    rw [goTo_self] at h
    exact hself hasPublished h
  · rw [goTo_of_ne heq] at h
    exact hother other hasPublished heq h

/-! ### Steps of the tasks -/

/-- A step of a task without the flag that leaves the line alone. -/
theorem SerialInv.goTo (h : system.SerialInv) {mutex : Option Writer}
    (howns : ¬ (system.position writer).Owns) (hposition : ¬ position.Owns)
    (hwaiting : system.line.serialBuffer ≠ [] → system.line.transfers = [] →
      ∃ other, (SerialSystem.position
        (SerialSystem.goTo { line := system.line, serialWriteMutex := mutex,
                             position := system.position } writer position)
          other).InStartSerialTx) :
    SerialInv (SerialSystem.goTo { line := system.line, serialWriteMutex := mutex,
                                   position := system.position } writer position) := by
  refine ⟨h.line, h.owner_goTo rfl rfl (iff_of_false hposition howns), ?_, hwaiting⟩
  refine ready_goTo (fun hasPublished heq => ?_) fun other hasPublished _ =>
    h.ready other hasPublished
  -- A task that starts a transfer owns the flag.
  exact absurd (by rw [heq]; trivial) hposition

/-- An allocation takes a task out of the idle position only. -/
theorem SerialInv.allocate (h : system.SerialInv) (bytes : List Byte)
    (houtside : system.position writer = .outside) :
    (system.allocate writer bytes).SerialInv := by
  have hnot : ¬ (system.position writer).InStartSerialTx := by
    rw [houtside]
    rintro ⟨_, _, heq⟩
    cases heq
  have howns : ¬ (system.position writer).Owns := fun howns => hnot howns.inStartSerialTx
  rw [SerialSystem.allocate]
  split <;> exact h.goTo howns id fun hbytes hnone =>
    waiting_goTo (.inr hnot) (h.waiting hbytes hnone)

/-- A publication puts the task in front of `startSerialTx`. -/
theorem SerialInv.publish (h : system.SerialInv) {dest : List Byte}
    (hallocated : system.position writer = .allocated dest) :
    (system.publish writer dest).SerialInv := by
  have howns : ¬ (system.position writer).Owns := by
    rw [hallocated]
    exact id
  refine ⟨h.line.publish dest, h.owner_goTo rfl rfl (iff_of_false id howns), ?_, fun _ _ =>
    waiting_goTo_self ⟨true, .size, rfl⟩⟩
  exact ready_goTo (fun _ heq => by cases heq) fun other hasPublished _ hother =>
    (h.ready other hasPublished hother).publish dest

/-! ### Steps in `startSerialTx` -/

variable {hasPublished : Bool}

omit [DecidableEq Writer] in
/-- No transfer is active while a task owns the flag. -/
theorem SerialInv.transfers_of_owns (h : system.SerialInv)
    (howns : (system.position writer).Owns) : system.line.transfers = [] := by
  by_contra hne
  cases h.owner.exclusive none (some writer) hne howns

/-- The read of the size: a task that finds an empty buffer leaves, and nobody has to wait. -/
theorem SerialInv.size (h : system.SerialInv) (contiguous : Nat)
    (hposition : system.position writer = .startSerialTx hasPublished .size) :
    (system.startSerialTx writer contiguous hasPublished .size).SerialInv := by
  have howns : ¬ (system.position writer).Owns := by
    rw [hposition]
    exact id
  rw [SerialSystem.startSerialTx, SerialLine.txStep]
  by_cases hbytes : 0 < system.line.serialBuffer.length
  · rw [if_pos hbytes]
    exact h.goTo howns id fun _ _ => waiting_goTo_self ⟨hasPublished, .compareExchange, rfl⟩
  · rw [if_neg hbytes]
    exact h.goTo howns id fun hne _ => absurd (List.length_pos_iff.mpr hne) hbytes

/-- The compare-exchange hands the flag to one task, or the task leaves it to the owner. -/
theorem SerialInv.compareExchange (h : system.SerialInv) (contiguous : Nat)
    (hposition : system.position writer = .startSerialTx hasPublished .compareExchange) :
    (system.startSerialTx writer contiguous hasPublished .compareExchange).SerialInv := by
  have howns : ¬ (system.position writer).Owns := by
    rw [hposition]
    exact id
  rw [SerialSystem.startSerialTx, SerialLine.txStep]
  cases hbusy : system.line.serialDmaBusy with
  | false =>
      have hfree : OwnerFlag false system.Owns := hbusy ▸ h.owner
      refine ⟨⟨h.line.order, h.line.transfer, h.line.started, h.line.nonempty⟩,
        hfree.acquire (i := some writer) (owns_goTo_self.mpr trivial) fun i hi howns' =>
          (owns_goTo system.serialWriteMutex hi fun _ => rfl).mp howns', ?_, fun _ _ =>
        waiting_goTo_self ⟨hasPublished, .peek, rfl⟩⟩
      exact ready_goTo (fun _ heq => by cases heq) fun other hasPublished _ =>
        h.ready other hasPublished
  | true =>
      refine h.goTo howns id fun hbytes hnone => ?_
      -- The owner is a task, and not this one.
      obtain ⟨i, hi⟩ := h.owner.busy_iff.mp hbusy
      cases i with
      | none => exact absurd hnone hi
      | some other =>
          have hother : other ≠ writer := by
            rintro rfl
            exact howns hi
          refine ⟨other, ?_⟩
          rw [goTo_of_ne hother]
          exact hi.inStartSerialTx

/-- The peek makes the range ready, or the buffer is empty. -/
theorem SerialInv.peek (h : system.SerialInv) (contiguous : Nat)
    (hposition : system.position writer = .startSerialTx hasPublished .peek) :
    (system.startSerialTx writer contiguous hasPublished .peek).SerialInv := by
  have howns : (system.position writer).Owns := by
    rw [hposition]
    trivial
  have hnone := h.transfers_of_owns howns
  rw [SerialSystem.startSerialTx, SerialLine.txStep]
  refine ⟨⟨h.line.order, .inl hnone, h.line.started, h.line.nonempty⟩, ?_, ?_, fun _ _ => ?_⟩
  · refine h.owner_goTo rfl rfl (iff_of_true ?_ howns)
    dsimp only
    split <;> trivial
  · refine ready_goTo (fun _ heq => ?_) fun other hasPublished hne hother => ?_
    · refine SerialLine.ready_peek contiguous fun hempty => ?_
      simp [SerialLine.peek, hempty] at heq
    · -- Another task at this point would own the flag as well.
      have hother' : (system.position other).Owns := by
        rw [hother]
        trivial
      have hsame := h.owner.exclusive (some other) (some writer) hother' howns
      exact absurd (Option.some.inj hsame) hne
  · exact waiting_goTo_self ⟨_, _, rfl⟩

/-- The release gives the flag back, and the task reads the size again. -/
theorem SerialInv.release (h : system.SerialInv) (contiguous : Nat)
    (hposition : system.position writer = .startSerialTx hasPublished .release) :
    (system.startSerialTx writer contiguous hasPublished .release).SerialInv := by
  have howns : (system.position writer).Owns := by
    rw [hposition]
    trivial
  rw [SerialSystem.startSerialTx, SerialLine.txStep]
  refine ⟨⟨h.line.order, h.line.transfer, h.line.started, h.line.nonempty⟩, ?_, ?_, fun _ _ =>
    waiting_goTo_self ⟨hasPublished, .size, rfl⟩⟩
  · exact h.owner.release (i := some writer) howns (fun howns' => owns_goTo_self.mp howns')
      fun i hi howns' => (owns_goTo system.serialWriteMutex hi fun _ => rfl).mp howns'
  · exact ready_goTo (fun _ heq => by cases heq) fun other hasPublished _ =>
      h.ready other hasPublished

/-- The start hands the flag to the transfer. -/
theorem SerialInv.startDma (h : system.SerialInv) (contiguous : Nat)
    (hposition : system.position writer = .startSerialTx hasPublished .startDma) :
    (system.startSerialTx writer contiguous hasPublished .startDma).SerialInv := by
  have howns : (system.position writer).Owns := by
    rw [hposition]
    trivial
  have hnone := h.transfers_of_owns howns
  have hready := h.ready writer hasPublished hposition
  have hactive : system.line.startDma.transfers ≠ [] := by
    rw [SerialLine.startDma, hnone]
    exact List.cons_ne_nil _ _
  rw [SerialSystem.startSerialTx, SerialLine.txStep]
  refine ⟨h.line.startDma hnone hready, ?_, ?_, fun _ hempty => absurd hempty hactive⟩
  · refine h.owner.handOver (i := some writer) (j := none) howns
      (fun _ howns' => owns_goTo_self.mp howns') hactive fun i hi hnotDma howns' => ?_
    exact (owns_goTo system.serialWriteMutex hi fun heq => absurd heq hnotDma).mp howns'
  · exact ready_goTo (fun _ heq => by cases heq) fun _ _ _ _ => hready

/-! ### Every step -/

/-- Every access of `startSerialTx` keeps the invariant. -/
theorem SerialInv.startSerialTx (h : system.SerialInv) (contiguous : Nat)
    {position : TxPosition}
    (hposition : system.position writer = .startSerialTx hasPublished position) :
    (system.startSerialTx writer contiguous hasPublished position).SerialInv := by
  cases position with
  | size => exact h.size contiguous hposition
  | compareExchange => exact h.compareExchange contiguous hposition
  | peek => exact h.peek contiguous hposition
  | release => exact h.release contiguous hposition
  | startDma => exact h.startDma contiguous hposition

omit [DecidableEq Writer] in
/-- The interrupt ends the transfer and starts the next one, or gives the flag back. -/
theorem SerialInv.dma1Channel4Isr (h : system.SerialInv) (contiguous : Nat) {transfer : List Byte}
    {transfers : List (List Byte)} (hactive : system.line.transfers = transfer :: transfers) :
    SerialInv { system with
      line := system.line.dma1Channel4Isr contiguous transfer transfers } := by
  obtain hnone | ⟨hone, hready⟩ := h.line.transfer
  · cases hactive.symm.trans hnone
  · cases hactive.symm.trans hone
    have hcompleted := h.line.completed hone hready
    -- While the transfer was active, no task had the flag.
    have hidle : ∀ writer, ¬ (system.position writer).Owns := fun writer howns =>
      absurd (h.transfers_of_owns howns) (by rw [hactive]; exact List.cons_ne_nil _ _)
    have hnotReady : ∀ writer hasPublished,
        system.position writer ≠ .startSerialTx hasPublished .startDma := by
      intro writer hasPublished heq
      exact hidle writer (by rw [heq]; trivial)
    rw [SerialLine.dma1Channel4Isr_eq]
    -- The buffer is empty, so the flag is given back.
    by_cases hempty : system.line.completed.serialBuffer = []
    · rw [if_pos hempty]
      refine ⟨hcompleted, .of_none fun i howns => ?_, fun writer hasPublished heq =>
        absurd heq (hnotReady writer hasPublished), fun hbytes => absurd hempty hbytes⟩
      cases i with
      | none => exact howns rfl
      | some writer => exact hidle writer howns
    -- There are more bytes, and the interrupt keeps the flag for the next transfer.
    · rw [if_neg hempty]
      have hready' := SerialLine.ready_peek contiguous hempty
      refine ⟨SerialLine.LineInv.startDma
          ⟨hcompleted.order, .inl rfl, hcompleted.started, hcompleted.nonempty⟩ rfl hready',
        OwnerFlag.of_only (i := none) (List.cons_ne_nil _ _) fun i howns => ?_,
        fun writer hasPublished heq => absurd heq (hnotReady writer hasPublished),
        fun _ hnone => absurd hnone (List.cons_ne_nil _ _)⟩
      cases i with
      | none => rfl
      | some writer => exact absurd howns (hidle writer)

/-- Every step keeps the invariant. -/
theorem SerialInv.step (h : system.SerialInv) {event : SerialEvent Writer}
    {system' : SerialSystem Writer} (hstep : system.step event = .ok system') :
    system'.SerialInv := by
  cases event with
  | run writer bytes contiguous =>
      rw [SerialSystem.step] at hstep
      cases hposition : system.position writer with
      | outside =>
          rw [hposition] at hstep
          cases hmutex : system.serialWriteMutex with
          | none =>
              rw [hmutex] at hstep
              cases hstep
              exact h.allocate bytes hposition
          -- The task waits for the mutex, so there is no such step.
          | some holder =>
              rw [hmutex] at hstep
              cases hstep
      | allocated dest =>
          rw [hposition] at hstep
          cases hstep
          exact h.publish hposition
      | startSerialTx hasPublished position =>
          rw [hposition] at hstep
          cases hstep
          exact h.startSerialTx contiguous hposition
  | dma1Channel4Isr contiguous =>
      rw [SerialSystem.step] at hstep
      -- Without a transfer there is no interrupt.
      cases hactive : system.line.transfers with
      | nil =>
          rw [hactive] at hstep
          cases hstep
      | cons transfer transfers =>
          rw [hactive] at hstep
          cases hstep
          exact h.dma1Channel4Isr contiguous hactive

/-- A run of one event is a step. -/
theorem run_exec_eq_ok {event : SerialEvent Writer} {system' : SerialSystem Writer} :
    (exec event).run system = .ok (⟨⟩, system') ↔ system.step event = .ok system' := by
  show (system.step event).map (fun system => (PUnit.unit, system)) = _ ↔ _
  cases system.step event with
  | ok next =>
      rw [Except.map, Except.ok.injEq, Prod.mk.injEq, Except.ok.injEq]
      exact and_iff_right rfl
  | error blocked => exact iff_of_false nofun nofun

/-- The invariant holds in every reachable state. -/
theorem SerialInv.of_reachable (h : Reachable exec (fun _ => True) {} system) :
    system.SerialInv :=
  h.invariant exec serialInv_start fun _ _ _ hinv _ hstep => hinv.step (run_exec_eq_ok.mp hstep)

/-! ### The end of the output -/

/-- How many steps a task has in `startSerialTx` at most, while nobody publishes. -/
def accessesLeft (hasBytes : Bool) : WriterPosition → Nat
  | .outside | .allocated _ => 0
  | .startSerialTx _ .size => if hasBytes then 5 else 1
  | .startSerialTx _ .compareExchange => 4
  | .startSerialTx _ .peek => 3
  | .startSerialTx _ .release => if hasBytes then 6 else 2
  | .startSerialTx _ .startDma => 1

/-- Fewer steps are left when the buffer is empty. -/
theorem accessesLeft_le (position : WriterPosition) :
    accessesLeft false position ≤ accessesLeft true position := by
  cases position with
  | outside | allocated => exact Nat.le_refl _
  | startSerialTx _ access => cases access <;> simp [accessesLeft]

/-- The steps that are left, while nobody publishes. Each transfer takes a byte at least. -/
def stepsLeft [Fintype Writer] (system : SerialSystem Writer) : Nat :=
  system.line.serialBuffer.length
    + ∑ writer, accessesLeft (!system.line.serialBuffer.isEmpty) (system.position writer)

/-- A step that does not belong to a new write. -/
def Drains (system : SerialSystem Writer) : SerialEvent Writer → SerialSystem Writer → Prop
  | .run writer _ _, _ => (system.position writer).InStartSerialTx
  | .dma1Channel4Isr _, _ => True

omit [DecidableEq Writer] in
/-- An access uses up one of the steps of its task. -/
theorem accessesLeft_txStep (line : SerialLine) (contiguous : Nat) (hasPublished : Bool)
    (position : TxPosition) :
    accessesLeft (!line.serialBuffer.isEmpty)
        (match (line.txStep contiguous position).2 with
        | some position => .startSerialTx hasPublished position
        | none => .outside)
      < accessesLeft (!line.serialBuffer.isEmpty) (.startSerialTx hasPublished position) := by
  cases hbuffer : line.serialBuffer with
  | nil =>
      cases position with
      | compareExchange => cases hbusy : line.serialDmaBusy <;>
          simp [SerialLine.txStep, hbusy, accessesLeft]
      | size | peek | release | startDma =>
          simp [SerialLine.txStep, SerialLine.peek, hbuffer, accessesLeft]
  | cons byte bytes =>
      cases position with
      | compareExchange => cases hbusy : line.serialDmaBusy <;>
          simp [SerialLine.txStep, hbusy, accessesLeft]
      | size | peek | release | startDma =>
          simp [SerialLine.txStep, SerialLine.peek, hbuffer, accessesLeft]

omit [DecidableEq Writer] in
/-- No access of a task takes bytes from the buffer. -/
theorem serialBuffer_txStep (line : SerialLine) (contiguous : Nat) (position : TxPosition) :
    (line.txStep contiguous position).1.serialBuffer = line.serialBuffer := by
  cases position with
  | size | compareExchange =>
      rw [SerialLine.txStep]
      split <;> rfl
  | peek | release | startDma => rfl

/-- An access leaves fewer steps. -/
theorem stepsLeft_startSerialTx [Fintype Writer] (contiguous : Nat) {hasPublished : Bool}
    {position : TxPosition}
    (hposition : system.position writer = .startSerialTx hasPublished position) :
    (system.startSerialTx writer contiguous hasPublished position).stepsLeft
      < system.stepsLeft := by
  have hbuffer : (system.startSerialTx writer contiguous hasPublished position).line.serialBuffer
      = system.line.serialBuffer := serialBuffer_txStep system.line contiguous position
  have hless := accessesLeft_txStep system.line contiguous hasPublished position
  rw [stepsLeft, stepsLeft, hbuffer]
  refine Nat.add_lt_add_left
    (Finset.sum_lt_sum (fun other _ => ?_) ⟨writer, Finset.mem_univ _, ?_⟩) _
  · by_cases hother : other = writer
    · subst hother
      rw [SerialSystem.startSerialTx, goTo_self, hposition]
      exact hless.le
    · rw [SerialSystem.startSerialTx, goTo_of_ne hother]
  · rw [SerialSystem.startSerialTx, goTo_self, hposition]
    exact hless

omit [DecidableEq Writer] in
/-- The interrupt takes the transferred bytes from the buffer. -/
theorem serialBuffer_dma1Channel4Isr (line : SerialLine) (contiguous : Nat) :
    (line.dma1Channel4Isr contiguous line.serialDmaMemory []).serialBuffer
      = line.serialBuffer.drop line.serialDmaMemory.length := by
  rw [SerialLine.dma1Channel4Isr_eq]
  split <;> rfl

omit [DecidableEq Writer] in
/-- The interrupt takes at least one byte from the buffer. -/
theorem stepsLeft_dma1Channel4Isr [Fintype Writer] (h : system.SerialInv) (contiguous : Nat)
    {transfer : List Byte} {transfers : List (List Byte)}
    (hactive : system.line.transfers = transfer :: transfers) :
    stepsLeft { system with line := system.line.dma1Channel4Isr contiguous transfer transfers }
      < system.stepsLeft := by
  obtain hnone | ⟨hone, hmemory, rest, hrest⟩ := h.line.transfer
  · cases hactive.symm.trans hnone
  · cases hactive.symm.trans hone
    have hbuffer := serialBuffer_dma1Channel4Isr system.line contiguous
    have hfewer : (system.line.serialBuffer.drop system.line.serialDmaMemory.length).length
        < system.line.serialBuffer.length := by
      rw [hrest, List.drop_left, List.length_append]
      exact Nat.lt_add_of_pos_left (List.length_pos_iff.mpr hmemory)
    have hnonempty : system.line.serialBuffer.isEmpty = false := by
      rw [List.isEmpty_eq_false_iff, hrest]
      exact List.append_ne_nil_of_left_ne_nil hmemory rest
    rw [stepsLeft, stepsLeft, hbuffer, hnonempty]
    refine Nat.add_lt_add_of_lt_of_le hfewer (Finset.sum_le_sum fun writer _ => ?_)
    cases (system.line.serialBuffer.drop system.line.serialDmaMemory.length).isEmpty with
    | true => exact accessesLeft_le _
    | false => exact Nat.le_refl _

/-- Every step that does not belong to a new write leaves fewer steps. -/
theorem stepsLeft_lt [Fintype Writer] (h : system.SerialInv) {event : SerialEvent Writer}
    {system' : SerialSystem Writer} (hstep : system.step event = .ok system')
    (hdrains : system.Drains event system') : system'.stepsLeft < system.stepsLeft := by
  cases event with
  | run writer bytes contiguous =>
      obtain ⟨hasPublished, position, hposition⟩ := hdrains
      rw [SerialSystem.step, hposition] at hstep
      cases hstep
      exact stepsLeft_startSerialTx contiguous hposition
  | dma1Channel4Isr contiguous =>
      rw [SerialSystem.step] at hstep
      cases hactive : system.line.transfers with
      | nil =>
          rw [hactive] at hstep
          cases hstep
      | cons transfer transfers =>
          rw [hactive] at hstep
          cases hstep
          exact stepsLeft_dma1Channel4Isr h contiguous hactive

/-- What was published is transferred once and in order, by one transfer of at least one byte at a
time. While published bytes wait and no transfer is active, a task is in `startSerialTx`. Without
new writes the tasks and the interrupt come to an end, and then everything is transferred. -/
theorem serialOutput_complete [Fintype Writer] (h : Reachable exec (fun _ => True) {} system) :
    (system.line.serialBuffer ≠ [] → system.line.transfers = [] →
        ∃ writer, (system.position writer).InStartSerialTx) ∧
      system.line.transfers.length ≤ 1 ∧
      (∀ transfer ∈ system.line.started, transfer ≠ []) ∧
      system.line.started.flatten = system.line.output ++ system.line.transfers.flatten ∧
      (∃ rest, system.line.published = system.line.started.flatten ++ rest) ∧
      (∀ events system', (forM events exec).run system = .ok (⟨⟩, system') →
        Along exec Drains system events → events.length ≤ system.stepsLeft) ∧
      ((∀ event system', system.step event = .ok system' → ¬ system.Drains event system') →
        system.line.output = system.line.published) := by
  have hinv := SerialInv.of_reachable h
  refine ⟨hinv.waiting, ?_, hinv.line.nonempty, hinv.line.started, ?_, ?_, ?_⟩
  -- There is at most one transfer, as the invariant says.
  · obtain hnone | ⟨hone, -⟩ := hinv.line.transfer
    · rw [hnone]
      exact Nat.zero_le 1
    · rw [hone]
      exact Nat.le_refl 1
  -- What was started is what went out and the transfer. The rest is still in the buffer.
  · obtain hnone | ⟨hone, -, rest, hrest⟩ := hinv.line.transfer
    · refine ⟨system.line.serialBuffer, ?_⟩
      rw [hinv.line.started, hnone, List.flatten_nil, List.append_nil, hinv.line.order]
    · refine ⟨rest, ?_⟩
      rw [hinv.line.started, hone, List.flatten_singleton, List.append_assoc, ← hrest,
        hinv.line.order]
  -- Each draining step lowers `stepsLeft`.
  · intro events system' hrun hdrains
    have hlength := length_add_le_of_run exec (m := stepsLeft)
      (fun _ _ _ hinv hstep hdrains =>
        ⟨hinv.step (run_exec_eq_ok.mp hstep), stepsLeft_lt hinv (run_exec_eq_ok.mp hstep) hdrains⟩)
      events system system' hinv hdrains hrun
    exact (Nat.le_add_right _ _).trans hlength
  · intro hrest
    -- The interrupt is always possible, so without a step there is no transfer.
    have hnone : system.line.transfers = [] := by
      cases hactive : system.line.transfers with
      | nil => rfl
      | cons transfer transfers =>
          have hstep : system.step (.dma1Channel4Isr 0) = .ok { system with
              line := system.line.dma1Channel4Isr 0 transfer transfers } := by
            rw [SerialSystem.step, hactive]
          exact absurd trivial (hrest _ _ hstep)
    -- A task in `startSerialTx` has a step, so without one no bytes are waiting.
    have hempty : system.line.serialBuffer = [] := by
      by_contra hbytes
      obtain ⟨writer, hasPublished, position, hposition⟩ := hinv.waiting hbytes hnone
      have hstep : system.step (.run writer [] 0)
          = .ok (system.startSerialTx writer 0 hasPublished position) := by
        rw [SerialSystem.step, hposition]
      exact hrest _ _ hstep ⟨hasPublished, position, hposition⟩
    rw [← hinv.line.order, hempty, List.append_nil]

/-! ### A task without a publication -/

/-- The state at the end of a run. -/
def stateAfter (events : List (SerialEvent Writer)) : SerialSystem Writer :=
  match (forM events exec).run {} with
  | .ok (_, system) => system
  | .error _ => {}

/-- A run that is not blocked reaches its last state. -/
theorem reachable_stateAfter {events : List (SerialEvent Writer)}
    (hrun : ((forM events exec).run ({} : SerialSystem Writer)).isOk = true) :
    Reachable exec (fun _ => True) {} (stateAfter events) := by
  refine Reachable.of_run exec events _ _ .init (fun _ _ => trivial) ?_
  rw [stateAfter]
  cases hresult : (forM events exec).run ({} : SerialSystem Writer) with
  | ok result => rfl
  | error blocked =>
      rw [hresult] at hrun
      cases hrun

/-- The first task fills the buffer, and the transfer of all of it is active. The second task gets
no range, but it finds bytes in the buffer. The transfer ends, and the buffer is empty. The first
task publishes another byte. Then the second task wins the flag, and the first one returns. -/
def twoTasks : List (SerialEvent Bool) :=
  [.run true (.replicate 1024 0x41) 0, .run true [] 0, .run true [] 0, .run true [] 0,
    .run true [] 1023, .run true [] 0, .run false [0x42] 0, .run false [] 0, .dma1Channel4Isr 0,
    .run true [0x43] 0, .run true [] 0, .run true [] 0, .run false [] 0, .run true [] 0]

/-- At the end of the run a byte waits, no transfer is active, and the second task is at the
peek. -/
theorem stateAfter_twoTasks :
    ((forM twoTasks exec).run ({} : SerialSystem Bool)).isOk = true ∧
      (stateAfter twoTasks).line.serialBuffer ≠ [] ∧ (stateAfter twoTasks).line.transfers = [] ∧
      (stateAfter twoTasks).position true = .outside ∧
      (stateAfter twoTasks).position false = .startSerialTx false .peek := by
  set_option maxRecDepth 8000 in
  decide

/-- So a task is in `startSerialTx` that will start the transfer. -/
theorem serialOutput_complete_twoTasks :
    ∃ writer, ((stateAfter twoTasks).position writer).InStartSerialTx := by
  obtain ⟨hrun, hbytes, hnone, -⟩ := stateAfter_twoTasks
  exact (serialOutput_complete (reachable_stateAfter hrun)).1 hbytes hnone

/-- Published bytes wait, no transfer is active, and no task is between its `publish` and the end of
`startSerialTx`. -/
theorem unpublished_waits : ∃ system : SerialSystem Bool,
    Reachable exec (fun _ => True) {} system ∧ system.line.serialBuffer ≠ [] ∧
      system.line.transfers = [] ∧
      ∀ writer position, system.position writer ≠ .startSerialTx true position := by
  obtain ⟨hrun, hbytes, hnone, hfirst, hsecond⟩ := stateAfter_twoTasks
  refine ⟨stateAfter twoTasks, reachable_stateAfter hrun, hbytes, hnone,
    fun writer position heq => ?_⟩
  cases writer with
  | true => exact absurd (hfirst.symm.trans heq) (by simp)
  | false => exact absurd (hsecond.symm.trans heq) (by simp)

end SerialSystem

end C6021Light
