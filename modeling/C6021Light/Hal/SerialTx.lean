import C6021Light.RR32Can.Locomotive
import Mathlib.Logic.Function.Basic

/-!
# `C6021Light.Hal.SerialTx`: the tasks, the DMA and the serial line

`startSerialTx`, the part of `SerialWrite` that fills the ring buffer, and the interrupt
`dma1_channel4_isr` (`stm32usart.cpp`). Any number of tasks write. A step of a task is one access
to the ring buffer or to `serialDmaBusy_`. The interrupt is one step, and it comes only while a
transfer is active.

The ring buffer comes from the AtomicRingBuffer library, which is not part of the repository. It is
a list of the published bytes here, oldest first. `peek` returns a non-empty prefix when there are
bytes, and `consume` removes what was peeked. A range that `allocate` returns is no longer than the
room that is left, and it may be shorter. The bytes that a task copies to its range are inputs, and
so is the length of the prefix. What `SerialWrite` copies is in `Hal.SerialWrite`.

`transfers` are the active transfers of the DMA controller with their bytes. `started`, `output` and
`published` are ghost fields: all transfers so far, the bytes of those that are complete, and all
bytes that were published. `hasPublished` is a ghost as well.
-/

set_option autoImplicit false

namespace C6021Light

/-- The size of `serialBuffer_`. -/
abbrev bufferSize_ : Nat := 1024

/-! ### `startSerialTx` -/

/-- The buffer, the flag and the DMA controller. -/
structure SerialLine where
  serialBuffer : List Byte := []
  serialDmaBusy : Bool := false
  serialDmaMemory : List Byte := []
  transfers : List (List Byte) := []
  started : List (List Byte) := []
  output : List Byte := []
  published : List Byte := []
deriving DecidableEq, Repr

/-- The next access of a call of `startSerialTx`. -/
inductive TxPosition
  | size
  | compareExchange
  | peek
  /-- The peeked range is empty. -/
  | release
  | startDma
deriving DecidableEq, Repr

namespace SerialLine

/-- `serialBuffer_.peek`. `contiguous` bytes lie behind the first one in memory. -/
def peek (line : SerialLine) (contiguous : Nat) : List Byte :=
  line.serialBuffer.take (contiguous + 1)

/-- `serialBuffer_.consume`. -/
def consume (line : SerialLine) (range : List Byte) : SerialLine :=
  { line with serialBuffer := line.serialBuffer.drop range.length }

/-- `serialBuffer_.publish` of a range with its bytes. -/
def publish (line : SerialLine) (dest : List Byte) : SerialLine :=
  { line with
    serialBuffer := line.serialBuffer ++ dest
    published := line.published ++ dest }

/-- The registers of the DMA channel and the USART are set. -/
def startDma (line : SerialLine) : SerialLine :=
  { line with
    transfers := line.transfers ++ [line.serialDmaMemory]
    started := line.started ++ [line.serialDmaMemory] }

/-- One access of `startSerialTx`, and the next one unless it returns. -/
def txStep (line : SerialLine) (contiguous : Nat) : TxPosition → SerialLine × Option TxPosition
  | .size =>
      if 0 < line.serialBuffer.length then (line, some .compareExchange) else (line, none)
  | .compareExchange =>
      if !line.serialDmaBusy then ({ line with serialDmaBusy := true }, some .peek)
      else (line, none)
  | .peek =>
      let serialDmaMemory := line.peek contiguous
      ({ line with serialDmaMemory := serialDmaMemory },
        some (if serialDmaMemory.length = 0 then .release else .startDma))
  -- The loop tests the size again.
  | .release => ({ line with serialDmaBusy := false }, some .size)
  | .startDma => (line.startDma, none)

/-- `startSerialTx` at once, as the interrupt runs it. -/
def startSerialTx (contiguous : Nat) : Nat → TxPosition → SerialLine → SerialLine
  | 0, _, line => line
  | fuel + 1, position, line =>
      match line.txStep contiguous position with
      | (line, some position) => startSerialTx contiguous fuel position line
      | (line, none) => line

/-- `dma1_channel4_isr` when a transfer is complete. -/
def dma1Channel4Isr (line : SerialLine) (contiguous : Nat) (transfer : List Byte)
    (transfers : List (List Byte)) : SerialLine :=
  let line := { line with transfers := transfers, output := line.output ++ transfer }
  let line := line.consume line.serialDmaMemory
  { line with serialDmaBusy := false }.startSerialTx contiguous 4 .size

end SerialLine

/-! ### Tasks -/

/-- Where a task is. -/
inductive WriterPosition
  /-- In front of the part of `SerialWrite` that locks the mutex, or not in `SerialWrite`. -/
  | outside
  /-- It has a range and the mutex. `dest` is what it copies to the range. -/
  | allocated (dest : List Byte)
  | startSerialTx (hasPublished : Bool) (position : TxPosition)
deriving DecidableEq, Repr

/-- The serial line, the mutex, and where each task is. -/
structure SerialSystem (Writer : Type) where
  line : SerialLine := {}
  serialWriteMutex : Option Writer := none
  position : Writer → WriterPosition := fun _ => .outside

/-- A task makes its next step, or a transfer is complete. -/
inductive SerialEvent (Writer : Type)
  | run (writer : Writer) (bytes : List Byte) (contiguous : Nat)
  | dma1Channel4Isr (contiguous : Nat)
deriving DecidableEq, Repr

/-- Why there is no step. -/
inductive SerialBlocked
  | mutexTaken
  | noTransfer
deriving DecidableEq, Repr

namespace SerialSystem

variable {Writer : Type} [DecidableEq Writer]

/-- The task goes on at another position. -/
def goTo (system : SerialSystem Writer) (writer : Writer) (position : WriterPosition) :
    SerialSystem Writer :=
  { system with position := Function.update system.position writer position }

/-- The task locks the mutex and allocates a range for its bytes. It keeps the mutex only when the
range is not empty. -/
def allocate (system : SerialSystem Writer) (writer : Writer) (bytes : List Byte) :
    SerialSystem Writer :=
  let dest := bytes.take (bufferSize_ - system.line.serialBuffer.length)
  if 0 < dest.length then
    { system with serialWriteMutex := some writer }.goTo writer (.allocated dest)
  else system.goTo writer (.startSerialTx false .size)

/-- The task publishes its range and unlocks the mutex. -/
def publish (system : SerialSystem Writer) (writer : Writer) (dest : List Byte) :
    SerialSystem Writer :=
  { system with
    line := system.line.publish dest
    serialWriteMutex := none }.goTo writer (.startSerialTx true .size)

/-- The task makes one access in `startSerialTx`. -/
def startSerialTx (system : SerialSystem Writer) (writer : Writer) (contiguous : Nat)
    (hasPublished : Bool) (position : TxPosition) : SerialSystem Writer :=
  let next := system.line.txStep contiguous position
  { system with line := next.1 }.goTo writer
    (match next.2 with
    | some position => .startSerialTx hasPublished position
    | none => .outside)

/-- One step. It is not possible while the task waits for the mutex, or without a transfer. -/
def step (system : SerialSystem Writer) :
    SerialEvent Writer → Except SerialBlocked (SerialSystem Writer)
  | .run writer bytes contiguous =>
      match system.position writer with
      | .outside =>
          match system.serialWriteMutex with
          | some _ => .error .mutexTaken
          | none => .ok (system.allocate writer bytes)
      | .allocated dest => .ok (system.publish writer dest)
      | .startSerialTx hasPublished position =>
          .ok (system.startSerialTx writer contiguous hasPublished position)
  | .dma1Channel4Isr contiguous =>
      match system.line.transfers with
      | [] => .error .noTransfer
      | transfer :: transfers =>
          .ok { system with line := system.line.dma1Channel4Isr contiguous transfer transfers }

/-- The program of an event. -/
def exec (event : SerialEvent Writer) : StateT (SerialSystem Writer) (Except SerialBlocked) PUnit :=
  fun system => (system.step event).map fun system => (⟨⟩, system)

end SerialSystem

end C6021Light
