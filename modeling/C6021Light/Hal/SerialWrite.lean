import C6021Light.RR32Can.Locomotive

/-!
# `C6021Light.Hal.SerialWrite`: output to the serial line

The two `SerialWrite` functions (`stm32usart.cpp`). They copy a string into the ring buffer, piece
by piece, and replace each line end by CR LF. The ring buffer and `memcpyCharReplace` come from the
AtomicRingBuffer library, which is not part of the repository.

Each `allocate` returns a range of some length up to the requested one. `grants` is the lengths
that the ring buffer has room for, one for each call. `published` is a ghost field, the published
ranges of the call with what was written to them. A byte of a range that was not written is
`none`. `memcpyCharReplace` is a parameter. It tells what it wrote to the range as well.

A run ends without a result when the ring buffer is not asked any more, because `grants` is at its
end, or when it has no fuel. Lengths are natural numbers. What `startSerialTx` does with published
bytes is not in this model.
-/

set_option autoImplicit false

namespace C6021Light

/-- `memcpyCharReplace` returns how much of the source it consumed, and where the replacement was
cut off, if it was. The pointer into the replacement is an offset. -/
structure ReplaceResult where
  written : List Byte
  len : Nat
  partialReplace : Option Nat

/-- `memcpyCharReplace`, with the source, the character, its replacement and the room for the
copy. -/
abbrev MemcpyCharReplace := List Byte → Byte → List Byte → Nat → ReplaceResult

/-- The lengths that the buffer is going to grant, and what was published. -/
structure SerialOutput where
  grants : List Nat
  published : List (List (Option Byte)) := []

/-- A program that allocates and publishes. -/
abbrev SerialRun := StateT SerialOutput Option

namespace SerialOutput

/-- `serialBuffer_.allocate`, which may return a shorter range. -/
def allocate (len : Nat) : SerialRun Nat := fun output =>
  match output.grants with
  | [] => none
  | grant :: grants => some (min grant len, { output with grants := grants })

/-- A range with what was written to its front. -/
def rangeOf (len : Nat) (written : List Byte) : List (Option Byte) :=
  written.map some ++ .replicate (len - written.length) none

/-- `serialBuffer_.publish`. -/
def publish (len : Nat) (written : List Byte) : SerialRun Unit :=
  modify fun output => { output with published := output.published ++ [rangeOf len written] }

end SerialOutput

open SerialOutput

/-- `replace`: CR LF. -/
def replace : List Byte := [0x0D, 0x0A]

/-- The length of the replacement. -/
abbrev replaceLen : Nat := 2

section

variable (memcpyCharReplace : MemcpyCharReplace) (search : Byte)

/-- The part of the loop that holds the mutex. It returns `bytesConsumed` and
`partialReplace`. -/
def writeRange (doReplace : Bool) (src : List Byte) (srcBytesConsumed : Nat) :
    SerialRun (Nat × Option Nat) := do
  let remainingSrcLen := src.length - srcBytesConsumed
  -- Room for one replacement at the end of the source.
  let extraReplaceLen := if doReplace && src.getLast? = some search then replaceLen - 1 else 0
  let dest ← allocate (remainingSrcLen + extraReplaceLen)
  if 0 < dest then
    if doReplace then
      let replaceResult := memcpyCharReplace (src.drop srcBytesConsumed) search replace dest
      publish dest replaceResult.written
      return (replaceResult.len, replaceResult.partialReplace)
    else
      publish dest ((src.drop srcBytesConsumed).take dest)
      return (dest, none)
  else return (0, none)

/-- The loop of the inner `SerialWrite`, and its call of itself for the rest of a replacement. The
test for an empty source in front of the loop returns what the loop returns. -/
def serialWriteLoop : Nat → Bool → List Byte → Nat → SerialRun Nat
  | 0, _, _, _ => fun _ => none
  | fuel + 1, doReplace, src, srcBytesConsumed => do
      if srcBytesConsumed < src.length then
        let (bytesConsumed, partialReplace) ←
          writeRange memcpyCharReplace search doReplace src srcBytesConsumed
        if let some written := partialReplace then
          -- The rest of the replacement is sent as it is.
          let _ ← serialWriteLoop fuel false (replace.drop written) 0
        serialWriteLoop fuel doReplace src (srcBytesConsumed + bytesConsumed)
      else return srcBytesConsumed

/-- `SerialWrite`, from `bytesLeft` bytes in front of the end of the string on. -/
def serialWriteRest : Nat → List Byte → Nat → SerialRun Nat
  | 0, _, _ => fun _ => none
  | fuel + 1, src, len => do
      if 0 < src.length then
        let bytesWritten ← serialWriteLoop memcpyCharReplace search fuel true src 0
        serialWriteRest fuel (src.drop bytesWritten) len
      else return len - src.length

/-- `SerialWrite`. -/
def serialWrite (fuel : Nat) (src : List Byte) : SerialRun Nat :=
  serialWriteRest memcpyCharReplace search fuel src src.length

end

end C6021Light
