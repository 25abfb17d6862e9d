import C6021Light.CliSupport
import C6021Light.Lib.CheckedArray

/-!
# `C6021Light.Microrl.RingHistory`: the command history of the line editor

`ring_history_t` and its functions (`microrl.c`), with the lengths of `config.h`. `ring_buf` is an
array of characters, and it holds the lengths of the lines as characters, too.

An access outside of an array is a `MicrorlFault`. The loops walk from record to record. They get
as many rounds as the ring buffer has cells, and one more round is a fault as well.

`begin` and `end` of the source are `first` and `last`. A function that copies to the command line
returns the new command line.
-/

set_option autoImplicit false

namespace C6021Light

open CheckedArray

/-- `_RING_HISTORY_LEN`. -/
abbrev ringHistoryLen : Nat := 64

/-- `_COMMAND_LINE_LEN`. -/
abbrev commandLineLen : Nat := 101

/-- The end of a C string. In the command line it is a blank, too. -/
abbrev nul : Char := Char.ofNat 0

/-- An access outside of an array, a loop without an end, or a fault in the completion. -/
inductive MicrorlFault
  | outOfBounds
  | endless
  | completion (fault : CliFault)
deriving DecidableEq, Repr

/-- An access to an array. -/
def access {α : Type} (result : Option α) : Except MicrorlFault α :=
  match result with
  | some a => .ok a
  | none => .error .outOfBounds

/-- `ring_history_t`. -/
structure RingHistory where
  ringBuf : CString := .replicate ringHistoryLen nul
  first : Nat := 0
  last : Nat := 0
  cur : Nat := 0
deriving DecidableEq, Repr

/-- The direction of `hist_restore_line`. -/
inductive HistDirection
  | up
  | down
deriving DecidableEq, Repr

namespace RingHistory

/-- A position behind the last cell is one behind the first cell. -/
def wrap (pos : Nat) : Nat := if ringHistoryLen ≤ pos then pos - ringHistoryLen else pos

/-- A cell of `ring_buf`, as a number. -/
def lengthAt (hist : RingHistory) (header : Nat) : Except MicrorlFault Nat := do
  return (← access hist.ringBuf[header]?).toNat

/-! ### `hist_save_line` -/

/-- `hist_erase_older`. -/
def histEraseOlder (hist : RingHistory) : Except MicrorlFault RingHistory := do
  let newPos := hist.first + (← hist.lengthAt hist.first) + 1
  return { hist with first := wrap newPos }

/-- `hist_is_space_for_new`. -/
def histIsSpaceForNew (hist : RingHistory) (len : Nat) : Except MicrorlFault Bool := do
  if (← hist.lengthAt hist.first) = 0 then return true
  else if hist.first ≤ hist.last then
    return decide (len < ringHistoryLen - hist.last + hist.first - 1)
  else return decide (len < hist.first - hist.last - 1)

/-- The loop of `hist_save_line` that makes room for a line. -/
def makeSpace (len : Nat) : Nat → RingHistory → Except MicrorlFault RingHistory
  | 0, _ => .error .endless
  | rounds + 1, hist => do
      if ← hist.histIsSpaceForNew len then return hist
      else makeSpace len rounds (← hist.histEraseOlder)

/-- The copy of the line behind the last record, in two parts when it goes over the end. -/
def storeLine (hist : RingHistory) (line : CString) (len : Nat) : Except MicrorlFault CString := do
  if len < ringHistoryLen - hist.last - 1 then
    let part ← access (slice line 0 len)
    access (overwrite hist.ringBuf (hist.last + 1) part)
  else
    let partLen := ringHistoryLen - hist.last - 1
    let part ← access (slice line 0 partLen)
    let ringBuf ← access (overwrite hist.ringBuf (hist.last + 1) part)
    let rest ← access (slice line partLen (len - partLen))
    access (overwrite ringBuf 0 rest)

/-- The length of a first line. -/
def storeFirstLength (hist : RingHistory) (len : Nat) : Except MicrorlFault CString := do
  if (← hist.lengthAt hist.first) = 0 then
    access (put hist.ringBuf hist.first (Char.ofNat len))
  else return hist.ringBuf

/-- `hist_save_line`. -/
def histSaveLine (hist : RingHistory) (line : CString) (len : Nat) :
    Except MicrorlFault RingHistory := do
  if ringHistoryLen - 2 < len then return hist
  let hist ← makeSpace len ringHistoryLen hist
  let ringBuf ← hist.storeFirstLength len
  let ringBuf ← { hist with ringBuf := ringBuf }.storeLine line len
  let ringBuf ← access (put ringBuf hist.last (Char.ofNat len))
  let last := wrap (hist.last + len + 1)
  let ringBuf ← access (put ringBuf last nul)
  return { hist with ringBuf := ringBuf, last := last, cur := 0 }

/-! ### `hist_restore_line` -/

/-- The loop that counts the records, from a header on. -/
def countRecords (hist : RingHistory) : Nat → Nat → Nat → Except MicrorlFault Nat
  | 0, _, _ => .error .endless
  | rounds + 1, header, cnt => do
      let len ← hist.lengthAt header
      if len ≠ 0 then countRecords hist rounds (wrap (header + len + 1)) (cnt + 1)
      else return cnt

/-- The loops that look for a record. `j` is the index of the record at `header`, and `wanted` the
test that ends the loop. -/
def findRecord (hist : RingHistory) (wanted : Nat → Bool) :
    Nat → Nat → Nat → Except MicrorlFault Nat
  | 0, _, _ => .error .endless
  | rounds + 1, header, j => do
      let len ← hist.lengthAt header
      if len ≠ 0 && !wanted j then findRecord hist wanted rounds (wrap (header + len + 1)) (j + 1)
      else return header

/-- The copy of the record at `header` to the line. -/
def copyRecord (hist : RingHistory) (header : Nat) (line : CString) :
    Except MicrorlFault CString := do
  let len ← hist.lengthAt header
  if len + header < ringHistoryLen then
    let record ← access (slice hist.ringBuf (header + 1) len)
    access (overwrite line 0 record)
  else
    let part0 := ringHistoryLen - header - 1
    let part ← access (slice hist.ringBuf (header + 1) part0)
    let line ← access (overwrite line 0 part)
    let rest ← access (slice hist.ringBuf 0 (len - part0))
    access (overwrite line part0 rest)

/-- `hist_restore_line`. It returns the length of the line, or none for -1, and the line. -/
def histRestoreLine (hist : RingHistory) (line : CString) (dir : HistDirection) :
    Except MicrorlFault (Option Nat × RingHistory × CString) := do
  let cnt ← hist.countRecords ringHistoryLen hist.first 0
  match dir with
  | .up =>
      if hist.cur ≤ cnt then
        let wanted (j : Nat) : Bool := (cnt : Int) - j - 1 = hist.cur
        let header ← hist.findRecord wanted ringHistoryLen hist.first 0
        let len ← hist.lengthAt header
        if len ≠ 0 then
          -- `memset` of the line.
          let line ← hist.copyRecord header (.replicate commandLineLen nul)
          return (some len, { hist with cur := hist.cur + 1 }, line)
        else return (none, hist, line)
      else return (none, hist, line)
  | .down =>
      if 0 < hist.cur then
        let hist := { hist with cur := hist.cur - 1 }
        let wanted (j : Nat) : Bool := (cnt : Int) - j = hist.cur
        let header ← hist.findRecord wanted ringHistoryLen hist.first 0
        let line ← hist.copyRecord header line
        return (some (← hist.lengthAt header), hist, line)
      else return (some 0, hist, line)

end RingHistory

end C6021Light
