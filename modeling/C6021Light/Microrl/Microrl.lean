import C6021Light.Microrl.RingHistory
import C6021Light.RR32Can.Locomotive

/-!
# `C6021Light.Microrl.Microrl`: the line editor of the console

`microrl.h` and `microrl.c` with the options of `config.h`: history, completion and escape
sequences, CR as line end, and no Ctrl-C. A key is the byte that `pollSerial` returned.

`calls` is a ghost field, the calls of `print` and `execute` in their order. What `execute` returns
is not looked at. The completion callback gets `argc` and the tokens of `tkn_arr` that are set, and
it returns the array of its completions. A null pointer is `none` there.

A token points into the command line, and its string ends at the next NUL. `tkn_arr` has these
strings here. The command line does not change while they are in use. An access outside of an array
is a `MicrorlFault`.
-/

set_option autoImplicit false

namespace C6021Light

open CheckedArray

/-! ### Keys -/

/-- What `microrl_insert_char` tells apart (`KEY_*`). -/
inductive MicrorlKey
  | cr
  | lf
  | ht
  | esc
  | nak
  | vt
  | enq
  | soh
  | ack
  | stx
  | dle
  | so
  | del
  | dc2
  /-- The default of the `switch`. -/
  | other
deriving DecidableEq, Repr

/-- The cases of the `switch` in `microrl_insert_char`. -/
def MicrorlKey.ofByte (ch : Byte) : MicrorlKey :=
  match ch.toNat with
  | 13 => .cr
  | 10 => .lf
  | 9 => .ht
  | 27 => .esc
  | 21 => .nak
  | 11 => .vt
  | 5 => .enq
  | 1 => .soh
  | 6 => .ack
  | 2 => .stx
  | 16 => .dle
  | 14 => .so
  -- `KEY_DEL` and `KEY_BS`.
  | 127 => .del
  | 8 => .del
  | 18 => .dc2
  | _ => .other

/-- A key as a character. -/
def charOfByte (ch : Byte) : Char := Char.ofNat ch.toNat

/-- `IS_CONTROL_CHAR`. -/
def isControlChar (ch : Byte) : Bool := ch.toNat ≤ 31

/-! ### State -/

/-- `escape_seq`. -/
inductive EscapeSeq
  | unset
  | bracket
  | home
  | atEnd
deriving DecidableEq, Repr

/-- What the line editor calls: `print`, or the execute callback. -/
inductive MicrorlCall
  | print (text : CString)
  | execute (argv : List CString)
deriving DecidableEq, Repr

/-- `get_completion`, with `argc`. -/
abbrev GetCompletion := Int → List CString → Except CliFault CompletionBuffer

/-- `_PROMPT_DEFAULT`. -/
abbrev promptDefault : CString := "c6021light > ".toList

/-- `_PROMPT_LEN`. -/
abbrev promptLen : Nat := 13

/-- `_COMMAND_TOKEN_NMB`. -/
abbrev commandTokenNmb : Nat := 8

/-- `microrl_t`. `execute` tells whether the callback is set. -/
structure Microrl where
  escapeSeq : EscapeSeq := .unset
  escape : Bool := false
  ringHist : RingHistory := {}
  promptStr : CString := promptDefault
  cmdline : CString := .replicate commandLineLen nul
  cmdlen : Nat := 0
  cursor : Nat := 0
  execute : Bool := false
  getCompletion : Option GetCompletion := none
  calls : List MicrorlCall := []

namespace Microrl

/-- `print`. -/
def print (microrl : Microrl) (text : CString) : Microrl :=
  { microrl with calls := microrl.calls ++ [.print text] }

/-! ### Tokens -/

/-- `while (cond(cmdline[ind]) && ind < limit) ind++`, where `left` is `limit - ind`. -/
def skipWhile (cond : Char → Bool) (cmdline : CString) : Nat → Nat → Except MicrorlFault Nat
  | 0, ind => do
      let _ ← access cmdline[ind]?
      return ind
  | left + 1, ind => do
      if cond (← access cmdline[ind]?) then skipWhile cond cmdline left (ind + 1)
      else return ind

/-- The loop of `split`, which may store so many tokens more. It returns -1 with a full array. -/
def splitFrom (cmdline : CString) (limit : Nat) :
    Nat → Nat → List CString → Except MicrorlFault (Int × List CString)
  | 0, _, tknArr => return (-1, tknArr)
  | left + 1, ind, tknArr => do
      let ind ← skipWhile (· = nul) cmdline (limit - ind) ind
      if ¬ ind < limit then return (tknArr.length, tknArr)
      let tknArr := tknArr ++ [← access (untilMark nul (cmdline.drop ind))]
      if commandTokenNmb ≤ tknArr.length then return (-1, tknArr)
      let ind ← skipWhile (· ≠ nul) cmdline (limit - ind) ind
      if ¬ ind < limit then return (tknArr.length, tknArr)
      splitFrom cmdline limit left ind tknArr

/-- `split`. -/
def split (microrl : Microrl) (limit : Nat) : Except MicrorlFault (Int × List CString) :=
  splitFrom microrl.cmdline limit commandTokenNmb 0 []

/-! ### Terminal -/

/-- `ENDL`. -/
abbrev endl : CString := [Char.ofNat 13]

/-- A control sequence of the terminal. -/
def controlSequence (text : CString) : CString := Char.ofNat 27 :: '[' :: text

/-- `%d` of a number that is not negative. -/
def decimal (n : Nat) : CString := (toString n).toList

/-- The text of `terminal_backspace`. -/
def backspaceText : CString := controlSequence "D ".toList ++ controlSequence "D".toList

/-- The text of `terminal_move_cursor`. -/
def moveText (offset : Int) : CString :=
  if 0 < offset then controlSequence (decimal offset.toNat ++ "C".toList)
  else if offset < 0 then controlSequence (decimal (-offset).toNat ++ "D".toList)
  else []

/-- The text of `terminal_reset_cursor`. -/
def resetText : CString :=
  controlSequence (decimal (commandLineLen + promptLen + 2) ++ "D".toList)
    ++ controlSequence (decimal promptLen ++ "C".toList)

/-- It deletes everything from the cursor to the end. -/
def eraseText : CString := controlSequence "K".toList

/-- `print_prompt`. -/
def printPrompt (microrl : Microrl) : Microrl := microrl.print microrl.promptStr

/-- `terminal_backspace`. -/
def terminalBackspace (microrl : Microrl) : Microrl := microrl.print backspaceText

/-- `terminal_newline`. -/
def terminalNewline (microrl : Microrl) : Microrl := microrl.print endl

/-- `terminal_move_cursor`. -/
def terminalMoveCursor (microrl : Microrl) (offset : Int) : Microrl :=
  microrl.print (moveText offset)

/-- `terminal_reset_cursor`. -/
def terminalResetCursor (microrl : Microrl) : Microrl := microrl.print resetText

/-- A character of the command line on the terminal. -/
def shown (c : Char) : Char := if c = nul then ' ' else c

/-- The characters that `terminal_print_line` reads. -/
def lineFrom (microrl : Microrl) (pos : Nat) : Except MicrorlFault CString :=
  if pos < microrl.cmdlen then access (slice microrl.cmdline pos (microrl.cmdlen - pos))
  else .ok []

/-- `terminal_print_line`. -/
def terminalPrintLine (microrl : Microrl) (pos : Nat) (cursor : Nat) :
    Except MicrorlFault Microrl := do
  let microrl := microrl.print eraseText
  let text ← microrl.lineFrom pos
  let microrl := text.foldl (fun microrl c => microrl.print [shown c]) microrl
  return microrl.terminalResetCursor.terminalMoveCursor cursor

/-! ### Start -/

/-- `microrl_init`. The memory of the object is zero before. -/
def microrlInit : Microrl := ({} : Microrl).printPrompt

/-- `ConsoleManager::begin`, with its callbacks. -/
def begin (execute : Bool) (getCompletion : Option GetCompletion) : Microrl :=
  { microrlInit with execute := execute, getCompletion := getCompletion }

/-! ### Editing -/

/-- `hist_search`. -/
def histSearch (microrl : Microrl) (dir : HistDirection) : Except MicrorlFault Microrl := do
  let (len, ringHist, cmdline) ← microrl.ringHist.histRestoreLine microrl.cmdline dir
  let microrl := { microrl with ringHist := ringHist, cmdline := cmdline }
  match len with
  | some len =>
      let cmdline ← access (put cmdline len nul)
      let microrl := { microrl with cmdline := cmdline, cursor := len, cmdlen := len }
      microrl.terminalResetCursor.terminalPrintLine 0 microrl.cursor
  | none => return microrl

/-- A character of a text in the command line. -/
def stored (c : Char) : Char := if c = ' ' then nul else c

/-- `microrl_insert_text`. `text` is the string from the pointer on, and `len` may be negative. -/
def microrlInsertText (microrl : Microrl) (text : CString) (len : Int) :
    Except MicrorlFault (Bool × Microrl) := do
  let cmdlen : Int := microrl.cmdlen + len
  let cursor : Int := microrl.cursor + len
  if cmdlen < commandLineLen then
    -- `memmove` to a position in front of the array.
    if cursor < 0 then throw .outOfBounds
    let cmdline ← access (memmove microrl.cmdline cursor.toNat microrl.cursor
      (microrl.cmdlen - microrl.cursor))
    let chars ← access (slice text 0 len.toNat)
    let cmdline ← access (overwrite cmdline microrl.cursor (chars.map stored))
    let cmdline ← access (put cmdline cmdlen.toNat nul)
    return (true,
      { microrl with cmdline := cmdline, cursor := cursor.toNat, cmdlen := cmdlen.toNat })
  else return (false, microrl)

/-- `microrl_backspace`. The NUL behind the line moves with the text. -/
def microrlBackspace (microrl : Microrl) : Except MicrorlFault Microrl := do
  if 0 < microrl.cursor then
    let microrl := microrl.terminalBackspace
    let cmdline ← access (memmove microrl.cmdline (microrl.cursor - 1) microrl.cursor
      (microrl.cmdlen - microrl.cursor + 1))
    let cmdline ← access (put cmdline microrl.cmdlen nul)
    return { microrl with
      cmdline := cmdline
      cursor := microrl.cursor - 1
      cmdlen := microrl.cmdlen - 1 }
  else return microrl

/-- `while (cursor > 0) microrl_backspace`. -/
def backspaceWhile : Nat → Microrl → Except MicrorlFault Microrl
  | 0, _ => .error .endless
  | rounds + 1, microrl => do
      if 0 < microrl.cursor then backspaceWhile rounds (← microrl.microrlBackspace)
      else return microrl

/-! ### Completion -/

/-- The loop of `common_len` over the characters of the shortest string. -/
def commonLenFrom (arr : List CString) (shortest : CString) : Nat → Nat → Nat
  | 0, i => i
  | left + 1, i =>
      if arr.any fun s => s[i]? ≠ shortest[i]? then i else commonLenFrom arr shortest left (i + 1)

/-- `common_len` of the strings in front of the null pointer. -/
def commonLen (first : CString) (arr : List CString) : Nat :=
  let shortest := arr.foldl (fun shortest s => if s.length < shortest.length then s else shortest)
    first
  commonLenFrom arr shortest shortest.length 0

/-- The strings of an array that a null pointer ends. -/
def stringsOf : CompletionBuffer → Option (List CString)
  | [] => none
  | none :: _ => some []
  | some s :: complToken => (stringsOf complToken).map (s :: ·)

/-- `tkn_arr[i]`. -/
def tokenAt (tknArr : List CString) (i : Int) : Except MicrorlFault CString :=
  if i < 0 then .error .outOfBounds else access tknArr[i.toNat]?

/-- `len` of `microrl_get_complite`. -/
def completionLen (first : CString) (more : List CString) : Nat :=
  if more.isEmpty then first.length else commonLen first (first :: more)

/-- Two completions or more are printed. -/
def printCompletions (microrl : Microrl) (first : CString) (more : List CString) : Microrl :=
  if more.isEmpty then microrl
  else
    let microrl := (first :: more).foldl
      (fun microrl s => (microrl.print s).print " ".toList) microrl.terminalNewline
    microrl.terminalNewline.printPrompt

/-- What the completions have in common is inserted. -/
def insertCommon (microrl : Microrl) (status : Int) (tknArr : List CString) (first : CString)
    (more : List CString) : Except MicrorlFault Microrl := do
  let len := completionLen first more
  if len ≠ 0 then
    let token ← tokenAt tknArr (status - 1)
    let (_, microrl) ←
      microrl.microrlInsertText (first.drop token.length) ((len : Int) - token.length)
    if more.isEmpty then
      let (_, microrl) ← microrl.microrlInsertText " ".toList 1
      return microrl
    else return microrl
  else return microrl

/-- `tkn_arr[status++] = ""`, behind a blank. -/
def addEmptyToken (status : Int) (tknArr : List CString) (last : Char) :
    Except MicrorlFault (Int × List CString) :=
  if last = nul then
    if status < 0 then .error .outOfBounds else .ok (status + 1, tknArr ++ [[]])
  else .ok (status, tknArr)

/-- `cmdline[cursor - 1]`. -/
def lastChar (microrl : Microrl) : Except MicrorlFault Char :=
  if microrl.cursor = 0 then .error .outOfBounds else access microrl.cmdline[microrl.cursor - 1]?

/-- `microrl_get_complite`. -/
def microrlGetComplite (microrl : Microrl) : Except MicrorlFault Microrl := do
  match microrl.getCompletion with
  | none => return microrl
  | some getCompletion =>
      let (status, tknArr) ← microrl.split microrl.cursor
      let (status, tknArr) ← addEmptyToken status tknArr (← microrl.lastChar)
      let complToken ← (getCompletion status tknArr).mapError .completion
      match ← access (stringsOf complToken) with
      | [] => return microrl
      | first :: more =>
          let microrl ← (microrl.printCompletions first more).insertCommon status tknArr first more
          microrl.terminalResetCursor.terminalPrintLine 0 microrl.cursor

/-! ### Keys -/

/-- A line that is not empty is stored. -/
def saveLine (microrl : Microrl) : Except MicrorlFault RingHistory :=
  if 0 < microrl.cmdlen then microrl.ringHist.histSaveLine microrl.cmdline microrl.cmdlen
  else .ok microrl.ringHist

/-- The tokens are executed. Too many tokens are an error. -/
def executeTokens (microrl : Microrl) (status : Int) (tknArr : List CString) : Microrl :=
  let microrl :=
    if status = -1 then (microrl.print "ERROR:too many tokens".toList).print endl else microrl
  if 0 < status && microrl.execute then
    { microrl with calls := microrl.calls ++ [.execute tknArr] }
  else microrl

/-- The end of `new_line_handler`. -/
def clearLine (microrl : Microrl) : Microrl :=
  { microrl with
    cmdlen := 0
    cursor := 0
    cmdline := .replicate commandLineLen nul
    ringHist := { microrl.ringHist with cur := 0 } }

/-- `new_line_handler`. -/
def newLineHandler (microrl : Microrl) : Except MicrorlFault Microrl := do
  let microrl := microrl.terminalNewline
  let ringHist ← microrl.saveLine
  let microrl := { microrl with ringHist := ringHist }
  let (status, tknArr) ← microrl.split microrl.cmdlen
  return (microrl.executeTokens status tknArr).printPrompt.clearLine

/-- The cursor goes to the right, inside of the line. -/
def moveRight (microrl : Microrl) : Microrl :=
  if microrl.cursor < microrl.cmdlen then
    { microrl.terminalMoveCursor 1 with cursor := microrl.cursor + 1 }
  else microrl

/-- The cursor goes to the left, inside of the line. -/
def moveLeft (microrl : Microrl) : Microrl :=
  if 0 < microrl.cursor then
    { microrl.terminalMoveCursor (-1) with cursor := microrl.cursor - 1 }
  else microrl

/-- The cursor goes to the start of the line. -/
def moveHome (microrl : Microrl) : Microrl := { microrl.terminalResetCursor with cursor := 0 }

/-- The cursor goes to the end of the line. -/
def moveEnd (microrl : Microrl) : Microrl :=
  { microrl.terminalMoveCursor ((microrl.cmdlen : Int) - microrl.cursor) with
    cursor := microrl.cmdlen }

/-- `escape_process`. The result tells whether the escape sequence is at its end. -/
def escapeProcess (microrl : Microrl) (ch : Char) : Except MicrorlFault (Bool × Microrl) := do
  if ch = '[' then return (false, { microrl with escapeSeq := .bracket })
  else if microrl.escapeSeq = .bracket then
    if ch = 'A' then return (true, ← microrl.histSearch .up)
    else if ch = 'B' then return (true, ← microrl.histSearch .down)
    else if ch = 'C' then return (true, microrl.moveRight)
    else if ch = 'D' then return (true, microrl.moveLeft)
    else if ch = '7' then return (false, { microrl with escapeSeq := .home })
    else if ch = '8' then return (false, { microrl with escapeSeq := .atEnd })
    else return (true, microrl)
  else if ch = '~' then
    if microrl.escapeSeq = .home then return (true, microrl.moveHome)
    else if microrl.escapeSeq = .atEnd then return (true, microrl.moveEnd)
    else return (true, microrl)
  else return (true, microrl)

/-- The default of the `switch`. -/
def insertKey (microrl : Microrl) (ch : Byte) : Except MicrorlFault Microrl := do
  if charOfByte ch = ' ' && microrl.cmdlen = 0 || isControlChar ch then return microrl
  else
    let (inserted, microrl) ← microrl.microrlInsertText [charOfByte ch] 1
    if inserted then microrl.terminalPrintLine (microrl.cursor - 1) microrl.cursor
    else return microrl

/-- `microrl_insert_char`. -/
def microrlInsertChar (microrl : Microrl) (ch : Byte) : Except MicrorlFault Microrl := do
  if microrl.escape then
    let (done, microrl) ← microrl.escapeProcess (charOfByte ch)
    return if done then { microrl with escape := false } else microrl
  else match MicrorlKey.ofByte ch with
    | .cr => microrl.newLineHandler
    | .lf => return microrl
    | .ht => microrl.microrlGetComplite
    | .esc => return { microrl with escape := true }
    | .nak =>
        let microrl ← backspaceWhile commandLineLen microrl
        microrl.terminalPrintLine 0 microrl.cursor
    | .vt =>
        let microrl := microrl.print eraseText
        return { microrl with cmdlen := microrl.cursor }
    | .enq => return microrl.moveEnd
    | .soh => return microrl.moveHome
    | .ack => return microrl.moveRight
    | .stx => return microrl.moveLeft
    | .dle => microrl.histSearch .up
    | .so => microrl.histSearch .down
    | .del =>
        let microrl ← microrl.microrlBackspace
        microrl.terminalPrintLine microrl.cursor microrl.cursor
    | .dc2 =>
        let microrl := microrl.terminalNewline.printPrompt.terminalResetCursor
        microrl.terminalPrintLine 0 microrl.cursor
    | .other => microrl.insertKey ch

/-! ### Executed commands -/

/-- The tokens that were executed, in their order. -/
def executions (calls : List MicrorlCall) : List (List CString) :=
  calls.filterMap fun
    | .print _ => none
    | .execute argv => some argv

end Microrl

end C6021Light
