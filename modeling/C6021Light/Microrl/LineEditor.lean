import C6021Light.Lib.NewestFit
import C6021Light.Lib.Words
import C6021Light.Microrl.Microrl

/-!
# `C6021Light.Microrl.LineEditor`: what the line editor is for

An abstract line editor, without arrays. Its line is the text in front of the cursor and the text
behind it. A blank is a NUL, as in the command line of `Microrl`. The history is the newest lines
that fit, oldest first.

`Ctrl-K` cuts the line at the cursor, but it leaves the text in the memory. `killed` is the text
that follows the line there, up to the next blank. A word at the end of the line goes on with it.

`calls` are the calls of the callbacks, as in `Microrl`. `Proofs.LineEditing` shows that `Microrl`
implements this editor.
-/

set_option autoImplicit false

namespace C6021Light

open CheckedArray NewestFit Words

/-! ### History -/

/-- The stored lines, the oldest one first, and the recalled one. -/
structure CommandHistory where
  lines : List CString := []
  /-- How many lines the editor is up. -/
  cur : Nat := 0
deriving DecidableEq, Repr

namespace CommandHistory

/-- A stored line has its length in front of it. -/
def lineWeight (line : CString) : Nat := line.length + 1

/-- Of the stored lines and a new one, the newest that fit. A line that is too long is not
stored. -/
def save (history : CommandHistory) (line : CString) : CommandHistory :=
  if ringHistoryLen - 2 < line.length then history
  else { lines := newest lineWeight (ringHistoryLen - 1) (history.lines ++ [line]), cur := 0 }

/-- The line that is so many lines up. The empty line is at the bottom. -/
def lineAt (history : CommandHistory) (up : Nat) : CString :=
  if up = 0 then [] else history.lines[history.lines.length - up]?.getD []

/-- One line up, if there is one. -/
def up (history : CommandHistory) : Option (CString × CommandHistory) :=
  if history.cur < history.lines.length then
    some (history.lineAt (history.cur + 1), { history with cur := history.cur + 1 })
  else none

/-- One line down. -/
def down (history : CommandHistory) : CString × CommandHistory :=
  (history.lineAt (history.cur - 1), { history with cur := history.cur - 1 })

end CommandHistory

/-! ### State -/

/-- A line editor: the parts of the line before and behind the cursor, the text that was cut off
behind the line, and the callbacks with their calls. -/
structure LineEditor where
  escapeSeq : EscapeSeq := .unset
  escape : Bool := false
  before : CString := []
  after : CString := []
  killed : CString := []
  history : CommandHistory := {}
  execute : Bool := false
  getCompletion : Option GetCompletion := none
  calls : List MicrorlCall := []

/-- A blank of the line. -/
abbrev isBlank (c : Char) : Bool := c = nul

namespace LineEditor

/-- The whole line. -/
def line (editor : LineEditor) : CString := editor.before ++ editor.after

/-- Calls of the callbacks. -/
def call (editor : LineEditor) (calls : List MicrorlCall) : LineEditor :=
  { editor with calls := editor.calls ++ calls }

/-- A text is printed. -/
def print (editor : LineEditor) (text : CString) : LineEditor := editor.call [.print text]

/-! ### Drawing -/

/-- The text from the cursor of the terminal on is drawn, and the cursor goes to its place. -/
def drawCalls (text : CString) (cursor : Nat) : List MicrorlCall :=
  .print Microrl.eraseText :: text.map (fun c => .print [Microrl.shown c])
    ++ [.print Microrl.resetText, .print (Microrl.moveText cursor)]

/-- The line from a position on is drawn. -/
def draw (editor : LineEditor) (pos : Nat) : LineEditor :=
  editor.call (drawCalls (editor.line.drop pos) editor.before.length)

/-! ### Editing -/

/-- The text in front of the cursor gets longer by some characters, or shorter. The line is not
longer than what fits. -/
def insertText (editor : LineEditor) (text : CString) (len : Int) :
    Except MicrorlFault (Bool × LineEditor) := do
  if editor.line.length + len < commandLineLen then
    let cursor : Int := editor.before.length + len
    if cursor < 0 then throw .outOfBounds
    let chars ← access (slice text 0 len.toNat)
    return (true, { editor with
      before := editor.before.take cursor.toNat ++ chars.map Microrl.stored
      killed := [] })
  else return (false, editor)

/-- The character before the cursor is taken away. -/
def backspace (editor : LineEditor) : LineEditor :=
  if editor.before = [] then editor
  else { editor.print Microrl.backspaceText with
    before := editor.before.dropLast
    killed := editor.killed.take 1 }

/-- The text in front of the cursor is deleted, one character after the other. -/
def backspaceAll : Nat → LineEditor → LineEditor
  | 0, editor => editor
  | rounds + 1, editor => backspaceAll rounds editor.backspace

/-- The line is cut at the cursor. -/
def kill (editor : LineEditor) : LineEditor :=
  { editor.print Microrl.eraseText with
    after := []
    killed := (editor.after ++ editor.killed).takeWhile (!isBlank ·) }

/-- The cursor goes to the right, inside of the line. -/
def moveRight (editor : LineEditor) : LineEditor :=
  match editor.after with
  | [] => editor
  | c :: after =>
      { editor.print (Microrl.moveText 1) with before := editor.before ++ [c], after := after }

/-- The cursor goes to the left, inside of the line. -/
def moveLeft (editor : LineEditor) : LineEditor :=
  match editor.before.getLast? with
  | none => editor
  | some c =>
      { editor.print (Microrl.moveText (-1)) with
        before := editor.before.dropLast
        after := c :: editor.after }

/-- The cursor goes to the start of the line. -/
def moveHome (editor : LineEditor) : LineEditor :=
  { editor.print Microrl.resetText with before := [], after := editor.line }

/-- The cursor goes to the end of the line. -/
def moveEnd (editor : LineEditor) : LineEditor :=
  { editor.print (Microrl.moveText editor.after.length) with before := editor.line, after := [] }

/-- The line is another one, with the cursor at its end. -/
def setLine (editor : LineEditor) (line : CString) (history : CommandHistory) : LineEditor :=
  ({ editor with before := line, after := [], killed := [], history := history }.print
    Microrl.resetText).draw 0

/-- An older line of the history, if there is one. -/
def historyUp (editor : LineEditor) : LineEditor :=
  match editor.history.up with
  | some (line, history) => editor.setLine line history
  | none => editor

/-- A newer line of the history, or the empty line. -/
def historyDown (editor : LineEditor) : LineEditor :=
  editor.setLine editor.history.down.1 editor.history.down.2

/-! ### Words -/

/-- The words in front of the cursor. The last one goes on behind the cursor. -/
def tokens (editor : LineEditor) : List CString :=
  wordsWithTail isBlank editor.before ((editor.after ++ editor.killed).takeWhile (!isBlank ·))

/-- The words of the line. The last one goes on with the killed text. -/
def command (editor : LineEditor) : List CString :=
  wordsWithTail isBlank editor.line editor.killed

/-- The words are executed, if there are any. Too many words are an error. -/
def commandCalls (editor : LineEditor) : List MicrorlCall :=
  if commandTokenNmb ≤ editor.command.length then
    [.print "ERROR:too many tokens".toList, .print Microrl.endl]
  else if editor.command ≠ [] && editor.execute then [.execute editor.command]
  else []

/-- The line is stored, and its words are executed. -/
def submit (editor : LineEditor) : LineEditor :=
  let history := if editor.line = [] then editor.history else editor.history.save editor.line
  { ((editor.print Microrl.endl).call editor.commandCalls).print promptDefault with
    before := []
    after := []
    killed := []
    history := { history with cur := 0 } }

/-- Two completions or more are printed. -/
def printCompletions (editor : LineEditor) (first : CString) (more : List CString) : LineEditor :=
  if more.isEmpty then editor
  else
    let calls := (first :: more).flatMap fun s => [.print s, .print " ".toList]
    (((editor.print Microrl.endl).call calls).print Microrl.endl).print promptDefault

/-- What the completions have in common is inserted behind the word in front of the cursor. -/
def insertCommon (editor : LineEditor) (word : Option CString) (first : CString)
    (more : List CString) : Except MicrorlFault LineEditor := do
  let len := Microrl.completionLen first more
  if len ≠ 0 then
    let word ← access word
    let (_, editor) ← editor.insertText (first.drop word.length) ((len : Int) - word.length)
    if more.isEmpty then
      let (_, editor) ← editor.insertText " ".toList 1
      return editor
    else return editor
  else return editor

/-- `argc` and the tokens for the completion. A blank in front of the cursor starts an empty
token. -/
def completionArgs (editor : LineEditor) (last : Char) :
    Except MicrorlFault (Int × List CString) :=
  if commandTokenNmb ≤ editor.tokens.length then
    -- There is no place for the empty token.
    if isBlank last then throw .outOfBounds
    else return (-1, editor.tokens.take commandTokenNmb)
  else
    let argv := if isBlank last then editor.tokens ++ [[]] else editor.tokens
    return (argv.length, argv)

/-- The words in front of the cursor are completed, when a callback is set. -/
def complete (editor : LineEditor) : Except MicrorlFault LineEditor := do
  match editor.getCompletion with
  | none => return editor
  | some getCompletion =>
      -- There must be a character in front of the cursor.
      let last ← access editor.before.getLast?
      let (argc, argv) ← editor.completionArgs last
      let complToken ← (getCompletion argc argv).mapError .completion
      match ← access (Microrl.stringsOf complToken) with
      | [] => return editor
      | first :: more =>
          let word := if argc < 0 then none else argv.getLast?
          let editor ← (editor.printCompletions first more).insertCommon word first more
          return (editor.print Microrl.resetText).draw 0

/-! ### Keys -/

/-- What the keys do. -/
inductive Action
  | insert (ch : Byte)
  | backspace
  | eraseToStart
  | kill
  | moveRight
  | moveLeft
  | moveHome
  | moveEnd
  | historyUp
  | historyDown
  | submit
  | complete
  | redraw
  | nothing
deriving DecidableEq, Repr

/-- A key while no escape sequence is open. -/
def actionOfKey (ch : Byte) : Action :=
  match MicrorlKey.ofByte ch with
  | .cr => .submit
  | .lf => .nothing
  | .ht => .complete
  | .esc => .nothing
  | .nak => .eraseToStart
  | .vt => .kill
  | .enq => .moveEnd
  | .soh => .moveHome
  | .ack => .moveRight
  | .stx => .moveLeft
  | .dle => .historyUp
  | .so => .historyDown
  | .del => .backspace
  | .dc2 => .redraw
  | .other => .insert ch

/-- A key in an escape sequence: whether the sequence goes on, its state, and the action. -/
def actionOfEscape (escapeSeq : EscapeSeq) (c : Char) : Bool × EscapeSeq × Action :=
  if c = '[' then (true, .bracket, .nothing)
  else match escapeSeq with
    | .bracket =>
        if c = 'A' then (false, .bracket, .historyUp)
        else if c = 'B' then (false, .bracket, .historyDown)
        else if c = 'C' then (false, .bracket, .moveRight)
        else if c = 'D' then (false, .bracket, .moveLeft)
        else if c = '7' then (true, .home, .nothing)
        else if c = '8' then (true, .atEnd, .nothing)
        else (false, .bracket, .nothing)
    | .home => (false, .home, if c = '~' then .moveHome else .nothing)
    | .atEnd => (false, .atEnd, if c = '~' then .moveEnd else .nothing)
    | .unset => (false, .unset, .nothing)

/-- A character is inserted at the cursor. A line does not start with a typed blank. -/
def insert (editor : LineEditor) (ch : Byte) : Except MicrorlFault LineEditor := do
  if charOfByte ch = ' ' && editor.line.isEmpty || isControlChar ch then return editor
  else
    let (inserted, editor) ← editor.insertText [charOfByte ch] 1
    return if inserted then editor.draw (editor.before.length - 1) else editor

/-- The effect of an action. Only the completion can fault. -/
def act (editor : LineEditor) : Action → Except MicrorlFault LineEditor
  | .insert ch => editor.insert ch
  | .backspace =>
      let editor := editor.backspace
      return editor.draw editor.before.length
  | .eraseToStart => return (editor.backspaceAll editor.before.length).draw 0
  | .kill => return editor.kill
  | .moveRight => return editor.moveRight
  | .moveLeft => return editor.moveLeft
  | .moveHome => return editor.moveHome
  | .moveEnd => return editor.moveEnd
  | .historyUp => return editor.historyUp
  | .historyDown => return editor.historyDown
  | .submit => return editor.submit
  | .complete => editor.complete
  | .redraw =>
      return (((editor.print Microrl.endl).print promptDefault).print Microrl.resetText).draw 0
  | .nothing => return editor

/-- The next key. -/
def step (editor : LineEditor) (ch : Byte) : Except MicrorlFault LineEditor := do
  if editor.escape then
    let (escape, escapeSeq, action) := actionOfEscape editor.escapeSeq (charOfByte ch)
    return { ← editor.act action with escape := escape, escapeSeq := escapeSeq }
  else if MicrorlKey.ofByte ch = .esc then return { editor with escape := true }
  else editor.act (actionOfKey ch)

/-- The editor after `ConsoleManager::begin`. -/
def start (execute : Bool) (getCompletion : Option GetCompletion) : LineEditor :=
  { execute := execute, getCompletion := getCompletion, calls := [.print promptDefault] }

end LineEditor

end C6021Light
