import C6021Light.ConsoleManager
import C6021Light.Microrl.Microrl

/-!
# `C6021Light.ConsoleTask`: the console and its keys

`ConsoleTask::TaskMain` for received characters, with `microrl_print_cbk`,
`microrl_execute_callback` and `microrl_complete_callback` (`ConsoleManager.cpp`). `Microrl` lists
the calls of its callbacks, and here they are executed in their order, after the key. Neither the
commands nor the completions change the line editor.

`serial` is what was sent. `hal::SerialWrite` replaces a line end by CR and LF. The line end of
`Microrl` is a CR, and that of the commands a LF.
-/

set_option autoImplicit false

namespace C6021Light

/-- What `SerialWrite` sends for a text with a line end. -/
def serialText (lineEnd : Char) (text : CString) : CString :=
  text.flatMap fun c => if c = lineEnd then [Char.ofNat 13, Char.ofNat 10] else [c]

/-- `NUM_COMPLETIONS`. -/
abbrev numCompletions : Nat := 6

/-- `microrl_complete_callback`. The last entry of the buffer is never set. A negative `argc` has no
tokens. -/
def microrlCompleteCallback : GetCompletion := fun argc argv => do
  let completionData ←
    fillCompletionData (numCompletions - 1) ConsoleManager.argtable (argv.take argc.toNat)
  return completionData ++ [none]

/-- A fault in the line editor or in a command. -/
inductive ConsoleTaskFault
  | microrl (fault : MicrorlFault)
  | console (fault : ConsoleFault)
deriving DecidableEq, Repr

/-- The line editor, the console behind it and what was sent to the serial line. -/
structure ConsoleTask where
  microrl : Microrl
  console : ConsoleManager
  serial : CString

namespace ConsoleTask

/-- After `ConsoleManager::begin`. The prompt was sent. -/
def begin (console : ConsoleManager) : ConsoleTask where
  microrl := .begin true (some microrlCompleteCallback)
  console := console
  serial := serialText (Char.ofNat 13) promptDefault

/-- A call of a callback. -/
def handleCall (task : ConsoleTask) (microrlCall : MicrorlCall) :
    Except ConsoleTaskFault ConsoleTask := do
  match microrlCall with
  | .print text => return { task with serial := task.serial ++ serialText (Char.ofNat 13) text }
  | .execute argv =>
      let (_, console) ←
        ((ConsoleManager.microrlExecuteCallback argv).run task.console).mapError .console
      let written := console.output.drop task.console.output.length
      return { task with
        console := console
        serial := task.serial ++ serialText (Char.ofNat 10) written }

/-- A character that `pollSerial` returned. -/
def insertChar (task : ConsoleTask) (receivedCharacter : Byte) :
    Except ConsoleTaskFault ConsoleTask := do
  let microrl ← (task.microrl.microrlInsertChar receivedCharacter).mapError .microrl
  let newCalls := microrl.calls.drop task.microrl.calls.length
  newCalls.foldlM handleCall { task with microrl := microrl }

end ConsoleTask

end C6021Light
