import Mathlib.Data.List.Basic

/-!
# `C6021Light.CliSupport`: command tables of the console

`cliSupport.h` and `cliSupport.cpp`. A table is the list of its arguments in front of the entry
without a name. A node without options has a null pointer there, which is `none`. A handler is
known by what it is (`CliHandlerFunc`), not by what it does.

Names and tokens are C strings, as lists of their characters. `argv` holds `argc` tokens. A read
behind the last one is undefined behaviour in the source, and a `CliFault` here.
-/

set_option autoImplicit false

namespace C6021Light

/-- A C string. -/
abbrev CString := List Char

/-! ### Strings -/

/-- `strstr`, as an offset into the haystack. -/
def strstr : CString → CString → Option Nat
  | [], needle => if needle.isEmpty then some 0 else none
  | c :: haystack, needle =>
      if needle.isPrefixOf (c :: haystack) then some 0
      else (strstr haystack needle).map (· + 1)

/-- A string starts with each of its prefixes. -/
theorem strstr_eq_zero_iff (haystack needle : CString) :
    strstr haystack needle = some 0 ↔ needle <+: haystack := by
  cases haystack with
  | nil =>
      rw [strstr, List.prefix_nil, ← List.isEmpty_iff]
      cases needle.isEmpty <;> simp
  | cons c haystack =>
      rw [strstr, ← List.isPrefixOf_iff_prefix]
      cases needle.isPrefixOf (c :: haystack) <;> simp

/-! ### Tables -/

/-- `cliSupport::Argument`. -/
structure Argument (CliHandlerFunc : Type) where
  name : CString
  options : Option (List (Argument CliHandlerFunc)) := none
  handler : Option CliHandlerFunc := none
  help : Option CString := none

variable {CliHandlerFunc : Type}

/-- `cliSupport::PrefixResult`. -/
structure PrefixResult (CliHandlerFunc : Type) where
  arg : Option (Argument CliHandlerFunc) := none
  level : Nat := 0

namespace PrefixResult

/-- `PrefixResult::empty`. -/
def empty (result : PrefixResult CliHandlerFunc) : Bool :=
  result.arg.isNone && result.level = 0

/-- `PrefixResult::valid`. -/
def valid (result : PrefixResult CliHandlerFunc) (argc : Nat) : Bool :=
  result.arg.isSome && result.level < argc

end PrefixResult

/-- `PrefixPredicate_t`. -/
abbrev PrefixPredicate (CliHandlerFunc : Type) := Argument CliHandlerFunc → Bool

/-- `TruePredicate`. -/
def truePredicate : PrefixPredicate CliHandlerFunc := fun _ => true

/-- `HasHandlerPredicate`. -/
def hasHandlerPredicate : PrefixPredicate CliHandlerFunc := fun arg => arg.handler.isSome

/-- `setResultIfPredicateHolds`. -/
def setResultIfPredicateHolds (result : PrefixResult CliHandlerFunc)
    (predicate : PrefixPredicate CliHandlerFunc) (argument : Argument CliHandlerFunc)
    (level : Nat) : PrefixResult CliHandlerFunc :=
  if predicate argument then { arg := some argument, level := level } else result

/-- The inner loop of `findLongestPrefix`: the first argument of a table with the name. -/
def findArgument (table : List (Argument CliHandlerFunc)) (token : CString) :
    Option (Argument CliHandlerFunc) :=
  table.find? fun argument => argument.name = token

/-- The outer loop of `findLongestPrefix`, from a level on. -/
def findLongestPrefixFrom (predicate : PrefixPredicate CliHandlerFunc) :
    Option (List (Argument CliHandlerFunc)) → Nat → List CString →
      PrefixResult CliHandlerFunc → PrefixResult CliHandlerFunc
  | some currentLevelArguments, argvIdx, token :: argv, result =>
      match findArgument currentLevelArguments token with
      | some argument =>
          findLongestPrefixFrom predicate argument.options (argvIdx + 1) argv
            (setResultIfPredicateHolds result predicate argument argvIdx)
      | none => result
  | _, _, _, result => result

/-- `findLongestPrefix`. -/
def findLongestPrefix (argtable : List (Argument CliHandlerFunc)) (argv : List CString)
    (predicate : PrefixPredicate CliHandlerFunc) : PrefixResult CliHandlerFunc :=
  findLongestPrefixFrom predicate (some argtable) 0 argv {}

/-! ### Completion -/

/-- A read behind `argv`. -/
inductive CliFault
  | argvOutOfBounds (idx : Nat)
deriving DecidableEq, Repr

/-- `argv[idx]`. -/
def readArgv (argv : List CString) (idx : Nat) : Except CliFault CString :=
  match argv[idx]? with
  | some token => .ok token
  | none => .error (.argvOutOfBounds idx)

/-- The entries of a completion buffer. Some are null. -/
abbrev CompletionBuffer := List (Option CString)

/-- The loop of `fillCompletionData`. -/
def fillCompletions (maxNumCompletions : Nat) (argvToMatch : CString) :
    List (Argument CliHandlerFunc) → Nat → CompletionBuffer → CompletionBuffer
  | [], _, completionBuffer => completionBuffer
  | argument :: rest, completionIt, completionBuffer =>
      if completionIt < maxNumCompletions then
        if strstr argument.name argvToMatch = some 0 then
          fillCompletions maxNumCompletions argvToMatch rest (completionIt + 1)
            (completionBuffer.set completionIt (some argument.name))
        else fillCompletions maxNumCompletions argvToMatch rest completionIt completionBuffer
      else completionBuffer

/-- `argumentIt` and `argvToMatch` of `fillCompletionData`. -/
def completionStart (argtable : List (Argument CliHandlerFunc)) (argv : List CString)
    (result : PrefixResult CliHandlerFunc) :
    Except CliFault (Option (List (Argument CliHandlerFunc)) × Option CString) := do
  if result.empty then
    let argvToMatch ← readArgv argv 0
    return (some argtable, some argvToMatch)
  else if result.valid argv.length then
    let argvToMatch ← readArgv argv (result.level + 1)
    return (result.arg.bind (·.options), some argvToMatch)
  else return (none, none)

/-- `fillCompletionData`. It returns the buffer. -/
def fillCompletionData (maxNumCompletions : Nat) (argtable : List (Argument CliHandlerFunc))
    (argv : List CString) : Except CliFault CompletionBuffer := do
  let completionBuffer : CompletionBuffer := .replicate maxNumCompletions none
  if argv.length < 1 then return completionBuffer
  let result := findLongestPrefix argtable argv truePredicate
  if result.level ≤ argv.length then
    match ← completionStart argtable argv result with
    | (some argumentIt, some argvToMatch) =>
        return fillCompletions maxNumCompletions argvToMatch argumentIt 0 completionBuffer
    | _ => return completionBuffer
  else return completionBuffer

/-! ### Dispatch -/

/-- What `callHandler` returns when there is no handler. -/
def kNoHandler : Int := -128

/-- `callHandler`. `call` is the call through a handler pointer, with `argv` and `argcMatched`. -/
def callHandler {m : Type → Type} [Monad m]
    (call : Option CliHandlerFunc → List CString → Nat → m Int)
    (argtable : List (Argument CliHandlerFunc)) (argv : List CString) : m Int :=
  let result := findLongestPrefix argtable argv hasHandlerPredicate
  if result.valid argv.length then
    call (result.arg.bind (·.handler)) argv (result.level + 1)
  else return kNoHandler

end C6021Light
