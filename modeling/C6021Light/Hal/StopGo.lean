import C6021Light.RoutingTask.I2CForwarder

/-!
# `C6021Light.Hal.StopGo`: the STOP and GO buttons

The button interrupts `exti4_isr` and `exti15_isr` and the function `getStopGoRequest` of the
task (`stm32I2C.cpp`), with the class `Debounce` (`Debounce.h`).

A handler is one step. `getStopGoRequest` is three statements, and a handler may run between
any two of them. `CallPosition` says which statement of the task comes next, with the local
variable of the call. `reports` is a ghost field. It records what each call returned.

`now()` is an input, once for each time that `addEdge` reads it. The variables have static
storage, so they start as zero.
-/

set_option autoImplicit false

namespace C6021Light

/-! ### `Debounce` -/

/-- `Debounce::Edge`. -/
inductive Edge
  | falling
  | rising
deriving DecidableEq, Repr

/-- `Debounce::Level`. -/
inductive Level
  | low
  | high
deriving DecidableEq, Repr

/-- `Debounce::Cooldown_t`, in milliseconds. -/
abbrev Cooldown := BitVec 32

/-- `kCooldownDurationMs`. -/
abbrev kCooldownDurationMs : Cooldown := 100

/-- `Debounce`. -/
structure Debounce where
  debouncedLevel : Level := .low
  cooldownTimeout : Cooldown := 0
deriving DecidableEq, Repr

namespace Debounce

/-- `isCooldownActive`. -/
def isCooldownActive (line : Debounce) (now : Cooldown) : Bool := now < line.cooldownTimeout

/-- The sum wraps around, as in the source. -/
def startCooldown (line : Debounce) (now : Cooldown) : Debounce :=
  { line with cooldownTimeout := now + kCooldownDurationMs }

/-- `applyEdge`. -/
def applyEdge (line : Debounce) (edge : Edge) : Debounce :=
  { line with debouncedLevel := if edge = .falling then .low else .high }

/-- `addEdge`. `now` is the time of the check, and `later` the time of the new cooldown. -/
def addEdge (line : Debounce) (edge : Edge) (now later : Cooldown) : Bool × Debounce :=
  if !line.isCooldownActive now then (true, (line.applyEdge edge).startCooldown later)
  else (false, line)

/-- An edge is accepted exactly when no cooldown is active. -/
theorem addEdge_accepted (line : Debounce) (edge : Edge) (now later : Cooldown) :
    (line.addEdge edge now later).1 = !line.isCooldownActive now := by
  rw [addEdge]
  cases line.isCooldownActive now <;> rfl

/-- `xTaskGetTickCount`. The count has 32 bits. -/
def xTaskGetTickCount (ticks : Nat) : BitVec 32 := .ofNat 32 ticks

/-- `portTICK_PERIOD_MS`, at a `configTICK_RATE_HZ` of 250. -/
def portTickPeriodMs : BitVec 32 := 1000 / 250

/-- `now`, after a number of ticks. The product wraps around. -/
def now (ticks : Nat) : Cooldown := xTaskGetTickCount ticks * portTickPeriodMs

/-- What `addEdge` returns for edges at the given tick counts. -/
def addEdges (line : Debounce) : List (Edge × Nat) → List Bool
  | [] => []
  | (edge, ticks) :: rest =>
      let added := line.addEdge edge (now ticks) (now ticks)
      added.1 :: added.2.addEdges rest

end Debounce

/-! ### Interrupts and task -/

/-- The two buttons. -/
inductive Button
  | stop
  | go
deriving DecidableEq, Repr

/-- The flag of a button. -/
def StopGoRequest.flag (request : StopGoRequest) : Button → Bool
  | .stop => request.stopRequest
  | .go => request.goRequest

/-- Where the task is in `getStopGoRequest`. -/
inductive CallPosition
  | outside
  | copied (currentRequest : StopGoRequest)
  | cleared (currentRequest : StopGoRequest)
deriving DecidableEq, Repr

/-- The local variable of the call, once it has a value. -/
def CallPosition.currentRequest : CallPosition → Option StopGoRequest
  | .outside => none
  | .copied currentRequest | .cleared currentRequest => some currentRequest

/-- The request that the interrupts write, the lines of the buttons, the position of the task, and a
record of what the calls returned. -/
structure Buttons where
  stopGoRequest : StopGoRequest := {}
  stopLine : Debounce := {}
  goLine : Debounce := {}
  position : CallPosition := .outside
  reports : List StopGoRequest := []
deriving DecidableEq, Repr

/-- A step of a handler or of the task. -/
inductive ButtonEvent
  | exti4Isr (now later : Cooldown)
  | exti15Isr (now later : Cooldown)
  | getStopGoRequest
deriving DecidableEq, Repr

namespace Buttons

/-- `exti4_isr`: an edge of the STOP line. -/
def exti4Isr (buttons : Buttons) (now later : Cooldown) : Buttons :=
  let edge := buttons.stopLine.addEdge .rising now later
  { buttons with
    stopLine := edge.2
    stopGoRequest :=
      if edge.1 then { buttons.stopGoRequest with stopRequest := true }
      else buttons.stopGoRequest }

/-- `exti15_isr`: an edge of the GO line. -/
def exti15Isr (buttons : Buttons) (now later : Cooldown) : Buttons :=
  let edge := buttons.goLine.addEdge .rising now later
  { buttons with
    goLine := edge.2
    stopGoRequest :=
      if edge.1 then { buttons.stopGoRequest with goRequest := true }
      else buttons.stopGoRequest }

/-- The next statement of `getStopGoRequest`. A task outside of the function calls it. -/
def getStopGoRequest (buttons : Buttons) : Buttons :=
  match buttons.position with
  | .outside => { buttons with position := .copied buttons.stopGoRequest }
  | .copied currentRequest =>
      { buttons with stopGoRequest := {}, position := .cleared currentRequest }
  | .cleared currentRequest =>
      { buttons with position := .outside, reports := buttons.reports ++ [currentRequest] }

/-- One step of an interrupt or of the task. -/
def step (buttons : Buttons) : ButtonEvent → Buttons
  | .exti4Isr now later => buttons.exti4Isr now later
  | .exti15Isr now later => buttons.exti15Isr now later
  | .getStopGoRequest => buttons.getStopGoRequest

/-- The debouncer of the button accepts the edge. -/
def accepts (buttons : Buttons) (button : Button) : ButtonEvent → Bool
  | .exti4Isr now _ => button = .stop && !buttons.stopLine.isCooldownActive now
  | .exti15Isr now _ => button = .go && !buttons.goLine.isCooldownActive now
  | .getStopGoRequest => false

/-- The call in progress has a copy with the flag. -/
def HasCopied (buttons : Buttons) (button : Button) : Prop :=
  ∃ request, buttons.position.currentRequest = some request ∧ request.flag button = true

end Buttons

end C6021Light
