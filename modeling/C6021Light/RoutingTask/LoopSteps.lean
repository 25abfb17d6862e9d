import C6021Light.Lib.LatchedFlag
import C6021Light.RoutingTask.StateMachines

/-!
# `C6021Light.RoutingTask.LoopSteps`: the statements of `loop`

`loop` of a state machine tests `timerExpired_`, handles the expiry, and clears the flag as its
last statement. The timer task can call `TimerCallback` between any two of these statements, and
the console can change the engine database there. The handler does not read the flag, so it is one
step. `StopGoStateMachine.loopSteps` and
`CanEngineDBStateMachine.loopSteps` are the machines as polls of their flag (`Lib.LatchedFlag`).
The other calls of a machine come from the task of `loop` itself. They may come anywhere as well,
which only adds runs.

`stopGo_loop_eq` and `canEngineDB_loop_eq` connect them with `loop` as one step.
-/

set_option autoImplicit false

namespace C6021Light

open LatchedFlag

/-! ### The Stop/Go machine -/

/-- What happens to the machine besides `loop`. -/
inductive StopGoCall
  | timerCallback
  | startRequesting
  | handlePacket (frame : PacketInfo)

namespace StopGoStateMachine

variable {machine : StopGoStateMachine}

/-- What a call does between the steps of `loop`. -/
def call (machine : StopGoStateMachine) : StopGoCall → StopGoStateMachine
  | .timerCallback => { machine with toStateMachineBase := machine.timerCallback }
  | .startRequesting => machine.startRequesting
  | .handlePacket frame => machine.handlePacket frame

/-- The call latches an expiry. -/
def callLatches : StopGoCall → Bool
  | .timerCallback | .startRequesting => true
  | .handlePacket _ => false

/-- Handling an expiry does not latch one. -/
theorem timerExpired_handleTimer (machine : StopGoStateMachine) :
    machine.handleTimer.timerExpired = machine.timerExpired := by
  rw [handleTimer]
  split
  · split <;> rfl
  · rfl

/-- A packet does not latch an expiry. -/
theorem timerExpired_handlePacket (frame : PacketInfo) :
    (machine.handlePacket frame).timerExpired = machine.timerExpired := by
  rw [handlePacket, notifyStatusMessageReceived]
  split
  · split
    · split <;> rfl
    · rfl
  · rfl

/-- `loop`, statement by statement. -/
def loopSteps : Poll StopGoStateMachine StopGoCall where
  flag machine := machine.timerExpired
  clear machine := { machine with timerExpired := false }
  handle := handleTimer
  step := call
  handleLatches _ := false
  stepLatches _ := callLatches
  flag_clear _ := rfl
  flag_handle machine := by rw [timerExpired_handleTimer, Bool.or_false]
  flag_step machine event := by
    cases event with
    | timerCallback => exact (Bool.or_true _).symm
    | startRequesting => exact (Bool.or_true _).symm
    | handlePacket frame => exact (timerExpired_handlePacket frame).trans (Bool.or_false _).symm

end StopGoStateMachine

/-! ### The download machine -/

/-- What happens to the machine besides `loop`. The database may become anything. -/
inductive CanEngineDBCall
  | timerCallback
  | startRequesting
  | handlePacket (frame : PacketInfo)
  | notifyEngineDBComplete
  | changeEngineDb (engineDb : EngineDownload)

namespace CanEngineDBStateMachine

variable {machine : CanEngineDBStateMachine}

/-- What a call does between the steps of `loop`. -/
def call (machine : CanEngineDBStateMachine) : CanEngineDBCall → CanEngineDBStateMachine
  | .timerCallback => { machine with toStateMachineBase := machine.timerCallback }
  | .startRequesting => machine.startRequesting
  | .handlePacket frame => machine.handlePacket frame
  | .notifyEngineDBComplete => machine.notifyEngineDBComplete
  | .changeEngineDb engineDb => { machine with engineDb := engineDb }

/-- The call latches an expiry. -/
def callLatches : CanEngineDBCall → Bool
  | .timerCallback | .startRequesting => true
  | .handlePacket _ | .notifyEngineDBComplete | .changeEngineDb _ => false

/-- The handler restarts the machine, because the protocol became known. -/
def restarts (machine : CanEngineDBStateMachine) : Bool :=
  machine.requestState = .requestingProtocol && machine.engineDb.downloadProtocol ≠ .unknown

/-- A restart latches an expiry. -/
theorem timerExpired_startRequesting (machine : CanEngineDBStateMachine) :
    machine.startRequesting.timerExpired = true := by
  rw [startRequesting]
  split <;> rfl

/-- Handling an expiry latches another one exactly when it restarts. -/
theorem timerExpired_handleTimer (machine : CanEngineDBStateMachine) :
    machine.handleTimer.timerExpired = (machine.timerExpired || machine.restarts) := by
  rw [handleTimer, restarts]
  split
  · rename_i hstate
    split
    · rename_i hknown
      rw [timerExpired_startRequesting, hstate, decide_eq_true hknown]
      exact (Bool.or_true _).symm
    · rename_i hknown
      rw [hstate, decide_eq_false hknown, Bool.and_false, Bool.or_false]
      split <;> rfl
  · rename_i hstate
    rw [hstate]
    split <;> exact (Bool.or_false _).symm
  · rename_i hstate
    rw [hstate]
    exact (Bool.or_false _).symm
  · rename_i hstate
    rw [hstate]
    exact (Bool.or_false _).symm

/-- A packet does not latch an expiry. -/
theorem timerExpired_handlePacket (frame : PacketInfo) :
    (machine.handlePacket frame).timerExpired = machine.timerExpired := by
  rw [handlePacket]
  split <;> rfl

/-- A notification does not latch an expiry. -/
theorem timerExpired_notifyEngineDBComplete :
    machine.notifyEngineDBComplete.timerExpired = machine.timerExpired := by
  rw [notifyEngineDBComplete]
  split <;> rfl

/-- `loop`, statement by statement. -/
def loopSteps : Poll CanEngineDBStateMachine CanEngineDBCall where
  flag machine := machine.timerExpired
  clear machine := { machine with timerExpired := false }
  handle := handleTimer
  step := call
  handleLatches := restarts
  stepLatches _ := callLatches
  flag_clear _ := rfl
  flag_handle := timerExpired_handleTimer
  flag_step machine event := by
    cases event with
    | timerCallback => exact (Bool.or_true _).symm
    | startRequesting =>
        exact machine.timerExpired_startRequesting.trans (Bool.or_true _).symm
    | handlePacket frame => exact (timerExpired_handlePacket frame).trans (Bool.or_false _).symm
    | notifyEngineDBComplete =>
        exact timerExpired_notifyEngineDBComplete.trans (Bool.or_false _).symm
    | changeEngineDb engineDb => exact (Bool.or_false _).symm

end CanEngineDBStateMachine

/-! ### `loop` as one step -/

/-- Without calls in between the steps are `loop`. -/
theorem stopGo_loop_eq (machine : StopGoStateMachine) :
    StopGoStateMachine.loopSteps.call machine = machine.loop :=
  Poll.call_eq machine

/-- Without calls in between the steps are `loop`. -/
theorem canEngineDB_loop_eq (machine : CanEngineDBStateMachine) :
    CanEngineDBStateMachine.loopSteps.call machine = machine.loop :=
  Poll.call_eq machine

end C6021Light
