import C6021Light.RoutingTask.RoutingTask
import C6021Light.RoutingTask.StateMachines

/-!
# `C6021Light.RoutingTask.FullTask`: the routing task with its state machines

`FullTask` has the members of `RoutingTask` in one record: the slot server, the engine
database with its download, and the two state machines. `FullTask.task` is the part that
`C6021Light.RoutingTask.RoutingTask` is about.

`idleLoop` is a call of `loop` that finds nothing to receive: no CAN frame, no I2C or LocoNet
message and no Stop/Go request.
-/

set_option autoImplicit false

namespace C6021Light

open FaultRun

/-- The entries of the engine database. -/
def StateMachines.entries (machines : StateMachines) : CanEngineDB :=
  machines.canEngineDBStateM.engineDb.toCanEngineDB

/-- The machines with other entries in the engine database. -/
def StateMachines.withEntries (machines : StateMachines) (entries : CanEngineDB) :
    StateMachines :=
  { machines with
    canEngineDBStateM := { machines.canEngineDBStateM with
      engineDb := { machines.canEngineDBStateM.engineDb with toCanEngineDB := entries } } }

/-- The routing task with its state machines. -/
structure FullTask where
  slotServer : LocoNetSlotServer
  machines : StateMachines
  canTx : List SlotFrame := []

/-- A program of the whole task. -/
abbrev FullTaskRun := StateT FullTask (Except Fault)

namespace FullTask

/-- The task without its state machines. -/
def task (full : FullTask) : RoutingTask where
  slotServer := full.slotServer
  engineDb := full.machines.entries
  canTx := full.canTx

/-- The whole task, when its part without the state machines has become `task`. -/
def withTask (full : FullTask) (task : RoutingTask) : FullTask where
  slotServer := task.slotServer
  machines := full.machines.withEntries task.engineDb
  canTx := task.canTx

/-- A part of the loop that does not use the state machines. -/
def onTask (program : RoutingTaskRun Unit) : FullTaskRun Unit := do
  let full ← get
  let (_, task) ← program.run full.task
  set (full.withTask task)

/-- `loop` without anything to receive. -/
def idleLoop [AddressScheme] : FullTaskRun Unit := do
  -- `processI2CStopGo` has no request.
  onTask (processCAN [])
  -- `processI2CMessages` has no message.
  onTask (processLocoNet [])
  modify fun full => { full with machines := full.machines.processStateMachines }
  onTask matchEnginesFromLocoNetAndCan

/-- What `RoutingTask.loop` receives then. -/
def idleInput (machines : StateMachines) : LoopInput where
  stopGo := []
  can := []
  i2c := []
  loconet := []
  stateMachines := fun entries => (machines.withEntries entries).processStateMachines.entries

/-- A part that returns is put back into the whole task. -/
theorem onTask_run_of_ok {program : RoutingTaskRun Unit} {full : FullTask} {task : RoutingTask}
    (h : program.run full.task = .ok ((), task)) :
    (onTask program).run full = .ok ((), full.withTask task) := by
  rw [onTask, run_get_bind, run_bind_of_ok (run_liftM_eq_ok.mpr ⟨h, rfl⟩)]
  rfl

/-- A part that fails is a fault of the whole task. -/
theorem onTask_run_of_error {program : RoutingTaskRun Unit} {full : FullTask} {fault : Fault}
    (h : program.run full.task = .error fault) :
    (onTask program).run full = .error fault := by
  rw [onTask, run_get_bind, run_bind_of_error (run_liftM_of_error h full)]

/-- The task in front of `matchEnginesFromLocoNetAndCan`, when the engine updates have left
`task`. -/
def afterMachines (machines : StateMachines) (task : RoutingTask) : RoutingTask :=
  { task with engineDb := (machines.withEntries task.engineDb).processStateMachines.entries }

/-- The two parts of an idle loop. -/
theorem idleLoop_run [AddressScheme] {full : FullTask} {task task' : RoutingTask}
    (hforward : forwardEngineUpdates.run full.task = .ok ((), task))
    (hmatch : matchEnginesFromLocoNetAndCan.run (afterMachines full.machines task)
      = .ok ((), task')) :
    idleLoop.run full = .ok ((), { full.withTask task with
      machines := (full.machines.withEntries task.engineDb).processStateMachines }.withTask
        task') := by
  have hcan : (processCAN []).run full.task = .ok ((), task) := hforward
  rw [idleLoop, run_bind_of_ok (onTask_run_of_ok hcan)]
  exact onTask_run_of_ok hmatch

/-- An idle loop is `RoutingTask.loop`. -/
theorem idleLoop_eq_loop [AddressScheme] (full : FullTask) :
    (idleLoop.run full).map (fun r => r.2.task)
      = ((RoutingTask.loop (idleInput full.machines)).run full.task).map fun r => r.2 := by
  cases hforward : forwardEngineUpdates.run full.task with
  | error fault =>
      have hcan : (processCAN []).run full.task = .error fault := hforward
      rw [idleLoop, run_bind_of_error (onTask_run_of_error hcan)]
      show _ = ((processCAN [] >>= fun _ => _).run full.task).map _
      rw [run_bind_of_error hcan]
      rfl
  | ok r =>
      obtain ⟨⟨⟩, task⟩ := r
      have hcan : (processCAN []).run full.task = .ok ((), task) := hforward
      show _ = ((processCAN [] >>= fun _ => _).run full.task).map _
      rw [run_bind_of_ok hcan]
      show _ = (matchEnginesFromLocoNetAndCan.run (afterMachines full.machines task)).map _
      cases hmatch : matchEnginesFromLocoNetAndCan.run (afterMachines full.machines task) with
      | error fault =>
          rw [idleLoop, run_bind_of_ok (onTask_run_of_ok hcan)]
          exact congrArg (Except.map _) (onTask_run_of_error hmatch)
      | ok r =>
          rw [idleLoop_run hforward hmatch]
          rfl

end FullTask

end C6021Light
