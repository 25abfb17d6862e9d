import Mathlib.Data.List.Nodup
import C6021Light.Proofs.EngineAttributes
import C6021Light.RoutingTask.CANForwarder

/-!
# `C6021Light.Proofs.CANForwarderRun`: what the CAN forwarder sends

`CANForwarder::forwardLocoChange` sends one frame for each flagged attribute of a locomotive
and clears the flags. `LocoDiff.attributes` is the list of the flagged attributes in the order
of the source: velocity, direction, then the functions in ascending order.
-/

set_option autoImplicit false

namespace C6021Light

open BitMask

/-! ### Flagged attributes -/

/-- The flagged attributes, in the order in which they are sent. -/
def LocoDiff.attributes (diff : LocoDiff) : List EngineAttribute :=
  (if diff.velocity then [.velocity] else []) ++ (if diff.direction then [.direction] else [])
    ++ ((List.range 32).filter fun f => diff.functions.getLsbD f).map .function

/-- The attributes of a diff are those that it flags. -/
theorem LocoDiff.mem_attributes {diff : LocoDiff} {a : EngineAttribute} :
    a ∈ diff.attributes ↔ diff.flagged a = true := by
  rw [LocoDiff.attributes, List.mem_append, List.mem_append]
  cases a with
  | velocity =>
      show _ ↔ diff.velocity = true
      cases diff.velocity <;> cases diff.direction <;> simp
  | direction =>
      show _ ↔ diff.direction = true
      cases diff.velocity <;> cases diff.direction <;> simp
  | function f =>
      show _ ↔ diff.functions.getLsbD f = true
      have hrange : diff.functions.getLsbD f = true → f < 32 := BitVec.lt_of_getLsbD
      cases diff.velocity <;> cases diff.direction <;> simpa using hrange

/-- No attribute is listed twice. -/
theorem LocoDiff.attributes_nodup (diff : LocoDiff) : diff.attributes.Nodup := by
  have hfunctions :
      (((List.range 32).filter fun f => diff.functions.getLsbD f).map
        EngineAttribute.function).Nodup :=
    (List.nodup_range.filter _).map fun _ _ h => EngineAttribute.function.inj h
  rw [LocoDiff.attributes]
  cases diff.velocity <;> cases diff.direction <;> simp [hfunctions]

/-! ### Frames -/

/-- The frame that carries one attribute of a locomotive. -/
def LocomotiveData.frame (loco : LocomotiveData) : EngineAttribute → EngineFrame
  | .velocity => sendEngineVelocity loco loco.velocity
  | .direction => sendEngineDirection loco loco.direction
  | .function f => sendEngineFunction loco f (loco.getFunction f)

/-- The attribute that a frame carries. -/
def EngineFrame.attribute : EngineFrame → EngineAttribute
  | .velocity _ _ => .velocity
  | .direction _ _ => .direction
  | .function _ functionIdx _ => .function functionIdx

/-- The frame of an attribute carries that attribute. -/
@[simp] theorem LocomotiveData.frame_attribute (loco : LocomotiveData) (a : EngineAttribute) :
    (loco.frame a).attribute = a := by
  cases a <;> rfl

/-- The frame is for the engine. -/
@[simp] theorem LocomotiveData.frame_uid (loco : LocomotiveData) (a : EngineAttribute) :
    (loco.frame a).uid = loco.uid := by
  cases a <;> rfl

/-- The mask loop sends one frame for each flagged function. -/
theorem sendEngineFunctions_eq (loco : LocomotiveData) (functions : FunctionBits) :
    sendEngineFunctions loco functions
      = ((List.range 32).filter fun f => functions.getLsbD f).map fun f =>
          loco.frame (.function f) := by
  have hselect := maskLoop_select functions
    (fun f => sendEngineFunction loco f (loco.getFunction f)) 32 0 []
  rw [BitVec.shiftLeft_zero] at hselect
  rw [List.range_eq_range', sendEngineFunctions, List.range_eq_range', hselect]
  rfl

/-- One frame for each flagged attribute, and no flag is left. -/
theorem CANForwarder.forwardLocoChange_eq (loco : LocomotiveData) (diff : LocoDiff) :
    CANForwarder.forwardLocoChange loco diff = (diff.attributes.map loco.frame, {}) := by
  rw [CANForwarder.forwardLocoChange, sendEngineFunctions_eq, LocoDiff.attributes,
    List.map_append, List.map_append, List.map_map]
  cases diff.velocity <;> cases diff.direction <;> rfl

/-- Every frame carries the UID of the locomotive. -/
theorem CANForwarder.forwardLocoChange_uid (loco : LocomotiveData) (diff : LocoDiff) :
    ∀ frame ∈ (CANForwarder.forwardLocoChange loco diff).1, frame.uid = loco.uid := by
  intro frame hframe
  rw [CANForwarder.forwardLocoChange_eq] at hframe
  obtain ⟨a, _, rfl⟩ := List.mem_map.mp hframe
  exact loco.frame_uid a

end C6021Light
