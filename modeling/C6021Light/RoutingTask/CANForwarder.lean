import C6021Light.RoutingTask.LocoNetSlotServer

/-!
# `C6021Light.RoutingTask.CANForwarder`: engine changes to CAN

`CANForwarder::forwardLocoChange` (`CANForwarder.cpp`). It sends one frame for each flagged
attribute and clears the flags. Its loop over the function bits moves a mask through the
whole width of the function word.
-/

set_option autoImplicit false

namespace C6021Light

open BitMask

/-- The loop over the function bits: the frames so far, with one more for each set bit. -/
def sendEngineFunctions (loco : LocomotiveData) (functions : FunctionBits) :
    List EngineFrame :=
  maskLoop
    (fun frames functionIdx maskBit =>
      if maskBit &&& functions ≠ 0#32 then
        frames ++ [sendEngineFunction loco functionIdx (loco.getFunction functionIdx)]
      else frames)
    -- The source counts up to the number of bits of the mask.
    (List.range 32) 1#32 []

/-- `CANForwarder::forwardLocoChange`: the frames sent, and `diff` afterwards. -/
def CANForwarder.forwardLocoChange (loco : LocomotiveData) (diff : LocoDiff) :
    List EngineFrame × LocoDiff :=
  let velocityFrames := if diff.velocity then [sendEngineVelocity loco loco.velocity] else []
  let directionFrames :=
    if diff.direction then [sendEngineDirection loco loco.direction] else []
  (velocityFrames ++ directionFrames ++ sendEngineFunctions loco diff.functions,
    { velocity := false, direction := false, functions := 0 })

end C6021Light
