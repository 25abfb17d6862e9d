import C6021Light.Lib.DirtyFlags
import C6021Light.Proofs.SlotServerRun

/-!
# `C6021Light.Proofs.EngineAttributes`: attributes and their change flags

The two buses exchange three kinds of attributes of an engine: its velocity, its direction
and each of its functions. `EngineState` holds their values, and a `LocoDiff` has a flag for
each of them.

The control messages keep the flags honest: they lower none (`control_flagged`), and an
attribute without a flag has not changed (`control_sameOn`).
-/

set_option autoImplicit false

namespace C6021Light

open BitMask

/-! ### Attributes -/

/-- What a diff can flag. -/
inductive EngineAttribute
  | velocity
  | direction
  | function (functionIdx : Nat)
deriving DecidableEq, Repr

/-- The values of all attributes. -/
structure EngineState where
  velocity : Velocity
  direction : EngineDirection
  functions : FunctionBits
deriving DecidableEq, Repr

/-- What of a locomotive changes while it runs. -/
def LocomotiveData.state (loco : LocomotiveData) : EngineState where
  velocity := loco.velocity
  direction := loco.direction
  functions := loco.functions

/-- Two states have the same value of one attribute. -/
def EngineState.SameOn (a : EngineAttribute) (p r : EngineState) : Prop :=
  match a with
  | .velocity => p.velocity = r.velocity
  | .direction => p.direction = r.direction
  | .function f => p.functions.getLsbD f = r.functions.getLsbD f

/-- A state agrees with itself. -/
theorem EngineState.SameOn.refl (a : EngineAttribute) (p : EngineState) : p.SameOn a p := by
  cases a <;> rfl

/-- Agreement is transitive. -/
theorem EngineState.SameOn.trans {a : EngineAttribute} {p q r : EngineState}
    (h₁ : p.SameOn a q) (h₂ : q.SameOn a r) : p.SameOn a r := by
  cases a with
  | velocity => exact Eq.trans (b := q.velocity) h₁ h₂
  | direction => exact Eq.trans (b := q.direction) h₁ h₂
  | function f => exact Eq.trans (b := q.functions.getLsbD f) h₁ h₂

/-- States with the same attributes are equal. -/
theorem EngineState.eq_of_sameOn {p r : EngineState}
    (h : ∀ a, p.SameOn a r) : p = r := by
  have hvelocity : p.velocity = r.velocity := h .velocity
  have hdirection : p.direction = r.direction := h .direction
  have hfunctions : p.functions = r.functions :=
    BitVec.eq_of_getLsbD_eq fun f _ => h (.function f)
  cases p
  cases r
  simp only at hvelocity hdirection hfunctions
  rw [hvelocity, hdirection, hfunctions]

/-! ### Flags -/

/-- The flag of an attribute. -/
def LocoDiff.flagged (diff : LocoDiff) : EngineAttribute → Bool
  | .velocity => diff.velocity
  | .direction => diff.direction
  | .function f => diff.functions.getLsbD f

/-- An empty diff flags nothing. -/
@[simp] theorem LocoDiff.flagged_empty (a : EngineAttribute) :
    LocoDiff.flagged {} a = false := by
  cases a with
  | velocity => rfl
  | direction => rfl
  | function f => exact BitVec.getLsbD_zero

/-! ### Control messages -/

/-- The function flags gain exactly the functions that change. -/
theorem SlotEntry.control_diff_functions (m : LnMsg) (entry : SlotEntry) :
    (entry.control m).diff.functions
      = entry.diff.functions ||| ((entry.control m).loco.functions ^^^ entry.loco.functions) := by
  -- For messages that write no functions.
  have hsame : entry.diff.functions
      = entry.diff.functions ||| (entry.loco.functions ^^^ entry.loco.functions) := by
    rw [BitVec.xor_self, BitVec.or_zero]
  cases m with
  | locoDirf ldf => rw [SlotEntry.control, SlotEntry.locoDirF_eq]; rfl
  | locoSnd ls => rw [SlotEntry.control, SlotEntry.locoSnd_eq]; rfl
  | locoSnd2 ls => rw [SlotEntry.control, SlotEntry.locoSnd2_eq]; rfl
  | locoFunext msdi =>
      rw [SlotEntry.control, SlotEntry.locoFunExt_eq]
      split
      · rfl
      · exact hsame
  | _ => exact hsame

/-- The direction flag is raised when the direction changes. -/
theorem SlotEntry.control_diff_direction (m : LnMsg) (entry : SlotEntry) :
    (entry.control m).diff.direction
      = (entry.diff.direction
          || decide ((entry.control m).loco.direction ≠ entry.loco.direction)) := by
  have hsame : entry.diff.direction
      = (entry.diff.direction || decide (entry.loco.direction ≠ entry.loco.direction)) := by
    simp
  cases m with
  | locoDirf ldf => rw [SlotEntry.control, SlotEntry.locoDirF_eq]; rfl
  | locoSnd ls => rw [SlotEntry.control, SlotEntry.locoSnd_eq]; exact hsame
  | locoSnd2 ls => rw [SlotEntry.control, SlotEntry.locoSnd2_eq]; exact hsame
  | locoFunext msdi =>
      rw [SlotEntry.control, SlotEntry.locoFunExt_eq]
      split
      · exact hsame
      · exact hsame
  | _ => exact hsame

/-- A speed message flags the velocity, changed or not. Other messages leave it alone. -/
theorem SlotEntry.control_diff_velocity (m : LnMsg) (entry : SlotEntry) :
    (entry.control m).diff.velocity = true ∨
      ((entry.control m).diff.velocity = entry.diff.velocity ∧
        (entry.control m).loco.velocity = entry.loco.velocity) := by
  cases m with
  | locoSpd lsp => exact .inl rfl
  | locoDirf ldf => rw [SlotEntry.control, SlotEntry.locoDirF_eq]; exact .inr ⟨rfl, rfl⟩
  | locoSnd ls => rw [SlotEntry.control, SlotEntry.locoSnd_eq]; exact .inr ⟨rfl, rfl⟩
  | locoSnd2 ls => rw [SlotEntry.control, SlotEntry.locoSnd2_eq]; exact .inr ⟨rfl, rfl⟩
  | locoFunext msdi =>
      rw [SlotEntry.control, SlotEntry.locoFunExt_eq]
      split <;> exact .inr ⟨rfl, rfl⟩
  | _ => exact .inr ⟨rfl, rfl⟩

/-- A control message lowers no flag. -/
theorem SlotEntry.control_flagged (m : LnMsg) {entry : SlotEntry} {a : EngineAttribute}
    (h : entry.diff.flagged a = true) : (entry.control m).diff.flagged a = true := by
  cases a with
  | velocity =>
      rcases SlotEntry.control_diff_velocity m entry with hraised | ⟨hkept, _⟩
      · exact hraised
      · exact hkept.trans h
  | direction =>
      have hd : entry.diff.direction = true := h
      show (entry.control m).diff.direction = true
      rw [SlotEntry.control_diff_direction, hd, Bool.true_or]
  | function f =>
      have hf : entry.diff.functions.getLsbD f = true := h
      show (entry.control m).diff.functions.getLsbD f = true
      rw [SlotEntry.control_diff_functions, BitVec.getLsbD_or, hf, Bool.true_or]

/-- A control message flags what it changes. -/
theorem SlotEntry.control_sameOn (m : LnMsg) {entry : SlotEntry} {a : EngineAttribute}
    (h : (entry.control m).diff.flagged a = false) :
    (entry.control m).loco.state.SameOn a entry.loco.state := by
  cases a with
  | velocity =>
      rcases SlotEntry.control_diff_velocity m entry with hraised | ⟨_, hkept⟩
      · rw [show (entry.control m).diff.flagged .velocity = true from hraised] at h
        cases h
      · exact hkept
  | direction =>
      have hd : (entry.control m).diff.direction = false := h
      rw [SlotEntry.control_diff_direction, Bool.or_eq_false_iff, decide_eq_false_iff_not] at hd
      show (entry.control m).loco.direction = entry.loco.direction
      exact Decidable.not_not.mp hd.2
  | function f =>
      have hf : (entry.control m).diff.functions.getLsbD f = false := h
      rw [SlotEntry.control_diff_functions, BitVec.getLsbD_or, BitVec.getLsbD_xor,
        Bool.or_eq_false_iff] at hf
      exact bne_eq_false_iff_eq.mp hf.2

/-- A function flag is raised by a message that changes the function. -/
theorem SlotEntry.control_raises_function {m : LnMsg} {entry : SlotEntry} {f : Nat}
    (hbefore : entry.diff.flagged (.function f) = false)
    (hafter : (entry.control m).diff.flagged (.function f) = true) :
    (entry.control m).loco.getFunction f ≠ entry.loco.getFunction f := by
  have hdown : entry.diff.functions.getLsbD f = false := hbefore
  have hup : (entry.control m).diff.functions.getLsbD f = true := hafter
  rw [SlotEntry.control_diff_functions, BitVec.getLsbD_or, BitVec.getLsbD_xor, hdown,
    Bool.false_or] at hup
  exact bne_iff_ne.mp hup

end C6021Light
