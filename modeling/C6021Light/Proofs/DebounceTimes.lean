import C6021Light.Hal.StopGo
import C6021Light.Lib.WrappingClock

/-!
# `C6021Light.Proofs.DebounceTimes`: the cooldown of a button

After an accepted edge `Debounce` ignores further edges for 100 ms. The time in milliseconds has
32 bits, so it wraps around every 49.7 days, and the end of the cooldown is stored as the clock
will show it. `Lib.WrappingClock` says when the comparison of the two is right.

`expectedEdges` is what the debouncing is for, in true tick counts. Both runs go through the edges
with the last accepted one, and as long as they agree it is the same edge.
-/

set_option autoImplicit false

namespace C6021Light.Debounce

open WrappingClock

/-- An edge is due when no edge was accepted before, or the last one at least 100 ms ago. -/
def isDue (last : Option Nat) (ticks : Nat) : Bool :=
  last.all fun last => decide (4 * last + 100 ≤ 4 * ticks)

/-- The last accepted edge, when each edge that is due is accepted. -/
def lastAccepted (last : Option Nat) (ticks : Nat) : Option Nat :=
  if isDue last ticks then some ticks else last

/-- Which edges are to be accepted, by their tick counts. -/
def expectedEdges : Option Nat → List Nat → List Bool
  | _, [] => []
  | last, ticks :: rest => isDue last ticks :: expectedEdges (lastAccepted last ticks) rest

/-- At each edge the clock and the end of the last cooldown read right. -/
def CooldownsReadRight : Option Nat → List Nat → Prop
  | _, [] => True
  | last, ticks :: rest =>
      (∀ accepted ∈ last, ReadsRight (2 ^ 32) (4 * ticks) (4 * accepted + 100)) ∧
        CooldownsReadRight (lastAccepted last ticks) rest

/-- The condition on the times can be evaluated. -/
instance decidableCooldownsReadRight :
    ∀ (last : Option Nat) (times : List Nat), Decidable (CooldownsReadRight last times)
  | _, [] => inferInstanceAs (Decidable True)
  | last, ticks :: rest =>
      have := decidableCooldownsReadRight (lastAccepted last ticks) rest
      inferInstanceAs (Decidable (_ ∧ _))

/-- The clock shows the milliseconds, without what is above 32 bits. -/
theorem now_eq (ticks : Nat) : now ticks = .ofNat 32 (4 * ticks) := by
  apply BitVec.eq_of_toNat_eq
  rw [now, xTaskGetTickCount, BitVec.toNat_mul, BitVec.toNat_ofNat, BitVec.toNat_ofNat,
    show portTickPeriodMs.toNat = 4 from rfl]
  omega

/-- The stored end of a cooldown is that of the last accepted edge. -/
def KeepsLast (line : Debounce) : Option Nat → Prop
  | none => line.cooldownTimeout = 0
  | some last => line.cooldownTimeout = .ofNat 32 (4 * last + 100)

/-- An edge is accepted as expected exactly when the clock reads right. -/
theorem addEdge_eq_isDue_iff {line : Debounce} {last : Option Nat} (hlast : line.KeepsLast last)
    {ticks : Nat} (hlater : ∀ accepted ∈ last, accepted ≤ ticks) (edge : Edge) :
    (line.addEdge edge (now ticks) (now ticks)).1 = isDue last ticks ↔
      ∀ accepted ∈ last, ReadsRight (2 ^ 32) (4 * ticks) (4 * accepted + 100) := by
  rw [addEdge_accepted, isCooldownActive]
  cases last with
  | none =>
      have hzero : line.cooldownTimeout = 0 := hlast
      simp [hzero, isDue]
  | some accepted =>
      have htimeout : line.cooldownTimeout = .ofNat 32 (4 * accepted + 100) := hlast
      have hle := hlater accepted rfl
      have hcooldown : decide (now ticks < line.cooldownTimeout)
          = decide ((4 * ticks) % 2 ^ 32 < (4 * accepted + 100) % 2 ^ 32) := by
        rw [decide_eq_decide, htimeout, now_eq, BitVec.lt_def, BitVec.toNat_ofNat,
          BitVec.toNat_ofNat]
      have hreads : ((4 * ticks) % 2 ^ 32 < (4 * accepted + 100) % 2 ^ 32 ↔
          4 * ticks < 4 * accepted + 100) ↔
            ReadsRight (2 ^ 32) (4 * ticks) (4 * accepted + 100) :=
        readsRight_iff (by decide) (by omega)
      simp only [Option.mem_some_iff, forall_eq']
      rw [← hreads, hcooldown, isDue, Option.all_some, ← decide_not, decide_eq_decide, Nat.not_lt]
      omega

/-- An edge that is accepted as expected becomes the last one. -/
theorem keepsLast_addEdge {line : Debounce} {last : Option Nat} (hlast : line.KeepsLast last)
    {ticks : Nat} {edge : Edge}
    (h : (line.addEdge edge (now ticks) (now ticks)).1 = isDue last ticks) :
    (line.addEdge edge (now ticks) (now ticks)).2.KeepsLast (lastAccepted last ticks) := by
  rw [lastAccepted, ← h, addEdge]
  split
  · show now ticks + kCooldownDurationMs = .ofNat 32 (4 * ticks + 100)
    rw [now_eq, BitVec.ofNat_add]
    rfl
  · exact hlast

/-- From an object that keeps the last accepted edge on. -/
theorem addEdges_eq_iff (edges : List (Edge × Nat)) :
    ∀ (line : Debounce) (last : Option Nat), line.KeepsLast last →
      (edges.map Prod.snd).Pairwise (· ≤ ·) →
      (∀ accepted ∈ last, ∀ ticks ∈ edges.map Prod.snd, accepted ≤ ticks) →
      (line.addEdges edges = expectedEdges last (edges.map Prod.snd) ↔
        CooldownsReadRight last (edges.map Prod.snd)) := by
  induction edges with
  | nil => intro _ _ _ _ _; exact iff_of_true rfl trivial
  | cons head edges ih =>
      obtain ⟨edge, ticks⟩ := head
      intro line last hlast hsorted hlater
      rw [List.map_cons] at hsorted hlater ⊢
      obtain ⟨hfirst, hrest⟩ := List.pairwise_cons.mp hsorted
      have hedge := addEdge_eq_isDue_iff hlast
        (fun accepted h => hlater accepted h ticks List.mem_cons_self) edge
      rw [addEdges, expectedEdges, CooldownsReadRight, List.cons.injEq, ← hedge]
      refine and_congr_right fun hagree => ?_
      refine ih _ _ (keepsLast_addEdge hlast hagree) hrest fun accepted haccepted t ht => ?_
      rw [lastAccepted] at haccepted
      split at haccepted
      · cases haccepted
        exact hfirst t ht
      · exact hlater accepted haccepted t (List.mem_cons_of_mem _ ht)

/-- From a zeroed object, edges in the order of time are accepted as expected exactly when the
clock reads right at each of them. -/
theorem debounce_iff {edges : List (Edge × Nat)}
    (hsorted : (edges.map Prod.snd).Pairwise (· ≤ ·)) :
    ({} : Debounce).addEdges edges = expectedEdges none (edges.map Prod.snd) ↔
      CooldownsReadRight none (edges.map Prod.snd) :=
  addEdges_eq_iff edges {} none rfl hsorted fun _ h => absurd h (Option.not_mem_none _)

/-- A bounce 40 ms after an edge, and an edge after 100 ms. -/
theorem debounce_iff_bounce :
    ({} : Debounce).addEdges [(.rising, 10), (.rising, 20), (.rising, 35)]
      = expectedEdges none [10, 20, 35] :=
  (@debounce_iff [(.rising, 10), (.rising, 20), (.rising, 35)] (by decide)).mpr (by decide)

/-- The cooldown of the first edge ends 4 ms before the wrap-around. An edge right behind it comes
104 ms after the first one, and is ignored. -/
theorem debounce_ignores_edge :
    ({} : Debounce).addEdges [(.rising, 1073741798), (.rising, 1073741824)] = [true, false] ∧
      expectedEdges none [1073741798, 1073741824] = [true, true] := by
  decide

end C6021Light.Debounce
