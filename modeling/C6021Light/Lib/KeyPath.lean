import Mathlib.Data.List.Basic
import Mathlib.Data.List.TakeDrop

/-!
# `C6021Light.Lib.KeyPath`: a walk through tables by keys

A table maps keys to nodes, and a node may have a table below it. A list of keys walks from table
to table. `path` is the nodes that the walk finds before it stops: at a key without a node, at a
node without a table, or at the end of the keys. `reached` is the table that the walk ends in when
it finds a node for every key.

The keys of the path are the longest beginning of the list that the walk can follow:
`reached_take_length` and `reached_take_of_lt` say where that beginning leads, and that no longer
one leads anywhere.

`keepDeepest` is a loop over a path that keeps the last node that it accepts.
-/

set_option autoImplicit false

namespace KeyPath

variable {τ κ ν : Type}

/-- The node that a table has for a key, and the table below a node. -/
structure Tables (τ κ ν : Type) where
  find : τ → κ → Option ν
  below : ν → Option τ

namespace Tables

variable (tables : Tables τ κ ν)

/-- The nodes of the walk. -/
def path : Option τ → List κ → List ν
  | some table, key :: keys =>
      match tables.find table key with
      | some node => node :: path (tables.below node) keys
      | none => []
  | _, _ => []

/-- The table behind all keys. -/
def reached : Option τ → List κ → Option τ
  | table, [] => table
  | some table, key :: keys =>
      (tables.find table key).bind fun node => reached (tables.below node) keys
  | none, _ :: _ => none

/-- The table below the last node of a path that starts at a table. -/
def belowLast (start : Option τ) (nodes : List ν) : Option τ :=
  match nodes.getLast? with
  | some node => tables.below node
  | none => start

variable {tables}

/-- Without a key there is no node. -/
theorem path_nil (start : Option τ) : tables.path start [] = [] := by
  cases start <;> rfl

/-- Without a table there is no node. -/
theorem path_of_none (keys : List κ) : tables.path none keys = [] := by
  cases keys <;> rfl

/-- There is at most one node for each key. -/
theorem length_path_le (keys : List κ) :
    ∀ start : Option τ, (tables.path start keys).length ≤ keys.length := by
  induction keys with
  | nil => intro start; rw [path_nil]; exact Nat.le_refl _
  | cons key keys ih =>
      intro start
      cases start with
      | none => exact Nat.zero_le _
      | some table =>
          rw [path]
          split
          · exact Nat.succ_le_succ (ih _)
          · exact Nat.zero_le _

/-- The first node leads to the table below it. -/
theorem belowLast_cons (start : Option τ) (node : ν) (nodes : List ν) :
    tables.belowLast start (node :: nodes) = tables.belowLast (tables.below node) nodes := by
  rw [belowLast, belowLast, List.getLast?_cons]
  cases nodes.getLast? <;> rfl

/-- The keys of the path lead to the table below its last node. -/
theorem reached_take_length (keys : List κ) :
    ∀ start : Option τ, tables.reached start (keys.take (tables.path start keys).length)
      = tables.belowLast start (tables.path start keys) := by
  induction keys with
  | nil => intro start; rw [path_nil]; rfl
  | cons key keys ih =>
      intro start
      cases start with
      | none => rfl
      | some table =>
          rw [path]
          split
          · rename_i node hnode
            rw [List.length_cons, List.take_succ_cons, reached, hnode, Option.bind_some, ih,
              belowLast_cons]
          · rfl

/-- Behind keys that are all followed, the walk goes on in the table that they lead to. -/
theorem path_append (keys more : List κ) :
    ∀ start : Option τ, (tables.path start keys).length = keys.length →
      tables.path start (keys ++ more)
        = tables.path start keys
          ++ tables.path (tables.belowLast start (tables.path start keys)) more := by
  induction keys with
  | nil =>
      intro start _
      rw [path_nil]
      rfl
  | cons key keys ih =>
      intro start hlen
      cases start with
      | none => cases hlen
      | some table =>
          rw [path] at hlen ⊢
          rw [List.cons_append, path]
          cases hnode : tables.find table key with
          | none => rw [hnode] at hlen; cases hlen
          | some node =>
              rw [hnode] at hlen
              rw [belowLast_cons]
              exact congrArg (node :: ·) (ih _ (Nat.succ.inj hlen))

/-- More keys than those of the path lead nowhere. -/
theorem reached_take_of_lt (keys : List κ) :
    ∀ (start : Option τ) (n : Nat), (tables.path start keys).length < n → n ≤ keys.length →
      tables.reached start (keys.take n) = none := by
  induction keys with
  | nil => intro start n hlt hle; exact absurd hle (Nat.not_le.mpr (Nat.zero_lt_of_lt hlt))
  | cons key keys ih =>
      intro start n hlt hle
      obtain ⟨n, rfl⟩ := Nat.exists_eq_succ_of_ne_zero (Nat.ne_zero_of_lt hlt)
      rw [List.take_succ_cons]
      cases start with
      | none => rfl
      | some table =>
          rw [path] at hlt
          rw [reached]
          cases hnode : tables.find table key with
          | none => rfl
          | some node =>
              rw [hnode] at hlt
              exact ih _ n (Nat.lt_of_succ_lt_succ hlt) (Nat.le_of_succ_le_succ hle)

end Tables

/-! ### The deepest node with a property -/

section

variable {ρ : Type} (accepts : ν → Bool) (keep : ν → Nat → ρ)

/-- A loop over the nodes and their depths that keeps the last node it accepts. -/
def keepDeepest (nodes : List ν) (depth : Nat) (result : ρ) : ρ :=
  (nodes.zipIdx depth).foldl
    (fun result node => if accepts node.1 then keep node.1 node.2 else result) result

variable {accepts} {keep}

/-- When no node is accepted, the loop keeps what it had. -/
theorem keepDeepest_of_none {nodes : List ν} (hnone : ∀ node ∈ nodes, accepts node = false) :
    ∀ (depth : Nat) (result : ρ), keepDeepest accepts keep nodes depth result = result := by
  induction nodes with
  | nil => intro depth result; rfl
  | cons node nodes ih =>
      intro depth result
      have hnode : ¬ accepts node = true := by
        rw [hnone node List.mem_cons_self]
        exact Bool.false_ne_true
      rw [keepDeepest, List.zipIdx_cons, List.foldl_cons, if_neg hnode]
      exact ih (fun other hother => hnone other (List.mem_cons_of_mem _ hother)) _ _

/-- The loop ends with the deepest node that is accepted, and its depth. -/
theorem keepDeepest_of_deepest {front rest : List ν} {node : ν} (hnode : accepts node = true)
    (hrest : ∀ deeper ∈ rest, accepts deeper = false) (depth : Nat) (result : ρ) :
    keepDeepest accepts keep (front ++ node :: rest) depth result
      = keep node (depth + front.length) := by
  rw [keepDeepest, List.zipIdx_append, List.foldl_append, List.zipIdx_cons, List.foldl_cons,
    if_pos hnode]
  exact keepDeepest_of_none hrest _ _

/-- Either no node is accepted, or one is the deepest of those that are. -/
theorem none_or_exists_deepest (accepts : ν → Bool) (nodes : List ν) :
    (∀ node ∈ nodes, accepts node = false) ∨
      ∃ front node rest, nodes = front ++ node :: rest ∧ accepts node = true ∧
        ∀ deeper ∈ rest, accepts deeper = false := by
  induction nodes with
  | nil => exact .inl fun _ h => absurd h List.not_mem_nil
  | cons first nodes ih =>
      rcases ih with hnone | ⟨front, node, rest, rfl, hnode, hrest⟩
      · cases hfirst : accepts first with
        | false => exact .inl (List.forall_mem_cons.mpr ⟨hfirst, hnone⟩)
        | true => exact .inr ⟨[], first, nodes, rfl, hfirst, hnone⟩
      · exact .inr ⟨first :: front, node, rest, rfl, hnode, hrest⟩

end

end KeyPath
