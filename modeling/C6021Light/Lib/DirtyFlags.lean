import Mathlib.Data.List.Basic

/-!
# `C6021Light.Lib.DirtyFlags`: replication by change flags

A primary and a replica hold the same attributes. A change of the primary raises a flag for
each attribute it changes. A flush sends messages that carry the flagged attributes and then
lowers the flags. This library states when the replica agrees with the primary again.

`agree a p r` compares primary `p` with replica `r` on attribute `a`. It is any relation, so
the replica may store an encoded or rounded value, and attributes that do not reach the
replica at all agree trivially.

* `SyncedOff` is the invariant: every attribute without a flag agrees. The flags may name
  too many attributes, never too few.
* `FlaggedChange` is the obligation on a change, and `SyncedOff.run` carries the invariant
  through any sequence of changes.
* `Carrier` is the obligation on a message, and `SyncedOff.flush` says that messages which
  carry every flagged attribute make everything agree.
* `exists_raising_step` finds the change that raised a flag.
-/

set_option autoImplicit false

namespace DirtyFlags

variable {A P R M C S : Type}

/-- Every attribute without a flag agrees. -/
def SyncedOff (agree : A → P → R → Prop) (dirty : A → Prop) (p : P) (r : R) : Prop :=
  ∀ a, ¬ dirty a → agree a p r

/-- A change from `p` to `p'` that lowers no flag and flags every attribute it changes. -/
structure FlaggedChange (agree : A → P → R → Prop) (p : P) (dirty : A → Prop) (p' : P)
    (dirty' : A → Prop) : Prop where
  keeps_flags : ∀ a, dirty a → dirty' a
  flags_changes : ∀ a r, ¬ dirty' a → agree a p r → agree a p' r

/-- A flagged change keeps the rest in agreement. -/
theorem SyncedOff.change {agree : A → P → R → Prop} {p p' : P} {dirty dirty' : A → Prop}
    {r : R} (h : SyncedOff agree dirty p r) (hchange : FlaggedChange agree p dirty p' dirty') :
    SyncedOff agree dirty' p' r := by
  intro a ha
  have hclean : ¬ dirty a := fun hd => ha (hchange.keeps_flags a hd)
  exact hchange.flags_changes a r ha (h a hclean)

/-- A change that flags what it changes keeps every comparison that reads single attributes of
the primary. `same` compares two primaries. -/
theorem FlaggedChange.transfer {same : A → P → P → Prop} {agree : A → P → R → Prop}
    {p p' : P} {dirty dirty' : A → Prop} (hrefl : ∀ a p, same a p p)
    (hreads : ∀ a p p' r, same a p' p → agree a p r → agree a p' r)
    (h : FlaggedChange same p dirty p' dirty') : FlaggedChange agree p dirty p' dirty' where
  keeps_flags := h.keeps_flags
  flags_changes := fun a r hclean hagree =>
    hreads a p p' r (h.flags_changes a p hclean (hrefl a p)) hagree

/-- The invariant survives any sequence of changes. `value` and `flags` read the primary and
its flags from the state `s` that the changes act on. -/
theorem SyncedOff.run {agree : A → P → R → Prop} {value : S → P} {flags : S → A → Prop}
    {step : C → S → S}
    (hstep : ∀ c s, FlaggedChange agree (value s) (flags s) (value (step c s))
      (flags (step c s))) :
    ∀ (cs : List C) (s : S) (r : R), SyncedOff agree (flags s) (value s) r →
      SyncedOff agree (flags (cs.foldl (fun s c => step c s) s))
        (value (cs.foldl (fun s c => step c s) s)) r := by
  intro cs
  induction cs with
  | nil => intro s r h; exact h
  | cons c cs ih =>
      intro s r h
      exact ih (step c s) r (h.change (hstep c s))

/-- A flag that is up after a sequence of changes, and was down before it, was raised by one
of them. -/
theorem exists_raising_step (flag : S → Prop) (step : C → S → S) :
    ∀ (cs : List C) (s : S), ¬ flag s → flag (cs.foldl (fun s c => step c s) s) →
      ∃ before c after, cs = before ++ c :: after ∧
        ¬ flag (before.foldl (fun s c => step c s) s) ∧
        flag (step c (before.foldl (fun s c => step c s) s)) := by
  intro cs
  induction cs with
  | nil => intro s hdown hup; exact absurd hup hdown
  | cons c cs ih =>
      intro s hdown hup
      by_cases hc : flag (step c s)
      -- The first change raises the flag, or the flag is still down in front of the rest.
      · exact ⟨[], c, cs, rfl, hdown, hc⟩
      · obtain ⟨before, c', after, hcs, hbefore, hafter⟩ := ih (step c s) hc hup
        exact ⟨c :: before, c', after, by rw [hcs]; rfl, hbefore, hafter⟩

/-- A message built from primary `p`: applying it makes the attributes it carries agree, and
breaks no other. -/
structure Carrier (agree : A → P → R → Prop) (apply : M → R → R) (p : P)
    (carries : M → A → Prop) (m : M) : Prop where
  updates : ∀ a r, carries m a → agree a p (apply m r)
  keeps : ∀ a r, agree a p r → agree a p (apply m r)

variable {agree : A → P → R → Prop} {apply : M → R → R} {p : P} {carries : M → A → Prop}

/-- A sequence of messages breaks no agreement. -/
theorem Carrier.foldl_keeps {a : A} :
    ∀ (ms : List M) (r : R), (∀ m ∈ ms, Carrier agree apply p carries m) → agree a p r →
      agree a p (ms.foldl (fun r m => apply m r) r) := by
  intro ms
  induction ms with
  | nil => intro r _ h; exact h
  | cons m ms ih =>
      intro r hms h
      refine ih (apply m r) (fun m' hm' => hms m' (List.mem_cons_of_mem m hm')) ?_
      exact (hms m List.mem_cons_self).keeps a r h

/-- An attribute that one message of the sequence carries agrees afterwards. -/
theorem Carrier.foldl_updates {a : A} :
    ∀ (ms : List M) (r : R), (∀ m ∈ ms, Carrier agree apply p carries m) →
      (∃ m ∈ ms, carries m a) → agree a p (ms.foldl (fun r m => apply m r) r) := by
  intro ms
  induction ms with
  | nil => intro r _ h; obtain ⟨m, hm, _⟩ := h; cases hm
  | cons m ms ih =>
      intro r hms h
      have hrest : ∀ m' ∈ ms, Carrier agree apply p carries m' :=
        fun m' hm' => hms m' (List.mem_cons_of_mem m hm')
      obtain ⟨m', hm', ha⟩ := h
      rcases List.mem_cons.mp hm' with rfl | hm'
      -- The first message carries it, and the later ones keep it.
      · exact Carrier.foldl_keeps ms _ hrest ((hms _ List.mem_cons_self).updates a r ha)
      · exact ih (apply m r) hrest ⟨m', hm', ha⟩

/-- A flush whose messages carry every flagged attribute makes every attribute agree. -/
theorem SyncedOff.flush {dirty : A → Prop} {r : R} {ms : List M}
    (h : SyncedOff agree dirty p r) (hms : ∀ m ∈ ms, Carrier agree apply p carries m)
    (hall : ∀ a, dirty a → ∃ m ∈ ms, carries m a) (a : A) :
    agree a p (ms.foldl (fun r m => apply m r) r) := by
  -- A flagged attribute is carried by a message, any other agrees already.
  by_cases ha : dirty a
  · exact Carrier.foldl_updates ms r hms (hall a ha)
  · exact Carrier.foldl_keeps ms r hms (h a ha)

end DirtyFlags
