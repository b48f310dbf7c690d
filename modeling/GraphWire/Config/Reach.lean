import GraphWire.Config.Basic
import GraphWire.Config.Text

/-!
# `GraphWire.Config.Reach` — everything that an object leads to

From an object one comes to the objects that its fields name, the field `type` excepted. The search
goes depth first, fields in order and list items in order, and meets every object once, so it ends
on cyclic graphs too.

## Contents
- **Unseen keys.** `unseen` counts the keys that are still to be met.
- **`Config.reach`**, the names of the objects met, in order.
- **What is made of them.** `Config.walk`, all their assignments, `Config.extract`, a copy, and
  `Config.marshal`, the text of the assignments.
-/

namespace GraphWire

/-! ## Unseen keys -/

/-- How many of the keys have not been seen. -/
def unseen {α : Type} [DecidableEq α] (keys seen : List α) : Nat :=
  (keys.filter fun k => decide (k ∉ seen)).length

theorem unseen_cons_lt {α : Type} [DecidableEq α] {keys seen : List α} {k : α} (hk : k ∈ keys)
    (hs : k ∉ seen) : unseen keys (k :: seen) < unseen keys seen := by
  have split : (keys.filter fun x => decide (x ∉ k :: seen))
      = (keys.filter fun x => decide (x ∉ seen)).filter fun x => decide (x ≠ k) := by
    simp [List.filter_filter, Bool.decide_and]
  rw [unseen, split, unseen, List.length_filter_lt_length_iff_exists]
  exact ⟨k, by simp [hk, hs], by simp⟩

theorem mem_keys_of_get? {α : Type u} {m : SortedMap α} {key : String} {value : α}
    (h : m.get? key = some value) : key ∈ m.keys := by
  refine Decidable.byContradiction fun hn => ?_
  have := Entry.find?_eq_none_iff.2 hn
  rw [SortedMap.get?, this] at h
  cases h

namespace Config

/-! ## The search -/

/-- The names that a field leads to. -/
def fieldTargets (field : String) (value : Value) : List String :=
  if field = typeField then []
  else
    match value with
    | .text s => [s]
    | .texts names => names
    | _ => []

/-- The names that an object's fields lead to, in order. -/
def targets (object : Object) : List String :=
  object.entries.flatMap fun (field, value) => fieldTargets field value

/-- The search from the names on the stack, with those already met last one first. -/
def reachFrom (config : Config) (met stack : List String) : List String :=
  match stack with
  | [] => met.reverse
  | name :: rest =>
    match _h : config.get? name with
    | none => reachFrom config met rest
    | some object =>
      if name ∈ met then reachFrom config met rest
      else reachFrom config (name :: met) (targets object ++ rest)
  termination_by (unseen config.keys met, stack.length)
  decreasing_by
    · exact Prod.Lex.right _ (Nat.lt_succ_self _)
    · exact Prod.Lex.right _ (Nat.lt_succ_self _)
    · exact Prod.Lex.left _ _ (unseen_cons_lt (mem_keys_of_get? _h) ‹_›)

/-- The names of all objects that the roots lead to, the roots themselves included. -/
def reach (config : Config) (roots : List String) : List String := config.reachFrom [] roots

/-! ## What is made of the objects met -/

/-- The assignments of all objects that the root leads to, in the order of the search. -/
def walk (config : Config) (root : String) : List Statement :=
  (config.reach [root]).flatMap fun name =>
    (((config.get? name).map (·.entries)).getD []).map fun (field, value) => ⟨name, field, value⟩

/-- A copy of all objects that the roots lead to. -/
def extract (config : Config) (roots : List String) : Config :=
  config.restrict (config.reach roots)

/-- The text of everything that the root leads to. -/
def marshal (config : Config) (root : String) : Except ConfigError String :=
  writeStatements (config.walk root)

end Config

end GraphWire
