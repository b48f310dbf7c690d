import GraphWire.Schema.Field
import GraphWire.Schema.Registry

/-!
# `GraphWire.Schema.Validity` — whether an object and all it refers to fit their schemas

An object fits a schema if its tag is registered and assignable to the schema, every declared field
reads, and every object that is read through a schema fits that one. An object is looked at once
under each tag, so the check ends on cyclic graphs; what was looked at before counts as fitting.

## Contents
- **`Check`**, what remains to be looked at, and **`Checking`**, what is known.
- **`Checking.run`**, the checks one after another up to the first that fails.
- **`Schema.validate`** and **`FieldKind.validate`**.
-/

namespace GraphWire

/-- A thing to look at: an object under a schema, or a declared field of an object. -/
inductive Check where
  | object (name : String) (schema : SchemaRef)
  | field (owner : String) (field : FieldDecl)
  deriving DecidableEq

/-- What is known while checks are made: the schemas registered, and the pairs of an object and a
    tag that were looked at. -/
structure Checking where
  registry : Registry
  visited : List (String × String)
  deriving DecidableEq

namespace Checking

/-- Marks the object as looked at under the schema, registers the schema, and checks the object's
    tag; the declared fields remain to be looked at. -/
def open? (config : Config) (state : Checking) (name : String) (schema : Schema) :
    Checking × Option (List Check) :=
  let visited := (name, schema.tag) :: state.visited
  match state.registry.register schema with
  | (registry, .error _) => (⟨registry, visited⟩, none)
  | (registry, .ok ()) =>
    match registry.resolve config name schema.tag with
    | .error _ => (⟨registry, visited⟩, none)
    | .ok _ => (⟨registry, visited⟩, some (schema.fields.map (.field name)))

/-- The objects that a field refers to, if it reads. -/
def fieldChecks? (config : Config) (owner : String) (field : FieldDecl) : Option (List Check) :=
  match field.kind.read 0 config owner field.name with
  | .error _ => none
  | .ok x => some ((field.kind.references x).map fun (name, schema) => .object name schema)

/-- The pairs of an object and a tag that can be looked at. -/
def allPairs (catalogue : Catalogue) (config : Config) : List (String × String) :=
  config.keys.flatMap fun name => catalogue.map fun schema => (name, schema.tag)

def isField : Check → Bool
  | .field _ _ => true
  | .object _ _ => false

theorem mem_allPairs {catalogue : Catalogue} {config : Config} {name key : String}
    {schema : Schema} (hn : name ∈ config.keys) (hs : catalogue.find? key = some schema) :
    (name, schema.tag) ∈ allPairs catalogue config :=
  List.mem_flatMap.2 ⟨name, hn, List.mem_map.2 ⟨schema, List.mem_of_find?_eq_some hs, rfl⟩⟩

theorem open?_eq_some {config : Config} {state next : Checking} {name : String} {schema : Schema}
    {checks : List Check} (h : open? config state name schema = (next, some checks)) :
    next.visited = (name, schema.tag) :: state.visited ∧ name ∈ config.keys := by
  unfold open? at h
  dsimp only at h
  split at h
  · cases h
  · split at h
    · cases h
    · next hr =>
      cases h
      refine ⟨rfl, ?_⟩
      unfold Registry.resolve at hr
      split at hr
      · cases hr
      · next ho => exact mem_keys_of_get? ho

theorem countP_map_object (l : List (String × SchemaRef)) (rest : List Check) :
    ((l.map fun (name, schema) => Check.object name schema) ++ rest).countP isField
      = rest.countP isField := by
  rw [List.countP_append, List.countP_map]
  simp [Function.comp_def, isField]

/-- Makes the checks in turn up to the first that fails. -/
def run (catalogue : Catalogue) (config : Config) (state : Checking) (checks : List Check) :
    Bool × Checking :=
  match checks with
  | [] => (true, state)
  | .object name ref :: rest =>
    match _hs : catalogue.find? ref.key with
    | none => (false, state)
    | some schema =>
      if (name, schema.tag) ∈ state.visited then run catalogue config state rest
      else
        match _ho : open? config state name schema with
        | (next, none) => (false, next)
        | (next, some fields) => run catalogue config next (fields ++ rest)
  | .field owner field :: rest =>
    match _hf : fieldChecks? config owner field with
    | none => (false, state)
    | some objects => run catalogue config state (objects ++ rest)
  termination_by
    (unseen (allPairs catalogue config) state.visited, checks.countP isField, checks.length)
  decreasing_by
    · rw [show (Check.object name ref :: rest).countP isField = rest.countP isField from rfl]
      exact Prod.Lex.right _ (Prod.Lex.right _ (Nat.lt_succ_self _))
    · obtain ⟨hv, hn⟩ := open?_eq_some _ho
      rw [hv]
      exact Prod.Lex.left _ _ (unseen_cons_lt (mem_allPairs hn _hs) ‹_›)
    · refine Prod.Lex.right _ (Prod.Lex.left _ _ ?_)
      unfold fieldChecks? at _hf
      split at _hf
      · cases _hf
      · cases _hf
        rw [countP_map_object, List.countP_cons_of_pos rfl]
        exact Nat.lt_succ_self _

end Checking

/-- Whether the object fits the schema, with what was looked at on the way. -/
def Schema.validate (catalogue : Catalogue) (config : Config) (state : Checking) (schema : Schema)
    (name : String) : Bool × Checking :=
  state.run catalogue config [.object name schema.ref]

/-- Whether the field reads, and every object that it refers to fits its schema. -/
def FieldKind.validate (catalogue : Catalogue) (config : Config) (state : Checking)
    (kind : FieldKind) (owner name : String) : Bool × Checking :=
  state.run catalogue config [.field owner ⟨name, kind⟩]

end GraphWire
