import GraphWire.Schema.Error

/-!
# `GraphWire.Schema.Registry` — the schemas known by their tags

A tag belongs to the schema that was registered under it first; registering that schema again
changes nothing, registering another one under the tag is an error. A schema is registered after its
ancestors.

## Contents
- **`SchemaEntry`** and **`Registry`**.
- **Registration.** `Schema.entries`, root ancestor first, `Registry.add` and `Registry.addAll`;
  **`Registry.add_eq_ok_iff`** and `Registry.add_eq_error_iff` say when one schema is registered.
- **Assignability.** `Registry.isAssignable` follows the tags of registered parents.
- **`Registry.resolve`**, the check of an object's tag against a schema.
-/

namespace GraphWire

/-- What is known about a registered schema. -/
structure SchemaEntry where
  tag : String
  parentTag : Option String
  key : String
  fields : List FieldDecl
  deriving DecidableEq

abbrev Registry := SortedMap SchemaEntry

/-! ## Registration -/

namespace Schema

def entry (s : Schema) : SchemaEntry := ⟨s.tag, s.parentTag, s.key, s.fields⟩

/-- The entries of a declaration and its ancestors, given from the declaration upwards. -/
def entriesOf (own : Layer) : List Layer → List SchemaEntry
  | [] => [entry ⟨own, []⟩]
  | parent :: ancestors => entriesOf parent ancestors ++ [entry ⟨own, parent :: ancestors⟩]

/-- The entries of the schema and its ancestors, those of the ancestors first. -/
def entries (s : Schema) : List SchemaEntry := entriesOf s.own s.ancestors

end Schema

namespace Registry

/-- Registers one schema. -/
def add (registry : Registry) (e : SchemaEntry) : Except TypedError Registry :=
  match registry.get? e.tag with
  | some holder => if holder.key = e.key then .ok registry else .error (.duplicateTag holder.tag)
  | none => .ok (registry.insert e.tag e)

section

variable {registry grown : Registry} {e holder : SchemaEntry}

theorem add_of_free (h : registry.get? e.tag = none) : registry.add e = .ok (registry.insert e.tag e) := by
  simp only [add, h]

theorem add_of_held (h : registry.get? e.tag = some holder) (hkey : holder.key = e.key) :
    registry.add e = .ok registry := by
  simp only [add, h, if_pos hkey]

theorem add_of_taken (h : registry.get? e.tag = some holder) (hkey : holder.key ≠ e.key) :
    registry.add e = .error (.duplicateTag holder.tag) := by
  simp only [add, h, if_neg hkey]

/-- **A schema is registered if its tag is free or its own already.** -/
theorem add_eq_ok_iff :
    registry.add e = .ok grown ↔
      (registry.get? e.tag = none ∧ registry.insert e.tag e = grown) ∨
        ∃ holder, registry.get? e.tag = some holder ∧ holder.key = e.key ∧ registry = grown := by
  constructor
  · intro h
    cases hget : registry.get? e.tag with
    | none =>
      rw [add_of_free hget] at h
      exact Or.inl ⟨rfl, Except.ok.inj h⟩
    | some holder =>
      by_cases hkey : holder.key = e.key
      · rw [add_of_held hget hkey] at h
        exact Or.inr ⟨holder, rfl, hkey, Except.ok.inj h⟩
      · rw [add_of_taken hget hkey] at h
        cases h
  · rintro (⟨hfree, rfl⟩ | ⟨holder, hget, hkey, rfl⟩)
    · exact add_of_free hfree
    · exact add_of_held hget hkey

/-- It is refused if its tag belongs to another one. -/
theorem add_eq_error_iff {fault : TypedError} :
    registry.add e = .error fault ↔
      ∃ holder, registry.get? e.tag = some holder ∧ holder.key ≠ e.key ∧
        fault = .duplicateTag holder.tag := by
  constructor
  · intro h
    cases hget : registry.get? e.tag with
    | none =>
      rw [add_of_free hget] at h
      cases h
    | some holder =>
      by_cases hkey : holder.key = e.key
      · rw [add_of_held hget hkey] at h
        cases h
      · rw [add_of_taken hget hkey] at h
        exact ⟨holder, rfl, hkey, (Except.error.inj h).symm⟩
  · rintro ⟨holder, hget, hkey, rfl⟩
    exact add_of_taken hget hkey

end

/-- Registers schemas in turn up to the first that fails; those before it stay registered. -/
def addAll (registry : Registry) : List SchemaEntry → Registry × Except TypedError Unit
  | [] => (registry, .ok ())
  | e :: rest =>
    match registry.add e with
    | .ok registry => addAll registry rest
    | .error fault => (registry, .error fault)

/-- Registers a schema and its ancestors. -/
def register (registry : Registry) (s : Schema) : Registry × Except TypedError Unit :=
  registry.addAll s.entries

/-! ## Assignability -/

/-- The parent of a registered tag. -/
def parentOf? (registry : Registry) (tag : String) : Option String :=
  (registry.get? tag).bind (·.parentTag)

theorem mem_keys_of_parentOf? {registry : Registry} {tag parent : String}
    (h : registry.parentOf? tag = some parent) : tag ∈ registry.keys := by
  obtain ⟨e, he, _⟩ := Option.bind_eq_some_iff.1 h
  exact mem_keys_of_get? he

/-- Looks for `expected` from `actual` upwards, past tags that were met before. -/
def climbs (registry : Registry) (expected : String) (met : List String) (actual : String) : Bool :=
  if actual = expected then true
  else if actual ∈ met then false
  else
    match _h : registry.parentOf? actual with
    | none => false
    | some parent => climbs registry expected (actual :: met) parent
  termination_by unseen registry.keys met
  decreasing_by exact unseen_cons_lt (mem_keys_of_parentOf? _h) ‹_›

/-- Whether `actual` is `expected` or has it as an ancestor. -/
def isAssignable (registry : Registry) (actual expected : String) : Bool :=
  registry.climbs expected [] actual

/-- The tag of the object, which must be registered and assignable to the expected one. -/
def resolve (registry : Registry) (config : Config) (name expected : String) :
    Except TypedError String :=
  match config.get? name with
  | none => .error (.config (.objectMissing name))
  | some object =>
    match Object.typeTag? object with
    | none => .error (.missingTypeTag name)
    | some tag =>
      if !registry.contains tag then .error (.unknownType tag)
      else if !registry.isAssignable tag expected then .error (.typeMismatch expected tag)
      else .ok tag

end Registry

end GraphWire
