import GraphWire.Proofs.Assignability
import GraphWire.Proofs.Fidelity
import GraphWire.Proofs.Relocation

/-!
# `Proofs.Validity` — an object passes the check exactly when it is valid all the way down

An object is deeply valid under a schema if some relation between names and schemas holds of the two and
everything that it holds of fits, where what is read through a schema must be in the relation again. The
check counts an object as fitting as soon as it has been looked at, while its fields still remain. This
hides nothing, because of the invariant `Checking.Sound`: in any relation that holds of what was looked at
and of what remains, everything looked at fits. When nothing remains, what was looked at is such a relation.
The argument does not ask which check is made next, so the answer does not depend on it either.

## Contents
- **Schemas.** `Catalogue.Involves`, what a check may come to, and `Registry.Registered`.
- **`Fits`** and **`DeeplyValid`**.
- **Single checks.** `Checking.step`, and `Checking.Passes`, all that it can do.
- **The invariant.** `Checking.Sound`, which `Checking.Passes.sound` keeps.
- **Checks in any order.** `Checking.Further` and `Checking.Settles`; a run of checks is one of the orders,
  and `wellFounded_further`, every order ends.
- **`check_iff_deeplyValid`**.
-/

namespace GraphWire

/-! ## Schemas that are involved -/

/-- What a field holds, once or several times. -/
def FieldKind.element : FieldKind → Element
  | single e | optional e | sequence e | mapping e => e

/-- The schemas that objects are read through, from the fields of one schema on. -/
inductive Catalogue.Involves (catalogue : Catalogue) (schema : Schema) : Schema → Prop where
  | self : Involves catalogue schema schema
  | field {owner target : Schema} {field : FieldDecl} {ref : SchemaRef}
      (involved : Involves catalogue schema owner) (declared : field ∈ owner.fields)
      (element : field.kind.element = .object ref)
      (found : catalogue.find? ref.key = some target) : Involves catalogue schema target

/-- The tags of the schema and its ancestors are registered, each of them for its own schema. -/
def Registry.Registered (registry : Registry) (schema : Schema) : Prop :=
  ∀ entry ∈ schema.entries,
    ∃ holder, registry.get? entry.tag = some holder ∧ holder.key = entry.key

theorem Catalogue.key_of_find? {catalogue : Catalogue} {key : String} {schema : Schema}
    (h : catalogue.find? key = some schema) : schema.key = key := by
  have hkey := List.find?_some (p := fun s : Schema => decide (s.key = key)) h
  exact of_decide_eq_true hkey

namespace Registry

variable {registry : Registry} {schema : Schema}

theorem addAll_of_registered {entries : List SchemaEntry}
    (h : ∀ entry ∈ entries,
      ∃ holder, registry.get? entry.tag = some holder ∧ holder.key = entry.key) :
    registry.addAll entries = (registry, .ok ()) := by
  induction entries with
  | nil => rfl
  | cons entry entries ih =>
    obtain ⟨⟨holder, hget, hkey⟩, hrest⟩ := List.forall_mem_cons.1 h
    rw [addAll, add_of_held hget hkey]
    exact ih hrest

/-- Registering again changes nothing. -/
theorem Registered.register (h : registry.Registered schema) :
    registry.register schema = (registry, .ok ()) :=
  addAll_of_registered h

theorem entry_mem_entries (schema : Schema) : schema.entry ∈ schema.entries := by
  obtain ⟨own, ancestors⟩ := schema
  cases ancestors with
  | nil => exact List.mem_singleton.2 rfl
  | cons parent ancestors => exact List.mem_append_right _ (List.mem_singleton.2 rfl)

/-- Registered schemas with the same tag have the same key. -/
theorem Registered.key_eq {other : Schema} (h : registry.Registered schema)
    (hother : registry.Registered other) (htag : schema.tag = other.tag) :
    schema.key = other.key := by
  obtain ⟨holder, hget, hkey⟩ := h _ (entry_mem_entries schema)
  obtain ⟨holder', hget', hkey'⟩ := hother _ (entry_mem_entries other)
  have hsame : holder = holder' := by
    have htag' : schema.entry.tag = other.entry.tag := htag
    rw [htag', hget'] at hget
    exact (Option.some.inj hget).symm
  calc schema.key = holder.key := hkey.symm
    _ = holder'.key := by rw [hsame]
    _ = other.key := hkey'

end Registry

/-- A schema that is involved is the one that its key stands for. -/
theorem Catalogue.Involves.find? {catalogue : Catalogue} {schema involved : Schema}
    (h : catalogue.Involves schema involved) (hfind : catalogue.find? schema.key = some schema) :
    catalogue.find? involved.key = some involved := by
  cases h with
  | self => exact hfind
  | field _ _ _ found => rwa [Catalogue.key_of_find? found]

theorem Catalogue.Involves.mem {catalogue : Catalogue} {schema involved : Schema}
    (h : catalogue.Involves schema involved) (hmem : schema ∈ catalogue) : involved ∈ catalogue := by
  cases h with
  | self => exact hmem
  | field _ _ _ found => exact List.mem_of_find?_eq_some found

/-! ## Deep validity -/

/-- The object is there, and its tag is registered and assignable to the expected one. -/
def HasTag (config : Config) (registry : Registry) (name expected : String) : Prop :=
  ∃ tag, config.typeTag? name = some tag ∧ registry.contains tag ∧
    registry.isAssignable tag expected

/-- The field reads, and each object that is read through a schema is in the relation with it. -/
def FieldFits (catalogue : Catalogue) (config : Config) (store : StoreId)
    (R : String → Schema → Prop) (owner : String) (field : FieldDecl) : Prop :=
  ∃ x, field.kind.read store config owner field.name = .ok x ∧
    ∀ target ref, (target, ref) ∈ field.kind.references x →
      ∃ schema, catalogue.find? ref.key = some schema ∧ R target schema

/-- The object fits the schema, as far as its tag and its own fields go; what these refer to is in the
    relation. -/
structure Fits (catalogue : Catalogue) (config : Config) (registry : Registry) (store : StoreId)
    (R : String → Schema → Prop) (name : String) (schema : Schema) : Prop where
  tag : HasTag config registry name schema.tag
  field : ∀ field ∈ schema.fields, FieldFits catalogue config store R name field

/-- The object fits the schema, and so does everything that is read through schemas from there on. -/
def DeeplyValid (catalogue : Catalogue) (session : Session) (walker : Walker) (schema : Schema) :
    Prop :=
  ∃ R : String → Schema → Prop, R walker.name schema ∧ ∀ name schema, R name schema →
    Fits catalogue (session.contents walker) session.registry walker.store R name schema

namespace Element

/-- An element that was read through a schema declares that schema. -/
theorem eq_of_mem_references {e : Element} {x : e.Carrier} {target : String} {ref : SchemaRef}
    (h : (target, ref) ∈ e.references x) : e = .object ref := by
  cases e with
  | scalar t => cases h
  | object schema =>
    cases List.mem_singleton.1 h
    rfl

end Element

theorem FieldKind.element_of_mem_references {kind : FieldKind} {x : kind.Carrier} {target : String}
    {ref : SchemaRef} (h : (target, ref) ∈ kind.references x) : kind.element = .object ref := by
  cases kind with
  | single e => exact Element.eq_of_mem_references h
  | optional e =>
    obtain ⟨y, -, hy⟩ := List.mem_flatMap.1 h
    exact Element.eq_of_mem_references hy
  | sequence e =>
    obtain ⟨y, -, hy⟩ := List.mem_flatMap.1 h
    exact Element.eq_of_mem_references hy
  | mapping e =>
    obtain ⟨y, -, hy⟩ := List.mem_flatMap.1 h
    exact Element.eq_of_mem_references hy

/-- **A relation may be restricted to the schemas that are involved**: what fits still does. -/
theorem Fits.restrict {catalogue : Catalogue} {config : Config} {registry : Registry}
    {store : StoreId} {R : String → Schema → Prop} {name : String} {root schema : Schema}
    (h : Fits catalogue config registry store R name schema)
    (involved : catalogue.Involves root schema) :
    Fits catalogue config registry store (fun m T => R m T ∧ catalogue.Involves root T) name
      schema := by
  refine ⟨h.tag, ?_⟩
  intro field hfield
  obtain ⟨x, hread, hreferences⟩ := h.field field hfield
  refine ⟨x, hread, ?_⟩
  intro target ref hmem
  obtain ⟨T, hfind, hR⟩ := hreferences target ref hmem
  exact ⟨T, hfind, hR, .field involved hfield (FieldKind.element_of_mem_references hmem) hfind⟩

theorem Registry.resolve_eq_ok_iff {registry : Registry} {config : Config}
    {name expected tag : String} :
    registry.resolve config name expected = .ok tag ↔
      config.typeTag? name = some tag ∧ registry.contains tag ∧
        registry.isAssignable tag expected := by
  unfold resolve Config.typeTag?
  cases config.get? name with
  | none => simp
  | some object =>
    simp only [Option.bind_some]
    cases Object.typeTag? object with
    | none => simp
    | some tag' => grind

/-! ## Single checks -/

namespace Checking

/-- Visits are told apart by their names and tags. -/
instance lawfulBEqVisit : LawfulBEq (String × String) := inferInstance

/-- What a single check comes to: it fails, or other checks remain in its place. -/
def step (catalogue : Catalogue) (config : Config) (state : Checking) :
    Check → Checking × Option (List Check)
  | .object name ref =>
    match catalogue.find? ref.key with
    | none => (state, none)
    | some schema =>
      if (name, schema.tag) ∈ state.visited then (state, some [])
      else open? config state name schema
  | .field owner field => (state, fieldChecks? config owner field)

variable {catalogue : Catalogue} {config : Config} {registry : Registry} {store : StoreId}
  {root : Schema} {R : String → Schema → Prop}

/-- The schemas that the check may come to are involved with the root. -/
def Concerns (catalogue : Catalogue) (root : Schema) : Check → Prop
  | .object _ ref => ∀ schema, catalogue.find? ref.key = some schema → catalogue.Involves root schema
  | .field _ field => ∃ schema, catalogue.Involves root schema ∧ field ∈ schema.fields

/-- What the check is about is in the relation: the object itself, or what the field refers to. -/
def Backed (catalogue : Catalogue) (config : Config) (store : StoreId)
    (R : String → Schema → Prop) : Check → Prop
  | .object name ref => ∃ schema, catalogue.find? ref.key = some schema ∧ R name schema
  | .field owner field => FieldFits catalogue config store R owner field

/-- A check that does not fail: the object has been looked at under the schema, or it has not, the schema can be
    registered, the tag is right, and the fields remain, or the field reads and the objects that it refers to
    remain. -/
inductive Passes (catalogue : Catalogue) (config : Config) (store : StoreId) (state : Checking) :
    Check → Checking → List Check → Prop where
  | known {name : String} {ref : SchemaRef} {schema : Schema}
      (found : catalogue.find? ref.key = some schema)
      (known : (name, schema.tag) ∈ state.visited) :
      Passes catalogue config store state (.object name ref) state []
  | opened {name : String} {ref : SchemaRef} {schema : Schema} {registry : Registry}
      (found : catalogue.find? ref.key = some schema)
      (new : (name, schema.tag) ∉ state.visited)
      (registered : state.registry.register schema = (registry, .ok ()))
      (tag : HasTag config registry name schema.tag) :
      Passes catalogue config store state (.object name ref)
        ⟨registry, (name, schema.tag) :: state.visited⟩ (schema.fields.map (.field name))
  | reads {owner : String} {field : FieldDecl} {x : field.kind.Carrier}
      (reads : field.kind.read store config owner field.name = .ok x) :
      Passes catalogue config store state (.field owner field) state
        ((field.kind.references x).map fun (name, ref) => .object name ref)

theorem open?_of_registered {state : Checking} {schema : Schema}
    (h : state.registry.Registered schema) (name : String) :
    open? config state name schema =
      (⟨state.registry, (name, schema.tag) :: state.visited⟩,
        match state.registry.resolve config name schema.tag with
        | .ok _ => some (schema.fields.map (.field name))
        | .error _ => none) := by
  simp only [open?, h.register]
  cases state.registry.resolve config name schema.tag <;> rfl

/-- An object is opened under a schema if the schema can be registered and the tag is right then. -/
theorem open?_eq_some_iff {state next : Checking} {name : String} {schema : Schema} {checks : List Check} :
    open? config state name schema = (next, some checks) ↔
      state.registry.register schema = (next.registry, .ok ()) ∧
        next.visited = (name, schema.tag) :: state.visited ∧
        (∃ tag, next.registry.resolve config name schema.tag = .ok tag) ∧
        checks = schema.fields.map (.field name) := by
  obtain ⟨registry, visited⟩ := next
  rw [open?]
  rcases state.registry.register schema with ⟨registry', fault | -⟩
  · constructor
    · intro h
      cases h
    · rintro ⟨h, -⟩
      cases h
  · dsimp only
    cases hresolve : registry'.resolve config name schema.tag with
    | error fault =>
      constructor
      · intro h
        cases h
      · rintro ⟨h, -, ⟨tag, htag⟩, -⟩
        cases h
        rw [hresolve] at htag
        cases htag
    | ok tag =>
      constructor
      · intro h
        cases h
        exact ⟨rfl, rfl, ⟨tag, hresolve⟩, rfl⟩
      · rintro ⟨h, rfl, -, rfl⟩
        cases h
        rfl

theorem fieldChecks?_eq_some_iff (store : StoreId) {owner : String} {field : FieldDecl}
    {checks : List Check} :
    fieldChecks? config owner field = some checks ↔
      ∃ x, field.kind.read store config owner field.name = .ok x ∧
        checks = (field.kind.references x).map fun (name, ref) => .object name ref := by
  rw [fieldChecks?, FieldKind.read_relocate store 0]
  cases field.kind.read 0 config owner field.name with
  | error fault => simp [Except.map]
  | ok x => simp [Except.map, FieldKind.references_relocate, eq_comm]

/-- **All that a check can do.** -/
theorem passes_of_step {state next : Checking} {check : Check} {more : List Check}
    (h : state.step catalogue config check = (next, some more)) (store : StoreId) :
    Passes catalogue config store state check next more := by
  cases check with
  | object name ref =>
    rw [step] at h
    cases hfind : catalogue.find? ref.key with
    | none =>
      rw [hfind] at h
      cases h
    | some schema =>
      simp only [hfind] at h
      by_cases hvisited : (name, schema.tag) ∈ state.visited
      · rw [if_pos hvisited] at h
        cases h
        exact .known hfind hvisited
      · rw [if_neg hvisited] at h
        obtain ⟨hregister, hnext, ⟨tag, hresolve⟩, rfl⟩ := open?_eq_some_iff.1 h
        obtain ⟨registry, visited⟩ := next
        cases hnext
        exact .opened hfind hvisited hregister ⟨tag, Registry.resolve_eq_ok_iff.1 hresolve⟩
  | field owner field =>
    rw [step] at h
    obtain ⟨hstate, hchecks⟩ := Prod.mk.inj h
    obtain ⟨x, hread, rfl⟩ := (fieldChecks?_eq_some_iff store).1 hchecks
    subst hstate
    exact .reads hread

/-- Each of these is a check that does not fail. -/
theorem Passes.step_eq {state next : Checking} {check : Check} {more : List Check}
    (h : Passes catalogue config store state check next more) :
    state.step catalogue config check = (next, some more) := by
  cases h with
  | known found known => simp only [step, found, if_pos known]
  | opened found new registered tag =>
    obtain ⟨tag, htag⟩ := tag
    simp only [step, found, if_neg new]
    exact open?_eq_some_iff.2 ⟨registered, rfl, ⟨tag, Registry.resolve_eq_ok_iff.2 htag⟩, rfl⟩
  | reads hread => rw [step, (fieldChecks?_eq_some_iff store).2 ⟨_, hread, rfl⟩]

theorem registry_of_step (hregistered : ∀ schema, catalogue.Involves root schema →
      registry.Registered schema) {state : Checking} (hregistry : state.registry = registry)
    {check : Check} (hconcerns : Concerns catalogue root check) :
    (state.step catalogue config check).1.registry = registry := by
  cases check with
  | object name ref =>
    rw [step]
    cases hfind : catalogue.find? ref.key with
    | none => exact hregistry
    | some schema =>
      by_cases hvisited : (name, schema.tag) ∈ state.visited
      · simpa only [if_pos hvisited] using hregistry
      · have hschema : state.registry.Registered schema := by
          rw [hregistry]
          exact hregistered schema (hconcerns schema hfind)
        simpa only [if_neg hvisited, open?_of_registered hschema] using hregistry
  | field owner field => exact hregistry

/-- What remains in the place of a check concerns involved schemas again. -/
theorem Passes.concerns {state next : Checking} {check : Check} {more : List Check}
    (h : Passes catalogue config store state check next more)
    (hconcerns : Concerns catalogue root check) : ∀ c ∈ more, Concerns catalogue root c := by
  cases h with
  | known found known =>
    intro c hc
    cases hc
  | opened found new registered tag =>
    intro c hc
    obtain ⟨field, hfield, rfl⟩ := List.mem_map.1 hc
    exact ⟨_, hconcerns _ found, hfield⟩
  | reads hread =>
    intro c hc
    obtain ⟨⟨target, ref⟩, hmem, rfl⟩ := List.mem_map.1 hc
    obtain ⟨schema, involved, declared⟩ := hconcerns
    intro target' hfind
    exact .field involved declared (FieldKind.element_of_mem_references hmem) hfind

/-! ### From the relation to the checks -/

/-- **A check that is backed passes**, and what remains in its place is backed, if everything in the
    relation fits and its schemas are registered. -/
theorem exists_passes_of_backed (hregistered : ∀ name schema, R name schema → registry.Registered schema)
    (hfits : ∀ name schema, R name schema → Fits catalogue config registry store R name schema)
    {state : Checking} (hregistry : state.registry = registry) {check : Check}
    (hbacked : Backed catalogue config store R check) :
    ∃ next more, Passes catalogue config store state check next more ∧ next.registry = registry ∧
      ∀ c ∈ more, Backed catalogue config store R c := by
  subst hregistry
  cases check with
  | object name ref =>
    obtain ⟨schema, hfind, hR⟩ := hbacked
    by_cases hvisited : (name, schema.tag) ∈ state.visited
    · exact ⟨state, [], .known hfind hvisited, rfl, fun c hc => by cases hc⟩
    · have hregister := (hregistered name schema hR).register
      refine ⟨_, _, .opened hfind hvisited hregister (hfits name schema hR).tag, rfl, ?_⟩
      intro c hc
      obtain ⟨field, hfield, rfl⟩ := List.mem_map.1 hc
      exact (hfits name schema hR).field field hfield
  | field owner field =>
    obtain ⟨x, hread, hreferences⟩ := hbacked
    refine ⟨_, _, .reads hread, rfl, ?_⟩
    intro c hc
    obtain ⟨⟨target, ref⟩, hmem, rfl⟩ := List.mem_map.1 hc
    exact hreferences target ref hmem

/-! ### From the checks to the relation -/

/-- The relation holds of everything that was looked at. -/
def Includes (catalogue : Catalogue) (root : Schema) (state : Checking)
    (R : String → Schema → Prop) : Prop :=
  ∀ name schema, catalogue.Involves root schema → (name, schema.tag) ∈ state.visited →
    R name schema

/-- In any relation that holds of everything looked at and of everything that remains, what was looked at
    fits. -/
def Sound (catalogue : Catalogue) (config : Config) (registry : Registry) (store : StoreId)
    (root : Schema) (state : Checking) (checks : List Check) : Prop :=
  ∀ R, Includes catalogue root state R → (∀ c ∈ checks, Backed catalogue config store R c) →
    ∀ name schema, catalogue.Involves root schema → (name, schema.tag) ∈ state.visited →
      Fits catalogue config registry store R name schema

/-- What is looked at stays so. -/
theorem Passes.includes {state next : Checking} {check : Check} {more : List Check}
    (h : Passes catalogue config store state check next more)
    (hnext : Includes catalogue root next R) : Includes catalogue root state R := by
  cases h with
  | known found known => exact hnext
  | opened found new registered tag =>
    intro name schema involved hvisited
    exact hnext name schema involved (List.mem_cons_of_mem _ hvisited)
  | reads hread => exact hnext

/-- A check that has passed is backed if what remains in its place is. -/
theorem Passes.backed {state next : Checking} {check : Check} {more : List Check}
    (h : Passes catalogue config store state check next more)
    (hconcerns : Concerns catalogue root check) (hnext : Includes catalogue root next R)
    (hmore : ∀ c ∈ more, Backed catalogue config store R c) :
    Backed catalogue config store R check := by
  cases h with
  | known found known => exact ⟨_, found, hnext _ _ (hconcerns _ found) known⟩
  | opened found new registered tag => exact ⟨_, found, hnext _ _ (hconcerns _ found) List.mem_cons_self⟩
  | reads hread =>
    refine ⟨_, hread, ?_⟩
    intro target ref hmem
    exact hmore _ (List.mem_map.2 ⟨(target, ref), hmem, rfl⟩)

/-- **A check keeps the invariant**, whichever of the remaining checks it is. -/
theorem Passes.sound (hroot : catalogue.find? root.key = some root)
    (hregistered : ∀ schema, catalogue.Involves root schema → registry.Registered schema)
    {state next : Checking} (hregistry : state.registry = registry) {check : Check}
    {more rest checks : List Check} (h : Passes catalogue config store state check next more)
    (hperm : checks.Perm (check :: rest)) (hconcerns : Concerns catalogue root check)
    (hsound : Sound catalogue config registry store root state checks) :
    Sound catalogue config registry store root next (more ++ rest) := by
  intro R hincludes hbacked name schema involved hvisited
  obtain ⟨hmore, hrest⟩ := List.forall_mem_append.1 hbacked
  have hold : ∀ c ∈ checks, Backed catalogue config store R c := by
    intro c hc
    rcases List.mem_cons.1 (hperm.mem_iff.1 hc) with rfl | hc
    · exact h.backed hconcerns hincludes hmore
    · exact hrest c hc
  have hfits := hsound R (h.includes hincludes) hold
  cases h with
  | known found known => exact hfits name schema involved hvisited
  | reads hread => exact hfits name schema involved hvisited
  | @opened opened ref T registry' found new registered tag =>
    rcases List.mem_cons.1 hvisited with hnew | hvisited
    · -- the tag belongs to one schema only, so the new pair is about the schema that was opened
      obtain ⟨rfl, htag⟩ := Prod.mk.inj hnew
      have hT := hconcerns T found
      have hkey : schema.key = T.key :=
        (hregistered schema involved).key_eq (hregistered T hT) htag
      have hsame : schema = T := by
        have hfind := involved.find? hroot
        rw [hkey, hT.find? hroot] at hfind
        exact (Option.some.inj hfind).symm
      subst hsame
      refine ⟨?_, ?_⟩
      · -- it was registered before
        rw [hregistry, (hregistered schema involved).register] at registered
        cases registered
        exact tag
      · intro field hfield
        exact hmore _ (List.mem_map.2 ⟨field, hfield, rfl⟩)
    · exact hfits name schema involved hvisited

/-! ## Checks in any order -/

/-- One of the remaining checks is made, whichever, and passes. -/
def Further (catalogue : Catalogue) (config : Config) (now next : Checking × List Check) : Prop :=
  ∃ check rest more, now.2.Perm (check :: rest) ∧
    now.1.step catalogue config check = (next.1, some more) ∧ next.2 = more ++ rest

/-- The answer that checks in some order lead to: no check remains, or one has failed. -/
inductive Settles (catalogue : Catalogue) (config : Config) : Checking × List Check → Bool → Prop where
  | done {state : Checking} : Settles catalogue config (state, []) true
  | fails {state next : Checking} {check : Check} {checks : List Check} (mem : check ∈ checks)
      (fails : state.step catalogue config check = (next, none)) :
      Settles catalogue config (state, checks) false
  | further {now next : Checking × List Check} {answer : Bool}
      (further : Further catalogue config now next) (settles : Settles catalogue config next answer) :
      Settles catalogue config now answer

/-- Nothing but involved schemas is concerned, and these are registered. -/
structure Concerned (catalogue : Catalogue) (registry : Registry) (root : Schema)
    (now : Checking × List Check) : Prop where
  registry : now.1.registry = registry
  checks : ∀ c ∈ now.2, Concerns catalogue root c

/-- What holds of the end of a run, from what a single check does. -/
theorem run_induction {P : Checking → List Check → Bool × Checking → Prop}
    (done : ∀ state, P state [] (true, state))
    (fails : ∀ {state next check rest}, state.step catalogue config check = (next, none) →
      P state (check :: rest) (false, next))
    (further : ∀ {state next check rest more result},
      state.step catalogue config check = (next, some more) → P next (more ++ rest) result →
      P state (check :: rest) result)
    (state : Checking) (checks : List Check) : P state checks (state.run catalogue config checks) := by
  fun_induction run catalogue config state checks with
  | case1 state => exact done state
  | case2 state name ref rest hfind => exact fails (by simp only [step, hfind])
  | case3 state name ref rest schema hfind hvisited ih =>
    have hstep : state.step catalogue config (.object name ref) = (state, some []) := by
      simp only [step, hfind, if_pos hvisited]
    exact further hstep ih
  | case4 state name ref rest schema hfind hvisited next hopen =>
    exact fails (by simp only [step, hfind, if_neg hvisited, hopen])
  | case5 state name ref rest schema hfind hvisited next fields hopen ih =>
    exact further (by simp only [step, hfind, if_neg hvisited, hopen]) ih
  | case6 state owner field rest hchecks => exact fails (by rw [step, hchecks])
  | case7 state owner field rest objects hchecks ih => exact further (by rw [step, hchecks]) ih

/-- A run makes the checks in one of the orders. -/
theorem settles_run (state : Checking) (checks : List Check) :
    Settles catalogue config (state, checks) (state.run catalogue config checks).1 := by
  apply run_induction (P := fun state checks result =>
    Settles catalogue config (state, checks) result.1)
  · intro state
    exact .done
  · intro state next check rest hstep
    exact .fails List.mem_cons_self hstep
  · intro state next check rest more result hstep ih
    exact .further ⟨check, rest, more, .refl _, hstep, rfl⟩ ih

theorem Further.concerned (hregistered : ∀ schema, catalogue.Involves root schema →
      registry.Registered schema) {now next : Checking × List Check}
    (h : Further catalogue config now next) (hnow : Concerned catalogue registry root now) :
    Concerned catalogue registry root next := by
  obtain ⟨check, rest, more, hperm, hstep, hrest⟩ := h
  obtain ⟨hcheck, hothers⟩ := List.forall_mem_cons.1 fun c hc => hnow.checks c (hperm.mem_iff.2 hc)
  refine ⟨?_, ?_⟩
  · have hregistry : (now.1.step catalogue config check).1.registry = registry :=
      registry_of_step hregistered hnow.registry hcheck
    rwa [hstep] at hregistry
  · rw [hrest]
    refine List.forall_mem_append.2 ⟨?_, hothers⟩
    exact (passes_of_step hstep 0).concerns hcheck

/-- A run registers nothing new. -/
theorem registry_run (hregistered : ∀ schema, catalogue.Involves root schema →
      registry.Registered schema) {state : Checking} {checks : List Check}
    (h : Concerned catalogue registry root (state, checks)) :
    (state.run catalogue config checks).2.registry = registry := by
  revert h
  apply run_induction (P := fun state checks result =>
    Concerned catalogue registry root (state, checks) → result.2.registry = registry)
  · intro state h
    exact h.registry
  · intro state next check rest hstep h
    have hregistry : (state.step catalogue config check).1.registry = registry :=
      registry_of_step hregistered h.registry (h.checks check List.mem_cons_self)
    rwa [hstep] at hregistry
  · intro state next check rest more result hstep ih h
    exact ih (Further.concerned hregistered ⟨check, rest, more, .refl _, hstep, rfl⟩ h)

/-! ### Every order ends -/

/-- How much there is to do: the pairs that can still be looked at, the fields among the checks that remain,
    and these checks. -/
def remaining (catalogue : Catalogue) (config : Config) (now : Checking × List Check) :
    Nat × Nat × Nat :=
  (unseen (allPairs catalogue config) now.1.visited, now.2.countP isField, now.2.length)

theorem remaining_step {state next : Checking} {check : Check} {more : List Check}
    (h : state.step catalogue config check = (next, some more)) (rest : List Check) :
    WellFoundedRelation.rel (remaining catalogue config (next, more ++ rest))
      (remaining catalogue config (state, check :: rest)) := by
  cases passes_of_step h 0 with
  | known found known =>
    -- one check less, and nothing else changes
    exact Prod.Lex.right _ (Prod.Lex.right _ (Nat.lt_succ_self _))
  | opened found new registered tag =>
    -- one pair less that can be looked at
    obtain ⟨tag, hstored, -⟩ := tag
    obtain ⟨object, hget, -⟩ := Option.bind_eq_some_iff.1 hstored
    exact Prod.Lex.left _ _ (unseen_cons_lt (mem_allPairs (mem_keys_of_get? hget) found) new)
  | @reads owner field x hread =>
    -- one field less, since objects take its place
    refine Prod.Lex.right _ (Prod.Lex.left _ _ ?_)
    show (_ ++ rest).countP isField < (Check.field owner field :: rest).countP isField
    rw [countP_map_object, List.countP_cons_of_pos rfl]
    exact Nat.lt_succ_self _

/-- **Checks end in every order**, on cyclic graphs too. -/
theorem wellFounded_further (catalogue : Catalogue) (config : Config) :
    WellFounded fun next now => Further catalogue config now next := by
  refine Subrelation.wf (r := InvImage WellFoundedRelation.rel (remaining catalogue config)) ?_
    (InvImage.wf _ WellFoundedRelation.wf)
  rintro ⟨next, checks'⟩ ⟨state, checks⟩ ⟨check, rest, more, hperm, hstep, rfl⟩
  have hsame : remaining catalogue config (state, checks)
      = remaining catalogue config (state, check :: rest) := by
    simp only [remaining, hperm.countP_eq, hperm.length_eq]
  show WellFoundedRelation.rel (remaining catalogue config (next, more ++ rest)) _
  rw [hsame]
  exact remaining_step hstep rest

/-! ### From the checks to the relation, and back -/

/-- **Checks that are backed succeed in every order.** -/
theorem Settles.eq_true (hregistered : ∀ name schema, R name schema → registry.Registered schema)
    (hfits : ∀ name schema, R name schema → Fits catalogue config registry store R name schema)
    {now : Checking × List Check} {answer : Bool} (h : Settles catalogue config now answer)
    (hregistry : now.1.registry = registry)
    (hbacked : ∀ c ∈ now.2, Backed catalogue config store R c) : answer = true := by
  induction h with
  | done => rfl
  | fails mem fails =>
    obtain ⟨next, more, hpasses, -⟩ :=
      exists_passes_of_backed hregistered hfits hregistry (hbacked _ mem)
    cases fails.symm.trans hpasses.step_eq
  | further further settles ih =>
    obtain ⟨check, rest, more, hperm, hstep, hrest⟩ := further
    obtain ⟨hcheck, hothers⟩ := List.forall_mem_cons.1 fun c hc => hbacked c (hperm.mem_iff.2 hc)
    obtain ⟨next', more', hpasses, hregistry', hmore⟩ :=
      exists_passes_of_backed hregistered hfits hregistry hcheck
    cases hstep.symm.trans hpasses.step_eq
    refine ih hregistry' ?_
    rw [hrest]
    exact List.forall_mem_append.2 ⟨hmore, hothers⟩

/-- **Checks that succeed in some order are backed** by a relation under which everything in it fits. -/
theorem Settles.exists_fits (hroot : catalogue.find? root.key = some root)
    (hregistered : ∀ schema, catalogue.Involves root schema → registry.Registered schema)
    {now : Checking × List Check} (h : Settles catalogue config now true)
    (hnow : Concerned catalogue registry root now)
    (hsound : Sound catalogue config registry store root now.1 now.2) :
    ∃ R, (∀ name schema, R name schema → Fits catalogue config registry store R name schema) ∧
      Includes catalogue root now.1 R ∧ ∀ c ∈ now.2, Backed catalogue config store R c := by
  generalize hanswer : true = answer at h
  induction h with
  | @done state =>
    -- nothing remains, so what was looked at is such a relation
    let R : String → Schema → Prop := fun name schema =>
      catalogue.Involves root schema ∧ (name, schema.tag) ∈ state.visited
    have hincludes : Includes catalogue root state R :=
      fun name schema involved hvisited => ⟨involved, hvisited⟩
    have hnone : ∀ c ∈ ([] : List Check), Backed catalogue config store R c :=
      fun c hc => absurd hc List.not_mem_nil
    refine ⟨R, ?_, hincludes, hnone⟩
    rintro name schema ⟨involved, hvisited⟩
    exact hsound R hincludes hnone name schema involved hvisited
  | fails mem fails => cases hanswer
  | @further now next answer further settles ih =>
    have hnext := further.concerned hregistered hnow
    obtain ⟨check, rest, more, hperm, hstep, hrest⟩ := further
    have hconcerns := hnow.checks check (hperm.mem_iff.2 List.mem_cons_self)
    have hpasses := passes_of_step hstep store
    have hsound' := hpasses.sound hroot hregistered hnow.registry hperm hconcerns hsound
    rw [← hrest] at hsound'
    obtain ⟨R, hfits, hincludes, hbacked⟩ := ih hnext hsound' hanswer
    rw [hrest] at hbacked
    obtain ⟨hmore, hothers⟩ := List.forall_mem_append.1 hbacked
    refine ⟨R, hfits, hpasses.includes hincludes, ?_⟩
    intro c hc
    rcases List.mem_cons.1 (hperm.mem_iff.1 hc) with rfl | hc
    · exact hpasses.backed hconcerns hincludes hmore
    · exact hothers c hc

end Checking

/-! ## The check of an object -/

section

open Checking

variable {catalogue : Catalogue} {session : Session} {walker : Walker} {schema : Schema}

theorem concerned_start (hfind : catalogue.find? schema.key = some schema) (registry : Registry)
    (name : String) :
    Concerned catalogue registry schema (⟨registry, []⟩, [.object name schema.ref]) := by
  refine ⟨rfl, ?_⟩
  intro c hc
  cases List.mem_singleton.1 hc
  intro T hT
  have hsame : catalogue.find? schema.key = some T := hT
  rw [hfind] at hsame
  cases hsame
  exact .self

/-- **The check answers whether the object is deeply valid**, in every order in which it could be made. -/
theorem settles_iff_deeplyValid (hfind : catalogue.find? schema.key = some schema)
    (hregistered : ∀ involved, catalogue.Involves schema involved →
      session.registry.Registered involved) {answer : Bool}
    (h : Settles catalogue (session.contents walker)
      (⟨session.registry, []⟩, [.object walker.name schema.ref]) answer) :
    answer = true ↔ DeeplyValid catalogue session walker schema := by
  have hstart := concerned_start hfind session.registry walker.name
  constructor
  · rintro rfl
    have hsound : Sound catalogue (session.contents walker) session.registry walker.store schema
        ⟨session.registry, []⟩ [.object walker.name schema.ref] :=
      fun _ _ _ _ _ _ hvisited => absurd hvisited List.not_mem_nil
    obtain ⟨R, hfits, -, hbacked⟩ := h.exists_fits hfind hregistered hstart hsound
    obtain ⟨T, hT, hR⟩ := hbacked _ List.mem_cons_self
    have hsame : catalogue.find? schema.key = some T := hT
    rw [hfind] at hsame
    cases hsame
    exact ⟨R, hR, hfits⟩
  · rintro ⟨R, hR, hfits⟩
    have hinvolved : ∀ name T, (R name T ∧ catalogue.Involves schema T) →
        Fits catalogue (session.contents walker) session.registry walker.store
          (fun m T => R m T ∧ catalogue.Involves schema T) name T := by
      rintro name T ⟨hR, involved⟩
      exact (hfits name T hR).restrict involved
    refine h.eq_true (fun name T hR => hregistered T hR.2) hinvolved rfl ?_
    intro c hc
    cases List.mem_singleton.1 hc
    exact ⟨schema, hfind, hR, .self⟩

/-- Whether the objects in a list fit the schemas beside them, and refer through schemas to nothing that is
    not listed. The tag may be that of the schema or of one that extends it. -/
def fitsWithin (catalogue : Catalogue) (config : Config) (registry : Registry) (store : StoreId)
    (listed : List (String × Schema)) : Bool :=
  listed.all fun (name, schema) =>
    (config.typeTag? name).any (fun tag => registry.contains tag &&
      (tag == schema.tag || registry.parentOf? tag == some schema.tag)) &&
    schema.fields.all fun field =>
      match field.kind.read store config name field.name with
      | .error _ => false
      | .ok x => (field.kind.references x).all fun (target, ref) =>
        (catalogue.find? ref.key).any fun schema => listed.contains (target, schema)

/-- **Objects in such a list are deeply valid.** -/
theorem deeplyValid_of_fitsWithin {listed : List (String × Schema)}
    (h : fitsWithin catalogue (session.contents walker) session.registry walker.store listed = true)
    (hroot : (walker.name, schema) ∈ listed) : DeeplyValid catalogue session walker schema := by
  refine ⟨fun name schema => (name, schema) ∈ listed, hroot, ?_⟩
  intro name schema hmem
  obtain ⟨htag, hfields⟩ := Bool.and_eq_true_iff.1 (List.all_eq_true.1 h _ hmem)
  constructor
  case tag =>
    obtain ⟨tag, hstored, htag⟩ := (Option.any_eq_true _ _).1 htag
    obtain ⟨hthere, hextends⟩ := Bool.and_eq_true_iff.1 htag
    refine ⟨tag, hstored, hthere, ?_⟩
    rcases Bool.or_eq_true_iff.1 hextends with hsame | hparent
    · rw [eq_of_beq hsame]
      exact Registry.isAssignable_self _ _
    · exact Registry.isAssignable_of_parentOf? (eq_of_beq hparent)
  case field =>
    intro field hfield
    have hreads := List.all_eq_true.1 hfields field hfield
    cases hread : field.kind.read walker.store (session.contents walker) name field.name with
    | error e =>
      rw [hread] at hreads
      cases hreads
    | ok x =>
      rw [hread] at hreads
      refine ⟨x, hread, ?_⟩
      intro target ref href
      obtain ⟨schema, hfind, hlisted⟩ := (Option.any_eq_true _ _).1 (List.all_eq_true.1 hreads _ href)
      exact ⟨schema, hfind, List.contains_iff_mem.1 hlisted⟩

/-- What the check answers, in terms of deep validity. -/
theorem outcome_check_iff (hfind : catalogue.find? schema.key = some schema)
    (hregistered : ∀ involved, catalogue.Involves schema involved →
      session.registry.Registered involved) :
    ((schema.check catalogue walker).outcome session).1 = .ok true ↔
      DeeplyValid catalogue session walker schema := by
  rw [Schema.outcome_check, Except.ok.injEq]
  exact settles_iff_deeplyValid hfind hregistered (settles_run _ _)

/-- **The check of an object is exactly deep validity.** Let the schemas that are involved be registered.
    Then the check answers and leaves the session as it was; its answer is whether the object is deeply
    valid; and every order of the checks ends, with that answer. -/
theorem check_iff_deeplyValid (hfind : catalogue.find? schema.key = some schema)
    (hregistered : ∀ involved, catalogue.Involves schema involved →
      session.registry.Registered involved) :
    ∃ valid, (schema.check catalogue walker).outcome session = (.ok valid, session) ∧
      (valid = true ↔ DeeplyValid catalogue session walker schema) ∧
      Acc (fun next now => Further catalogue (session.contents walker) now next)
        (⟨session.registry, []⟩, [.object walker.name schema.ref]) ∧
      ∀ answer, Settles catalogue (session.contents walker)
        (⟨session.registry, []⟩, [.object walker.name schema.ref]) answer ↔ answer = valid := by
  have hrun : Settles catalogue (session.contents walker)
      (⟨session.registry, []⟩, [.object walker.name schema.ref])
      (schema.validate catalogue (session.contents walker) ⟨session.registry, []⟩ walker.name).1 :=
    settles_run _ _
  have hvalid := settles_iff_deeplyValid hfind hregistered hrun
  refine ⟨(schema.validate catalogue (session.contents walker) ⟨session.registry, []⟩
    walker.name).1, ?_, hvalid, (wellFounded_further _ _).apply _, ?_⟩
  · -- the session is left with the schemas that the run has registered
    have hregistry : (schema.validate catalogue (session.contents walker) ⟨session.registry, []⟩
        walker.name).2.registry = session.registry :=
      registry_run hregistered (concerned_start hfind session.registry walker.name)
    exact Prod.ext rfl (congrArg (fun registry => { session with registry }) hregistry)
  · intro answer
    constructor
    · intro hanswer
      have hiff := (settles_iff_deeplyValid hfind hregistered hanswer).trans hvalid.symm
      exact Bool.eq_iff_iff.2 hiff
    · rintro rfl
      exact hrun

/-- A schema whose objects refer to objects of a schema that extends it. -/
def linkSchema : Schema := .declare "Link" "link" [⟨"next", .single (.object ⟨"Sized", "sized"⟩)⟩]

def sizedSchema : Schema := linkSchema.extend "Sized" "sized" [⟨"size", .single (.scalar .number)⟩]

/-- Two objects of the extending schema that refer to each other. -/
def linkedConfig : Config := .ofStatements
  [⟨"a", "type", .text "sized"⟩, ⟨"a", "next", .text "b"⟩, ⟨"a", "size", .number .one⟩,
    ⟨"b", "type", .text "sized"⟩, ⟨"b", "next", .text "a"⟩, ⟨"b", "size", .number .one⟩]

def linkedSession : Session := ⟨⟨[linkedConfig]⟩, (Registry.register ∅ sizedSchema).1, 0⟩

def linkedSchemas : Catalogue := [linkSchema, sizedSchema]

/-- Each of the two objects is deeply valid under both schemas, each because the other one is. -/
theorem deeplyValid_linked : DeeplyValid linkedSchemas linkedSession ⟨0, "a"⟩ linkSchema := by
  have hfits : fitsWithin linkedSchemas linkedConfig linkedSession.registry 0
      [("a", linkSchema), ("a", sizedSchema), ("b", sizedSchema)] = true := by decide +kernel
  exact deeplyValid_of_fitsWithin hfits List.mem_cons_self

/-- The check finds out that the objects are valid, though each refers to the other. -/
theorem check_linked :
    (linkSchema.check linkedSchemas ⟨0, "a"⟩).outcome linkedSession = (.ok true, linkedSession) := by
  have hregistered : ∀ schema ∈ linkedSchemas, linkedSession.registry.Registered schema := by
    have hget : ∀ schema ∈ linkedSchemas, ∀ entry ∈ schema.entries,
        (linkedSession.registry.get? entry.tag).map SchemaEntry.key = some entry.key := by
      decide +kernel
    intro schema hmem entry hentry
    exact Option.map_eq_some_iff.1 (hget schema hmem entry hentry)
  obtain ⟨valid, houtcome, hvalid, -⟩ := check_iff_deeplyValid (by decide)
    (fun schema involved => hregistered schema (involved.mem List.mem_cons_self))
  rw [houtcome, hvalid.2 deeplyValid_linked]

end

end GraphWire
