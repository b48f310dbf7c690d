import GraphWire.Proofs.Reach
import GraphWire.Schema.View

/-!
# `Proofs.Copies` — a copy is read as the original

Whether a text is a reference depends on the whole configuration, so a part of one need not be read
as it was. It is if the part is closed: where two configurations hold the same under a name, they
hold the same under every name that is referred to there. Nothing that is reachable leads out of such
a part, and neither the search nor the check of an object looks at anything else.

## Contents
- **`Config.Alike`**, and `Config.alike_extract`.
- **Walks.** `Config.Alike.walk_eq`.
- **Fields.** `FieldKind.read_eq`, a declared field reads alike, and `refers_of_mem_references`: what
  is read through a schema is referred to.
- **`Checking.run_eq`**, the checks of an object have the same result.
-/

namespace GraphWire

namespace Config

/-- Where the two configurations hold the same under a name, they hold the same under every name that
    is referred to there. -/
def Alike (a b : Config) : Prop :=
  ∀ {name target : String}, a.get? name = b.get? name → a.Refers name target →
    a.get? target = b.get? target

variable {a b config : Config}

/-- **A copy of what the roots reach is alike**: what one of its objects refers to is reached as well, or
    there is no such object at all. -/
theorem alike_extract (config : Config) (roots : List String) :
    Alike config (config.extract roots) := by
  intro name target hname hrefers
  obtain ⟨object, hget, -⟩ := refers_iff_mem_targets.1 hrefers
  have hmet : name ∈ config.reach roots := by
    rw [← contains_extract_iff, SortedMap.contains_iff]
    exact ⟨object, by rw [← hname, hget]⟩
  rw [get?_extract]
  by_cases there : config.contains target
  · rw [if_pos (reach_closed hmet hrefers there)]
  · have hnone : config.get? target = none := SortedMap.get?_eq_none_iff.2 there
    rw [hnone, ite_self]

theorem Alike.contains_eq {name : String} (h : a.get? name = b.get? name) :
    a.contains name = b.contains name := by
  rw [SortedMap.contains, h, SortedMap.contains]

/-! ## Walks -/

/-- A search that begins at names under which both configurations hold the same meets the same. -/
theorem Alike.reachFrom_eq (h : Alike a b) {met stack : List String}
    (hstack : ∀ name ∈ stack, a.get? name = b.get? name) :
    a.reachFrom met stack = b.reachFrom met stack := by
  fun_induction reachFrom a met stack with
  | case1 met => rw [reachFrom]
  | case2 met name rest hget ih =>
    obtain ⟨hname, hrest⟩ := List.forall_mem_cons.1 hstack
    rw [ih hrest, reachFrom_missing (hname.symm.trans hget)]
  | case3 met name rest object hget hmet ih =>
    obtain ⟨-, hrest⟩ := List.forall_mem_cons.1 hstack
    rw [ih hrest, reachFrom_met hmet]
  | case4 met name rest object hget hmet ih =>
    obtain ⟨hname, hrest⟩ := List.forall_mem_cons.1 hstack
    rw [reachFrom_new (hname.symm.trans hget) hmet]
    apply ih
    intro target htarget
    rcases List.mem_append.1 htarget with htarget | htarget
    · exact h hname (refers_iff_mem_targets.2 ⟨object, hget, htarget⟩)
    · exact hrest target htarget

theorem Alike.get?_of_reaches (h : Alike a b) {root name : String}
    (hroot : a.get? root = b.get? root) (hreach : a.Reaches root name) :
    a.get? name = b.get? name := by
  induction hreach with
  | here _ => exact hroot
  | further _ refers _ ih => exact h ih refers

/-- **Walks from the same object are the same**, objects and fields in order. -/
theorem Alike.walk_eq (h : Alike a b) {root : String} (hroot : a.get? root = b.get? root) :
    a.walk root = b.walk root := by
  have hreach : a.reach [root] = b.reach [root] := h.reachFrom_eq (by simpa using hroot)
  rw [walk, walk, ← hreach, List.flatMap_def, List.flatMap_def]
  congr 1
  apply List.map_congr_left
  intro name hmem
  rw [h.get?_of_reaches hroot (mem_reach_singleton_iff.1 hmem)]

/-! ## Fields -/

/-- Whether a text is a reference depends on what is under that name alone. -/
theorem resolveItem_eq {s : String} (h : a.get? s = b.get? s) :
    resolveItem a s = resolveItem b s := by
  rw [resolveItem, resolveItem, Alike.contains_eq h]

theorem raw?_eq {owner : String} (howner : a.get? owner = b.get? owner) (field : String) :
    raw? a owner field = raw? b owner field := by
  rw [raw?, raw?, howner]

theorem refers_of_text {owner field target : String} (hfield : field ≠ typeField)
    (h : raw? config owner field = some (.text target)) : config.Refers owner target := by
  obtain ⟨object, hget, hvalue⟩ := Option.bind_eq_some_iff.1 h
  exact ⟨object, field, _, hget, hvalue, hfield, Or.inl rfl⟩

theorem refers_of_texts {owner field target : String} {names : List String}
    (hfield : field ≠ typeField) (h : raw? config owner field = some (.texts names))
    (hmem : target ∈ names) : config.Refers owner target := by
  obtain ⟨object, hget, hvalue⟩ := Option.bind_eq_some_iff.1 h
  exact ⟨object, field, _, hget, hvalue, hfield, Or.inr ⟨names, rfl, hmem⟩⟩

/-- A stored value is read alike. -/
theorem Alike.resolve_eq (h : Alike a b) {owner field : String} {value : Value}
    (howner : a.get? owner = b.get? owner) (hraw : raw? a owner field = some value) :
    resolve a field value = resolve b field value := by
  cases value with
  | text s =>
    by_cases hfield : field = typeField
    · rw [resolve, resolve, if_pos hfield, if_pos hfield]
    · rw [resolve, resolve, if_neg hfield, if_neg hfield,
        resolveItem_eq (h howner (refers_of_text hfield hraw))]
  | number n => rfl
  | texts names => rfl
  | numbers items => rfl

theorem required_eq_of_raw? {owner field : String} {object : Object}
    (hget : config.get? owner = some object) :
    required config owner field =
      match raw? config owner field with
      | none => .error (.fieldMissing owner field)
      | some value => .ok (resolve config field value) := by
  have hraw : raw? config owner field = object.get? field := by
    rw [raw?, hget]
    rfl
  cases hvalue : object.get? field with
  | none => simp only [required, hget, hraw, hvalue]
  | some value => simp only [required, hget, hraw, hvalue]

/-- A field that must be there is read alike. -/
theorem Alike.required_eq (h : Alike a b) {owner : String} (howner : a.get? owner = b.get? owner)
    (field : String) : required a owner field = required b owner field := by
  cases hget : a.get? owner with
  | none => rw [required, required, ← howner, hget]
  | some object =>
    rw [required_eq_of_raw? hget, required_eq_of_raw? (howner.symm.trans hget), ← raw?_eq howner]
    cases hraw : raw? a owner field with
    | none => rfl
    | some value =>
      show Except.ok (resolve a field value) = .ok (resolve b field value)
      rw [h.resolve_eq howner hraw]

end Config

theorem mapM_congr {ε α β : Type} {f g : α → Except ε β} {items : List α}
    (h : ∀ x ∈ items, f x = g x) : items.mapM f = items.mapM g := by
  induction items with
  | nil => rfl
  | cons x items ih =>
    obtain ⟨hx, hitems⟩ := List.forall_mem_cons.1 h
    rw [List.mapM_cons, List.mapM_cons, hx, ih hitems]

theorem mem_of_mapM {ε α β : Type} {f : α → Except ε β} {items : List α} {ys : List β}
    (h : items.mapM f = .ok ys) {y : β} (hy : y ∈ ys) : ∃ x ∈ items, f x = .ok y := by
  induction items generalizing ys with
  | nil =>
    cases h
    cases hy
  | cons x items ih =>
    rw [List.mapM_cons] at h
    obtain ⟨z, hz, h⟩ := Statement.bind_eq_ok h
    obtain ⟨zs, hzs, h⟩ := Statement.bind_eq_ok h
    cases h
    rcases List.mem_cons.1 hy with rfl | hy
    · exact ⟨x, List.mem_cons_self, hz⟩
    · obtain ⟨x', hx', hf⟩ := ih hzs hy
      exact ⟨x', List.mem_cons_of_mem _ hx', hf⟩

namespace FieldKind

open Config

variable {a b config : Config}

theorem resolvedOrAbsent_eq (h : Alike a b) {owner : String} (howner : a.get? owner = b.get? owner)
    (name : String) : resolvedOrAbsent a owner name = resolvedOrAbsent b owner name := by
  rw [resolvedOrAbsent, resolvedOrAbsent, h.required_eq howner]

theorem required_eq_ok_iff {owner name : String} {r : Resolved} :
    required config owner name = .ok r ↔
      ∃ value, raw? config owner name = some value ∧ r = resolve config name value := by
  cases hget : config.get? owner with
  | none =>
    have hraw : raw? config owner name = none := by
      rw [raw?, hget]
      rfl
    rw [required, hget, hraw]
    constructor
    · intro h
      cases h
    · rintro ⟨_, h, _⟩
      cases h
  | some object =>
    rw [required_eq_of_raw? hget]
    cases raw? config owner name with
    | none =>
      constructor
      · intro h
        cases h
      · rintro ⟨_, h, _⟩
        cases h
    | some value =>
      constructor
      · intro h
        exact ⟨value, rfl, (Except.ok.inj h).symm⟩
      · rintro ⟨value', hvalue, rfl⟩
        cases hvalue
        rfl

theorem resolvedOrAbsent_eq_some_iff {owner name : String} {r : Resolved} :
    resolvedOrAbsent config owner name = .ok (some r) ↔
      ∃ value, raw? config owner name = some value ∧ r = resolve config name value := by
  rw [← required_eq_ok_iff, resolvedOrAbsent]
  split
  · next r' hr =>
    rw [hr]
    constructor
    · intro h
      cases h
      rfl
    · intro h
      cases h
      rfl
  · -- a field that is missing is absent, any other fault stays
    next hr =>
    rw [hr]
    constructor
    · intro h
      cases h
    · intro h
      cases h
  · next hr =>
    rw [hr]
    constructor
    · intro h
      cases h
    · intro h
      cases h

/-- What is read as a sequence is stored as a list, which the field `type` of a typed object is not. -/
theorem raw?_of_sequence {owner name : String} {names : List String}
    (h : resolvedOrAbsent config owner name = .ok (some (.sequence names))) :
    raw? config owner name = some (.texts names) := by
  obtain ⟨value, hraw, hresolve⟩ := resolvedOrAbsent_eq_some_iff.1 h
  cases value with
  | text s =>
    rw [resolve] at hresolve
    split at hresolve
    · cases hresolve
    · rw [resolveItem] at hresolve
      split at hresolve <;> cases hresolve
  | number n => cases hresolve
  | texts names' =>
    cases hresolve
    exact hraw
  | numbers items => cases hresolve

/-- The field `type` of an object with a type tag holds no list. -/
theorem ne_typeField {owner name : String} {names : List String}
    (htag : (Config.typeTag? config owner).isSome)
    (h : raw? config owner name = some (.texts names)) : name ≠ typeField := by
  rintro rfl
  obtain ⟨object, hget, hvalue⟩ := Option.bind_eq_some_iff.1 h
  rw [Config.typeTag?, hget] at htag
  simp [Object.typeTag?, hvalue, Value.asText?] at htag

/-- A sequence is read alike, item by item. -/
theorem readSequence_eq (h : Alike a b) {owner : String} (howner : a.get? owner = b.get? owner)
    (htag : (Config.typeTag? a owner).isSome) (e : Element) (store : StoreId) (name : String) :
    readSequence e store a owner name = readSequence e store b owner name := by
  have hread := resolvedOrAbsent_eq h howner name
  rw [readSequence, readSequence, ← hread]
  cases hfield : resolvedOrAbsent a owner name with
  | error fault => rfl
  | ok r =>
    rcases r with - | r
    · rfl
    cases r with
    | sequence names =>
      have hraw := raw?_of_sequence hfield
      have hname := ne_typeField htag hraw
      -- the owner refers to every item, since the field is not `type`
      have hitems : ∀ s ∈ names, a.resolveItem s = b.resolveItem s := by
        intro s hs
        exact resolveItem_eq (h howner (refers_of_texts hname hraw hs))
      apply mapM_congr
      intro s hs
      rw [hitems s hs]
    | object target => rfl
    | text s => rfl
    | number n => rfl
    | numbers items => rfl

/-- **A declared field is read alike**, whatever its shape. -/
theorem read_eq (h : Alike a b) {owner : String} (howner : a.get? owner = b.get? owner)
    (htag : (Config.typeTag? a owner).isSome) (store : StoreId) (name : String) (kind : FieldKind) :
    kind.read store a owner name = kind.read store b owner name := by
  cases kind with
  | single e => rw [read, read, h.required_eq howner]
  | optional e => rw [read, read, resolvedOrAbsent_eq h howner]
  | sequence e => rw [read, read, readSequence_eq h howner htag]
  | mapping e => rw [read, read, readSequence_eq h howner htag, readKeys, readKeys, raw?_eq howner]

/-! ### What is read through a schema -/

/-- An element that refers was read as a reference to the same object. -/
theorem convert_of_mem_references {e : Element} {store : StoreId} {r : Resolved} {x : e.Carrier}
    (h : e.convert store r = .ok x) {target : String} {ref : SchemaRef}
    (hmem : (target, ref) ∈ e.references x) : r = .object target := by
  cases e with
  | scalar t => cases hmem
  | object schema =>
    cases r with
    | object name =>
      cases h
      cases List.mem_singleton.1 hmem
      rfl
    | sequence names => cases h
    | text s => cases h
    | number n => cases h
    | numbers items => cases h

theorem resolveItem_eq_object {s target : String} (h : config.resolveItem s = .object target) :
    s = target := by
  rw [resolveItem] at h
  split at h
  · cases h
    rfl
  · cases h

/-- A value that is read as a reference is referred to. -/
theorem refers_of_resolve {owner name target : String} {value : Value}
    (hraw : raw? config owner name = some value) (h : resolve config name value = .object target) :
    config.Refers owner target := by
  cases value with
  | text s =>
    rw [resolve] at h
    split at h
    · cases h
    · next hname =>
      cases resolveItem_eq_object h
      exact refers_of_text hname hraw
  | number n => cases h
  | texts names => cases h
  | numbers items => cases h

/-- What a sequence refers to through a schema, the owner refers to. -/
theorem refers_of_readSequence {e : Element} {store : StoreId} {owner name : String}
    {xs : List e.Carrier} (htag : (Config.typeTag? config owner).isSome)
    (h : readSequence e store config owner name = .ok xs) {target : String} {ref : SchemaRef}
    {x : e.Carrier} (hx : x ∈ xs) (hmem : (target, ref) ∈ e.references x) :
    config.Refers owner target := by
  rw [readSequence] at h
  obtain ⟨r, hfield, h⟩ := Statement.bind_eq_ok h
  split at h
  · cases h
    cases hx
  · next names =>
    have hraw := raw?_of_sequence hfield
    obtain ⟨s, hs, hconvert⟩ := mem_of_mapM h hx
    cases resolveItem_eq_object (convert_of_mem_references hconvert hmem)
    exact refers_of_texts (ne_typeField htag hraw) hraw hs
  · next items =>
    obtain ⟨n, -, hconvert⟩ := mem_of_mapM h hx
    cases convert_of_mem_references hconvert hmem
  · cases h

/-- **What a field refers to through a schema, its owner refers to.** -/
theorem refers_of_mem_references {store : StoreId} {owner name : String} {kind : FieldKind}
    {x : kind.Carrier} (htag : (Config.typeTag? config owner).isSome)
    (h : kind.read store config owner name = .ok x) {target : String} {ref : SchemaRef}
    (hmem : (target, ref) ∈ kind.references x) : config.Refers owner target := by
  cases kind with
  | single e =>
    rw [read] at h
    split at h
    · next r hr =>
      obtain ⟨value, hraw, rfl⟩ := required_eq_ok_iff.1 hr
      exact refers_of_resolve hraw (convert_of_mem_references h hmem)
    · cases h
  | optional e =>
    rw [read] at h
    obtain ⟨r, hfield, h⟩ := Statement.bind_eq_ok h
    cases r with
    | none =>
      cases h
      cases hmem
    | some r =>
      obtain ⟨y, hconvert, h⟩ := Statement.bind_eq_ok h
      cases h
      obtain ⟨value, hraw, rfl⟩ := resolvedOrAbsent_eq_some_iff.1 hfield
      simp only [references, Option.toList_some, List.flatMap_singleton] at hmem
      exact refers_of_resolve hraw (convert_of_mem_references hconvert hmem)
  | sequence e =>
    obtain ⟨y, hy, hmem⟩ := List.mem_flatMap.1 hmem
    exact refers_of_readSequence htag h hy hmem
  | mapping e =>
    rw [read] at h
    obtain ⟨keys, -, h⟩ := Statement.bind_eq_ok h
    obtain ⟨values, hvalues, h⟩ := Statement.bind_eq_ok h
    obtain ⟨y, hy, hmem⟩ := List.mem_flatMap.1 hmem
    split at h
    · cases h
    · cases h
      obtain ⟨⟨key, y'⟩, hentry, rfl⟩ := List.mem_map.1 hy
      -- the values of a mapping are items of the sequence under its name
      have hzip := OrderedMap.mem_of_mem_ofList hentry
      exact refers_of_readSequence htag hvalues (List.of_mem_zip hzip).2 hmem

end FieldKind

/-! ## Checks -/

namespace Checking

open Config

variable {a b : Config}

/-- The check is about an object under whose name both configurations hold the same; where it is about a
    field, the object has a type tag. -/
def Shared (a b : Config) : Check → Prop
  | .object name _ => a.get? name = b.get? name
  | .field owner _ => a.get? owner = b.get? owner ∧ (Config.typeTag? a owner).isSome

/-- The tag of an object is checked alike. -/
theorem open?_eq {name : String} (hname : a.get? name = b.get? name) (state : Checking)
    (schema : Schema) : open? a state name schema = open? b state name schema := by
  have hresolve : ∀ registry : Registry,
      registry.resolve a name schema.tag = registry.resolve b name schema.tag := by
    intro registry
    rw [Registry.resolve, Registry.resolve, hname]
  simp only [open?, hresolve]

/-- An object whose fields remain to be looked at has a type tag. -/
theorem typeTag?_of_open? {state next : Checking} {name : String} {schema : Schema}
    {checks : List Check} (h : open? a state name schema = (next, some checks)) :
    (Config.typeTag? a name).isSome ∧ checks = schema.fields.map (.field name) := by
  unfold open? at h
  dsimp only at h
  split at h
  · cases h
  · split at h
    · cases h
    · next hresolve =>
      cases h
      refine ⟨?_, rfl⟩
      unfold Registry.resolve at hresolve
      split at hresolve
      · cases hresolve
      · next object hget =>
        split at hresolve
        · cases hresolve
        · next tag htag =>
          rw [Config.typeTag?, hget]
          exact Option.isSome_of_eq_some htag

/-- A field gives the same objects to look at. -/
theorem fieldChecks?_eq (h : Alike a b) {owner : String} (howner : a.get? owner = b.get? owner)
    (htag : (Config.typeTag? a owner).isSome) (field : FieldDecl) :
    fieldChecks? a owner field = fieldChecks? b owner field := by
  rw [fieldChecks?, fieldChecks?, FieldKind.read_eq h howner htag]

/-- The objects that a field gives to look at are held alike. -/
theorem shared_of_fieldChecks? (h : Alike a b) {owner : String}
    (howner : a.get? owner = b.get? owner) (htag : (Config.typeTag? a owner).isSome)
    {field : FieldDecl} {checks : List Check} (hchecks : fieldChecks? a owner field = some checks) :
    ∀ check ∈ checks, Shared a b check := by
  rw [fieldChecks?] at hchecks
  split at hchecks
  · cases hchecks
  · next x hread =>
    cases hchecks
    intro check hcheck
    obtain ⟨⟨target, ref⟩, hmem, rfl⟩ := List.mem_map.1 hcheck
    exact h howner (FieldKind.refers_of_mem_references htag hread hmem)

/-! ### Runs of checks, one step at a time -/

theorem run_object (catalogue : Catalogue) (config : Config) (state : Checking) (name : String)
    (ref : SchemaRef) (rest : List Check) :
    state.run catalogue config (.object name ref :: rest) =
      match catalogue.find? ref.key with
      | none => (false, state)
      | some schema =>
        if (name, schema.tag) ∈ state.visited then state.run catalogue config rest
        else
          match open? config state name schema with
          | (next, none) => (false, next)
          | (next, some fields) => next.run catalogue config (fields ++ rest) := by
  rw [run]
  split
  · next hfind => rw [hfind]
  · next hfind =>
    rw [hfind]
    split
    · next hvisited => simp only [if_pos hvisited]
    · next hvisited =>
      simp only [if_neg hvisited]
      split
      · next hopen => rw [hopen]
      · next hopen => rw [hopen]

theorem run_field (catalogue : Catalogue) (config : Config) (state : Checking) (owner : String)
    (field : FieldDecl) (rest : List Check) :
    state.run catalogue config (.field owner field :: rest) =
      match fieldChecks? config owner field with
      | none => (false, state)
      | some objects => state.run catalogue config (objects ++ rest) := by
  rw [run]
  split
  · next hchecks => rw [hchecks]
  · next hchecks => rw [hchecks]

/-- **Checks of objects that are held alike have the same result**, and leave the same behind. -/
theorem run_eq (h : Alike a b) {catalogue : Catalogue} {state : Checking} {checks : List Check}
    (hshared : ∀ check ∈ checks, Shared a b check) :
    state.run catalogue a checks = state.run catalogue b checks := by
  -- every check that a step adds is about an object that is held alike
  fun_induction run catalogue a state checks with
  | case1 state => rw [run]
  | case2 state name ref rest hfind => rw [run_object, hfind]
  | case3 state name ref rest schema hfind hvisited ih =>
    obtain ⟨-, hrest⟩ := List.forall_mem_cons.1 hshared
    rw [ih hrest, run_object, hfind]
    exact (if_pos hvisited).symm
  | case4 state name ref rest schema hfind hvisited next hopen =>
    obtain ⟨hname, -⟩ := List.forall_mem_cons.1 hshared
    have hopen' : open? b state name schema = (next, none) :=
      (open?_eq hname state schema).symm.trans hopen
    rw [run_object, hfind]
    simp only [if_neg hvisited, hopen']
  | case5 state name ref rest schema hfind hvisited next fields hopen ih =>
    obtain ⟨hname, hrest⟩ := List.forall_mem_cons.1 hshared
    -- the object has a tag, so what remains of it are fields of an object that is held alike
    obtain ⟨htag, rfl⟩ := typeTag?_of_open? hopen
    have hfields : ∀ check ∈ schema.fields.map (Check.field name) ++ rest, Shared a b check := by
      intro check hcheck
      rcases List.mem_append.1 hcheck with hcheck | hcheck
      · obtain ⟨field, -, rfl⟩ := List.mem_map.1 hcheck
        exact ⟨hname, htag⟩
      · exact hrest check hcheck
    have hopen' := (open?_eq hname state schema).symm.trans hopen
    rw [ih hfields, run_object, hfind]
    simp only [if_neg hvisited, hopen']
  | case6 state owner field rest hchecks =>
    obtain ⟨⟨howner, htag⟩, -⟩ := List.forall_mem_cons.1 hshared
    rw [run_field, ← fieldChecks?_eq h howner htag, hchecks]
  | case7 state owner field rest objects hchecks ih =>
    obtain ⟨⟨howner, htag⟩, hrest⟩ := List.forall_mem_cons.1 hshared
    have hobjects : ∀ check ∈ objects ++ rest, Shared a b check := by
      intro check hcheck
      rcases List.mem_append.1 hcheck with hcheck | hcheck
      · exact shared_of_fieldChecks? h howner htag hchecks check hcheck
      · exact hrest check hcheck
    rw [ih hobjects, run_field, ← fieldChecks?_eq h howner htag, hchecks]

end Checking

/-- **An object fits a schema in one of two alike configurations if it does in the other.** -/
theorem Schema.validate_eq {a b : Config} (h : a.Alike b) {name : String}
    (hname : a.get? name = b.get? name) (catalogue : Catalogue) (state : Checking)
    (schema : Schema) :
    schema.validate catalogue a state name = schema.validate catalogue b state name := by
  apply Checking.run_eq h
  intro check hcheck
  cases List.mem_singleton.1 hcheck
  exact hname

end GraphWire
