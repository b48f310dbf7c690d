import GraphWire.Proofs.Assembly
import GraphWire.Proofs.Sessions

/-!
# `Proofs.Growth` — what could be read can still be read when objects are added

Whether a text is a reference is decided by the names in the store, so an object that is added can turn texts
of old objects into references, anywhere in the store. This never costs anything: a scalar is read from the
stored value, which the reference still has, and where an object is asked for, a text that was no reference
was an error. A check that held therefore makes the same steps in the grown store, and schemas that were
registered in the meantime do not keep it from that.

## Contents
- **Fields.** `Resolved.Becomes`, how a field may be resolved later, and **`FieldKind.read_mono`**.
- **Schemas.** `Registry.Within`, with `isAssignable_mono` and `addAll_mono`.
- **Checks.** `Checking.Ahead`, a check that is made later, `Checking.step_mono`, and **`Checking.repeats`**.
- **`Session.KeepsReadable`**, and **`growth_keeps_readable`** for merges and for writes.
-/

namespace GraphWire

open Config

variable {a b : Config}

/-! ## Fields -/

/-- How a field is resolved where there are more names: as before, or a text has become a reference. -/
inductive Resolved.Becomes : Resolved → Resolved → Prop where
  | same (r : Resolved) : Becomes r r
  | named (s : String) : Becomes (.text s) (.object s)

theorem Config.becomes_resolveItem (hnames : ∀ name, a.contains name → b.contains name) (s : String) :
    (a.resolveItem s).Becomes (b.resolveItem s) := by
  rw [resolveItem, resolveItem]
  by_cases hb : b.contains s
  · rw [if_pos hb]
    split
    · exact .same _
    · exact .named s
  · rw [if_neg hb, if_neg fun ha => hb (hnames s ha)]
    exact .same _

theorem Config.becomes_resolve (hnames : ∀ name, a.contains name → b.contains name) (field : String)
    (value : Value) : (a.resolve field value).Becomes (b.resolve field value) := by
  cases value with
  | text s =>
    rw [resolve, resolve]
    split
    · exact .same _
    · exact becomes_resolveItem hnames s
  | number n => exact .same _
  | texts names => exact .same _
  | numbers items => exact .same _

/-- **A text that has become a reference is read as before**, if it could be read at all. -/
theorem Element.convert_of_becomes {e : Element} {store : StoreId} {r r' : Resolved} {x : e.Carrier}
    (hr : r.Becomes r') (h : e.convert store r = .ok x) : e.convert store r' = .ok x := by
  cases hr with
  | same => exact h
  | named s =>
    cases e with
    | scalar t => exact h
    | object schema => cases h

theorem Config.typeTag?_eq (config : Config) (name : String) :
    config.typeTag? name = (config.raw? name typeField).bind Value.asText? := by
  rw [typeTag?, raw?]
  cases config.get? name <;> rfl

theorem mapM_mono {ε α β : Type} {f g : α → Except ε β} {items : List α} {ys : List β}
    (hfg : ∀ x y, f x = .ok y → g x = .ok y) (h : items.mapM f = .ok ys) : items.mapM g = .ok ys := by
  induction items generalizing ys with
  | nil => exact h
  | cons x items ih =>
    rw [List.mapM_cons] at h
    obtain ⟨y, hy, h⟩ := Statement.bind_eq_ok h
    obtain ⟨rest, hrest, h⟩ := Statement.bind_eq_ok h
    rw [List.mapM_cons, hfg x y hy, ih hrest]
    exact h

namespace FieldKind

/-- The names under which the field is stored: a mapping has its keys beside its values. -/
def storedIn (name : String) : FieldKind → List String
  | single _ | optional _ | sequence _ => [name]
  | mapping _ => [name, keysField name]

theorem mem_storedIn (name : String) (kind : FieldKind) : name ∈ kind.storedIn name := by
  cases kind <;> exact List.mem_cons_self

variable {store : StoreId} {owner name : String}

theorem required_mono (hnames : ∀ name, a.contains name → b.contains name)
    (hraw : b.raw? owner name = a.raw? owner name) {r : Resolved} (h : a.required owner name = .ok r) :
    ∃ r', b.required owner name = .ok r' ∧ r.Becomes r' := by
  obtain ⟨value, hvalue, rfl⟩ := required_eq_ok_iff.1 h
  exact ⟨_, required_eq_ok_iff.2 ⟨value, hraw.trans hvalue, rfl⟩, becomes_resolve hnames name value⟩

/-- A field is absent if its object is there without it. -/
theorem resolvedOrAbsent_eq_none_iff :
    resolvedOrAbsent a owner name = .ok none ↔ a.contains owner ∧ a.raw? owner name = none := by
  cases hget : a.get? owner with
  | none =>
    have hcontains : ¬ a.contains owner := SortedMap.get?_eq_none_iff.1 hget
    have hrequired : a.required owner name = .error (.objectMissing owner) := by rw [required, hget]
    rw [resolvedOrAbsent, hrequired]
    constructor
    · intro h
      cases h
    · rintro ⟨there, -⟩
      exact absurd there hcontains
  | some object =>
    have hcontains : a.contains owner := SortedMap.contains_iff.2 ⟨object, hget⟩
    rw [resolvedOrAbsent, required_eq_of_raw? hget]
    cases a.raw? owner name with
    | none =>
      constructor
      · intro _
        exact ⟨hcontains, rfl⟩
      · intro _
        rfl
    | some value =>
      constructor
      · intro h
        cases h
      · rintro ⟨-, habsent⟩
        cases habsent

theorem resolvedOrAbsent_mono (hnames : ∀ name, a.contains name → b.contains name)
    (hraw : b.raw? owner name = a.raw? owner name) {r : Option Resolved}
    (h : resolvedOrAbsent a owner name = .ok r) :
    ∃ r', resolvedOrAbsent b owner name = .ok r' ∧ Option.Rel Resolved.Becomes r r' := by
  cases r with
  | none =>
    obtain ⟨there, habsent⟩ := resolvedOrAbsent_eq_none_iff.1 h
    exact ⟨none, resolvedOrAbsent_eq_none_iff.2 ⟨hnames owner there, hraw.trans habsent⟩, .none⟩
  | some r =>
    obtain ⟨value, hvalue, rfl⟩ := resolvedOrAbsent_eq_some_iff.1 h
    exact ⟨some (b.resolve name value),
      resolvedOrAbsent_eq_some_iff.2 ⟨value, hraw.trans hvalue, rfl⟩,
      .some (becomes_resolve hnames name value)⟩

theorem readSequence_mono (hnames : ∀ name, a.contains name → b.contains name)
    (hraw : b.raw? owner name = a.raw? owner name) {e : Element} {xs : List e.Carrier}
    (h : readSequence e store a owner name = .ok xs) : readSequence e store b owner name = .ok xs := by
  rw [readSequence] at h
  obtain ⟨r, hr, h⟩ := Statement.bind_eq_ok h
  obtain ⟨r', hr', hrel⟩ := resolvedOrAbsent_mono hnames hraw hr
  rw [readSequence, hr']
  cases hrel with
  | none => exact h
  | @some r _ hbecomes =>
    cases hbecomes with
    | named s => cases h
    | same =>
      cases r with
      | sequence names =>
        -- each item is resolved by itself
        have hitem : ∀ s x, e.convert store (a.resolveItem s) = .ok x →
            e.convert store (b.resolveItem s) = .ok x :=
          fun s x hx => Element.convert_of_becomes (becomes_resolveItem hnames s) hx
        exact mapM_mono hitem h
      | numbers items => exact h
      | object target => cases h
      | text s => cases h
      | number n => cases h

/-- **A field that could be read is read as the same** where there are more names, and the field is stored
    as it was. -/
theorem read_mono (hnames : ∀ name, a.contains name → b.contains name) {kind : FieldKind}
    (hraw : ∀ stored ∈ kind.storedIn name, b.raw? owner stored = a.raw? owner stored)
    {x : kind.Carrier} (h : kind.read store a owner name = .ok x) :
    kind.read store b owner name = .ok x := by
  have hvalues := hraw name (mem_storedIn name kind)
  cases kind with
  | single e =>
    rw [read] at h
    split at h
    · next r hr =>
      obtain ⟨r', hr', hbecomes⟩ := required_mono hnames hvalues hr
      rw [read, hr']
      exact Element.convert_of_becomes hbecomes h
    · cases h
  | optional e =>
    rw [read] at h
    obtain ⟨r, hr, h⟩ := Statement.bind_eq_ok h
    obtain ⟨r', hr', hrel⟩ := resolvedOrAbsent_mono hnames hvalues hr
    rw [read, hr']
    cases hrel with
    | none => exact h
    | some hbecomes =>
      obtain ⟨y, hy, h⟩ := Statement.bind_eq_ok h
      show (e.convert store _ >>= fun y => pure (some y)) = Except.ok x
      rw [Element.convert_of_becomes hbecomes hy]
      exact h
  | sequence e => exact readSequence_mono hnames hvalues h
  | mapping e =>
    have hkeys := hraw (keysField name) (List.mem_cons_of_mem _ List.mem_cons_self)
    rw [read] at h
    obtain ⟨keys, hread, h⟩ := Statement.bind_eq_ok h
    obtain ⟨values, hsequence, h⟩ := Statement.bind_eq_ok h
    rw [readKeys, ← hkeys] at hread
    rw [read, readKeys, hread, readSequence_mono hnames hvalues hsequence]
    exact h

/-- Only an object that is there can be read. -/
theorem contains_of_read {kind : FieldKind} {x : kind.Carrier}
    (h : kind.read store a owner name = .ok x) : a.contains owner := by
  have hthere : ∀ {r}, resolvedOrAbsent a owner name = .ok r → a.contains owner := by
    intro r hr
    cases r with
    | none => exact (resolvedOrAbsent_eq_none_iff.1 hr).1
    | some r =>
      obtain ⟨value, hvalue, -⟩ := resolvedOrAbsent_eq_some_iff.1 hr
      obtain ⟨object, hget, -⟩ := Option.bind_eq_some_iff.1 hvalue
      exact SortedMap.contains_iff.2 ⟨object, hget⟩
  have hsequence : ∀ {e : Element} {xs : List e.Carrier},
      readSequence e store a owner name = .ok xs → a.contains owner := by
    intro e xs hxs
    obtain ⟨r, hr, -⟩ := Statement.bind_eq_ok hxs
    exact hthere hr
  cases kind with
  | single e =>
    rw [read] at h
    split at h
    · next r hr =>
      have hsome : resolvedOrAbsent a owner name = .ok (some r) := by rw [resolvedOrAbsent, hr]
      exact hthere hsome
    · cases h
  | optional e =>
    obtain ⟨r, hr, -⟩ := Statement.bind_eq_ok h
    exact hthere hr
  | sequence e => exact hsequence h
  | mapping e =>
    obtain ⟨keys, -, h⟩ := Statement.bind_eq_ok h
    obtain ⟨values, hvalues, -⟩ := Statement.bind_eq_ok h
    exact hsequence hvalues

end FieldKind

/-! ## Schemas -/

namespace Registry

variable {registry later top : Registry}

/-- Every schema that is registered in the first registry is registered in the second. -/
def Within (registry later : Registry) : Prop :=
  ∀ tag entry, registry.get? tag = some entry → later.get? tag = some entry

theorem Within.refl (registry : Registry) : registry.Within registry := fun _ _ h => h

theorem Within.trans (h : registry.Within later) (h' : later.Within top) : registry.Within top :=
  fun tag entry hget => h' tag entry (h tag entry hget)

/-- Tags lead upwards as before when schemas are registered. -/
theorem isAssignable_mono (h : registry.Within later) {actual expected : String}
    (hassignable : registry.isAssignable actual expected = true) :
    later.isAssignable actual expected = true := by
  have hparent : ∀ tag parent, registry.IsParent tag parent → later.IsParent tag parent := by
    intro tag parent hparent
    obtain ⟨entry, hentry, hup⟩ := Option.bind_eq_some_iff.1 hparent
    exact Option.bind_eq_some_iff.2 ⟨entry, h _ _ hentry, hup⟩
  exact isAssignable_iff.2 (Relation.ReflTransGen.mono hparent _ _ (isAssignable_iff.1 hassignable))

/-- An object with the same type tag is accepted as before. -/
theorem resolve_mono (h : registry.Within later) {name expected tag : String}
    (htag : b.typeTag? name = a.typeTag? name) (hresolve : registry.resolve a name expected = .ok tag) :
    later.resolve b name expected = .ok tag := by
  obtain ⟨hstored, hthere, hassignable⟩ := resolve_eq_ok_iff.1 hresolve
  obtain ⟨entry, hentry⟩ := SortedMap.contains_iff.1 hthere
  exact resolve_eq_ok_iff.2 ⟨htag.trans hstored, SortedMap.contains_iff.2 ⟨entry, h _ _ hentry⟩,
    isAssignable_mono h hassignable⟩

theorem within_add {e : SchemaEntry} {grown : Registry} (h : registry.add e = .ok grown) :
    registry.Within grown := by
  rcases add_eq_ok_iff.1 h with ⟨hfree, rfl⟩ | ⟨-, -, -, rfl⟩
  · intro tag entry hget
    have hne : tag ≠ e.tag := by
      rintro rfl
      rw [hfree] at hget
      cases hget
    rw [SortedMap.get?_insert, if_neg hne, hget]
  · exact .refl registry

theorem within_addAll (registry : Registry) (entries : List SchemaEntry) :
    registry.Within (registry.addAll entries).1 := by
  induction entries generalizing registry with
  | nil => exact .refl registry
  | cons e entries ih =>
    rw [addAll]
    cases hadd : registry.add e with
    | error fault => exact .refl registry
    | ok grown => exact (within_add hadd).trans (ih grown)

/-- What could be registered can be registered later, if a registry holds what comes of both. -/
theorem add_mono (h : registry.Within later) (htop : later.Within top) {e : SchemaEntry}
    {grown : Registry} (hadd : registry.add e = .ok grown) (hgrown : grown.Within top) :
    ∃ grown', later.add e = .ok grown' ∧ grown.Within grown' ∧ grown'.Within top := by
  rcases add_eq_ok_iff.1 hadd with ⟨-, rfl⟩ | ⟨holder, hholder, hkey, rfl⟩
  · -- whatever holds the tag later is what was registered now, since both are in one registry
    have hnew : top.get? e.tag = some e :=
      hgrown _ _ (by rw [SortedMap.get?_insert, if_pos rfl])
    cases hlater : later.get? e.tag with
    | some holder =>
      have hholder := htop _ _ hlater
      rw [hnew] at hholder
      cases hholder
      refine ⟨later, add_of_held hlater rfl, ?_, htop⟩
      intro tag entry hget
      rw [SortedMap.get?_insert] at hget
      split at hget
      · next htag =>
        cases hget
        rw [htag]
        exact hlater
      · exact h _ _ hget
    | none =>
      refine ⟨later.insert e.tag e, add_of_free hlater, ?_, ?_⟩
      · intro tag entry hget
        rw [SortedMap.get?_insert] at hget ⊢
        split at hget
        · next htag => rw [if_pos htag, hget]
        · next htag => rw [if_neg htag, h _ _ hget]
      · intro tag entry hget
        rw [SortedMap.get?_insert] at hget
        split at hget
        · next htag =>
          cases hget
          rw [htag]
          exact hnew
        · exact htop _ _ hget
  · exact ⟨later, add_of_held (h _ _ hholder) hkey, h, htop⟩

theorem addAll_mono (h : registry.Within later) (htop : later.Within top)
    {entries : List SchemaEntry} {grown : Registry} (hadd : registry.addAll entries = (grown, .ok ()))
    (hgrown : grown.Within top) :
    ∃ grown', later.addAll entries = (grown', .ok ()) ∧ grown.Within grown' ∧ grown'.Within top := by
  induction entries generalizing registry later with
  | nil =>
    cases hadd
    exact ⟨later, rfl, h, htop⟩
  | cons e entries ih =>
    rw [addAll] at hadd
    cases hone : registry.add e with
    | error fault =>
      rw [hone] at hadd
      cases hadd
    | ok next =>
      simp only [hone] at hadd
      have hnext : next.Within top := by
        have hrest := within_addAll next entries
        rw [hadd] at hrest
        exact hrest.trans hgrown
      obtain ⟨next', hone', hstep, htop'⟩ := add_mono h htop hone hnext
      obtain ⟨grown', hall, hgrown', htop''⟩ := ih hstep htop' hadd
      refine ⟨grown', ?_, hgrown', htop''⟩
      rw [addAll, hone']
      exact hall

end Registry

/-! ## Checks -/

namespace Checking

variable {catalogue : Catalogue} {state state' next : Checking} {check : Check}
  {checks more rest : List Check} {top : Registry}

theorem run_cons (catalogue : Catalogue) (config : Config) (state : Checking) (check : Check)
    (rest : List Check) :
    state.run catalogue config (check :: rest) =
      match state.step catalogue config check with
      | (next, none) => (false, next)
      | (next, some more) => next.run catalogue config (more ++ rest) := by
  cases check with
  | object name ref =>
    rw [run_object, step]
    cases catalogue.find? ref.key with
    | none => rfl
    | some schema =>
      by_cases hvisited : (name, schema.tag) ∈ state.visited
      · simp only [if_pos hvisited, List.nil_append]
      · rcases hopen : open? config state name schema with ⟨next, - | fields⟩
        · simp only [if_neg hvisited, hopen]
        · simp only [if_neg hvisited, hopen]
  | field owner field =>
    rw [run_field, step]
    cases fieldChecks? config owner field <;> rfl

/-- What is known later: no less. -/
structure Grows (state next : Checking) : Prop where
  registry : state.registry.Within next.registry
  visited : ∀ pair ∈ state.visited, pair ∈ next.visited

theorem Grows.refl (state : Checking) : Grows state state := ⟨.refl _, fun _ h => h⟩

theorem Grows.trans {later : Checking} (h : Grows state next) (h' : Grows next later) :
    Grows state later :=
  ⟨h.registry.trans h'.registry, fun pair hpair => h'.visited pair (h.visited pair hpair)⟩

/-- To look at an object under a schema registers the schema and marks the object. -/
theorem fst_open? (config : Config) (state : Checking) (name : String) (schema : Schema) :
    (open? config state name schema).1 =
      ⟨(state.registry.register schema).1, (name, schema.tag) :: state.visited⟩ := by
  rw [open?]
  rcases state.registry.register schema with ⟨registry, fault | -⟩
  · rfl
  · dsimp only
    cases registry.resolve config name schema.tag <;> rfl

theorem grows_step (catalogue : Catalogue) (config : Config) (state : Checking) (check : Check) :
    Grows state (state.step catalogue config check).1 := by
  cases check with
  | object name ref =>
    rw [step]
    cases catalogue.find? ref.key with
    | none => exact .refl state
    | some schema =>
      dsimp only
      split
      · exact .refl state
      · rw [fst_open?]
        exact ⟨Registry.within_addAll _ _, fun _ hpair => List.mem_cons_of_mem _ hpair⟩
  | field owner field => exact .refl state

theorem grows_run (catalogue : Catalogue) (config : Config) (state : Checking) (checks : List Check) :
    Grows state (state.run catalogue config checks).2 := by
  apply run_induction (P := fun state _ result => Grows state result.2)
  · exact .refl
  · intro state next check rest hstep
    have hgrows := grows_step catalogue config state check
    rwa [hstep] at hgrows
  · intro state next check rest more result hstep ih
    have hgrows := grows_step catalogue config state check
    rw [hstep] at hgrows
    exact hgrows.trans ih

/-- The same objects were looked at, with more schemas registered, all of them in `top`. -/
structure Ahead (top : Registry) (state state' : Checking) : Prop where
  visited : state'.visited = state.visited
  registry : state.registry.Within state'.registry
  top : state'.registry.Within top

/-- Checks that hold in the first configuration hold in the second one too, in a state that is ahead, and look at
    the same objects, if those are kept. -/
def Repeats (catalogue : Catalogue) (a b : Config) (top : Registry) (kept : String → Prop) (state : Checking)
    (checks : List Check) : Prop :=
  ∀ final state', Ahead top state state' → state.run catalogue a checks = (true, final) →
    final.registry.Within top → (∀ pair ∈ final.visited, kept pair.1 ∨ pair ∈ state.visited) →
    (∀ owner field, Check.field owner field ∈ checks → kept owner) →
    ∃ final', state'.run catalogue b checks = (true, final') ∧ Ahead top final final'

section

/- The second configuration has all names of the first, and under those that are `kept` all that is stored
there. -/
variable {kept : String → Prop} (hnames : ∀ name, a.contains name → b.contains name)
  (hkept : ∀ name field, kept name → a.contains name → b.raw? name field = a.raw? name field)
include hnames hkept

/-- **A check that passes does so later**, if it is about an object that is kept, and the same checks remain
    in its place. -/
theorem step_mono (hahead : Ahead top state state')
    (hstep : state.step catalogue a check = (next, some more)) (htop : next.registry.Within top)
    (hvisited : ∀ pair ∈ next.visited, kept pair.1 ∨ pair ∈ state.visited)
    (hfield : ∀ owner field, check = .field owner field → kept owner) :
    ∃ next', state'.step catalogue b check = (next', some more) ∧ Ahead top next next' ∧
      ∀ owner field, Check.field owner field ∈ more → kept owner := by
  cases passes_of_step hstep 0 with
  | @known name ref schema found known =>
    have hpasses : Passes catalogue b 0 state' (.object name ref) state' [] :=
      .known found (hahead.visited ▸ known)
    exact ⟨state', hpasses.step_eq, hahead, fun _ _ h => absurd h List.not_mem_nil⟩
  | @opened name ref schema registry found new registered tag =>
    -- the object is looked at now, so it is one of those that are kept
    have hname : kept name := (hvisited _ List.mem_cons_self).resolve_right new
    obtain ⟨stored, hstored, hthere, hassignable⟩ := tag
    obtain ⟨object, hget, -⟩ := Option.bind_eq_some_iff.1 hstored
    have htag : b.typeTag? name = a.typeTag? name := by
      rw [typeTag?_eq, typeTag?_eq, hkept name _ hname (SortedMap.contains_iff.2 ⟨object, hget⟩)]
    obtain ⟨registry', registered', hwithin, htop'⟩ :=
      Registry.addAll_mono hahead.registry hahead.top registered htop
    have hresolve : registry'.resolve b name schema.tag = .ok stored :=
      Registry.resolve_mono hwithin htag (Registry.resolve_eq_ok_iff.2 ⟨hstored, hthere, hassignable⟩)
    have new' : (name, schema.tag) ∉ state'.visited := hahead.visited ▸ new
    have hpasses : Passes catalogue b 0 state' (.object name ref)
        ⟨registry', (name, schema.tag) :: state'.visited⟩ (schema.fields.map (.field name)) :=
      .opened found new' registered' ⟨stored, Registry.resolve_eq_ok_iff.1 hresolve⟩
    refine ⟨_, hpasses.step_eq, ⟨by rw [hahead.visited], hwithin, htop'⟩, ?_⟩
    intro owner field hmem
    obtain ⟨_, -, heq⟩ := List.mem_map.1 hmem
    cases heq
    exact hname
  | @reads owner field x hread =>
    have hthere := FieldKind.contains_of_read hread
    have hread' : field.kind.read 0 b owner field.name = .ok x :=
      FieldKind.read_mono hnames (fun stored _ => hkept owner stored (hfield owner field rfl) hthere) hread
    refine ⟨state', (Passes.reads hread').step_eq, hahead, ?_⟩
    intro owner' field' hmem
    obtain ⟨_, -, heq⟩ := List.mem_map.1 hmem
    cases heq

/-- Both runs are at the same check, the second one with more schemas registered. -/
theorem Repeats.cons (hstep : state.step catalogue a check = (next, some more))
    (h : Repeats catalogue a b top kept next (more ++ rest)) :
    Repeats catalogue a b top kept state (check :: rest) := by
  intro final state' hahead hrun htop hvisited hfields
  rw [run_cons, hstep] at hrun
  dsimp only at hrun
  have hgrows : Grows state next := by
    have hgrows := grows_step catalogue a state check
    rwa [hstep] at hgrows
  have hrest : Grows next final := by
    have hrest := grows_run catalogue a next (more ++ rest)
    rwa [hrun] at hrest
  obtain ⟨next', hstep', hahead', hmore⟩ := step_mono hnames hkept hahead hstep
    (hrest.registry.trans htop) (fun pair hpair => hvisited pair (hrest.visited pair hpair))
    (fun owner field heq => hfields owner field (heq ▸ List.mem_cons_self))
  have hfields' : ∀ owner field, Check.field owner field ∈ more ++ rest → kept owner := by
    intro owner field hmem
    rcases List.mem_append.1 hmem with hmem | hmem
    · exact hmore owner field hmem
    · exact hfields owner field (List.mem_cons_of_mem _ hmem)
  obtain ⟨final', hrun', hfinal⟩ := h final next' hahead' hrun htop
    (fun pair hpair => (hvisited pair hpair).imp_right (hgrows.visited pair)) hfields'
  refine ⟨final', ?_, hfinal⟩
  rw [run_cons, hstep']
  exact hrun'

/-- **Checks that held still hold, and look at the same objects**, if these are kept. -/
theorem repeats (catalogue : Catalogue) (top : Registry) (state : Checking) (checks : List Check) :
    Repeats catalogue a b top kept state checks := by
  refine run_induction (P := fun state checks _ => Repeats catalogue a b top kept state checks) ?_ ?_
    (fun hstep ih => ih.cons hnames hkept hstep) state checks
  · intro state final state' hahead hrun _ _ _
    rw [run] at hrun
    cases hrun
    exact ⟨state', by rw [run], hahead⟩
  · intro state next check rest hstep final state' _ hrun
    rw [run_cons, hstep] at hrun
    cases hrun

end

end Checking

/-! ## Sessions -/

/-- What could be read in a store of the session can be read in that store of the later one, the `changed`
    fields of objects excepted. A check may be made with the schemas that were registered before it was made
    first, or at any time after that. -/
structure Session.KeepsReadable (session later : Session) (id : StoreId)
    (changed : List (String × String)) : Prop where
  /-- A field that could be read is read as the same. -/
  reads : ∀ (name : String) (field : FieldDecl) (x : field.kind.Carrier),
    (∀ stored ∈ field.kind.storedIn field.name, (name, stored) ∉ changed) →
    field.Reads session ⟨id, name⟩ x → field.Reads later ⟨id, name⟩ x
  /-- A check that held still holds, and looks at the same objects, none of which has changed. -/
  checks : ∀ (catalogue : Catalogue) (schema : Schema) (name : String)
    (visited visited' : List (String × String)) (after : Session),
    (schema.checkFrom catalogue ⟨id, name⟩ visited).outcome session = (.ok (true, visited'), after) →
    (∀ pair ∈ visited', pair ∈ visited ∨ ∀ stored, (pair.1, stored) ∉ changed) →
    later.registry = session.registry ∨ after.registry.Within later.registry →
    ((schema.checkFrom catalogue ⟨id, name⟩ visited).outcome later).1 = .ok (true, visited')

theorem Schema.outcome_checkFrom (catalogue : Catalogue) (schema : Schema) (walker : Walker)
    (visited : List (String × String)) (session : Session) :
    (schema.checkFrom catalogue walker visited).outcome session =
      let result := schema.validate catalogue (session.contents walker) ⟨session.registry, visited⟩
        walker.name
      (.ok (result.1, result.2.visited), { session with registry := result.2.registry }) := rfl

theorem Schema.outcome_check_eq (catalogue : Catalogue) (schema : Schema) (walker : Walker)
    (session : Session) :
    (schema.check catalogue walker).outcome session =
      (((schema.checkFrom catalogue walker []).outcome session).1.map Prod.fst,
        ((schema.checkFrom catalogue walker []).outcome session).2) := rfl

/-- What is needed for this of the two stores. -/
theorem keepsReadable_of_raw? {session later : Session} {id : StoreId} {changed : List (String × String)}
    (hnames : ∀ name, (session.stores.get id).contains name → (later.stores.get id).contains name)
    (hraw : ∀ name field, (name, field) ∉ changed → (session.stores.get id).contains name →
      Config.raw? (later.stores.get id) name field = Config.raw? (session.stores.get id) name field) :
    session.KeepsReadable later id changed := by
  constructor
  case reads =>
    intro name field x hunchanged hread
    rw [FieldDecl.reads_iff] at hread ⊢
    refine FieldKind.read_mono hnames ?_ hread
    intro stored hstored
    exact hraw name stored (hunchanged stored hstored) (FieldKind.contains_of_read hread)
  case checks =>
    intro catalogue schema name visited visited' after hcheck hunchanged hregistry
    rw [Schema.outcome_checkFrom] at hcheck ⊢
    generalize hrun : schema.validate catalogue (session.contents ⟨id, name⟩)
      ⟨session.registry, visited⟩ name = result at hcheck
    obtain ⟨valid, final⟩ := result
    cases hcheck
    -- all that is registered now or was registered by the first check is registered in one of the two
    have hgrown := (Checking.grows_run catalogue (session.contents ⟨id, name⟩)
      ⟨session.registry, visited⟩ [.object name schema.ref]).registry
    have htop : ∃ top, session.registry.Within later.registry ∧ later.registry.Within top ∧
        final.registry.Within top := by
      rw [Schema.validate] at hrun
      rw [hrun] at hgrown
      rcases hregistry with hsame | hlater
      · rw [hsame]
        exact ⟨final.registry, .refl _, hgrown, .refl _⟩
      · exact ⟨later.registry, hgrown.trans hlater, .refl _, hlater⟩
    obtain ⟨top, hwithin, hlater, hfinal⟩ := htop
    have hkept : ∀ name field, (∀ stored, (name, stored) ∉ changed) →
        (session.stores.get id).contains name →
        Config.raw? (later.stores.get id) name field = Config.raw? (session.stores.get id) name field :=
      fun name field hname hthere => hraw name field (hname field) hthere
    have hstart : Checking.Ahead top ⟨session.registry, visited⟩ ⟨later.registry, visited⟩ :=
      ⟨rfl, hwithin, hlater⟩
    have hfields : ∀ owner field, Check.field owner field ∈ [Check.object name schema.ref] →
        ∀ stored, (owner, stored) ∉ changed := by
      intro owner field hmem
      cases List.mem_singleton.1 hmem
    obtain ⟨final', hrun', hahead⟩ := Checking.repeats hnames hkept catalogue top _ _ final _ hstart hrun
      hfinal (fun pair hpair => (hunchanged pair hpair).symm) hfields
    have hlaterRun : schema.validate catalogue (later.contents ⟨id, name⟩) ⟨later.registry, visited⟩ name
        = (true, final') := hrun'
    rw [hlaterRun]
    show Except.ok (true, final'.visited) = _
    rw [hahead.visited]

/-- Nothing changes for objects that stay as they are. -/
theorem keepsReadable_of_within {session later : Session} {id : StoreId}
    (h : Config.Within (session.stores.get id) (later.stores.get id)) :
    session.KeepsReadable later id [] := by
  have hget : ∀ name, (session.stores.get id).contains name →
      (later.stores.get id).get? name = (session.stores.get id).get? name := by
    intro name hthere
    obtain ⟨object, hobject⟩ := SortedMap.contains_iff.1 hthere
    rw [hobject, h name object hobject]
  apply keepsReadable_of_raw?
  · intro name hthere
    rwa [Config.Alike.contains_eq (hget name hthere)]
  · intro name field _ hthere
    exact Config.raw?_eq (hget name hthere) field

/-- The other fields of an object stay as they are when one is written. -/
theorem FieldValue.get?_writeInto_of_ne (v : FieldValue) {field other : String} (h : other ≠ field)
    (object : Object) : (v.writeInto field object).get? other = object.get? other := by
  rw [writeInto]
  cases v.stored? with
  | some value => rw [OrderedMap.get?_insert, if_neg h]
  | none => rw [OrderedMap.get?_erase, if_neg h]

/-- A write changes the field that is written, and nothing else that was there. -/
theorem keepsReadable_of_write {session : Session} {owner : Walker} {field : String} {v : FieldValue}
    {after : Stores} (h : session.stores.write owner field v = .ok after) :
    session.KeepsReadable { session with stores := after } owner.store [(owner.name, field)] := by
  obtain ⟨imported, -, hthere, hapart, rfl⟩ := Stores.write_eq_ok_iff.1 h
  have hunion := Config.within_union_left hapart
  -- what was there is found in the union, the owner with its field written
  have hget : ∀ name object, (session.stores.get owner.store).get? name = some object →
      ((session.stores.set owner.store (Config.editObject
        ((session.stores.get owner.store).union imported) owner.name (v.writeInto field))).get
          owner.store).get? name
        = some (if name = owner.name then v.writeInto field object else object) := by
    intro name object hobject
    rw [Stores.get_set_self hthere, Config.get?_editObject, hunion name object hobject]
    split <;> rfl
  apply keepsReadable_of_raw?
  · intro name hname
    obtain ⟨object, hobject⟩ := SortedMap.contains_iff.1 hname
    exact SortedMap.contains_iff.2 ⟨_, hget name object hobject⟩
  · intro name other hunchanged hname
    obtain ⟨object, hobject⟩ := SortedMap.contains_iff.1 hname
    rw [Config.raw?, Config.raw?, hget name object hobject, hobject]
    show (if name = owner.name then v.writeInto field object else object).get? other = object.get? other
    split
    · next hsame =>
      have hne : other ≠ field := by
        rintro rfl
        exact hunchanged (List.mem_singleton.2 (by rw [hsame]))
      exact v.get?_writeInto_of_ne hne object
    · rfl

/-- **Adding objects never breaks what was readable.** Objects whose names are free can be merged into a
    store. Whatever could be read there before can be read in any later session whose store holds what the
    merge gives: each field as the same, and each view that was valid is valid. When a field is written, what it
    refers to is merged in that way, and all but the field that is written can be read as before. -/
theorem growth_keeps_readable (session : Session) (id : StoreId) :
    (∀ added : Config, Config.Apart (session.stores.get id) added →
      ∃ merged, (session.stores.get id).merge added = .ok merged ∧
        ∀ later : Session, later.stores.get id = merged →
          session.KeepsReadable later id [] ∧
          ∀ (catalogue : Catalogue) (schema : Schema) (name : String) (after : Session),
            (schema.check catalogue ⟨id, name⟩).outcome session = (.ok true, after) →
            later.registry = session.registry ∨ after.registry.Within later.registry →
            ((schema.check catalogue ⟨id, name⟩).outcome later).1 = .ok true) ∧
    ∀ (name field : String) (v : FieldValue) (later : Session),
      (Action.setField ⟨id, name⟩ field v).outcome session = (.ok (), later) →
        (∃ imported, session.stores.imports id v.walkers = .ok imported ∧
          Config.Apart (session.stores.get id) imported) ∧
        session.KeepsReadable later id [(name, field)] := by
  constructor
  case left =>
    intro added hapart
    refine ⟨_, Config.merge_eq_ok_iff.2 ⟨hapart, rfl⟩, ?_⟩
    intro later hlater
    have hwithin : Config.Within (session.stores.get id) (later.stores.get id) := by
      rw [hlater]
      exact Config.within_union_left hapart
    have hkeeps : session.KeepsReadable later id [] := keepsReadable_of_within hwithin
    refine ⟨hkeeps, ?_⟩
    intro catalogue schema name after hcheck hregistry
    rw [Schema.outcome_check_eq] at hcheck ⊢
    cases hfrom : (schema.checkFrom catalogue ⟨id, name⟩ []).outcome session with
    | mk result after' =>
      rw [hfrom] at hcheck
      cases result with
      | error e => cases hcheck
      | ok answer =>
        obtain ⟨valid, visited⟩ := answer
        cases hcheck
        have hlaterFrom := hkeeps.checks catalogue schema name [] visited after' hfrom
          (fun _ _ => Or.inr fun _ => List.not_mem_nil) hregistry
        rw [hlaterFrom]
        rfl
  case right =>
    intro name field v later hset
    rw [Action.outcome_setField] at hset
    cases hwrite : session.stores.write ⟨id, name⟩ field v with
    | error e =>
      rw [hwrite] at hset
      cases hset
    | ok stores =>
      rw [hwrite] at hset
      cases hset
      obtain ⟨imported, himports, -, hapart, -⟩ := Stores.write_eq_ok_iff.1 hwrite
      exact ⟨⟨imported, himports, hapart⟩, keepsReadable_of_write hwrite⟩

/-- A schema whose objects hold a text, and may refer to an object of the same schema. -/
def noteSchema : Schema := .declare "Note" "note"
  [⟨"text", .single (.scalar .text)⟩, ⟨"next", .optional (.object ⟨"Note", "note"⟩)⟩]

def noteText : FieldDecl := ⟨"text", .single (.scalar .text)⟩

/-- An object whose text is the name of no object. -/
def noteConfig : Config := .ofStatements [⟨"a", "type", .text "note"⟩, ⟨"a", "text", .text "b"⟩]

/-- An object of that name, whose text is the name of the first one. -/
def otherNoteConfig : Config := .ofStatements [⟨"b", "type", .text "note"⟩, ⟨"b", "text", .text "a"⟩]

def grownNoteConfig : Config := noteConfig.union otherNoteConfig

def noteSession : Session := ⟨⟨[noteConfig]⟩, (Registry.register ∅ noteSchema).1, 0⟩

def grownNoteSession : Session :=
  { noteSession with stores := ⟨[grownNoteConfig]⟩ }

/-- The text of the first object is resolved to the second one when that is added, and still reads as the
    same text; the first object was valid and is valid. -/
theorem growth_keeps_note :
    noteConfig.required "a" "text" = .ok (.text "b") ∧
    grownNoteConfig.required "a" "text" = .ok (.object "b") ∧
    noteConfig.merge otherNoteConfig = .ok grownNoteConfig ∧
    noteText.Reads grownNoteSession ⟨0, "a"⟩ "b" ∧
    ((noteSchema.check [noteSchema] ⟨0, "a"⟩).outcome grownNoteSession).1 = .ok true := by
  have hmerge : noteConfig.merge otherNoteConfig = .ok grownNoteConfig := by
    decide +kernel
  have hcheck : ((noteSchema.check [noteSchema] ⟨0, "a"⟩).outcome noteSession).1 = .ok true := by
    have hfits : fitsWithin [noteSchema] noteConfig noteSession.registry 0 [("a", noteSchema)] = true := by
      decide +kernel
    have hregistered : ∀ schema ∈ [noteSchema], noteSession.registry.Registered schema := by
      have hget : ∀ schema ∈ [noteSchema], ∀ entry ∈ schema.entries,
          (noteSession.registry.get? entry.tag).map SchemaEntry.key = some entry.key := by
        decide +kernel
      intro schema hmem entry hentry
      exact Option.map_eq_some_iff.1 (hget schema hmem entry hentry)
    exact (outcome_check_iff (by decide)
      (fun schema involved => hregistered schema (involved.mem List.mem_cons_self))).2
        (deeplyValid_of_fitsWithin hfits List.mem_cons_self)
  have hreads : noteText.Reads noteSession ⟨0, "a"⟩ "b" :=
    FieldDecl.reads_iff.2 rfl
  obtain ⟨hgrowth, -⟩ := growth_keeps_readable noteSession 0
  obtain ⟨merged, hmerged, hlater⟩ := hgrowth otherNoteConfig (Config.merge_eq_ok_iff.1 hmerge).1
  have hstore : grownNoteSession.stores.get 0 = merged := Except.ok.inj (hmerge.symm.trans hmerged)
  obtain ⟨hkeeps, hchecks⟩ := hlater grownNoteSession hstore
  refine ⟨by decide +kernel, by decide +kernel, hmerge, ?_, ?_⟩
  · exact hkeeps.reads "a" noteText "b" (fun _ _ => List.not_mem_nil) hreads
  · exact hchecks [noteSchema] noteSchema "a" _ (Prod.ext hcheck rfl) (Or.inl rfl)

end GraphWire
