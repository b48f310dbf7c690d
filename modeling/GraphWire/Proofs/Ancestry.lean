import GraphWire.Proofs.Registration

/-!
# `Proofs.Ancestry` — an object that is valid under a schema is valid under the ancestors of it

A schema has all fields of its parent, and its tag is assignable to that of the parent as soon as it is
registered, so whatever fits a schema fits the parent too, if what it refers to does. This is not yet an
argument about the two checks: they mark different pairs as looked at, so they do not make the same checks,
and on a cycle they stop at different places. What they have in common is the relation that a check leaves
behind when it succeeds. It holds of the pairs that were looked at, and everything in it fits; together with
the object under the ancestor it is such a relation again, and a check that a relation of this kind backs
cannot fail.

Schemas are registered as the check comes to them, which is why the relation has to remember of each schema
that it is registered now. A tag that is registered late in the first check may be needed early in the second,
so the ancestor is asked where all is registered that the first check has registered. And a pair is marked by
the tag of the schema: of two schemas with one tag, the first check may leave out what the second one looks at.
Schemas of which all are registered have no tag in common, and then one check can stand in for the other.

## Contents
- **Lines.** `Schema.Extends`, and what a schema shares with its ancestors.
- **Tags.** `Catalogue.Unambiguous`, and `Registry.Founded.leads_up`.
- **What a check leaves behind.** `Checking.Leaves`, kept by each check, and `Checking.leaves_run`;
  `Checking.runWithin`, checks with a bound on the steps.
- **`ancestor_valid_of_valid`**, the result, and **`valid_but_not_under_ancestor`** for what it leaves out.
-/

namespace GraphWire

/-! ## Lines of schemas -/

namespace Schema

/-- The second schema is the parent of the first one. -/
def Extends (schema parent : Schema) : Prop := schema.parent? = some parent

/-- The second schema is above the first one, at any height. -/
abbrev Descends : Schema → Schema → Prop := Relation.TransGen Extends

variable {schema parent : Schema}

theorem Extends.fields_subset (h : schema.Extends parent) : parent.fields ⊆ schema.fields := by
  obtain ⟨own, ancestors⟩ := schema
  cases ancestors with
  | nil => cases h
  | cons above ancestors =>
    cases h
    intro field hfield
    show field ∈ (above :: ancestors).reverse.flatMap Layer.fields ++ own.fields
    rw [List.reverse_cons, List.flatMap_append, List.flatMap_singleton]
    exact List.mem_append_left _ hfield

/-- An ancestor declares none but fields of the schema. -/
theorem Descends.fields_subset {ancestor : Schema} (h : schema.Descends ancestor) :
    ancestor.fields ⊆ schema.fields := by
  induction h with
  | single h => exact h.fields_subset
  | tail _ h ih => exact List.Subset.trans h.fields_subset ih

theorem Declared.parentTag_eq (hdeclared : schema.Declared) (h : schema.Extends parent) :
    schema.parentTag = some parent.tag := by
  cases hdeclared with
  | declare key tag fields => cases h
  | extend declared key tag fields =>
    cases h
    rfl

end Schema

/-! ## Tags -/

/-- Schemas that a check under the schema can come to are told apart by their tags. -/
def Catalogue.Unambiguous (catalogue : Catalogue) (schema : Schema) : Prop :=
  ∀ T T', catalogue.Involves schema T → catalogue.Involves schema T' → T.tag = T'.tag → T = T'

namespace Registry

variable {catalogue : Catalogue} {registry later : Registry} {schema parent ancestor : Schema}

/-- **Schemas of which all are registered are told apart by their tags.** -/
theorem unambiguous_of_registered (hfind : catalogue.find? schema.key = some schema)
    (hregistered : ∀ T, catalogue.Involves schema T → registry.Registered T) :
    catalogue.Unambiguous schema := by
  intro T T' hT hT' htag
  have hkey : T.key = T'.key := (hregistered T hT).key_eq (hregistered T' hT') htag
  have hsame := hT.find? hfind
  rw [hkey, hT'.find? hfind] at hsame
  exact (Option.some.inj hsame).symm

theorem Registered.mono (h : registry.Registered schema) (hwithin : registry.Within later) :
    later.Registered schema := by
  intro entry hentry
  obtain ⟨holder, hget, hkey⟩ := h entry hentry
  exact ⟨holder, hwithin _ _ hget, hkey⟩

/-- The tag of an entry that could be added is held by its schema. -/
theorem exists_of_add {e : SchemaEntry} (h : registry.add e = .ok later) :
    ∃ holder, later.get? e.tag = some holder ∧ holder.key = e.key := by
  rcases add_eq_ok_iff.1 h with ⟨-, rfl⟩ | ⟨holder, hget, hkey, rfl⟩
  · exact ⟨e, by rw [SortedMap.get?_insert, if_pos rfl], rfl⟩
  · exact ⟨holder, hget, hkey⟩

theorem registered_of_addAll {entries : List SchemaEntry} (h : registry.addAll entries = (later, .ok ())) :
    ∀ e ∈ entries, ∃ holder, later.get? e.tag = some holder ∧ holder.key = e.key := by
  induction entries generalizing registry with
  | nil => exact fun _ he => absurd he List.not_mem_nil
  | cons e entries ih =>
    rw [addAll] at h
    cases hadd : registry.add e with
    | error fault =>
      rw [hadd] at h
      cases h
    | ok grown =>
      rw [hadd] at h
      dsimp only at h
      -- what is added behind it leaves the first entry where it is
      have hwithin : grown.Within later := by
        have hwithin := within_addAll grown entries
        rwa [h] at hwithin
      obtain ⟨holder, hget, hkey⟩ := exists_of_add hadd
      exact List.forall_mem_cons.2 ⟨⟨holder, hwithin _ _ hget, hkey⟩, ih h⟩

/-- A schema that could be registered is registered. -/
theorem registered_of_register (h : registry.register schema = (later, .ok ())) : later.Registered schema :=
  registered_of_addAll h

namespace Founded

/-- A registered schema has its own entry under its tag. -/
theorem get?_of_registered (hlawful : catalogue.Lawful) (h : registry.Founded catalogue)
    (hmem : schema ∈ catalogue) (hregistered : registry.Registered schema) :
    registry.get? schema.tag = some schema.entry := by
  obtain ⟨holder, hget, hkey⟩ := hregistered _ (entry_mem_entries schema)
  obtain ⟨rfl, -⟩ := h.eq_entry hlawful hmem hget hkey
  exact hget

theorem registered_of_get? (hlawful : catalogue.Lawful) (h : registry.Founded catalogue)
    (hmem : schema ∈ catalogue) (hget : registry.get? schema.tag = some schema.entry) :
    registry.Registered schema :=
  fun entry hentry => ⟨entry, h.holds_line hlawful hmem hget entry hentry, rfl⟩

/-- The tag of a registered schema leads to the parent, which is registered too. -/
theorem leads_to_parent (hlawful : catalogue.Lawful) (h : registry.Founded catalogue)
    (hmem : schema ∈ catalogue) (hget : registry.get? schema.tag = some schema.entry)
    (hparent : schema.Extends parent) :
    registry.IsParent schema.tag parent.tag ∧ registry.get? parent.tag = some parent.entry := by
  have htag : schema.entry.parentTag = some parent.tag :=
    (hlawful.declared schema hmem).parentTag_eq hparent
  obtain ⟨other, hother, hentry, -, hup⟩ := h _ _ hget
  obtain rfl := hlawful.key other hother schema hmem (congrArg SchemaEntry.key hentry)
  obtain ⟨above, -, habove, hthere⟩ := hup _ htag
  cases habove.symm.trans hparent
  exact ⟨Option.bind_eq_some_iff.2 ⟨_, hget, htag⟩, hthere⟩

/-- **The tag of a registered schema leads to all ancestors**, and these are registered. -/
theorem leads_up (hlawful : catalogue.Lawful) (h : registry.Founded catalogue)
    (hmem : schema ∈ catalogue) (hregistered : registry.Registered schema)
    (hline : schema.Descends ancestor) :
    ancestor ∈ catalogue ∧ registry.Registered ancestor ∧
      registry.isAssignable schema.tag ancestor.tag = true := by
  have hget := h.get?_of_registered hlawful hmem hregistered
  have hup : ancestor ∈ catalogue ∧ registry.get? ancestor.tag = some ancestor.entry ∧
      Relation.ReflTransGen registry.IsParent schema.tag ancestor.tag := by
    induction hline with
    | single hparent =>
      obtain ⟨htag, hthere⟩ := h.leads_to_parent hlawful hmem hget hparent
      exact ⟨hlawful.parent _ hmem _ hparent, hthere, .single htag⟩
    | tail _ hparent ih =>
      obtain ⟨hmem', hget', hleads⟩ := ih
      obtain ⟨htag, hthere⟩ := h.leads_to_parent hlawful hmem' hget' hparent
      exact ⟨hlawful.parent _ hmem' _ hparent, hthere, hleads.tail htag⟩
  obtain ⟨hancestor, hthere, hleads⟩ := hup
  exact ⟨hancestor, h.registered_of_get? hlawful hancestor hthere, isAssignable_iff.2 hleads⟩

end Founded

end Registry

/-! ## What a check leaves behind -/

section

variable {catalogue : Catalogue} {config : Config} {registry later : Registry} {store : StoreId}
  {R R' : String → Schema → Prop} {name expected : String} {schema : Schema}

theorem HasTag.mono (h : HasTag config registry name expected) (hwithin : registry.Within later) :
    HasTag config later name expected := by
  obtain ⟨tag, hstored, hthere, hassignable⟩ := h
  obtain ⟨entry, hget⟩ := SortedMap.contains_iff.1 hthere
  exact ⟨tag, hstored, SortedMap.contains_iff.2 ⟨entry, hwithin _ _ hget⟩,
    Registry.isAssignable_mono hwithin hassignable⟩

/-- The tag of an object that has one is assignable to whatever that one is assignable to. -/
theorem HasTag.above {top : String} (h : HasTag config registry name expected)
    (htop : registry.isAssignable expected top = true) : HasTag config registry name top := by
  obtain ⟨tag, hstored, hthere, hassignable⟩ := h
  exact ⟨tag, hstored, hthere, Registry.isAssignable_trans hassignable htop⟩

theorem FieldFits.mono {field : FieldDecl} (h : FieldFits catalogue config store R name field)
    (hR : ∀ m T, R m T → R' m T) : FieldFits catalogue config store R' name field := by
  obtain ⟨x, hread, hreferences⟩ := h
  refine ⟨x, hread, ?_⟩
  intro target ref hmem
  obtain ⟨T, hfind, hT⟩ := hreferences target ref hmem
  exact ⟨T, hfind, hR target T hT⟩

/-- What fits still fits when schemas are registered and the relation holds of more. -/
theorem Fits.mono (h : Fits catalogue config registry store R name schema)
    (hwithin : registry.Within later) (hR : ∀ m T, R m T → R' m T) :
    Fits catalogue config later store R' name schema :=
  ⟨h.tag.mono hwithin, fun field hfield => (h.field field hfield).mono hR⟩

/-- The relation under which an object fits a schema holds of the ancestors too. -/
theorem Fits.ancestor {ancestor : Schema} (h : Fits catalogue config registry store R name schema)
    (hline : schema.Descends ancestor) (htag : registry.isAssignable schema.tag ancestor.tag = true) :
    Fits catalogue config registry store R name ancestor :=
  ⟨h.tag.above htag, fun field hfield => h.field field (hline.fields_subset hfield)⟩

end

namespace Checking

variable {catalogue : Catalogue} {config : Config} {store : StoreId} {root : Schema}
  {state next final : Checking} {check : Check} {checks more rest : List Check}

/-- The object was looked at under the schema, which is one that the check can come to. -/
def Met (catalogue : Catalogue) (root : Schema) (final : Checking) (name : String) (schema : Schema) : Prop :=
  catalogue.Involves root schema ∧ (name, schema.tag) ∈ final.visited

/-- What the checks leave behind that lead from one state to another: they are backed by what was looked at in
    the end, and what was looked at on the way fits, with its schema registered. -/
structure Leaves (catalogue : Catalogue) (config : Config) (store : StoreId) (root : Schema)
    (state : Checking) (checks : List Check) (final : Checking) : Prop where
  grows : Grows state final
  backed : ∀ c ∈ checks, Backed catalogue config store (Met catalogue root final) c
  fits : ∀ name schema, Met catalogue root final name schema → (name, schema.tag) ∈ state.visited ∨
    final.registry.Registered schema ∧
      Fits catalogue config final.registry store (Met catalogue root final) name schema

/-- **A check that passes adds to what is left behind.** -/
theorem Leaves.cons (hunambiguous : catalogue.Unambiguous root)
    (hpasses : Passes catalogue config store state check next more)
    (hconcerns : Concerns catalogue root check)
    (h : Leaves catalogue config store root next (more ++ rest) final) :
    Leaves catalogue config store root state (check :: rest) final := by
  obtain ⟨hmore, hrest⟩ := List.forall_mem_append.1 h.backed
  cases hpasses with
  | known found known =>
    exact ⟨h.grows, List.forall_mem_cons.2 ⟨⟨_, found, hconcerns _ found, h.grows.visited _ known⟩, hrest⟩,
      h.fits⟩
  | @opened opened ref T registry found new registered tag =>
    have hwithin : state.registry.Within registry := by
      have hwithin := Registry.within_addAll state.registry T.entries
      rw [Registry.register] at registered
      rwa [registered] at hwithin
    have hmet : Met catalogue root final opened T :=
      ⟨hconcerns T found, h.grows.visited _ List.mem_cons_self⟩
    refine ⟨⟨hwithin.trans h.grows.registry,
      fun pair hpair => h.grows.visited pair (List.mem_cons_of_mem _ hpair)⟩,
      List.forall_mem_cons.2 ⟨⟨T, found, hmet⟩, hrest⟩, ?_⟩
    intro name schema hname
    rcases h.fits name schema hname with hvisited | hfits
    · rcases List.mem_cons.1 hvisited with hnew | hvisited
      · -- the tag belongs to one schema only, so this is the pair that was opened
        obtain ⟨rfl, htag⟩ := Prod.mk.inj hnew
        obtain rfl := hunambiguous schema T hname.1 hmet.1 htag
        refine Or.inr ⟨(Registry.registered_of_register registered).mono h.grows.registry,
          tag.mono h.grows.registry, ?_⟩
        intro field hfield
        exact hmore _ (List.mem_map.2 ⟨field, hfield, rfl⟩)
      · exact Or.inl hvisited
    · exact Or.inr hfits
  | @reads owner field x hread =>
    refine ⟨h.grows, List.forall_mem_cons.2 ⟨⟨x, hread, ?_⟩, hrest⟩, h.fits⟩
    intro target ref hmem
    exact hmore _ (List.mem_map.2 ⟨(target, ref), hmem, rfl⟩)

/-- **A run that succeeds** is backed by what it has looked at. -/
theorem leaves_run (hunambiguous : catalogue.Unambiguous root) (store : StoreId)
    (hconcerns : ∀ c ∈ checks, Concerns catalogue root c)
    (hrun : state.run catalogue config checks = (true, final)) :
    Leaves catalogue config store root state checks final := by
  have hall : (state.run catalogue config checks).1 = true → (∀ c ∈ checks, Concerns catalogue root c) →
      Leaves catalogue config store root state checks (state.run catalogue config checks).2 := by
    apply run_induction (P := fun state checks result => result.1 = true →
      (∀ c ∈ checks, Concerns catalogue root c) → Leaves catalogue config store root state checks result.2)
    · intro state _ _
      exact ⟨.refl state, fun _ h => absurd h List.not_mem_nil, fun _ _ hmet => Or.inl hmet.2⟩
    · intro state next check rest _ hfalse
      cases hfalse
    · intro state next check rest more result hstep ih htrue hconcerns
      obtain ⟨hcheck, hrest⟩ := List.forall_mem_cons.1 hconcerns
      have hpasses := passes_of_step hstep store
      exact (ih htrue (List.forall_mem_append.2 ⟨hpasses.concerns hcheck, hrest⟩)).cons hunambiguous
        hpasses hcheck
  rw [hrun] at hall
  exact hall rfl hconcerns

/-- The checks in turn, if the number of steps is enough for them. -/
def runWithin (catalogue : Catalogue) (config : Config) : Nat → Checking → List Check → Option (Bool × Checking)
  | _, state, [] => some (true, state)
  | 0, _, _ :: _ => none
  | steps + 1, state, check :: rest =>
    match state.step catalogue config check with
    | (next, none) => some (false, next)
    | (next, some more) => runWithin catalogue config steps next (more ++ rest)

theorem run_of_runWithin (steps : Nat) {result : Bool × Checking}
    (h : runWithin catalogue config steps state checks = some result) :
    state.run catalogue config checks = result := by
  fun_induction runWithin catalogue config steps state checks with
  | case1 steps state =>
    rw [run]
    exact Option.some.inj h
  | case2 state check rest => cases h
  | case3 steps state check rest next hstep =>
    rw [run_cons, hstep]
    exact Option.some.inj h
  | case4 steps state check rest next more hstep ih =>
    rw [run_cons, hstep]
    exact ih h

end Checking

/-! ## The result -/

section

open Checking

variable {catalogue : Catalogue} {session after : Session} {walker : Walker} {schema ancestor : Schema}

/-- What a check answers is told by the run of the checks, which may have registered schemas. -/
theorem outcome_check_eq_iff {valid : Bool} :
    (schema.check catalogue walker).outcome session = (.ok valid, after) ↔
      ∃ final, Checking.run catalogue (session.contents walker) ⟨session.registry, []⟩
        [.object walker.name schema.ref] = (valid, final) ∧
        { session with registry := final.registry } = after := by
  rw [Schema.outcome_check_eq, Schema.outcome_checkFrom]
  generalize hrun : schema.validate catalogue (session.contents walker) ⟨session.registry, []⟩ walker.name
    = result
  obtain ⟨answer, state⟩ := result
  rw [Schema.validate] at hrun
  rw [hrun]
  constructor
  · intro h
    cases h
    exact ⟨state, rfl, rfl⟩
  · rintro ⟨final, hfinal, rfl⟩
    cases hfinal
    rfl

/-- **A check succeeds if a relation backs it** in which everything fits, with its schema registered. -/
theorem check_of_fits {R : String → Schema → Prop} (hfind : catalogue.find? schema.key = some schema)
    (hR : R walker.name schema) (hfits : ∀ name T, R name T → session.registry.Registered T ∧
      Fits catalogue (session.contents walker) session.registry walker.store R name T) :
    ((schema.check catalogue walker).outcome session).1 = .ok true := by
  rw [Schema.outcome_check, Except.ok.injEq]
  have hsettles : Settles catalogue (session.contents walker)
      (⟨session.registry, []⟩, [.object walker.name schema.ref])
      (schema.validate catalogue (session.contents walker) ⟨session.registry, []⟩ walker.name).1 :=
    settles_run _ _
  refine hsettles.eq_true (fun name T h => (hfits name T h).1) (fun name T h => (hfits name T h).2) rfl ?_
  intro c hc
  cases List.mem_singleton.1 hc
  exact ⟨schema, hfind, hR⟩

/-- A check that succeeds leaves such a relation behind. -/
theorem fits_of_check (hfind : catalogue.find? schema.key = some schema)
    (hunambiguous : catalogue.Unambiguous schema)
    (h : (schema.check catalogue walker).outcome session = (.ok true, after)) :
    ∃ R : String → Schema → Prop, R walker.name schema ∧ ∀ name T, R name T →
      after.registry.Registered T ∧
        Fits catalogue (session.contents walker) after.registry walker.store R name T := by
  obtain ⟨final, hrun, rfl⟩ := outcome_check_eq_iff.1 h
  have hleaves := leaves_run hunambiguous walker.store
    (concerned_start hfind session.registry walker.name).checks hrun
  obtain ⟨T, hT, hmet⟩ := hleaves.backed _ List.mem_cons_self
  cases hfind.symm.trans hT
  refine ⟨Met catalogue schema final, hmet, ?_⟩
  intro name T hname
  exact (hleaves.fits name T hname).resolve_left List.not_mem_nil

/-- **The first step of a check that succeeds** registers the schema, and the object has its tag. -/
theorem opened_of_check (hfind : catalogue.find? schema.key = some schema)
    (h : (schema.check catalogue walker).outcome session = (.ok true, after)) :
    ∃ registry, session.registry.register schema = (registry, .ok ()) ∧ registry.Within after.registry ∧
      HasTag (session.contents walker) registry walker.name schema.tag := by
  obtain ⟨final, hrun, rfl⟩ := outcome_check_eq_iff.1 h
  rw [run_cons] at hrun
  rcases hstep : Checking.step catalogue (session.contents walker) ⟨session.registry, []⟩
    (.object walker.name schema.ref) with ⟨next, - | more⟩
  · rw [hstep] at hrun
    cases hrun
  · rw [hstep] at hrun
    dsimp only at hrun
    have hgrows : Grows next final := by
      have hgrows := grows_run catalogue (session.contents walker) next (more ++ [])
      rwa [hrun] at hgrows
    cases passes_of_step hstep walker.store with
    | known found known => exact absurd known List.not_mem_nil
    | opened found new registered tag =>
      cases hfind.symm.trans found
      exact ⟨_, registered, hgrows.registry, tag⟩

/-- What a check answers, if the number of steps is enough for it. -/
theorem answer_of_runWithin (steps : Nat) {valid : Bool}
    (h : (runWithin catalogue (session.contents walker) steps ⟨session.registry, []⟩
      [.object walker.name schema.ref]).map Prod.fst = some valid) :
    ((schema.check catalogue walker).outcome session).1 = .ok valid := by
  obtain ⟨⟨answer, final⟩, hrun, rfl⟩ := Option.map_eq_some_iff.1 h
  rw [outcome_check_eq_iff.2 ⟨final, run_of_runWithin steps hrun, rfl⟩]

/-- Where all schemas are registered that it can come to, a check registers nothing. -/
theorem registry_check (hfind : catalogue.find? schema.key = some schema)
    (hregistered : ∀ T, catalogue.Involves schema T → session.registry.Registered T) {valid : Bool}
    (h : (schema.check catalogue walker).outcome session = (.ok valid, after)) :
    after.registry = session.registry := by
  obtain ⟨final, hrun, rfl⟩ := outcome_check_eq_iff.1 h
  have hkept : (Checking.run catalogue (session.contents walker) ⟨session.registry, []⟩
      [.object walker.name schema.ref]).2.registry = session.registry :=
    registry_run hregistered (concerned_start hfind session.registry walker.name)
  rwa [hrun] at hkept

/-- The catalogue of a program has one schema to each key. -/
theorem Catalogue.Lawful.find?_of_mem (h : catalogue.Lawful) (hmem : schema ∈ catalogue) :
    catalogue.find? schema.key = some schema := by
  have hsome : (catalogue.find? schema.key).isSome := List.find?_isSome.2 ⟨schema, hmem, decide_eq_true rfl⟩
  obtain ⟨found, hfound⟩ := Option.isSome_iff_exists.1 hsome
  rw [hfound, h.key found (List.mem_of_find?_eq_some hfound) schema hmem (Catalogue.key_of_find? hfound)]

/-- An object with the tag is accepted where the schema is registered. -/
theorem accept_of_hasTag (hregistered : session.registry.Registered schema)
    (htag : HasTag (session.contents walker) session.registry walker.name schema.tag) :
    ((schema.accept walker).outcome session).1 = .ok () := by
  obtain ⟨tag, htag⟩ := htag
  rw [Action.outcome, Schema.accept_of_resolve hregistered (Registry.resolve_eq_ok_iff.2 htag)]

/-- An object that fits a schema, with all it refers to, passes the check under an ancestor. -/
theorem ancestor_check_of_fits {R : String → Schema → Prop}
    (hfind : catalogue.find? ancestor.key = some ancestor) (hline : schema.Descends ancestor)
    (hregistered : session.registry.Registered ancestor)
    (htag : session.registry.isAssignable schema.tag ancestor.tag = true) (hR : R walker.name schema)
    (hfits : ∀ name T, R name T → session.registry.Registered T ∧
      Fits catalogue (session.contents walker) session.registry walker.store R name T) :
    ((ancestor.check catalogue walker).outcome session).1 = .ok true := by
  -- the relation, and the object under the ancestor
  let R' : String → Schema → Prop := fun name T => R name T ∨ name = walker.name ∧ T = ancestor
  have hroot : R' walker.name ancestor := Or.inr ⟨rfl, rfl⟩
  refine check_of_fits hfind hroot ?_
  rintro name T (hname | ⟨rfl, rfl⟩)
  · obtain ⟨hT, hfits⟩ := hfits name T hname
    exact ⟨hT, hfits.mono (.refl _) fun _ _ => Or.inl⟩
  · obtain ⟨-, hfits⟩ := hfits walker.name schema hR
    exact ⟨hregistered, (hfits.ancestor hline htag).mono (.refl _) fun _ _ => Or.inl⟩

/-- **An object that is valid under a schema is valid under every ancestor of it, and the ancestor accepts the
object**, where the schemas are registered that the check came to. Let a run begin with no schema registered, let
it be about schemas of the catalogue, and let the check of the object under the schema be made after it and
succeed. Then the ancestor accepts the object there and at any later time, as soon as the schema is registered.
The check under the ancestor succeeds wherever all that is registered after the first check is registered, unless
two schemas that this check can come to have one tag; and if all these are registered before, it succeeds in place
of the first check. All that is asked of the store is that its objects are the same; what they refer to may be
cyclic, and lead back to the object under either schema. -/
theorem ancestor_valid_of_valid (hlawful : catalogue.Lawful) {start : Session}
    (hempty : start.registry = SortedMap.empty) {operations : List Operation}
    (h : ∀ operation ∈ operations, ∀ schema ∈ operation.schema?, schema ∈ catalogue)
    (hrun : start.run catalogue operations = session) {child : Schema} (hchild : child ∈ catalogue)
    (hline : child.Descends ancestor)
    (hvalid : (child.check catalogue walker).outcome session = (.ok true, after)) :
    (∀ later : Session, later.contents walker = session.contents walker →
      (session.registry.register child).1.Within later.registry →
      ((ancestor.accept walker).outcome later).1 = .ok ()) ∧
    (catalogue.Unambiguous child → ∀ later : Session, later.contents walker = session.contents walker →
      after.registry.Within later.registry →
      ((ancestor.check catalogue walker).outcome later).1 = .ok true) ∧
    ((∀ T, catalogue.Involves child T → session.registry.Registered T) →
      ((ancestor.check catalogue walker).outcome session).1 = .ok true) := by
  have hfind := hlawful.find?_of_mem hchild
  have hfounded : session.registry.Founded catalogue := by
    have hleads : start.Leads (· ∈ catalogue) session := by
      have hleads := Session.leads_run (fun _ hmem => hmem) start h
      rwa [hrun] at hleads
    refine hleads.founded hlawful ?_
    rw [hempty]
    exact .empty catalogue
  obtain ⟨registry, hregister, hgrown, htag⟩ := opened_of_check hfind hvalid
  obtain ⟨hancestor, hregistered, hassignable⟩ : ancestor ∈ catalogue ∧ registry.Registered ancestor ∧
      registry.isAssignable child.tag ancestor.tag = true := by
    have hnow := (hfounded.register hlawful hchild).1
    rw [hregister] at hnow
    exact hnow.leads_up hlawful hchild (Registry.registered_of_register hregister) hline
  have hchecks : catalogue.Unambiguous child → ∀ later : Session,
      later.contents walker = session.contents walker → after.registry.Within later.registry →
      ((ancestor.check catalogue walker).outcome later).1 = .ok true := by
    intro hunambiguous later hcontents hwithin
    obtain ⟨R, hR, hfits⟩ := fits_of_check hfind hunambiguous hvalid
    have hlater := hgrown.trans hwithin
    refine ancestor_check_of_fits (hlawful.find?_of_mem hancestor) hline (hregistered.mono hlater)
      (Registry.isAssignable_mono hlater hassignable) hR ?_
    rw [hcontents]
    intro name T hname
    obtain ⟨hT, hfits⟩ := hfits name T hname
    exact ⟨hT.mono hwithin, hfits.mono hwithin fun _ _ => id⟩
  refine ⟨?_, hchecks, ?_⟩
  · rw [hregister]
    intro later hcontents hwithin
    refine accept_of_hasTag (hregistered.mono hwithin) ?_
    rw [hcontents]
    exact (htag.above hassignable).mono hwithin
  · intro hall
    refine hchecks (Registry.unambiguous_of_registered hfind hall) session rfl ?_
    rw [registry_check hfind hall hvalid]
    exact .refl session.registry

end

/-- Objects of the first schema refer to one of the same schema, and those of the second also to one of their
    own. -/
def friendSchema : Schema := .declare "Friend" "friend" [⟨"next", .single (.object ⟨"Friend", "friend"⟩)⟩]

def closeSchema : Schema :=
  friendSchema.extend "CloseFriend" "close_friend" [⟨"best", .single (.object ⟨"CloseFriend", "close_friend"⟩)⟩]

def friendSchemas : Catalogue := [friendSchema, closeSchema]

/-- The object refers to itself under both schemas. -/
def friendConfig : Config := .ofStatements
  [⟨"a", "type", .text "close_friend"⟩, ⟨"a", "next", .text "a"⟩, ⟨"a", "best", .text "a"⟩]

def friendStart : Session := ⟨⟨[friendConfig]⟩, SortedMap.empty, 0⟩

def friendSession : Session := friendStart.run friendSchemas [.register closeSchema]

theorem lawful_friendSchemas : friendSchemas.Lawful :=
  (Catalogue.Lawful.nil.concat (.declare _ _ _) (by decide) (by decide)).concat
    (.extend (.declare _ _ _) _ _ _) (by decide) (by decide)

theorem registered_friendSchemas : ∀ schema ∈ friendSchemas, friendSession.registry.Registered schema := by
  have hget : ∀ schema ∈ friendSchemas, ∀ entry ∈ schema.entries,
      (friendSession.registry.get? entry.tag).map SchemaEntry.key = some entry.key := by
    decide +kernel
  intro schema hmem entry hentry
  exact Option.map_eq_some_iff.1 (hget schema hmem entry hentry)

/-- The object reaches itself, and is valid. -/
theorem check_friend :
    (closeSchema.check friendSchemas ⟨0, "a"⟩).outcome friendSession = (.ok true, friendSession) :=
  outcome_check_eq_iff.2 ⟨⟨friendSession.registry, [("a", "friend"), ("a", "close_friend")]⟩,
    Checking.run_of_runWithin 7 (by decide +kernel), rfl⟩

/-- It is valid as a friend, too, and still is when there are more stores. -/
theorem ancestor_valid_of_valid_friend :
    (closeSchema.check friendSchemas ⟨0, "a"⟩).outcome friendSession = (.ok true, friendSession) ∧
    ((friendSchema.check friendSchemas ⟨0, "a"⟩).outcome friendSession).1 = .ok true ∧
    ((friendSchema.check friendSchemas ⟨0, "a"⟩).outcome (friendSession.run friendSchemas [.newStore])).1 =
      .ok true ∧
    ((friendSchema.accept ⟨0, "a"⟩).outcome friendSession).1 = .ok () := by
  have hregistered : ∀ T, friendSchemas.Involves closeSchema T → friendSession.registry.Registered T :=
    fun T involved => registered_friendSchemas T (involved.mem (by decide))
  have hunambiguous : friendSchemas.Unambiguous closeSchema :=
    Registry.unambiguous_of_registered (by decide) hregistered
  have hline : closeSchema.Descends friendSchema := .single rfl
  have hempty : friendStart.registry = SortedMap.empty := rfl
  have hkept : (friendSession.registry.register closeSchema).1.Within friendSession.registry := by
    rw [(hregistered closeSchema .self).register]
    exact .refl _
  obtain ⟨haccept, hlater, hnow⟩ := ancestor_valid_of_valid lawful_friendSchemas hempty (by decide) rfl
    (by decide) hline check_friend
  exact ⟨check_friend, hnow hregistered, hlater hunambiguous _ (by decide +kernel) (.refl _),
    haccept friendSession rfl hkept⟩

/-- A step leads to a jump, and a leap is a step with the tag of a jump. -/
def stepSchema : Schema := .declare "Step" "step" [⟨"next", .single (.object ⟨"Jump", "jump"⟩)⟩]

def leapSchema : Schema := stepSchema.extend "Leap" "jump" []

def jumpSchema : Schema := .declare "Jump" "jump" []

def leapSchemas : Catalogue := [stepSchema, leapSchema, jumpSchema]

def leapStart : Session := ⟨⟨[.ofStatements [⟨"a", "type", .text "jump"⟩, ⟨"a", "next", .text "a"⟩]]⟩,
  SortedMap.empty, 0⟩

def leapSession : Session := leapStart.run leapSchemas [.register leapSchema]

theorem lawful_leapSchemas : leapSchemas.Lawful :=
  ((Catalogue.Lawful.nil.concat (.declare _ _ _) (by decide) (by decide)).concat
    (.extend (.declare _ _ _) _ _ _) (by decide) (by decide)).concat (.declare _ _ _) (by decide) (by decide)

/-- The object was looked at under the tag of a jump before it is looked at as a jump. -/
theorem check_leap :
    (leapSchema.check leapSchemas ⟨0, "a"⟩).outcome leapSession = (.ok true, leapSession) :=
  outcome_check_eq_iff.2 ⟨⟨leapSession.registry, [("a", "jump")]⟩,
    Checking.run_of_runWithin 3 (by decide +kernel), rfl⟩

/-- Under the ancestor it is looked at as a jump, and the tag of these is taken. -/
theorem check_step : ((stepSchema.check leapSchemas ⟨0, "a"⟩).outcome leapSession).1 = .ok false :=
  answer_of_runWithin 3 (by decide +kernel)

/-- A folder leads to a shared folder and may have an image, and a shared folder may have a photo, too. -/
def folderSchema : Schema := .declare "Folder" "folder"
  [⟨"next", .single (.object ⟨"SharedFolder", "shared_folder"⟩)⟩,
    ⟨"icon", .optional (.object ⟨"Image", "image"⟩)⟩]

def sharedSchema : Schema := folderSchema.extend "SharedFolder" "shared_folder"
  [⟨"cover", .optional (.object ⟨"Photo", "photo"⟩)⟩]

def imageSchema : Schema := .declare "Image" "image" []

def photoSchema : Schema := imageSchema.extend "Photo" "photo" []

def folderSchemas : Catalogue := [folderSchema, sharedSchema, imageSchema, photoSchema]

/-- The first folder has as an image what the second one has as a photo. -/
def folderStart : Session := ⟨⟨[.ofStatements
  [⟨"a", "type", .text "shared_folder"⟩, ⟨"a", "next", .text "b"⟩, ⟨"a", "icon", .text "c"⟩,
    ⟨"b", "type", .text "shared_folder"⟩, ⟨"b", "next", .text "a"⟩, ⟨"b", "cover", .text "c"⟩,
    ⟨"c", "type", .text "photo"⟩]]⟩, SortedMap.empty, 0⟩

def folderSession : Session := folderStart.run folderSchemas [.register sharedSchema]

theorem lawful_folderSchemas : folderSchemas.Lawful :=
  (((Catalogue.Lawful.nil.concat (.declare _ _ _) (by decide) (by decide)).concat
    (.extend (.declare _ _ _) _ _ _) (by decide) (by decide)).concat
    (.declare _ _ _) (by decide) (by decide)).concat
    (.extend (.declare _ _ _) _ _ _) (by decide) (by decide)

/-- The second folder is looked at before the image of the first one, and photos are registered then. -/
theorem check_shared : ((sharedSchema.check folderSchemas ⟨0, "a"⟩).outcome folderSession).1 = .ok true :=
  answer_of_runWithin 12 (by decide +kernel)

/-- Under the ancestor the image of the first folder is looked at before. -/
theorem check_folder : ((folderSchema.check folderSchemas ⟨0, "a"⟩).outcome folderSession).1 = .ok false :=
  answer_of_runWithin 12 (by decide +kernel)

/-- Only the ancestor is registered. -/
def unmetSession : Session := friendStart.run friendSchemas [.register friendSchema]

theorem check_unmet :
    ((closeSchema.check friendSchemas ⟨0, "a"⟩).outcome unmetSession).1 = .ok true ∧
    ((friendSchema.check friendSchemas ⟨0, "a"⟩).outcome unmetSession).1 = .ok false ∧
    ((friendSchema.accept ⟨0, "a"⟩).outcome unmetSession).1 = .error (.unknownType "close_friend") :=
  ⟨answer_of_runWithin 7 (by decide +kernel), answer_of_runWithin 1 (by decide +kernel), by decide +kernel⟩

/-- **An object that is valid under a schema need not be valid under an ancestor of it.** Both schemas of the
leap are registered, but the tag of the first is that of another schema, and the check registers nothing. All
tags of the folders differ, but the check of the folder registers what the check under the ancestor needs to find.
And where the schema is not registered, the ancestor does not know its tag. -/
theorem valid_but_not_under_ancestor :
    (leapSchemas.Lawful ∧ leapSchema.Descends stepSchema ∧
      leapSession.registry.register leapSchema = (leapSession.registry, .ok ()) ∧
      (leapSchema.check leapSchemas ⟨0, "a"⟩).outcome leapSession = (.ok true, leapSession) ∧
      ((stepSchema.check leapSchemas ⟨0, "a"⟩).outcome leapSession).1 = .ok false) ∧
    (folderSchemas.Lawful ∧ sharedSchema.Descends folderSchema ∧
      folderSession.registry.register sharedSchema = (folderSession.registry, .ok ()) ∧
      (∀ T ∈ folderSchemas, ∀ T' ∈ folderSchemas, T.tag = T'.tag → T = T') ∧
      ((sharedSchema.check folderSchemas ⟨0, "a"⟩).outcome folderSession).1 = .ok true ∧
      ((folderSchema.check folderSchemas ⟨0, "a"⟩).outcome folderSession).1 = .ok false) ∧
    friendSchemas.Lawful ∧ closeSchema.Descends friendSchema ∧
      ((closeSchema.check friendSchemas ⟨0, "a"⟩).outcome unmetSession).1 = .ok true ∧
      ((friendSchema.check friendSchemas ⟨0, "a"⟩).outcome unmetSession).1 = .ok false ∧
      ((friendSchema.accept ⟨0, "a"⟩).outcome unmetSession).1 = .error (.unknownType "close_friend") :=
  ⟨⟨lawful_leapSchemas, .single rfl, by decide +kernel, check_leap, check_step⟩,
    ⟨lawful_folderSchemas, .single rfl, by decide +kernel, by decide, check_shared, check_folder⟩,
    lawful_friendSchemas, .single rfl, check_unmet⟩

end GraphWire
