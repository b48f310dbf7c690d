import GraphWire.Fairy.Config
import GraphWire.Proofs.Assembly
import GraphWire.Proofs.Validity

/-!
# `Proofs.Sessions` — what single operations do to a session

An operation is known by the result that it gives and the session that it leaves, and operations one after
another are known step by step. Objects are made in stores of their own, so a session only grows at its
end: `Session.extended` names the stores added since, and each step is one change in that list.

## Contents
- **Sequences.** `bind_of_ok` and `bind_of_error`.
- **Schemas.** `Registry.Admits`, no other schema holds the tags, and `Registry.Holds`, they are registered;
  **`registerMessages_of_admits`** and **`registerAllSchemas_of_admits`**.
- **Stores.** `Session.extended`, with `create_extended`, and **`setField_of_imports`**, of which
  `setField_extended` and `setField_ref_extended` are cases.
- **Fields.** `FieldDecl.Reads`.
- **Configurations.** `FairyConfig.parse_of_tag` and **`FairyConfig.parse_eq_ok`**, what is read and when.
-/

namespace GraphWire

/-! ## Operations one after another -/

section

variable {ε σ α β : Type} {x : EStateM ε σ α} {f : α → EStateM ε σ β} {s s' : σ}

theorem bind_of_ok {a : α} (h : x s = .ok a s') : (x >>= f) s = f a s' := by
  show EStateM.bind x f s = f a s'
  rw [EStateM.bind, h]

theorem bind_of_error {e : ε} (h : x s = .error e s') : (x >>= f) s = .error e s' := by
  show EStateM.bind x f s = .error e s'
  rw [EStateM.bind, h]

end

namespace Action

variable {ε ε' α : Type} {x : Action ε α} {session after : Session}

theorem outcome_eq_ok_iff {a : α} : x.outcome session = (.ok a, after) ↔ x session = .ok a after := by
  rw [outcome]
  cases x session with
  | ok b s =>
    rw [Prod.mk.injEq, Except.ok.injEq, EStateM.Result.ok.injEq]
  | error e s =>
    constructor
    · intro h
      cases h
    · intro h
      cases h

theorem outcome_eq_error_iff {e : ε} :
    x.outcome session = (.error e, after) ↔ x session = .error e after := by
  rw [outcome]
  cases x session with
  | ok b s =>
    constructor
    · intro h
      cases h
    · intro h
      cases h
  | error e s =>
    rw [Prod.mk.injEq, Except.error.injEq, EStateM.Result.error.injEq]

theorem mapError_of_ok {f : ε → ε'} {a : α} (h : x session = .ok a after) :
    mapError f x session = .ok a after := by
  rw [mapError, h]

theorem mapError_of_error {f : ε → ε'} {e : ε} (h : x session = .error e after) :
    mapError f x session = .error (f e) after := by
  rw [mapError, h]

end Action

/-! ## Schemas -/

namespace Registry

variable {registry : Registry} {known : List SchemaEntry}

/-- No schema but those known holds a tag of theirs. -/
def Admits (registry : Registry) (known : List SchemaEntry) : Prop :=
  ∀ e ∈ known, ∀ holder, registry.get? e.tag = some holder → holder = e

/-- The schemas are registered. -/
def Holds (registry : Registry) (known : List SchemaEntry) : Prop :=
  ∀ e ∈ known, registry.get? e.tag = some e

/-- A schema that is admitted is registered, and those registered before stay. -/
theorem add_of_admits (htags : ∀ a ∈ known, ∀ b ∈ known, a.tag = b.tag → a = b)
    (h : registry.Admits known) {e : SchemaEntry} (he : e ∈ known) :
    ∃ grown, registry.add e = .ok grown ∧ grown.Admits known ∧ grown.get? e.tag = some e ∧
      ∀ d ∈ known, registry.get? d.tag = some d → grown.get? d.tag = some d := by
  cases hget : registry.get? e.tag with
  | some holder =>
    have hholder : holder = e := h e he holder hget
    subst hholder
    exact ⟨registry, add_of_held hget rfl, h, hget, fun d _ hd => hd⟩
  | none =>
    -- the tag is free; only a schema with this tag is looked up differently now, and that is the new one
    refine ⟨registry.insert e.tag e, add_of_free hget, ?_, ?_, ?_⟩
    · intro d hd holder hholder
      rw [SortedMap.get?_insert] at hholder
      split at hholder
      · next htag =>
        cases hholder
        exact htags e he d hd htag.symm
      · exact h d hd holder hholder
    · rw [SortedMap.get?_insert, if_pos rfl]
    · intro d hd hthere
      rw [SortedMap.get?_insert]
      split
      · next htag => rw [htags d hd e he htag]
      · exact hthere

theorem addAll_of_admits (htags : ∀ a ∈ known, ∀ b ∈ known, a.tag = b.tag → a = b)
    (h : registry.Admits known) {new : List SchemaEntry} (hnew : ∀ e ∈ new, e ∈ known) :
    ∃ grown, registry.addAll new = (grown, .ok ()) ∧ grown.Admits known ∧ grown.Holds new ∧
      ∀ d ∈ known, registry.get? d.tag = some d → grown.get? d.tag = some d := by
  -- the registry grows with each entry, and what is there already stays there
  induction new generalizing registry with
  | nil => exact ⟨registry, rfl, h, fun e he => absurd he List.not_mem_nil, fun d _ hd => hd⟩
  | cons e new ih =>
    obtain ⟨he, hnew⟩ := List.forall_mem_cons.1 hnew
    obtain ⟨next, hadd, hnext, hthere, hkept⟩ := add_of_admits htags h he
    obtain ⟨grown, haddAll, hgrown, hholds, hkept'⟩ := ih hnext hnew
    refine ⟨grown, ?_, hgrown, ?_, fun d hd hget => hkept' d hd (hkept d hd hget)⟩
    · rw [addAll, hadd]
      exact haddAll
    · exact List.forall_mem_cons.2 ⟨hkept' e he hthere, hholds⟩

/-- Schemas that are admitted are registered one after another. -/
theorem holds_foldl_register (htags : ∀ a ∈ known, ∀ b ∈ known, a.tag = b.tag → a = b)
    (h : registry.Admits known) {schemas : List Schema}
    (hschemas : ∀ schema ∈ schemas, ∀ e ∈ schema.entries, e ∈ known) :
    (schemas.foldl (fun registry schema => (registry.register schema).1) registry).Admits known ∧
    (schemas.foldl (fun registry schema => (registry.register schema).1) registry).Holds
      (schemas.flatMap Schema.entries) ∧
    ∀ d ∈ known, registry.get? d.tag = some d →
      (schemas.foldl (fun registry schema => (registry.register schema).1) registry).get? d.tag
        = some d := by
  induction schemas generalizing registry with
  | nil => exact ⟨h, fun e he => absurd he List.not_mem_nil, fun d _ hd => hd⟩
  | cons schema schemas ih =>
    obtain ⟨hschema, hschemas⟩ := List.forall_mem_cons.1 hschemas
    obtain ⟨next, haddAll, hnext, hholds, hkept⟩ := addAll_of_admits htags h hschema
    obtain ⟨hgrown, hholds', hkept'⟩ := ih hnext hschemas
    have hregister : (registry.register schema).1 = next := congrArg Prod.fst haddAll
    rw [List.foldl_cons, hregister]
    refine ⟨hgrown, ?_, fun d hd hget => hkept' d hd (hkept d hd hget)⟩
    intro e he
    rcases List.mem_append.1 (List.flatMap_cons ▸ he) with he | he
    · exact hkept' e (hschema e he) (hholds e he)
    · exact hholds' e he

end Registry

/-- All schemas that there are, as they are registered. -/
def fairyEntries : List SchemaEntry := fairySchemas.flatMap Schema.entries

/-- The schemas of messages among them. -/
def messageEntries : List SchemaEntry := messageSchemas.flatMap Schema.entries

theorem mem_fairyEntries_of_messages {e : SchemaEntry} (h : e ∈ messageEntries) : e ∈ fairyEntries := by
  obtain ⟨schema, hschema, he⟩ := List.mem_flatMap.1 h
  exact List.mem_flatMap.2 ⟨schema, List.mem_append_left _ hschema, he⟩

theorem Registry.Admits.messages {registry : Registry} (h : registry.Admits fairyEntries) :
    registry.Admits messageEntries := fun e he => h e (mem_fairyEntries_of_messages he)

theorem tags_fairyEntries : ∀ a ∈ fairyEntries, ∀ b ∈ fairyEntries, a.tag = b.tag → a = b := by
  decide +kernel

theorem Registry.Holds.admits {registry : Registry} {known : List SchemaEntry} (h : registry.Holds known) :
    registry.Admits known := by
  intro e he holder hholder
  rw [h e he] at hholder
  exact (Option.some.inj hholder).symm

theorem Registry.Holds.registered {registry : Registry} (h : registry.Holds fairyEntries)
    {schema : Schema} (hmem : schema ∈ fairySchemas) : registry.Registered schema := by
  intro e he
  exact ⟨e, h e (List.mem_flatMap.2 ⟨schema, hmem, he⟩), rfl⟩

theorem Registry.Holds.contains {registry : Registry} (h : registry.Holds fairyEntries)
    {schema : Schema} (hmem : schema ∈ fairySchemas) : registry.contains schema.tag = true :=
  SortedMap.contains_iff.2
    ⟨schema.entry, h _ (List.mem_flatMap.2 ⟨schema, hmem, entry_mem_entries schema⟩)⟩

/-- The schemas of messages are registered, whatever is registered besides. -/
theorem registerMessages_of_admits {ε : Type} {session : Session}
    (h : session.registry.Admits fairyEntries) :
    ∃ registry : Registry, (registerMessages : Action ε Unit) session = .ok () { session with registry } ∧
      registry.Admits fairyEntries ∧ registry.Holds (messageSchemas.flatMap Schema.entries) := by
  have hentries : ∀ schema ∈ messageSchemas, ∀ e ∈ schema.entries, e ∈ fairyEntries := by
    intro schema hschema e he
    exact List.mem_flatMap.2 ⟨schema, List.mem_append_left _ hschema, he⟩
  obtain ⟨hadmits, hholds, -⟩ := Registry.holds_foldl_register tags_fairyEntries h hentries
  exact ⟨_, rfl, hadmits, hholds⟩

/-- For that no more is needed than that the tags of messages are free or theirs. -/
theorem registerMessages_holds {ε : Type} {session : Session}
    (h : session.registry.Admits messageEntries) :
    ∃ registry : Registry, (registerMessages : Action ε Unit) session = .ok () { session with registry } ∧
      registry.Holds messageEntries := by
  have htags : ∀ a ∈ messageEntries, ∀ b ∈ messageEntries, a.tag = b.tag → a = b :=
    fun a ha b hb => tags_fairyEntries a (mem_fairyEntries_of_messages ha) b (mem_fairyEntries_of_messages hb)
  have hentries : ∀ schema ∈ messageSchemas, ∀ e ∈ schema.entries, e ∈ messageEntries :=
    fun schema hschema e he => List.mem_flatMap.2 ⟨schema, hschema, he⟩
  obtain ⟨-, hholds, -⟩ := Registry.holds_foldl_register htags h hentries
  exact ⟨_, rfl, hholds⟩

/-- **All schemas are registered, whatever is registered besides.** -/
theorem registerAllSchemas_of_admits {ε : Type} {session : Session}
    (h : session.registry.Admits fairyEntries) :
    ∃ registry : Registry, (registerAllSchemas : Action ε Unit) session = .ok () { session with registry } ∧
      registry.Holds fairyEntries := by
  obtain ⟨messages, hmessages, hadmits, hholds⟩ := registerMessages_of_admits (ε := ε) h
  have hentries : ∀ e ∈ FairyConfig.schema.entries, e ∈ fairyEntries := by
    intro e he
    exact List.mem_flatMap.2 ⟨FairyConfig.schema, List.mem_append_right _ List.mem_cons_self, he⟩
  obtain ⟨grown, haddAll, -, hthere, hkept⟩ := Registry.addAll_of_admits tags_fairyEntries hadmits hentries
  have hregister : (messages.register FairyConfig.schema).1 = grown := congrArg Prod.fst haddAll
  refine ⟨grown, ?_, ?_⟩
  · rw [registerAllSchemas, bind_of_ok hmessages, ← hregister]
    rfl
  · intro e he
    obtain ⟨schema, hschema, hentry⟩ := List.mem_flatMap.1 he
    rcases List.mem_append.1 hschema with hmessage | hfairy
    · exact hkept e he (hholds e (List.mem_flatMap.2 ⟨schema, hmessage, hentry⟩))
    · cases List.mem_singleton.1 hfairy
      exact hthere e hentry

/-! ## Stores -/

namespace Session

variable {session : Session} {added : List Config} {i : Nat} {config : Config}

/-- The session with further stores. -/
def extended (session : Session) (added : List Config) : Session :=
  { session with stores := ⟨session.stores.configs ++ added⟩ }

theorem extended_extended (session : Session) (added more : List Config) :
    (session.extended added).extended more = session.extended (added ++ more) := by
  show Session.mk ⟨session.stores.configs ++ added ++ more⟩ _ _ = _
  rw [List.append_assoc]
  rfl

theorem length_extended (session : Session) (added : List Config) :
    (session.extended added).stores.configs.length = session.stores.configs.length + added.length :=
  List.length_append

/-- A walker in one of the stores that are added to the session. -/
def newWalker (session : Session) (i : Nat) (name : String) : Walker :=
  ⟨session.stores.configs.length + i, name⟩

theorem newWalker_extended (session : Session) (added : List Config) (i : Nat) (name : String) :
    (session.extended added).newWalker i name = session.newWalker (added.length + i) name := by
  rw [newWalker, length_extended, Nat.add_assoc]
  rfl

theorem get_extended_new (h : added[i]? = some config) :
    (session.extended added).stores.get (session.stores.configs.length + i) = config := by
  show (session.stores.configs ++ added).getD (session.stores.configs.length + i) _ = config
  rw [List.getD_eq_getElem?_getD, List.getElem?_append_right (Nat.le_add_right _ _),
    Nat.add_sub_cancel_left, h, Option.getD_some]

theorem contents_extended_new (h : added[i]? = some config) (name : String) :
    (session.extended added).contents (session.newWalker i name) = config :=
  get_extended_new h

/-- What was there before stays as it is. -/
theorem contents_extended_old {walker : Walker} (h : walker.store < session.stores.configs.length) :
    (session.extended added).contents walker = session.contents walker := by
  show (session.stores.configs ++ added).getD walker.store _ = session.stores.configs.getD walker.store _
  rw [List.getD_eq_getElem?_getD, List.getElem?_append_left h, List.getD_eq_getElem?_getD]

theorem set_extended (i : Nat) (config : Config) :
    { session.extended added with
      stores := (session.extended added).stores.set (session.stores.configs.length + i) config }
      = session.extended (added.set i config) := by
  show Session.mk ⟨(session.stores.configs ++ added).set (session.stores.configs.length + i) config⟩ _ _ = _
  rw [List.set_append_right _ _ (Nat.le_add_right _ _), Nat.add_sub_cancel_left]
  rfl

end Session

/-! ### Making objects -/

section

variable {session : Session} {schema : Schema}

theorem Action.outcome_register (session : Session) (schema : Schema) :
    (Action.register schema).outcome session =
      ((session.registry.register schema).2,
        { session with registry := (session.registry.register schema).1 }) := by
  have hget : (get : Action TypedError Session) session = .ok session session := rfl
  rw [outcome, register, bind_of_ok hget]
  rcases session.registry.register schema with ⟨registry, fault | _⟩ <;> rfl

theorem register_of_registered (h : session.registry.Registered schema) :
    Action.register schema session = .ok () session := by
  refine Action.outcome_eq_ok_iff.1 ?_
  rw [Action.outcome_register, h.register]

theorem Action.outcome_addObject (session : Session) (id : StoreId) (name : String) (object : Object) :
    (addObject id name object).outcome session =
      (ofExcept ((session.stores.get id).tryAdd name object) >>= setContents id).outcome session := rfl

/-- An object is made in an empty store. -/
theorem addObject_extended (session : Session) (name : String) (object : Object) :
    Action.addObject session.stores.configs.length name object (session.extended [SortedMap.empty])
      = .ok () (session.extended [Config.single name object]) := by
  have hempty : (session.extended [SortedMap.empty]).stores.get session.stores.configs.length
      = SortedMap.empty := Session.get_extended_new (i := 0) rfl
  refine Action.outcome_eq_ok_iff.1 ?_
  rw [Action.outcome_addObject, hempty]
  exact congrArg (Prod.mk _) (Session.set_extended 0 (Config.single name object))

theorem addStore_extended {ε : Type} (session : Session) :
    (Action.addStore SortedMap.empty : Action ε StoreId) session
      = .ok session.stores.configs.length (session.extended [SortedMap.empty]) := rfl

/-- **An object is made in a further store, with nothing in it but its type tag.** -/
theorem create_extended (h : session.registry.Registered schema) (name : String) :
    schema.create (some name) session
      = .ok (session.newWalker 0 name)
        (session.extended [Config.single name (Object.typed schema.tag)]) := by
  have hregister : Action.register schema (session.extended [SortedMap.empty]) = .ok () _ :=
    register_of_registered h
  rw [Schema.create, bind_of_ok (addStore_extended session), Schema.createIn, bind_of_ok hregister]
  show (Action.mapError TypedError.config (Action.addObject _ _ _) >>= _) _ = _
  rw [bind_of_ok (Action.mapError_of_ok (addObject_extended session name (Object.typed schema.tag)))]
  rfl

/-- The session behind a name that was issued. -/
def Session.issue (session : Session) : Session := { session with issued := session.issued + 1 }

/-- The name that is issued next for an object with the tag. -/
def Session.nextName (session : Session) (tag : String) : String :=
  tag ++ "_" ++ Action.issuedSuffix session.issued

/-- The same without a name, which is issued then. -/
theorem create_issued (h : session.registry.Registered schema) :
    schema.create none session
      = .ok (session.newWalker 0 (session.nextName schema.tag)) (session.issue.extended
        [Config.single (session.nextName schema.tag) (Object.typed schema.tag)]) := by
  have hregister : Action.register schema (session.extended [SortedMap.empty]) = .ok () _ :=
    register_of_registered h
  have hissue : (Action.issueName schema.tag : Action TypedError String)
      (session.extended [SortedMap.empty])
      = .ok (session.nextName schema.tag) (session.issue.extended [SortedMap.empty]) := rfl
  have hadd : Action.addObject session.stores.configs.length (session.nextName schema.tag)
      (Object.typed schema.tag) (session.issue.extended [SortedMap.empty]) = .ok () _ :=
    addObject_extended session.issue (session.nextName schema.tag) (Object.typed schema.tag)
  rw [Schema.create, bind_of_ok (addStore_extended session), Schema.createIn, bind_of_ok hregister]
  show (Action.issueName schema.tag >>= _) _ = _
  rw [bind_of_ok hissue]
  show (Action.mapError TypedError.config (Action.addObject _ _ _) >>= _) _ = _
  rw [bind_of_ok (Action.mapError_of_ok hadd)]
  rfl

end

/-! ### Writing fields -/

namespace Stores

theorem imports_nil (stores : Stores) (home : StoreId) : stores.imports home [] = .ok SortedMap.empty := rfl

/-- A reference to another store brings along a copy of what its target leads to. -/
theorem imports_ref {stores : Stores} {home : StoreId} {target : Walker} (h : target.store ≠ home) :
    stores.imports home [target] = .ok ((stores.get target.store).extract [target.name]) := by
  have hforeign : [target].filter (·.store ≠ home) = [target] := by simp [h]
  have hroots : rootsIn home [target] target.store = [target.name] := by
    rw [rootsIn, hforeign]
    simp
  have hsources : sources home [target] = [target.store] := by
    rw [sources, hforeign]
    rfl
  have hmerge : Config.merge SortedMap.empty ((stores.get target.store).extract [target.name])
      = .ok ((stores.get target.store).extract [target.name]) :=
    Config.merge_eq_ok_iff.2 ⟨Config.apart_empty _, (Config.empty_union _).symm⟩
  rw [imports_eq, hsources, List.map_singleton, hroots, List.foldlM_cons, hmerge]
  rfl

end Stores

section

variable {session : Session} {added : List Config} {i : Nat} {body part : Config} {name : String}
  {object : Object}

theorem get?_insert_self (body : Config) (name : String) (object : Object) :
    SortedMap.get? (SortedMap.insert body name object) name = some object := by
  rw [SortedMap.get?_insert, if_pos rfl]

/-- **What a field refers to is brought along, the field is written, and nothing else changes**, if no name is
    taken. -/
theorem setField_of_imports (hi : added[i]? = some (SortedMap.insert body name object)) (field : String)
    {v : FieldValue}
    (himports : (session.extended added).stores.imports (session.newWalker i name).store v.walkers = .ok part)
    (hapart : Config.Apart (SortedMap.insert body name object) part) :
    Action.setField (session.newWalker i name) field v (session.extended added)
      = .ok () (session.extended (added.set i
        (SortedMap.insert (SortedMap.union body part) name (v.writeInto field object)))) := by
  have hconfig : (session.extended added).stores.get (session.newWalker i name).store
      = SortedMap.insert body name object := Session.get_extended_new hi
  have hobject := get?_insert_self body name object
  have hgrown : SortedMap.get? (SortedMap.union (SortedMap.insert body name object) part) name
      = some object := (Config.get?_union_eq_some_iff hapart).2 (Or.inl hobject)
  have hwrite : (session.extended added).stores.write (session.newWalker i name) field v
      = .ok ((session.extended added).stores.set (session.newWalker i name).store
        (SortedMap.insert (SortedMap.union body part) name (v.writeInto field object))) := by
    refine Stores.write_eq_ok_iff.2 ⟨part, himports, ?_, ?_, ?_⟩
    · rw [hconfig]
      exact SortedMap.contains_iff.2 ⟨object, hobject⟩
    · rwa [hconfig]
    · -- of the owner only its last state counts
      have hedit := Config.editObject_of_get? hgrown (v.writeInto field)
      rw [Config.insert_union_insert] at hedit
      rw [hconfig]
      exact congrArg _ hedit.symm
  have houtcome := Action.outcome_setField (session.extended added) (session.newWalker i name) field v
  rw [hwrite] at houtcome
  rw [Action.outcome_eq_ok_iff.1 houtcome]
  exact congrArg (EStateM.Result.ok ()) (Session.set_extended i _)

/-- A value brings nothing along. -/
theorem setField_extended (hi : added[i]? = some (SortedMap.insert body name object)) (field : String)
    {v : FieldValue} (hv : v.walkers = []) :
    Action.setField (session.newWalker i name) field v (session.extended added)
      = .ok () (session.extended
        (added.set i (SortedMap.insert body name (v.writeInto field object)))) := by
  have himports : (session.extended added).stores.imports (session.newWalker i name).store v.walkers
      = .ok SortedMap.empty := by
    rw [hv, Stores.imports_nil]
  have hwritten := setField_of_imports hi field himports (Config.apart_empty _).symm
  rwa [Config.union_empty] at hwritten

variable {target : Walker}

/-- **A reference brings along what its target leads to**, if none of that has a name that is taken. -/
theorem setField_ref_extended (hi : added[i]? = some (SortedMap.insert body name object))
    (field : String) (htarget : target.store ≠ session.stores.configs.length + i)
    (hpart : ((session.extended added).contents target).extract [target.name] = part)
    (hapart : Config.Apart (SortedMap.insert body name object) part) :
    Action.setField (session.newWalker i name) field (.ref target) (session.extended added)
      = .ok () (session.extended (added.set i (SortedMap.insert (SortedMap.union body part) name
          (OrderedMap.insert object field (.text target.name))))) := by
  have himports : (session.extended added).stores.imports (session.newWalker i name).store [target]
      = .ok part := by
    rw [← hpart]
    exact Stores.imports_ref htarget
  exact setField_of_imports hi field himports hapart

/-- A name that is taken is an error. -/
theorem setField_ref_collision (hi : added[i]? = some (SortedMap.insert body name object))
    (field : String) (htarget : target.store ≠ session.stores.configs.length + i)
    (hpart : ((session.extended added).contents target).extract [target.name] = part)
    (hclash : ¬ Config.Apart (SortedMap.insert body name object) part) :
    ∃ taken, Action.setField (session.newWalker i name) field (.ref target) (session.extended added)
      = .error (.nameCollision taken) (session.extended added) := by
  have hconfig : (session.extended added).stores.get (session.newWalker i name).store
      = SortedMap.insert body name object := Session.get_extended_new hi
  have hthere : SortedMap.contains (SortedMap.insert body name object)
      (session.newWalker i name).name = true :=
    SortedMap.contains_iff.2 ⟨object, get?_insert_self body name object⟩
  have himports : (session.extended added).stores.imports (session.newWalker i name).store [target]
      = .ok part := by
    rw [← hpart]
    exact Stores.imports_ref htarget
  -- a merge succeeds only if the parts are apart
  cases hmerge : Config.merge (SortedMap.insert body name object) part with
  | ok grown => exact absurd (Config.merge_eq_ok_iff.1 hmerge).1 hclash
  | error e =>
    obtain ⟨taken, rfl⟩ := Config.eq_nameCollision_of_merge hmerge
    have hwrite : (session.extended added).stores.write (session.newWalker i name) field (.ref target)
        = .error (.nameCollision taken) := by
      rw [Stores.write_eq]
      simp only [FieldValue.walkers, himports, hconfig, hthere, if_true, hmerge]
    have houtcome :=
      Action.outcome_setField (session.extended added) (session.newWalker i name) field (.ref target)
    rw [hwrite] at houtcome
    exact ⟨taken, Action.outcome_eq_error_iff.1 houtcome⟩

end

/-! ### Reading fields -/

/-- A field is read in the contents of its owner's store, and nothing changes. -/
theorem FieldDecl.fetch_eq (field : FieldDecl) (owner : Walker) (session : Session) :
    (field.fetch owner).outcome session
      = (field.kind.read owner.store (session.contents owner) owner.name field.name, session) := by
  have hcontents : (Action.contents owner.store : Action TypedError Config) session
      = .ok (session.contents owner) session := rfl
  rw [fetch, FieldKind.fetch, Action.outcome, bind_of_ok hcontents]
  cases field.kind.read owner.store (session.contents owner) owner.name field.name <;> rfl

/-- The declared field of the owner reads as the value. -/
def FieldDecl.Reads (field : FieldDecl) (session : Session) (owner : Walker) (x : field.kind.Carrier) :
    Prop :=
  (field.fetch owner).outcome session = (.ok x, session)

theorem FieldDecl.reads_iff {field : FieldDecl} {session : Session} {owner : Walker}
    {x : field.kind.Carrier} : field.Reads session owner x ↔
      field.kind.read owner.store (session.contents owner) owner.name field.name = .ok x := by
  rw [Reads, fetch_eq, Prod.mk.injEq]
  exact and_iff_left rfl

/-- A field that was read reads the same when stores are added. -/
theorem FieldDecl.Reads.extended {field : FieldDecl} {session : Session} {owner : Walker}
    {x : field.kind.Carrier} (h : field.Reads session owner x)
    (hold : owner.store < session.stores.configs.length) (added : List Config) :
    field.Reads (session.extended added) owner x := by
  rw [reads_iff, Session.contents_extended_old hold]
  exact reads_iff.1 h

/-! ## Configurations -/

/-- A walker's tag is resolved in the contents of its store. -/
theorem Schema.resolve_eq (schema : Schema) (walker : Walker) (session : Session) :
    (schema.resolve walker).outcome session
      = (session.registry.resolve (session.contents walker) walker.name schema.tag, session) := by
  have hcontents : (Action.contents walker.store : Action TypedError Config) session
      = .ok (session.contents walker) session := rfl
  have hget : (get : Action TypedError Session) session = .ok session session := rfl
  rw [resolve, Action.outcome, bind_of_ok hcontents, bind_of_ok hget]
  cases session.registry.resolve (session.contents walker) walker.name schema.tag <;> rfl

/-- A registered schema that accepts a walker leaves the session as it was. -/
theorem Schema.eq_of_accept {schema : Schema} {walker : Walker} {session after : Session}
    (hregistered : session.registry.Registered schema) (h : schema.accept walker session = .ok () after) :
    after = session := by
  rw [accept, bind_of_ok (register_of_registered hregistered)] at h
  have hresolve := schema.resolve_eq walker session
  cases hr : session.registry.resolve (session.contents walker) walker.name schema.tag with
  | ok tag =>
    rw [hr] at hresolve
    rw [bind_of_ok (Action.outcome_eq_ok_iff.1 hresolve)] at h
    cases h
    rfl
  | error e =>
    rw [hr] at hresolve
    rw [bind_of_error (Action.outcome_eq_error_iff.1 hresolve)] at h
    cases h

theorem Schema.accept_of_resolve {schema : Schema} {walker : Walker} {session : Session} {tag : String}
    (hregistered : session.registry.Registered schema)
    (h : session.registry.resolve (session.contents walker) walker.name schema.tag = .ok tag) :
    schema.accept walker session = .ok () session := by
  have hresolve := schema.resolve_eq walker session
  rw [h] at hresolve
  rw [accept, bind_of_ok (register_of_registered hregistered),
    bind_of_ok (Action.outcome_eq_ok_iff.1 hresolve)]
  rfl

/-- The parent's configuration is read if its object has the tag. -/
theorem FairyConfig.parse_of_tag {session registered : Session} {text root : String} {config : Config}
    (hregister : (registerAllSchemas : Action FairyError Unit) session = .ok () registered)
    (hholds : registered.registry.Holds fairyEntries) (hconfig : Config.parse text = .ok config)
    (htag : config.typeTag? root = some FairyConfig.schema.tag) :
    (FairyConfig.parse text root).outcome session
      = (.ok (registered.newWalker 0 root), registered.extended [config]) := by
  have hmem : FairyConfig.schema ∈ fairySchemas := List.mem_append_right _ List.mem_cons_self
  have hstore : (Action.addStore config : Action FairyError StoreId) registered
      = .ok registered.stores.configs.length (registered.extended [config]) := rfl
  have hcontents : (registered.extended [config]).contents (registered.newWalker 0 root) = config :=
    Session.contents_extended_new rfl root
  have hresolve : registered.registry.resolve config root FairyConfig.schema.tag
      = .ok FairyConfig.schema.tag :=
    Registry.resolve_eq_ok_iff.2 ⟨htag, hholds.contains hmem, Registry.isAssignable_self _ _⟩
  have haccept : FairyConfig.schema.accept (registered.newWalker 0 root) (registered.extended [config])
      = .ok () (registered.extended [config]) := by
    have hregistered : (registered.extended [config]).registry.Registered FairyConfig.schema :=
      hholds.registered hmem
    exact Schema.accept_of_resolve hregistered (hcontents.symm ▸ hresolve)
  rw [Action.outcome_eq_ok_iff, FairyConfig.parse, bind_of_ok hregister, hconfig]
  exact (bind_of_ok hstore).trans (bind_of_ok (Action.mapError_of_ok haccept))

/-- **The parent's configuration that is read** stands in a further store, with all schemas registered. -/
theorem FairyConfig.parse_eq_ok {session after : Session} {text root : String} {walker : Walker}
    (hadmits : session.registry.Admits fairyEntries)
    (h : (FairyConfig.parse text root).outcome session = (.ok walker, after)) :
    ∃ (config : Config) (registry : Registry), Config.parse text = .ok config ∧
      registry.Holds fairyEntries ∧ walker = session.newWalker 0 root ∧
      after = { session with registry }.extended [config] := by
  obtain ⟨registry, hregister, hholds⟩ := registerAllSchemas_of_admits (ε := FairyError) hadmits
  have hparse := Action.outcome_eq_ok_iff.1 h
  rw [FairyConfig.parse, bind_of_ok hregister] at hparse
  cases hconfig : Config.parse text with
  | error e =>
    rw [hconfig] at hparse
    cases hparse
  | ok config =>
    rw [hconfig] at hparse
    have hstore : (Action.addStore config : Action FairyError StoreId) { session with registry }
        = .ok session.stores.configs.length ({ session with registry }.extended [config]) := rfl
    have hregistered : registry.Registered FairyConfig.schema :=
      hholds.registered (List.mem_append_right _ List.mem_cons_self)
    dsimp only at hparse
    rw [bind_of_ok hstore] at hparse
    -- the text is in its store now; the schema accepts the object there or the whole fails
    cases haccept : FairyConfig.schema.accept ⟨session.stores.configs.length, root⟩
        ({ session with registry }.extended [config]) with
    | ok result accepted =>
      have hlift : (Action.mapError FairyError.typed
          (FairyConfig.schema.accept ⟨session.stores.configs.length, root⟩))
          ({ session with registry }.extended [config]) = .ok result accepted :=
        Action.mapError_of_ok haccept
      have hsame := Schema.eq_of_accept hregistered haccept
      replace hparse := (bind_of_ok hlift).symm.trans hparse
      cases hparse
      exact ⟨config, registry, rfl, hholds, rfl, hsame⟩
    | error e rejected =>
      have hlift : (Action.mapError FairyError.typed
          (FairyConfig.schema.accept ⟨session.stores.configs.length, root⟩))
          ({ session with registry }.extended [config]) = .error (.typed e) rejected :=
        Action.mapError_of_error haccept
      replace hparse := (bind_of_error hlift).symm.trans hparse
      cases hparse

end GraphWire
