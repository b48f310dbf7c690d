import GraphWire.Proofs.Growth
import Mathlib.Logic.Relation

/-!
# `Proofs.Runs` — operations in any order

Operations on walkers and on typed objects may come in any order, on any number of stores. Each of them does
what it does in small steps, and it does some of them even if it fails. There are nine kinds of such steps.
What every one of them keeps holds after every run.

## Contents
- **`Operation`**, the operations, with `Operation.action`, and **`Session.run`**.
- **`Session.Change`**, all that can happen to a session in one step, and `Session.Leads`, several of them.
- **Checks.** `Checking.leads_checks`.
- **`Action.Steps`**, an operation that is made of such steps, with `pure`, `bind`, `mapError` and `forIn`.
- **Operations.** What each of them is made of, such as `steps_createWith`.
- **`Operation.steps`** and **`Session.leads_run`**.
-/

namespace GraphWire

/-! ## Operations -/

/-- Adds all objects of another store to a store. -/
def Action.mergeFrom (id other : StoreId) : Action ConfigError Unit := do
  setContents id (← ofExcept ((← contents id).merge (← contents other)))

/-- An operation on walkers and stores, or on typed objects. -/
inductive Operation where
  /-- Makes a store with what the text describes. -/
  | parse (text : String)
  /-- Makes an empty store. -/
  | newStore
  /-- Makes a store with what another one holds. -/
  | snapshot (id : StoreId)
  /-- Adds all objects of another store. -/
  | merge (id other : StoreId)
  | set (owner : Walker) (field : String) (v : FieldValue)
  | remove (owner : Walker) (field : String)
  /-- Writes a declared field. -/
  | assign (owner : Walker) (field : FieldDecl) (x : field.kind.Carrier)
  | register (schema : Schema)
  | createIn (schema : Schema) (id : StoreId) (name? : Option String)
  | createWith (schema : Schema) (id : StoreId) (name? : Option String) (values : List (String × FieldValue))
  | accept (schema : Schema) (walker : Walker)
  | check (schema : Schema) (walker : Walker) (visited : List (String × String))

namespace Operation

/-- What the operation does; what it would return is left out. -/
def action (catalogue : Catalogue) : Operation → Action TypedError Unit
  | parse text => do
    let config ← Action.mapError .config (Action.ofExcept (Config.parse text))
    let _ ← Action.addStore config
  | newStore => do
    let _ ← Action.addStore SortedMap.empty
  | snapshot id => do
    let _ ← Action.addStore (← Action.contents id)
  | merge id other => Action.mergeFrom id other
  | set owner field v => Action.setField owner field v
  | remove owner field => do
    let _ ← Action.removeField owner field
  | assign owner field x => field.kind.assign owner field.name x
  | register schema => Action.register schema
  | createIn schema id name? => do
    let _ ← schema.createIn id name?
  | createWith schema id name? values => do
    let _ ← schema.createWith id name? values
  | accept schema walker => schema.accept walker
  | check schema walker visited => do
    let _ ← schema.checkFrom catalogue walker visited

/-- The schema that the operation is about. -/
def schema? : Operation → Option Schema
  | register schema => some schema
  | createIn schema _ _ => some schema
  | createWith schema _ _ _ => some schema
  | accept schema _ => some schema
  | check schema _ _ => some schema
  | _ => none

end Operation

/-- What operations leave that are made in turn, whether or not they fail. -/
def Session.run (catalogue : Catalogue) (session : Session) (operations : List Operation) : Session :=
  operations.foldl (fun session operation => ((operation.action catalogue).outcome session).2) session

/-! ## Steps -/

namespace Session

/-- **All that can happen to a session in one step**, if only schemas that are known are registered. -/
inductive Change (known : Schema → Prop) (session : Session) : Session → Prop where
  | registered {schema : Schema} (isKnown : known schema) :
      Change known session { session with registry := (session.registry.register schema).1 }
  | parsed {text : String} {config : Config} (parsed : Config.parse text = .ok config) :
      Change known session { session with stores := (session.stores.add config).2 }
  | newStore : Change known session { session with stores := (session.stores.add SortedMap.empty).2 }
  | copied (id : StoreId) :
      Change known session { session with stores := (session.stores.add (session.stores.get id)).2 }
  | merged {id other : StoreId} {grown : Config}
      (merged : (session.stores.get id).merge (session.stores.get other) = .ok grown) :
      Change known session { session with stores := session.stores.set id grown }
  | added {id : StoreId} {name tag : String} {grown : Config}
      (added : (session.stores.get id).tryAdd name (Object.typed tag) = .ok grown) :
      Change known session { session with stores := session.stores.set id grown }
  | written {owner : Walker} {field : String} {v : FieldValue} {stores : Stores}
      (written : session.stores.write owner field v = .ok stores) :
      Change known session { session with stores }
  | removed (owner : Walker) (field : String) :
      Change known session { session with stores := session.stores.remove owner field }
  | issued : Change known session { session with issued := session.issued + 1 }

/-- One session comes of the other in steps. -/
abbrev Leads (known : Schema → Prop) : Session → Session → Prop := Relation.ReflTransGen (Change known)

end Session

namespace Checking

variable {known : Schema → Prop} {catalogue : Catalogue}

/-- A single check registers at most a schema of the catalogue. -/
theorem leads_step (hcatalogue : ∀ schema ∈ catalogue, known schema) (config : Config)
    {state next : Checking} {check : Check} {more : Option (List Check)}
    (h : state.step catalogue config check = (next, more)) (session : Session) :
    Session.Leads known { session with registry := state.registry }
      { session with registry := next.registry } := by
  cases check with
  | object name ref =>
    rw [step] at h
    cases hfind : catalogue.find? ref.key with
    | none =>
      rw [hfind] at h
      cases h
      exact .refl
    | some schema =>
      have hknown : known schema := hcatalogue schema (List.mem_of_find?_eq_some hfind)
      simp only [hfind] at h
      split at h
      · cases h
        exact .refl
      · have hnext := fst_open? config state name schema
        rw [h] at hnext
        obtain rfl := hnext
        exact .single (.registered hknown)
  | field owner field =>
    cases h
    exact .refl

theorem leads_checks (hcatalogue : ∀ schema ∈ catalogue, known schema)
    (config : Config) (state : Checking) (checks : List Check) (session : Session) :
    Session.Leads known { session with registry := state.registry }
      { session with registry := (state.run catalogue config checks).2.registry } := by
  apply run_induction (P := fun state _ result =>
    Session.Leads known { session with registry := state.registry }
      { session with registry := result.2.registry })
  · exact fun _ => .refl
  · exact fun hstep => leads_step hcatalogue config hstep session
  · exact fun hstep ih => (leads_step hcatalogue config hstep session).trans ih

end Checking

namespace Action

variable {ε ε' α β : Type} {known : Schema → Prop} {x : Action ε α}

/-- The operation is made of steps, whether or not it fails. -/
def Steps (known : Schema → Prop) (x : Action ε α) : Prop :=
  ∀ session : Session, session.Leads known (x.outcome session).2

namespace Steps

theorem of_same (h : ∀ session, (x.outcome session).2 = session) : Steps known x := by
  intro session
  rw [h session]

theorem pure (a : α) : Steps known (Pure.pure a : Action ε α) := of_same fun _ => rfl

theorem ofExcept (result : Except ε α) : Steps known (Action.ofExcept result) :=
  of_same fun _ => by cases result <;> rfl

theorem bind {f : α → Action ε β} (hx : Steps known x) (hf : ∀ a, Steps known (f a)) :
    Steps known (x >>= f) := by
  intro session
  have hfirst := hx session
  cases hrun : x session with
  | ok a mid =>
    have hboth : (x >>= f).outcome session = (f a).outcome mid := by
      rw [outcome, bind_of_ok hrun, outcome]
    rw [outcome_eq_ok_iff.2 hrun] at hfirst
    rw [hboth]
    exact hfirst.trans (hf a mid)
  | error e mid =>
    rw [outcome_eq_error_iff.2 hrun] at hfirst
    rwa [outcome_eq_error_iff.2 (bind_of_error hrun)]

theorem mapError {f : ε → ε'} (hx : Steps known x) : Steps known (Action.mapError f x) := by
  intro session
  have hfirst := hx session
  cases hrun : x session with
  | ok a mid =>
    rw [outcome_eq_ok_iff.2 hrun] at hfirst
    rwa [outcome_eq_ok_iff.2 (mapError_of_ok hrun)]
  | error e mid =>
    rw [outcome_eq_error_iff.2 hrun] at hfirst
    rwa [outcome_eq_error_iff.2 (mapError_of_error hrun)]

theorem forIn {items : List β} {f : β → PUnit → Action ε (ForInStep PUnit)}
    (h : ∀ item r, Steps known (f item r)) : Steps known (forIn items PUnit.unit f) := by
  induction items with
  | nil => exact .pure _
  | cons item items ih =>
    rw [List.forIn_cons]
    refine .bind (h item _) fun next => ?_
    cases next with
    | done r => exact .pure r
    | yield r => exact ih

end Steps

/-! ### What operations are made of -/

theorem outcome_mergeFrom (session : Session) (id other : StoreId) :
    (mergeFrom id other).outcome session =
      (ofExcept ((session.stores.get id).merge (session.stores.get other)) >>= setContents id).outcome
        session := rfl

theorem steps_addObject (id : StoreId) (name tag : String) :
    Steps known (addObject id name (Object.typed tag)) := by
  intro session
  rw [outcome_addObject]
  cases h : (session.stores.get id).tryAdd name (Object.typed tag) with
  | ok grown => exact .single (.added h)
  | error e => exact .refl

theorem steps_mergeFrom (id other : StoreId) : Steps known (mergeFrom id other) := by
  intro session
  rw [outcome_mergeFrom]
  cases h : (session.stores.get id).merge (session.stores.get other) with
  | ok grown => exact .single (.merged h)
  | error e => exact .refl

theorem steps_setField (owner : Walker) (field : String) (v : FieldValue) :
    Steps known (setField owner field v) := by
  intro session
  rw [outcome_setField]
  cases h : session.stores.write owner field v with
  | ok stores => exact .single (.written h)
  | error e => exact .refl

theorem steps_register {schema : Schema} (h : known schema) : Steps known (register schema) := by
  intro session
  rw [outcome_register]
  exact .single (.registered h)

theorem steps_assign (owner : Walker) (name : String) {kind : FieldKind} (x : kind.Carrier) :
    Steps known (kind.assign owner name x) := by
  cases kind with
  | single e => exact .mapError (steps_setField _ _ _)
  | optional e => cases x <;> exact .mapError (steps_setField _ _ _)
  | sequence e => exact .bind (.ofExcept _) fun _ => .mapError (steps_setField _ _ _)
  | mapping e =>
    exact .bind (.ofExcept _) fun _ => .bind (.mapError (steps_setField _ _ _)) fun _ =>
      .mapError (steps_setField _ _ _)

theorem steps_issueName (tag : String) : Steps known (issueName tag : Action ε String) :=
  fun _ => .single .issued

theorem steps_createIn {schema : Schema} (h : known schema) (id : StoreId) (name? : Option String) :
    Steps known (schema.createIn id name?) := by
  refine .bind (steps_register h) fun _ => ?_
  cases name? with
  | some name =>
    exact .bind (.pure name) fun _ => .bind (.mapError (steps_addObject _ _ _)) fun _ => .pure _
  | none =>
    exact .bind (steps_issueName _) fun _ => .bind (.mapError (steps_addObject _ _ _)) fun _ => .pure _

theorem steps_createWith {schema : Schema} (h : known schema) (id : StoreId) (name? : Option String)
    (values : List (String × FieldValue)) : Steps known (schema.createWith id name? values) := by
  rw [Schema.createWith]
  cases schema.unknownField? (values.map Prod.fst) with
  | some field => exact .of_same fun _ => rfl
  | none =>
    refine .bind (steps_createIn h id name?) fun walker => .bind (.forIn fun item _ => ?_) fun _ => .pure _
    exact .bind (.mapError (steps_setField _ _ _)) fun _ => .pure _

theorem steps_accept {schema : Schema} (h : known schema) (walker : Walker) :
    Steps known (schema.accept walker) := by
  refine .bind (steps_register h) fun _ => .bind (.of_same fun session => ?_) fun _ => .pure _
  rw [Schema.resolve_eq]

theorem steps_checkFrom {catalogue : Catalogue} (hcatalogue : ∀ schema ∈ catalogue, known schema)
    (schema : Schema) (walker : Walker) (visited : List (String × String)) :
    Steps known (schema.checkFrom catalogue walker visited) := by
  intro session
  rw [Schema.outcome_checkFrom]
  exact Checking.leads_checks hcatalogue (session.contents walker) ⟨session.registry, visited⟩ _ session

end Action

/-! ## Runs -/

open GraphWire.Action

variable {known : Schema → Prop} {catalogue : Catalogue}

/-- **An operation is made of steps**, if its schema and those of the catalogue are known. -/
theorem Operation.steps (hcatalogue : ∀ schema ∈ catalogue, known schema) {operation : Operation}
    (h : ∀ schema ∈ operation.schema?, known schema) :
    Steps known (operation.action catalogue) := by
  cases operation with
  | parse text =>
    intro session
    cases hparse : Config.parse text with
    | error e =>
      rw [action, hparse]
      exact .refl
    | ok config =>
      rw [action, hparse]
      exact .single (.parsed hparse)
  | newStore => exact fun session => .single .newStore
  | snapshot id => exact fun session => .single (.copied id)
  | merge id other => exact .mapError (steps_mergeFrom id other)
  | set owner field v => exact .mapError (steps_setField owner field v)
  | remove owner field => exact fun session => .single (.removed owner field)
  | assign owner field x => exact steps_assign owner field.name x
  | register schema => exact steps_register (h schema rfl)
  | createIn schema id name? => exact .bind (steps_createIn (h schema rfl) id name?) fun _ => .pure _
  | createWith schema id name? values =>
    exact .bind (steps_createWith (h schema rfl) id name? values) fun _ => .pure _
  | accept schema walker => exact steps_accept (h schema rfl) walker
  | check schema walker visited =>
    exact .bind (steps_checkFrom hcatalogue schema walker visited) fun _ => .pure _

namespace Session

theorem run_append (catalogue : Catalogue) (session : Session) (done more : List Operation) :
    session.run catalogue (done ++ more) = (session.run catalogue done).run catalogue more :=
  List.foldl_append

/-- **A run is made of steps.** -/
theorem leads_run (hcatalogue : ∀ schema ∈ catalogue, known schema) (session : Session)
    {operations : List Operation}
    (h : ∀ operation ∈ operations, ∀ schema ∈ operation.schema?, known schema) :
    session.Leads known (session.run catalogue operations) := by
  induction operations generalizing session with
  | nil => exact .refl
  | cons operation operations ih =>
    obtain ⟨hfirst, hrest⟩ := List.forall_mem_cons.1 h
    exact (Operation.steps hcatalogue hfirst session).trans (ih _ hrest)

end Session

end GraphWire
