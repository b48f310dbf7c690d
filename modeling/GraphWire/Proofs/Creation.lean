import GraphWire.Proofs.Gathering
import GraphWire.Proofs.Setters

/-!
# `Proofs.Creation` — objects that are made with their fields

An object is made in three steps: its schema is registered, it is added to the store under a name that must be
free, and its fields are written in the order of their declarations. The first two fail without a trace in the
store. A write that fails changes nothing itself, but the object and the fields written before it stay.

## Contents
- **Operations.** `Schema.createIn_eq` and `Schema.createWith_eq`, one decision after another.
- **Failures.** `Schema.Begins`, and **`createWith_fails_unchanged_iff`**.
- **The order of the arguments.** `inDeclaredOrder_of_perm`, **`exists_createWith_iff`**, and
  **`createWith_order_free`**.
-/

namespace GraphWire

open Config

/-! ## Operations -/

theorem Action.writeAll_eq (owner : Walker) (fields : List (String × FieldValue)) (session : Session) :
    (forIn fields PUnit.unit fun x _ =>
        match x with
        | (field, v) => do
          liftM (Action.setField owner field v)
          pure (ForInStep.yield PUnit.unit) : Action TypedError PUnit) session =
      match session.stores.writeAll owner fields with
      | (stores, .ok ()) => .ok PUnit.unit { session with stores }
      | (stores, .error e) => .error (.config e) { session with stores } := by
  induction fields generalizing session with
  | nil => rfl
  | cons first rest ih =>
    obtain ⟨field, v⟩ := first
    rw [List.forIn_cons, Stores.writeAll]
    cases hwrite : session.stores.write owner field v with
    | error e =>
      exact bind_of_error (bind_of_error (Session.setField_of_write_error hwrite))
    | ok stores =>
      have hstep : (do
          liftM (Action.setField owner field v)
          pure (ForInStep.yield PUnit.unit) : Action TypedError (ForInStep PUnit)) session
          = .ok (.yield PUnit.unit) { session with stores } :=
        bind_of_ok (Session.setField_of_write hwrite)
      exact (bind_of_ok hstep).trans (ih _)

/-- The name of an object that is made: the one that is given, or the next one that is issued. -/
def Session.nameFor (session : Session) (tag : String) : Option String → String
  | some name => name
  | none => session.nextName tag

/-- The walker of an object that is made. -/
abbrev Session.walkerFor (session : Session) (schema : Schema) (store : StoreId) (name? : Option String) :
    Walker := ⟨store, session.nameFor schema.tag name?⟩

/-- The session in which the object has its name. -/
def Session.named (session : Session) : Option String → Session
  | some _ => session
  | none => session.issue

theorem Action.addObject_eq (session : Session) (id : StoreId) (name : String) (object : Object) :
    addObject id name object session =
      match (session.stores.get id).tryAdd name object with
      | .ok grown => .ok () { session with stores := session.stores.set id grown }
      | .error e => .error e session := by
  show (ofExcept ((session.stores.get id).tryAdd name object) >>= setContents id) session = _
  cases (session.stores.get id).tryAdd name object <;> rfl

namespace Schema

variable {schema : Schema} {store : StoreId} {name? : Option String} {values : List (String × FieldValue)}
  {session after : Session}

/-- What is done once the object has its name. -/
theorem addTyped_eq (session : Session) (schema : Schema) (store : StoreId) (name : String) :
    (do
      liftM (Action.addObject store name (Object.typed schema.tag))
      pure ⟨store, name⟩ : Action TypedError Walker) session =
      match (session.stores.get store).tryAdd name (Object.typed schema.tag) with
      | .ok grown => .ok ⟨store, name⟩ { session with stores := session.stores.set store grown }
      | .error e => .error (.config e) session := by
  have hadd := Action.addObject_eq session store name (Object.typed schema.tag)
  cases htry : (session.stores.get store).tryAdd name (Object.typed schema.tag) with
  | ok grown =>
    rw [htry] at hadd
    exact bind_of_ok (Action.mapError_of_ok hadd)
  | error e =>
    rw [htry] at hadd
    exact bind_of_error (Action.mapError_of_error hadd)

/-- **How an object is made**, one decision after another. -/
theorem createIn_eq (session : Session) (schema : Schema) (store : StoreId) (name? : Option String) :
    schema.createIn store name? session =
      match session.registry.register schema with
      | (registry, .error fault) => .error fault { session with registry }
      | (registry, .ok ()) =>
        match (session.stores.get store).tryAdd (session.nameFor schema.tag name?)
            (Object.typed schema.tag) with
        | .ok grown => .ok (session.walkerFor schema store name?)
            { Session.named { session with registry } name? with stores := session.stores.set store grown }
        | .error e => .error (.config e) (Session.named { session with registry } name?) := by
  have hregister := Action.outcome_register session schema
  rcases hresult : session.registry.register schema with ⟨registry, fault | granted⟩
  · rw [hresult] at hregister
    exact bind_of_error (Action.outcome_eq_error_iff.1 hregister)
  · rw [hresult] at hregister
    rw [createIn, bind_of_ok (Action.outcome_eq_ok_iff.1 hregister)]
    cases name? with
    | some name => exact addTyped_eq { session with registry } schema store name
    | none => exact addTyped_eq (Session.issue { session with registry }) schema store _

/-- **How an object is made with its fields.** -/
theorem createWith_eq (session : Session) (schema : Schema) (store : StoreId) (name? : Option String)
    (values : List (String × FieldValue)) :
    schema.createWith store name? values session =
      match schema.unknownField? (values.map Prod.fst) with
      | some field => .error (.unknownField schema.tag field) session
      | none =>
        match schema.createIn store name? session with
        | .error fault made => .error fault made
        | .ok walker made =>
          match made.stores.writeAll walker (schema.inDeclaredOrder values) with
          | (stores, .ok ()) => .ok walker { made with stores }
          | (stores, .error e) => .error (.config e) { made with stores } := by
  rw [createWith]
  cases schema.unknownField? (values.map Prod.fst) with
  | some field => rfl
  | none =>
    cases hcreate : schema.createIn store name? session with
    | error fault made => exact bind_of_error hcreate
    | ok walker made =>
      refine (bind_of_ok hcreate).trans ?_
      have hwrites := Action.writeAll_eq walker (schema.inDeclaredOrder values) made
      dsimp only
      rcases hall : made.stores.writeAll walker (schema.inDeclaredOrder values) with ⟨stores, e | granted⟩
      · rw [hall] at hwrites
        exact bind_of_error hwrites
      · rw [hall] at hwrites
        exact bind_of_ok hwrites

end Schema

/-! ## Failures -/

/-- The session in which an object has been made that has no fields yet. -/
def Session.begun (session : Session) (schema : Schema) (store : StoreId) (name? : Option String) : Session :=
  { Session.named { session with registry := (session.registry.register schema).1 } name? with
    stores := session.stores.withObject (session.walkerFor schema store name?) (Object.typed schema.tag) }

theorem Session.stores_named (session : Session) (name? : Option String) :
    (session.named name?).stores = session.stores := by
  cases name? <;> rfl

namespace Schema

variable {schema : Schema} {store : StoreId} {name? : Option String}
  {values values' : List (String × FieldValue)} {session after : Session}

/-- What the making of an object asks for before it begins: fields that the schema declares, a schema that can be
    registered, and a name that is free. -/
structure Begins (schema : Schema) (session : Session) (store : StoreId) (name? : Option String)
    (values : List (String × FieldValue)) : Prop where
  declared : ∀ field ∈ Entry.keys values, field ∈ schema.fields.map FieldDecl.name
  registered : (session.registry.register schema).2 = .ok ()
  name_free : ¬ (session.stores.get store).contains (session.nameFor schema.tag name?)

theorem unknownField?_eq_none_iff {names : List String} :
    schema.unknownField? names = none ↔ ∀ name ∈ names, name ∈ schema.fields.map FieldDecl.name := by
  rw [unknownField?, List.find?_eq_none]
  refine forall₂_congr fun name _ => ?_
  rw [Bool.not_eq_true', Bool.not_eq_false, List.any_eq_true, List.mem_map]
  simp only [decide_eq_true_eq]

theorem createIn_of_free (hregister : (session.registry.register schema).2 = .ok ())
    (hfree : ¬ (session.stores.get store).contains (session.nameFor schema.tag name?)) :
    schema.createIn store name? session
      = .ok (session.walkerFor schema store name?) (session.begun schema store name?) := by
  rw [createIn_eq, Config.tryAdd, if_neg hfree, Session.begun]
  rcases hresult : session.registry.register schema with ⟨registry, result⟩
  rw [hresult] at hregister
  cases hregister
  rfl

/-- An object that is not made leaves the stores as they are. -/
theorem stores_of_createIn_error {fault : TypedError}
    (h : schema.createIn store name? session = .error fault after) : after.stores = session.stores := by
  rw [createIn_eq] at h
  split at h
  · cases h
    rfl
  · split at h
    · cases h
    · cases h
      exact Session.stores_named _ name?

/-- What was begun is made if all fields can be written. -/
theorem outcome_createWith_of_written {stores : Stores} (h : schema.Begins session store name? values)
    (hall : (session.begun schema store name?).stores.writeAll (session.walkerFor schema store name?)
      (schema.inDeclaredOrder values) = (stores, .ok ())) :
    (schema.createWith store name? values).outcome session
      = (.ok (session.walkerFor schema store name?), { session.begun schema store name? with stores }) := by
  apply Action.outcome_eq_ok_iff.2
  rw [createWith_eq, unknownField?_eq_none_iff.2 h.declared, createIn_of_free h.registered h.name_free]
  dsimp only
  rw [hall]

/-- It is not made, but left, if one of them cannot. -/
theorem outcome_createWith_of_unwritten {stores : Stores} {e : ConfigError}
    (h : schema.Begins session store name? values)
    (hall : (session.begun schema store name?).stores.writeAll (session.walkerFor schema store name?)
      (schema.inDeclaredOrder values) = (stores, .error e)) :
    (schema.createWith store name? values).outcome session
      = (.error (.config e), { session.begun schema store name? with stores }) := by
  apply Action.outcome_eq_error_iff.2
  rw [createWith_eq, unknownField?_eq_none_iff.2 h.declared, createIn_of_free h.registered h.name_free]
  dsimp only
  rw [hall]

/-- **What cannot begin leaves the stores as they are.** -/
theorem outcome_createWith_of_not_begins (h : ¬ schema.Begins session store name? values) :
    ∃ fault after, (schema.createWith store name? values).outcome session = (.error fault, after) ∧
      after.stores = session.stores := by
  simp only [Action.outcome_eq_error_iff]
  rw [createWith_eq]
  cases hunknown : schema.unknownField? (values.map Prod.fst) with
  | some field => exact ⟨_, session, rfl, rfl⟩
  | none =>
    cases hcreate : schema.createIn store name? session with
    | error fault made => exact ⟨fault, made, rfl, stores_of_createIn_error hcreate⟩
    | ok walker made =>
      -- it is made only if it can begin
      refine absurd ⟨unknownField?_eq_none_iff.1 hunknown, ?_, ?_⟩ h
      · rw [createIn_eq] at hcreate
        rcases hresult : session.registry.register schema with ⟨registry, fault | granted⟩
        · rw [hresult] at hcreate
          cases hcreate
        · rfl
      · intro hthere
        rw [createIn_eq, Config.tryAdd, if_pos hthere] at hcreate
        rcases hresult : session.registry.register schema with ⟨registry, fault | granted⟩ <;>
        · rw [hresult] at hcreate
          cases hcreate

/-- What was made had been begun, and its fields have been written. -/
theorem written_of_createWith {walker : Walker}
    (h : (schema.createWith store name? values).outcome session = (.ok walker, after)) :
    schema.Begins session store name? values ∧ walker = session.walkerFor schema store name? ∧
      (session.begun schema store name?).stores.writeAll walker (schema.inDeclaredOrder values)
        = (after.stores, .ok ()) := by
  by_cases hbegins : schema.Begins session store name? values
  · rcases hall : (session.begun schema store name?).stores.writeAll
      (session.walkerFor schema store name?) (schema.inDeclaredOrder values) with ⟨stores, e | granted⟩
    · rw [outcome_createWith_of_unwritten hbegins hall] at h
      cases h
    · rw [outcome_createWith_of_written hbegins hall] at h
      cases h
      exact ⟨hbegins, rfl, hall⟩
  · obtain ⟨fault, _, hfails, -⟩ := outcome_createWith_of_not_begins hbegins
    rw [hfails] at h
    cases h

theorem contains_begun (hstore : store < session.stores.configs.length) :
    ((session.begun schema store name?).stores.get store).contains (session.nameFor schema.tag name?) :=
  (@Stores.contains_withObject_iff session.stores (session.walkerFor schema store name?) hstore
    (Object.typed schema.tag) _).2 (Or.inl rfl)

/-- Fields that were written in turn, from the first one on, leave the object with these fields. -/
theorem creates_of_writeAll (hstore : store < session.stores.configs.length)
    (h : schema.Begins session store name? values) {done : List (String × FieldValue)} {stores : Stores}
    (hdone : (session.begun schema store name?).stores.writeAll (session.walkerFor schema store name?) done
      = (stores, .ok ())) :
    session.stores.Creates (session.walkerFor schema store name?) done
      (FieldValue.writeAllInto done (Object.typed schema.tag)) stores := by
  exact Stores.creates_of_gathered hstore h.name_free
    (Stores.gathered_of_writeAll (contains_begun hstore) hdone)

/-- **An object that cannot be made is there nevertheless if a field is what fails.** The stores are as they were
    exactly if the making could not begin: a field is not declared, the schema cannot be registered, or the name
    is taken. Otherwise a name of what a field brings along clashes. Then the object has been made with the fields
    declared before that one, and what they bring along has been taken up. -/
theorem createWith_fails_unchanged_iff {fault : TypedError} (hstore : store < session.stores.configs.length)
    (h : (schema.createWith store name? values).outcome session = (.error fault, after)) :
    (after.stores = session.stores ↔ ¬ schema.Begins session store name? values) ∧
    (schema.Begins session store name? values →
      ∃ done field v rest clash, schema.inDeclaredOrder values = done ++ (field, v) :: rest ∧
        session.stores.Creates (session.walkerFor schema store name?) done
          (FieldValue.writeAllInto done (Object.typed schema.tag)) after.stores ∧
        after.stores.write (session.walkerFor schema store name?) field v = .error (.nameCollision clash) ∧
        fault = .config (.nameCollision clash)) := by
  by_cases hbegins : schema.Begins session store name? values
  · rcases hall : (session.begun schema store name?).stores.writeAll
      (session.walkerFor schema store name?) (schema.inDeclaredOrder values) with ⟨stores, e | granted⟩
    · rw [outcome_createWith_of_unwritten hbegins hall] at h
      cases h
      obtain ⟨done, field, v, rest, hsplit, hdone, hwrite⟩ := Stores.exists_of_writeAll_error hall
      have hcreates := creates_of_writeAll hstore hbegins hdone
      obtain ⟨clash, rfl⟩ := Stores.eq_nameCollision_of_write hcreates.contains hwrite
      exact ⟨⟨fun hsame => absurd hsame hcreates.ne, fun hnot => absurd hbegins hnot⟩,
        fun _ => ⟨done, field, v, rest, clash, hsplit, hcreates, hwrite, rfl⟩⟩
    · rw [outcome_createWith_of_written hbegins hall] at h
      cases h
  · obtain ⟨fault', after', hfails, hsame⟩ := outcome_createWith_of_not_begins hbegins
    rw [hfails] at h
    cases h
    exact ⟨⟨fun _ => hbegins, fun _ => hsame⟩, fun hthere => absurd hthere hbegins⟩

end Schema

/-! ### A failure that leaves an object -/

/-- A schema with a size, and one that adds references to parts. -/
def rackSchema : Schema := .declare "Rack" "rack" [⟨"size", .single (.scalar .number)⟩]

def shelfSchema : Schema := rackSchema.extend "Shelf" "shelf"
  [⟨"spare", .optional (.object ⟨"Part", "part"⟩)⟩, ⟨"parts", .sequence (.object ⟨"Part", "part"⟩)⟩]

def shelfRegistry : Registry := (SortedMap.empty.insert "rack" rackSchema.entry).insert "shelf" shelfSchema.entry

/-- The same part in two fields; what it leads to would be imported twice. -/
def clashingParts : List (String × FieldValue) := [("parts", .refs [⟨1, "c"⟩]), ("spare", .ref ⟨1, "c"⟩)]

/-- The first configuration with a shelf that has a spare part, and no parts. -/
def halfMadeCrate : Config := .ofStatements
  [⟨"a", "parts", .text "b"⟩, ⟨"a", "size", .number .one⟩, ⟨"b", "next", .text "a"⟩,
    ⟨"c", "next", .text "d"⟩, ⟨"d", "next", .text "c"⟩,
    ⟨"shelf", typeField, .text "shelf"⟩, ⟨"shelf", "spare", .text "c"⟩]

def halfMadeSession : Session := ⟨⟨[halfMadeCrate, partConfig]⟩, shelfRegistry, 0⟩

/-- The part leads to all of its store, whatever the store is that it is brought to. -/
theorem imports_part (config : Config) :
    (Stores.mk [config, partConfig]).imports 0 [⟨1, "c"⟩] = .ok partConfig := by
  have hpart : (Stores.mk [config, partConfig]).get 1 = partConfig := rfl
  rw [Stores.imports_ref (by decide), hpart, extract_partConfig]

theorem begins_shelf {values : List (String × FieldValue)}
    (h : ∀ field ∈ Entry.keys values, field ∈ shelfSchema.fields.map FieldDecl.name) :
    shelfSchema.Begins crateSession 0 (some "shelf") values :=
  ⟨h, by decide +kernel, by decide +kernel⟩

theorem createWith_clashingParts :
    (shelfSchema.createWith 0 (some "shelf") clashingParts).outcome crateSession
      = (.error (.config (.nameCollision "c")), halfMadeSession) := by
  have horder : shelfSchema.inDeclaredOrder clashingParts
      = [("spare", .ref ⟨1, "c"⟩), ("parts", .refs [⟨1, "c"⟩])] := by decide +kernel
  have hspare : (crateSession.begun shelfSchema 0 (some "shelf")).stores.write ⟨0, "shelf"⟩ "spare"
      (.ref ⟨1, "c"⟩) = .ok halfMadeSession.stores := by
    have himports : (crateSession.begun shelfSchema 0 (some "shelf")).stores.imports 0 [⟨1, "c"⟩]
        = .ok partConfig := imports_part _
    rw [Stores.write_eq, FieldValue.walkers, himports]
    decide +kernel
  have hparts : halfMadeSession.stores.write ⟨0, "shelf"⟩ "parts" (.refs [⟨1, "c"⟩])
      = .error (.nameCollision "c") := by
    have himports : halfMadeSession.stores.imports 0 [⟨1, "c"⟩] = .ok partConfig := imports_part _
    rw [Stores.write_eq, FieldValue.walkers, himports]
    decide +kernel
  have hall : (crateSession.begun shelfSchema 0 (some "shelf")).stores.writeAll ⟨0, "shelf"⟩
      (shelfSchema.inDeclaredOrder clashingParts) = (halfMadeSession.stores, .error (.nameCollision "c")) := by
    rw [horder, Stores.writeAll, hspare]
    show halfMadeSession.stores.writeAll ⟨0, "shelf"⟩ _ = _
    rw [Stores.writeAll, hparts]
  have hregistry : { crateSession.begun shelfSchema 0 (some "shelf") with stores := halfMadeSession.stores }
      = halfMadeSession := by decide +kernel
  rw [← hregistry]
  exact Schema.outcome_createWith_of_unwritten (begins_shelf (by decide)) hall

/-- The parts clash with those of the spare part, and the shelf is there with that one. -/
theorem createWith_fails_unchanged_iff_shelf :
    shelfSchema.Begins crateSession 0 (some "shelf") clashingParts ∧
    (shelfSchema.createWith 0 (some "shelf") clashingParts).outcome crateSession
      = (.error (.config (.nameCollision "c")), halfMadeSession) ∧
    halfMadeSession.stores ≠ crateSession.stores ∧
    ∃ done field v rest clash, shelfSchema.inDeclaredOrder clashingParts = done ++ (field, v) :: rest ∧
      crateSession.stores.Creates ⟨0, "shelf"⟩ done
        (FieldValue.writeAllInto done (Object.typed shelfSchema.tag)) halfMadeSession.stores ∧
      halfMadeSession.stores.write ⟨0, "shelf"⟩ field v = .error (.nameCollision clash) ∧
      TypedError.config (.nameCollision "c") = .config (.nameCollision clash) := by
  have hbegins : shelfSchema.Begins crateSession 0 (some "shelf") clashingParts := begins_shelf (by decide)
  obtain ⟨hunchanged, hleft⟩ := Schema.createWith_fails_unchanged_iff (by decide) createWith_clashingParts
  exact ⟨hbegins, createWith_clashingParts, fun hsame => hunchanged.1 hsame hbegins, hleft hbegins⟩

/-- What is left of a shelf that could not be made: the object, one of its fields, and the part in that field. -/
theorem failed_shelf_is_left :
    (shelfSchema.createWith 0 (some "shelf") clashingParts).outcome crateSession
      = (.error (.config (.nameCollision "c")), halfMadeSession) ∧
    (crateSession.stores.get 0).keys = ["a", "b"] ∧
    (halfMadeSession.stores.get 0).keys = ["a", "b", "c", "d", "shelf"] ∧
    ((halfMadeSession.stores.get 0).get? "shelf").map OrderedMap.entries
      = some [(typeField, .text "shelf"), ("spare", .text "c")] :=
  ⟨createWith_clashingParts, by decide +kernel, by decide +kernel, by decide +kernel⟩

/-! ## The order of the arguments -/

namespace Schema

variable {schema : Schema} {store : StoreId} {name? : Option String}
  {values values' : List (String × FieldValue)}

/-- The fields of an object that is made: what is stored for those that are declared, in the order of their
    declarations. -/
def storedFields (schema : Schema) (values : List (String × FieldValue)) : List (String × Value) :=
  (schema.fields.map FieldDecl.name).eraseDups.filterMap fun field =>
    ((Entry.find? field values).bind FieldValue.stored?).map (field, ·)

theorem inDeclaredOrder_eq (hdistinct : (Entry.keys values).Nodup) :
    schema.inDeclaredOrder values = (schema.fields.map FieldDecl.name).eraseDups.filterMap fun field =>
      (Entry.find? field values).map (field, ·) := by
  rw [inDeclaredOrder]
  simp only [OrderedMap.get?, OrderedMap.entries_ofList hdistinct]

theorem inDeclaredOrder_of_perm (hdistinct : (Entry.keys values).Nodup) (h : values.Perm values') :
    schema.inDeclaredOrder values' = schema.inDeclaredOrder values := by
  have hdistinct' : (Entry.keys values').Nodup := (h.map Prod.fst).nodup_iff.1 hdistinct
  rw [inDeclaredOrder_eq hdistinct, inDeclaredOrder_eq hdistinct']
  simp only [Entry.find?_of_perm h hdistinct]

/-- Nothing is added and nothing lost when the values are put in order. -/
theorem mem_inDeclaredOrder_iff (hdistinct : (Entry.keys values).Nodup)
    (hdeclared : ∀ field ∈ Entry.keys values, field ∈ schema.fields.map FieldDecl.name)
    (e : String × FieldValue) : e ∈ schema.inDeclaredOrder values ↔ e ∈ values := by
  obtain ⟨field, v⟩ := e
  rw [inDeclaredOrder_eq hdistinct, List.mem_filterMap]
  constructor
  · rintro ⟨name, -, hfound⟩
    obtain ⟨value, hvalue, heq⟩ := Option.map_eq_some_iff.1 hfound
    cases heq
    exact Entry.mem_of_find? hvalue
  · intro hmem
    refine ⟨field, List.mem_eraseDups.2 (hdeclared field (List.mem_map.2 ⟨_, hmem, rfl⟩)), ?_⟩
    rw [(Entry.mem_iff_find? hdistinct).1 hmem]
    rfl

theorem nodup_inDeclaredOrder (schema : Schema) (values : List (String × FieldValue)) :
    (Entry.keys (schema.inDeclaredOrder values)).Nodup := by
  apply List.pairwise_map.2
  apply List.pairwise_filterMap.2
  refine (Stores.nodup_eraseDups _).imp ?_
  intro field other hne e he e' he'
  obtain ⟨_, -, rfl⟩ := Option.map_eq_some_iff.1 he
  obtain ⟨_, -, rfl⟩ := Option.map_eq_some_iff.1 he'
  exact hne

theorem filterMap_inDeclaredOrder (hdistinct : (Entry.keys values).Nodup) :
    (schema.inDeclaredOrder values).filterMap FieldValue.storedAs? = schema.storedFields values := by
  rw [inDeclaredOrder_eq hdistinct, List.filterMap_filterMap, storedFields]
  congr 1
  funext field
  cases Entry.find? field values <;> rfl

/-- The fields of the object that is made, behind its type. -/
theorem entries_writeAllInto_inDeclaredOrder (hdistinct : (Entry.keys values).Nodup)
    (hdeclared : ∀ field ∈ Entry.keys values, field ∈ schema.fields.map FieldDecl.name)
    (hreserved : typeField ∉ Entry.keys values) :
    (FieldValue.writeAllInto (schema.inDeclaredOrder values) (Object.typed schema.tag)).entries
      = (typeField, .text schema.tag) :: schema.storedFields values := by
  have hnew : ∀ field ∈ Entry.keys (schema.inDeclaredOrder values),
      field ∉ (Object.typed schema.tag).keys := by
    intro field hfield htyped
    obtain ⟨e, he, rfl⟩ := List.mem_map.1 hfield
    have hmem := List.mem_map_of_mem (f := Prod.fst) ((mem_inDeclaredOrder_iff hdistinct hdeclared e).1 he)
    rw [List.mem_singleton.1 htyped] at hmem
    exact hreserved hmem
  rw [FieldValue.entries_writeAllInto (nodup_inDeclaredOrder schema values) hnew,
    filterMap_inDeclaredOrder hdistinct]
  rfl

/-- **What is made:** an object is made exactly if it can begin and if what its fields bring along can be
    gathered. -/
theorem exists_createWith_iff (hdistinct : (Entry.keys values).Nodup)
    (hdeclared : ∀ field ∈ Entry.keys values, field ∈ schema.fields.map FieldDecl.name) {session : Session}
    (hstore : store < session.stores.configs.length) :
    (∃ walker after, (schema.createWith store name? values).outcome session = (.ok walker, after)) ↔
      schema.Begins session store name? values ∧
        session.stores.Gatherable (session.walkerFor schema store name?) values := by
  have hmem := mem_inDeclaredOrder_iff hdistinct hdeclared
  have hgather : (∃ after, (session.begun schema store name?).stores.writeAll
      (session.walkerFor schema store name?) (schema.inDeclaredOrder values) = (after, .ok ())) ↔
      (session.begun schema store name?).stores.Gatherable (session.walkerFor schema store name?)
        (schema.inDeclaredOrder values) :=
    Stores.exists_writeAll_iff (contains_begun hstore) (nodup_inDeclaredOrder schema values)
  constructor
  · rintro ⟨walker, after, h⟩
    obtain ⟨hbegins, rfl, hall⟩ := written_of_createWith h
    have hgatherable := (Stores.gatherable_withObject_iff hstore _).1 (hgather.1 ⟨_, hall⟩)
    exact ⟨hbegins, hgatherable.of_mem fun e => (hmem e).2⟩
  · rintro ⟨hbegins, hgatherable⟩
    obtain ⟨stores, hall⟩ := hgather.2 ((Stores.gatherable_withObject_iff hstore _).2
      (hgatherable.of_mem fun e => (hmem e).1))
    exact ⟨_, _, outcome_createWith_of_written hbegins hall⟩

/-- **The order in which fields are given does not matter.** The result is the same, with the same error or the
    same session after it. An object is made exactly if the making can begin and if what the fields bring along
    can be gathered. It has its type first, which no schema declares as a field, and then what is stored for the
    fields, in the order of their declarations, those of ancestors before others. Everything that their
    references lead to in other stores has been taken up. -/
theorem createWith_order_free (hdistinct : (Entry.keys values).Nodup)
    (hdeclared : ∀ field ∈ Entry.keys values, field ∈ schema.fields.map FieldDecl.name)
    (hperm : values.Perm values') :
    schema.createWith store name? values' = schema.createWith store name? values ∧
    ∀ session : Session, store < session.stores.configs.length →
      ((∃ walker after, (schema.createWith store name? values).outcome session = (.ok walker, after)) ↔
        schema.Begins session store name? values ∧
          session.stores.Gatherable (session.walkerFor schema store name?) values) ∧
      ∀ walker after, (schema.createWith store name? values).outcome session = (.ok walker, after) →
        walker = session.walkerFor schema store name? ∧
        ∃ object, session.stores.Creates walker values object after.stores ∧
          (typeField ∉ Entry.keys values →
            object.entries = (typeField, .text schema.tag) :: schema.storedFields values) := by
  constructor
  · funext session
    have hdeclared' : ∀ field ∈ Entry.keys values', field ∈ schema.fields.map FieldDecl.name :=
      fun field hfield => hdeclared field ((hperm.map Prod.fst).mem_iff.2 hfield)
    rw [createWith_eq, createWith_eq, unknownField?_eq_none_iff.2 hdeclared,
      unknownField?_eq_none_iff.2 hdeclared', inDeclaredOrder_of_perm hdistinct hperm]
  · intro session hstore
    refine ⟨exists_createWith_iff hdistinct hdeclared hstore, ?_⟩
    intro walker after h
    obtain ⟨hbegins, rfl, hall⟩ := written_of_createWith h
    have hcreates := creates_of_writeAll hstore hbegins hall
    refine ⟨rfl, _, hcreates.congr fun e => (mem_inDeclaredOrder_iff hdistinct hdeclared e).symm, ?_⟩
    exact entries_writeAllInto_inDeclaredOrder hdistinct hdeclared

end Schema

/-- The fields of a shelf in no order, one of them without items. -/
def givenParts : List (String × FieldValue) :=
  [("spare", .ref ⟨1, "c"⟩), ("parts", .refs []), ("size", .value (.number .one))]

/-- The same in the order of their declarations. -/
def orderedParts : List (String × FieldValue) :=
  [("size", .value (.number .one)), ("spare", .ref ⟨1, "c"⟩), ("parts", .refs [])]

/-- What there is between the two fields. -/
def sizedCrate : Config := .ofStatements
  [⟨"a", "parts", .text "b"⟩, ⟨"a", "size", .number .one⟩, ⟨"b", "next", .text "a"⟩,
    ⟨"shelf", typeField, .text "shelf"⟩, ⟨"shelf", "size", .number .one⟩]

/-- The first configuration with a shelf of some size and with a spare part. -/
def shelfCrate : Config := .ofStatements
  [⟨"a", "parts", .text "b"⟩, ⟨"a", "size", .number .one⟩, ⟨"b", "next", .text "a"⟩,
    ⟨"c", "next", .text "d"⟩, ⟨"d", "next", .text "c"⟩,
    ⟨"shelf", typeField, .text "shelf"⟩, ⟨"shelf", "size", .number .one⟩, ⟨"shelf", "spare", .text "c"⟩]

def shelfSession : Session := ⟨⟨[shelfCrate, partConfig]⟩, shelfRegistry, 0⟩

theorem createWith_givenParts :
    (shelfSchema.createWith 0 (some "shelf") givenParts).outcome crateSession
      = (.ok ⟨0, "shelf"⟩, shelfSession) := by
  have horder : shelfSchema.inDeclaredOrder givenParts = orderedParts := by decide +kernel
  have hsize : (crateSession.begun shelfSchema 0 (some "shelf")).stores.write ⟨0, "shelf"⟩ "size"
      (.value (.number .one)) = .ok ⟨[sizedCrate, partConfig]⟩ := by decide +kernel
  have hspare : (Stores.mk [sizedCrate, partConfig]).write ⟨0, "shelf"⟩ "spare" (.ref ⟨1, "c"⟩)
      = .ok shelfSession.stores := by
    rw [Stores.write_eq, FieldValue.walkers, imports_part]
    decide +kernel
  have hparts : shelfSession.stores.write ⟨0, "shelf"⟩ "parts" (.refs []) = .ok shelfSession.stores := by
    decide +kernel
  have hall : (crateSession.begun shelfSchema 0 (some "shelf")).stores.writeAll ⟨0, "shelf"⟩
      (shelfSchema.inDeclaredOrder givenParts) = (shelfSession.stores, .ok ()) := by
    rw [horder, orderedParts, Stores.writeAll, hsize]
    show (Stores.mk [sizedCrate, partConfig]).writeAll ⟨0, "shelf"⟩ _ = _
    rw [Stores.writeAll, hspare]
    show shelfSession.stores.writeAll ⟨0, "shelf"⟩ _ = _
    rw [Stores.writeAll, hparts]
    rfl
  have hregistry : { crateSession.begun shelfSchema 0 (some "shelf") with stores := shelfSession.stores }
      = shelfSession := by decide +kernel
  rw [← hregistry]
  exact Schema.outcome_createWith_of_written (begins_shelf (by decide)) hall

/-- The shelf has its fields in the order of their declarations, and the other part has come along. -/
theorem createWith_order_free_shelf :
    shelfSchema.createWith 0 (some "shelf") orderedParts = shelfSchema.createWith 0 (some "shelf") givenParts ∧
    (shelfSchema.createWith 0 (some "shelf") givenParts).outcome crateSession
      = (.ok ⟨0, "shelf"⟩, shelfSession) ∧
    crateSession.stores.Gatherable ⟨0, "shelf"⟩ givenParts ∧
    shelfCrate.get? "d" = partConfig.get? "d" ∧
    ∃ shelf : Object, shelfCrate.get? "shelf" = some shelf ∧
      shelf.entries = [(typeField, .text "shelf"), ("size", .number .one), ("spare", .text "c")] := by
  have hperm : givenParts.Perm orderedParts := by decide +kernel
  obtain ⟨hsame, hmade⟩ := @Schema.createWith_order_free shelfSchema 0 (some "shelf") givenParts orderedParts
    (by decide) (by decide) hperm
  obtain ⟨hexact, hleft⟩ := hmade crateSession (by decide)
  obtain ⟨-, hgatherable⟩ := hexact.1 ⟨_, _, createWith_givenParts⟩
  obtain ⟨-, shelf, hcreates, hentries⟩ := hleft _ _ createWith_givenParts
  have hreaches : partConfig.Reaches "c" "d" := by
    have hthere : (partConfig.extract ["c"]).contains "d" := by
      rw [extract_partConfig]
      decide +kernel
    obtain ⟨root, hroot, hreach⟩ := Config.mem_reach_iff.1 (Config.contains_extract_iff.1 hthere)
    cases List.mem_singleton.1 hroot
    exact hreach
  refine ⟨hsame, createWith_givenParts, hgatherable, ?_, shelf, hcreates.object_made, hentries (by decide)⟩
  exact hcreates.brought "spare" (.ref ⟨1, "c"⟩) (by decide) 1 "d"
    ⟨by decide, _, List.mem_singleton_self _, rfl, hreaches⟩

end GraphWire
