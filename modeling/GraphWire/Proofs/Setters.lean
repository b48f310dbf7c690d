import GraphWire.Proofs.Containers

/-!
# `Proofs.Setters` — a field is written as a whole or not at all

A typed field is written in up to three steps: its elements are encoded, one value is written under its name,
and a mapping writes its keys beside that. The first step changes nothing, and the second is a single write,
which changes nothing if it fails. The third cannot fail after the second: the owner is there then, and keys
are texts, which bring nothing along.

## Contents
- **Encoding.** `FieldKind.toField`, with `Element.toFields_eq_error`, what cannot be encoded.
- **Steps.** `FieldKind.assign_eq`, and **`assignKeys_of_contains`**, keys are always written.
- **Mappings.** `stored_of_assign_mapping`; `Config.InStep`, as many values as keys, and `inStep_of_assign`.
- **`assign_all_or_nothing`**.
-/

namespace GraphWire

open Config

/-! ## Encoding -/

/-- What is written under the name of the field. -/
def FieldKind.toField : (kind : FieldKind) → kind.Carrier → Except TypedError FieldValue
  | single e, x => .ok (e.toField x)
  | optional _, none => .ok .unset
  | optional e, some x => .ok (e.toField x)
  | sequence e, items => e.toFields items
  | mapping e, m => e.toFields m.values

theorem error_of_map {ε α β : Type} {f : α → β} {x : Except ε α} {fault : ε} (h : x.map f = .error fault) :
    x = .error fault := by
  cases x with
  | error fault' =>
    cases h
    rfl
  | ok a => cases h

theorem nestedItem_of_partItems {items : List Value} {fault : ValueFault}
    (h : partItems items = .error fault) : ∃ item, fault = .nestedItem item := by
  induction items with
  | nil => cases h
  | cons item items ih =>
    cases item with
    | text s => exact ih (error_of_map h)
    | number n => exact ih (error_of_map h)
    | texts names =>
      cases h
      exact ⟨_, rfl⟩
    | numbers ns =>
      cases h
      exact ⟨_, rfl⟩

/-- Elements that cannot be encoded are of different kinds, or one of them is a list. -/
theorem Element.toFields_eq_error {e : Element} {items : List e.Carrier} {fault : TypedError}
    (h : e.toFields items = .error fault) :
    fault = .invalidValue .mixedItems ∨ ∃ item, fault = .invalidValue (.nestedItem item) := by
  cases items with
  | nil =>
    rw [toFields_nil] at h
    cases h
  | cons x items =>
    cases e with
    | object schema => cases h
    | scalar t =>
      cases hlist : listOfItems ((x :: items).map t.store) with
      | ok list =>
        simp only [toFields, hlist] at h
        cases h
      | error reason =>
        simp only [toFields, hlist] at h
        cases h
        rw [listOfItems] at hlist
        split at hlist
        · next hparts =>
          cases hlist
          obtain ⟨item, rfl⟩ := nestedItem_of_partItems hparts
          exact Or.inr ⟨item, rfl⟩
        · cases hlist
        · cases hlist
        · cases hlist
          exact Or.inl rfl

theorem FieldKind.toField_eq_error {kind : FieldKind} {x : kind.Carrier} {fault : TypedError}
    (h : kind.toField x = .error fault) :
    fault = .invalidValue .mixedItems ∨ ∃ item, fault = .invalidValue (.nestedItem item) := by
  cases kind with
  | single e => cases h
  | optional e => cases x <;> cases h
  | sequence e => exact Element.toFields_eq_error h
  | mapping e => exact Element.toFields_eq_error h

/-! ## Steps -/

/-- What is written beside the field: the keys, if it is a mapping. -/
def FieldKind.assignKeys (owner : Walker) (name : String) :
    (kind : FieldKind) → kind.Carrier → Action TypedError Unit
  | mapping _, m => Action.setField owner (keysField name) (.value (.texts m.keys))
  | _, _ => pure ()

/-- **A field is encoded, then written, then its keys are written.** -/
theorem FieldKind.assign_eq (owner : Walker) (name : String) (kind : FieldKind) (x : kind.Carrier) :
    kind.assign owner name x = (do
      let v ← Action.ofExcept (kind.toField x)
      Action.setField owner name v
      kind.assignKeys owner name x) := by
  cases kind with
  | single e => exact (bind_pure (m := Action TypedError) _).symm
  | optional e => cases x <;> exact (bind_pure (m := Action TypedError) _).symm
  | sequence e =>
    refine congrArg (Action.ofExcept (e.toFields x) >>= ·) (funext fun v => ?_)
    exact (bind_pure (m := Action TypedError) _).symm
  | mapping e => rfl

section

variable {session : Session} {owner : Walker} {field name : String} {v : FieldValue}

theorem Session.setField_of_write_error {e : ConfigError}
    (h : session.stores.write owner field v = .error e) :
    (liftM (Action.setField owner field v) : Action TypedError Unit) session
      = .error (.config e) session := by
  have houtcome := Action.outcome_setField session owner field v
  rw [h] at houtcome
  exact Action.mapError_of_error (Action.outcome_eq_error_iff.1 houtcome)

/-- A value without references can be written into every object that is there. -/
theorem Stores.importable_of_no_walkers {stores : Stores} (hv : v.walkers = [])
    (there : (stores.get owner.store).contains owner.name) : stores.Importable owner v := by
  have hnone : ∀ source name, ¬ stores.Brings owner.store v.walkers source name := by
    rintro source name ⟨-, w, hw, -⟩
    rw [hv] at hw
    cases hw
  exact ⟨there, fun a b name hbrings => absurd hbrings (hnone a name),
    fun source name hbrings => absurd hbrings (hnone source name)⟩

/-- **The keys can be written whenever the owner is there.** -/
theorem FieldKind.assignKeys_of_contains (name : String) {kind : FieldKind} (x : kind.Carrier)
    (there : (session.contents owner).contains owner.name) :
    ∃ after, kind.assignKeys owner name x session = .ok () after := by
  cases kind with
  | single e => exact ⟨session, rfl⟩
  | optional e => exact ⟨session, rfl⟩
  | sequence e => exact ⟨session, rfl⟩
  | mapping e =>
    obtain ⟨stores, hwrite⟩ := Stores.exists_write_iff.2
      (Stores.importable_of_no_walkers (v := .value (.texts x.keys)) rfl there)
    exact ⟨_, Session.setField_of_write hwrite⟩

variable {kind : FieldKind} {x : kind.Carrier}

theorem FieldKind.outcome_assign_of_unencoded {e : TypedError} (h : kind.toField x = .error e) :
    (kind.assign owner name x).outcome session = (.error e, session) := by
  rw [assign_eq]
  exact Action.outcome_eq_error_iff.2 (bind_of_error (Action.ofExcept_of_error h))

theorem FieldKind.outcome_assign_of_unwritten {e : ConfigError} (h : kind.toField x = .ok v)
    (hwrite : session.stores.write owner name v = .error e) :
    (kind.assign owner name x).outcome session = (.error (.config e), session) := by
  rw [assign_eq]
  apply Action.outcome_eq_error_iff.2
  rw [bind_of_ok (Action.ofExcept_of_ok h)]
  exact bind_of_error (Session.setField_of_write_error hwrite)

theorem FieldKind.outcome_assign_of_written {stores : Stores} (h : kind.toField x = .ok v)
    (hwrite : session.stores.write owner name v = .ok stores) :
    ∃ after, (kind.assign owner name x).outcome session = (.ok (), after) := by
  have hthere := (Session.writes_of_write hwrite).rewrites.owner_there
  obtain ⟨after, hkeys⟩ := assignKeys_of_contains name x hthere
  refine ⟨after, ?_⟩
  rw [assign_eq]
  apply Action.outcome_eq_ok_iff.2
  rw [bind_of_ok (Action.ofExcept_of_ok h), bind_of_ok (Session.setField_of_write hwrite)]
  exact hkeys

end

/-! ## Mappings -/

/-- A list of so many items is stored. Nothing is stored for one without items. -/
inductive Value.Listed : Option Value → Nat → Prop where
  | absent : Listed none 0
  | texts (items : List String) : Listed (some (.texts items)) items.length
  | numbers (items : List Number) : Listed (some (.numbers items)) items.length

/-- There are as many values of the mapping as keys. -/
def Config.InStep (config : Config) (owner name : String) : Prop :=
  ∃ n, Value.Listed (config.raw? owner name) n ∧ Value.Listed (config.raw? owner (keysField name)) n

theorem FieldValue.listed_texts (items : List String) :
    Value.Listed (FieldValue.value (.texts items)).stored? items.length := by
  cases items with
  | nil => exact .absent
  | cons s items => exact .texts _

/-- As many items are stored as there are elements. -/
theorem Element.listed_toFields {e : Element} {items : List e.Carrier} {v : FieldValue}
    (h : e.toFields items = .ok v) : Value.Listed v.stored? items.length := by
  cases items with
  | nil =>
    rw [toFields_nil] at h
    cases h
    exact .absent
  | cons x items =>
    obtain ⟨texts, hstored, hall⟩ | ⟨numbers, hstored, hall⟩ := toFields_eq_ok h
    · rw [hstored, hall.length_eq]
      exact .texts texts
    · rw [hstored, hall.length_eq]
      exact .numbers numbers

section

variable {session after : Session} {owner : Walker} {name : String} {e : Element} {m : OrderedMap e.Carrier}

/-- **What is stored for a mapping:** its values under the name of the field, and its keys beside them. -/
theorem stored_of_assign_mapping
    (h : ((FieldKind.mapping e).assign owner name m).outcome session = (.ok (), after)) :
    ∃ v, e.toFields m.values = .ok v ∧ session.Rewrites after owner [name, keysField name] ∧
      (after.contents owner).raw? owner.name name = v.stored? ∧
      (after.contents owner).raw? owner.name (keysField name)
        = (FieldValue.value (.texts m.keys)).stored? := by
  obtain ⟨v, _, hencoded, hset⟩ := exists_of_bind (Action.outcome_eq_ok_iff.1 h)
  obtain ⟨hv, rfl⟩ := Action.eq_ok_of_ofExcept hencoded
  obtain ⟨_, mid, hset, hsetKeys⟩ := exists_of_bind hset
  have hvalues := Session.writes_of_setField hset
  have hkeys := Session.writes_of_setField hsetKeys
  refine ⟨v, hv, hvalues.rewrites.trans hkeys.rewrites, ?_, hkeys.stored⟩
  -- the values stand as they were written while the keys are
  rw [hkeys.rewrites.raw?_eq (FieldKind.notMem_keysField name), hvalues.stored]

/-- A mapping that was written has as many values as keys. -/
theorem inStep_of_assign
    (h : ((FieldKind.mapping e).assign owner name m).outcome session = (.ok (), after)) :
    (after.contents owner).InStep owner.name name := by
  obtain ⟨v, hv, -, hvalues, hkeys⟩ := stored_of_assign_mapping h
  have hlength : m.values.length = m.keys.length := by
    rw [OrderedMap.values, OrderedMap.keys, Entry.keys, List.length_map, List.length_map]
  refine ⟨m.keys.length, ?_, ?_⟩
  · rw [hvalues, ← hlength]
    exact Element.listed_toFields hv
  · rw [hkeys]
    exact FieldValue.listed_texts m.keys

end

/-! ## All or nothing -/

/-- **A field is written as a whole or not at all,** whatever its shape and its elements are. It is written
    exactly when its elements can be encoded and what they refer to can be imported. Otherwise nothing has
    changed, and the error is that the owner is missing, that a name clashes, or that the elements are of
    different kinds or lists themselves. A mapping that is written has as many values as keys, and one that is
    not keeps those that it has. -/
theorem assign_all_or_nothing (session : Session) (owner : Walker) (name : String) (kind : FieldKind)
    (x : kind.Carrier) :
    let result := ((kind.assign owner name x).outcome session).1
    let after := ((kind.assign owner name x).outcome session).2
    (result = .ok () ↔ ∃ v, kind.toField x = .ok v ∧ session.stores.Importable owner v) ∧
    (∀ fault, result = .error fault → after = session ∧
      (fault = .config (.objectMissing owner.name) ∨ (∃ other, fault = .config (.nameCollision other)) ∨
        fault = .invalidValue .mixedItems ∨ ∃ item, fault = .invalidValue (.nestedItem item))) ∧
    (∀ e, kind = .mapping e →
      result = .ok () ∨ (session.contents owner).InStep owner.name name →
      (after.contents owner).InStep owner.name name) := by
  cases hencode : kind.toField x with
  | error fault =>
    rw [FieldKind.outcome_assign_of_unencoded hencode]
    refine ⟨⟨?_, ?_⟩, ?_, ?_⟩
    · intro h
      cases h
    · rintro ⟨v, h, -⟩
      cases h
    · intro fault' h
      cases h
      exact ⟨rfl, Or.inr (Or.inr (FieldKind.toField_eq_error hencode))⟩
    · rintro e - (h | h)
      · cases h
      · exact h
  | ok v =>
    cases hwrite : session.stores.write owner name v with
    | error fault =>
      rw [FieldKind.outcome_assign_of_unwritten hencode hwrite]
      refine ⟨⟨?_, ?_⟩, ?_, ?_⟩
      · intro h
        cases h
      · rintro ⟨v', h, himportable⟩
        cases h
        obtain ⟨stores, hok⟩ := Stores.exists_write_iff.2 himportable
        rw [hwrite] at hok
        cases hok
      · intro fault' h
        cases h
        refine ⟨rfl, ?_⟩
        rcases Stores.write_eq_error hwrite with rfl | ⟨other, rfl⟩
        · exact Or.inl rfl
        · exact Or.inr (Or.inl ⟨other, rfl⟩)
      · rintro e - (h | h)
        · cases h
        · exact h
    | ok stores =>
      obtain ⟨after, hassign⟩ := FieldKind.outcome_assign_of_written hencode hwrite
      refine ⟨⟨fun _ => ⟨v, rfl, Stores.exists_write_iff.1 ⟨stores, hwrite⟩⟩, fun _ => ?_⟩, ?_, ?_⟩
      · rw [hassign]
      · intro fault h
        rw [hassign] at h
        cases h
      · rintro e rfl -
        rw [hassign]
        exact inStep_of_assign hassign

end GraphWire
