import GraphWire.Proofs.Growth
import GraphWire.Proofs.Messages
import GraphWire.Proofs.Relocation
import Mathlib.Data.List.Forall2

/-!
# `Proofs.Containers` — a field reads as what was written into it

What is written for a field is one value: a text, a number or a list of one of the two, with the keys of a
mapping beside it. A text is read as a reference if it happens to be the name of an object, so what is read
need not be what was stored. It is all the same what was written, if each element by itself would be: scalars
are read from the stored values, and the objects that are referred to are there, since the write brings
them along.

## Contents
- **Operations.** `exists_of_bind` and `Action.eq_ok_of_mapError`, what went before a success.
- **Writes.** `Session.Rewrites`, all that a write may change, and **`Session.Writes`**, what it leaves.
- **Elements.** `Element.RoundTrips`, what it means for scalars and for references, and
  **`Element.convert_of_roundTrips`**.
- **Lists.** `Element.toFields_eq_ok`, what is written for several elements, and
  **`FieldKind.readSequence_of_toFields`**.
- **`assign_then_fetch`**, for fields of all shapes.
-/

namespace GraphWire

open Config

/-! ## Operations that succeed -/

section

variable {ε σ α β : Type} {x : EStateM ε σ α} {f : α → EStateM ε σ β} {s s' : σ}

theorem exists_of_bind {b : β} (h : (x >>= f) s = .ok b s') :
    ∃ a mid, x s = .ok a mid ∧ f a mid = .ok b s' := by
  cases hx : x s with
  | ok a mid =>
    rw [bind_of_ok hx] at h
    exact ⟨a, mid, rfl, h⟩
  | error e mid =>
    rw [bind_of_error hx] at h
    cases h

end

namespace Action

variable {ε ε' α : Type} {session after : Session}

theorem eq_ok_of_mapError {f : ε → ε'} {x : Action ε α} {a : α}
    (h : mapError f x session = .ok a after) : x session = .ok a after := by
  cases hx : x session with
  | ok b mid =>
    rw [mapError_of_ok hx] at h
    cases h
    rfl
  | error e mid =>
    rw [mapError_of_error hx] at h
    cases h

theorem ofExcept_of_ok {result : Except ε α} {a : α} (h : result = .ok a) :
    ofExcept result session = .ok a session := by
  rw [h]
  rfl

theorem ofExcept_of_error {result : Except ε α} {e : ε} (h : result = .error e) :
    ofExcept result session = .error e session := by
  rw [h]
  rfl

theorem eq_ok_of_ofExcept {result : Except ε α} {a : α} (h : ofExcept result session = .ok a after) :
    result = .ok a ∧ after = session := by
  cases result with
  | ok b =>
    cases h
    exact ⟨rfl, rfl⟩
  | error e => cases h

end Action

/-! ## Writes -/

namespace Session

/-- All that may have changed: the owner's fields with the given names, and objects that are new in its
    store. -/
structure Rewrites (session after : Session) (owner : Walker) (written : List String) : Prop where
  /-- The owner has its other fields as it had them, in the same order. -/
  fields : ∃ old new, (session.contents owner).get? owner.name = some old ∧
    (after.contents owner).get? owner.name = some new ∧
    new.entries.filter (·.1 ∉ written) = old.entries.filter (·.1 ∉ written)
  /-- Every other object of its store is as it was. -/
  objects : ∀ name, name ≠ owner.name → (session.contents owner).contains name →
    (after.contents owner).get? name = (session.contents owner).get? name
  /-- So are the other stores. -/
  others : ∀ id, id ≠ owner.store → after.stores.get id = session.stores.get id
  /-- So is all that is not in stores. -/
  session : after = { session with stores := after.stores }

/-- A value was written into a field of the owner, and the objects that it refers to came along. -/
structure Writes (session after : Session) (owner : Walker) (field : String) (v : FieldValue) :
    Prop where
  rewrites : session.Rewrites after owner [field]
  stored : (after.contents owner).raw? owner.name field = v.stored?
  came : ∀ w ∈ v.walkers, w ≠ owner → (session.contents w).contains w.name →
    w.name ≠ owner.name ∧ (after.contents owner).get? w.name = (session.contents w).get? w.name

namespace Rewrites

variable {session mid after : Session} {owner : Walker} {a b written : List String}

theorem trans (h : session.Rewrites mid owner a) (h' : mid.Rewrites after owner b) :
    session.Rewrites after owner (a ++ b) := by
  obtain ⟨old, between, hold, hbetween, hfirst⟩ := h.fields
  obtain ⟨between', new, hbetween', hnew, hsecond⟩ := h'.fields
  cases hbetween.symm.trans hbetween'
  have hsecondFirst : ∀ object : Object, object.entries.filter (·.1 ∉ a ++ b)
      = (object.entries.filter (·.1 ∉ b)).filter (·.1 ∉ a) := by
    intro object
    simp only [List.filter_filter, List.mem_append, not_or, Bool.decide_and]
  have hfirstFirst : ∀ object : Object, object.entries.filter (·.1 ∉ a ++ b)
      = (object.entries.filter (·.1 ∉ a)).filter (·.1 ∉ b) := by
    intro object
    simp only [List.filter_filter, List.mem_append, not_or, Bool.decide_and, Bool.and_comm]
  constructor
  · refine ⟨old, new, hold, hnew, ?_⟩
    calc new.entries.filter (·.1 ∉ a ++ b)
        = between.entries.filter (·.1 ∉ a ++ b) := by
          rw [hsecondFirst, hsecond, ← hsecondFirst]
      _ = old.entries.filter (·.1 ∉ a ++ b) := by
          rw [hfirstFirst, hfirst, ← hfirstFirst]
  · intro name hname hthere
    have hmid := h.objects name hname hthere
    have hthere' : (mid.contents owner).contains name := by
      obtain ⟨object, hget⟩ := SortedMap.contains_iff.1 hthere
      exact SortedMap.contains_iff.2 ⟨object, hmid.trans hget⟩
    rw [h'.objects name hname hthere', hmid]
  · intro id hid
    rw [h'.others id hid, h.others id hid]
  · rw [h'.session, h.session]

theorem owner_there (h : session.Rewrites after owner written) :
    (after.contents owner).contains owner.name := by
  obtain ⟨_, new, -, hnew, -⟩ := h.fields
  exact SortedMap.contains_iff.2 ⟨new, hnew⟩

theorem contains (h : session.Rewrites after owner written) {name : String}
    (hthere : (session.contents owner).contains name) : (after.contents owner).contains name := by
  by_cases hname : name = owner.name
  · rw [hname]
    exact h.owner_there
  · obtain ⟨object, hget⟩ := SortedMap.contains_iff.1 hthere
    exact SortedMap.contains_iff.2 ⟨object, (h.objects name hname hthere).trans hget⟩

/-- A field that was not written is stored as before. -/
theorem raw?_eq (h : session.Rewrites after owner written) {field : String} (hfield : field ∉ written) :
    (after.contents owner).raw? owner.name field = (session.contents owner).raw? owner.name field := by
  obtain ⟨old, new, hold, hnew, hsame⟩ := h.fields
  have hmem : ∀ (object : Object) (value : Value), object.get? field = some value ↔
      (field, value) ∈ object.entries.filter (·.1 ∉ written) := by
    intro object value
    rw [List.mem_filter, OrderedMap.mem_entries_iff]
    exact (and_iff_left (decide_eq_true hfield)).symm
  rw [raw?, raw?, hold, hnew]
  apply Option.ext
  intro value
  exact (hmem new value).trans (hsame ▸ (hmem old value).symm)

end Rewrites

end Session

theorem FieldValue.Leaves.eq_stored? {v : FieldValue} {o : Option Value} (h : v.Leaves o) :
    o = v.stored? := by
  cases h with
  | @value value texts numbers =>
    have hlist : value.isEmptyList = false := by
      rw [Value.isEmptyList.eq_def]
      split
      · exact absurd rfl texts
      · exact absurd rfl numbers
      · rfl
    rw [stored?, hlist]
    rfl
  | unset => rfl
  | noTexts => rfl
  | noNumbers => rfl
  | ref target => rfl
  | noRefs => rfl
  | refs first others => rfl

namespace Session

variable {session after : Session} {owner : Walker} {field : String} {v : FieldValue}

/-- **What a write does**, to the owner, to its store and to the others. -/
theorem writes_of_write {stores : Stores} (h : session.stores.write owner field v = .ok stores) :
    session.Writes { session with stores } owner field v := by
  have himported := Stores.imported_of_write h
  have hfree := (Stores.exists_write_iff.1 ⟨stores, h⟩).names_free
  obtain ⟨old, new, hold, hnew, hleaves, hrest⟩ := himported.owner_written
  have hobjects : ∀ name, name ≠ owner.name → (session.contents owner).contains name →
      (stores.get owner.store).get? name = (session.contents owner).get? name := by
    intro name hname hthere
    exact himported.kept name hname fun source hbrings => hfree source name hbrings hthere
  constructor
  · refine ⟨⟨old, new, hold, hnew, ?_⟩, hobjects, himported.others, rfl⟩
    simpa only [List.mem_singleton] using hrest
  · show (stores.get owner.store).raw? owner.name field = v.stored?
    rw [raw?, hnew]
    exact hleaves.eq_stored?
  · intro w hw hne hthere
    by_cases hstore : w.store = owner.store
    · have hname : w.name ≠ owner.name := by
        intro hname
        obtain ⟨store, name⟩ := w
        cases hstore
        cases hname
        exact hne rfl
      have hsame : session.contents w = session.contents owner := by rw [contents, contents, hstore]
      rw [hsame] at hthere ⊢
      exact ⟨hname, hobjects w.name hname hthere⟩
    · -- the walker brings at least the object under its own name, which is free in the owner's store
      have hbrings : session.stores.Brings owner.store v.walkers w.store w.name :=
        ⟨hstore, w, hw, rfl, .here hthere⟩
      refine ⟨?_, himported.brought w.store w.name hbrings⟩
      intro hname
      exact hfree w.store w.name hbrings (hname ▸ SortedMap.contains_iff.2 ⟨old, hold⟩)

theorem writes_of_setField
    (h : (liftM (Action.setField owner field v) : Action TypedError Unit) session = .ok () after) :
    session.Writes after owner field v := by
  have hset : Action.setField owner field v session = .ok () after := Action.eq_ok_of_mapError h
  have houtcome := Action.outcome_eq_ok_iff.2 hset
  rw [Action.outcome_setField] at houtcome
  cases hwrite : session.stores.write owner field v with
  | error e =>
    rw [hwrite] at houtcome
    cases houtcome
  | ok stores =>
    rw [hwrite] at houtcome
    cases houtcome
    exact writes_of_write hwrite

theorem setField_of_write {stores : Stores} (h : session.stores.write owner field v = .ok stores) :
    (liftM (Action.setField owner field v) : Action TypedError Unit) session
      = .ok () { session with stores } := by
  have houtcome := Action.outcome_setField session owner field v
  rw [h] at houtcome
  exact Action.mapError_of_ok (Action.outcome_eq_ok_iff.1 houtcome)

/-- What the value refers to is in the owner's store then. -/
theorem Writes.contains (h : session.Writes after owner field v) {w : Walker} (hw : w ∈ v.walkers)
    (hthere : (session.contents w).contains w.name) : (after.contents owner).contains w.name := by
  by_cases hne : w = owner
  · rw [hne]
    exact h.rewrites.owner_there
  · obtain ⟨object, hget⟩ := SortedMap.contains_iff.1 hthere
    exact SortedMap.contains_iff.2 ⟨object, (h.came w hw hne hthere).2.trans hget⟩

end Session

/-! ## Elements -/

namespace Element

variable {stores : Stores} {home : StoreId} {field : String} {e : Element} {x : e.Carrier}
  {config : Config}

/-- The store of an element: that of the walker, and for a scalar the one given. -/
def storeOf (home : StoreId) : (e : Element) → e.Carrier → StoreId
  | scalar _, _ => home
  | object _, walker => walker.store

/-- The element by itself: what is written for it is stored, and in its own store and in the field it is read
    as the element. -/
def RoundTrips (stores : Stores) (home : StoreId) (field : String) (e : Element) (x : e.Carrier) :
    Prop :=
  ∃ stored, (e.toField x).stored? = some stored ∧
    e.convert (e.storeOf home x) ((stores.get (e.storeOf home x)).resolve field stored) = .ok x

/-- For a scalar that is a matter of its type. -/
theorem roundTrips_scalar_iff {t : ScalarType} {x : t.Carrier} :
    (scalar t).RoundTrips stores home field x ↔
      (t.store x).isEmptyList = false ∧ t.convert (t.store x) = .ok x := by
  rw [RoundTrips]
  simp only [convert, FieldKind.stored_resolve, toField, FieldValue.stored?]
  cases (t.store x).isEmptyList <;> simp

/-- A scalar that can be stored is one that comes back. -/
theorem roundTrips_of_storable {t : ScalarType} {x : t.Carrier} (h : t.Storable x) :
    (scalar t).RoundTrips stores home field x :=
  roundTrips_scalar_iff.2 ⟨(ScalarType.writable_store h).isEmptyList, FieldKind.convert_store h⟩

/-- A reference is read as itself if there is such an object. The field `type` has no references. -/
theorem roundTrips_object_iff {schema : SchemaRef} {walker : Walker} :
    (object schema).RoundTrips stores home field walker ↔
      field ≠ typeField ∧ (stores.get walker.store).contains walker.name := by
  have hstored : ((object schema).toField walker).stored? = some (.text walker.name) := rfl
  rw [RoundTrips]
  simp only [hstored, Option.some.injEq, exists_eq_left', resolve, resolveItem]
  by_cases hfield : field = typeField
  · simp [hfield, convert]
  · by_cases hthere : (stores.get walker.store).contains walker.name
    · simp [hfield, hthere, convert, storeOf]
    · simp [hfield, hthere, convert, storeOf]

theorem stored?_of_mem_walkers {w : Walker} (hw : w ∈ (e.toField x).walkers) :
    (e.toField x).stored? = some (.text w.name) := by
  cases e with
  | scalar t => cases hw
  | object schema =>
    cases List.mem_singleton.1 hw
    rfl

/-- What an element refers to exists if the element is read as itself, and not in the field `type`. -/
theorem RoundTrips.of_mem_walkers (h : e.RoundTrips stores home field x) {w : Walker}
    (hw : w ∈ (e.toField x).walkers) :
    field ≠ typeField ∧ (stores.get w.store).contains w.name := by
  cases e with
  | scalar t => cases hw
  | object schema =>
    cases List.mem_singleton.1 hw
    exact roundTrips_object_iff.1 h

/-- **Only the stored value matters for a scalar**, and only the name for a reference. -/
theorem convert_of_roundTrips (h : e.RoundTrips stores home field x) {r : Resolved}
    (hstored : (e.toField x).stored? = some r.stored)
    (hobject : ∀ w ∈ (e.toField x).walkers, r = .object w.name) :
    e.convert home r = .ok (e.relocate home x) := by
  cases e with
  | scalar t =>
    obtain ⟨stored, hstored', hconvert⟩ := h
    cases hstored.symm.trans hstored'
    rwa [convert, FieldKind.stored_resolve] at hconvert
  | object schema =>
    rw [hobject x (List.mem_singleton_self x)]
    rfl

/-- An element that is stored in the field itself. -/
theorem convert_resolve (h : e.RoundTrips stores home field x)
    (hwalkers : ∀ w ∈ (e.toField x).walkers, config.contains w.name) :
    ∃ stored, (e.toField x).stored? = some stored ∧
      e.convert home (config.resolve field stored) = .ok (e.relocate home x) := by
  have ⟨stored, hstored, _⟩ := h
  refine ⟨stored, hstored, convert_of_roundTrips h ?_ ?_⟩
  · rw [FieldKind.stored_resolve]
    exact hstored
  · intro w hw
    cases hstored.symm.trans (stored?_of_mem_walkers hw)
    rw [resolve, if_neg (h.of_mem_walkers hw).1, resolveItem, if_pos (hwalkers w hw)]

/-- An element that is stored in a list of texts. -/
theorem convert_resolveItem (h : e.RoundTrips stores home field x)
    (hwalkers : ∀ w ∈ (e.toField x).walkers, config.contains w.name) {s : String}
    (hstored : (e.toField x).stored? = some (.text s)) :
    e.convert home (config.resolveItem s) = .ok (e.relocate home x) := by
  refine convert_of_roundTrips h ?_ ?_
  · rw [hstored, resolveItem]
    split <;> rfl
  · intro w hw
    cases hstored.symm.trans (stored?_of_mem_walkers hw)
    rw [resolveItem, if_pos (hwalkers w hw)]

/-- An element that is stored in a list of numbers. -/
theorem convert_number (h : e.RoundTrips stores home field x) {n : Number}
    (hstored : (e.toField x).stored? = some (.number n)) :
    e.convert home (.number n) = .ok (e.relocate home x) := by
  refine convert_of_roundTrips h hstored ?_
  intro w hw
  cases hstored.symm.trans (stored?_of_mem_walkers hw)

end Element

/-! ## Lists -/

theorem exists_of_map {ε α β : Type} {f : α → β} {x : Except ε α} {b : β} (h : x.map f = .ok b) :
    ∃ a, x = .ok a ∧ f a = b := by
  cases x with
  | error fault => cases h
  | ok a => exact ⟨a, rfl, Except.ok.inj h⟩

/-- Without numbers all items are texts, and without texts all are numbers. -/
theorem of_partItems {items : List Value} {texts : List String} {numbers : List Number}
    (h : partItems items = .ok (texts, numbers)) :
    (numbers = [] → items = texts.map .text) ∧ (texts = [] → items = numbers.map .number) := by
  induction items generalizing texts numbers with
  | nil =>
    cases h
    exact ⟨fun _ => rfl, fun _ => rfl⟩
  | cons item items ih =>
    cases item with
    | text s =>
      obtain ⟨⟨texts', numbers'⟩, hparts, heq⟩ := exists_of_map h
      cases heq
      constructor
      · intro hnone
        rw [(ih hparts).1 hnone]
        rfl
      · intro hnone
        cases hnone
    | number n =>
      obtain ⟨⟨texts', numbers'⟩, hparts, heq⟩ := exists_of_map h
      cases heq
      constructor
      · intro hnone
        cases hnone
      · intro hnone
        rw [(ih hparts).2 hnone]
        rfl
    | texts names => cases h
    | numbers ns => cases h

/-- A list of items is a list of texts or a list of numbers. -/
theorem listOfItems_eq_ok {items : List Value} {v : Value} (h : listOfItems items = .ok v) :
    (∃ texts, items = texts.map .text ∧ v = .texts texts) ∨
    (∃ numbers, items = numbers.map .number ∧ v = .numbers numbers) := by
  rw [listOfItems] at h
  split at h
  · cases h
  · next texts hparts =>
    cases h
    exact Or.inl ⟨texts, (of_partItems hparts).1 rfl, rfl⟩
  · next numbers _ hparts =>
    cases h
    exact Or.inr ⟨numbers, (of_partItems hparts).2 rfl, rfl⟩
  · cases h

namespace Element

variable {e : Element} {items : List e.Carrier} {v : FieldValue}

theorem toFields_nil (e : Element) : e.toFields [] = .ok .unset := by
  cases e <;> rfl

theorem exists_listOfItems {t : ScalarType} {x : t.Carrier} {items : List t.Carrier}
    (h : (scalar t).toFields (x :: items) = .ok v) :
    ∃ list, listOfItems ((x :: items).map t.store) = .ok list ∧ v = .value list := by
  cases hlist : listOfItems ((x :: items).map t.store) with
  | ok list =>
    simp only [toFields, hlist] at h
    cases h
    exact ⟨list, rfl, rfl⟩
  | error fault =>
    simp only [toFields, hlist] at h
    cases h

/-- The walkers are those of the elements. -/
theorem walkers_toFields (h : e.toFields items = .ok v) :
    v.walkers = items.flatMap fun x => (e.toField x).walkers := by
  cases items with
  | nil =>
    rw [toFields_nil] at h
    cases h
    rfl
  | cons x items =>
    cases e with
    | scalar t =>
      obtain ⟨list, -, rfl⟩ := exists_listOfItems h
      exact (List.flatMap_eq_nil_iff.2 fun y _ => rfl).symm
    | object schema =>
      cases h
      exact (List.flatMap_singleton' (x :: items)).symm

/-- Values that are equal in turn were stored in turn. -/
theorem forall₂_store {t : ScalarType} {items : List t.Carrier} {α : Type} {f : α → Value}
    {parts : List α} (h : items.map t.store = parts.map f) :
    List.Forall₂ (fun x part => t.store x = f part) items parts := by
  rw [← List.forall₂_eq_eq_eq, List.forall₂_map_left_iff, List.forall₂_map_right_iff] at h
  exact h

/-- **What is written for several elements:** the list of what is written for each, which are all texts or
    all numbers. -/
theorem toFields_eq_ok {x : e.Carrier} (h : e.toFields (x :: items) = .ok v) :
    (∃ texts, v.stored? = some (.texts texts) ∧
      List.Forall₂ (fun x s => (e.toField x).stored? = some (.text s)) (x :: items) texts) ∨
    (∃ numbers, v.stored? = some (.numbers numbers) ∧
      List.Forall₂ (fun x n => (e.toField x).stored? = some (.number n)) (x :: items) numbers) := by
  cases e with
  | scalar t =>
    obtain ⟨list, hlist, rfl⟩ := exists_listOfItems h
    obtain ⟨texts, hitems, rfl⟩ | ⟨numbers, hitems, rfl⟩ := listOfItems_eq_ok hlist
    · cases texts with
      | nil => cases hitems
      | cons s texts =>
        refine Or.inl ⟨s :: texts, rfl, (forall₂_store hitems).imp ?_⟩
        intro y part hy
        rw [toField, hy]
        rfl
    · cases numbers with
      | nil => cases hitems
      | cons n numbers =>
        refine Or.inr ⟨n :: numbers, rfl, (forall₂_store hitems).imp ?_⟩
        intro y part hy
        rw [toField, hy]
        rfl
  | object schema =>
    cases h
    refine Or.inl ⟨(x :: items).map Walker.name, rfl, ?_⟩
    exact List.forall₂_map_right_iff.2 (List.forall₂_same.2 fun walker _ => rfl)

end Element

/-- A list that is read item by item, when each item is known. -/
theorem mapM_of_forall₂ {ε α β γ : Type} {f : β → Except ε γ} {g : α → γ} {xs : List α} {ys : List β}
    (h : List.Forall₂ (fun x y => f y = .ok (g x)) xs ys) : ys.mapM f = .ok (xs.map g) := by
  induction h with
  | nil => rfl
  | cons hhead htail ih =>
    rw [List.mapM_cons, hhead, ih]
    rfl

/-- A mapping that is taken apart into keys and values is the mapping again. -/
theorem OrderedMap.ofList_zip {α : Type} (m : OrderedMap α) : ofList (m.keys.zip m.values) = m := by
  have hzip : m.keys.zip m.values = m.entries := (List.zip_of_prod rfl rfl).symm
  apply OrderedMap.ext
  rw [hzip, entries_ofList m.nodup]

namespace FieldKind

variable {stores : Stores} {home : StoreId} {config : Config} {owner name : String}

/-- **A list of elements is read as the elements**, if each of them is and what they refer to is there. -/
theorem readSequence_of_toFields {e : Element} {items : List e.Carrier} {v : FieldValue}
    (hv : e.toFields items = .ok v) (hitems : ∀ x ∈ items, ∃ field, e.RoundTrips stores home field x)
    (howner : config.contains owner) (hraw : config.raw? owner name = v.stored?)
    (hwalkers : ∀ w ∈ v.walkers, config.contains w.name) :
    readSequence e home config owner name = .ok (items.map (e.relocate home)) := by
  have hone : ∀ x ∈ items, (∃ field, e.RoundTrips stores home field x) ∧
      ∀ w ∈ (e.toField x).walkers, config.contains w.name := by
    intro x hx
    refine ⟨hitems x hx, fun w hw => hwalkers w ?_⟩
    rw [Element.walkers_toFields hv]
    exact List.mem_flatMap.2 ⟨x, hx, hw⟩
  cases items with
  | nil =>
    rw [Element.toFields_nil] at hv
    cases hv
    rw [readSequence, resolvedOrAbsent_eq_none_iff.2 ⟨howner, hraw⟩]
    rfl
  | cons x items =>
    obtain ⟨texts, hstored, hall⟩ | ⟨numbers, hstored, hall⟩ := Element.toFields_eq_ok hv
    · have hread := resolvedOrAbsent_eq_some_iff.2 ⟨_, hraw.trans hstored, rfl⟩
      rw [readSequence, hread]
      apply mapM_of_forall₂
      refine ((List.forall₂_and_left _ _).2 ⟨hone, hall⟩).imp ?_
      rintro y s ⟨⟨⟨field, hy⟩, hthere⟩, hs⟩
      exact Element.convert_resolveItem hy hthere hs
    · have hread := resolvedOrAbsent_eq_some_iff.2 ⟨_, hraw.trans hstored, rfl⟩
      rw [readSequence, hread]
      apply mapM_of_forall₂
      refine ((List.forall₂_and_left _ _).2 ⟨hone, hall⟩).imp ?_
      rintro y n ⟨⟨⟨field, hy⟩, -⟩, hn⟩
      exact Element.convert_number hy hn

/-! ## Fields of all shapes -/

/-- Each element by itself is read as itself, in the field if it is stored there alone. The items of a list
    are read alike in whatever field the list is. -/
def RoundTrips (stores : Stores) (home : StoreId) (name : String) :
    (kind : FieldKind) → kind.Carrier → Prop
  | single e, x => e.RoundTrips stores home name x
  | optional e, x => ∀ y ∈ x, e.RoundTrips stores home name y
  | sequence e, xs => ∀ x ∈ xs, ∃ field, e.RoundTrips stores home field x
  | mapping e, m => ∀ x ∈ m.values, ∃ field, e.RoundTrips stores home field x

/-- The walkers that are written as references. -/
def walkers : (kind : FieldKind) → kind.Carrier → List Walker
  | single e, x => (e.toField x).walkers
  | optional e, x => x.toList.flatMap fun y => (e.toField y).walkers
  | sequence e, xs => xs.flatMap fun x => (e.toField x).walkers
  | mapping e, m => m.values.flatMap fun x => (e.toField x).walkers

variable {kind : FieldKind} {x : kind.Carrier}

theorem RoundTrips.contains (h : kind.RoundTrips stores home name x) {w : Walker}
    (hw : w ∈ kind.walkers x) : (stores.get w.store).contains w.name := by
  cases kind with
  | single e => exact (Element.RoundTrips.of_mem_walkers h hw).2
  | optional e =>
    obtain ⟨y, hy, hw⟩ := List.mem_flatMap.1 hw
    exact ((h y (Option.mem_toList.1 hy)).of_mem_walkers hw).2
  | sequence e =>
    obtain ⟨y, hy, hw⟩ := List.mem_flatMap.1 hw
    obtain ⟨field, hfield⟩ := h y hy
    exact (hfield.of_mem_walkers hw).2
  | mapping e =>
    obtain ⟨y, hy, hw⟩ := List.mem_flatMap.1 hw
    obtain ⟨field, hfield⟩ := h y hy
    exact (hfield.of_mem_walkers hw).2

theorem keysField_ne (name : String) : keysField name ≠ name := by
  intro h
  have hlength := congrArg String.length h
  rw [keysField, String.length_append] at hlength
  have : "_keys".length = 5 := rfl
  omega

/-- The keys of a mapping are written beside it. -/
theorem notMem_keysField (name : String) : name ∉ [keysField name] := by
  intro hmem
  exact keysField_ne name (List.mem_singleton.1 hmem).symm

end FieldKind

/-! ### What is read after writing -/

section

variable {session mid after : Session} {owner : Walker} {name : String} {e : Element}

/-- An element that was written alone is read as it was. -/
theorem read_of_writes {x : e.Carrier} {kind : FieldKind} {y : kind.Carrier}
    (hkind : FieldKind.Holds e (e.relocate owner.store x) kind y)
    (h : session.Writes after owner name (e.toField x))
    (hx : e.RoundTrips session.stores owner.store name x) :
    kind.read owner.store (after.contents owner) owner.name name = .ok y := by
  have hthere : ∀ w ∈ (e.toField x).walkers, (after.contents owner).contains w.name :=
    fun w hw => h.contains hw (hx.of_mem_walkers hw).2
  obtain ⟨stored, hstored, hconvert⟩ := Element.convert_resolve hx hthere
  exact FieldKind.read_of_holds hkind (h.stored.trans hstored) hconvert

theorem read_none_of_writes (h : session.Writes after owner name .unset) :
    (FieldKind.optional e).read owner.store (after.contents owner) owner.name name = .ok none := by
  rw [FieldKind.read, FieldKind.resolvedOrAbsent_eq_none_iff.2 ⟨h.rewrites.owner_there, h.stored⟩]
  rfl

/-- What the elements of a list refer to has come along with it. -/
theorem contains_of_toFields {items : List e.Carrier} {v : FieldValue} (hv : e.toFields items = .ok v)
    (h : session.Writes after owner name v)
    (hitems : ∀ x ∈ items, ∃ field, e.RoundTrips session.stores owner.store field x) :
    ∀ w ∈ v.walkers, (after.contents owner).contains w.name := by
  intro w hw
  have hmem := hw
  rw [Element.walkers_toFields hv] at hmem
  obtain ⟨x, hx, hxw⟩ := List.mem_flatMap.1 hmem
  obtain ⟨field, hfield⟩ := hitems x hx
  exact h.contains hw (hfield.of_mem_walkers hxw).2

/-- The values and the keys of a mapping, each written as a list. -/
theorem read_mapping_of_writes {m : OrderedMap e.Carrier} {v : FieldValue}
    (hv : e.toFields m.values = .ok v) (h : session.Writes mid owner name v)
    (h' : mid.Writes after owner (keysField name) (.value (.texts m.keys)))
    (hitems : ∀ x ∈ m.values, ∃ field, e.RoundTrips session.stores owner.store field x) :
    (FieldKind.mapping e).read owner.store (after.contents owner) owner.name name
      = .ok (m.mapValues (e.relocate owner.store)) := by
  have hkeys : FieldKind.readKeys (after.contents owner) owner.name name = .ok m.keys := by
    rw [FieldKind.readKeys, h'.stored]
    cases m.keys <;> rfl
  -- the values stand as they were written while the keys are
  have hvalues : FieldKind.readSequence e owner.store (after.contents owner) owner.name name
      = .ok (m.values.map (e.relocate owner.store)) := by
    apply FieldKind.readSequence_of_toFields hv hitems h'.rewrites.owner_there
    · rw [h'.rewrites.raw?_eq (FieldKind.notMem_keysField name), h.stored]
    · exact fun w hw => h'.rewrites.contains (contains_of_toFields hv h hitems w hw)
  have hlength : m.keys.length = (m.values.map (e.relocate owner.store)).length := by
    rw [List.length_map, OrderedMap.keys, OrderedMap.values, Entry.keys, List.length_map, List.length_map]
  rw [FieldKind.read, hkeys]
  show (FieldKind.readSequence e owner.store (after.contents owner) owner.name name >>= _) = _
  rw [hvalues]
  show (if m.keys.length ≠ (m.values.map (e.relocate owner.store)).length then _ else _) = _
  have hzip : m.keys.zip (m.values.map (e.relocate owner.store))
      = Entry.mapValues (e.relocate owner.store) (m.keys.zip m.values) := by
    rw [List.zip_map_right]
    rfl
  rw [if_neg (not_not_intro hlength), hzip, OrderedMap.ofList_mapValues, OrderedMap.ofList_zip]
  rfl

/-- The walkers of a value that exist have come along with the write. -/
theorem get?_of_writes {v : FieldValue} (h : session.Writes after owner name v) {walkers : List Walker}
    (hwalkers : v.walkers = walkers) (hthere : ∀ w ∈ walkers, (session.contents w).contains w.name) :
    ∀ w ∈ walkers, w ≠ owner →
      (after.contents owner).get? w.name = (session.contents w).get? w.name := by
  intro w hw hne
  exact (h.came w (hwalkers ▸ hw) hne (hthere w hw)).2

end

/-- **A field reads as what was written into it.** The elements may be scalars or references, alone, optional,
    in a list or in a mapping, if each of them by itself is read as what it is. Whenever a value of such
    elements can be written, whatever the field was before, it is read back as the same: in the same order,
    with the same keys, absent or empty if it was, and with all references in the owner's store. What they
    refer to is there as it was in its own store. No other field of the owner has changed, of a mapping none but
    that of its keys, and no other object that was there. -/
theorem assign_then_fetch {session after : Session} {owner : Walker} {name : String} {kind : FieldKind}
    {x : kind.Carrier} (hx : kind.RoundTrips session.stores owner.store name x)
    (h : (kind.assign owner name x).outcome session = (.ok (), after)) :
    (kind.fetch owner name).outcome after = (.ok (kind.relocate owner.store x), after) ∧
    session.Rewrites after owner (kind.storedIn name) ∧
    ∀ w ∈ kind.walkers x, w ≠ owner →
      (after.contents owner).get? w.name = (session.contents w).get? w.name := by
  have hfetch : (kind.fetch owner name).outcome after
      = (kind.read owner.store (after.contents owner) owner.name name, after) :=
    FieldDecl.fetch_eq ⟨name, kind⟩ owner after
  have hthere : ∀ w ∈ kind.walkers x, (session.contents w).contains w.name :=
    fun w hw => hx.contains hw
  have hassign := Action.outcome_eq_ok_iff.1 h
  rw [hfetch, Prod.mk.injEq, and_iff_left rfl]
  cases kind with
  | single e =>
    have hwrites := Session.writes_of_setField hassign
    exact ⟨read_of_writes .single hwrites hx, hwrites.rewrites, get?_of_writes hwrites rfl hthere⟩
  | optional e =>
    cases x with
    | none =>
      have hwrites := Session.writes_of_setField hassign
      exact ⟨read_none_of_writes hwrites, hwrites.rewrites, get?_of_writes hwrites rfl hthere⟩
    | some x =>
      have hwrites := Session.writes_of_setField hassign
      have hwalkers : (e.toField x).walkers = (FieldKind.optional e).walkers (some x) :=
        (List.append_nil _).symm
      exact ⟨read_of_writes .optional hwrites (hx x rfl), hwrites.rewrites,
        get?_of_writes hwrites hwalkers hthere⟩
  | sequence e =>
    obtain ⟨v, _, hencoded, hset⟩ := exists_of_bind hassign
    obtain ⟨hv, rfl⟩ := Action.eq_ok_of_ofExcept hencoded
    have hwrites := Session.writes_of_setField hset
    refine ⟨?_, hwrites.rewrites, get?_of_writes hwrites (Element.walkers_toFields hv) hthere⟩
    exact FieldKind.readSequence_of_toFields hv hx hwrites.rewrites.owner_there hwrites.stored
      (contains_of_toFields hv hwrites hx)
  | mapping e =>
    obtain ⟨v, _, hencoded, hset⟩ := exists_of_bind hassign
    obtain ⟨hv, rfl⟩ := Action.eq_ok_of_ofExcept hencoded
    obtain ⟨_, mid, hset, hsetKeys⟩ := exists_of_bind hset
    have hvalues := Session.writes_of_setField hset
    have hkeys := Session.writes_of_setField hsetKeys
    refine ⟨read_mapping_of_writes hv hvalues hkeys hx, hvalues.rewrites.trans hkeys.rewrites, ?_⟩
    intro w hw hne
    have hmem : w ∈ v.walkers := by
      rw [Element.walkers_toFields hv]
      exact hw
    obtain ⟨hname, hcame⟩ := hvalues.came w hmem hne (hthere w hw)
    rw [hkeys.rewrites.objects w.name hname (hvalues.contains hmem (hthere w hw)), hcame]

/-- An object with a field that names another one, and that one. -/
def crateConfig : Config := .ofStatements
  [⟨"a", "parts", .text "b"⟩, ⟨"a", "size", .number .one⟩, ⟨"b", "next", .text "a"⟩]

/-- Two objects, each of which names the other. -/
def partConfig : Config := .ofStatements [⟨"c", "next", .text "d"⟩, ⟨"d", "next", .text "c"⟩]

def crateSession : Session := ⟨⟨[crateConfig, partConfig]⟩, ∅, 0⟩

/-- A part from the other store and one from the same, under keys that are names of objects too. -/
def crateParts : OrderedMap Walker := .ofList [("b", ⟨1, "c"⟩), ("a", ⟨0, "b"⟩)]

def partsKind : FieldKind := .mapping (.object ⟨"Part", "part"⟩)

/-- The first configuration with the parts written into it. -/
def filledCrate : Config := .ofStatements
  [⟨"a", "parts", .texts ["c", "b"]⟩, ⟨"a", "size", .number .one⟩, ⟨"a", "parts_keys", .texts ["b", "a"]⟩,
    ⟨"b", "next", .text "a"⟩, ⟨"c", "next", .text "d"⟩, ⟨"d", "next", .text "c"⟩]

def filledSession : Session := ⟨⟨[filledCrate, partConfig]⟩, ∅, 0⟩

/-- One part leads to the other. -/
theorem extract_partConfig : partConfig.extract ["c"] = partConfig := by
  have hsearch : partConfig.reachWithin 9 [] ["c"] = some ["c", "d"] := by decide +kernel
  rw [Config.extract, Config.reach, Config.reachFrom_of_reachWithin hsearch]
  decide +kernel

theorem imports_crateParts :
    crateSession.stores.imports 0 [⟨1, "c"⟩, ⟨0, "b"⟩] = .ok partConfig := by
  have hsources : Stores.sources 0 [⟨1, "c"⟩, ⟨0, "b"⟩] = [1] := by decide +kernel
  rw [Stores.imports_eq, hsources]
  show [partConfig.extract ["c"]].foldlM Config.merge SortedMap.empty = .ok partConfig
  rw [extract_partConfig]
  decide +kernel

/-- What there is between the values and the keys. -/
def halfFilledStores : Stores :=
  ⟨[filledCrate.editObject "a" (·.erase "parts_keys"), partConfig]⟩

theorem assign_crateParts :
    (partsKind.assign ⟨0, "a"⟩ "parts" crateParts).outcome crateSession = (.ok (), filledSession) := by
  have hvalues : crateSession.stores.write ⟨0, "a"⟩ "parts" (.refs crateParts.values)
      = .ok halfFilledStores := by
    have himports : crateSession.stores.imports 0 crateParts.values = .ok partConfig := imports_crateParts
    rw [Stores.write_eq, FieldValue.walkers, himports]
    decide +kernel
  have hkeys : halfFilledStores.write ⟨0, "a"⟩ "parts_keys" (.value (.texts crateParts.keys))
      = .ok filledSession.stores := by
    decide +kernel
  have hencode : (Action.ofExcept (Element.toFields (.object ⟨"Part", "part"⟩) crateParts.values) :
      Action TypedError FieldValue) crateSession = .ok (.refs crateParts.values) crateSession := rfl
  apply Action.outcome_eq_ok_iff.2
  show (Action.ofExcept (Element.toFields (.object ⟨"Part", "part"⟩) crateParts.values) >>= _) crateSession = _
  rw [bind_of_ok hencode, bind_of_ok (Session.setField_of_write hvalues)]
  exact Session.setField_of_write hkeys

/-- A text that is the name of an object. -/
def labelKind : FieldKind := .single (.scalar .text)

def labelledSession : Session :=
  ⟨⟨[crateConfig.editObject "a" (·.insert "label" (.text "b")), partConfig]⟩, ∅, 0⟩

theorem assign_label :
    (labelKind.assign ⟨0, "a"⟩ "label" "b").outcome crateSession = (.ok (), labelledSession) := by
  have hwrite : crateSession.stores.write ⟨0, "a"⟩ "label" (.value (.text "b"))
      = .ok labelledSession.stores := by
    decide +kernel
  exact Action.outcome_eq_ok_iff.2 (Session.setField_of_write hwrite)

/-- The parts are read as they were written, although the keys are names of objects and one of the parts was in
    another store; that part is in both stores now. A text is read as it was written, too, although it is the name
    of an object. -/
theorem assign_then_fetch_parts :
    (partsKind.assign ⟨0, "a"⟩ "parts" crateParts).outcome crateSession = (.ok (), filledSession) ∧
    (partsKind.fetch ⟨0, "a"⟩ "parts").outcome filledSession
      = (.ok (OrderedMap.ofList [("b", ⟨0, "c"⟩), ("a", ⟨0, "b"⟩)]), filledSession) ∧
    filledCrate.get? "c" = partConfig.get? "c" ∧
    (labelKind.assign ⟨0, "a"⟩ "label" "b").outcome crateSession = (.ok (), labelledSession) ∧
    (labelKind.fetch ⟨0, "a"⟩ "label").outcome labelledSession = (.ok "b", labelledSession) := by
  have hparts : partsKind.RoundTrips crateSession.stores 0 "parts" crateParts := by
    have hthere : ∀ w ∈ crateParts.values, (crateSession.stores.get w.store).contains w.name := by
      decide +kernel
    intro w hw
    exact ⟨"parts", Element.roundTrips_object_iff.2 ⟨by decide, hthere w hw⟩⟩
  have hlabel : labelKind.RoundTrips crateSession.stores 0 "label" "b" := by
    have hstorable : ScalarType.Storable .text "b" := by
      show Value.isUnquotable "b" = false
      decide +kernel
    exact Element.roundTrips_of_storable hstorable
  obtain ⟨hfetch, -, hcame⟩ := assign_then_fetch hparts assign_crateParts
  obtain ⟨hfetchLabel, -, -⟩ := assign_then_fetch hlabel assign_label
  refine ⟨assign_crateParts, hfetch, ?_, assign_label, hfetchLabel⟩
  exact hcame ⟨1, "c"⟩ (by decide) (by decide)

end GraphWire
