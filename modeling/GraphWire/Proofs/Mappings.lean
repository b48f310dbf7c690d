import GraphWire.Proofs.Setters

/-!
# `Proofs.Mappings` — what reading a mapping keeps

A mapping is stored as two lists beside each other. Reading it takes the keys and the values in step, and
refuses lists of different lengths; but the two lists may say more than a mapping can: the same key twice. Then
the key has its last value at its first place, and the other values are gone. That is all that is ever lost.

## Contents
- **Lists.** `Value.Lists`, what list is stored; `Element.lists_toFields`, what is written for scalars.
- **Reading.** `FieldKind.lists_of_readSequence` and `FieldKind.read_mapping_eq_ok`.
- **Keys beside values.** `OrderedMap.entries_ofList_zip_iff`.
- **`mapping_is_kept_iff`**, and `repeated_key_is_lost`.
-/

namespace GraphWire

open Config

/-! ## Stored lists -/

/-- The list of these items is stored. For one without items there need be nothing. -/
inductive Value.Lists : Option Value → List Value → Prop where
  | absent : Lists none []
  | texts (names : List String) : Lists (some (.texts names)) (names.map .text)
  | numbers (ns : List Number) : Lists (some (.numbers ns)) (ns.map .number)

theorem Value.Lists.unique {o : Option Value} {items others : List Value} (h : Lists o items)
    (h' : Lists o others) : items = others := by
  cases h <;> cases h' <;> rfl

/-- Lists of keys are told apart by what is stored. -/
theorem Value.Lists.keys_unique {o : Option Value} {keys others : List String} (h : Lists o (keys.map .text))
    (h' : Lists o (others.map .text)) : keys = others :=
  List.map_injective_iff.2 (fun _ _ => Value.text.inj) (h.unique h')

theorem FieldValue.lists_texts (names : List String) :
    Value.Lists (FieldValue.value (.texts names)).stored? (names.map .text) := by
  cases names with
  | nil => exact .absent
  | cons s names => exact .texts _

section

variable {t : ScalarType} {items : List t.Carrier} {v : FieldValue}

/-- **What is written for scalars** is the list of what is stored for each. -/
theorem Element.lists_toFields (h : (Element.scalar t).toFields items = .ok v) :
    Value.Lists v.stored? (items.map t.store) := by
  cases items with
  | nil =>
    rw [toFields_nil] at h
    cases h
    exact .absent
  | cons x items =>
    obtain ⟨list, hlist, rfl⟩ := exists_listOfItems h
    obtain ⟨names, hitems, rfl⟩ | ⟨ns, hitems, rfl⟩ := listOfItems_eq_ok hlist
    · rw [hitems]
      cases names with
      | nil => cases hitems
      | cons s names => exact .texts _
    · rw [hitems]
      cases ns with
      | nil => cases hitems
      | cons n ns => exact .numbers _

theorem partItems_texts (names : List String) : partItems (names.map .text) = .ok (names, []) := by
  induction names with
  | nil => rfl
  | cons s names ih =>
    rw [List.map_cons, partItems, ih]
    rfl

theorem partItems_numbers (ns : List Number) : partItems (ns.map .number) = .ok ([], ns) := by
  induction ns with
  | nil => rfl
  | cons n ns ih =>
    rw [List.map_cons, partItems, ih]
    rfl

theorem listOfItems_texts (names : List String) : listOfItems (names.map .text) = .ok (.texts names) := by
  rw [listOfItems, partItems_texts]

theorem listOfItems_numbers {ns : List Number} (hne : ns ≠ []) :
    listOfItems (ns.map .number) = .ok (.numbers ns) := by
  rw [listOfItems, partItems_numbers]
  cases ns with
  | nil => exact absurd rfl hne
  | cons n ns => rfl

/-- Texts can always be written, and so can numbers. -/
theorem Element.exists_toFields (ht : t = .text ∨ t = .number) (items : List t.Carrier) :
    ∃ v, (Element.scalar t).toFields items = .ok v := by
  cases items with
  | nil => exact ⟨_, toFields_nil _⟩
  | cons x items =>
    have hlist : ∃ list, listOfItems ((x :: items).map t.store) = .ok list := by
      rcases ht with rfl | rfl
      · exact ⟨_, listOfItems_texts (x :: items)⟩
      · exact ⟨_, listOfItems_numbers (List.cons_ne_nil x items)⟩
    obtain ⟨list, hlist⟩ := hlist
    exact ⟨.value list, by simp only [toFields, hlist]⟩

end

/-! ## Reading -/

/-- Texts and numbers are stored as what they were read from. -/
theorem ScalarType.store_of_convert {t : ScalarType} (ht : t = .text ∨ t = .number) {value : Value}
    {x : t.Carrier} (h : t.convert value = .ok x) : t.store x = value := by
  rcases ht with rfl | rfl <;> cases value <;> cases h <;> rfl

/-- A list that is read item by item, when what is read tells the item. -/
theorem map_of_mapM {ε α β γ : Type} {f : α → Except ε β} {g : β → γ} {item : α → γ} {xs : List α}
    {ys : List β} (h : xs.mapM f = .ok ys) (hone : ∀ x y, f x = .ok y → g y = item x) :
    ys.map g = xs.map item := by
  induction xs generalizing ys with
  | nil =>
    cases h
    rfl
  | cons x xs ih =>
    rw [List.mapM_cons] at h
    obtain ⟨y, hy, h⟩ := Statement.bind_eq_ok h
    obtain ⟨ys', hys, h⟩ := Statement.bind_eq_ok h
    cases h
    rw [List.map_cons, List.map_cons, hone x y hy, ih hys]

namespace FieldKind

variable {home : StoreId} {config : Config} {owner name : String} {t : ScalarType}

/-- **Texts and numbers are read from the list that is stored for them.** -/
theorem lists_of_readSequence (ht : t = .text ∨ t = .number) {values : List t.Carrier}
    (h : readSequence (.scalar t) home config owner name = .ok values) :
    config.contains owner ∧ Value.Lists (config.raw? owner name) (values.map t.store) := by
  obtain ⟨r?, hr, h⟩ := Statement.bind_eq_ok h
  cases r? with
  | none =>
    obtain ⟨hthere, hraw⟩ := resolvedOrAbsent_eq_none_iff.1 hr
    cases h
    exact ⟨hthere, hraw ▸ .absent⟩
  | some r =>
    obtain ⟨value, hraw, hvalue⟩ := resolvedOrAbsent_eq_some_iff.1 hr
    have hstored : r.stored = value := hvalue ▸ stored_resolve config name value
    have hthere : config.contains owner := by
      obtain ⟨object, hget, -⟩ := Option.bind_eq_some_iff.1 hraw
      exact SortedMap.contains_iff.2 ⟨object, hget⟩
    refine ⟨hthere, ?_⟩
    rw [hraw, ← hstored]
    cases r with
    | sequence names =>
      have hvalues : values.map t.store = names.map .text := by
        apply map_of_mapM h
        intro s x hx
        rw [ScalarType.store_of_convert ht hx, resolveItem]
        split <;> rfl
      exact hvalues ▸ .texts names
    | numbers ns =>
      have hvalues : values.map t.store = ns.map .number :=
        map_of_mapM h fun n x hx => ScalarType.store_of_convert ht hx
      exact hvalues ▸ .numbers ns
    | object target => cases h
    | text s => cases h
    | number n => cases h

theorem lists_of_readKeys {keys : List String} (h : readKeys config owner name = .ok keys) :
    Value.Lists (config.raw? owner (keysField name)) (keys.map .text) := by
  unfold readKeys at h
  split at h
  · next hraw =>
    cases h
    exact hraw ▸ .absent
  · next hraw =>
    cases h
    exact hraw ▸ .texts _
  · cases h

/-- **A mapping is read from as many keys as values.** -/
theorem read_mapping_eq_ok {e : Element} {m : OrderedMap e.Carrier}
    (h : (mapping e).read home config owner name = .ok m) :
    ∃ keys values, readKeys config owner name = .ok keys ∧
      readSequence e home config owner name = .ok values ∧ keys.length = values.length ∧
      m = OrderedMap.ofList (keys.zip values) := by
  obtain ⟨keys, hkeys, h⟩ := Statement.bind_eq_ok h
  obtain ⟨values, hvalues, h⟩ := Statement.bind_eq_ok h
  dsimp only at h
  split at h
  · cases h
  · next hlength =>
    cases h
    exact ⟨keys, values, hkeys, hvalues, not_not.1 hlength, rfl⟩

end FieldKind

/-! ## Keys beside values -/

namespace OrderedMap

variable {α : Type} {keys : List String} {values : List α}

theorem keys_zip (hlength : keys.length = values.length) : Entry.keys (keys.zip values) = keys :=
  List.map_fst_zip (le_of_eq hlength)

/-- **Nothing is lost of the entries exactly if no key is repeated.** -/
theorem entries_ofList_zip_iff (hlength : keys.length = values.length) :
    (ofList (keys.zip values)).entries = keys.zip values ↔ keys.Nodup := by
  constructor
  · intro h
    have hnodup := (ofList (keys.zip values)).nodup
    rwa [h, keys_zip hlength] at hnodup
  · intro h
    exact entries_ofList ((keys_zip hlength).symm ▸ h)

end OrderedMap

/-! ## Reading and writing back -/

/-- A mapping of texts or numbers can be written into every object that is there. -/
theorem exists_assign_mapping {session : Session} {owner : Walker} (name : String) {t : ScalarType}
    (ht : t = .text ∨ t = .number) (m : OrderedMap t.Carrier)
    (there : (session.contents owner).contains owner.name) :
    ∃ after, ((FieldKind.mapping (.scalar t)).assign owner name m).outcome session = (.ok (), after) := by
  obtain ⟨v, hv⟩ := Element.exists_toFields ht m.values
  have hwalkers : v.walkers = [] := by
    rw [Element.walkers_toFields hv]
    exact List.flatMap_eq_nil_iff.2 fun _ _ => rfl
  obtain ⟨stores, hwrite⟩ := Stores.exists_write_iff.2 (Stores.importable_of_no_walkers hwalkers there)
  exact FieldKind.outcome_assign_of_written hv hwrite

/-- **Reading a mapping loses nothing exactly if no key is repeated.** For texts and for numbers, whenever a
    mapping can be read there are as many keys stored as values. The mapping has each key once, in the order
    of the first places, with the value at its last place. It has an entry for every place, and writing it back
    stores the two lists as they were, if and only if the keys are different from each other. -/
theorem mapping_is_kept_iff {session after : Session} {owner : Walker} {name : String} {t : ScalarType}
    (ht : t = .text ∨ t = .number) {m : OrderedMap t.Carrier}
    (h : ((FieldKind.mapping (.scalar t)).fetch owner name).outcome session = (.ok m, after)) :
    ∃ (keys : List String) (values : List t.Carrier),
      Value.Lists ((session.contents owner).raw? owner.name (keysField name)) (keys.map .text) ∧
      Value.Lists ((session.contents owner).raw? owner.name name) (values.map t.store) ∧
      keys.length = values.length ∧
      m.keys = keys.eraseDups ∧
      (∀ key, m.get? key = ((keys.zip values).reverse.find? fun e => e.1 = key).map Prod.snd) ∧
      (m.entries = keys.zip values ↔ keys.Nodup) ∧
      after = session ∧
      ∃ written, ((FieldKind.mapping (.scalar t)).assign owner name m).outcome session = (.ok (), written) ∧
        session.Rewrites written owner [name, keysField name] ∧
        (Value.Lists ((written.contents owner).raw? owner.name (keysField name)) (keys.map .text) ∧
          Value.Lists ((written.contents owner).raw? owner.name name) (values.map t.store) ↔ keys.Nodup) := by
  have hfetch := FieldDecl.fetch_eq ⟨name, .mapping (.scalar t)⟩ owner session
  obtain ⟨hread, rfl⟩ := Prod.mk.inj (hfetch.symm.trans h)
  obtain ⟨keys, values, hkeys, hvalues, hlength, rfl⟩ := FieldKind.read_mapping_eq_ok hread
  obtain ⟨hthere, hlists⟩ := FieldKind.lists_of_readSequence ht hvalues
  have hentries := OrderedMap.entries_ofList_zip_iff hlength
  have hmapKeys := OrderedMap.keys_ofList (keys.zip values)
  rw [OrderedMap.keys_zip hlength] at hmapKeys
  refine ⟨keys, values, FieldKind.lists_of_readKeys hkeys, hlists, hlength, hmapKeys,
    OrderedMap.get?_ofList _, hentries, rfl, ?_⟩
  obtain ⟨written, hassign⟩ := exists_assign_mapping name ht (OrderedMap.ofList (keys.zip values)) hthere
  obtain ⟨v, hv, hrewrites, hstored, hstoredKeys⟩ := stored_of_assign_mapping hassign
  refine ⟨written, hassign, hrewrites, ?_⟩
  rw [hstored, hstoredKeys]
  constructor
  · rintro ⟨hsame, -⟩
    -- the keys of a mapping are not repeated, and these are the ones that were stored
    rw [← Value.Lists.keys_unique (FieldValue.lists_texts _) hsame]
    exact (OrderedMap.ofList (keys.zip values)).nodup
  · intro hnodup
    have hzip := hentries.2 hnodup
    have hkeysSame : (OrderedMap.ofList (keys.zip values)).keys = keys := by
      rw [OrderedMap.keys, hzip, OrderedMap.keys_zip hlength]
    have hvaluesSame : (OrderedMap.ofList (keys.zip values)).values = values := by
      rw [OrderedMap.values, hzip]
      exact List.map_snd_zip (ge_of_eq hlength)
    rw [hkeysSame]
    refine ⟨FieldValue.lists_texts keys, ?_⟩
    have hwritten := Element.lists_toFields hv
    rwa [hvaluesSame] at hwritten

/-- An object with two mappings: the keys of the first one are different, those of the second one are not. -/
def scaleSession : Session :=
  ⟨⟨[.ofStatements [⟨"a", "w", .numbers [.one, .ofInt 2]⟩, ⟨"a", "w_keys", .texts ["k", "j"]⟩,
    ⟨"a", "m", .numbers [.one, .ofInt 2]⟩, ⟨"a", "m_keys", .texts ["k", "k"]⟩]]⟩, ∅, 0⟩

abbrev weightsKind : FieldKind := .mapping (.scalar .number)

/-- Where the keys are different, both lists are stored again. -/
theorem mapping_is_kept_weights :
    ∃ written, (weightsKind.fetch ⟨0, "a"⟩ "w").outcome scaleSession
        = (.ok (OrderedMap.ofList [("k", .one), ("j", .ofInt 2)]), scaleSession) ∧
      (weightsKind.assign ⟨0, "a"⟩ "w" (OrderedMap.ofList [("k", .one), ("j", .ofInt 2)])).outcome scaleSession
        = (.ok (), written) ∧
      Value.Lists ((written.contents ⟨0, "a"⟩).raw? "a" "w_keys") [.text "k", .text "j"] ∧
      Value.Lists ((written.contents ⟨0, "a"⟩).raw? "a" "w") [.number .one, .number (.ofInt 2)] := by
  have hfetch : (weightsKind.fetch ⟨0, "a"⟩ "w").outcome scaleSession
      = (.ok (OrderedMap.ofList [("k", .one), ("j", .ofInt 2)]), scaleSession) := by
    decide +kernel
  obtain ⟨keys, values, hkeys, hvalues, -, -, -, -, -, written, hassign, -, hkept⟩ :=
    mapping_is_kept_iff (t := .number) (Or.inr rfl) hfetch
  have hstoredKeys : (scaleSession.contents ⟨0, "a"⟩).raw? "a" "w_keys" = some (.texts ["k", "j"]) := by
    decide +kernel
  have hstored : (scaleSession.contents ⟨0, "a"⟩).raw? "a" "w" = some (.numbers [.one, .ofInt 2]) := by
    decide +kernel
  obtain rfl : keys = ["k", "j"] := hkeys.keys_unique (hstoredKeys ▸ .texts ["k", "j"])
  obtain rfl : values = [.one, .ofInt 2] :=
    List.map_injective_iff.2 (fun _ _ => Value.number.inj) (hvalues.unique (hstored ▸ .numbers [.one, .ofInt 2]))
  exact ⟨written, hfetch, hassign, hkept.2 (by decide)⟩

/-- Of two values under one key the first one is gone, and so it is where the mapping is written back. -/
theorem repeated_key_is_lost :
    ∃ m written, (weightsKind.fetch ⟨0, "a"⟩ "m").outcome scaleSession = (.ok m, scaleSession) ∧
      (weightsKind.assign ⟨0, "a"⟩ "m" m).outcome scaleSession = (.ok (), written) ∧
      (scaleSession.contents ⟨0, "a"⟩).raw? "a" "m_keys" = some (.texts ["k", "k"]) ∧
      (scaleSession.contents ⟨0, "a"⟩).raw? "a" "m" = some (.numbers [.one, .ofInt 2]) ∧
      m.entries = [("k", .ofInt 2)] ∧
      (written.contents ⟨0, "a"⟩).raw? "a" "m_keys" = some (.texts ["k"]) ∧
      (written.contents ⟨0, "a"⟩).raw? "a" "m" = some (.numbers [.ofInt 2]) := by
  refine ⟨OrderedMap.ofList [("k", .ofInt 2)],
    ((weightsKind.assign ⟨0, "a"⟩ "m" (OrderedMap.ofList [("k", .ofInt 2)])).outcome scaleSession).2, ?_⟩
  decide +kernel

end GraphWire
