import GraphWire.Proofs.Runs

/-!
# `Proofs.Filled` — no stored list is empty

A list without items has no written form, so a field is removed instead of being written as one. Such lists
could come from many sides: from a value or a list of references that is written, from both halves of a
mapping, from another store by a reference or by a merge. None of them lets one in, and so whatever a run
makes of stores that were read or made empty can be written, but for texts that cannot be quoted and numbers
that are not finite; objects without fields leave no trace in the text.

## Contents
- **`Object.Filled`** and **`Config.Filled`**, kept by each change of an object or a configuration.
- **`Stores.Filled`**, kept by each step; `filled_of_leads`.
- **What is written.** `Config.Regular` and `Config.fielded`, and `Filled.writesBack`, what becomes of a regular
  configuration when it is written.
- **Runs.** **`Session.run_stores_no_empty_list`**.
-/

namespace GraphWire

/-! ## Objects and configurations -/

/-- No field holds an empty list. -/
def Object.Filled (object : Object) : Prop :=
  ∀ field value, object.get? field = some value → value.isEmptyList = false

/-- No field of any object holds an empty list. -/
def Config.Filled (config : Config) : Prop :=
  ∀ name object, config.get? name = some object → object.Filled

/-- An empty list is never what is to be stored. -/
theorem FieldValue.isEmptyList_of_stored? {v : FieldValue} {stored : Value} (h : v.stored? = some stored) :
    stored.isEmptyList = false := by
  have hleaves := v.leaves_stored?
  rw [h] at hleaves
  cases hleaves with
  | value texts numbers =>
    unfold Value.isEmptyList
    split
    · exact absurd rfl texts
    · exact absurd rfl numbers
    · rfl
  | ref target => rfl
  | refs first others => rfl

namespace Object

variable {object : Object}

theorem filled_typed (tag : String) : (typed tag).Filled := by
  intro field value hget
  rw [typed, OrderedMap.get?_insert] at hget
  split at hget
  · cases hget
    rfl
  · cases hget

theorem Filled.erase (h : object.Filled) (field : String) : Filled (OrderedMap.erase object field) := by
  intro other value hget
  rw [OrderedMap.get?_erase] at hget
  split at hget
  · cases hget
  · exact h other value hget

theorem Filled.writeInto (h : object.Filled) (v : FieldValue) (field : String) :
    Filled (v.writeInto field object) := by
  rw [FieldValue.writeInto]
  cases hstored : v.stored? with
  | none => exact h.erase field
  | some stored =>
    intro other value hget
    rw [OrderedMap.get?_insert] at hget
    split at hget
    · cases hget
      exact FieldValue.isEmptyList_of_stored? hstored
    · exact h other value hget

end Object

namespace Config

variable {config other : Config}

theorem filled_empty : Filled SortedMap.empty := by
  intro name object hget
  cases hget

/-- What is read holds no empty list. -/
theorem filled_of_parse {text : String} (h : parse text = .ok config) : config.Filled := by
  intro name object hget field value hfield
  exact ((writable_of_parse h).1.field hget (OrderedMap.mem_entries_iff.2 hfield)).2.isEmptyList

theorem Filled.insert (h : config.Filled) (name : String) {object : Object} (hobject : object.Filled) :
    Filled (SortedMap.insert config name object) := by
  intro other object' hget
  rw [SortedMap.get?_insert] at hget
  split at hget
  · cases hget
    exact hobject
  · exact h other object' hget

theorem Filled.union (h : config.Filled) (hother : other.Filled) : Filled (SortedMap.union config other) := by
  intro name object hget
  rw [SortedMap.get?_union] at hget
  cases hthere : other.get? name with
  | some object' =>
    rw [hthere] at hget
    cases hget
    exact hother name _ hthere
  | none =>
    rw [hthere] at hget
    exact h name object hget

theorem Filled.editObject (h : config.Filled) (name : String) {edit : Object → Object}
    (hedit : ∀ object : Object, object.Filled → (edit object).Filled) :
    Filled (config.editObject name edit) := by
  rw [Config.editObject]
  cases hget : config.get? name with
  | none => exact h
  | some object => exact h.insert name (hedit object (h name object hget))

end Config

/-! ## Stores -/

/-- No store holds an empty list. -/
def Stores.Filled (stores : Stores) : Prop := ∀ id, (stores.get id).Filled

namespace Stores.Filled

variable {stores after : Stores}

theorem of_configs (h : ∀ config ∈ stores.configs, config.Filled) : stores.Filled := by
  intro id
  rw [get, List.getD_eq_getElem?_getD]
  cases hget : stores.configs[id]? with
  | none => exact Config.filled_empty
  | some config => exact h config (List.mem_of_getElem? hget)

theorem of_mem (h : stores.Filled) : ∀ config ∈ stores.configs, config.Filled := by
  intro config hmem
  obtain ⟨id, hid, rfl⟩ := List.mem_iff_getElem.1 hmem
  have hthere := h id
  rwa [get, List.getD_eq_getElem?_getD, List.getElem?_eq_getElem hid] at hthere

theorem add (h : stores.Filled) {config : Config} (hconfig : config.Filled) : (stores.add config).2.Filled := by
  refine of_configs fun other hmem => ?_
  rcases List.mem_append.1 hmem with hmem | hmem
  · exact h.of_mem other hmem
  · rw [List.mem_singleton.1 hmem]
    exact hconfig

theorem set (h : stores.Filled) (id : StoreId) {config : Config} (hconfig : config.Filled) :
    (stores.set id config).Filled := by
  refine of_configs fun other hmem => ?_
  rcases List.mem_or_eq_of_mem_set hmem with hmem | rfl
  · exact h.of_mem other hmem
  · exact hconfig

/-- What references bring along is as it is in its own store. -/
theorem imports (h : stores.Filled) {home : StoreId} {walkers : List Walker} {imported : Config}
    (himports : stores.imports home walkers = .ok imported) : imported.Filled := by
  intro name object hget
  obtain ⟨source, -, hsource⟩ := (Stores.get?_imports himports).1 hget
  exact h source name object hsource

theorem write (h : stores.Filled) {owner : Walker} {field : String} {v : FieldValue}
    (hwrite : stores.write owner field v = .ok after) : after.Filled := by
  obtain ⟨imported, himports, -, -, rfl⟩ := Stores.write_eq_ok_iff.1 hwrite
  have hgrown := (h owner.store).union (h.imports himports)
  exact h.set _ (hgrown.editObject _ fun _ hobject => hobject.writeInto v field)

end Stores.Filled

/-- **No step puts an empty list into a store.** -/
theorem Session.Change.filled {known : Schema → Prop} {session next : Session}
    (h : session.Change known next) (hfilled : session.stores.Filled) : next.stores.Filled := by
  cases h with
  | registered | issued => exact hfilled
  | parsed hparse => exact hfilled.add (Config.filled_of_parse hparse)
  | newStore => exact hfilled.add Config.filled_empty
  | copied id => exact hfilled.add (hfilled id)
  | merged hmerge =>
    obtain ⟨-, rfl⟩ := Config.merge_eq_ok_iff.1 hmerge
    exact hfilled.set _ ((hfilled _).union (hfilled _))
  | added hadd =>
    rw [Config.tryAdd] at hadd
    split at hadd
    · cases hadd
    · cases hadd
      exact hfilled.set _ ((hfilled _).insert _ (Object.filled_typed _))
  | written hwrite => exact hfilled.write hwrite
  | removed owner field =>
    exact hfilled.set _ ((hfilled _).editObject _ fun _ hobject => hobject.erase field)

theorem Session.Leads.filled {known : Schema → Prop} {session next : Session}
    (h : session.Leads known next) (hfilled : session.stores.Filled) : next.stores.Filled := by
  induction h with
  | refl => exact hfilled
  | tail _ hchange ih => exact hchange.filled ih

/-! ## What is written of a configuration -/

/-- All numbers in the value are finite. -/
def Value.FiniteNumbers : Value → Prop
  | .number n => n.isFinite = true
  | .numbers items => ∀ n ∈ items, n.isFinite = true
  | .text _ | .texts _ => True

instance (v : Value) : Decidable v.FiniteNumbers :=
  match v with
  | .number n => instDecidableEqBool n.isFinite true
  | .numbers items => List.decidableBAll (fun n : Number => n.isFinite = true) items
  | .text _ | .texts _ => .isTrue trivial

theorem Value.FiniteNumbers.proper {v : Value} (h : v.FiniteNumbers) (hfilled : v.isEmptyList = false) :
    v.Proper := by
  cases v with
  | text s => trivial
  | number n => exact h
  | texts items =>
    rintro rfl
    cases hfilled
  | numbers items =>
    refine ⟨?_, h⟩
    rintro rfl
    cases hfilled

namespace Config

variable {config : Config}

/-- Objects with fields have names, and so have the fields; all numbers are finite, and there is a field. -/
structure Regular (config : Config) : Prop where
  field : ∀ object ∈ config.entries, ∀ field ∈ object.2.entries,
    isName object.1 = true ∧ isName field.1 = true ∧ field.2.FiniteNumbers
  exists_field : ∃ object ∈ config.entries, object.2.entries ≠ []

/-- The configuration without the objects that have no fields. -/
def fielded (config : Config) : Config where
  entries := config.entries.filter fun e => !e.2.isEmpty
  increasing := config.increasing.filter _

theorem get?_fielded_eq_some_iff {name : String} {object : Object} :
    config.fielded.get? name = some object ↔ config.get? name = some object ∧ object.entries ≠ [] := by
  rw [← SortedMap.mem_entries_iff, fielded, List.mem_filter, SortedMap.mem_entries_iff, OrderedMap.isEmpty,
    Bool.not_eq_true', List.isEmpty_eq_false_iff]

/-- An object without fields holds nothing, and neither does none. -/
theorem raw?_fielded (config : Config) (name field : String) :
    config.fielded.raw? name field = config.raw? name field := by
  apply Option.ext
  intro value
  simp only [raw?, Option.bind_eq_bind, Option.bind_eq_some_iff, get?_fielded_eq_some_iff]
  constructor
  · rintro ⟨object, ⟨hget, -⟩, hfield⟩
    exact ⟨object, hget, hfield⟩
  · rintro ⟨object, hget, hfield⟩
    exact ⟨object, ⟨hget, List.ne_nil_of_mem (OrderedMap.mem_entries_iff.2 hfield)⟩, hfield⟩

/-- Objects without fields leave no trace in the canonical text. -/
theorem canonical_fielded (config : Config) : config.fielded.canonical = config.canonical := by
  rw [canonical, canonical]
  show (config.entries.filter fun e => !e.2.isEmpty).flatMap _ = _
  induction config.entries with
  | nil => rfl
  | cons e rest ih =>
    obtain ⟨name, object⟩ := e
    rw [List.flatMap_cons, ← ih, List.filter_cons]
    dsimp only
    by_cases hempty : object.isEmpty = true
    · have hperm := sortedFields_perm object
      rw [List.isEmpty_iff.1 hempty] at hperm
      rw [hempty, if_neg (by decide), List.perm_nil.1 hperm]
      rfl
    · rw [Bool.not_eq_true] at hempty
      rw [hempty, if_pos (by decide), List.flatMap_cons]

/-- What becomes of a configuration when it is written: a text in one of the fields cannot be quoted and is
    reported, or the canonical text is read as the configuration without the objects that have no fields. -/
def WritesBack (config : Config) : Prop :=
  (∃ name field value text, config.raw? name field = some value ∧ value.unquotable? = some text ∧
    config.write = .error (.unrepresentable name field text)) ∨
  ∃ text parsed, config.write = .ok text ∧ parse text = .ok parsed ∧ parsed.keys = config.fielded.keys ∧
    (∀ name field, parsed.raw? name field = config.raw? name field) ∧ parsed.same config.fielded = true

theorem Filled.writable_fielded (h : config.Filled) (hregular : config.Regular)
    (hquote : ∀ s ∈ config.canonical, s.value.unquotable? = none) : config.fielded.Writable := by
  have hfield : ∀ {name object field value}, config.get? name = some object → (field, value) ∈ object.entries →
      isName name = true ∧ isName field = true ∧ value.Writable := by
    intro name object field value hget hmem
    obtain ⟨hname, hfieldName, hfinite⟩ :=
      hregular.field _ (SortedMap.mem_entries_iff.2 hget) _ hmem
    have hfilled := h name object hget field value (OrderedMap.mem_entries_iff.1 hmem)
    have hquotable := hquote ⟨name, field, value⟩ (mem_canonical_iff.2 ⟨object, hget, hmem⟩)
    exact ⟨hname, hfieldName, (hfinite.proper hfilled).writable hquotable⟩
  refine ⟨?_, ?_, ?_⟩
  · intro name object hget
    obtain ⟨hthere, hne⟩ := get?_fielded_eq_some_iff.1 hget
    obtain ⟨⟨field, value⟩, hmem⟩ := List.exists_mem_of_ne_nil _ hne
    exact (hfield hthere hmem).1
  · intro name object hget
    exact (get?_fielded_eq_some_iff.1 hget).2
  · intro name object field value hget hmem
    exact (hfield (get?_fielded_eq_some_iff.1 hget).1 hmem).2

/-- **A regular configuration without empty lists is written and read back**, unless a text cannot be quoted. -/
theorem Filled.writesBack (h : config.Filled) (hregular : config.Regular) : config.WritesBack := by
  cases hwrite : config.write with
  | error e =>
    left
    obtain ⟨s, hs, text, htext, rfl⟩ := exists_of_writeStatements_error hwrite
    obtain ⟨object, hget, hmem⟩ := mem_canonical_iff.1 hs
    refine ⟨s.object, s.field, s.value, text, ?_, htext, hwrite⟩
    rw [raw?, hget]
    exact OrderedMap.mem_entries_iff.1 hmem
  | ok text =>
    right
    have hwritable := h.writable_fielded hregular (writeStatements_iff.1 hwrite).1
    have hne : config.fielded.entries ≠ [] := by
      obtain ⟨⟨name, object⟩, hmem, hobject⟩ := hregular.exists_field
      have hget := get?_fielded_eq_some_iff.2 ⟨SortedMap.mem_entries_iff.1 hmem, hobject⟩
      exact List.ne_nil_of_mem (SortedMap.mem_entries_iff.2 hget)
    obtain ⟨text', hwrite', hparse⟩ := parse_write hwritable hne
    rw [write, canonical_fielded] at hwrite'
    obtain rfl : text = text' := Except.ok.inj (hwrite.symm.trans hwrite')
    refine ⟨text, _, hwrite, hparse, keys_sorted _, fun name field => ?_, same_sorted hwritable⟩
    rw [raw?_sorted, raw?_fielded]

end Config

/-! ## Runs -/

/-- **No run stores an empty list.** Let a run begin with stores that are empty or as a text describes them,
    and make any changes to any of the stores, further ones included. In each store no object ever holds an
    empty list. So if the names are names, the numbers are finite and there is a field, writing the store
    reports a text that cannot be quoted, or gives a text that is read as the store without the objects that
    have no fields. -/
theorem Session.run_stores_no_empty_list {start : Session}
    (hstart : ∀ config ∈ start.stores.configs,
      config = SortedMap.empty ∨ ∃ text, Config.parse text = .ok config)
    (catalogue : Catalogue) (operations : List Operation) (id : StoreId) :
    ((start.run catalogue operations).stores.get id).Filled ∧
      (((start.run catalogue operations).stores.get id).Regular →
        ((start.run catalogue operations).stores.get id).WritesBack) := by
  have hfilled : start.stores.Filled := by
    refine Stores.Filled.of_configs fun config hmem => ?_
    rcases hstart config hmem with rfl | ⟨text, hparse⟩
    · exact Config.filled_empty
    · exact Config.filled_of_parse hparse
  have hleads : start.Leads (fun _ => True) (start.run catalogue operations) :=
    leads_run (fun _ _ => trivial) start fun _ _ _ _ => trivial
  have hstore := hleads.filled hfilled id
  exact ⟨hstore, hstore.writesBack⟩

/-- A session with a store that was read. -/
def sizesSession : Session :=
  { Session.fresh with stores := ⟨[.ofStatements [⟨"root", "sizes", .numbers [.one]⟩]]⟩ }

/-- An object is made in a store of its own and loses its list; a copy of it loses its tag too, so that nothing
    is left of it. -/
def emptyingRun : List Operation :=
  [.newStore, .createIn (.declare "Item" "item" []) 1 (some "item"),
    .set ⟨1, "item"⟩ "names" (.value (.texts ["a"])), .set ⟨1, "item"⟩ "names" (.value (.texts [])),
    .merge 0 1, .set ⟨0, "root"⟩ "item" (.ref ⟨0, "item"⟩), .set ⟨0, "root"⟩ "others" (.refs []),
    .remove ⟨0, "item"⟩ "type"]

/-- In the store that was read there is an object without fields in the end, and it can be written. -/
theorem run_stores_no_empty_list_emptied :
    (∀ config ∈ sizesSession.stores.configs,
      config = SortedMap.empty ∨ ∃ text, Config.parse text = .ok config) ∧
    (sizesSession.run [] emptyingRun).stores.get 0 =
      SortedMap.insert (Config.ofStatements
        [⟨"root", "sizes", .numbers [.one]⟩, ⟨"root", "item", .text "item"⟩]) "item" ∅ ∧
    ((sizesSession.run [] emptyingRun).stores.get 0).Filled ∧
    ((sizesSession.run [] emptyingRun).stores.get 0).Regular ∧
    ((sizesSession.run [] emptyingRun).stores.get 0).WritesBack := by
  have hread : Config.parse "root.sizes <- [1];" =
      .ok (Config.ofStatements [⟨"root", "sizes", .numbers [.one]⟩]) :=
    Config.eq_ok_of_toOption (by decide +kernel)
  have hstart : ∀ config ∈ sizesSession.stores.configs,
      config = SortedMap.empty ∨ ∃ text, Config.parse text = .ok config := by
    intro config hmem
    rw [List.mem_singleton.1 hmem]
    exact Or.inr ⟨_, hread⟩
  have hregular : ((sizesSession.run [] emptyingRun).stores.get 0).Regular :=
    ⟨by decide +kernel, by decide +kernel⟩
  obtain ⟨hfilled, hwrites⟩ := Session.run_stores_no_empty_list hstart [] emptyingRun 0
  exact ⟨hstart, by decide +kernel, hfilled, hregular, hwrites hregular⟩

end GraphWire
