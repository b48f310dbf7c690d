import GraphWire.Proofs.Import

/-!
# `Proofs.Gathering` — fields written in turn, and what they bring along

Fields of one object are written in turn until one of the writes fails. Each write takes up what its value brings
along, so the names that it brings are in the way of all later ones. Whether all of them succeed does not depend
on their order: what the values bring along must have names that are free, and no name may come twice. The other
stores never change, and so it is the same from the first write to the last what each of them brings.

## Contents
- **Objects.** **`FieldValue.entries_writeAllInto`**, new fields in the order of writing.
- **Writes in turn.** `Stores.writeAll`; `Joined.cons`, one more write in front of the others, and
  **`gathered_of_writeAll`**, what they leave if all succeed.
- **When all succeed.** `Stores.Gatherable`, and **`exists_writeAll_iff`**.
- **Objects that were made.** `Stores.withObject`, and `Stores.Creates`, what an object with its fields leaves.
-/

namespace GraphWire

open Config

/-! ## Objects -/

namespace FieldValue

/-- The object with all values written into their fields, in turn. -/
def writeAllInto (fields : List (String × FieldValue)) (object : Object) : Object :=
  fields.foldl (fun object (field, v) => v.writeInto field object) object

/-- What is stored for a field, if anything is. -/
def storedAs? (e : String × FieldValue) : Option (String × Value) := e.2.stored?.map (e.1, ·)

theorem entries_writeInto {field : String} {object : Object} (h : field ∉ object.keys) (v : FieldValue) :
    (v.writeInto field object).entries = object.entries ++ (storedAs? (field, v)).toList := by
  rw [writeInto, storedAs?]
  cases v.stored? with
  | some stored => exact Entry.put_of_notMem h
  | none => exact (Entry.drop_of_notMem h).trans (List.append_nil _).symm

/-- **Values that are written into new fields stand behind the fields that are there, in the order of writing.** -/
theorem entries_writeAllInto {fields : List (String × FieldValue)} {object : Object}
    (hdistinct : (Entry.keys fields).Nodup) (hnew : ∀ field ∈ Entry.keys fields, field ∉ object.keys) :
    (writeAllInto fields object).entries = object.entries ++ fields.filterMap storedAs? := by
  induction fields generalizing object with
  | nil => exact (List.append_nil _).symm
  | cons first rest ih =>
    obtain ⟨field, v⟩ := first
    obtain ⟨hfield, hdistinct⟩ := List.nodup_cons.1 hdistinct
    obtain ⟨hfirst, hrest⟩ := List.forall_mem_cons.1 hnew
    have hentries := entries_writeInto hfirst v
    have hnext : ∀ other ∈ Entry.keys rest, other ∉ (v.writeInto field object).keys := by
      intro other hother hmem
      rw [OrderedMap.keys, hentries, Entry.keys, List.map_append] at hmem
      rcases List.mem_append.1 hmem with hmem | hmem
      · exact hrest other hother hmem
      · obtain ⟨e, he, rfl⟩ := List.mem_map.1 hmem
        obtain ⟨stored, -, rfl⟩ := Option.map_eq_some_iff.1 (Option.mem_toList.1 he)
        exact hfield hother
    show (writeAllInto rest (v.writeInto field object)).entries = _
    rw [ih hdistinct hnext, hentries, List.append_assoc, List.filterMap_cons]
    cases storedAs? (field, v) <;> rfl

end FieldValue

/-! ## Writes in turn -/

namespace Stores

/-- Writes fields of the owner in turn, up to the first write that fails; those before it stay. -/
def writeAll (stores : Stores) (owner : Walker) :
    List (String × FieldValue) → Stores × Except ConfigError Unit
  | [] => (stores, .ok ())
  | (field, v) :: rest =>
    match stores.write owner field v with
    | .ok next => next.writeAll owner rest
    | .error e => (stores, .error e)

variable {stores after : Stores} {owner : Walker} {field name : String} {v : FieldValue}
  {fields : List (String × FieldValue)}

/-- Writes in turn fail at one of them. -/
theorem exists_of_writeAll_error {e : ConfigError} (h : stores.writeAll owner fields = (after, .error e)) :
    ∃ done field v rest, fields = done ++ (field, v) :: rest ∧
      stores.writeAll owner done = (after, .ok ()) ∧ after.write owner field v = .error e := by
  induction fields generalizing stores with
  | nil => cases h
  | cons first rest ih =>
    obtain ⟨field, v⟩ := first
    rw [writeAll] at h
    cases hwrite : stores.write owner field v with
    | ok next =>
      rw [hwrite] at h
      obtain ⟨done, field', v', rest', rfl, hdone, herror⟩ := ih h
      refine ⟨(field, v) :: done, field', v', rest', rfl, ?_, herror⟩
      rw [writeAll, hwrite]
      exact hdone
    | error e' =>
      rw [hwrite] at h
      cases h
      exact ⟨[], field, v, rest, rfl, rfl, hwrite⟩

/-- If the owner is there, only a name that clashes keeps a field from being written. -/
theorem eq_nameCollision_of_write {e : ConfigError} (there : (stores.get owner.store).contains owner.name)
    (h : stores.write owner field v = .error e) : ∃ name, e = .nameCollision name := by
  rw [write_eq] at h
  split at h
  · next himports =>
    cases h
    exact eq_nameCollision_of_imports himports
  · rw [if_pos there] at h
    split at h
    · next hmerge =>
      cases h
      exact Config.eq_nameCollision_of_merge hmerge
    · cases h

/-- What is brought along depends on the other stores only. -/
theorem brings_congr {home source : StoreId} {walkers : List Walker}
    (h : ∀ id, id ≠ home → after.get id = stores.get id) :
    after.Brings home walkers source name ↔ stores.Brings home walkers source name := by
  refine and_congr_right fun hne => ?_
  rw [h source hne]

theorem brings_write_iff (h : stores.write owner field v = .ok after) {source : StoreId}
    {walkers : List Walker} :
    after.Brings owner.store walkers source name ↔ stores.Brings owner.store walkers source name :=
  brings_congr (imported_of_write h).others

theorem get?_owner_of_write (h : stores.write owner field v = .ok after) {object : Object}
    (hget : (stores.get owner.store).get? owner.name = some object) :
    (after.get owner.store).get? owner.name = some (v.writeInto field object) := by
  obtain ⟨imported, -, there, hapart, rfl⟩ := write_eq_ok_iff.1 h
  have hunion : ((stores.get owner.store).union imported).get? owner.name = some object :=
    (Config.get?_union_eq_some_iff hapart).2 (Or.inl hget)
  rw [get_set_self there, Config.get?_editObject, if_pos rfl, hunion]
  rfl

/-- What is in the owner's store after a write was there or has been brought along. -/
theorem contains_write_iff (h : stores.write owner field v = .ok after) :
    (after.get owner.store).contains name ↔ (stores.get owner.store).contains name ∨
      ∃ source, stores.Brings owner.store v.walkers source name := by
  have himported := imported_of_write h
  by_cases hname : name = owner.name
  · obtain ⟨old, new, hold, hnew, -⟩ := himported.owner_written
    rw [hname]
    exact ⟨fun _ => Or.inl (SortedMap.contains_iff.2 ⟨old, hold⟩),
      fun _ => SortedMap.contains_iff.2 ⟨new, hnew⟩⟩
  · by_cases hbrought : ∃ source, stores.Brings owner.store v.walkers source name
    · obtain ⟨source, hbrings⟩ := id hbrought
      have ⟨_, w, _, _, hreach⟩ := hbrings
      obtain ⟨object, hobject⟩ := SortedMap.contains_iff.1 hreach.contains
      have hthere := SortedMap.contains_iff.2 ⟨object, (himported.brought source name hbrings).trans hobject⟩
      exact ⟨fun _ => Or.inr hbrought, fun _ => hthere⟩
    · have hkept := himported.kept name hname fun source hbrings => hbrought ⟨source, hbrings⟩
      rw [SortedMap.contains, hkept]
      exact (or_iff_left hbrought).symm

/-- The owner's store has taken up what the values bring along, each object as it is in its own store and under
    a name that was free. Nothing but the owner has changed. -/
structure Joined (stores : Stores) (owner : Walker) (fields : List (String × FieldValue)) (after : Stores) :
    Prop where
  brought : ∀ field v, (field, v) ∈ fields → ∀ source name,
    stores.Brings owner.store v.walkers source name →
    (after.get owner.store).get? name = (stores.get source).get? name
  names_free : ∀ field v, (field, v) ∈ fields → ∀ source name,
    stores.Brings owner.store v.walkers source name → ¬ (stores.get owner.store).contains name
  kept : ∀ name, name ≠ owner.name →
    (∀ field v, (field, v) ∈ fields → ∀ source, ¬ stores.Brings owner.store v.walkers source name) →
    (after.get owner.store).get? name = (stores.get owner.store).get? name
  others : ∀ id, id ≠ owner.store → after.get id = stores.get id

theorem Joined.nothing (stores : Stores) (owner : Walker) : stores.Joined owner [] stores := by
  refine ⟨?_, ?_, fun _ _ _ => rfl, fun _ _ => rfl⟩
  · intro field v hmem
    cases hmem
  · intro field v hmem
    cases hmem

/-- **One more write, in front of the others.** What it brings is in the way of the later ones, so it stays as it
    was brought; what these bring is the same before and after it, since the other stores do not change. -/
theorem Joined.cons {next : Stores} (there : (stores.get owner.store).contains owner.name)
    (hwrite : stores.write owner field v = .ok next) (hrest : next.Joined owner fields after) :
    stores.Joined owner ((field, v) :: fields) after := by
  have hfirst := imported_of_write hwrite
  have hfree := (exists_write_iff.1 ⟨next, hwrite⟩).names_free
  have hbrings : ∀ {w : FieldValue} {source name},
      next.Brings owner.store w.walkers source name ↔ stores.Brings owner.store w.walkers source name :=
    brings_write_iff hwrite
  constructor
  · intro field' v' hmem source name hbrought
    rcases List.mem_cons.1 hmem with heq | hmem
    · cases heq
      have hname : name ≠ owner.name := by
        rintro rfl
        exact hfree source _ hbrought there
      have hthere := (contains_write_iff hwrite).2 (Or.inr ⟨source, hbrought⟩)
      have hstays := hrest.kept name hname fun field' v' hmem source' hbrought' =>
        hrest.names_free field' v' hmem source' name hbrought' hthere
      exact hstays.trans (hfirst.brought source name hbrought)
    · rw [hrest.brought field' v' hmem source name (hbrings.2 hbrought), hfirst.others source hbrought.1]
  · intro field' v' hmem source name hbrought hthere
    rcases List.mem_cons.1 hmem with heq | hmem
    · cases heq
      exact hfree source name hbrought hthere
    · exact hrest.names_free field' v' hmem source name (hbrings.2 hbrought)
        ((contains_write_iff hwrite).2 (Or.inl hthere))
  · intro name hname hnone
    have hlater := hrest.kept name hname fun field' v' hmem source hbrought =>
      hnone field' v' (List.mem_cons_of_mem _ hmem) source (hbrings.1 hbrought)
    exact hlater.trans (hfirst.kept name hname fun source => hnone field v List.mem_cons_self source)
  · intro id hid
    rw [hrest.others id hid, hfirst.others id hid]

/-- What writes in turn leave if all of them succeed. -/
structure Gathered (stores : Stores) (owner : Walker) (fields : List (String × FieldValue))
    (after : Stores) : Prop extends Joined stores owner fields after where
  owner_written : ∀ object, (stores.get owner.store).get? owner.name = some object →
    (after.get owner.store).get? owner.name = some (FieldValue.writeAllInto fields object)

/-- **Writes in turn bring along what each of them does.** No two of them bring an object of the same name,
    since the first one would be in the way of the second. -/
theorem gathered_of_writeAll (there : (stores.get owner.store).contains owner.name)
    (h : stores.writeAll owner fields = (after, .ok ())) : stores.Gathered owner fields after := by
  induction fields generalizing stores with
  | nil =>
    cases h
    exact ⟨.nothing after owner, fun _ hget => hget⟩
  | cons first rest ih =>
    obtain ⟨field, v⟩ := first
    rw [writeAll] at h
    cases hwrite : stores.write owner field v with
    | error e =>
      rw [hwrite] at h
      cases h
    | ok next =>
      rw [hwrite] at h
      have hrest := ih ((contains_write_iff hwrite).2 (Or.inl there)) h
      refine ⟨hrest.toJoined.cons there hwrite, ?_⟩
      intro object hget
      exact hrest.owner_written _ (get?_owner_of_write hwrite hget)

/-! ### When all succeed -/

/-- What the values bring along has names that are free, and no two of them, nor two stores, bring the same. -/
structure Gatherable (stores : Stores) (owner : Walker) (fields : List (String × FieldValue)) : Prop where
  sources_apart : ∀ field v, (field, v) ∈ fields → stores.SourcesApart owner.store v.walkers
  names_free : ∀ field v, (field, v) ∈ fields → ∀ source name,
    stores.Brings owner.store v.walkers source name →
    name ≠ owner.name ∧ ¬ (stores.get owner.store).contains name
  fields_apart : ∀ field v other w, (field, v) ∈ fields → (other, w) ∈ fields → field ≠ other →
    ∀ a b name, stores.Brings owner.store v.walkers a name → ¬ stores.Brings owner.store w.walkers b name

/-- Whether it can be gathered depends on the other stores and on the names that are taken. -/
theorem Gatherable.congr {other : Stores} (hothers : ∀ id, id ≠ owner.store → other.get id = stores.get id)
    (hhome : ∀ name, name ≠ owner.name →
      ((other.get owner.store).contains name ↔ (stores.get owner.store).contains name))
    (h : stores.Gatherable owner fields) : other.Gatherable owner fields := by
  constructor
  · intro field v hmem a b name ha hb
    exact h.sources_apart field v hmem a b name ((brings_congr hothers).1 ha) ((brings_congr hothers).1 hb)
  · intro field v hmem source name hbrought
    obtain ⟨hne, hfree⟩ := h.names_free field v hmem source name ((brings_congr hothers).1 hbrought)
    exact ⟨hne, fun hthere => hfree ((hhome name hne).1 hthere)⟩
  · intro field v field' w hmem hmem' hne a b name ha hb
    exact h.fields_apart field v field' w hmem hmem' hne a b name ((brings_congr hothers).1 ha)
      ((brings_congr hothers).1 hb)

/-- Which fields there are counts, not their order. -/
theorem Gatherable.of_mem {others : List (String × FieldValue)} (hmem : ∀ e, e ∈ others → e ∈ fields)
    (h : stores.Gatherable owner fields) : stores.Gatherable owner others := by
  constructor
  · exact fun field v he => h.sources_apart field v (hmem _ he)
  · exact fun field v he => h.names_free field v (hmem _ he)
  · exact fun field v other w he he' => h.fields_apart field v other w (hmem _ he) (hmem _ he')

/-- What can be gathered for all fields can be gathered for the others once the first one is written. -/
theorem Gatherable.of_write {rest : List (String × FieldValue)} (hfield : field ∉ Entry.keys rest)
    (hwrite : stores.write owner field v = .ok after) (h : stores.Gatherable owner ((field, v) :: rest)) :
    after.Gatherable owner rest := by
  constructor
  · intro other w hmem a b name ha hb
    exact h.sources_apart other w (List.mem_cons_of_mem _ hmem) a b name ((brings_write_iff hwrite).1 ha)
      ((brings_write_iff hwrite).1 hb)
  · intro other w hmem source name hbrought
    have hmem' := List.mem_cons_of_mem (field, v) hmem
    have hbrings := (brings_write_iff hwrite).1 hbrought
    obtain ⟨hne, hfree⟩ := h.names_free other w hmem' source name hbrings
    refine ⟨hne, fun hthere => ?_⟩
    rcases (contains_write_iff hwrite).1 hthere with hthere | ⟨source', hfirst⟩
    · exact hfree hthere
    · have hother : field ≠ other := by
        rintro rfl
        exact hfield (List.mem_map.2 ⟨_, hmem, rfl⟩)
      exact h.fields_apart field v other w List.mem_cons_self hmem' hother source' source name hfirst hbrings
  · intro other w other' w' hmem hmem' hne a b name ha hb
    exact h.fields_apart other w other' w' (List.mem_cons_of_mem _ hmem) (List.mem_cons_of_mem _ hmem') hne
      a b name ((brings_write_iff hwrite).1 ha) ((brings_write_iff hwrite).1 hb)

/-- What can be gathered once the first field is written can be gathered for all fields. -/
theorem gatherable_cons {rest : List (String × FieldValue)}
    (hwrite : stores.write owner field v = .ok after) (h : after.Gatherable owner rest) :
    stores.Gatherable owner ((field, v) :: rest) := by
  obtain ⟨there, hsources, hfree⟩ := exists_write_iff.1 ⟨after, hwrite⟩
  -- what the first value brings is in the way of the others from then on
  have hapart : ∀ other w, (other, w) ∈ rest → ∀ a b name, stores.Brings owner.store v.walkers a name →
      ¬ stores.Brings owner.store w.walkers b name := by
    intro other w hmem a b name ha hb
    exact (h.names_free other w hmem b name ((brings_write_iff hwrite).2 hb)).2
      ((contains_write_iff hwrite).2 (Or.inr ⟨a, ha⟩))
  constructor
  · intro other w hmem
    rcases List.mem_cons.1 hmem with heq | hmem
    · cases heq
      exact hsources
    · intro a b name ha hb
      exact h.sources_apart other w hmem a b name ((brings_write_iff hwrite).2 ha)
        ((brings_write_iff hwrite).2 hb)
  · intro other w hmem source name hbrought
    rcases List.mem_cons.1 hmem with heq | hmem
    · cases heq
      refine ⟨?_, hfree source name hbrought⟩
      rintro rfl
      exact hfree source _ hbrought there
    · obtain ⟨hne, hnext⟩ := h.names_free other w hmem source name ((brings_write_iff hwrite).2 hbrought)
      exact ⟨hne, fun hthere => hnext ((contains_write_iff hwrite).2 (Or.inl hthere))⟩
  · intro other w other' w' hmem hmem' hne a b name ha hb
    rcases List.mem_cons.1 hmem with heq | hmem <;> rcases List.mem_cons.1 hmem' with heq' | hmem'
    · cases heq
      cases heq'
      exact hne rfl
    · cases heq
      exact hapart other' w' hmem' a b name ha hb
    · cases heq'
      exact hapart other w hmem b a name hb ha
    · exact h.fields_apart other w other' w' hmem hmem' hne a b name ((brings_write_iff hwrite).2 ha)
        ((brings_write_iff hwrite).2 hb)

/-- The first field can be written if what all bring along can be gathered. -/
theorem Gatherable.exists_write {rest : List (String × FieldValue)}
    (there : (stores.get owner.store).contains owner.name)
    (h : stores.Gatherable owner ((field, v) :: rest)) : ∃ next, stores.write owner field v = .ok next := by
  apply exists_write_iff.2
  refine ⟨there, h.sources_apart field v List.mem_cons_self, ?_⟩
  exact fun source name hbrings => (h.names_free field v List.mem_cons_self source name hbrings).2

/-- **Writes in turn succeed exactly if what they bring along can be gathered,** whatever their order is. -/
theorem exists_writeAll_iff (there : (stores.get owner.store).contains owner.name)
    (hdistinct : (Entry.keys fields).Nodup) :
    (∃ after, stores.writeAll owner fields = (after, .ok ())) ↔ stores.Gatherable owner fields := by
  induction fields generalizing stores with
  | nil =>
    refine ⟨fun _ => ⟨?_, ?_, ?_⟩, fun _ => ⟨stores, rfl⟩⟩
    · intro field v hmem
      cases hmem
    · intro field v hmem
      cases hmem
    · intro field v other w hmem
      cases hmem
  | cons first rest ih =>
    obtain ⟨field, v⟩ := first
    obtain ⟨hfield, hdistinct⟩ := List.nodup_cons.1 hdistinct
    rw [writeAll]
    cases hwrite : stores.write owner field v with
    | error e =>
      constructor
      · rintro ⟨after, h⟩
        cases h
      · intro h
        obtain ⟨next, hnext⟩ := h.exists_write there
        rw [hwrite] at hnext
        cases hnext
    | ok next =>
      have hrest := ih ((contains_write_iff hwrite).2 (Or.inl there)) hdistinct
      exact hrest.trans ⟨gatherable_cons hwrite, Gatherable.of_write hfield hwrite⟩

end Stores

/-! ## Objects that were made -/

namespace Stores

variable {stores after : Stores} {walker : Walker} {fields : List (String × FieldValue)} {object : Object}

/-- The object was made under a name that was free, and its store has taken up what its fields bring along. -/
structure Creates (stores : Stores) (walker : Walker) (fields : List (String × FieldValue)) (object : Object)
    (after : Stores) : Prop extends Joined stores walker fields after where
  name_free : ¬ (stores.get walker.store).contains walker.name
  object_made : (after.get walker.store).get? walker.name = some object

theorem Creates.contains (h : stores.Creates walker fields object after) :
    (after.get walker.store).contains walker.name :=
  SortedMap.contains_iff.2 ⟨object, h.object_made⟩

theorem Creates.ne (h : stores.Creates walker fields object after) : after ≠ stores := by
  rintro rfl
  exact h.name_free h.contains

/-- Which fields were written counts, not their order. -/
theorem Creates.congr {others : List (String × FieldValue)} (hmem : ∀ e, e ∈ others ↔ e ∈ fields)
    (h : stores.Creates walker fields object after) : stores.Creates walker others object after := by
  constructor
  · constructor
    · exact fun field v he => h.brought field v ((hmem _).1 he)
    · exact fun field v he => h.names_free field v ((hmem _).1 he)
    · exact fun name hname hnone => h.kept name hname fun field v he => hnone field v ((hmem _).2 he)
    · exact h.others
  · exact h.name_free
  · exact h.object_made

/-- The stores with the object added under its name, before anything is written into its fields. -/
def withObject (stores : Stores) (walker : Walker) (object : Object) : Stores :=
  stores.set walker.store ((stores.get walker.store).insert walker.name object)

theorem get_withObject_of_ne (stores : Stores) (walker : Walker) (object : Object) (id : StoreId)
    (h : id ≠ walker.store) : (stores.withObject walker object).get id = stores.get id :=
  get_set_of_ne stores h _

theorem get?_withObject (hstore : walker.store < stores.configs.length) (object : Object) (name : String) :
    ((stores.withObject walker object).get walker.store).get? name
      = if name = walker.name then some object else (stores.get walker.store).get? name := by
  rw [withObject, get_set_of_lt hstore, SortedMap.get?_insert]

theorem contains_withObject_iff (hstore : walker.store < stores.configs.length) (object : Object)
    (name : String) : ((stores.withObject walker object).get walker.store).contains name ↔
      name = walker.name ∨ (stores.get walker.store).contains name := by
  rw [SortedMap.contains, SortedMap.contains, get?_withObject hstore]
  split
  · next heq => exact ⟨fun _ => Or.inl heq, fun _ => rfl⟩
  · next hne => exact (or_iff_right hne).symm

theorem brings_withObject_iff (stores : Stores) (walker : Walker) (object : Object) {walkers : List Walker}
    {source : StoreId} {name : String} :
    (stores.withObject walker object).Brings walker.store walkers source name ↔
      stores.Brings walker.store walkers source name :=
  brings_congr (get_withObject_of_ne stores walker object)

/-- What the fields bring along is gathered as if the object were not there. -/
theorem gatherable_withObject_iff (hstore : walker.store < stores.configs.length) (object : Object) :
    (stores.withObject walker object).Gatherable walker fields ↔ stores.Gatherable walker fields := by
  have hothers := get_withObject_of_ne stores walker object
  have hhome : ∀ name, name ≠ walker.name →
      (((stores.withObject walker object).get walker.store).contains name ↔
        (stores.get walker.store).contains name) :=
    fun name hname => (contains_withObject_iff hstore object name).trans (or_iff_right hname)
  exact ⟨Gatherable.congr (fun id hid => (hothers id hid).symm) fun name hname => (hhome name hname).symm,
    Gatherable.congr hothers hhome⟩

/-- The object is added under its name, and what its fields bring along is gathered from there on. -/
theorem creates_of_gathered (hstore : walker.store < stores.configs.length)
    (hfree : ¬ (stores.get walker.store).contains walker.name)
    (h : (stores.withObject walker object).Gathered walker fields after) :
    stores.Creates walker fields (FieldValue.writeAllInto fields object) after := by
  constructor
  · constructor
    · intro field v hmem source name hbrought
      rw [h.brought field v hmem source name ((brings_withObject_iff stores walker object).2 hbrought),
        get_withObject_of_ne stores walker object source hbrought.1]
    · intro field v hmem source name hbrought hthere
      exact h.names_free field v hmem source name ((brings_withObject_iff stores walker object).2 hbrought)
        ((contains_withObject_iff hstore object name).2 (Or.inr hthere))
    · intro name hname hnone
      rw [h.kept name hname fun field v hmem source hbrought =>
        hnone field v hmem source ((brings_withObject_iff stores walker object).1 hbrought),
        get?_withObject hstore, if_neg hname]
    · intro id hid
      rw [h.others id hid, get_withObject_of_ne stores walker object id hid]
  · exact hfree
  · apply h.owner_written
    rw [get?_withObject hstore, if_pos rfl]

end Stores

end GraphWire
