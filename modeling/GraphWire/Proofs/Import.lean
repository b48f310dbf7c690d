import GraphWire.Proofs.Reach
import GraphWire.Session
import Mathlib.Data.List.Pairwise

/-!
# `Proofs.Import` — writing a field imports what it refers to, or changes nothing

A reference to a walker of another store brings along everything that the walker leads to there. The
write merges what the stores bring, one store after another, and merges the result into the owner's
store. Each merge is of two configurations without a common name or fails, so the whole write succeeds
exactly when no name comes from two places, and then every look-up in the result has one source.

## Contents
- **Merging.** `Config.Apart`, `merge_eq_ok_iff`, and `foldlM_merge_eq_ok`, `exists_foldlM_merge` for
  several configurations in turn.
- **`Stores.Brings`**, what a value brings along, with `get?_imports` and `exists_imports_iff`.
- **The write.** `write_eq_ok_iff`, the conditions `Stores.Importable` and the effect
  `Stores.Imported`, and `setField_exact`, which joins them.
-/

namespace GraphWire

/-! ## Merging -/

namespace Config

/-- No name stands in both configurations. -/
def Apart (a b : Config) : Prop := ∀ name, a.contains name → ¬ b.contains name

theorem Apart.symm {a b : Config} (h : Apart a b) : Apart b a := fun name hb ha => h name ha hb

theorem contains_union {a b : Config} {name : String} :
    (a.union b).contains name ↔ a.contains name ∨ b.contains name := by
  simp only [SortedMap.contains, SortedMap.get?_union]
  cases b.get? name <;> simp

/-- In a union of two configurations apart, each object has one source. -/
theorem get?_union_eq_some_iff {a b : Config} (h : Apart a b) {name : String} {object : Object} :
    (a.union b).get? name = some object ↔ a.get? name = some object ∨ b.get? name = some object := by
  rw [SortedMap.get?_union]
  cases hb : b.get? name with
  | none => simp
  | some other =>
    have ha : a.get? name = none :=
      SortedMap.get?_eq_none_iff.2 (h.symm name (SortedMap.contains_iff.2 ⟨other, hb⟩))
    simp [ha]

theorem apart_union_iff {a b c : Config} : Apart (a.union b) c ↔ Apart a c ∧ Apart b c := by
  constructor
  · intro h
    exact ⟨fun name ha => h name (contains_union.2 (Or.inl ha)),
      fun name hb => h name (contains_union.2 (Or.inr hb))⟩
  · rintro ⟨ha, hb⟩ name hab
    rcases contains_union.1 hab with h | h
    · exact ha name h
    · exact hb name h

theorem merge_eq_ok_iff {a b out : Config} :
    a.merge b = .ok out ↔ Apart a b ∧ out = a.union b := by
  have hnone : a.collision? b = none ↔ Apart a b :=
    SortedMap.collision?_eq_none_iff.trans ⟨Apart.symm, Apart.symm⟩
  rw [merge, ← hnone]
  cases a.collision? b with
  | none => simp [eq_comm]
  | some name => simp

/-- A merge that fails names the object that is there already. -/
theorem eq_nameCollision_of_merge {a b : Config} {e : ConfigError} (h : a.merge b = .error e) :
    ∃ name, e = .nameCollision name := by
  rw [merge] at h
  split at h
  · cases h
    exact ⟨_, rfl⟩
  · cases h

/-- Merging in turn fails only in one of the merges. -/
theorem eq_nameCollision_of_foldlM_merge {parts : List Config} {start : Config} {e : ConfigError}
    (h : parts.foldlM Config.merge start = .error e) : ∃ name, e = .nameCollision name := by
  induction parts generalizing start with
  | nil => cases h
  | cons part rest ih =>
    rw [List.foldlM_cons] at h
    cases hmerge : start.merge part with
    | error e' =>
      rw [hmerge] at h
      cases h
      exact eq_nameCollision_of_merge hmerge
    | ok merged =>
      rw [hmerge] at h
      exact ih h

/-- **Merging in turn needs all configurations apart, and loses nothing:** an object of the result is
    one of the objects merged, unchanged. -/
theorem foldlM_merge_eq_ok {parts : List Config} {start out : Config}
    (h : parts.foldlM Config.merge start = .ok out) :
    (start :: parts).Pairwise Apart ∧ ∀ name object,
      out.get? name = some object ↔ ∃ part ∈ start :: parts, part.get? name = some object := by
  induction parts generalizing start with
  | nil =>
    cases h
    exact ⟨List.pairwise_singleton _ _, fun name object => by simp⟩
  | cons part rest ih =>
    rw [List.foldlM_cons] at h
    obtain ⟨merged, hmerge, h⟩ := Statement.bind_eq_ok h
    obtain ⟨hapart, rfl⟩ := merge_eq_ok_iff.1 hmerge
    obtain ⟨hpairs, hget⟩ := ih h
    obtain ⟨hunion, hrest⟩ := List.pairwise_cons.1 hpairs
    -- what is apart from the union of the first two is apart from both of them
    have hstart : ∀ other ∈ part :: rest, Apart start other := by
      intro other ho
      rcases List.mem_cons.1 ho with rfl | ho
      · exact hapart
      · exact (apart_union_iff.1 (hunion other ho)).1
    have hpart : ∀ other ∈ rest, Apart part other := by
      intro other ho
      exact (apart_union_iff.1 (hunion other ho)).2
    refine ⟨List.pairwise_cons.2 ⟨hstart, List.pairwise_cons.2 ⟨hpart, hrest⟩⟩, ?_⟩
    · intro name object
      rw [hget]
      simp only [List.mem_cons, exists_eq_or_imp, get?_union_eq_some_iff hapart, or_assoc]

/-- Configurations apart can be merged in turn. -/
theorem exists_foldlM_merge {parts : List Config} {start : Config}
    (h : (start :: parts).Pairwise Apart) : ∃ out, parts.foldlM Config.merge start = .ok out := by
  induction parts generalizing start with
  | nil => exact ⟨start, rfl⟩
  | cons part rest ih =>
    obtain ⟨hstart, hparts⟩ := List.pairwise_cons.1 h
    obtain ⟨hpart, hrest⟩ := List.pairwise_cons.1 hparts
    have hmerge : start.merge part = .ok (start.union part) :=
      merge_eq_ok_iff.2 ⟨hstart part List.mem_cons_self, rfl⟩
    rw [List.foldlM_cons, hmerge]
    apply ih
    refine List.pairwise_cons.2 ⟨?_, hrest⟩
    intro other ho
    exact apart_union_iff.2 ⟨hstart other (List.mem_cons_of_mem _ ho), hpart other ho⟩

end Config

/-! ## What a value brings along -/

namespace Stores

/-- The walkers bring the object along: one of them, of the store `source` other than `home`, leads to
    it there. -/
def Brings (stores : Stores) (home : StoreId) (walkers : List Walker) (source : StoreId)
    (name : String) : Prop :=
  source ≠ home ∧ ∃ w ∈ walkers, w.store = source ∧ (stores.get source).Reaches w.name name

/-- The names from which the search in a store starts. -/
def rootsIn (home : StoreId) (walkers : List Walker) (source : StoreId) : List String :=
  ((walkers.filter (·.store ≠ home)).filter (·.store = source)).map Walker.name

variable {stores : Stores} {home : StoreId} {walkers : List Walker}

/-- The copy made in a store other than `home` holds what the walkers bring along from there. -/
theorem contains_extract_rootsIn {source : StoreId} {name : String} (hs : source ≠ home) :
    ((stores.get source).extract (rootsIn home walkers source)).contains name
      ↔ stores.Brings home walkers source name := by
  rw [Config.contains_extract_iff, Config.mem_reach_iff]
  constructor
  · rintro ⟨root, hroot, hreach⟩
    obtain ⟨w, hw, rfl⟩ := List.mem_map.1 hroot
    obtain ⟨hw, heq⟩ := List.mem_filter.1 hw
    exact ⟨hs, w, (List.mem_filter.1 hw).1, of_decide_eq_true heq, hreach⟩
  · rintro ⟨_, w, hw, rfl, hreach⟩
    refine ⟨w.name, List.mem_map.2 ⟨w, ?_, rfl⟩, hreach⟩
    exact List.mem_filter.2 ⟨List.mem_filter.2 ⟨hw, decide_eq_true hs⟩, decide_eq_true rfl⟩

/-- The stores other than `home` that the walkers are of, each once. -/
def sources (home : StoreId) (walkers : List Walker) : List StoreId :=
  ((walkers.filter (·.store ≠ home)).map Walker.store).eraseDups

theorem mem_sources_iff {source : StoreId} :
    source ∈ sources home walkers ↔ source ≠ home ∧ ∃ w ∈ walkers, w.store = source := by
  rw [sources, List.mem_eraseDups, List.mem_map]
  constructor
  · rintro ⟨w, hw, rfl⟩
    obtain ⟨hw, hne⟩ := List.mem_filter.1 hw
    exact ⟨of_decide_eq_true hne, w, hw, rfl⟩
  · rintro ⟨hne, w, hw, rfl⟩
    exact ⟨w, List.mem_filter.2 ⟨hw, decide_eq_true hne⟩, rfl⟩

theorem Brings.mem_sources {source : StoreId} {name : String}
    (h : stores.Brings home walkers source name) : source ∈ sources home walkers := by
  obtain ⟨hne, w, hw, hstore, _⟩ := h
  exact mem_sources_iff.2 ⟨hne, w, hw, hstore⟩

/-- A list without its repetitions has none. -/
theorem nodup_eraseDups {α : Type} [DecidableEq α] (items : List α) : items.eraseDups.Nodup := by
  match items with
  | [] => exact List.nodup_nil
  | item :: rest =>
    rw [List.eraseDups_cons]
    refine List.nodup_cons.2 ⟨?_, nodup_eraseDups _⟩
    intro hm
    have hne := (List.mem_filter.1 (List.mem_eraseDups.1 hm)).2
    simp at hne
  termination_by items.length
  decreasing_by exact Nat.lt_succ_of_le (List.length_filter_le _ _)

/-- The imports are the copies of all sources, merged in turn. -/
theorem imports_eq (stores : Stores) (home : StoreId) (walkers : List Walker) :
    stores.imports home walkers
      = ((sources home walkers).map fun source =>
          (stores.get source).extract (rootsIn home walkers source)).foldlM
          Config.merge SortedMap.empty := by
  rw [List.foldlM_map]
  rfl

/-- No two stores bring an object of the same name. -/
def SourcesApart (stores : Stores) (home : StoreId) (walkers : List Walker) : Prop :=
  ∀ a b name, stores.Brings home walkers a name → stores.Brings home walkers b name → a = b

/-- The copies are apart, each from the others and from nothing, exactly when the sources are. -/
theorem pairwise_apart_iff :
    (SortedMap.empty :: (sources home walkers).map fun source =>
        (stores.get source).extract (rootsIn home walkers source)).Pairwise Config.Apart
      ↔ stores.SourcesApart home walkers := by
  have hempty : ∀ other : Config, Config.Apart SortedMap.empty other := by
    intro other name h
    exact absurd h Bool.false_ne_true
  rw [List.pairwise_cons, List.pairwise_map]
  constructor
  · rintro ⟨-, hpairs⟩ a b name ha hb
    by_contra hne
    -- being apart is symmetric, so the order of the sources does not matter
    have : Std.Symm fun a b => Config.Apart ((stores.get a).extract (rootsIn home walkers a))
        ((stores.get b).extract (rootsIn home walkers b)) := ⟨fun _ _ => Config.Apart.symm⟩
    exact hpairs.forall ha.mem_sources hb.mem_sources hne name
      ((contains_extract_rootsIn ha.1).2 ha) ((contains_extract_rootsIn hb.1).2 hb)
  · intro hapart
    refine ⟨fun other _ => hempty other, ?_⟩
    apply (nodup_eraseDups _).imp_of_mem
    intro a b ha hb hne name hca hcb
    -- a name in two copies is brought from both sources, which are therefore one
    have hbringsA := (contains_extract_rootsIn (mem_sources_iff.1 ha).1).1 hca
    have hbringsB := (contains_extract_rootsIn (mem_sources_iff.1 hb).1).1 hcb
    exact hne (hapart a b name hbringsA hbringsB)

/-- **There are imports exactly when no two stores bring the same name.** -/
theorem exists_imports_iff :
    (∃ imported, stores.imports home walkers = .ok imported) ↔ stores.SourcesApart home walkers := by
  rw [← pairwise_apart_iff, imports_eq]
  constructor
  · rintro ⟨_, h⟩
    exact (Config.foldlM_merge_eq_ok h).1
  · intro h
    exact Config.exists_foldlM_merge h

theorem eq_nameCollision_of_imports {e : ConfigError}
    (h : stores.imports home walkers = .error e) : ∃ name, e = .nameCollision name :=
  Config.eq_nameCollision_of_foldlM_merge (imports_eq stores home walkers ▸ h)

/-- **The imports are complete and exact:** they hold what the walkers bring along, each object as it is
    in its own store. -/
theorem get?_imports {imported : Config} (h : stores.imports home walkers = .ok imported)
    {name : String} {object : Object} :
    imported.get? name = some object ↔
      ∃ source, stores.Brings home walkers source name ∧ (stores.get source).get? name = some object := by
  rw [imports_eq] at h
  rw [(Config.foldlM_merge_eq_ok h).2]
  constructor
  · rintro ⟨part, hpart, hget⟩
    rcases List.mem_cons.1 hpart with rfl | hpart
    · -- the empty configuration that the merges begin with holds nothing
      cases hget
    · obtain ⟨source, hsource, rfl⟩ := List.mem_map.1 hpart
      have hne := (mem_sources_iff.1 hsource).1
      have hbrings : stores.Brings home walkers source name :=
        (contains_extract_rootsIn hne).1 (SortedMap.contains_iff.2 ⟨object, hget⟩)
      rw [Config.get?_extract] at hget
      split at hget
      · exact ⟨source, hbrings, hget⟩
      · cases hget
  · rintro ⟨source, hbrings, hget⟩
    refine ⟨_, List.mem_cons_of_mem _ (List.mem_map.2 ⟨source, hbrings.mem_sources, rfl⟩), ?_⟩
    have hmem := Config.contains_extract_iff.1 ((contains_extract_rootsIn hbrings.1).2 hbrings)
    rw [Config.get?_extract, if_pos hmem, hget]

theorem contains_imports {imported : Config} (h : stores.imports home walkers = .ok imported)
    {name : String} :
    imported.contains name ↔ ∃ source, stores.Brings home walkers source name := by
  simp only [SortedMap.contains_iff, get?_imports h]
  constructor
  · rintro ⟨_, source, hbrings, _⟩
    exact ⟨source, hbrings⟩
  · rintro ⟨source, hbrings⟩
    have ⟨_, w, _, _, hreach⟩ := hbrings
    obtain ⟨object, hget⟩ := SortedMap.contains_iff.1 hreach.contains
    exact ⟨object, source, hbrings, hget⟩

end Stores

/-! ## The write -/

/-- What a field holds after a value was written into it; `none` if it is gone. -/
inductive FieldValue.Leaves : FieldValue → Option Value → Prop where
  | unset : Leaves .unset none
  | noTexts : Leaves (.value (.texts [])) none
  | noNumbers : Leaves (.value (.numbers [])) none
  | value {v : Value} (texts : v ≠ .texts []) (numbers : v ≠ .numbers []) :
    Leaves (.value v) (some v)
  | ref (target : Walker) : Leaves (.ref target) (some (.text target.name))
  | noRefs : Leaves (.refs []) none
  | refs (first : Walker) (others : List Walker) :
    Leaves (.refs (first :: others)) (some (.texts ((first :: others).map Walker.name)))

theorem FieldValue.leaves_stored? (v : FieldValue) : v.Leaves v.stored? := by
  cases v with
  | unset => exact .unset
  | value v =>
    rw [stored?]
    split
    · next h =>
      match v, h with
      | .texts [], _ => exact .noTexts
      | .numbers [], _ => exact .noNumbers
    · next h => exact .value (by rintro rfl; exact h rfl) (by rintro rfl; exact h rfl)
  | ref target => exact .ref target
  | refs targets =>
    cases targets with
    | nil => exact .noRefs
    | cons first others => exact .refs first others

/-- The object with the value written into its field. -/
def FieldValue.writeInto (v : FieldValue) (field : String) (object : Object) : Object :=
  match v.stored? with
  | some stored => object.insert field stored
  | none => object.erase field

theorem FieldValue.get?_writeInto (v : FieldValue) (field : String) (object : Object) :
    (v.writeInto field object).get? field = v.stored? := by
  rw [writeInto]
  cases v.stored? with
  | some value => simp [OrderedMap.get?_insert]
  | none => simp [OrderedMap.get?_erase]

theorem FieldValue.filter_writeInto (v : FieldValue) (field : String) (object : Object) :
    (v.writeInto field object).entries.filter (·.1 ≠ field)
      = object.entries.filter (·.1 ≠ field) := by
  rw [writeInto]
  cases v.stored? with
  | some value => exact object.filter_insert field value
  | none => exact object.filter_erase field

theorem Config.get?_editObject (config : Config) (name : String) (edit : Object → Object)
    (other : String) :
    (config.editObject name edit).get? other
      = if other = name then (config.get? other).map edit else config.get? other := by
  rw [Config.editObject]
  cases ho : config.get? name with
  | none => by_cases h : other = name <;> simp [h, ho]
  | some object => by_cases h : other = name <;> simp [h, ho, SortedMap.get?_insert]

namespace Stores

theorem get_set_of_ne (stores : Stores) {id other : StoreId} (h : other ≠ id) (config : Config) :
    (stores.set id config).get other = stores.get other := by
  simp [get, set, List.getElem?_set_ne (Ne.symm h)]

theorem get_set_of_lt {stores : Stores} {id : StoreId} (h : id < stores.configs.length)
    (config : Config) : (stores.set id config).get id = config := by
  simp [get, set, h]

/-- A store in which something is found exists, and so it can be set. -/
theorem get_set_self {stores : Stores} {id : StoreId} {name : String}
    (there : (stores.get id).contains name) (config : Config) :
    (stores.set id config).get id = config := by
  refine get_set_of_lt ?_ config
  by_contra hge
  rw [get, List.getD_eq_getElem?_getD, List.getElem?_eq_none (Nat.not_lt.1 hge)] at there
  exact Bool.false_ne_true there

variable {stores after : Stores} {owner : Walker} {field : String} {v : FieldValue}

/-- The write as one decision after another. -/
theorem write_eq (stores : Stores) (owner : Walker) (field : String) (v : FieldValue) :
    stores.write owner field v =
      match stores.imports owner.store v.walkers with
      | .error e => .error e
      | .ok imported =>
        if (stores.get owner.store).contains owner.name then
          match (stores.get owner.store).merge imported with
          | .error e => .error e
          | .ok grown =>
            .ok (stores.set owner.store (Config.editObject grown owner.name (v.writeInto field)))
        else .error (.objectMissing owner.name) := by
  rw [write]
  cases stores.imports owner.store v.walkers with
  | error e => rfl
  | ok imported =>
    cases hthere : (stores.get owner.store).contains owner.name with
    | false => simp only [bind, Except.bind, hthere]; rfl
    | true =>
      simp only [bind, Except.bind, hthere]
      cases hmerge : (stores.get owner.store).merge imported <;> rfl

/-- **What a write that succeeds does, step by step.** -/
theorem write_eq_ok_iff :
    stores.write owner field v = .ok after ↔
      ∃ imported, stores.imports owner.store v.walkers = .ok imported ∧
        (stores.get owner.store).contains owner.name ∧
        Config.Apart (stores.get owner.store) imported ∧
        after = stores.set owner.store
          (Config.editObject ((stores.get owner.store).union imported) owner.name
            (v.writeInto field)) := by
  rw [write_eq]
  constructor
  · intro h
    split at h
    · cases h
    · next imported himports =>
      split at h
      · next there =>
        split at h
        · cases h
        · next grown hmerge =>
          obtain ⟨hapart, rfl⟩ := Config.merge_eq_ok_iff.1 hmerge
          cases h
          exact ⟨imported, himports, there, hapart, rfl⟩
      · cases h
  · rintro ⟨imported, himports, there, hapart, rfl⟩
    simp only [himports, there, if_true, Config.merge_eq_ok_iff.2 ⟨hapart, rfl⟩]

/-- A write that fails names a clash or the owner that is missing. -/
theorem write_eq_error {e : ConfigError} (h : stores.write owner field v = .error e) :
    e = .objectMissing owner.name ∨ ∃ name, e = .nameCollision name := by
  rw [write_eq] at h
  split at h
  · next himports =>
    cases h
    exact Or.inr (eq_nameCollision_of_imports himports)
  · split at h
    · split at h
      · next hmerge =>
        cases h
        exact Or.inr (Config.eq_nameCollision_of_merge hmerge)
      · cases h
    · cases h
      exact Or.inl rfl

/-- When a value can be written: the owner is there, and every name that the value brings along comes
    from one store and is free in the owner's. -/
structure Importable (stores : Stores) (owner : Walker) (v : FieldValue) : Prop where
  owner_there : (stores.get owner.store).contains owner.name
  sources_apart : stores.SourcesApart owner.store v.walkers
  names_free : ∀ source name, stores.Brings owner.store v.walkers source name →
    ¬ (stores.get owner.store).contains name

/-- What a write leaves behind. -/
structure Imported (stores : Stores) (owner : Walker) (field : String) (v : FieldValue)
    (after : Stores) : Prop where
  /-- What the value brings along is in the owner's store, each object as it is in its own. -/
  brought : ∀ source name, stores.Brings owner.store v.walkers source name →
    (after.get owner.store).get? name = (stores.get source).get? name
  /-- Under every other name there is what was there, the owner excepted. -/
  kept : ∀ name, name ≠ owner.name →
    (∀ source, ¬ stores.Brings owner.store v.walkers source name) →
    (after.get owner.store).get? name = (stores.get owner.store).get? name
  /-- The owner's field is as the value leaves it; its other fields stand as they stood. -/
  owner_written : ∃ old new, (stores.get owner.store).get? owner.name = some old ∧
    (after.get owner.store).get? owner.name = some new ∧ v.Leaves (new.get? field) ∧
    new.entries.filter (·.1 ≠ field) = old.entries.filter (·.1 ≠ field)
  /-- No other store changes. -/
  others : ∀ id, id ≠ owner.store → after.get id = stores.get id

theorem exists_write_iff :
    (∃ after, stores.write owner field v = .ok after) ↔ stores.Importable owner v := by
  constructor
  · rintro ⟨after, h⟩
    obtain ⟨imported, himports, there, hapart, -⟩ := write_eq_ok_iff.1 h
    refine ⟨there, exists_imports_iff.1 ⟨imported, himports⟩, ?_⟩
    intro source name hbrings
    exact hapart.symm name ((contains_imports himports).2 ⟨source, hbrings⟩)
  · rintro ⟨there, hsources, hfree⟩
    obtain ⟨imported, himports⟩ := exists_imports_iff.2 hsources
    refine ⟨_, write_eq_ok_iff.2 ⟨imported, himports, there, ?_, rfl⟩⟩
    intro name hhome himp
    obtain ⟨source, hbrings⟩ := (contains_imports himports).1 himp
    exact hfree source name hbrings hhome

theorem imported_of_write (h : stores.write owner field v = .ok after) :
    stores.Imported owner field v after := by
  obtain ⟨imported, himports, there, hapart, rfl⟩ := write_eq_ok_iff.1 h
  obtain ⟨old, hold⟩ := SortedMap.contains_iff.1 there
  have hfound : ∀ name, ((stores.set owner.store
      (Config.editObject ((stores.get owner.store).union imported) owner.name
        (v.writeInto field))).get owner.store).get? name
      = if name = owner.name then some (v.writeInto field old)
        else (imported.get? name).or ((stores.get owner.store).get? name) := by
    intro name
    rw [get_set_self there, Config.get?_editObject]
    by_cases hn : name = owner.name
    · have hunion : ((stores.get owner.store).union imported).get? owner.name = some old :=
        (Config.get?_union_eq_some_iff hapart).2 (Or.inl hold)
      rw [if_pos hn, if_pos hn, hn, hunion]
      rfl
    · rw [if_neg hn, if_neg hn, SortedMap.get?_union]
  constructor
  · intro source name hbrings
    -- the owner is not among the names brought along, since these are free in its store
    have himp := (contains_imports himports).2 ⟨source, hbrings⟩
    have hn : name ≠ owner.name := by
      rintro rfl
      exact hapart _ there himp
    have ⟨_, w, _, _, hreach⟩ := hbrings
    obtain ⟨object, hobject⟩ := SortedMap.contains_iff.1 hreach.contains
    rw [hfound, if_neg hn, (get?_imports himports).2 ⟨source, hbrings, hobject⟩, hobject]
    rfl
  · intro name hn hnone
    have himp : imported.get? name = none := by
      apply SortedMap.get?_eq_none_iff.2
      intro himp
      obtain ⟨source, hbrings⟩ := (contains_imports himports).1 himp
      exact hnone source hbrings
    rw [hfound, if_neg hn, himp]
    rfl
  · refine ⟨old, v.writeInto field old, hold, by rw [hfound, if_pos rfl], ?_,
      v.filter_writeInto field old⟩
    rw [FieldValue.get?_writeInto]
    exact v.leaves_stored?
  · intro id hid
    exact get_set_of_ne stores hid _

end Stores

/-- A write on a session is a write on its stores; a failure leaves the session as it is. -/
theorem Action.outcome_setField (session : Session) (owner : Walker) (field : String)
    (v : FieldValue) :
    (Action.setField owner field v).outcome session =
      match session.stores.write owner field v with
      | .ok stores => (.ok (), { session with stores })
      | .error e => (.error e, session) := by
  cases h : session.stores.write owner field v with
  | ok stores =>
    have hset : Action.setField owner field v session = .ok () { session with stores } := by
      show EStateM.bind (Action.ofExcept (session.stores.write owner field v)) _ session = _
      rw [h]
      rfl
    rw [Action.outcome, hset]
  | error e =>
    have hset : Action.setField owner field v session = .error e session := by
      show EStateM.bind (Action.ofExcept (session.stores.write owner field v)) _ session = _
      rw [h]
      rfl
    rw [Action.outcome, hset]

/-- **Writing a field is an exact, all-or-nothing import.** It succeeds exactly when the value is
    importable; then the owner's store is what it was with all that the value brings along, and the
    owner's field is written. When it fails, because of a clash or of a missing owner, nothing has
    changed. -/
theorem setField_exact (session : Session) (owner : Walker) (field : String) (v : FieldValue) :
    let result := ((Action.setField owner field v).outcome session).1
    let after := ((Action.setField owner field v).outcome session).2
    (result = .ok () ↔ session.stores.Importable owner v) ∧
    (result = .ok () → session.stores.Imported owner field v after.stores ∧
      after = { session with stores := after.stores }) ∧
    (∀ e, result = .error e →
      (e = .objectMissing owner.name ∨ ∃ name, e = .nameCollision name) ∧ after = session) := by
  have himportable : (∃ after, session.stores.write owner field v = .ok after) ↔
      session.stores.Importable owner v := Stores.exists_write_iff
  rw [Action.outcome_setField, ← himportable]
  cases h : session.stores.write owner field v with
  | ok stores =>
    refine ⟨⟨fun _ => ⟨stores, rfl⟩, fun _ => rfl⟩, ?_, ?_⟩
    · intro _
      exact ⟨Stores.imported_of_write h, rfl⟩
    · intro e he
      cases he
  | error e =>
    refine ⟨⟨?_, ?_⟩, ?_, ?_⟩
    · intro hok
      cases hok
    · rintro ⟨_, hok⟩
      cases hok
    · intro hok
      cases hok
    · intro e' he
      cases he
      exact ⟨Stores.write_eq_error h, rfl⟩

end GraphWire
