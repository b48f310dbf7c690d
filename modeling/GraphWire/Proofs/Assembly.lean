import GraphWire.Proofs.Import

/-!
# `Proofs.Assembly` — configurations that are put together under one root

A message is assembled by writing into its root object: values, and references to objects that are brought
along from other stores. Each write leaves what was there in place, and so what the root reached it still
reaches. Since whatever is brought along is reached from what the new field refers to, the root leads to the
whole configuration at every moment, and a copy of what it reaches is the configuration itself.

## Contents
- **`Config.single`**, a configuration of one object; unions with nothing.
- **Apart.** When the parts that are brought along have no name in common with what is there.
- **`Config.Within`**, objects that stay as they are, and `Config.Grows`, objects that only gain fields.
- **`Config.Rooted`**, the root leads to everything; **`Rooted.value`** and **`Rooted.ref`**, a write keeps
  it, and **`Rooted.extract_eq`**.
- **One root object.** `insert_union_insert`, only its last state counts.
-/

namespace GraphWire.Config

variable {a b c config : Config} {root name target : String} {object new : Object}

/-! ## Small configurations -/

/-- A configuration of one object. -/
def single (name : String) (object : Object) : Config := SortedMap.empty.insert name object

theorem get?_single (name : String) (object : Object) (other : String) :
    (single name object).get? other = if other = name then some object else none := by
  rw [single, SortedMap.get?_insert]
  rfl

theorem union_empty (config : Config) : config.union SortedMap.empty = config := rfl

theorem editObject_of_get? {config : Config} {name : String} {object : Object}
    (h : config.get? name = some object) (edit : Object → Object) :
    config.editObject name edit = config.insert name (edit object) := by
  rw [editObject, h]

theorem empty_union (config : Config) : SortedMap.union SortedMap.empty config = config := by
  apply SortedMap.ext_get?
  intro name
  rw [SortedMap.get?_union, SortedMap.get?_empty, Option.or_none]

/-! ## Apart -/

theorem contains_insert {other : String} :
    SortedMap.contains (SortedMap.insert config name object) other ↔
      other = name ∨ config.contains other := by
  rw [SortedMap.contains, SortedMap.get?_insert]
  split
  · next h => simp [h]
  · next h => exact (or_iff_right h).symm

theorem contains_single {other : String} : (single name object).contains other ↔ other = name := by
  rw [SortedMap.contains, get?_single]
  split
  · next h => simp [h]
  · next h => simp [h]

theorem apart_empty (config : Config) : Apart SortedMap.empty config :=
  fun _ h => absurd h Bool.false_ne_true

theorem apart_insert_iff :
    Apart (SortedMap.insert a name object) b ↔ ¬ b.contains name ∧ Apart a b := by
  constructor
  · intro h
    exact ⟨h name (contains_insert.2 (Or.inl rfl)), fun other ha => h other (contains_insert.2 (Or.inr ha))⟩
  · rintro ⟨hname, h⟩ other hother
    rcases contains_insert.1 hother with rfl | ha
    · exact hname
    · exact h other ha

theorem apart_single_iff : Apart a (single name object) ↔ ¬ a.contains name := by
  constructor
  · intro h hname
    exact h name hname (contains_single.2 rfl)
  · intro h other ha hother
    rw [contains_single.1 hother] at ha
    exact h ha

theorem contains_extract_singleton {root : String} :
    (config.extract [root]).contains name ↔ config.Reaches root name :=
  contains_extract_iff.trans mem_reach_singleton_iff

/-! ## What stays -/

/-- Every object of the first configuration is in the second. -/
def Within (a b : Config) : Prop := ∀ name object, a.get? name = some object → b.get? name = some object

theorem Within.trans (hab : Within a b) (hbc : Within b c) : Within a c :=
  fun name object h => hbc name object (hab name object h)

theorem within_union_left (h : Apart a b) : Within a (SortedMap.union a b) :=
  fun _ _ hget => (get?_union_eq_some_iff h).2 (Or.inl hget)

theorem within_union_right (a b : Config) : Within b (SortedMap.union a b) := by
  intro name object hget
  rw [SortedMap.get?_union, hget, Option.some_or]

/-- An object under a name that is free replaces nothing. -/
theorem within_insert (h : ¬ a.contains name) (object : Object) :
    Within a (SortedMap.insert a name object) := by
  intro other found hget
  have hne : other ≠ name := by
    rintro rfl
    exact h (SortedMap.contains_iff.2 ⟨found, hget⟩)
  rw [SortedMap.get?_insert, if_neg hne, hget]

/-- Every object of the first configuration is in the second, perhaps with further fields. -/
def Grows (a b : Config) : Prop :=
  ∀ name object, a.get? name = some object →
    ∃ grown, b.get? name = some grown ∧ ∀ field value, object.get? field = some value →
      grown.get? field = some value

/-- **What an object reaches it still reaches** when objects and fields are added. -/
theorem Grows.reaches (h : Grows a b) (hreach : a.Reaches root name) : b.Reaches root name := by
  have hthere : ∀ {other}, a.contains other → b.contains other := by
    intro other hother
    obtain ⟨object, hget⟩ := SortedMap.contains_iff.1 hother
    obtain ⟨grown, hgrown, -⟩ := h other object hget
    exact SortedMap.contains_iff.2 ⟨grown, hgrown⟩
  induction hreach with
  | here there => exact .here (hthere there)
  | further _ refers there ih =>
    obtain ⟨object, field, value, hget, hfield, hname, hvalue⟩ := refers
    obtain ⟨grown, hgrown, hfields⟩ := h _ object hget
    exact ih.further ⟨grown, field, value, hgrown, hfields field value hfield, hname, hvalue⟩ (hthere there)

/-! ## Under one root -/

/-- The root leads to every object. -/
def Rooted (config : Config) (root : String) : Prop := ∀ name, config.contains name → config.Reaches root name

/-- **A copy of what the root reaches is the whole configuration.** -/
theorem Rooted.extract_eq (h : config.Rooted root) : config.extract [root] = config := by
  apply SortedMap.ext_get?
  intro name
  rw [get?_extract]
  by_cases hname : config.contains name
  · rw [if_pos (mem_reach_singleton_iff.2 (h name hname))]
  · rw [SortedMap.get?_eq_none_iff.2 hname, ite_self]

theorem rooted_single (name : String) (object : Object) : Rooted (single name object) name := by
  intro other hother
  rw [contains_single.1 hother]
  exact .here (contains_single.2 rfl)

theorem rooted_extract (config : Config) (root : String) : Rooted (config.extract [root]) root := by
  intro name hname
  have hreach := contains_extract_singleton.1 hname
  clear hname
  -- nothing on the way leads out of the copy
  induction hreach with
  | here there => exact .here (contains_extract_singleton.2 (.here there))
  | @further middle last reached refers there ih =>
    have hlast : config.Reaches root last := reached.further refers there
    obtain ⟨object, field, value, hget, hfield⟩ := refers
    have hmiddle : (config.extract [root]).get? middle = some object := by
      rw [get?_extract, if_pos (mem_reach_singleton_iff.2 reached), hget]
    exact ih.further ⟨object, field, value, hmiddle, hfield⟩ (contains_extract_singleton.2 hlast)

/-- A field that is new is one more. -/
theorem grows_insert (hget : config.get? root = some object)
    (hgrows : ∀ field value, object.get? field = some value → new.get? field = some value) :
    Grows config (SortedMap.insert config root new) := by
  intro name found hfound
  by_cases hname : name = root
  · subst hname
    rw [hget] at hfound
    cases hfound
    exact ⟨new, by rw [SortedMap.get?_insert, if_pos rfl], hgrows⟩
  · exact ⟨found, by rw [SortedMap.get?_insert, if_neg hname, hfound], fun _ _ hfield => hfield⟩

theorem get?_insert_of_new {field : String} {value : Value} (hfree : object.get? field = none) :
    ∀ other stored, object.get? other = some stored →
      (OrderedMap.insert object field value).get? other = some stored := by
  intro other stored hother
  have hne : other ≠ field := by
    rintro rfl
    rw [hfree] at hother
    cases hother
  rw [OrderedMap.get?_insert, if_neg hne, hother]

/-- **A value written into a new field of the root** leaves the configuration under its root. -/
theorem Rooted.value (h : config.Rooted root) (hget : config.get? root = some object) {field : String}
    (hfree : object.get? field = none) (value : Value) :
    Rooted (SortedMap.insert config root (OrderedMap.insert object field value)) root := by
  intro name hname
  have hthere : config.contains name := by
    rcases contains_insert.1 hname with rfl | hname
    · exact SortedMap.contains_iff.2 ⟨object, hget⟩
    · exact hname
  exact (grows_insert hget (get?_insert_of_new hfree)).reaches (h name hthere)

/-- **A reference written into a new field of the root**, with what its target leads to brought along, leaves
    the configuration under its root. -/
theorem Rooted.ref (h : a.Rooted root) (hget : a.get? root = some object) (hb : b.Rooted target)
    (hapart : Apart a b) (htarget : b.contains target) {field : String} (hfree : object.get? field = none)
    (hfield : field ≠ typeField) :
    Rooted (SortedMap.insert (SortedMap.union a b) root
      (OrderedMap.insert object field (.text target))) root := by
  have hunion : SortedMap.get? (SortedMap.union a b) root = some object := within_union_left hapart root object hget
  have hnotb : ¬ b.contains root := hapart root (SortedMap.contains_iff.2 ⟨object, hget⟩)
  have hgrows : Grows (SortedMap.union a b) (SortedMap.insert (SortedMap.union a b) root
      (OrderedMap.insert object field (.text target))) :=
    grows_insert hunion (get?_insert_of_new hfree)
  have hkeeps : Grows a (SortedMap.insert (SortedMap.union a b) root
      (OrderedMap.insert object field (.text target))) := by
    intro name found hfound
    exact hgrows name found (within_union_left hapart name found hfound)
  have hbrings : Grows b (SortedMap.insert (SortedMap.union a b) root
      (OrderedMap.insert object field (.text target))) := by
    intro name found hfound
    exact hgrows name found (within_union_right a b name found hfound)
  -- the root reaches the target through the new field, and from there all that was brought along
  have hreachRoot := hkeeps.reaches (h root (SortedMap.contains_iff.2 ⟨object, hget⟩))
  have hreachTarget := hbrings.reaches (hb target htarget)
  have hrefers : Refers (SortedMap.insert (SortedMap.union a b) root
      (OrderedMap.insert object field (.text target))) root target := by
    refine ⟨OrderedMap.insert object field (.text target), field, .text target, ?_, ?_, hfield, Or.inl rfl⟩
    · rw [SortedMap.get?_insert, if_pos rfl]
    · rw [OrderedMap.get?_insert, if_pos rfl]
  intro name hname
  rcases contains_insert.1 hname with rfl | hname
  · exact hreachRoot
  rcases contains_union.1 hname with hname | hname
  · exact hkeeps.reaches (h name hname)
  · exact (hreachRoot.further hrefers hreachTarget.contains).trans (hbrings.reaches (hb name hname))

/-! ## One root object -/

theorem insert_insert (config : Config) (name : String) (object new : Object) :
    SortedMap.insert (SortedMap.insert config name object) name new = SortedMap.insert config name new := by
  apply SortedMap.ext_get?
  intro other
  simp only [SortedMap.get?_insert]
  split <;> rfl

/-- What is brought along is added beside the root object. -/
theorem insert_union_insert (a b : Config) (name : String) (object new : Object) :
    SortedMap.insert (SortedMap.union (SortedMap.insert a name object) b) name new
      = SortedMap.insert (SortedMap.union a b) name new := by
  apply SortedMap.ext_get?
  intro other
  simp only [SortedMap.get?_insert, SortedMap.get?_union]
  split <;> rfl

end GraphWire.Config
