import GraphWire.Config.Reference
import GraphWire.Proofs.Maps
import GraphWire.Proofs.Statements

/-!
# `Proofs.Canonical` — the canonical text of a configuration

What an object holds depends only on the statements about it, in their order. A listing names each
object once with fields of different names, so the statements of a listing give it back; the canonical
order is such a listing, of the same objects with their fields sorted, and sorted fields stay as they
are when they are sorted again.

## Contents
- **What statements result in.** `Config.get?_ofStatements`, and `Config.get?_ofStatements_listed` for the
  statements of a listing.
- **`Config.Writable`**; `Config.writable_of_parse`: what is read could be written.
- **Sorted fields.** `Config.sorted`, the configuration that the canonical text describes.
- **`Config.write_canonical`**, the fixed point.
-/

namespace GraphWire

namespace Config

/-! ## What statements result in -/

/-- The fields of an object that statements write, in their order. -/
def fieldsOf (name : String) (stmts : List Statement) : List (String × Value) :=
  (stmts.filter fun s => s.object = name).map fun s => (s.field, s.value)

theorem fieldsOf_cons (name : String) (s : Statement) (stmts : List Statement) :
    fieldsOf name (s :: stmts) =
      if s.object = name then (s.field, s.value) :: fieldsOf name stmts else fieldsOf name stmts := by
  rw [fieldsOf, List.filter_cons]
  by_cases h : s.object = name
  · rw [if_pos (decide_eq_true h), if_pos h]
    rfl
  · rw [if_neg (by simpa using h), if_neg h]
    rfl

theorem fieldsOf_append (name : String) (a b : List Statement) :
    fieldsOf name (a ++ b) = fieldsOf name a ++ fieldsOf name b := by
  rw [fieldsOf, List.filter_append, List.map_append]
  rfl

theorem mem_fieldsOf_iff {name field : String} {value : Value} {stmts : List Statement} :
    (field, value) ∈ fieldsOf name stmts ↔ ⟨name, field, value⟩ ∈ stmts := by
  simp only [fieldsOf, List.mem_map, List.mem_filter, decide_eq_true_eq, Prod.mk.injEq]
  constructor
  · rintro ⟨s, ⟨hs, rfl⟩, rfl, rfl⟩
    exact hs
  · intro h
    exact ⟨_, ⟨h, rfl⟩, rfl, rfl⟩

theorem get?_foldl_assign (config : Config) (stmts : List Statement) (name : String) :
    (stmts.foldl (fun config s => config.assign s.object s.field s.value) config).get? name =
      if fieldsOf name stmts = [] then config.get? name
      else some ((fieldsOf name stmts).foldl (fun m e => m.insert e.1 e.2)
        ((config.get? name).getD ∅)) := by
  induction stmts generalizing config with
  | nil => rfl
  | cons s stmts ih =>
    rw [List.foldl_cons, ih, fieldsOf_cons, assign, SortedMap.get?_insert]
    by_cases h : s.object = name
    · subst h
      rw [if_pos rfl, if_pos rfl, if_neg (List.cons_ne_nil _ _), List.foldl_cons, Option.getD_some]
      by_cases hnil : fieldsOf s.object stmts = []
      · rw [if_pos hnil, hnil]
        rfl
      · rw [if_neg hnil]
    · rw [if_neg h, if_neg (Ne.symm h)]

/-- **An object is what the statements about it write into it in turn**, and there is none without
    such statements. -/
theorem get?_ofStatements (stmts : List Statement) (name : String) :
    (ofStatements stmts).get? name =
      if fieldsOf name stmts = [] then none else some (OrderedMap.ofList (fieldsOf name stmts)) := by
  rw [ofStatements, get?_foldl_assign]
  rfl

/-! ### Listings -/

/-- The statements that write the fields of each object in turn. -/
def listed (listing : List (String × List (String × Value))) : List Statement :=
  listing.flatMap fun (name, fields) => fields.map fun (field, value) => ⟨name, field, value⟩

theorem fieldsOf_fields (name object : String) (fields : List (String × Value)) :
    fieldsOf name (fields.map fun (field, value) => ⟨object, field, value⟩)
      = if object = name then fields else [] := by
  induction fields with
  | nil => exact (ite_self _).symm
  | cons e fields ih =>
    rw [List.map_cons, fieldsOf_cons, ih]
    by_cases h : object = name
    · simp [h]
    · simp [h]

theorem fieldsOf_listed {listing : List (String × List (String × Value))}
    (h : (Entry.keys listing).Nodup) (name : String) :
    fieldsOf name (listed listing) = (Entry.find? name listing).getD [] := by
  induction listing with
  | nil => rfl
  | cons e rest ih =>
    obtain ⟨hnot, hrest⟩ := List.nodup_cons.1 h
    have hsplit : listed (e :: rest) =
        (e.2.map fun (field, value) => ⟨e.1, field, value⟩) ++ listed rest := rfl
    rw [hsplit, fieldsOf_append, fieldsOf_fields, ih hrest, Entry.find?]
    by_cases he : e.1 = name
    · subst he
      rw [if_pos rfl, if_pos rfl, Entry.find?_eq_none_iff.2 hnot, Option.getD_none,
        List.append_nil, Option.getD_some]
    · rw [if_neg he, if_neg he, List.nil_append]

/-- **The statements of a listing give it back**, if it names each object once, and no object without
    fields. -/
theorem get?_ofStatements_listed {listing : List (String × List (String × Value))}
    (h : (Entry.keys listing).Nodup) (hne : ∀ e ∈ listing, e.2 ≠ []) (name : String) :
    (ofStatements (listed listing)).get? name
      = (Entry.find? name listing).map OrderedMap.ofList := by
  rw [get?_ofStatements, fieldsOf_listed h]
  cases hfind : Entry.find? name listing with
  | none => rfl
  | some fields =>
    have hfields : fields ≠ [] := hne _ (Entry.mem_of_find? hfind)
    rw [Option.getD_some, if_neg hfields, Option.map_some]

/-! ## Configurations that can be written -/

/-- Whether the configuration has a written form that is read back, but for the order of fields. -/
structure Writable (config : Config) : Prop where
  name : ∀ {name object}, config.get? name = some object → isName name = true
  ne_nil : ∀ {name object}, config.get? name = some object → object.entries ≠ []
  field : ∀ {name object field value}, config.get? name = some object →
    (field, value) ∈ object.entries → isName field = true ∧ value.Writable

/-- An object that statements result in comes from statements about it. -/
theorem exists_statement {stmts : List Statement} {name : String} {object : Object}
    (h : (ofStatements stmts).get? name = some object) :
    fieldsOf name stmts ≠ [] ∧ object = OrderedMap.ofList (fieldsOf name stmts) := by
  rw [get?_ofStatements] at h
  by_cases hnil : fieldsOf name stmts = []
  · rw [if_pos hnil] at h
    cases h
  · rw [if_neg hnil] at h
    exact ⟨hnil, (Option.some.inj h).symm⟩

/-- **Writable statements result in a writable configuration.** -/
theorem writable_ofStatements {stmts : List Statement} (h : ∀ s ∈ stmts, s.Writable) :
    (ofStatements stmts).Writable := by
  refine ⟨?_, ?_, ?_⟩
  · intro name object hget
    obtain ⟨hne, -⟩ := exists_statement hget
    obtain ⟨⟨field, value⟩, hmem⟩ := List.exists_mem_of_ne_nil _ hne
    exact (h _ (mem_fieldsOf_iff.1 hmem)).object
  · intro name object hget hnil
    obtain ⟨hne, rfl⟩ := exists_statement hget
    obtain ⟨⟨field, value⟩, hmem⟩ := List.exists_mem_of_ne_nil _ hne
    have hkey : field ∈ (OrderedMap.ofList (fieldsOf name stmts)).keys :=
      OrderedMap.mem_keys_ofList.2 (List.mem_map_of_mem hmem)
    rw [OrderedMap.keys, hnil] at hkey
    cases hkey
  · intro name object field value hget hmem
    obtain ⟨-, rfl⟩ := exists_statement hget
    have hs := h _ (mem_fieldsOf_iff.1 (OrderedMap.mem_of_mem_ofList hmem))
    exact ⟨hs.field, hs.value⟩

/-- **What is read could be written**, and holds an object. -/
theorem writable_of_parse {text : String} {config : Config} (h : parse text = .ok config) :
    config.Writable ∧ config.entries ≠ [] := by
  unfold parse at h
  split at h
  · next stmts hstmts =>
    cases h
    refine ⟨writable_ofStatements (writable_of_statements hstmts), ?_⟩
    intro hnil
    obtain ⟨hne, -⟩ := statements_iff.1 hstmts
    obtain ⟨s, hs⟩ := List.exists_mem_of_ne_nil _ hne
    have hfields : fieldsOf s.object stmts ≠ [] := by
      have hmem : (s.field, s.value) ∈ fieldsOf s.object stmts := mem_fieldsOf_iff.2 hs
      exact List.ne_nil_of_mem hmem
    have hget := get?_ofStatements stmts s.object
    rw [if_neg hfields, SortedMap.get?, hnil] at hget
    cases hget
  · cases h

/-! ## Sorted fields -/

theorem sortedFields_perm (object : Object) : (sortedFields object).Perm object.entries :=
  List.mergeSort_perm _ _

theorem nodup_sortedFields (object : Object) : (Entry.keys (sortedFields object)).Nodup :=
  ((sortedFields_perm object).map Prod.fst).nodup_iff.2 object.nodup

/-- The object with its fields in the order of their names. -/
def sortedObject (object : Object) : Object := ⟨sortedFields object, nodup_sortedFields object⟩

theorem mem_sortedObject_iff {object : Object} {e : String × Value} :
    e ∈ (sortedObject object).entries ↔ e ∈ object.entries := (sortedFields_perm object).mem_iff

/-- The order of the fields does not matter for what they hold. -/
theorem get?_sortedObject (object : Object) (field : String) :
    (sortedObject object).get? field = object.get? field := by
  apply Option.ext
  intro value
  rw [← OrderedMap.mem_entries_iff, ← OrderedMap.mem_entries_iff, mem_sortedObject_iff]

theorem pairwise_sortedFields (object : Object) :
    (sortedFields object).Pairwise fun a b => decide (a.1 ≤ b.1) = true := by
  apply List.pairwise_mergeSort
  · intro a b c hab hbc
    exact decide_eq_true (String.le_trans (of_decide_eq_true hab) (of_decide_eq_true hbc))
  · intro a b
    rw [Bool.or_eq_true, decide_eq_true_eq, decide_eq_true_eq]
    exact String.le_total a.1 b.1

/-- Sorted fields stay as they are. -/
theorem sortedFields_sortedObject (object : Object) :
    sortedFields (sortedObject object) = sortedFields object :=
  List.mergeSort_of_pairwise (pairwise_sortedFields object)

/-- The configuration with the fields of all objects in the order of their names. -/
def sorted (config : Config) : Config where
  entries := config.entries.map fun e => (e.1, sortedObject e.2)
  increasing := by
    have hincreasing := config.increasing
    rw [Entry.Increasing, List.pairwise_map]
    exact hincreasing

theorem get?_sorted (config : Config) (name : String) :
    config.sorted.get? name = (config.get? name).map sortedObject :=
  Entry.find?_map sortedObject name config.entries

theorem keys_sorted (config : Config) : config.sorted.keys = config.keys := by
  rw [SortedMap.keys, sorted, List.map_map]
  rfl

/-- Sorting the fields changes nothing about what they hold. -/
theorem raw?_sorted (config : Config) (name field : String) :
    Config.raw? config.sorted name field = Config.raw? config name field := by
  rw [raw?, raw?, get?_sorted]
  cases config.get? name with
  | none => rfl
  | some object => exact get?_sortedObject object field

/-- Sorting the fields does not change the canonical order. -/
theorem canonical_sorted (config : Config) : config.sorted.canonical = config.canonical := by
  rw [canonical, canonical, sorted, List.flatMap_map]
  simp only [sortedFields_sortedObject]

end Config

/-! ### Equality as maps -/

theorem Number.equal_self {n : Number} (h : n.isFinite = true) : n.equal n = true := by
  cases n with
  | nan => cases h
  | infinite negative => cases h
  | finite negative rank => simp [Number.equal]

/-- What can be written equals itself; only `nan` does not. -/
theorem Value.Writable.same_self {v : Value} (h : v.Writable) : v.same v = true := by
  cases v with
  | text s => exact beq_self_eq_true s
  | number n => exact Number.equal_self h
  | texts items => exact beq_self_eq_true items
  | numbers items =>
    have hzip : items.zip items = items.map fun n => (n, n) := by
      have hmap := @List.zip_map' _ _ _ id id items
      rwa [List.map_id] at hmap
    have hall : (items.zip items).all (fun p => p.1.equal p.2) = true := by
      rw [hzip, List.all_map, List.all_eq_true]
      exact fun n hn => Number.equal_self (h.2 n hn)
    simp only [Value.same, beq_self_eq_true, Bool.true_and]
    exact hall

namespace Config

/-- Sorting the fields leaves a configuration equal, as its objects are maps. -/
theorem same_sorted {config : Config} (h : config.Writable) :
    config.sorted.same config = true := by
  have hzip : config.sorted.entries.zip config.entries
      = config.entries.map fun e => ((e.1, sortedObject e.2), e) := by
    have hmap := @List.zip_map' _ _ _ (fun e => (e.1, sortedObject e.2)) id config.entries
    rwa [List.map_id] at hmap
  rw [same, keys_sorted, beq_self_eq_true, Bool.true_and, hzip, List.all_map, List.all_eq_true]
  rintro ⟨name, object⟩ hmem
  have hget := SortedMap.mem_entries_iff.1 hmem
  show OrderedMap.agrees Value.same (sortedObject object) object = true
  have hsize : (sortedObject object).size = object.size := (sortedFields_perm object).length_eq
  rw [OrderedMap.agrees, hsize, beq_self_eq_true, Bool.true_and, List.all_eq_true]
  rintro ⟨field, value⟩ hfield
  have hstored : object.get? field = some value :=
    OrderedMap.mem_entries_iff.1 (mem_sortedObject_iff.1 hfield)
  have hwritable := (h.field hget (mem_sortedObject_iff.1 hfield)).2
  simp only [hstored]
  exact hwritable.same_self

/-! ## The fixed point -/

theorem canonical_eq_listed (config : Config) :
    config.canonical = listed (config.entries.map fun e => (e.1, sortedFields e.2)) := by
  rw [listed, List.flatMap_map]
  rfl

/-- The canonical assignments are those of the configuration, one for each field. -/
theorem mem_canonical_iff {config : Config} {s : Statement} :
    s ∈ config.canonical ↔
      ∃ object, config.get? s.object = some object ∧ (s.field, s.value) ∈ object.entries := by
  obtain ⟨name, field, value⟩ := s
  simp only [canonical, List.mem_flatMap, List.mem_map, Prod.exists, Statement.mk.injEq]
  constructor
  · rintro ⟨_, object, hmem, _, _, hfield, rfl, rfl, rfl⟩
    exact ⟨object, SortedMap.mem_entries_iff.1 hmem, mem_sortedObject_iff.1 hfield⟩
  · rintro ⟨object, hget, hfield⟩
    exact ⟨name, object, SortedMap.mem_entries_iff.2 hget, field, value,
      mem_sortedObject_iff.2 hfield, rfl, rfl, rfl⟩

theorem writable_canonical {config : Config} (h : config.Writable) :
    ∀ s ∈ config.canonical, s.Writable := by
  intro s hs
  obtain ⟨object, hget, hfield⟩ := mem_canonical_iff.1 hs
  obtain ⟨hname, hvalue⟩ := h.field hget hfield
  exact ⟨h.name hget, hname, hvalue⟩

theorem canonical_ne_nil {config : Config} (h : config.Writable) (hne : config.entries ≠ []) :
    config.canonical ≠ [] := by
  obtain ⟨⟨name, object⟩, hmem⟩ := List.exists_mem_of_ne_nil _ hne
  have hget := SortedMap.mem_entries_iff.1 hmem
  obtain ⟨⟨field, value⟩, hfield⟩ := List.exists_mem_of_ne_nil _ (h.ne_nil hget)
  have hs : (⟨name, field, value⟩ : Statement) ∈ config.canonical :=
    mem_canonical_iff.2 ⟨object, hget, hfield⟩
  exact List.ne_nil_of_mem hs

/-- The canonical assignments give the configuration back with its fields sorted. -/
theorem ofStatements_canonical {config : Config} (h : config.Writable) :
    ofStatements config.canonical = config.sorted := by
  have hkeys : (Entry.keys (config.entries.map fun e => (e.1, sortedFields e.2))).Nodup := by
    rw [Entry.keys, List.map_map]
    exact config.nodup_keys
  have hne : ∀ e ∈ config.entries.map (fun e => (e.1, sortedFields e.2)), e.2 ≠ [] := by
    intro e he hnil
    obtain ⟨⟨name, object⟩, hmem, rfl⟩ := List.mem_map.1 he
    have hsorted : sortedFields object = [] := hnil
    have hempty : object.entries = [] := by
      have hperm := sortedFields_perm object
      rw [hsorted] at hperm
      exact List.nil_perm.1 hperm
    exact h.ne_nil (SortedMap.mem_entries_iff.1 hmem) hempty
  apply SortedMap.ext_get?
  intro name
  rw [canonical_eq_listed, get?_ofStatements_listed hkeys hne, Entry.find?_map, get?_sorted,
    Option.map_map]
  congr 1
  funext object
  exact OrderedMap.ext (OrderedMap.entries_ofList (nodup_sortedFields object))

/-- **The canonical text of a writable configuration is read as it**, with its fields sorted. -/
theorem parse_write {config : Config} (h : config.Writable) (hne : config.entries ≠ []) :
    ∃ text, config.write = .ok text ∧ parse text = .ok config.sorted := by
  have hwritable := writable_canonical h
  refine ⟨_, writeStatements_iff.2 ⟨fun s hs => (hwritable s hs).value.unquotable?, rfl⟩, ?_⟩
  rw [parse, statements_lines (canonical_ne_nil h hne) hwritable]
  show Except.ok (ofStatements config.canonical) = _
  rw [ofStatements_canonical h]

/-- **The canonical text is a fixed point.** What is read from any text can be written; what is
    written is read back as the same objects, with the same values in the same fields, and equal to
    what was read first; and writing that gives the same text again. -/
theorem write_canonical {text : String} {config : Config} (h : parse text = .ok config) :
    ∃ written config', config.write = .ok written ∧ parse written = .ok config' ∧
      config'.keys = config.keys ∧
      (∀ name field, config'.raw? name field = config.raw? name field) ∧
      config'.same config = true ∧ config'.write = .ok written := by
  obtain ⟨hwritable, hne⟩ := writable_of_parse h
  obtain ⟨written, hwrite, hparse⟩ := parse_write hwritable hne
  refine ⟨written, config.sorted, hwrite, hparse, keys_sorted config, raw?_sorted config,
    same_sorted hwritable, ?_⟩
  rw [write, canonical_sorted]
  exact hwrite

theorem eq_ok_of_toOption {ε α : Type} {x : Except ε α} {a : α} (h : x.toOption = some a) :
    x = .ok a := by
  cases x with
  | error e => cases h
  | ok b =>
    cases h
    rfl

/-- A text with a comment, an escaped quote, a negative zero and a field that is assigned twice is
    read, and so written canonically. -/
theorem write_canonical_reassigned :
    ∃ config, parse "b.y <- 'it\\'s'; # later\nb.x <- [1, -0]; b.y <- 'c';" = .ok config ∧
      ∃ written config', config.write = .ok written ∧ parse written = .ok config' ∧
        config'.keys = config.keys ∧
        (∀ name field, config'.raw? name field = config.raw? name field) ∧
        config'.same config = true ∧ config'.write = .ok written := by
  have hread : parse "b.y <- 'it\\'s'; # later\nb.x <- [1, -0]; b.y <- 'c';" = .ok (ofStatements
      [⟨"b", "y", .text "it's"⟩, ⟨"b", "x", .numbers [.one, .finite true ⟨0, by decide⟩]⟩,
        ⟨"b", "y", .text "c"⟩]) := eq_ok_of_toOption (by decide +kernel)
  exact ⟨_, hread, write_canonical hread⟩

end Config

end GraphWire
