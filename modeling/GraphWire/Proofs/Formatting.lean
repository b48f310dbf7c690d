import GraphWire.Proofs.Grammar

/-!
# `Proofs.Formatting` — when two texts have the same canonical form

The canonical text is read as the configuration with its fields sorted, so it tells configurations apart as far
as their fields do: two have the same text exactly if all their fields have the same values. Of the statements
of a text only the last one about each field is left in that, and neither the order of the others nor anything
about their spelling.

## Contents
- **What sorting forgets.** `Config.sortedObject_eq_iff` and `Config.sorted_eq_iff`: the order of the fields, and
  nothing else.
- **`Config.write_eq_iff`**.
- **`Reordered`**, statements in another order; `Reordered.iff_aboutField`, which orders these are, and
  `Reordered.lastValue?_eq`.
- **`Config.same_text_iff`**.
-/

namespace GraphWire

namespace Config

/-! ## What sorting forgets -/

/-- No name is repeated, so sorted fields increase. -/
theorem increasing_sortedFields (object : Object) : Entry.Increasing (sortedFields object) := by
  have hdistinct : (sortedFields object).Pairwise fun a b => a.1 ≠ b.1 :=
    List.pairwise_map.1 (nodup_sortedFields object)
  refine ((pairwise_sortedFields object).and hdistinct).imp ?_
  rintro a b ⟨hle, hne⟩
  exact Entry.lt_of_not_lt hne (of_decide_eq_true hle)

/-- Two objects are the same with their fields sorted if their fields have the same values. -/
theorem sortedObject_eq_iff {a b : Object} :
    sortedObject a = sortedObject b ↔ ∀ field, a.get? field = b.get? field := by
  constructor
  · intro h field
    rw [← get?_sortedObject a, ← get?_sortedObject b, h]
  · intro h
    apply OrderedMap.ext
    apply Entry.eq_of_find?_eq (increasing_sortedFields a) (increasing_sortedFields b)
    intro field
    exact (get?_sortedObject a field).trans ((h field).trans (get?_sortedObject b field).symm)

/-- An object that can be written has a field. -/
theorem Writable.exists_raw? {config : Config} (h : config.Writable) {name : String} {object : Object}
    (hget : config.get? name = some object) : ∃ field value, config.raw? name field = some value := by
  obtain ⟨⟨field, value⟩, hmem⟩ := List.exists_mem_of_ne_nil _ (h.ne_nil hget)
  refine ⟨field, value, ?_⟩
  rw [raw?, hget]
  exact OrderedMap.mem_entries_iff.1 hmem

/-- An object that only one of two configurations has shows in its fields. -/
theorem get?_eq_none_of_raw?_eq {a b : Config} (hb : b.Writable)
    (h : ∀ name field, a.raw? name field = b.raw? name field) {name : String} (hnone : a.get? name = none) :
    b.get? name = none := by
  cases hget : b.get? name with
  | none => rfl
  | some object =>
    obtain ⟨field, value, hraw⟩ := hb.exists_raw? hget
    rw [← h, raw?, hnone] at hraw
    cases hraw

/-- **Sorting the fields forgets their order and nothing else.** -/
theorem sorted_eq_iff {a b : Config} (ha : a.Writable) (hb : b.Writable) :
    a.sorted = b.sorted ↔ ∀ name field, a.raw? name field = b.raw? name field := by
  constructor
  · intro h name field
    rw [← raw?_sorted a, ← raw?_sorted b, h]
  · intro h
    apply SortedMap.ext_get?
    intro name
    rw [get?_sorted, get?_sorted]
    cases hget : a.get? name with
    | none => rw [get?_eq_none_of_raw?_eq hb h hget]
    | some object =>
      cases hget' : b.get? name with
      | none =>
        rw [get?_eq_none_of_raw?_eq ha (fun name field => (h name field).symm) hget'] at hget
        cases hget
      | some other =>
        rw [Option.map_some, Option.map_some, sortedObject_eq_iff.2]
        intro field
        have hfield := h name field
        rwa [raw?, raw?, hget, hget'] at hfield

/-- **Configurations have the same canonical text exactly if they are the same with their fields sorted**: each
    is read from its text, and the text is that of the sorted one. -/
theorem write_eq_iff {a b : Config} (ha : a.Writable) (hb : b.Writable) (hane : a.entries ≠ [])
    (hbne : b.entries ≠ []) : a.write = b.write ↔ a.sorted = b.sorted := by
  constructor
  · intro h
    obtain ⟨text, hwrite, hparse⟩ := parse_write ha hane
    obtain ⟨text', hwrite', hparse'⟩ := parse_write hb hbne
    have htext : text = text' := Except.ok.inj (hwrite.symm.trans (h.trans hwrite'))
    rw [htext] at hparse
    exact Except.ok.inj (hparse.symm.trans hparse')
  · intro h
    rw [write, write, ← canonical_sorted a, ← canonical_sorted b, h]

end Config

/-! ## Statements in another order -/

/-- The statements in another order, which swaps no two about one field. -/
inductive Reordered : List Statement → List Statement → Prop where
  | nil : Reordered [] []
  | cons (s : Statement) {stmts others : List Statement} (rest : Reordered stmts others) :
      Reordered (s :: stmts) (s :: others)
  | swap (s t : Statement) (stmts : List Statement)
      (apart : ¬ (s.object = t.object ∧ s.field = t.field)) :
      Reordered (s :: t :: stmts) (t :: s :: stmts)
  | trans {stmts middle others : List Statement} (first : Reordered stmts middle)
      (second : Reordered middle others) : Reordered stmts others

/-- The statements about one field, in order. -/
def aboutField (stmts : List Statement) (object field : String) : List Statement :=
  stmts.filter fun s => s.object = object ∧ s.field = field

theorem aboutField_cons (s : Statement) (stmts : List Statement) (object field : String) :
    aboutField (s :: stmts) object field =
      if s.object = object ∧ s.field = field then s :: aboutField stmts object field
      else aboutField stmts object field := by
  simp [aboutField, List.filter_cons]

theorem aboutField_append (stmts others : List Statement) (object field : String) :
    aboutField (stmts ++ others) object field = aboutField stmts object field ++ aboutField others object field :=
  List.filter_append _ _

namespace Reordered

variable {stmts others : List Statement}

theorem refl (stmts : List Statement) : Reordered stmts stmts := by
  induction stmts with
  | nil => exact .nil
  | cons s stmts ih => exact .cons s ih

/-- **In another order the statements about each field stand in the same order.** -/
theorem aboutField_eq (h : Reordered stmts others) (object field : String) :
    aboutField stmts object field = aboutField others object field := by
  induction h with
  | nil => rfl
  | cons s _ ih => rw [aboutField_cons, aboutField_cons, ih]
  | swap s t stmts apart =>
    simp only [aboutField_cons]
    by_cases hs : s.object = object ∧ s.field = field
    · -- then the other statement is about another field
      have ht : ¬ (t.object = object ∧ t.field = field) := by
        rintro ⟨hobject, hfield⟩
        exact apart ⟨hs.1.trans hobject.symm, hs.2.trans hfield.symm⟩
      rw [if_neg ht, if_neg ht]
    · rw [if_neg hs, if_neg hs]
  | trans _ _ ih ih' => exact ih.trans ih'

/-- A statement can come to the front of statements about other fields. -/
theorem front {before : List Statement} {s : Statement}
    (h : ∀ t ∈ before, ¬ (t.object = s.object ∧ t.field = s.field)) (stmts : List Statement) :
    Reordered (before ++ s :: stmts) (s :: (before ++ stmts)) := by
  induction before with
  | nil => exact refl _
  | cons t before ih =>
    obtain ⟨ht, hbefore⟩ := List.forall_mem_cons.1 h
    exact (Reordered.cons t (ih hbefore)).trans (.swap t s _ ht)

/-- Swaps lead to every order that keeps the order of the statements about each field. -/
theorem of_aboutField_eq (h : ∀ object field, aboutField stmts object field = aboutField others object field) :
    Reordered stmts others := by
  induction others generalizing stmts with
  | nil =>
    cases stmts with
    | nil => exact .nil
    | cons s stmts =>
      have hs := h s.object s.field
      rw [aboutField_cons, if_pos ⟨rfl, rfl⟩] at hs
      cases hs
  | cons t others ih =>
    -- the first of the others is the first about its field among these
    have ht := h t.object t.field
    rw [aboutField_cons, if_pos ⟨rfl, rfl⟩] at ht
    obtain ⟨before, after, rfl, hbefore, -, hafter⟩ := List.filter_eq_cons_iff.1 ht
    have hother : ∀ s ∈ before, ¬ (s.object = t.object ∧ s.field = t.field) :=
      fun s hs => of_decide_eq_false (Bool.eq_false_iff.2 (hbefore s hs))
    refine (front hother after).trans (.cons t (ih fun object field => ?_))
    have hfield := h object field
    rw [aboutField_append, aboutField_cons, aboutField_cons] at hfield
    rw [aboutField_append]
    by_cases hsame : t.object = object ∧ t.field = field
    · obtain ⟨rfl, rfl⟩ := hsame
      have hnone : aboutField before t.object t.field = [] :=
        List.filter_eq_nil_iff.2 hbefore
      rw [hnone, List.nil_append]
      exact hafter
    · rwa [if_neg hsame, if_neg hsame] at hfield

/-- **Statements are the same in another order exactly if those about each field are the same in the same
    order.** -/
theorem iff_aboutField :
    Reordered stmts others ↔
      ∀ object field, aboutField stmts object field = aboutField others object field :=
  ⟨aboutField_eq, of_aboutField_eq⟩

/-- So the last values are the same. -/
theorem lastValue?_eq (h : Reordered stmts others) (object field : String) :
    lastValue? stmts object field = lastValue? others object field := by
  rw [lastValue?, lastValue?, ← List.head?_filter, ← List.head?_filter, List.filter_reverse, List.filter_reverse]
  have hfield := h.aboutField_eq object field
  rw [aboutField, aboutField] at hfield
  rw [hfield]

end Reordered

namespace Config

theorem exists_parse {text : String} {stmts : List Statement} (h : statements text = .ok stmts) :
    ∃ config, parse text = .ok config := by
  rw [parse, h]
  exact ⟨_, rfl⟩

/-- The fields of what is read are those of its statements. -/
theorem raw?_of_parse {text : String} {config : Config} {stmts : List Statement}
    (h : parse text = .ok config) (hstmts : statements text = .ok stmts) (name field : String) :
    config.raw? name field = lastValue? stmts name field := by
  rw [parse, hstmts] at h
  cases h
  exact (outcome_ofStatements stmts).value name field

/-- **Two texts have the same canonical form exactly if they describe the same fields with the same values.**
    Both can be written whenever they are read; what is written is the same if and only if there are the same
    objects with the same values in the same fields, whatever else is different in the texts. So statements can be
    reordered as long as no two about one field are swapped. -/
theorem same_text_iff {text other : String} {config config' : Config} (h : parse text = .ok config)
    (h' : parse other = .ok config') :
    ∃ written written', config.write = .ok written ∧ config'.write = .ok written' ∧
      (written = written' ↔ config.keys = config'.keys ∧
        ∀ name field, config.raw? name field = config'.raw? name field) ∧
      ∀ stmts stmts', statements text = .ok stmts → statements other = .ok stmts' →
        Reordered stmts stmts' → written = written' := by
  obtain ⟨hwritable, hne⟩ := writable_of_parse h
  obtain ⟨hwritable', hne'⟩ := writable_of_parse h'
  obtain ⟨written, hwrite, -⟩ := parse_write hwritable hne
  obtain ⟨written', hwrite', -⟩ := parse_write hwritable' hne'
  have hiff : written = written' ↔ config.sorted = config'.sorted := by
    rw [← write_eq_iff hwritable hwritable' hne hne', hwrite, hwrite', Except.ok.injEq]
  refine ⟨written, written', hwrite, hwrite', ?_, ?_⟩
  · rw [hiff]
    constructor
    · intro hsorted
      refine ⟨?_, (sorted_eq_iff hwritable hwritable').1 hsorted⟩
      rw [← keys_sorted config, ← keys_sorted config', hsorted]
    · rintro ⟨-, hraw⟩
      exact (sorted_eq_iff hwritable hwritable').2 hraw
  · intro stmts stmts' hstmts hstmts' hreordered
    rw [hiff, sorted_eq_iff hwritable hwritable']
    intro name field
    rw [raw?_of_parse h hstmts, raw?_of_parse h' hstmts', hreordered.lastValue?_eq]

/-- Other spellings, a comment, and one statement moved in front of another one have no effect. -/
theorem same_text_respelled :
    ∃ config config' written,
      parse "a.x <- 1e1; b.y <- 'c'; # soon\na.x <- -0;" = .ok config ∧
      parse "b.y<-'c';a.x<-10.0;a.x<- -0.0;" = .ok config' ∧
      config.write = .ok written ∧ config'.write = .ok written := by
  have hstmts : statements "a.x <- 1e1; b.y <- 'c'; # soon\na.x <- -0;" = .ok
      [⟨"a", "x", .number (.ofInt 10)⟩, ⟨"b", "y", .text "c"⟩,
        ⟨"a", "x", .number (.finite true ⟨0, by decide⟩)⟩] := eq_ok_of_toOption (by decide +kernel)
  have hstmts' : statements "b.y<-'c';a.x<-10.0;a.x<- -0.0;" = .ok
      [⟨"b", "y", .text "c"⟩, ⟨"a", "x", .number (.ofInt 10)⟩,
        ⟨"a", "x", .number (.finite true ⟨0, by decide⟩)⟩] := eq_ok_of_toOption (by decide +kernel)
  obtain ⟨config, hparse⟩ := exists_parse hstmts
  obtain ⟨config', hparse'⟩ := exists_parse hstmts'
  obtain ⟨written, written', hwrite, hwrite', -, hreordered⟩ := same_text_iff hparse hparse'
  have hsame : written = written' := hreordered _ _ hstmts hstmts' (.swap _ _ _ (by decide))
  exact ⟨config, config', written, hparse, hparse', hwrite, hsame ▸ hwrite'⟩

end Config

end GraphWire
