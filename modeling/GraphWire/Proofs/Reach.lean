import GraphWire.Config.Reach
import GraphWire.Proofs.Maps

/-!
# `Proofs.Reach` — the search meets exactly what is reachable

An object refers to the names in its fields, the field `type` excepted, and reaches what it leads to by
references to objects that are there. The search keeps the names that it met and a stack of names to
look at. Two facts carry the proof that it is exact: whatever it has met or has still to look at is
reachable, and a reference of an object that was met is to a name that was met, that is on the stack,
or that no object has. When the stack is empty, what was met is therefore closed.

## Contents
- **`Config.Refers`** and **`Config.Reaches`**, with `refers_iff_mem_targets`.
- **The search.** `mem_reach_iff`, `nodup_reach`, and `reach_closed`.
- **Copies.** `get?_restrict` and `get?_extract`.
-/

namespace GraphWire.Config

/-! ## References -/

/-- The object `a` refers to the name `b`: a field other than `type` holds `b`, alone or in a list. -/
def Refers (config : Config) (a b : String) : Prop :=
  ∃ object field value, config.get? a = some object ∧ object.get? field = some value ∧
    field ≠ typeField ∧ (value = .text b ∨ ∃ names, value = .texts names ∧ b ∈ names)

/-- The object `a` leads to the object `b` by references, none included. -/
inductive Reaches (config : Config) (a : String) : String → Prop where
  | here (there : config.contains a) : Reaches config a a
  | further {b c : String} (reached : Reaches config a b) (refers : config.Refers b c)
      (there : config.contains c) : Reaches config a c

theorem Reaches.contains {config : Config} {a b : String} (h : config.Reaches a b) :
    config.contains b := by
  cases h with
  | here there => exact there
  | further _ _ there => exact there

theorem Reaches.start {config : Config} {a b : String} (h : config.Reaches a b) :
    config.contains a := by
  induction h with
  | here there => exact there
  | further _ _ _ ih => exact ih

theorem mem_fieldTargets_iff {field : String} {value : Value} {name : String} :
    name ∈ fieldTargets field value ↔ field ≠ typeField ∧
      (value = .text name ∨ ∃ names, value = .texts names ∧ name ∈ names) := by
  by_cases hf : field = typeField
  · simp [fieldTargets, hf]
  · cases value <;> simp [fieldTargets, hf, eq_comm]

/-- The search looks at exactly the names that an object refers to. -/
theorem refers_iff_mem_targets {config : Config} {a b : String} :
    config.Refers a b ↔ ∃ object, config.get? a = some object ∧ b ∈ targets object := by
  constructor
  · rintro ⟨object, field, value, ho, hv, hf, hb⟩
    refine ⟨object, ho, List.mem_flatMap.2 ⟨(field, value), ?_, mem_fieldTargets_iff.2 ⟨hf, hb⟩⟩⟩
    exact OrderedMap.mem_entries_iff.2 hv
  · rintro ⟨object, ho, hb⟩
    obtain ⟨⟨field, value⟩, hm, ht⟩ := List.mem_flatMap.1 hb
    obtain ⟨hf, hb⟩ := mem_fieldTargets_iff.1 ht
    exact ⟨object, field, value, ho, OrderedMap.mem_entries_iff.1 hm, hf, hb⟩

/-! ## The search -/

variable {config : Config}

/-- What the search does with the name on top of the stack. -/
theorem reachFrom_cons (met : List String) (name : String) (rest : List String) :
    config.reachFrom met (name :: rest) =
      match config.get? name with
      | none => config.reachFrom met rest
      | some object =>
        if name ∈ met then config.reachFrom met rest
        else config.reachFrom (name :: met) (targets object ++ rest) := by
  rw [reachFrom]
  split
  · next hget => rw [hget]
  · next hget => rw [hget]

theorem reachFrom_missing {met rest : List String} {name : String} (h : config.get? name = none) :
    config.reachFrom met (name :: rest) = config.reachFrom met rest := by
  rw [reachFrom_cons, h]

theorem reachFrom_met {met rest : List String} {name : String} (hmet : name ∈ met) :
    config.reachFrom met (name :: rest) = config.reachFrom met rest := by
  rw [reachFrom_cons]
  cases config.get? name with
  | none => rfl
  | some object => exact if_pos hmet

theorem reachFrom_new {met rest : List String} {name : String} {object : Object}
    (h : config.get? name = some object) (hmet : name ∉ met) :
    config.reachFrom met (name :: rest)
      = config.reachFrom (name :: met) (targets object ++ rest) := by
  rw [reachFrom_cons, h]
  exact if_neg hmet

/-- What was met stays met. -/
theorem mem_reachFrom_of_met {met stack : List String} {name : String} (h : name ∈ met) :
    name ∈ config.reachFrom met stack := by
  fun_induction reachFrom config met stack with
  | case1 met => exact List.mem_reverse.2 h
  | case2 met next rest _ ih => exact ih h
  | case3 met next rest object _ _ ih => exact ih h
  | case4 met next rest object _ _ ih => exact ih (List.mem_cons_of_mem _ h)

/-- An object on the stack is met. -/
theorem mem_reachFrom_of_stack {met stack : List String} {name : String} (h : name ∈ stack)
    (there : config.contains name) : name ∈ config.reachFrom met stack := by
  fun_induction reachFrom config met stack with
  | case1 met => exact absurd h List.not_mem_nil
  | case2 met next rest hnone ih =>
    rcases List.mem_cons.1 h with rfl | h
    · exact absurd there (SortedMap.get?_eq_none_iff.1 hnone)
    · exact ih h
  | case3 met next rest object _ hmet ih =>
    rcases List.mem_cons.1 h with rfl | h
    · exact mem_reachFrom_of_met hmet
    · exact ih h
  | case4 met next rest object _ _ ih =>
    rcases List.mem_cons.1 h with rfl | h
    · exact mem_reachFrom_of_met List.mem_cons_self
    · exact ih (List.mem_append_right _ h)

/-- What an object refers to is reachable from what reaches the object. -/
theorem Reaches.trans {a b c : String} (hab : config.Reaches a b) (hbc : config.Reaches b c) :
    config.Reaches a c := by
  induction hbc with
  | here _ => exact hab
  | further _ refers there ih => exact ih.further refers there

/-- From names that refer to no other objects nothing else is reached. -/
theorem Reaches.mem_of_closed {a b : String} {closed : List String} (h : config.Reaches a b)
    (hstart : a ∈ closed)
    (hclosed : ∀ name ∈ closed, ∀ target ∈ (config.get? name).elim [] targets,
      config.contains target → target ∈ closed) : b ∈ closed := by
  induction h with
  | here _ => exact hstart
  | further _ refers there ih =>
    obtain ⟨object, hget, htarget⟩ := refers_iff_mem_targets.1 refers
    exact hclosed _ ih _ (by rwa [hget]) there

/-- **Soundness of the search:** it meets only what the names on the stack reach. -/
theorem reaches_of_mem_reachFrom {met stack : List String} {name : String}
    (h : name ∈ config.reachFrom met stack) :
    name ∈ met ∨ ∃ root ∈ stack, config.Reaches root name := by
  fun_induction reachFrom config met stack with
  | case1 met => exact Or.inl (List.mem_reverse.1 h)
  | case2 met next rest _ ih =>
    rcases ih h with hm | ⟨root, hr, hreach⟩
    · exact Or.inl hm
    · exact Or.inr ⟨root, List.mem_cons_of_mem _ hr, hreach⟩
  | case3 met next rest object _ _ ih =>
    rcases ih h with hm | ⟨root, hr, hreach⟩
    · exact Or.inl hm
    · exact Or.inr ⟨root, List.mem_cons_of_mem _ hr, hreach⟩
  | case4 met next rest object ho _ ih =>
    have hnext : config.Reaches next next := .here (SortedMap.contains_iff.2 ⟨object, ho⟩)
    -- the object is met itself, or through what it refers to, or through the rest of the stack
    rcases ih h with hm | ⟨root, hr, hreach⟩
    · rcases List.mem_cons.1 hm with rfl | hm
      · exact Or.inr ⟨_, List.mem_cons_self, hnext⟩
      · exact Or.inl hm
    · rcases List.mem_append.1 hr with hr | hr
      · have hrefers : config.Refers next root := refers_iff_mem_targets.2 ⟨object, ho, hr⟩
        exact Or.inr ⟨next, List.mem_cons_self,
          (hnext.further hrefers hreach.start).trans hreach⟩
      · exact Or.inr ⟨root, List.mem_cons_of_mem _ hr, hreach⟩

/-- **The search ends closed.** If every reference of the objects met is to a name that was met, that is
    on the stack, or that no object has, then the result holds every object that one in it refers to. -/
theorem reachFrom_closed {met stack : List String}
    (inv : ∀ a ∈ met, ∀ b, config.Refers a b → config.contains b → b ∈ met ∨ b ∈ stack) :
    ∀ a ∈ config.reachFrom met stack, ∀ b, config.Refers a b → config.contains b →
      b ∈ config.reachFrom met stack := by
  fun_induction reachFrom config met stack with
  | case1 met =>
    intro a ha b hb there
    rcases inv a (List.mem_reverse.1 ha) b hb there with hm | hs
    · exact List.mem_reverse.2 hm
    · exact absurd hs List.not_mem_nil
  | case2 met next rest hnone ih =>
    -- a name without an object is no object that must be met
    apply ih
    intro a ha b hb there
    rcases inv a ha b hb there with hm | hs
    · exact Or.inl hm
    · rcases List.mem_cons.1 hs with rfl | hs
      · exact absurd there (SortedMap.get?_eq_none_iff.1 hnone)
      · exact Or.inr hs
  | case3 met next rest object _ hmet ih =>
    apply ih
    intro a ha b hb there
    rcases inv a ha b hb there with hm | hs
    · exact Or.inl hm
    · rcases List.mem_cons.1 hs with rfl | hs
      · exact Or.inl hmet
      · exact Or.inr hs
  | case4 met next rest object ho _ ih =>
    apply ih
    intro a ha b hb there
    rcases List.mem_cons.1 ha with rfl | ha
    · -- the references of the object just met are what was pushed
      obtain ⟨object', ho', ht⟩ := refers_iff_mem_targets.1 hb
      cases ho.symm.trans ho'
      exact Or.inr (List.mem_append_left _ ht)
    · rcases inv a ha b hb there with hm | hs
      · exact Or.inl (List.mem_cons_of_mem _ hm)
      · rcases List.mem_cons.1 hs with rfl | hs
        · exact Or.inl List.mem_cons_self
        · exact Or.inr (List.mem_append_right _ hs)

theorem nodup_reachFrom {met stack : List String} (h : met.Nodup) :
    (config.reachFrom met stack).Nodup := by
  fun_induction reachFrom config met stack with
  | case1 met => exact List.pairwise_reverse.2 (h.imp Ne.symm)
  | case2 met next rest _ ih => exact ih h
  | case3 met next rest object _ _ ih => exact ih h
  | case4 met next rest object _ hmet ih => exact ih (List.nodup_cons.2 ⟨hmet, h⟩)

/-- Every object that one met refers to is met. -/
theorem reach_closed {roots : List String} {a b : String} (ha : a ∈ config.reach roots)
    (hb : config.Refers a b) (there : config.contains b) : b ∈ config.reach roots :=
  reachFrom_closed (fun _ ha => absurd ha List.not_mem_nil) a ha b hb there

/-- **The search meets exactly the objects that the roots reach.** -/
theorem mem_reach_iff {roots : List String} {name : String} :
    name ∈ config.reach roots ↔ ∃ root ∈ roots, config.Reaches root name := by
  constructor
  · intro h
    rcases reaches_of_mem_reachFrom h with hm | h
    · exact absurd hm List.not_mem_nil
    · exact h
  · rintro ⟨root, hr, hreach⟩
    induction hreach with
    | here there => exact mem_reachFrom_of_stack hr there
    | further _ refers there ih => exact reach_closed ih refers there

theorem mem_reach_singleton_iff {root name : String} :
    name ∈ config.reach [root] ↔ config.Reaches root name := by
  rw [mem_reach_iff]
  simp

/-- No object is met twice. -/
theorem nodup_reach (config : Config) (roots : List String) : (config.reach roots).Nodup :=
  nodup_reachFrom .nil

theorem contains_of_mem_reach {roots : List String} {name : String}
    (h : name ∈ config.reach roots) : config.contains name := by
  obtain ⟨_, _, hreach⟩ := mem_reach_iff.1 h
  exact hreach.contains

/-- The search in so many steps, if it ends within them. -/
def reachWithin (config : Config) : Nat → List String → List String → Option (List String)
  | 0, _, _ => none
  | _ + 1, met, [] => some met.reverse
  | n + 1, met, name :: rest =>
    match config.get? name with
    | none => config.reachWithin n met rest
    | some object =>
      if name ∈ met then config.reachWithin n met rest
      else config.reachWithin n (name :: met) (targets object ++ rest)

/-- A search that ends is the search. -/
theorem reachFrom_of_reachWithin {n : Nat} {met stack names : List String}
    (h : config.reachWithin n met stack = some names) : config.reachFrom met stack = names := by
  fun_induction reachWithin config n met stack with
  | case1 => cases h
  | case2 n met =>
    rw [reachFrom]
    exact Option.some.inj h
  | case3 n met name rest hget ih => rw [reachFrom_missing hget, ih h]
  | case4 n met name rest object hget hmet ih => rw [reachFrom_met hmet, ih h]
  | case5 n met name rest object hget hmet ih => rw [reachFrom_new hget hmet, ih h]

theorem mem_reachWithin_iff {n : Nat} {root name : String} {names : List String}
    (h : config.reachWithin n [] [root] = some names) : name ∈ names ↔ config.Reaches root name := by
  rw [← mem_reach_singleton_iff, reach, reachFrom_of_reachWithin h]

/-! ## Copies -/

/-- A restriction has the objects of the given names and no others. -/
theorem get?_restrict (config : Config) (names : List String) (name : String) :
    (config.restrict names).get? name = if name ∈ names then config.get? name else none := by
  -- the names are taken in turn; each step adds what the configuration has under its name
  have hfold : ∀ (step : Config → String → Config),
      (∀ out next, (step out next).get? name
        = if name = next then (config.get? name).or (out.get? name) else out.get? name) →
      ∀ (names : List String) (out : Config), (names.foldl step out).get? name
        = if name ∈ names then (config.get? name).or (out.get? name) else out.get? name := by
    intro step hstep names
    induction names with
    | nil => intro out; rfl
    | cons next rest ih =>
      intro out
      rw [List.foldl_cons, ih, hstep]
      by_cases hn : name = next
      · cases config.get? name <;> simp [hn]
      · simp [hn]
  rw [restrict, hfold]
  · rw [SortedMap.get?_empty, Option.or_none]
  · intro out next
    split
    · next object ho =>
      rw [SortedMap.get?_insert]
      by_cases hn : name = next
      · rw [if_pos hn, if_pos hn, hn, ho, Option.some_or]
      · rw [if_neg hn, if_neg hn]
    · next ho =>
      by_cases hn : name = next
      · rw [if_pos hn, hn, ho, Option.none_or]
      · rw [if_neg hn]

/-- A copy of what the roots reach has the objects met, each as it is in the original. -/
theorem get?_extract (config : Config) (roots : List String) (name : String) :
    (config.extract roots).get? name
      = if name ∈ config.reach roots then config.get? name else none :=
  config.get?_restrict _ name

theorem contains_extract_iff {roots : List String} {name : String} :
    (config.extract roots).contains name ↔ name ∈ config.reach roots := by
  rw [SortedMap.contains, get?_extract]
  by_cases h : name ∈ config.reach roots
  · rw [if_pos h]
    exact ⟨fun _ => h, fun _ => contains_of_mem_reach h⟩
  · rw [if_neg h]
    exact ⟨fun hc => absurd hc Bool.false_ne_true, fun hc => absurd hc h⟩

end GraphWire.Config
