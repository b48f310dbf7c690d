import GraphWire.Schema.Registry
import Mathlib.Logic.Function.Iterate
import Mathlib.Logic.Relation

/-!
# `Proofs.Assignability` — where the registered parents of a tag lead

A tag is assignable to another one if it leads to it by registered parents. The search for it stops at a tag
that it has met before, and nothing is lost there: every tag that was met has its parent among those, so
what is still looked for cannot be reached any more.

## Contents
- **`Registry.climbs_iff`**, the search past the tags that were met, and **`Registry.isAssignable_iff`**.
- **Uses.** `isAssignable_self`, `isAssignable_of_parentOf?` and `isAssignable_trans`.
- **`Ascent`**, the search as a loop: `Ascent.result_step`, no round changes the result, and
  `Ascent.iterate_step`, the rounds come to an end.
- **`isAssignable_is_ancestry`**.
-/

namespace GraphWire.Registry

variable {registry : Registry} {actual expected top : String}

/-- The second tag is the registered parent of the first one. -/
def IsParent (registry : Registry) (tag parent : String) : Prop := registry.parentOf? tag = some parent

/-- **The search finds what is reached by registered parents**, if the tags that were met lead nowhere but to
    each other and to the tag at hand, and what is looked for is none of them. -/
theorem climbs_iff {met : List String} (hexpected : expected ∉ met)
    (hclosed : ∀ tag ∈ met, ∀ parent, registry.IsParent tag parent → parent ∈ met ∨ parent = actual) :
    registry.climbs expected met actual = true ↔
      Relation.ReflTransGen registry.IsParent actual expected := by
  fun_induction climbs registry expected met actual with
  | case1 met => exact ⟨fun _ => .refl, fun _ => rfl⟩
  | case2 met actual hne hmet =>
    -- the tag at hand was met, so nothing leads out of the tags that were met
    have hstays : ∀ tag, Relation.ReflTransGen registry.IsParent actual tag → tag ∈ met := by
      intro tag hleads
      induction hleads with
      | refl => exact hmet
      | tail _ hparent ih =>
        rcases hclosed _ ih _ hparent with hmem | rfl
        · exact hmem
        · exact hmet
    exact ⟨fun h => absurd h Bool.false_ne_true, fun hleads => absurd (hstays _ hleads) hexpected⟩
  | case3 met actual hne hmet hnone =>
    refine ⟨fun h => absurd h Bool.false_ne_true, fun hleads => ?_⟩
    rcases hleads.cases_head with hsame | ⟨parent, hparent, -⟩
    · exact absurd hsame hne
    · rw [IsParent, hnone] at hparent
      cases hparent
  | case4 met actual hne hmet parent hparent ih =>
    have hexpected' : expected ∉ actual :: met :=
      List.not_mem_cons_of_ne_of_not_mem (Ne.symm hne) hexpected
    have hclosed' : ∀ tag ∈ actual :: met, ∀ above, registry.IsParent tag above →
        above ∈ actual :: met ∨ above = parent := by
      intro tag htag above habove
      rcases List.mem_cons.1 htag with rfl | htag
      · exact Or.inr (Option.some.inj (habove.symm.trans hparent))
      · rcases hclosed tag htag above habove with hmem | rfl
        · exact Or.inl (List.mem_cons_of_mem _ hmem)
        · exact Or.inl List.mem_cons_self
    rw [ih hexpected' hclosed']
    constructor
    · exact fun hleads => .head hparent hleads
    · intro hleads
      rcases hleads.cases_head with hsame | ⟨above, habove, hleads⟩
      · exact absurd hsame hne
      · cases Option.some.inj (habove.symm.trans hparent)
        exact hleads

/-- **A tag is assignable to those that it leads to by registered parents**, none included. -/
theorem isAssignable_iff :
    registry.isAssignable actual expected = true ↔
      Relation.ReflTransGen registry.IsParent actual expected :=
  climbs_iff List.not_mem_nil fun _ h => absurd h List.not_mem_nil

theorem isAssignable_self (registry : Registry) (tag : String) : registry.isAssignable tag tag = true :=
  isAssignable_iff.2 .refl

/-- A tag is assignable to that of its parent. -/
theorem isAssignable_of_parentOf? {tag parent : String} (h : registry.parentOf? tag = some parent) :
    registry.isAssignable tag parent = true :=
  isAssignable_iff.2 (.single h)

theorem isAssignable_trans (h : registry.isAssignable actual expected = true)
    (h' : registry.isAssignable expected top = true) : registry.isAssignable actual top = true :=
  isAssignable_iff.2 ((isAssignable_iff.1 h).trans (isAssignable_iff.1 h'))

/-! ## The search, round by round -/

/-- How far the search has come: the tags that were met and the one at hand, or what was found. -/
inductive Ascent where
  | climbing (met : List String) (tag : String)
  | ended (found : Bool)

namespace Ascent

/-- One round of the search for `expected`. -/
def step (registry : Registry) (expected : String) : Ascent → Ascent
  | ended found => ended found
  | climbing met tag =>
    if tag = expected then ended true
    else if tag ∈ met then ended false
    else
      match registry.parentOf? tag with
      | none => ended false
      | some parent => climbing (tag :: met) parent

/-- What is found from here on. -/
def result (registry : Registry) (expected : String) : Ascent → Bool
  | climbing met tag => registry.climbs expected met tag
  | ended found => found

/-- The rounds that can still come: one for each registered tag not met, and a last one. -/
def rounds (registry : Registry) : Ascent → Nat
  | climbing met _ => unseen registry.keys met + 1
  | ended _ => 0

/-- No round changes what is found. -/
theorem result_step (ascent : Ascent) :
    (ascent.step registry expected).result registry expected = ascent.result registry expected := by
  cases ascent with
  | ended found => rfl
  | climbing met tag =>
    show _ = registry.climbs expected met tag
    fun_cases climbs registry expected met tag with
    | case1 hsame => rw [step, if_pos hsame, result]
    | case2 hne hmet => rw [step, if_neg hne, if_pos hmet, result]
    | case3 hne hmet hnone => rw [step, if_neg hne, if_neg hmet, hnone, result]
    | case4 hne hmet parent hparent => rw [step, if_neg hne, if_neg hmet, hparent, result]

/-- A round that goes on has met one more of the registered tags. -/
theorem rounds_step_lt {met : List String} {tag : String} :
    ((climbing met tag).step registry expected).rounds registry < (climbing met tag).rounds registry := by
  rw [step, rounds]
  split
  · exact Nat.succ_pos _
  · split
    · exact Nat.succ_pos _
    · next hmet =>
      split
      · exact Nat.succ_pos _
      · next hparent => exact Nat.succ_lt_succ (unseen_cons_lt (mem_keys_of_parentOf? hparent) hmet)

/-- **The search ends**: after as many rounds as can still come it has its result. -/
theorem iterate_step (ascent : Ascent) {rounds : Nat} (h : ascent.rounds registry ≤ rounds) :
    (step registry expected)^[rounds] ascent = ended (ascent.result registry expected) := by
  induction rounds generalizing ascent with
  | zero =>
    cases ascent with
    | climbing met tag => cases h
    | ended found => rfl
  | succ rounds ih =>
    rw [Function.iterate_succ_apply, ih, result_step]
    cases ascent with
    | climbing met tag => exact Nat.le_of_lt_succ (Nat.lt_of_lt_of_le rounds_step_lt h)
    | ended found => exact Nat.zero_le rounds

theorem rounds_start : (climbing [] actual).rounds registry ≤ registry.size + 1 := by
  have hkeys : registry.keys.length = registry.size := List.length_map _
  exact Nat.succ_le_succ (hkeys ▸ List.length_filter_le _ _)

end Ascent

/-- **Assignability is ancestry**, whatever is registered, chains that break off and chains that run in a circle
    included. The search takes at most one round for each registered tag and one more, and says whether the
    second tag is the first one or is reached from it by registered parents. So it is reflexive and
    transitive. -/
theorem isAssignable_is_ancestry (registry : Registry) (actual expected : String) :
    (Ascent.step registry expected)^[registry.size + 1] (.climbing [] actual) =
        .ended (registry.isAssignable actual expected) ∧
      (registry.isAssignable actual expected = true ↔
        expected = actual ∨ Relation.TransGen registry.IsParent actual expected) ∧
      registry.isAssignable actual actual = true ∧
      ∀ top, registry.isAssignable actual expected = true → registry.isAssignable expected top = true →
        registry.isAssignable actual top = true := by
  refine ⟨Ascent.iterate_step _ Ascent.rounds_start, ?_, isAssignable_self registry actual,
    fun top => isAssignable_trans⟩
  rw [isAssignable_iff, Relation.reflTransGen_iff_eq_or_transGen]

/-- Two tags that are each other's parents, and one whose parent nobody registered. -/
example :
    let registry : Registry := ((SortedMap.empty.insert "a" ⟨"a", some "b", "A", []⟩).insert "b"
      ⟨"b", some "a", "B", []⟩).insert "c" ⟨"c", some "d", "C", []⟩
    registry.isAssignable "a" "b" = true ∧ registry.isAssignable "a" "c" = false ∧
      registry.isAssignable "c" "d" = true := by decide +kernel

end GraphWire.Registry
