import GraphWire.Proofs.Reach
import Mathlib.Data.List.Basic

/-!
# `Proofs.Traversal` — the order of the search, and how long it takes

The search marks an object when it meets it and puts what the object refers to on top of the stack. So what
it meets is a list that only grows at its end, and a name on the stack is a root or was put there by an object
that was met before. Every reference is put on the stack at most once, since its object is met at most once,
and each step takes a name from the stack: the references of the objects still to be met and the stack together
bound the steps that are left.

## Contents
- **Steps.** `Config.references`, and **`reachWithin_of_lt`**, the search ends within so many steps.
- **Order.** `isPrefix_reachFrom`, and `Config.Led`, every name is a root or has a referrer before it.
- **Walks.** `exists_objects`, every name that was met has an object.
- **`reach_is_reachability`**, all of it for the search from one root.
-/

namespace GraphWire.Config

variable {config : Config}

/-! ## Steps -/

/-- How many names the objects refer to, counted wherever they stand. -/
def references (config : Config) : Nat := (config.entries.flatMap fun e => targets e.2).length

/-- How many of them stand in entries whose objects were not met. -/
def openReferencesIn (met : List String) (entries : List (String × Object)) : Nat :=
  (entries.flatMap fun e => if e.1 ∈ met then [] else targets e.2).length

def openReferences (config : Config) (met : List String) : Nat := openReferencesIn met config.entries

theorem openReferences_nil (config : Config) : config.openReferences [] = config.references := by
  simp only [openReferences, openReferencesIn, references, List.not_mem_nil, if_false]

theorem openReferencesIn_cons (met : List String) (name : String) (object : Object)
    (rest : List (String × Object)) :
    openReferencesIn met ((name, object) :: rest)
      = (if name ∈ met then [] else targets object).length + openReferencesIn met rest := by
  rw [openReferencesIn, List.flatMap_cons, List.length_append, openReferencesIn]

/-- Entries under other names are not affected when a name is met. -/
theorem openReferencesIn_of_notMem {entries : List (String × Object)} {name : String}
    (h : name ∉ Entry.keys entries) (met : List String) :
    openReferencesIn (name :: met) entries = openReferencesIn met entries := by
  refine congrArg List.length (List.flatMap_congr fun e he => ?_)
  have hne : e.1 ≠ name := by
    rintro rfl
    exact h (List.mem_map.2 ⟨e, he, rfl⟩)
  simp only [List.mem_cons, hne, false_or]

/-- An object that is met takes its references away from those that are open. -/
theorem openReferencesIn_of_find? {entries : List (String × Object)} (hnodup : (Entry.keys entries).Nodup)
    {name : String} {object : Object} (hfind : Entry.find? name entries = some object) {met : List String}
    (hmet : name ∉ met) :
    openReferencesIn met entries = (targets object).length + openReferencesIn (name :: met) entries := by
  induction entries with
  | nil => cases hfind
  | cons e rest ih =>
    obtain ⟨key, other⟩ := e
    obtain ⟨hnew, hrest⟩ := List.nodup_cons.1 hnodup
    rw [Entry.find?] at hfind
    rw [openReferencesIn_cons, openReferencesIn_cons]
    by_cases hkey : key = name
    · subst hkey
      rw [if_pos rfl] at hfind
      cases hfind
      rw [if_neg hmet, if_pos List.mem_cons_self, openReferencesIn_of_notMem hnew, List.length_nil,
        Nat.zero_add]
    · rw [if_neg hkey] at hfind
      have hopen := ih hrest hfind
      have hstill : (key ∈ name :: met) = (key ∈ met) := by
        rw [List.mem_cons, or_iff_right hkey]
      simp only [hstill]
      omega

theorem openReferences_of_new {name : String} {object : Object} (hget : config.get? name = some object)
    {met : List String} (hmet : name ∉ met) :
    config.openReferences met = (targets object).length + config.openReferences (name :: met) :=
  openReferencesIn_of_find? config.nodup_keys hget hmet

/-- **The search ends.** It takes no more steps than there are names on the stack and references in objects
    that were not met, and one for the end. -/
theorem reachWithin_of_lt {n : Nat} {met stack : List String}
    (h : stack.length + config.openReferences met < n) :
    config.reachWithin n met stack = some (config.reachFrom met stack) := by
  induction n generalizing met stack with
  | zero => exact absurd h (Nat.not_lt_zero _)
  | succ n ih =>
    cases stack with
    | nil => rw [reachWithin, reachFrom]
    | cons name rest =>
      rw [List.length_cons] at h
      cases hget : config.get? name with
      | none =>
        rw [reachFrom_missing hget, ← ih (by omega), reachWithin, hget]
      | some object =>
        by_cases hmet : name ∈ met
        · rw [reachFrom_met hmet, ← ih (by omega), reachWithin, hget]
          exact if_pos hmet
        · have hopen := openReferences_of_new hget hmet
          have hlt : (targets object ++ rest).length + config.openReferences (name :: met) < n := by
            rw [List.length_append]
            omega
          rw [reachFrom_new hget hmet, ← ih hlt, reachWithin, hget]
          exact if_neg hmet

/-! ## Order -/

/-- What was met stays in front. -/
theorem isPrefix_reachFrom (config : Config) (met stack : List String) : met.reverse <+: config.reachFrom met stack := by
  fun_induction reachFrom config met stack with
  | case1 met => exact List.prefix_rfl
  | case2 met next rest _ ih => exact ih
  | case3 met next rest object _ _ ih => exact ih
  | case4 met next rest object _ _ ih =>
    rw [List.reverse_cons] at ih
    exact (List.prefix_append _ _).trans ih

/-- The names met, the latest first: each of them is a root, or one met before refers to it. -/
inductive Led (config : Config) (roots : List String) : List String → Prop where
  | nil : Led config roots []
  | cons {name : String} {met : List String} (led : Led config roots met)
      (cause : name ∈ roots ∨ ∃ referrer ∈ met, config.Refers referrer name) :
      Led config roots (name :: met)

/-- A name that was met has its referrer among those met before. -/
theorem Led.exists_referrer {roots later before : List String} {name : String}
    (h : config.Led roots (later ++ name :: before)) :
    name ∈ roots ∨ ∃ referrer ∈ before, config.Refers referrer name := by
  induction later with
  | nil =>
    cases h with
    | cons _ cause => exact cause
  | cons last later ih =>
    cases h with
    | cons led _ => exact ih led

/-- **The search only follows references.** If every name on the stack is a root or one that an object met
    refers to, so is every name that is met. -/
theorem led_reachFrom {roots met stack : List String} (hmet : config.Led roots met)
    (hstack : ∀ name ∈ stack, name ∈ roots ∨ ∃ referrer ∈ met, config.Refers referrer name) :
    config.Led roots (config.reachFrom met stack).reverse := by
  fun_induction reachFrom config met stack with
  | case1 met => rwa [List.reverse_reverse]
  | case2 met next rest _ ih => exact ih hmet (List.forall_mem_cons.1 hstack).2
  | case3 met next rest object _ _ ih => exact ih hmet (List.forall_mem_cons.1 hstack).2
  | case4 met next rest object hget _ ih =>
    obtain ⟨hnext, hrest⟩ := List.forall_mem_cons.1 hstack
    refine ih (.cons hmet hnext) ?_
    intro name hname
    rcases List.mem_append.1 hname with hname | hname
    · -- pushed just now by the object that was met
      exact Or.inr ⟨next, List.mem_cons_self, refers_iff_mem_targets.2 ⟨object, hget, hname⟩⟩
    · rcases hrest name hname with hroot | ⟨referrer, hreferrer, hrefers⟩
      · exact Or.inl hroot
      · exact Or.inr ⟨referrer, List.mem_cons_of_mem _ hreferrer, hrefers⟩

/-- A name that was met and is no root comes after one that refers to it. -/
theorem exists_referrer_of_reach {roots before after : List String} {name : String}
    (h : config.reach roots = before ++ name :: after) (hroot : name ∉ roots) :
    ∃ referrer ∈ before, config.Refers referrer name := by
  have hled : config.Led roots (config.reach roots).reverse :=
    led_reachFrom .nil fun _ hname => Or.inl hname
  rw [h, List.reverse_append, List.reverse_cons, List.append_assoc, List.singleton_append] at hled
  rcases hled.exists_referrer with hname | ⟨referrer, hreferrer, hrefers⟩
  · exact absurd hname hroot
  · exact ⟨referrer, List.mem_reverse.1 hreferrer, hrefers⟩

/-- A root that exists comes first. -/
theorem head?_reach {root : String} (there : config.contains root) :
    (config.reach [root]).head? = some root := by
  obtain ⟨object, hget⟩ := SortedMap.contains_iff.1 there
  have hfirst : config.reach [root] = config.reachFrom [root] (targets object ++ []) :=
    reachFrom_new hget List.not_mem_nil
  obtain ⟨rest, hrest⟩ := config.isPrefix_reachFrom [root] (targets object ++ [])
  rw [hfirst, ← hrest]
  rfl

/-- Nothing is met from a root that does not exist. -/
theorem reach_of_missing {root : String} (missing : ¬ config.contains root) : config.reach [root] = [] := by
  rw [reach, reachFrom_missing (SortedMap.get?_eq_none_iff.2 missing), reachFrom]
  rfl

/-! ## Walks -/

/-- The assignments that make up an object under its name. -/
def assignments (name : String) (object : Object) : List Statement :=
  object.entries.map fun (field, value) => ⟨name, field, value⟩

/-- All names that were met have objects, and the walk is made of these. -/
theorem exists_objects {names : List String} (there : ∀ name ∈ names, config.contains name) :
    ∃ objects : List Object, names.map config.get? = objects.map some ∧
      (names.flatMap fun name => (((config.get? name).map (·.entries)).getD []).map
          fun (field, value) => (⟨name, field, value⟩ : Statement))
        = (names.zip objects).flatMap fun (name, object) => assignments name object := by
  induction names with
  | nil => exact ⟨[], rfl, rfl⟩
  | cons name names ih =>
    obtain ⟨hname, hnames⟩ := List.forall_mem_cons.1 there
    obtain ⟨object, hget⟩ := SortedMap.contains_iff.1 hname
    obtain ⟨objects, hobjects, hwalk⟩ := ih hnames
    refine ⟨object :: objects, ?_, ?_⟩
    · rw [List.map_cons, List.map_cons, hget, hobjects]
    · rw [List.flatMap_cons, List.zip_cons_cons, List.flatMap_cons, hwalk, hget]
      rfl

/-- **The search is reachability.** Whatever the references of the configuration are, cyclic or to names
    without objects, it ends within two steps more than there are references. No name is met twice, and
    those that are met are the objects that the root reaches; there are none if the root does not exist.
    The root comes first, and every other object after one that refers to it. A walk has the assignments
    of the objects that are met, in this order, each with its fields in the order of their insertion. -/
theorem reach_is_reachability (config : Config) (root : String) :
    config.reachWithin (config.references + 2) [] [root] = some (config.reach [root]) ∧
    (config.reach [root]).Nodup ∧
    (∀ name, name ∈ config.reach [root] ↔ config.Reaches root name) ∧
    (¬ config.contains root → config.reach [root] = []) ∧
    (config.contains root → (config.reach [root]).head? = some root) ∧
    (∀ before name after, config.reach [root] = before ++ name :: after → name ≠ root →
      ∃ referrer ∈ before, config.Refers referrer name) ∧
    ∃ objects : List Object, (config.reach [root]).map config.get? = objects.map some ∧
      config.walk root
        = ((config.reach [root]).zip objects).flatMap fun (name, object) => assignments name object := by
  refine ⟨?_, config.nodup_reach [root], fun name => mem_reach_singleton_iff, reach_of_missing, head?_reach,
    ?_, exists_objects fun name => contains_of_mem_reach⟩
  · apply reachWithin_of_lt
    rw [openReferences_nil, List.length_singleton]
    omega
  · intro before name after hreach hne
    exact exists_referrer_of_reach hreach fun hmem => hne (List.mem_singleton.1 hmem)

end GraphWire.Config
