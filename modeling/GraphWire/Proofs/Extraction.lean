import GraphWire.Proofs.Copies

/-!
# `Proofs.Extraction` — what a copy of everything that an object leads to has in common with the original

Whether a text is a reference depends on the names that there are, and a copy has fewer names. What an
object of the copy refers to is in the copy all the same, so its fields are read as before, and searches
and walks go on as in the original.

The exception is the field `type`. It refers to nothing, and a single text in it is never read as a
reference, but the items of a list are resolved in it as in any other field. An object that is only named
there is left out, and its name is a text in the copy.

## Contents
- **`Config.ReadsAlike`**, a field that is resolved to the same, item by item.
- **Names.** `resolveItem_eq_iff`, and `Alike.readsAlike_iff` for a field.
- **Searches of the copy.** `reach_extract` and `extract_extract`.
- **`Config.extract_faithful_but_for_type`**, the result.
-/

namespace GraphWire.Config

/-- The field is resolved to the same in both configurations, and if that is a sequence, so are its items. -/
def ReadsAlike (a b : Config) (object field : String) : Prop :=
  a.resolved? object field = b.resolved? object field ∧
    ∀ names, a.resolved? object field = some (.sequence names) → ∀ i, a.item? names i = b.item? names i

/-- A list in the field `type` of the object names an object that the root does not lead to. -/
def NamesUnreached (config : Config) (root object : String) : Prop :=
  ∃ names, config.raw? object typeField = some (.texts names) ∧
    ∃ target ∈ names, config.contains target ∧ target ∉ config.reach [root]

variable {a b config : Config}

/-! ## Names -/

/-- A text is resolved alike if both configurations have an object of this name or neither has. -/
theorem resolveItem_eq_iff {s : String} :
    a.resolveItem s = b.resolveItem s ↔ (a.contains s ↔ b.contains s) := by
  unfold resolveItem
  by_cases ha : a.contains s = true <;> by_cases hb : b.contains s = true <;> simp [ha, hb]

/-- The items of a sequence are resolved alike at every place if every text in it is. -/
theorem item?_eq_iff {names : List String} :
    (∀ i, a.item? names i = b.item? names i) ↔ ∀ s ∈ names, a.resolveItem s = b.resolveItem s := by
  constructor
  · intro h s hs
    obtain ⟨i, hi⟩ := List.mem_iff_getElem?.1 hs
    have hitem := h i
    rw [item?, item?, hi] at hitem
    exact Option.some.inj hitem
  · intro h i
    rw [item?, item?]
    exact Option.map_congr fun s hs => h s (List.mem_of_getElem? hs)

/-- Only a list is read as a sequence. -/
theorem resolved?_eq_sequence_iff {object field : String} {names : List String} :
    config.resolved? object field = some (.sequence names) ↔
      config.raw? object field = some (.texts names) := by
  rw [resolved?, Option.map_eq_some_iff]
  constructor
  · rintro ⟨value, hraw, hresolve⟩
    rw [hraw]
    cases value with
    | text s =>
      -- a text is an object or a text again
      rw [resolve, resolveItem] at hresolve
      split at hresolve
      · cases hresolve
      · split at hresolve <;> cases hresolve
    | number n => cases hresolve
    | texts names' =>
      cases hresolve
      rfl
    | numbers items => cases hresolve
  · intro hraw
    exact ⟨.texts names, hraw, rfl⟩

theorem Alike.resolved?_eq (h : Alike a b) {object : String} (hobject : a.get? object = b.get? object)
    (field : String) : a.resolved? object field = b.resolved? object field := by
  rw [resolved?, resolved?, ← raw?_eq hobject field]
  exact Option.map_congr fun value hraw => h.resolve_eq hobject hraw

/-- **Where two alike configurations hold the same object, they read every field of it alike, a list in the
field `type` excepted.** -/
theorem Alike.readsAlike_iff (h : Alike a b) {object : String} (hobject : a.get? object = b.get? object)
    (field : String) :
    ReadsAlike a b object field ↔
      (field = typeField → ∀ names, a.raw? object field = some (.texts names) →
        ∀ target ∈ names, (a.contains target ↔ b.contains target)) := by
  have hresolved := h.resolved?_eq hobject field
  simp only [ReadsAlike, hresolved, true_and]
  rw [← hresolved]
  simp only [resolved?_eq_sequence_iff, item?_eq_iff, resolveItem_eq_iff]
  constructor
  · intro hitems _ names hraw
    exact hitems names hraw
  · intro htype names hraw target htarget
    by_cases hfield : field = typeField
    · exact htype hfield names hraw target htarget
    · -- elsewhere the object refers to every item
      rw [Alike.contains_eq (h hobject (refers_of_texts hfield hraw htarget))]

/-! ## Searches of the copy -/

/-- The copy and the original hold the same under the names of the roots. -/
theorem get?_extract_root {roots : List String} {root : String} (hroot : root ∈ roots) :
    config.get? root = (config.extract roots).get? root := by
  rw [get?_extract]
  by_cases there : config.contains root
  · have hmet : root ∈ config.reach roots := mem_reachFrom_of_stack hroot there
    rw [if_pos hmet]
  · rw [SortedMap.get?_eq_none_iff.2 there, ite_self]

/-- The roots lead to the same objects in the copy, in the same order. -/
theorem reach_extract (config : Config) (roots : List String) :
    (config.extract roots).reach roots = config.reach roots := by
  have halike : Alike config (config.extract roots) := alike_extract config roots
  exact (halike.reachFrom_eq fun _ hroot => get?_extract_root hroot).symm

/-- **A copy of the copy is the copy.** -/
theorem extract_extract (config : Config) (roots : List String) :
    (config.extract roots).extract roots = config.extract roots := by
  apply SortedMap.ext_get?
  intro name
  rw [get?_extract, reach_extract, get?_extract]
  split <;> rfl

/-! ## The result -/

/-- An object that was met reads alike in the copy, unless its type names something left out. -/
theorem readsAlike_extract_iff {root name : String} (hmet : name ∈ config.reach [root]) (field : String) :
    ReadsAlike config (config.extract [root]) name field ↔
      ¬ (field = typeField ∧ config.NamesUnreached root name) := by
  have hname : config.get? name = (config.extract [root]).get? name := by rw [get?_extract, if_pos hmet]
  have halike : Alike config (config.extract [root]) := alike_extract config [root]
  rw [halike.readsAlike_iff hname]
  simp only [contains_extract_iff]
  constructor
  · rintro h ⟨hfield, names, hraw, target, htarget, there, hunreached⟩
    exact hunreached ((h hfield names (hfield ▸ hraw) target htarget).1 there)
  · intro h hfield names hraw target htarget
    refine ⟨fun there => ?_, contains_of_mem_reach⟩
    by_contra hunreached
    exact h ⟨hfield, names, hfield ▸ hraw, target, htarget, there, hunreached⟩

/-- **A copy of everything that an object leads to is faithful and closed, but for lists in the field
`type`.** It has the objects that a search from the root meets, each as it is in the original, and no
others; the search meets the same in it. Every field of them is resolved alike, sequences item by item,
except just the field `type` of an object in which a list names an object that the root does not lead to.
The walk from the root has the same assignments in the same order, and a copy of the copy is the copy. -/
theorem extract_faithful_but_for_type (config : Config) (root : String) :
    (∀ name object, (config.extract [root]).get? name = some object ↔
      name ∈ config.reach [root] ∧ config.get? name = some object) ∧
    (config.extract [root]).reach [root] = config.reach [root] ∧
    (∀ name ∈ config.reach [root], ∀ field, ReadsAlike config (config.extract [root]) name field ↔
      ¬ (field = typeField ∧ config.NamesUnreached root name)) ∧
    (config.extract [root]).walk root = config.walk root ∧
    (config.extract [root]).extract [root] = config.extract [root] := by
  have halike : Alike config (config.extract [root]) := alike_extract config [root]
  refine ⟨?_, config.reach_extract [root], fun name hmet => readsAlike_extract_iff hmet, ?_,
    config.extract_extract [root]⟩
  · intro name object
    rw [get?_extract, Option.ite_none_right_eq_some]
  · exact (halike.walk_eq (get?_extract_root List.mem_cons_self)).symm

/-- An object whose type is a list that names the other one. -/
def listedType : Config := .ofStatements [⟨"a", "type", .texts ["b"]⟩, ⟨"b", "y", .number .one⟩]

/-- The item of that list is an object in the original and a text in the copy. -/
theorem listedType_reads_apart :
    listedType.resolved? "a" "type" = some (.sequence ["b"]) ∧
    (listedType.extract ["a"]).resolved? "a" "type" = some (.sequence ["b"]) ∧
    listedType.item? ["b"] 0 = some (.object "b") ∧
    (listedType.extract ["a"]).item? ["b"] 0 = some (.text "b") := by
  have hsearch : listedType.reachWithin 3 [] ["a"] = some ["a"] := by decide +kernel
  have hcopy : listedType.extract ["a"] = listedType.restrict ["a"] := by
    rw [extract, reach, reachFrom_of_reachWithin hsearch]
  rw [hcopy]
  decide +kernel

end GraphWire.Config
