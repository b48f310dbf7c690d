import GraphWire.Entry

/-!
# `GraphWire.SortedMap` — maps in the order of their keys

The entries stand in increasing order of their keys, by code points, so two maps with the same
look-ups are equal.

## Contents
- **Sorted entry lists.** `Entry.place`, with the keys and look-ups after it.
- **`SortedMap`** and its operations; `SortedMap.get?_insert`.
- **Disjoint union.** `SortedMap.collision?` finds the first common key, `SortedMap.union` inserts
  all entries of another map.
-/

namespace GraphWire

variable {α : Type u}

/-! ## Sorted entry lists -/

namespace Entry

/-- Overwrites the entry with the key, or puts one before the first greater key. -/
def place (key : String) (value : α) : List (String × α) → List (String × α)
  | [] => [(key, value)]
  | (k, v) :: rest =>
    if k = key then (key, value) :: rest
    else if key < k then (key, value) :: (k, v) :: rest
    else (k, v) :: place key value rest

/-- Every key is less than all later ones. -/
abbrev Increasing (entries : List (String × α)) : Prop :=
  entries.Pairwise fun a b => a.1 < b.1

theorem mem_place {key : String} {value : α} {e : String × α} {entries : List (String × α)}
    (h : e ∈ place key value entries) : e = (key, value) ∨ e ∈ entries := by
  induction entries with
  | nil => simpa [place] using h
  | cons hd rest ih => simp only [place] at h; grind

theorem lt_of_not_lt {a b : String} (ne : a ≠ b) (h : ¬ b < a) : a < b :=
  Decidable.byContradiction fun h' => ne (String.le_antisymm h h')

theorem increasing_place {entries : List (String × α)} (key : String) (value : α)
    (h : Increasing entries) : Increasing (place key value entries) := by
  induction entries with
  | nil => simp [place]
  | cons hd rest ih =>
    obtain ⟨h₁, h₂⟩ := List.pairwise_cons.1 h
    simp only [place]
    split
    · next he => subst he; exact List.pairwise_cons.2 ⟨h₁, h₂⟩
    · next ne =>
      split
      · next lt =>
        refine List.pairwise_cons.2 ⟨fun e he => ?_, h⟩
        rcases List.mem_cons.1 he with rfl | he
        · exact lt
        · exact String.lt_trans lt (h₁ e he)
      · next nlt =>
        refine List.pairwise_cons.2 ⟨fun e he => ?_, ih h₂⟩
        rcases mem_place he with rfl | he
        · exact lt_of_not_lt ne nlt
        · exact h₁ e he

theorem find?_place (key k : String) (value : α) (entries : List (String × α)) :
    find? k (place key value entries) = if k = key then some value else find? k entries := by
  induction entries with
  | nil => simp [place, find?, eq_comm]
  | cons e rest ih => simp only [place]; grind [find?]

end Entry

/-! ## Sorted maps -/

/-- A list of entries with increasing keys. -/
structure SortedMap (α : Type u) where
  entries : List (String × α)
  increasing : Entry.Increasing entries

namespace SortedMap

@[ext] theorem ext {a b : SortedMap α} (h : a.entries = b.entries) : a = b := by
  cases a; cases b; cases h; rfl

instance [DecidableEq α] : DecidableEq (SortedMap α) := fun a b =>
  decidable_of_iff (a.entries = b.entries) ⟨ext, fun h => h ▸ rfl⟩

def empty : SortedMap α := ⟨[], .nil⟩

instance : EmptyCollection (SortedMap α) := ⟨empty⟩
instance : Inhabited (SortedMap α) := ⟨empty⟩

def keys (m : SortedMap α) : List String := m.entries.map Prod.fst

def size (m : SortedMap α) : Nat := m.entries.length

def isEmpty (m : SortedMap α) : Bool := m.entries.isEmpty

def get? (m : SortedMap α) (key : String) : Option α := Entry.find? key m.entries

def contains (m : SortedMap α) (key : String) : Bool := (m.get? key).isSome

/-- Writes the value under the key. -/
def insert (m : SortedMap α) (key : String) (value : α) : SortedMap α :=
  ⟨Entry.place key value m.entries, Entry.increasing_place key value m.increasing⟩

/-- The first key of `other` that the map has too. -/
def collision? (m other : SortedMap α) : Option String :=
  other.keys.find? m.contains

/-- The map with all entries of `other` written into it. -/
def union (m other : SortedMap α) : SortedMap α :=
  other.entries.foldl (fun m e => m.insert e.1 e.2) m

@[simp] theorem get?_empty (key : String) : (empty : SortedMap α).get? key = none := rfl

theorem get?_insert (m : SortedMap α) (key k : String) (value : α) :
    (m.insert key value).get? k = if k = key then some value else m.get? k :=
  Entry.find?_place key k value m.entries

end SortedMap

end GraphWire
