import GraphWire.Entry

/-!
# `GraphWire.OrderedMap` — maps that remember the order of insertion

A key keeps the place of its first insertion: writing it again changes the value there, removing it
leaves the order of the others.

## Contents
- **Entry lists.** `Entry.put` and `Entry.drop`, with the keys and look-ups after each.
- **`OrderedMap`**, an entry list without repeated keys, and its operations.
- **Look-up laws.** `OrderedMap.get?_insert` and `OrderedMap.get?_erase`.
-/

namespace GraphWire

variable {α : Type u} {β : Type v}

/-! ## Entry lists -/

namespace Entry

/-- Overwrites the entry with the key, or appends one. -/
def put (key : String) (value : α) : List (String × α) → List (String × α)
  | [] => [(key, value)]
  | (k, v) :: rest => if k = key then (k, value) :: rest else (k, v) :: put key value rest

/-- Removes the entry with the key. -/
def drop (key : String) : List (String × α) → List (String × α)
  | [] => []
  | (k, v) :: rest => if k = key then rest else (k, v) :: drop key rest

theorem find?_put (key k : String) (value : α) (entries : List (String × α)) :
    find? k (put key value entries) = if k = key then some value else find? k entries := by
  induction entries with
  | nil => simp [put, find?, eq_comm]
  | cons e rest ih =>
    simp only [put]
    split <;> simp only [find?] <;> grind

theorem mem_keys_put {key k : String} {value : α} {entries : List (String × α)} :
    k ∈ keys (put key value entries) ↔ k = key ∨ k ∈ keys entries := by
  induction entries with
  | nil => simp [put]
  | cons e rest ih =>
    simp only [put]
    split
    · simp_all
    · simp only [List.map_cons, List.mem_cons, ih]
      grind

theorem nodup_put {entries : List (String × α)} (key : String) (value : α)
    (h : (keys entries).Nodup) : (keys (put key value entries)).Nodup := by
  induction entries with
  | nil => simp [put]
  | cons e rest ih =>
    simp only [List.map_cons, List.nodup_cons] at h
    simp only [put]
    split
    · simpa using h
    · simp only [List.map_cons, List.nodup_cons]
      exact ⟨fun m => by rcases mem_keys_put.1 m with m | m <;> simp_all, ih h.2⟩

theorem drop_sublist (key : String) (entries : List (String × α)) :
    (drop key entries).Sublist entries := by
  induction entries with
  | nil => exact .slnil
  | cons e rest ih =>
    simp only [drop]
    split
    · exact .cons _ (List.Sublist.refl rest)
    · exact .cons_cons _ ih

theorem nodup_drop {entries : List (String × α)} (key : String) (h : (keys entries).Nodup) :
    (keys (drop key entries)).Nodup :=
  h.sublist ((drop_sublist key entries).map _)

theorem find?_drop {entries : List (String × α)} (key k : String) (h : (keys entries).Nodup) :
    find? k (drop key entries) = if k = key then none else find? k entries := by
  induction entries with
  | nil => simp [drop, find?]
  | cons e rest ih =>
    simp only [List.map_cons, List.nodup_cons] at h
    simp only [drop]
    split
    · next he =>
      subst he
      by_cases hk : k = e.1
      · subst hk; simpa using find?_eq_none_iff.2 h.1
      · simp [find?, hk, Ne.symm hk]
    · simp only [find?]
      split <;> simp_all

end Entry

/-! ## Ordered maps -/

/-- A list of entries in which no key is repeated. -/
structure OrderedMap (α : Type u) where
  entries : List (String × α)
  nodup : (Entry.keys entries).Nodup

namespace OrderedMap

@[ext] theorem ext {a b : OrderedMap α} (h : a.entries = b.entries) : a = b := by
  cases a; cases b; cases h; rfl

instance [DecidableEq α] : DecidableEq (OrderedMap α) := fun a b =>
  decidable_of_iff (a.entries = b.entries) ⟨ext, fun h => h ▸ rfl⟩

def empty : OrderedMap α := ⟨[], .nil⟩

instance : EmptyCollection (OrderedMap α) := ⟨empty⟩
instance : Inhabited (OrderedMap α) := ⟨empty⟩

def keys (m : OrderedMap α) : List String := Entry.keys m.entries

def values (m : OrderedMap α) : List α := m.entries.map Prod.snd

def size (m : OrderedMap α) : Nat := m.entries.length

def isEmpty (m : OrderedMap α) : Bool := m.entries.isEmpty

def get? (m : OrderedMap α) (key : String) : Option α := Entry.find? key m.entries

def contains (m : OrderedMap α) (key : String) : Bool := (m.get? key).isSome

/-- Writes the value under the key: in the key's place if it has one, else at the end. -/
def insert (m : OrderedMap α) (key : String) (value : α) : OrderedMap α :=
  ⟨Entry.put key value m.entries, Entry.nodup_put key value m.nodup⟩

/-- Removes the key; the others keep their order. -/
def erase (m : OrderedMap α) (key : String) : OrderedMap α :=
  ⟨Entry.drop key m.entries, Entry.nodup_drop key m.nodup⟩

/-- The map after inserting the entries in turn: a repeated key has its first place and its last
    value. -/
def ofList (entries : List (String × α)) : OrderedMap α :=
  entries.foldl (fun m e => m.insert e.1 e.2) empty

/-- The same keys, whatever their order, with values that agree. -/
def agrees (same : α → α → Bool) (a b : OrderedMap α) : Bool :=
  a.size == b.size && a.entries.all fun (key, value) =>
    match b.get? key with
    | some other => same value other
    | none => false

@[simp] theorem get?_empty (key : String) : (empty : OrderedMap α).get? key = none := rfl

theorem get?_insert (m : OrderedMap α) (key k : String) (value : α) :
    (m.insert key value).get? k = if k = key then some value else m.get? k :=
  Entry.find?_put key k value m.entries

theorem get?_erase (m : OrderedMap α) (key k : String) :
    (m.erase key).get? k = if k = key then none else m.get? k :=
  Entry.find?_drop key k m.nodup

end OrderedMap

end GraphWire
