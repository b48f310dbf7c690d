/-!
# `GraphWire.Entry` — lists of named entries

An entry is a name with something behind it. These lists are what the maps are made of.

## Contents
- **`Entry.keys`** and **`Entry.find?`**, the look-up of the first entry with a name.
-/

namespace GraphWire

variable {α : Type u}

namespace Entry

abbrev keys (entries : List (String × α)) : List String := entries.map Prod.fst

/-- The value of the first entry with the key. -/
def find? (key : String) : List (String × α) → Option α
  | [] => none
  | (k, v) :: rest => if k = key then some v else find? key rest

theorem find?_eq_none_iff {key : String} {entries : List (String × α)} :
    find? key entries = none ↔ key ∉ keys entries := by
  induction entries with
  | nil => simp [find?]
  | cons e rest ih => simp only [find?]; split <;> simp_all [eq_comm]

end Entry

end GraphWire
