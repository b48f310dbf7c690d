import GraphWire.Syntax.Lexer

/-!
# `GraphWire.Syntax.Statement` — from tokens to assignments

A text is one or more statements `object.field <- value;`, where the value is a text, a number, or
a non-empty list of one of the two between brackets.

## Contents
- **`Statement`**, one assignment.
- **Pieces.** `takeName`, `takeMark`, `takeValue` read one piece off the tokens; where a piece does
  not stand, the error points at the first token there, or at the end of the text.
- **`takeStatement`** and **`statements`**, all statements of a text.
-/

namespace GraphWire

/-- One assignment of a value to a field of an object. -/
structure Statement where
  object : String
  field : String
  value : Value
  deriving DecidableEq

namespace Statement

/-- What is reported where `expected` should stand but the tokens go on differently; `finish` is the
    end of the text. -/
def unexpected (finish : Position) (expected : Expectation) : List Located → SyntaxError
  | [] => ⟨finish, expected, .endOfInput⟩
  | t :: _ => ⟨t.position, expected, .token t.token⟩

/-! ## Pieces -/

def takeName (finish : Position) (expected : Expectation) :
    List Located → Except SyntaxError (String × List Located)
  | ⟨.name s, _⟩ :: rest => .ok (s, rest)
  | ts => .error (unexpected finish expected ts)

def takeMark (finish : Position) (mark : Token) :
    List Located → Except SyntaxError (List Located)
  | t :: rest =>
    if t.token = mark then .ok rest else .error (unexpected finish (.mark mark) (t :: rest))
  | [] => .error (unexpected finish (.mark mark) [])

/-- The texts that follow in a list, each behind a comma; `read` holds those before, last first. -/
def takeTexts (finish : Position) (read : List String) :
    List Located → Except SyntaxError (List String × List Located)
  | ⟨.comma, _⟩ :: ⟨.text s, _⟩ :: rest => takeTexts finish (s :: read) rest
  | ⟨.comma, _⟩ :: rest => .error (unexpected finish .textItem rest)
  | ts => .ok (read.reverse, ts)

/-- The numbers that follow in a list, each behind a comma; `read` holds those before, last
    first. -/
def takeNumbers (finish : Position) (read : List Number) :
    List Located → Except SyntaxError (List Number × List Located)
  | ⟨.comma, _⟩ :: ⟨.number n, _⟩ :: rest => takeNumbers finish (n :: read) rest
  | ⟨.comma, _⟩ :: rest => .error (unexpected finish .numberItem rest)
  | ts => .ok (read.reverse, ts)

/-- A list behind its opening bracket: the first item decides the kind of the others. -/
def takeList (finish : Position) : List Located → Except SyntaxError (Value × List Located)
  | ⟨.text s, _⟩ :: rest => do
    let (items, rest) ← takeTexts finish [s] rest
    return (.texts items, ← takeMark finish .rightBracket rest)
  | ⟨.number n, _⟩ :: rest => do
    let (items, rest) ← takeNumbers finish [n] rest
    return (.numbers items, ← takeMark finish .rightBracket rest)
  | ts => .error (unexpected finish .listItem ts)

def takeValue (finish : Position) : List Located → Except SyntaxError (Value × List Located)
  | ⟨.text s, _⟩ :: rest => .ok (.text s, rest)
  | ⟨.number n, _⟩ :: rest => .ok (.number n, rest)
  | ⟨.leftBracket, _⟩ :: rest => takeList finish rest
  | ts => .error (unexpected finish .value ts)

/-! ## Statements -/

def takeStatement (finish : Position) (ts : List Located) :
    Except SyntaxError (Statement × List Located) := do
  let (object, ts) ← takeName finish .objectName ts
  let ts ← takeMark finish .dot ts
  let (field, ts) ← takeName finish .fieldName ts
  let ts ← takeMark finish .arrow ts
  let (value, ts) ← takeValue finish ts
  let ts ← takeMark finish .semicolon ts
  return (⟨object, field, value⟩, ts)

theorem length_takeName_lt {finish : Position} {expected : Expectation} {ts rest : List Located}
    {s : String} (h : takeName finish expected ts = .ok (s, rest)) : rest.length < ts.length := by
  unfold takeName at h
  split at h <;> cases h
  simp

theorem length_takeMark_lt {finish : Position} {mark : Token} {ts rest : List Located}
    (h : takeMark finish mark ts = .ok rest) : rest.length < ts.length := by
  unfold takeMark at h
  split at h
  · split at h <;> cases h
    simp
  · cases h

theorem length_takeTexts_le {finish : Position} {read items : List String} {ts rest : List Located}
    (h : takeTexts finish read ts = .ok (items, rest)) : rest.length ≤ ts.length := by
  fun_induction takeTexts finish read ts with
  | case1 read _ s _ rest' ih => have := ih h; simp; omega
  | case2 => cases h
  | case3 => cases h; exact Nat.le_refl _

theorem length_takeNumbers_le {finish : Position} {read items : List Number}
    {ts rest : List Located} (h : takeNumbers finish read ts = .ok (items, rest)) :
    rest.length ≤ ts.length := by
  fun_induction takeNumbers finish read ts with
  | case1 read _ s _ rest' ih => have := ih h; simp; omega
  | case2 => cases h
  | case3 => cases h; exact Nat.le_refl _

/-- The steps of a sequence that succeeded. -/
theorem bind_eq_ok {ε α β : Type} {x : Except ε α} {f : α → Except ε β} {b : β}
    (h : (x >>= f) = .ok b) : ∃ a, x = .ok a ∧ f a = .ok b := by
  cases x with
  | error e => cases h
  | ok a => exact ⟨a, rfl, h⟩

theorem length_takeValue_le {finish : Position} {ts rest : List Located} {v : Value}
    (h : takeValue finish ts = .ok (v, rest)) : rest.length ≤ ts.length := by
  unfold takeValue at h
  split at h
  · cases h; simp
  · cases h; simp
  · next tail =>
    unfold takeList at h
    split at h
    · obtain ⟨⟨items, r⟩, h₁, h⟩ := bind_eq_ok h
      obtain ⟨r', h₂, h⟩ := bind_eq_ok h
      cases h
      have := length_takeTexts_le h₁
      have := length_takeMark_lt h₂
      simp only [List.length_cons]; omega
    · obtain ⟨⟨items, r⟩, h₁, h⟩ := bind_eq_ok h
      obtain ⟨r', h₂, h⟩ := bind_eq_ok h
      cases h
      have := length_takeNumbers_le h₁
      have := length_takeMark_lt h₂
      simp only [List.length_cons]; omega
    · cases h
  · cases h

theorem length_takeStatement_lt {finish : Position} {ts rest : List Located} {s : Statement}
    (h : takeStatement finish ts = .ok (s, rest)) : rest.length < ts.length := by
  obtain ⟨⟨_, _⟩, h₁, h⟩ := bind_eq_ok h
  obtain ⟨_, h₂, h⟩ := bind_eq_ok h
  obtain ⟨⟨_, _⟩, h₃, h⟩ := bind_eq_ok h
  obtain ⟨_, h₄, h⟩ := bind_eq_ok h
  obtain ⟨⟨_, _⟩, h₅, h⟩ := bind_eq_ok h
  obtain ⟨_, h₆, h⟩ := bind_eq_ok h
  cases h
  have := length_takeName_lt h₁
  have := length_takeMark_lt h₂
  have := length_takeName_lt h₃
  have := length_takeMark_lt h₄
  have := length_takeValue_le h₅
  have := length_takeMark_lt h₆
  omega

/-- The statements that the tokens form, behind those already read, which are given last first. -/
def takeStatements (finish : Position) (read : List Statement) (ts : List Located) :
    Except SyntaxError (List Statement) :=
  if ts.isEmpty then .ok read.reverse
  else
    match _h : takeStatement finish ts with
    | .error e => .error e
    | .ok (s, rest) => takeStatements finish (s :: read) rest
  termination_by ts.length
  decreasing_by exact length_takeStatement_lt _h

end Statement

/-- The statements of a text, of which there must be one at least. -/
def statements (text : String) : Except SyntaxError (List Statement) := do
  let (ts, finish) ← tokenize text
  if ts.isEmpty then .error (Statement.unexpected finish .assignment ts)
  else Statement.takeStatements finish [] ts

end GraphWire
