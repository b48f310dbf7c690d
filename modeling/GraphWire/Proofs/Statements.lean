import GraphWire.Config.Text
import GraphWire.Proofs.Tokens

/-!
# `Proofs.Statements` — statements and their tokens

A statement is a fixed sequence of tokens, so reading statements is a question of tokens alone: the
places matter only for errors. What can be read back are the statements whose names are names, whose
numbers are finite, whose texts do not end in a backslash and whose lists have items; and nothing
else is ever read.

## Contents
- **`Begins`**, said of located tokens, and the tokens of values and statements.
- **Reading.** `takeStatement_iff` and `statements_iff`.
- **`Statement.Writable`**; `writable_of_statements`: what is read could be written.
- **Writing.** `writeStatements_iff` and `exists_of_writeStatements_error`, and **`statements_lines`**: what is
  written is read back.
-/

namespace GraphWire

/-! ## Located tokens -/

/-- The located tokens begin with these tokens, and go on with the rest. -/
def Begins (ts : List Located) (tokens : List Token) (rest : List Located) : Prop :=
  ∃ located, ts = located ++ rest ∧ located.map Located.token = tokens

theorem begins_nil_iff {ts rest : List Located} : Begins ts [] rest ↔ ts = rest := by
  constructor
  · rintro ⟨located, rfl, hnil⟩
    rw [List.map_eq_nil_iff.1 hnil, List.nil_append]
  · rintro rfl
    exact ⟨[], rfl, rfl⟩

theorem begins_cons_iff {ts rest : List Located} {t : Token} {tokens : List Token} :
    Begins ts (t :: tokens) rest ↔ ∃ p ts', ts = ⟨t, p⟩ :: ts' ∧ Begins ts' tokens rest := by
  constructor
  · rintro ⟨located, rfl, htokens⟩
    obtain ⟨⟨t', p⟩, located', rfl, rfl, hrest⟩ := List.map_eq_cons_iff.1 htokens
    exact ⟨p, located' ++ rest, rfl, located', rfl, hrest⟩
  · rintro ⟨p, ts', rfl, located, rfl, htokens⟩
    exact ⟨⟨t, p⟩ :: located, rfl, by rw [List.map_cons, htokens]⟩

theorem begins_append_iff {ts rest : List Located} {a b : List Token} :
    Begins ts (a ++ b) rest ↔ ∃ middle, Begins ts a middle ∧ Begins middle b rest := by
  induction a generalizing ts with
  | nil => simp [begins_nil_iff]
  | cons t a ih =>
    simp only [List.cons_append, begins_cons_iff, ih]
    constructor
    · rintro ⟨p, ts', rfl, middle, ha, hb⟩
      exact ⟨middle, ⟨p, ts', rfl, ha⟩, hb⟩
    · rintro ⟨middle, ⟨p, ts', rfl, ha⟩, hb⟩
      exact ⟨p, ts', rfl, middle, ha, hb⟩

/-- A whole list begins with its own tokens. -/
theorem begins_all_iff {ts : List Located} {tokens : List Token} :
    Begins ts tokens [] ↔ ts.map Located.token = tokens := by
  constructor
  · rintro ⟨located, rfl, htokens⟩
    rwa [List.append_nil]
  · intro htokens
    exact ⟨ts, (List.append_nil ts).symm, htokens⟩

/-- The next token is another one, or there is none. -/
def NotNext (t : Token) (ts : List Located) : Prop := ∀ l, ts.head? = some l → l.token ≠ t

theorem Begins.notNext {t u : Token} {tokens : List Token} {ts rest : List Located}
    (h : Begins ts (u :: tokens) rest) (hne : u ≠ t) : NotNext t ts := by
  obtain ⟨p, ts', rfl, -⟩ := begins_cons_iff.1 h
  intro l hl
  cases hl
  exact hne

/-! ## The tokens of values and statements -/

/-- Further items of a list, each behind a comma. -/
def moreTokens (items : List Token) : List Token := items.flatMap fun t => [.comma, t]

/-- The items of a list between brackets, with commas between them. -/
def listTokens : List Token → List Token
  | [] => [.leftBracket, .rightBracket]
  | t :: ts => .leftBracket :: t :: (moreTokens ts ++ [.rightBracket])

namespace Value

def tokens : Value → List Token
  | text s => [.text s]
  | number n => [.number n]
  | texts items => listTokens (items.map .text)
  | numbers items => listTokens (items.map .number)

end Value

namespace Statement

def tokens (s : Statement) : List Token :=
  .name s.object :: .dot :: .name s.field :: .arrow :: (s.value.tokens ++ [.semicolon])

/-! ## Reading -/

variable {finish : Position} {ts rest : List Located}

theorem bind_eq_ok_iff {ε α β : Type} {x : Except ε α} {f : α → Except ε β} {b : β} :
    (x >>= f) = .ok b ↔ ∃ a, x = .ok a ∧ f a = .ok b := by
  constructor
  · intro h
    exact bind_eq_ok h
  · rintro ⟨a, rfl, h⟩
    exact h

theorem takeName_iff {expected : Expectation} {name : String} :
    takeName finish expected ts = .ok (name, rest) ↔ Begins ts [.name name] rest := by
  simp only [begins_cons_iff, begins_nil_iff]
  constructor
  · intro h
    unfold takeName at h
    split at h
    · next p _ =>
      cases h
      exact ⟨_, _, rfl, rfl⟩
    · cases h
  · rintro ⟨p, ts', rfl, rfl⟩
    rfl

theorem takeMark_iff {mark : Token} :
    takeMark finish mark ts = .ok rest ↔ Begins ts [mark] rest := by
  simp only [begins_cons_iff, begins_nil_iff]
  constructor
  · intro h
    unfold takeMark at h
    split at h
    · next t _ =>
      split at h
      · next hmark =>
        cases h
        exact ⟨t.position, _, by rw [← hmark], rfl⟩
      · cases h
    · cases h
  · rintro ⟨p, ts', rfl, rfl⟩
    exact if_pos rfl

/-- The items that follow in a list, whatever they are: `item?` tells which tokens are such. -/
def takeItems {α : Type} (item? : Token → Option α) (expected : Expectation) (finish : Position)
    (read : List α) : List Located → Except SyntaxError (List α × List Located)
  | ⟨.comma, _⟩ :: rest =>
    match rest with
    | [] => .error (unexpected finish expected [])
    | t :: rest =>
      match item? t.token with
      | some a => takeItems item? expected finish (a :: read) rest
      | none => .error (unexpected finish expected (t :: rest))
  | ts => .ok (read.reverse, ts)

theorem takeItems_of_notNext {α : Type} {item? : Token → Option α} {expected : Expectation}
    (h : NotNext .comma ts) (read : List α) :
    takeItems item? expected finish read ts = .ok (read.reverse, ts) := by
  unfold takeItems
  split
  · exact absurd rfl (h _ rfl)
  · rfl

/-- Behind a comma there must be an item. -/
theorem takeItems_of_none {α : Type} {item? : Token → Option α} {expected : Expectation}
    {p : Position} (h : ∀ l tail, rest = l :: tail → item? l.token = none) (read : List α) :
    takeItems item? expected finish read (⟨.comma, p⟩ :: rest)
      = .error (unexpected finish expected rest) := by
  cases rest with
  | nil => rfl
  | cons l tail =>
    rw [takeItems]
    simp only [h l tail rfl]

/-- **Items are read exactly where they stand behind commas**, as long as there is a comma. -/
theorem takeItems_iff {α : Type} {item? : Token → Option α} {token : α → Token}
    (hitem : ∀ t a, item? t = some a ↔ t = token a) {expected : Expectation} {read items : List α} :
    takeItems item? expected finish read ts = .ok (items, rest) ↔
      ∃ more, items = read.reverse ++ more ∧ Begins ts (moreTokens (more.map token)) rest ∧
        NotNext .comma rest := by
  constructor
  · intro h
    -- each step of the reader takes a comma and an item, or ends
    fun_induction takeItems item? expected finish read ts with
    | case1 => cases h
    | case2 read p t tail a ha ih =>
      obtain ⟨more, hitems, hbegins, hnext⟩ := ih h
      refine ⟨a :: more, ?_, ?_, hnext⟩
      · rw [hitems, List.reverse_cons, List.append_assoc]
        rfl
      · have htoken : token a = t.token := ((hitem _ _).1 ha).symm
        exact begins_cons_iff.2 ⟨_, _, rfl, begins_cons_iff.2 ⟨t.position, _, by rw [htoken], hbegins⟩⟩
    | case3 => cases h
    | case4 read ts hcomma =>
      cases h
      refine ⟨[], (List.append_nil _).symm, begins_nil_iff.2 rfl, ?_⟩
      intro l hl heq
      obtain ⟨tail, rfl⟩ := List.head?_eq_some_iff.1 hl
      obtain ⟨t, p⟩ := l
      cases heq
      exact hcomma p tail rfl
  · rintro ⟨more, rfl, hbegins, hnext⟩
    induction more generalizing read ts with
    | nil => rw [begins_nil_iff.1 hbegins, takeItems_of_notNext hnext, List.append_nil]
    | cons a more ih =>
      obtain ⟨p, ts', rfl, htail⟩ := begins_cons_iff.1 hbegins
      obtain ⟨q, ts'', rfl, hmore⟩ := begins_cons_iff.1 htail
      rw [takeItems]
      simp only [(hitem _ _).2 rfl, ih hmore, List.reverse_cons, List.append_assoc]
      rfl

/-- The text that a token is. -/
def text? : Token → Option String
  | .text s => some s
  | _ => none

/-- The number that a token is. -/
def number? : Token → Option Number
  | .number n => some n
  | _ => none

theorem text?_eq_some_iff (t : Token) (s : String) : text? t = some s ↔ t = .text s := by
  cases t <;> simp [text?]

theorem number?_eq_some_iff (t : Token) (n : Number) : number? t = some n ↔ t = .number n := by
  cases t <;> simp [number?]

theorem takeTexts_eq (read : List String) (ts : List Located) :
    takeTexts finish read ts = takeItems text? .textItem finish read ts := by
  fun_induction takeTexts finish read ts with
  | case1 read p s q rest ih => rw [ih]; rfl
  | case2 read p rest htext =>
    rw [takeItems_of_none]
    rintro ⟨t, q⟩ tail rfl
    cases ht : text? t with
    | none => rfl
    | some s =>
      cases (text?_eq_some_iff t s).1 ht
      exact (htext s q tail rfl).elim
  | case3 read ts htext hcomma =>
    rw [takeItems]
    exact hcomma

theorem takeNumbers_eq (read : List Number) (ts : List Located) :
    takeNumbers finish read ts = takeItems number? .numberItem finish read ts := by
  fun_induction takeNumbers finish read ts with
  | case1 read p n q rest ih => rw [ih]; rfl
  | case2 read p rest hnumber =>
    rw [takeItems_of_none]
    rintro ⟨t, q⟩ tail rfl
    cases ht : number? t with
    | none => rfl
    | some n =>
      cases (number?_eq_some_iff t n).1 ht
      exact (hnumber n q tail rfl).elim
  | case3 read ts hnumber hcomma =>
    rw [takeItems]
    exact hcomma

/-- Items up to the closing bracket. -/
theorem takeItems_close_iff {α : Type} {item? : Token → Option α} {token : α → Token}
    (hitem : ∀ t a, item? t = some a ↔ t = token a) {expected : Expectation} {first : α}
    {make : List α → Value} {v : Value} :
    (do
      let (items, rest) ← takeItems item? expected finish [first] ts
      return (make items, ← takeMark finish .rightBracket rest)) = .ok (v, rest) ↔
      ∃ more, v = make (first :: more) ∧
        Begins ts (moreTokens (more.map token) ++ [.rightBracket]) rest := by
  rw [bind_eq_ok_iff]
  constructor
  · rintro ⟨⟨items, middle⟩, hitems, hmark⟩
    obtain ⟨more, rfl, hmore, -⟩ := (takeItems_iff hitem).1 hitems
    obtain ⟨rest', hmark, heq⟩ := bind_eq_ok hmark
    cases heq
    exact ⟨more, rfl, begins_append_iff.2 ⟨middle, hmore, takeMark_iff.1 hmark⟩⟩
  · rintro ⟨more, rfl, hbegins⟩
    obtain ⟨middle, hmore, hmark⟩ := begins_append_iff.1 hbegins
    have hnext : NotNext .comma middle := hmark.notNext (by decide)
    refine ⟨⟨first :: more, middle⟩, (takeItems_iff hitem).2 ⟨more, rfl, hmore, hnext⟩, ?_⟩
    exact bind_eq_ok_iff.2 ⟨rest, takeMark_iff.2 hmark, rfl⟩

/-- **A value is read exactly where its tokens stand**, if it is not a list without items. -/
theorem takeValue_iff {v : Value} :
    takeValue finish ts = .ok (v, rest) ↔ v.isEmptyList = false ∧ Begins ts v.tokens rest := by
  constructor
  · intro h
    unfold takeValue at h
    split at h
    · cases h
      exact ⟨rfl, begins_cons_iff.2 ⟨_, _, rfl, begins_nil_iff.2 rfl⟩⟩
    · cases h
      exact ⟨rfl, begins_cons_iff.2 ⟨_, _, rfl, begins_nil_iff.2 rfl⟩⟩
    · -- the first item tells which kind of list it is
      next p tail =>
      unfold takeList at h
      split at h
      · next s q tail =>
        rw [takeTexts_eq] at h
        obtain ⟨more, rfl, hbegins⟩ := (takeItems_close_iff text?_eq_some_iff).1 h
        exact ⟨rfl, begins_cons_iff.2 ⟨p, _, rfl, begins_cons_iff.2 ⟨q, _, rfl, hbegins⟩⟩⟩
      · next n q tail =>
        rw [takeNumbers_eq] at h
        obtain ⟨more, rfl, hbegins⟩ := (takeItems_close_iff number?_eq_some_iff).1 h
        exact ⟨rfl, begins_cons_iff.2 ⟨p, _, rfl, begins_cons_iff.2 ⟨q, _, rfl, hbegins⟩⟩⟩
      · cases h
    · cases h
  · rintro ⟨hitems, hbegins⟩
    cases v with
    | text s =>
      obtain ⟨p, ts', rfl, htail⟩ := begins_cons_iff.1 hbegins
      rw [begins_nil_iff.1 htail]
      rfl
    | number n =>
      obtain ⟨p, ts', rfl, htail⟩ := begins_cons_iff.1 hbegins
      rw [begins_nil_iff.1 htail]
      rfl
    | texts items =>
      cases items with
      | nil => cases hitems
      | cons s more =>
        obtain ⟨p, ts', rfl, hfirst⟩ := begins_cons_iff.1 hbegins
        obtain ⟨q, ts'', rfl, hmore⟩ := begins_cons_iff.1 hfirst
        rw [takeValue, takeList, takeTexts_eq]
        exact (takeItems_close_iff text?_eq_some_iff).2 ⟨more, rfl, hmore⟩
    | numbers items =>
      cases items with
      | nil => cases hitems
      | cons n more =>
        obtain ⟨p, ts', rfl, hfirst⟩ := begins_cons_iff.1 hbegins
        obtain ⟨q, ts'', rfl, hmore⟩ := begins_cons_iff.1 hfirst
        rw [takeValue, takeList, takeNumbers_eq]
        exact (takeItems_close_iff number?_eq_some_iff).2 ⟨more, rfl, hmore⟩

/-- **A statement is read exactly where its tokens stand.** -/
theorem takeStatement_iff {s : Statement} :
    takeStatement finish ts = .ok (s, rest) ↔
      s.value.isEmptyList = false ∧ Begins ts s.tokens rest := by
  obtain ⟨object, field, value⟩ := s
  have htokens : tokens ⟨object, field, value⟩ = [.name object] ++ ([.dot] ++ ([.name field] ++
    ([.arrow] ++ (value.tokens ++ [.semicolon])))) := rfl
  rw [htokens]
  constructor
  · intro h
    obtain ⟨⟨_, _⟩, hobject, h⟩ := bind_eq_ok h
    obtain ⟨_, hdot, h⟩ := bind_eq_ok h
    obtain ⟨⟨_, _⟩, hfield, h⟩ := bind_eq_ok h
    obtain ⟨_, harrow, h⟩ := bind_eq_ok h
    obtain ⟨⟨_, _⟩, hvalue, h⟩ := bind_eq_ok h
    obtain ⟨_, hsemicolon, h⟩ := bind_eq_ok h
    cases h
    obtain ⟨hitems, hvalue⟩ := takeValue_iff.1 hvalue
    simp only [begins_append_iff]
    exact ⟨hitems, _, takeName_iff.1 hobject, _, takeMark_iff.1 hdot, _, takeName_iff.1 hfield, _,
      takeMark_iff.1 harrow, _, hvalue, takeMark_iff.1 hsemicolon⟩
  · rintro ⟨hitems, hbegins⟩
    simp only [begins_append_iff] at hbegins
    obtain ⟨_, hobject, _, hdot, _, hfield, _, harrow, _, hvalue, hsemicolon⟩ := hbegins
    refine bind_eq_ok_iff.2 ⟨(object, _), takeName_iff.2 hobject, ?_⟩
    refine bind_eq_ok_iff.2 ⟨_, takeMark_iff.2 hdot, ?_⟩
    refine bind_eq_ok_iff.2 ⟨(field, _), takeName_iff.2 hfield, ?_⟩
    refine bind_eq_ok_iff.2 ⟨_, takeMark_iff.2 harrow, ?_⟩
    refine bind_eq_ok_iff.2 ⟨(value, _), takeValue_iff.2 ⟨hitems, hvalue⟩, ?_⟩
    exact bind_eq_ok_iff.2 ⟨_, takeMark_iff.2 hsemicolon, rfl⟩

/-- **Statements are read exactly where their tokens are all there is.** -/
theorem takeStatements_iff {read out : List Statement} :
    takeStatements finish read ts = .ok out ↔
      ∃ more : List Statement, out = read.reverse ++ more ∧
        (∀ s ∈ more, s.value.isEmptyList = false) ∧
        ts.map Located.token = more.flatMap tokens := by
  constructor
  · intro h
    fun_induction takeStatements finish read ts with
    | case1 read ts hnil =>
      cases h
      rw [List.isEmpty_iff] at hnil
      refine ⟨[], (List.append_nil _).symm, ?_, ?_⟩
      · intro s hs
        cases hs
      · rw [hnil]
        rfl
    | case2 => cases h
    | case3 read ts hne s tail hs ih =>
      obtain ⟨more, hout, hitems, htokens⟩ := ih h
      obtain ⟨hitem, hbegins⟩ := takeStatement_iff.1 hs
      obtain ⟨located, rfl, hlocated⟩ := hbegins
      refine ⟨s :: more, ?_, ?_, ?_⟩
      · rw [hout, List.reverse_cons, List.append_assoc]
        rfl
      · exact List.forall_mem_cons.2 ⟨hitem, hitems⟩
      · rw [List.map_append, hlocated, htokens, List.flatMap_cons]
  · -- the other way the induction is on the statements, since these say where each one ends
    rintro ⟨more, rfl, hitems, htokens⟩
    induction more generalizing read ts with
    | nil =>
      rw [List.map_eq_nil_iff.1 htokens, takeStatements, List.append_nil]
      rfl
    | cons s more ih =>
      obtain ⟨hitem, hitems⟩ := List.forall_mem_cons.1 hitems
      obtain ⟨middle, hs, hmore⟩ := begins_append_iff.1 (begins_all_iff.2 htokens)
      have hread : takeStatement finish ts = .ok (s, middle) := takeStatement_iff.2 ⟨hitem, hs⟩
      have hne : ts ≠ [] := by
        rintro rfl
        obtain ⟨_, _, hts, _⟩ := begins_cons_iff.1 hs
        cases hts
      rw [takeStatements, if_neg (fun h => hne (List.isEmpty_iff.1 h))]
      split
      · next hfault =>
        rw [hread] at hfault
        cases hfault
      · next hok =>
        rw [hread] at hok
        cases hok
        rw [ih hitems (begins_all_iff.1 hmore), List.reverse_cons, List.append_assoc]
        rfl

end Statement

/-- **What statements a text has depends on its tokens alone.** -/
theorem statements_iff {text : String} {stmts : List Statement} :
    statements text = .ok stmts ↔
      stmts ≠ [] ∧ (∀ s ∈ stmts, s.value.isEmptyList = false) ∧
      ∃ located finish, tokenize text = .ok (located, finish) ∧
        located.map Located.token = stmts.flatMap Statement.tokens := by
  rw [statements, Statement.bind_eq_ok_iff]
  constructor
  · rintro ⟨⟨located, finish⟩, htokenize, h⟩
    dsimp only at h
    split at h
    · cases h
    · next hne =>
      obtain ⟨more, rfl, hitems, htokens⟩ := Statement.takeStatements_iff.1 h
      refine ⟨?_, hitems, located, finish, htokenize, htokens⟩
      rintro rfl
      exact hne (List.isEmpty_iff.2 (List.map_eq_nil_iff.1 htokens))
  · rintro ⟨hne, hitems, located, finish, htokenize, htokens⟩
    refine ⟨(located, finish), htokenize, ?_⟩
    have hlocated : ¬ located.isEmpty = true := by
      intro hnil
      rw [List.isEmpty_iff.1 hnil] at htokens
      cases stmts with
      | nil => exact hne rfl
      | cons s stmts => cases htokens
    dsimp only
    rw [if_neg hlocated]
    exact Statement.takeStatements_iff.2 ⟨stmts, rfl, hitems, htokens⟩

/-! ## Statements that can be written -/

/-- Whether the value has a written form that is read back. -/
def Value.Writable : Value → Prop
  | .text s => isUnquotable s = false
  | .number n => n.isFinite = true
  | .texts items => items ≠ [] ∧ ∀ s ∈ items, isUnquotable s = false
  | .numbers items => items ≠ [] ∧ ∀ n ∈ items, n.isFinite = true

instance (v : Value) : Decidable v.Writable := by
  cases v <;> unfold Value.Writable <;> infer_instance

/-- Whether the statement has a written form that is read back. -/
structure Statement.Writable (s : Statement) : Prop where
  object : isName s.object = true
  field : isName s.field = true
  value : s.value.Writable

theorem Value.Writable.isEmptyList {v : Value} (h : v.Writable) : v.isEmptyList = false := by
  cases v with
  | text s => rfl
  | number n => rfl
  | texts items =>
    cases items with
    | nil => exact absurd rfl h.1
    | cons s items => rfl
  | numbers items =>
    cases items with
    | nil => exact absurd rfl h.1
    | cons n items => rfl

theorem Value.Writable.unquotable? {v : Value} (h : v.Writable) : v.unquotable? = none := by
  cases v with
  | text s => exact if_neg (Bool.eq_false_iff.1 h)
  | number n => rfl
  | texts items => exact List.find?_eq_none.2 fun s hs => Bool.eq_false_iff.1 (h.2 s hs)
  | numbers items => rfl

/-! ### What is read could be written -/

theorem Token.Spells.isName {s : String} {cs : List Char} (h : (Token.name s).Spells cs) :
    isName s = true := by
  cases h with
  | name h => exact h

theorem Token.Spells.isUnquotable {s : String} {cs : List Char} (h : (Token.text s).Spells cs) :
    Value.isUnquotable s = false := by
  cases h with
  | text h => exact h

theorem Token.Spells.isFinite {n : Number} {cs : List Char} (h : (Token.number n).Spells cs) :
    n.isFinite = true := by
  cases h with
  | number _ h => exact h

theorem mem_listTokens {items : List Token} {t : Token} (h : t ∈ items) : t ∈ listTokens items := by
  cases items with
  | nil => cases h
  | cons u items =>
    rcases List.mem_cons.1 h with rfl | h
    · simp [listTokens]
    · simp only [listTokens, moreTokens, List.mem_cons, List.mem_append, List.mem_flatMap]
      exact Or.inr (Or.inr (Or.inl ⟨t, h, by simp⟩))

/-- A value whose tokens have spellings, and that is not a list without items, could be written. -/
theorem Value.writable_of_spells {v : Value} (hitems : v.isEmptyList = false)
    (h : ∀ t ∈ v.tokens, ∃ cs, t.Spells cs) : v.Writable := by
  cases v with
  | text s =>
    obtain ⟨cs, hcs⟩ := h _ List.mem_cons_self
    exact hcs.isUnquotable
  | number n =>
    obtain ⟨cs, hcs⟩ := h _ List.mem_cons_self
    exact hcs.isFinite
  | texts items =>
    constructor
    · rintro rfl
      cases hitems
    intro s hs
    obtain ⟨cs, hcs⟩ := h (.text s) (mem_listTokens (List.mem_map_of_mem hs))
    exact hcs.isUnquotable
  | numbers items =>
    constructor
    · rintro rfl
      cases hitems
    intro n hn
    obtain ⟨cs, hcs⟩ := h (.number n) (mem_listTokens (List.mem_map_of_mem hn))
    exact hcs.isFinite

/-- **What is read could be written.** -/
theorem writable_of_statements {text : String} {stmts : List Statement}
    (h : statements text = .ok stmts) : ∀ s ∈ stmts, s.Writable := by
  obtain ⟨-, hitems, located, finish, htokenize, htokens⟩ := statements_iff.1 h
  have hspells : ∀ t ∈ stmts.flatMap Statement.tokens, ∃ cs, t.Spells cs := by
    rw [← htokens]
    intro t ht
    obtain ⟨l, hl, rfl⟩ := List.mem_map.1 ht
    exact spells_of_tokenize htokenize l hl
  intro s hs
  have htoken : ∀ t ∈ s.tokens, ∃ cs, t.Spells cs :=
    fun t ht => hspells t (List.mem_flatMap.2 ⟨s, hs, ht⟩)
  obtain ⟨_, hobject⟩ := htoken (.name s.object) (by simp [Statement.tokens])
  obtain ⟨_, hfield⟩ := htoken (.name s.field) (by simp [Statement.tokens])
  refine ⟨hobject.isName, hfield.isName, Value.writable_of_spells (hitems s hs) ?_⟩
  intro t ht
  exact htoken t (by simp [Statement.tokens, ht])

/-! ### What is written is read back -/

section Written

variable {rest : List Char}

theorem Token.parted_number {n : Number} {c : Char} (hc : Numeral.mayContinue c = false) :
    (Token.number n).Parted (c :: rest) := stops_cons.2 hc

theorem Lexes.cons_blank {c : Char} (hc : isBlank c = true) {cs : List Char} {ts : List Token}
    (h : Lexes cs ts rest) : Lexes (c :: cs) ts rest := (Lexes.blank hc cs).trans h

theorem Lexes.cons_token {t : Token} {spelling cs : List Char} {ts : List Token}
    (ht : t.Spells spelling) (hparted : t.Parted cs) (h : Lexes cs ts rest) :
    Lexes (spelling ++ cs) (t :: ts) rest := (Lexes.token ht hparted).trans h

/-- A list in its written form goes on with its tokens, if its items do with theirs. -/
theorem lexes_bracketed {α : Type} {token : α → Token} {spelled : α → String} {items : List α}
    (hne : items ≠ []) (hspells : ∀ a ∈ items, (token a).Spells (spelled a).toList)
    (hparted : ∀ a c cs, c = ',' ∨ c = ']' → (token a).Parted (c :: cs)) :
    Lexes ((Value.bracketed (items.map spelled)).toList ++ rest) (listTokens (items.map token))
      rest := by
  have hseparator : ", ".toList = [','] ++ [' '] := rfl
  -- the items up to the closing bracket
  have hitems : ∀ (a : α) (more : List α),
      (∀ b ∈ a :: more, (token b).Spells (spelled b).toList) →
      Lexes ((", ".intercalate ((a :: more).map spelled)).toList ++ ']' :: rest)
        (token a :: (moreTokens (more.map token) ++ [.rightBracket])) rest := by
    intro a more hspells
    induction more generalizing a with
    | nil =>
      rw [List.map_singleton, String.intercalate_singleton]
      exact .cons_token (hspells a List.mem_cons_self) (hparted a _ _ (Or.inr rfl))
        (.token .rightBracket trivial)
    | cons b more ih =>
      obtain ⟨ha, hmore⟩ := List.forall_mem_cons.1 hspells
      rw [List.map_cons, List.map_cons, String.intercalate_cons_cons, ← List.map_cons,
        String.toList_append, String.toList_append, hseparator]
      simp only [List.append_assoc]
      exact .cons_token ha (hparted a _ _ (Or.inl rfl))
        (.cons_token .comma trivial (.cons_blank (by decide) (ih b hmore)))
  cases items with
  | nil => exact absurd rfl hne
  | cons a more =>
    -- the bracket, and then the items
    rw [Value.bracketed, String.toList_append, String.toList_append, List.append_assoc,
      List.append_assoc]
    exact .cons_token .leftBracket trivial (hitems a more hspells)

theorem lexes_value {v : Value} (h : v.Writable) :
    Lexes (v.written.toList ++ ';' :: rest) v.tokens (';' :: rest) := by
  cases v with
  | text s => exact .token (.text h) trivial
  | number n => exact .token (.number_text h) (Token.parted_number (by decide))
  | texts items =>
    exact lexes_bracketed h.1 (fun s hs => .text (h.2 s hs)) fun _ _ _ _ => trivial
  | numbers items =>
    apply lexes_bracketed h.1 (fun n hn => .number_text (h.2 n hn))
    intro n c cs hc
    rcases hc with rfl | rfl <;> exact Token.parted_number (by decide)

theorem stops_isDigit_of_isName {name : String} (h : isName name = true) (cs : List Char) :
    Stops Char.isDigit (name.toList ++ cs) := by
  unfold isName at h
  split at h
  · cases h
  · next c tail hname =>
    rw [hname]
    exact stops_cons.2 (not_isDigit_of_isNameStart (Bool.and_eq_true_iff.1 h).1).1

/-- **A statement in its written form goes on with its tokens**, whatever follows on the next line. -/
theorem lexes_display {s : Statement} (h : s.Writable) :
    Lexes ((s.display ++ "\n").toList ++ rest) s.tokens rest := by
  have hline : (s.display ++ "\n").toList ++ rest = s.object.toList ++ (['.'] ++ (s.field.toList ++
      ' ' :: (['<', '-'] ++ ' ' :: (s.value.written.toList ++ ';' :: '\n' :: rest)))) := by
    simp [Statement.display]
  rw [hline]
  refine .cons_token (.name h.object) (stops_cons.2 (by decide)) ?_
  refine .cons_token .dot (stops_isDigit_of_isName h.field _) ?_
  refine .cons_token (.name h.field) (stops_cons.2 (by decide)) ?_
  refine .cons_blank (by decide) (.cons_token .arrow trivial (.cons_blank (by decide) ?_))
  refine (lexes_value h.value).trans ?_
  exact Lexes.cons_token .semicolon trivial (.blank (by decide) rest)

/-- The statements in their written form, one a line. -/
def Statement.lines (stmts : List Statement) : String :=
  String.join (stmts.map fun s => s.display ++ "\n")

theorem Statement.toList_lines_cons (s : Statement) (stmts : List Statement) :
    (lines (s :: stmts)).toList = (s.display ++ "\n").toList ++ (lines stmts).toList := by
  rw [lines, List.map_cons, String.join_cons, String.toList_append, lines]

theorem lexes_lines {stmts : List Statement} (h : ∀ s ∈ stmts, s.Writable) :
    Lexes (Statement.lines stmts).toList (stmts.flatMap Statement.tokens) [] := by
  induction stmts with
  | nil => exact .refl []
  | cons s stmts ih =>
    obtain ⟨hs, hstmts⟩ := List.forall_mem_cons.1 h
    rw [Statement.toList_lines_cons, List.flatMap_cons]
    exact (lexes_display hs).trans (ih hstmts)

end Written

/-- **What is written is read back**, statement by statement. -/
theorem statements_lines {stmts : List Statement} (hne : stmts ≠ [])
    (h : ∀ s ∈ stmts, s.Writable) :
    statements (Statement.lines stmts) = .ok stmts := by
  obtain ⟨located, finish, htokenize, htokens⟩ := (lexes_lines h).tokenize
  exact statements_iff.2 ⟨hne, fun s hs => (h s hs).value.isEmptyList, located, finish, htokenize,
    htokens⟩

theorem Statement.written_iff {s : Statement} {line : String} :
    s.written = .ok line ↔ s.value.unquotable? = none ∧ line = s.display := by
  rw [Statement.written]
  cases s.value.unquotable? with
  | none =>
    constructor
    · intro h
      exact ⟨rfl, (Except.ok.inj h).symm⟩
    · rintro ⟨-, rfl⟩
      rfl
  | some text =>
    constructor
    · intro h
      cases h
    · rintro ⟨h, -⟩
      cases h

theorem Statement.mapM_written_iff {stmts : List Statement} {lines : List String} :
    stmts.mapM Statement.written = .ok lines ↔
      (∀ s ∈ stmts, s.value.unquotable? = none) ∧ lines = stmts.map Statement.display := by
  induction stmts generalizing lines with
  | nil =>
    constructor
    · intro h
      cases h
      refine ⟨?_, rfl⟩
      intro s hs
      cases hs
    · rintro ⟨-, rfl⟩
      rfl
  | cons s stmts ih =>
    rw [List.mapM_cons, List.forall_mem_cons, List.map_cons]
    constructor
    · intro h
      obtain ⟨line, hline, h⟩ := bind_eq_ok h
      obtain ⟨others, hothers, h⟩ := bind_eq_ok h
      cases h
      obtain ⟨hs, rfl⟩ := written_iff.1 hline
      obtain ⟨hstmts, rfl⟩ := ih.1 hothers
      exact ⟨⟨hs, hstmts⟩, rfl⟩
    · rintro ⟨⟨hs, hstmts⟩, rfl⟩
      refine bind_eq_ok_iff.2 ⟨_, written_iff.2 ⟨hs, rfl⟩, ?_⟩
      exact bind_eq_ok_iff.2 ⟨_, ih.2 ⟨hstmts, rfl⟩, rfl⟩

/-- **Statements are written one a line**, if the texts in them can be quoted. -/
theorem writeStatements_iff {stmts : List Statement} {text : String} :
    writeStatements stmts = .ok text ↔
      (∀ s ∈ stmts, s.value.unquotable? = none) ∧
      text = Statement.lines stmts := by
  rw [writeStatements, Statement.bind_eq_ok_iff]
  constructor
  · rintro ⟨lines, hlines, h⟩
    obtain ⟨hstmts, rfl⟩ := Statement.mapM_written_iff.1 hlines
    rw [List.map_map] at h
    exact ⟨hstmts, (Except.ok.inj h).symm⟩
  · rintro ⟨hstmts, rfl⟩
    refine ⟨_, Statement.mapM_written_iff.2 ⟨hstmts, rfl⟩, ?_⟩
    rw [List.map_map]
    rfl

theorem exists_mem_of_mapM_error {ε α β : Type} {f : α → Except ε β} {items : List α} {e : ε}
    (h : items.mapM f = .error e) : ∃ x ∈ items, f x = .error e := by
  induction items with
  | nil => cases h
  | cons x items ih =>
    rw [List.mapM_cons] at h
    cases hx : f x with
    | error fault =>
      rw [hx] at h
      cases h
      exact ⟨x, List.mem_cons_self, hx⟩
    | ok y =>
      rw [hx] at h
      cases hrest : items.mapM f with
      | error fault =>
        rw [hrest] at h
        cases h
        obtain ⟨x', hmem, hx'⟩ := ih hrest
        exact ⟨x', List.mem_cons_of_mem _ hmem, hx'⟩
      | ok ys =>
        rw [hrest] at h
        cases h

/-- What is reported of statements that cannot be written is a text in one of them that cannot be quoted. -/
theorem exists_of_writeStatements_error {stmts : List Statement} {e : ConfigError}
    (h : writeStatements stmts = .error e) :
    ∃ s ∈ stmts, ∃ text, s.value.unquotable? = some text ∧ e = .unrepresentable s.object s.field text := by
  rw [writeStatements] at h
  cases hlines : stmts.mapM Statement.written with
  | ok lines =>
    rw [hlines] at h
    cases h
  | error fault =>
    rw [hlines] at h
    cases h
    obtain ⟨s, hmem, hs⟩ := exists_mem_of_mapM_error hlines
    rw [Statement.written] at hs
    split at hs
    · next text htext =>
      cases hs
      exact ⟨s, hmem, text, htext, rfl⟩
    · cases hs

end GraphWire
