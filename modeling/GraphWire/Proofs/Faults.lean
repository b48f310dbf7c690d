import GraphWire.Proofs.Canonical
import Mathlib.Computability.Language

/-!
# `Proofs.Faults` — where a syntax error points

A syntax error is about the first token with which the text can no longer become a text that is read, whatever
follows; the end of the text counts as a token. The reader commits to nothing too early: up to that token there
is a way to go on. Neither does it go on too long: no piece of the grammar is the beginning of another such
piece, so when one is read it is the only one that could be.

## Contents
- **Beginnings.** `Begun` and `Possible`, said of the words of a language; `PrefixFree`, and
  `Possible.of_mul`.
- **`Faults`**, an error at the first token that is impossible; `Faults.here`, `Faults.mul_left`,
  `Faults.mul_right` and `Faults.bind`.
- **The grammar**, as languages of tokens: `Grammar.mem_statement_iff` and `Grammar.prefixFree_statement`.
- **The pieces.** `faults_takeItems`, `faults_takeList`, `faults_takeValue`, `faults_takeStatement`.
- **Whole texts.** `Complete` and `Viable`; `FaultsText` and `faults_takeStatements`, and
  **`Config.error_at_first_impossible`**.
-/

namespace GraphWire

/-! ## Beginnings of words -/

/-- What is next: a token, or `none` at the end of the text. -/
def next? (ts : List Located) : Option Token := ts.head?.map Located.token

theorem next?_eq_some_iff {ts : List Located} {t : Token} :
    next? ts = some t ↔ ∃ p rest, ts = ⟨t, p⟩ :: rest := by
  cases ts with
  | nil => simp [next?]
  | cons l rest =>
    obtain ⟨u, p⟩ := l
    simp [next?]

theorem next?_ne {ts : List Located} {t : Token} (h : ∀ p rest, ts ≠ ⟨t, p⟩ :: rest) :
    next? ts ≠ some t := by
  intro hnext
  obtain ⟨p, rest, hts⟩ := next?_eq_some_iff.1 hnext
  exact h p rest hts

/-- What is seen begins with what is next. -/
theorem next?_begins (before rest : List Located) :
    [next? (before ++ rest)] <+: (before.map Located.token).map some ++ [next? rest] := by
  cases before with
  | nil => exact List.prefix_rfl
  | cons l before => exact ⟨_, rfl⟩

section Languages

variable {a b l : Language Token} {seen before : List (Option Token)} {word : List Token}

/-- The tokens begin a word of the language. -/
def Begun (l : Language Token) (tokens : List Token) : Prop := ∃ word ∈ l, tokens <+: word

/-- What is seen begins a word of the language, with anything behind it. -/
def Possible (l : Language Token) (seen : List (Option Token)) : Prop :=
  ∃ word ∈ l, ∃ more, seen <+: word.map some ++ more

theorem Possible.mono (h : Possible l seen) (hbefore : before <+: seen) : Possible l before := by
  obtain ⟨word, hword, more, hseen⟩ := h
  exact ⟨word, hword, more, hbefore.trans hseen⟩

theorem possible_add_iff : Possible (a + b) seen ↔ Possible a seen ∨ Possible b seen := by
  simp only [Possible, Language.mem_add, or_and_right, exists_or]

/-- A token with which no word begins is not possible. -/
theorem not_possible_of_first {next : Option Token}
    (h : ∀ word ∈ l, ∃ t more, word = t :: more ∧ next ≠ some t) : ¬ Possible l [next] := by
  rintro ⟨word, hword, more, hseen⟩
  obtain ⟨t, tokens, rfl, hnext⟩ := h word hword
  exact hnext (List.cons_prefix_cons.1 hseen).1

/-- No word of the language begins another one. -/
def PrefixFree (l : Language Token) : Prop := ∀ x ∈ l, ∀ y ∈ l, x <+: y → x = y

theorem prefix_of_map_some {x y : List Token} (h : x.map some <+: y.map some) : x <+: y := by
  have hfilter := h.filterMap id
  simpa using hfilter

/-- Two words with the same tokens behind each other are one word. -/
theorem PrefixFree.eq_of_prefix (h : PrefixFree l) {x y : List Token} (hx : x ∈ l) (hy : y ∈ l)
    {whole : List (Option Token)} (hxw : x.map some <+: whole) (hyw : y.map some <+: whole) : x = y := by
  rcases List.prefix_or_prefix_of_prefix hxw hyw with hxy | hyx
  · exact h x hx y hy (prefix_of_map_some hxy)
  · exact (h y hy x hx (prefix_of_map_some hyx)).symm

/-- Behind a word of the first language only the second one counts. -/
theorem Possible.of_mul (hfree : PrefixFree a) (hword : word ∈ a)
    (h : Possible (a * b) (word.map some ++ seen)) : Possible b seen := by
  obtain ⟨_, hmul, more, hseen⟩ := h
  obtain ⟨x, hx, y, hy, rfl⟩ := Language.mem_mul.1 hmul
  rw [List.map_append, List.append_assoc] at hseen
  have hxw : x = word := hfree.eq_of_prefix hx hword (List.prefix_append _ _)
    ((List.prefix_append _ _).trans hseen)
  subst hxw
  exact ⟨y, hy, more, (List.prefix_append_right_inj _).1 hseen⟩

end Languages

/-! ## Errors at the first impossible token -/

/-- A sequence of two readings fails in the first one, or in the second one behind it. -/
theorem bind_eq_error {β γ : Type} {x : Except SyntaxError β} {f : β → Except SyntaxError γ}
    (h : (x >>= f) = .error e) : x = .error e ∨ ∃ b, x = .ok b ∧ f b = .error e := by
  cases x with
  | error fault =>
    cases h
    exact Or.inl rfl
  | ok b => exact Or.inr ⟨b, rfl, h⟩

/-- The error is about the token in front of which the tokens begin a word of the language and with which they
    no longer do. -/
def Faults (l : Language Token) (finish : Position) (ts : List Located) (e : SyntaxError) : Prop :=
  ∃ before rest expected, ts = before ++ rest ∧ e = Statement.unexpected finish expected rest ∧
    Begun l (before.map Located.token) ∧
    ¬ Possible l ((before.map Located.token).map some ++ [next? rest])

namespace Faults

variable {a b l : Language Token} {finish : Position} {ts rest : List Located} {e : SyntaxError}
  {word : List Token}

/-- No word begins with the next token. -/
theorem here {expected : Expectation} (hne : ∃ word, word ∈ l)
    (hfirst : ∀ word ∈ l, ∃ t more, word = t :: more ∧ next? ts ≠ some t) :
    Faults l finish ts (Statement.unexpected finish expected ts) := by
  obtain ⟨word, hword⟩ := hne
  exact ⟨[], ts, expected, rfl, rfl, ⟨word, hword, List.nil_prefix⟩, not_possible_of_first hfirst⟩

/-- In the first of two pieces. -/
theorem mul_left (h : Faults a finish ts e) (hne : ∃ word, word ∈ b) : Faults (a * b) finish ts e := by
  obtain ⟨y, hy⟩ := hne
  obtain ⟨before, rest, expected, rfl, rfl, ⟨x, hx, hbefore⟩, hnot⟩ := h
  refine ⟨before, rest, expected, rfl, rfl, ?_, ?_⟩
  · exact ⟨x ++ y, Language.append_mem_mul hx hy, hbefore.trans (List.prefix_append x y)⟩
  · rintro ⟨_, hmul, more, hseen⟩
    obtain ⟨x, hx, y, -, rfl⟩ := Language.mem_mul.1 hmul
    rw [List.map_append, List.append_assoc] at hseen
    exact hnot ⟨x, hx, _, hseen⟩

/-- In the second of two pieces, behind a first one. -/
theorem mul_right (h : Faults b finish rest e) (hfree : PrefixFree a) (hword : word ∈ a)
    (hts : Begins ts word rest) : Faults (a * b) finish ts e := by
  obtain ⟨located, rfl, rfl⟩ := hts
  obtain ⟨before, rest, expected, rfl, rfl, ⟨w, hw, hbefore⟩, hnot⟩ := h
  refine ⟨located ++ before, rest, expected, (List.append_assoc _ _ _).symm, rfl, ?_, ?_⟩
  · rw [List.map_append]
    exact ⟨_, Language.append_mem_mul hword hw, (List.prefix_append_right_inj _).2 hbefore⟩
  · rw [List.map_append, List.map_append, List.append_assoc]
    exact fun hseen => hnot (hseen.of_mul hfree hword)

/-- In one of two pieces, where the next token rules the other one out. -/
theorem add_left (h : Faults a finish ts e) (hother : ¬ Possible b [next? ts]) :
    Faults (a + b) finish ts e := by
  obtain ⟨before, rest, expected, rfl, rfl, ⟨x, hx, hbefore⟩, hnot⟩ := h
  refine ⟨before, rest, expected, rfl, rfl, ⟨x, (Language.mem_add a b x).2 (Or.inl hx), hbefore⟩, ?_⟩
  rw [possible_add_iff]
  rintro (hseen | hseen)
  · exact hnot hseen
  · exact hother (hseen.mono (next?_begins before rest))

theorem add_right (h : Faults b finish ts e) (hother : ¬ Possible a [next? ts]) :
    Faults (a + b) finish ts e := by
  rw [add_comm]
  exact h.add_left hother

/-- In a sequence of two readings: either the first fails, or it has read a word. -/
theorem bind {β γ : Type} {x : Except SyntaxError β} {f : β → Except SyntaxError γ}
    (h : (x >>= f) = .error e) (hfree : PrefixFree a) (hne : ∃ word, word ∈ b)
    (herror : x = .error e → Faults a finish ts e)
    (hok : ∀ r, x = .ok r → f r = .error e → ∃ word ∈ a, ∃ rest, Begins ts word rest ∧ Faults b finish rest e) :
    Faults (a * b) finish ts e := by
  obtain hx | ⟨r, hx, hr⟩ := bind_eq_error h
  · exact (herror hx).mul_left hne
  · obtain ⟨word, hword, rest, hts, hfaults⟩ := hok r hx hr
    exact hfaults.mul_right hfree hword hts

end Faults

/-! ## The grammar -/

namespace Grammar

/-- One token of a kind. -/
def item {α : Type} (token : α → Token) : Language Token := {word | ∃ a, word = [token a]}

/-- The token and nothing else. -/
def mark (t : Token) : Language Token := {word | word = [t]}

/-- The items that follow in a list, each behind a comma, and the closing bracket. -/
def items {α : Type} (token : α → Token) : Language Token :=
  {word | ∃ more : List α, word = moreTokens (more.map token) ++ [.rightBracket]}

/-- A list behind its opening bracket: texts only or numbers only, and one item at least. -/
def list : Language Token := item .text * items .text + item .number * items .number

def value : Language Token := item .text + item .number + mark .leftBracket * list

def statement : Language Token :=
  item .name * (mark .dot * (item .name * (mark .arrow * (value * mark .semicolon))))

variable {α : Type} {token : α → Token} {t : Token} {word : List Token}

theorem mem_item_iff : word ∈ item token ↔ ∃ a, word = [token a] := Iff.rfl

theorem mem_mark_iff : word ∈ mark t ↔ word = [t] := Iff.rfl

theorem mem_items_iff :
    word ∈ items token ↔ ∃ more : List α, word = moreTokens (more.map token) ++ [.rightBracket] := Iff.rfl

/-- Behind an item there are the closing bracket, or a comma and another item. -/
theorem items_eq :
    items token = mark .rightBracket + mark .comma * (item token * items token) := by
  apply Language.ext
  intro word
  simp only [Language.mem_add, Language.mem_mul, mem_item_iff, mem_mark_iff, mem_items_iff]
  constructor
  · rintro ⟨more, rfl⟩
    cases more with
    | nil => exact Or.inl rfl
    | cons a more => exact Or.inr ⟨_, rfl, _, ⟨_, ⟨a, rfl⟩, _, ⟨more, rfl⟩, rfl⟩, rfl⟩
  · rintro (rfl | ⟨_, rfl, _, ⟨_, ⟨a, rfl⟩, _, ⟨more, rfl⟩, rfl⟩, rfl⟩)
    · exact ⟨[], rfl⟩
    · exact ⟨a :: more, rfl⟩

/-- The words of the grammar are the tokens of values that are no list without items. -/
theorem mem_value_iff : word ∈ value ↔ ∃ v : Value, v.isEmptyList = false ∧ word = v.tokens := by
  simp only [value, list, Language.mem_add, Language.mem_mul, mem_item_iff, mem_mark_iff, mem_items_iff]
  constructor
  · rintro ((⟨s, rfl⟩ | ⟨n, rfl⟩) | ⟨_, rfl, _, hlist, rfl⟩)
    · exact ⟨.text s, rfl, rfl⟩
    · exact ⟨.number n, rfl, rfl⟩
    · rcases hlist with ⟨_, ⟨s, rfl⟩, _, ⟨more, rfl⟩, rfl⟩ | ⟨_, ⟨n, rfl⟩, _, ⟨more, rfl⟩, rfl⟩
      · exact ⟨.texts (s :: more), rfl, rfl⟩
      · exact ⟨.numbers (n :: more), rfl, rfl⟩
  · rintro ⟨v, hitems, rfl⟩
    cases v with
    | text s => exact Or.inl (Or.inl ⟨s, rfl⟩)
    | number n => exact Or.inl (Or.inr ⟨n, rfl⟩)
    | texts names =>
      cases names with
      | nil => cases hitems
      | cons s more => exact Or.inr ⟨_, rfl, _, Or.inl ⟨_, ⟨s, rfl⟩, _, ⟨more, rfl⟩, rfl⟩, rfl⟩
    | numbers ns =>
      cases ns with
      | nil => cases hitems
      | cons n more => exact Or.inr ⟨_, rfl, _, Or.inr ⟨_, ⟨n, rfl⟩, _, ⟨more, rfl⟩, rfl⟩, rfl⟩

/-- The words of the grammar are the tokens of statements. -/
theorem mem_statement_iff :
    word ∈ statement ↔ ∃ s : Statement, s.value.isEmptyList = false ∧ word = s.tokens := by
  simp only [statement, Language.mem_mul, mem_item_iff, mem_mark_iff, mem_value_iff]
  constructor
  · rintro ⟨_, ⟨object, rfl⟩, _, ⟨_, rfl, _, ⟨_, ⟨field, rfl⟩, _, ⟨_, rfl, _, ⟨_, ⟨v, hitems, rfl⟩, _, rfl,
      rfl⟩, rfl⟩, rfl⟩, rfl⟩, rfl⟩
    exact ⟨⟨object, field, v⟩, hitems, rfl⟩
  · rintro ⟨⟨object, field, v⟩, hitems, rfl⟩
    exact ⟨_, ⟨object, rfl⟩, _, ⟨_, rfl, _, ⟨_, ⟨field, rfl⟩, _, ⟨_, rfl, _, ⟨_, ⟨v, hitems, rfl⟩, _, rfl,
      rfl⟩, rfl⟩, rfl⟩, rfl⟩, rfl⟩

/-! ### No word begins another one -/

theorem prefixFree_item : PrefixFree (item token) := by
  rintro _ ⟨a, rfl⟩ _ ⟨b, rfl⟩ h
  exact h.eq_of_length rfl

theorem prefixFree_mark : PrefixFree (mark t) := by
  rintro _ rfl _ rfl _
  rfl

/-- A reader that reads exactly the words of a language finds only one of them where it reads. -/
theorem prefixFree_of_reads {l : Language Token} {tokens : α → List Token} {good : α → Prop}
    (read : List Located → Except SyntaxError (α × List Located))
    (hread : ∀ {ts rest a}, read ts = .ok (a, rest) ↔ good a ∧ Begins ts (tokens a) rest)
    (hl : ∀ word, word ∈ l ↔ ∃ a, good a ∧ word = tokens a) : PrefixFree l := by
  intro x hx y hy hxy
  obtain ⟨more, rfl⟩ := hxy
  obtain ⟨a, ha, rfl⟩ := (hl _).1 hx
  obtain ⟨b, hb, hwhole⟩ := (hl _).1 hy
  -- both words stand at the beginning of the longer one, wherever that stands
  let place (tokens : List Token) : List Located := tokens.map fun t => ⟨t, .start⟩
  have hplace : ∀ tokens, (place tokens).map Located.token = tokens := by
    intro tokens
    rw [List.map_map]
    exact List.map_id _
  have hlong : read (place (tokens a ++ more)) = .ok (b, []) :=
    hread.2 ⟨hb, begins_all_iff.2 ((hplace _).trans hwhole)⟩
  have hshort : read (place (tokens a ++ more)) = .ok (a, place more) :=
    hread.2 ⟨ha, place (tokens a), List.map_append, hplace _⟩
  obtain ⟨rfl, -⟩ := Prod.mk.inj (Except.ok.inj (hlong.symm.trans hshort))
  exact hwhole.symm

theorem prefixFree_value : PrefixFree value :=
  prefixFree_of_reads (Statement.takeValue .start) Statement.takeValue_iff fun _ => mem_value_iff

theorem prefixFree_statement : PrefixFree statement :=
  prefixFree_of_reads (Statement.takeStatement .start) Statement.takeStatement_iff fun _ =>
    mem_statement_iff

end Grammar

/-! ## The pieces of a statement -/

namespace Statement

variable {finish : Position} {ts : List Located} {e : SyntaxError}

open Grammar

theorem faults_takeName {expected : Expectation} (h : takeName finish expected ts = .error e) :
    Faults (item .name) finish ts e := by
  unfold takeName at h
  split at h
  · cases h
  · next hnot =>
    cases h
    refine Faults.here ⟨_, "", rfl⟩ ?_
    rintro _ ⟨s, rfl⟩
    exact ⟨_, [], rfl, next?_ne (hnot s)⟩

theorem faults_takeMark {t : Token} (h : takeMark finish t ts = .error e) :
    Faults (mark t) finish ts e := by
  have hnext : next? ts ≠ some t ∧ e = unexpected finish (.mark t) ts := by
    unfold takeMark at h
    split at h
    · next l rest =>
      split at h
      · cases h
      · next hne =>
        cases h
        exact ⟨fun hsome => hne (Option.some.inj hsome), rfl⟩
    · cases h
      exact ⟨nofun, rfl⟩
  rw [hnext.2]
  refine Faults.here ⟨_, rfl⟩ ?_
  rintro _ rfl
  exact ⟨t, [], rfl, hnext.1⟩

/-- Nothing fails in giving a result back. -/
theorem eq_error_of_bind_pure {β γ : Type} {x : Except SyntaxError β} {f : β → γ}
    (h : (x >>= fun b => pure (f b)) = .error e) : x = .error e := by
  obtain h | ⟨b, -, h⟩ := bind_eq_error h
  · exact h
  · cases h

section Items

variable {α : Type} {item? : Token → Option α} {token : α → Token}

/-- An error behind a comma. -/
theorem faults_behind_comma {p : Position} (h : Faults (item token * items token) finish ts e) :
    Faults (items token) finish (⟨.comma, p⟩ :: ts) e := by
  rw [items_eq]
  refine (h.mul_right prefixFree_mark (mem_mark_iff.2 rfl) ⟨[⟨.comma, p⟩], rfl, rfl⟩).add_right ?_
  apply not_possible_of_first
  rintro _ rfl
  exact ⟨_, [], rfl, nofun⟩

variable [Inhabited α]

/-- Behind a comma there must be an item. -/
theorem faults_of_no_item (hitem : ∀ t a, item? t = some a ↔ t = token a) {expected : Expectation}
    (h : ∀ l rest, ts = l :: rest → item? l.token = none) :
    Faults (item token * items token) finish ts (unexpected finish expected ts) := by
  apply Faults.mul_left
  · refine Faults.here ⟨_, default, rfl⟩ ?_
    rintro _ ⟨a, rfl⟩
    refine ⟨_, [], rfl, next?_ne ?_⟩
    intro p rest hts
    have hnone := h _ _ hts
    rw [(hitem _ a).2 rfl] at hnone
    cases hnone
  · exact ⟨_, [], rfl⟩

/-- The items of a list up to the closing bracket: behind a comma there must be an item, and behind an item a
    comma or the bracket. -/
theorem faults_takeItems (hitem : ∀ t a, item? t = some a ↔ t = token a) {expected : Expectation}
    {read : List α}
    (h : takeItems item? expected finish read ts = .error e ∨
      ∃ r, takeItems item? expected finish read ts = .ok r ∧ takeMark finish .rightBracket r.2 = .error e) :
    Faults (items token) finish ts e := by
  fun_induction takeItems item? expected finish read ts with
  | case1 read p =>
    obtain h | ⟨r, h, -⟩ := h <;> cases h
    refine faults_behind_comma (faults_of_no_item hitem ?_)
    rintro _ _ ⟨⟩
  | case2 read p l rest a ha ih =>
    have hitems : Begins (l :: rest) [token a] rest := ⟨[l], rfl, by rw [← (hitem _ _).1 ha]; rfl⟩
    exact faults_behind_comma ((ih h).mul_right prefixFree_item ⟨a, rfl⟩ hitems)
  | case3 read p l rest hnone =>
    obtain h | ⟨r, h, -⟩ := h <;> cases h
    refine faults_behind_comma (faults_of_no_item hitem ?_)
    rintro _ _ ⟨⟩
    exact hnone
  | case4 read ts hcomma =>
    obtain h | ⟨r, h, hmark⟩ := h <;> cases h
    rw [items_eq]
    refine (faults_takeMark hmark).add_left ?_
    apply not_possible_of_first
    rintro _ ⟨_, rfl, more, -, rfl⟩
    exact ⟨_, more, rfl, next?_ne hcomma⟩

end Items

/-- A list fails in its items or at the closing bracket. -/
theorem bracketed_eq_error {α : Type} {x : Except SyntaxError (List α × List Located)} {make : List α → Value}
    (h : (do
      let (items, rest) ← x
      return (make items, ← takeMark finish .rightBracket rest)) = .error e) :
    x = .error e ∨ ∃ r, x = .ok r ∧ takeMark finish .rightBracket r.2 = .error e := by
  obtain hread | ⟨r, hread, hmark⟩ := bind_eq_error h
  · exact Or.inl hread
  · exact Or.inr ⟨r, hread, eq_error_of_bind_pure hmark⟩

/-- A list must have an item. -/
theorem faults_takeList (h : takeList finish ts = .error e) : Faults Grammar.list finish ts e := by
  unfold takeList at h
  split at h
  · next s p rest =>
    rw [takeTexts_eq] at h
    have hitems := faults_takeItems text?_eq_some_iff (bracketed_eq_error h)
    refine (hitems.mul_right prefixFree_item ⟨s, rfl⟩ ⟨[⟨.text s, p⟩], rfl, rfl⟩).add_left ?_
    apply not_possible_of_first
    rintro _ ⟨_, ⟨n, rfl⟩, more, -, rfl⟩
    exact ⟨_, more, rfl, nofun⟩
  · next n p rest =>
    rw [takeNumbers_eq] at h
    have hitems := faults_takeItems number?_eq_some_iff (bracketed_eq_error h)
    refine (hitems.mul_right prefixFree_item ⟨n, rfl⟩ ⟨[⟨.number n, p⟩], rfl, rfl⟩).add_right ?_
    apply not_possible_of_first
    rintro _ ⟨_, ⟨s, rfl⟩, more, -, rfl⟩
    exact ⟨_, more, rfl, nofun⟩
  · next hnoText hnoNumber =>
    cases h
    refine Faults.here ⟨_, Or.inl ⟨_, ⟨"", rfl⟩, _, ⟨[], rfl⟩, rfl⟩⟩ ?_
    rintro _ (⟨_, ⟨s, rfl⟩, more, -, rfl⟩ | ⟨_, ⟨n, rfl⟩, more, -, rfl⟩)
    · exact ⟨_, more, rfl, next?_ne (hnoText s)⟩
    · exact ⟨_, more, rfl, next?_ne (hnoNumber n)⟩

theorem faults_takeValue (h : takeValue finish ts = .error e) : Faults Grammar.value finish ts e := by
  unfold takeValue at h
  split at h
  · cases h
  · cases h
  · next p rest =>
    refine ((faults_takeList h).mul_right prefixFree_mark rfl ⟨[⟨.leftBracket, p⟩], rfl, rfl⟩).add_right ?_
    apply not_possible_of_first
    rintro _ (⟨s, rfl⟩ | ⟨n, rfl⟩) <;> exact ⟨_, [], rfl, nofun⟩
  · next hnoText hnoNumber hnoList =>
    cases h
    refine Faults.here ⟨_, Or.inl (Or.inl ⟨"", rfl⟩)⟩ ?_
    rintro _ ((⟨s, rfl⟩ | ⟨n, rfl⟩) | ⟨_, rfl, more, -, rfl⟩)
    · exact ⟨_, [], rfl, next?_ne (hnoText s)⟩
    · exact ⟨_, [], rfl, next?_ne (hnoNumber n)⟩
    · exact ⟨_, more, rfl, next?_ne hnoList⟩

/-- **A statement fails at the first token with which it can no longer become one.** -/
theorem faults_takeStatement (h : takeStatement finish ts = .error e) :
    Faults Grammar.statement finish ts e := by
  have hmark : ∀ t, ∃ word, word ∈ mark t := fun t => ⟨_, rfl⟩
  have hname : ∃ word, word ∈ item Token.name := ⟨_, "", rfl⟩
  have hvalue : ∃ word, word ∈ Grammar.value := ⟨_, Or.inl (Or.inl ⟨"", rfl⟩)⟩
  have hmul : ∀ {a b : Language Token}, (∃ word, word ∈ a) → (∃ word, word ∈ b) → ∃ word, word ∈ a * b :=
    fun ⟨_, ha⟩ ⟨_, hb⟩ => ⟨_, Language.append_mem_mul ha hb⟩
  have hend := hmul hvalue (hmark .semicolon)
  have harrow := hmul (hmark .arrow) hend
  have hfield := hmul hname harrow
  have hdot := hmul (hmark .dot) hfield
  refine Faults.bind h prefixFree_item hdot faults_takeName ?_
  rintro ⟨object, _⟩ hok h
  refine ⟨_, ⟨object, rfl⟩, _, takeName_iff.1 hok, Faults.bind h prefixFree_mark hfield faults_takeMark ?_⟩
  intro _ hok h
  refine ⟨_, rfl, _, takeMark_iff.1 hok, Faults.bind h prefixFree_item harrow faults_takeName ?_⟩
  rintro ⟨field, _⟩ hok h
  refine ⟨_, ⟨field, rfl⟩, _, takeName_iff.1 hok, Faults.bind h prefixFree_mark hend faults_takeMark ?_⟩
  intro _ hok h
  refine ⟨_, rfl, _, takeMark_iff.1 hok, Faults.bind h prefixFree_value (hmark _) faults_takeValue ?_⟩
  rintro ⟨v, _⟩ hok h
  obtain ⟨hitems, hvalue⟩ := takeValue_iff.1 hok
  exact ⟨_, mem_value_iff.2 ⟨v, hitems, rfl⟩, _, hvalue, faults_takeMark (eq_error_of_bind_pure h)⟩

end Statement

/-! ## Whole texts -/

/-- One or more complete statements, in which no list is without items. -/
def Complete (tokens : List Token) : Prop :=
  ∃ stmts : List Statement, stmts ≠ [] ∧ (∀ s ∈ stmts, s.value.isEmptyList = false) ∧
    tokens = stmts.flatMap Statement.tokens

/-- The tokens and the end of the text. -/
def ended (tokens : List Token) : List (Option Token) := tokens.map some ++ [none]

/-- What is seen begins a complete text. -/
def Viable (seen : List (Option Token)) : Prop := ∃ tokens, Complete tokens ∧ seen <+: ended tokens

theorem Viable.mono {seen before : List (Option Token)} (h : Viable seen) (hbefore : before <+: seen) :
    Viable before := by
  obtain ⟨tokens, hcomplete, hseen⟩ := h
  exact ⟨tokens, hcomplete, hbefore.trans hseen⟩

/-- A complete text begins with a statement. -/
theorem Viable.possible {seen : List (Option Token)} (h : Viable seen) : Possible Grammar.statement seen := by
  obtain ⟨tokens, ⟨stmts, hne, hitems, rfl⟩, hseen⟩ := h
  obtain ⟨s, more, rfl⟩ := List.exists_cons_of_ne_nil hne
  rw [ended, List.flatMap_cons, List.map_append, List.append_assoc] at hseen
  exact ⟨s.tokens, Grammar.mem_statement_iff.2 ⟨s, hitems s List.mem_cons_self, rfl⟩, _, hseen⟩

/-- Behind a statement that is complete, any complete text may follow. -/
theorem Viable.append {s : Statement} (hs : s.value.isEmptyList = false) {seen : List (Option Token)}
    (h : Viable seen) : Viable (s.tokens.map some ++ seen) := by
  obtain ⟨tokens, ⟨stmts, -, hitems, rfl⟩, hseen⟩ := h
  refine ⟨_, ⟨s :: stmts, List.cons_ne_nil _ _, List.forall_mem_cons.2 ⟨hs, hitems⟩, rfl⟩, ?_⟩
  rw [ended, List.flatMap_cons, List.map_append, List.append_assoc]
  exact (List.prefix_append_right_inj _).2 hseen

/-- A text that goes on behind a statement is complete where the rest of it is, or ends there. -/
theorem Viable.of_statement {s : Statement} (hs : s.value.isEmptyList = false) {seen : List (Option Token)}
    (h : Viable (s.tokens.map some ++ seen)) : Viable seen ∨ seen <+: [none] := by
  obtain ⟨tokens, ⟨stmts, hne, hitems, rfl⟩, hseen⟩ := h
  obtain ⟨s', more, rfl⟩ := List.exists_cons_of_ne_nil hne
  obtain ⟨hs', hmore⟩ := List.forall_mem_cons.1 hitems
  rw [ended, List.flatMap_cons, List.map_append, List.append_assoc] at hseen
  -- the text begins with this statement, since no other one begins so
  have hsame : s.tokens = s'.tokens := Grammar.prefixFree_statement.eq_of_prefix
    (Grammar.mem_statement_iff.2 ⟨s, hs, rfl⟩) (Grammar.mem_statement_iff.2 ⟨s', hs', rfl⟩)
    ((List.prefix_append _ _).trans hseen) (List.prefix_append _ _)
  rw [hsame, List.prefix_append_right_inj] at hseen
  by_cases hend : more = []
  · subst hend
    exact Or.inr hseen
  · exact Or.inl ⟨_, ⟨more, hend, hmore, rfl⟩, hseen⟩

/-- The error is about the token, or the end, in front of which the tokens begin a complete text and with which
    they no longer do. -/
def FaultsText (finish : Position) (ts : List Located) (e : SyntaxError) : Prop :=
  ∃ before rest expected, ts = before ++ rest ∧ e = Statement.unexpected finish expected rest ∧
    Viable ((before.map Located.token).map some) ∧
    ¬ Viable ((before.map Located.token).map some ++ [next? rest])

variable {finish : Position} {ts rest : List Located} {e : SyntaxError}

theorem Faults.faultsText (h : Faults Grammar.statement finish ts e) : FaultsText finish ts e := by
  obtain ⟨before, rest, expected, rfl, rfl, ⟨word, hword, hbefore⟩, hnot⟩ := h
  refine ⟨before, rest, expected, rfl, rfl, ?_, fun hseen => hnot hseen.possible⟩
  obtain ⟨s, hs, rfl⟩ := Grammar.mem_statement_iff.1 hword
  refine ⟨s.tokens, ⟨[s], List.cons_ne_nil _ _, List.forall_mem_singleton.2 hs, ?_⟩, ?_⟩
  · rw [List.flatMap_singleton]
  · exact (hbefore.map some).trans (List.prefix_append _ _)

/-- An error behind a statement, if the text does not end there. -/
theorem FaultsText.behind {s : Statement} (hs : s.value.isEmptyList = false)
    (hts : Begins ts s.tokens rest) (hne : rest ≠ []) (h : FaultsText finish rest e) :
    FaultsText finish ts e := by
  obtain ⟨located, rfl, hlocated⟩ := hts
  obtain ⟨before, rest, expected, rfl, rfl, hbefore, hnot⟩ := h
  refine ⟨located ++ before, rest, expected, (List.append_assoc _ _ _).symm, rfl, ?_, ?_⟩
  · rw [List.map_append, List.map_append, hlocated]
    exact hbefore.append hs
  · rw [List.map_append, List.map_append, hlocated, List.append_assoc]
    intro hseen
    rcases hseen.of_statement hs with hseen | hend
    · exact hnot hseen
    · -- the end does not come here
      have hnext := (List.cons_prefix_cons.1 ((next?_begins before rest).trans hend)).1
      exact hne (List.head?_eq_none_iff.1 (Option.map_eq_none_iff.1 hnext))

/-- **Statements fail at the first token with which they can no longer become a complete text.** -/
theorem faults_takeStatements {read : List Statement}
    (h : Statement.takeStatements finish read ts = .error e) : FaultsText finish ts e := by
  fun_induction Statement.takeStatements finish read ts with
  | case1 => cases h
  | case2 read ts hne fault hfault =>
    cases h
    exact (Statement.faults_takeStatement hfault).faultsText
  | case3 read ts hne s rest hs ih =>
    obtain ⟨hitems, hbegins⟩ := Statement.takeStatement_iff.1 hs
    refine (ih h).behind hitems hbegins ?_
    rintro rfl
    unfold Statement.takeStatements at h
    cases h

/-- A text without tokens is not complete, but could become so. -/
theorem faultsText_nil : FaultsText finish [] (Statement.unexpected finish .assignment []) := by
  refine ⟨[], [], .assignment, rfl, rfl, ?_, fun hseen => not_possible_of_first ?_ hseen.possible⟩
  · let s : Statement := ⟨"", "", .text ""⟩
    exact ⟨s.tokens, ⟨[s], List.cons_ne_nil _ _, List.forall_mem_singleton.2 rfl, rfl⟩, List.nil_prefix⟩
  · intro word hword
    obtain ⟨s, -, rfl⟩ := Grammar.mem_statement_iff.1 hword
    exact ⟨_, _, rfl, nofun⟩

variable {text : String} {located : List Located}

theorem statements_of_tokenize (h : tokenize text = .ok (located, finish)) :
    statements text =
      if located.isEmpty then .error (Statement.unexpected finish .assignment located)
      else Statement.takeStatements finish [] located := by
  rw [statements, h]
  rfl

theorem faults_statements (h : tokenize text = .ok (located, finish)) (he : statements text = .error e) :
    FaultsText finish located e := by
  rw [statements_of_tokenize h] at he
  split at he
  · next hempty =>
    rw [List.isEmpty_iff.1 hempty] at he ⊢
    cases he
    exact faultsText_nil
  · exact faults_takeStatements he

/-- A text whose tokens are known is read exactly if they are complete. -/
theorem statements_ok_iff_complete (h : tokenize text = .ok (located, finish)) :
    (∃ stmts, statements text = .ok stmts) ↔ Complete (located.map Located.token) := by
  constructor
  · rintro ⟨stmts, hstmts⟩
    obtain ⟨hne, hitems, located', finish', htokenize, htokens⟩ := statements_iff.1 hstmts
    rw [h] at htokenize
    cases htokenize
    exact ⟨stmts, hne, hitems, htokens⟩
  · rintro ⟨stmts, hne, hitems, htokens⟩
    exact ⟨stmts, statements_iff.2 ⟨hne, hitems, located, finish, h, htokens⟩⟩

/-- The place of what is next, and what is found there, in the whole text. -/
theorem unexpected_at (finish : Position) (before rest : List Located) (expected : Expectation) :
    let fault := Statement.unexpected finish expected rest
    ((before ++ rest).map Located.position ++ [finish])[before.length]? = some fault.position ∧
    ((before ++ rest).map (fun l => Found.token l.token) ++ [.endOfInput])[before.length]? =
      some fault.found := by
  cases rest <;> simp [Statement.unexpected]

/-- The whole text begins with the tokens in front of what is next, and with that. -/
theorem take_ended (before rest : List Located) :
    (ended ((before ++ rest).map Located.token)).take (before.length + 1) =
      (before.map Located.token).map some ++ [next? rest] := by
  rw [ended, List.map_append, List.map_append, List.append_assoc]
  have hlength : before.length = ((before.map Located.token).map some).length := by simp
  rw [hlength, List.take_length_add_append]
  cases rest <;> simp [next?]

/-- The text could become complete up to one token and no further. -/
theorem viable_take_iff {before rest : List Located} (hbefore : Viable ((before.map Located.token).map some))
    (hnot : ¬ Viable ((before.map Located.token).map some ++ [next? rest])) (j : Nat) :
    Viable ((ended ((before ++ rest).map Located.token)).take j) ↔ j ≤ before.length := by
  rw [← take_ended] at hnot
  constructor
  · intro hviable
    by_contra hbehind
    exact hnot (hviable.mono (List.take_prefix_take_left (Nat.lt_of_not_le hbehind)))
  · intro hj
    refine hbefore.mono ((List.take_prefix_take_left hj).trans ?_)
    rw [ended, List.map_append, List.map_append, List.append_assoc, List.take_left' (by simp)]

/-- **A syntax error points at the first token that is impossible.** A text that has tokens is refused exactly if
    they are not one or more complete statements. The error is then about the token, or the end of the text, up to
    which the text could still become complete and no further. -/
theorem Config.error_at_first_impossible (h : tokenize text = .ok (located, finish)) :
    ((∃ e, Config.parse text = .error e) ↔ ¬ Complete (located.map Located.token)) ∧
    ∀ e, Config.parse text = .error e → ∃ fault i, e = .syntaxError fault ∧
      (located.map Located.position ++ [finish])[i]? = some fault.position ∧
      (located.map (fun l => Found.token l.token) ++ [.endOfInput])[i]? = some fault.found ∧
      ∀ j, Viable ((ended (located.map Located.token)).take j) ↔ j ≤ i := by
  have hparse : ∀ e, Config.parse text = .error e ↔ ∃ fault, statements text = .error fault ∧
      e = .syntaxError fault := by
    intro e
    rw [Config.parse]
    cases statements text with
    | ok stmts => simp
    | error fault => simp [eq_comm]
  constructor
  · rw [← statements_ok_iff_complete h]
    simp only [hparse]
    cases statements text with
    | ok stmts => simp
    | error fault => simp
  · intro e he
    obtain ⟨fault, hfault, rfl⟩ := (hparse e).1 he
    obtain ⟨before, rest, expected, rfl, rfl, hbefore, hnot⟩ := faults_statements h hfault
    obtain ⟨hposition, hfound⟩ := unexpected_at finish before rest expected
    exact ⟨_, before.length, rfl, hposition, hfound, viable_take_iff hbefore hnot⟩

/-- In a list of numbers the first text is impossible; up to there the list could still be completed. -/
theorem Config.error_at_text_among_numbers :
    ∃ located finish, tokenize "a.x <-\n [1, 'b'];" = .ok (located, finish) ∧
      Config.parse "a.x <-\n [1, 'b'];" =
        .error (.syntaxError ⟨⟨2, 6⟩, .numberItem, .token (.text "b")⟩) ∧
      ∀ j, Viable ((ended (located.map Located.token)).take j) ↔ j ≤ 7 := by
  have htokenize : tokenize "a.x <-\n [1, 'b'];" = .ok
      ([⟨.name "a", ⟨1, 1⟩⟩, ⟨.dot, ⟨1, 2⟩⟩, ⟨.name "x", ⟨1, 3⟩⟩, ⟨.arrow, ⟨1, 5⟩⟩,
        ⟨.leftBracket, ⟨2, 2⟩⟩, ⟨.number (.ofInt 1), ⟨2, 3⟩⟩, ⟨.comma, ⟨2, 4⟩⟩, ⟨.text "b", ⟨2, 6⟩⟩,
        ⟨.rightBracket, ⟨2, 9⟩⟩, ⟨.semicolon, ⟨2, 10⟩⟩], ⟨2, 11⟩) :=
    eq_ok_of_toOption (by decide +kernel)
  have hparse : Config.parse "a.x <-\n [1, 'b'];" =
      .error (.syntaxError ⟨⟨2, 6⟩, .numberItem, .token (.text "b")⟩) := by
    have hstatements : statements "a.x <-\n [1, 'b'];" =
        .error ⟨⟨2, 6⟩, .numberItem, .token (.text "b")⟩ := by decide +kernel
    rw [Config.parse, hstatements]
  obtain ⟨-, hfault⟩ := error_at_first_impossible htokenize
  obtain ⟨fault, i, hsame, hposition, -, hviable⟩ := hfault _ hparse
  cases hsame
  -- nothing else stands at that place
  have hi : i = 7 :=
    (List.getElem?_inj (List.getElem?_eq_some_iff.1 hposition).1 (by decide)).1 (hposition.trans rfl)
  exact ⟨_, _, htokenize, hparse, hi ▸ hviable⟩

end GraphWire
