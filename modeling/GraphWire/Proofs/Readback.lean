import GraphWire.Proofs.Fidelity

/-!
# `Proofs.Readback` — what becomes of a line that was written

The writer refuses a text that cannot be quoted, and nothing else. A number that is not finite is written as
well, and so is a list without items, and these the reader refuses: a numeral needs digits, the words for a
number that is not finite are names, and a list has an item. So a line that was written either reads back as
it was written or is a syntax error; it never reads as something else.

## Contents
- **Runs.** `tokenizeFrom_extends`, tokens that were read stay.
- **`Spoiled`**, a text in which a name comes before the next semicolon, or in which there are no tokens, with
  `spoiled_text` and `spoiled_numbers`, which are such texts.
- **Lines.** `lexes_front`, and **`written_reads_back_iff`**.
-/

namespace GraphWire

/-! ## Runs -/

/-- Tokens that were read stay where they are. -/
theorem tokenizeFrom_extends {read located : List Located} {p finish : Position} {cs : List Char}
    (h : tokenizeFrom read p cs = .ok (located, finish)) : ∃ more, located = read.reverse ++ more := by
  fun_induction tokenizeFrom read p cs with
  | case1 read p cs q hskip =>
    cases h
    exact ⟨[], (List.append_nil _).symm⟩
  | case2 => cases h
  | case3 read p cs q c rest hskip s hs ih =>
    obtain ⟨more, rfl⟩ := ih h
    refine ⟨⟨s.token, q⟩ :: more, ?_⟩
    rw [List.reverse_cons, List.append_assoc]
    rfl

/-! ## Texts that are no values -/

/-- In the tokens that the text goes on with, if it has any, a name comes before the next semicolon. -/
def Spoiled (cs : List Char) : Prop :=
  ∀ read p located finish, tokenizeFrom read p cs = .ok (located, finish) →
    ∃ front name back, located.map Located.token = read.reverse.map Located.token ++ (front ++ .name name :: back) ∧
      Token.semicolon ∉ front

namespace Spoiled

variable {cs tail : List Char} {ts : List Token}

/-- Tokens before it do not help, unless a semicolon is among them. -/
theorem of_lexes (h : Lexes cs ts tail) (hts : Token.semicolon ∉ ts) (htail : Spoiled tail) : Spoiled cs := by
  intro read p located finish hok
  obtain ⟨first, q, rfl, heq⟩ := h read p
  rw [heq] at hok
  obtain ⟨front, name, back, htokens, hfront⟩ := htail _ _ _ _ hok
  refine ⟨first.map Located.token ++ front, name, back, ?_, List.not_mem_append hts hfront⟩
  rw [htokens]
  simp

theorem of_name {name : String} (hname : isName name = true) (hrest : Stops isNameChar tail) :
    Spoiled (name.toList ++ tail) := by
  intro read p located finish hok
  obtain ⟨first, q, hfirst, heq⟩ := Lexes.token (.name hname) hrest read p
  rw [heq] at hok
  obtain ⟨more, rfl⟩ := tokenizeFrom_extends hok
  refine ⟨[], name, more.map Located.token, ?_, List.not_mem_nil⟩
  rw [List.reverse_append, List.reverse_reverse, List.map_append, List.map_append, hfirst, List.append_assoc]
  rfl

end Spoiled

/-- **A number that is not finite is written as a name, or as no token at all.** -/
theorem spoiled_text {n : Number} (hn : n.isFinite = false) {tail : List Char}
    (htail : Stops isNameChar tail) : Spoiled (n.text.toList ++ tail) := by
  cases n with
  | finite negative rank => cases hn
  | nan =>
    have hname : isName "NaN" = true := by decide
    exact Spoiled.of_name hname htail
  | infinite negative =>
    cases negative with
    | false =>
      have hname : isName "inf" = true := by decide
      exact Spoiled.of_name hname htail
    | true =>
      -- behind the sign there is no digit
      intro read p located finish hok
      rw [tokenizeFrom_eq] at hok
      cases hok

/-- The numbers of a list up to the closing bracket, if one of them is not finite. -/
theorem spoiled_items {n : Number} {more : List Number} (h : ∃ m ∈ n :: more, m.isFinite = false)
    (tail : List Char) :
    Spoiled ((", ".intercalate ((n :: more).map Number.text)).toList ++ ']' :: tail) := by
  have hseparator : ", ".toList = [','] ++ [' '] := rfl
  induction more generalizing n with
  | nil =>
    obtain ⟨m, hm, hinfinite⟩ := h
    obtain rfl := List.mem_singleton.1 hm
    rw [List.map_singleton, String.intercalate_singleton]
    exact spoiled_text hinfinite (stops_cons.2 (by decide))
  | cons k more ih =>
    rw [List.map_cons, List.map_cons, String.intercalate_cons_cons, ← List.map_cons, String.toList_append,
      String.toList_append, hseparator]
    simp only [List.append_assoc]
    cases hn : n.isFinite with
    | false => exact spoiled_text hn (stops_cons.2 (by decide))
    | true =>
      obtain ⟨m, hm, hinfinite⟩ := h
      have hmore : ∃ m ∈ k :: more, m.isFinite = false := by
        rcases List.mem_cons.1 hm with rfl | hm
        · rw [hn] at hinfinite
          cases hinfinite
        · exact ⟨m, hm, hinfinite⟩
      -- the number, the comma and the blank behind it
      have hfree : Token.semicolon ∉ [Token.number n, .comma] := by simp
      refine .of_lexes ?_ hfree (ih hmore)
      exact .cons_token (.number_text hn) (Token.parted_number (by decide))
        (.cons_token .comma trivial (.blank (by decide) _))

theorem spoiled_numbers {items : List Number} (h : ∃ n ∈ items, n.isFinite = false) (tail : List Char) :
    Spoiled ((Value.bracketed (items.map Number.text)).toList ++ tail) := by
  cases items with
  | nil =>
    obtain ⟨n, hn, -⟩ := h
    cases hn
  | cons n more =>
    rw [Value.bracketed, String.toList_append, String.toList_append, List.append_assoc, List.append_assoc]
    exact .of_lexes (.token .leftBracket trivial) (by decide) (spoiled_items h tail)

/-- A list without items is written as two brackets. -/
theorem lexes_empty {v : Value} (h : v.isEmptyList = true) (tail : List Char) :
    Lexes (v.written.toList ++ tail) [.leftBracket, .rightBracket] tail := by
  have hbrackets : v.written.toList = ['['] ++ [']'] := by
    cases v with
    | text s => cases h
    | number n => cases h
    | texts items =>
      cases items with
      | nil => rfl
      | cons s items => cases h
    | numbers items =>
      cases items with
      | nil => rfl
      | cons n items => cases h
  rw [hbrackets, List.append_assoc]
  exact .cons_token .leftBracket trivial (.token .rightBracket trivial)

/-! ## Lines -/

/-- A line goes on with its names and marks, whatever its value is. -/
theorem lexes_front {s : Statement} (hobject : isName s.object = true) (hfield : isName s.field = true) :
    Lexes s.display.toList [.name s.object, .dot, .name s.field, .arrow] (s.value.written.toList ++ [';']) := by
  have hline : s.display.toList = s.object.toList ++ (['.'] ++ (s.field.toList ++
      ' ' :: (['<', '-'] ++ ' ' :: (s.value.written.toList ++ [';'])))) := by
    simp [Statement.display]
  rw [hline]
  refine .cons_token (.name hobject) (stops_cons.2 (by decide)) ?_
  refine .cons_token .dot (stops_isDigit_of_isName hfield _) ?_
  refine .cons_token (.name hfield) (stops_cons.2 (by decide)) ?_
  exact .cons_blank (by decide) (.cons_token .arrow trivial (.blank (by decide) _))

/-- A line with a value that can be written is read back. -/
theorem statements_display {s : Statement} (h : s.Writable) : statements s.display = .ok [s] := by
  have hlexes : Lexes s.display.toList s.tokens [] :=
    ((lexes_front h.object h.field).trans (lexes_value h.value)).trans (.token .semicolon trivial)
  obtain ⟨located, finish, htokenize, htokens⟩ := hlexes.tokenize
  refine statements_iff.2 ⟨List.cons_ne_nil _ _, ?_, located, finish, htokenize, ?_⟩
  · intro t ht
    rw [List.mem_singleton.1 ht]
    exact h.value.isEmptyList
  · rw [htokens, List.flatMap_singleton]

/-- If a line is read, the tokens behind its arrow begin with those of a value, and a semicolon. -/
theorem exists_value_of_statements {s : Statement} (hobject : isName s.object = true)
    (hfield : isName s.field = true) {stmts : List Statement} (h : statements s.display = .ok stmts) :
    ∃ (v : Value) (more : List Token) (read : List Located) (p : Position) (located : List Located)
      (finish : Position), v.isEmptyList = false ∧
      tokenizeFrom read p (s.value.written.toList ++ [';']) = .ok (located, finish) ∧
      located.map Located.token = read.reverse.map Located.token ++ (v.tokens ++ .semicolon :: more) := by
  obtain ⟨hne, hitems, located, finish, htokenize, htokens⟩ := statements_iff.1 h
  obtain ⟨first, q, hfirst, heq⟩ := lexes_front hobject hfield [] .start
  rw [tokenize, heq, List.append_nil] at htokenize
  obtain ⟨later, rfl⟩ := tokenizeFrom_extends htokenize
  cases stmts with
  | nil => exact absurd rfl hne
  | cons t stmts =>
    refine ⟨t.value, stmts.flatMap Statement.tokens, first.reverse, q, _, finish, hitems t List.mem_cons_self,
      htokenize, ?_⟩
    rw [List.map_append, List.reverse_reverse, hfirst, List.flatMap_cons, Statement.tokens] at htokens
    simp only [List.cons_append, List.cons.injEq, List.append_assoc, List.nil_append] at htokens
    rw [List.map_append, List.reverse_reverse, htokens.2.2.2.2]

/-- There is no name among the tokens of a value. -/
theorem name_notMem_tokens (v : Value) (name : String) : Token.name name ∉ v.tokens := by
  cases v with
  | text s => simp [Value.tokens]
  | number n => simp [Value.tokens]
  | texts items => cases items <;> simp [Value.tokens, listTokens, moreTokens]
  | numbers items => cases items <;> simp [Value.tokens, listTokens, moreTokens]

/-- A line whose value is spoiled is not read. -/
theorem not_read_of_spoiled {s : Statement} (hobject : isName s.object = true) (hfield : isName s.field = true)
    (hspoiled : Spoiled (s.value.written.toList ++ [';'])) (stmts : List Statement) :
    statements s.display ≠ .ok stmts := by
  intro h
  obtain ⟨v, more, read, p, located, finish, -, hok, htokens⟩ := exists_value_of_statements hobject hfield h
  obtain ⟨front, name, back, hname, hfront⟩ := hspoiled _ _ _ _ hok
  rw [htokens] at hname
  -- the name stands before the semicolon, among the tokens of the value
  rcases List.append_eq_append_iff.1 (List.append_cancel_left hname) with
    ⟨middle, hmiddle, hrest⟩ | ⟨middle, hmiddle, hrest⟩
  · cases middle with
    | nil => cases hrest
    | cons t middle =>
      cases hrest
      exact hfront (hmiddle ▸ List.mem_append_right _ List.mem_cons_self)
  · cases middle with
    | nil => cases hrest
    | cons t middle =>
      cases hrest
      exact name_notMem_tokens v name (hmiddle ▸ List.mem_append_right _ List.mem_cons_self)

/-- A line with a list without items is not read. -/
theorem not_read_of_empty {s : Statement} (hobject : isName s.object = true) (hfield : isName s.field = true)
    (hempty : s.value.isEmptyList = true) (stmts : List Statement) : statements s.display ≠ .ok stmts := by
  intro h
  obtain ⟨v, more, read, p, located, finish, hitems, hok, htokens⟩ := exists_value_of_statements hobject hfield h
  obtain ⟨brackets, q, hbrackets, heq⟩ := lexes_empty hempty [';'] read p
  rw [heq] at hok
  obtain ⟨later, rfl⟩ := tokenizeFrom_extends hok
  rw [List.reverse_append, List.reverse_reverse, List.map_append, List.map_append, hbrackets,
    List.append_assoc] at htokens
  have hlist := List.append_cancel_left htokens
  -- a list that is read has an item behind its bracket
  cases v with
  | text s => cases hlist
  | number n => cases hlist
  | texts items =>
    cases items with
    | nil => cases hitems
    | cons s items => cases hlist
  | numbers items =>
    cases items with
    | nil => cases hitems
    | cons n items => cases hlist

/-- A line whose value is a list without items, or holds a number that is not finite, is not read. -/
theorem not_read_of_not_proper {s : Statement} (hobject : isName s.object = true)
    (hfield : isName s.field = true) (h : ¬ s.value.Proper) (stmts : List Statement) :
    statements s.display ≠ .ok stmts := by
  obtain ⟨object, field, value⟩ := s
  cases value with
  | text text => exact absurd trivial h
  | number n =>
    exact not_read_of_spoiled hobject hfield
      (spoiled_text (Bool.eq_false_iff.2 h) (stops_cons.2 (by decide))) stmts
  | texts items =>
    obtain rfl : items = [] := not_not.1 h
    exact not_read_of_empty hobject hfield rfl stmts
  | numbers items =>
    by_cases hnil : items = []
    · subst hnil
      exact not_read_of_empty hobject hfield rfl stmts
    · have hinfinite : ∃ n ∈ items, n.isFinite = false := by
        by_contra hall
        refine h ⟨hnil, fun n hn => ?_⟩
        exact eq_true_of_ne_false fun hn' => hall ⟨n, hn, hn'⟩
      exact not_read_of_spoiled hobject hfield (spoiled_numbers hinfinite [';']) stmts

/-- **A line that was written is read back, or it is a syntax error.** A line is written unless its value holds a
    text that cannot be quoted. It is read, as the configuration with that one assignment, exactly if the
    numbers in its value are finite and the value is not a list without items; otherwise it is an error. -/
theorem written_reads_back_iff {s : Statement} {line : String} (hobject : isName s.object = true)
    (hfield : isName s.field = true) (h : s.written = .ok line) :
    (s.value.Proper ↔ ∃ config object, Config.parse line = .ok config ∧ config.entries = [(s.object, object)] ∧
      object.entries = [(s.field, s.value)]) ∧
    (¬ s.value.Proper ↔ ∃ e, Config.parse line = .error (.syntaxError e)) := by
  obtain ⟨hquote, rfl⟩ := Statement.written_iff.1 h
  by_cases hproper : s.value.Proper
  · have hread := statements_display ⟨hobject, hfield, hproper.writable hquote⟩
    have hparse : Config.parse s.display = .ok (Config.ofStatements [s]) := by rw [Config.parse, hread]
    refine ⟨⟨fun _ => ⟨_, _, hparse, rfl, rfl⟩, fun _ => hproper⟩, fun hnot => absurd hproper hnot, ?_⟩
    rintro ⟨e, he⟩
    rw [hparse] at he
    cases he
  · obtain ⟨e, herror⟩ : ∃ e, Config.parse s.display = .error (.syntaxError e) := by
      cases hread : statements s.display with
      | ok stmts => exact absurd hread (not_read_of_not_proper hobject hfield hproper stmts)
      | error e => exact ⟨e, by rw [Config.parse, hread]⟩
    refine ⟨⟨fun hyes => absurd hyes hproper, ?_⟩, fun _ => ⟨e, herror⟩, fun _ => hproper⟩
    rintro ⟨config, object, hparse, -⟩
    rw [herror] at hparse
    cases hparse

/-- A list of texts, one of which needs an escape and one of which is empty, is written and read back. -/
theorem written_reads_back_iff_quote :
    ∃ line config object, Statement.written ⟨"a", "x", .texts ["it's", ""]⟩ = .ok line ∧
      Config.parse line = .ok config ∧ config.entries = [("a", object)] ∧
      object.entries = [("x", .texts ["it's", ""])] := by
  have hproper : (Value.texts ["it's", ""]).Proper := List.cons_ne_nil _ _
  obtain ⟨config, object, hparse, hentries, hfields⟩ :=
    (written_reads_back_iff (s := ⟨"a", "x", .texts ["it's", ""]⟩) (by decide) (by decide) rfl).1.1 hproper
  exact ⟨_, config, object, rfl, hparse, hentries, hfields⟩

/-- **What is not a number is written, and is not read.** -/
theorem nan_written_and_refused :
    Statement.written ⟨"a", "x", .number .nan⟩ = .ok "a.x <- NaN;" ∧
      Config.parse "a.x <- NaN;" = .error (.syntaxError ⟨⟨1, 8⟩, .value, .token (.name "NaN")⟩) := by
  have hread : statements "a.x <- NaN;" = .error ⟨⟨1, 8⟩, .value, .token (.name "NaN")⟩ := by
    decide +kernel
  exact ⟨rfl, by rw [Config.parse, hread]⟩

end GraphWire
