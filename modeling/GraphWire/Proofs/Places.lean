import GraphWire.Proofs.Grammar
import Mathlib.Data.List.Induction

/-!
# `Proofs.Places` — tokens and faults stand where they are said to stand

The scanner counts lines and columns as it goes, one character at a time and in many loops. All of them
move the place by `Position.step`, so what is counted depends on nothing but the characters that were passed:
the line feeds among them, and the characters behind the last of these.

## Contents
- **`Position.behind`**, the place behind a text, by counting. `Position.after_start`.
- **`Piece.placed`**, the tokens of a text at the places where they stand.
- **Faults.** `scanToken_eq_closingQuote_iff` and `scanToken_eq_finiteNumber_iff`.
- **Whole texts.** `tokenize_eq_ok_iff`, `tokenize_eq_closingQuote_iff` and `tokenize_eq_finiteNumber_iff`.
- **`tokens_stand_at_their_places`**.
-/

namespace GraphWire

/-! ## Counting -/

/-- The place behind a text: one line more than there are line feeds, and one column more than there are
    characters behind the last of these. -/
def Position.behind (cs : List Char) : Position where
  line := 1 + cs.count '\n'
  column := 1 + (cs.reverse.takeWhile (· != '\n')).length

theorem Position.step_behind (cs : List Char) (c : Char) : (behind cs).step c = behind (cs ++ [c]) := by
  by_cases hc : c = '\n'
  · subst hc
    simp [behind, step, Nat.add_assoc]
  · simp [behind, step, hc, Nat.add_comm]

/-- **The scanner counts lines and columns.** -/
theorem Position.after_start (cs : List Char) : start.after cs = behind cs := by
  induction cs using List.reverseRecOn with
  | nil => rfl
  | append_singleton cs c ih =>
    rw [after_append, ih]
    exact step_behind cs c

/-- The tokens of the pieces, each with the place of its first character in a text that has `before` in front
    of the pieces. -/
def Piece.placed (before : List Char) : List Piece → List Located
  | [] => []
  | piece :: pieces =>
    ⟨piece.token, .behind (before ++ piece.gap)⟩ :: placed (before ++ piece.gap ++ piece.spelling) pieces

theorem Piece.located_behind (before : List Char) (pieces : List Piece) :
    located (.behind before) pieces = placed before pieces := by
  induction pieces generalizing before with
  | nil => rfl
  | cons piece pieces ih =>
    simp only [located, placed, ← ih, ← Position.after_start, Position.after_append]

/-! ## Faults -/

/-- A numeral is at fault for a digit that it lacks, or for its value. -/
theorem scanNumber_eq_error {p : Position} {cs : List Char} {e : SyntaxError}
    (h : scanNumber p cs = .error e) :
    (∃ numeral rest, Numeral.scan? cs = .ok (numeral, rest) ∧
      numeral.value.toNumber.isFinite = false ∧ e = ⟨p, .finiteNumber, .spelling numeral.spelling⟩) ∨
    e.expected = .digits ∨ e.expected = .exponentDigits := by
  unfold scanNumber at h
  split at h
  · next numeral rest hscan =>
    dsimp only at h
    split at h
    · cases h
    · next hinfinite =>
      cases h
      exact Or.inl ⟨numeral, rest, hscan, eq_false_of_ne_true hinfinite, rfl⟩
  · next need read hscan =>
    cases h
    cases need with
    | digits => exact Or.inr (Or.inl rfl)
    | exponentDigits => exact Or.inr (Or.inr rfl)

/-- What can be at fault where a token should begin. -/
theorem scanToken_eq_error {p : Position} {c : Char} {cs : List Char} {e : SyntaxError}
    (h : scanToken p c cs = .error e) :
    (c = '\'' ∧ scanText [] (p.step c) cs = none ∧ e = ⟨p, .closingQuote, .endOfInput⟩) ∨
    scanNumber p (c :: cs) = .error e ∨ e.expected = .arrowEnd ∨ e.expected = .token := by
  unfold scanToken at h
  dsimp only at h
  iterate 5
    split at h
    · cases h
  split at h
  · split at h
    · cases h
    · cases h
      exact Or.inr (Or.inr (Or.inl rfl))
  split at h
  · next hquote =>
    split at h
    · cases h
    · next hscan =>
      cases h
      exact Or.inl ⟨hquote, hscan, rfl⟩
  split at h
  · exact Or.inr (Or.inl h)
  split at h
  · cases h
  · cases h
    exact Or.inr (Or.inr (Or.inr rfl))

/-- **A text that is not closed is at fault where it begins.** -/
theorem scanToken_eq_closingQuote_iff {p : Position} {c : Char} {cs : List Char} {e : SyntaxError} :
    scanToken p c cs = .error e ∧ e.expected = .closingQuote ↔
      c = '\'' ∧ Unclosed cs ∧ e = ⟨p, .closingQuote, .endOfInput⟩ := by
  constructor
  · rintro ⟨h, hexpected⟩
    rcases scanToken_eq_error h with ⟨hquote, hscan, he⟩ | hnumber | harrow | htoken
    · exact ⟨hquote, scanText_eq_none_iff.1 hscan, he⟩
    · rcases scanNumber_eq_error hnumber with ⟨_, _, -, -, rfl⟩ | hdigits | hdigits
      · cases hexpected
      · cases hexpected.symm.trans hdigits
      · cases hexpected.symm.trans hdigits
    · cases hexpected.symm.trans harrow
    · cases hexpected.symm.trans htoken
  · rintro ⟨rfl, hunclosed, rfl⟩
    rw [scanToken_quote, scanText_eq_none_iff.2 hunclosed]
    exact ⟨rfl, rfl⟩

/-- **A numeral whose value is not finite is at fault where it begins.** -/
theorem scanToken_eq_finiteNumber_iff {p : Position} {c : Char} {cs : List Char} {e : SyntaxError} :
    scanToken p c cs = .error e ∧ e.expected = .finiteNumber ↔
      ∃ (numeral : Numeral) (rest : List Char), c :: cs = numeral.spelling ++ rest ∧ numeral.WellFormed ∧
        Stops numeral.goesOn rest ∧ numeral.value.toNumber.isFinite = false ∧
        e = ⟨p, .finiteNumber, .spelling numeral.spelling⟩ := by
  constructor
  · rintro ⟨h, hexpected⟩
    rcases scanToken_eq_error h with ⟨-, -, rfl⟩ | hnumber | harrow | htoken
    · cases hexpected
    · rcases scanNumber_eq_error hnumber with ⟨numeral, rest, hscan, hinfinite, he⟩ | hdigits | hdigits
      · exact ⟨numeral, rest, (Numeral.scan?_append hscan).symm, Numeral.wellFormed_of_scan? hscan,
          Numeral.stops_of_scan? hscan, hinfinite, he⟩
      · cases hexpected.symm.trans hdigits
      · cases hexpected.symm.trans hdigits
    · cases hexpected.symm.trans harrow
    · cases hexpected.symm.trans htoken
  · rintro ⟨numeral, rest, htext, hwf, hstops, hinfinite, rfl⟩
    obtain ⟨d, ds, hspelling, -⟩ := hwf.first
    rw [hspelling, List.cons_append] at htext
    cases htext
    refine ⟨?_, rfl⟩
    rw [scanToken_numeral hwf hspelling, ← List.cons_append, ← hspelling, scanNumber,
      Numeral.scan?_spelling hwf hstops]
    exact if_neg (Bool.eq_false_iff.1 hinfinite)

/-! ## Whole texts -/

section Texts

variable {text : String} {located : List Located} {finish : Position} {e : SyntaxError}

/-- **A text has tokens exactly if it can be scanned to its end**, and these are then where they stand. -/
theorem tokenize_eq_ok_iff :
    tokenize text = .ok (located, finish) ↔
      ∃ pieces ending, ScannedTo text.toList pieces ending [] ∧ located = Piece.placed [] pieces ∧
        finish = .behind text.toList := by
  constructor
  · intro h
    obtain ⟨pieces, ending, hscanned, rfl, rfl⟩ := exists_scannedTo_of_tokenize h
    exact ⟨pieces, ending, hscanned, Piece.located_behind [] pieces, Position.after_start _⟩
  · rintro ⟨pieces, ending, hscanned, rfl, rfl⟩
    rw [hscanned.tokenize, Position.after_start, ← Piece.located_behind]
    rfl

/-- Otherwise it can be scanned up to a fault. -/
theorem exists_of_tokenize_error (h : tokenize text = .error e) :
    ∃ pieces gap c cs, ScannedTo text.toList pieces gap (c :: cs) ∧
      scanToken (.behind (Piece.chars pieces ++ gap)) c cs = .error e := by
  obtain ⟨pieces, gap, rest, hscanned, ⟨-, hok⟩ | ⟨c, cs, fault, rfl, herror, hfault⟩⟩ :=
    exists_scannedTo [] .start text.toList
  · rw [tokenize, hok] at h
    cases h
  · rw [tokenize, herror] at h
    cases h
    rw [Position.after_start] at hfault
    exact ⟨pieces, gap, c, cs, hscanned, hfault⟩

theorem tokenize_eq_closingQuote_iff :
    tokenize text = .error e ∧ e.expected = .closingQuote ↔
      ∃ pieces gap cs, ScannedTo text.toList pieces gap ('\'' :: cs) ∧ Unclosed cs ∧
        e = ⟨.behind (Piece.chars pieces ++ gap), .closingQuote, .endOfInput⟩ := by
  constructor
  · rintro ⟨h, hexpected⟩
    obtain ⟨pieces, gap, c, cs, hscanned, hfault⟩ := exists_of_tokenize_error h
    obtain ⟨rfl, hunclosed, he⟩ := scanToken_eq_closingQuote_iff.1 ⟨hfault, hexpected⟩
    exact ⟨pieces, gap, cs, hscanned, hunclosed, he⟩
  · rintro ⟨pieces, gap, cs, hscanned, hunclosed, he⟩
    obtain ⟨hfault, hexpected⟩ := scanToken_eq_closingQuote_iff.2 ⟨rfl, hunclosed, he⟩
    rw [← Position.after_start] at hfault
    exact ⟨hscanned.tokenize_error (by decide) (by decide) hfault, hexpected⟩

theorem tokenize_eq_finiteNumber_iff :
    tokenize text = .error e ∧ e.expected = .finiteNumber ↔
      ∃ (pieces : List Piece) (gap : List Char) (numeral : Numeral) (rest : List Char),
        ScannedTo text.toList pieces gap (numeral.spelling ++ rest) ∧ numeral.WellFormed ∧
        Stops numeral.goesOn rest ∧ numeral.value.toNumber.isFinite = false ∧
        e = ⟨.behind (Piece.chars pieces ++ gap), .finiteNumber, .spelling numeral.spelling⟩ := by
  constructor
  · rintro ⟨h, hexpected⟩
    obtain ⟨pieces, gap, c, cs, hscanned, hfault⟩ := exists_of_tokenize_error h
    obtain ⟨numeral, rest, htext, hwf, hstops, hinfinite, he⟩ :=
      scanToken_eq_finiteNumber_iff.1 ⟨hfault, hexpected⟩
    exact ⟨pieces, gap, numeral, rest, htext ▸ hscanned, hwf, hstops, hinfinite, he⟩
  · rintro ⟨pieces, gap, numeral, rest, hscanned, hwf, hstops, hinfinite, he⟩
    obtain ⟨c, cs, hspelling, hblank, hcomment⟩ := hwf.no_trivia
    have htext : numeral.spelling ++ rest = c :: (cs ++ rest) := by
      rw [hspelling]
      rfl
    rw [htext] at hscanned
    obtain ⟨hfault, hexpected⟩ :=
      scanToken_eq_finiteNumber_iff.2 ⟨numeral, rest, htext.symm, hwf, hstops, hinfinite, he⟩
    rw [← Position.after_start] at hfault
    exact ⟨hscanned.tokenize_error hblank hcomment hfault, hexpected⟩

end Texts

/-- **Tokens stand where they are said to stand**, and so do a text that is not closed and a numeral whose value
    is not finite. A text has tokens exactly if it can be scanned to its end; each is then at the place of
    its first character, by counting the lines and columns of all that comes before it. A text is refused for
    a closing quote, or for a finite number, exactly if it can be scanned up to such a fault, and the error is
    about the place where that begins. -/
theorem tokens_stand_at_their_places (text : String) :
    (∀ located finish, tokenize text = .ok (located, finish) ↔
      ∃ pieces ending, ScannedTo text.toList pieces ending [] ∧ located = Piece.placed [] pieces ∧
        finish = .behind text.toList) ∧
    (∀ e, tokenize text = .error e ∧ e.expected = .closingQuote ↔
      ∃ pieces gap cs, ScannedTo text.toList pieces gap ('\'' :: cs) ∧ Unclosed cs ∧
        e = ⟨.behind (Piece.chars pieces ++ gap), .closingQuote, .endOfInput⟩) ∧
    ∀ e, tokenize text = .error e ∧ e.expected = .finiteNumber ↔
      ∃ (pieces : List Piece) (gap : List Char) (numeral : Numeral) (rest : List Char),
        ScannedTo text.toList pieces gap (numeral.spelling ++ rest) ∧ numeral.WellFormed ∧
        Stops numeral.goesOn rest ∧ numeral.value.toNumber.isFinite = false ∧
        e = ⟨.behind (Piece.chars pieces ++ gap), .finiteNumber, .spelling numeral.spelling⟩ :=
  ⟨fun _ _ => tokenize_eq_ok_iff, fun _ => tokenize_eq_closingQuote_iff,
    fun _ => tokenize_eq_finiteNumber_iff⟩

/-- Behind a text of two lines and a comment. -/
example :
    (tokenize "'é\n\\'' # λ\n .5 x").toOption =
      some ([⟨.text "é\n'", ⟨1, 1⟩⟩, ⟨.number (.nearest false 1 2), ⟨3, 2⟩⟩, ⟨.name "x", ⟨3, 5⟩⟩], ⟨3, 6⟩) ∧
    tokenize "a.x <- 1;\n 'b" = .error ⟨⟨2, 2⟩, .closingQuote, .endOfInput⟩ := by decide +kernel

end GraphWire
