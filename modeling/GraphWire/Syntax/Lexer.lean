import GraphWire.Text.Blank
import GraphWire.Syntax.Token

/-!
# `GraphWire.Syntax.Lexer` — from characters to tokens

White space and comments may stand between tokens; a comment runs from `#` to the end of its line.
A point begins a numeral only before a digit. In a text a backslash escapes the quote and nothing
else.

## Contents
- **`skipTrivia`**, past white space and comments.
- **Single tokens.** `scanText`, `scanName`, `scanNumber`, and `scanToken`, which tells them apart.
- **`tokenize`**, all tokens of a text with their places, and the place of its end.
- **Progress.** What is left behind a token is shorter than what it was taken from.
-/

namespace GraphWire

/-! ## Trivia -/

/-- Passes over white space and comments; `inComment` says whether the text begins inside one. -/
def skipTrivia (inComment : Bool) (p : Position) : List Char → Position × List Char
  | [] => (p, [])
  | c :: rest =>
    if inComment then skipTrivia (c != '\n') (p.step c) rest
    else if isBlank c then skipTrivia false (p.step c) rest
    else if c = '#' then skipTrivia true (p.step c) rest
    else (p, c :: rest)

/-! ## Single tokens -/

/-- A token that was read, the place behind it, and the rest of the text. -/
structure Scanned where
  token : Token
  next : Position
  rest : List Char

def isNameStart (c : Char) : Bool := c.isAlpha || c == '_'

def isNameChar (c : Char) : Bool := c.isAlphanum || c == '_'

/-- Reads to the closing quote of a text; `read` holds the characters so far, last one first. -/
def scanText (read : List Char) (p : Position) : List Char → Option Scanned
  | [] => none
  | '\\' :: '\'' :: rest => scanText ('\'' :: read) ((p.step '\\').step '\'') rest
  | '\'' :: rest => some ⟨.text (String.ofList read.reverse), p.step '\'', rest⟩
  | c :: rest => scanText (c :: read) (p.step c) rest

/-- Reads a name. -/
def scanName (p : Position) (cs : List Char) : Scanned :=
  let name := cs.takeWhile isNameChar
  ⟨.name (String.ofList name), p.after name, cs.dropWhile isNameChar⟩

/-- Reads a numeral of finite value. -/
def scanNumber (p : Position) (cs : List Char) : Except SyntaxError Scanned :=
  match Numeral.scan? cs with
  | .ok (numeral, rest) =>
    let number := numeral.value.toNumber
    if number.isFinite then .ok ⟨.number number, p.after numeral.spelling, rest⟩
    else .error ⟨p, .finiteNumber, .spelling numeral.spelling⟩
  | .error (need, read) =>
    let expected := match need with
      | .digits => .digits
      | .exponentDigits => .exponentDigits
    .error ⟨p.after read, expected, .first (cs.drop read.length)⟩

/-- Reads the token that begins with `c`. -/
def scanToken (p : Position) (c : Char) (rest : List Char) : Except SyntaxError Scanned :=
  let mark (t : Token) : Except SyntaxError Scanned := .ok ⟨t, p.step c, rest⟩
  if c = '.' ∧ ¬ (rest.head?.any Char.isDigit) then mark .dot
  else if c = ';' then mark .semicolon
  else if c = ',' then mark .comma
  else if c = '[' then mark .leftBracket
  else if c = ']' then mark .rightBracket
  else if c = '<' then
    match rest with
    | '-' :: rest => .ok ⟨.arrow, (p.step c).step '-', rest⟩
    | _ => .error ⟨p.step c, .arrowEnd, .first rest⟩
  else if c = '\'' then
    match scanText [] (p.step c) rest with
    | some scanned => .ok scanned
    | none => .error ⟨p, .closingQuote, .endOfInput⟩
  else if c.isDigit || Numeral.isSign c || c == '.' then scanNumber p (c :: rest)
  else if isNameStart c then .ok (scanName p (c :: rest))
  else .error ⟨p, .token, .character c⟩

/-! ## Progress -/

theorem length_skipTrivia_le (inComment : Bool) (p : Position) (cs : List Char) :
    (skipTrivia inComment p cs).2.length ≤ cs.length := by
  induction cs generalizing inComment p with
  | nil => simp [skipTrivia]
  | cons c rest ih =>
    simp only [skipTrivia]
    split
    · exact Nat.le_succ_of_le (ih _ _)
    · split
      · exact Nat.le_succ_of_le (ih _ _)
      · split
        · exact Nat.le_succ_of_le (ih _ _)
        · exact Nat.le_refl _

theorem length_scanText_lt {read : List Char} {p : Position} {cs : List Char} {s : Scanned}
    (h : scanText read p cs = some s) : s.rest.length < cs.length := by
  fun_induction scanText read p cs with
  | case1 => simp at h
  | case2 read p rest ih => have := ih h; simp; omega
  | case3 read p rest => simp at h; simp [← h]
  | case4 read p c rest _ _ ih => have := ih h; simp; omega

theorem length_scanNumber_lt {p : Position} {cs : List Char} {s : Scanned}
    (h : scanNumber p cs = .ok s) : s.rest.length < cs.length := by
  unfold scanNumber at h
  split at h
  · next numeral rest hs =>
    dsimp only at h
    split at h
    · cases h; exact Numeral.length_lt_of_scan? hs
    · cases h
  · cases h

theorem length_scanName_lt (p : Position) {c : Char} (rest : List Char) (h : isNameStart c) :
    (scanName p (c :: rest)).rest.length < (c :: rest).length := by
  have hc : isNameChar c = true := by
    simp only [isNameStart, isNameChar, Char.isAlphanum] at *; grind
  simp only [scanName, List.dropWhile_cons, hc, if_true, List.length_cons]
  exact Nat.lt_succ_of_le (List.dropWhile_sublist _).length_le

theorem length_scanToken_lt {p : Position} {c : Char} {rest : List Char} {s : Scanned}
    (h : scanToken p c rest = .ok s) : s.rest.length < (c :: rest).length := by
  unfold scanToken at h
  dsimp only at h
  repeat' split at h
  all_goals first
    | (cases h; done)
    | (cases h; exact Nat.lt_succ_self _)
    | skip
  · cases h; exact Nat.lt_succ_of_lt (Nat.lt_succ_self _)
  · next hs => cases h; exact Nat.lt_succ_of_lt (length_scanText_lt hs)
  · exact length_scanNumber_lt h
  · next hn => cases h; exact length_scanName_lt p rest hn

/-! ## The tokens of a text -/

/-- The tokens from a place on, behind those already read, which are given last one first. -/
def tokenizeFrom (read : List Located) (p : Position) (cs : List Char) :
    Except SyntaxError (List Located × Position) :=
  match _ht : skipTrivia false p cs with
  | (q, []) => .ok (read.reverse, q)
  | (q, c :: rest) =>
    match _hs : scanToken q c rest with
    | .error e => .error e
    | .ok s => tokenizeFrom (⟨s.token, q⟩ :: read) s.next s.rest
  termination_by cs.length
  decreasing_by
    have skipped := length_skipTrivia_le false p cs
    have scanned := length_scanToken_lt _hs
    rw [_ht] at skipped
    exact Nat.lt_of_lt_of_le scanned skipped

/-- The tokens of a text in order, and the place of its end. -/
def tokenize (text : String) : Except SyntaxError (List Located × Position) :=
  tokenizeFrom [] .start text.toList

end GraphWire
