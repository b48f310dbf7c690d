import GraphWire.Proofs.Numerals
import GraphWire.Proofs.Quoting

/-!
# `Proofs.Tokens` — tokens and their spellings

A token has one spelling, unless it is a number. The scanner reads a spelling back whole as long as
what follows could not carry the token on; and what it reads of any text is a spelling of the token
it returns.

## Contents
- **Spellings.** `Token.Spells`, and `Token.Parted`, what can carry no such token on. `Token.Stands`, a spelling
  in front of what does not carry it on: `scanToken_of_stands` and `stands_of_scanToken`.
- **`Lexes`**, said of two texts if the first goes on with some tokens and then with the second.
- **`Lexes.tokenize`** and `spells_of_tokenize`, for whole texts.
-/

namespace GraphWire

/-! ## Spellings -/

/-- Whether the text can stand as a name. -/
def isName (s : String) : Bool :=
  match s.toList with
  | [] => false
  | c :: cs => isNameStart c && cs.all isNameChar

namespace Token

/-- The spellings of a token. -/
inductive Spells : Token → List Char → Prop where
  | name {s : String} (h : isName s = true) : Spells (.name s) s.toList
  | text {s : String} (h : Value.isUnquotable s = false) : Spells (.text s) (quoted s).toList
  | number {numeral : Numeral} (wellFormed : numeral.WellFormed)
      (finite : numeral.value.toNumber.isFinite = true) :
      Spells (.number numeral.value.toNumber) numeral.spelling
  | dot : Spells .dot ['.']
  | arrow : Spells .arrow ['<', '-']
  | semicolon : Spells .semicolon [';']
  | comma : Spells .comma [',']
  | leftBracket : Spells .leftBracket ['[']
  | rightBracket : Spells .rightBracket [']']

/-- What follows cannot carry the token on. -/
def Parted (t : Token) (rest : List Char) : Prop :=
  match t with
  | name _ => Stops isNameChar rest
  | number _ => Stops Numeral.mayContinue rest
  | dot => Stops Char.isDigit rest
  | _ => True

/-- The token is spelled so in front of `rest`, and nothing there carries the spelling on. -/
inductive Stands (rest : List Char) : Token → List Char → Prop where
  | name {s : String} (h : isName s = true) (ends : Stops isNameChar rest) :
      Stands rest (.name s) s.toList
  | text {s : String} (h : Value.isUnquotable s = false) : Stands rest (.text s) (quoted s).toList
  | number {numeral : Numeral} (wellFormed : numeral.WellFormed)
      (finite : numeral.value.toNumber.isFinite = true) (ends : Stops numeral.goesOn rest) :
      Stands rest (.number numeral.value.toNumber) numeral.spelling
  | dot (ends : Stops Char.isDigit rest) : Stands rest .dot ['.']
  | arrow : Stands rest .arrow ['<', '-']
  | semicolon : Stands rest .semicolon [';']
  | comma : Stands rest .comma [',']
  | leftBracket : Stands rest .leftBracket ['[']
  | rightBracket : Stands rest .rightBracket [']']

theorem Stands.spells {rest spelling : List Char} {t : Token} (h : t.Stands rest spelling) :
    t.Spells spelling := by
  cases h with
  | name h _ => exact .name h
  | text h => exact .text h
  | number wellFormed finite _ => exact .number wellFormed finite
  | dot _ => exact .dot
  | arrow => exact .arrow
  | semicolon => exact .semicolon
  | comma => exact .comma
  | leftBracket => exact .leftBracket
  | rightBracket => exact .rightBracket

/-- What can carry no such token on does not carry this spelling on. -/
theorem Spells.stands {rest spelling : List Char} {t : Token} (h : t.Spells spelling)
    (hrest : t.Parted rest) : t.Stands rest spelling := by
  cases h with
  | name h => exact .name h hrest
  | text h => exact .text h
  | number wellFormed finite =>
    exact .number wellFormed finite (Stops.mono hrest fun _ => Numeral.mayContinue_of_goesOn)
  | dot => exact .dot hrest
  | arrow => exact .arrow
  | semicolon => exact .semicolon
  | comma => exact .comma
  | leftBracket => exact .leftBracket
  | rightBracket => exact .rightBracket

/-- The text of a finite number is a spelling of it. -/
theorem Spells.number_text {n : Number} (hn : n.isFinite = true) :
    Spells (.number n) n.text.toList := by
  cases n with
  | nan => cases hn
  | infinite negative => cases hn
  | finite negative rank =>
    have hvalue : (Number.shortest negative rank).numeral.value.toNumber = .finite negative rank := by
      rw [Decimal.toNumber_numeral, Number.toNumber_shortest]
    have hfinite : (Number.shortest negative rank).numeral.value.toNumber.isFinite = true := by
      rw [hvalue]
      exact hn
    have hspells :=
      Spells.number (Decimal.wellFormed_numeral (Number.shortest negative rank)) hfinite
    have htext : (Number.finite negative rank).text.toList = (Number.shortest negative rank).plain :=
      String.toList_ofList
    rwa [hvalue, Decimal.spelling_numeral, ← htext] at hspells

end Token

/-! ### The first character of a spelling -/

/-- The characters that begin a token other than a name or a numeral. -/
def isMark (c : Char) : Bool :=
  c == '.' || c == ';' || c == ',' || c == '[' || c == ']' || c == '<' || c == '\''

/-- A character between the space and the end of ASCII is not blank. -/
theorem not_isBlank_of_visible {c : Char} (hl : 33 ≤ c.toNat) (hr : c.toNat ≤ 126) :
    isBlank c = false := by
  simp only [isBlank, Bool.or_eq_false_iff, Bool.and_eq_false_iff, decide_eq_false_iff_not,
    beq_eq_false_iff_ne]
  omega

theorem isNameChar_of_isNameStart {c : Char} (h : isNameStart c = true) : isNameChar c = true := by
  simp only [isNameStart, isNameChar, Char.isAlphanum] at *
  grind

/-- Letters are those of ASCII. -/
theorem toNat_of_isAlpha {c : Char} (h : c.isAlpha = true) : 65 ≤ c.toNat ∧ c.toNat ≤ 122 := by
  rcases Bool.or_eq_true_iff.1 h with h | h
  · obtain ⟨hl, hr⟩ := of_decide_eq_true h
    have hlower : 65 ≤ c.toNat := UInt32.le_iff_toNat_le.1 hl
    have hupper : c.toNat ≤ 90 := UInt32.le_iff_toNat_le.1 hr
    omega
  · obtain ⟨hl, hr⟩ := Bool.and_eq_true_iff.1 h
    have hlower : 97 ≤ c.toNat := UInt32.le_iff_toNat_le.1 (of_decide_eq_true hl)
    have hupper : c.toNat ≤ 122 := UInt32.le_iff_toNat_le.1 (of_decide_eq_true hr)
    omega

/-- No character begins both a name and a numeral. -/
theorem not_isDigit_of_isNameStart {c : Char} (h : isNameStart c = true) :
    c.isDigit = false ∧ Numeral.isSign c = false := by
  constructor
  · apply Bool.eq_false_iff.2
    intro hdigit
    rcases Bool.or_eq_true_iff.1 h with h | h
    · have hle : c.toNat ≤ 57 := (Char.isDigit_iff_toNat.1 hdigit).2
      have hletter := toNat_of_isAlpha h
      omega
    · rw [beq_iff_eq.1 h] at hdigit
      exact absurd hdigit (by decide)
  · apply Bool.eq_false_iff.2
    intro hsign
    rcases Bool.or_eq_true_iff.1 hsign with hsign | hsign <;>
    · rw [beq_iff_eq.1 hsign] at h
      exact absurd h (by decide)

theorem not_isMark_of_isNameChar {c : Char} (h : isNameChar c = true) : isMark c = false := by
  apply Bool.eq_false_iff.2
  intro hmark
  simp only [isMark, Bool.or_eq_true, beq_iff_eq] at hmark
  rcases hmark with (((((rfl | rfl) | rfl) | rfl) | rfl) | rfl) | rfl <;> exact absurd h (by decide)

theorem isNameChar_of_isDigit {c : Char} (h : c.isDigit = true) : isNameChar c = true := by
  simp [isNameChar, Char.isAlphanum, h]

theorem not_isMark_of_isSign {c : Char} (h : Numeral.isSign c = true) : isMark c = false := by
  rcases Bool.or_eq_true_iff.1 h with h | h <;> rw [beq_iff_eq.1 h] <;> rfl

/-- The scanner takes what begins with no mark for a numeral or a name. -/
theorem scanToken_of_not_isMark {c : Char} (hc : isMark c = false) (p : Position)
    (rest : List Char) :
    scanToken p c rest =
      if c.isDigit || Numeral.isSign c then scanNumber p (c :: rest)
      else if isNameStart c then .ok (scanName p (c :: rest))
      else .error ⟨p, .token, .character c⟩ := by
  simp only [isMark, Bool.or_eq_false_iff, beq_eq_false_iff_ne] at hc
  obtain ⟨⟨⟨⟨⟨⟨hdot, hsemicolon⟩, hcomma⟩, hleft⟩, hright⟩, hless⟩, hquote⟩ := hc
  have hpoint : (c == '.') = false := beq_eq_false_iff_ne.2 hdot
  unfold scanToken
  dsimp only
  rw [if_neg (fun h => hdot h.1), if_neg hsemicolon, if_neg hcomma, if_neg hleft, if_neg hright,
    if_neg hless, if_neg hquote, hpoint, Bool.or_false]

/-- A point before a digit begins a numeral. -/
theorem scanToken_point {d : Char} (hd : d.isDigit = true) (p : Position) (rest : List Char) :
    scanToken p '.' (d :: rest) = scanNumber p ('.' :: d :: rest) := by
  have hpoint : ¬ ('.' = '.' ∧ ¬ (d :: rest).head?.any Char.isDigit) := fun h => h.2 hd
  unfold scanToken
  dsimp only
  rw [if_neg hpoint]
  rfl

/-- A numeral begins with a digit or a sign, or with a point before a digit. -/
theorem Numeral.WellFormed.first {n : Numeral} (h : n.WellFormed) :
    ∃ c cs, n.spelling = c :: cs ∧
      ((c.isDigit || isSign c) = true ∨ c = '.' ∧ ∃ d ds, cs = d :: ds ∧ d.isDigit = true) := by
  obtain ⟨sign, whole, fraction, exponent⟩ := n
  obtain ⟨hsign, hwhole, hfraction, hne, hexponent⟩ := h
  simp only [spelling, List.append_assoc]
  cases sign with
  | some c => exact ⟨c, _, rfl, Or.inl (by simp [hsign c rfl])⟩
  | none =>
    cases whole with
    | cons c whole => exact ⟨c, _, rfl, Or.inl (by simp [hwhole c List.mem_cons_self])⟩
    | nil =>
      cases fraction with
      | none => exact absurd rfl hne
      | some digits =>
        cases digits with
        | nil => exact absurd rfl hne
        | cons d digits =>
          exact ⟨'.', _, rfl, Or.inr ⟨rfl, d, _, rfl, hfraction _ rfl d List.mem_cons_self⟩⟩

/-- A numeral is taken for one. -/
theorem scanToken_numeral {n : Numeral} (h : n.WellFormed) {c : Char} {cs : List Char}
    (hspelling : n.spelling = c :: cs) (p : Position) (rest : List Char) :
    scanToken p c (cs ++ rest) = scanNumber p (c :: (cs ++ rest)) := by
  obtain ⟨c', cs', hfirst, hkind⟩ := h.first
  rw [hspelling] at hfirst
  cases hfirst
  rcases hkind with hkind | ⟨rfl, d, ds, rfl, hd⟩
  · have hmark : isMark c = false := by
      rcases Bool.or_eq_true_iff.1 hkind with hdigit | hsign
      · exact not_isMark_of_isNameChar (isNameChar_of_isDigit hdigit)
      · exact not_isMark_of_isSign hsign
    rw [scanToken_of_not_isMark hmark, if_pos hkind]
  · exact scanToken_point hd p _

/-! ### Scanning a spelling -/

/-- A name is read up to the first character that cannot carry it on. -/
theorem scanName_append {name : String} {rest : List Char} (hname : isName name = true)
    (hrest : Stops isNameChar rest) (p : Position) :
    scanName p (name.toList ++ rest) = ⟨.name name, p.after name.toList, rest⟩ := by
  have hall : ∀ c ∈ name.toList, isNameChar c = true := by
    unfold isName at hname
    split at hname
    · cases hname
    · next c cs hcs =>
      rw [hcs]
      obtain ⟨hstart, hchars⟩ := Bool.and_eq_true_iff.1 hname
      intro d hd
      rcases List.mem_cons.1 hd with rfl | hd
      · exact isNameChar_of_isNameStart hstart
      · exact List.all_eq_true.1 hchars d hd
  rw [scanName, hrest.takeWhile_append hall, hrest.dropWhile_append hall, String.ofList_toList]

/-- **A spelling is read back as its token**, if what follows does not carry it on. -/
theorem scanToken_of_stands {t : Token} {c : Char} {cs rest : List Char}
    (h : t.Stands rest (c :: cs)) (p : Position) :
    scanToken p c (cs ++ rest) = .ok ⟨t, p.after (c :: cs), rest⟩ := by
  generalize hspelling : c :: cs = spelling at h
  cases h with
  | @name name hname hrest =>
    have hstart : isNameStart c = true := by
      rw [isName, ← hspelling] at hname
      exact (Bool.and_eq_true_iff.1 hname).1
    obtain ⟨hdigit, hsign⟩ := not_isDigit_of_isNameStart hstart
    rw [scanToken_of_not_isMark (not_isMark_of_isNameChar (isNameChar_of_isNameStart hstart)),
      hdigit, hsign, Bool.or_false, if_neg Bool.false_ne_true, if_pos hstart, ← List.cons_append, hspelling,
      scanName_append hname hrest]
  | @text content hcontent =>
    rw [toList_quoted] at hspelling
    cases hspelling
    have hlast : content.toList.getLast? ≠ some '\\' := by
      simpa [Value.isUnquotable] using hcontent
    rw [List.append_assoc, List.singleton_append, scanToken_quote, scanText_guarded hlast, List.reverse_nil,
      List.nil_append, String.ofList_toList, toList_quoted]
    rfl
  | @number numeral hwf hfinite hrest =>
    rw [scanToken_numeral hwf hspelling.symm, ← List.cons_append, hspelling, scanNumber,
      Numeral.scan?_spelling hwf hrest]
    exact if_pos hfinite
  | dot hrest =>
    cases hspelling
    -- in front of a digit the dot would begin a number
    have hpoint : rest.head?.any Char.isDigit = false := by
      cases rest with
      | nil => rfl
      | cons d rest => exact stops_cons.1 hrest
    unfold scanToken
    dsimp only
    rw [List.nil_append, hpoint]
    rfl
  | arrow => cases hspelling; rfl
  | semicolon => cases hspelling; rfl
  | comma => cases hspelling; rfl
  | leftBracket => cases hspelling; rfl
  | rightBracket => cases hspelling; rfl

/-! ### What a scanner returns -/

theorem stands_of_scanName {c : Char} (hc : isNameStart c = true) (p : Position)
    (rest : List Char) :
    ∃ spelling, (scanName p (c :: rest)).token.Stands (scanName p (c :: rest)).rest spelling ∧
      c :: rest = spelling ++ (scanName p (c :: rest)).rest ∧
      (scanName p (c :: rest)).next = p.after spelling := by
  have hname : isName (String.ofList ((c :: rest).takeWhile isNameChar)) = true := by
    have hall : (rest.takeWhile isNameChar).all isNameChar = true := List.all_takeWhile
    rw [isName, String.toList_ofList, List.takeWhile_cons, if_pos (isNameChar_of_isNameStart hc)]
    simp only [hc, hall, Bool.and_self]
  have hstands := Token.Stands.name hname (stops_dropWhile isNameChar (c :: rest))
  rw [String.toList_ofList] at hstands
  exact ⟨_, hstands, List.takeWhile_append_dropWhile.symm, rfl⟩

theorem stands_of_scanNumber {p : Position} {cs : List Char} {s : Scanned}
    (h : scanNumber p cs = .ok s) :
    ∃ spelling, s.token.Stands s.rest spelling ∧ cs = spelling ++ s.rest ∧
      s.next = p.after spelling := by
  unfold scanNumber at h
  split at h
  · next numeral rest hscan =>
    dsimp only at h
    split at h
    · next hfinite =>
      cases h
      exact ⟨numeral.spelling,
        .number (Numeral.wellFormed_of_scan? hscan) hfinite (Numeral.stops_of_scan? hscan),
        (Numeral.scan?_append hscan).symm, rfl⟩
    · cases h
  · cases h

theorem stands_of_scanText {p : Position} {cs : List Char} {s : Scanned}
    (h : scanText [] (p.step '\'') cs = some s) :
    ∃ spelling, s.token.Stands s.rest spelling ∧ '\'' :: cs = spelling ++ s.rest ∧
      s.next = p.after spelling := by
  obtain ⟨content, hcs, hlast, htoken, hnext⟩ := guarded_of_scanText h
  have hcontent : Value.isUnquotable (String.ofList content) = false := by
    rw [Value.isUnquotable, String.toList_ofList]
    exact beq_eq_false_iff_ne.2 hlast
  refine ⟨'\'' :: (guarded content ++ ['\'']), ?_, ?_, ?_⟩
  · have hstands : Token.Stands s.rest (.text _) _ := .text hcontent
    rw [toList_quoted, String.toList_ofList] at hstands
    rw [htoken]
    exact hstands
  · rw [hcs, List.cons_append, List.append_assoc]
    rfl
  · rw [hnext]
    rfl

theorem stands_of_mark {t : Token} {mark c : Char} {rest : List Char} (ht : t.Stands rest [mark])
    (hc : c = mark) (p : Position) :
    ∃ spelling, t.Stands rest spelling ∧ c :: rest = spelling ++ rest ∧ p.step c = p.after spelling := by
  subst hc
  exact ⟨[c], ht, rfl, rfl⟩

/-- **What is read stands at the front of the text as a spelling of the token returned**, and nothing
    behind it carries the spelling on. -/
theorem stands_of_scanToken {p : Position} {c : Char} {rest : List Char} {s : Scanned}
    (h : scanToken p c rest = .ok s) :
    ∃ spelling, s.token.Stands s.rest spelling ∧ c :: rest = spelling ++ s.rest ∧
      s.next = p.after spelling := by
  unfold scanToken at h
  dsimp only at h
  split at h
  · next hdot =>
    cases h
    have hrest : Stops Char.isDigit rest := by
      intro d hd
      have hnone := hdot.2
      rw [hd] at hnone
      exact eq_false_of_ne_true hnone
    exact stands_of_mark (.dot hrest) hdot.1 p
  split at h
  · next hc =>
    cases h
    exact stands_of_mark .semicolon hc p
  split at h
  · next hc =>
    cases h
    exact stands_of_mark .comma hc p
  split at h
  · next hc =>
    cases h
    exact stands_of_mark .leftBracket hc p
  split at h
  · next hc =>
    cases h
    exact stands_of_mark .rightBracket hc p
  split at h
  · next hc =>
    split at h
    · cases h
      exact ⟨['<', '-'], .arrow, by rw [hc]; rfl, by rw [hc]; rfl⟩
    · cases h
  split at h
  · next hc =>
    subst hc
    split at h
    · -- a text that is not closed is a fault, so only a closed one is left
      next hscan =>
      cases h
      exact stands_of_scanText hscan
    · cases h
  split at h
  · exact stands_of_scanNumber h
  split at h
  · next hstart =>
    cases h
    exact stands_of_scanName hstart p rest
  · cases h

/-! ## Texts that go on with tokens -/

theorem no_trivia_of_isNameChar {c : Char} (hc : isNameChar c = true) :
    isBlank c = false ∧ c ≠ '#' := by
  have hrange : 48 ≤ c.toNat ∧ c.toNat ≤ 122 := by
    rcases Bool.or_eq_true_iff.1 hc with hc | hc
    · rcases Bool.or_eq_true_iff.1 hc with hc | hc
      · have hletter := toNat_of_isAlpha hc
        omega
      · have hdigit : 48 ≤ c.toNat ∧ c.toNat ≤ 57 := Char.isDigit_iff_toNat.1 hc
        omega
    · rw [beq_iff_eq.1 hc]
      decide
  refine ⟨not_isBlank_of_visible (by omega) (by omega), ?_⟩
  intro hcomment
  rw [hcomment] at hc
  exact absurd hc (by decide)

theorem Numeral.WellFormed.no_trivia {n : Numeral} (h : n.WellFormed) :
    ∃ c cs, n.spelling = c :: cs ∧ isBlank c = false ∧ c ≠ '#' := by
  obtain ⟨c, cs, hspelling, hkind⟩ := h.first
  refine ⟨c, cs, hspelling, ?_⟩
  rcases hkind with hkind | ⟨rfl, -⟩
  · rcases Bool.or_eq_true_iff.1 hkind with hdigit | hsign
    · exact no_trivia_of_isNameChar (isNameChar_of_isDigit hdigit)
    · rcases Bool.or_eq_true_iff.1 hsign with hsign | hsign <;> rw [beq_iff_eq.1 hsign] <;> decide
  · decide

/-- No token begins with white space or as a comment does. -/
theorem Token.Spells.first {t : Token} {spelling : List Char} (h : t.Spells spelling) :
    ∃ c cs, spelling = c :: cs ∧ isBlank c = false ∧ c ≠ '#' := by
  cases h with
  | @name s hname =>
    unfold isName at hname
    split at hname
    · cases hname
    · next c cs hcs =>
      have hstart := isNameChar_of_isNameStart (Bool.and_eq_true_iff.1 hname).1
      exact ⟨c, cs, hcs, no_trivia_of_isNameChar hstart⟩
  | @text s _ => exact ⟨'\'', _, toList_quoted s, by decide, by decide⟩
  | number hwf _ => exact hwf.no_trivia
  | dot => exact ⟨_, _, rfl, by decide, by decide⟩
  | arrow => exact ⟨_, _, rfl, by decide, by decide⟩
  | semicolon => exact ⟨_, _, rfl, by decide, by decide⟩
  | comma => exact ⟨_, _, rfl, by decide, by decide⟩
  | leftBracket => exact ⟨_, _, rfl, by decide, by decide⟩
  | rightBracket => exact ⟨_, _, rfl, by decide, by decide⟩

/-- What is done with the text behind the trivia. -/
theorem tokenizeFrom_eq (read : List Located) (p : Position) (cs : List Char) :
    tokenizeFrom read p cs =
      match skipTrivia false p cs with
      | (q, []) => .ok (read.reverse, q)
      | (q, c :: rest) =>
        match scanToken q c rest with
        | .error e => .error e
        | .ok s => tokenizeFrom (⟨s.token, q⟩ :: read) s.next s.rest := by
  rw [tokenizeFrom]
  split
  · next hskip => rw [hskip]
  · next hskip =>
    rw [hskip]
    split
    · next hscan => simp only [hscan]
    · next hscan => simp only [hscan]

theorem tokenizeFrom_end {p q : Position} {cs : List Char} (h : skipTrivia false p cs = (q, []))
    (read : List Located) : tokenizeFrom read p cs = .ok (read.reverse, q) := by
  rw [tokenizeFrom_eq, h]

theorem tokenizeFrom_token {p q : Position} {c : Char} {cs rest : List Char} {s : Scanned}
    (h : skipTrivia false p cs = (q, c :: rest)) (hs : scanToken q c rest = .ok s)
    (read : List Located) :
    tokenizeFrom read p cs = tokenizeFrom (⟨s.token, q⟩ :: read) s.next s.rest := by
  rw [tokenizeFrom_eq, h]
  simp only [hs]

/-- Only what stands behind the trivia matters. -/
theorem tokenizeFrom_congr {p q : Position} {cs ds : List Char}
    (h : skipTrivia false p cs = skipTrivia false q ds) (read : List Located) :
    tokenizeFrom read p cs = tokenizeFrom read q ds := by
  rw [tokenizeFrom_eq, tokenizeFrom_eq read q, h]

/-- The text goes on with these tokens, and behind them with the other text. -/
def Lexes (cs : List Char) (tokens : List Token) (rest : List Char) : Prop :=
  ∀ read p, ∃ (located : List Located) (q : Position), located.map Located.token = tokens ∧
    tokenizeFrom read p cs = tokenizeFrom (located.reverse ++ read) q rest

namespace Lexes

theorem refl (cs : List Char) : Lexes cs [] cs := fun _ p => ⟨[], p, rfl, rfl⟩

theorem trans {a b c : List Char} {ts us : List Token} (hab : Lexes a ts b) (hbc : Lexes b us c) :
    Lexes a (ts ++ us) c := by
  intro read p
  obtain ⟨first, q, hfirst, hq⟩ := hab read p
  obtain ⟨second, r, hsecond, hr⟩ := hbc (first.reverse ++ read) q
  refine ⟨first ++ second, r, ?_, ?_⟩
  · rw [List.map_append, hfirst, hsecond]
  · rw [hq, hr, List.reverse_append, List.append_assoc]

/-- White space is passed over. -/
theorem blank {c : Char} (hc : isBlank c = true) (rest : List Char) : Lexes (c :: rest) [] rest := by
  intro read p
  refine ⟨[], p.step c, rfl, tokenizeFrom_congr ?_ _⟩
  rw [skipTrivia, if_neg Bool.false_ne_true, if_pos hc]

/-- **A spelling goes on with its token**, if what follows cannot carry it on. -/
theorem token {t : Token} {spelling rest : List Char} (h : t.Spells spelling)
    (hrest : t.Parted rest) : Lexes (spelling ++ rest) [t] rest := by
  intro read p
  refine ⟨[⟨t, p⟩], p.after spelling, rfl, ?_⟩
  obtain ⟨c, cs, rfl, hblank, hcomment⟩ := h.first
  have hskip : skipTrivia false p (c :: cs ++ rest) = (p, c :: (cs ++ rest)) := by
    rw [List.cons_append, skipTrivia, if_neg Bool.false_ne_true, if_neg (Bool.eq_false_iff.1 hblank),
      if_neg hcomment]
  exact tokenizeFrom_token hskip (scanToken_of_stands (h.stands hrest) p) read

/-- A text that goes on with tokens up to its end has these tokens. -/
theorem tokenize {text : String} {ts : List Token} (h : Lexes text.toList ts []) :
    ∃ located finish, GraphWire.tokenize text = .ok (located, finish) ∧
      located.map Located.token = ts := by
  obtain ⟨located, q, htokens, heq⟩ := h [] .start
  refine ⟨located, q, ?_, htokens⟩
  rw [GraphWire.tokenize, heq, tokenizeFrom_end rfl, List.append_nil, List.reverse_reverse]

end Lexes

/-- Behind tokens that have spellings only such are read. -/
theorem spells_of_tokenizeFrom {read located : List Located} {p finish : Position} {cs : List Char}
    (hread : ∀ t ∈ read, ∃ spelling, t.token.Spells spelling)
    (h : tokenizeFrom read p cs = .ok (located, finish)) :
    ∀ t ∈ located, ∃ spelling, t.token.Spells spelling := by
  fun_induction tokenizeFrom read p cs with
  | case1 read p cs q hskip =>
    cases h
    intro t ht
    exact hread t (List.mem_reverse.1 ht)
  | case2 => cases h
  | case3 read p cs q c rest hskip s hscan ih =>
    refine ih ?_ h
    intro t ht
    rcases List.mem_cons.1 ht with rfl | ht
    · obtain ⟨spelling, hstands, -⟩ := stands_of_scanToken hscan
      exact ⟨spelling, hstands.spells⟩
    · exact hread t ht

/-- **Every token of a text has a spelling**: names are names, texts do not end in a backslash and
    numbers are finite. -/
theorem spells_of_tokenize {text : String} {located : List Located} {finish : Position}
    (h : tokenize text = .ok (located, finish)) :
    ∀ t ∈ located, ∃ spelling, t.token.Spells spelling :=
  spells_of_tokenizeFrom (fun _ ht => by cases ht) h

end GraphWire
