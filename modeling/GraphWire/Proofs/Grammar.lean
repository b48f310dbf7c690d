import GraphWire.Proofs.Canonical

/-!
# `Proofs.Grammar` — which texts are read, and what they mean

A text is read exactly if it is laid out as statements: the spellings of their tokens one after another, and
nothing but white space and comments around them. One direction takes the text apart as the scanner does; the
other puts it together, where a gap before the next token is enough for no token to be carried on into it.
What the statements result in is said field by field, without mention of how the configuration comes about.

## Contents
- **`Trivia`**, what may stand between tokens. `trivia_of_skipTrivia` and `Trivia.skip`.
- **`Piece`**, a token with its spelling and what comes before it, and `Piece.Standing`, `Piece.located`.
- **Soundness and completeness.** `exists_scannedTo` takes any text apart into pieces, and
  `tokenizeFrom_pieces` reads them.
- **`Outcome`**, what statements result in.
- **`LaidOut`**, a text as statements, and **`parse_iff_laidOut`**.
-/

namespace GraphWire

/-! ## Trivia -/

/-- White space and comments. A comment ends with its line feed; one that nothing follows may also end with
    the text. -/
inductive Trivia (atEnd : Bool) : List Char → Prop where
  | nothing : Trivia atEnd []
  | blank {c : Char} {cs : List Char} (blank : isBlank c = true) (rest : Trivia atEnd cs) :
      Trivia atEnd (c :: cs)
  | comment {line cs : List Char} (noFeed : '\n' ∉ line) (rest : Trivia atEnd cs) :
      Trivia atEnd ('#' :: (line ++ '\n' :: cs))
  | unended {line : List Char} (last : atEnd = true) (noFeed : '\n' ∉ line) :
      Trivia atEnd ('#' :: line)

namespace Trivia

variable {atEnd : Bool}

/-- One more character of a comment. -/
theorem cons_comment {c : Char} {cs : List Char} (hc : c ≠ '\n') (h : Trivia atEnd ('#' :: cs)) :
    Trivia atEnd ('#' :: c :: cs) := by
  have hnot : ∀ {line : List Char}, '\n' ∉ line → '\n' ∉ c :: line :=
    fun hline hmem => hline (List.mem_of_ne_of_mem (Ne.symm hc) hmem)
  generalize htext : '#' :: cs = text at h
  cases h with
  | nothing => cases htext
  | blank blank _ =>
    cases htext
    exact absurd blank (by decide)
  | comment noFeed rest =>
    cases htext
    exact .comment (hnot noFeed) rest
  | unended last noFeed =>
    cases htext
    exact .unended last (hnot noFeed)

/-- No token goes on into trivia. -/
theorem parted {cs : List Char} (h : Trivia atEnd cs) (hne : cs ≠ []) (t : Token)
    (rest : List Char) : t.Parted (cs ++ rest) := by
  have hname : ∃ c tail, cs = c :: tail ∧ isNameChar c = false ∧ c ≠ '.' := by
    cases h with
    | nothing => exact absurd rfl hne
    | @blank c tail blank _ =>
      refine ⟨c, tail, rfl, ?_, ?_⟩
      · apply Bool.eq_false_iff.2
        intro hc
        rw [(no_trivia_of_isNameChar hc).1] at blank
        cases blank
      · rintro rfl
        exact absurd blank (by decide)
    | comment noFeed rest => exact ⟨'#', _, rfl, by decide, by decide⟩
    | unended last noFeed => exact ⟨'#', _, rfl, by decide, by decide⟩
  obtain ⟨c, tail, rfl, hc, hpoint⟩ := hname
  have hdigit : c.isDigit = false := by
    apply Bool.eq_false_iff.2
    intro hdigit
    rw [isNameChar_of_isDigit hdigit] at hc
    cases hc
  have hletter : Numeral.isExponentLetter c = false := by
    apply Bool.eq_false_iff.2
    intro hletter
    rcases Bool.or_eq_true_iff.1 hletter with hletter | hletter <;>
    · rw [beq_iff_eq.1 hletter] at hc
      exact absurd hc (by decide)
  cases t with
  | name s => exact stops_cons.2 hc
  | number n =>
    apply stops_cons.2
    rw [Numeral.mayContinue, hdigit, hletter, beq_eq_false_iff_ne.2 hpoint]
    rfl
  | dot => exact stops_cons.2 hdigit
  | text s => trivial
  | arrow => trivial
  | semicolon => trivial
  | comma => trivial
  | leftBracket => trivial
  | rightBracket => trivial

/-- Nor does a token go on where the text ends. -/
theorem parted_end {cs : List Char} (h : Trivia atEnd cs) (t : Token) : t.Parted cs := by
  cases cs with
  | nil => cases t <;> first | trivial | exact fun c hc => by cases hc
  | cons c cs =>
    have hparted := h.parted (List.cons_ne_nil c cs) t []
    rwa [List.append_nil] at hparted

end Trivia

/-- **What the scanner passes over is trivia**, and the scanner is then behind it. Inside a comment it goes on
    as behind the sign that begins one. -/
theorem trivia_of_skipTrivia {inComment : Bool} {p q : Position} {cs rest : List Char}
    (h : skipTrivia inComment p cs = (q, rest)) :
    ∃ gap, cs = gap ++ rest ∧ q = p.after gap ∧
      Trivia rest.isEmpty (if inComment then '#' :: gap else gap) := by
  induction cs generalizing inComment p with
  | nil =>
    cases h
    cases inComment with
    | false => exact ⟨[], rfl, rfl, .nothing⟩
    | true => exact ⟨[], rfl, rfl, .unended rfl List.not_mem_nil⟩
  | cons c cs ih =>
    rw [skipTrivia] at h
    by_cases hcomment : inComment = true
    · subst hcomment
      rw [if_pos rfl] at h
      obtain ⟨gap, rfl, hq, htrivia⟩ := ih h
      refine ⟨c :: gap, rfl, hq, ?_⟩
      by_cases hc : c = '\n'
      · subst hc
        exact .comment List.not_mem_nil htrivia
      · rw [if_pos (bne_iff_ne.2 hc)] at htrivia
        exact htrivia.cons_comment hc
    · rw [if_neg hcomment] at h
      rw [Bool.eq_false_iff.2 hcomment]
      by_cases hblank : isBlank c = true
      · rw [if_pos hblank] at h
        obtain ⟨gap, rfl, hq, htrivia⟩ := ih h
        exact ⟨c :: gap, rfl, hq, .blank hblank htrivia⟩
      · rw [if_neg hblank] at h
        by_cases hsign : c = '#'
        · -- the sign begins a comment, which the rest is scanned as
          subst hsign
          rw [if_pos rfl] at h
          obtain ⟨gap, rfl, hq, htrivia⟩ := ih h
          exact ⟨'#' :: gap, rfl, hq, htrivia⟩
        · rw [if_neg hsign] at h
          cases h
          exact ⟨[], rfl, rfl, .nothing⟩

theorem skipTrivia_sign (p : Position) (rest : List Char) :
    skipTrivia false p ('#' :: rest) = skipTrivia true (p.step '#') rest := rfl

/-- A comment is passed over up to its line feed. -/
theorem skipTrivia_comment {line : List Char} (hline : '\n' ∉ line) (p : Position)
    (rest : List Char) :
    skipTrivia true p (line ++ '\n' :: rest) = skipTrivia false (p.after (line ++ ['\n'])) rest := by
  induction line generalizing p with
  | nil => rfl
  | cons c line ih =>
    obtain ⟨hc, hrest⟩ := not_or.1 (mt List.mem_cons.2 hline)
    rw [List.cons_append, skipTrivia, if_pos rfl, bne_iff_ne.2 (Ne.symm hc), ih hrest]
    rfl

/-- A comment without a line feed is passed over up to the end of the text. -/
theorem skipTrivia_unended {line : List Char} (hline : '\n' ∉ line) (p : Position) :
    skipTrivia true p line = (p.after line, []) := by
  induction line generalizing p with
  | nil => rfl
  | cons c line ih =>
    obtain ⟨hc, hrest⟩ := not_or.1 (mt List.mem_cons.2 hline)
    rw [skipTrivia, if_pos rfl, bne_iff_ne.2 (Ne.symm hc), ih hrest]
    rfl

/-- **Trivia is passed over**; a comment need not be ended where nothing follows. -/
theorem Trivia.skip {atEnd : Bool} {cs rest : List Char} (h : Trivia atEnd cs)
    (hrest : atEnd = true → rest = []) (p : Position) :
    skipTrivia false p (cs ++ rest) = skipTrivia false (p.after cs) rest := by
  induction h generalizing p with
  | nothing => rfl
  | @blank c cs blank _ ih =>
    rw [List.cons_append, skipTrivia, if_neg Bool.false_ne_true, if_pos blank, ih]
    rfl
  | @comment line cs noFeed _ ih =>
    have htext : '#' :: (line ++ '\n' :: cs) = '#' :: (line ++ ['\n']) ++ cs := by simp
    have hwhole : '#' :: (line ++ ['\n']) ++ cs ++ rest = '#' :: (line ++ '\n' :: (cs ++ rest)) := by
      simp
    rw [htext, hwhole, skipTrivia_sign, skipTrivia_comment noFeed, ih, Position.after_append p]
    rfl
  | @unended line last noFeed =>
    rw [hrest last, List.append_nil, skipTrivia_sign, skipTrivia_unended noFeed]
    rfl

/-- Nothing is passed over before a token. -/
theorem skipTrivia_token {c : Char} (hblank : isBlank c = false) (hcomment : c ≠ '#') (p : Position)
    (rest : List Char) : skipTrivia false p (c :: rest) = (p, c :: rest) := by
  rw [skipTrivia, if_neg Bool.false_ne_true, if_neg (Bool.eq_false_iff.1 hblank), if_neg hcomment]

/-! ## Texts laid out as tokens -/

/-- A token as it stands in a text: what comes before it, and its spelling. -/
structure Piece where
  gap : List Char
  token : Token
  spelling : List Char

namespace Piece

/-- The piece stands for its token, with nothing but trivia before it. -/
structure WellFormed (piece : Piece) : Prop where
  gap : Trivia false piece.gap
  spelling : piece.token.Spells piece.spelling

/-- The pieces one after another. -/
def chars (pieces : List Piece) : List Char := pieces.flatMap fun piece => piece.gap ++ piece.spelling

theorem chars_cons (piece : Piece) (pieces : List Piece) :
    chars (piece :: pieces) = piece.gap ++ piece.spelling ++ chars pieces := List.flatMap_cons

/-- Each piece stands for its token in front of what follows it, which does not carry it on, with nothing but
    trivia before it. Behind the last piece there is `rest`. -/
def Standing (rest : List Char) : List Piece → Prop
  | [] => True
  | piece :: pieces =>
    Trivia false piece.gap ∧ piece.token.Stands (chars pieces ++ rest) piece.spelling ∧
      Standing rest pieces

theorem Standing.wellFormed {rest : List Char} {pieces : List Piece} (h : Standing rest pieces) :
    ∀ piece ∈ pieces, piece.WellFormed := by
  induction pieces with
  | nil => nofun
  | cons piece pieces ih =>
    obtain ⟨hgap, hstands, hmore⟩ := h
    exact List.forall_mem_cons.2 ⟨⟨hgap, hstands.spells⟩, ih hmore⟩

/-- The tokens of the pieces with their places, where the first piece begins at `p`. -/
def located (p : Position) : List Piece → List Located
  | [] => []
  | piece :: pieces =>
    ⟨piece.token, p.after piece.gap⟩ :: located ((p.after piece.gap).after piece.spelling) pieces

theorem map_token_located (p : Position) (pieces : List Piece) :
    (located p pieces).map Located.token = pieces.map Piece.token := by
  induction pieces generalizing p with
  | nil => rfl
  | cons piece pieces ih => rw [located, List.map_cons, List.map_cons, ih]

/-- Spellings with gaps between them are not carried on, nor is the last one. -/
theorem standing_of_gaps {pieces : List Piece} {ending : List Char}
    (hpieces : ∀ piece ∈ pieces, piece.WellFormed) (hgap : ∀ piece ∈ pieces.tail, piece.gap ≠ [])
    (hending : Trivia true ending) : Standing ending pieces := by
  induction pieces with
  | nil => trivial
  | cons piece pieces ih =>
    obtain ⟨hpiece, hpieces⟩ := List.forall_mem_cons.1 hpieces
    -- what follows the token is trivia, or the end of the text
    have hparted : piece.token.Parted (chars pieces ++ ending) := by
      cases pieces with
      | nil => exact hending.parted_end piece.token
      | cons next pieces =>
        obtain ⟨hnext, -⟩ := List.forall_mem_cons.1 hpieces
        rw [chars_cons, List.append_assoc, List.append_assoc]
        exact hnext.gap.parted (hgap next List.mem_cons_self) piece.token _
    exact ⟨hpiece.gap, hpiece.spelling.stands hparted,
      ih hpieces fun next hnext => hgap next (List.mem_of_mem_tail hnext)⟩

end Piece

/-- The text consists of the pieces, of trivia behind them, and of `rest`. -/
structure ScannedTo (text : List Char) (pieces : List Piece) (gap rest : List Char) : Prop where
  text : text = Piece.chars pieces ++ (gap ++ rest)
  standing : Piece.Standing (gap ++ rest) pieces
  trivia : Trivia rest.isEmpty gap

/-- **Pieces are read as their tokens, each at its place.** -/
theorem tokenizeFrom_pieces {pieces : List Piece} {rest : List Char}
    (h : Piece.Standing rest pieces) (read : List Located) (p : Position) :
    tokenizeFrom read p (Piece.chars pieces ++ rest) =
      tokenizeFrom ((Piece.located p pieces).reverse ++ read) (p.after (Piece.chars pieces)) rest := by
  induction pieces generalizing read p with
  | nil => rfl
  | cons piece pieces ih =>
    obtain ⟨hgap, hstands, hmore⟩ := h
    obtain ⟨c, cs, hspelling, hblank, hcomment⟩ := hstands.spells.first
    have hskip : skipTrivia false p (Piece.chars (piece :: pieces) ++ rest) =
        (p.after piece.gap, c :: (cs ++ (Piece.chars pieces ++ rest))) := by
      rw [Piece.chars_cons, List.append_assoc, List.append_assoc, hgap.skip Bool.noConfusion, hspelling,
        List.cons_append]
      exact skipTrivia_token hblank hcomment _ _
    rw [hspelling] at hstands
    rw [tokenizeFrom_token hskip (scanToken_of_stands hstands _), ih hmore, Piece.located, Piece.chars_cons,
      Position.after_append, Position.after_append, hspelling, List.reverse_cons, List.append_assoc]
    rfl

/-- **A text that is scanned to its end has the tokens of the pieces.** -/
theorem ScannedTo.tokenize {text : String} {pieces : List Piece} {ending : List Char}
    (h : ScannedTo text.toList pieces ending []) :
    GraphWire.tokenize text = .ok (Piece.located .start pieces, Position.start.after text.toList) := by
  have hskip := h.trivia.skip (fun _ => rfl) (Position.start.after (Piece.chars pieces))
  rw [GraphWire.tokenize, h.text, tokenizeFrom_pieces h.standing, tokenizeFrom_end hskip, List.append_nil,
    List.reverse_reverse, List.append_nil, Position.after_append]

/-- **A text that is scanned to what cannot be read has no tokens**, but the fault found there. -/
theorem ScannedTo.tokenize_error {text : String} {pieces : List Piece} {gap cs : List Char} {c : Char}
    {e : SyntaxError} (h : ScannedTo text.toList pieces gap (c :: cs)) (hblank : isBlank c = false)
    (hcomment : c ≠ '#')
    (hfault : scanToken (Position.start.after (Piece.chars pieces ++ gap)) c cs = .error e) :
    GraphWire.tokenize text = .error e := by
  rw [GraphWire.tokenize, h.text, tokenizeFrom_pieces h.standing, tokenizeFrom_eq,
    h.trivia.skip Bool.noConfusion, ← Position.after_append, skipTrivia_token hblank hcomment]
  simp only [hfault]

/-- **Any text is pieces up to its end, or up to where no token can be read.** -/
theorem exists_scannedTo (read : List Located) (p : Position) (cs : List Char) :
    ∃ pieces gap rest, ScannedTo cs pieces gap rest ∧
      (rest = [] ∧ tokenizeFrom read p cs = .ok (read.reverse ++ Piece.located p pieces, p.after cs) ∨
        ∃ c more e, rest = c :: more ∧ tokenizeFrom read p cs = .error e ∧
          scanToken (p.after (Piece.chars pieces ++ gap)) c more = .error e) := by
  fun_induction tokenizeFrom read p cs with
  | case1 read p cs q hskip =>
    obtain ⟨ending, hcs, hq, htrivia⟩ := trivia_of_skipTrivia hskip
    refine ⟨[], ending, [], ⟨hcs, trivial, htrivia⟩, Or.inl ⟨rfl, ?_⟩⟩
    rw [hq, hcs, List.append_nil, Piece.located, List.append_nil]
  | case2 read p cs q c rest hskip e hscan =>
    obtain ⟨gap, hcs, hq, htrivia⟩ := trivia_of_skipTrivia hskip
    refine ⟨[], gap, c :: rest, ⟨hcs, trivial, htrivia⟩, Or.inr ⟨c, rest, e, rfl, rfl, ?_⟩⟩
    rw [hq] at hscan
    exact hscan
  | case3 read p cs q c rest hskip s hscan ih =>
    obtain ⟨gap, hcs, hq, htrivia⟩ := trivia_of_skipTrivia hskip
    obtain ⟨spelling, hstands, hrest, hnext⟩ := stands_of_scanToken hscan
    obtain ⟨pieces, ending, left, ⟨hmore, hstanding, hending⟩, hresult⟩ := ih
    have hwhole : cs = Piece.chars (⟨gap, s.token, spelling⟩ :: pieces) ++ (ending ++ left) := by
      rw [hcs, hrest, hmore, Piece.chars_cons]
      simp only [List.append_assoc]
    rw [hmore] at hstands
    refine ⟨_, ending, left, ⟨hwhole, ⟨htrivia, hstands, hstanding⟩, hending⟩, ?_⟩
    rcases hresult with ⟨rfl, hok⟩ | ⟨d, more, e, rfl, herror, hfault⟩
    · refine Or.inl ⟨rfl, ?_⟩
      rw [hok, hcs, hrest, Position.after_append, Position.after_append, hnext, hq, List.reverse_cons,
        List.append_assoc]
      rfl
    · refine Or.inr ⟨d, more, e, rfl, herror, ?_⟩
      have hplace : p.after (Piece.chars (⟨gap, s.token, spelling⟩ :: pieces) ++ ending) =
          s.next.after (Piece.chars pieces ++ ending) := by
        rw [Piece.chars_cons, List.append_assoc, List.append_assoc, Position.after_append,
          Position.after_append, ← hq, ← hnext]
      rw [hplace]
      exact hfault

theorem exists_scannedTo_of_tokenize {text : String} {located : List Located} {finish : Position}
    (h : tokenize text = .ok (located, finish)) :
    ∃ pieces ending, ScannedTo text.toList pieces ending [] ∧ located = Piece.located .start pieces ∧
      finish = Position.start.after text.toList := by
  obtain ⟨pieces, ending, rest, hscanned, ⟨rfl, -⟩ | ⟨_, _, _, -, herror, -⟩⟩ :=
    exists_scannedTo [] .start text.toList
  · rw [hscanned.tokenize] at h
    cases h
    exact ⟨pieces, ending, hscanned, rfl, rfl⟩
  · rw [tokenize, herror] at h
    cases h

/-! ## What statements result in -/

/-- The value that the last statement about a field gives it. -/
def lastValue? (stmts : List Statement) (object field : String) : Option Value :=
  (stmts.reverse.find? fun s => s.object = object ∧ s.field = field).map Statement.value

/-- The fields of an object in the order of the first statements about them. -/
def fieldOrder (stmts : List Statement) (object : String) : List String :=
  ((stmts.filter fun s => s.object = object).map Statement.field).eraseDups

/-- The configuration has what the statements assign, and nothing else: each field the value of the last
    statement about it, the fields of each object in the order of the first ones. -/
structure Outcome (stmts : List Statement) (config : Config) : Prop where
  value : ∀ object field, config.raw? object field = lastValue? stmts object field
  fields : ∀ object, (config.get? object).map OrderedMap.keys
    = if fieldOrder stmts object = [] then none else some (fieldOrder stmts object)

open Config in
theorem lastValue?_eq (stmts : List Statement) (object field : String) :
    lastValue? stmts object field
      = ((fieldsOf object stmts).reverse.find? fun e => e.1 = field).map Prod.snd := by
  rw [fieldsOf, ← List.map_reverse, List.find?_map, ← List.filter_reverse, List.find?_filter,
    lastValue?, Option.map_map]
  simp only [Function.comp_def, decide_eq_true_eq]

open Config in
theorem fieldOrder_eq (stmts : List Statement) (object : String) :
    fieldOrder stmts object = (Entry.keys (fieldsOf object stmts)).eraseDups := by
  rw [fieldOrder, fieldsOf, Entry.keys, List.map_map]
  rfl

/-- **Assigning statements in turn** has their outcome. -/
theorem outcome_ofStatements (stmts : List Statement) :
    Outcome stmts (Config.ofStatements stmts) := by
  refine ⟨?_, ?_⟩
  · intro object field
    rw [lastValue?_eq, Config.raw?, Config.get?_ofStatements]
    by_cases hnil : Config.fieldsOf object stmts = []
    · rw [if_pos hnil, hnil]
      rfl
    · rw [if_neg hnil]
      exact OrderedMap.get?_ofList _ _
  · intro object
    rw [fieldOrder_eq, Config.get?_ofStatements]
    by_cases hnil : Config.fieldsOf object stmts = []
    · rw [if_pos hnil, hnil]
      rfl
    · have hne : (Entry.keys (Config.fieldsOf object stmts)).eraseDups ≠ [] := by
        obtain ⟨e, he⟩ := List.exists_mem_of_ne_nil _ hnil
        intro heq
        have hmem : e.1 ∈ (Entry.keys (Config.fieldsOf object stmts)).eraseDups :=
          List.mem_eraseDups.2 (List.mem_map_of_mem he)
        rw [heq] at hmem
        cases hmem
      rw [if_neg hnil, if_neg hne, Option.map_some, OrderedMap.keys_ofList]

/-! ## Texts that are read -/

/-- The text is laid out as statements, of which there is one at least: their tokens are spelled one after
    another, with white space and comments before, between and behind them. No statement has a list without
    items. -/
structure LaidOut (text : String) (stmts : List Statement) (pieces : List Piece)
    (ending : List Char) : Prop where
  ne_nil : stmts ≠ []
  items : ∀ s ∈ stmts, s.value.isEmptyList = false
  tokens : pieces.map Piece.token = stmts.flatMap Statement.tokens
  wellFormed : ∀ piece ∈ pieces, piece.WellFormed
  trivia : Trivia true ending
  text : text.toList = Piece.chars pieces ++ ending

theorem exists_laidOut {text : String} {stmts : List Statement} (h : statements text = .ok stmts) :
    ∃ pieces ending, LaidOut text stmts pieces ending := by
  obtain ⟨hne, hitems, located, finish, htokenize, htokens⟩ := statements_iff.1 h
  obtain ⟨pieces, ending, hscanned, rfl, -⟩ := exists_scannedTo_of_tokenize htokenize
  rw [Piece.map_token_located] at htokens
  refine ⟨pieces, ending, hne, hitems, htokens, hscanned.standing.wellFormed, hscanned.trivia, ?_⟩
  rw [hscanned.text, List.append_nil]

theorem LaidOut.statements {text : String} {stmts : List Statement} {pieces : List Piece}
    {ending : List Char} (h : LaidOut text stmts pieces ending)
    (hgap : ∀ piece ∈ pieces.tail, piece.gap ≠ []) :
    GraphWire.statements text = .ok stmts := by
  have hstanding := Piece.standing_of_gaps h.wellFormed hgap h.trivia
  have hscanned : ScannedTo text.toList pieces ending [] :=
    ⟨by rw [h.text, List.append_nil], by rwa [List.append_nil], h.trivia⟩
  refine statements_iff.2 ⟨h.ne_nil, h.items, _, _, hscanned.tokenize, ?_⟩
  rw [Piece.map_token_located, h.tokens]

/-- **A text is read exactly by the grammar, and the last write wins.** What is read is laid out as
    statements, and the result is their outcome; and every layout of statements with a gap between any two
    tokens is read, with that result. -/
theorem parse_iff_laidOut (text : String) :
    (∀ config, Config.parse text = .ok config → ∃ stmts pieces ending,
      LaidOut text stmts pieces ending ∧ config = Config.ofStatements stmts ∧
        Outcome stmts config) ∧
    ∀ stmts pieces ending, LaidOut text stmts pieces ending →
      (∀ piece ∈ pieces.tail, piece.gap ≠ []) →
      ∃ config, Config.parse text = .ok config ∧ config = Config.ofStatements stmts ∧
        Outcome stmts config := by
  refine ⟨?_, ?_⟩
  · intro config hparse
    rw [Config.parse] at hparse
    split at hparse
    · next stmts hstmts =>
      cases hparse
      obtain ⟨pieces, ending, hlaid⟩ := exists_laidOut hstmts
      exact ⟨stmts, pieces, ending, hlaid, rfl, outcome_ofStatements stmts⟩
    · cases hparse
  · intro stmts pieces ending hlaid hgap
    refine ⟨Config.ofStatements stmts, ?_, rfl, outcome_ofStatements stmts⟩
    rw [Config.parse, hlaid.statements hgap]

example : (Config.parse "a.x <- 1; # first\na.y <- 'it\\'s';a.x<-['b' ,'c'] ; # last").toOption
    = some (.ofStatements [⟨"a", "x", .texts ["b", "c"]⟩, ⟨"a", "y", .text "it's"⟩]) := by
  decide +kernel

end GraphWire
