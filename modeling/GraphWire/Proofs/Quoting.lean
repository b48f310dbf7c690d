import GraphWire.Syntax.Lexer

/-!
# `Proofs.Quoting` — what stands between quotes

A text is quoted with a backslash before each of its quotes, and a backslash that no quote follows stands for
itself. So the quoted form of a text ends at its closing quote in whatever it stands, unless the text ends in
a backslash, which would make the closing quote one of the text.

## Contents
- **`guarded`**, the characters between the quotes. `scanText_guarded` and `guarded_of_scanText`: the closing
  quote is found exactly when the text does not end in a backslash.
- **`Unclosed`**, a text without a closing quote, and `scanText_eq_none_iff`.
- **`Reads`**, said of a text that begins with a token, and `ReadsBack`, of the quoted form of a text.
- **`Value.quotedTexts`**, and **`quoted_is_self_delimiting`**.
-/

namespace GraphWire

/-! ## Guarded texts -/

/-- The characters of a text with a backslash before each quote. -/
def guarded (cs : List Char) : List Char :=
  cs.flatMap fun c => if c = '\'' then ['\\', c] else [c]

theorem toList_quoted (s : String) : (quoted s).toList = '\'' :: (guarded s.toList ++ ['\'']) :=
  String.toList_ofList

theorem guarded_quote (cs : List Char) : guarded ('\'' :: cs) = '\\' :: '\'' :: guarded cs := rfl

theorem guarded_cons {c : Char} (hc : c ≠ '\'') (cs : List Char) :
    guarded (c :: cs) = c :: guarded cs := by
  rw [guarded, List.flatMap_cons, if_neg hc]
  rfl

/-- The scanner's step over a character that stands for itself. -/
theorem scanText_cons {c : Char} (hc : c ≠ '\'') {cs : List Char}
    (hnext : c = '\\' → cs.head? ≠ some '\'') (read : List Char) (p : Position) :
    scanText read p (c :: cs) = scanText (c :: read) (p.step c) cs := by
  rw [scanText]
  · rintro tail rfl rfl
    exact hnext rfl rfl
  · rintro rfl
    exact hc rfl

/-- No guarded text begins with a quote. -/
theorem head?_guarded_ne (cs : List Char) : (guarded cs).head? ≠ some '\'' := by
  intro h
  cases cs with
  | nil => cases h
  | cons c cs =>
    by_cases hc : c = '\''
    · rw [hc, guarded_quote] at h
      exact absurd (Option.some.inj h) (by decide)
    · rw [guarded_cons hc] at h
      exact hc (Option.some.inj h)

/-- **A text that does not end in a backslash is read up to its closing quote.** -/
theorem scanText_guarded {cs : List Char} (hcs : cs.getLast? ≠ some '\\') (read : List Char)
    (p : Position) (rest : List Char) :
    scanText read p (guarded cs ++ '\'' :: rest)
      = some ⟨.text (String.ofList (read.reverse ++ cs)), p.after (guarded cs ++ ['\'']), rest⟩ := by
  induction cs generalizing read p with
  | nil =>
    rw [List.append_nil]
    exact scanText.eq_3 read p rest
  | cons c cs ih =>
    have hlast : cs.getLast? ≠ some '\\' := by
      cases cs with
      | nil =>
        intro h
        cases h
      | cons d cs => rwa [List.getLast?_cons_cons] at hcs
    by_cases hc : c = '\''
    · subst hc
      rw [guarded_quote, List.cons_append, List.cons_append, scanText, ih hlast,
        List.reverse_cons, List.append_assoc]
      rfl
    · -- a backslash is not taken for an escape, since no quote follows it
      have hnext : c = '\\' → (guarded cs ++ '\'' :: rest).head? ≠ some '\'' := by
        rintro rfl
        cases cs with
        | nil => exact absurd rfl hcs
        | cons d cs =>
          have hhead := head?_guarded_ne (d :: cs)
          cases he : guarded (d :: cs) with
          | nil =>
            by_cases hd : d = '\''
            · rw [hd, guarded_quote] at he
              cases he
            · rw [guarded_cons hd] at he
              cases he
          | cons e tail => rwa [he] at hhead
      rw [guarded_cons hc, List.cons_append, scanText_cons hc hnext, ih hlast, List.reverse_cons,
        List.append_assoc]
      rfl

/-- What was read up to a closing quote does not end in a backslash, and stands there guarded. -/
theorem guarded_of_scanText {read cs : List Char} {p : Position} {s : Scanned}
    (h : scanText read p cs = some s) :
    ∃ content, cs = guarded content ++ '\'' :: s.rest ∧ content.getLast? ≠ some '\\' ∧
      s.token = .text (String.ofList (read.reverse ++ content)) ∧
      s.next = p.after (guarded content ++ ['\'']) := by
  fun_induction scanText read p cs with
  | case1 => cases h
  | case2 read p rest ih =>
    obtain ⟨content, hcs, hlast, htoken, hnext⟩ := ih h
    refine ⟨'\'' :: content, ?_, ?_, ?_, ?_⟩
    · rw [hcs]
      rfl
    · rw [List.getLast?_cons]
      cases hl : content.getLast? with
      | none =>
        intro h
        exact absurd (Option.some.inj h) (by decide)
      | some d => rwa [hl] at hlast
    · rw [htoken, List.reverse_cons, List.append_assoc]
      rfl
    · rw [hnext]
      rfl
  | case3 read p rest =>
    cases h
    refine ⟨[], rfl, ?_, ?_, rfl⟩
    · intro h
      cases h
    · rw [List.append_nil]
  | case4 read p c rest hescape hclose ih =>
    obtain ⟨content, hcs, hlast, htoken, hnext⟩ := ih h
    have hc : c ≠ '\'' := fun hc => hclose hc
    refine ⟨c :: content, ?_, ?_, ?_, ?_⟩
    · rw [hcs, guarded_cons hc]
      rfl
    · cases content with
      | nil =>
        -- a backslash before the closing quote would have been read as an escape
        intro hslash
        exact hescape s.rest (Option.some.inj hslash) hcs
      | cons d content => rwa [List.getLast?_cons_cons]
    · rw [htoken, List.reverse_cons, List.append_assoc]
      rfl
    · rw [hnext, guarded_cons hc]
      rfl

/-! ## Texts without a closing quote -/

/-- Behind its opening quote the text has no closing one: each quote has a backslash directly before it. -/
def Unclosed (cs : List Char) : Prop :=
  ∀ before rest, cs = before ++ '\'' :: rest → before.getLast? = some '\\'

theorem not_unclosed (cs : List Char) : ¬ Unclosed ('\'' :: cs) := fun h => nomatch h [] cs rfl

theorem unclosed_escape {cs : List Char} : Unclosed ('\\' :: '\'' :: cs) ↔ Unclosed cs := by
  constructor
  · intro h before rest hcs
    have hlast := h ('\\' :: '\'' :: before) rest (by rw [hcs]; rfl)
    cases before with
    | nil => exact absurd hlast (by decide)
    | cons c before => rwa [List.getLast?_cons_cons, List.getLast?_cons_cons] at hlast
  · intro h before rest hcs
    rcases before with _ | ⟨c, _ | ⟨d, before⟩⟩
    · cases hcs
    · cases hcs
      rfl
    · cases hcs
      rw [List.getLast?_cons, List.getLast?_cons, h before rest rfl]
      rfl

theorem unclosed_cons {c : Char} (hc : c ≠ '\'') {cs : List Char}
    (hnext : c = '\\' → cs.head? ≠ some '\'') : Unclosed (c :: cs) ↔ Unclosed cs := by
  constructor
  · intro h before rest hcs
    have hlast := h (c :: before) rest (by rw [hcs]; rfl)
    cases before with
    | nil =>
      rw [hcs] at hnext
      exact absurd rfl (hnext (Option.some.inj hlast))
    | cons d before => rwa [List.getLast?_cons_cons] at hlast
  · intro h before rest hcs
    cases before with
    | nil => exact absurd (List.cons.inj hcs).1 hc
    | cons d before =>
      rw [List.getLast?_cons, h before rest (List.cons.inj hcs).2]
      rfl

/-- **The scanner finds no closing quote exactly if there is none.** -/
theorem scanText_eq_none_iff {read cs : List Char} {p : Position} :
    scanText read p cs = none ↔ Unclosed cs := by
  fun_induction scanText read p cs with
  | case1 =>
    refine ⟨fun _ before rest hcs => ?_, fun _ => rfl⟩
    exact absurd hcs.symm (List.append_ne_nil_of_right_ne_nil before (List.cons_ne_nil _ rest))
  | case2 read p rest ih => rw [ih, unclosed_escape]
  | case3 read p rest =>
    exact ⟨fun h => absurd h (Option.some_ne_none _), fun h => absurd h (not_unclosed rest)⟩
  | case4 read p c rest hescape hclose ih =>
    have hnext : c = '\\' → rest.head? ≠ some '\'' := by
      intro hslash hhead
      obtain ⟨tail, hrest⟩ := List.head?_eq_some_iff.1 hhead
      exact hescape tail hslash hrest
    rw [ih, unclosed_cons (fun hc => hclose hc) hnext]

/-! ## Quoted texts -/

/-- A quote begins a text. -/
theorem scanToken_quote (p : Position) (cs : List Char) :
    scanToken p '\'' cs =
      match scanText [] (p.step '\'') cs with
      | some s => .ok s
      | none => .error ⟨p, .closingQuote, .endOfInput⟩ := rfl

/-- The text begins with the token, which stands at `p`. -/
def Reads (p : Position) (text : List Char) (s : Scanned) : Prop :=
  ∃ c cs, text = c :: cs ∧ scanToken p c cs = .ok s

/-- In front of `rest`, the quoted form of the text is read as that text, and exactly up to `rest`. -/
def ReadsBack (s : String) (p : Position) (rest : List Char) : Prop :=
  Reads p ((quoted s).toList ++ rest) ⟨.text s, p.after (quoted s).toList, rest⟩

theorem readsBack_of_getLast?_ne {s : String} (h : s.toList.getLast? ≠ some '\\') (p : Position)
    (rest : List Char) : ReadsBack s p rest := by
  refine ⟨'\'', guarded s.toList ++ '\'' :: rest, ?_, ?_⟩
  · rw [toList_quoted, List.cons_append, List.append_assoc]
    rfl
  · rw [scanToken_quote, scanText_guarded h, List.reverse_nil, List.nil_append, String.ofList_toList,
      toList_quoted]
    rfl

/-- No text that is read from quotes ends in a backslash, whatever was quoted. -/
theorem getLast?_ne_of_reads {s t : String} {p : Position} {rest : List Char} {scanned : Scanned}
    (h : Reads p ((quoted s).toList ++ rest) scanned) (ht : scanned.token = .text t) :
    t.toList.getLast? ≠ some '\\' := by
  obtain ⟨c, cs, htext, hscan⟩ := h
  rw [toList_quoted, List.cons_append] at htext
  cases htext
  rw [scanToken_quote] at hscan
  split at hscan
  · next found hfound =>
    cases hscan
    obtain ⟨content, -, hlast, htoken, -⟩ := guarded_of_scanText hfound
    rw [ht, List.reverse_nil, List.nil_append] at htoken
    cases htoken
    rwa [String.toList_ofList]
  · cases hscan

namespace Value

/-- The texts that stand between quotes where the value is written. -/
def quotedTexts : Value → List String
  | text s => [s]
  | texts items => items
  | number _ | numbers _ => []

theorem isUnquotable_iff {s : String} : isUnquotable s = true ↔ s.toList.getLast? = some '\\' := beq_iff_eq

/-- What is refused is the first text that cannot be quoted. -/
theorem unquotable?_eq (v : Value) : v.unquotable? = v.quotedTexts.find? isUnquotable := by
  cases v with
  | text s => rw [unquotable?, quotedTexts, List.find?_singleton]
  | number n => rfl
  | texts items => rfl
  | numbers items => rfl

end Value

theorem readsBack_iff {s : String} {p : Position} {rest : List Char} :
    ReadsBack s p rest ↔ Value.isUnquotable s = false := by
  rw [← Bool.not_eq_true, Value.isUnquotable_iff]
  exact ⟨fun h => getLast?_ne_of_reads h rfl, fun h => readsBack_of_getLast?_ne h p rest⟩

theorem readsBack_anywhere_iff {s : String} :
    (∀ p rest, ReadsBack s p rest) ↔ Value.isUnquotable s = false :=
  ⟨fun h => readsBack_iff.1 (h .start []), fun h _ _ => readsBack_iff.2 h⟩

/-- **A quoted text delimits itself exactly if the writer allows it.** In front of whatever follows, the quoted
    form of a text is read as that text, and exactly up to its end, unless the text ends in a backslash. The
    writer allows a value if all its texts are read back so. Otherwise it refuses the first text that is not:
    nothing that follows could make that text the one that is read. -/
theorem quoted_is_self_delimiting :
    (∀ s p rest, ReadsBack s p rest ↔ s.toList.getLast? ≠ some '\\') ∧
    (∀ v : Value, v.unquotable? = none ↔ ∀ s ∈ v.quotedTexts, ∀ p rest, ReadsBack s p rest) ∧
    ∀ (v : Value) (s : String), v.unquotable? = some s ↔
      ∃ before after, v.quotedTexts = before ++ s :: after ∧ (∀ t ∈ before, ∀ p rest, ReadsBack t p rest) ∧
        ∀ p rest scanned, Reads p ((quoted s).toList ++ rest) scanned → scanned.token ≠ .text s := by
  refine ⟨?_, ?_, ?_⟩
  · intro s p rest
    rw [readsBack_iff, ← Bool.not_eq_true, Value.isUnquotable_iff]
  · intro v
    rw [Value.unquotable?_eq, List.find?_eq_none]
    simp only [readsBack_anywhere_iff, Bool.not_eq_true]
  · intro v s
    rw [Value.unquotable?_eq, List.find?_eq_some_iff_append]
    simp only [readsBack_anywhere_iff, Bool.not_eq_true']
    constructor
    · rintro ⟨hs, before, after, htexts, hbefore⟩
      refine ⟨before, after, htexts, hbefore, ?_⟩
      intro p rest scanned hreads htoken
      exact getLast?_ne_of_reads hreads htoken (Value.isUnquotable_iff.1 hs)
    · rintro ⟨before, after, htexts, hbefore, hnever⟩
      refine ⟨?_, before, after, htexts, hbefore⟩
      -- otherwise it would be read back, in front of nothing say
      cases hs : Value.isUnquotable s with
      | true => rfl
      | false => exact absurd rfl (hnever .start [] _ (readsBack_iff.2 hs))

example : Value.unquotable? (.texts ["it's", "\\'", "C:\\", "\\"]) = some "C:\\" := by decide +kernel

end GraphWire
