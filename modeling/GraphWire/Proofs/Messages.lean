import GraphWire.Proofs.Scalars
import GraphWire.Proofs.Sessions

/-!
# `Proofs.Messages` — messages that are put together and taken apart

A message is an object with other objects beside it, each written field by field. What can be written stays so
when objects are added, and so a message has a text and its frame holds a copy of it. Declared fields are
read from the stored values: a scalar from what is stored in its owner alone, whatever else there is in the
store, a reference from the name, if there is such an object.

## Contents
- **Lines.** **`hasEmptyLine_lines`**, a line of a message is empty only within a text.
- **Written objects.** `Object.Writable`, and how `Config.Writable` passes to copies and unions.
- **Frames.** `Config.Writable.exists_text`, `Config.Rooted.marshal_eq`, `Config.Writable.encodeFrame_eq` and
  **`Config.Writable.exists_frame`**.
- **Kinds of commands.** **`CommandKind.ofWalker_eq`**.
- **Scalars.** `FieldKind.isPlain`, with `FieldKind.read_eq_of_plain`: such fields read the same wherever
  their owner is the same object.
- **One element.** `FieldKind.Holds`, and **`FieldKind.read_of_holds`** for fields that hold one element, with
  `read_scalar` and `read_ref`.
- **Fits.** `FieldFits.of_plain`.
-/

namespace GraphWire

/-! ## Lines -/

/-- Behind a semicolon that ends a line, empty lines are looked for afresh. -/
theorem hasEmptyLineFrom_ended (line init rest : List Char) :
    hasEmptyLineFrom (.ofLine line) (init ++ [';'] ++ '\n' :: rest)
      = (hasEmptyLineFrom (.ofLine line) (init ++ [';']) || hasEmptyLine rest) := by
  induction init generalizing line with
  | nil =>
    have hmore : LineSoFar.ofLine (line ++ [';']) = .more := by
      rw [LineSoFar.ofLine_eq_more_iff, List.append_eq_nil_iff, List.append_eq_singleton_iff]
      simp
    have hfirst (more : List Char) : hasEmptyLineFrom (.ofLine line) (';' :: more)
        = hasEmptyLineFrom .more more := by
      rw [hasEmptyLineFrom_char (by decide), hmore]
    rw [List.nil_append, List.singleton_append, hfirst, hfirst]
    rfl
  | cons c init ih =>
    rw [List.cons_append, List.cons_append]
    by_cases hc : c = '\n'
    · -- a line feed within the text ends a line of its own
      subst hc
      rw [hasEmptyLineFrom, hasEmptyLineFrom, Bool.or_assoc]
      exact congrArg _ (ih [])
    · rw [hasEmptyLineFrom_char hc, hasEmptyLineFrom_char hc, ih]

theorem Statement.exists_toList_display (s : Statement) : ∃ init, s.display.toList = init ++ [';'] :=
  ⟨(s.object ++ "." ++ s.field ++ " <- " ++ s.value.written).toList, by simp [display]⟩

/-- **A line of statements is empty only within a statement**, in a text of its value. -/
theorem hasEmptyLine_lines (stmts : List Statement) :
    hasEmptyLine (Statement.lines stmts).toList = stmts.any fun s => hasEmptyLine s.display.toList := by
  induction stmts with
  | nil => rfl
  | cons s stmts ih =>
    obtain ⟨init, hinit⟩ := s.exists_toList_display
    rw [Statement.toList_lines_cons, String.toList_append, hinit, List.append_assoc, List.any_cons, ← ih, hinit]
    exact hasEmptyLineFrom_ended [] init _

/-- Nor does trimming make a line empty. -/
theorem hasEmptyLine_trimEnd_lines {stmts : List Statement} (hne : stmts ≠ []) :
    hasEmptyLine (trimEnd (Statement.lines stmts).toList)
      = stmts.any fun s => hasEmptyLine s.display.toList := by
  obtain ⟨init, hinit⟩ := toList_lines hne
  have htrim := List.append_cancel_right ((trimEnd_lines hne).trans hinit)
  have hended : hasEmptyLine (init ++ [';'] ++ ['\n']) = (hasEmptyLine (init ++ [';']) || false) :=
    hasEmptyLineFrom_ended [] init []
  rw [← hasEmptyLine_lines, htrim, hinit, hended, Bool.or_false]

/-- The trimmed text is shorter than the lines. -/
theorem size_trimEnd_lines_lt {stmts : List Statement} (hne : stmts ≠ []) :
    (String.ofList (trimEnd (Statement.lines stmts).toList)).toUTF8.size < (Statement.lines stmts).utf8ByteSize := by
  have htrim := congrArg (fun cs => (bytesOf cs).length) (trimEnd_lines hne)
  rw [bytesOf_append, List.length_append] at htrim
  rw [← String.size_toByteArray, ← String.toUTF8_eq_toByteArray, size_toUTF8, size_toUTF8, String.toList_ofList,
    ← htrim]
  exact Nat.lt_add_of_pos_right (by decide)

/-! ## Written objects -/

/-- A reference to a name can be written. -/
theorem Value.writable_name {name : String} (h : isName name = true) : (Value.text name).Writable := by
  apply isUnquotable_eq_false
  intro c hlast
  have hmem := List.mem_of_getLast? hlast
  have hchar : isNameChar c = true := by
    rw [isName] at h
    cases hcs : name.toList with
    | nil =>
      rw [hcs] at h
      cases h
    | cons first rest =>
      rw [hcs] at h hmem
      obtain ⟨hfirst, hrest⟩ := Bool.and_eq_true_iff.1 h
      rcases List.mem_cons.1 hmem with rfl | hmem
      · rw [isNameStart, Bool.or_eq_true] at hfirst
        rw [isNameChar, Char.isAlphanum, Bool.or_eq_true, Bool.or_eq_true]
        exact hfirst.imp_left Or.inl
      · exact List.all_eq_true.1 hrest c hmem
  rintro rfl
  exact absurd hchar (by decide)

/-- Whether the object has fields, and their names and values have a written form. -/
structure Object.Writable (object : Object) : Prop where
  ne_nil : object.entries ≠ []
  field : ∀ {field value}, (field, value) ∈ object.entries → isName field = true ∧ value.Writable

namespace Object

variable {object : Object} {field : String} {value : Value}

theorem Writable.insert (h : object.Writable) (hfield : isName field = true) (hvalue : value.Writable) :
    Object.Writable (OrderedMap.insert object field value) := by
  constructor
  · intro hnil
    have hkey : field ∈ Entry.keys (Entry.put field value object.entries) :=
      Entry.mem_keys_put.2 (Or.inl rfl)
    have hentries : Entry.put field value object.entries = [] := hnil
    rw [hentries] at hkey
    cases hkey
  · intro name stored hmem
    rcases Entry.mem_put hmem with heq | hmem
    · cases heq
      exact ⟨hfield, hvalue⟩
    · exact h.field hmem

theorem writable_typed {tag : String} (h : Value.isUnquotable tag = false) : (typed tag).Writable := by
  have hentries : (typed tag).entries = [(typeField, .text tag)] := rfl
  constructor
  · intro hnil
    rw [hentries] at hnil
    cases hnil
  · intro name stored hmem
    rw [hentries] at hmem
    cases List.mem_singleton.1 hmem
    exact ⟨by decide, h⟩

end Object

namespace Config

variable {a b config : Config} {name : String} {object : Object}

theorem Writable.of_get? (h : config.Writable) (hget : config.get? name = some object) :
    object.Writable :=
  ⟨h.ne_nil hget, fun hmem => h.field hget hmem⟩

/-- A configuration can be written if each of its objects can. -/
theorem writable_of_objects
    (h : ∀ name object, config.get? name = some object → isName name = true ∧ object.Writable) :
    config.Writable :=
  ⟨fun hget => (h _ _ hget).1, fun hget => (h _ _ hget).2.ne_nil,
    fun hget hmem => (h _ _ hget).2.field hmem⟩

theorem Writable.insert (h : config.Writable) (hname : isName name = true) (hobject : object.Writable) :
    Config.Writable (SortedMap.insert config name object) := by
  apply writable_of_objects
  intro other found hget
  rw [SortedMap.get?_insert] at hget
  split at hget
  · next heq =>
    cases hget
    rw [heq]
    exact ⟨hname, hobject⟩
  · exact ⟨h.name hget, h.of_get? hget⟩

theorem writable_single (hname : isName name = true) (hobject : object.Writable) :
    (single name object).Writable := by
  apply writable_of_objects
  intro other found hget
  rw [get?_single] at hget
  split at hget
  · next heq =>
    cases hget
    rw [heq]
    exact ⟨hname, hobject⟩
  · cases hget

theorem Writable.union (ha : a.Writable) (hb : b.Writable) :
    Config.Writable (SortedMap.union a b) := by
  apply writable_of_objects
  intro name object hget
  rw [SortedMap.get?_union] at hget
  rcases Option.or_eq_some_iff.1 hget with hget | ⟨-, hget⟩
  · exact ⟨hb.name hget, hb.of_get? hget⟩
  · exact ⟨ha.name hget, ha.of_get? hget⟩

theorem Writable.extract (h : config.Writable) (roots : List String) :
    (config.extract roots).Writable := by
  apply writable_of_objects
  intro name object hget
  rw [get?_extract] at hget
  split at hget
  · exact ⟨h.name hget, h.of_get? hget⟩
  · cases hget

/-- Objects in a configuration under one root, the root among them, are the whole of it if they refer to no
    other names. -/
theorem Rooted.eq_of_kept {part : Config} {root : String} (h : config.Rooted root)
    (hwritable : config.Writable) (hkept : ∀ name ∈ part.keys, config.get? name = part.get? name)
    (hroot : root ∈ part.keys)
    (hclosed : ∀ name ∈ part.keys, ∀ target ∈ (part.get? name).elim [] targets,
      target ∈ part.keys ∨ isName target = false) : config = part := by
  have hmem : ∀ name, config.contains name → name ∈ part.keys := by
    intro name hthere
    refine (h name hthere).mem_of_closed hroot ?_
    intro owner howner target htarget hcontains
    rw [hkept owner howner] at htarget
    obtain ⟨found, hfound⟩ := SortedMap.contains_iff.1 hcontains
    rcases hclosed owner howner target htarget with hmem | hname
    · exact hmem
    · rw [hwritable.name hfound] at hname
      cases hname
  -- every object is reached from the root, and no way leads out of the listed names
  apply SortedMap.ext_get?
  intro name
  by_cases hname : name ∈ part.keys
  · exact hkept name hname
  · have hmissing : ¬ part.contains name := fun hthere => hname (SortedMap.mem_keys_iff.2 hthere)
    rw [SortedMap.get?_eq_none_iff.2 hmissing, SortedMap.get?_eq_none_iff.2 fun hthere => hname (hmem name hthere)]

/-! ## Frames -/

variable {root text : String}

theorem walk_ne_nil (h : config.Writable) (there : config.contains root) : config.walk root ≠ [] := by
  obtain ⟨object, hget⟩ := SortedMap.contains_iff.1 there
  obtain ⟨⟨field, value⟩, hmem⟩ := List.exists_mem_of_ne_nil _ (h.ne_nil hget)
  have hwalk : (⟨root, field, value⟩ : Statement) ∈ config.walk root :=
    mem_walk_iff.2 ⟨.here there, object, hget, hmem⟩
  exact List.ne_nil_of_mem hwalk

/-- What can be written has a text. -/
theorem Writable.exists_text (h : config.Writable) (root : String) :
    ∃ text, config.marshal root = .ok text := by
  refine ⟨_, writeStatements_iff.2 ⟨?_, rfl⟩⟩
  intro s hs
  obtain ⟨-, object, hget, hmem⟩ := mem_walk_iff.1 hs
  exact (h.field hget hmem).2.unquotable?

/-- The walk of a root, if its search ends within so many steps. -/
def walkWithin (config : Config) (steps : Nat) (root : String) : Option (List Statement) :=
  (config.reachWithin steps [] [root]).map fun names => names.flatMap fun name =>
    (((config.get? name).map (·.entries)).getD []).map fun (field, value) => ⟨name, field, value⟩

theorem walk_of_walkWithin {steps : Nat} {stmts : List Statement}
    (h : config.walkWithin steps root = some stmts) : config.walk root = stmts := by
  obtain ⟨names, hnames, rfl⟩ := Option.map_eq_some_iff.1 h
  rw [walk, reach, reachFrom_of_reachWithin hnames]

/-- Objects under one root are written as the statements that describe them. -/
theorem Rooted.marshal_eq {steps : Nat} {stmts : List Statement} (h : config.Rooted root)
    (hwritable : config.Writable)
    (hkept : ∀ name ∈ (ofStatements stmts).keys, config.get? name = (ofStatements stmts).get? name)
    (hroot : root ∈ (ofStatements stmts).keys)
    (hclosed : ∀ name ∈ (ofStatements stmts).keys,
      ∀ target ∈ ((ofStatements stmts).get? name).elim [] targets,
        target ∈ (ofStatements stmts).keys ∨ isName target = false)
    (hwalk : (ofStatements stmts).walkWithin steps root = some stmts) :
    config.marshal root = .ok (Statement.lines stmts) := by
  obtain ⟨text, hmarshal⟩ := hwritable.exists_text root
  obtain ⟨-, rfl⟩ := writeStatements_iff.1 hmarshal
  rw [hmarshal, h.eq_of_kept hwritable hkept hroot hclosed, walk_of_walkWithin hwalk]

/-- The text of a message is not blank, so it is encoded unless there is an empty line in it or it is too
    large. -/
theorem Writable.encodeFrame_eq (h : config.Writable) (there : config.contains root)
    (hmarshal : config.marshal root = .ok text) :
    encodeFrame text = if hasEmptyLine (trimEnd text.toList) then .error .emptyLine
      else if maxFrameSize < (String.ofList (trimEnd text.toList)).toUTF8.size then
        .error (.tooLarge (String.ofList (trimEnd text.toList)).toUTF8.size)
      else .ok ((String.ofList (trimEnd text.toList)).toUTF8 ++ ⟨#[lineFeed, lineFeed]⟩) := by
  have hempty : (trimEnd text.toList).isEmpty = false := by
    have hne : config.walk root ≠ [] := walk_ne_nil h there
    obtain ⟨-, rfl⟩ := writeStatements_iff.1 hmarshal
    obtain ⟨init, hinit⟩ := toList_lines hne
    rw [List.append_cancel_right ((trimEnd_lines hne).trans hinit)]
    simp
  simp only [encodeFrame, hempty, Bool.false_eq_true, if_false]

/-- **A text without an empty line, and within the limit, is sent and arrives as a copy.** -/
theorem Writable.exists_frame (h : config.Writable) (there : config.contains root)
    (hmarshal : config.marshal root = .ok text) (hlines : hasEmptyLine (trimEnd text.toList) = false)
    (hsize : (String.ofList (trimEnd text.toList)).toUTF8.size < maxFrameSize) :
    ∃ bytes body, encodeFrame text = .ok bytes ∧ Delivers bytes body ∧
      Frame.config body = .ok (config.extract [root]) := by
  have hencode := h.encodeFrame_eq there hmarshal
  rw [hlines, if_neg Bool.false_ne_true, if_neg (Nat.not_lt.2 (Nat.le_of_lt hsize))] at hencode
  exact ⟨_, text.toUTF8, hencode,
    (h.sendable root).delivers_text hmarshal hencode hsize (walk_ne_nil h there)⟩

end Config

/-! ## Kinds of commands -/

/-- **A command is known by the tag of its object**, the schemas of messages being registered under it. -/
theorem CommandKind.ofWalker_eq (kind : CommandKind) {session : Session} {walker : Walker}
    (hadmits : session.registry.Admits messageEntries)
    (htag : Config.typeTag? (session.contents walker) walker.name = some kind.schema.tag) :
    ∃ registry : Registry,
      (CommandKind.ofWalker walker).outcome session = (.ok kind, { session with registry }) ∧
      registry.Holds messageEntries := by
  -- registering the schemas leaves the contents as they are, so the tag is resolved as it stands
  obtain ⟨registry, hregister, hholds⟩ := registerMessages_holds (ε := TypedError) hadmits
  refine ⟨registry, ?_, hholds⟩
  have hschema : kind.schema ∈ messageSchemas := by cases kind <;> decide
  have hentry : registry.get? kind.schema.tag = some kind.schema.entry :=
    hholds _ (List.mem_flatMap.2 ⟨kind.schema, hschema, Registry.entry_mem_entries _⟩)
  have hparent : registry.parentOf? kind.schema.tag = some commandSchema.tag := by
    rw [Registry.parentOf?, hentry]
    cases kind <;> rfl
  have hresolve : registry.resolve (session.contents walker) walker.name commandSchema.tag
      = .ok kind.schema.tag := by
    obtain ⟨object, hget, htag⟩ := Option.bind_eq_some_iff.1 htag
    have hthere : registry.contains kind.schema.tag = true := SortedMap.contains_iff.2 ⟨_, hentry⟩
    rw [Registry.resolve, hget]
    simp only [htag, hthere, Registry.isAssignable_of_parentOf? hparent, Bool.not_true,
      Bool.false_eq_true, if_false]
  have hfind : CommandKind.all.find? (fun k => k.schema.tag = kind.schema.tag) = some kind := by
    cases kind <;> decide
  have houtcome := commandSchema.resolve_eq walker { session with registry }
  rw [Action.outcome_eq_ok_iff, ofWalker, bind_of_ok hregister]
  have hok : commandSchema.resolve walker { session with registry }
      = .ok kind.schema.tag { session with registry } :=
    Action.outcome_eq_ok_iff.1 (houtcome.trans (congrArg (·, _) hresolve))
  rw [bind_of_ok hok]
  simp only [hfind]
  rfl

/-! ## Scalars -/

namespace FieldKind

open Config

variable {config : Config} {store : StoreId} {owner name : String}

/-- The stored value is the one that was resolved. -/
theorem stored_resolve (config : Config) (field : String) (value : Value) :
    (config.resolve field value).stored = value := by
  cases value with
  | text s =>
    rw [resolve]
    split
    · rfl
    · rw [resolveItem]
      split <;> rfl
  | number n => rfl
  | texts names => rfl
  | numbers items => rfl

/-- The field holds at most one element, and that is a scalar. -/
def isPlain : FieldKind → Bool
  | single (.scalar _) | optional (.scalar _) => true
  | _ => false

theorem read_single_scalar (t : ScalarType) :
    (single (.scalar t)).read store config owner name =
      match config.get? owner with
      | none => .error (.config (.objectMissing owner))
      | some object =>
        match object.get? name with
        | none => .error (.config (.fieldMissing owner name))
        | some value => t.convert value := by
  rw [read, required]
  cases config.get? owner with
  | none => rfl
  | some object =>
    cases hvalue : object.get? name with
    | none => simp only [hvalue]
    | some value => simp only [hvalue, Element.convert, stored_resolve]

theorem read_optional_scalar (t : ScalarType) :
    (optional (.scalar t)).read store config owner name =
      match config.get? owner with
      | none => .error (.config (.objectMissing owner))
      | some object =>
        match object.get? name with
        | none => .ok none
        | some value => (t.convert value).map some := by
  rw [read, resolvedOrAbsent, required]
  cases config.get? owner with
  | none => rfl
  | some object =>
    cases hvalue : object.get? name with
    | none => simp only [hvalue]; rfl
    | some value =>
      simp only [hvalue]
      show (t.convert (config.resolve name value).stored >>= fun x => pure (some x)) = _
      rw [stored_resolve]
      cases t.convert value <;> rfl

/-- **A scalar is read from its owner alone**, in whatever store that is. -/
theorem read_eq_of_plain {kind : FieldKind} (h : kind.isPlain = true) {a b : Config}
    (howner : a.get? owner = b.get? owner) (store store' : StoreId) :
    kind.read store a owner name = kind.read store' b owner name := by
  cases kind with
  | single e =>
    cases e with
    | scalar t => rw [read_single_scalar, read_single_scalar, howner]
    | object ref => cases h
  | optional e =>
    cases e with
    | scalar t => rw [read_optional_scalar, read_optional_scalar, howner]
    | object ref => cases h
  | sequence e => cases h
  | mapping e => cases h

theorem references_of_plain {kind : FieldKind} (h : kind.isPlain = true) (x : kind.Carrier) :
    kind.references x = [] := by
  cases kind with
  | single e =>
    cases e with
    | scalar t => rfl
    | object ref => cases h
  | optional e =>
    cases e with
    | scalar t => cases x <;> rfl
    | object ref => cases h
  | sequence e => cases h
  | mapping e => cases h

/-- What an optional scalar reads as was converted from a stored value. -/
theorem exists_convert_of_read_optional {t : ScalarType} {x : t.Carrier}
    (h : (optional (.scalar t)).read store config owner name = .ok (some x)) :
    ∃ value, t.convert value = .ok x := by
  rw [read_optional_scalar] at h
  split at h
  · cases h
  · split at h
    · cases h
    · next value _ =>
      refine ⟨value, ?_⟩
      cases hconvert : t.convert value with
      | ok y =>
        rw [hconvert] at h
        cases h
        rfl
      | error e =>
        rw [hconvert] at h
        cases h

/-- An address that was read can be stored. -/
theorem storable_address {value : Value} {a : Address} (h : ScalarType.address.convert value = .ok a) :
    ScalarType.Storable .address a := by
  cases value with
  | text s =>
    rw [ScalarType.convert, ScalarType.read] at h
    cases hread : Address.ofText? s with
    | none =>
      rw [hread] at h
      cases h
    | some b =>
      rw [hread] at h
      cases h
      exact Address.host_ne_of_ofText? hread
  | number n => cases h
  | texts items => cases h
  | numbers items => cases h

theorem convert_store {t : ScalarType} {x : t.Carrier} (h : t.Storable x) :
    t.convert (t.store x) = .ok x := by
  rw [ScalarType.convert, ScalarType.read_store h]

/-! ## One element -/

/-- The field holds the element and no other, whether or not it may be without one. -/
inductive Holds (e : Element) (x : e.Carrier) : (kind : FieldKind) → kind.Carrier → Prop where
  | single : Holds e x (single e) x
  | optional : Holds e x (optional e) (some x)

/-- **A field that holds one element is read as the stored value is**, in both shapes. -/
theorem read_of_holds {e : Element} {x : e.Carrier} {kind : FieldKind} {y : kind.Carrier} (h : Holds e x kind y)
    {value : Value} (hraw : raw? config owner name = some value)
    (hconvert : e.convert store (config.resolve name value) = .ok x) :
    kind.read store config owner name = .ok y := by
  cases h with
  | single =>
    rw [read, required_eq_ok_iff.2 ⟨value, hraw, rfl⟩]
    exact hconvert
  | optional =>
    rw [read, resolvedOrAbsent_eq_some_iff.2 ⟨value, hraw, rfl⟩]
    show (e.convert store _ >>= fun y => pure (some y)) = _
    rw [hconvert]
    rfl

theorem read_scalar {t : ScalarType} {x : t.Carrier} {kind : FieldKind} {y : kind.Carrier}
    (h : Holds (.scalar t) x kind y) (hx : t.Storable x)
    (hraw : raw? config owner name = some (t.store x)) : kind.read store config owner name = .ok y := by
  refine read_of_holds h hraw ?_
  rw [Element.convert, stored_resolve, convert_store hx]

theorem resolve_of_contains {target : String} (hname : name ≠ typeField)
    (hthere : config.contains target = true) : config.resolve name (.text target) = .object target := by
  rw [resolve, if_neg hname, resolveItem, if_pos hthere]

theorem read_ref {ref : SchemaRef} {target : String} {kind : FieldKind} {y : kind.Carrier}
    (h : Holds (.object ref) ⟨store, target⟩ kind y) (hname : name ≠ typeField)
    (hraw : raw? config owner name = some (.text target)) (hthere : config.contains target = true) :
    kind.read store config owner name = .ok y := by
  refine read_of_holds h hraw ?_
  rw [resolve_of_contains hname hthere]
  rfl

theorem read_optional_absent {e : Element} {object : Object} (hobject : config.get? owner = some object)
    (hfield : object.get? name = none) : (optional e).read store config owner name = .ok none := by
  rw [read, resolvedOrAbsent, required, hobject]
  simp only [hfield]
  rfl

end FieldKind

/-! ## Fits -/

namespace FieldFits

variable {catalogue : Catalogue} {config : Config} {store : StoreId} {R : String → Schema → Prop}
  {owner : String} {field : FieldDecl}

theorem of_plain (hplain : field.kind.isPlain = true) {x : field.kind.Carrier}
    (hread : field.kind.read store config owner field.name = .ok x) :
    FieldFits catalogue config store R owner field := by
  refine ⟨x, hread, ?_⟩
  intro target ref hmem
  rw [FieldKind.references_of_plain hplain] at hmem
  cases hmem

end FieldFits

end GraphWire
