import GraphWire.Proofs.Canonical
import GraphWire.Proofs.Copies
import GraphWire.Proofs.Frames
import GraphWire.Wire.Message

/-!
# `Proofs.Fidelity` — what is sent arrives

A root is sent as the text of all assignments that it leads to, in a frame. Those assignments list
each object once, in the order of the search, and so they result in a copy of what the root reaches;
the frame holds their text unchanged, whatever the texts among the values hold. A copy is searched and
checked as the original, since nothing that is reachable leads out of it.

## Contents
- **`Config.Sendable`**, the objects that a root leads to have a written form.
- **Walks.** `Config.mem_walk_iff`, and **`Config.ofStatements_walk`**: the assignments of a walk result
  in a copy.
- **Texts.** `Config.parse_marshal`, and `trimEnd_lines`: trimming cuts off nothing but a line feed.
- **Sessions.** `Frame.outcome_walker`, what a receiver gets, and `Schema.outcome_check`.
- **All layers.** `Delivers` and `Faithful`, with **`delivers_faithful`**.
-/

namespace GraphWire

/-! ## What can be sent -/

/-- Whether the value is no empty list and its numbers are finite; its texts may still have no written
    form. -/
def Value.Proper : Value → Prop
  | .text _ => True
  | .number n => n.isFinite = true
  | .texts items => items ≠ []
  | .numbers items => items ≠ [] ∧ ∀ n ∈ items, n.isFinite = true

theorem Value.Proper.writable {v : Value} (h : v.Proper) (hquote : v.unquotable? = none) :
    v.Writable := by
  cases v with
  | text s =>
    show isUnquotable s = false
    apply Bool.eq_false_iff.2
    intro hs
    rw [Value.unquotable?, if_pos hs] at hquote
    cases hquote
  | number n => exact h
  | texts items =>
    have hitems := List.find?_eq_none.1 hquote
    exact ⟨h, fun s hs => Bool.eq_false_iff.2 (hitems s hs)⟩
  | numbers items => exact h

theorem Value.Writable.proper {v : Value} (h : v.Writable) : v.Proper := by
  cases v with
  | text s => trivial
  | number n => exact h
  | texts items => exact h.1
  | numbers items => exact h

namespace Config

variable {config : Config} {root : String}

/-- The objects that a root leads to have names and fields, and so have their fields; all values are
    proper. -/
structure Sendable (config : Config) (root : String) : Prop where
  name : ∀ {name}, config.Reaches root name → isName name = true
  ne_nil : ∀ {name object}, config.Reaches root name → config.get? name = some object →
    object.entries ≠ []
  field : ∀ {name object field value}, config.Reaches root name → config.get? name = some object →
    (field, value) ∈ object.entries → isName field = true ∧ value.Proper

/-- What can be written can be sent, from any root. -/
theorem Writable.sendable (h : config.Writable) (root : String) : config.Sendable root := by
  refine ⟨?_, ?_, ?_⟩
  · intro name hreach
    obtain ⟨object, hget⟩ := SortedMap.contains_iff.1 hreach.contains
    exact h.name hget
  · intro name object _ hget
    exact h.ne_nil hget
  · intro name object field value _ hget hmem
    obtain ⟨hfield, hvalue⟩ := h.field hget hmem
    exact ⟨hfield, hvalue.proper⟩

/-! ## Walks -/

/-- A walk has the assignments of the objects that the root reaches, one for each field. -/
theorem mem_walk_iff {s : Statement} :
    s ∈ config.walk root ↔ config.Reaches root s.object ∧
      ∃ object, config.get? s.object = some object ∧ (s.field, s.value) ∈ object.entries := by
  obtain ⟨name, field, value⟩ := s
  simp only [walk, List.mem_flatMap, List.mem_map, Prod.exists, Statement.mk.injEq]
  constructor
  · rintro ⟨_, hmem, _, _, hfield, rfl, rfl, rfl⟩
    have hreach := mem_reach_singleton_iff.1 hmem
    obtain ⟨object, hget⟩ := SortedMap.contains_iff.1 hreach.contains
    rw [hget] at hfield
    exact ⟨hreach, object, hget, hfield⟩
  · rintro ⟨hreach, object, hget, hfield⟩
    refine ⟨name, mem_reach_singleton_iff.2 hreach, field, value, ?_, rfl, rfl, rfl⟩
    rw [hget]
    exact hfield

/-- The fields of an object, none if there is no such object. -/
def fieldsAt (config : Config) (name : String) : List (String × Value) :=
  ((config.get? name).map (·.entries)).getD []

/-- A walk is the listing of the objects met, with their fields as they are. -/
theorem walk_eq_listed (config : Config) (root : String) :
    config.walk root = listed ((config.reach [root]).map fun name => (name, config.fieldsAt name)) := by
  rw [listed, List.flatMap_map]
  rfl

theorem find?_map_name {α : Type} (f : String → α) (name : String) (names : List String) :
    Entry.find? name (names.map fun n => (n, f n)) = if name ∈ names then some (f name) else none := by
  induction names with
  | nil => rfl
  | cons n names ih =>
    rw [List.map_cons, Entry.find?]
    by_cases h : n = name
    · subst h
      rw [if_pos rfl, if_pos List.mem_cons_self]
    · have hmem : name ∈ n :: names ↔ name ∈ names := by
        rw [List.mem_cons]
        exact or_iff_right (Ne.symm h)
      rw [if_neg h, ih]
      simp only [hmem]

/-- **The assignments of a walk result in a copy of what the root reaches**, with the fields of each
    object in their order. -/
theorem ofStatements_walk (h : config.Sendable root) :
    ofStatements (config.walk root) = config.extract [root] := by
  have hkeys : (Entry.keys ((config.reach [root]).map fun name => (name, config.fieldsAt name))).Nodup := by
    rw [Entry.keys, List.map_map]
    show ((config.reach [root]).map id).Nodup
    rw [List.map_id]
    exact config.nodup_reach [root]
  have hne : ∀ e ∈ (config.reach [root]).map (fun name => (name, config.fieldsAt name)), e.2 ≠ [] := by
    intro e he
    obtain ⟨name, hmem, rfl⟩ := List.mem_map.1 he
    have hreach := mem_reach_singleton_iff.1 hmem
    obtain ⟨object, hget⟩ := SortedMap.contains_iff.1 hreach.contains
    show config.fieldsAt name ≠ []
    rw [fieldsAt, hget]
    exact h.ne_nil hreach hget
  apply SortedMap.ext_get?
  intro name
  rw [walk_eq_listed, get?_ofStatements_listed hkeys hne, find?_map_name, get?_extract]
  by_cases hmem : name ∈ config.reach [root]
  · obtain ⟨object, hget⟩ := SortedMap.contains_iff.1 (contains_of_mem_reach hmem)
    rw [if_pos hmem, if_pos hmem, Option.map_some, fieldsAt, hget]
    congr 1
    exact OrderedMap.ext (OrderedMap.entries_ofList object.nodup)
  · rw [if_neg hmem, if_neg hmem]
    rfl

/-! ## Texts -/

/-- **The text of a root is read as a copy of what it reaches**, unless there is nothing. -/
theorem parse_marshal {text : String} (h : config.Sendable root) (hmarshal : config.marshal root = .ok text)
    (hne : config.walk root ≠ []) : parse text = .ok (config.extract [root]) := by
  obtain ⟨hquote, rfl⟩ := writeStatements_iff.1 hmarshal
  have hwritable : ∀ s ∈ config.walk root, s.Writable := by
    intro s hs
    obtain ⟨hreach, object, hget, hmem⟩ := mem_walk_iff.1 hs
    obtain ⟨hfield, hvalue⟩ := h.field hreach hget hmem
    exact ⟨h.name hreach, hfield, hvalue.writable (hquote s hs)⟩
  rw [parse, statements_lines hne hwritable]
  show Except.ok (ofStatements (config.walk root)) = _
  rw [ofStatements_walk h]

end Config

/-- The lines of statements end in a semicolon and a line feed. -/
theorem toList_lines {stmts : List Statement} (hne : stmts ≠ []) :
    ∃ init, (Statement.lines stmts).toList = init ++ [';'] ++ ['\n'] := by
  induction stmts with
  | nil => exact absurd rfl hne
  | cons s stmts ih =>
    rw [Statement.toList_lines_cons]
    by_cases hrest : stmts = []
    · refine ⟨(s.object ++ "." ++ s.field ++ " <- " ++ s.value.written).toList, ?_⟩
      subst hrest
      simp [Statement.display, Statement.lines]
    · obtain ⟨init, hinit⟩ := ih hrest
      refine ⟨(s.display ++ "\n").toList ++ init, ?_⟩
      rw [hinit, List.append_assoc, List.append_assoc, List.append_assoc]

/-- Trimming the lines of statements cuts off nothing but the last line feed. -/
theorem trimEnd_lines {stmts : List Statement} (hne : stmts ≠ []) :
    trimEnd (Statement.lines stmts).toList ++ ['\n'] = (Statement.lines stmts).toList := by
  obtain ⟨init, hinit⟩ := toList_lines hne
  have hfeed : ∀ d ∈ ['\n'], isBlank d = true := by
    intro d hd
    rw [List.mem_singleton.1 hd]
    decide
  rw [hinit, trimEnd_append (by decide) hfeed]

theorem decodeUtf8_toUTF8 (s : String) : decodeUtf8 s.toUTF8 = .ok s := by
  have hread : String.fromUTF8? s.toUTF8 = some s := dif_pos s.isValidUTF8
  rw [decodeUtf8, hread]

/-! ## Sessions -/

/-- The contents of the store that the walker is in. -/
def Session.contents (session : Session) (walker : Walker) : Config :=
  session.stores.get walker.store

/-- A frame that holds a text describes what the text is read as. -/
theorem Frame.config_toUTF8 {text : String} {config : Config} (h : Config.parse text = .ok config) :
    Frame.config text.toUTF8 = .ok config := by
  have hread : Frame.text text.toUTF8 = pure text := by
    rw [Frame.text, decodeUtf8_toUTF8]
    rfl
  rw [Frame.config, hread, pure_bind, h]
  rfl

/-- A receiver gets a walker in a further store, which holds what the frame describes. -/
theorem Frame.outcome_walker {body : ByteArray} {config : Config} (h : Frame.config body = .ok config)
    (root : String) (session : Session) :
    ∃ (copy : Walker) (session' : Session),
      (Frame.walker body root).outcome session = (.ok copy, session') ∧ copy.name = root ∧
        session'.contents copy = config ∧ session'.registry = session.registry := by
  refine ⟨⟨session.stores.configs.length, root⟩,
    { session with stores := (session.stores.add config).2 }, ?_, rfl, ?_, rfl⟩
  · simp only [Frame.walker, h, Action.outcome, Action.ofExcept]
    rfl
  · show (session.stores.configs ++ [config]).getD session.stores.configs.length _ = config
    rw [List.getD_eq_getElem?_getD, List.getElem?_concat_length, Option.getD_some]

/-- A check looks at the contents of the walker's store, with the schemas registered. -/
theorem Schema.outcome_check (catalogue : Catalogue) (schema : Schema) (walker : Walker)
    (session : Session) :
    ((schema.check catalogue walker).outcome session).1 =
      .ok (schema.validate catalogue (session.contents walker) ⟨session.registry, []⟩
        walker.name).1 := rfl

/-! ## All layers -/

/-- A fresh decoder that receives the bytes delivers this one frame and keeps nothing, whether or not
    more bytes will arrive. -/
def Delivers (bytes body : ByteArray) : Prop :=
  ∀ atEnd, ∃ rest : Decoder,
    (Decoder.fresh.append bytes).drain atEnd = ([body], none, rest) ∧ rest.buffer = .empty

/-- The frame brings what the root leads to: it describes a copy of it, and the walker that a receiver
    gets has the walk of the root and is checked as the root, the same schemas being registered. -/
structure Faithful (session : Session) (root : Walker) (body : ByteArray) : Prop where
  config : Frame.config body = .ok ((session.contents root).extract [root.name])
  walker : ∃ (copy : Walker) (session' : Session),
    (Frame.walker body root.name).outcome session = (.ok copy, session') ∧
    copy.name = root.name ∧ session'.registry = session.registry ∧
    (session'.contents copy).walk copy.name = (session.contents root).walk root.name ∧
    ∀ (catalogue : Catalogue) (schema : Schema),
      ((schema.check catalogue copy).outcome session').1
        = ((schema.check catalogue root).outcome session).1

/-- The text of a root that is encoded, and within the limit, is delivered, and describes a copy of what the
    root reaches. -/
theorem Config.Sendable.delivers_text {config : Config} {root text : String} {bytes : ByteArray}
    (h : config.Sendable root) (hmarshal : config.marshal root = .ok text)
    (hencode : encodeFrame text = .ok bytes)
    (hsize : (String.ofList (trimEnd text.toList)).toUTF8.size < maxFrameSize)
    (hne : config.walk root ≠ []) :
    Delivers bytes text.toUTF8 ∧ Frame.config text.toUTF8 = .ok (config.extract [root]) := by
  have htext : String.ofList (trimEnd text.toList ++ ['\n']) = text := by
    obtain ⟨-, rfl⟩ := writeStatements_iff.1 hmarshal
    rw [trimEnd_lines hne, String.ofList_toList]
  constructor
  · intro atEnd
    have hdrain := drain_encodeFrame hencode hsize atEnd
    rwa [htext] at hdrain
  · exact Frame.config_toUTF8 (parse_marshal h hmarshal hne)

/-- A frame that describes a copy of what a root reaches is faithful, if there is such an object. -/
theorem faithful_of_config {session : Session} {root : Walker} {body : ByteArray}
    (hconfig : Frame.config body = .ok ((session.contents root).extract [root.name]))
    (there : (session.contents root).contains root.name) : Faithful session root body := by
  -- the copy agrees with the original under the root, and so under all that it reaches
  have halike : (session.contents root).Alike ((session.contents root).extract [root.name]) :=
    Config.alike_extract _ _
  have hroot : (session.contents root).get? root.name
      = ((session.contents root).extract [root.name]).get? root.name := by
    have hmem : root.name ∈ (session.contents root).reach [root.name] :=
      Config.mem_reach_singleton_iff.2 (.here there)
    rw [Config.get?_extract, if_pos hmem]
  obtain ⟨copy, session', hwalker, hname, hcontents, hregistry⟩ :=
    Frame.outcome_walker hconfig root.name session
  refine ⟨hconfig, copy, session', hwalker, hname, hregistry, ?_, ?_⟩
  · rw [hcontents, hname]
    exact (halike.walk_eq hroot).symm
  · intro catalogue schema
    rw [Schema.outcome_check, Schema.outcome_check, hcontents, hname, hregistry,
      Schema.validate_eq halike hroot]

/-- **What is sent arrives.** Let the objects that a root leads to have a written form but for their
    texts, and let the root be written and encoded, the trimmed text being within the limit. Then the
    bytes deliver one frame, and that is faithful. -/
theorem delivers_faithful {session : Session} {root : Walker} {text : String} {bytes : ByteArray}
    (hsend : (session.contents root).Sendable root.name)
    (hmarshal : (session.contents root).marshal root.name = .ok text)
    (hencode : encodeFrame text = .ok bytes)
    (hsize : (String.ofList (trimEnd text.toList)).toUTF8.size < maxFrameSize) :
    ∃ body : ByteArray, Delivers bytes body ∧ Faithful session root body := by
  -- a root that leads to nothing has an empty text, which is not encoded
  have hne : (session.contents root).walk root.name ≠ [] := by
    intro hnil
    rw [Config.marshal, hnil] at hmarshal
    cases hmarshal
    cases hencode
  obtain ⟨hdelivers, hconfig⟩ := hsend.delivers_text hmarshal hencode hsize hne
  refine ⟨text.toUTF8, hdelivers, faithful_of_config hconfig ?_⟩
  obtain ⟨s, hs⟩ := List.exists_mem_of_ne_nil _ hne
  exact (Config.mem_walk_iff.1 hs).1.start

/-- Two objects that refer to each other, and one that refers to them. One of them holds a text with
    quotes, a backslash and a line feed. -/
def ringStatements : List Statement :=
  [⟨"a", "next", .texts ["b", "c"]⟩, ⟨"a", "note", .text "it's\n\\ 'now'"⟩,
    ⟨"b", "back", .text "a"⟩, ⟨"b", "size", .numbers [.one]⟩, ⟨"d", "far", .text "a"⟩]

def ringText : String :=
  "a.next <- ['b', 'c'];\na.note <- 'it\\'s\n\\ \\'now\\'';\nb.back <- 'a';\nb.size <- [1];\n"

def ringSession : Session := { Session.fresh with stores := ⟨[.ofStatements ringStatements]⟩ }

theorem reach_ring : (Config.ofStatements ringStatements).reach ["a"] = ["a", "b"] := by
  have hsearch : (Config.ofStatements ringStatements).reachWithin 9 [] ["a"] = some ["a", "b"] := by
    decide +kernel
  exact Config.reachFrom_of_reachWithin hsearch

/-- The objects of a ring arrive. -/
theorem delivers_faithful_ring :
    ∃ bytes : ByteArray, encodeFrame ringText = .ok bytes ∧
      ∃ body : ByteArray, Delivers bytes body ∧ Faithful ringSession ⟨0, "a"⟩ body := by
  have hwritable : ∀ s ∈ ringStatements, s.Writable := by
    have hparts : ∀ s ∈ ringStatements,
        isName s.object = true ∧ isName s.field = true ∧ s.value.Writable := by decide +kernel
    intro s hs
    obtain ⟨hobject, hfield, hvalue⟩ := hparts s hs
    exact ⟨hobject, hfield, hvalue⟩
  have hmarshal : (ringSession.contents ⟨0, "a"⟩).marshal "a" = .ok ringText := by
    show writeStatements ((Config.ofStatements ringStatements).walk "a") = _
    rw [Config.walk, reach_ring]
    exact Config.eq_ok_of_toOption (by decide +kernel)
  have hencode : encodeFrame ringText
      = .ok ((String.ofList (trimEnd ringText.toList)).toUTF8 ++ ⟨#[lineFeed, lineFeed]⟩) :=
    Config.eq_ok_of_toOption (by decide +kernel)
  exact ⟨_, hencode, delivers_faithful ((Config.writable_ofStatements hwritable).sendable "a")
    hmarshal hencode (by decide +kernel)⟩

end GraphWire
