import GraphWire.Proofs.Runs

/-!
# `Proofs.Registration` — whose schema a tag belongs to

Schemas are registered when something is first done with them, each behind its ancestors, and one whose tag
belongs to another schema is refused, in the middle of its line if need be. Whatever is done in whatever
order, a tag that is taken stays with its schema, and a schema is only there if its whole line is. So a tag
that leads upwards leads to the ancestors that were declared, and whether a schema can be registered is told
by the tags of its line.

## Contents
- **Schemas.** `Schema.Declared`, how schemas come about, and `Catalogue.Lawful`.
- **Lists of entries.** `Registry.Admissible`, with `admissible_insert_iff` for an entry that is registered now;
  **`addAll_ok_iff`** and `exists_of_addAll_error`.
- **`Registry.Founded`**, every entry stands on that of its parent; `founded_register` and
  **`Founded.register_ok_iff`**.
- **Runs.** **`Session.registry_is_founded`**.
-/

namespace GraphWire

/-! ## Schemas -/

/-- Schemas come about by a declaration, which may extend another schema. -/
inductive Schema.Declared : Schema → Prop where
  | declare (key tag : String) (fields : List FieldDecl) : Declared (.declare key tag fields)
  | extend {parent : Schema} (declared : Declared parent) (key tag : String) (fields : List FieldDecl) :
      Declared (parent.extend key tag fields)

/-- The schemas of a program: all are declared, parents are among them, and each has a key of its own. -/
structure Catalogue.Lawful (catalogue : Catalogue) : Prop where
  declared : ∀ schema ∈ catalogue, schema.Declared
  parent : ∀ schema ∈ catalogue, ∀ parent, schema.parent? = some parent → parent ∈ catalogue
  key : ∀ schema ∈ catalogue, ∀ other ∈ catalogue, schema.key = other.key → schema = other

namespace Schema

theorem entries_declare (key tag : String) (fields : List FieldDecl) :
    (declare key tag fields).entries = [(declare key tag fields).entry] := rfl

theorem entries_extend (parent : Schema) (key tag : String) (fields : List FieldDecl) :
    (parent.extend key tag fields).entries = parent.entries ++ [(parent.extend key tag fields).entry] := rfl

end Schema

namespace Catalogue.Lawful

variable {catalogue : Catalogue} {schema : Schema}

theorem nil : Lawful [] :=
  ⟨List.forall_mem_nil _, List.forall_mem_nil _, List.forall_mem_nil _⟩

/-- Schemas are declared one after another, a parent before those that extend it. -/
theorem concat (h : catalogue.Lawful) (hdeclared : schema.Declared)
    (hparent : ∀ parent ∈ schema.parent?, parent ∈ catalogue)
    (hkey : ∀ other ∈ catalogue, other.key ≠ schema.key) : Lawful (catalogue ++ [schema]) := by
  constructor
  case declared =>
    exact List.forall_mem_append.2 ⟨h.declared, List.forall_mem_singleton.2 hdeclared⟩
  case parent =>
    refine List.forall_mem_append.2 ⟨?_, List.forall_mem_singleton.2 ?_⟩
    · exact fun other hother parent hup => List.mem_append_left _ (h.parent other hother parent hup)
    · exact fun parent hup => List.mem_append_left _ (hparent parent hup)
  case key =>
    refine List.forall_mem_append.2 ⟨?_, List.forall_mem_singleton.2 ?_⟩
    · intro other hother
      refine List.forall_mem_append.2 ⟨h.key other hother, List.forall_mem_singleton.2 ?_⟩
      exact fun hsame => absurd hsame (hkey other hother)
    · refine List.forall_mem_append.2 ⟨?_, List.forall_mem_singleton.2 fun _ => rfl⟩
      exact fun other hother hsame => absurd hsame.symm (hkey other hother)

/-- The entries of a schema are those of schemas that have no more ancestors. -/
theorem exists_of_mem_entries (h : catalogue.Lawful) (hmem : schema ∈ catalogue) {e : SchemaEntry}
    (he : e ∈ schema.entries) :
    ∃ ancestor ∈ catalogue, ancestor.entry = e ∧ ancestor.ancestors.length ≤ schema.ancestors.length := by
  induction h.declared schema hmem with
  | declare key tag fields =>
    rw [Schema.entries_declare, List.mem_singleton] at he
    exact ⟨_, hmem, he.symm, Nat.le_refl _⟩
  | @extend parent declared key tag fields ih =>
    rw [Schema.entries_extend] at he
    rcases List.mem_append.1 he with he | he
    · obtain ⟨ancestor, hancestor, hentry, hlength⟩ := ih (h.parent _ hmem _ rfl) he
      exact ⟨ancestor, hancestor, hentry, Nat.le_succ_of_le hlength⟩
    · exact ⟨_, hmem, (List.mem_singleton.1 he).symm, Nat.le_refl _⟩

/-- No two schemas of a line have the same key, since one of them has more ancestors. -/
theorem pairwise_key (h : catalogue.Lawful) (hmem : schema ∈ catalogue) :
    schema.entries.Pairwise (·.key ≠ ·.key) := by
  induction h.declared schema hmem with
  | declare key tag fields =>
    rw [Schema.entries_declare]
    exact List.pairwise_singleton _ _
  | @extend parent declared key tag fields ih =>
    have hparent : parent ∈ catalogue := h.parent _ hmem _ rfl
    rw [Schema.entries_extend, List.pairwise_append]
    refine ⟨ih hparent, List.pairwise_singleton _ _, ?_⟩
    intro e he own hown hkey
    rw [List.mem_singleton.1 hown] at hkey
    obtain ⟨ancestor, hancestor, rfl, hlength⟩ := h.exists_of_mem_entries hparent he
    have hsame := h.key _ hancestor _ hmem hkey
    rw [hsame] at hlength
    exact Nat.not_succ_le_self _ hlength

end Catalogue.Lawful

/-! ## Lists of entries -/

namespace Registry

variable {registry : Registry} {entries : List SchemaEntry} {e : SchemaEntry}

/-- The tags differ from each other, and each of them is free or held by its own entry. -/
def Admissible (registry : Registry) (entries : List SchemaEntry) : Prop :=
  (entries.map SchemaEntry.tag).Nodup ∧
    ∀ e ∈ entries, registry.get? e.tag = none ∨ registry.get? e.tag = some e

instance (registry : Registry) (entries : List SchemaEntry) : Decidable (registry.Admissible entries) :=
  inferInstanceAs (Decidable (_ ∧ _))

theorem admissible_cons_iff :
    registry.Admissible (e :: entries) ↔
      (registry.get? e.tag = none ∨ registry.get? e.tag = some e) ∧ (∀ d ∈ entries, d.tag ≠ e.tag) ∧
        registry.Admissible entries := by
  rw [Admissible, List.map_cons, List.nodup_cons, List.forall_mem_cons, List.mem_map, Admissible]
  constructor
  · rintro ⟨⟨hnew, hnodup⟩, hfirst, hrest⟩
    exact ⟨hfirst, fun d hd htag => hnew ⟨d, hd, htag⟩, hnodup, hrest⟩
  · rintro ⟨hfirst, hnew, hnodup, hrest⟩
    refine ⟨⟨?_, hnodup⟩, hfirst, hrest⟩
    rintro ⟨d, hd, htag⟩
    exact hnew d hd htag

/-- A tag that is held by its own entry is none of another entry that can be registered. -/
theorem tag_ne_of_held {d : SchemaEntry} (hheld : registry.get? e.tag = some e)
    (hpossible : registry.get? d.tag = none ∨ registry.get? d.tag = some d) (hkey : e.key ≠ d.key) :
    d.tag ≠ e.tag := by
  intro htag
  rw [htag, hheld] at hpossible
  rcases hpossible with hnone | hsame
  · cases hnone
  · exact hkey (congrArg SchemaEntry.key (Option.some.inj hsame))

/-- Behind an entry that is there no other one has its tag. -/
theorem admissible_iff_of_held (hheld : registry.get? e.tag = some e) (hkey : ∀ d ∈ entries, e.key ≠ d.key) :
    registry.Admissible entries ↔ (∀ d ∈ entries, d.tag ≠ e.tag) ∧ registry.Admissible entries := by
  constructor
  · intro h
    exact ⟨fun d hd => tag_ne_of_held hheld (h.2 d hd) (hkey d hd), h⟩
  · exact fun h => h.2

/-- An entry that has been registered now takes its tag, and changes nothing for other tags. -/
theorem admissible_insert_iff (hkey : ∀ d ∈ entries, e.key ≠ d.key) :
    Admissible (registry.insert e.tag e) entries ↔
      (∀ d ∈ entries, d.tag ≠ e.tag) ∧ registry.Admissible entries := by
  have hheld : (registry.insert e.tag e).get? e.tag = some e := by
    rw [SortedMap.get?_insert, if_pos rfl]
  rw [admissible_iff_of_held hheld hkey]
  refine and_congr_right fun hfree => ?_
  have hsame : ∀ d ∈ entries, (registry.insert e.tag e).get? d.tag = registry.get? d.tag := by
    intro d hd
    rw [SortedMap.get?_insert, if_neg (hfree d hd)]
  refine and_congr_right fun _ => forall₂_congr fun d hd => ?_
  rw [hsame d hd]

/-- **When a list of entries is registered.** All keys differ, and an entry with one of them is the one in the
    list. -/
theorem addAll_ok_iff (hkeys : entries.Pairwise (·.key ≠ ·.key))
    (hown : ∀ e ∈ entries, ∀ holder, registry.get? e.tag = some holder → holder.key = e.key → holder = e) :
    (registry.addAll entries).2 = .ok () ↔ registry.Admissible entries := by
  induction entries generalizing registry with
  | nil => exact ⟨fun _ => ⟨List.nodup_nil, fun _ h => absurd h List.not_mem_nil⟩, fun _ => rfl⟩
  | cons e entries ih =>
    obtain ⟨hkey, hlater⟩ := List.pairwise_cons.1 hkeys
    obtain ⟨hfirst, hownLater⟩ := List.forall_mem_cons.1 hown
    rw [admissible_cons_iff, addAll]
    cases hget : registry.get? e.tag with
    | none =>
      -- a later entry is free or held as before, and not under the tag that was taken now
      have hown' : ∀ d ∈ entries, ∀ holder, (registry.insert e.tag e).get? d.tag = some holder →
          holder.key = d.key → holder = d := by
        intro d hd holder hholder hsame
        rw [SortedMap.get?_insert] at hholder
        split at hholder
        · cases hholder
          exact absurd hsame (hkey d hd)
        · exact hownLater d hd holder hholder hsame
      rw [add_of_free hget]
      dsimp only
      rw [ih hlater hown', admissible_insert_iff hkey]
      exact (and_iff_right (Or.inl rfl)).symm
    | some holder =>
      by_cases hsame : holder.key = e.key
      · obtain rfl := hfirst holder hget hsame
        rw [add_of_held hget rfl]
        dsimp only
        rw [ih hlater hownLater]
        exact (admissible_iff_of_held hget hkey).trans (and_iff_right (Or.inr rfl)).symm
      · rw [add_of_taken hget hsame]
        constructor
        · intro h
          cases h
        · rintro ⟨hnone | hheld, -⟩
          · cases hnone
          · exact absurd (congrArg SchemaEntry.key (Option.some.inj hheld)) hsame

/-- What is refused is one of the entries, for the sake of another one that holds its tag. -/
theorem exists_of_addAll_error {fault : TypedError} (h : (registry.addAll entries).2 = .error fault) :
    ∃ e ∈ entries, ∃ holder, (registry.addAll entries).1.get? e.tag = some holder ∧ holder.key ≠ e.key ∧
      fault = .duplicateTag holder.tag := by
  induction entries generalizing registry with
  | nil => cases h
  | cons e entries ih =>
    rw [addAll] at h ⊢
    cases hadd : registry.add e with
    | ok grown =>
      rw [hadd] at h
      obtain ⟨d, hd, hheld⟩ := ih h
      exact ⟨d, List.mem_cons_of_mem _ hd, hheld⟩
    | error fault' =>
      rw [hadd] at h
      cases h
      obtain ⟨holder, hget, hkey, hfault⟩ := add_eq_error_iff.1 hadd
      exact ⟨e, List.mem_cons_self, holder, hget, hkey, hfault⟩

theorem addAll_append (registry : Registry) (entries more : List SchemaEntry) :
    registry.addAll (entries ++ more) =
      match registry.addAll entries with
      | (grown, .ok ()) => grown.addAll more
      | (grown, .error fault) => (grown, .error fault) := by
  induction entries generalizing registry with
  | nil => rfl
  | cons e entries ih =>
    rw [List.cons_append, addAll, addAll]
    cases registry.add e with
    | ok grown => exact ih grown
    | error fault => rfl

/-! ## Founded registries -/

/-- **Every entry stands on that of its parent.** It is the entry of a schema of the catalogue, under its tag,
    and the tag that it names as its parent's holds the entry of the parent of that schema. -/
def Founded (catalogue : Catalogue) (registry : Registry) : Prop :=
  ∀ tag entry, registry.get? tag = some entry → ∃ schema ∈ catalogue, schema.entry = entry ∧
    schema.tag = tag ∧ ∀ parentTag, entry.parentTag = some parentTag →
      ∃ parent ∈ catalogue, schema.parent? = some parent ∧ registry.get? parentTag = some parent.entry

namespace Founded

variable {catalogue : Catalogue} {schema : Schema}

theorem empty (catalogue : Catalogue) : Founded catalogue SortedMap.empty := by
  intro tag entry hget
  cases hget

/-- An entry with the key of a schema is the entry of that schema. -/
theorem eq_entry (hlawful : catalogue.Lawful) (h : Founded catalogue registry) (hmem : schema ∈ catalogue)
    {tag : String} {entry : SchemaEntry} (hget : registry.get? tag = some entry)
    (hkey : entry.key = schema.key) : entry = schema.entry ∧ tag = schema.tag := by
  obtain ⟨other, hother, rfl, rfl, -⟩ := h tag entry hget
  rw [hlawful.key other hother schema hmem hkey]
  exact ⟨rfl, rfl⟩

/-- One more schema is registered, if it has no parent or its parent is there. -/
theorem add (hlawful : catalogue.Lawful) (h : Founded catalogue registry) (hmem : schema ∈ catalogue)
    (hparent : ∀ parentTag, schema.parentTag = some parentTag →
      ∃ parent ∈ catalogue, schema.parent? = some parent ∧ registry.get? parentTag = some parent.entry)
    {grown : Registry} (hadd : registry.add schema.entry = .ok grown) :
    Founded catalogue grown ∧ grown.get? schema.tag = some schema.entry := by
  have hwithin := within_add hadd
  rcases add_eq_ok_iff.1 hadd with ⟨-, rfl⟩ | ⟨holder, hget, hkey, rfl⟩
  · refine ⟨?_, by rw [SortedMap.get?_insert]; exact if_pos rfl⟩
    intro tag entry hget
    rw [SortedMap.get?_insert] at hget
    split at hget
    · next htag =>
      cases hget
      refine ⟨schema, hmem, rfl, htag.symm, fun parentTag hup => ?_⟩
      obtain ⟨parent, hparentMem, hdeclared, hthere⟩ := hparent parentTag hup
      exact ⟨parent, hparentMem, hdeclared, hwithin _ _ hthere⟩
    · obtain ⟨other, hother, hentry, htag, hup⟩ := h tag entry hget
      refine ⟨other, hother, hentry, htag, fun parentTag hparentTag => ?_⟩
      obtain ⟨parent, hparentMem, hdeclared, hthere⟩ := hup parentTag hparentTag
      exact ⟨parent, hparentMem, hdeclared, hwithin _ _ hthere⟩
  · obtain ⟨rfl, -⟩ := h.eq_entry hlawful hmem hget hkey
    exact ⟨h, hget⟩

/-- **Registration keeps a registry founded**, also if it fails; if not, the schema is there. -/
theorem register (hlawful : catalogue.Lawful) (h : Founded catalogue registry) (hmem : schema ∈ catalogue) :
    Founded catalogue (registry.register schema).1 ∧
      ((registry.register schema).2 = .ok () →
        (registry.register schema).1.get? schema.tag = some schema.entry) := by
  induction hlawful.declared schema hmem with
  | declare key tag fields =>
    rw [Registry.register, Schema.entries_declare, addAll]
    cases hadd : registry.add (Schema.declare key tag fields).entry with
    | error fault => exact ⟨h, fun hok => by cases hok⟩
    | ok grown =>
      obtain ⟨hgrown, hthere⟩ := h.add hlawful hmem (fun _ hnone => by cases hnone) hadd
      exact ⟨hgrown, fun _ => hthere⟩
  | @extend parent declared key tag fields ih =>
    have hparentMem : parent ∈ catalogue := hlawful.parent _ hmem _ rfl
    obtain ⟨hfounded, hthere⟩ := ih hparentMem
    rw [Registry.register] at hfounded hthere ⊢
    rw [Schema.entries_extend, addAll_append]
    generalize registry.addAll parent.entries = result at hfounded hthere ⊢
    obtain ⟨middle, fault | _⟩ := result
    · exact ⟨hfounded, fun hok => by cases hok⟩
    · -- the parent is there now
      have hparent : middle.get? parent.tag = some parent.entry := hthere rfl
      dsimp only
      rw [addAll]
      cases hadd : middle.add (parent.extend key tag fields).entry with
      | error fault => exact ⟨hfounded, fun hok => by cases hok⟩
      | ok grown =>
        have hup : ∀ parentTag, (parent.extend key tag fields).parentTag = some parentTag →
            ∃ above ∈ catalogue, (parent.extend key tag fields).parent? = some above ∧
              middle.get? parentTag = some above.entry := by
          intro parentTag hparentTag
          cases hparentTag
          exact ⟨parent, hparentMem, rfl, hparent⟩
        obtain ⟨hgrown, hself⟩ := hfounded.add hlawful hmem hup hadd
        exact ⟨hgrown, fun _ => hself⟩

/-- A schema is only there if its whole line is. -/
theorem holds_line (hlawful : catalogue.Lawful) (h : Founded catalogue registry) (hmem : schema ∈ catalogue)
    (hthere : registry.get? schema.tag = some schema.entry) : registry.Holds schema.entries := by
  induction hlawful.declared schema hmem with
  | declare key tag fields =>
    intro e he
    rw [Schema.entries_declare, List.mem_singleton] at he
    rw [he]
    exact hthere
  | @extend parent declared key tag fields ih =>
    have hparentMem : parent ∈ catalogue := hlawful.parent _ hmem _ rfl
    obtain ⟨other, hother, hentry, -, hup⟩ := h _ _ hthere
    obtain rfl := hlawful.key other hother _ hmem (congrArg SchemaEntry.key hentry)
    obtain ⟨above, -, habove, hget⟩ := hup parent.tag rfl
    cases habove
    intro e he
    rw [Schema.entries_extend] at he
    rcases List.mem_append.1 he with he | he
    · exact ih hparentMem hget e he
    · rw [List.mem_singleton.1 he]
      exact hthere

/-- **When a schema can be registered.** -/
theorem register_ok_iff (hlawful : catalogue.Lawful) (h : Founded catalogue registry)
    (hmem : schema ∈ catalogue) :
    (registry.register schema).2 = .ok () ↔ registry.Admissible schema.entries := by
  refine addAll_ok_iff (hlawful.pairwise_key hmem) ?_
  intro e he holder hget hkey
  obtain ⟨ancestor, hancestor, rfl, -⟩ := hlawful.exists_of_mem_entries hmem he
  exact (h.eq_entry hlawful hancestor hget hkey).1

/-- **A schema that is refused is not there afterwards**, and the tag that is reported is one of its line that
    belongs to another schema. -/
theorem register_error (hlawful : catalogue.Lawful) (h : Founded catalogue registry) (hmem : schema ∈ catalogue)
    {fault : TypedError} (herror : (registry.register schema).2 = .error fault) :
    (∃ e ∈ schema.entries, ∃ holder, (registry.register schema).1.get? e.tag = some holder ∧
      holder.key ≠ e.key ∧ fault = .duplicateTag e.tag) ∧
    ∀ tag entry, (registry.register schema).1.get? tag = some entry → entry.key ≠ schema.key := by
  obtain ⟨hfounded, -⟩ := h.register hlawful hmem
  obtain ⟨e, he, holder, hget, hkey, hfault⟩ := exists_of_addAll_error herror
  constructor
  · obtain ⟨other, -, rfl, htag, -⟩ := hfounded _ _ hget
    exact ⟨e, he, other.entry, hget, hkey, hfault.trans (congrArg _ htag)⟩
  · intro tag entry hentry hsame
    -- with the schema its whole line would be there, the entry that was refused included
    obtain ⟨rfl, rfl⟩ := hfounded.eq_entry hlawful hmem hentry hsame
    have hheld := hfounded.holds_line hlawful hmem hentry e he
    rw [Registry.register, hget] at hheld
    exact hkey (congrArg SchemaEntry.key (Option.some.inj hheld))

end Founded

end Registry

/-! ## Runs -/

namespace Session

variable {known : Schema → Prop} {session next : Session}

/-- A step changes the registry only to register a schema that is known. -/
theorem Change.registry (h : session.Change known next) :
    next.registry = session.registry ∨
      ∃ schema, known schema ∧ next.registry = (session.registry.register schema).1 := by
  cases h with
  | registered isKnown => exact .inr ⟨_, isKnown, rfl⟩
  | parsed | newStore | copied | merged | added | written | removed | issued => exact .inl rfl

theorem Leads.within (h : session.Leads known next) : session.registry.Within next.registry := by
  induction h with
  | refl => exact .refl _
  | tail _ hchange ih =>
    rcases hchange.registry with hsame | ⟨schema, -, hregister⟩
    · rw [hsame]
      exact ih
    · rw [hregister]
      exact ih.trans (Registry.within_addAll _ _)

theorem Leads.founded {catalogue : Catalogue} (hlawful : catalogue.Lawful)
    (h : session.Leads (· ∈ catalogue) next) (hstart : session.registry.Founded catalogue) :
    next.registry.Founded catalogue := by
  induction h with
  | refl => exact hstart
  | tail _ hchange ih =>
    rcases hchange.registry with hsame | ⟨schema, hmem, hregister⟩
    · rw [hsame]
      exact ih
    · rw [hregister]
      exact (ih.register hlawful hmem).1

/-- **Tags stay with their schemas, whatever is done in whatever order.** Let a run begin with no schema
    registered, and let it be about schemas of the catalogue, whose tags may clash. What is registered stays.
    Every entry that names the tag of a parent has the entry of its own parent under that tag. And at any time a
    schema can be registered exactly if the tags of its line differ and each is free or held by that very
    schema; otherwise one of these tags is reported as taken, and afterwards there is no entry of the schema. -/
theorem registry_is_founded {catalogue : Catalogue} (hlawful : catalogue.Lawful) {start : Session}
    (hempty : start.registry = SortedMap.empty) {done more : List Operation}
    (h : ∀ operation ∈ done ++ more, ∀ schema ∈ operation.schema?, schema ∈ catalogue) :
    (start.run catalogue done).registry.Within (start.run catalogue (done ++ more)).registry ∧
    (start.run catalogue done).registry.Founded catalogue ∧
    ∀ schema ∈ catalogue, ∀ result after,
      (Action.register schema).outcome (start.run catalogue done) = (result, after) →
      (result = .ok () ↔ (start.run catalogue done).registry.Admissible schema.entries) ∧
      ∀ fault, result = .error fault →
        (∃ e ∈ schema.entries, fault = .duplicateTag e.tag) ∧
        ∀ tag entry, after.registry.get? tag = some entry → entry.key ≠ schema.key := by
  obtain ⟨hdone, hmore⟩ := List.forall_mem_append.1 h
  have hall : ∀ schema ∈ catalogue, schema ∈ catalogue := fun _ hmem => hmem
  have hfounded : (start.run catalogue done).registry.Founded catalogue := by
    refine (leads_run hall start hdone).founded hlawful ?_
    rw [hempty]
    exact .empty catalogue
  refine ⟨?_, hfounded, ?_⟩
  · rw [run_append]
    exact (leads_run hall (start.run catalogue done) hmore).within
  · intro schema hmem result after houtcome
    rw [Action.outcome_register] at houtcome
    cases houtcome
    refine ⟨hfounded.register_ok_iff hlawful hmem, fun fault herror => ?_⟩
    obtain ⟨⟨e, he, -, -, -, hfault⟩, hgone⟩ := hfounded.register_error hlawful hmem herror
    exact ⟨⟨e, he, hfault⟩, hgone⟩

end Session

/-- Two schemas with the same tag, and one that extends the first of them. -/
def clashFirst : Schema := .declare "ClashA" "clash" []

def clashSecond : Schema := .declare "ClashB" "clash" []

def clashChild : Schema := clashFirst.extend "ClashChild" "clash_child" []

def clashSchemas : Catalogue := [clashFirst, clashSecond, clashChild]

/-- An object of the second schema is made, and then looked at as one that extends the first. -/
def clashRun : List Operation :=
  [.newStore, .createIn clashSecond 0 (some "object"), .accept clashChild ⟨0, "object"⟩]

theorem lawful_clashSchemas : clashSchemas.Lawful :=
  ((Catalogue.Lawful.nil.concat (.declare _ _ _) (by decide) (by decide)).concat
    (.declare _ _ _) (by decide) (by decide)).concat
    (.extend (.declare _ _ _) _ _ _) (by decide) (by decide)

/-- The tag is taken by the second schema, and so the one that extends the first is refused. -/
theorem registry_is_founded_clash :
    clashSchemas.Lawful ∧
    (∀ operation ∈ clashRun ++ [.register clashFirst], ∀ schema ∈ operation.schema?,
      schema ∈ clashSchemas) ∧
    (Session.fresh.run clashSchemas clashRun).registry.Founded clashSchemas ∧
    ((Action.register clashChild).outcome (Session.fresh.run clashSchemas clashRun)).1 ≠ .ok () := by
  have hschemas : ∀ operation ∈ clashRun ++ [.register clashFirst], ∀ schema ∈ operation.schema?,
      schema ∈ clashSchemas := by
    decide
  have hempty : Session.fresh.registry = SortedMap.empty := rfl
  obtain ⟨-, hfounded, hregister⟩ := Session.registry_is_founded lawful_clashSchemas hempty hschemas
  refine ⟨lawful_clashSchemas, hschemas, hfounded, ?_⟩
  intro hok
  have hadmissible := (hregister clashChild (by decide) _ _ rfl).1.1 hok
  revert hadmissible
  decide +kernel

end GraphWire
