import GraphWire.Proofs.Arrival
import GraphWire.Proofs.Relocation

/-!
# `Proofs.Setup` — a configuration that the check accepts can be set up

A configuration that is complete and accepted has settings, and the command that is made of them is complete
too. Its text arrives as a command that says what the configuration says. What the check does not see are
the names of the objects and the texts in them: when two names are the same, the command is not made, and when
a text has an empty line, the command is not encoded.

## Contents
- **Settings.** `exists_backed`, what a configuration that the check accepts says.
- **Validity.** `Part`, the objects with their schemas, and **`Assembled.deeplyValid`**.
- **The whole.** **`dust_of_checked`**.
- **Accepted configurations.** `Accepted` can be computed from the statements; one with a trigger that is set
  up, and **`checked_not_set_up`**, two that are not.
-/

namespace GraphWire

namespace Fairy

/-! ## Settings -/

section

variable {session : Session} {config owner : Walker}

/-- A walker that was read is in its owner's store. -/
theorem relocate_eq_of_reads {field : FieldDecl} {x : field.kind.Carrier} (h : field.Reads session owner x) :
    field.kind.relocate owner.store x = x := by
  have hread := FieldDecl.reads_iff.1 h
  have hmoved := field.kind.read_relocate owner.store owner.store (session.contents owner) owner.name field.name
  rw [hread] at hmoved
  exact (Except.ok.inj hmoved).symm

theorem presents_of_fits {catalogue : Catalogue} {R : String → Schema → Prop} {walker : Walker}
    {schema : Schema} (hstore : walker.store = config.store)
    (h : Fits catalogue (session.contents config) session.registry config.store R walker.name schema) :
    Presents session walker schema := by
  have hcontents : session.contents walker = session.contents config := congrArg session.stores.get hstore
  constructor
  · rw [hcontents]
    exact h.tag
  · intro field hfield
    obtain ⟨x, hread, -⟩ := h.field field hfield
    refine ⟨x, FieldDecl.reads_iff.2 ?_⟩
    rw [hcontents, hstore]
    exact hread

/-- **A configuration that is deeply valid has settings.** -/
theorem exists_backed (hregistered : session.registry.Holds fairyEntries)
    (hstore : config.store < session.stores.configs.length) (hwritable : (session.contents config).Writable)
    (h : DeeplyValid fairySchemas session config FairyConfig.schema) :
    ∃ settings : Settings, settings.Backed session config := by
  obtain ⟨R, hroot, hfits⟩ := h
  have hfield : ∀ field ∈ FairyConfig.schema.fields, FieldFits fairySchemas (session.contents config)
      config.store R config.name field := (hfits _ _ hroot).field
  obtain ⟨feed, hfeed, hfeedR⟩ := hfield FairyConfig.feed (by decide)
  obtain ⟨datagram?, hdatagram, -⟩ := hfield FairyConfig.datagramAddress (by decide)
  obtain ⟨disposable?, hdisposable, -⟩ := hfield FairyConfig.disposablePayload (by decide)
  obtain ⟨trigger?, htrigger, htriggerR⟩ := hfield FairyConfig.trigger (by decide)
  have hreads : Settings.ReadFrom ⟨feed, datagram?, disposable?, trigger?⟩ session config :=
    ⟨FieldDecl.reads_iff.2 hfeed, FieldDecl.reads_iff.2 hdatagram, FieldDecl.reads_iff.2 hdisposable,
      FieldDecl.reads_iff.2 htrigger⟩
  have hfeedStore : feed.store = config.store :=
    (congrArg Walker.store (relocate_eq_of_reads hreads.feed)).symm
  have htriggerStore : ∀ trigger ∈ trigger?, trigger.store = config.store := by
    rintro trigger rfl
    have hrelocate := relocate_eq_of_reads hreads.trigger
    exact (congrArg Walker.store (Option.some.inj hrelocate)).symm
  -- what a reference reads as is in the relation again, so it fits its own schema
  refine ⟨⟨feed, datagram?, disposable?, trigger?⟩, hreads, hregistered, hstore, hwritable, hfeedStore, ?_,
    htriggerStore, ?_⟩
  · obtain ⟨schema, hfind, hR⟩ := hfeedR feed.name Feed.schema.ref List.mem_cons_self
    cases hfind
    exact presents_of_fits hfeedStore (hfits _ _ hR)
  · rintro trigger rfl
    obtain ⟨schema, hfind, hR⟩ := htriggerR trigger.name Trigger.schema.ref List.mem_cons_self
    cases hfind
    exact presents_of_fits (htriggerStore trigger rfl) (hfits _ _ hR)

end

/-! ## Validity -/

section

variable {settings : Settings} {session received : Session} {config dust owner : Walker} {fd : Ranged .i32}
  {book : InstrumentBook}

/-- The objects of a command with their schemas. -/
inductive Part (settings : Settings) (payload : String) : String → Schema → Prop where
  | dust : Part settings payload "config" Dust.schema
  | feed : Part settings payload settings.feed.name Feed.schema
  | send : Part settings payload "send" SendConfig.schema
  | subscription {trigger : Walker} (there : trigger ∈ settings.trigger?) :
      Part settings payload "subscription" Subscription.schema
  | trigger {trigger : Walker} (there : trigger ∈ settings.trigger?) :
      Part settings payload trigger.name Trigger.schema
  | payload {trigger : Walker} (there : trigger ∈ settings.trigger?) :
      Part settings payload payload Payload.schema

theorem fieldFits_of_ref {catalogue : Catalogue} {name target : String} {ref : SchemaRef} {schema : Schema}
    {R : String → Schema → Prop} {kind : FieldKind} {y : kind.Carrier}
    (h : FieldKind.Holds (.object ref) (owner.beside target) kind y)
    (hread : FieldDecl.Reads ⟨name, kind⟩ received owner y) (hfind : catalogue.find? ref.key = some schema)
    (hR : R target schema) :
    FieldFits catalogue (received.contents owner) owner.store R owner.name ⟨name, kind⟩ := by
  refine ⟨y, FieldDecl.reads_iff.1 hread, ?_⟩
  intro other ref' hmem
  cases h with
  | single | optional =>
    cases List.mem_singleton.1 hmem
    exact ⟨schema, hfind, hR⟩

theorem fieldFits_of_absent {catalogue : Catalogue} {name : String} {e : Element} {R : String → Schema → Prop}
    (hread : FieldDecl.Reads ⟨name, .optional e⟩ received owner none) :
    FieldFits catalogue (received.contents owner) owner.store R owner.name ⟨name, .optional e⟩ :=
  ⟨none, FieldDecl.reads_iff.1 hread, fun _ _ hmem => absurd hmem List.not_mem_nil⟩

theorem fieldFits_of_plain {catalogue : Catalogue} {field : FieldDecl} {x : field.kind.Carrier}
    {R : String → Schema → Prop} (hplain : field.kind.isPlain = true)
    (hread : field.Reads received owner x) :
    FieldFits catalogue (received.contents owner) owner.store R owner.name field :=
  FieldFits.of_plain hplain (FieldDecl.reads_iff.1 hread)

/-- An object that was made carries its tag. -/
theorem hasTag_of_get? {contents : Config} {registry : Registry} {name tag : String} {object : Object}
    (hget : contents.get? name = some object) (htag : object.typeTag? = some tag)
    (hthere : registry.contains tag = true) : HasTag contents registry name tag :=
  ⟨tag, Option.bind_eq_some_iff.2 ⟨object, hget, htag⟩, hthere, registry.isAssignable_self tag⟩

/-- An object that is the same has the same tag. -/
theorem hasTag_of_kept {contents : Config} {walker : Walker} {schema : Schema}
    (h : Presents session walker schema)
    (hget : contents.get? walker.name = (session.contents walker).get? walker.name) :
    HasTag contents session.registry walker.name schema.tag := by
  obtain ⟨tag, htag, hthere, hassignable⟩ := h.tag
  refine ⟨tag, ?_, hthere, hassignable⟩
  rw [Config.typeTag?, hget]
  exact htag

/-- An object whose fields are scalars fits its schema where all of them read. -/
theorem fits_of_plain {catalogue : Catalogue} {name : String} {schema : Schema} {R : String → Schema → Prop}
    (hplain : ∀ field ∈ schema.fields, field.kind.isPlain = true)
    (htag : HasTag (received.contents dust) received.registry name schema.tag)
    (hreads : ∀ field ∈ schema.fields, ∃ x, field.Reads received (dust.beside name) x) :
    Fits catalogue (received.contents dust) received.registry dust.store R name schema := by
  refine ⟨htag, ?_⟩
  intro field hfield
  obtain ⟨x, hread⟩ := hreads field hfield
  exact FieldFits.of_plain (hplain field hfield) (FieldDecl.reads_iff.1 hread)

/-- The command fits its schema where its fields read. -/
theorem Assembled.fits_command (h : Assembled settings session fd book (received.contents dust))
    (hcarried : settings.Carried session fd book received dust) (hname : dust.name = "config")
    (hthere : received.registry.contains Dust.schema.tag = true) {payload : String} :
    Fits fairySchemas (received.contents dust) received.registry dust.store (Part settings payload)
      "config" Dust.schema := by
  refine ⟨hasTag_of_get? h.command ?_ hthere, ?_⟩
  · rw [Object.typeTag?, settings.get?_command (by decide)]
    rfl
  have hsubscription : FieldFits fairySchemas (received.contents dust) dust.store
      (Part settings payload) dust.name Dust.subscription := by
    have hread := hcarried.subscription
    cases htrigger : settings.trigger? with
    | none =>
      rw [htrigger] at hread
      exact fieldFits_of_absent hread
    | some trigger =>
      rw [htrigger] at hread
      exact fieldFits_of_ref .optional hread rfl (.subscription htrigger)
  rw [← hname]
  exact List.forall_mem_cons.2 ⟨fieldFits_of_ref .single hcarried.feed rfl .feed, List.forall_mem_cons.2
    ⟨fieldFits_of_ref .single hcarried.send rfl .send, List.forall_mem_cons.2
      ⟨hsubscription, List.forall_mem_singleton.2 (fieldFits_of_plain rfl hcarried.commandOut)⟩⟩⟩

/-- **A command that is assembled is complete.** -/
theorem Assembled.deeplyValid (h : Assembled settings session fd book (received.contents dust))
    (hbacked : settings.Backed session config) (hname : dust.name = "config")
    (hregistry : received.registry = session.registry) :
    DeeplyValid fairySchemas received dust Dust.schema := by
  have hcarried := h.carried hbacked hname rfl
  have hthere : ∀ schema ∈ fairySchemas, received.registry.contains schema.tag = true := by
    intro schema hschema
    rw [hregistry]
    exact hbacked.registered.contains hschema
  -- each object of the command refers through its schema to others of them only
  refine ⟨Part settings (session.nextName "payload"), hname ▸ .dust, ?_⟩
  intro name schema hpart
  cases hpart with
  | dust => exact h.fits_command hcarried hname (hthere _ (by decide))
  | feed =>
    refine fits_of_plain (by decide) (hregistry ▸ hasTag_of_kept hbacked.feedPresents h.feed) ?_
    intro field hfield
    obtain ⟨x, -, hread⟩ := hcarried.feedFields field hfield
    exact ⟨x, hread⟩
  | send =>
    refine fits_of_plain (by decide) (hasTag_of_get? h.send ?_ (hthere _ (by decide))) ?_
    · cases settings.datagram? <;> rfl
    · exact List.forall_mem_cons.2 ⟨⟨_, hcarried.descriptor⟩, List.forall_mem_cons.2
        ⟨⟨_, hcarried.datagram⟩, List.forall_mem_singleton.2 ⟨_, hcarried.disposable⟩⟩⟩
  | subscription there =>
    obtain ⟨instrument, hinstrument, hsubscribed⟩ := hcarried.subscribed _ there
    have hsubscription := (h.subscription _ there instrument hinstrument).subscription
    refine ⟨hasTag_of_get? hsubscription rfl (hthere _ (by decide)), ?_⟩
    exact List.forall_mem_cons.2 ⟨fieldFits_of_ref .single hsubscribed.toTrigger rfl (.trigger there),
      List.forall_mem_singleton.2 (fieldFits_of_ref .single hsubscribed.toPayload rfl (.payload there))⟩
  | trigger there =>
    obtain ⟨instrument, hinstrument, hsubscribed⟩ := hcarried.subscribed _ there
    have hkept := (h.subscription _ there instrument hinstrument).kept
    refine fits_of_plain (by decide) (hregistry ▸ hasTag_of_kept (hbacked.triggerPresents _ there) hkept) ?_
    intro field hfield
    obtain ⟨x, -, hread⟩ := hsubscribed.fields field hfield
    exact ⟨x, hread⟩
  | payload there =>
    obtain ⟨instrument, hinstrument, hsubscribed⟩ := hcarried.subscribed _ there
    have hpayload := (h.subscription _ there instrument hinstrument).payload
    refine fits_of_plain (by decide) (hasTag_of_get? hpayload rfl (hthere _ (by decide))) ?_
    exact List.forall_mem_cons.2 ⟨⟨_, hsubscribed.message⟩,
      List.forall_mem_singleton.2 ⟨_, hsubscribed.datagram⟩⟩

end

/-! ## The whole -/

section

variable {session after : Session} {text root : String} {config : Walker}

/-- Whether the check accepts an object is whether it is deeply valid, once all schemas are registered. -/
theorem check_iff_of_holds {schema : Schema} {walker : Walker} (hmem : schema ∈ fairySchemas)
    (hfind : fairySchemas.find? schema.key = some schema) (hholds : session.registry.Holds fairyEntries) :
    ((schema.check fairySchemas walker).outcome session).1 = .ok true ↔
      DeeplyValid fairySchemas session walker schema :=
  outcome_check_iff hfind fun _ involved => hholds.registered (involved.mem hmem)

/-- A configuration that is read and accepted has settings. -/
theorem exists_backed_of_checked (hadmits : session.registry.Admits fairyEntries)
    (hparse : (FairyConfig.parse text root).outcome session = (.ok config, after))
    (hcheck : ((FairyConfig.schema.check fairySchemas config).outcome after).1 = .ok true) :
    ∃ settings : Settings, settings.Backed after config := by
  obtain ⟨contents, registry, hcontents, hholds, rfl, rfl⟩ := FairyConfig.parse_eq_ok hadmits hparse
  have hstored : (({ session with registry } : Session).extended [contents]).contents
      (session.newWalker 0 root) = contents :=
    Session.contents_extended_new rfl root
  refine exists_backed hholds ?_ ?_ ((check_iff_of_holds (by decide) rfl hholds).1 hcheck)
  · exact Nat.lt_of_lt_of_eq (Nat.lt_succ_self _) (session.length_extended [contents]).symm
  · rw [hstored]
    exact (Config.writable_of_parse hcontents).1

/-- **What the check accepts can be set up, unless a name is taken twice.** Let the parent's configuration be
    read and let the check accept it. If the names are free, the first command is made, the check accepts
    it, and it has a text. If there is an empty line in the text, it is not encoded; if not, and the text is
    within the limit, it is, and every receiver reads it as a `dust` that says what the configuration says.
    If a name is taken twice, the command is not made. -/
theorem dust_of_checked (hadmits : session.registry.Admits fairyEntries)
    (hparse : (FairyConfig.parse text root).outcome session = (.ok config, after))
    (hcheck : ((FairyConfig.schema.check fairySchemas config).outcome after).1 = .ok true)
    (fd : Ranged .i32) (book : InstrumentBook) (engine : Option Engine) :
    ∃ settings : Settings, settings.ReadFrom after config ∧
      (settings.NamesFree after →
        ∃ dust done text, Fairy.dust fd ⟨after, config, book, engine⟩ = .ok dust done ∧
          ((Dust.schema.check fairySchemas dust).outcome done.session).1 = .ok true ∧
          (done.session.contents dust).marshal dust.name = .ok text ∧
          (hasEmptyLine (trimEnd text.toList) = true → encodeFrame text = .error .emptyLine) ∧
          (hasEmptyLine (trimEnd text.toList) = false →
            (String.ofList (trimEnd text.toList)).toUTF8.size < maxFrameSize →
            ∃ bytes body, encodeFrame text = .ok bytes ∧ Delivers bytes body ∧
              ∀ receiver : Session, receiver.registry.Admits fairyEntries →
                ∃ arrived received read,
                  (Frame.walker body dust.name).outcome receiver = (.ok arrived, received) ∧
                  (CommandKind.ofWalker arrived).outcome received = (.ok .dust, read) ∧
                  settings.Carried after fd book read arrived)) ∧
      (¬ settings.NamesFree after → Collides (Fairy.dust fd ⟨after, config, book, engine⟩)) := by
  obtain ⟨settings, hbacked⟩ := exists_backed_of_checked hadmits hparse hcheck
  obtain ⟨hmade, hclash⟩ := dust_assembled hbacked fd book engine
  refine ⟨settings, hbacked.toReadFrom, ?_, hclash⟩
  intro hnames
  obtain ⟨dust, done, hdust, hname, hregistry, hassembled⟩ := hmade hnames
  have hholds : done.session.registry.Holds fairyEntries := hregistry.symm ▸ hbacked.registered
  have hvalid := hassembled.deeplyValid hbacked hname hregistry
  obtain ⟨text, hmarshal⟩ := hassembled.writable.exists_text dust.name
  have hthere : (done.session.contents dust).contains dust.name :=
    contains_of_get? (hname.symm ▸ hassembled.command)
  have hencode := hassembled.writable.encodeFrame_eq hthere hmarshal
  refine ⟨dust, done, text, hdust, (check_iff_of_holds (by decide) rfl hholds).2 hvalid, hmarshal, ?_, ?_⟩
  · intro hlines
    rw [hencode, hlines, if_pos rfl]
  · intro hlines hsize
    obtain ⟨bytes, body, hbytes, hdelivers, hbody⟩ :=
      hassembled.writable.exists_frame hthere hmarshal hlines hsize
    refine ⟨bytes, body, hbytes, hdelivers, ?_⟩
    intro receiver hreceiver
    rw [hname] at hbody ⊢
    exact hassembled.arrives hbacked hbody hreceiver

end

/-! ### Some configurations that are accepted -/

theorem admits_fresh : Session.fresh.registry.Admits fairyEntries := by
  intro e _ holder hget
  cases hget

/-- A session in which all schemas are registered and nothing else has happened. -/
def registeredSession : Session :=
  { Session.fresh with registry := ((registerAllSchemas : Action FairyError Unit).outcome .fresh).2.registry }

theorem registered_fresh :
    (registerAllSchemas : Action FairyError Unit) .fresh = .ok () registeredSession ∧
      registeredSession.registry.Holds fairyEntries := by
  obtain ⟨registry, hregister, hholds⟩ := registerAllSchemas_of_admits (ε := FairyError) admits_fresh
  have hsession : registeredSession = { Session.fresh with registry } := by
    rw [registeredSession, Action.outcome_eq_ok_iff.2 hregister]
  rw [hsession]
  exact ⟨hregister, hholds⟩

/-- The session in which the statements were read. -/
def readSession (stmts : List Statement) : Session := registeredSession.extended [.ofStatements stmts]

theorem contents_readSession (stmts : List Statement) (name : String) :
    (readSession stmts).contents ⟨0, name⟩ = .ofStatements stmts := rfl

/-- The statements can be written, the configuration object in them and all it leads to are listed with schemas
    that they fit, and it says these settings. -/
def Accepted (stmts : List Statement) (listed : List (String × Schema)) (settings : Settings) : Prop :=
  (stmts ≠ [] ∧ ∀ s ∈ stmts, isName s.object = true ∧ isName s.field = true ∧ s.value.Writable) ∧
  ((Config.ofStatements stmts).typeTag? "ppf" = some FairyConfig.schema.tag ∧
    ("ppf", FairyConfig.schema) ∈ listed ∧
    fitsWithin fairySchemas (.ofStatements stmts) registeredSession.registry 0 listed = true) ∧
  (FairyConfig.feed.kind.read 0 (.ofStatements stmts) "ppf" FairyConfig.feed.name).toOption
    = some settings.feed ∧
  (FairyConfig.datagramAddress.kind.read 0 (.ofStatements stmts) "ppf"
    FairyConfig.datagramAddress.name).toOption = some settings.datagram? ∧
  (FairyConfig.disposablePayload.kind.read 0 (.ofStatements stmts) "ppf"
    FairyConfig.disposablePayload.name).toOption = some settings.disposable? ∧
  (FairyConfig.trigger.kind.read 0 (.ofStatements stmts) "ppf" FairyConfig.trigger.name).toOption
    = some settings.trigger?

/-- What a configuration says is one thing. -/
theorem Settings.ReadFrom.unique {session : Session} {config : Walker} {settings other : Settings}
    (h : settings.ReadFrom session config) (h' : other.ReadFrom session config) : settings = other := by
  have heq {field : FieldDecl} {x y : field.kind.Carrier} (hx : field.Reads session config x)
      (hy : field.Reads session config y) : x = y :=
    Except.ok.inj ((FieldDecl.reads_iff.1 hx).symm.trans (FieldDecl.reads_iff.1 hy))
  obtain ⟨feed, datagram?, disposable?, trigger?⟩ := settings
  obtain ⟨feed', datagram?', disposable?', trigger?'⟩ := other
  cases heq h.feed h'.feed
  cases heq h.datagram h'.datagram
  cases heq h.disposable h'.disposable
  cases heq h.trigger h'.trigger
  rfl

namespace Accepted

variable {stmts : List Statement} {listed : List (String × Schema)} {settings : Settings}

instance : Decidable (Accepted stmts listed settings) := inferInstanceAs (Decidable (_ ∧ _))

/-- Such statements are read, and the check accepts them. -/
theorem checked (h : Accepted stmts listed settings) :
    (FairyConfig.parse (Statement.lines stmts) "ppf").outcome .fresh = (.ok ⟨0, "ppf"⟩, readSession stmts) ∧
      ((FairyConfig.schema.check fairySchemas ⟨0, "ppf"⟩).outcome (readSession stmts)).1 = .ok true := by
  obtain ⟨⟨hne, hwritable⟩, ⟨htag, hroot, hfits⟩, -⟩ := h
  obtain ⟨hregister, hholds⟩ := registered_fresh
  have hstatements : statements (Statement.lines stmts) = .ok stmts :=
    statements_lines hne fun s hs => ⟨(hwritable s hs).1, (hwritable s hs).2.1, (hwritable s hs).2.2⟩
  have hconfig : Config.parse (Statement.lines stmts) = .ok (.ofStatements stmts) := by
    rw [Config.parse, hstatements]
  have hread : (readSession stmts).registry.Holds fairyEntries := hholds
  have hvalid : DeeplyValid fairySchemas (readSession stmts) ⟨0, "ppf"⟩ FairyConfig.schema :=
    deeplyValid_of_fitsWithin hfits hroot
  exact ⟨FairyConfig.parse_of_tag hregister hholds hconfig htag,
    (check_iff_of_holds (by decide) rfl hread).2 hvalid⟩

theorem readFrom (h : Accepted stmts listed settings) :
    settings.ReadFrom (readSession stmts) ⟨0, "ppf"⟩ := by
  obtain ⟨-, -, hfeed, hdatagram, hdisposable, htrigger⟩ := h
  exact ⟨FieldDecl.reads_iff.2 (Config.eq_ok_of_toOption hfeed),
    FieldDecl.reads_iff.2 (Config.eq_ok_of_toOption hdatagram),
    FieldDecl.reads_iff.2 (Config.eq_ok_of_toOption hdisposable),
    FieldDecl.reads_iff.2 (Config.eq_ok_of_toOption htrigger)⟩

theorem backed (h : Accepted stmts listed settings) : settings.Backed (readSession stmts) ⟨0, "ppf"⟩ := by
  obtain ⟨other, hbacked⟩ := exists_backed_of_checked admits_fresh h.checked.1 h.checked.2
  cases h.readFrom.unique hbacked.toReadFrom
  exact hbacked

end Accepted

/-- A configuration object and its feed. -/
def feedStatements : List Statement :=
  [⟨"ppf", "type", .text "fairy"⟩, ⟨"ppf", "executable", .text "./engine"⟩, ⟨"ppf", "feed", .text "feed"⟩,
    ⟨"ppf", "down_address", .text "127.0.0.1:7000"⟩, ⟨"feed", "type", .text "feed"⟩,
    ⟨"feed", "snapshot", .text "233.54.12.111:26477"⟩, ⟨"feed", "update", .text "233.54.12.111:26478"⟩,
    ⟨"feed", "spin_duration", .number (.ofInt 10)⟩]

/-- The same with a trigger. -/
def triggerStatements : List Statement := feedStatements ++
  [⟨"ppf", "trigger", .text "trigger"⟩, ⟨"trigger", "type", .text "trigger"⟩,
    ⟨"trigger", "instrument", .number .one⟩, ⟨"trigger", "instant_threshold", .number .one⟩,
    ⟨"trigger", "cooldown", .number (.ofInt 500)⟩]

/-- Feed and trigger refer to the same object. -/
def sharingStatements : List Statement := triggerStatements ++
  [⟨"feed", "venue", .text "venue"⟩, ⟨"trigger", "venue", .text "venue"⟩, ⟨"venue", "city", .text "London"⟩]

/-- The feed has a field with an empty line in its text. -/
def remarkStatements : List Statement := feedStatements ++ [⟨"feed", "note", .text "a\n\nb"⟩]

def feedSettings : Settings := ⟨⟨0, "feed"⟩, none, none, none⟩

def triggerSettings : Settings := { feedSettings with trigger? := some ⟨0, "trigger"⟩ }

/-- A descriptor to write payloads to. -/
def descriptor : Ranged .i32 := ⟨7, by decide, by decide⟩

theorem computed_trigger :
    Accepted triggerStatements
      [("ppf", FairyConfig.schema), ("feed", Feed.schema), ("trigger", Trigger.schema)] triggerSettings ∧
    (Config.ofStatements triggerStatements).reachWithin 9 [] ["feed"] = some ["feed"] ∧
    (Config.ofStatements triggerStatements).reachWithin 9 [] ["trigger"] = some ["trigger"] ∧
    (readSession triggerStatements).nextName "payload" = "payload_01900000000000000000000000000000" ∧
    (Trigger.instrument.kind.read 0 (.ofStatements triggerStatements) "trigger"
      Trigger.instrument.name).toOption = some ⟨1, by decide, by decide⟩ := by decide +kernel

theorem namesFree_trigger : triggerSettings.NamesFree (readSession triggerStatements) := by
  obtain ⟨-, hfeed, htrigger, hname, -⟩ := computed_trigger
  have hown : triggerSettings.ownNames (readSession triggerStatements)
      = ["config", "send", "subscription", "payload_01900000000000000000000000000000"] :=
    congrArg (["config", "send", "subscription", ·]) hname
  have hsearches : ∀ trigger ∈ triggerSettings.trigger?,
      ((readSession triggerStatements).contents trigger).reachWithin 9 [] [trigger.name] = some ["trigger"] := by
    rintro trigger ⟨⟩
    exact htrigger
  refine (triggerSettings.namesFree_iff_of_reachWithin (readSession triggerStatements) hfeed hsearches).2 ?_
  rw [hown]
  refine ⟨by decide, ?_⟩
  rintro trigger ⟨⟩
  decide

/-- The command that is made of the configuration with a trigger. -/
def triggerDust : List Statement :=
  [⟨"config", "type", .text "dust"⟩, ⟨"config", "feed", .text "feed"⟩, ⟨"config", "send", .text "send"⟩,
    ⟨"config", "command_out_fd", .number .one⟩, ⟨"config", "subscription", .text "subscription"⟩,
    ⟨"feed", "type", .text "feed"⟩, ⟨"feed", "snapshot", .text "233.54.12.111:26477"⟩,
    ⟨"feed", "update", .text "233.54.12.111:26478"⟩, ⟨"feed", "spin_duration", .number (.ofInt 10)⟩,
    ⟨"send", "type", .text "send"⟩, ⟨"send", "fd", .number (.ofInt 7)⟩,
    ⟨"send", "disposable_payload", .number .zero⟩, ⟨"subscription", "type", .text "subscription"⟩,
    ⟨"subscription", "trigger", .text "trigger"⟩,
    ⟨"subscription", "payload", .text "payload_01900000000000000000000000000000"⟩,
    ⟨"trigger", "type", .text "trigger"⟩, ⟨"trigger", "instrument", .number .one⟩,
    ⟨"trigger", "instant_threshold", .number .one⟩, ⟨"trigger", "cooldown", .number (.ofInt 500)⟩,
    ⟨"payload_01900000000000000000000000000000", "type", .text "payload"⟩,
    ⟨"payload_01900000000000000000000000000000", "message",
      .text "eyJpbnN0cnVtZW50IjoxLCJjb250ZW50IjoiaGl0ICMwIn0="⟩,
    ⟨"payload_01900000000000000000000000000000", "datagram",
      .text "eyJpbnN0cnVtZW50IjoxLCJjb250ZW50IjoiZGF0YWdyYW0gaGl0ICMwIn0="⟩]

theorem described_trigger :
    ((Config.ofStatements triggerDust).keys = ["config", "feed",
        "payload_01900000000000000000000000000000", "send", "subscription", "trigger"] ∧
      (Config.ofStatements triggerDust).get? "config" = some triggerSettings.command ∧
      (Config.ofStatements triggerDust).get? "feed" = (Config.ofStatements triggerStatements).get? "feed" ∧
      (Config.ofStatements triggerDust).get? "payload_01900000000000000000000000000000"
        = some (payloadObject ⟨1, by decide, by decide⟩ 0) ∧
      (Config.ofStatements triggerDust).get? "send" = some (sendObject descriptor none false) ∧
      (Config.ofStatements triggerDust).get? "subscription"
        = some (subscriptionObject "trigger" "payload_01900000000000000000000000000000") ∧
      (Config.ofStatements triggerDust).get? "trigger"
        = (Config.ofStatements triggerStatements).get? "trigger") ∧
    (∀ name ∈ (Config.ofStatements triggerDust).keys,
      ∀ target ∈ ((Config.ofStatements triggerDust).get? name).elim [] Config.targets,
        target ∈ (Config.ofStatements triggerDust).keys ∨ isName target = false) ∧
    (Config.ofStatements triggerDust).walkWithin 29 "config" = some triggerDust ∧
    (∀ s ∈ triggerDust, lineFeed ∉ octets s.display.toUTF8) ∧
    (Statement.lines triggerDust).utf8ByteSize ≤ maxFrameSize := by decide +kernel

theorem marshal_triggerDust {contents : Config}
    (h : Assembled triggerSettings (readSession triggerStatements) descriptor .empty contents) :
    contents.marshal "config" = .ok (Statement.lines triggerDust) := by
  obtain ⟨-, -, -, hname, hinstrument⟩ := computed_trigger
  obtain ⟨⟨hkeys, hcommand, hfeed, hpayload, hsend, hsubscription, htrigger⟩, hclosed, hwalk, -⟩ :=
    described_trigger
  have hread : Trigger.instrument.Reads (readSession triggerStatements) ⟨0, "trigger"⟩
      ⟨1, by decide, by decide⟩ := by
    rw [FieldDecl.reads_iff, contents_readSession]
    exact Config.eq_ok_of_toOption hinstrument
  obtain ⟨hkept, hsubscribes, hpaid⟩ := h.subscription ⟨0, "trigger"⟩ rfl _ hread
  have hkeptFeed : contents.get? "feed" = ((readSession triggerStatements).contents ⟨0, "feed"⟩).get? "feed" :=
    h.feed
  rw [hname] at hsubscribes hpaid
  rw [contents_readSession] at hkept hkeptFeed
  refine h.rooted.marshal_eq h.writable ?_ (hkeys ▸ List.mem_cons_self) hclosed hwalk
  rw [hkeys]
  exact List.forall_mem_cons.2 ⟨h.command.trans hcommand.symm, List.forall_mem_cons.2
    ⟨hkeptFeed.trans hfeed.symm, List.forall_mem_cons.2 ⟨hpaid.trans hpayload.symm, List.forall_mem_cons.2
      ⟨h.send.trans hsend.symm, List.forall_mem_cons.2 ⟨hsubscribes.trans hsubscription.symm,
        List.forall_mem_singleton.2 (hkept.trans htrigger.symm)⟩⟩⟩⟩⟩

/-- A configuration with a trigger is set up: the command is complete, and it arrives. -/
theorem dust_of_checked_trigger :
    ∃ dust done bytes body,
      Fairy.dust descriptor ⟨readSession triggerStatements, ⟨0, "ppf"⟩, .empty, none⟩ = .ok dust done ∧
      ((Dust.schema.check fairySchemas dust).outcome done.session).1 = .ok true ∧
      (done.session.contents dust).marshal dust.name = .ok (Statement.lines triggerDust) ∧
      encodeFrame (Statement.lines triggerDust) = .ok bytes ∧ Delivers bytes body ∧
      ∃ arrived received read,
        (Frame.walker body dust.name).outcome .fresh = (.ok arrived, received) ∧
        (CommandKind.ofWalker arrived).outcome received = (.ok .dust, read) ∧
        triggerSettings.Carried (readSession triggerStatements) descriptor .empty read arrived := by
  obtain ⟨haccepted, -⟩ := computed_trigger
  obtain ⟨-, -, -, hfeeds, hbound⟩ := described_trigger
  have hbacked := haccepted.backed
  obtain ⟨hparse, hcheck⟩ := haccepted.checked
  obtain ⟨settings, hreads, hmade, -⟩ := dust_of_checked admits_fresh hparse hcheck descriptor .empty none
  cases hreads.unique hbacked.toReadFrom
  obtain ⟨dust, done, text, hdust, hvalid, hmarshal, -, hframe⟩ := hmade namesFree_trigger
  have htext : text = Statement.lines triggerDust := by
    obtain ⟨dust', done', hdust', hname, -, hassembled⟩ :=
      (dust_assembled hbacked descriptor .empty none).1 namesFree_trigger
    cases hdust.symm.trans hdust'
    rw [hname, marshal_triggerDust hassembled] at hmarshal
    exact (Except.ok.inj hmarshal).symm
  subst htext
  have hlines : hasEmptyLine (trimEnd (Statement.lines triggerDust).toList) = false := by
    rw [hasEmptyLine_trimEnd_lines (by decide), List.any_eq_false]
    intro s hs
    have hfeed := hfeeds s hs
    rw [octets_toUTF8, lineFeed_mem_bytesOf_iff] at hfeed
    rw [hasEmptyLine_of_not_mem hfeed]
    exact Bool.false_ne_true
  obtain ⟨bytes, body, hencode, hdelivers, hreceived⟩ :=
    hframe hlines (Nat.lt_of_lt_of_le (size_trimEnd_lines_lt (by decide)) hbound)
  exact ⟨dust, done, bytes, body, hdust, hvalid, hmarshal, hencode, hdelivers, hreceived .fresh admits_fresh⟩

theorem computed_sharing :
    Accepted sharingStatements
      [("ppf", FairyConfig.schema), ("feed", Feed.schema), ("trigger", Trigger.schema)] triggerSettings ∧
    (Config.ofStatements sharingStatements).reachWithin 9 [] ["feed"] = some ["feed", "venue"] ∧
    (Config.ofStatements sharingStatements).reachWithin 9 [] ["trigger"] = some ["trigger", "venue"] := by
  decide +kernel

/-- Feed and trigger lead to the same object, so that its name is taken twice. -/
theorem not_namesFree_sharing : ¬ triggerSettings.NamesFree (readSession sharingStatements) := by
  obtain ⟨-, hfeed, htrigger⟩ := computed_sharing
  have hsearches : ∀ trigger ∈ triggerSettings.trigger?,
      ((readSession sharingStatements).contents trigger).reachWithin 9 [] [trigger.name] = some ["trigger", "venue"] := by
    rintro trigger ⟨⟩
    exact htrigger
  intro h
  obtain ⟨-, hboth⟩ :=
    (triggerSettings.namesFree_iff_of_reachWithin (readSession sharingStatements) hfeed hsearches).1 h
  exact (hboth ⟨0, "trigger"⟩ rfl).2 "venue" (by decide) (by decide)

/-- The command that is made of the configuration with an empty line in a text. -/
def remarkDust : List Statement :=
  [⟨"config", "type", .text "dust"⟩, ⟨"config", "feed", .text "feed"⟩, ⟨"config", "send", .text "send"⟩,
    ⟨"config", "command_out_fd", .number .one⟩, ⟨"feed", "type", .text "feed"⟩,
    ⟨"feed", "snapshot", .text "233.54.12.111:26477"⟩, ⟨"feed", "update", .text "233.54.12.111:26478"⟩,
    ⟨"feed", "spin_duration", .number (.ofInt 10)⟩, ⟨"feed", "note", .text "a\n\nb"⟩,
    ⟨"send", "type", .text "send"⟩, ⟨"send", "fd", .number (.ofInt 7)⟩,
    ⟨"send", "disposable_payload", .number .zero⟩]

theorem computed_remark :
    Accepted remarkStatements [("ppf", FairyConfig.schema), ("feed", Feed.schema)] feedSettings ∧
    (Config.ofStatements remarkStatements).reachWithin 9 [] ["feed"] = some ["feed"] ∧
    ((Config.ofStatements remarkDust).keys = ["config", "feed", "send"] ∧
      (Config.ofStatements remarkDust).get? "config" = some feedSettings.command ∧
      (Config.ofStatements remarkDust).get? "feed" = (Config.ofStatements remarkStatements).get? "feed" ∧
      (Config.ofStatements remarkDust).get? "send" = some (sendObject descriptor none false)) ∧
    (∀ name ∈ (Config.ofStatements remarkDust).keys,
      ∀ target ∈ ((Config.ofStatements remarkDust).get? name).elim [] Config.targets,
        target ∈ (Config.ofStatements remarkDust).keys ∨ isName target = false) ∧
    (Config.ofStatements remarkDust).walkWithin 9 "config" = some remarkDust ∧
    hasEmptyLine (Statement.mk "feed" "note" (.text "a\n\nb")).display.toList = true ∧
    (Statement.lines remarkDust).utf8ByteSize ≤ maxFrameSize := by decide +kernel

theorem namesFree_remark : feedSettings.NamesFree (readSession remarkStatements) := by
  obtain ⟨-, hfeed, -⟩ := computed_remark
  have hsearches : ∀ trigger ∈ feedSettings.trigger?,
      ((readSession remarkStatements).contents trigger).reachWithin 9 [] [trigger.name] = some [] := by
    rintro trigger ⟨⟩
  refine (feedSettings.namesFree_iff_of_reachWithin (readSession remarkStatements) hfeed hsearches).2
    ⟨by decide, ?_⟩
  rintro trigger ⟨⟩

theorem marshal_remarkDust {contents : Config}
    (h : Assembled feedSettings (readSession remarkStatements) descriptor .empty contents) :
    contents.marshal "config" = .ok (Statement.lines remarkDust) := by
  obtain ⟨-, -, ⟨hkeys, hcommand, hfeed, hsend⟩, hclosed, hwalk, -⟩ := computed_remark
  have hkept : contents.get? "feed" = ((readSession remarkStatements).contents ⟨0, "feed"⟩).get? "feed" := h.feed
  rw [contents_readSession] at hkept
  refine h.rooted.marshal_eq h.writable ?_ (hkeys ▸ List.mem_cons_self) hclosed hwalk
  rw [hkeys]
  exact List.forall_mem_cons.2 ⟨h.command.trans hcommand.symm, List.forall_mem_cons.2
    ⟨hkept.trans hfeed.symm, List.forall_mem_singleton.2 (h.send.trans hsend.symm)⟩⟩

/-- **What the check accepts cannot always be set up.** Feed and trigger may lead to the same object; then the
    command is not made. A text may have an empty line; then the command is made, and its text is within
    the limit, but it is not encoded. -/
theorem checked_not_set_up :
    ((FairyConfig.parse (Statement.lines sharingStatements) "ppf").outcome .fresh
        = (.ok ⟨0, "ppf"⟩, readSession sharingStatements) ∧
      ((FairyConfig.schema.check fairySchemas ⟨0, "ppf"⟩).outcome (readSession sharingStatements)).1
        = .ok true ∧
      Collides (Fairy.dust descriptor ⟨readSession sharingStatements, ⟨0, "ppf"⟩, .empty, none⟩)) ∧
    ((FairyConfig.parse (Statement.lines remarkStatements) "ppf").outcome .fresh
        = (.ok ⟨0, "ppf"⟩, readSession remarkStatements) ∧
      ((FairyConfig.schema.check fairySchemas ⟨0, "ppf"⟩).outcome (readSession remarkStatements)).1
        = .ok true ∧
      ∃ dust done,
        Fairy.dust descriptor ⟨readSession remarkStatements, ⟨0, "ppf"⟩, .empty, none⟩ = .ok dust done ∧
        (done.session.contents dust).marshal dust.name = .ok (Statement.lines remarkDust) ∧
        (String.ofList (trimEnd (Statement.lines remarkDust).toList)).toUTF8.size < maxFrameSize ∧
        encodeFrame (Statement.lines remarkDust) = .error .emptyLine) := by
  constructor
  · obtain ⟨haccepted, -⟩ := computed_sharing
    obtain ⟨hparse, hcheck⟩ := haccepted.checked
    exact ⟨hparse, hcheck, (dust_assembled haccepted.backed _ _ _).2 not_namesFree_sharing⟩
  · obtain ⟨haccepted, -, -, -, -, hempty, hbound⟩ := computed_remark
    obtain ⟨hparse, hcheck⟩ := haccepted.checked
    obtain ⟨dust, done, hdust, hname, -, hassembled⟩ :=
      (dust_assembled haccepted.backed descriptor .empty none).1 namesFree_remark
    have hmarshal : (done.session.contents dust).marshal dust.name = .ok (Statement.lines remarkDust) := by
      rw [hname]
      exact marshal_remarkDust hassembled
    have hlines : hasEmptyLine (trimEnd (Statement.lines remarkDust).toList) = true := by
      rw [hasEmptyLine_trimEnd_lines (by decide), List.any_eq_true]
      exact ⟨_, by simp [remarkDust], hempty⟩
    have hsize := Nat.lt_of_lt_of_le (size_trimEnd_lines_lt (List.cons_ne_nil _ _)) hbound
    have hencode :=
      hassembled.writable.encodeFrame_eq (contains_of_get? (hname.symm ▸ hassembled.command)) hmarshal
    rw [hlines, if_pos rfl] at hencode
    exact ⟨hparse, hcheck, dust, done, hdust, hmarshal, hsize, hencode⟩

end Fairy

end GraphWire
