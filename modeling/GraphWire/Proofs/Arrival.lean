import GraphWire.Proofs.Dust

/-!
# `Proofs.Arrival` — where the objects of a command are, it says what the configuration says

The objects of a command determine what its fields read as, in whatever session they stand. So a receiver
reads from them what the configuration says.

## Contents
- **Fields.** `reads_ref`, `reads_scalar` and `reads_optional_absent`, a field that is known to be stored reads so.
- **`Settings.Carried`**, a command says what the configuration says, and **`Assembled.carried`**.
- **Receivers.** **`Assembled.arrives`**.
-/

namespace GraphWire

/-- A name in the store of the walker. -/
def Walker.beside (walker : Walker) (name : String) : Walker := ⟨walker.store, name⟩

namespace Fairy

/-! ## What arrives -/

/-- Each field of the schema reads the same from both walkers. -/
def SameFields (schema : Schema) (session : Session) (walker : Walker) (received : Session) (copy : Walker) :
    Prop :=
  ∀ field ∈ schema.fields, ∃ x, field.Reads session walker x ∧ field.Reads received copy x

/-- The subscription of a command that arrived is one to the trigger, with the numbered payload for its
    instrument. -/
structure CarriedSubscription (session : Session) (trigger : Walker) (instrument : Instrument)
    (serial : Nat) (received : Session) (dust : Walker) : Prop where
  toTrigger : Subscription.trigger.Reads received (dust.beside "subscription") (dust.beside trigger.name)
  fields : SameFields Trigger.schema session trigger received (dust.beside trigger.name)
  toPayload : Subscription.payload.Reads received (dust.beside "subscription")
    (dust.beside (session.nextName "payload"))
  message : Payload.message.Reads received (dust.beside (session.nextName "payload"))
    (payloadBytes instrument ("hit #" ++ toString serial))
  datagram : Payload.datagram.Reads received (dust.beside (session.nextName "payload"))
    (some (payloadBytes instrument ("datagram hit #" ++ toString serial)))

/-- **A command that arrived says what the configuration says**: its feed has the same fields, payloads go
    where they should, and there is a subscription exactly if there is a trigger. -/
structure Settings.Carried (settings : Settings) (session : Session) (fd : Ranged .i32)
    (book : InstrumentBook) (received : Session) (dust : Walker) : Prop where
  feed : Dust.feed.Reads received dust (dust.beside settings.feed.name)
  feedFields : SameFields Feed.schema session settings.feed received (dust.beside settings.feed.name)
  send : Dust.send.Reads received dust (dust.beside "send")
  descriptor : SendConfig.fd.Reads received (dust.beside "send") fd
  datagram : SendConfig.datagram.Reads received (dust.beside "send") settings.datagram?
  disposable : SendConfig.disposablePayload.Reads received (dust.beside "send")
    (settings.disposable?.getD false)
  commandOut : Dust.commandOutFd.Reads received dust commandOut
  subscription : Dust.subscription.Reads received dust
    (settings.trigger?.map fun _ => dust.beside "subscription")
  subscribed : ∀ trigger ∈ settings.trigger?, ∃ instrument,
    Trigger.instrument.Reads session trigger instrument ∧
      CarriedSubscription session trigger instrument (book.history.count instrument) received dust

section

variable {session received : Session} {owner copy walker : Walker} {object : Object} {name target : String}

theorem sameFields_of_get? {schema : Schema} (hplain : ∀ field ∈ schema.fields, field.kind.isPlain = true)
    (hpresents : Presents session walker schema) (hname : copy.name = walker.name)
    (hget : (received.contents copy).get? walker.name = (session.contents walker).get? walker.name) :
    SameFields schema session walker received copy := by
  intro field hfield
  obtain ⟨x, hread⟩ := hpresents.field field hfield
  refine ⟨x, hread, FieldDecl.reads_iff.2 ?_⟩
  rw [hname, FieldKind.read_eq_of_plain (hplain field hfield) hget copy.store walker.store]
  exact FieldDecl.reads_iff.1 hread

theorem reads_ref {ref : SchemaRef} {kind : FieldKind} {y : kind.Carrier}
    (h : FieldKind.Holds (.object ref) (owner.beside target) kind y) (hfield : name ≠ typeField)
    (hobject : (session.contents owner).get? owner.name = some object)
    (hvalue : object.get? name = some (.text target)) (hthere : (session.contents owner).contains target) :
    FieldDecl.Reads ⟨name, kind⟩ session owner y := by
  have hraw : (session.contents owner).raw? owner.name name = some (.text target) :=
    Option.bind_eq_some_iff.2 ⟨object, hobject, hvalue⟩
  exact FieldDecl.reads_iff.2 (FieldKind.read_ref h hfield hraw hthere)

theorem reads_scalar {t : ScalarType} {x : t.Carrier} {kind : FieldKind} {y : kind.Carrier}
    (h : FieldKind.Holds (.scalar t) x kind y) (hx : t.Storable x)
    (hobject : (session.contents owner).get? owner.name = some object)
    (hvalue : object.get? name = some (t.store x)) : FieldDecl.Reads ⟨name, kind⟩ session owner y := by
  have hraw : (session.contents owner).raw? owner.name name = some (t.store x) :=
    Option.bind_eq_some_iff.2 ⟨object, hobject, hvalue⟩
  exact FieldDecl.reads_iff.2 (FieldKind.read_scalar h hx hraw)

theorem reads_optional_absent {e : Element}
    (hobject : (session.contents owner).get? owner.name = some object) (hvalue : object.get? name = none) :
    FieldDecl.Reads ⟨name, .optional e⟩ session owner none :=
  FieldDecl.reads_iff.2 (FieldKind.read_optional_absent hobject hvalue)

end

section

variable {settings : Settings} {session received : Session} {config dust : Walker} {fd : Ranged .i32}
  {book : InstrumentBook} {contents : Config}

theorem Settings.get?_command (settings : Settings) {field : String} (h : field ≠ "subscription") :
    settings.command.get? field = (commandObject settings.feed.name "send").get? field := by
  rw [Settings.command]
  split
  · rfl
  · rw [OrderedMap.get?_insert, if_neg h]

theorem contains_of_get? {name : String} {object : Object} (h : contents.get? name = some object) :
    contents.contains name := SortedMap.contains_iff.2 ⟨object, h⟩

theorem contains_of_kept {walker : Walker} {schema : Schema} (h : Presents session walker schema)
    (hget : contents.get? walker.name = (session.contents walker).get? walker.name) :
    contents.contains walker.name := by
  obtain ⟨object, hobject⟩ := SortedMap.contains_iff.1 h.contains
  exact contains_of_get? (hget.trans hobject)

theorem get?_sendObject (fd : Ranged .i32) (datagram? : Option Address) (disposable : Bool) :
    (sendObject fd datagram? disposable).get? "fd" = some (ScalarType.store (.integer .i32) fd) ∧
    (sendObject fd datagram? disposable).get? "datagram" = datagram?.map (ScalarType.store .address) ∧
    (sendObject fd datagram? disposable).get? "disposable_payload"
      = some (ScalarType.store .boolean disposable) := by
  cases datagram? with
  | none => exact ⟨rfl, rfl, rfl⟩
  | some address => exact ⟨rfl, rfl, rfl⟩

/-- What a subscription says where its objects are. -/
theorem Subscribed.carried {trigger : Walker} {instrument : Instrument} {serial : Nat}
    (h : Subscribed session trigger instrument serial contents)
    (hpresents : Presents session trigger Trigger.schema) (hcontents : received.contents dust = contents) :
    CarriedSubscription session trigger instrument serial received dust := by
  subst hcontents
  have hpayload : (received.contents (dust.beside (session.nextName "payload"))).get?
      (session.nextName "payload") = some (payloadObject instrument serial) := h.payload
  constructor
  case toTrigger =>
    exact reads_ref .single (by decide) h.subscription rfl (contains_of_kept hpresents h.kept)
  case fields => exact sameFields_of_get? (by decide) hpresents rfl h.kept
  case toPayload => exact reads_ref .single (by decide) h.subscription rfl (contains_of_get? h.payload)
  case message => exact reads_scalar .single trivial hpayload rfl
  case datagram => exact reads_scalar .optional trivial hpayload rfl

/-- **Where the objects of a command are, it says what the configuration says.** -/
theorem Assembled.carried (h : Assembled settings session fd book contents)
    (hbacked : settings.Backed session config) (hname : dust.name = "config")
    (hcontents : received.contents dust = contents) :
    settings.Carried session fd book received dust := by
  subst hcontents
  have hcommand : (received.contents dust).get? dust.name = some settings.command := hname ▸ h.command
  have hsend : (received.contents (dust.beside "send")).get? "send"
      = some (sendObject fd settings.datagram? (settings.disposable?.getD false)) := h.send
  obtain ⟨hdescriptor, hdatagram, hdisposable⟩ :=
    get?_sendObject fd settings.datagram? (settings.disposable?.getD false)
  constructor
  case feed =>
    exact reads_ref .single (by decide) hcommand (settings.get?_command (by decide))
      (contains_of_kept hbacked.feedPresents h.feed)
  case feedFields => exact sameFields_of_get? (by decide) hbacked.feedPresents rfl h.feed
  case send =>
    exact reads_ref .single (by decide) hcommand (settings.get?_command (by decide)) (contains_of_get? h.send)
  case descriptor => exact reads_scalar .single fd.exact_i32 hsend hdescriptor
  case datagram =>
    have hstorable := hbacked.storable_datagram
    cases haddress : settings.datagram? with
    | none =>
      -- without an address no such field is written
      rw [haddress] at hdatagram hsend
      exact reads_optional_absent hsend hdatagram
    | some address =>
      rw [haddress] at hdatagram hsend
      exact reads_scalar .optional (hstorable address haddress) hsend hdatagram
  case disposable => exact reads_scalar .single trivial hsend hdisposable
  case commandOut => exact reads_scalar .single exact_commandOut hcommand (settings.get?_command (by decide))
  case subscription =>
    cases htrigger : settings.trigger? with
    | none =>
      rw [Settings.command, htrigger] at hcommand
      exact reads_optional_absent hcommand rfl
    | some trigger =>
      obtain ⟨instrument, hinstrument⟩ :=
        (hbacked.triggerPresents trigger htrigger).field Trigger.instrument (by decide)
      rw [Settings.command, htrigger] at hcommand
      exact reads_ref .optional (by decide) hcommand rfl
        (contains_of_get? (h.subscription trigger htrigger instrument hinstrument).subscription)
  case subscribed =>
    intro trigger htrigger
    obtain ⟨instrument, hinstrument⟩ :=
      (hbacked.triggerPresents trigger htrigger).field Trigger.instrument (by decide)
    exact ⟨instrument, hinstrument, (h.subscription trigger htrigger instrument hinstrument).carried
      (hbacked.triggerPresents trigger htrigger) rfl⟩

end

/-! ## Receivers -/

/-- A command that is assembled arrives in every session that admits the schemas. -/
theorem Assembled.arrives {settings : Settings} {session receiver : Session} {config : Walker}
    {fd : Ranged .i32} {book : InstrumentBook} {contents : Config} {body : ByteArray}
    (h : Assembled settings session fd book contents) (hbacked : settings.Backed session config)
    (hbody : Frame.config body = .ok (contents.extract ["config"]))
    (hadmits : receiver.registry.Admits fairyEntries) :
    ∃ arrived received read, (Frame.walker body "config").outcome receiver = (.ok arrived, received) ∧
      (CommandKind.ofWalker arrived).outcome received = (.ok .dust, read) ∧
      settings.Carried session fd book read arrived := by
  obtain ⟨arrived, received, hwalker, hname, hcontents, hregistry⟩ :=
    Frame.outcome_walker hbody "config" receiver
  -- all objects are under the command, so the copy has all of them
  rw [h.rooted.extract_eq] at hcontents
  have htag : (received.contents arrived).typeTag? arrived.name = some CommandKind.dust.schema.tag := by
    rw [hcontents, hname, Config.typeTag?, h.command]
    show settings.command.typeTag? = some "dust"
    rw [Object.typeTag?, settings.get?_command (by decide)]
    rfl
  obtain ⟨registry, hkind, -⟩ := CommandKind.dust.ofWalker_eq (hregistry.symm ▸ hadmits.messages) htag
  exact ⟨arrived, received, { received with registry }, hwalker, hkind, h.carried hbacked hname hcontents⟩

end Fairy

end GraphWire
