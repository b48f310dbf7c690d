import GraphWire.Proofs.Commands

/-!
# `Proofs.Dust` — the first command, put together

The first command gathers the feed, the place for payloads and perhaps a subscription in one store, under
names of its own. It is made exactly if no name is taken twice. Then the store holds these objects as they
were made, or as they stand in the configuration, and all of it under the command.

## Contents
- **Issued names.** `Session.isName_nextName` and `Session.nextName_ne`.
- **Settings.** What the configuration says about the command, and `Settings.NamesFree`.
- **`Assembled`**, what is known of the command's store.
- **`Settings.Backed`**, what the work relies on, and **`dust_assembled`**, the command is made exactly if
  the names are free.
-/

namespace GraphWire

/-! ## Issued names -/

theorem isNameChar_of_mem_toDigits {n : Nat} {c : Char} (h : c ∈ Nat.toDigits 16 n) :
    isNameChar c = true := by
  have hdigit : ∀ d < 16, isNameChar (Nat.digitChar d) = true := by decide
  -- the last digit is below sixteen, and those before it are the digits of the quotient
  induction n using Nat.strongRecOn with
  | ind n ih =>
    rw [Nat.toDigits_eq_if (by decide)] at h
    split at h
    · next hlt =>
      rw [List.mem_singleton.1 h]
      exact hdigit n hlt
    · next hle =>
      rcases List.mem_append.1 h with h | h
      · exact ih (n / 16) (Nat.div_lt_self (by omega) (by decide)) h
      · rw [List.mem_singleton.1 h]
        exact hdigit _ (Nat.mod_lt n (by decide))

namespace Session

variable {session : Session} {tag name : String}

theorem toList_nextName (session : Session) (tag : String) :
    (session.nextName tag).toList = tag.toList ++ '_' :: (Action.issuedSuffix session.issued).toList := by
  simp [nextName]

/-- What is issued can stand in a text. -/
theorem isName_nextName (session : Session) (h : isName tag = true) :
    isName (session.nextName tag) = true := by
  have hsuffix : (Action.issuedSuffix session.issued).toList.all isNameChar = true := by
    rw [Action.issuedSuffix, String.toList_ofList, List.all_append, Bool.and_eq_true]
    constructor
    · rw [List.all_eq_true]
      intro c hc
      rw [List.eq_of_mem_replicate hc]
      decide
    · exact List.all_eq_true.2 fun c hc => isNameChar_of_mem_toDigits hc
  rw [isName] at h ⊢
  rw [session.toList_nextName tag]
  cases htag : tag.toList with
  | nil =>
    rw [htag] at h
    cases h
  | cons c cs =>
    rw [htag] at h
    obtain ⟨hc, hcs⟩ := Bool.and_eq_true_iff.1 h
    show (isNameStart c && (cs ++ '_' :: _).all isNameChar) = true
    rw [hc, List.all_append, hcs, List.all_cons, hsuffix]
    rfl

/-- What is issued is not a name of a single word. -/
theorem nextName_ne (session : Session) (h : '_' ∉ name.toList) : session.nextName tag ≠ name := by
  rintro rfl
  apply h
  rw [session.toList_nextName]
  exact List.mem_append_right _ List.mem_cons_self

/-- What the walker leads to, as it is brought along. -/
def brought (session : Session) (walker : Walker) : Config :=
  (session.contents walker).extract [walker.name]

theorem contains_brought {walker : Walker} :
    (session.brought walker).contains name ↔ (session.contents walker).Reaches walker.name name :=
  Config.contains_extract_singleton

theorem get?_brought_self {walker : Walker} (h : (session.contents walker).contains walker.name) :
    (session.brought walker).get? walker.name = (session.contents walker).get? walker.name := by
  rw [brought, Config.get?_extract, if_pos (Config.mem_reach_singleton_iff.2 (.here h))]

end Session

namespace Fairy

/-! ## Settings -/

/-- What a configuration says about the first command. -/
structure Settings where
  feed : Walker
  datagram? : Option Address
  disposable? : Option Bool
  trigger? : Option Walker

/-- The store of a subscription to the trigger, with the payload and with what the trigger leads to. -/
def subscriptionPart (session : Session) (trigger : Walker) (instrument : Instrument) (serial : Nat) : Config :=
  subscriptionStore session trigger.name (session.brought trigger) (payloadStore session instrument serial)

namespace Settings

variable {settings : Settings} {session : Session} {config : Walker}

/-- The fields of the configuration object. -/
structure ReadFrom (settings : Settings) (session : Session) (config : Walker) : Prop where
  feed : FairyConfig.feed.Reads session config settings.feed
  datagram : FairyConfig.datagramAddress.Reads session config settings.datagram?
  disposable : FairyConfig.disposablePayload.Reads session config settings.disposable?
  trigger : FairyConfig.trigger.Reads session config settings.trigger?

/-- The names of the objects that are made for the command. -/
def ownNames (settings : Settings) (session : Session) : List String :=
  match settings.trigger? with
  | none => ["config", "send"]
  | some _ => ["config", "send", "subscription", session.nextName "payload"]

/-- **No name is taken twice**: feed and trigger lead to none of the names that are made for the command, and
    to no name both of them. -/
structure NamesFree (settings : Settings) (session : Session) : Prop where
  feed : ∀ name ∈ settings.ownNames session,
    ¬ (session.contents settings.feed).Reaches settings.feed.name name
  trigger : ∀ trigger ∈ settings.trigger?, ∀ name ∈ settings.ownNames session,
    ¬ (session.contents trigger).Reaches trigger.name name
  apart : ∀ trigger ∈ settings.trigger?, ∀ name,
    (session.contents settings.feed).Reaches settings.feed.name name →
      ¬ (session.contents trigger).Reaches trigger.name name

/-- Whether the names are free can be seen from two searches. -/
theorem namesFree_iff_of_reachWithin (settings : Settings) (session : Session) {steps : Nat}
    {feedNames triggerNames : List String}
    (hfeed : (session.contents settings.feed).reachWithin steps [] [settings.feed.name] = some feedNames)
    (htrigger : ∀ trigger ∈ settings.trigger?,
      (session.contents trigger).reachWithin steps [] [trigger.name] = some triggerNames) :
    settings.NamesFree session ↔ (∀ name ∈ settings.ownNames session, name ∉ feedNames) ∧
      ∀ trigger ∈ settings.trigger?, (∀ name ∈ settings.ownNames session, name ∉ triggerNames) ∧
        ∀ name ∈ feedNames, name ∉ triggerNames := by
  have hfeedIff (name : String) : name ∈ feedNames ↔
      (session.contents settings.feed).Reaches settings.feed.name name := Config.mem_reachWithin_iff hfeed
  have htriggerIff (trigger : Walker) (h : trigger ∈ settings.trigger?) (name : String) :
      name ∈ triggerNames ↔ (session.contents trigger).Reaches trigger.name name :=
    Config.mem_reachWithin_iff (htrigger trigger h)
  constructor
  · rintro ⟨hown, hownTrigger, hapart⟩
    refine ⟨fun name hname hmem => hown name hname ((hfeedIff name).1 hmem), fun trigger h => ⟨?_, ?_⟩⟩
    · exact fun name hname hmem => hownTrigger trigger h name hname ((htriggerIff trigger h name).1 hmem)
    · exact fun name hmem hmem' =>
        hapart trigger h name ((hfeedIff name).1 hmem) ((htriggerIff trigger h name).1 hmem')
  · rintro ⟨hown, hboth⟩
    constructor
    case feed => exact fun name hname h => hown name hname ((hfeedIff name).2 h)
    case trigger =>
      exact fun trigger h name hname hreach =>
        (hboth trigger h).1 name hname ((htriggerIff trigger h name).2 hreach)
    case apart =>
      exact fun trigger h name hfeed htrigger =>
        (hboth trigger h).2 name ((hfeedIff name).2 hfeed) ((htriggerIff trigger h name).2 htrigger)

/-- The store that says where payloads go. -/
def place (settings : Settings) (fd : Ranged .i32) : Config :=
  Config.single "send" (sendObject fd settings.datagram? (settings.disposable?.getD false))

/-- The names are free for the command and what it refers to. -/
theorem joinable_command_iff (fd : Ranged .i32) :
    Joinable "config" (session.brought settings.feed) (settings.place fd) ↔
      ¬ (session.contents settings.feed).Reaches settings.feed.name "config" ∧
        ¬ (session.contents settings.feed).Reaches settings.feed.name "send" := by
  rw [← Session.contains_brought, ← Session.contains_brought]
  constructor
  · intro h
    exact ⟨h.not_left, Config.apart_single_iff.1 h.apart⟩
  · rintro ⟨hconfig, hsend⟩
    refine ⟨hconfig, ?_, Config.apart_single_iff.2 hsend⟩
    intro h
    exact absurd (Config.contains_single.1 h) (by decide)

theorem namesFree_iff_of_none (h : settings.trigger? = none) (fd : Ranged .i32) :
    settings.NamesFree session ↔
      Joinable "config" (session.brought settings.feed) (settings.place fd) := by
  rw [joinable_command_iff]
  constructor
  · intro hfree
    have hnames := hfree.feed
    simp only [ownNames, h] at hnames
    exact ⟨hnames _ List.mem_cons_self, hnames _ (List.mem_cons_of_mem _ List.mem_cons_self)⟩
  · rintro ⟨hconfig, hsend⟩
    constructor
    · simp only [ownNames, h, List.mem_cons, List.not_mem_nil, or_false]
      rintro name (rfl | rfl)
      · exact hconfig
      · exact hsend
    · simp [h]
    · simp [h]

/-- The names are free for a subscription and what it refers to. -/
theorem joinable_subscription_iff {trigger : Walker} {instrument : Instrument} {serial : Nat} :
    Joinable "subscription" (session.brought trigger) (payloadStore session instrument serial) ↔
      ¬ (session.contents trigger).Reaches trigger.name "subscription" ∧
        ¬ (session.contents trigger).Reaches trigger.name (session.nextName "payload") := by
  rw [← Session.contains_brought, ← Session.contains_brought]
  constructor
  · intro h
    exact ⟨h.not_left, Config.apart_single_iff.1 h.apart⟩
  · rintro ⟨hsubscription, hpayload⟩
    refine ⟨hsubscription, ?_, Config.apart_single_iff.2 hpayload⟩
    intro h
    exact session.nextName_ne (by decide) (Config.contains_single.1 h).symm

/-- The names are free for the command with its parts and the subscription with its own. -/
theorem apart_subscription_iff {trigger : Walker} (fd : Ranged .i32) (object : Object)
    (instrument : Instrument) (serial : Nat) :
    Config.Apart (SortedMap.insert
        (SortedMap.union (session.brought settings.feed) (settings.place fd)) "config" object)
      (subscriptionPart session trigger instrument serial) ↔
      (∀ name ∈ ["config", "send"], ¬ (session.contents trigger).Reaches trigger.name name) ∧
      (∀ name ∈ ["subscription", session.nextName "payload"],
        ¬ (session.contents settings.feed).Reaches settings.feed.name name) ∧
      ∀ name, (session.contents settings.feed).Reaches settings.feed.name name →
        ¬ (session.contents trigger).Reaches trigger.name name := by
  have hstore : ∀ name, (subscriptionPart session trigger instrument serial).contains name ↔
      name = "subscription" ∨ (session.contents trigger).Reaches trigger.name name ∨
        name = session.nextName "payload" := by
    intro name
    rw [subscriptionPart, subscriptionStore, contains_jointStore, Session.contains_brought, payloadStore,
      Config.contains_single]
  -- an issued name has an underscore in it, so it is none of the fixed ones
  have hname : ∀ name, '_' ∉ name.toList → name ≠ "subscription" →
      ((subscriptionPart session trigger instrument serial).contains name ↔
        (session.contents trigger).Reaches trigger.name name) := by
    intro name hword hne
    rw [hstore, or_iff_right hne]
    exact or_iff_left (session.nextName_ne hword).symm
  have hsend : Config.Apart (settings.place fd) (subscriptionPart session trigger instrument serial) ↔
      ¬ (session.contents trigger).Reaches trigger.name "send" := by
    rw [← hname "send" (by decide) (by decide)]
    exact ⟨fun h => Config.apart_single_iff.1 h.symm, fun h => (Config.apart_single_iff.2 h).symm⟩
  rw [Config.apart_insert_iff, Config.apart_union_iff, hname "config" (by decide) (by decide), hsend,
    Config.Apart]
  simp only [Session.contains_brought, hstore, List.mem_cons, List.not_mem_nil, or_false, forall_eq_or_imp,
    forall_eq, not_or]
  constructor
  · rintro ⟨hconfig, hfeed, hsend⟩
    refine ⟨⟨hconfig, hsend⟩, ⟨fun h => (hfeed _ h).1 rfl, fun h => (hfeed _ h).2.2 rfl⟩, ?_⟩
    exact fun name h => (hfeed name h).2.1
  · rintro ⟨⟨hconfig, hsend⟩, ⟨hsubscription, hpayload⟩, hfeed⟩
    refine ⟨hconfig, ?_, hsend⟩
    intro name h
    refine ⟨?_, hfeed name h, ?_⟩
    · rintro rfl
      exact hsubscription h
    · rintro rfl
      exact hpayload h

theorem namesFree_iff_of_some {trigger : Walker} (h : settings.trigger? = some trigger) (fd : Ranged .i32)
    (object : Object) (instrument : Instrument) (serial : Nat) :
    settings.NamesFree session ↔
      Joinable "config" (session.brought settings.feed) (settings.place fd) ∧
      Joinable "subscription" (session.brought trigger) (payloadStore session instrument serial) ∧
      Config.Apart (SortedMap.insert
          (SortedMap.union (session.brought settings.feed) (settings.place fd)) "config" object)
        (subscriptionPart session trigger instrument serial) := by
  rw [joinable_command_iff, joinable_subscription_iff, apart_subscription_iff]
  have hnames : settings.ownNames session
      = ["config", "send"] ++ ["subscription", session.nextName "payload"] := by
    simp only [ownNames, h]
    rfl
  constructor
  · rintro ⟨hfeed, htrigger, hapart⟩
    have htrigger := htrigger trigger h
    rw [hnames, List.forall_mem_append] at hfeed htrigger
    simp only [List.mem_cons, List.not_mem_nil, or_false, forall_eq_or_imp, forall_eq] at hfeed htrigger ⊢
    exact ⟨hfeed.1, htrigger.2, htrigger.1, hfeed.2, hapart trigger h⟩
  · rintro ⟨⟨hconfig, hsend⟩, ⟨hsubscription, hpayload⟩, hcommand, hissued, hapart⟩
    have htrigger? : ∀ other ∈ settings.trigger?, other = trigger := by
      intro other hother
      rw [h] at hother
      exact (Option.some.inj hother).symm
    constructor
    · rw [hnames, List.forall_mem_append]
      simp only [List.mem_cons, List.not_mem_nil, or_false, forall_eq_or_imp, forall_eq] at hissued ⊢
      exact ⟨⟨hconfig, hsend⟩, hissued⟩
    · intro other hother
      rw [htrigger? other hother, hnames, List.forall_mem_append]
      simp only [List.mem_cons, List.not_mem_nil, or_false, forall_eq_or_imp, forall_eq] at hcommand ⊢
      exact ⟨hcommand, hsubscription, hpayload⟩
    · intro other hother
      rw [htrigger? other hother]
      exact hapart

end Settings

/-! ## The work -/

section

variable {settings : Settings} {session : Session} {config : Walker} {book : InstrumentBook}
  {engine : Option Engine}

/-- The session with the place for payloads. -/
def placed (session : Session) (settings : Settings) (fd : Ranged .i32) : Session :=
  session.extended [settings.place fd]

/-- The session with the place for payloads still has what was there. -/
theorem contents_placed {walker : Walker} (h : walker.store < session.stores.configs.length)
    (settings : Settings) (fd : Ranged .i32) :
    (placed session settings fd).contents walker = session.contents walker :=
  Session.contents_extended_old h

theorem lt_length_placed {i : StoreId} (h : i < session.stores.configs.length) (settings : Settings)
    (fd : Ranged .i32) : i < (placed session settings fd).stores.configs.length :=
  Nat.lt_of_lt_of_eq (Nat.lt_succ_of_lt h) (session.length_extended [settings.place fd]).symm

/-- The store of the command, with its feed and the place for payloads. -/
def commandStore (session : Session) (settings : Settings) (fd : Ranged .i32) : Config :=
  jointStore "config" (commandObject settings.feed.name "send") (session.brought settings.feed)
    (settings.place fd)

/-- The command is made before the subscription is added. -/
theorem dust_before_subscription (hregistered : session.registry.Holds fairyEntries)
    (hold : config.store < session.stores.configs.length) (hread : settings.ReadFrom session config)
    (hfeed : settings.feed.store = config.store) (fd : Ranged .i32) (book : InstrumentBook)
    (engine : Option Engine) :
    (Joinable "config" (session.brought settings.feed) (settings.place fd) →
      dust fd ⟨session, config, book, engine⟩
        = addSubscription config ((placed session settings fd).newWalker 0 "config")
          ⟨(placed session settings fd).extended [commandStore session settings fd], config, book,
            engine⟩) ∧
    (¬ Joinable "config" (session.brought settings.feed) (settings.place fd) →
      Collides (dust fd ⟨session, config, book, engine⟩)) := by
  have hplaced : makeSend config fd session
      = .ok (session.newWalker 0 "send") (placed session settings fd) :=
    makeSend_eq (hregistered.registered (by decide)) hold hread.datagram hread.disposable fd
  have hfeedOld : settings.feed.store < session.stores.configs.length := hfeed ▸ hold
  have hcommand : (placed session settings fd).registry.Registered Dust.schema :=
    hregistered.registered (by decide)
  have hleft : ((placed session settings fd).contents settings.feed).extract [settings.feed.name]
      = session.brought settings.feed := by
    rw [contents_placed hfeedOld]
    rfl
  have hright : ((placed session settings fd).contents (session.newWalker 0 "send")).extract ["send"]
      = settings.place fd := by
    rw [placed, Session.contents_extended_new rfl]
    exact (Config.rooted_single _ _).extract_eq
  have hsend : (session.newWalker 0 "send").store < (placed session settings fd).stores.configs.length :=
    Nat.lt_of_lt_of_eq (Nat.lt_succ_self _) (session.length_extended [settings.place fd]).symm
  -- the command is made in the store behind that of the place for payloads
  have hmade := makeCommand_eq hcommand (lt_length_placed hold settings fd) (hread.feed.extended hold _)
    (lt_length_placed hfeedOld settings fd) hsend hleft hright
  have hrun : dust fd ⟨session, config, book, engine⟩
      = (do
        let dust ← (makeCommand config (session.newWalker 0 "send") : Action TypedError Walker)
        addSubscription config dust : FairyAction Walker)
        ⟨placed session settings fd, config, book, engine⟩ := by
    rw [dust_eq]
    exact bind_of_ok (lift_ok hplaced)
  rw [hrun]
  constructor
  · intro hjoinable
    exact bind_of_ok (lift_ok (hmade.1 hjoinable))
  · intro hjoinable
    exact (lift_collides (hmade.2 hjoinable)).bind

end

/-! ## What is assembled -/

/-- The command, with its subscription if there is a trigger. -/
def Settings.command (settings : Settings) : Object :=
  match settings.trigger? with
  | none => commandObject settings.feed.name "send"
  | some _ =>
    OrderedMap.insert (commandObject settings.feed.name "send") "subscription" (.text "subscription")

/-- The objects of a subscription, its trigger as it stands in the configuration. -/
structure Subscribed (session : Session) (trigger : Walker) (instrument : Instrument) (serial : Nat)
    (contents : Config) : Prop where
  kept : contents.get? trigger.name = (session.contents trigger).get? trigger.name
  subscription : contents.get? "subscription"
    = some (subscriptionObject trigger.name (session.nextName "payload"))
  payload : contents.get? (session.nextName "payload") = some (payloadObject instrument serial)

/-- **The objects of a command, all of them under it**, its feed as it stands in the configuration. -/
structure Assembled (settings : Settings) (session : Session) (fd : Ranged .i32) (book : InstrumentBook)
    (contents : Config) : Prop where
  rooted : contents.Rooted "config"
  writable : contents.Writable
  command : contents.get? "config" = some settings.command
  feed : contents.get? settings.feed.name = (session.contents settings.feed).get? settings.feed.name
  send : contents.get? "send" = some (sendObject fd settings.datagram? (settings.disposable?.getD false))
  subscription : ∀ trigger ∈ settings.trigger?, ∀ instrument,
    Trigger.instrument.Reads session trigger instrument →
      Subscribed session trigger instrument (book.history.count instrument) contents

section

variable {settings : Settings} {session : Session} {fd : Ranged .i32} {book : InstrumentBook}

theorem rooted_commandStore (h : Joinable "config" (session.brought settings.feed) (settings.place fd))
    (hfeed : (session.contents settings.feed).contains settings.feed.name) :
    (commandStore session settings fd).Rooted "config" := by
  have hjoint : (jointStore "config" (jointObject (Object.typed "dust") "feed" settings.feed.name "send" "send")
      (session.brought settings.feed) (settings.place fd)).Rooted "config" :=
    rooted_jointStore h (Config.rooted_extract _ _) (Session.contains_brought.2 (.here hfeed))
      (Config.rooted_single _ _) (Config.contains_single.2 rfl) (by decide) (by decide) (by decide)
      (by decide) (by decide)
  have hfree : (jointObject (Object.typed "dust") "feed" settings.feed.name "send" "send").get?
      "command_out_fd" = none := rfl
  have hvalue := hjoint.value (get?_jointStore_self _ _ _ _) hfree
    (ScalarType.store (.integer .i64) commandOut)
  rwa [jointStore, Config.insert_insert] at hvalue

/-- What goes into the command's store can be written. -/
theorem writable_sendObject (fd : Ranged .i32) {datagram? : Option Address}
    (h : ∀ address ∈ datagram?, ScalarType.Storable .address address) (disposable : Bool) :
    (sendObject fd datagram? disposable).Writable := by
  have hfd : (ScalarType.store (.integer .i32) fd).Writable :=
    ScalarType.writable_store (t := .integer .i32) fd.exact_i32
  have haddressed : (addressedObject fd datagram?).Writable := by
    have hnumbered : (addressedObject fd none).Writable :=
      (Object.writable_typed (by decide)).insert (by decide) hfd
    cases datagram? with
    | none => exact hnumbered
    | some address => exact hnumbered.insert (by decide) (ScalarType.writable_store (h address rfl))
  exact haddressed.insert (by decide) (ScalarType.writable_store (t := .boolean) trivial)

theorem writable_jointObject {object : Object} {field a other b : String} (h : object.Writable)
    (hfield : isName field = true) (ha : isName a = true) (hother : isName other = true)
    (hb : isName b = true) : (jointObject object field a other b).Writable :=
  (h.insert hfield (Value.writable_name ha)).insert hother (Value.writable_name hb)

theorem writable_payloadStore (session : Session) (instrument : Instrument) (serial : Nat) :
    (payloadStore session instrument serial).Writable := by
  apply Config.writable_single (session.isName_nextName (by decide))
  have hbytes (bytes : List UInt8) : (ScalarType.store .base64 bytes).Writable :=
    ScalarType.writable_store (t := .base64) trivial
  exact ((Object.writable_typed (by decide)).insert (by decide) (hbytes _)).insert (by decide) (hbytes _)

theorem writable_commandStore (hcontents : (session.contents settings.feed).Writable)
    (hfeed : (session.contents settings.feed).contains settings.feed.name)
    (hdatagram : ∀ address ∈ settings.datagram?, ScalarType.Storable .address address) :
    (commandStore session settings fd).Writable := by
  obtain ⟨object, hget⟩ := SortedMap.contains_iff.1 hfeed
  have hplace : (settings.place fd).Writable :=
    Config.writable_single (by decide) (writable_sendObject fd hdatagram _)
  have hdust : (jointObject (Object.typed "dust") "feed" settings.feed.name "send" "send").Writable :=
    writable_jointObject (Object.writable_typed (by decide)) (by decide) (hcontents.name hget) (by decide)
      (by decide)
  have hcommand : (commandObject settings.feed.name "send").Writable :=
    hdust.insert (by decide) (ScalarType.writable_store (t := .integer .i64) exact_commandOut)
  exact ((hcontents.extract _).union hplace).insert (by decide) hcommand

theorem writable_subscriptionPart {trigger : Walker} (hcontents : (session.contents trigger).Writable)
    (htrigger : (session.contents trigger).contains trigger.name) (instrument : Instrument) (serial : Nat) :
    (subscriptionPart session trigger instrument serial).Writable := by
  obtain ⟨object, hget⟩ := SortedMap.contains_iff.1 htrigger
  have hsubscription : (subscriptionObject trigger.name (session.nextName "payload")).Writable :=
    writable_jointObject (Object.writable_typed (by decide)) (by decide) (hcontents.name hget) (by decide)
      (session.isName_nextName (by decide))
  exact ((hcontents.extract _).union (writable_payloadStore session instrument serial)).insert (by decide)
    hsubscription

/-- A subscription is there with all that belongs to it where its store is. -/
theorem subscribed_of_within {trigger : Walker} {instrument : Instrument} {serial : Nat} {contents : Config}
    (htrigger : (session.contents trigger).contains trigger.name)
    (h : Joinable "subscription" (session.brought trigger) (payloadStore session instrument serial))
    (hwithin : Config.Within (subscriptionPart session trigger instrument serial) contents) :
    Subscribed session trigger instrument serial contents := by
  obtain ⟨object, hget⟩ := SortedMap.contains_iff.1 htrigger
  obtain ⟨hleft, hright⟩ := h.within (subscriptionObject trigger.name (session.nextName "payload"))
  constructor
  case kept =>
    rw [hget]
    exact hwithin _ _ (hleft _ _ ((Session.get?_brought_self htrigger).trans hget))
  case subscription => exact hwithin _ _ (get?_jointStore_self _ _ _ _)
  case payload => exact hwithin _ _ (hright _ _ (get?_insert_self _ _ _))

theorem assembled_commandStore (hnone : settings.trigger? = none)
    (h : Joinable "config" (session.brought settings.feed) (settings.place fd))
    (hcontents : (session.contents settings.feed).Writable)
    (hfeed : (session.contents settings.feed).contains settings.feed.name)
    (hdatagram : ∀ address ∈ settings.datagram?, ScalarType.Storable .address address) :
    Assembled settings session fd book (commandStore session settings fd) := by
  obtain ⟨hleft, hright⟩ := h.within (commandObject settings.feed.name "send")
  obtain ⟨object, hget⟩ := SortedMap.contains_iff.1 hfeed
  refine ⟨rooted_commandStore h hfeed, writable_commandStore hcontents hfeed hdatagram, ?_, ?_, ?_, ?_⟩
  · rw [Settings.command, hnone]
    exact get?_jointStore_self _ _ _ _
  · rw [hget]
    exact hleft _ _ ((Session.get?_brought_self hfeed).trans hget)
  · exact hright _ _ (get?_insert_self _ _ _)
  · intro trigger htrigger
    rw [hnone] at htrigger
    cases htrigger

/-- What stands beside the command stays when the subscription comes, and so does what comes. -/
theorem within_subscribedStore {body subscription : Config} {object : Object}
    (h : Config.Apart (SortedMap.insert body "config" object) subscription) :
    (∀ name found, name ≠ "config" → (SortedMap.insert body "config" object).get? name = some found →
      (subscribedStore body subscription object).get? name = some found) ∧
    Config.Within subscription (subscribedStore body subscription object) := by
  obtain ⟨hconfig, hbody⟩ := Config.apart_insert_iff.1 h
  constructor
  · intro name found hne hget
    rw [SortedMap.get?_insert, if_neg hne] at hget
    rw [subscribedStore, SortedMap.get?_insert, if_neg hne]
    exact Config.within_union_left hbody name found hget
  · intro name found hget
    have hne : name ≠ "config" := by
      rintro rfl
      exact hconfig (SortedMap.contains_iff.2 ⟨found, hget⟩)
    rw [subscribedStore, SortedMap.get?_insert, if_neg hne]
    exact Config.within_union_right _ _ name found hget

theorem assembled_subscribedStore {trigger : Walker} {instrument : Instrument}
    (hsome : settings.trigger? = some trigger)
    (h : Joinable "config" (session.brought settings.feed) (settings.place fd))
    (hjoinable : Joinable "subscription" (session.brought trigger)
      (payloadStore session instrument (book.history.count instrument)))
    (hapart : Config.Apart (commandStore session settings fd)
      (subscriptionPart session trigger instrument (book.history.count instrument)))
    (hinstrument : Trigger.instrument.Reads session trigger instrument)
    (hfeedContents : (session.contents settings.feed).Writable)
    (htriggerContents : (session.contents trigger).Writable)
    (hfeed : (session.contents settings.feed).contains settings.feed.name)
    (htrigger : (session.contents trigger).contains trigger.name)
    (hdatagram : ∀ address ∈ settings.datagram?, ScalarType.Storable .address address) :
    Assembled settings session fd book (subscribedStore
      (SortedMap.union (session.brought settings.feed) (settings.place fd))
      (subscriptionPart session trigger instrument (book.history.count instrument))
      (commandObject settings.feed.name "send")) := by
  obtain ⟨feedObject, hgetFeed⟩ := SortedMap.contains_iff.1 hfeed
  obtain ⟨hleft, hright⟩ := h.within (commandObject settings.feed.name "send")
  obtain ⟨hbeside, hbrought⟩ := within_subscribedStore hapart
  have hcommand : (commandStore session settings fd).Writable :=
    writable_commandStore hfeedContents hfeed hdatagram
  have hsubscription := writable_subscriptionPart htriggerContents htrigger instrument
    (book.history.count instrument)
  constructor
  case rooted =>
    -- the command as it was made is under its root; its object is written once more, with one field more
    have hfree : (commandObject settings.feed.name "send").get? "subscription" = none := rfl
    have hrooted := (rooted_commandStore h hfeed).ref (get?_jointStore_self _ _ _ _)
      (rooted_subscriptionStore session htrigger hjoinable) hapart
      (contains_jointStore.2 (Or.inl rfl)) hfree (by decide)
    rwa [commandStore, jointStore, Config.insert_union_insert] at hrooted
  case writable =>
    have hobject : Object.Writable (OrderedMap.insert (commandObject settings.feed.name "send")
        "subscription" (.text "subscription")) :=
      (hcommand.of_get? (get?_jointStore_self _ _ _ _)).insert (by decide) (Value.writable_name (by decide))
    have hgrown : Config.Writable (SortedMap.insert (SortedMap.union (commandStore session settings fd) _)
        "config" _) := (hcommand.union hsubscription).insert (by decide) hobject
    rwa [commandStore, jointStore, Config.insert_union_insert] at hgrown
  case command =>
    rw [Settings.command, hsome]
    exact get?_insert_self _ _ _
  case feed =>
    have hne : settings.feed.name ≠ "config" := by
      intro heq
      exact h.not_left (heq ▸ Session.contains_brought.2 (.here hfeed))
    rw [hgetFeed]
    exact hbeside _ _ hne (hleft _ _ ((Session.get?_brought_self hfeed).trans hgetFeed))
  case send => exact hbeside _ _ (by decide) (hright _ _ (get?_insert_self _ _ _))
  case subscription =>
    intro other hother found hfound
    rw [hsome] at hother
    cases hother
    -- the field reads as one instrument only
    cases (Action.outcome_eq_ok_iff.1 hinstrument).symm.trans (Action.outcome_eq_ok_iff.1 hfound)
    exact subscribed_of_within htrigger hjoinable hbrought

end

/-! ## The whole work -/

/-- The walker's object is of the schema, and its fields read. -/
structure Presents (session : Session) (walker : Walker) (schema : Schema) : Prop where
  tag : HasTag (session.contents walker) session.registry walker.name schema.tag
  field : ∀ field ∈ schema.fields, ∃ x, field.Reads session walker x

theorem Presents.contains {session : Session} {walker : Walker} {schema : Schema}
    (h : Presents session walker schema) : (session.contents walker).contains walker.name := by
  obtain ⟨tag, htag, -, -⟩ := h.tag
  obtain ⟨object, hget, -⟩ := Option.bind_eq_some_iff.1 htag
  exact SortedMap.contains_iff.2 ⟨object, hget⟩

/-- What the work relies on: the settings are those of a configuration in the session, its feed and its trigger
    are there, and all schemas are registered. -/
structure Settings.Backed (settings : Settings) (session : Session) (config : Walker) : Prop extends
    settings.ReadFrom session config where
  registered : session.registry.Holds fairyEntries
  store : config.store < session.stores.configs.length
  writable : (session.contents config).Writable
  feedStore : settings.feed.store = config.store
  feedPresents : Presents session settings.feed Feed.schema
  triggerStore : ∀ trigger ∈ settings.trigger?, trigger.store = config.store
  triggerPresents : ∀ trigger ∈ settings.trigger?, Presents session trigger Trigger.schema

section

variable {settings : Settings} {session : Session} {config : Walker}

theorem Settings.Backed.feedWritable (h : settings.Backed session config) :
    (session.contents settings.feed).Writable := by
  rw [Session.contents, h.feedStore]
  exact h.writable

theorem Settings.Backed.triggerWritable (h : settings.Backed session config) :
    ∀ trigger ∈ settings.trigger?, (session.contents trigger).Writable := by
  intro trigger htrigger
  rw [Session.contents, h.triggerStore trigger htrigger]
  exact h.writable

/-- An address that was read has a host. -/
theorem Settings.Backed.storable_datagram (h : settings.Backed session config) :
    ∀ address ∈ settings.datagram?, ScalarType.Storable .address address := by
  intro address haddress
  have hread := FieldDecl.reads_iff.1 h.datagram
  rw [Option.mem_def.1 haddress] at hread
  obtain ⟨value, hconvert⟩ := FieldKind.exists_convert_of_read_optional hread
  exact FieldKind.storable_address hconvert

/-- Without a trigger the command is made if the names are free for it and its parts. -/
theorem dust_of_none (h : settings.Backed session config) (htrigger : settings.trigger? = none)
    (fd : Ranged .i32) (book : InstrumentBook) (engine : Option Engine)
    (hjoinable : Joinable "config" (session.brought settings.feed) (settings.place fd)) :
    ∃ done, addSubscription config ((placed session settings fd).newWalker 0 "config")
        ⟨(placed session settings fd).extended [commandStore session settings fd], config, book, engine⟩
        = .ok ((placed session settings fd).newWalker 0 "config") done ∧
      done.session.registry = session.registry ∧
      Assembled settings session fd book
        (done.session.contents ((placed session settings fd).newWalker 0 "config")) := by
  have hreads := (h.trigger.extended h.store [settings.place fd]).extended
    (lt_length_placed h.store settings fd) [commandStore session settings fd]
  rw [htrigger] at hreads
  have hstore : ((placed session settings fd).extended [commandStore session settings fd]).contents
      ((placed session settings fd).newWalker 0 "config") = commandStore session settings fd :=
    Session.contents_extended_new rfl "config"
  refine ⟨_, addSubscription_none hreads _, rfl, ?_⟩
  refine hstore.symm ▸ ?_
  exact assembled_commandStore htrigger hjoinable h.feedWritable h.feedPresents.contains h.storable_datagram

/-- With a trigger the subscription is added if the names are free for it too. -/
theorem dust_of_some (h : settings.Backed session config) {trigger : Walker}
    (htrigger : settings.trigger? = some trigger) {instrument : Instrument}
    (hinstrument : Trigger.instrument.Reads session trigger instrument) (fd : Ranged .i32)
    (book : InstrumentBook) (engine : Option Engine)
    (hjoinable : Joinable "config" (session.brought settings.feed) (settings.place fd)) :
    (Joinable "subscription" (session.brought trigger)
          (payloadStore session instrument (book.history.count instrument)) ∧
        Config.Apart (commandStore session settings fd)
          (subscriptionPart session trigger instrument (book.history.count instrument)) →
      ∃ done, addSubscription config ((placed session settings fd).newWalker 0 "config")
          ⟨(placed session settings fd).extended [commandStore session settings fd], config, book, engine⟩
          = .ok ((placed session settings fd).newWalker 0 "config") done ∧
        done.session.registry = session.registry ∧
        Assembled settings session fd book
          (done.session.contents ((placed session settings fd).newWalker 0 "config"))) ∧
    (¬ (Joinable "subscription" (session.brought trigger)
          (payloadStore session instrument (book.history.count instrument)) ∧
        Config.Apart (commandStore session settings fd)
          (subscriptionPart session trigger instrument (book.history.count instrument))) →
      Collides (addSubscription config ((placed session settings fd).newWalker 0 "config")
        ⟨(placed session settings fd).extended [commandStore session settings fd], config, book, engine⟩)) := by
  have hthere := (h.triggerPresents trigger htrigger).contains
  have hold : trigger.store < session.stores.configs.length := h.triggerStore trigger htrigger ▸ h.store
  have hcontents := contents_placed hold settings fd
  have hpayload : (placed session settings fd).registry.Registered Payload.schema :=
    h.registered.registered (by decide)
  have hsubscription : (placed session settings fd).registry.Registered Subscription.schema :=
    h.registered.registered (by decide)
  have hreads := h.trigger.extended h.store [settings.place fd]
  rw [htrigger] at hreads
  have hpart : ((placed session settings fd).contents trigger).extract [trigger.name]
      = session.brought trigger := congrArg (Config.extract · [trigger.name]) hcontents
  have hserial : payloadStore (placed session settings fd) instrument (book.history.count instrument)
      = payloadStore session instrument (book.history.count instrument) := rfl
  obtain ⟨hadded, hclash⟩ := addSubscription_some hpayload hsubscription
    (lt_length_placed h.store settings fd) hreads (lt_length_placed hold settings fd)
    (hinstrument.extended hold [settings.place fd]) (hcontents.symm ▸ hthere) hpart hserial
    (SortedMap.union (session.brought settings.feed) (settings.place fd))
    (commandObject settings.feed.name "send") engine
  refine ⟨?_, hclash⟩
  intro hsubscribed
  refine ⟨_, hadded hsubscribed, rfl, ?_⟩
  have hstore : ((placed session settings fd).issue.extended [subscribedStore
      (SortedMap.union (session.brought settings.feed) (settings.place fd))
      (subscriptionPart session trigger instrument (book.history.count instrument))
      (commandObject settings.feed.name "send"),
      payloadStore session instrument (book.history.count instrument),
      subscriptionPart session trigger instrument (book.history.count instrument)]).contents
      ((placed session settings fd).issue.newWalker 0 "config") = _ :=
    Session.contents_extended_new rfl "config"
  refine hstore.symm ▸ ?_
  exact assembled_subscribedStore htrigger hjoinable hsubscribed.1 hsubscribed.2 hinstrument h.feedWritable
    (h.triggerWritable trigger htrigger) h.feedPresents.contains hthere h.storable_datagram

/-- **The command is made exactly if the names are free**; if not, the names clash. -/
theorem dust_assembled (h : settings.Backed session config) (fd : Ranged .i32) (book : InstrumentBook)
    (engine : Option Engine) :
    (settings.NamesFree session →
      ∃ dust done, Fairy.dust fd ⟨session, config, book, engine⟩ = .ok dust done ∧
        dust.name = "config" ∧ done.session.registry = session.registry ∧
        Assembled settings session fd book (done.session.contents dust)) ∧
    (¬ settings.NamesFree session → Collides (Fairy.dust fd ⟨session, config, book, engine⟩)) := by
  obtain ⟨hmade, hclash⟩ := dust_before_subscription h.registered h.store h.toReadFrom h.feedStore fd book engine
  cases htrigger : settings.trigger? with
  | none =>
    rw [Settings.namesFree_iff_of_none htrigger fd]
    refine ⟨?_, hclash⟩
    intro hjoinable
    obtain ⟨done, hadded, hregistry, hassembled⟩ := dust_of_none h htrigger fd book engine hjoinable
    exact ⟨_, done, (hmade hjoinable).trans hadded, rfl, hregistry, hassembled⟩
  | some trigger =>
    obtain ⟨instrument, hinstrument⟩ :=
      (h.triggerPresents trigger htrigger).field Trigger.instrument (by decide)
    rw [Settings.namesFree_iff_of_some htrigger fd (commandObject settings.feed.name "send") instrument
      (book.history.count instrument)]
    constructor
    · rintro ⟨hjoinable, hsubscribed⟩
      obtain ⟨done, hadded, hregistry, hassembled⟩ :=
        (dust_of_some h htrigger hinstrument fd book engine hjoinable).1 hsubscribed
      exact ⟨_, done, (hmade hjoinable).trans hadded, rfl, hregistry, hassembled⟩
    · intro hnames
      by_cases hjoinable : Joinable "config" (session.brought settings.feed) (settings.place fd)
      · rw [hmade hjoinable]
        exact (dust_of_some h htrigger hinstrument fd book engine hjoinable).2
          (fun hsubscribed => hnames ⟨hjoinable, hsubscribed⟩)
      · exact hclash hjoinable

end

end Fairy

end GraphWire
