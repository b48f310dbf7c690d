import GraphWire.Fairy.Basic
import GraphWire.Proofs.Messages

/-!
# `Proofs.Commands` — how the first command is made

The parent makes each object of the command in a store of its own and then refers to it from another one,
which brings it along. What each part of the work leaves is known exactly: the stores that it adds, each with
a root object on top of what was brought along, or a clash of two names. A clash is the only failure.

## Contents
- **Parts.** `makeSend`, `makeCommand`, `makeSubscription` and `addSubscription`; `dust_eq` and
  `subscription_eq` say that the commands are made of them.
- **Objects.** `sendObject`, `commandObject`, `payloadObject` and `subscriptionObject`.
- **What the parts leave.** `makeSend_eq` and `nextPayload_eq`; `setField_ref_eq`, one reference, and
  **`writeBoth_eq`**, an object with two of them, and from it `makeCommand_eq` and `makeSubscription_eq`;
  **`subscription_made`** and **`addSubscription_some`**.
-/

namespace GraphWire

/-- A name that two objects claim. -/
def Action.Collides {α : Type} (result : EStateM.Result TypedError Session α) : Prop :=
  ∃ taken after, result = .error (.config (.nameCollision taken)) after

/-- What comes behind a clash is not done. -/
theorem Action.Collides.bind {α β : Type} {x : Action TypedError α} {f : α → Action TypedError β}
    {session : Session} (h : Collides (x session)) : Collides ((x >>= f) session) := by
  obtain ⟨taken, after, h⟩ := h
  exact ⟨taken, after, bind_of_error h⟩

namespace Fairy

/-- The same of a fairy. -/
def Collides {α : Type} (result : EStateM.Result FairyError Fairy α) : Prop :=
  ∃ taken done, result = .error (.typed (.config (.nameCollision taken))) done

variable {session after : Session} {config : Walker} {book : InstrumentBook} {engine : Option Engine}

/-! ## Parts -/

theorem lift_ok {α : Type} {x : Action TypedError α} {a : α} (h : x session = .ok a after) :
    (liftM x : FairyAction α) ⟨session, config, book, engine⟩ = .ok a ⟨after, config, book, engine⟩ := by
  show onSession .typed x ⟨session, config, book, engine⟩ = _
  rw [onSession, h]

theorem lift_error {α : Type} {x : Action TypedError α} {e : TypedError}
    (h : x session = .error e after) :
    (liftM x : FairyAction α) ⟨session, config, book, engine⟩
      = .error (.typed e) ⟨after, config, book, engine⟩ := by
  show onSession .typed x ⟨session, config, book, engine⟩ = _
  rw [onSession, h]

theorem lift_collides {α : Type} {x : Action TypedError α} (h : Action.Collides (x session)) :
    Collides ((liftM x : FairyAction α) ⟨session, config, book, engine⟩) := by
  obtain ⟨taken, after, h⟩ := h
  exact ⟨taken, _, lift_error h⟩

theorem Collides.bind {α β : Type} {x : FairyAction α} {f : α → FairyAction β} {fairy : Fairy}
    (h : Collides (x fairy)) : Collides ((x >>= f) fairy) := by
  obtain ⟨taken, done, h⟩ := h
  exact ⟨taken, done, bind_of_error h⟩

theorem lift_bind {α β : Type} (x : Action TypedError α) (f : α → Action TypedError β) :
    (liftM (x >>= f) : FairyAction β) = liftM x >>= fun a => liftM (f a) := by
  funext fairy
  show onSession .typed (EStateM.bind x f) fairy = EStateM.bind (onSession .typed x) _ fairy
  simp only [onSession, EStateM.bind]
  cases x fairy.session <;> rfl

theorem runningEngine_eq {engine : Engine} :
    runningEngine ⟨session, config, book, some engine⟩ = .ok engine ⟨session, config, book, some engine⟩ :=
  rfl

theorem get_eq (fairy : Fairy) : (get : FairyAction Fairy) fairy = .ok fairy fairy := rfl

/-- What the engine answers is the answer, and only the engine is another one then. -/
theorem send_of_ok {engine engine' : Engine} {root : Walker} {status : SendStatus}
    (h : engine.send session.stores root = (.ok status, engine')) :
    send root ⟨session, config, book, some engine⟩ = .ok status ⟨session, config, book, some engine'⟩ := by
  rw [send, bind_of_ok runningEngine_eq, bind_of_ok (get_eq _)]
  dsimp only
  rw [h]
  rfl

theorem send_of_error {engine engine' : Engine} {root : Walker} {e : WireError}
    (h : engine.send session.stores root = (.error e, engine')) :
    send root ⟨session, config, book, some engine⟩
      = .error (.wire e) ⟨session, config, book, some engine'⟩ := by
  rw [send, bind_of_ok runningEngine_eq, bind_of_ok (get_eq _)]
  dsimp only
  rw [h]
  rfl

/-- Makes the object that says where payloads go. -/
def makeSend (config : Walker) (fd : Ranged .i32) : Action TypedError Walker := do
  let send ← SendConfig.schema.create (some "send")
  SendConfig.fd.assign send fd
  SendConfig.datagram.assign send (← FairyConfig.datagramAddress.fetch config)
  let disposable ← FairyConfig.disposablePayload.fetch config
  SendConfig.disposablePayload.assign send (disposable.getD false)
  return send

/-- Writes two references into an object, one after the other. -/
def writeBoth (owner : Walker) (field : String) (a : Walker) (other : String) (b : Walker) :
    Action TypedError Unit := do
  Action.setField owner field (.ref a)
  Action.setField owner other (.ref b)

theorem least_le_commandOut : IntegerType.i64.least ≤ 1 := by decide

theorem commandOut_le_greatest : 1 ≤ IntegerType.i64.greatest := by decide

/-- The descriptor to which the engine writes its own commands. -/
def commandOut : Ranged .i64 := ⟨1, least_le_commandOut, commandOut_le_greatest⟩

theorem exact_commandOut : commandOut.Exact := by
  rw [Ranged.Exact]
  decide

/-- Makes the command, with the feed and with what says where payloads go. -/
def makeCommand (config send : Walker) : Action TypedError Walker := do
  let dust ← newCommand Dust.schema
  let feed ← FairyConfig.feed.fetch config
  writeBoth dust "feed" feed "send" send
  Dust.commandOutFd.assign dust commandOut
  return dust

/-- Makes a subscription to a trigger, with the payload. -/
def makeSubscription (trigger payload : Walker) : Action TypedError Walker := do
  let subscription ← Subscription.schema.create (some "subscription")
  writeBoth subscription "trigger" trigger "payload" payload
  return subscription

/-- Adds the subscription, if the configuration has a trigger. -/
def addSubscription (config dust : Walker) : FairyAction Walker := do
  if let some trigger ← FairyConfig.trigger.fetch config then
    Dust.subscription.assign dust (some (← subscription trigger))
  return dust

/-- The first command is made in three parts. -/
theorem dust_eq (fd : Ranged .i32) :
    dust fd = (do
      let config := (← get).config
      let send ← makeSend config fd
      let dust ← makeCommand config send
      addSubscription config dust) := by
  symm
  simp only [makeSend, makeCommand, writeBoth, addSubscription, lift_bind, bind_assoc]
  rfl

/-- A subscription is made of its payload and its trigger. -/
theorem subscription_eq (trigger : Walker) :
    subscription trigger = (do
      let payload ← nextPayload (← Trigger.instrument.fetch trigger)
      makeSubscription trigger payload) := by
  symm
  simp only [makeSubscription, writeBoth, lift_bind, bind_assoc]
  rfl

/-! ## Objects -/

/-- The object `send` with its descriptor and the address of datagrams, if there is one. -/
def addressedObject (fd : Ranged .i32) : Option Address → Object
  | none => OrderedMap.insert (Object.typed "send") "fd" (ScalarType.store (.integer .i32) fd)
  | some address =>
    OrderedMap.insert (OrderedMap.insert (Object.typed "send") "fd" (ScalarType.store (.integer .i32) fd))
      "datagram" (ScalarType.store .address address)

/-- The object that says where payloads go. -/
def sendObject (fd : Ranged .i32) (datagram? : Option Address) (disposable : Bool) : Object :=
  OrderedMap.insert (addressedObject fd datagram?) "disposable_payload" (ScalarType.store .boolean disposable)

/-- An object with two references. -/
def jointObject (object : Object) (field a other b : String) : Object :=
  OrderedMap.insert (OrderedMap.insert object field (.text a)) other (.text b)

/-- The command without a subscription. -/
def commandObject (feed send : String) : Object :=
  OrderedMap.insert (jointObject (Object.typed "dust") "feed" feed "send" send) "command_out_fd"
    (ScalarType.store (.integer .i64) commandOut)

/-- A payload with the first of its documents. -/
def messageObject (instrument : Instrument) (serial : Nat) : Object :=
  OrderedMap.insert (Object.typed "payload") "message"
    (ScalarType.store .base64 (payloadBytes instrument ("hit #" ++ toString serial)))

/-- A payload with its number in both documents. -/
def payloadObject (instrument : Instrument) (serial : Nat) : Object :=
  OrderedMap.insert (messageObject instrument serial) "datagram"
    (ScalarType.store .base64 (payloadBytes instrument ("datagram hit #" ++ toString serial)))

/-- A subscription to a trigger. -/
def subscriptionObject (trigger payload : String) : Object :=
  jointObject (Object.typed "subscription") "trigger" trigger "payload" payload

/-! ## What the parts leave -/

/-! ### Where payloads go -/

theorem makeSend_eq (hregistered : session.registry.Registered SendConfig.schema)
    (hold : config.store < session.stores.configs.length) {datagram? : Option Address}
    {disposable? : Option Bool}
    (hdatagram : FairyConfig.datagramAddress.Reads session config datagram?)
    (hdisposable : FairyConfig.disposablePayload.Reads session config disposable?) (fd : Ranged .i32) :
    makeSend config fd session = .ok (session.newWalker 0 "send")
      (session.extended [Config.single "send" (sendObject fd datagram? (disposable?.getD false))]) := by
  have hcreate : SendConfig.schema.create (some "send") session
      = .ok (session.newWalker 0 "send")
        (session.extended [Config.single "send" (Object.typed "send")]) :=
    create_extended hregistered "send"
  have hfd : SendConfig.fd.assign (session.newWalker 0 "send") fd
      (session.extended [Config.single "send" (Object.typed "send")])
      = .ok () (session.extended [Config.single "send" (addressedObject fd none)]) :=
    Action.mapError_of_ok (setField_extended rfl "fd" rfl)
  have haddress : SendConfig.datagram.assign (session.newWalker 0 "send") datagram?
      (session.extended [Config.single "send" (addressedObject fd none)])
      = .ok () (session.extended [Config.single "send" (addressedObject fd datagram?)]) := by
    cases datagram? with
    | none =>
      -- there is no such field yet, so nothing is removed
      have hunset : Action.setField (session.newWalker 0 "send") "datagram" .unset
          (session.extended [Config.single "send" (addressedObject fd none)])
          = .ok () (session.extended [Config.single "send"
            (FieldValue.unset.writeInto "datagram" (addressedObject fd none))]) :=
        setField_extended rfl "datagram" rfl
      exact Action.mapError_of_ok hunset
    | some address => exact Action.mapError_of_ok (setField_extended rfl "datagram" rfl)
  have hdisposable' : SendConfig.disposablePayload.assign (session.newWalker 0 "send")
      (disposable?.getD false) (session.extended [Config.single "send" (addressedObject fd datagram?)])
      = .ok () (session.extended
        [Config.single "send" (sendObject fd datagram? (disposable?.getD false))]) :=
    Action.mapError_of_ok (setField_extended rfl "disposable_payload" rfl)
  rw [makeSend, bind_of_ok hcreate, bind_of_ok hfd,
    bind_of_ok (Action.outcome_eq_ok_iff.1 (hdatagram.extended hold _)), bind_of_ok haddress,
    bind_of_ok (Action.outcome_eq_ok_iff.1 (hdisposable.extended hold _)), bind_of_ok hdisposable']
  rfl

/-! ### Objects with two references -/

section

variable {a b : Walker} {left right : Config}

/-- What two references bring along to the object with the name, without a name that is taken twice. -/
structure Joinable (name : String) (left right : Config) : Prop where
  not_left : ¬ left.contains name
  not_right : ¬ right.contains name
  apart : Config.Apart left right

/-- A store with two parts beside its root object. -/
def jointStore (name : String) (object : Object) (left right : Config) : Config :=
  SortedMap.insert (SortedMap.union left right) name object

theorem contains_jointStore {name other : String} {object : Object} :
    (jointStore name object left right).contains other ↔
      other = name ∨ left.contains other ∨ right.contains other :=
  Config.contains_insert.trans (or_congr_right Config.contains_union)

theorem get?_jointStore_self (name : String) (object : Object) (left right : Config) :
    (jointStore name object left right).get? name = some object := get?_insert_self _ _ _

/-- What is brought along stays as it is. -/
theorem Joinable.within {name : String} (h : Joinable name left right) (object : Object) :
    Config.Within left (jointStore name object left right) ∧
      Config.Within right (jointStore name object left right) := by
  have hfree : ¬ (SortedMap.union left right).contains name := by
    rw [Config.contains_union]
    exact not_or.2 ⟨h.not_left, h.not_right⟩
  have hunion := Config.within_insert hfree object
  exact ⟨(Config.within_union_left h.apart).trans hunion, (Config.within_union_right left right).trans hunion⟩

/-- An object with two new references leads to everything that they bring along. -/
theorem rooted_jointStore {name source target field other : String} {object : Object}
    (h : Joinable name left right) (hleft : left.Rooted source) (hsource : left.contains source)
    (hright : right.Rooted target) (htarget : right.contains target) (hfield : object.get? field = none)
    (hother : object.get? other = none) (hne : other ≠ field) (hfieldTag : field ≠ typeField)
    (hotherTag : other ≠ typeField) :
    (jointStore name (jointObject object field source other target) left right).Rooted name := by
  have hapart : Config.Apart (Config.single name object) left := by
    rw [Config.single, Config.apart_insert_iff]
    exact ⟨h.not_left, Config.apart_empty left⟩
  have hfirst := (Config.rooted_single name object).ref (get?_insert_self _ _ _) hleft hapart hsource hfield
    hfieldTag
  rw [Config.single, Config.insert_union_insert, Config.empty_union] at hfirst
  have hother' : (OrderedMap.insert object field (Value.text source)).get? other = none := by
    rw [OrderedMap.get?_insert, if_neg hne, hother]
  have hsecond := hfirst.ref (get?_insert_self _ _ _) hright
    (Config.apart_insert_iff.2 ⟨h.not_right, h.apart⟩) htarget hother' hotherTag
  rwa [Config.insert_union_insert] at hsecond

/-- **A reference is written if what it brings along has names that are free.** -/
theorem setField_ref_eq {added : List Config} {i : Nat} {name : String} {body part : Config}
    {object : Object} {target : Walker} (hi : added[i]? = some (SortedMap.insert body name object))
    (field : String) (htarget : target.store ≠ session.stores.configs.length + i)
    (hpart : ((session.extended added).contents target).extract [target.name] = part) :
    (Config.Apart (SortedMap.insert body name object) part →
      (liftM (Action.setField (session.newWalker i name) field (.ref target)) : Action TypedError Unit)
          (session.extended added)
        = .ok () (session.extended (added.set i (SortedMap.insert (SortedMap.union body part) name
            (OrderedMap.insert object field (.text target.name)))))) ∧
    (¬ Config.Apart (SortedMap.insert body name object) part →
      Action.Collides ((liftM (Action.setField (session.newWalker i name) field (.ref target)) :
        Action TypedError Unit) (session.extended added))) := by
  constructor
  · intro hapart
    exact Action.mapError_of_ok (setField_ref_extended hi field htarget hpart hapart)
  · intro hclash
    obtain ⟨taken, hfails⟩ := setField_ref_collision hi field htarget hpart hclash
    exact ⟨taken, _, Action.mapError_of_error hfails⟩

/-- **Two references bring along what they lead to, if no name is taken twice.** -/
theorem writeBoth_eq (ha : a.store < session.stores.configs.length)
    (hb : b.store < session.stores.configs.length)
    (hleft : (session.contents a).extract [a.name] = left)
    (hright : (session.contents b).extract [b.name] = right) (name : String) (object : Object)
    (field other : String) :
    (Joinable name left right →
      writeBoth (session.newWalker 0 name) field a other b (session.extended [Config.single name object])
        = .ok () (session.extended
          [jointStore name (jointObject object field a.name other b.name) left right])) ∧
    (¬ Joinable name left right →
      Action.Collides (writeBoth (session.newWalker 0 name) field a other b
        (session.extended [Config.single name object]))) := by
  have hbrings {target : Walker} {part : Config} (hold : target.store < session.stores.configs.length)
      (hpart : (session.contents target).extract [target.name] = part) (added : List Config) :
      ((session.extended added).contents target).extract [target.name] = part := by
    rwa [Session.contents_extended_old hold]
  -- what is there when the first part comes, and when the second one comes
  have hfirst : Config.Apart (Config.single name object) left ↔ ¬ left.contains name := by
    rw [Config.single, Config.apart_insert_iff]
    exact and_iff_left (Config.apart_empty left)
  have hsecond : Config.Apart
      (SortedMap.insert left name (OrderedMap.insert object field (.text a.name))) right
      ↔ ¬ right.contains name ∧ Config.Apart left right := Config.apart_insert_iff
  obtain ⟨hone, honeFails⟩ :=
    setField_ref_eq (i := 0) rfl field (Nat.ne_of_lt ha) (hbrings ha hleft [Config.single name object])
  rw [Config.empty_union] at hone
  obtain ⟨htwo, htwoFails⟩ := setField_ref_eq (i := 0) rfl other (Nat.ne_of_lt hb)
    (hbrings hb hright [SortedMap.insert left name (OrderedMap.insert object field (.text a.name))])
  constructor
  · rintro ⟨hl, hr, hapart⟩
    exact (bind_of_ok (hone (hfirst.2 hl))).trans (htwo (hsecond.2 ⟨hr, hapart⟩))
  · intro hclash
    by_cases hl : left.contains name
    · exact (honeFails fun h => hfirst.1 h hl).bind
    · have hrun : writeBoth (session.newWalker 0 name) field a other b
          (session.extended [Config.single name object]) = _ := bind_of_ok (hone (hfirst.2 hl))
      rw [hrun]
      exact htwoFails fun h => hclash ⟨hl, (hsecond.1 h).1, (hsecond.1 h).2⟩

/-- The command is made if the feed and the place for payloads can be brought along. -/
theorem makeCommand_eq (hregistered : session.registry.Registered Dust.schema)
    (hold : config.store < session.stores.configs.length) {feed send : Walker}
    (hreads : FairyConfig.feed.Reads session config feed)
    (hfeed : feed.store < session.stores.configs.length)
    (hsend : send.store < session.stores.configs.length)
    (hleft : (session.contents feed).extract [feed.name] = left)
    (hright : (session.contents send).extract [send.name] = right) :
    (Joinable "config" left right →
      makeCommand config send session = .ok (session.newWalker 0 "config")
        (session.extended [jointStore "config" (commandObject feed.name send.name) left right])) ∧
    (¬ Joinable "config" left right → Action.Collides (makeCommand config send session)) := by
  have hcreate : newCommand Dust.schema session = .ok (session.newWalker 0 "config")
      (session.extended [Config.single "config" (Object.typed "dust")]) :=
    create_extended hregistered "config"
  have hread := Action.outcome_eq_ok_iff.1
    (hreads.extended hold [Config.single "config" (Object.typed "dust")])
  obtain ⟨hboth, hclash⟩ := writeBoth_eq hfeed hsend hleft hright "config" (Object.typed "dust") "feed" "send"
  constructor
  · intro hjoinable
    have hcommandOut : Dust.commandOutFd.assign (session.newWalker 0 "config") commandOut
        (session.extended [jointStore "config"
          (jointObject (Object.typed "dust") "feed" feed.name "send" send.name) left right])
        = .ok () (session.extended
          [jointStore "config" (commandObject feed.name send.name) left right]) :=
      Action.mapError_of_ok (setField_extended rfl "command_out_fd" rfl)
    rw [makeCommand, bind_of_ok hcreate, bind_of_ok hread, bind_of_ok (hboth hjoinable),
      bind_of_ok hcommandOut]
    rfl
  · intro hjoinable
    rw [makeCommand, bind_of_ok hcreate, bind_of_ok hread]
    exact (hclash hjoinable).bind

/-- A subscription is made if the trigger and the payload can be brought along. -/
theorem makeSubscription_eq (hregistered : session.registry.Registered Subscription.schema)
    {trigger payload : Walker} (htrigger : trigger.store < session.stores.configs.length)
    (hpayload : payload.store < session.stores.configs.length)
    (hleft : (session.contents trigger).extract [trigger.name] = left)
    (hright : (session.contents payload).extract [payload.name] = right) :
    (Joinable "subscription" left right →
      makeSubscription trigger payload session = .ok (session.newWalker 0 "subscription")
        (session.extended
          [jointStore "subscription" (subscriptionObject trigger.name payload.name) left right])) ∧
    (¬ Joinable "subscription" left right → Action.Collides (makeSubscription trigger payload session)) := by
  have hcreate : Subscription.schema.create (some "subscription") session
      = .ok (session.newWalker 0 "subscription")
        (session.extended [Config.single "subscription" (Object.typed "subscription")]) :=
    create_extended hregistered "subscription"
  obtain ⟨hboth, hclash⟩ := writeBoth_eq htrigger hpayload hleft hright "subscription"
    (Object.typed "subscription") "trigger" "payload"
  constructor
  · intro hjoinable
    rw [makeSubscription, bind_of_ok hcreate, bind_of_ok (hboth hjoinable)]
    rfl
  · intro hjoinable
    rw [makeSubscription, bind_of_ok hcreate]
    exact (hclash hjoinable).bind

end

/-! ### Payloads -/

/-- The store of the next payload. -/
def payloadStore (session : Session) (instrument : Instrument) (serial : Nat) : Config :=
  Config.single (session.nextName "payload") (payloadObject instrument serial)

/-- A payload is made in a further store, under a name that is issued. -/
theorem buildPayload_eq (hregistered : session.registry.Registered Payload.schema)
    (instrument : Instrument) (serial : Nat) :
    buildPayload instrument serial session
      = .ok (session.newWalker 0 (session.nextName "payload"))
        (session.issue.extended [payloadStore session instrument serial]) := by
  have hcreate : Payload.schema.create none session
      = .ok (session.newWalker 0 (session.nextName "payload")) (session.issue.extended
        [Config.single (session.nextName "payload") (Object.typed "payload")]) :=
    create_issued hregistered
  have hmessage : Payload.message.assign (session.issue.newWalker 0 (session.nextName "payload"))
      (payloadBytes instrument ("hit #" ++ toString serial)) (session.issue.extended
        [Config.single (session.nextName "payload") (Object.typed "payload")])
      = .ok () (session.issue.extended
        [Config.single (session.nextName "payload") (messageObject instrument serial)]) :=
    Action.mapError_of_ok (setField_extended rfl "message" rfl)
  have hdatagram : Payload.datagram.assign (session.issue.newWalker 0 (session.nextName "payload"))
      (some (payloadBytes instrument ("datagram hit #" ++ toString serial))) (session.issue.extended
        [Config.single (session.nextName "payload") (messageObject instrument serial)])
      = .ok () (session.issue.extended [payloadStore session instrument serial]) :=
    Action.mapError_of_ok (setField_extended rfl "datagram" rfl)
  rw [buildPayload, bind_of_ok hcreate]
  exact (bind_of_ok hmessage).trans ((bind_of_ok hdatagram).trans rfl)

/-- The number of a payload is taken, and the payload is made. -/
theorem nextPayload_eq (hregistered : session.registry.Registered Payload.schema)
    (instrument : Instrument) :
    nextPayload instrument ⟨session, config, book, engine⟩
      = .ok (session.newWalker 0 (session.nextName "payload"))
        ⟨session.issue.extended [payloadStore session instrument (book.history.count instrument)], config,
          (book.nextSerial instrument).2, engine⟩ := by
  show (liftM (buildPayload instrument (book.history.count instrument)) : FairyAction Walker)
    ⟨session, config, (book.nextSerial instrument).2, engine⟩ = _
  exact lift_ok (buildPayload_eq hregistered instrument (book.history.count instrument))

/-! ### Subscriptions -/

/-- The store of a subscription, with the payload and with the trigger and what that leads to. -/
def subscriptionStore (session : Session) (trigger : String) (part payload : Config) : Config :=
  jointStore "subscription" (subscriptionObject trigger (session.nextName "payload")) part payload

/-- **A subscription is made**, with the next payload for its instrument, if nothing that its trigger leads to
    has a name of its own objects. -/
theorem subscription_made (hpayload : session.registry.Registered Payload.schema)
    (hsubscription : session.registry.Registered Subscription.schema) {trigger : Walker}
    (hold : trigger.store < session.stores.configs.length) {instrument : Instrument}
    (hinstrument : Trigger.instrument.Reads session trigger instrument) {part payload : Config}
    (hpart : (session.contents trigger).extract [trigger.name] = part)
    (hserial : payloadStore session instrument (book.history.count instrument) = payload)
    (config : Walker) (engine : Option Engine) :
    (Joinable "subscription" part payload →
      subscription trigger ⟨session, config, book, engine⟩
        = .ok (session.newWalker 1 "subscription")
          ⟨session.issue.extended [payload, subscriptionStore session trigger.name part payload], config,
            (book.nextSerial instrument).2, engine⟩) ∧
    (¬ Joinable "subscription" part payload →
      Collides (subscription trigger ⟨session, config, book, engine⟩)) := by
  have hread := Action.outcome_eq_ok_iff.1 hinstrument
  have hnext : nextPayload instrument ⟨session, config, book, engine⟩ = .ok _ _ :=
    nextPayload_eq hpayload instrument
  rw [hserial] at hnext
  -- the subscription is made on top of the payload
  have hregistered : (session.issue.extended [payload]).registry.Registered Subscription.schema := hsubscription
  have hissue : trigger.store < session.issue.stores.configs.length := hold
  have hlength := session.issue.length_extended [payload]
  have htrigger : ((session.issue.extended [payload]).contents trigger).extract [trigger.name] = part := by
    rwa [Session.contents_extended_old hissue]
  have hplace : ((session.issue.extended [payload]).contents
      (session.issue.newWalker 0 (session.nextName "payload"))).extract [session.nextName "payload"]
      = payload := by
    rw [Session.contents_extended_new rfl, ← hserial]
    exact (Config.rooted_single _ _).extract_eq
  have hmade := makeSubscription_eq hregistered (Nat.lt_of_lt_of_eq (Nat.lt_succ_of_lt hissue) hlength.symm)
    (Nat.lt_of_lt_of_eq (Nat.lt_succ_self _) hlength.symm) htrigger hplace
  rw [Session.extended_extended, Session.newWalker_extended] at hmade
  rw [subscription_eq, bind_of_ok (lift_ok hread), bind_of_ok hnext]
  exact ⟨fun h => lift_ok (hmade.1 h), fun h => lift_collides (hmade.2 h)⟩

/-- The same in a session that has one more store. -/
theorem subscription_made_beside (hpayload : session.registry.Registered Payload.schema)
    (hsubscription : session.registry.Registered Subscription.schema) {trigger : Walker}
    (hold : trigger.store < session.stores.configs.length) {instrument : Instrument}
    (hinstrument : Trigger.instrument.Reads session trigger instrument) {part payload : Config}
    (hpart : (session.contents trigger).extract [trigger.name] = part)
    (hserial : payloadStore session instrument (book.history.count instrument) = payload)
    (root : Config) (config : Walker) (engine : Option Engine) :
    (Joinable "subscription" part payload →
      subscription trigger ⟨session.extended [root], config, book, engine⟩
        = .ok (session.newWalker 2 "subscription")
          ⟨session.issue.extended [root, payload, subscriptionStore session trigger.name part payload],
            config, (book.nextSerial instrument).2, engine⟩) ∧
    (¬ Joinable "subscription" part payload →
      Collides (subscription trigger ⟨session.extended [root], config, book, engine⟩)) := by
  have hlength := session.length_extended [root]
  have hregistered : (session.extended [root]).registry.Registered Payload.schema := hpayload
  have hpart' : ((session.extended [root]).contents trigger).extract [trigger.name] = part := by
    rwa [Session.contents_extended_old hold]
  have hmade := subscription_made hregistered hsubscription
    (Nat.lt_of_lt_of_eq (Nat.lt_succ_of_lt hold) hlength.symm) (hinstrument.extended hold [root]) hpart'
    hserial config engine
  refine ⟨fun hjoinable => ?_, hmade.2⟩
  rw [hmade.1 hjoinable, Session.newWalker_extended]
  show EStateM.Result.ok _ (Fairy.mk ((session.issue.extended [root]).extended _) _ _ _) = _
  rw [Session.extended_extended]
  rfl

theorem rooted_subscriptionStore (session : Session) {config : Config} {trigger : String}
    (hthere : config.contains trigger) {instrument : Instrument} {serial : Nat}
    (h : Joinable "subscription" (config.extract [trigger]) (payloadStore session instrument serial)) :
    (subscriptionStore session trigger (config.extract [trigger])
      (payloadStore session instrument serial)).Rooted "subscription" :=
  rooted_jointStore h (Config.rooted_extract config trigger)
    (Config.contains_extract_singleton.2 (.here hthere)) (Config.rooted_single _ _)
    (Config.contains_single.2 rfl) (by decide) (by decide) (by decide) (by decide) (by decide)

theorem addSubscription_none (h : FairyConfig.trigger.Reads session config none) (dust : Walker) :
    addSubscription config dust ⟨session, config, book, engine⟩
      = .ok dust ⟨session, config, book, engine⟩ := by
  rw [addSubscription, bind_of_ok (lift_ok (Action.outcome_eq_ok_iff.1 h))]
  rfl

theorem addSubscription_eq {trigger : Walker}
    (h : FairyConfig.trigger.Reads session config (some trigger)) (dust : Walker) :
    addSubscription config dust ⟨session, config, book, engine⟩
      = (do
        let subscription ← subscription trigger
        (Dust.subscription.assign dust (some subscription) : Action TypedError Unit)
        return dust : FairyAction Walker) ⟨session, config, book, engine⟩ := by
  rw [addSubscription, bind_of_ok (lift_ok (Action.outcome_eq_ok_iff.1 h))]

/-- The store of the command with its subscription, and what that leads to, beside it. -/
def subscribedStore (body subscription : Config) (object : Object) : Config :=
  SortedMap.insert (SortedMap.union body subscription) "config"
    (OrderedMap.insert object "subscription" (.text "subscription"))

/-- The reference to a subscription is written if its store and that of the command have different names. -/
theorem assign_subscription (session : Session) {stored : Config} (hrooted : stored.Rooted "subscription")
    (body payload : Config) (object : Object) :
    (Config.Apart (SortedMap.insert body "config" object) stored →
      Dust.subscription.assign (session.newWalker 0 "config") (some (session.newWalker 2 "subscription"))
          (session.extended [SortedMap.insert body "config" object, payload, stored])
        = .ok () (session.extended [subscribedStore body stored object, payload, stored])) ∧
    (¬ Config.Apart (SortedMap.insert body "config" object) stored →
      Action.Collides (Dust.subscription.assign (session.newWalker 0 "config")
        (some (session.newWalker 2 "subscription"))
        (session.extended [SortedMap.insert body "config" object, payload, stored]))) := by
  have hextract : ((session.extended [SortedMap.insert body "config" object, payload, stored]).contents
      (session.newWalker 2 "subscription")).extract ["subscription"] = stored := by
    rw [Session.contents_extended_new rfl]
    exact hrooted.extract_eq
  have hforeign : (session.newWalker 2 "subscription").store ≠ session.stores.configs.length + 0 := by
    show session.stores.configs.length + 2 ≠ session.stores.configs.length + 0
    omega
  exact setField_ref_eq (i := 0) rfl "subscription" hforeign hextract

/-- **The subscription is added if its objects and those of the command have different names.** -/
theorem addSubscription_some (hpayload : session.registry.Registered Payload.schema)
    (hsubscription : session.registry.Registered Subscription.schema)
    (hconfig : config.store < session.stores.configs.length) {trigger : Walker}
    (hreads : FairyConfig.trigger.Reads session config (some trigger))
    (hold : trigger.store < session.stores.configs.length) {instrument : Instrument}
    (hinstrument : Trigger.instrument.Reads session trigger instrument)
    (hthere : (session.contents trigger).contains trigger.name) {part payload : Config}
    (hpart : (session.contents trigger).extract [trigger.name] = part)
    (hserial : payloadStore session instrument (book.history.count instrument) = payload)
    (body : Config) (object : Object) (engine : Option Engine) :
    (Joinable "subscription" part payload ∧
        Config.Apart (SortedMap.insert body "config" object)
          (subscriptionStore session trigger.name part payload) →
      addSubscription config (session.newWalker 0 "config")
          ⟨session.extended [SortedMap.insert body "config" object], config, book, engine⟩
        = .ok (session.newWalker 0 "config")
          ⟨session.issue.extended
            [subscribedStore body (subscriptionStore session trigger.name part payload) object, payload,
              subscriptionStore session trigger.name part payload], config,
            (book.nextSerial instrument).2, engine⟩) ∧
    (¬ (Joinable "subscription" part payload ∧
        Config.Apart (SortedMap.insert body "config" object)
          (subscriptionStore session trigger.name part payload)) →
      Collides (addSubscription config (session.newWalker 0 "config")
        ⟨session.extended [SortedMap.insert body "config" object], config, book, engine⟩)) := by
  have hmade := subscription_made_beside hpayload hsubscription hold hinstrument hpart hserial
    (SortedMap.insert body "config" object) config engine
  rw [addSubscription_eq (hreads.extended hconfig [SortedMap.insert body "config" object])]
  by_cases hjoinable : Joinable "subscription" part payload
  · have hrooted : (subscriptionStore session trigger.name part payload).Rooted "subscription" := by
      subst hpart hserial
      exact rooted_subscriptionStore session hthere hjoinable
    obtain ⟨hassign, hclash⟩ := assign_subscription session.issue hrooted body payload object
    rw [bind_of_ok (hmade.1 hjoinable)]
    constructor
    · rintro ⟨-, hapart⟩
      exact bind_of_ok (lift_ok (hassign hapart))
    · intro hnot
      exact (lift_collides (hclash fun hapart => hnot ⟨hjoinable, hapart⟩)).bind
  · exact ⟨fun h => absurd h.1 hjoinable, fun _ => (hmade.2 hjoinable).bind⟩

end Fairy

end GraphWire
