import GraphWire.Proofs.Requests
import GraphWire.Proofs.Setup

/-!
# `Proofs.Courses` — the book records the payloads that were built

What a fairy does to its session only adds to it: further stores, further schemas, and names that are issued.
So what the configuration and the triggers in it say remains true, and each operation of a fairy builds a
payload for an instrument that can be told beforehand, or builds none. A course is what a fairy has done so
far, with the instruments of these payloads; the book of the fairy lists the same.

## Contents
- **Growing sessions.** `Session.Extends`, and **`Action.Keeps`**, an operation that only adds, with the steps
  of which the commands are made.
- **Commands.** Their parts keep what is there, such as `keeps_makeSend`.
- **Growing fairies.** `Fairy.Built`, the payloads built between two moments, and **`Fairy.Builds`**.
- **Operations.** What each of them builds, such as `builds_subscription` and **`built_dust`**.
- **Events.** `Fairy.handle`, for a frame that arrives or a payload to be sent, and **`handle_frame`**.
- **Courses.** `Course`, what a fairy has done so far, and **`Course.sound`**; **`continues_start`**, a fairy
  that was started has one.
-/

namespace GraphWire

/-! ## Growing sessions -/

/-- The session has all schemas and all stores of the base, as they are there. -/
structure Session.Extends (base session : Session) : Prop where
  registry : base.registry.Within session.registry
  stores : base.stores.configs <+: session.stores.configs

namespace Session.Extends

variable {base session later : Session}

theorem refl (session : Session) : session.Extends session := ⟨.refl _, List.prefix_rfl⟩

theorem trans (h : base.Extends session) (h' : session.Extends later) : base.Extends later :=
  ⟨h.registry.trans h'.registry, h.stores.trans h'.stores⟩

theorem length_le (h : base.Extends session) :
    base.stores.configs.length ≤ session.stores.configs.length := h.stores.length_le

theorem contents_eq (h : base.Extends session) {walker : Walker}
    (hold : walker.store < base.stores.configs.length) : session.contents walker = base.contents walker := by
  obtain ⟨added, hadded⟩ := h.stores
  show session.stores.configs.getD walker.store _ = base.stores.configs.getD walker.store _
  rw [← hadded, List.getD_eq_getElem?_getD, List.getElem?_append_left hold, List.getD_eq_getElem?_getD]

/-- What could be read in the base is read as before. -/
theorem outcome_fetch (h : base.Extends session) (field : FieldDecl) {owner : Walker}
    (hold : owner.store < base.stores.configs.length) :
    (field.fetch owner).outcome session = (((field.fetch owner).outcome base).1, session) := by
  rw [FieldDecl.fetch_eq, FieldDecl.fetch_eq, h.contents_eq hold]

end Session.Extends

theorem Session.extends_extended (session : Session) (added : List Config) :
    session.Extends (session.extended added) := ⟨.refl _, List.prefix_append _ _⟩

/-- Schemas that are registered one after another take back none. -/
theorem Registry.within_foldl_register (registry : Registry) (schemas : List Schema) :
    registry.Within (schemas.foldl (fun registry schema => (registry.register schema).1) registry) := by
  induction schemas generalizing registry with
  | nil => exact .refl registry
  | cons schema schemas ih =>
    rw [List.foldl_cons]
    exact (Registry.within_addAll registry schema.entries).trans (ih _)

namespace Action

variable {ε ε' α β : Type} {base : Session} {x : Action ε α} {Q : α → Prop} {R : β → Prop}

/-- **The operation only adds to what the base has**, whether or not it fails; it issues no name, and its result
    meets the condition. -/
def Keeps (base : Session) (x : Action ε α) (Q : α → Prop) : Prop :=
  ∀ session, base.Extends session → base.Extends (x.outcome session).2 ∧
    (x.outcome session).2.issued = session.issued ∧ ∀ a, (x.outcome session).1 = .ok a → Q a

namespace Keeps

theorem pure {a : α} (h : Q a) : Keeps base (Pure.pure a : Action ε α) Q := by
  intro session hext
  refine ⟨hext, rfl, ?_⟩
  rintro _ ⟨⟩
  exact h

theorem bind {f : α → Action ε β} (hx : Keeps base x Q) (hf : ∀ a, Q a → Keeps base (f a) R) :
    Keeps base (x >>= f) R := by
  intro session hext
  obtain ⟨hmid, hissued, hQ⟩ := hx session hext
  cases hrun : x session with
  | ok a mid =>
    have hx : x.outcome session = (.ok a, mid) := outcome_eq_ok_iff.2 hrun
    have hboth : (x >>= f).outcome session = (f a).outcome mid := by
      rw [outcome, bind_of_ok hrun, outcome]
    rw [hx] at hmid hissued hQ
    obtain ⟨hdone, hissued', hR⟩ := hf a (hQ a rfl) mid hmid
    rw [hboth]
    exact ⟨hdone, hissued'.trans hissued, hR⟩
  | error e mid =>
    have hx : x.outcome session = (.error e, mid) := outcome_eq_error_iff.2 hrun
    have hboth : (x >>= f).outcome session = (.error e, mid) := by
      rw [outcome, bind_of_error hrun]
    rw [hx] at hmid hissued
    rw [hboth]
    exact ⟨hmid, hissued, fun _ h => by cases h⟩

theorem mapError {f : ε → ε'} (hx : Keeps base x Q) : Keeps base (Action.mapError f x) Q := by
  intro session hext
  obtain ⟨hmid, hissued, hQ⟩ := hx session hext
  cases hrun : x session with
  | ok a mid =>
    rw [outcome_eq_ok_iff.2 hrun] at hmid hissued hQ
    rw [outcome_eq_ok_iff.2 (mapError_of_ok hrun)]
    exact ⟨hmid, hissued, fun b h => hQ b (by cases h; rfl)⟩
  | error e mid =>
    rw [outcome_eq_error_iff.2 hrun] at hmid hissued
    rw [outcome_eq_error_iff.2 (mapError_of_error hrun)]
    exact ⟨hmid, hissued, fun _ h => by cases h⟩

end Keeps

/-- What changes nothing keeps everything. -/
theorem keeps_of_same (h : ∀ session, (x.outcome session).2 = session) : Keeps base x fun _ => True := by
  intro session hext
  rw [h session]
  exact ⟨hext, rfl, fun _ _ => trivial⟩

theorem keeps_ofExcept (result : Except ε α) : Keeps base (ofExcept result) fun _ => True :=
  keeps_of_same fun session => by cases result <;> rfl

theorem keeps_contents (id : StoreId) : Keeps base (contents id : Action ε Config) fun _ => True :=
  keeps_of_same fun _ => rfl

theorem keeps_fetch (field : FieldDecl) (owner : Walker) : Keeps base (field.fetch owner) fun _ => True :=
  keeps_of_same fun session => by rw [FieldDecl.fetch_eq]

theorem keeps_resolve (schema : Schema) (walker : Walker) : Keeps base (schema.resolve walker) fun _ => True :=
  keeps_of_same fun session => by rw [Schema.resolve_eq]

/-- A further store is not one of the base. -/
theorem keeps_addStore (config : Config) :
    Keeps base (addStore config : Action ε StoreId) (base.stores.configs.length ≤ ·) := by
  intro session hext
  refine ⟨hext.trans (session.extends_extended [config]), rfl, ?_⟩
  rintro _ ⟨⟩
  exact hext.length_le

/-- A store that is not one of the base may be changed. -/
theorem extends_set {session : Session} (hext : base.Extends session) {id : StoreId}
    (hnew : base.stores.configs.length ≤ id) (config : Config) :
    base.Extends { session with stores := session.stores.set id config } := by
  obtain ⟨added, hadded⟩ := hext.stores
  refine ⟨hext.registry, added.set (id - base.stores.configs.length) config, ?_⟩
  show _ = session.stores.configs.set id config
  rw [← hadded, List.set_append_right _ _ hnew]

theorem keeps_addObject {id : StoreId} (hnew : base.stores.configs.length ≤ id) (name : String)
    (object : Object) : Keeps base (addObject id name object) fun _ => True := by
  refine .bind (keeps_contents id) fun config _ => .bind (keeps_ofExcept _) fun grown _ => ?_
  intro session hext
  exact ⟨extends_set hext hnew grown, rfl, fun _ _ => trivial⟩

theorem keeps_setField {owner : Walker} (hnew : base.stores.configs.length ≤ owner.store) (field : String)
    (v : FieldValue) : Keeps base (setField owner field v) fun _ => True := by
  intro session hext
  rw [outcome_setField]
  cases hwrite : session.stores.write owner field v with
  | error e => exact ⟨hext, rfl, fun _ _ => trivial⟩
  | ok stores =>
    obtain ⟨imported, -, -, -, rfl⟩ := Stores.write_eq_ok_iff.1 hwrite
    exact ⟨extends_set hext hnew _, rfl, fun _ _ => trivial⟩

theorem keeps_assign {owner : Walker} (hnew : base.stores.configs.length ≤ owner.store) (field : FieldDecl)
    (x : field.kind.Carrier) : Keeps base (field.assign owner x) fun _ => True := by
  obtain ⟨name, kind⟩ := field
  cases kind with
  | single e => exact .mapError (keeps_setField hnew name _)
  | optional e => cases x <;> exact .mapError (keeps_setField hnew name _)
  | sequence e =>
    exact .bind (keeps_ofExcept _) fun _ _ => .mapError (keeps_setField hnew name _)
  | mapping e =>
    exact .bind (keeps_ofExcept _) fun _ _ => .bind (.mapError (keeps_setField hnew name _)) fun _ _ =>
      .mapError (keeps_setField hnew _ _)

theorem keeps_register (schema : Schema) : Keeps base (register schema) fun _ => True := by
  intro session hext
  rw [outcome_register]
  exact ⟨⟨hext.registry.trans (Registry.within_addAll _ _), hext.stores⟩, rfl, fun _ _ => trivial⟩

/-- An object with a name of its own is made in a further store. -/
theorem keeps_create (schema : Schema) (name : String) :
    Keeps base (schema.create (some name)) (base.stores.configs.length ≤ ·.store) := by
  refine .bind (keeps_addStore SortedMap.empty) fun id hnew => ?_
  exact .bind (keeps_register schema) fun _ _ => .bind (.pure trivial) fun _ (_ : True) =>
    .bind (.mapError (keeps_addObject hnew _ _)) fun _ _ => .pure hnew

theorem keeps_registerMessages : Keeps base (registerMessages : Action ε Unit) fun _ => True := by
  intro session hext
  have hwithin := Registry.within_foldl_register session.registry messageSchemas
  generalize hgrown : messageSchemas.foldl (fun registry schema => (registry.register schema).1)
    session.registry = grown at hwithin
  have hregister : (registerMessages : Action ε Unit).outcome session
      = (.ok (), { session with registry := grown }) := by
    rw [← hgrown]
    rfl
  rw [hregister]
  exact ⟨⟨hext.registry.trans hwithin, hext.stores⟩, rfl, fun _ _ => trivial⟩

/-- To look at a frame leaves at most a store and schemas. -/
theorem keeps_ofFrame (body : ByteArray) : Keeps base (Request.ofFrame body) fun _ => True := by
  have hwalker : Keeps base (Frame.walker body requestRoot) fun _ => True :=
    .bind (keeps_ofExcept _) fun _ _ => .bind (keeps_addStore _) fun _ _ => .pure trivial
  have hkind (walker : Walker) : Keeps base (RequestKind.ofWalker walker) fun _ => True := by
    refine .bind keeps_registerMessages fun _ _ => .bind (keeps_resolve _ walker) fun tag _ => ?_
    cases RequestKind.all.find? fun kind => kind.schema.tag = tag with
    | some kind => exact .pure trivial
    | none => exact keeps_of_same fun _ => rfl
  exact .bind hwalker fun walker _ => .bind (.mapError (hkind walker)) fun _ _ => .pure trivial

end Action

namespace Fairy

open GraphWire.Action

/-! ## Commands -/

section

variable {base : Session} {owner : Walker}

theorem keeps_makeSend (config : Walker) (fd : Ranged .i32) :
    Keeps base (makeSend config fd) fun _ => True := by
  refine .bind (keeps_create _ _) fun send hsend => .bind (keeps_assign hsend SendConfig.fd fd) fun _ _ => ?_
  refine .bind (keeps_fetch _ config) fun datagram? _ =>
    .bind (keeps_assign hsend SendConfig.datagram datagram?) fun _ _ => ?_
  exact .bind (keeps_fetch _ config) fun _ _ =>
    .bind (keeps_assign hsend SendConfig.disposablePayload _) fun _ _ => .pure trivial

theorem keeps_writeBoth (hnew : base.stores.configs.length ≤ owner.store) (field : String) (a : Walker)
    (other : String) (b : Walker) : Keeps base (writeBoth owner field a other b) fun _ => True :=
  .bind (.mapError (keeps_setField hnew _ _)) fun _ _ => .mapError (keeps_setField hnew _ _)

theorem keeps_makeCommand (config send : Walker) :
    Keeps base (makeCommand config send) (base.stores.configs.length ≤ ·.store) := by
  refine .bind (keeps_create _ _) fun dust hdust => .bind (keeps_fetch _ config) fun feed _ => ?_
  exact .bind (keeps_writeBoth hdust _ _ _ _) fun _ _ =>
    .bind (keeps_assign hdust Dust.commandOutFd _) fun _ _ => .pure hdust

theorem keeps_makeSubscription (trigger payload : Walker) :
    Keeps base (makeSubscription trigger payload) fun _ => True :=
  .bind (keeps_create _ _) fun _ hnew => .bind (keeps_writeBoth hnew _ _ _ _) fun _ _ => .pure trivial

theorem keeps_newUpdate (instrument : Instrument) (payload : Walker) :
    Keeps base (newUpdate instrument payload) fun _ => True :=
  .bind (keeps_create _ _) fun _ hnew => .bind (keeps_assign hnew UpdatePayload.instrument _) fun _ _ =>
    .bind (keeps_assign hnew UpdatePayload.payload _) fun _ _ => .pure trivial

theorem keeps_newUnsubscribe (instrument : Instrument) :
    Keeps base (newUnsubscribe instrument) fun _ => True :=
  .bind (keeps_create _ _) fun _ hnew => .bind (keeps_assign hnew Unsubscribe.instrument _) fun _ _ =>
    .pure trivial

end

/-! ## Growing fairies -/

/-- What an operation leaves, whether or not it fails. -/
def after {α : Type} (x : FairyAction α) (fairy : Fairy) : Fairy :=
  match x fairy with
  | .ok _ done => done
  | .error _ done => done

/-- **Since the base, payloads were built for these instruments**, the last one first, and listed in the book;
    each took a name. Besides, the session has only grown. -/
structure Built (base : Fairy) (instruments : List Instrument) (fairy : Fairy) : Prop where
  session : base.session.Extends fairy.session
  config : fairy.config = base.config
  issued : fairy.session.issued = instruments.length + base.session.issued
  history : fairy.book.history = instruments ++ base.book.history

theorem Built.refl (fairy : Fairy) : Built fairy [] fairy := ⟨.refl _, rfl, (Nat.zero_add _).symm, rfl⟩

theorem Built.trans {base fairy done : Fairy} {instruments more : List Instrument}
    (h : Built base instruments fairy) (h' : Built fairy more done) : Built base (more ++ instruments) done := by
  refine ⟨h.session.trans h'.session, h'.config.trans h.config, ?_, ?_⟩
  · rw [h'.issued, h.issued, List.length_append, Nat.add_assoc]
  · rw [h'.history, h.history, List.append_assoc]

/-- Whatever was built before, the operation builds payloads for these instruments, and its result meets the
    condition. -/
def Builds {α : Type} (base : Fairy) (x : FairyAction α) (instruments : List Instrument) (Q : α → Prop) :
    Prop :=
  ∀ fairy built, Built base built fairy →
    Built base (instruments ++ built) (after x fairy) ∧ ∀ a done, x fairy = .ok a done → Q a

section

variable {α β : Type} {base fairy done : Fairy} {x : FairyAction α} {f : α → FairyAction β} {Q : α → Prop}
  {R : β → Prop} {instruments : List Instrument}

theorem after_of_ok {a : α} (h : x fairy = .ok a done) : after x fairy = done := by
  rw [after, h]

theorem after_of_error {e : FairyError} (h : x fairy = .error e done) : after x fairy = done := by
  rw [after, h]

theorem after_bind_of_ok {a : α} (h : x fairy = .ok a done) : after (x >>= f) fairy = after (f a) done := by
  rw [after, bind_of_ok h, after]

theorem after_bind_pure (x : FairyAction α) (f : α → β) (fairy : Fairy) :
    after (x >>= fun a => pure (f a)) fairy = after x fairy := by
  cases h : x fairy with
  | ok a done =>
    rw [after_bind_of_ok h, after_of_ok h]
    rfl
  | error e done => rw [after_of_error (bind_of_error h), after_of_error h]

/-- If the first operation builds, and the second does not, both do as the first. -/
theorem Builds.bind (hx : Builds base x instruments Q) (hf : ∀ a, Q a → Builds base (f a) [] R) :
    Builds base (x >>= f) instruments R := by
  intro fairy built hbuilt
  obtain ⟨hmid, hQ⟩ := hx fairy built hbuilt
  cases hrun : x fairy with
  | ok a mid =>
    rw [after_of_ok hrun] at hmid
    obtain ⟨hdone, hR⟩ := hf a (hQ a mid hrun) mid _ hmid
    rw [after_bind_of_ok hrun, bind_of_ok hrun]
    exact ⟨hdone, hR⟩
  | error e mid =>
    have hboth : (x >>= f) fairy = .error e mid := bind_of_error hrun
    rw [after_of_error hrun] at hmid
    rw [after_of_error hboth, hboth]
    exact ⟨hmid, fun _ _ h => by cases h⟩

theorem Builds.pure {a : α} (h : Q a) : Builds base (Pure.pure a) [] Q := by
  intro fairy built hbuilt
  refine ⟨hbuilt, ?_⟩
  rintro _ _ ⟨⟩
  exact h

/-- Of the fairy only the session is another one then. -/
theorem after_lift (x : Action TypedError α) (session : Session) (config : Walker) (book : InstrumentBook)
    (engine : Option Engine) : after (liftM x : FairyAction α) ⟨session, config, book, engine⟩
      = ⟨(x.outcome session).2, config, book, engine⟩ := by
  cases hrun : x session with
  | ok a done => rw [after_of_ok (lift_ok hrun), outcome_eq_ok_iff.2 hrun]
  | error e done => rw [after_of_error (lift_error hrun), outcome_eq_error_iff.2 hrun]

/-- What only adds to the session builds no payload. -/
theorem builds_lift {x : Action TypedError α} (h : Keeps base.session x Q) :
    Builds base (liftM x : FairyAction α) [] Q := by
  rintro ⟨session, config, book, engine⟩ built hbuilt
  obtain ⟨hext, hissued, hQ⟩ := h session hbuilt.session
  rw [after_lift]
  refine ⟨⟨hext, hbuilt.config, hissued.trans hbuilt.issued, hbuilt.history⟩, ?_⟩
  intro a done hdone
  cases hrun : x session with
  | ok b mid =>
    rw [lift_ok hrun] at hdone
    cases hdone
    exact hQ a (congrArg Prod.fst (outcome_eq_ok_iff.2 hrun))
  | error e mid =>
    rw [lift_error hrun] at hdone
    cases hdone

end

/-! ## Operations -/

/-- The instrument of a trigger, if it reads. -/
def instrumentOf? (session : Session) (trigger : Walker) : Option Instrument :=
  ((Trigger.instrument.fetch trigger).outcome session).1.toOption

/-- The instrument of the trigger that the configuration has, if it has one and its instrument reads. -/
def subscribed? (session : Session) (config : Walker) : Option Instrument :=
  ((FairyConfig.trigger.fetch config).outcome session).1.toOption.join.bind (instrumentOf? session)

/-- The instrument of the payload inside the first command, if that comes to its subscription. -/
def dustInstrument? (fd : Ranged .i32) (fairy : Fairy) : Option Instrument :=
  ((makeSend fairy.config fd >>= makeCommand fairy.config).outcome fairy.session).1.toOption.bind fun _ =>
    subscribed? fairy.session fairy.config

section

variable {base fairy : Fairy} {trigger : Walker}

theorem builds_nextPayload (hholds : base.session.registry.Holds fairyEntries) (instrument : Instrument) :
    Builds base (nextPayload instrument) [instrument] fun _ => True := by
  rintro ⟨session, config, book, engine⟩ built hbuilt
  have hregistered : session.registry.Registered Payload.schema :=
    (hholds.within hbuilt.session.registry).registered (by decide)
  rw [after_of_ok (nextPayload_eq hregistered instrument)]
  refine ⟨⟨hbuilt.session.trans ?_, hbuilt.config, ?_, ?_⟩, fun _ _ _ => trivial⟩
  · exact ⟨.refl _, List.prefix_append _ _⟩
  · show session.issued + 1 = (built.length + 1) + base.session.issued
    have hissued : session.issued = built.length + base.session.issued := hbuilt.issued
    omega
  · exact congrArg (instrument :: ·) hbuilt.history

/-- What reads in the base reads the same in between. -/
theorem Builds.fetch_ok {β : Type} {R : β → Prop} {field : FieldDecl} {owner : Walker}
    {f : field.kind.Carrier → FairyAction β} {instruments : List Instrument} {value : field.kind.Carrier}
    (hold : owner.store < base.session.stores.configs.length)
    (hread : ((field.fetch owner).outcome base.session).1 = .ok value)
    (hf : Builds base (f value) instruments R) :
    Builds base (liftM (field.fetch owner) >>= f) instruments R := by
  rintro ⟨session, config, book, engine⟩ built hbuilt
  have hfetch := hbuilt.session.outcome_fetch field hold
  rw [hread] at hfetch
  have hlift : (liftM (field.fetch owner) : FairyAction field.kind.Carrier) ⟨session, config, book, engine⟩
      = .ok value ⟨session, config, book, engine⟩ := lift_ok (outcome_eq_ok_iff.1 hfetch)
  rw [after_bind_of_ok hlift, bind_of_ok hlift]
  exact hf _ built hbuilt

theorem Builds.fetch_error {β : Type} {R : β → Prop} {field : FieldDecl} {owner : Walker}
    {f : field.kind.Carrier → FairyAction β} {e : TypedError}
    (hold : owner.store < base.session.stores.configs.length)
    (hread : ((field.fetch owner).outcome base.session).1 = .error e) :
    Builds base (liftM (field.fetch owner) >>= f) [] R := by
  rintro ⟨session, config, book, engine⟩ built hbuilt
  have hfetch := hbuilt.session.outcome_fetch field hold
  rw [hread] at hfetch
  have hboth : (liftM (field.fetch owner) >>= f) ⟨session, config, book, engine⟩
      = .error (.typed e) ⟨session, config, book, engine⟩ :=
    bind_of_error (lift_error (outcome_eq_error_iff.1 hfetch))
  rw [after_of_error hboth, hboth]
  exact ⟨hbuilt, fun _ _ h => by cases h⟩

/-- A subscription takes a payload for the instrument of its trigger, if that reads. -/
theorem builds_subscription (hholds : base.session.registry.Holds fairyEntries)
    (hold : trigger.store < base.session.stores.configs.length) :
    Builds base (subscription trigger) (instrumentOf? base.session trigger).toList fun _ => True := by
  rw [subscription_eq, instrumentOf?]
  cases hread : ((Trigger.instrument.fetch trigger).outcome base.session).1 with
  | error e => exact .fetch_error hold hread
  | ok instrument =>
    refine .fetch_ok hold hread ?_
    exact (builds_nextPayload hholds instrument).bind fun payload _ =>
      builds_lift (keeps_makeSubscription trigger payload)

/-- The subscription that is added to the first command is that of the configuration's trigger. -/
theorem builds_addSubscription (hholds : base.session.registry.Holds fairyEntries) {config dust : Walker}
    (hold : config.store < base.session.stores.configs.length)
    (hnew : base.session.stores.configs.length ≤ dust.store) :
    Builds base (addSubscription config dust) (subscribed? base.session config).toList fun _ => True := by
  rw [addSubscription, subscribed?]
  cases hread : ((FairyConfig.trigger.fetch config).outcome base.session).1 with
  | error e => exact .fetch_error hold hread
  | ok trigger? =>
    refine .fetch_ok hold hread ?_
    cases trigger? with
    | none => exact .pure trivial
    | some trigger =>
      have hreads : FairyConfig.trigger.Reads base.session config (some trigger) := by
        have hfetch := (Session.Extends.refl base.session).outcome_fetch FairyConfig.trigger hold
        rwa [hread] at hfetch
      have hstore : trigger.store = config.store :=
        (congrArg Walker.store (Option.some.inj (relocate_eq_of_reads hreads))).symm
      exact (builds_subscription hholds (hstore.symm ▸ hold)).bind fun subscription _ =>
        .bind (builds_lift (keeps_assign hnew Dust.subscription (some subscription))) fun _ _ => .pure trivial

theorem dust_eq_bind (fd : Ranged .i32) (fairy : Fairy) :
    dust fd fairy = ((liftM (makeSend fairy.config fd >>= makeCommand fairy.config) : FairyAction Walker) >>=
      addSubscription fairy.config) fairy := by
  rw [dust_eq, lift_bind, bind_assoc]
  rfl

/-- **The first command takes a payload if the configuration has a trigger**, whether or not the command is made
    in the end. -/
theorem built_dust (hholds : fairy.session.registry.Holds fairyEntries)
    (hold : fairy.config.store < fairy.session.stores.configs.length) (fd : Ranged .i32) :
    Built fairy (dustInstrument? fd fairy).toList (after (dust fd) fairy) := by
  obtain ⟨session, config, book, engine⟩ := fairy
  have hkeeps : Keeps session (makeSend config fd >>= makeCommand config)
      (session.stores.configs.length ≤ ·.store) :=
    .bind (keeps_makeSend config fd) fun send _ => keeps_makeCommand config send
  obtain ⟨hmade, hnew⟩ := builds_lift hkeeps _ _ (.refl ⟨session, config, book, engine⟩)
  rw [after, dust_eq_bind, ← after, dustInstrument?]
  cases hrun : (makeSend config fd >>= makeCommand config) session with
  | ok dust done =>
    have hlift : (liftM (makeSend config fd >>= makeCommand config) : FairyAction Walker)
        ⟨session, config, book, engine⟩ = .ok dust ⟨done, config, book, engine⟩ := lift_ok hrun
    rw [after_of_ok hlift] at hmade
    obtain ⟨hadded, -⟩ := builds_addSubscription hholds hold (hnew _ _ hlift) _ _ hmade
    rw [List.append_nil, List.append_nil] at hadded
    rw [after_bind_of_ok hlift, outcome_eq_ok_iff.2 hrun]
    exact hadded
  | error e done =>
    have hlift : (liftM (makeSend config fd >>= makeCommand config) : FairyAction Walker)
        ⟨session, config, book, engine⟩ = .error (.typed e) ⟨done, config, book, engine⟩ := lift_error hrun
    rw [after_of_error hlift] at hmade
    rw [after_of_error (bind_of_error hlift), outcome_eq_error_iff.2 hrun]
    exact hmade

/-- Whatever the engine answers, only the engine is another one then. -/
theorem builds_send (root : Walker) : Builds base (send root) [] fun _ => True := by
  rintro ⟨session, config, book, engine?⟩ built hbuilt
  cases engine? with
  | none => exact ⟨hbuilt, fun _ _ h => by cases h⟩
  | some engine =>
    cases hsend : engine.send session.stores root with
    | mk result engine' =>
      have hdone : after (send root) ⟨session, config, book, some engine⟩
          = ⟨session, config, book, some engine'⟩ := by
        cases result with
        | ok status => exact after_of_ok (send_of_ok hsend)
        | error e => exact after_of_error (send_of_error hsend)
      rw [hdone]
      exact ⟨⟨hbuilt.session, hbuilt.config, hbuilt.issued, hbuilt.history⟩, fun _ _ _ => trivial⟩

/-- A payload that is to be sent is built if there is an engine, whether or not it reads. -/
theorem built_sendPayload (hholds : fairy.session.registry.Holds fairyEntries) (instrument : Instrument) :
    Built fairy (fairy.engine.bind fun _ => some instrument).toList (after (sendPayload instrument) fairy) := by
  obtain ⟨session, config, book, engine?⟩ := fairy
  cases engine? with
  | none => exact .refl _
  | some engine =>
    have hsends : Builds ⟨session, config, book, some engine⟩ (nextPayload instrument >>= fun payload =>
        liftM (newUpdate instrument payload) >>= send) [instrument] fun _ => True :=
      (builds_nextPayload hholds instrument).bind fun payload _ =>
        (builds_lift (keeps_newUpdate instrument payload)).bind fun update _ => builds_send update
    rw [sendPayload, after_bind_of_ok runningEngine_eq]
    exact (hsends _ _ (.refl _)).1

/-- So is the payload inside a subscription. -/
theorem built_sendSubscribe (hholds : fairy.session.registry.Holds fairyEntries)
    (hold : trigger.store < fairy.session.stores.configs.length) :
    Built fairy (fairy.engine.bind fun _ => instrumentOf? fairy.session trigger).toList
      (after (sendSubscribe trigger) fairy) := by
  obtain ⟨session, config, book, engine?⟩ := fairy
  cases engine? with
  | none => exact .refl _
  | some engine =>
    have hcreate : newCommand Subscribe.schema session = .ok (session.newWalker 0 "entrypoint")
        (session.extended [Config.single "entrypoint" (Object.typed "subscribe")]) :=
      create_extended (hholds.registered (by decide)) "entrypoint"
    have hlift : (liftM (newCommand Subscribe.schema) : FairyAction Walker) ⟨session, config, book, some engine⟩
        = .ok _ _ := lift_ok hcreate
    have hmade : Built ⟨session, config, book, some engine⟩ []
        ⟨session.extended [Config.single "entrypoint" (Object.typed "subscribe")], config, book, some engine⟩ :=
      ⟨session.extends_extended _, rfl, (Nat.zero_add _).symm, rfl⟩
    have hsends : Builds ⟨session, config, book, some engine⟩ (subscription trigger >>= fun subscription =>
        liftM (Subscribe.subscription.assign (session.newWalker 0 "entrypoint") subscription) >>= fun _ =>
          send (session.newWalker 0 "entrypoint")) (instrumentOf? session trigger).toList fun _ => True :=
      (builds_subscription hholds hold).bind fun subscription _ =>
        (builds_lift (keeps_assign (Nat.le_refl _) Subscribe.subscription subscription)).bind fun _ _ =>
          builds_send _
    rw [sendSubscribe, after_bind_of_ok runningEngine_eq, after_bind_of_ok hlift]
    have hsent := (hsends _ _ hmade).1
    rw [List.append_nil] at hsent
    exact hsent

end

end Fairy

/-! ## Events -/

/-- What happens to a fairy while its engine runs. -/
inductive FairyEvent where
  /-- A frame arrives from the engine. -/
  | frame (body : ByteArray)
  /-- A payload is to be sent. -/
  | payload (instrument : Instrument)

/-- What comes of it. -/
inductive FairyAnswer where
  /-- A frame was looked at; whether the requests end. -/
  | handled (ends : Bool)
  | sent (status : SendStatus)
  deriving DecidableEq

/-- Deals with an event. A frame that holds no request is passed over. -/
def Fairy.handle : FairyEvent → FairyAction FairyAnswer
  | .frame body => do
    match ← request? body with
    | none => return .handled false
    | some request => return .handled (← onRequest request)
  | .payload instrument => return .sent (← sendPayload instrument)

/-- The instrument for which a frame asks a payload: it holds such a request, whose instrument reads. -/
def Frame.asked? (body : ByteArray) : Option Instrument :=
  match Frame.request? body with
  | some (.requestPayload, config) =>
    (RequestPayload.instrument.kind.read 0 config requestRoot RequestPayload.instrument.name).toOption
  | _ => none

/-- The instrument for which an event wants a payload, if it does. -/
def FairyEvent.instrument? : FairyEvent → Option Instrument
  | frame body => Frame.asked? body
  | payload instrument => some instrument

/-- What comes of an event while the engine is alive: a payload is written, and only a request to exit ends the
    requests. -/
def FairyEvent.answer : FairyEvent → FairyAnswer
  | frame body => .handled ((Frame.request? body).map Prod.fst = some .exit)
  | payload _ => .sent .written

namespace Fairy

open GraphWire.Action

section

variable {fairy : Fairy}

theorem exists_attempt_eq {α : Type} (x : FairyAction α) (fairy : Fairy) :
    ∃ result, attempt x fairy = .ok result (after x fairy) := by
  rw [attempt, after]
  cases x fairy with
  | ok a done => exact ⟨_, rfl⟩
  | error e done => exact ⟨_, rfl⟩

/-- A request to exit ends the requests; one for a payload leaves what comes of reading its instrument and
    sending the payload. -/
theorem onRequest_exit (walker : Walker) (fairy : Fairy) :
    onRequest ⟨.exit, walker⟩ fairy = .ok true fairy := rfl

theorem onRequest_payload (walker : Walker) (fairy : Fairy) :
    onRequest ⟨.requestPayload, walker⟩ fairy
      = .ok false (after (liftM (RequestPayload.instrument.fetch walker) >>= sendPayload) fairy) := by
  obtain ⟨result, hattempt⟩ :=
    exists_attempt_eq (liftM (RequestPayload.instrument.fetch walker) >>= sendPayload) fairy
  exact bind_of_ok hattempt

/-- **A frame has a payload sent, or it changes nothing but the session**, and that only grows. -/
theorem handle_frame (hholds : fairy.session.registry.Holds fairyEntries) (body : ByteArray) :
    ∃ arrived : Session, fairy.session.Extends arrived ∧ arrived.issued = fairy.session.issued ∧
      handle (.frame body) fairy = .ok (FairyEvent.frame body).answer
        (match Frame.asked? body with
        | none => { fairy with session := arrived }
        | some instrument => after (sendPayload instrument) { fairy with session := arrived }) := by
  obtain ⟨result, arrived, hresult, -, hrequest, hfound⟩ := Request.outcome_ofFrame body hholds.admits.messages
  obtain ⟨hext, hissued, -⟩ := keeps_ofFrame body fairy.session (.refl _)
  rw [hresult] at hext hissued
  refine ⟨arrived, hext, hissued, ?_⟩
  have hlook : request? body fairy = .ok result.toOption { fairy with session := arrived } := by
    rw [request?_eq]
    show EStateM.Result.ok ((Request.ofFrame body).outcome fairy.session).1.toOption
      { fairy with session := ((Request.ofFrame body).outcome fairy.session).2 } = _
    rw [hresult]
  rw [handle, bind_of_ok hlook, Frame.asked?, FairyEvent.answer, ← hrequest]
  cases result with
  | error e => rfl
  | ok request =>
    obtain ⟨kind, walker⟩ := request
    cases kind with
    | exit => exact bind_of_ok (onRequest_exit walker _)
    | requestPayload =>
      obtain ⟨hname, -⟩ := hfound _ rfl
      have hfetch := RequestPayload.instrument.fetch_eq walker arrived
      rw [hname, FieldKind.read_eq_of_plain rfl rfl walker.store 0] at hfetch
      refine (bind_of_ok (onRequest_payload walker _)).trans (congrArg (EStateM.Result.ok _) ?_)
      show _ = match (RequestPayload.instrument.kind.read 0 (arrived.contents walker) requestRoot
        RequestPayload.instrument.name).toOption with
        | none => { fairy with session := arrived }
        | some instrument => after (sendPayload instrument) { fairy with session := arrived }
      cases hread : RequestPayload.instrument.kind.read 0 (arrived.contents walker) requestRoot
          RequestPayload.instrument.name with
      | error e =>
        rw [hread] at hfetch
        exact after_of_error (bind_of_error (lift_error (outcome_eq_error_iff.1 hfetch)))
      | ok instrument =>
        rw [hread] at hfetch
        exact after_bind_of_ok (lift_ok (outcome_eq_ok_iff.1 hfetch))

/-- An event has a payload built if it wants one and there is an engine. -/
theorem built_handle (hholds : fairy.session.registry.Holds fairyEntries) (event : FairyEvent) :
    Built fairy (fairy.engine.bind fun _ => event.instrument?).toList (after (handle event) fairy) := by
  cases event with
  | frame body =>
    obtain ⟨arrived, hext, hissued, hhandle⟩ := handle_frame hholds body
    have harrived : Built fairy [] { fairy with session := arrived } :=
      ⟨hext, rfl, hissued.trans (Nat.zero_add _).symm, rfl⟩
    rw [after_of_ok hhandle, FairyEvent.instrument?]
    cases Frame.asked? body with
    | none =>
      rw [Option.bind_fun_none]
      exact harrived
    | some instrument =>
      have hsent := harrived.trans (built_sendPayload (hholds.within hext.registry) instrument)
      rw [List.append_nil] at hsent
      exact hsent
  | payload instrument =>
    rw [handle, after_bind_pure]
    exact built_sendPayload hholds instrument

end

end Fairy

/-! ## Courses -/

open Fairy GraphWire.Action

/-- **What a fairy has done so far**, with the instruments of the payloads that it has built, the last one
    first. It was made for a configuration. Since then it has made its first command, an engine was started or
    has ended, it has sent commands and dealt with events, in whatever order and whether or not that
    succeeded; and others may have used its session, who take back nothing. -/
inductive Course : Fairy → List Instrument → Prop where
  | new {session : Session} {config : Walker} (registered : session.registry.Holds fairyEntries)
      (there : config.store < session.stores.configs.length) : Course (.new session config) []
  | others {fairy : Fairy} {built : List Instrument} (course : Course fairy built) {session : Session}
      (registry : fairy.session.registry.Within session.registry)
      (stores : fairy.session.stores.configs.length ≤ session.stores.configs.length)
      (issued : fairy.session.issued ≤ session.issued) : Course { fairy with session } built
  | engine {fairy : Fairy} {built : List Instrument} (course : Course fairy built) (engine? : Option Engine) :
      Course { fairy with engine := engine? } built
  | dust {fairy : Fairy} {built : List Instrument} (course : Course fairy built) (fd : Ranged .i32) :
      Course (after (Fairy.dust fd) fairy) ((dustInstrument? fd fairy).toList ++ built)
  | send {fairy : Fairy} {built : List Instrument} (course : Course fairy built) (root : Walker) :
      Course (after (Fairy.send root) fairy) built
  | subscribe {fairy : Fairy} {built : List Instrument} (course : Course fairy built) {trigger : Walker}
      (there : trigger.store < fairy.session.stores.configs.length) :
      Course (after (sendSubscribe trigger) fairy)
        ((fairy.engine.bind fun _ => instrumentOf? fairy.session trigger).toList ++ built)
  | event {fairy : Fairy} {built : List Instrument} (course : Course fairy built) (event : FairyEvent) :
      Course (after (handle event) fairy) ((fairy.engine.bind fun _ => event.instrument?).toList ++ built)

namespace Fairy

/-- What is known of a fairy after a course. -/
structure Sound (fairy : Fairy) (built : List Instrument) : Prop where
  registered : fairy.session.registry.Holds fairyEntries
  config : fairy.config.store < fairy.session.stores.configs.length
  issued : built.length ≤ fairy.session.issued
  history : fairy.book.history = built

theorem Sound.built {fairy done : Fairy} {built more : List Instrument} (h : fairy.Sound built)
    (hmore : fairy.Built more done) : done.Sound (more ++ built) := by
  refine ⟨h.registered.within hmore.session.registry, ?_, ?_, ?_⟩
  · rw [hmore.config]
    exact Nat.lt_of_lt_of_le h.config hmore.session.length_le
  · rw [hmore.issued, List.length_append]
    exact Nat.add_le_add_left h.issued _
  · rw [hmore.history, h.history]

end Fairy

/-- **The book lists the payloads that were built**, and nothing else. -/
theorem Course.sound {fairy : Fairy} {built : List Instrument} (h : Course fairy built) :
    fairy.Sound built := by
  -- each operation builds what the course says, on top of what was built before
  induction h with
  | new registered there => exact ⟨registered, there, Nat.zero_le _, rfl⟩
  | others course registry stores issued ih =>
    exact ⟨ih.registered.within registry, Nat.lt_of_lt_of_le ih.config stores,
      Nat.le_trans ih.issued issued, ih.history⟩
  | engine course engine? ih => exact ⟨ih.registered, ih.config, ih.issued, ih.history⟩
  | dust course fd ih => exact ih.built (built_dust ih.registered ih.config fd)
  | send course root ih => exact ih.built (builds_send root _ _ (.refl _)).1
  | subscribe course there ih => exact ih.built (built_sendSubscribe ih.registered there)
  | event course event ih => exact ih.built (built_handle ih.registered event)

/-! ### Whole operations -/

namespace Fairy

/-- Whatever a fairy has done, it may do this next. -/
def Continues {α : Type} (x : FairyAction α) : Prop :=
  ∀ fairy built, Course fairy built → ∃ more, Course (after x fairy) (more ++ built)

section

variable {α β : Type} {x : FairyAction α} {f : α → FairyAction β}

theorem Continues.bind (hx : Continues x) (hf : ∀ a, Continues (f a)) : Continues (x >>= f) := by
  intro fairy built h
  obtain ⟨more, hmid⟩ := hx fairy built h
  cases hrun : x fairy with
  | ok a mid =>
    rw [after_of_ok hrun] at hmid
    obtain ⟨further, hdone⟩ := hf a mid _ hmid
    rw [after_bind_of_ok hrun]
    exact ⟨further ++ more, by rwa [List.append_assoc]⟩
  | error e mid =>
    rw [after_of_error hrun] at hmid
    rw [after_of_error (bind_of_error hrun)]
    exact ⟨more, hmid⟩

theorem continues_of_same (h : ∀ fairy, after x fairy = fairy) : Continues x := by
  intro fairy built hcourse
  rw [h]
  exact ⟨[], hcourse⟩

theorem continues_setEngine (engine? : Option Engine) :
    Continues (modify fun fairy : Fairy => { fairy with engine := engine? }) :=
  fun _ _ h => ⟨[], h.engine engine?⟩

theorem continues_runningEngine : Continues runningEngine :=
  continues_of_same fun ⟨_, _, _, engine?⟩ => by cases engine? <;> rfl

theorem continues_lift {x : Action TypedError α} {Q : Session → α → Prop} (h : ∀ base, Keeps base x (Q base)) :
    Continues (liftM x : FairyAction α) := by
  rintro ⟨session, config, book, engine⟩ built hcourse
  obtain ⟨hbuilt, -⟩ := builds_lift (h session) _ _ (.refl ⟨session, config, book, engine⟩)
  rw [after_lift] at hbuilt ⊢
  exact ⟨[], hcourse.others hbuilt.session.registry hbuilt.session.length_le
    (Nat.le_of_eq (hbuilt.issued.trans (Nat.zero_add _)).symm)⟩

end

/-- Requests are served by dealing with one frame after another, until one ends them. -/
theorem serve_cons (body : ByteArray) (bodies : List ByteArray) :
    (serve request? onRequest (body :: bodies) : FairyAction ServeEnd)
      = handle (.frame body) >>= fun answer =>
        if answer = .handled true then pure .handled else serve request? onRequest bodies := by
  rw [serve, handle, bind_assoc]
  refine bind_congr fun found => ?_
  cases found with
  | none => rfl
  | some request =>
    rw [bind_assoc]
    refine bind_congr fun ends => ?_
    cases ends <;> rfl

theorem continues_serve (bodies : List ByteArray) :
    Continues (serve request? onRequest bodies : FairyAction ServeEnd) := by
  induction bodies with
  | nil => exact continues_of_same fun _ => rfl
  | cons body bodies ih =>
    rw [serve_cons]
    refine .bind (fun _ _ h => ⟨_, h.event _⟩) fun answer => ?_
    split
    · exact continues_of_same fun _ => rfl
    · exact ih

/-- **A fairy that was started has a course**, and what it does after that continues it. -/
theorem continues_start (behaviour : Behaviour) (fd : Ranged .i32) : Continues (start behaviour fd) := by
  refine .bind (fun _ _ h => ⟨_, h.dust fd⟩) fun dust => ?_
  refine .bind (continues_of_same fun _ => rfl) fun fairy => ?_
  refine .bind (continues_lift fun _ => keeps_fetch _ _) fun executable => ?_
  have hlaunch : Continues (liftM (Action.ofExcept (Engine.launch behaviour (.shell executable)) :
      Action WireError Engine) : FairyAction Engine) :=
    continues_of_same fun _ => by cases Engine.launch behaviour (.shell executable) <;> rfl
  have hsend : Continues (attempt (send dust)) := by
    intro fairy built h
    obtain ⟨result, hattempt⟩ := exists_attempt_eq (send dust) fairy
    rw [after_of_ok hattempt]
    exact ⟨[], h.send dust⟩
  refine hlaunch.bind fun engine => .bind (continues_setEngine (some engine)) fun _ => ?_
  refine hsend.bind fun result => ?_
  cases result with
  | error e => exact .bind (continues_setEngine none) fun _ => continues_of_same fun _ => rfl
  | ok status =>
    refine .bind (continues_serve engine.frames) fun served => continues_runningEngine.bind fun engine => ?_
    exact .bind (continues_setEngine _) fun _ => continues_of_same fun _ => rfl

theorem continues_send (root : Walker) : Continues (send root) := fun _ _ h => ⟨[], h.send root⟩

theorem continues_sendUnsubscribe (instrument : Instrument) : Continues (sendUnsubscribe instrument) :=
  continues_runningEngine.bind fun _ =>
    .bind (continues_lift fun _ => keeps_newUnsubscribe instrument) fun command => continues_send command

theorem continues_run : Continues run :=
  continues_runningEngine.bind fun _ => .bind (continues_setEngine _) fun _ => continues_of_same fun _ => rfl

theorem continues_quit : Continues quit := by
  refine continues_runningEngine.bind fun _ => ?_
  refine .bind (continues_lift fun _ => keeps_create _ _) fun command => ?_
  refine .bind (continues_send command) fun _ => continues_runningEngine.bind fun engine => ?_
  exact .bind (continues_setEngine _) fun _ => continues_of_same fun _ => rfl

end Fairy

end GraphWire
