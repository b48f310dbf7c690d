import GraphWire.Fairy.Basic
import GraphWire.Proofs.Growth
import GraphWire.Proofs.Messages
import GraphWire.Proofs.Reading

/-!
# `Proofs.Requests` — every request is handed over, once and in order

What the engine writes is taken apart into frames, and a frame is a request if it is text, describes a
configuration, and has an object `request` that is stamped as one. The handler is called with these and with
no others, each with the configuration of its own frame, until it wants no more. A frame that is no request
may leave something behind in the session, but nothing that a later request could be read from, and so the
calls depend on the stream alone. They are recorded by the handler itself, which may do anything besides but
take back schemas that are registered.

## Contents
- **Schemas.** `Registry.Holds.within`, what is registered stays.
- **Single frames.** `Frame.request?`, the request that a frame holds, **`RequestKind.outcome_ofWalker`** and
  **`Request.outcome_ofFrame`**.
- **Handlers.** `SessionIn`, a state with a session, `SessionIn.request?`, and `recorded`.
- **The loop.** `serve_passed_over`, `serve_handled` and `serve_goes_on`, what one frame does; `Serves`, what a
  loop has done, **`serves_serve`**, and **`serve_delivers_requests`**.
-/

namespace GraphWire

/-! ## Schemas -/

theorem Registry.Holds.within {registry later : Registry} {known : List SchemaEntry}
    (h : registry.Holds known) (hlater : registry.Within later) : later.Holds known :=
  fun e he => hlater _ _ (h e he)

/-! ## Single frames -/

/-- The kind of request that is stamped with the tag. -/
def RequestKind.ofTag? (tag : String) : Option RequestKind :=
  RequestKind.all.find? fun kind => kind.schema.tag = tag

/-- The request that a frame holds: its bytes are text, the text describes a configuration, and the object
    `request` of that is stamped as a request. -/
def Frame.request? (body : ByteArray) : Option (RequestKind × Config) := do
  let config ← (Frame.config body).toOption
  let tag ← config.typeTag? requestRoot
  let kind ← RequestKind.ofTag? tag
  return (kind, config)

theorem RequestKind.tag_of_ofTag? {tag : String} {kind : RequestKind} (h : RequestKind.ofTag? tag = some kind) :
    kind.schema.tag = tag := by
  have htag := List.find?_some (p := fun kind : RequestKind => decide (kind.schema.tag = tag)) h
  exact of_decide_eq_true htag

/-- The tag of a request is registered, and assignable to that of all requests. -/
theorem Registry.Holds.resolve_request {registry : Registry} (h : registry.Holds messageEntries)
    {config : Config} {name : String} {kind : RequestKind}
    (htag : config.typeTag? name = some kind.schema.tag) :
    registry.resolve config name requestSchema.tag = .ok kind.schema.tag := by
  have hschema : kind.schema ∈ messageSchemas := by cases kind <;> decide
  have hentry : registry.get? kind.schema.tag = some kind.schema.entry :=
    h _ (List.mem_flatMap.2 ⟨kind.schema, hschema, Registry.entry_mem_entries _⟩)
  have hparent : registry.parentOf? kind.schema.tag = some requestSchema.tag := by
    rw [Registry.parentOf?, hentry]
    cases kind <;> rfl
  exact Registry.resolve_eq_ok_iff.2 ⟨htag, SortedMap.contains_iff.2 ⟨_, hentry⟩,
    Registry.isAssignable_of_parentOf? hparent⟩

/-- **A request is known by the tag of its object**, and by nothing else; what is not stamped as a request is
    an error. -/
theorem RequestKind.outcome_ofWalker {session : Session} (walker : Walker)
    (hadmits : session.registry.Admits messageEntries) :
    ∃ (result : Except TypedError RequestKind) (registry : Registry),
      (RequestKind.ofWalker walker).outcome session = (result, { session with registry }) ∧
      registry.Holds messageEntries ∧
      result.toOption = (Config.typeTag? (session.contents walker) walker.name).bind RequestKind.ofTag? := by
  obtain ⟨registry, hregister, hholds⟩ := registerMessages_holds (ε := TypedError) hadmits
  have houtcome := requestSchema.resolve_eq walker { session with registry }
  rw [ofWalker]
  cases hresolve : registry.resolve (session.contents walker) walker.name requestSchema.tag with
  | ok tag =>
    obtain ⟨htag, -, -⟩ := Registry.resolve_eq_ok_iff.1 hresolve
    have hok : requestSchema.resolve walker { session with registry } = .ok tag { session with registry } :=
      Action.outcome_eq_ok_iff.1 (houtcome.trans (congrArg (·, _) hresolve))
    rw [Action.outcome, bind_of_ok hregister, bind_of_ok hok, htag, Option.bind_some]
    rw [RequestKind.ofTag?]
    cases RequestKind.all.find? fun kind => kind.schema.tag = tag with
    | some kind => exact ⟨.ok kind, registry, rfl, hholds, rfl⟩
    | none => exact ⟨.error (.unknownType tag), registry, rfl, hholds, rfl⟩
  | error e =>
    have herror : requestSchema.resolve walker { session with registry } = .error e { session with registry } :=
      Action.outcome_eq_error_iff.1 (houtcome.trans (congrArg (·, _) hresolve))
    refine ⟨.error e, registry, ?_, hholds, ?_⟩
    · rw [Action.outcome, bind_of_ok hregister, bind_of_error herror]
    · -- the tag of a request would have been resolved
      symm
      rw [Except.toOption, Option.bind_eq_none_iff]
      intro tag htag
      cases hkind : RequestKind.ofTag? tag with
      | none => rfl
      | some kind =>
        rw [← RequestKind.tag_of_ofTag? hkind] at htag
        rw [hholds.resolve_request htag] at hresolve
        cases hresolve

/-- **What a frame holds is what is made of it**: a walker at the object `request` of a store of its own, with
    the configuration that the frame describes. -/
theorem Request.outcome_ofFrame (body : ByteArray) {session : Session}
    (hadmits : session.registry.Admits messageEntries) :
    ∃ (result : Except WireError Request) (after : Session),
      (Request.ofFrame body).outcome session = (result, after) ∧
      after.registry.Admits messageEntries ∧
      result.toOption.map (fun request => (request.kind, after.contents request.walker)) = Frame.request? body ∧
      ∀ request, result = .ok request →
        request.walker.name = requestRoot ∧ after.registry.Holds messageEntries := by
  rw [ofFrame, Frame.request?]
  cases hconfig : Frame.config body with
  | error e =>
    have herror : Frame.walker body requestRoot session = .error e session := by
      rw [Frame.walker, hconfig]
      rfl
    refine ⟨.error e, session, ?_, hadmits, rfl, fun request h => by cases h⟩
    rw [Action.outcome, bind_of_error herror]
  | ok config =>
    obtain ⟨walker, arrived, hwalker, hname, hcontents, hregistry⟩ :=
      Frame.outcome_walker hconfig requestRoot session
    obtain ⟨result, registry, hresult, hholds, hkind⟩ :=
      RequestKind.outcome_ofWalker walker (hregistry ▸ hadmits)
    rw [hcontents, hname] at hkind
    rw [Action.outcome, bind_of_ok (Action.outcome_eq_ok_iff.1 hwalker)]
    cases result with
    | error e =>
      have herror : (liftM (RequestKind.ofWalker walker) : Action WireError RequestKind) arrived
          = .error (.typed e) { arrived with registry } :=
        Action.mapError_of_error (Action.outcome_eq_error_iff.1 hresult)
      refine ⟨.error (.typed e), { arrived with registry }, ?_, hholds.admits, ?_, fun request h => by cases h⟩
      · rw [bind_of_error herror]
      · show none = (config.typeTag? requestRoot).bind fun tag => (RequestKind.ofTag? tag).bind _
        rw [← Option.bind_assoc, ← hkind]
        rfl
    | ok kind =>
      have hok : (liftM (RequestKind.ofWalker walker) : Action WireError RequestKind) arrived
          = .ok kind { arrived with registry } :=
        Action.mapError_of_ok (Action.outcome_eq_ok_iff.1 hresult)
      refine ⟨.ok ⟨kind, walker⟩, { arrived with registry }, ?_, hholds.admits, ?_, ?_⟩
      · rw [bind_of_ok hok]
        rfl
      · show some (kind, arrived.contents walker)
          = (config.typeTag? requestRoot).bind fun tag => (RequestKind.ofTag? tag).bind _
        rw [← Option.bind_assoc, ← hkind, hcontents]
        rfl
      · rintro request ⟨⟩
        exact ⟨hname, hholds⟩

/-! ## Handlers -/

/-- A state in which there is a session. -/
structure SessionIn (σ : Type) where
  get : σ → Session
  set : Session → σ → σ
  get_set : ∀ session state, get (set session state) = session

namespace SessionIn

variable {ε σ : Type}

/-- The same session, with something beside the state. -/
def beside (place : SessionIn σ) (τ : Type) : SessionIn (σ × τ) :=
  ⟨fun state => place.get state.1, fun session state => (place.set session state.1, state.2),
    fun session state => place.get_set session state.1⟩

/-- Looks in the session for the request that a frame holds. -/
def request? (place : SessionIn σ) (body : ByteArray) : EStateM ε σ (Option Request) := fun state =>
  .ok ((Request.ofFrame body).outcome (place.get state)).1.toOption
    (place.set ((Request.ofFrame body).outcome (place.get state)).2 state)

theorem request?_of_outcome {place : SessionIn σ} {body : ByteArray} {state : σ}
    {result : Except WireError Request} {after : Session}
    (h : (Request.ofFrame body).outcome (place.get state) = (result, after)) :
    (place.request? body : EStateM ε σ (Option Request)) state
      = .ok result.toOption (place.set after state) := by
  rw [request?, h]

/-- The session of a fairy. -/
def fairy : SessionIn Fairy :=
  ⟨Fairy.session, fun session fairy => { fairy with session }, fun _ _ => rfl⟩

end SessionIn

/-- A fairy looks for requests in its session. -/
theorem Fairy.request?_eq (body : ByteArray) : Fairy.request? body = SessionIn.fairy.request? body := by
  funext fairy
  have hsession : SessionIn.fairy.get fairy = fairy.session := rfl
  have hlift : (liftM (Request.ofFrame body : Action WireError Request) : FairyAction Request) fairy
      = onSession .wire (Request.ofFrame body) fairy := rfl
  show EStateM.bind (attempt (liftM (Request.ofFrame body : Action WireError Request))) _ fairy = _
  rw [EStateM.bind, attempt, hlift, onSession, SessionIn.request?, Action.outcome, hsession]
  cases Request.ofFrame body fairy.session <;> rfl

/-- A handler that answers in every state, as an operation. -/
def answering {ε σ : Type} (handle : Request → σ → Bool × σ) (request : Request) : EStateM ε σ Bool :=
  fun state => .ok (handle request state).1 (handle request state).2

/-- The handler, which now also records with what it was called, and in which state. -/
def recorded {σ : Type} (handle : Request → σ → Bool × σ) (request : Request)
    (state : σ × List (Request × σ)) : Bool × (σ × List (Request × σ)) :=
  ((handle request state.1).1, (handle request state.1).2, state.2 ++ [(request, state.1)])

/-- The handler takes back no schema that is registered. -/
def KeepsSchemas {σ : Type} (place : SessionIn σ) (handle : Request → σ → Bool × σ) : Prop :=
  ∀ request state, (place.get state).registry.Within (place.get (handle request state).2).registry

/-! ## The loop -/

/-! ### One frame -/

section

variable {ε σ : Type} {look : ByteArray → EStateM ε σ (Option Request)} {act : Request → EStateM ε σ Bool}
  {body : ByteArray} {request : Request} {state found answered : σ}

theorem serve_passed_over (hlook : look body state = .ok none found) (bodies : List ByteArray) :
    serve look act (body :: bodies) state = serve look act bodies found := by
  rw [serve, bind_of_ok hlook]

theorem serve_handled (hlook : look body state = .ok (some request) found)
    (hact : act request found = .ok true answered) (bodies : List ByteArray) :
    serve look act (body :: bodies) state = .ok .handled answered := by
  rw [serve, bind_of_ok hlook]
  exact bind_of_ok hact

theorem serve_goes_on (hlook : look body state = .ok (some request) found)
    (hact : act request found = .ok false answered) (bodies : List ByteArray) :
    serve look act (body :: bodies) state = serve look act bodies answered := by
  rw [serve, bind_of_ok hlook]
  exact bind_of_ok hact

end

/-! ### All frames -/

section

variable {ε σ : Type} {place : SessionIn σ} {handle : Request → σ → Bool × σ}

/-- The calls of a handler are those of the first requests, in order; none but the last was answered with
    true, and the loop ended because of that answer or because there were no more requests. -/
structure Serves (place : SessionIn σ) (handle : Request → σ → Bool × σ)
    (requests : List (RequestKind × Config)) (calls : List (Request × σ)) (ending : ServeEnd) : Prop where
  requests : ∃ rest, requests = calls.map (fun (request, state) =>
    (request.kind, (place.get state).contents request.walker)) ++ rest ∧ (ending = .closed → rest = [])
  name : ∀ call ∈ calls, call.1.walker.name = requestRoot
  answer : ∀ call ∈ calls.dropLast, (handle call.1 call.2).1 = false
  ending : ending = .handled ↔ ∃ call ∈ calls, (handle call.1 call.2).1 = true

theorem Serves.nothing : Serves place handle [] [] .closed := by
  refine ⟨⟨[], rfl, fun _ => rfl⟩, fun _ h => absurd h List.not_mem_nil,
    fun _ h => absurd h List.not_mem_nil, ?_⟩
  constructor
  · intro h
    cases h
  · rintro ⟨_, hmem, -⟩
    cases hmem

/-- The handler answers the first request with true. -/
theorem Serves.handled {request : Request} {state : σ} (hname : request.walker.name = requestRoot)
    (htrue : (handle request state).1 = true) (rest : List (RequestKind × Config)) :
    Serves place handle ((request.kind, (place.get state).contents request.walker) :: rest)
      [(request, state)] .handled := by
  refine ⟨⟨rest, rfl, fun h => nomatch h⟩, ?_, fun _ h => absurd h List.not_mem_nil, ?_⟩
  · intro call hmem
    rw [List.mem_singleton.1 hmem]
    exact hname
  · exact ⟨fun _ => ⟨_, List.mem_cons_self, htrue⟩, fun _ => rfl⟩

/-- The handler answers the first request with false, and then serves the others. -/
theorem Serves.passed {request : Request} {state : σ} {rest : List (RequestKind × Config)}
    {calls : List (Request × σ)} {ending : ServeEnd} (hname : request.walker.name = requestRoot)
    (hfalse : (handle request state).1 = false) (h : Serves place handle rest calls ending) :
    Serves place handle ((request.kind, (place.get state).contents request.walker) :: rest)
      ((request, state) :: calls) ending := by
  obtain ⟨⟨others, hothers, hclosed⟩, hnames, hanswers, hending⟩ := h
  refine ⟨⟨others, by rw [hothers]; rfl, hclosed⟩, List.forall_mem_cons.2 ⟨hname, hnames⟩, ?_, ?_⟩
  · intro call hmem
    cases calls with
    | nil => cases hmem
    | cons next calls =>
      rcases List.mem_cons.1 hmem with rfl | hmem
      · exact hfalse
      · exact hanswers call hmem
  · rw [hending]
    constructor
    · rintro ⟨call, hmem, htrue⟩
      exact ⟨call, List.mem_cons_of_mem _ hmem, htrue⟩
    · rintro ⟨call, hmem, htrue⟩
      rcases List.mem_cons.1 hmem with rfl | hmem
      · rw [hfalse] at htrue
        cases htrue
      · exact ⟨call, hmem, htrue⟩

/-- **The loop serves the requests that the frames hold**, whatever other frames there are and whatever they
    leave in the session. -/
theorem serves_serve (hkeeps : KeepsSchemas place handle) (bodies : List ByteArray) {state : σ}
    (hadmits : (place.get state).registry.Admits messageEntries) (earlier : List (Request × σ)) :
    ∃ ending after calls,
      (serve place.request? (answering handle) bodies : EStateM ε σ ServeEnd) state = .ok ending after ∧
      (serve (place.beside (List (Request × σ))).request? (answering (recorded handle)) bodies :
        EStateM ε (σ × List (Request × σ)) ServeEnd) (state, earlier) = .ok ending (after, earlier ++ calls) ∧
      Serves place handle (bodies.filterMap Frame.request?) calls ending := by
  induction bodies generalizing state earlier with
  | nil =>
    refine ⟨.closed, state, [], rfl, ?_, .nothing⟩
    rw [List.append_nil]
    rfl
  | cons body bodies ih =>
    obtain ⟨result, session, hresult, hadmits', hrequest, hfound⟩ := Request.outcome_ofFrame body hadmits
    have hget := place.get_set session state
    have hone : (place.request? body : EStateM ε σ (Option Request)) state
        = .ok result.toOption (place.set session state) := SessionIn.request?_of_outcome hresult
    have hboth : ((place.beside (List (Request × σ))).request? body :
        EStateM ε (σ × List (Request × σ)) (Option Request)) (state, earlier)
        = .ok result.toOption (place.set session state, earlier) := SessionIn.request?_of_outcome hresult
    rw [← hget] at hadmits'
    rw [List.filterMap_cons, ← hrequest]
    cases result with
    | error e =>
      obtain ⟨ending, after, calls, hserve, hrecord, hserves⟩ := ih hadmits' earlier
      exact ⟨ending, after, calls, (serve_passed_over hone bodies).trans hserve,
        (serve_passed_over hboth bodies).trans hrecord, hserves⟩
    | ok request =>
      obtain ⟨hname, hholds⟩ := hfound request rfl
      rw [← hget] at hholds ⊢
      generalize place.set session state = state at hone hboth hholds ⊢
      have hanswer : (answering handle request : EStateM ε σ Bool) state
          = .ok (handle request state).1 (handle request state).2 := rfl
      have hrecorded : (answering (recorded handle) request : EStateM ε (σ × List (Request × σ)) Bool)
          (state, earlier) = .ok (handle request state).1
            ((handle request state).2, earlier ++ [(request, state)]) := rfl
      cases htrue : (handle request state).1 with
      | true =>
        rw [htrue] at hanswer hrecorded
        exact ⟨.handled, (handle request state).2, [(request, state)], serve_handled hone hanswer bodies,
          serve_handled hboth hrecorded bodies, .handled hname htrue _⟩
      | false =>
        rw [htrue] at hanswer hrecorded
        have hlater : (place.get (handle request state).2).registry.Admits messageEntries :=
          (hholds.within (hkeeps request state)).admits
        obtain ⟨ending, after, calls, hserve, hrecord, hserves⟩ := ih hlater (earlier ++ [(request, state)])
        rw [List.append_assoc] at hrecord
        exact ⟨ending, after, (request, state) :: calls, (serve_goes_on hone hanswer bodies).trans hserve,
          (serve_goes_on hboth hrecorded bodies).trans hrecord, hserves.passed hname htrue⟩

/-- **Every request is handed over, once and in order.** Let an engine that keeps running write a stream whose
    parts and whose rest are within the limit, in any pieces, and let a handler serve its requests that takes
    back no schema. The frames are those of the stream. The loop ends, whether or not the calls are recorded,
    and they are those of the frames that hold a request, each with the configuration of its own frame, in
    order, up to the first that is answered with true. -/
theorem serve_delivers_requests {engine : Engine} (hrunning : engine.behaviour.isDead = false)
    (hfits : Split.Fits (octets (joined engine.behaviour.output))) (hkeeps : KeepsSchemas place handle)
    {state : σ} (hadmits : (place.get state).registry.Admits messageEntries) :
    engine.frames.map octets = Split.frames (octets (joined engine.behaviour.output)) ∧
    ∃ ending after calls,
      (serve place.request? (answering handle) engine.frames : EStateM ε σ ServeEnd) state
        = .ok ending after ∧
      (serve (place.beside (List (Request × σ))).request? (answering (recorded handle)) engine.frames :
        EStateM ε (σ × List (Request × σ)) ServeEnd) (state, []) = .ok ending (after, calls) ∧
      Serves place handle (engine.frames.filterMap Frame.request?) calls ending := by
  have hframes : engine.frames = Decoder.fresh.readStream engine.behaviour.output := by
    rw [Engine.frames, hrunning]
    rfl
  rw [octets_joined] at hfits ⊢
  refine ⟨?_, serves_serve hkeeps engine.frames hadmits []⟩
  rw [hframes]
  exact Decoder.readStream_of_fits (Decoder.resumable_ofBytes .empty) (Split.cut?_of_no_feed List.not_mem_nil)
    hfits

/-- A request that is cut in two, a frame that describes nothing, one that is no text, one that is stamped as
    something else, the request to end, and an unfinished frame. -/
def noisyEngine : Engine :=
  ⟨⟨["request.type <- 'request_p".toUTF8, "ayload';\nrequest.instrument <- 7;\n\nnoise\n".toUTF8,
    ⟨#[10, 0xff, 10, 10]⟩, "request.type <- 'other';\n\nrequest.type <- 'exit';\n\nrequest.ty".toUTF8],
    0, false, false⟩, .opened, none⟩

/-- A handler that does nothing, and answers with true when it is asked to end. -/
def untilExit (request : Request) (fairy : Fairy) : Bool × Fairy := (request.kind = .exit, fairy)

/-- The request to end is handed over among all the other frames. -/
theorem serve_delivers_noisy :
    ∃ after, serve Fairy.request? (answering untilExit) noisyEngine.frames
      (Fairy.new .fresh ⟨0, "config"⟩) = .ok .handled after := by
  have hfits : Split.Fits (octets (joined noisyEngine.behaviour.output)) :=
    ⟨by decide +kernel, by decide +kernel⟩
  have hkeeps : KeepsSchemas .fairy untilExit := fun _ fairy => Registry.Within.refl fairy.session.registry
  have hadmits : (SessionIn.fairy.get (Fairy.new .fresh ⟨0, "config"⟩)).registry.Admits messageEntries := by
    intro e _ holder hget
    cases hget
  have hrunning : noisyEngine.behaviour.isDead = false := rfl
  obtain ⟨hframes, ending, after, calls, hserve, -, hserves⟩ :=
    serve_delivers_requests (ε := FairyError) hrunning hfits hkeeps hadmits
  have hexit : ∃ config, (RequestKind.exit, config) ∈ noisyEngine.frames.filterMap Frame.request? := by
    have hmem : octets "request.type <- 'exit';\n".toUTF8 ∈ noisyEngine.frames.map octets := by
      rw [hframes]
      decide +kernel
    obtain ⟨body, hbody, hoctets⟩ := List.mem_map.1 hmem
    cases octets_injective hoctets
    have hrequest : (Frame.request? "request.type <- 'exit';\n".toUTF8).map Prod.fst = some .exit := by
      decide +kernel
    obtain ⟨⟨kind, config⟩, hfound, rfl⟩ := Option.map_eq_some_iff.1 hrequest
    exact ⟨config, List.mem_filterMap.2 ⟨_, hbody, hfound⟩⟩
  have hhandled : ending = .handled := by
    cases hclosed : ending with
    | handled => rfl
    | closed =>
      -- then that request was handed over as well, and answered with true
      obtain ⟨config, hexit⟩ := hexit
      obtain ⟨rest, hrequests, hrest⟩ := hserves.requests
      rw [hrequests, hrest hclosed, List.append_nil] at hexit
      obtain ⟨call, hcall, hkind⟩ := List.mem_map.1 hexit
      have htrue : (untilExit call.1 call.2).1 = true := decide_eq_true (Prod.mk.inj hkind).1
      rw [← hclosed]
      exact hserves.ending.2 ⟨call, hcall, htrue⟩
  have hsame : Fairy.request? = SessionIn.fairy.request? := funext Fairy.request?_eq
  rw [hsame]
  exact ⟨after, hhandled ▸ hserve⟩

end

end GraphWire
