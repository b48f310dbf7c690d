import GraphWire.Proofs.Encoding
import GraphWire.Proofs.Messages
import GraphWire.Wire.Link
import Mathlib.Data.List.Forall2

/-!
# `Proofs.Sending` — only whole frames reach the engine

Commands are sent one after another while the engine may stop reading or exit and the parent may close the
line, in any order. Each send either adds one whole frame to what was written or adds nothing, so at every
moment the engine has received one frame for each send that was answered with `written`, in order, and
nothing else. A send that fails because of its text leaves the line as it was. Once the line is shut it
remains so, and a send that is dropped shuts it or finds it shut.

## Contents
- **Events.** `LinkEvent`, `Link.step` and `Link.run`, with `Link.run_append`.
- **Single sends.** `Link.send_cases`, all that a send can do, and `frame_of_marshal`, what it writes.
- **Runs.** `Link.WroteFrames`, which a step keeps, and `Link.IsShut`, which no step ends.
- **`link_writes_whole_frames`**.
-/

namespace GraphWire

/-! ## Events -/

/-- What happens on the line to the engine. -/
inductive LinkEvent where
  /-- Everything that the root leads to is sent. -/
  | send (config : Config) (root : String)
  /-- The parent closes the line. -/
  | close
  /-- The engine stops reading; writes fail from here on. -/
  | hangUp
  /-- It becomes known how the engine ended. -/
  | exited (status : ExitStatus)

/-- A send that was made, with its answer. -/
structure Sending where
  config : Config
  root : String
  answer : Except WireError SendStatus

def Sending.isWritten (sending : Sending) : Bool :=
  match sending.answer with
  | .ok .written => true
  | _ => false

namespace Link

/-- The link after an event, and the send if the event was one. -/
def step (link : Link) : LinkEvent → Option Sending × Link
  | .send config root => (some ⟨config, root, (link.send config root).1⟩, (link.send config root).2)
  | .close => (none, link.close)
  | .hangUp => (none, link.hangUp)
  | .exited status => (none, link.exited status)

/-- The link after events in turn, and the sends among them. -/
def run (link : Link) : List LinkEvent → List Sending × Link
  | [] => ([], link)
  | event :: events =>
    ((link.step event).1.toList ++ (run (link.step event).2 events).1, (run (link.step event).2 events).2)

theorem run_append (link : Link) (before after : List LinkEvent) :
    link.run (before ++ after) =
      ((link.run before).1 ++ ((link.run before).2.run after).1, ((link.run before).2.run after).2) := by
  induction before generalizing link with
  | nil => rfl
  | cons event before ih =>
    rw [List.cons_append, run, ih, run, List.append_assoc]

end Link

/-! ## Single sends -/

/-- **What is written for a text is the whole of it**, with the empty line that ends a frame. -/
theorem frame_of_marshal {config : Config} {root text : String} {bytes : ByteArray}
    (hmarshal : config.marshal root = .ok text) (hencode : encodeFrame text = .ok bytes) :
    bytes = (text ++ "\n").toUTF8 ∧
      ∀ more, Split.cut? (octets bytes ++ more) = some (octets text.toUTF8, more) := by
  obtain ⟨-, rfl⟩ := writeStatements_iff.1 hmarshal
  have hne : config.walk root ≠ [] := by
    intro hnil
    rw [hnil] at hencode
    cases hencode
  -- trimming takes away no more than the line feed that the empty line begins with
  have htrim : (trimmedText (Statement.lines (config.walk root))) ++ "\n"
      = Statement.lines (config.walk root) := by
    apply String.toList_injective
    rw [String.toList_append, toList_trimmedText]
    exact trimEnd_lines hne
  constructor
  · have htwo : "\n\n" = "\n" ++ "\n" := by decide
    rw [eq_encodingOf hencode, encodingOf, htwo, ← String.append_assoc, htrim]
  · intro more
    rw [cut?_of_encodeFrame hencode, ← octets_frameOf, frameOf, htrim]

namespace Link

/-- Nothing is written any more: the engine has exited or the line is closed. -/
def IsShut (link : Link) : Prop := link.exit.isSome = true ∨ link.isOpen = false

/-- **All that a send can do.** It writes one frame on an open line, or finds the line shut, or shuts it since
    the write fails, or fails because of the text and changes nothing. -/
theorem send_cases (link : Link) (config : Config) (root : String) :
    (∃ text bytes, ¬ link.IsShut ∧ config.marshal root = .ok text ∧ encodeFrame text = .ok bytes ∧
      link.send config root = (.ok .written, { link with written := link.written ++ bytes })) ∨
    (link.IsShut ∧ link.send config root = (.ok .dropped, link)) ∨
    link.send config root = (.ok .dropped, { link with isOpen := false }) ∨
    ∃ e, link.send config root = (.error e, link) ∧
      ((∃ fault, config.marshal root = .error fault ∧ e = .config fault) ∨
        ∃ text fault, config.marshal root = .ok text ∧ encodeFrame text = .error fault ∧
          e = .frame fault) := by
  rw [send]
  by_cases hexit : link.exit.isSome = true
  · exact Or.inr (Or.inl ⟨Or.inl hexit, if_pos hexit⟩)
  rw [if_neg hexit]
  cases hmarshal : config.marshal root with
  | error fault => exact Or.inr (Or.inr (Or.inr ⟨_, rfl, Or.inl ⟨fault, rfl, rfl⟩⟩))
  | ok text =>
    cases hopen : link.isOpen with
    | false => exact Or.inr (Or.inl ⟨Or.inr hopen, rfl⟩)
    | true =>
      have hnot : ¬ link.IsShut := by
        rintro (h | h)
        · exact hexit h
        · rw [hopen] at h
          cases h
      cases hencode : encodeFrame text with
      | error fault =>
        refine Or.inr (Or.inr (Or.inr ⟨.frame fault, ?_, Or.inr ⟨text, fault, rfl, hencode, rfl⟩⟩))
        simp only [Bool.not_true, Bool.false_eq_true, if_false, appendFrame, hencode]
      | ok bytes =>
        simp only [Bool.not_true, Bool.false_eq_true, if_false, appendFrame, hencode]
        cases hheard : link.isHeard with
        | true => exact Or.inl ⟨text, bytes, hnot, rfl, hencode, rfl⟩
        | false => exact Or.inr (Or.inr (Or.inl rfl))

/-! ## Runs -/

end Link

/-- The sending has written the text that its root is written as. -/
def Sending.Writes (sending : Sending) (text : String) : Prop :=
  sending.config.marshal sending.root = .ok text ∧ encodeFrame text = .ok (text ++ "\n").toUTF8

/-- Whole frames are cut at their ends, and nothing is left. -/
theorem parts_of_writes {sendings : List Sending} {texts : List String}
    (h : List.Forall₂ Sending.Writes sendings texts) :
    Split.parts (texts.flatMap fun text => octets (text ++ "\n").toUTF8)
      = (texts.map fun text => octets text.toUTF8, []) := by
  induction h with
  | nil => exact Split.parts_of_none (Split.cut?_of_no_feed List.not_mem_nil)
  | @cons sending text sendings texts hwrites _ ih =>
    obtain ⟨-, hcut⟩ := frame_of_marshal hwrites.1 hwrites.2
    rw [List.flatMap_cons, Split.parts_of_some (hcut _), ih, List.map_cons]

namespace Link

/-- **One frame for each send that was written**: in order, they are all that an event or a run of events
    adds to what was written. -/
def AddsFrames (link : Link) (sendings : List Sending) (after : Link) : Prop :=
  ∃ texts, List.Forall₂ Sending.Writes (sendings.filter Sending.isWritten) texts ∧
    octets after.written = octets link.written ++ texts.flatMap fun text => octets (text ++ "\n").toUTF8

theorem AddsFrames.nothing {link after : Link} {sendings : List Sending}
    (hnone : ∀ sending ∈ sendings, sending.isWritten = false) (h : after.written = link.written) :
    link.AddsFrames sendings after := by
  refine ⟨[], ?_, by rw [h, List.flatMap_nil, List.append_nil]⟩
  have hfilter : sendings.filter Sending.isWritten = [] :=
    List.filter_eq_nil_iff.2 fun sending hmem => by rw [hnone sending hmem]; exact Bool.false_ne_true
  rw [hfilter]
  exact .nil

theorem AddsFrames.append {link midway after : Link} {first second : List Sending}
    (h : link.AddsFrames first midway) (h' : midway.AddsFrames second after) :
    link.AddsFrames (first ++ second) after := by
  obtain ⟨texts, hwrites, hwritten⟩ := h
  obtain ⟨texts', hwrites', hwritten'⟩ := h'
  refine ⟨texts ++ texts', ?_, ?_⟩
  · rw [List.filter_append]
    exact List.rel_append hwrites hwrites'
  · rw [hwritten', hwritten, List.flatMap_append, List.append_assoc]

theorem addsFrames_step (link : Link) (event : LinkEvent) :
    link.AddsFrames (link.step event).1.toList (link.step event).2 := by
  cases event with
  | send config root =>
    rw [step]
    rcases link.send_cases config root with ⟨text, bytes, -, hmarshal, hencode, hsend⟩ | ⟨-, hsend⟩ |
      hsend | ⟨e, hsend, -⟩
    · rw [hsend]
      obtain ⟨rfl, -⟩ := frame_of_marshal hmarshal hencode
      refine ⟨[text], .cons ⟨hmarshal, hencode⟩ .nil, ?_⟩
      rw [List.flatMap_singleton]
      show octets (link.written ++ _) = _
      rw [octets, ByteArray.data_append, Array.toList_append]
    all_goals
      rw [hsend]
      refine .nothing ?_ rfl
      intro sending hmem
      rw [List.mem_singleton.1 hmem]
      rfl
  | close => exact .nothing (fun _ hmem => absurd hmem List.not_mem_nil) rfl
  | hangUp => exact .nothing (fun _ hmem => absurd hmem List.not_mem_nil) rfl
  | exited status => exact .nothing (fun _ hmem => absurd hmem List.not_mem_nil) rfl

theorem addsFrames_run (link : Link) (events : List LinkEvent) :
    link.AddsFrames (link.run events).1 (link.run events).2 := by
  induction events generalizing link with
  | nil => exact .nothing (fun _ hmem => absurd hmem List.not_mem_nil) rfl
  | cons event events ih => exact (link.addsFrames_step event).append (ih _)

/-- **A line that is shut remains so**, and nothing is written. -/
theorem IsShut.step {link : Link} (h : link.IsShut) (event : LinkEvent) :
    (link.step event).2.IsShut ∧ (link.step event).2.written = link.written ∧
      ∀ sending ∈ (link.step event).1, sending.isWritten = false := by
  cases event with
  | send config root =>
    rw [Link.step]
    rcases link.send_cases config root with ⟨_, _, hopen, -⟩ | ⟨-, hsend⟩ | hsend | ⟨e, hsend, -⟩
    · exact absurd h hopen
    all_goals
      rw [hsend]
      refine ⟨?_, rfl, ?_⟩
      · first
        | exact h
        | exact Or.inr rfl
      · rintro _ ⟨⟩
        rfl
  | close => exact ⟨Or.inr rfl, rfl, fun _ hmem => nomatch hmem⟩
  | hangUp => exact ⟨h, rfl, fun _ hmem => nomatch hmem⟩
  | exited status => exact ⟨Or.inl rfl, rfl, fun _ hmem => nomatch hmem⟩

theorem IsShut.run {link : Link} (h : link.IsShut) (events : List LinkEvent) :
    (link.run events).2.IsShut ∧ (link.run events).2.written = link.written ∧
      ∀ sending ∈ (link.run events).1, sending.isWritten = false := by
  induction events generalizing link with
  | nil => exact ⟨h, rfl, fun _ hmem => absurd hmem List.not_mem_nil⟩
  | cons event events ih =>
    obtain ⟨hshut, hwritten, hnone⟩ := h.step event
    obtain ⟨hshut', hwritten', hnone'⟩ := ih hshut
    refine ⟨hshut', hwritten'.trans hwritten, ?_⟩
    intro sending hmem
    rcases List.mem_append.1 hmem with hmem | hmem
    · exact hnone sending (Option.mem_toList.1 hmem)
    · exact hnone' sending hmem

/-- A send was dropped, the line was closed, or the end of the engine became known. -/
def HasShut (sendings : List Sending) (events : List LinkEvent) : Prop :=
  (∃ sending ∈ sendings, sending.answer = .ok .dropped) ∨ .close ∈ events ∨
    ∃ status, .exited status ∈ events

/-- **Each of these leaves the line shut**, whatever happens besides. -/
theorem isShut_of_hasShut {link : Link} {events : List LinkEvent}
    (h : HasShut (link.run events).1 events) : (link.run events).2.IsShut := by
  induction events generalizing link with
  | nil =>
    rcases h with ⟨_, hmem, -⟩ | hmem | ⟨_, hmem⟩
    all_goals exact absurd hmem List.not_mem_nil
  | cons event events ih =>
    -- either the first event has shut the line, or one that follows does
    have hcases : (link.step event).2.IsShut ∨ HasShut ((link.step event).2.run events).1 events := by
      rcases h with ⟨sending, hmem, hdropped⟩ | hmem | ⟨status, hmem⟩
      · rcases List.mem_append.1 hmem with hmem | hmem
        · left
          cases event with
          | send config root =>
            rw [step] at hmem ⊢
            cases List.mem_singleton.1 hmem
            rcases link.send_cases config root with ⟨_, _, -, -, -, hsend⟩ | ⟨hshut, hsend⟩ | hsend |
              ⟨e, hsend, -⟩
            · rw [hsend] at hdropped
              cases hdropped
            · rw [hsend]
              exact hshut
            · rw [hsend]
              exact Or.inr rfl
            · rw [hsend] at hdropped
              cases hdropped
          | close => cases hmem
          | hangUp => cases hmem
          | exited status => cases hmem
        · exact Or.inr (Or.inl ⟨sending, hmem, hdropped⟩)
      · rcases List.mem_cons.1 hmem with rfl | hmem
        · exact Or.inl (Or.inr rfl)
        · exact Or.inr (Or.inr (Or.inl hmem))
      · rcases List.mem_cons.1 hmem with rfl | hmem
        · exact Or.inl (Or.inl rfl)
        · exact Or.inr (Or.inr (Or.inr ⟨status, hmem⟩))
    rcases hcases with hshut | hlater
    · exact (hshut.run events).1
    · exact ih hlater

end Link

/-! ## Texts that cannot be sent -/

/-- The text cannot be written so that it is read back, or not as one frame. -/
def WireError.IsRefusal (e : WireError) : Prop :=
  (∃ object field text, e = .config (.unrepresentable object field text)) ∨
    e = .frame .emptyFrame ∨ e = .frame .emptyLine ∨ ∃ size, e = .frame (.tooLarge size)

theorem Link.isRefusal_of_send {link : Link} {config : Config} {root : String} {e : WireError}
    (h : (link.send config root).1 = .error e) : e.IsRefusal := by
  rcases link.send_cases config root with ⟨_, _, -, -, -, hsend⟩ | ⟨-, hsend⟩ | hsend | ⟨e', hsend, hfault⟩
  · rw [hsend] at h
    cases h
  · rw [hsend] at h
    cases h
  · rw [hsend] at h
    cases h
  · rw [hsend] at h
    cases h
    rcases hfault with ⟨fault, hmarshal, rfl⟩ | ⟨text, fault, -, hencode, rfl⟩
    · obtain ⟨s, -, text, -, rfl⟩ := exists_of_writeStatements_error hmarshal
      exact Or.inl ⟨_, _, _, rfl⟩
    · unfold encodeFrame at hencode
      dsimp only at hencode
      split at hencode
      · cases hencode
        exact Or.inr (Or.inl rfl)
      · split at hencode
        · cases hencode
          exact Or.inr (Or.inr (Or.inl rfl))
        · split at hencode
          · cases hencode
            exact Or.inr (Or.inr (Or.inr ⟨_, rfl⟩))
          · cases hencode

/-! ## The line to the engine -/

open Link

/-- **Only whole frames reach the engine.** Let any events happen in turn on a line that was opened. What was
    written is one frame for each send that was answered with `written`, in order: the text of what its root
    leads to, and the empty line that ends it, so a reader that cuts at empty lines gets these texts and
    nothing is left over. When a send was dropped, the line closed, or the end of the engine known at some
    moment, nothing was written after that. A send that failed did so because of its text, and everything
    else went as it would have gone without it. -/
theorem link_writes_whole_frames (events : List LinkEvent) :
    (∃ texts, List.Forall₂ Sending.Writes ((opened.run events).1.filter Sending.isWritten) texts ∧
      (opened.run events).2.written = joined (texts.map fun text => (text ++ "\n").toUTF8) ∧
      Split.parts (octets (opened.run events).2.written)
        = (texts.map fun text => octets text.toUTF8, [])) ∧
    (∀ before after, events = before ++ after → HasShut (opened.run before).1 before →
      (opened.run events).2.written = (opened.run before).2.written ∧
      ∃ later, (opened.run events).1 = (opened.run before).1 ++ later ∧
        ∀ sending ∈ later, sending.isWritten = false) ∧
    ∀ before config root after e, events = before ++ .send config root :: after →
      ((opened.run before).2.send config root).1 = .error e →
      e.IsRefusal ∧ (opened.run events).2 = (opened.run (before ++ after)).2 ∧
      ∃ later, (opened.run (before ++ after)).1 = (opened.run before).1 ++ later ∧
        (opened.run events).1 = (opened.run before).1 ++ ⟨config, root, .error e⟩ :: later := by
  refine ⟨?_, ?_, ?_⟩
  · obtain ⟨texts, hwrites, hwritten⟩ := opened.addsFrames_run events
    have hall : octets (opened.run events).2.written
        = texts.flatMap fun text => octets (text ++ "\n").toUTF8 := hwritten
    refine ⟨texts, hwrites, ?_, ?_⟩
    · apply octets_injective
      rw [hall, octets_joined, List.flatMap_map]
    · rw [hall, parts_of_writes hwrites]
  · rintro before after rfl hshut
    obtain ⟨-, hwritten, hnone⟩ := (isShut_of_hasShut hshut).run after
    rw [run_append]
    exact ⟨hwritten, _, rfl, hnone⟩
  · rintro before config root after e rfl herror
    have hsend : (opened.run before).2.send config root = (.error e, (opened.run before).2) := by
      rcases (opened.run before).2.send_cases config root with ⟨_, _, -, -, -, hsend⟩ | ⟨-, hsend⟩ |
        hsend | ⟨e', hsend, -⟩
      all_goals
        rw [hsend] at herror ⊢
        cases herror
      rfl
    rw [run_append, run_append, run, step, hsend]
    exact ⟨isRefusal_of_send herror, rfl, _, rfl, rfl⟩

/-- An object that can be sent, and one whose text cannot be written. -/
def sentConfig : Config := .ofStatements [⟨"a", "note", .text "b"⟩]

def unsentConfig : Config := .ofStatements [⟨"a", "note", .text "\\"⟩]

theorem marshal_sent : sentConfig.marshal "a" = .ok "a.note <- 'b';\n" := by
  have hwalk : sentConfig.walkWithin 9 "a" = some [⟨"a", "note", .text "b"⟩] := by decide +kernel
  rw [Config.marshal, Config.walk_of_walkWithin hwalk]
  exact Config.eq_ok_of_toOption (by decide +kernel)

theorem marshal_unsent : unsentConfig.marshal "a" = .error (.unrepresentable "a" "note" "\\") := by
  have hwalk : unsentConfig.walkWithin 9 "a" = some [⟨"a", "note", .text "\\"⟩] := by decide +kernel
  rw [Config.marshal, Config.walk_of_walkWithin hwalk]
  rfl

/-- One send is written, one fails because of its text, and then the line is closed. -/
def shuttingEvents : List LinkEvent := [.send sentConfig "a", .send unsentConfig "a", .close]

/-- The frame of the first send stays the only one, whatever is sent afterwards; and without the send that
    failed the line would be in the same state. -/
theorem link_writes_one_frame :
    (opened.run (shuttingEvents ++ [.send sentConfig "a"])).2.written = "a.note <- 'b';\n\n".toUTF8 ∧
    (opened.run shuttingEvents).2 = (opened.run [.send sentConfig "a", .close]).2 := by
  have hencode : encodeFrame "a.note <- 'b';\n" = .ok "a.note <- 'b';\n\n".toUTF8 :=
    Config.eq_ok_of_toOption (by decide +kernel)
  have hfirst : opened.send sentConfig "a"
      = (.ok .written, { opened with written := opened.written ++ "a.note <- 'b';\n\n".toUTF8 }) := by
    rw [send, marshal_sent]
    simp only [appendFrame, hencode]
    rfl
  have hrun : (opened.run shuttingEvents).2.written = "a.note <- 'b';\n\n".toUTF8 := by
    show ((opened.send sentConfig "a").2.send unsentConfig "a").2.close.written = _
    rw [hfirst, send, marshal_unsent]
    exact ByteArray.empty_append
  obtain ⟨-, hquiet, -⟩ := link_writes_whole_frames (shuttingEvents ++ [.send sentConfig "a"])
  obtain ⟨-, -, hrefused⟩ := link_writes_whole_frames shuttingEvents
  constructor
  · have hshut : HasShut (opened.run shuttingEvents).1 shuttingEvents :=
      Or.inr (Or.inl (List.mem_cons_of_mem _ (List.mem_cons_of_mem _ List.mem_cons_self)))
    rw [(hquiet shuttingEvents _ rfl hshut).1, hrun]
  · have herror : ((opened.run [.send sentConfig "a"]).2.send unsentConfig "a").1
        = .error (.config (.unrepresentable "a" "note" "\\")) := by
      show ((opened.send sentConfig "a").2.send unsentConfig "a").1 = _
      rw [hfirst, send, marshal_unsent]
      rfl
    exact (hrefused [.send sentConfig "a"] unsentConfig "a" [.close] _ rfl herror).2.1

end GraphWire
