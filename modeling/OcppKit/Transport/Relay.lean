import OcppKit.Library.Transitions
import OcppKit.Reference
import OcppKit.Rpc.Frame
import OcppKit.Transport.Security
import OcppKit.Transport.Ws.Deflate

/-!
# The relay of a local controller

Between a station and the CSMS a local controller holds two connections, one to each, and a loop
that passes on what comes on either (`OcppKit.Pump.step`). A text that is a frame is shown to an
interception hook first, which may let it through, drop it, put another text in its place, or have
it refused (`OcppKit.RelayDecision`). The other messages of the WebSocket protocol are not passed
on: a ping is answered on the leg it came on, and the loop pings both legs itself, to find out
whether there is still someone at the other end. Whatever ends one leg ends both.

A send may fail, and a message of which it was reported that it failed may have been written all
the same. Which of the branches of the loop comes next is open.

Every text that is written comes of one that was received, in the order they were received, and
what comes of each is as the hook has decided: the loop never says anything of its own, except to
refuse a `CALL` to whoever sent it (`OcppKit.Pump.written_run`). And it gives a leg up exactly when
a ping has waited for its pong for as long as it may: pings sent since then do not put it off
(`OcppKit.Pump.pongDue_run`).
-/

namespace OcppKit

/-! ### The two legs -/

/-- Which way a frame is travelling. -/
inductive Direction where
  /-- From the charging station to the CSMS. -/
  | northbound
  /-- From the CSMS to the charging station. -/
  | southbound
deriving DecidableEq, Repr

/-- The two connections of a local controller. -/
inductive Leg where
  /-- The one to the charging station. -/
  | south
  /-- The one to the CSMS. -/
  | north
deriving DecidableEq, Repr

/-- The other one. -/
def Leg.other : Leg → Leg
  | .south => .north
  | .north => .south

/-- Which way a frame travels that comes on this leg. -/
def Leg.direction : Leg → Direction
  | .south => .northbound
  | .north => .southbound

@[simp] theorem Leg.other_other (leg : Leg) : leg.other.other = leg := by cases leg <;> rfl

@[simp] theorem Leg.other_ne (leg : Leg) : leg.other ≠ leg := by cases leg <;> decide

theorem Leg.eq_or_other (leg leg' : Leg) : leg' = leg ∨ leg' = leg.other := by
  cases leg <;> cases leg' <;> decide

/-- How a local controller watches for a connection that has died without saying so. -/
structure Keepalive where
  /-- How often to send a ping, unless there are none. -/
  interval : Option Duration
  /-- How long to wait for the pong. -/
  timeout : Duration
deriving DecidableEq, Repr

/-- Why a connection has failed. -/
inductive WsError where
  /-- The socket failed. -/
  | io
  /-- The peer broke a rule of the protocol. -/
  | protocol (error : Ws.ProtocolError)
  /-- Compression or decompression failed. -/
  | deflate (error : Ws.DeflateError)

variable [Externals]

/-! ### What is decided of a frame -/

/-- **What a local controller should do with a frame.** -/
inductive RelayDecision where
  /-- Pass on the text as it is. -/
  | forward
  /-- Do not, and answer the sender with this error. -/
  | reject (error : CallError)
  /-- Do not, and say nothing. -/
  | drop
  /-- Pass on this text instead. -/
  | replace (text : String)
deriving DecidableEq

/-- **An interception hook**: what is decided of a frame of this station that travels this
way. -/
abbrev Relay := Identity → Direction → Frame → RelayDecision

/-- Everything is passed on. -/
def passThrough : Relay := fun _ _ _ => .forward

/-- The given actions are refused. -/
def refuseActions (actions : List String) : Relay := fun _ _ frame =>
  match frame with
  | .call _ action _ | .send _ action _ =>
      if action ∈ actions then
        .reject (CallError.new .notSupported "handled by the local controller")
      else .forward
  | _ => .forward

/-- What is done with a text. -/
inductive Relayed where
  /-- It is passed on, or another one in its place. -/
  | forward (text : String)
  /-- It is answered. -/
  | answer (text : String)
  /-- Nothing. -/
  | drop
deriving DecidableEq

/-- What the loop is given: whose connections they are, under which version, and how they are
watched. -/
structure RelaySession where
  /-- Whose they are. -/
  identity : Identity
  /-- The version both legs have agreed on. -/
  version : Version
  /-- The interception hook. -/
  relay : Relay
  /-- How the legs are watched. -/
  keepalive : Keepalive

/-- **What is done with a text** that travels this way. -/
def RelaySession.decide (session : RelaySession) (direction : Direction) (text : String) :
    Relayed :=
  match Frame.parse text session.version with
  -- what cannot be read is for the endpoints to judge
  | .error _ => .forward text
  | .ok frame =>
    match session.relay session.identity direction frame with
    | .forward => .forward text
    | .replace text => .forward text
    | .drop => .drop
    | .reject error =>
      match frame with
      | .call id _ _ =>
        match (Frame.callError id error.toRef).toJson session.version with
        | .ok answer => .answer answer
        | .error _ => .drop
      -- nothing else is ever answered
      | _ => .drop

/-! ### The loop -/

/-- What comes of handing a message to a leg. -/
inductive Sending where
  /-- It is written. -/
  | done
  /-- The leg fails, and the message is written or not. -/
  | failed (written : Bool)
deriving DecidableEq, Repr

/-- Whether the loop is told that it is written. -/
def Sending.isOk : Sending → Bool
  | .done => true
  | .failed _ => false

/-- Whether it is. -/
def Sending.written : Sending → Bool
  | .done => true
  | .failed written => written

/-- **The state of the loop.** -/
structure Pump where
  /-- When the pong of a leg is due, if one is. -/
  pongDue : Leg → Option Duration
  /-- What has been written on a leg and has not arrived, oldest first. -/
  written : Leg → List Ws.Message
  /-- Whether the loop is over. -/
  ended : Bool

namespace Pump

/-- The loop before its first turn. -/
def start : Pump := ⟨fun _ => none, fun _ => [], false⟩

/-- A message is handed to a leg. -/
def send (p : Pump) (leg : Leg) (message : Ws.Message) (sending : Sending) : Pump :=
  if sending.written then
    { p with written := Function.update p.written leg (p.written leg ++ [message]) }
  else p

/-- **One message is relayed**, from the leg it came on: the state after it, and whether the loop
carries on. -/
def relayOne (session : RelaySession) (p : Pump) (leg : Leg)
    (message : Option (Except WsError Ws.Message)) (sends : Leg → Sending) : Pump × Bool :=
  match message with
  | some (.ok (.text text)) =>
    match session.decide leg.direction text with
    | .forward text =>
      (p.send leg.other (.text text) (sends leg.other), (sends leg.other).isOk)
    | .answer text => (p.send leg (.text text) (sends leg), (sends leg).isOk)
    | .drop => (p, true)
  -- the check is point to point: it is answered here
  | some (.ok (.ping payload)) => (p.send leg (.pong payload) (sends leg), (sends leg).isOk)
  | some (.ok (.pong _)) => ({ p with pongDue := Function.update p.pongDue leg none }, true)
  | some (.ok (.close frame)) => (p.send leg.other (.close frame) (sends leg.other), false)
  | some (.ok (.binary _)) => (p, true)
  | some (.error _) => (p, false)
  | none => (p, false)

/-- **Both legs are pinged.** A pong that is due already stays due when it was. -/
def ping (session : RelaySession) (p : Pump) (now : Duration) (sends : Leg → Sending) :
    Pump × Bool :=
  let deadline := now + session.keepalive.timeout
  let p := { p with pongDue := fun leg => some ((p.pongDue leg).getD deadline) }
  let p := p.send .south (.ping []) (sends .south)
  if (sends .south).isOk then
    (p.send .north (.ping []) (sends .north), (sends .north).isOk)
  else (p, false)

/-- What is said when the loop is over. -/
def goingAway : Ws.Message := .close (some ⟨⟨1001⟩, ""⟩)

/-- **The loop is over**: both legs are closed, whether or not they can still be told. -/
def finish (p : Pump) (closing : Leg → Sending) : Pump :=
  { (p.send .south goingAway (closing .south)).send .north goingAway (closing .north) with
    ended := true }

/-- The branches of the loop. -/
inductive Branch where
  /-- Something comes on a leg: a message, a failure, or the end of it. -/
  | message (leg : Leg) (message : Option (Except WsError Ws.Message))
  /-- It is time to ping. -/
  | tick (now : Duration)
  /-- It is past the time for the pong of a leg. -/
  | overdue (leg : Leg) (now : Duration)

/-- **One turn of the loop**, and what comes of the sends that it makes. -/
structure Turn where
  /-- The branch. -/
  branch : Branch
  /-- What comes of the messages it hands to a leg. -/
  sends : Leg → Sending
  /-- What comes of closing a leg, when it does. -/
  closing : Leg → Sending

/-- The loop carries on, or is over. -/
def settle (after : Pump × Bool) (closing : Leg → Sending) : Pump :=
  if after.2 then after.1 else after.1.finish closing

/-- **One turn**, if it is possible. -/
def step (session : RelaySession) (p : Pump) (turn : Turn) : Option Pump :=
  if p.ended then none
  else
    match turn.branch with
    | .message leg message =>
      some (settle (p.relayOne session leg message turn.sends) turn.closing)
    | .tick now =>
      if session.keepalive.interval.isSome then
        some (settle (p.ping session now turn.sends) turn.closing)
      else none
    | .overdue leg now =>
      match p.pongDue leg with
      | none => none
      | some due => if due ≤ now then some (p.finish turn.closing) else none

/-! ### What a turn does -/

/-- The text of a message, if it is one. -/
def textOf : Ws.Message → Option String
  | .text text => some text
  | _ => none

omit [Externals] in
theorem written_send_self (p : Pump) (leg : Leg) (message : Ws.Message) (sending : Sending) :
    (p.send leg message sending).written leg =
      p.written leg ++ if sending.written then [message] else [] := by
  rw [send]
  split
  · exact Function.update_self _ _ _
  · exact (List.append_nil _).symm

omit [Externals] in
theorem written_send_other (p : Pump) {leg leg' : Leg} (h : leg' ≠ leg) (message : Ws.Message)
    (sending : Sending) : (p.send leg message sending).written leg' = p.written leg' := by
  rw [send]
  split
  · exact Function.update_of_ne h _ _
  · rfl

omit [Externals] in
@[simp] theorem pongDue_send (p : Pump) (leg : Leg) (message : Ws.Message) (sending : Sending) :
    (p.send leg message sending).pongDue = p.pongDue := by
  rw [send]
  split <;> rfl

omit [Externals] in
@[simp] theorem ended_send (p : Pump) (leg : Leg) (message : Ws.Message) (sending : Sending) :
    (p.send leg message sending).ended = p.ended := by
  rw [send]
  split <;> rfl

omit [Externals] in
/-- A message that is no text leaves the texts alone. -/
theorem texts_send_of_none (p : Pump) (leg leg' : Leg) {message : Ws.Message}
    (h : textOf message = none) (sending : Sending) :
    ((p.send leg message sending).written leg').filterMap textOf =
      (p.written leg').filterMap textOf := by
  rcases eq_or_ne leg' leg with rfl | hne
  · rw [written_send_self, List.filterMap_append]
    split
    · rw [List.filterMap_cons_none h, List.filterMap_nil, List.append_nil]
    · rw [List.filterMap_nil, List.append_nil]
  · rw [written_send_other p hne]

omit [Externals] in
@[simp] theorem texts_finish (p : Pump) (closing : Leg → Sending) (leg : Leg) :
    ((p.finish closing).written leg).filterMap textOf = (p.written leg).filterMap textOf :=
  (texts_send_of_none _ .north leg rfl _).trans (texts_send_of_none _ .south leg rfl _)

omit [Externals] in
@[simp] theorem pongDue_finish (p : Pump) (closing : Leg → Sending) :
    (p.finish closing).pongDue = p.pongDue :=
  (pongDue_send _ _ _ _).trans (pongDue_send _ _ _ _)

/-! ### What comes of a text -/

end Pump

/-- What comes of a text that has come on a leg: a text, and the leg it goes to. -/
def RelaySession.comesOf (session : RelaySession) (heard : Leg × String) :
    Option (Leg × String) :=
  match session.decide heard.1.direction heard.2 with
  | .forward text => some (heard.1.other, text)
  | .answer text => some (heard.1, text)
  | .drop => none

/-- **What may come of a text**, by what the hook has decided of it. -/
inductive RelaySession.Handles (session : RelaySession) (leg : Leg) (text : String) :
    Option (Leg × String) → Prop
  /-- It is no frame, and is passed on. -/
  | unread (error : FrameError) : Frame.parse text session.version = .error error →
      Handles session leg text (some (leg.other, text))
  /-- It is passed on as it is. -/
  | forwarded (frame : Frame) : Frame.parse text session.version = .ok frame →
      session.relay session.identity leg.direction frame = .forward →
      Handles session leg text (some (leg.other, text))
  /-- Another text is passed on. -/
  | replaced (frame : Frame) (text' : String) : Frame.parse text session.version = .ok frame →
      session.relay session.identity leg.direction frame = .replace text' →
      Handles session leg text (some (leg.other, text'))
  /-- It is dropped. -/
  | dropped (frame : Frame) : Frame.parse text session.version = .ok frame →
      session.relay session.identity leg.direction frame = .drop →
      Handles session leg text none
  /-- It is a `CALL`, and is answered with an error that quotes its id. -/
  | refused (id : MessageId) (action : String) (payload : RawValue) (error : CallError)
      (answer : String) : Frame.parse text session.version = .ok (.call id action payload) →
      session.relay session.identity leg.direction (.call id action payload) = .reject error →
      (Frame.callError id error.toRef).toJson session.version = .ok answer →
      Handles session leg text (some (leg, answer))
  /-- It is refused, and is nothing that could be answered. -/
  | unanswerable (frame : Frame) (error : CallError) :
      Frame.parse text session.version = .ok frame →
      (∀ id action payload, frame ≠ .call id action payload) →
      session.relay session.identity leg.direction frame = .reject error →
      Handles session leg text none

theorem RelaySession.handles_comesOf [LawfulExternals] (session : RelaySession) (leg : Leg)
    (text : String) : session.Handles leg text (session.comesOf (leg, text)) := by
  rw [comesOf, decide]
  rcases hparse : Frame.parse text session.version with error | frame
  · exact .unread error hparse
  rcases hrelay : session.relay session.identity leg.direction frame with _ | error | _ | text'
  · simp only [hrelay]
    exact .forwarded frame hparse hrelay
  · rcases frame with ⟨id, action, payload⟩ | _ | _ | _ | _
    case call =>
      obtain ⟨answer, hanswer⟩ : ∃ answer,
          (Frame.callError id error.toRef).toJson session.version = .ok answer :=
        LawfulExternals.writeTuple_ok _
      simp only [hrelay, hanswer]
      exact .refused id action payload error answer hparse hrelay hanswer
    all_goals
      simp only [hrelay]
      exact .unanswerable _ error hparse (by intro id action payload h; cases h) hrelay
  · simp only [hrelay]
    exact .dropped frame hparse hrelay
  · simp only [hrelay]
    exact .replaced frame text' hparse hrelay

namespace Pump

/-- The text that a turn is about, and the leg it came on. -/
def Turn.heard (turn : Turn) : Option (Leg × String) :=
  match turn.branch with
  | .message leg (some (.ok (.text text))) => some (leg, text)
  | _ => none

/-- The text that goes to a leg. -/
def onLeg (leg : Leg) : Option (Leg × String) → Option String
  | some (leg', text) => if leg' = leg then some text else none
  | none => none

/-- The texts that are due on a leg. -/
def due (session : RelaySession) (leg : Leg) (turns : List Turn) : List String :=
  (turns.filterMap Turn.heard).filterMap fun heard => onLeg leg (session.comesOf heard)

omit [Externals] in
/-- Closing the legs adds no text. -/
@[simp] theorem texts_settle (after : Pump × Bool) (closing : Leg → Sending) (leg : Leg) :
    ((settle after closing).written leg).filterMap textOf =
      (after.1.written leg).filterMap textOf := by
  rw [settle]
  split
  · rfl
  · exact texts_finish _ _ _

/-- **These texts have been written on a leg** from the one state to the other: all of them, or,
when the loop is over by then, all but the last. -/
inductive Writes (p p' : Pump) (leg : Leg) (texts : List String) : Prop
  /-- All of them. -/
  | all : (p'.written leg).filterMap textOf = (p.written leg).filterMap textOf ++ texts →
      Writes p p' leg texts
  /-- All but the last, whose send has failed. -/
  | butLast : p'.ended = true →
      (p'.written leg).filterMap textOf = (p.written leg).filterMap textOf ++ texts.dropLast →
      Writes p p' leg texts

omit [Externals] in
/-- Nothing else is written. -/
theorem Writes.isPrefix {p p' : Pump} {leg : Leg} {texts : List String}
    (h : Writes p p' leg texts) :
    (p'.written leg).filterMap textOf <+: (p.written leg).filterMap textOf ++ texts := by
  cases h with
  | all h => exact h ▸ List.prefix_refl _
  | butLast _ h =>
      rw [h, List.prefix_append_right_inj]
      exact List.dropLast_prefix texts

omit [Externals] in
/-- While the loop is not over, nothing is missing. -/
theorem Writes.eq_of_not_ended {p p' : Pump} {leg : Leg} {texts : List String}
    (h : Writes p p' leg texts) (hended : p'.ended = false) :
    (p'.written leg).filterMap textOf = (p.written leg).filterMap textOf ++ texts := by
  cases h with
  | all h => exact h
  | butLast hover _ => exact absurd (hover.symm.trans hended) (by simp)

omit [Externals] in
theorem writes_nil {p p' : Pump} {leg : Leg}
    (h : (p'.written leg).filterMap textOf = (p.written leg).filterMap textOf) :
    Writes p p' leg [] :=
  .all (h.trans (List.append_nil _).symm)

omit [Externals] in
/-- A text that is handed to a leg is written, or the loop is over. -/
theorem writes_send (p : Pump) (leg leg' : Leg) (text : String) (sends closing : Leg → Sending) :
    Writes p (settle (p.send leg' (.text text) (sends leg'), (sends leg').isOk) closing) leg
      (onLeg leg (some (leg', text))).toList := by
  rcases eq_or_ne leg leg' with rfl | hne
  · generalize sends leg = sending
    have hwritten : ((settle (p.send leg (.text text) sending, sending.isOk)
        closing).written leg).filterMap textOf =
          (p.written leg).filterMap textOf ++ if sending.written then [text] else [] := by
      rw [texts_settle, written_send_self, List.filterMap_append]
      split <;> rfl
    rw [onLeg, if_pos rfl]
    rcases sending with _ | _ | _
    · exact .all hwritten
    -- a send that has failed ends the loop, and may have written
    · exact .butLast rfl hwritten
    · exact .all hwritten
  · rw [onLeg, if_neg hne.symm]
    refine writes_nil ?_
    rw [texts_settle, written_send_other p hne]

/-- **What one turn writes** is the text that is due, if one is. -/
theorem writes_step {session : RelaySession} {p p' : Pump} {turn : Turn}
    (h : p.step session turn = some p') (leg : Leg) :
    Writes p p' leg (due session leg [turn]) := by
  rcases turn with ⟨branch, sends, closing⟩
  rw [step] at h
  split at h
  · cases h
  rcases branch with ⟨leg', message⟩ | now | ⟨leg', now⟩
  case message =>
    obtain rfl := Option.some.inj h
    rcases message with _ | error | text | data | data | data | frame
    case some.ok.text =>
      have hdue : due session leg [⟨.message leg' (some (.ok (.text text))), sends, closing⟩] =
          (onLeg leg (session.comesOf (leg', text))).toList := by
        change [(leg', text)].filterMap _ = _
        rw [List.filterMap_cons, List.filterMap_nil]
        rcases onLeg leg (session.comesOf (leg', text)) with _ | text' <;> rfl
      rw [hdue, RelaySession.comesOf]
      simp only [relayOne]
      rcases session.decide leg'.direction text with text' | text' | _
      · exact writes_send p leg leg'.other text' sends closing
      · exact writes_send p leg leg' text' sends closing
      · exact writes_nil (texts_settle _ _ _)
    -- the answer to a ping, or to a close, is no text
    case some.ok.ping | some.ok.close =>
      exact writes_nil ((texts_settle _ _ _).trans (texts_send_of_none _ _ _ rfl _))
    all_goals exact writes_nil (texts_settle _ _ _)
  case tick =>
    dsimp only at h
    split at h
    · obtain rfl := Option.some.inj h
      refine writes_nil ((texts_settle _ _ _).trans ?_)
      simp only [ping]
      split
      · exact (texts_send_of_none _ .north leg rfl _).trans (texts_send_of_none _ .south leg rfl _)
      · exact texts_send_of_none _ .south leg rfl _
    · cases h
  case overdue =>
    dsimp only at h
    split at h
    · cases h
    split at h
    · obtain rfl := Option.some.inj h
      exact writes_nil (texts_finish _ _ _)
    · cases h

/-- Nothing comes after the loop is over. -/
theorem run_of_ended {session : RelaySession} {p p' : Pump} {turns : List Turn}
    (hended : p.ended = true) (h : Transitions.run (step session) p turns = some p') :
    turns = [] ∧ p' = p := by
  rcases turns with _ | ⟨turn, turns⟩
  · exact ⟨rfl, (Option.some.inj h).symm⟩
  · obtain ⟨p₁, hstep, -⟩ := Transitions.run_cons.mp h
    rw [step, if_pos hended] at hstep
    cases hstep

omit [Externals] in
/-- What is written after all of some texts is written after them. -/
theorem Writes.trans {p p₁ p' : Pump} {leg : Leg} {texts texts' : List String}
    (h : (p₁.written leg).filterMap textOf = (p.written leg).filterMap textOf ++ texts)
    (h' : Writes p₁ p' leg texts') : Writes p p' leg (texts ++ texts') := by
  cases h' with
  | all h' => exact .all (by rw [h', h, List.append_assoc])
  | butLast hover h' =>
      rcases eq_or_ne texts' [] with rfl | hne
      · exact .all (by rw [h', h, List.dropLast_nil, List.append_nil, List.append_nil])
      · refine .butLast hover ?_
        rw [h', h, List.dropLast_append_of_ne_nil hne, List.append_assoc]

theorem due_cons (session : RelaySession) (leg : Leg) (turn : Turn) (turns : List Turn) :
    due session leg (turn :: turns) = due session leg [turn] ++ due session leg turns := by
  rw [← List.singleton_append, due, List.filterMap_append, List.filterMap_append]
  rfl

/-- **What a run writes** are the texts that are due. -/
theorem writes_run {session : RelaySession} {turns : List Turn} {p p' : Pump}
    (h : Transitions.run (step session) p turns = some p') (leg : Leg) :
    Writes p p' leg (due session leg turns) := by
  induction turns generalizing p with
  | nil =>
      obtain rfl := Option.some.inj h
      exact writes_nil rfl
  | cons turn turns ih =>
      obtain ⟨p₁, hstep, hrest⟩ := Transitions.run_cons.mp h
      have hfirst := writes_step hstep leg
      rw [due_cons]
      rcases hended : p₁.ended with _ | _
      · exact .trans (hfirst.eq_of_not_ended hended) (ih hrest)
      · obtain ⟨rfl, rfl⟩ := run_of_ended hended hrest
        rwa [show due session leg [] = [] from rfl, List.append_nil]

/-- **The loop says nothing of its own.** After any run of it, with any hook and whatever fails,
something has come of each text that was received, in the order they were received, as the hook
has decided; and what has been written on a leg is what of this goes to the leg, in that order,
where only the last may be missing, and only when the loop is over. -/
theorem written_run [LawfulExternals] {session : RelaySession} {turns : List Turn} {p : Pump}
    (h : Transitions.run (step session) start turns = some p) :
    ∃ outcomes, List.Forall₂ (fun (heard : Leg × String) outcome =>
        session.Handles heard.1 heard.2 outcome) (turns.filterMap Turn.heard) outcomes ∧
      ∀ leg, (p.written leg).filterMap textOf = outcomes.filterMap (onLeg leg) ∨
        p.ended = true ∧
          (p.written leg).filterMap textOf = (outcomes.filterMap (onLeg leg)).dropLast := by
  -- what comes of a text is the same whenever it is received
  refine ⟨(turns.filterMap Turn.heard).map session.comesOf, ?_, fun leg => ?_⟩
  · rw [List.forall₂_map_right_iff, List.forall₂_same]
    rintro ⟨leg, text⟩ -
    exact session.handles_comesOf leg text
  · rw [List.filterMap_map]
    cases writes_run h leg with
    | all h => exact Or.inl h
    | butLast hended h => exact Or.inr ⟨hended, h⟩

/-! ### When a leg is given up -/

/-- When a turn pings. -/
def Turn.pinged (turn : Turn) : Option Duration :=
  match turn.branch with
  | .tick now => some now
  | _ => none

/-- Whether a turn hears a pong from a leg. -/
def Turn.isPong (leg : Leg) (turn : Turn) : Bool :=
  match turn.branch with
  | .message leg' (some (.ok (.pong _))) => leg' = leg
  | _ => false

/-- **When the first ping was sent that a leg has not answered**, if there is one. -/
def awaited (leg : Leg) (turns : List Turn) : Option Duration :=
  ((turns.rtakeWhile fun turn => !turn.isPong leg).filterMap Turn.pinged).head?

omit [Externals] in
theorem awaited_concat_of_pong {leg : Leg} {turns : List Turn} {turn : Turn}
    (h : turn.isPong leg = true) : awaited leg (turns ++ [turn]) = none := by
  rw [awaited, List.rtakeWhile_concat_neg]
  · rfl
  · rw [h]
    decide

omit [Externals] in
theorem awaited_concat {leg : Leg} {turns : List Turn} {turn : Turn}
    (h : turn.isPong leg = false) :
    awaited leg (turns ++ [turn]) = (awaited leg turns).or turn.pinged := by
  rw [awaited, List.rtakeWhile_concat_pos, List.filterMap_append, List.head?_append, ← awaited]
  · congr 1
    rw [List.filterMap_cons, List.filterMap_nil]
    rcases turn.pinged with _ | now <;> rfl
  · rw [h]
    rfl

/-- **What a turn makes of a pong that is due.** -/
theorem pongDue_step {session : RelaySession} {p p' : Pump} {turn : Turn}
    (h : p.step session turn = some p') (leg : Leg) :
    p'.pongDue leg = if turn.isPong leg then none
      else (p.pongDue leg).or (turn.pinged.map (· + session.keepalive.timeout)) := by
  have hsettle : ∀ (after : Pump × Bool) (closing : Leg → Sending),
      (settle after closing).pongDue = after.1.pongDue := by
    intro after closing
    rw [settle]
    split
    · rfl
    · exact pongDue_finish _ _
  rcases turn with ⟨branch, sends, closing⟩
  rw [step] at h
  split at h
  · cases h
  rcases branch with ⟨leg', message⟩ | now | ⟨leg', now⟩
  case message =>
    obtain rfl := Option.some.inj h
    rw [hsettle]
    rcases message with _ | error | text | data | data | data | frame
    case some.ok.text =>
      simp only [relayOne]
      rcases session.decide leg'.direction text with text' | text' | _
      all_goals simp [Turn.isPong, Turn.pinged]
    -- only a pong ends the wait for one, and only on the leg it came on
    case some.ok.pong =>
      simp only [relayOne, Turn.isPong, Turn.pinged, decide_eq_true_eq, Option.map_none,
        Option.or_none]
      rcases eq_or_ne leg' leg with rfl | hne
      · rw [Function.update_self, if_pos rfl]
      · rw [Function.update_of_ne hne.symm, if_neg hne]
    all_goals simp [relayOne, Turn.isPong, Turn.pinged]
  case tick =>
    dsimp only at h
    split at h
    · obtain rfl := Option.some.inj h
      rw [hsettle, if_neg (by simp [Turn.isPong]), Turn.pinged, Option.map_some, ping]
      split
      all_goals
        simp only [pongDue_send]
        -- a pong that is due already is not put off
        rcases p.pongDue leg with _ | due <;> rfl
    · cases h
  case overdue =>
    dsimp only at h
    split at h
    · cases h
    split at h
    · obtain rfl := Option.some.inj h
      simp [Turn.isPong, Turn.pinged]
    · cases h

/-- **A pong is due** the time-out after the first ping that the leg has not answered. -/
theorem pongDue_run {session : RelaySession} {turns : List Turn} {p : Pump}
    (h : Transitions.run (step session) start turns = some p) (leg : Leg) :
    p.pongDue leg = (awaited leg turns).map (· + session.keepalive.timeout) := by
  -- on the last turn: it is the latest pong that counts
  induction turns using List.reverseRecOn generalizing p with
  | nil =>
      obtain rfl := Option.some.inj h
      rfl
  | append_singleton turns turn ih =>
      rw [Transitions.run_append, Option.bind_eq_some_iff] at h
      obtain ⟨p₁, hrun, hlast⟩ := h
      obtain ⟨p₂, hstep, hnil⟩ := Transitions.run_cons.mp hlast
      obtain rfl := Option.some.inj hnil
      rw [pongDue_step hstep leg]
      split
      next hpong => rw [awaited_concat_of_pong hpong, Option.map_none]
      next hpong =>
        rw [awaited_concat (Bool.eq_false_of_not_eq_true hpong), ih hrun, Option.map_or]

/-- **When a leg is given up**: after any run, for want of a pong, exactly when the loop is not
over, and the first ping that the leg has not answered since the last pong it sent is at least the
time-out ago. Pings sent after that one do not count. -/
theorem overdue_run {session : RelaySession} {turns : List Turn} {p : Pump}
    (h : Transitions.run (step session) start turns = some p) (leg : Leg) (now : Duration)
    (sends closing : Leg → Sending) :
    (p.step session ⟨.overdue leg now, sends, closing⟩).isSome ↔
      p.ended = false ∧
        ∃ sent, awaited leg turns = some sent ∧ sent + session.keepalive.timeout ≤ now := by
  rw [step]
  rcases p.ended with _ | _
  · simp only [pongDue_run h leg]
    rcases awaited leg turns with _ | sent
    · simp
    · by_cases hdue : sent + session.keepalive.timeout ≤ now <;> simp [hdue]
  · simp

end Pump

end OcppKit

/-! ### A run -/

namespace OcppKit.Reference

open Pump

/-- A controller that refuses to have the station reset, and pings. -/
def refusing : RelaySession where
  identity := ⟨"CS1"⟩
  version := .v2_0_1
  relay := refuseActions ["Reset"]
  keepalive := ⟨some 60, 30⟩

/-- A call of the station, and one of the CSMS that is refused. -/
def bootText : String := "[2,\"s0\",\"BootNotification\",{}]"

@[inherit_doc bootText]
def resetText : String := "[2,\"c0\",\"Reset\",{}]"

/-- A turn in which nothing fails. -/
def fine (branch : Branch) : Turn := ⟨branch, fun _ => .done, fun _ => .done⟩

/-- Both calls come, and the legs are pinged twice; only the station answers. -/
def relayTurns : List Turn :=
  [fine (.tick 60), fine (.message .south (some (.ok (.text bootText)))),
    fine (.message .south (some (.ok (.pong [])))),
    fine (.message .north (some (.ok (.text resetText)))), fine (.tick 85)]

/-- The loop by then. -/
def relayed : Pump := (Transitions.run (step refusing) start relayTurns).getD start

theorem run_relayed : Transitions.run (step refusing) start relayTurns = some relayed := by
  have hsome : (Transitions.run (step refusing) start relayTurns).isSome = true := by
    decide +kernel
  obtain ⟨p, hp⟩ := Option.isSome_iff_exists.mp hsome
  rw [relayed, hp, Option.getD_some]

/-- A refusal that cannot be sent, and is not written, ends the loop. -/
def brokenTurns : List Turn :=
  relayTurns ++ [⟨.message .north (some (.ok (.text resetText))), fun _ => .failed false,
    fun _ => .failed false⟩]

/-- The loop by then. -/
def broken : Pump := (Transitions.run (step refusing) start brokenTurns).getD start

theorem run_broken : Transitions.run (step refusing) start brokenTurns = some broken := by
  have hsome : (Transitions.run (step refusing) start brokenTurns).isSome = true := by
    decide +kernel
  obtain ⟨p, hp⟩ := Option.isSome_iff_exists.mp hsome
  rw [broken, hp, Option.getD_some]

/-- The station's call and the first refusal have been written; the second has not. -/
theorem written_run_broken :
    broken.ended = true ∧
    (broken.written .north).filterMap textOf = [bootText,
      "[4,\"c0\",\"NotSupported\",\"handled by the local controller\",{}]"] ∧
    ∃ outcomes, List.Forall₂ (fun (heard : Leg × String) outcome =>
        refusing.Handles heard.1 heard.2 outcome) (brokenTurns.filterMap Turn.heard) outcomes ∧
      ∀ leg, (broken.written leg).filterMap textOf = outcomes.filterMap (onLeg leg) ∨
        broken.ended = true ∧
          (broken.written leg).filterMap textOf = (outcomes.filterMap (onLeg leg)).dropLast :=
  ⟨by decide +kernel, by decide +kernel, written_run run_broken⟩

/-- The CSMS has not answered the first ping, the station only the second. -/
theorem overdue_run_relayed :
    ((relayed.step refusing (fine (.overdue .north 90))).isSome ↔ relayed.ended = false ∧
      ∃ sent, awaited .north relayTurns = some sent ∧ sent + 30 ≤ 90) ∧
    (relayed.step refusing (fine (.overdue .north 90))).isSome = true ∧
    (relayed.step refusing (fine (.overdue .south 90))).isSome = false :=
  ⟨overdue_run run_relayed .north 90 _ _, by decide +kernel, by decide +kernel⟩

end OcppKit.Reference
