import OcppKit.Engine.Wire
import OcppKit.Transport.Relay

/-!
# Two engines and a controller between them

A charging station and a CSMS that are not connected to each other, but each to a local
controller, whose loop passes on what comes from the one to the other (`OcppKit.RelayedWire`). Each
leg is a connection of its own: one end of it may be gone while the other is still read, what has
been written may be lost, and a driver pings, answers pings and closes as it likes.

An application cannot tell that there is a controller, except by what the hook withholds: whatever
happens on either leg, and in whatever order, what it is asked is what the other application has
sent, as it was sent and in the order it was sent, and nothing that the hook has not let through
(`OcppKit.relayed_requests`). In particular the errors with which the controller refuses a `CALL`
are asked of nobody.
-/

namespace OcppKit

/-- The leg of a side. -/
def Role.leg : Role → Leg
  | .chargingStation => .south
  | .csms => .north

@[simp] theorem Role.leg_other (role : Role) : role.other.leg = role.leg.other := by
  cases role <;> rfl

variable [Externals]

/-! ### The system -/

/-- **Two engines and a controller between them.** -/
structure RelayedWire (S : Role → Type) where
  /-- The engine of each side. -/
  engine : (role : Role) → Engine (S role)
  /-- Whether the end of this side is open. -/
  isOpen : Role → Bool
  /-- What this side has written on its leg and the controller has not read, oldest first. -/
  sent : Leg → List Ws.Message
  /-- What the loop of the controller is given. -/
  session : RelaySession
  /-- The loop; what it has written on a leg and has not arrived is in it. -/
  pump : Pump

namespace RelayedWire

/-- What may happen next. -/
inductive Move where
  /-- A station is accepted, and a connection to the CSMS established, under this version. -/
  | establish (version : Version)
  /-- The driver of this side tells its engine. -/
  | attach (role : Role) (now : Instant)
  /-- The oldest message that is on its way to this side arrives. -/
  | deliver (role : Role) (now : Instant)
  /-- The driver of this side writes a message that is no text. -/
  | speak (role : Role) (message : Ws.Message)
  /-- The loop takes a turn. -/
  | relay (turn : Pump.Turn)
  /-- The end of this side is gone; so much of what it has written can still be read. -/
  | close (role : Role) (kept : ℕ)
  /-- The driver of this side tells its engine. -/
  | detach (role : Role) (now : Instant)
  /-- The application of this side does something, or time passes. -/
  | act (role : Role) (op : Op)
  /-- The driver of this side takes an output. -/
  | poll (role : Role)

variable {S : Role → Type} [∀ role, MessageStore (S role)]

/-- One side performs an operation. -/
def exec (w : RelayedWire S) (role : Role) (op : Op) : RelayedWire S :=
  { w with engine := Function.update w.engine role (OcppKit.exec (w.engine role) op) }

/-- These messages are on their way from one leg to the controller. -/
def withSent (w : RelayedWire S) (leg : Leg) (messages : List Ws.Message) : RelayedWire S :=
  { w with sent := Function.update w.sent leg messages }

/-- These messages are on their way from the controller to one leg. -/
def withWritten (w : RelayedWire S) (leg : Leg) (messages : List Ws.Message) : RelayedWire S :=
  { w with pump := { w.pump with written := Function.update w.pump.written leg messages } }

/-- Whether this side is at its connection. -/
def attached (w : RelayedWire S) (role : Role) : Bool :=
  w.isOpen role && (w.engine role).connected

/-- Whether this side has no connection, and its engine knows. -/
def away (w : RelayedWire S) (role : Role) : Bool :=
  !w.isOpen role && !(w.engine role).connected

/-- The message that a turn of the loop reads, and the leg it comes on. -/
def reads (turn : Pump.Turn) : Option (Leg × Ws.Message) :=
  match turn.branch with
  | .message leg (some (.ok message)) => some (leg, message)
  | _ => none

/-- **One move**, if it is possible. -/
def step (w : RelayedWire S) : Move → Option (RelayedWire S)
  | .establish version =>
      if w.pump.ended = true ∧ w.away .chargingStation ∧ w.away .csms then
        some { w with
          isOpen := fun _ => true, sent := fun _ => []
          session := { w.session with version := version }, pump := Pump.start }
      else none
  | .attach role now =>
      if w.isOpen role = true ∧ (w.engine role).connected = false then
        some (w.exec role (.handle now (.connected w.session.version)))
      else none
  | .deliver role now =>
      match w.pump.written role.leg with
      | [] => none
      | message :: rest =>
          if w.attached role then
            match message with
            | .text text =>
                some ((w.exec role (.handle now (.received text))).withWritten role.leg rest)
            | _ => some (w.withWritten role.leg rest)
          else none
  | .speak role message =>
      if w.isOpen role = true ∧ Pump.textOf message = none then
        some (w.withSent role.leg (w.sent role.leg ++ [message]))
      else none
  | .relay turn =>
      match w.pump.step w.session turn with
      | none => none
      | some pump =>
          match reads turn with
          | none => some { w with pump := pump }
          | some (leg, message) =>
              match w.sent leg with
              | [] => none
              | first :: rest =>
                  if first = message then some ({ w with pump := pump }.withSent leg rest) else none
  | .close role kept =>
      some (({ w with isOpen := Function.update w.isOpen role false }.withSent role.leg
        ((w.sent role.leg).take kept)).withWritten role.leg [])
  | .detach role now =>
      if w.isOpen role = false ∧ (w.engine role).connected = true then
        some (w.exec role (.handle now .disconnected))
      else none
  | .act role op => if op.isLocal then some (w.exec role op) else none
  | .poll role =>
      let texts := if w.attached role then transmitted (w.engine role).outputs.head?.toList else []
      some ((w.exec role .pollOutput).withSent role.leg
        (w.sent role.leg ++ texts.map Ws.Message.text))

/-- Both engines hold what their stores hold, and there are no connections. -/
structure Starts (w : RelayedWire S) : Prop where
  /-- Each engine starts from its store, on its side. -/
  engine : ∀ role, ∃ config store ids, config.role = role ∧
    Engine.withStore config store ids = .ok (w.engine role)
  /-- There is no connection. -/
  down : w.pump.ended = true ∧ ∀ role, w.isOpen role = false
  /-- Nothing is on its way to the controller. -/
  sent : ∀ leg, w.sent leg = []
  /-- Nor from it. -/
  written : ∀ leg, w.pump.written leg = []

/-- **The state can be reached** from two engines that start. -/
def Reachable (w : RelayedWire S) : Prop := Transitions.Reaches step Starts w

/-! ### What a move does -/

section

variable (w : RelayedWire S) (role : Role) (op : Op)

@[simp] theorem engine_exec : (w.exec role op).engine role = OcppKit.exec (w.engine role) op :=
  Function.update_self _ _ _

@[simp] theorem engine_exec_other :
    (w.exec role op).engine role.other = w.engine role.other :=
  Function.update_of_ne role.other_ne _ _

@[simp] theorem sent_exec : (w.exec role op).sent = w.sent := rfl

@[simp] theorem pump_exec : (w.exec role op).pump = w.pump := rfl

omit [∀ role, MessageStore (S role)]

variable (leg : Leg) (messages : List Ws.Message)

@[simp] theorem engine_withSent : (w.withSent leg messages).engine = w.engine := rfl

@[simp] theorem pump_withSent : (w.withSent leg messages).pump = w.pump := rfl

@[simp] theorem engine_withWritten : (w.withWritten leg messages).engine = w.engine := rfl

@[simp] theorem sent_withWritten : (w.withWritten leg messages).sent = w.sent := rfl

@[simp] theorem sent_withSent : (w.withSent leg messages).sent leg = messages :=
  Function.update_self _ _ _

@[simp] theorem sent_withSent_other :
    (w.withSent leg messages).sent leg.other = w.sent leg.other :=
  Function.update_of_ne leg.other_ne _ _

@[simp] theorem written_withWritten :
    (w.withWritten leg messages).pump.written leg = messages :=
  Function.update_self _ _ _

@[simp] theorem written_withWritten_other :
    (w.withWritten leg messages).pump.written leg.other = w.pump.written leg.other :=
  Function.update_of_ne leg.other_ne _ _

end

/-- **What each move does**: the condition under which it is possible, and the state after
it. -/
inductive Moved (w : RelayedWire S) : Move → RelayedWire S → Prop
  /-- The connections are established. -/
  | establish (version : Version) : (∀ role, (w.engine role).connected = false) →
      Moved w (.establish version) { w with
        isOpen := fun _ => true, sent := fun _ => []
        session := { w.session with version := version }, pump := Pump.start }
  /-- An engine is told of it. -/
  | attach (role : Role) (now : Instant) : (w.engine role).connected = false →
      Moved w (.attach role now) (w.exec role (.handle now (.connected w.session.version)))
  /-- A text arrives. -/
  | deliver (role : Role) (now : Instant) (text : String) (rest : List Ws.Message) :
      w.pump.written role.leg = .text text :: rest → w.isOpen role = true →
      (w.engine role).connected = true →
      Moved w (.deliver role now)
        ((w.exec role (.handle now (.received text))).withWritten role.leg rest)
  /-- Something else arrives. -/
  | heard (role : Role) (now : Instant) (message : Ws.Message) (rest : List Ws.Message) :
      w.pump.written role.leg = message :: rest → Pump.textOf message = none →
      Moved w (.deliver role now) (w.withWritten role.leg rest)
  /-- A message that is no text is written. -/
  | speak (role : Role) (message : Ws.Message) : Pump.textOf message = none →
      Moved w (.speak role message) (w.withSent role.leg (w.sent role.leg ++ [message]))
  /-- The loop takes a turn in which it reads nothing. -/
  | relay (turn : Pump.Turn) (pump : Pump) : w.pump.step w.session turn = some pump →
      reads turn = none → Moved w (.relay turn) { w with pump := pump }
  /-- The loop takes a turn in which it reads a message. -/
  | relayMessage (turn : Pump.Turn) (pump : Pump) (leg : Leg) (message : Ws.Message)
      (rest : List Ws.Message) : w.pump.step w.session turn = some pump →
      reads turn = some (leg, message) → w.sent leg = message :: rest →
      Moved w (.relay turn) ({ w with pump := pump }.withSent leg rest)
  /-- One end is gone. -/
  | close (role : Role) (kept : ℕ) : Moved w (.close role kept)
      (({ w with isOpen := Function.update w.isOpen role false }.withSent role.leg
        ((w.sent role.leg).take kept)).withWritten role.leg [])
  /-- An engine is told of it. -/
  | detach (role : Role) (now : Instant) : w.isOpen role = false →
      Moved w (.detach role now) (w.exec role (.handle now .disconnected))
  /-- An operation that has nothing to do with the connection. -/
  | act (role : Role) (op : Op) : op.isLocal = true → Moved w (.act role op) (w.exec role op)
  /-- An output is taken, and written or lost. -/
  | poll (role : Role) (texts : List String) :
      texts = [] ∨ texts = transmitted (w.engine role).outputs.head?.toList →
      Moved w (.poll role) ((w.exec role .pollOutput).withSent role.leg
        (w.sent role.leg ++ texts.map Ws.Message.text))

theorem moved_of_step {w w' : RelayedWire S} {m : Move} (h : w.step m = some w') :
    Moved w m w' := by
  cases m with
  | establish version =>
      simp only [step] at h
      split at h
      next hdown =>
        obtain rfl := Option.some.inj h
        obtain ⟨-, hstation, hcsms⟩ := hdown
        refine .establish version fun role => ?_
        cases role with
        | chargingStation => simpa [away] using (Bool.and_eq_true_iff.mp hstation).2
        | csms => simpa [away] using (Bool.and_eq_true_iff.mp hcsms).2
      · cases h
  | attach role now =>
      simp only [step] at h
      split at h
      next hopen =>
        obtain rfl := Option.some.inj h
        exact .attach role now hopen.2
      · cases h
  | deliver role now =>
      simp only [step] at h
      split at h
      · cases h
      next message rest hwritten =>
        split at h
        next hattached =>
          obtain ⟨hopen, hconnected⟩ := Bool.and_eq_true_iff.mp hattached
          cases message with
          | text text =>
              obtain rfl := Option.some.inj h
              exact .deliver role now text rest hwritten hopen hconnected
          | binary | ping | pong | close =>
              obtain rfl := Option.some.inj h
              exact .heard role now _ rest hwritten rfl
        · cases h
  | speak role message =>
      simp only [step] at h
      split at h
      next hopen =>
        obtain rfl := Option.some.inj h
        exact .speak role message hopen.2
      · cases h
  | relay turn =>
      simp only [step] at h
      split at h
      · cases h
      next pump hpump =>
        split at h
        next hreads =>
          obtain rfl := Option.some.inj h
          exact .relay turn pump hpump hreads
        next leg message hreads =>
          split at h
          · cases h
          next first rest hsent =>
            split at h
            next hfirst =>
              obtain rfl := Option.some.inj h
              subst hfirst
              exact .relayMessage turn pump leg first rest hpump hreads hsent
            · cases h
  | close role kept =>
      obtain rfl := Option.some.inj h
      exact .close role kept
  | detach role now =>
      simp only [step] at h
      split at h
      next hdown =>
        obtain rfl := Option.some.inj h
        exact .detach role now hdown.1
      · cases h
  | act role op =>
      simp only [step] at h
      split at h
      next hlocal =>
        obtain rfl := Option.some.inj h
        exact .act role op hlocal
      · cases h
  | poll role =>
      obtain rfl := Option.some.inj h
      refine .poll role _ ?_
      split
      · exact Or.inr rfl
      · exact Or.inl rfl

/-- **What every move keeps holds in every state that is reached.** -/
theorem Reachable.invariant {P : RelayedWire S → Prop} {w : RelayedWire S} (h : w.Reachable)
    (hstart : ∀ w : RelayedWire S, w.Starts → P w)
    (hmove : ∀ (w : RelayedWire S) (m : Move) (w' : RelayedWire S), w.Reachable → P w →
      Moved w m w' → P w') : P w :=
  Transitions.Reaches.invariant h hstart fun w m w' hreach hinv hstep =>
    hmove w m w' hreach hinv (moved_of_step hstep)

end RelayedWire

/-! ### What the hook lets through -/

/-- The frame a request is sent in. -/
def IncomingRequest.frame (r : IncomingRequest) : Frame :=
  requestFrame r.id r.action r.payload r.kind

namespace RelaySession

/-- **Whether the hook lets a request through** that travels this way. -/
def passes (session : RelaySession) (direction : Direction) (r : IncomingRequest) : Bool :=
  match session.relay session.identity direction r.frame with
  | .forward => true
  | _ => false

/-- The hook puts no text in the place of another. -/
def KeepsTexts (session : RelaySession) : Prop :=
  ∀ direction frame text, session.relay session.identity direction frame ≠ .replace text

/-- A hook that only refuses puts none. -/
theorem keepsTexts_refuseActions {session : RelaySession} {actions : List String}
    (h : session.relay = refuseActions actions) : session.KeepsTexts := by
  intro direction frame text hreplace
  rw [h] at hreplace
  cases frame with
  | call id action payload | send id action payload =>
      simp only [refuseActions] at hreplace
      split at hreplace <;> cases hreplace
  | callResult | callError | callResultError => cases hreplace

/-- **What comes of a text** when none is put in the place of another: nothing; the text itself, if
the hook lets the request in it through; or an answer, which asks nothing. -/
theorem comesOf_cases [LawfulExternals] {session : RelaySession} (hkeeps : session.KeepsTexts)
    (leg : Leg) (text : String) :
    session.comesOf (leg, text) = none ∨
      (session.comesOf (leg, text) = some (leg.other, text) ∧
        ∀ r : IncomingRequest, Frame.parse text session.version = .ok r.frame →
          session.passes leg.direction r = true) ∨
      ∃ answer, session.comesOf (leg, text) = some (leg, answer) ∧ requestOf answer = none ∧
        ∀ r : IncomingRequest, Frame.parse answer session.version ≠ .ok r.frame := by
  have hhandles := session.handles_comesOf leg text
  generalize session.comesOf (leg, text) = outcome at hhandles
  cases hhandles with
  | unread error hparse =>
      refine Or.inr (Or.inl ⟨rfl, fun r hr => ?_⟩)
      rw [hparse] at hr
      cases hr
  | forwarded frame hparse hrelay =>
      refine Or.inr (Or.inl ⟨rfl, fun r hr => ?_⟩)
      obtain rfl := Except.ok.inj (hparse.symm.trans hr)
      rw [passes, hrelay]
  | replaced frame text' _ hrelay => exact absurd hrelay (hkeeps _ _ _)
  | dropped | unanswerable => exact Or.inl rfl
  | refused id action payload error answer _ _ hanswer =>
      refine Or.inr (Or.inr ⟨answer, rfl, ?_, fun r hr => ?_⟩)
      · rcases requestOf_toJson hanswer with hnone | hnone
        · exact hnone
        · exact hnone
      · have hframe := Frame.eq_overTheWire hanswer hr
        rcases r with ⟨id', action', payload', _ | _⟩ <;> cases hframe

end RelaySession

/-! ### What an engine is told -/

section

variable {S : Type} [MessageStore S]

/-- The version that a connection is established under. -/
def Op.negotiated : Op → Option Version
  | .handle _ (.connected version) => some version
  | _ => none

/-- An engine speaks the version of its last connection. -/
theorem version_exec (e : Engine S) (op : Op) :
    (exec e op).version = op.negotiated.getD e.version := by
  have heffect := (newEvents_effect e op).1
  change (exec e op).setting.version = _
  generalize (exec e op).setting = s at heffect
  generalize foreign (newEvents e op) = left at heffect
  cases heffect <;> rfl

/-- What an operation delivers is a frame of the version of the engine, which it receives. -/
theorem parse_of_newEvents {e : Engine S} {op : Op} {r : IncomingRequest}
    (h : r ∈ requests (newEvents e op)) :
    ∃ now text, op = .handle now (.received text) ∧
      Frame.parse text e.version = .ok r.frame := by
  have heffect := (newEvents_effect e op).1
  rw [← requests_foreign] at h
  generalize (exec e op).setting = s at heffect
  generalize foreign (newEvents e op) = left at heffect h
  cases heffect with
  | malformed now text error _ =>
      rw [replyMarks] at h
      split at h <;> cases h
  | delivered now text id action payload kind hparse _ =>
      obtain rfl := List.mem_singleton.mp h
      exact ⟨now, text, rfl, hparse⟩
  | _ => cases h

end

/-! ### What is on its way -/

namespace RelayedWire

variable {S : Role → Type} [∀ role, MessageStore (S role)]

omit [Externals] in
theorem heard_eq (turn : Pump.Turn) : turn.heard =
    (reads turn).bind fun read => (Pump.textOf read.2).map fun text => (read.1, text) := by
  rcases turn with ⟨⟨leg, _ | error | message⟩ | now | ⟨leg, now⟩, sends, closing⟩
  case message.some.ok => cases message <;> rfl
  all_goals rfl

/-- The texts that this side has written and the other has not received: the controller has passed
them on, or has yet to read them. -/
def onTheWay (w : RelayedWire S) (role : Role) : List String :=
  (w.pump.written role.leg.other).filterMap Pump.textOf ++
    (w.sent role.leg).filterMap Pump.textOf

/-- **Nothing is asked that was not**: what the other side has received, what is on its way and what
the driver has yet to take, as far as something is asked in it, is in this order part of what this
side has written. -/
def Carried (w : RelayedWire S) (role : Role) : Prop :=
  ((received (w.engine role.other).log).filterMap requestOf ++
    ((w.onTheWay role).filterMap requestOf ++
      (transmitted (w.engine role).outputs).filterMap requestOf)).Sublist
    ((texts (w.engine role).log).filterMap requestOf)

omit [∀ role, MessageStore (S role)] in
/-- What is lost on its way is not asked. -/
theorem Carried.mono {w w' : RelayedWire S} {role : Role} (h : w.Carried role)
    (hengine : w'.engine = w.engine) (hway : ((w'.onTheWay role).filterMap requestOf).Sublist
      ((w.onTheWay role).filterMap requestOf)) : w'.Carried role := by
  rw [Carried, hengine]
  exact ((List.Sublist.refl _).append (hway.append (List.Sublist.refl _))).trans h

/-- An operation of this side that takes nothing only adds to both. -/
theorem Carried.exec_self {w : RelayedWire S} {role : Role} {o : Op} (h : w.Carried role)
    (hop : o.polls = false) : (w.exec role o).Carried role := by
  obtain ⟨evs, hlog, houtputs⟩ := hands_exec (w.engine role) hop
  have hway : (w.exec role o).onTheWay role = w.onTheWay role := rfl
  rw [Carried, engine_exec, engine_exec_other, hway, hlog, houtputs, texts_append,
    transmitted_append, transmitted_outputs, List.filterMap_append, List.filterMap_append,
    ← List.append_assoc _ _ ((texts evs).filterMap requestOf), ← List.append_assoc]
  exact h.append (List.Sublist.refl _)

/-- An operation of the other side that receives nothing changes nothing. -/
theorem Carried.exec_other {w : RelayedWire S} {role : Role} {op : Op} (h : w.Carried role)
    (hop : received op.inputs = []) : (w.exec role.other op).Carried role := by
  have hself : (w.exec role.other op).engine role = w.engine role :=
    Function.update_of_ne role.other_ne.symm _ _
  have hway : (w.exec role.other op).onTheWay role = w.onTheWay role := rfl
  rw [Carried, hself, engine_exec, hway, received_exec, hop, List.append_nil]
  exact h

theorem Carried.exec {w : RelayedWire S} {op : Op} (h : ∀ role, w.Carried role)
    (hop : op.polls = false) (hinputs : received op.inputs = []) (role role' : Role) :
    (w.exec role op).Carried role' := by
  rcases role'.eq_or_other role with rfl | rfl
  · exact (h role).exec_self hop
  · exact (h role').exec_other hinputs

/-- A turn of the loop asks nothing of its own. -/
theorem asked_due [LawfulExternals] {session : RelaySession} (hkeeps : session.KeepsTexts)
    (turn : Pump.Turn) (leg : Leg) :
    ((Pump.due session leg.other [turn]).filterMap requestOf).Sublist
      ((Pump.onLeg leg turn.heard).toList.filterMap requestOf) := by
  rw [Pump.due, List.filterMap_cons, List.filterMap_nil]
  rcases turn.heard with _ | ⟨leg', text⟩
  · exact List.nil_sublist _
  rw [List.filterMap_cons, List.filterMap_nil]
  rcases session.comesOf_cases hkeeps leg' text with hnone | ⟨hsame, -⟩ | ⟨answer, hanswer, hno, -⟩
  · rw [hnone]
    exact List.nil_sublist _
  · -- the text itself goes to the other leg
    rw [hsame]
    rcases leg'.eq_or_other leg with rfl | rfl
    · simp [Pump.onLeg]
    · simp [Pump.onLeg]
  · -- an answer goes back, and asks nothing
    rw [hanswer]
    rcases leg'.eq_or_other leg with rfl | rfl
    · simp [Pump.onLeg, leg.other_ne.symm]
    · simp [Pump.onLeg, hno]

/-- What a turn of the loop leaves on its way to one side. -/
theorem written_relay [LawfulExternals] {session : RelaySession} (hkeeps : session.KeepsTexts)
    {p p' : Pump} {turn : Pump.Turn} (h : p.step session turn = some p') (leg : Leg) :
    (((p'.written leg.other).filterMap Pump.textOf).filterMap requestOf).Sublist
      (((p.written leg.other).filterMap Pump.textOf ++
        (Pump.onLeg leg turn.heard).toList).filterMap requestOf) := by
  refine ((Pump.writes_step h leg.other).isPrefix.sublist.filterMap requestOf).trans ?_
  rw [List.filterMap_append, List.filterMap_append]
  exact (List.Sublist.refl _).append (asked_due hkeeps turn leg)

theorem carried_moved [LawfulExternals] {w w' : RelayedWire S} {m : Move}
    (hkeeps : w.session.KeepsTexts) (h : ∀ role, w.Carried role) (hm : Moved w m w') :
    ∀ role, w'.Carried role := by
  cases hm with
  | establish version _ => exact fun role => (h role).mono rfl (List.nil_sublist _)
  | attach role now _ => exact Carried.exec h rfl rfl role
  | detach role now _ => exact Carried.exec h rfl rfl role
  | act role op hlocal =>
      obtain ⟨hop, hinputs⟩ := Wire.received_of_isLocal hlocal
      exact Carried.exec h hop hinputs role
  | deliver role now text rest hwritten _ _ =>
      intro role'
      rcases role.eq_or_other role' with rfl | rfl
      · -- what this side writes goes to the other leg
        have hself := (h role').exec_self (o := .handle now (.received text)) rfl
        refine hself.mono rfl ?_
        rw [onTheWay, written_withWritten_other]
        exact List.Sublist.refl _
      · -- what it receives is the first of what is on its way to it
        have hother := h role.other
        rw [Carried, Role.other_other, onTheWay, Role.leg_other, Leg.other_other, hwritten,
          List.filterMap_cons_some (show Pump.textOf (.text text) = some text from rfl),
          ← List.singleton_append, List.append_assoc, List.filterMap_append,
          List.append_assoc (List.filterMap requestOf [text])] at hother
        rw [Carried, Role.other_other, onTheWay, Role.leg_other, Leg.other_other,
          written_withWritten, sent_withWritten, sent_exec, engine_withWritten, engine_exec,
          engine_exec_other, received_exec, List.filterMap_append, List.append_assoc]
        exact hother
  | heard role now message rest hwritten hnone =>
      intro role'
      refine (h role').mono rfl ?_
      rcases role.eq_or_other role' with rfl | rfl
      · rw [onTheWay, written_withWritten_other]
        exact List.Sublist.refl _
      · rw [onTheWay, onTheWay, Role.leg_other, Leg.other_other, written_withWritten, hwritten,
          List.filterMap_cons_none hnone]
        exact List.Sublist.refl _
  | speak role message hnone =>
      intro role'
      refine (h role').mono rfl ?_
      rcases role.eq_or_other role' with rfl | rfl
      · rw [onTheWay, onTheWay, sent_withSent, @List.filterMap_append _ _ _ [message],
          List.filterMap_cons_none hnone, List.filterMap_nil, List.append_nil]
        exact List.Sublist.refl _
      · rw [onTheWay, onTheWay, Role.leg_other, sent_withSent_other, pump_withSent]
  | relay turn pump hpump hreads =>
      intro role
      refine (h role).mono rfl ?_
      have hwritten := written_relay hkeeps hpump role.leg
      rw [heard_eq, hreads] at hwritten
      rw [onTheWay, List.filterMap_append, onTheWay, List.filterMap_append]
      refine List.Sublist.append ?_ (List.Sublist.refl _)
      simpa [Pump.onLeg] using hwritten
  | relayMessage turn pump leg message rest hpump hreads hsent =>
      intro role
      refine (h role).mono rfl ?_
      have hwritten := written_relay hkeeps hpump role.leg
      rw [heard_eq, hreads, Option.bind_some] at hwritten
      rcases leg.eq_or_other role.leg with hleg | hleg
      · -- what is read leaves the one leg as it comes to the other
        rw [onTheWay, onTheWay, hleg, sent_withSent, hsent]
        rw [hleg] at hwritten
        rw [List.filterMap_append]
        refine (hwritten.append (List.Sublist.refl _)).trans ?_
        rw [← List.filterMap_append, List.append_assoc]
        rcases htext : Pump.textOf message with _ | text
        · simp [Pump.onLeg, htext]
        · simp [Pump.onLeg, htext]
      · rw [onTheWay, onTheWay, hleg, sent_withSent_other, List.filterMap_append,
          List.filterMap_append]
        rw [hleg] at hwritten
        refine List.Sublist.append (hwritten.trans ?_) (List.Sublist.refl _)
        rcases htext : Pump.textOf message with _ | text
        · simp [Pump.onLeg]
        · simp [Pump.onLeg, leg.other_ne.symm]
  | close role kept =>
      intro role'
      refine (h role').mono rfl ?_
      rw [onTheWay, List.filterMap_append, onTheWay, List.filterMap_append, sent_withWritten]
      -- some of what it has sent is still read, and nothing more is written to it
      rcases role.eq_or_other role' with rfl | rfl
      · rw [written_withWritten_other, sent_withSent]
        exact (List.Sublist.refl _).append
          (((List.take_sublist _ _).filterMap _).filterMap _)
      · rw [Role.leg_other, Leg.other_other, written_withWritten, sent_withSent_other]
        exact (List.nil_sublist _).append (List.Sublist.refl _)
  | poll role texts htexts =>
      intro role'
      have htransmitted : (texts ++ transmitted (w.engine role).outputs.tail).Sublist
          (transmitted (w.engine role).outputs) := by
        rcases hout : (w.engine role).outputs with _ | ⟨o, rest⟩
        · rw [hout] at htexts
          rcases htexts with rfl | rfl <;> exact List.Sublist.refl _
        · rw [hout] at htexts
          rw [List.tail_cons, ← List.singleton_append, transmitted_append]
          refine List.Sublist.append ?_ (List.Sublist.refl _)
          rcases htexts with rfl | rfl
          · exact List.nil_sublist _
          · exact List.Sublist.refl _
      rcases role.eq_or_other role' with rfl | rfl
      · have htext : (texts.map Ws.Message.text).filterMap Pump.textOf = texts := by
          rw [List.filterMap_map]
          exact List.filterMap_some
        rw [Carried, onTheWay, sent_withSent, engine_withSent, engine_exec, engine_exec_other,
          log_pollOutput, pump_withSent, pump_exec, @List.filterMap_append _ _ (w.sent _), htext]
        refine List.Sublist.trans ?_ (h role')
        rw [← List.append_assoc ((w.pump.written _).filterMap _),
          @List.filterMap_append _ _ _ texts, List.append_assoc (List.filterMap _ (_ ++ _)),
          ← @List.filterMap_append _ _ texts]
        refine (List.Sublist.refl _).append ((List.Sublist.refl _).append ?_)
        -- an output that is taken is written at most once
        exact htransmitted.filterMap requestOf
      · have hother := h role.other
        rw [Carried, Role.other_other, onTheWay, Role.leg_other] at hother
        rw [Carried, Role.other_other, onTheWay, Role.leg_other, sent_withSent_other,
          pump_withSent, engine_withSent, engine_exec, engine_exec_other, log_pollOutput]
        exact hother

theorem carried_starts {w : RelayedWire S} (h : w.Starts) (role : Role) : w.Carried role := by
  have houtputs : ∀ role, (w.engine role).outputs = [] ∧ received (w.engine role).log = [] := by
    intro role
    obtain ⟨config, store, ids, -, hstart⟩ := h.engine role
    obtain ⟨entries, hlog⟩ := log_withStore hstart
    refine ⟨?_, ?_⟩
    · rw [handed_withStore hstart, hlog]
      exact filterMap_accepted entries fun _ => rfl
    · rw [hlog]
      exact filterMap_accepted entries fun _ => rfl
  rw [Carried, (houtputs role.other).2, onTheWay, h.sent, h.written, (houtputs role).1]
  exact List.nil_sublist _

/-! ### What is let through -/

/-- **Only what the hook lets through gets through**: what is on its way from the controller, and
what has been delivered. -/
structure Vetted (w : RelayedWire S) : Prop where
  /-- An engine that is at its connection speaks the version of the connection. -/
  version : ∀ role, (w.engine role).connected = true → w.isOpen role = true →
    (w.engine role).version = w.session.version
  /-- What the controller has written to one side has been let through. -/
  written : ∀ role : Role, ∀ text ∈ (w.pump.written role.leg.other).filterMap Pump.textOf,
    ∀ r : IncomingRequest, Frame.parse text w.session.version = .ok r.frame →
      w.session.passes role.leg.direction r = true
  /-- What one side has been asked has been let through. -/
  requests : ∀ role : Role, ∀ r ∈ requests (w.engine role.other).log,
    w.session.passes role.leg.direction r = true

/-- What a turn of the loop writes has been let through. -/
theorem passes_due [LawfulExternals] {session : RelaySession} (hkeeps : session.KeepsTexts)
    {turn : Pump.Turn} {role : Role} {text : String}
    (h : text ∈ Pump.due session role.leg.other [turn]) (r : IncomingRequest)
    (hr : Frame.parse text session.version = .ok r.frame) :
    session.passes role.leg.direction r = true := by
  obtain ⟨⟨leg, text'⟩, -, h⟩ := List.mem_filterMap.mp h
  rcases session.comesOf_cases hkeeps leg text' with
    hnone | ⟨hsame, hpass⟩ | ⟨answer, hanswer, -, hno⟩
  · rw [hnone] at h
    cases h
  · rw [hsame] at h
    rcases leg.eq_or_other role.leg with hleg | hleg
    · rw [hleg] at h ⊢
      obtain rfl : text' = text := by simpa [Pump.onLeg] using h
      exact hpass r hr
    · rw [hleg] at h
      simp [Pump.onLeg] at h
  · rw [hanswer] at h
    rcases leg.eq_or_other role.leg with hleg | hleg
    · rw [hleg] at h
      simp [Pump.onLeg, leg.other_ne.symm] at h
    · rw [hleg] at h
      obtain rfl : answer = text := by simpa [Pump.onLeg] using h
      exact absurd hr (hno r)

omit [∀ role, MessageStore (S role)] in
/-- What is lost on its way, or kept, has been let through. -/
theorem Vetted.mono {w w' : RelayedWire S} (h : w.Vetted) (hengine : w'.engine = w.engine)
    (hsession : w'.session = w.session)
    (hopen : ∀ role, w'.isOpen role = true → w.isOpen role = true)
    (hwritten : ∀ leg, (w'.pump.written leg).filterMap Pump.textOf ⊆
      (w.pump.written leg).filterMap Pump.textOf) : w'.Vetted where
  version role hconnected hup := by
    rw [hengine] at hconnected
    rw [hengine, hsession]
    exact h.version role hconnected (hopen role hup)
  written role text htext := by
    rw [hsession]
    exact h.written role text (hwritten _ htext)
  requests role := by
    rw [hengine, hsession]
    exact h.requests role

omit [∀ role, MessageStore (S role)] in
/-- What is left of what is written to one side has been written. -/
theorem texts_withWritten_subset {w : RelayedWire S} {leg : Leg} {rest : List Ws.Message}
    (h : rest.Sublist (w.pump.written leg)) (leg' : Leg) :
    ((w.withWritten leg rest).pump.written leg').filterMap Pump.textOf ⊆
      (w.pump.written leg').filterMap Pump.textOf := by
  rcases leg.eq_or_other leg' with rfl | rfl
  · rw [written_withWritten]
    exact (h.filterMap Pump.textOf).subset
  · rw [written_withWritten_other]
    exact List.Subset.refl _

/-- An operation of one side that delivers only what is let through. -/
theorem Vetted.exec {w : RelayedWire S} (h : w.Vetted) (role : Role) {op : Op}
    (hversion : ((OcppKit.exec (w.engine role) op).connected = true → w.isOpen role = true →
      (OcppKit.exec (w.engine role) op).version = w.session.version))
    (hnew : ∀ r ∈ OcppKit.requests (newEvents (w.engine role) op),
      w.session.passes role.other.leg.direction r = true) : (w.exec role op).Vetted where
  version := by
    intro role'
    rcases role.eq_or_other role' with rfl | rfl
    · rw [engine_exec]
      exact hversion
    · rw [engine_exec_other]
      exact h.version _
  written := h.written
  requests := by
    intro role' r hr
    rcases role.eq_or_other role' with rfl | rfl
    · rw [engine_exec_other] at hr
      exact h.requests _ r hr
    · rw [Role.other_other, engine_exec, log_exec, requests_append, List.mem_append] at hr
      rcases hr with hr | hr
      · exact h.requests _ r (by rwa [Role.other_other])
      · exact hnew r hr

omit [∀ role, MessageStore (S role)] in
/-- A turn of the loop writes only what is let through. -/
theorem Vetted.relay [LawfulExternals] {w : RelayedWire S} (h : w.Vetted)
    (hkeeps : w.session.KeepsTexts) {turn : Pump.Turn} {pump : Pump}
    (hpump : w.pump.step w.session turn = some pump) : { w with pump := pump }.Vetted where
  version := h.version
  written role text htext r hr := by
    rcases List.mem_append.mp ((Pump.writes_step hpump _).isPrefix.subset htext) with hold | hdue
    · exact h.written role text hold r hr
    · exact passes_due hkeeps hdue r hr
  requests := h.requests

/-- What is not received is not delivered. -/
theorem requests_newEvents_of_ne {S : Type} [MessageStore S] {e : Engine S} {op : Op}
    (h : ∀ now text, op ≠ .handle now (.received text)) (r : IncomingRequest) :
    r ∉ OcppKit.requests (newEvents e op) := by
  intro hr
  obtain ⟨now, text, rfl, -⟩ := parse_of_newEvents hr
  exact h now text rfl

/-- An operation that is not told of the connection, and receives nothing. -/
theorem Vetted.exec_of_link {w : RelayedWire S} (h : w.Vetted) (role : Role) {op : Op}
    (hlink : op.link = none) (hnegotiated : op.negotiated = none)
    (hnew : ∀ now text, op ≠ .handle now (.received text)) : (w.exec role op).Vetted := by
  refine h.exec role ?_ fun r hr => absurd hr (requests_newEvents_of_ne hnew r)
  rw [(link_exec _ op).2, version_exec, hlink, hnegotiated]
  exact h.version role

theorem link_of_isLocal {op : Op} (h : op.isLocal = true) : op.link = none ∧
    op.negotiated = none ∧ ∀ now text, op ≠ .handle now (.received text) := by
  refine ⟨?_, ?_, ?_⟩
  · rcases op with ⟨now, _ | _ | _ | _⟩ | _ | _ | _ | _ | _ | _ | _ | _ | _ | _
    all_goals first | rfl | cases h
  · rcases op with ⟨now, _ | _ | _ | _⟩ | _ | _ | _ | _ | _ | _ | _ | _ | _ | _
    all_goals first | rfl | cases h
  · rintro now text rfl
    cases h

theorem vetted_moved [LawfulExternals] {w w' : RelayedWire S} {m : Move}
    (hkeeps : w.session.KeepsTexts) (h : w.Vetted) (hm : Moved w m w') : w'.Vetted := by
  cases hm with
  | establish version hdown =>
      refine ⟨fun role hconnected _ => ?_, ?_, fun role => h.requests role⟩
      · rw [hdown role] at hconnected
        cases hconnected
      · rintro role text htext
        cases htext
  | attach role now hdown =>
      refine h.exec role (fun _ _ => ?_) fun r hr => absurd hr (requests_newEvents_of_ne ?_ r)
      · rw [version_exec]
        rfl
      · rintro now text hop
        cases hop
  | deliver role now text rest hwritten hopen hconnected =>
      have hexec : (w.exec role (.handle now (.received text))).Vetted := by
        refine h.exec role ?_ fun r hr => ?_
        · rw [(link_exec _ _).2, version_exec]
          exact h.version role
        · obtain ⟨now', text', hop, hparse⟩ := parse_of_newEvents hr
          obtain ⟨-, rfl⟩ : now = now' ∧ text = text' := by simpa using hop
          -- it is read in the version in which it was let through
          rw [h.version role hconnected hopen] at hparse
          refine h.written role.other text ?_ r hparse
          rw [Role.leg_other, Leg.other_other, hwritten]
          exact List.mem_cons_self
      refine hexec.mono rfl rfl (fun _ hup => hup) (texts_withWritten_subset ?_)
      rw [pump_exec, hwritten]
      exact List.sublist_cons_self _ _
  | heard role now message rest hwritten _ =>
      refine h.mono rfl rfl (fun _ hup => hup) (texts_withWritten_subset ?_)
      rw [hwritten]
      exact List.sublist_cons_self _ _
  | speak role message _ => exact h.mono rfl rfl (fun _ hup => hup) fun _ => List.Subset.refl _
  | relay turn pump hpump _ => exact h.relay hkeeps hpump
  | relayMessage turn pump leg message rest hpump _ _ =>
      exact (h.relay hkeeps hpump).mono rfl rfl (fun _ hup => hup) fun _ => List.Subset.refl _
  | close role kept =>
      refine h.mono rfl rfl (fun role' hup => ?_) (texts_withWritten_subset (List.nil_sublist _))
      rcases eq_or_ne role' role with rfl | hne
      · have hclosed : Function.update w.isOpen role' false role' = true := hup
        rw [Function.update_self] at hclosed
        cases hclosed
      · have hkept : Function.update w.isOpen role false role' = true := hup
        rwa [Function.update_of_ne hne] at hkept
  | detach role now _ =>
      refine h.exec role (fun hconnected _ => ?_) fun r hr =>
        absurd hr (requests_newEvents_of_ne ?_ r)
      · rw [(link_exec _ _).2] at hconnected
        cases hconnected
      · rintro now text hop
        cases hop
  | act role op hlocal =>
      obtain ⟨hlink, hnegotiated, hnew⟩ := link_of_isLocal hlocal
      exact h.exec_of_link role hlink hnegotiated hnew
  | poll role texts _ =>
      have hexec : (w.exec role .pollOutput).Vetted := h.exec_of_link role rfl rfl (by
        rintro now text hop
        cases hop)
      exact hexec.mono rfl rfl (fun _ hup => hup) fun _ => List.Subset.refl _

theorem vetted_starts {w : RelayedWire S} (h : w.Starts) : w.Vetted where
  version role _ hup := by
    rw [h.down.2] at hup
    cases hup
  written role text htext := by
    rw [h.written] at htext
    cases htext
  requests role r hr := by
    obtain ⟨config, store, ids, -, hstart⟩ := h.engine role.other
    obtain ⟨entries, hlog⟩ := log_withStore hstart
    have hnone : OcppKit.requests (entries.map Event.accepted) = [] :=
      filterMap_accepted entries fun _ => rfl
    rw [hlog, hnone] at hr
    cases hr

/-! ### What the applications see -/

theorem engine_moved {w w' : RelayedWire S} {m : Move} (h : Moved w m w') :
    w'.engine = w.engine ∨ ∃ role op, w'.engine = (w.exec role op).engine := by
  cases h
  all_goals first | exact Or.inl rfl | exact Or.inr ⟨_, _, rfl⟩

/-- The hook stays the same. -/
theorem keepsTexts_moved {w w' : RelayedWire S} {m : Move} (h : Moved w m w') :
    w'.session.KeepsTexts ↔ w.session.KeepsTexts := by
  cases h
  all_goals exact Iff.rfl

theorem keepsTexts_run {w w' : RelayedWire S} {moves : List Move}
    (h : Transitions.run step w moves = some w') (hkeeps : w.session.KeepsTexts) :
    w'.session.KeepsTexts :=
  Transitions.run_invariant (φ := fun _ _ => True) (fun w => w.session.KeepsTexts)
    (fun _ _ _ hw _ hstep => (keepsTexts_moved (moved_of_step hstep)).mpr hw) hkeeps
    (Transitions.eachStep_true _ _) h

/-- Each engine is one that a run has reached. -/
theorem Reachable.engine {w : RelayedWire S} (h : w.Reachable) (role : Role) :
    ∃ config store ids e₀ ops, Engine.withStore config store ids = .ok e₀ ∧
      w.engine role = run e₀ ops := by
  refine h.invariant (P := fun w => ∀ role, ∃ config store ids e₀ ops,
    Engine.withStore config store ids = .ok e₀ ∧ w.engine role = run e₀ ops) ?_ ?_ role
  · intro w hw role
    obtain ⟨config, store, ids, -, hstart⟩ := hw.engine role
    exact ⟨config, store, ids, _, [], hstart, rfl⟩
  · intro w m w' _ hinv hmoved role'
    obtain ⟨config, store, ids, e₀, ops, hstart, hrun⟩ := hinv role'
    -- a move that changes an engine is one of its operations
    rcases engine_moved hmoved with hengine | ⟨role, op, hengine⟩
    · exact ⟨config, store, ids, e₀, ops, hstart, by rw [hengine, hrun]⟩
    · rcases role.eq_or_other role' with rfl | rfl
      · exact ⟨config, store, ids, e₀, ops ++ [op], hstart, by
          rw [hengine, engine_exec, hrun, run_concat]⟩
      · exact ⟨config, store, ids, e₀, ops, hstart, by rw [hengine, engine_exec_other, hrun]⟩

/-- What every move keeps of the order, and of what is let through. -/
theorem Reachable.carried_vetted [LawfulExternals] {w : RelayedWire S} (h : w.Reachable)
    (hkeeps : w.session.KeepsTexts) : (∀ role, w.Carried role) ∧ w.Vetted := by
  refine h.invariant (P := fun w => w.session.KeepsTexts → (∀ role, w.Carried role) ∧ w.Vetted)
    (fun w hw _ => ⟨carried_starts hw, vetted_starts hw⟩) ?_ hkeeps
  intro w m w' _ hinv hmoved hkeeps'
  have hkeeps := (keepsTexts_moved hmoved).mp hkeeps'
  obtain ⟨hcarried, hvetted⟩ := hinv hkeeps
  exact ⟨carried_moved hkeeps hcarried hmoved, vetted_moved hkeeps hvetted hmoved⟩

end RelayedWire

/-- **An application is asked through a controller what the other one has asked**, and the hook has
let through, in every state that is reached: each request with its id, its action and its payload,
in the order they were asked, and none more often than it was. -/
theorem relayed_requests [LawfulExternals] {S : Role → Type} [∀ role, MessageStore (S role)]
    {w : RelayedWire S} (h : w.Reachable) (hkeeps : w.session.KeepsTexts) (role : Role) :
    (requests (w.engine role.other).log).Sublist
      ((asked (w.engine role).log).filter (w.session.passes role.leg.direction)) := by
  obtain ⟨hcarried, hvetted⟩ := h.carried_vetted hkeeps
  have hall : (requests (w.engine role.other).log).Sublist (asked (w.engine role).log) := by
    obtain ⟨config, store, ids, e₀, ops, hstart, hrun⟩ := h.engine role.other
    obtain ⟨config', store', ids', e₀', ops', hstart', hrun'⟩ := h.engine role
    have hreceived : ((received (w.engine role.other).log).filterMap requestOf).Sublist
        ((texts (w.engine role).log).filterMap requestOf) :=
      (List.sublist_append_left _ _).trans (hcarried role)
    rw [hrun, hrun'] at hreceived
    rw [hrun, hrun']
    exact ((requests_run hstart ops).trans hreceived).trans (sublist_asked (wrote_run hstart' ops'))
  have hpass := hall.filter (w.session.passes role.leg.direction)
  rwa [List.filter_eq_self.mpr (hvetted.requests role)] at hpass

end OcppKit

/-! ### A run -/

namespace OcppKit.Reference

open RelayedWire

/-- A station and a CSMS, and a controller that refuses to have the station reset. -/
def site : RelayedWire fun _ => MemStore where
  engine
    | .chargingStation => station .v2_0_1
    | .csms => csms .v2_0_1
  isOpen _ := false
  sent _ := []
  session := refusing
  pump := { Pump.start with ended := true }

theorem starts_site : site.Starts where
  engine role := by
    cases role with
    | chargingStation => exact ⟨_, _, _, rfl, withStore_station .v2_0_1⟩
    | csms => exact ⟨_, _, _, rfl, withStore_csms .v2_0_1⟩
  down := ⟨rfl, fun _ => rfl⟩
  sent _ := rfl
  written _ := rfl

/-- They connect, the station boots, and the CSMS tries to reset it. -/
def siteMoves : List Move :=
  [.establish .v2_0_1, .attach .csms 1, .attach .chargingStation 1,
    .act .chargingStation (.callWith 2 "BootNotification" RawValue.emptyObject {}),
    .poll .chargingStation,
    .relay (fine (.message .south (some (.ok (.text bootText))))), .deliver .csms 3,
    .act .csms (.callWith 4 "Reset" RawValue.emptyObject {}), .poll .csms, .poll .csms,
    .relay (fine (.message .north (some (.ok (.text resetText)))))]

/-- The state they are in by then. -/
def siteBooted : RelayedWire fun _ => MemStore := (Transitions.run step site siteMoves).getD site

theorem relayed_requests_siteBooted :
    requests (siteBooted.engine .csms).log =
      [⟨⟨"s0"⟩, "BootNotification", RawValue.emptyObject, .call⟩] ∧
    (requests (siteBooted.engine .csms).log).Sublist
      ((asked (siteBooted.engine .chargingStation).log).filter
        (siteBooted.session.passes .northbound)) := by
  have hrun : Transitions.run step site siteMoves = some siteBooted := by
    have hsome : (Transitions.run step site siteMoves).isSome = true := by decide +kernel
    obtain ⟨w, hw⟩ := Option.isSome_iff_exists.mp hsome
    rw [siteBooted, hw, Option.getD_some]
  exact ⟨by decide +kernel, relayed_requests ⟨site, starts_site, siteMoves, hrun⟩
    (keepsTexts_run hrun (RelaySession.keepsTexts_refuseActions rfl)) .chargingStation⟩

end OcppKit.Reference
