import OcppKit.Engine.Offline
import OcppKit.Engine.Outputs
import OcppKit.Engine.Unanswered
import OcppKit.Library.Transitions

/-!
# Two engines and a connection

A charging station and a CSMS, each an engine with its driver, and the connection between
them: a first-in-first-out channel in each direction, of texts that have been written and have
not arrived. The connection can be cut at any moment, and what is on its way is lost with it; a
driver that has lost the connection says so to its engine before a new one is established.

Who takes the next step is open: a state moves by one `OcppKit.Wire.Move` at a time, and what is
proved is about every order of them. A driver takes outputs one at a time, whenever it likes –
also after a connection is gone, so that what it did not get to write may end up on the
next one.

`OcppKit.requests_sublist`: whatever happens, what one side's application is asked is what
the other side has sent, with the action and the payload it was sent with, and in the same
order, except that some of it may be missing; what is still on its way comes after it.
-/

namespace OcppKit

/-- The other side. -/
def Role.other : Role → Role
  | .chargingStation => .csms
  | .csms => .chargingStation

@[simp] theorem Role.other_other (role : Role) : role.other.other = role := by cases role <;> rfl

@[simp] theorem Role.other_ne (role : Role) : role.other ≠ role := by cases role <;> decide

theorem Role.eq_or_other (role role' : Role) : role' = role ∨ role' = role.other := by
  cases role <;> cases role' <;> decide

variable [Externals]

/-! ### The system -/

/-- **Two engines and the connection between them.** -/
structure Wire (S : Role → Type) where
  /-- The engine of each side. -/
  engine : (role : Role) → Engine (S role)
  /-- The version of the connection, while there is one. -/
  up : Option Version
  /-- What this side has written and has not arrived, oldest first. -/
  inTransit : Role → List String

/-- Whether the operation has nothing to do with the connection: it is the application's, or
time passes. -/
def Op.isLocal : Op → Bool
  | .handle _ .timeout => true
  | .handle _ _ | .pollOutput | .drain => false
  | _ => true

/-- The texts among some outputs. -/
def transmitted (outs : List Output) : List String :=
  outs.filterMap fun
    | .transmit text => some text
    | _ => none

namespace Wire

/-- What may happen next. -/
inductive Move where
  /-- A connection is established, under this version. -/
  | establish (version : Version)
  /-- The driver of this side tells its engine. -/
  | attach (role : Role) (now : Instant)
  /-- The oldest text that is on its way to this side arrives. -/
  | deliver (role : Role) (now : Instant)
  /-- The connection is cut. -/
  | cut
  /-- The driver of this side tells its engine. -/
  | detach (role : Role) (now : Instant)
  /-- The application of this side does something, or time passes. -/
  | act (role : Role) (op : Op)
  /-- The driver of this side takes an output. -/
  | poll (role : Role)

variable {S : Role → Type} [∀ role, MessageStore (S role)]

/-- One side performs an operation. -/
def exec (w : Wire S) (role : Role) (op : Op) : Wire S :=
  { w with engine := Function.update w.engine role (OcppKit.exec (w.engine role) op) }

/-- These texts are on their way from one side. -/
def withTransit (w : Wire S) (role : Role) (texts : List String) : Wire S :=
  { w with inTransit := Function.update w.inTransit role texts }

/-- Whether this side is at the connection. -/
def attached (w : Wire S) (role : Role) : Bool := w.up.isSome && (w.engine role).connected

/-- **One move**, if it is possible. -/
def step (w : Wire S) : Move → Option (Wire S)
  | .establish version =>
      if w.up = none ∧ (w.engine .chargingStation).connected = false ∧
          (w.engine .csms).connected = false then
        some { w with up := some version }
      else none
  | .attach role now =>
      match w.up with
      | none => none
      | some version =>
          if (w.engine role).connected then none
          else some (w.exec role (.handle now (.connected version)))
  | .deliver role now =>
      match w.inTransit role.other with
      | [] => none
      | text :: rest =>
          if w.attached role then
            some ((w.exec role (.handle now (.received text))).withTransit role.other rest)
          else none
  | .cut => some { w with up := none, inTransit := fun _ => [] }
  | .detach role now =>
      if w.up = none ∧ (w.engine role).connected = true then
        some (w.exec role (.handle now .disconnected))
      else none
  | .act role op => if op.isLocal then some (w.exec role op) else none
  | .poll role =>
      let texts := if w.attached role then transmitted (w.engine role).outputs.head?.toList else []
      some ((w.exec role .pollOutput).withTransit role (w.inTransit role ++ texts))

/-- Both engines hold what their stores hold, and there is no connection. -/
structure Starts (w : Wire S) : Prop where
  /-- Each engine starts from its store, on its side. -/
  engine : ∀ role, ∃ config store ids, config.role = role ∧
    Engine.withStore config store ids = .ok (w.engine role)
  /-- There is no connection. -/
  down : w.up = none
  /-- Nothing is on its way. -/
  empty : ∀ role, w.inTransit role = []

/-- **The state can be reached** from two engines that start. -/
def Reachable (w : Wire S) : Prop := Transitions.Reaches step Starts w

/-! ### What a move does -/

section

variable (w : Wire S) (role : Role) (op : Op)

@[simp] theorem engine_exec : (w.exec role op).engine role = OcppKit.exec (w.engine role) op :=
  Function.update_self _ _ _

@[simp] theorem engine_exec_other :
    (w.exec role op).engine role.other = w.engine role.other :=
  Function.update_of_ne role.other_ne _ _

@[simp] theorem up_exec : (w.exec role op).up = w.up := rfl

@[simp] theorem inTransit_exec : (w.exec role op).inTransit = w.inTransit := rfl

omit [∀ role, MessageStore (S role)]

variable (texts : List String)

@[simp] theorem engine_withTransit : (w.withTransit role texts).engine = w.engine := rfl

@[simp] theorem up_withTransit : (w.withTransit role texts).up = w.up := rfl

@[simp] theorem inTransit_withTransit : (w.withTransit role texts).inTransit role = texts :=
  Function.update_self _ _ _

@[simp] theorem inTransit_withTransit_other :
    (w.withTransit role texts).inTransit role.other = w.inTransit role.other :=
  Function.update_of_ne role.other_ne _ _

end

/-- **What each move does**: the condition under which it is possible, and the state after
it. -/
inductive Moved (w : Wire S) : Move → Wire S → Prop
  /-- A connection is established. -/
  | establish (version : Version) : w.up = none → (∀ role, (w.engine role).connected = false) →
      Moved w (.establish version) { w with up := some version }
  /-- An engine is told of it. -/
  | attach (role : Role) (now : Instant) (version : Version) : w.up = some version →
      (w.engine role).connected = false →
      Moved w (.attach role now) (w.exec role (.handle now (.connected version)))
  /-- A text arrives. -/
  | deliver (role : Role) (now : Instant) (text : String) (rest : List String) :
      w.inTransit role.other = text :: rest → w.up.isSome → (w.engine role).connected = true →
      Moved w (.deliver role now)
        ((w.exec role (.handle now (.received text))).withTransit role.other rest)
  /-- The connection is cut. -/
  | cut : Moved w .cut { w with up := none, inTransit := fun _ => [] }
  /-- An engine is told of it. -/
  | detach (role : Role) (now : Instant) : w.up = none → (w.engine role).connected = true →
      Moved w (.detach role now) (w.exec role (.handle now .disconnected))
  /-- An operation that has nothing to do with the connection. -/
  | act (role : Role) (op : Op) : op.isLocal = true → Moved w (.act role op) (w.exec role op)
  /-- An output is taken, and written or lost. -/
  | poll (role : Role) (texts : List String) :
      texts = [] ∨ texts = transmitted (w.engine role).outputs.head?.toList →
      Moved w (.poll role)
        ((w.exec role .pollOutput).withTransit role (w.inTransit role ++ texts))

theorem moved_of_step {w w' : Wire S} {m : Move} (h : w.step m = some w') : Moved w m w' := by
  cases m with
  | establish version =>
      simp only [step] at h
      split at h
      next hdown =>
        obtain rfl := Option.some.inj h
        refine .establish version hdown.1 fun role => ?_
        cases role with
        | chargingStation => exact hdown.2.1
        | csms => exact hdown.2.2
      · cases h
  | attach role now =>
      simp only [step] at h
      split at h
      · cases h
      next version hup =>
        split at h
        · cases h
        next hnot =>
          obtain rfl := Option.some.inj h
          exact .attach role now version hup (Bool.eq_false_of_not_eq_true hnot)
  | deliver role now =>
      simp only [step] at h
      split at h
      · cases h
      next text rest htransit =>
        split at h
        next hattached =>
          obtain rfl := Option.some.inj h
          obtain ⟨hup, hconnected⟩ := Bool.and_eq_true_iff.mp hattached
          exact .deliver role now text rest htransit hup hconnected
        · cases h
  | cut =>
      obtain rfl := Option.some.inj h
      exact .cut
  | detach role now =>
      simp only [step] at h
      split at h
      next hdown =>
        obtain rfl := Option.some.inj h
        exact .detach role now hdown.1 hdown.2
      · cases h
  | act role op =>
      simp only [step] at h
      split at h
      next hlocal =>
        obtain rfl := Option.some.inj h
        exact .act role op hlocal
      · cases h
  | poll role =>
      obtain rfl := Option.some.inj h
      refine .poll role _ ?_
      split
      · exact Or.inr rfl
      · exact Or.inl rfl

/-- **What every move keeps holds in every state that is reached.** -/
theorem Reachable.invariant {P : Wire S → Prop} {w : Wire S} (h : w.Reachable)
    (hstart : ∀ w : Wire S, w.Starts → P w)
    (hmove : ∀ (w : Wire S) (m : Move) (w' : Wire S), w.Reachable → P w → Moved w m w' →
      P w') : P w :=
  Transitions.Reaches.invariant h hstart fun w m w' hreach hinv hstep =>
    hmove w m w' hreach hinv (moved_of_step hstep)

/-- Each engine is one that a run has reached. -/
theorem Reachable.engine {w : Wire S} (h : w.Reachable) (role : Role) :
    ∃ config store ids e₀ ops, config.role = role ∧
      Engine.withStore config store ids = .ok e₀ ∧ w.engine role = run e₀ ops := by
  refine h.invariant (P := fun w => ∀ role, ∃ config store ids e₀ ops, config.role = role ∧
    Engine.withStore config store ids = .ok e₀ ∧ w.engine role = run e₀ ops) ?_ ?_ role
  · intro w hw role
    obtain ⟨config, store, ids, hrole, hstart⟩ := hw.engine role
    exact ⟨config, store, ids, _, [], hrole, hstart, rfl⟩
  · intro w m w' _ hinv hmoved
    have hexec : ∀ (role : Role) (op : Op) (role' : Role), ∃ config store ids e₀ ops,
        config.role = role' ∧ Engine.withStore config store ids = .ok e₀ ∧
        (w.exec role op).engine role' = run e₀ ops := by
      intro role op role'
      obtain ⟨config, store, ids, e₀, ops, hrole, hstart, hrun⟩ := hinv role'
      rcases role.eq_or_other role' with rfl | rfl
      · exact ⟨config, store, ids, e₀, ops ++ [op], hrole, hstart, by
          rw [engine_exec, hrun, run_concat]⟩
      · exact ⟨config, store, ids, e₀, ops, hrole, hstart, by rw [engine_exec_other, hrun]⟩
    cases hmoved with
    | establish => exact hinv
    | attach role now version => exact hexec role _
    | deliver role now text rest => exact hexec role _
    | cut => exact hinv
    | detach role now => exact hexec role _
    | act role op => exact hexec role op
    | poll role texts => exact hexec role _

end Wire

/-! ### What has been received -/

/-- The texts a history has received, in order. -/
def received (evs : List Event) : List String :=
  evs.filterMap fun
    | .input (.received text) => some text
    | _ => none

theorem received_append (l l' : List Event) : received (l ++ l') = received l ++ received l' :=
  List.filterMap_append

theorem transmitted_append (l l' : List Output) :
    transmitted (l ++ l') = transmitted l ++ transmitted l' :=
  List.filterMap_append

/-- The texts of the outputs are those of the history. -/
theorem transmitted_outputs (evs : List Event) : transmitted (outputs evs) = texts evs := by
  induction evs with
  | nil => rfl
  | cons ev evs ih =>
      rw [← List.singleton_append, outputs_append, transmitted_append, ih, texts_append]
      congr 1
      cases ev with
      | out o => cases o <;> rfl
      | _ => rfl

theorem received_foreign (evs : List Event) : received (foreign evs) = received evs := by
  induction evs with
  | nil => rfl
  | cons ev evs ih =>
      rcases hown : ev.own with _ | _
      · rw [foreign, List.filter_cons_of_pos (by simp [hown]), ← foreign, received, received,
          List.filterMap_cons, List.filterMap_cons, ← received, ih, ← received]
      · rw [foreign, List.filter_cons_of_neg (by simp [hown]), ← foreign, ih]
        cases ev with
        | input _ => exact absurd hown (by simp [Event.own])
        | _ => rfl

/-- Nothing is in a history that starts, but what the store holds. -/
theorem filterMap_accepted {α : Type} {f : Event → Option α} (entries : List Pending)
    (h : ∀ entry, f (.accepted entry) = none) : (entries.map Event.accepted).filterMap f = [] := by
  rw [List.filterMap_map]
  exact List.filterMap_eq_nil_iff.mpr fun entry _ => h entry

section

variable {S : Type} [MessageStore S]

/-- **What an operation receives** is what the driver feeds. -/
theorem received_newEvents (e : Engine S) (op : Op) :
    received (newEvents e op) = received op.inputs := by
  have heffect := (newEvents_effect e op).1
  rw [← received_foreign]
  generalize (exec e op).setting = s at heffect
  generalize foreign (newEvents e op) = left at heffect
  cases heffect with
  | malformed now text error _ =>
      rw [replyMarks]
      split <;> rfl
  | _ => rfl

theorem received_exec (e : Engine S) (op : Op) :
    received (exec e op).log = received e.log ++ received op.inputs := by
  rw [log_exec, received_append, received_newEvents]

/-- An operation of the driver that takes outputs leaves the history. -/
theorem log_pollOutput (e : Engine S) : (exec e .pollOutput).log = e.log := rfl

end

/-! ### The channel -/

namespace Wire

variable {S : Role → Type} [∀ role, MessageStore (S role)]

/-- **Nothing arrives that was not written**: what the other side has received, what is on
its way and what the driver has yet to take are, in this order, part of what this side has
written. -/
def Carried (w : Wire S) (role : Role) : Prop :=
  (received (w.engine role.other).log ++ w.inTransit role ++
    transmitted (w.engine role).outputs).Sublist (texts (w.engine role).log)

/-- An operation of this side that takes nothing only adds to both. -/
theorem Carried.exec_self {w : Wire S} {role : Role} {o : Op} (h : w.Carried role)
    (hop : o.polls = false) : (w.exec role o).Carried role := by
  obtain ⟨evs, hlog, houtputs⟩ := hands_exec (w.engine role) hop
  rw [Carried, engine_exec, engine_exec_other, inTransit_exec, hlog, houtputs, texts_append,
    transmitted_append, transmitted_outputs, ← List.append_assoc]
  exact h.append (List.Sublist.refl _)

/-- An operation of the other side that receives nothing changes nothing. -/
theorem Carried.exec_other {w : Wire S} {role : Role} {op : Op} (h : w.Carried role)
    (hop : received op.inputs = []) : (w.exec role.other op).Carried role := by
  have hself : (w.exec role.other op).engine role = w.engine role :=
    Function.update_of_ne role.other_ne.symm _ _
  rw [Carried, hself, engine_exec, inTransit_exec, received_exec, hop, List.append_nil]
  exact h

theorem Carried.exec {w : Wire S} {op : Op} (h : ∀ role, w.Carried role)
    (hop : op.polls = false) (hinputs : received op.inputs = []) (role role' : Role) :
    (w.exec role op).Carried role' := by
  rcases role'.eq_or_other role with rfl | rfl
  · exact (h role).exec_self hop
  · exact (h role').exec_other hinputs

theorem received_of_isLocal {op : Op} (h : op.isLocal = true) :
    op.polls = false ∧ received op.inputs = [] := by
  rcases op with ⟨now, input⟩ | _ | _ | _ | _ | _ | _ | _ | _ | _ | _
  case handle => cases input <;> first | exact ⟨rfl, rfl⟩ | cases h
  all_goals first | exact ⟨rfl, rfl⟩ | cases h

theorem carried_moved {w w' : Wire S} {m : Move} (h : ∀ role, w.Carried role)
    (hm : Moved w m w') : ∀ role, w'.Carried role := by
  cases hm with
  | establish version _ _ => exact h
  | attach role now version _ _ => exact Carried.exec h rfl rfl role
  | detach role now _ _ => exact Carried.exec h rfl rfl role
  | act role op hlocal =>
      obtain ⟨hop, hinputs⟩ := received_of_isLocal hlocal
      exact Carried.exec h hop hinputs role
  | cut =>
      intro role
      refine List.Sublist.trans ?_ (h role)
      simp
  | deliver role now text rest htransit _ _ =>
      intro role'
      rcases role.eq_or_other role' with rfl | rfl
      · -- the channel from this side is not the one the text came through
        have hself := (h role').exec_self (o := .handle now (.received text)) rfl
        have htransit' := (w.exec role' (.handle now (.received text))).inTransit_withTransit_other
          role'.other rest
        rw [Role.other_other] at htransit'
        rw [Carried, engine_withTransit, htransit']
        exact hself
      · have hother := h role.other
        rw [Carried, Role.other_other, htransit] at hother
        rw [Carried, Role.other_other, engine_withTransit, inTransit_withTransit, engine_exec,
          engine_exec_other, received_exec]
        simpa [received, Op.inputs] using hother
  | poll role texts htexts =>
      intro role'
      rcases role.eq_or_other role' with rfl | rfl
      · rw [Carried, engine_withTransit, inTransit_withTransit, engine_exec, engine_exec_other,
          log_pollOutput]
        refine List.Sublist.trans ?_ (h role')
        rw [← List.append_assoc, List.append_assoc _ texts]
        refine List.Sublist.append (List.Sublist.refl _) ?_
        -- an output that is taken is written at most once
        change (texts ++ transmitted (w.engine role').outputs.tail).Sublist _
        rcases hout : (w.engine role').outputs with _ | ⟨o, rest⟩
        · rw [hout] at htexts
          rcases htexts with rfl | rfl <;> exact List.Sublist.refl _
        · rw [hout] at htexts
          rw [← List.singleton_append, transmitted_append]
          refine List.Sublist.append ?_ (List.Sublist.refl _)
          rcases htexts with rfl | rfl
          · exact List.nil_sublist _
          · exact List.Sublist.refl _
      · rw [Carried, Role.other_other, engine_withTransit, inTransit_withTransit_other, engine_exec,
          engine_exec_other, log_pollOutput]
        have hother := h role.other
        rw [Carried, Role.other_other] at hother
        exact hother

theorem carried_starts {w : Wire S} (h : w.Starts) (role : Role) : w.Carried role := by
  have houtputs : ∀ role, (w.engine role).outputs = [] ∧ received (w.engine role).log = [] := by
    intro role
    obtain ⟨config, store, ids, -, hstart⟩ := h.engine role
    obtain ⟨entries, hlog⟩ := log_withStore hstart
    refine ⟨?_, ?_⟩
    · rw [handed_withStore hstart, hlog]
      exact filterMap_accepted entries fun _ => rfl
    · rw [hlog]
      exact filterMap_accepted entries fun _ => rfl
  rw [Carried, (houtputs role.other).2, h.empty, (houtputs role).1]
  exact List.nil_sublist _

/-- **Nothing arrives that was not written**, in every state that is reached. -/
theorem Reachable.carried {w : Wire S} (h : w.Reachable) (role : Role) : w.Carried role :=
  h.invariant (P := fun w => ∀ role, w.Carried role) (fun _ => carried_starts)
    (fun _ _ _ _ => carried_moved) role

end Wire

/-! ### Reading what arrives -/

/-- The request a message is read as, when it is sent under this id. -/
def Pending.asked (entry : Pending) (id : MessageId) : IncomingRequest :=
  ⟨id, entry.action, entry.payload, entry.kind⟩

/-- **What a history asks of the other side**, in order. -/
def asked (evs : List Event) : List IncomingRequest :=
  evs.filterMap fun
    | .sent id entry => some (entry.asked id)
    | _ => none

/-- The request a frame carries. -/
def Frame.request : Frame → Option IncomingRequest
  | .call id action payload => some ⟨id, action, payload, .call⟩
  | .send id action payload => some ⟨id, action, payload, .send⟩
  | _ => none

/-- The request a text carries, under whatever version has one. -/
def requestOf (text : String) : Option IncomingRequest :=
  (Frame.parse text .v2_1).toOption.bind Frame.request

@[simp] theorem Frame.request_overTheWire (version : Version) (frame : Frame) :
    (frame.overTheWire version).request = frame.request := by
  cases frame <;> rfl

/-- What is asked are the requests among the frames that are marked. -/
theorem asked_eq (evs : List Event) : asked evs = (frames evs).filterMap Frame.request := by
  rw [frames, List.filterMap_filterMap]
  refine List.filterMap_congr fun ev _ => ?_
  rcases ev with _ | _ | _ | ⟨id, entry⟩ | _ | _ | _ | _
  case sent =>
    rcases hkind : entry.kind with _ | _
    · simp [Event.frame, Pending.frame, hkind, Frame.request, Pending.asked]
    · simp [Event.frame, Pending.frame, hkind, Frame.request, Pending.asked]
  all_goals rfl

/-- A text that is a frame under some version is that frame under the newest. -/
theorem Frame.parse_newest {text : String} {version : Version} {frame : Frame}
    (h : Frame.parse text version = .ok frame) : Frame.parse text .v2_1 = .ok frame := by
  have hnewest : ∀ t : MessageTypeId, t.isDefinedIn .v2_1 = true := fun t => by cases t <;> rfl
  simp only [Frame.parse] at h ⊢
  split at h
  · cases h
  split at h
  · cases h
  split at h
  · cases h
  split at h
  · cases h
  · rw [if_neg (by rw [hnewest]; decide)]
    exact h

theorem requestOf_of_parse {text : String} {version : Version} {frame : Frame}
    (h : Frame.parse text version = .ok frame) : requestOf text = frame.request := by
  rw [requestOf, Frame.parse_newest h]
  rfl

/-- **What is read of a text that was written**, under whatever versions, is the frame over
the wire. -/
theorem Frame.eq_overTheWire [LawfulExternals] {frame frame' : Frame} {version version' : Version}
    {text : String} (h : frame.toJson version = .ok text)
    (hparse : Frame.parse text version' = .ok frame') : frame' = frame.overTheWire version := by
  obtain ⟨elements, helements, hnumber, hlong, hid, hbody⟩ := readsBack_toJson h
  simp only [Frame.parse, helements, hnumber, MessageTypeId.fromNumber_number,
    if_neg (not_lt.mpr hlong), hid] at hparse
  split at hparse
  · cases hparse
  split at hparse
  · cases hparse
  · exact (Except.ok.inj (hbody.symm.trans hparse)).symm

theorem requestOf_toJson [LawfulExternals] {frame : Frame} {version : Version} {text : String}
    (h : frame.toJson version = .ok text) :
    requestOf text = none ∨ requestOf text = frame.request := by
  rcases hparse : Frame.parse text .v2_1 with error | frame'
  · rw [requestOf, hparse]
    exact Or.inl rfl
  · rw [requestOf_of_parse hparse, Frame.eq_overTheWire h hparse, Frame.request_overTheWire]
    exact Or.inr rfl

omit [Externals] in
/-- Of two lists that go together, what is read of the one is part of what the other says, if
each element is read as it is or not at all. -/
theorem sublist_filterMap {α β γ : Type} {R : α → β → Prop} {f : α → Option γ} {g : β → Option γ}
    (hread : ∀ a b, R a b → f a = none ∨ f a = g b) {l : List α} {l' : List β}
    (h : List.Forall₂ R l l') : (l.filterMap f).Sublist (l'.filterMap g) := by
  induction h with
  | nil => exact List.Sublist.refl _
  | @cons a b l l' hab _ ih =>
      rw [List.filterMap_cons, List.filterMap_cons]
      rcases hread a b hab with hnone | hsome
      · rw [hnone]
        rcases g b with _ | c
        · exact ih
        · exact ih.cons c
      · rw [hsome]
        rcases g b with _ | c
        · exact ih
        · exact ih.cons_cons c

section

variable {S : Type} [MessageStore S]

/-- **Each text that was written is that of a frame that is marked.** -/
def Wrote (log : List Event) : Prop :=
  List.Forall₂ (fun text frame => ∃ version, Frame.toJson frame version = .ok text) (texts log)
    (frames log)

theorem wrote_exec [LawfulExternals] {e : Engine S} (h : Wrote e.log) (op : Op) :
    Wrote (exec e op).log := by
  have hjson := toJson_frames e op
  have hnew : Wrote (newEvents e op) := by
    have hmap : ∀ (fs : List Frame) (ts : List String),
        fs.map (fun frame => frame.toJson (exec e op).version) = ts.map .ok →
        List.Forall₂ (fun text frame => ∃ version, Frame.toJson frame version = .ok text) ts
          fs := by
      intro fs
      induction fs with
      | nil =>
          intro ts hts
          rcases ts with _ | ⟨t, ts⟩
          · exact List.Forall₂.nil
          · cases hts
      | cons frame fs ih =>
          intro ts hts
          rcases ts with _ | ⟨t, ts⟩
          · cases hts
          · rw [List.map_cons, List.map_cons] at hts
            obtain ⟨hhead, htail⟩ := List.cons.inj hts
            exact List.Forall₂.cons ⟨_, hhead⟩ (ih ts htail)
    exact hmap _ _ hjson
  rw [Wrote, log_exec, texts_append, frames_append]
  exact List.rel_append h hnew

/-- What an operation delivers is what a text it receives carries. -/
theorem requests_newEvents (e : Engine S) (op : Op) :
    (requests (newEvents e op)).Sublist ((received (newEvents e op)).filterMap requestOf) := by
  have heffect := (newEvents_effect e op).1
  rw [received_newEvents, ← requests_foreign]
  generalize (exec e op).setting = s at heffect
  generalize foreign (newEvents e op) = left at heffect
  cases heffect with
  | malformed now text error _ =>
      have hnone : requests (Event.input (.received text) :: replyMarks e.version error) = [] := by
        rw [replyMarks]
        split <;> rfl
      rw [hnone]
      exact List.nil_sublist _
  | delivered now text id action payload kind hparse _ =>
      have hread : requestOf text = some ⟨id, action, payload, kind⟩ := by
        rw [requestOf_of_parse hparse]
        cases kind <;> rfl
      change ([⟨id, action, payload, kind⟩] : List IncomingRequest).Sublist
        ([text].filterMap requestOf)
      rw [List.filterMap_cons_some hread, List.filterMap_nil]
  | _ => exact List.nil_sublist _

theorem requests_append (l l' : List Event) : requests (l ++ l') = requests l ++ requests l' :=
  List.filterMap_append

theorem requests_exec {e : Engine S}
    (h : (requests e.log).Sublist ((received e.log).filterMap requestOf)) (op : Op) :
    (requests (exec e op).log).Sublist ((received (exec e op).log).filterMap requestOf) := by
  rw [log_exec, requests_append, received_append, List.filterMap_append]
  exact h.append (requests_newEvents e op)

theorem wrote_run [LawfulExternals] {config : EngineConfig} {store : S} {ids : ℕ → MessageId}
    {e₀ : Engine S} (h : Engine.withStore config store ids = .ok e₀) (ops : List Op) :
    Wrote (run e₀ ops).log := by
  refine run_invariant (fun e => Wrote e.log) (fun e op he => wrote_exec he op) ?_ ops
  obtain ⟨entries, hlog⟩ := log_withStore h
  have htexts : texts (entries.map Event.accepted) = [] :=
    filterMap_accepted entries fun _ => rfl
  have hframes : frames (entries.map Event.accepted) = [] :=
    filterMap_accepted entries fun _ => rfl
  rw [Wrote, hlog, htexts, hframes]
  exact List.Forall₂.nil

/-- **What an engine delivers was carried by what it received**, in order. -/
theorem requests_run {config : EngineConfig} {store : S} {ids : ℕ → MessageId}
    {e₀ : Engine S} (h : Engine.withStore config store ids = .ok e₀) (ops : List Op) :
    (requests (run e₀ ops).log).Sublist ((received (run e₀ ops).log).filterMap requestOf) := by
  refine run_invariant (fun e => (requests e.log).Sublist ((received e.log).filterMap requestOf))
    (fun e op he => requests_exec he op) ?_ ops
  obtain ⟨entries, hlog⟩ := log_withStore h
  have hnone : requests (entries.map Event.accepted) = [] :=
    filterMap_accepted entries fun _ => rfl
  rw [hlog, hnone]
  exact List.nil_sublist _

/-- **What is read of what an engine wrote** is part of what it asks. -/
theorem sublist_asked [LawfulExternals] {log : List Event} (h : Wrote log) :
    ((texts log).filterMap requestOf).Sublist (asked log) := by
  rw [asked_eq]
  refine sublist_filterMap ?_ h
  rintro text frame ⟨version, hjson⟩
  exact requestOf_toJson hjson

end

/-! ### What the other side is asked -/

namespace Wire

variable {S : Role → Type} [∀ role, MessageStore (S role)]

theorem Reachable.requests_received {w : Wire S} (h : w.Reachable) (role : Role) :
    (requests (w.engine role).log).Sublist
      ((received (w.engine role).log).filterMap requestOf) := by
  obtain ⟨config, store, ids, e₀, ops, -, hstart, hrun⟩ := h.engine role
  rw [hrun]
  exact requests_run hstart ops

theorem Reachable.sublist_asked [LawfulExternals] {w : Wire S} (h : w.Reachable) (role : Role) :
    ((texts (w.engine role).log).filterMap requestOf).Sublist (asked (w.engine role).log) := by
  obtain ⟨config, store, ids, e₀, ops, -, hstart, hrun⟩ := h.engine role
  rw [hrun]
  exact OcppKit.sublist_asked (wrote_run hstart ops)

/-- What the application of one side is asked is part of what the other side asks. -/
theorem Reachable.requests_asked [LawfulExternals] {w : Wire S} (h : w.Reachable) (role : Role) :
    (requests (w.engine role.other).log).Sublist (asked (w.engine role).log) := by
  have hreceived : (received (w.engine role.other).log).Sublist (texts (w.engine role).log) := by
    refine List.Sublist.trans ?_ (h.carried role)
    rw [List.append_assoc]
    exact List.sublist_append_left _ _
  exact ((h.requests_received role.other).trans (hreceived.filterMap requestOf)).trans
    (h.sublist_asked role)

end Wire

/-- **What one side's application is asked is what the other side sent**, in every state that
is reached: what it has been asked, what is on its way and what the driver has yet to write
are, in this order, part of what was sent, each with its id, its action and its payload, and
none more often than it was sent. -/
theorem requests_sublist [LawfulExternals] {S : Role → Type} [∀ role, MessageStore (S role)]
    {w : Wire S} (h : w.Reachable) (role : Role) :
    (requests (w.engine role.other).log ++ (w.inTransit role ++
      transmitted (w.engine role).outputs).filterMap requestOf).Sublist
        (asked (w.engine role).log) := by
  have hcarried := (h.carried role).filterMap requestOf
  rw [List.append_assoc, List.filterMap_append] at hcarried
  refine List.Sublist.trans ?_ (hcarried.trans (h.sublist_asked role))
  exact (h.requests_received role.other).append (List.Sublist.refl _)

end OcppKit

/-! ### A run -/

namespace OcppKit.Reference

open Wire

/-- A station and a CSMS. -/
def pair : Wire fun _ => MemStore where
  engine
    | .chargingStation => station .v2_0_1
    | .csms => csms .v2_0_1
  up := none
  inTransit _ := []

theorem starts_pair : pair.Starts where
  engine role := by
    cases role with
    | chargingStation => exact ⟨_, _, _, rfl, withStore_station .v2_0_1⟩
    | csms => exact ⟨_, _, _, rfl, withStore_csms .v2_0_1⟩
  down := rfl
  empty _ := rfl

/-- They connect, the station boots, and the CSMS answers. -/
def bootMoves : List Move :=
  [.establish .v2_0_1, .attach .csms 1, .attach .chargingStation 1,
    .act .chargingStation (.callWith 2 "BootNotification" RawValue.emptyObject {}),
    .poll .chargingStation, .deliver .csms 3, .act .csms (.respond 4 ⟨"s0"⟩ RawValue.emptyObject),
    .poll .csms, .poll .csms]

/-- The state they are in by then. -/
def booted : Wire fun _ => MemStore := (Transitions.run step pair bootMoves).getD pair

theorem reachable_booted : booted.Reachable := by
  refine ⟨pair, starts_pair, bootMoves, ?_⟩
  have hsome : (Transitions.run step pair bootMoves).isSome = true := by decide +kernel
  obtain ⟨w, hw⟩ := Option.isSome_iff_exists.mp hsome
  rw [booted, hw, Option.getD_some]

theorem requests_sublist_booted :
    requests (booted.engine .csms).log =
      [⟨⟨"s0"⟩, "BootNotification", RawValue.emptyObject, .call⟩] ∧
    (requests (booted.engine .csms).log ++ (booted.inTransit .chargingStation ++
      transmitted (booted.engine .chargingStation).outputs).filterMap requestOf).Sublist
        (asked (booted.engine .chargingStation).log) :=
  ⟨by decide +kernel, requests_sublist reachable_booted .chargingStation⟩

end OcppKit.Reference
