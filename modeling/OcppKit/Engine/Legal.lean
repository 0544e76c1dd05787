import OcppKit.Engine.Offline
import OcppKit.Rpc.RoundTrip

/-!
# Frames under the version of their connection

Whether a message may be sent is looked at when it is accepted, under the version of that
moment. What is still queued when a connection comes up under another version, or is loaded
from a store, is not looked at again.

`OcppKit.transmits_legally`: as long as every message that waits when a connection comes up
may be sent under its version, every frame that is written is one of the version: it has a
type the version defines and, if it is a `CALL` or a `SEND`, an action that the version
defines as that kind of message and that this side may send.
-/

namespace OcppKit

variable [Externals]

open Engine

variable {S : Type} [MessageStore S]

/-! ### Legal frames -/

/-- **The frame is legal** for a side of this role, under this version. -/
def LegalFrame (version : Version) (role : Role) : Frame → Prop
  | .call _ action _ => Sendable version role action .call
  | .send _ action _ => Sendable version role action .send
  | .callResultError _ _ => version.hasExtendedMessageTypes = true
  | .callResult _ _ | .callError _ _ => True

/-- The version has the type of a legal frame. -/
theorem LegalFrame.isDefinedIn {version : Version} {role : Role} {frame : Frame}
    (h : LegalFrame version role frame) : frame.messageType.isDefinedIn version = true := by
  cases frame with
  | send id action payload => exact Sendable.extended h rfl
  | callResultError id error => exact h
  | _ => rfl

/-- **What an operation writes is legal**, and what it finds queued and may not send over
the connection that comes up fails. -/
structure KeepsLegal (e : Engine S) (op : Op) : Prop where
  /-- Every text is that of a legal frame. -/
  transmits : ∀ text ∈ texts (newEvents e op), ∃ frame : Frame,
    frame.toJson (exec e op).version = .ok text ∧
      LegalFrame (exec e op).version e.config.role frame
  /-- What may not be sent over the new connection fails. -/
  fails : ∀ now version, op = .handle now (.connected version) → ∀ p ∈ e.queue,
    ¬Sendable version e.config.role p.action p.kind →
      ∃ o ∈ outcomes (newEvents e op), o.token = p.token ∧ ∃ why, o.result = .error why

/-- **Whatever waits when the connection comes up may be sent over it.** -/
def LegalReconnect (e : Engine S) (op : Op) : Prop :=
  ∀ now version, op = .handle now (.connected version) →
    (∀ p ∈ e.queue, Sendable version e.config.role p.action p.kind) ∧
      ∀ f, e.inflight = some f → Sendable version e.config.role f.action .call

/-! ### What is written was queued -/

/-- Every message that waits is good. -/
def AllLive (e : Engine S) (Good : Message → Prop) : Prop :=
  (∀ p ∈ e.queue, Good p.message) ∧ ∀ f, e.inflight = some f → Good f.message

omit [MessageStore S] in
theorem carries_iff (e : Engine S) (Good : Message → Prop) :
    (e.outbox none).Carries Good ↔ AllLive e Good := by
  simp only [Outbox.State.Carries, Outbox.State.live, Engine.outbox, Option.toList_none,
    List.map_nil, List.nil_append, List.mem_append, List.mem_map, Option.mem_toList,
    Option.map_eq_some_iff, AllLive]
  constructor
  · intro h
    refine ⟨fun p hp => h p.item (Or.inr ⟨p, hp, rfl⟩), fun f hf => ?_⟩
    exact h f.item (Or.inl ⟨f.flight, ⟨f, hf, rfl⟩, rfl⟩)
  · rintro ⟨hqueue, hslot⟩ i (⟨_, ⟨f, hf, rfl⟩, rfl⟩ | ⟨p, hp, rfl⟩)
    · exact hslot f hf
    · exact hqueue p hp

/-- **What an operation sends was live, or it accepts it.** -/
theorem allLive_exec {e : Engine S} {op : Op} {Good : Message → Prop} (h : AllLive e Good)
    (haccepted : ∀ entry, .accepted entry ∈ newEvents e op → Good entry.message) :
    AllLive (exec e op) Good ∧
      ∀ id entry, .sent id entry ∈ newEvents e op → Good entry.message := by
  obtain ⟨new, hnew, hcarry⟩ := Outbox.Steps.carriesOn (exec_outbox e op).steps Good
  obtain rfl : new = outboxHistory (newEvents e op) :=
    List.append_cancel_left (hnew.symm.trans (outboxHistory_exec e op))
  obtain ⟨hlive, hsent⟩ := hcarry ((carries_iff e Good).mpr h) fun i hi => by
    rw [acceptedItems_outboxHistory] at hi
    obtain ⟨entry, hentry, rfl⟩ := List.mem_map.mp hi
    exact haccepted entry (mem_acceptedEntries.mp hentry)
  refine ⟨(carries_iff _ Good).mp hlive, fun id entry hmem => hsent (id, entry.item) ?_⟩
  exact List.mem_filterMap.mpr ⟨.sent id entry.item,
    List.mem_filterMap.mpr ⟨.sent id entry, hmem, rfl⟩, rfl⟩

/-! ### The invariant -/

/-- The message may be sent by a side of this role, under this version. -/
def MaySend (version : Version) (role : Role) (m : Message) : Prop :=
  Sendable version role m.action m.kind

/-- While the connection is up, whatever waits may be sent over it. -/
def QueueLegal (e : Engine S) : Prop :=
  e.connected = true → AllLive e (MaySend e.version e.config.role)

/-- What an operation finds waiting may be sent over the connection it leaves. -/
theorem allLive_version {e : Engine S} {op : Op} (h : QueueLegal e) (hop : LegalReconnect e op)
    (hup : (exec e op).connected = true) :
    AllLive e (MaySend (exec e op).version e.config.role) := by
  have horderly := exec_orderly e op
  rw [horderly.connected] at hup
  rw [horderly.version]
  cases op with
  | handle now input =>
      cases input with
      | connected version => exact hop now version rfl
      | disconnected => exact absurd hup (by simp [started])
      | received text => exact h hup
      | timeout => exact h hup
  | _ => exact h hup

theorem role_exec (e : Engine S) (op : Op) : (exec e op).config.role = e.config.role := by
  obtain ⟨timeout, hconfig⟩ := config_exec e op
  rw [hconfig]

/-- **One step**: what waits may be sent, and so may what is sent. -/
theorem queueLegal_exec {e : Engine S} {op : Op} (h : QueueLegal e) (hop : LegalReconnect e op) :
    QueueLegal (exec e op) ∧ ∀ id entry, .sent id entry ∈ newEvents e op →
      MaySend (exec e op).version e.config.role entry.message := by
  have hstep : (exec e op).connected = true →
      AllLive (exec e op) (MaySend (exec e op).version e.config.role) ∧
        ∀ id entry, .sent id entry ∈ newEvents e op →
          MaySend (exec e op).version e.config.role entry.message := by
    intro hup
    refine allLive_exec (allLive_version h hop hup) fun entry hentry => ?_
    rcases newEvents_inOrder e op _ hentry with horder | ⟨reason, hclose⟩
    · exact horder
    · exact absurd hclose (by simp)
  constructor
  · intro hup
    rw [role_exec]
    exact (hstep hup).1
  · intro id entry hentry
    rcases newEvents_inOrder e op _ hentry with hup | ⟨reason, hclose⟩
    · exact (hstep hup).2 id entry hentry
    · exact absurd hclose (by simp)

/-! ### What is written -/

omit [Externals] in
/-- A text that is no frame is answered with a `CALLRESULTERROR` only where there is one. -/
theorem extended_of_reply {version : Version} {error : FrameError}
    (h : error.reply version = .callResultError) : version.hasExtendedMessageTypes = true := by
  have hkept : ¬error.isIgnorable version = true := by
    intro hignored
    unfold FrameError.reply at h
    rw [if_pos hignored] at h
    exact absurd h (by simp)
  have hresult : (if version.hasExtendedMessageTypes then FrameReply.callResultError
      else .ignore) = .callResultError → version.hasExtendedMessageTypes = true := by
    intro hif
    by_contra hno
    rw [if_neg hno] at hif
    exact absurd hif (by simp)
  unfold FrameError.reply at h
  rw [if_neg hkept] at h
  rcases error with _ | ⟨t, _, _⟩ | _ | _ | t | _ | _
  case wrongArity | unreadableMessageId =>
    cases t with
    | callResult => exact hresult h
    | _ => exact absurd h (by simp [FrameError.messageType])
  all_goals exact absurd h (by simp [FrameError.messageType])

/-- A `CALLRESULTERROR` is only marked under a version that has one. -/
theorem extended_of_resultRejected {e : Engine S} {op : Op} {id : MessageId} {error : CallError}
    (h : Event.resultRejected id error ∈ newEvents e op) :
    (exec e op).version.hasExtendedMessageTypes = true := by
  have hleft : Event.resultRejected id error ∈ foreign (newEvents e op) :=
    List.mem_filter.mpr ⟨h, rfl⟩
  have heffect := (newEvents_effect e op).1
  rw [show (exec e op).version = (exec e op).setting.version from rfl]
  generalize (exec e op).setting = s at heffect
  generalize foreign (newEvents e op) = left at heffect hleft
  cases heffect with
  | malformed now text error' _ =>
      rw [replyMarks] at hleft
      split at hleft
      · exact absurd hleft (by simp)
      · exact absurd hleft (by simp)
      · next hreply => exact extended_of_reply hreply
  | rejectedResult now id' error' hversion => exact hversion
  | _ => exact absurd hleft (by simp)

/-- **The marks of an operation stand for legal frames**, if what is sent may be. -/
theorem legalFrame_of_mem {e : Engine S} {op : Op} {frame : Frame}
    (hsent : ∀ id entry, .sent id entry ∈ newEvents e op →
      MaySend (exec e op).version e.config.role entry.message)
    (h : frame ∈ frames (newEvents e op)) :
    LegalFrame (exec e op).version e.config.role frame := by
  obtain ⟨ev, hev, hframe⟩ := List.mem_filterMap.mp h
  cases ev with
  | sent id entry =>
      have hmay : Sendable _ _ entry.action entry.kind := hsent id entry hev
      obtain rfl := Option.some.inj hframe
      rw [Pending.frame]
      split
      · next hkind =>
        rw [hkind] at hmay
        exact hmay
      · next hkind =>
        rw [hkind] at hmay
        exact hmay
  | answered id payload =>
      obtain rfl := Option.some.inj hframe
      trivial
  | answeredError id error =>
      obtain rfl := Option.some.inj hframe
      trivial
  | rejected id error =>
      obtain rfl := Option.some.inj hframe
      trivial
  | resultRejected id error =>
      obtain rfl := Option.some.inj hframe
      exact extended_of_resultRejected hev
  | _ => exact absurd hframe (by simp [Event.frame])

theorem keepsLegal {e : Engine S} {op : Op} (h : QueueLegal e) (hop : LegalReconnect e op) :
    KeepsLegal e op := by
  obtain ⟨-, hsent⟩ := queueLegal_exec h hop
  constructor
  · intro text htext
    rw [(newEvents_effect e op).2, written] at htext
    obtain ⟨frame, hframe, hjson⟩ := List.mem_filterMap.mp htext
    exact ⟨frame, toOption_eq_some.mp hjson, legalFrame_of_mem hsent hframe⟩
  · intro now version hconnected p hp hnot
    exact absurd ((hop now version hconnected).1 p hp) hnot

/-- **Every frame that is written is legal under the version of its connection**, in every
run in which whatever waits when a connection comes up may be sent over it. -/
theorem transmits_legally {config : EngineConfig} {store : S} {ids : ℕ → MessageId}
    {e₀ : Engine S} (h : Engine.withStore config store ids = .ok e₀) (ops : List Op)
    (hops : AtEach e₀ ops LegalReconnect) : AtEach e₀ ops KeepsLegal := by
  rintro before op after rfl
  refine keepsLegal ?_ (hops before op after rfl)
  refine AtEach.invariant QueueLegal (fun e op hop he => (queueLegal_exec he hop).1)
    hops.of_append ?_
  intro hup
  have hdown : e₀.connected = false := congrArg Setting.connected (setting_withStore h)
  exact absurd (hdown.symm.trans hup) (by simp)

end OcppKit

namespace OcppKit.Reference

/-! ### A run -/

/-- A CSMS that is not connected is asked for a report. -/
def reportCall : Op :=
  .callWith 1 "GetBaseReport" .emptyObject { queueWhenOffline := some true }

/-- What it then has queued. -/
theorem queue_reportCall : ∀ p ∈ (run (csms .v2_0_1) [reportCall]).queue,
    p.action = "GetBaseReport" ∧ p.kind = .call := by
  have hall : (run (csms .v2_0_1) [reportCall]).queue.all
      (fun p => p.action = "GetBaseReport" ∧ p.kind = .call) = true := by
    decide +kernel
  intro p hp
  simpa using List.all_eq_true.mp hall p hp

theorem transmits_legally_reportRun :
    AtEach (csms .v2_0_1) [reportCall, .handle 2 (.connected .v2_1)] KeepsLegal := by
  refine transmits_legally (withStore_csms .v2_0_1) _ (atEach_cons.mpr ⟨?_, atEach_cons.mpr ⟨?_,
    atEach_nil _ _⟩⟩)
  · rintro _ _ ⟨⟩
  · rintro now version ⟨⟩
    refine ⟨fun p hp => ?_, fun f hf => ?_⟩
    · obtain ⟨haction, hkind⟩ := queue_reportCall p hp
      rw [haction, hkind]
      exact ⟨by decide +kernel, by decide +kernel, by simp⟩
    · have hfree : (run (csms .v2_0_1) [reportCall]).inflight = none := by decide +kernel
      exact absurd (hfree.symm.trans hf) (by simp)

/-- **A message that waited goes out under a version that does not have it.** -/
theorem transmits_illegally :
    ¬AtEach (csms .v2_0_1) [reportCall, .handle 2 (.connected .v1_6)] KeepsLegal := by
  intro h
  obtain ⟨frame, hjson, hlegal⟩ := (h [reportCall] _ [] rfl).transmits
    "[2,\"c0\",\"GetBaseReport\",{}]" (by decide +kernel)
  have hparse := Frame.parse_toJson hjson
  have hread : Frame.parse "[2,\"c0\",\"GetBaseReport\",{}]" .v1_6 =
      .ok (.call ⟨"c0"⟩ "GetBaseReport" .emptyObject) := by decide +kernel
  have hversion : (exec (run (csms .v2_0_1) [reportCall])
      (.handle 2 (.connected .v1_6))).version = .v1_6 := by decide +kernel
  rw [hversion] at hparse hlegal
  rw [hread, if_neg (by rw [hlegal.isDefinedIn]; simp)] at hparse
  split at hparse
  · exact absurd hparse (by simp)
  · have hframe := Except.ok.inj hparse
    cases frame with
    | call id action payload =>
        obtain ⟨-, rfl, -⟩ : _ ∧ "GetBaseReport" = action ∧ _ := by
          simpa [Frame.overTheWire] using hframe
        exact absurd hlegal.defined (by decide +kernel)
    | _ => exact absurd hframe (by simp [Frame.overTheWire])

end OcppKit.Reference
