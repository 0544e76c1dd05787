import OcppKit.Engine.Effect

/-!
# Between two looks at the drain

What the functions of the engine do to the connection, the version and the drain, and
which entries they leave in the history: `OcppKit.Engine.Calm`. A message is written
only while the connection is up, it is accepted only if the version lets this side send
it, and nothing closes the connection; what does is left to the end of an operation
(`OcppKit.Engine.checkDrain`, `OcppKit.Engine.fireDrain`), and is looked at there.

Most functions moreover leave the queue, the slot and the retry timer alone:
`OcppKit.Engine.Still`.
-/

namespace OcppKit

/-- **A side of this role may send this action** as this kind of message under the
version. -/
structure Sendable (version : Version) (role : Role) (action : String) (kind : MessageKind) :
    Prop where
  /-- The version has the action, as this kind of message. -/
  defined : Actions.kind version action = some kind
  /-- This side may send it. -/
  origin : allows ((Actions.origin version action).getD .both) role.sends = true
  /-- The version has this kind of message. -/
  extended : kind = .send → version.hasExtendedMessageTypes = true

variable [Externals]

/-- Whether an output asks for the connection to be closed. -/
def Output.isClose : Output → Bool
  | .close _ => true
  | _ => false

/-- The entry is in order for a side of this role, under this version, with the
connection up or down: it is not a close; a message is written only while the connection
is up, and accepted only if it may be sent. -/
def Event.InOrder (role : Role) (version : Version) (connected : Bool) : Event → Prop
  | .out o => o.isClose = false
  | .sent _ _ => connected = true
  | .accepted entry => Sendable version role entry.action entry.kind
  | _ => True

/-! ### The retry timer -/

/-- What an entry of the history does to the retry timer: it is set, or it is cleared. -/
def Event.retry : Event → Option (Option Instant)
  | .out (.setTimer .transactionRetry at_) => some (some at_)
  | .out (.clearTimer .transactionRetry) => some none
  | _ => none

/-- **Where the retry timer stands** at the end of this history. -/
def retryTimer (evs : List Event) : Option Instant := (evs.filterMap Event.retry).getLast?.join

theorem retryTimer_append {l l' : List Event} (h : l'.filterMap Event.retry = []) :
    retryTimer (l ++ l') = retryTimer l := by
  rw [retryTimer, List.filterMap_append, h, List.append_nil, retryTimer]

theorem retryTimer_concat (l : List Event) {event : Event} (h : event.retry = none) :
    retryTimer (l ++ [event]) = retryTimer l :=
  retryTimer_append (List.filterMap_cons_none h)

theorem retryTimer_set (l : List Event) (at_ : Instant) :
    retryTimer (l ++ [Event.out (.setTimer .transactionRetry at_)]) = some at_ := by
  rw [retryTimer, List.filterMap_append,
    List.filterMap_cons_some (show Event.retry _ = some (some at_) from rfl), List.filterMap_nil,
    List.getLast?_concat]
  rfl

namespace Engine

variable {S : Type}

/-- **Between the two states the engine was calm**: it kept its configuration, version,
connection and drain, and what it left in the history is in order. -/
structure Calm (e e' : Engine S) : Prop where
  /-- The configuration stays. -/
  config : e'.config = e.config
  /-- So does the version. -/
  version : e'.version = e.version
  /-- So does the connection. -/
  connected : e'.connected = e.connected
  /-- So does the drain. -/
  draining : e'.draining = e.draining
  /-- The history grows by entries that are in order. -/
  log : ∃ evs, e'.log = e.log ++ evs ∧
    ∀ ev ∈ evs, ev.InOrder e.config.role e.version e.connected

theorem Calm.refl (e : Engine S) : Calm e e :=
  ⟨rfl, rfl, rfl, rfl, [], (List.append_nil _).symm, fun _ h => absurd h List.not_mem_nil⟩

theorem Calm.trans {e e' e'' : Engine S} (h : Calm e e') (h' : Calm e' e'') : Calm e e'' where
  config := h'.config.trans h.config
  version := h'.version.trans h.version
  connected := h'.connected.trans h.connected
  draining := h'.draining.trans h.draining
  log := by
    obtain ⟨evs, hlog, hevs⟩ := h.log
    obtain ⟨evs', hlog', hevs'⟩ := h'.log
    rw [h.config, h.version, h.connected] at hevs'
    refine ⟨evs ++ evs', by rw [hlog', hlog, List.append_assoc], fun ev hev => ?_⟩
    rcases List.mem_append.mp hev with hev | hev
    · exact hevs ev hev
    · exact hevs' ev hev

/-- The other fields do not matter. -/
theorem Calm.of_eq {e₀ e e' : Engine S} (h : Calm e e') (hconfig : e.config = e₀.config)
    (hversion : e.version = e₀.version) (hconnected : e.connected = e₀.connected)
    (hdraining : e.draining = e₀.draining) (hlog : e.log = e₀.log) : Calm e₀ e' where
  config := h.config.trans hconfig
  version := h.version.trans hversion
  connected := h.connected.trans hconnected
  draining := h.draining.trans hdraining
  log := by
    obtain ⟨evs, hevs, horder⟩ := h.log
    exact ⟨evs, hlog ▸ hevs, hconfig ▸ hversion ▸ hconnected ▸ horder⟩

theorem calm_inflight (e : Engine S) (f : Option InFlight) : Calm e { e with inflight := f } :=
  (Calm.refl { e with inflight := f }).of_eq rfl rfl rfl rfl rfl

theorem calm_note (e : Engine S) {event : Event}
    (h : event.InOrder e.config.role e.version e.connected) : Calm e (e.note event) := by
  refine ⟨rfl, rfl, rfl, rfl, [event], rfl, fun ev hev => ?_⟩
  obtain rfl := List.mem_singleton.mp hev
  exact h

theorem calm_emit (e : Engine S) {o : Output} (h : o.isClose = false) : Calm e (e.emit o) := by
  refine ⟨rfl, rfl, rfl, rfl, [Event.out o], rfl, fun ev hev => ?_⟩
  obtain rfl := List.mem_singleton.mp hev
  exact h

/-! ### Standing still -/

/-- **Between the two states the engine stood still**: it was calm, and the queue, the
slot and the retry timer are as they were. -/
structure Still (e e' : Engine S) : Prop extends Calm e e' where
  /-- The queue stays. -/
  queue : e'.queue = e.queue
  /-- So does the slot. -/
  inflight : e'.inflight = e.inflight
  /-- So does the retry timer. -/
  timer : retryTimer e'.log = retryTimer e.log

theorem Still.refl (e : Engine S) : Still e e := ⟨Calm.refl e, rfl, rfl, rfl⟩

theorem Still.trans {e e' e'' : Engine S} (h : Still e e') (h' : Still e' e'') : Still e e'' :=
  ⟨h.toCalm.trans h'.toCalm, h'.queue.trans h.queue, h'.inflight.trans h.inflight,
    h'.timer.trans h.timer⟩

/-- The other fields do not matter. -/
theorem Still.of_eq {e₀ e e' : Engine S} (h : Still e e') (hconfig : e.config = e₀.config)
    (hversion : e.version = e₀.version) (hconnected : e.connected = e₀.connected)
    (hdraining : e.draining = e₀.draining) (hlog : e.log = e₀.log) (hqueue : e.queue = e₀.queue)
    (hinflight : e.inflight = e₀.inflight) : Still e₀ e' :=
  ⟨h.toCalm.of_eq hconfig hversion hconnected hdraining hlog, h.queue.trans hqueue,
    h.inflight.trans hinflight, hlog ▸ h.timer⟩

theorem still_note (e : Engine S) {event : Event}
    (h : event.InOrder e.config.role e.version e.connected) (hr : event.retry = none) :
    Still e (e.note event) :=
  ⟨calm_note e h, rfl, rfl, retryTimer_concat _ hr⟩

theorem still_emit (e : Engine S) {o : Output} (h : o.isClose = false)
    (hr : (Event.out o).retry = none) : Still e (e.emit o) :=
  ⟨calm_emit e h, rfl, rfl, retryTimer_concat _ hr⟩

theorem still_armHeartbeat (e : Engine S) : Still e e.armHeartbeat := by
  rw [armHeartbeat]
  split
  · exact Still.refl e
  split
  · exact Still.refl e
  dsimp only
  split
  · exact Still.refl e
  · exact (still_emit { e with heartbeatAt := _ } rfl rfl).of_eq rfl rfl rfl rfl rfl rfl rfl

theorem still_transmit (e : Engine S) (frame : Frame) : Still e (e.transmit frame) := by
  rw [transmit]
  split
  · exact (still_emit e rfl rfl).trans (still_armHeartbeat _)
  · exact still_emit e rfl rfl

theorem still_fireBootRetry (e : Engine S) : Still e e.fireBootRetry := by
  rw [fireBootRetry]
  split
  · split
    · exact (still_emit { e with bootRetryAt := none, boot := .idle } rfl rfl).of_eq
        rfl rfl rfl rfl rfl rfl rfl
    · exact Still.refl e
  · exact Still.refl e

/-! ### Talking to the store -/

variable [MessageStore S]

theorem still_ackStore (e : Engine S) (seq : Option Seq) : Still e (e.ackStore seq) := by
  rcases seq with _ | seq
  · exact Still.refl e
  rw [ackStore]
  split
  · exact (Still.refl { e with store := _ }).of_eq rfl rfl rfl rfl rfl rfl rfl
  · exact (still_emit { e with store := _ } rfl rfl).of_eq rfl rfl rfl rfl rfl rfl rfl

theorem still_storeAttempts (e : Engine S) (seq : Option Seq) (attempts : ℕ) :
    Still e (e.storeAttempts seq attempts) := by
  rcases seq with _ | seq
  · exact Still.refl e
  rw [storeAttempts]
  split
  · exact (Still.refl { e with store := _ }).of_eq rfl rfl rfl rfl rfl rfl rfl
  · exact (still_emit { e with store := _ } rfl rfl).of_eq rfl rfl rfl rfl rfl rfl rfl

theorem still_abandon (e : Engine S) (entry : Pending) (why : CallFailure) :
    Still e (e.abandon entry why) :=
  (still_ackStore e entry.seq).trans (still_emit _ rfl rfl)

end Engine

end OcppKit
