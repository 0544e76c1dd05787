import OcppKit.Engine.Correlation

/-!
# What the peer waits on

`OcppKit.PeerView` is what a history says of the peer's requests: those delivered on
this connection and not answered yet, the verdict last given to a
`BootNotification`, and whether another one has been delivered since.
`OcppKit.tabled_run` ties the engine's table of ids to it, in every state a run
reaches.
-/

namespace OcppKit

variable [Externals]

open Engine

/-! ### Reading the history -/

/-- **What a history says of the peer's requests.** -/
structure PeerView where
  /-- The calls delivered on this connection that have not been answered. -/
  pending : List IncomingRequest
  /-- The verdict last given to a `BootNotification`. -/
  verdict : Option BootState
  /-- Whether a `BootNotification` has been delivered since. -/
  reopened : Bool

/-- Nothing has happened. -/
def PeerView.start : PeerView := ⟨[], none, false⟩

/-- The calls that wait, without the one that has this id. -/
def PeerView.without (v : PeerView) (id : MessageId) : List IncomingRequest :=
  v.pending.filter fun r => r.id ≠ id

/-- Whether the call with this id is a `BootNotification`. -/
def PeerView.awaitsBoot (v : PeerView) (id : MessageId) : Bool :=
  v.pending.any fun r => r.id = id && r.action = "BootNotification"

/-- A call is answered with a result. -/
def PeerView.answer (v : PeerView) (id : MessageId) (payload : RawValue) : PeerView :=
  match if v.awaitsBoot id then bootVerdict payload else none with
  | some verdict => ⟨v.without id, some verdict, false⟩
  | none => { v with pending := v.without id }

/-- What an entry of the history changes. -/
def PeerView.next (v : PeerView) : Event → PeerView
  | .input (.connected _) | .input .disconnected => { v with pending := [] }
  | .out (.request r) =>
      { v with
        pending := if r.kind = .call then v.pending ++ [r] else v.pending
        reopened := v.reopened || r.action = "BootNotification" }
  | .answered id payload => v.answer id payload
  | .answeredError id _ => { v with pending := v.without id }
  | _ => v

/-- The view a history gives. -/
def peerView (log : List Event) : PeerView := log.foldl PeerView.next .start

theorem peerView_append (l l' : List Event) :
    peerView (l ++ l') = l'.foldl PeerView.next (peerView l) :=
  List.foldl_append

@[simp] theorem PeerView.answer_pending (v : PeerView) (id : MessageId) (payload : RawValue) :
    (v.answer id payload).pending = v.without id := by
  rw [answer]
  split <;> rfl

/-- The engine's own entries say nothing of the peer. -/
theorem PeerView.next_of_own (v : PeerView) {event : Event} (h : event.own = true) :
    v.next event = v := by
  rcases event with i | o | _ | _ | _ | _ | _ | _
  case out => rcases o with _ | _ | _ | _ | _ | _ | _ | _ | _ | _ <;> first | rfl | cases h
  all_goals first | rfl | cases h

theorem foldl_next_foreign (evs : List Event) (v : PeerView) :
    evs.foldl PeerView.next v = (foreign evs).foldl PeerView.next v := by
  induction evs generalizing v with
  | nil => rfl
  | cons event evs ih =>
      rcases hown : event.own with _ | _
      · rw [foreign, List.filter_cons_of_pos (by simp [hown]), ← foreign]
        exact ih _
      · rw [foreign, List.filter_cons_of_neg (by simp [hown]), ← foreign, List.foldl_cons,
          v.next_of_own hown]
        exact ih v

variable {S : Type} [MessageStore S]

theorem peerView_exec (e : Engine S) (op : Op) : peerView (exec e op).log =
    (foreign (newEvents e op)).foldl PeerView.next (peerView e.log) := by
  rw [log_exec, peerView_append, foldl_next_foreign]

/-! ### The table -/

/-- **The table and the view agree**: these ids, of which there are at most so many,
are those of the calls that wait. -/
structure Tabled (ids : Finset MessageId) (limit : ℕ) (pending : List IncomingRequest) : Prop where
  /-- The ids are those of the calls. -/
  mem : ∀ id, id ∈ ids ↔ ∃ r ∈ pending, r.id = id
  /-- No id stands twice. -/
  nodup : (pending.map IncomingRequest.id).Nodup
  /-- Only calls wait. -/
  calls : ∀ r ∈ pending, r.kind = .call
  /-- There are not too many. -/
  room : ids.card ≤ max 1 limit

omit [MessageStore S] in
theorem tabled_nil (limit : ℕ) : Tabled (∅ : Finset MessageId) limit [] where
  mem := fun id => by simp
  nodup := List.nodup_nil
  calls := fun r hr => absurd hr List.not_mem_nil
  room := Nat.zero_le _

theorem Tabled.insert {ids : Finset MessageId} {limit : ℕ} {pending : List IncomingRequest}
    (h : Tabled ids limit pending) {r : IncomingRequest} (hkind : r.kind = .call)
    (hid : r.id ∉ ids) (hroom : ids = ∅ ∨ ids.card < limit) :
    Tabled (insert r.id ids) limit (pending ++ [r]) where
  mem := by
    intro id
    rw [Finset.mem_insert, h.mem]
    constructor
    · rintro (rfl | ⟨r', hr', rfl⟩)
      · exact ⟨r, by simp, rfl⟩
      · exact ⟨r', List.mem_append_left _ hr', rfl⟩
    · rintro ⟨r', hr', rfl⟩
      rcases List.mem_append.mp hr' with hr' | hr'
      · exact Or.inr ⟨r', hr', rfl⟩
      · exact Or.inl (congrArg IncomingRequest.id (List.mem_singleton.mp hr'))
  nodup := by
    rw [List.map_append, List.nodup_append]
    refine ⟨h.nodup, List.nodup_singleton _, ?_⟩
    rintro a ha b hb rfl
    obtain rfl : a = r.id := by simpa using hb
    obtain ⟨r', hr', he⟩ := List.mem_map.mp ha
    exact hid ((h.mem _).mpr ⟨r', hr', he⟩)
  calls := by
    intro r' hr'
    rcases List.mem_append.mp hr' with hr' | hr'
    · exact h.calls r' hr'
    · exact List.mem_singleton.mp hr' ▸ hkind
  room := by
    rw [Finset.card_insert_of_notMem hid]
    rcases hroom with rfl | hlt
    · exact le_max_left 1 limit
    · exact le_max_of_le_right hlt

theorem Tabled.erase {ids : Finset MessageId} {limit : ℕ} {pending : List IncomingRequest}
    (h : Tabled ids limit pending) (id : MessageId) :
    Tabled (ids.erase id) limit (pending.filter fun r => r.id ≠ id) where
  mem := by
    intro id'
    rw [Finset.mem_erase, h.mem]
    simp only [List.mem_filter, decide_eq_true_eq]
    constructor
    · rintro ⟨hne, r, hr, rfl⟩
      exact ⟨r, ⟨hr, hne⟩, rfl⟩
    · rintro ⟨r, ⟨hr, hne⟩, rfl⟩
      exact ⟨hne, r, hr, rfl⟩
  nodup := h.nodup.sublist (List.filter_sublist.map _)
  calls := fun r hr => h.calls r (List.mem_of_mem_filter hr)
  room := (Finset.card_erase_le).trans h.room

/-- The table of an engine agrees with its history. -/
def EngineTabled (e : Engine S) : Prop :=
  Tabled e.peerInflight e.config.maxPeerRequests (peerView e.log).pending

theorem tabled_exec {e : Engine S} (h : EngineTabled e) (op : Op) : EngineTabled (exec e op) := by
  have heffect := (newEvents_effect e op).1
  rw [EngineTabled, peerView_exec,
    show (exec e op).peerInflight = (exec e op).setting.peerInflight from rfl,
    show (exec e op).config = (exec e op).setting.config from rfl]
  generalize (exec e op).setting = s at heffect
  generalize foreign (newEvents e op) = left at heffect
  rw [EngineTabled] at h
  generalize peerView e.log = v at h
  cases heffect with
  | connected now version => exact tabled_nil _
  | disconnected now => exact tabled_nil _
  | malformed now text error _ =>
      simp only [replyMarks]
      split <;> exact h
  | delivered now text id action payload kind _ hwelcome =>
      rcases kind with _ | _
      · exact h.insert (r := ⟨id, action, payload, .call⟩) rfl hwelcome.id_notMem hwelcome.room
      · exact h
  | responded now id payload _ =>
      simp only [List.foldl_cons, List.foldl_nil, PeerView.next, PeerView.answer_pending]
      exact h.erase id
  | respondedError now id error _ => exact h.erase id
  | _ => exact h

omit [MessageStore S] in
theorem peerView_foldl_restore (records : List (Seq × QueuedCall)) (e : Engine S) :
    peerView (records.foldl restore e).log = peerView e.log := by
  induction records generalizing e with
  | nil => rfl
  | cons record records ih =>
      refine (ih (e.restore record)).trans ?_
      simp only [restore, note, mintToken, peerView_append]
      rfl

/-- An engine starts with nothing pending. -/
theorem peerView_withStore {config : EngineConfig} {store : S} {ids : ℕ → MessageId}
    {e : Engine S} (h : Engine.withStore config store ids = .ok e) :
    peerView e.log = .start := by
  obtain ⟨records, -, rfl⟩ := eq_of_withStore h
  exact peerView_foldl_restore records _

/-- **The table of ids agrees with the history** in every state a run reaches. -/
theorem tabled_run {config : EngineConfig} {store : S} {ids : ℕ → MessageId}
    {e₀ : Engine S} (h : Engine.withStore config store ids = .ok e₀) (ops : List Op) :
    EngineTabled (run e₀ ops) := by
  refine run_invariant EngineTabled (fun e op he => tabled_exec he op) ?_ ops
  rw [EngineTabled, peerView_withStore h,
    show e₀.peerInflight = ∅ from congrArg Setting.peerInflight (setting_withStore h)]
  exact tabled_nil _

end OcppKit
