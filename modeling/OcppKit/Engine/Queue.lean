import OcppKit.Externals

/-!
# The outgoing queue's durable store and its retry policy

`OcppKit.MessageStore` is the store interface: append a message, list what is
not acknowledged, acknowledge, record a further attempt. Every operation may fail,
and returns the store it leaves behind along with its result.

`OcppKit.LawfulMessageStore` says what a store whose operations succeed does, and
`OcppKit.MemStore` is the reference: an in-memory list that keeps, as a field, the
fact that its sequence numbers are distinct and below the next one.
-/

namespace OcppKit

variable [Externals]

/-! ### The store interface -/

/-- Sequence number of a stored message. -/
abbrev Seq := ℕ

/-- One queued outgoing message, as the store keeps it. -/
structure QueuedCall where
  /-- Action name. -/
  action : String
  /-- Serialized payload. -/
  payload : RawValue
  /-- `CALL` or `SEND`. -/
  kind : MessageKind
  /-- How many times transmission has been attempted. -/
  attempts : ℕ
  /-- Whether the message is transaction-related. -/
  transactional : Bool
deriving DecidableEq

/-- A durable store failed. -/
structure StoreError where
  /-- What went wrong. -/
  reason : String
deriving DecidableEq, Repr

/-- **Durable storage for transaction-related messages.** -/
class MessageStore (S : Type) where
  /-- Appends a message, returning its sequence number. -/
  push : S → QueuedCall → S × Except StoreError Seq
  /-- Every un-acknowledged message, oldest first. -/
  pending : S → Except StoreError (List (Seq × QueuedCall))
  /-- Removes a message that has been delivered or abandoned. -/
  ack : S → Seq → S × Except StoreError Unit
  /-- Records a further transmission attempt. -/
  setAttempts : S → Seq → ℕ → S × Except StoreError Unit

/-- The un-acknowledged messages of a store; none when the store cannot say. -/
def MessageStore.records {S : Type} [MessageStore S] (s : S) : List (Seq × QueuedCall) :=
  (MessageStore.pending s).toOption.getD []

/-- A record with its attempt count replaced, if it is the one that is meant. -/
def setAttemptsOf (seq : Seq) (attempts : ℕ) (r : Seq × QueuedCall) : Seq × QueuedCall :=
  if r.1 = seq then (r.1, { r.2 with attempts := attempts }) else r

/-- **A store whose operations succeed.** Listing and acknowledging never fail;
a push that succeeds appends one record under a sequence number no other live
record has, and one that fails changes nothing. -/
class LawfulMessageStore (S : Type) [MessageStore S] : Prop where
  /-- Listing succeeds. -/
  pending_ok : ∀ s : S, ∃ l, MessageStore.pending s = .ok l
  /-- No two live records share a sequence number. -/
  nodup : ∀ s : S, ((MessageStore.records s).map Prod.fst).Nodup
  /-- A successful push appends. -/
  push_ok : ∀ (s : S) (entry : QueuedCall) (seq : Seq), (MessageStore.push s entry).2 = .ok seq →
    MessageStore.records (MessageStore.push s entry).1 =
        MessageStore.records s ++ [(seq, entry)] ∧
      seq ∉ (MessageStore.records s).map Prod.fst
  /-- A failing push changes nothing. -/
  push_error : ∀ (s : S) (entry : QueuedCall) (error : StoreError),
    (MessageStore.push s entry).2 = .error error →
      MessageStore.records (MessageStore.push s entry).1 = MessageStore.records s
  /-- An acknowledgement removes the record. -/
  ack_ok : ∀ (s : S) (seq : Seq), (MessageStore.ack s seq).2 = .ok () ∧
    MessageStore.records (MessageStore.ack s seq).1 =
      (MessageStore.records s).filter fun r => r.1 ≠ seq
  /-- Recording an attempt changes that count only. -/
  setAttempts_ok : ∀ (s : S) (seq : Seq) (attempts : ℕ),
    (MessageStore.setAttempts s seq attempts).2 = .ok () ∧
    MessageStore.records (MessageStore.setAttempts s seq attempts).1 =
      (MessageStore.records s).map (setAttemptsOf seq attempts)

/-! ### The in-memory store -/

/-- **An in-memory store.** Its live sequence numbers are distinct and were all
issued by its own counter. -/
structure MemStore where
  /-- The live records, oldest first. -/
  entries : List (Seq × QueuedCall)
  /-- The next sequence number to issue. -/
  nextSeq : Seq
  /-- The greatest number of live records, if there is a bound. -/
  capacity : Option ℕ
  /-- The live sequence numbers increase, and stay below the next one. -/
  ordered : (entries.map Prod.fst).Pairwise (· < ·)
  /-- Every live sequence number has been issued. -/
  issued : ∀ r ∈ entries, r.1 < nextSeq

namespace MemStore

/-- An unbounded in-memory store. -/
def new : MemStore where
  entries := []
  nextSeq := 0
  capacity := none
  ordered := List.Pairwise.nil
  issued := by simp

/-- A store that refuses to grow beyond `capacity` messages. -/
def bounded (capacity : ℕ) : MemStore := { new with capacity := some capacity }

/-- Appends a message under the next sequence number. -/
def append (s : MemStore) (entry : QueuedCall) : MemStore where
  entries := s.entries ++ [(s.nextSeq, entry)]
  nextSeq := s.nextSeq + 1
  capacity := s.capacity
  ordered := by
    rw [List.map_append, List.pairwise_append]
    refine ⟨s.ordered, by simp, ?_⟩
    intro a ha b hb
    obtain ⟨r, hr, rfl⟩ := List.mem_map.mp ha
    obtain rfl : b = s.nextSeq := by simpa using hb
    exact s.issued r hr
  issued := by
    intro r hr
    rcases List.mem_append.mp hr with hr | hr
    · exact Nat.lt_succ_of_lt (s.issued r hr)
    · obtain rfl : r = (s.nextSeq, entry) := by simpa using hr
      exact Nat.lt_succ_self _

/-- Drops the record with this sequence number. -/
def drop (s : MemStore) (seq : Seq) : MemStore where
  entries := s.entries.filter fun r => r.1 ≠ seq
  nextSeq := s.nextSeq
  capacity := s.capacity
  ordered := s.ordered.sublist (List.filter_sublist.map Prod.fst)
  issued := fun r hr => s.issued r (List.mem_of_mem_filter hr)

theorem map_fst_setAttemptsOf (seq : Seq) (attempts : ℕ) (l : List (Seq × QueuedCall)) :
    (l.map (setAttemptsOf seq attempts)).map Prod.fst = l.map Prod.fst := by
  rw [List.map_map]
  refine List.map_congr_left fun r _ => ?_
  change (setAttemptsOf seq attempts r).1 = r.1
  rw [setAttemptsOf]
  split <;> rfl

/-- Replaces the attempt count of the record with this sequence number. -/
def mark (s : MemStore) (seq : Seq) (attempts : ℕ) : MemStore where
  entries := s.entries.map (setAttemptsOf seq attempts)
  nextSeq := s.nextSeq
  capacity := s.capacity
  ordered := by
    rw [map_fst_setAttemptsOf]
    exact s.ordered
  issued := by
    intro r hr
    have hmem : r.1 ∈ (s.entries.map (setAttemptsOf seq attempts)).map Prod.fst :=
      List.mem_map_of_mem hr
    rw [map_fst_setAttemptsOf] at hmem
    obtain ⟨r', hr', he⟩ := List.mem_map.mp hmem
    rw [← he]
    exact s.issued r' hr'

/-- Whether the store is full. -/
def full (s : MemStore) : Bool :=
  match s.capacity with
  | some capacity => capacity ≤ s.entries.length
  | none => false

instance : MessageStore MemStore where
  push s entry :=
    if s.full then (s, .error ⟨"offline queue is full"⟩)
    else (s.append entry, .ok s.nextSeq)
  pending s := .ok s.entries
  ack s seq := (s.drop seq, .ok ())
  setAttempts s seq attempts := (s.mark seq attempts, .ok ())

@[simp] theorem records_eq (s : MemStore) : MessageStore.records s = s.entries := rfl

instance : LawfulMessageStore MemStore where
  pending_ok s := ⟨s.entries, rfl⟩
  nodup s := s.ordered.imp fun h => Nat.ne_of_lt h
  push_ok s entry seq h := by
    simp only [MessageStore.push] at h ⊢
    by_cases hf : s.full = true
    · rw [if_pos hf] at h
      exact absurd h (by simp)
    · rw [if_neg hf] at h ⊢
      obtain rfl : s.nextSeq = seq := by simpa using h
      refine ⟨rfl, fun hmem => ?_⟩
      obtain ⟨r, hr, he⟩ := List.mem_map.mp hmem
      exact absurd he (Nat.ne_of_lt (s.issued r hr))
  push_error s entry error h := by
    simp only [MessageStore.push] at h ⊢
    by_cases hf : s.full = true
    · rw [if_pos hf]
    · rw [if_neg hf] at h
      exact absurd h (by simp)
  ack_ok s seq := ⟨rfl, rfl⟩
  setAttempts_ok s seq attempts := ⟨rfl, rfl⟩

end MemStore

/-! ### The retry policy -/

/-- How often, and how far apart, transaction-related messages are retried. -/
structure RetryPolicy where
  /-- Total number of transmissions, including the first. -/
  attempts : ℕ
  /-- The base interval. -/
  interval : Duration
  /-- The number has 32 bits. -/
  attempts_le : attempts ≤ u32Max
deriving DecidableEq, Repr

/-- Three attempts, 60 s apart. -/
def RetryPolicy.default : RetryPolicy :=
  ⟨3, Duration.fromSecs 60, Nat.le_of_ble_eq_true rfl⟩

/-- The wait before the retry that follows `attemptsMade` transmissions. -/
def RetryPolicy.delayAfter (p : RetryPolicy) (attemptsMade : ℕ) : Duration :=
  Duration.saturatingMul p.interval attemptsMade

/-- Whether another transmission is allowed after `attemptsMade`. -/
def RetryPolicy.mayRetry (p : RetryPolicy) (attemptsMade : ℕ) : Bool :=
  attemptsMade < p.attempts

omit [Externals] in
/-- What is transmitted again has not been counted to the end. -/
theorem RetryPolicy.lt_of_mayRetry {p : RetryPolicy} {attemptsMade : ℕ}
    (h : p.mayRetry attemptsMade = true) : attemptsMade < u32Max :=
  (of_decide_eq_true h).trans_le p.attempts_le

end OcppKit
