import Mathlib

/-!
# A durable outbox with one outstanding message

The delivery discipline of a client that must not lose what it was given to send,
in its own terms: nothing here is about a particular protocol.

A message is *accepted* under a fresh token and joins the queue. Messages of the
*exempt* kind leave the queue as soon as they are written. Of the others at most
one is outstanding: it sits in the *slot* until it is answered, or until its answer
is given up on, when it either goes back to the front of the queue or is resolved
for good. An answered message is *held* for as long as the answer is being acted
on, and then resolved. Messages flagged *ordered* leave the queue oldest first; the
others may overtake them. A message may have a record in a durable store, which is
acknowledged when the message is resolved.

What the outbox does is the relation `Outbox.Step`, split in two because the
difference matters: `Outbox.Keep` never empties the slot, `Outbox.Free` always
does. The history `Outbox.State.hist` collects what was accepted, sent and
resolved; the invariants of `OcppKit.Library.OutboxInvariants` are about it.
-/

namespace Outbox

/-! ### Items and policies -/

/-- A message: its token, its record in the store if it has one, how often it has
been sent, and what it says. -/
structure Item (β : Type) where
  /-- The token it was accepted under. -/
  token : ℕ
  /-- Its number in the store. -/
  seq : Option ℕ
  /-- The count of its attempts. -/
  attempts : ℕ
  /-- What it says, which never changes. -/
  body : β

/-- A message that is outstanding, and the id it was sent under. -/
structure Flight (ι β : Type) where
  /-- The id of this attempt. -/
  id : ι
  /-- The message, this attempt counted. -/
  item : Item β

/-- One entry of the history. -/
inductive Ev (ι β ν : Type) where
  /-- A message joined the queue. -/
  | accepted (item : Item β)
  /-- A message was written under an id. -/
  | sent (id : ι) (item : Item β)
  /-- A token was resolved, once and for all. -/
  | resolved (token : ℕ) (verdict : ν)

/-- **How messages and verdicts are treated.** -/
structure Policy (β ν : Type) where
  /-- The message is sent in order. -/
  ordered : β → Bool
  /-- The message occupies no slot and waits for no answer. -/
  exempt : β → Bool
  /-- Others may be sent while the answer to the message is being acted on. -/
  early : β → Bool
  /-- The verdict carries an answer of the peer's. -/
  answer : ν → Bool
  /-- What one more attempt makes of a count of attempts. -/
  count : ℕ → ℕ
  /-- A message that has been attempted this often may be sent again. -/
  again : ℕ → Bool

/-- The flight a message takes off with. -/
def Item.launch {ι β ν : Type} (P : Policy β ν) (item : Item β) (id : ι) : Flight ι β :=
  ⟨id, { item with attempts := P.count item.attempts }⟩

@[simp] theorem Item.launch_token {ι β ν : Type} (P : Policy β ν) (item : Item β) (id : ι) :
    (item.launch P id).item.token = item.token := rfl

@[simp] theorem Item.launch_body {ι β ν : Type} (P : Policy β ν) (item : Item β) (id : ι) :
    (item.launch P id).item.body = item.body := rfl

/-! ### The store -/

/-- A durable store of records, each with a number and a count of attempts. -/
class RecordStore (σ β : Type) where
  /-- Appends a record with no attempts; may fail. -/
  push : σ → β → σ × Option ℕ
  /-- Removes a record. -/
  ack : σ → ℕ → σ
  /-- Sets a record's count of attempts. -/
  setAttempts : σ → ℕ → ℕ → σ
  /-- The live records, oldest first. -/
  records : σ → List (ℕ × β × ℕ)

variable {ι β ν σ : Type} [RecordStore σ β]

/-- Acknowledges a record, if there is one. -/
def ackIf (β : Type) {σ : Type} [RecordStore σ β] (s : σ) : Option ℕ → σ
  | none => s
  | some q => RecordStore.ack β s q

/-- Sets a record's count of attempts, if there is one. -/
def setIf (β : Type) {σ : Type} [RecordStore σ β] (s : σ) (seq : Option ℕ) (n : ℕ) : σ :=
  match seq with
  | none => s
  | some q => RecordStore.setAttempts β s q n

/-- **The store after accepting a message**: unchanged when the message has no
record, and with one more record otherwise. -/
def Stored (s : σ) (item : Item β) (s' : σ) : Prop :=
  match item.seq with
  | none => s' = s
  | some q => RecordStore.push s item.body = (s', some q)

/-! ### States and steps -/

/-- The state of an outbox. -/
structure State (ι β ν σ : Type) where
  /-- The messages waiting, oldest first but for those that came back. -/
  queue : List (Item β)
  /-- The outstanding message. -/
  slot : Option (Flight ι β)
  /-- The answered message whose answer is being acted on, and its verdict. -/
  held : Option (Item β × ν)
  /-- The next token. -/
  next : ℕ
  /-- The durable store. -/
  store : σ
  /-- What has happened. -/
  hist : List (Ev ι β ν)

variable (P : Policy β ν)

/-- **The steps that do not empty the slot.** -/
inductive Keep : State ι β ν σ → State ι β ν σ → Prop
  /-- A message joins the queue under the next token. -/
  | accept {s : State ι β ν σ} (item : Item β) (store' : σ) :
      item.token = s.next → item.attempts = 0 → Stored s.store item store' →
      Keep s { s with queue := s.queue ++ [item], next := s.next + 1, store := store'
                      hist := s.hist ++ [.accepted item] }
  /-- A message is refused: its token is resolved at once. -/
  | refuse {s : State ι β ν σ} (v : ν) : P.answer v = false →
      Keep s { s with next := s.next + 1, hist := s.hist ++ [.resolved s.next v] }
  /-- The store refuses a record. -/
  | storeFailed {s : State ι β ν σ} (b : β) : (RecordStore.push s.store b).2 = none →
      Keep s { s with store := (RecordStore.push s.store b).1 }
  /-- An exempt message is written, and is done. -/
  | sendExempt {s : State ι β ν σ} (id : ι) (xs : List (Item β)) (item : Item β)
      (ys : List (Item β)) (v : ν) : s.queue = xs ++ item :: ys → P.exempt item.body = true →
      (P.ordered item.body = true → ∀ x ∈ xs, P.ordered x.body = false) → P.answer v = false →
      Keep s { s with queue := xs ++ ys, store := ackIf β s.store item.seq
                      hist := s.hist ++ [.sent id item, .resolved item.token v] }
  /-- A message is written and occupies the slot. -/
  | send {s : State ι β ν σ} (id : ι) (xs : List (Item β)) (item : Item β)
      (ys : List (Item β)) : s.queue = xs ++ item :: ys → P.exempt item.body = false →
      (P.ordered item.body = true → ∀ x ∈ xs, P.ordered x.body = false) → s.slot = none →
      (∀ h, s.held = some h → P.early h.1.body = true) →
      Keep s { s with queue := xs ++ ys, slot := some (item.launch P id)
                      hist := s.hist ++ [.sent id item] }
  /-- A waiting message is given up. -/
  | drop {s : State ι β ν σ} (xs : List (Item β)) (item : Item β) (ys : List (Item β)) (v : ν) :
      s.queue = xs ++ item :: ys → P.answer v = false →
      Keep s { s with queue := xs ++ ys, store := ackIf β s.store item.seq
                      hist := s.hist ++ [.resolved item.token v] }
  /-- The held message is resolved. -/
  | settle {s : State ι β ν σ} (item : Item β) (v : ν) : s.held = some (item, v) →
      Keep s { s with held := none, hist := s.hist ++ [.resolved item.token v] }

/-- **The steps that empty the slot.** -/
inductive Free : State ι β ν σ → State ι β ν σ → Prop
  /-- The outstanding message is answered. -/
  | answer {s : State ι β ν σ} (f : Flight ι β) (v : ν) : s.slot = some f → s.held = none →
      Free s { s with slot := none, held := some (f.item, v)
                      store := ackIf β s.store f.item.seq }
  /-- The outstanding message goes back to the front of the queue. -/
  | requeue {s : State ι β ν σ} (f : Flight ι β) : s.slot = some f →
      P.ordered f.item.body = true → P.again f.item.attempts = true →
      Free s { s with slot := none, queue := f.item :: s.queue
                      store := setIf β s.store f.item.seq f.item.attempts }
  /-- The outstanding message is given up. -/
  | giveUp {s : State ι β ν σ} (f : Flight ι β) (v : ν) : s.slot = some f →
      P.answer v = false →
      Free s { s with slot := none, store := ackIf β s.store f.item.seq
                      hist := s.hist ++ [.resolved f.item.token v] }

/-- A step of the outbox. -/
def Step (s s' : State ι β ν σ) : Prop := Keep P s s' ∨ Free P s s'

/-- Any number of steps. -/
abbrev Steps : State ι β ν σ → State ι β ν σ → Prop := Relation.ReflTransGen (Step P)

/-- Any number of steps that do not empty the slot. -/
abbrev Keeps : State ι β ν σ → State ι β ν σ → Prop := Relation.ReflTransGen (Keep P)

variable {P}

theorem Keeps.steps {s s' : State ι β ν σ} (h : Keeps P s s') : Steps P s s' :=
  Relation.ReflTransGen.mono (fun _ _ hk => Or.inl hk) _ _ h

/-- **A property kept by every step holds after any number of them.** -/
theorem Steps.invariant (Inv : State ι β ν σ → Prop)
    (hstep : ∀ s s', Step P s s' → Inv s → Inv s') {s s' : State ι β ν σ}
    (h : Steps P s s') (hs : Inv s) : Inv s' := by
  induction h with
  | refl => exact hs
  | tail _ hlast ih => exact hstep _ _ hlast ih

/-- Tokens are never taken back. -/
theorem Step.next_le {s s' : State ι β ν σ} (h : Step P s s') : s.next ≤ s'.next := by
  rcases h with h | h <;> cases h <;> first | exact le_rfl | exact Nat.le_succ _

theorem Steps.next_le {s s' : State ι β ν σ} (h : Steps P s s') : s.next ≤ s'.next := by
  induction h with
  | refl => exact le_rfl
  | tail _ hlast ih => exact ih.trans hlast.next_le

/-! ### Reading a state and a history -/

/-- The messages that are not resolved, the held one first. -/
def State.live (s : State ι β ν σ) : List (Item β) :=
  (s.held.toList.map Prod.fst) ++ (s.slot.toList.map Flight.item) ++ s.queue

/-- The token an entry of the history resolves. -/
def Ev.resolvedToken : Ev ι β ν → Option ℕ
  | .resolved t _ => some t
  | _ => none

/-- The message an entry of the history accepts. -/
def Ev.acceptedItem : Ev ι β ν → Option (Item β)
  | .accepted item => some item
  | _ => none

/-- The message an entry of the history sends, and the id. -/
def Ev.sentItem : Ev ι β ν → Option (ι × Item β)
  | .sent id item => some (id, item)
  | _ => none

/-- The tokens resolved by a history, in order. -/
def resolvedTokens (hist : List (Ev ι β ν)) : List ℕ := hist.filterMap Ev.resolvedToken

/-- The messages accepted by a history, in order. -/
def acceptedItems (hist : List (Ev ι β ν)) : List (Item β) := hist.filterMap Ev.acceptedItem

/-- What a history sends, in order. -/
def sentItems (hist : List (Ev ι β ν)) : List (ι × Item β) := hist.filterMap Ev.sentItem

@[simp] theorem resolvedTokens_append (h h' : List (Ev ι β ν)) :
    resolvedTokens (h ++ h') = resolvedTokens h ++ resolvedTokens h' :=
  List.filterMap_append

@[simp] theorem acceptedItems_append (h h' : List (Ev ι β ν)) :
    acceptedItems (h ++ h') = acceptedItems h ++ acceptedItems h' :=
  List.filterMap_append

@[simp] theorem sentItems_append (h h' : List (Ev ι β ν)) :
    sentItems (h ++ h') = sentItems h ++ sentItems h' :=
  List.filterMap_append

@[simp] theorem resolvedTokens_accepted (item : Item β) (h : List (Ev ι β ν)) :
    resolvedTokens (.accepted item :: h) = resolvedTokens h := rfl

@[simp] theorem resolvedTokens_sent (id : ι) (item : Item β) (h : List (Ev ι β ν)) :
    resolvedTokens (.sent id item :: h) = resolvedTokens h := rfl

@[simp] theorem resolvedTokens_resolved (t : ℕ) (v : ν) (h : List (Ev ι β ν)) :
    resolvedTokens (.resolved t v :: h) = t :: resolvedTokens h := rfl

@[simp] theorem resolvedTokens_nil : resolvedTokens ([] : List (Ev ι β ν)) = [] := rfl

@[simp] theorem acceptedItems_accepted (item : Item β) (h : List (Ev ι β ν)) :
    acceptedItems (.accepted item :: h) = item :: acceptedItems h := rfl

@[simp] theorem acceptedItems_sent (id : ι) (item : Item β) (h : List (Ev ι β ν)) :
    acceptedItems (.sent id item :: h) = acceptedItems h := rfl

@[simp] theorem acceptedItems_resolved (t : ℕ) (v : ν) (h : List (Ev ι β ν)) :
    acceptedItems (.resolved t v :: h) = acceptedItems h := rfl

@[simp] theorem acceptedItems_nil : acceptedItems ([] : List (Ev ι β ν)) = [] := rfl

@[simp] theorem sentItems_accepted (item : Item β) (h : List (Ev ι β ν)) :
    sentItems (.accepted item :: h) = sentItems h := rfl

@[simp] theorem sentItems_sent (id : ι) (item : Item β) (h : List (Ev ι β ν)) :
    sentItems (.sent id item :: h) = (id, item) :: sentItems h := rfl

@[simp] theorem sentItems_resolved (t : ℕ) (v : ν) (h : List (Ev ι β ν)) :
    sentItems (.resolved t v :: h) = sentItems h := rfl

@[simp] theorem sentItems_nil : sentItems ([] : List (Ev ι β ν)) = [] := rfl

/-! ### What the slot is given -/

/-- What a history puts in the slot, in order. -/
def attempts (P : Policy β ν) (hist : List (Ev ι β ν)) : List (ι × Item β) :=
  (sentItems hist).filter fun p => !P.exempt p.2.body

theorem attempts_append (P : Policy β ν) (h h' : List (Ev ι β ν)) :
    attempts P (h ++ h') = attempts P h ++ attempts P h' := by
  rw [attempts, sentItems_append, List.filter_append, attempts, attempts]

theorem attempts_sent_of_pos {P : Policy β ν} (id : ι) {item : Item β}
    (h : P.exempt item.body = true) (rest : List (Ev ι β ν)) :
    attempts P (.sent id item :: rest) = attempts P rest := by
  simp [attempts, h]

theorem attempts_sent_of_neg {P : Policy β ν} (id : ι) {item : Item β}
    (h : P.exempt item.body = false) (rest : List (Ev ι β ν)) :
    attempts P (.sent id item :: rest) = (id, item) :: attempts P rest := by
  simp [attempts, h]

/-- What happens to the slot between two states, the later of which has this much
more history: nothing, or one message takes it. -/
def SlotKept (P : Policy β ν) (s s' : State ι β ν σ) (new : List (Ev ι β ν)) : Prop :=
  (attempts P new = [] ∧ s'.slot = s.slot) ∨
    (s.slot = none ∧ ∃ id item, attempts P new = [(id, item)] ∧ s'.slot = some (item.launch P id))

theorem Keep.slotKept {s s' : State ι β ν σ} (h : Keep P s s') :
    ∃ new, s'.hist = s.hist ++ new ∧ SlotKept P s s' new := by
  cases h with
  | accept item store' _ _ _ => exact ⟨_, rfl, Or.inl ⟨rfl, rfl⟩⟩
  | refuse v _ => exact ⟨_, rfl, Or.inl ⟨rfl, rfl⟩⟩
  | storeFailed b _ => exact ⟨[], (List.append_nil _).symm, Or.inl ⟨rfl, rfl⟩⟩
  | sendExempt id xs item ys v _ hex _ _ =>
      exact ⟨_, rfl, Or.inl ⟨attempts_sent_of_pos id hex _, rfl⟩⟩
  | send id xs item ys _ hex _ hslot _ =>
      exact ⟨_, rfl, Or.inr ⟨hslot, id, item, attempts_sent_of_neg id hex _, rfl⟩⟩
  | drop xs item ys v _ _ => exact ⟨_, rfl, Or.inl ⟨rfl, rfl⟩⟩
  | settle item v _ => exact ⟨_, rfl, Or.inl ⟨rfl, rfl⟩⟩

/-- **As long as the slot is not emptied, at most one message takes it**, and none
does if it is taken already. -/
theorem Keeps.slotKept {s s' : State ι β ν σ} (h : Keeps P s s') :
    ∃ new, s'.hist = s.hist ++ new ∧ SlotKept P s s' new := by
  induction h with
  | refl => exact ⟨[], (List.append_nil _).symm, Or.inl ⟨rfl, rfl⟩⟩
  | tail _ hlast ih =>
      obtain ⟨new, hnew, hslot⟩ := ih
      obtain ⟨last, hlasth, hlasts⟩ := hlast.slotKept
      refine ⟨new ++ last, by rw [hlasth, hnew, List.append_assoc], ?_⟩
      rw [SlotKept, attempts_append]
      rcases hslot with ⟨hn, hs⟩ | ⟨hn, id, item, ha, hs⟩
      · rcases hlasts with ⟨hl, hls⟩ | ⟨hl, id, item, hla, hls⟩
        · exact Or.inl ⟨by rw [hn, hl, List.append_nil], hls.trans hs⟩
        · exact Or.inr ⟨hs ▸ hl, id, item, by rw [hn, hla, List.nil_append], hls⟩
      · rcases hlasts with ⟨hl, hls⟩ | ⟨hl, -⟩
        · exact Or.inr ⟨hn, id, item, by rw [ha, hl, List.append_nil], hls.trans hs⟩
        · exact absurd (hs.symm.trans hl) (by simp)

/-- Emptying the slot sends nothing. -/
theorem Free.slot {s s' : State ι β ν σ} (h : Free P s s') :
    s'.slot = none ∧ ∃ new, s'.hist = s.hist ++ new ∧ attempts P new = [] := by
  cases h with
  | answer f v _ _ => exact ⟨rfl, [], (List.append_nil _).symm, rfl⟩
  | requeue f _ _ _ => exact ⟨rfl, [], (List.append_nil _).symm, rfl⟩
  | giveUp f v _ _ => exact ⟨rfl, _, rfl, rfl⟩

/-! ### What is sent was live -/

/-- Every live message says something good. -/
def State.Carries (s : State ι β ν σ) (Good : β → Prop) : Prop := ∀ i ∈ s.live, Good i.body

/-- What happens between two states, the later of which has this much more history, to what
is good: if everything live and everything accepted is good, so is everything live then and
everything sent. -/
def CarriesOn (Good : β → Prop) (s s' : State ι β ν σ) (new : List (Ev ι β ν)) : Prop :=
  s.Carries Good → (∀ i ∈ acceptedItems new, Good i.body) →
    s'.Carries Good ∧ ∀ p ∈ sentItems new, Good p.2.body

omit [RecordStore σ β] in
/-- A step that accepts and sends nothing, and after which nothing new is live. -/
theorem carriesOn_of_subset {Good : β → Prop} {s s' : State ι β ν σ} {new : List (Ev ι β ν)}
    (hlive : ∀ i ∈ s'.live, ∃ j ∈ s.live, i.body = j.body) (hsent : sentItems new = []) :
    CarriesOn Good s s' new := by
  intro hs _
  refine ⟨fun i hi => ?_, by simp [hsent]⟩
  obtain ⟨j, hj, hbody⟩ := hlive i hi
  rw [hbody]
  exact hs j hj

theorem Keep.carriesOn {s s' : State ι β ν σ} (h : Keep P s s') (Good : β → Prop) :
    ∃ new, s'.hist = s.hist ++ new ∧ CarriesOn Good s s' new := by
  cases h with
  | accept item store' _ _ _ =>
      refine ⟨_, rfl, fun hs hnew => ⟨fun i hi => ?_, by simp⟩⟩
      simp only [State.live, List.mem_append, List.mem_singleton] at hi
      rcases hi with hi | hi | rfl
      · exact hs i (by simp only [State.live, List.mem_append]; exact Or.inl hi)
      · exact hs i (by simp only [State.live, List.mem_append]; exact Or.inr hi)
      · exact hnew i (by simp)
  | refuse v _ => exact ⟨_, rfl, carriesOn_of_subset (fun i hi => ⟨i, hi, rfl⟩) rfl⟩
  | storeFailed b _ =>
      exact ⟨[], (List.append_nil _).symm, carriesOn_of_subset (fun i hi => ⟨i, hi, rfl⟩) rfl⟩
  | sendExempt id xs item ys v hq _ _ _ =>
      refine ⟨_, rfl, fun hs _ => ⟨fun i hi => ?_, fun p hp => ?_⟩⟩
      · refine hs i ?_
        simp only [State.live, hq, List.mem_append, List.mem_cons] at hi ⊢
        tauto
      · obtain rfl : p = (id, item) := by simpa using hp
        exact hs item (by simp [State.live, hq])
  | send id xs item ys hq _ _ _ _ =>
      refine ⟨_, rfl, fun hs _ => ⟨fun i hi => ?_, fun p hp => ?_⟩⟩
      · simp only [State.live, Option.toList_some, List.map_cons, List.map_nil, List.mem_append,
          List.mem_singleton] at hi
        rcases hi with (hi | rfl) | hi
        · exact hs i (by simp only [State.live, List.mem_append]; exact Or.inl (Or.inl hi))
        · exact hs item (by simp [State.live, hq])
        · refine hs i ?_
          simp only [State.live, hq, List.mem_append, List.mem_cons]
          tauto
      · obtain rfl : p = (id, item) := by simpa using hp
        exact hs item (by simp [State.live, hq])
  | drop xs item ys v hq _ =>
      refine ⟨_, rfl, carriesOn_of_subset (fun i hi => ⟨i, ?_, rfl⟩) rfl⟩
      simp only [State.live, hq, List.mem_append, List.mem_cons] at hi ⊢
      tauto
  | settle item v hheld =>
      refine ⟨_, rfl, carriesOn_of_subset (fun i hi => ⟨i, ?_, rfl⟩) rfl⟩
      simp only [State.live, Option.toList_none, List.map_nil, List.nil_append, List.mem_append]
        at hi ⊢
      tauto

theorem Free.carriesOn {s s' : State ι β ν σ} (h : Free P s s') (Good : β → Prop) :
    ∃ new, s'.hist = s.hist ++ new ∧ CarriesOn Good s s' new := by
  cases h with
  | answer f v hslot hheld =>
      refine ⟨[], (List.append_nil _).symm, carriesOn_of_subset (fun i hi => ⟨i, ?_, rfl⟩) rfl⟩
      simpa [State.live, hslot, hheld] using hi
  | requeue f hslot _ _ =>
      refine ⟨[], (List.append_nil _).symm, carriesOn_of_subset (fun i hi => ⟨i, ?_, rfl⟩) rfl⟩
      simpa [State.live, hslot] using hi
  | giveUp f v hslot _ =>
      refine ⟨_, rfl, carriesOn_of_subset (fun i hi => ⟨i, ?_, rfl⟩) rfl⟩
      simp only [State.live, hslot, Option.toList_none, List.map_nil, List.append_nil,
        List.mem_append] at hi ⊢
      tauto

/-- **What is live or sent was live or is accepted.** -/
theorem Steps.carriesOn {s s' : State ι β ν σ} (h : Steps P s s') (Good : β → Prop) :
    ∃ new, s'.hist = s.hist ++ new ∧ CarriesOn Good s s' new := by
  induction h with
  | refl => exact ⟨[], (List.append_nil _).symm, fun hs _ => ⟨hs, by simp⟩⟩
  | tail _ hlast ih =>
      obtain ⟨new, hnew, hcarry⟩ := ih
      obtain ⟨last, hlast', hcarry'⟩ := hlast.elim (Keep.carriesOn · Good) (Free.carriesOn · Good)
      refine ⟨new ++ last, by rw [hlast', hnew, List.append_assoc], fun hs haccepted => ?_⟩
      rw [acceptedItems_append] at haccepted
      obtain ⟨hmid, hsent⟩ := hcarry hs fun i hi => haccepted i (List.mem_append_left _ hi)
      obtain ⟨hend, hsent'⟩ := hcarry' hmid fun i hi => haccepted i (List.mem_append_right _ hi)
      refine ⟨hend, fun p hp => ?_⟩
      rw [sentItems_append] at hp
      rcases List.mem_append.mp hp with hp | hp
      · exact hsent p hp
      · exact hsent' p hp

end Outbox
