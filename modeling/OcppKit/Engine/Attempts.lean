import OcppKit.Engine.OutboundGate

/-!
# How often a message is sent

A transaction-related message that was accepted with `k` attempts on record is sent at most
`max 1 (attempts - k)` times, and any other message once; what is given up as exhausted was
sent exactly that often; and an attempt that failed is followed by the next one only after
its back-off: `OcppKit.retries_bounded`. The count has 32 bits and begins again at zero after the
last of them, so that all of this is for a store in which none has come so far
(`OcppKit.CountsOn`): `OcppKit.Reference.retries_unbounded_wornStore`.

The count of attempts travels with the message, from the queue to the slot and back.
`OcppKit.Engine.Counted` says that wherever it is, it is the count the message was accepted
with and the number of times it has been sent since. The back-off is kept by
`OcppKit.Engine.Rests`: until it is over, a message is nowhere but in the queue, where it
waits.
-/

namespace OcppKit

variable [Externals]

/-! ### Counting transmissions -/

/-- The entry is a transmission of this message. -/
def Event.sends (token : CallToken) : Event → Bool
  | .sent _ entry => entry.token = token
  | _ => false

/-- **How often a message was sent.** -/
def transmissions (evs : List Event) (token : CallToken) : ℕ := evs.countP (Event.sends token)

theorem transmissions_append (evs more : List Event) (token : CallToken) :
    transmissions (evs ++ more) token = transmissions evs token + transmissions more token :=
  List.countP_append

theorem transmissions_eq_zero {evs : List Event} {token : CallToken}
    (h : ∀ ev ∈ evs, ev.sends token = false) : transmissions evs token = 0 := by
  rw [transmissions, List.countP_eq_zero]
  intro ev hev hsends
  exact absurd hsends (by simp [h ev hev])

theorem Event.sends_of_aside {ev : Event} (h : ev.aside = true) (token : CallToken) :
    ev.sends token = false := by
  cases ev with
  | sent id entry => exact absurd h (by simp [Event.aside])
  | _ => rfl

/-- What is of no concern to any message is no transmission. -/
theorem transmissions_aside {evs more : List Event} (h : ∀ ev ∈ more, ev.aside = true)
    (token : CallToken) : transmissions (evs ++ more) token = transmissions evs token := by
  rw [transmissions_append,
    transmissions_eq_zero fun ev hev => Event.sends_of_aside (h ev hev) token, Nat.add_zero]

theorem transmissions_concat_of_not {evs : List Event} {ev : Event} {token : CallToken}
    (h : ev.sends token = false) : transmissions (evs ++ [ev]) token = transmissions evs token := by
  have hone : transmissions [ev] token = 0 := by
    refine transmissions_eq_zero fun ev' hev' => ?_
    obtain rfl := List.mem_singleton.mp hev'
    exact h
  rw [transmissions_append, hone, Nat.add_zero]

theorem transmissions_concat_sent (evs : List Event) (id : MessageId) (entry : Pending) :
    transmissions (evs ++ [Event.sent id entry]) entry.token =
      transmissions evs entry.token + 1 := by
  rw [transmissions_append]
  congr 1
  simp [transmissions, Event.sends]

/-! ### What a count says -/

/-- **The message under this handle was accepted**, and this is the count it was accepted
with and the number of times it has been sent since. -/
def Tallied (evs : List Event) (token : CallToken) (transactional : Bool) (attempts : ℕ) : Prop :=
  ∃ entry, .accepted entry ∈ evs ∧ entry.token = token ∧ entry.transactional = transactional ∧
    attempts = entry.attempts + transmissions evs token

theorem Tallied.append {evs more : List Event} {token : CallToken} {transactional : Bool}
    {attempts : ℕ} (h : Tallied evs token transactional attempts)
    (hmore : transmissions more token = 0) :
    Tallied (evs ++ more) token transactional attempts := by
  obtain ⟨entry, hmem, htoken, htx, hattempts⟩ := h
  refine ⟨entry, List.mem_append_left _ hmem, htoken, htx, ?_⟩
  rw [transmissions_append, hmore, Nat.add_zero]
  exact hattempts

/-- A further transmission is counted, as long as the count goes on. -/
theorem Tallied.sent {evs : List Event} {transactional : Bool} {attempts : ℕ} {entry : Pending}
    (h : Tallied evs entry.token transactional attempts) (hlt : attempts < u32Max)
    (id : MessageId) : Tallied (evs ++ [Event.sent id entry]) entry.token transactional
      ((attempts + 1) % 2 ^ 32) := by
  obtain ⟨accepted, hmem, htoken, htx, hattempts⟩ := h
  refine ⟨accepted, List.mem_append_left _ hmem, htoken, htx, ?_⟩
  rw [transmissions_concat_sent, ← Nat.add_assoc, ← hattempts]
  exact count_eq hlt

/-- **The attempts of a message were used up**: it is transaction-related, and was sent as
often as the policy allows. -/
def UsedUp (rules : RetryPolicy) (before : List Event) : Event → Prop
  | .out (.outcome ⟨token, _, _, .error .retriesExhausted⟩) =>
      ∃ entry, .accepted entry ∈ before ∧ entry.token = token ∧ entry.transactional = true ∧
        transmissions before token = max 1 (rules.attempts - entry.attempts)
  | _ => True

theorem usedUp_of_aside {ev : Event} (h : ev.aside = true) (rules : RetryPolicy)
    (before : List Event) : UsedUp rules before ev := by
  unfold UsedUp
  split
  · exact absurd h (by simp [Event.aside])
  · trivial

namespace Engine

variable {S : Type}

/-- The handles of the messages that wait or are outstanding. -/
def liveTokens (e : Engine S) : List CallToken :=
  e.queue.map Pending.token ++ (e.inflight.map InFlight.token).toList

/-- What was accepted was accepted with a count that goes on. -/
def Granted (e : Engine S) : Prop := ∀ entry, .accepted entry ∈ e.log → entry.attempts < u32Max

/-- **The invariant of the counts.** -/
structure Counted (rules : RetryPolicy) (e : Engine S) : Prop where
  /-- The policy does not change. -/
  retry : e.config.retry = rules
  /-- The counts go on. -/
  granted : e.Granted
  /-- No message is in two places. -/
  live : e.liveTokens.Nodup
  /-- Handles of accepted messages have been issued. -/
  issued : ∀ entry, .accepted entry ∈ e.log → entry.token < e.nextToken
  /-- They are issued once. -/
  unique : ∀ entry entry', .accepted entry ∈ e.log → .accepted entry' ∈ e.log →
    entry.token = entry'.token → entry = entry'
  /-- What has not been issued was not sent. -/
  unborn : ∀ token, e.nextToken ≤ token → transmissions e.log token = 0
  /-- What waits has been counted; if it was sent, it may be sent again. -/
  queue : ∀ p ∈ e.queue, Tallied e.log p.token p.transactional p.attempts ∧
    (transmissions e.log p.token = 0 ∨ p.transactional = true ∧ p.attempts < rules.attempts)
  /-- What is outstanding has been counted, and was sent. -/
  slot : ∀ f, e.inflight = some f → Tallied e.log f.token f.transactional f.attempts ∧
    0 < transmissions e.log f.token
  /-- Nothing was sent more often than it may be. -/
  bound : ∀ entry, .accepted entry ∈ e.log → transmissions e.log entry.token ≤ 1 ∨
    entry.transactional = true ∧
      entry.attempts + transmissions e.log entry.token ≤ rules.attempts
  /-- What was given up as exhausted was. -/
  exhausted : Along (UsedUp rules) e.log

/-- What was accepted is still accepted, and nothing new is. -/
theorem mem_accepted_append {evs more : List Event} (h : ∀ ev ∈ more, ev.aside = true)
    {entry : Pending} : Event.accepted entry ∈ evs ++ more ↔ Event.accepted entry ∈ evs := by
  refine ⟨fun hmem => ?_, List.mem_append_left _⟩
  rcases List.mem_append.mp hmem with hmem | hmem
  · exact hmem
  · exact absurd (h _ hmem) (by simp [Event.aside])

/-- **What is of no concern to any message leaves the counts alone.** -/
theorem Aside.counted {rules : RetryPolicy} {e e' : Engine S} (ha : Aside e e')
    (h : e.Counted rules) : e'.Counted rules := by
  obtain ⟨timeout, hconfig⟩ := ha.config
  obtain ⟨evs, hlog, hevs⟩ := ha.log
  have hnone : ∀ token, transmissions evs token = 0 := fun token =>
    transmissions_eq_zero fun ev hev => Event.sends_of_aside (hevs ev hev) token
  constructor
  · rw [hconfig]
    exact h.retry
  · intro entry hmem
    rw [hlog, mem_accepted_append hevs] at hmem
    exact h.granted entry hmem
  · rw [liveTokens, ha.queue, ha.inflight]
    exact h.live
  · intro entry hmem
    rw [hlog, mem_accepted_append hevs] at hmem
    exact (h.issued entry hmem).trans_le ha.nextToken
  · intro entry entry' hmem hmem'
    rw [hlog, mem_accepted_append hevs] at hmem hmem'
    exact h.unique entry entry' hmem hmem'
  · intro token htoken
    rw [hlog, transmissions_aside hevs]
    exact h.unborn token (ha.nextToken.trans htoken)
  · intro p hp
    rw [ha.queue] at hp
    rw [hlog, transmissions_aside hevs]
    exact ⟨(h.queue p hp).1.append (hnone _), (h.queue p hp).2⟩
  · intro f hf
    rw [ha.inflight] at hf
    rw [hlog, transmissions_aside hevs]
    exact ⟨(h.slot f hf).1.append (hnone _), (h.slot f hf).2⟩
  · intro entry hmem
    rw [hlog, mem_accepted_append hevs] at hmem
    rw [hlog, transmissions_aside hevs]
    exact h.bound entry hmem
  · rw [hlog]
    exact h.exhausted.append fun ev hev before => usedUp_of_aside (hevs ev hev) rules before

/-- Nor does an entry that is no message's acceptance or transmission, if it is no false
exhaustion. -/
theorem Counted.concat {rules : RetryPolicy} {e e' : Engine S} (h : e.Counted rules)
    {ev : Event} (hlog : e'.log = e.log ++ [ev]) (hconfig : e'.config = e.config)
    (hqueue : e'.queue = e.queue) (hinflight : e'.inflight = e.inflight)
    (hnext : e'.nextToken = e.nextToken) (hsends : ∀ token, ev.sends token = false)
    (haccepted : ∀ entry, ev ≠ .accepted entry) (hused : UsedUp rules e.log ev) :
    e'.Counted rules := by
  have hsame : ∀ token, transmissions e'.log token = transmissions e.log token := by
    intro token
    rw [hlog]
    exact transmissions_concat_of_not (hsends token)
  have hmem : ∀ entry, Event.accepted entry ∈ e'.log → Event.accepted entry ∈ e.log := by
    intro entry hentry
    rw [hlog] at hentry
    rcases List.mem_append.mp hentry with hentry | hentry
    · exact hentry
    · exact absurd (List.mem_singleton.mp hentry).symm (haccepted entry)
  have htally : ∀ {token tx n}, Tallied e.log token tx n → Tallied e'.log token tx n := by
    intro token tx n ht
    rw [hlog]
    refine ht.append (transmissions_eq_zero fun ev' hev' => ?_)
    obtain rfl := List.mem_singleton.mp hev'
    exact hsends token
  constructor
  · rw [hconfig]
    exact h.retry
  · exact fun entry hentry => h.granted entry (hmem entry hentry)
  · rw [liveTokens, hqueue, hinflight]
    exact h.live
  · intro entry hentry
    rw [hnext]
    exact h.issued entry (hmem entry hentry)
  · intro entry entry' hentry hentry'
    exact h.unique entry entry' (hmem entry hentry) (hmem entry' hentry')
  · intro token htoken
    rw [hsame]
    exact h.unborn token (hnext ▸ htoken)
  · intro p hp
    rw [hqueue] at hp
    rw [hsame]
    exact ⟨htally (h.queue p hp).1, (h.queue p hp).2⟩
  · intro f hf
    rw [hinflight] at hf
    rw [hsame]
    exact ⟨htally (h.slot f hf).1, (h.slot f hf).2⟩
  · intro entry hentry
    rw [hsame]
    exact h.bound entry (hmem entry hentry)
  · rw [hlog]
    exact h.exhausted.concat hused

/-- Messages may leave the queue and the slot. -/
theorem Counted.shrink {rules : RetryPolicy} {e : Engine S} (h : e.Counted rules)
    {queue : List Pending} {slot : Option InFlight} (hqueue : queue.Sublist e.queue)
    (hslot : slot = none ∨ slot = e.inflight) :
    Counted rules { e with queue := queue, inflight := slot } := by
  have hkept : ∀ f, slot = some f → e.inflight = some f := by
    intro f hf
    rcases hslot with hnone | hsame
    · exact absurd (hnone.symm.trans hf) (by simp)
    · exact hsame.symm.trans hf
  refine ⟨h.retry, h.granted, ?_, h.issued, h.unique, h.unborn,
    fun p hp => h.queue p (hqueue.subset hp), fun f hf => h.slot f (hkept f hf), h.bound,
    h.exhausted⟩
  refine h.live.sublist ((hqueue.map Pending.token).append ?_)
  rcases hslot with rfl | rfl
  · exact List.nil_sublist _
  · exact List.Sublist.refl _

/-- A live message's handle has been issued. -/
theorem Counted.lt_of_tallied {rules : RetryPolicy} {e : Engine S} (h : e.Counted rules)
    {token : CallToken} {tx : Bool} {n : ℕ} (ht : Tallied e.log token tx n) :
    token < e.nextToken := by
  obtain ⟨entry, hmem, rfl, -⟩ := ht
  exact h.issued entry hmem

/-- The outstanding call does not wait as well. -/
theorem Counted.not_queued {rules : RetryPolicy} {e : Engine S} (h : e.Counted rules)
    {f : InFlight} (hf : e.inflight = some f) : ∀ p ∈ e.queue, p.token ≠ f.token := by
  intro p hp he
  have hlive := h.live
  rw [liveTokens, hf] at hlive
  have hdisjoint := (List.nodup_append.mp hlive).2.2
  exact hdisjoint p.token (List.mem_map_of_mem hp) f.token (by simp) he

/-- What waits may be counted once more. -/
theorem Counted.attempts_lt {rules : RetryPolicy} {e : Engine S} (h : e.Counted rules)
    {p : Pending} (hp : p ∈ e.queue) : p.attempts < u32Max := by
  obtain ⟨⟨entry, hmem, -, -, hattempts⟩, hnone | ⟨-, hlt⟩⟩ := h.queue p hp
  · rw [hattempts, hnone]
    exact h.granted entry hmem
  · exact hlt.trans_le rules.attempts_le

/-- **A message is accepted**, with nothing sent yet. -/
theorem Counted.accept {rules : RetryPolicy} {e : Engine S} (h : e.Counted rules)
    {entry : Pending} (htoken : entry.token = e.nextToken) (hlt : entry.attempts < u32Max) :
    Counted rules ({ e with queue := e.queue ++ [entry], nextToken := e.nextToken + 1 }.note
      (.accepted entry)) := by
  have hsame : ∀ token, transmissions (e.log ++ [Event.accepted entry]) token =
      transmissions e.log token := fun token => transmissions_concat_of_not rfl
  have htally : ∀ {token tx n}, Tallied e.log token tx n →
      Tallied (e.log ++ [Event.accepted entry]) token tx n := fun ht => ht.append rfl
  have hborn : transmissions e.log entry.token = 0 := h.unborn _ htoken.ge
  have hmem : ∀ a, Event.accepted a ∈ e.log ++ [Event.accepted entry] →
      Event.accepted a ∈ e.log ∨ a = entry := by
    intro a ha
    rcases List.mem_append.mp ha with ha | ha
    · exact Or.inl ha
    · exact Or.inr (by simpa using ha)
  constructor
  · exact h.retry
  · intro a ha
    rcases hmem a ha with ha | rfl
    · exact h.granted a ha
    · exact hlt
  · change ((e.queue ++ [entry]).map Pending.token ++
      (e.inflight.map InFlight.token).toList).Nodup
    -- its handle is the next one, and those of live messages have been issued
    have hfresh : entry.token ∉ e.liveTokens := by
      intro hlive
      refine absurd htoken (Nat.ne_of_lt ?_)
      rcases List.mem_append.mp hlive with hlive | hlive
      · obtain ⟨p, hp, he⟩ := List.mem_map.mp hlive
        rw [← he]
        exact h.lt_of_tallied (h.queue p hp).1
      · obtain ⟨f, hf, he⟩ := Option.map_eq_some_iff.mp (Option.mem_toList.mp hlive)
        rw [← he]
        exact h.lt_of_tallied (h.slot f hf).1
    refine List.Perm.nodup (l := entry.token :: e.liveTokens) ?_
      (List.nodup_cons.mpr ⟨hfresh, h.live⟩)
    rw [List.map_append, List.append_assoc]
    exact List.perm_middle.symm
  · intro a ha
    change a.token < e.nextToken + 1
    rcases hmem a ha with ha | rfl
    · exact Nat.lt_succ_of_lt (h.issued a ha)
    · exact htoken ▸ Nat.lt_succ_self _
  · intro a a' ha ha' he
    rcases hmem a ha with hold | hnew <;> rcases hmem a' ha' with hold' | hnew'
    · exact h.unique a a' hold hold' he
    · rw [hnew', htoken] at he
      exact absurd he (Nat.ne_of_lt (h.issued a hold))
    · rw [hnew, htoken] at he
      exact absurd he.symm (Nat.ne_of_lt (h.issued a' hold'))
    · rw [hnew, hnew']
  · intro token hle
    exact (hsame token).trans (h.unborn token (Nat.le_of_succ_le hle))
  · intro p hp
    change Tallied (e.log ++ [Event.accepted entry]) _ _ _ ∧
      (transmissions (e.log ++ [Event.accepted entry]) _ = 0 ∨ _)
    rw [hsame]
    rcases List.mem_append.mp hp with hp | hp
    · exact ⟨htally (h.queue p hp).1, (h.queue p hp).2⟩
    · obtain rfl := List.mem_singleton.mp hp
      refine ⟨⟨p, by simp, rfl, rfl, ?_⟩, Or.inl hborn⟩
      rw [hsame, hborn, Nat.add_zero]
  · intro f hf
    change Tallied (e.log ++ [Event.accepted entry]) _ _ _ ∧
      0 < transmissions (e.log ++ [Event.accepted entry]) _
    rw [hsame]
    exact ⟨htally (h.slot f hf).1, (h.slot f hf).2⟩
  · intro a ha
    change transmissions (e.log ++ [Event.accepted entry]) _ ≤ 1 ∨ _ ∧
      _ + transmissions (e.log ++ [Event.accepted entry]) _ ≤ _
    rw [hsame]
    rcases hmem a ha with ha | rfl
    · exact h.bound a ha
    · exact Or.inl (by omega)
  · refine h.exhausted.concat ?_
    trivial

/-- Where a message waits, no other message goes by its handle. -/
theorem Counted.other {rules : RetryPolicy} {e : Engine S} (h : e.Counted rules)
    {xs ys : List Pending} {entry : Pending} (hq : e.queue = xs ++ entry :: ys) :
    (∀ p ∈ xs ++ ys, p.token ≠ entry.token) ∧
      ∀ f, e.inflight = some f → f.token ≠ entry.token := by
  have hlive : (entry.token :: ((xs ++ ys).map Pending.token ++
      (e.inflight.map InFlight.token).toList)).Nodup := by
    refine (List.Perm.nodup_iff ?_).mpr h.live
    rw [liveTokens, hq, List.map_append, List.map_append, List.map_cons, List.append_assoc,
      List.append_assoc, List.cons_append]
    exact List.perm_middle.symm
  obtain ⟨hfresh, -⟩ := List.nodup_cons.mp hlive
  refine ⟨fun p hp he => hfresh (List.mem_append_left _ ?_),
    fun f hf he => hfresh (List.mem_append_right _ ?_)⟩
  · exact List.mem_map.mpr ⟨p, hp, he⟩
  · rw [hf]
    exact List.mem_singleton.mpr he.symm

/-- **A message is sent**: it has left the queue, and it may be sent once more. -/
theorem Counted.note_sent {rules : RetryPolicy} {e : Engine S} (h : e.Counted rules)
    (id : MessageId) {xs ys : List Pending} {entry : Pending} (hq : e.queue = xs ++ entry :: ys) :
    Counted rules ({ e with queue := xs ++ ys }.note (.sent id entry)) ∧
      Tallied (e.log ++ [Event.sent id entry]) entry.token entry.transactional
        ((entry.attempts + 1) % 2 ^ 32) := by
  have hmem : entry ∈ e.queue := by
    rw [hq]
    exact List.mem_append_right xs List.mem_cons_self
  have hsub : (xs ++ ys).Sublist e.queue := by
    rw [hq]
    exact (List.Sublist.refl xs).append (List.sublist_cons_self entry ys)
  obtain ⟨hqueue, hslot⟩ := h.other hq
  obtain ⟨htallied, hmay⟩ := h.queue entry hmem
  have hrest := h.shrink hsub (Or.inr rfl)
  have hsame : ∀ token, token ≠ entry.token →
      transmissions (e.log ++ [Event.sent id entry]) token = transmissions e.log token := by
    intro token hne
    refine transmissions_concat_of_not ?_
    simpa [Event.sends] using fun he => hne he.symm
  have htally : ∀ {token tx n}, token ≠ entry.token → Tallied e.log token tx n →
      Tallied (e.log ++ [Event.sent id entry]) token tx n := by
    intro token tx n hne ht
    refine ht.append (transmissions_eq_zero fun ev hev => ?_)
    obtain rfl := List.mem_singleton.mp hev
    simpa [Event.sends] using fun he => hne he.symm
  have hold : ∀ a, Event.accepted a ∈ e.log ++ [Event.sent id entry] →
      Event.accepted a ∈ e.log := by
    intro a ha
    rcases List.mem_append.mp ha with ha | ha
    · exact ha
    · exact absurd (List.mem_singleton.mp ha) (by simp)
  refine ⟨⟨h.retry, fun a ha => h.granted a (hold a ha), hrest.live,
    fun a ha => h.issued a (hold a ha),
    fun a a' ha ha' => h.unique a a' (hold a ha) (hold a' ha'), fun token hle => ?_,
    fun p hp => ?_, fun f hf => ?_, fun a ha => ?_, ?_⟩, htallied.sent (h.attempts_lt hmem) id⟩
  · have hlt : entry.token < token := (h.lt_of_tallied htallied).trans_le hle
    exact (hsame token (Nat.ne_of_gt hlt)).trans (h.unborn token hle)
  · have hne := hqueue p hp
    refine ⟨htally hne (h.queue p (hsub.subset hp)).1, ?_⟩
    exact (hsame p.token hne).symm ▸ (h.queue p (hsub.subset hp)).2
  · have hne := hslot f hf
    refine ⟨htally hne (h.slot f hf).1, ?_⟩
    exact (hsame f.token hne).symm ▸ (h.slot f hf).2
  · change transmissions (e.log ++ [Event.sent id entry]) _ ≤ 1 ∨ _ ∧
      _ + transmissions (e.log ++ [Event.sent id entry]) _ ≤ _
    by_cases hne : a.token = entry.token
    · -- the message itself: it was never sent, or it may be tried again
      obtain ⟨b, hb, htoken, htx, hattempts⟩ := htallied
      obtain rfl := h.unique a b (hold a ha) hb (hne.trans htoken.symm)
      rw [hne, transmissions_concat_sent]
      rcases hmay with hnone | ⟨htrans, hlt⟩
      · exact Or.inl (by omega)
      · exact Or.inr ⟨htx.trans htrans, by omega⟩
    · rw [hsame a.token hne]
      exact h.bound a (hold a ha)
  · refine h.exhausted.concat ?_
    trivial

/-- **Every move keeps the counts**, as long as what it accepts can be counted. -/
theorem Counted.move {rules : RetryPolicy} {e e' : Engine S} (hmove : Move e e')
    (hgranted : e'.Granted) (h : e.Counted rules) : e'.Counted rules := by
  cases hmove with
  | aside ha => exact ha.counted h
  | tick now => exact ⟨h.retry, h.granted, h.live, h.issued, h.unique, h.unborn, h.queue, h.slot,
      h.bound, h.exhausted⟩
  | boot state ha =>
      refine ha.counted (h.concat rfl rfl rfl rfl rfl (fun _ => rfl) (fun _ => by simp) ?_)
      trivial
  | accept entry htoken hfresh ha =>
      refine ha.counted (h.accept htoken (hgranted entry (ha.log_prefix.subset ?_)))
      exact List.mem_append_right _ List.mem_cons_self
  | drop queue hsub ha => exact ha.counted (h.shrink hsub (Or.inr rfl))
  | sendUnconfirmed id xs entry ys hq hclear ha => exact ha.counted (h.note_sent id hq).1
  | sendCall id deadline xs entry ys hq hclear hfree ha =>
      obtain ⟨hsent, htallied⟩ := h.note_sent id hq
      refine ha.counted { hsent with live := ?_, slot := fun f hf => ?_ }
      · have hlive := h.live
        rw [liveTokens, hq, hfree] at hlive
        refine (List.Perm.nodup_iff ?_).mp hlive
        simp only [liveTokens, note, Pending.launched, Option.map_none, Option.map_some,
          Option.toList_none, Option.toList_some, List.append_nil, List.map_append, List.map_cons,
          List.append_assoc]
        refine List.Perm.append_left _ ?_
        exact (List.perm_append_singleton _ _).symm
      · obtain rfl := Option.some.inj hf
        refine ⟨htallied, ?_⟩
        change 0 < transmissions (e.log ++ [Event.sent id entry]) entry.token
        rw [transmissions_concat_sent]
        exact Nat.succ_pos _
  | requeue f hf htx hretry ha =>
      -- it waits with the count it flew with, which the policy has found too small
      obtain ⟨htallied, hsent⟩ := h.slot f hf
      refine ha.counted ⟨h.retry, h.granted, ?_, h.issued, h.unique, h.unborn, fun p hp => ?_,
        fun f hf => absurd hf (by simp), h.bound, h.exhausted⟩
      · have hlive := h.live
        rw [liveTokens, hf] at hlive
        refine (List.Perm.nodup_iff ?_).mp hlive
        simp only [liveTokens, InFlight.requeued, Option.map_none, Option.map_some,
          Option.toList_none, Option.toList_some, List.append_nil, List.map_cons]
        exact List.perm_append_singleton _ _
      · rcases List.mem_cons.mp hp with rfl | hp
        · rw [htx] at htallied
          refine ⟨htallied, Or.inr ⟨rfl, ?_⟩⟩
          change f.attempts < rules.attempts
          rw [h.retry] at hretry
          simpa [RetryPolicy.mayRetry] using hretry
        · exact h.queue p hp
  | exhaust f hf htx hretry ha =>
      -- the count is at the policy's bound, and no message is sent more often
      have hrest := ha.counted (h.shrink (List.Sublist.refl _) (Or.inl rfl))
      refine hrest.concat rfl rfl rfl rfl rfl (fun _ => rfl) (fun _ => by simp) ?_
      obtain ⟨⟨entry, hmem, htoken, htrans, hattempts⟩, hsent⟩ := h.slot f hf
      obtain ⟨evs, hlog, hevs⟩ := ha.log
      refine ⟨entry, ?_, htoken, htrans.trans htx, ?_⟩
      · rw [hlog]
        exact List.mem_append_left _ hmem
      · have hbound := h.bound entry hmem
        have hover : rules.attempts ≤ f.attempts := by
          rw [h.retry] at hretry
          simpa [RetryPolicy.mayRetry] using hretry
        rw [hlog, transmissions_aside hevs]
        change transmissions e.log f.token = _
        rw [htoken] at hbound
        omega
  | free f hf ha => exact ha.counted (h.shrink (List.Sublist.refl _) (Or.inl rfl))

/-! ### Waiting out a back-off -/

/-- **The message rests until it is due**: before that it is at most in the queue, and waits
there. -/
def Rests (token : CallToken) (due : Instant) (e : Engine S) : Prop :=
  due ≤ e.now ∨ (token < e.nextToken ∧ (∀ f, e.inflight = some f → f.token ≠ token) ∧
    ∀ p ∈ e.queue, p.token = token → ∃ at_, p.notBefore = some at_ ∧ due ≤ at_)

/-- **Since this point of the history the message rested**, and was sent no earlier than it
was due. -/
structure Rested (token : CallToken) (due : Instant) (since : List Event) (e : Engine S) :
    Prop where
  /-- The message rests. -/
  rests : Rests token due e
  /-- If it was sent, it was due. -/
  sent : ∃ evs, e.log = since ++ evs ∧ ∀ ev ∈ evs, ev.sends token = true → due ≤ e.now

theorem Rests.rested {token : CallToken} {due : Instant} {e : Engine S}
    (h : Rests token due e) : Rested token due e.log e :=
  ⟨h, [], (List.append_nil _).symm, fun _ hev => absurd hev List.not_mem_nil⟩

theorem Aside.rested {token : CallToken} {due : Instant} {since : List Event}
    {e e' : Engine S} (ha : Aside e e') (h : Rested token due since e) :
    Rested token due since e' := by
  obtain ⟨more, hmore, haside⟩ := ha.log
  obtain ⟨evs, hlog, hevs⟩ := h.sent
  constructor
  · rw [Rests, ha.now, ha.queue, ha.inflight]
    rcases h.rests with hdue | ⟨hlt, hslot, hqueue⟩
    · exact Or.inl hdue
    · exact Or.inr ⟨hlt.trans_le ha.nextToken, hslot, hqueue⟩
  · refine ⟨evs ++ more, by rw [hmore, hlog, List.append_assoc], fun ev hev hsends => ?_⟩
    rw [ha.now]
    rcases List.mem_append.mp hev with hev | hev
    · exact hevs ev hev hsends
    · exact absurd hsends (by simp [Event.sends_of_aside (haside ev hev)])

/-- An entry that is no transmission of the message leaves it at rest. -/
theorem Rested.concat {token : CallToken} {due : Instant} {since : List Event} {e e' : Engine S}
    (h : Rested token due since e) {ev : Event} (hlog : e'.log = e.log ++ [ev])
    (hnow : e'.now = e.now) (hsends : ev.sends token = true → due ≤ e.now)
    (hrests : Rests token due e') : Rested token due since e' := by
  obtain ⟨evs, hsince, hevs⟩ := h.sent
  refine ⟨hrests, evs ++ [ev], by rw [hlog, hsince, List.append_assoc], fun ev' hev' hs => ?_⟩
  rw [hnow]
  rcases List.mem_append.mp hev' with hev' | hev'
  · exact hevs ev' hev' hs
  · obtain rfl := List.mem_singleton.mp hev'
    exact hsends hs

/-- What leaves the queue and the slot does not disturb a message that rests. -/
theorem Rests.shrink {token : CallToken} {due : Instant} {e : Engine S} (h : Rests token due e)
    {queue : List Pending} {slot : Option InFlight} (hqueue : ∀ p ∈ queue, p ∈ e.queue)
    (hslot : ∀ f, slot = some f → e.inflight = some f ∨ due ≤ e.now) :
    Rests token due { e with queue := queue, inflight := slot } := by
  rcases h with hdue | ⟨hlt, hkept, hwaits⟩
  · exact Or.inl hdue
  · by_cases hdue : due ≤ e.now
    · exact Or.inl hdue
    · refine Or.inr ⟨hlt, fun f hf => ?_, fun p hp => hwaits p (hqueue p hp)⟩
      exact hkept f ((hslot f hf).resolve_right hdue)

/-- **A message that rests goes out only when it is due.** -/
theorem Rests.due_of_clear {token : CallToken} {due : Instant} {e : Engine S}
    (h : Rests token due e) {entry : Pending} (hmem : entry ∈ e.queue)
    (hclear : e.clear entry = true) (htoken : entry.token = token) : due ≤ e.now := by
  rcases h with hdue | ⟨-, -, hwaits⟩
  · exact hdue
  · obtain ⟨at_, hat, hle⟩ := hwaits entry hmem htoken
    simp only [clear, hat, Option.any_some, Bool.and_eq_true, Bool.not_eq_true',
      decide_eq_false_iff_not, not_lt] at hclear
    exact hle.trans hclear.1

/-- **Every move lets a message rest.** -/
theorem Rested.move {token : CallToken} {due : Instant} {since : List Event} {e e' : Engine S}
    (hmove : Move e e') (h : Rested token due since e) : Rested token due since e' := by
  have hmem : ∀ {xs ys : List Pending} {entry : Pending}, e.queue = xs ++ entry :: ys →
      entry ∈ e.queue ∧ ∀ p ∈ xs ++ ys, p ∈ e.queue := by
    rintro xs ys entry hq
    rw [hq]
    refine ⟨List.mem_append_right xs List.mem_cons_self, fun p hp => ?_⟩
    rcases List.mem_append.mp hp with hp | hp
    · exact List.mem_append_left _ hp
    · exact List.mem_append_right xs (List.mem_cons_of_mem entry hp)
  cases hmove with
  | aside ha => exact ha.rested h
  | tick now =>
      have hle := now_le_advance e now
      obtain ⟨evs, hlog, hevs⟩ := h.sent
      refine ⟨?_, evs, hlog, fun ev hev hs => (hevs ev hev hs).trans hle⟩
      exact h.rests.imp_left fun hdue => hdue.trans hle
  | boot state ha => exact ha.rested (h.concat rfl rfl (by simp [Event.sends]) h.rests)
  | accept entry hentry hfresh ha =>
      refine ha.rested (h.concat rfl rfl (by simp [Event.sends]) ?_)
      rcases h.rests with hdue | ⟨hlt, hslot, hwaits⟩
      · exact Or.inl hdue
      · refine Or.inr ⟨Nat.lt_succ_of_lt hlt, hslot, fun p hp htoken => ?_⟩
        rcases List.mem_append.mp hp with hp | hp
        · exact hwaits p hp htoken
        · obtain rfl := List.mem_singleton.mp hp
          exact absurd (hentry.symm.trans htoken).symm (Nat.ne_of_lt hlt)
  | drop queue hsub ha =>
      refine ha.rested ⟨h.rests.shrink (fun p hp => hsub.subset hp) fun f hf => Or.inl hf, ?_⟩
      exact h.sent
  | sendUnconfirmed id xs entry ys hq hclear ha =>
      refine ha.rested (h.concat rfl rfl (fun hs => ?_) ?_)
      · exact h.rests.due_of_clear (hmem hq).1 hclear (by simpa [Event.sends] using hs)
      · exact h.rests.shrink (hmem hq).2 fun f hf => Or.inl hf
  | sendCall id deadline xs entry ys hq hclear hfree ha =>
      have hdue := h.rests.due_of_clear (hmem hq).1 hclear
      refine ha.rested (h.concat rfl rfl (fun hs => hdue (by simpa [Event.sends] using hs)) ?_)
      rcases h.rests with hnow | ⟨hlt, hslot, hwaits⟩
      · exact Or.inl hnow
      · -- the message itself goes out, and then it is due, or another does
        by_cases htoken : entry.token = token
        · exact Or.inl (hdue htoken)
        · refine Or.inr ⟨hlt, fun f hf => ?_, fun p hp => hwaits p ((hmem hq).2 p hp)⟩
          obtain rfl := Option.some.inj hf
          exact htoken
  | requeue f hf htx hretry ha =>
      refine ha.rested ⟨?_, h.sent⟩
      rcases h.rests with hnow | ⟨hlt, hslot, hwaits⟩
      · exact Or.inl hnow
      · refine Or.inr ⟨hlt, fun f hf => absurd hf (by simp), fun p hp htoken => ?_⟩
        rcases List.mem_cons.mp hp with rfl | hp
        · exact absurd htoken (hslot f hf)
        · exact hwaits p hp htoken
  | exhaust f hf htx hretry ha =>
      have hrest := ha.rested ⟨h.rests.shrink (fun p hp => hp) (by simp), h.sent⟩
      exact hrest.concat rfl rfl (by simp [Event.sends]) hrest.rests
  | free f hf ha =>
      exact ha.rested ⟨h.rests.shrink (fun p hp => hp) (by simp), h.sent⟩

variable [MessageStore S]

/-- **A call that is given up rests until its back-off is over**: it is put back to wait for
it, or it is gone. -/
theorem rests_requeueOrFail {rules : RetryPolicy} {e : Engine S} (h : e.Counted rules)
    {f : InFlight} (hf : e.inflight = some f) (why : CallFailure) :
    Rests f.token (Instant.saturatingAdd e.now (rules.delayAfter f.attempts))
      ({ e with inflight := none }.requeueOrFail f why) := by
  have hgone := h.not_queued hf
  refine Or.inr ⟨?_, fun g hg => ?_, fun p hp he => ?_⟩
  · have hlt := h.lt_of_tallied (h.slot f hf).1
    refine hlt.trans_le ?_
    rw [requeueOrFail]
    split
    · exact (aside_storeAttempts { e with inflight := none } f.seq f.attempts).nextToken
    · exact (aside_ackStore { e with inflight := none } f.seq).nextToken
  · rw [inflight_requeueOrFail] at hg
    exact absurd hg (by simp)
  · rw [queue_requeueOrFail] at hp
    split at hp
    · rcases List.mem_cons.mp hp with rfl | hp
      · exact ⟨_, rfl, le_of_eq (by rw [← h.retry])⟩
      · exact absurd he (hgone p hp)
    · exact absurd he (hgone p hp)

omit [MessageStore S] in
/-- A call that is out of the slot, and not put back, rests for good. -/
theorem rests_of_gone {rules : RetryPolicy} {e e' : Engine S} (h : e.Counted rules)
    {f : InFlight} (hf : e.inflight = some f) (ha : Aside { e with inflight := none } e')
    (due : Instant) : Rests f.token due e' := by
  refine Or.inr ⟨(h.lt_of_tallied (h.slot f hf).1).trans_le ha.nextToken, fun g hg => ?_,
    fun p hp he => ?_⟩
  · exact absurd (ha.inflight.symm.trans hg) (by simp)
  · rw [ha.queue] at hp
    exact absurd he (h.not_queued hf p hp)

/-! ### One operation -/

/-- In this operation, the message is sent only once it is due. -/
def SentWhenDue (token : CallToken) (due : Instant) (e : Engine S) (op : Op) : Prop :=
  ∀ id entry, .sent id entry ∈ newEvents e op → entry.token = token → due ≤ (exec e op).now

/-- **A message that rests is sent only once it is due**, and goes on resting. -/
theorem sentWhenDue_of_rests {token : CallToken} {due : Instant} {e : Engine S}
    (h : Rests token due e) (op : Op) :
    SentWhenDue token due e op ∧ Rests token due (exec e op) := by
  have hrested : Rested token due e.log (exec e op) :=
    Moves.invariant (Rested token due e.log) (fun _ _ => Rested.move) (exec_moves e op) h.rested
  refine ⟨fun id entry hmem htoken => ?_, hrested.rests⟩
  obtain ⟨evs, hlog, hevs⟩ := hrested.sent
  rw [newEvents_of_log hlog] at hmem
  exact hevs _ hmem (by simpa [Event.sends] using htoken)

/-- The clock an operation leaves is the one it starts with. -/
theorem now_exec (e : Engine S) (op : Op) : (exec e op).now = (e.started op).now := by
  have heffect := (newEvents_effect e op).1
  rw [show (exec e op).now = (exec e op).setting.now from rfl]
  generalize (exec e op).setting = s at heffect
  generalize foreign (newEvents e op) = left at heffect
  cases heffect <;> rfl

/-- Giving a call up sends nothing. -/
theorem log_requeueOrFail (e : Engine S) (f : InFlight) (why : CallFailure) :
    ∃ evs, (e.requeueOrFail f why).log = e.log ++ evs ∧
      ∀ ev ∈ evs, ∀ token, ev.sends token = false := by
  have hlast : ∀ {log : List Event} {o : Output},
      (∃ evs, log = e.log ++ evs ∧ ∀ ev ∈ evs, ev.aside = true) →
      ∃ evs, log ++ [Event.out o] = e.log ++ evs ∧ ∀ ev ∈ evs, ∀ token, ev.sends token = false := by
    rintro log o ⟨evs, hlog, hevs⟩
    refine ⟨evs ++ [Event.out o], by rw [hlog, List.append_assoc], fun ev hev token => ?_⟩
    rcases List.mem_append.mp hev with hev | hev
    · exact Event.sends_of_aside (hevs ev hev) token
    · obtain rfl := List.mem_singleton.mp hev
      rfl
  rw [requeueOrFail]
  split
  · exact hlast (aside_storeAttempts e f.seq f.attempts).log
  · exact hlast (aside_ackStore e f.seq).log

/-- **The outstanding call is settled in the middle of an operation.** Up to there nothing is
sent, and from there on the call rests until its back-off is over. -/
structure SettledAt (e : Engine S) (token : CallToken) (due : Instant) (mid : Engine S) :
    Prop where
  /-- Up to there nothing is sent. -/
  log : ∃ evs, mid.log = e.log ++ evs ∧ ∀ ev ∈ evs, ev.sends token = false
  /-- From there on the call rests. -/
  rests : Rests token due mid

omit [MessageStore S] in
/-- Before the call is settled, the clock moves and nothing else happens. -/
theorem settledAt_of_aside {e e₁ mid : Engine S} {token : CallToken} {due : Instant}
    {now : Instant} (ha : Aside (e.advance now) e₁) (h : SettledAt e₁ token due mid) :
    SettledAt e token due mid := by
  obtain ⟨evs, hlog, hevs⟩ := ha.log
  obtain ⟨more, hmore, hsends⟩ := h.log
  refine ⟨⟨evs ++ more, ?_, fun ev hev => ?_⟩, h.rests⟩
  · rw [hmore, hlog, List.append_assoc]
    rfl
  · rcases List.mem_append.mp hev with hev | hev
    · exact Event.sends_of_aside (hevs ev hev) token
    · exact hsends ev hev

/-- It is given up. -/
theorem settledAt_requeueOrFail {rules : RetryPolicy} {e : Engine S} (h : e.Counted rules)
    {f : InFlight} (hf : e.inflight = some f) (why : CallFailure) :
    SettledAt e f.token (Instant.saturatingAdd e.now (rules.delayAfter f.attempts))
      ({ e with inflight := none }.requeueOrFail f why) := by
  obtain ⟨evs, hlog, hevs⟩ := log_requeueOrFail { e with inflight := none } f why
  exact ⟨⟨evs, hlog, fun ev hev => hevs ev hev f.token⟩, rests_requeueOrFail h hf why⟩

/-- It is answered. -/
theorem settledAt_taken {rules : RetryPolicy} {e : Engine S} (h : e.Counted rules)
    {f : InFlight} (hf : e.inflight = some f) (due : Instant) :
    SettledAt e f.token due (e.taken f) := by
  have ha := aside_taken e f
  obtain ⟨evs, hlog, hevs⟩ := ha.log
  exact ⟨⟨evs, hlog, fun ev hev => Event.sends_of_aside (hevs ev hev) f.token⟩,
    rests_of_gone h hf ha due⟩

/-- A response settles the call: once it is read, the call is answered. -/
theorem settledAt_received {rules : RetryPolicy} {e : Engine S} (h : e.Counted rules)
    {f : InFlight} (hf : e.inflight = some f) {now : Instant} {text : String}
    (hparse : (∃ payload, Frame.parse text e.version = .ok (.callResult f.id payload)) ∨
      ∃ error, Frame.parse text e.version = .ok (.callError f.id error)) (due : Instant) :
    ∃ mid, SettledAt e f.token due mid ∧ Moves mid (exec e (.handle now (.received text))) := by
  have ha : Aside (e.advance now) (fed e now (.received text)).armHeartbeat :=
    (aside_fed e now _).trans (aside_armHeartbeat _)
  have hexec : exec e (.handle now (.received text)) =
      (fed e now (.received text)).onReceived text := rfl
  rw [hexec, onReceived]
  have hversion : (fed e now (.received text)).armHeartbeat.version = e.version :=
    (still_armHeartbeat (fed e now (.received text))).version
  generalize (fed e now (.received text)).armHeartbeat = e₁ at ha hversion
  have ha' := ha.trans (aside_checkId e₁ f.id)
  have hmid := settledAt_of_aside ha'
    (settledAt_taken (ha'.counted (h.move (.tick e _) h.granted)) (ha'.inflight.trans hf) due)
  rcases hparse with ⟨payload, hparse⟩ | ⟨error, hparse⟩
  · simp only [hversion, hparse, onFrame, Frame.id]
    exact ⟨_, hmid, moves_taken_result (ha'.inflight.trans hf) payload⟩
  · simp only [hversion, hparse, onFrame, Frame.id]
    exact ⟨_, hmid, moves_taken_error (ha'.inflight.trans hf) error⟩

/-- A call whose time is up is given up before any other timer is looked at. -/
theorem settledAt_timeout {rules : RetryPolicy} {e : Engine S} (h : e.Counted rules)
    {f : InFlight} (hf : e.inflight = some f) {now : Instant}
    (hdue : f.deadline ≤ (e.advance now).now) :
    ∃ mid, SettledAt e f.token
        (Instant.saturatingAdd (e.advance now).now (rules.delayAfter f.attempts)) mid ∧
      Moves mid (exec e (.handle now .timeout)) := by
  have ha : Aside (e.advance now) ((fed e now .timeout).emit (.clearTimer .callTimeout)) :=
    (aside_fed e now .timeout).trans (aside_emit _ rfl)
  have hfire : (fed e now .timeout).fireCallTimeout =
      ({ (fed e now .timeout).emit (.clearTimer .callTimeout) with
        inflight := none }).requeueOrFail f .timeout := by
    have hslot : (fed e now .timeout).inflight = some f := hf
    have hdue' : f.deadline ≤ (fed e now .timeout).now := hdue
    simp only [fireCallTimeout, hslot, if_pos hdue']
    rfl
  refine ⟨_, settledAt_of_aside ha (settledAt_requeueOrFail
    (ha.counted (h.move (.tick e _) h.granted)) (ha.inflight.trans hf) .timeout), ?_⟩
  rw [← hfire]
  exact moves_otherTimers _

/-- A lost connection gives the call up before what may not wait is failed. -/
theorem settledAt_disconnected {rules : RetryPolicy} {e : Engine S} (h : e.Counted rules)
    {f : InFlight} (hf : e.inflight = some f) (now : Instant) :
    ∃ mid, SettledAt e f.token
        (Instant.saturatingAdd (e.advance now).now (rules.delayAfter f.attempts)) mid ∧
      Moves mid (exec e (.handle now .disconnected)) := by
  have ha := aside_hungUp e now
  have hlose : (e.hungUp now).loseInflight =
      ({ e.hungUp now with inflight := none }).requeueOrFail f .disconnected := by
    rw [loseInflight, ha.inflight.trans hf]
  refine ⟨_, settledAt_of_aside ha (settledAt_requeueOrFail
    (ha.counted (h.move (.tick e _) h.granted)) (ha.inflight.trans hf) .disconnected), ?_⟩
  rw [← hlose]
  exact moves_failOffline _

/-- **An operation that settles the call does so at some point**, and moves on from there. -/
theorem settledAt_of_settles {rules : RetryPolicy} {e : Engine S} (h : e.Counted rules) {op : Op}
    {f : InFlight} (hf : e.inflight = some f) (hsettles : Settles e op) :
    ∃ mid, SettledAt e f.token
        (Instant.saturatingAdd (exec e op).now (rules.delayAfter f.attempts)) mid ∧
      Moves mid (exec e op) := by
  rw [now_exec]
  cases op with
  | handle now input =>
      cases input with
      | received text =>
          obtain ⟨g, hg, hparse⟩ := hsettles
          obtain rfl : f = g := Option.some.inj (hf.symm.trans hg)
          exact settledAt_received h hf hparse _
      | timeout =>
          obtain ⟨g, hg, hdue⟩ := hsettles
          obtain rfl : f = g := Option.some.inj (hf.symm.trans hg)
          exact settledAt_timeout h hf hdue
      | disconnected => exact settledAt_disconnected h hf now
      | connected version => exact absurd hsettles id
  | _ => exact absurd hsettles id

/-- **From the operation that settles it on, the call is sent only once its back-off is
over.** -/
theorem sentWhenDue_of_settles {rules : RetryPolicy} {e : Engine S} (h : e.Counted rules)
    {op : Op} {f : InFlight} (hf : e.inflight = some f) (hsettles : Settles e op)
    (after : List Op) :
    AtEach e (op :: after) (SentWhenDue f.token
      (Instant.saturatingAdd (exec e op).now (rules.delayAfter f.attempts))) := by
  obtain ⟨mid, hmid, hmoves⟩ := settledAt_of_settles h hf hsettles
  generalize Instant.saturatingAdd (exec e op).now (rules.delayAfter f.attempts) = due at hmid ⊢
  have hrested := Moves.invariant (Rested f.token due mid.log) (fun _ _ => Rested.move) hmoves
    hmid.rests.rested
  refine atEach_cons.mpr ⟨fun id entry hmem htoken => ?_, ?_⟩
  · obtain ⟨evs, hlog, hevs⟩ := hmid.log
    obtain ⟨more, hmore, hdue⟩ := hrested.sent
    have hsends : Event.sends f.token (.sent id entry) = true := by
      simpa [Event.sends] using htoken
    have hsplit : (exec e op).log = e.log ++ (evs ++ more) := by
      rw [hmore, hlog, List.append_assoc]
    rw [newEvents_of_log hsplit] at hmem
    rcases List.mem_append.mp hmem with hmem | hmem
    · exact absurd hsends (by simp [hevs _ hmem])
    · exact hdue _ hmem hsends
  · -- from here on it is only said that the call rests
    have hrests := hrested.rests
    generalize exec e op = e' at hrests
    clear hrested hmoves
    induction after generalizing e' with
    | nil => exact atEach_nil e' _
    | cons op' after ih =>
        obtain ⟨hdue, hrests'⟩ := sentWhenDue_of_rests hrests op'
        exact atEach_cons.mpr ⟨hdue, ih (exec e' op') hrests'⟩

end Engine

open Engine

variable {S : Type} [MessageStore S]

/-- **The counts that a run starts with go on**, and those it adds begin at zero. -/
theorem granted_run {config : EngineConfig} {store : S} {ids : ℕ → MessageId} {e₀ : Engine S}
    (h : Engine.withStore config store ids = .ok e₀) (hstore : CountsOn store) (ops : List Op) :
    (run e₀ ops).Granted := by
  obtain ⟨records, hpending, hload⟩ := withStore_outbox h
  have hrecords : ∀ r ∈ records, r.2.attempts < u32Max := by
    rw [← records_of_pending hpending]
    exact hstore
  have hcounts := Outbox.counts_steps (Q := (· < u32Max)) (by decide) (run_outbox e₀ ops) (by
    rw [hload, Outbox.State.loaded, Outbox.acceptedItems_map]
    exact attempts_restoredItems (Q := (· < u32Max)) hrecords 0)
  intro entry hmem
  refine hcounts entry.item ?_
  rw [show ((run e₀ ops).outbox none).hist = outboxHistory (run e₀ ops).log from rfl,
    acceptedItems_outboxHistory]
  exact List.mem_map_of_mem (mem_acceptedEntries.mpr hmem)

theorem counted_run {config : EngineConfig} {store : S} {ids : ℕ → MessageId} {e₀ : Engine S}
    (h : Engine.withStore config store ids = .ok e₀) (hstore : CountsOn store) (ops : List Op) :
    (run e₀ ops).Counted config.retry := by
  refine Moves.invariant (fun e => e.Granted → e.Counted config.retry)
    (fun e e' hmove hcounted hgranted => (hcounted fun entry hmem => hgranted entry
      (hmove.log_prefix.subset hmem)).move hmove hgranted)
    (moves_of_withStore h ops) (fun _ => ?_) (granted_run h hstore ops)
  have hnone : ∀ {ev : Event}, ev ∉ (fresh config store ids).log := List.not_mem_nil
  refine ⟨rfl, fun entry hmem => absurd hmem hnone, List.nodup_nil,
    fun entry hmem => absurd hmem hnone, fun entry _ hmem => absurd hmem hnone, fun _ _ => rfl,
    fun p hp => absurd hp List.not_mem_nil,
    fun f hf => absurd hf (by simp [fresh]), fun entry hmem => absurd hmem hnone, along_nil _⟩

/-- **Retries are bounded, and spaced**, as long as the counts in the store go on. A message that is
accepted with `k` attempts on record is sent at most `max 1 (attempts - k)` times, and once if it
is not transaction-related. What is given up as exhausted was sent exactly that often. And once the
attempt that is outstanding as the `n`-th is settled, the message is sent again only when the clock
has moved on by `n` intervals. -/
theorem retries_bounded {config : EngineConfig} {store : S} {ids : ℕ → MessageId}
    {e₀ : Engine S} (h : Engine.withStore config store ids = .ok e₀) (hstore : CountsOn store)
    (ops : List Op) :
    (∀ entry, .accepted entry ∈ (run e₀ ops).log →
      transmissions (run e₀ ops).log entry.token ≤
          max 1 (config.retry.attempts - entry.attempts) ∧
        (entry.transactional = false → transmissions (run e₀ ops).log entry.token ≤ 1)) ∧
    (∀ before o after, (run e₀ ops).log = before ++ .out (.outcome o) :: after →
      o.result = .error .retriesExhausted → ∃ entry, .accepted entry ∈ before ∧
        entry.token = o.token ∧ entry.transactional = true ∧
        transmissions before o.token = max 1 (config.retry.attempts - entry.attempts)) ∧
    ∀ before op after, ops = before ++ op :: after →
      ∀ f entry, (run e₀ before).inflight = some f → Settles (run e₀ before) op →
        .accepted entry ∈ (run e₀ before).log → entry.token = f.token →
        AtEach (run e₀ before) (op :: after) (SentWhenDue f.token
          (Instant.saturatingAdd (exec (run e₀ before) op).now (config.retry.delayAfter
            (entry.attempts + transmissions (run e₀ before).log f.token)))) := by
  have hcounted := counted_run h hstore ops
  refine ⟨fun entry hmem => ?_, fun before o after hlog ho => ?_, ?_⟩
  · have hbound := hcounted.bound entry hmem
    refine ⟨by omega, fun htx => ?_⟩
    rcases hbound with hone | ⟨htrans, -⟩
    · exact hone
    · exact absurd (htx.symm.trans htrans) (by simp)
  · have hused := hcounted.exhausted before _ after hlog
    obtain ⟨token, id, action, result⟩ := o
    obtain rfl : result = .error .retriesExhausted := ho
    exact hused
  · intro before op after _ f entry hf hsettles hmem htoken
    have hcount := counted_run h hstore before
    obtain ⟨⟨entry', hmem', htoken', -, hattempts⟩, -⟩ := hcount.slot f hf
    obtain rfl := hcount.unique entry entry' hmem hmem' (htoken.trans htoken'.symm)
    rw [← hattempts]
    exact sentWhenDue_of_settles hcount hf hsettles after

end OcppKit

namespace OcppKit.Reference

/-! ### A run -/

/-- An accepted station is not answered when it sends what the store holds. -/
def unansweredRun : List Op :=
  [.handle 1 (.connected .v2_0_1), .callWith 1 "BootNotification" .emptyObject {},
    .handle 2 (.received "[3,\"s0\",\x7b\"status\":\"Accepted\",\"interval\":300\x7d]"),
    .handle 30002 .timeout, .handle 150002 .timeout, .handle 180002 .timeout]

/-- The event that had been tried once is sent twice more, and then given up. -/
theorem retries_bounded_unansweredRun :
    transmissions (run (restarted leftStore) unansweredRun).log 0 = 2 ∧
    (∀ before o after,
      (run (restarted leftStore) unansweredRun).log = before ++ .out (.outcome o) :: after →
      o.result = .error .retriesExhausted → ∃ entry, .accepted entry ∈ before ∧
        entry.token = o.token ∧ entry.transactional = true ∧
        transmissions before o.token = max 1 (3 - entry.attempts)) ∧
    Event.out (.outcome ⟨0, some ⟨"s2"⟩, "TransactionEvent", .error .retriesExhausted⟩) ∈
      (run (restarted leftStore) unansweredRun).log := by
  obtain ⟨-, hexhausted, -⟩ :=
    retries_bounded (withStore_restarted leftStore) countsOn_leftStore unansweredRun
  exact ⟨by decide +kernel, hexhausted, by decide +kernel⟩

/-- **Where the count begins again, so do the attempts**: the event is sent a second time, after
no interval. -/
theorem retries_unbounded_wornStore :
    Engine.withStore (.new .chargingStation .v2_0_1) wornStore (numbered "s") =
      .ok (restarted wornStore) ∧
    ∃ entry, .accepted entry ∈ (run (restarted wornStore) (unansweredRun.take 4)).log ∧
      entry.attempts = u32Max ∧
      ¬transmissions (run (restarted wornStore) (unansweredRun.take 4)).log entry.token ≤
        max 1 (3 - entry.attempts) := by
  refine ⟨withStore_restarted wornStore, (restarted wornStore).queue.get ⟨0, by decide⟩, ?_⟩
  refine ⟨?_, ?_, ?_⟩ <;> decide +kernel

end OcppKit.Reference
