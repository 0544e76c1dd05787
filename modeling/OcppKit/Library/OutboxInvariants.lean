import OcppKit.Library.Outbox

/-!
# What an outbox keeps true

The invariants of `Outbox.Step`, each with its step lemma.

* `Outbox.State.Conserved`: every token that was ever issued is in exactly one of
  three places – held, outstanding or waiting – or has been resolved exactly once.
* `Outbox.State.Traced`: what is live says what it said when it was accepted, and
  tokens are issued in increasing order.
* `Outbox.State.Sorted`: the ordered messages stand in the order of their tokens,
  whatever the others do around them. Its consequence on the history is
  `Outbox.State.InOrder`: nothing ordered is sent while something ordered and
  older is unresolved.
-/

namespace Outbox

variable {ι β ν σ : Type}

/-! ### Every token is somewhere, once -/

/-- The tokens that are not resolved. -/
def State.liveTokens (s : State ι β ν σ) : List ℕ := s.live.map Item.token

/-- **Every issued token is live once, or resolved once.** -/
def State.Conserved (s : State ι β ν σ) : Prop :=
  ∀ t, s.liveTokens.count t + (resolvedTokens s.hist).count t = if t < s.next then 1 else 0

section

variable [RecordStore σ β] {P : Policy β ν}

theorem conserved_keep {s s' : State ι β ν σ} (h : Keep P s s') (hs : s.Conserved) :
    s'.Conserved := by
  intro t
  have ht := hs t
  cases h with
  | accept item store' htok _ _ =>
      simp only [State.liveTokens, State.live, List.map_append, List.count_append, List.map_cons,
        List.map_nil, List.count_cons, List.count_nil, htok, resolvedTokens_append,
        resolvedTokens_accepted, resolvedTokens_nil, beq_iff_eq] at ht ⊢
      grind
  | refuse v _ =>
      simp only [State.liveTokens, State.live, resolvedTokens_append, resolvedTokens_resolved,
        resolvedTokens_nil, List.count_append, List.count_cons, List.count_nil,
        beq_iff_eq] at ht ⊢
      grind
  | storeFailed b _ => exact ht
  | sendExempt id xs item ys v hq _ _ _ =>
      simp only [State.liveTokens, State.live, hq, List.map_append, List.map_cons,
        List.count_append, List.count_cons, List.count_nil, resolvedTokens_append,
        resolvedTokens_sent, resolvedTokens_resolved, resolvedTokens_nil] at ht ⊢
      omega
  | send id xs item ys hq _ _ hslot _ =>
      simp only [State.liveTokens, State.live, hq, hslot, List.map_append, List.map_cons,
        Option.toList_none, Option.toList_some, List.map_nil, List.append_nil,
        List.count_append, List.count_cons, List.count_nil, resolvedTokens_append,
        resolvedTokens_sent, resolvedTokens_nil, Item.launch_token] at ht ⊢
      omega
  | drop xs item ys v hq _ =>
      simp only [State.liveTokens, State.live, hq, List.map_append, List.map_cons,
        List.count_append, List.count_cons, List.count_nil, resolvedTokens_append,
        resolvedTokens_resolved, resolvedTokens_nil] at ht ⊢
      omega
  | settle item v hh =>
      simp only [State.liveTokens, State.live, hh, List.map_append, List.map_cons, List.map_nil,
        Option.toList_none, Option.toList_some, List.count_append, List.count_cons,
        List.count_nil, resolvedTokens_append, resolvedTokens_resolved, resolvedTokens_nil] at ht ⊢
      omega

theorem conserved_free {s s' : State ι β ν σ} (h : Free P s s') (hs : s.Conserved) :
    s'.Conserved := by
  intro t
  have ht := hs t
  cases h with
  | answer f v hslot hh =>
      simp only [State.liveTokens, State.live, hslot, hh, List.map_append, List.map_cons,
        List.map_nil, Option.toList_none, Option.toList_some, List.count_append, List.count_cons,
        List.count_nil] at ht ⊢
      omega
  | requeue f hslot _ _ =>
      simp only [State.liveTokens, State.live, hslot, List.map_append, List.map_cons,
        List.map_nil, Option.toList_none, Option.toList_some, List.count_append, List.count_cons,
        List.count_nil] at ht ⊢
      omega
  | giveUp f v hslot _ =>
      simp only [State.liveTokens, State.live, hslot, List.map_append, List.map_cons,
        List.map_nil, Option.toList_none, Option.toList_some, List.count_append, List.count_cons,
        List.count_nil, resolvedTokens_append, resolvedTokens_resolved, resolvedTokens_nil] at ht ⊢
      omega

theorem conserved_step {s s' : State ι β ν σ} (h : Step P s s') (hs : s.Conserved) :
    s'.Conserved := by
  rcases h with h | h
  · exact conserved_keep h hs
  · exact conserved_free h hs

end

namespace State.Conserved

variable {s : State ι β ν σ}

/-- A live token has been issued and is not resolved. -/
theorem of_live (hs : s.Conserved) {item : Item β} (h : item ∈ s.live) :
    item.token < s.next ∧ item.token ∉ resolvedTokens s.hist := by
  have hmem : item.token ∈ s.liveTokens := List.mem_map_of_mem h
  have hpos : 0 < s.liveTokens.count item.token := List.count_pos_iff.mpr hmem
  have ht := hs item.token
  split at ht
  · next hlt =>
      refine ⟨hlt, fun hr => ?_⟩
      have hr' : 0 < (resolvedTokens s.hist).count item.token := List.count_pos_iff.mpr hr
      omega
  · omega

/-- An issued token that is not live has been resolved. -/
theorem resolved_of_not_live (hs : s.Conserved) {t : ℕ} (hlt : t < s.next)
    (h : t ∉ s.liveTokens) : t ∈ resolvedTokens s.hist := by
  have ht := hs t
  rw [if_pos hlt, List.count_eq_zero_of_not_mem h, Nat.zero_add] at ht
  exact List.count_pos_iff.mp (by omega)

end State.Conserved

/-! ### What is live was accepted -/

/-- **What is live says what it said when it was accepted**, and tokens are issued
in increasing order. -/
structure State.Traced (s : State ι β ν σ) : Prop where
  /-- Tokens increase along the history. -/
  increasing : ((acceptedItems s.hist).map Item.token).Pairwise (· < ·)
  /-- Every accepted token has been issued. -/
  issued : ∀ a ∈ acceptedItems s.hist, a.token < s.next
  /-- What is live was accepted. -/
  accepted : ∀ i ∈ s.live, ∃ a ∈ acceptedItems s.hist,
    a.token = i.token ∧ a.seq = i.seq ∧ a.body = i.body

theorem State.Traced.of_subset {s s' : State ι β ν σ} (hs : s.Traced)
    (hacc : acceptedItems s'.hist = acceptedItems s.hist) (hnext : s.next ≤ s'.next)
    (hlive : ∀ i ∈ s'.live, ∃ j ∈ s.live, j.token = i.token ∧ j.seq = i.seq ∧ j.body = i.body) :
    s'.Traced where
  increasing := hacc ▸ hs.increasing
  issued := fun a ha => Nat.lt_of_lt_of_le (hs.issued a (hacc ▸ ha)) hnext
  accepted := by
    intro i hi
    obtain ⟨j, hj, hjt, hjs, hjb⟩ := hlive i hi
    obtain ⟨a, ha, hat, has, hab⟩ := hs.accepted j hj
    exact ⟨a, hacc ▸ ha, hat.trans hjt, has.trans hjs, hab.trans hjb⟩

/-- A token names one accepted message. -/
theorem State.Traced.eq_of_token {s : State ι β ν σ} (hs : s.Traced) {a b : Item β}
    (ha : a ∈ acceptedItems s.hist) (hb : b ∈ acceptedItems s.hist) (h : a.token = b.token) :
    a = b :=
  List.inj_on_of_nodup_map (hs.increasing.imp fun hlt => Nat.ne_of_lt hlt) ha hb h

section

variable [RecordStore σ β] {P : Policy β ν}

theorem traced_keep {s s' : State ι β ν σ} (h : Keep P s s') (hs : s.Traced) : s'.Traced := by
  cases h with
  | accept item store' htok _ _ =>
      refine ⟨?_, ?_, ?_⟩
      · simp only [acceptedItems_append, acceptedItems_accepted, acceptedItems_nil,
          List.map_append, List.map_cons, List.map_nil, List.pairwise_append]
        refine ⟨hs.increasing, List.pairwise_singleton _ _, ?_⟩
        intro t ht u hu
        obtain ⟨a, ha, rfl⟩ := List.mem_map.mp ht
        obtain rfl : u = item.token := by simpa using hu
        rw [htok]
        exact hs.issued a ha
      · intro a ha
        simp only [acceptedItems_append, acceptedItems_accepted, acceptedItems_nil,
          List.mem_append, List.mem_singleton] at ha
        rcases ha with ha | rfl
        · exact Nat.lt_succ_of_lt (hs.issued a ha)
        · exact htok ▸ Nat.lt_succ_self _
      · intro i hi
        simp only [State.live, ← List.append_assoc, List.mem_append, List.mem_singleton] at hi
        simp only [acceptedItems_append, acceptedItems_accepted, acceptedItems_nil,
          List.mem_append, List.mem_singleton]
        rcases hi with hi | rfl
        · obtain ⟨a, ha, he⟩ := hs.accepted i (by
            simpa only [State.live, List.mem_append] using hi)
          exact ⟨a, Or.inl ha, he⟩
        · exact ⟨i, Or.inr rfl, rfl, rfl, rfl⟩
  | refuse v _ => exact hs.of_subset (by simp) (Nat.le_succ _) fun i hi => ⟨i, hi, rfl, rfl, rfl⟩
  | storeFailed b _ => exact hs.of_subset rfl le_rfl fun i hi => ⟨i, hi, rfl, rfl, rfl⟩
  | sendExempt id xs item ys v hq _ _ _ =>
      refine hs.of_subset (by simp) le_rfl fun i hi => ⟨i, ?_, rfl, rfl, rfl⟩
      simp only [State.live, hq, List.mem_append, List.mem_cons] at hi ⊢
      tauto
  | send id xs item ys hq _ _ hslot _ =>
      refine hs.of_subset (by simp) le_rfl fun i hi => ?_
      simp only [State.live, hq, hslot, Option.toList_some, Option.toList_none, List.map_cons,
        List.map_nil, List.append_nil, List.mem_append, List.mem_cons, List.not_mem_nil,
        or_false] at hi ⊢
      rcases hi with (hi | rfl) | hi
      · exact ⟨i, Or.inl hi, rfl, rfl, rfl⟩
      · exact ⟨item, Or.inr (Or.inr (Or.inl rfl)), rfl, rfl, rfl⟩
      · exact ⟨i, by tauto, rfl, rfl, rfl⟩
  | drop xs item ys v hq _ =>
      refine hs.of_subset (by simp) le_rfl fun i hi => ⟨i, ?_, rfl, rfl, rfl⟩
      simp only [State.live, hq, List.mem_append, List.mem_cons] at hi ⊢
      tauto
  | settle item v hh =>
      refine hs.of_subset (by simp) le_rfl fun i hi => ⟨i, ?_, rfl, rfl, rfl⟩
      simp only [State.live, hh, Option.toList_none, List.map_nil, List.nil_append,
        List.mem_append] at hi ⊢
      tauto

theorem traced_free {s s' : State ι β ν σ} (h : Free P s s') (hs : s.Traced) : s'.Traced := by
  cases h with
  | answer f v hslot hh =>
      refine hs.of_subset rfl le_rfl fun i hi => ⟨i, ?_, rfl, rfl, rfl⟩
      simp only [State.live, hslot, hh, Option.toList_none, Option.toList_some, List.map_nil,
        List.map_cons, List.nil_append, List.append_nil] at hi ⊢
      exact hi
  | requeue f hslot _ _ =>
      refine hs.of_subset rfl le_rfl fun i hi => ⟨i, ?_, rfl, rfl, rfl⟩
      simp only [State.live, hslot, Option.toList_none, Option.toList_some, List.map_nil,
        List.map_cons, List.append_nil, List.mem_append, List.mem_cons] at hi ⊢
      tauto
  | giveUp f v hslot _ =>
      refine hs.of_subset (by simp) le_rfl fun i hi => ⟨i, ?_, rfl, rfl, rfl⟩
      simp only [State.live, hslot, Option.toList_none, List.map_nil, List.append_nil,
        List.mem_append] at hi ⊢
      tauto

end

/-! ### The ordered messages stand in order -/

/-- The tokens of the ordered messages of a list. -/
def orderedTokens (P : Policy β ν) (l : List (Item β)) : List ℕ :=
  (l.filter fun i => P.ordered i.body).map Item.token

theorem orderedTokens_append (P : Policy β ν) (l l' : List (Item β)) :
    orderedTokens P (l ++ l') = orderedTokens P l ++ orderedTokens P l' := by
  rw [orderedTokens, List.filter_append, List.map_append, orderedTokens, orderedTokens]

theorem orderedTokens_cons_of_pos {P : Policy β ν} {i : Item β} (h : P.ordered i.body = true)
    (l : List (Item β)) : orderedTokens P (i :: l) = i.token :: orderedTokens P l := by
  simp only [orderedTokens, List.filter_cons, h, if_true, List.map_cons]

theorem orderedTokens_cons_of_neg {P : Policy β ν} {i : Item β} (h : P.ordered i.body = false)
    (l : List (Item β)) : orderedTokens P (i :: l) = orderedTokens P l := by
  simp only [orderedTokens, List.filter_cons, h, Bool.false_eq_true, if_false]

theorem orderedTokens_eq_nil {P : Policy β ν} {l : List (Item β)}
    (h : ∀ x ∈ l, P.ordered x.body = false) : orderedTokens P l = [] := by
  rw [orderedTokens, List.filter_eq_nil_iff.mpr fun x hx => by simp [h x hx], List.map_nil]

theorem orderedTokens_sublist {P : Policy β ν} {l l' : List (Item β)} (h : l.Sublist l') :
    (orderedTokens P l).Sublist (orderedTokens P l') :=
  (h.filter _).map _

theorem mem_orderedTokens {P : Policy β ν} {l : List (Item β)} {t : ℕ} :
    t ∈ orderedTokens P l ↔ ∃ i ∈ l, P.ordered i.body = true ∧ i.token = t := by
  simp only [orderedTokens, List.mem_map, List.mem_filter, and_assoc]

/-- **The ordered messages stand in the order of their tokens**, the held one
first, then the outstanding one, then the queue. -/
def State.Sorted (P : Policy β ν) (s : State ι β ν σ) : Prop :=
  (orderedTokens P s.live).Pairwise (· < ·)

section

variable [RecordStore σ β] {P : Policy β ν}

/-- Sending keeps the ordered messages where they stand: the message that takes the
slot is the first of them, or not one of them. -/
theorem orderedTokens_send (pre : List (Item β)) (item : Item β) (id : ι) {xs : List (Item β)}
    (ys : List (Item β))
    (hfirst : P.ordered item.body = true → ∀ x ∈ xs, P.ordered x.body = false) :
    orderedTokens P (pre ++ [(item.launch P id).item] ++ (xs ++ ys)) =
      orderedTokens P (pre ++ (xs ++ item :: ys)) := by
  simp only [orderedTokens_append]
  by_cases ho : P.ordered item.body = true
  · rw [orderedTokens_eq_nil (hfirst ho)]
    simp [orderedTokens, ho]
  · have ho' : P.ordered item.body = false := by simpa using ho
    simp [orderedTokens, ho']

theorem sorted_keep {s s' : State ι β ν σ} (h : Keep P s s') (hc : s.Conserved)
    (hs : s.Sorted P) : s'.Sorted P := by
  cases h with
  | accept item store' htok _ _ =>
      simp only [State.Sorted, State.live, ← List.append_assoc] at hs ⊢
      rw [orderedTokens_append, List.pairwise_append]
      refine ⟨hs, (List.pairwise_singleton _ item.token).sublist
        (List.filter_sublist.map Item.token), ?_⟩
      intro t ht u hu
      obtain ⟨i, hi, -, rfl⟩ := mem_orderedTokens.mp ht
      obtain ⟨j, hj, -, rfl⟩ := mem_orderedTokens.mp hu
      obtain rfl : j = item := by simpa using hj
      rw [htok]
      exact (hc.of_live (by simpa only [State.live, List.append_assoc] using hi)).1
  | refuse v _ => exact hs
  | storeFailed b _ => exact hs
  | sendExempt id xs item ys v hq _ _ _ =>
      refine List.Pairwise.sublist (orderedTokens_sublist ?_) hs
      simp only [State.live, hq]
      exact ((List.sublist_cons_self item ys).append_left xs).append_left _
  | send id xs item ys hq _ hfirst hslot _ =>
      simp only [State.Sorted, State.live, hq, hslot, Option.toList_none, Option.toList_some,
        List.map_nil, List.map_cons, List.append_nil] at hs ⊢
      rw [orderedTokens_send _ item id _ hfirst]
      exact hs
  | drop xs item ys v hq _ =>
      refine List.Pairwise.sublist (orderedTokens_sublist ?_) hs
      simp only [State.live, hq]
      exact ((List.sublist_cons_self item ys).append_left xs).append_left _
  | settle item v hh =>
      refine List.Pairwise.sublist (orderedTokens_sublist ?_) hs
      simp only [State.live, Option.toList_none, List.map_nil, List.nil_append]
      rw [List.append_assoc]
      exact List.sublist_append_right _ _

theorem sorted_free {s s' : State ι β ν σ} (h : Free P s s') (hs : s.Sorted P) :
    s'.Sorted P := by
  cases h with
  | answer f v hslot hh =>
      simpa only [State.Sorted, State.live, hslot, hh, Option.toList_none, Option.toList_some,
        List.map_nil, List.map_cons, List.nil_append, List.append_nil] using hs
  | requeue f hslot _ _ =>
      simpa only [State.Sorted, State.live, hslot, Option.toList_none, Option.toList_some,
        List.map_nil, List.map_cons, List.append_nil, List.append_assoc, List.cons_append,
        List.nil_append] using hs
  | giveUp f v hslot _ =>
      refine List.Pairwise.sublist (orderedTokens_sublist ?_) hs
      simp only [State.live, hslot, Option.toList_none, List.map_nil, List.append_nil]
      exact (List.sublist_append_left _ _).append_right _

end

/-! ### Nothing ordered overtakes -/

/-- A property of every entry of a history and what came before it. -/
def Along (φ : List (Ev ι β ν) → Ev ι β ν → Prop) (hist : List (Ev ι β ν)) : Prop :=
  ∀ pre x post, hist = pre ++ x :: post → φ pre x

theorem along_nil (φ : List (Ev ι β ν) → Ev ι β ν → Prop) : Along φ [] := by
  intro pre x post h
  exact absurd h (by simp)

theorem along_concat {φ : List (Ev ι β ν) → Ev ι β ν → Prop} {hist : List (Ev ι β ν)}
    {x : Ev ι β ν} (h : Along φ hist) (hx : φ hist x) : Along φ (hist ++ [x]) := by
  intro pre y post he
  rcases List.eq_nil_or_concat post with rfl | ⟨post', z, rfl⟩
  · obtain ⟨rfl, hxy⟩ := List.append_inj' he rfl
    obtain rfl : x = y := by simpa using hxy
    exact hx
  · have he' : hist ++ [x] = (pre ++ y :: post') ++ [z] := by simpa using he
    exact h pre y post' (List.append_inj' he' rfl).1

/-- The entry sends only what was accepted, and an ordered message that occupies the
slot only after every older ordered message has been resolved. -/
structure SentInTurn (P : Policy β ν) (pre : List (Ev ι β ν)) (x : Ev ι β ν) : Prop where
  /-- What is sent was accepted. -/
  accepted : ∀ id item, x = .sent id item →
    ∃ a ∈ acceptedItems pre, a.token = item.token ∧ a.seq = item.seq ∧ a.body = item.body
  /-- What is older and ordered is resolved. -/
  turn : ∀ id item, x = .sent id item → P.ordered item.body = true → P.exempt item.body = false →
    ∀ a ∈ acceptedItems pre, P.ordered a.body = true → P.early a.body = false →
      a.token < item.token → a.token ∈ resolvedTokens pre

/-- **Nothing ordered is sent while something ordered and older is unresolved.** -/
def State.InOrder (P : Policy β ν) (s : State ι β ν σ) : Prop := Along (SentInTurn P) s.hist

section

variable {P : Policy β ν}

theorem sentInTurn_of_ne {pre : List (Ev ι β ν)} {x : Ev ι β ν}
    (h : ∀ id item, x ≠ .sent id item) : SentInTurn P pre x where
  accepted := fun id item hx => absurd hx (h id item)
  turn := fun id item hx => absurd hx (h id item)

theorem sentInTurn_resolved (pre : List (Ev ι β ν)) (t : ℕ) (v : ν) :
    SentInTurn P pre (.resolved t v) :=
  sentInTurn_of_ne fun _ _ h => absurd h (by simp)

/-- What waits was accepted. -/
theorem accepted_of_queue {s : State ι β ν σ} (ht : s.Traced) {xs ys : List (Item β)}
    {item : Item β} (hq : s.queue = xs ++ item :: ys) :
    ∃ a ∈ acceptedItems s.hist, a.token = item.token ∧ a.seq = item.seq ∧ a.body = item.body :=
  ht.accepted item (by simp [State.live, hq])

theorem sentInTurn_exempt {s : State ι β ν σ} (ht : s.Traced) (id : ι) {xs ys : List (Item β)}
    {item : Item β} (hq : s.queue = xs ++ item :: ys) (h : P.exempt item.body = true) :
    SentInTurn P s.hist (.sent id item) where
  accepted := by
    intro id' item' he
    obtain ⟨rfl, rfl⟩ : id = id' ∧ item = item' := by simpa using he
    exact accepted_of_queue ht hq
  turn := by
    intro id' item' he _ hex
    obtain ⟨rfl, rfl⟩ : id = id' ∧ item = item' := by simpa using he
    exact absurd hex (by simp [h])

/-- What is sent from the queue is sent in turn: everything ordered before it is
gone from the queue, and the slot is empty. -/
theorem sentInTurn_send {s : State ι β ν σ} (hc : s.Conserved) (ht : s.Traced)
    (hs : s.Sorted P) (id : ι) {xs ys : List (Item β)} {item : Item β}
    (hq : s.queue = xs ++ item :: ys) (hslot : s.slot = none)
    (hfirst : P.ordered item.body = true → ∀ x ∈ xs, P.ordered x.body = false)
    (hheld : ∀ h, s.held = some h → P.early h.1.body = true) :
    SentInTurn P s.hist (.sent id item) := by
  refine ⟨fun id' item' he => ?_, fun id' item' he ho _ a ha hao hae hlt => ?_⟩
  · obtain ⟨rfl, rfl⟩ : id = id' ∧ item = item' := by simpa using he
    exact accepted_of_queue ht hq
  obtain ⟨rfl, rfl⟩ : id = id' ∧ item = item' := by simpa using he
  refine hc.resolved_of_not_live (ht.issued a ha) fun hlive => ?_
  obtain ⟨i, hi, hit⟩ := List.mem_map.mp hlive
  obtain ⟨b, hb, hbt, -, hbb⟩ := ht.accepted i hi
  obtain rfl : b = a := ht.eq_of_token hb ha (hbt.trans hit)
  have hio : P.ordered i.body = true := hbb ▸ hao
  simp only [State.live, hslot, hq, Option.toList_none, List.map_nil, List.append_nil,
    List.mem_append, List.mem_cons, List.mem_map, Option.mem_toList] at hi
  rcases hi with ⟨h, hh, rfl⟩ | hi | rfl | hi
  · have hearly := hheld h hh
    rw [← hbb, hae] at hearly
    exact absurd hearly (by simp)
  · exact absurd (hfirst ho i hi) (by simp [hio])
  · omega
  · -- behind the message that is sent, tokens are greater
    rw [State.Sorted, State.live, hslot, hq, orderedTokens_append, orderedTokens_append,
      orderedTokens_append, orderedTokens_cons_of_pos ho] at hs
    have htail := (List.pairwise_append.mp (List.pairwise_append.mp hs).2.1).2.1
    have := List.rel_of_pairwise_cons htail (mem_orderedTokens.mpr ⟨i, hi, hio, rfl⟩)
    omega

variable [RecordStore σ β]

theorem inOrder_keep {s s' : State ι β ν σ} (h : Keep P s s') (hc : s.Conserved)
    (ht : s.Traced) (hs : s.Sorted P) (ho : s.InOrder P) : s'.InOrder P := by
  cases h with
  | accept item store' _ _ _ =>
      exact along_concat ho (sentInTurn_of_ne fun _ _ h => absurd h (by simp))
  | refuse v _ => exact along_concat ho (sentInTurn_resolved _ _ _)
  | storeFailed b _ => exact ho
  | sendExempt id xs item ys v hq hex _ _ =>
      have h := along_concat (along_concat ho (sentInTurn_exempt ht id hq hex))
        (sentInTurn_resolved _ item.token v)
      simpa only [State.InOrder, List.append_assoc, List.cons_append, List.nil_append] using h
  | send id xs item ys hq _ hfirst hslot hheld =>
      exact along_concat ho (sentInTurn_send hc ht hs id hq hslot hfirst hheld)
  | drop xs item ys v _ _ => exact along_concat ho (sentInTurn_resolved _ _ _)
  | settle item v _ => exact along_concat ho (sentInTurn_resolved _ _ _)

theorem inOrder_free {s s' : State ι β ν σ} (h : Free P s s') (ho : s.InOrder P) :
    s'.InOrder P := by
  cases h with
  | answer f v _ _ => exact ho
  | requeue f _ _ _ => exact ho
  | giveUp f v _ _ => exact along_concat ho (sentInTurn_resolved _ _ _)

end

/-! ### Ordered messages are sent oldest first -/

/-- The tokens of the ordered messages a history puts in the slot, in the order of
the attempts. -/
def turns (P : Policy β ν) (hist : List (Ev ι β ν)) : List ℕ :=
  orderedTokens P ((attempts P hist).map Prod.snd)

/-- What stands in line for the slot, the message in it first. -/
def State.line (s : State ι β ν σ) : List (Item β) :=
  s.slot.toList.map Flight.item ++ s.queue

/-- **The slot takes ordered messages oldest first**: no attempt is for an older
message than the attempt before it, and nothing that has been attempted is younger
than what still stands in line. -/
structure State.Monotone (P : Policy β ν) (s : State ι β ν σ) : Prop where
  /-- Attempts never go back to an older message. -/
  turns : (turns P s.hist).Pairwise (· ≤ ·)
  /-- What stands in line is not older than what was attempted. -/
  line : ∀ t ∈ Outbox.turns P s.hist, ∀ u ∈ orderedTokens P s.line, t ≤ u
  /-- What was attempted had been issued. -/
  issued : ∀ t ∈ Outbox.turns P s.hist, t < s.next

theorem State.Monotone.of_subset {P : Policy β ν} {s s' : State ι β ν σ} (hs : s.Monotone P)
    (hturns : Outbox.turns P s'.hist = Outbox.turns P s.hist) (hnext : s.next ≤ s'.next)
    (hline : s'.line.Sublist s.line) : s'.Monotone P where
  turns := hturns ▸ hs.turns
  line := fun t ht u hu => hs.line t (hturns ▸ ht) u ((orderedTokens_sublist hline).subset hu)
  issued := fun t ht => Nat.lt_of_lt_of_le (hs.issued t (hturns ▸ ht)) hnext

theorem turns_append (P : Policy β ν) (h h' : List (Ev ι β ν)) :
    turns P (h ++ h') = turns P h ++ turns P h' := by
  rw [turns, attempts_append, List.map_append, orderedTokens_append, turns, turns]

theorem turns_nil (P : Policy β ν) : turns P ([] : List (Ev ι β ν)) = [] := rfl

theorem turns_sent_of_pos {P : Policy β ν} (id : ι) {item : Item β}
    (hex : P.exempt item.body = false) (ho : P.ordered item.body = true) :
    turns P [Ev.sent id item] = [item.token] := by
  simp [turns, attempts, orderedTokens, hex, ho]

theorem turns_sent_of_neg {P : Policy β ν} (id : ι) {item : Item β}
    (h : P.exempt item.body = true ∨ P.ordered item.body = false) (rest : List (Ev ι β ν)) :
    turns P (.sent id item :: rest) = turns P rest := by
  rcases h with h | h
  · rw [turns, attempts_sent_of_pos id h, turns]
  · simp only [turns, attempts, sentItems_sent, List.filter_cons]
    split
    · exact orderedTokens_cons_of_neg h _
    · rfl

section

variable {P : Policy β ν}

/-- An ordered message takes the slot: it is the oldest in line. -/
theorem monotone_send_of_pos {s : State ι β ν σ} (hc : s.Conserved) (hsort : s.Sorted P)
    (hs : s.Monotone P) (id : ι) {xs ys : List (Item β)} {item : Item β}
    (hq : s.queue = xs ++ item :: ys) (hex : P.exempt item.body = false)
    (ho : P.ordered item.body = true) (hfirst : ∀ x ∈ xs, P.ordered x.body = false)
    (hslot : s.slot = none) :
    ({ s with queue := xs ++ ys, slot := some (item.launch P id)
              hist := s.hist ++ [Ev.sent id item] } : State ι β ν σ).Monotone P := by
  have hline : s.line = xs ++ item :: ys := by simp [State.line, hslot, hq]
  have hold : orderedTokens P s.line = item.token :: orderedTokens P ys := by
    rw [hline, orderedTokens_append, orderedTokens_eq_nil hfirst, List.nil_append,
      orderedTokens_cons_of_pos ho]
  have hturns : turns P (s.hist ++ [Ev.sent id item]) = turns P s.hist ++ [item.token] := by
    rw [turns_append, turns_sent_of_pos id hex ho]
  have hbehind : ∀ u ∈ orderedTokens P ys, item.token < u := by
    rw [State.Sorted, State.live, List.append_assoc, ← State.line, orderedTokens_append,
      hold] at hsort
    exact fun u hu => List.rel_of_pairwise_cons (List.pairwise_append.mp hsort).2.1 hu
  have hnew := orderedTokens_send [] item id ys fun _ => hfirst
  refine ⟨?_, ?_, ?_⟩
  · rw [hturns, List.pairwise_append]
    refine ⟨hs.turns, List.pairwise_singleton _ _, fun t ht u hu => ?_⟩
    obtain rfl : u = item.token := by simpa using hu
    exact hs.line t ht _ (hold ▸ List.mem_cons_self)
  · intro t ht u hu
    have hu' : u ∈ orderedTokens P s.line := by
      rw [hline]
      exact hnew ▸ hu
    rw [hturns, List.mem_append, List.mem_singleton] at ht
    rcases ht with ht | rfl
    · exact hs.line t ht u hu'
    · rcases List.mem_cons.mp (hold ▸ hu') with rfl | hu'
      · exact le_rfl
      · exact (hbehind u hu').le
  · intro t ht
    rw [hturns, List.mem_append, List.mem_singleton] at ht
    rcases ht with ht | rfl
    · exact hs.issued t ht
    · exact (hc.of_live (by simp [State.live, hq])).1

/-- Another message takes the slot: the ordered ones stand as before. -/
theorem monotone_send_of_neg {s : State ι β ν σ} (hs : s.Monotone P) (id : ι)
    {xs ys : List (Item β)} {item : Item β} (hq : s.queue = xs ++ item :: ys)
    (ho : P.ordered item.body = false) (hslot : s.slot = none) :
    ({ s with queue := xs ++ ys, slot := some (item.launch P id)
              hist := s.hist ++ [Ev.sent id item] } : State ι β ν σ).Monotone P := by
  have hturns : turns P (s.hist ++ [Ev.sent id item]) = turns P s.hist := by
    rw [turns_append, turns_sent_of_neg id (Or.inr ho), turns_nil, List.append_nil]
  have hline : s.line = xs ++ item :: ys := by simp [State.line, hslot, hq]
  have hnew : orderedTokens P _ = orderedTokens P ([] ++ (xs ++ item :: ys)) :=
    orderedTokens_send [] item id ys fun h => absurd h (by simp [ho])
  refine ⟨hturns ▸ hs.turns, fun t ht u hu => hs.line t (hturns ▸ ht) u ?_,
    fun t ht => hs.issued t (hturns ▸ ht)⟩
  rw [hline]
  exact hnew ▸ hu

variable [RecordStore σ β]

theorem monotone_keep {s s' : State ι β ν σ} (h : Keep P s s') (hc : s.Conserved)
    (hsort : s.Sorted P) (hs : s.Monotone P) : s'.Monotone P := by
  cases h with
  | accept item store' htok _ _ =>
      have hturns : turns P (s.hist ++ [Ev.accepted item]) = turns P s.hist := by
        rw [turns_append]
        exact List.append_nil _
      refine ⟨hturns ▸ hs.turns, fun t ht u hu => ?_,
        fun t ht => Nat.lt_succ_of_lt (hs.issued t (hturns ▸ ht))⟩
      rw [State.line, ← List.append_assoc, orderedTokens_append, List.mem_append] at hu
      rcases hu with hu | hu
      · exact hs.line t (hturns ▸ ht) u hu
      · obtain ⟨i, hi, -, rfl⟩ := mem_orderedTokens.mp hu
        obtain rfl : i = item := by simpa using hi
        rw [htok]
        exact (hs.issued t (hturns ▸ ht)).le
  | refuse v _ =>
      refine hs.of_subset ?_ (Nat.le_succ _) (List.Sublist.refl _)
      rw [turns_append]
      exact List.append_nil _
  | storeFailed b _ => exact hs.of_subset rfl le_rfl (List.Sublist.refl _)
  | sendExempt id xs item ys v hq hex _ _ =>
      refine hs.of_subset ?_ le_rfl ?_
      · rw [turns_append, turns_sent_of_neg id (Or.inl hex)]
        exact List.append_nil _
      · simp only [State.line, hq]
        exact ((List.sublist_cons_self item ys).append_left xs).append_left _
  | send id xs item ys hq hex hfirst hslot _ =>
      by_cases ho : P.ordered item.body = true
      · exact monotone_send_of_pos hc hsort hs id hq hex ho (hfirst ho) hslot
      · exact monotone_send_of_neg hs id hq (by simpa using ho) hslot
  | drop xs item ys v hq _ =>
      refine hs.of_subset ?_ le_rfl ?_
      · rw [turns_append]
        exact List.append_nil _
      · simp only [State.line, hq]
        exact ((List.sublist_cons_self item ys).append_left xs).append_left _
  | settle item v _ =>
      refine hs.of_subset ?_ le_rfl (List.Sublist.refl _)
      rw [turns_append]
      exact List.append_nil _

theorem monotone_free {s s' : State ι β ν σ} (h : Free P s s') (hs : s.Monotone P) :
    s'.Monotone P := by
  cases h with
  | answer f v hslot _ =>
      refine hs.of_subset rfl le_rfl ?_
      simp only [State.line, hslot, Option.toList_none, List.map_nil, List.nil_append]
      exact List.sublist_append_right _ _
  | requeue f hslot _ _ =>
      refine hs.of_subset rfl le_rfl ?_
      simp only [State.line, hslot, Option.toList_none, Option.toList_some, List.map_nil,
        List.map_cons, List.nil_append, List.cons_append]
      exact List.Sublist.refl _
  | giveUp f v hslot _ =>
      refine hs.of_subset ?_ le_rfl ?_
      · rw [turns_append]
        exact List.append_nil _
      · simp only [State.line, hslot, Option.toList_none, List.map_nil, List.nil_append]
        exact List.sublist_append_right _ _

end

/-! ### All of it together -/

/-- **The invariant of an outbox.** -/
structure State.Invariant (P : Policy β ν) (s : State ι β ν σ) : Prop where
  /-- Every token is somewhere, once. -/
  conserved : s.Conserved
  /-- What is live was accepted. -/
  traced : s.Traced
  /-- The ordered messages stand in order. -/
  sorted : s.Sorted P
  /-- Nothing ordered overtakes. -/
  inOrder : s.InOrder P
  /-- The slot takes ordered messages oldest first. -/
  monotone : s.Monotone P

section

variable [RecordStore σ β] {P : Policy β ν}

theorem invariant_keep {s s' : State ι β ν σ} (h : Keep P s s') (hs : s.Invariant P) :
    s'.Invariant P where
  conserved := conserved_keep h hs.conserved
  traced := traced_keep h hs.traced
  sorted := sorted_keep h hs.conserved hs.sorted
  inOrder := inOrder_keep h hs.conserved hs.traced hs.sorted hs.inOrder
  monotone := monotone_keep h hs.conserved hs.sorted hs.monotone

theorem invariant_free {s s' : State ι β ν σ} (h : Free P s s') (hs : s.Invariant P) :
    s'.Invariant P where
  conserved := conserved_free h hs.conserved
  traced := traced_free h hs.traced
  sorted := sorted_free h hs.sorted
  inOrder := inOrder_free h hs.inOrder
  monotone := monotone_free h hs.monotone

theorem invariant_step (s s' : State ι β ν σ) (h : Step P s s') (hs : s.Invariant P) :
    s'.Invariant P := by
  rcases h with h | h
  · exact invariant_keep h hs
  · exact invariant_free h hs

/-- **The invariant holds after any number of steps.** -/
theorem invariant_steps {s s' : State ι β ν σ} (h : Steps P s s') (hs : s.Invariant P) :
    s'.Invariant P :=
  Steps.invariant _ invariant_step h hs

end

/-! ### A loaded outbox -/

/-- An outbox that starts with these messages, all waiting. -/
def State.loaded (items : List (Item β)) (store : σ) : State ι β ν σ where
  queue := items
  slot := none
  held := none
  next := items.length
  store := store
  hist := items.map .accepted

section

variable {P : Policy β ν} {items : List (Item β)} {store : σ}

theorem acceptedItems_map (items : List (Item β)) :
    acceptedItems (items.map (.accepted : Item β → Ev ι β ν)) = items := by
  induction items with
  | nil => rfl
  | cons i items ih => rw [List.map_cons, acceptedItems_accepted, ih]

theorem resolvedTokens_map (items : List (Item β)) :
    resolvedTokens (items.map (.accepted : Item β → Ev ι β ν)) = [] := by
  induction items with
  | nil => rfl
  | cons i items ih => rw [List.map_cons, resolvedTokens_accepted, ih]

theorem turns_map (items : List (Item β)) :
    turns P (items.map (.accepted : Item β → Ev ι β ν)) = [] := by
  induction items with
  | nil => rfl
  | cons i items ih => exact ih

/-- **An outbox loaded with consecutive tokens satisfies the invariant.** -/
theorem invariant_loaded (h : items.map Item.token = List.range items.length) :
    (State.loaded items store : State ι β ν σ).Invariant P := by
  have hlt : (items.map Item.token).Pairwise (· < ·) := h ▸ List.pairwise_lt_range
  refine ⟨fun t => ?_, ⟨?_, ?_, ?_⟩, ?_, ?_, ⟨?_, ?_, ?_⟩⟩
  · rw [State.loaded, resolvedTokens_map]
    simp only [State.liveTokens, State.live, Option.toList_none, List.map_nil, List.nil_append, h,
      List.count_nil, Nat.add_zero]
    rw [List.nodup_range.count]
    simp only [List.mem_range]
  · rw [State.loaded, acceptedItems_map]
    exact hlt
  · rw [State.loaded, acceptedItems_map]
    intro a ha
    exact List.mem_range.mp (h ▸ List.mem_map_of_mem ha)
  · rw [State.loaded, acceptedItems_map]
    intro i hi
    exact ⟨i, hi, rfl, rfl, rfl⟩
  · exact hlt.sublist (List.filter_sublist.map Item.token)
  · intro pre x post he
    refine sentInTurn_of_ne fun id item hx => ?_
    subst hx
    have hmem : Ev.sent id item ∈ items.map (.accepted : Item β → Ev ι β ν) := by
      rw [show items.map (.accepted : Item β → Ev ι β ν) = _ from he]
      exact List.mem_append_right _ List.mem_cons_self
    obtain ⟨i, -, hi⟩ := List.mem_map.mp hmem
    exact absurd hi (by simp)
  all_goals
    rw [State.loaded, turns_map]
    simp

end

end Outbox
