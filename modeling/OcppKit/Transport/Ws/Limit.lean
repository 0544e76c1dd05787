import OcppKit.Transport.Ws.Inflating

/-!
# The limit of inflating

A message is inflated into a buffer that grows by a reservation at a time, and is refused once it
is longer than the limit. The loop ends whatever the inflater does: every turn takes of the input
or of the allowance (`OcppKit.Ws.Coding.turns_isSome`), and what is too long is refused, never cut
(`OcppKit.Ws.Coding.turns_limit`).

But an inflater writes into all the room there is, not into what was reserved. The buffer is
created with four times the length of the message, and a buffer that grows at least doubles. So
more than a reservation may be written past the limit before it is looked at; how much depends on
the allocator, and `OcppKit.Ws.Coding.Roomy` says when it is no more
(`OcppKit.Ws.Deflate.decompress_bounded_iff`). A buffer that grew by what is reserved and no more
would be in order as long as what it is created with is (`OcppKit.Ws.Coding.roomy_iff_of_exact`).
-/

namespace OcppKit.Ws

namespace Coding

variable [Allocator] {X : Type} [Flate X]

/-! ### A turn of the loop -/

/-- **One turn**: the result, if it is the last, and what is held then. -/
def turn (limit : ℕ) (s : Coding X) : Option (Except DeflateError (List UInt8)) × Coding X :=
  if limit < s.out.length then (some (.error .tooLarge), s)
  else
    match s.feed (reservation limit s.out.length) with
    | (none, s') => (some (.error .decompress), s')
    | (some p, s') =>
        if p.status = .streamEnd then (some (withinLimit limit s'.out), s')
        else if s'.input = [] ∧ p.produced = [] then (some (withinLimit limit s'.out), s')
        else if p.consumed = 0 ∧ p.produced = [] then (some (.error .decompress), s')
        else (none, s')

/-- So many turns, as long as the loop goes on. -/
def turns (limit : ℕ) : ℕ → Coding X → Option (Except DeflateError (List UInt8)) × Coding X
  | 0, s => (none, s)
  | n + 1, s =>
      match s.turn limit with
      | (some result, s') => (some result, s')
      | (none, s') => s'.turns limit n

/-- **What a turn comes to**: the limit was passed, the call failed, or it made its progress. -/
theorem turn_cases (limit : ℕ) (s : Coding X) :
    (limit < s.out.length ∧ s.turn limit = (some (.error .tooLarge), s)) ∨
      ¬limit < s.out.length ∧
        ((∃ s', s.feed (reservation limit s.out.length) = (none, s') ∧
            s.turn limit = (some (.error .decompress), s')) ∨
          ∃ p s', s.feed (reservation limit s.out.length) = (some p, s') ∧
            (s.turn limit = (some (withinLimit limit s'.out), s') ∨
              (p.consumed = 0 ∧ p.produced = [] ∧ s.turn limit = (some (.error .decompress), s')) ∨
              (p.status ≠ .streamEnd ∧ ¬(s'.input = [] ∧ p.produced = []) ∧
                ¬(p.consumed = 0 ∧ p.produced = []) ∧ s.turn limit = (none, s')))) := by
  rw [turn]
  split
  · next hlimit => exact Or.inl ⟨hlimit, rfl⟩
  next hlimit =>
  refine Or.inr ⟨hlimit, ?_⟩
  split
  · next s' hfeed => exact Or.inl ⟨s', hfeed, rfl⟩
  next p s' hfeed =>
  refine Or.inr ⟨p, s', hfeed, ?_⟩
  split
  · exact Or.inl rfl
  next hgoes =>
  split
  · exact Or.inl rfl
  next hmore =>
  split
  · next hstuck => exact Or.inr (Or.inl ⟨hstuck.1, hstuck.2, rfl⟩)
  · next hprogress => exact Or.inr (Or.inr ⟨hgoes, hmore, hprogress, rfl⟩)

/-- What a turn leaves is what its call does. -/
theorem snd_turn_of_feed {limit : ℕ} {s s' : Coding X} {p : Progress}
    (hlimit : ¬limit < s.out.length)
    (h : s.feed (reservation limit s.out.length) = (some p, s')) : (s.turn limit).2 = s' := by
  rcases turn_cases limit s with ⟨hover, -⟩ | ⟨-, ⟨t, hfeed, -⟩ | ⟨q, t, hfeed, hcase⟩⟩
  · exact absurd hover hlimit
  · cases h.symm.trans hfeed
  obtain ⟨-, rfl⟩ := Prod.mk.inj (h.symm.trans hfeed)
  rcases hcase with hturn | ⟨-, -, hturn⟩ | ⟨-, -, -, hturn⟩
  · rw [hturn]
  · rw [hturn]
  · rw [hturn]

/-- **The loop is its turns**, one after another. -/
theorem inflate_eq_turn (limit : ℕ) (s : Coding X) :
    s.inflate limit =
      match s.turn limit with
      | (some result, s') => (result, s'.coder)
      | (none, s') => s'.inflate limit := by
  rw [inflate, turn]
  split
  · rfl
  split
  · next s' hfeed => rw [hfeed]
  next p s' hfeed =>
  rw [hfeed]
  dsimp only
  split_ifs
  · rfl
  · rfl
  · rfl
  · rfl

/-- **There is an end to the turns**: each takes of what may be taken and written. -/
theorem turns_isSome (limit : ℕ) (s : Coding X) :
    ∀ n, s.input.length + (limit + 1 - s.out.length) < n →
      ∃ result s', s.turns limit n = (some result, s') ∧
        s.inflate limit = (result, s'.coder) := by
  intro n hn
  induction n generalizing s with
  | zero => exact absurd hn (Nat.not_lt_zero _)
  | succ n ih =>
      rw [turns, inflate_eq_turn]
      rcases turn_cases limit s with ⟨hlimit, hturn⟩ | ⟨hlimit, ⟨s', hfeed, hturn⟩ | ⟨p, s', hfeed,
        hturn | ⟨-, -, hturn⟩ | ⟨-, -, hprogress, hturn⟩⟩⟩
      · exact ⟨_, s, by rw [hturn], by rw [hturn]⟩
      · exact ⟨_, s', by rw [hturn], by rw [hturn]⟩
      · exact ⟨_, s', by rw [hturn], by rw [hturn]⟩
      · exact ⟨_, s', by rw [hturn], by rw [hturn]⟩
      · have hless := feed_decreases hfeed hlimit hprogress
        obtain ⟨result, t, hresult, hinflate⟩ := ih s' (by omega)
        exact ⟨result, t, by rw [hturn]; exact hresult, by rw [hturn]; exact hinflate⟩

/-- The turns one by one: the last comes after the others. -/
theorem turns_succ_of_none {limit n : ℕ} {s t : Coding X} (h : s.turns limit n = (none, t)) :
    s.turns limit (n + 1) = t.turn limit := by
  induction n generalizing s with
  | zero =>
      obtain ⟨-, rfl⟩ := Prod.mk.inj h
      rw [turns]
      rcases hturn : s.turn limit with ⟨_ | result, u⟩
      · rfl
      · rfl
  | succ n ih =>
      rw [turns] at h ⊢
      rcases hturn : s.turn limit with ⟨_ | result, u⟩
      · rw [hturn] at h
        exact ih h
      · rw [hturn] at h
        cases (Prod.mk.inj h).1

/-- Turns that go on, but for the last. -/
theorem exists_of_turns_succ {limit n : ℕ} {s t : Coding X}
    (h : s.turns limit (n + 1) = (none, t)) :
    ∃ u, s.turns limit n = (none, u) ∧ u.turn limit = (none, t) := by
  induction n generalizing s with
  | zero =>
      refine ⟨s, rfl, ?_⟩
      rw [turns] at h
      rcases hturn : s.turn limit with ⟨_ | result, u⟩
      · rw [hturn] at h
        exact h ▸ rfl
      · rw [hturn] at h
        cases (Prod.mk.inj h).1
  | succ n ih =>
      rw [turns] at h
      rcases hturn : s.turn limit with ⟨_ | result, u⟩
      · rw [hturn] at h
        obtain ⟨v, hv, hlast⟩ := ih h
        refine ⟨v, ?_, hlast⟩
        rw [turns, hturn]
        exact hv
      · rw [hturn] at h
        cases (Prod.mk.inj h).1

/-! ### What is returned, and what is refused -/

/-- What a failed call leaves: as much is written as before. -/
theorem out_of_feed_none {additional : ℕ} {s s' : Coding X} (h : s.feed additional = (none, s')) :
    s'.out = s.out := by
  rw [feed] at h
  split at h
  · obtain ⟨-, rfl⟩ := Prod.mk.inj h
    rfl
  · cases (Prod.mk.inj h).1

/-- **What the turns say**: everything written is returned, if it is within the limit, and
what is not within the limit is refused. -/
theorem turns_limit {limit n : ℕ} {s s' : Coding X} {r : Option (Except DeflateError (List UInt8))}
    (h : s.turns limit n = (r, s')) :
    (∀ out, r = some (.ok out) → out = s'.out ∧ out.length ≤ limit) ∧
      (limit < s'.out.length → (s.inflate limit).1 = .error .tooLarge) := by
  induction n generalizing s with
  | zero =>
      obtain ⟨rfl, rfl⟩ := Prod.mk.inj h
      refine ⟨fun out hout => (by cases hout), fun hlimit => ?_⟩
      rw [inflate, dif_pos hlimit]
  | succ n ih =>
      rw [turns] at h
      rw [inflate_eq_turn]
      have hwithin : ∀ t : Coding X, (∀ out, withinLimit limit t.out = .ok out →
          out = t.out ∧ out.length ≤ limit) ∧
            (limit < t.out.length → withinLimit limit t.out = .error .tooLarge) := by
        refine fun t => ⟨fun out hout => ?_, fun hlimit => by rw [withinLimit, if_pos hlimit]⟩
        obtain rfl := eq_of_withinLimit hout
        rw [withinLimit] at hout
        split at hout
        · cases hout
        · next hle => exact ⟨rfl, not_lt.mp hle⟩
      rcases turn_cases limit s with ⟨hlimit, hturn⟩ | ⟨hlimit, ⟨t, hfeed, hturn⟩ | ⟨p, t, hfeed,
        hturn | ⟨-, hproduced, hturn⟩ | ⟨-, -, -, hturn⟩⟩⟩
      · rw [hturn] at h ⊢
        obtain ⟨rfl, rfl⟩ := Prod.mk.inj h
        exact ⟨fun out hout => (by cases hout), fun _ => rfl⟩
      · -- nothing has been written by a call that failed
        rw [hturn] at h ⊢
        obtain ⟨rfl, rfl⟩ := Prod.mk.inj h
        refine ⟨fun out hout => (by cases hout), fun hlimit' => ?_⟩
        rw [out_of_feed_none hfeed] at hlimit'
        exact absurd hlimit' hlimit
      · rw [hturn] at h ⊢
        obtain ⟨rfl, rfl⟩ := Prod.mk.inj h
        exact ⟨fun out hout => (hwithin t).1 out (Option.some.inj hout), (hwithin t).2⟩
      · -- nor by one that made no progress
        rw [hturn] at h ⊢
        obtain ⟨rfl, rfl⟩ := Prod.mk.inj h
        refine ⟨fun out hout => (by cases hout), fun hlimit' => ?_⟩
        obtain ⟨_, -, -, -, -, hout⟩ := feed_spec hfeed
        rw [hout, hproduced, List.append_nil] at hlimit'
        exact absurd hlimit' hlimit
      · rw [hturn] at h ⊢
        exact ih h

/-! ### What is held -/

/-- **What the loop can come to**, whatever the inflater does: how much of the input is left, how
much is written, and the capacity of the buffer. -/
inductive Comes (limit size capacity : ℕ) : ℕ → ℕ → ℕ → Prop where
  /-- Nothing has happened yet. -/
  | start : Comes limit size capacity size 0 capacity
  /-- A turn goes on. -/
  | turn {left len room consumed produced : ℕ} (h : Comes limit size capacity left len room)
      (hlimit : len ≤ limit) (hconsumed : consumed ≤ left)
      (hproduced : len + produced ≤ Allocator.reserve len room (reservation limit len))
      (hprogress : 0 < produced ∨ (0 < consumed ∧ consumed < left)) :
      Comes limit size capacity (left - consumed) (len + produced)
        (Allocator.reserve len room (reservation limit len))

/-- **No reservation leaves more room than the limit and itself.** -/
def Roomy (limit size capacity : ℕ) : Prop :=
  ∀ left len room, Comes limit size capacity left len room → len ≤ limit →
    Allocator.reserve len room (reservation limit len) ≤ limit + reservation limit len

/-- What is written is in the buffer. -/
theorem capacity_of_feed {additional : ℕ} {s s' : Coding X} {p : Progress}
    (h : s.feed additional = (some p, s')) :
    s'.capacity = Allocator.reserve s.out.length s.capacity additional ∧
      s'.out.length ≤ Allocator.reserve s.out.length s.capacity additional := by
  have hroom := Allocator.le_reserve s.out.length s.capacity additional
  rw [feed] at h
  split at h
  · cases (Prod.mk.inj h).1
  · next q coder hcall =>
    obtain ⟨-, rfl⟩ := Prod.mk.inj h
    refine ⟨rfl, ?_⟩
    have hproduced := (Flate.bounded s.coder s.input _ q (by rw [hcall])).2
    rw [List.length_append]
    omega

/-- **The loop comes to no more than that.** -/
theorem comes_of_turns {limit n : ℕ} {x : X} {input : List UInt8} {capacity : ℕ} {s : Coding X}
    (h : (⟨x, input, [], capacity⟩ : Coding X).turns limit n = (none, s)) :
    Comes limit input.length capacity s.input.length s.out.length s.capacity := by
  induction n generalizing s with
  | zero =>
      obtain ⟨-, rfl⟩ := Prod.mk.inj h
      exact .start
  | succ n ih =>
      obtain ⟨u, hu, hturn⟩ := exists_of_turns_succ h
      rcases turn_cases limit u with ⟨-, hcase⟩ | ⟨hlimit, ⟨t, -, hcase⟩ | ⟨p, t, hfeed,
        hcase | ⟨-, -, hcase⟩ | ⟨-, hmore, hprogress, hcase⟩⟩⟩
      · cases hcase.symm.trans hturn
      · cases hcase.symm.trans hturn
      · cases hcase.symm.trans hturn
      · cases hcase.symm.trans hturn
      · obtain ⟨-, rfl⟩ := Prod.mk.inj (hcase.symm.trans hturn)
        obtain ⟨_, -, -, hconsumed, hinput, hout⟩ := feed_spec hfeed
        obtain ⟨hcapacity, hroom⟩ := capacity_of_feed hfeed
        have hnext := (ih hu).turn (not_lt.mp hlimit) hconsumed
          (show _ + p.produced.length ≤ _ by rwa [hout, List.length_append] at hroom) (by
            by_cases hproduced : p.produced = []
            · refine Or.inr ⟨Nat.pos_of_ne_zero fun hzero => hprogress ⟨hzero, hproduced⟩, ?_⟩
              have hleft := List.length_pos_iff.mpr fun hnil => hmore ⟨hnil, hproduced⟩
              rw [hinput, List.length_drop] at hleft
              omega
            · exact Or.inl (List.length_pos_iff.mpr hproduced))
        rw [hinput, hout, hcapacity, List.length_drop, List.length_append]
        exact hnext

/-! ### An inflater that does as it is told -/

/-- How much it is to take and to write, call by call. -/
structure Told where
  /-- What it is told. -/
  orders : List (ℕ × ℕ)

instance : Flate Told where
  new := ⟨[]⟩
  reset x := x
  call x input room :=
    match x.orders with
    | [] => (none, x)
    | (consumed, produced) :: orders =>
        if consumed ≤ input.length ∧ produced ≤ room then
          (some ⟨.ok, consumed, List.replicate produced 0⟩, ⟨orders⟩)
        else (none, ⟨orders⟩)
  bounded x input room p h := by
    split at h
    · cases h
    split at h
    · next hfits =>
      obtain rfl := Option.some.inj h
      rw [List.length_replicate]
      exact hfits
    · cases h

/-- A call that can do as it is told. -/
theorem feed_told {additional consumed produced : ℕ} {orders : List (ℕ × ℕ)}
    {input out : List UInt8} {capacity : ℕ} (hconsumed : consumed ≤ input.length)
    (hproduced : out.length + produced ≤ Allocator.reserve out.length capacity additional) :
    (⟨⟨(consumed, produced) :: orders⟩, input, out, capacity⟩ : Coding Told).feed additional =
      (some ⟨.ok, consumed, List.replicate produced 0⟩,
        ⟨⟨orders⟩, input.drop consumed, out ++ List.replicate produced 0,
          Allocator.reserve out.length capacity additional⟩) := by
  refine @feed_of_call _ Told _ additional ⟨⟨(consumed, produced) :: orders⟩, input, out, capacity⟩
    ⟨.ok, consumed, List.replicate produced 0⟩ ⟨orders⟩ ?_
  exact if_pos ⟨hconsumed, by dsimp only; omega⟩

/-- **A turn in which as much is written as there is room for.** -/
theorem length_turn_told {limit : ℕ} {input out : List UInt8} {capacity : ℕ}
    (hlimit : out.length ≤ limit) :
    ((⟨⟨[(0, Allocator.reserve out.length capacity (reservation limit out.length) -
        out.length)]⟩, input, out, capacity⟩ : Coding Told).turn limit).2.out.length =
      Allocator.reserve out.length capacity (reservation limit out.length) := by
  have hroom := Allocator.le_reserve out.length capacity (reservation limit out.length)
  have hfeed := @feed_told _ (reservation limit out.length) 0
    (Allocator.reserve out.length capacity (reservation limit out.length) - out.length) [] input
    out capacity (Nat.zero_le _) (by omega)
  rw [snd_turn_of_feed (not_lt.mpr hlimit) hfeed, List.length_append, List.length_replicate]
  omega

/-- **Everything the loop can come to, it comes to** when the inflater is told so. -/
theorem exists_told {limit size capacity left len room : ℕ}
    (h : Comes limit size capacity left len room) :
    ∃ orders n, ∀ more (input : List UInt8), input.length = size →
      ∃ input' out, input'.length = left ∧ out.length = len ∧
        (⟨⟨orders ++ more⟩, input, [], capacity⟩ : Coding Told).turns limit n =
          (none, ⟨⟨more⟩, input', out, room⟩) := by
  induction h with
  | start => exact ⟨[], 0, fun more input hsize => ⟨input, [], hsize, rfl, rfl⟩⟩
  | @turn left len room consumed produced _ hlimit hconsumed hproduced hprogress ih =>
      obtain ⟨orders, n, hreach⟩ := ih
      refine ⟨orders ++ [(consumed, produced)], n + 1, fun more input hsize => ?_⟩
      obtain ⟨input', out, rfl, rfl, hturns⟩ := hreach ((consumed, produced) :: more) input hsize
      refine ⟨input'.drop consumed, out ++ List.replicate produced 0, List.length_drop, ?_, ?_⟩
      · rw [List.length_append, List.length_replicate]
      rw [List.append_assoc, List.singleton_append, turns_succ_of_none hturns, turn,
        if_neg (not_lt.mpr hlimit), feed_told hconsumed hproduced]
      dsimp only
      rw [if_neg (by decide), if_neg, if_neg]
      · rintro ⟨rfl, hnil⟩
        rw [List.replicate_eq_nil_iff] at hnil
        omega
      · rintro ⟨hdrop, hnil⟩
        rw [List.replicate_eq_nil_iff] at hnil
        have := List.drop_eq_nil_iff.mp hdrop
        omega

/-! ### A buffer that grows by what is reserved -/

/-- **Without growing by more than is reserved**, it is the first capacity that decides. -/
theorem roomy_iff_of_exact {limit size capacity : ℕ}
    (hexact : ∀ len room additional,
      Allocator.reserve len room additional = max room (len + additional)) :
    Roomy limit size capacity ↔ capacity ≤ limit + 256 := by
  constructor
  · intro h
    by_contra hwide
    rcases Nat.eq_zero_or_pos limit with rfl | hpos
    · have := h _ _ _ .start le_rfl
      rw [hexact, reservation] at this
      omega
    · -- the buffer is filled to the limit first
      have hfirst : limit ≤ Allocator.reserve 0 capacity (reservation limit 0) := by
        rw [hexact]
        omega
      have := h _ _ _ (Comes.start.turn (Nat.zero_le limit) (Nat.zero_le size)
        (by rwa [Nat.zero_add]) (Or.inl hpos)) (Nat.zero_add limit).le
      rw [hexact, hexact, reservation, reservation] at this
      omega
  · intro hcapacity left len room h
    have hroom : room ≤ limit + 256 := by
      induction h with
      | start => exact hcapacity
      | turn _ hlimit _ _ _ ih =>
          rw [hexact, reservation]
          omega
    intro hlimit
    rw [hexact, reservation]
    omega

end Coding

/-! ### The limit of a message -/

namespace Deflate

variable [Allocator] {D I : Type} [Flate D] [Flate I]

/-- **A message is inflated within its limit**: the loop ends, holds no more than the limit and a
reservation on the way, returns no more than the limit, and all of it, and refuses what exceeds
it. -/
structure Bounded (d : Deflate D I) (payload : List UInt8) (limit : ℕ) : Prop where
  /-- It ends. -/
  ends : ∃ n ≤ payload.length + limit + 6, ∃ s,
    (d.inflating payload).turns limit n = (some (d.decompress payload limit).1, s)
  /-- What is in the buffer after a turn that wrote into it. -/
  holds : ∀ n s, (d.inflating payload).turns limit n = (none, s) → s.out.length ≤ limit →
    (s.turn limit).2.out.length ≤ limit + Coding.reservation limit s.out.length
  /-- What is returned has been written, and is within the limit. -/
  returns : ∀ n s out, (d.inflating payload).turns limit n = (some (.ok out), s) →
    out = s.out ∧ out.length ≤ limit
  /-- What exceeds the limit is refused. -/
  refuses : ∀ n, limit < ((d.inflating payload).turns limit n).2.out.length →
    (d.decompress payload limit).1 = .error .tooLarge

omit [Flate D] in
/-- A turn leaves no more than there is room for. -/
theorem holds_of_roomy {d : Deflate D I} {payload : List UInt8} {limit n : ℕ} {s : Coding I}
    (hroomy : Coding.Roomy limit (payload.length + 4) (Allocator.withCapacity (payload.length * 4)))
    (h : (d.inflating payload).turns limit n = (none, s)) (hlimit : s.out.length ≤ limit) :
    (s.turn limit).2.out.length ≤ limit + Coding.reservation limit s.out.length := by
  have hsize : (payload ++ deflateTail).length = payload.length + 4 := by
    rw [List.length_append]
    rfl
  have hcomes := Coding.comes_of_turns h
  rw [hsize] at hcomes
  rcases hfeed : s.feed (Coding.reservation limit s.out.length) with ⟨_ | p, t⟩
  · -- a call that fails writes nothing
    have hturn : (s.turn limit).2 = t := by
      rw [Coding.turn, if_neg (not_lt.mpr hlimit), hfeed]
    rw [hturn, Coding.out_of_feed_none hfeed]
    omega
  · rw [Coding.snd_turn_of_feed (not_lt.mpr hlimit) hfeed]
    exact (Coding.capacity_of_feed hfeed).2.trans (hroomy _ _ _ hcomes hlimit)

/-- **A message is inflated within its limit by every inflater** if and only if no reservation
leaves more room than the limit and itself, whatever has been read and written by then. All else
holds in any case. -/
theorem decompress_bounded_iff (payload : List UInt8) (limit : ℕ) :
    (∀ (D I : Type) [Flate D] [Flate I] (d : Deflate D I), d.Bounded payload limit) ↔
      Coding.Roomy limit (payload.length + 4) (Allocator.withCapacity (payload.length * 4)) := by
  have hsize : (payload ++ deflateTail).length = payload.length + 4 := by
    rw [List.length_append]
    rfl
  constructor
  · intro h left len room hcomes hlimit
    obtain ⟨orders, n, hreach⟩ := Coding.exists_told hcomes
    -- the last order is to write as much as there is room for
    obtain ⟨input', out, -, rfl, hturns⟩ := hreach
      [(0, Allocator.reserve len room (Coding.reservation limit len) - len)]
      (payload ++ deflateTail) hsize
    have hholds := (h Coding.Told Coding.Told ⟨⟨[]⟩, ⟨orders ++ _⟩, false, false⟩).holds n _ hturns
      hlimit
    rwa [Coding.length_turn_told hlimit] at hholds
  · intro hroomy D I _ _ d
    have hinput : (d.inflating payload).input.length +
        (limit + 1 - (d.inflating payload).out.length) < payload.length + limit + 6 := by
      change (payload ++ deflateTail).length + (limit + 1 - 0) < _
      omega
    exact {
      ends := by
        obtain ⟨result, s, hturns, hinflate⟩ := Coding.turns_isSome limit _ _ hinput
        refine ⟨_, le_rfl, s, ?_⟩
        rw [hturns, decompress, hinflate]
      holds := fun n s h hlimit => holds_of_roomy hroomy h hlimit
      returns := fun n s out h => (Coding.turns_limit h).1 out rfl
      refuses := fun n hlimit => (Coding.turns_limit rfl).2 hlimit }

end Deflate

end OcppKit.Ws

namespace OcppKit.Reference

open OcppKit.Ws

/-! ### Four times its length -/

/-- Three hundred thousand bytes, which are inflated to four times as many. -/
def fourfold : Deflate Coding.Told Coding.Told := ⟨⟨[]⟩, ⟨[(300004, 1200000)]⟩, false, false⟩

/-- **A buffer of four times the length is filled at once**, far past the limit of a mebibyte and
the greatest reservation. -/
theorem decompress_overshoots : ¬∀ (d : Deflate Coding.Told Coding.Told) (payload : List UInt8)
    (limit : ℕ), d.Bounded payload limit := by
  intro h
  obtain ⟨payload, hlength⟩ : ∃ payload : List UInt8, payload.length = 300000 :=
    ⟨List.replicate 300000 0, List.length_replicate⟩
  have hfeed := @Coding.feed_told _ (Coding.reservation (2 ^ 20) 0) 300004 1200000 []
    (payload ++ deflateTail) [] (payload.length * 4)
    (by rw [List.length_append, hlength]; decide) (by rw [hlength]; decide)
  have hheld := (h fourfold payload (2 ^ 20)).holds 0 _ rfl (Nat.zero_le _)
  have hturn : ((fourfold.inflating payload).turn (2 ^ 20)).2 = _ :=
    Coding.snd_turn_of_feed (Nat.not_lt_zero _) hfeed
  rw [hturn, List.length_append, List.length_replicate,
    show (fourfold.inflating payload).out = [] from rfl] at hheld
  exact absurd hheld (by decide)

end OcppKit.Reference
