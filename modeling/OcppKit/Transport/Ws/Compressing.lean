import OcppKit.Transport.Ws.Deflate

/-!
# Compressing messages

A compressor that is flushed owes a stream for a message (`OcppKit.Ws.Coding.Emits`), and writes
it in pieces as there is room. The loop that collects them judges by what it has so far: once the
input is taken, a call that writes nothing is the last, and so is one after which there are the
four bytes a stream ends with. Those four bytes may stand anywhere in a stream. Where a piece ends
with them, the rest of the stream is left for the next message to begin with
(`OcppKit.Ws.Coding.StopsEarly`), and that is all that can go wrong
(`OcppKit.Ws.Deflate.compress_iff`).
-/

namespace OcppKit.Ws

/-! ### What a compressor owes -/

namespace Coding

variable [Allocator] {X : Type} [Flate X]

/-- **A compressor that owes a stream**: for what is left of the input it has this stream to write,
and however much room there is, a call writes a part of it. -/
structure Emits (owes : X → List UInt8 → List UInt8 → Prop) : Prop where
  /-- The stream is fixed. -/
  unique : ∀ {x : X} {input stream stream' : List UInt8},
    owes x input stream → owes x input stream' → stream = stream'
  /-- A call takes something or writes something, as long as there is something to take or to
  write, and a flush does not end the stream. -/
  call : ∀ {x : X} {input stream : List UInt8} {room : ℕ}, owes x input stream → 0 < room →
    ∃ p x', Flate.call x input room = (some p, x') ∧ p.status ≠ .streamEnd ∧
      p.produced <+: stream ∧
      owes x' (input.drop p.consumed) (stream.drop p.produced.length) ∧
      (input ≠ [] ∨ stream ≠ [] → p.consumed ≠ 0 ∨ p.produced ≠ [])

/-- **A call ends with the input taken and a part of the stream still owed, and looks like the
last**: nothing was written, or what is written ends with the tail. -/
inductive StopsEarly (stream : List UInt8) : Coding X → Prop where
  /-- The next call does. -/
  | now {s s' : Coding X} {p : Progress} (h : s.feed 256 = (some p, s')) (hinput : s'.input = [])
      (hshort : s'.out.length < stream.length)
      (hstop : p.produced = [] ∨ deflateTail <:+ s'.out) : StopsEarly stream s
  /-- A later call does. -/
  | later {s s' : Coding X} {p : Progress} (h : s.feed 256 = (some p, s'))
      (hlater : StopsEarly stream s') : StopsEarly stream s

variable {owes : X → List UInt8 → List UInt8 → Prop}

/-- A call of a compressor that owes a stream. -/
theorem Emits.feed (h : Emits owes) {s : Coding X} {stream : List UInt8}
    (howes : owes s.coder s.input stream) :
    ∃ p s', s.feed 256 = (some p, s') ∧ p.status ≠ .streamEnd ∧ p.consumed ≤ s.input.length ∧
      s'.input = s.input.drop p.consumed ∧ s'.out = s.out ++ p.produced ∧
      p.produced ++ stream.drop p.produced.length = stream ∧
      owes s'.coder s'.input (stream.drop p.produced.length) ∧
      (s.input ≠ [] ∨ stream ≠ [] → p.consumed ≠ 0 ∨ p.produced ≠ []) := by
  have hroom := Allocator.le_reserve s.out.length s.capacity 256
  obtain ⟨p, x', hcall, hstatus, hfirst, howes', hprogress⟩ := h.call howes
    (show 0 < Allocator.reserve s.out.length s.capacity 256 - s.out.length by omega)
  have hfeed := feed_of_call hcall
  obtain ⟨_, -, -, hconsumed, -⟩ := feed_spec hfeed
  have hjoin : p.produced ++ stream.drop p.produced.length = stream := by
    obtain ⟨rest, rfl⟩ := hfirst
    rw [List.drop_left]
  exact ⟨p, _, hfeed, hstatus, hconsumed, rfl, rfl, hjoin, howes', hprogress⟩

/-- A compressor that owes nothing has been called often enough. -/
theorem Emits.not_stopsEarly (h : Emits owes) {s : Coding X} (howes : owes s.coder s.input []) :
    ¬StopsEarly s.out s := by
  intro hstops
  generalize hstream : s.out = stream at hstops
  induction hstops with
  | @now s s' p hfeed hinput hshort hstop =>
      obtain ⟨q, t, hcall, -, -, -, hout, -, -⟩ := h.feed howes
      rw [hfeed] at hcall
      obtain ⟨hq, rfl⟩ := Prod.mk.inj hcall
      rw [hout, List.length_append, hstream] at hshort
      omega
  | @later s s' p hfeed hlater ih =>
      obtain ⟨q, t, hcall, -, -, -, hout, hjoin, howes', -⟩ := h.feed howes
      rw [hfeed] at hcall
      obtain ⟨hq, rfl⟩ := Prod.mk.inj hcall
      have hnone : q.produced = [] := (List.append_eq_nil_iff.mp hjoin).1
      rw [hnone] at hout howes'
      refine ih howes' ?_
      rw [hout, List.append_nil, hstream]

/-- **What the loop does with a compressor that owes a stream**: it ends, with the whole stream
unless it stops early. The induction is on what is left to take and to write. -/
theorem deflate_spec (h : Emits owes) {stream : List UInt8} (n : ℕ) {s : Coding X}
    {owed : List UInt8} (howes : owes s.coder s.input owed) (hout : s.out ++ owed = stream)
    (hn : s.input.length + owed.length ≤ n) :
    ∃ out x left, (∀ fuel, n < fuel → s.deflate fuel = some (.ok out, x)) ∧ owes x [] left ∧
      out ++ left = stream ∧ (left = [] ↔ ¬StopsEarly stream s) := by
  induction n using Nat.strong_induction_on generalizing s owed with
  | _ n ih =>
  obtain ⟨p, s', hfeed, hstatus, hconsumed, hinput, hout', hjoin, howes', hprogress⟩ :=
    h.feed howes
  have hwhole : s'.out ++ owed.drop p.produced.length = stream := by
    rw [hout', List.append_assoc, hjoin, hout]
  -- the two tests that end the loop
  by_cases hstop : s'.input = [] ∧ (p.produced = [] ∨ deflateTail <:+ s'.out)
  · refine ⟨s'.out, s'.coder, owed.drop p.produced.length, ?_, hstop.1 ▸ howes', hwhole, ?_⟩
    · rintro (_ | fuel) hfuel
      · omega
      rw [deflate, hfeed]
      by_cases hnone : p.produced = []
      · exact if_pos ⟨hstop.1, Or.inl hnone⟩
      · have htail := hstop.2.resolve_left hnone
        simp only [hstop.1, hnone, hstatus, List.isSuffixOf_iff_suffix.mpr htail, or_self,
          and_false, if_false, and_self, if_true]
    · constructor
      · intro hnone
        rw [hnone, List.append_nil] at hwhole
        rw [hnone] at howes'
        have hdone := h.not_stopsEarly howes'
        rw [hwhole] at hdone
        rintro (⟨hcall, -, hshort, -⟩ | ⟨hcall, hlater⟩)
        · rw [hfeed] at hcall
          obtain ⟨-, rfl⟩ := Prod.mk.inj hcall
          rw [hwhole] at hshort
          omega
        · rw [hfeed] at hcall
          obtain ⟨-, rfl⟩ := Prod.mk.inj hcall
          exact hdone hlater
      · intro hlast
        by_contra hleft
        have hpos := List.length_pos_iff.mpr hleft
        have hlength := congrArg List.length hwhole
        rw [List.length_append] at hlength
        exact hlast (.now hfeed hstop.1 (by omega) hstop.2)
  · have hmore : p.consumed ≠ 0 ∨ p.produced ≠ [] := by
      refine hprogress ?_
      by_contra hnothing
      rw [not_or, not_not, not_not] at hnothing
      refine hstop ⟨?_, Or.inl ?_⟩
      · rw [hinput, hnothing.1, List.drop_nil]
      · rw [hnothing.2] at hjoin
        exact (List.append_eq_nil_iff.mp hjoin).1
    have hless : s'.input.length + (owed.drop p.produced.length).length <
        s.input.length + owed.length := by
      have hlength := congrArg List.length hjoin
      rw [List.length_append] at hlength
      rw [hinput, List.length_drop (i := p.consumed)]
      rcases hmore with hmore | hmore
      · omega
      · have := List.length_pos_iff.mpr hmore
        omega
    obtain ⟨out, x, left, hrun, howed, hall, hiff⟩ :=
      ih _ (hless.trans_le hn) howes' hwhole le_rfl
    refine ⟨out, x, left, ?_, howed, hall, hiff.trans (not_congr ?_)⟩
    · rintro (_ | fuel) hfuel
      · omega
      rw [deflate, hfeed]
      dsimp only
      rw [if_neg, if_neg, if_neg, hrun fuel (by omega)]
      · rintro ⟨hzero, hnone⟩
        exact hmore.elim (fun h => h hzero) fun h => h hnone
      · rintro ⟨hempty, htail⟩
        exact hstop ⟨hempty, Or.inr (List.isSuffixOf_iff_suffix.mp htail)⟩
      · rintro ⟨hempty, hnone | hend⟩
        · exact hstop ⟨hempty, Or.inl hnone⟩
        · exact hstatus hend
    · constructor
      · exact fun hlater => .later hfeed hlater
      · rintro (⟨hcall, hempty, -, hlast⟩ | ⟨hcall, hlater⟩)
        · rw [hfeed] at hcall
          obtain ⟨hp, rfl⟩ := Prod.mk.inj hcall
          obtain rfl := Option.some.inj hp
          exact absurd ⟨hempty, hlast⟩ hstop
        · rw [hfeed] at hcall
          obtain ⟨-, rfl⟩ := Prod.mk.inj hcall
          exact hlater

end Coding

namespace Deflate

variable [Allocator] {D I : Type} [Flate D] [Flate I]

/-! ### Compressing a message -/

/-- What a stream is sent as: without its tail, and a zero when there is none. -/
def sent (stream : List UInt8) : List UInt8 :=
  if stream = [] then [0x00] else stream.take (stream.length - deflateTail.length)

omit [Allocator] in
theorem trimTail_eq_sent {stream : List UInt8} (h : stream = [] ∨ deflateTail <:+ stream) :
    trimTail stream = sent stream := by
  rcases h with rfl | htail
  · rfl
  · have hne : stream ≠ [] := by
      rintro rfl
      exact absurd htail (by decide)
    rw [trimTail, if_pos (List.isSuffixOf_iff_suffix.mpr htail), sent, if_neg hne]

omit [Flate I] in
/-- A message that a compressor owes a stream for is compressed after finitely many calls. -/
theorem exists_compress {owes : D → List UInt8 → List UInt8 → Prop} (h : Coding.Emits owes)
    (d : Deflate D I) {payload stream : List UInt8}
    (howes : owes (d.deflating payload).coder payload stream) :
    ∃ out x left, (∀ fuel, payload.length + stream.length < fuel →
        d.compress fuel payload = some (.ok (trimTail out), { d with compressor := x })) ∧
      owes x [] left ∧ out ++ left = stream ∧
      (left = [] ↔ ¬(d.deflating payload).StopsEarly stream) := by
  obtain ⟨out, x, left, hrun, howed, hall, hiff⟩ :=
    Coding.deflate_spec h _ (s := d.deflating payload) howes (List.nil_append _) le_rfl
  refine ⟨out, x, left, fun fuel hfuel => ?_, howed, hall, hiff⟩
  rw [compress, hrun fuel hfuel]
  rfl

omit [Flate I] in
/-- **It is compressed whole just when the loop is not left early.** -/
theorem whole_iff {owes : D → List UInt8 → List UInt8 → Prop} (h : Coding.Emits owes)
    (d : Deflate D I) {payload stream : List UInt8}
    (howes : owes (d.deflating payload).coder payload stream)
    (hstream : stream = [] ∨ deflateTail <:+ stream) :
    (∃ n, ∀ fuel, n < fuel → ∃ d', d.compress fuel payload = some (.ok (sent stream), d') ∧
        owes d'.compressor [] []) ↔
      ¬(d.deflating payload).StopsEarly stream := by
  obtain ⟨out, x, left, hcompress, howed, hall, hiff⟩ := exists_compress h d howes
  rw [← hiff]
  constructor
  · rintro ⟨n, hn⟩
    obtain ⟨d', hd', howed'⟩ := hn (max n (payload.length + stream.length) + 1) (by omega)
    rw [hcompress _ (by omega)] at hd'
    obtain rfl := (Prod.mk.inj (Option.some.inj hd')).2
    exact h.unique howed howed'
  · rintro rfl
    rw [List.append_nil] at hall
    refine ⟨payload.length + stream.length, fun fuel hfuel =>
      ⟨{ d with compressor := x }, ?_, howed⟩⟩
    rw [hcompress fuel hfuel, hall, trimTail_eq_sent hstream]

omit [Flate I] in
/-- **Every message is compressed, and whole just when the loop is not left early.** For every
compressor that owes a stream for a message, the loop ends; and it returns the stream as it is
sent, with nothing left to write, if and only if no call takes the last of the input, leaves a
part of the stream, and writes nothing or ends with the tail. -/
theorem compress_iff {owes : D → List UInt8 → List UInt8 → Prop} (h : Coding.Emits owes)
    (d : Deflate D I) {payload stream : List UInt8}
    (howes : owes (d.deflating payload).coder payload stream)
    (hstream : stream = [] ∨ deflateTail <:+ stream) :
    (∃ n, ∀ fuel, n < fuel → (d.compress fuel payload).isSome) ∧
    ((∃ n, ∀ fuel, n < fuel → ∃ d', d.compress fuel payload = some (.ok (sent stream), d') ∧
        owes d'.compressor [] []) ↔
      ¬(d.deflating payload).StopsEarly stream) := by
  obtain ⟨out, x, left, hcompress, -⟩ := exists_compress h d howes
  refine ⟨⟨payload.length + stream.length, fun fuel hfuel => ?_⟩, whole_iff h d howes hstream⟩
  rw [hcompress fuel hfuel]
  rfl

end Deflate

end OcppKit.Ws

namespace OcppKit.Reference

open OcppKit.Ws

/-! ### Blocks that are stored -/

/-- A compressor that stores its input, and what it has not written yet. -/
structure StoredDeflater where
  /-- What is still to be written. -/
  pending : List UInt8

/-- The head of a block that is stored: its length, and the complement of its length. -/
def storedHead (len : ℕ) : List UInt8 :=
  [0x00, UInt8.ofNat len, UInt8.ofNat (len / 256), 255 - UInt8.ofNat len,
    255 - UInt8.ofNat (len / 256)]

/-- What an input is written as: its block, and the empty one of a flush. -/
def storedStream (input : List UInt8) : List UInt8 :=
  if input = [] then []
  else storedHead input.length ++ input ++ [0x00] ++ deflateTail

instance : Flate StoredDeflater where
  new := ⟨[]⟩
  reset _ := ⟨[]⟩
  call d input room :=
    (some ⟨.ok, input.length, (d.pending ++ storedStream input).take room⟩,
      ⟨(d.pending ++ storedStream input).drop room⟩)
  bounded d input room p h := by
    obtain rfl := Option.some.inj h
    exact ⟨le_rfl, List.length_take_le _ _⟩

/-- What it owes. -/
def StoredDeflater.owes (d : StoredDeflater) (input stream : List UInt8) : Prop :=
  stream = d.pending ++ storedStream input

theorem emits_storedDeflater : Coding.Emits StoredDeflater.owes where
  unique h h' := h.trans h'.symm
  call := by
    rintro d input stream room rfl hroom
    refine ⟨_, _, rfl, nofun, List.take_prefix _ _, ?_, ?_⟩
    · rw [StoredDeflater.owes, List.drop_length, List.length_take]
      rcases le_total room (d.pending ++ storedStream input).length with hle | hle
      · rw [min_eq_left hle]
        exact (List.append_nil _).symm
      · rw [min_eq_right hle, List.drop_length, List.drop_of_length_le hle]
        rfl
    · rintro (hinput | hstream)
      · exact Or.inl (List.length_pos_iff.mpr hinput).ne'
      · refine Or.inr fun hnone => ?_
        rcases List.take_eq_nil_iff.mp hnone with hzero | hempty
        · omega
        · exact hstream hempty

/-- A stream that fits into the first buffer is written with the first call. -/
theorem not_stopsEarly_of_short {s : Coding StoredDeflater} (hpending : s.coder.pending = [])
    (hout : s.out = []) (hshort : (storedStream s.input).length ≤ 256) :
    ¬s.StopsEarly (storedStream s.input) := by
  have hcalled : ∀ {p s'}, s.feed 256 = (some p, s') →
      s'.out = storedStream s.input ∧ s'.coder.owes s'.input [] := by
    intro p s' hcall
    obtain ⟨room, hroom, hflate, -, hinput, hout'⟩ := Coding.feed_spec hcall
    obtain ⟨hp, hcoder⟩ := Prod.mk.inj hflate
    obtain rfl := Option.some.inj hp
    rw [hpending, List.nil_append] at hout' hcoder
    rw [List.take_of_length_le (by omega), hout, List.nil_append] at hout'
    rw [List.drop_of_length_le (by omega)] at hcoder
    refine ⟨hout', ?_⟩
    rw [hinput, ← hcoder, List.drop_length]
    rfl
  rintro (⟨hcall, -, hless, -⟩ | ⟨hcall, hlater⟩)
  · rw [(hcalled hcall).1] at hless
    exact lt_irrefl _ hless
  · obtain ⟨hwritten, howes⟩ := hcalled hcall
    rw [← hwritten] at hlater
    exact emits_storedDeflater.not_stopsEarly howes hlater

/-- **Two bytes are compressed**: a block of theirs, and the empty block of the flush without its
tail. -/
theorem compress_iff_hi :
    ∃ n, ∀ fuel, n < fuel → ∃ d' : Deflate StoredDeflater StoredDeflater,
      (Deflate.new {} .client).compress fuel [0x68, 0x69] =
        some (.ok [0x00, 0x02, 0x00, 0xFD, 0xFF, 0x68, 0x69, 0x00], d') ∧
      d'.compressor.owes [] [] :=
  have howes : StoredDeflater.owes ⟨[]⟩ [0x68, 0x69] (storedStream [0x68, 0x69]) := rfl
  (Deflate.compress_iff emits_storedDeflater
    (Deflate.new {} .client : Deflate StoredDeflater StoredDeflater) howes
    (Or.inr (by decide))).2.mpr
    (not_stopsEarly_of_short (s := ⟨⟨[]⟩, [0x68, 0x69], [], _⟩) rfl rfl (by decide))

/-- The first call, with a buffer of 256 bytes. -/
theorem feed_storedDeflater (input : List UInt8) :
    Coding.feed 256 (⟨⟨[]⟩, input, [], 256⟩ : Coding StoredDeflater) =
      (some ⟨.ok, input.length, (storedStream input).take 256⟩,
        ⟨⟨(storedStream input).drop 256⟩, [], (storedStream input).take 256, 256⟩) := by
  have hcall : Flate.call (⟨[]⟩ : StoredDeflater) input 256 =
      (some ⟨.ok, input.length, (storedStream input).take 256⟩,
        ⟨(storedStream input).drop 256⟩) := rfl
  have hfeed := @Coding.feed_of_call _ StoredDeflater _ 256 ⟨⟨[]⟩, input, [], 256⟩ _ _ hcall
  rwa [List.drop_length, List.nil_append] at hfeed

/-- The bytes before a tail that is none. -/
def looksDoneFront : List UInt8 := List.replicate 247 0x07

/-- A message whose block has the tail where the first buffer is full. -/
def looksDone : List UInt8 := looksDoneFront ++ (deflateTail ++ List.replicate 229 0x07)

theorem length_looksDone : looksDone.length = 480 := by
  rw [looksDone, looksDoneFront, List.length_append, List.length_append, List.length_replicate,
    List.length_replicate]
  rfl

/-- **The first buffer of a message ends with the tail**, and is all that is sent of it. -/
theorem compress_looksDone :
    ¬∃ n, ∀ fuel, n < fuel → ∃ d' : Deflate StoredDeflater StoredDeflater,
      (Deflate.new {} .client).compress fuel looksDone =
        some (.ok (Deflate.sent (storedStream looksDone)), d') ∧ d'.compressor.owes [] [] := by
  have hne : looksDone ≠ [] := List.ne_nil_of_length_pos (by rw [length_looksDone]; norm_num)
  have hstream : storedStream looksDone =
      storedHead 480 ++ looksDone ++ [0x00] ++ deflateTail := by
    rw [storedStream, if_neg hne, length_looksDone]
  -- the head of the block, the bytes before the tail, and the tail fill the buffer
  have hfirst : (storedStream looksDone).take 256 =
      storedHead 480 ++ looksDoneFront ++ deflateTail := by
    have hparts : storedStream looksDone = (storedHead 480 ++ looksDoneFront ++ deflateTail) ++
        (List.replicate 229 0x07 ++ [0x00] ++ deflateTail) := by
      rw [hstream, looksDone]
      simp only [List.append_assoc]
    rw [hparts, List.take_left']
    rw [List.length_append, List.length_append, looksDoneFront, List.length_replicate]
    rfl
  have howes : StoredDeflater.owes ⟨[]⟩ looksDone (storedStream looksDone) :=
    (List.nil_append _).symm
  rw [Deflate.whole_iff emits_storedDeflater
    (Deflate.new {} .client : Deflate StoredDeflater StoredDeflater) howes
    (Or.inr (hstream ▸ List.suffix_append _ _)), not_not]
  have hcapacity : looksDone.length / 2 + 16 = 256 := by rw [length_looksDone]
  change Coding.StopsEarly _
    (⟨⟨[]⟩, looksDone, [], looksDone.length / 2 + 16⟩ : Coding StoredDeflater)
  rw [hcapacity]
  refine .now (feed_storedDeflater looksDone) rfl ?_ (Or.inr ?_)
  · change ((storedStream looksDone).take 256).length < _
    rw [hstream, List.length_take, List.length_append, List.length_append, List.length_append,
      length_looksDone]
    decide
  · change _ <:+ (storedStream looksDone).take 256
    rw [hfirst]
    exact List.suffix_append _ _

end OcppKit.Reference
