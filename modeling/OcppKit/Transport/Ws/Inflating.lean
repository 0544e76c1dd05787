import OcppKit.Transport.Ws.Compressing

/-!
# Inflating messages

The loop ends with the input, or with the stream. A peer may end its stream with a message, and
then what follows the end is never looked at: the byte of an empty block, or a whole second
stream. And the inflater stays at its end. Unless it is reset between messages, it has nothing to
say about a later one, and that is taken for an empty message
(`OcppKit.Ws.Deflate.decompress_afterEnd`). Where no stream ends early
(`OcppKit.Ws.Coding.EndsEarly`), every byte is taken and everything written is returned
(`OcppKit.Ws.Deflate.decompress_complete_iff`).
-/

namespace OcppKit.Ws

namespace Coding

variable [Allocator] {X : Type} [Flate X]

/-! ### What an inflater takes -/

/-- **The stream ends before the input is taken**, but for the tail at its end. -/
inductive EndsEarly (limit : ℕ) : Coding X → Prop where
  /-- With the next call. -/
  | now {s s' : Coding X} {p : Progress}
      (h : s.feed (reservation limit s.out.length) = (some p, s')) (hend : p.status = .streamEnd)
      (hleft : deflateTail.length < s'.input.length) : EndsEarly limit s
  /-- With a later one. -/
  | later {s s' : Coding X} {p : Progress}
      (h : s.feed (reservation limit s.out.length) = (some p, s')) (hgoes : p.status ≠ .streamEnd)
      (hlater : EndsEarly limit s') : EndsEarly limit s

/-- There is nothing to end early. -/
theorem not_endsEarly_of_nil {limit : ℕ} {s : Coding X} (h : s.input = []) :
    ¬EndsEarly limit s := by
  intro hearly
  induction hearly with
  | now hfeed _ hleft =>
      obtain ⟨_, -, -, -, hinput, -⟩ := feed_spec hfeed
      rw [hinput, h, List.drop_nil] at hleft
      exact absurd hleft (Nat.not_lt_zero _)
  | later hfeed _ _ ih =>
      obtain ⟨_, -, -, -, hinput, -⟩ := feed_spec hfeed
      refine ih ?_
      rw [hinput, h, List.drop_nil]

/-- After a call that does not end the stream, it is the next one that may. -/
theorem endsEarly_iff_of_feed {limit : ℕ} {s s' : Coding X} {p : Progress}
    (h : s.feed (reservation limit s.out.length) = (some p, s')) (hgoes : p.status ≠ .streamEnd) :
    EndsEarly limit s ↔ EndsEarly limit s' := by
  constructor
  · rintro (⟨hcall, hend, -⟩ | ⟨hcall, -, hlater⟩)
    · rw [h] at hcall
      obtain ⟨hp, -⟩ := Prod.mk.inj hcall
      obtain rfl := Option.some.inj hp
      exact absurd hend hgoes
    · rw [h] at hcall
      obtain ⟨-, rfl⟩ := Prod.mk.inj hcall
      exact hlater
  · exact .later h hgoes

omit [Allocator] in
theorem eq_of_withinLimit {limit : ℕ} {bytes out : List UInt8}
    (h : withinLimit limit bytes = .ok out) : bytes = out := by
  rw [withinLimit] at h
  split at h
  · cases h
  · exact Except.ok.inj h

/-- The loop ends with the stream. -/
theorem inflate_of_streamEnd {limit : ℕ} {s s' : Coding X} {p : Progress}
    (hlimit : ¬limit < s.out.length)
    (h : s.feed (reservation limit s.out.length) = (some p, s')) (hend : p.status = .streamEnd) :
    s.inflate limit = (withinLimit limit s'.out, s'.coder) := by
  rw [inflate, dif_neg hlimit]
  split
  · next hnone => cases h.symm.trans hnone
  next q t hcall =>
  rw [h] at hcall
  obtain ⟨hq, rfl⟩ := Prod.mk.inj hcall
  obtain rfl := Option.some.inj hq
  exact if_pos hend

/-- Whether a call is the last. -/
def Last (p : Progress) (s' : Coding X) : Prop :=
  p.status = .streamEnd ∨ (s'.input = [] ∧ p.produced = []) ∨ (p.consumed = 0 ∧ p.produced = [])

/-- What a call adds to the reports. -/
theorem reports_of_feed {limit : ℕ} {s s' : Coding X} {p : Progress}
    (hlimit : ¬limit < s.out.length)
    (h : s.feed (reservation limit s.out.length) = (some p, s')) :
    (Last p s' → s.reports limit = [p]) ∧ (¬Last p s' → s.reports limit = p :: s'.reports limit) := by
  rw [reports, dif_neg hlimit]
  split
  · next hnone => cases h.symm.trans hnone
  next q t hcall =>
  rw [h] at hcall
  obtain ⟨hq, rfl⟩ := Prod.mk.inj hcall
  obtain rfl := Option.some.inj hq
  rw [Last]
  by_cases hend : p.status = .streamEnd
  · rw [if_pos hend]
    exact ⟨fun _ => rfl, fun h => absurd (Or.inl hend) h⟩
  by_cases hdone : s'.input = [] ∧ p.produced = []
  · rw [if_neg hend, if_pos hdone]
    exact ⟨fun _ => rfl, fun h => absurd (Or.inr (Or.inl hdone)) h⟩
  by_cases hstuck : p.consumed = 0 ∧ p.produced = []
  · rw [if_neg hend, if_neg hdone, dif_pos hstuck]
    exact ⟨fun _ => rfl, fun h => absurd (Or.inr (Or.inr hstuck)) h⟩
  · rw [if_neg hend, if_neg hdone, dif_neg hstuck]
    exact ⟨fun h => absurd h (by simp [hend, hdone, hstuck]), fun _ => rfl⟩

/-- **What is returned is what was written, and all was taken unless the stream ended early.** -/
theorem inflate_spec (limit : ℕ) (s : Coding X) {out : List UInt8} {x : X}
    (h : s.inflate limit = (.ok out, x)) :
    out = s.out ++ ((s.reports limit).map Progress.produced).flatten ∧
      (s.input.length ≤ ((s.reports limit).map Progress.consumed).sum + deflateTail.length ↔
        ¬EndsEarly limit s) := by
  induction hn : s.input.length + (limit + 1 - s.out.length) using Nat.strong_induction_on
    generalizing s with
  | _ n ih =>
  rw [inflate] at h
  split at h
  · cases h
  next hlimit =>
  split at h
  · cases h
  next p s' hfeed =>
  obtain ⟨_, -, -, hconsumed, hinput, hout⟩ := feed_spec hfeed
  obtain ⟨hlast, hnext⟩ := reports_of_feed hlimit hfeed
  split at h
  · next hend =>
    -- what is left when the stream ends is left for good
    obtain rfl := eq_of_withinLimit (Prod.mk.inj h).1
    rw [hlast (Or.inl hend), List.map_singleton, List.flatten_singleton, List.map_singleton,
      List.sum_singleton]
    refine ⟨hout, ?_⟩
    constructor
    · rintro hall (⟨hcall, -, hleft⟩ | ⟨hcall, hgoes, -⟩)
      · rw [hfeed] at hcall
        obtain ⟨-, rfl⟩ := Prod.mk.inj hcall
        rw [hinput, List.length_drop] at hleft
        omega
      · rw [hfeed] at hcall
        obtain ⟨hp, -⟩ := Prod.mk.inj hcall
        obtain rfl := Option.some.inj hp
        exact hgoes hend
    · intro hearly
      by_contra hless
      refine hearly (.now hfeed hend ?_)
      rw [hinput, List.length_drop]
      omega
  next hgoes =>
  rw [endsEarly_iff_of_feed hfeed hgoes]
  split at h
  · next hdone =>
    obtain rfl := eq_of_withinLimit (Prod.mk.inj h).1
    rw [hlast (Or.inr (Or.inl hdone)), List.map_singleton, List.flatten_singleton,
      List.map_singleton, List.sum_singleton]
    refine ⟨hout, iff_of_true ?_ (not_endsEarly_of_nil hdone.1)⟩
    have hempty := congrArg List.length (hinput.symm.trans hdone.1)
    rw [List.length_drop, List.length_nil] at hempty
    omega
  next hdone =>
  split at h
  · cases h
  next hprogress =>
  obtain ⟨hrest, hiff⟩ := ih _ (hn ▸ feed_decreases hfeed hlimit hprogress) s' h rfl
  rw [hnext (by simp [Last, hgoes, hdone, hprogress]), ← hiff, List.map_cons, List.flatten_cons,
    List.map_cons, List.sum_cons]
  constructor
  · rw [hrest, hout, List.append_assoc]
  · rw [hinput, List.length_drop]
    omega

end Coding

namespace Deflate

variable [Allocator] {D I : Type} [Flate D] [Flate I]

/-! ### Inflating a message -/

/-- **Nothing of a message is lost**: the inflater took every byte of the payload, and what is
returned is all that it wrote. -/
structure Complete (d : Deflate D I) (payload : List UInt8) (limit : ℕ) (out : List UInt8) :
    Prop where
  /-- The payload was taken. -/
  taken : payload.length ≤
    (((d.inflating payload).reports limit).map Progress.consumed).sum
  /-- What was written is returned. -/
  written : out = (((d.inflating payload).reports limit).map Progress.produced).flatten

omit [Flate D] in
/-- A message of any codec. -/
theorem complete_iff {d : Deflate D I} {payload : List UInt8} {limit : ℕ} {out : List UInt8}
    (h : (d.decompress payload limit).1 = .ok out) :
    d.Complete payload limit out ↔ ¬(d.inflating payload).EndsEarly limit := by
  obtain ⟨hout, hiff⟩ := Coding.inflate_spec limit (d.inflating payload)
    (show (d.inflating payload).inflate limit = (.ok out, _) from Prod.ext h rfl)
  have hlength : (d.inflating payload).input.length = payload.length + deflateTail.length :=
    List.length_append
  rw [hlength, Nat.add_le_add_iff_right] at hiff
  rw [← hiff]
  exact ⟨fun hcomplete => hcomplete.taken, fun htaken => ⟨htaken, hout⟩⟩

/-- **No message of a connection loses anything but what follows the end of a stream.** Whatever
was received before, a message that is inflated is complete if and only if its stream does not
end – or has not ended before – with a part of the payload left. -/
theorem decompress_complete_iff (params : DeflateParams) (role : Role)
    (messages : List (List UInt8 × ℕ)) :
    ∀ before payload limit after out, messages = before ++ (payload, limit) :: after →
      (((new params role : Deflate D I).receive before).decompress payload limit).1 = .ok out →
        (((new params role : Deflate D I).receive before).Complete payload limit out ↔
          ¬(((new params role : Deflate D I).receive before).inflating payload).EndsEarly limit) :=
  fun _ _ _ _ _ _ hout => complete_iff hout

/-- An inflater whose stream has ended: it takes nothing and writes nothing. -/
def Ended (x : I) : Prop :=
  ∀ (input : List UInt8) (room : ℕ),
    ∃ x', Flate.call x input room = (some ⟨.streamEnd, 0, []⟩, x')

omit [Flate D] in
/-- **Once the stream has ended, every message is empty**, unless the inflater is reset. -/
theorem decompress_afterEnd {d : Deflate D I} (hreset : d.resetDecompressor = false)
    (hended : Ended d.decompressor) (payload : List UInt8) (limit : ℕ) :
    (d.decompress payload limit).1 = .ok [] ∧
      (payload ≠ [] → (d.inflating payload).EndsEarly limit) := by
  obtain ⟨x', hcall⟩ := hended (payload ++ deflateTail)
    (Allocator.reserve 0 (Allocator.withCapacity (payload.length * 4))
      (Coding.reservation limit 0) - 0)
  have hfeed : (d.inflating payload).feed (Coding.reservation limit 0) =
      (some ⟨.streamEnd, 0, []⟩, ⟨x', payload ++ deflateTail, [],
        Allocator.reserve 0 (Allocator.withCapacity (payload.length * 4))
          (Coding.reservation limit 0)⟩) := by
    simp only [Coding.feed, inflating, hreset, Bool.false_eq_true, if_false, List.length_nil, hcall,
      List.drop_zero, List.append_nil]
  constructor
  · exact congrArg Prod.fst
      (Coding.inflate_of_streamEnd (s := d.inflating payload) (Nat.not_lt_zero limit) hfeed rfl)
  · intro hne
    refine .now hfeed rfl ?_
    have := List.length_pos_iff.mpr hne
    simp only [List.length_append]
    omega

end Deflate

end OcppKit.Ws

namespace OcppKit.Reference

open OcppKit.Ws

/-! ### An inflater of blocks that are stored -/

/-- Where an inflater of stored blocks stands. -/
inductive StoredInflater where
  /-- Before a block. -/
  | header
  /-- In the length of a block, of which so much has been read. -/
  | length (final : Bool) (bytes : List UInt8)
  /-- In a block, of which so much is left. -/
  | data (final : Bool) (left : ℕ)
  /-- After the last block. -/
  | ended
deriving DecidableEq

namespace StoredInflater

/-- What follows a block. -/
def afterBlock (final : Bool) : StoredInflater := if final then .ended else .header

/-- A byte is read. -/
def read : StoredInflater → UInt8 → Option (StoredInflater × List UInt8)
  | .header, b =>
      if b = 0x00 then some (.length false [], [])
      else if b = 0x01 then some (.length true [], [])
      else none
  | .length final [low, high, _], _ =>
      let len := low.toNat + 256 * high.toNat
      some (if len = 0 then afterBlock final else .data final len, [])
  | .length final bytes, b => some (.length final (bytes ++ [b]), [])
  | .data final left, b => some (if left ≤ 1 then afterBlock final else .data final (left - 1), [b])
  | .ended, _ => none

/-- As many bytes as there is room for. -/
def run : List UInt8 → StoredInflater → ℕ → Option (ℕ × List UInt8) × StoredInflater
  | [], x, _ => (some (0, []), x)
  | b :: rest, x, room =>
      if x = .ended ∨ room = 0 then (some (0, []), x)
      else
        match x.read b with
        | none => (none, x)
        | some (x', out) =>
            ((run rest x' (room - out.length)).1.map fun r => (r.1 + 1, out ++ r.2),
              (run rest x' (room - out.length)).2)

/-- A byte is written as one byte at most. -/
theorem length_read {x x' : StoredInflater} {b : UInt8} {out : List UInt8}
    (h : x.read b = some (x', out)) : out.length ≤ 1 := by
  unfold read at h
  split at h
  · split at h
    · obtain rfl := (Prod.mk.inj (Option.some.inj h)).2
      exact Nat.zero_le 1
    · split at h
      · obtain rfl := (Prod.mk.inj (Option.some.inj h)).2
        exact Nat.zero_le 1
      · cases h
  · obtain rfl := (Prod.mk.inj (Option.some.inj h)).2
    exact Nat.zero_le 1
  · obtain rfl := (Prod.mk.inj (Option.some.inj h)).2
    exact Nat.zero_le 1
  · obtain rfl := (Prod.mk.inj (Option.some.inj h)).2
    exact le_rfl
  · cases h

theorem run_bounded (input : List UInt8) (x : StoredInflater) (room : ℕ) {r : ℕ × List UInt8}
    (h : (run input x room).1 = some r) : r.1 ≤ input.length ∧ r.2.length ≤ room := by
  induction input generalizing x room r with
  | nil =>
      obtain rfl := Option.some.inj h
      exact ⟨le_rfl, Nat.zero_le room⟩
  | cons b rest ih =>
      rw [run] at h
      split at h
      · obtain rfl := Option.some.inj h
        exact ⟨Nat.zero_le _, Nat.zero_le room⟩
      next hroom =>
      split at h
      · cases h
      next x' out hread =>
      obtain ⟨r', hr', rfl⟩ := Option.map_eq_some_iff.mp h
      obtain ⟨htaken, hwritten⟩ := ih x' _ hr'
      have hout := length_read hread
      rw [not_or] at hroom
      refine ⟨Nat.succ_le_succ htaken, ?_⟩
      dsimp only
      rw [List.length_append]
      omega

end StoredInflater

instance : Flate StoredInflater where
  new := .header
  reset _ := .header
  call x input room :=
    ((StoredInflater.run input x room).1.map fun r =>
        ⟨if (StoredInflater.run input x room).2 = .ended then .streamEnd else .ok, r.1, r.2⟩,
      (StoredInflater.run input x room).2)
  bounded x input room p h := by
    obtain ⟨r, hr, rfl⟩ := Option.map_eq_some_iff.mp h
    exact StoredInflater.run_bounded input x room hr

/-- A final block of two bytes. -/
def finalBlock : List UInt8 := [0x01, 0x02, 0x00, 0xFD, 0xFF, 0x68, 0x69]

/-- A block of two bytes, and the head of an empty one. -/
def plainBlock : List UInt8 := [0x00, 0x02, 0x00, 0xFD, 0xFF, 0x68, 0x69, 0x00]

/-- The server's codec. -/
def serverDeflate : Deflate StoredDeflater StoredInflater := Deflate.new {} .server

/-- **A stream that ends with the message** is inflated whole. -/
theorem decompress_complete_iff_finalBlock :
    serverDeflate.Complete finalBlock 100 [0x68, 0x69] := by
  have hcall : Flate.call StoredInflater.header (finalBlock ++ deflateTail) 256 =
      (some ⟨.streamEnd, 7, [0x68, 0x69]⟩, .ended) := by decide
  have hfeed := @Coding.feed_of_call _ _ _ (Coding.reservation 100 0)
    (serverDeflate.inflating finalBlock) _ _ hcall
  have hout : (serverDeflate.decompress finalBlock 100).1 = .ok [0x68, 0x69] :=
    congrArg Prod.fst (Coding.inflate_of_streamEnd (s := serverDeflate.inflating finalBlock)
      (by decide) hfeed rfl)
  refine (Deflate.decompress_complete_iff {} .server [(finalBlock, 100)] [] finalBlock 100 [] _ rfl
    hout).mpr ?_
  rintro (⟨hcall, -, hleft⟩ | ⟨hcall, hgoes, -⟩)
  · obtain ⟨-, rfl⟩ := Prod.mk.inj (hfeed.symm.trans hcall)
    exact absurd hleft (by decide)
  · obtain ⟨hp, -⟩ := Prod.mk.inj (hfeed.symm.trans hcall)
    obtain rfl := Option.some.inj hp
    exact hgoes rfl

/-- **A message that ends the stream**, with the byte that makes up an empty block after it, is
followed by one of two bytes, and that one arrives empty. -/
theorem decompress_afterFinalBlock :
    ¬∀ out, ((serverDeflate.receive [(finalBlock ++ [0x00], 100)]).decompress plainBlock 100).1 =
        .ok out →
      (serverDeflate.receive [(finalBlock ++ [0x00], 100)]).Complete plainBlock 100 out := by
  intro hall
  have hcall : Flate.call StoredInflater.header (finalBlock ++ [0x00] ++ deflateTail) 256 =
      (some ⟨.streamEnd, 7, [0x68, 0x69]⟩, .ended) := by decide
  have hfeed := @Coding.feed_of_call _ _ _ (Coding.reservation 100 0)
    (serverDeflate.inflating (finalBlock ++ [0x00])) _ _ hcall
  have hended : (serverDeflate.receive [(finalBlock ++ [0x00], 100)]).decompressor = .ended :=
    congrArg Prod.snd (Coding.inflate_of_streamEnd
      (s := serverDeflate.inflating (finalBlock ++ [0x00])) (by decide) hfeed rfl)
  obtain ⟨hempty, hearly⟩ := Deflate.decompress_afterEnd
    (d := serverDeflate.receive [(finalBlock ++ [0x00], 100)]) rfl (by
      rw [hended]
      rintro (_ | ⟨b, rest⟩) room
      · exact ⟨_, rfl⟩
      · exact ⟨_, rfl⟩) plainBlock 100
  exact (Deflate.complete_iff hempty).mp (hall [] hempty) (hearly (by decide))

end OcppKit.Reference
