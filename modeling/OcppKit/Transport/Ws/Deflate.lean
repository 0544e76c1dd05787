import OcppKit.Transport.Ws.Codec

/-!
# Compressed messages

A compressed message is a raw DEFLATE stream without the four bytes it would end with. What
compresses and what inflates is a crate of its own: `OcppKit.Ws.Flate` is what is called of it, an
object that takes a part of what it is given and writes into the room there is. The loops around
it are the code's: `OcppKit.Ws.Coding.deflate` calls until it takes the message for complete, and
`OcppKit.Ws.Coding.inflate` until there is nothing left or the stream has ended.

The first can only be given a bound on its calls. The second ends by itself: a call that takes
nothing and writes nothing ends it, and what may be taken and written is bounded
(`OcppKit.Ws.Coding.feed_decreases`).
-/

namespace OcppKit.Ws

/-! ### What is called -/

/-- How a call went. -/
inductive Status where
  /-- There was progress. -/
  | ok
  /-- There was no room, or nothing to take. -/
  | bufError
  /-- The stream has ended. -/
  | streamEnd
deriving DecidableEq, Repr

/-- What a call did. -/
structure Progress where
  /-- How it went. -/
  status : Status
  /-- How many bytes it took. -/
  consumed : ℕ
  /-- What it wrote. -/
  produced : List UInt8
deriving DecidableEq, Repr

/-- **What is called of the crate**, to compress and to inflate. -/
class Flate (X : Type) where
  /-- `Compress::new`, `Decompress::new`. -/
  new : X
  /-- `reset`. -/
  reset : X → X
  /-- `compress_vec`, `decompress_vec`: what came of a call with this input and this much room. -/
  call : X → List UInt8 → ℕ → Option Progress × X
  /-- It takes what it was given, and writes where there is room. -/
  bounded : ∀ (x : X) (input : List UInt8) (room : ℕ) (p : Progress),
    (call x input room).1 = some p →
      p.consumed ≤ input.length ∧ p.produced.length ≤ room

/-- **How a buffer grows**: no less than it is asked to, and not at all when there is room. -/
class Allocator where
  /-- `Vec::with_capacity`. -/
  withCapacity : ℕ → ℕ
  /-- `Vec::reserve`, for a buffer of this length and capacity. -/
  reserve : ℕ → ℕ → ℕ → ℕ
  /-- There is what was asked for. -/
  le_withCapacity : ∀ n, n ≤ withCapacity n
  /-- There is room for what was asked for. -/
  le_reserve : ∀ len capacity additional, len + additional ≤ reserve len capacity additional
  /-- A buffer that has room stays. -/
  reserve_of_le : ∀ {len capacity additional}, len + additional ≤ capacity →
    reserve len capacity additional = capacity

/-- The four bytes that are removed from the end of every compressed message. -/
def deflateTail : List UInt8 := [0x00, 0x00, 0xFF, 0xFF]

/-- Why compression or decompression failed. -/
inductive DeflateError where
  /-- The stream could not be produced. -/
  | compress
  /-- The stream is corrupt. -/
  | decompress
  /-- The message inflated past the limit. -/
  | tooLarge
deriving DecidableEq, Repr

/-- The negotiated parameters. -/
structure DeflateParams where
  /-- Whether the server resets its compressor after every message. -/
  serverNoContextTakeover : Bool := false
  /-- Whether the client resets its compressor after every message. -/
  clientNoContextTakeover : Bool := false
deriving DecidableEq, Repr

/-- **Compresses outgoing messages and inflates incoming ones.** -/
structure Deflate (D I : Type) where
  /-- What compresses. -/
  compressor : D
  /-- What inflates. -/
  decompressor : I
  /-- Whether the compressor is reset before every message. -/
  resetCompressor : Bool
  /-- Whether the inflater is. -/
  resetDecompressor : Bool

/-! ### A call in a loop -/

/-- What a loop holds between two calls. -/
structure Coding (X : Type) where
  /-- What is called. -/
  coder : X
  /-- The input that is left. -/
  input : List UInt8
  /-- What has been written. -/
  out : List UInt8
  /-- The capacity of the buffer. -/
  capacity : ℕ

namespace Coding

variable [Allocator] {X : Type} [Flate X]

/-- **A call**, once there is room for so many bytes more. -/
def feed (additional : ℕ) (s : Coding X) : Option Progress × Coding X :=
  let capacity := Allocator.reserve s.out.length s.capacity additional
  match Flate.call s.coder s.input (capacity - s.out.length) with
  | (none, coder) => (none, { s with coder := coder, capacity := capacity })
  | (some p, coder) => (some p, ⟨coder, s.input.drop p.consumed, s.out ++ p.produced, capacity⟩)

/-- What a call leaves. -/
theorem feed_spec {additional : ℕ} {s s' : Coding X} {p : Progress}
    (h : s.feed additional = (some p, s')) :
    ∃ room, additional ≤ room ∧ Flate.call s.coder s.input room = (some p, s'.coder) ∧
      p.consumed ≤ s.input.length ∧ s'.input = s.input.drop p.consumed ∧
      s'.out = s.out ++ p.produced := by
  have hroom := Allocator.le_reserve s.out.length s.capacity additional
  rw [feed] at h
  split at h
  · cases h
  · next q coder hcall =>
    obtain ⟨hp, rfl⟩ := Prod.mk.inj h
    obtain rfl := Option.some.inj hp
    refine ⟨_, by omega, hcall, ?_, rfl, rfl⟩
    exact (Flate.bounded _ _ _ q (by rw [hcall])).1

/-- The state after a call. -/
theorem feed_of_call {additional : ℕ} {s : Coding X} {p : Progress} {x' : X}
    (h : Flate.call s.coder s.input
      (Allocator.reserve s.out.length s.capacity additional - s.out.length) = (some p, x')) :
    s.feed additional = (some p, ⟨x', s.input.drop p.consumed, s.out ++ p.produced,
      Allocator.reserve s.out.length s.capacity additional⟩) := by
  rw [feed, h]

/-! ### Compressing -/

/-- The loop of `compress`, with a bound on its iterations. -/
def deflate : ℕ → Coding X → Option (Except DeflateError (List UInt8) × X)
  | 0, _ => none
  | fuel + 1, s =>
      match s.feed 256 with
      | (none, s') => some (.error .compress, s'.coder)
      | (some p, s') =>
          if s'.input = [] ∧ (p.produced = [] ∨ p.status = .streamEnd) then
            some (.ok s'.out, s'.coder)
          else if s'.input = [] ∧ deflateTail.isSuffixOf s'.out then some (.ok s'.out, s'.coder)
          else if p.consumed = 0 ∧ p.produced = [] then some (.error .compress, s'.coder)
          else deflate fuel s'

/-! ### Inflating -/

/-- How much is reserved before a call. -/
def reservation (limit len : ℕ) : ℕ := max (max 1 (min (limit - len) (64 * 1024))) 256

/-- What is checked once the loop has ended. -/
def withinLimit (limit : ℕ) (out : List UInt8) : Except DeflateError (List UInt8) :=
  if limit < out.length then .error .tooLarge else .ok out

/-- **A call makes progress**: there is less to take, or less that may be written. -/
theorem feed_decreases {limit : ℕ} {s s' : Coding X} {p : Progress}
    (h : s.feed (reservation limit s.out.length) = (some p, s')) (hlimit : ¬limit < s.out.length)
    (hprogress : ¬(p.consumed = 0 ∧ p.produced = [])) :
    s'.input.length + (limit + 1 - s'.out.length) <
      s.input.length + (limit + 1 - s.out.length) := by
  obtain ⟨_, -, -, hconsumed, hinput, hout⟩ := feed_spec h
  rw [hinput, hout, List.length_drop, List.length_append]
  by_cases hproduced : p.produced = []
  · have : p.consumed ≠ 0 := fun hzero => hprogress ⟨hzero, hproduced⟩
    rw [hproduced, List.length_nil]
    omega
  · have := List.length_pos_iff.mpr hproduced
    omega

/-- **The loop of `decompress`.** -/
def inflate (limit : ℕ) (s : Coding X) : Except DeflateError (List UInt8) × X :=
  if _hlimit : limit < s.out.length then (.error .tooLarge, s.coder)
  else
    match _h : s.feed (reservation limit s.out.length) with
    | (none, s') => (.error .decompress, s'.coder)
    | (some p, s') =>
        if p.status = .streamEnd then (withinLimit limit s'.out, s'.coder)
        else if s'.input = [] ∧ p.produced = [] then (withinLimit limit s'.out, s'.coder)
        else if _hprogress : p.consumed = 0 ∧ p.produced = [] then (.error .decompress, s'.coder)
        else s'.inflate limit
termination_by s.input.length + (limit + 1 - s.out.length)
decreasing_by exact feed_decreases _h _hlimit _hprogress

/-- **What the inflater reported** while the loop ran. -/
def reports (limit : ℕ) (s : Coding X) : List Progress :=
  if _hlimit : limit < s.out.length then []
  else
    match _h : s.feed (reservation limit s.out.length) with
    | (none, _) => []
    | (some p, s') =>
        if p.status = .streamEnd then [p]
        else if s'.input = [] ∧ p.produced = [] then [p]
        else if _hprogress : p.consumed = 0 ∧ p.produced = [] then [p]
        else p :: s'.reports limit
termination_by s.input.length + (limit + 1 - s.out.length)
decreasing_by exact feed_decreases _h _hlimit _hprogress

end Coding

/-! ### Messages -/

namespace Deflate

variable [Allocator] {D I : Type} [Flate D] [Flate I]

/-- Builds the codec for one side of a connection. What a side resets is what its own parameter
says of its compressor, and what the other side's says of its inflater. -/
def new (params : DeflateParams) (role : Role) : Deflate D I :=
  let (outReset, inReset) :=
    match role with
    | .server => (params.serverNoContextTakeover, params.clientNoContextTakeover)
    | .client => (params.clientNoContextTakeover, params.serverNoContextTakeover)
  ⟨Flate.new, Flate.new, outReset, inReset⟩

/-- What a message is compressed from. -/
def deflating (d : Deflate D I) (payload : List UInt8) : Coding D :=
  ⟨if d.resetCompressor then Flate.reset d.compressor else d.compressor, payload, [],
    Allocator.withCapacity (payload.length / 2 + 16)⟩

/-- What is sent of what was written: no tail, and a byte at least. -/
def trimTail (out : List UInt8) : List UInt8 :=
  if deflateTail.isSuffixOf out then out.take (out.length - deflateTail.length)
  else if out = [] then [0x00]
  else out

/-- **Compresses one message**, with a bound on the calls. -/
def compress (fuel : ℕ) (d : Deflate D I) (payload : List UInt8) :
    Option (Except DeflateError (List UInt8) × Deflate D I) :=
  ((d.deflating payload).deflate fuel).map fun result =>
    (result.1.map trimTail, { d with compressor := result.2 })

/-- What a message is inflated from. -/
def inflating (d : Deflate D I) (payload : List UInt8) : Coding I :=
  ⟨if d.resetDecompressor then Flate.reset d.decompressor else d.decompressor,
    payload ++ deflateTail, [], Allocator.withCapacity (payload.length * 4)⟩

/-- **Inflates one message.** -/
def decompress (d : Deflate D I) (payload : List UInt8) (limit : ℕ) :
    Except DeflateError (List UInt8) × Deflate D I :=
  let result := (d.inflating payload).inflate limit
  (result.1, { d with decompressor := result.2 })

/-- What is left of the codec once messages have been received. -/
def receive (d : Deflate D I) (messages : List (List UInt8 × ℕ)) : Deflate D I :=
  messages.foldl (fun d message => (d.decompress message.1 message.2).2) d

end Deflate

end OcppKit.Ws

namespace OcppKit.Reference

open OcppKit.Ws

/-- **A vector** grows to twice its capacity. -/
instance vecAllocator : Allocator where
  withCapacity n := n
  reserve len capacity additional :=
    if len + additional ≤ capacity then capacity else max (2 * capacity) (len + additional)
  le_withCapacity _ := le_rfl
  le_reserve len capacity additional := by
    split <;> omega
  reserve_of_le h := if_pos h

end OcppKit.Reference
