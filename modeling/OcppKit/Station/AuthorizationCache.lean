import OcppKit.Library.Recency
import OcppKit.Station.LocalList

/-!
# The authorization cache

What the operator's system said of a token is remembered for when it cannot be asked
(`OcppKit.AuthorizationCache`), for as many tokens as there is room for. A token is stamped
when it is remembered and when it is looked up and found, by a clock that ticks at both and at
a miss too; and as long as there are too many, the one with the least stamp is dropped.

So the cache is a recency list (`OcppKit.RecentTokens`): whatever is done with it, it has the
tokens that were used last, as many as there is room for, and answers from these
(`OcppKit.AuthorizationCache.run_refines`). The clock is a counter of 64 bits; it is taken for
one that has no end.
-/

namespace OcppKit

/-! ### The cache -/

/-- **The authorization cache.** -/
structure AuthorizationCache where
  /-- What is known, with the time of the last use. -/
  entries : SortedMap String (ℕ × IdTokenInfo)
  /-- How many tokens there is room for. -/
  capacity : ℕ
  /-- It ticks at every use. -/
  clock : ℕ
  /-- Whether the cache is in use. -/
  enabled : Bool

namespace AuthorizationCache

/-- A cache holding at most some number of tokens, and one at least. -/
def withCapacity (capacity : ℕ) : AuthorizationCache := ⟨.empty, max capacity 1, 0, true⟩

/-- Turns the cache on or off. -/
def setEnabled (cache : AuthorizationCache) (enabled : Bool) : AuthorizationCache :=
  { cache with enabled, entries := if enabled then cache.entries else .empty }

/-- The token that was used the longest time ago. -/
def oldest (entries : SortedMap String (ℕ × IdTokenInfo)) : Option String :=
  (entries.entries.argmin fun e => e.2.1).map Prod.fst

/-- Drops the oldest entries while there are too many. -/
def evict (capacity : ℕ) (entries : SortedMap String (ℕ × IdTokenInfo)) :
    SortedMap String (ℕ × IdTokenInfo) :=
  if capacity < entries.size then
    match _h : oldest entries with
    | some token => evict capacity (entries.remove token)
    | none => entries
  else entries
termination_by entries.size
decreasing_by
  obtain ⟨e, he, rfl⟩ := Option.map_eq_some_iff.mp _h
  have hcontains : entries.contains e.1 = true :=
    (entries.contains_iff e.1).mpr (List.mem_map_of_mem (List.argmin_mem he))
  have := entries.size_remove e.1
  rw [if_pos hcontains] at this
  omega

/-- Records what was answered. -/
def remember (cache : AuthorizationCache) (token : String) (info : IdTokenInfo) :
    AuthorizationCache :=
  if cache.enabled then
    { cache with
      clock := cache.clock + 1
      entries := evict cache.capacity (cache.entries.insert token (cache.clock + 1, info)) }
  else cache

/-- Looks a token up, refreshing its recency. -/
def get (cache : AuthorizationCache) (token : String) :
    AuthorizationCache × Option IdTokenInfo :=
  if cache.enabled then
    match cache.entries.find token with
    | some (_, info) =>
        ({ cache with
          clock := cache.clock + 1
          entries := cache.entries.insert token (cache.clock + 1, info) }, some info)
    | none => ({ cache with clock := cache.clock + 1 }, none)
  else (cache, none)

/-- Empties the cache. -/
def clear (cache : AuthorizationCache) : AuthorizationCache := { cache with entries := .empty }

end AuthorizationCache

/-! ### What is done with it -/

/-- An operation. -/
inductive CacheOp where
  /-- What was answered is recorded. -/
  | remember (token : String) (info : IdTokenInfo)
  /-- A token is looked up. -/
  | get (token : String)
  /-- The cache is emptied. -/
  | clear
  /-- The cache is turned on or off. -/
  | setEnabled (enabled : Bool)

/-- One operation, and what it answers. -/
def AuthorizationCache.step (cache : AuthorizationCache) :
    CacheOp → AuthorizationCache × Option IdTokenInfo
  | .remember token info => (cache.remember token info, none)
  | .get token => cache.get token
  | .clear => (cache.clear, none)
  | .setEnabled enabled => (cache.setEnabled enabled, none)

/-- Operations one after another, and what they answer. -/
def runOps {σ : Type} (step : σ → CacheOp → σ × Option IdTokenInfo) :
    σ → List CacheOp → σ × List (Option IdTokenInfo)
  | s, [] => (s, [])
  | s, op :: ops =>
      let (s', answers) := runOps step (step s op).1 ops
      (s', (step s op).2 :: answers)

/-! ### What it is -/

/-- **The tokens in the order in which they were last used**, since the last clearing. -/
structure RecentTokens where
  /-- The tokens, the latest first, with what was last remembered of them. -/
  tokens : List (String × IdTokenInfo)
  /-- How many of them are known. -/
  capacity : ℕ
  /-- Whether any are. -/
  enabled : Bool

namespace RecentTokens

/-- The tokens that are known: those that were used last. -/
def content (recent : RecentTokens) : List (String × IdTokenInfo) :=
  recent.tokens.take recent.capacity

/-- **One operation**: a token is used when it is remembered, and when it is looked up and
known. While there are none, nothing is known and nothing is recorded. -/
def step (recent : RecentTokens) : CacheOp → RecentTokens × Option IdTokenInfo
  | .remember token info =>
      if recent.enabled then
        ({ recent with tokens := Recency.use token info recent.tokens }, none)
      else (recent, none)
  | .get token =>
      if recent.enabled then
        match SortedMap.lookup token recent.content with
        | some info => ({ recent with tokens := Recency.use token info recent.tokens }, some info)
        | none => (recent, none)
      else (recent, none)
  | .clear => ({ recent with tokens := [] }, none)
  | .setEnabled enabled =>
      ({ recent with enabled, tokens := if enabled then recent.tokens else [] }, none)

end RecentTokens

/-! ### The simulation -/

namespace AuthorizationCache

open Recency

/-- The oldest are dropped until as many are left as there is room for. -/
theorem stamped_evict {m : SortedMap String (ℕ × IdTokenInfo)} {clock capacity : ℕ}
    {l : List (String × IdTokenInfo)} (h : Stamped m clock l) :
    Stamped (evict capacity m) clock (l.take capacity) := by
  induction l using List.reverseRecOn generalizing m with
  | nil =>
      rw [evict, if_neg (by rw [h.size_eq]; simp), List.take_nil]
      exact h
  | append_singleton l e ih =>
      rw [evict]
      split
      next hlarge =>
        rw [h.size_eq, List.length_append, List.length_singleton] at hlarge
        obtain ⟨holdest, hrest⟩ := h.oldest
        have hkey : oldest m = some e.1 := holdest
        split
        next token htoken =>
          obtain rfl := Option.some.inj (hkey.symm.trans htoken)
          rw [List.take_append_of_le_length (by omega)]
          exact ih hrest
        next hnone => exact absurd (hkey.symm.trans hnone) (by simp)
      next hsmall =>
        rw [h.size_eq] at hsmall
        rw [List.take_of_length_le (not_lt.mp hsmall)]
        exact h

/-- **The cache keeps the tokens that were used last.** -/
structure Keeps (cache : AuthorizationCache) (recent : RecentTokens) : Prop where
  /-- It has room for as many as are known. -/
  capacity : cache.capacity = recent.capacity
  /-- And for one. -/
  room : 0 < recent.capacity
  /-- It is in use when any are. -/
  enabled : cache.enabled = recent.enabled
  /-- No token stands twice. -/
  nodup : (recent.tokens.map Prod.fst).Nodup
  /-- It has the known ones, in the order of their stamps. -/
  stamped : Stamped cache.entries cache.clock recent.content
  /-- While none are, it has none. -/
  disabled : recent.enabled = false → recent.tokens = []

theorem keeps_withCapacity (capacity : ℕ) :
    Keeps (withCapacity capacity) ⟨[], max capacity 1, true⟩ where
  capacity := rfl
  room := lt_max_of_lt_right Nat.one_pos
  enabled := rfl
  nodup := List.nodup_nil
  stamped := by
    rw [RecentTokens.content, List.take_nil]
    exact Stamped.empty 0
  disabled := fun h => absurd h (by simp)

/-- A token that is used is kept, and room is made for it. -/
theorem Keeps.remember {cache : AuthorizationCache} {recent : RecentTokens}
    (h : Keeps cache recent) (token : String) (info : IdTokenInfo) :
    Keeps (cache.step (.remember token info)).1 (recent.step (.remember token info)).1 := by
  rw [AuthorizationCache.step, AuthorizationCache.remember, RecentTokens.step, h.enabled]
  split
  next henabled =>
    have hcontent : ({ recent with tokens := use token info recent.tokens } :
        RecentTokens).content = (use token info recent.content).take recent.capacity :=
      (take_use h.nodup token info h.room).symm
    refine ⟨h.capacity, h.room, rfl, nodup_use h.nodup token info, ?_, fun hoff => ?_⟩
    · rw [hcontent, h.capacity]
      exact stamped_evict (h.stamped.use token info)
    · exact absurd hoff (by simp [henabled])
  next => exact h

/-- A token that is looked up is used if it is known. -/
theorem Keeps.get {cache : AuthorizationCache} {recent : RecentTokens}
    (h : Keeps cache recent) (token : String) :
    Keeps (cache.step (.get token)).1 (recent.step (.get token)).1 ∧
      (cache.step (.get token)).2 = (recent.step (.get token)).2 := by
  have hnodup : (recent.content.map Prod.fst).Nodup :=
    h.nodup.sublist ((List.take_sublist _ _).map Prod.fst)
  have hfind := h.stamped.map_find hnodup token
  rw [AuthorizationCache.step, AuthorizationCache.get, RecentTokens.step, h.enabled, ← hfind]
  split
  swap
  · exact ⟨h, rfl⟩
  next henabled =>
  rcases hentry : cache.entries.find token with _ | ⟨stamp, info⟩
  · exact ⟨⟨h.capacity, h.room, rfl, h.nodup, h.stamped.mono (Nat.le_succ _), h.disabled⟩, rfl⟩
  · have hmem : token ∈ recent.content.map Prod.fst :=
      List.mem_map_of_mem ((h.stamped.mem_iff token info).mpr ⟨stamp, hentry⟩)
    have hcontent : ({ recent with tokens := use token info recent.tokens } :
        RecentTokens).content = use token info recent.content :=
      take_use_of_mem h.nodup hmem info
    refine ⟨⟨h.capacity, h.room, rfl, nodup_use h.nodup token info, ?_, fun hoff => ?_⟩, rfl⟩
    · have hstamped := h.stamped.use token info
      rw [← hcontent] at hstamped
      exact hstamped
    · exact absurd hoff (by simp [henabled])

/-- **One operation**: the cache keeps the tokens, and answers from them. -/
theorem Keeps.step {cache : AuthorizationCache} {recent : RecentTokens}
    (h : Keeps cache recent) (op : CacheOp) :
    Keeps (cache.step op).1 (recent.step op).1 ∧ (cache.step op).2 = (recent.step op).2 := by
  have hnone : Stamped (SortedMap.empty : SortedMap String (ℕ × IdTokenInfo)) cache.clock
      ([] : List (String × IdTokenInfo)) := Stamped.empty _
  cases op with
  | remember token info =>
      refine ⟨h.remember token info, ?_⟩
      rw [RecentTokens.step]
      split <;> rfl
  | get token => exact h.get token
  | clear =>
      refine ⟨⟨h.capacity, h.room, h.enabled, List.nodup_nil, ?_, fun _ => rfl⟩, rfl⟩
      rw [RecentTokens.content, RecentTokens.step, List.take_nil]
      exact hnone
  | setEnabled enabled =>
      refine ⟨?_, rfl⟩
      cases enabled with
      | false =>
          refine ⟨h.capacity, h.room, rfl, List.nodup_nil, ?_, fun _ => rfl⟩
          rw [RecentTokens.content, RecentTokens.step]
          simp only [Bool.false_eq_true, if_false, List.take_nil]
          exact hnone
      | true =>
          exact ⟨h.capacity, h.room, rfl, h.nodup, h.stamped, fun hoff => absurd hoff nofun⟩

/-- Operations one after another. -/
theorem Keeps.run {cache : AuthorizationCache} {recent : RecentTokens} (h : Keeps cache recent)
    (ops : List CacheOp) :
    Keeps (runOps AuthorizationCache.step cache ops).1 (runOps RecentTokens.step recent ops).1 ∧
      (runOps AuthorizationCache.step cache ops).2 = (runOps RecentTokens.step recent ops).2 := by
  induction ops generalizing cache recent with
  | nil => exact ⟨h, rfl⟩
  | cons op ops ih =>
      obtain ⟨hstep, hanswer⟩ := h.step op
      obtain ⟨hrun, hanswers⟩ := ih hstep
      exact ⟨hrun, congrArg₂ List.cons hanswer hanswers⟩

theorem capacity_runOps (recent : RecentTokens) (ops : List CacheOp) :
    (runOps RecentTokens.step recent ops).1.capacity = recent.capacity := by
  induction ops generalizing recent with
  | nil => rfl
  | cons op ops ih =>
      refine (ih (recent.step op).1).trans ?_
      cases op with
      | remember token info =>
          rw [RecentTokens.step]
          split <;> rfl
      | get token =>
          rw [RecentTokens.step]
          split
          · split <;> rfl
          · rfl
      | clear => rfl
      | setEnabled enabled => rfl

/-- **The cache is the tokens that were used last**: after any operations it has exactly these,
with what was last remembered of them, in any room; it has answered from them; it has no more
than there is room for; and while it is off it has none. -/
theorem run_refines (capacity : ℕ) (ops : List CacheOp) :
    let cache := runOps AuthorizationCache.step (withCapacity capacity) ops
    let recent := runOps RecentTokens.step ⟨[], max capacity 1, true⟩ ops
    cache.2 = recent.2 ∧
      (∀ token info, (∃ stamp, cache.1.entries.find token = some (stamp, info)) ↔
        (token, info) ∈ recent.1.content) ∧
      (recent.1.content.map Prod.fst).Nodup ∧
      cache.1.entries.size ≤ max capacity 1 ∧
      (cache.1.enabled = false → cache.1.entries = .empty) := by
  intro cache recent
  obtain ⟨hkeeps, hanswers⟩ := (keeps_withCapacity capacity).run ops
  have hcapacity : recent.1.capacity = max capacity 1 := capacity_runOps _ ops
  have hsize : cache.1.entries.size = recent.1.content.length := hkeeps.stamped.size_eq
  refine ⟨hanswers, fun token info => (hkeeps.stamped.mem_iff token info).symm,
    hkeeps.nodup.sublist ((List.take_sublist _ _).map Prod.fst), ?_, fun hoff => ?_⟩
  · rw [hsize, ← hcapacity]
    exact List.length_take_le _ _
  · have htokens : recent.1.tokens = [] := hkeeps.disabled (hkeeps.enabled.symm.trans hoff)
    rw [RecentTokens.content, htokens, List.take_nil] at hsize
    exact SortedMap.ext (List.length_eq_zero_iff.mp hsize)

end AuthorizationCache

end OcppKit
