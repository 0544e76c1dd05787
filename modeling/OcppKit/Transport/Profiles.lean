import OcppKit.Engine.Backoff
import OcppKit.Library.SortedMap
import OcppKit.Library.Turns

/-!
# Network profiles

A station has numbered slots, each with a way to reach a CSMS, an order to try them in, and a
number of attempts to spend on each (`OcppKit.NetworkProfiles`). It goes around: after so many
attempts that failed it moves to the next slot of the order, and it stays where one succeeded
(`OcppKit.ProfileCycler`). The loop around it says when the slot has changed, sets the time-out of
the slot, and waits before each turn but the first (`OcppKit.StationLoop.turn`).

No slot is starved, and none is favoured: from any state that a run reaches, as many failures in a
row as there are attempts in all are spent on each entry of the order for just its share
(`OcppKit.StationLoop.slots_fair`). And what the loop announces is what it does: the slots it
announces are those it tries, each time they change (`OcppKit.StationLoop.announced_run`).
-/

namespace OcppKit

/-! ### The slots -/

/-- What is configured in one slot. -/
structure NetworkProfile where
  /-- The slot. -/
  slot : ℤ
  /-- The URL of the CSMS, without the identity. -/
  url : String
  /-- The time-out of calls while this profile is active, when it has one of its own. -/
  messageTimeout : Option Duration
deriving DecidableEq

/-- One more profile, and its slot at the end of the order unless it is in it. -/
def putProfile (state : SortedMap ℤ NetworkProfile × List ℤ) (profile : NetworkProfile) :
    SortedMap ℤ NetworkProfile × List ℤ :=
  (state.1.insert profile.slot profile,
    if profile.slot ∈ state.2 then state.2 else state.2 ++ [profile.slot])

/-- Whether each slot of an order has a profile, and each profile is in its own slot. -/
structure Configured (slots : SortedMap ℤ NetworkProfile) (priority : List ℤ) : Prop where
  /-- Each slot has one. -/
  found : ∀ slot ∈ priority, slots.contains slot = true
  /-- It is in its own. -/
  own : ∀ slot profile, slots.find slot = some profile → profile.slot = slot

theorem configured_empty : Configured SortedMap.empty [] where
  found slot h := absurd h List.not_mem_nil
  own slot profile h := by cases h

theorem Configured.put {state : SortedMap ℤ NetworkProfile × List ℤ}
    (h : Configured state.1 state.2) (profile : NetworkProfile) :
    Configured (putProfile state profile).1 (putProfile state profile).2 where
  found := by
    intro slot hslot
    rw [SortedMap.contains_eq_find, putProfile, SortedMap.find_insert]
    split
    · rfl
    · next hne =>
      rw [← SortedMap.contains_eq_find]
      refine h.found slot ?_
      rw [putProfile] at hslot
      dsimp only at hslot
      split at hslot
      · exact hslot
      · rcases List.mem_append.mp hslot with hslot | hslot
        · exact hslot
        · exact absurd (List.mem_singleton.mp hslot) hne
  own := by
    intro slot found hfound
    rw [putProfile, SortedMap.find_insert] at hfound
    split at hfound
    · next heq =>
      cases hfound
      exact heq.symm
    · exact h.own slot found hfound

theorem configured_foldl (profiles : List NetworkProfile)
    {state : SortedMap ℤ NetworkProfile × List ℤ} (h : Configured state.1 state.2) :
    Configured (profiles.foldl putProfile state).1 (profiles.foldl putProfile state).2 := by
  induction profiles generalizing state with
  | nil => exact h
  | cons profile profiles ih => exact ih (h.put profile)

/-- **The slots of a station**, the order to try them in, and how many attempts each one gets. -/
structure NetworkProfiles where
  /-- What is in each slot. -/
  slots : SortedMap ℤ NetworkProfile
  /-- The slots to try, in order. -/
  priority : List ℤ
  /-- How many attempts each gets. -/
  attempts : ℕ
  /-- The order has no slot without a profile. -/
  configured : Configured slots priority
  /-- Each gets one at least. -/
  attempts_pos : 0 < attempts

namespace NetworkProfiles

/-- **Profiles in the order they are given in**, with three attempts each. -/
def new (profiles : List NetworkProfile) : NetworkProfiles where
  slots := (profiles.foldl putProfile (SortedMap.empty, [])).1
  priority := (profiles.foldl putProfile (SortedMap.empty, [])).2
  attempts := 3
  configured := configured_foldl profiles configured_empty
  attempts_pos := Nat.succ_pos 2

/-- What is said of an order with a slot that has no profile. -/
def unconfiguredText (slot : ℤ) : String :=
  "NetworkConfigurationPriority names configuration slot " ++ toString slot ++
    ", which has no profile"

theorem configured_of_find? {profiles : NetworkProfiles} {order : List ℤ}
    (h : (order.find? fun slot => !profiles.slots.contains slot) = none) :
    Configured profiles.slots order where
  found slot hslot := by
    have hnone := List.find?_eq_none.mp h slot hslot
    rwa [Bool.not_eq_true, Bool.not_eq_false'] at hnone
  own := profiles.configured.own

/-- **Sets the order**, or says what is wrong with it. -/
def withPriority (profiles : NetworkProfiles) (order : List ℤ) : Except String NetworkProfiles :=
  if order = [] then .error "NetworkConfigurationPriority must name at least one slot"
  else
    match h : order.find? fun slot => !profiles.slots.contains slot with
    | some slot => .error (unconfiguredText slot)
    | none =>
      .ok { profiles with priority := order, configured := configured_of_find? h }

/-- Sets how many attempts each slot gets: one at least. -/
def connectionAttempts (profiles : NetworkProfiles) (attempts : ℕ) : NetworkProfiles :=
  { profiles with attempts := max attempts 1, attempts_pos := le_max_right attempts 1 }

/-- The profile at a position of the order, going around. -/
def profileAt (profiles : NetworkProfiles) (index : ℕ) : Option NetworkProfile :=
  (profiles.priority[index % profiles.priority.length]?).bind profiles.slots.find

/-- **Where there is an order, there is a profile at each position of it.** -/
theorem exists_profileAt (profiles : NetworkProfiles) (h : profiles.priority ≠ []) (index : ℕ) :
    ∃ profile, profiles.profileAt index = some profile ∧
      profiles.priority[index % profiles.priority.length]? = some profile.slot := by
  have hlt : index % profiles.priority.length < profiles.priority.length :=
    Nat.mod_lt _ (List.length_pos_iff.mpr h)
  have hslot := List.getElem?_eq_getElem hlt
  have hfound := profiles.configured.found _ (List.getElem_mem hlt)
  rw [SortedMap.contains_eq_find] at hfound
  obtain ⟨profile, hprofile⟩ := Option.isSome_iff_exists.mp hfound
  refine ⟨profile, ?_, ?_⟩
  · rw [profileAt, hslot, Option.bind_some, hprofile]
  · rw [hslot, profiles.configured.own _ _ hprofile]

end NetworkProfiles

/-! ### Going around -/

/-- **Walks the order**, spending a number of failures on each. -/
structure ProfileCycler where
  /-- The position that is tried. -/
  index : ℕ
  /-- How many attempts have failed on it. -/
  failures : ℕ
  /-- How many may. -/
  limit : ℕ
  /-- How many positions there are. -/
  len : ℕ
deriving DecidableEq

namespace ProfileCycler

/-- It begins at the front. -/
def new (profiles : NetworkProfiles) : ProfileCycler :=
  ⟨0, 0, profiles.attempts, profiles.priority.length⟩

/-- A connection has succeeded: the station stays where it is. -/
def succeeded (cycler : ProfileCycler) : ProfileCycler := { cycler with failures := 0 }

/-- A connection has failed: the station moves on once the position has had its share. Says
whether it has. -/
def failed (cycler : ProfileCycler) : ProfileCycler × Bool :=
  if cycler.limit ≤ cycler.failures + 1 ∧ 1 < cycler.len then
    ({ cycler with failures := 0, index := (cycler.index + 1) % cycler.len }, true)
  else ({ cycler with failures := cycler.failures + 1 }, false)

/-- **The try a walk is at**, counted from where it began: the position is what its turn is. -/
structure At (profiles : NetworkProfiles) (cycler : ProfileCycler) (try_ : ℕ) : Prop where
  /-- The limit is that of the profiles. -/
  limit : cycler.limit = profiles.attempts
  /-- There are as many positions as in the order. -/
  len : cycler.len = profiles.priority.length
  /-- The position. -/
  index : cycler.index = try_ / profiles.attempts % profiles.priority.length
  /-- The failures, where there is another position to move to. -/
  failures : 1 < profiles.priority.length → cycler.failures = try_ % profiles.attempts

variable {profiles : NetworkProfiles} {cycler : ProfileCycler} {try_ : ℕ}

theorem at_new (profiles : NetworkProfiles) : At profiles (new profiles) 0 where
  limit := rfl
  len := rfl
  index := by rw [Nat.zero_div, Nat.zero_mod]; rfl
  failures _ := (Nat.zero_mod _).symm

/-- Where an attempt succeeds, the share begins anew. -/
theorem At.succeeded (h : At profiles cycler try_) :
    At profiles cycler.succeeded (try_ / profiles.attempts * profiles.attempts) where
  limit := h.limit
  len := h.len
  index := by
    rw [Nat.mul_div_cancel _ profiles.attempts_pos]
    exact h.index
  failures _ := (Nat.mul_mod_left _ _).symm

/-- **Where one fails, the next try is the next.** -/
theorem At.failed (h : At profiles cycler try_) (hne : profiles.priority ≠ []) :
    At profiles cycler.failed.1 (try_ + 1) := by
  have hpos := profiles.attempts_pos
  have hlen : 0 < profiles.priority.length := List.length_pos_iff.mpr hne
  rcases Nat.lt_or_ge 1 profiles.priority.length with hmany | hone
  · have hfailures := h.failures hmany
    have hlt := Nat.mod_lt try_ hpos
    by_cases hspent : profiles.attempts ≤ try_ % profiles.attempts + 1
    · -- the share is spent
      have hnext : (try_ + 1) / profiles.attempts = try_ / profiles.attempts + 1 ∧
          (try_ + 1) % profiles.attempts = 0 := by
        have hsplit := Nat.div_add_mod try_ profiles.attempts
        have heq : try_ + 1 = profiles.attempts * (try_ / profiles.attempts + 1) := by
          rw [Nat.mul_succ]
          omega
        rw [heq]
        exact ⟨Nat.mul_div_cancel_left _ hpos, Nat.mul_mod_right _ _⟩
      have hstep : cycler.failed.1 =
          { cycler with failures := 0, index := (cycler.index + 1) % cycler.len } := by
        rw [ProfileCycler.failed, if_pos ⟨by rw [h.limit, hfailures]; exact hspent,
          by rw [h.len]; exact hmany⟩]
      rw [hstep]
      refine ⟨h.limit, h.len, ?_, fun _ => hnext.2.symm⟩
      dsimp only
      rw [hnext.1, h.index, h.len, Nat.mod_add_mod]
    · have hnext : (try_ + 1) / profiles.attempts = try_ / profiles.attempts ∧
          (try_ + 1) % profiles.attempts = try_ % profiles.attempts + 1 := by
        have hsplit := Nat.div_add_mod try_ profiles.attempts
        have heq : try_ + 1 = try_ % profiles.attempts + 1 +
            profiles.attempts * (try_ / profiles.attempts) := by omega
        constructor
        · rw [heq, Nat.add_mul_div_left _ _ hpos, Nat.div_eq_of_lt (by omega), Nat.zero_add]
        · conv_lhs => rw [heq]
          rw [Nat.add_mul_mod_self_left, Nat.mod_eq_of_lt (by omega)]
      have hstep : cycler.failed.1 = { cycler with failures := cycler.failures + 1 } := by
        rw [ProfileCycler.failed, if_neg]
        rintro ⟨hlimit, -⟩
        rw [h.limit, hfailures] at hlimit
        exact hspent hlimit
      rw [hstep]
      refine ⟨h.limit, h.len, ?_, fun _ => ?_⟩
      · rw [hnext.1]
        exact h.index
      · dsimp only
        rw [hnext.2, hfailures]
  · -- there is one position, and no other to move to
    have hlast : profiles.priority.length = 1 := by omega
    have hstep : cycler.failed.1 = { cycler with failures := cycler.failures + 1 } := by
      rw [ProfileCycler.failed, if_neg]
      rintro ⟨-, hmore⟩
      rw [h.len] at hmore
      omega
    rw [hstep]
    refine ⟨h.limit, h.len, ?_, fun hmore => absurd hmore (by omega)⟩
    have hindex := h.index
    rw [hlast, Nat.mod_one] at hindex
    dsimp only
    rw [hindex, hlast, Nat.mod_one]

end ProfileCycler

/-! ### The loop -/

/-- How a session ends. -/
inductive Ended where
  /-- The connection is gone. -/
  | disconnected
  /-- The application has asked for it. -/
  | closed
deriving DecidableEq, Repr

/-- **What comes of an attempt to connect.** -/
inductive Attempt where
  /-- It failed. -/
  | failed
  /-- There was a session, and it ended. -/
  | session (ended : Ended)
deriving DecidableEq, Repr

/-- **What a station that reconnects is made of.** -/
structure StationLoop where
  /-- Its slots. -/
  profiles : NetworkProfiles
  /-- How long it waits. -/
  backoff : Backoff
  /-- Whether it reconnects. -/
  reconnect : Bool
  /-- The time-out of calls, where a profile has none of its own. -/
  defaultCallTimeout : Duration

/-- What the loop holds between two turns. -/
structure LoopState where
  /-- How many attempts there have been since the last session. -/
  attempt : ℕ
  /-- Where it is in the order. -/
  cycler : ProfileCycler
  /-- The slot that was announced last. -/
  announced : Option ℤ

/-- **What one turn does.** -/
structure StationLoop.Turn where
  /-- The profile it tries. -/
  profile : NetworkProfile
  /-- What it announces: the slot and its URL. -/
  selected : Option (ℤ × String)
  /-- The time-out it gives the engine, when there is a session. -/
  callTimeout : Option Duration
  /-- The attempt it announces to wait for, and how long. -/
  reconnecting : Option (ℕ × Duration)
deriving DecidableEq

namespace StationLoop

variable (loop : StationLoop)

/-- How the loop begins. -/
def start : LoopState := ⟨0, ProfileCycler.new loop.profiles, none⟩

/-- The wait at the end of a turn, and what the loop holds after it. -/
def pause (profile : NetworkProfile) (selected : Option (ℤ × String))
    (callTimeout : Option Duration) (attempt : ℕ) (cycler : ProfileCycler) (jitter : Jitter) :
    Turn × Option LoopState :=
  (⟨profile, selected, callTimeout, some (attempt, loop.backoff.delay attempt jitter)⟩,
    some ⟨min (attempt + 1) u32Max, cycler, some profile.slot⟩)

/-- **One turn of the loop**: what it does, and what the loop holds after it, unless it ends. There
is none where there is no profile to try. -/
def turn (s : LoopState) (attempt : Attempt) (jitter : Jitter) :
    Option (Turn × Option LoopState) :=
  (loop.profiles.profileAt s.cycler.index).map fun profile =>
    let selected :=
      if s.announced ≠ some profile.slot then some (profile.slot, profile.url) else none
    match attempt with
    | .session ended =>
      let callTimeout := profile.messageTimeout.getD loop.defaultCallTimeout
      if ended = .closed ∨ loop.reconnect = false then
        (⟨profile, selected, some callTimeout, none⟩, none)
      else loop.pause profile selected (some callTimeout) 0 s.cycler.succeeded jitter
    | .failed =>
      if loop.reconnect = false then (⟨profile, selected, none, none⟩, none)
      else loop.pause profile selected none s.attempt s.cycler.failed.1 jitter

/-- **The turns of a run**, and what the loop holds after them, unless it has ended. -/
def run (s : LoopState) : List (Attempt × Jitter) → List Turn × Option LoopState
  | [] => ([], some s)
  | (attempt, jitter) :: rest =>
    match loop.turn s attempt jitter with
    | none => ([], none)
    | some (turn, none) => ([turn], none)
    | some (turn, some s') => (turn :: (run s' rest).1, (run s' rest).2)

/-! ### What a turn does -/

variable {loop} {s s' : LoopState} {attempt : Attempt} {jitter : Jitter} {turn : Turn}

/-- **What a turn that goes on does**: the slot it tries is the one that the walk is at, it
announces the slot if it has changed, and it goes on where it is or, after a failure, with the next
try. -/
theorem turn_cases (h : loop.turn s attempt jitter = some (turn, some s')) :
    loop.profiles.profileAt s.cycler.index = some turn.profile ∧
      turn.selected = (if s.announced ≠ some turn.profile.slot then
        some (turn.profile.slot, turn.profile.url) else none) ∧
      s'.announced = some turn.profile.slot ∧
      ((attempt = .session .disconnected ∧ s'.cycler = s.cycler.succeeded ∧
          s'.attempt = min 1 u32Max ∧
          turn.callTimeout = some (turn.profile.messageTimeout.getD loop.defaultCallTimeout) ∧
          turn.reconnecting = some (0, loop.backoff.delay 0 jitter)) ∨
        (attempt = .failed ∧ s'.cycler = s.cycler.failed.1 ∧
          s'.attempt = min (s.attempt + 1) u32Max ∧ turn.callTimeout = none ∧
          turn.reconnecting = some (s.attempt, loop.backoff.delay s.attempt jitter))) := by
  rw [StationLoop.turn, Option.map_eq_some_iff] at h
  obtain ⟨profile, hprofile, h⟩ := h
  dsimp only at h
  rcases attempt with _ | ended
  · dsimp only at h
    split at h
    · cases h
    · cases h
      exact ⟨hprofile, rfl, rfl, Or.inr ⟨rfl, rfl, rfl, rfl, rfl⟩⟩
  · dsimp only at h
    split at h
    · cases h
    · next hgoes =>
      cases h
      rw [not_or] at hgoes
      obtain rfl : ended = .disconnected := by
        cases ended
        · rfl
        · exact absurd rfl hgoes.1
      exact ⟨hprofile, rfl, rfl, Or.inl ⟨rfl, rfl, rfl, rfl, rfl⟩⟩

/-- What a turn announces, when it is the last one too. -/
theorem selected_of_turn {s'' : Option LoopState}
    (h : loop.turn s attempt jitter = some (turn, s'')) :
    turn.selected = (if s.announced ≠ some turn.profile.slot then
      some (turn.profile.slot, turn.profile.url) else none) := by
  rw [StationLoop.turn, Option.map_eq_some_iff] at h
  obtain ⟨profile, -, h⟩ := h
  dsimp only at h
  rcases attempt with _ | ended
  · dsimp only at h
    split at h <;> cases h <;> rfl
  · dsimp only at h
    split at h <;> cases h <;> rfl

theorem run_cons_of_turn {rest : List (Attempt × Jitter)}
    (h : loop.turn s attempt jitter = some (turn, some s')) :
    loop.run s ((attempt, jitter) :: rest) =
      (turn :: (loop.run s' rest).1, (loop.run s' rest).2) := by
  rw [run, h]

/-! ### Whole runs -/

theorem at_turn {try_ : ℕ} (hat : ProfileCycler.At loop.profiles s.cycler try_)
    (hne : loop.profiles.priority ≠ []) (h : loop.turn s attempt jitter = some (turn, some s')) :
    ∃ next, ProfileCycler.At loop.profiles s'.cycler next ∧
      (attempt = .failed → next = try_ + 1) := by
  obtain ⟨-, -, -, ⟨rfl, hcycler, -⟩ | ⟨rfl, hcycler, -⟩⟩ := turn_cases h
  · refine ⟨_, hcycler ▸ hat.succeeded, ?_⟩
    rintro ⟨⟩
  · exact ⟨_, hcycler ▸ hat.failed hne, fun _ => rfl⟩

/-- **Every state that a run reaches is at some try.** -/
theorem at_run {try_ : ℕ} (hat : ProfileCycler.At loop.profiles s.cycler try_)
    (hne : loop.profiles.priority ≠ []) {inputs : List (Attempt × Jitter)}
    (h : (loop.run s inputs).2 = some s') :
    ∃ next, ProfileCycler.At loop.profiles s'.cycler next := by
  induction inputs generalizing s try_ with
  | nil =>
      cases h
      exact ⟨_, hat⟩
  | cons input inputs ih =>
      obtain ⟨attempt, jitter⟩ := input
      rcases hturn : loop.turn s attempt jitter with _ | ⟨turn, _ | next⟩
      · rw [run, hturn] at h
        cases h
      · rw [run, hturn] at h
        cases h
      · rw [run_cons_of_turn hturn] at h
        obtain ⟨next, hnext, -⟩ := at_turn hat hne hturn
        exact ih hnext h

/-- A turn that fails goes on, where the loop reconnects. -/
theorem exists_turn_failed {try_ : ℕ} (hat : ProfileCycler.At loop.profiles s.cycler try_)
    (hne : loop.profiles.priority ≠ []) (hreconnect : loop.reconnect = true) (jitter : Jitter) :
    ∃ turn s', loop.turn s .failed jitter = some (turn, some s') ∧
      some turn.profile.slot = Turns.turn loop.profiles.attempts loop.profiles.priority try_ := by
  obtain ⟨profile, hprofile, hslot⟩ := loop.profiles.exists_profileAt hne s.cycler.index
  have hgoes : ¬loop.reconnect = false := by
    rw [hreconnect]
    decide
  have hturn : loop.turn s .failed jitter = some (loop.pause profile
      (if s.announced ≠ some profile.slot then some (profile.slot, profile.url) else none) none
      s.attempt s.cycler.failed.1 jitter) := by
    rw [StationLoop.turn, hprofile, Option.map_some]
    dsimp only
    rw [if_neg hgoes]
  rw [hat.index, Nat.mod_mod] at hslot
  exact ⟨_, _, hturn, hslot.symm⟩

/-- **The slots that are tried in a row of failures** are those whose turn it is. -/
theorem slots_streak {try_ : ℕ} (hat : ProfileCycler.At loop.profiles s.cycler try_)
    (hne : loop.profiles.priority ≠ []) (hreconnect : loop.reconnect = true)
    {streak : List (Attempt × Jitter)} (hfailed : ∀ input ∈ streak, input.1 = .failed) :
    ((loop.run s streak).1.map fun turn => some turn.profile.slot) =
      (List.range streak.length).map fun k =>
        Turns.turn loop.profiles.attempts loop.profiles.priority (try_ + k) := by
  induction streak generalizing s try_ with
  | nil => rfl
  | cons input streak ih =>
      obtain ⟨attempt, jitter⟩ := input
      obtain rfl : attempt = .failed := hfailed _ List.mem_cons_self
      obtain ⟨turn, s', hturn, hslot⟩ := exists_turn_failed hat hne hreconnect jitter
      obtain ⟨next, hnext, htry⟩ := at_turn hat hne hturn
      rw [htry rfl] at hnext
      have hrest := ih hnext fun input hinput => hfailed input (List.mem_cons_of_mem _ hinput)
      rw [run_cons_of_turn hturn, List.map_cons, hrest, List.length_cons,
        List.range_succ_eq_map, List.map_cons, List.map_map, hslot, Nat.add_zero]
      refine congrArg _ (List.map_congr_left fun k _ => ?_)
      rw [Function.comp_apply, Nat.succ_eq_add_one, Nat.add_assoc, Nat.add_comm 1 k]

/-- **No slot is starved, and none is favoured.** In whatever state a run has left the loop, of as
many attempts in a row that fail as there are in all, each entry of the order has its share: the
slots that are tried are those of the order, each as often as an attempt is due to it. -/
theorem slots_fair (hne : loop.profiles.priority ≠ []) (hreconnect : loop.reconnect = true)
    {before : List (Attempt × Jitter)} (hbefore : (loop.run loop.start before).2 = some s)
    {streak : List (Attempt × Jitter)} (hfailed : ∀ input ∈ streak, input.1 = .failed)
    (hlength : streak.length = loop.profiles.attempts * loop.profiles.priority.length) :
    ((loop.run s streak).1.map fun turn => turn.profile.slot).Perm
      (loop.profiles.priority.flatMap (List.replicate loop.profiles.attempts)) := by
  -- the run before has left the loop at some try, it does not matter which
  obtain ⟨try_, hat⟩ := at_run (ProfileCycler.at_new loop.profiles) hne hbefore
  have hslots := slots_streak hat hne hreconnect hfailed
  have hperm := Turns.perm_turns loop.profiles.attempts_pos loop.profiles.priority try_
  rw [← hlength, ← hslots] at hperm
  have hsome : ((loop.run s streak).1.map fun turn => some turn.profile.slot) =
      ((loop.run s streak).1.map fun turn => turn.profile.slot).map some := by
    rw [List.map_map]
    rfl
  rw [hsome] at hperm
  exact (List.map_perm_map_iff (Option.some_injective ℤ)).mp hperm

/-- One more turn announces its slot when it differs. -/
theorem announced_cons {slot : ℤ} (hselected : turn.selected =
      if some slot ≠ some turn.profile.slot then some (turn.profile.slot, turn.profile.url)
      else none) {turns : List Turn}
    (hturns : turn.profile.slot :: (turns.filterMap Turn.selected).map Prod.fst =
      (turns.map fun turn => turn.profile.slot).destutter' (· ≠ ·) turn.profile.slot) :
    slot :: ((turn :: turns).filterMap Turn.selected).map Prod.fst =
      ((turn :: turns).map fun turn => turn.profile.slot).destutter' (· ≠ ·) slot := by
  -- the slot that was announced last is the one that was tried last
  by_cases hsame : slot = turn.profile.slot
  · rw [hsame, if_neg (not_not_intro rfl)] at hselected
    rw [List.filterMap_cons_none hselected, List.map_cons,
      List.destutter'_cons_neg _ (not_not_intro hsame), hsame, hturns]
  · rw [if_pos fun heq => hsame (Option.some.inj heq)] at hselected
    rw [List.filterMap_cons_some hselected, List.map_cons, List.map_cons,
      List.destutter'_cons_pos _ hsame, ← hturns]

/-- What is announced after a slot is each slot that differs from the one before. -/
theorem announced_from (inputs : List (Attempt × Jitter)) {slot : ℤ}
    (h : s.announced = some slot) :
    slot :: ((loop.run s inputs).1.filterMap Turn.selected).map Prod.fst =
      ((loop.run s inputs).1.map fun turn => turn.profile.slot).destutter' (· ≠ ·) slot := by
  induction inputs generalizing s slot with
  | nil => rfl
  | cons input inputs ih =>
      obtain ⟨attempt, jitter⟩ := input
      rcases hturn : loop.turn s attempt jitter with _ | ⟨turn, _ | next⟩
      · rw [run, hturn]
        rfl
      · have hselected := selected_of_turn hturn
        rw [h] at hselected
        rw [run, hturn]
        exact announced_cons hselected rfl
      · obtain ⟨-, hselected, hannounced, -⟩ := turn_cases hturn
        rw [h] at hselected
        rw [run_cons_of_turn hturn]
        exact announced_cons hselected (ih hannounced)

/-- **What a station announces is what it does**: in every run, the slots it announces are those
that it tries, each time they change. -/
theorem announced_run (loop : StationLoop) (inputs : List (Attempt × Jitter)) :
    ((loop.run loop.start inputs).1.filterMap Turn.selected).map Prod.fst =
      ((loop.run loop.start inputs).1.map fun turn => turn.profile.slot).destutter (· ≠ ·) := by
  have hfirst : ∀ turn : Turn, turn.selected =
      (if loop.start.announced ≠ some turn.profile.slot then
        some (turn.profile.slot, turn.profile.url) else none) →
      turn.selected = some (turn.profile.slot, turn.profile.url) := by
    intro turn hselected
    rw [hselected, if_pos]
    rintro ⟨⟩
  rcases inputs with _ | ⟨⟨attempt, jitter⟩, inputs⟩
  · rfl
  · rcases hturn : loop.turn loop.start attempt jitter with _ | ⟨turn, _ | next⟩
    · rw [run, hturn]
      rfl
    · rw [run, hturn]
      dsimp only
      rw [List.filterMap_cons_some (hfirst turn (selected_of_turn hturn))]
      rfl
    · obtain ⟨-, hselected, hannounced, -⟩ := turn_cases hturn
      rw [run_cons_of_turn hturn]
      dsimp only
      rw [List.filterMap_cons_some (hfirst turn hselected), List.map_cons, List.map_cons,
        announced_from inputs hannounced]
      rfl

end StationLoop

end OcppKit

/-! ### A station with a fallback -/

namespace OcppKit.Reference

/-- A fallback and a primary, which is tried first, and twice each. -/
def twoSlots : NetworkProfiles :=
  match (NetworkProfiles.new [⟨0, "ws://fallback/ocpp", none⟩,
    ⟨1, "ws://primary/ocpp", none⟩]).withPriority [1, 0] with
  | .ok profiles => profiles.connectionAttempts 2
  | .error _ => NetworkProfiles.new []

/-- A station that goes around them. -/
def twoSlotLoop : StationLoop where
  profiles := twoSlots
  backoff := Backoff.suggested
  reconnect := true
  defaultCallTimeout := 30000000000

/-- An attempt that fails. -/
def fails : Attempt × Jitter := (.failed, .none)

/-- One attempt fails, then there is a session that is lost. -/
def lostOnce : List (Attempt × Jitter) := [fails, (.session .disconnected, .none)]

theorem slots_fair_twoSlots : ∃ s, (twoSlotLoop.run twoSlotLoop.start lostOnce).2 = some s ∧
    (twoSlotLoop.run s [fails, fails, fails, fails]).1.map (fun turn => turn.profile.slot) =
      [1, 1, 0, 0] ∧
    ((twoSlotLoop.run s [fails, fails, fails, fails]).1.map fun turn => turn.profile.slot).Perm
      (twoSlots.priority.flatMap (List.replicate twoSlots.attempts)) := by
  have hsome : (twoSlotLoop.run twoSlotLoop.start lostOnce).2.isSome = true := by decide +kernel
  obtain ⟨s, hs⟩ := Option.isSome_iff_exists.mp hsome
  refine ⟨s, hs, ?_, ?_⟩
  · have hslots : ((twoSlotLoop.run twoSlotLoop.start lostOnce).2.map fun s =>
        (twoSlotLoop.run s [fails, fails, fails, fails]).1.map fun turn => turn.profile.slot) =
          some [1, 1, 0, 0] := by
      decide +kernel
    rw [hs, Option.map_some] at hslots
    exact Option.some.inj hslots
  · refine StationLoop.slots_fair (by decide +kernel) rfl hs ?_ (by decide +kernel)
    intro input hinput
    simp only [List.mem_cons, List.not_mem_nil, or_false, or_self] at hinput
    rw [hinput]
    rfl

end OcppKit.Reference
