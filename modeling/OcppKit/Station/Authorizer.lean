import OcppKit.Station.AuthorizationCache

/-!
# Deciding on a token

A station that is shown a token looks it up in the operator's list, unless it is told not to, and
then in the cache of what the CSMS has answered before (`OcppKit.Authorizer.decide`). Whether it
may act on what it finds depends on whether it can reach the CSMS, and on the policy: an entry that
accepts the token is acted on only where the policy says so, and one that does not only where there
is nobody to ask. An entry that has expired accepts nothing.

`OcppKit.Authorizer.decide_run`: after whatever has been done with the list, the cache and the
policy, a decision is the one that the table `OcppKit.Decided` has for what the list says now and
for what the CSMS has last said of this token, since the cache was last emptied. The cache may have
forgotten it, but never when it has room for all the tokens there were; and what it has forgotten
is nobody's word, so that no token is ever let in on an answer the CSMS has since taken back.

A token that the station knows to be accepted, and may not act on while it is offline, is treated
as one that it does not know.
-/

namespace OcppKit

/-! ### Decisions -/

/-- The status as of some instant: what has expired is not accepted. -/
def IdTokenInfo.statusAt (info : IdTokenInfo) (now : DateTime) : AuthorizationStatus :=
  match info.expires with
  | some expiry => if expiry.nanos ≤ now.nanos then .expired else info.status
  | none => info.status

/-- Where a local decision came from. -/
inductive LocalSource where
  /-- The operator's list. -/
  | localList
  /-- The cache of previous answers. -/
  | cache
deriving DecidableEq, Repr

/-- **What to do about a token.** -/
inductive Decision where
  /-- Act on this, without contacting the CSMS; its status is the one at this instant. -/
  | locally (source : LocalSource) (info : IdTokenInfo)
  /-- Ask the CSMS. -/
  | askCsms
  /-- There is nobody to ask, and nothing to act on. -/
  | offlineUnknown (startAnyway : Bool)
deriving DecidableEq, Repr

/-- The variables that decide where an answer may come from. -/
structure AuthorizationPolicy where
  /-- Whether the list is consulted. -/
  localAuthListEnabled : Bool
  /-- Whether a local entry that accepts is acted on while offline. -/
  localAuthorizeOffline : Bool
  /-- Whether it is while online. -/
  localPreAuthorize : Bool
  /-- Whether a token that nothing is known of may charge while offline. -/
  offlineTxForUnknownId : Bool
deriving DecidableEq, Repr

/-- The conservative configuration. -/
def AuthorizationPolicy.default : AuthorizationPolicy := ⟨true, true, false, false⟩

/-- **The list and the cache tied together.** -/
structure Authorizer where
  /-- The operator's list. -/
  list : LocalAuthorizationList
  /-- The cache of answers. -/
  cache : AuthorizationCache
  /-- Which of them may be used, and when. -/
  policy : AuthorizationPolicy

/-- Whether an entry that accepts may be acted on. -/
def AuthorizationPolicy.mayUseLocal (policy : AuthorizationPolicy) (online : Bool) : Bool :=
  if online then policy.localPreAuthorize else policy.localAuthorizeOffline

namespace Authorizer

/-- What the list says of a token, if it is consulted. -/
def listed (a : Authorizer) (token : String) : Option IdTokenInfo :=
  if a.policy.localAuthListEnabled then a.list.entries.find token else none

/-- **Decides what to do with a token.** -/
def decide (a : Authorizer) (token : String) (online : Bool) (now : DateTime) :
    Authorizer × Decision :=
  let looked :=
    match a.listed token with
    | some info => (a, some (LocalSource.localList, info))
    | none =>
      let (cache, info) := a.cache.get token
      ({ a with cache := cache }, info.map fun info => (LocalSource.cache, info))
  let unknown : Decision :=
    if online then .askCsms else .offlineUnknown a.policy.offlineTxForUnknownId
  (looked.1,
    match looked.2 with
    | none => unknown
    | some (source, info) =>
      let status := info.statusAt now
      if status = .accepted then
        if a.policy.mayUseLocal online then .locally source { info with status := status }
        -- online the CSMS is asked, and offline it is as if nothing was known
        else unknown
      else if online then .askCsms
      -- there is nobody to appeal to
      else .locally source { info with status := status })

/-- Records what the CSMS answered. -/
def remember (a : Authorizer) (token : String) (info : IdTokenInfo) : Authorizer :=
  { a with cache := a.cache.remember token info }

end Authorizer

/-! ### What is done with it -/

/-- An operation on the authorizer, or on a part of it. -/
inductive AuthorizerOp where
  /-- A token is decided on. -/
  | decide (token : String) (online : Bool) (now : DateTime)
  /-- What was answered is recorded. -/
  | remember (token : String) (info : IdTokenInfo)
  /-- The list is updated. -/
  | update (update : UpdateType) (version : ℤ) (entries : List UpdateEntry)
  /-- The list is emptied. -/
  | clearList
  /-- The cache is emptied. -/
  | clearCache
  /-- The cache is turned on or off. -/
  | setEnabled (enabled : Bool)
  /-- The policy is replaced. -/
  | setPolicy (policy : AuthorizationPolicy)

namespace Authorizer

/-- One operation. -/
def step (a : Authorizer) : AuthorizerOp → Authorizer
  | .decide token online now => (a.decide token online now).1
  | .remember token info => a.remember token info
  | .update update version entries =>
      { a with list := (a.list.update update version entries).1 }
  | .clearList => { a with list := a.list.clear }
  | .clearCache => { a with cache := a.cache.clear }
  | .setEnabled enabled => { a with cache := a.cache.setEnabled enabled }
  | .setPolicy policy => { a with policy := policy }

/-- Operations one after another. -/
def run (a : Authorizer) (ops : List AuthorizerOp) : Authorizer := ops.foldl step a

end Authorizer

/-! ### What the CSMS has answered -/

/-- **What the CSMS has last answered while the cache was on**, of each token, since it was last
emptied. -/
structure Answers where
  /-- Whether answers are recorded. -/
  enabled : Bool
  /-- The last one. -/
  last : String → Option IdTokenInfo

namespace Answers

/-- Nothing has been answered. -/
def none : Answers := ⟨true, fun _ => .none⟩

/-- One operation on the cache. -/
def step (m : Answers) : CacheOp → Answers
  | .remember token info =>
      if m.enabled then { m with last := Function.update m.last token (some info) } else m
  | .get _ => m
  | .clear => { m with last := fun _ => .none }
  | .setEnabled enabled => ⟨enabled, if enabled then m.last else fun _ => .none⟩

end Answers

/-- The operation on the cache that is recorded. -/
def AuthorizerOp.recorded : AuthorizerOp → Option CacheOp
  | .remember token info => some (.remember token info)
  | .clearCache => some .clear
  | .setEnabled enabled => some (.setEnabled enabled)
  | _ => none

/-- **What the CSMS has answered**, after these operations. -/
def answersOf (ops : List AuthorizerOp) : Answers :=
  (ops.filterMap AuthorizerOp.recorded).foldl Answers.step Answers.none

/-- The tokens it has answered for. -/
def answeredFor (ops : List AuthorizerOp) : List String :=
  ops.filterMap fun
    | .remember token _ => some token
    | _ => none

/-! ### What the cache recalls -/

namespace AuthorizationCache

theorem find_evict (capacity : ℕ) (entries : SortedMap String (ℕ × IdTokenInfo)) {token : String}
    {e : ℕ × IdTokenInfo} (h : (evict capacity entries).find token = some e) :
    entries.find token = some e := by
  induction entries using evict.induct capacity with
  | case1 entries hbig oldest holdest ih =>
      rw [evict, if_pos hbig] at h
      split at h
      next token' htoken' =>
        obtain rfl : oldest = token' := Option.some.inj (holdest.symm.trans htoken')
        have hremoved := ih h
        rw [SortedMap.find_remove] at hremoved
        split at hremoved
        · cases hremoved
        · exact hremoved
      next hnone => exact absurd (holdest.symm.trans hnone) (by simp)
  | case2 entries hbig hnone =>
      rw [evict, if_pos hbig] at h
      split at h
      next token' htoken' => exact absurd (htoken'.symm.trans hnone) (by simp)
      next => exact h
  | case3 entries hsmall =>
      rwa [evict, if_neg hsmall] at h

theorem evict_of_le {capacity : ℕ} {entries : SortedMap String (ℕ × IdTokenInfo)}
    (h : entries.size ≤ capacity) : evict capacity entries = entries := by
  rw [evict, if_neg (not_lt.mpr h)]

/-- **The cache recalls what was answered**: nothing else, only what was answered for these tokens,
and all of it as long as there is room for them. -/
structure Recalls (cache : AuthorizationCache) (answers : Answers) (tokens : List String) :
    Prop where
  /-- It is in use when answers are recorded. -/
  enabled : cache.enabled = answers.enabled
  /-- What it has of a token is what was last answered. -/
  last : ∀ token stamp info, cache.entries.find token = some (stamp, info) →
    answers.last token = some info
  /-- Its tokens are among these. -/
  keys : cache.entries.keys ⊆ tokens
  /-- If there is room for them, it has forgotten none. -/
  all : tokens.dedup.length ≤ cache.capacity → ∀ token info, answers.last token = some info →
    ∃ stamp, cache.entries.find token = some (stamp, info)

theorem size_le_of_keys {entries : SortedMap String (ℕ × IdTokenInfo)} {tokens : List String}
    (h : entries.keys ⊆ tokens) : entries.size ≤ tokens.dedup.length := by
  have hsub : entries.keys ⊆ tokens.dedup := fun token htoken => List.mem_dedup.mpr (h htoken)
  have hsize : entries.size = entries.keys.length := (List.length_map Prod.fst).symm
  rw [hsize]
  exact (entries.nodup_keys.subperm hsub).length_le

/-- What is answered is recorded. -/
theorem Recalls.remember {cache : AuthorizationCache} {answers : Answers} {tokens : List String}
    (h : cache.Recalls answers tokens) (token : String) (info : IdTokenInfo) :
    (cache.remember token info).Recalls (answers.step (.remember token info))
      (tokens ++ [token]) := by
  rw [AuthorizationCache.remember, Answers.step, h.enabled]
  have hgrow : tokens.dedup.length ≤ (tokens ++ [token]).dedup.length :=
    ((List.nodup_dedup _).subperm fun x hx => List.mem_dedup.mpr
      (List.mem_append_left _ (List.mem_dedup.mp hx))).length_le
  have hkeys : (cache.entries.insert token (cache.clock + 1, info)).keys ⊆ tokens ++ [token] := by
    intro x hx
    rw [← SortedMap.find_isSome_iff, SortedMap.find_insert] at hx
    split at hx
    next heq => exact List.mem_append_right _ (List.mem_singleton.mpr heq)
    next => exact List.mem_append_left _ (h.keys (SortedMap.find_isSome_iff.mp hx))
  split
  next =>
    have hlast : ∀ token' stamp info', (cache.entries.insert token (cache.clock + 1, info)).find
        token' = some (stamp, info') →
        Function.update answers.last token (some info) token' = some info' := by
      intro token' stamp info' hfind
      rw [SortedMap.find_insert] at hfind
      split at hfind
      next heq =>
        obtain ⟨-, rfl⟩ : cache.clock + 1 = stamp ∧ info = info' := by simpa using hfind
        rw [heq, Function.update_self]
      next hne =>
        rw [Function.update_of_ne hne]
        exact h.last token' stamp info' hfind
    refine ⟨rfl, ?_, ?_, fun hroom token' info' hanswer => ?_⟩
    · exact fun token' stamp info' hfind => hlast token' stamp info' (find_evict _ _ hfind)
    · intro x hx
      obtain ⟨e, he⟩ := Option.isSome_iff_exists.mp (SortedMap.find_isSome_iff.mpr hx)
      exact hkeys (SortedMap.find_isSome_iff.mp
        (Option.isSome_iff_exists.mpr ⟨e, find_evict _ _ he⟩))
    · -- there is room for the new one too, so that none is dropped
      change Function.update answers.last token (some info) token' = some info' at hanswer
      rw [evict_of_le ((size_le_of_keys hkeys).trans hroom), SortedMap.find_insert]
      rcases eq_or_ne token' token with rfl | hne
      · rw [Function.update_self] at hanswer
        obtain rfl := Option.some.inj hanswer
        exact ⟨_, if_pos rfl⟩
      · rw [Function.update_of_ne hne] at hanswer
        rw [if_neg hne]
        exact h.all (hgrow.trans hroom) token' info' hanswer
  next =>
    exact ⟨h.enabled, h.last, fun x hx => List.mem_append_left _ (h.keys hx),
      fun hroom => h.all (hgrow.trans hroom)⟩

/-- A token that is looked up is known afterwards as it was. -/
theorem Recalls.get {cache : AuthorizationCache} {answers : Answers} {tokens : List String}
    (h : cache.Recalls answers tokens) (token : String) :
    (cache.get token).1.Recalls answers tokens := by
  have hkept : ∀ {cache' : AuthorizationCache}, cache'.enabled = cache.enabled →
      cache'.capacity = cache.capacity →
      (∀ token', (cache'.entries.find token').map Prod.snd =
        (cache.entries.find token').map Prod.snd) → cache'.Recalls answers tokens := by
    intro cache' henabled hcapacity hfind
    have hiff : ∀ token' info, (∃ stamp, cache'.entries.find token' = some (stamp, info)) ↔
        ∃ stamp, cache.entries.find token' = some (stamp, info) := by
      intro token' info
      have hmap : ∀ o : Option (ℕ × IdTokenInfo),
          (∃ stamp, o = some (stamp, info)) ↔ o.map Prod.snd = some info := by
        intro o
        rcases o with _ | ⟨stamp, info'⟩ <;> simp
      rw [hmap, hmap, hfind]
    refine ⟨henabled.trans h.enabled, fun token' stamp info hsome => ?_, fun x hx => ?_,
      fun hroom token' info hanswer => ?_⟩
    · obtain ⟨stamp', hsome'⟩ := (hiff token' info).mp ⟨stamp, hsome⟩
      exact h.last token' stamp' info hsome'
    · obtain ⟨⟨stamp, info⟩, hsome⟩ :=
        Option.isSome_iff_exists.mp (SortedMap.find_isSome_iff.mpr hx)
      obtain ⟨stamp', hsome'⟩ := (hiff x info).mp ⟨stamp, hsome⟩
      exact h.keys (SortedMap.find_isSome_iff.mp (Option.isSome_iff_exists.mpr ⟨_, hsome'⟩))
    · rw [hcapacity] at hroom
      exact (hiff token' info).mpr (h.all hroom token' info hanswer)
  rw [AuthorizationCache.get]
  split
  · split
    next stamp info hsome =>
      refine hkept rfl rfl fun token' => ?_
      rw [SortedMap.find_insert]
      split
      next heq => rw [heq, hsome, Option.map_some, Option.map_some]
      next => rfl
    next => exact hkept rfl rfl fun _ => rfl
  next => exact h

/-- What is found of a token is what was last answered, unless it was forgotten. -/
theorem Recalls.found {cache : AuthorizationCache} {answers : Answers} {tokens : List String}
    (h : cache.Recalls answers tokens)
    (hdisabled : answers.enabled = false → answers.last = fun _ => none) (token : String) :
    (∀ info, (cache.get token).2 = some info → answers.last token = some info) ∧
      (tokens.dedup.length ≤ cache.capacity → (cache.get token).2 = answers.last token) := by
  have hsound : ∀ info, (cache.get token).2 = some info → answers.last token = some info := by
    intro info hget
    rw [AuthorizationCache.get] at hget
    split at hget
    · split at hget
      next stamp info' hsome =>
        obtain rfl := Option.some.inj hget
        exact h.last token stamp info' hsome
      next => cases hget
    · cases hget
  refine ⟨hsound, fun hroom => ?_⟩
  rcases hlast : answers.last token with _ | info
  · rcases hget : (cache.get token).2 with _ | info
    · rfl
    · exact absurd (hlast.symm.trans (hsound info hget)) (by simp)
  · obtain ⟨stamp, hsome⟩ := h.all hroom token info hlast
    rw [AuthorizationCache.get, if_pos, hsome]
    rw [h.enabled]
    by_contra hoff
    rw [hdisabled (Bool.eq_false_of_not_eq_true hoff)] at hlast
    cases hlast

/-- What is emptied recalls nothing, and nothing has been answered since. -/
theorem recalls_empty {cache : AuthorizationCache} {answers : Answers} (tokens : List String)
    (henabled : cache.enabled = answers.enabled) (hentries : cache.entries = .empty)
    (hlast : answers.last = fun _ => none) : cache.Recalls answers tokens := by
  refine ⟨henabled, fun token stamp info hfind => ?_, ?_, fun _ token info hanswer => ?_⟩
  · rw [hentries] at hfind
    cases hfind
  · rw [hentries]
    exact List.nil_subset _
  · rw [hlast] at hanswer
    cases hanswer

end AuthorizationCache

/-! ### What is decided -/

/-- **What is decided of a token**, by what the list says of it, what is recalled of the answers,
and whether there is somebody to ask. -/
inductive Decided (policy : AuthorizationPolicy) (known : Option (LocalSource × IdTokenInfo))
    (online : Bool) (now : DateTime) : Decision → Prop
  /-- It is known to be accepted, and that may be acted on. -/
  | accepted (source : LocalSource) (info : IdTokenInfo) : known = some (source, info) →
      info.statusAt now = .accepted → policy.mayUseLocal online = true →
      Decided policy known online now (.locally source { info with status := .accepted })
  /-- It is known not to be, and there is nobody to ask. -/
  | refused (source : LocalSource) (info : IdTokenInfo) : known = some (source, info) →
      info.statusAt now ≠ .accepted → online = false →
      Decided policy known online now (.locally source { info with status := info.statusAt now })
  /-- Nothing is known that may be acted on, and there is somebody to ask. -/
  | asked : online = true →
      (∀ source info, known = some (source, info) → info.statusAt now = .accepted →
        policy.localPreAuthorize = false) → Decided policy known online now .askCsms
  /-- Nothing is known that may be acted on, and there is nobody to ask. -/
  | unknown : online = false →
      (∀ source info, known = some (source, info) → info.statusAt now = .accepted ∧
        policy.localAuthorizeOffline = false) →
      Decided policy known online now (.offlineUnknown policy.offlineTxForUnknownId)

namespace Authorizer

/-- What is known of a token, when this is recalled of it. -/
def known (a : Authorizer) (token : String) (recalled : Option IdTokenInfo) :
    Option (LocalSource × IdTokenInfo) :=
  match a.listed token with
  | some info => some (.localList, info)
  | none => recalled.map fun info => (.cache, info)

theorem decided_decide (a : Authorizer) (token : String) (online : Bool) (now : DateTime) :
    Decided a.policy (a.known token (a.cache.get token).2) online now
      (a.decide token online now).2 := by
  have hlooked : ∃ looked : Option (LocalSource × IdTokenInfo),
      a.known token (a.cache.get token).2 = looked ∧ (a.decide token online now).2 =
        match looked with
        | none => if online then .askCsms else .offlineUnknown a.policy.offlineTxForUnknownId
        | some (source, info) =>
          if info.statusAt now = .accepted then
            if a.policy.mayUseLocal online then
              .locally source { info with status := info.statusAt now }
            else if online then .askCsms else .offlineUnknown a.policy.offlineTxForUnknownId
          else if online then .askCsms
          else .locally source { info with status := info.statusAt now } := by
    rcases hlisted : a.listed token with _ | info
    · refine ⟨_, rfl, ?_⟩
      simp only [decide, known, hlisted]
    · refine ⟨_, rfl, ?_⟩
      simp only [decide, known, hlisted]
  obtain ⟨looked, hknown, hdecide⟩ := hlooked
  rw [hknown, hdecide]
  rcases looked with _ | ⟨source, info⟩
  · cases online with
    | true => exact .asked rfl (by intro source info h; cases h)
    | false => exact .unknown rfl (by intro source info h; cases h)
  · dsimp only
    split
    next haccepted =>
      split
      next hmay =>
        rw [haccepted]
        exact .accepted source info rfl haccepted hmay
      next hmay =>
        have hnot := Bool.eq_false_of_not_eq_true hmay
        cases online with
        | true => exact .asked rfl fun _ _ _ _ => hnot
        | false =>
            refine .unknown rfl fun source' info' h => ?_
            obtain ⟨-, rfl⟩ : source = source' ∧ info = info' := by simpa using h
            exact ⟨haccepted, hnot⟩
    next hrefused =>
      cases online with
      | true =>
          refine .asked rfl fun source' info' h haccepted => ?_
          obtain ⟨-, rfl⟩ : source = source' ∧ info = info' := by simpa using h
          exact absurd haccepted hrefused
      | false => exact .refused source info rfl hrefused rfl

/-! ### What has been done before -/

/-- **What a station goes by**: its cache recalls the answers it has had. -/
structure GoesBy (a : Authorizer) (capacity : ℕ) (answers : Answers) (tokens : List String) :
    Prop where
  /-- The cache recalls them. -/
  recalls : a.cache.Recalls answers tokens
  /-- It has this much room. -/
  capacity : a.cache.capacity = capacity
  /-- While answers are not recorded, there are none. -/
  disabled : answers.enabled = false → answers.last = fun _ => none

theorem GoesBy.of_cache {a a' : Authorizer} {capacity : ℕ} {answers : Answers}
    {tokens : List String} (h : a.GoesBy capacity answers tokens) (hcache : a'.cache = a.cache) :
    a'.GoesBy capacity answers tokens :=
  ⟨hcache ▸ h.recalls, hcache ▸ h.capacity, h.disabled⟩

theorem goesBy_step {a : Authorizer} {capacity : ℕ} {ops : List AuthorizerOp}
    (h : a.GoesBy capacity (answersOf ops) (answeredFor ops)) (op : AuthorizerOp) :
    (a.step op).GoesBy capacity (answersOf (ops ++ [op])) (answeredFor (ops ++ [op])) := by
  have hanswers : answersOf (ops ++ [op]) =
      (op.recorded.toList).foldl Answers.step (answersOf ops) := by
    rw [answersOf, List.filterMap_append, List.foldl_append, ← answersOf]
    congr 1
  have htokens : answeredFor (ops ++ [op]) = answeredFor ops ++ answeredFor [op] :=
    List.filterMap_append
  rw [hanswers, htokens]
  cases op with
  | decide token online now =>
      simp only [AuthorizerOp.recorded, Option.toList_none, List.foldl_nil, answeredFor,
        List.filterMap_cons, List.filterMap_nil, List.append_nil]
      -- the cache is asked only of what the list does not have
      rcases hlisted : a.listed token with _ | info
      · have hcache : (a.step (.decide token online now)).cache = (a.cache.get token).1 := by
          simp only [step, decide, hlisted]
        refine ⟨hcache ▸ h.recalls.get token, hcache ▸ ?_, h.disabled⟩
        rw [AuthorizationCache.get, ← h.capacity]
        split
        · split <;> rfl
        · rfl
      · refine h.of_cache ?_
        simp only [step, decide, hlisted]
  | remember token info =>
      refine ⟨h.recalls.remember token info, ?_, fun hoff => ?_⟩
      · rw [step, remember, AuthorizationCache.remember, ← h.capacity]
        split <;> rfl
      · simp only [AuthorizerOp.recorded, Option.toList_some, List.foldl_cons, List.foldl_nil,
          Answers.step] at hoff ⊢
        split at hoff
        next hon => exact absurd (hoff.symm.trans hon) (by simp)
        next hoff' =>
          rw [if_neg hoff']
          exact h.disabled hoff
  | update update version entries =>
      exact (List.append_nil (answeredFor ops)).symm ▸ h.of_cache rfl
  | clearList => exact (List.append_nil (answeredFor ops)).symm ▸ h.of_cache rfl
  | setPolicy policy => exact (List.append_nil (answeredFor ops)).symm ▸ h.of_cache rfl
  | clearCache =>
      exact ⟨AuthorizationCache.recalls_empty _ h.recalls.enabled rfl rfl, h.capacity,
        fun _ => rfl⟩
  | setEnabled enabled =>
      cases enabled with
      | false =>
          exact ⟨AuthorizationCache.recalls_empty _ rfl rfl rfl, h.capacity, fun _ => rfl⟩
      | true =>
          refine ⟨⟨rfl, h.recalls.last, fun x hx => ?_, ?_⟩, h.capacity, fun hoff => ?_⟩
          · exact List.mem_append_left _ (h.recalls.keys hx)
          · rw [show answeredFor [AuthorizerOp.setEnabled true] = [] from rfl, List.append_nil]
            exact h.recalls.all
          · cases hoff

theorem goesBy_run (list : LocalAuthorizationList) (capacity : ℕ) (policy : AuthorizationPolicy)
    (ops : List AuthorizerOp) : (run ⟨list, .withCapacity capacity, policy⟩ ops).GoesBy
      (max capacity 1) (answersOf ops) (answeredFor ops) := by
  induction ops using List.reverseRecOn with
  | nil =>
      refine ⟨AuthorizationCache.recalls_empty _ rfl rfl rfl, rfl, fun hoff => ?_⟩
      cases hoff
  | append_singleton ops op ih =>
      rw [run, List.foldl_append]
      exact goesBy_step ih op

/-- **What is decided**, after whatever has been done: what the table says of the token, for what
the list says now, and otherwise for what the CSMS has last answered while the cache was on, of
which only what there was no room for may have been forgotten. -/
theorem decide_run (list : LocalAuthorizationList) (capacity : ℕ) (policy : AuthorizationPolicy)
    (ops : List AuthorizerOp) (token : String) (online : Bool) (now : DateTime) :
    let a := run ⟨list, .withCapacity capacity, policy⟩ ops
    ∃ recalled, (∀ info, recalled = some info → (answersOf ops).last token = some info) ∧
      ((answeredFor ops).dedup.length ≤ max capacity 1 →
        recalled = (answersOf ops).last token) ∧
      Decided a.policy (a.known token recalled) online now (a.decide token online now).2 := by
  intro a
  have hgoes := goesBy_run list capacity policy ops
  obtain ⟨hsound, hall⟩ := hgoes.recalls.found hgoes.disabled token
  refine ⟨(a.cache.get token).2, hsound, fun hroom => hall ?_, decided_decide a token online now⟩
  rw [hgoes.capacity]
  exact hroom

end Authorizer

end OcppKit
