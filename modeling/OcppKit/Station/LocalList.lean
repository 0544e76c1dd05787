import OcppKit.Basic
import OcppKit.Library.SortedMap

/-!
# The local authorization list

A list of tokens that the operator keeps, in versions. An update replaces the list or patches it
(`OcppKit.LocalAuthorizationList.update`): entry after entry, of which one without an info
deletes its token. Before any of it is applied, the size of what would come of it is computed,
and an update that would not fit is refused.

That size is counted off the list as it stands, each entry on its own. So a token that stands
twice in an update is counted twice: added twice when it is new, deleted twice when it is not –
and the second may be more than there is. Only the last entry of a token says what becomes of it
(`OcppKit.LocalAuthorizationList.applyEntries_finals`), so the size is right exactly when the
entries that are overtaken make up for each other
(`OcppKit.LocalAuthorizationList.sound_iff`). As long as they do, the list stays within its limit
(`OcppKit.LocalAuthorizationList.update_sound`).
-/

namespace OcppKit

/-! ### Tokens -/

/-- The verdict on a token. -/
inductive AuthorizationStatus where
  /-- The token may charge. -/
  | accepted
  /-- The token is barred. -/
  | blocked
  /-- The token is already in a transaction elsewhere. -/
  | concurrentTx
  /-- The token's expiry has passed. -/
  | expired
  /-- The token is not valid. -/
  | invalid
  /-- The token is not known here. -/
  | unknown
deriving DecidableEq, Repr

/-- What is known about one token. -/
structure IdTokenInfo where
  /-- The verdict. -/
  status : AuthorizationStatus
  /-- When this entry stops being usable. -/
  expires : Option DateTime
  /-- The group the token belongs to. -/
  groupId : Option String
  /-- The language to show messages in. -/
  language : Option String
deriving DecidableEq, Repr

/-- An accepted token with no further constraints. -/
def IdTokenInfo.acceptedInfo : IdTokenInfo := ⟨.accepted, none, none, none⟩

/-- How an update changes the list. -/
inductive UpdateType where
  /-- Replace the whole list. -/
  | full
  /-- Apply the entries as a patch. -/
  | differential
deriving DecidableEq, Repr

/-- The result of an update. -/
inductive UpdateStatus where
  /-- Applied. -/
  | accepted
  /-- Refused. -/
  | failed
  /-- A patch with a version that is not greater than the current one. -/
  | versionMismatch
deriving DecidableEq, Repr

/-! ### The list -/

/-- An entry of an update: a token, and its info unless it is to be deleted. -/
abbrev UpdateEntry := String × Option IdTokenInfo

/-- **The operator-managed local authorization list.** -/
structure LocalAuthorizationList where
  /-- Its version. -/
  version : ℤ
  /-- The tokens it holds. -/
  entries : SortedMap String IdTokenInfo
  /-- How many it may hold. -/
  limit : Option ℕ

namespace LocalAuthorizationList

/-- An empty list at version 0. -/
def new : LocalAuthorizationList := ⟨0, .empty, none⟩

/-- An empty list that refuses to hold more than some number of entries. -/
def bounded (limit : ℕ) : LocalAuthorizationList := { new with limit := some limit }

/-- One entry applied. -/
def applyEntry (entries : SortedMap String IdTokenInfo) (entry : UpdateEntry) :
    SortedMap String IdTokenInfo :=
  match entry.2 with
  | some info => entries.insert entry.1 info
  | none => entries.remove entry.1

/-- **The entries applied**, in order. -/
def applyEntries (entries : SortedMap String IdTokenInfo) (update : List UpdateEntry) :
    SortedMap String IdTokenInfo :=
  update.foldl applyEntry entries

/-- An entry adds a token that is not there. -/
def adds (entries : SortedMap String IdTokenInfo) (entry : UpdateEntry) : Bool :=
  entry.2.isSome && !entries.contains entry.1

/-- An entry deletes a token that is there. -/
def deletes (entries : SortedMap String IdTokenInfo) (entry : UpdateEntry) : Bool :=
  entry.2.isNone && entries.contains entry.1

/-- The difference of two numbers of 64 bits, wrapping where it is less than zero. -/
def usizeSub (a b : ℕ) : ℕ := if b ≤ a then a - b else 2 ^ 64 - (b - a)

/-- The size the list would have, as it is computed. -/
def projected (list : LocalAuthorizationList) (update : UpdateType)
    (entries : List UpdateEntry) : ℕ :=
  match update with
  | .full => entries.countP fun entry => entry.2.isSome
  | .differential =>
      usizeSub (list.entries.size + entries.countP (adds list.entries))
        (entries.countP (deletes list.entries))

/-- What the entries are applied to. -/
def base (list : LocalAuthorizationList) : UpdateType → SortedMap String IdTokenInfo
  | .full => .empty
  | .differential => list.entries

/-- **Applies an update.** -/
def update (list : LocalAuthorizationList) (update : UpdateType) (version : ℤ)
    (entries : List UpdateEntry) : LocalAuthorizationList × UpdateStatus :=
  if update = .differential ∧ version ≤ list.version then (list, .versionMismatch)
  else if list.limit.any fun limit => limit < list.projected update entries then (list, .failed)
  else ({ list with version, entries := applyEntries (list.base update) entries }, .accepted)

/-- Empties the list and resets its version. -/
def clear (list : LocalAuthorizationList) : LocalAuthorizationList :=
  { list with version := 0, entries := .empty }

/-! ### The last entry of a token -/

/-- The entries that no other entry of their token comes after. -/
def finals : List UpdateEntry → List UpdateEntry
  | [] => []
  | entry :: rest =>
      if entry.1 ∈ rest.map Prod.fst then finals rest else entry :: finals rest

theorem mem_map_finals (entries : List UpdateEntry) (token : String) :
    token ∈ (finals entries).map Prod.fst ↔ token ∈ entries.map Prod.fst := by
  induction entries with
  | nil => rfl
  | cons entry rest ih =>
      rw [finals, List.map_cons, List.mem_cons]
      split
      next hlater =>
        rw [ih, or_iff_right_of_imp]
        rintro rfl
        exact hlater
      next hlater => rw [List.map_cons, List.mem_cons, ih]

theorem nodup_finals (entries : List UpdateEntry) : ((finals entries).map Prod.fst).Nodup := by
  induction entries with
  | nil => exact List.nodup_nil
  | cons entry rest ih =>
      rw [finals]
      split
      next hlater => exact ih
      next hlater =>
        rw [List.map_cons, List.nodup_cons, mem_map_finals]
        exact ⟨hlater, ih⟩

theorem find_applyEntry (entries : SortedMap String IdTokenInfo) (entry : UpdateEntry)
    (token : String) : (applyEntry entries entry).find token =
      if token = entry.1 then entry.2 else entries.find token := by
  rw [applyEntry]
  rcases hinfo : entry.2 with _ | info
  · exact SortedMap.find_remove _ _ _
  · exact SortedMap.find_insert _ _ _ _

/-- What is found of a token depends on what was there only while no entry names it. -/
theorem find_applyEntries_congr {entries entries' : SortedMap String IdTokenInfo}
    {update : List UpdateEntry} {token : String}
    (h : token ∈ update.map Prod.fst ∨ entries.find token = entries'.find token) :
    (applyEntries entries update).find token = (applyEntries entries' update).find token := by
  induction update generalizing entries entries' with
  | nil => exact h.resolve_left List.not_mem_nil
  | cons entry rest ih =>
      refine ih ?_
      rw [find_applyEntry, find_applyEntry]
      rcases h with h | h
      · rcases List.mem_cons.mp h with rfl | h
        · exact Or.inr (by rw [if_pos rfl, if_pos rfl])
        · exact Or.inl h
      · rw [h]
        exact Or.inr rfl

/-- **Only the last entry of a token counts.** -/
theorem applyEntries_finals (entries : SortedMap String IdTokenInfo)
    (update : List UpdateEntry) :
    applyEntries entries (finals update) = applyEntries entries update := by
  induction update generalizing entries with
  | nil => rfl
  | cons entry rest ih =>
      rw [finals]
      split
      next hlater =>
        rw [ih]
        refine SortedMap.ext_find fun token => find_applyEntries_congr ?_
        rw [find_applyEntry]
        by_cases htoken : token = entry.1
        · exact Or.inl (htoken ▸ hlater)
        · exact Or.inr (if_neg htoken).symm
      next hlater => exact ih (applyEntry entries entry)

/-! ### The size -/

/-- One entry changes the size by the token it adds, or deletes. -/
theorem size_applyEntry (entries : SortedMap String IdTokenInfo) (entry : UpdateEntry) :
    (applyEntry entries entry).size + (if deletes entries entry then 1 else 0) =
      entries.size + (if adds entries entry then 1 else 0) := by
  rw [applyEntry, deletes, adds]
  rcases entry.2 with _ | info
  · have := entries.size_remove entry.1
    simpa using this
  · have := entries.size_insert entry.1 info
    rcases hcontains : entries.contains entry.1 with _ | _ <;> simp [hcontains, this]

/-- **Where no token stands twice, entries counted one by one are counted right.** -/
theorem size_applyEntries {entries : SortedMap String IdTokenInfo} {update : List UpdateEntry}
    (h : (update.map Prod.fst).Nodup) :
    (applyEntries entries update).size + update.countP (deletes entries) =
      entries.size + update.countP (adds entries) := by
  induction update generalizing entries with
  | nil => rfl
  | cons entry rest ih =>
      rw [List.map_cons, List.nodup_cons] at h
      -- the tokens of the rest are there or not as they were
      have hcontains : ∀ later ∈ rest,
          (applyEntry entries entry).contains later.1 = entries.contains later.1 := by
        intro later hlater
        rw [SortedMap.contains_eq_find, SortedMap.contains_eq_find, find_applyEntry, if_neg]
        rintro heq
        exact h.1 (heq ▸ List.mem_map_of_mem hlater)
      have hadds : rest.countP (adds (applyEntry entries entry)) = rest.countP (adds entries) :=
        List.countP_congr fun later hlater => by rw [adds, adds, hcontains later hlater]
      have hdeletes : rest.countP (deletes (applyEntry entries entry)) =
          rest.countP (deletes entries) :=
        List.countP_congr fun later hlater => by rw [deletes, deletes, hcontains later hlater]
      have hrest := @ih (applyEntry entries entry) h.2
      have hentry := size_applyEntry entries entry
      rw [hadds, hdeletes] at hrest
      rw [List.countP_cons, List.countP_cons, applyEntries, List.foldl_cons, ← applyEntries]
      omega

/-! ### Entries that are overtaken -/

/-- How many entries of a kind another entry of their token comes after. -/
def overtaken (kind : UpdateEntry → Bool) : List UpdateEntry → ℕ
  | [] => 0
  | entry :: rest =>
      overtaken kind rest + if kind entry && entry.1 ∈ rest.map Prod.fst then 1 else 0

/-- Entries are counted as the last of their tokens, and as those that are overtaken. -/
theorem countP_eq (kind : UpdateEntry → Bool) (entries : List UpdateEntry) :
    entries.countP kind = (finals entries).countP kind + overtaken kind entries := by
  induction entries with
  | nil => rfl
  | cons entry rest ih =>
      rw [List.countP_cons, ih, finals, overtaken]
      by_cases hlater : entry.1 ∈ rest.map Prod.fst
      · rw [if_pos hlater, decide_eq_true hlater, Bool.and_true, Nat.add_assoc]
      · rw [if_neg hlater, decide_eq_false hlater, Bool.and_false, List.countP_cons]
        simp only [Bool.false_eq_true, if_false]
        omega

/-- **The entries that are overtaken make up for each other**: as many that add a token the
list does not have as delete one it has. -/
def Balanced (list : LocalAuthorizationList) (update : UpdateType)
    (entries : List UpdateEntry) : Prop :=
  overtaken (adds (list.base update)) entries = overtaken (deletes (list.base update)) entries

instance (list : LocalAuthorizationList) (update : UpdateType) (entries : List UpdateEntry) :
    Decidable (list.Balanced update entries) :=
  inferInstanceAs (Decidable (_ = _))

/-- No more tokens are to be deleted than there are. -/
def NoUnderflow (list : LocalAuthorizationList) (update : UpdateType)
    (entries : List UpdateEntry) : Prop :=
  update = .differential → entries.countP (deletes list.entries) ≤
    list.entries.size + entries.countP (adds list.entries)

/-- **The size is counted right exactly where the entries that are overtaken make up for each
other.** -/
theorem projected_eq_iff (list : LocalAuthorizationList) (update : UpdateType)
    (entries : List UpdateEntry) :
    (list.NoUnderflow update entries ∧
        list.projected update entries = (applyEntries (list.base update) entries).size) ↔
      list.Balanced update entries := by
  have hsize := @size_applyEntries (list.base update) _ (nodup_finals entries)
  have hadds := countP_eq (adds (list.base update)) entries
  have hdeletes := countP_eq (deletes (list.base update)) entries
  rw [applyEntries_finals] at hsize
  rw [Balanced, NoUnderflow]
  cases update with
  | full =>
      have hnone : ∀ l : List UpdateEntry, l.countP (deletes .empty) = 0 := fun l =>
        List.countP_eq_zero.mpr fun entry _ => by simp [deletes, SortedMap.contains_eq_find]
      have hsome : entries.countP (adds .empty) = entries.countP fun entry => entry.2.isSome :=
        List.countP_congr fun entry _ => by simp [adds, SortedMap.contains_eq_find]
      have hempty : (SortedMap.empty : SortedMap String IdTokenInfo).size = 0 := rfl
      simp only [base, hnone, hempty, reduceCtorEq, false_implies, true_and, projected] at *
      omega
  | differential =>
      simp only [base, forall_const, projected, usizeSub] at *
      constructor
      · rintro ⟨hle, heq⟩
        rw [if_pos hle] at heq
        omega
      · intro hbalanced
        have hle : entries.countP (deletes list.entries) ≤
            list.entries.size + entries.countP (adds list.entries) := by
          omega
        refine ⟨hle, ?_⟩
        rw [if_pos hle]
        omega

/-! ### What an update ought to do -/

/-- The version of a patch is not greater than that of the list. -/
def Outdated (list : LocalAuthorizationList) (update : UpdateType) (version : ℤ) : Prop :=
  update = .differential ∧ version ≤ list.version

/-- **An update ought to do this.** -/
structure Sound (list : LocalAuthorizationList) (update : UpdateType) (version : ℤ)
    (entries : List UpdateEntry) : Prop where
  /-- The size that is computed is that of the list that would come of it. A list without a limit
  is no exception: its size is computed all the same, and may underflow. -/
  size_checked : ¬list.Outdated update version → list.NoUnderflow update entries ∧
    list.projected update entries = (applyEntries (list.base update) entries).size
  /-- What is within the limit, and not outdated, is accepted. -/
  accepted_iff : (list.update update version entries).2 = .accepted ↔
    ¬list.Outdated update version ∧
      ∀ limit ∈ list.limit, (applyEntries (list.base update) entries).size ≤ limit
  /-- What is refused changes nothing. -/
  refused : (list.update update version entries).2 ≠ .accepted →
    (list.update update version entries).1 = list
  /-- What is accepted is applied, entry after entry. -/
  applied : (list.update update version entries).2 = .accepted →
    (list.update update version entries).1 =
      { list with version, entries := applyEntries (list.base update) entries }

/-- **An update does what it ought to where the entries that are overtaken make up for each
other**, and where it is outdated. -/
theorem sound_iff (list : LocalAuthorizationList) (kind : UpdateType) (version : ℤ)
    (entries : List UpdateEntry) : list.Sound kind version entries ↔
      list.Outdated kind version ∨ list.Balanced kind entries := by
  rw [← projected_eq_iff]
  constructor
  · intro h
    by_cases houtdated : list.Outdated kind version
    · exact Or.inl houtdated
    · exact Or.inr (h.size_checked houtdated)
  · intro h
    have hrefused : (list.update kind version entries).2 ≠ .accepted →
        (list.update kind version entries).1 = list := by
      rw [update]
      split_ifs <;> simp
    have happlied : (list.update kind version entries).2 = .accepted →
        (list.update kind version entries).1 =
          { list with version, entries := applyEntries (list.base kind) entries } := by
      rw [update]
      split_ifs <;> simp
    refine ⟨fun hcurrent => h.resolve_left hcurrent, ?_, hrefused, happlied⟩
    rw [update]
    by_cases houtdated : list.Outdated kind version
    · have hmismatch : kind = .differential ∧ version ≤ list.version := houtdated
      rw [if_pos hmismatch]
      simp [houtdated]
    · obtain ⟨-, hsize⟩ := h.resolve_left houtdated
      have hcurrent : ¬(kind = .differential ∧ version ≤ list.version) := houtdated
      rw [if_neg hcurrent, hsize]
      simp only [houtdated, not_false_eq_true, true_and]
      rcases list.limit with _ | limit
      · simp
      · simp only [Option.any_some, decide_eq_true_eq, Option.mem_def, Option.some.injEq,
          forall_eq']
        split_ifs with hlimit
        · simpa using hlimit
        · simpa using hlimit

/-- **The lists a limit can come to**, by updates whose entries make up for each other. -/
inductive Reached (limit : Option ℕ) : LocalAuthorizationList → Prop
  /-- At first there are no entries. -/
  | start : Reached limit ⟨0, .empty, limit⟩
  /-- An update. -/
  | update {list : LocalAuthorizationList} (h : Reached limit list) (kind : UpdateType)
      (version : ℤ) (entries : List UpdateEntry)
      (hbalanced : list.Outdated kind version ∨ list.Balanced kind entries) :
      Reached limit (list.update kind version entries).1
  /-- The list is emptied. -/
  | clear {list : LocalAuthorizationList} (h : Reached limit list) : Reached limit list.clear

/-- A list never exceeds its limit. -/
def WithinLimit (list : LocalAuthorizationList) : Prop :=
  ∀ limit ∈ list.limit, list.entries.size ≤ limit

theorem Sound.withinLimit {list : LocalAuthorizationList} {kind : UpdateType} {version : ℤ}
    {entries : List UpdateEntry} (h : list.Sound kind version entries)
    (hlist : list.WithinLimit) : (list.update kind version entries).1.WithinLimit := by
  by_cases haccepted : (list.update kind version entries).2 = .accepted
  · rw [h.applied haccepted]
    exact (h.accepted_iff.mp haccepted).2
  · rw [h.refused haccepted]
    exact hlist

theorem Reached.withinLimit {limit : Option ℕ} {list : LocalAuthorizationList}
    (h : Reached limit list) : list.WithinLimit := by
  induction h with
  | start => exact fun limit _ => Nat.zero_le limit
  | update h kind version entries hbalanced ih =>
      exact ((sound_iff _ kind version entries).mpr hbalanced).withinLimit ih
  | clear h ih => exact fun limit _ => Nat.zero_le limit

/-- **Where an update does what it ought to**, and that a list stays within its limit while all
of them do. -/
theorem update_sound (list : LocalAuthorizationList) :
    (∀ kind version entries, list.Sound kind version entries ↔
        list.Outdated kind version ∨ list.Balanced kind entries) ∧
      ∀ limit, Reached limit list → list.WithinLimit :=
  ⟨list.sound_iff, fun _ h => h.withinLimit⟩

end LocalAuthorizationList

end OcppKit

namespace OcppKit.Reference

open LocalAuthorizationList

/-! ### A token deleted and added at once -/

/-- A list of one token at most, with the one. -/
def oneToken : LocalAuthorizationList :=
  { bounded 1 with entries := SortedMap.insert .empty "a" .acceptedInfo }

/-- The token is deleted and added again, and another is added. -/
def renewal : List UpdateEntry :=
  [("a", none), ("a", some .acceptedInfo), ("b", some .acceptedInfo)]

/-- **A list of one token at most has two.** -/
theorem limit_exceeded :
    ¬∀ (list : LocalAuthorizationList) (kind : UpdateType) (version : ℤ)
      (entries : List UpdateEntry), list.Sound kind version entries := by
  intro h
  have haccepted : (oneToken.update .differential 1 renewal).2 = .accepted := by decide +kernel
  have hsize := ((h oneToken .differential 1 renewal).accepted_iff.mp haccepted).2 1 rfl
  exact absurd hsize (by decide +kernel)

end OcppKit.Reference
