import Mathlib.Order.Defs.LinearOrder
import Mathlib.Data.List.Induction
import Mathlib.Data.List.Sort

/-!
# Maps kept in the order of their keys

A finite map as the list of its entries in the order of the keys
(`SortedMap`), which is how it is iterated: the order is a field, so two maps with
the same entries are equal.

The operations are those of an ordered map: `SortedMap.insert`, `SortedMap.remove`
and `SortedMap.modify`. An insertion above every key appends
(`SortedMap.entries_insert_of_lt`). A map is what is found in it (`SortedMap.ext_find`), and each
operation says what that is afterwards.
-/

/-- **A finite map in the order of its keys.** -/
@[ext]
structure SortedMap (κ α : Type) [LinearOrder κ] where
  /-- The entries, in order. -/
  entries : List (κ × α)
  /-- The keys increase. -/
  sorted : (entries.map Prod.fst).Pairwise (· < ·)

namespace SortedMap

variable {κ α : Type} [LinearOrder κ]

/-- The empty map. -/
def empty : SortedMap κ α := ⟨[], List.Pairwise.nil⟩

/-- The number of entries. -/
def size (m : SortedMap κ α) : ℕ := m.entries.length

/-- The keys, in order. -/
def keys (m : SortedMap κ α) : List κ := m.entries.map Prod.fst

/-- Whether a key is there. -/
def contains (m : SortedMap κ α) (k : κ) : Bool := m.entries.any fun e => e.1 = k

theorem contains_iff (m : SortedMap κ α) (k : κ) : m.contains k = true ↔ k ∈ m.keys := by
  simp [contains, keys]

/-! ### Insertion -/

/-- An entry in its place, replacing the one of the same key. -/
def place (k : κ) (a : α) : List (κ × α) → List (κ × α)
  | [] => [(k, a)]
  | e :: l =>
    if k < e.1 then (k, a) :: e :: l
    else if k = e.1 then (k, a) :: l
    else e :: place k a l

theorem mem_keys_place {k : κ} {a : α} {l : List (κ × α)} {x : κ}
    (h : x ∈ (place k a l).map Prod.fst) : x = k ∨ x ∈ l.map Prod.fst := by
  induction l with
  | nil => exact Or.inl (by simpa [place] using h)
  | cons e l ih =>
      rw [place] at h
      split at h
      · simpa using h
      · split at h
        · next he =>
            rcases List.mem_cons.mp h with h | h
            · exact Or.inl h
            · exact Or.inr (List.mem_cons_of_mem _ h)
        · rcases List.mem_cons.mp h with h | h
          · exact Or.inr (List.mem_cons.mpr (Or.inl h))
          · exact (ih h).imp id (List.mem_cons_of_mem _)

theorem sorted_place {k : κ} {a : α} {l : List (κ × α)}
    (h : (l.map Prod.fst).Pairwise (· < ·)) : ((place k a l).map Prod.fst).Pairwise (· < ·) := by
  induction l with
  | nil => simp [place]
  | cons e l ih =>
      rw [List.map_cons, List.pairwise_cons] at h
      obtain ⟨hhead, htail⟩ := h
      rw [place]
      split
      · next hlt =>
          rw [List.map_cons, List.map_cons, List.pairwise_cons, List.pairwise_cons]
          refine ⟨?_, hhead, htail⟩
          intro x hx
          rcases List.mem_cons.mp hx with rfl | hx
          · exact hlt
          · exact hlt.trans (hhead x hx)
      · next hlt =>
          split
          · next he =>
              rw [List.map_cons, List.pairwise_cons]
              exact ⟨fun x hx => he ▸ hhead x hx, htail⟩
          · next hne =>
              rw [List.map_cons, List.pairwise_cons]
              refine ⟨?_, ih htail⟩
              intro x hx
              rcases mem_keys_place hx with rfl | hx
              · exact lt_of_le_of_ne (not_lt.mp hlt) (Ne.symm hne)
              · exact hhead x hx

/-- The map with this entry. -/
def insert (m : SortedMap κ α) (k : κ) (a : α) : SortedMap κ α :=
  ⟨place k a m.entries, sorted_place m.sorted⟩

theorem place_of_lt {k : κ} {a : α} {l : List (κ × α)} (h : ∀ e ∈ l, e.1 < k) :
    place k a l = l ++ [(k, a)] := by
  induction l with
  | nil => rfl
  | cons e l ih =>
      have he := h e List.mem_cons_self
      rw [place, if_neg he.asymm, if_neg he.ne', ih fun x hx => h x (List.mem_cons_of_mem _ hx),
        List.cons_append]

/-- **An insertion above every key appends.** -/
theorem entries_insert_of_lt {m : SortedMap κ α} {k : κ} (h : ∀ e ∈ m.entries, e.1 < k) (a : α) :
    (m.insert k a).entries = m.entries ++ [(k, a)] :=
  place_of_lt h

theorem mem_place_self (k : κ) (a : α) (l : List (κ × α)) : (k, a) ∈ place k a l := by
  induction l with
  | nil => exact List.mem_singleton.mpr rfl
  | cons e l ih =>
      rw [place]
      split
      · exact List.mem_cons_self
      · split
        · exact List.mem_cons_self
        · exact List.mem_cons_of_mem _ ih

/-- The entry is there. -/
theorem mem_insert_self (m : SortedMap κ α) (k : κ) (a : α) : (k, a) ∈ (m.insert k a).entries :=
  mem_place_self k a m.entries

theorem mem_place_of_ne {k : κ} {a : α} {l : List (κ × α)} {e : κ × α} (he : e ∈ l)
    (hne : e.1 ≠ k) : e ∈ place k a l := by
  induction l with
  | nil => exact absurd he (List.not_mem_nil)
  | cons x l ih =>
      rw [place]
      split
      · exact List.mem_cons_of_mem _ he
      · split
        · next hk =>
            rcases List.mem_cons.mp he with rfl | he
            · exact absurd hk.symm hne
            · exact List.mem_cons_of_mem _ he
        · rcases List.mem_cons.mp he with rfl | he
          · exact List.mem_cons_self
          · exact List.mem_cons_of_mem _ (ih he)

/-- The other entries stay. -/
theorem mem_insert_of_ne {m : SortedMap κ α} {k : κ} {e : κ × α} (he : e ∈ m.entries)
    (hne : e.1 ≠ k) (a : α) : e ∈ (m.insert k a).entries :=
  mem_place_of_ne he hne

/-! ### Removal -/

/-- The map without a key. -/
def remove (m : SortedMap κ α) (k : κ) : SortedMap κ α :=
  ⟨m.entries.filter fun e => e.1 ≠ k, m.sorted.sublist (List.filter_sublist.map Prod.fst)⟩

/-- Removing a key that is not there changes nothing. -/
theorem remove_of_not_mem {m : SortedMap κ α} {k : κ} (h : k ∉ m.keys) : m.remove k = m := by
  refine SortedMap.ext ?_
  refine List.filter_eq_self.mpr ?_
  intro e he
  refine decide_eq_true ?_
  rintro rfl
  exact h (List.mem_map_of_mem he)

/-! ### Modification -/

/-- The entry of a key with its value changed; the others as they are. -/
def modifyEntry (k : κ) (f : α → α) (e : κ × α) : κ × α := if e.1 = k then (e.1, f e.2) else e

theorem modifyEntry_fst (k : κ) (f : α → α) (e : κ × α) : (modifyEntry k f e).1 = e.1 := by
  rw [modifyEntry]
  split <;> rfl

theorem map_fst_modifyEntry (k : κ) (f : α → α) (l : List (κ × α)) :
    (l.map (modifyEntry k f)).map Prod.fst = l.map Prod.fst := by
  rw [List.map_map]
  exact List.map_congr_left fun e _ => modifyEntry_fst k f e

/-- The map with the value of a key changed, if it is there. -/
def modify (m : SortedMap κ α) (k : κ) (f : α → α) : SortedMap κ α :=
  ⟨m.entries.map (modifyEntry k f), by rw [map_fst_modifyEntry]; exact m.sorted⟩

/-- Changing the value of a key that is not there changes nothing. -/
theorem modify_of_not_mem {m : SortedMap κ α} {k : κ} (h : k ∉ m.keys) (f : α → α) :
    m.modify k f = m := by
  refine SortedMap.ext ?_
  refine (List.map_congr_left ?_).trans (List.map_id _)
  intro e he
  refine if_neg ?_
  rintro rfl
  exact h (List.mem_map_of_mem he)

/-! ### What is found -/

/-- The value of a key in a list of entries. -/
def lookup (k : κ) (l : List (κ × α)) : Option α := (l.find? fun e => e.1 = k).map Prod.snd

theorem lookup_append (k : κ) (l l' : List (κ × α)) :
    lookup k (l ++ l') = (lookup k l).or (lookup k l') := by
  rw [lookup, List.find?_append, Option.map_or]
  rfl

theorem lookup_cons (k : κ) (e : κ × α) (l : List (κ × α)) :
    lookup k (e :: l) = if e.1 = k then some e.2 else lookup k l := by
  by_cases h : e.1 = k
  · rw [lookup, List.find?_cons_of_pos (by simpa using h), if_pos h]
    rfl
  · rw [lookup, List.find?_cons_of_neg (by simpa using h), if_neg h]
    rfl

/-- Where no key stands twice, what is looked up is what is there. -/
theorem lookup_eq_some_iff {l : List (κ × α)} (h : (l.map Prod.fst).Nodup) {k : κ} {a : α} :
    lookup k l = some a ↔ (k, a) ∈ l := by
  rw [lookup, Option.map_eq_some_iff]
  constructor
  · rintro ⟨e, he, rfl⟩
    have hkey : e.1 = k := by simpa using List.find?_some he
    rw [← hkey]
    exact List.mem_of_find?_eq_some he
  · intro hmem
    obtain ⟨e, he⟩ := Option.isSome_iff_exists.mp
      (List.find?_isSome.mpr ⟨(k, a), hmem, by simp⟩ :
        (l.find? fun e => e.1 = k).isSome = true)
    have hkey : e.1 = k := by simpa using List.find?_some he
    exact ⟨e, he, by
      rw [List.inj_on_of_nodup_map h (List.mem_of_find?_eq_some he) hmem hkey]⟩

/-- The value of a key. -/
def find (m : SortedMap κ α) (k : κ) : Option α := lookup k m.entries

theorem nodup_keys (m : SortedMap κ α) : m.keys.Nodup := m.sorted.imp fun h => h.ne

theorem find_eq_some_iff {m : SortedMap κ α} {k : κ} {a : α} :
    m.find k = some a ↔ (k, a) ∈ m.entries :=
  lookup_eq_some_iff m.nodup_keys

theorem find_isSome_iff {m : SortedMap κ α} {k : κ} : (m.find k).isSome ↔ k ∈ m.keys := by
  rw [Option.isSome_iff_exists, keys, List.mem_map]
  constructor
  · rintro ⟨a, ha⟩
    exact ⟨(k, a), find_eq_some_iff.mp ha, rfl⟩
  · rintro ⟨e, he, rfl⟩
    exact ⟨e.2, find_eq_some_iff.mpr he⟩

theorem contains_eq_find (m : SortedMap κ α) (k : κ) : m.contains k = (m.find k).isSome := by
  rw [Bool.eq_iff_iff, contains_iff, find_isSome_iff]

/-- **A map is what is found in it.** -/
theorem ext_find {m m' : SortedMap κ α} (h : ∀ k, m.find k = m'.find k) : m = m' := by
  have hmem : ∀ e, e ∈ m.entries ↔ e ∈ m'.entries := by
    rintro ⟨k, a⟩
    rw [← find_eq_some_iff, ← find_eq_some_iff, h]
  have hperm : m.entries.Perm m'.entries :=
    (List.perm_ext_iff_of_nodup (m.nodup_keys.of_map _) (m'.nodup_keys.of_map _)).mpr hmem
  have hsorted : ∀ n : SortedMap κ α, n.entries.Pairwise fun e e' => e.1 < e'.1 :=
    fun n => List.pairwise_map.mp n.sorted
  refine SortedMap.ext (hperm.eq_of_pairwise (fun e e' _ _ hlt hgt => ?_) (hsorted m) (hsorted m'))
  exact absurd hlt hgt.asymm

@[simp] theorem find_empty (k : κ) : (empty : SortedMap κ α).find k = none := rfl

theorem mem_place_iff {k : κ} {a : α} {l : List (κ × α)} (h : (l.map Prod.fst).Pairwise (· < ·))
    {e : κ × α} : e ∈ place k a l ↔ e = (k, a) ∨ (e.1 ≠ k ∧ e ∈ l) := by
  induction l with
  | nil => simp [place]
  | cons x l ih =>
      rw [List.map_cons, List.pairwise_cons] at h
      obtain ⟨hhead, htail⟩ := h
      have hgt : ∀ y ∈ l, x.1 < y.1 := fun y hy => hhead y.1 (List.mem_map_of_mem hy)
      rw [place]
      split
      next hlt =>
        rw [List.mem_cons]
        refine or_congr_right ⟨fun he => ⟨?_, he⟩, fun he => he.2⟩
        rcases List.mem_cons.mp he with rfl | he
        · exact hlt.ne'
        · exact (hlt.trans (hgt e he)).ne'
      next hlt =>
      split
      next hk =>
        subst hk
        rw [List.mem_cons, List.mem_cons]
        refine or_congr_right ⟨fun he => ⟨(hgt e he).ne', Or.inr he⟩, ?_⟩
        rintro ⟨hne, rfl | he⟩
        · exact absurd rfl hne
        · exact he
      next hk =>
        rw [List.mem_cons, ih htail, List.mem_cons]
        constructor
        · rintro (rfl | rfl | ⟨hne, he⟩)
          · exact Or.inr ⟨Ne.symm hk, Or.inl rfl⟩
          · exact Or.inl rfl
          · exact Or.inr ⟨hne, Or.inr he⟩
        · rintro (rfl | ⟨hne, rfl | he⟩)
          · exact Or.inr (Or.inl rfl)
          · exact Or.inl rfl
          · exact Or.inr (Or.inr ⟨hne, he⟩)

theorem mem_insert_iff {m : SortedMap κ α} {k : κ} {a : α} {e : κ × α} :
    e ∈ (m.insert k a).entries ↔ e = (k, a) ∨ (e.1 ≠ k ∧ e ∈ m.entries) :=
  mem_place_iff m.sorted

theorem mem_remove_iff {m : SortedMap κ α} {k : κ} {e : κ × α} :
    e ∈ (m.remove k).entries ↔ e.1 ≠ k ∧ e ∈ m.entries := by
  rw [remove, List.mem_filter, decide_eq_true_iff, and_comm]

/-- The entries after an insertion, the new one first. -/
theorem perm_insert (m : SortedMap κ α) (k : κ) (a : α) :
    (m.insert k a).entries.Perm ((k, a) :: m.entries.filter fun e => e.1 ≠ k) := by
  refine (List.perm_ext_iff_of_nodup ((m.insert k a).nodup_keys.of_map _) ?_).mpr fun e => ?_
  · rw [List.nodup_cons]
    refine ⟨fun hmem => ?_, (m.nodup_keys.of_map _).filter _⟩
    simpa using (List.mem_filter.mp hmem).2
  · rw [mem_insert_iff, List.mem_cons, List.mem_filter, decide_eq_true_iff, and_comm (a := e ∈ _)]

theorem find_insert (m : SortedMap κ α) (k : κ) (a : α) (k' : κ) :
    (m.insert k a).find k' = if k' = k then some a else m.find k' := by
  refine Option.ext fun b => ?_
  rw [find_eq_some_iff, mem_insert_iff, Prod.mk.injEq]
  split
  next heq => simp [heq, eq_comm]
  next hne => simp [hne, find_eq_some_iff]

theorem find_remove (m : SortedMap κ α) (k k' : κ) :
    (m.remove k).find k' = if k' = k then none else m.find k' := by
  refine Option.ext fun b => ?_
  rw [find_eq_some_iff, mem_remove_iff]
  split
  next heq => simp [heq]
  next hne => simp [hne, find_eq_some_iff]

theorem lookup_modifyEntry (l : List (κ × α)) (k : κ) (f : α → α) (k' : κ) :
    lookup k' (l.map (modifyEntry k f)) =
      if k' = k then (lookup k' l).map f else lookup k' l := by
  have hkey : (fun e : κ × α => decide (e.1 = k')) ∘ modifyEntry k f =
      fun e => decide (e.1 = k') := by
    funext e
    rw [Function.comp_apply, modifyEntry_fst]
  rw [lookup, List.find?_map, hkey, Option.map_map, lookup, Option.map_map]
  split
  next heq =>
    refine Option.map_congr fun e he => ?_
    have he' : e.1 = k' := by simpa using List.find?_some he
    rw [Function.comp_apply, modifyEntry, if_pos (he'.trans heq)]
    rfl
  next hne =>
    refine Option.map_congr fun e he => ?_
    have he' : e.1 = k' := by simpa using List.find?_some he
    rw [Function.comp_apply, modifyEntry, if_neg (he' ▸ hne)]

theorem find_modify (m : SortedMap κ α) (k : κ) (f : α → α) (k' : κ) :
    (m.modify k f).find k' = if k' = k then (m.find k').map f else m.find k' :=
  lookup_modifyEntry m.entries k f k'

/-- Where no key stands twice, one entry is changed. -/
theorem map_modifyEntry_append {l l' : List (κ × α)} {k : κ} {a : α}
    (h : ((l ++ (k, a) :: l').map Prod.fst).Nodup) (f : α → α) :
    (l ++ (k, a) :: l').map (modifyEntry k f) = l ++ (k, f a) :: l' := by
  have hother : ∀ {l'' : List (κ × α)}, (∀ e ∈ l'', e.1 ≠ k) →
      l''.map (modifyEntry k f) = l'' := by
    intro l'' hl''
    exact (List.map_congr_left fun e he => if_neg (hl'' e he)).trans (List.map_id _)
  rw [List.map_append, List.nodup_append, List.map_cons, List.nodup_cons] at h
  obtain ⟨-, ⟨hlast, -⟩, hfirst⟩ := h
  rw [List.map_append, List.map_cons, hother, hother, modifyEntry, if_pos rfl]
  · rintro e he rfl
    exact hlast (List.mem_map.mpr ⟨e, he, rfl⟩)
  · intro e he
    exact hfirst e.1 (List.mem_map_of_mem he) k List.mem_cons_self

/-! ### The values in another form -/

/-- The map with every value in another form. -/
def map {β : Type} (f : α → β) (m : SortedMap κ α) : SortedMap κ β where
  entries := m.entries.map fun e => (e.1, f e.2)
  sorted := by
    rw [List.map_map]
    exact m.sorted

theorem lookup_map {β : Type} (f : α → β) (l : List (κ × α)) (k : κ) :
    lookup k (l.map fun e => (e.1, f e.2)) = (lookup k l).map f := by
  have hkey : (fun e : κ × β => decide (e.1 = k)) ∘ (fun e : κ × α => (e.1, f e.2)) =
      fun e => decide (e.1 = k) := rfl
  rw [lookup, List.find?_map, hkey, Option.map_map, lookup, Option.map_map]
  rfl

theorem find_map {β : Type} (f : α → β) (m : SortedMap κ α) (k : κ) :
    (m.map f).find k = (m.find k).map f :=
  lookup_map f m.entries k

/-- An insertion, and then the other form. -/
theorem map_insert {β : Type} (f : α → β) (m : SortedMap κ α) (k : κ) (a : α) :
    (m.insert k a).map f = (m.map f).insert k (f a) := by
  refine ext_find fun k' => ?_
  rw [find_map, find_insert, find_insert, find_map]
  split <;> rfl

/-- A modification, and then the other form. -/
theorem map_modify {β : Type} {f : α → β} {g : α → α} {g' : β → β} (h : ∀ a, f (g a) = g' (f a))
    (m : SortedMap κ α) (k : κ) : (m.modify k g).map f = (m.map f).modify k g' := by
  refine ext_find fun k' => ?_
  rw [find_map, find_modify, find_modify, find_map]
  split
  · cases m.find k' with
    | none => rfl
    | some a => exact congrArg some (h a)
  · rfl

/-! ### A map of a list -/

/-- The map of these entries, of which a later one replaces an earlier one of the same key. -/
def ofList (l : List (κ × α)) : SortedMap κ α := l.foldl (fun m e => m.insert e.1 e.2) empty

theorem ofList_concat (l : List (κ × α)) (e : κ × α) :
    ofList (l ++ [e]) = (ofList l).insert e.1 e.2 := by
  rw [ofList, List.foldl_append]
  rfl

theorem mem_of_mem_ofList {l : List (κ × α)} {e : κ × α} (h : e ∈ (ofList l).entries) : e ∈ l := by
  induction l using List.reverseRecOn with
  | nil => exact h
  | append_singleton l e' ih =>
      rw [ofList_concat] at h
      rcases mem_insert_iff.mp h with rfl | ⟨-, h⟩
      · exact List.mem_append_right _ (List.mem_singleton.mpr rfl)
      · exact List.mem_append_left _ (ih h)

/-- Where no key stands twice, the entries are those of the list. -/
theorem mem_ofList {l : List (κ × α)} (h : (l.map Prod.fst).Nodup) {e : κ × α} :
    e ∈ (ofList l).entries ↔ e ∈ l := by
  induction l using List.reverseRecOn with
  | nil => exact Iff.rfl
  | append_singleton l e' ih =>
      rw [List.map_append, List.nodup_append] at h
      obtain ⟨hl, -, hnew⟩ := h
      rw [ofList_concat, mem_insert_iff, ih hl, List.mem_append, List.mem_singleton, or_comm]
      refine or_congr_left ⟨fun hmem => hmem.2, fun hmem => ⟨?_, hmem⟩⟩
      exact hnew e.1 (List.mem_map_of_mem hmem) e'.1 (List.mem_singleton.mpr rfl)

/-- What is found is what is there. -/
theorem find_ofList {l : List (κ × α)} (h : (l.map Prod.fst).Nodup) (k : κ) :
    (ofList l).find k = lookup k l := by
  refine Option.ext fun a => ?_
  rw [find_eq_some_iff, mem_ofList h, lookup_eq_some_iff h]

/-- The value of a key is changed before or after. -/
theorem ofList_modify {l : List (κ × α)} (h : (l.map Prod.fst).Nodup) (k : κ) (f : α → α) :
    ofList (l.map (modifyEntry k f)) = (ofList l).modify k f := by
  refine ext_find fun k' => ?_
  rw [find_ofList (by rwa [map_fst_modifyEntry]), lookup_modifyEntry, find_modify, find_ofList h]

/-- A list that is in order is the map of itself. -/
theorem entries_ofList {l : List (κ × α)} (h : (l.map Prod.fst).Pairwise (· < ·)) :
    (ofList l).entries = l := by
  have hnodup : (l.map Prod.fst).Nodup := h.imp fun hlt => hlt.ne
  have hsame : ofList l = ⟨l, h⟩ := by
    refine ext_find fun k => Option.ext fun a => ?_
    rw [find_eq_some_iff, find_eq_some_iff, mem_ofList hnodup]
  rw [hsame]

theorem map_ofList {β : Type} (f : α → β) (l : List (κ × α)) :
    (ofList l).map f = ofList (l.map fun e => (e.1, f e.2)) := by
  induction l using List.reverseRecOn with
  | nil => rfl
  | append_singleton l e ih =>
      rw [ofList_concat, map_insert, ih, List.map_append]
      exact (ofList_concat (l.map fun e => (e.1, f e.2)) (e.1, f e.2)).symm

/-! ### How many there are -/

theorem length_place {k : κ} {a : α} {l : List (κ × α)}
    (h : (l.map Prod.fst).Pairwise (· < ·)) :
    (place k a l).length = if k ∈ l.map Prod.fst then l.length else l.length + 1 := by
  induction l with
  | nil => rfl
  | cons e l ih =>
      rw [List.map_cons, List.pairwise_cons] at h
      obtain ⟨hhead, htail⟩ := h
      rw [place, List.map_cons]
      split
      next hlt =>
        rw [if_neg]
        · rfl
        · rw [List.mem_cons, not_or]
          exact ⟨hlt.ne, fun hmem => hlt.asymm (hhead k hmem)⟩
      next hlt =>
      split
      next hk =>
        rw [if_pos (List.mem_cons.mpr (Or.inl hk))]
        rfl
      next hk =>
        simp only [List.length_cons, ih htail, List.mem_cons, hk, false_or]
        split <;> rfl

/-- A key that is there is replaced, and another is one more. -/
theorem size_insert (m : SortedMap κ α) (k : κ) (a : α) :
    (m.insert k a).size = if m.contains k then m.size else m.size + 1 := by
  rw [size, insert, length_place m.sorted]
  have hmem : k ∈ m.entries.map Prod.fst ↔ m.contains k = true := (m.contains_iff k).symm
  by_cases h : m.contains k = true
  · rw [if_pos h, if_pos (hmem.mpr h), size]
  · rw [if_neg h, if_neg fun hkey => h (hmem.mp hkey), size]

/-- A key that is there is one less. -/
theorem size_remove (m : SortedMap κ α) (k : κ) :
    (m.remove k).size + (if m.contains k then 1 else 0) = m.size := by
  have hcount : m.keys.count k = if m.contains k then 1 else 0 := by
    split
    next h => exact List.count_eq_one_of_mem m.nodup_keys ((m.contains_iff k).mp h)
    next h => exact List.count_eq_zero_of_not_mem fun hmem => h ((m.contains_iff k).mpr hmem)
  have hrest : m.keys.count k = m.entries.countP fun e => ¬(decide (e.1 ≠ k)) = true := by
    rw [keys, List.count_eq_countP, List.countP_map]
    refine List.countP_congr fun e _ => ?_
    simp
  rw [← hcount, hrest, size, size, remove, ← List.countP_eq_length_filter]
  exact (List.length_eq_countP_add_countP _).symm

end SortedMap
