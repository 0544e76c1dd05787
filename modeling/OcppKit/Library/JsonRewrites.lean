import OcppKit.Library.JsonTree

/-!
# Strings of a document that are replaced

A document is changed at a place (`JsonTree.put`), or, without saying where, in one of its strings
(`JsonTree.Rewrites`). A change of the one kind is one of the other (`JsonTree.rewrites_put`). It
can be made before the members are put in order or after (`JsonTree.Rewrites.of_collapse`), and it
leaves every other leaf where it is (`JsonTree.Rewrites.leaves`), and what is found at every other
place (`JsonTree.Rewrites.at_cases`).

A document is changed several times by a chain of these (`JsonTree.RewritesN`). Where what stands
in the place of a string is not replaced again, no string is replaced twice
(`JsonTree.RewritesN.at_string`).
-/

namespace JsonTree

variable {ν : Type} {R : String → String → Prop}

/-! ### A string in the place of another -/

/-- **One string of a document is replaced**, by a value it is related to. -/
inductive Rewrites (r : String → JsonTree ν → Prop) : JsonTree ν → JsonTree ν → Prop
  /-- The document is the string. -/
  | here {s : String} {x : JsonTree ν} : r s x → Rewrites r (leaf (.string s)) x
  /-- It is in an item of an array. -/
  | item {x x' : JsonTree ν} (before after : List (JsonTree ν)) : Rewrites r x x' →
      Rewrites r (array (before ++ x :: after)) (array (before ++ x' :: after))
  /-- It is in a member of an object. -/
  | member {x x' : JsonTree ν} (before after : List (String × JsonTree ν)) (name : String) :
      Rewrites r x x' →
      Rewrites r (object (before ++ (name, x) :: after)) (object (before ++ (name, x') :: after))

variable {r : String → JsonTree ν → Prop}

/-- A string that is found at a place is replaced there. -/
theorem rewrites_put {t x : JsonTree ν} (h : t.Distinct) {path : List String} {s : String}
    (hat : at_ path t = some (leaf (.string s))) (hr : r s x) :
    Rewrites r t (put path x t) := by
  induction path generalizing t with
  | nil =>
      obtain rfl := Option.some.inj hat
      exact .here hr
  | cons key path ih =>
      rcases t with l | items | members
      · cases hat
      · obtain ⟨i, hi, hat⟩ := Option.bind_eq_some_iff.mp hat
        obtain ⟨t, ht, hat⟩ := Option.bind_eq_some_iff.mp hat
        obtain ⟨hlt, rfl⟩ := List.getElem?_eq_some_iff.mp ht
        have hrewrites := ih (ordered_array.mp h _ (List.getElem_mem hlt)) hat
        rw [put, hi]
        dsimp only
        rw [List.modify_eq_take_cons_drop hlt]
        have hsplit : items = items.take i ++ items[i] :: items.drop (i + 1) := by
          rw [List.getElem_cons_drop, List.take_append_drop]
        conv => enter [2]; rw [hsplit]
        exact .item _ _ hrewrites
      · obtain ⟨t, ht, hat⟩ := Option.bind_eq_some_iff.mp hat
        obtain ⟨hnames, hvalues⟩ := ordered_object.mp h
        have hmem := (SortedMap.lookup_eq_some_iff hnames).mp ht
        have hrewrites := ih (hvalues _ hmem) hat
        obtain ⟨before, after, rfl⟩ := List.append_of_mem hmem
        rw [put, SortedMap.map_modifyEntry_append hnames]
        exact .member _ _ _ hrewrites

namespace Rewrites

variable {t t' : JsonTree ν}

/-- The names stay. -/
theorem ordered (h : Rewrites r t t') {R : String → String → Prop}
    (hr : ∀ s x, r s x → x.Ordered R) : t'.Ordered R ↔ t.Ordered R := by
  induction h with
  | here hrel => exact iff_of_true (hr _ _ hrel) (ordered_leaf _)
  | item before after _ ih =>
      simp only [ordered_array, List.forall_mem_append, List.forall_mem_cons, ih]
  | member before after name _ ih =>
      simp only [ordered_object, List.map_append, List.map_cons, List.forall_mem_append,
        List.forall_mem_cons, ih]

/-- **The other leaves stay where they are.** -/
theorem leaves (h : Rewrites r t t') : ∃ before s x after, r s x ∧
    t.leaves = before ++ .string s :: after ∧ t'.leaves = before ++ (x.leaves ++ after) := by
  induction h with
  | @here s x hrel => exact ⟨[], s, x, [], hrel, rfl, by simp⟩
  | item before after _ ih =>
      obtain ⟨first, s, x, last, hrel, hleaves, hleaves'⟩ := ih
      refine ⟨before.flatMap JsonTree.leaves ++ first, s, x,
        last ++ after.flatMap JsonTree.leaves, hrel, ?_, ?_⟩
      · simp [hleaves]
      · simp [hleaves']
  | member before after name _ ih =>
      obtain ⟨first, s, x, last, hrel, hleaves, hleaves'⟩ := ih
      refine ⟨(before.flatMap fun e => e.2.leaves) ++ first, s, x,
        last ++ after.flatMap fun e => e.2.leaves, hrel, ?_, ?_⟩
      · simp [hleaves]
      · simp [hleaves']

/-- The numbers stay. -/
theorem number_mem (h : Rewrites r t t') {n : ν} (hn : .number n ∈ t.leaves) :
    .number n ∈ t'.leaves := by
  obtain ⟨before, s, x, after, -, hleaves, hleaves'⟩ := h.leaves
  rw [hleaves, List.mem_append, List.mem_cons] at hn
  rw [hleaves', List.mem_append, List.mem_append]
  rcases hn with hn | hn | hn
  · exact Or.inl hn
  · cases hn
  · exact Or.inr (Or.inr hn)

theorem leaf_iff {l : JsonLeaf ν} : Rewrites r (leaf l) t' ↔ ∃ s, l = .string s ∧ r s t' := by
  constructor
  · rintro ⟨hrel⟩
    exact ⟨_, rfl, hrel⟩
  · rintro ⟨s, rfl, hrel⟩
    exact .here hrel

theorem array_iff {items : List (JsonTree ν)} : Rewrites r (array items) t' ↔
    ∃ before x x' after, items = before ++ x :: after ∧ t' = array (before ++ x' :: after) ∧
      Rewrites r x x' := by
  constructor
  · intro h
    generalize hitems : array items = t at h
    cases h with
    | here => cases hitems
    | item before after h => exact ⟨before, _, _, after, array.inj hitems, rfl, h⟩
    | member => cases hitems
  · rintro ⟨before, x, x', after, rfl, rfl, h⟩
    exact .item before after h

theorem object_iff {members : List (String × JsonTree ν)} : Rewrites r (object members) t' ↔
    ∃ before name x x' after, members = before ++ (name, x) :: after ∧
      t' = object (before ++ (name, x') :: after) ∧ Rewrites r x x' := by
  constructor
  · intro h
    generalize hmembers : object members = t at h
    cases h with
    | here => cases hmembers
    | item => cases hmembers
    | member before after name h =>
        exact ⟨before, name, _, _, after, object.inj hmembers, rfl, h⟩
  · rintro ⟨before, name, x, x', after, rfl, rfl, h⟩
    exact .member before after name h

/-- **At every place** a document is as it was, or one string of what is there is replaced. -/
theorem at_cases (h : Rewrites r t t') (hr : ∀ s x, r s x → ∃ l, x = leaf l)
    (path : List String) : at_ path t' = at_ path t ∨
      ∃ u u', at_ path t = some u ∧ at_ path t' = some u' ∧ Rewrites r u u' := by
  induction h generalizing path with
  | @here s x hrel =>
      rcases path with _ | ⟨key, path⟩
      · exact Or.inr ⟨_, _, rfl, rfl, .here hrel⟩
      · obtain ⟨l, rfl⟩ := hr s x hrel
        exact Or.inl rfl
  | @item x x' before after hrewrites ih =>
      rcases path with _ | ⟨key, path⟩
      · exact Or.inr ⟨_, _, rfl, rfl, .item before after hrewrites⟩
      rw [at_, at_]
      rcases index key with _ | i
      · exact Or.inl rfl
      rw [Option.bind_some, Option.bind_some]
      rw [List.getElem?_append, List.getElem?_append]
      split
      · exact Or.inl rfl
      · -- the item itself, or one after it
        rcases i - before.length with _ | j
        · exact ih path
        · exact Or.inl rfl
  | @member x x' before after name hrewrites ih =>
      rcases path with _ | ⟨key, path⟩
      · exact Or.inr ⟨_, _, rfl, rfl, .member before after name hrewrites⟩
      rw [at_, at_, SortedMap.lookup_append, SortedMap.lookup_append, SortedMap.lookup_cons,
        SortedMap.lookup_cons]
      rcases SortedMap.lookup key before with _ | u
      · rw [Option.none_or, Option.none_or]
        dsimp only
        split
        · exact ih path
        · exact Or.inl rfl
      · exact Or.inl rfl

/-- A leaf is found again, unless it is the string. -/
theorem at_leaf (h : Rewrites r t t') (hr : ∀ s x, r s x → ∃ l, x = leaf l) {path : List String}
    {l : JsonLeaf ν} (hat : at_ path t = some (leaf l)) :
    at_ path t' = some (leaf l) ∨ ∃ s x, l = .string s ∧ r s x ∧ at_ path t' = some x := by
  rcases h.at_cases hr path with heq | ⟨u, u', hu, hu', hrewrites⟩
  · exact Or.inl (heq.trans hat)
  · obtain rfl := Option.some.inj (hu.symm.trans hat)
    obtain ⟨s, hs, hrel⟩ := leaf_iff.mp hrewrites
    exact Or.inr ⟨s, u', hs, hrel, hu'⟩

/-- A leaf that is found was there before, unless it stands in the place of the string. -/
theorem of_at_leaf (h : Rewrites r t t') (hr : ∀ s x, r s x → ∃ l, x = leaf l)
    {path : List String} {l : JsonLeaf ν} (hat : at_ path t' = some (leaf l)) :
    at_ path t = some (leaf l) ∨ ∃ s, r s (leaf l) := by
  rcases h.at_cases hr path with heq | ⟨u, u', hu, hu', hrewrites⟩
  · exact Or.inl (heq.symm.trans hat)
  · obtain rfl := Option.some.inj (hu'.symm.trans hat)
    rcases u with l' | items | members
    · obtain ⟨s, -, hrel⟩ := leaf_iff.mp hrewrites
      exact Or.inr ⟨s, hrel⟩
    · obtain ⟨_, _, _, _, -, hleaf, -⟩ := array_iff.mp hrewrites
      cases hleaf
    · obtain ⟨_, _, _, _, _, -, hleaf, -⟩ := object_iff.mp hrewrites
      cases hleaf

/-- **A replacement once the members are in order** is one of the document as it was written. -/
theorem of_collapse {c : JsonTree ν} (h : Rewrites r t.collapse c) (hdistinct : t.Distinct)
    (hr : ∀ s x, r s x → x.collapse = x) : ∃ t', Rewrites r t t' ∧ t'.collapse = c := by
  induction t using induct generalizing c with
  | leaf l =>
      obtain ⟨s, rfl, hrel⟩ := leaf_iff.mp h
      exact ⟨c, .here hrel, hr _ _ hrel⟩
  | array items ih =>
      rw [collapse_array] at h
      obtain ⟨first, x, x', last, hsplit, rfl, hrewrites⟩ := array_iff.mp h
      obtain ⟨before, rest, rfl, rfl, hrest⟩ := List.map_eq_append_iff.mp hsplit
      obtain ⟨y, after, rfl, rfl, rfl⟩ := List.map_eq_cons_iff.mp hrest
      obtain ⟨y', hy', rfl⟩ := ih y (by simp) hrewrites (ordered_array.mp hdistinct y (by simp))
      refine ⟨_, .item before after hy', ?_⟩
      rw [collapse_array, List.map_append, List.map_cons]
  | object members ih =>
      rw [collapse_object] at h
      obtain ⟨first, name, x, x', last, hsplit, rfl, hrewrites⟩ := object_iff.mp h
      have hmem : (name, x) ∈
          (SortedMap.ofList (members.map (onValue JsonTree.collapse))).entries := by
        rw [hsplit]
        simp
      obtain ⟨⟨name', y⟩, hy, heq⟩ := (mem_collapse_object hdistinct).mp hmem
      obtain ⟨rfl, rfl⟩ := Prod.mk.inj heq
      obtain ⟨hnames, hvalues⟩ := ordered_object.mp hdistinct
      obtain ⟨y', hy', rfl⟩ := ih _ hy hrewrites (hvalues _ hy)
      obtain ⟨before, after, rfl⟩ := List.append_of_mem hy
      refine ⟨_, .member before after name' hy', ?_⟩
      rw [collapse_member hdistinct y']
      change object (List.map _ (SortedMap.entries _)) = _
      have hsorted := SortedMap.nodup_keys
        (SortedMap.ofList ((before ++ (name', y) :: after).map (onValue JsonTree.collapse)))
      rw [SortedMap.keys, hsplit] at hsorted
      rw [hsplit, SortedMap.map_modifyEntry_append hsorted]

end Rewrites

/-! ### One string after the other -/

/-- **A number of strings of a document are replaced**, one after the other. -/
inductive RewritesN (r : String → JsonTree ν → Prop) : ℕ → JsonTree ν → JsonTree ν → Prop
  /-- None. -/
  | zero (t : JsonTree ν) : RewritesN r 0 t t
  /-- One more. -/
  | succ {n : ℕ} {t t' t'' : JsonTree ν} : RewritesN r n t t' → Rewrites r t' t'' →
      RewritesN r (n + 1) t t''

namespace RewritesN

variable {n : ℕ} {t t' : JsonTree ν}

/-- The names stay. -/
theorem ordered (h : RewritesN r n t t') (hr : ∀ s x, r s x → ∃ l, x = leaf l) :
    t'.Ordered R ↔ t.Ordered R := by
  induction h with
  | zero => rfl
  | succ _ hlast ih =>
      refine (hlast.ordered fun s x hrel => ?_).trans ih
      obtain ⟨l, rfl⟩ := hr s x hrel
      exact ordered_leaf l

/-- The numbers stay. -/
theorem number_mem (h : RewritesN r n t t') {k : ν} (hk : .number k ∈ t.leaves) :
    .number k ∈ t'.leaves := by
  induction h with
  | zero => exact hk
  | succ _ hlast ih => exact hlast.number_mem (ih hk)

/-- A number is found where it was. -/
theorem at_number (h : RewritesN r n t t') (hr : ∀ s x, r s x → ∃ l, x = leaf l)
    {path : List String} {k : ν} (hat : at_ path t = some (leaf (.number k))) :
    at_ path t' = some (leaf (.number k)) := by
  induction h with
  | zero => exact hat
  | succ _ hlast ih =>
      rcases hlast.at_leaf hr (ih hat) with hkept | ⟨s, x, hs, -, -⟩
      · exact hkept
      · cases hs

/-- **No string is replaced twice**, where what stands in the place of one is not replaced. -/
theorem at_string (h : RewritesN r n t t') (hr : ∀ s x, r s x → ∃ l, x = leaf l)
    (honce : ∀ s s' x, r s (leaf (.string s')) → ¬ r s' x) {path : List String} {s : String}
    (hat : at_ path t = some (leaf (.string s))) :
    at_ path t' = some (leaf (.string s)) ∨ ∃ x, r s x ∧ at_ path t' = some x := by
  induction h with
  | zero => exact Or.inl hat
  | succ _ hlast ih =>
      rcases ih hat with hkept | ⟨x, hrel, hreplaced⟩
      · rcases hlast.at_leaf hr hkept with hkept | ⟨s', x, hs, hrel, hreplaced⟩
        · exact Or.inl hkept
        · obtain rfl := JsonLeaf.string.inj hs
          exact Or.inr ⟨x, hrel, hreplaced⟩
      · obtain ⟨l, rfl⟩ := hr s x hrel
        rcases hlast.at_leaf hr hreplaced with hkept | ⟨s', x, rfl, hrel', -⟩
        · exact Or.inr ⟨_, hrel, hkept⟩
        · exact absurd hrel' (honce s s' x hrel)

/-- **Replacements once the members are in order** are some of the document as it was written. -/
theorem of_collapse {c : JsonTree ν} (h : RewritesN r n t.collapse c) (hdistinct : t.Distinct)
    (hr : ∀ s x, r s x → ∃ l, x = leaf l) : ∃ t', RewritesN r n t t' ∧ t'.collapse = c := by
  generalize hstart : t.collapse = t₀ at h
  induction h with
  | zero => exact ⟨t, .zero t, hstart⟩
  | succ _ hlast ih =>
      obtain ⟨t', hbefore, rfl⟩ := ih hstart
      have hdistinct' : t'.Distinct := (hbefore.ordered hr).mpr hdistinct
      obtain ⟨t'', hafter, hcollapse⟩ := hlast.of_collapse hdistinct' fun s x hrel => by
        obtain ⟨l, rfl⟩ := hr s x hrel
        exact collapse_leaf l
      exact ⟨t'', hbefore.succ hafter, hcollapse⟩

end RewritesN

end JsonTree
