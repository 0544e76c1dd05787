import OcppKit.Library.Integers
import OcppKit.Library.SortedMap

/-!
# JSON documents as trees

A JSON document up to white space and the spelling of its strings (`JsonTree`): objects are lists
of members, in the order they are written and with names that may stand twice. What a number is
is left open, so that the same tree has the numbers as they are written or as they are read.

A reader that keeps an object as a map puts the members in order, and of two with the same name
keeps the last (`JsonTree.collapse`). Documents in which no name stands twice
(`JsonTree.Distinct`) lose nothing but the order of their members by it.

A document is read and changed at a place (`JsonTree.at_`, `JsonTree.put`), at the end of a path
of names and indices.
-/

/-- What is not made of other values. -/
inductive JsonLeaf (ν : Type) where
  /-- `null`. -/
  | null
  /-- `true` or `false`. -/
  | bool (b : Bool)
  /-- A number. -/
  | number (n : ν)
  /-- A string. -/
  | string (s : String)
deriving DecidableEq

/-- A leaf with another number. -/
def JsonLeaf.map {ν μ : Type} (f : ν → μ) : JsonLeaf ν → JsonLeaf μ
  | .null => .null
  | .bool b => .bool b
  | .number n => .number (f n)
  | .string s => .string s

/-- **A JSON document.** -/
inductive JsonTree (ν : Type) where
  /-- A value that is not made of others. -/
  | leaf (l : JsonLeaf ν)
  /-- An array. -/
  | array (items : List (JsonTree ν))
  /-- An object. -/
  | object (members : List (String × JsonTree ν))

namespace JsonTree

variable {ν μ : Type}

/-- **Induction over a document**: the items of an array, and the values of the members of an
object. -/
theorem induct {P : JsonTree ν → Prop} (leaf : ∀ l, P (.leaf l))
    (array : ∀ items, (∀ t ∈ items, P t) → P (.array items))
    (object : ∀ members, (∀ e ∈ members, P e.2) → P (.object members)) (t : JsonTree ν) : P t := by
  refine @JsonTree.rec ν P (fun items => ∀ t ∈ items, P t)
    (fun members => ∀ e ∈ members, P e.2) (fun e => P e.2)
    leaf array object ?_ ?_ ?_ ?_ ?_ t
  · exact fun t ht => absurd ht List.not_mem_nil
  · rintro t items ht hitems t' ht'
    rcases List.mem_cons.mp ht' with rfl | ht'
    · exact ht
    · exact hitems t' ht'
  · exact fun e he => absurd he List.not_mem_nil
  · rintro e members he hmembers e' he'
    rcases List.mem_cons.mp he' with rfl | he'
    · exact he
    · exact hmembers e' he'
  · exact fun name t ht => ht

/-! ### Other numbers -/

mutual

/-- The document with other numbers. -/
def map (f : ν → μ) : JsonTree ν → JsonTree μ
  | leaf l => leaf (l.map f)
  | array items => array (mapItems f items)
  | object members => object (mapMembers f members)

/-- The items with other numbers. -/
def mapItems (f : ν → μ) : List (JsonTree ν) → List (JsonTree μ)
  | [] => []
  | t :: items => map f t :: mapItems f items

/-- The members with other numbers. -/
def mapMembers (f : ν → μ) : List (String × JsonTree ν) → List (String × JsonTree μ)
  | [] => []
  | (name, t) :: members => (name, map f t) :: mapMembers f members

end

/-- A member with another value. -/
abbrev onValue (f : JsonTree ν → JsonTree μ) (e : String × JsonTree ν) : String × JsonTree μ :=
  (e.1, f e.2)

@[simp] theorem map_leaf (f : ν → μ) (l : JsonLeaf ν) : (leaf l).map f = leaf (l.map f) := rfl

@[simp] theorem map_array (f : ν → μ) (items : List (JsonTree ν)) :
    (array items).map f = array (items.map (map f)) := by
  rw [map]
  congr 1
  induction items with
  | nil => rfl
  | cons t items ih => rw [mapItems, ih, List.map_cons]

@[simp] theorem map_object (f : ν → μ) (members : List (String × JsonTree ν)) :
    (object members).map f = object (members.map (onValue (map f))) := by
  rw [map]
  congr 1
  induction members with
  | nil => rfl
  | cons e members ih => rw [mapMembers, ih, List.map_cons]

/-! ### Leaves -/

mutual

/-- The leaves of a document, in the order they are written. -/
def leaves : JsonTree ν → List (JsonLeaf ν)
  | leaf l => [l]
  | array items => leavesItems items
  | object members => leavesMembers members

/-- The leaves of some items. -/
def leavesItems : List (JsonTree ν) → List (JsonLeaf ν)
  | [] => []
  | t :: items => leaves t ++ leavesItems items

/-- The leaves of some members. -/
def leavesMembers : List (String × JsonTree ν) → List (JsonLeaf ν)
  | [] => []
  | (_, t) :: members => leaves t ++ leavesMembers members

end

@[simp] theorem leaves_leaf (l : JsonLeaf ν) : (leaf l).leaves = [l] := rfl

@[simp] theorem leaves_array (items : List (JsonTree ν)) :
    (array items).leaves = items.flatMap leaves := by
  rw [leaves]
  induction items with
  | nil => rfl
  | cons t items ih => rw [leavesItems, ih, List.flatMap_cons]

@[simp] theorem leaves_object (members : List (String × JsonTree ν)) :
    (object members).leaves = members.flatMap fun e => e.2.leaves := by
  rw [leaves]
  induction members with
  | nil => rfl
  | cons e members ih => rw [leavesMembers, ih, List.flatMap_cons]

/-- Numbers that are changed alike, where they stand. -/
theorem map_congr {f g : ν → μ} {t : JsonTree ν}
    (h : ∀ n, JsonLeaf.number n ∈ t.leaves → f n = g n) : t.map f = t.map g := by
  induction t using induct with
  | leaf l =>
      rw [map_leaf, map_leaf]
      rcases l with _ | b | n | s
      · rfl
      · rfl
      · exact congrArg (fun n => leaf (.number n)) (h n (List.mem_singleton.mpr rfl))
      · rfl
  | array items ih =>
      rw [map_array, map_array]
      refine congrArg array (List.map_congr_left fun t ht => ih t ht fun n hn => h n ?_)
      rw [leaves_array]
      exact List.mem_flatMap.mpr ⟨t, ht, hn⟩
  | object members ih =>
      rw [map_object, map_object]
      refine congrArg object (List.map_congr_left fun e he => ?_)
      refine congrArg (Prod.mk e.1) (ih e he fun n hn => h n ?_)
      rw [leaves_object]
      exact List.mem_flatMap.mpr ⟨e, he, hn⟩

theorem leaves_map (f : ν → μ) (t : JsonTree ν) :
    (t.map f).leaves = t.leaves.map (JsonLeaf.map f) := by
  induction t using induct with
  | leaf l => rfl
  | array items ih =>
      rw [map_array, leaves_array, leaves_array, List.flatMap_map, List.map_flatMap]
      exact List.flatMap_congr ih
  | object members ih =>
      rw [map_object, leaves_object, leaves_object, List.flatMap_map, List.map_flatMap]
      exact List.flatMap_congr ih

theorem map_map {ξ : Type} (f : ν → μ) (g : μ → ξ) (t : JsonTree ν) :
    (t.map f).map g = t.map (g ∘ f) := by
  induction t using induct with
  | leaf l => cases l <;> rfl
  | array items ih =>
      rw [map_array, map_array, map_array, List.map_map]
      exact congrArg array (List.map_congr_left ih)
  | object members ih =>
      rw [map_object, map_object, map_object, List.map_map]
      exact congrArg object (List.map_congr_left fun e he => congrArg (Prod.mk e.1) (ih e he))

/-! ### Names -/

mutual

/-- The names of every object are related as they are written. -/
def Ordered (R : String → String → Prop) : JsonTree ν → Prop
  | leaf _ => True
  | array items => OrderedItems R items
  | object members => (members.map Prod.fst).Pairwise R ∧ OrderedMembers R members

/-- The names of the objects in some items are. -/
def OrderedItems (R : String → String → Prop) : List (JsonTree ν) → Prop
  | [] => True
  | t :: items => Ordered R t ∧ OrderedItems R items

/-- The names of the objects in some members are. -/
def OrderedMembers (R : String → String → Prop) : List (String × JsonTree ν) → Prop
  | [] => True
  | (_, t) :: members => Ordered R t ∧ OrderedMembers R members

end

/-- **No name stands twice** in an object. -/
abbrev Distinct (t : JsonTree ν) : Prop := t.Ordered (· ≠ ·)

/-- The members of every object are in the order of their names. -/
abbrev Sorted (t : JsonTree ν) : Prop := t.Ordered (· < ·)

variable {R : String → String → Prop}

@[simp] theorem ordered_leaf (l : JsonLeaf ν) : (leaf l).Ordered R := trivial

@[simp] theorem ordered_array {items : List (JsonTree ν)} :
    (array items).Ordered R ↔ ∀ t ∈ items, t.Ordered R := by
  rw [Ordered]
  induction items with
  | nil => simp [OrderedItems]
  | cons t items ih => rw [OrderedItems, ih, List.forall_mem_cons]

@[simp] theorem ordered_object {members : List (String × JsonTree ν)} :
    (object members).Ordered R ↔
      (members.map Prod.fst).Pairwise R ∧ ∀ e ∈ members, e.2.Ordered R := by
  rw [Ordered]
  refine and_congr_right' ?_
  induction members with
  | nil => simp [OrderedMembers]
  | cons e members ih => rw [OrderedMembers, ih, List.forall_mem_cons]

theorem Sorted.distinct {t : JsonTree ν} (h : t.Sorted) : t.Distinct := by
  induction t using induct with
  | leaf l => exact ordered_leaf l
  | array items ih =>
      exact ordered_array.mpr fun t ht => ih t ht (ordered_array.mp h t ht)
  | object members ih =>
      obtain ⟨hnames, hvalues⟩ := ordered_object.mp h
      exact ordered_object.mpr ⟨hnames.imp fun hlt => hlt.ne, fun e he => ih e he (hvalues e he)⟩

theorem map_fst_onValue (f : JsonTree ν → JsonTree μ) (members : List (String × JsonTree ν)) :
    (members.map (onValue f)).map Prod.fst = members.map Prod.fst := by
  rw [List.map_map]
  rfl

@[simp] theorem ordered_map {f : ν → μ} {t : JsonTree ν} :
    (t.map f).Ordered R ↔ t.Ordered R := by
  induction t using induct with
  | leaf l => simp
  | array items ih =>
      rw [map_array, ordered_array, ordered_array, List.forall_mem_map]
      exact forall₂_congr ih
  | object members ih =>
      rw [map_object, ordered_object, ordered_object, map_fst_onValue, List.forall_mem_map]
      exact and_congr_right fun _ => forall₂_congr ih

/-! ### Members in order -/

mutual

/-- **The document with the members in the order of their names**, and of members with the same
name the last. -/
def collapse : JsonTree ν → JsonTree ν
  | leaf l => leaf l
  | array items => array (collapseItems items)
  | object members => object (SortedMap.ofList (collapseMembers members)).entries

/-- The items with their members in order. -/
def collapseItems : List (JsonTree ν) → List (JsonTree ν)
  | [] => []
  | t :: items => collapse t :: collapseItems items

/-- The members with theirs in order. -/
def collapseMembers : List (String × JsonTree ν) → List (String × JsonTree ν)
  | [] => []
  | (name, t) :: members => (name, collapse t) :: collapseMembers members

end

@[simp] theorem collapse_leaf (l : JsonLeaf ν) : (leaf l).collapse = leaf l := rfl

@[simp] theorem collapse_array (items : List (JsonTree ν)) :
    (array items).collapse = array (items.map collapse) := by
  rw [collapse]
  congr 1
  induction items with
  | nil => rfl
  | cons t items ih => rw [collapseItems, ih, List.map_cons]

@[simp] theorem collapse_object (members : List (String × JsonTree ν)) :
    (object members).collapse =
      object (SortedMap.ofList (members.map (onValue collapse))).entries := by
  rw [collapse]
  have hmembers : collapseMembers members = members.map (onValue collapse) := by
    induction members with
    | nil => rfl
    | cons e members ih => rw [collapseMembers, ih, List.map_cons]
  rw [hmembers]

theorem map_collapse (f : ν → μ) (t : JsonTree ν) : (t.map f).collapse = t.collapse.map f := by
  induction t using induct with
  | leaf l => rfl
  | array items ih =>
      rw [map_array, collapse_array, collapse_array, map_array, List.map_map, List.map_map]
      exact congrArg array (List.map_congr_left ih)
  | object members ih =>
      rw [map_object, collapse_object, collapse_object, map_object, List.map_map]
      have hvalues : members.map (onValue collapse ∘ onValue (map f)) =
          (members.map (onValue collapse)).map (onValue (map f)) := by
        rw [List.map_map]
        exact List.map_congr_left fun e he => congrArg (Prod.mk e.1) (ih e he)
      rw [hvalues]
      exact congrArg (fun m => object (SortedMap.entries m))
        (SortedMap.map_ofList (map f) (members.map (onValue collapse))).symm

theorem sorted_collapse (t : JsonTree ν) : t.collapse.Sorted := by
  induction t using induct with
  | leaf l => exact ordered_leaf l
  | array items ih =>
      rw [collapse_array, Sorted, ordered_array, List.forall_mem_map]
      exact ih
  | object members ih =>
      rw [collapse_object, Sorted, ordered_object]
      refine ⟨SortedMap.sorted _, fun e he => ?_⟩
      have hmem : ∀ {l : List (String × JsonTree ν)}, e ∈ (SortedMap.ofList l).entries → e ∈ l :=
        SortedMap.mem_of_mem_ofList
      obtain ⟨e', he', rfl⟩ := List.mem_map.mp (hmem he)
      exact ih e' he'

/-- A document whose members are in order is left as it is. -/
theorem Sorted.collapse_eq {t : JsonTree ν} (h : t.Sorted) : t.collapse = t := by
  induction t using induct with
  | leaf l => rfl
  | array items ih =>
      rw [collapse_array]
      refine congrArg array ((List.map_congr_left fun t ht => ?_).trans (List.map_id _))
      exact ih t ht (ordered_array.mp h t ht)
  | object members ih =>
      obtain ⟨hnames, hvalues⟩ := ordered_object.mp h
      have hsame : members.map (onValue collapse) = members :=
        (List.map_congr_left fun e he => congrArg (Prod.mk e.1) (ih e he (hvalues e he))).trans
          (List.map_id _)
      rw [collapse_object, hsame, SortedMap.entries_ofList hnames]

/-- **In a document without repeated names, members are only moved.** -/
theorem mem_collapse_object {members : List (String × JsonTree ν)} (h : (object members).Distinct)
    {e : String × JsonTree ν} : e ∈ (SortedMap.ofList (members.map (onValue collapse))).entries ↔
      ∃ e' ∈ members, onValue collapse e' = e := by
  rw [SortedMap.mem_ofList, List.mem_map]
  rw [map_fst_onValue]
  exact (ordered_object.mp h).1

/-- A member with another value, once the members are in order. -/
theorem collapse_member {before after : List (String × JsonTree ν)} {name : String}
    {x : JsonTree ν} (h : (object (before ++ (name, x) :: after)).Distinct) (x' : JsonTree ν) :
    (object (before ++ (name, x') :: after)).collapse =
      object ((SortedMap.ofList ((before ++ (name, x) :: after).map (onValue collapse))).modify name
        fun _ => x'.collapse).entries := by
  have hnames : (((before ++ (name, x) :: after).map (onValue collapse)).map Prod.fst).Nodup := by
    rw [map_fst_onValue]
    exact (ordered_object.mp h).1
  have hchanged : (before ++ (name, x') :: after).map (onValue collapse) =
      ((before ++ (name, x) :: after).map (onValue collapse)).map
        (SortedMap.modifyEntry name fun _ => x'.collapse) := by
    rw [List.map_append, List.map_cons] at hnames ⊢
    rw [List.map_append, List.map_cons]
    exact (SortedMap.map_modifyEntry_append hnames fun _ => x'.collapse).symm
  rw [collapse_object, hchanged, SortedMap.ofList_modify hnames]

theorem mem_leaves_collapse {t : JsonTree ν} (h : t.Distinct) {l : JsonLeaf ν} :
    l ∈ t.collapse.leaves ↔ l ∈ t.leaves := by
  induction t using induct with
  | leaf l => rfl
  | array items ih =>
      rw [collapse_array, leaves_array, leaves_array, List.flatMap_map, List.mem_flatMap,
        List.mem_flatMap]
      exact exists_congr fun t => and_congr_right fun ht => ih t ht (ordered_array.mp h t ht)
  | object members ih =>
      rw [collapse_object, leaves_object, leaves_object, List.mem_flatMap, List.mem_flatMap]
      constructor
      · rintro ⟨e, he, hl⟩
        obtain ⟨e', he', rfl⟩ := (mem_collapse_object h).mp he
        exact ⟨e', he', (ih e' he' ((ordered_object.mp h).2 e' he')).mp hl⟩
      · rintro ⟨e, he, hl⟩
        refine ⟨onValue collapse e, (mem_collapse_object h).mpr ⟨e, he, rfl⟩, ?_⟩
        exact (ih e he ((ordered_object.mp h).2 e he)).mpr hl

/-! ### Places -/

/-- The index a key stands for, in an array. -/
def index (key : String) : Option ℕ :=
  let digits := match key.toList with
    | '+' :: text => Integers.digits? text
    | text => Integers.digits? text
  digits.bind fun ds => if Digits.value ds < 2 ^ 64 then some (Digits.value ds) else none

/-- **The value at a place**: at the end of a path of names and indices. -/
def at_ : List String → JsonTree ν → Option (JsonTree ν)
  | [], t => some t
  | key :: path, object members => (SortedMap.lookup key members).bind (at_ path)
  | key :: path, array items =>
      (index key).bind fun i => items[i]?.bind (at_ path)
  | _ :: _, leaf _ => none

/-- **The document with another value at a place**, if there is one. -/
def put : List String → JsonTree ν → JsonTree ν → JsonTree ν
  | [], x, _ => x
  | key :: path, x, object members => object (members.map (SortedMap.modifyEntry key (put path x)))
  | key :: path, x, array items =>
      match index key with
      | some i => array (items.modify i (put path x))
      | none => array items
  | _ :: _, _, leaf l => leaf l

theorem at_map (f : ν → μ) (path : List String) (t : JsonTree ν) :
    at_ path (t.map f) = (at_ path t).map (map f) := by
  induction path generalizing t with
  | nil => rfl
  | cons key path ih =>
      rcases t with l | items | members
      · rfl
      · rw [map_array, at_, at_]
        rcases index key with _ | i
        · rfl
        · rw [Option.bind_some, Option.bind_some, List.getElem?_map]
          rcases items[i]? with _ | t
          · rfl
          · exact ih t
      · rw [map_object, at_, at_, SortedMap.lookup_map]
        rcases SortedMap.lookup key members with _ | t
        · rfl
        · exact ih t

/-- The leaves are where they are in the document. -/
theorem at_map_leaf {f : ν → μ} {path : List String} {t : JsonTree ν} {l : JsonLeaf μ} :
    at_ path (t.map f) = some (leaf l) ↔ ∃ l₀, at_ path t = some (leaf l₀) ∧ l₀.map f = l := by
  rw [at_map, Option.map_eq_some_iff]
  constructor
  · rintro ⟨l₀ | items | members, hu, hleaf⟩
    · exact ⟨l₀, hu, leaf.inj hleaf⟩
    · rw [map_array] at hleaf
      cases hleaf
    · rw [map_object] at hleaf
      cases hleaf
  · rintro ⟨l₀, hu, rfl⟩
    exact ⟨leaf l₀, hu, rfl⟩

theorem at_map_string {f : ν → μ} {path : List String} {t : JsonTree ν} {s : String} :
    at_ path (t.map f) = some (leaf (.string s)) ↔ at_ path t = some (leaf (.string s)) := by
  rw [at_map_leaf]
  constructor
  · rintro ⟨_ | b | n | s', hu, hstring⟩
    · cases hstring
    · cases hstring
    · cases hstring
    · obtain rfl := JsonLeaf.string.inj hstring
      exact hu
  · exact fun h => ⟨_, h, rfl⟩

theorem put_map (f : ν → μ) (path : List String) (x t : JsonTree ν) :
    put path (x.map f) (t.map f) = (put path x t).map f := by
  induction path generalizing t with
  | nil => rfl
  | cons key path ih =>
      rcases t with l | items | members
      · rfl
      · rw [map_array, put, put]
        rcases index key with _ | i
        · exact (map_array f items).symm
        · dsimp only
          rw [map_array]
          refine congrArg array (List.ext_getElem? fun j => ?_)
          rw [List.getElem?_modify, List.getElem?_map, List.getElem?_map, List.getElem?_modify]
          rcases items[j]? with _ | t
          · rfl
          · simp only [Option.map_some]
            split
            · exact congrArg some (ih t)
            · rfl
      · rw [map_object, put, put, map_object, List.map_map, List.map_map]
        refine congrArg object (List.map_congr_left fun e _ => ?_)
        simp only [Function.comp_apply, SortedMap.modifyEntry, onValue]
        split
        · exact congrArg (Prod.mk e.1) (ih e.2)
        · rfl

/-- A value that was put at a place is there. -/
theorem at_put {path : List String} {x y t : JsonTree ν} (h : at_ path t = some y) :
    at_ path (put path x t) = some x := by
  induction path generalizing t with
  | nil => rfl
  | cons key path ih =>
      rcases t with l | items | members
      · cases h
      · obtain ⟨i, hi, h⟩ := Option.bind_eq_some_iff.mp h
        obtain ⟨t, ht, h⟩ := Option.bind_eq_some_iff.mp h
        rw [put, hi]
        dsimp only
        rw [at_, hi, Option.bind_some, List.getElem?_modify_eq, ht]
        exact ih h
      · obtain ⟨t, ht, h⟩ := Option.bind_eq_some_iff.mp h
        rw [put, at_, SortedMap.lookup_modifyEntry, if_pos rfl, ht]
        exact ih h

/-- Where no name stands twice, members that are put in order are found as before. -/
theorem at_collapse {t : JsonTree ν} (h : t.Distinct) (path : List String) :
    at_ path t.collapse = (at_ path t).map collapse := by
  induction path generalizing t with
  | nil => rfl
  | cons key path ih =>
      rcases t with l | items | members
      · rfl
      · rw [collapse_array, at_, at_]
        rcases index key with _ | i
        · rfl
        · rw [Option.bind_some, Option.bind_some, List.getElem?_map]
          rcases hitem : items[i]? with _ | t
          · rfl
          · exact ih (ordered_array.mp h t (List.mem_of_getElem? hitem))
      · obtain ⟨hnames, hvalues⟩ := ordered_object.mp h
        have hlookup : SortedMap.lookup key
            (SortedMap.ofList (members.map (onValue collapse))).entries =
              (SortedMap.lookup key members).map collapse := by
          rw [← SortedMap.lookup_map]
          exact SortedMap.find_ofList (by rwa [map_fst_onValue]) key
        rw [collapse_object, at_, at_, hlookup]
        rcases hmember : SortedMap.lookup key members with _ | t
        · rfl
        · exact ih (hvalues (key, t) ((SortedMap.lookup_eq_some_iff hnames).mp hmember))

theorem at_collapse_leaf {t : JsonTree ν} (h : t.Distinct) {path : List String} {l : JsonLeaf ν} :
    at_ path t.collapse = some (leaf l) ↔ at_ path t = some (leaf l) := by
  rw [at_collapse h, Option.map_eq_some_iff]
  constructor
  · rintro ⟨l₀ | items | members, hu, hleaf⟩
    · exact hu.trans (congrArg some hleaf)
    · rw [collapse_array] at hleaf
      cases hleaf
    · rw [collapse_object] at hleaf
      cases hleaf
  · exact fun h => ⟨_, h, rfl⟩

end JsonTree
