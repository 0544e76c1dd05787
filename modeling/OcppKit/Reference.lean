import OcppKit.Externals
import OcppKit.Library.Json

/-!
# A reference for what is taken from outside

`OcppKit.Externals` is a parameter of every definition and theorem of this
development. This file gives it one value, `OcppKit.Reference.instExternals`, built
on `OcppKit.Library.Json`, and proves that it is lawful; it is what closed
statements are evaluated with. The instances are scoped: nothing else sees them.

It reads payloads as `serde_json` does, a record from an object or from an array, with two
limits: times are not read, so an answer with a `currentTime` that is not `null` reads as none,
and a parsed value is the text it was parsed from.
-/

namespace OcppKit.Reference

/-! ### Raw values -/

scoped instance instJsonText : JsonText where
  isValue s := Json.isValue s.toList
  isValue_emptyObject := by decide +kernel

/-- The characters as a raw value, if they are one. -/
def rawOf (cs : List Char) : Option RawValue :=
  if h : JsonText.isValue (String.ofList cs) = true then some ⟨String.ofList cs, h⟩ else none

theorem isValue_ofList (cs : List Char) :
    JsonText.isValue (String.ofList cs) = Json.isValue cs := by
  change Json.isValue (String.ofList cs).toList = Json.isValue cs
  rw [String.toList_ofList]

theorem rawOf_of_value {cs : List Char} (h : Json.isValue cs = true) :
    ∃ r, rawOf cs = some r ∧ r.get = String.ofList cs := by
  have h' : JsonText.isValue (String.ofList cs) = true := (isValue_ofList cs).trans h
  exact ⟨⟨String.ofList cs, h'⟩, by rw [rawOf, dif_pos h'], rfl⟩

/-! ### Reading records -/

/-- The texts of the members of this name. -/
def membersNamed (name : String) (r : RawValue) : Option (List (List Char)) :=
  (Json.objectMembers r.get.toList).map fun ms =>
    (ms.filter fun m => Json.unquote m.1 = some name.toList).map Prod.snd

/-- The texts given for a field of a record: those of its name in an object, or the one in its place
in an array, which holds no more than the record has fields. -/
def fieldTexts (name : String) (place count : ℕ) (r : RawValue) : Option (List (List Char)) :=
  match Json.arrayElements r.get.toList with
  | some vs => if count < vs.length then none else some vs[place]?.toList
  | none => membersNamed name r

/-- A borrowed string: one that needs no unescaping. -/
def borrowed (cs : List Char) : Option String :=
  if '\\' ∈ cs then none else (Json.unquote cs).map String.ofList

/-- A member that may be left out or `null`; one that stands twice is an error. -/
def optional {α : Type} (read : List Char → Option α) : List (List Char) → Option (Option α)
  | [] => some none
  | [cs] => if cs = ['n', 'u', 'l', 'l'] then some none else (read cs).map some
  | _ => none

/-- A member that must stand exactly once. -/
def required {α : Type} (read : List Char → Option α) : List (List Char) → Option α
  | [cs] => read cs
  | _ => none

/-- A 64-bit number of seconds. -/
def readSeconds (cs : List Char) : Option ℕ := (Json.readNat cs).filter fun n => n < 2 ^ 64

/-- `from_str::<BootAnswer>`. -/
def bootAnswer (r : RawValue) : Option BootAnswer := do
  let status ← (fieldTexts "status" 0 3 r).bind (required borrowed)
  let interval ← (fieldTexts "interval" 1 3 r).bind (optional readSeconds)
  let currentTime ← (fieldTexts "currentTime" 2 3 r).bind (optional fun _ => none)
  return ⟨status, interval, currentTime⟩

/-- `from_str::<TriggerRequest>`. -/
def triggerRequest (r : RawValue) : Option TriggerRequest := do
  let requested ← (fieldTexts "requestedMessage" 0 1 r).bind (optional borrowed)
  return ⟨requested⟩

/-! ### Writing tuples -/

/-- The text of one element. -/
def render : Item → List Char
  | .u8 n => Json.digits n
  | .str s => Json.quote s.toList
  | .raw v => v.get.toList

theorem isValue_render (item : Item) : Json.isValue (render item) = true := by
  rcases item with n | s | v
  · exact (Json.digits_byte n).1
  · exact Json.isValue_quote s.toList
  · exact v.valid

/-- **The reference.** -/
scoped instance instExternals : Externals where
  Value := RawValue
  emptyMap := RawValue.emptyObject
  elements text := (Json.arrayElements text.toList).bind fun vs => vs.mapM rawOf
  readI64 r := Json.readInt r.get.toList
  readString r := (Json.unquote r.get.toList).map String.ofList
  readValue r := some r
  readBootAnswer := bootAnswer
  readHeartbeatAnswer _ := none
  readTriggerRequest := triggerRequest
  toRawValue v := some v
  writeTuple items := .ok (String.ofList (Json.bracket (items.map render)))
  escapedInDebug _ := false

/-- What is written reads as what was written. -/
theorem readsAs_render (item : Item) :
    ∃ r, rawOf (render item) = some r ∧ item.ReadsAs r := by
  obtain ⟨r, hr, hget⟩ := rawOf_of_value (isValue_render item)
  have htext : r.get.toList = render item := by rw [hget, String.toList_ofList]
  refine ⟨r, hr, ?_⟩
  rcases item with n | s | v
  · change Json.readInt r.get.toList = some ((n : ℕ) : ℤ)
    rw [htext]
    exact (Json.digits_byte n).2
  · change (Json.unquote r.get.toList).map String.ofList = some s
    rw [htext, render, Json.unquote_quote, Option.map_some, String.ofList_toList]
  · obtain ⟨get, valid⟩ := r
    obtain rfl : get = v.get := String.toList_injective htext
    rfl

theorem mapM_rawOf_render (items : List Item) :
    ∃ raws, (items.map render).mapM rawOf = some raws ∧
      List.Forall₂ Item.ReadsAs items raws := by
  induction items with
  | nil => exact ⟨[], rfl, List.Forall₂.nil⟩
  | cons item items ih =>
      obtain ⟨r, hr, hitem⟩ := readsAs_render item
      obtain ⟨raws, hraws, hitems⟩ := ih
      refine ⟨r :: raws, ?_, List.Forall₂.cons hitem hitems⟩
      rw [List.map_cons, List.mapM_cons, hr, hraws]
      rfl

scoped instance instLawfulExternals : LawfulExternals where
  writeTuple_ok items := ⟨_, rfl⟩
  elements_writeTuple items text h := by
    obtain rfl : String.ofList (Json.bracket (items.map render)) = text := by
      simpa [Externals.writeTuple] using h
    obtain ⟨raws, hraws, hitems⟩ := mapM_rawOf_render items
    refine ⟨raws, ?_, hitems⟩
    change (Json.arrayElements (String.ofList _).toList).bind _ = _
    rw [String.toList_ofList, Json.arrayElements_bracket, Option.bind_some, hraws]
    intro v hv
    obtain ⟨item, -, rfl⟩ := List.mem_map.mp hv
    exact isValue_render item

/-! ### Ids and payloads -/

/-- Ids in order: a prefix and a number. -/
def numbered (pre : String) (n : ℕ) : MessageId := ⟨pre ++ toString n⟩

/-- A text as a raw value. -/
def raw (text : String) (h : JsonText.isValue text = true := by decide +kernel) : RawValue :=
  ⟨text, h⟩

end OcppKit.Reference
