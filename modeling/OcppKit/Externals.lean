import OcppKit.Basic

/-!
# What the toolkit takes from outside

The framing layer and the engine call `serde_json`, which is not part of the
repository, and one table of the standard library. They enter the model as a
parameter: the class `OcppKit.Externals` lists the functions the code calls, and
`OcppKit.LawfulExternals` what it relies on about them.

A JSON payload is never parsed by the engine: it travels as a *raw value*, a text
that is known to be one JSON value (`OcppKit.RawValue`). The three places where
the engine does look inside a payload – a `BootNotificationResponse`, a
`HeartbeatResponse`, a `TriggerMessage` – go through the deserializers of three
small structures, declared here as the source declares them.
-/

namespace OcppKit

/-! ### The payloads the engine looks inside -/

/-- The members of a `BootNotificationResponse` the engine reads. -/
structure BootAnswer where
  /-- The registration status, as spelt by the peer. -/
  status : String
  /-- The interval in seconds, if there is one. -/
  interval : Option ℕ
  /-- The CSMS's clock, if it is there. -/
  currentTime : Option DateTime
deriving DecidableEq, Repr

/-- The member of a `HeartbeatResponse` the engine reads. -/
structure HeartbeatAnswer where
  /-- The CSMS's clock. -/
  currentTime : DateTime
deriving DecidableEq, Repr

/-- The member of a `TriggerMessage` the engine reads. -/
structure TriggerRequest where
  /-- The message that is asked for, if there is one. -/
  requestedMessage : Option String
deriving DecidableEq, Repr

/-! ### Timestamps -/

/-- Which texts are timestamps. -/
class TimestampText where
  /-- The text is a timestamp with an offset. -/
  parses : String → Bool

/-! ### Raw JSON values -/

/-- Which texts are JSON. -/
class JsonText where
  /-- The text is one complete JSON value, with no white space around it. -/
  isValue : String → Bool
  /-- The empty object is a value. -/
  isValue_emptyObject : isValue "{}" = true

/-- **A raw value**: a text that is one JSON value, kept as the peer or the
application wrote it. -/
structure RawValue [JsonText] where
  /-- The text. -/
  get : String
  /-- It is one JSON value. -/
  valid : JsonText.isValue get = true
deriving DecidableEq

/-- The empty object, `{}`. -/
def RawValue.emptyObject [JsonText] : RawValue := ⟨"{}", JsonText.isValue_emptyObject⟩

/-- What stands in a tuple handed to `serde_json::to_string`: a byte, a string or
a raw value. -/
inductive Item [JsonText] where
  /-- An unsigned byte. -/
  | u8 (n : Fin 256)
  /-- A string, to be quoted and escaped. -/
  | str (s : String)
  /-- A raw value, to be copied. -/
  | raw (v : RawValue)

/-! ### The functions -/

/-- **The functions the code calls and the repository does not contain.** -/
class Externals extends JsonText where
  /-- A parsed JSON value, `serde_json::Value`. -/
  Value : Type
  [decEqValue : DecidableEq Value]
  /-- The empty object, `Value::Object(Map::new())`. -/
  emptyMap : Value
  /-- `from_str::<Vec<&RawValue>>`: the elements of a JSON array. -/
  elements : String → Option (List RawValue)
  /-- `from_str::<i64>`. -/
  readI64 : RawValue → Option ℤ
  /-- `from_str::<String>`. -/
  readString : RawValue → Option String
  /-- `from_str::<Value>`. -/
  readValue : RawValue → Option Value
  /-- `from_str::<BootAnswer>`. -/
  readBootAnswer : RawValue → Option BootAnswer
  /-- `from_str::<HeartbeatAnswer>`. -/
  readHeartbeatAnswer : RawValue → Option HeartbeatAnswer
  /-- `from_str::<TriggerRequest>`. -/
  readTriggerRequest : RawValue → Option TriggerRequest
  /-- `to_raw_value` of a parsed value. -/
  toRawValue : Value → Option RawValue
  /-- `to_string` of a tuple, or the text of the error. -/
  writeTuple : List Item → Except String String
  /-- The characters outside ASCII that `{:?}` writes as an escape. -/
  escapedInDebug : Char → Bool

attribute [reducible, instance] Externals.decEqValue

variable [Externals]

/-- What reading one element of a written tuple gives back. -/
def Item.ReadsAs : Item → RawValue → Prop
  | .u8 n, r => Externals.readI64 r = some (n : ℤ)
  | .str s, r => Externals.readString r = some s
  | .raw v, r => r = v

/-- **What the code relies on**: a tuple is always written, and reading the text
back gives its elements, each reading as what was written. -/
class LawfulExternals : Prop where
  /-- Writing a tuple of bytes, strings and raw values never fails. -/
  writeTuple_ok : ∀ items : List Item, ∃ text, Externals.writeTuple items = .ok text
  /-- The text of a tuple reads back as its elements. -/
  elements_writeTuple : ∀ (items : List Item) (text : String),
    Externals.writeTuple items = .ok text →
      ∃ raws, Externals.elements text = some raws ∧ List.Forall₂ Item.ReadsAs items raws

/-! ### Text in diagnostics -/

/-- The digits of a number in base sixteen. -/
def hexDigits (n : ℕ) : String := String.ofList (Nat.toDigits 16 n)

/-- One character as `{:?}` writes it inside a string. -/
def debugChar (c : Char) : String :=
  if c = '"' then "\\\""
  else if c = '\\' then "\\\\"
  else if c = '\n' then "\\n"
  else if c = '\r' then "\\r"
  else if c = '\t' then "\\t"
  else if c.toNat = 0 then "\\0"
  else if c.toNat < 32 ∨ c.toNat = 127 ∨ (128 ≤ c.toNat ∧ Externals.escapedInDebug c) then
    "\\u\x7b" ++ hexDigits c.toNat ++ "\x7d"
  else c.toString

/-- A string as `{:?}` writes it: quoted, with the characters that need it
escaped. -/
def debugStr (s : String) : String :=
  "\"" ++ String.join (s.toList.map debugChar) ++ "\""

end OcppKit
