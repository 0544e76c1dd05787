import OcppKit.Decimal.Spelled
import OcppKit.Externals
import OcppKit.Library.JsonTree
import OcppKit.Transport.Security

/-!
# Decoding a payload

A payload is parsed as the type its action names (`OcppKit.Payload.parse`). If that fails and the
options allow it, the payload is read as a generic JSON value instead, the string the error points
at is replaced – by the number it spells, or by a timestamp as it should have been written – and
the *value* is parsed, as often as it takes (`OcppKit.repairLoop`). What comes of it is checked
for members the type does not have, and validated (`OcppKit.decodePayload`).

The types are generated, and deserialized by a library. They enter the model as
`OcppKit.Payload`, which is what a type does with a document. A document hands a number over as it
is held, and to a decimal as it is written (`OcppKit.SeenNumber`): in a text these are the digits
of the peer, and in a generic value those the library writes for the number it holds
(`OcppKit.SerdeJson`).
-/

namespace OcppKit

/-! ### Options -/

/-- How to treat enumeration values the schema does not define. -/
inductive UnknownEnumValues where
  /-- They are an error. -/
  | reject
  /-- They are kept. -/
  | preserve
deriving DecidableEq, Repr

/-- How to treat members the schema does not define. -/
inductive UnknownFields where
  /-- They are an error. -/
  | reject
  /-- They are dropped. -/
  | ignore
deriving DecidableEq, Repr

/-- How much to forgive in timestamps. -/
inductive DateTimeLeniency where
  /-- Nothing. -/
  | strict
  /-- A missing offset. -/
  | allowNaive
  /-- A space instead of the `T`, and a missing offset. -/
  | allowSpace
deriving DecidableEq, Repr

/-- How to treat numbers sent as strings. -/
inductive NumericStrings where
  /-- They are an error. -/
  | reject
  /-- They are converted. -/
  | coerce
deriving DecidableEq, Repr

/-- How a payload is decoded. -/
structure DecodeOptions where
  /-- Enumeration values the schema does not define. -/
  unknownEnumValues : UnknownEnumValues
  /-- Members the schema does not define. -/
  unknownFields : UnknownFields
  /-- Timestamps. -/
  datetime : DateTimeLeniency
  /-- Numbers sent as strings. -/
  numericStrings : NumericStrings
  /-- The most bytes of a payload. -/
  maxPayloadSize : ℕ
  /-- The most repairs of a payload. -/
  maxRepairs : ℕ
deriving DecidableEq, Repr

namespace DecodeOptions

/-- What the specification requires. -/
def strict : DecodeOptions := ⟨.reject, .ignore, .strict, .reject, 1024 * 1024, 32⟩

/-- And no member that is not defined. -/
def pedantic : DecodeOptions := { strict with unknownFields := .reject }

/-- What devices in the field need. -/
def lenient : DecodeOptions := ⟨.preserve, .ignore, .allowSpace, .coerce, 1024 * 1024, 32⟩

/-- Whether anything is repaired. -/
def repairsEnabled (options : DecodeOptions) : Bool :=
  options.datetime ≠ .strict || options.numericStrings = .coerce

end DecodeOptions

/-! ### Errors -/

/-- What went wrong, which decides the error code. -/
inductive DecodeErrorKind where
  /-- Malformed JSON, or no object. -/
  | format
  /-- A member is missing, or an array is too short or too long. -/
  | occurrence
  /-- A member has the wrong type. -/
  | type
  /-- A value is too long, out of range, or not defined. -/
  | property
  /-- A member is not defined. -/
  | unknownField
  /-- The members do not go together. -/
  | protocol
  /-- The action is not defined. -/
  | unsupportedAction
deriving DecidableEq, Repr

/-- A failure. -/
structure DecodeError where
  /-- What went wrong. -/
  kind : DecodeErrorKind
  /-- A pointer to the member. -/
  path : String
  /-- The reason. -/
  reason : String
deriving DecidableEq, Repr

/-- What a validation finds. -/
inductive ViolationKind where
  /-- A member is missing, or there are too few or too many elements. -/
  | occurrence
  /-- A member has the wrong type. -/
  | type
  /-- A value is outside its constraint. -/
  | property
  /-- An enumeration value that was kept. -/
  | unknownEnumValue
  /-- A member is not defined. -/
  | unknownField
  /-- The members do not go together. -/
  | protocol
deriving DecidableEq, Repr

/-- A constraint that is not met. -/
structure Violation where
  /-- Where. -/
  path : String
  /-- What. -/
  kind : ViolationKind
  /-- Why. -/
  reason : String
deriving DecidableEq, Repr

/-- The failure a violation is reported as. -/
def DecodeError.fromViolation (violation : Violation) : DecodeError where
  kind := match violation.kind with
    | .occurrence => .occurrence
    | .type => .type
    | .property | .unknownEnumValue => .property
    | .unknownField => .unknownField
    | .protocol => .protocol
  path := violation.path
  reason := violation.reason

/-- The kinds of failures of the library. -/
inductive SerdeCategory where
  /-- Not JSON. -/
  | syntax_
  /-- Too short. -/
  | eof
  /-- The input failed. -/
  | io
  /-- Not what was expected. -/
  | data
deriving DecidableEq, Repr

/-- A failure of the library. -/
structure SerdeError where
  /-- Where, with points between the names. -/
  path : String
  /-- The kind. -/
  category : SerdeCategory
  /-- The text. -/
  message : String
deriving DecidableEq, Repr

/-- Characters that stand for something else in a pointer, spelled out. -/
def escapePointer (segment : List Char) : List Char :=
  segment.flatMap fun c => if c = '~' then ['~', '0'] else if c = '/' then ['~', '1'] else [c]

/-- The pointer to a path of the library. -/
def pointerFrom (path : String) : String :=
  if path = "" ∨ path = "." then ""
  else
    String.ofList ((path.toList.splitOn '.').flatMap fun segment => '/' :: escapePointer segment)

/-- What stands before the last place a text has a word at, if it has it. -/
def beforeLast (word text : List Char) : Option (List Char) :=
  ((List.range (text.length + 1)).reverse.find? fun i => word.isPrefixOf (text.drop i)).map
    fun i => text.take i

/-- **Maps a failure of the library onto the taxonomy of the protocol**, by its text. -/
def classify (error : SerdeError) : DecodeError where
  kind := match error.category with
    | .syntax_ | .eof | .io => .format
    | .data =>
        if "missing field".toList.isPrefixOf error.message.toList ||
          "invalid length".toList.isPrefixOf error.message.toList then .occurrence
        else if "invalid type".toList.isPrefixOf error.message.toList then .type
        else if "unknown field".toList.isPrefixOf error.message.toList then .unknownField
        else if "duplicate field".toList.isPrefixOf error.message.toList then .format
        else .property
  path := pointerFrom error.path
  reason := String.ofList
    ((beforeLast " at line ".toList error.message.toList).getD error.message.toList)

/-! ### Documents -/

/-- **What the library does with JSON texts and their numbers.** A number of a generic value is
what is written for it. -/
class SerdeJson [JsonText] [TimestampText] where
  /-- The document a text is, with its numbers as they are written. -/
  tree : RawValue → JsonTree String
  /-- What is written for the number a text is read as, if it is one. -/
  held : String → Option String
  /-- Whether a document is read as a generic value, however deep it is nested. -/
  shallow : JsonTree String → Bool
  /-- Why a text is not read as a generic value. -/
  valueError : RawValue → String
  /-- A number that was written is read as itself. -/
  held_held : ∀ {token number : String}, held token = some number → held number = some number
  /-- A timestamp is no number. -/
  held_of_parses : ∀ {text : String}, TimestampText.parses text = true → held text = none

variable [JsonText] [TimestampText] [SerdeJson]

/-- A number as it is handed over. -/
structure SeenNumber where
  /-- As it is held. -/
  held : Option String
  /-- As it is written, to a decimal. -/
  decimal : Except ParseDecimalError Decimal

/-- What is seen of a number. -/
def seen (token : String) : SeenNumber := ⟨SerdeJson.held token, Decimal.fromStr token⟩

/-- What is written for a number. -/
def heldToken (token : String) : String := (SerdeJson.held token).getD token

/-- Whether a leaf can be held. -/
def leafHeld : JsonLeaf String → Bool
  | .number token => (SerdeJson.held token).isSome
  | .null | .bool _ | .string _ => true

/-- **A type of payloads**: what it does with a document, and with its values. -/
structure Payload (α : Type) where
  /-- Reads a document. -/
  deserialize : JsonTree SeenNumber → Except SerdeError α
  /-- Writes a value as a generic one. -/
  serialize : α → Except String (JsonTree String)
  /-- Checks a value. -/
  validate : α → List Violation
  /-- The order of the members does not matter to what is read. -/
  ordered : ∀ (t : JsonTree SeenNumber) (value : α), t.Distinct →
    (deserialize t = .ok value ↔ deserialize t.collapse = .ok value)

variable {α : Type}

/-- A document as the type reads it. -/
def Payload.parseTree (T : Payload α) (t : JsonTree String) : Except DecodeError α :=
  match T.deserialize (t.map seen) with
  | .ok value => .ok value
  | .error error => .error (classify error)

/-- **The strict parse.** -/
def Payload.parse (T : Payload α) (payload : RawValue) : Except DecodeError α :=
  T.parseTree (SerdeJson.tree payload)

/-- A payload as a generic value. -/
def toValue (payload : RawValue) : Except DecodeError (JsonTree String) :=
  if SerdeJson.shallow (SerdeJson.tree payload) &&
      (SerdeJson.tree payload).leaves.all leafHeld then
    .ok ((SerdeJson.tree payload).collapse.map heldToken)
  else .error ⟨.format, "", SerdeJson.valueError payload⟩

/-! ### Repairs -/

/-- The greatest byte index of a sign in a text. -/
def lastSign (text : List Char) : Option ℕ :=
  match text.reverse.dropWhile fun c => !(c = '+' || c = '-') with
  | [] => none
  | _ :: before => some (before.map Char.utf8Size).sum

/-- A `T` in the place of the first space, in a text that has none. -/
def supplyT (trimmed : List Char) : List Char :=
  match trimmed.findIdx? (· = ' ') with
  | some index => if 'T' ∈ trimmed then trimmed else trimmed.set index 'T'
  | none => trimmed

/-- Whether a text ends in an offset. Its sign is not one of those between the parts of the date. -/
def hasOffset (text : List Char) : Bool :=
  text.getLast? = some 'Z' || text.getLast? = some 'z' || (lastSign text).any (10 < ·)

/-- **Rewrites the common spellings of a timestamp** that are not conforming. -/
def normalizeDatetime (text : String) : String :=
  let withT := supplyT (trimSpace text.toList)
  if hasOffset withT then String.ofList withT else String.ofList (withT ++ ['Z'])

/-- Two characters replaced by one, from the left. -/
def replacePair (first second by_ : Char) : List Char → List Char
  | c :: d :: text =>
      if c = first ∧ d = second then by_ :: replacePair first second by_ text
      else c :: replacePair first second by_ (d :: text)
  | text => text

/-- The path a pointer spells. -/
def pointerPath (pointer : String) : List String :=
  if pointer = "" then []
  else
    ((pointer.toList.dropWhile (· = '/')).splitOn '/').map fun raw =>
      String.ofList (replacePair '~' '0' '~' (replacePair '~' '1' '/' raw))

/-- What a string is replaced by, if that is a repair of such an error. -/
def repairOf (options : DecodeOptions) (kind : DecodeErrorKind) (text : String) :
    Option (JsonTree String) :=
  if options.numericStrings = .coerce && kind = .type && (SerdeJson.held text).isSome then
    (SerdeJson.held text).map fun number => .leaf (.number number)
  else if options.datetime ≠ .strict && kind = .property then
    if options.datetime ≠ .allowSpace && ' ' ∈ text.toList then none
    else if normalizeDatetime text ≠ text &&
        TimestampText.parses (normalizeDatetime text) then
      some (.leaf (.string (normalizeDatetime text)))
    else none
  else none

/-- **Rewrites the one string an error points at.** -/
def applyRepair (options : DecodeOptions) (json : JsonTree String) (error : DecodeError) :
    Option (JsonTree String) :=
  match JsonTree.at_ (pointerPath error.path) json with
  | some (.leaf (.string text)) =>
      (repairOf options error.kind text).map fun x => JsonTree.put (pointerPath error.path) x json
  | _ => none

/-- **Parses the value again after each repair**, as long as there is one and the error changes. -/
def repairLoop (T : Payload α) (options : DecodeOptions) :
    ℕ → JsonTree String → DecodeError → Except DecodeError α
  | 0, _, error => .error error
  | repairs + 1, json, error =>
      match applyRepair options json error with
      | none => .error error
      | some json =>
          match T.parseTree json with
          | .ok value => .ok value
          | .error next =>
              if next = error then .error next else repairLoop T options repairs json next

/-- Repairs a payload that could not be parsed. -/
def repairAndParse (T : Payload α) (options : DecodeOptions) (payload : RawValue)
    (first : DecodeError) : Except DecodeError α :=
  match toValue payload with
  | .error error => .error error
  | .ok json => repairLoop T options options.maxRepairs json first

/-! ### Members that are not defined -/

mutual

/-- The path to the first member that is in one value and not in the other. -/
def diff : JsonTree String → JsonTree String → Option (List (List Char))
  | .object wire, .object ours => diffMembers wire ours
  | .array wire, .array ours => diffItems 0 wire ours
  | _, _ => none

/-- The path to it from an object. A member that is `null` may be absent. -/
def diffMembers : List (String × JsonTree String) → List (String × JsonTree String) →
    Option (List (List Char))
  | [], _ => none
  | (_, .leaf .null) :: wire, ours => diffMembers wire ours
  | (key, value) :: wire, ours =>
      let found := match SortedMap.lookup key ours with
        | none => some []
        | some mine => diff value mine
      match found with
      | some path => some (escapePointer key.toList :: path)
      | none => diffMembers wire ours

/-- The path to it from an array. -/
def diffItems (i : ℕ) : List (JsonTree String) → List (JsonTree String) →
    Option (List (List Char))
  | value :: wire, mine :: ours =>
      match diff value mine with
      | some path => some (Nat.toDigits 10 i :: path)
      | none => diffItems (i + 1) wire ours
  | _, _ => none

end

/-- A path as a pointer. -/
def render (path : List (List Char)) : String :=
  String.ofList (path.flatMap fun segment => '/' :: segment)

/-- The first member of a payload that is not defined. -/
def firstUnknownField (T : Payload α) (payload : RawValue) (value : α) :
    Except DecodeError (Option String) :=
  match toValue payload with
  | .error error => .error error
  | .ok wire =>
      match T.serialize value with
      | .error reason => .error ⟨.format, "", reason⟩
      | .ok ours => .ok ((diff wire ours).map render)

/-! ### Decoding -/

/-- Whether the payload is one that is parsed. -/
def admits (options : DecodeOptions) (payload : RawValue) : Except DecodeError Unit :=
  if options.maxPayloadSize < payload.get.utf8ByteSize then
    .error ⟨.format, "", "payload is " ++ toString payload.get.utf8ByteSize ++
      " bytes, limit is " ++ toString options.maxPayloadSize⟩
  else if (payload.get.toList.dropWhile isUnicodeSpace).head? ≠ some '{' then
    .error ⟨.format, "", "payload is not a JSON object"⟩
  else .ok ()

/-- Whether the violations let the value pass, with those of kept enumeration values left out. -/
def validated (T : Payload α) (options : DecodeOptions) (value : α) : Except DecodeError α :=
  let violations := (T.validate value).filter fun violation =>
    !(options.unknownEnumValues = .preserve && violation.kind = .unknownEnumValue)
  match violations.head? with
  | some violation => .error (.fromViolation violation)
  | none => .ok value

/-- **What is done with a value** that was parsed. -/
def accept (T : Payload α) (options : DecodeOptions) (payload : RawValue) (value : α) :
    Except DecodeError α :=
  if options.unknownFields = .reject then
    match firstUnknownField T payload value with
    | .error error => .error error
    | .ok (some path) =>
        .error ⟨.unknownField, path, "member is not defined by the schema"⟩
    | .ok none => validated T options value
  else validated T options value

/-- **Decodes and validates a payload.** -/
def decodePayload (T : Payload α) (options : DecodeOptions) (payload : RawValue) :
    Except DecodeError α :=
  match admits options payload with
  | .error error => .error error
  | .ok () =>
  match T.parse payload with
  | .ok value => accept T options payload value
  | .error error =>
      if options.repairsEnabled then
        match repairAndParse T options payload error with
        | .error error => .error error
        | .ok value => accept T options payload value
      else .error error

end OcppKit
