import OcppKit.Externals

/-!
# Error codes and the body of a `CALLERROR`

The wire spelling of an error code depends on the version, and the translation
loses information: 1.6J has no spelling of its own for two of the codes
(`OcppKit.ErrorCode.asWire`), and a code kept verbatim may happen to be spelt like
a known one. What a receiver reads back is therefore not always the error that
was sent; `OcppKit.CallError.overTheWire` says what it is.
-/

namespace OcppKit

/-! ### Error codes -/

/-- An OCPP-J RPC framework error code. -/
inductive ErrorCode where
  /-- The payload is syntactically incorrect. -/
  | formatViolation
  /-- Any error not covered by a more specific code. -/
  | genericError
  /-- The receiver failed internally. -/
  | internalError
  /-- A message type number the receiver does not support. -/
  | messageTypeNotSupported
  /-- The requested action is not known. -/
  | notImplemented
  /-- The action is known but not supported. -/
  | notSupported
  /-- A field violates an occurrence constraint. -/
  | occurrenceConstraintViolation
  /-- A field contains an invalid value. -/
  | propertyConstraintViolation
  /-- The payload does not conform to the action's structure. -/
  | protocolError
  /-- The message is not a valid RPC request. -/
  | rpcFrameworkError
  /-- A security issue prevented the action. -/
  | securityError
  /-- A field violates a data-type constraint. -/
  | typeConstraintViolation
  /-- A code the crate does not define, kept verbatim. -/
  | other (code : String)
deriving DecidableEq, Repr

/-- The spelling this code uses on the wire. -/
def ErrorCode.asWire (version : Version) : ErrorCode → String
  | .formatViolation => if version = .v1_6 then "FormationViolation" else "FormatViolation"
  | .genericError => "GenericError"
  | .internalError => "InternalError"
  | .messageTypeNotSupported =>
      if version = .v1_6 then "GenericError" else "MessageTypeNotSupported"
  | .notImplemented => "NotImplemented"
  | .notSupported => "NotSupported"
  | .occurrenceConstraintViolation =>
      if version = .v1_6 then "OccurenceConstraintViolation" else "OccurrenceConstraintViolation"
  | .propertyConstraintViolation => "PropertyConstraintViolation"
  | .protocolError => "ProtocolError"
  | .rpcFrameworkError => if version = .v1_6 then "GenericError" else "RpcFrameworkError"
  | .securityError => "SecurityError"
  | .typeConstraintViolation => "TypeConstraintViolation"
  | .other code => code

/-- Parses a wire code, accepting every version's spelling. -/
def ErrorCode.parse (code : String) : ErrorCode :=
  if code = "FormatViolation" ∨ code = "FormationViolation" then .formatViolation
  else if code = "GenericError" then .genericError
  else if code = "InternalError" then .internalError
  else if code = "MessageTypeNotSupported" then .messageTypeNotSupported
  else if code = "NotImplemented" then .notImplemented
  else if code = "NotSupported" then .notSupported
  else if code = "OccurrenceConstraintViolation" ∨ code = "OccurenceConstraintViolation" then
    .occurrenceConstraintViolation
  else if code = "PropertyConstraintViolation" then .propertyConstraintViolation
  else if code = "ProtocolError" then .protocolError
  else if code = "RpcFrameworkError" then .rpcFrameworkError
  else if code = "SecurityError" then .securityError
  else if code = "TypeConstraintViolation" then .typeConstraintViolation
  else .other code

/-! ### The body of an error frame -/

/-- The longest error description the specification allows. -/
def errorDescriptionMaxLen : ℕ := 255

/-- Truncates a description to the length the wire format allows. -/
def capDescription (text : String) : String :=
  String.ofList (text.toList.take errorDescriptionMaxLen)

variable [Externals]

/-- The body of a `CALLERROR` or a `CALLRESULTERROR`. -/
structure CallError where
  /-- The error code. -/
  code : ErrorCode
  /-- A short description. -/
  description : String
  /-- Free-form details. -/
  details : Externals.Value
deriving DecidableEq

/-- A body with an empty details object. -/
def CallError.new (code : ErrorCode) (description : String) : CallError where
  code := code
  description := capDescription description
  details := Externals.emptyMap

/-- The action is not known to this implementation. -/
def CallError.notImplemented (action : String) : CallError :=
  .new .notImplemented ("unknown action " ++ debugStr action)

/-- The action is known but this peer does not handle it. -/
def CallError.notSupported (action : String) : CallError :=
  .new .notSupported ("action " ++ debugStr action ++ " is not supported")

/-- A security check failed while processing the action. -/
def CallError.security (description : String) : CallError :=
  .new .securityError description

/-- The borrowed form of an error body, as frame parsing produces it: the details
are still unparsed. -/
structure CallErrorRef where
  /-- The error code. -/
  code : ErrorCode
  /-- A short description. -/
  description : String
  /-- Free-form details, unparsed. -/
  details : RawValue
deriving DecidableEq

/-- Copies a borrowed error into an owned one. -/
def CallErrorRef.toCallError (e : CallErrorRef) : CallError where
  code := e.code
  description := e.description
  details := (Externals.readValue e.details).getD Externals.emptyMap

/-- An owned error as a frame carries it. -/
def CallError.toRef (e : CallError) : CallErrorRef where
  code := e.code
  description := capDescription e.description
  details := (Externals.toRawValue e.details).getD RawValue.emptyObject

/-- **What the receiver reads of an error that was sent**: the code in the
version's spelling, the description capped, the details printed and parsed
again. -/
def CallError.overTheWire (version : Version) (e : CallError) : CallError where
  code := ErrorCode.parse (e.code.asWire version)
  description := capDescription e.description
  details := (Externals.readValue ((Externals.toRawValue e.details).getD
    RawValue.emptyObject)).getD Externals.emptyMap

end OcppKit
