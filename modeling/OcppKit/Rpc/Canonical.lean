import OcppKit.Reference
import OcppKit.Rpc.RoundTrip

/-!
# What the wire keeps of a frame

Everything but the spelling of an error code. A version writes the two codes it does not
define as `GenericError`, and a code that was kept verbatim may be spelt like a known one;
`OcppKit.Frame.canonical` is the frame with its code so replaced. A frame that is written
and read is its canonical form, and so is a text that is read, written and read again:
`OcppKit.frame_roundTrips`.
-/

namespace OcppKit

/-! ### Error codes -/

/-- The code a version has for this one. -/
def ErrorCode.canonical (version : Version) : ErrorCode → ErrorCode
  | .rpcFrameworkError => if version = .v1_6 then .genericError else .rpcFrameworkError
  | .messageTypeNotSupported => if version = .v1_6 then .genericError else .messageTypeNotSupported
  | .other code => ErrorCode.parse code
  | code => code

/-- A code is read as the one the version has for it. -/
theorem ErrorCode.parse_asWire_eq_canonical (version : Version) (code : ErrorCode) :
    ErrorCode.parse (code.asWire version) = code.canonical version := by
  cases code with
  | other code => rfl
  | _ => cases version <;> rfl

variable [Externals]

/-! ### Frames -/

/-- The error with the code the version has for it. -/
def CallErrorRef.canonical (version : Version) (error : CallErrorRef) : CallErrorRef :=
  { error with code := error.code.canonical version }

/-- The frame with the error code the version has for its own. -/
def Frame.canonical (version : Version) : Frame → Frame
  | .callError id error => .callError id (error.canonical version)
  | .callResultError id error => .callResultError id (error.canonical version)
  | frame => frame

theorem Frame.overTheWire_eq_canonical (version : Version) (frame : Frame) :
    frame.overTheWire version = frame.canonical version := by
  have herror (error : CallErrorRef) : error.overTheWire version = error.canonical version := by
    rw [CallErrorRef.overTheWire, CallErrorRef.canonical, ErrorCode.parse_asWire_eq_canonical]
  cases frame with
  | callError id error => rw [overTheWire, canonical, herror]
  | callResultError id error => rw [overTheWire, canonical, herror]
  | _ => rfl

/-! ### What is read -/

/-- A body is read with the type and the id that were read before it. -/
theorem parseBody_head {messageType : MessageTypeId} {id : MessageId} {elements : List RawValue}
    {frame : Frame} (h : Frame.parseBody messageType id elements = .ok frame) :
    frame.messageType = messageType ∧ frame.id = id := by
  cases messageType with
  | callResult =>
      obtain rfl := Except.ok.inj h
      exact ⟨rfl, rfl⟩
  | _ =>
      rw [Frame.parseBody] at h
      split at h
      · exact absurd h (by simp)
      · obtain rfl := Except.ok.inj h
        exact ⟨rfl, rfl⟩

/-- **What is read has a type the version defines, and an id.** -/
theorem wellFormed_of_parse {text : String} {version : Version} {frame : Frame}
    (h : Frame.parse text version = .ok frame) :
    frame.messageType.isDefinedIn version = true ∧ frame.id.asStr.isEmpty = false := by
  rw [Frame.parse] at h
  split at h
  · exact absurd h (by simp)
  split at h
  · exact absurd h (by simp)
  split at h
  · exact absurd h (by simp)
  split at h
  · exact absurd h (by simp)
  next hdefined =>
  split at h
  · exact absurd h (by simp)
  split at h
  · exact absurd h (by simp)
  split at h
  · exact absurd h (by simp)
  next hid =>
  obtain ⟨htype, hframe⟩ := parseBody_head h
  rw [htype, hframe]
  exact ⟨by simpa using hdefined, by simpa using hid⟩

variable [LawfulExternals]

/-- What is written of a frame with an id, in a version that has its type, reads as its
canonical form. -/
theorem Frame.parse_toJson_canonical {version : Version} {frame : Frame}
    (hdefined : frame.messageType.isDefinedIn version = true)
    (hid : frame.id.asStr.isEmpty = false) : ∃ text, frame.toJson version = .ok text ∧
      Frame.parse text version = .ok (frame.canonical version) := by
  obtain ⟨text, htext⟩ := LawfulExternals.writeTuple_ok (frame.items version)
  refine ⟨text, htext, ?_⟩
  rw [parse_toJson htext, if_neg (by simp [hdefined]), if_neg (by simp [hid]),
    overTheWire_eq_canonical]

/-- **Frames there and back, texts there and back.** -/
theorem frame_roundTrips (version : Version) :
    (∀ frame : Frame, frame.messageType.isDefinedIn version = true →
      frame.id.asStr.isEmpty = false → ∃ text, frame.toJson version = .ok text ∧
        Frame.parse text version = .ok (frame.canonical version)) ∧
    ∀ text frame, Frame.parse text version = .ok frame → ∃ text',
      frame.toJson version = .ok text' ∧
        Frame.parse text' version = .ok (frame.canonical version) := by
  refine ⟨fun frame hdefined hid => Frame.parse_toJson_canonical hdefined hid, ?_⟩
  intro text frame h
  obtain ⟨hdefined, hid⟩ := wellFormed_of_parse h
  exact Frame.parse_toJson_canonical hdefined hid

end OcppKit

namespace OcppKit.Reference

/-! ### An error 1.6 has no code for -/

/-- The answer to a malformed frame. -/
def frameworkError : Frame :=
  .callError ⟨"19223201"⟩ ⟨.rpcFrameworkError, "not \"valid\"", raw "\x7b\"line\": 1\x7d"⟩

/-- Over 1.6 it is a generic error; nothing else changes. -/
theorem frame_roundTrips_frameworkError : ∃ text, frameworkError.toJson .v1_6 = .ok text ∧
    Frame.parse text .v1_6 =
      .ok (.callError ⟨"19223201"⟩ ⟨.genericError, "not \"valid\"", raw "\x7b\"line\": 1\x7d"⟩) :=
  (frame_roundTrips .v1_6).1 frameworkError rfl rfl

end OcppKit.Reference
