import OcppKit.Rpc.Frame

/-!
# Frames there and back

What a receiver of the same version reads of a frame that was written. The elements
of a written tuple read as what was written (`OcppKit.LawfulExternals`), so every
frame comes back, with two exceptions that `OcppKit.Frame.parse_toJson` spells out: an
empty id is unreadable, and an error body comes back as
`OcppKit.CallErrorRef.overTheWire` says.
-/

namespace OcppKit

variable [Externals]

/-- A borrowed error as a receiver of the same version reads it. -/
def CallErrorRef.overTheWire (version : Version) (error : CallErrorRef) : CallErrorRef :=
  { error with code := ErrorCode.parse (error.code.asWire version) }

/-- A frame as a receiver of the same version reads it. -/
def Frame.overTheWire (version : Version) : Frame → Frame
  | .callError id error => .callError id (error.overTheWire version)
  | .callResultError id error => .callResultError id (error.overTheWire version)
  | frame => frame

@[simp] theorem Frame.overTheWire_messageType (version : Version) (frame : Frame) :
    (frame.overTheWire version).messageType = frame.messageType := by
  cases frame <;> rfl

@[simp] theorem Frame.overTheWire_id (version : Version) (frame : Frame) :
    (frame.overTheWire version).id = frame.id := by
  cases frame <;> rfl

/-- What an engine sends as an error is read as that error, over the wire. -/
theorem CallError.toCallError_overTheWire (version : Version) (error : CallError) :
    (error.toRef.overTheWire version).toCallError = error.overTheWire version := rfl

/-! ### The body of a frame -/

section

variable {id : MessageId} {elements : List RawValue}

theorem parseBody_call {action : String} (h : stringAt elements 2 = some action) :
    Frame.parseBody .call id elements =
      .ok (.call id action (elements[3]?.getD RawValue.emptyObject)) := by
  rw [Frame.parseBody, h]
  rfl

theorem parseBody_send {action : String} (h : stringAt elements 2 = some action) :
    Frame.parseBody .send id elements =
      .ok (.send id action (elements[3]?.getD RawValue.emptyObject)) := by
  rw [Frame.parseBody, h]
  rfl

/-- The error a body reads as. -/
def errorOf (code : String) (elements : List RawValue) : CallErrorRef where
  code := ErrorCode.parse code
  description := (stringAt elements 3).getD ""
  details := elements[4]?.getD RawValue.emptyObject

theorem parseBody_callError {code : String} (h : stringAt elements 2 = some code) :
    Frame.parseBody .callError id elements = .ok (.callError id (errorOf code elements)) := by
  rw [Frame.parseBody, h]
  rfl

theorem parseBody_callResultError {code : String} (h : stringAt elements 2 = some code) :
    Frame.parseBody .callResultError id elements =
      .ok (.callResultError id (errorOf code elements)) := by
  rw [Frame.parseBody, h]
  rfl

end

/-! ### Reading what was written -/

/-- The type element, the id and what follows them, as they read. -/
structure ReadsBack (version : Version) (frame : Frame) (elements : List RawValue) : Prop where
  /-- The number is that of the type. -/
  number : elements.head?.bind Externals.readI64 = some ((frame.messageType.number : ℕ) : ℤ)
  /-- There are enough elements. -/
  long : (arity frame.messageType).2 ≤ elements.length
  /-- The id reads as the id. -/
  id : stringAt elements 1 = some frame.id.asStr
  /-- The rest reads as the frame. -/
  body : Frame.parseBody frame.messageType frame.id elements = .ok (frame.overTheWire version)

variable [LawfulExternals]

theorem readsBack_toJson {frame : Frame} {version : Version} {text : String}
    (h : frame.toJson version = .ok text) :
    ∃ elements, Externals.elements text = some elements ∧ ReadsBack version frame elements := by
  obtain ⟨elements, helements, hread⟩ := LawfulExternals.elements_writeTuple _ _ h
  refine ⟨elements, helements, ?_⟩
  rcases frame with ⟨id, action, payload⟩ | ⟨id, payload⟩ | ⟨id, error⟩ | ⟨id, error⟩ |
    ⟨id, action, payload⟩
  · rcases hread with _ | ⟨hnumber, _ | ⟨hid, _ | ⟨haction, _ | ⟨rfl, _ | _⟩⟩⟩⟩
    refine ⟨hnumber, le_rfl, hid, ?_⟩
    exact parseBody_call haction
  · rcases hread with _ | ⟨hnumber, _ | ⟨hid, _ | ⟨rfl, _ | _⟩⟩⟩
    exact ⟨hnumber, le_rfl, hid, rfl⟩
  · rcases hread with _ | ⟨hnumber, _ | ⟨hid, _ | ⟨hcode, _ | ⟨htext, _ | ⟨rfl, _ | _⟩⟩⟩⟩⟩
    refine ⟨hnumber, Nat.le_add_left 3 2, hid, ?_⟩
    refine Eq.trans (parseBody_callError hcode) ?_
    have hread : Externals.readString _ = some error.description := htext
    simp [errorOf, stringAt, hread, Frame.overTheWire, CallErrorRef.overTheWire, Frame.id]
  · rcases hread with _ | ⟨hnumber, _ | ⟨hid, _ | ⟨hcode, _ | ⟨htext, _ | ⟨rfl, _ | _⟩⟩⟩⟩⟩
    refine ⟨hnumber, Nat.le_add_left 3 2, hid, ?_⟩
    refine Eq.trans (parseBody_callResultError hcode) ?_
    have hread : Externals.readString _ = some error.description := htext
    simp [errorOf, stringAt, hread, Frame.overTheWire, CallErrorRef.overTheWire, Frame.id]
  · rcases hread with _ | ⟨hnumber, _ | ⟨hid, _ | ⟨haction, _ | ⟨rfl, _ | _⟩⟩⟩⟩
    refine ⟨hnumber, le_rfl, hid, ?_⟩
    exact parseBody_send haction

/-- **What a receiver of the same version reads** of a frame that was written: the
frame, unless the version does not have its type or its id is empty. -/
theorem Frame.parse_toJson {frame : Frame} {version : Version} {text : String}
    (h : frame.toJson version = .ok text) : Frame.parse text version =
      if frame.messageType.isDefinedIn version = false then
        .error (.messageTypeNotInVersion frame.messageType version)
      else if frame.id.asStr.isEmpty then .error (.unreadableMessageId frame.messageType)
      else .ok (frame.overTheWire version) := by
  obtain ⟨elements, helements, hnumber, hlong, hid, hbody⟩ := readsBack_toJson h
  simp only [Frame.parse, helements, hnumber, MessageTypeId.fromNumber_number,
    if_neg (not_lt.mpr hlong), hid]
  rw [show (⟨frame.id.asStr⟩ : MessageId) = frame.id from rfl, hbody]

end OcppKit
