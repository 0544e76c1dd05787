import OcppKit.Engine.Inbound
import OcppKit.Rpc.RoundTrip

/-!
# Only calls are answered

`OcppKit.nonCall_unanswered_iff`: a frame that is not a `CALL`, however malformed, is
not answered, unless the element after its id – an error code, or the action of a
`SEND` – is there and is not a string. In that one case the failure to parse
(`OcppKit.FrameError.unreadableErrorCode`, `OcppKit.FrameError.unreadableAction`) does
not say which type the frame had, and `OcppKit.FrameError.reply` takes it for a `CALL`.

No error frame an engine writes is of that kind, so two engines never answer each
other's errors.
-/

namespace OcppKit

variable [Externals]

open Engine

/-! ### Reading a text -/

/-- The type a text announces, if it is an array that starts with the number of one. -/
def typeOf (text : String) : Option MessageTypeId :=
  (Externals.elements text).bind fun elements =>
    (elements.head?.bind Externals.readI64).bind MessageTypeId.fromNumber

/-- There are enough elements for the type, and an id, but the element after the id,
which is the error code or the action, is not a string. -/
structure ThirdUnreadable (t : MessageTypeId) (elements : List RawValue) : Prop where
  /-- A result has no such element. -/
  notResult : t ≠ .callResult
  /-- There are enough elements. -/
  long : (arity t).2 ≤ elements.length
  /-- The id is a string that is not empty. -/
  id : ∃ id, stringAt elements 1 = some id ∧ id.isEmpty = false
  /-- The element after it is not a string. -/
  third : stringAt elements 2 = none

/-- The text is malformed in that way. -/
def UnreadableThird (text : String) (t : MessageTypeId) : Prop :=
  ∃ elements, Externals.elements text = some elements ∧ ThirdUnreadable t elements

/-- The failure says which type the frame had, and that the version has it. -/
def Typed (t : MessageTypeId) : FrameError → Prop
  | .wrongArity t' _ _ | .unreadableMessageId t' => t' = t
  | _ => False

/-- The failure is about the element after the id. -/
def Untyped : FrameError → Prop
  | .unreadableAction _ | .unreadableErrorCode _ => True
  | _ => False

/-- **What parsing makes of a text whose type is known**: a frame of that type, a
failure that says the type, or, if the third element is unreadable, one that does
not. -/
theorem parse_cases {text : String} {version : Version} {t : MessageTypeId}
    (htype : typeOf text = some t) (hdefined : t.isDefinedIn version = true) :
    (¬UnreadableThird text t ∧ ((∃ frame, Frame.parse text version = .ok frame ∧
        frame.messageType = t) ∨
      ∃ error, Frame.parse text version = .error error ∧ Typed t error)) ∨
    UnreadableThird text t ∧ ∃ error, Frame.parse text version = .error error ∧ Untyped error := by
  obtain ⟨elements, helements, hnumber⟩ := Option.bind_eq_some_iff.mp htype
  obtain ⟨number, hnumber, ht⟩ := Option.bind_eq_some_iff.mp hnumber
  have hunreadable : UnreadableThird text t ↔ ThirdUnreadable t elements := by
    constructor
    · rintro ⟨elements', he, hthird⟩
      exact Option.some.inj (helements.symm.trans he) ▸ hthird
    · exact fun hthird => ⟨elements, helements, hthird⟩
  rw [hunreadable]
  simp only [Frame.parse, helements, hnumber, ht, hdefined, Bool.true_eq_false, if_false]
  by_cases hlong : elements.length < (arity t).2
  · rw [if_pos hlong]
    exact Or.inl ⟨fun h => absurd h.long (not_le.mpr hlong), Or.inr ⟨_, rfl, rfl⟩⟩
  rw [if_neg hlong]
  rcases hid : stringAt elements 1 with _ | id
  · refine Or.inl ⟨fun h => ?_, Or.inr ⟨_, rfl, rfl⟩⟩
    obtain ⟨id, hid', -⟩ := h.id
    exact absurd (hid.symm.trans hid') (by simp)
  dsimp only
  by_cases hempty : id.isEmpty = true
  · rw [if_pos hempty]
    refine Or.inl ⟨fun h => ?_, Or.inr ⟨_, rfl, rfl⟩⟩
    obtain ⟨id', hid', hne⟩ := h.id
    obtain rfl : id = id' := Option.some.inj (hid.symm.trans hid')
    exact absurd (hempty.symm.trans hne) (by simp)
  rw [if_neg hempty]
  have hthird : t ≠ .callResult → stringAt elements 2 = none → ThirdUnreadable t elements :=
    fun hne hnone => ⟨hne, not_lt.mp hlong, ⟨id, hid, by simpa using hempty⟩, hnone⟩
  rcases hsome : stringAt elements 2 with _ | third
  · rcases t with _ | _ | _ | _ | _
    case callResult => exact Or.inl ⟨fun h => h.notResult rfl, Or.inl ⟨_, rfl, rfl⟩⟩
    all_goals
      refine Or.inr ⟨hthird (by simp) hsome, ?_⟩
      rw [Frame.parseBody, hsome]
      exact ⟨_, rfl, trivial⟩
  · refine Or.inl ⟨fun h => absurd (hsome.symm.trans h.third) (by simp), Or.inl ?_⟩
    rcases t with _ | _ | _ | _ | _
    · exact ⟨_, parseBody_call hsome, rfl⟩
    · exact ⟨_, rfl, rfl⟩
    · exact ⟨_, parseBody_callError hsome, rfl⟩
    · exact ⟨_, parseBody_callResultError hsome, rfl⟩
    · exact ⟨_, parseBody_send hsome, rfl⟩

omit [Externals] in
/-- Only a version with the extended types has one answered by a `CALLRESULTERROR`. -/
theorem hasExtended_of_reply {version : Version} {error : FrameError}
    (h : error.reply version = .callResultError) : version.hasExtendedMessageTypes = true := by
  by_contra hno
  simp only [FrameError.reply, if_neg hno] at h
  split at h
  · cases h
  · split at h
    · cases h
    · split at h <;> cases h

/-! ### What the engine replies -/

variable {S : Type} [MessageStore S]

/-- The frames a text is replied to with: those that are marked as answers, rather than
as calls of the engine's own. -/
def repliesTo (e : Engine S) (now : Instant) (text : String) : List Frame :=
  frames (foreign (newEvents e (.handle now (.received text))))

/-- **A text of this type is not answered**: no `CALLERROR` and no `CALLRESULT` is
transmitted, nothing is transmitted in reply unless it is a `CALLRESULT`, and nothing at
all if it is a `CALLRESULTERROR` or a `SEND`. -/
structure Unanswered (e : Engine S) (now : Instant) (text : String) (t : MessageTypeId) :
    Prop where
  /-- No answer is transmitted. -/
  answers : ∀ frame ∈ frames (newEvents e (.handle now (.received text))),
    frame.messageType ≠ .callError ∧ frame.messageType ≠ .callResult
  /-- Nothing is transmitted in reply. -/
  silent : t ≠ .callResult → repliesTo e now text = []
  /-- Nothing is transmitted at all. -/
  nothing : t = .callResultError ∨ t = .send →
    texts (newEvents e (.handle now (.received text))) = []

/-- A frame that is transmitted is a reply, or a call of the engine's own. -/
theorem mem_frames {evs : List Event} {frame : Frame} (h : frame ∈ frames evs) :
    frame ∈ frames (foreign evs) ∨ frame.messageType = .call ∨ frame.messageType = .send := by
  obtain ⟨event, hmem, hframe⟩ := List.mem_filterMap.mp h
  rcases hown : event.own with _ | _
  · exact Or.inl (List.mem_filterMap.mpr ⟨event, List.mem_filter.mpr ⟨hmem, by simp [hown]⟩,
      hframe⟩)
  · rcases event with _ | _ | _ | ⟨id, entry⟩ | _ | _ | _ | _
    case sent =>
      obtain rfl : entry.frame id = frame := Option.some.inj hframe
      rw [Pending.frame]
      rcases entry.kind with _ | _
      · exact Or.inr (Or.inl rfl)
      · exact Or.inr (Or.inr rfl)
    all_goals first | cases hown | cases hframe

theorem repliesTo_frame {e : Engine S} {now : Instant} {text : String} {frame : Frame}
    (hparse : Frame.parse text e.version = .ok frame) (hcall : frame.messageType ≠ .call) :
    repliesTo e now text = [] := by
  have heffect := (newEvents_effect e (.handle now (.received text))).1
  rw [repliesTo]
  generalize (exec e (.handle now (.received text))).setting = s at heffect
  generalize foreign (newEvents e (.handle now (.received text))) = left at heffect
  cases heffect with
  | malformed _ _ error hparse' => exact absurd (hparse.symm.trans hparse') (by simp)
  | refused _ _ id action payload error hparse' _ =>
      obtain rfl : frame = .call id action payload := Except.ok.inj (hparse.symm.trans hparse')
      exact absurd rfl hcall
  | _ => rfl

theorem repliesTo_error {e : Engine S} {text : String} {error : FrameError} (now : Instant)
    (hparse : Frame.parse text e.version = .error error) :
    repliesTo e now text = frames (replyMarks e.version error) := by
  have heffect := (newEvents_effect e (.handle now (.received text))).1
  rw [repliesTo]
  generalize (exec e (.handle now (.received text))).setting = s at heffect
  generalize foreign (newEvents e (.handle now (.received text))) = left at heffect
  cases heffect with
  | malformed _ _ error' hparse' =>
      obtain rfl : error = error' := Except.error.inj (hparse.symm.trans hparse')
      rfl
  | refused _ _ _ _ _ _ hparse' _ => exact absurd (hparse.symm.trans hparse') (by simp)
  | dropped _ _ _ _ _ _ hparse' _ => exact absurd (hparse.symm.trans hparse') (by simp)
  | delivered _ _ _ _ _ _ hparse' _ => exact absurd (hparse.symm.trans hparse') (by simp)
  | unexpected _ _ _ hparse' _ _ => exact absurd (hparse.symm.trans hparse') (by simp)
  | answered _ _ _ _ _ hparse' _ _ => exact absurd (hparse.symm.trans hparse') (by simp)
  | answeredError _ _ _ _ hparse' _ => exact absurd (hparse.symm.trans hparse') (by simp)
  | resultRejected _ _ _ _ hparse' => exact absurd (hparse.symm.trans hparse') (by simp)

/-- A failure that says the type is answered only for a `CALL`, and, with a
`CALLRESULTERROR`, for a `CALLRESULT`. -/
theorem frames_replyMarks_of_typed {version : Version} {t : MessageTypeId} {error : FrameError}
    (h : Typed t error) (hcall : t ≠ .call) :
    (t ≠ .callResult → frames (replyMarks version error) = []) ∧
      ∀ frame ∈ frames (replyMarks version error), frame.messageType = .callResultError := by
  have hreply : error.reply version = .ignore ∨
      t = .callResult ∧ error.reply version = .callResultError := by
    rcases error with _ | ⟨t', _, _⟩ | _ | _ | t' | _ | _ <;> try exact h.elim
    all_goals
      obtain rfl : t' = t := h
      rcases t' with _ | _ | _ | _ | _
      case call => exact absurd rfl hcall
      case callResult =>
        simp only [FrameError.reply, FrameError.isIgnorable, FrameError.messageType]
        rcases version.hasExtendedMessageTypes with _ | _
        · exact Or.inl rfl
        · exact Or.inr ⟨trivial, rfl⟩
      all_goals exact Or.inl rfl
  rcases hreply with hignore | ⟨rfl, hresult⟩
  · rw [replyMarks, hignore]
    exact ⟨fun _ => rfl, fun frame hf => absurd hf List.not_mem_nil⟩
  · rw [replyMarks, hresult]
    refine ⟨fun hne => absurd rfl hne, fun frame hf => ?_⟩
    obtain rfl := List.mem_singleton.mp hf
    rfl

/-- A failure that does not say the type is answered as if it were a `CALL`. -/
theorem frames_replyMarks_of_untyped {error : FrameError} (version : Version)
    (h : Untyped error) :
    ∃ body, frames (replyMarks version error) = [.callError error.replyId body] := by
  refine ⟨(malformedAnswer error).toRef, ?_⟩
  rcases error with _ | _ | _ | _ | _ | _ | _ <;> first | exact h.elim | rfl

/-- **A frame that is no `CALL` is not answered**, exactly when its third element is
readable. -/
theorem unanswered_iff {e : Engine S} {now : Instant} {text : String} {t : MessageTypeId}
    (htype : typeOf text = some t) (hdefined : t.isDefinedIn e.version = true)
    (hcall : t ≠ .call) : Unanswered e now text t ↔ ¬UnreadableThird text t := by
  rcases parse_cases htype hdefined with ⟨hreadable, hparse⟩ | ⟨hunreadable, error, hparse, hun⟩
  · refine iff_of_true ?_ hreadable
    have hreplies : (t ≠ .callResult → repliesTo e now text = []) ∧
        ∀ frame ∈ repliesTo e now text, frame.messageType = .callResultError := by
      rcases hparse with ⟨frame, hparse, rfl⟩ | ⟨error, hparse, htyped⟩
      · rw [repliesTo_frame hparse hcall]
        exact ⟨fun _ => rfl, fun frame hf => absurd hf List.not_mem_nil⟩
      · rw [repliesTo_error now hparse]
        exact frames_replyMarks_of_typed htyped hcall
    refine ⟨fun frame hf => ?_, hreplies.1, fun ht => ?_⟩
    · rcases mem_frames hf with hf | hf | hf
      · rw [hreplies.2 frame hf]
        exact ⟨by simp, by simp⟩
      · rw [hf]
        exact ⟨by simp, by simp⟩
      · rw [hf]
        exact ⟨by simp, by simp⟩
    · have hne : t ≠ .callResult ∧ t ≠ .callError := by
        rcases ht with rfl | rfl <;> simp
      have hno : ∀ frame, Frame.parse text e.version = .ok frame → NoAnswer frame := by
        intro frame hframe
        rcases hparse with ⟨frame', hparse, rfl⟩ | ⟨error, hparse, -⟩
        · obtain rfl : frame' = frame := Except.ok.inj (hparse.symm.trans hframe)
          exact hne
        · exact absurd (hparse.symm.trans hframe) (by simp)
      rw [texts_received e now hno, ← repliesTo, hreplies.1 hne.1, List.filterMap_nil]
  · refine iff_of_false (fun h => ?_) (not_not.mpr hunreadable)
    obtain ⟨body, hbody⟩ := frames_replyMarks_of_untyped e.version hun
    rw [← repliesTo_error now hparse] at hbody
    refine (h.answers (.callError error.replyId body) ?_).1 rfl
    have hmem : Frame.callError error.replyId body ∈ repliesTo e now text := by simp [hbody]
    obtain ⟨event, hevent, hframe⟩ := List.mem_filterMap.mp hmem
    exact List.mem_filterMap.mpr ⟨event, List.mem_of_mem_filter hevent, hframe⟩

/-! ### Errors that were written -/

/-- A version in which a `CALLRESULTERROR` is transmitted has that type. -/
theorem isDefinedIn_of_mem_frames {e : Engine S} {op : Op} {frame : Frame}
    (h : frame ∈ frames (newEvents e op))
    (htype : frame.messageType = .callError ∨ frame.messageType = .callResultError) :
    frame.messageType.isDefinedIn (exec e op).version = true := by
  rcases htype with htype | htype
  · rw [htype]
    rfl
  have hmem : frame ∈ frames (foreign (newEvents e op)) := by
    rcases mem_frames h with h | h | h
    · exact h
    · exact absurd (htype.symm.trans h) (by simp)
    · exact absurd (htype.symm.trans h) (by simp)
  rw [htype]
  change (exec e op).setting.version.hasExtendedMessageTypes = true
  have heffect := (newEvents_effect e op).1
  generalize (exec e op).setting = s at heffect ⊢
  generalize foreign (newEvents e op) = left at heffect hmem
  cases heffect with
  | rejectedResult _ _ _ hextended => exact hextended
  | malformed _ _ error _ =>
      change frame ∈ frames (replyMarks e.version error) at hmem
      change e.version.hasExtendedMessageTypes = true
      rw [replyMarks] at hmem
      split at hmem
      · exact absurd hmem List.not_mem_nil
      · obtain rfl := List.mem_singleton.mp hmem
        exact absurd htype (by simp [Frame.messageType])
      · next hreply => exact hasExtended_of_reply hreply
  | refused =>
      obtain rfl := List.mem_singleton.mp hmem
      exact absurd htype (by simp [Frame.messageType])
  | responded =>
      obtain rfl := List.mem_singleton.mp hmem
      exact absurd htype (by simp [Frame.messageType])
  | respondedError =>
      obtain rfl := List.mem_singleton.mp hmem
      exact absurd htype (by simp [Frame.messageType])
  | _ => exact absurd hmem List.not_mem_nil

variable [LawfulExternals]

/-- What is transmitted is what is marked, frame by frame. -/
theorem toJson_frames (e : Engine S) (op : Op) :
    (frames (newEvents e op)).map (fun frame => frame.toJson (exec e op).version) =
      (texts (newEvents e op)).map .ok := by
  rw [(newEvents_effect e op).2, written]
  induction frames (newEvents e op) with
  | nil => rfl
  | cons frame rest ih =>
    obtain ⟨text, htext⟩ := frame.toJson_ok (exec e op).version
    rw [List.filterMap_cons_some (Frame.text_of_toJson htext), List.map_cons, List.map_cons, ih,
      htext]

/-- The text of a frame announces the type of the frame. -/
theorem typeOf_toJson {frame : Frame} {version : Version} {text : String}
    (h : frame.toJson version = .ok text) : typeOf text = some frame.messageType := by
  obtain ⟨elements, helements, hread⟩ := readsBack_toJson h
  rw [typeOf, helements, Option.bind_some, hread.number, Option.bind_some,
    MessageTypeId.fromNumber_number]

/-- A frame that was written has a readable third element. -/
theorem not_unreadableThird_toJson {frame : Frame} {version : Version} {text : String}
    (h : frame.toJson version = .ok text)
    (hdefined : frame.messageType.isDefinedIn version = true) :
    ¬UnreadableThird text frame.messageType := by
  rcases parse_cases (typeOf_toJson h) hdefined with ⟨hreadable, -⟩ | ⟨-, error, hparse, hun⟩
  · exact hreadable
  · rw [Frame.parse_toJson h, hdefined] at hparse
    split at hparse
    · obtain rfl := Except.error.inj hparse
      exact hun.elim
    · split at hparse
      · obtain rfl := Except.error.inj hparse
        exact hun.elim
      · cases hparse

/-! ### Only calls are answered -/

/-- **A frame that is not a `CALL` is answered exactly when its third element is
unreadable**, and an error frame that an engine transmitted never makes an engine of
the same version answer. -/
theorem nonCall_unanswered_iff {S₁ S₂ : Type} [MessageStore S₁] [MessageStore S₂] :
    (∀ (e : Engine S₁) (now : Instant) (text : String) (t : MessageTypeId),
      typeOf text = some t → t.isDefinedIn e.version = true → t ≠ .call →
      (Unanswered e now text t ↔ ¬UnreadableThird text t)) ∧
    (∀ (e : Engine S₁) (op : Op),
      (frames (newEvents e op)).map (fun frame => frame.toJson (exec e op).version) =
        (texts (newEvents e op)).map .ok) ∧
    ∀ (e₁ : Engine S₁) (op : Op) (frame : Frame) (text : String),
      frame ∈ frames (newEvents e₁ op) →
      frame.messageType = .callError ∨ frame.messageType = .callResultError →
      frame.toJson (exec e₁ op).version = .ok text →
      ∀ (e₂ : Engine S₂) (now : Instant), e₂.version = (exec e₁ op).version →
        Unanswered e₂ now text frame.messageType := by
  refine ⟨fun e now text t => unanswered_iff, toJson_frames, ?_⟩
  intro e₁ op frame text hmem htype htext e₂ now hversion
  have hdefined := isDefinedIn_of_mem_frames hmem htype
  have hcall : frame.messageType ≠ .call := by
    rcases htype with h | h <;> simp [h]
  refine (unanswered_iff (typeOf_toJson htext) (hversion ▸ hdefined) hcall).mpr ?_
  exact not_unreadableThird_toJson htext hdefined

end OcppKit

/-! ### A run -/

namespace OcppKit.Reference

open Engine

/-- A CSMS a station has connected to. -/
def connectedRun : List Op := [.handle 1 (.connected .v2_0_1)]

/-- An error whose code is a number, not a string, is answered with an error. -/
theorem callError_answered :
    typeOf "[4,\"m\",1,\"\",{}]" = some .callError ∧
    texts (newEvents (run (csms .v2_0_1) connectedRun)
        (.handle 2 (.received "[4,\"m\",1,\"\",{}]"))) =
      ["[4,\"m\",\"RpcFrameworkError\",\"frame could not be processed\",{}]"] ∧
    ¬Unanswered (run (csms .v2_0_1) connectedRun) 2 "[4,\"m\",1,\"\",{}]" .callError := by
  refine ⟨by decide +kernel, by decide +kernel, fun h => ?_⟩
  have hreplies :
      (repliesTo (run (csms .v2_0_1) connectedRun) 2 "[4,\"m\",1,\"\",{}]").length = 1 := by
    decide +kernel
  rw [h.silent (by decide)] at hreplies
  cases hreplies

/-- The answer to it. -/
def errorAnswer : Frame :=
  .callError ⟨"m"⟩ (malformedAnswer (.unreadableErrorCode ⟨"m"⟩)).toRef

/-- An error without a description or details is not answered, and neither is the answer
to the one above. -/
theorem nonCall_unanswered_iff_connectedRun :
    Unanswered (run (csms .v2_0_1) connectedRun) 2 "[4,\"m\",\"GenericError\"]" .callError ∧
    ∃ text, errorAnswer.toJson .v2_0_1 = .ok text ∧
      Unanswered (run (csms .v2_0_1) connectedRun) 2 text .callError := by
  obtain ⟨h₁, -, h₂⟩ := @nonCall_unanswered_iff _ _ MemStore MemStore _ _
  constructor
  · refine (h₁ (run (csms .v2_0_1) connectedRun) 2 _ .callError (by decide +kernel)
      (by decide +kernel) (by decide)).mpr ?_
    rintro ⟨elements, helements, hthird⟩
    have hread : ((Externals.elements "[4,\"m\",\"GenericError\"]").bind fun elements =>
        stringAt elements 2).isSome = true := by decide +kernel
    rw [helements, Option.bind_some, hthird.third] at hread
    cases hread
  · obtain ⟨text, htext⟩ := errorAnswer.toJson_ok .v2_0_1
    refine ⟨text, htext, ?_⟩
    have hversion : (exec (run (csms .v2_0_1) connectedRun)
        (.handle 2 (.received "[4,\"m\",1,\"\",{}]"))).version = .v2_0_1 := by decide +kernel
    exact h₂ (run (csms .v2_0_1) connectedRun) (.handle 2 (.received "[4,\"m\",1,\"\",{}]"))
      errorAnswer text (by decide +kernel) (Or.inl rfl) (hversion ▸ htext)
      (run (csms .v2_0_1) connectedRun) 2 (by decide +kernel)

end OcppKit.Reference
