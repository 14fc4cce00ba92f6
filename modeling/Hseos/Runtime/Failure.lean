import Hseos.Foundation.JsonSize
import Hseos.Foundation.Thrown
import Hseos.Session.OpenSteps
import Mathlib.Data.Nat.Digits.Defs

/-! # Closing a model step

The events with which the runtime closes a model step that failed or was
cancelled, and when replay accepts them. The reserve of the stream bound is
counted in bytes of JSON, the message of a failure in UTF-16 code units.
-/

namespace Hseos

/-! ## Identifiers in JSON -/

theorem isLowerAlnum_bounds {c : Char} (h : isLowerAlnum c = true) :
    48 ≤ c.toNat ∧ c.toNat < 92 ∨ 97 ≤ c.toNat ∧ c.toNat < 0x80 := by
  simp only [isLowerAlnum, Char.isDigit, Bool.or_eq_true, Bool.and_eq_true, decide_eq_true_eq,
    UInt32.le_iff_toNat_le] at h
  have hdigit : c.val.toNat = c.toNat := rfl
  rw [hdigit] at h
  have hzero : '0'.val.toNat = 48 := rfl
  have hnine : '9'.val.toNat = 57 := rfl
  omega

theorem Identifier.plain (id : Identifier) :
    ∀ c ∈ id.val.toList, c.toNat < 0x80 ∧ escapeChar c = [c] := by
  obtain ⟨s, hs⟩ := id
  have halnum : ∀ c, isLowerAlnum c = true → c.toNat < 0x80 ∧ escapeChar c = [c] := by
    intro c hc
    have hbounds := isLowerAlnum_bounds hc
    exact ⟨by omega, escapeChar_of_plain (by omega)⟩
  rw [isIdentifier, chars_eq_toList] at hs
  intro c hc
  change c ∈ s.toList at hc
  cases htext : s.toList with
  | nil => simp [htext] at hc
  | cons first rest =>
      simp only [htext, Bool.and_eq_true, List.all_eq_true, Bool.or_eq_true,
        decide_eq_true_eq] at hs
      rw [htext] at hc
      rcases List.mem_cons.mp hc with rfl | hrest
      · exact halnum c hs.1.1
      · rcases hs.2 c hrest with hc | hpunctuation
        · exact halnum c hc
        · simp only [List.mem_cons, List.not_mem_nil, or_false] at hpunctuation
          rcases hpunctuation with rfl | rfl | rfl | rfl <;> decide

theorem Identifier.length_le (id : Identifier) : id.val.length ≤ 160 := by
  obtain ⟨s, hs⟩ := id
  rw [isIdentifier, chars_eq_toList] at hs
  change s.length ≤ 160
  rw [← String.length_toList]
  cases htext : s.toList with
  | nil => simp
  | cons first rest =>
      simp only [htext, Bool.and_eq_true, decide_eq_true_eq] at hs
      rw [List.length_cons]
      omega

@[simp] theorem byteLength_quoted_identifier (id : Identifier) :
    byteLength (quoted id.val) = id.val.length + 2 :=
  byteLength_quoted_of_plain id.plain

/-! ## Errors -/

/-- `text.slice(0, units)`, for a text that it does not cut inside a surrogate pair. -/
def sliceStart : Nat → List Char → List Char
  | _, [] => []
  | units, c :: rest =>
      if (charUnits c).length ≤ units then c :: sliceStart (units - (charUnits c).length) rest else []

/-- The slice keeps as many code units as there are, up to the bound. -/
def slicesWhole (units : Nat) (text : List Char) : Bool :=
  ((sliceStart units text).flatMap charUnits).length = min units (text.flatMap charUnits).length

/-- What the runtime reads of a thrown value. `retryable` tells whether the field is `true`. -/
structure ErrorValue where
  code : ErrorField
  errorCode : ErrorField
  message : ErrorField
  retryable : Bool
  whole : ∀ text, message = .text text → slicesWhole 4096 (chars text) = true

/-- `allowed.has(candidate)`, with the code that a string names. -/
def ErrorField.allowed? : ErrorField → Option NormalizedErrorCode
  | .text value =>
      [.invalidRequest, .unauthorized, .policyDenied, .capabilityUnavailable, .rateLimited, .timeout,
        .cancelled, .providerUnavailable, .protocolError, .budgetExceeded, .toolFailed,
        .internalError].find? fun code : NormalizedErrorCode => code.text = value
  | .other .. => none

/-- The code by which an error is known. -/
def ErrorValue.candidate (error : ErrorValue) : ErrorField :=
  if error.code = .text "AGENT_CONTEXT_BUDGET_EXCEEDED" then .text "budget_exceeded"
  else if error.errorCode.truthy then error.errorCode
  else error.code

structure NormalizedFailure where
  errorCode : NormalizedErrorCode
  message : String
  retryable : Bool
  deriving DecidableEq

/-- The first 4096 code units of a message. -/
def sliceMessage (text : String) : String := String.ofList (sliceStart 4096 (chars text))

def normalizedFailure (error : ErrorValue) : NormalizedFailure where
  errorCode := error.candidate.allowed?.getD .internalError
  message := match error.candidate.allowed?, error.message with
    | some _, .text text => sliceMessage text
    | _, _ => "agent runtime failed"
  retryable := error.retryable

/-! ## Appended events -/

theorem isLowerAlnum_of_isHexChar {c : Char} (h : Sha256.isHexChar c = true) :
    isLowerAlnum c = true := by
  simp only [Sha256.isHexChar, Bool.or_eq_true, Bool.and_eq_true, decide_eq_true_eq] at h
  simp only [isLowerAlnum, Bool.or_eq_true, Bool.and_eq_true, decide_eq_true_eq]
  rcases h with hdigit | ⟨hlow, hhigh⟩
  · exact .inr hdigit
  · exact .inl ⟨hlow, by omega⟩

theorem isIdentifier_event_digest (bytes : List Nat) :
    isIdentifier (String.ofList ("event:".toList ++ (Sha256.hexDigest bytes).take 40)) = true := by
  have hhex : ∀ c ∈ (Sha256.hexDigest bytes).take 40, isLowerAlnum c = true := by
    intro c hc
    exact isLowerAlnum_of_isHexChar
      (List.all_eq_true.mp (Sha256.isHexChar_hexDigest bytes) c (List.mem_of_mem_take hc))
  have hlength : ((Sha256.hexDigest bytes).take 40).length = 40 := by
    rw [List.length_take, Sha256.length_hexDigest]
    rfl
  have htext : "event:".toList = ['e', 'v', 'e', 'n', 't', ':'] := by decide
  rw [isIdentifier, chars_eq_toList, String.toList_ofList, htext]
  simp only [List.cons_append, List.nil_append, List.length_cons, hlength, Bool.and_eq_true,
    List.all_eq_true, Bool.or_eq_true, decide_eq_true_eq, List.mem_cons]
  refine ⟨⟨by decide, by omega⟩, ?_⟩
  rintro c (rfl | rfl | rfl | rfl | rfl | hc)
  · exact .inl (by decide)
  · exact .inl (by decide)
  · exact .inl (by decide)
  · exact .inl (by decide)
  · exact .inr (by decide)
  · exact .inl (hhex c hc)

/-- `stableId('event', …)`. -/
def stableEventId (parts : List Json) : Identifier :=
  ⟨String.ofList ("event:".toList ++
    (Sha256.hexDigest (utf8 (['\x00'].intercalate (parts.map canonicalJson)))).take 40),
    isIdentifier_event_digest _⟩

/-- The event that `#append` builds, unless its schema refuses it. -/
def appendedEvent? (state : SessionState) (occurredAt : Timestamp) (payload : SessionPayload)
    (identityParts : List Json) : Option SessionEvent := do
  let sessionId ← state.sessionId
  let sequence := state.currentSequence + 1
  if h : (intWithin 1 maxSafeInteger sequence && payload.valid sessionId) = true then
    some {
      eventId := stableEventId (.ofText sessionId :: .str payload.eventType :: identityParts)
      sessionId, sequence, occurredAt, payload
      valid := h }
  else none

/-- The next model event of a step. -/
def nextModelEvent (turnId : Identifier) (step : ModelStep) (payload : ModelStreamPayload) :
    ModelStreamedPayload where
  turnId := turnId
  stepId := some step.stepId
  providerId := step.request.providerId
  event := ⟨step.request.providerId, step.request.requestId, step.modelEvents.length, payload⟩

/-- The `failed` payload of a failure, unless its schema refuses the message. -/
def NormalizedFailure.payload? (failure : NormalizedFailure) : Option ModelStreamPayload :=
  if h : lengthWithin 1 4096 failure.message = true then
    some (.failed failure.errorCode ⟨failure.message, h⟩ failure.retryable)
  else none

/-- The event `#recordModelFailure` appends for an open step. -/
def modelFailureEvent? (state : SessionState) (turnId : Identifier) (step : ModelStep)
    (error : ErrorValue) (occurredAt : Timestamp) : Option SessionEvent := do
  let payload ← (normalizedFailure error).payload?
  appendedEvent? state occurredAt (.modelStreamed (nextModelEvent turnId step payload))
    [.ofText step.stepId, .str "runtime-failed"]

theorem jsLength_of_ascii {s : String} (h : ∀ c ∈ s.toList, c.toNat < 0x80) :
    jsLength s = s.length := by
  have hunits : ∀ text : List Char, (∀ c ∈ text, c.toNat < 0x80) →
      (text.flatMap charUnits).length = text.length := by
    intro text htext
    induction text with
    | nil => rfl
    | cons c rest ih =>
        have hc := htext c List.mem_cons_self
        have hunit : charUnits c = [c.toNat] := if_pos (by omega)
        have hrest := ih fun d hd => htext d (List.mem_cons_of_mem _ hd)
        rw [List.flatMap_cons, hunit, List.singleton_append, List.length_cons, hrest,
          List.length_cons]
  rw [jsLength, utf16, chars_eq_toList, hunits s.toList h, String.length_toList]

/-- The response reference of a step that was cancelled. -/
def cancelledResponseRef (requestId : Identifier) : Reference :=
  ⟨"runtime-cancelled://" ++ requestId.val, by
    have hlength := requestId.length_le
    have hliteral : ("runtime-cancelled://".toList.all fun c => c.toNat < 0x80) = true := by decide
    have hascii : ∀ c ∈ ("runtime-cancelled://" ++ requestId.val).toList, c.toNat < 0x80 := by
      intro c hc
      rw [String.toList_append] at hc
      rcases List.mem_append.mp hc with hscheme | hid
      · simpa using List.all_eq_true.mp hliteral c hscheme
      · exact (requestId.plain c hid).1
    have hscheme : "runtime-cancelled://".length = 20 := by decide
    rw [lengthWithin, jsLength_of_ascii hascii, String.length_append, hscheme]
    simp only [Bool.and_eq_true, decide_eq_true_eq]
    omega⟩

theorem length_cancelledResponseRef (requestId : Identifier) :
    (cancelledResponseRef requestId).val.length = 20 + requestId.val.length := by
  have hscheme : "runtime-cancelled://".length = 20 := by decide
  rw [← hscheme]
  exact String.length_append _ _

/-- The event `#recordModelCancellation` appends for an open step. -/
def modelCancellationEvent? (state : SessionState) (turnId : Identifier) (step : ModelStep)
    (occurredAt : Timestamp) : Option SessionEvent :=
  appendedEvent? state occurredAt
    (.modelStreamed (nextModelEvent turnId step
      (.completed .cancelled (cancelledResponseRef step.request.requestId))))
    [.ofText step.stepId, .str "runtime-cancelled"]

/-! ## Sizes -/

/-- The bytes of a `failed` event of a step in canonical JSON: the names and the
punctuation, then the parts that vary. -/
def failedEventBytes (step : ModelStep) (errorCode : NormalizedErrorCode) (message : String)
    (retryable : Bool) : Nat :=
  139 + step.request.providerId.val.length + step.request.requestId.val.length +
    (Nat.repr step.modelEvents.length).length + errorCode.text.length +
    byteLength (quoted message) + (if retryable then 4 else 5)

theorem length_repr_le {n : Nat} (h : n < maxModelEventsPerStep) : (Nat.repr n).length ≤ 4 := by
  apply Nat.repr_length n 4 (by omega)
  rw [maxModelEventsPerStep] at h
  omega

theorem byteLength_repr (n : Nat) : byteLength (Nat.repr n).toList = (Nat.repr n).length := by
  rw [byteLength_of_ascii, String.length_toList]
  intro c hc
  rw [Nat.toList_repr] at hc
  have hdigit := Nat.isDigit_of_mem_toDigits (by omega) (by omega) hc
  have hbounds := isLowerAlnum_bounds (c := c) (by simp [isLowerAlnum, hdigit])
  omega

theorem byteLength_failed (turnId : Identifier) (step : ModelStep)
    (errorCode : NormalizedErrorCode) (message : Refined (lengthWithin 1 4096)) (retryable : Bool) :
    byteLength (canonicalJson
      (nextModelEvent turnId step (.failed errorCode message retryable)).event.toJson) =
        failedEventBytes step errorCode message.val retryable := by
  have hcode : byteLength (quoted errorCode.text) = errorCode.text.length + 2 := by
    cases errorCode <;> decide
  have hretryable : byteLength (canonicalJson (.bool retryable)) = if retryable then 4 else 5 := by
    cases retryable <;> decide
  have hnames : ["schema_version", "provider_id", "request_id", "event_type", "sequence", "payload",
      "error_code", "message", "retryable", "failed"].map (fun name => byteLength (quoted name)) =
        [16, 13, 12, 12, 10, 9, 12, 9, 11, 8] := by decide +kernel
  simp only [List.map_cons, List.map_nil, List.cons.injEq, and_true] at hnames
  have hversion : byteLength (canonicalJson (.ofNat 1)) = 1 := by decide
  have hsequence : byteLength (canonicalJson (.ofNat step.modelEvents.length)) =
      (Nat.repr step.modelEvents.length).length := byteLength_repr _
  have hstr : ∀ s, canonicalJson (.str s) = quoted s := fun _ => rfl
  have hpayload : byteLength (canonicalJson
      (ModelStreamPayload.failed errorCode message retryable).toJson) =
        41 + errorCode.text.length + byteLength (quoted message.val) +
          (if retryable then 4 else 5) := by
    rw [ModelStreamPayload.toJson, byteLength_canonicalJson_obj (List.cons_ne_nil _ _)]
    simp only [List.map_cons, List.map_nil, List.sum_cons, List.sum_nil, memberSize, Json.ofText,
      hstr, hcode, hretryable, hnames]
    omega
  rw [ModelStreamEvent.toJson, byteLength_canonicalJson_obj (List.cons_ne_nil _ _)]
  simp only [List.map_cons, List.map_nil, List.sum_cons, List.sum_nil, memberSize, nextModelEvent,
    Json.ofText, hstr, hversion, hsequence, hpayload, hnames, byteLength_quoted_identifier,
    ModelStreamPayload.eventType, failedEventBytes]
  omega

/-- A failure with a short message is smaller than the reserve. -/
theorem failedEventBytes_lt {step : ModelStep} (hevents : step.modelEvents.length < maxModelEventsPerStep)
    {message : String} (hmessage : message.length ≤ 1280) (errorCode : NormalizedErrorCode)
    (retryable : Bool) :
    failedEventBytes step errorCode message retryable < modelTerminalReserveBytes := by
  have hcode : errorCode.text.length ≤ 22 := by cases errorCode <;> decide
  have hprovider := step.request.providerId.length_le
  have hrequest := step.request.requestId.length_le
  have hsequence := length_repr_le hevents
  have hquoted := byteLength_quoted_le message
  have hretryable : (if retryable then 4 else 5) ≤ 5 := by cases retryable <;> decide
  rw [failedEventBytes, modelTerminalReserveBytes]
  omega

theorem byteLength_cancelled_lt (turnId : Identifier) {step : ModelStep}
    (hevents : step.modelEvents.length < maxModelEventsPerStep) :
    byteLength (canonicalJson (nextModelEvent turnId step (.completed .cancelled
      (cancelledResponseRef step.request.requestId))).event.toJson) < modelTerminalReserveBytes := by
  have hprovider := step.request.providerId.length_le
  have hrequest := step.request.requestId.length_le
  have hsequence := length_repr_le hevents
  have hsequence' : byteLength (canonicalJson (.ofNat step.modelEvents.length)) =
      (Nat.repr step.modelEvents.length).length := byteLength_repr _
  have hreference := length_cancelledResponseRef step.request.requestId
  have hquoted := byteLength_quoted_le (cancelledResponseRef step.request.requestId).val
  have hnames : ["schema_version", "provider_id", "request_id", "event_type", "sequence", "payload",
      "finish_reason", "provider_response_ref", "completed", "cancelled"].map
        (fun name => byteLength (quoted name)) = [16, 13, 12, 12, 10, 9, 15, 23, 11, 11] := by
    decide +kernel
  simp only [List.map_cons, List.map_nil, List.cons.injEq, and_true] at hnames
  have hversion : byteLength (canonicalJson (.ofNat 1)) = 1 := by decide
  have hstr : ∀ s, canonicalJson (.str s) = quoted s := fun _ => rfl
  rw [ModelStreamEvent.toJson, byteLength_canonicalJson_obj (List.cons_ne_nil _ _)]
  simp only [List.map_cons, List.map_nil, List.sum_cons, List.sum_nil, memberSize, nextModelEvent,
    Json.ofText, hstr, hversion, hsequence', hnames, byteLength_quoted_identifier,
    ModelStreamPayload.eventType, ModelStreamPayload.toJson, FinishReason.text,
    byteLength_canonicalJson_obj (List.cons_ne_nil _ _)]
  rw [modelTerminalReserveBytes]
  omega

/-- Whatever is smaller than the reserve fits. -/
theorem ModelStep.HasReserve.fits {step : ModelStep} (h : step.HasReserve) {event : ModelStreamEvent}
    (hsize : byteLength (canonicalJson event.toJson) < modelTerminalReserveBytes) :
    nextStreamBytes step event ≤ maxModelStreamBytesPerStep := by
  have hbytes := h.bytes
  have hcomma : (if step.modelEvents.isEmpty then 0 else 1) ≤ 1 := by split <;> omega
  rw [nextStreamBytes]
  omega

/-! ## Messages -/

theorem length_charUnits (c : Char) : 1 ≤ (charUnits c).length ∧ (charUnits c).length ≤ 2 := by
  unfold charUnits
  split <;> simp

theorem sliceStart_units_le (units : Nat) (text : List Char) :
    ((sliceStart units text).flatMap charUnits).length ≤ units := by
  induction text generalizing units with
  | nil => simp [sliceStart]
  | cons c rest ih =>
      rw [sliceStart]
      split
      next hfits =>
        have hrest := ih (units - (charUnits c).length)
        rw [List.flatMap_cons, List.length_append]
        omega
      next => simp

theorem length_sliceStart_le (units : Nat) (text : List Char) :
    (sliceStart units text).length ≤ text.length := by
  induction text generalizing units with
  | nil => simp [sliceStart]
  | cons c rest ih =>
      rw [sliceStart]
      split
      · have hrest := ih (units - (charUnits c).length)
        rw [List.length_cons, List.length_cons]
        omega
      · simp

theorem length_sliceMessage_le (text : String) : (sliceMessage text).length ≤ text.length := by
  have hlength := length_sliceStart_le 4096 text.toList
  rw [sliceMessage, chars_eq_toList, String.length_ofList, ← String.length_toList]
  exact hlength

/-- The schema refuses the slice of the empty message only. -/
theorem lengthWithin_sliceMessage_iff (text : String) :
    lengthWithin 1 4096 (sliceMessage text) = true ↔ text ≠ "" := by
  have hunits := sliceStart_units_le 4096 text.toList
  have hlength : jsLength (sliceMessage text) =
      ((sliceStart 4096 text.toList).flatMap charUnits).length := by
    rw [jsLength, utf16, sliceMessage, chars_ofList, chars_eq_toList]
  rw [lengthWithin, hlength]
  simp only [Bool.and_eq_true, decide_eq_true_eq]
  constructor
  · rintro ⟨hpos, -⟩ rfl
    simp [sliceStart] at hpos
  · intro hne
    refine ⟨?_, hunits⟩
    cases htext : text.toList with
    | nil => exact absurd (String.toList_eq_nil_iff.mp htext) hne
    | cons c rest =>
        have hc := length_charUnits c
        rw [sliceStart, if_pos (by omega), List.flatMap_cons, List.length_append]
        omega

/-! ## Acceptance -/

/-- Replay accepts the stream with the event that was built, if one was. -/
def AcceptsNext (realm : Realm) (events : List SessionEvent) (event? : Option SessionEvent) : Prop :=
  ∃ event, event? = some event ∧ ∃ next, Accepted realm (events ++ [event]) next

/-- An error with which a step can be closed: if its code and its message are
reported, the message is not empty and its event fits in the stream of the step. -/
def ClosesWith (state : SessionState) (step : ModelStep) (error : ErrorValue) : Prop :=
  state.currentSequence < maxSafeInteger ∧
    ∀ errorCode text, error.candidate.allowed? = some errorCode → error.message = .text text →
      text ≠ "" ∧
      step.modelStreamBytes + (if step.modelEvents.isEmpty then 0 else 1) +
        failedEventBytes step errorCode (sliceMessage text) error.retryable ≤
          maxModelStreamBytesPerStep

section

variable {realm : Realm} {events : List SessionEvent} {state : SessionState} {turnId : Identifier}
  {turn : Turn} {step : ModelStep}

theorem Turn.StreamsOrdered.find?_eq_some (h : turn.StreamsOrdered) (hstep : step ∈ turn.modelSteps) :
    turn.modelSteps.find? (·.stepId = step.stepId) = some step := by
  cases hfind : turn.modelSteps.find? (·.stepId = step.stepId) with
  | none =>
      have hnone := List.find?_eq_none.mp hfind step hstep
      simp at hnone
  | some found =>
      have hid : found.stepId = step.stepId := by simpa using List.find?_some hfind
      rw [List.inj_on_of_nodup_map h.stepIds (List.mem_of_find?_eq_some hfind) hstep hid]

/-- A model event that ends an open step is accepted when there is a sequence number
left for it and its bytes fit. -/
theorem acceptsNext_modelEvent_iff (h : Accepted realm events state)
    (hturn : state.turns.get? turnId = some turn) (hstep : step ∈ turn.modelSteps)
    (hopen : hasTerminal step.modelEvents = false) (payload : ModelStreamPayload)
    (hvalid : payload.valid = true) (hterminal : (nextModelEvent turnId step payload).event.isTerminal = true)
    (occurredAt : Timestamp) (identityParts : List Json) :
    AcceptsNext realm events
        (appendedEvent? state occurredAt (.modelStreamed (nextModelEvent turnId step payload))
          identityParts) ↔
      state.currentSequence < maxSafeInteger ∧
        nextStreamBytes step (nextModelEvent turnId step payload).event ≤
          maxModelStreamBytesPerStep := by
  have hreserved := stepsReserved_of_accepted h
  have hevents := ((hreserved.turns _ _ hturn).reserved step hstep hopen).events
  have hne : state.turns ≠ ∅ := by
    intro hnone
    rw [hnone] at hturn
    simp at hturn
  obtain ⟨sessionId, hsession⟩ := Option.isSome_iff_exists.mp (hreserved.started hne).2
  have hfind := ((underway_of_accepted h).turns _ _ hturn).find?_eq_some hstep
  have hschema : (intWithin 1 maxSafeInteger (state.currentSequence + 1) &&
      (SessionPayload.modelStreamed (nextModelEvent turnId step payload)).valid sessionId) = true ↔
        state.currentSequence < maxSafeInteger := by
    have hsafe : step.modelEvents.length ≤ maxSafeInteger := by
      rw [maxModelEventsPerStep] at hevents
      rw [maxSafeInteger]
      omega
    simp only [SessionPayload.valid, nextModelEvent, ModelStreamEvent.valid, hvalid, intWithin,
      hsafe, Nat.zero_le, decide_true, Bool.and_self, Bool.and_true, Bool.and_eq_true,
      decide_eq_true_eq]
    omega
  unfold AcceptsNext appendedEvent?
  simp only [hsession, Option.bind_eq_bind, Option.bind_some]
  split
  next hvalid' =>
    simp only [Option.some.injEq, exists_eq_left', hschema.mp hvalid', true_and]
    exact accepted_ends_iff h rfl hturn hfind hopen ⟨rfl, rfl, rfl, rfl, hterminal⟩ hsession rfl
  next hinvalid =>
    rw [hschema] at hinvalid
    simp [hinvalid]

/-- The bytes of the stream of a step with a `failed` event. -/
def failedStreamBytes (step : ModelStep) (failure : NormalizedFailure) : Nat :=
  step.modelStreamBytes + (if step.modelEvents.isEmpty then 0 else 1) +
    failedEventBytes step failure.errorCode failure.message failure.retryable

theorem acceptsNext_failure_iff (h : Accepted realm events state)
    (hturn : state.turns.get? turnId = some turn) (hstep : step ∈ turn.modelSteps)
    (hopen : hasTerminal step.modelEvents = false) (error : ErrorValue) (occurredAt : Timestamp) :
    AcceptsNext realm events (modelFailureEvent? state turnId step error occurredAt) ↔
      lengthWithin 1 4096 (normalizedFailure error).message = true ∧
        state.currentSequence < maxSafeInteger ∧
        failedStreamBytes step (normalizedFailure error) ≤ maxModelStreamBytesPerStep := by
  rw [modelFailureEvent?, NormalizedFailure.payload?]
  split
  next hlength =>
    have haccepts := acceptsNext_modelEvent_iff h hturn hstep hopen
      (.failed (normalizedFailure error).errorCode
        ⟨(normalizedFailure error).message, hlength⟩ (normalizedFailure error).retryable)
      rfl rfl occurredAt [.ofText step.stepId, .str "runtime-failed"]
    rw [nextStreamBytes, byteLength_failed] at haccepts
    simp only [Option.bind_eq_bind, Option.bind_some, haccepts, hlength, true_and,
      failedStreamBytes]
  next hlength => simp [AcceptsNext, hlength]

/-- An error whose code or message is not reported is recorded with a short fixed text. -/
theorem failedStreamBytes_of_unreported (hreserve : step.HasReserve) {error : ErrorValue}
    (h : (normalizedFailure error).message = "agent runtime failed") :
    failedStreamBytes step (normalizedFailure error) ≤ maxModelStreamBytesPerStep := by
  have hbytes := hreserve.bytes
  have hsize := failedEventBytes_lt hreserve.events (by decide : "agent runtime failed".length ≤ 1280)
    (normalizedFailure error).errorCode (normalizedFailure error).retryable
  have hcomma : (if step.modelEvents.isEmpty then 0 else 1) ≤ 1 := by split <;> omega
  rw [failedStreamBytes, h]
  omega

/-- Short messages close every open step of a stream with a sequence number left. -/
theorem closesWith_of_short (hreserve : step.HasReserve)
    (hsequence : state.currentSequence < maxSafeInteger) {error : ErrorValue}
    (hshort : ∀ text, error.message = .text text → text ≠ "" ∧ text.length ≤ 1280) :
    ClosesWith state step error := by
  refine ⟨hsequence, ?_⟩
  intro errorCode text _ hmessage
  obtain ⟨hne, hlength⟩ := hshort text hmessage
  have hbytes := hreserve.bytes
  have hsize := failedEventBytes_lt hreserve.events
    ((length_sliceMessage_le text).trans hlength) errorCode error.retryable
  have hcomma : (if step.modelEvents.isEmpty then 0 else 1) ≤ 1 := by split <;> omega
  exact ⟨hne, by omega⟩

/-- An open model step can be closed, as failed with the error and as cancelled,
exactly when the error closes it. -/
theorem model_step_closable_iff (h : Accepted realm events state)
    (hturn : state.turns.get? turnId = some turn) (hstep : step ∈ turn.modelSteps)
    (hopen : hasTerminal step.modelEvents = false) (error : ErrorValue) (occurredAt : Timestamp) :
    (AcceptsNext realm events (modelFailureEvent? state turnId step error occurredAt) ∧
      AcceptsNext realm events (modelCancellationEvent? state turnId step occurredAt)) ↔
      ClosesWith state step error := by
  have hreserve := ((stepsReserved_of_accepted h).turns _ _ hturn).reserved step hstep hopen
  have hcancelled := acceptsNext_modelEvent_iff h hturn hstep hopen
    (.completed .cancelled (cancelledResponseRef step.request.requestId)) rfl rfl occurredAt
    [.ofText step.stepId, .str "runtime-cancelled"]
  have hfits := hreserve.fits (byteLength_cancelled_lt turnId hreserve.events)
  have hunreported : lengthWithin 1 4096 "agent runtime failed" = true := by decide
  rw [modelCancellationEvent?, hcancelled, acceptsNext_failure_iff h hturn hstep hopen, ClosesWith]
  cases hcode : error.candidate.allowed? with
  | none =>
      have hmessage : (normalizedFailure error).message = "agent runtime failed" := by
        simp [normalizedFailure, hcode]
      have hfailed := failedStreamBytes_of_unreported hreserve hmessage
      simp [hmessage, hunreported, hfits, hfailed]
  | some errorCode =>
      cases htext : error.message with
      | other truthy shown =>
          have hmessage : (normalizedFailure error).message = "agent runtime failed" := by
            simp [normalizedFailure, htext]
          have hfailed := failedStreamBytes_of_unreported hreserve hmessage
          simp [hmessage, hunreported, hfits, hfailed]
      | text text =>
          have hfailure : normalizedFailure error =
              ⟨errorCode, sliceMessage text, error.retryable⟩ := by
            simp [normalizedFailure, hcode, htext]
          rw [hfailure, lengthWithin_sliceMessage_iff, failedStreamBytes]
          constructor
          · rintro ⟨⟨hne, hsequence, hbytes⟩, -⟩
            refine ⟨hsequence, ?_⟩
            rintro _ _ ⟨⟩ ⟨⟩
            exact ⟨hne, hbytes⟩
          · rintro ⟨hsequence, herror⟩
            obtain ⟨hne, hbytes⟩ := herror errorCode text rfl rfl
            exact ⟨⟨hne, hsequence, hbytes⟩, hsequence, hfits⟩

end

/-! ## An empty message

A provider that reports a code without a message leaves the step open.
-/

namespace Sample

def timeoutError : ErrorValue where
  code := .text "timeout"
  errorCode := .undefined
  message := .text "no answer"
  retryable := true
  whole := by
    rintro _ ⟨⟩
    decide

/-- A rate limit without a message. -/
def silentError : ErrorValue where
  code := .text "rate_limited"
  errorCode := .undefined
  message := .text ""
  retryable := true
  whole := by
    rintro _ ⟨⟩
    decide

def now : Timestamp := ⟨"2026-01-01T00:00:01Z", Eq.refl true⟩

end Sample

theorem requested_step_open : ∃ state turn step, Accepted ⟨false⟩ Sample.requested state ∧
    state.turns.get? (Sample.ident "t1") = some turn ∧ step ∈ turn.modelSteps ∧
    hasTerminal step.modelEvents = false ∧ state.currentSequence = 4 := by
  obtain ⟨state, haccepted, hstate⟩ := acceptsWith_iff.mp
    (show acceptsWith ⟨false⟩ Sample.requested (fun state => state.currentSequence = 4 &&
      ((state.turns.get? (Sample.ident "t1")).bind (·.modelSteps.head?)).any
        fun step => !hasTerminal step.modelEvents) = true by decide +kernel)
  simp only [Bool.and_eq_true, decide_eq_true_eq, Option.any_eq_true, Bool.not_eq_true',
    Option.bind_eq_some_iff] at hstate
  obtain ⟨hsequence, step, ⟨turn, hturn, hhead⟩, hopen⟩ := hstate
  exact ⟨state, turn, step, haccepted, hturn, List.mem_of_mem_head? hhead, hopen, hsequence⟩

theorem requested_step_closed : ∃ state turn step, Accepted ⟨false⟩ Sample.requested state ∧
    state.turns.get? (Sample.ident "t1") = some turn ∧ step ∈ turn.modelSteps ∧
    AcceptsNext ⟨false⟩ Sample.requested
      (modelFailureEvent? state (Sample.ident "t1") step Sample.timeoutError Sample.now) ∧
    AcceptsNext ⟨false⟩ Sample.requested
      (modelCancellationEvent? state (Sample.ident "t1") step Sample.now) := by
  obtain ⟨state, turn, step, haccepted, hturn, hstep, hopen, hsequence⟩ := requested_step_open
  have hreserve := ((stepsReserved_of_accepted haccepted).turns _ _ hturn).reserved step hstep hopen
  have hcloses : ClosesWith state step Sample.timeoutError := by
    refine closesWith_of_short hreserve (by rw [hsequence]; decide) ?_
    rintro _ ⟨⟩
    decide
  exact ⟨state, turn, step, haccepted, hturn, hstep,
    (model_step_closable_iff haccepted hturn hstep hopen Sample.timeoutError Sample.now).mpr hcloses⟩

theorem silentError_not_recorded : ¬ ∀ (realm : Realm) (events : List SessionEvent)
    (state : SessionState) (turnId : Identifier) (turn : Turn) (step : ModelStep) (error : ErrorValue)
    (occurredAt : Timestamp), Accepted realm events state → state.turns.get? turnId = some turn →
    step ∈ turn.modelSteps → hasTerminal step.modelEvents = false →
      AcceptsNext realm events (modelFailureEvent? state turnId step error occurredAt) ∧
        AcceptsNext realm events (modelCancellationEvent? state turnId step occurredAt) := by
  intro hclaim
  obtain ⟨state, turn, step, haccepted, hturn, hstep, hopen, -⟩ := requested_step_open
  obtain ⟨⟨event, hevent, -⟩, -⟩ := hclaim _ _ _ _ _ _ Sample.silentError Sample.now haccepted hturn
    hstep hopen
  have hpayload : (normalizedFailure Sample.silentError).payload? = none := by decide
  simp [modelFailureEvent?, hpayload] at hevent

end Hseos
