import Hseos.Governed.Durable

/-! # Replays of an execution

An execution that recorded its end is answered, when its request comes again,
from the recorded facts. What they say is what the first call returned, unless it
ended before the dispatch, or the output did not match its schema.
-/

namespace Hseos

/-! ## What the registry accepts -/

theorem requireStringFields_eq_ok {fields : List String} {payload : Json} {u : Unit}
    (h : requireStringFields fields payload = .ok u) :
    ∀ field ∈ fields, isNonEmptyString (payload.field? field) = true := by
  intro field hfield
  have haccepted := reject_eq_ok_iff.mp (forM_eq_ok h field hfield)
  rwa [Bool.not_eq_false'] at haccepted

/-- The payload of an accepted event passed the validator of its type. -/
theorem validate_of_validateForAppend {registry : EventRegistry} {event payload : Json}
    {definition : EventDefinition} {u : Unit}
    (hdefinition : registry.definition (event.field? "event_type") = .ok definition)
    (hpayload : event.field? "payload" = some payload)
    (h : registry.validateForAppend event = .ok u) :
    definition.validate payload.stableValue = .ok () := by
  obtain ⟨-, -, h⟩ := bind_eq_ok_iff.mp h
  rw [hdefinition] at h
  obtain ⟨-, h⟩ := reject_bind_eq_ok_iff.mp h
  rw [hpayload] at h
  obtain ⟨-, -, h⟩ := bind_eq_ok_iff.mp h
  obtain ⟨-, h⟩ := reject_bind_eq_ok_iff.mp h
  obtain ⟨-, -, h⟩ := bind_eq_ok_iff.mp h
  exact h

/-- The texts of a payload that says why an execution did not succeed. -/
def FactPayload.texts : FactPayload → List String
  | .failed error _ _ => [error.code, error.message]
  | .cancelled reason phase _ _ => [reason, phase]
  | .uncertain reason _ _ => [reason]
  | _ => []

theorem nodup_memberNames (payload : FactPayload) : (memberNames payload.toJson).Nodup := by
  cases payload with
  | authorized fact =>
      cases happroval : fact.approvalId <;>
        simp [FactPayload.toJson, memberNames, Json.member?, happroval]
  | started fact => simp [FactPayload.toJson, memberNames]
  | succeeded result version receiptRef warnings =>
      cases receiptRef <;> simp [FactPayload.toJson, FactPayload.receipt, memberNames, Json.member?]
  | failed error receiptRef warnings =>
      cases receiptRef <;> simp [FactPayload.toJson, FactPayload.receipt, memberNames, Json.member?]
  | cancelled reason phase receiptRef warnings =>
      cases receiptRef <;> simp [FactPayload.toJson, FactPayload.receipt, memberNames, Json.member?]
  | uncertain reason receiptRef warnings =>
      cases receiptRef <;> simp [FactPayload.toJson, FactPayload.receipt, memberNames, Json.member?]

theorem nonEmpty_of_stableValue {value : Json} {name text : String}
    (hnames : (memberNames value).Nodup) (hfield : value.field? name = some (.str text))
    (h : isNonEmptyString (value.stableValue.field? name) = true) : text ≠ "" := by
  cases value with
  | obj members =>
      rw [Json.field?_stableValue hnames, hfield] at h
      simpa [isNonEmptyString, Json.stableValue, Json.string?] using h
  | _ => cases hfield

/-- The registry accepts no end of an execution without its texts. -/
theorem texts_of_validateForAppend {fact : Fact}
    (h : createExecutionEventRegistry.validateForAppend fact.toJson = .ok ()) :
    ∀ text ∈ fact.payload.texts, text ≠ "" := by
  obtain ⟨eventId, occurredAt, correlationId, causationId, actor, operationId, payload, refs⟩ := fact
  have hnames := nodup_memberNames payload
  cases payload with
  | failed error receiptRef warnings =>
      have hvalid := forM_eq_ok (validate_of_validateForAppend rfl rfl h)
      have herror := hvalid validateError (by simp)
      obtain ⟨⟨⟩, -, herror⟩ := bind_eq_ok_iff.mp herror
      obtain ⟨-, herror⟩ := reject_bind_eq_ok_iff.mp herror
      obtain ⟨⟨⟩, hstrings, -⟩ := bind_eq_ok_iff.mp herror
      have hmember : ((FactPayload.failed error receiptRef warnings).toJson.stableValue.field?
          "error").getD .null = (Json.obj [("code", .str error.code),
            ("message", .str error.message), ("retryable", .bool error.retryable)]).stableValue := by
        rw [FactPayload.toJson, Json.field?_stableValue hnames]
        rfl
      have htexts := requireStringFields_eq_ok hstrings
      simp only [hmember] at htexts
      have herrorNames : (memberNames (Json.obj [("code", .str error.code),
          ("message", .str error.message), ("retryable", .bool error.retryable)])).Nodup := by
        simp [memberNames]
      simp only [FactPayload.texts, List.forall_mem_cons, List.not_mem_nil, false_imp_iff,
        implies_true, and_true]
      exact ⟨nonEmpty_of_stableValue herrorNames rfl (htexts "code" (by simp)),
        nonEmpty_of_stableValue herrorNames rfl (htexts "message" (by simp))⟩
  | cancelled reason phase receiptRef warnings =>
      have hvalid := forM_eq_ok (validate_of_validateForAppend rfl rfl h)
      have htexts := requireStringFields_eq_ok
        (hvalid (requireStringFields ["reason", "phase"]) (by simp))
      simp only [FactPayload.texts, List.forall_mem_cons, List.not_mem_nil, false_imp_iff,
        implies_true, and_true]
      exact ⟨nonEmpty_of_stableValue hnames rfl (htexts "reason" (by simp)),
        nonEmpty_of_stableValue hnames rfl (htexts "phase" (by simp))⟩
  | uncertain reason receiptRef warnings =>
      have hvalid := forM_eq_ok (validate_of_validateForAppend rfl rfl h)
      have htexts := requireStringFields_eq_ok
        (hvalid (requireStringFields ["reason"]) (by simp))
      simp only [FactPayload.texts, List.forall_mem_cons, List.not_mem_nil, false_imp_iff,
        implies_true, and_true]
      exact nonEmpty_of_stableValue hnames rfl (htexts "reason" (by simp))
  | _ => simp [FactPayload.texts]

/-! ## Errors of envelopes -/

/-- The error that an envelope reports for a payload that is no success. -/
def FactPayload.error? (operationId : String) : FactPayload → Option EnvelopeError
  | .failed error _ _ => some ⟨error.code, error.message, some operationId, error.retryable⟩
  | .cancelled reason _ _ _ => some ⟨"EXECUTION_CANCELLED", reason, some operationId, false⟩
  | .uncertain reason _ _ => some ⟨"EXECUTION_OUTCOME_IN_DOUBT", reason, some operationId, false⟩
  | _ => none

def FactPayload.warnings : FactPayload → List String
  | .authorized fact => fact.warnings
  | .started _ => []
  | .succeeded _ _ _ warnings | .failed _ _ warnings | .cancelled _ _ _ warnings
  | .uncertain _ _ warnings => warnings

theorem envelopeError_governedError {message code : String} {retryable : Bool}
    {operationId : Option String} (hmessage : message ≠ "") (hcode : code ≠ "") :
    envelopeError { governedError message code with retryable := retryable } operationId =
      ⟨code, message, operationId, retryable⟩ := by
  simp [envelopeError, governedError, Thrown.ofError, ErrorField.nonEmpty?, hmessage, hcode]

/-- The runtime's own errors cannot be retried. -/
theorem envelopeError_of_governedError {message code : String} {operationId : Option String}
    (hmessage : message ≠ "") (hcode : code ≠ "") :
    envelopeError (governedError message code) operationId = ⟨code, message, operationId, false⟩ :=
  envelopeError_governedError hmessage hcode

/-- The replay of a durable end that was no success reports the error of its payload. -/
theorem replayEnvelope_of_error? {operationId : String} {payload : FactPayload}
    {error : EnvelopeError} (evidence : List String) (htexts : ∀ text ∈ payload.texts, text ≠ "")
    (h : payload.error? operationId = some error) :
    replayEnvelope operationId payload evidence =
      some (executionEnvelope false none (some error) evidence payload.warnings) := by
  cases payload with
  | failed failure receiptRef warnings =>
      obtain rfl := Option.some.inj h
      have hcode := htexts failure.code (by simp [FactPayload.texts])
      have hmessage := htexts failure.message (by simp [FactPayload.texts])
      simp only [replayEnvelope, if_neg hcode, if_neg hmessage, failureEnvelope]
      rw [envelopeError_governedError hmessage hcode]
      rfl
  | cancelled reason phase receiptRef warnings =>
      obtain rfl := Option.some.inj h
      have hreason := htexts reason (by simp [FactPayload.texts])
      simp only [replayEnvelope, if_neg hreason, failureEnvelope]
      rw [envelopeError_governedError hreason (by decide)]
      rfl
  | uncertain reason receiptRef warnings =>
      obtain rfl := Option.some.inj h
      have hreason := htexts reason (by simp [FactPayload.texts])
      simp only [replayEnvelope, if_neg hreason, failureEnvelope]
      rw [envelopeError_governedError hreason (by decide)]
      rfl
  | _ => cases h

/-! ## Reading an ended stream -/

/-- What a later execution of the same request shares with the one that ended. -/
structure SameRequest (prepared later : Prepared) : Prop where
  contract : later.contract = prepared.contract
  inputDigest : later.inputDigest = prepared.inputDigest
  operation : later.operation = { prepared.operation with deadline := later.operation.deadline }

theorem strictlyDiffer_self {value : Json} (h : isNonEmptyString (some value) = true) :
    strictlyDiffer value value = false := by
  cases value with
  | str text => simp [strictlyDiffer]
  | _ => cases h

theorem SameRequest.operationId {prepared later : Prepared} (h : SameRequest prepared later) :
    later.operationId = prepared.operationId := by
  rw [Prepared.operationId, h.operation]
  rfl

/-- A fact of the execution that ended is a fact of the operation that comes later. -/
theorem Fact.Made.sameOperation {fact : Fact} {prepared later : Prepared} {payload : FactPayload}
    {refs : List String} (h : fact.Made prepared.operation payload refs)
    (hsame : SameRequest prepared later)
    (hcorrelation : isNonEmptyString (some prepared.operation.correlationId) = true)
    (hcausation : isNonEmptyString (some prepared.operation.causationId) = true) :
    fact.sameOperation later.operation = true := by
  rw [Fact.sameOperation, h.operationId, h.correlationId, h.causationId, hsame.operation]
  simp [strictlyDiffer_self hcorrelation, strictlyDiffer_self hcausation]

theorem StartFacts.authorizes {prepared later : Prepared} {approvalId : Option String}
    {evidence : List String} {authorized started : Fact}
    (h : StartFacts prepared approvalId evidence authorized started)
    (hfor : prepared.operation.tool = prepared.contract.name)
    (hsame : SameRequest prepared later)
    (hcorrelation : isNonEmptyString (some prepared.operation.correlationId) = true)
    (hcausation : isNonEmptyString (some prepared.operation.causationId) = true) :
    authorized.authorizes later = true := by
  have hoperation := hsame.operation
  generalize later.operation.deadline = deadline at hoperation
  simp [Fact.authorizes, h.authorized.payload, h.authorized.actor, h.authorized.correlationId,
    h.authorized.causationId, hoperation, hsame.contract, hsame.inputDigest,
    Prepared.authorizedFact, hfor, strictlyDiffer_self hcorrelation, strictlyDiffer_self hcausation]

/-- A later execution of the same request reads what the stream says of its end. -/
theorem readExisting_of_endedBy {recorded : Recorded} {envelope : Envelope} {stream : List Fact}
    {later : Prepared} (h : EndedBy recorded envelope stream)
    (hfor : recorded.prepared.operation.tool = recorded.prepared.contract.name)
    (hsame : SameRequest recorded.prepared later) {payload : FactPayload} {replay : Envelope}
    (hpayload : (outcomeOf recorded.prepared recorded.approvalEvidence recorded.ending).payload =
      some payload)
    (hreplay : replayEnvelope recorded.prepared.operationId payload.stored
      (recorded.approvalEvidence ++
        (outcomeOf recorded.prepared recorded.approvalEvidence recorded.ending).evidenceRefs) =
      some replay) :
    readExisting later stream = .ok (some replay) := by
  cases h with
  | @intro start payload terminal hstarted hrecorded hmade =>
    obtain rfl := Option.some.inj (hrecorded.symm.trans hpayload)
    cases hstarted with
    | @intro approvalId authorized started hfacts happroval hstorable =>
      simp only [Fact.storable, hfacts.authorized.correlationId, hfacts.authorized.causationId,
        Bool.and_eq_true] at hstorable
      obtain ⟨hcorrelation, hcausation⟩ := hstorable
      have hterminal : terminal.stored.payload.isTerminal = true := by
        rw [Fact.stored, FactPayload.isTerminal_stored, hmade.payload]
        exact outcomeOf_isTerminal hpayload
      have hfound : [authorized, started, terminal.stored].find? (·.payload.isAuthorized) =
          some authorized := by
        rw [List.find?_cons_of_pos]
        rw [hfacts.authorized.payload]
        rfl
      have hlast : [authorized, started, terminal.stored].reverse.find? (·.payload.isTerminal) =
          some terminal.stored := List.find?_cons_of_pos hterminal
      have hconflict : scopeConflict later [authorized, started, terminal.stored]
          (some authorized) = false := by
        have hstored : terminal.stored.sameOperation later.operation = true :=
          hmade.sameOperation hsame hcorrelation hcausation
        simp [scopeConflict, hfacts.authorizes hfor hsame hcorrelation hcausation, hstored,
          hfacts.authorized.sameOperation hsame hcorrelation hcausation,
          hfacts.started.sameOperation hsame hcorrelation hcausation]
      have hevidence : [authorized, started, terminal.stored].flatMap (·.evidenceRefs) =
          recorded.approvalEvidence ++ (outcomeOf recorded.prepared recorded.approvalEvidence
            recorded.ending).evidenceRefs := by
        simp [Fact.stored, hfacts.authorized.evidenceRefs, hfacts.started.evidenceRefs,
          hmade.evidenceRefs]
      have hpayload' : terminal.stored.payload = payload.stored := by
        rw [Fact.stored, hmade.payload]
      rw [List.cons_append, List.cons_append, List.nil_append, readExisting,
        if_neg (List.cons_ne_nil _ _), hfound]
      dsimp only
      rw [hconflict, if_neg Bool.false_ne_true, hlast, hevidence, Option.bind_some,
        hpayload', hsame.operationId, hreplay, Option.getD_some]

/-! ## Faithful replays -/

/-- The later envelope says what the first did: the same result, read back from its
stable text, or the same error, and the same evidence. -/
structure Envelope.Replays (first later : Envelope) : Prop where
  ok : later.ok = first.ok
  result : later.data.map (·.result) = first.data.map (·.result.stableValue)
  error : later.error = first.error
  evidence : later.evidence = first.evidence

/-- The envelope of a replay that differs from the first one in nothing else. -/
def Envelope.asReplayed (first : Envelope) : Envelope :=
  { first with data := first.data.map fun data =>
      { data with result := data.result.stableValue, replayed := true } }

/-- The execution was dispatched, and if the provider's output does not match its
schema, then it read only and named no evidence but its receipt. -/
def Recorded.Replayable (recorded : Recorded) : Prop :=
  match recorded.ending with
  | .aborted | .expired => False
  | .threw .. => True
  | .returned result =>
      ∀ data metadata error, result.field? "data" = some data →
        providerMetadata result = .ok metadata →
        recorded.prepared.contract.validateOutput (some data) = .error error →
        recorded.prepared.contract.reversibility = .readOnly ∧
          ∀ ref ∈ metadata.evidence, ref ∈ recorded.approvalEvidence ∨ metadata.receiptRef = some ref

/-- The warnings of the first envelope are durable. -/
def Recorded.WarningsKept (recorded : Recorded) : Prop :=
  ∀ warning ∈ recorded.reconcile, warning ∈
    (outcomeOf recorded.prepared recorded.approvalEvidence recorded.ending).warnings

section

variable {operationId : String} {first later : Envelope} {error error' : EnvelopeError}
  {evidence evidence' warnings warnings' : List String}

theorem replays_of_errors :
    (executionEnvelope false none (some error) evidence warnings).Replays
      (executionEnvelope false none (some error') evidence' warnings') ↔
    error' = error ∧ unique evidence' = unique evidence := by
  constructor
  · intro h
    exact ⟨Option.some.inj h.error, h.evidence⟩
  · rintro ⟨rfl, hevidence⟩
    exact ⟨rfl, rfl, rfl, hevidence⟩

theorem asReplayed_of_errors :
    executionEnvelope false none (some error') evidence' warnings' =
      (executionEnvelope false none (some error) evidence warnings).asReplayed ↔
    (error' = error ∧ unique evidence' = unique evidence) ∧ unique warnings' = unique warnings := by
  simp [executionEnvelope, Envelope.asReplayed, and_assoc]

/-- The warnings that were recorded are those of the envelope if and only if the
warning about the projection is one of them. -/
theorem unique_reconcile_iff {warnings : List String} {reconcile : Option String} :
    unique warnings = unique (warnings ++ reconcile.toList) ↔ ∀ w ∈ reconcile, w ∈ warnings := by
  constructor
  · intro h w hw
    have hmem : w ∈ unique (warnings ++ reconcile.toList) := by
      rw [mem_unique, List.mem_append]
      exact .inr (Option.mem_toList.mpr hw)
    rw [← h, mem_unique] at hmem
    exact hmem
  · intro h
    rw [unique_append_of_subset]
    intro w hw
    exact h w (Option.mem_toList.mp hw)

/-- The evidence of a failed output check is that of its fact if and only if nothing
but the approval and the receipt were named. -/
theorem unique_evidence_iff {approval named : List String} {receiptRef : Option String}
    (hreceipt : ∀ ref ∈ receiptRef, ref ∈ named) :
    unique (approval ++ receiptRef.toList) = unique (approval ++ named) ↔
      ∀ ref ∈ named, ref ∈ approval ∨ receiptRef = some ref := by
  constructor
  · intro h ref href
    have hmem : ref ∈ unique (approval ++ named) := by
      rw [mem_unique, List.mem_append]
      exact .inr href
    rw [← h, mem_unique, List.mem_append] at hmem
    exact hmem.imp_right Option.mem_toList.mp
  · intro h
    -- Beyond the approval there is at most the receipt, and only once.
    have hmem : ∀ ref, ref ∈ (unique named).filter (· ∉ approval) ↔
        ref ∈ (unique receiptRef.toList).filter (· ∉ approval) := by
      intro ref
      simp only [List.mem_filter, mem_unique, decide_eq_true_eq, Option.mem_toList,
        and_congr_left_iff]
      intro hnew
      constructor
      · intro href
        exact (h ref href).resolve_left hnew
      · exact hreceipt ref
    rw [unique_append, unique_append]
    congr 1
    have hperm := (List.perm_ext_iff_of_nodup ((nodup_unique named).filter _)
      ((nodup_unique receiptRef.toList).filter _)).mpr hmem
    cases receiptRef with
    | none => exact (List.perm_nil.mp hperm).symm
    | some receipt =>
        by_cases hold : receipt ∈ approval
        · have hnil : (unique (some receipt).toList).filter (· ∉ approval) = [] := by
            simp [unique, hold]
          rw [hnil] at hperm ⊢
          exact (List.perm_nil.mp hperm).symm
        · have hone : (unique (some receipt).toList).filter (· ∉ approval) = [receipt] := by
            simp [unique, hold]
          rw [hone] at hperm ⊢
          exact (List.perm_singleton.mp hperm).symm

end

/-! ## Each way to end -/

section

variable {recorded : Recorded} {payload : FactPayload} {later : Envelope}

/-- The envelope of an end, with the warning of the projection. -/
def Recorded.envelope (recorded : Recorded) : Envelope :=
  let outcome := outcomeOf recorded.prepared recorded.approvalEvidence recorded.ending
  outcome.envelope (outcome.warnings ++ recorded.reconcile.toList)

/-- What a later execution returns for the recorded payload. -/
def Recorded.replayOf (recorded : Recorded) (payload : FactPayload) : Option Envelope :=
  replayEnvelope recorded.prepared.operationId payload.stored
    (recorded.approvalEvidence ++
      (outcomeOf recorded.prepared recorded.approvalEvidence recorded.ending).evidenceRefs)

/-- An end that is recorded as one failure and reported as another is replayed
faithfully if these are the same, with the same evidence, exactly when it is
replayable. -/
theorem replays_failureOutcome {refs evidence warnings : List String} {thrown : Thrown}
    {recordedError reported : EnvelopeError}
    (houtcome : outcomeOf recorded.prepared recorded.approvalEvidence recorded.ending =
      failureOutcome recorded.prepared (some payload) refs evidence warnings thrown)
    (htexts : ∀ text ∈ payload.texts, text ≠ "")
    (hrecorded : payload.error? recorded.prepared.operationId = some recordedError)
    (hreported : envelopeError thrown (some recorded.prepared.operationId) = reported)
    (hwarnings : payload.warnings = warnings)
    (hreplayable : recorded.Replayable ↔ recordedError = reported ∧
      unique (recorded.approvalEvidence ++ refs) = unique evidence)
    (hlater : recorded.replayOf payload = some later) :
    (recorded.envelope.Replays later ↔ recorded.Replayable) ∧
      (later = recorded.envelope.asReplayed ↔ recorded.Replayable ∧ recorded.WarningsKept) := by
  have hstored : payload.stored = payload := by
    cases payload with
    | succeeded => cases hrecorded
    | _ => rfl
  have hreplay := replayEnvelope_of_error? (recorded.approvalEvidence ++ refs) htexts hrecorded
  rw [Recorded.replayOf, hstored, houtcome] at hlater
  obtain rfl := Option.some.inj (hreplay.symm.trans hlater)
  have henvelope : recorded.envelope = executionEnvelope false none (some reported) evidence
      (warnings ++ recorded.reconcile.toList) := by
    simp only [Recorded.envelope, houtcome, failureOutcome, failureEnvelope, hreported]
  have hkept : recorded.WarningsKept ↔
      unique warnings = unique (warnings ++ recorded.reconcile.toList) := by
    rw [unique_reconcile_iff, Recorded.WarningsKept, houtcome]
    rfl
  rw [henvelope, hkept, hreplayable, hwarnings]
  exact ⟨replays_of_errors, asReplayed_of_errors⟩

/-- What a dispatch that threw records is what it reports. -/
theorem threwOutcome_eq {prepared : Prepared} {evidence : List String} {error : Thrown}
    {deadlineExceeded : Bool}
    (hpayload : (threwOutcome prepared evidence error deadlineExceeded).payload = some payload)
    (htexts : ∀ text ∈ payload.texts, text ≠ "") :
    ∃ (refs warnings : List String) (thrown : Thrown),
      threwOutcome prepared evidence error deadlineExceeded =
        failureOutcome prepared (some payload) refs (evidence ++ refs) warnings thrown ∧
      payload.warnings = warnings ∧ payload.error? prepared.operationId =
        some (envelopeError thrown (some prepared.operationId)) := by
  unfold threwOutcome at hpayload ⊢
  dsimp only at hpayload ⊢
  by_cases hcancelled : outcomeKey prepared.contract error deadlineExceeded = "cancelled"
  · rw [if_pos hcancelled] at hpayload ⊢
    obtain rfl := Option.some.inj hpayload
    refine ⟨_, _, _, rfl, rfl, congrArg some ?_⟩
    exact (envelopeError_of_governedError (htexts _ (by simp [FactPayload.texts])) (by decide)).symm
  rw [if_neg hcancelled] at hpayload ⊢
  by_cases hfailed : outcomeKey prepared.contract error deadlineExceeded = "failed"
  · rw [if_pos hfailed] at hpayload ⊢
    obtain rfl := Option.some.inj hpayload
    refine ⟨_, _, _, rfl, rfl, congrArg some ?_⟩
    exact (envelopeError_governedError (htexts _ (by simp [FactPayload.texts]))
      (htexts _ (by simp [FactPayload.texts]))).symm
  rw [if_neg hfailed] at hpayload ⊢
  by_cases hinherited :
      outcomeKey prepared.contract error deadlineExceeded ∈ objectPrototypeKeys
  · rw [if_pos hinherited] at hpayload
    cases hpayload
  · rw [if_neg hinherited] at hpayload ⊢
    obtain rfl := Option.some.inj hpayload
    refine ⟨_, _, _, rfl, rfl, congrArg some ?_⟩
    exact (envelopeError_of_governedError (htexts _ (by simp [FactPayload.texts])) (by decide)).symm

/-- What a refused result records, and what it reports. -/
theorem refusedOutcome_eq {prepared : Prepared} {failure : ProviderFailure} {reason : String}
    {receiptRef : Option String} {refs evidence warnings : List String}
    (hpayload : (refusedOutcome prepared failure reason receiptRef refs evidence warnings).payload =
      some payload)
    (hcode : failure.code ≠ "") (hmessage : failure.message ≠ "")
    (hretryable : failure.retryable = false) :
    ∃ (thrown : Thrown) (recordedError : EnvelopeError),
      refusedOutcome prepared failure reason receiptRef refs evidence warnings =
        failureOutcome prepared (some payload) refs evidence warnings thrown ∧
      payload.warnings = warnings ∧
      payload.error? prepared.operationId = some recordedError ∧
      (recordedError = envelopeError thrown (some prepared.operationId) ↔
        prepared.contract.reversibility = .readOnly ∨ reason = failure.message) := by
  unfold refusedOutcome at hpayload ⊢
  dsimp only at hpayload ⊢
  by_cases hreadOnly : prepared.contract.reversibility = .readOnly
  · simp only [hreadOnly, ne_eq, not_true_eq_false, if_false] at hpayload ⊢
    obtain rfl := Option.some.inj hpayload
    refine ⟨_, _, rfl, rfl, rfl, ?_⟩
    rw [envelopeError_of_governedError hmessage hcode, hretryable]
    simp
  · simp only [hreadOnly, ne_eq, not_false_eq_true, if_true] at hpayload ⊢
    obtain rfl := Option.some.inj hpayload
    refine ⟨_, _, rfl, rfl, rfl, ?_⟩
    rw [envelopeError_of_governedError hmessage (by decide)]
    simp

/-- The error of an output that its schema rejects says so in words of its own. -/
theorem validateOutput_eq_error {contract : ExecutionContract} {output : Option Json}
    {error : Thrown} (h : contract.validateOutput output = .error error) :
    error.failure.code ≠ "" ∧ error.failure.message ≠ "" ∧
      error.failure.message ≠ "provider completed but output schema validation failed" := by
  unfold ExecutionContract.validateOutput parseSchema at h
  split at h
  next =>
    obtain rfl := Except.error.inj h
    decide
  next code cause _ =>
    obtain rfl := Except.error.inj h
    have hhead : (schemaRejection contract.outputSchema .output code cause).failure.message.toList.head? =
        some 'o' := by
      simp only [schemaRejection, contractError, Thrown.ofError, Thrown.failure, ErrorField.shown,
        SchemaPhase.text, String.toList_append, List.append_assoc]
      rfl
    refine ⟨?_, ?_, ?_⟩
    · show (code.filter isSpecificCode).getD "EXECUTION_OUTPUT_INVALID" ≠ ""
      cases hcode : code.filter isSpecificCode with
      | none => decide
      | some specific =>
          rintro rfl
          exact absurd (Option.filter_eq_some_iff.mp hcode).2 (by decide)
    · intro hempty
      rw [hempty] at hhead
      cases hhead
    · intro hreason
      rw [hreason] at hhead
      exact absurd hhead (by decide)
  next => cases h

theorem providerMetadata_eq_error {result : Json} {error : Thrown}
    (h : providerMetadata result = .error error) :
    error.failure.code ≠ "" ∧ error.failure.message ≠ "" := by
  have hinvalid : ∀ {message : String}, message ≠ "" → providerResultInvalid message = error →
      error.failure.code ≠ "" ∧ error.failure.message ≠ "" := by
    rintro message hmessage rfl
    exact ⟨show "EXECUTION_PROVIDER_RESULT_INVALID" ≠ "" by decide, hmessage⟩
  unfold providerMetadata at h
  split at h
  next => exact hinvalid (by decide) (Except.error.inj h)
  next =>
    split at h
    next => exact hinvalid (by decide) (Except.error.inj h)
    next =>
      unfold receiptRef? at h
      split at h
      next => cases h
      next =>
        split at h
        next => exact hinvalid (by decide) (Except.error.inj h)
        next => cases h
      next => exact hinvalid (by decide) (Except.error.inj h)

theorem providerMetadata_receiptRef {result : Json} {metadata : ProviderMetadata}
    (h : providerMetadata result = .ok metadata) :
    ∀ ref ∈ metadata.receiptRef, ref ∈ metadata.evidence := by
  unfold providerMetadata at h
  split at h
  next => cases h
  next =>
    split at h
    next => cases h
    next =>
      obtain ⟨receiptRef, -, h⟩ := bind_eq_ok_iff.mp h
      obtain rfl := pure_eq_ok_iff.mp h
      intro ref href
      rw [List.mem_append]
      exact .inr (Option.mem_toList.mpr href)

/-- The same for a result that is refused. -/
theorem replays_refusedOutcome {failure : ProviderFailure} {reason : String}
    {receiptRef : Option String} {refs evidence warnings : List String}
    (houtcome : outcomeOf recorded.prepared recorded.approvalEvidence recorded.ending =
      refusedOutcome recorded.prepared failure reason receiptRef refs evidence warnings)
    (hpayload : (outcomeOf recorded.prepared recorded.approvalEvidence recorded.ending).payload =
      some payload)
    (htexts : ∀ text ∈ payload.texts, text ≠ "") (hcode : failure.code ≠ "")
    (hmessage : failure.message ≠ "") (hretryable : failure.retryable = false)
    (hreplayable : recorded.Replayable ↔
      (recorded.prepared.contract.reversibility = .readOnly ∨ reason = failure.message) ∧
        unique (recorded.approvalEvidence ++ refs) = unique evidence)
    (hlater : recorded.replayOf payload = some later) :
    (recorded.envelope.Replays later ↔ recorded.Replayable) ∧
      (later = recorded.envelope.asReplayed ↔ recorded.Replayable ∧ recorded.WarningsKept) := by
  obtain ⟨thrown, recordedError, heq, hwarnings, herror, hsame⟩ :=
    refusedOutcome_eq (houtcome ▸ hpayload) hcode hmessage hretryable
  rw [← hsame] at hreplayable
  exact replays_failureOutcome (houtcome.trans heq) htexts herror rfl hwarnings hreplayable hlater

/-- A success is replayed faithfully. -/
theorem replays_success {result data output : Json} {metadata : ProviderMetadata}
    (hending : recorded.ending = .returned result) (hdata : result.field? "data" = some data)
    (hmetadata : providerMetadata result = .ok metadata)
    (houtput : recorded.prepared.contract.validateOutput (some data) = .ok output)
    (hpayload : (outcomeOf recorded.prepared recorded.approvalEvidence recorded.ending).payload =
      some payload)
    (hlater : recorded.replayOf payload = some later) :
    (recorded.envelope.Replays later ↔ recorded.Replayable) ∧
      (later = recorded.envelope.asReplayed ↔ recorded.Replayable ∧ recorded.WarningsKept) := by
  have hreplayable : recorded.Replayable := by
    rw [Recorded.Replayable, hending]
    intro found metadata' error hfound hmetadata' herror
    rw [hdata] at hfound
    obtain rfl := Option.some.inj hfound
    rw [houtput] at herror
    cases herror
  have hkept : recorded.WarningsKept ↔
      unique (recorded.prepared.warnings ++ metadata.warnings) =
        unique (recorded.prepared.warnings ++ metadata.warnings ++ recorded.reconcile.toList) := by
    rw [unique_reconcile_iff, Recorded.WarningsKept, hending, outcomeOf, returnedOutcome, hdata]
    simp only [hmetadata, houtput]
  have hoperation : recorded.envelope = executionEnvelope true
      (some ⟨recorded.prepared.operationId, output, false⟩) none
      (recorded.approvalEvidence ++ metadata.evidence)
      (recorded.prepared.warnings ++ metadata.warnings ++ recorded.reconcile.toList) := by
    rw [Recorded.envelope, hending, outcomeOf, returnedOutcome, hdata]
    simp only [hmetadata, houtput]
  rw [Recorded.replayOf] at hlater
  rw [hending, outcomeOf, returnedOutcome, hdata] at hpayload hlater
  simp only [hmetadata, houtput] at hpayload hlater
  obtain rfl := Option.some.inj hpayload
  obtain rfl := Option.some.inj hlater
  rw [hoperation, hkept]
  refine ⟨iff_of_true ⟨rfl, rfl, rfl, unique_append_self _ _⟩ hreplayable, ?_⟩
  simp [executionEnvelope, Envelope.asReplayed, unique_append_self, hreplayable]

/-- An end is replayed faithfully if and only if it is replayable. -/
theorem replays_iff
    (hpayload : (outcomeOf recorded.prepared recorded.approvalEvidence recorded.ending).payload =
      some payload)
    (htexts : ∀ text ∈ payload.texts, text ≠ "") (hlater : recorded.replayOf payload = some later) :
    (recorded.envelope.Replays later ↔ recorded.Replayable) ∧
      (later = recorded.envelope.asReplayed ↔ recorded.Replayable ∧ recorded.WarningsKept) := by
  cases hending : recorded.ending with
  | aborted =>
      have hnot : ¬recorded.Replayable := by simp [Recorded.Replayable, hending]
      rw [hending] at hpayload
      obtain rfl := Option.some.inj hpayload
      refine replays_failureOutcome (by rw [hending]; rfl) htexts rfl rfl rfl ?_ hlater
      refine iff_of_false hnot ?_
      rintro ⟨herror, -⟩
      rw [envelopeError_of_governedError (by decide) (by decide)] at herror
      have hmessage : "cancelled before provider dispatch" = "Execution cancelled" :=
        congrArg EnvelopeError.message herror
      exact absurd hmessage (by decide)
  | expired =>
      have hnot : ¬recorded.Replayable := by simp [Recorded.Replayable, hending]
      rw [hending] at hpayload
      obtain rfl := Option.some.inj hpayload
      refine replays_failureOutcome (by rw [hending]; rfl) htexts rfl rfl rfl ?_ hlater
      refine iff_of_false hnot ?_
      rintro ⟨herror, -⟩
      have hcode : "EXECUTION_CANCELLED" = "EXECUTION_DEADLINE_EXCEEDED" :=
        congrArg EnvelopeError.code herror
      exact absurd hcode (by decide)
  | threw error deadlineExceeded =>
      have hreplayable : recorded.Replayable := by simp [Recorded.Replayable, hending]
      rw [hending] at hpayload
      obtain ⟨refs, warnings, thrown, houtcome, hwarnings, herror⟩ :=
        threwOutcome_eq hpayload htexts
      exact replays_failureOutcome (by rw [hending]; exact houtcome) htexts herror rfl hwarnings
        (iff_of_true hreplayable ⟨rfl, rfl⟩) hlater
  | returned result =>
      cases hdata : result.field? "data" with
      | none =>
          have hreplayable : recorded.Replayable := by simp [Recorded.Replayable, hending, hdata]
          refine replays_refusedOutcome (by rw [hending, outcomeOf, returnedOutcome, hdata])
            hpayload htexts (by decide) (by decide) rfl ?_ hlater
          exact iff_of_true hreplayable ⟨.inr rfl, congrArg unique (List.append_nil _)⟩
      | some data =>
          cases hmetadata : providerMetadata result with
          | error error =>
              have hreplayable : recorded.Replayable := by
                simp [Recorded.Replayable, hending, hdata, hmetadata]
              obtain ⟨hcode, hmessage⟩ := providerMetadata_eq_error hmetadata
              have houtcome : outcomeOf recorded.prepared recorded.approvalEvidence recorded.ending =
                  refusedOutcome recorded.prepared error.failure error.failure.message none []
                    recorded.approvalEvidence recorded.prepared.warnings := by
                rw [hending, outcomeOf, returnedOutcome, hdata]
                simp only [hmetadata]
              refine replays_refusedOutcome houtcome hpayload htexts hcode hmessage rfl ?_ hlater
              exact iff_of_true hreplayable ⟨.inr rfl, congrArg unique (List.append_nil _)⟩
          | ok metadata =>
              cases houtput : recorded.prepared.contract.validateOutput (some data) with
              | ok output => exact replays_success hending hdata hmetadata houtput hpayload hlater
              | error error =>
                  obtain ⟨hcode, hmessage, hreason⟩ := validateOutput_eq_error houtput
                  have houtcome : outcomeOf recorded.prepared recorded.approvalEvidence
                      recorded.ending = refusedOutcome recorded.prepared error.failure
                        "provider completed but output schema validation failed"
                        metadata.receiptRef metadata.receiptRef.toList
                        (recorded.approvalEvidence ++ metadata.evidence)
                        (recorded.prepared.warnings ++ metadata.warnings) := by
                    rw [hending, outcomeOf, returnedOutcome, hdata]
                    simp only [hmetadata, houtput]
                  refine replays_refusedOutcome houtcome hpayload htexts hcode hmessage rfl ?_ hlater
                  rw [unique_evidence_iff (providerMetadata_receiptRef hmetadata),
                    or_iff_left hreason.symm]
                  rw [Recorded.Replayable, hending]
                  constructor
                  · intro h
                    exact h data metadata error hdata hmetadata houtput
                  · intro h data' metadata' error' hdata' hmetadata' _
                    rw [hdata] at hdata'
                    rw [hmetadata] at hmetadata'
                    obtain rfl := Option.some.inj hdata'
                    obtain rfl := Except.ok.inj hmetadata'
                    exact h

/-! ## Runs -/

/-- An ended stream tells what its execution returned, and has an answer for the next. -/
theorem EndedBy.exists_replay {envelope : Envelope} {stream : List Fact}
    (h : EndedBy recorded envelope stream) : envelope = recorded.envelope ∧ ∃ payload,
      (outcomeOf recorded.prepared recorded.approvalEvidence recorded.ending).payload = some payload ∧
      (∀ text ∈ payload.texts, text ≠ "") ∧ ∃ replay, recorded.replayOf payload = some replay := by
  cases h with
  | @intro start payload terminal hstarted hpayload hmade =>
      refine ⟨rfl, payload, hpayload, hmade.payload ▸ texts_of_validateForAppend hmade.valid, ?_⟩
      have hterminal := outcomeOf_isTerminal hpayload
      cases payload with
      | authorized => cases hterminal
      | started => cases hterminal
      | _ => exact ⟨_, rfl⟩

end

/-- An execution that finds the stream of an ended one with the same request is
answered from it, and dispatches nothing. The answer says what the first execution
returned if and only if its end is replayable. -/
theorem replay_faithful_iff {runtime : GovernedRuntime} {state : GovernedState}
    {actions : List Action} {i j : Nat} {first later : Call} {envelope : Envelope}
    {recorded : Recorded} {prepared : Prepared}
    (h : run (governedStep runtime) .initial actions = .ok state)
    (hfirst : state.calls[i]? = some first)
    (hended : first.phase = .finished envelope (some recorded))
    (hlater : state.calls[j]? = some later) (hkind : later.kind = .execute)
    (hreading : later.phase = .reading prepared) (hbody : later.request.body = first.request.body)
    (hkey : (first.request.body.field? "idempotency_key").isSome = true) :
    ∃ replay,
      governedStep runtime state (.read j none) = .ok (state.setPhase j (.finished replay none)) ∧
      (envelope.Replays replay ↔ recorded.Replayable) ∧
      (replay = envelope.asReplayed ↔ recorded.Replayable ∧ recorded.WarningsKept) := by
  have hended' : EndedBy recorded envelope (state.streams recorded.prepared.operationId) := by
    have hbacked := calls_backed h first (List.mem_of_getElem? hfirst)
    rw [hended] at hbacked
    exact hbacked recorded rfl
  obtain ⟨hrecordedFor, hfirstKind⟩ : recorded.prepared.For runtime.contracts first.kind first.request ∧
      first.kind = .execute := by
    have hsound := calls_sound h first (List.mem_of_getElem? hfirst)
    rw [Call.Sound, hended] at hsound
    exact hsound recorded rfl
  have hpreparedFor : prepared.For runtime.contracts first.kind later.request := by
    have hsound := calls_sound h later (List.mem_of_getElem? hlater)
    rw [Call.Sound, hreading, hkind, ← hfirstKind] at hsound
    exact hsound
  obtain ⟨hcontract, hdigest, hoperation⟩ := hrecordedFor.unique hpreparedFor hbody hkey
  have hsame : SameRequest recorded.prepared prepared := ⟨hcontract, hdigest, hoperation⟩
  have htool : recorded.prepared.operation.tool = recorded.prepared.contract.name := by
    rw [hrecordedFor.operation]
    rfl
  obtain ⟨henvelope, payload, hpayload, htexts, replay, hreplay⟩ := hended'.exists_replay
  have hread : readExisting prepared (state.streams prepared.operationId) = .ok (some replay) := by
    rw [hsame.operationId]
    exact readExisting_of_endedBy hended' htool hsame hpayload hreplay
  refine ⟨replay, ?_, henvelope ▸ replays_iff hpayload htexts hreplay⟩
  have hafter : afterRead runtime later.kind prepared (.ok (state.streams prepared.operationId)) =
      .finished replay none := by
    unfold afterRead
    simp only [bind, Except.bind, hread]
  simp only [governedStep, hlater, Option.map_some, hreading, hafter]

namespace Sample

def repeatable : ExecutionRequest := { mailRequest with signal := .present }

/-- The request comes again, and is read. -/
def again : List Action :=
  [.execute repeatable .found, .authority 1 allowed, .policy 1 allowed "" (clock 0)]

/-- An execution up to its start facts. -/
def startActions : List Action :=
  [.issue mailApproval, .execute repeatable .found, .authority 0 allowed,
    .policy 0 allowed "" (clock 0), .read 0 none, .resolve 0 (.ok (.str "a1")),
    .start 0 (stamp "e1", stamp "e2") (clock 0) none]

/-- The provider returns, its result is recorded, and the request comes again. -/
def returnedActions : List Action :=
  startActions ++ [.dispatch 0 false (clock 0),
    .settle 0 (.returned (.obj [("data", .str "sent")])), .record 0 (stamp "e3") none none] ++ again

/-- The signal is aborted between the start facts and the dispatch. -/
def abortedActions : List Action :=
  startActions ++ [.dispatch 0 true (clock 0), .record 0 (stamp "e3") none none] ++ again ++
    [.read 1 none]

/-- The request of a call that ended with a record is being read again. -/
def readsAgain (state : GovernedState) : Bool :=
  match state.calls with
  | [⟨_, first, .finished _ (some _)⟩, ⟨.execute, later, .reading _⟩] =>
      decide (later.body = first.body) && (first.body.field? "idempotency_key").isSome
  | _ => false

/-- The answer to the second request has another error than the one to the first. -/
def answersOtherwise (state : GovernedState) : Bool :=
  match state.calls with
  | [⟨.execute, first, .finished envelope (some _)⟩, ⟨.execute, later, .finished replay none⟩] =>
      decide (first = repeatable) && decide (later = repeatable) &&
        decide (replay.error ≠ envelope.error)
  | _ => false

end Sample

theorem returned_replayed : ∃ state replay,
    run (governedStep Sample.governed) .initial Sample.returnedActions = .ok state ∧
      governedStep Sample.governed state (.read 1 none) =
        .ok (state.setPhase 1 (.finished replay none)) := by
  obtain ⟨state, hrun, hcheck⟩ := runsTo_iff.mp
    (show runsTo (governedStep Sample.governed) .initial Sample.returnedActions
      Sample.readsAgain = true by decide +kernel)
  unfold Sample.readsAgain at hcheck
  split at hcheck
  next kind first envelope recorded later prepared hcalls =>
    rw [Bool.and_eq_true, decide_eq_true_eq] at hcheck
    obtain ⟨replay, hread, -⟩ := replay_faithful_iff (i := 0) (j := 1) hrun (by rw [hcalls]; rfl) rfl
      (by rw [hcalls]; rfl) rfl rfl hcheck.1 hcheck.2
    exact ⟨state, replay, hrun, hread⟩
  next => cases hcheck

/-- An execution whose signal is aborted before the dispatch says `Execution cancelled`
at first, and `cancelled before provider dispatch` when its request comes again. -/
theorem aborted_not_replayed : ∃ state envelope recorded replay,
    run (governedStep Sample.governed) .initial Sample.abortedActions = .ok state ∧
      state.calls = [⟨.execute, Sample.repeatable, .finished envelope (some recorded)⟩,
        ⟨.execute, Sample.repeatable, .finished replay none⟩] ∧
      ¬envelope.Replays replay := by
  obtain ⟨state, hrun, hcheck⟩ := runsTo_iff.mp
    (show runsTo (governedStep Sample.governed) .initial Sample.abortedActions
      Sample.answersOtherwise = true by decide +kernel)
  unfold Sample.answersOtherwise at hcheck
  split at hcheck
  next first envelope recorded later replay hcalls =>
    simp only [Bool.and_eq_true, decide_eq_true_eq] at hcheck
    obtain ⟨⟨rfl, rfl⟩, herror⟩ := hcheck
    exact ⟨state, envelope, recorded, replay, hrun, hcalls, fun hreplays => herror hreplays.error⟩
  next => cases hcheck

end Hseos
