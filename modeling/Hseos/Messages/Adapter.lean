import Hseos.Messages.Deliveries

/-! # Relay adapters

`createAgentMessageRelayAdapter` around the methods of a local relay with the same
principal: what it checks of a request before it passes it on, and of an answer before
it gives it out.
-/

namespace Hseos.Messages

open MessageState

def adapterInvalid (message : String) : Failure := .transport message .adapterInvalid

/-! ## Validation -/

def validateMessageState (value : MessageState) : Except Failure MessageState := do
  let message ← parseSend value.message
  reject (value.version < 2 || 4 < value.version || value.status = .enqueued ||
      value.expiresAt.ms ≠ value.createdAt.ms + message.ttlMs ||
      (value.acknowledged && value.status ≠ .delivered))
    (adapterInvalid "relay message result violates its state contract")
  let expectedReason :=
    if value.acknowledged then some "recipient_ack"
    else
      match value.status with
      | .delivered => some "inbound_accept"
      | .held => some "inbound_hold"
      | .refused => some "inbound_refuse"
      | .expired => some "ttl_elapsed"
      | .enqueued => none
  let atOrAfterExpiry : Bool := value.expiresAt.ms ≤ value.lastOccurredAt.ms
  reject (value.reason ≠ expectedReason ||
      (if value.status = .expired then !atOrAfterExpiry else atOrAfterExpiry))
    (adapterInvalid "relay message result has invalid transition evidence")
  .ok value

/-- What the adapter checks of the answer to a request that it passed on. An answer that is of
another kind than the request is refused as well. -/
def validateAnswer (principalId : String) : Request → Answer → Except Failure Answer
  | .send parsed, .sent (some result) replayed => do
      let state ← validateMessageState result
      reject (state.message ≠ parsed)
        (adapterInvalid "relay send result is not bound to its request")
      .ok (.sent (some state) replayed)
  | .send _, _ => .error (invalid "relay message result must be a plain object")
  | .receive request, .states result => do
      reject (request.limit < result.length) (adapterInvalid "relay receive result is invalid")
      let states ← result.mapM validateMessageState
      reject (states.any fun state => state.message.recipientId ≠ principalId ||
          state.status ≠ .delivered || state.acknowledged)
        (adapterInvalid "relay receive result crosses its principal or state boundary")
      .ok (.states states)
  | .receive _, _ => .error (adapterInvalid "relay receive result is invalid")
  | .acknowledge request, .acknowledged result => do
      let state ← validateMessageState result
      reject (state.message.recipientId ≠ principalId ||
          state.message.messageId ≠ request.messageId || !state.acknowledged)
        (adapterInvalid "relay ack result is invalid")
      .ok (.acknowledged state)
  | .acknowledge _, _ => .error (invalid "relay message result must be a plain object")
  | .flushHeld _, .states result => do
      reject (128 < result.length) (adapterInvalid "relay flush result is invalid")
      let states ← result.mapM validateMessageState
      reject (states.any fun state => state.message.recipientId ≠ principalId ||
          state.status ∉ [.held, .delivered, .refused])
        (adapterInvalid "relay flush result crosses its principal boundary")
      .ok (.states states)
  | .flushHeld _, _ => .error (adapterInvalid "relay flush result is invalid")

/-! ## Adapted relays -/

/-- The recipient that a request claims is the principal of the adapter. -/
def claimAdapted (message principalId : String) (schemaVersion : Int) (recipientIdValue : String)
    (bad : Bool) : Except Failure Unit := do
  reject (schemaVersion ≠ 1) (.transport message .principalMismatch)
  let recipientId ← identifier recipientIdValue "recipient_id"
  reject (recipientId ≠ principalId || bad) (.transport message .principalMismatch)

/-- What an adapter checks before it passes a request on. -/
def adapterAdmitted (principalId : String) : Request → Except Failure Unit
  | .send request => do
      let parsed ← parseSend request
      reject (parsed.senderId ≠ principalId)
        (.transport "sender claim is not bound to adapter principal" .principalMismatch)
  | .receive request =>
      claimAdapted "receive request is not bound to adapter principal" principalId
        request.schemaVersion request.recipientId (request.limit < 1 || 128 < request.limit)
  | .acknowledge request => do
      claimAdapted "ack request is not bound to adapter principal" principalId request.schemaVersion
        request.recipientId false
      let _ ← identifier request.messageId "message_id"
      .ok ()
  | .flushHeld request =>
      claimAdapted "flush request is not bound to adapter principal" principalId
        request.schemaVersion request.recipientId false

variable {ι : Type} [DecidableEq ι]

/-- `invokeAdapter`, on what the relay's method returns or throws. -/
def Network.adaptOutcome (net : Network ι) : Outcome ι → Outcome ι
  | .answers relay request (.ok answer) =>
      .answers relay request (validateAnswer (net.principal relay) request answer)
  | .answers relay request (.error .policy) =>
      .answers relay request (.error (.transport "relay adapter failed" .adapterFailure))
  | outcome => outcome

/-- A step in which the call is made, or was made, through an adapter. -/
def Network.adapted (net : Network ι) (w : World ι) (event : Event ι) : Outcome ι × World ι :=
  match event with
  | .call relay request clock =>
      match adapterAdmitted (net.principal relay) request with
      | .error failure => (.answers relay request (.error failure), w)
      | .ok _ =>
          (net.adaptOutcome (net.call w relay request clock).1, (net.call w relay request clock).2)
  | event => (net.adaptOutcome (net.step w event).1, (net.step w event).2)

/-- The request was refused. -/
def Outcome.failed : Outcome ι → Bool
  | .answers _ _ (.error _) => true
  | _ => false

/-- The step is not the last decision of a flush that had more than 128 messages to decide
on when it began. -/
def World.Fits (w : World ι) (event : Event ι) : Prop :=
  match event, w.frames with
  | .decide _, .flush _ savepoint request now _ [] _ :: _ =>
      heldCount savepoint request.recipientId now ≤ 128
  | _, _ => True

/-! ## Answers of a relay -/

/-- An answer that belongs to a request. -/
def Answers (principalId : String) : Request → Answer → Prop
  | .send message, .sent found _ => ∃ s, found = some s ∧ s.Reported ∧ s.message = message
  | .receive request, .states found => found.length ≤ request.limit ∧
      ∀ s ∈ found, s.Reported ∧ s.message.recipientId = principalId ∧ s.status = .delivered ∧
        s.acknowledged = false
  | .acknowledge request, .acknowledged s => s.Reported ∧ s.message.recipientId = principalId ∧
      s.message.messageId = request.messageId ∧ s.acknowledged = true
  | .flushHeld _, .states found => ∀ s ∈ found, s.Flushed principalId
  | _, _ => False

theorem validateMessageState_eq {s : MessageState} (h : s.Reported) :
    validateMessageState s = .ok s := by
  obtain ⟨hs, hversion⟩ := h
  have hupper := hs.version_le
  have hstatus : s.status ≠ .enqueued := by
    intro hstatus
    have := hs.version.2
    simp only [versionBounds, hstatus] at this
    omega
  have hreason := hs.reason
  have hside := hs.side
  unfold validateMessageState
  simp only [bind_eq_ok_iff, reject_eq_ok_iff, parseSend_eq_ok_iff, and_true]
  refine ⟨s.message, ⟨hs.message, rfl⟩, (), ?_, (), ?_⟩
  · simp only [Bool.or_eq_false_iff, decide_eq_false_iff_not, Bool.and_eq_false_iff, ne_eq, not_not]
    refine ⟨⟨⟨⟨by omega, by omega⟩, hstatus⟩, hs.expires⟩, ?_⟩
    by_cases hacknowledged : s.acknowledged = true
    · exact .inr (hs.acknowledged hacknowledged)
    · exact .inl (by simpa using hacknowledged)
  · rw [hreason]
    rw [Bool.or_eq_false_iff]
    refine ⟨?_, ?_⟩
    · unfold reasonOf
      split
      · rfl
      · cases s.status <;> rfl
    · by_cases hexpired : s.status = .expired
      · simpa [hexpired] using hside.mp hexpired
      · simpa [hexpired] using mt hside.mpr hexpired

theorem mapM_validate_eq {found : List MessageState} (h : ∀ s ∈ found, s.Reported) :
    found.mapM validateMessageState = .ok found := by
  have := mapM_eq_ok_map (g := id) fun s hs => validateMessageState_eq (h s hs)
  rwa [List.map_id] at this

/-- Of the answers that belong to a request only a long flush is refused. -/
theorem validateAnswer_eq_iff {principalId : String} {request : Request} {answer : Answer}
    (h : Answers principalId request answer) :
    validateAnswer principalId request answer = .ok answer ↔
      ∀ value found, request = .flushHeld value → answer = .states found → found.length ≤ 128 := by
  cases request <;> cases answer <;> simp only [Answers] at h
  case send.sent message found replayed =>
    obtain ⟨s, rfl, hs, rfl⟩ := h
    simp [validateAnswer, validateMessageState_eq hs, reject, bind, Except.bind]
  case receive.states request found =>
    obtain ⟨hlength, hfound⟩ := h
    have hany : (found.any fun state => state.message.recipientId ≠ principalId ||
        state.status ≠ .delivered || state.acknowledged) = false := by
      rw [List.any_eq_false]
      intro s hs
      obtain ⟨-, hrecipient, hstatus, hacknowledged⟩ := hfound s hs
      simp [hrecipient, hstatus, hacknowledged]
    have hbound : decide (request.limit < found.length) = false := by simpa using hlength
    have hvalid : validateAnswer principalId (.receive request) (.states found) = .ok (.states found) := by
      simp only [validateAnswer, bind_eq_ok_iff, reject_eq_ok_iff]
      exact ⟨(), hbound, found, mapM_validate_eq fun s hs => (hfound s hs).1, (), hany, rfl⟩
    simp [hvalid]
  case acknowledge.acknowledged request s =>
    obtain ⟨hs, hrecipient, hid, hacknowledged⟩ := h
    simp [validateAnswer, validateMessageState_eq hs, hrecipient, hid, hacknowledged, reject, bind,
      Except.bind]
  case flushHeld.states request found =>
    have hany : (found.any fun state => state.message.recipientId ≠ principalId ||
        state.status ∉ [.held, .delivered, .refused]) = false := by
      rw [List.any_eq_false]
      intro s hs
      simp [(h s hs).recipient, (h s hs).status]
    have hmapM := mapM_validate_eq fun s hs => (h s hs).reported
    by_cases hlength : found.length ≤ 128
    · have hbound : decide (128 < found.length) = false := by simpa using hlength
      have hvalid : validateAnswer principalId (.flushHeld request) (.states found) =
          .ok (.states found) := by
        simp only [validateAnswer, bind_eq_ok_iff, reject_eq_ok_iff]
        exact ⟨(), hbound, found, hmapM, (), hany, rfl⟩
      simp [hvalid, hlength]
    · have hbound : decide (128 < found.length) = true := by simpa using hlength
      simp [validateAnswer, hbound, hlength, reject, bind, Except.bind]

end Hseos.Messages
