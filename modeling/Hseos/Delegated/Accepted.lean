import Hseos.Delegated.State

/-! # Accepted streams

What a fact needs and changes, and from it what holds of every stream that the reducer
accepts: how often a turn is dispatched, what may follow a terminal fact, and which
worker follows which.
-/

namespace Hseos.Delegated

variable {sessionId : Identifier} {state next : State} {rows past : List Row} {row : Row}

/-! ## One fact -/

/-- What the reducer asks of a fact, and the state that the fact leads to. -/
inductive Applies (state : State) (occurredAt : Int) : Fact → State → Prop where
  | created {requestId : Identifier} {spec : AgentSessionSpec} (hversion : state.version = 0) :
      Applies state occurredAt (.created requestId spec) { state with spec := some spec }
  | bound {runtimeSessionId : String} {manifest : RuntimeProviderManifest}
      (hunbound : state.manifest = none) :
      Applies state occurredAt (.bound runtimeSessionId manifest)
        { state with manifest := some manifest, runtimeSessionId := some runtimeSessionId }
  | eventRecorded {event : RuntimeEvent} (hlive : state.terminal = false)
      (hsequence : event.sequence = state.runtimeSequence + 1) (hgoesOn : event.isTerminal = false) :
      Applies state occurredAt (.eventRecorded event)
        { state with
          runtimeSequence := event.sequence, runtimeEvents := state.runtimeEvents ++ [event] }
  | lastRecorded {event : RuntimeEvent} (hlive : state.terminal = false)
      (hsequence : event.sequence = state.runtimeSequence + 1) (hends : event.isTerminal = true) :
      Applies state occurredAt (.eventRecorded event)
        { state with
          runtimeSequence := event.sequence, runtimeEvents := state.runtimeEvents ++ [event],
          terminal := true, terminalEvent := some event, pendingTurn := none }
  | turnRequested {turn : TurnRequest} (hlive : state.terminal = false)
      (hidle : state.pendingTurn = none) :
      Applies state occurredAt (.turnRequested turn)
        { state with pendingTurn := some turn, dispatchStarted := false }
  | dispatchStarted {requestId : Identifier} (hlive : state.terminal = false)
      (hpending : state.pendingTurn.map (·.requestId) = some requestId)
      (hfresh : state.dispatchStarted = false) :
      Applies state occurredAt (.dispatchStarted requestId) { state with dispatchStarted := true }
  | cancelRequested {cancel : CancelRequest} (hlive : state.terminal = false)
      (hfirst : state.cancelRequest = none) :
      Applies state occurredAt (.cancelRequested cancel) { state with cancelRequest := some cancel }
  | failed {failure : Failure} (hlive : state.terminal = false) :
      Applies state occurredAt (.failed failure)
        { state with failed := some failure, terminal := true, pendingTurn := none }
  | outcomeUncertain {failure : Failure} (hlive : state.terminal = false) :
      Applies state occurredAt (.outcomeUncertain failure)
        { state with failed := some failure, terminal := true, pendingTurn := none }
  | attached {lease : WorkerLease} (hlive : state.terminal = false)
      (hfree : state.worker.status ∈ [WorkerStatus.unassigned, .parked, .orphaned, .retired])
      (hepoch : lease.leaseEpoch = state.worker.leaseEpoch + 1) :
      Applies state occurredAt (.attached lease)
        { state with
          worker := { status := .attached, workerId := some lease.workerId,
                      leaseEpoch := lease.leaseEpoch, leaseTtlMs := some lease.leaseTtlMs,
                      leaseExpiresAt := some lease.leaseExpiresAt } }
  | heartbeat {lease : WorkerLease} (hworker : state.worker.workerId = some lease.workerId)
      (hepoch : state.worker.leaseEpoch = lease.leaseEpoch)
      (hheld : state.worker.status ∈ [WorkerStatus.attached, .draining]) :
      Applies state occurredAt (.heartbeat lease)
        { state with worker.leaseExpiresAt := some lease.leaseExpiresAt }
  | drainRequested {drain : WorkerDrain} (hworker : state.worker.workerId = some drain.workerId)
      (hepoch : state.worker.leaseEpoch = drain.leaseEpoch)
      (hattached : state.worker.status = .attached) :
      Applies state occurredAt (.drainRequested drain)
        { state with
          worker := { state.worker with
            status := .draining, drainDeadlineAt := some drain.drainDeadlineAt,
            drainRequestId := some drain.requestId, drainReason := some drain.reason,
            drainDeferShutdownMs := some drain.deferShutdownMs } }
  | parked {checkpoint : WorkerCheckpoint} (hworker : state.worker.workerId = some checkpoint.workerId)
      (hepoch : state.worker.leaseEpoch = checkpoint.leaseEpoch)
      (hdraining : state.worker.status = .draining) :
      Applies state occurredAt (.parked checkpoint)
        { state with
          worker := { state.worker with
            status := .parked, checkpointSequence := some checkpoint.checkpointSequence,
            leaseExpiresAt := none, drainDeadlineAt := none } }
  | orphaned {terminal : WorkerTerminal} (hworker : state.worker.workerId = some terminal.workerId)
      (hepoch : state.worker.leaseEpoch = terminal.leaseEpoch)
      (hheld : state.worker.status ∈ [WorkerStatus.attached, .draining])
      (hexpired : expired occurredAt state.worker = true) :
      Applies state occurredAt (.orphaned terminal)
        { state with
          worker := { state.worker with
            status := .orphaned, leaseExpiresAt := none, drainDeadlineAt := none } }
  | retired {terminal : WorkerTerminal} (hworker : state.worker.workerId = some terminal.workerId)
      (hepoch : state.worker.leaseEpoch = terminal.leaseEpoch) :
      Applies state occurredAt (.retired terminal) { state with worker.status := .retired }

theorem assertWorkerIdentity_bind_eq_ok_iff {workerId : Identifier} {leaseEpoch : Nat}
    {f : Unit → Result State} :
    assertWorkerIdentity state workerId leaseEpoch >>= f = .ok next ↔
      state.worker.workerId = some workerId ∧ state.worker.leaseEpoch = leaseEpoch ∧
        f () = .ok next := by
  rw [assertWorkerIdentity, reject_bind_eq_ok_iff]
  simp [and_assoc]

theorem applyEventRecorded_eq_ok {occurredAt : Int} {event : RuntimeEvent}
    (h : applyEventRecorded state event = .ok next) :
    Applies state occurredAt (.eventRecorded event) next := by
  rw [applyEventRecorded] at h
  simp only [reject_bind_eq_ok_iff] at h
  obtain ⟨hcontinues, -, hlive, h⟩ := h
  have hsequence : event.sequence = state.runtimeSequence + 1 := by simp_all
  cases hends : event.isTerminal with
  | true =>
      simp only [hends, if_true, pure_eq_ok_iff] at h
      exact h ▸ .lastRecorded hlive hsequence hends
  | false =>
      simp only [hends, Bool.false_eq_true, if_false, pure_eq_ok_iff] at h
      exact h ▸ .eventRecorded hlive hsequence hends

theorem applyAttached_eq_ok {occurredAt : Int} {lease : WorkerLease}
    (h : applyAttached state occurredAt lease = .ok next) :
    Applies state occurredAt (.attached lease) next := by
  rw [applyAttached] at h
  obtain ⟨canonicalExpiry, -, h⟩ := bind_eq_ok_iff.mp h
  obtain ⟨hguard, h⟩ := reject_bind_eq_ok_iff.mp h
  simp only [Bool.or_eq_false_iff, decide_eq_false_iff_not, not_not, pure_eq_ok_iff] at hguard h
  obtain ⟨⟨⟨⟨⟨-, hlive⟩, hfree⟩, hepoch⟩, -⟩, -⟩ := hguard
  exact h ▸ .attached hlive hfree hepoch

theorem applyDrainRequested_eq_ok {occurredAt : Int} {drain : WorkerDrain}
    (h : applyDrainRequested state occurredAt drain = .ok next) :
    Applies state occurredAt (.drainRequested drain) next := by
  rw [applyDrainRequested] at h
  obtain ⟨hworker, hepoch, h⟩ := assertWorkerIdentity_bind_eq_ok_iff.mp h
  obtain ⟨requestedDeadline, -, h⟩ := bind_eq_ok_iff.mp h
  cases hexpires : state.worker.leaseExpiresAt with
  | none => simp [hexpires] at h
  | some leaseExpiresAt =>
      simp only [hexpires] at h
      obtain ⟨hguard, h⟩ := reject_bind_eq_ok_iff.mp h
      have hattached : state.worker.status = .attached := by simp_all
      rw [pure_eq_ok_iff] at h
      rw [← hexpires] at h
      exact h ▸ .drainRequested hworker hepoch hattached

/-- What the reducer accepts of a fact. -/
theorem applyPayload_eq_ok {occurredAt : Int} {fact : Fact}
    (h : applyPayload state occurredAt fact = .ok next) : Applies state occurredAt fact next := by
  cases fact with
  | created requestId spec =>
      rw [applyPayload, applyCreated] at h
      obtain ⟨hguard, h⟩ := reject_bind_eq_ok_iff.mp h
      rw [pure_eq_ok_iff] at h
      exact h ▸ .created (by simp_all)
  | bound runtimeSessionId manifest =>
      rw [applyPayload, applyBound] at h
      obtain ⟨hguard, h⟩ := reject_bind_eq_ok_iff.mp h
      rw [pure_eq_ok_iff] at h
      exact h ▸ .bound (by simp_all)
  | eventRecorded event => exact applyEventRecorded_eq_ok h
  | turnRequested turn =>
      rw [applyPayload, applyTurnRequested] at h
      obtain ⟨hguard, h⟩ := reject_bind_eq_ok_iff.mp h
      rw [pure_eq_ok_iff] at h
      exact h ▸ .turnRequested (by simp_all) (by simp_all)
  | dispatchStarted requestId =>
      rw [applyPayload, applyDispatchStarted] at h
      obtain ⟨hguard, h⟩ := reject_bind_eq_ok_iff.mp h
      rw [pure_eq_ok_iff] at h
      exact h ▸ .dispatchStarted (by simp_all) (by simp_all) (by simp_all)
  | cancelRequested cancel =>
      rw [applyPayload, applyCancelRequested] at h
      simp only [reject_bind_eq_ok_iff, pure_eq_ok_iff] at h
      obtain ⟨hguard, hfirst, h⟩ := h
      exact h ▸ .cancelRequested (by simp_all) (by simp_all)
  | failed failure =>
      rw [applyPayload, applyFailed] at h
      obtain ⟨hlive, h⟩ := reject_bind_eq_ok_iff.mp h
      rw [pure_eq_ok_iff] at h
      exact h ▸ .failed hlive
  | outcomeUncertain failure =>
      rw [applyPayload, applyFailed] at h
      obtain ⟨hlive, h⟩ := reject_bind_eq_ok_iff.mp h
      rw [pure_eq_ok_iff] at h
      exact h ▸ .outcomeUncertain hlive
  | attached lease => exact applyAttached_eq_ok h
  | heartbeat lease =>
      rw [applyPayload, applyHeartbeat] at h
      obtain ⟨hworker, hepoch, h⟩ := assertWorkerIdentity_bind_eq_ok_iff.mp h
      obtain ⟨requestedExpiry, -, h⟩ := bind_eq_ok_iff.mp h
      obtain ⟨hguard, h⟩ := reject_bind_eq_ok_iff.mp h
      simp only [Bool.or_eq_false_iff, decide_eq_false_iff_not, not_not] at hguard
      rw [pure_eq_ok_iff] at h
      exact h ▸ .heartbeat hworker hepoch hguard.1.1.1
  | drainRequested drain => exact applyDrainRequested_eq_ok h
  | parked checkpoint =>
      rw [applyPayload, applyParked] at h
      obtain ⟨hworker, hepoch, h⟩ := assertWorkerIdentity_bind_eq_ok_iff.mp h
      obtain ⟨hguard, h⟩ := reject_bind_eq_ok_iff.mp h
      rw [pure_eq_ok_iff] at h
      exact h ▸ .parked hworker hepoch (by simp_all)
  | orphaned terminal =>
      rw [applyPayload, applyOrphaned] at h
      obtain ⟨hworker, hepoch, h⟩ := assertWorkerIdentity_bind_eq_ok_iff.mp h
      obtain ⟨hguard, h⟩ := reject_bind_eq_ok_iff.mp h
      simp only [Bool.or_eq_false_iff, decide_eq_false_iff_not, not_not, Bool.not_eq_false'] at hguard
      rw [pure_eq_ok_iff] at h
      exact h ▸ .orphaned hworker hepoch hguard.1.1 hguard.1.2
  | retired terminal =>
      rw [applyPayload, applyRetired] at h
      obtain ⟨hworker, hepoch, h⟩ := assertWorkerIdentity_bind_eq_ok_iff.mp h
      obtain ⟨-, h⟩ := reject_bind_eq_ok_iff.mp h
      rw [pure_eq_ok_iff] at h
      exact h ▸ .retired hworker hepoch

/-- What the reducer does with a row: it continues the stream and applies the fact. -/
theorem applyFact_eq_ok (h : applyFact state row = .ok next) :
    row.streamSequence = state.version + 1 ∧ ∃ traceId mid,
      Applies { state with traceId } row.occurredAt row.fact mid ∧
        next = { mid with version := row.streamSequence, lastOccurredAt := some row.occurredAt } := by
  rw [applyFact] at h
  obtain ⟨hsequence, h⟩ := reject_bind_eq_ok_iff.mp h
  obtain ⟨-, h⟩ := reject_bind_eq_ok_iff.mp h
  obtain ⟨rowTraceId, -, h⟩ := bind_eq_ok_iff.mp h
  obtain ⟨-, h⟩ := reject_bind_eq_ok_iff.mp h
  obtain ⟨mid, hmid, h⟩ := bind_eq_ok_iff.mp h
  rw [pure_eq_ok_iff] at h
  exact ⟨by simpa using hsequence, some rowTraceId, mid, applyPayload_eq_ok hmid, h.symm⟩

/-! ## Versions -/

theorem read_version (h : read sessionId rows = .ok state) : state.version = rows.length := by
  refine run_history (P := fun past state => state.version = past.length) rfl ?_ h
  intro past mid row next _ hmid hstep
  obtain ⟨hsequence, traceId, after, -, rfl⟩ := applyFact_eq_ok hstep
  rw [List.length_append, ← hmid]
  exact hsequence

theorem read_snoc (h : read sessionId rows = .ok state) (hrow : applyFact state row = .ok next) :
    read sessionId (rows ++ [row]) = .ok next :=
  run_snoc_eq_ok_iff.mpr ⟨state, h, hrow⟩

/-! ## Dispatches and terminal facts -/

/-- The fact starts the dispatch of a turn. -/
def Fact.isDispatch : Fact → Bool
  | .dispatchStarted _ => true
  | _ => false

/-- The fact ends the session. -/
def Fact.isTerminal : Fact → Bool
  | .failed _ | .outcomeUncertain _ => true
  | .eventRecorded event => event.isTerminal
  | _ => false

/-- The fact is of a session that goes on. -/
def Fact.isLive : Fact → Bool
  | .eventRecorded _ | .turnRequested _ | .dispatchStarted _ | .cancelRequested _ | .failed _
  | .outcomeUncertain _ | .attached _ => true
  | _ => false

def dispatches (rows : List Row) : Nat := rows.countP (·.fact.isDispatch)

theorem dispatches_snoc (rows : List Row) (row : Row) : dispatches (rows ++ [row]) =
    dispatches rows + if row.fact.isDispatch then 1 else 0 := by
  rw [dispatches, dispatches, List.countP_append, List.countP_singleton]

/-- A stream with a dispatch is at a turn that is dispatched, or over. -/
structure DispatchedOnce (rows : List Row) (state : State) : Prop where
  once : dispatches rows ≤ 1
  started : 0 < dispatches rows →
    state.dispatchStarted = true ∧ (state.pendingTurn.isSome ∨ state.terminal = true)

theorem read_dispatchedOnce (h : read sessionId rows = .ok state) : DispatchedOnce rows state := by
  refine run_history (P := DispatchedOnce) ⟨Nat.zero_le 1, fun h => absurd h (by decide)⟩ ?_ h
  rintro past mid ⟨sequence, key, fact, occurredAt, correlationId, actor⟩ next - hmid hstep
  obtain ⟨-, traceId, after, happlies, rfl⟩ := applyFact_eq_ok hstep
  have hcount := dispatches_snoc past ⟨sequence, key, fact, occurredAt, correlationId, actor⟩
  obtain ⟨honce, hstarted⟩ := hmid
  cases happlies with
  | dispatchStarted hlive hpending hfresh =>
      -- a dispatch in the past has left its mark
      have hnone : dispatches past = 0 := by
        rcases Nat.eq_zero_or_pos (dispatches past) with hzero | hpos
        · exact hzero
        · exact absurd ((hstarted hpos).1.symm.trans hfresh) (by simp)
      refine ⟨?_, fun _ => ⟨rfl, .inl ?_⟩⟩
      · rw [hcount, hnone]
        exact Nat.le_refl _
      · cases hturn : mid.pendingTurn with
        | none => simp [hturn] at hpending
        | some turn => rfl
  | turnRequested hlive hidle =>
      have hnone : dispatches past = 0 := by
        rcases Nat.eq_zero_or_pos (dispatches past) with hzero | hpos
        · exact hzero
        · simp_all
      constructor <;> simp [hcount, hnone, Fact.isDispatch]
  | _ => constructor <;> simp_all [Fact.isDispatch]

/-- The session is terminal once a fact of its stream has ended it. -/
theorem read_terminal (h : read sessionId rows = .ok state) :
    state.terminal = rows.any (·.fact.isTerminal) := by
  refine run_history (P := fun past state => state.terminal = past.any (·.fact.isTerminal)) rfl ?_ h
  rintro past mid ⟨sequence, key, fact, occurredAt, correlationId, actor⟩ next - hmid hstep
  obtain ⟨-, traceId, after, happlies, rfl⟩ := applyFact_eq_ok hstep
  rw [List.any_append]
  cases happlies <;> simp_all [Fact.isTerminal]

/-- Of a session that is over no fact of a live one is accepted. -/
theorem Applies.live {occurredAt : Int} {fact : Fact} (h : Applies state occurredAt fact next)
    (hfact : fact.isLive = true) : state.terminal = false := by
  cases h <;> first | assumption | cases hfact

/-- Nothing that a live session records follows a terminal fact. -/
def QuietAfterTerminal (rows : List Row) : Prop :=
  ∀ past row future, rows = past ++ row :: future → past.any (·.fact.isTerminal) = true →
    row.fact.isLive = false

theorem read_quietAfterTerminal (h : read sessionId rows = .ok state) :
    QuietAfterTerminal rows := by
  rintro past row future rfl hover
  obtain ⟨before, after, hpast, hrow, -⟩ := run_split h
  obtain ⟨-, traceId, mid, happlies, -⟩ := applyFact_eq_ok hrow
  rw [← read_terminal hpast] at hover
  by_contra hlive
  exact absurd (happlies.live (by simpa using hlive)) (by simp [hover])

end Hseos.Delegated
