import Hseos.Delegated.Sessions
import Mathlib.Algebra.Order.BigOperators.Group.List

/-! # Cancellations of a session

A cancellation that was requested is final in every run in which no turn reads a live
session with a pending cancellation and goes on. No check of the turn keeps it from that.
-/

namespace Hseos.Delegated

/-- The fact requests a cancellation. -/
def Fact.isCancel : Fact → Bool
  | .cancelRequested _ => true
  | _ => false

/-- The fact is of a turn and its dispatch. -/
def Fact.isTurn : Fact → Bool
  | .turnRequested _ | .dispatchStarted _ => true
  | _ => false

theorem Fact.isCommand_of_isTurn {fact : Fact} (h : fact.isTurn = true) :
    fact.isCommand = true := by
  cases fact <;> first | rfl | exact h

theorem Fact.isCommand_of_isCancel {fact : Fact} (h : fact.isCancel = true) :
    fact.isCommand = true := by
  cases fact <;> first | rfl | exact h

theorem Fact.isDispatch_of_isCancel {fact : Fact} (h : fact.isCancel = true) :
    fact.isDispatch = false := by
  cases fact <;> first | rfl | cases h

theorem Fact.isDispatch_of_isTurn {fact : Fact} (h : fact.isTurn = false) :
    fact.isDispatch = false := by
  cases fact <;> first | rfl | exact h

/-- No turn is recorded once a cancellation was requested. -/
def CancellationIsFinal (rows : List Row) : Prop :=
  Throughout (fun past row => past.any (·.fact.isCancel) = true → row.fact.isTurn = false) rows

/-- What a turn sees when it goes on: a session that is over, dispatched or not cancelled. -/
def seesNoCancellation (operation : Operation) (reader : Reader) (state : State) : Bool :=
  match operation, reader with
  | .resumeAndSend _, .continuable | .resumeAndSend _, .appended =>
      state.terminal || state.dispatchStarted || state.cancelRequest.isNone
  | _, _ => true

variable {sessionId : Identifier} {operation : Operation} {state after : State} {rows : List Row}
  {row : Row}

instance : Decidable (CancellationIsFinal rows) :=
  inferInstanceAs (Decidable (Throughout _ rows))

/-- The pending cancellation of a session is the one of its stream. -/
theorem read_cancelRequest (h : read sessionId rows = .ok state) :
    state.cancelRequest.isSome = rows.any (·.fact.isCancel) := by
  refine run_history (P := fun past state => state.cancelRequest.isSome =
    past.any (·.fact.isCancel)) rfl ?_ h
  rintro past mid ⟨sequence, key, fact, occurredAt, correlationId, actor⟩ next - hmid hstep
  obtain ⟨-, traceId, after, happlies, rfl⟩ := applyFact_eq_ok hstep
  rw [List.any_append]
  cases happlies <;> simp_all [Fact.isCancel]

/-- A turn goes on with a session of which no cancellation is requested. -/
theorem Emits.uncancelled
    (h : Emits (fun reader state => seesNoCancellation operation reader state = true) operation
      state row.fact)
    (happlied : applyFact state row = .ok after) (hturn : row.fact.isTurn = true) :
    state.cancelRequest = none := by
  obtain ⟨-, traceId, mid, happlies, -⟩ := applyFact_eq_ok happlied
  generalize row.fact = fact at h happlies hturn
  cases h with
  | turnRequested hcontinuable hseen =>
      simpa [seesNoCancellation, hcontinuable.live, hcontinuable.undispatched] using hseen
  | dispatchStarted hgoesOn =>
      cases happlies with
      | dispatchStarted hlive hpending hfresh =>
          have hseen : seesNoCancellation (.resumeAndSend _) .appended state = true :=
            hgoesOn.elim And.right id
          simpa [seesNoCancellation, show state.terminal = false from hlive,
            show state.dispatchStarted = false from hfresh] using hseen
  | creation hfact => exact absurd (Fact.isCommand_of_isTurn hturn) (by simp [hfact])
  | _ => cases hturn

/-- Of a session that is dispatched no cancellation is requested. -/
theorem Emits.undispatched {seen : Reader → State → Prop} {fact : Fact}
    (h : Emits seen operation state fact) (hcancel : fact.isCancel = true) :
    state.dispatchStarted = false := by
  cases h with
  | cancelRequested hcontinuable => exact hcontinuable.undispatched
  | creation hfact => exact absurd (Fact.isCommand_of_isCancel hcancel) (by simp [hfact])
  | _ => cases hcancel

/-- A stream with a cancellation has no turn after it, and no dispatch. -/
structure Cancels (rows : List Row) : Prop where
  final : CancellationIsFinal rows
  undispatched : rows.any (·.fact.isCancel) = true → dispatches rows = 0

theorem Cancels.snoc (h : Cancels rows) (hread : read sessionId rows = .ok state)
    (happlied : applyFact state row = .ok after)
    (hemits : Emits (fun reader state => seesNoCancellation operation reader state = true) operation
      state row.fact) : Cancels (rows ++ [row]) := by
  have hturn : rows.any (·.fact.isCancel) = true → row.fact.isTurn = false := by
    intro hcancelled
    by_contra hturn
    have hnone := hemits.uncancelled happlied (by simpa using hturn)
    rw [← read_cancelRequest hread, hnone] at hcancelled
    cases hcancelled
  refine ⟨h.final.snoc hturn, ?_⟩
  rw [List.any_append, dispatches_snoc]
  intro hcancelled
  cases hcancel : row.fact.isCancel with
  | true =>
      have hstarted := (read_dispatchedOnce hread).started
      have hundispatched := hemits.undispatched hcancel
      rw [Fact.isDispatch_of_isCancel hcancel]
      by_contra hsome
      exact absurd ((hstarted (Nat.pos_of_ne_zero hsome)).1.symm.trans hundispatched) (by simp)
  | false =>
      have hpast : rows.any (·.fact.isCancel) = true := by simpa [hcancel] using hcancelled
      rw [Fact.isDispatch_of_isTurn (hturn hpast)]
      exact h.undispatched hpast

/-! ## Runs -/

/-- No turn goes on with a live session that has a pending cancellation. -/
def unpending (sessionId : Identifier) (pool : SessionPool sessionId) : Act Call Input → Bool
  | .perform index _ =>
      match pool.threads[index]? with
      | some ⟨call, .ask (.read reader) _⟩ =>
          match read sessionId pool.shared.rows with
          | .ok state => seesNoCancellation call.operation reader state
          | .error _ => true
      | _ => true
  | _ => true

abbrev Unpending (sessionId : Identifier) (pool : SessionPool sessionId) (act : Act Call Input) :
    Prop :=
  unpending sessionId pool act = true

section

variable {pool : SessionPool sessionId}

theorem unpending_showsSeen :
    ShowsSeen (fun operation reader state => seesNoCancellation operation reader state = true)
      (Unpending sessionId) := by
  intro pool index input call reader following state hallowed hthread hread
  simpa only [Unpending, unpending, hthread, hread] using hallowed

/-- An operation sends, or is entitled to, once a dispatch is durable. -/
def Dispatched (shared : Shared) (total : Int) : Prop :=
  0 < shared.sends + total → 0 < dispatches shared.rows

theorem entitle_add {request : Request} {reply : Reply request} (total ghost : Int) :
    total + entitle request reply ghost = entitle request reply (total + ghost) := by
  cases request with
  | append expectedVersion row =>
      cases reply with
      | ok idempotent =>
          simp only [entitle]
          split <;> omega
      | error err => rfl
  | send =>
      cases reply with
      | ok value => exact (Int.add_sub_assoc total ghost 1).symm
      | error err => rfl
  | _ => cases reply <;> rfl

theorem dispatches_mono {earlier later : List Row} (h : earlier <+: later) :
    dispatches earlier ≤ dispatches later :=
  h.sublist.countP_le

theorem answer_grows {request : Request} {input : Input} {shared next : Shared}
    {reply : Reply request} (h : answer sessionId request input shared = some (reply, next)) :
    shared.rows <+: next.rows := by
  cases hquiet : request.isQuiet with
  | true => exact answer_rows h hquiet ▸ List.prefix_rfl
  | false =>
      cases request with
      | append expectedVersion row =>
          rcases answer_append h with ⟨-, -, rfl⟩ | ⟨-, -, rfl⟩
          · exact List.prefix_rfl
          · exact List.prefix_append _ _
      | send =>
          cases input <;> simp [answer] at h
          rw [← h.2]
      | _ => cases hquiet

theorem performs_dispatched {index : Nat} {input : Input} {call : Call} {request : Request}
    {following : Reply request → Process Request Reply (Result Outcome)} {reply : Reply request}
    {shared : Shared} {total ghost : Int}
    (hperforms : System.Performs pool index input call request following reply shared)
    (h : Dispatched pool.shared (total + ghost)) :
    Dispatched shared (total + entitle request reply ghost) := by
  intro hentitled
  rw [entitle_add] at hentitled
  rcases answer_dispatched hperforms.answered hentitled with hpast | hnow
  · exact (h hpast).trans_le (dispatches_mono (answer_grows hperforms.answered))
  · exact hnow

def unpendingDiscipline (sessionId : Identifier) :
    System.Discipline Int (sessions sessionId) (Unpending sessionId) :=
  discipline (fun operation reader state => seesNoCancellation operation reader state = true)
    Dispatched unpending_showsSeen (fun hle h hsends => h (hsends.trans_le (by omega)))
    fun _ => performs_dispatched

theorem unpendingDiscipline_idle : (unpendingDiscipline sessionId).together ⟨[], 0⟩ [] :=
  ⟨⟨_, rfl⟩, by simp, fun h => absurd h (by simp)⟩

theorem unpending_cancels (hreach : (sessions sessionId).Reaches (Unpending sessionId)
    (idle sessionId) pool) : Cancels pool.shared.rows := by
  refine reaches_rows
    (fun operation reader state => seesNoCancellation operation reader state = true)
    (fun _ => rfl) unpendingDiscipline_idle ?_ ?_ hreach
  · exact ⟨fun past row future hsplit => absurd hsplit (by simp), fun h => absurd h (by simp)⟩
  · exact fun h hread happlied hemits _ => h.snoc hread happlied hemits

/-- In every run in which no turn goes on with a pending cancellation, a cancellation that was
requested is followed by no turn and no dispatch, and the turn of its session is never sent. -/
theorem unpending_safe (hreach : (sessions sessionId).Reaches (Unpending sessionId)
      (idle sessionId) pool) :
    CancellationIsFinal pool.shared.rows ∧
      (pool.shared.rows.any (·.fact.isCancel) = true → pool.shared.sends = 0) := by
  have hcancels := unpending_cancels hreach
  refine ⟨hcancels.final, fun hcancelled => ?_⟩
  obtain ⟨members, hkeeps⟩ := (holds_idle unpendingDiscipline_idle).reaches hreach
  obtain ⟨-, hnonneg, hdispatched⟩ := hkeeps.together
  by_contra hsent
  have hsum := List.sum_nonneg hnonneg
  have hpositive := hdispatched (by omega)
  rw [hcancels.undispatched hcancelled] at hpositive
  exact absurd hpositive (by simp)

end

/-- A cancellation that is durable when its host stops. -/
def sampleCancelActs : List (Act Call Input) :=
  let cancel : CancelRequest := ⟨⟨"cancel", Eq.refl true⟩, "stop"⟩
  sampleCreate ++
    [.start ⟨sampleHost, .resumeAndCancel ⟨cancel, ⟨none, none⟩⟩⟩, .perform 1 .go] ++
    sampleReattach 1 ++ sampleAppend 1 0 ++ [.stop 1]

theorem unpending_safe_sample : ∃ pool, (sessions sampleSession).Reaches
    (Unpending sampleSession) (idle sampleSession) pool ∧
      pool.shared.rows.any (·.fact.isCancel) = true ∧ pool.shared.sends = 0 := by
  have hruns : runsTo ((sessions sampleSession).actIf (unpending sampleSession))
      (idle sampleSession) sampleCancelActs (fun pool => pool.shared.rows.any (·.fact.isCancel)) =
        true := by
    decide +kernel
  obtain ⟨pool, hrun, hcancelled⟩ := runsTo_iff.mp hruns
  have hreach := System.reaches_of_run hrun
  exact ⟨pool, hreach, hcancelled, (unpending_safe hreach).2 hcancelled⟩

/-- A turn that goes on after a host was stopped with its cancellation pending. -/
def sampleCancelledActs : List (Act Call Input) :=
  sampleCancelActs ++ [.start sampleSend] ++ sampleReattach 1 ++ sampleAppend 1 0 ++
    sampleAppend 1 0 ++ [.perform 1 .go]

theorem pending_cancellation_is_sent : ∃ pool, (sessions sampleSession).Reaches (fun _ _ => True)
    (idle sampleSession) pool ∧ ¬ CancellationIsFinal pool.shared.rows ∧ pool.shared.sends = 1 := by
  have hruns : runsTo ((sessions sampleSession).actIf fun _ _ => true)
      (idle sampleSession) sampleCancelledActs
      (fun pool => decide (¬ CancellationIsFinal pool.shared.rows ∧ pool.shared.sends = 1)) =
        true := by
    decide +kernel
  obtain ⟨pool, hrun, hsent⟩ := runsTo_iff.mp hruns
  exact ⟨pool, (System.reaches_of_run hrun).mono fun _ _ _ => trivial, of_decide_eq_true hsent⟩

end Hseos.Delegated
