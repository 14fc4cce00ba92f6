import Hseos.Delegated.Sessions
import Mathlib.Algebra.Order.BigOperators.Group.List

/-! # One dispatch and fenced workers

What holds of a session in every run in which no two operations record the same dispatch
and each turn finds its worker at the session again when it reads it back.
-/

namespace Hseos.Delegated

/-! ## Fencing -/

/-- The worker and the epoch of a session. -/
def token (before : Option Tenure) : Lease :=
  ⟨before.map (·.lease.workerId), some (before.elim 0 (·.lease.leaseEpoch))⟩

/-- The worker and the epoch that an operation carries. -/
def Operation.token? : Operation → Option Lease
  | .heartbeatWorker input => some input.lease
  | .drainWorker input | .drainAndParkWorker input => some input.lease
  | .parkWorker input | .retireWorker input => some input.lease
  | .resumeAndSend input => if input.lease = ⟨none, none⟩ then none else some input.lease
  | .resumeAndCancel input => if input.lease = ⟨none, none⟩ then none else some input.lease
  | .claimWorker _ | .sweepWorker _ | .create _ => none

/-- An operation of another worker or epoch records nothing but that the session's worker
is orphaned when it is due. -/
def Fenced (operation : Operation) (rows : List Row) (row : Row) : Prop :=
  ∀ lease, operation.token? = some lease → lease = token (tenure rows) ∨
    ∃ terminal before, row.fact = .orphaned terminal ∧ tenure rows = some before ∧
      before.EndedBy row

/-- What one request of an operation adds to the stream. -/
def FencedStep (operation : Operation) (rows later : List Row) : Prop :=
  later = rows ∨ ∃ row, later = rows ++ [row] ∧ Fenced operation rows row

/-- What a turn sees when it reads the session back: its own worker, or the session over. -/
def keepsLease (operation : Operation) (reader : Reader) (state : State) : Bool :=
  match operation.turnLease?, reader with
  | some lease, .appended | some lease, .failing =>
      state.terminal || lease = ⟨none, none⟩ || lease.holds state.worker
  | _, _ => true

section

variable {sessionId : Identifier} {operation : Operation} {state after : State} {rows : List Row}
  {row : Row} {lease : Lease} {worker : Worker} {before : Option Tenure}

theorem Follows.eq_token (h : Follows worker before) (hholds : lease.holds worker = true) :
    lease = token before := by
  obtain ⟨workerId, leaseEpoch⟩ := lease
  obtain ⟨hworker, hepoch⟩ : worker.workerId = workerId ∧ some worker.leaseEpoch = leaseEpoch := by
    simpa [Lease.holds] using hholds
  cases before with
  | none =>
      obtain rfl : worker = {} := h
      rw [← hworker, ← hepoch]
      rfl
  | some tenure =>
      have hserves : Serves worker tenure := h
      rw [← hworker, ← hepoch, hserves.workerId, hserves.leaseEpoch]
      rfl

/-- A turn that carries a worker and an epoch goes on as that worker. -/
theorem GoesOn.holds (h : GoesOn (fun reader state => keepsLease operation reader state = true)
      lease state) (hlease : operation.turnLease? = some lease) (hcarries : lease ≠ ⟨none, none⟩)
    (hlive : state.terminal = false) : lease.holds state.worker = true := by
  rcases h with ⟨hcontinuable, -⟩ | hseen
  · exact hcontinuable.leased fun hunassigned => hcarries (hcontinuable.unassigned hunassigned)
  · simpa [keepsLease, hlease, hlive, hcarries] using hseen

theorem Operation.carries (hlease : operation.turnLease? = some lease) {carried : Lease}
    (htoken : operation.token? = some carried) : carried = lease ∧ lease ≠ ⟨none, none⟩ := by
  cases operation with
  | resumeAndSend input | resumeAndCancel input =>
      obtain rfl := Option.some.inj hlease
      rw [Operation.token?] at htoken
      split at htoken
      next => cases htoken
      next hne => exact ⟨(Option.some.inj htoken).symm, hne⟩
  | _ => cases hlease

/-- What an operation records of a live session is fenced. -/
theorem Emits.fenced (h : Emits (fun reader state => keepsLease operation reader state = true)
      operation state row.fact) (hread : read sessionId rows = .ok state)
    (happlied : applyFact state row = .ok after) : Fenced operation rows row := by
  obtain ⟨-, traceId, mid, happlies, -⟩ := applyFact_eq_ok happlied
  have hfollows := read_follows hread
  -- a fact that names the worker is accepted of the session's worker only
  have hnamed : ∀ {workerId leaseEpoch}, state.worker.workerId = some workerId →
      state.worker.leaseEpoch = leaseEpoch → ⟨some workerId, some leaseEpoch⟩ = token (tenure rows) := by
    intro workerId leaseEpoch hworker hepoch
    exact hfollows.eq_token (by simp [Lease.holds, hworker, hepoch])
  -- a fact that names none is recorded by a turn, which knows its worker
  have hturn : ∀ {lease carried}, operation.turnLease? = some lease →
      operation.token? = some carried → (lease ≠ ⟨none, none⟩ → lease.holds state.worker = true) →
        carried = token (tenure rows) := by
    intro lease carried hlease htoken hholds
    obtain ⟨rfl, hcarries⟩ := Operation.carries hlease htoken
    exact hfollows.eq_token (hholds hcarries)
  intro carried htoken
  generalize hfact : row.fact = fact at h happlies ⊢
  cases h with
  | orphaned terminal =>
      cases happlies with
      | orphaned hworker hepoch hheld hexpired =>
          obtain ⟨before, hbefore, hserves⟩ := hfollows.serves hworker
          refine .inr ⟨terminal, before, rfl, hbefore, ?_⟩
          rw [Tenure.EndedBy, hfact]
          exact ⟨⟨Option.some.inj (hserves.workerId.symm.trans hworker),
            hserves.leaseEpoch.symm.trans hepoch⟩, hserves.isDue hheld hexpired⟩
  | attached lease => cases htoken
  | heartbeat hworker hepoch =>
      cases happlies with
      | heartbeat hnames hcurrent _ =>
          obtain rfl := Option.some.inj htoken
          exact .inl (hnamed (hworker ▸ hnames) (hcurrent.trans hepoch))
  | drainRequested hoperation hworker hepoch =>
      cases happlies with
      | drainRequested hnames hcurrent _ =>
          rcases hoperation with rfl | rfl <;> obtain rfl := Option.some.inj htoken <;>
            exact .inl (hnamed (hworker ▸ hnames) (hcurrent.trans hepoch))
  | parked hoperation hworker hepoch =>
      cases happlies with
      | parked hnames hcurrent _ =>
          rcases hoperation with ⟨_, rfl, rfl⟩ | ⟨_, rfl, rfl⟩ <;>
            obtain rfl := Option.some.inj htoken <;>
              exact .inl (hnamed (hworker ▸ hnames) (hcurrent.trans hepoch))
  | retired hworker hepoch =>
      cases happlies with
      | retired hnames hcurrent =>
          obtain rfl := Option.some.inj htoken
          exact .inl (hnamed (hworker ▸ hnames) (hcurrent.trans hepoch))
  | creation hfact => cases htoken
  | turnRequested hcontinuable hseen =>
      exact .inl (hturn rfl htoken fun hcarries =>
        hcontinuable.leased fun hunassigned => hcarries (hcontinuable.unassigned hunassigned))
  | cancelRequested hcontinuable =>
      exact .inl (hturn rfl htoken fun hcarries =>
        hcontinuable.leased fun hunassigned => hcarries (hcontinuable.unassigned hunassigned))
  | dispatchStarted hgoesOn =>
      exact .inl (hturn rfl htoken fun hcarries => hgoesOn.holds rfl hcarries (happlies.live rfl))
  | eventRecorded hlease hgoesOn =>
      exact .inl (hturn hlease htoken fun hcarries =>
        hgoesOn.holds hlease hcarries (happlies.live rfl))
  | outcomeUncertain hlease hseen hlive =>
      refine .inl (hturn hlease htoken fun hcarries => ?_)
      simpa [keepsLease, hlease, hlive, hcarries] using hseen

end

/-! ## Runs -/

/-- No dispatch is recorded that the stream holds already, and a turn that reads the session
back finds its worker there. -/
def uncontested (sessionId : Identifier) (pool : SessionPool sessionId) : Act Call Input → Bool
  | .perform index _ =>
      match pool.threads[index]? with
      | some ⟨_, .ask (.append _ row) _⟩ =>
          !(row.fact.isDispatch && decide (row ∈ pool.shared.rows))
      | some ⟨call, .ask (.read reader) _⟩ =>
          match read sessionId pool.shared.rows with
          | .ok state => keepsLease call.operation reader state
          | .error _ => true
      | _ => true
  | _ => true

section

variable {sessionId : Identifier} {pool next : SessionPool sessionId} {index : Nat} {input : Input}

/-- The runs whose acts are all uncontested. -/
abbrev Uncontested (sessionId : Identifier) (pool : SessionPool sessionId) (act : Act Call Input) :
    Prop :=
  uncontested sessionId pool act = true

theorem uncontested_showsSeen :
    ShowsSeen (fun operation reader state => keepsLease operation reader state = true)
      (Uncontested sessionId) := by
  intro pool index input call reader following state hallowed hthread hread
  simpa only [Uncontested, uncontested, hthread, hread] using hallowed

theorem uncontested_isFresh {call : Call} {request : Request}
    {following : Reply request → Process Request Reply (Result Outcome)}
    (hallowed : Uncontested sessionId pool (.perform index input))
    (hthread : pool.threads[index]? = some ⟨call, .ask request following⟩) :
    request.IsFresh pool.shared.rows := by
  cases request with
  | append expectedVersion row =>
      intro hdispatch
      simpa [Uncontested, uncontested, hthread, hdispatch] using hallowed
  | _ => trivial

/-- The sends, and those that the operations are entitled to, stay within the dispatches. -/
def Covered (shared : Shared) (total : Int) : Prop := shared.sends + total ≤ dispatches shared.rows

theorem uncontested_covered {call : Call} {request : Request}
    {following : Reply request → Process Request Reply (Result Outcome)} {reply : Reply request}
    {shared : Shared} {total ghost : Int}
    (hallowed : Uncontested sessionId pool (.perform index input))
    (hperforms : System.Performs pool index input call request following reply shared)
    (h : Covered pool.shared (total + ghost)) : Covered shared (total + entitle request reply ghost) := by
  have haccount := answer_entitles hperforms.answered
    (uncontested_isFresh hallowed hperforms.thread) ghost
  rw [Covered] at h ⊢
  omega

def uncontestedDiscipline (sessionId : Identifier) :
    System.Discipline Int (sessions sessionId) (Uncontested sessionId) :=
  discipline (fun operation reader state => keepsLease operation reader state = true) Covered
    uncontested_showsSeen
    (fun hle h => (Int.add_le_add_left hle _).trans h) uncontested_covered

theorem uncontested_holds (hreach : (sessions sessionId).Reaches (Uncontested sessionId)
    (idle sessionId) pool) : (uncontestedDiscipline sessionId).Holds pool := by
  refine System.Discipline.Holds.reaches (holds_idle ?_) hreach
  exact ⟨⟨_, rfl⟩, by simp, by simp [Covered, dispatches]⟩

/-- In every uncontested run the stream of a session is accepted, its turn is sent at most once
and only once its dispatch is durable, each worker follows the one before it, operations of
another worker record nothing but its orphaning, and nothing follows a terminal fact that a
live session records. -/
theorem uncontested_safe (hreach : (sessions sessionId).Reaches (Uncontested sessionId)
      (idle sessionId) pool) :
    (∃ state, read sessionId pool.shared.rows = .ok state) ∧
      pool.shared.sends ≤ dispatches pool.shared.rows ∧ dispatches pool.shared.rows ≤ 1 ∧
        AttachmentsFollow pool.shared.rows ∧ QuietAfterTerminal pool.shared.rows ∧
          ∀ index input next thread, Uncontested sessionId pool (.perform index input) →
            (sessions sessionId).act pool (.perform index input) = .ok next →
              pool.threads[index]? = some thread →
                FencedStep thread.call.operation pool.shared.rows next.shared.rows := by
  have hholds := uncontested_holds hreach
  obtain ⟨members, hkeeps⟩ := hholds
  obtain ⟨⟨state, hread⟩, hnonneg, hcovered⟩ := hkeeps.together
  have hsends : pool.shared.sends ≤ dispatches pool.shared.rows := by
    have hsum := List.sum_nonneg hnonneg
    rw [Covered] at hcovered
    omega
  refine ⟨⟨state, hread⟩, hsends, (read_dispatchedOnce hread).once, read_attachmentsFollow hread,
    read_quietAfterTerminal hread, ?_⟩
  intro index input next thread hallowed hact hthread
  have hrecords := Holds.records (fun operation reader state => keepsLease operation reader state = true)
    ⟨members, hkeeps⟩ (fun _ => rfl) hallowed hact hthread
  rcases hrecords with hsame | ⟨before, row, after, hbefore, happlied, hrows, hemits, -⟩
  · exact .inl hsame
  · exact .inr ⟨row, hrows, hemits.fenced hbefore happlied⟩

end

/-- A turn that is requested by one host, sent and completed. -/
def sampleTurnActs : List (Act Call Input) :=
  sampleCreate ++ [.start sampleSend] ++ sampleReattach 1 ++ sampleAppend 1 0 ++ sampleAppend 1 0 ++
    [.perform 1 .go]

theorem uncontested_safe_sample : ∃ pool, (sessions sampleSession).Reaches
    (Uncontested sampleSession) (idle sampleSession) pool ∧ pool.shared.sends = 1 ∧
      dispatches pool.shared.rows ≤ 1 := by
  have hruns : runsTo ((sessions sampleSession).actIf (uncontested sampleSession))
      (idle sampleSession) sampleTurnActs (fun pool => pool.shared.sends = 1) = true := by
    decide +kernel
  obtain ⟨pool, hrun, hsends⟩ := runsTo_iff.mp hruns
  have hreach := System.reaches_of_run hrun
  exact ⟨pool, hreach, of_decide_eq_true hsends, (uncontested_safe hreach).2.2.1⟩

/-- Two hosts that were asked for one turn in the same millisecond. -/
def sampleDuplicateActs : List (Act Call Input) :=
  sampleCreate ++ [.start sampleSend] ++ sampleReattach 1 ++ sampleAppend 1 0 ++
    [.start sampleSend] ++ sampleReattach 2 ++
    [.perform 1 (.instant 0), .perform 1 .go, .perform 2 (.instant 0), .perform 2 .go,
      .perform 1 .go, .perform 2 .go, .perform 1 .go, .perform 2 .go, .perform 1 .go,
      .perform 2 .go]

/-- A worker that is replaced between the two appends of its turn. -/
def sampleStaleActs : List (Act Call Input) :=
  let claim (requestId workerId : Identifier) : Call :=
    ⟨sampleHost, .claimWorker ⟨requestId, workerId, 1000⟩⟩
  let first : Lease := ⟨some ⟨"first", Eq.refl true⟩, some 1⟩
  sampleCreate ++
    [.start (claim ⟨"claim-1", Eq.refl true⟩ ⟨"first", Eq.refl true⟩), .perform 1 .go,
      .perform 1 (.instant 0), .perform 1 .go, .perform 1 .go, .perform 1 .go,
      .start ⟨sampleHost, .resumeAndSend ⟨sampleTurn, first⟩⟩, .perform 2 .go,
      .perform 2 (.instant 0), .perform 2 .go, .perform 2 (.manifest sampleManifest),
      .perform 2 (.operation ⟨"runtime", true, false⟩), .perform 2 .go, .perform 2 (.instant 0),
      .perform 2 (.instant 0), .perform 2 .go, .perform 2 .go,
      .start (claim ⟨"claim-2", Eq.refl true⟩ ⟨"second", Eq.refl true⟩), .perform 3 .go,
      .perform 3 (.instant 1000), .perform 3 .go, .perform 3 .go, .perform 3 .go,
      .perform 3 .go, .perform 3 .go, .perform 3 .go,
      .perform 2 .go, .perform 2 (.instant 1000), .perform 2 .go]

/-- The next request of a thread records the dispatch of a worker that is not the session's. -/
def recordsStaleDispatch (sessionId : Identifier) (index : Nat) (pool : SessionPool sessionId) :
    Bool :=
  match (sessions sessionId).act pool (.perform index .go), pool.threads[index]? with
  | .ok next, some thread =>
      thread.call.operation.token?.any (fun lease => lease ≠ token (tenure pool.shared.rows)) &&
        next.shared.rows.getLast?.any (·.fact.isDispatch) &&
          next.shared.rows.length = pool.shared.rows.length + 1
  | _, _ => false

/-- The ledger takes the second of two equal dispatches for the first, so that both hosts send
the turn, and a worker that was replaced since its turn was recorded dispatches it. -/
theorem dispatch_twice_or_stale :
    (∃ pool, (sessions sampleSession).Reaches (fun _ _ => True) (idle sampleSession) pool ∧
      pool.shared.sends = 2) ∧
    ∃ pool next thread, (sessions sampleSession).Reaches (fun _ _ => True) (idle sampleSession) pool ∧
      (sessions sampleSession).act pool (.perform 2 .go) = .ok next ∧
        pool.threads[2]? = some thread ∧
          ¬ FencedStep thread.call.operation pool.shared.rows next.shared.rows := by
  have htwice : runsTo ((sessions sampleSession).actIf fun _ _ => true)
      (idle sampleSession) sampleDuplicateActs (fun pool => pool.shared.sends = 2) = true := by
    decide +kernel
  have hstale : runsTo ((sessions sampleSession).actIf fun _ _ => true)
      (idle sampleSession) sampleStaleActs (recordsStaleDispatch sampleSession 2) = true := by
    decide +kernel
  constructor
  · obtain ⟨pool, hrun, hsends⟩ := runsTo_iff.mp htwice
    exact ⟨pool, (System.reaches_of_run hrun).mono fun _ _ _ => trivial, of_decide_eq_true hsends⟩
  · obtain ⟨pool, hrun, hrecords⟩ := runsTo_iff.mp hstale
    rw [recordsStaleDispatch] at hrecords
    split at hrecords
    next next thread hact hthread =>
      refine ⟨pool, next, thread, (System.reaches_of_run hrun).mono fun _ _ _ => trivial, hact,
        hthread, ?_⟩
      simp only [Bool.and_eq_true, Option.any_eq_true, decide_eq_true_eq] at hrecords
      obtain ⟨⟨⟨lease, htoken, hstale⟩, last, hlast, hdispatch⟩, hlength⟩ := hrecords
      rintro (hsame | ⟨row, hrows, hfenced⟩)
      · rw [hsame] at hlength
        omega
      · rw [hrows, List.getLast?_concat, Option.some.injEq] at hlast
        rcases hfenced lease htoken with hcurrent | ⟨terminal, before, hfact, -⟩
        · exact hstale hcurrent
        · rw [← hlast, hfact] at hdispatch
          cases hdispatch
    next => cases hrecords

end Hseos.Delegated
