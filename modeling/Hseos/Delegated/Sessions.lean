import Hseos.Delegated.Emissions
import Hseos.Delegated.Tenure
import Mathlib.Algebra.BigOperators.Group.List.Basic

/-! # Runs of a session

The calls of any number of hosts on one session, one request at a time. Every run keeps
the stream accepted, and sends no more than dispatches have been recorded.
-/

namespace Hseos.Delegated

/-! ## Entitlements -/

section

variable {sessionId : Identifier} {request : Request} {input : Input} {shared next : Shared}
  {reply : Reply request}

/-- The request does not record a dispatch that is there already. -/
def Request.IsFresh (rows : List Row) : Request → Prop
  | .append _ row => row.fact.isDispatch = true → row ∉ rows
  | _ => True

/-- A request moves an entitlement between the stream, the operation and the sends. -/
theorem answer_entitles (h : answer sessionId request input shared = some (reply, next))
    (hfresh : request.IsFresh shared.rows) (sends : Int) :
    next.sends + entitle request reply sends - dispatches next.rows =
      shared.sends + sends - dispatches shared.rows := by
  cases request with
  | append expectedVersion row =>
      rcases answer_append h with ⟨hstays, hmem, rfl⟩ | ⟨rfl, -, rfl⟩
      · cases reply with
        | error err => rfl
        | ok idempotent =>
            have hdispatch : row.fact.isDispatch = false := by
              cases idempotent with
              | false => exact absurd rfl hstays
              | true => exact Bool.eq_false_iff.mpr fun hdispatch => hfresh hdispatch (hmem rfl)
            simp [entitle, hdispatch]
      · rw [dispatches_snoc]
        cases hdispatch : row.fact.isDispatch <;> simp [entitle, hdispatch]
        omega
  | send =>
      cases input <;> simp [answer] at h
      obtain ⟨rfl, rfl⟩ := h
      simp [entitle]
  | _ =>
      cases input <;> simp [answer] at h <;> obtain ⟨rfl, rfl⟩ := h <;> simp [entitle]

/-- A dispatch that an operation is entitled by is durable. -/
theorem answer_dispatched (h : answer sessionId request input shared = some (reply, next))
    {sends : Int} (hentitled : 0 < next.sends + entitle request reply sends) :
    0 < shared.sends + sends ∨ 0 < dispatches next.rows := by
  by_cases hfresh : request.IsFresh shared.rows
  · have haccount := answer_entitles h hfresh sends
    omega
  · cases request with
    | append expectedVersion row =>
        obtain ⟨hdispatch, hmem⟩ : row.fact.isDispatch = true ∧ row ∈ shared.rows := by
          simpa [Request.IsFresh] using hfresh
        right
        have hpast : 0 < dispatches shared.rows := List.countP_pos_iff.mpr ⟨row, hmem, hdispatch⟩
        rcases answer_append h with ⟨-, -, rfl⟩ | ⟨-, -, rfl⟩
        · exact hpast
        · rw [dispatches_snoc]
          omega
    | _ => exact absurd trivial hfresh

end

theorem sum_set_getElem? {ghosts : List Int} {index : Nat} {ghost value : Int}
    (h : ghosts[index]? = some ghost) :
    (ghosts.set index value).sum = ghosts.sum - ghost + value := by
  obtain ⟨hindex, rfl⟩ := List.getElem?_eq_some_iff.mp h
  rw [List.sum_set', dif_pos hindex]
  omega

theorem sum_eraseIdx_le {ghosts : List Int} (h : ∀ ghost ∈ ghosts, 0 ≤ ghost) (index : Nat) :
    (ghosts.eraseIdx index).sum ≤ ghosts.sum := by
  by_cases hindex : index < ghosts.length
  · have hghost := h _ (List.getElem_mem hindex)
    have hsum := List.CommMonoid.add_sum_eraseIdx hindex
    omega
  · rw [List.eraseIdx_of_length_le (Nat.le_of_not_lt hindex)]

/-! ## Disciplines -/

section

variable {sessionId : Identifier}

abbrev SessionPool (sessionId : Identifier) := (sessions sessionId).PoolOf

/-- What a run allows shows the operations only states that `seen` holds of. -/
def ShowsSeen (seen : Operation → Reader → State → Prop)
    (allowed : SessionPool sessionId → Act Call Input → Prop) : Prop :=
  ∀ {pool : SessionPool sessionId} {index input call reader following state},
    allowed pool (.perform index input) →
      pool.threads[index]? = some ⟨call, .ask (.read reader) following⟩ →
        read sessionId pool.shared.rows = .ok state → seen call.operation reader state

/-- What holds of the stream and of what the operations are entitled to send. -/
structure Together (sessionId : Identifier) (account : Shared → Int → Prop) (shared : Shared)
    (ghosts : List Int) : Prop where
  accepted : ∃ state, read sessionId shared.rows = .ok state
  nonneg : ∀ ghost ∈ ghosts, 0 ≤ ghost
  account : account shared ghosts.sum

variable {seen : Operation → Reader → State → Prop}
  {allowed : SessionPool sessionId → Act Call Input → Prop} {account : Shared → Int → Prop}

theorem Records.accepted {operation : Operation} {shared next : Shared}
    (h : Records sessionId (seen operation) operation shared next)
    (haccepted : ∃ state, read sessionId shared.rows = .ok state) :
    ∃ state, read sessionId next.rows = .ok state := by
  rcases h with hsame | ⟨state, row, after, hread, happlied, hrows, -⟩
  · exact hsame ▸ haccepted
  · exact ⟨after, hrows ▸ read_snoc hread happlied⟩

theorem Records.grows {operation : Operation} {shared next : Shared}
    (h : Records sessionId (seen operation) operation shared next) : shared.rows <+: next.rows := by
  rcases h with hsame | ⟨state, row, after, -, -, hrows, -⟩
  · exact hsame ▸ List.prefix_rfl
  · exact hrows ▸ List.prefix_append _ _

theorem Waits.grown {operation : Operation} {outcome : Outcome} {view next : View}
    (h : Waits sessionId (seen operation) operation outcome view) (hgrown : Grown view next) :
    Waits sessionId (seen operation) operation outcome next := by
  cases outcome with
  | settled state => trivial
  | draining draining =>
      obtain ⟨lease, hlease, hturns⟩ := h
      exact ⟨lease, hlease, hturns.1.grown hgrown, hturns.2⟩

section

variable {shared next : Shared} {ghosts : List Int}

theorem Together.snoc (h : Together sessionId account shared ghosts) :
    Together sessionId account shared (ghosts ++ [0]) where
  accepted := h.accepted
  nonneg ghost hghost := by
    rcases List.mem_append.mp hghost with hghost | hghost
    · exact h.nonneg ghost hghost
    · exact (List.mem_singleton.mp hghost).ge
  account := by
    rw [List.sum_append, List.sum_singleton, Int.add_zero]
    exact h.account

theorem Together.erase (h : Together sessionId account shared ghosts)
    (hless : ∀ {total total'}, total' ≤ total → account shared total → account shared total')
    (index : Nat) : Together sessionId account shared (ghosts.eraseIdx index) where
  accepted := h.accepted
  nonneg ghost hghost := h.nonneg ghost (List.mem_of_mem_eraseIdx hghost)
  account := hless (sum_eraseIdx_le h.nonneg index) h.account

theorem Together.set {index : Nat} {ghost value : Int} (h : Together sessionId account shared ghosts)
    (hghost : ghosts[index]? = some ghost) (hvalue : 0 ≤ value)
    (haccepted : ∃ state, read sessionId next.rows = .ok state)
    (haccount : ∀ total, account shared (total + ghost) → account next (total + value)) :
    Together sessionId account next (ghosts.set index value) where
  accepted := haccepted
  nonneg other hother := by
    rcases List.mem_or_eq_of_mem_set hother with hother | rfl
    · exact h.nonneg other hother
    · exact hvalue
  account := by
    rw [sum_set_getElem? hghost]
    apply haccount
    rw [Int.sub_add_cancel]
    exact h.account

end

theorem observed_of_performs (hseen : ShowsSeen seen allowed) {pool : SessionPool sessionId}
    {index : Nat} {input : Input} {call : Call} {request : Request}
    {following : Reply request → Process Request Reply (Result Outcome)} {reply : Reply request}
    {shared : Shared} (hallowed : allowed pool (.perform index input))
    (hperforms : System.Performs pool index input call request following reply shared) :
    Observed (seen call.operation) request reply := by
  cases request with
  | read reader =>
      cases reply with
      | ok state => exact hseen hallowed hperforms.thread (answer_read hperforms.answered)
      | error err => trivial
  | _ => trivial

/-- The loop of a turn goes on from the state of its last round. -/
theorem secures_again {call : Call} {value : Result Outcome}
    {process : Process Request Reply (Result Outcome)} {view : View}
    (hpost : Program.Ends (Waits sessionId (seen call.operation) call.operation) (fun _ _ => True)
      value view)
    (hagain : (sessions sessionId).again call value = some process) :
    Process.Secures (setting sessionId (seen call.operation) call.operation)
      (Program.Ends (Waits sessionId (seen call.operation) call.operation) fun _ _ => True)
      process view := by
  cases value with
  | error err => cases hagain
  | ok outcome =>
      cases outcome with
      | settled state => cases hagain
      | draining draining =>
          obtain ⟨lease, hlease, hturns⟩ := hpost
          obtain rfl := Option.some.inj hagain
          exact secures_drainToTerminal hlease hturns

/-- The discipline of a session: what the operations record, with an account of the sends. -/
def discipline (seen : Operation → Reader → State → Prop) (account : Shared → Int → Prop)
    (hseen : ShowsSeen seen allowed)
    (hless : ∀ {shared total total'}, total' ≤ total → account shared total → account shared total')
    (hbooked : ∀ {pool : SessionPool sessionId} {index input call request following reply shared total ghost},
      allowed pool (.perform index input) →
        System.Performs pool index input call request following reply shared →
          account pool.shared (total + ghost) → account shared (total + entitle request reply ghost)) :
    System.Discipline Int (sessions sessionId) allowed where
  setting call := setting sessionId (seen call.operation) call.operation
  post call := Program.Ends (Waits sessionId (seen call.operation) call.operation) fun _ _ => True
  together := Together sessionId account
  initial := 0
  book := entitle
  refl _ _ := ⟨List.prefix_rfl, rfl⟩
  trans _ _ _ _ := Grown.trans
  stable _ result _ _ hgrown h := by
    cases result with
    | ok outcome => exact Waits.grown h hgrown
    | error err => trivial
  invariant _ _ _ _ htogether hghost := ⟨htogether.accepted, htogether.nonneg _ hghost⟩
  joins h := h.snoc
  leaves index h := h.erase hless index
  answers _ hallowed hperforms :=
    ⟨⟨_, hperforms.answered⟩, rfl, observed_of_performs hseen hallowed hperforms⟩
  kept hallowed hperforms htogether hghost hguarantee :=
    htogether.set hghost hguarantee.2 (hguarantee.1.accepted htogether.accepted)
      fun _ => hbooked hallowed hperforms
  relies _ _ _ _ _ hguarantee := ⟨hguarantee.1.grows, rfl⟩
  starts _ := secures_programOf
  resumes _ hpost hagain := secures_again hpost hagain

end

/-! ## Runs -/

/-- A session before its first call. -/
def idle (sessionId : Identifier) : SessionPool sessionId := ⟨⟨[], 0⟩, []⟩

section

variable {sessionId : Identifier} {allowed : SessionPool sessionId → Act Call Input → Prop}
  {d : System.Discipline Int (sessions sessionId) allowed} {pool next : SessionPool sessionId}

theorem holds_idle (htogether : d.together ⟨[], 0⟩ []) : d.Holds (idle sessionId) :=
  ⟨[], rfl, htogether, by simp⟩

/-- What a request leaves is the stream, or an accepted row of the operation more. -/
theorem Holds.records (seen : Operation → Reader → State → Prop) {index : Nat} {input : Input} {thread : (sessions sessionId).ThreadOf}
    (h : d.Holds pool)
    (hsetting : ∀ call, d.setting call = setting sessionId (seen call.operation) call.operation)
    (hallowed : allowed pool (.perform index input))
    (hact : (sessions sessionId).act pool (.perform index input) = .ok next)
    (hthread : pool.threads[index]? = some thread) :
    Records sessionId (seen thread.call.operation) thread.call.operation pool.shared
      next.shared := by
  obtain ⟨call, request, following, reply, shared, hperforms, rfl⟩ :=
    System.act_perform_eq_ok_iff.mp hact
  obtain rfl := Option.some.inj (hthread.symm.trans hperforms.thread)
  obtain ⟨members, hkeeps⟩ := h
  obtain ⟨ghost, hmember⟩ := hkeeps.member hperforms.thread
  have hguarantee := (hkeeps.performed hallowed hperforms hmember).1
  rw [hsetting] at hguarantee
  exact hguarantee.1

/-- What holds of the empty stream and of each row that an operation adds holds of the stream of
every run. -/
theorem reaches_rows (seen : Operation → Reader → State → Prop) {P : List Row → Prop}
    (hsetting : ∀ call, d.setting call = setting sessionId (seen call.operation) call.operation)
    (htogether : d.together ⟨[], 0⟩ []) (hempty : P [])
    (hstep : ∀ {operation state row after rows}, P rows → read sessionId rows = .ok state →
      applyFact state row = .ok after → Emits (seen operation) operation state row.fact →
        Written state row → P (rows ++ [row]))
    (hreach : (sessions sessionId).Reaches allowed (idle sessionId) pool) :
    P pool.shared.rows := by
  induction hreach with
  | start => exact hempty
  | @step mid next act hmid hallowed hact ih =>
      cases act with
      | perform index input =>
          obtain ⟨call, request, following, reply, shared, hperforms, -⟩ :=
            System.act_perform_eq_ok_iff.mp hact
          have hrecords := Holds.records seen ((holds_idle htogether).reaches hmid) hsetting hallowed
            hact hperforms.thread
          rcases hrecords with hsame | ⟨state, row, after, hread, happlied, hrows, hemits⟩
          · exact hsame ▸ ih
          · exact hrows ▸ hstep ih hread happlied hemits.1 hemits.2
      | start call => exact Except.ok.inj hact ▸ ih
      | resume index =>
          obtain ⟨call, value, process, -, -, rfl⟩ := System.act_resume_eq_ok hact
          exact ih
      | stop index => exact Except.ok.inj hact ▸ ih

end

/-! ## A sample session -/

def sampleSession : Identifier := ⟨"session", Eq.refl true⟩

def sampleSpec : AgentSessionSpec where
  sessionId := sampleSession
  agentId := ⟨"agent", Eq.refl true⟩
  parentSessionId := none
  authorityRef := ⟨"authority", Eq.refl true⟩
  policyRef := ⟨"policy", Eq.refl true⟩
  execution := .delegated ⟨"provider", Eq.refl true⟩ ⟨"profile", Eq.refl true⟩
  limits := ⟨1, 1, 1, 1, 1, 1⟩
  metadata := .obj []

def sampleManifest : RuntimeProviderManifest := ⟨⟨"provider", Eq.refl true⟩, .obj []⟩

def sampleEvent (sequence : Nat) (payload : RuntimePayload) : RuntimeEvent where
  providerId := ⟨"provider", Eq.refl true⟩
  runtimeSessionId := "runtime"
  sequence := sequence
  occurredAt := ⟨"2026-01-31T09:30:00Z", Eq.refl true⟩
  payload := payload

def sampleHost : Host := ⟨.obj []⟩

def sampleTrace : String := "0123456789abcdef0123456789abcdef"

/-- The requests of an append by one thread. -/
def sampleAppend (index : Nat) (now : Int) : List (Act Call Input) :=
  [.perform index (.instant now), .perform index .go, .perform index .go, .perform index .go]

def sampleCreate : List (Act Call Input) :=
  [.start ⟨sampleHost, .create ⟨⟨"create", Eq.refl true⟩, sampleSpec, some sampleTrace⟩⟩,
    .perform 0 .go] ++
  sampleAppend 0 0 ++
  [.perform 0 .go, .perform 0 (.operation ⟨"runtime", true, false⟩),
    .perform 0 (.manifest sampleManifest)] ++
  sampleAppend 0 0 ++
  [.perform 0 (.event (sampleEvent 1 (.sessionStarted sampleSession)))] ++
  sampleAppend 0 0

def sampleTurn : TurnRequest where
  requestId := ⟨"turn", Eq.refl true⟩
  turnId := ⟨"turn-1", Eq.refl true⟩
  message := { role := .user, content := "go" }

def sampleSend : Call :=
  ⟨sampleHost, .resumeAndSend ⟨sampleTurn, ⟨none, none⟩⟩⟩

/-- The requests of one thread that reattaches to a session without a worker. -/
def sampleReattach (index : Nat) : List (Act Call Input) :=
  [.perform index .go, .perform index .go, .perform index (.manifest sampleManifest),
    .perform index (.operation ⟨"runtime", true, false⟩), .perform index .go]

end Hseos.Delegated
