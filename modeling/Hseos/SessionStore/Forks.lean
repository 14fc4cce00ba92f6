import Hseos.SessionStore.Retries

/-! # Forks

What a successful fork did, and that it can be repeated while parent and child can
be read.
-/

namespace Hseos.SessionStore

variable {base table later : Table} {view : View} {storeActor : Json} {memory : Memory}
  {request : ForkRequest} {parentTrace : SessionTrace} {attached : SessionEvent}
  {children : List SessionEvent} {written : Written ForkReceipt}

/-! ## A fork that is done -/

/-- What a fork works out before it prepares its two appends. -/
structure Fork where
  sourceRows : List SessionRow
  parentState : SessionState
  trace : SessionTrace
  attached : SessionEvent
  children : List SessionEvent
  parentPrepared : PreparedAppend
  childPrepared : PreparedAppend

/-- The rows that the fork finds in the parent's stream. -/
def attachmentIn (table : Table) (request : ForkRequest) : Option SessionEvent :=
  existingAttachment (table.stream request.parentSessionId) request.childSpec.sessionId

namespace Fork

/-- The append to the parent. -/
def parentAppend (fork : Fork) (table : Table) (request : ForkRequest) : AppendRequest :=
  SessionStore.parentAppend request fork.sourceRows
    (attachmentSequence (attachmentIn table request) (table.stream request.parentSessionId))
    fork.trace fork.attached

/-- The append to the child. -/
def childAppend (fork : Fork) (request : ForkRequest) : AppendRequest :=
  SessionStore.childAppend request fork.trace fork.children

end Fork

/-- The checks of the fork passed, and both of its appends were prepared. -/
structure ForkPrepared (table : Table) (storeActor : Json) (request : ForkRequest) (fork : Fork) :
    Prop where
  source : readSession table request.parentSessionId (some request.parentSequence) =
    .ok fork.sourceRows
  sequence : fork.sourceRows.length = request.parentSequence
  readable : assertSessionCausation table (table.stream request.parentSessionId) = .ok ()
  replayed : ∃ realm realm', run replayStep ⟨realm, .initial⟩ (table.events request.parentSessionId) =
    .ok ⟨realm', fork.parentState⟩
  checked : assertFork request fork.parentState (attachmentIn table request) = .ok ()
  trace : traceContext table request.parentSessionId = .ok fork.trace
  traced : assertForkTrace request fork.trace = .ok ()
  attached : attachedEvent request (attachmentSequence (attachmentIn table request)
    (table.stream request.parentSessionId)) = .ok fork.attached
  children : childEvents request = .ok fork.children
  parent : ∃ correlation causation, Prepared table storeActor (fork.parentAppend table request) none
    correlation causation fork.parentPrepared
  child : ∃ correlation causation, Prepared table storeActor (fork.childAppend request)
    (some fork.parentPrepared) correlation causation fork.childPrepared
  parentUnique : (ledgerPrepare fork.parentPrepared) = .ok fork.parentPrepared.rowValues
  childUnique : (ledgerPrepare fork.childPrepared) = .ok fork.childPrepared.rowValues

/-- Both appends were settled, the child's after the parent's. -/
structure ForkDone (view : View) (storeActor : Json) (request : ForkRequest)
    (written : Written ForkReceipt) : Prop where
  settled : ∃ fork middle receipt, ForkPrepared view.table storeActor request fork ∧
    Settles view.table (fork.parentAppend view.table request) fork.parentPrepared
      receipt.parent.idempotent middle ∧
    Settles middle (fork.childAppend request) fork.childPrepared receipt.child.idempotent
      written.table ∧
    written.result = .ok receipt

/-! ## What the checks say -/

theorem assertFork_eq_ok {parentState : SessionState} {attachment : Option SessionEvent} {u : Unit}
    (h : assertFork request parentState attachment = .ok u) :
    request.childSpec.valid = true ∧
      request.childSpec.parentSessionId = some request.parentSessionId ∧
      ∃ parentSpec, parentState.spec = some parentSpec ∧
        assertAttenuated parentSpec request.childSpec = .ok () ∧
        (request.childRequest.isSome && request.eventIds.requested.isNone) = false ∧
        ∀ event ∈ attachment, event.eventId = request.eventIds.attached := by
  obtain ⟨hvalid, h⟩ := reject_bind_eq_ok_iff.mp h
  obtain ⟨hparent, h⟩ := reject_bind_eq_ok_iff.mp h
  cases hspec : parentState.spec with
  | none =>
      rw [hspec] at h
      cases h
  | some parentSpec =>
      rw [hspec] at h
      obtain ⟨⟨⟩, hattenuated, h⟩ := bind_eq_ok_iff.mp h
      obtain ⟨hrequested, h⟩ := reject_bind_eq_ok_iff.mp h
      obtain ⟨hattachment, -⟩ := reject_bind_eq_ok_iff.mp h
      refine ⟨by simpa using hvalid, by simpa using hparent, parentSpec, rfl, hattenuated, hrequested,
        ?_⟩
      rintro event rfl
      simpa using hattachment

theorem child_ne_parent (hvalid : request.childSpec.valid = true)
    (hparent : request.childSpec.parentSessionId = some request.parentSessionId) :
    request.childSpec.sessionId ≠ request.parentSessionId := by
  simp only [AgentSessionSpec.valid, Bool.and_eq_true, decide_eq_true_eq] at hvalid
  rw [hparent] at hvalid
  exact fun hsame => hvalid.2 (by rw [hsame])

theorem parseEvent_eq_ok {eventId sessionId : Identifier} {sequence : Nat} {occurredAt : Timestamp}
    {payload : SessionPayload} {event : SessionEvent}
    (h : parseEvent eventId sessionId sequence occurredAt payload = .ok event) :
    event.eventId = eventId ∧ event.sessionId = sessionId ∧ event.sequence = sequence ∧
      event.payload = payload := by
  unfold parseEvent at h
  split at h
  · obtain rfl := Except.ok.inj h
    exact ⟨rfl, rfl, rfl, rfl⟩
  · cases h

theorem attachedEvent_eq_ok {sequence : Nat} (h : attachedEvent request sequence = .ok attached) :
    attached.eventId = request.eventIds.attached ∧ attached.sequence = sequence ∧
      attached.payload =
        .childAttached request.childSpec.sessionId request.childSpec.authorityRef := by
  obtain ⟨hid, -, hsequence, hpayload⟩ := parseEvent_eq_ok h
  exact ⟨hid, hsequence, hpayload⟩

/-- A new child starts with its creation, the fork and the request that is asked of it. -/
theorem childEvents_eq_ok (h : childEvents request = .ok children) :
    children.map (·.payload) = .sessionCreated request.childSpec ::
      .sessionForked ⟨request.parentSessionId, request.parentSequence⟩ ::
        (match request.childRequest, request.eventIds.requested with
        | some payload, some _ => [SessionPayload.subagentRequested payload]
        | _, _ => []) := by
  obtain ⟨created, hcreated, h⟩ := bind_eq_ok_iff.mp h
  obtain ⟨forked, hforked, h⟩ := bind_eq_ok_iff.mp h
  have hcreated := (parseEvent_eq_ok hcreated).2.2.2
  have hforked := (parseEvent_eq_ok hforked).2.2.2
  cases hrequest : request.childRequest with
  | none =>
      rw [hrequest] at h
      rw [← pure_eq_ok_iff.mp h]
      simp [hcreated, hforked]
  | some payload =>
      cases hid : request.eventIds.requested with
      | none =>
          rw [hrequest, hid] at h
          rw [← pure_eq_ok_iff.mp h]
          simp [hcreated, hforked]
      | some requestedId =>
          rw [hrequest, hid] at h
          obtain ⟨requested, hrequested, h⟩ := bind_eq_ok_iff.mp h
          rw [← pure_eq_ok_iff.mp h]
          simp [hcreated, hforked, (parseEvent_eq_ok hrequested).2.2.2]

theorem realmFree_of_payloads {events : List SessionEvent}
    (h : ∀ event ∈ events, ∀ record, event.payload ≠ .compactionCompleted record) :
    RealmFree events := by
  intro event hevent
  unfold SessionEvent.usesRealm
  split
  next record hpayload => exact absurd hpayload (h event hevent record)
  next => rfl

theorem realmFree_attached {sequence : Nat} (h : attachedEvent request sequence = .ok attached) :
    RealmFree [attached] := by
  apply realmFree_of_payloads
  intro event hevent record
  rw [List.mem_singleton.mp hevent, (attachedEvent_eq_ok h).2.2]
  exact nofun

theorem realmFree_children (h : childEvents request = .ok children) : RealmFree children := by
  apply realmFree_of_payloads
  intro event hevent record hpayload
  have hmem : SessionPayload.compactionCompleted record ∈ children.map (·.payload) :=
    List.mem_map.mpr ⟨event, hevent, hpayload⟩
  rw [childEvents_eq_ok h] at hmem
  split at hmem <;> simp at hmem

/-- Rows of one session leave the streams of the others alone. -/
theorem Settles.stream_of_ne {append : AppendRequest} {prepared : PreparedAppend} {idempotent : Bool}
    {other : Identifier} (h : Settles table append prepared idempotent later)
    (hne : other ≠ append.sessionId) : later.stream other = table.stream other := by
  rcases h with ⟨-, rfl, -⟩ | ⟨-, rfl, -, hextends⟩
  · rfl
  · exact Table.stream_insert_of_ne hextends.session hne

theorem fork_leads (hseen : Seen base view) :
    Attempt.Leads (Memory.Sound base view) (forkSession view storeActor request)
      (fun written m => m.Sound base view ∧ Grown view written.table m ∧
        ForkDone view storeActor request written)
      (Memory.Sound base view) := by
  have hsound := hseen.tableSound
  unfold forkSession
  refine Attempt.Leads.check (fun _ h => h) fun sourceRows hsource => ?_
  refine Attempt.Leads.bind (replayEvents_leads base view _ _) fun sourceState => ?_
  refine Attempt.Leads.check (fun _ h => h.1) fun _ hsequence => ?_
  refine Attempt.Leads.check (fun _ h => h.1) fun parentRows hparentRows => ?_
  obtain ⟨rfl, hreadable⟩ := hsound.readSession_eq_ok.mp hparentRows
  rintro memory ⟨hmemory, realm, hsourceRun⟩
  have hlength : sourceState.currentSequence = 0 + (sourceRows.map (·.event)).length :=
    run_currentSequence hsourceRun
  refine (Attempt.Leads.bind (replayEvents_leads base view _ _)
    fun parentState => ?_) memory hmemory
  rintro m ⟨hm, realm₁, hparentRun⟩
  refine (Attempt.Leads.check (P := Memory.Sound base view) (fun _ h => h)
    fun _ hchecked => ?_) m hm
  refine Attempt.Leads.check (fun _ h => h) fun trace htrace => ?_
  refine Attempt.Leads.check (fun _ h => h) fun _ htraced => ?_
  refine Attempt.Leads.check (fun _ h => h) fun attached hattached => ?_
  refine Attempt.Leads.bind (prepareAppend_leads hseen) fun parentPrepared => ?_
  rintro m₁ ⟨hm₁, hparent, -⟩
  refine (Attempt.Leads.check (P := Memory.Sound base view) (fun _ h => h)
    fun children hchildren => ?_) m₁ hm₁
  refine Attempt.Leads.bind (prepareAppend_leads hseen) fun childPrepared => ?_
  rintro m₂ ⟨hm₂, hchild, -⟩
  refine (Attempt.Leads.check (P := Memory.Sound base view) (fun _ h => h)
    fun result hresult => ?_) m₂ hm₂
  intro m₃ hm₃
  obtain ⟨candidates, hcandidates, hresult⟩ := bind_eq_ok_iff.mp hresult
  obtain ⟨others, hothers, hresult⟩ := bind_eq_ok_iff.mp hresult
  obtain ⟨⟨parentResult, middle⟩, hmiddle, hresult⟩ := bind_eq_ok_iff.mp hresult
  obtain ⟨⟨childResult, last⟩, hlast, hresult⟩ := bind_eq_ok_iff.mp hresult
  obtain rfl := pure_eq_ok_iff.mp hresult
  obtain ⟨rfl, hdistinct⟩ := ledgerPrepare_eq_ok hcandidates
  obtain ⟨rfl, hothersDistinct⟩ := ledgerPrepare_eq_ok hothers
  obtain ⟨correlation, causation, hparent⟩ := hparent
  obtain ⟨childCorrelation, childCausation, hchild⟩ := hchild
  obtain ⟨hvalid, hspecParent, -⟩ := assertFork_eq_ok hchecked
  have hne := child_ne_parent hvalid hspecParent
  have hparentSettles := hparent.settles hsound hsound rfl hdistinct hmiddle
  have hmiddleSound := hparentSettles.sound hsound
  have hchildStream := hparentSettles.stream_of_ne hne
  have hchildSettles := hchild.settles hsound hmiddleSound hchildStream hothersDistinct hlast
  have hrealmMiddle := realm_settled hm₃.realm hparent hparentSettles
    (fun _ huse => absurd (realmFree_attached hattached) huse) rfl
  have hrealmLast := realm_settled hrealmMiddle hchild hchildSettles
    (fun _ huse => absurd (realmFree_children hchildren) huse) hchildStream
  have hlastSound := hchildSettles.sound hmiddleSound
  have hparentRows := formatResult_eq_ok hmiddleSound (rows_of_appendRows hmiddle)
  have hchildRows := formatResult_eq_ok hlastSound (rows_of_appendRows hlast)
  refine ⟨hm₃, ⟨hlastSound, hparentSettles.isPrefix.trans hchildSettles.isPrefix, hrealmLast⟩, ?_⟩
  have hlength' := reject_eq_ok_iff.mp hsequence
  have hprepared : ForkPrepared view.table storeActor request
      ⟨sourceRows, parentState, trace, attached, children, parentPrepared, childPrepared⟩ :=
    { source := hsource
      sequence := by simpa [hlength] using hlength'
      readable := hreadable
      replayed := ⟨realm₁, _, hparentRun⟩
      checked := hchecked
      trace := htrace
      traced := htraced
      attached := hattached
      children := hchildren
      parent := ⟨correlation, causation, hparent⟩
      child := ⟨childCorrelation, childCausation, hchild⟩
      parentUnique := hcandidates
      childUnique := hothers }
  have hresult := congr (congrArg (fun parent child => do
    let parent ← parent
    let child ← child
    pure (ForkReceipt.mk parent child)) hparentRows) hchildRows
  exact ⟨_, middle, ⟨⟨_, parentResult.idempotent, _, _⟩, ⟨_, childResult.idempotent, _, _⟩⟩, hprepared,
    hparentSettles, hchildSettles, hresult⟩

end Hseos.SessionStore
