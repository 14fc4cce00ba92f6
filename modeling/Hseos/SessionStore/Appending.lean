import Hseos.SessionStore.Caching
import Hseos.SessionStore.Insertion
import Hseos.SessionStore.Writing

/-! # Prepared appends

What `_prepareAppend` has made sure of when it returns, and that what the ledger
makes of it keeps the table sound.
-/

namespace Hseos.SessionStore

variable {base table : Table} {view : View} {id : Identifier} {request : AppendRequest}
  {pending : Option PreparedAppend} {prepared : PreparedAppend} {storeActor : Json}
  {memory : Memory} {candidates : List Candidate} {candidate : Candidate}

/-! ## Checks -/

/-- The events of a request are of its session and numbered on from its version, and have
distinct identifiers and no forbidden fields. -/
structure EventsFit (request : AppendRequest) : Prop where
  allowed : ∀ event ∈ request.events, assertNoSensitiveFields event = .ok ()
  session : ∀ event ∈ request.events, event.sessionId = request.sessionId
  sequences : request.events.map (·.sequence) =
    List.range' (request.expectedVersion + 1) request.events.length
  distinct : (request.events.map (·.eventId)).Nodup

theorem assertEvents_eq_ok {u : Unit} (h : assertEvents request = .ok u) : EventsFit request := by
  obtain ⟨_, hall, hdistinct⟩ := bind_eq_ok_iff.mp h
  have hentry : ∀ entry ∈ request.events.zipIdx (request.expectedVersion + 1),
      assertNoSensitiveFields entry.1 = .ok () ∧ entry.1.sessionId = request.sessionId ∧
        entry.1.sequence = entry.2 := by
    intro entry hentry
    obtain ⟨⟨⟩, hallowed, hchecks⟩ := bind_eq_ok_iff.mp (forM_eq_ok hall entry hentry)
    obtain ⟨hsession, hchecks⟩ := reject_bind_eq_ok_iff.mp hchecks
    have hsequence := reject_eq_ok_iff.mp hchecks
    exact ⟨hallowed, by simpa using hsession, by simpa using hsequence⟩
  have hevent : ∀ event ∈ request.events, ∃ sequence,
      (event, sequence) ∈ request.events.zipIdx (request.expectedVersion + 1) := by
    intro event hevent
    rw [← List.zipIdx_map_fst (request.expectedVersion + 1) request.events] at hevent
    obtain ⟨⟨found, sequence⟩, hmem, rfl⟩ := List.mem_map.mp hevent
    exact ⟨sequence, hmem⟩
  refine ⟨?_, ?_, ?_, by simpa using hdistinct⟩
  · intro event hmem
    obtain ⟨sequence, hmem⟩ := hevent event hmem
    exact (hentry _ hmem).1
  · intro event hmem
    obtain ⟨sequence, hmem⟩ := hevent event hmem
    exact (hentry _ hmem).2.1
  · calc request.events.map (·.sequence)
        = (request.events.zipIdx (request.expectedVersion + 1)).map fun entry =>
            entry.1.sequence := by
          conv_lhs => rw [← List.zipIdx_map_fst (request.expectedVersion + 1) request.events]
          rw [List.map_map]
          rfl
      _ = (request.events.zipIdx (request.expectedVersion + 1)).map Prod.snd :=
          List.map_congr_left fun entry hmem => (hentry entry hmem).2.2
      _ = List.range' (request.expectedVersion + 1) request.events.length :=
          List.zipIdx_map_snd ..

/-- The events of the request are at their place in the stream. -/
def RetryOf (table : Table) (request : AppendRequest) : Prop :=
  request.expectedVersion < (table.stream request.sessionId).length ∧
    ((table.events request.sessionId).drop request.expectedVersion).take request.events.length =
      request.events

/-- The events of the request go on from the stream, as far as they do not use the realm. -/
def GoesOn (table : Table) (request : AppendRequest) : Prop :=
  (table.stream request.sessionId).length = request.expectedVersion ∧
    (RealmFree (table.events request.sessionId ++ request.events) →
      ∃ state, Accepted ⟨false⟩ (table.events request.sessionId ++ request.events) state)

theorem assertContinues_leads (hseen : Seen base view) :
    Attempt.Leads (Memory.Sound base view)
      (assertContinues view request (view.table.stream request.sessionId))
      (fun _ m => m.Sound base view ∧
        ((GoesOn view.table request ∧ (¬ RealmFree request.events → m.realm = ⟨true⟩)) ∨
          RetryOf view.table request))
      (Memory.Sound base view) := by
  unfold assertContinues
  by_cases hlength : (view.table.stream request.sessionId).length = request.expectedVersion
  · rw [if_pos hlength]
    refine Attempt.Leads.bind (replay_leads hseen) fun start => ?_
    rintro memory ⟨hmemory, hreplayed⟩
    obtain ⟨-, hunreserved, haccepted⟩ := hreplayed rfl
    refine (Attempt.Leads.bind (replayEvents_leads base view _ _)
      fun state => ?_) memory hmemory
    rintro m ⟨hm, realm, hrun⟩
    have hstart : (⟨realm, start⟩ : Reducer).state.Unreserved := hunreserved
    refine ⟨hm, .inl ⟨⟨hlength, fun hfree => ?_⟩, fun huse => (run_usesRealm hstart huse hrun).2⟩⟩
    obtain ⟨hpast, hmore⟩ := realmFree_append.mp hfree
    exact ⟨state, accepted_append (haccepted hpast) hrun hmore⟩
  · rw [if_neg hlength]
    refine Attempt.Leads.lift (fun _ m hretry hm => ⟨hm, .inr ?_⟩) fun m hm => hm
    have hretry := reject_eq_ok_iff.mp hretry
    simpa [RetryOf, Table.events] using hretry

/-- What a prepared append is made of. -/
structure Prepared (table : Table) (storeActor : Json) (request : AppendRequest)
    (pending : Option PreparedAppend) (correlation causation : String)
    (prepared : PreparedAppend) : Prop where
  nonempty : request.events ≠ []
  actor : cloneActor (request.actor.getD storeActor) = .ok (request.actor.getD storeActor)
  events : assertEvents request = .ok ()
  readable : assertSessionCausation table (table.stream request.sessionId) = .ok ()
  continues : GoesOn table request ∨ RetryOf table request
  correlation_eq : resolveCorrelation request
    ((table.stream request.sessionId).head?.map (·.correlationId)) = .ok correlation
  causation_eq : causation = firstCausation request (table.stream request.sessionId)
  first : assertFirstAppend table request pending correlation causation = .ok ()
  eq : prepared = ⟨request.sessionId, request.expectedVersion,
    preparedEvents request correlation causation (request.actor.getD storeActor)⟩

theorem prepareAppend_leads (hseen : Seen base view) :
    Attempt.Leads (Memory.Sound base view) (prepareAppend view storeActor request pending)
      (fun prepared m => m.Sound base view ∧
        (∃ correlation causation,
          Prepared view.table storeActor request pending correlation causation prepared) ∧
        ((view.table.stream request.sessionId).length = request.expectedVersion →
          ¬ RealmFree request.events → m.realm = ⟨true⟩))
      (Memory.Sound base view) := by
  have hsound := hseen.tableSound
  unfold prepareAppend
  refine Attempt.Leads.check (fun _ h => h) fun _ hnonempty => ?_
  refine Attempt.Leads.check (fun _ h => h) fun actor hactor => ?_
  refine Attempt.Leads.check (fun _ h => h) fun _ hevents => ?_
  refine Attempt.Leads.check (fun _ h => h) fun current hcurrent => ?_
  obtain rfl : view.table.stream request.sessionId = current :=
    Except.ok.inj (hsound.hydratedStream_eq.symm.trans hcurrent)
  refine Attempt.Leads.check (fun _ h => h) fun durable hdurable => ?_
  obtain ⟨hdurable, -⟩ := uniform_of_assertUniformSessionTrace hdurable
  refine Attempt.Leads.check (fun _ h => h) fun _ hreadable => ?_
  refine Attempt.Leads.check (fun _ h => h) fun correlation hcorrelation => ?_
  refine Attempt.Leads.bind (assertContinues_leads hseen) fun _ => ?_
  refine Attempt.Leads.check (fun _ h => h.1) fun _ hfirst => ?_
  rintro m ⟨hm, hcontinues⟩
  obtain rfl := pure_eq_ok_iff.mp (reject_bind_eq_ok_iff.mp hactor).2
  refine ⟨hm, ⟨correlation, firstCausation request (view.table.stream request.sessionId), ?_⟩, ?_⟩
  · exact
      { nonempty := by simpa using hnonempty
        actor := hactor
        events := hevents
        readable := hreadable
        continues := hcontinues.imp_left And.left
        correlation_eq := hdurable ▸ hcorrelation
        causation_eq := rfl
        first := hfirst
        eq := rfl }
  · intro hlength huse
    rcases hcontinues with ⟨-, hrealm⟩ | ⟨hlater, -⟩
    · exact hrealm huse
    · exact absurd hlength (by omega)

/-! ## Candidates of a prepared append -/

section

variable {correlation causation : String} (h : Prepared table storeActor request pending correlation
  causation prepared)

theorem length_preparedEvents {actor : Json} :
    (preparedEvents request correlation causation actor).length = request.events.length := by
  simp [preparedEvents]

theorem event_preparedEvents {actor : Json} :
    (preparedEvents request correlation causation actor).map (·.event) = request.events := by
  rw [preparedEvents, List.map_map]
  exact List.map_fst_zip (by simp)

theorem mem_preparedEvents {actor : Json} {event : PreparedEvent}
    (hevent : event ∈ preparedEvents request correlation causation actor) :
    event.event ∈ request.events ∧
      event.eventId = ledgerEventId request.sessionId event.event.eventId ∧
      event.correlationId = correlation ∧ event.operationId = linkedOperation event.event := by
  obtain ⟨entry, hentry, rfl⟩ := List.mem_map.mp hevent
  exact ⟨(List.of_mem_zip hentry).1, rfl, rfl, rfl⟩

include h

namespace Prepared

theorem fits : EventsFit request := assertEvents_eq_ok h.events

theorem rowValues_eq : prepared.rowValues =
    ((preparedEvents request correlation causation (request.actor.getD storeActor)).zipIdx
      (request.expectedVersion + 1)).map fun entry =>
        entry.1.candidate request.sessionId entry.2 := by
  rw [h.eq]
  rfl

theorem event_rowValues : prepared.rowValues.map (·.event) = request.events := by
  have hevents : (preparedEvents request correlation causation
      (request.actor.getD storeActor)).map _ = request.events := event_preparedEvents
  rw [h.rowValues_eq, List.map_map, ← hevents]
  conv_rhs => rw [← List.zipIdx_map_fst (request.expectedVersion + 1)
    (preparedEvents request correlation causation (request.actor.getD storeActor))]
  rw [List.map_map]
  rfl

theorem length_rowValues : prepared.rowValues.length = request.events.length := by
  rw [← h.event_rowValues, List.length_map]

theorem sequence_rowValues : prepared.rowValues.map (·.streamSequence) =
    List.range' (request.expectedVersion + 1) request.events.length := by
  rw [h.rowValues_eq, List.map_map]
  refine (List.zipIdx_map_snd ..).trans ?_
  rw [length_preparedEvents]

/-- A candidate stands for one event of the request, in the trace of the append. -/
theorem mem_rowValues (hcandidate : candidate ∈ prepared.rowValues) :
    candidate.event ∈ request.events ∧ candidate.sessionId = request.sessionId ∧
      candidate.eventId = ledgerEventId request.sessionId candidate.event.eventId ∧
      candidate.correlationId = correlation ∧
      candidate.operationId = linkedOperation candidate.event ∧
      candidate.event.sequence = candidate.streamSequence := by
  have hsequence : prepared.rowValues.map (·.streamSequence) =
      prepared.rowValues.map (·.event.sequence) := by
    rw [h.sequence_rowValues, ← h.fits.sequences, ← h.event_rowValues, List.map_map]
    rfl
  have hsame := List.map_inj_left.mp hsequence candidate hcandidate
  rw [h.rowValues_eq] at hcandidate
  obtain ⟨entry, hentry, rfl⟩ := List.mem_map.mp hcandidate
  obtain ⟨hevent, hid, htrace, hoperation⟩ := mem_preparedEvents (List.fst_mem_of_mem_zipIdx hentry)
  exact ⟨hevent, rfl, hid, htrace, hoperation, hsame.symm⟩

theorem hydrated_rowValues (hcandidate : candidate ∈ prepared.rowValues) (position : Nat) :
    hydrateSessionEvent { candidate with position } = .ok { candidate with position } := by
  obtain ⟨hevent, hsession, hid, -, hoperation, hsequence⟩ := h.mem_rowValues hcandidate
  have hevents := h.fits.session candidate.event hevent
  unfold hydrateSessionEvent
  rw [h.fits.allowed candidate.event hevent]
  simp only [bind, Except.bind, hsession, hevents, hsequence, hid, hoperation, reject]
  simp

/-- The trace of the append is the one of the stream. -/
theorem trace_eq {row : SessionRow} (hsound : table.Sound)
    (hrow : row ∈ table.stream request.sessionId) : row.correlationId = correlation := by
  have hcorrelation := h.correlation_eq
  obtain ⟨first, rest, hstream⟩ := List.exists_cons_of_ne_nil (List.ne_nil_of_mem hrow)
  have hfirst : first ∈ table.stream request.sessionId := by rw [hstream]; exact List.mem_cons_self
  rw [hstream, List.head?_cons, Option.map_some] at hcorrelation
  have hdurable : first.correlationId = correlation := by
    unfold resolveCorrelation at hcorrelation
    cases hasked : request.correlationId with
    | none =>
        rw [hasked] at hcorrelation
        exact Except.ok.inj hcorrelation
    | some asked =>
        rw [hasked] at hcorrelation
        obtain ⟨askedTrace, -, hcorrelation⟩ := bind_eq_ok_iff.mp hcorrelation
        obtain ⟨durableTrace, -, hcorrelation⟩ := bind_eq_ok_iff.mp hcorrelation
        obtain ⟨-, hcorrelation⟩ := reject_bind_eq_ok_iff.mp hcorrelation
        exact pure_eq_ok_iff.mp hcorrelation
  have hrow := Table.mem_stream.mp hrow
  have hfirst := Table.mem_stream.mp hfirst
  exact (hsound.uniform row hrow.1 first hfirst.1 (hrow.2.trans hfirst.2.symm)).trans hdurable

/-- An append that finds its version goes on from the stream. -/
theorem extends_stream {middle : Table} (hsound : table.Sound)
    (hsame : middle.stream request.sessionId = table.stream request.sessionId)
    (hlength : (table.stream request.sessionId).length = request.expectedVersion)
    (hfresh : Fresh middle prepared.rowValues) (hdistinct : (prepared.rowValues.map (·.eventId)).Nodup) :
    Table.Extends middle request.sessionId prepared.rowValues where
  session candidate hcandidate := (h.mem_rowValues hcandidate).2.1
  numbers := by rw [h.sequence_rowValues, hsame, hlength, h.length_rowValues]
  hydrated candidate hcandidate := h.hydrated_rowValues hcandidate
  trace := ⟨correlation, fun candidate hcandidate => (h.mem_rowValues hcandidate).2.2.2.1,
    fun row hrow => h.trace_eq hsound (hsame ▸ hrow)⟩
  fresh := hfresh
  distinct := hdistinct
  accepted := by
    rw [Table.events, hsame, h.event_rowValues]
    rcases h.continues with hgoes | hretry
    · exact hgoes.2
    · exact absurd hlength (by have := hretry.1; omega)

end Prepared

end

end Hseos.SessionStore
