import Hseos.SessionStore.Growth

/-! # Retries

An append whose rows the ledger holds is prepared again as it was, as long as the
session can be read, and adds nothing.
-/

namespace Hseos.SessionStore

variable {base table later : Table} {view : View} {request : AppendRequest}
  {pending : Option PreparedAppend} {prepared : PreparedAppend} {storeActor : Json}
  {memory : Memory} {correlation causation : String}

namespace Prepared

/-- The events of rows that are recorded stand at their place in the stream. -/
theorem retryOf (h : Prepared table storeActor request pending correlation causation prepared)
    (hlater : later.Sound) (hrecorded : Recorded later prepared.rowValues) :
    RetryOf later request := by
  have hplace : ∀ i, (hi : i < request.events.length) →
      ((later.stream request.sessionId)[request.expectedVersion + i]?).map (·.event) =
        some request.events[i] := by
    intro i hi
    have hi' : i < prepared.rowValues.length := by rwa [h.length_rowValues]
    obtain ⟨row, hrow, hsame⟩ := hrecorded _ (List.getElem_mem hi')
    have hsession : row.sessionId = request.sessionId := by
      rw [← (h.mem_rowValues (List.getElem_mem hi')).2.1, ← hsame]
    have hnumber : row.streamSequence = request.expectedVersion + i + 1 := by
      have hsequence : prepared.rowValues[i].streamSequence = request.expectedVersion + 1 + i := by
        have hget := congrArg (fun list => list[i]?) h.sequence_rowValues
        simpa [List.getElem?_range', hi, hi'] using hget
      rw [← hsame] at hsequence
      omega
    obtain ⟨j, hj, hrow'⟩ := List.getElem_of_mem (Table.mem_stream.mpr ⟨hrow, hsession⟩)
    have hj' : j = request.expectedVersion + i := by
      have := (hlater.sequences request.sessionId).getElem hj
      rw [hrow', hnumber] at this
      omega
    subst hj'
    rw [List.getElem?_eq_getElem hj, hrow', Option.map_some]
    have hevent : prepared.rowValues[i].event = request.events[i] := by
      have hget := congrArg (fun list => list[i]?) h.event_rowValues
      simpa [hi, hi'] using hget
    rw [← hevent, ← hsame]
  have hlength : 0 < request.events.length := List.length_pos_iff.mpr h.nonempty
  have hbound : ∀ i, i < request.events.length →
      request.expectedVersion + i < (later.stream request.sessionId).length := by
    intro i hi
    by_contra hge
    have hnone := hplace i hi
    rw [List.getElem?_eq_none (by omega)] at hnone
    cases hnone
  refine ⟨by simpa using hbound 0 hlength, ?_⟩
  apply List.ext_getElem?
  intro i
  by_cases hi : i < request.events.length
  · rw [List.getElem?_take_of_lt hi, List.getElem?_drop, Table.events, List.getElem?_map, hplace i hi,
      List.getElem?_eq_getElem hi]
  · rw [List.getElem?_take, if_neg hi, List.getElem?_eq_none (by omega)]

/-- A request that was prepared once is prepared again. -/
theorem again (h : Prepared table storeActor request pending correlation causation prepared)
    (hlater : view.table.Sound) (hretry : RetryOf view.table request)
    (hreadable : assertSessionCausation view.table (view.table.stream request.sessionId) = .ok ())
    (hcorrelation : resolveCorrelation request
      ((view.table.stream request.sessionId).head?.map (·.correlationId)) = .ok correlation)
    (hcausation : firstCausation request (view.table.stream request.sessionId) = causation)
    (hfirst : assertFirstAppend view.table request pending correlation causation = .ok ()) :
    (prepareAppend view storeActor request pending).outcome memory = (.ok prepared, memory) := by
  have htrace := hlater.uniformTrace (List.Subset.refl (view.table.stream request.sessionId))
  have hcontinues : (assertContinues view request (view.table.stream request.sessionId)).outcome memory =
      (.ok (), memory) := by
    obtain ⟨hlength, hslice⟩ := hretry
    unfold assertContinues
    rw [if_neg (by omega), Attempt.outcome_lift]
    rw [Table.events] at hslice
    simp [hslice, hlength, reject]
  have hnonempty : reject (decide (request.events = []))
      (storeError "events must be a non-empty array") = .ok () := by simp [h.nonempty]
  unfold prepareAppend
  simp only [Attempt.outcome_bind, Attempt.outcome_lift, hnonempty, h.actor, h.events,
    hlater.hydratedStream_eq, htrace, hreadable, hcorrelation, hcontinues, hcausation, hfirst,
    Attempt.outcome_pure, h.eq]

/-- The trace of an append whose rows are recorded is the one of the stream. -/
theorem head_correlation
    (h : Prepared table storeActor request pending correlation causation prepared)
    (hlater : later.Sound) (hrecorded : Recorded later prepared.rowValues) :
    (later.stream request.sessionId).head?.map (·.correlationId) = some correlation := by
  have hne : prepared.rowValues ≠ [] := by
    rw [← List.length_pos_iff, h.length_rowValues, List.length_pos_iff]
    exact h.nonempty
  obtain ⟨candidate, rest, hvalues⟩ := List.exists_cons_of_ne_nil hne
  have hcandidate : candidate ∈ prepared.rowValues := by rw [hvalues]; exact List.mem_cons_self
  obtain ⟨row, hrow, hsame⟩ := hrecorded candidate hcandidate
  obtain ⟨-, hsession, -, htrace, -⟩ := h.mem_rowValues hcandidate
  have hmem : row ∈ later.stream request.sessionId :=
    Table.mem_stream.mpr ⟨hrow, by rw [← hsession, ← hsame]⟩
  obtain ⟨first, others, hstream⟩ := List.exists_cons_of_ne_nil (List.ne_nil_of_mem hmem)
  have hfirst : first ∈ later.stream request.sessionId := by rw [hstream]; exact List.mem_cons_self
  have hfirst' := Table.mem_stream.mp hfirst
  have huniform := hlater.uniform first hfirst'.1 row hrow
    (hfirst'.2.trans (Table.mem_stream.mp hmem).2.symm)
  rw [hstream, List.head?_cons, Option.map_some, huniform, ← htrace, ← hsame]

end Prepared

end Hseos.SessionStore
