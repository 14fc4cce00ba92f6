import Hseos.SessionStore.Streams

/-! # Lineage of a stream

What `assertSessionCausation` accepts: the first row has an anchor, which later
rows of the ledger do not move, and every other row follows the ones before it.
-/

namespace Hseos.SessionStore

variable {table later : Table} {id child parentSessionId : Identifier} {causationId : String}
  {rows rest more parentRows : List SessionRow} {first row : SessionRow}

/-! ## Continuation -/

/-- The identifiers of the events of some rows. -/
def eventIds (rows : List SessionRow) : List Identifier := rows.map (·.event.eventId)

/-- The last event of some rows, or the given one. -/
def lastEventId (lastId : Option Identifier) (rows : List SessionRow) : Option Identifier :=
  (rows.getLast?.map (·.event.eventId)).or lastId

theorem continuesLineage_append {lastId : Option Identifier} {earlier : List Identifier} :
    continuesLineage lastId earlier (rows ++ more) =
      (continuesLineage lastId earlier rows &&
        continuesLineage (lastEventId lastId rows) (earlier ++ eventIds rows) more) := by
  induction rows generalizing lastId earlier with
  | nil => simp [continuesLineage, lastEventId, eventIds]
  | cons row rest ih =>
      have hlast : lastEventId (some row.event.eventId) rest = lastEventId lastId (row :: rest) := by
        cases rest with
        | nil => rfl
        | cons next others => simp [lastEventId, List.getLast?_cons]
      rw [List.cons_append, continuesLineage, ih, continuesLineage, Bool.and_assoc, hlast]
      simp [eventIds, List.append_assoc]

/-! ## Anchors -/

/-- The first row of a child names an attachment of it by an event of the parent, in the same
trace, recorded earlier and caused by the event that the child was forked from. -/
structure Anchor (parentRows : List SessionRow) (parentSessionId : Identifier) (first : SessionRow)
    (fork : ForkedPayload) (attachment branch : SessionRow) : Prop where
  attached : attachmentOf parentRows first.causationId first.event.sessionId = some attachment
  parent : fork.parentSessionId = parentSessionId
  trace : ∃ traceId, canonicalTraceId attachment.correlationId = .ok traceId ∧
    canonicalTraceId first.correlationId = .ok traceId
  earlier : attachment.position < first.position
  branched : branchRow parentRows fork = some branch
  caused : attachment.causationId = branch.event.eventId.val

theorem assertChildAnchor_eq_ok_iff {forkEvent : Option SessionEvent} :
    assertChildAnchor parentRows parentSessionId first forkEvent = .ok () ↔
      ∃ fork attachment branch, forkPayload? forkEvent = some fork ∧
        Anchor parentRows parentSessionId first fork attachment branch := by
  unfold assertChildAnchor
  constructor
  · intro h
    cases hattachment : attachmentOf parentRows first.causationId first.event.sessionId with
    | none => simp [hattachment] at h
    | some attachment =>
        cases hfork : forkPayload? forkEvent with
        | none => simp [hattachment, hfork] at h
        | some fork =>
            rw [hattachment, hfork] at h
            obtain ⟨attached, hattached, h⟩ := bind_eq_ok_iff.mp h
            obtain ⟨durable, hdurable, h⟩ := bind_eq_ok_iff.mp h
            simp only [reject_eq_ok_iff, Bool.or_eq_false_iff, decide_eq_false_iff_not, not_not,
              Bool.not_eq_false', not_le] at h
            obtain ⟨⟨⟨htrace, hearlier⟩, hparent⟩, hbranch⟩ := h
            obtain ⟨branch, hbranched, hcaused⟩ := (Option.any_eq_true ..).mp hbranch
            exact ⟨fork, attachment, branch, rfl, hattachment, hparent,
              ⟨attached, hattached, htrace ▸ hdurable⟩, hearlier, hbranched, by simpa using hcaused⟩
  · rintro ⟨fork, attachment, branch, hfork, hanchor⟩
    obtain ⟨traceId, hattached, hdurable⟩ := hanchor.trace
    rw [hanchor.attached, hfork]
    simp only [hattached, hdurable, hanchor.branched, bind, Except.bind, reject_eq_ok_iff]
    simp [hanchor.parent, hanchor.earlier, hanchor.caused]

theorem attachmentOf_append :
    attachmentOf (parentRows ++ more) causationId child =
      (attachmentOf parentRows causationId child).or (attachmentOf more causationId child) :=
  List.find?_append ..

theorem branchRow_append {fork : ForkedPayload} {branch : SessionRow}
    (h : branchRow parentRows fork = some branch) :
    branchRow (parentRows ++ more) fork = some branch := by
  unfold branchRow at h ⊢
  split at h
  · cases h
  · rw [if_neg (by assumption), List.getElem?_append_left (List.getElem?_eq_some_iff.mp h).1]
    exact h

/-- Rows added to the parent leave the anchor in place. -/
theorem Anchor.append {fork : ForkedPayload} {attachment branch : SessionRow}
    (h : Anchor parentRows parentSessionId first fork attachment branch) :
    Anchor (parentRows ++ more) parentSessionId first fork attachment branch where
  attached := by rw [attachmentOf_append, h.attached, Option.some_or]
  parent := h.parent
  trace := h.trace
  earlier := h.earlier
  branched := branchRow_append h.branched
  caused := h.caused

/-! ## Whole streams -/

/-- The first row of a stream is anchored. -/
def Anchored (table : Table) (first : SessionRow) (forkEvent : Option SessionEvent) : Prop :=
  ∃ spec, first.event.payload = .sessionCreated spec ∧
    match spec.parentSessionId with
    | none => first.causationId = rootAnchor first.event.sessionId
    | some parentSessionId => ∃ fork attachment branch, forkPayload? forkEvent = some fork ∧
        Anchor (table.stream parentSessionId) parentSessionId first fork attachment branch

theorem createdSpec_eq_ok_iff {event : SessionEvent} {spec : AgentSessionSpec} :
    createdSpec event = .ok spec ↔ event.payload = .sessionCreated spec := by
  unfold createdSpec
  cases event.payload <;> simp

theorem assertAnchored_eq_ok_iff (h : table.Sound) {forkEvent : Option SessionEvent} :
    assertAnchored table first forkEvent = .ok () ↔ Anchored table first forkEvent := by
  simp only [assertAnchored, Anchored, bind_eq_ok_iff, createdSpec_eq_ok_iff]
  apply exists_congr
  intro spec
  apply and_congr_right
  intro _
  cases spec.parentSessionId with
  | none => simp
  | some parentSessionId =>
      simp only [h.hydratedStream_eq, bind_eq_ok_iff, Except.ok.injEq, exists_eq_left',
        assertChildAnchor_eq_ok_iff]

theorem assertSessionCausation_cons (h : table.Sound) :
    assertSessionCausation table (first :: rest) = .ok () ↔
      Anchored table first (rest.head?.map (·.event)) ∧
        continuesLineage (some first.event.eventId) [first.event.eventId] rest = true := by
  rw [assertSessionCausation, bind_eq_ok_iff, ← assertAnchored_eq_ok_iff h]
  constructor
  · rintro ⟨⟨⟩, hanchored, hlineage⟩
    exact ⟨hanchored, by simpa using hlineage⟩
  · rintro ⟨hanchored, hlineage⟩
    exact ⟨(), hanchored, by simp [hlineage]⟩

/-- An anchor stays where it is while the ledger grows. -/
theorem Anchored.mono {forkEvent : Option SessionEvent} (h : Anchored table first forkEvent)
    (hlater : table <+: later) : Anchored later first forkEvent := by
  obtain ⟨more, rfl⟩ := hlater
  obtain ⟨spec, hspec, hanchor⟩ := h
  refine ⟨spec, hspec, ?_⟩
  cases hparent : spec.parentSessionId with
  | none => simpa [hparent] using hanchor
  | some parentSessionId =>
      rw [hparent] at hanchor
      obtain ⟨fork, attachment, branch, hfork, hanchor⟩ := hanchor
      exact ⟨fork, attachment, branch, hfork, Table.stream_append ▸ hanchor.append⟩

/-- An anchor that was found with the first row alone belongs to a root session. -/
theorem Anchored.head?_append (h : Anchored table first (rest.head?.map (·.event))) :
    Anchored table first ((rest ++ more).head?.map (·.event)) := by
  cases rest with
  | cons next others => exact h
  | nil =>
      obtain ⟨spec, hspec, hanchor⟩ := h
      refine ⟨spec, hspec, ?_⟩
      cases hparent : spec.parentSessionId with
      | none => simpa [hparent] using hanchor
      | some parentSessionId =>
          rw [hparent] at hanchor
          obtain ⟨fork, attachment, branch, hfork, -⟩ := hanchor
          cases hfork

theorem assertSessionCausation_mono (h : table.Sound) (hlaterSound : later.Sound)
    (hlater : table <+: later) (hrows : assertSessionCausation table rows = .ok ()) :
    assertSessionCausation later rows = .ok () := by
  cases rows with
  | nil => rfl
  | cons first rest =>
      rw [assertSessionCausation_cons h] at hrows
      exact (assertSessionCausation_cons hlaterSound).mpr ⟨hrows.1.mono hlater, hrows.2⟩

/-- Rows that are added to a readable stream have to follow it. -/
theorem assertSessionCausation_append (h : table.Sound) (hne : rows ≠ [])
    (hrows : assertSessionCausation table rows = .ok ()) :
    assertSessionCausation table (rows ++ more) = .ok () ↔
      continuesLineage (lastEventId none rows) (eventIds rows) more = true := by
  obtain ⟨first, rest, rfl⟩ := List.exists_cons_of_ne_nil hne
  have hlast : lastEventId (some first.event.eventId) rest = lastEventId none (first :: rest) := by
    cases rest with
    | nil => rfl
    | cons next others => simp [lastEventId, List.getLast?_cons]
  rw [assertSessionCausation_cons h] at hrows
  rw [List.cons_append, assertSessionCausation_cons h, continuesLineage_append, hrows.2,
    Bool.true_and, hlast]
  exact and_iff_right hrows.1.head?_append

end Hseos.SessionStore
