import Hseos.SessionStore.Appending

/-! # Growing tables

A call that writes leaves the table as it is or adds rows that keep it sound.
-/

namespace Hseos.SessionStore

variable {base table table' : Table} {view : View} {request : AppendRequest}
  {pending : Option PreparedAppend} {prepared : PreparedAppend} {storeActor : Json}
  {memory : Memory} {result : AppendResult} {correlation causation : String}

/-! ## Results -/

theorem formatResult_eq_ok (hsound : table.Sound) (hrows : ∀ row ∈ result.rows, row ∈ table) :
    formatResult result = .ok ⟨result.currentVersion, result.idempotent, result.rows.map (·.event),
      result.rows.map (·.position)⟩ := by
  rw [formatResult, hydrateAll_eq_ok fun row hrow => hsound.hydrated row (hrows row hrow)]
  rfl

/-! ## One request -/

/-- What the ledger made of a prepared append over a table: its rows were all there, or all
were added to the stream. -/
def Settles (table : Table) (request : AppendRequest) (prepared : PreparedAppend) (idempotent : Bool)
    (table' : Table) : Prop :=
  (idempotent = true ∧ table' = table ∧ Recorded table prepared.rowValues) ∨
  (idempotent = false ∧ table' = table.insert prepared.rowValues ∧
    (table.stream request.sessionId).length = request.expectedVersion ∧
    Table.Extends table request.sessionId prepared.rowValues)

theorem Settles.sound {idempotent : Bool} (h : Settles table request prepared idempotent table')
    (hsound : table.Sound) : table'.Sound := by
  rcases h with ⟨-, rfl, -⟩ | ⟨-, rfl, -, hextends⟩
  · exact hsound
  · exact hsound.insert hextends

theorem Settles.isPrefix {idempotent : Bool} (h : Settles table request prepared idempotent table') :
    table <+: table' := by
  rcases h with ⟨-, rfl, -⟩ | ⟨-, rfl, -, -⟩
  · exact List.prefix_refl _
  · exact Table.isPrefix_insert

theorem Settles.recorded {idempotent : Bool}
    (h : Settles table request prepared idempotent table') : Recorded table' prepared.rowValues := by
  rcases h with ⟨-, rfl, hrecorded⟩ | ⟨-, rfl, -, -⟩
  · exact hrecorded
  · intro candidate hcandidate
    have hmem : candidate ∈ (table.insert prepared.rowValues).map (·.toCandidate) := by
      rw [Table.toCandidate_insert]
      exact List.mem_append_right _ hcandidate
    exact List.mem_map.mp hmem

/-- The rows of a request, settled by the ledger over a table that has the stream as it was
prepared. -/
theorem Prepared.settles {before : Table}
    (h : Prepared before storeActor request pending correlation causation prepared)
    (hbefore : before.Sound) (hsound : table.Sound)
    (hsame : table.stream request.sessionId = before.stream request.sessionId)
    (hdistinct : (prepared.rowValues.map (·.eventId)).Nodup)
    (happend : appendRows table prepared prepared.rowValues = .ok (result, table')) :
    Settles table request prepared result.idempotent table' := by
  rcases appendRows_eq_ok happend with ⟨hidempotent, rfl, hrecorded⟩ |
    ⟨hidempotent, rfl, hfresh, hversion⟩
  · exact .inl ⟨hidempotent, rfl, hrecorded⟩
  · have hlength : (table.stream request.sessionId).length = request.expectedVersion := by
      rw [h.eq] at hversion
      exact hsound.selectVersion_eq.symm.trans hversion
    exact .inr ⟨hidempotent, rfl, hlength,
      h.extends_stream hbefore hsame (hsame ▸ hlength) hfresh hdistinct⟩

/-! ## Appends -/

/-- What a call knows of the table that it leaves. -/
structure Grown (view : View) (table' : Table) (memory : Memory) : Prop where
  sound : table'.Sound
  isPrefix : view.table <+: table'
  realm : ¬ RealmFree (table'.map (·.event)) → memory.realm = ⟨true⟩

theorem realm_settled {idempotent : Bool} {before : Table}
    (hrealm : ¬ RealmFree (before.map (·.event)) → memory.realm = ⟨true⟩)
    (h : Prepared table storeActor request pending correlation causation prepared)
    (hsettles : Settles before request prepared idempotent table')
    (huse : (table.stream request.sessionId).length = request.expectedVersion →
      ¬ RealmFree request.events → memory.realm = ⟨true⟩)
    (hsame : before.stream request.sessionId = table.stream request.sessionId) :
    ¬ RealmFree (table'.map (·.event)) → memory.realm = ⟨true⟩ := by
  intro hnot
  rcases hsettles with ⟨-, rfl, -⟩ | ⟨-, rfl, hlength, -⟩
  · exact hrealm hnot
  · by_cases hfree : RealmFree (before.map (·.event))
    · refine huse (hsame ▸ hlength) fun hrequest => hnot ?_
      have hevents : (before.insert prepared.rowValues).map (·.event) =
          before.map (·.event) ++ request.events := by
        have hrows : (before.insert prepared.rowValues).map (·.toCandidate) = _ :=
          Table.toCandidate_insert
        have hmap := congrArg (List.map Candidate.event) hrows
        rw [List.map_append, List.map_map, List.map_map, h.event_rowValues] at hmap
        exact hmap
      rw [hevents]
      exact realmFree_append.mpr ⟨hfree, hrequest⟩
    · exact hrealm hfree

/-- What a successful append did. -/
structure AppendDone (view : View) (storeActor : Json) (request : AppendRequest)
    (written : Written Receipt) : Prop where
  settled : ∃ correlation causation prepared receipt,
    Prepared view.table storeActor request none correlation causation prepared ∧
      Settles view.table request prepared receipt.idempotent written.table ∧
      written.result = .ok receipt

theorem append_leads (hseen : Seen base view) :
    Attempt.Leads (Memory.Sound base view) (append view storeActor request)
      (fun written m => m.Sound base view ∧ Grown view written.table m ∧
        AppendDone view storeActor request written)
      (Memory.Sound base view) := by
  have hsound := hseen.tableSound
  unfold append
  refine Attempt.Leads.bind (prepareAppend_leads hseen) fun prepared => ?_
  rintro memory ⟨hmemory, ⟨correlation, causation, hprepared⟩, huse⟩
  refine (Attempt.Leads.check (P := fun m => m = memory) (fun m hm => hm ▸ hmemory)
    fun result hresult => ?_) memory rfl
  rintro m rfl
  obtain ⟨candidates, hcandidates, happend⟩ := bind_eq_ok_iff.mp hresult
  obtain ⟨rfl, hdistinct⟩ := ledgerPrepare_eq_ok hcandidates
  have hsettles := hprepared.settles hsound hsound rfl hdistinct happend
  have hformat := formatResult_eq_ok (hsettles.sound hsound) (rows_of_appendRows happend)
  refine ⟨hmemory, ⟨hsettles.sound hsound, hsettles.isPrefix, ?_⟩, ⟨correlation, causation, prepared,
    _, hprepared, hsettles, hformat⟩⟩
  exact realm_settled hmemory.realm hprepared hsettles huse rfl

end Hseos.SessionStore
