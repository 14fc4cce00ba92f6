import Hseos.Delegated.Accepted

/-! # Tenures

Which worker a stream names, from its rows alone: the lease that it was granted and
renewed, the drain that was asked of it and the facts that ended its tenure. The
reducer's worker follows the tenure.
-/

namespace Hseos.Delegated

variable {sessionId : Identifier} {state next : State} {rows past : List Row} {row : Row}

/-- The stay of one worker at a session. -/
structure Tenure where
  lease : WorkerLease
  drain : Option WorkerDrain := none
  endings : List Row := []

namespace Tenure

/-- The lease or the drain window of the worker is over. -/
def IsDue (tenure : Tenure) (instant : Int) : Prop :=
  tenure.lease.leaseExpiresAt ≤ instant ∨
    ∃ drain, tenure.drain = some drain ∧ drain.drainDeadlineAt ≤ instant

/-- The fact names the worker and the epoch of the tenure. -/
def Names (tenure : Tenure) (workerId : Identifier) (leaseEpoch : Nat) : Prop :=
  tenure.lease.workerId = workerId ∧ tenure.lease.leaseEpoch = leaseEpoch

/-- The row ends the tenure: its worker is parked or retired, or orphaned when it is due. -/
def EndedBy (tenure : Tenure) (row : Row) : Prop :=
  match row.fact with
  | .parked checkpoint => tenure.Names checkpoint.workerId checkpoint.leaseEpoch
  | .retired terminal => tenure.Names terminal.workerId terminal.leaseEpoch
  | .orphaned terminal =>
      tenure.Names terminal.workerId terminal.leaseEpoch ∧ tenure.IsDue row.occurredAt
  | _ => False

end Tenure

/-- The tenure after one more row. -/
def follow (tenure : Option Tenure) (row : Row) : Option Tenure :=
  match row.fact with
  | .attached lease => some { lease }
  | .heartbeat lease => tenure.map ({ · with lease })
  | .drainRequested drain => tenure.map ({ · with drain := some drain })
  | .parked _ | .orphaned _ | .retired _ =>
      tenure.map fun tenure => { tenure with endings := tenure.endings ++ [row] }
  | _ => tenure

/-- The last tenure of a stream. -/
def tenure (rows : List Row) : Option Tenure := rows.foldl follow none

theorem tenure_snoc : tenure (rows ++ [row]) = follow (tenure rows) row := by
  rw [tenure, tenure, List.foldl_append, List.foldl_cons, List.foldl_nil]

/-- A lease starts the first tenure, or the one after a tenure that has ended. -/
def Succeeds (before : Option Tenure) (lease : WorkerLease) : Prop :=
  match before with
  | none => lease.leaseEpoch = 1
  | some tenure => lease.leaseEpoch = tenure.lease.leaseEpoch + 1 ∧
      ∃ row ∈ tenure.endings, tenure.EndedBy row

/-- Each worker of a stream follows the one before it. -/
def AttachmentsFollow (rows : List Row) : Prop :=
  ∀ past row future lease, rows = past ++ row :: future → row.fact = .attached lease →
    Succeeds (tenure past) lease

/-! ## The reducer's worker -/

/-- The reducer's worker is the one of the tenure. -/
structure Serves (worker : Worker) (tenure : Tenure) : Prop where
  workerId : worker.workerId = some tenure.lease.workerId
  leaseEpoch : worker.leaseEpoch = tenure.lease.leaseEpoch
  endings : ∀ row ∈ tenure.endings, tenure.EndedBy row
  held : worker.status ∈ [WorkerStatus.attached, .draining] → tenure.endings = [] ∧
    worker.leaseExpiresAt = some tenure.lease.leaseExpiresAt ∧
      worker.drainDeadlineAt = tenure.drain.map (·.drainDeadlineAt)
  ended : worker.status ∉ [WorkerStatus.attached, .draining] → tenure.endings ≠ []

/-- The worker of a state and the tenure of its stream. -/
def Follows (worker : Worker) : Option Tenure → Prop
  | none => worker = {}
  | some tenure => Serves worker tenure

section

variable {worker : Worker} {before : Option Tenure} {tenure : Tenure} {lease : WorkerLease}

theorem not_held_of_free {status : WorkerStatus}
    (h : status ∈ [WorkerStatus.unassigned, .parked, .orphaned, .retired]) :
    status ∉ [WorkerStatus.attached, .draining] := by
  revert h
  cases status <;> decide

theorem Follows.succeeds (h : Follows worker before)
    (hfree : worker.status ∈ [WorkerStatus.unassigned, .parked, .orphaned, .retired])
    (hepoch : lease.leaseEpoch = worker.leaseEpoch + 1) : Succeeds before lease := by
  cases before with
  | none =>
      rw [show worker = {} from h] at hepoch
      exact hepoch
  | some tenure =>
      have hserves : Serves worker tenure := h
      have hended := hserves.ended (not_held_of_free hfree)
      obtain ⟨row, hrow⟩ := List.exists_mem_of_ne_nil _ hended
      exact ⟨hserves.leaseEpoch ▸ hepoch, row, hrow, hserves.endings row hrow⟩

/-- A named worker has a tenure. -/
theorem Follows.serves {workerId : Identifier} (h : Follows worker before)
    (hworker : worker.workerId = some workerId) :
    ∃ tenure, before = some tenure ∧ Serves worker tenure := by
  cases before with
  | none =>
      rw [show worker = {} from h] at hworker
      cases hworker
  | some tenure => exact ⟨tenure, rfl, h⟩

theorem Serves.isDue {instant : Int} (h : Serves worker tenure)
    (hheld : worker.status ∈ [WorkerStatus.attached, .draining])
    (hexpired : expired instant worker = true) : tenure.IsDue instant := by
  obtain ⟨-, hexpires, hdeadline⟩ := h.held hheld
  rw [expired, hexpires, hdeadline] at hexpired
  cases hdrain : tenure.drain with
  | none =>
      simp only [hdrain, Option.map_none, Option.any_none, Bool.false_or, Option.any_some,
        decide_eq_true_eq] at hexpired
      exact .inl hexpired
  | some drain =>
      simp only [hdrain, Option.map_some, Option.any_some, Bool.or_eq_true,
        decide_eq_true_eq] at hexpired
      exact hexpired.symm.imp id fun h => ⟨drain, hdrain, h⟩

/-- A row that ends a tenure is the last of its endings. -/
theorem Serves.endedBy {after : Worker} (h : Serves worker tenure)
    (hended : tenure.EndedBy row) (hworker : after.workerId = worker.workerId)
    (hepoch : after.leaseEpoch = worker.leaseEpoch)
    (hstatus : after.status ∉ [WorkerStatus.attached, .draining]) :
    Serves after { tenure with endings := tenure.endings ++ [row] } where
  workerId := hworker.trans h.workerId
  leaseEpoch := hepoch.trans h.leaseEpoch
  endings ending hending := by
    rcases List.mem_append.mp hending with hending | hending
    · exact h.endings ending hending
    · exact List.mem_singleton.mp hending ▸ hended
  held hheld := absurd hheld hstatus
  ended _ := List.append_ne_nil_of_right_ne_nil _ (List.cons_ne_nil row [])

end

/-- One accepted fact and the tenure after it. -/
theorem Applies.follows (h : Applies state row.occurredAt row.fact next)
    (hfollows : Follows state.worker (tenure past)) :
    Follows next.worker (follow (tenure past) row) := by
  rw [follow]
  generalize hfact : row.fact = fact at h
  cases h with
  | attached hlive hfree hepoch =>
      exact { workerId := rfl, leaseEpoch := rfl, endings := by simp
              held := fun _ => ⟨rfl, rfl, rfl⟩, ended := fun h => absurd (by simp) h }
  | heartbeat hworker hepoch hheld =>
      obtain ⟨tenure, htenure, hserves⟩ := hfollows.serves hworker
      obtain ⟨hendings, -, hdeadline⟩ := hserves.held hheld
      rw [htenure]
      exact { workerId := hworker, leaseEpoch := hepoch, endings := by simp [hendings]
              held := fun _ => ⟨hendings, rfl, hdeadline⟩, ended := fun h => absurd hheld h }
  | drainRequested hworker hepoch hattached =>
      obtain ⟨tenure, htenure, hserves⟩ := hfollows.serves hworker
      obtain ⟨hendings, hexpires, -⟩ := hserves.held (by simp [hattached])
      rw [htenure]
      exact { workerId := hserves.workerId, leaseEpoch := hserves.leaseEpoch
              endings := by simp [hendings], held := fun _ => ⟨hendings, hexpires, rfl⟩
              ended := fun h => absurd (by simp) h }
  | parked hworker hepoch hdraining =>
      obtain ⟨tenure, htenure, hserves⟩ := hfollows.serves hworker
      rw [htenure]
      refine hserves.endedBy ?_ rfl rfl (by simp)
      rw [Tenure.EndedBy, hfact]
      exact ⟨Option.some.inj (hserves.workerId.symm.trans hworker),
        hserves.leaseEpoch.symm.trans hepoch⟩
  | orphaned hworker hepoch hheld hexpired =>
      obtain ⟨tenure, htenure, hserves⟩ := hfollows.serves hworker
      rw [htenure]
      refine hserves.endedBy ?_ rfl rfl (by simp)
      rw [Tenure.EndedBy, hfact]
      exact ⟨⟨Option.some.inj (hserves.workerId.symm.trans hworker),
        hserves.leaseEpoch.symm.trans hepoch⟩, hserves.isDue hheld hexpired⟩
  | retired hworker hepoch =>
      obtain ⟨tenure, htenure, hserves⟩ := hfollows.serves hworker
      rw [htenure]
      refine hserves.endedBy ?_ rfl rfl (by simp)
      rw [Tenure.EndedBy, hfact]
      exact ⟨Option.some.inj (hserves.workerId.symm.trans hworker),
        hserves.leaseEpoch.symm.trans hepoch⟩
  | _ => exact hfollows

theorem read_follows (h : read sessionId rows = .ok state) : Follows state.worker (tenure rows) := by
  have hinit : Follows (initialState sessionId).worker none := rfl
  refine run_history (P := fun past state => Follows state.worker (tenure past)) hinit ?_ h
  intro past mid row next _ hmid hstep
  obtain ⟨-, traceId, after, happlies, rfl⟩ := applyFact_eq_ok hstep
  rw [tenure_snoc]
  exact happlies.follows hmid

theorem read_attachmentsFollow (h : read sessionId rows = .ok state) : AttachmentsFollow rows := by
  rintro past row future lease rfl hattached
  obtain ⟨before, after, hpast, hrow, -⟩ := run_split h
  obtain ⟨-, traceId, mid, happlies, -⟩ := applyFact_eq_ok hrow
  rw [hattached] at happlies
  cases happlies with
  | attached hlive hfree hepoch => exact (read_follows hpast).succeeds hfree hepoch

end Hseos.Delegated
