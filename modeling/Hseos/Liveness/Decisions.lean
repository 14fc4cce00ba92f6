import Hseos.Foundation.Numbered
import Hseos.Liveness.Incident
import Hseos.Liveness.Watch

/-! # What a cycle records

For each run, what the transaction adds to its events, and on what grounds.
-/

namespace Hseos.Liveness

/-! ## The ledger -/

namespace Ledger

variable {db : Ledger} {session agent : String} {body : Body} {now : Int} {key : String × String}

/-- The rows have the ids from one on. -/
def Sound (db : Ledger) : Prop := Numbered (fun row => row.event.id) db.rows

/-- The key of a row's run. -/
def keyOf (row : EventRow) : String × String := (row.session, row.agent)

/-- Several events of one run, recorded one after the other. -/
def recordAll (db : Ledger) (session agent : String) (now : Int) (bodies : List Body) : Ledger :=
  bodies.foldl (fun db body => db.recordEvent session agent body now) db

theorem Sound.recordEvent (h : db.Sound) : (db.recordEvent session agent body now).Sound :=
  Numbered.append h (by simp)

theorem Sound.recordAll (h : db.Sound) {bodies : List Body} :
    (db.recordAll session agent now bodies).Sound := by
  induction bodies generalizing db with
  | nil => exact h
  | cons body bodies ih => exact ih h.recordEvent

theorem Sound.ordered (h : db.Sound) (key : String × String) : Ordered (db.eventsOf key) := by
  have hpairs : (0 :: db.rows.map (·.event.id)).Pairwise (· < ·) := by
    rw [show db.rows.map (·.event.id) = List.range' 1 db.rows.length from h, List.pairwise_cons]
    refine ⟨fun n hn => ?_, List.pairwise_lt_range'⟩
    exact (List.mem_range'_1.mp hn).1
  refine hpairs.sublist (List.Sublist.cons_cons 0 ?_)
  rw [eventsOf, List.map_map]
  exact List.filter_sublist.map _

theorem eventsOf_recordEvent_self :
    (db.recordEvent session agent body now).eventsOf (session, agent) =
      db.eventsOf (session, agent) ++ [⟨db.rows.length + 1, now, body⟩] := by
  simp [eventsOf, recordEvent]

theorem eventsOf_recordEvent_of_ne (hkey : key ≠ (session, agent)) :
    (db.recordEvent session agent body now).eventsOf key = db.eventsOf key := by
  simp [eventsOf, recordEvent, Ne.symm hkey]

theorem eventsOf_recordAll_of_ne (hkey : key ≠ (session, agent)) {bodies : List Body} :
    (db.recordAll session agent now bodies).eventsOf key = db.eventsOf key := by
  induction bodies generalizing db with
  | nil => rfl
  | cons body bodies ih => exact ih.trans (eventsOf_recordEvent_of_ne hkey)

/-- Recording several events adds events with these bodies. -/
theorem exists_recordAll (bodies : List Body) :
    ∃ fresh : List Event, fresh.map (·.body) = bodies ∧ (∀ event ∈ fresh, event.ts = now) ∧
      (db.recordAll session agent now bodies).rows =
        db.rows ++ fresh.map (EventRow.mk session agent) ∧
      (db.recordAll session agent now bodies).eventsOf (session, agent) =
        db.eventsOf (session, agent) ++ fresh := by
  induction bodies generalizing db with
  | nil => exact ⟨[], by simp [recordAll]⟩
  | cons body bodies ih =>
      obtain ⟨fresh, hbodies, hts, hrows, hevents⟩ :=
        @ih (db.recordEvent session agent body now)
      refine ⟨⟨db.rows.length + 1, now, body⟩ :: fresh, ?_, ?_, ?_, ?_⟩
      · rw [List.map_cons, hbodies]
      · intro event hevent
        rcases List.mem_cons.mp hevent with rfl | hevent
        · rfl
        · exact hts event hevent
      · rw [List.map_cons, List.append_cons]
        exact hrows
      · rw [List.append_cons, ← eventsOf_recordEvent_self]
        exact hevents

theorem recordAll_concat {bodies : List Body} :
    (db.recordAll session agent now bodies).recordEvent session agent body now =
      db.recordAll session agent now (bodies ++ [body]) := by
  simp [recordAll]

end Ledger

/-! ## Classified runs -/

section

variable {raw : RawRun} {config : Config} {now : Int} {run : Run}

/-- What a classified run says of its incident. -/
structure Run.Counts (run : Run) (raw : RawRun) : Prop where
  session : run.session = raw.session
  agent : run.agent = raw.agent
  attempts : run.attempts = (raw.episode.filter (·.body.isWake)).length
  lastWakeAt : run.lastWakeAt = (raw.episode.filter (·.body.isWake)).getLast?.map (·.ts)
  escalated : run.escalated = raw.incidentClosed

theorem classifyCore_counts (h : classifyCore raw config now = some run) : run.Counts raw := by
  unfold classifyCore at h
  split at h
  · cases h
  next lastAgent _ =>
    have hinitial : (initialRun raw config now lastAgent).Counts raw := ⟨rfl, rfl, rfl, rfl, rfl⟩
    obtain ⟨hsession, hagent, hattempts, hlastWakeAt, hescalated⟩ := hinitial
    simp only at h
    generalize initialRun raw config now lastAgent = start at *
    split at h
    · obtain rfl := Option.some.inj h
      split
      · unfold Run.waiting
        split
        · split <;> exact ⟨hsession, hagent, hattempts, hlastWakeAt, hescalated⟩
        · exact ⟨hsession, hagent, hattempts, hlastWakeAt, hescalated⟩
      · unfold Run.declared
        split <;> exact ⟨hsession, hagent, hattempts, hlastWakeAt, hescalated⟩
    · have hturn : ∀ idleS, (start.turnEnded config idleS).Counts raw := fun idleS => by
        unfold Run.turnEnded
        split <;> exact ⟨hsession, hagent, hattempts, hlastWakeAt, hescalated⟩
      have hmid : ∀ silentS, (start.midTurn config silentS).Counts raw := fun silentS => by
        unfold Run.midTurn
        split
        · exact ⟨hsession, hagent, hattempts, hlastWakeAt, hescalated⟩
        · split <;> exact ⟨hsession, hagent, hattempts, hlastWakeAt, hescalated⟩
      split at h
      · split at h
        · exact Option.some.inj h ▸ hturn _
        · exact Option.some.inj h ▸ hmid _
      · exact Option.some.inj h ▸ hmid _

/-! ## Actions -/

/-- The last wake was long enough ago. -/
def Run.Rested (run : Run) (now : Int) : Prop :=
  ∀ wakeAt, run.lastWakeAt = some wakeAt → wakeAt + wakeDelayS run.attempts * 1000 ≤ now

theorem rested_of_all (h : (run.lastWakeAt.all fun wakeAt =>
    wakeDelayS run.attempts ≤ seconds (now - wakeAt)) = true) : run.Rested now := by
  intro wakeAt hwakeAt
  rw [hwakeAt, Option.all_some, decide_eq_true_eq, seconds] at h
  have hpositive : 0 < wakeDelayS run.attempts := by
    rw [wakeDelayS]
    have := Nat.two_pow_pos (run.attempts - 1)
    omega
  omega

theorem planAction_eq_wake (h : planAction run config now = .wake) :
    run.violation = true ∧ run.escalated = false ∧ run.attempts < config.maxWakeAttempts ∧
      (run.attempts = 0 ∨ run.Rested now) := by
  simp only [planAction] at h
  split at h
  · split at h <;> cases h
  · split at h
    · cases h
    next hviolation =>
      rw [not_or, Bool.not_eq_false, Bool.not_eq_true] at hviolation
      split at h
      · cases h
      · split at h
        next hlt =>
          split at h
          next hrested =>
            exact ⟨hviolation.1, hviolation.2, hlt, hrested.imp_right rested_of_all⟩
          · cases h
        · split at h <;> cases h

theorem planAction_eq_escalate (h : planAction run config now = .escalate) :
    run.violation = true ∧ run.escalated = false ∧
      ((run.wait.map (·.wakeVia)) = some .human ∨
        config.maxWakeAttempts ≤ run.attempts ∧ run.Rested now) := by
  simp only [planAction] at h
  split at h
  · split at h <;> cases h
  · split at h
    · cases h
    next hviolation =>
      rw [not_or, Bool.not_eq_false, Bool.not_eq_true] at hviolation
      refine ⟨hviolation.1, hviolation.2, ?_⟩
      split at h
      next hhuman => exact .inl hhuman
      · split at h
        · split at h <;> cases h
        next hle =>
          split at h
          next hrested => exact .inr ⟨Nat.le_of_not_lt hle, rested_of_all hrested⟩
          · cases h

/-! ## Evaluated runs -/

/-- How an evaluated run comes from its events. -/
structure EvaluatedRun.Judges (config : Config) (now : Int) (raw : RawRun) (item : EvaluatedRun) :
    Prop where
  counts : item.run.Counts raw
  action : item.action = planAction item.run config now
  classified : ∃ run reasonCode, classifyRun raw config now = some (run, reasonCode) ∧
    (item.run.violation = true → run.violation = true)

theorem Run.Counts.reconciled (h : run.Counts raw) (ended : Option String)
    (reconcile : Reconcile) : (run.reconciled ended reconcile).Counts raw := by
  obtain ⟨hsession, hagent, hattempts, hlastWakeAt, hescalated⟩ := h
  unfold Run.reconciled
  split
  · exact ⟨hsession, hagent, hattempts, hlastWakeAt, hescalated⟩
  · split <;> exact ⟨hsession, hagent, hattempts, hlastWakeAt, hescalated⟩

theorem judges_of_evaluateRun {io : WatchIo} {reconcileCache : Option Observed}
    {endedRunStatus : EndedRunStatus} {item : EvaluatedRun}
    (h : evaluateRun config now io reconcileCache endedRunStatus raw = some item) :
    item.Judges config now raw := by
  unfold evaluateRun at h
  obtain ⟨⟨run, reasonCode⟩, hclassified, rfl⟩ := Option.map_eq_some_iff.mp h
  have hcounts : run.Counts raw := by
    obtain ⟨core, hcore, heq⟩ := Option.map_eq_some_iff.mp hclassified
    obtain ⟨rfl, -⟩ := Prod.mk.inj heq
    exact classifyCore_counts hcore
  simp only
  split
  next hviolation =>
    exact ⟨hcounts.reconciled _ _, rfl, run, reasonCode, hclassified, fun _ => hviolation⟩
  · exact ⟨hcounts, rfl, run, reasonCode, hclassified, id⟩

end

/-! ## The transaction -/

/-- The event neither wakes the agent nor calls a person. -/
def Body.isQuiet (body : Body) : Bool := !body.isWake && !body.isEscalation

namespace EvaluatedRun

variable {config : Config} {item : EvaluatedRun} {body : Body}

/-- What a cycle with some wakes records of a run, and its wakes after that. -/
inductive Outcome (config : Config) (item : EvaluatedRun) (wakes : Nat) : List Body → Nat → Prop where
  | quiet (bodies : List Body) (hquiet : ∀ body ∈ bodies, body.isQuiet = true) :
      Outcome config item wakes bodies wakes
  | woken (haction : item.action = .wake) (hbelow : wakes < config.maxWakesPerCycle) :
      Outcome config item wakes (item.findings ++ [item.wakeBody config]) (wakes + 1)
  | escalated (haction : item.action = .escalate) :
      Outcome config item wakes (item.findings ++ [item.escalateBody]) wakes

theorem mem_findings (h : body ∈ item.findings) :
    body.isQuiet = true ∧ body.closes = false ∧ body.isAgent = false := by
  unfold findings at h
  rcases List.mem_append.mp h with h | h <;> split at h
  · obtain rfl := List.mem_singleton.mp h
    exact ⟨rfl, rfl, rfl⟩
  · cases h
  · obtain rfl := List.mem_singleton.mp h
    exact ⟨rfl, rfl, rfl⟩
  · cases h

end EvaluatedRun

namespace Cycle

variable {config : Config} {now : Int} {cycle : Cycle} {item : EvaluatedRun}

theorem foldl_record (bodies : List Body) :
    bodies.foldl (fun cycle body => record cycle item now body) cycle =
      { cycle with db := cycle.db.recordAll item.run.session item.run.agent now bodies } := by
  induction bodies generalizing cycle with
  | nil => rfl
  | cons body bodies ih => exact ih

theorem exists_decideRun (config : Config) (now : Int) (cycle : Cycle) (item : EvaluatedRun) :
    ∃ bodies, (decideRun config now cycle item).db =
        cycle.db.recordAll item.run.session item.run.agent now bodies ∧
      item.Outcome config cycle.wakesThisCycle bodies
        (decideRun config now cycle item).wakesThisCycle := by
  unfold decideRun
  split
  · exact ⟨[item.progressBody], rfl, .quiet _ fun body hbody => by
      rw [List.mem_singleton.mp hbody]; rfl⟩
  · simp only [foldl_record]
    have hfound : ∀ body ∈ item.findings, body.isQuiet = true :=
      fun body hbody => (EvaluatedRun.mem_findings hbody).1
    split
    next => exact ⟨item.findings, rfl, .quiet _ hfound⟩
    next haction =>
      split
      · exact ⟨item.findings, rfl, .quiet _ hfound⟩
      next hbelow =>
        exact ⟨item.findings ++ [item.wakeBody config], Ledger.recordAll_concat,
          .woken haction (Nat.lt_of_not_le hbelow)⟩
    next haction =>
      exact ⟨item.findings ++ [item.escalateBody], Ledger.recordAll_concat, .escalated haction⟩
    next haction =>
      refine ⟨item.findings ++ [item.notifyBody], Ledger.recordAll_concat, .quiet _ ?_⟩
      intro body hbody
      rcases List.mem_append.mp hbody with hbody | hbody
      · exact hfound body hbody
      · rw [List.mem_singleton.mp hbody]
        rfl

end Cycle

/-! ## The runs of a cycle -/

section

variable {db : Ledger} {config : Config} {now : Int} {io : WatchIo}
  {reconcileCache : Option Observed} {endedRunStatus : EndedRunStatus}

theorem mem_evaluateRuns {item : EvaluatedRun}
    (h : item ∈ evaluateRuns db config now io reconcileCache endedRunStatus) :
    item.Judges config now ⟨item.run.session, item.run.agent, db.eventsOf item.key⟩ := by
  obtain ⟨raw, hraw, hitem⟩ := List.mem_filterMap.mp h
  obtain ⟨key, -, rfl⟩ := List.mem_map.mp hraw
  have hjudges := judges_of_evaluateRun hitem
  have hsession := hjudges.counts.session
  have hagent := hjudges.counts.agent
  rw [EvaluatedRun.key, hsession, hagent]
  exact hjudges

/-- Each run is evaluated once. -/
theorem nodup_evaluateRuns :
    ((evaluateRuns db config now io reconcileCache endedRunStatus).map (·.key)).Nodup := by
  have hkeys : ((db.loadRuns now).map fun raw => (raw.session, raw.agent)).Nodup := by
    rw [Ledger.loadRuns, List.map_map]
    have hid : (fun raw : RawRun => (raw.session, raw.agent)) ∘
        (fun key : String × String => ⟨key.1, key.2, db.eventsOf key⟩) = id := rfl
    rw [hid, List.map_id]
    exact (nodup_unique _).filter _
  rw [evaluateRuns]
  refine hkeys.sublist ?_
  induction db.loadRuns now with
  | nil => exact List.Sublist.refl _
  | cons raw rest ih =>
      rw [List.filterMap_cons]
      split
      · exact ih.cons _
      next item hitem =>
        have hcounts := (judges_of_evaluateRun hitem).counts
        rw [List.map_cons, List.map_cons, EvaluatedRun.key, hcounts.session, hcounts.agent]
        exact ih.cons_cons _

end

end Hseos.Liveness
