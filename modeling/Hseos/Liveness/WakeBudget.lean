import Hseos.Liveness.Decisions

/-! # The wake budget

Over every run of the watchers and the agents, how often and how soon a silent agent is
woken, and when a person is called.
-/

namespace Hseos.Liveness

variable {config : Config} {now : Int} {events fresh past : List Event} {event : Event}

/-! ## The law of one run -/

/-- The last wake of the incident was long enough before. -/
def LongSince (past : List Event) (now : Int) : Prop :=
  ∀ last, (wakes past).getLast? = some last →
    last.ts + wakeDelayS (wakes past).length * 1000 ≤ now

/-- What an event may be after the events before it. -/
structure Lawful (config : Config) (past : List Event) (event : Event) : Prop where
  wake : event.body.isWake = true →
    (wakes past).length < config.maxWakeAttempts ∧ LongSince past event.ts
  exhaustion : event.body.isExhaustion = true →
    (wakes past).length = config.maxWakeAttempts ∧ LongSince past event.ts
  unanswered : event.body.isWake = true ∨ event.body.isEscalation = true → ¬ HandedOver past

theorem Lawful.of_isQuiet (h : event.body.isQuiet = true) : Lawful config past event := by
  rw [Body.isQuiet, Bool.and_eq_true, Bool.not_eq_true', Bool.not_eq_true'] at h
  refine ⟨fun hwake => ?_, fun hexhaustion => ?_, fun hloud => ?_⟩
  · rw [h.1] at hwake
    cases hwake
  · -- An escalation for exhaustion is an escalation.
    cases hbody : event.body <;> rw [hbody] at h hexhaustion <;>
      simp_all [Body.isExhaustion, Body.isEscalation]
    split at hexhaustion <;> simp_all
  · rw [h.1, h.2] at hloud
    rcases hloud with hloud | hloud <;> cases hloud

theorem Body.isQuiet_of_isAgent {body : Body} (h : body.isAgent = true) : body.isQuiet = true := by
  cases body <;> first | rfl | cases h

theorem lawful_append_quiet (h : Throughout (Lawful config) events)
    (hquiet : ∀ event ∈ fresh, event.body.isQuiet = true) :
    Throughout (Lawful config) (events ++ fresh) := by
  induction fresh using List.reverseRecOn with
  | nil => rwa [List.append_nil]
  | append_singleton fresh last ih =>
      rw [← List.append_assoc]
      apply (ih fun event hevent => hquiet event (List.mem_append_left _ hevent)).snoc
      exact .of_isQuiet (hquiet last (by simp))

theorem wakes_concat : wakes (events ++ [event]) =
    if event.body.closes then [] else wakes events ++ if event.body.isWake then [event] else [] := by
  cases hcloses : event.body.closes with
  | true => simp [wakes, incident_append_closes hcloses]
  | false =>
      have happend : incident (events ++ [event]) = incident events ++ [event] :=
        incident_append (by simp [hcloses])
      rw [wakes, happend, List.filter_append]
      cases hwake : event.body.isWake <;> simp [wakes, hwake]

/-- No incident has more wakes than allowed. -/
theorem length_wakes_le (h : Throughout (Lawful config) events) :
    (wakes events).length ≤ config.maxWakeAttempts := by
  induction events using List.reverseRecOn with
  | nil => exact Nat.zero_le _
  | append_singleton past last ih =>
      have hpast := ih (h.of_isPrefix (List.prefix_append _ _))
      rw [wakes_concat]
      split
      · exact Nat.zero_le _
      · split
        next hwake =>
          rw [List.length_append]
          exact (h.last.wake hwake).1
        · rwa [List.append_nil]

theorem length_filter_le_of_open {stretch future : List Event}
    (h : Throughout (Lawful config) (past ++ stretch ++ future))
    (hopen : ∀ event ∈ stretch, event.body.closes = false) :
    (stretch.filter (·.body.isWake)).length ≤ config.maxWakeAttempts := by
  have hle := length_wakes_le (h.of_isPrefix (List.prefix_append _ _))
  rw [wakes, incident_append hopen, List.filter_append, List.length_append] at hle
  omega

/-! ## One run in a cycle -/

namespace EvaluatedRun.Judges

variable {raw : RawRun} {item : EvaluatedRun} (h : item.Judges config now raw)
  (hordered : Ordered raw.events)
include h hordered

theorem attempts_eq : item.run.attempts = (wakes raw.events).length := by
  rw [h.counts.attempts, RawRun.episode_eq_incident hordered]
  rfl

theorem longSince (hrested : item.run.Rested now) : LongSince raw.events now := by
  intro last hlast
  rw [← h.attempts_eq hordered]
  apply hrested
  rw [h.counts.lastWakeAt, RawRun.episode_eq_incident hordered]
  exact congrArg (Option.map (·.ts)) hlast

theorem not_handedOver (hescalated : item.run.escalated = false) : ¬ HandedOver raw.events := by
  rw [← RawRun.incidentClosed_iff hordered, ← h.counts.escalated, hescalated]
  exact Bool.false_ne_true

/-- What the transaction adds to the run is lawful. -/
theorem lawful_append {before after : Nat} {bodies : List Body}
    (hlawful : Throughout (Lawful config) raw.events)
    (houtcome : item.Outcome config before bodies after) (hbodies : fresh.map (·.body) = bodies)
    (hts : ∀ event ∈ fresh, event.ts = now) :
    Throughout (Lawful config) (raw.events ++ fresh) := by
  -- What was found comes first and changes nothing that the law is about.
  have hfindings : ∀ {found : List Event}, found.map (·.body) = item.findings →
      Throughout (Lawful config) (raw.events ++ found) ∧
        wakes (raw.events ++ found) = wakes raw.events ∧
        (HandedOver (raw.events ++ found) → HandedOver raw.events) := by
    intro found hfound
    have hmem : ∀ event ∈ found, event.body ∈ item.findings :=
      fun event hevent => hfound ▸ List.mem_map_of_mem hevent
    have hquiet := fun event hevent => (mem_findings (hmem event hevent)).1
    refine ⟨lawful_append_quiet hlawful hquiet, wakes_append fun event hevent => ?_,
      HandedOver.of_append fun event hevent => ?_⟩
    · have := hquiet event hevent
      rw [Body.isQuiet, Bool.and_eq_true, Bool.not_eq_true'] at this
      exact ⟨(mem_findings (hmem event hevent)).2.1, this.1⟩
    · have := hquiet event hevent
      rw [Body.isQuiet, Bool.and_eq_true, Bool.not_eq_true', Bool.not_eq_true'] at this
      exact this.2
  cases houtcome with
  | quiet _ hquiet =>
      apply lawful_append_quiet hlawful
      intro event hevent
      exact hquiet _ (hbodies ▸ List.mem_map_of_mem hevent)
  | woken haction hbelow =>
      obtain ⟨found, lasts, rfl, hfound, hlasts⟩ := List.map_eq_append_iff.mp hbodies
      obtain ⟨last, rfl, hlast⟩ := List.map_eq_singleton_iff.mp hlasts
      obtain ⟨hthrough, hwakes, hhanded⟩ := hfindings hfound
      rw [h.action] at haction
      obtain ⟨-, hescalated, hlt, hrested⟩ := planAction_eq_wake haction
      rw [← List.append_assoc]
      apply hthrough.snoc
      refine ⟨fun _ => ⟨?_, ?_⟩, fun hexhaustion => ?_, fun _ hover =>
        h.not_handedOver hordered hescalated (hhanded hover)⟩
      · rwa [hwakes, ← h.attempts_eq hordered]
      · rw [LongSince, hwakes, hts last (by simp)]
        rcases hrested with hzero | hrested
        · rw [h.attempts_eq hordered, List.length_eq_zero_iff] at hzero
          simp [hzero]
        · exact h.longSince hordered hrested
      · rw [hlast] at hexhaustion
        cases hexhaustion
  | escalated haction =>
      obtain ⟨found, lasts, rfl, hfound, hlasts⟩ := List.map_eq_append_iff.mp hbodies
      obtain ⟨last, rfl, hlast⟩ := List.map_eq_singleton_iff.mp hlasts
      obtain ⟨hthrough, hwakes, hhanded⟩ := hfindings hfound
      rw [h.action] at haction
      obtain ⟨-, hescalated, hcause⟩ := planAction_eq_escalate haction
      rw [← List.append_assoc]
      apply hthrough.snoc
      refine ⟨fun hwake => ?_, fun hexhaustion => ?_, fun _ hover =>
        h.not_handedOver hordered hescalated (hhanded hover)⟩
      · rw [hlast] at hwake
        cases hwake
      · rcases hcause with hhuman | ⟨hmax, hrested⟩
        · -- A person is called at once: this is not for exhaustion.
          rw [hlast, escalateBody, cause, if_pos hhuman] at hexhaustion
          cases hexhaustion
        · rw [h.attempts_eq hordered] at hmax
          rw [LongSince, hwakes, hts last (by simp)]
          exact ⟨(length_wakes_le hlawful).antisymm hmax, h.longSince hordered hrested⟩

end EvaluatedRun.Judges

/-! ## A cycle -/

namespace EvaluatedRun

variable {item : EvaluatedRun} {before after : Nat} {bodies : List Body}

/-- The wakes that a cycle counts are the ones it records. -/
theorem Outcome.count (h : item.Outcome config before bodies after) :
    (bodies.filter (·.isWake)).length + before = after ∧
      (before ≤ config.maxWakesPerCycle → after ≤ config.maxWakesPerCycle) := by
  have hnone : ∀ {bodies : List Body}, (∀ body ∈ bodies, body.isQuiet = true) →
      bodies.filter (·.isWake) = [] := by
    intro bodies hquiet
    rw [List.filter_eq_nil_iff]
    intro body hbody
    have := hquiet body hbody
    rw [Body.isQuiet, Bool.and_eq_true, Bool.not_eq_true'] at this
    rw [this.1]
    exact Bool.false_ne_true
  have hfindings : item.findings.filter (·.isWake) = [] :=
    hnone fun body hbody => (mem_findings hbody).1
  cases h with
  | quiet _ hquiet => exact ⟨by rw [hnone hquiet, List.length_nil, Nat.zero_add], id⟩
  | woken _ hbelow =>
      refine ⟨?_, fun _ => hbelow⟩
      rw [List.filter_append, hfindings, List.nil_append, Nat.add_comm]
      rfl
  | escalated =>
      refine ⟨?_, id⟩
      rw [List.filter_append, hfindings, List.nil_append]
      exact Nat.zero_add _

/-- Only a run in violation is woken or handed over. -/
theorem Judges.violation {raw : RawRun} (h : item.Judges config now raw)
    (houtcome : item.Outcome config before bodies after) {body : Body} (hbody : body ∈ bodies)
    (hloud : body.isQuiet = false) : item.run.violation = true := by
  cases houtcome with
  | quiet _ hquiet =>
      rw [hquiet body hbody] at hloud
      cases hloud
  | woken haction => exact (planAction_eq_wake (h.action ▸ haction)).1
  | escalated haction => exact (planAction_eq_escalate (h.action ▸ haction)).1

end EvaluatedRun

namespace Cycle

variable {cycle cycle' : Cycle} {item : EvaluatedRun} {items : List EvaluatedRun}

/-- What a cycle adds to the ledger for some runs, with its count of the wakes. -/
def Adds (config : Config) (now : Int) (items : List EvaluatedRun) (cycle cycle' : Cycle) : Prop :=
  ∃ fresh, cycle'.db.rows = cycle.db.rows ++ fresh ∧
    (fresh.filter (·.event.body.isWake)).length + cycle.wakesThisCycle = cycle'.wakesThisCycle ∧
    (cycle.wakesThisCycle ≤ config.maxWakesPerCycle →
      cycle'.wakesThisCycle ≤ config.maxWakesPerCycle) ∧
    ∀ row ∈ fresh, row.event.ts = now ∧ (row.event.body.isQuiet = false →
      ∃ item ∈ items, item.key = Ledger.keyOf row ∧ item.run.violation = true)

/-- The ids are in order and the events of every run are lawful. -/
def Sound (config : Config) (db : Ledger) : Prop :=
  db.Sound ∧ ∀ key, Throughout (Lawful config) (db.eventsOf key)

/-- What is done for one run. -/
theorem decideRun_keeps (hsound : Sound config cycle.db)
    (hjudges : item.Judges config now ⟨item.run.session, item.run.agent,
      cycle.db.eventsOf item.key⟩) :
    Sound config (decideRun config now cycle item).db ∧
      (∀ key, key ≠ item.key →
        (decideRun config now cycle item).db.eventsOf key = cycle.db.eventsOf key) ∧
      Adds config now [item] cycle (decideRun config now cycle item) := by
  obtain ⟨bodies, hdb, houtcome⟩ := exists_decideRun config now cycle item
  obtain ⟨fresh, hbodies, hts, hrows, hevents⟩ :=
    @Ledger.exists_recordAll cycle.db item.run.session item.run.agent now bodies
  rw [← hdb] at hrows hevents
  have hother : ∀ key, key ≠ item.key →
      (decideRun config now cycle item).db.eventsOf key = cycle.db.eventsOf key := by
    intro key hkey
    rw [hdb]
    exact Ledger.eventsOf_recordAll_of_ne hkey
  refine ⟨⟨?_, fun key => ?_⟩, hother, fresh.map (EventRow.mk item.run.session item.run.agent),
    hrows, ?_, houtcome.count.2, fun row hrow => ?_⟩
  · rw [hdb]
    exact hsound.1.recordAll
  · by_cases hkey : key = item.key
    · rw [hkey, EvaluatedRun.key, hevents]
      exact hjudges.lawful_append (hsound.1.ordered _) (hsound.2 _) houtcome hbodies hts
    · rw [hother key hkey]
      exact hsound.2 key
  · rw [← houtcome.count.1, ← hbodies, List.filter_map, List.filter_map, List.length_map,
      List.length_map]
    rfl
  · obtain ⟨event, hevent, rfl⟩ := List.mem_map.mp hrow
    refine ⟨hts event hevent, fun hloud => ⟨item, List.mem_singleton.mpr rfl, rfl, ?_⟩⟩
    exact hjudges.violation houtcome (hbodies ▸ List.mem_map_of_mem hevent) hloud

theorem Adds.nil : Adds config now [] cycle cycle :=
  ⟨[], by simp, by simp, id, fun row hrow => absurd hrow List.not_mem_nil⟩

theorem Adds.cons {cycle'' : Cycle} (h : Adds config now [item] cycle cycle')
    (h' : Adds config now items cycle' cycle'') :
    Adds config now (item :: items) cycle cycle'' := by
  obtain ⟨fresh, hrows, hcount, hbound, hfresh⟩ := h
  obtain ⟨fresh', hrows', hcount', hbound', hfresh'⟩ := h'
  refine ⟨fresh ++ fresh', ?_, ?_, hbound' ∘ hbound, fun row hrow => ?_⟩
  · rw [hrows', hrows, List.append_assoc]
  · rw [List.filter_append, List.length_append]
    omega
  · rcases List.mem_append.mp hrow with hrow | hrow
    · refine ⟨(hfresh row hrow).1, fun hloud => ?_⟩
      obtain ⟨found, hfound, hkey, hviolation⟩ := (hfresh row hrow).2 hloud
      obtain rfl := List.mem_singleton.mp hfound
      exact ⟨found, List.mem_cons_self, hkey, hviolation⟩
    · refine ⟨(hfresh' row hrow).1, fun hloud => ?_⟩
      obtain ⟨found, hfound, hrest⟩ := (hfresh' row hrow).2 hloud
      exact ⟨found, List.mem_cons_of_mem _ hfound, hrest⟩

/-- The loop over the runs. Each run's events are as they were evaluated until its turn comes. -/
theorem foldl_decideRun_keeps (hsound : Sound config cycle.db) (hnodup : (items.map (·.key)).Nodup)
    (hjudges : ∀ item ∈ items, item.Judges config now ⟨item.run.session, item.run.agent,
      cycle.db.eventsOf item.key⟩) :
    Sound config (items.foldl (decideRun config now) cycle).db ∧
      Adds config now items cycle (items.foldl (decideRun config now) cycle) := by
  induction items generalizing cycle with
  | nil => exact ⟨hsound, .nil⟩
  | cons item items ih =>
      rw [List.map_cons, List.nodup_cons] at hnodup
      obtain ⟨hsound', hother, hadds⟩ :=
        decideRun_keeps hsound (hjudges item List.mem_cons_self)
      have hrest := ih hsound' hnodup.2 fun later hlater => by
        have hkey : later.key ≠ item.key :=
          fun hkey => hnodup.1 (hkey ▸ List.mem_map_of_mem hlater)
        rw [hother _ hkey]
        exact hjudges later (List.mem_cons_of_mem _ hlater)
      exact ⟨hrest.1, hadds.cons hrest.2⟩

end Cycle

/-- The transaction of a cycle. -/
theorem decideRuns_keeps {db : Ledger} {observed : Observed} {endedRunStatus : EndedRunStatus}
    (hsound : Cycle.Sound config db) :
    Cycle.Sound config (decideRuns db config now observed endedRunStatus).db ∧
      ∃ fresh, (decideRuns db config now observed endedRunStatus).db.rows = db.rows ++ fresh ∧
        (fresh.filter (·.event.body.isWake)).length ≤ config.maxWakesPerCycle ∧
        ∀ row ∈ fresh, row.event.ts = now ∧ (row.event.body.isQuiet = false →
          ∃ run reasonCode, classifyRun ⟨row.session, row.agent, db.eventsOf (Ledger.keyOf row)⟩
            config now = some (run, reasonCode) ∧ run.violation = true) := by
  have hperm := List.mergeSort_perm
    (evaluateRuns db config now inertIo (some observed) endedRunStatus)
    fun a b => a.run.lastEventAt ≤ b.run.lastEventAt
  obtain ⟨hsound', fresh, hrows, hcount, hbound, hfresh⟩ :=
    @Cycle.foldl_decideRun_keeps config now ⟨db, 0, []⟩ _ hsound
      ((hperm.map (·.key)).nodup_iff.mpr nodup_evaluateRuns)
      fun item hitem => mem_evaluateRuns (hperm.mem_iff.mp hitem)
  refine ⟨hsound', fresh, hrows, ?_, fun row hrow => ⟨(hfresh row hrow).1, fun hloud => ?_⟩⟩
  · exact hcount.trans_le (hbound (Nat.zero_le _))
  · obtain ⟨item, hitem, hkey, hviolation⟩ := (hfresh row hrow).2 hloud
    obtain ⟨run, reasonCode, hclassified, hrun⟩ :=
      (mem_evaluateRuns (hperm.mem_iff.mp hitem)).classified
    obtain ⟨hsession, hagent⟩ := Prod.mk.inj hkey
    rw [hkey, hsession, hagent] at hclassified
    exact ⟨run, reasonCode, hclassified, hrun hviolation⟩

/-! ## Runs -/

theorem Cycle.Sound.recordEvent {db : Ledger} (h : Cycle.Sound config db) {session agent : String}
    {body : Body} (hagent : body.isAgent = true) :
    Cycle.Sound config (db.recordEvent session agent body now) := by
  refine ⟨h.1.recordEvent, fun key => ?_⟩
  by_cases hkey : key = (session, agent)
  · rw [hkey, Ledger.eventsOf_recordEvent_self]
    exact (h.2 _).snoc (.of_isQuiet (Body.isQuiet_of_isAgent hagent))
  · rw [Ledger.eventsOf_recordEvent_of_ne hkey]
    exact h.2 key

namespace Watchers

variable {ι : Type} [DecidableEq ι] {s s' : Watchers ι} {a : WatchStep ι}

theorem step_keeps (h : Cycle.Sound config s.db) (hstep : s.step config a = .ok s') :
    Cycle.Sound config s'.db := by
  cases a with
  | record session agent body now =>
      simp only [step] at hstep
      split at hstep <;> cases hstep
      next hagent => exact h.recordEvent hagent
  | report session agent value truth sourceKey now =>
      cases hstep
      unfold Ledger.recordReport
      split
      · exact h.recordEvent rfl
      · exact (h.recordEvent rfl).recordEvent rfl
  | observe => cases hstep; exact h
  | decide watcher endedRunStatus =>
      simp only [step] at hstep
      split at hstep <;> cases hstep
      exact (decideRuns_keeps h).1
  | stop => cases hstep; exact h

theorem sound_run {actions : List (WatchStep ι)} (h : run (step config) initial actions = .ok s) :
    Cycle.Sound config s.db := by
  have hinit : Cycle.Sound config (initial : Watchers ι).db := by
    refine ⟨Numbered.nil, fun key past event future hsplit => ?_⟩
    simp [initial, Ledger.eventsOf] at hsplit
  exact run_invariant (P := fun s => Cycle.Sound config s.db) hinit (fun _ _ _ => step_keeps) h

/-- Over every run, an agent is woken within its budget and a person is called only when it is
spent; and each cycle keeps to its own bound and to the runs that are in violation. -/
theorem keeps_wake_budget {actions : List (WatchStep ι)}
    (h : run (step config) initial actions = .ok s) :
    (∀ key, Throughout (Lawful config) (s.db.eventsOf key)) ∧
    (∀ key past stretch future, s.db.eventsOf key = past ++ stretch ++ future →
      (∀ event ∈ stretch, event.body.closes = false) →
        (stretch.filter (·.body.isWake)).length ≤ config.maxWakeAttempts) ∧
    ∀ past watcher endedRunStatus future, actions = past ++ .decide watcher endedRunStatus :: future →
      ∃ before after now seen fresh, run (step config) initial past = .ok before ∧
        before.observed watcher = some (now, seen) ∧
        before.step config (.decide watcher endedRunStatus) = .ok after ∧
        after.db.rows = before.db.rows ++ fresh ∧
        (fresh.filter (·.event.body.isWake)).length ≤ config.maxWakesPerCycle ∧
        ∀ row ∈ fresh, row.event.ts = now ∧
          (row.event.body.isWake = true ∨ row.event.body.isEscalation = true →
            ∃ run reasonCode, classifyRun ⟨row.session, row.agent,
              before.db.eventsOf (row.session, row.agent)⟩ config now = some (run, reasonCode) ∧
                run.violation = true) := by
  have hsound := sound_run h
  refine ⟨hsound.2, fun key past stretch future hevents hopen => ?_, ?_⟩
  · exact length_filter_le_of_open (hevents ▸ hsound.2 key) hopen
  · rintro past watcher endedRunStatus future rfl
    obtain ⟨before, after, hpast, hstep, -⟩ := run_split h
    cases hobserved : before.observed watcher with
    | none => simp [step, hobserved] at hstep
    | some seen =>
        obtain ⟨now, seen⟩ := seen
        obtain ⟨-, fresh, hrows, hwakes, hfresh⟩ :=
          @decideRuns_keeps config now before.db seen endedRunStatus (sound_run hpast)
        refine ⟨before, after, now, seen, fresh, hpast, hobserved, hstep, ?_, hwakes,
          fun row hrow => ⟨(hfresh row hrow).1, fun hloud => (hfresh row hrow).2 ?_⟩⟩
        · simp only [step, hobserved] at hstep
          cases hstep
          exact hrows
        · rw [Body.isQuiet]
          rcases hloud with hloud | hloud <;> simp [hloud]

/-- An agent that ended its turn without a word. -/
def silentAgent : List (WatchStep Unit) :=
  [.record "s1" "a1" (.turnEnd none) 0, .observe () 60000 inertIo fun _ => none,
    .decide () fun _ => none]

theorem silent_agent_keeps_wake_budget :
    ∃ s : Watchers Unit, run (step ⟨900, 300, 3, 3, 14400, "human"⟩) initial silentAgent = .ok s ∧
      ∀ key, Throughout (Lawful ⟨900, 300, 3, 3, 14400, "human"⟩) (s.db.eventsOf key) :=
  have hrun : ∃ s : Watchers Unit,
      run (step ⟨900, 300, 3, 3, 14400, "human"⟩) initial silentAgent = .ok s := ⟨_, rfl⟩
  hrun.imp fun _ h => ⟨h, (keeps_wake_budget h).1⟩

end Watchers

end Hseos.Liveness
