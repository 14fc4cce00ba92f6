import Hseos.Liveness.Decisions
import Hseos.Liveness.PendingReports
import Hseos.Liveness.Spoken

/-! # Reports that are drained late

A parked report is recorded with the instant of its line but after all the events that
are already in the ledger. When that makes a difference.
-/

namespace Hseos.Liveness

variable {base later : List Body} {body : Body}

/-! ## Events that come on top -/

/-- Every heartbeat is followed by a declaration. -/
def Answered (bodies : List Body) : Prop :=
  ∀ before heartbeat after, bodies = before ++ heartbeat :: after →
    heartbeat.isHeartbeat = true → ∃ answer ∈ after, answer.isDeclaration = true

theorem not_isHeartbeat_of_isDeclaration (h : body.isDeclaration = true) :
    body.isHeartbeat = false := by
  cases body <;> first | rfl | cases h

theorem spoken_concat : Spoken (base ++ [body]) ↔
    body.isDeclaration = true ∨ body.isHeartbeat = false ∧ Spoken base := by
  constructor
  · rintro ⟨before, declaration, after, hbodies, hdeclaration, hquiet⟩
    rcases List.eq_nil_or_concat' after with rfl | ⟨after, last, rfl⟩
    · obtain ⟨-, hlast⟩ := List.append_inj' hbodies rfl
      obtain rfl := List.singleton_inj.mp hlast
      exact .inl hdeclaration
    · rw [← List.cons_append, ← List.append_assoc] at hbodies
      obtain ⟨rfl, hlast⟩ := List.append_inj' hbodies rfl
      obtain rfl := List.singleton_inj.mp hlast
      exact .inr ⟨hquiet body (by simp), before, declaration, after, rfl, hdeclaration,
        fun other hother => hquiet other (List.mem_append_left _ hother)⟩
  · rintro (hdeclaration | ⟨hbeat, before, declaration, after, rfl, hdeclaration, hquiet⟩)
    · exact ⟨base, body, [], rfl, hdeclaration, fun _ h => absurd h List.not_mem_nil⟩
    · refine ⟨before, declaration, after ++ [body], by simp, hdeclaration, fun other hother => ?_⟩
      rcases List.mem_append.mp hother with hother | hother
      · exact hquiet other hother
      · rwa [List.mem_singleton.mp hother]

theorem answered_concat : Answered (later ++ [body]) ↔
    body.isDeclaration = true ∨ body.isHeartbeat = false ∧ Answered later := by
  constructor
  · intro h
    by_cases hdeclaration : body.isDeclaration = true
    · exact .inl hdeclaration
    · refine .inr ⟨?_, fun before heartbeat after hlater hbeat => ?_⟩
      · rw [Bool.eq_false_iff]
        intro hbeat
        obtain ⟨answer, hanswer, -⟩ := h later body [] rfl hbeat
        exact absurd hanswer List.not_mem_nil
      · obtain ⟨answer, hanswer, hdeclares⟩ :=
          h before heartbeat (after ++ [body]) (by simp [hlater]) hbeat
        rcases List.mem_append.mp hanswer with hanswer | hanswer
        · exact ⟨answer, hanswer, hdeclares⟩
        · exact absurd (List.mem_singleton.mp hanswer ▸ hdeclares) hdeclaration
  · rintro h before heartbeat after hbodies hbeat
    rcases List.eq_nil_or_concat' after with rfl | ⟨after, last, rfl⟩
    · obtain ⟨-, hlast⟩ := List.append_inj' hbodies rfl
      obtain rfl := List.singleton_inj.mp hlast
      rcases h with hdeclaration | ⟨hquiet, -⟩
      · rw [not_isHeartbeat_of_isDeclaration hdeclaration] at hbeat
        cases hbeat
      · rw [hquiet] at hbeat
        cases hbeat
    · rw [← List.cons_append, ← List.append_assoc] at hbodies
      obtain ⟨rfl, hlast⟩ := List.append_inj' hbodies rfl
      obtain rfl := List.singleton_inj.mp hlast
      rcases h with hdeclaration | ⟨-, hanswered⟩
      · exact ⟨body, by simp, hdeclaration⟩
      · obtain ⟨answer, hanswer, hdeclares⟩ := hanswered before heartbeat after rfl hbeat
        exact ⟨answer, List.mem_append_left _ hanswer, hdeclares⟩

/-- On top of a declaration, what matters is whether the heartbeats were answered. -/
theorem spoken_append_iff (h : Spoken base) : Spoken (base ++ later) ↔ Answered later := by
  induction later using List.reverseRecOn with
  | nil =>
      rw [List.append_nil]
      exact ⟨fun _ before heartbeat after hnil => absurd hnil (by simp), fun _ => h⟩
  | append_singleton later last ih =>
      rw [← List.append_assoc, spoken_concat, answered_concat, ih]

theorem wakeCount_concat : wakeCount (base ++ [body]) =
    if body.closes then 0 else wakeCount base + if body.isWake then 1 else 0 := by
  cases hcloses : body.closes with
  | true => rw [wakeCount, List.rtakeWhile_concat_neg _ _ _ (by simp [hcloses])]; rfl
  | false =>
      rw [wakeCount, List.rtakeWhile_concat_pos _ _ _ (by simp [hcloses]), List.filter_append,
        List.length_append]
      cases hwake : body.isWake <;> simp [wakeCount, hwake]

theorem wakeCount_append (h : wakeCount base = 0) : wakeCount (base ++ later) = wakeCount later := by
  induction later using List.reverseRecOn with
  | nil => rw [List.append_nil, h]; rfl
  | append_singleton later last ih =>
      rw [← List.append_assoc, wakeCount_concat, wakeCount_concat, ih]

/-! ## A report -/

/-- The events of a report. -/
def reportBodies (value : Declaration) (truth : Option Truth) (sourceKey : Option String) :
    List Body :=
  .report value truth sourceKey :: (value.waitingOn.map Body.waitDeclared).toList

section

variable {value : Declaration} {truth : Option Truth} {sourceKey : Option String}

theorem Ledger.recordReport_eq {db : Ledger} {session agent : String} {now : Int} :
    db.recordReport session agent value truth sourceKey now =
      db.recordAll session agent now (reportBodies value truth sourceKey) := by
  unfold recordReport reportBodies
  cases value.waitingOn <;> rfl

theorem spoken_reportBodies : Spoken (base ++ reportBodies value truth sourceKey) := by
  unfold reportBodies
  cases value.waitingOn with
  | none => exact spoken_concat.mpr (.inl rfl)
  | some wait =>
      rw [List.append_cons]
      exact spoken_concat.mpr (.inl rfl)

theorem wakeCount_reportBodies : wakeCount (base ++ reportBodies value truth sourceKey) = 0 := by
  unfold reportBodies
  cases value.waitingOn with
  | none => exact wakeCount_concat
  | some wait =>
      rw [Option.map_some, Option.toList_some, List.append_cons, wakeCount_concat, wakeCount_concat]
      rfl

theorem lastDeclared_reportBodies :
    lastDeclared (reportBodies value truth sourceKey) = some value := by
  unfold reportBodies
  cases value.waitingOn <;> rfl

theorem lastWaited_reportBodies :
    lastWaited (reportBodies value truth sourceKey) = value.waitingOn := by
  unfold reportBodies
  cases value.waitingOn <;> rfl

end

/-! ## Late and timely -/

/-- What the later events must say for a late report to be as good as a timely one. -/
structure Agrees (value : Declaration) (now : Int) (later : List Body) : Prop where
  answered : Answered later
  unwoken : wakeCount later = 0
  sameState : ∀ last, lastDeclared later = some last → last.state = value.state
  /-- The later wait ends at the same time, or both are over. -/
  sameDeadline : ∀ wait other, value.waitingOn = some wait → lastWaited later = some other →
    max other.deadlineMs now = max wait.deadlineMs now

section

variable {config : Config} {key : String × String} {now : Int} {late timely : List Event}
  {value : Declaration} {truth : Option Truth} {sourceKey : Option String}

variable (config key) in
theorem verdictAt_late (hlate : Ordered late)
    (hbodies : late.map (·.body) = base ++ later ++ reportBodies value truth sourceKey)
    (hwait : value.waitingOn.isSome = decide (value.state = .waitingOn)) (time : Int) :
    verdictAt config key late time = some (spokenVerdict value.state value.waitingOn 0 time) := by
  have hspoken : Spoken (late.map (·.body)) := hbodies ▸ spoken_reportBodies
  have hdeclared : lastDeclared (late.map (·.body)) = some value := by
    rw [hbodies, lastDeclared_append, lastDeclared_reportBodies]
    rfl
  rw [verdictAt_of_spoken hlate hspoken hdeclared, hbodies, wakeCount_reportBodies,
    lastWaited_append, lastWaited_reportBodies]
  by_cases hstate : value.state = .waitingOn
  · obtain ⟨wait, hsome⟩ := Option.isSome_iff_exists.mp (hwait.trans (decide_eq_true hstate))
    rw [hsome]
    rfl
  · rw [spokenVerdict_congr hstate]

variable (config key) in
theorem verdictAt_timely (htimely : Ordered timely)
    (hbodies : timely.map (·.body) = base ++ reportBodies value truth sourceKey ++ later)
    (hanswered : Answered later) : ∃ wait,
      (∀ time, verdictAt config key timely time = some (spokenVerdict
        ((lastDeclared later).getD value).state wait (wakeCount later) time)) ∧
      ∀ own, value.waitingOn = some own → wait = some ((lastWaited later).getD own) := by
  have hspoken : Spoken (timely.map (·.body)) :=
    hbodies ▸ (spoken_append_iff spoken_reportBodies).mpr hanswered
  have hdeclared : lastDeclared (timely.map (·.body)) = some ((lastDeclared later).getD value) := by
    rw [hbodies, lastDeclared_append, lastDeclared_append, lastDeclared_reportBodies]
    cases lastDeclared later <;> rfl
  have hwakes : wakeCount (timely.map (·.body)) = wakeCount later := by
    rw [hbodies, wakeCount_append wakeCount_reportBodies]
  refine ⟨(lastWaited (timely.map (·.body))).or ((lastDeclared later).getD value).waitingOn,
    fun time => ?_, fun own hown => ?_⟩
  · rw [verdictAt_of_spoken htimely hspoken hdeclared, hwakes]
  · rw [hbodies, lastWaited_append, lastWaited_append, lastWaited_reportBodies, hown]
    cases lastWaited later <;> rfl

/-- Two waits read alike from an instant on exactly if they end at the same time or are over. -/
theorem spokenVerdict_waiting_iff (wait other : WaitingOn) (attempts : Nat) :
    (∀ time, now ≤ time → spokenVerdict .waitingOn (some wait) attempts time =
      spokenVerdict .waitingOn (some other) attempts time) ↔
      max other.deadlineMs now = max wait.deadlineMs now := by
  have hread : ∀ (wait : WaitingOn) time,
      (spokenVerdict .waitingOn (some wait) attempts time).violation = false ↔
        time < wait.deadlineMs := by
    intro wait time
    rw [spokenVerdict]
    by_cases htime : time < wait.deadlineMs <;> simp [htime]
  constructor
  · intro h
    have hsame : ∀ time, now ≤ time → (time < wait.deadlineMs ↔ time < other.deadlineMs) := by
      intro time htime
      rw [← hread wait, ← hread other, h time htime]
    have hwait := hsame (max wait.deadlineMs now) (le_max_right _ _)
    have hother := hsame (max other.deadlineMs now) (le_max_right _ _)
    omega
  · intro h time htime
    have hsame : time < wait.deadlineMs ↔ time < other.deadlineMs := by omega
    simp only [spokenVerdict, hsame]

/-- A late report reads like a timely one from an instant on exactly if the events in between
agree with it. -/
theorem verdicts_agree_iff (hlate : Ordered late) (htimely : Ordered timely)
    (hlateBodies : late.map (·.body) = base ++ later ++ reportBodies value truth sourceKey)
    (htimelyBodies : timely.map (·.body) = base ++ reportBodies value truth sourceKey ++ later)
    (hwait : value.waitingOn.isSome = decide (value.state = .waitingOn)) :
    (∀ time, now ≤ time → verdictAt config key late time = verdictAt config key timely time) ↔
      Agrees value now later := by
  have hlateVerdict := verdictAt_late config key hlate hlateBodies hwait
  constructor
  · intro h
    have hanswered : Answered later := by
      by_contra hnot
      rw [← spoken_append_iff spoken_reportBodies, ← htimelyBodies] at hnot
      have hsame := (h now le_rfl).symm.trans (hlateVerdict now)
      have hnone := spoken?_eq_none htimely hnot hsame
      rw [spoken?_spokenVerdict] at hnone
      cases hnone
    obtain ⟨wait, htimelyVerdict, hown⟩ :=
      verdictAt_timely config key htimely htimelyBodies hanswered
    have hsame : ∀ time, now ≤ time → spokenVerdict value.state value.waitingOn 0 time =
        spokenVerdict ((lastDeclared later).getD value).state wait (wakeCount later) time := by
      intro time htime
      have := h time htime
      rwa [hlateVerdict, htimelyVerdict, Option.some.injEq] at this
    have hunwoken : wakeCount later = 0 := by
      have := congrArg Verdict.attempts (hsame now le_rfl)
      rw [attempts_spokenVerdict, attempts_spokenVerdict] at this
      exact this.symm
    have hstate : ((lastDeclared later).getD value).state = value.state := by
      have := congrArg (fun verdict => verdict.state.spoken?) (hsame now le_rfl)
      simp only [spoken?_spokenVerdict, Option.some.injEq] at this
      exact this.symm
    refine ⟨hanswered, hunwoken, fun last hlast => ?_, fun own other hvalue hother => ?_⟩
    · rwa [hlast] at hstate
    · have hwaiting : value.state = .waitingOn := by
        rw [hvalue] at hwait
        exact of_decide_eq_true hwait.symm
      rw [hunwoken, hstate, hwaiting, hvalue, hown own hvalue, hother] at hsame
      exact (spokenVerdict_waiting_iff own other 0).mp hsame
  · rintro ⟨hanswered, hunwoken, hsameState, hsameDeadline⟩ time htime
    obtain ⟨wait, htimelyVerdict, hown⟩ :=
      verdictAt_timely config key htimely htimelyBodies hanswered
    have hstate : ((lastDeclared later).getD value).state = value.state := by
      cases hlast : lastDeclared later with
      | none => rfl
      | some last => exact hsameState last hlast
    rw [hlateVerdict, htimelyVerdict, hunwoken, hstate]
    congr 1
    by_cases hwaiting : value.state = .waitingOn
    · obtain ⟨own, hvalue⟩ := Option.isSome_iff_exists.mp (hwait.trans (decide_eq_true hwaiting))
      rw [hwaiting, hvalue, hown own hvalue]
      apply (spokenVerdict_waiting_iff own _ 0).mpr _ time htime
      cases hother : lastWaited later with
      | none => rfl
      | some other => exact hsameDeadline own other hvalue hother
    · exact spokenVerdict_congr hwaiting _ _ _ _

end

/-! ## Drained reports -/

/-- The events with ids in their order. -/
def renumber (events : List Event) : List Event :=
  (events.zipIdx 1).map fun (event, id) => { event with id := id }

/-- The run's events, had these been recorded at their own instant. -/
def timely (history : List Event) (bodies : List Body) (time : Int) : List Event :=
  renumber (history.takeWhile (·.ts ≤ time) ++ bodies.map (Event.mk 0 time) ++
    history.dropWhile (·.ts ≤ time))

/-- What the events after an instant say. -/
def laterThan (history : List Event) (time : Int) : List Body :=
  (history.dropWhile (·.ts ≤ time)).map (·.body)

theorem map_body_renumber (events : List Event) :
    (renumber events).map (·.body) = events.map (·.body) := by
  rw [renumber, List.map_map]
  conv_rhs => rw [← List.zipIdx_map_fst 1 events, List.map_map]
  rfl

theorem ordered_renumber (events : List Event) : Ordered (renumber events) := by
  have hids : (renumber events).map (·.id) = List.range' 1 events.length := by
    rw [renumber, List.map_map]
    exact List.zipIdx_map_snd 1 events
  rw [Ordered, hids, List.pairwise_cons]
  exact ⟨fun n hn => (List.mem_range'_1.mp hn).1, List.pairwise_lt_range'⟩

theorem map_body_timely (history : List Event) (bodies : List Body) (time : Int) :
    (timely history bodies time).map (·.body) =
      (history.takeWhile (·.ts ≤ time)).map (·.body) ++ bodies ++ laterThan history time := by
  have hfresh : (bodies.map (Event.mk 0 time)).map (·.body) = bodies := by
    rw [List.map_map]
    exact List.map_id bodies
  rw [timely, map_body_renumber, List.map_append, List.map_append, hfresh]
  rfl

/-- A declaration without errors has a wait exactly if it is one of a wait. -/
theorem isSome_waitingOn {value : Declaration} {config : Config} {now : Int}
    (h : declarationErrors value config now = []) :
    value.waitingOn.isSome = decide (value.state = .waitingOn) := by
  simp only [declarationErrors, List.append_eq_nil_iff, ite_eq_right_iff, List.cons_ne_nil,
    imp_false] at h
  obtain ⟨⟨⟨hrequired, hforbidden⟩, -⟩, -⟩ := h
  by_cases hstate : value.state = .waitingOn
  · rw [decide_eq_true hstate, Option.isSome_iff_ne_none]
    exact fun hnone => hrequired ⟨hstate, hnone⟩
  · rw [decide_eq_false hstate, Option.isSome_eq_false_iff, Option.isNone_iff_eq_none]
    by_contra hsome
    exact hforbidden ⟨hstate, hsome⟩

theorem isSome_waitingOn_of_readPendingReport {format : LineFormat} {record : PendingRecord}
    {config : Config} {now : Int} {report : PendingReport}
    (h : readPendingReport format record config now = .ok report) :
    report.value.waitingOn.isSome = decide (report.value.state = .waitingOn) := by
  unfold readPendingReport parseLivenessLine at h
  simp only at h
  split at h
  · cases h
  · split at h
    · cases h
    next hparsed =>
      split at hparsed
      · cases hparsed
      · split at hparsed
        next herrors =>
          cases hparsed
          split at h
          · cases h
          · cases h
            exact isSome_waitingOn herrors
        · cases hparsed

/-- A line of an agent that is done, parked at the instant zero. -/
def doneLine : LineFormat where
  parseRecord _ := .ok ⟨"s1", "a1", "LIVENESS", some 0, none⟩
  parseSchema _ := .ok ⟨.done, "merged", some "report.md", none⟩

def guardConfig : Config := ⟨900, 300, 3, 3, 14400, "human"⟩

/-- The agent goes on working ten seconds later. -/
def workingAgent : Ledger := Ledger.recordEvent ⟨[]⟩ "s1" "a1" (.heartbeat none) 10000

end Hseos.Liveness
