import Hseos.Liveness.Incident

/-! # What a run has said

The part of the classification that follows a declaration, in terms of what the events
say in their order.
-/

namespace Hseos.Liveness

/-- What a classified run is judged by. -/
structure Verdict where
  state : RunState
  violation : Bool
  overdue : Bool
  attempts : Nat
  deriving DecidableEq

def Run.verdict (run : Run) : Verdict := ⟨run.state, run.violation, run.overdue, run.attempts⟩

/-- The verdict on the events of a run. -/
def verdictAt (config : Config) (key : String × String) (events : List Event) (now : Int) :
    Option Verdict :=
  (classifyRun ⟨key.1, key.2, events⟩ config now).map (·.1.verdict)

/-- The declaration that a state comes from, if it does. -/
def RunState.spoken? : RunState → Option DeclaredState
  | .done => some .done
  | .blocked => some .blocked
  | .failed => some .failed
  | .waitingOk | .waitingOverdue => some .waitingOn
  | .running | .stalled | .idleNoState => none

/-! ## Bodies in their order -/

/-- No heartbeat comes after the last declaration. -/
def Spoken (bodies : List Body) : Prop :=
  ∃ before declaration after, bodies = before ++ declaration :: after ∧
    declaration.isDeclaration = true ∧ ∀ later ∈ after, later.isHeartbeat = false

/-- The last report's declaration. -/
def lastDeclared (bodies : List Body) : Option Declaration :=
  bodies.reverse.findSome? (·.declaration?)

/-- The last declared wait. -/
def lastWaited (bodies : List Body) : Option WaitingOn := bodies.reverse.findSome? (·.wait?)

/-- The wakes since the last report and the last escalation. -/
def wakeCount (bodies : List Body) : Nat :=
  ((bodies.rtakeWhile fun body => !body.closes).filter (·.isWake)).length

/-- The verdict on a run that has spoken. -/
def spokenVerdict (state : DeclaredState) (wait : Option WaitingOn) (attempts : Nat) (now : Int) :
    Verdict :=
  match state with
  | .done => ⟨.done, false, false, attempts⟩
  | .blocked => ⟨.blocked, false, false, attempts⟩
  | .failed => ⟨.failed, false, false, attempts⟩
  | .waitingOn =>
      match wait with
      | none => ⟨.waitingOverdue, true, true, attempts⟩
      | some wait =>
          if now < wait.deadlineMs then ⟨.waitingOk, false, false, attempts⟩
          else ⟨.waitingOverdue, true, true, attempts⟩

theorem spoken?_spokenVerdict {state : DeclaredState} {wait : Option WaitingOn} {attempts : Nat}
    {now : Int} : (spokenVerdict state wait attempts now).state.spoken? = some state := by
  cases state with
  | waitingOn =>
      cases wait with
      | none => rfl
      | some wait =>
          rw [spokenVerdict]
          split <;> rfl
  | _ => rfl

theorem attempts_spokenVerdict {state : DeclaredState} {wait : Option WaitingOn} {attempts : Nat}
    {now : Int} : (spokenVerdict state wait attempts now).attempts = attempts := by
  cases state with
  | waitingOn =>
      cases wait with
      | none => rfl
      | some wait =>
          rw [spokenVerdict]
          split <;> rfl
  | _ => rfl

/-- Only a wait depends on what is waited for. -/
theorem spokenVerdict_congr {state : DeclaredState} (hstate : state ≠ .waitingOn)
    (wait other : Option WaitingOn) (attempts : Nat) (now : Int) :
    spokenVerdict state wait attempts now = spokenVerdict state other attempts now := by
  cases state with
  | waitingOn => exact absurd rfl hstate
  | _ => rfl

variable {events : List Event} {first second : List Body}

theorem lastDeclared_append :
    lastDeclared (first ++ second) = (lastDeclared second).or (lastDeclared first) := by
  rw [lastDeclared, List.reverse_append, List.findSome?_append]
  rfl

theorem lastWaited_append :
    lastWaited (first ++ second) = (lastWaited second).or (lastWaited first) := by
  rw [lastWaited, List.reverse_append, List.findSome?_append]
  rfl

/-- Reading the last event of a kind is reading the last body of it. -/
theorem findLast_bind {α : Type} (read : Body → Option α) :
    (findLast events fun body => (read body).isSome).bind (fun event => read event.body) =
      (events.map (·.body)).reverse.findSome? read := by
  rw [findLast, ← List.map_reverse]
  induction events.reverse with
  | nil => rfl
  | cons event rest ih =>
      rw [List.map_cons, List.findSome?_cons, List.find?_cons]
      cases hread : read event.body with
      | none => simpa [hread] using ih
      | some a => simp [hread]

theorem isReport_eq (body : Body) : body.isReport = body.declaration?.isSome := by
  cases body <;> rfl

theorem length_wakes : (wakes events).length = wakeCount (events.map (·.body)) := by
  rw [wakes, incident, wakeCount, List.rtakeWhile, List.rtakeWhile, ← List.map_reverse,
    List.takeWhile_map, ← List.map_reverse, List.filter_map, List.length_map]
  rfl

theorem Body.isAgent_of_isDeclaration {body : Body} (h : body.isDeclaration = true) :
    body.isAgent = true := by
  cases body <;> first | rfl | cases h

/-! ## The classification -/

namespace RawRun

variable {raw : RawRun}

theorem declCurrent_iff (h : Ordered raw.events) :
    raw.declCurrent = true ↔ Spoken (raw.events.map (·.body)) := by
  unfold declCurrent
  cases hdeclared : findLast raw.events (·.isDeclaration) with
  | none =>
      have hnone := findLast_eq_none_iff.mp hdeclared
      constructor
      · exact nofun
      · rintro ⟨before, declaration, after, hbodies, hdeclaration, -⟩
        have hmem : declaration ∈ raw.events.map (·.body) := by simp [hbodies]
        obtain ⟨event, hevent, rfl⟩ := List.mem_map.mp hmem
        rw [hnone event hevent] at hdeclaration
        cases hdeclaration
  | some last =>
      obtain ⟨before, after, hevents, hlast, -⟩ := findLast_eq_some_iff.mp hdeclared
      simp only [Option.all_eq_true, decide_eq_true_eq]
      constructor
      · intro hheartbeat
        refine ⟨before.map (·.body), last.body, after.map (·.body), by simp [hevents], hlast, ?_⟩
        intro later hlater
        obtain ⟨event, hevent, rfl⟩ := List.mem_map.mp hlater
        rw [Bool.eq_false_iff]
        intro hbeat
        have hmem : event ∈ raw.events := by simp [hevents, hevent]
        cases hfound : findLast raw.events (·.isHeartbeat) with
        | none =>
            rw [findLast_eq_none_iff.mp hfound event hmem] at hbeat
            cases hbeat
        | some heartbeat =>
            have hle := (h.le_findLast hfound hmem hbeat).trans (hheartbeat heartbeat hfound)
            rw [hevents] at h
            exact absurd (h.lt_of_mem_after event hevent) (Nat.not_lt_of_le hle)
      · rintro ⟨before', declaration, after', hbodies, hdeclaration, hquiet⟩ heartbeat hheartbeat
        obtain ⟨earlier, rest, hsplit, -, hrest⟩ := List.map_eq_append_iff.mp hbodies
        obtain ⟨event, later, rfl, rfl, rfl⟩ := List.map_eq_cons_iff.mp hrest
        obtain ⟨_, _, hheartbeats, hbeat, -⟩ := findLast_eq_some_iff.mp hheartbeat
        -- The heartbeat is no later than this declaration, and this one than the last.
        have hle : event.id ≤ last.id := h.le_findLast hdeclared (by simp [hsplit]) hdeclaration
        have hmem : heartbeat ∈ raw.events := by simp [hheartbeats]
        rw [hsplit] at h hmem
        refine (h.le_of_not_mem_after hmem fun hlate => ?_).trans hle
        rw [hquiet _ (List.mem_map_of_mem hlate)] at hbeat
        cases hbeat

theorem declaration_eq : (findLast raw.events (·.isReport)).bind (·.body.declaration?) =
    lastDeclared (raw.events.map (·.body)) := by
  rw [lastDeclared, ← findLast_bind]
  simp only [isReport_eq]

theorem wait_eq : raw.wait = (lastWaited (raw.events.map (·.body))).or
    ((lastDeclared (raw.events.map (·.body))).bind (·.waitingOn)) := by
  rw [wait, declaration_eq, lastWaited, ← findLast_bind]

end RawRun

section

variable {config : Config} {key : String × String} {now : Int}

theorem Run.verdict_waiting {run : Run} (wait : Option WaitingOn) (hviolation : run.violation = false)
    (hoverdue : run.overdue = false) :
    (run.waiting wait now).verdict = spokenVerdict .waitingOn wait run.attempts now := by
  unfold Run.waiting
  cases wait with
  | none => rfl
  | some wait =>
      by_cases hdeadline : now < wait.deadlineMs <;>
        simp [spokenVerdict, Run.verdict, hdeadline, hviolation, hoverdue]

theorem Run.verdict_declared {run : Run} {raw : RawRun} {state : DeclaredState}
    (hreported : run.reported = some state) (hstate : state ≠ .waitingOn) (wait : Option WaitingOn)
    (hviolation : run.violation = false) (hoverdue : run.overdue = false) :
    (run.declared raw now).verdict = spokenVerdict state wait run.attempts now := by
  unfold Run.declared
  rw [hreported]
  cases state <;> simp_all [spokenVerdict, Run.verdict]

theorem verdictAt_of_spoken (h : Ordered events) (hspoken : Spoken (events.map (·.body)))
    {value : Declaration} (hvalue : lastDeclared (events.map (·.body)) = some value) :
    verdictAt config key events now = some (spokenVerdict value.state
      ((lastWaited (events.map (·.body))).or value.waitingOn)
      (wakeCount (events.map (·.body))) now) := by
  have hcurrent := (@RawRun.declCurrent_iff ⟨key.1, key.2, events⟩ h).mpr hspoken
  -- The declaration is an event of the agent.
  obtain ⟨last, hlast⟩ : ∃ last, findLast events (·.isAgent) = some last := by
    obtain ⟨before, declaration, after, hbodies, hdeclaration, -⟩ := hspoken
    have hmem : declaration ∈ events.map (·.body) := by simp [hbodies]
    obtain ⟨event, hevent, rfl⟩ := List.mem_map.mp hmem
    cases hfound : findLast events (·.isAgent) with
    | some last => exact ⟨last, rfl⟩
    | none =>
        have hagent := Body.isAgent_of_isDeclaration hdeclaration
        rw [findLast_eq_none_iff.mp hfound event hevent] at hagent
        cases hagent
  have hreported : (initialRun ⟨key.1, key.2, events⟩ config now last).reported =
      some value.state := by
    have hdeclared : (findLast events (·.isReport)).bind (·.body.declaration?) = some value :=
      (@RawRun.declaration_eq ⟨key.1, key.2, events⟩).trans hvalue
    have hmapped := congrArg (Option.map (·.state)) hdeclared
    rwa [Option.map_bind] at hmapped
  have hattempts : (initialRun ⟨key.1, key.2, events⟩ config now last).attempts =
      wakeCount (events.map (·.body)) := by
    simp only [initialRun]
    rw [RawRun.episode_eq_incident h]
    exact length_wakes
  have hwait : RawRun.wait ⟨key.1, key.2, events⟩ =
      (lastWaited (events.map (·.body))).or value.waitingOn := by
    rw [RawRun.wait_eq, hvalue, Option.bind_some]
  rw [← hwait, ← hattempts]
  simp only [verdictAt, classifyRun, classifyCore, hlast, hcurrent, if_true, Option.map_some,
    Option.some.injEq]
  by_cases hstate : value.state = .waitingOn
  · rw [hreported, hstate, if_pos rfl]
    exact Run.verdict_waiting _ rfl rfl
  · rw [if_neg (by rw [hreported, Option.some.injEq]; exact hstate)]
    exact Run.verdict_declared hreported hstate _ rfl rfl

/-- The state of a run that has not spoken comes from its silence. -/
theorem spoken?_eq_none (h : Ordered events) (hspoken : ¬ Spoken (events.map (·.body)))
    {verdict : Verdict} (hverdict : verdictAt config key events now = some verdict) :
    verdict.state.spoken? = none := by
  have hcurrent : RawRun.declCurrent ⟨key.1, key.2, events⟩ = false := by
    rw [Bool.eq_false_iff, ne_eq, @RawRun.declCurrent_iff ⟨key.1, key.2, events⟩ h]
    exact hspoken
  have hturn : ∀ (run : Run) idleS, (run.turnEnded config idleS).state.spoken? = none :=
    fun run idleS => by
      unfold Run.turnEnded
      split <;> rfl
  have hmid : ∀ (run : Run) silentS, run.state = .running →
      (run.midTurn config silentS).state.spoken? = none := fun run silentS hrun => by
    unfold Run.midTurn
    split
    · rfl
    · split <;> exact congrArg RunState.spoken? hrun
  simp only [verdictAt, classifyRun, Option.map_map, Option.map_eq_some_iff] at hverdict
  obtain ⟨run, hrun, rfl⟩ := hverdict
  simp only [classifyCore, hcurrent, Bool.false_eq_true, if_false] at hrun
  split at hrun
  · cases hrun
  · split at hrun
    · split at hrun
      · exact Option.some.inj hrun ▸ hturn _ _
      · exact Option.some.inj hrun ▸ hmid _ _ rfl
    · exact Option.some.inj hrun ▸ hmid _ _ rfl

end

end Hseos.Liveness
