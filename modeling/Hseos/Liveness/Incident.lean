import Mathlib.Data.List.DropRight
import Hseos.Liveness.Classify

/-! # Incidents

The stretches of a run's events that the classification counts wakes in, and what it
says about them.
-/

namespace Hseos.Liveness

variable {events before after : List Event} {event : Event}

/-- The event ends an incident. -/
def Body.closes (body : Body) : Bool := body.isReport || body.isEscalation

/-- The events after the last report and the last escalation. -/
def incident (events : List Event) : List Event := events.rtakeWhile fun event => !event.body.closes

/-- The wakes of the current incident. -/
def wakes (events : List Event) : List Event := (incident events).filter (·.body.isWake)

/-- A person was told and the agent has not been heard of since. -/
def HandedOver (events : List Event) : Prop :=
  ∃ before event after, events = before ++ event :: after ∧ event.body.isEscalation = true ∧
    ∀ later ∈ after, later.body.isAgent = false

theorem incident_append (hafter : ∀ later ∈ after, later.body.closes = false) :
    incident (before ++ after) = incident before ++ after := by
  induction after using List.reverseRecOn with
  | nil => simp
  | append_singleton after last ih =>
      rw [← List.append_assoc, incident, List.rtakeWhile_concat_pos _ _ _ (by
        simp [hafter last (by simp)]), ← List.append_assoc]
      rw [← ih fun later hlater => hafter later (List.mem_append_left _ hlater)]
      rfl

theorem incident_append_closes (hevent : event.body.closes = true)
    (hafter : ∀ later ∈ after, later.body.closes = false) :
    incident (before ++ event :: after) = after := by
  rw [List.append_cons, incident_append hafter, incident,
    List.rtakeWhile_concat_neg _ _ _ (by simp [hevent]), List.nil_append]

theorem incident_of_none (h : ∀ event ∈ events, event.body.closes = false) :
    incident events = events := by
  rw [incident, List.rtakeWhile_eq_self_iff]
  simpa using h

namespace RawRun

variable {raw : RawRun}

/-- The events that the classification takes by their ids are the current incident. -/
theorem episode_eq_incident (h : Ordered raw.events) : raw.episode = incident raw.events := by
  cases hclosing : findLast raw.events (·.closes) with
  | none =>
      have hopen := findLast_eq_none_iff.mp hclosing
      have hreport : findLast raw.events (·.isReport) = none :=
        findLast_eq_none_iff.mpr fun event hevent =>
          (Bool.or_eq_false_iff.mp (hopen event hevent)).1
      have hescalation : findLast raw.events (·.isEscalation) = none :=
        findLast_eq_none_iff.mpr fun event hevent =>
          (Bool.or_eq_false_iff.mp (hopen event hevent)).2
      rw [incident_of_none hopen, episode, incidentStart, hreport, hescalation]
      exact List.filter_eq_self.mpr fun event hevent => decide_eq_true (h.pos_of_mem hevent)
  | some last =>
      obtain ⟨before, after, hevents, hlast, hafter⟩ := findLast_eq_some_iff.mp hclosing
      rw [hevents] at h
      have hreports : ∀ later ∈ after, later.body.isReport = false :=
        fun later hlater => (Bool.or_eq_false_iff.mp (hafter later hlater)).1
      have hescalations : ∀ later ∈ after, later.body.isEscalation = false :=
        fun later hlater => (Bool.or_eq_false_iff.mp (hafter later hlater)).2
      -- Neither start is after the closing event, and one of them is it.
      have hbound : ∀ predicate, ((findLast before predicate).map (·.id)).getD 0 ≤ last.id := by
        intro predicate
        cases hfound : findLast before predicate with
        | none => exact Nat.zero_le _
        | some found =>
            obtain ⟨earlier, between, hbefore, -⟩ := findLast_eq_some_iff.mp hfound
            exact (h.lt_of_mem_before found (by simp [hbefore])).le
      have hstart : raw.incidentStart = last.id := by
        rw [incidentStart, hevents, findLast_append_cons hreports,
          findLast_append_cons hescalations]
        have hclose := Bool.or_eq_true_iff.mp hlast
        have hreportBound := hbound (·.isReport)
        have hescalationBound := hbound (·.isEscalation)
        by_cases hreport : last.body.isReport = true <;>
          by_cases hescalation : last.body.isEscalation = true <;>
          simp_all
      rw [episode, hstart, hevents, h.filter_lt, incident_append_closes hlast hafter]

theorem incidentClosed_iff (h : Ordered raw.events) :
    raw.incidentClosed = true ↔ HandedOver raw.events := by
  unfold incidentClosed
  cases hescalation : findLast raw.events (·.isEscalation) with
  | none =>
      have hnone := findLast_eq_none_iff.mp hescalation
      constructor
      · exact nofun
      · rintro ⟨before, event, after, hevents, hevent, -⟩
        rw [hnone event (by simp [hevents])] at hevent
        cases hevent
  | some last =>
      obtain ⟨before, after, hevents, hlast, hafter⟩ := findLast_eq_some_iff.mp hescalation
      simp only [Bool.not_eq_true', List.any_eq_false, Bool.and_eq_true, decide_eq_true_eq, not_and]
      constructor
      · intro hquiet
        refine ⟨before, last, after, hevents, hlast, fun later hlater => ?_⟩
        rw [Bool.eq_false_iff]
        intro hagent
        refine hquiet later (by simp [hevents, hlater]) hagent ?_
        rw [hevents] at h
        exact h.lt_of_mem_after later hlater
      · rintro ⟨before', event, after', hevents', hevent, hafter'⟩ later hlater hagent hid
        -- The escalation is the last one or an earlier one.
        have hle : event.id ≤ last.id := h.le_findLast hescalation (by simp [hevents']) hevent
        rw [hevents'] at h hlater
        rw [hafter' later (h.mem_after hlater (hle.trans_lt hid))] at hagent
        cases hagent

end RawRun

/-! ## Quiet events -/

/-- Events that say nothing to the budget: no wake, no report, no escalation, and nothing of the
agent. -/
theorem wakes_append (hafter : ∀ later ∈ after, later.body.closes = false ∧
    later.body.isWake = false) : wakes (before ++ after) = wakes before := by
  have hnone : after.filter (·.body.isWake) = [] :=
    List.filter_eq_nil_iff.mpr fun later hlater => by simp [(hafter later hlater).2]
  rw [wakes, incident_append fun later hlater => (hafter later hlater).1, List.filter_append, hnone,
    List.append_nil]
  rfl

theorem HandedOver.of_append (hafter : ∀ later ∈ after, later.body.isEscalation = false)
    (h : HandedOver (before ++ after)) : HandedOver before := by
  obtain ⟨first, event, rest, hevents, hevent, hrest⟩ := h
  have hnot : event ∉ after := fun hmem => by
    rw [hafter event hmem] at hevent
    cases hevent
  rcases List.append_eq_append_iff.mp hevents with ⟨more, -, hafter'⟩ | ⟨more, hbefore, hmore⟩
  · exact absurd (by simp [hafter']) hnot
  · rcases more with _ | ⟨head, more⟩
    · exact absurd ((List.nil_append after ▸ hmore) ▸ List.mem_cons_self) hnot
    · obtain ⟨rfl, rfl⟩ := List.cons_eq_cons.mp hmore
      exact ⟨first, event, more, hbefore, hevent, fun later hlater =>
        hrest later (List.mem_append_left _ hlater)⟩

end Hseos.Liveness
