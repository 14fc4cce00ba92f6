import Hseos.Session.Transition

/-! # Replays and their realm

Only the compaction of a turn whose name every object inherits reads or writes the
realm. A stream without one replays the same in every realm; after a stream with
one the realm refuses every further replay of it.
-/

namespace Hseos

variable {realm realm' other : Realm} {state next : SessionState} {event : SessionEvent}
  {events : List SessionEvent} {reducer reducer' : Reducer}

/-- The compaction of a turn with an inherited name. -/
def SessionEvent.usesRealm (event : SessionEvent) : Bool :=
  match event.payload with
  | .compactionCompleted record => record.turnId.val ∈ objectPrototypeKeys
  | _ => false

/-- No event compacts a turn with an inherited name. -/
def RealmFree (events : List SessionEvent) : Prop := ∀ event ∈ events, event.usesRealm = false

instance : Decidable (RealmFree events) := inferInstanceAs (Decidable (∀ _ ∈ _, _))

theorem realmFree_append {more : List SessionEvent} :
    RealmFree (events ++ more) ↔ RealmFree events ∧ RealmFree more := List.forall_mem_append

theorem RealmFree.of_isPrefix {past : List SessionEvent} (h : RealmFree events)
    (hpast : past <+: events) : RealmFree past := fun event hevent => h event (hpast.subset hevent)

/-! ## Streams that do not use the realm -/

theorem requireTurn_own {turnId : Identifier} {found : Option Turn}
    (hname : turnId.val ∉ objectPrototypeKeys) (h : requireTurn state turnId event = .ok found) :
    found.isSome = true := by
  unfold requireTurn at h
  cases hslot : state.turns.slot turnId with
  | own turn =>
      rw [hslot] at h
      rw [← pure_eq_ok_iff.mp h]
      rfl
  | absent => simp [hslot] at h
  | inherited =>
      unfold JsObject.slot at hslot
      cases hget : state.turns.get? turnId with
      | some turn => simp [hget] at hslot
      | none => simp [hget, PropertyKey.text, hname] at hslot

theorem applyCompactionCompleted_realm {record : CompactionRecord}
    (hname : record.turnId.val ∉ objectPrototypeKeys) :
    applyCompactionCompleted other state event record =
      (applyCompactionCompleted realm state event record).map fun result => (other, result.2) := by
  unfold applyCompactionCompleted
  cases hfound : requireTurn state record.turnId event with
  | error err => rfl
  | ok found =>
      obtain ⟨turn, rfl⟩ := Option.isSome_iff_exists.mp (requireTurn_own hname hfound)
      simp only [bind, Except.bind]
      cases reject (duplicateCompaction state.compactions record) (replayError
          "compaction identity or source set is already recorded"
          "AGENT_SESSION_DUPLICATE_COMPACTION") with
      | error err => rfl
      | ok _ =>
          cases compactionSources state turn record with
          | error err => rfl
          | ok sources =>
              simp only
              cases checkCompaction sources.1 (turn.assembly.map (·.budget)) record <;> rfl

theorem map_keep {x : Replay SessionState} :
    Except.map (Prod.mk other) x =
      (Except.map (Prod.mk realm) x).map fun result => (other, result.2) := by
  cases x <;> rfl

/-- The effect of an event that does not use the realm is the same in every realm. -/
theorem applyEvent_realm (realm : Realm) (h : event.usesRealm = false) :
    applyEvent other state event =
      (applyEvent realm state event).map fun result => (other, result.2) := by
  unfold applyEvent
  cases hpayload : event.payload with
  | sessionCreated spec => rfl
  | compactionCompleted record =>
      rw [SessionEvent.usesRealm, hpayload] at h
      exact applyCompactionCompleted_realm (by simpa using h)
  | _ => exact map_keep

theorem replayStep_realm (realm : Realm) (h : event.usesRealm = false) :
    replayStep ⟨other, state⟩ event =
      (replayStep ⟨realm, state⟩ event).map fun reducer => ⟨other, reducer.state⟩ := by
  unfold replayStep
  cases checkAdmission state event with
  | error err => rfl
  | ok _ =>
      simp only [bind, Except.bind]
      rw [applyEvent_realm realm h]
      cases applyEvent realm (state.advance event) event <;> rfl

theorem run_realm (realm : Realm) (h : RealmFree events) :
    run replayStep ⟨other, state⟩ events =
      (run replayStep ⟨realm, state⟩ events).map fun reducer => ⟨other, reducer.state⟩ := by
  induction events generalizing state realm with
  | nil => rfl
  | cons event rest ih =>
      obtain ⟨hevent, hrest⟩ := List.forall_mem_cons.mp h
      rw [run_cons, run_cons, replayStep_realm realm hevent]
      cases replayStep ⟨realm, state⟩ event with
      | error err => rfl
      | ok reducer => exact ih reducer.realm hrest

/-- A stream that does not use the realm replays to the same result in every realm. -/
theorem replaySessionEvents_realm (h : RealmFree events) :
    (replaySessionEvents other state events).2 = (replaySessionEvents realm state events).2 := by
  simp only [replaySessionEvents]
  rw [run_realm realm h]
  cases run replayStep ⟨realm, state⟩ events <;> rfl

theorem Accepted.inRealm (haccepted : Accepted realm events state) (h : RealmFree events) :
    Accepted other events state :=
  (replaySessionEvents_realm h).trans haccepted

/-! ## The realm a replay leaves -/

theorem replayStep_realm_le (h : replayStep reducer event = .ok reducer')
    (hrealm : reducer.realm = ⟨true⟩) : reducer'.realm = ⟨true⟩ := by
  obtain ⟨-, next, htransition, -⟩ := replayStep_eq_ok h
  generalize reducer'.realm = realm' at htransition
  cases htransition <;> first | exact hrealm | rfl

/-- What was written to the realm stays written. -/
theorem replaySessionEvents_written :
    (replaySessionEvents ⟨true⟩ state events).1 = ⟨true⟩ := by
  suffices h : ∀ reducer : Reducer, reducer.realm = ⟨true⟩ →
      (lastGood replayStep reducer events).realm = ⟨true⟩ from h _ rfl
  induction events with
  | nil => exact fun _ h => h
  | cons event rest ih =>
      intro reducer hrealm
      rw [lastGood]
      split
      next reducer' hstep => exact ih reducer' (replayStep_realm_le hstep hrealm)
      next => exact hrealm

/-- No turn of the state has an inherited name. -/
def SessionState.Unreserved (state : SessionState) : Prop :=
  ∀ turnId : Identifier, turnId.val ∈ objectPrototypeKeys → state.turns.get? turnId = none

theorem unreserved_initial : SessionState.initial.Unreserved := fun _ _ => rfl

theorem slot_truthy_of_inherited {turnId : Identifier} (h : turnId.val ∈ objectPrototypeKeys) :
    (state.turns.slot turnId).truthy = true := by
  unfold JsObject.slot
  cases state.turns.get? turnId with
  | some turn => rfl
  | none => simp [PropertyKey.text, h]

theorem applyTurnStarted_name {turnId : Identifier} {input : AgentMessage}
    (h : applyTurnStarted state event turnId input = .ok next) :
    turnId.val ∉ objectPrototypeKeys := by
  obtain ⟨hfresh, -⟩ := reject_bind_eq_ok_iff.mp h
  intro hname
  rw [slot_truthy_of_inherited hname] at hfresh
  cases hfresh

theorem SessionState.Unreserved.setTurn {turnId : Identifier} {turn : Turn} (h : state.Unreserved)
    (hname : turnId.val ∉ objectPrototypeKeys) : (state.setTurn turnId turn).Unreserved := by
  intro other hother
  have hne : other ≠ turnId := by
    rintro rfl
    exact hname hother
  exact (JsObject.get?_set_of_ne _ hne turn).trans (h other hother)

theorem SessionState.Unreserved.name {turnId : Identifier} {turn : Turn} (h : state.Unreserved)
    (hturn : state.turns.get? turnId = some turn) : turnId.val ∉ objectPrototypeKeys := by
  intro hname
  rw [h turnId hname] at hturn
  cases hturn

theorem SessionState.Unreserved.applyEvent (h : state.Unreserved)
    (happly : applyEvent realm state event = .ok (realm', next)) : next.Unreserved := by
  cases applyEvent_transition happly with
  | turnStarted hpayload hfresh =>
      rw [Hseos.applyEvent, hpayload] at happly
      exact h.setTurn (applyTurnStarted_name (keep_eq_ok happly).2)
  | contextAssembled hpayload hturn => exact h.setTurn (h.name hturn)
  | modelRequestStarted hpayload hturn => exact h.setTurn (h.name hturn)
  | modelRevisionRequested hpayload hturn => exact h.setTurn (h.name hturn)
  | turnStreamed hpayload hturn => exact h.setTurn (h.name hturn)
  | stepStreamed hpayload hturn => exact h.setTurn (h.name hturn)
  | toolExecutionStarted hpayload hturn => exact h.setTurn (h.name hturn)
  | toolExecutionCompleted hpayload hturn => exact h.setTurn (h.name hturn)
  | compactionCompleted hpayload hturn => exact h.setTurn (h.name hturn)
  | _ => exact h

theorem SessionState.Unreserved.replayStep (h : reducer.state.Unreserved)
    (hstep : replayStep reducer event = .ok reducer') : reducer'.state.Unreserved := by
  obtain ⟨-, next, happly, hstate⟩ := replayStep_applied hstep
  rw [hstate]
  exact (SessionState.Unreserved.applyEvent (show (reducer.state.advance event).Unreserved from h)
    happly : next.Unreserved)

theorem applyCompactionCompleted_inherited {record : CompactionRecord}
    (hturn : state.turns.get? record.turnId = none)
    (h : applyCompactionCompleted realm state event record = .ok (realm', next)) :
    realm = ⟨false⟩ ∧ realm' = ⟨true⟩ := by
  obtain ⟨found, hfound, h⟩ := bind_eq_ok_iff.mp h
  obtain rfl := hturn.symm.trans (requireTurn_eq_ok hfound)
  obtain ⟨-, h⟩ := reject_bind_eq_ok_iff.mp h
  dsimp only at h
  cases htrigger : record.trigger with
  | toolResultPressure =>
      rw [htrigger] at h
      exact (throw_eq_ok_iff.mp h).elim
  | contextPressure =>
      rw [htrigger] at h
      obtain ⟨hrealm, h⟩ := reject_bind_eq_ok_iff.mp h
      obtain ⟨sources, -, h⟩ := bind_eq_ok_iff.mp h
      obtain ⟨⟨⟩, -, h⟩ := bind_eq_ok_iff.mp h
      refine ⟨?_, (Prod.mk.inj (pure_eq_ok_iff.mp h)).1.symm⟩
      cases realm
      exact congrArg Realm.mk hrealm

/-- An event that uses the realm is accepted once. -/
theorem replayStep_usesRealm (h : reducer.state.Unreserved) (huse : event.usesRealm = true)
    (hstep : replayStep reducer event = .ok reducer') :
    reducer.realm = ⟨false⟩ ∧ reducer'.realm = ⟨true⟩ := by
  obtain ⟨-, next, happly, -⟩ := replayStep_applied hstep
  cases hpayload : event.payload <;> rw [SessionEvent.usesRealm, hpayload] at huse
  case compactionCompleted record =>
    rw [applyEvent, hpayload] at happly
    have hturn : (reducer.state.advance event).turns.get? record.turnId = none :=
      h record.turnId (by simpa using huse)
    exact applyCompactionCompleted_inherited hturn happly
  all_goals cases huse

/-- A stream that uses the realm is accepted only in an unwritten realm, and writes it. -/
theorem run_usesRealm (h : reducer.state.Unreserved) (huse : ¬ RealmFree events)
    (hrun : run replayStep reducer events = .ok reducer') :
    reducer.realm = ⟨false⟩ ∧ reducer'.realm = ⟨true⟩ := by
  induction events generalizing reducer with
  | nil => exact absurd (List.forall_mem_nil _) huse
  | cons event rest ih =>
      obtain ⟨middle, hstep, hrest⟩ := bind_eq_ok_iff.mp hrun
      cases hevent : event.usesRealm with
      | true =>
          obtain ⟨hbefore, hafter⟩ := replayStep_usesRealm h hevent hstep
          exact ⟨hbefore, run_invariant (P := fun reducer => reducer.realm = ⟨true⟩) hafter
            (fun _ _ _ hmid hnext => replayStep_realm_le hnext hmid) hrest⟩
      | false =>
          have hmiddle : middle.realm = reducer.realm := by
            have hsame : replayStep ⟨reducer.realm, reducer.state⟩ event = _ :=
              replayStep_realm reducer.realm hevent
            rw [hstep, Except.map, Except.ok.injEq] at hsame
            rw [hsame]
          rw [← hmiddle]
          refine ih (h.replayStep hstep) (fun hfree => huse ?_) hrest
          exact List.forall_mem_cons.mpr ⟨hevent, hfree⟩

end Hseos
