import Hseos.Foundation.Numbered
import Hseos.Session.Settlement

/-! # Where durable history comes from

Every item of the durable history was recorded by one event of the stream, and no two
items by the same one: a turn's input by the event that started the turn, its answer by
a model event of the turn.
-/

namespace Hseos

/-- The turn whose model event an event records. -/
def SessionEvent.streamedTurn? (event : SessionEvent) : Option Identifier :=
  match event.payload with
  | .modelStreamed payload => some payload.turnId
  | _ => none

/-- What a transition does to the turns: nothing, starting one, or changing one without touching
its input, where only a model event of the turn adds to its model events. -/
inductive TurnsStep (state : SessionState) (event : SessionEvent) (next : SessionState) : Prop where
  | kept (hturns : next.turns = state.turns) (horder : next.turnOrder = state.turnOrder)
  | started {turnId : Identifier} {input : AgentMessage}
      (hpayload : event.payload = .turnStarted turnId input)
      (hfresh : state.turns.get? turnId = none)
      (hturns : next.turns = state.turns.set turnId (newTurn event turnId input))
      (horder : next.turnOrder = state.turnOrder ++ [turnId])
  | changed {turnId : Identifier} {turn turn' : Turn} (hturn : state.turns.get? turnId = some turn)
      (hturns : next.turns = state.turns.set turnId turn')
      (horder : next.turnOrder = state.turnOrder)
      (hinput : turn'.inputEventId = turn.inputEventId ∧
        turn'.inputEventSequence = turn.inputEventSequence)
      (hevents : turn'.modelEvents = turn.modelEvents ∨
        ∃ payload, event.payload = .modelStreamed payload ∧ payload.turnId = turnId ∧
          turn'.modelEvents = turn.modelEvents ++ [streamedEvent event payload])

section

variable {realm realm' : Realm} {state next : SessionState} {event : SessionEvent}

theorem Turn.compacted_input (turn : Turn) (compaction : Compaction) (older : Bool) :
    (turn.compacted compaction older).inputEventId = turn.inputEventId ∧
      (turn.compacted compaction older).inputEventSequence = turn.inputEventSequence ∧
      (turn.compacted compaction older).modelEvents = turn.modelEvents := by
  unfold Turn.compacted
  split <;> exact ⟨rfl, rfl, rfl⟩

theorem turnsStep (h : Transition realm state event realm' next) : TurnsStep state event next := by
  cases h with
  | turnStarted hpayload hfresh => exact .started hpayload hfresh rfl rfl
  | contextAssembled hpayload hturn hfresh hinput =>
      exact .changed hturn rfl rfl ⟨rfl, rfl⟩ (.inl rfl)
  | modelRequestStarted hpayload hturn hassembly hfresh hcheck =>
      exact .changed hturn rfl rfl ⟨rfl, rfl⟩ (.inl rfl)
  | modelRevisionRequested hpayload hturn => exact .changed hturn rfl rfl ⟨rfl, rfl⟩ (.inl rfl)
  | turnStreamed hpayload hturn hopen =>
      exact .changed hturn rfl rfl ⟨rfl, rfl⟩ (.inr ⟨_, hpayload, rfl, rfl⟩)
  | stepStreamed hpayload hturn hstep hopen =>
      exact .changed hturn rfl rfl ⟨rfl, rfl⟩ (.inr ⟨_, hpayload, rfl, rfl⟩)
  | toolExecutionStarted hpayload hturn hinvocation hcall =>
      exact .changed hturn rfl rfl ⟨rfl, rfl⟩ (.inl rfl)
  | toolExecutionCompleted hpayload hturn hexecution hopen =>
      exact .changed hturn rfl rfl ⟨rfl, rfl⟩ (.inl rfl)
  | compactionCompleted hpayload hturn hsources =>
      obtain ⟨hid, hsequence, hevents⟩ := Turn.compacted_input _ _ _
      exact .changed hturn rfl rfl ⟨hid, hsequence⟩ (.inl hevents)
  | _ => exact .kept rfl rfl

end

/-- The event that an item of a turn's history was recorded by. -/
structure Turn.Recorded (events : List SessionEvent) (turnId : Identifier) (turn : Turn) : Prop where
  input : ∃ event ∈ events, event.startedTurn? = some turnId ∧ event.eventId = turn.inputEventId ∧
    event.sequence = turn.inputEventSequence
  streamed : ∀ streamed ∈ turn.modelEvents, ∃ event ∈ events,
    event.streamedTurn? = some turnId ∧ event.eventId = streamed.eventId ∧
      event.sequence = streamed.sequence

theorem Turn.Recorded.snoc {events : List SessionEvent} {turnId : Identifier} {turn : Turn}
    (h : turn.Recorded events turnId) (last : SessionEvent) : turn.Recorded (events ++ [last]) turnId where
  input := by
    obtain ⟨event, hmem, hevent⟩ := h.input
    exact ⟨event, List.mem_append_left _ hmem, hevent⟩
  streamed streamed hstreamed := by
    obtain ⟨event, hmem, hevent⟩ := h.streamed streamed hstreamed
    exact ⟨event, List.mem_append_left _ hmem, hevent⟩

/-- What a stream and its state have in common: the events are numbered, the turns in the order
are the turns there are, each once, and their histories were recorded by the events. -/
structure Originates (events : List SessionEvent) (state : SessionState) : Prop where
  numbered : Numbered SessionEvent.sequence events
  current : state.currentSequence = events.length
  order : state.turnOrder.Nodup
  ordered : ∀ turnId ∈ state.turnOrder, (state.turns.get? turnId).isSome = true
  recorded : ∀ turnId turn, state.turns.get? turnId = some turn → turn.Recorded events turnId

theorem originates_initial : Originates [] .initial where
  numbered := .nil
  current := rfl
  order := List.nodup_nil
  ordered := by simp [SessionState.initial]
  recorded := by simp [SessionState.initial]

section

variable {realm realm' : Realm} {before next : SessionState} {event : SessionEvent}
  {past : List SessionEvent}

theorem TurnsStep.recorded (h : TurnsStep before event next)
    (hrecorded : ∀ turnId turn, before.turns.get? turnId = some turn → turn.Recorded past turnId) :
    ∀ turnId turn, next.turns.get? turnId = some turn →
      turn.Recorded (past ++ [event]) turnId := by
  have hlast : event ∈ past ++ [event] := List.mem_append_right _ List.mem_cons_self
  have hold : ∀ turnId turn, before.turns.get? turnId = some turn →
      turn.Recorded (past ++ [event]) turnId :=
    fun turnId turn hturn => (hrecorded turnId turn hturn).snoc event
  cases h with
  | kept hturns horder => exact hturns ▸ hold
  | started hpayload hfresh hturns horder =>
      rw [hturns]
      refine JsObject.forall_get?_set hold ⟨⟨event, hlast, ?_, rfl, rfl⟩, by simp [newTurn]⟩
      simp [SessionEvent.startedTurn?, hpayload]
  | @changed turnId turn turn' hturn hturns horder hinput hevents =>
      rw [hturns]
      have hturn' := hold _ _ hturn
      refine JsObject.forall_get?_set hold ⟨hinput.1 ▸ hinput.2 ▸ hturn'.input, ?_⟩
      intro streamed hstreamed
      rcases hevents with hevents | ⟨payload, hpayload, hpayloadTurn, hevents⟩
      · exact hturn'.streamed streamed (hevents ▸ hstreamed)
      · rw [hevents] at hstreamed
        rcases List.mem_append.mp hstreamed with hstreamed | hstreamed
        · exact hturn'.streamed streamed hstreamed
        · obtain rfl := List.mem_singleton.mp hstreamed
          refine ⟨event, hlast, ?_, rfl, rfl⟩
          simp [SessionEvent.streamedTurn?, hpayload, hpayloadTurn]

theorem TurnsStep.ordered (h : TurnsStep before event next) (hnodup : before.turnOrder.Nodup)
    (hordered : ∀ turnId ∈ before.turnOrder, (before.turns.get? turnId).isSome = true) :
    next.turnOrder.Nodup ∧
      ∀ turnId ∈ next.turnOrder, (next.turns.get? turnId).isSome = true := by
  cases h with
  | kept hturns horder =>
      rw [hturns, horder]
      exact ⟨hnodup, hordered⟩
  | @started started input hpayload hfresh hturns horder =>
      rw [hturns, horder]
      refine ⟨?_, ?_⟩
      · rw [List.nodup_append']
        refine ⟨hnodup, List.nodup_singleton _, ?_⟩
        intro turnId hmem hstarted
        rw [List.mem_singleton] at hstarted
        have hsome := hordered turnId hmem
        rw [hstarted, hfresh] at hsome
        cases hsome
      · intro turnId hmem
        rw [JsObject.get?_set]
        split
        · rfl
        next hne =>
          rcases List.mem_append.mp hmem with hmem | hmem
          · exact hordered turnId hmem
          · exact absurd (List.mem_singleton.mp hmem) hne
  | changed hturn hturns horder hinput hevents =>
      rw [hturns, horder]
      refine ⟨hnodup, ?_⟩
      intro turnId hmem
      rw [JsObject.get?_set]
      split
      · rfl
      · exact hordered turnId hmem

end

theorem originates_of_accepted {realm : Realm} {events : List SessionEvent} {state : SessionState}
    (h : Accepted realm events state) : Originates events state := by
  refine h.history originates_initial ?_
  intro past before event realm₁ realm₂ next _ hbefore hadmission htransition
  have hstep := turnsStep htransition
  obtain ⟨hsequence, -, -⟩ := checkAdmission_eq_ok hadmission
  obtain ⟨horder, hordered⟩ := hstep.ordered hbefore.order hbefore.ordered
  have hcurrent : next.currentSequence = event.sequence := by
    cases htransition <;> rfl
  refine ⟨hbefore.numbered.append ?_, ?_, horder, hordered, hstep.recorded hbefore.recorded⟩
  · simp [hsequence, hbefore.current]
  · change next.currentSequence = _
    rw [hcurrent, hsequence, hbefore.current, List.length_append, List.length_singleton]

/-! ## Distinct items -/

/-- A durable history: no two items are of one event. -/
structure DistinctHistory (history : List HistoryItem) : Prop where
  ids : (history.map (·.sourceEventId)).Nodup
  sequences : (history.map (·.sequence)).Nodup

/-- An event does not both start a turn and record a model event. -/
theorem SessionEvent.streamedTurn?_of_started {event : SessionEvent} {turnId : Identifier}
    (h : event.startedTurn? = some turnId) : event.streamedTurn? = none := by
  unfold SessionEvent.startedTurn? at h
  unfold SessionEvent.streamedTurn?
  split at h
  next hpayload => rw [hpayload]
  next => cases h

section

variable {events : List SessionEvent} {turnId turnId' : Identifier} {turn turn' : Turn}
  {item item' : HistoryItem}

/-- The item was recorded by an event that started the turn or recorded a model event of it. -/
def HistoryItem.RecordedIn (events : List SessionEvent) (turnId : Identifier) (item : HistoryItem) :
    Prop :=
  ∃ event ∈ events, event.eventId = item.sourceEventId ∧ event.sequence = item.sequence ∧
    (event.startedTurn? = some turnId ∨ event.streamedTurn? = some turnId)

theorem Turn.Recorded.recordedIn (h : turn.Recorded events turnId) (hitem : item ∈ turnHistory turn) :
    item.RecordedIn events turnId := by
  obtain ⟨started, hstarted, hturn, hid, hsequence⟩ := h.input
  unfold turnHistory at hitem
  dsimp only at hitem
  split at hitem
  next terminal hterminal =>
    obtain ⟨streamed, hstreamed, hturn', hid', hsequence'⟩ :=
      h.streamed terminal (List.mem_of_find?_eq_some hterminal)
    split at hitem
    · obtain rfl := List.mem_singleton.mp hitem
      exact ⟨started, hstarted, hid, hsequence, .inl hturn⟩
    · rcases List.mem_cons.mp hitem with rfl | hitem
      · exact ⟨started, hstarted, hid, hsequence, .inl hturn⟩
      · obtain rfl := List.mem_singleton.mp hitem
        exact ⟨streamed, hstreamed, hid', hsequence', .inr hturn'⟩
  next =>
    obtain rfl := List.mem_singleton.mp hitem
    exact ⟨started, hstarted, hid, hsequence, .inl hturn⟩

/-- A key of items that is a key of the events they were recorded by. -/
structure EventKey (events : List SessionEvent) {κ : Type} (key : HistoryItem → κ)
    (eventKey : SessionEvent → κ) : Prop where
  agrees : ∀ (item : HistoryItem) event, event.eventId = item.sourceEventId →
    event.sequence = item.sequence → eventKey event = key item
  distinct : (events.map eventKey).Nodup

variable {κ : Type} {key : HistoryItem → κ} {eventKey : SessionEvent → κ}

theorem EventKey.same (hkey : EventKey events key eventKey) {event event' : SessionEvent}
    (hevent : event ∈ events) (hevent' : event' ∈ events)
    (h : event.eventId = item.sourceEventId ∧ event.sequence = item.sequence)
    (h' : event'.eventId = item'.sourceEventId ∧ event'.sequence = item'.sequence)
    (heq : key item = key item') : event = event' := by
  apply List.inj_on_of_nodup_map hkey.distinct hevent hevent'
  rw [hkey.agrees item event h.1 h.2, hkey.agrees item' event' h'.1 h'.2, heq]

/-- Items of different turns have different keys. -/
theorem EventKey.turn_eq (hkey : EventKey events key eventKey) (h : item.RecordedIn events turnId)
    (h' : item'.RecordedIn events turnId') (heq : key item = key item') : turnId = turnId' := by
  obtain ⟨event, hevent, hid, hsequence, hturn⟩ := h
  obtain ⟨event', hevent', hid', hsequence', hturn'⟩ := h'
  obtain rfl := hkey.same hevent hevent' ⟨hid, hsequence⟩ ⟨hid', hsequence'⟩ heq
  rcases hturn with hturn | hturn <;> rcases hturn' with hturn' | hturn'
  · exact Option.some.inj (hturn.symm.trans hturn')
  · rw [SessionEvent.streamedTurn?_of_started hturn] at hturn'
    cases hturn'
  · rw [SessionEvent.streamedTurn?_of_started hturn'] at hturn
    cases hturn
  · exact Option.some.inj (hturn.symm.trans hturn')

/-- The input and the answer of a turn have different keys. -/
theorem EventKey.turnHistory_nodup (hkey : EventKey events key eventKey)
    (h : turn.Recorded events turnId) : ((turnHistory turn).map key).Nodup := by
  obtain ⟨started, hstarted, hturn, hid, hsequence⟩ := h.input
  unfold turnHistory
  dsimp only
  split
  next terminal hterminal =>
    obtain ⟨streamed, hstreamed, hturn', hid', hsequence'⟩ :=
      h.streamed terminal (List.mem_of_find?_eq_some hterminal)
    split
    · exact List.nodup_singleton _
    · simp only [List.map_cons, List.map_nil, List.nodup_cons, List.mem_singleton,
        List.not_mem_nil, not_false_eq_true, List.nodup_nil, and_true]
      intro heq
      obtain rfl := hkey.same hstarted hstreamed ⟨hid, hsequence⟩ ⟨hid', hsequence'⟩ heq
      rw [SessionEvent.streamedTurn?_of_started hturn] at hturn'
      cases hturn'
  next => exact List.nodup_singleton _

theorem EventKey.durableHistory_nodup {state : SessionState} (hkey : EventKey events key eventKey)
    (h : Originates events state) : ((durableHistory state turnId).map key).Nodup := by
  rw [durableHistory, List.map_flatMap, List.nodup_flatMap]
  constructor
  · intro turnId' _
    cases hturn : state.turns.get? turnId' with
    | none => exact List.nodup_nil
    | some turn => exact hkey.turnHistory_nodup (h.recorded turnId' turn hturn)
  · refine (h.order.sublist (List.takeWhile_sublist _)).imp ?_
    intro first second hne
    change List.Disjoint _ _
    rw [List.disjoint_left]
    rintro value hfirst hsecond
    cases hturn : state.turns.get? first with
    | none => simp [hturn] at hfirst
    | some turn =>
        cases hturn' : state.turns.get? second with
        | none => simp [hturn'] at hsecond
        | some turn' =>
            simp only [hturn, hturn', Option.map_some, Option.getD_some, List.mem_map]
              at hfirst hsecond
            obtain ⟨item, hitem, rfl⟩ := hfirst
            obtain ⟨item', hitem', heq⟩ := hsecond
            exact hne (hkey.turn_eq ((h.recorded first turn hturn).recordedIn hitem)
              ((h.recorded second turn' hturn').recordedIn hitem') heq.symm)

/-- The items of a durable history are of different events. -/
theorem distinctHistory_of_accepted {realm : Realm} {state : SessionState}
    (h : Accepted realm events state) (hids : (events.map (·.eventId)).Nodup) :
    DistinctHistory (durableHistory state turnId) where
  ids := by
    have hkey : EventKey events (fun item => item.sourceEventId) (fun event => event.eventId) :=
      ⟨fun _ _ hid _ => hid, hids⟩
    exact hkey.durableHistory_nodup (originates_of_accepted h)
  sequences := by
    have horiginates := originates_of_accepted h
    have hkey : EventKey events (fun item => item.sequence) (fun event => event.sequence) := by
      refine ⟨fun _ _ _ hsequence => hsequence, ?_⟩
      rw [horiginates.numbered]
      exact List.nodup_range'
    exact hkey.durableHistory_nodup horiginates

end

end Hseos
