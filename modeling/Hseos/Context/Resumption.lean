import Hseos.Context.Selected

/-! # Resumed compaction

A turn whose compaction was recorded while its context was not: which assembly the
budget returns then, compared with the one that the crash cut off.
-/

namespace Hseos.Context

/-! ## Interrupted assemblies -/

/-- A compaction that an assembly had accepted: the greedy selection it started from, what was
retained beside the replacement, and the composition with it. -/
structure Interrupted (input : AssemblyInput) (setting : Setting) (requested : RequestedCompaction)
    (selection : Selection) (kept : Retained) (compacted : Compacted AgentMessage Composition)
    (replacement : HistoryItem) : Prop where
  overflow : input.overflow = .compact requested
  selected : ∃ omitted, input.selectOptional setting = .ok (selection, omitted)
  sorted : orderedMemory selection.memory = selection.memory
  split : kept.compacted ++ kept.history = orderedHistory input.history
  retained : ∃ dropped : List MemorySource, selection.memory = kept.memory ++ dropped.reverse ∧
    kept.omittedMemory = input.memoryOutside selection.memory ++ dropped.map (·.sourceRef.val)
  identity : compacted.result.compactionId = requested.compactionId ∧
    compacted.result.providerId = requested.providerId
  replaced : replacementItem requested.eventId kept.compacted compacted.result.replacementMessages =
    .ok replacement
  composed : input.compose setting.count ⟨replacement :: kept.history, kept.memory, selection.media⟩ =
    .ok compacted.accepted
  fits : compacted.accepted.measurement.inputTokens ≤ setting.inputLimit

section

variable {input : AssemblyInput} {setting : Setting} {runtime : CompactionRuntime AgentMessage}
  {requested : RequestedCompaction} {selection : Selection} {omitted : List String} {call : Nat}
  {kept : Retained} {compacted : Compacted AgentMessage Composition} {replacement : HistoryItem}
  {resumed : Budgeted}

/-- An accepted attempt composed the context with its replacement, within the limit. -/
theorem attempt_eq_ok {media : List MediaSource}
    (h : input.attempt setting runtime requested media call kept = .ok compacted) :
    ∃ replacement, (compacted.result.compactionId = requested.compactionId ∧
      compacted.result.providerId = requested.providerId) ∧
      replacementItem requested.eventId kept.compacted compacted.result.replacementMessages =
        .ok replacement ∧
      input.compose setting.count ⟨replacement :: kept.history, kept.memory, media⟩ =
        .ok compacted.accepted ∧
      compacted.accepted.measurement.inputTokens ≤ setting.inputLimit := by
  obtain ⟨without, -, h⟩ := bind_eq_ok_iff.mp h
  obtain ⟨-, hchecked, haccept⟩ := CompactionRuntime.compact_eq_ok h
  obtain ⟨replacement, hreplacement, haccept⟩ := bind_eq_ok_iff.mp haccept
  obtain ⟨candidate, hcandidate, haccept⟩ := bind_eq_ok_iff.mp haccept
  have haccepted := pure_eq_ok_iff.mp haccept
  split at haccepted
  next hfits =>
    obtain rfl := Option.some.inj haccepted
    exact ⟨replacement, ⟨hchecked.compactionId, hchecked.providerId⟩, hreplacement, hcandidate,
      hfits⟩
  next => cases haccepted

/-- A budget with a compaction leaves an interrupted assembly behind. -/
theorem interrupted (hdistinct : DistinctHistory input.history)
    (hoverflow : input.overflow = .compact requested)
    (hselected : input.selectOptional setting = .ok (selection, omitted))
    (hreaches : Reaches input setting runtime requested selection.media
      (input.firstRetained selection) call kept)
    (haccepted : input.attempt setting runtime requested selection.media call kept =
      .ok compacted) :
    ∃ replacement, Interrupted input setting requested selection kept compacted replacement := by
  obtain ⟨replacement, hidentity, hreplaced, hcomposed, hfits⟩ := attempt_eq_ok haccepted
  have hselection := selectOptional_eq_ok hselected
  have hhistory := firstRetained_history hdistinct hselection
  have hmemory := orderedMemory_of_sublist hselection.memory
  have hsplits := hreaches.splits (hhistory ▸ pairwise_orderedHistory input.history)
  obtain ⟨dropped, hkept, homitted⟩ := hsplits.memory
  simp only [AssemblyInput.firstRetained, hmemory] at hkept homitted
  exact ⟨replacement, hoverflow, ⟨omitted, hselected⟩, hmemory, hsplits.history.trans hhistory,
    ⟨dropped, hkept, homitted⟩, hidentity, hreplaced, hcomposed, hfits⟩

/-- Resuming looks for the most memory that fits beside the replacement. -/
theorem Interrupted.resume_eq_ok_iff (hdistinct : DistinctHistory input.history)
    (h : Interrupted input setting requested selection kept compacted replacement) :
    input.resumeRecordedCompaction setting ⟨input.recordOf runtime kept compacted, requested.eventId⟩ =
        .ok resumed ↔
      ∃ memory dropped composition, retainFitting
          (fun memory => input.fits setting ⟨replacement :: kept.history, memory, selection.media⟩)
          selection.memory.reverse = .ok (memory, dropped) ∧
        input.compose setting.count ⟨replacement :: kept.history, memory, selection.media⟩ =
          .ok composition ∧ composition.measurement.inputTokens ≤ setting.inputLimit ∧
        resumed = ⟨composition, input.omittedRefs kept.compacted
          (input.memoryOutside selection.memory ++ dropped.map (·.sourceRef.val)) selection.media,
          none⟩ := by
  obtain ⟨omitted, hselected⟩ := h.selected
  have hids : ((kept.compacted ++ kept.history).map (·.sourceEventId)).Nodup := by
    rw [h.split]
    exact ((orderedHistory_perm _).map _).nodup_iff.mpr hdistinct.ids
  have hcompacted : (orderedHistory input.history).filter
      (·.sourceEventId ∈ kept.compacted.map (·.sourceEventId)) = kept.compacted := by
    rw [← h.split]
    exact filter_front_of_nodup hids
  have hretained : (orderedHistory input.history).filter
      (·.sourceEventId ∈ kept.history.map (·.sourceEventId)) = kept.history := by
    rw [← h.split]
    exact filter_back_of_nodup hids
  simp only [AssemblyInput.resumeRecordedCompaction, AssemblyInput.recordOf, h.identity.1,
    h.identity.2, h.overflow, hcompacted, hretained, reject_bind_eq_ok_iff, ne_eq, not_true_eq_false,
    decide_false, true_and, h.replaced, hselected, h.sorted, ok_bind]
  constructor
  · intro hresumed
    obtain ⟨⟨memory, dropped⟩, hretain, hresumed⟩ := bind_eq_ok_iff.mp hresumed
    obtain ⟨composition, hcomposition, hresumed⟩ := bind_eq_ok_iff.mp hresumed
    obtain ⟨hfits, hresumed⟩ := reject_bind_eq_ok_iff.mp hresumed
    exact ⟨memory, dropped, composition, hretain, hcomposition, by simpa using hfits,
      (pure_eq_ok_iff.mp hresumed).symm⟩
  · rintro ⟨memory, dropped, composition, hretain, hcomposition, hfits, rfl⟩
    refine bind_eq_ok_iff.mpr ⟨_, hretain, bind_eq_ok_iff.mpr ⟨_, hcomposition, ?_⟩⟩
    exact reject_bind_eq_ok_iff.mpr ⟨by simpa using hfits, rfl⟩

end

/-! ## Equal assemblies -/

/-- The two budgets hold the same messages, records and references, and leave the same out. -/
structure SameAssembly (first second : Budgeted) : Prop where
  messages : second.composition.messages = first.composition.messages
  sources : second.composition.sources = first.composition.sources
  sourceRefs : second.composition.sourceRefs = first.composition.sourceRefs
  omitted : second.omittedSourceRefs = first.omittedSourceRefs

/-- The replacement of the accepted attempt leaves no room for more of the selected memory than
that attempt retained. -/
def RetainsAllThatFits (input : AssemblyInput) (setting : Setting)
    (runtime : CompactionRuntime AgentMessage) (requested : RequestedCompaction) : Prop :=
  ∀ selection omitted call kept compacted replacement longer,
    input.selectOptional setting = .ok (selection, omitted) →
      Reaches input setting runtime requested selection.media (input.firstRetained selection) call
        kept →
        input.attempt setting runtime requested selection.media call kept = .ok compacted →
          replacementItem requested.eventId kept.compacted compacted.result.replacementMessages =
            .ok replacement →
            kept.memory ++ longer <+: selection.memory → longer ≠ [] →
              input.fits setting
                ⟨replacement :: kept.history, kept.memory ++ longer, selection.media⟩ = .ok false

section

variable {input : AssemblyInput} {setting : Setting} {runtime : CompactionRuntime AgentMessage}
  {requested : RequestedCompaction} {selection : Selection} {kept : Retained}
  {compacted : Compacted AgentMessage Composition} {replacement : HistoryItem}

/-- A composition has one record for each memory source. -/
theorem memory_length_of_records {history history' : List HistoryItem}
    {memory memory' : List MemorySource} {media : List MediaSource}
    (h : input.records ⟨history, memory, media⟩ = input.records ⟨history', memory', media⟩) :
    memory.length = memory'.length := by
  have hlength := congrArg List.length h
  simp only [Sources.records, List.length_append, List.length_map, orderedMemory,
    List.length_insertionSort] at hlength
  omega

/-- An interrupted assembly is resumed alike exactly if no more memory fits beside its
replacement. -/
theorem Interrupted.same_iff (hdistinct : DistinctHistory input.history)
    (h : Interrupted input setting requested selection kept compacted replacement) :
    (∃ resumed, input.resumeRecordedCompaction setting
        ⟨input.recordOf runtime kept compacted, requested.eventId⟩ = .ok resumed ∧
      SameAssembly ⟨compacted.accepted,
        input.omittedRefs kept.compacted kept.omittedMemory selection.media,
        some (input.recordOf runtime kept compacted)⟩ resumed) ↔
      ∀ longer, kept.memory ++ longer <+: selection.memory → longer ≠ [] →
        input.fits setting ⟨replacement :: kept.history, kept.memory ++ longer, selection.media⟩ =
          .ok false := by
  obtain ⟨dropped, hmemory, homitted⟩ := h.retained
  have hkept : kept.memory = [] ∨ input.fits setting
      ⟨replacement :: kept.history, kept.memory, selection.media⟩ = .ok true :=
    .inr (fits_eq_ok_iff.mpr ⟨_, h.composed, decide_eq_true h.fits⟩)
  have hretain : retainFitting (fun memory => input.fits setting
        ⟨replacement :: kept.history, memory, selection.media⟩)
      (kept.memory ++ dropped.reverse).reverse = .ok (kept.memory, dropped.reverse.reverse) ↔ _ :=
    retainFitting_iff hkept
  rw [List.reverse_reverse, ← hmemory] at hretain
  simp only [hmemory, List.prefix_append_right_inj, h.resume_eq_ok_iff hdistinct] at hretain ⊢
  rw [← hretain]
  constructor
  · rintro ⟨resumed, ⟨memory, dropped', composition, hresumed, hcomposition, -, rfl⟩, hsame⟩
    -- equal records leave memory of equal length, and both start the selected memory
    have hlength : memory.length = kept.memory.length := by
      have hrecords := hsame.sources
      rw [(compose_eq_ok hcomposition).2.1, (compose_eq_ok h.composed).2.1] at hrecords
      exact memory_length_of_records hrecords
    have hsplit := retainFitting_eq_ok hresumed
    rw [List.reverse_reverse] at hsplit
    obtain ⟨rfl, hdropped⟩ := List.append_inj hsplit.symm hlength
    rw [List.reverse_inj] at hdropped
    exact hdropped ▸ hresumed
  · intro hresumed
    refine ⟨_, ⟨kept.memory, dropped, compacted.accepted, hresumed, h.composed, h.fits, rfl⟩,
      rfl, rfl, rfl, ?_⟩
    rw [homitted, hmemory]

end

/-- A turn that crashed between its compaction and its context assembles the same context again
exactly if the accepted replacement left no room for memory that the rejected ones had
displaced. -/
theorem resumed_alike_iff {realm : Realm} {events : List SessionEvent} {state : SessionState}
    {input : AssemblyInput} {count : TokenCounter} {runtime : CompactionRuntime AgentMessage}
    {requested : RequestedCompaction} {limits : Limits} {first : Budgeted}
    {record : CompactionRecord} (hstate : Accepted realm events state)
    (hevents : (events.map (·.eventId)).Nodup)
    (hhistory : input.history = durableHistory state input.turnId)
    (hoverflow : input.overflow = .compact requested)
    (hfirst : input.budget count (some runtime) limits none = .ok first)
    (hrecord : first.compaction = some record) :
    (∃ resumed, input.budget count (some runtime) limits (some ⟨record, requested.eventId⟩) =
        .ok resumed ∧ SameAssembly first resumed) ↔
      RetainsAllThatFits input (limits.setting input count (some runtime)) runtime requested := by
  have hdistinct : DistinctHistory input.history := hhistory ▸ distinctHistory_of_accepted hstate hevents
  obtain ⟨hadmitted, hfirst⟩ := budget_eq_ok_iff.mp hfirst
  cases budgetOptional_eq_ok hfirst with
  | complete => cases hrecord
  | truncated => cases hrecord
  | @compacted selection omitted _ _ call kept compacted hoverflow' hruntime hselected hreaches
      haccepted =>
      obtain rfl := Option.some.inj hrecord
      obtain rfl := Option.some.inj hruntime
      obtain rfl := Overflow.compact.inj (hoverflow.symm.trans hoverflow')
      obtain ⟨replacement, hinterrupted⟩ :=
        interrupted hdistinct hoverflow hselected hreaches haccepted
      simp only [budget_eq_ok_iff, hadmitted, true_and, hinterrupted.same_iff hdistinct]
      constructor
      · intro h selection' omitted' call' kept' compacted' replacement' longer hselected' hreaches'
          haccepted' hreplacement' hbegins hne
        obtain ⟨rfl, rfl⟩ := Prod.mk.inj (Except.ok.inj (hselected.symm.trans hselected'))
        obtain ⟨rfl, rfl⟩ := hreaches.unique haccepted hreaches' haccepted'
        obtain rfl := Except.ok.inj (hinterrupted.replaced.symm.trans hreplacement')
        exact h longer hbegins hne
      · intro h longer hbegins hne
        exact h selection omitted call kept compacted replacement longer hselected hreaches
          haccepted hinterrupted.replaced hbegins hne

/-! ## Samples -/

/-- The budget with a compaction, and whether resuming from its record returns the same. -/
def resumesAlike (input : AssemblyInput) (count : TokenCounter)
    (runtime : CompactionRuntime AgentMessage) (limits : Limits) (eventId : Identifier) :
    Option Bool :=
  match input.budget count (some runtime) limits none with
  | .ok first => first.compaction.map fun record =>
      match input.budget count (some runtime) limits (some ⟨record, eventId⟩) with
      | .ok resumed => resumed.composition.messages = first.composition.messages &&
          resumed.composition.sources = first.composition.sources &&
          resumed.composition.sourceRefs = first.composition.sourceRefs &&
          resumed.omittedSourceRefs = first.omittedSourceRefs
      | .error _ => false
  | .error _ => none

theorem resumesAlike_eq_some {input : AssemblyInput} {count : TokenCounter}
    {runtime : CompactionRuntime AgentMessage} {limits : Limits} {eventId : Identifier}
    {alike : Bool} (h : resumesAlike input count runtime limits eventId = some alike) :
    ∃ first record, input.budget count (some runtime) limits none = .ok first ∧
      first.compaction = some record ∧
        ((∃ resumed, input.budget count (some runtime) limits (some ⟨record, eventId⟩) =
          .ok resumed ∧ SameAssembly first resumed) ↔ alike = true) := by
  unfold resumesAlike at h
  split at h
  next first hfirst =>
    obtain ⟨record, hrecord, h⟩ := Option.map_eq_some_iff.mp h
    refine ⟨first, record, hfirst, hrecord, ?_⟩
    rw [← h]
    split
    next resumed hresumed =>
      simp only [hresumed, Except.ok.injEq, exists_eq_left', Bool.and_eq_true, decide_eq_true_eq]
      constructor
      · intro hsame
        exact ⟨⟨⟨hsame.messages, hsame.sources⟩, hsame.sourceRefs⟩, hsame.omitted⟩
      · rintro ⟨⟨⟨hmessages, hsources⟩, hrefs⟩, homitted⟩
        exact ⟨hmessages, hsources, hrefs, homitted⟩
    next err hresumed =>
      simp [hresumed]
  next => cases h

theorem sample_history : ∃ state, Accepted ⟨false⟩ Sample.started state ∧
    Sample.assembly.history = durableHistory state Sample.assembly.turnId := by
  obtain ⟨state, haccepted, hhistory⟩ := acceptsWith_iff.mp
    (show acceptsWith ⟨false⟩ Sample.started (fun state => Sample.assembly.history =
      durableHistory state Sample.assembly.turnId) = true by decide +kernel)
  exact ⟨state, haccepted, of_decide_eq_true hhistory⟩

/-- A provider that answers with a short summary at once. -/
def steady : CompactionRuntime AgentMessage := Sample.runtime fun _ => "The release was discussed."

/-- A provider whose first summary leaves no room for the memory. -/
def wavering : CompactionRuntime AgentMessage := Sample.runtime fun call =>
  if call = 0 then "They met about the release, its open questions and who owns them."
  else "The release was discussed."

theorem resumed_alike_sample : RetainsAllThatFits Sample.assembly
    (Sample.limits.setting Sample.assembly Sample.count (some steady)) steady Sample.requested := by
  obtain ⟨state, haccepted, hhistory⟩ := sample_history
  obtain ⟨first, record, hfirst, hrecord, halike⟩ := resumesAlike_eq_some
    (show resumesAlike Sample.assembly Sample.count steady Sample.limits Sample.requested.eventId =
      some true by decide +kernel)
  exact (resumed_alike_iff haccepted (by decide) hhistory rfl hfirst hrecord).mp (halike.mpr rfl)

/-- The memory that the first summary displaced comes back when the turn is resumed. -/
theorem resumed_with_displaced_memory : ∃ state first record,
    Accepted ⟨false⟩ Sample.started state ∧
      Sample.assembly.history = durableHistory state Sample.assembly.turnId ∧
      Sample.assembly.budget Sample.count (some wavering) Sample.limits none = .ok first ∧
      first.compaction = some record ∧
      ¬ ∃ resumed, Sample.assembly.budget Sample.count (some wavering) Sample.limits
          (some ⟨record, Sample.requested.eventId⟩) = .ok resumed ∧ SameAssembly first resumed := by
  obtain ⟨state, haccepted, hhistory⟩ := sample_history
  obtain ⟨first, record, hfirst, hrecord, halike⟩ := resumesAlike_eq_some
    (show resumesAlike Sample.assembly Sample.count wavering Sample.limits Sample.requested.eventId =
      some false by decide +kernel)
  refine ⟨state, first, record, haccepted, hhistory, hfirst, hrecord, ?_⟩
  rw [halike]
  exact Bool.false_ne_true

end Hseos.Context
