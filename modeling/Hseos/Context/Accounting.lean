import Hseos.Context.Resumption

/-! # Budget and accounting

What every budget keeps to: the limits, the required sources, and an account of the
history, memory and media that are included and left out.
-/

namespace Hseos.Context

/-! ## Limits -/

section

variable {input : AssemblyInput} {setting : Setting} {selection : Selection}
  {omitted : List String} {budgeted : Budgeted}

/-- A greedy selection fits where the required context does. -/
theorem selectOptional_fits (hbase : input.fits setting ⟨[], [], input.requiredMedia⟩ = .ok true)
    (h : input.selectOptional setting = .ok (selection, omitted)) :
    input.fits setting selection = .ok true := by
  obtain ⟨⟨history, overflowed⟩, hhistory, h⟩ := bind_eq_ok_iff.mp h
  obtain ⟨⟨memory, omittedMemory⟩, hmemory, h⟩ := bind_eq_ok_iff.mp h
  obtain ⟨⟨media, omittedMedia⟩, hmedia, h⟩ := bind_eq_ok_iff.mp h
  obtain ⟨rfl, -⟩ := Prod.mk.inj (pure_eq_ok_iff.mp h)
  have hwithHistory : input.fits setting ⟨history, [], input.requiredMedia⟩ = .ok true := by
    rcases takeFitting_fits hhistory with rfl | hfits
    · exact hbase
    · exact hfits
  have hwithMemory : input.fits setting ⟨history, memory, input.requiredMedia⟩ = .ok true := by
    rcases filterFitting_fits hmemory with rfl | hfits
    · exact hwithHistory
    · exact hfits
  rcases filterFitting_fits hmedia with rfl | hfits
  · exact hwithMemory
  · exact hfits

theorem fits_of_composed {composition : Composition}
    (hfits : input.fits setting selection = .ok true)
    (h : input.compose setting.count selection = .ok composition) :
    composition.measurement.inputTokens ≤ setting.inputLimit := by
  obtain ⟨composed, hcomposed, hle⟩ := fits_eq_ok_iff.mp hfits
  obtain rfl := Except.ok.inj (h.symm.trans hcomposed)
  exact of_decide_eq_true hle

end

/-! ## Required sources -/

/-- A composition holds every source that is not optional. -/
structure IncludesRequired (input : AssemblyInput) (composition : Composition) : Prop where
  instructions : ∀ tier ∈ input.instructions.tiers, ∀ source ∈ tier.2,
    instructionMessage tier.1 source ∈ composition.messages ∧
      source.sourceRef.val ∈ composition.sourceRefs
  runtimeContext : ∀ source ∈ input.runtimeContext,
    input.dataMessage "RUNTIME_DATA" source ∈ composition.messages ∧
      source.sourceRef.val ∈ composition.sourceRefs
  references : ∀ source ∈ input.references,
    input.dataMessage "REFERENCE_DATA" source ∈ composition.messages ∧
      source.sourceRef.val ∈ composition.sourceRefs
  currentTurn : composition.messages.getLast? = some input.currentTurn.message ∧
    input.currentTurn.sourceRef.val ∈ composition.sourceRefs
  requiredMedia : ∀ media ∈ input.requiredMedia,
    .image media.sourceRef media.mediaType media.digest media.bytes media.artifactRef ∈
      composition.parts ∧ media.sourceRef.val ∈ composition.sourceRefs

section

variable {input : AssemblyInput} {selection : Selection} {reference : String}

theorem mem_includedRefs : reference ∈ input.includedRefs selection ↔
    reference = contextPrecedenceRef ∨ reference ∈ input.requiredRefs.map (·.val) ∨
      reference ∈ selection.memory.map (·.sourceRef.val) ∨
      reference ∈ selection.media.map (·.sourceRef.val) ∨
      reference ∈ selection.history.map (·.sourceRef) ∨
      reference = input.currentTurn.sourceRef.val ∨
      reference ∈ input.tools.map (·.governanceRef.val) := by
  simp only [Sources.includedRefs, mem_unique, List.mem_append, List.mem_singleton,
    ((orderedMemory_perm selection.memory).map _).mem_iff,
    ((orderedMedia_perm selection.media).map _).mem_iff,
    ((orderedHistory_perm selection.history).map _).mem_iff, Sources.orderedTools,
    ((List.perm_insertionSort _ input.tools).map _).mem_iff, or_assoc]

theorem mem_requiredRefs {sourceRef : Reference} : sourceRef ∈ input.requiredRefs ↔
    (∃ tier ∈ input.instructions.tiers, ∃ source ∈ tier.2, source.sourceRef = sourceRef) ∨
      (∃ source ∈ input.runtimeContext, source.sourceRef = sourceRef) ∨
        ∃ source ∈ input.references, source.sourceRef = sourceRef := by
  simp only [Sources.requiredRefs, orderedInstructions, Sources.runtimeItems,
    Sources.referenceItems, List.map_flatMap, List.map_map, List.mem_append, List.mem_flatMap,
    List.mem_map, List.mem_insertionSort, Function.comp_apply, or_assoc]

theorem mem_messages {message : AgentMessage} : message ∈ input.messages selection ↔
    message = { role := .system, content := contextPrecedencePreamble } ∨
      (∃ tier ∈ input.instructions.tiers, ∃ source ∈ tier.2,
        instructionMessage tier.1 source = message) ∨
      (∃ source ∈ input.runtimeContext, input.dataMessage "RUNTIME_DATA" source = message) ∨
      (∃ source ∈ input.references, input.dataMessage "REFERENCE_DATA" source = message) ∨
      (∃ memory ∈ selection.memory,
        input.dataMessage "MEMORY_DATA" memory.toContextSource = message) ∨
      (∃ item ∈ selection.history, item.message = message) ∨
      message = input.currentTurn.message := by
  simp only [Sources.messages, orderedInstructions, Sources.runtimeItems, Sources.referenceItems,
    orderedMemory, orderedHistory, List.map_flatMap, List.map_map, List.mem_append,
    List.mem_singleton, List.mem_flatMap, List.mem_map, List.mem_insertionSort,
    Function.comp_apply, or_assoc]

/-- Compositions with the required media hold all required sources. -/
theorem includesRequired {count : TokenCounter} {composition : Composition}
    (hcomposition : input.compose count selection = .ok composition)
    (hmedia : input.requiredMedia ⊆ selection.media) : IncludesRequired input composition := by
  obtain ⟨hmessages, -, hrefs, hparts⟩ := compose_eq_ok hcomposition
  have hrequired : ∀ sourceRef ∈ input.requiredRefs, sourceRef.val ∈ composition.sourceRefs := by
    intro sourceRef hmem
    rw [hrefs, mem_includedRefs]
    exact .inr (.inl (List.mem_map_of_mem hmem))
  refine ⟨?_, ?_, ?_, ?_, ?_⟩
  · intro tier htier source hsource
    rw [hmessages, mem_messages]
    exact ⟨.inr (.inl ⟨tier, htier, source, hsource, rfl⟩),
      hrequired _ (mem_requiredRefs.mpr (.inl ⟨tier, htier, source, hsource, rfl⟩))⟩
  · intro source hsource
    rw [hmessages, mem_messages]
    exact ⟨.inr (.inr (.inl ⟨source, hsource, rfl⟩)),
      hrequired _ (mem_requiredRefs.mpr (.inr (.inl ⟨source, hsource, rfl⟩)))⟩
  · intro source hsource
    rw [hmessages, mem_messages]
    exact ⟨.inr (.inr (.inr (.inl ⟨source, hsource, rfl⟩))),
      hrequired _ (mem_requiredRefs.mpr (.inr (.inr ⟨source, hsource, rfl⟩)))⟩
  · rw [hmessages, hrefs, mem_includedRefs]
    exact ⟨List.getLast?_concat, by simp⟩
  · intro media hmem
    rw [hparts, hrefs, mem_includedRefs]
    refine ⟨?_, .inr (.inr (.inr (.inl (List.mem_map_of_mem (hmedia hmem)))))⟩
    exact List.mem_map_of_mem ((List.mem_insertionSort _).mpr (hmedia hmem))

end

/-! ## Accounts -/

/-- The references of all history, memory and media. -/
def AssemblyInput.optionalRefs (input : AssemblyInput) : List String :=
  input.history.map (·.sourceRef) ++ input.memory.map (·.sourceRef.val) ++
    input.media.map (·.sourceRef.val)

/-- The included and the omitted references split those of history, memory and media. -/
structure Accounted (input : AssemblyInput) (budgeted : Budgeted) : Prop where
  complete : ∀ reference ∈ input.optionalRefs,
    reference ∈ budgeted.composition.sourceRefs ∨ reference ∈ budgeted.omittedSourceRefs
  exclusive : ∀ reference ∈ budgeted.omittedSourceRefs,
    reference ∈ input.optionalRefs ∧ reference ∉ budgeted.composition.sourceRefs

/-- The history that a budget includes ends the durable history, after a replacement. -/
def IncludesSuffix (input : AssemblyInput) (budgeted : Budgeted) (replacement : List AgentMessage) :
    Prop :=
  ∃ front suffix blocks, orderedHistory input.history = front ++ suffix ∧
    budgeted.composition.messages = blocks ++ (replacement ++ suffix.map (·.message)) ++
      [input.currentTurn.message] ∧
    (∀ block ∈ blocks, block.role = .system) ∧
    ∀ item ∈ input.history,
      item.sourceRef ∈ budgeted.composition.sourceRefs ↔ item ∈ suffix

/-- No reference of history, memory or media is that of something else. -/
structure Apart (input : AssemblyInput) : Prop where
  history : ∀ item ∈ input.history, item.sourceRef ∉ input.sourceRefs.map (·.val)
  reserved : ∀ reference ∈ input.optionalRefs, reference ≠ contextPrecedenceRef ∧
    reference ∉ input.tools.map (·.governanceRef.val)
  compaction : ∀ requested, input.overflow = .compact requested →
    sessionEventRef requested.eventId ∉ input.optionalRefs

/-- What a budget makes of the optional sources: a replacement, and the history, memory and media
it includes, each beside what is left out of it. -/
structure Choice where
  replacement : Option HistoryItem
  newer : List HistoryItem
  older : List HistoryItem
  memory : List MemorySource
  memoryOut : List MemorySource
  media : List MediaSource
  mediaOut : List MediaSource

/-- The references of a part of the history, the memory and the media. -/
def refsOf (history : List HistoryItem) (memory : List MemorySource) (media : List MediaSource) :
    List String :=
  history.map (·.sourceRef) ++ memory.map (·.sourceRef.val) ++ media.map (·.sourceRef.val)

/-- The budget is that of the choice. -/
structure Choice.Makes (choice : Choice) (input : AssemblyInput) (setting : Setting)
    (budgeted : Budgeted) : Prop where
  composed : ∃ history, history.Perm (choice.replacement.toList ++ choice.newer) ∧
    input.compose setting.count ⟨history, choice.memory, choice.media⟩ = .ok budgeted.composition
  fits : budgeted.composition.measurement.inputTokens ≤ setting.inputLimit
  required : input.requiredMedia ⊆ choice.media
  replacement : ∀ item ∈ choice.replacement, ∃ requested oldest,
    input.overflow = .compact requested ∧ item.sourceEventId = requested.eventId ∧
      choice.older.head? = some oldest ∧ item.sequence = oldest.sequence
  newer : choice.newer.Sublist (orderedHistory input.history)
  older : choice.older.Sublist (orderedHistory input.history)
  memory : (choice.memory ++ choice.memoryOut).Perm input.memory
  media : (choice.media ++ choice.mediaOut).Perm input.media
  omitted : budgeted.omittedSourceRefs.Perm
    (refsOf choice.older choice.memoryOut choice.mediaOut)

section

variable {input : AssemblyInput} {setting : Setting} {budgeted : Budgeted} {choice : Choice}
  {reference : String}

theorem sourceRef_injective {item item' : HistoryItem} (h : item.sourceRef = item'.sourceRef) :
    item.sourceEventId = item'.sourceEventId := by
  apply Subtype.ext
  exact (String.append_right_inj _).mp h

theorem historyRefs_nodup (hdistinct : DistinctHistory input.history) :
    (input.history.map (·.sourceRef)).Nodup := by
  have hmap : input.history.map (·.sourceRef) =
      (input.history.map (·.sourceEventId)).map sessionEventRef := by
    rw [List.map_map]
    rfl
  rw [hmap]
  refine hdistinct.ids.map ?_
  intro eventId eventId' h
  exact Subtype.ext ((String.append_right_inj _).mp h)

/-- The declared references, with those of memory and media named. -/
theorem mem_sourceRefs {sourceRef : Reference} : sourceRef ∈ input.sourceRefs ↔
    sourceRef ∈ input.requiredRefs ∨ sourceRef ∈ input.memory.map (·.sourceRef) ∨
      sourceRef ∈ input.media.map (·.sourceRef) ∨ sourceRef = input.currentTurn.sourceRef := by
  simp only [Sources.sourceRefs, mem_requiredRefs, List.mem_append, List.mem_flatMap, List.mem_map,
    List.mem_singleton, or_assoc]

theorem mem_optionalRefs : reference ∈ input.optionalRefs ↔
    reference ∈ input.history.map (·.sourceRef) ∨
      reference ∈ input.memory.map (·.sourceRef.val) ∨
        reference ∈ input.media.map (·.sourceRef.val) := by
  simp only [AssemblyInput.optionalRefs, List.mem_append, or_assoc]

/-- References of sources are equal as texts only if they are equal. -/
theorem mem_map_val {α : Type} {sources : List α} {key : α → Reference} {sourceRef : Reference} :
    sourceRef.val ∈ sources.map (fun source => (key source).val) ↔ sourceRef ∈ sources.map key := by
  simp only [List.mem_map, Subtype.ext_iff]

theorem nodup_map_val {α : Type} {sources : List α} {key : α → Reference}
    (h : (sources.map key).Nodup) : (sources.map fun source => (key source).val).Nodup := by
  have hval := h.map Subtype.val_injective
  rwa [List.map_map] at hval

/-- A reference of memory or media is none of the history, and none of what a turn requires. -/
theorem Apart.history_ne (hapart : Apart input) {sourceRef : Reference} {item : HistoryItem}
    (hitem : item ∈ input.history) (hdeclared : sourceRef ∈ input.sourceRefs) :
    item.sourceRef ≠ sourceRef.val := by
  intro heq
  apply hapart.history item hitem
  rw [heq]
  exact List.mem_map_of_mem hdeclared

theorem optionalRefs_nodup (hdistinct : DistinctHistory input.history) (hapart : Apart input) :
    input.optionalRefs.Nodup := by
  have hdeclared := input.distinct
  simp only [Sources.sourceRefs, List.nodup_append', List.disjoint_append_left] at hdeclared
  rw [AssemblyInput.optionalRefs, List.nodup_append', List.nodup_append']
  refine ⟨⟨historyRefs_nodup hdistinct, nodup_map_val input.memoryRefs_nodup, ?_⟩,
    nodup_map_val input.mediaRefs_nodup, ?_⟩
  · intro reference hhistory hmemory
    obtain ⟨item, hitem, rfl⟩ := List.mem_map.mp hhistory
    obtain ⟨memory, hmem, heq⟩ := List.mem_map.mp hmemory
    refine hapart.history_ne hitem (mem_sourceRefs.mpr (.inr (.inl ?_))) heq.symm
    exact List.mem_map_of_mem hmem
  · intro reference hother hmedia
    obtain ⟨media, hmem, rfl⟩ := List.mem_map.mp hmedia
    have hmem' := List.mem_map_of_mem (f := (·.sourceRef)) hmem
    rcases List.mem_append.mp hother with hhistory | hmemory
    · obtain ⟨item, hitem, heq⟩ := List.mem_map.mp hhistory
      exact hapart.history_ne hitem (mem_sourceRefs.mpr (.inr (.inr (.inl hmem')))) heq
    · exact hdeclared.1.2.2.2 (mem_map_val.mp hmemory) hmem'

/-- No optional reference is that of a required source or of the turn. -/
theorem optional_not_required (hapart : Apart input) (h : reference ∈ input.optionalRefs) :
    reference ∉ input.requiredRefs.map (·.val) ∧ reference ≠ input.currentTurn.sourceRef.val := by
  have hdeclared := input.distinct
  rw [Sources.sourceRefs, List.nodup_append', List.nodup_append', List.nodup_append'] at hdeclared
  obtain ⟨⟨⟨-, -, hmemory⟩, -, hmedia⟩, -, hturn⟩ := hdeclared
  have hrequired : ∀ sourceRef ∈ input.requiredRefs, sourceRef ∈
      input.instructions.tiers.flatMap (fun tier => tier.2.map (·.sourceRef)) ++
        input.runtimeContext.map (·.sourceRef) ++ input.references.map (·.sourceRef) := by
    intro sourceRef hmem
    simpa only [mem_requiredRefs, List.mem_append, List.mem_flatMap, List.mem_map, or_assoc] using hmem
  rcases mem_optionalRefs.mp h with h | h | h <;> obtain ⟨source, hsource, rfl⟩ := List.mem_map.mp h
  · refine ⟨?_, hapart.history_ne hsource (mem_sourceRefs.mpr (.inr (.inr (.inr rfl))))⟩
    intro hmem
    obtain ⟨sourceRef, hmem, heq⟩ := List.mem_map.mp hmem
    exact hapart.history_ne hsource (mem_sourceRefs.mpr (.inl hmem)) heq.symm
  · have hsource' := List.mem_map_of_mem (f := (·.sourceRef)) hsource
    refine ⟨?_, ?_⟩
    · intro hmem
      rw [List.mem_map_of_injective Subtype.val_injective] at hmem
      exact hmemory (hrequired _ hmem) hsource'
    · intro heq
      refine hturn (List.mem_append_left _ (List.mem_append_right _ hsource')) ?_
      exact List.mem_singleton.mpr (Subtype.ext heq)
  · have hsource' := List.mem_map_of_mem (f := (·.sourceRef)) hsource
    refine ⟨?_, ?_⟩
    · intro hmem
      rw [List.mem_map_of_injective Subtype.val_injective] at hmem
      exact hmedia (List.mem_append_left _ (hrequired _ hmem)) hsource'
    · intro heq
      refine hturn (List.mem_append_right _ hsource') ?_
      exact List.mem_singleton.mpr (Subtype.ext heq)

/-- A reference of the history is among the references of a part exactly if its item is. -/
theorem sourceRef_mem_refsOf (hdistinct : DistinctHistory input.history) (hapart : Apart input)
    {history : List HistoryItem} {memory : List MemorySource} {media : List MediaSource}
    (hhistory : history ⊆ input.history) (hmemory : memory ⊆ input.memory)
    (hmedia : media ⊆ input.media) {item : HistoryItem} (hitem : item ∈ input.history) :
    item.sourceRef ∈ refsOf history memory media ↔ item ∈ history := by
  simp only [refsOf, List.mem_append]
  constructor
  · rintro ((h | h) | h) <;> obtain ⟨source, hsource, heq⟩ := List.mem_map.mp h
    · have hsame := List.inj_on_of_nodup_map hdistinct.ids (hhistory hsource) hitem
        (sourceRef_injective heq)
      exact hsame ▸ hsource
    · have hmem := List.mem_map_of_mem (f := (·.sourceRef)) (hmemory hsource)
      exact absurd heq.symm (hapart.history_ne hitem (mem_sourceRefs.mpr (.inr (.inl hmem))))
    · have hmem := List.mem_map_of_mem (f := (·.sourceRef)) (hmedia hsource)
      exact absurd heq.symm (hapart.history_ne hitem (mem_sourceRefs.mpr (.inr (.inr (.inl hmem)))))
  · intro h
    exact .inl (.inl (List.mem_map_of_mem h))

namespace Choice.Makes

theorem newer_subset (h : choice.Makes input setting budgeted) : choice.newer ⊆ input.history :=
  List.Subset.trans h.newer.subset (orderedHistory_perm _).subset

theorem older_subset (h : choice.Makes input setting budgeted) : choice.older ⊆ input.history :=
  List.Subset.trans h.older.subset (orderedHistory_perm _).subset

/-- The optional references that a composition holds are those of its optional sources. -/
theorem mem_sourceRefs_iff (hapart : Apart input) (h : choice.Makes input setting budgeted)
    (hreference : reference ∈ input.optionalRefs) :
    reference ∈ budgeted.composition.sourceRefs ↔
      reference ∈ refsOf choice.newer choice.memory choice.media := by
  obtain ⟨history, hperm, hcomposed⟩ := h.composed
  have hhistory : ∀ item, item ∈ history ↔ item ∈ choice.replacement ∨ item ∈ choice.newer := by
    intro item
    rw [hperm.mem_iff, List.mem_append, Option.mem_toList, Option.mem_def]
  obtain ⟨hprecedence, hgovernance⟩ := hapart.reserved _ hreference
  obtain ⟨hrequired, hturn⟩ := optional_not_required hapart hreference
  have hreplacement : ∀ item ∈ choice.replacement, item.sourceRef ≠ reference := by
    intro item hitem heq
    obtain ⟨requested, oldest, hoverflow, hid, -⟩ := h.replacement item hitem
    apply hapart.compaction requested hoverflow
    rw [← hid]
    change item.sourceRef ∈ input.optionalRefs
    rwa [heq]
  simp only [(compose_eq_ok hcomposed).2.2.1, mem_includedRefs, hprecedence, hgovernance, hrequired,
    hturn, false_or, or_false, refsOf, List.mem_append]
  constructor
  · rintro (hmem | hmem | hmem)
    · exact .inl (.inr hmem)
    · exact .inr hmem
    · obtain ⟨item, hitem, rfl⟩ := List.mem_map.mp hmem
      rcases (hhistory item).mp hitem with hitem | hitem
      · exact absurd rfl (hreplacement item hitem)
      · exact .inl (.inl (List.mem_map_of_mem hitem))
  · rintro ((hmem | hmem) | hmem)
    · obtain ⟨item, hitem, rfl⟩ := List.mem_map.mp hmem
      exact .inr (.inr (List.mem_map_of_mem ((hhistory item).mpr (.inr hitem))))
    · exact .inl hmem
    · exact .inr (.inl hmem)

/-- The replacement comes before the included history when this ends the history. -/
theorem increasing (hdistinct : DistinctHistory input.history)
    (h : choice.Makes input setting budgeted)
    (hsplit : orderedHistory input.history = choice.older ++ choice.newer) :
    (choice.replacement.toList ++ choice.newer).Pairwise (·.sequence < ·.sequence) := by
  have hincreasing := increasing_orderedHistory hdistinct
  rw [hsplit, List.pairwise_append] at hincreasing
  obtain ⟨-, hnewer, hacross⟩ := hincreasing
  cases hreplacement : choice.replacement with
  | none => exact hnewer
  | some item =>
      obtain ⟨requested, oldest, -, -, holdest, hsequence⟩ := h.replacement item hreplacement
      refine List.pairwise_cons.mpr ⟨?_, hnewer⟩
      intro newer hmem
      rw [hsequence]
      exact hacross oldest (List.mem_of_head? holdest) newer hmem

theorem messages_eq (hdistinct : DistinctHistory input.history)
    (h : choice.Makes input setting budgeted)
    (hsplit : orderedHistory input.history = choice.older ++ choice.newer) :
    ∃ blocks, budgeted.composition.messages = blocks ++ (choice.replacement.toList.map (·.message) ++
        choice.newer.map (·.message)) ++ [input.currentTurn.message] ∧
      ∀ block ∈ blocks, block.role = .system := by
  obtain ⟨history, hperm, hcomposed⟩ := h.composed
  have hordered := orderedHistory_eq_of_increasing (h.increasing hdistinct hsplit) hperm
  rw [(compose_eq_ok hcomposed).1, Sources.messages, hordered, List.map_append]
  refine ⟨_, rfl, ?_⟩
  simp only [orderedInstructions, List.map_flatMap, List.map_map, List.mem_append,
    List.mem_singleton, List.mem_flatMap, List.mem_map, Function.comp_apply]
  rintro block ((((rfl | ⟨tier, -, source, -, rfl⟩) | ⟨source, -, rfl⟩) | ⟨source, -, rfl⟩) |
    ⟨source, -, rfl⟩) <;> rfl

/-- The included and the left out references are all there are when the history is the left out
and the included. -/
theorem refs_perm (h : choice.Makes input setting budgeted)
    (hsplit : orderedHistory input.history = choice.older ++ choice.newer) :
    (refsOf choice.newer choice.memory choice.media ++
      refsOf choice.older choice.memoryOut choice.mediaOut).Perm input.optionalRefs := by
  have hhistory : (choice.newer ++ choice.older).Perm input.history := by
    refine List.perm_append_comm.trans ?_
    rw [← hsplit]
    exact orderedHistory_perm _
  have hrefs := ((hhistory.map (·.sourceRef)).append (h.memory.map (·.sourceRef.val))).append
    (h.media.map (·.sourceRef.val))
  refine List.Perm.trans ?_ hrefs
  rw [List.perm_iff_count]
  intro reference
  simp only [refsOf, List.map_append, List.count_append]
  omega

theorem history_included_iff (hdistinct : DistinctHistory input.history) (hapart : Apart input)
    (h : choice.Makes input setting budgeted) {item : HistoryItem} (hitem : item ∈ input.history) :
    item.sourceRef ∈ budgeted.composition.sourceRefs ↔ item ∈ choice.newer := by
  rw [h.mem_sourceRefs_iff hapart (mem_optionalRefs.mpr (.inl (List.mem_map_of_mem hitem)))]
  refine sourceRef_mem_refsOf hdistinct hapart h.newer_subset ?_ ?_ hitem
  · exact List.Subset.trans (List.subset_append_left _ _) h.memory.subset
  · exact List.Subset.trans (List.subset_append_left _ _) h.media.subset

theorem history_omitted_iff (hdistinct : DistinctHistory input.history) (hapart : Apart input)
    (h : choice.Makes input setting budgeted) {item : HistoryItem} (hitem : item ∈ input.history) :
    item.sourceRef ∈ budgeted.omittedSourceRefs ↔ item ∈ choice.older := by
  rw [h.omitted.mem_iff]
  refine sourceRef_mem_refsOf hdistinct hapart h.older_subset ?_ ?_ hitem
  · exact List.Subset.trans (List.subset_append_right _ _) h.memory.subset
  · exact List.Subset.trans (List.subset_append_right _ _) h.media.subset

/-- A budget that accounts for the optional sources splits the history. -/
theorem split_of_accounted (hdistinct : DistinctHistory input.history) (hapart : Apart input)
    (h : choice.Makes input setting budgeted) (haccounted : Accounted input budgeted)
    {front suffix : List HistoryItem} (hsplit : orderedHistory input.history = front ++ suffix)
    (hsuffix : ∀ item ∈ input.history,
      item.sourceRef ∈ budgeted.composition.sourceRefs ↔ item ∈ suffix) :
    orderedHistory input.history = choice.older ++ choice.newer := by
  have hordered := orderedHistory_perm input.history
  have hnodup : (orderedHistory input.history).Nodup :=
    hordered.nodup_iff.mpr (hdistinct.ids.of_map _)
  have hnodup' := hnodup
  rw [hsplit, List.nodup_append'] at hnodup'
  have hnewer : choice.newer = suffix := by
    apply eq_of_sublist_of_mem_iff hnodup h.newer (hsplit ▸ List.sublist_append_right _ _)
    intro item hitem
    have hitem' := hordered.subset hitem
    rw [← h.history_included_iff hdistinct hapart hitem', hsuffix item hitem']
  have holder : choice.older = front := by
    apply eq_of_sublist_of_mem_iff hnodup h.older (hsplit ▸ List.sublist_append_left _ _)
    intro item hitem
    have hitem' := hordered.subset hitem
    rw [← h.history_omitted_iff hdistinct hapart hitem']
    constructor
    · intro homitted
      have hexcluded := (haccounted.exclusive _ homitted).2
      rw [hsuffix item hitem'] at hexcluded
      exact (List.mem_append.mp (hsplit ▸ hitem)).resolve_right hexcluded
    · intro hfront
      have hexcluded := List.disjoint_left.mp hnodup'.2.2 hfront
      rw [← hsuffix item hitem'] at hexcluded
      have hcomplete := haccounted.complete item.sourceRef
        (mem_optionalRefs.mpr (.inl (List.mem_map_of_mem hitem')))
      exact hcomplete.resolve_left hexcluded
  rw [hsplit, holder, hnewer]

/-- A budget accounts for the optional sources exactly if the durable history is what it leaves
out and then what it includes. -/
theorem accounts_iff (hdistinct : DistinctHistory input.history) (hapart : Apart input)
    (h : choice.Makes input setting budgeted) :
    (Accounted input budgeted ∧
      IncludesSuffix input budgeted (choice.replacement.toList.map (·.message))) ↔
      orderedHistory input.history = choice.older ++ choice.newer := by
  constructor
  · rintro ⟨haccounted, front, suffix, blocks, hsplit, -, -, hsuffix⟩
    exact h.split_of_accounted hdistinct hapart haccounted hsplit hsuffix
  · intro hsplit
    have hperm := h.refs_perm hsplit
    have hdisjoint := hperm.nodup_iff.mpr (optionalRefs_nodup hdistinct hapart)
    rw [List.nodup_append'] at hdisjoint
    refine ⟨⟨?_, ?_⟩, ?_⟩
    · intro reference hreference
      rw [h.mem_sourceRefs_iff hapart hreference, h.omitted.mem_iff, ← List.mem_append]
      exact hperm.mem_iff.mpr hreference
    · intro reference homitted
      rw [h.omitted.mem_iff] at homitted
      have hreference := hperm.subset (List.mem_append_right _ homitted)
      refine ⟨hreference, ?_⟩
      rw [h.mem_sourceRefs_iff hapart hreference]
      exact List.disjoint_right.mp hdisjoint.2.2 homitted
    · obtain ⟨blocks, hmessages, hblocks⟩ := h.messages_eq hdistinct hsplit
      refine ⟨choice.older, choice.newer, blocks, hsplit, hmessages, hblocks, ?_⟩
      intro item hitem
      exact h.history_included_iff hdistinct hapart hitem

end Choice.Makes

/-! ## Choices of the exits -/

theorem sortedRefs_perm (references : List String) : (sortedRefs references).Perm references :=
  List.perm_insertionSort _ _

theorem memory_outside_perm {selection : Selection} {omitted : List String}
    (h : Selected input selection omitted) :
    (selection.memory ++ input.memory.filter
      (·.sourceRef ∉ selection.memory.map (·.sourceRef))).Perm input.memory := by
  have hsub := List.Subset.trans h.memory.subset (orderedMemory_perm _).subset
  have hnodup := input.memoryRefs_nodup
  refine append_filter_outside_perm hnodup ?_ hsub
  exact h.memory.nodup ((orderedMemory_perm _).nodup_iff.mpr (hnodup.of_map _))

theorem media_outside_perm {selection : Selection} {omitted : List String}
    (h : Selected input selection omitted) :
    (selection.media ++ input.media.filter (· ∉ selection.media)).Perm input.media := by
  obtain ⟨-, -, -, -, -, media, -, -, hperm⟩ := h.history
  have hnodup := hperm.nodup_iff.mpr (input.mediaRefs_nodup.of_map _)
  rw [List.nodup_append'] at hnodup
  have houtside : ((input.media.map id).Nodup) := by simpa using input.mediaRefs_nodup.of_map _
  have h := append_filter_outside_perm houtside hnodup.1
    (List.Subset.trans (List.subset_append_left _ _) hperm.subset)
  simpa using h

theorem requiredMedia_subset {selection : Selection} {omitted : List String}
    (h : Selected input selection omitted) : input.requiredMedia ⊆ selection.media := by
  obtain ⟨added, hmedia⟩ := h.media
  rw [hmedia]
  exact List.subset_append_left _ _

theorem replacementItem_eq_ok {eventId : Identifier} {compacted : List HistoryItem}
    {messages : List AgentMessage} {item : HistoryItem}
    (h : replacementItem eventId compacted messages = .ok item) :
    ∃ oldest, compacted.head? = some oldest ∧ item.sourceEventId = eventId ∧
      item.sequence = oldest.sequence ∧ messages.take 1 = [item.message] := by
  unfold replacementItem at h
  split at h
  next oldest message holdest hmessage =>
    obtain rfl := Except.ok.inj h
    refine ⟨oldest, holdest, rfl, rfl, ?_⟩
    rw [List.take_one, hmessage]
    rfl
  next => cases h
  next => cases h

/-- Everything fits. -/
theorem complete_makes {composition : Composition}
    (hcomposition : input.compose setting.count ⟨input.history, input.memory, input.media⟩ =
      .ok composition)
    (hfits : composition.measurement.inputTokens ≤ setting.inputLimit) :
    Choice.Makes ⟨none, orderedHistory input.history, [], input.memory, [], input.media, []⟩ input
      setting ⟨composition, [], none⟩ where
  composed := ⟨input.history, (orderedHistory_perm _).symm, hcomposition⟩
  fits := hfits
  required := List.filter_sublist.subset
  replacement := by simp
  newer := List.Sublist.refl _
  older := List.nil_sublist _
  memory := by simp
  media := by simp
  omitted := List.Perm.refl _

/-- A greedy selection is taken. -/
theorem truncated_makes {composition : Composition} {selection : Selection} {omitted : List String}
    (hbase : input.fits setting ⟨[], [], input.requiredMedia⟩ = .ok true)
    (hselected : input.selectOptional setting = .ok (selection, omitted))
    (hcomposition : input.compose setting.count selection = .ok composition) :
    ∃ choice : Choice, choice.Makes input setting ⟨composition, sortedRefs omitted, none⟩ ∧
      choice.replacement = none ∧ orderedHistory input.history = choice.older ++ choice.newer := by
  have hselection := selectOptional_eq_ok hselected
  obtain ⟨older, newer, hordered, hnewer, memory, media, homitted, hmemory, hmedia⟩ :=
    hselection.history
  refine ⟨⟨none, newer, older, selection.memory, memory, selection.media, media⟩, ?_, rfl, hordered⟩
  constructor
  · exact ⟨selection.history, hnewer ▸ List.reverse_perm newer, hcomposition⟩
  · exact fits_of_composed (selectOptional_fits hbase hselected) hcomposition
  · exact requiredMedia_subset hselection
  · simp
  · exact hordered ▸ List.sublist_append_right _ _
  · exact hordered ▸ List.sublist_append_left _ _
  · exact hmemory
  · exact hmedia
  · refine (sortedRefs_perm _).trans ?_
    rw [homitted, refsOf]
    exact (((List.reverse_perm older).map _).append_right _).append_right _

/-- A replacement stands for part of the history, and memory after the retained is left out. -/
theorem replaced_makes {composition : Composition} {selection : Selection} {omitted : List String}
    {requested : RequestedCompaction} {compacted retained : List HistoryItem}
    {messages : List AgentMessage} {replacement : HistoryItem} {memory dropped : List MemorySource}
    {compaction : Option CompactionRecord} (hoverflow : input.overflow = .compact requested)
    (hselected : input.selectOptional setting = .ok (selection, omitted))
    (hcompacted : compacted.Sublist (orderedHistory input.history))
    (hretained : retained.Sublist (orderedHistory input.history))
    (hreplaced : replacementItem requested.eventId compacted messages = .ok replacement)
    (hmemory : selection.memory = memory ++ dropped.reverse)
    (hcomposition : input.compose setting.count
      ⟨replacement :: retained, memory, selection.media⟩ = .ok composition)
    (hfits : composition.measurement.inputTokens ≤ setting.inputLimit) :
    Choice.Makes ⟨some replacement, retained, compacted, memory,
        input.memory.filter (·.sourceRef ∉ selection.memory.map (·.sourceRef)) ++ dropped,
        selection.media, input.media.filter (· ∉ selection.media)⟩ input setting
      ⟨composition, input.omittedRefs compacted
        (input.memoryOutside selection.memory ++ dropped.map (·.sourceRef.val)) selection.media,
        compaction⟩ := by
  have hselection := selectOptional_eq_ok hselected
  obtain ⟨oldest, holdest, hid, hsequence, -⟩ := replacementItem_eq_ok hreplaced
  constructor
  · exact ⟨_, List.Perm.refl _, hcomposition⟩
  · exact hfits
  · exact requiredMedia_subset hselection
  · rintro item hitem
    obtain rfl := Option.some.inj hitem
    exact ⟨requested, oldest, hoverflow, hid, holdest, hsequence⟩
  · exact hretained
  · exact hcompacted
  · refine List.Perm.trans ?_ (memory_outside_perm hselection)
    rw [List.perm_iff_count]
    intro source
    simp only [hmemory, List.count_append, List.count_reverse]
    omega
  · exact media_outside_perm hselection
  · refine (sortedRefs_perm _).trans ?_
    rw [refsOf, AssemblyInput.memoryOutside, AssemblyInput.mediaOutside, List.map_append]

/-- The messages of the replacement that a budget includes, of a compaction it made or of the
recorded one. -/
def replacementOf (budgeted : Budgeted) (recorded : Option Compaction) : List AgentMessage :=
  match budgeted.compaction.or (recorded.map (·.record)) with
  | some record => record.replacementMessages.take 1
  | none => []

theorem choice_of_exit (hdistinct : DistinctHistory input.history)
    (hbase : input.fits setting ⟨[], [], input.requiredMedia⟩ = .ok true)
    (h : Exit input setting budgeted) :
    ∃ choice : Choice, choice.Makes input setting budgeted ∧
      choice.replacement.toList.map (·.message) = replacementOf budgeted none ∧
      orderedHistory input.history = choice.older ++ choice.newer := by
  cases h with
  | complete hcomposition hfits => exact ⟨_, complete_makes hcomposition hfits, rfl, rfl⟩
  | truncated hselected hcomposition =>
      obtain ⟨choice, hmakes, hreplacement, hsplit⟩ := truncated_makes hbase hselected hcomposition
      exact ⟨choice, hmakes, by rw [hreplacement]; rfl, hsplit⟩
  | compacted hoverflow hruntime hselected hreaches haccepted =>
      obtain ⟨replacement, hinterrupted⟩ :=
        interrupted hdistinct hoverflow hselected hreaches haccepted
      obtain ⟨dropped, hmemory, homitted⟩ := hinterrupted.retained
      rw [homitted]
      refine ⟨_, replaced_makes hoverflow hselected ?_ ?_ hinterrupted.replaced hmemory
        hinterrupted.composed hinterrupted.fits, ?_, hinterrupted.split.symm⟩
      · exact hinterrupted.split ▸ List.sublist_append_left _ _
      · exact hinterrupted.split ▸ List.sublist_append_right _ _
      · obtain ⟨-, -, -, -, htake⟩ := replacementItem_eq_ok hinterrupted.replaced
        exact htake.symm

/-- The compacted and then the retained events of a record are the history. -/
def Partitions (input : AssemblyInput) (record : CompactionRecord) : Prop :=
  orderedHistory input.history =
    (orderedHistory input.history).filter (·.sourceEventId ∈ record.sourceEventIds) ++
      (orderedHistory input.history).filter (·.sourceEventId ∈ record.retainedSourceEventIds)

theorem choice_of_resumed {recorded : Compaction}
    (h : input.resumeRecordedCompaction setting recorded = .ok budgeted) :
    ∃ choice : Choice, choice.Makes input setting budgeted ∧
      choice.replacement.toList.map (·.message) = replacementOf budgeted (some recorded) ∧
      (orderedHistory input.history = choice.older ++ choice.newer ↔
        Partitions input recorded.record) := by
  obtain ⟨hoverflow, h⟩ := reject_bind_eq_ok_iff.mp h
  obtain ⟨replacement, hreplaced, h⟩ := bind_eq_ok_iff.mp h
  obtain ⟨⟨selection, omitted⟩, hselected, h⟩ := bind_eq_ok_iff.mp h
  have hmemory := orderedMemory_of_sublist (selectOptional_eq_ok hselected).memory
  simp only [hmemory] at h
  obtain ⟨⟨memory, dropped⟩, hretain, h⟩ := bind_eq_ok_iff.mp h
  obtain ⟨composition, hcomposition, h⟩ := bind_eq_ok_iff.mp h
  obtain ⟨hfits, h⟩ := reject_bind_eq_ok_iff.mp h
  obtain rfl := pure_eq_ok_iff.mp h
  have hsplit := retainFitting_eq_ok hretain
  rw [List.reverse_reverse] at hsplit
  refine ⟨_, replaced_makes (by simpa using hoverflow) hselected List.filter_sublist
    List.filter_sublist hreplaced hsplit hcomposition (by simpa using hfits), ?_, Iff.rfl⟩
  obtain ⟨-, -, -, -, htake⟩ := replacementItem_eq_ok hreplaced
  exact htake.symm

/-- The composition is within the limits and holds the required sources. -/
structure KeepsTo (input : AssemblyInput) (limits : Limits) (composition : Composition) : Prop where
  limit : composition.measurement.inputTokens + input.parameters.maxOutputTokens ≤
    min limits.contextTokens limits.sessionRemaining
  required : IncludesRequired input composition

theorem Choice.Makes.keepsTo {count : TokenCounter}
    {runtime : Option (CompactionRuntime AgentMessage)} {limits : Limits}
    (hadmitted : Admitted input count runtime limits)
    (h : choice.Makes input (limits.setting input count runtime) budgeted) :
    KeepsTo input limits budgeted.composition := by
  obtain ⟨history, -, hcomposed⟩ := h.composed
  refine ⟨?_, includesRequired hcomposed h.required⟩
  have hfits := h.fits
  have hcontext := hadmitted.context
  simp only [Limits.setting, Limits.contextLimit] at hfits hcontext
  omega

end

namespace Sample

open Hseos.Sample (ident reference event spec firstRequest)

/-- A request of the earlier turn. -/
def earlierRequest : ModelRequest :=
  { Hseos.Sample.request with messages := Hseos.Sample.request.messages.dropLast ++ [earlier] }

def earlierStreamed (sequence : Nat) (payload : ModelStreamPayload) : SessionPayload :=
  .modelStreamed ⟨ident "t1", some (ident "st1"), ident "p1",
    ⟨ident "p1", ident "r1", sequence, payload⟩⟩

def summary : AgentMessage := { role := .assistant, content := "The release was discussed." }

/-- The input and the answer of the earlier turn. -/
def question : HistoryItem := ⟨ident "e2", 2, earlier⟩

def answer : HistoryItem := ⟨ident "e8", 8, { role := .assistant, content := "done" }⟩

/-- The compaction of the earlier turn's input. -/
def recorded : Compaction where
  record := {
    compactionId := requested.compactionId
    turnId := ident "t2"
    providerId := requested.providerId
    providerManifest :=
      ⟨requested.providerId, ⟨"1.0.0", Eq.refl true⟩, [.historySummary], 16777216, 262144⟩
    checkpointProviderId := ident "checkpoint:memory"
    trigger := .contextPressure
    strategy := .historySummary
    checkpointRef := reference "checkpoint://c1"
    sourceEventIds := [ident "e2"]
    retainedSourceEventIds := []
    sourceDigest := ⟨digest (.arr [question.toJson]), isDigest_sha256Hex _⟩
    replacementMessages := [summary]
    before := compactionStats [earlier]
    after := compactionStats [summary]
    prunedToolCallIds := [] }
  eventId := ident "e6"

/-- A second turn whose history was compacted while the first still waits for an answer. -/
def compactedEarly : List SessionEvent :=
  [Hseos.Sample.created, askedEarlier,
    event "e3" 3 (.contextAssembled { Hseos.Sample.assembled with request := ⟨earlierRequest, none⟩ }),
    event "e4" 4 (.modelRequestStarted { firstRequest (ident "st1") with request := earlierRequest }),
    event "e5" 5 (.turnStarted (ident "t2") Hseos.Sample.input),
    event "e6" 6 (.compactionCompleted recorded.record)]

/-- The first turn is answered after that. -/
def answeredLate : List SessionEvent :=
  compactedEarly ++ [event "e7" 7 (earlierStreamed 0 (.contentDelta ⟨"done", Eq.refl true⟩)),
    event "e8" 8 (earlierStreamed 1 (.completed .stop (reference "response")))]

/-- The assembly of the second turn. -/
def resumedAssembly (history : List HistoryItem) : AssemblyInput :=
  { assembly with
    currentTurn := ⟨reference "session-event://e5", Hseos.Sample.input, []⟩
    overflow := .compact ⟨requested.compactionId, recorded.eventId, requested.providerId⟩
    history
    distinct := by
      dsimp only [Sources.sourceRefs]
      decide
    declared := by simp }

end Sample

theorem apart_of_resumed {history : List HistoryItem} (hids : ∀ item ∈ history,
    item.sourceRef ∈ ["session-event://e2", "session-event://e8"]) :
    Apart (Sample.resumedAssembly history) := by
  have hoptional : ∀ reference ∈ (Sample.resumedAssembly history).optionalRefs,
      reference ∈ ["session-event://e2", "session-event://e8", "memory://1"] := by
    intro reference hreference
    rcases mem_optionalRefs.mp hreference with hhistory | hmemory | hmedia
    · obtain ⟨item, hitem, rfl⟩ := List.mem_map.mp hhistory
      exact List.mem_append_left ["memory://1"] (hids item hitem)
    · obtain rfl := List.mem_singleton.mp hmemory
      decide
    · cases hmedia
  constructor
  · intro item hitem hdeclared
    have hother : ∀ reference ∈ ["session-event://e2", "session-event://e8"],
        reference ∉ ["c", "p", "memory://1", "session-event://e5"] := by decide
    exact hother _ (hids item hitem) hdeclared
  · intro reference hreference
    have hother : ∀ reference ∈ ["session-event://e2", "session-event://e8", "memory://1"],
        reference ≠ contextPrecedenceRef := by decide
    exact ⟨hother _ (hoptional reference hreference), List.not_mem_nil⟩
  · rintro requested hoverflow hmem
    obtain rfl := Overflow.compact.inj hoverflow
    exact absurd (hoptional _ hmem) (by decide)

end Hseos.Context
