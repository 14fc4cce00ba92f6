import Hseos.Context.Budget
import Hseos.Session.Origins
import Mathlib.Data.List.Sort

/-! # Selections and attempts

What the greedy selection keeps and leaves out, and what the compaction attempts hold
after any number of rejections.
-/

namespace Hseos.Context

/-! ## Orders -/

instance : Std.Total historyLe where
  total a b := by
    rcases Nat.lt_trichotomy a.sequence b.sequence with h | h | h
    · exact .inl (.inl h)
    · exact (le_total (utf16 a.sourceRef) (utf16 b.sourceRef)).imp (.inr ⟨h, ·⟩)
        (.inr ⟨h.symm, ·⟩)
    · exact .inr (.inl h)

instance : IsTrans HistoryItem historyLe where
  trans a b c := by
    rintro (hab | ⟨hab, hab'⟩) (hbc | ⟨hbc, hbc'⟩)
    · exact .inl (hab.trans hbc)
    · exact .inl (hbc ▸ hab)
    · exact .inl (hab ▸ hbc)
    · exact .inr ⟨hab.trans hbc, le_trans (α := List Nat) hab' hbc'⟩

instance : Std.Total priorityLe where
  total a b := by
    rcases Nat.lt_trichotomy a.1 b.1 with h | h | h
    · exact .inr (.inl h)
    · exact (le_total (utf16 a.2.val) (utf16 b.2.val)).imp (.inr ⟨h, ·⟩) (.inr ⟨h.symm, ·⟩)
    · exact .inl (.inl h)

instance : IsTrans (Nat × Reference) priorityLe where
  trans a b c := by
    rintro (hab | ⟨hab, hab'⟩) (hbc | ⟨hbc, hbc'⟩)
    · exact .inl (hbc.trans hab)
    · exact .inl (hbc ▸ hab)
    · exact .inl (hab ▸ hbc)
    · exact .inr ⟨hab.trans hbc, le_trans (α := List Nat) hab' hbc'⟩

instance : Std.Total memoryLe where
  total _ _ := Std.Total.total (r := priorityLe) _ _

instance : IsTrans MemorySource memoryLe where
  trans _ _ _ := IsTrans.trans (r := priorityLe) _ _ _

theorem pairwise_orderedHistory (history : List HistoryItem) :
    (orderedHistory history).Pairwise historyLe := List.pairwise_insertionSort _ _

theorem orderedHistory_perm (history : List HistoryItem) : (orderedHistory history).Perm history :=
  List.perm_insertionSort _ _

theorem orderedMemory_perm (memory : List MemorySource) : (orderedMemory memory).Perm memory :=
  List.perm_insertionSort _ _

theorem orderedMedia_perm (media : List MediaSource) : (orderedMedia media).Perm media :=
  List.perm_insertionSort _ _

section

variable {history part other : List HistoryItem}

/-- Items in the order of their sequences are what sorting makes of them. -/
theorem orderedHistory_eq_of_increasing (h : part.Pairwise (·.sequence < ·.sequence))
    (hperm : other.Perm part) : orderedHistory other = part := by
  have hsorted : part.Pairwise historyLe := h.imp .inl
  have hsequences : (part.map (·.sequence)).Nodup := (List.pairwise_map.mpr h).imp ne_of_lt
  refine List.Perm.eq_of_pairwise ?_ (pairwise_orderedHistory other) hsorted
    ((orderedHistory_perm other).trans hperm)
  intro a b ha hb hab hba
  have hsequence : a.sequence = b.sequence := by
    rcases hab with hab | ⟨hab, -⟩
    · rcases hba with hba | ⟨hba, -⟩
      · exact absurd hab (Nat.lt_asymm hba)
      · exact hba.symm
    · exact hab
  have ha' := hperm.subset ((orderedHistory_perm other).subset ha)
  exact List.inj_on_of_nodup_map hsequences ha' hb hsequence

/-- Items of different sequences are sorted by these. -/
theorem increasing_orderedHistory (h : DistinctHistory history) :
    (orderedHistory history).Pairwise (·.sequence < ·.sequence) := by
  have hsequences : ((orderedHistory history).map (·.sequence)).Nodup :=
    ((orderedHistory_perm history).map _).nodup_iff.mpr h.sequences
  refine ((pairwise_orderedHistory history).and (List.pairwise_map.mp hsequences)).imp ?_
  rintro a b ⟨hle, hne⟩
  rcases hle with hlt | ⟨heq, -⟩
  · exact hlt
  · exact absurd heq hne

theorem orderedHistory_of_sorted (h : part.Pairwise historyLe) : orderedHistory part = part :=
  h.insertionSort_eq

theorem orderedMemory_of_sublist {memory selected : List MemorySource}
    (h : selected.Sublist (orderedMemory memory)) : orderedMemory selected = selected :=
  ((List.pairwise_insertionSort memoryLe memory).sublist h).insertionSort_eq

end

/-! ## Sources of an input -/

namespace AssemblyInput

variable (input : AssemblyInput)

theorem memoryRefs_nodup : (input.memory.map (·.sourceRef)).Nodup := by
  have h := input.distinct
  simp only [Sources.sourceRefs, List.nodup_append'] at h
  exact h.1.1.2.1

theorem mediaRefs_nodup : (input.media.map (·.sourceRef)).Nodup := by
  have h := input.distinct
  simp only [Sources.sourceRefs, List.nodup_append'] at h
  exact h.1.2.1

end AssemblyInput

/-! ## The greedy selection -/

/-- A greedy selection: the newest history, and memory and media with all that is required. -/
structure Selected (input : AssemblyInput) (selection : Selection) (omitted : List String) :
    Prop where
  /-- What was left of the history, and the selected part in order. -/
  history : ∃ older newer, orderedHistory input.history = older ++ newer ∧
    selection.history = newer.reverse ∧
    ∃ memory media, omitted = (older.reverse).map (·.sourceRef) ++
      memory.map (fun source : MemorySource => source.sourceRef.val) ++
      media.map (fun source : MediaSource => source.sourceRef.val) ∧
      (selection.memory ++ memory).Perm input.memory ∧ (selection.media ++ media).Perm input.media
  memory : selection.memory.Sublist (orderedMemory input.memory)
  media : ∃ added, selection.media = input.requiredMedia ++ added

section

variable {input : AssemblyInput} {setting : Setting} {selection : Selection}
  {omitted : List String}

/-- The media that are not required complete the required ones. -/
theorem required_append_perm :
    (input.requiredMedia ++ (orderedMedia input.media).filter
      (·.sourceRef ∉ input.requiredMedia.map (·.sourceRef))).Perm input.media := by
  have hperm := orderedMedia_perm input.media
  have hnodup := (hperm.map (·.sourceRef)).nodup_iff.mpr input.mediaRefs_nodup
  refine (append_filter_outside_perm hnodup ?_ ?_).trans hperm
  · exact (input.mediaRefs_nodup.of_map _).filter _
  · intro media hmedia
    exact hperm.symm.subset (List.mem_of_mem_filter hmedia)

theorem selectOptional_eq_ok (h : input.selectOptional setting = .ok (selection, omitted)) :
    Selected input selection omitted := by
  obtain ⟨⟨history, overflowed⟩, hhistory, h⟩ := bind_eq_ok_iff.mp h
  obtain ⟨⟨memory, omittedMemory⟩, hmemory, h⟩ := bind_eq_ok_iff.mp h
  obtain ⟨⟨media, omittedMedia⟩, hmedia, h⟩ := bind_eq_ok_iff.mp h
  obtain ⟨rfl, rfl⟩ := Prod.mk.inj (pure_eq_ok_iff.mp h)
  obtain ⟨taken, htaken, hsplit⟩ := takeFitting_eq_ok hhistory
  obtain ⟨chosen, hchosen, hsub, hperm⟩ := filterFitting_eq_ok hmemory
  obtain ⟨added, hadded, -, hperm'⟩ := filterFitting_eq_ok hmedia
  rw [List.nil_append] at htaken hchosen
  obtain rfl := htaken
  obtain rfl := hchosen
  refine ⟨⟨overflowed.reverse, history.reverse, ?_, by simp, omittedMemory, omittedMedia, by simp,
    hperm.trans (orderedMemory_perm _), ?_⟩, hsub, added, hadded⟩
  · rw [← List.reverse_append, ← hsplit, List.reverse_reverse]
  · change (media ++ omittedMedia).Perm input.media
    rw [hadded, List.append_assoc]
    exact (hperm'.append_left _).trans required_append_perm

theorem compose_eq_ok {count : TokenCounter} {composition : Composition}
    (h : input.compose count selection = .ok composition) :
    composition.messages = input.messages selection ∧
      composition.sources = input.records selection ∧
      composition.sourceRefs = input.includedRefs selection ∧
      composition.parts = selection.parts := by
  obtain ⟨measurement, -, h⟩ := bind_eq_ok_iff.mp h
  obtain rfl := pure_eq_ok_iff.mp h
  exact ⟨rfl, rfl, rfl, rfl⟩

theorem fits_eq_ok_iff {fit : Bool} : input.fits setting selection = .ok fit ↔
    ∃ composition, input.compose setting.count selection = .ok composition ∧
      decide (composition.measurement.inputTokens ≤ setting.inputLimit) = fit := by
  rw [AssemblyInput.fits, bind_eq_ok_iff]
  simp only [pure_eq_ok_iff]

end

/-! ## Attempts -/

/-- The history that the first attempt compacts and retains. -/
theorem firstRetained_history {input : AssemblyInput} {selection : Selection}
    {omitted : List String} (hdistinct : DistinctHistory input.history)
    (hselected : Selected input selection omitted) :
    (input.firstRetained selection).compacted ++ (input.firstRetained selection).history =
      orderedHistory input.history := by
  obtain ⟨older, newer, hordered, hnewer, -⟩ := hselected.history
  have hperm := orderedHistory_perm input.history
  have hids : ((older ++ newer).map (·.sourceEventId)).Nodup := by
    rw [← hordered]
    exact (hperm.map _).nodup_iff.mpr hdistinct.ids
  have hhistory : orderedHistory selection.history = newer := by
    refine orderedHistory_eq_of_increasing ?_ (hnewer ▸ List.reverse_perm newer)
    have hincreasing := increasing_orderedHistory hdistinct
    rw [hordered] at hincreasing
    exact hincreasing.sublist (List.sublist_append_right _ _)
  simp only [AssemblyInput.firstRetained, hhistory, hordered, filter_outside_back_of_nodup hids]

/-- What the loop holds after a number of rejected attempts. -/
inductive Reaches (input : AssemblyInput) (setting : Setting)
    (runtime : CompactionRuntime AgentMessage) (requested : RequestedCompaction)
    (media : List MediaSource) (start : Retained) : Nat → Retained → Prop where
  | start : Reaches input setting runtime requested media start 0 start
  | rejected {call : Nat} {kept next : Retained}
      (hkept : Reaches input setting runtime requested media start call kept)
      (hrejected : input.attempt setting runtime requested media call kept =
        .error replacementRejected)
      (hnext : kept.next = some next) :
      Reaches input setting runtime requested media start (call + 1) next

section

variable {input : AssemblyInput} {setting : Setting} {runtime : CompactionRuntime AgentMessage}
  {requested : RequestedCompaction} {media : List MediaSource} {start kept kept' : Retained}
  {call call' : Nat} {compacted compacted' : Compacted AgentMessage Composition}

/-- The loop holds one thing after each number of rejections. -/
theorem Reaches.functional (h : Reaches input setting runtime requested media start call kept)
    (h' : Reaches input setting runtime requested media start call kept') : kept = kept' := by
  induction h generalizing kept' with
  | start =>
      cases h'
      rfl
  | rejected hkept hrejected hnext ih =>
      cases h' with
      | rejected hkept' hrejected' hnext' =>
          obtain rfl := ih hkept'
          exact Option.some.inj (hnext.symm.trans hnext')

/-- An attempt that others came after was rejected. -/
theorem Reaches.rejected_of_lt (h : Reaches input setting runtime requested media start call kept)
    (hlt : call' < call)
    (h' : Reaches input setting runtime requested media start call' kept') :
    input.attempt setting runtime requested media call' kept' = .error replacementRejected := by
  induction h with
  | start => exact absurd hlt (Nat.not_lt_zero _)
  | @rejected call _ _ hkept hrejected hnext ih =>
      by_cases hlast : call' = call
      · subst hlast
        obtain rfl := hkept.functional h'
        exact hrejected
      · exact ih (by omega)

/-- Only one number of rejections comes before an attempt that is accepted. -/
theorem Reaches.unique (h : Reaches input setting runtime requested media start call kept)
    (haccepted : input.attempt setting runtime requested media call kept = .ok compacted)
    (h' : Reaches input setting runtime requested media start call' kept')
    (haccepted' : input.attempt setting runtime requested media call' kept' = .ok compacted') :
    kept = kept' ∧ compacted = compacted' := by
  rcases Nat.lt_trichotomy call call' with hlt | rfl | hlt
  · rw [h'.rejected_of_lt hlt h] at haccepted
    cases haccepted
  · obtain rfl := h.functional h'
    exact ⟨rfl, Except.ok.inj (haccepted.symm.trans haccepted')⟩
  · rw [h.rejected_of_lt hlt h'] at haccepted'
    cases haccepted'

/-- What the loop holds splits the history and the memory it started from. -/
structure Splits (start kept : Retained) : Prop where
  history : kept.compacted ++ kept.history = start.compacted ++ start.history
  memory : ∃ dropped : List MemorySource, start.memory = kept.memory ++ dropped.reverse ∧
    kept.omittedMemory = start.omittedMemory ++ dropped.map (·.sourceRef.val)

/-- A rejection moves one memory or one item of a history in order. -/
theorem Retained.next_splits {next : Retained} (h : kept.next = some next)
    (hsorted : (kept.compacted ++ kept.history).Pairwise historyLe) : Splits kept next := by
  unfold Retained.next at h
  split at h
  next last hlast =>
    obtain rfl := Option.some.inj h
    refine ⟨rfl, [last], ?_, by simp⟩
    rw [List.reverse_singleton]
    exact (List.dropLast_append_getLast? last hlast).symm
  next =>
    split at h
    next first rest hhistory =>
      obtain rfl := Option.some.inj h
      have hcompacted : orderedHistory (kept.compacted ++ [first]) = kept.compacted ++ [first] := by
        apply orderedHistory_of_sorted
        rw [hhistory, List.append_cons] at hsorted
        exact hsorted.sublist (List.sublist_append_left _ _)
      refine ⟨?_, [], by simp, by simp⟩
      rw [hcompacted, hhistory, List.append_assoc, List.singleton_append]
    next => cases h

theorem Splits.trans {middle : Retained} (h : Splits start middle) (h' : Splits middle kept) :
    Splits start kept where
  history := h'.history.trans h.history
  memory := by
    obtain ⟨dropped, hmemory, homitted⟩ := h.memory
    obtain ⟨dropped', hmemory', homitted'⟩ := h'.memory
    refine ⟨dropped ++ dropped', ?_, ?_⟩
    · rw [hmemory, hmemory', List.reverse_append, List.append_assoc]
    · rw [homitted', homitted, List.map_append, List.append_assoc]

theorem Reaches.splits (h : Reaches input setting runtime requested media start call kept)
    (hsorted : (start.compacted ++ start.history).Pairwise historyLe) : Splits start kept := by
  induction h with
  | start => exact ⟨rfl, [], by simp, by simp⟩
  | rejected hkept hrejected hnext ih =>
      have hsorted' := ih.history ▸ hsorted
      exact ih.trans (Retained.next_splits hnext hsorted')

theorem attempts_eq_ok {left : Nat}
    (hreaches : Reaches input setting runtime requested media start call kept')
    (h : input.attempts setting runtime requested media left call kept' = .ok (kept, compacted)) :
    ∃ last, Reaches input setting runtime requested media start last kept ∧
      input.attempt setting runtime requested media last kept = .ok compacted := by
  induction left generalizing call kept' with
  | zero => cases h
  | succ left ih =>
      rw [AssemblyInput.attempts] at h
      cases hattempt : input.attempt setting runtime requested media call kept' with
      | ok found =>
          rw [hattempt] at h
          obtain ⟨rfl, rfl⟩ := Prod.mk.inj (Except.ok.inj h)
          exact ⟨call, hreaches, hattempt⟩
      | error err =>
          simp only [hattempt] at h
          split at h
          next hrejected =>
            split at h
            next next hnext => exact ih (hreaches.rejected (hrejected ▸ hattempt) hnext) h
            next => cases h
          next => cases h

end

/-! ## Exits -/

section

variable {input : AssemblyInput} {setting : Setting} {count : TokenCounter}
  {runtime : Option (CompactionRuntime AgentMessage)} {limits : Limits}
  {recorded : Option Compaction} {budgeted : Budgeted}

/-- How a budget without a recorded compaction comes about. -/
inductive Exit (input : AssemblyInput) (setting : Setting) : Budgeted → Prop where
  | complete {composition : Composition}
      (hcomposition : input.compose setting.count ⟨input.history, input.memory, input.media⟩ =
        .ok composition)
      (hfits : composition.measurement.inputTokens ≤ setting.inputLimit) :
      Exit input setting ⟨composition, [], none⟩
  | truncated {composition : Composition} {selection : Selection} {omitted : List String}
      (hselected : input.selectOptional setting = .ok (selection, omitted))
      (hcomposition : input.compose setting.count selection = .ok composition) :
      Exit input setting ⟨composition, sortedRefs omitted, none⟩
  | compacted {selection : Selection} {omitted : List String} {requested : RequestedCompaction}
      {runtime : CompactionRuntime AgentMessage} {call : Nat} {kept : Retained}
      {compacted : Compacted AgentMessage Composition}
      (hoverflow : input.overflow = .compact requested) (hruntime : setting.runtime = some runtime)
      (hselected : input.selectOptional setting = .ok (selection, omitted))
      (hreaches : Reaches input setting runtime requested selection.media
        (input.firstRetained selection) call kept)
      (haccepted : input.attempt setting runtime requested selection.media call kept =
        .ok compacted) :
      Exit input setting ⟨compacted.accepted,
        input.omittedRefs kept.compacted kept.omittedMemory selection.media,
        some (input.recordOf runtime kept compacted)⟩

theorem compactHistory_eq_ok {requested : RequestedCompaction} {completeTokens : Nat}
    {selection : Selection} {omitted : List String} (hoverflow : input.overflow = .compact requested)
    (hselected : input.selectOptional setting = .ok (selection, omitted))
    (h : input.compactHistory setting requested completeTokens selection = .ok budgeted) :
    Exit input setting budgeted := by
  unfold AssemblyInput.compactHistory at h
  split at h
  next => cases h
  next runtime hruntime =>
    obtain ⟨shouldCompact, -, h⟩ := bind_eq_ok_iff.mp h
    obtain ⟨-, h⟩ := reject_bind_eq_ok_iff.mp h
    obtain ⟨⟨kept, compacted⟩, hattempts, h⟩ := bind_eq_ok_iff.mp h
    obtain rfl := pure_eq_ok_iff.mp h
    obtain ⟨call, hreaches, haccepted⟩ := attempts_eq_ok .start hattempts
    exact .compacted hoverflow hruntime hselected hreaches haccepted

theorem budgetOptional_eq_ok (h : input.budgetOptional setting = .ok budgeted) :
    Exit input setting budgeted := by
  obtain ⟨complete, hcomplete, h⟩ := bind_eq_ok_iff.mp h
  split at h
  next hfits =>
    obtain rfl := pure_eq_ok_iff.mp h
    exact .complete hcomplete hfits
  next =>
    split at h
    next => cases h
    next =>
      obtain ⟨⟨selection, omitted⟩, hselected, h⟩ := bind_eq_ok_iff.mp h
      obtain ⟨composition, hcomposition, h⟩ := bind_eq_ok_iff.mp h
      dsimp only at h
      split at h
      next requested hoverflow =>
        split at h
        next =>
          obtain rfl := pure_eq_ok_iff.mp h
          exact .truncated hselected hcomposition
        next => exact compactHistory_eq_ok hoverflow hselected h
      next =>
        obtain rfl := pure_eq_ok_iff.mp h
        exact .truncated hselected hcomposition

/-- The required context and the reserved output are within the limits. -/
structure Admitted (input : AssemblyInput) (count : TokenCounter)
    (runtime : Option (CompactionRuntime AgentMessage)) (limits : Limits) : Prop where
  positive : 1 ≤ limits.contextLimit
  provider : input.parameters.maxOutputTokens ≤ limits.maxOutputTokens
  context : input.parameters.maxOutputTokens ≤ limits.contextLimit
  base : input.fits (limits.setting input count runtime) ⟨[], [], input.requiredMedia⟩ = .ok true

theorem budget_eq_ok_iff : input.budget count runtime limits recorded = .ok budgeted ↔
    Admitted input count runtime limits ∧
      (match recorded with
      | some compaction =>
          input.resumeRecordedCompaction (limits.setting input count runtime) compaction
      | none => input.budgetOptional (limits.setting input count runtime)) = .ok budgeted := by
  simp only [AssemblyInput.budget, reject_bind_eq_ok_iff, Bool.or_eq_false_iff,
    decide_eq_false_iff_not, not_lt]
  rw [bind_eq_ok_iff]
  simp only [reject_bind_eq_ok_iff, decide_eq_false_iff_not, not_lt]
  constructor
  · rintro ⟨hpositive, ⟨hprovider, hcontext⟩, base, hbase, hfits, h⟩
    refine ⟨⟨hpositive, hprovider, hcontext, ?_⟩, h⟩
    exact fits_eq_ok_iff.mpr ⟨base, hbase, decide_eq_true hfits⟩
  · rintro ⟨⟨hpositive, hprovider, hcontext, hbase⟩, h⟩
    obtain ⟨base, hcompose, hfits⟩ := fits_eq_ok_iff.mp hbase
    exact ⟨hpositive, ⟨hprovider, hcontext⟩, base, hcompose, of_decide_eq_true hfits, h⟩

end

/-! ## A sample input

One earlier turn, one memory, and a compaction provider with the summaries it answers.
-/

namespace Sample

open Hseos.Sample (ident reference event input spec)

/-- The input of the earlier turn. -/
def earlier : AgentMessage :=
  { role := .user
    content := "Summarise what was decided in the meeting about the release, the open questions " ++
      "and who owns them. The first question is the schema of the audit table, the second is " ++
      "the date of the freeze, the third is the review of the release notes." }

/-- The first turn is started with the earlier message. -/
def askedEarlier : SessionEvent := event "e2" 2 (.turnStarted (ident "t1") earlier)

def started : List SessionEvent :=
  [Hseos.Sample.created, askedEarlier,
    event "e3" 3 (.turnStarted (ident "t2") input)]

def source (sourceRef content : String) (h : lengthWithin 1 1024 sourceRef = true := by exact Eq.refl true) :
    ContextSource := ⟨⟨sourceRef, h⟩, .internal, content⟩

def requested : RequestedCompaction := ⟨ident "c1", ident "e4", ident "compaction:sample"⟩

def assembly : AssemblyInput where
  sessionId := ident "s1"
  turnId := ident "t2"
  instructions := ⟨[source "c" "Be brief."], [source "p" "Use Lean."], [], [], []⟩
  runtimeContext := []
  references := []
  memory := [⟨source "memory://1" "The release is on Friday.", 50⟩]
  media := []
  currentTurn := ⟨reference "session-event://e3", input, []⟩
  tools := []
  parameters := ⟨100, none, []⟩
  overflow := .compact requested
  history := [⟨ident "e2", 2, earlier⟩]
  authority _ := {
    authority := .data
    origin := .config
    digest := ⟨"0000000000000000000000000000000000000000000000000000000000000000", Eq.refl true⟩
    trust := .untrusted
    declared := false }
  mediaTokens _ := 0
  distinct := by decide
  declared := by decide

/-- A counter of characters. -/
def count : TokenCounter := fun text => .ok text.length

def limits : Limits := ⟨920, 100, 1000⟩

def summaryResult (input : CompactionInput) (summary : String) : CompactionResult AgentMessage :=
  let messages : List AgentMessage := [{ role := .assistant, content := summary }]
  let bytes := byteLength (canonicalMessages messages)
  { providerId := input.providerId
    compactionId := input.compactionId
    trigger := input.trigger
    strategy := input.strategy
    sourceDigest := digestOf input.sourcesJson
    replacementMessages := messages
    before := ⟨input.sources.length, input.beforeBytes, input.beforeBytes⟩
    after := ⟨1, bytes, bytes⟩
    prunedToolCallIds := [] }

/-- A provider that answers each call with the given summary, and an empty checkpoint store. -/
def runtime (summary : Nat → String) : CompactionRuntime AgentMessage where
  checkpointProviderId := ident "checkpoint:memory"
  resolve providerId _ :=
    .ok ⟨providerId, ⟨"1.0.0", Eq.refl true⟩, [.historySummary], 16777216, 262144⟩
  assess _ _ := .ok true
  get _ := .error
    (.ofError "CheckpointProviderError" "CHECKPOINT_NOT_FOUND" "checkpoint is not found")
  provider call input := .ok (summaryResult input (summary call))
  put _ result :=
    .ok ⟨reference "checkpoint://c1", ⟨result.digest, isDigest_sha256Hex _⟩, result⟩

end Sample

end Hseos.Context
