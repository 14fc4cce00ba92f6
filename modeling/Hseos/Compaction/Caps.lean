import Hseos.Compaction.Deterministic

/-! # Caps of the deterministic provider

When the results of the deterministic provider pass the checks of the runtime: its own
measure of a summary leaves out the two brackets that the accounting counts.
-/

namespace Hseos

/-! ## Sizes -/

theorem byteLength_arrayText (texts : List (List Char)) :
    byteLength (arrayText texts) = (texts.map fun text => byteLength text + 1).sum - 1 + 2 := by
  have hopen : (utf8Bytes '[').length = 1 := by decide
  have hclose : (utf8Bytes ']').length = 1 := by decide
  rw [arrayText, List.cons_append, byteLength_cons, byteLength_append, byteLength_cons,
    byteLength_nil, byteLength_commaSeparated_eq, hopen, hclose]
  omega

/-- The canonical text of an object has the bytes of its text in any order. -/
theorem byteLength_objectText (members : List (String × List Char)) :
    byteLength (objectText members) =
      byteLength ('\x7b' :: commaSeparated (members.map memberText) ++ ['\x7d']) := by
  have hperm : (sortMembers members).Perm members := List.perm_insertionSort _ _
  simp only [objectText, List.cons_append, byteLength_cons, byteLength_append,
    byteLength_commaSeparated_eq, List.map_map]
  rw [(hperm.map _).sum_nat]

theorem byteLength_stringify_replacement (message : Replacement) :
    byteLength (ContractMessage.stringify message) =
      byteLength (ContractMessage.canonicalText message) := by
  cases message with
  | summary content => exact (byteLength_objectText _).symm
  | stub message => exact Json.byteLength_stringify _

theorem byteLength_stringify_replacements (messages : List Replacement) :
    byteLength (arrayText (messages.map ContractMessage.stringify)) =
      byteLength (canonicalMessages messages) := by
  rw [canonicalMessages, byteLength_arrayText, byteLength_arrayText, List.map_map, List.map_map]
  simp only [Function.comp_def, byteLength_stringify_replacement]

/-- The accounting of a summary counts the brackets around its message. -/
theorem byteLength_canonicalMessages_summary (content : List Nat) :
    byteLength (canonicalMessages [Replacement.summary content]) =
      byteLength (summaryText content) + 2 := by
  have htext := byteLength_stringify_replacement (.summary content)
  change byteLength (summaryText content) = _ at htext
  rw [canonicalMessages, byteLength_arrayText, htext]
  simp

/-- The source messages have fewer bytes than the sources. -/
theorem CompactionInput.beforeBytes_le (input : CompactionInput) :
    input.beforeBytes ≤ byteLength input.sourcesJson.stringify := by
  have hle : ∀ source ∈ input.sources, byteLength (canonicalJson source.message.toJson) + 1 ≤
      byteLength (canonicalJson source.toJson) + 1 := by
    intro source _
    have hmem : ("message", source.message.toJson) ∈ [("source_event_id",
        Json.ofText source.sourceEventId), ("source_ref", .str source.sourceRef),
        ("sequence", .ofNat source.sequence), ("message", source.message.toJson)] := by simp
    exact Nat.succ_le_succ (byteLength_le_of_mem hmem)
  have hsum : ∀ sources : List CompactionSource, sources ⊆ input.sources →
      (sources.map fun source => byteLength (canonicalJson source.message.toJson) + 1).sum ≤
        (sources.map fun source => byteLength (canonicalJson source.toJson) + 1).sum := by
    intro sources hsub
    induction sources with
    | nil => exact Nat.le_refl 0
    | cons source rest ih =>
        rw [List.cons_subset] at hsub
        exact Nat.add_le_add (hle source hsub.1) (ih hsub.2)
  have htotal := hsum input.sources (List.Subset.refl _)
  rw [Json.byteLength_stringify, CompactionInput.beforeBytes, messagesJson,
    CompactionInput.sourcesJson, byteLength_canonicalJson_arr, byteLength_canonicalJson_arr]
  simp only [List.map_map, Function.comp_def]
  omega

/-! ## Shortening -/

/-- The shortening with this number is the first whose message fits. -/
structure FirstFitting (maximumBytes : Nat) (content : List Nat) (number : Nat) : Prop where
  fits : byteLength (summaryText (cut^[number] content)) ≤ maximumBytes
  before : ∀ k < number, maximumBytes < byteLength (summaryText (cut^[k] content)) ∧
    1 < (cut^[k] content).length

section

variable {maximumBytes : Nat} {content found : List Nat}

theorem FirstFitting.zero (h : byteLength (summaryText content) ≤ maximumBytes) :
    FirstFitting maximumBytes content 0 := ⟨h, by simp⟩

theorem FirstFitting.succ_iff {number : Nat}
    (h : maximumBytes < byteLength (summaryText content)) (hlength : 1 < content.length) :
    FirstFitting maximumBytes content (number + 1) ↔
      FirstFitting maximumBytes (cut content) number := by
  constructor
  · intro hfirst
    refine ⟨hfirst.fits, ?_⟩
    intro k hk
    exact hfirst.before (k + 1) (Nat.succ_lt_succ hk)
  · intro hfirst
    refine ⟨hfirst.fits, ?_⟩
    intro k hk
    cases k with
    | zero => exact ⟨h, hlength⟩
    | succ k => exact hfirst.before k (Nat.lt_of_succ_lt_succ hk)

/-- The loop ends with the first shortening that fits, within the attempts it has. -/
theorem shorten_eq_ok_iff {left : Nat} : shorten maximumBytes left content = .ok found ↔
    ∃ number ≤ left, FirstFitting maximumBytes content number ∧ cut^[number] content = found := by
  induction left generalizing content with
  | zero =>
      rw [shorten]
      split
      next hfits =>
        constructor
        · intro h
          exact ⟨0, Nat.le_refl 0, .zero hfits, Except.ok.inj h⟩
        · rintro ⟨number, hnumber, -, rfl⟩
          obtain rfl := Nat.le_zero.mp hnumber
          rfl
      next hfits =>
        constructor
        · intro h
          cases h
        · rintro ⟨number, hnumber, hfirst, -⟩
          obtain rfl := Nat.le_zero.mp hnumber
          exact absurd hfirst.fits hfits
  | succ left ih =>
      rw [shorten]
      split
      next hfits =>
        constructor
        · intro h
          exact ⟨0, Nat.zero_le _, .zero hfits, Except.ok.inj h⟩
        · rintro ⟨number, hnumber, hfirst, rfl⟩
          cases number with
          | zero => rfl
          | succ number => exact absurd hfits (Nat.not_le.mpr (hfirst.before 0 (by omega)).1)
      next hfits =>
        have hlarge := Nat.not_le.mp hfits
        split
        next hshort =>
          constructor
          · intro h
            cases h
          · rintro ⟨number, hnumber, hfirst, -⟩
            cases number with
            | zero => exact absurd hfirst.fits hfits
            | succ number =>
                exact absurd hshort (Nat.not_le.mpr (hfirst.before 0 (by omega)).2)
        next hlong =>
          rw [ih]
          constructor
          · rintro ⟨number, hnumber, hfirst, rfl⟩
            exact ⟨number + 1, Nat.succ_le_succ hnumber,
              (FirstFitting.succ_iff hlarge (Nat.not_le.mp hlong)).mpr hfirst, rfl⟩
          · rintro ⟨number, hnumber, hfirst, rfl⟩
            cases number with
            | zero => exact absurd hfirst.fits hfits
            | succ number =>
                exact ⟨number, Nat.le_of_succ_le_succ hnumber,
                  (FirstFitting.succ_iff hlarge (Nat.not_le.mp hlong)).mp hfirst, rfl⟩

end

/-! ## Results -/

namespace CompactionInput

/-- Tool results that stubs can stand for. -/
structure Prunable (input : CompactionInput) : Prop where
  tools : ∀ source ∈ input.sources, source.message.role = .tool
  distinct : (input.sources.map (·.message.toolCallId)).Nodup
  few : input.sources.length ≤ 128

variable {input : CompactionInput}

theorem valid_iff : input.valid = true ↔
    (intWithin 0 maxSafeInteger input.targetTokens = true ∧ 1 ≤ input.sources.length ∧
      input.sources.length ≤ 4096) ∧ (∀ source ∈ input.sources, source.valid = true) ∧
      ((input.sources.map (·.sourceEventId)).Nodup ∧ (input.sources.map (·.sourceRef)).Nodup) ∧
      byteLength input.sourcesJson.stringify ≤ 16777216 := by
  simp only [CompactionInput.valid, Bool.and_eq_true, decide_eq_true_eq, List.all_eq_true, and_assoc]

theorem stats_valid {count bytes : Nat} (hcount : count ≤ 4096) (hbytes : bytes ≤ 16777216) :
    (CompactionStats.mk count bytes bytes).valid = true := by
  have hsafe : 16777216 ≤ maxSafeInteger := by decide
  have hcount' : count ≤ maxSafeInteger := by omega
  have hbytes' : bytes ≤ maxSafeInteger := by omega
  simp [CompactionStats.valid, intWithin, hcount', hbytes']

end CompactionInput

namespace DeterministicCompactionProvider

variable {provider : DeterministicCompactionProvider} {input : CompactionInput}

theorem before_valid (hvalid : input.valid = true) :
    (CompactionStats.mk input.sources.length input.beforeBytes input.beforeBytes).valid = true ∧
      1 ≤ input.sources.length := by
  obtain ⟨⟨-, hsome, hcount⟩, -, -, hbytes⟩ := CompactionInput.valid_iff.mp hvalid
  exact ⟨CompactionInput.stats_valid hcount (input.beforeBytes_le.trans hbytes), hsome⟩

/-- A summary is a result exactly if it is smaller than its sources and the contract's bound. -/
theorem resultOf_summary_valid_iff (hvalid : input.valid = true)
    (hstrategy : input.strategy = .historySummary) {content : List Nat} :
    (provider.resultOf input [.summary content]).valid = true ↔
      byteLength (canonicalMessages [Replacement.summary content]) < input.beforeBytes ∧
        byteLength (canonicalMessages [Replacement.summary content]) ≤ 262144 := by
  obtain ⟨hbefore, hsome⟩ := before_valid hvalid
  simp only [CompactionResult.valid, resultOf, hstrategy, hbefore, byteLength_stringify_replacements]
  constructor
  · intro h
    simp only [Bool.and_eq_true, decide_eq_true_eq] at h
    exact ⟨h.1.1.2, h.2⟩
  · rintro ⟨hsmaller, hbounded⟩
    have hafter := CompactionInput.stats_valid (show 1 ≤ 4096 by omega)
      (hbounded.trans (show 262144 ≤ 16777216 by omega))
    simp [hafter, hsmaller, hbounded, hsome, hsmaller.le, uniqueIdentifiers, ContractMessage.valid,
      ContractMessage.role, ContractMessage.toolCallId, ContractMessage.hasToolCalls]

theorem toolCallId_isSome {source : CompactionSource} (hsource : source.valid = true)
    (htool : source.message.role = .tool) : source.message.toolCallId.isSome = true := by
  simp only [CompactionSource.valid, AgentMessage.valid, Bool.and_eq_true, htool] at hsource
  simpa using hsource.2.1.1.1.1

theorem stub_valid {source : CompactionSource} (hsource : source.valid = true)
    (htool : source.message.role = .tool) : (pruneToolMessage source.message).valid = true := by
  simp [AgentMessage.valid, pruneToolMessage, toolCallId_isSome hsource htool]

theorem role_stub (source : CompactionSource) :
    ContractMessage.role (Replacement.stub (pruneToolMessage source.message)) = .tool := rfl

theorem toolCallId_stubs : input.stubs.map ContractMessage.toolCallId =
    input.sources.map (·.message.toolCallId) := by
  rw [CompactionInput.stubs, List.map_map]
  rfl

/-- The calls that a pruning names are those of its sources, in order. -/
theorem prunedToolCallIds_stubs (hvalid : input.valid = true)
    (hstrategy : input.strategy = .toolResultPrune)
    (htools : ∀ source ∈ input.sources, source.message.role = .tool) :
    (provider.resultOf input input.stubs).prunedToolCallIds.map some =
      input.sources.map (·.message.toolCallId) := by
  have hcalls : ∀ source ∈ input.sources, source.message.toolCallId.isSome = true := by
    intro source hsource
    have hsource' := (CompactionInput.valid_iff.mp hvalid).2.1 source hsource
    exact toolCallId_isSome hsource' (htools source hsource)
  have hfilter : input.sources.filter (·.message.role = .tool) = input.sources :=
    List.filter_eq_self.mpr fun source hsource => decide_eq_true (htools source hsource)
  simp only [resultOf, hstrategy, hfilter]
  clear hfilter
  revert hcalls
  induction input.sources with
  | nil => exact fun _ => rfl
  | cons source rest ih =>
      intro hcalls
      obtain ⟨call, hcall⟩ := Option.isSome_iff_exists.mp (hcalls source List.mem_cons_self)
      simp only [List.filterMap_cons, hcall, List.map_cons]
      rw [ih fun other hother => hcalls other (List.mem_cons_of_mem _ hother)]

/-- Stubs are a result exactly if they stand for few, distinct tool results and are smaller than
these and the contract's bound. -/
theorem resultOf_stubs_valid_iff (hvalid : input.valid = true)
    (hstrategy : input.strategy = .toolResultPrune)
    (htools : ∀ source ∈ input.sources, source.message.role = .tool) :
    (provider.resultOf input input.stubs).valid = true ↔
      input.Prunable ∧ byteLength (canonicalMessages input.stubs) < input.beforeBytes ∧
        byteLength (canonicalMessages input.stubs) ≤ 262144 := by
  obtain ⟨hbefore, hsome⟩ := before_valid hvalid
  have hids : (provider.resultOf input input.stubs).prunedToolCallIds.map some =
      input.sources.map (·.message.toolCallId) :=
    prunedToolCallIds_stubs hvalid hstrategy htools
  have hlength := congrArg List.length hids
  rw [List.length_map, List.length_map] at hlength
  have hnodup : (provider.resultOf input input.stubs).prunedToolCallIds.Nodup ↔
      (input.sources.map (·.message.toolCallId)).Nodup := by
    rw [← hids, List.nodup_map_iff (Option.some_injective _)]
  have hcanonical : input.stubs.filterMap ContractMessage.toolCallId =
      (provider.resultOf input input.stubs).prunedToolCallIds := by
    have hmap := congrArg (List.filterMap id) (hids.trans toolCallId_stubs.symm)
    simpa [List.filterMap_map] using hmap.symm
  have hstubs : input.stubs.length = input.sources.length := List.length_map ..
  constructor
  · intro h
    simp only [CompactionResult.valid, Bool.and_eq_true, decide_eq_true_eq,
      byteLength_stringify_replacements] at h
    obtain ⟨⟨⟨⟨⟨⟨⟨⟨⟨⟨⟨-, hfew⟩, -⟩, -⟩, -⟩, hunique⟩, -⟩, -⟩, -⟩, hsmaller⟩, -⟩, hbounded⟩ := h
    simp only [uniqueIdentifiers, Bool.and_eq_true, decide_eq_true_eq] at hunique
    exact ⟨⟨htools, hnodup.mp hunique.2, hstubs ▸ hfew⟩, hsmaller, hbounded⟩
  · rintro ⟨⟨-, hdistinct, hfew⟩, hsmaller, hbounded⟩
    have hafter := CompactionInput.stats_valid (show input.stubs.length ≤ 4096 by omega)
      (hbounded.trans (show 262144 ≤ 16777216 by omega))
    have hmessages : input.stubs.all ContractMessage.valid = true := by
      rw [CompactionInput.stubs, List.all_map, List.all_eq_true]
      intro source hsource
      exact stub_valid ((CompactionInput.valid_iff.mp hvalid).2.1 source hsource)
        (htools source hsource)
    have hroles : input.stubs.all (fun message => ContractMessage.role message = .tool) = true := by
      rw [CompactionInput.stubs, List.all_map, List.all_eq_true]
      exact fun _ _ => rfl
    have hunique : uniqueIdentifiers (provider.resultOf input input.stubs).prunedToolCallIds =
        true := by
      simp only [uniqueIdentifiers, Bool.and_eq_true, decide_eq_true_eq]
      exact ⟨by omega, hnodup.mpr hdistinct⟩
    have hprune : (provider.resultOf input input.stubs).strategy = .toolResultPrune := hstrategy
    have hcanonicalIds := congrArg canonicalIds hcanonical
    simp only [CompactionResult.valid, hprune, Bool.and_eq_true, decide_eq_true_eq,
      byteLength_stringify_replacements]
    exact ⟨⟨⟨⟨⟨⟨⟨⟨⟨⟨⟨hstubs ▸ hsome, hstubs ▸ hfew⟩, hmessages⟩, hbefore⟩, hafter⟩, hunique⟩,
      ⟨⟨hroles, hlength.trans hstubs.symm⟩, hcanonicalIds⟩⟩, hsome⟩, rfl⟩, hsmaller⟩,
      hsmaller.le⟩, hbounded⟩

/-! ## Results within the caps -/

/-- The results of a compaction stay within the caps and pass the checks of the runtime. -/
structure RespectsCaps (manifest : CompactionProviderManifest) (input : CompactionInput)
    (result : CompactionResult Replacement) : Prop where
  smaller : result.after.bytes < result.before.bytes
  capped : result.after.bytes ≤ manifest.maxOutputBytes
  before : result.before = ⟨input.sources.length, input.beforeBytes, input.beforeBytes⟩
  after : result.after = ⟨result.replacementMessages.length,
    byteLength (canonicalMessages result.replacementMessages),
    byteLength (canonicalMessages result.replacementMessages)⟩
  ordered : input.strategy = .toolResultPrune →
    result.replacementMessages.map ContractMessage.toolCallId =
      input.sources.map (·.message.toolCallId)
  accepted : checkResult manifest input result = .ok ()

/-- What the provider would return has at most the bytes of its manifest: the first shortening of
the summary that fits, with the brackets around its message, or the stubs. -/
def CapHolds (provider : DeterministicCompactionProvider) (input : CompactionInput) : Prop :=
  input.providerId = provider.manifest.providerId →
    match input.strategy with
    | .historySummary => ∀ number ≤ 64,
        FirstFitting (provider.maximumBytes input) input.summaryContent number →
          let bytes := byteLength (summaryText (cut^[number] input.summaryContent)) + 2
          bytes < input.beforeBytes → bytes ≤ 262144 → bytes ≤ provider.manifest.maxOutputBytes
    | .toolResultPrune => input.Prunable →
        let bytes := byteLength (canonicalMessages input.stubs)
        bytes < input.beforeBytes → bytes ≤ 262144 → bytes ≤ provider.manifest.maxOutputBytes

theorem replacements_ordered {replacements : List Replacement}
    (h : provider.replacements input = .ok replacements)
    (hstrategy : input.strategy = .toolResultPrune) :
    replacements.map ContractMessage.toolCallId = input.sources.map (·.message.toolCallId) := by
  rw [DeterministicCompactionProvider.replacements, hstrategy] at h
  obtain ⟨-, h⟩ := reject_bind_eq_ok_iff.mp h
  obtain rfl := pure_eq_ok_iff.mp h
  exact toolCallId_stubs

theorem compact_eq_ok_iff (hvalid : input.valid = true)
    {result : CompactionResult Replacement} : provider.compact input = .ok result ↔
      ∃ replacements, provider.replacements input = .ok replacements ∧
        (provider.resultOf input replacements).valid = true ∧
        input.providerId = provider.manifest.providerId ∧
        provider.resultOf input replacements = result := by
  constructor
  · intro h
    obtain ⟨-, h⟩ := reject_bind_eq_ok_iff.mp h
    obtain ⟨replacements, hreplacements, h⟩ := bind_eq_ok_iff.mp h
    obtain ⟨-, h⟩ := reject_bind_eq_ok_iff.mp h
    obtain ⟨hresult, h⟩ := reject_bind_eq_ok_iff.mp h
    obtain ⟨hproviderId, h⟩ := reject_bind_eq_ok_iff.mp h
    exact ⟨replacements, hreplacements, by simpa using hresult,
      not_not.mp (of_decide_eq_false hproviderId), pure_eq_ok_iff.mp h⟩
  · rintro ⟨replacements, hreplacements, hresult, hproviderId, rfl⟩
    -- the contract asks for what the provider itself checks first
    have hsmaller := hresult
    simp only [CompactionResult.valid, Bool.and_eq_true, decide_eq_true_eq] at hsmaller
    refine reject_bind_eq_ok_iff.mpr ⟨by simp [hvalid], bind_eq_ok_iff.mpr
      ⟨replacements, hreplacements, reject_bind_eq_ok_iff.mpr ⟨?_, reject_bind_eq_ok_iff.mpr
        ⟨by simp [hresult], reject_bind_eq_ok_iff.mpr ⟨?_, rfl⟩⟩⟩⟩⟩
    · exact decide_eq_false (Nat.not_le.mpr hsmaller.1.1.2)
    · exact decide_eq_false (not_not_intro hproviderId)

theorem respectsCaps_iff (hproviderId : input.providerId = provider.manifest.providerId)
    {replacements : List Replacement} (hreplacements : provider.replacements input = .ok replacements)
    (hresult : (provider.resultOf input replacements).valid = true) :
    RespectsCaps provider.manifest input (provider.resultOf input replacements) ↔
      byteLength (canonicalMessages replacements) ≤ provider.manifest.maxOutputBytes := by
  constructor
  · intro h
    exact h.capped
  · intro hcapped
    have hordered := replacements_ordered hreplacements
    have hsmaller := hresult
    simp only [CompactionResult.valid, Bool.and_eq_true, decide_eq_true_eq] at hsmaller
    refine ⟨hsmaller.1.1.2, hcapped, rfl, rfl, hordered, checkResult_eq_ok_iff.mpr ?_⟩
    exact ⟨hproviderId.symm, rfl, rfl, rfl, rfl, rfl, rfl, hcapped, hordered⟩

theorem byteLength_quoted_digest (value : Json) : byteLength (quoted (digest value)) = 73 := by
  have hdigest : (digest value).toList =
      "sha256:".toList ++ Sha256.hexDigest (utf8 (canonicalJson value)) := by
    simp [digest, sha256Hex]
  have hscheme : ("sha256:".toList.all fun c => c.toNat < 0x80 && escapeChar c = [c]) = true := by
    decide
  have hplain : ∀ c ∈ (digest value).toList, c.toNat < 0x80 ∧ escapeChar c = [c] := by
    intro c hc
    rw [hdigest] at hc
    rcases List.mem_append.mp hc with hc | hc
    · simpa using List.all_eq_true.mp hscheme c hc
    · have hhex := List.all_eq_true.mp (Sha256.isHexChar_hexDigest _) c hc
      simp only [Sha256.isHexChar, Char.isDigit, Bool.or_eq_true, Bool.and_eq_true,
        decide_eq_true_eq, UInt32.le_iff_toNat_le] at hhex
      have hzero : '0'.val.toNat = 48 := rfl
      have hnine : '9'.val.toNat = 57 := rfl
      have hcode : c.val.toNat = c.toNat := rfl
      exact ⟨by omega, escapeChar_of_plain (by omega)⟩
  have hlength : (digest value).length = 71 := by
    rw [← String.length_toList, hdigest, List.length_append, Sha256.length_hexDigest]
    rfl
  rw [byteLength_quoted_of_plain hplain, hlength]

theorem byteLength_summaryText_utf16 (text : String) :
    byteLength (summaryText (utf16 text)) = byteLength (quoted text) + 31 := by
  have hrole : byteLength (memberText ("role", quoted "assistant")) = 18 := by decide
  have hcontent : byteLength (quoted "content") = 9 := by decide
  have hpunctuation : (utf8Bytes '\x7b').length = 1 ∧ (utf8Bytes '\x7d').length = 1 ∧
      (utf8Bytes ',').length = 1 ∧ (utf8Bytes ':').length = 1 := by decide
  simp only [summaryText, summaryMembers, quotedUnits_utf16, List.map_cons, List.map_nil,
    commaSeparated, List.cons_append, byteLength_cons, byteLength_append, byteLength_nil, hrole,
    hpunctuation]
  simp only [memberText, byteLength_cons, byteLength_append, hcontent, hpunctuation]
  omega

def sampleProvider (maxOutputBytes : Nat) (h : intWithin 1 262144 maxOutputBytes = true) :
    DeterministicCompactionProvider where
  manifest := ⟨⟨"compaction:deterministic", Eq.refl true⟩, ⟨"1.0.0", Eq.refl true⟩,
    [.historySummary, .toolResultPrune], 16777216, maxOutputBytes⟩
  valid := by
    rw [CompactionProviderManifest.valid, h]
    rfl
  strategies := rfl

/-- One message of three hundred letters. -/
def sampleInput : CompactionInput where
  providerId := ⟨"compaction:deterministic", Eq.refl true⟩
  compactionId := ⟨"c1", Eq.refl true⟩
  sessionId := ⟨"s1", Eq.refl true⟩
  turnId := ⟨"t1", Eq.refl true⟩
  trigger := .contextPressure
  strategy := .historySummary
  targetTokens := 1000
  sources := [⟨⟨"e1", Eq.refl true⟩, "session-event://e1", 1,
    { role := .user, content := String.ofList (List.replicate 300 'a') }⟩]

/-- What is evaluated of the sample: its texts without the digest. -/
theorem sampleInput_texts : sampleInput.valid = true ∧ sampleInput.beforeBytes = 330 ∧
    byteLength (quoted ("[HSEOS COMPACTION id=" ++ sampleInput.compactionId.val ++ " sources=" ++
      Nat.repr sampleInput.sources.length ++ " digest=")) = 43 ∧
    byteLength (quoted ("\n".intercalate (sampleInput.sources.map CompactionInput.line))) = 311 ∧
    byteLength (quoted
      "Source content retained in immutable session events and checkpoint.") = 69 := by
  decide +kernel

theorem sampleInput_valid : sampleInput.valid = true := sampleInput_texts.1

theorem beforeBytes_sampleInput : sampleInput.beforeBytes = 330 := sampleInput_texts.2.1

/-- The bytes of a header, of which the digest takes 71. -/
theorem byteLength_quoted_header (input : CompactionInput) :
    byteLength (quoted input.header) = byteLength (quoted ("[HSEOS COMPACTION id=" ++
      input.compactionId.val ++ " sources=" ++ Nat.repr input.sources.length ++ " digest=")) + 74 := by
  have hafter : byteLength (quoted "]\n") = 5 := by decide
  have hend := byteLength_quoted_append (digest input.sourcesJson) "]\n"
  rw [byteLength_quoted_digest, hafter] at hend
  have hheader : ∀ start : String, byteLength (quoted (start ++ digest input.sourcesJson ++ "]\n")) =
      byteLength (quoted start) + 74 := by
    intro start
    have hstart := byteLength_quoted_append start (digest input.sourcesJson ++ "]\n")
    rw [Nat.add_right_cancel hend] at hstart
    rw [String.append_assoc]
    exact Nat.add_right_cancel hstart
  exact hheader _

/-- The text of the one message is longer than the message, so the summary leaves it out. -/
theorem byteLength_sampleInput : byteLength (summaryText sampleInput.summaryContent) = 215 := by
  obtain ⟨-, hbefore, hstart, hline, hretained⟩ := sampleInput_texts
  have hlong := byteLength_quoted_append sampleInput.header
    ("\n".intercalate (sampleInput.sources.map CompactionInput.line))
  have hshort := byteLength_quoted_append sampleInput.header
    "Source content retained in immutable session events and checkpoint."
  have hbytes : ∀ {whole : Nat}, whole + 2 = 117 + 311 → 330 ≤ whole + 31 := by omega
  rw [byteLength_quoted_header, hstart, hline] at hlong
  rw [byteLength_quoted_header, hstart, hretained] at hshort
  rw [CompactionInput.summaryContent, hbefore, byteLength_summaryText_utf16,
    if_pos (hbytes hlong), byteLength_summaryText_utf16, Nat.add_right_cancel hshort]

theorem fits_sampleInput {maxOutputBytes : Nat} (h : intWithin 1 262144 maxOutputBytes = true)
    (hroom : 215 ≤ maxOutputBytes) : byteLength (summaryText sampleInput.summaryContent) ≤
      (sampleProvider maxOutputBytes h).maximumBytes sampleInput := by
  have htarget : 215 ≤ max 64 1000 := by omega
  rw [byteLength_sampleInput, DeterministicCompactionProvider.maximumBytes]
  exact le_min hroom htarget

/-- The loop keeps the whole text when it has room for its 215 bytes. -/
theorem compact_sampleInput {maxOutputBytes : Nat} (h : intWithin 1 262144 maxOutputBytes = true)
    (hroom : 215 ≤ maxOutputBytes) : ∃ result,
      (sampleProvider maxOutputBytes h).compact sampleInput = .ok result ∧
        result.after.bytes = 217 := by
  have hcontent : shorten ((sampleProvider maxOutputBytes h).maximumBytes sampleInput) 64
      sampleInput.summaryContent = .ok sampleInput.summaryContent :=
    shorten_eq_ok_iff.mpr ⟨0, Nat.zero_le 64,
      .zero (fits_sampleInput h hroom), Function.iterate_zero_apply cut _⟩
  have hbytes : byteLength (canonicalMessages [Replacement.summary sampleInput.summaryContent]) =
      217 := by
    rw [byteLength_canonicalMessages_summary, byteLength_sampleInput]
  refine ⟨_, (compact_eq_ok_iff sampleInput_valid).mpr ⟨[.summary sampleInput.summaryContent],
    bind_eq_ok_iff.mpr ⟨_, hcontent, rfl⟩, ?_, rfl, rfl⟩, hbytes⟩
  rw [resultOf_summary_valid_iff sampleInput_valid rfl, hbytes]
  exact ⟨by rw [beforeBytes_sampleInput]; decide, by decide⟩

/-- A cap that has room for the whole text and two brackets holds. -/
theorem capHolds_sampleInput {maxOutputBytes : Nat} (h : intWithin 1 262144 maxOutputBytes = true)
    (hroom : 217 ≤ maxOutputBytes) : CapHolds (sampleProvider maxOutputBytes h) sampleInput := by
  have hfits := fits_sampleInput h (by omega)
  have hstrategy : sampleInput.strategy = .historySummary := rfl
  rw [CapHolds, hstrategy]
  intro _ number _ hfirst
  dsimp only
  intro _ _
  cases number with
  | zero =>
      rw [Function.iterate_zero_apply, byteLength_sampleInput]
      exact hroom
  | succ number =>
      have hlarge := (hfirst.before 0 (Nat.succ_pos number)).1
      rw [Function.iterate_zero_apply] at hlarge
      exact absurd hfits (Nat.not_le.mpr hlarge)

end DeterministicCompactionProvider

end Hseos
