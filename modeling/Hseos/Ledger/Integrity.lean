import Hseos.Foundation.Numbered
import Hseos.Ledger.Store
import Mathlib.Data.List.ReduceOption

/-! # Stream integrity of the ledger

Every call of the ledger's two operations keeps the streams numbered from one on,
settles each of its requests by replaying or by adding it, and can be repeated.
-/

namespace Hseos

/-! ## Candidates that can be read back -/

/-- The JSON columns can be parsed. -/
def Candidate.Hydratable (candidate : Candidate) : Prop :=
  ∀ text ∈ [candidate.actorJson, candidate.payloadJson, candidate.evidenceRefsJson],
    ∃ value, parseColumn text = .ok value

theorem hydrate_of_hydratable {row : Row} (h : row.toCandidate.Hydratable) :
    ∃ event, hydrate row = .ok event := by
  obtain ⟨actor, hactor⟩ := h row.actorJson (by simp)
  obtain ⟨payload, hpayload⟩ := h row.payloadJson (by simp)
  obtain ⟨refs, hrefs⟩ := h row.evidenceRefsJson (by simp)
  rw [hydrate, hactor, hpayload, hrefs]
  exact ⟨_, rfl⟩

theorem held_field? {value found : Json} {name : String} (h : value.held = true)
    (hfield : value.field? name = some found) : found.held = true := by
  cases value with
  | obj members =>
      obtain ⟨member, hmember, rfl⟩ := Option.map_eq_some_iff.mp hfield
      simp only [Json.held, Bool.and_eq_true] at h
      have hall : ∀ m ∈ members, m.2.held = true := by
        have := h.2
        clear h hfield hmember
        induction members with
        | nil => simp
        | cons m rest ih =>
            simp only [Json.heldMembers, Bool.and_eq_true] at this
            simpa [this.1] using ih this.2
      exact hall member (List.mem_of_find?_eq_some hmember)
  | _ => simp [Json.field?] at hfield

theorem held_getD_field? {value default : Json} (name : String) (h : value.held = true)
    (hdefault : default.held = true) : ((value.field? name).getD default).held = true := by
  cases hfield : value.field? name with
  | none => exact hdefault
  | some found => exact held_field? h hfield

theorem held_item {items : List Json} (h : (Json.arr items).held = true) :
    ∀ item ∈ items, item.held = true := by
  simp only [Json.held] at h
  induction items with
  | nil => simp
  | cons item rest ih =>
      simp only [Json.heldItems, Bool.and_eq_true] at h
      simpa [h.1] using ih h.2

theorem parseColumn_stableJson {value : Json} {path : String} (h : value.held = true)
    (hfinite : value.nonFinite? path = none) :
    ∃ parsed, parseColumn value.stableJson = .ok parsed :=
  ⟨_, by rw [parseColumn, Json.parseJson_stableJson h hfinite]⟩

theorem nonFinite?_of_assertStrictJson {value : Json} {path : String}
    {error : String → LedgerError} {u : Unit} (h : assertStrictJson error value path = .ok u) :
    value.nonFinite? path = none := by
  unfold assertStrictJson at h
  split at h
  next => cases h
  next hfinite => exact hfinite

/-- A list of strings has no number in it. -/
theorem nonFiniteItem?_of_strings {items : List Json} (path : String) (index : Nat)
    (h : ∀ item ∈ items, item.string?.isSome = true) :
    Json.nonFiniteItem? path index items = none := by
  induction items generalizing index with
  | nil => rfl
  | cons item rest ih =>
      rw [Json.nonFiniteItem?, ih _ fun i hi => h i (List.mem_cons_of_mem _ hi), Option.or_none]
      have hitem := h item List.mem_cons_self
      cases item <;> simp_all [Json.string?, Json.nonFinite?]

/-- What `normalizeEvent` makes of an event. -/
theorem normalizeEvent_eq_ok {event : Json} {stream : Stream} {sequence : Nat}
    {candidate : Candidate} (hheld : event.held = true)
    (h : normalizeEvent event stream sequence = .ok candidate) :
    candidate.stream = stream ∧ candidate.streamSequence = sequence ∧ candidate.Hydratable := by
  unfold normalizeEvent at h
  replace h := (reject_bind_eq_ok_iff.mp h).2
  obtain ⟨eventId, -, h⟩ := bind_eq_ok_iff.mp h
  replace h := (reject_bind_eq_ok_iff.mp h).2
  obtain ⟨eventType, -, h⟩ := bind_eq_ok_iff.mp h
  obtain ⟨occurredAt, -, h⟩ := bind_eq_ok_iff.mp h
  obtain ⟨correlationId, -, h⟩ := bind_eq_ok_iff.mp h
  obtain ⟨causationId, -, h⟩ := bind_eq_ok_iff.mp h
  obtain ⟨operationId, -, h⟩ := bind_eq_ok_iff.mp h
  replace h := (reject_bind_eq_ok_iff.mp h).2
  replace h := (reject_bind_eq_ok_iff.mp h).2
  replace h := (reject_bind_eq_ok_iff.mp h).2
  replace h := (reject_bind_eq_ok_iff.mp h).2
  obtain ⟨hrefs, h⟩ := reject_bind_eq_ok_iff.mp h
  obtain ⟨_, hactor, h⟩ := bind_eq_ok_iff.mp h
  obtain ⟨_, hpayload, h⟩ := bind_eq_ok_iff.mp h
  obtain ⟨_, -, h⟩ := bind_eq_ok_iff.mp h
  obtain ⟨_, -, h⟩ := bind_eq_ok_iff.mp h
  obtain rfl := pure_eq_ok_iff.mp h
  refine ⟨rfl, rfl, ?_⟩
  intro text htext
  simp only [List.mem_cons, List.not_mem_nil, or_false] at htext
  rcases htext with rfl | rfl | rfl
  · exact parseColumn_stableJson (held_getD_field? _ hheld rfl)
      (nonFinite?_of_assertStrictJson hactor)
  · exact parseColumn_stableJson (held_getD_field? _ hheld rfl)
      (nonFinite?_of_assertStrictJson hpayload)
  · have hlist : (((event.field? "evidence_refs").getD (.arr [])).nonFinite? "") = none := by
      split at hrefs
      next items hitems =>
        rw [hitems, Json.nonFinite?]
        exact nonFiniteItem?_of_strings _ _ (by simpa using hrefs)
      next => simp at hrefs
    exact parseColumn_stableJson (held_getD_field? _ hheld rfl) hlist

/-! ## Prepared requests -/

/-- The candidates of a request follow its expected version in its stream. -/
structure PreparedAppend.Numbered (prepared : PreparedAppend) : Prop where
  nonempty : prepared.candidates ≠ []
  streams : ∀ candidate ∈ prepared.candidates, candidate.stream = prepared.stream
  sequences : prepared.candidates.map (·.streamSequence) =
    List.range' (prepared.expectedVersion + 1) prepared.candidates.length
  hydratable : ∀ candidate ∈ prepared.candidates, candidate.Hydratable

theorem normalizeEvents_eq_ok {stream : Stream} {sequence : Nat} {events : List Json}
    {candidates : List Candidate} (hheld : ∀ event ∈ events, event.held = true)
    (h : normalizeEvents stream sequence events = .ok candidates) :
    candidates.length = events.length ∧
      candidates.map (·.streamSequence) = List.range' sequence candidates.length ∧
      ∀ candidate ∈ candidates, candidate.stream = stream ∧ candidate.Hydratable := by
  induction events generalizing sequence candidates with
  | nil =>
      obtain rfl := Except.ok.inj h
      simp
  | cons event rest ih =>
      obtain ⟨candidate, hcandidate, h⟩ := bind_eq_ok_iff.mp h
      obtain ⟨others, hothers, h⟩ := bind_eq_ok_iff.mp h
      obtain rfl := pure_eq_ok_iff.mp h
      obtain ⟨hstream, hsequence, hread⟩ :=
        normalizeEvent_eq_ok (hheld event List.mem_cons_self) hcandidate
      obtain ⟨hlength, hsequences, hall⟩ :=
        ih (fun e he => hheld e (List.mem_cons_of_mem _ he)) hothers
      refine ⟨by simp [hlength], ?_, ?_⟩
      · rw [List.map_cons, hsequence, hsequences, List.length_cons, List.range'_succ]
      · intro c hc
        rcases List.mem_cons.mp hc with rfl | hc
        · exact ⟨hstream, hread⟩
        · exact hall c hc

theorem prepareAppend_numbered {registry : EventRegistry} {request : Json}
    {prepared : PreparedAppend} (hheld : request.held = true)
    (h : prepareAppend registry request = .ok prepared) : prepared.Numbered := by
  unfold prepareAppend at h
  replace h := (reject_bind_eq_ok_iff.mp h).2
  obtain ⟨aggregateId, -, h⟩ := bind_eq_ok_iff.mp h
  obtain ⟨aggregateType, -, h⟩ := bind_eq_ok_iff.mp h
  obtain ⟨expectedVersion, -, h⟩ := bind_eq_ok_iff.mp h
  obtain ⟨events, hevents, h⟩ := bind_eq_ok_iff.mp h
  obtain ⟨_, -, h⟩ := bind_eq_ok_iff.mp h
  obtain ⟨candidates, hcandidates, h⟩ := bind_eq_ok_iff.mp h
  replace h := (reject_bind_eq_ok_iff.mp h).2
  obtain rfl := pure_eq_ok_iff.mp h
  have hlist : events ≠ [] ∧ ∀ event ∈ events, event.held = true := by
    unfold requireEvents at hevents
    split at hevents
    next event rest hfield =>
      obtain rfl := Except.ok.inj hevents
      exact ⟨List.cons_ne_nil _ _, held_item (held_field? hheld hfield)⟩
    next => cases hevents
  obtain ⟨hlength, hsequences, hall⟩ := normalizeEvents_eq_ok hlist.2 hcandidates
  refine ⟨?_, fun c hc => (hall c hc).1, hsequences, fun c hc => (hall c hc).2⟩
  intro hnil
  apply hlist.1
  rw [← List.length_eq_zero_iff, ← hlength]
  exact List.length_eq_zero_iff.mpr hnil

/-! ## Integrity of the table -/

/-- What every call keeps: positions and event identifiers are distinct, every
stream is numbered from one on, and every row can be read. -/
structure Ledger.Integral (ledger : Ledger) : Prop where
  positions : ledger.rows.Pairwise (·.position < ·.position)
  lastPosition : ∀ row ∈ ledger.rows, row.position ≤ ledger.lastPosition
  eventIds : (ledger.rows.map (·.eventId)).Nodup
  sequences : ∀ stream, (ledger.streamRows stream).map (·.streamSequence) =
    List.range' 1 (ledger.streamRows stream).length
  hydratable : ∀ row ∈ ledger.rows, row.toCandidate.Hydratable

namespace Ledger.Integral

variable {ledger : Ledger}

theorem empty : Ledger.empty.Integral where
  positions := List.Pairwise.nil
  lastPosition := by simp [Ledger.empty]
  eventIds := List.nodup_nil
  sequences := fun _ => rfl
  hydratable := by simp [Ledger.empty]

/-- The version of a stream is the number of its rows. -/
theorem selectVersion_eq (h : ledger.Integral) (stream : Stream) :
    ledger.selectVersion stream = (ledger.streamRows stream).length := by
  rw [Ledger.selectVersion, h.sequences, foldl_max_range']

theorem selectById_eq_some_iff (h : ledger.Integral) {eventId : String} {row : Row} :
    ledger.selectById eventId = some row ↔ row ∈ ledger.rows ∧ row.eventId = eventId :=
  find?_key_eq_some_iff h.eventIds

end Ledger.Integral

theorem samePersistedEvent_iff {row : Row} {candidate : Candidate}
    (h : row.eventId = candidate.eventId) :
    samePersistedEvent row candidate = true ↔ row.toCandidate = candidate := by
  obtain ⟨⟨_, _, ⟨_, _⟩, _, _, _, _, _, _, _, _, _⟩, _, _⟩ := row
  obtain ⟨_, _, ⟨_, _⟩, _, _, _, _, _, _, _, _, _⟩ := candidate
  simp only at h
  simp only [samePersistedEvent, Bool.and_eq_true, decide_eq_true_eq, Candidate.mk.injEq,
    Stream.mk.injEq, h, true_and]
  tauto

/-- The rows hold the candidates, in their order. -/
def Ledger.Holds (ledger : Ledger) (rows : List Row) (candidates : List Candidate) : Prop :=
  rows ⊆ ledger.rows ∧ rows.map Row.toCandidate = candidates

/-! ## Insertions -/

section

variable {database : Database} {ledger next : Ledger}

theorem insertRow_eq_ok {candidate : Candidate} (h : insertRow database ledger candidate = .ok next) :
    ∃ row : Row, row.toCandidate = candidate ∧ row.position = ledger.lastPosition + 1 ∧
      next = ⟨ledger.rows ++ [row], row.position⟩ ∧
      ∀ other ∈ ledger.rows, other.eventId ≠ row.eventId := by
  unfold insertRow at h
  replace h := (reject_bind_eq_ok_iff.mp h).2
  obtain ⟨hcollide, h⟩ := reject_bind_eq_ok_iff.mp h
  obtain rfl := pure_eq_ok_iff.mp h
  refine ⟨_, rfl, rfl, rfl, ?_⟩
  intro other hother heq
  have := List.any_eq_false.mp hcollide other hother
  simp [heq] at this

theorem streamRows_concat {rows : List Row} {row : Row} {n m : Nat} (stream : Stream) :
    (Ledger.mk (rows ++ [row]) n).streamRows stream =
      (Ledger.mk rows m).streamRows stream ++ if row.stream = stream then [row] else [] := by
  simp [Ledger.streamRows, List.filter_singleton]

theorem Ledger.Integral.insert {candidate : Candidate} (h : ledger.Integral)
    (hsequence : candidate.streamSequence = (ledger.streamRows candidate.stream).length + 1)
    (hread : candidate.Hydratable) (hinsert : insertRow database ledger candidate = .ok next) :
    next.Integral := by
  obtain ⟨row, rfl, hposition, rfl, hfresh⟩ := insertRow_eq_ok hinsert
  constructor
  case positions =>
    refine List.pairwise_append.mpr ⟨h.positions, List.pairwise_singleton _ _, ?_⟩
    intro other hother last hlast
    obtain rfl := List.mem_singleton.mp hlast
    have := h.lastPosition other hother
    omega
  case lastPosition =>
    intro other hother
    rcases List.mem_append.mp hother with hother | hother
    · have := h.lastPosition other hother
      simp only
      omega
    · rw [List.mem_singleton.mp hother]
  case eventIds =>
    rw [List.map_append, List.nodup_append]
    refine ⟨h.eventIds, List.nodup_singleton _, ?_⟩
    simp only [List.mem_map, List.map_cons, List.map_nil, List.mem_singleton]
    rintro _ ⟨other, hother, rfl⟩ _ rfl
    exact hfresh other hother
  case sequences =>
    intro stream
    rw [streamRows_concat (m := ledger.lastPosition)]
    split
    next hstream =>
      subst hstream
      rw [List.map_append, List.length_append, List.length_singleton, List.range'_concat,
        h.sequences]
      simp [hsequence, Nat.add_comm]
    next => simpa using h.sequences stream
  case hydratable =>
    intro other hother
    rcases List.mem_append.mp hother with hother | hother
    · exact h.hydratable other hother
    · exact List.mem_singleton.mp hother ▸ hread

/-- Inserting candidates that continue their stream appends one row for each. -/
theorem Ledger.Integral.insertAll {stream : Stream} {candidates : List Candidate}
    (h : ledger.Integral) (hstreams : ∀ candidate ∈ candidates, candidate.stream = stream)
    (hsequences : candidates.map (·.streamSequence) =
      List.range' ((ledger.streamRows stream).length + 1) candidates.length)
    (hread : ∀ candidate ∈ candidates, candidate.Hydratable)
    (hrun : run (insertRow database) ledger candidates = .ok next) :
    next.Integral ∧ ∃ rows, next.rows = ledger.rows ++ rows ∧
      rows.map Row.toCandidate = candidates := by
  induction candidates generalizing ledger with
  | nil =>
      obtain rfl := Except.ok.inj hrun
      exact ⟨h, [], by simp⟩
  | cons candidate rest ih =>
      obtain ⟨mid, hinsert, hrun⟩ := bind_eq_ok_iff.mp (run_cons ▸ hrun)
      rw [List.map_cons, List.length_cons, List.range'_succ, List.cons.injEq] at hsequences
      have hstream := hstreams candidate List.mem_cons_self
      have hmid := h.insert (hstream ▸ hsequences.1) (hread candidate List.mem_cons_self) hinsert
      obtain ⟨row, hrow, -, rfl, -⟩ := insertRow_eq_ok hinsert
      have hlength : ((Ledger.mk (ledger.rows ++ [row]) row.position).streamRows stream).length =
          (ledger.streamRows stream).length + 1 := by
        rw [streamRows_concat (m := ledger.lastPosition),
          if_pos (by rw [← hstream, ← hrow])]
        simp
      obtain ⟨hnext, rows, hrows, hmap⟩ := ih hmid
        (fun c hc => hstreams c (List.mem_cons_of_mem _ hc)) (by rw [hlength]; exact hsequences.2)
        (fun c hc => hread c (List.mem_cons_of_mem _ hc)) hrun
      exact ⟨hnext, row :: rows, by simp [hrows], by simp [hrow, hmap]⟩

end

/-! ## Outcomes of a request -/

/-- What a request does to the table: it replays the rows it finds there, or it
adds the rows of its candidates after the version it expects. -/
inductive RequestOutcome (ledger : Ledger) (prepared : PreparedAppend) :
    AppendResult → Ledger → Prop
  | replayed {rows : List Row} (holds : ledger.Holds rows prepared.candidates) :
      RequestOutcome ledger prepared ⟨rows, ledger.selectVersion prepared.stream, true⟩ ledger
  | added {rows : List Row} {next : Ledger}
      (version : ledger.selectVersion prepared.stream = prepared.expectedVersion)
      (sequences : rows.map (·.streamSequence) =
        List.range' (prepared.expectedVersion + 1) prepared.candidates.length)
      (holds : rows.map Row.toCandidate = prepared.candidates)
      (appended : next.rows = ledger.rows ++ rows) :
      RequestOutcome ledger prepared
        ⟨rows, prepared.expectedVersion + prepared.candidates.length, false⟩ next

theorem reduceOption_map_some {α : Type} (list : List α) : (list.map some).reduceOption = list := by
  induction list with
  | nil => rfl
  | cons a rest ih => rw [List.map_cons, List.reduceOption_cons_of_some, ih]

section

variable {database : Database} {ledger next : Ledger} {prepared : PreparedAppend}
  {result : AppendResult} {rows : List Row}

/-- Looking up the candidates that rows hold finds these rows. -/
theorem Ledger.Integral.map_selectById (h : ledger.Integral)
    (hrows : ledger.Holds rows prepared.candidates) :
    prepared.candidates.map (fun candidate => ledger.selectById candidate.eventId) =
      rows.map some := by
  rw [← hrows.2, List.map_map]
  apply List.map_congr_left
  intro row hrow
  exact h.selectById_eq_some_iff.mpr ⟨hrows.1 hrow, rfl⟩

theorem appendRows_of_holds (h : ledger.Integral) (hne : prepared.candidates ≠ [])
    (hrows : ledger.Holds rows prepared.candidates) :
    appendRows database ledger prepared =
      .ok (⟨rows, ledger.selectVersion prepared.stream, true⟩, ledger) := by
  have hlookup := h.map_selectById hrows
  obtain ⟨row, rest, rfl⟩ : ∃ row rest, rows = row :: rest := by
    cases rows with
    | nil => exact absurd hrows.2.symm hne
    | cons row rest => exact ⟨row, rest, rfl⟩
  have hsame : (((row :: rest).map some).zip prepared.candidates).all (fun p =>
      p.1.any fun row => samePersistedEvent row p.2) = true := by
    rw [← hrows.2, List.zip_map', List.all_map, List.all_eq_true]
    intro row _
    exact (samePersistedEvent_iff rfl).mpr rfl
  simp only [appendRows, hlookup]
  rw [if_pos (by simp), if_pos hsame, reduceOption_map_some]

/-- Rows found for all candidates, each the same as its candidate, hold them. -/
theorem holds_of_lookup (h : ledger.Integral) {candidates : List Candidate}
    (hsame : ((candidates.map fun candidate => ledger.selectById candidate.eventId).zip
      candidates).all (fun p => p.1.any fun row => samePersistedEvent row p.2) = true) :
    ledger.Holds
      (candidates.map fun candidate => ledger.selectById candidate.eventId).reduceOption
      candidates := by
  induction candidates with
  | nil => exact ⟨List.nil_subset _, rfl⟩
  | cons candidate rest ih =>
      simp only [List.map_cons, List.zip_cons_cons, List.all_cons, Bool.and_eq_true] at hsame
      obtain ⟨hfirst, hrest⟩ := hsame
      obtain ⟨row, hfound, hrow⟩ := (Option.any_eq_true _ _).mp hfirst
      obtain ⟨hmem, hid⟩ := h.selectById_eq_some_iff.mp hfound
      obtain ⟨hsubset, hmap⟩ := ih hrest
      rw [List.map_cons, hfound, List.reduceOption_cons_of_some]
      refine ⟨List.cons_subset.mpr ⟨hmem, hsubset⟩, ?_⟩
      rw [List.map_cons, hmap, (samePersistedEvent_iff hid).mp hrow]

/-- A request that succeeds replays or adds, and the table stays intact. -/
theorem appendRows_outcome (h : ledger.Integral) (hprepared : prepared.Numbered)
    (happend : appendRows database ledger prepared = .ok (result, next)) :
    RequestOutcome ledger prepared result next ∧ next.Integral ∧
      next.Holds result.rows prepared.candidates ∧ ledger.rows <+: next.rows := by
  unfold appendRows at happend
  dsimp only at happend
  split at happend
  next =>
    split at happend
    next hsame =>
      obtain ⟨rfl, rfl⟩ := Prod.mk.inj (Except.ok.inj happend)
      have hholds := holds_of_lookup h hsame
      exact ⟨.replayed hholds, h, hholds, List.prefix_rfl⟩
    next => cases happend
  next =>
    obtain ⟨hversion, happend⟩ := reject_bind_eq_ok_iff.mp happend
    obtain ⟨last, hrun, happend⟩ := bind_eq_ok_iff.mp happend
    obtain ⟨rfl, rfl⟩ := Prod.mk.inj (pure_eq_ok_iff.mp happend)
    simp only [ne_eq, decide_not, Bool.not_eq_false', decide_eq_true_eq] at hversion
    have hsequences := hprepared.sequences
    rw [← hversion, h.selectVersion_eq] at hsequences
    obtain ⟨hlast, rows, hrows, hmap⟩ := h.insertAll hprepared.streams hsequences
      hprepared.hydratable hrun
    have hholds : last.Holds rows prepared.candidates :=
      ⟨hrows ▸ List.subset_append_right _ _, hmap⟩
    have hfound : (prepared.candidates.map fun candidate =>
        last.selectById candidate.eventId).reduceOption = rows := by
      rw [hlast.map_selectById hholds, reduceOption_map_some]
    rw [hfound]
    refine ⟨.added hversion ?_ hmap hrows, hlast, hholds, hrows ▸ List.prefix_append _ _⟩
    rw [← hprepared.sequences, ← hmap, List.map_map]
    rfl

end

/-! ## Transactions over several requests -/

/-- The requests of a transaction, each with its result, settled one after another. -/
inductive Settled : Ledger → List (PreparedAppend × AppendResult) → Ledger → Prop
  | done (ledger : Ledger) : Settled ledger [] ledger
  | next {ledger mid last : Ledger} {prepared : PreparedAppend} {result : AppendResult}
      {rest : List (PreparedAppend × AppendResult)}
      (outcome : RequestOutcome ledger prepared result mid) (others : Settled mid rest last) :
      Settled ledger ((prepared, result) :: rest) last

/-- The table holds the rows of each result as the candidates of its request. -/
def Ledger.HoldsAll (ledger : Ledger) (settled : List (PreparedAppend × AppendResult)) : Prop :=
  ∀ p ∈ settled, p.1.candidates ≠ [] ∧ ledger.Holds p.2.rows p.1.candidates

theorem Ledger.HoldsAll.mono {ledger later : Ledger}
    {settled : List (PreparedAppend × AppendResult)} (h : ledger.HoldsAll settled)
    (hpast : ledger.rows <+: later.rows) : later.HoldsAll settled :=
  fun p hp => ⟨(h p hp).1, List.Subset.trans (h p hp).2.1 hpast.subset, (h p hp).2.2⟩

section

variable {database : Database} {ledger next : Ledger}

theorem appendBatchRows_outcome {prepared : List PreparedAppend} {results : List AppendResult}
    (h : ledger.Integral) (hprepared : ∀ p ∈ prepared, p.Numbered)
    (happend : appendBatchRows database ledger prepared = .ok (results, next)) :
    ∃ settled, settled.map Prod.fst = prepared ∧ settled.map Prod.snd = results ∧
      Settled ledger settled next ∧ next.Integral ∧ next.HoldsAll settled ∧
      ledger.rows <+: next.rows := by
  induction prepared generalizing ledger results with
  | nil =>
      obtain ⟨rfl, rfl⟩ := Prod.mk.inj (Except.ok.inj happend)
      exact ⟨[], rfl, rfl, .done _, h, by simp [Ledger.HoldsAll], List.prefix_rfl⟩
  | cons request rest ih =>
      obtain ⟨⟨result, mid⟩, hfirst, happend⟩ := bind_eq_ok_iff.mp happend
      obtain ⟨⟨others, last⟩, hrest, happend⟩ := bind_eq_ok_iff.mp happend
      obtain ⟨rfl, rfl⟩ := Prod.mk.inj (pure_eq_ok_iff.mp happend)
      have hrequest := hprepared request List.mem_cons_self
      obtain ⟨houtcome, hmid, hholds, hpast⟩ := appendRows_outcome h hrequest hfirst
      obtain ⟨settled, hrequests, hresults, hsettled, hlast, hall, hfuture⟩ :=
        ih hmid (fun p hp => hprepared p (List.mem_cons_of_mem _ hp)) hrest
      refine ⟨(request, result) :: settled, by rw [List.map_cons, hrequests],
        by rw [List.map_cons, hresults], .next houtcome hsettled, hlast, ?_, hpast.trans hfuture⟩
      intro p hp
      rcases List.mem_cons.mp hp with rfl | hp
      · exact ⟨hrequest.nonempty, List.Subset.trans hholds.1 hfuture.subset, hholds.2⟩
      · exact hall p hp

/-- Requests whose rows are all there are replayed with these rows. -/
theorem appendBatchRows_of_holdsAll (database : Database) {settled : List (PreparedAppend × AppendResult)}
    (h : ledger.Integral) (hall : ledger.HoldsAll settled) :
    appendBatchRows database ledger (settled.map Prod.fst) =
      .ok (settled.map fun p => ⟨p.2.rows, ledger.selectVersion p.1.stream, true⟩, ledger) := by
  induction settled with
  | nil => rfl
  | cons p rest ih =>
      obtain ⟨hne, hholds⟩ := hall p List.mem_cons_self
      rw [List.map_cons, appendBatchRows, appendRows_of_holds h hne hholds]
      have hrest := ih fun q hq => hall q (List.mem_cons_of_mem _ hq)
      simp only [bind, Except.bind, hrest]
      rfl

theorem mapM_eq_ok_of_forall {α β ε : Type} {f : α → Except ε β} {list : List α}
    (h : ∀ a ∈ list, ∃ b, f a = .ok b) : ∃ out, list.mapM f = .ok out := by
  induction list with
  | nil => exact ⟨[], rfl⟩
  | cons a rest ih =>
      obtain ⟨b, hb⟩ := h a List.mem_cons_self
      obtain ⟨others, hothers⟩ := ih fun c hc => h c (List.mem_cons_of_mem _ hc)
      rw [List.mapM_cons, hb]
      exact ⟨b :: others, by simp only [bind, Except.bind, hothers]; rfl⟩

theorem recordResult_of_subset {result : AppendResult} (h : ledger.Integral)
    (hrows : result.rows ⊆ ledger.rows) : ∃ receipt, recordResult result = .ok receipt := by
  have hread : ∀ row ∈ result.rows, ∃ event, hydrate row = .ok event :=
    fun row hrow => hydrate_of_hydratable (h.hydratable row (hrows hrow))
  obtain ⟨events, hevents⟩ := mapM_eq_ok_of_forall hread
  exact ⟨_, by rw [recordResult, hevents]; rfl⟩

/-- Results with the same rows are recorded as receipts with the same events. -/
theorem recordResult_again {result : AppendResult} {receipt : AppendReceipt} (version : Nat)
    (h : recordResult result = .ok receipt) :
    recordResult ⟨result.rows, version, true⟩ = .ok ⟨version, true, receipt.events⟩ := by
  obtain ⟨events, hevents, h⟩ := bind_eq_ok_iff.mp h
  obtain rfl := pure_eq_ok_iff.mp h
  rw [recordResult, hevents]
  rfl

theorem mapM_recordResult_again {settled : List (PreparedAppend × AppendResult)}
    {receipts : List AppendReceipt} (version : PreparedAppend → Nat)
    (h : (settled.map Prod.snd).mapM recordResult = .ok receipts) :
    ∃ again, (settled.map fun p => ⟨p.2.rows, version p.1, true⟩).mapM recordResult = .ok again ∧
      again.map (·.events) = receipts.map (·.events) ∧ ∀ receipt ∈ again, receipt.idempotent = true := by
  induction settled generalizing receipts with
  | nil =>
      obtain rfl := Except.ok.inj h
      exact ⟨[], rfl, rfl, by simp⟩
  | cons p rest ih =>
      rw [List.map_cons, List.mapM_cons] at h
      obtain ⟨receipt, hfirst, h⟩ := bind_eq_ok_iff.mp h
      obtain ⟨others, hothers, h⟩ := bind_eq_ok_iff.mp h
      obtain rfl := pure_eq_ok_iff.mp h
      obtain ⟨again, hagain, hevents, hidempotent⟩ := ih hothers
      refine ⟨⟨version p.1, true, receipt.events⟩ :: again, ?_, by simp [hevents], ?_⟩
      · rw [List.map_cons, List.mapM_cons, recordResult_again (version p.1) hfirst]
        simp only [bind, Except.bind, hagain]
        rfl
      · intro r hr
        rcases List.mem_cons.mp hr with rfl | hr
        · rfl
        · exact hidempotent r hr

end

/-! ## Runs of calls -/

/-- A value that a program can pass. -/
abbrev JsValue := {value : Json // value.held = true}

inductive LedgerCall where
  | append (request : JsValue)
  | appendBatch (requests : List JsValue)

namespace LedgerCall

def requests : LedgerCall → List Json
  | .append request => [request.val]
  | .appendBatch requests => requests.map Subtype.val

/-- The checks of a call outside its transaction. -/
def prepare (registry : EventRegistry) (call : LedgerCall) :
    Except LedgerError (List PreparedAppend) :=
  if call.requests = [] then .error (.invalidEvent "append batch must be a non-empty array")
  else call.requests.mapM (prepareAppend registry)

/-- The receipts a call returns or the error it throws, and the table after it. -/
def perform (database : Database) (registry : EventRegistry) (ledger : Ledger) :
    LedgerCall → Except LedgerError (List AppendReceipt) × Ledger
  | .append request =>
      let result := Hseos.append database registry ledger request.val
      (result.1.map fun receipt => [receipt], result.2)
  | .appendBatch requests => Hseos.appendBatch database registry ledger (requests.map Subtype.val)

end LedgerCall

/-- The table after a run of calls, each of which may have failed. -/
def ledgerAfter (database : Database) (registry : EventRegistry) (calls : List LedgerCall) : Ledger :=
  calls.foldl (fun ledger call => (call.perform database registry ledger).2) Ledger.empty

/-- What a call does: it throws and leaves the table alone, or each of its
requests in turn replays or adds its rows. -/
def CallOutcome (database : Database) (registry : EventRegistry) (ledger : Ledger)
    (call : LedgerCall) : Prop :=
  (∃ error, call.perform database registry ledger = (.error error, ledger)) ∨
    ∃ settled receipts next, call.perform database registry ledger = (.ok receipts, next) ∧
      call.requests.mapM (prepareAppend registry) = .ok (settled.map Prod.fst) ∧
      (settled.map Prod.snd).mapM recordResult = .ok receipts ∧ Settled ledger settled next

section

variable (database : Database) (registry : EventRegistry) {ledger : Ledger}

/-- Both operations are one transaction over their prepared requests. -/
theorem perform_eq (ledger : Ledger) (call : LedgerCall) : call.perform database registry ledger =
    match call.prepare registry with
    | .error error => (.error error, ledger)
    | .ok prepared =>
        transaction ledger (appendBatchRows database ledger prepared) (·.mapM recordResult) := by
  cases call with
  | append request =>
      rw [LedgerCall.perform, LedgerCall.prepare, LedgerCall.requests,
        if_neg (List.cons_ne_nil _ _), List.mapM_cons, List.mapM_nil, append]
      cases prepareAppend registry request.val with
      | error error => rfl
      | ok prepared =>
          simp only [bind, Except.bind, pure, Except.pure, transaction, appendBatchRows]
          cases appendRows database ledger prepared with
          | error error => rfl
          | ok out =>
              simp only [List.mapM_cons, List.mapM_nil, bind, Except.bind, pure, Except.pure]
              cases recordResult out.1 <;> rfl
  | appendBatch requests =>
      rw [LedgerCall.perform, LedgerCall.prepare, LedgerCall.requests, appendBatch]
      split <;> rfl

theorem LedgerCall.prepare_eq_ok {registry : EventRegistry} {call : LedgerCall} {prepared : List PreparedAppend}
    (h : call.prepare registry = .ok prepared) :
    call.requests.mapM (prepareAppend registry) = .ok prepared := by
  unfold LedgerCall.prepare at h
  split at h
  next => cases h
  next => exact h

theorem LedgerCall.held_requests (call : LedgerCall) : ∀ request ∈ call.requests, request.held = true := by
  cases call with
  | append request => simpa [LedgerCall.requests] using request.2
  | appendBatch requests =>
      intro request hrequest
      obtain ⟨value, -, rfl⟩ := List.mem_map.mp hrequest
      exact value.2

/-- One call: what it does, and that it keeps the table intact and its rows. -/
theorem perform_outcome (h : ledger.Integral) (call : LedgerCall) :
    ∃ outcome next, call.perform database registry ledger = (outcome, next) ∧ next.Integral ∧
      ledger.rows <+: next.rows ∧
      ((∃ error, outcome = .error error ∧ next = ledger) ∨
        ∃ settled receipts, outcome = .ok receipts ∧
          call.prepare registry = .ok (settled.map Prod.fst) ∧
          (settled.map Prod.snd).mapM recordResult = .ok receipts ∧
          Settled ledger settled next ∧ next.HoldsAll settled) := by
  have hperform := perform_eq database registry ledger call
  cases hprepare : call.prepare registry with
  | error error =>
      rw [hprepare] at hperform
      exact ⟨_, _, hperform, h, List.prefix_rfl, .inl ⟨error, rfl, rfl⟩⟩
  | ok prepared =>
      rw [hprepare] at hperform
      cases hrows : appendBatchRows database ledger prepared with
      | error error =>
          simp only [hrows, transaction] at hperform
          exact ⟨_, _, hperform, h, List.prefix_rfl, .inl ⟨error, rfl, rfl⟩⟩
      | ok out =>
          obtain ⟨results, next⟩ := out
          simp only [hrows, transaction] at hperform
          have hnumbered : ∀ p ∈ prepared, p.Numbered := by
            intro p hp
            obtain ⟨request, hrequest, hprepared⟩ :=
              mem_of_mapM_eq_ok (LedgerCall.prepare_eq_ok hprepare) p hp
            exact prepareAppend_numbered (call.held_requests request hrequest) hprepared
          obtain ⟨settled, rfl, rfl, hsettled, hnext, hall, hpast⟩ :=
            appendBatchRows_outcome h hnumbered hrows
          have hrecorded : ∀ result ∈ settled.map Prod.snd,
              ∃ receipt, recordResult result = .ok receipt := by
            intro result hresult
            obtain ⟨p, hp, rfl⟩ := List.mem_map.mp hresult
            exact recordResult_of_subset hnext (hall p hp).2.1
          obtain ⟨receipts, hreceipts⟩ := mapM_eq_ok_of_forall hrecorded
          exact ⟨_, next, hperform, hnext, hpast,
            .inr ⟨settled, receipts, hreceipts, rfl, hreceipts, hsettled, hall⟩⟩

theorem callOutcome_of_integral (h : ledger.Integral) (call : LedgerCall) :
    CallOutcome database registry ledger call := by
  obtain ⟨_, next, hperform, -, -, ⟨error, rfl, rfl⟩ |
    ⟨settled, receipts, rfl, hprepare, hreceipts, hsettled, -⟩⟩ :=
      perform_outcome database registry h call
  · exact .inl ⟨error, hperform⟩
  · exact .inr ⟨settled, receipts, next, hperform, LedgerCall.prepare_eq_ok hprepare, hreceipts,
      hsettled⟩

theorem perform_integral (h : ledger.Integral) (call : LedgerCall) :
    (call.perform database registry ledger).2.Integral := by
  obtain ⟨_, next, hperform, hnext, -⟩ :=
    perform_outcome database registry h call
  rw [hperform]
  exact hnext

/-- A later table extends an earlier one, and both are intact. -/
theorem foldl_perform_integral (h : ledger.Integral) (calls : List LedgerCall) :
    let later := calls.foldl (fun ledger call => (call.perform database registry ledger).2) ledger
    later.Integral ∧ ledger.rows <+: later.rows := by
  induction calls generalizing ledger with
  | nil => exact ⟨h, List.prefix_rfl⟩
  | cons call rest ih =>
      obtain ⟨_, next, hperform, hnext, hpast, -⟩ :=
        perform_outcome database registry h call
      rw [List.foldl_cons, hperform]
      exact ⟨(ih hnext).1, hpast.trans (ih hnext).2⟩

theorem ledgerAfter_integral (calls : List LedgerCall) :
    (ledgerAfter database registry calls).Integral :=
  (foldl_perform_integral database registry Ledger.Integral.empty calls).1

/-- A call that succeeded is replayed on every later table. -/
theorem perform_again {later : Ledger} {call : LedgerCall} {receipts : List AppendReceipt}
    (h : ledger.Integral) (hcall : (call.perform database registry ledger).1 = .ok receipts)
    (hlater : later.Integral)
    (hpast : (call.perform database registry ledger).2.rows <+: later.rows) :
    ∃ again, call.perform database registry later = (.ok again, later) ∧
      again.map (·.events) = receipts.map (·.events) ∧
      ∀ receipt ∈ again, receipt.idempotent = true := by
  obtain ⟨_, next, hperform, -, -, houtcome⟩ :=
    perform_outcome database registry h call
  rw [hperform] at hcall hpast
  rcases houtcome with ⟨error, rfl, -⟩ | ⟨settled, _, rfl, hprepare, hreceipts, -, hall⟩
  · cases hcall
  obtain rfl := Except.ok.inj hcall
  have hreplay := appendBatchRows_of_holdsAll database hlater (hall.mono hpast)
  obtain ⟨again, hagain, hevents, hidempotent⟩ :=
    mapM_recordResult_again (fun prepared => later.selectVersion prepared.stream) hreceipts
  refine ⟨again, ?_, hevents, hidempotent⟩
  rw [perform_eq, hprepare]
  simp only [hreplay, transaction, hagain]

end

/-- After any calls, every stream is numbered from one on in the order of its
positions, the next call throws without effect or settles its requests one by one,
and a call that succeeded before is replayed with the events it returned. -/
theorem ledger_stream_integrity (database : Database) (registry : EventRegistry)
    (calls : List LedgerCall) :
    let ledger := ledgerAfter database registry calls
    (∀ stream, (ledger.streamRows stream).map (·.streamSequence) =
        List.range' 1 (ledger.streamRows stream).length ∧
      (ledger.streamRows stream).Pairwise (·.position < ·.position)) ∧
    (∀ call, CallOutcome database registry ledger call) ∧
    ∀ past call future receipts, calls = past ++ call :: future →
      (call.perform database registry (ledgerAfter database registry past)).1 = .ok receipts →
      ∃ again, call.perform database registry ledger = (.ok again, ledger) ∧
        again.map (·.events) = receipts.map (·.events) ∧
        ∀ receipt ∈ again, receipt.idempotent = true := by
  have hledger := ledgerAfter_integral database registry calls
  refine ⟨?_, callOutcome_of_integral database registry hledger, ?_⟩
  · intro stream
    exact ⟨hledger.sequences stream, hledger.positions.sublist List.filter_sublist⟩
  · rintro past call future receipts rfl hcall
    have hpast := ledgerAfter_integral database registry past
    have hnext := perform_integral database registry hpast call
    have hsplit : ledgerAfter database registry (past ++ call :: future) =
        future.foldl (fun ledger call => (call.perform database registry ledger).2)
          (call.perform database registry (ledgerAfter database registry past)).2 := by
      rw [ledgerAfter, List.foldl_append, List.foldl_cons]
      rfl
    rw [hsplit]
    have hlater := foldl_perform_integral database registry hnext future
    exact perform_again database registry hpast hcall hlater.1 hlater.2

/-- A call that throws without effect, replays all its rows or adds all its events. -/
def WholeCallOutcome (database : Database) (registry : EventRegistry) (ledger : Ledger)
    (call : LedgerCall) : Prop :=
  (∃ error, call.perform database registry ledger = (.error error, ledger)) ∨
    (∃ receipts, call.perform database registry ledger = (.ok receipts, ledger) ∧
      ∀ receipt ∈ receipts, receipt.idempotent = true) ∨
    ∃ prepared rows receipts next, call.perform database registry ledger = (.ok receipts, next) ∧
      call.requests.mapM (prepareAppend registry) = .ok prepared ∧
      next.rows = ledger.rows ++ rows ∧
      rows.map Row.toCandidate = prepared.flatMap PreparedAppend.candidates

namespace LedgerSample

def database : Database := ⟨fun _ _ => true, fun _ => "2026-01-01T00:00:00.000Z"⟩

def event (eventId : String) : Json :=
  .obj [("event_id", .str eventId), ("event_type", .str "memory.noted"),
    ("occurred_at", .str "2026-01-01T00:00:00.000Z"), ("correlation_id", .str "memory-1"),
    ("causation_id", .str "memory-1"), ("operation_id", .null), ("schema_version", .ofNat 1),
    ("actor", .obj []), ("payload", .obj [])]

def request (expectedVersion : Nat) (eventId : String) : Json :=
  .obj [("aggregate_type", .str "memory"), ("aggregate_id", .str "memory-1"),
    ("expected_version", .ofNat expectedVersion), ("events", .arr [event eventId])]

def first : JsValue := ⟨request 0 "00000000-0000-4000-8000-000000000001", by decide +kernel⟩

def second : JsValue := ⟨request 1 "00000000-0000-4000-8000-000000000002", by decide +kernel⟩

/-- The table after the first request. -/
def ledger : Ledger := ledgerAfter database createExecutionEventRegistry [.append first]

/-- A batch that retries the first request and makes the second one. -/
def batch : LedgerCall := .appendBatch [first, second]

end LedgerSample

/-- A batch of a retried and a new request adds only the events of the new one. -/
theorem mixedBatch_not_whole : ¬ ∀ database registry calls call,
    WholeCallOutcome database registry (ledgerAfter database registry calls) call := by
  intro hall
  have hbatch := hall LedgerSample.database createExecutionEventRegistry
    [.append LedgerSample.first] LedgerSample.batch
  have hreceipts : ((LedgerSample.batch.perform LedgerSample.database createExecutionEventRegistry
      LedgerSample.ledger).1.toOption.getD []).map (·.idempotent) = [true, false] := by
    decide +kernel
  have hrows : (LedgerSample.batch.perform LedgerSample.database createExecutionEventRegistry
      LedgerSample.ledger).2.rows.length = 2 := by
    decide +kernel
  have hcandidates : (((LedgerSample.batch.requests.mapM
      (prepareAppend createExecutionEventRegistry)).toOption.getD []).flatMap
        PreparedAppend.candidates).length = 2 := by
    decide +kernel
  have hbefore : LedgerSample.ledger.rows.length = 1 := by decide +kernel
  rcases hbatch with ⟨error, hperform⟩ | ⟨receipts, hperform, hidempotent⟩ |
    ⟨prepared, rows, receipts, next, hperform, hprepare, hnext, hadded⟩
  · rw [LedgerSample.ledger, hperform] at hreceipts
    simp [Except.toOption] at hreceipts
  · rw [LedgerSample.ledger, hperform] at hreceipts
    have hfalse : false ∈ receipts.map (·.idempotent) := by
      simp only [Except.toOption, Option.getD_some] at hreceipts
      simp [hreceipts]
    obtain ⟨receipt, hreceipt, heq⟩ := List.mem_map.mp hfalse
    simp [hidempotent receipt hreceipt] at heq
  · rw [LedgerSample.ledger, hperform] at hrows
    rw [hprepare] at hcandidates
    simp only [Except.toOption, Option.getD_some] at hcandidates
    have hcount : rows.length = 2 := by
      rw [← hcandidates, ← hadded, List.length_map]
    have hlength := congrArg List.length hnext
    rw [List.length_append, hcount, hrows] at hlength
    rw [LedgerSample.ledger] at hbefore
    omega

end Hseos
