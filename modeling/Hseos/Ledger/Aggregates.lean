import Hseos.Foundation.Paging
import Hseos.Ledger.Integrity

/-! # Events of several aggregates

`readGlobal` and `readAggregates` of the execution event ledger. A page of `readAggregates` is
merged from one query for each aggregate of the request, and the position of its last event is
the cursor of the next page.
-/

namespace Hseos

/-! ## The queries -/

namespace Ledger

/-- The rows after a position that a condition selects, `ORDER BY position`. -/
def rowsAfter (ledger : Ledger) (select : Row → Bool) (afterPosition : ℕ) : List Row :=
  (ledger.rows.filter fun row => select row && afterPosition < row.position).insertionSort
    fun a b => a.position ≤ b.position

end Ledger

/-- The cursor and the limit of a request; a field that is absent has its default. -/
def requireCursor (options : Json) : Except LedgerError (ℕ × ℕ) := do
  let after := (((options.field? "after_position").getD (.ofNat 0)).natural?)
  let limit := (((options.field? "limit").getD (.ofNat 100)).natural?)
  match after, limit with
  | some after, some limit => do
      reject (limit < 1 || 1000 < limit)
        (.invalidEvent "Invalid global stream cursor or limit")
      return (after, limit)
  | _, _ => .error (.invalidEvent "Invalid global stream cursor or limit")

def readGlobal (ledger : Ledger) (options : Json) : Except LedgerError (List StoredEvent) := do
  let (after, limit) ← requireCursor options
  match options.field? "aggregate_type" with
  | some value => do
      let aggregateType ← requireString (some value) "aggregate_type"
      ((ledger.rowsAfter (fun row => row.stream.aggregateType = aggregateType) after).take
        limit).mapM hydrate
  | none => ((ledger.rowsAfter (fun _ => true) after).take limit).mapM hydrate

/-- The stream that an item of `aggregates` names. -/
def requireAggregate (item : Json) : Except LedgerError Stream := do
  reject (item = .null) .typeError
  let aggregateType ← requireString (item.field? "aggregate_type") "aggregate_type"
  let aggregateId ← requireString (item.field? "aggregate_id") "aggregate_id"
  return ⟨aggregateType, aggregateId⟩

/-- What a request asks for. -/
structure AggregateQuery where
  afterPosition : ℕ
  limit : ℕ
  aggregates : List Stream
  deriving DecidableEq

/-- The checks of a request. -/
def prepareAggregateQuery (options : Json) : Except LedgerError AggregateQuery := do
  let (afterPosition, limit) ← requireCursor options
  match options.field? "aggregates" with
  | some (.arr items) => do
      let aggregates ← items.mapM requireAggregate
      return { afterPosition, limit, aggregates }
  | _ => .error (.invalidEvent "aggregates must be an array")

/-- The rows of a page: the rows of each aggregate, sorted together and cut. -/
def aggregateRows (ledger : Ledger) (query : AggregateQuery) : List Row :=
  ((query.aggregates.flatMap fun stream =>
    (ledger.rowsAfter (fun row => row.stream = stream) query.afterPosition).take
      query.limit).insertionSort fun a b => a.position ≤ b.position).take query.limit

def readAggregatePage (ledger : Ledger) (query : AggregateQuery) :
    Except LedgerError (List StoredEvent) :=
  (aggregateRows ledger query).mapM hydrate

def readAggregates (ledger : Ledger) (options : Json) : Except LedgerError (List StoredEvent) := do
  let query ← prepareAggregateQuery options
  readAggregatePage ledger query

/-- Reading page after page, until one is empty. -/
def readAggregatePages (ledger : Ledger) : ℕ → AggregateQuery →
    Except LedgerError (List StoredEvent)
  | 0, _ => .ok []
  | fuel + 1, query => do
      let events ← readAggregatePage ledger query
      match events.getLast? with
      | none => return []
      | some last => do
          let later ← readAggregatePages ledger fuel { query with afterPosition := last.position }
          return events ++ later

/-! ## Exact pages -/

namespace Ledger

/-- The rows that a global reading gives after the cursor, restricted to the aggregates. -/
def requestedRows (ledger : Ledger) (query : AggregateQuery) : List Row :=
  (ledger.rowsAfter (fun _ => true) query.afterPosition).filter fun row =>
    row.stream ∈ query.aggregates

/-- The page of a request is cut from the requested rows, and the pages from its cursor on
together have each of them once. -/
def PagesExact (ledger : Ledger) (options : Json) (query : AggregateQuery) : Prop :=
  readAggregates ledger options = ((ledger.requestedRows query).take query.limit).mapM hydrate ∧
    ∀ fuel, ledger.rows.length < fuel →
      readAggregatePages ledger fuel query = (ledger.requestedRows query).mapM hydrate

/-- Every requested row that is not the last of a full page is of an aggregate that the request
has once. -/
def RequestedOnce (ledger : Ledger) (query : AggregateQuery) : Prop :=
  OnceWithinPages (fun row : Row => row.stream) query.aggregates query.limit (ledger.requestedRows query)

end Ledger

section

variable {ledger : Ledger} {query : AggregateQuery}

theorem rowsAfter_eq (h : ledger.Integral) (select : Row → Bool) (after : ℕ) :
    ledger.rowsAfter select after =
      ledger.rows.filter fun row => select row && after < row.position :=
  insertionSort_of_increasing (h.positions.sublist List.filter_sublist)

theorem requestedRows_eq (h : ledger.Integral) : ledger.requestedRows query =
    listedAfter Row.position (fun row => row.stream) ledger.rows query.aggregates query.afterPosition := by
  rw [Ledger.requestedRows, rowsAfter_eq h, List.filter_filter, listedAfter]
  rfl

theorem aggregateRows_eq : aggregateRows ledger query =
    mergedPage Row.position (fun row => row.stream) ledger.rows query.aggregates query.limit
      query.afterPosition :=
  rfl

theorem position_of_hydrate {row : Row} {event : StoredEvent} (h : hydrate row = .ok event) :
    event.position = row.position := by
  unfold hydrate at h
  obtain ⟨_, -, h⟩ := bind_eq_ok_iff.mp h
  obtain ⟨_, -, h⟩ := bind_eq_ok_iff.mp h
  obtain ⟨_, -, h⟩ := bind_eq_ok_iff.mp h
  rw [pure_eq_ok_iff] at h
  rw [← h]

/-- The events of rows that can be read. -/
theorem mapM_hydrate_of_subset (h : ledger.Integral) {rows : List Row}
    (hrows : ∀ row ∈ rows, row ∈ ledger.rows) : ∃ events, rows.mapM hydrate = .ok events :=
  mapM_eq_ok_of_forall fun row hrow => hydrate_of_hydratable (h.hydratable row (hrows row hrow))

/-- The events of a page end with the event of its last row. -/
theorem getLast?_of_mapM_hydrate {rows : List Row} {events : List StoredEvent}
    (h : rows.mapM hydrate = .ok events) :
    events.getLast?.map (·.position) = rows.getLast?.map (·.position) := by
  have hpositions := map_eq_of_mapM_eq_ok (g := (·.position)) (k := (·.position)) h
    fun _ _ => position_of_hydrate
  rw [← List.getLast?_map, ← List.getLast?_map, hpositions]

/-- The pages of events are the pages of rows. -/
theorem readAggregatePages_eq (h : ledger.Integral) (fuel : ℕ) :
    readAggregatePages ledger fuel query =
      (readPages Row.position (mergedPage Row.position (fun row => row.stream) ledger.rows query.aggregates
        query.limit) fuel query.afterPosition).mapM hydrate := by
  induction fuel generalizing query with
  | zero => rfl
  | succ fuel ih =>
      obtain ⟨events, hevents⟩ := mapM_hydrate_of_subset h fun row (hrow : row ∈ aggregateRows
        ledger query) => mem_of_mem_mergedPage hrow
      have hlast := getLast?_of_mapM_hydrate hevents
      rw [readAggregatePages, readAggregatePage, readPages, ← aggregateRows_eq, hevents]
      cases hrow : (aggregateRows ledger query).getLast? with
      | none =>
          rw [hrow, Option.map_none, Option.map_eq_none_iff] at hlast
          simp only [bind, Except.bind, hlast]
          rfl
      | some row =>
          rw [hrow, Option.map_some, Option.map_eq_some_iff] at hlast
          obtain ⟨event, hevent, hposition⟩ := hlast
          simp only [bind, Except.bind, hevent, List.mapM_append, hevents, ih, hposition]

/-- Rows of the table are told apart by their events. -/
theorem rows_eq_of_mapM_hydrate (h : ledger.Integral) {rows others : List Row}
    (hrows : ∀ row ∈ rows, row ∈ ledger.rows) (hothers : ∀ row ∈ others, row ∈ ledger.rows)
    (heq : rows.mapM hydrate = others.mapM hydrate) : rows = others := by
  obtain ⟨events, hevents⟩ := mapM_hydrate_of_subset h hrows
  have hpositions := map_eq_of_mapM_eq_ok (g := (·.position)) (k := (·.position)) hevents
    fun _ _ => position_of_hydrate
  have hsame := map_eq_of_mapM_eq_ok (g := (·.position)) (k := (·.position))
    (heq.symm.trans hevents) fun _ _ => position_of_hydrate
  exact eq_of_map_key_eq h.positions hrows hothers (hpositions.symm.trans hsame)

theorem requireCursor_eq_ok {options : Json} {after limit : ℕ}
    (h : requireCursor options = .ok (after, limit)) : 1 ≤ limit ∧ limit ≤ 1000 := by
  unfold requireCursor at h
  simp only at h
  split at h
  · obtain ⟨hlimit, h⟩ := reject_bind_eq_ok_iff.mp h
    rw [pure_eq_ok_iff, Prod.mk.injEq] at h
    obtain ⟨rfl, rfl⟩ := h
    simp only [Bool.or_eq_false_iff, decide_eq_false_iff_not] at hlimit
    omega
  · cases h

theorem prepareAggregateQuery_eq_ok {options : Json}
    (h : prepareAggregateQuery options = .ok query) : 0 < query.limit := by
  unfold prepareAggregateQuery at h
  obtain ⟨⟨after, limit⟩, hcursor, h⟩ := bind_eq_ok_iff.mp h
  simp only at h
  split at h
  · obtain ⟨aggregates, -, h⟩ := bind_eq_ok_iff.mp h
    rw [pure_eq_ok_iff] at h
    subst h
    exact (requireCursor_eq_ok hcursor).1
  · cases h

theorem readAggregates_of_query {options : Json}
    (h : prepareAggregateQuery options = .ok query) :
    readAggregates ledger options = readAggregatePage ledger query := by
  rw [readAggregates, h]
  rfl

theorem pagesExact_iff {options : Json} (h : ledger.Integral)
    (hquery : prepareAggregateQuery options = .ok query) :
    ledger.PagesExact options query ↔ ledger.RequestedOnce query := by
  have hlimit := prepareAggregateQuery_eq_ok hquery
  have hread : ∀ fuel, ledger.rows.length < fuel → (readPages Row.position
      (mergedPage Row.position (fun row => row.stream) ledger.rows query.aggregates query.limit)
        fuel query.afterPosition = ledger.requestedRows query ↔ ledger.RequestedOnce query) := by
    intro fuel hfuel
    rw [Ledger.RequestedOnce, requestedRows_eq h]
    refine readPages_eq_iff h.positions hlimit (lt_of_le_of_lt ?_ hfuel)
    exact List.length_filter_le _ _
  constructor
  · rintro ⟨-, hpages⟩
    have hall := hpages _ (Nat.lt_succ_self _)
    rw [readAggregatePages_eq h] at hall
    refine (hread _ (Nat.lt_succ_self _)).mp (rows_eq_of_mapM_hydrate h ?_ ?_ hall)
    · exact fun row hrow => mem_of_mem_readPages hrow
    · rw [requestedRows_eq h]
      exact fun row hrow => List.mem_of_mem_filter hrow
  · intro honce
    refine ⟨?_, fun fuel hfuel => ?_⟩
    · rw [Ledger.RequestedOnce, requestedRows_eq h] at honce
      rw [readAggregates_of_query hquery, readAggregatePage, aggregateRows_eq, requestedRows_eq h,
        mergedPage_of_once h.positions hlimit honce]
    · rw [readAggregatePages_eq h, (hread fuel hfuel).mpr honce]

end

/-- The pages of an accepted request are exact, on the table of any run of calls, if and only if
every requested event that is not the last of a full page is of an aggregate that the request
has once. -/
theorem readAggregates_exact_iff (database : Database) (registry : EventRegistry)
    (calls : List LedgerCall) (options : Json) (query : AggregateQuery)
    (h : prepareAggregateQuery options = .ok query) :
    (ledgerAfter database registry calls).PagesExact options query ↔
      (ledgerAfter database registry calls).RequestedOnce query :=
  pagesExact_iff (ledgerAfter_integral database registry calls) h

namespace LedgerSample

def aggregate : Json := .obj [("aggregate_type", .str "memory"), ("aggregate_id", .str "memory-1")]

/-- A request that has one aggregate twice. -/
def twice : Json := .obj [("limit", .ofNat 2), ("aggregates", .arr [aggregate, aggregate])]

def query : AggregateQuery := ⟨0, 2, [⟨"memory", "memory-1"⟩, ⟨"memory", "memory-1"⟩]⟩

theorem prepareAggregateQuery_twice : prepareAggregateQuery twice = .ok query := by
  decide +kernel

end LedgerSample

theorem readAggregates_exact_iff_twice :
    prepareAggregateQuery LedgerSample.twice = .ok LedgerSample.query ∧
      (LedgerSample.ledger.PagesExact LedgerSample.twice LedgerSample.query ↔
        LedgerSample.ledger.RequestedOnce LedgerSample.query) :=
  ⟨LedgerSample.prepareAggregateQuery_twice,
    readAggregates_exact_iff LedgerSample.database createExecutionEventRegistry
      [.append LedgerSample.first] LedgerSample.twice LedgerSample.query
      LedgerSample.prepareAggregateQuery_twice⟩

/-- The only event of an aggregate is on one page twice. -/
theorem readAggregates_repeats : ¬ ∀ database registry calls options query,
    prepareAggregateQuery options = .ok query →
      (ledgerAfter database registry calls).PagesExact options query := by
  intro hall
  have hpage := (hall LedgerSample.database createExecutionEventRegistry
    [.append LedgerSample.first] _ _ LedgerSample.prepareAggregateQuery_twice).1
  have hpositions : ((readAggregates LedgerSample.ledger LedgerSample.twice).toOption.getD []).map
      (·.position) = [1, 1] ∧
        ((LedgerSample.ledger.requestedRows LedgerSample.query).take 2).length = 1 := by
    decide +kernel
  obtain ⟨events, hevents⟩ : ∃ events, readAggregates LedgerSample.ledger LedgerSample.twice =
      .ok events := by
    cases hread : readAggregates LedgerSample.ledger LedgerSample.twice with
    | ok events => exact ⟨events, rfl⟩
    | error error =>
        rw [hread] at hpositions
        cases hpositions.1
  have hlength := (forall₂_of_mapM_eq_ok (hpage.symm.trans hevents)).length_eq
  have htwo := congrArg List.length hpositions.1
  rw [hevents] at htwo
  simp only [Except.toOption, Option.getD_some, List.length_map] at htwo
  rw [htwo] at hlength
  exact absurd (hlength.symm.trans hpositions.2) (by decide)

end Hseos
