import Hseos.Coordination.GlobLanguage
import Hseos.Coordination.Service
import Hseos.Coordination.Sessions
import Hseos.Foundation.CodeUnits
import Hseos.Foundation.JsObject

/-! # Overlaps of sessions

What a session is told about the paths that other active sessions of its repository declared or
changed. The other session's literal paths go through a map, where a changed file takes the place
of the same file declared.
-/

namespace Hseos.Coordination

/-! ## The report -/

namespace MachineStore

/-- `listActive`: the sessions that have not ended and were heard of lately. -/
def listActive (s : MachineStore) (clock : Clock) (staleMs : Option Int) :
    Except StoreFailure (List Activity) :=
  let floor := staleMs.elim 0 fun stale => clock.now - stale
  ((s.activities.filter fun row => row.active && floor ≤ row.heartbeatMs).insertionSort
    fun a b => a.startedMs ≤ b.startedMs).mapM toActivity

end MachineStore

inductive Origin where
  | declared
  | diff
  deriving DecidableEq

inductive Severity where
  | hotFile
  | declared
  | diff
  deriving DecidableEq

namespace Severity

def text : Severity → String
  | hotFile => "hot_file"
  | declared => "declared"
  | diff => "diff"

end Severity

structure PathItem where
  value : String
  origin : Origin
  deriving DecidableEq

structure Overlap where
  other : String
  tool : String
  branch : Option String
  file : String
  severity : Severity
  deriving DecidableEq

/-- What the service reads outside of the store. -/
structure Workspace where
  hotFiles : List String
  /-- The output of `git diff` for a session, when there is a base that it can be asked about. -/
  gitDiff : Activity → Option String

section

variable (workspace : Workspace)

/-- The path expression of a string. -/
def normalPath? (text : String) : Option String :=
  (normalizePathExpr (chars text)).map String.ofList

def diffFiles (activity : Activity) : List String :=
  match workspace.gitDiff activity with
  | none => []
  | some output => (((chars output).splitOn '\n').take 2000).filterMap fun line =>
      (normalizePathExpr line).map String.ofList

def pathItems (activity : Activity) : List PathItem :=
  activity.pathsDeclared.map (⟨·, .declared⟩) ++ (diffFiles workspace activity).map (⟨·, .diff⟩)

def isLiteralPath (value : String) : Bool := Globs.isLiteral (utf16 value)

def pathMatches (pattern file : String) : Bool := Globs.matchGlob (utf16 pattern) (utf16 file)

def pathsOverlap (a b : String) : Bool := Globs.globsOverlap (utf16 a) (utf16 b)

def isHot (file : String) : Bool := workspace.hotFiles.any fun hot => pathMatches hot file

def severityOf (file : String) (a b : PathItem) : Severity :=
  if isHot workspace file then .hotFile
  else if a.origin = .declared && b.origin = .declared then .declared
  else .diff

/-- The literal item that the map of the other session's literals has for a file: the last one. -/
def literalHit (theirs : List PathItem) (file : String) : Option PathItem :=
  (theirs.filter fun item => isLiteralPath item.value && item.value = file).getLast?

/-- The files and severities that one item of the session adds. -/
def itemReports (theirs : List PathItem) (a : PathItem) : List (String × Severity) :=
  if isLiteralPath a.value then
    ((literalHit theirs a.value).map fun hit => (a.value, severityOf workspace a.value a hit)).toList ++
      (theirs.filter fun b => !isLiteralPath b.value && pathMatches b.value a.value).map
        fun b => (a.value, severityOf workspace a.value a b)
  else
    (theirs.filter fun b => pathsOverlap a.value b.value).map fun b =>
      if isLiteralPath b.value then (b.value, severityOf workspace b.value a b)
      else (a.value, .declared)

def pairReports (mine theirs : List PathItem) : List (String × Severity) :=
  mine.flatMap (itemReports workspace theirs)

/-- Another activity of the same repository. -/
def sameRepo (me other : Activity) : Bool :=
  other.id ≠ me.id && me.repo.any (· ≠ "") && other.repo = me.repo

/-- `add`: each file once with a severity. -/
def addOverlap (found : List Overlap) (item : Overlap) : List Overlap :=
  if found.any fun old => old.other = item.other && old.file = item.file &&
      old.severity = item.severity then found
  else found ++ [item]

/-- What the session is told of the listed activities; nothing when it is not among them. -/
def foundOverlaps (activities : List Activity) (session : String) : Option (List Overlap) :=
  (activities.find? (·.id = session)).map fun me =>
    ((activities.filter (sameRepo me)).flatMap fun other =>
      (pairReports workspace (pathItems workspace me) (pathItems workspace other)).map fun report =>
        (⟨other.id, other.tool, other.branch, report.1, report.2⟩ : Overlap)).foldl addOverlap []

end

/-! ## What is reported -/

section

variable {workspace : Workspace} {file : String} {severity : Severity} {mine theirs : List PathItem}

/-- An item of some origin has a wildcard and matches the file. -/
def Covers (items : List PathItem) (origin : Origin) (file : String) : Prop :=
  ∃ item ∈ items, isLiteralPath item.value = false ∧ pathMatches item.value file = true ∧
    item.origin = origin

theorem mem_itemReports_literal {a : PathItem} (hfile : isLiteralPath file = true)
    (ha : isLiteralPath a.value = true) : (file, severity) ∈ itemReports workspace theirs a ↔
      a.value = file ∧ ((∃ hit, literalHit theirs file = some hit ∧
          severity = severityOf workspace file a hit) ∨
        ∃ b ∈ theirs, isLiteralPath b.value = false ∧ pathMatches b.value file = true ∧
          severity = severityOf workspace file a b) := by
  rw [itemReports, if_pos ha, List.mem_append]
  simp only [Option.mem_toList, Option.map_eq_some_iff, Prod.mk.injEq, List.mem_map,
    List.mem_filter, Bool.and_eq_true, Bool.not_eq_true']
  constructor
  · rintro (⟨hit, hhit, rfl, rfl⟩ | ⟨b, ⟨hb, hwild, hmatch⟩, rfl, rfl⟩)
    · exact ⟨rfl, Or.inl ⟨hit, hhit, rfl⟩⟩
    · exact ⟨rfl, Or.inr ⟨b, hb, hwild, hmatch, rfl⟩⟩
  · rintro ⟨rfl, ⟨hit, hhit, rfl⟩ | ⟨b, hb, hwild, hmatch, rfl⟩⟩
    · exact Or.inl ⟨hit, hhit, rfl, rfl⟩
    · exact Or.inr ⟨b, ⟨hb, hwild, hmatch⟩, rfl, rfl⟩

theorem mem_itemReports_wild {a : PathItem} (hfile : isLiteralPath file = true)
    (ha : isLiteralPath a.value = false) : (file, severity) ∈ itemReports workspace theirs a ↔
      pathMatches a.value file = true ∧ ∃ b ∈ theirs, b.value = file ∧
        severity = severityOf workspace file a b := by
  rw [itemReports, if_neg (by simp [ha])]
  simp only [List.mem_map, List.mem_filter]
  constructor
  · rintro ⟨b, ⟨hb, hoverlap⟩, hreport⟩
    split at hreport
    next hliteral =>
      obtain ⟨rfl, rfl⟩ := Prod.mk.inj hreport
      rw [pathsOverlap, Globs.globsOverlap_literal ha hliteral] at hoverlap
      exact ⟨hoverlap, b, hb, rfl, rfl⟩
    next hwild =>
      obtain ⟨rfl, -⟩ := Prod.mk.inj hreport
      rw [ha] at hfile
      cases hfile
  · rintro ⟨hmatch, b, hb, rfl, rfl⟩
    refine ⟨b, ⟨hb, ?_⟩, by rw [if_pos hfile]⟩
    rw [pathsOverlap, Globs.globsOverlap_literal ha hfile]
    exact hmatch

/-- The item that the map has for a file is of this origin. -/
def Hits (items : List PathItem) (origin : Origin) (file : String) : Prop :=
  literalHit items file = some ⟨file, origin⟩

theorem value_of_literalHit {hit : PathItem} (h : literalHit theirs file = some hit) :
    hit.value = file := by
  have hmem := List.mem_filter.mp (List.mem_of_getLast? h)
  simp only [Bool.and_eq_true, decide_eq_true_eq] at hmem
  exact hmem.2.2

/-- The severity of a file by the origins of the two items. -/
def severityAt (workspace : Workspace) (file : String) (a b : Origin) : Severity :=
  severityOf workspace file ⟨file, a⟩ ⟨file, b⟩

theorem severityOf_eq (a b : PathItem) :
    severityOf workspace file a b = severityAt workspace file a.origin b.origin := rfl

/-- Both sides have the file itself, the other side in its map. -/
def Shared (workspace : Workspace) (mine theirs : List PathItem) (file : String)
    (severity : Severity) : Prop :=
  ∃ a b, severity = severityAt workspace file a b ∧ ⟨file, a⟩ ∈ mine ∧ Hits theirs b file

/-- One side has the file itself, and the other covers it. -/
def Crossed (workspace : Workspace) (mine theirs : List PathItem) (file : String)
    (severity : Severity) : Prop :=
  ∃ a b, severity = severityAt workspace file a b ∧
    (⟨file, a⟩ ∈ mine ∧ Covers theirs b file ∨ Covers mine a file ∧ ⟨file, b⟩ ∈ theirs)

theorem mem_pairReports (hfile : isLiteralPath file = true) :
    (file, severity) ∈ pairReports workspace mine theirs ↔
      Shared workspace mine theirs file severity ∨ Crossed workspace mine theirs file severity := by
  rw [pairReports, List.mem_flatMap]
  constructor
  · rintro ⟨a, ha, hreport⟩
    cases hliteral : isLiteralPath a.value with
    | true =>
        obtain ⟨rfl, ⟨hit, hhit, rfl⟩ | ⟨b, hb, hwild, hmatch, rfl⟩⟩ :=
          (mem_itemReports_literal hfile hliteral).mp hreport
        · obtain ⟨value, origin⟩ := hit
          obtain rfl : value = a.value := value_of_literalHit hhit
          exact Or.inl ⟨a.origin, origin, rfl, ha, hhit⟩
        · exact Or.inr ⟨a.origin, b.origin, rfl, Or.inl ⟨ha, b, hb, hwild, hmatch, rfl⟩⟩
    | false =>
        obtain ⟨hmatch, b, hb, rfl, rfl⟩ := (mem_itemReports_wild hfile hliteral).mp hreport
        exact Or.inr ⟨a.origin, b.origin, rfl, Or.inr ⟨⟨a, ha, hliteral, hmatch, rfl⟩, hb⟩⟩
  · rintro (⟨a, b, rfl, ha, hhit⟩ | ⟨a, b, rfl, ⟨ha, item, hitem, hwild, hmatch, rfl⟩ |
      ⟨⟨item, hitem, hwild, hmatch, rfl⟩, hb⟩⟩)
    · exact ⟨_, ha, (mem_itemReports_literal hfile hfile).mpr ⟨rfl, Or.inl ⟨_, hhit, rfl⟩⟩⟩
    · exact ⟨_, ha, (mem_itemReports_literal hfile hfile).mpr
        ⟨rfl, Or.inr ⟨item, hitem, hwild, hmatch, rfl⟩⟩⟩
    · exact ⟨item, hitem, (mem_itemReports_wild hfile hwild).mpr ⟨hmatch, _, hb, rfl, rfl⟩⟩

theorem severityAt_comm (a b : Origin) :
    severityAt workspace file a b = severityAt workspace file b a := by
  simp only [severityAt, severityOf, Bool.and_comm]

/-- Crossed reports do not depend on the side. -/
theorem crossed_comm : Crossed workspace mine theirs file severity ↔
    Crossed workspace theirs mine file severity := by
  constructor
  all_goals
    rintro ⟨a, b, rfl, hside⟩
    refine ⟨b, a, severityAt_comm a b, ?_⟩
    exact hside.symm.imp And.symm And.symm

variable {me other : Activity}

theorem mem_pathItems {origin : Origin} : ⟨file, origin⟩ ∈ pathItems workspace other ↔
    origin = .declared ∧ file ∈ other.pathsDeclared ∨
      origin = .diff ∧ file ∈ diffFiles workspace other := by
  simp [pathItems, eq_comm, and_comm]

/-- The last item of one origin. -/
theorem literalHit_map (hfile : isLiteralPath file = true) (values : List String)
    (origin : Origin) : literalHit (values.map (⟨·, origin⟩)) file =
      if file ∈ values then some ⟨file, origin⟩ else none := by
  unfold literalHit
  split
  next hmem =>
    have hkept : (⟨file, origin⟩ : PathItem) ∈ (values.map (⟨·, origin⟩)).filter
        fun item => isLiteralPath item.value && item.value = file := by
      simpa [hfile] using hmem
    obtain ⟨last, hlast⟩ := List.getLast?_isSome.mpr (List.ne_nil_of_mem hkept) |>
      Option.isSome_iff_exists.mp
    rw [hlast]
    obtain ⟨hvalue, htest⟩ := List.mem_filter.mp (List.mem_of_getLast? hlast)
    obtain ⟨value, -, rfl⟩ := List.mem_map.mp hvalue
    rw [Bool.and_eq_true, decide_eq_true_eq] at htest
    exact congrArg (fun value => some (⟨value, origin⟩ : PathItem)) htest.2
  next hmem =>
    rw [List.getLast?_eq_none_iff, List.filter_eq_nil_iff]
    intro item hitem htest
    obtain ⟨value, hvalue, rfl⟩ := List.mem_map.mp hitem
    rw [Bool.and_eq_true, decide_eq_true_eq] at htest
    exact hmem (htest.2 ▸ hvalue)

/-- In the map a changed file takes the place of the declared one. -/
theorem literalHit_pathItems (hfile : isLiteralPath file = true) :
    literalHit (pathItems workspace other) file =
      if file ∈ diffFiles workspace other then some ⟨file, .diff⟩
      else if file ∈ other.pathsDeclared then some ⟨file, .declared⟩ else none := by
  have hdiff := literalHit_map hfile (diffFiles workspace other) .diff
  have hdeclared := literalHit_map hfile other.pathsDeclared .declared
  rw [literalHit] at hdiff hdeclared ⊢
  rw [pathItems, List.filter_append, List.getLast?_append, hdiff, hdeclared]
  split
  · rfl
  · exact Option.none_or

theorem hits_diff_iff (hfile : isLiteralPath file = true) :
    Hits (pathItems workspace other) .diff file ↔ ⟨file, .diff⟩ ∈ pathItems workspace other := by
  rw [Hits, literalHit_pathItems hfile, mem_pathItems]
  by_cases hdiff : file ∈ diffFiles workspace other
  · simp [hdiff]
  · by_cases hdeclared : file ∈ other.pathsDeclared <;> simp [hdiff, hdeclared]

theorem hits_declared_iff (hfile : isLiteralPath file = true) :
    Hits (pathItems workspace other) .declared file ↔
      ⟨file, .declared⟩ ∈ pathItems workspace other ∧
        ⟨file, .diff⟩ ∉ pathItems workspace other := by
  rw [Hits, literalHit_pathItems hfile, mem_pathItems, mem_pathItems]
  by_cases hdiff : file ∈ diffFiles workspace other
  · simp [hdiff]
  · by_cases hdeclared : file ∈ other.pathsDeclared <;> simp [hdiff, hdeclared]

/-- The file is declared by both sessions, changed by one of them only, not hot, and no declared
pattern of either covers it. -/
def OneSided (workspace : Workspace) (me other : Activity) (file : String) : Prop :=
  isHot workspace file = false ∧ ⟨file, .declared⟩ ∈ pathItems workspace me ∧
    ⟨file, .declared⟩ ∈ pathItems workspace other ∧
    ¬ (⟨file, .diff⟩ ∈ pathItems workspace me ↔ ⟨file, .diff⟩ ∈ pathItems workspace other) ∧
    ¬ Covers (pathItems workspace me) .declared file ∧
    ¬ Covers (pathItems workspace other) .declared file

theorem exists_origin {p : Origin → Prop} : (∃ origin, p origin) ↔ p .declared ∨ p .diff := by
  constructor
  · rintro ⟨_ | _, h⟩
    · exact Or.inl h
    · exact Or.inr h
  · rintro (h | h)
    · exact ⟨_, h⟩
    · exact ⟨_, h⟩

theorem forall_severity {p : Severity → Prop} :
    (∀ severity, p severity) ↔ p .hotFile ∧ p .declared ∧ p .diff := by
  constructor
  · exact fun h => ⟨h _, h _, h _⟩
  · rintro ⟨hhot, hdeclared, hdiff⟩ (_ | _ | _)
    · exact hhot
    · exact hdeclared
    · exact hdiff

theorem shared_hot_iff (hfile : isLiteralPath file = true) (hhot : isHot workspace file = true) :
    Shared workspace (pathItems workspace me) (pathItems workspace other) file severity ↔
      severity = .hotFile ∧ (∃ a, ⟨file, a⟩ ∈ pathItems workspace me) ∧
        ∃ b, ⟨file, b⟩ ∈ pathItems workspace other := by
  simp only [Shared, severityAt, severityOf, hhot, if_true, exists_origin, hits_diff_iff hfile,
    hits_declared_iff hfile]
  tauto

theorem shared_diff_iff (hfile : isLiteralPath file = true) (hhot : isHot workspace file = false) :
    Shared workspace (pathItems workspace me) (pathItems workspace other) file .diff ↔
      (⟨file, .diff⟩ ∈ pathItems workspace me ∧ ∃ b, ⟨file, b⟩ ∈ pathItems workspace other) ∨
        (∃ a, ⟨file, a⟩ ∈ pathItems workspace me) ∧ ⟨file, .diff⟩ ∈ pathItems workspace other := by
  simp only [Shared, severityAt, severityOf, hhot, exists_origin, hits_diff_iff hfile,
    hits_declared_iff hfile]
  simp
  tauto

theorem shared_declared_iff (hfile : isLiteralPath file = true)
    (hhot : isHot workspace file = false) :
    Shared workspace (pathItems workspace me) (pathItems workspace other) file .declared ↔
      ⟨file, .declared⟩ ∈ pathItems workspace me ∧
        ⟨file, .declared⟩ ∈ pathItems workspace other ∧
          ⟨file, .diff⟩ ∉ pathItems workspace other := by
  simp only [Shared, severityAt, severityOf, hhot, exists_origin, hits_diff_iff hfile,
    hits_declared_iff hfile]
  simp

theorem shared_hotFile_iff (hhot : isHot workspace file = false) :
    Shared workspace mine theirs file .hotFile ↔ False := by
  simp only [Shared, severityAt, severityOf, hhot, exists_origin]
  simp

theorem crossed_declared_iff (hhot : isHot workspace file = false) :
    Crossed workspace mine theirs file .declared ↔
      ⟨file, .declared⟩ ∈ mine ∧ Covers theirs .declared file ∨
        Covers mine .declared file ∧ ⟨file, .declared⟩ ∈ theirs := by
  simp only [Crossed, severityAt, severityOf, hhot, exists_origin]
  simp

/-- The reports about a file are the same from both sides unless the file is one-sided. -/
theorem pairReports_comm_iff (hfile : isLiteralPath file = true) :
    (∀ severity, (file, severity) ∈ pairReports workspace (pathItems workspace me)
        (pathItems workspace other) ↔
      (file, severity) ∈ pairReports workspace (pathItems workspace other)
        (pathItems workspace me)) ↔ ¬ OneSided workspace me other file := by
  simp only [mem_pairReports hfile, OneSided]
  cases hhot : isHot workspace file with
  | true =>
      refine iff_of_true (fun severity => ?_) (by simp)
      rw [crossed_comm, shared_hot_iff hfile hhot, shared_hot_iff hfile hhot,
        and_comm (a := ∃ a, _)]
  | false =>
      rw [forall_severity, and_iff_right, and_iff_left]
      · -- only the severity of files that both sides declare can differ
        rw [shared_declared_iff hfile hhot, shared_declared_iff hfile hhot,
          crossed_declared_iff hhot, crossed_declared_iff hhot]
        by_cases hme : (⟨file, .diff⟩ : PathItem) ∈ pathItems workspace me
        · by_cases hother : (⟨file, .diff⟩ : PathItem) ∈ pathItems workspace other
          · simp only [hme, hother]
            tauto
          · simp only [hme, hother]
            tauto
        · by_cases hother : (⟨file, .diff⟩ : PathItem) ∈ pathItems workspace other
          · simp only [hme, hother]
            tauto
          · simp only [hme, hother]
            tauto
      · rw [shared_diff_iff hfile hhot, shared_diff_iff hfile hhot, crossed_comm]
        exact or_congr_left (or_comm.trans (or_congr and_comm and_comm))
      · rw [shared_hotFile_iff hhot, shared_hotFile_iff hhot, crossed_comm]

/-! ## Two sessions of one repository -/

/-- The session is told of the file with the severity, for the other session. -/
def Reports (workspace : Workspace) (activities : List Activity) (session other file : String)
    (severity : Severity) : Prop :=
  ∃ found, foundOverlaps workspace activities session = some found ∧
    ∃ item ∈ found, item.other = other ∧ item.file = file ∧ item.severity = severity

theorem mem_foldl_addOverlap {items found : List Overlap} {name : String} :
    (∃ item ∈ items.foldl addOverlap found, item.other = name ∧ item.file = file ∧
        item.severity = severity) ↔
      (∃ item ∈ found, item.other = name ∧ item.file = file ∧ item.severity = severity) ∨
        ∃ item ∈ items, item.other = name ∧ item.file = file ∧ item.severity = severity := by
  induction items generalizing found with
  | nil => simp
  | cons item rest ih =>
      rw [List.foldl_cons, ih, addOverlap]
      split
      next hseen =>
        obtain ⟨old, hold, hsame⟩ := List.any_eq_true.mp hseen
        simp only [Bool.and_eq_true, decide_eq_true_eq] at hsame
        rw [List.exists_mem_cons_iff, ← or_assoc]
        refine or_congr_left (iff_self_or.mpr ?_)
        rintro ⟨hother, hfile, hseverity⟩
        exact ⟨old, hold, hsame.1.1.trans hother, hsame.1.2.trans hfile, hsame.2.trans hseverity⟩
      next =>
        rw [List.exists_mem_cons_iff, ← or_assoc]
        refine or_congr_left ?_
        simp only [List.mem_append, List.mem_singleton, or_and_right, exists_or, exists_eq_left]

theorem reports_iff {activities : List Activity} (h : (activities.map (·.id)).Nodup)
    (hme : me ∈ activities) (hother : other ∈ activities) (hne : other.id ≠ me.id)
    {repo : String} (hrepo : repo ≠ "") (hmine : me.repo = some repo)
    (htheirs : other.repo = some repo) :
    Reports workspace activities me.id other.id file severity ↔
      (file, severity) ∈ pairReports workspace (pathItems workspace me)
        (pathItems workspace other) := by
  have hfind := (find?_key_eq_some_iff h).mpr ⟨hme, rfl⟩
  have hsame : sameRepo me other = true := by
    simp [sameRepo, hne, hmine, htheirs, hrepo]
  rw [Reports, foundOverlaps, hfind]
  simp only [Option.map_some, Option.some.injEq, exists_eq_left', mem_foldl_addOverlap,
    List.not_mem_nil, false_and, exists_false, false_or, List.mem_flatMap, List.mem_map,
    List.mem_filter]
  constructor
  · rintro ⟨item, ⟨listed, ⟨hlisted, -⟩, ⟨name, level⟩, hreport, rfl⟩, hid, rfl, rfl⟩
    obtain rfl : listed = other := List.inj_on_of_nodup_map h hlisted hother hid
    exact hreport
  · intro hreport
    exact ⟨_, ⟨other, ⟨hother, hsame⟩, _, hreport, rfl⟩, rfl, rfl, rfl⟩

end

theorem id_of_toActivity {row : ActivityRow} {activity : Activity}
    (h : toActivity row = .ok activity) : activity.id = row.id := by
  obtain ⟨_, -, h⟩ := bind_eq_ok_iff.mp h
  obtain ⟨_, -, h⟩ := bind_eq_ok_iff.mp h
  obtain ⟨_, -, h⟩ := bind_eq_ok_iff.mp h
  rw [← pure_eq_ok_iff.mp h]

/-- The listed activities have distinct ids. -/
theorem nodup_listActive {s : MachineStore} (hkeyed : s.Keyed) {clock : Clock}
    {staleMs : Option Int} {activities : List Activity}
    (h : s.listActive clock staleMs = .ok activities) : (activities.map (·.id)).Nodup := by
  rw [map_eq_of_mapM_eq_ok (g := (·.id)) (k := (·.id)) h fun _ _ => id_of_toActivity]
  have hperm := (List.perm_insertionSort (fun a b : ActivityRow => a.startedMs ≤ b.startedMs)
    (s.activities.filter fun row => row.active &&
      staleMs.elim 0 (fun stale => clock.now - stale) ≤ row.heartbeatMs)).map (·.id)
  refine hperm.nodup_iff.mpr (hkeyed.sublist ?_)
  exact List.filter_sublist.map _

/-- Two active sessions of a repository are told the same literal files with the same severities
of each other if and only if no literal file is one-sided between them. -/
theorem overlaps_symmetric_iff (workspace : Workspace) (calls : List Call) (clock : Clock)
    (staleMs : Option Int) (activities : List Activity)
    (h : (MachineStore.initial.after calls).listActive clock staleMs = .ok activities)
    (me other : Activity) (hme : me ∈ activities) (hother : other ∈ activities)
    (hne : me.id ≠ other.id) (repo : String) (hrepo : repo ≠ "") (hmine : me.repo = some repo)
    (htheirs : other.repo = some repo) :
    (∀ file severity, isLiteralPath file = true →
        (Reports workspace activities me.id other.id file severity ↔
          Reports workspace activities other.id me.id file severity)) ↔
      ∀ file, isLiteralPath file = true → ¬ OneSided workspace me other file := by
  have hnodup := nodup_listActive (MachineStore.keyed_initial.after calls) h
  simp only [reports_iff hnodup hme hother hne.symm hrepo hmine htheirs,
    reports_iff hnodup hother hme hne hrepo htheirs hmine]
  constructor
  · exact fun hall file hfile => (pairReports_comm_iff hfile).mp fun severity =>
      hall file severity hfile
  · exact fun hall file severity hfile => (pairReports_comm_iff hfile).mpr (hall file hfile) severity

namespace OverlapSample

def clock : Clock := ⟨0, fun _ => 0⟩

def session (id : String) : Registration :=
  ⟨id, "codex", none, some "host/repo", none, none, none, none, ["a.js"], []⟩

def calls : List Call :=
  [⟨.register (session "changes"), clock, none⟩, ⟨.register (session "declares"), clock, none⟩]

def activity (id : String) : Activity :=
  ⟨id, "codex", none, some "host/repo", none, none, none, none, ["a.js"], [],
    "1970-01-01T00:00:00.000Z", "1970-01-01T00:00:00.000Z", none⟩

def activities : List Activity := [activity "changes", activity "declares"]

/-- One of the two sessions has changed the file that both declare. -/
def workspace : Workspace :=
  ⟨[], fun activity => if activity.id = "changes" then some "a.js" else none⟩

theorem listActive_calls :
    (MachineStore.initial.after calls).listActive clock none = .ok activities := by
  decide +kernel

theorem mem_changes : activity "changes" ∈ activities := List.mem_cons_self

theorem mem_declares : activity "declares" ∈ activities :=
  List.mem_cons_of_mem _ List.mem_cons_self

theorem overlaps_symmetric_iff_sample :
    (∀ file severity, isLiteralPath file = true →
        (Reports workspace activities "changes" "declares" file severity ↔
          Reports workspace activities "declares" "changes" file severity)) ↔
      ∀ file, isLiteralPath file = true →
        ¬ OneSided workspace (activity "changes") (activity "declares") file :=
  overlaps_symmetric_iff workspace calls clock none activities listActive_calls
    (activity "changes") (activity "declares") mem_changes mem_declares (by decide +kernel)
    "host/repo" (by decide +kernel) rfl rfl

/-- The session that changed the file is told that both declare it, and the other one is not. -/
theorem overlaps_one_sided : ¬ ∀ workspace calls clock staleMs activities,
    (MachineStore.initial.after calls).listActive clock staleMs = .ok activities →
      ∀ me ∈ activities, ∀ other ∈ activities, me.id ≠ other.id → ∀ repo, repo ≠ "" →
        me.repo = some repo → other.repo = some repo →
          ∀ file severity, isLiteralPath file = true →
            (Reports workspace activities me.id other.id file severity ↔
              Reports workspace activities other.id me.id file severity) := by
  intro hall
  have hne : (activity "changes").id ≠ (activity "declares").id := by decide +kernel
  have hrepo : "host/repo" ≠ "" := by decide +kernel
  have hsame := hall workspace calls clock none activities listActive_calls _ mem_changes _
    mem_declares hne "host/repo" hrepo rfl rfl "a.js" .declared (by decide +kernel)
  have hnodup := nodup_listActive (MachineStore.keyed_initial.after calls) listActive_calls
  rw [reports_iff hnodup mem_changes mem_declares hne.symm hrepo rfl rfl,
    reports_iff hnodup mem_declares mem_changes hne hrepo rfl rfl] at hsame
  have hsides : ("a.js", Severity.declared) ∈ pairReports workspace
      (pathItems workspace (activity "changes")) (pathItems workspace (activity "declares")) ∧
    ("a.js", Severity.declared) ∉ pairReports workspace
      (pathItems workspace (activity "declares")) (pathItems workspace (activity "changes")) := by
    decide +kernel
  exact hsides.2 (hsame.mp hsides.1)

end OverlapSample

end Hseos.Coordination
