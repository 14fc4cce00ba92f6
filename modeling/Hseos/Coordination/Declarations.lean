import Hseos.Coordination.KeyRelease
import Hseos.Coordination.Overlaps

/-! # Declared paths

Registration, heartbeat and declaration as sessions ask for them. A session that registers again
keeps the paths that it declared, and the paths that come with the second registration are checked
and dropped.
-/

namespace Hseos.Coordination.Activities

open Service

structure RegisterInput where
  session : String
  tool : String
  host : Option String
  repo : Option String
  worktree : Option String
  branch : Option String
  base : Option String
  intent : Option String
  paths : List String
  identifiers : List String

structure DeclareInput where
  paths : List String
  identifiers : List String
  intent : Option String

/-- What a call finds on the machine: the clocks of its transactions, the settings, the file system
and git. -/
structure Machine where
  clock : Clock
  sweep : Clock
  record : Clock
  staleMs : Option Int
  ttlS : Int
  workspace : Workspace
  casing : Casing
  hostname : String
  directory : String
  /-- `path.resolve`. -/
  resolve : String → String
  /-- `git remote get-url origin`, in a worktree that exists. -/
  remote : String → Option String
  /-- `git rev-parse --abbrev-ref HEAD`, in a worktree that exists. -/
  head : String → Option String

inductive Refused where
  | invalidSession
  | invalidTool
  | invalidPath (path : Option String)
  | tooManyPaths
  | unknownActivity
  deriving DecidableEq

/-! ## Checks -/

/-- `/^[\da-z][\d._a-z-]{0,31}$/`. -/
def validTool : Text → Bool
  | [] => false
  | first :: rest =>
      (isDigit first || isLower first) && rest.length ≤ 31 &&
        rest.all fun c => isDigit c || isLower c || c == '.' || c == '_' || c == '-'

def sanitized (max : Nat) (text : String) : String := String.ofList (sanitizeText max (chars text))

/-- A text that counts: `undefined` and the empty text do not. -/
def given (text : Option String) : Option String := text.filter (· ≠ "")

def validatePaths (list : List String) : Except Refused (List String) :=
  list.mapM fun raw =>
    match normalPath? raw with
    | some value => .ok value
    | none => .error (.invalidPath (some (sanitized 80 raw)))

def maxPaths : Nat := 200

def checkRegister (input : RegisterInput) : Except Refused (List String) := do
  reject (!validIdent (chars input.session)) .invalidSession
  reject (!validTool (chars input.tool)) .invalidTool
  let paths ← validatePaths input.paths
  reject (maxPaths < paths.length) (.invalidPath none)
  return paths

def checkDeclare (session : String) (input : DeclareInput) : Except Refused (List String) := do
  reject (!validIdent (chars session)) .invalidSession
  validatePaths input.paths

/-! ## Calls -/

section

variable (machine : Machine)

def registration (input : RegisterInput) (paths : List String) : Registration :=
  let worktree := (given input.worktree).elim machine.directory machine.resolve
  { id := input.session
    tool := input.tool
    host := some (sanitized 100 ((given input.host).getD machine.hostname))
    repo := ((given input.repo).or (machine.remote worktree)).bind fun remote =>
      (normalizeRepo machine.casing (chars remote)).map String.ofList
    worktree := some worktree
    branch := given (some (sanitized 200
      (((given input.branch).or (machine.head worktree)).getD "")))
    base := (given input.base).map (sanitized 200)
    intent := (given input.intent).map (sanitized 500)
    pathsDeclared := paths
    identifiersDeclared := input.identifiers.map (sanitized 120) }

/-- The event of an overlap has one key for both sessions. -/
def recordOverlap (session : String) (item : Overlap) : Service Unit :=
  recordEvent machine.record (.overlapDetected item.other item.file item.severity.text)
    item.severity.text session
    ("overlap:" ++ "|".intercalate (sortStrings [session, item.other]) ++ ":" ++
      item.severity.text ++ ":" ++ item.file)

/-- `overlaps`: an unknown or a silent session has none. -/
def overlaps (session : String) : Service (List Overlap) := do
  let s ← get
  let activities ← liftM (s.listActive machine.clock machine.staleMs)
  let found := (foundOverlaps machine.workspace activities session).getD []
  found.forM (recordOverlap machine session)
  return found

/-- The reply to a registration or a declaration. -/
abbrev Reply := Except Refused (Option Activity × List Overlap)

def afterRegister : Answer → Service Reply
  | .registered (some activity) => do
      let found ← overlaps machine activity.id
      return .ok (some activity, found)
  | _ => return .ok (none, [])

def register (input : RegisterInput) : Service Reply :=
  match checkRegister input with
  | .error refused => return .error refused
  | .ok paths => do
      let answer ← commit fun s => s.register machine.clock (registration machine input paths)
      afterRegister machine answer

def afterDeclare (session : String) : Answer → Service Reply
  | .declared activity => do
      let found ← overlaps machine session
      return .ok (activity, found)
  | _ => return .error .unknownActivity

/-- More paths than a session may have, with those that it has. -/
def tooMany (paths : List String) (known : Option Activity) : Bool :=
  known.any fun activity => maxPaths < (MachineStore.merge activity.pathsDeclared paths).length

def declare (session : String) (input : DeclareInput) : Service Reply :=
  match checkDeclare session input with
  | .error refused => return .error refused
  | .ok paths => do
      let known ← readActivity session
      if tooMany paths known then return .error .tooManyPaths
      else do
        let answer ← commit fun s => s.declare machine.clock session paths
          (input.identifiers.map (sanitized 120)) ((given input.intent).map (sanitized 500))
        afterDeclare machine session answer

def heartbeat (session : String) : Service (Except Refused (Answer × Answer)) :=
  if validIdent (chars session) then do
    let answer ← commit fun s => s.heartbeat machine.clock machine.staleMs session machine.ttlS
    let overdue ← commit fun s => s.sweepOverdue machine.sweep
    return .ok (answer, overdue)
  else return .error .invalidSession

end

/-! ## Runs -/

inductive Request where
  | register (machine : Machine) (input : RegisterInput)
  | heartbeat (machine : Machine) (session : String)
  | declare (machine : Machine) (session : String) (input : DeclareInput)
  /-- Any other transaction of the store. -/
  | transaction (call : Call)

/-- The tables after a request; what was committed stays when a later step throws. -/
def perform (s : MachineStore) : Request → MachineStore
  | .register machine input => ((register machine input).outcome s).2
  | .heartbeat machine session => ((heartbeat machine session).outcome s).2
  | .declare machine session input => ((declare machine session input).outcome s).2
  | .transaction call => s.step call

def performAll (s : MachineStore) (requests : List Request) : MachineStore :=
  requests.foldl perform s

/-- The transaction writes or ends the session. -/
def writes (session : String) (call : Call) : Bool :=
  match call.operation with
  | .register activity => activity.id = session
  | .declare id _ _ _ => id = session
  | .endActivity id => id = session
  | _ => false

/-- The session is written by its own requests only, and none ends it. -/
def Owned (session : String) : Request → Prop
  | .transaction call => writes session call = false
  | _ => True

/-- The store commits the transaction of a registration. -/
def registered (s : MachineStore) (machine : Machine) (input : RegisterInput)
    (paths : List String) : Bool :=
  (s.register machine.clock (registration machine input paths)).toOption.isSome

/-- The store commits the transaction of a declaration. -/
def declared (s : MachineStore) (machine : Machine) (session : String) (input : DeclareInput)
    (paths : List String) : Bool :=
  match s.get session with
  | .error _ => false
  | .ok known => !tooMany paths known &&
      match s.declare machine.clock session paths (input.identifiers.map (sanitized 120))
        ((given input.intent).map (sanitized 500)) with
      | .ok (.declared _, _) => true
      | _ => false

/-- The paths that a request of the session has accepted: they passed the checks, and the
transaction was committed. -/
def acceptedPaths (session : String) (s : MachineStore) : Request → List String
  | .register machine input =>
      match checkRegister input with
      | .ok paths => if input.session = session && registered s machine input paths then paths else []
      | .error _ => []
  | .declare machine name input =>
      match checkDeclare name input with
      | .ok paths => if name = session && declared s machine name input paths then paths else []
      | .error _ => []
  | _ => []

def acceptedAll (session : String) : MachineStore → List Request → List String
  | _, [] => []
  | s, request :: rest =>
      acceptedPaths session s request ++ acceptedAll session (perform s request) rest

/-- `paths_declared` of the session. -/
def pathsDeclared (s : MachineStore) (session : String) : List String :=
  ((s.findActivity session).map (·.pathsDeclared)).getD []

/-- The session registers although it has a row. -/
def Reregisters (session : String) (s : MachineStore) : Request → Prop
  | .register _ input => input.session = session ∧ (s.findActivity session).isSome = true
  | _ => False

/-! ## What a request does to the sessions -/

section

/-- A part of a request that leaves the table of sessions alone, also when it throws. -/
def Keeps {α : Type} (x : Service α) : Prop :=
  ∀ rows, Attempt.Leads (·.activities = rows) x (fun _ s => s.activities = rows)
    (·.activities = rows)

theorem Keeps.bind {α β : Type} {x : Service α} {f : α → Service β} (hx : Keeps x)
    (hf : ∀ a, Keeps (f a)) : Keeps (x >>= f) :=
  fun rows => (hx rows).bind fun a => hf a rows

theorem Keeps.pure {α : Type} (a : α) : Keeps (Pure.pure a : Service α) :=
  fun _ => Attempt.Leads.pure fun _ hs => hs

theorem Keeps.lift {α : Type} (e : Except StoreFailure α) : Keeps (liftM e : Service α) :=
  fun _ => Attempt.Leads.lift (fun _ _ _ hs => hs) fun _ hs => hs

theorem Keeps.get : Keeps (get : Service MachineStore) := fun _ => Attempt.Leads.get fun _ hs => hs

theorem Keeps.forM {α : Type} {f : α → Service Unit} (hf : ∀ a, Keeps (f a)) (list : List α) :
    Keeps (list.forM f) := by
  induction list with
  | nil => exact Keeps.pure ()
  | cons a rest ih => exact (hf a).bind fun _ => ih

theorem Keeps.commit {transaction : MachineStore → Transaction}
    (h : ∀ s answer next, transaction s = .ok (answer, next) → next.activities = s.activities) :
    Keeps (commit transaction) := by
  intro rows s hs
  rw [outcome_commit]
  cases htransaction : transaction s with
  | error => exact hs
  | ok result => exact (h s result.1 result.2 htransaction).trans hs

theorem Keeps.outcome {α : Type} {x : Service α} (h : Keeps x) (s : MachineStore) :
    (x.outcome s).2.activities = s.activities := by
  have hs := h s.activities s rfl
  cases hout : x.outcome s with
  | mk result next =>
      rw [hout] at hs
      cases result <;> exact hs

variable {machine : Machine} {session : String} {s : MachineStore}

theorem keeps_overlaps : Keeps (overlaps machine session) := by
  refine Keeps.get.bind fun s => (Keeps.lift _).bind fun activities => ?_
  refine Keeps.bind (Keeps.forM (fun item => ?_) _) fun _ => Keeps.pure _
  refine Keeps.bind (Keeps.commit fun _ _ _ h => ?_) fun _ => Keeps.pure _
  exact MachineStore.recordEvent_eq_ok h

theorem keeps_afterRegister (answer : Answer) : Keeps (afterRegister machine answer) := by
  unfold afterRegister
  split
  · exact keeps_overlaps.bind fun _ => Keeps.pure _
  · exact Keeps.pure _

theorem keeps_afterDeclare (answer : Answer) : Keeps (afterDeclare machine session answer) := by
  unfold afterDeclare
  split
  · exact keeps_overlaps.bind fun _ => Keeps.pure _
  · exact Keeps.pure _

/-- A transaction and what follows it: the sessions are those that the transaction committed. -/
theorem activities_commit_bind {α : Type} {transaction : MachineStore → Transaction}
    {f : Answer → Service α} (hf : ∀ answer, Keeps (f answer)) (s : MachineStore) :
    (Attempt.outcome (commit transaction >>= f) s).2.activities =
      match transaction s with
      | .ok (_, next) => next.activities
      | .error _ => s.activities := by
  rw [Attempt.outcome_bind, outcome_commit]
  cases transaction s with
  | error => rfl
  | ok result => exact (hf result.1).outcome result.2

/-! ## The row of the session -/

/-- What counts of the row of a session: its paths and its end. -/
def rowOf (s : MachineStore) (session : String) : Option (List String × Option Int) :=
  (s.findActivity session).map fun row => (row.pathsDeclared, row.endedMs)

theorem rowOf_congr {next : MachineStore} (h : next.activities = s.activities) :
    rowOf next session = rowOf s session := by
  rw [rowOf, MachineStore.findActivity_congr h, rowOf]

theorem rowOf_updateActivity {id : String} {change : ActivityRow → ActivityRow}
    (hid : ∀ row, (change row).id = row.id) (hkept : id = session → ∀ row,
      (change row).pathsDeclared = row.pathsDeclared ∧ (change row).endedMs = row.endedMs) :
    rowOf (s.updateActivity id change) session = rowOf s session := by
  rw [rowOf, rowOf, MachineStore.findActivity_updateActivity hid]
  split
  next hsession =>
    subst hsession
    rw [Option.map_map]
    congr 1
    funext row
    rw [Function.comp, (hkept rfl row).1, (hkept rfl row).2]
  next => rfl

/-- A transaction that does not write the session. -/
theorem rowOf_step {call : Call} (h : writes session call = false) :
    rowOf (s.step call) session = rowOf s session := by
  rcases MachineStore.step_eq s call with hsame | ⟨answer, hcall⟩
  · rw [hsame]
  · unfold MachineStore.transaction at hcall
    unfold writes at h
    split at hcall
    next activity hop =>
      simp only [hop, decide_eq_false_iff_not] at h
      rw [rowOf_congr (MachineStore.register_eq_ok hcall), rowOf,
        MachineStore.findActivity_upsertActivity, if_neg (Ne.symm h), rowOf]
    next id ttlS hop =>
      rcases MachineStore.heartbeat_eq_ok hcall with hsame | hsame
      · exact rowOf_congr hsame
      · rw [rowOf_congr hsame]
        exact rowOf_updateActivity (fun _ => rfl) fun _ _ => ⟨rfl, rfl⟩
    next id paths identifiers intent hop =>
      simp only [hop, decide_eq_false_iff_not] at h
      rcases MachineStore.declare_eq_ok hcall with ⟨-, -, hsame⟩ | ⟨row, view, -, -, hsame⟩
      · rw [hsame]
      · rw [rowOf_congr hsame]
        exact rowOf_updateActivity (fun _ => rfl) fun hid => absurd hid h
    next id hop =>
      simp only [hop, decide_eq_false_iff_not] at h
      rcases MachineStore.endActivity_eq_ok hcall with hsame | hsame
      · exact rowOf_congr hsame
      · rw [rowOf_congr hsame]
        refine rowOf_updateActivity (fun row => ?_) fun hid => absurd hid h
        split <;> rfl
    · exact rowOf_congr (MachineStore.reserve_eq_ok hcall)
    · exact rowOf_congr (MachineStore.release_eq_ok hcall)
    · exact rowOf_congr (MachineStore.sweepOverdue_eq_ok hcall)
    · exact rowOf_congr (MachineStore.recordEvent_eq_ok hcall)

/-- What a request does to the row of a session that it may not end. -/
inductive RowStep (session : String) (s : MachineStore) (request : Request) : Prop where
  | same (row : rowOf (perform s request) session = rowOf s session)
      (accepted : acceptedPaths session s request = [])
  | registered (paths : List String) (accepted : acceptedPaths session s request = paths)
      (row : rowOf (perform s request) session =
        some ((rowOf s session).elim paths Prod.fst, none))
      (register : (rowOf s session).isSome = true ↔ Reregisters session s request)
  | declared (paths : List String) (known : ActivityRow)
      (accepted : acceptedPaths session s request = paths)
      (found : s.findActive session = some known)
      (row : rowOf (perform s request) session =
        (rowOf s session).map fun row => (MachineStore.merge known.pathsDeclared paths, row.2))
      (declare : ¬ Reregisters session s request)

theorem isSome_rowOf : (rowOf s session).isSome = (s.findActivity session).isSome := by
  rw [rowOf, Option.isSome_map]

theorem rowStep_register (input : RegisterInput) :
    RowStep session s (.register machine input) := by
  cases hcheck : checkRegister input with
  | error refused =>
      refine .same ?_ ?_
      · rw [perform, register, hcheck]
        rfl
      · rw [acceptedPaths, hcheck]
  | ok paths =>
      have hrows : (perform s (.register machine input)).activities =
          match s.register machine.clock (registration machine input paths) with
          | .ok (_, next) => next.activities
          | .error _ => s.activities := by
        rw [perform, register, hcheck]
        exact activities_commit_bind keeps_afterRegister s
      have haccepted : acceptedPaths session s (.register machine input) =
          if input.session = session && registered s machine input paths then paths else [] := by
        rw [acceptedPaths, hcheck]
      cases hcommit : s.register machine.clock (registration machine input paths) with
      | error failure =>
          rw [hcommit] at hrows
          refine .same (rowOf_congr hrows) ?_
          rw [haccepted, registered, hcommit]
          exact if_neg (by simp [Except.toOption])
      | ok result =>
          obtain ⟨answer, next⟩ := result
          rw [hcommit] at hrows
          have hnext := hrows.trans (MachineStore.register_eq_ok hcommit)
          have hcommitted : registered s machine input paths = true := by
            rw [registered, hcommit]
            rfl
          have hid : (registration machine input paths).id = input.session := rfl
          by_cases hsession : input.session = session
          · refine .registered paths ?_ ?_ ?_
            · rw [haccepted, hcommitted]
              exact if_pos (by simp [hsession])
            · rw [rowOf_congr hnext, rowOf, MachineStore.findActivity_upsertActivity, hid,
                if_pos hsession.symm, hsession, rowOf]
              cases s.findActivity session <;> rfl
            · rw [isSome_rowOf]
              exact (and_iff_right hsession).symm
          · refine .same ?_ ?_
            · rw [rowOf_congr hnext, rowOf, MachineStore.findActivity_upsertActivity, hid,
                if_neg (Ne.symm hsession), rowOf]
            · rw [haccepted]
              exact if_neg (by simp [hsession])

theorem rowStep_heartbeat (name : String) : RowStep session s (.heartbeat machine name) := by
  refine .same ?_ rfl
  rw [perform, heartbeat]
  split
  · have hkeeps : ∀ answer : Answer, Keeps (do
        let overdue ← commit fun s => s.sweepOverdue machine.sweep
        return (.ok (answer, overdue)) : Service (Except Refused (Answer × Answer))) := by
      refine fun answer => Keeps.bind (Keeps.commit fun _ _ _ h => ?_) fun _ => Keeps.pure _
      exact MachineStore.sweepOverdue_eq_ok h
    have hrows := @activities_commit_bind _ (fun s =>
      s.heartbeat machine.clock machine.staleMs name machine.ttlS) _ hkeeps s
    cases hbeat : s.heartbeat machine.clock machine.staleMs name machine.ttlS with
    | error failure =>
        simp only [hbeat] at hrows
        exact rowOf_congr hrows
    | ok result =>
        simp only [hbeat] at hrows
        rcases MachineStore.heartbeat_eq_ok hbeat with hsame | hsame
        · exact rowOf_congr (hrows.trans hsame)
        · rw [rowOf_congr (hrows.trans hsame)]
          exact rowOf_updateActivity (fun _ => rfl) fun _ _ => ⟨rfl, rfl⟩
  · rfl

/-- The sessions after a declaration that passed the checks of its input. -/
theorem activities_declare {name : String} {input : DeclareInput} {paths : List String}
    (hcheck : checkDeclare name input = .ok paths) :
    (perform s (.declare machine name input)).activities =
      match s.get name with
      | .error _ => s.activities
      | .ok known =>
          if tooMany paths known then s.activities
          else
            match s.declare machine.clock name paths (input.identifiers.map (sanitized 120))
              ((given input.intent).map (sanitized 500)) with
            | .ok (_, next) => next.activities
            | .error _ => s.activities := by
  have hread : (readActivity name).outcome s = (s.get name, s) := rfl
  rw [perform, declare, hcheck]
  dsimp only
  rw [Attempt.outcome_bind, hread]
  cases s.get name with
  | error => rfl
  | ok known =>
      dsimp only
      split
      · rfl
      · exact activities_commit_bind keeps_afterDeclare s

theorem rowStep_declare (name : String) (input : DeclareInput) :
    RowStep session s (.declare machine name input) := by
  cases hcheck : checkDeclare name input with
  | error refused =>
      refine .same ?_ ?_
      · rw [perform, declare, hcheck]
        rfl
      · rw [acceptedPaths, hcheck]
  | ok paths =>
      have hrows := @activities_declare machine s name input paths hcheck
      have haccepted : acceptedPaths session s (.declare machine name input) =
          if name = session && declared s machine name input paths then paths else [] := by
        rw [acceptedPaths, hcheck]
      have hdropped : declared s machine name input paths = false →
          acceptedPaths session s (.declare machine name input) = [] := by
        intro hnot
        rw [haccepted]
        exact if_neg (by simp [hnot])
      cases hget : s.get name with
      | error failure =>
          rw [hget] at hrows
          exact .same (rowOf_congr hrows) (hdropped (by rw [declared, hget]))
      | ok known =>
          rw [hget] at hrows
          dsimp only at hrows
          by_cases hmany : tooMany paths known = true
          · rw [if_pos hmany] at hrows
            refine .same (rowOf_congr hrows) (hdropped ?_)
            simp [declared, hget, hmany]
          · rw [if_neg hmany] at hrows
            rw [Bool.not_eq_true] at hmany
            cases hcommit : s.declare machine.clock name paths
                (input.identifiers.map (sanitized 120)) ((given input.intent).map (sanitized 500)) with
            | error failure =>
                rw [hcommit] at hrows
                refine .same (rowOf_congr hrows) (hdropped ?_)
                simp [declared, hget, hcommit]
            | ok result =>
                obtain ⟨answer, next⟩ := result
                rw [hcommit] at hrows
                rcases MachineStore.declare_eq_ok hcommit with
                  ⟨-, rfl, rfl⟩ | ⟨row, view, hfound, rfl, hsame⟩
                · refine .same (rowOf_congr hrows) (hdropped ?_)
                  simp [declared, hget, hcommit]
                · have hcommitted : declared s machine name input paths = true := by
                    simp [declared, hget, hmany, hcommit]
                  by_cases hname : name = session
                  · subst hname
                    refine .declared paths row ?_ hfound ?_ fun hregister => hregister
                    · rw [haccepted]
                      exact if_pos (by simp [hcommitted])
                    · rw [rowOf_congr (hrows.trans hsame), rowOf,
                        MachineStore.findActivity_updateActivity (by exact fun _ => rfl), if_pos rfl,
                        rowOf, Option.map_map, Option.map_map]
                      rfl
                  · refine .same ?_ ?_
                    · rw [rowOf_congr (hrows.trans hsame)]
                      exact rowOf_updateActivity (fun _ => rfl) fun hid => absurd hid hname
                    · rw [haccepted]
                      exact if_neg (by simp [hname])

theorem rowStep_of_owned {request : Request} (h : Owned session request) :
    RowStep session s request := by
  cases request with
  | register machine input => exact rowStep_register input
  | heartbeat machine name => exact rowStep_heartbeat name
  | declare machine name input => exact rowStep_declare name input
  | transaction call => exact .same (rowOf_step h) rfl

/-! ## Runs of requests -/

/-- The session has not ended. -/
def Open (session : String) (s : MachineStore) : Prop :=
  ∀ row, rowOf s session = some row → row.2 = none

theorem mem_foldl_new {seen extra : List String} {path : String} :
    path ∈ extra.foldl (fun seen value => if value ∈ seen then seen else seen ++ [value]) seen ↔
      path ∈ seen ∨ path ∈ extra := by
  induction extra generalizing seen with
  | nil => simp
  | cons value rest ih =>
      rw [List.foldl_cons, ih, List.mem_cons]
      split
      next hseen =>
        constructor
        · exact fun h => h.imp_right Or.inr
        · rintro (h | rfl | h)
          · exact Or.inl h
          · exact Or.inl hseen
          · exact Or.inr h
      next =>
        rw [List.mem_append, List.mem_singleton, or_assoc]

theorem mem_merge {current extra : List String} {path : String} :
    path ∈ MachineStore.merge current extra ↔ path ∈ current ∨ path ∈ extra := by
  rw [MachineStore.merge, mem_foldl_new, List.mem_append]
  exact or_iff_right List.not_mem_nil

/-- The active row of an open session is its row. -/
theorem Open.findActive (h : Open session s) {known : ActivityRow}
    (hfound : s.findActive session = some known) :
    rowOf s session = some (known.pathsDeclared, none) := by
  have hknown := List.find?_some hfound
  rw [Bool.and_eq_true, decide_eq_true_eq] at hknown
  cases hrow : s.findActivity session with
  | none =>
      have hnone := List.find?_eq_none.mp hrow known (List.mem_of_find?_eq_some hfound)
      exact absurd (decide_eq_true hknown.1) hnone
  | some row =>
      have hended : row.endedMs = none := h _ (by rw [rowOf, hrow]; rfl)
      obtain ⟨hid, front, rest, hrows, hfront⟩ := List.find?_eq_some_iff_append.mp hrow
      have hsame : s.findActive session = some row := by
        refine List.find?_eq_some_iff_append.mpr ⟨?_, front, rest, hrows, ?_⟩
        · rw [hid, ActivityRow.active, hended]
          rfl
        · intro other hother
          have hother := hfront other hother
          simp only [Bool.not_eq_true', decide_eq_false_iff_not] at hother
          simp [hother]
      obtain rfl := Option.some.inj (hfound.symm.trans hsame)
      rw [rowOf, hrow, ← hended]
      rfl

theorem pathsDeclared_eq : pathsDeclared s session = ((rowOf s session).map Prod.fst).getD [] := by
  rw [pathsDeclared, rowOf, Option.map_map]
  rfl

theorem Open.step {request : Request} (h : Open session s) (howned : Owned session request) :
    Open session (perform s request) := by
  intro row hrow
  cases rowStep_of_owned (s := s) howned with
  | same hsame _ => exact h row (hsame ▸ hrow)
  | registered paths _ hrow' _ =>
      rw [hrow'] at hrow
      rw [← Option.some.inj hrow]
  | declared paths known _ hfound hrow' _ =>
      rw [hrow', h.findActive hfound] at hrow
      rw [← Option.some.inj hrow]

/-- A session that registers again keeps its paths. -/
theorem pathsDeclared_of_reregisters {request : Request} (howned : Owned session request)
    (hagain : Reregisters session s request) :
    pathsDeclared (perform s request) session = pathsDeclared s session := by
  rw [pathsDeclared_eq, pathsDeclared_eq]
  cases rowStep_of_owned (s := s) howned with
  | same hsame _ => rw [hsame]
  | registered paths _ hrow hregister =>
      obtain ⟨row, hknown⟩ := Option.isSome_iff_exists.mp (hregister.mpr hagain)
      rw [hrow, hknown]
      rfl
  | declared _ _ _ _ _ hnot => exact absurd hagain hnot

/-- Every other request adds the paths that it has accepted. -/
theorem mem_pathsDeclared_perform {request : Request} (h : Open session s)
    (howned : Owned session request) (hnot : ¬ Reregisters session s request) (path : String) :
    path ∈ pathsDeclared (perform s request) session ↔
      path ∈ pathsDeclared s session ∨ path ∈ acceptedPaths session s request := by
  rw [pathsDeclared_eq, pathsDeclared_eq]
  cases rowStep_of_owned (s := s) howned with
  | same hsame haccepted => simp [hsame, haccepted]
  | registered paths haccepted hrow hregister =>
      have hnew : rowOf s session = none := by
        rw [← Option.not_isSome_iff_eq_none]
        exact fun hknown => hnot (hregister.mp hknown)
      simp [hrow, hnew, haccepted]
  | declared paths known haccepted hfound hrow _ =>
      rw [hrow, h.findActive hfound, haccepted]
      exact mem_merge

theorem performAll_append (requests more : List Request) :
    performAll s (requests ++ more) = performAll (performAll s requests) more :=
  List.foldl_append

theorem acceptedAll_append (requests more : List Request) :
    acceptedAll session s (requests ++ more) =
      acceptedAll session s requests ++ acceptedAll session (performAll s requests) more := by
  induction requests generalizing s with
  | nil => rfl
  | cons request rest ih =>
      rw [List.cons_append, acceptedAll, acceptedAll, ih, List.append_assoc]
      rfl

theorem Open.performAll {requests : List Request} (h : Open session s)
    (howned : ∀ request ∈ requests, Owned session request) :
    Open session (performAll s requests) := by
  induction requests generalizing s with
  | nil => exact h
  | cons request rest ih =>
      obtain ⟨hrequest, hrest⟩ := List.forall_mem_cons.mp howned
      exact ih (h.step hrequest) hrest

theorem open_initial : Open session MachineStore.initial := fun row hrow => by cases hrow

/-- After a run the declared paths are the accepted ones. -/
def NothingLost (session : String) (requests : List Request) : Prop :=
  ∀ path, path ∈ pathsDeclared (performAll .initial requests) session ↔
    path ∈ acceptedAll session .initial requests

/-- A request that does not bring new paths when its session registers again. -/
def BringsNothingNew (session : String) (before : List Request) (request : Request) : Prop :=
  Reregisters session (performAll .initial before) request →
    ∀ path ∈ acceptedPaths session (performAll .initial before) request,
      path ∈ acceptedAll session .initial before

theorem nothingLost_concat_iff {before : List Request} {request : Request}
    (howned : ∀ r ∈ before ++ [request], Owned session r) (hbefore : NothingLost session before) :
    NothingLost session (before ++ [request]) ↔ BringsNothingNew session before request := by
  obtain ⟨hpast, hrequest⟩ := List.forall_mem_append.mp howned
  have hopen := open_initial.performAll hpast
  have hrequest := hrequest request List.mem_cons_self
  have haccepted : acceptedAll session (performAll .initial before) [request] =
      acceptedPaths session (performAll .initial before) request :=
    List.append_nil _
  simp only [NothingLost, performAll_append, acceptedAll_append, haccepted, List.mem_append]
  by_cases hagain : Reregisters session (performAll .initial before) request
  · have hkept := pathsDeclared_of_reregisters hrequest hagain
    constructor
    · intro hlost _ path hpath
      have hmem := (hlost path).mpr (Or.inr hpath)
      rw [show performAll (performAll .initial before) [request] =
        perform (performAll .initial before) request from rfl, hkept] at hmem
      exact (hbefore path).mp hmem
    · intro hnew path
      rw [show performAll (performAll .initial before) [request] =
        perform (performAll .initial before) request from rfl, hkept, hbefore path]
      exact (or_iff_left_of_imp (hnew hagain path)).symm
  · refine iff_of_true (fun path => ?_) fun hregister => absurd hregister hagain
    rw [← hbefore path]
    exact mem_pathsDeclared_perform hopen hrequest hagain path

/-- The declared paths of a session are the accepted ones after every call if and only if, whenever
the session registers again, it brings only paths that were accepted before. -/
theorem declared_paths_kept_iff (session : String) (requests : List Request)
    (h : ∀ request ∈ requests, Owned session request) :
    (∀ before after, requests = before ++ after → NothingLost session before) ↔
      ∀ before request after, requests = before ++ request :: after →
        BringsNothingNew session before request := by
  constructor
  · rintro hall before request after rfl
    have hbefore := hall before (request :: after) rfl
    have hnext := hall (before ++ [request]) after (by simp)
    refine (nothingLost_concat_iff (fun r hr => h r ?_) hbefore).mp hnext
    rcases List.mem_append.mp hr with hr | hr
    · exact List.mem_append_left _ hr
    · exact List.mem_append_right _ (List.mem_cons.mpr (Or.inl (List.mem_singleton.mp hr)))
  · intro hall before
    induction before using List.reverseRecOn with
    | nil => exact fun after _ path => Iff.rfl
    | append_singleton before request ih =>
        rintro after rfl
        have hbefore := ih (request :: after) (by simp)
        refine (nothingLost_concat_iff (fun r hr => h r ?_) hbefore).mpr
          (hall before request after (by simp))
        exact List.mem_append_left _ hr

end

namespace DeclarationSample

def clock : Clock := ⟨0, fun _ => 0⟩

def machine : Machine where
  clock := clock
  sweep := clock
  record := clock
  staleMs := none
  ttlS := 600
  workspace := ⟨[], fun _ => none⟩
  casing := asciiCasing
  hostname := "host"
  directory := "/work"
  resolve := id
  remote := fun _ => none
  head := fun _ => none

def registering (path : String) : Request :=
  .register machine ⟨"session", "codex", none, none, none, none, none, none, [path], []⟩

/-- The session registers again, with another path. -/
def requests : List Request := [registering "a.js", registering "b.js"]

theorem owned_requests : ∀ request ∈ requests, Owned "session" request := by
  intro request hrequest
  rcases List.mem_cons.mp hrequest with rfl | hrequest
  · exact trivial
  · rw [List.mem_singleton.mp hrequest]
    exact trivial

theorem declared_paths_kept_iff_sample :
    (∀ before after, requests = before ++ after → NothingLost "session" before) ↔
      ∀ before request after, requests = before ++ request :: after →
        BringsNothingNew "session" before request :=
  declared_paths_kept_iff "session" requests owned_requests

/-- The path of the second registration is accepted and not declared. -/
theorem reregistered_path_lost : ¬ ∀ session requests,
    (∀ request ∈ requests, Owned session request) →
      ∀ before after, requests = before ++ after → NothingLost session before := by
  intro hall
  have hlost := hall "session" requests owned_requests requests [] (List.append_nil _).symm "b.js"
  have hpaths : "b.js" ∉ pathsDeclared (performAll .initial requests) "session" ∧
      "b.js" ∈ acceptedAll "session" .initial requests := by
    decide +kernel
  exact hpaths.1 (hlost.mpr hpaths.2)

end DeclarationSample

end Hseos.Coordination.Activities
