import Hseos.Contracts.Common
import Hseos.Governed.ApprovalStore

/-! # Approvals of memory operations

The operations that the approvals of deletions and promotions are bound to, and the
verifier that consumes an approval with what it approves. An operation is named by
its identifiers joined by a colon, which identifiers may contain.
-/

namespace Hseos.Memory

def memoryError (message code : String) : Thrown := .ofError "AgentMemoryError" code message

def invalid (message : String) : Thrown := memoryError message "AGENT_MEMORY_INVALID"

def requireIdentifier (value field : String) : Except Thrown Unit :=
  reject (!isIdentifier value) (invalid s!"{field} must be a lowercase identifier")

/-- `SHA256.test(value)`. -/
def isSha256 (value : String) : Bool :=
  (chars value).length = 64 && (chars value).all Sha256.isHexChar

/-! ## Operations -/

/-- What an approval is bound to. -/
structure MemoryOperation where
  operation : String
  operationId : String
  resourceScope : Json

def deleteOperation : String := "memory.delete"

def promoteOperation : String := "memory.promote"

def memoryDeleteOperation (projectId memoryId : String) : Except Thrown MemoryOperation := do
  requireIdentifier projectId "project_id"
  requireIdentifier memoryId "memory_id"
  return {
    operation := deleteOperation
    operationId := deleteOperation ++ ":" ++ projectId ++ ":" ++ memoryId
    resourceScope := .obj [("project_id", .str projectId), ("memory_id", .str memoryId)] }

def memoryPromoteOperation (projectId memoryId contentSha256 : String) :
    Except Thrown MemoryOperation := do
  requireIdentifier projectId "project_id"
  requireIdentifier memoryId "memory_id"
  reject (!isSha256 contentSha256) (invalid "content_sha256 must be a sha-256 hex digest")
  return {
    operation := promoteOperation
    operationId := promoteOperation ++ ":" ++ projectId ++ ":" ++ memoryId ++ ":" ++ contentSha256
    resourceScope := .obj [("project_id", .str projectId), ("memory_id", .str memoryId),
      ("content_sha256", .str contentSha256)] }

/-- The memory that `forget` deletes, or the content of one that `promote` lifts. -/
inductive Target where
  | forget (projectId memoryId : String)
  | promote (projectId memoryId contentSha256 : String)
  deriving DecidableEq

def Target.operation : Target → Except Thrown MemoryOperation
  | .forget projectId memoryId => memoryDeleteOperation projectId memoryId
  | .promote projectId memoryId contentSha256 =>
      memoryPromoteOperation projectId memoryId contentSha256

/-! ## The verifier -/

/-- One call of `forget` or `promote`: its verifier's policy version, the approval that the host
resolves, the clock, and whether the events of the operation can be appended. -/
structure Command where
  target : Target
  policyVersion : String
  approvalId : Option String
  now : String
  appended : Except Thrown Unit

/-- The verifier of `createExecutionApprovalVerifier`. -/
def verify (store : ApprovalStore) (command : Command) : Except Thrown ApprovalStore := do
  let operation ← command.target.operation
  match command.approvalId.filter (· ≠ "") with
  | none =>
      throw (memoryError "no approval was issued for this operation" "AGENT_MEMORY_APPROVAL_REQUIRED")
  | some approvalId => do
      let consumed ← store.consume
        { approvalId, operationId := operation.operationId, resourceScope := operation.resourceScope,
          policyVersion := command.policyVersion, now := command.now } command.appended
      return consumed.2.1

/-- What happens to a store: an approval is issued, or a memory operation asks for one. -/
inductive Step where
  | issue (record : Json)
  | call (command : Command)

/-- The store after a step, which stays as it is when the step throws. -/
def step (store : ApprovalStore) : Step → ApprovalStore
  | .issue record => (store.issue record).toOption.getD store
  | .call command => (verify store command).toOption.getD store

def after (steps : List Step) : ApprovalStore := steps.foldl step .empty

/-! ## Names of operations -/

/-- The first project goes on, after a colon, with what the memory of the second starts with. -/
def Extends (projectId memoryId projectId' memoryId' : String) : Prop :=
  ∃ segment, projectId = projectId' ++ ":" ++ segment ∧ memoryId' = segment ++ ":" ++ memoryId

/-- Two memories of which one's project takes over the start of the other's identifier. -/
def Overlaps (projectId memoryId projectId' memoryId' : String) : Prop :=
  Extends projectId memoryId projectId' memoryId' ∨ Extends projectId' memoryId' projectId memoryId

/-- Two targets of one kind that overlap. -/
def Target.Overlaps : Target → Target → Prop
  | .forget projectId memoryId, .forget projectId' memoryId' =>
      Memory.Overlaps projectId memoryId projectId' memoryId'
  | .promote projectId memoryId contentSha256, .promote projectId' memoryId' contentSha256' =>
      contentSha256 = contentSha256' ∧ Memory.Overlaps projectId memoryId projectId' memoryId'
  | _, _ => False

section

variable {projectId memoryId projectId' memoryId' : String}

theorem join_eq_of_extends (h : Extends projectId memoryId projectId' memoryId') :
    projectId ++ ":" ++ memoryId = projectId' ++ ":" ++ memoryId' := by
  obtain ⟨segment, rfl, rfl⟩ := h
  simp only [String.append_assoc]

/-- Memories of one project do not overlap. -/
theorem not_extends_self : ¬ Extends projectId memoryId projectId memoryId' := by
  rintro ⟨segment, hproject, -⟩
  have hlength := congrArg String.length hproject
  rw [String.length_append, String.length_append] at hlength
  have hcolon : ":".length = 1 := rfl
  omega

/-- Where one of two equal joined names has its first colon later, the rest of it is shared. -/
theorem extends_of_append_eq {middle : List Char}
    (hproject : projectId'.toList = projectId.toList ++ middle)
    (hmemory : ':' :: memoryId.toList = middle ++ ':' :: memoryId'.toList) :
    projectId = projectId' ∧ memoryId = memoryId' ∨
      Extends projectId' memoryId' projectId memoryId := by
  cases middle with
  | nil =>
      rw [List.append_nil] at hproject
      rw [List.nil_append, List.cons_inj_right] at hmemory
      exact .inl ⟨(String.toList_inj.mp hproject).symm, String.toList_inj.mp hmemory⟩
  | cons c rest =>
      rw [List.cons_append, List.cons_eq_cons] at hmemory
      obtain ⟨rfl, hmemory⟩ := hmemory
      refine .inr ⟨String.ofList rest, ?_, ?_⟩
      · apply String.toList_inj.mp
        simp [hproject]
      · apply String.toList_inj.mp
        simp [hmemory]

/-- Two joined names are equal exactly if the memories are the same or overlap. -/
theorem join_eq_iff :
    projectId ++ ":" ++ memoryId = projectId' ++ ":" ++ memoryId' ↔
      projectId = projectId' ∧ memoryId = memoryId' ∨
        Overlaps projectId memoryId projectId' memoryId' := by
  constructor
  · intro h
    have hchars := congrArg String.toList h
    simp only [String.toList_append, List.append_assoc] at hchars
    rcases List.append_eq_append_iff.mp hchars with
      ⟨middle, hproject, hmemory⟩ | ⟨middle, hproject, hmemory⟩
    · exact (extends_of_append_eq hproject hmemory).imp id .inr
    · rcases extends_of_append_eq hproject hmemory with ⟨hproject, hmemory⟩ | hextends
      · exact .inl ⟨hproject.symm, hmemory.symm⟩
      · exact .inr (.inl hextends)
  · rintro (⟨rfl, rfl⟩ | hextends | hextends)
    · rfl
    · exact join_eq_of_extends hextends
    · exact (join_eq_of_extends hextends).symm

end

/-! ## Operation identifiers -/

theorem memoryDeleteOperation_eq_ok {projectId memoryId : String} {operation : MemoryOperation}
    (h : memoryDeleteOperation projectId memoryId = .ok operation) :
    operation.operationId = deleteOperation ++ ":" ++ projectId ++ ":" ++ memoryId := by
  obtain ⟨-, -, h⟩ := bind_eq_ok_iff.mp h
  obtain ⟨-, -, h⟩ := bind_eq_ok_iff.mp h
  rw [← pure_eq_ok_iff.mp h]

theorem memoryPromoteOperation_eq_ok {projectId memoryId contentSha256 : String}
    {operation : MemoryOperation}
    (h : memoryPromoteOperation projectId memoryId contentSha256 = .ok operation) :
    isSha256 contentSha256 = true ∧ operation.operationId =
      promoteOperation ++ ":" ++ projectId ++ ":" ++ memoryId ++ ":" ++ contentSha256 := by
  obtain ⟨-, -, h⟩ := bind_eq_ok_iff.mp h
  obtain ⟨-, -, h⟩ := bind_eq_ok_iff.mp h
  obtain ⟨hsha, h⟩ := reject_bind_eq_ok_iff.mp h
  rw [← pure_eq_ok_iff.mp h]
  exact ⟨by simpa using hsha, rfl⟩

theorem deleteId_eq_iff {projectId memoryId projectId' memoryId' : String} :
    deleteOperation ++ ":" ++ projectId ++ ":" ++ memoryId =
        deleteOperation ++ ":" ++ projectId' ++ ":" ++ memoryId' ↔
      projectId = projectId' ∧ memoryId = memoryId' ∨
        Overlaps projectId memoryId projectId' memoryId' := by
  rw [← join_eq_iff]
  simp only [String.append_assoc, String.append_right_inj]

theorem length_of_isSha256 {digest digest' : String} (h : isSha256 digest = true)
    (h' : isSha256 digest' = true) : digest.toList.length = digest'.toList.length := by
  simp only [isSha256, chars_eq_toList, Bool.and_eq_true, decide_eq_true_eq] at h h'
  rw [h.1, h'.1]

theorem promoteId_eq_iff {projectId memoryId contentSha256 projectId' memoryId' contentSha256' : String}
    (hsha : isSha256 contentSha256 = true) (hsha' : isSha256 contentSha256' = true) :
    promoteOperation ++ ":" ++ projectId ++ ":" ++ memoryId ++ ":" ++ contentSha256 =
        promoteOperation ++ ":" ++ projectId' ++ ":" ++ memoryId' ++ ":" ++ contentSha256' ↔
      contentSha256 = contentSha256' ∧ (projectId = projectId' ∧ memoryId = memoryId' ∨
        Overlaps projectId memoryId projectId' memoryId') := by
  rw [← join_eq_iff]
  constructor
  · intro h
    have hchars := congrArg String.toList h
    rw [String.toList_append, String.toList_append (t := contentSha256')] at hchars
    obtain ⟨hjoin, hdigest⟩ := List.append_inj' hchars (length_of_isSha256 hsha hsha')
    refine ⟨String.toList_inj.mp hdigest, ?_⟩
    have hjoin := String.toList_inj.mp hjoin
    rw [String.append_left_inj] at hjoin
    simpa only [String.append_assoc, String.append_right_inj] using hjoin
  · rintro ⟨rfl, h⟩
    have hjoin := congrArg (promoteOperation ++ ":" ++ · ++ ":" ++ contentSha256) h
    simpa only [String.append_assoc] using hjoin

theorem kinds_ne {rest rest' : String} : deleteOperation ++ ":" ++ rest ≠ promoteOperation ++ ":" ++ rest' := by
  intro h
  have hstart := congrArg (fun text => text.toList.take 8) h
  simp only [String.toList_append, List.append_assoc] at hstart
  exact absurd hstart (by simp [deleteOperation, promoteOperation])

/-- Targets with one operation identifier are the same or overlap. -/
theorem Target.eq_or_overlaps {target other : Target} {operation operation' : MemoryOperation}
    (h : target.operation = .ok operation) (h' : other.operation = .ok operation')
    (hsame : operation.operationId = operation'.operationId) :
    target = other ∨ target.Overlaps other := by
  cases target with
  | forget projectId memoryId =>
      rw [memoryDeleteOperation_eq_ok h] at hsame
      cases other with
      | forget projectId' memoryId' =>
          rw [memoryDeleteOperation_eq_ok h'] at hsame
          rcases deleteId_eq_iff.mp hsame with ⟨rfl, rfl⟩ | hoverlaps
          · exact .inl rfl
          · exact .inr hoverlaps
      | promote projectId' memoryId' contentSha256' =>
          rw [(memoryPromoteOperation_eq_ok h').2] at hsame
          simp only [String.append_assoc] at hsame
          exact absurd hsame (by simpa only [String.append_assoc] using kinds_ne)
  | promote projectId memoryId contentSha256 =>
      obtain ⟨hsha, hid⟩ := memoryPromoteOperation_eq_ok h
      rw [hid] at hsame
      cases other with
      | forget projectId' memoryId' =>
          rw [memoryDeleteOperation_eq_ok h'] at hsame
          simp only [String.append_assoc] at hsame
          exact absurd hsame.symm (by simpa only [String.append_assoc] using kinds_ne)
      | promote projectId' memoryId' contentSha256' =>
          obtain ⟨hsha', hid'⟩ := memoryPromoteOperation_eq_ok h'
          rw [hid', promoteId_eq_iff hsha hsha'] at hsame
          obtain ⟨rfl, ⟨rfl, rfl⟩ | hoverlaps⟩ := hsame
          · exact .inl rfl
          · exact .inr ⟨rfl, hoverlaps⟩

/-! ## Runs -/

/-- The approval of a command is one that was issued for it: approved, for its operation,
resource and policy, active and not expired. -/
structure IssuedFor (store : ApprovalStore) (command : Command) (operation : MemoryOperation)
    (approvalId : String) (row : Approval) : Prop where
  named : approvalId ≠ ""
  resolved : command.approvalId = some approvalId
  found : store.get approvalId = some row
  approved : row.decision = .approved
  operationId : row.operationId = operation.operationId
  policyVersion : row.policyVersion = command.policyVersion
  resourceScope : approvalJson (some operation.resourceScope) "resource_scope" =
    .ok row.resourceScopeJson
  active : codeUnitLe row.issuedAt command.now
  unexpired : ¬codeUnitLe row.expiresAt command.now

/-- The refusal of an approval or an operation that was used. -/
def reused : Thrown :=
  approvalError "Approval or operation authorization was already consumed" "REUSED"

theorem verify_eq_ok {store store' : ApprovalStore} {command : Command}
    (h : verify store command = .ok store') :
    ∃ operation approvalId row, command.target.operation = .ok operation ∧
      command.approvalId = some approvalId ∧ store.get approvalId = some row ∧
        row.operationId = operation.operationId ∧
          store' = { store with
            uses := store.uses ++ [⟨approvalId, operation.operationId, command.now⟩] } := by
  obtain ⟨operation, hoperation, h⟩ := bind_eq_ok_iff.mp h
  split at h
  next => cases h
  next approvalId hresolved =>
    obtain ⟨⟨row, later, done⟩, hconsumed, h⟩ := bind_eq_ok_iff.mp h
    obtain ⟨-, husable, rfl⟩ := ApprovalStore.consume_eq_ok hconsumed
    refine ⟨operation, approvalId, row, hoperation, ?_, husable.found, husable.operationId,
      (pure_eq_ok_iff.mp h).symm⟩
    exact (Option.filter_eq_some_iff.mp hresolved).1

/-- A call that succeeded, after which the store was asked for other things. -/
def Succeeded (steps : List Step) (command : Command) : Prop :=
  ∃ before rest store, steps = before ++ .call command :: rest ∧
    verify (after before) command = .ok store

/-- Every use was recorded by a call that succeeded, of an approval for its operation. -/
def UsesExplained (steps : List Step) : Prop :=
  ∀ use ∈ (after steps).uses, ∃ command operation row, Succeeded steps command ∧
    command.target.operation = .ok operation ∧ use.operationId = operation.operationId ∧
      (after steps).get use.approvalId = some row ∧ row.operationId = use.operationId

theorem after_snoc (steps : List Step) (last : Step) :
    after (steps ++ [last]) = step (after steps) last := by
  rw [after, after, List.foldl_append, List.foldl_cons, List.foldl_nil]

theorem Succeeded.snoc {steps : List Step} {command : Command} (h : Succeeded steps command)
    (last : Step) : Succeeded (steps ++ [last]) command := by
  obtain ⟨before, rest, store, rfl, hverified⟩ := h
  exact ⟨before, rest ++ [last], store, by simp, hverified⟩

/-- An approval that is there stays there. -/
theorem get_issue {store store' : ApprovalStore} {record : Json} {approvalId : String}
    {row : Approval} (hissued : store.issue record = .ok store')
    (h : store.get approvalId = some row) : store'.get approvalId = some row := by
  obtain ⟨added, -, -, rfl⟩ := ApprovalStore.issue_eq_ok hissued
  rw [ApprovalStore.get] at h ⊢
  rw [List.find?_append, h, Option.some_or]

theorem usesExplained (steps : List Step) : UsesExplained steps := by
  induction steps using List.reverseRecOn with
  | nil =>
      intro use huse
      cases huse
  | append_singleton past last ih =>
      -- what is explained stays explained as long as the approvals stay
      have hold : ∀ {store : ApprovalStore} {use : ApprovalUse}, use ∈ (after past).uses →
          (∀ {approvalId row}, (after past).get approvalId = some row →
            store.get approvalId = some row) →
          ∃ command operation row, Succeeded (past ++ [last]) command ∧
            command.target.operation = .ok operation ∧ use.operationId = operation.operationId ∧
              store.get use.approvalId = some row ∧ row.operationId = use.operationId := by
        intro store use huse hstays
        obtain ⟨command, operation, row, hsucceeded, hoperation, hid, hrow, hsame⟩ := ih use huse
        exact ⟨command, operation, row, hsucceeded.snoc last, hoperation, hid, hstays hrow, hsame⟩
      intro use huse
      rw [after_snoc] at huse ⊢
      cases last with
      | issue record =>
          cases hissued : (after past).issue record with
          | error err =>
              simp only [step, hissued, Except.toOption, Option.getD_none] at huse ⊢
              exact hold huse id
          | ok store =>
              simp only [step, hissued, Except.toOption, Option.getD_some] at huse ⊢
              obtain ⟨row, -, -, rfl⟩ := ApprovalStore.issue_eq_ok hissued
              exact hold huse (get_issue hissued)
      | call command =>
          cases hverified : verify (after past) command with
          | error err =>
              simp only [step, hverified, Except.toOption, Option.getD_none] at huse ⊢
              exact hold huse id
          | ok store =>
              simp only [step, hverified, Except.toOption, Option.getD_some] at huse ⊢
              obtain ⟨operation, approvalId, row, hoperation, -, hrow, hid, rfl⟩ :=
                verify_eq_ok hverified
              rcases List.mem_append.mp huse with huse | huse
              · exact hold huse id
              · rw [List.mem_singleton.mp huse]
                exact ⟨command, operation, row, ⟨past, [], _, rfl, hverified⟩, hoperation, rfl, hrow,
                  hid⟩

/-- The store refuses the approval of a command as used. -/
def RefusedAsReused (store : ApprovalStore) (command : Command) (operation : MemoryOperation)
    (approvalId : String) : Prop :=
  ∃ scopeJson, approvalJson (some operation.resourceScope) "resource_scope" = .ok scopeJson ∧
    store.usable
      { approvalId, operationId := operation.operationId, resourceScope := operation.resourceScope,
        policyVersion := command.policyVersion, now := command.now } scopeJson = .error reused

section

variable {store : ApprovalStore} {command : Command} {operation : MemoryOperation}
  {approvalId : String} {row : Approval}

/-- An approval that was issued for a command is refused as used exactly when a use names it or its
operation. -/
theorem IssuedFor.used_iff (h : IssuedFor store command operation approvalId row) :
    RefusedAsReused store command operation approvalId ↔
      ∃ use ∈ store.uses, use.approvalId = approvalId ∨ use.operationId = operation.operationId := by
  have hany : (store.uses.any fun use =>
      use.approvalId = approvalId || use.operationId = operation.operationId) = true ↔
      ∃ use ∈ store.uses, use.approvalId = approvalId ∨ use.operationId = operation.operationId := by
    simp only [List.any_eq_true, Bool.or_eq_true, decide_eq_true_eq]
  rw [← hany]
  constructor
  · rintro ⟨scopeJson, hscope, hrefused⟩
    obtain rfl := Except.ok.inj (h.resourceScope.symm.trans hscope)
    by_contra hunused
    rw [Bool.not_eq_true] at hunused
    simp only [ApprovalStore.usable, h.found, hunused, h.approved, h.operationId, h.policyVersion,
      h.active, h.unexpired, ne_eq, not_true_eq_false, decide_false, decide_true, Bool.not_true]
      at hrefused
    cases hrefused
  · intro hused
    refine ⟨_, h.resourceScope, ?_⟩
    simp only [ApprovalStore.usable, h.found, hused]
    rfl

end

/-- Operation identifiers tell memories apart exactly where these do not overlap, and the approval
of a memory that overlaps none of the memories asked for before is refused as used only once the
operation itself has succeeded. -/
theorem operations_independent (steps : List Step) :
    (∀ projectId memoryId projectId' memoryId' operation operation',
      memoryDeleteOperation projectId memoryId = .ok operation →
        memoryDeleteOperation projectId' memoryId' = .ok operation' →
          (projectId, memoryId) ≠ (projectId', memoryId') →
            (operation.operationId ≠ operation'.operationId ↔
              ¬ Overlaps projectId memoryId projectId' memoryId')) ∧
    (∀ projectId memoryId contentSha256 projectId' memoryId' contentSha256' operation operation',
      memoryPromoteOperation projectId memoryId contentSha256 = .ok operation →
        memoryPromoteOperation projectId' memoryId' contentSha256' = .ok operation' →
          (projectId, memoryId, contentSha256) ≠ (projectId', memoryId', contentSha256') →
            (operation.operationId ≠ operation'.operationId ↔
              ¬ (contentSha256 = contentSha256' ∧
                Overlaps projectId memoryId projectId' memoryId'))) ∧
    ∀ command operation approvalId row, command.target.operation = .ok operation →
      IssuedFor (after steps) command operation approvalId row →
        (∀ other, .call other ∈ steps → ¬ other.target.Overlaps command.target) →
          RefusedAsReused (after steps) command operation approvalId →
            ∃ other, Succeeded steps other ∧ other.target = command.target := by
  refine ⟨?_, ?_, ?_⟩
  · intro projectId memoryId projectId' memoryId' operation operation' h h' hne
    rw [memoryDeleteOperation_eq_ok h, memoryDeleteOperation_eq_ok h', ne_eq, deleteId_eq_iff]
    rw [ne_eq, Prod.mk.injEq] at hne
    exact not_congr (or_iff_right hne)
  · intro projectId memoryId contentSha256 projectId' memoryId' contentSha256' operation operation'
      h h' hne
    obtain ⟨hsha, hid⟩ := memoryPromoteOperation_eq_ok h
    obtain ⟨hsha', hid'⟩ := memoryPromoteOperation_eq_ok h'
    rw [hid, hid', ne_eq, promoteId_eq_iff hsha hsha']
    refine not_congr ⟨?_, fun hoverlaps => ⟨hoverlaps.1, .inr hoverlaps.2⟩⟩
    rintro ⟨rfl, ⟨rfl, rfl⟩ | hoverlaps⟩
    · exact absurd rfl hne
    · exact ⟨rfl, hoverlaps⟩
  · intro command operation approvalId row hoperation hissued hapart hrefused
    obtain ⟨use, huse, hused⟩ := hissued.used_iff.mp hrefused
    obtain ⟨other, otherOperation, otherRow, hsucceeded, hother, hid, hrow, hsame⟩ :=
      usesExplained steps use huse
    have hids : otherOperation.operationId = operation.operationId := by
      rcases hused with rfl | hused
      · obtain rfl := Option.some.inj (hrow.symm.trans hissued.found)
        rw [← hid, ← hsame, hissued.operationId]
      · rw [← hid, hused]
    refine ⟨other, hsucceeded, ?_⟩
    obtain ⟨before, rest, store, rfl, -⟩ := hsucceeded
    rcases Target.eq_or_overlaps hother hoperation hids with heq | hoverlaps
    · exact heq
    · exact absurd hoverlaps (hapart other (List.mem_append_right _ List.mem_cons_self))

/-! ## Sample approvals -/

/-- An approval that an operator issued for a target for one day. -/
def sampleApproval (approvalId operationId projectId memoryId : String) : Json :=
  .obj [("approval_id", .str approvalId), ("operation_id", .str operationId),
    ("authorizer", .obj [("id", .str "operator"), ("type", .str "operator")]),
    ("resource_scope", .obj [("project_id", .str projectId), ("memory_id", .str memoryId)]),
    ("issued_at", .str "2026-01-01T00:00:00.000Z"), ("expires_at", .str "2026-01-02T00:00:00.000Z"),
    ("decision", .str "approved"), ("policy_version", .str "hseos-operational-v1"),
    ("evidence_ref", .str "evidence")]

def sampleCommand (projectId memoryId approvalId : String) : Command where
  target := .forget projectId memoryId
  policyVersion := "hseos-operational-v1"
  approvalId := some approvalId
  now := "2026-01-01T12:00:00.000Z"
  appended := .ok ()

/-- The memory `c` of project `a:b` is deleted, and an approval is issued for `b:c` of `a`. -/
def sampleSteps : List Step :=
  [.issue (sampleApproval "first" "memory.delete:a:b:c" "a:b" "c"),
    .call (sampleCommand "a:b" "c" "first"),
    .issue (sampleApproval "second" "memory.delete:a:b:c" "a" "b:c")]

/-- The approval with an identifier was issued for a command, and a use names its operation. -/
def refusesIssued (store : ApprovalStore) (command : Command) (approvalId : String) : Bool :=
  match command.target.operation with
  | .ok operation =>
      (store.get approvalId).any fun row =>
        approvalId ≠ "" && command.approvalId = some approvalId && row.decision = .approved &&
          row.operationId = operation.operationId && row.policyVersion = command.policyVersion &&
            (approvalJson (some operation.resourceScope) "resource_scope").toOption =
              some row.resourceScopeJson &&
                codeUnitLe row.issuedAt command.now && !codeUnitLe row.expiresAt command.now &&
                  store.uses.any fun use =>
                    use.approvalId = approvalId || use.operationId = operation.operationId
  | .error _ => false

theorem eq_ok_of_toOption {α : Type} {result : Except Thrown α} {value : α}
    (h : result.toOption = some value) : result = .ok value := by
  cases result with
  | error err => cases h
  | ok found => rw [Option.some.inj h]

theorem exists_of_refusesIssued (store : ApprovalStore) (command : Command) (approvalId : String)
    (h : refusesIssued store command approvalId = true) :
    ∃ operation row, command.target.operation = .ok operation ∧
      IssuedFor store command operation approvalId row ∧
        RefusedAsReused store command operation approvalId := by
  unfold refusesIssued at h
  split at h
  next operation hoperation =>
    obtain ⟨row, hfound, h⟩ := (Option.any_eq_true _ _).mp h
    simp only [Bool.and_eq_true, decide_eq_true_eq, Bool.not_eq_true', decide_eq_false_iff_not]
      at h
    obtain ⟨⟨⟨⟨⟨⟨⟨⟨hnamed, hresolved⟩, happroved⟩, hid⟩, hpolicy⟩, hscope⟩, hactive⟩, hunexpired⟩,
      hused⟩ := h
    have hissued : IssuedFor store command operation approvalId row :=
      { named := hnamed, resolved := hresolved, found := hfound, approved := happroved,
        operationId := hid, policyVersion := hpolicy,
        resourceScope := eq_ok_of_toOption hscope, active := hactive,
        unexpired := by simpa using hunexpired }
    refine ⟨operation, row, hoperation, hissued, hissued.used_iff.mpr ?_⟩
    simpa only [List.any_eq_true, Bool.or_eq_true, decide_eq_true_eq] using hused
  next => cases h

/-- The memory `b` of project `a` is deleted, and a second approval is issued for it. -/
def sampleRepeats : List Step :=
  [.issue (sampleApproval "first" "memory.delete:a:b" "a" "b"),
    .call (sampleCommand "a" "b" "first"),
    .issue (sampleApproval "second" "memory.delete:a:b" "a" "b")]

theorem operations_independent_sample :
    (∃ operation operation', memoryDeleteOperation "a" "b" = .ok operation ∧
      memoryDeleteOperation "a" "c" = .ok operation' ∧
        (operation.operationId ≠ operation'.operationId ↔ ¬ Overlaps "a" "b" "a" "c")) ∧
    ∃ other, Succeeded sampleRepeats other ∧ other.target = .forget "a" "b" := by
  refine ⟨⟨_, _, rfl, rfl, ?_⟩, ?_⟩
  · exact (operations_independent sampleRepeats).1 "a" "b" "a" "c" _ _ rfl rfl (by decide)
  · obtain ⟨operation, row, hoperation, hissued, hrefused⟩ :=
      exists_of_refusesIssued (after sampleRepeats) (sampleCommand "a" "b" "second") "second"
        (by decide +kernel)
    refine (operations_independent sampleRepeats).2.2 (sampleCommand "a" "b" "second") operation
      "second" row hoperation hissued ?_ hrefused
    intro other hcall hoverlaps
    simp only [sampleRepeats, List.mem_cons, List.not_mem_nil, or_false] at hcall
    rcases hcall with hcall | hcall | hcall
    · cases hcall
    · cases hcall
      exact hoverlaps.elim not_extends_self not_extends_self
    · cases hcall

/-- The approval of a memory was refused because that of an overlapping one had been used. -/
theorem approval_refused_by_another :
    (∃ operation, memoryDeleteOperation "a:b" "c" = .ok operation ∧
      ∃ operation', memoryDeleteOperation "a" "b:c" = .ok operation' ∧
        operation.operationId = operation'.operationId) ∧
    ∃ operation row, (sampleCommand "a" "b:c" "second").target.operation = .ok operation ∧
      IssuedFor (after sampleSteps) (sampleCommand "a" "b:c" "second") operation "second" row ∧
        RefusedAsReused (after sampleSteps) (sampleCommand "a" "b:c" "second") operation "second" ∧
          ∀ other, Succeeded sampleSteps other → other.target = .forget "a:b" "c" := by
  refine ⟨⟨_, rfl, _, rfl, rfl⟩, ?_⟩
  obtain ⟨operation, row, hoperation, hissued, hrefused⟩ :=
    exists_of_refusesIssued (after sampleSteps) (sampleCommand "a" "b:c" "second") "second"
      (by decide +kernel)
  refine ⟨operation, row, hoperation, hissued, hrefused, ?_⟩
  rintro other ⟨before, rest, store, hsteps, -⟩
  have hcall : Step.call other ∈ sampleSteps := by
    rw [hsteps]
    exact List.mem_append_right _ List.mem_cons_self
  simp only [sampleSteps, List.mem_cons, List.not_mem_nil, or_false] at hcall
  rcases hcall with hcall | hcall | hcall
  · cases hcall
  · cases hcall
    rfl
  · cases hcall

end Hseos.Memory
