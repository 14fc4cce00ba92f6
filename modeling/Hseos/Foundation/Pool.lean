import Hseos.Foundation.Process
import Mathlib.Data.List.InsertIdx

/-! # Pools of processes

Any number of processes that were started by calls and work on one store. A scheduler
picks which of them takes its next step; a process may stop at any point.
-/

namespace Hseos

/-- A process and the call that started it. -/
structure Thread (Call Request : Type) (Reply : Request → Type) (α : Type) where
  call : Call
  process : Process Request Reply α

structure Pool (Call Request : Type) (Reply : Request → Type) (α σ : Type) where
  shared : σ
  threads : List (Thread Call Request Reply α)

/-- What a scheduler may do next. -/
inductive Act (Call Input : Type) where
  | start (call : Call)
  | perform (index : Nat) (input : Input)
  | resume (index : Nat)
  | stop (index : Nat)
  deriving DecidableEq

/-- How calls run: their processes, with which process a loop goes on, and what the store and
the world behind it answer to a request. -/
structure System (Call Request : Type) (Reply : Request → Type) (α Input σ : Type) where
  process : Call → Process Request Reply α
  again : Call → α → Option (Process Request Reply α)
  answer : (request : Request) → Input → σ → Option (Reply request × σ)

namespace System

variable {Call Request : Type} {Reply : Request → Type} {α Input σ : Type}

abbrev PoolOf (_ : System Call Request Reply α Input σ) := Pool Call Request Reply α σ

abbrev ThreadOf (_ : System Call Request Reply α Input σ) := Thread Call Request Reply α

variable (system : System Call Request Reply α Input σ)

/-- One thread after the reply to its request. -/
def performThread (thread : system.ThreadOf) (input : Input) (shared : σ) :
    Option (system.ThreadOf × σ) :=
  match thread.process with
  | .done _ => none
  | .ask request next => (system.answer request input shared).map fun answered =>
      ({ thread with process := next answered.1 }, answered.2)

/-- One thread whose loop goes on. -/
def resumeThread (thread : system.ThreadOf) : Option system.ThreadOf :=
  match thread.process with
  | .done value => (system.again thread.call value).map fun process => { thread with process }
  | .ask .. => none

def act (pool : system.PoolOf) : Act Call Input → Except Disabled system.PoolOf
  | .start call =>
      .ok { pool with threads := pool.threads ++ [⟨call, system.process call⟩] }
  | .perform index input =>
      match pool.threads[index]?.bind fun thread =>
          system.performThread thread input pool.shared with
      | some (thread, shared) => .ok ⟨shared, pool.threads.set index thread⟩
      | none => .error .disabled
  | .resume index =>
      match pool.threads[index]?.bind system.resumeThread with
      | some thread => .ok { pool with threads := pool.threads.set index thread }
      | none => .error .disabled
  | .stop index => .ok { pool with threads := pool.threads.eraseIdx index }

/-- The pools that acts lead to, each of them one that the pool before it allows. -/
inductive Reaches (allowed : system.PoolOf → Act Call Input → Prop) (start : system.PoolOf) :
    system.PoolOf → Prop where
  | start : Reaches allowed start start
  | step {pool next : system.PoolOf} {act : Act Call Input} (hreach : Reaches allowed start pool)
      (hallowed : allowed pool act) (hact : system.act pool act = .ok next) :
      Reaches allowed start next

/-- An act, unless it is not allowed. -/
def actIf (allowed : system.PoolOf → Act Call Input → Bool) (pool : system.PoolOf)
    (act : Act Call Input) : Except Disabled system.PoolOf :=
  if allowed pool act then system.act pool act else .error .disabled

variable {system} {allowed : system.PoolOf → Act Call Input → Prop} {pool next : system.PoolOf}

theorem Reaches.mono {allowed' : system.PoolOf → Act Call Input → Prop} {start : system.PoolOf}
    (h : system.Reaches allowed start pool) (himp : ∀ pool act, allowed pool act → allowed' pool act) :
    system.Reaches allowed' start pool := by
  induction h with
  | start => exact .start
  | step _ hallowed hact ih => exact ih.step (himp _ _ hallowed) hact

/-- The pool that a list of allowed acts runs to is reached. -/
theorem reaches_of_run {check : system.PoolOf → Act Call Input → Bool} {start : system.PoolOf}
    {acts : List (Act Call Input)} (h : run (system.actIf check) start acts = .ok pool) :
    system.Reaches (fun pool act => check pool act = true) start pool := by
  refine run_invariant (P := fun pool => system.Reaches _ start pool) .start ?_ h
  intro mid act next hmid hact
  rw [actIf] at hact
  split at hact
  next hallowed => exact hmid.step hallowed hact
  next => cases hact

/-! ## Acts -/

/-- A thread of the pool that is about to make a request. -/
structure Performs (pool : system.PoolOf) (index : Nat) (input : Input) (call : Call)
    (request : Request) (following : Reply request → Process Request Reply α)
    (reply : Reply request) (shared : σ) : Prop where
  thread : pool.threads[index]? = some ⟨call, .ask request following⟩
  answered : system.answer request input pool.shared = some (reply, shared)

theorem act_perform_eq_ok_iff {index : Nat} {input : Input} :
    system.act pool (.perform index input) = .ok next ↔
      ∃ call request following reply shared,
        Performs pool index input call request following reply shared ∧
          next = ⟨shared, pool.threads.set index ⟨call, following reply⟩⟩ := by
  rw [act]
  constructor
  · intro h
    split at h
    next thread shared hperformed =>
      obtain ⟨⟨call, process⟩, hthread, hperformed⟩ := Option.bind_eq_some_iff.mp hperformed
      cases process with
      | done value => cases hperformed
      | ask request following =>
          obtain ⟨⟨reply, shared'⟩, hanswer, heq⟩ := Option.map_eq_some_iff.mp hperformed
          cases heq
          exact ⟨call, request, following, reply, shared', ⟨hthread, hanswer⟩,
            (Except.ok.inj h).symm⟩
    next => cases h
  · rintro ⟨call, request, following, reply, shared, h, rfl⟩
    have hperformed : (pool.threads[index]?.bind fun thread =>
        system.performThread thread input pool.shared) =
          some (⟨call, following reply⟩, shared) := by
      rw [h.thread, Option.bind_some, performThread]
      simp only [h.answered, Option.map_some]
    rw [hperformed]

theorem act_resume_eq_ok {index : Nat} (h : system.act pool (.resume index) = .ok next) :
    ∃ call value process, pool.threads[index]? = some ⟨call, .done value⟩ ∧
      system.again call value = some process ∧
        next = { pool with threads := pool.threads.set index ⟨call, process⟩ } := by
  rw [act] at h
  split at h
  next thread hresumed =>
    obtain ⟨⟨call, process⟩, hthread, hresumed⟩ := Option.bind_eq_some_iff.mp hresumed
    cases process with
    | done value =>
        obtain ⟨process, hagain, rfl⟩ := Option.map_eq_some_iff.mp hresumed
        exact ⟨call, value, process, hthread, hagain, (Except.ok.inj h).symm⟩
    | ask => cases hresumed
  next => cases h

/-! ## What pools keep -/

/-- What each call counts on and guarantees, what its process ends with, and that the acts
which are allowed fit together. Each thread keeps a ghost of its own: what it has come to
know or may still do, which the replies to it change and nothing else. -/
structure Discipline (Ghost : Type) (system : System Call Request Reply α Input σ)
    (allowed : system.PoolOf → Act Call Input → Prop) where
  setting : Call → Process.Setting Request Reply (σ × Ghost)
  post : Call → α → σ × Ghost → Prop
  /-- What holds of the store and the ghosts of all threads. -/
  together : σ → List Ghost → Prop
  initial : Ghost
  book : (request : Request) → Reply request → Ghost → Ghost
  refl : ∀ call s, (setting call).rely s s
  trans : ∀ call {a b c}, (setting call).rely a b → (setting call).rely b c →
    (setting call).rely a c
  stable : ∀ call {value a b}, (setting call).rely a b → post call value a → post call value b
  invariant : ∀ call {s ghosts ghost}, together s ghosts → ghost ∈ ghosts →
    (setting call).invariant (s, ghost)
  joins : ∀ {s ghosts}, together s ghosts → together s (ghosts ++ [initial])
  leaves : ∀ {s ghosts} index, together s ghosts → together s (ghosts.eraseIdx index)
  answers : ∀ {pool : system.PoolOf} {index input call request following reply shared} ghost,
    allowed pool (.perform index input) →
      Performs pool index input call request following reply shared →
        (setting call).answers request (pool.shared, ghost) reply (shared, book request reply ghost)
  kept : ∀ {pool : system.PoolOf} {index input call request following reply shared ghosts ghost},
    allowed pool (.perform index input) → Performs pool index input call request following reply shared →
      together pool.shared ghosts → ghosts[index]? = some ghost →
        (setting call).guarantee (pool.shared, ghost) (shared, book request reply ghost) →
          together shared (ghosts.set index (book request reply ghost))
  relies : ∀ call other {a b ghost}, (setting call).guarantee a b →
    (setting other).rely (a.1, ghost) (b.1, ghost)
  starts : ∀ {call s}, (setting call).invariant (s, initial) →
    Process.Secures (setting call) (post call) (system.process call) (s, initial)
  resumes : ∀ {call value process s}, (setting call).invariant s → post call value s →
    system.again call value = some process →
      Process.Secures (setting call) (post call) process s

namespace Discipline

variable {Ghost : Type} (d : Discipline Ghost system allowed)

/-- The threads of a pool with their ghosts: these and the store fit together, and every
thread secures its part. -/
structure Keeps (pool : system.PoolOf) (members : List (system.ThreadOf × Ghost)) : Prop where
  threads : members.map Prod.fst = pool.threads
  together : d.together pool.shared (members.map Prod.snd)
  secures : ∀ member ∈ members, Process.Secures (d.setting member.1.call) (d.post member.1.call)
    member.1.process (pool.shared, member.2)

def Holds (pool : system.PoolOf) : Prop := ∃ members, d.Keeps pool members

variable {d} {members : List (system.ThreadOf × Ghost)}

theorem Keeps.member {index : Nat} {thread : system.ThreadOf} (h : d.Keeps pool members)
    (hthread : pool.threads[index]? = some thread) :
    ∃ ghost, members[index]? = some (thread, ghost) := by
  rw [← h.threads, List.getElem?_map] at hthread
  obtain ⟨⟨other, ghost⟩, hmember, heq⟩ := Option.map_eq_some_iff.mp hthread
  exact ⟨ghost, heq ▸ hmember⟩

theorem Keeps.invariant {thread : system.ThreadOf} {ghost : Ghost} (h : d.Keeps pool members)
    (hmember : (thread, ghost) ∈ members) : (d.setting thread.call).invariant (pool.shared, ghost) :=
  d.invariant thread.call h.together (List.mem_map_of_mem hmember)

/-- A request of one thread keeps its guarantee, and leaves what every thread secures. -/
theorem Keeps.performed {index : Nat} {input : Input} {call : Call} {request : Request}
    {following : Reply request → Process Request Reply α} {reply : Reply request} {shared : σ}
    {ghost : Ghost} (h : d.Keeps pool members) (hallowed : allowed pool (.perform index input))
    (hperforms : Performs pool index input call request following reply shared)
    (hmember : members[index]? = some (⟨call, .ask request following⟩, ghost)) :
    (d.setting call).guarantee (pool.shared, ghost) (shared, d.book request reply ghost) ∧
      d.Keeps ⟨shared, pool.threads.set index ⟨call, following reply⟩⟩
        (members.set index (⟨call, following reply⟩, d.book request reply ghost)) := by
  have hmem := List.mem_of_getElem? hmember
  have hsecures := h.secures _ hmem
  obtain ⟨hguarantee, hnext⟩ := hsecures (pool.shared, ghost) (d.refl call _) (h.invariant hmem)
    reply _ (d.answers ghost hallowed hperforms)
  have hghost : (members.map Prod.snd)[index]? = some ghost := by
    rw [List.getElem?_map, hmember, Option.map_some]
  refine ⟨hguarantee, ?_, ?_, ?_⟩
  · rw [List.map_set, h.threads]
  · rw [List.map_set]
    exact d.kept hallowed hperforms h.together hghost hguarantee
  · intro member hmember
    rcases List.mem_or_eq_of_mem_set hmember with hold | rfl
    · exact (h.secures member hold).mono (d.relies call member.1.call hguarantee)
        (d.trans member.1.call) (d.stable member.1.call)
    · exact hnext

/-- What holds of a pool holds after an act that is allowed. -/
theorem Keeps.act {act : Act Call Input} (h : d.Keeps pool members) (hallowed : allowed pool act)
    (hact : system.act pool act = .ok next) : d.Holds next := by
  cases act with
  | start call =>
      cases hact
      have htogether := d.joins h.together
      have hinvariant := d.invariant call htogether (List.mem_append_right _ List.mem_cons_self)
      refine ⟨members ++ [(⟨call, system.process call⟩, d.initial)], ?_, ?_, ?_⟩
      · rw [List.map_append, h.threads]
        rfl
      · rw [List.map_append]
        exact htogether
      · intro member hmember
        rcases List.mem_append.mp hmember with hmember | hmember
        · exact h.secures member hmember
        · rw [List.mem_singleton.mp hmember]
          exact d.starts hinvariant
  | perform index input =>
      obtain ⟨call, request, following, reply, shared, hperforms, rfl⟩ :=
        act_perform_eq_ok_iff.mp hact
      obtain ⟨ghost, hmember⟩ := h.member hperforms.thread
      exact ⟨_, (h.performed hallowed hperforms hmember).2⟩
  | resume index =>
      obtain ⟨call, value, process, hthread, hagain, rfl⟩ := act_resume_eq_ok hact
      obtain ⟨ghost, hmember⟩ := h.member hthread
      have hmem := List.mem_of_getElem? hmember
      have hghost : (members.map Prod.snd)[index]? = some ghost := by
        rw [List.getElem?_map, hmember, Option.map_some]
      refine ⟨members.set index (⟨call, process⟩, ghost), ?_, ?_, ?_⟩
      · rw [List.map_set, h.threads]
      · obtain ⟨hindex, rfl⟩ := List.getElem?_eq_some_iff.mp hghost
        rw [List.map_set, List.set_getElem_self hindex]
        exact h.together
      · intro member hset
        rcases List.mem_or_eq_of_mem_set hset with hold | rfl
        · exact h.secures member hold
        · exact d.resumes (d.invariant call h.together (List.mem_of_getElem? hghost)) (h.secures _ hmem) hagain
  | stop index =>
      cases hact
      refine ⟨members.eraseIdx index, ?_, ?_, ?_⟩
      · rw [← List.eraseIdx_map, h.threads]
      · rw [← List.eraseIdx_map]
        exact d.leaves index h.together
      · exact fun member hmember => h.secures member (List.mem_of_mem_eraseIdx hmember)

/-- What holds of a pool holds of every pool that allowed acts lead to. -/
theorem Holds.reaches {start : system.PoolOf} (h : d.Holds start)
    (hreach : system.Reaches allowed start pool) : d.Holds pool := by
  induction hreach with
  | start => exact h
  | step _ hallowed hact ih =>
      obtain ⟨members, hkeeps⟩ := ih
      exact hkeeps.act hallowed hact

end Discipline

end System

end Hseos
