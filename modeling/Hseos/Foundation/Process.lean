import Hseos.Foundation.Run

/-! # Processes over a shared store

Programs that work on what they share with others by requests. A request is one
atomic step; between two requests of a process the others take theirs. The rules
say what a process secures whatever the others do, and what holds in every pool of
processes that each secure their part.
-/

namespace Hseos

/-- A computation that asks one request after the other. -/
inductive Process (Request : Type) (Reply : Request → Type) (α : Type) : Type where
  | done (value : α)
  | ask (request : Request) (next : Reply request → Process Request Reply α)

namespace Process

variable {Request : Type} {Reply : Request → Type} {α β σ : Type}

def bind : Process Request Reply α → (α → Process Request Reply β) → Process Request Reply β
  | .done value, f => f value
  | .ask request next, f => .ask request fun reply => (next reply).bind f

instance : Monad (Process Request Reply) where
  pure := .done
  bind := Process.bind

/-- The process of one request. -/
def request (request : Request) : Process Request Reply (Reply request) := .ask request .done

/-! ## Interference -/

/-- What a process can count on: how requests are answered, what holds of the store, and what
the others may have changed since; and what it lets the others count on. -/
structure Setting (Request : Type) (Reply : Request → Type) (σ : Type) where
  answers : (request : Request) → σ → Reply request → σ → Prop
  invariant : σ → Prop
  rely : σ → σ → Prop
  guarantee : σ → σ → Prop

section

variable {setting : Setting Request Reply σ}

/-- From a store on, each request of the process keeps its guarantee, and the process ends
with its postcondition. -/
def Secures (setting : Setting Request Reply σ) (post : α → σ → Prop) :
    Process Request Reply α → σ → Prop
  | .done value, s => post value s
  | .ask request next, s => ∀ s', setting.rely s s' → setting.invariant s' →
      ∀ reply s'', setting.answers request s' reply s'' →
        setting.guarantee s' s'' ∧ Secures setting post (next reply) s''

theorem Secures.imp {post post' : α → σ → Prop} {process : Process Request Reply α} {s : σ}
    (h : Secures setting post process s) (himp : ∀ value s, post value s → post' value s) :
    Secures setting post' process s := by
  induction process generalizing s with
  | done value => exact himp value s h
  | ask request next ih =>
      intro s' hrely hinvariant reply s'' hanswers
      obtain ⟨hguarantee, hnext⟩ := h s' hrely hinvariant reply s'' hanswers
      exact ⟨hguarantee, ih reply hnext⟩

theorem Secures.bind {mid : α → σ → Prop} {post : β → σ → Prop}
    {process : Process Request Reply α} {f : α → Process Request Reply β} {s : σ}
    (h : Secures setting mid process s)
    (hf : ∀ value s, mid value s → Secures setting post (f value) s) :
    Secures setting post (process >>= f) s := by
  induction process generalizing s with
  | done value => exact hf value s h
  | ask request next ih =>
      intro s' hrely hinvariant reply s'' hanswers
      obtain ⟨hguarantee, hnext⟩ := h s' hrely hinvariant reply s'' hanswers
      exact ⟨hguarantee, ih reply hnext⟩

/-- What a process secures from a store it secures after any step of the others. -/
theorem Secures.mono {post : α → σ → Prop} {process : Process Request Reply α} {s s' : σ}
    (h : Secures setting post process s) (hrely : setting.rely s s')
    (htrans : ∀ {a b c}, setting.rely a b → setting.rely b c → setting.rely a c)
    (hpost : ∀ {value a b}, setting.rely a b → post value a → post value b) :
    Secures setting post process s' := by
  cases process with
  | done value => exact hpost hrely h
  | ask request next =>
      intro later hlater
      exact h later (htrans hrely hlater)

end

end Process

/-! ## Programs that may fail -/

/-- A process whose value is a result or a failure. -/
abbrev Program (Request : Type) (Reply : Request → Type) (ε α : Type) :=
  ExceptT ε (Process Request Reply) α

namespace Program

open Process

variable {Request : Type} {Reply : Request → Type} {ε α β σ : Type}

/-- One request whose reply is a result or a failure. -/
def perform {Value : Request → Type} (request : Request) :
    Program Request (fun request => Except ε (Value request)) ε (Value request) :=
  ExceptT.mk (Process.request request)

/-- `if (bad) throw err`. -/
def check (bad : Bool) (err : ε) : Program Request Reply ε Unit := liftM (reject bad err)

/-- One postcondition for a result, and one for a failure. -/
def Ends (post : α → σ → Prop) (failed : ε → σ → Prop) : Except ε α → σ → Prop
  | .ok value, s => post value s
  | .error err, s => failed err s

/-- What a program secures. -/
def Secures (setting : Setting Request Reply σ) (post : α → σ → Prop) (failed : ε → σ → Prop)
    (program : Program Request Reply ε α) (s : σ) : Prop :=
  Process.Secures setting (Ends post failed) program.run s

section

variable {setting : Setting Request Reply σ} {post : α → σ → Prop} {after : β → σ → Prop}
  {failed : ε → σ → Prop} {program : Program Request Reply ε α} {s : σ}

theorem secures_pure {value : α} (h : post value s) :
    Secures setting post failed (pure value : Program Request Reply ε α) s := h

theorem secures_throw {err : ε} (h : failed err s) :
    Secures setting post failed (throw err : Program Request Reply ε α) s := h

theorem secures_lift {result : Except ε α} (hok : ∀ value, result = .ok value → post value s)
    (herror : ∀ err, result = .error err → failed err s) :
    Secures setting post failed (liftM result : Program Request Reply ε α) s := by
  cases result with
  | ok value => exact hok value rfl
  | error err => exact herror err rfl

theorem Secures.bind {f : α → Program Request Reply ε β}
    (h : Secures setting post failed program s)
    (hf : ∀ value s, post value s → Secures setting after failed (f value) s) :
    Secures setting after failed (program >>= f) s := by
  refine Process.Secures.bind h ?_
  intro result s hresult
  cases result with
  | ok value => exact hf value s hresult
  | error err => exact hresult

theorem Secures.map {f : α → β}
    (h : Secures setting (fun value => after (f value)) failed program s) :
    Secures setting after failed (f <$> program) s := by
  refine Process.Secures.bind h ?_
  intro result s hresult
  cases result with
  | ok value => exact hresult
  | error err => exact hresult

theorem Secures.check {bad : Bool} {err : ε} {f : Unit → Program Request Reply ε β}
    (herror : bad = true → failed err s)
    (hf : bad = false → Secures setting after failed (f ()) s) :
    Secures setting after failed (Program.check bad err >>= f) s := by
  cases bad with
  | true => exact herror rfl
  | false => exact hf rfl

theorem Secures.lift_bind {result : Except ε α} {f : α → Program Request Reply ε β}
    (hok : ∀ value, result = .ok value → Secures setting after failed (f value) s)
    (herror : ∀ err, result = .error err → failed err s) :
    Secures setting after failed ((liftM result : Program Request Reply ε α) >>= f) s := by
  cases result with
  | ok value => exact hok value rfl
  | error err => exact herror err rfl

theorem Secures.tryCatch {handler : ε → Program Request Reply ε α} {caught : ε → σ → Prop}
    (h : Secures setting post caught program s)
    (hhandler : ∀ err s, caught err s → Secures setting post failed (handler err) s) :
    Secures setting post failed (tryCatch program handler) s := by
  refine Process.Secures.bind h ?_
  intro result s hresult
  cases result with
  | ok value => exact hresult
  | error err => exact hhandler err s hresult

theorem Secures.imp {post' : α → σ → Prop} {failed' : ε → σ → Prop}
    (h : Secures setting post failed program s) (hpost : ∀ value s, post value s → post' value s)
    (hfailed : ∀ err s, failed err s → failed' err s) :
    Secures setting post' failed' program s := by
  refine Process.Secures.imp h ?_
  intro result s hresult
  cases result with
  | ok value => exact hpost value s hresult
  | error err => exact hfailed err s hresult

end

end Program

end Hseos
