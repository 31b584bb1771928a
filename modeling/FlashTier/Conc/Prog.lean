/-
Programs of atomic steps over a shared state. An `Act` is one critical section: run by a thread,
with the environment's answers to the calls it makes, it ends in a value or an error and leaves a
state, which survives an error. A `Prog` is a thread's code: a sequence of guarded sections, each
chosen by the results of the earlier ones; between two sections other threads may run.
-/
import Mathlib.Tactic.Basic

namespace Conc

/-! ## Critical sections -/

/-- A critical section: the running thread, the environment's answers and the state before give a
value or an error and the state after. -/
def Act (Ω S E α : Type) : Type := Nat → Ω → S → Except E α × S

namespace Act

variable {Ω S E α β : Type}

/-- Continue after a section, whether it returned or threw. -/
def andThen (x : Act Ω S E α) (f : Except E α → Act Ω S E β) : Act Ω S E β :=
  fun t ω σ => f (x t ω σ).1 t ω (x t ω σ).2

/-- A section that only ends, with a value or an error. -/
def done (r : Except E α) : Act Ω S E α := fun _ _ σ => (r, σ)

instance : Monad (Act Ω S E) where
  pure a := done (.ok a)
  bind x f := x.andThen fun
    | .ok a => f a
    | .error e => done (.error e)

instance : MonadExcept E (Act Ω S E) where
  throw e := done (.error e)
  tryCatch x h := x.andThen fun
    | .ok a => done (.ok a)
    | .error e => h e

/-- The running thread. -/
def self : Act Ω S E Nat := fun t _ σ => (.ok t, σ)

/-- The environment's answers. -/
def env : Act Ω S E Ω := fun _ ω σ => (.ok ω, σ)

/-- The state. -/
def get : Act Ω S E S := fun _ _ σ => (.ok σ, σ)

/-- Change the state. -/
def modify (f : S → S) : Act Ω S E Unit := fun _ _ σ => (.ok (), f σ)

variable (t : Nat) (ω : Ω) (σ : S)

@[simp] theorem pure_apply (a : α) : (pure a : Act Ω S E α) t ω σ = (.ok a, σ) := rfl

@[simp] theorem throw_apply (e : E) : (throw e : Act Ω S E α) t ω σ = (.error e, σ) := rfl

@[simp] theorem self_apply : (self : Act Ω S E Nat) t ω σ = (.ok t, σ) := rfl

@[simp] theorem env_apply : (env : Act Ω S E Ω) t ω σ = (.ok ω, σ) := rfl

@[simp] theorem get_apply : (get : Act Ω S E S) t ω σ = (.ok σ, σ) := rfl

@[simp] theorem modify_apply (f : S → S) : (modify f : Act Ω S E Unit) t ω σ = (.ok (), f σ) := rfl

@[simp] theorem bind_apply (x : Act Ω S E α) (f : α → Act Ω S E β) :
    (x >>= f) t ω σ = match x t ω σ with
      | (.ok a, σ') => f a t ω σ'
      | (.error e, σ') => (.error e, σ') := by
  show (match (x t ω σ).1 with | .ok a => f a | .error e => done (.error e)) t ω (x t ω σ).2 = _
  rcases x t ω σ with ⟨_ | _, _⟩ <;> rfl

@[simp] theorem tryCatch_apply (x : Act Ω S E α) (h : E → Act Ω S E α) :
    (tryCatch x h) t ω σ = match x t ω σ with
      | (.ok a, σ') => (.ok a, σ')
      | (.error e, σ') => h e t ω σ' := by
  show (match (x t ω σ).1 with | .ok a => done (.ok a) | .error e => h e) t ω (x t ω σ).2 = _
  rcases x t ω σ with ⟨_ | _, _⟩ <;> rfl

variable {t ω σ} {σ' : S}

/-- A bind whose first part returns. -/
theorem bind_ok {x : Act Ω S E α} {f : α → Act Ω S E β} {a : α} (h : x t ω σ = (.ok a, σ')) :
    (x >>= f) t ω σ = f a t ω σ' := by
  rw [bind_apply, h]

/-- A bind whose first part throws. -/
theorem bind_error {x : Act Ω S E α} {f : α → Act Ω S E β} {e : E} (h : x t ω σ = (.error e, σ')) :
    (x >>= f) t ω σ = (.error e, σ') := by
  rw [bind_apply, h]

/-- What relates the states around each part of a bind relates the states around it. -/
theorem bind_relates {R : S → S → Prop} (htrans : ∀ {a b c}, R a b → R b c → R a c) {x : Act Ω S E α} {f : α → Act Ω S E β}
    (hx : R σ (x t ω σ).2) (hf : ∀ a σ', R σ' (f a t ω σ').2) : R σ ((x >>= f) t ω σ).2 := by
  rw [bind_apply]
  revert hx
  rcases x t ω σ with ⟨_ | a, σ'⟩
  · exact fun hx => hx
  · exact fun hx => htrans hx (hf a σ')

theorem tryCatch_relates {R : S → S → Prop} (htrans : ∀ {a b c}, R a b → R b c → R a c) {x : Act Ω S E α} {f : E → Act Ω S E α}
    (hx : R σ (x t ω σ).2) (hf : ∀ e σ', R σ' (f e t ω σ').2) : R σ (tryCatch x f t ω σ).2 := by
  rw [tryCatch_apply]
  revert hx
  rcases x t ω σ with ⟨e | a, σ'⟩
  · exact fun hx => htrans hx (hf e σ')
  · exact fun hx => hx

theorem tryCatch_ok {x : Act Ω S E α} {f : E → Act Ω S E α} {a : α} (h : x t ω σ = (.ok a, σ')) :
    tryCatch x f t ω σ = (.ok a, σ') := by
  rw [tryCatch_apply, h]

theorem tryCatch_error {x : Act Ω S E α} {f : E → Act Ω S E α} {e : E} (h : x t ω σ = (.error e, σ')) :
    tryCatch x f t ω σ = f e t ω σ' := by
  rw [tryCatch_apply, h]

variable (t ω σ)

@[simp] theorem ite_apply (c : Prop) [Decidable c] (x y : Act Ω S E α) :
    (if c then x else y) t ω σ = if c then x t ω σ else y t ω σ := by
  split <;> rfl

/-- The section ends in a value and a state that satisfy `Q`, or in an error and a state that satisfy `X`. -/
structure Meets (x : Act Ω S E α) (t : Nat) (ω : Ω) (σ : S) (X : E → S → Prop) (Q : α → S → Prop) : Prop where
  ok : ∀ a σ', x t ω σ = (.ok a, σ') → Q a σ'
  error : ∀ e σ', x t ω σ = (.error e, σ') → X e σ'

section

variable {t ω σ} {X : E → S → Prop} {Q : α → S → Prop} {Q' : β → S → Prop} {x : Act Ω S E α}

theorem meets_of_ok {a : α} (hx : x t ω σ = (.ok a, σ')) (h : Q a σ') : x.Meets t ω σ X Q := by
  refine ⟨fun a' σ'' h' => ?_, fun e σ'' h' => ?_⟩ <;> cases hx.symm.trans h'
  exact h

theorem meets_of_error {e : E} (hx : x t ω σ = (.error e, σ')) (h : X e σ') : x.Meets t ω σ X Q := by
  refine ⟨fun a σ'' h' => ?_, fun e' σ'' h' => ?_⟩ <;> cases hx.symm.trans h'
  exact h

theorem Meets.bind {f : α → Act Ω S E β} (hx : x.Meets t ω σ X Q) (hf : ∀ a σ', Q a σ' → (f a).Meets t ω σ' X Q') :
    (x >>= f).Meets t ω σ X Q' := by
  rcases hr : x t ω σ with ⟨e | a, σ'⟩
  · exact meets_of_error (bind_error hr) (hx.error e σ' hr)
  · have h := hf a σ' (hx.ok a σ' hr)
    exact ⟨fun b σ'' hb => h.ok b σ'' ((bind_ok hr).symm.trans hb), fun e σ'' he => h.error e σ'' ((bind_ok hr).symm.trans he)⟩

end

end Act

/-! ## Programs -/

/-- A thread's code: ended with a value or an error, or at a section that may run when its guard
holds of the state and whose result chooses the rest. -/
inductive Prog (Ω S E : Type) (α : Type) : Type 1 where
  | ret (r : Except E α)
  | step {β : Type} (guard : S → Bool) (act : Act Ω S E β) (next : Except E β → Prog Ω S E α)

namespace Prog

variable {Ω S E α β : Type}

/-- Continue after a program, whether it returned or threw. -/
def andThen : Prog Ω S E α → (Except E α → Prog Ω S E β) → Prog Ω S E β
  | .ret r, f => f r
  | .step g a k, f => .step g a fun r => (k r).andThen f

/-- What follows a value; an error passes through. -/
def onOk (f : α → Prog Ω S E β) : Except E α → Prog Ω S E β
  | .ok a => f a
  | .error e => .ret (.error e)

/-- What handles an error; a value passes through. -/
def onError (h : E → Prog Ω S E α) : Except E α → Prog Ω S E α
  | .ok a => .ret (.ok a)
  | .error e => h e

instance : Monad (Prog Ω S E) where
  pure a := .ret (.ok a)
  bind p f := p.andThen (onOk f)

instance : MonadExcept E (Prog Ω S E) where
  throw e := .ret (.error e)
  tryCatch p h := p.andThen (onError h)

/-- A section run as soon as the thread is scheduled. -/
def atomic (a : Act Ω S E α) : Prog Ω S E α := .step (fun _ => true) a .ret

/-- A section the thread waits for: it runs only in a state where `g` holds. -/
def await (g : S → Bool) (a : Act Ω S E α) : Prog Ω S E α := .step g a .ret

/-- Run `q` after `p` however `p` ends, and end as `p` did (a scope guard). -/
def finally_ (p : Prog Ω S E α) (q : Prog Ω S E Unit) : Prog Ω S E α :=
  p.andThen fun r => q.andThen fun _ => .ret r

theorem bind_def (p : Prog Ω S E α) (f : α → Prog Ω S E β) : (p >>= f) = p.andThen (onOk f) := rfl

theorem tryCatch_def (p : Prog Ω S E α) (h : E → Prog Ω S E α) :
    tryCatch p h = p.andThen (onError h) := rfl

theorem andThen_assoc {γ : Type} {f : Except E α → Prog Ω S E β} {g : Except E β → Prog Ω S E γ} :
    ∀ p : Prog Ω S E α, (p.andThen f).andThen g = p.andThen fun r => (f r).andThen g
  | .ret _ => rfl
  | .step _ _ k => congrArg (Prog.step _ _) (funext fun r => andThen_assoc (k r))

theorem bind_bind {γ : Type} (p : Prog Ω S E α) (f : α → Prog Ω S E β) (g : β → Prog Ω S E γ) :
    ((p >>= f) >>= g) = p >>= fun a => f a >>= g := by
  rw [bind_def, bind_def, andThen_assoc, bind_def]
  refine congrArg p.andThen (funext fun r => ?_)
  cases r <;> rfl

/-! ## Every section of a program -/

/-- Every section the program may come to satisfies `P`. -/
def All (P : ∀ β : Type, Act Ω S E β → Prop) : Prog Ω S E α → Prop
  | .ret _ => True
  | .step _ a k => P _ a ∧ ∀ r, (k r).All P

variable {P : ∀ β : Type, Act Ω S E β → Prop}

theorem All.andThen {f : Except E α → Prog Ω S E β} (hf : ∀ r, (f r).All P) : ∀ {p : Prog Ω S E α}, p.All P → (p.andThen f).All P
  | .ret r, _ => hf r
  | .step _ _ _, hp => ⟨hp.1, fun r => All.andThen hf (hp.2 r)⟩

theorem All.mono {P' : ∀ β : Type, Act Ω S E β → Prop} (h : ∀ β a, P β a → P' β a) : ∀ {p : Prog Ω S E α}, p.All P → p.All P'
  | .ret _, _ => trivial
  | .step _ _ _, hp => ⟨h _ _ hp.1, fun r => All.mono h (hp.2 r)⟩

theorem All.bind {p : Prog Ω S E α} {f : α → Prog Ω S E β} (hp : p.All P) (hf : ∀ a, (f a).All P) : (p >>= f).All P :=
  All.andThen (fun r => match r with | .ok a => hf a | .error _ => trivial) hp

theorem All.tryCatch {p : Prog Ω S E α} {f : E → Prog Ω S E α} (hp : p.All P) (hf : ∀ e, (f e).All P) :
    (MonadExcept.tryCatch p f).All P :=
  All.andThen (fun r => match r with | .ok _ => trivial | .error e => hf e) hp

theorem All.await {g : S → Bool} {a : Act Ω S E α} (ha : P _ a) : (Prog.await g a).All P := ⟨ha, fun _ => trivial⟩

theorem All.atomic {a : Act Ω S E α} (ha : P _ a) : (Prog.atomic a).All P := ⟨ha, fun _ => trivial⟩

theorem All.finally_ {p : Prog Ω S E α} {q : Prog Ω S E Unit} (hp : p.All P) (hq : q.All P) : (p.finally_ q).All P := by
  refine All.andThen (fun r => ?_) hp
  exact All.andThen (f := fun _ => .ret r) (fun _ => trivial) hq

theorem All.ite {c : Prop} [Decidable c] {p q : Prog Ω S E α} (hp : p.All P) (hq : q.All P) : (if c then p else q).All P := by
  split
  · exact hp
  · exact hq

/-! ## Programs that do not wait -/

/-- No section of the program has to be waited for. -/
def Ready : Prog Ω S E α → Prop
  | .ret _ => True
  | .step g _ k => (∀ σ, g σ = true) ∧ ∀ r, (k r).Ready

theorem Ready.andThen {f : Except E α → Prog Ω S E β} (hf : ∀ r, (f r).Ready) : ∀ {p : Prog Ω S E α}, p.Ready → (p.andThen f).Ready
  | .ret r, _ => hf r
  | .step _ _ _, hp => ⟨hp.1, fun r => Ready.andThen hf (hp.2 r)⟩

theorem Ready.bind {p : Prog Ω S E α} {f : α → Prog Ω S E β} (hp : p.Ready) (hf : ∀ a, (f a).Ready) : (p >>= f).Ready :=
  Ready.andThen (fun r => match r with | .ok a => hf a | .error _ => trivial) hp

theorem ready_atomic (a : Act Ω S E α) : (Prog.atomic a).Ready := ⟨fun _ => rfl, fun _ => trivial⟩

/-! ## Paths -/

/-- Run by thread `t`, the program may go through these sections, each in any state that its guard admits and
with any answers, and end so. -/
inductive Path (t : Nat) : Prog Ω S E α → List (Σ β : Type, Act Ω S E β) → Except E α → Prop
  | ret (r : Except E α) : Path t (.ret r) [] r
  | step {β : Type} {g : S → Bool} {a : Act Ω S E β} {k : Except E β → Prog Ω S E α} {l : List (Σ β : Type, Act Ω S E β)}
      {r : Except E α} (ω : Ω) (σ : S) (hg : g σ = true) (h : Path t (k (a t ω σ).1) l r) : Path t (.step g a k) (⟨β, a⟩ :: l) r

variable {t : Nat} {l : List (Σ β : Type, Act Ω S E β)}

theorem path_ret {r r' : Except E α} : Path t (.ret r : Prog Ω S E α) l r' ↔ l = [] ∧ r' = r := by
  constructor
  · rintro ⟨⟩
    exact ⟨rfl, rfl⟩
  · rintro ⟨rfl, rfl⟩
    exact .ret r'

theorem path_andThen {p : Prog Ω S E α} {f : Except E α → Prog Ω S E β} {r : Except E β} :
    Path t (p.andThen f) l r ↔ ∃ l₁ x l₂, Path t p l₁ x ∧ Path t (f x) l₂ r ∧ l = l₁ ++ l₂ := by
  constructor
  · induction p generalizing l with
    | ret x => exact fun h => ⟨[], x, l, .ret x, h, rfl⟩
    | step g a k ih =>
      rintro ⟨⟩
      rename_i l ω σ hg h
      obtain ⟨l₁, x, l₂, hp, hf, rfl⟩ := ih _ h
      exact ⟨_, x, l₂, .step ω σ hg hp, hf, rfl⟩
  · rintro ⟨l₁, x, l₂, hp, hf, rfl⟩
    induction hp with
    | ret x => exact hf
    | step ω σ hg _ ih => exact .step ω σ hg (ih hf)

theorem path_bind {p : Prog Ω S E α} {f : α → Prog Ω S E β} {r : Except E β} :
    Path t (p >>= f) l r ↔ ∃ l₁ x l₂, Path t p l₁ x ∧ Path t (onOk f x) l₂ r ∧ l = l₁ ++ l₂ := path_andThen

theorem path_tryCatch {p : Prog Ω S E α} {f : E → Prog Ω S E α} {r : Except E α} :
    Path t (tryCatch p f) l r ↔ ∃ l₁ x l₂, Path t p l₁ x ∧ Path t (onError f x) l₂ r ∧ l = l₁ ++ l₂ := path_andThen

theorem path_atomic {a : Act Ω S E α} {r : Except E α} :
    Path t (.atomic a) l r ↔ l = [⟨α, a⟩] ∧ ∃ ω σ, (a t ω σ).1 = r := by
  constructor
  · rintro ⟨⟩
    rename_i ω σ _ h
    obtain ⟨rfl, rfl⟩ := path_ret.1 h
    exact ⟨rfl, ω, σ, rfl⟩
  · rintro ⟨rfl, ω, σ, rfl⟩
    exact .step ω σ rfl (.ret _)

end Prog

end Conc
