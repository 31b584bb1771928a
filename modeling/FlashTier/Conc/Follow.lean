/-
One thread of a pool, followed from section to section. While the others run the state changes as `rely`
says, of every state something is known, and each section of the thread keeps what is to be kept. `Follows`
is defined by recursion on the code, with a postcondition; `Reachable.follows` says that it holds of every
thread of every reachable configuration, whether it has ended or not.
-/
import FlashTier.Conc.Logic

namespace Conc

variable {Ω S E L R α β : Type}

/-- What a thread is followed with: how the state evolves, how it evolves while the thread does not run, what
is known of every state, and what the thread keeps. -/
structure Follow (S : Type) where
  le : S → S → Prop
  rely : S → S → Prop
  Known : S → Prop
  Kept : S → Prop
  le_refl : ∀ σ, le σ σ
  le_trans : ∀ {σ₁ σ₂ σ₃}, le σ₁ σ₂ → le σ₂ σ₃ → le σ₁ σ₃
  rely_refl : ∀ σ, rely σ σ
  rely_trans : ∀ {σ₁ σ₂ σ₃}, rely σ₁ σ₂ → rely σ₂ σ₃ → rely σ₁ σ₃
  rely_le : ∀ {σ₁ σ₂}, rely σ₁ σ₂ → le σ₁ σ₂
  stable : ∀ {σ₁ σ₂}, rely σ₁ σ₂ → Kept σ₁ → Kept σ₂

/-- A thread followed in the states of a logic. -/
def Logic.follow {H : Type} (Λ : Logic Ω S H) (t : Nat) (Known Kept : S → Prop)
    (stable : ∀ {σ₁ σ₂}, Λ.rely t σ₁ σ₂ → Kept σ₁ → Kept σ₂) : Follow S where
  le := Λ.le
  rely := Λ.rely t
  Known := Known
  Kept := Kept
  le_refl := Λ.le_refl
  le_trans := Λ.le_trans
  rely_refl := Λ.rely_refl t
  rely_trans := Λ.rely_trans
  rely_le := Λ.rely_le
  stable := stable

/-- Run by thread `t`, last scheduled at `σ`, each section of the program keeps what is to be kept, and when the
program returns it does so in `Q`. -/
def Prog.Follows (F : Follow S) (t : Nat) : Prog Ω S E α → S → (S → α → Prop) → Prop
  | .ret r, σ, Q => ∀ a, r = .ok a → Q σ a
  | .step _ a k, σ, Q => ∀ ω σ₁, F.rely σ σ₁ → F.Known σ₁ → F.Kept σ₁ →
      F.le σ₁ (a t ω σ₁).2 ∧ F.Kept (a t ω σ₁).2 ∧ (k (a t ω σ₁).1).Follows F t (a t ω σ₁).2 Q

namespace Prog.Follows

variable {F : Follow S} {t : Nat} {σ σ' : S}

theorem ret {Q : S → α → Prop} {a : α} (h : Q σ a) : (pure a : Prog Ω S E α).Follows F t σ Q :=
  fun _ ha => by cases ha; exact h

theorem throw {Q : S → α → Prop} (e : E) : (throw e : Prog Ω S E α).Follows F t σ Q := fun _ ha => by cases ha

theorem bind {M : S → α → Prop} {Q : S → β → Prop} {f : α → Prog Ω S E β} : ∀ {p : Prog Ω S E α} {σ : S}, p.Follows F t σ M →
    (∀ σ' a, F.le σ σ' → M σ' a → (f a).Follows F t σ' Q) → (p >>= f).Follows F t σ Q
  | .ret (.ok a), σ, hp, hf => hf σ a (F.le_refl σ) (hp a rfl)
  | .ret (.error e), _, _, _ => Follows.throw e
  | .step _ _ _, _, hp, hf => by
    intro ω σ₁ hr hk hJ
    obtain ⟨hle, hJ', hp⟩ := hp ω σ₁ hr hk hJ
    exact ⟨hle, hJ', bind hp fun σ' a hle' => hf σ' a (F.le_trans (F.le_trans (F.rely_le hr) hle) hle')⟩

theorem mono {Q Q' : S → α → Prop} : ∀ {p : Prog Ω S E α} {σ : S}, p.Follows F t σ Q → (∀ σ' a, F.le σ σ' → Q σ' a → Q' σ' a) →
    p.Follows F t σ Q'
  | .ret _, σ, hp, hq => fun a ha => hq σ a (F.le_refl σ) (hp a ha)
  | .step _ _ _, _, hp, hq => by
    intro ω σ₁ hr hk hJ
    obtain ⟨hle, hJ', hp⟩ := hp ω σ₁ hr hk hJ
    exact ⟨hle, hJ', mono hp fun σ' a hle' => hq σ' a (F.le_trans (F.le_trans (F.rely_le hr) hle) hle')⟩

theorem await {Q : S → α → Prop} {g : S → Bool} {a : Act Ω S E α}
    (ha : ∀ ω σ₁, F.rely σ σ₁ → F.Known σ₁ → F.Kept σ₁ →
      F.le σ₁ (a t ω σ₁).2 ∧ F.Kept (a t ω σ₁).2 ∧ ∀ x, (a t ω σ₁).1 = .ok x → Q (a t ω σ₁).2 x) :
    (Prog.await g a).Follows F t σ Q := ha

/-- A program all of whose sections keep what is to be kept. -/
theorem of_all {P : ∀ β : Type, Act Ω S E β → Prop}
    (hP : ∀ β (a : Act Ω S E β), P β a → ∀ ω σ, F.Kept σ → F.le σ (a t ω σ).2 ∧ F.Kept (a t ω σ).2) :
    ∀ {p : Prog Ω S E α} {σ : S}, p.All P → p.Follows F t σ fun _ _ => True
  | .ret _, _, _ => fun _ _ => trivial
  | .step _ a _, _, hp => fun ω σ₁ _ _ hJ =>
    ⟨(hP _ a hp.1 ω σ₁ hJ).1, (hP _ a hp.1 ω σ₁ hJ).2, of_all hP (hp.2 _)⟩

end Prog.Follows

/-! ## Adequacy -/

variable {allowed : Move Ω L → Prop} {code : L → Prog Ω S E R} {σ₀ : S}

/-- Every thread of a reachable configuration has kept what it is to keep, and what it has left is followed
from the state it last ran in. -/
theorem Reachable.follows {F : L → Nat → Follow S} {Q : L → Nat → S → R → Prop}
    (hK : ∀ c : Config Ω S E L R, Reachable allowed code σ₀ c → ∀ l t, (F l t).Known c.shared)
    (hrely : ∀ (c c' : Config Ω S E L R) s ω, Reachable allowed code σ₀ c → c.move code (.exec s ω) = some c' →
      ∀ l t, t ≠ s → (F l t).rely c.shared c'.shared)
    (hnew : ∀ c : Config Ω S E L R, Reachable allowed code σ₀ c → ∀ l, (F l c.threads.length).Kept c.shared)
    (hcode : ∀ l, allowed (.spawn l) → ∀ t σ, (F l t).Known σ → (code l).Follows (F l t) t σ (Q l t))
    {c : Config Ω S E L R} (hr : Reachable allowed code σ₀ c) :
    ∀ t l p, c.threads[t]? = some ⟨l, p⟩ →
      (F l t).Kept c.shared ∧ ∃ σ, (F l t).rely σ c.shared ∧ p.Follows (F l t) t σ (Q l t) := by
  induction hr with
  | start => exact fun t l p ht => by simp at ht
  | @move c c' m ha hr hm ih =>
    refine threads_move (P := fun c t l p => (F l t).Kept c.shared ∧ ∃ σ, (F l t).rely σ c.shared ∧ p.Follows (F l t) t σ (Q l t))
      hm ?_ ?_ ?_ ih
    · rintro l rfl
      cases hm
      exact ⟨hnew c hr l, c.shared, (F l _).rely_refl _, hcode l ha _ _ (hK c hr l _)⟩
    · rintro t ω l β g a k rfl ht hσ ⟨hJ, σ, hσr, hf⟩
      obtain ⟨-, hJ', hf'⟩ := hf ω c.shared hσr (hK c hr l t) hJ
      rw [hσ]
      exact ⟨hJ', _, (F l t).rely_refl _, hf'⟩
    · rintro t l p hne - ⟨hJ, σ, hσr, hf⟩
      have hstep : (F l t).rely c.shared c'.shared := by
        cases m with
        | spawn l' =>
          cases hm
          exact (F l t).rely_refl _
        | exec s ω =>
          refine hrely c c' s ω hr hm l t ?_
          rintro rfl
          exact hne ω rfl
      exact ⟨(F l t).stable hstep hJ, σ, (F l t).rely_trans hσr hstep, hf⟩

end Conc
