/-
Programs that others disturb less before some of their sections. A discipline says what the other threads may do
to the state, what they may do while a thread is at such a section, and which answers the environment gives.
`Discipline.wp` runs a program under it and keeps the states in which its sections ran; `Discipline.Sound` is what
every thread of a run satisfies whose moves follow the discipline.
-/
import FlashTier.Conc.Run

namespace Conc

/-- What other threads may do to the state, what they keep while a thread is at a held section, the answers, and the
held sections. -/
structure Discipline (Ω S E : Type) where
  rely : S → S → Prop
  kept : S → S → Prop
  answers : Ω → Prop
  held : ∀ β : Type, Act Ω S E β → Prop
  trans : ∀ {a b c : S}, rely a b → rely b c → rely a c
  kept_refl : ∀ a : S, kept a a
  kept_trans : ∀ {a b c : S}, kept a b → kept b c → kept a c

variable {Ω S E L R α β : Type} (D : Discipline Ω S E)

/-- The next section of the program is a held one. -/
def Prog.AtHeld : Prog Ω S E α → Prop
  | .ret _ => False
  | .step _ a _ => D.held _ a

namespace Discipline

/-- Run by thread `t` from `σ`, after sections that ran in the states `seen` (the last one first), the program
ends in `Q`. -/
def wp (t : Nat) : Prog Ω S E α → List S → S → (Except E α → List S → S → Prop) → Prop
  | .ret r, seen, σ, Q => Q r seen σ
  | .step _ a k, seen, σ, Q =>
    (D.held _ a ∧ ∀ σ₁, D.rely σ σ₁ → D.kept σ σ₁ → ∀ ω, D.answers ω → wp t (k (a t ω σ₁).1) (σ₁ :: seen) (a t ω σ₁).2 Q) ∨
      ∀ σ₁, D.rely σ σ₁ → ∀ ω, D.answers ω → wp t (k (a t ω σ₁).1) (σ₁ :: seen) (a t ω σ₁).2 Q

variable {D} {t : Nat} {seen : List S} {σ : S}

theorem wp_mono {Q Q' : Except E α → List S → S → Prop} (hq : ∀ r seen σ, Q r seen σ → Q' r seen σ) :
    ∀ {p : Prog Ω S E α} {seen : List S} {σ : S}, D.wp t p seen σ Q → D.wp t p seen σ Q'
  | .ret _, _, _, hw => hq _ _ _ hw
  | .step _ _ _, _, _, hw => by
    rcases hw with ⟨hheld, hw⟩ | hw
    · exact .inl ⟨hheld, fun σ₁ hr hk ω hω => wp_mono hq (hw σ₁ hr hk ω hω)⟩
    · exact .inr fun σ₁ hr ω hω => wp_mono hq (hw σ₁ hr ω hω)

theorem wp_andThen {Q : Except E β → List S → S → Prop} {f : Except E α → Prog Ω S E β} :
    ∀ {p : Prog Ω S E α} {seen : List S} {σ : S}, D.wp t p seen σ (fun r seen σ => D.wp t (f r) seen σ Q) →
      D.wp t (p.andThen f) seen σ Q
  | .ret _, _, _, hw => hw
  | .step _ _ _, _, _, hw => by
    rcases hw with ⟨hheld, hw⟩ | hw
    · exact .inl ⟨hheld, fun σ₁ hr hk ω hω => wp_andThen (hw σ₁ hr hk ω hω)⟩
    · exact .inr fun σ₁ hr ω hω => wp_andThen (hw σ₁ hr ω hω)

theorem wp_bind {Q : Except E β → List S → S → Prop} {p : Prog Ω S E α} {f : α → Prog Ω S E β} {M : Except E α → List S → S → Prop}
    (hp : D.wp t p seen σ M) (hok : ∀ a seen σ, M (.ok a) seen σ → D.wp t (f a) seen σ Q)
    (herr : ∀ e seen σ, M (.error e) seen σ → Q (.error e) seen σ) : D.wp t (p >>= f) seen σ Q := by
  rw [Prog.bind_def]
  refine wp_andThen (wp_mono (fun r seen σ hm => ?_) hp)
  cases r with
  | ok a => exact hok a seen σ hm
  | error e => exact herr e seen σ hm

/-- A section that others may run before. -/
theorem wp_atomic {Q : Except E α → List S → S → Prop} {a : Act Ω S E α}
    (ha : ∀ σ₁, D.rely σ σ₁ → ∀ ω, D.answers ω → Q (a t ω σ₁).1 (σ₁ :: seen) (a t ω σ₁).2) : D.wp t (.atomic a) seen σ Q :=
  .inr ha

/-- A held section. -/
theorem wp_held {Q : Except E α → List S → S → Prop} {a : Act Ω S E α} (hheld : D.held _ a)
    (ha : ∀ σ₁, D.rely σ σ₁ → D.kept σ σ₁ → ∀ ω, D.answers ω → Q (a t ω σ₁).1 (σ₁ :: seen) (a t ω σ₁).2) : D.wp t (.atomic a) seen σ Q :=
  .inl ⟨hheld, ha⟩

/-- Others may run first. -/
theorem wp_later {Q : Except E α → List S → Prop} {p : Prog Ω S E α} {σ' : S} (hr : D.rely σ σ') (hk : p.AtHeld D → D.kept σ σ')
    (hw : D.wp t p seen σ fun r seen _ => Q r seen) : D.wp t p seen σ' fun r seen _ => Q r seen := by
  cases p with
  | ret r => exact hw
  | step g a k =>
    rcases hw with ⟨hheld, hw⟩ | hw
    · exact .inl ⟨hheld, fun σ₁ hr₁ hk₁ => hw σ₁ (D.trans hr hr₁) (D.kept_trans (hk hheld) hk₁)⟩
    · exact .inr fun σ₁ hr₁ => hw σ₁ (D.trans hr hr₁)

/-! ## Runs -/

variable (D)

/-- The answers are as the discipline says, and when another thread is at a held section the move keeps what it must. -/
def Follows (code : L → Prog Ω S E R) (c : Config Ω S E L R) : Move Ω L → Prop
  | .spawn _ => True
  | .exec s ω => D.answers ω ∧ ∀ t th, t ≠ s → c.threads[t]? = some th → th.code.AtHeld D →
      ∀ c', c.move code (.exec s ω) = some c' → D.kept c.shared c'.shared

/-- What is true of the threads that are watched: `Seen t seen` says where their sections ran, `Q l` how those started
for `l` end. -/
def Sound (watched : Nat → L → Prop) (Seen : Config Ω S E L R → Nat → List S → Prop) (Q : L → Except E R → List S → Prop)
    (c : Config Ω S E L R) : Prop :=
  ∀ t l p, c.threads[t]? = some ⟨l, p⟩ → watched t l → ∃ seen, Seen c t seen ∧ D.wp t p seen c.shared fun r seen _ => Q l r seen

variable {D} {watched : Nat → L → Prop} {Seen : Config Ω S E L R → Nat → List S → Prop} {Q : L → Except E R → List S → Prop}
  {code : L → Prog Ω S E R} {c c' : Config Ω S E L R} {m : Move Ω L}

/-- The step lemma. -/
theorem Sound.move (h : D.Sound watched Seen Q c) (hf : D.Follows code c m) (hm : c.move code m = some c')
    (hnew : ∀ l, m = .spawn l → watched c.threads.length l →
      Seen c' c.threads.length [] ∧ D.wp c.threads.length (code l) [] c'.shared fun r seen _ => Q l r seen)
    (hnow : D.rely c.shared c.shared) (hrely : ∀ s ω t l, m = .exec s ω → t ≠ s → watched t l → D.rely c.shared c'.shared)
    (hseen : ∀ t seen, Seen c t seen → Seen c' t seen) (hown : ∀ t ω seen, m = .exec t ω → Seen c t seen → Seen c' t (c.shared :: seen)) :
    D.Sound watched Seen Q c' := by
  refine threads_move (P := fun c t l p => watched t l → ∃ seen, Seen c t seen ∧ D.wp t p seen c.shared fun r seen _ => Q l r seen) hm
    ?_ ?_ ?_ h
  · rintro l rfl hl
    exact ⟨[], hnew l rfl hl⟩
  · rintro t ω l β g a k rfl - hσ hw hl
    obtain ⟨seen, hs, hw⟩ := hw hl
    refine ⟨c.shared :: seen, hown t ω seen rfl hs, ?_⟩
    rw [hσ]
    rcases hw with ⟨-, hw⟩ | hw
    · exact hw c.shared hnow (D.kept_refl _) ω hf.1
    · exact hw c.shared hnow ω hf.1
  · rintro t l p hne ht hw hl
    obtain ⟨seen, hs, hw⟩ := hw hl
    refine ⟨seen, hseen t seen hs, ?_⟩
    cases m with
    | spawn l =>
      cases hm
      exact hw
    | exec s ω =>
      have hst : t ≠ s := by
        rintro rfl
        exact hne ω rfl
      exact wp_later (hrely s ω t l rfl hst hl) (fun hheld => hf.2 t _ hst ht hheld c' hm) hw

end Discipline

end Conc
