/-
A program logic for pools of threads. Every thread holds a ghost token (what it owns or knows); the
invariant relates the shared state to the multiset of all tokens, each with its thread, and a section
may exchange only the running thread's token. A preorder `le` says how the shared state may evolve,
and `rely t` how it may evolve while `t` does not run, so that a fact stable under them, learnt at one
section, still holds at a later one. `wp` is defined by recursion on the code; `Reachable.sound` says
that it holds of every thread of every reachable configuration.
-/
import FlashTier.Conc.Run
import Mathlib.Data.Multiset.AddSub

namespace Conc

/-- The answers the environment gives to a thread and what else is known of the states before and after the section
it gives them in, the invariant, over the shared state and the tokens of all threads, and the orders in
which the shared state evolves. -/
structure Logic (Ω S H : Type) where
  env : Nat → Ω → S → S → Prop
  Inv : S → Multiset (Nat × H) → Prop
  le : S → S → Prop
  rely : Nat → S → S → Prop
  le_refl : ∀ σ, le σ σ
  le_trans : ∀ {σ₁ σ₂ σ₃}, le σ₁ σ₂ → le σ₂ σ₃ → le σ₁ σ₃
  rely_refl : ∀ t σ, rely t σ σ
  rely_trans : ∀ {t σ₁ σ₂ σ₃}, rely t σ₁ σ₂ → rely t σ₂ σ₃ → rely t σ₁ σ₃
  rely_le : ∀ {t σ₁ σ₂}, rely t σ₁ σ₂ → le σ₁ σ₂

variable {Ω S E H L R α β : Type} (Λ : Logic Ω S H)

/-- What a section of `t` guarantees to the other threads. -/
def Guar (t : Nat) (σ σ' : S) : Prop := Λ.le σ σ' ∧ ∀ t', t' ≠ t → Λ.rely t' σ σ'

/-! ## Sections -/

/-- Run by thread `t` holding `h`, the section keeps the invariant and ends in `post`. -/
def SectionOk (t : Nat) (h : H) (pre : S → Prop) (a : Act Ω S E β)
    (post : S → Except E β → H → Prop) : Prop :=
  ∀ ω σ T, Λ.env t ω σ (a t ω σ).2 → pre σ → (∀ x ∈ T, x.1 ≠ t) → Λ.Inv σ ((t, h) ::ₘ T) →
    Guar Λ t σ (a t ω σ).2 ∧ ∃ h', Λ.Inv (a t ω σ).2 ((t, h') ::ₘ T) ∧ post (a t ω σ).2 (a t ω σ).1 h'

/-! ## Programs -/

/-- The weakest precondition: run by thread `t`, last scheduled at `σ` and holding `h`, the program
keeps the invariant at each section and ends in `Q`. -/
def wp (t : Nat) : Prog Ω S E α → S → H → (S → Except E α → H → Prop) → Prop
  | .ret r, σ, h, Q => Q σ r h
  | .step g a k, σ, h, Q => ∀ ω σ₁ T, Λ.env t ω σ₁ (a t ω σ₁).2 → Λ.rely t σ σ₁ → (∀ x ∈ T, x.1 ≠ t) → Λ.Inv σ₁ ((t, h) ::ₘ T) →
      g σ₁ = true → Guar Λ t σ₁ (a t ω σ₁).2 ∧ ∃ h', Λ.Inv (a t ω σ₁).2 ((t, h') ::ₘ T) ∧
        wp t (k (a t ω σ₁).1) (a t ω σ₁).2 h' Q

variable {Λ} {t : Nat}

/-- A section that needs nothing may run from any state. -/
theorem SectionOk.anywhere {h : H} {pre : S → Prop} {a : Act Ω S E β} {post : S → Except E β → H → Prop}
    (ha : SectionOk Λ t h (fun _ => True) a post) : SectionOk Λ t h pre a post :=
  fun ω σ T hω _ => ha ω σ T hω trivial

theorem wp_step {g : S → Bool} {a : Act Ω S E β} {k : Except E β → Prog Ω S E α} {σ : S} {h : H}
    {Q : S → Except E α → H → Prop} {post : S → Except E β → H → Prop}
    (ha : SectionOk Λ t h (fun σ₁ => Λ.rely t σ σ₁ ∧ g σ₁ = true) a post)
    (hk : ∀ σ' r h', Λ.le σ σ' → post σ' r h' → wp Λ t (k r) σ' h' Q) :
    wp Λ t (.step g a k) σ h Q := by
  intro ω σ₁ T hω hle ht hi hg
  obtain ⟨hl, h', hi', hp⟩ := ha ω σ₁ T hω ⟨hle, hg⟩ ht hi
  exact ⟨hl, h', hi', hk _ _ _ (Λ.le_trans (Λ.rely_le hle) hl.1) hp⟩

theorem wp_mono {Q Q' : S → Except E α → H → Prop} :
    ∀ {p : Prog Ω S E α} {σ : S} {h : H}, (∀ σ' r h', Λ.le σ σ' → Q σ' r h' → Q' σ' r h') →
      wp Λ t p σ h Q → wp Λ t p σ h Q'
  | .ret _, σ, _, hq, hw => hq _ _ _ (Λ.le_refl σ) hw
  | .step _ _ _, _, _, hq, hw => by
    intro ω σ₁ T hω hle ht hi hg
    obtain ⟨hl, h', hi', hw'⟩ := hw ω σ₁ T hω hle ht hi hg
    refine ⟨hl, h', hi', wp_mono (fun σ' r h'' hl' => hq σ' r h'' ?_) hw'⟩
    exact Λ.le_trans (Λ.le_trans (Λ.rely_le hle) hl.1) hl'

/-- A state that others led to is as good a starting point, when the postcondition is stable. -/
theorem wp_later {Q : S → Except E α → H → Prop} (hq : ∀ σ σ' r h, Λ.rely t σ σ' → Q σ r h → Q σ' r h)
    {p : Prog Ω S E α} {σ σ' : S} {h : H} (hle : Λ.rely t σ σ') (hw : wp Λ t p σ h Q) :
    wp Λ t p σ' h Q := by
  cases p with
  | ret r => exact hq _ _ _ _ hle hw
  | step g a k =>
    intro ω σ₁ T hω hle' ht hi hg
    exact hw ω σ₁ T hω (Λ.rely_trans hle hle') ht hi hg

theorem wp_andThen {Q : S → Except E β → H → Prop} {f : Except E α → Prog Ω S E β} :
    ∀ {p : Prog Ω S E α} {σ : S} {h : H}, wp Λ t p σ h (fun σ' r h' => wp Λ t (f r) σ' h' Q) →
      wp Λ t (p.andThen f) σ h Q
  | .ret _, _, _, hw => hw
  | .step _ _ _, _, _, hw => by
    intro ω σ₁ T hω hle ht hi hg
    obtain ⟨hl, h', hi', hw'⟩ := hw ω σ₁ T hω hle ht hi hg
    exact ⟨hl, h', hi', wp_andThen hw'⟩

theorem wp_bind {Q : S → Except E β → H → Prop} {p : Prog Ω S E α} {f : α → Prog Ω S E β} {σ : S} {h : H}
    {M : S → Except E α → H → Prop} (hp : wp Λ t p σ h M)
    (hok : ∀ σ' a h', Λ.le σ σ' → M σ' (.ok a) h' → wp Λ t (f a) σ' h' Q)
    (herr : ∀ σ' e h', Λ.le σ σ' → M σ' (.error e) h' → Q σ' (.error e) h') :
    wp Λ t (p >>= f) σ h Q := by
  rw [Prog.bind_def]
  refine wp_andThen (wp_mono (fun σ' r h' hle hm => ?_) hp)
  cases r with
  | ok a => exact hok σ' a h' hle hm
  | error e => exact herr σ' e h' hle hm

theorem wp_tryCatch {Q : S → Except E α → H → Prop} {p : Prog Ω S E α} {f : E → Prog Ω S E α} {σ : S} {h : H}
    {M : S → Except E α → H → Prop} (hp : wp Λ t p σ h M)
    (hok : ∀ σ' a h', Λ.le σ σ' → M σ' (.ok a) h' → Q σ' (.ok a) h')
    (herr : ∀ σ' e h', Λ.le σ σ' → M σ' (.error e) h' → wp Λ t (f e) σ' h' Q) :
    wp Λ t (tryCatch p f) σ h Q := by
  rw [Prog.tryCatch_def]
  refine wp_andThen (wp_mono (fun σ' r h' hle hm => ?_) hp)
  cases r with
  | ok a => exact hok σ' a h' hle hm
  | error e => exact herr σ' e h' hle hm

theorem wp_await {Q : S → Except E α → H → Prop} {g : S → Bool} {a : Act Ω S E α} {σ : S} {h : H}
    (ha : SectionOk Λ t h (fun σ₁ => Λ.rely t σ σ₁ ∧ g σ₁ = true) a Q) : wp Λ t (.await g a) σ h Q :=
  wp_step ha fun _ _ _ _ hq => hq

theorem wp_atomic {Q : S → Except E α → H → Prop} {a : Act Ω S E α} {σ : S} {h : H}
    (ha : SectionOk Λ t h (fun σ₁ => Λ.rely t σ σ₁) a Q) : wp Λ t (.atomic a) σ h Q :=
  wp_await fun ω σ₁ T hω hp => ha ω σ₁ T hω hp.1

/-- A program all of whose sections leave the token leaves it. -/
theorem wp_of_all {P : ∀ β : Type, Act Ω S E β → Prop} {h : H}
    (hP : ∀ β a, P β a → SectionOk Λ t h (fun _ => True) a fun _ _ h' => h' = h) :
    ∀ {p : Prog Ω S E α} {σ : S}, p.All P → wp Λ t p σ h fun _ _ h' => h' = h
  | .ret _, _, _ => rfl
  | .step _ a _, _, hp => by
    refine wp_step (hP _ a hp.1).anywhere fun σ' r h' _ he => ?_
    rw [he]
    exact wp_of_all hP (hp.2 r)

/-! ## Adequacy -/

/-- The tokens of a list of threads, each with its index. -/
def tagged (hs : List H) : Multiset (Nat × H) := (hs.mapIdx fun t h => (t, h) : List (Nat × H))

theorem mem_tagged {hs : List H} {x : Nat × H} : x ∈ tagged hs ↔ hs[x.1]? = some x.2 := by
  obtain ⟨t, h⟩ := x
  simp only [tagged, Multiset.mem_coe, List.mem_mapIdx]
  constructor
  · rintro ⟨i, hi, he⟩
    cases he
    exact List.getElem?_eq_getElem hi
  · intro ht
    obtain ⟨hi, he⟩ := List.getElem?_eq_some_iff.1 ht
    exact ⟨t, hi, by rw [he]⟩

theorem tagged_append (hs : List H) (h : H) : tagged (hs ++ [h]) = (hs.length, h) ::ₘ tagged hs := by
  unfold tagged
  rw [List.mapIdx_append, Multiset.cons_coe, Multiset.coe_eq_coe]
  simp only [List.mapIdx_cons, List.mapIdx_nil, Nat.zero_add]
  exact List.perm_append_singleton _ _

/-- The tokens of the other threads. -/
def others (hs : List H) (t : Nat) : Multiset (Nat × H) :=
  ((hs.mapIdx fun t h => (t, h)).eraseIdx t : List (Nat × H))

theorem tagged_eq_cons {hs : List H} {t : Nat} {h : H} (ht : hs[t]? = some h) :
    tagged hs = (t, h) ::ₘ others hs t := by
  obtain ⟨hlt, rfl⟩ := List.getElem?_eq_some_iff.1 ht
  unfold tagged others
  rw [Multiset.cons_coe, Multiset.coe_eq_coe]
  have hlt' : t < (hs.mapIdx fun t h => (t, h)).length := by simpa using hlt
  have := (List.getElem_cons_eraseIdx_perm hlt').symm
  rwa [List.getElem_mapIdx] at this

theorem tagged_set {hs : List H} {t : Nat} (hlt : t < hs.length) (h' : H) :
    tagged (hs.set t h') = (t, h') ::ₘ others hs t := by
  have hoth : others (hs.set t h') t = others hs t := by
    unfold others
    rw [List.mapIdx_set, List.eraseIdx_set_eq]
  rw [← hoth]
  exact tagged_eq_cons (by rw [List.getElem?_set_self hlt])

theorem ne_of_mem_others {hs : List H} {t : Nat} {x : Nat × H} (hx : x ∈ others hs t) : x.1 ≠ t := by
  unfold others at hx
  rw [Multiset.mem_coe, List.mem_eraseIdx_iff_getElem] at hx
  obtain ⟨i, hi, hne, he⟩ := hx
  rw [List.getElem_mapIdx] at he
  rw [← he]
  exact hne

variable {allowed : Move Ω L → Prop} {code : L → Prog Ω S E R} {σ₀ : S} {Q : L → Nat → S → Except E R → H → Prop} {h₀ : H}
  {New : Nat → S → Prop}

/-- The tokens of a configuration's threads: the invariant holds of them all together, and each
thread's code is safe from the current state with its own; what is true of a thread not yet started
is true of the next ones. -/
structure Sound (Λ : Logic Ω S H) (New : Nat → S → Prop) (Q : L → Nat → S → Except E R → H → Prop) (c : Config Ω S E L R)
    (hs : List H) : Prop where
  length : hs.length = c.threads.length
  inv : Λ.Inv c.shared (tagged hs)
  fresh : ∀ t, c.threads.length ≤ t → New t c.shared
  safe : ∀ t th h, c.threads[t]? = some th → hs[t]? = some h → wp Λ t th.code c.shared h (Q th.label t)

theorem Sound.spawn {c : Config Ω S E L R} {hs : List H} (h : Sound Λ New Q c hs)
    (hnew : ∀ σ T t, Λ.Inv σ T → Λ.Inv σ ((t, h₀) ::ₘ T))
    {l : L} (hcode : ∀ t σ, New t σ → wp Λ t (code l) σ h₀ (Q l t)) :
    Sound Λ New Q { c with threads := c.threads ++ [⟨l, code l⟩] } (hs ++ [h₀]) := by
  refine ⟨by simp [h.length], by rw [tagged_append]; exact hnew _ _ _ h.inv, fun t ht => h.fresh t ?_, ?_⟩
  · rw [List.length_append] at ht
    exact le_trans (Nat.le_add_right _ _) ht
  intro t th hd ht hh
  rcases Nat.lt_trichotomy t c.threads.length with hlt | rfl | hgt
  · rw [List.getElem?_append_left hlt] at ht
    rw [List.getElem?_append_left (by rw [h.length]; exact hlt)] at hh
    exact h.safe t th hd ht hh
  · rw [List.getElem?_append_right le_rfl, Nat.sub_self] at ht
    rw [← h.length, List.getElem?_append_right le_rfl, Nat.sub_self] at hh
    cases ht; cases hh
    exact hcode _ _ (h.fresh _ le_rfl)
  · rw [List.getElem?_eq_none (by simp; omega)] at ht; cases ht

theorem Sound.exec {c c' : Config Ω S E L R} {hs : List H} (h : Sound Λ New Q c hs)
    (hN : ∀ t σ σ', Λ.rely t σ σ' → New t σ → New t σ')
    (hQ : ∀ l t σ σ' r h, Λ.rely t σ σ' → Q l t σ r h → Q l t σ' r h) {t : Nat} {ω : Ω}
    (hω : Λ.env t ω c.shared c'.shared) (hm : c.move code (.exec t ω) = some c') : ∃ hs', Sound Λ New Q c' hs' := by
  obtain ⟨l, β, g, a, k, ht, hg, rfl⟩ := move_exec hm
  have hlt : t < c.threads.length := (List.getElem?_eq_some_iff.1 ht).1
  have hlt' : t < hs.length := by rw [h.length]; exact hlt
  have hh : hs[t]? = some hs[t] := List.getElem?_eq_getElem hlt'
  have hi := h.inv
  rw [tagged_eq_cons hh] at hi
  obtain ⟨hle, h', hi', hw⟩ :=
    h.safe t _ _ ht hh ω c.shared _ hω (Λ.rely_refl _ _) (fun _ => ne_of_mem_others) hi hg
  refine ⟨hs.set t h', by simp [h.length], ?_, fun s hs => ?_, ?_⟩
  · rw [tagged_set hlt']; exact hi'
  · rw [List.length_set] at hs
    exact hN s _ _ (hle.2 s (by omega)) (h.fresh s hs)
  · intro s th hd hs1 hs2
    by_cases hst : t = s
    · subst hst
      rw [List.getElem?_set_self hlt] at hs1
      rw [List.getElem?_set_self hlt'] at hs2
      cases hs1; cases hs2
      exact hw
    · rw [List.getElem?_set_ne hst] at hs1 hs2
      exact wp_later (fun σ σ' r h => hQ th.label s σ σ' r h) (hle.2 s (Ne.symm hst)) (h.safe s th hd hs1 hs2)

/-- Every reachable configuration has tokens for which it is sound: the invariant holds in every
state of every run, and a thread that ended did so in its postcondition. -/
theorem Reachable.sound (hinit : Λ.Inv σ₀ 0) (hnew : ∀ σ T t, Λ.Inv σ T → Λ.Inv σ ((t, h₀) ::ₘ T))
    (hfresh : ∀ t, New t σ₀) (hN : ∀ t σ σ', Λ.rely t σ σ' → New t σ → New t σ')
    (henv : ∀ (c c' : Config Ω S E L R) t ω, Reachable allowed code σ₀ c → allowed (.exec t ω) →
      c.move code (.exec t ω) = some c' → Λ.env t ω c.shared c'.shared)
    (hcode : ∀ l, allowed (.spawn l) → ∀ t σ, New t σ → wp Λ t (code l) σ h₀ (Q l t))
    (hQ : ∀ l t σ σ' r h, Λ.rely t σ σ' → Q l t σ r h → Q l t σ' r h) {c : Config Ω S E L R}
    (hr : Reachable allowed code σ₀ c) : ∃ hs, Sound Λ New Q c hs := by
  induction hr with
  | start => exact ⟨[], rfl, hinit, fun t _ => hfresh t, fun t th h ht => by simp at ht⟩
  | @move c c' m ha hr hm ih =>
    obtain ⟨hs, h⟩ := ih
    cases m with
    | spawn l => cases hm; exact ⟨hs ++ [h₀], h.spawn hnew (hcode l ha)⟩
    | exec t ω => exact h.exec hN hQ (henv c c' t ω hr ha hm) hm

end Conc
