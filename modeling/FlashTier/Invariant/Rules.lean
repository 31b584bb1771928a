/-
The program logic of the runtime: the library's logic over `Inv`, with the history as what evolves.
A section records events of its own thread only, so what a thread has recorded is stable while others
run. `Safe` says that a program started by a thread that holds nothing ends so again, or throws after a
release call failed, in which case the thread does nothing more to the pages.
-/
import FlashTier.Invariant.Calls

namespace FlashTier

open Conc

/-! ## What a thread has recorded -/

/-- The events of thread `t`. -/
def mine (t : Nat) (h : List Event) : List Event := h.filter fun e => e.thread = t

theorem mine_append_self {t : Nat} {pre : List Event} (hp : ∀ e ∈ pre, e.thread = t) (h : List Event) :
    mine t (pre ++ h) = pre ++ mine t h := by
  unfold mine
  rw [List.filter_append, List.filter_eq_self.2 (by simpa using hp)]

theorem mine_append_other {t : Nat} {pre : List Event} (hp : ∀ e ∈ pre, e.thread ≠ t) (h : List Event) :
    mine t (pre ++ h) = mine t h := by
  unfold mine
  rw [List.filter_append, List.filter_eq_nil_iff.2 (by simpa using hp), List.nil_append]

theorem mem_mine {t : Nat} {h : List Event} {e : Event} : e ∈ mine t h ↔ e ∈ h ∧ e.thread = t := by
  simp [mine]

/-- From `σ` to `σ'`, thread `t` records `evs`. -/
structure Adds (t : Nat) (evs : List Event) (σ σ' : Shared) : Prop where
  history : σ'.history = evs ++ σ.history
  own : ∀ e ∈ evs, e.thread = t

/-! ## The logic -/

variable (env : Nat → Env → Shared → Prop) (cfg : RuntimeConfig)

/-- The others record their own events. -/
def Rely (t : Nat) (σ σ' : Shared) : Prop := ∃ pre, σ'.history = pre ++ σ.history ∧ ∀ e ∈ pre, e.thread ≠ t

theorem Rely.le {t : Nat} {σ σ' : Shared} (h : Rely t σ σ') : σ.history <:+ σ'.history := by
  obtain ⟨pre, hp, -⟩ := h
  exact ⟨pre, hp.symm⟩

def logic : Logic Env Shared Hold where
  env t ω σ _ := env t ω σ
  Inv := Inv cfg
  le σ σ' := σ.history <:+ σ'.history
  rely := Rely
  le_refl σ := List.suffix_refl _
  le_trans h h' := h.trans h'
  rely_refl t σ := ⟨[], rfl, by simp⟩
  rely_trans := by
    rintro t σ₁ σ₂ σ₃ ⟨p, hp, hp'⟩ ⟨q, hq, hq'⟩
    refine ⟨q ++ p, by rw [hq, hp, List.append_assoc], fun e he => ?_⟩
    exact (List.mem_append.1 he).elim (hq' e) (hp' e)
  rely_le := Rely.le

variable {env} {cfg} {σ σ' σ₁ : Shared} {A : Option PageId} {w : Res} {T : Multiset (Nat × Hold)}
  {t : Nat} {ω : Env} {id : PageId} {p : PageMetadata} {α β : Type}

theorem Adds.guar {evs : List Event} (h : Adds t evs σ σ') : Guar (logic env cfg) t σ σ' :=
  ⟨⟨evs, h.history.symm⟩, fun t' ht => ⟨evs, h.history, fun e he => by rw [h.own e he]; exact Ne.symm ht⟩⟩

/-- What thread `t` has recorded is `L`. -/
def Log (t : Nat) (L : List Event) (σ : Shared) : Prop := mine t σ.history = L

theorem Log.rely {L : List Event} (h : Log t L σ) (hr : Rely t σ σ') : Log t L σ' := by
  obtain ⟨pre, hp, hne⟩ := hr
  unfold Log at h ⊢
  rw [hp, mine_append_other hne, h]

theorem Log.adds {L evs : List Event} (h : Log t L σ) (ha : Adds t evs σ σ') : Log t (evs ++ L) σ' := by
  unfold Log at h ⊢
  rw [ha.history, mine_append_self ha.own, h]

/-- How a section of `t` that starts at `σ` ends: it records `evs`, and leaves the invariant with a token
for which `post` holds. -/
def Ends (cfg : RuntimeConfig) (t : Nat) (T : Multiset (Nat × Hold)) (σ : Shared) (x : Except Error α × Shared)
    (post : List Event → Except Error α → Hold → Prop) : Prop :=
  ∃ evs h', Adds t evs σ x.2 ∧ Inv cfg x.2 ((t, h') ::ₘ T) ∧ post evs x.1 h'

theorem Ends.mono {x : Except Error α × Shared} {post post' : List Event → Except Error α → Hold → Prop}
    (h : Ends cfg t T σ x post) (hp : ∀ evs r h', post evs r h' → post' evs r h') : Ends cfg t T σ x post' := by
  obtain ⟨evs, h', ha, hi, hq⟩ := h
  exact ⟨evs, h', ha, hi, hp _ _ _ hq⟩

/-- The part of a section before may not have recorded anything. -/
theorem Ends.of_history {σ' : Shared} {x : Except Error α × Shared} {post : List Event → Except Error α → Hold → Prop}
    (h : Ends cfg t T σ' x post) (hh : σ'.history = σ.history) : Ends cfg t T σ x post := by
  obtain ⟨evs, h', ha, hi, hq⟩ := h
  exact ⟨evs, h', ⟨by rw [← hh]; exact ha.history, ha.own⟩, hi, hq⟩

/-- A section whose runs all end in `post`. -/
theorem wp_ends {g : Shared → Bool} {a : Sec α} {h : Hold} {L : List Event} (hL : Log t L σ)
    {post : List Event → Except Error α → Hold → Prop}
    (ha : ∀ ω σ₁ T, Rely t σ σ₁ → g σ₁ = true → (∀ x ∈ T, x.1 ≠ t) → Inv cfg σ₁ ((t, h) ::ₘ T) →
      Ends cfg t T σ₁ (a t ω σ₁) post) :
    wp (logic env cfg) t (.await g a) σ h (fun σ' r h' => ∃ evs, Log t (evs ++ L) σ' ∧ post evs r h') := by
  refine wp_await fun ω σ₁ T _ hp hT hi => ?_
  obtain ⟨evs, h', hadds, hi', hpost⟩ := ha ω σ₁ T hp.1 hp.2 hT hi
  exact ⟨hadds.guar, h', hi', evs, (hL.rely hp.1).adds hadds, hpost⟩

theorem wp_section {a : Sec α} {h : Hold} {L : List Event} (hL : Log t L σ)
    {post : List Event → Except Error α → Hold → Prop}
    (ha : ∀ ω σ₁ T, Rely t σ σ₁ → (∀ x ∈ T, x.1 ≠ t) → Inv cfg σ₁ ((t, h) ::ₘ T) → Ends cfg t T σ₁ (a t ω σ₁) post) :
    wp (logic env cfg) t (.atomic a) σ h (fun σ' r h' => ∃ evs, Log t (evs ++ L) σ' ∧ post evs r h') :=
  wp_ends hL fun ω σ₁ T hr _ => ha ω σ₁ T hr

/-! ## Neutral sections -/

theorem SameCore.refl (σ : Shared) : SameCore σ σ := ⟨rfl, rfl, rfl, rfl, rfl, rfl, rfl, rfl, rfl, rfl, rfl⟩

/-- A section that changes nothing the invariant mentions. -/
def Neutral (a : Sec α) : Prop := ∀ t ω σ, SameCore σ (a t ω σ).2

theorem Neutral.ends {a : Sec α} (ha : Neutral a) {h : Hold} (hi : Inv cfg σ ((t, h) ::ₘ T)) :
    Ends cfg t T σ (a t ω σ) fun evs r h' => evs = [] ∧ r = (a t ω σ).1 ∧ h' = h :=
  ⟨[], h, ⟨(ha t ω σ).history, by simp⟩, hi.same (ha t ω σ), rfl, rfl, rfl⟩

theorem Neutral.wp_await {a : Sec α} (ha : Neutral a) {g : Shared → Bool} {h : Hold}
    {Q : Shared → Except Error α → Hold → Prop}
    (hq : ∀ ω σ₁ T, env t ω σ₁ → Rely t σ σ₁ → g σ₁ = true → Inv cfg σ₁ ((t, h) ::ₘ T) → Q (a t ω σ₁).2 (a t ω σ₁).1 h) :
    wp (logic env cfg) t (.await g a) σ h Q := by
  refine Conc.wp_await fun ω σ₁ T hω hp hT hi => ?_
  have hs := ha t ω σ₁
  have hadds : Adds t [] σ₁ (a t ω σ₁).2 := ⟨hs.history, by simp⟩
  exact ⟨hadds.guar, h, Open.same hi hs, hq ω σ₁ T hω hp.1 hp.2 hi⟩

end FlashTier
