/-
Specifications of the runtime's programs. `Safe` is the contract of every program but the transfers'
own sections: it ends with a token for which its postcondition holds, or throws holding nothing, or
throws after a release call of its thread failed. A bystander is a program that touches nothing the
invariant mentions.
-/
import FlashTier.Invariant.Settle

namespace FlashTier

open Conc

variable {env : Nat → Env → Shared → Prop} {cfg : RuntimeConfig} {σ σ' : Shared} {T : Multiset (Nat × Hold)} {t : Nat} {α β : Type}
  {ids : Multiset PageId} {K : PageId → Prop} {h : Hold} {L : List Event}

/-! ## Bystanders -/

/-- Every section of the program is neutral. -/
def Bystander : Code α → Prop
  | .ret _ => True
  | .step _ a k => Neutral a ∧ ∀ r, Bystander (k r)

theorem Bystander.andThen {f : Except Error α → Code β} (hf : ∀ r, Bystander (f r)) :
    ∀ {p : Code α}, Bystander p → Bystander (p.andThen f)
  | .ret r, _ => hf r
  | .step _ _ _, hp => ⟨hp.1, fun r => Bystander.andThen hf (hp.2 r)⟩

theorem Bystander.bind {p : Code α} {f : α → Code β} (hp : Bystander p) (hf : ∀ a, Bystander (f a)) :
    Bystander (p >>= f) := by
  rw [Prog.bind_def]
  refine hp.andThen fun r => ?_
  cases r with
  | ok a => exact hf a
  | error e => trivial

theorem Bystander.pure (a : α) : Bystander (pure a : Code α) := trivial

theorem Bystander.throw (e : Error) : Bystander (throw e : Code α) := trivial

theorem Bystander.atomic {a : Sec α} (ha : Neutral a) : Bystander (.atomic a) := ⟨ha, fun _ => trivial⟩

theorem Bystander.await {g : Shared → Bool} {a : Sec α} (ha : Neutral a) : Bystander (.await g a) := ⟨ha, fun _ => trivial⟩

/-- A bystander keeps its thread's token and records nothing. -/
theorem Bystander.wp : ∀ {p : Code α} {σ : Shared}, Bystander p → Log t L σ →
    wp (logic env cfg) t p σ h fun σ' _ h' => h' = h ∧ Log t L σ'
  | .ret _, _, _, hL => ⟨rfl, hL⟩
  | .step g a k, σ, hp, hL => by
    intro ω σ₁ T _ hr hT hi _
    have hs := hp.1 t ω σ₁
    have hadds : Adds t [] σ₁ (a t ω σ₁).2 := ⟨hs.history, by simp⟩
    exact ⟨hadds.guar, h, Open.same hi hs, Bystander.wp (hp.2 _) ((hL.rely hr).adds hadds)⟩

/-! ## Safe programs -/

/-- A release call of the thread failed, in a transfer of which the thread holds the page or the buffer. -/
def Stuck (t : Nat) (σ : Shared) (h : Hold) : Prop := (∃ c : Call, c.release = true ∧ .failed t c ∈ σ.history) ∧ h.Moving

theorem Stuck.later (hs : Stuck t σ h) (hle : σ.history <:+ σ'.history) : Stuck t σ' h := by
  obtain ⟨⟨c, hc, hm⟩, hh⟩ := hs
  exact ⟨⟨c, hc, hle.subset hm⟩, hh⟩

theorem Stuck.of_log {evs : List Event} {c : Call} (hL : Log t (evs ++ L) σ) (hc : c.release = true)
    (hm : .failed t c ∈ evs) (hh : h.Moving) : Stuck t σ h :=
  ⟨⟨c, hc, (mem_mine.1 (hL.symm ▸ List.mem_append_left L hm)).1⟩, hh⟩

/-- The event takes none of the pages `K`. -/
def Spares (K : PageId → Prop) (e : Event) : Prop := ∀ t i, e = .claim t i → ¬K i

/-- The thread has recorded events that take none of the pages `K`. -/
def Spared (K : PageId → Prop) (t : Nat) (L : List Event) (σ : Shared) : Prop :=
  ∃ evs, Log t (evs ++ L) σ ∧ ∀ e ∈ evs, Spares K e

theorem Log.spared (hL : Log t L σ) : Spared K t L σ := ⟨[], hL, by simp⟩

theorem Spared.trans {evs : List Event} (he : ∀ e ∈ evs, Spares K e) (hs : Spared K t (evs ++ L) σ) : Spared K t L σ := by
  obtain ⟨evs', hl, he'⟩ := hs
  refine ⟨evs' ++ evs, by rw [List.append_assoc]; exact hl, fun e hm => ?_⟩
  exact (List.mem_append.1 hm).elim (he' e) (he e)

/-- The program returned in `F`, or threw with nothing in hand but the ids or after a failed release. -/
def Finished (t : Nat) (ids : Multiset PageId) (F : Shared → α → Hold → Prop) (σ' : Shared) (r : Except Error α) (h' : Hold) : Prop :=
  match r with
  | .ok a => F σ' a h'
  | .error _ => h' = ⟨.idle, ids⟩ ∨ Stuck t σ' h'

/-- How a program ends that takes none of the pages `K`. -/
def Post (t : Nat) (ids : Multiset PageId) (K : PageId → Prop) (L : List Event) (F : Shared → α → Hold → Prop) (σ' : Shared)
    (r : Except Error α) (h' : Hold) : Prop :=
  Spared K t L σ' ∧ Finished t ids F σ' r h'

variable (env cfg) in
/-- Run by thread `t` that holds `h`, the program ends in `F`, or throws with nothing in hand but the ids. -/
def Safe (t : Nat) (ids : Multiset PageId) (K : PageId → Prop) (p : Code α) (σ : Shared) (h : Hold)
    (F : Shared → α → Hold → Prop) : Prop :=
  ∀ L, Log t L σ → wp (logic env cfg) t p σ h (Post t ids K L F)

/-- The thread holds nothing but the ids. -/
def Idle (ids : Multiset PageId) (F : Shared → α → Prop) (σ : Shared) (a : α) (h : Hold) : Prop := h = ⟨.idle, ids⟩ ∧ F σ a

theorem Safe.mono {p : Code α} {F G : Shared → α → Hold → Prop} (hp : Safe env cfg t ids K p σ h F)
    (hFG : ∀ σ' a h', σ.history <:+ σ'.history → F σ' a h' → G σ' a h') : Safe env cfg t ids K p σ h G := by
  intro L hL
  refine wp_mono (fun σ' r h' hle hq => ⟨hq.1, ?_⟩) (hp L hL)
  cases r with
  | ok a => exact hFG σ' a h' hle hq.2
  | error e => exact hq.2

theorem Safe.bind {p : Code α} {f : α → Code β} {F : Shared → α → Hold → Prop} {G : Shared → β → Hold → Prop}
    (hp : Safe env cfg t ids K p σ h F)
    (hf : ∀ σ' a h', σ.history <:+ σ'.history → F σ' a h' → Safe env cfg t ids K (f a) σ' h' G) :
    Safe env cfg t ids K (p >>= f) σ h G := by
  intro L hL
  refine wp_bind (hp L hL) (fun σ' a h' hle hq => ?_) fun σ' e h' _ hq => hq
  obtain ⟨⟨evs, hl, he⟩, hF⟩ := hq
  exact wp_mono (fun σ'' r h'' _ hq => ⟨hq.1.trans he, hq.2⟩) (hf σ' a h' hle hF _ hl)

theorem Safe.ret {a : α} {F : Shared → α → Hold → Prop} (hF : F σ a h) : Safe env cfg t ids K (pure a : Code α) σ h F :=
  fun _ hL => ⟨hL.spared, hF⟩

theorem Safe.throw {e : Error} {F : Shared → α → Hold → Prop} : Safe env cfg t ids K (throw e : Code α) σ ⟨.idle, ids⟩ F :=
  fun _ hL => ⟨hL.spared, .inl rfl⟩

/-- A section given by how its runs end. -/
theorem Safe.await {g : Shared → Bool} {a : Sec α} {F : Shared → α → Hold → Prop}
    (ha : ∀ ω σ₁ T, Rely t σ σ₁ → g σ₁ = true → (∀ x ∈ T, x.1 ≠ t) → Inv cfg σ₁ ((t, h) ::ₘ T) →
      Ends cfg t T σ₁ (a t ω σ₁) fun evs r h' => (∀ e ∈ evs, Spares K e) ∧ match r with
        | .ok x => F (a t ω σ₁).2 x h'
        | .error _ => h' = ⟨.idle, ids⟩ ∨ (∃ c : Call, c.release = true ∧ .failed t c ∈ evs) ∧ h'.Moving) :
    Safe env cfg t ids K (.await g a) σ h F := by
  intro L hL
  refine wp_await fun ω σ₁ T _ hp hT hi => ?_
  obtain ⟨evs, h', hadds, hi', he, hq⟩ := ha ω σ₁ T hp.1 hp.2 hT hi
  have hL' := (hL.rely hp.1).adds hadds
  refine ⟨hadds.guar, h', hi', ⟨evs, hL', he⟩, ?_⟩
  rcases hr : (a t ω σ₁).1 with e | x
  · rw [hr] at hq
    exact hq.imp_right fun ⟨⟨c, hc, hm⟩, hh⟩ => Stuck.of_log hL' hc hm hh
  · rw [hr] at hq
    exact hq

theorem Safe.atomic {a : Sec α} {F : Shared → α → Hold → Prop}
    (ha : ∀ ω σ₁ T, Rely t σ σ₁ → (∀ x ∈ T, x.1 ≠ t) → Inv cfg σ₁ ((t, h) ::ₘ T) →
      Ends cfg t T σ₁ (a t ω σ₁) fun evs r h' => (∀ e ∈ evs, Spares K e) ∧ match r with
        | .ok x => F (a t ω σ₁).2 x h'
        | .error _ => h' = ⟨.idle, ids⟩ ∨ (∃ c : Call, c.release = true ∧ .failed t c ∈ evs) ∧ h'.Moving) :
    Safe env cfg t ids K (.atomic a) σ h F :=
  Safe.await fun ω σ₁ T hr _ => ha ω σ₁ T hr

/-- A neutral section of a thread that holds nothing. -/
theorem Safe.neutral {g : Shared → Bool} {a : Sec α} (ha : Neutral a) {F : Shared → α → Prop}
    (hF : ∀ ω σ₁ T x, Rely t σ σ₁ → g σ₁ = true → Inv cfg σ₁ ((t, ⟨.idle, ids⟩) ::ₘ T) → (a t ω σ₁).1 = .ok x →
      F (a t ω σ₁).2 x) :
    Safe env cfg t ids K (.await g a) σ ⟨.idle, ids⟩ (Idle ids F) := by
  refine Safe.await fun ω σ₁ T hr hg _ hi => ?_
  obtain ⟨evs, h', hadds, hi', rfl, hres, rfl⟩ := ha.ends (ω := ω) hi
  refine ⟨[], _, hadds, hi', by simp, ?_⟩
  rcases hx : (a t ω σ₁).1 with e | x
  · exact .inl rfl
  · exact ⟨rfl, hF ω σ₁ T x hr hg hi hx⟩

theorem Safe.of_bystander {p : Code α} (hp : Bystander p) : Safe env cfg t ids K p σ ⟨.idle, ids⟩ (Idle ids fun _ _ => True) := by
  intro L hL
  refine wp_mono (fun σ' r h' _ hq => ?_) (hp.wp hL)
  obtain ⟨rfl, hl⟩ := hq
  refine ⟨hl.spared, ?_⟩
  cases r with
  | ok a => exact ⟨rfl, trivial⟩
  | error e => exact .inl rfl

/-- A bystander as the first part of a program of a thread that holds nothing. -/
theorem Safe.pass {p : Code α} {f : α → Code β} {G : Shared → β → Hold → Prop} (hp : Bystander p)
    (hf : ∀ σ' a, σ.history <:+ σ'.history → Safe env cfg t ids K (f a) σ' ⟨.idle, ids⟩ G) :
    Safe env cfg t ids K (p >>= f) σ ⟨.idle, ids⟩ G :=
  (Safe.of_bystander hp).bind fun σ' a _ hle hq => by rw [hq.1]; exact hf σ' a hle

/-! ## Plain programs -/

variable (env cfg) in
/-- A program that starts and returns with nothing in hand but the ids, and may take any page. -/
def Plain (t : Nat) (ids : Multiset PageId) (p : Code α) (σ : Shared) (F : Shared → α → Prop) : Prop :=
  Safe env cfg t ids (fun _ => False) p σ ⟨.idle, ids⟩ (Idle ids F)

section

variable {p : Code α} {f : α → Code β} {F : Shared → α → Prop} {G : Shared → β → Prop}

theorem Plain.bind (hp : Plain env cfg t ids p σ F)
    (hf : ∀ σ' a, σ.history <:+ σ'.history → F σ' a → Plain env cfg t ids (f a) σ' G) : Plain env cfg t ids (p >>= f) σ G :=
  Safe.bind hp fun σ' a h' hle hq => by rw [hq.1]; exact hf σ' a hle hq.2

theorem Plain.pass (hp : Bystander p) (hf : ∀ σ' a, σ.history <:+ σ'.history → Plain env cfg t ids (f a) σ' G) :
    Plain env cfg t ids (p >>= f) σ G :=
  Safe.pass hp hf

theorem Plain.ret {a : α} (hF : F σ a) : Plain env cfg t ids (pure a) σ F := Safe.ret ⟨rfl, hF⟩

theorem Plain.throw {e : Error} : Plain env cfg t ids (throw e : Code α) σ F := Safe.throw

theorem Plain.mono {F' : Shared → α → Prop} (hp : Plain env cfg t ids p σ F)
    (hF : ∀ σ' a, σ.history <:+ σ'.history → F σ' a → F' σ' a) : Plain env cfg t ids p σ F' :=
  Safe.mono hp fun σ' a _ hle hq => ⟨hq.1, hF σ' a hle hq.2⟩

theorem Plain.of_bystander (hp : Bystander p) : Plain env cfg t ids p σ fun _ _ => True := Safe.of_bystander hp

theorem spares_false (e : Event) : Spares (fun _ => False) e := fun _ _ _ hf => hf

/-- A section of a plain program. -/
theorem Plain.await {g : Shared → Bool} {a : Sec α}
    (ha : ∀ ω σ₁ T, Rely t σ σ₁ → g σ₁ = true → Inv cfg σ₁ ((t, ⟨.idle, ids⟩) ::ₘ T) →
      Ends cfg t T σ₁ (a t ω σ₁) fun _ r h' => h' = ⟨.idle, ids⟩ ∧ ∀ x, r = .ok x → F (a t ω σ₁).2 x) :
    Plain env cfg t ids (.await g a) σ F := by
  refine Safe.await fun ω σ₁ T hr hg _ hi => (ha ω σ₁ T hr hg hi).mono fun evs r h' hq => ?_
  refine ⟨fun e _ => spares_false e, ?_⟩
  cases r with
  | ok x => exact ⟨hq.1, hq.2 x rfl⟩
  | error e => exact .inl hq.1

theorem Plain.atomic {a : Sec α}
    (ha : ∀ ω σ₁ T, Rely t σ σ₁ → Inv cfg σ₁ ((t, ⟨.idle, ids⟩) ::ₘ T) →
      Ends cfg t T σ₁ (a t ω σ₁) fun _ r h' => h' = ⟨.idle, ids⟩ ∧ ∀ x, r = .ok x → F (a t ω σ₁).2 x) :
    Plain env cfg t ids (.atomic a) σ F :=
  Plain.await fun ω σ₁ T hr _ => ha ω σ₁ T hr

end

end FlashTier
