/-
Requests and the worker: handing a demand to the workers and waiting for it touches nothing the invariant
mentions, and a worker's turn is a load whose error it keeps. `Rests` is how every thread ends.
-/
import FlashTier.Invariant.Residency

namespace FlashTier

open Conc

variable {env : Nat → Env → Shared → Prop} {cfg : RuntimeConfig} {σ σ' : Shared} {t : Nat} {α : Type} {id : PageId} {ids : Multiset PageId} {h : Hold}

/-! ## How a thread ends -/

/-- The thread holds nothing, or a release call of its own failed. -/
def Rests (t : Nat) (σ : Shared) (h : Hold) : Prop := h.tok = .idle ∨ Stuck t σ h

theorem Rests.later (hr : Rests t σ h) (hle : σ.history <:+ σ'.history) : Rests t σ' h :=
  hr.imp_right fun hs => hs.later hle

theorem Finished.rests {F : Shared → α → Prop} {r : Except Error α} (hf : Finished t ids (Idle ids F) σ r h) : Rests t σ h := by
  cases r with
  | ok a => exact .inl (by rw [hf.1])
  | error e => exact hf.imp_left fun hh => by rw [hh]

theorem Plain.rests {p : Code α} {F : Shared → α → Prop} (hp : Plain env cfg t ids p σ F) :
    wp (logic env cfg) t p σ ⟨.idle, ids⟩ fun σ' _ h' => Rests t σ' h' :=
  wp_mono (fun _ _ _ _ hq => hq.2.rests) (hp _ rfl)

theorem Bystander.rests {p : Code α} (hp : Bystander p) (hr : Rests t σ h) :
    Conc.wp (logic env cfg) t p σ h fun σ' _ h' => Rests t σ' h' :=
  wp_mono (fun _ _ _ hle hq => by rw [hq.1]; exact hr.later hle) (hp.wp rfl)

/-! ## Requests -/

theorem neutral_pushDemand (id : PageId) (target : Tier) : Neutral (pushDemand id target) := fun _ _ σ => by
  unfold pushDemand
  split
  · exact SameCore.refl σ
  · exact ⟨rfl, rfl, rfl, rfl, rfl, rfl, rfl, rfl, rfl, rfl, rfl⟩

theorem bystander_submitDemand (id : PageId) (target : Tier) : Bystander (submitDemand cfg id target) :=
  (Bystander.await (neutral_pushDemand id target)).bind fun _ => Bystander.await neutral_of_state

theorem neutral_pushPrefetch (id : PageId) (target : Tier) : Neutral (pushPrefetch cfg id target) := fun _ _ σ => by
  unfold pushPrefetch
  split
  · exact SameCore.refl σ
  split
  · exact SameCore.refl σ
  split
  · exact ⟨rfl, rfl, rfl, rfl, rfl, rfl, rfl, rfl, rfl, rfl, rfl⟩
  · exact SameCore.refl σ

theorem bystander_submitPrefetch (id : PageId) (target : Tier) : Bystander (submitPrefetch cfg id target) := by
  refine (Bystander.atomic (neutral_pushPrefetch id target)).bind fun r => ?_
  cases r with
  | duplicate => exact Bystander.pure ()
  | queued | full => exact Bystander.atomic neutral_emitEvent

theorem neutral_setPromise (completion : Option Nat) (r : Except Error Unit) : Neutral (setPromise completion r) := fun _ _ σ => by
  cases completion with
  | none => exact SameCore.refl σ
  | some k => exact ⟨rfl, rfl, rfl, rfl, rfl, rfl, rfl, rfl, rfl, rfl, rfl⟩

theorem neutral_markPrefetched (id : PageId) : Neutral (markPrefetched id) := fun _ _ σ => by
  show SameCore σ (if _ then _ else _)
  split
  · exact ⟨rfl, rfl, rfl, rfl, rfl, rfl, rfl, rfl, rfl, rfl, rfl⟩
  · exact SameCore.refl σ

theorem neutral_unmarkPrefetched (id : PageId) : Neutral (unmarkPrefetched id) :=
  fun _ _ _ => ⟨rfl, rfl, rfl, rfl, rfl, rfl, rfl, rfl, rfl, rfl, rfl⟩

theorem neutral_removeQueuedPrefetch (id : PageId) : Neutral (removeQueuedPrefetch id) :=
  fun _ _ _ => ⟨rfl, rfl, rfl, rfl, rfl, rfl, rfl, rfl, rfl, rfl, rfl⟩

theorem neutral_beginShutdown : Neutral beginShutdown := fun _ _ _ => ⟨rfl, rfl, rfl, rfl, rfl, rfl, rfl, rfl, rfl, rfl, rfl⟩

theorem neutral_popRequest : Neutral popRequest := fun _ _ σ => by
  unfold popRequest
  split
  · exact SameCore.refl σ
  · exact ⟨rfl, rfl, rfl, rfl, rfl, rfl, rfl, rfl, rfl, rfl, rfl⟩

theorem bystander_consumePrefetchMark (id : PageId) : Bystander (consumePrefetchMark id) := by
  refine (Bystander.atomic fun _ _ _ => ⟨rfl, rfl, rfl, rfl, rfl, rfl, rfl, rfl, rfl, rfl, rfl⟩).bind fun hit => ?_
  cases hit with
  | true => exact Bystander.atomic neutral_emitEvent
  | false => exact Bystander.pure ()

theorem bystander_ite {c : Prop} [Decidable c] {p q : Code α} (hp : Bystander p) (hq : Bystander q) :
    Bystander (if c then p else q) := by
  split
  · exact hp
  · exact hq

/-! ## The worker -/

theorem bystander_workerFailed (r : Request) (e : Error) : Bystander (workerFailed r e) := by
  have hset : Bystander (.atomic (setPromise r.completion (.error e)) : Code Unit) := Bystander.atomic (neutral_setPromise _ _)
  have hrest : Bystander (if e.code ≠ .cancelled then do
      .atomic emitEvent
      .atomic (setPromise r.completion (.error e))
    else .atomic (setPromise r.completion (.error e)) : Code Unit) :=
    bystander_ite ((Bystander.atomic neutral_emitEvent).bind fun _ => hset) hset
  unfold workerFailed
  exact bystander_ite ((Bystander.atomic (neutral_unmarkPrefetched _)).bind fun _ => hrest) hrest

/-- A worker's turn: a load that failed after a release call did leaves what it had taken. -/
theorem workerTurn_wp : wp (logic env cfg) t (workerTurn cfg) σ ⟨.idle, ids⟩ fun σ' _ h' => Rests t σ' h' := by
  have hload : ∀ (r : Request) (σ : Shared), wp (logic env cfg) t
      (tryCatch (do loadPage cfg r.page r.target; .atomic (setPromise r.completion (.ok ()))) (workerFailed r) : Code Unit)
      σ ⟨.idle, ids⟩ fun σ' _ h' => Rests t σ' h' := by
    intro r σ
    have hplain : Plain env cfg t ids (do loadPage cfg r.page r.target; .atomic (setPromise r.completion (.ok ())) : Code Unit) σ
        fun _ _ => True :=
      loadPage_plain.bind fun _ _ _ _ => Plain.of_bystander (Bystander.atomic (neutral_setPromise _ _))
    exact wp_tryCatch hplain.rests (fun _ _ _ _ hq => hq) fun _ e _ _ hq => (bystander_workerFailed r e).rests hq
  have hserved : ∀ (r : Request) (σ : Shared), wp (logic env cfg) t (do
      tryCatch (do loadPage cfg r.page r.target; .atomic (setPromise r.completion (.ok ()))) (workerFailed r)
      if r.kind = .prefetch then .atomic (finishPrefetch r.page) else pure () : Code Unit) σ ⟨.idle, ids⟩ fun σ' _ h' => Rests t σ' h' := by
    intro r σ
    refine wp_bind (hload r σ) (fun σ₂ _ h₂ _ hq => ?_) fun _ _ _ _ hq => hq
    refine Bystander.rests (bystander_ite (Bystander.atomic ?_) (Bystander.pure ())) hq
    exact fun _ _ _ => ⟨rfl, rfl, rfl, rfl, rfl, rfl, rfl, rfl, rfl, rfl, rfl⟩
  have hserve : ∀ (r : Request) (σ : Shared), wp (logic env cfg) t (serve cfg r) σ ⟨.idle, ids⟩ fun σ' _ h' => Rests t σ' h' := by
    intro r σ
    unfold serve
    by_cases hk : r.kind = .prefetch
    · simp only [if_pos hk]
      refine wp_bind ((Bystander.atomic (neutral_markPrefetched _)).wp rfl) (fun σ₁ _ h₁ _ hq => ?_) fun _ _ _ _ hq => .inl (by rw [hq.1])
      rw [hq.1]
      have := hserved r σ₁
      rwa [if_pos hk] at this
    · simp only [if_neg hk]
      have := hserved r σ
      rwa [if_neg hk] at this
  refine wp_bind ((Bystander.await neutral_popRequest).wp rfl) (fun σ₁ r h₁ _ hq => ?_) fun σ₁ _ h₁ _ hq => .inl (by rw [hq.1])
  rw [hq.1]
  cases r with
  | none => exact .inl rfl
  | some r => exact hserve r σ₁

/-! ## Operations that hand work to the workers -/

theorem bystander_promote (id : PageId) : Bystander (promote cfg id) := by
  refine bystander_requireRunning.bind fun _ => (Bystander.atomic (neutral_copyOf id)).bind fun m => ?_
  refine bystander_ite (Bystander.pure ()) ((Bystander.atomic neutral_of_state).bind fun _ => bystander_submitDemand id _)

theorem bystander_prefetchEach : ∀ l : List PageId, Bystander (prefetchEach cfg l)
  | [] => Bystander.pure ()
  | id :: rest => (bystander_waitSettled id).bind fun _ => bystander_ite (bystander_prefetchEach rest)
      ((Bystander.atomic neutral_of_state).bind fun _ => (bystander_submitPrefetch id _).bind fun _ => bystander_prefetchEach rest)

theorem bystander_prefetch (l : List PageId) : Bystander (prefetch cfg l) :=
  bystander_requireRunning.bind fun _ => bystander_prefetchEach l

theorem bystander_prefetchSequential (start count : Nat) : Bystander (prefetchSequential cfg start count) :=
  bystander_ite (Bystander.throw _) (bystander_prefetch _)

end FlashTier
