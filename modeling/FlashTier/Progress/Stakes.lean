/-
What the threads of the runtime wait for, and what each of them has that another may wait for: a page it has taken,
waiters it has to wake, the headroom lock, the promise of a demand in its hands. The sections that leave all of this
alone; those that take a page or give it back.
-/
import FlashTier.Conc.Waits
import FlashTier.Runtime.Ops
import FlashTier.Invariant.Calls

namespace FlashTier

open Conc

variable {cfg : RuntimeConfig} {l : Op} {t : Nat} {ω : Env} {σ σ' σ'' : Shared} {α β : Type} {id : PageId}

/-! ## Waits and stakes -/

/-- What a thread may wait for: nothing, room in the queue, the result of a demand, a page to settle or to be free
for its release, the headroom lock. -/
inductive Wait where
  | nothing
  | room
  | result (k : Nat)
  | settled (id : PageId)
  | releasable (id : PageId)
  | headroom

def Wait.guard (cfg : RuntimeConfig) : Wait → Shared → Bool
  | .nothing => fun _ => true
  | .room => fun σ => σ.stopping || !σ.running || σ.queue.length < cfg.queueDepth
  | .result k => (·.satisfied k)
  | .settled id => fun σ => σ.stopping || σ.settled id
  | .releasable id => (·.releasable id)
  | .headroom => fun σ => !σ.headroomHeld

/-- What a thread has: a page it has taken, waiters to notify of a page it has given back, the headroom lock, the promise of
a demand in its hands, the future of one it has made. -/
inductive Stake where
  | page (id : PageId)
  | waiters
  | headroom
  | promise (k : Nat)
  | future (k : Nat)
  deriving DecidableEq

abbrev Stakes := Multiset Stake

def Op.isWorker : Op → Bool
  | .worker => true
  | _ => false

/-- The thread has no page, no waiters to notify, not the lock, and no request in its hands unless it is a worker. -/
structure Stakes.Free (l : Op) (h : Stakes) : Prop where
  page : ∀ id, Stake.page id ∉ h
  waiters : Stake.waiters ∉ h
  headroom : Stake.headroom ∉ h
  promise : l.isWorker = false → ∀ k, Stake.promise k ∉ h

theorem free_zero : Stakes.Free l 0 :=
  ⟨fun _ => Multiset.notMem_zero _, Multiset.notMem_zero _, Multiset.notMem_zero _, fun _ _ => Multiset.notMem_zero _⟩

/-- What a thread may wait for: a thread that has a page, waiters to notify or the lock, for nothing; a worker with a
request, not for room, the result of a demand or a release. -/
def Wait.Admitted (l : Op) (h : Stakes) : Wait → Prop
  | .nothing => True
  | .settled _ | .headroom => h.Free l
  | .room | .releasable _ => h.Free l ∧ l.isWorker = false
  | .result k => h.Free l ∧ l.isWorker = false ∧ Stake.future k ∈ h

/-- The thread has given a page back, or erased it, and has not notified the waiters since. -/
def unnotified (t : Nat) : List Event → Bool
  | [] => false
  | .notified t' :: h => t' ≠ t && unnotified t h
  | .settle t' _ _ _ :: h | .erase t' _ :: h => t' = t || unnotified t h
  | _ :: h => unnotified t h

/-- A page that a thread has taken, waiters it has not notified, the lock, and a promise that is not satisfied are in some
thread's stakes, unless the demand is still in the queue. -/
structure Staked (σ : Shared) (T : Multiset (Nat × Stakes)) : Prop where
  pages : ∀ x ∈ T, ∀ id, (ownersIn σ.history id).count x.1 ≤ x.2.count (.page id)
  waiters : ∀ x ∈ T, unnotified x.1 σ.history = true → Stake.waiters ∈ x.2
  headroom : σ.headroomHeld = true → ∃ x ∈ T, Stake.headroom ∈ x.2
  promises : ∀ k, σ.promises[k]? = some none → (∃ r ∈ σ.queue, r.completion = some k) ∨ ∃ x ∈ T, Stake.promise k ∈ x.2
  futures : ∀ x ∈ T, ∀ k, Stake.future k ∈ x.2 → k < σ.promises.length
  prefetches : ∀ r ∈ σ.queue, r.kind = .prefetch → r.completion = none

/-- The waits of the runtime, when no emission throws. -/
def watch (cfg : RuntimeConfig) : Watch Env Shared Stakes Op where
  env ω := ω.emit = none
  Inv := Staked
  may l h g := ∃ w : Wait, g = w.guard cfg ∧ w.Admitted l h

theorem may_nothing {h : Stakes} : (watch cfg).may l h fun _ => true := ⟨.nothing, rfl, trivial⟩

/-- A stake of one of the threads, when the running thread keeps it or it is another's. -/
theorem exists_stake {h h' : Stakes} {T : Multiset (Nat × Stakes)} {s : Stake} (hs : ∃ x ∈ (t, h) ::ₘ T, s ∈ x.2) (hh : s ∈ h → s ∈ h') :
    ∃ x ∈ (t, h') ::ₘ T, s ∈ x.2 := by
  obtain ⟨x, hx, hs⟩ := hs
  rcases Multiset.mem_cons.1 hx with rfl | hx
  · exact ⟨(t, h'), Multiset.mem_cons_self .., hh hs⟩
  · exact ⟨x, Multiset.mem_cons_of_mem hx, hs⟩

/-! ## Owners -/

/-- A thread takes a page. -/
def Event.takes : Event → Bool
  | .claim .. | .release .. => true
  | _ => false

/-- A thread gives a page back, or erases it. -/
def Event.settles : Event → Bool
  | .settle .. | .erase .. => true
  | _ => false

/-- The event takes a page or gives one back. -/
def Event.stirs (e : Event) : Bool := e.takes || e.settles

theorem takes_of_stirs {e : Event} (he : e.stirs = false) : e.takes = false := (Bool.or_eq_false_iff.1 he).1

/-- Other events leave no thread with waiters to notify. -/
theorem unnotified_of_cons {e : Event} (he : e.settles = false) {h : List Event} (hu : unnotified t (e :: h) = true) : unnotified t h = true := by
  cases e with
  | notified t' => exact (Bool.and_eq_true_iff.1 hu).2
  | settle | erase => cases he
  | _ => exact hu

/-- Other events do not make a thread the owner of a page. -/
theorem count_owners_le {e : Event} (he : e.takes = false) (h : List Event) (t : Nat) (id : PageId) :
    (ownersIn (e :: h) id).count t ≤ (ownersIn h id).count t := by
  cases e with
  | alloc t' i n b x =>
    rw [ownersIn]
    split
    · exact Nat.zero_le _
    · exact le_rfl
  | settle t' i s b =>
    rw [ownersIn]
    split
    · exact (List.erase_sublist).count_le t
    · exact le_rfl
  | claim | release => cases he
  | _ => exact le_rfl

/-- The event makes its thread an owner once more, and no other. -/
theorem count_owners_takes {e : Event} (he : e.takes = true) (hp : e.page = some id) (ht : e.thread = t) (h : List Event) (t' : Nat) (id' : PageId) :
    (ownersIn (e :: h) id').count t' ≤ (ownersIn h id').count t' + if t' = t ∧ id' = id then 1 else 0 := by
  cases e with
  | claim s i | release s i o =>
    cases ht
    cases hp
    rw [ownersIn]
    split
    · rename_i hid
      rw [List.count_cons, hid]
      by_cases hs : s = t'
      · simp [hs, Event.thread]
      · simp [hs]
    · exact Nat.le_add_right _ _
  | _ => cases he

theorem count_owners_settle (h : List Event) (t : Nat) (id : PageId) (s : PageState) (b : Bool) :
    (ownersIn (.settle t id s b :: h) id).count t = (ownersIn h id).count t - 1 := by
  rw [ownersIn, if_pos rfl, List.count_erase_self]

/-! ## Sections that leave the stakes alone -/

/-- The queue, the promises and the lock are as they were, and no thread has taken a page or given one back without
notifying the waiters. -/
structure Steady (σ σ' : Shared) : Prop where
  queue : σ'.queue = σ.queue
  promises : σ'.promises = σ.promises
  headroom : σ'.headroomHeld = σ.headroomHeld
  owners : ∀ t id, (ownersIn σ'.history id).count t ≤ (ownersIn σ.history id).count t
  waiters : ∀ t, unnotified t σ'.history = true → unnotified t σ.history = true

theorem Steady.refl (σ : Shared) : Steady σ σ := ⟨rfl, rfl, rfl, fun _ _ => le_rfl, fun _ h => h⟩

theorem Steady.trans (h : Steady σ σ') (h' : Steady σ' σ'') : Steady σ σ'' :=
  ⟨h'.queue.trans h.queue, h'.promises.trans h.promises, h'.headroom.trans h.headroom, fun t id => (h'.owners t id).trans (h.owners t id),
    fun t hu => h.waiters t (h'.waiters t hu)⟩

theorem steady_of_history (hq : σ'.queue = σ.queue) (hp : σ'.promises = σ.promises) (hl : σ'.headroomHeld = σ.headroomHeld)
    (hh : σ'.history = σ.history) : Steady σ σ' :=
  ⟨hq, hp, hl, fun t id => (by rw [hh]), fun t hu => (by rwa [hh] at hu)⟩

theorem steady_logged {e : Event} (he : e.stirs = false) (hq : σ'.queue = σ.queue) (hp : σ'.promises = σ.promises)
    (hl : σ'.headroomHeld = σ.headroomHeld) (hh : σ'.history = e :: σ.history) : Steady σ σ' := by
  refine ⟨hq, hp, hl, fun t id => ?_, fun t hu => ?_⟩
  · rw [hh]
    exact count_owners_le (takes_of_stirs he) σ.history t id
  · rw [hh] at hu
    exact unnotified_of_cons (Bool.or_eq_false_iff.1 he).2 hu

theorem steady_log (σ : Shared) {e : Event} (he : e.stirs = false) : Steady σ (σ.log e) := steady_logged he rfl rfl rfl rfl

theorem steady_wrap (b : Bool) (σ : Shared) : Steady σ (σ.noteWrap t b) := by
  cases b with
  | true => exact steady_log σ rfl
  | false => exact Steady.refl σ

theorem Staked.steady {T : Multiset (Nat × Stakes)} (h : Staked σ T) (hs : Steady σ σ') : Staked σ' T := by
  refine ⟨fun x hx id => (hs.owners x.1 id).trans (h.pages x hx id), fun x hx hu => h.waiters x hx (hs.waiters x.1 hu), ?_, ?_, ?_, ?_⟩
  · rw [hs.headroom]
    exact h.headroom
  · rw [hs.promises, hs.queue]
    exact h.promises
  · rw [hs.promises]
    exact h.futures
  · rw [hs.queue]
    exact h.prefetches

/-- Whoever runs the section, it leaves the stakes alone. -/
def Steadies (β : Type) (a : Sec β) : Prop := ∀ t ω σ, Steady σ (a t ω σ).2

theorem steadies_of_state {f : Nat → Env → Shared → Except Error α} : Steadies α fun t ω σ => (f t ω σ, σ) := fun _ _ σ => Steady.refl σ

theorem steadies_pure (a : α) : Steadies α (pure a) := steadies_of_state

theorem steadies_throw (e : Error) : Steadies α (throw e) := steadies_of_state

theorem steadies_record {e : Nat → Event} (he : ∀ t, (e t).stirs = false) : Steadies Unit (record e) := fun t _ σ => steady_log σ (he t)

theorem steadies_modify {f : Shared → Shared} (hf : ∀ σ, ((f σ).queue, (f σ).promises, (f σ).headroomHeld, (f σ).history) =
    (σ.queue, σ.promises, σ.headroomHeld, σ.history)) : Steadies Unit (Act.modify f) := by
  intro t ω σ
  have h := hf σ
  simp only [Prod.mk.injEq] at h
  exact steady_of_history h.1 h.2.1 h.2.2.1 h.2.2.2

theorem Steadies.bind {a : Sec α} {f : α → Sec β} (ha : Steadies α a) (hf : ∀ x, Steadies β (f x)) : Steadies β (a >>= f) :=
  fun t ω σ => Act.bind_relates (R := Steady) Steady.trans (ha t ω σ) fun x => hf x t ω

theorem Steadies.tryCatch {a : Sec α} {f : Error → Sec α} (ha : Steadies α a) (hf : ∀ e, Steadies α (f e)) :
    Steadies α (MonadExcept.tryCatch a f) :=
  fun t ω σ => Act.tryCatch_relates (R := Steady) Steady.trans (ha t ω σ) fun e => hf e t ω

theorem Steadies.ite {c : Prop} [Decidable c] {a b : Sec α} (ha : Steadies α a) (hb : Steadies α b) : Steadies α (if c then a else b) := by
  split
  · exact ha
  · exact hb

/-! ## Calls -/

theorem steadies_copyOf : Steadies _ (copyOf id) := by
  intro t ω σ
  unfold copyOf
  split <;> exact Steady.refl σ

theorem steadies_withPage {f : PageMetadata → PageMetadata} : Steadies _ (withPage id f) := by
  intro t ω σ
  unfold withPage
  split
  · exact steady_of_history rfl rfl rfl rfl
  · exact Steady.refl σ

theorem steadies_transition {dst : PageState} : Steadies _ (transition id dst) := by
  intro t ω σ
  unfold transition
  split
  · exact Steady.refl σ
  split
  · exact steady_of_history rfl rfl rfl rfl
  · exact steady_log σ rfl

theorem steadies_insertPage {p : PageMetadata} : Steadies _ (insertPage p) := by
  intro t ω σ
  unfold insertPage
  split
  · exact steady_of_history rfl rfl rfl rfl
  · exact steady_log σ rfl

theorem steadies_vramTryReserve {n : Nat} : Steadies _ (vramTryReserve n) := by
  intro t ω σ
  unfold vramTryReserve
  split
  · exact (steady_wrap _ σ).trans (steady_of_history rfl rfl rfl rfl)
  · exact Steady.refl σ

theorem steadies_vramRelease {n : Nat} : Steadies _ (vramRelease n) := by
  intro t ω σ
  unfold vramRelease
  split
  · exact steady_of_history rfl rfl rfl rfl
  · exact steady_log σ rfl

theorem steadies_nvmeTryReserve {n : Nat} : Steadies _ (nvmeTryReserve n) := by
  intro t ω σ
  unfold nvmeTryReserve
  split
  · exact (steady_wrap _ σ).trans (steady_of_history rfl rfl rfl rfl)
  · exact Steady.refl σ

theorem steadies_nvmeRelease {n : Nat} : Steadies _ (nvmeRelease n) := by
  intro t ω σ
  unfold nvmeRelease
  split
  · exact steady_of_history rfl rfl rfl rfl
  · exact steady_log σ rfl

theorem steadies_hostAllocate {n : Nat} {b : Bool} : Steadies _ (hostAllocate n b) := by
  intro t ω σ
  unfold hostAllocate
  split
  · exact Steady.refl σ
  split
  · exact Steady.refl σ
  split
  · exact Steady.refl σ
  dsimp only
  split
  · exact steady_log σ rfl
  · exact (steady_wrap _ σ).trans (steady_of_history rfl rfl rfl rfl)

theorem steadies_hostFree {ptr : Ptr} {n : Nat} : Steadies _ (hostFree ptr n) := by
  intro t ω σ
  unfold hostFree
  split
  · exact steady_log σ rfl
  split
  · exact steady_log σ rfl
  split
  · exact steady_log σ rfl
  · exact (steady_wrap _ σ).trans (steady_of_history rfl rfl rfl rfl)

theorem steadies_allocationTier {ptr : Ptr} : Steadies _ (allocationTier ptr) := by
  intro t ω σ
  unfold allocationTier
  split
  · exact Steady.refl σ
  · exact steady_log σ rfl

theorem steadies_deviceAlloc {n : Nat} : Steadies _ (deviceAlloc cfg n) := by
  intro t ω σ
  unfold deviceAlloc
  split
  · exact Steady.refl σ
  split
  · exact steady_log σ rfl
  · exact steady_of_history rfl rfl rfl rfl

theorem steadies_deviceFree {ptr : Option Ptr} : Steadies _ (deviceFree cfg ptr) := by
  intro t ω σ
  unfold deviceFree
  split
  · exact Steady.refl σ
  split
  · exact Steady.refl σ
  split
  · exact steady_log σ rfl
  · exact steady_of_history rfl rfl rfl rfl

theorem steadies_deviceCopyH2D {dst : Ptr} {src : Bytes} {n : Nat} : Steadies _ (deviceCopyH2D cfg dst src n) := by
  intro t ω σ
  unfold deviceCopyH2D
  split
  · exact Steady.refl σ
  split
  · exact Steady.refl σ
  split
  · exact steady_of_history rfl rfl rfl rfl
  · exact steady_logged (e := .failed t .deviceCopy) rfl rfl rfl rfl rfl

theorem steadies_deviceCopyD2H {dst src : Ptr} {n : Nat} : Steadies _ (deviceCopyD2H cfg dst src n) := by
  intro t ω σ
  unfold deviceCopyD2H
  split
  · exact Steady.refl σ
  split
  · exact Steady.refl σ
  split
  · exact steady_of_history rfl rfl rfl rfl
  · exact steady_logged (e := .failed t .deviceCopy) rfl rfl rfl rfl rfl

theorem steadies_deviceStage {src : Ptr} {n : Nat} : Steadies _ (deviceStage cfg src n) := by
  intro t ω σ
  unfold deviceStage
  split
  · exact Steady.refl σ
  split
  · exact Steady.refl σ
  split
  · exact Steady.refl σ
  · exact steady_log σ rfl

theorem steadies_allocateExtents {n : Nat} : Steadies _ (allocateExtents n) := by
  intro t ω σ
  unfold allocateExtents
  split
  · exact Steady.refl σ
  · exact Steady.refl σ
  · exact (steady_wrap _ σ).trans (steady_of_history rfl rfl rfl rfl)

theorem steadies_freeExtents {off n : Nat} : Steadies _ (freeExtents off n) := by
  intro t ω σ
  unfold freeExtents
  split
  · exact steady_log σ rfl
  · exact (steady_wrap _ σ).trans (steady_of_history rfl rfl rfl rfl)

theorem steadies_submitIo {what : String} {off : Option Nat} {n : Nat} : Steadies _ (submitIo what off n) := by
  intro t ω σ
  unfold submitIo
  split
  · exact steady_log σ rfl
  split
  · exact steady_log σ rfl
  · exact steady_of_history rfl rfl rfl rfl

theorem steadies_awaitRead {off : Nat} {dst : Ptr} {n : Nat} : Steadies _ (awaitRead off dst n) := by
  intro t ω σ
  unfold awaitRead
  split
  · exact steady_of_history rfl rfl rfl rfl
  · exact steady_logged (e := .failed t .storeIo) rfl rfl rfl rfl rfl

theorem steadies_awaitWrite {off : Nat} {src : Ptr} {n : Nat} : Steadies _ (awaitWrite off src n) := by
  intro t ω σ
  unfold awaitWrite
  split
  · exact steady_of_history rfl rfl rfl rfl
  · exact steady_logged (e := .failed t .storeIo) rfl rfl rfl rfl rfl

theorem steadies_recordMove {cause : Cause} {m : PageMetadata} : Steadies _ (recordMove cause m) := by
  cases cause with
  | none => exact steadies_pure ()
  | some ticket => exact steadies_record fun _ => rfl

theorem unnotified_settle {h : List Event} {s : PageState} {b : Bool} {t' : Nat} (hne : t' ≠ t) : unnotified t' (.settle t id s b :: h) = unnotified t' h := by
  rw [unnotified, decide_eq_false hne.symm, Bool.false_or]

theorem unnotified_notified (h : List Event) (t t' : Nat) : unnotified t' (.notified t :: h) = (decide (t ≠ t') && unnotified t' h) := rfl

/-- A page is given back and the waiters are notified in one section. -/
theorem steadies_settleNotify : Steadies _ (do recordSettle id; notifyAll) := by
  intro t ω σ
  rw [Act.bind_apply]
  cases hp : σ.table.lookup id with
  | none =>
    rw [show recordSettle id t ω σ = (.ok (), σ) by simp only [recordSettle, hp]]
    exact steady_log (e := .notified t) σ rfl
  | some p =>
    rw [recordSettle_some hp]
    refine ⟨rfl, rfl, rfl, fun t' i => ?_, fun t' hu => ?_⟩
    · exact count_owners_le (e := .settle t id p.state p.inFlight) rfl σ.history t' i
    · have hu : unnotified t' (.notified t :: .settle t id p.state p.inFlight :: σ.history) = true := hu
      rw [unnotified_notified, Bool.and_eq_true, decide_eq_true_eq] at hu
      rw [← unnotified_settle hu.1.symm]
      exact hu.2

theorem steadies_tryReserveRange {n bytes : Nat} : Steadies _ (tryReserveRange n bytes) := by
  refine steadies_allocateExtents.bind fun x => ?_
  split
  · exact steadies_pure _
  · exact steadies_nvmeTryReserve.bind fun b => .ite (steadies_pure _) (steadies_freeExtents.bind fun _ => steadies_pure _)

theorem steadies_reclaimLoop {n bytes : Nat} : ∀ {pages : List (Nat × PageId)}, Steadies _ (reclaimLoop cfg n bytes pages)
  | [] => steadies_pure none
  | (off, i) :: rest => by
    refine Steadies.bind (steadies_copyOf.bind fun _ => steadies_freeExtents.bind fun _ => steadies_nvmeRelease.bind fun _ => steadies_withPage) fun _ => ?_
    refine steadies_tryReserveRange.bind fun x => ?_
    split
    · exact steadies_pure _
    · exact steadies_reclaimLoop

theorem steadies_reserveNvmeRange {n bytes : Nat} : Steadies _ (reserveNvmeRange cfg n bytes id) := by
  refine steadies_tryReserveRange.bind fun x => ?_
  split
  · exact steadies_pure _
  · exact Steadies.bind steadies_of_state fun _ => steadies_reclaimLoop

theorem steadies_evictOffset {m : PageMetadata} : Steadies _ (evictOffset cfg m) := by
  unfold evictOffset
  refine .ite (steadies_reserveNvmeRange.bind fun x => ?_) (steadies_pure _)
  split
  · exact steadies_pure _
  · exact steadies_throw _

/-- The handler of a failed transfer. -/
theorem steadies_fails {f : PageMetadata → PageMetadata} : Steadies _ (do
    withPage id f
    transition id .error
    recordSettle id
    notifyAll) :=
  steadies_withPage.bind fun _ => steadies_transition.bind fun _ => steadies_settleNotify

theorem steadies_dropClean {m : PageMetadata} : Steadies _ (dropClean cfg id m) :=
  steadies_deviceFree.bind fun _ => steadies_vramRelease.bind fun _ => steadies_withPage.bind fun _ => steadies_transition.bind fun _ =>
    steadies_modify fun _ => rfl

theorem steadies_touch {f : PageMetadata → PageMetadata} : Steadies _ (touch id f) :=
  Steadies.bind steadies_of_state fun _ => steadies_withPage.bind fun _ => steadies_modify fun _ => rfl

/-! ## Sections that give a page back -/

/-- As `Steady`, but `t` may have waiters to notify. -/
structure Rouses (t : Nat) (σ σ' : Shared) : Prop where
  queue : σ'.queue = σ.queue
  promises : σ'.promises = σ.promises
  headroom : σ'.headroomHeld = σ.headroomHeld
  owners : ∀ t' id, (ownersIn σ'.history id).count t' ≤ (ownersIn σ.history id).count t'
  waiters : ∀ t' ≠ t, unnotified t' σ'.history = true → unnotified t' σ.history = true

theorem Steady.rouses (h : Steady σ σ') : Rouses t σ σ' := ⟨h.queue, h.promises, h.headroom, h.owners, fun t' _ => h.waiters t'⟩

theorem Rouses.after (h : Steady σ σ') (h' : Rouses t σ' σ'') : Rouses t σ σ'' :=
  ⟨h'.queue.trans h.queue, h'.promises.trans h.promises, h'.headroom.trans h.headroom, fun t' id => (h'.owners t' id).trans (h.owners t' id),
    fun t' hne hu => h.waiters t' (h'.waiters t' hne hu)⟩

theorem rouses_settle (σ : Shared) {s : PageState} {b : Bool} : Rouses t σ (σ.log (.settle t id s b)) :=
  ⟨rfl, rfl, rfl, count_owners_le rfl σ.history, fun _ hne hu => (by rwa [← unnotified_settle hne])⟩

/-- When the section returns, the thread is the owner of the page once less and may have waiters to notify; when it throws, the
stakes are as they were. -/
def GivesBack (id : PageId) (β : Type) (a : Sec β) : Prop := ∀ t ω σ, ((∃ e, (a t ω σ).1 = .error e) ∧ Steady σ (a t ω σ).2) ∨
  (∃ x, (a t ω σ).1 = .ok x) ∧ Rouses t σ (a t ω σ).2 ∧ (ownersIn (a t ω σ).2.history id).count t ≤ (ownersIn σ.history id).count t - 1

theorem GivesBack.bind {a : Sec α} {f : α → Sec β} (ha : Steadies α a) (hf : ∀ x, GivesBack id β (f x)) : GivesBack id β (a >>= f) := by
  intro t ω σ
  have hsteady := ha t ω σ
  rw [Act.bind_apply]
  rcases hrun : a t ω σ with ⟨e | x, σ'⟩
  all_goals rw [hrun] at hsteady
  · exact .inl ⟨⟨e, rfl⟩, hsteady⟩
  · rcases hf x t ω σ' with ⟨he, hs⟩ | ⟨hx, hs, hcount⟩
    · exact .inl ⟨he, hsteady.trans hs⟩
    · exact .inr ⟨hx, .after hsteady hs, hcount.trans (Nat.sub_le_sub_right (hsteady.owners t id) 1)⟩

/-- What returns only when the page is in the table, and then its settling. -/
theorem givesBack_settle {a : Sec α} (ha : Steadies α a) (hp : ∀ t ω σ x, (a t ω σ).1 = .ok x → ((a t ω σ).2.table.lookup id).isSome) :
    GivesBack id Unit (do let _ ← a; recordSettle id) := by
  intro t ω σ
  have hsteady := ha t ω σ
  have hpage := hp t ω σ
  rw [Act.bind_apply]
  rcases hrun : a t ω σ with ⟨e | x, σ'⟩
  all_goals rw [hrun] at hsteady hpage
  · exact .inl ⟨⟨e, rfl⟩, hsteady⟩
  · obtain ⟨p, hl⟩ := Option.isSome_iff_exists.1 (hpage x rfl)
    have hset : recordSettle id t ω σ' = (.ok (), σ'.log (.settle t id p.state p.inFlight)) := recordSettle_some hl
    dsimp only
    rw [hset]
    refine .inr ⟨⟨(), rfl⟩, .after hsteady (rouses_settle σ'), ?_⟩
    show (ownersIn (.settle t id p.state p.inFlight :: σ'.history) id).count t ≤ _
    rw [count_owners_settle]
    exact Nat.sub_le_sub_right (hsteady.owners t id) 1

theorem isSome_withPage {f : PageMetadata → PageMetadata} {x : Unit} (hf : ∀ p, (f p).id = p.id) (h : (withPage id f t ω σ).1 = .ok x) :
    ((withPage id f t ω σ).2.table.lookup id).isSome := by
  unfold withPage at h ⊢
  rcases hl : σ.table.lookup id with _ | p
  · rw [hl] at h
    cases h
  · have hid : (f p).id = id := (hf p).trans (Keyed.lookup_some.1 hl).2
    show ((σ.table.put (f p)).lookup id).isSome
    rw [← hid, Keyed.lookup_put_self]
    rfl

theorem isSome_transition {dst : PageState} {x : Unit} (h : (transition id dst t ω σ).1 = .ok x) :
    ((transition id dst t ω σ).2.table.lookup id).isSome := by
  unfold transition at h ⊢
  rcases hl : σ.table.lookup id with _ | p
  · rw [hl] at h
    cases h
  · rw [hl] at h
    dsimp only at h ⊢
    rcases hp : p.transition dst with e | q
    · rw [hp] at h
      cases h
    · have hq : q.id = id := by
        unfold PageMetadata.transition at hp
        split at hp
        · cases hp
        split at hp
        · cases hp
        · cases hp
          exact (Keyed.lookup_some.1 hl).2
      show ((σ.table.put q).lookup id).isSome
      rw [← hq, Keyed.lookup_put_self]
      rfl

theorem givesBack_transition {dst : PageState} : GivesBack id Unit (do transition id dst; recordSettle id) :=
  givesBack_settle steadies_transition fun _ _ _ _ => isSome_transition

theorem givesBack_withPage {f : PageMetadata → PageMetadata} (hf : ∀ p, (f p).id = p.id) : GivesBack id Unit (do withPage id f; recordSettle id) :=
  givesBack_settle steadies_withPage fun _ _ _ _ => isSome_withPage hf

/-! ## Sections that take a page -/

/-- As `Steady`, but `t` may have become the owner of the page once more. -/
structure Took (t : Nat) (id : PageId) (σ σ' : Shared) : Prop where
  queue : σ'.queue = σ.queue
  promises : σ'.promises = σ.promises
  headroom : σ'.headroomHeld = σ.headroomHeld
  owners : ∀ t' id', (ownersIn σ'.history id').count t' ≤ (ownersIn σ.history id').count t' + if t' = t ∧ id' = id then 1 else 0
  waiters : ∀ t', unnotified t' σ'.history = true → unnotified t' σ.history = true

theorem Took.after (h : Steady σ σ') (h' : Took t id σ' σ'') : Took t id σ σ'' :=
  ⟨h'.queue.trans h.queue, h'.promises.trans h.promises, h'.headroom.trans h.headroom,
    fun t' id' => (h'.owners t' id').trans (Nat.add_le_add_right (h.owners t' id') _), fun t' hu => h.waiters t' (h'.waiters t' hu)⟩

/-- The section takes the page when it returns a value of which `P` holds. -/
def TakesWhen (P : β → Bool) (id : PageId) (a : Sec β) : Prop := ∀ t ω σ, (∃ x, (a t ω σ).1 = .ok x ∧ P x = true ∧ Took t id σ (a t ω σ).2) ∨
  ((∀ x, (a t ω σ).1 = .ok x → P x = false) ∧ Steady σ (a t ω σ).2)

theorem TakesWhen.bind {P : β → Bool} {a : Sec α} {f : α → Sec β} (ha : Steadies α a) (hf : ∀ x, TakesWhen P id (f x)) :
    TakesWhen P id (a >>= f) := by
  intro t ω σ
  have hsteady := ha t ω σ
  rw [Act.bind_apply]
  rcases hrun : a t ω σ with ⟨e | x, σ'⟩
  all_goals rw [hrun] at hsteady
  · exact .inr ⟨fun x hx => (by cases hx), hsteady⟩
  · rcases hf x t ω σ' with ⟨y, hy, hp, ht⟩ | ⟨hn, hs⟩
    · exact .inl ⟨y, hy, hp, .after hsteady ht⟩
    · exact .inr ⟨hn, hsteady.trans hs⟩

theorem TakesWhen.ite {P : β → Bool} {c : Prop} [Decidable c] {a b : Sec β} (ha : TakesWhen P id a) (hb : TakesWhen P id b) :
    TakesWhen P id (if c then a else b) := by
  split
  · exact ha
  · exact hb

theorem takesWhen_not {P : β → Bool} {a : Sec β} (ha : Steadies β a) (hn : ∀ t ω σ x, (a t ω σ).1 = .ok x → P x = false) : TakesWhen P id a :=
  fun t ω σ => .inr ⟨hn t ω σ, ha t ω σ⟩

theorem settles_of_takes {e : Event} (he : e.takes = true) : e.settles = false := by
  cases e with
  | claim | release => rfl
  | _ => cases he

theorem takesWhen_record {P : β → Bool} {e : Nat → Event} (he : ∀ t, (e t).takes = true) (hp : ∀ t, (e t).page = some id)
    (ht : ∀ t, (e t).thread = t) {x : β} (hx : P x = true) : TakesWhen P id (do record e; pure x) :=
  fun t _ σ => .inl ⟨x, rfl, hx, rfl, rfl, rfl, count_owners_takes (he t) (hp t) (ht t) σ.history,
    fun _ hu => unnotified_of_cons (settles_of_takes (he t)) hu⟩

end FlashTier
