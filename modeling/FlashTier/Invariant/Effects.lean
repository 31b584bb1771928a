/-
What the sections change, apart from budgets, backends and memory. `FrontStep` lists the elementary changes
of the page table, the access counter, the prefetch marks and the history; every section of an operation,
but for those that hand requests over, insert a page or end one, is a sequence of such changes. What each
change preserves, a section preserves.
-/
import FlashTier.Invariant.Sound

namespace FlashTier

open Conc

variable {l : Op} {t : Nat} {ω : Env} {σ σ' σ'' : Shared} {α β : Type} {id : PageId} {cfg : RuntimeConfig}

/-! ## Who records what -/

/-- The events an operation may record. -/
def Op.records (l : Op) : Event → Bool
  | .alloc .. => match l with
    | .allocate _ => true
    | _ => false
  | .wrote _ id _ | .torn _ id .. => match l with
    | .write i _ | .fill i => i == id
    | _ => false
  | .read _ id _ => match l with
    | .read i _ => i == id
    | _ => false
  | .pin _ id _ => match l with
    | .pin i _ => i == id
    | _ => false
  | .release _ id _ | .freed _ id _ | .refunded _ id _ | .erase _ id => match l with
    | .free i => i == id
    | _ => false
  | _ => true

/-- The page an event is a committed access of. -/
def Event.accesses : Event → Option PageId
  | .wrote _ id _ | .read _ id _ => some id
  | _ => none

/-- The event ends the life of a page in the table, or begins its end. -/
def Event.ends : Event → Bool
  | .release .. | .erase .. => true
  | _ => false

/-- An event that `t` may record on behalf of `l` and that is neither an access nor an end. -/
structure Event.Minor (l : Op) (t : Nat) (e : Event) : Prop where
  thread : e.thread = t
  allowed : l.records e = true
  access : e.accesses = none
  stays : e.ends = false

/-! ## Elementary changes -/

/-- The state without budgets, backends and memory. -/
structure Front where
  table : Keyed PageMetadata.id
  history : List Event
  accessSeq : Nat
  prefetched : List PageId
  queue : List Request
  pendingPrefetches : List PageId
  prefetching : List (Nat × PageId)
  promises : List (Option (Except Error Unit))
  running : Bool
  stopping : Bool

def Shared.front (σ : Shared) : Front where
  table := σ.table
  history := σ.history
  accessSeq := σ.accessSeq
  prefetched := σ.prefetched
  queue := σ.queue
  pendingPrefetches := σ.pendingPrefetches
  prefetching := σ.prefetching
  promises := σ.promises
  running := σ.running
  stopping := σ.stopping

/-- What an assignment to fields of a page leaves: its identity, its state and its access counters. -/
def PageMetadata.kept (p : PageMetadata) : PageId × PageState × Nat × Nat := (p.id, p.state, p.lastAccessSequence, p.accessCount)

/-- An elementary change by thread `t` on behalf of `l`. -/
inductive FrontStep (l : Op) (t : Nat) (s : Front) : Front → Prop where
  /-- an event is recorded that is neither an access nor an end -/
  | log (e : Event) (he : e.Minor l t) : FrontStep l t s { s with history := e :: s.history }
  /-- fields of a page are assigned, but for its state and its access counters -/
  | edit (p q : PageMetadata) (hp : s.table.lookup p.id = some p) (hq : q.kept = p.kept) :
      FrontStep l t s { s with table := s.table.put q }
  /-- a page goes from one state to another, but not to its release -/
  | enter (p : PageMetadata) (dst : PageState) (hp : s.table.lookup p.id = some p) (hd : dst ≠ .released) :
      FrontStep l t s { s with table := s.table.put (p.enter dst) }
  /-- an access is committed and recorded -/
  | access (p q : PageMetadata) (e : Event) (hp : s.table.lookup p.id = some p) (hi : q.id = p.id) (hst : q.state = p.state)
      (hs : q.lastAccessSequence = u64 (s.accessSeq + 1)) (hc : q.accessCount = u64 (p.accessCount + 1))
      (ht : e.thread = t) (hl : l.records e = true) (ha : e.accesses = some p.id) :
      FrontStep l t s { s with table := s.table.put q, accessSeq := u64 (s.accessSeq + 1), history := e :: s.history }
  /-- a prefetch mark is removed -/
  | unmark (id : PageId) : FrontStep l t s { s with prefetched := s.prefetched.filter (· != id) }

/-- A sequence of elementary changes. -/
def FrontPath (l : Op) (t : Nat) (σ σ' : Shared) : Prop := Relation.ReflTransGen (FrontStep l t) σ.front σ'.front

theorem FrontPath.refl (l : Op) (t : Nat) (σ : Shared) : FrontPath l t σ σ := Relation.ReflTransGen.refl

theorem FrontPath.trans (h : FrontPath l t σ σ') (h' : FrontPath l t σ' σ'') : FrontPath l t σ σ'' := Relation.ReflTransGen.trans h h'

theorem FrontPath.single (h : FrontStep l t σ.front σ'.front) : FrontPath l t σ σ' := Relation.ReflTransGen.single h

theorem FrontPath.same (h : σ'.front = σ.front) : FrontPath l t σ σ' := by
  unfold FrontPath
  rw [h]

/-- What every elementary change preserves, a sequence of them preserves. -/
theorem FrontPath.invariant {J : Front → Prop} (hJ : ∀ s s', FrontStep l t s s' → J s → J s') (h : FrontPath l t σ σ')
    (hs : J σ.front) : J σ'.front := by
  have hpath : ∀ s', Relation.ReflTransGen (FrontStep l t) σ.front s' → J s' := by
    intro s' h
    induction h with
    | refl => exact hs
    | tail _ hlast ih => exact hJ _ _ hlast ih
  exact hpath _ h

theorem path_log {e : Event} (σ : Shared) (he : e.Minor l t) : FrontPath l t σ (σ.log e) :=
  .single (.log e he)

theorem path_wrap (b : Bool) (σ : Shared) : FrontPath l t σ (σ.noteWrap t b) := by
  cases b with
  | true => exact path_log σ (by exact ⟨rfl, rfl, rfl, rfl⟩)
  | false => exact FrontPath.refl ..

/-- A change of budgets, backends or memory after a counter may have wrapped. -/
theorem path_wrapped {f : Shared → Shared} (hf : ∀ σ, (f σ).front = σ.front) (b : Bool) (σ : Shared) :
    FrontPath l t σ (f (σ.noteWrap t b)) := (path_wrap b σ).trans (.same (hf _))

theorem path_failed (c : Call) (σ : Shared) : FrontPath l t σ (σ.log (.failed t c)) := path_log σ ⟨rfl, rfl, rfl, rfl⟩

theorem path_assertion (a : Assertion) (e : Error) (σ : Shared) :
    FrontPath l t σ (failAssertion (α := α) a e t ω σ).2 := path_log (e := .assertion t a) σ ⟨rfl, rfl, rfl, rfl⟩

/-- The page a lookup finds has the id looked up. -/
theorem lookup_own {id : PageId} {p : PageMetadata} (h : σ.table.lookup id = some p) : σ.table.lookup p.id = some p := by
  rw [(Keyed.lookup_some.1 h).2]
  exact h

/-! ## Sections -/

/-- Whoever runs the section on behalf of `l`, and however it ends, it makes elementary changes only. -/
def Effect (l : Op) (β : Type) (a : Sec β) : Prop := ∀ t ω σ, FrontPath l t σ (a t ω σ).2

theorem effect_of_state {f : Nat → Env → Shared → Except Error α} : Effect l α fun t ω σ => (f t ω σ, σ) := fun t _ σ => FrontPath.refl l t σ

theorem effect_pure (a : α) : Effect l α (pure a) := effect_of_state

theorem effect_throw (e : Error) : Effect l α (throw e) := effect_of_state

theorem effect_record {e : Nat → Event} (he : ∀ t, (e t).Minor l t) :
    Effect l Unit (record e) :=
  fun t _ σ => path_log σ (he t)

theorem effect_modify {f : Shared → Shared} (hf : ∀ σ, (f σ).front = σ.front) : Effect l Unit (Act.modify f) :=
  fun _ _ σ => FrontPath.same (hf σ)

theorem Effect.bind {a : Sec α} {f : α → Sec β} (ha : Effect l α a) (hf : ∀ x, Effect l β (f x)) : Effect l β (a >>= f) :=
  fun t ω σ => Act.bind_relates (R := FrontPath l t) FrontPath.trans (ha t ω σ) fun x => hf x t ω

theorem Effect.tryCatch {a : Sec α} {f : Error → Sec α} (ha : Effect l α a) (hf : ∀ e, Effect l α (f e)) :
    Effect l α (MonadExcept.tryCatch a f) :=
  fun t ω σ => Act.tryCatch_relates (R := FrontPath l t) FrontPath.trans (ha t ω σ) fun e => hf e t ω

theorem Effect.ite {c : Prop} [Decidable c] {a b : Sec α} (ha : Effect l α a) (hb : Effect l α b) : Effect l α (if c then a else b) := by
  split
  · exact ha
  · exact hb

/-! ## Calls -/

theorem effect_copyOf : Effect l _ (copyOf id) := by
  intro t ω σ
  unfold copyOf
  split <;> exact FrontPath.refl ..

theorem effect_withPage {f : PageMetadata → PageMetadata} (hf : ∀ p, (f p).kept = p.kept) : Effect l _ (withPage id f) := by
  intro t ω σ
  unfold withPage
  split
  · rename_i p hp
    exact .single (.edit p (f p) (lookup_own hp) (hf p))
  · exact FrontPath.refl ..

theorem PageMetadata.transition_eq {p q : PageMetadata} {dst : PageState} (h : p.transition dst = .ok q) : q = p.enter dst := by
  unfold PageMetadata.transition at h
  split at h
  · cases h
  split at h
  · cases h
  · cases h
    rfl

theorem effect_transition {dst : PageState} (hd : dst ≠ .released) : Effect l _ (transition id dst) := by
  intro t ω σ
  unfold transition
  split
  · exact FrontPath.refl ..
  · rename_i p hp
    split
    · rename_i q hq
      rw [PageMetadata.transition_eq hq]
      exact .single (.enter p dst (lookup_own hp) hd)
    · exact path_assertion ..

theorem effect_vramTryReserve {n : Nat} : Effect l _ (vramTryReserve n) := by
  intro t ω σ
  unfold vramTryReserve
  split
  · exact path_wrapped (f := (Shared.setVram · _)) (fun _ => rfl) _ σ
  · exact FrontPath.refl ..

theorem effect_vramRelease {n : Nat} : Effect l _ (vramRelease n) := by
  intro t ω σ
  unfold vramRelease
  split
  · exact .same (by rfl)
  · exact path_assertion ..

theorem effect_nvmeTryReserve {n : Nat} : Effect l _ (nvmeTryReserve n) := by
  intro t ω σ
  unfold nvmeTryReserve
  split
  · exact path_wrapped (f := (Shared.setNvme · _)) (fun _ => rfl) _ σ
  · exact FrontPath.refl ..

theorem effect_nvmeRelease {n : Nat} : Effect l _ (nvmeRelease n) := by
  intro t ω σ
  unfold nvmeRelease
  split
  · exact .same (by rfl)
  · exact path_assertion ..

theorem effect_hostAllocate {n : Nat} {b : Bool} : Effect l _ (hostAllocate n b) := by
  intro t ω σ
  unfold hostAllocate
  split
  · exact FrontPath.refl ..
  split
  · exact FrontPath.refl ..
  split
  · exact FrontPath.refl ..
  dsimp only
  split
  · exact path_failed ..
  · exact path_wrapped (f := (Shared.putHost · _ _)) (fun _ => rfl) _ σ

theorem effect_hostFree {ptr : Ptr} {n : Nat} : Effect l _ (hostFree ptr n) := by
  intro t ω σ
  unfold hostFree
  split
  · exact path_assertion ..
  split
  · exact path_assertion ..
  split
  · exact path_failed ..
  · exact path_wrapped (f := (Shared.dropHost · _)) (fun _ => rfl) _ σ

theorem effect_allocationTier {ptr : Ptr} : Effect l _ (allocationTier ptr) := by
  intro t ω σ
  unfold allocationTier
  split
  · exact FrontPath.refl ..
  · exact path_assertion ..

theorem effect_deviceAlloc {n : Nat} : Effect l _ (deviceAlloc cfg n) := by
  intro t ω σ
  unfold deviceAlloc
  split
  · exact FrontPath.refl ..
  split
  · exact path_failed ..
  · exact .same (by rfl)

theorem effect_deviceFree {ptr : Option Ptr} : Effect l _ (deviceFree cfg ptr) := by
  intro t ω σ
  unfold deviceFree
  split
  · exact FrontPath.refl ..
  split
  · exact FrontPath.refl ..
  split
  · exact path_failed ..
  · exact .same (by rfl)

theorem effect_deviceCopyH2D {dst : Ptr} {src : Bytes} {n : Nat} : Effect l _ (deviceCopyH2D cfg dst src n) := by
  intro t ω σ
  unfold deviceCopyH2D
  split
  · exact FrontPath.refl ..
  split
  · exact FrontPath.refl ..
  split
  · exact .same (by rfl)
  · exact FrontPath.trans (.same (by rfl)) (path_failed ..)

theorem effect_deviceCopyD2H {dst src : Ptr} {n : Nat} : Effect l _ (deviceCopyD2H cfg dst src n) := by
  intro t ω σ
  unfold deviceCopyD2H
  split
  · exact FrontPath.refl ..
  split
  · exact FrontPath.refl ..
  split
  · exact .same (by rfl)
  · exact FrontPath.trans (.same (by rfl)) (path_failed ..)

theorem effect_deviceStage {src : Ptr} {n : Nat} : Effect l _ (deviceStage cfg src n) := by
  intro t ω σ
  unfold deviceStage
  split
  · exact FrontPath.refl ..
  split
  · exact FrontPath.refl ..
  split
  · exact FrontPath.refl ..
  · exact path_failed ..

theorem effect_allocateExtents {n : Nat} : Effect l _ (allocateExtents n) := by
  intro t ω σ
  unfold allocateExtents
  split
  · exact FrontPath.refl ..
  · exact FrontPath.refl ..
  · exact path_wrapped (f := (Shared.setStore · _)) (fun _ => rfl) _ σ

theorem effect_freeExtents {off n : Nat} : Effect l _ (freeExtents off n) := by
  intro t ω σ
  unfold freeExtents
  split
  · exact path_assertion ..
  · exact path_wrapped (f := (Shared.setStore · _)) (fun _ => rfl) _ σ

theorem effect_submitIo {what : String} {off : Option Nat} {n : Nat} : Effect l _ (submitIo what off n) := by
  intro t ω σ
  unfold submitIo
  split
  · exact path_assertion ..
  split
  · exact path_assertion ..
  · exact .same (by rfl)

theorem effect_awaitRead {off : Nat} {dst : Ptr} {n : Nat} : Effect l _ (awaitRead off dst n) := by
  intro t ω σ
  unfold awaitRead
  split
  · exact .same (by rfl)
  · exact FrontPath.trans (.same (by rfl)) (path_failed ..)

theorem effect_awaitWrite {off : Nat} {src : Ptr} {n : Nat} : Effect l _ (awaitWrite off src n) := by
  intro t ω σ
  unfold awaitWrite
  split
  · exact .same (by rfl)
  · exact FrontPath.trans (.same (by rfl)) (path_failed ..)

/-! ## Sections of the transfers -/

theorem effect_recordMove {cause : Cause} {m : PageMetadata} : Effect l _ (recordMove cause m) := by
  cases cause with
  | none => exact effect_pure ()
  | some ticket => exact effect_record (by exact fun _ => ⟨rfl, rfl, rfl, rfl⟩)

theorem effect_recordSettle : Effect l _ (recordSettle id) := by
  intro t ω σ
  unfold recordSettle
  split
  · exact path_log σ (by exact ⟨rfl, rfl, rfl, rfl⟩)
  · exact FrontPath.refl ..

theorem effect_notifyAll : Effect l _ notifyAll := effect_record (by exact fun _ => ⟨rfl, rfl, rfl, rfl⟩)

theorem effect_tryReserveRange {n bytes : Nat} : Effect l _ (tryReserveRange n bytes) := by
  refine effect_allocateExtents.bind fun x => ?_
  split
  · exact effect_pure _
  · exact effect_nvmeTryReserve.bind fun b => .ite (effect_pure _) (effect_freeExtents.bind fun _ => effect_pure _)

theorem effect_reclaimLoop {n bytes : Nat} : ∀ {pages : List (Nat × PageId)}, Effect l _ (reclaimLoop cfg n bytes pages)
  | [] => effect_pure none
  | (off, i) :: rest => by
    refine Effect.bind (effect_copyOf.bind fun _ => effect_freeExtents.bind fun _ => effect_nvmeRelease.bind fun _ => effect_withPage fun _ => by rfl) fun _ => ?_
    refine effect_tryReserveRange.bind fun x => ?_
    split
    · exact effect_pure _
    · exact effect_reclaimLoop

theorem effect_reserveNvmeRange {n bytes : Nat} : Effect l _ (reserveNvmeRange cfg n bytes id) := by
  refine effect_tryReserveRange.bind fun x => ?_
  split
  · exact effect_pure _
  · exact Effect.bind effect_of_state fun _ => effect_reclaimLoop

theorem effect_evictOffset {m : PageMetadata} : Effect l _ (evictOffset cfg m) := by
  unfold evictOffset
  refine .ite (effect_reserveNvmeRange.bind fun x => ?_) (effect_pure _)
  split
  · exact effect_pure _
  · exact effect_throw _

theorem effect_claim : Effect l _ (record fun t => .claim t id) := effect_record (by exact fun _ => ⟨rfl, rfl, rfl, rfl⟩)

theorem effect_claimEvictHost {cause : Cause} : Effect l _ (claimEvictHost cfg cause id) := by
  refine effect_copyOf.bind fun m => .ite (effect_pure _) (effect_evictOffset.bind fun off => ?_)
  exact (effect_withPage fun _ => by rfl).bind fun _ => (effect_transition (by decide)).bind fun _ => effect_recordMove.bind fun _ => effect_claim.bind fun _ => effect_pure _

theorem effect_fails {f : PageMetadata → PageMetadata} (hf : ∀ p, (f p).kept = p.kept) : Effect l _ (do
    withPage id f
    transition id .error
    recordSettle id
    notifyAll) :=
  (effect_withPage hf).bind fun _ => (effect_transition (by decide)).bind fun _ => effect_recordSettle.bind fun _ => effect_notifyAll

theorem effect_finishEvictHost {m : PageMetadata} : Effect l _ (finishEvictHost id m) :=
  effect_hostFree.bind fun _ => (effect_withPage fun _ => by rfl).bind fun _ => (effect_transition (by decide)).bind fun _ => effect_recordSettle

theorem effect_claimEvictVram {cause : Cause} {ptr : Ptr} {n : Nat} : Effect l _ (claimEvictVram cause id ptr n) := by
  refine effect_copyOf.bind fun m => .ite (effect_hostFree.bind fun _ => effect_pure _) ?_
  exact (effect_withPage fun _ => by rfl).bind fun _ => (effect_transition (by decide)).bind fun _ => effect_recordMove.bind fun _ => effect_claim.bind fun _ => effect_pure _

theorem effect_failToHost {ptr : Ptr} {n : Nat} : Effect l _ (failToHost id ptr n) :=
  effect_hostFree.bind fun _ => effect_fails fun _ => by rfl

theorem effect_finishEvictVram {tier : Tier} {m : PageMetadata} : Effect l _ (finishEvictVram cfg id tier m) :=
  effect_deviceFree.bind fun _ => effect_vramRelease.bind fun _ => (effect_withPage fun _ => by rfl).bind fun _ => (effect_transition (by decide)).bind fun _ =>
    (effect_withPage fun _ => by rfl).bind fun _ => effect_recordSettle

theorem effect_claimLoad {ptr : Ptr} {n : Nat} : Effect l _ (claimLoad id ptr n) :=
  effect_copyOf.bind fun _ => .ite (effect_hostFree.bind fun _ => effect_pure _)
    ((effect_withPage fun _ => by rfl).bind fun _ => (effect_transition (by decide)).bind fun _ => effect_claim.bind fun _ => effect_pure _)

theorem effect_finishLoad {tier : Tier} : Effect l _ (finishLoad id tier) :=
  (effect_withPage fun _ => by rfl).bind fun _ => (effect_transition (by decide)).bind fun _ => (effect_withPage fun _ => by rfl).bind fun _ => effect_recordSettle

theorem effect_claimPromote : Effect l _ (claimPromote cfg id) := by
  refine effect_copyOf.bind fun m => .ite (effect_pure _) (effect_vramTryReserve.bind fun b => .ite ?_ (effect_pure _))
  refine (effect_deviceAlloc.tryCatch fun e => effect_vramRelease.bind fun _ => effect_throw e).bind fun ptr => ?_
  exact (effect_withPage fun _ => by rfl).bind fun _ => (effect_transition (by decide)).bind fun _ => effect_claim.bind fun _ => effect_pure _

theorem effect_failPromote {ptr : Ptr} {n : Nat} : Effect l _ (failPromote cfg id ptr n) :=
  effect_vramRelease.bind fun _ => effect_deviceFree.bind fun _ => effect_fails fun _ => by rfl

theorem effect_finishPromote {m : PageMetadata} : Effect l _ (finishPromote id m) :=
  effect_hostFree.bind fun _ => (effect_withPage fun _ => by rfl).bind fun _ => (effect_transition (by decide)).bind fun _ => effect_recordSettle

theorem effect_copyUp {dst src : Ptr} {n : Nat} : Effect l _ (copyUp cfg dst src n) := Effect.bind effect_of_state fun _ => effect_deviceCopyH2D

theorem effect_unmark : Effect l _ (Act.modify fun σ => { σ with prefetched := σ.prefetched.filter (· != id) }) :=
  fun _ _ _ => .single (.unmark id)

theorem effect_dropClean {m : PageMetadata} : Effect l _ (dropClean cfg id m) :=
  effect_deviceFree.bind fun _ => effect_vramRelease.bind fun _ => (effect_withPage fun _ => by rfl).bind fun _ => (effect_transition (by decide)).bind fun _ =>
    effect_unmark

theorem effect_decideVictim {d : EvictionDecision} : Effect l _ (decideVictim cfg d) :=
  effect_copyOf.bind fun _ => .ite (effect_pure _) (.ite
    (Effect.bind effect_of_state fun _ => effect_dropClean.bind fun _ => effect_recordMove.bind fun _ => effect_pure _) (effect_pure _))

theorem effect_lookAt : Effect l _ (lookAt id) := by
  intro t ω σ
  unfold lookAt
  split <;> exact FrontPath.refl ..

theorem effect_plan {need free : Nat} {ps : List PageMetadata} : Effect l _ (plan cfg need ps free) := by
  intro t ω σ
  unfold plan
  split
  · exact FrontPath.refl ..
  · exact path_log σ (by exact ⟨rfl, rfl, rfl, rfl⟩)

theorem effect_settledPage : Effect l _ (settledPage id) := by
  refine Effect.bind effect_of_state fun _ => effect_copyOf.bind fun m => ?_
  split
  · exact effect_throw _
  · exact effect_throw _
  · exact effect_throw _
  · exact effect_pure _


/-! ## Transfers and loads -/

theorem evictHostToNvme_all {cause : Cause} : (evictHostToNvme cfg cause id).All (Effect l) := by
  unfold evictHostToNvme
  refine .bind (.atomic effect_claimEvictHost) fun x => ?_
  split
  · trivial
  unfold evictHostTail writeback
  refine .bind (.tryCatch (.ite ?_ trivial) fun e => .bind (.atomic (effect_fails fun _ => rfl)) fun _ => trivial) fun _ => ?_
  · exact .bind (.atomic effect_of_state) fun _ => .bind (.atomic effect_submitIo) fun _ => .atomic effect_awaitWrite
  · exact .bind (.atomic effect_finishEvictHost) fun _ => .bind (.atomic effect_notifyAll) fun _ =>
      .bind (.atomic effect_of_state) fun _ => .atomic effect_of_state

theorem evictFirst_all {ticket : Nat} : ∀ {victims : List PageId}, (evictFirst cfg ticket victims).All (Effect l)
  | [] => trivial
  | _ :: _ => .bind evictHostToNvme_all fun _ => .bind (.atomic effect_copyOf) fun _ => .ite trivial evictFirst_all

theorem hostRound_all {n : Nat} : (hostRound cfg n id).All (Effect l) := by
  unfold hostRound
  refine .bind (.atomic effect_hostAllocate) fun x => ?_
  split
  · trivial
  · exact .bind (.atomic effect_of_state) fun _ => .bind evictFirst_all fun _ => .ite trivial (.bind (.atomic effect_of_state) fun _ => trivial)

theorem withHeadroomLock_all {p : Code α} (hp : p.All (Effect l)) : (withHeadroomLock p).All (Effect l) :=
  .bind (.await (effect_modify fun _ => rfl)) fun _ =>
    hp.finally_ (.atomic (effect_modify fun _ => rfl))

theorem claimHostRounds_all {bytes : Nat} : ∀ {n : Nat}, (claimHostRounds cfg bytes id n).All (Effect l)
  | 0 => trivial
  | n + 1 => by
    unfold claimHostRounds
    refine .bind (.atomic effect_of_state) fun _ => .bind (withHeadroomLock_all hostRound_all) fun r => ?_
    cases r with
    | claimed ptr => trivial
    | retry => exact claimHostRounds_all
    | wait => exact .bind (.atomic (effect_pure ())) fun _ => claimHostRounds_all

theorem orFreeHost_all {ptr : Ptr} {n : Nat} {p : Code α} (hp : p.All (Effect l)) : (orFreeHost ptr n p).All (Effect l) :=
  .tryCatch hp fun _ => .bind (.tryCatch (.atomic effect_hostFree) fun _ => trivial) fun _ => trivial

theorem evictVramToHost_all {cause : Cause} : (evictVramToHost cfg cause id).All (Effect l) := by
  unfold evictVramToHost claimHostBuffer
  refine .bind (.atomic effect_copyOf) fun _ => .bind claimHostRounds_all fun _ => .bind (.atomic effect_allocationTier) fun _ =>
    .bind (orFreeHost_all (.atomic effect_claimEvictVram)) fun x => ?_
  split
  · trivial
  unfold evictVramTail
  refine .bind (.tryCatch (.atomic effect_deviceCopyD2H) fun e => .bind (.atomic effect_failToHost) fun _ => trivial) fun _ => ?_
  exact .bind (.atomic effect_finishEvictVram) fun _ => .bind (.atomic effect_notifyAll) fun _ =>
    .bind (.atomic effect_of_state) fun _ => .atomic effect_of_state

theorem loadNvmeToHost_all : (loadNvmeToHost cfg id).All (Effect l) := by
  unfold loadNvmeToHost claimHostBuffer
  refine .bind (.atomic effect_copyOf) fun _ => .bind claimHostRounds_all fun _ => .bind (.atomic effect_allocationTier) fun _ =>
    .bind (orFreeHost_all (.atomic effect_claimLoad)) fun x => ?_
  split
  · trivial
  unfold loadTail readIn
  refine .bind (.tryCatch ?_ fun e => .bind (.atomic effect_failToHost) fun _ => trivial) fun _ => ?_
  · exact .bind (.atomic effect_of_state) fun _ => .bind (.atomic effect_submitIo) fun _ => .atomic effect_awaitRead
  · exact .bind (.atomic effect_finishLoad) fun _ => .bind (.atomic effect_notifyAll) fun _ => .atomic effect_of_state

theorem promoteHostToVram_all : (promoteHostToVram cfg id).All (Effect l) := by
  unfold promoteHostToVram
  refine .bind (.atomic effect_copyOf) fun _ => .ite trivial (.bind (.atomic effect_of_state) fun _ => .ite ?_ trivial)
  refine .bind (.atomic effect_claimPromote) fun x => ?_
  split
  · trivial
  unfold promoteTail
  refine .bind (.tryCatch (.atomic effect_copyUp) fun e => .bind (.atomic effect_failPromote) fun _ => trivial) fun _ => ?_
  exact .bind (.atomic effect_finishPromote) fun _ => .bind (.atomic effect_notifyAll) fun _ => .atomic effect_of_state

theorem runDecisions_all : ∀ {ds : List EvictionDecision} {progress : Bool}, (runDecisions cfg ds progress).All (Effect l)
  | [], _ => trivial
  | d :: rest, progress => by
    unfold runDecisions
    refine .bind (.atomic effect_decideVictim) fun r => ?_
    cases r with
    | skip => exact runDecisions_all
    | dropped => exact .bind (.atomic effect_of_state) fun _ => runDecisions_all
    | demote =>
      refine .bind (.atomic effect_lookAt) fun x => .ite runDecisions_all (.bind evictVramToHost_all fun _ => ?_)
      refine .bind (.atomic effect_copyOf) fun _ => .ite runDecisions_all ?_
      by_cases hd : d.target = .nvme
      · simp only [hd, if_true]
        exact .bind evictHostToNvme_all fun _ => runDecisions_all
      · simp only [hd, if_false]
        exact runDecisions_all

theorem headroomRounds_all {need : Nat} : ∀ {n : Nat}, (headroomRounds cfg need n).All (Effect l)
  | 0 => trivial
  | n + 1 => by
    unfold headroomRounds
    refine .bind (.atomic effect_of_state) fun _ => .bind (.atomic effect_of_state) fun _ => .ite trivial ?_
    refine .bind (.atomic effect_of_state) fun x => .bind (.atomic effect_of_state) fun _ =>
      .bind (.atomic (effect_modify fun _ => rfl)) fun _ => .bind (.atomic effect_plan) fun _ => ?_
    exact .bind runDecisions_all fun _ => .ite headroomRounds_all (.bind (.atomic (effect_pure ())) fun _ => headroomRounds_all)

theorem ensureVramHeadroom_all {need : Nat} : (ensureVramHeadroom cfg need).All (Effect l) :=
  .bind (.atomic effect_of_state) fun _ => headroomRounds_all

theorem waitSettled_all : (waitSettled id).All (Effect l) := .await effect_settledPage

theorem promoteOnce_all {n : Nat} : (promoteOnce cfg id n).All (Effect l) :=
  .bind ensureVramHeadroom_all fun _ => .bind promoteHostToVram_all fun _ => .bind (.atomic effect_copyOf) fun _ =>
    .ite trivial (.bind waitSettled_all fun _ => trivial)

theorem loadAttempts_all {target : Tier} : ∀ {n : Nat}, (loadAttempts cfg id target n).All (Effect l)
  | 0 => trivial
  | n + 1 => by
    have hup : ∀ bytes : Nat, (if target = .vram then do
        if ← .atomic hasVram then do
          if ← promoteOnce cfg id bytes then pure () else loadAttempts cfg id target n
        else pure ()
      else pure () : Code Unit).All (Effect l) := fun bytes =>
      .ite (.bind (.atomic effect_of_state) fun _ => .ite (.bind promoteOnce_all fun _ => .ite trivial loadAttempts_all) trivial) trivial
    unfold loadAttempts
    refine .bind (.atomic effect_of_state) fun _ => .bind (.atomic effect_copyOf) fun m => ?_
    split
    · trivial
    · exact hup m.allocationSize
    · refine .bind loadNvmeToHost_all fun _ => .bind (.atomic effect_copyOf) fun m => .ite (.ite trivial ?_) (hup m.allocationSize)
      exact .bind waitSettled_all fun _ => loadAttempts_all
    · exact .bind waitSettled_all fun _ => loadAttempts_all

end FlashTier
