/-
The programs of the operations, section by section. A property of sections that every elementary effect
has, and that the sections handing requests over, inserting pages and ending them have, holds of every
section of every operation.
-/
import FlashTier.Invariant.Effects

namespace FlashTier

open Conc

variable {l : Op} {t : Nat} {ω : Env} {σ σ' σ'' : Shared} {α β : Type} {id : PageId} {cfg : RuntimeConfig}

/-! ## Insertions -/

/-- How a section that inserts a page ends: having changed the front only, with a failed assertion, or
with a page in the table that is new, was never accessed and is recorded. -/
inductive Inserts (l : Op) (t : Nat) (σ σ' : Shared) : Prop where
  | path (h : FrontPath l t σ σ')
  | broken (σ₁ : Shared) (pages : Keyed PageMetadata.id) (a : Assertion) (h : FrontPath l t σ σ₁)
      (hσ : σ' = { σ₁ with table := pages }.log (.assertion t a))
  | page (σ₁ : Shared) (q : PageMetadata) (n : Nat) (b : Bool) (c : List UInt8) (h : FrontPath l t σ σ₁)
      (hq : σ₁.table.lookup q.id = none) (hs : q.lastAccessSequence = 0) (hc : q.accessCount = 0)
      (hσ : σ' = (σ₁.setPage q).log (.alloc t q.id n b c))

/-- The section inserts a page. -/
def Insertion (l : Op) (β : Type) (a : Sec β) : Prop := ∀ t ω σ, Inserts l t σ (a t ω σ).2

theorem broken_insertPage {p q : PageMetadata} {k : Unit → Sec α} (hp : σ.table.lookup p.id = some q) :
    ((insertPage p >>= k) t ω σ).2 = σ.log (.assertion t .duplicateId) := by
  have hrun : insertPage p t ω σ = (.error (duplicateId p.id), σ.log (.assertion t .duplicateId)) := by
    simp only [insertPage, hp]
    rfl
  rw [Act.bind_error hrun]

theorem insertion_insertVram {a : AllocArgs} {ptr : Ptr} : Insertion l _ (insertVram (newPage cfg id a) ptr) := by
  intro t ω σ
  let p : PageMetadata := { newPage cfg id a with vramPtr := some ptr }
  unfold insertVram
  rcases hp : σ.table.lookup p.id with _ | q
  · rw [run_insert (p := p) hp rfl rfl rfl]
    exact .page σ (p.enter .residentVram) _ _ _ (FrontPath.refl ..) hp rfl rfl rfl
  · rw [broken_insertPage (p := p) hp]
    exact .broken σ _ .duplicateId (FrontPath.refl ..) rfl

theorem insertion_insertHost {a : AllocArgs} {ptr : Ptr} : Insertion l _ (insertHost (newPage cfg id a) ptr) := by
  intro t ω σ
  let p : PageMetadata := { newPage cfg id a with hostPtr := some ptr }
  unfold insertHost
  rcases hp : σ.table.lookup p.id with _ | q
  · rw [Act.bind_ok (insertPage_none (p := p) hp)]
    rcases ht : σ.host.allocationTier ptr with _ | tier
    · have h1 : allocationTier ptr t ω (σ.setPage p) = (.error tierUnknown, (σ.setPage p).log (.assertion t .tierUnknown)) := by
        simp only [allocationTier, show (σ.setPage p).host.allocationTier ptr = none from ht]
        rfl
      rw [Act.bind_error h1]
      exact .broken σ _ .tierUnknown (FrontPath.refl ..) rfl
    · have h1 : allocationTier ptr t ω (σ.setPage p) = (.ok tier, σ.setPage p) := by
        simp only [allocationTier, show (σ.setPage p).host.allocationTier ptr = some tier from ht]
      have h2 : transition (newPage cfg id a).id .residentHost t ω (σ.setPage p) =
          (.ok (), (σ.setPage p).setPage (p.enter .residentHost)) := transition_some (lookup_setPage σ p) rfl rfl
      let q : PageMetadata := { p.enter .residentHost with currentTier := tier }
      have h3 : withPage (newPage cfg id a).id (fun m => { m with currentTier := tier }) t ω
          ((σ.setPage p).setPage (p.enter .residentHost)) = (.ok (), ((σ.setPage p).setPage (p.enter .residentHost)).setPage q) :=
        withPage_some (lookup_setPage _ (p.enter .residentHost)) _
      rw [Act.bind_ok h1, Act.bind_ok h2, Act.bind_ok h3, setPage_setPage (p := p) (q := p.enter .residentHost) σ rfl,
        setPage_setPage (p := p.enter .residentHost) (q := q) σ rfl]
      exact .page σ q _ _ _ (FrontPath.refl ..) hp rfl rfl rfl
  · rw [broken_insertPage (p := p) hp]
    exact .broken σ _ .duplicateId (FrontPath.refl ..) rfl

theorem insertion_insertNvme {a : AllocArgs} : Insertion l _ (insertNvme cfg (newPage cfg id a)) := by
  intro t ω σ
  unfold insertNvme
  rw [Act.bind_apply]
  have hres : FrontPath l t σ (reserveNvmeRange cfg ((newPage cfg id a).allocationSize / cfg.pageSize)
    (newPage cfg id a).allocationSize (newPage cfg id a).id t ω σ).2 := effect_reserveNvmeRange t ω σ
  revert hres
  rcases reserveNvmeRange cfg ((newPage cfg id a).allocationSize / cfg.pageSize) (newPage cfg id a).allocationSize
    (newPage cfg id a).id t ω σ with ⟨_ | off, σ₁⟩
  · exact fun hres => .path hres
  intro hres
  cases off with
  | none => exact .path hres
  | some off =>
    let p : PageMetadata := { newPage cfg id a with nvmeOffset := some off, hasNvmeCopy := false }
    rcases hp : σ₁.table.lookup p.id with _ | q
    · show Inserts l t σ ((insertPage p >>= fun _ => transition p.id .residentNvme >>= fun _ => recordAlloc (newPage cfg id a)
        (·.diskAt off)) t ω σ₁).2
      rw [run_insert (p := p) hp rfl rfl rfl]
      exact .page σ₁ (p.enter .residentNvme) _ _ _ hres hp rfl rfl rfl
    · show Inserts l t σ ((insertPage p >>= fun _ => transition p.id .residentNvme >>= fun _ => recordAlloc (newPage cfg id a)
        (·.diskAt off)) t ω σ₁).2
      rw [broken_insertPage (p := p) hp]
      exact .broken σ₁ _ .duplicateId hres rfl

/-- A property of the sections of an operation `l`: that of elementary effects, and of the sections that
`l` may have besides. -/
structure Admits (cfg : RuntimeConfig) (l : Op) (P : ∀ β : Type, Sec β → Prop) : Prop where
  effect : ∀ {β : Type} {a : Sec β}, Effect l β a → P β a
  demand : ∀ id target, P _ (pushDemand id target)
  prefetch : ∀ id target, P _ (pushPrefetch cfg id target)
  insert : ∀ {a} {β : Type} {s : Sec β}, l = .allocate a → Insertion l β s → P β s
  pop : l = .worker → P _ popRequest
  mark : l = .worker → ∀ id, P _ (markPrefetched id)
  settle : l = .worker → ∀ k r, P _ (setPromise k r)
  served : l = .worker → ∀ id, P _ (finishPrefetch id)
  claim : ∀ id, l = .free id → P _ (claimFree id)
  dequeue : ∀ id, l = .free id → P _ (removeQueuedPrefetch id)
  finish : ∀ id failed, l = .free id → P _ (finishFree id failed)
  stop : l = .shutdown → P _ beginShutdown

variable {P : ∀ β : Type, Sec β → Prop} (h : Admits cfg l P)

include h

theorem Admits.all {p : Code α} (hp : p.All (Effect l)) : p.All P := hp.mono fun _ _ => h.effect

/-! ## Requests -/

theorem submitDemand_all {target : Tier} : (submitDemand cfg id target).All P :=
  .bind (.await (h.demand id target)) fun _ => .await (h.effect effect_of_state)

theorem consumePrefetchMark_all : (consumePrefetchMark id).All P :=
  h.all (.bind (.atomic fun _ _ _ => .single (.unmark id)) fun _ => .ite (.atomic effect_of_state) trivial)

theorem workerFailed_all (hl : l = .worker) {r : Request} {e : Error} : (workerFailed r e).All P := by
  unfold workerFailed
  have hset : (.atomic (setPromise r.completion (.error e)) : Code Unit).All P := .atomic (h.settle hl _ _)
  have hemit : (do
      if e.code ≠ .cancelled then .atomic emitEvent else pure ()
      .atomic (setPromise r.completion (.error e)) : Code Unit).All P := by
    by_cases hc : e.code ≠ .cancelled
    · simp only [if_pos hc]
      exact .bind (.atomic (h.effect effect_of_state)) fun _ => hset
    · simp only [if_neg hc]
      exact hset
  by_cases hk : r.kind = .prefetch
  · simp only [if_pos hk]
    exact .bind (.atomic (h.effect effect_unmark)) fun _ => hemit
  · simp only [if_neg hk]
    exact hemit

theorem workerTurn_all (hl : l = .worker) : (workerTurn cfg).All P := by
  unfold workerTurn
  refine .bind (.await (h.pop hl)) fun x => ?_
  split
  · trivial
  rename_i r
  have hbody : (tryCatch (do
      loadPage cfg r.page r.target
      .atomic (setPromise r.completion (.ok ()))) (workerFailed r) : Code Unit).All P :=
    .tryCatch (.bind (h.all loadAttempts_all) fun _ => .atomic (h.settle hl _ _)) fun _ => workerFailed_all h hl
  unfold serve
  by_cases hk : r.kind = .prefetch
  · simp only [if_pos hk]
    exact .bind (.atomic (h.mark hl _)) fun _ => .bind hbody fun _ => .atomic (h.served hl _)
  · simp only [if_neg hk]
    exact .bind hbody fun _ => trivial

/-! ## Allocation -/

omit h in
theorem effect_takePageId : Effect l _ takePageId := by
  intro t ω σ
  unfold takePageId
  split <;> exact .same (by rfl)

theorem allocatePage_all {a : AllocArgs} (hl : l = .allocate a) : (allocatePage cfg a).All P := by
  unfold allocatePage
  refine .bind (.atomic (h.effect effect_of_state)) fun _ => .ite trivial (.ite trivial ?_)
  refine .bind (.atomic (h.effect effect_takePageId)) fun id =>
    .bind (.atomic (h.effect fun _ _ _ => .same (by rfl))) fun tier => ?_
  have hend : (do .atomic emitEvent; pure id : Code PageId).All P := .bind (.atomic (h.effect effect_of_state)) fun _ => trivial
  have hhost : (allocHost cfg (newPage cfg id a)).All P := by
    refine .bind (.atomic (h.effect effect_hostAllocate)) fun x => ?_
    split
    · trivial
    · exact .atomic (h.insert hl insertion_insertHost)
  cases tier with
  | vram =>
    refine .bind (.bind (h.all ensureVramHeadroom_all) fun _ => .bind (.atomic (h.effect effect_vramTryReserve)) fun _ =>
      .ite ?_ trivial) fun _ => hend
    exact .bind (.tryCatch (.atomic (h.effect effect_deviceAlloc)) fun _ =>
      .bind (.atomic (h.effect effect_vramRelease)) fun _ => trivial) fun _ => .atomic (h.insert hl insertion_insertVram)
  | hostPinned | hostPageable => exact .bind hhost fun _ => hend
  | nvme => exact .bind (.atomic (h.insert hl insertion_insertNvme)) fun _ => hend
  | none => trivial

omit h

/-! ## Release -/

theorem freeResource_all {r : Resource} {s : FreeStatus} {free clear : Sec Unit} {release : Option (Sec Unit)}
    (hf : Effect (.free id) _ free) (hc : Effect (.free id) _ clear) (hr : ∀ x, release = some x → Effect (.free id) _ x) :
    (freeResource r id s free clear release).All (Effect (.free id)) := by
  have hfreed : Effect (.free id) _ (do free; record fun t => .freed t id r) :=
    hf.bind fun _ => effect_record fun _ => ⟨rfl, beq_self_eq_true id, rfl, rfl⟩
  refine Prog.All.andThen (fun x => ?_) (.atomic hfreed)
  cases x with
  | error e => trivial
  | ok _ =>
    refine Prog.All.andThen (fun y => ?_) (.atomic hc)
    cases release with
    | none => trivial
    | some release =>
      refine Prog.All.andThen (fun z => ?_) (.atomic ((hr release rfl).bind fun _ =>
        effect_record fun _ => ⟨rfl, beq_self_eq_true id, rfl, rfl⟩))
      cases z <;> trivial

theorem freeVram_all {m : PageMetadata} {s : FreeStatus} : (freeVram cfg id m s).All (Effect (.free id)) := by
  unfold freeVram
  split
  · trivial
  · exact freeResource_all effect_deviceFree (effect_withPage fun _ => rfl) fun x hx => by cases hx; exact effect_vramRelease

theorem freeHost_all {m : PageMetadata} {s : FreeStatus} : (freeHost id m s).All (Effect (.free id)) := by
  unfold freeHost
  split
  · trivial
  · refine freeResource_all (effect_hostFree.bind fun _ => ?_) (effect_withPage fun _ => rfl) nofun
    exact effect_record fun _ => ⟨rfl, beq_self_eq_true id, rfl, rfl⟩

theorem freeNvme_all {m : PageMetadata} {s : FreeStatus} : (freeNvme cfg id m s).All (Effect (.free id)) := by
  unfold freeNvme
  split
  · trivial
  · exact freeResource_all effect_freeExtents (effect_withPage fun _ => rfl) fun x hx => by cases hx; exact effect_nvmeRelease

theorem freePage_all (h : Admits cfg (.free id) P) : (freePage cfg id).All P := by
  unfold freePage
  refine .bind (.atomic (h.effect effect_of_state)) fun _ => .bind (.await (h.claim id rfl)) fun m =>
    .bind (.atomic (h.dequeue id rfl)) fun _ => .bind (h.all freeVram_all) fun _ => .bind (h.all freeHost_all) fun _ =>
    .bind (h.all freeNvme_all) fun s => .bind (.atomic (h.finish id _ rfl)) fun _ => .bind (.atomic (h.effect effect_notifyAll)) fun _ => ?_
  split
  · trivial
  · exact .atomic (h.effect effect_of_state)

/-! ## Access -/

/-- An operation that may write the page. -/
def Op.Writes (l : Op) (id : PageId) : Prop := (∃ data, l = .write id data) ∨ l = .fill id

theorem Op.Writes.records (h : l.Writes id) : (∀ t d, l.records (.wrote t id d) = true) ∧ ∀ t b x y, l.records (.torn t id b x y) = true := by
  rcases h with ⟨data, rfl⟩ | rfl <;> exact ⟨fun _ _ => beq_self_eq_true id, fun _ _ _ _ => beq_self_eq_true id⟩

/-- The commit of an access: the counters of the page and the record of it. -/
theorem effect_commit {f : PageMetadata → PageMetadata} {e : Nat → Event} (hi : ∀ p, (f p).id = p.id) (hs : ∀ p, (f p).state = p.state)
    (ht : ∀ t, (e t).thread = t) (hl : ∀ t, l.records (e t) = true) (ha : ∀ t, (e t).accesses = some id) (x : α) :
    Effect l α (do
      touch id f
      record e
      pure x) := by
  intro t ω σ
  rcases hp : σ.table.lookup id with _ | p
  · have hrun : touch id f t ω σ = (.error (notFound id), σ) := by
      unfold touch
      rw [Act.bind_ok (Act.get_apply t ω σ), Act.bind_error (by rw [withPage, hp])]
    rw [Act.bind_error hrun]
    exact FrontPath.refl ..
  · rw [Act.bind_ok (touch_run hp), Act.bind_ok (rfl : record e t ω _ = (.ok (), _))]
    have hid : p.id = id := (Keyed.lookup_some.1 hp).2
    exact .single (.access p _ (e t) (lookup_own hp) (hi p) (hs p) rfl rfl (ht t) (hl t) (by rw [hid]; exact ha t))

theorem effect_tryWrite {data : Bytes} {n : Nat} (hl : l.Writes id) : Effect l _ (tryWrite cfg id data n) := by
  have hcommit : Effect l _ (do
      touch id fun p => { p with dirty := true, hasNvmeCopy := false, checksum := fnv1a64 (Bytes.take data n) }
      record fun t => .wrote t id (Bytes.take data n)
      pure true : Sec Bool) := by
    refine effect_commit ?_ ?_ ?_ (fun t => hl.records.1 t _) ?_ true
    all_goals exact fun _ => rfl
  intro t ω σ
  unfold tryWrite
  rw [Act.bind_apply]
  unfold copyOf
  rcases hp : σ.table.lookup id with _ | cur
  · exact FrontPath.refl ..
  have hid : cur.id = id := (Keyed.lookup_some.1 hp).2
  have hvram : Effect l _ (writeVram cfg cur data n) := by
    refine Effect.bind effect_of_state fun _ => effect_deviceCopyH2D.tryCatch fun e => Effect.bind effect_of_state fun _ => ?_
    refine (effect_record fun t => ⟨rfl, ?_, rfl, rfl⟩).bind fun _ => effect_throw e
    rw [hid]
    exact hl.records.2 t _ _ _
  have hhost : Effect l _ (Act.modify fun σ : Shared => σ.writeHost (deref cur.hostPtr) data n) := effect_modify fun _ => rfl
  dsimp only
  cases cur.state with
  | residentHost => exact (hhost.bind fun _ => hcommit) t ω σ
  | residentVram => exact (hvram.bind fun _ => hcommit) t ω σ
  | error | released | unallocated => exact effect_throw _ t ω σ
  | _ => exact effect_pure _ t ω σ

theorem effect_tryCopyOut {n : Nat} : Effect l _ (tryCopyOut cfg id n) := by
  refine effect_copyOf.bind fun m => ?_
  split
  · exact Effect.bind effect_of_state fun _ => effect_pure _
  · exact effect_deviceStage.bind fun _ => effect_pure _
  · exact effect_pure _

theorem effect_tryRead {out : Bool} {n : Nat} : Effect (.read id out) _ (tryRead cfg id n) := by
  refine effect_tryCopyOut.bind fun x => ?_
  rcases x with _ | ⟨bytes, m⟩
  · exact effect_pure _
  · refine effect_commit ?_ ?_ ?_ ?_ ?_ (some bytes)
    case refine_4 => exact fun _ => beq_self_eq_true id
    all_goals exact fun _ => rfl

include h

theorem settleInMemory_all {target : PageMetadata → Sec Tier} (ht : ∀ m, Effect l _ (target m)) : (settleInMemory cfg id target).All P :=
  .bind (h.all waitSettled_all) fun m =>
    .ite (.bind (.atomic (h.effect (ht m))) fun _ => .bind (submitDemand_all h) fun _ => h.all waitSettled_all) trivial

theorem copyRounds_all {copy : Sec (Option α)} (hc : Effect l _ copy) : ∀ {n : Nat}, (copyRounds cfg id copy n).All P
  | 0 => trivial
  | n + 1 => by
    unfold copyRounds
    refine .bind (.atomic (h.effect hc)) fun x => ?_
    split
    · trivial
    · exact .bind (settleInMemory_all h fun _ => effect_pure _) fun _ => copyRounds_all hc

theorem untilDeadline_all {copy : Sec (Option α)} (hc : Effect l _ copy) : (untilDeadline cfg id copy).All P :=
  .bind (.atomic (h.effect effect_of_state)) fun _ => copyRounds_all h hc

theorem finishWrite_all {data : Bytes} {m : PageMetadata} (hl : l.Writes id) : (finishWrite cfg id data m).All P := by
  refine .bind (untilDeadline_all h ((effect_tryWrite hl).bind fun _ => .ite (effect_pure _) (effect_pure _))) fun x => ?_
  cases x with
  | none => trivial
  | some _ => exact .bind (consumePrefetchMark_all h) fun _ => .atomic (h.effect effect_of_state)

theorem writePageImpl_all {data : Option Bytes} (hl : l.Writes id) : (writePageImpl cfg id data).All P := by
  unfold writePageImpl
  refine .bind (h.all waitSettled_all) fun m => ?_
  cases data with
  | none => trivial
  | some data =>
    by_cases hm : m.state = .residentNvme
    · simp only [if_pos hm]
      exact .bind (submitDemand_all h) fun _ => .bind (h.all waitSettled_all) fun _ => finishWrite_all h hl
    · simp only [if_neg hm]
      exact finishWrite_all h hl

omit h

theorem finishRead_all {out promoted : Bool} {m : PageMetadata} (h : Admits cfg (.read id out) P) :
    (finishRead cfg id promoted m).All P := by
  refine .bind (untilDeadline_all h effect_tryRead) fun x => ?_
  cases x with
  | none => trivial
  | some _ =>
    have hemit : (.atomic emitEvent : Code Unit).All P := .atomic (h.effect effect_of_state)
    refine .bind (consumePrefetchMark_all h) fun _ => .bind hemit fun _ => ?_
    cases promoted with
    | true => exact .bind hemit fun _ => .bind hemit fun _ => trivial
    | false => trivial

theorem readPage_all {out : Bool} (h : Admits cfg (.read id out) P) : (readPage cfg id out).All P := by
  unfold readPage
  refine .bind (.atomic (h.effect effect_of_state)) fun _ => .bind (h.all waitSettled_all) fun m => .ite trivial ?_
  by_cases hm : m.state = .residentNvme
  · simp only [if_pos hm]
    exact .bind (.atomic (h.effect effect_of_state)) fun _ => .bind (submitDemand_all h) fun _ =>
      .bind (h.all waitSettled_all) fun _ => finishRead_all h
  · simp only [if_neg hm]
    exact finishRead_all h

include h

theorem verifyPage_all : (verifyPage cfg id).All P := by
  unfold verifyPage
  refine .bind (.atomic (h.effect effect_of_state)) fun _ => .bind (settleInMemory_all h fun _ => effect_pure _) fun m =>
    .bind (untilDeadline_all h effect_tryCopyOut) fun x => ?_
  split
  · trivial
  · exact .bind (.atomic (h.effect effect_of_state)) fun _ => .ite trivial trivial

/-! ## Residency control -/

omit h

theorem demoteAttempts_all {goal : PageState} {move : PageState → Option (Code Unit)}
    (hm : ∀ s p, move s = some p → p.All (Effect l)) : ∀ {n : Nat}, (demoteAttempts id goal move n).All (Effect l)
  | 0 => trivial
  | n + 1 => by
    unfold demoteAttempts
    refine .bind waitSettled_all fun m => .ite trivial ?_
    split
    · trivial
    · rename_i p hp
      exact .bind (hm _ p hp) fun _ => .bind waitSettled_all fun _ => .ite trivial (demoteAttempts_all hm)

theorem demoteToHostImpl_all : (demoteToHostImpl cfg id).All (Effect l) := by
  refine demoteAttempts_all fun s p hp => ?_
  cases s <;> cases hp
  · exact loadNvmeToHost_all
  · exact evictVramToHost_all

theorem demoteToNvme_all : (demoteToNvme cfg id).All (Effect l) := by
  refine .bind (.atomic effect_of_state) fun _ => demoteAttempts_all fun s p hp => ?_
  cases s <;> cases hp
  · exact evictHostToNvme_all
  · exact evictVramToHost_all

theorem evict_all : (evict cfg id).All (Effect l) := by
  have hdrop : Effect l _ (tryDrop cfg id) := effect_copyOf.bind fun _ => .ite (effect_dropClean.bind fun _ => effect_pure _) (effect_pure _)
  refine .bind (.atomic effect_of_state) fun _ => .bind waitSettled_all fun m => .ite trivial (.ite ?_ demoteToHostImpl_all)
  exact .bind (.atomic hdrop) fun _ => .ite (.atomic effect_of_state) demoteToHostImpl_all

include h

theorem prefetchEach_all : ∀ {ids : List PageId}, (prefetchEach cfg ids).All P
  | [] => trivial
  | id :: rest => by
    unfold prefetchEach
    refine .bind (h.all waitSettled_all) fun m => .ite prefetchEach_all
      (.bind (.atomic (h.effect effect_of_state)) fun _ => .bind ?_ fun _ => prefetchEach_all)
    refine .bind (.atomic (h.prefetch id _)) fun x => ?_
    split
    · trivial
    · exact .atomic (h.effect effect_of_state)

theorem prefetch_all {ids : List PageId} : (prefetch cfg ids).All P :=
  .bind (.atomic (h.effect effect_of_state)) fun _ => prefetchEach_all h

/-! ## Every operation -/

omit h in
theorem transferStep_all {kind : TransferKind} : (transferStep cfg id kind).All (Effect l) := by
  cases kind
  · exact evictVramToHost_all
  · exact evictHostToNvme_all
  · exact loadNvmeToHost_all
  · exact promoteHostToVram_all

theorem code_all : (code cfg l).All P := by
  have hdone : ∀ {p : Code Unit}, p.All P → (done p).All P := fun hp => .bind hp fun _ => trivial
  have hrun : (.atomic requireRunning : Code Unit).All P := .atomic (h.effect effect_of_state)
  cases l with
  | allocate a => exact .bind (allocatePage_all h rfl) fun _ => trivial
  | free id => exact hdone (freePage_all h)
  | write id data => exact hdone (.bind hrun fun _ => writePageImpl_all h (.inl ⟨data, rfl⟩))
  | fill id => exact hdone (.bind hrun fun _ => .bind (.atomic (h.effect effect_copyOf)) fun _ => writePageImpl_all h (.inr rfl))
  | read id out => exact .bind (readPage_all h) fun _ => trivial
  | verify id => exact hdone (verifyPage_all h)
  | promote id =>
    exact hdone (.bind hrun fun _ => .bind (.atomic (h.effect effect_copyOf)) fun _ => .ite trivial
      (.bind (.atomic (h.effect effect_of_state)) fun _ => submitDemand_all h))
  | demoteToHost id => exact hdone (.bind hrun fun _ => h.all demoteToHostImpl_all)
  | demoteToNvme id => exact hdone (h.all demoteToNvme_all)
  | evict id => exact hdone (h.all evict_all)
  | pin id b =>
    refine hdone (.bind hrun fun _ => .atomic (h.effect ((effect_withPage fun _ => by rfl).bind fun _ => ?_)))
    exact effect_record fun _ => ⟨rfl, beq_self_eq_true id, rfl, rfl⟩
  | prefetch ids => exact hdone (prefetch_all h)
  | prefetchSequential start count => exact hdone (.ite trivial (prefetch_all h))
  | worker => exact hdone (workerTurn_all h rfl)
  | shutdown => exact hdone (.atomic (h.stop rfl))
  | transfer kind id => exact hdone (h.all transferStep_all)

end FlashTier
