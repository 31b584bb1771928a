/-
When `allocate_page` refuses a page. It asks the planner for a tier in one section and takes the space in a later
one. When nobody takes space in between, a refusal means that there was a moment at which neither device memory nor
host memory nor the free extents of the store could hold the page. The planner counts the bytes of the store's budget,
to which cached extents belong, so it refuses what a reservation that takes cached extents away could place.
-/
import FlashTier.Conc.Held
import FlashTier.Guarantees.Reclaim
import FlashTier.Guarantees.Release

namespace FlashTier

open Conc

variable {cfg : RuntimeConfig} {disk : Bytes} {c : Runtime} {σ σ' : Shared} {T : Multiset (Nat × Hold)} {t : Nat} {bytes n : Nat}
  {ω : Env} {α β : Type}

/-! ## Room -/

/-- No tier can hold the bytes: neither memory has the headroom, and the store has no run of free extents. -/
structure Shared.Full (cfg : RuntimeConfig) (σ : Shared) (bytes : Nat) : Prop where
  device : σ.vramBudget.headroom < bytes
  host : σ.host.headroom < bytes
  store : ∀ first, ¬σ.store.FreeRun first (bytes / cfg.pageSize)

/-- The budgets and the store are the same. -/
structure SameRoom (σ σ' : Shared) : Prop where
  vram : σ'.vramBudget = σ.vramBudget
  host : σ'.host = σ.host
  nvme : σ'.nvmeBudget = σ.nvmeBudget
  store : σ'.store = σ.store

theorem SameRoom.refl (σ : Shared) : SameRoom σ σ := ⟨rfl, rfl, rfl, rfl⟩

theorem SameRoom.trans {σ₁ σ₂ σ₃ : Shared} (h : SameRoom σ₁ σ₂) (h' : SameRoom σ₂ σ₃) : SameRoom σ₁ σ₃ :=
  ⟨h'.vram.trans h.vram, h'.host.trans h.host, h'.nvme.trans h.nvme, h'.store.trans h.store⟩

theorem SameRoom.full (h : SameRoom σ σ') (hf : σ'.Full cfg bytes) : σ.Full cfg bytes :=
  ⟨h.vram ▸ hf.device, h.host ▸ hf.host, h.store ▸ hf.store⟩

/-- What is left of the store's budget. -/
def Shared.nvmeRoom (σ : Shared) : Nat := σ.nvmeBudget.limit - σ.nvmeBudget.used

/-- No tier has less room than before. -/
structure Roomier (σ σ' : Shared) : Prop where
  vram : σ.vramBudget.headroom ≤ σ'.vramBudget.headroom
  host : σ.host.headroom ≤ σ'.host.headroom
  nvme : σ.nvmeRoom ≤ σ'.nvmeRoom
  store : ∀ first n, σ.store.FreeRun first n → σ'.store.FreeRun first n

theorem Roomier.refl (σ : Shared) : Roomier σ σ := ⟨le_rfl, le_rfl, le_rfl, fun _ _ h => h⟩

theorem Roomier.trans {σ₁ σ₂ σ₃ : Shared} (h : Roomier σ₁ σ₂) (h' : Roomier σ₂ σ₃) : Roomier σ₁ σ₃ :=
  ⟨h.vram.trans h'.vram, h.host.trans h'.host, h.nvme.trans h'.nvme, fun first n hr => h'.store first n (h.store first n hr)⟩

/-- Where the planner places a page. -/
inductive Chosen (σ : Shared) (bytes : Nat) : Except Error Tier → Prop
  | vram (h : bytes ≤ σ.vramBudget.headroom) : Chosen σ bytes (.ok .vram)
  | host (hv : σ.vramBudget.headroom < bytes) (h : bytes ≤ σ.host.headroom) : Chosen σ bytes (.ok .hostPinned)
  | nvme (hv : σ.vramBudget.headroom < bytes) (hh : σ.host.headroom < bytes) (h : bytes ≤ σ.nvmeRoom) : Chosen σ bytes (.ok .nvme)
  | refused (hv : σ.vramBudget.headroom < bytes) (hh : σ.host.headroom < bytes) (hn : σ.nvmeRoom < bytes) :
      Chosen σ bytes (.error σ.budgets.noTier)

theorem chosen_chooseAllocationTier (σ : Shared) (hb : 0 < bytes) : Chosen σ bytes (σ.budgets.chooseAllocationTier bytes) := by
  have hvram : σ.budgets.vramHasHeadroom bytes = true ↔ bytes ≤ σ.vramBudget.headroom := by
    show (if σ.vramBudget.limit < σ.vramBudget.reserve then false
      else if σ.vramBudget.limit - σ.vramBudget.reserve < σ.vramBudget.used then false
      else decide (bytes ≤ σ.vramBudget.limit - σ.vramBudget.reserve - σ.vramBudget.used)) = true ↔ _
    rw [TierBudget.headroom_eq, TierBudget.usable]
    split_ifs <;> simp <;> omega
  have hhost : (if σ.budgets.hostUsed < σ.budgets.hostLimit then σ.budgets.hostLimit - σ.budgets.hostUsed else 0) = σ.host.headroom := by
    show (if σ.host.used < σ.host.limit then σ.host.limit - σ.host.used else 0) = _
    unfold HostBackend.headroom
    split_ifs <;> omega
  have hnvme : (if σ.budgets.nvmeUsed < σ.budgets.nvmeLimit then σ.budgets.nvmeLimit - σ.budgets.nvmeUsed else 0) = σ.nvmeRoom := by
    show (if σ.nvmeBudget.used < σ.nvmeBudget.limit then σ.nvmeBudget.limit - σ.nvmeBudget.used else 0) = _
    unfold Shared.nvmeRoom
    split_ifs <;> omega
  unfold PlannerBudgets.chooseAllocationTier
  rw [hhost, hnvme]
  split
  · exact .vram (hvram.1 ‹_›)
  rename_i hv
  have hv : σ.vramBudget.headroom < bytes := by
    rw [hvram] at hv
    omega
  split
  · exact .host hv ‹_›
  split
  · exact .nvme hv (by omega) ‹_›
  · exact .refused hv (by omega) (by omega)

/-- The budget of the store counts the extents in use, in a state that the invariant holds of. -/
def Shared.Sane (cfg : RuntimeConfig) (σ : Shared) : Prop := σ.InStep cfg ∧ ∃ T, Inv cfg σ T

/-- Where the planner sees no room in the store, there are too few free extents. -/
theorem Shared.Sane.noRun (h : σ.Sane cfg) (hb : bytes = n * cfg.pageSize) (hroom : σ.nvmeRoom < bytes) (first : Nat) :
    ¬σ.store.FreeRun first n := by
  obtain ⟨hstep, T, hi⟩ := h
  intro hrun
  have hfree := hrun.room
  rw [← hi.wf.store.count, hi.wf.geometry.2] at hfree
  have hused : σ.nvmeBudget.used = σ.store.usedExtents * cfg.pageSize := hstep
  have hle : (σ.store.usedExtents + n) * cfg.pageSize ≤ cfg.extentCount * cfg.pageSize := Nat.mul_le_mul_right _ hfree
  unfold Shared.nvmeRoom at hroom
  rw [hi.wf.nvmeLimit.1, RuntimeConfig.nvmeLimit, hused] at hroom
  rw [Nat.add_mul] at hle
  omega

/-! ## Errors that are no refusals -/

def NotBudget (r : Except Error α) : Prop := ∀ e, r = .error e → e.code ≠ .budget

/-- The section throws no refusal. -/
def Unrefusing (a : Sec α) : Prop := ∀ t ω σ, NotBudget (a t ω σ).1

theorem notBudget_ok (a : α) : NotBudget (.ok a : Except Error α) := fun _ h => by cases h

theorem notBudget_error {e : Error} (h : e.code ≠ .budget) : NotBudget (.error e : Except Error α) := fun _ he => by
  cases he
  exact h

theorem NotBudget.cast {e : Error} (h : NotBudget (.error e : Except Error α)) : NotBudget (.error e : Except Error β) :=
  notBudget_error (h e rfl)

theorem Unrefusing.bind {a : Sec α} {f : α → Sec β} (ha : Unrefusing a) (hf : ∀ x, Unrefusing (f x)) : Unrefusing (a >>= f) := by
  intro t ω σ
  rw [Act.bind_apply]
  have := ha t ω σ
  revert this
  rcases a t ω σ with ⟨e | x, σ'⟩
  · exact fun h => notBudget_error (h e rfl)
  · exact fun _ => hf x t ω σ'

theorem unrefusing_pure (a : α) : Unrefusing (pure a : Sec α) := fun _ _ _ => notBudget_ok a

theorem unrefusing_withPage {id : PageId} {f : PageMetadata → PageMetadata} : Unrefusing (withPage id f) := by
  intro t ω σ
  unfold withPage
  split
  · exact notBudget_ok _
  · exact notBudget_error (by simp [notFound])

theorem unrefusing_transition {id : PageId} {dst : PageState} : Unrefusing (transition id dst) := by
  intro t ω σ
  unfold transition
  split
  · exact notBudget_error (by simp [notFound])
  split
  · exact notBudget_ok _
  · rename_i p _ e he
    refine notBudget_error ?_
    unfold PageMetadata.transition at he
    split at he
    · cases he
      simp [PageMetadata.illegalTransition]
    split at he
    · cases he
      simp [PageMetadata.cleanCopyMissing]
    · cases he

theorem unrefusing_insertPage {p : PageMetadata} : Unrefusing (insertPage p) := by
  intro t ω σ
  unfold insertPage
  split
  · exact notBudget_ok _
  · exact notBudget_error (by simp [duplicateId])

theorem unrefusing_recordAlloc {p : PageMetadata} {f : Shared → Bytes} : Unrefusing (recordAlloc p f) := fun _ _ _ => notBudget_ok _

theorem unrefusing_insertVram {p : PageMetadata} {ptr : Ptr} : Unrefusing (insertVram p ptr) :=
  unrefusing_insertPage.bind fun _ => unrefusing_transition.bind fun _ => unrefusing_recordAlloc

theorem unrefusing_allocationTier {ptr : Ptr} : Unrefusing (allocationTier ptr) := by
  intro t ω σ
  unfold allocationTier
  split
  · exact notBudget_ok _
  · exact notBudget_error (by simp [tierUnknown])

theorem unrefusing_insertHost {p : PageMetadata} {ptr : Ptr} : Unrefusing (insertHost p ptr) :=
  unrefusing_insertPage.bind fun _ => unrefusing_allocationTier.bind fun _ => unrefusing_transition.bind fun _ =>
    unrefusing_withPage.bind fun _ => unrefusing_recordAlloc

theorem unrefusing_vramRelease : Unrefusing (vramRelease bytes) := by
  intro t ω σ
  unfold vramRelease
  split
  · exact notBudget_ok _
  · exact notBudget_error (by simp [overRelease])

theorem notBudget_allocateExtents (s : Extents) (n : Nat) : NotBudget (s.allocateExtents n) := by
  unfold Extents.allocateExtents
  split
  · exact notBudget_error (by simp [Extents.notOpen])
  split
  · exact notBudget_error (by simp [Extents.zeroCount])
  split
  · unfold Extents.allocateExtent
    split
    · exact notBudget_error (by simp [Extents.notOpen])
    split
    · exact notBudget_error (by simp [Extents.closing])
    split <;> exact notBudget_ok _
  split
  · exact notBudget_error (by simp [Extents.closing])
  split
  · exact notBudget_ok _
  split <;> exact notBudget_ok _

theorem notBudget_freeExtents (s : Extents) (offset n : Nat) : NotBudget (s.freeExtents offset n) := by
  unfold Extents.freeExtents
  split
  · exact notBudget_error (by simp [Extents.notOpen])
  split
  · exact notBudget_error (by simp [Extents.invalidRange])
  dsimp only
  split
  · exact notBudget_error (by simp [Extents.invalidRange])
  split
  · exact notBudget_error (by simp [Extents.closing])
  split
  · refine notBudget_error ?_
    split
    · simp [Extents.doubleFree]
    · simp [Extents.activeIoError]
  · exact notBudget_ok _

theorem unrefusing_allocateExtents : Unrefusing (allocateExtents n) := by
  intro t ω σ
  have h := notBudget_allocateExtents σ.store n
  unfold allocateExtents
  revert h
  rcases σ.store.allocateExtents n with e | _ | x
  · exact fun h => notBudget_error (h e rfl)
  · exact fun _ => notBudget_ok _
  · exact fun _ => notBudget_ok _

theorem unrefusing_freeExtents {offset : Nat} : Unrefusing (freeExtents offset n) := by
  intro t ω σ
  have h := notBudget_freeExtents σ.store offset n
  unfold freeExtents
  revert h
  rcases σ.store.freeExtents offset n with e | s
  · exact fun h => notBudget_error (h e rfl)
  · exact fun _ => notBudget_ok _

theorem unrefusing_nvmeTryReserve : Unrefusing (nvmeTryReserve bytes) := by
  intro t ω σ
  unfold nvmeTryReserve
  split <;> exact notBudget_ok _

theorem unrefusing_nvmeRelease : Unrefusing (nvmeRelease bytes) := by
  intro t ω σ
  unfold nvmeRelease
  split
  · exact notBudget_ok _
  · exact notBudget_error (by simp [overRelease])

theorem unrefusing_copyOf {id : PageId} : Unrefusing (copyOf id) := by
  intro t ω σ
  unfold copyOf
  split
  · exact notBudget_ok _
  · exact notBudget_error (by simp [notFound])

theorem unrefusing_tryReserveRange : Unrefusing (tryReserveRange n bytes) := by
  refine unrefusing_allocateExtents.bind fun x => ?_
  cases x with
  | none => exact unrefusing_pure _
  | some offset =>
    refine unrefusing_nvmeTryReserve.bind fun b => ?_
    cases b with
    | true => exact unrefusing_pure _
    | false => exact unrefusing_freeExtents.bind fun _ => unrefusing_pure _

theorem unrefusing_reclaim {offset : Nat} {id : PageId} : Unrefusing (reclaim cfg offset id) :=
  unrefusing_copyOf.bind fun _ => unrefusing_freeExtents.bind fun _ => unrefusing_nvmeRelease.bind fun _ => unrefusing_withPage

theorem unrefusing_reclaimLoop : ∀ l : List (Nat × PageId), Unrefusing (reclaimLoop cfg n bytes l)
  | [] => unrefusing_pure _
  | (offset, id) :: rest => by
    refine unrefusing_reclaim.bind fun _ => unrefusing_tryReserveRange.bind fun x => ?_
    cases x with
    | some offset => exact unrefusing_pure _
    | none => exact unrefusing_reclaimLoop rest

theorem unrefusing_reserveNvmeRange {exclude : PageId} : Unrefusing (reserveNvmeRange cfg n bytes exclude) := by
  refine unrefusing_tryReserveRange.bind fun x => ?_
  cases x with
  | some offset => exact unrefusing_pure _
  | none => exact Unrefusing.bind (fun _ _ _ => notBudget_ok _) fun σ => unrefusing_reclaimLoop _

/-! ## The store -/

/-- With room in the budget, an attempt finds no range only when there is none. -/
theorem tryReserveRange_none (hi : Inv cfg σ T) (hn : 0 < n) (hroom : bytes ≤ σ.nvmeRoom)
    (h : (tryReserveRange n bytes t ω σ).1 = .ok none) (first : Nat) : ¬σ.store.FreeRun first n := by
  refine Extents.allocateExtents_none hi.wf.store hn ?_ first
  unfold tryReserveRange at h
  rw [Act.bind_apply] at h
  unfold allocateExtents at h
  cases ha : σ.store.allocateExtents n with
  | error e =>
    rw [ha] at h
    cases h
  | ok x =>
    cases x with
    | none => rfl
    | some y =>
      -- the budget has room for the range that was found
      exfalso
      obtain ⟨offset, s⟩ := y
      rw [ha] at h
      simp only [Act.bind_apply] at h
      have hok := hi.wf.nvme.used
      have hlim : σ.nvmeBudget.usable = σ.nvmeBudget.limit := by
        rw [TierBudget.usable, hi.wf.nvmeLimit.2, Nat.sub_zero]
      have hfit : σ.nvmeBudget.used + bytes ≤ σ.nvmeBudget.usable := by
        unfold Shared.nvmeRoom at hroom
        omega
      obtain ⟨b, hb⟩ := TierBudget.tryReserve_isSome hfit
      have hsame : ((σ.noteWrap t (2 ^ 64 ≤ σ.store.usedExtents + n)).setStore s).nvmeBudget = σ.nvmeBudget := by
        unfold Shared.noteWrap
        split <;> rfl
      have hres : (nvmeTryReserve bytes t ω ((σ.noteWrap t (2 ^ 64 ≤ σ.store.usedExtents + n)).setStore s)).1 = .ok true := by
        unfold nvmeTryReserve
        rw [hsame, hb]
      revert h hres
      rcases nvmeTryReserve bytes t ω ((σ.noteWrap t (2 ^ 64 ≤ σ.store.usedExtents + n)).setStore s) with ⟨r, σ₂⟩
      rintro h rfl
      cases h

/-- The section that places a page in the store refuses it only when there is no run of free extents. -/
theorem insertNvme_refused {p : PageMetadata} {e : Error} (hi : Inv cfg σ T) (hn : 0 < p.allocationSize / cfg.pageSize)
    (hroom : p.allocationSize ≤ σ.nvmeRoom) (h : (insertNvme cfg p t ω σ).1 = .error e) (he : e.code = .budget) (first : Nat) :
    ¬σ.store.FreeRun first (p.allocationSize / cfg.pageSize) := by
  suffices hnone : (tryReserveRange (p.allocationSize / cfg.pageSize) p.allocationSize t ω σ).1 = .ok none from
    tryReserveRange_none hi hn hroom hnone first
  have htry : NotBudget (tryReserveRange (p.allocationSize / cfg.pageSize) p.allocationSize t ω σ).1 := unrefusing_tryReserveRange t ω σ
  have hres : NotBudget (reserveNvmeRange cfg (p.allocationSize / cfg.pageSize) p.allocationSize p.id t ω σ).1 :=
    unrefusing_reserveNvmeRange t ω σ
  unfold insertNvme at h
  rw [Act.bind_apply] at h
  cases hr : reserveNvmeRange cfg (p.allocationSize / cfg.pageSize) p.allocationSize p.id t ω σ with
  | mk r σ₁ =>
    rw [hr] at h hres
    cases r with
    | error e' =>
      cases h
      exact absurd he (hres e rfl)
    | ok x =>
      cases x with
      | some offset =>
        -- a page that has its extents is not refused
        have hrest : Unrefusing (do
            insertPage { p with nvmeOffset := some offset, hasNvmeCopy := false }
            transition p.id .residentNvme
            recordAlloc p (·.diskAt offset) : Sec Unit) :=
          unrefusing_insertPage.bind fun _ => unrefusing_transition.bind fun _ => unrefusing_recordAlloc
        exact absurd he (hrest t ω σ₁ e h)
      | none =>
        unfold reserveNvmeRange at hr
        rw [Act.bind_apply] at hr
        revert hr htry
        rcases tryReserveRange (p.allocationSize / cfg.pageSize) p.allocationSize t ω σ with ⟨r, σ₂⟩
        cases r with
        | error e' => exact fun _ hr => by cases hr
        | ok y =>
          cases y with
          | some offset => exact fun _ hr => by cases hr
          | none => exact fun _ _ => rfl

/-! ## From the choice of a tier to its end -/

/-- No backend and no sink throws a refusal of its own, and the deadline of `ensure_vram_headroom` has not passed before
it first looks. -/
structure Env.Calm (ω : Env) : Prop where
  device : NotBudget ω.deviceAlloc
  pinned : NotBudget ω.pinnedAlloc
  emit : ∀ e, ω.emit = some e → e.code ≠ .budget
  rounds : ω.rounds ≠ 0

/-- The sections of `allocate_page` after it has chosen a tier, up to the one that takes the space. -/
inductive Taking (cfg : RuntimeConfig) : ∀ β : Type, Sec β → Prop
  | rounds : Taking cfg Nat fun _ ω σ => (.ok ω.rounds, σ)
  | check : Taking cfg Unit (throwIfStopping headroomCancelled)
  | look : Taking cfg Nat fun _ _ σ => (.ok σ.vramBudget.headroom, σ)
  | vram (bytes : Nat) : Taking cfg Bool (vramTryReserve bytes)
  | host (bytes : Nat) : Taking cfg (Option Ptr) (hostAllocate bytes cfg.pageable)
  | nvme (p : PageMetadata) : Taking cfg Unit (insertNvme cfg p)

/-- Others may lead from a state to those that `J` relates it to, and between a choice and the section that takes the space
they leave no tier with less room. -/
def unhurried (cfg : RuntimeConfig) (J : Shared → Shared → Prop) (hJ : ∀ {a b c}, J a b → J b c → J a c) : Discipline Env Shared Error :=
  ⟨J, Roomier, Env.Calm, Taking cfg, hJ, Roomier.refl, Roomier.trans⟩

section

variable {J : Shared → Shared → Prop} {hJ : ∀ {a b c}, J a b → J b c → J a c} {seen : List Shared}

/-- The end of a call: it was refused only if one of its sections ran in a state without room, one that `X` is true of. -/
def Refused (cfg : RuntimeConfig) (X : Shared → Prop) (bytes : Nat) (r : Except Error α) (seen : List Shared) : Prop :=
  NotBudget r ∨ ∃ σ ∈ seen, σ.Full cfg bytes ∧ X σ

variable {X : Shared → Prop}

/-- A section after the space is taken. -/
theorem wp_unrefusing {a : Sec α} (ha : ∀ t ω σ, ω.Calm → NotBudget (a t ω σ).1) {Q : Except Error α → List Shared → Shared → Prop}
    (hok : ∀ x seen σ, Q (.ok x) seen σ) (herr : ∀ e seen σ, e.code ≠ .budget → Q (.error e) seen σ) :
    (unhurried cfg J hJ).wp t (.atomic a) seen σ Q := by
  refine Discipline.wp_atomic fun σ₁ _ ω hω => ?_
  have h := ha t ω σ₁ hω
  revert h
  rcases a t ω σ₁ with ⟨e | x, σ₂⟩
  · exact fun h => herr e _ _ (h e rfl)
  · exact fun _ => hok x _ _

theorem unrefusing_emitEvent (t : Nat) (ω : Env) (σ : Shared) (hω : ω.Calm) : NotBudget (emitEvent t ω σ).1 := by
  unfold emitEvent
  cases he : ω.emit with
  | none => exact notBudget_ok _
  | some e => exact notBudget_error (hω.emit e he)

theorem wp_allocHost {p : PageMetadata} (hb : 0 < p.allocationSize) (hroom : p.allocationSize ≤ σ.host.headroom) :
    (unhurried cfg J hJ).wp t (allocHost cfg p) seen σ fun r _ _ => NotBudget r := by
  refine Discipline.wp_bind (M := fun r _ _ => NotBudget r ∧ r ≠ .ok none) (Discipline.wp_held (.host _) fun σ₁ _ hk ω hω => ?_) ?_ fun e _ _ h => h.1.cast
  · replace hroom := hroom.trans hk.host
    unfold hostAllocate HostBackend.headroom at *
    rw [if_neg (by omega), if_neg (by split at hroom <;> omega)]
    split
    · exact ⟨notBudget_error (by simp [pinnedUnsupported]), by simp⟩
    · dsimp only
      have halloc : NotBudget (ω.hostAlloc (!cfg.pageable && σ₁.host.pinnedAvailable)) := by
        unfold Env.hostAlloc
        split
        · exact hω.pinned
        · split
          · exact notBudget_ok _
          · exact notBudget_error (by simp [alignedFailed])
      revert halloc
      rcases ω.hostAlloc (!cfg.pageable && σ₁.host.pinnedAvailable) with e | ptr
      · exact fun h => ⟨notBudget_error (h e rfl), by simp⟩
      · exact fun _ => ⟨notBudget_ok _, by simp⟩
  · rintro (_ | ptr) seen σ ⟨-, h⟩
    · exact absurd rfl h
    · exact wp_unrefusing (fun t ω σ _ => unrefusing_insertHost t ω σ) (fun _ _ _ => notBudget_ok _) fun e _ _ h => notBudget_error h

theorem wp_allocVram {p : PageMetadata} (hroom : p.allocationSize ≤ σ.vramBudget.headroom) (hb : 0 < p.allocationSize) :
    (unhurried cfg J hJ).wp t (allocVram cfg p) seen σ fun r _ _ => NotBudget r := by
  -- there is headroom, so nothing is evicted, and the reservation succeeds
  refine Discipline.wp_bind (M := fun r _ σ' => NotBudget r ∧ p.allocationSize ≤ σ'.vramBudget.headroom) ?_ ?_ fun e _ _ h => h.1
  · refine Discipline.wp_bind (M := fun r _ σ' => (∃ n, r = .ok (n + 1)) ∧ p.allocationSize ≤ σ'.vramBudget.headroom)
      (Discipline.wp_held .rounds fun σ₁ _ hk ω hω => ?_) ?_ ?_
    · obtain ⟨n, hn⟩ := Nat.exists_eq_succ_of_ne_zero hω.rounds
      exact ⟨⟨n, by rw [hn]⟩, hroom.trans hk.vram⟩
    · rintro a seen σ ⟨⟨n, ha⟩, hroom⟩
      cases ha
      refine Discipline.wp_bind (M := fun r _ σ' => NotBudget r ∧ p.allocationSize ≤ σ'.vramBudget.headroom)
        (Discipline.wp_held .check fun σ₁ _ hk ω _ => ?_) ?_ fun e _ _ h => h
      · unfold throwIfStopping
        split
        · exact ⟨notBudget_error (by simp [headroomCancelled]), hroom.trans hk.vram⟩
        · exact ⟨notBudget_ok _, hroom.trans hk.vram⟩
      · rintro a seen σ ⟨-, hroom⟩
        refine Discipline.wp_bind (M := fun r _ σ' => r = .ok σ'.vramBudget.headroom ∧ p.allocationSize ≤ σ'.vramBudget.headroom)
          (Discipline.wp_held .look fun σ₁ _ hk ω _ => ⟨rfl, hroom.trans hk.vram⟩) ?_ ?_
        · rintro a seen σ ⟨ha, hroom⟩
          cases ha
          rw [if_pos hroom]
          exact ⟨notBudget_ok _, hroom⟩
        · rintro e seen σ ⟨h, -⟩
          cases h
    · rintro e seen σ ⟨⟨n, h⟩, -⟩
      cases h
  · rintro a seen σ ⟨-, hroom⟩
    refine Discipline.wp_bind (M := fun r _ _ => r = .ok true) (Discipline.wp_held (.vram _) fun σ₁ _ hk ω _ => ?_) ?_ fun e _ _ h => by cases h
    · replace hroom := hroom.trans hk.vram
      have hfit : σ₁.vramBudget.used + p.allocationSize ≤ σ₁.vramBudget.usable := by
        rw [TierBudget.headroom_eq] at hroom
        omega
      obtain ⟨b, hb⟩ := TierBudget.tryReserve_isSome hfit
      unfold vramTryReserve
      rw [hb]
    · rintro a seen σ h
      cases h
      refine Discipline.wp_bind (M := fun r _ _ => NotBudget r) ?_ (fun ptr seen σ _ => ?_) fun e _ _ h => h.cast
      · refine Discipline.wp_andThen (wp_unrefusing (fun t ω σ hω => ?_) (fun x _ _ => notBudget_ok x) fun e seen σ he => ?_)
        · unfold deviceAlloc
          split
          · exact notBudget_error (by simp)
          · have h := hω.device
            revert h
            rcases ω.deviceAlloc with e | ptr
            · exact fun h => notBudget_error (h e rfl)
            · exact fun _ => notBudget_ok _
        · refine Discipline.wp_bind (M := fun r _ _ => NotBudget r) ?_ (fun _ _ _ _ => notBudget_error he) fun e _ _ h => h.cast
          exact wp_unrefusing (fun t ω σ _ => unrefusing_vramRelease t ω σ) (fun _ _ _ => notBudget_ok _) fun e _ _ h => notBudget_error h
      · exact wp_unrefusing (fun t ω σ _ => unrefusing_insertVram t ω σ) (fun _ _ _ => notBudget_ok _) fun e _ _ h => notBudget_error h

/-- A choice of the store that is refused: the tiers were full when it was made. -/
theorem wp_insertNvme {p : PageMetadata} {σc : Shared} (hsane : ∀ σ σ₁, J σ σ₁ → σ₁.Sane cfg) (hn : 0 < p.allocationSize / cfg.pageSize)
    (hc : σc ∈ seen) (hsame : SameRoom σc σ) (hv : σ.vramBudget.headroom < p.allocationSize) (hh : σ.host.headroom < p.allocationSize)
    (hroom : p.allocationSize ≤ σ.nvmeRoom) (hx : X σc) :
    (unhurried cfg J hJ).wp t (.atomic (insertNvme cfg p)) seen σ fun r seen _ => Refused cfg X p.allocationSize r seen := by
  refine Discipline.wp_held (.nvme p) fun σ₁ hj hk ω _ => ?_
  obtain ⟨-, T, hi⟩ := hsane _ _ hj
  by_cases hr : NotBudget (insertNvme cfg p t ω σ₁).1
  · exact .inl hr
  · unfold NotBudget at hr
    push Not at hr
    obtain ⟨e, he, hcode⟩ := hr
    refine .inr ⟨σc, List.mem_cons_of_mem _ hc, hsame.full ⟨hv, hh, fun first hfree => ?_⟩, hx⟩
    exact insertNvme_refused hi hn (hroom.trans hk.nvme) he hcode first (hk.store _ _ hfree)

theorem exists_allocSize (cfg : RuntimeConfig) {bytes : Nat} (hb : bytes ≠ 0) : ∃ n, 0 < n ∧ allocSize cfg bytes = n * cfg.pageSize := by
  refine ⟨(bytes + cfg.pageSize - 1) / cfg.pageSize, Nat.div_pos ?_ cfg.page_pos, rfl⟩
  omega

/-- What `allocate_page` ends in, when nobody takes space between its choice of a tier and the section that takes it. -/
theorem wp_allocate (a : AllocArgs) (hsane : ∀ σ σ₁, J σ σ₁ → σ₁.Sane cfg) (hX : ∀ σ σ₁, J σ σ₁ → X σ → X σ₁)
    (hroom : ∀ σ σ', SameRoom σ σ' → X σ → X σ') (hx : X σ) :
    (unhurried cfg J hJ).wp t (code cfg (.allocate a)) [] σ fun r seen _ => Refused cfg X (allocSize cfg a.logicalBytes) r seen := by
  have hcast : ∀ {α β : Type} {e : Error} {seen : List Shared}, Refused cfg X (allocSize cfg a.logicalBytes) (.error e : Except Error α) seen →
      Refused cfg X (allocSize cfg a.logicalBytes) (.error e : Except Error β) seen := fun h => h.imp_left NotBudget.cast
  refine Discipline.wp_bind (M := fun r seen _ => Refused cfg X (allocSize cfg a.logicalBytes) r seen) ?_
    (fun _ _ _ _ => .inl (notBudget_ok _)) fun _ _ _ h => hcast h
  refine Discipline.wp_bind (M := fun r _ σ' => NotBudget r ∧ X σ') (Discipline.wp_atomic fun σ₁ hj ω _ => ?_) ?_ fun e _ _ h => .inl h.1.cast
  · unfold requireRunning
    split
    · exact ⟨notBudget_error (by simp), hX _ _ hj hx⟩
    · exact ⟨notBudget_ok _, hX _ _ hj hx⟩
  rintro - seen σ ⟨-, hx⟩
  split
  · exact .inl (notBudget_error (by simp))
  rename_i hzero
  split
  · exact .inl (notBudget_error (by simp))
  obtain ⟨n, hn, hsize⟩ := exists_allocSize cfg hzero
  have hpos : 0 < allocSize cfg a.logicalBytes := by
    rw [hsize]
    exact Nat.mul_pos hn cfg.page_pos
  refine Discipline.wp_bind (M := fun r _ σ' => NotBudget r ∧ X σ') (Discipline.wp_atomic fun σ₁ hj ω _ => ?_) ?_ fun e _ _ h => .inl h.1.cast
  · unfold takePageId
    split
    · exact ⟨notBudget_error (by simp), hX _ _ hj hx⟩
    · exact ⟨notBudget_ok _, hroom σ₁ _ ⟨rfl, rfl, rfl, rfl⟩ (hX _ _ hj hx)⟩
  rintro id seen σ ⟨-, hx⟩
  -- the choice
  refine Discipline.wp_bind (M := fun r seen σ' => Chosen σ' (allocSize cfg a.logicalBytes) r ∧ (∃ σc ∈ seen, SameRoom σc σ' ∧ X σc) ∧
      Refused cfg X (allocSize cfg a.logicalBytes) r seen) (Discipline.wp_atomic fun σ₁ hj ω _ => ?_) ?_ fun e _ _ h => hcast h.2.2
  · have hx₁ := hX _ _ hj hx
    have hsame : SameRoom σ₁ { σ₁ with planner := σ₁.budgets } := ⟨rfl, rfl, rfl, rfl⟩
    obtain ⟨hstep, T, hi⟩ := hsane _ _ hj
    have hchosen := chosen_chooseAllocationTier σ₁ hpos
    refine ⟨?_, ⟨σ₁, List.mem_cons_self .., hsame, hx₁⟩, ?_⟩
    · exact chosen_chooseAllocationTier { σ₁ with planner := σ₁.budgets } hpos
    · show Refused cfg X _ (σ₁.budgets.chooseAllocationTier (allocSize cfg a.logicalBytes)) _
      revert hchosen
      generalize σ₁.budgets.chooseAllocationTier (allocSize cfg a.logicalBytes) = r
      rintro (_ | _ | _ | ⟨hv, hh, hn'⟩)
      iterate 3 exact .inl (notBudget_ok _)
      refine .inr ⟨σ₁, List.mem_cons_self .., ⟨hv, hh, ?_⟩, hx₁⟩
      rw [hsize, Nat.mul_div_cancel _ cfg.page_pos]
      exact Shared.Sane.noRun ⟨hstep, T, hi⟩ hsize hn'
  · rintro tier seen σ ⟨hchosen, ⟨σc, hc, hsame, hx⟩, -⟩
    -- the space is taken, and the event is emitted
    have hemit : ∀ seen σ, (unhurried cfg J hJ).wp t (do .atomic emitEvent; pure id : Code PageId) seen σ fun r seen _ =>
        Refused cfg X (allocSize cfg a.logicalBytes) r seen := fun seen σ =>
      Discipline.wp_bind (M := fun r _ _ => NotBudget r) (wp_unrefusing unrefusing_emitEvent (fun _ _ _ => notBudget_ok _)
        fun e _ _ h => notBudget_error h) (fun _ _ _ _ => .inl (notBudget_ok _)) fun e _ _ h => .inl h.cast
    cases hchosen with
    | vram h => exact Discipline.wp_bind (wp_allocVram h hpos) (fun _ seen σ _ => hemit seen σ) fun e _ _ h => .inl h.cast
    | host hv h => exact Discipline.wp_bind (wp_allocHost hpos h) (fun _ seen σ _ => hemit seen σ) fun e _ _ h => .inl h.cast
    | nvme hv hh h =>
      have hn' : 0 < allocSize cfg a.logicalBytes / cfg.pageSize := by
        rw [hsize, Nat.mul_div_cancel _ cfg.page_pos]
        exact hn
      exact Discipline.wp_bind (wp_insertNvme hsane hn' hc hsame hv hh h hx) (fun _ seen σ _ => hemit seen σ) fun e _ _ h => hcast h

end

/-! ## States in which nothing is being released -/

/-- Whoever has taken a released page has recorded it. -/
theorem release_of_owner {id : PageId} : ∀ {h : List Event}, Each EventOk h → phaseIn h id = .released → t ∈ ownersIn h id →
    ∃ owned, .release t id owned ∈ h
  | e :: h, hok, hp, ho => by
    have hcons : (∃ owned, Event.release t id owned ∈ h) → ∃ owned, Event.release t id owned ∈ e :: h :=
      fun ⟨owned, hm⟩ => ⟨owned, List.mem_cons_of_mem _ hm⟩
    have ih : phaseIn h id = .released → t ∈ ownersIn h id → ∃ owned, Event.release t id owned ∈ e :: h :=
      fun hp ho => hcons (release_of_owner hok.2 hp ho)
    cases e with
    | alloc s i n b x =>
      by_cases hi : i = id
      · simp [phaseIn, hi] at hp
      · exact ih (by simpa [phaseIn, hi] using hp) (by simpa [ownersIn, hi] using ho)
    | claim s i =>
      by_cases hi : i = id
      · have hlive : phaseIn h i = .live := hok.1
        have hp' : phaseIn h id = .released := hp
        rw [← hi, hlive] at hp'
        cases hp'
      · exact ih hp (by simpa [ownersIn, hi] using ho)
    | release s i owned =>
      by_cases hi : i = id
      · subst hi
        rw [ownersIn, if_pos rfl, hok.1.2.2, List.mem_singleton] at ho
        exact ⟨owned, ho ▸ List.mem_cons_self ..⟩
      · exact ih (by simpa [phaseIn, hi] using hp) (by simpa [ownersIn, hi] using ho)
    | erase s i =>
      by_cases hi : i = id
      · simp [phaseIn, hi] at hp
      · exact ih (by simpa [phaseIn, hi] using hp) ho
    | settle s i st f =>
      by_cases hi : i = id
      · rw [ownersIn, if_pos hi] at ho
        exact ih hp (List.mem_of_mem_erase ho)
      · exact ih hp (by simpa [ownersIn, hi] using ho)
    | _ => exact ih hp ho

/-- While no call of `free_page` is in progress, no page is being released. -/
theorem not_releasing (hr : Reached cfg disk c) (hfree : ∀ (t : Nat) id p, c.threads[t]? = some ⟨.free id, p⟩ → ∃ r, p = .ret r) :
    ∀ p ∈ c.shared.table.items, ¬p.Releasing := by
  rintro p hp ⟨hst, hfl⟩
  obtain ⟨hs, hacc⟩ := reached_accounted hr
  have hi : Inv cfg c.shared (tagged hs) := hacc.inv
  obtain ⟨⟨t, hd⟩, hx, hm⟩ := hi.owner (Keyed.mem_bag.2 hp) hfl
  obtain ⟨htk, -⟩ := hi.taken hx hm
  have hph : phaseIn c.shared.history p.core.id = .released := by
    rw [htk.record.phase, show p.core.state = .released from hst]
    rfl
  -- the thread was started for `free_page`, has ended, and holds the page
  obtain ⟨owned, hev⟩ := release_of_owner hi.wf.events hph (htk.owners ▸ List.mem_singleton_self t)
  obtain ⟨q, ht⟩ : ∃ q, c.threads[t]? = some ⟨.free p.core.id, q⟩ := free_of_records hr hev fun l hl => by
    cases l <;> simp only [Op.records, Bool.false_eq_true, beq_iff_eq] at hl
    rw [hl]
  obtain ⟨r, rfl⟩ := hfree _ _ _ ht
  obtain ⟨hd', hhd, -, hends⟩ := hacc.ended ht
  cases (mem_tagged.1 hx).symm.trans hhd
  rw [Hold.claim, hends.1] at hm
  exact absurd hm (Multiset.notMem_zero _)

theorem sane_of_reached (hr : Reached cfg disk c) (hfree : ∀ (t : Nat) id p, c.threads[t]? = some ⟨.free id, p⟩ → ∃ r, p = .ret r) :
    c.shared.Sane cfg := by
  obtain ⟨T, hi⟩ := reachable_inv hr
  refine ⟨hi.inStep_iff.2 ?_, T, hi⟩
  rw [zero_add]
  exact hi.paired_rest fun x hx => hi.paired_hold (not_releasing hr hfree) hx

theorem Res.mem_ext_sum {s : Multiset Res} {i : Nat} : i ∈ s.sum.ext → ∃ r ∈ s, i ∈ r.ext := by
  induction s using Multiset.induction with
  | empty => exact fun h => absurd h (Multiset.notMem_zero i)
  | cons r s ih =>
    rw [Multiset.sum_cons]
    intro h
    rcases Multiset.mem_add.1 (show i ∈ r.ext + s.sum.ext from h) with h | h
    · exact ⟨r, Multiset.mem_cons_self r s, h⟩
    · obtain ⟨r', hr', h⟩ := ih h
      exact ⟨r', Multiset.mem_cons_of_mem hr', h⟩

/-- While nothing is being released, every extent in use belongs to a page. -/
theorem Inv.extent_owner (hi : Inv cfg σ T) (hq : ∀ p ∈ σ.table.items, ¬p.Releasing) {i : Nat} (h : i ∈ σ.store.usedBag) :
    ∃ p ∈ σ.table.items, i ∈ p.extents cfg := by
  have hsum : i ∈ ((sharers σ T).map (shareOf cfg)).sum.ext := by
    rw [← hi.sum_sharers]
    exact h
  obtain ⟨r, hr, h⟩ := Res.mem_ext_sum hsum
  obtain ⟨u, hu, rfl⟩ := Multiset.mem_map.1 hr
  rcases Multiset.mem_add.1 hu with hu | hu
  · -- a page that accounts for itself
    obtain ⟨p, hp, rfl⟩ := Multiset.mem_map.1 hu
    have h : i ∈ (if p.inFlight then 0 else p.parts cfg).ext := h
    split_ifs at h
    · exact absurd h (Multiset.notMem_zero i)
    · exact ⟨p, Keyed.mem_bag.1 hp, h⟩
  · -- a thread: of what threads hold, only a transfer has extents
    obtain ⟨⟨s, tok, ids⟩, hx, rfl⟩ := Multiset.mem_map.1 hu
    have hcl : ∀ {m}, m ∈ tok.claim → ∃ p ∈ σ.table.bag, p.inFlight = true ∧ m = p.core := hi.claimed hx
    have h : i ∈ (tok.own cfg).ext + 0 := h
    rw [add_zero] at h
    cases tok with
    | moving m tier stage =>
      obtain ⟨p, hp, -, rfl⟩ := hcl (Multiset.mem_singleton_self m)
      refine ⟨p, Keyed.mem_bag.1 hp, ?_⟩
      cases stage with
      | claimed | copied | refunded => exact h
      | io =>
        have h : i ∈ p.extents cfg + 0 := h
        rwa [add_zero] at h
    | releasing m left =>
      obtain ⟨p, hp, hf, rfl⟩ := hcl (Multiset.mem_singleton_self m)
      exact absurd ⟨(hi.holds _ hx).2.1, hf⟩ (hq p (Keyed.mem_bag.1 hp))
    | _ => exact absurd h (Multiset.notMem_zero i)

/-! ## Concurrent allocations -/

/-- Only calls of `allocate_page` are started, no other call leaves a tier with less room between a call's choice and the
section that takes the space, and the answers are calm. -/
def Unhurried (cfg : RuntimeConfig) (c : Runtime) (m : Move Env Op) : Prop :=
  (∀ l, m = .spawn l → ∃ a, l = .allocate a) ∧ (unhurried cfg (fun _ σ => σ.Sane cfg) fun _ h => h).Follows (code cfg) c m

abbrev UnhurriedRun (cfg : RuntimeConfig) (c c' : Runtime) : Prop := Steps (fun c m => c.move (code cfg) m) (Unhurried cfg) c c'

/-- A moment of the run at which the call of thread `t` was in progress. -/
def During (cfg : RuntimeConfig) (disk : Bytes) (c : Runtime) (t : Nat) (c₁ : Runtime) : Prop :=
  UnhurriedRun cfg ⟨cfg.initial disk, []⟩ c₁ ∧ UnhurriedRun cfg c₁ c ∧ c₁.Running t

theorem only_allocations (h : UnhurriedRun cfg ⟨cfg.initial disk, []⟩ c) :
    ∀ (t : Nat) (l : Op) (p : Code Reply), c.threads[t]? = some ⟨l, p⟩ → ∃ a, l = .allocate a := by
  refine h.invariant (P := fun c => ∀ (t : Nat) (l : Op) (p : Code Reply), c.threads[t]? = some ⟨l, p⟩ → ∃ a, l = .allocate a)
    (fun c m c' ha hm hc => ?_) fun t l p ht => by simp at ht
  refine threads_move (P := fun _ _ l _ => ∃ a, l = Op.allocate a) hm (fun l hl => ha.1 l hl) ?_ (fun _ _ _ _ _ hl => hl) hc
  exact fun _ _ _ _ _ _ _ _ _ _ hl => hl

theorem UnhurriedRun.sane (h : UnhurriedRun cfg ⟨cfg.initial disk, []⟩ c) : c.shared.Sane cfg := by
  refine sane_of_reached (reached_of_steps h) fun t id p ht => ?_
  obtain ⟨a, ha⟩ := only_allocations h t _ p ht
  cases ha

/-- Every call is at a point where it can end only as `wp_allocate` says, and its sections ran at moments of the run. -/
def Followed (cfg : RuntimeConfig) (disk : Bytes) (c : Runtime) : Prop :=
  (unhurried cfg (fun _ σ => σ.Sane cfg) fun _ h => h).Sound (fun _ _ => True)
    (fun c t seen => ∀ σ ∈ seen, ∃ c₁, During cfg disk c t c₁ ∧ c₁.shared = σ)
    (fun l r seen => ∀ a, l = .allocate a → Refused cfg (fun _ => True) (allocSize cfg a.logicalBytes) r seen) c

/-- The run lemma. -/
theorem UnhurriedRun.followed (h : UnhurriedRun cfg ⟨cfg.initial disk, []⟩ c) : Followed cfg disk c := by
  suffices hall : UnhurriedRun cfg ⟨cfg.initial disk, []⟩ c ∧ Followed cfg disk c from hall.2
  refine h.invariant (P := fun c => UnhurriedRun cfg ⟨cfg.initial disk, []⟩ c ∧ Followed cfg disk c)
    (fun c m c' ha hm hc => ⟨hc.1.tail ha hm, ?_⟩) ⟨Steps.refl _, fun t l p ht => by simp at ht⟩
  obtain ⟨hrun, hsound⟩ := hc
  have hrun' : UnhurriedRun cfg ⟨cfg.initial disk, []⟩ c' := hrun.tail ha hm
  have hlater : ∀ t c₁, During cfg disk c t c₁ → During cfg disk c' t c₁ := fun t c₁ hd => ⟨hd.1, hd.2.1.tail ha hm, hd.2.2⟩
  refine Discipline.Sound.move hsound ha.2 hm ?_ hrun.sane (fun _ _ _ _ _ _ _ => hrun'.sane) (fun t seen hs σ hσ => ?_) ?_
  · rintro l rfl -
    obtain ⟨a, rfl⟩ := ha.1 l rfl
    refine ⟨fun σ hσ => (List.not_mem_nil hσ).elim, ?_⟩
    refine Discipline.wp_mono (fun r seen σ hq a' ha' => ?_)
      (wp_allocate (X := fun _ => True) a (fun _ _ h => h) (fun _ _ _ _ => trivial) (fun _ _ _ _ => trivial) trivial)
    cases ha'
    exact hq
  · obtain ⟨c₁, hd, rfl⟩ := hs σ hσ
    exact ⟨c₁, hlater t c₁ hd, rfl⟩
  · rintro t ω seen rfl hs σ hσ
    rcases List.mem_cons.1 hσ with rfl | hσ
    · -- the section that runs now
      obtain ⟨l, β, g, a, k, ht, -, rfl⟩ := move_exec hm
      exact ⟨c, ⟨hrun, (Steps.refl c).tail ha hm, ⟨_, ht, fun r => by simp⟩⟩, rfl⟩
    · obtain ⟨c₁, hd, rfl⟩ := hs σ hσ
      exact ⟨c₁, hlater t c₁ hd, rfl⟩

/-- In a run of allocations none of which finds less room than when it chose its tier, a call is refused only when there was
a moment during it at which no tier could hold the page. -/
theorem allocation_falls_through (h : UnhurriedRun cfg ⟨cfg.initial disk, []⟩ c) {t : Nat} {a : AllocArgs} {e : Error}
    (ht : c.threads[t]? = some ⟨.allocate a, .ret (.error e)⟩) (he : e.code = .budget) :
    ∃ c₁, During cfg disk c t c₁ ∧ c₁.shared.Full cfg (allocSize cfg a.logicalBytes) := by
  obtain ⟨seen, hseen, hw⟩ := h.followed t _ _ ht trivial
  rcases hw a rfl with hno | ⟨σ, hσ, hfull, -⟩
  · exact absurd he (hno e rfl)
  · obtain ⟨c₁, hd, rfl⟩ := hseen σ hσ
    exact ⟨c₁, hd, hfull⟩

/-- The bytes a thread was started to allocate. -/
def Op.asks : Op → Option Nat
  | .allocate a => some a.logicalBytes
  | _ => none

theorem Op.asks_some {l : Op} {n : Nat} (h : l.asks = some n) : ∃ a, l = .allocate a ∧ a.logicalBytes = n := by
  cases l <;> cases h
  exact ⟨_, rfl, rfl⟩

/-- The rooms are equal, and the same extents are in use. -/
def SameSpace (σ σ' : Shared) : Prop :=
  σ'.vramBudget.headroom = σ.vramBudget.headroom ∧ σ'.host.headroom = σ.host.headroom ∧ σ'.nvmeRoom = σ.nvmeRoom ∧
    σ'.store.extentCount = σ.store.extentCount ∧ ∀ i < σ.store.extentCount, σ'.store.used i = σ.store.used i

instance (σ σ' : Shared) : Decidable (SameSpace σ σ') := inferInstanceAs (Decidable (_ ∧ _))

theorem SameSpace.roomier (h : SameSpace σ σ') : Roomier σ σ' := by
  obtain ⟨hv, hh, hn, hc, hu⟩ := h
  refine ⟨hv.ge, hh.ge, hn.ge, fun first n hr => ⟨hc ▸ hr.1, fun i h1 h2 => ?_⟩⟩
  have hin := hr.1
  rw [hu i (by omega)]
  exact hr.2 i h1 h2

/-- Nothing fails; and the section changes no room, or every other call has ended. -/
def Spaced (cfg : RuntimeConfig) (c : Runtime) : Move Env Op → Prop
  | .spawn l => l.asks.isSome
  | .exec s ω => (ω.emit = none ∧ ω.rounds = 1 ∧ ω.deviceAlloc.isOk ∧ ω.pinnedAlloc.isOk) ∧
      ((c.move (code cfg) (.exec s ω)).all (fun c' => decide (SameSpace c.shared c'.shared)) = true ∨
        ∀ t < c.threads.length, t = s ∨ (c.result t).isSome)

instance (cfg : RuntimeConfig) (c : Runtime) (m : Move Env Op) : Decidable (Spaced cfg c m) :=
  match m with
  | .spawn l => inferInstanceAs (Decidable (l.asks.isSome = true))
  | .exec s ω => inferInstanceAs (Decidable ((ω.emit = none ∧ ω.rounds = 1 ∧ ω.deviceAlloc.isOk ∧ ω.pinnedAlloc.isOk) ∧
      ((c.move (code cfg) (.exec s ω)).all (fun c' => decide (SameSpace c.shared c'.shared)) = true ∨
        ∀ t < c.threads.length, t = s ∨ (c.result t).isSome)))

theorem notBudget_of_isOk {r : Except Error α} (h : r.isOk) : NotBudget r := by
  rintro e rfl
  cases h

theorem Spaced.unhurried {m : Move Env Op} (h : Spaced cfg c m) : Unhurried cfg c m := by
  cases m with
  | spawn l =>
    refine ⟨fun l' hl => ?_, trivial⟩
    cases hl
    obtain ⟨n, hn⟩ := Option.isSome_iff_exists.1 h
    obtain ⟨a, rfl, -⟩ := Op.asks_some hn
    exact ⟨a, rfl⟩
  | exec s ω =>
    obtain ⟨⟨hemit, hrounds, hdev, hpin⟩, hspaced⟩ := h
    refine ⟨fun l hl => (by cases hl), ⟨notBudget_of_isOk hdev, notBudget_of_isOk hpin, fun e he => ?_, by omega⟩, fun t th hts ht hheld c' hm => ?_⟩
    · rw [hemit] at he
      cases he
    rcases hspaced with hspace | hended
    · rw [hm] at hspace
      exact (of_decide_eq_true hspace).roomier
    · -- the other thread has ended, so it is at no section
      have hr := (hended t (List.getElem?_eq_some_iff.1 ht).1).resolve_left hts
      obtain ⟨l, p⟩ := th
      unfold Config.result at hr
      rw [ht] at hr
      cases p with
      | ret r => exact hheld.elim
      | step g a k => cases hr

/-- A call is turned away for its argument between the choice of the first page and the section that takes its space, and
the first page is inserted between the choice of the second and the section that takes its space; a fourth call comes last. -/
def fourCalls : List (Move Env Op) :=
  .spawn (.allocate { logicalBytes := 10 }) :: turns 0 3 ++ .spawn (.allocate { logicalBytes := 0 }) :: turns 1 1 ++ turns 0 1 ++
    .spawn (.allocate { logicalBytes := 10 }) :: turns 2 3 ++ turns 0 2 ++ turns 2 2 ++
    .spawn (.allocate { logicalBytes := 10 }) :: turns 3 3

/-- The last call finds host memory and the store full. -/
theorem allocation_falls_through_full : ∃ c c₁, UnhurriedRun (smallConfig 0 1 1) ⟨(smallConfig 0 1 1).initial fun _ => 0, []⟩ c ∧
    c.result 3 = some (.error (PlannerBudgets.noTier c.shared.budgets)) ∧ During (smallConfig 0 1 1) (fun _ => 0) c 3 c₁ ∧
      c₁.shared.Full (smallConfig 0 1 1) (allocSize (smallConfig 0 1 1) 10) := by
  obtain ⟨c, hrun, hres, hlab⟩ := Steps.of_test (fun c m => c.move (code (smallConfig 0 1 1)) m) (Spaced (smallConfig 0 1 1))
    ⟨(smallConfig 0 1 1).initial fun _ => 0, []⟩ fourCalls
    (fun c => c.result 3 = some (.error (PlannerBudgets.noTier c.shared.budgets)) ∧ c.labels[3]?.bind Op.asks = some 10) (by decide +kernel)
  have h : UnhurriedRun (smallConfig 0 1 1) ⟨(smallConfig 0 1 1).initial fun _ => 0, []⟩ c := hrun.mono fun _ _ => Spaced.unhurried
  obtain ⟨l, hl, hasks⟩ := Option.bind_eq_some_iff.1 hlab
  obtain ⟨a, rfl, ha⟩ := Op.asks_some hasks
  obtain ⟨c₁, hd, hfull⟩ := allocation_falls_through h (Config.thread_of_result hres hl) rfl
  exact ⟨c, c₁, h, hres, hd, ha ▸ hfull⟩

/-- Two calls that choose the one host page before either takes it. -/
def twoChoices : List (Move Env Op) :=
  .spawn (.allocate { logicalBytes := 10 }) :: .spawn (.allocate { logicalBytes := 10 }) :: turns 0 3 ++ turns 1 3 ++ turns 0 1 ++ turns 1 1

/-- The second call is refused, though the extent of the store is free all the time. -/
theorem allocation_refused_stale : ∃ c, Config.run (code (smallConfig 0 1 1)) ⟨(smallConfig 0 1 1).initial fun _ => 0, []⟩ twoChoices = some c ∧
    (∀ e ∈ c.shared.history, e.callFailed = false) ∧ c.result 1 = some (.error ⟨.budget, "host budget could not be reserved", "2"⟩) ∧
      ∀ pre, pre <+: twoChoices → ∃ c₁, Config.run (code (smallConfig 0 1 1)) ⟨(smallConfig 0 1 1).initial fun _ => 0, []⟩ pre = some c₁ ∧
        c₁.shared.store.FreeRun 0 1 := by
  obtain ⟨c, hrun, hp⟩ := (Option.any_eq_true (fun c : Runtime => decide ((∀ e ∈ c.shared.history, e.callFailed = false) ∧
      c.result 1 = some (.error ⟨.budget, "host budget could not be reserved", "2"⟩)))
    (Config.run (code (smallConfig 0 1 1)) ⟨(smallConfig 0 1 1).initial fun _ => 0, []⟩ twoChoices)).1 (by decide +kernel)
  refine ⟨c, hrun, (of_decide_eq_true hp).1, (of_decide_eq_true hp).2, fun pre hpre => ?_⟩
  have hall : ∀ k < 11, (Config.run (code (smallConfig 0 1 1)) ⟨(smallConfig 0 1 1).initial fun _ => 0, []⟩ (twoChoices.take k)).any
      (fun c => decide (c.shared.store.extentCount = 1 ∧ c.shared.store.used 0 = false)) = true := by decide +kernel
  have hlen : pre.length < 11 := Nat.lt_succ_of_le hpre.length_le
  obtain ⟨c₁, hc₁, hp₁⟩ := (Option.any_eq_true _ _).1 (hall pre.length hlen)
  rw [← List.prefix_iff_eq_take.1 hpre] at hc₁
  obtain ⟨hcount, hused⟩ := of_decide_eq_true hp₁
  refine ⟨c₁, hc₁, hcount.ge, fun i _ hi => ?_⟩
  obtain rfl : i = 0 := by omega
  exact hused

/-! ## One allocation while nothing else is in progress -/

/-- The checks that `allocate_page` makes before it looks for room. -/
def Shared.Admits (σ : Shared) (a : AllocArgs) : Prop :=
  σ.running = true ∧ σ.stopping = false ∧ a.logicalBytes ≠ 0 ∧ σ.nextPageId ≠ 2 ^ 64 - 1

/-- The planner has no tier for one more page. -/
def Shared.NoTier (cfg : RuntimeConfig) (σ : Shared) : Prop :=
  σ.vramBudget.headroom < cfg.pageSize ∧ σ.host.headroom < cfg.pageSize ∧ σ.nvmeRoom < cfg.pageSize

instance (p : PageMetadata) : Decidable p.InMemory := inferInstanceAs (Decidable (_ ∨ _))

instance (σ : Shared) (a : AllocArgs) : Decidable (σ.Admits a) := inferInstanceAs (Decidable (_ ∧ _))

instance (cfg : RuntimeConfig) (σ : Shared) : Decidable (σ.NoTier cfg) := inferInstanceAs (Decidable (_ ∧ _))

/-- Some page in memory has extents besides. -/
def Shared.Caches (cfg : RuntimeConfig) (σ : Shared) : Prop := ∃ p ∈ σ.table.items, p.InMemory ∧ p.extents cfg ≠ 0

instance (cfg : RuntimeConfig) (σ : Shared) : Decidable (σ.Caches cfg) := inferInstanceAs (Decidable (∃ p ∈ _, _))

/-- Neither memory has room for a page, and every extent is the only place of some page. -/
structure Shared.Exhausted (cfg : RuntimeConfig) (σ : Shared) : Prop where
  device : σ.vramBudget.headroom < cfg.pageSize
  host : σ.host.headroom < cfg.pageSize
  extents : ∀ i < σ.store.extentCount, ∃ p ∈ σ.table.items, i ∈ p.extents cfg ∧ ¬p.InMemory

/-- Only sections run, with calm answers. -/
def Calmly (_ : Runtime) (m : Move Env Op) : Prop := ∃ t ω, m = .exec t ω ∧ ω.Calm

/-- A call of `allocate_page` is started in the first configuration, and the second is reached with no other call. -/
def AllocRun (cfg : RuntimeConfig) (c : Runtime) (a : AllocArgs) (c' : Runtime) : Prop :=
  Steps (fun c m => c.move (code cfg) m) Calmly ⟨c.shared, c.threads ++ [⟨.allocate a, code cfg (.allocate a)⟩]⟩ c'

theorem alone_trans {σ₁ σ₂ σ₃ : Shared} (h : σ₂ = σ₁ ∧ σ₂.Sane cfg) (h' : σ₃ = σ₂ ∧ σ₃.Sane cfg) : σ₃ = σ₁ ∧ σ₃.Sane cfg :=
  ⟨h'.1.trans h.1, h'.2⟩

/-- The call is alone, so the state stays as its last section left it. -/
def alone (cfg : RuntimeConfig) : Discipline Env Shared Error := unhurried cfg (fun σ σ₁ => σ₁ = σ ∧ σ₁.Sane cfg) alone_trans

variable {a : AllocArgs} {c' : Runtime}

theorem wp_unadmitted (h : ¬σ.Admits a) : (alone cfg).wp t (code cfg (.allocate a)) [] σ fun r _ _ => NotBudget r := by
  refine Discipline.wp_bind (M := fun r _ _ => NotBudget r) ?_ (fun _ _ _ _ => notBudget_ok _) fun _ _ _ h => h.cast
  refine Discipline.wp_bind (M := fun r _ σ' => NotBudget r ∧ (r = .ok () → σ.running = true ∧ σ.stopping = false) ∧ σ = σ')
    (Discipline.wp_atomic fun σ₁ hj ω _ => ?_) ?_ fun e _ _ h => h.1.cast
  · obtain ⟨rfl, -⟩ := hj
    unfold requireRunning
    split
    · exact ⟨notBudget_error (by simp), (by simp), rfl⟩
    · rename_i hrun
      exact ⟨notBudget_ok _, fun _ => (by simpa using hrun), rfl⟩
  rintro ⟨⟩ seen _ ⟨-, hrun, rfl⟩
  split
  · exact notBudget_error (by simp)
  rename_i hzero
  split
  · exact notBudget_error (by simp)
  refine Discipline.wp_bind (M := fun r _ _ => ∃ e, r = .error e ∧ e.code ≠ .budget) (Discipline.wp_atomic fun σ₁ hj ω _ => ?_) ?_ ?_
  · -- the id space is what is left to refuse the call
    obtain ⟨rfl, -⟩ := hj
    have hid : σ₁.nextPageId = 2 ^ 64 - 1 := by
      by_contra hid
      exact h ⟨(hrun rfl).1, (hrun rfl).2, hzero, hid⟩
    unfold takePageId
    rw [if_pos (.inr hid)]
    exact ⟨_, rfl, by simp⟩
  · rintro id seen σ ⟨e, h, -⟩
    cases h
  · rintro e seen σ ⟨e', h, he⟩
    cases h
    exact notBudget_error he

/-- The run lemma: only the call moves, and it ends as its rule says. -/
theorem AllocRun.ends (hr : Reached cfg disk c) (hq : c.Quiet) {Q : Except Error Reply → List Shared → Prop}
    (hw : (alone cfg).wp c.threads.length (code cfg (.allocate a)) [] c.shared fun r seen _ => Q r seen) (h : AllocRun cfg c a c')
    {r : Except Error Reply} (ht : c'.threads[c.threads.length]? = some ⟨.allocate a, .ret r⟩) : ∃ seen, Q r seen := by
  have hstart : Reached cfg disk ⟨c.shared, c.threads ++ [⟨.allocate a, code cfg (.allocate a)⟩]⟩ := .move (.spawn (.allocate a)) trivial hr rfl
  suffices hall : Reached cfg disk c' ∧ (∃ p, c'.threads = c.threads ++ [⟨.allocate a, p⟩]) ∧
      (alone cfg).Sound (fun t _ => t = c.threads.length) (fun _ _ _ => True) (fun _ r seen => Q r seen) c' by
    obtain ⟨seen, -, hq⟩ := hall.2.2 _ _ _ ht rfl
    exact ⟨seen, hq⟩
  refine h.invariant (P := fun c' => Reached cfg disk c' ∧ (∃ p, c'.threads = c.threads ++ [⟨.allocate a, p⟩]) ∧
    (alone cfg).Sound (fun t _ => t = c.threads.length) (fun _ _ _ => True) (fun _ r seen => Q r seen) c')
    (fun c₁ m c₂ ha hm hc => ?_) ⟨hstart, ⟨_, rfl⟩, fun t l p ht hn => ?_⟩
  · obtain ⟨hr₁, ⟨p, hths⟩, hsound⟩ := hc
    obtain ⟨t, ω, rfl, hω⟩ := ha
    -- every other thread has ended
    have hended : ∀ (s : Nat) (l : Op) (q : Code Reply), s ≠ c.threads.length → c₁.threads[s]? = some ⟨l, q⟩ → ∃ r, q = .ret r := by
      intro s l q hs ht
      rw [hths] at ht
      have hlt : s < c.threads.length := by
        have := (List.getElem?_eq_some_iff.1 ht).1
        rw [List.length_append, List.length_singleton] at this
        omega
      rw [List.getElem?_append_left hlt] at ht
      exact hq _ (List.mem_of_getElem? ht)
    obtain ⟨l, β, g, act, k, ht, -, hc₂⟩ := move_exec hm
    obtain rfl : t = c.threads.length := by
      by_contra hne
      obtain ⟨r, hr⟩ := hended t _ _ hne ht
      cases hr
    have hsane : c₁.shared.Sane cfg := by
      refine sane_of_reached hr₁ fun s id q hs => hended s _ q ?_ hs
      rintro rfl
      rw [hths, List.getElem?_concat_length] at hs
      cases hs
    refine ⟨.move _ trivial hr₁ hm, ?_, ?_⟩
    · rw [hths, List.getElem?_concat_length] at ht
      cases ht
      refine ⟨k (act c.threads.length ω c₁.shared).1, ?_⟩
      rw [hc₂, hths, List.set_append_right _ _ (Nat.le_refl _), Nat.sub_self, List.set_cons_zero]
    · have hfollows : (alone cfg).Follows (code cfg) c₁ (.exec c.threads.length ω : Move Env Op) := by
        refine ⟨hω, fun s th hs hth hheld => ?_⟩
        obtain ⟨l', q⟩ := th
        obtain ⟨r, rfl⟩ := hended s l' q hs hth
        exact hheld.elim
      refine Discipline.Sound.move hsound hfollows hm (fun l hl => (by cases hl)) ⟨rfl, hsane⟩ ?_ (fun _ _ _ => trivial)
        fun _ _ _ _ _ => trivial
      rintro s ω' s' l' hm' hne rfl
      cases hm'
      exact absurd rfl hne
  · cases hn
    rw [List.getElem?_concat_length] at ht
    cases ht
    exact ⟨[], trivial, hw⟩

theorem allocSize_of_le (h0 : a.logicalBytes ≠ 0) (h : a.logicalBytes ≤ cfg.pageSize) : allocSize cfg a.logicalBytes = cfg.pageSize := by
  have hdiv : (a.logicalBytes + cfg.pageSize - 1) / cfg.pageSize = 1 := by
    refine Nat.div_eq_of_lt_le ?_ ?_ <;> omega
  rw [allocSize, hdiv, Nat.one_mul]

theorem sane_of_quiet (hr : Reached cfg disk c) (hq : c.Quiet) : c.shared.Sane cfg :=
  sane_of_reached hr fun _ _ _ ht => hq _ (List.mem_of_getElem? ht)

/-- The planner counts every extent in use. -/
theorem Inv.nvmeRoom_lt (hi : Inv cfg σ T) (hstep : σ.InStep cfg) (hused : ∀ i < σ.store.extentCount, i ∈ σ.store.usedBag) :
    σ.nvmeRoom < cfg.pageSize := by
  have hle : Multiset.range σ.store.extentCount ≤ σ.store.usedBag :=
    (Multiset.le_iff_subset (Multiset.nodup_range _)).2 fun i hi => hused i (Multiset.mem_range.1 hi)
  have hcard := Multiset.card_le_card hle
  rw [Multiset.card_range, ← hi.wf.store.count, hi.wf.geometry.2] at hcard
  have hmul := Nat.mul_le_mul_right cfg.pageSize hcard
  have hbytes : σ.nvmeBudget.used = σ.store.usedExtents * cfg.pageSize := hstep
  have hpos := cfg.page_pos
  rw [Shared.nvmeRoom, hi.wf.nvmeLimit.1, RuntimeConfig.nvmeLimit, hbytes]
  omega

/-- A call that is refused found the planner without a tier, and all extents in use. -/
theorem AllocRun.refused {e : Error} (hr : Reached cfg disk c) (hq : c.Quiet) (ha : a.logicalBytes ≤ cfg.pageSize) (h : AllocRun cfg c a c')
    (ht : c'.threads[c.threads.length]? = some ⟨.allocate a, .ret (.error e)⟩) (he : e.code = .budget) :
    c.shared.Admits a ∧ c.shared.NoTier cfg ∧ ∀ i < c.shared.store.extentCount, i ∈ c.shared.store.usedBag := by
  have hadm : c.shared.Admits a := by
    by_contra hno
    obtain ⟨-, hnb⟩ := h.ends hr hq (wp_unadmitted hno) ht
    exact hnb e rfl he
  have hw : (alone cfg).wp c.threads.length (code cfg (.allocate a)) [] c.shared fun r seen _ =>
      Refused cfg (SameRoom c.shared) (allocSize cfg a.logicalBytes) r seen := by
    apply wp_allocate (X := SameRoom c.shared) a
    · exact fun _ _ h => h.2
    · rintro σ σ₁ ⟨hσ, -⟩ hx
      rw [hσ]
      exact hx
    · exact fun _ _ h hx => hx.trans h
    · exact SameRoom.refl _
  obtain ⟨seen, hend⟩ := h.ends hr hq hw ht
  rcases hend with hno | ⟨σ, -, hfull, hroom⟩
  · exact absurd he (hno e rfl)
  have hfull := hroom.full hfull
  rw [allocSize_of_le hadm.2.2.1 ha] at hfull
  have hused : ∀ i < c.shared.store.extentCount, i ∈ c.shared.store.usedBag := by
    intro i hi
    by_contra hno
    refine hfull.store i ⟨?_, fun j h1 h2 => ?_⟩
    · rw [Nat.div_self cfg.page_pos]
      exact hi
    · rw [Nat.div_self cfg.page_pos] at h2
      obtain rfl : j = i := by omega
      rw [Extents.mem_usedBag] at hno
      simpa [hi] using hno
  refine ⟨hadm, ⟨hfull.device, hfull.host, ?_⟩, hused⟩
  obtain ⟨hstep, T, hi⟩ := sane_of_quiet hr hq
  exact hi.nvmeRoom_lt hstep hused

theorem env_calm : Env.Calm {} := ⟨notBudget_ok _, notBudget_ok _, fun e h => (by cases h), by decide⟩

/-- A call that finds the planner without a tier is refused. -/
theorem allocRun_refused (hr : Reached cfg disk c) (ha : a.logicalBytes ≤ cfg.pageSize) (hadm : c.shared.Admits a)
    (hno : c.shared.NoTier cfg) :
    ∃ c', AllocRun cfg c a c' ∧ c'.threads[c.threads.length]? = some ⟨.allocate a, .ret (.error c.shared.budgets.noTier)⟩ := by
  obtain ⟨hrun, hstop, hzero, hid⟩ := hadm
  obtain ⟨T, hi⟩ := reachable_inv hr
  set t := c.threads.length
  have h₁ : requireRunning t {} c.shared = (.ok (), c.shared) := by simp [requireRunning, hrun, hstop]
  have h₂ : takePageId t {} c.shared = (.ok c.shared.nextPageId, c.shared.issueId) := by
    unfold takePageId
    rw [if_neg]
    rintro (h | h)
    · have hpos : 1 ≤ c.shared.nextPageId := Nat.le_trans cfg.first_ok.1 (hi.wf.next.1 ▸ hi.wf.next.2.1)
      exact absurd h (Nat.pos_iff_ne_zero.1 hpos)
    · exact hid h
  have h₃ : (chooseTier cfg.pageSize t {} c.shared.issueId).1 = .error c.shared.budgets.noTier := by
    have hchosen := chosen_chooseAllocationTier c.shared.issueId cfg.page_pos
    show c.shared.issueId.budgets.chooseAllocationTier cfg.pageSize = .error c.shared.issueId.budgets.noTier
    revert hchosen
    generalize c.shared.issueId.budgets.chooseAllocationTier cfg.pageSize = r
    obtain ⟨hv, hh, hn⟩ := hno
    rintro (h | ⟨-, h⟩ | ⟨-, -, h⟩ | -)
    · exact absurd h (Nat.not_le.2 hv)
    · exact absurd h (Nat.not_le.2 hh)
    · exact absurd h (Nat.not_le.2 hn)
    · rfl
  have halone : (code cfg (.allocate a)).Alone Env.Calm t c.shared (.error c.shared.budgets.noTier)
      (chooseTier cfg.pageSize t {} c.shared.issueId).2 := by
    refine .bind_error (.bind (.atomic {} env_calm h₁) ?_)
    have hfit : ¬2 ^ 64 - 1 - (cfg.pageSize - 1) < a.logicalBytes := by
      have hpage : cfg.pageSize < 2 ^ 63 := lt_of_le_of_lt (Nat.le_mul_of_pos_left _ (Nat.succ_pos _)) cfg.store_lt
      omega
    rw [if_neg hzero, if_neg hfit]
    refine .bind (.atomic {} env_calm h₂) (.bind_error (.atomic {} env_calm ?_))
    show chooseTier (allocSize cfg a.logicalBytes) t {} c.shared.issueId = _
    rw [allocSize_of_le hzero ha, ← h₃]
  exact ⟨_, halone.steps fun c ω hω => ⟨t, ω, rfl, hω⟩, List.getElem?_concat_length⟩

/-- A call for one page, made while nothing else is in progress, is refused only when no page can be placed and every extent
is the only place of some page. That is so exactly when the planner, which looks at the bytes of the store's budget, has
a tier or no page in memory has extents besides. -/
theorem allocation_refused_iff (hr : Reached cfg disk c) (hq : c.Quiet) (a : AllocArgs) (ha : a.logicalBytes ≤ cfg.pageSize) :
    (∀ c' e, AllocRun cfg c a c' → c'.threads[c.threads.length]? = some ⟨.allocate a, .ret (.error e)⟩ → e.code = .budget →
      c.shared.Exhausted cfg) ↔
    (c.shared.Admits a → c.shared.NoTier cfg → ¬c.shared.Caches cfg) := by
  have hrel := not_releasing hr fun _ _ _ ht => hq _ (List.mem_of_getElem? ht)
  obtain ⟨T, hi⟩ := reachable_inv hr
  constructor
  · rintro h hadm hno ⟨p, hp, hmem, hext⟩
    obtain ⟨c', hrun, ht⟩ := allocRun_refused hr ha hadm hno
    obtain ⟨i, hpi⟩ := Multiset.exists_mem_of_ne_zero hext
    -- the extent of the page in memory would belong to a second page
    have hlt : i < c.shared.store.extentCount :=
      (Extents.mem_usedBag.1 ((hi.covered (Keyed.mem_bag.2 hp) (hrel p hp)).ext i hpi)).1
    obtain ⟨q, hq, hqi, hqm⟩ := (h c' _ hrun ht rfl).extents i hlt
    have hne : p.id ≠ q.id := fun hid => hqm (Keyed.eq_of_key hp hq hid ▸ hmem)
    exact (hi.apart_pages (Keyed.mem_bag.2 hp) (Keyed.mem_bag.2 hq) hne (hrel p hp) (hrel q hq)).extents i hpi hqi
  · intro h c' e hrun ht he
    obtain ⟨hadm, hno, hused⟩ := hrun.refused hr hq ha ht he
    refine ⟨hno.1, hno.2.1, fun i hlt => ?_⟩
    obtain ⟨p, hp, hpi⟩ := hi.extent_owner hrel (hused i hlt)
    refine ⟨p, hp, hpi, fun hmem => h hadm hno ⟨p, hp, hmem, ?_⟩⟩
    exact fun hz => absurd (hz ▸ hpi) (Multiset.notMem_zero i)

/-- Two pages fill host memory and the store. -/
def hostAndStore : List (Move Env Op) :=
  .spawn (.allocate { logicalBytes := 10 }) :: turns 0 6 ++ .spawn (.allocate { logicalBytes := 10 }) :: turns 1 5

/-- A third page is refused, and nothing could be taken away for it. -/
theorem allocation_refused_iff_two : ∃ c, Reached (smallConfig 0 1 1) (fun _ => 0) c ∧ c.Quiet ∧ c.shared.Admits { logicalBytes := 10 } ∧
    c.shared.NoTier (smallConfig 0 1 1) ∧
    ∀ c' e, AllocRun (smallConfig 0 1 1) c { logicalBytes := 10 } c' →
      c'.threads[c.threads.length]? = some ⟨.allocate { logicalBytes := 10 }, .ret (.error e)⟩ → e.code = .budget →
      c.shared.Exhausted (smallConfig 0 1 1) := by
  obtain ⟨c, hr, hq, hadm, hno, hcaches⟩ := reached_of_test (smallConfig 0 1 1) (fun _ => 0) hostAndStore
    (fun c => c.Quiet ∧ c.shared.Admits { logicalBytes := 10 } ∧ c.shared.NoTier (smallConfig 0 1 1) ∧
      ¬c.shared.Caches (smallConfig 0 1 1)) (by decide +kernel)
  exact ⟨c, hr, hq, hadm, hno, (allocation_refused_iff hr hq { logicalBytes := 10 } (by decide)).2 fun _ _ => hcaches⟩

/-- The store's only extent is a cached copy of the page in host memory, and a second page is refused. -/
theorem allocation_refused_cached : ∃ c c', Reached (smallConfig 0 1 1) (fun _ => 0) c ∧ c.Quiet ∧
    AllocRun (smallConfig 0 1 1) c { logicalBytes := 10 } c' ∧
    c'.threads[c.threads.length]? = some ⟨.allocate { logicalBytes := 10 }, .ret (.error c.shared.budgets.noTier)⟩ ∧
      ¬c.shared.Exhausted (smallConfig 0 1 1) := by
  obtain ⟨c, hr, hq, hadm, hno, hcount, hmem⟩ := reached_of_test (smallConfig 0 1 1) (fun _ => 0) (cachedInHost ++ turns 2 1)
    (fun c => c.Quiet ∧ c.shared.Admits { logicalBytes := 10 } ∧ c.shared.NoTier (smallConfig 0 1 1) ∧
      c.shared.store.extentCount = 1 ∧ ∀ p ∈ c.shared.table.items, p.InMemory) (by decide +kernel)
  obtain ⟨c', hrun, ht⟩ := allocRun_refused (a := { logicalBytes := 10 }) hr (by decide) hadm hno
  refine ⟨c, c', hr, hq, hrun, ht, fun hex => ?_⟩
  obtain ⟨p, hp, -, hpm⟩ := hex.extents 0 (by omega)
  exact hpm (hmem p hp)

end FlashTier
