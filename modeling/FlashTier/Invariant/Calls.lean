/-
The calls of the critical sections under the invariant: with what a call needs in hand, it ends as
the source intends, none of its guards throws and no counter wraps. Each lemma gives the state the
call leaves.
-/
import FlashTier.Invariant.Changes
import FlashTier.Runtime.Transfer

namespace FlashTier

open Conc

variable {cfg : RuntimeConfig} {σ σ' : Shared} {A : Option PageId} {w : Res} {T : Multiset (Nat × Hold)}
  {t : Nat} {ω : Env} {id : PageId} {p : PageMetadata}

/-! ## The table -/

theorem lookup_setPage (σ : Shared) (p : PageMetadata) : (σ.setPage p).table.lookup p.id = some p :=
  Keyed.lookup_put_self _ _

theorem setPage_setPage (σ : Shared) {p q : PageMetadata} (h : p.id = q.id) : (σ.setPage p).setPage q = σ.setPage q := by
  unfold Shared.setPage
  rw [Keyed.put_put _ h]

theorem id_of_lookup (hl : σ.table.lookup id = some p) : p.id = id := (Keyed.lookup_some.1 hl).2

theorem copyOf_some (hl : σ.table.lookup id = some p) : copyOf id t ω σ = (.ok p, σ) := by
  simp only [copyOf, hl]

theorem copyOf_none (hl : σ.table.lookup id = none) : copyOf id t ω σ = (.error (notFound id), σ) := by
  simp only [copyOf, hl]

theorem withPage_some (hl : σ.table.lookup id = some p) (f : PageMetadata → PageMetadata) :
    withPage id f t ω σ = (.ok (), σ.setPage (f p)) := by
  simp only [withPage, hl]

theorem transition_some {dst : PageState} (hl : σ.table.lookup id = some p) (ha : transitionAllowed p.state dst = true)
    (hd : p.dropUnsafe dst = false) : transition id dst t ω σ = (.ok (), σ.setPage (p.enter dst)) := by
  simp only [transition, hl, PageMetadata.transition_ok ha hd]

/-- Assignments to fields, then a transition that is allowed. -/
theorem run_enter {α : Type} {f : PageMetadata → PageMetadata} {dst : PageState} {k : Unit → Sec α}
    (hl : σ.table.lookup id = some p) (hid : (f p).id = p.id) (ha : transitionAllowed (f p).state dst = true)
    (hd : (f p).dropUnsafe dst = false) :
    (withPage id f >>= fun _ => transition id dst >>= k) t ω σ = k () t ω (σ.setPage ((f p).enter dst)) := by
  have hl' : (σ.setPage (f p)).table.lookup id = some (f p) := by
    rw [← id_of_lookup hl, ← hid]
    exact lookup_setPage _ _
  have hset : (σ.setPage (f p)).setPage ((f p).enter dst) = σ.setPage ((f p).enter dst) := setPage_setPage σ rfl
  rw [Act.bind_ok (withPage_some hl f), Act.bind_ok (transition_some hl' ha hd), hset]

theorem insertPage_none (hl : σ.table.lookup p.id = none) : insertPage p t ω σ = (.ok (), σ.setPage p) := by
  simp only [insertPage, hl]

theorem recordSettle_some (hl : σ.table.lookup id = some p) :
    recordSettle id t ω σ = (.ok (), σ.log (.settle t id p.state p.inFlight)) := by
  simp only [recordSettle, hl]

/-! ## Budgets -/

theorem noteWrap_of_not (σ : Shared) (t : Nat) {c : Prop} [Decidable c] (h : ¬c) : σ.noteWrap t (decide c) = σ := by
  unfold Shared.noteWrap
  rw [if_neg (by simpa using h)]

theorem Open.vramTryReserve (h : Open cfg σ A w T) (n t : Nat) (ω : Env) :
    FlashTier.vramTryReserve n t ω σ = (.ok false, σ) ∨
    ∃ b, FlashTier.vramTryReserve n t ω σ = (.ok true, σ.setVram b) ∧ Open cfg (σ.setVram b) A (w + Res.vramOf n) T := by
  unfold FlashTier.vramTryReserve
  rcases hb : σ.vramBudget.tryReserve n with _ | b
  · exact .inl rfl
  · obtain ⟨h1, -, -, h4⟩ := TierBudget.tryReserve_some h.wf.vram hb
    have hlt : b.used < 2 ^ 64 := lt_of_le_of_lt (le_trans h4.used (Nat.sub_le _ _)) h4.small
    refine .inr ⟨b, ?_, h.reserveVram hb⟩
    simp only
    rw [noteWrap_of_not _ _ (by omega)]

theorem Open.vramRelease {n : Nat} (h : Open cfg σ A (w + Res.vramOf n) T) (t : Nat) (ω : Env) :
    ∃ b, FlashTier.vramRelease n t ω σ = (.ok (), σ.setVram b) ∧ Open cfg (σ.setVram b) A w T := by
  obtain ⟨b, hb, ho⟩ := h.releaseVram
  exact ⟨b, by simp only [FlashTier.vramRelease, hb], ho⟩

theorem Open.nvmeTryReserve (h : Open cfg σ A w T) (n t : Nat) (ω : Env) :
    FlashTier.nvmeTryReserve n t ω σ = (.ok false, σ) ∨
    ∃ b, FlashTier.nvmeTryReserve n t ω σ = (.ok true, σ.setNvme b) ∧ Open cfg (σ.setNvme b) A (w + Res.nvmeOf n) T := by
  unfold FlashTier.nvmeTryReserve
  rcases hb : σ.nvmeBudget.tryReserve n with _ | b
  · exact .inl rfl
  · obtain ⟨h1, -, -, h4⟩ := TierBudget.tryReserve_some h.wf.nvme hb
    have hlt : b.used < 2 ^ 64 := lt_of_le_of_lt (le_trans h4.used (Nat.sub_le _ _)) h4.small
    refine .inr ⟨b, ?_, h.reserveNvme hb⟩
    simp only
    rw [noteWrap_of_not _ _ (by omega)]

theorem Open.nvmeRelease {n : Nat} (h : Open cfg σ A (w + Res.nvmeOf n) T) (t : Nat) (ω : Env) :
    ∃ b, FlashTier.nvmeRelease n t ω σ = (.ok (), σ.setNvme b) ∧ Open cfg (σ.setNvme b) A w T := by
  obtain ⟨b, hb, ho⟩ := h.releaseNvme
  exact ⟨b, by simp only [FlashTier.nvmeRelease, hb], ho⟩

/-- Bytes of the device budget are only ever reserved with a device. -/
theorem Open.device (h : Open cfg σ A w T) (hw : 0 < w.vram) : cfg.device = true := by
  by_contra hd
  have h0 := cfg.cpu_only (by simpa using hd)
  have hu : σ.vramBudget.used = w.vram + (rest cfg σ A T).vram := congrArg Res.vram h.acc
  have hle := h.wf.vram.used
  unfold TierBudget.usable at hle
  rw [h.wf.vramLimit.1, h0] at hle
  omega

/-! ## Buffers -/

/-- The tier of a host buffer as `allocation_tier` gives it. -/
def HostAllocation.tier (a : HostAllocation) : Tier := if a.pinned then .hostPinned else .hostPageable

theorem Open.hostAllocate (h : Open cfg σ A w T) (n : Nat) (pageable : Bool) (t : Nat) (ω : Env) :
    (∃ e, FlashTier.hostAllocate n pageable t ω σ = (.error e, σ)) ∨
    FlashTier.hostAllocate n pageable t ω σ = (.ok none, σ) ∨
    (∃ e, FlashTier.hostAllocate n pageable t ω σ = (.error e, σ.log (.failed t .hostAlloc))) ∨
    ∃ a b, FlashTier.hostAllocate n pageable t ω σ = (.ok (some a.ptr), σ.putHost a b) ∧ a.bytes = n ∧
      (σ.putHost a b).host.allocationTier a.ptr = some a.tier ∧
      Open cfg (σ.putHost a b) A (w + Res.hostBuf a.ptr n) T := by
  unfold FlashTier.hostAllocate
  by_cases h0 : n = 0
  · rw [if_pos h0]; exact .inl ⟨_, rfl⟩
  rw [if_neg h0]
  by_cases hroom : σ.host.limit < n ∨ σ.host.limit - n < σ.host.used
  · rw [if_pos hroom]; exact .inr (.inl rfl)
  rw [if_neg hroom]
  by_cases hp : (!pageable && !σ.host.pinnedAvailable) = true
  · rw [if_pos hp]; exact .inl ⟨_, rfl⟩
  rw [if_neg hp]
  rcases ha : ω.hostAlloc (!pageable && σ.host.pinnedAvailable) with e | ptr
  · exact .inr (.inr (.inl ⟨e, by simp only [ha]⟩))
  · push Not at hroom
    have hfit : σ.host.used + n ≤ σ.host.limit := by omega
    have hlt : ¬2 ^ 64 ≤ σ.host.used + n := by have := h.wf.host.1; have := cfg.host_lt; omega
    refine .inr (.inr (.inr ⟨⟨Shared.freshPtr σ.hostLive ptr, n, !pageable && σ.host.pinnedAvailable⟩, ω.scratch, ?_, rfl, ?_,
      h.putHost (Shared.freshPtr_not_mem _ _) hfit _⟩))
    · simp only [ha]
      rw [noteWrap_of_not _ _ hlt]
    · show ((σ.host.allocations.put _).lookup _).map _ = _
      rw [Keyed.lookup_put_self]
      rfl

theorem Open.hostFree {ptr n : Nat} (h : Open cfg σ A (w + Res.hostBuf ptr n) T) (t : Nat) (ω : Env) :
    (∃ e, FlashTier.hostFree ptr n t ω σ = (.error e, σ.log (.failed t .hostFree)) ∧
      Open cfg (σ.log (.failed t .hostFree)) A (w + Res.hostBuf ptr n) T) ∨
    ∃ a, FlashTier.hostFree ptr n t ω σ = (.ok (), σ.dropHost a) ∧ Open cfg (σ.dropHost a) A w T := by
  obtain ⟨a, hl, rfl, rfl⟩ := h.lookupHost (show (ptr, n) ∈ _ by simp [Res.hostBuf])
  obtain ⟨hle, ho⟩ := h.dropHost hl
  unfold FlashTier.hostFree
  rw [hl]
  simp only [ne_eq, not_true_eq_false, if_false]
  rcases hf : (if a.pinned then ω.pinnedFree else none) with _ | e
  · refine .inr ⟨a, ?_, ho⟩
    simp only
    rw [noteWrap_of_not _ _ (by omega)]
  · exact .inl ⟨e, rfl, h.logNone rfl rfl⟩

theorem Open.deviceAlloc (h : Open cfg σ A w T) (n t : Nat) (ω : Env) :
    (∃ e, FlashTier.deviceAlloc cfg n t ω σ = (.error e, σ)) ∨
    (∃ e, FlashTier.deviceAlloc cfg n t ω σ = (.error e, σ.log (.failed t .deviceAlloc))) ∨
    ∃ ptr b, FlashTier.deviceAlloc cfg n t ω σ = (.ok ptr, σ.putDev ⟨ptr, n⟩ b) ∧
      Open cfg (σ.putDev ⟨ptr, n⟩ b) A (w + Res.devBuf ptr n) T := by
  unfold FlashTier.deviceAlloc
  by_cases hd : (!cfg.device) = true
  · rw [if_pos hd]; exact .inl ⟨_, rfl⟩
  rw [if_neg hd]
  rcases ω.deviceAlloc with e | ptr
  · exact .inr (.inl ⟨e, rfl⟩)
  · exact .inr (.inr ⟨_, _, rfl, h.putDev (Shared.freshPtr_not_mem _ _) _⟩)

theorem Open.deviceFree {ptr n : Nat} (h : Open cfg σ A (w + Res.devBuf ptr n) T) (hd : cfg.device = true) (t : Nat)
    (ω : Env) :
    (∃ e, FlashTier.deviceFree cfg (some ptr) t ω σ = (.error e, σ.log (.failed t .deviceFree)) ∧
      Open cfg (σ.log (.failed t .deviceFree)) A (w + Res.devBuf ptr n) T) ∨
    (FlashTier.deviceFree cfg (some ptr) t ω σ = (.ok (), σ.dropDev ptr) ∧ Open cfg (σ.dropDev ptr) A w T) := by
  unfold FlashTier.deviceFree
  simp only [hd, Bool.not_true, Bool.false_eq_true, if_false]
  rcases ω.deviceFree with _ | e
  · exact .inr ⟨rfl, h.dropDev⟩
  · exact .inl ⟨e, rfl, h.logNone rfl rfl⟩

/-! ## Extents -/

theorem Open.allocateExtents {n : Nat} (h : Open cfg σ A w T) (hn : 0 < n) (t : Nat) (ω : Env) :
    FlashTier.allocateExtents n t ω σ = (.ok none, σ) ∨
    ∃ first s, FlashTier.allocateExtents n t ω σ = (.ok (some ((first + 1) * cfg.pageSize)), σ.setStore s) ∧
      Open cfg (σ.setStore s) A (w + Res.extOf (Extents.range first n)) T := by
  unfold FlashTier.allocateExtents
  rcases Extents.allocateExtents_spec h.wf.store hn with hs | ⟨first, s, hs, ht⟩
  · rw [hs]; exact .inl rfl
  · refine .inr ⟨first, s, ?_, h.takeExtents ht⟩
    have hle : s.usedExtents = σ.store.usedExtents + n := by
      rw [ht.ok.count, ht.bag, Multiset.card_add, Extents.card_range, ← h.wf.store.count, Nat.add_comm]
    have hlt : ¬2 ^ 64 ≤ σ.store.usedExtents + n := by
      have h1 := Extents.card_usedBag_le s
      have h2 := ht.ok.count_lt
      rw [← ht.ok.count] at h1
      omega
    rw [hs, h.wf.geometry.1]
    simp only
    rw [noteWrap_of_not _ _ hlt]

theorem Open.freeExtents_run {first n : Nat} (h : Open cfg σ A (w + Res.extOf (Extents.range first n)) T) (hn : 0 < n)
    (hio : w.io = 0) (t : Nat) (ω : Env) :
    ∃ s, FlashTier.freeExtents ((first + 1) * cfg.pageSize) n t ω σ = (.ok (), σ.setStore s) ∧
      Open cfg (σ.setStore s) A w T := by
  obtain ⟨s, hs, hle, ho⟩ := h.freeExtents hn hio
  refine ⟨s, ?_, ho⟩
  simp only [FlashTier.freeExtents, hs]
  rw [noteWrap_of_not _ _ (by omega)]

end FlashTier
