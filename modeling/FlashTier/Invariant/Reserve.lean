/-
Reserving store extents: `reserve_nvme_range_locked` takes a range from the free list, or takes away the
cached extents of pages in memory until one is free. It never throws; the pages it touches keep their
content and lose only their cached copy.
-/
import FlashTier.Invariant.Pages

namespace FlashTier

open Conc

variable {cfg : RuntimeConfig} {σ σ' : Shared} {w : Res} {T : Multiset (Nat × Hold)} {id exclude : PageId}
  {p : PageMetadata}

/-- The page without its extent. -/
def PageMetadata.uncached (p : PageMetadata) : PageMetadata := { p with nvmeOffset := none, hasNvmeCopy := false }

/-- From `σ` to `σ'`, extents are taken and given back, and pages in memory lose their cached extent. -/
structure Trimmed (exclude : PageId) (σ σ' : Shared) : Prop where
  same : σ' = { σ with table := σ'.table, store := σ'.store, nvmeBudget := σ'.nvmeBudget }
  pages : ∀ id, σ'.table.lookup id = σ.table.lookup id ∨
    ∃ p, σ.table.lookup id = some p ∧ Reclaimable exclude p = true ∧ σ'.table.lookup id = some p.uncached

theorem Trimmed.of_table (hs : σ' = { σ with store := σ'.store, nvmeBudget := σ'.nvmeBudget }) :
    Trimmed exclude σ σ' := by
  have ht : σ'.table = σ.table := by rw [hs]
  refine ⟨?_, fun id => .inl (by rw [ht])⟩
  rw [ht]
  exact hs

theorem not_reclaimable_uncached (p : PageMetadata) : Reclaimable exclude p.uncached = false := by
  simp [Reclaimable, PageMetadata.uncached]

theorem Trimmed.trans {σ'' : Shared} (h : Trimmed exclude σ σ') (h' : Trimmed exclude σ' σ'') :
    Trimmed exclude σ σ'' := by
  refine ⟨?_, fun id => ?_⟩
  · have h1 := h.same
    have h2 := h'.same
    rw [h1] at h2
    exact h2
  · rcases h'.pages id with h2 | ⟨q, hq, hr, h2⟩
    · rw [h2]; exact h.pages id
    · rcases h.pages id with h1 | ⟨p, hp, hr', h1⟩
      · exact .inr ⟨q, by rw [← h1]; exact hq, hr, h2⟩
      · rw [h1] at hq
        cases hq
        rw [not_reclaimable_uncached] at hr
        cases hr

theorem Trimmed.history (h : Trimmed exclude σ σ') : σ'.history = σ.history := by rw [h.same]

theorem Trimmed.lookup_self (h : Trimmed exclude σ σ') : σ'.table.lookup exclude = σ.table.lookup exclude := by
  rcases h.pages exclude with h1 | ⟨p, hp, hr, -⟩
  · exact h1
  · simp [Reclaimable, id_of_lookup hp] at hr

/-! ## One attempt -/

/-- What one attempt leaves: a range in hand, with its bytes of the budget, or nothing. -/
def Attempted (cfg : RuntimeConfig) (σ : Shared) (w : Res) (T : Multiset (Nat × Hold)) (n bytes : Nat) (r : Option Nat) : Prop :=
  (r = none ∧ Open cfg σ none w T) ∨
    ∃ first, r = some ((first + 1) * cfg.pageSize) ∧
      Open cfg σ none (w + Res.extOf (Extents.range first n) + Res.nvmeOf bytes) T

theorem Open.tryReserveRange {n : Nat} (h : Open cfg σ none w T) (hn : 0 < n) (hio : w.io = 0) (bytes : Nat)
    (exclude : PageId) (t : Nat) (ω : Env) :
    ∃ r σ', FlashTier.tryReserveRange n bytes t ω σ = (.ok r, σ') ∧ σ'.table = σ.table ∧ Trimmed exclude σ σ' ∧
      Attempted cfg σ' w T n bytes r := by
  unfold FlashTier.tryReserveRange
  rcases h.allocateExtents hn t ω with ha | ⟨first, s, ha, ho⟩
  · exact ⟨none, σ, by rw [Act.bind_ok ha]; rfl, rfl, Trimmed.of_table rfl, .inl ⟨rfl, h⟩⟩
  rcases ho.nvmeTryReserve bytes t ω with hb | ⟨b, hb, ho'⟩
  · -- the budget refuses what the store gave
    obtain ⟨s', hf, ho'⟩ := ho.freeExtents_run hn hio t ω
    refine ⟨none, (σ.setStore s).setStore s', ?_, rfl, Trimmed.of_table rfl, .inl ⟨rfl, ho'⟩⟩
    rw [Act.bind_ok ha]
    simp only
    rw [Act.bind_ok hb, if_neg (by simp), Act.bind_ok hf]
    rfl
  · refine ⟨some ((first + 1) * cfg.pageSize), (σ.setStore s).setNvme b, ?_, rfl, Trimmed.of_table rfl,
      .inr ⟨first, rfl, ho'⟩⟩
    rw [Act.bind_ok ha]
    simp only
    rw [Act.bind_ok hb, if_pos rfl]
    rfl

/-! ## Taking a cached extent away -/

theorem PageOk.uncached (hp : PageOk cfg σ p) (hst : p.state = .residentVram ∨ p.state = .residentHost) :
    PageOk cfg σ p.uncached := by
  have hr := hp.record
  have hcont : ∀ c, σ.content p.uncached = some c → σ.content p = some c := by
    intro c hc
    rcases hst with hst | hst <;> simpa [Shared.content, PageMetadata.uncached, hst] using hc
  refine ⟨hr.edit (SameData.refl _ _) rfl rfl rfl rfl (by simp [PageMetadata.uncached]) ?_ (by simp [PageMetadata.uncached])
    (by simp [PageMetadata.uncached]) fun _ c hc => ⟨hcont c hc, by simp [PageMetadata.uncached]⟩, hp.rest, hp.owners, hp.tier,
    fun h => ?_⟩
  · have := hr.form.shape
    rcases hst with hst | hst <;> simpa [PageMetadata.Shape, PageMetadata.uncached, hst] using this
  · rcases hst with hst | hst <;> exact absurd (hst.symm.trans h) (by decide)

/-- From `σ` to `σ'`, a page in memory loses its cached extent, and the store gets the extents and their
bytes back. -/
structure Reclaimed (cfg : RuntimeConfig) (exclude : PageId) (p : PageMetadata) (σ σ' : Shared) : Prop where
  was : σ.table.lookup p.id = some p
  could : Reclaimable exclude p = true
  same : σ' = { σ with table := σ.table.put p.uncached, store := σ'.store, nvmeBudget := σ'.nvmeBudget }
  ledger : σ.ledger = σ'.ledger + (Res.nvmeOf p.allocationSize + Res.extOf (p.extents cfg))

theorem Reclaimed.lookup_ne (h : Reclaimed cfg exclude p σ σ') (hne : p.id ≠ id) : σ'.table.lookup id = σ.table.lookup id := by
  rw [h.same]
  exact Keyed.lookup_put_ne _ hne

theorem Reclaimed.lookup_self (h : Reclaimed cfg exclude p σ σ') : σ'.table.lookup p.id = some p.uncached := by
  rw [h.same]
  exact Keyed.lookup_put_self _ p.uncached

theorem Reclaimed.trimmed (h : Reclaimed cfg exclude p σ σ') : Trimmed exclude σ σ' := by
  refine ⟨?_, fun id => ?_⟩
  · have hs := h.same
    rw [hs]
  · by_cases he : p.id = id
    · subst he
      exact .inr ⟨p, h.was, h.could, h.lookup_self⟩
    · exact .inl (h.lookup_ne he)

theorem Open.reclaim {offset : Nat} (h : Open cfg σ none w T) (hl : σ.table.lookup id = some p)
    (hr : Reclaimable exclude p = true) (ho : p.nvmeOffset = some offset) (hio : w.io = 0) (t : Nat) (ω : Env) :
    ∃ σ', FlashTier.reclaim cfg offset id t ω σ = (.ok (), σ') ∧ Open cfg σ' none w T ∧ Reclaimed cfg exclude p σ σ' := by
  obtain rfl := id_of_lookup hl
  have hcould := hr
  simp only [Reclaimable, Bool.and_eq_true, Bool.or_eq_true, bne_iff_ne, beq_iff_eq, Bool.not_eq_true'] at hr
  obtain ⟨⟨⟨-, hf⟩, -⟩, hst⟩ := hr
  obtain ⟨hop, hok, hpin⟩ := h.openPage hl hf
  obtain ⟨first, rfl⟩ := hok.record.form.offset _ ho
  obtain ⟨n, hn, hsize, hext⟩ := hok.record.form.extents ho
  have hdiv : p.allocationSize / cfg.pageSize = n := by rw [hsize, Nat.mul_div_cancel _ cfg.page_pos]
  have hparts : p.parts cfg = p.uncached.parts cfg + Res.nvmeOf p.allocationSize + Res.extOf (Extents.range first n) :=
    parts_nvme (p := p.uncached) rfl rfl rfl rfl ho hsize
  have hacc := hop.acc
  have hw : w + p.parts cfg = w + p.uncached.parts cfg + Res.nvmeOf p.allocationSize + Res.extOf (Extents.range first n) := by
    rw [hparts]; abel
  rw [hw] at hop
  obtain ⟨s, hs, hop⟩ := hop.freeExtents_run hn (by simp [hio, parts_io, Res.nvmeOf]) t ω
  obtain ⟨b, hb, hop⟩ := hop.nvmeRelease t ω
  have hop := hop.setPage (p := p.uncached) rfl
  refine ⟨((σ.setStore s).setNvme b).setPage p.uncached, ?_, ?_, hl, hcould, rfl, ?_⟩
  · have hl' : ((σ.setStore s).setNvme b).table.lookup p.id = some p := hl
    unfold FlashTier.reclaim
    rw [Act.bind_ok (copyOf_some hl), hdiv, Act.bind_ok hs, Act.bind_ok hb, withPage_some hl']
    rfl
  · -- the page closes without its extent
    have hq : PageOk cfg (((σ.setStore s).setNvme b).setPage p.uncached) p.uncached := by
      have := hok.uncached hst
      exact ⟨⟨this.record.form, this.record.phase, this.record.size, this.record.checksum, this.record.content⟩, this.rest, this.owners,
        this.tier, this.held⟩
    exact hop.closePage (lookup_setPage _ _) hf hq hpin
  · -- the other pages and the threads account for the same before and after
    have hrest : rest cfg (((σ.setStore s).setNvme b).setPage p.uncached) (some p.id) T = rest cfg σ (some p.id) T := by
      unfold rest
      rw [show others (((σ.setStore s).setNvme b).setPage p.uncached) (some p.id) = others σ (some p.id) from others_setPage_self p.uncached]
    rw [hacc, hop.acc, hrest, hparts, hext]
    abel

/-! ## The loop -/

/-- The list names pages that can be reclaimed, each once, with their extents. -/
structure Listed (exclude : PageId) (σ : Shared) (l : List (Nat × PageId)) : Prop where
  nodup : (l.map Prod.snd).Nodup
  pages : ∀ x ∈ l, ∃ p, σ.table.lookup x.2 = some p ∧ Reclaimable exclude p = true ∧ p.nvmeOffset = some x.1

theorem listed_reclaimable (exclude : PageId) (σ : Shared) : Listed exclude σ (reclaimable exclude σ) := by
  have hperm := List.perm_insertionSort (fun a b : Nat × PageId => a.1 < b.1 ∨ (a.1 = b.1 ∧ a.2 ≤ b.2))
    ((σ.table.items.filter (Reclaimable exclude)).map fun p => (p.nvmeOffset.getD 0, p.id))
  refine ⟨?_, fun x hx => ?_⟩
  · refine ((hperm.map Prod.snd).nodup_iff).2 ?_
    rw [List.map_map]
    exact (σ.table.nodup).sublist ((List.filter_sublist ..).map _)
  · obtain ⟨p, hp, rfl⟩ := List.mem_map.1 (hperm.mem_iff.1 hx)
    obtain ⟨hp, hr⟩ := List.mem_filter.1 hp
    refine ⟨p, Keyed.lookup_of_mem (Keyed.mem_bag.2 hp), hr, ?_⟩
    simp only [Reclaimable, Bool.and_eq_true] at hr
    obtain ⟨o, ho⟩ := Option.isSome_iff_exists.1 hr.1.2
    simp [ho]

/-- One round of the loop: a cached extent is taken away, and the other pages of the list are as they were. -/
theorem Open.reclaimRound {offset : Nat} {rest : List (Nat × PageId)} (h : Open cfg σ none w T)
    (hlist : Listed exclude σ ((offset, id) :: rest)) (hio : w.io = 0) (t : Nat) (ω : Env) :
    ∃ p σ₁, FlashTier.reclaim cfg offset id t ω σ = (.ok (), σ₁) ∧ Open cfg σ₁ none w T ∧ p.id = id ∧
      Reclaimed cfg exclude p σ σ₁ ∧ Listed exclude σ₁ rest := by
  obtain ⟨p, hl, hr, ho⟩ := hlist.pages _ (List.mem_cons_self ..)
  obtain ⟨σ₁, hrun, hop, hrec⟩ := h.reclaim hl hr ho hio t ω
  obtain ⟨hnd, hnd'⟩ := List.nodup_cons.1 hlist.nodup
  have hid : p.id = id := id_of_lookup hl
  refine ⟨p, σ₁, hrun, hop, hid, hrec, hnd', fun x hx => ?_⟩
  obtain ⟨q, hq, hqr, hqo⟩ := hlist.pages x (List.mem_cons_of_mem _ hx)
  have hne : p.id ≠ x.2 := by
    rw [hid]
    intro he
    exact hnd (List.mem_map.2 ⟨x, hx, he.symm⟩)
  exact ⟨q, (hrec.lookup_ne hne).trans hq, hqr, hqo⟩

theorem Listed.of_table {l : List (Nat × PageId)} (h : Listed exclude σ l) (ht : σ'.table = σ.table) : Listed exclude σ' l :=
  ⟨h.nodup, by rw [ht]; exact h.pages⟩

theorem Open.reclaimLoop {n : Nat} (hn : 0 < n) (hio : w.io = 0) (bytes t : Nat) (ω : Env) :
    ∀ {l : List (Nat × PageId)} {σ : Shared}, Open cfg σ none w T → Listed exclude σ l →
      ∃ r σ', FlashTier.reclaimLoop cfg n bytes l t ω σ = (.ok r, σ') ∧ Trimmed exclude σ σ' ∧ Attempted cfg σ' w T n bytes r
  | [], σ, h, _ => ⟨none, σ, rfl, Trimmed.of_table rfl, .inl ⟨rfl, h⟩⟩
  | (offset, id) :: rest, σ, h, hlist => by
    obtain ⟨p, σ₁, hrun, hop, -, hrec, hlist⟩ := h.reclaimRound hlist hio t ω
    have htrim := hrec.trimmed
    obtain ⟨r, σ₂, hrun₂, htb, htrim₂, hcase⟩ := hop.tryReserveRange hn hio bytes exclude t ω
    unfold FlashTier.reclaimLoop
    rw [Act.bind_ok hrun, Act.bind_ok hrun₂]
    rcases hcase with ⟨rfl, hop₂⟩ | ⟨first, rfl, hop₂⟩
    · obtain ⟨r, σ₃, hrun₃, htrim₃, hcase⟩ := Open.reclaimLoop hn hio bytes t ω hop₂ (hlist.of_table htb)
      exact ⟨r, σ₃, hrun₃, (htrim.trans htrim₂).trans htrim₃, hcase⟩
    · exact ⟨_, σ₂, rfl, htrim.trans htrim₂, .inr ⟨first, rfl, hop₂⟩⟩

/-- `reserve_nvme_range_locked` gives a range, which is then in hand with its bytes of the budget, or none. -/
theorem Open.reserveNvmeRange {n : Nat} (h : Open cfg σ none w T) (hn : 0 < n) (hio : w.io = 0) (bytes : Nat)
    (exclude : PageId) (t : Nat) (ω : Env) :
    ∃ r σ', FlashTier.reserveNvmeRange cfg n bytes exclude t ω σ = (.ok r, σ') ∧ Trimmed exclude σ σ' ∧
      Attempted cfg σ' w T n bytes r := by
  obtain ⟨r, σ₁, hrun, -, htrim, hcase⟩ := h.tryReserveRange hn hio bytes exclude t ω
  unfold FlashTier.reserveNvmeRange
  rw [Act.bind_ok hrun]
  rcases hcase with ⟨rfl, hop⟩ | ⟨first, rfl, hop⟩
  · obtain ⟨r, σ₂, hrun₂, htrim₂, hcase⟩ := Open.reclaimLoop hn hio bytes t ω hop (listed_reclaimable exclude σ₁)
    refine ⟨r, σ₂, ?_, htrim.trans htrim₂, hcase⟩
    simp only
    rw [Act.bind_ok (Act.get_apply t ω σ₁)]
    exact hrun₂
  · exact ⟨_, σ₁, rfl, htrim, .inr ⟨first, rfl, hop⟩⟩

end FlashTier
