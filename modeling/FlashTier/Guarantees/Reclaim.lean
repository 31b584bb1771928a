/-
`reserve_nvme_range_locked` under pressure: it finds a range exactly when the free extents and the cached
ones together hold a run that is long enough, and takes away nothing but cached extents.
-/
import FlashTier.Guarantees.Reservations

namespace FlashTier

open Conc

variable {cfg : RuntimeConfig} {disk : Bytes} {c : Runtime} {σ σ' : Shared} {T : Multiset (Nat × Hold)} {n : Nat} {w : Res}
  {exclude : PageId} {p : PageMetadata}

/-! ## Extents that can be had -/

/-- The extent is free, or the cached extent of a page in memory. -/
def Shared.Spare (cfg : RuntimeConfig) (exclude : PageId) (σ : Shared) (i : Nat) : Prop :=
  i < σ.store.extentCount ∧ (σ.store.used i = false ∨
    ∃ p, σ.table.lookup p.id = some p ∧ Reclaimable exclude p = true ∧ i ∈ p.extents cfg)

theorem used_eq_false_iff {i : Nat} (hi : i < σ.store.extentCount) : σ.store.used i = false ↔ i ∉ σ.store.usedBag := by
  rw [Extents.mem_usedBag, ← Bool.not_eq_true]
  constructor
  · rintro hu ⟨-, hu'⟩
    exact hu hu'
  · intro hn hu
    exact hn ⟨hi, hu⟩

theorem Reclaimed.usedBag (h : Reclaimed cfg exclude p σ σ') : σ.store.usedBag = σ'.store.usedBag + p.extents cfg := by
  have := congrArg Res.ext h.ledger
  simpa [Shared.ledger, Res.nvmeOf, Res.extOf] using this

/-- Taking a cached extent away changes why it can be had, not whether. -/
theorem Reclaimed.spare_iff (h : Reclaimed cfg exclude p σ σ') (hg : σ'.store.extentCount = σ.store.extentCount) (i : Nat) :
    σ'.Spare cfg exclude i ↔ σ.Spare cfg exclude i := by
  unfold Shared.Spare
  rw [hg]
  refine and_congr_right fun hi => ?_
  rw [used_eq_false_iff hi, used_eq_false_iff (hg ▸ hi), h.usedBag, Multiset.mem_add, not_or]
  constructor
  · rintro (hn | ⟨q, hq, hr, hm⟩)
    · by_cases hm : i ∈ p.extents cfg
      · exact .inr ⟨p, h.was, h.could, hm⟩
      · exact .inl ⟨hn, hm⟩
    · have hne : p.id ≠ q.id := by
        intro he
        rw [← he, h.lookup_self] at hq
        cases hq
        rw [not_reclaimable_uncached] at hr
        cases hr
      rw [h.lookup_ne hne] at hq
      exact .inr ⟨q, hq, hr, hm⟩
  · rintro (⟨hn, -⟩ | ⟨q, hq, hr, hm⟩)
    · exact .inl hn
    · by_cases he : p.id = q.id
      · -- the extents of the page are free now: none was counted twice
        have hpq : p = q := by
          have := h.was
          rw [he, hq] at this
          cases this
          rfl
        subst hpq
        have hnd := σ.store.nodup_usedBag
        rw [h.usedBag, Multiset.nodup_add] at hnd
        exact .inl fun hi' => Multiset.disjoint_left.1 hnd.2.2 hi' hm
      · exact .inr ⟨q, (h.lookup_ne he).trans hq, hr, hm⟩

/-- With no cached extent left, what can be had is free. -/
theorem Shared.Spare.free {i : Nat} (h : σ.Spare cfg exclude i)
    (hnone : ∀ p, σ.table.lookup p.id = some p → Reclaimable exclude p = false) : σ.store.used i = false := by
  rcases h.2 with hu | ⟨p, hp, hr, -⟩
  · exact hu
  · rw [hnone p hp] at hr
    cases hr

/-! ## The run -/

/-- What a reservation of `n` extents leaves. -/
inductive Reserved (cfg : RuntimeConfig) (exclude : PageId) (n : Nat) (w : Res) (T : Multiset (Nat × Hold)) (σ σ' : Shared) :
    Option Nat → Prop
  | refused (hop : Open cfg σ' none w T) (hsame : ∀ i, σ'.Spare cfg exclude i ↔ σ.Spare cfg exclude i)
      (hnone : ∀ p, σ'.table.lookup p.id = some p → Reclaimable exclude p = false)
      (hrun : ∀ first, ¬σ'.store.FreeRun first n) : Reserved cfg exclude n w T σ σ' none
  | taken (first : Nat) (hop : Open cfg σ' none (w + Res.extOf (Extents.range first n) + Res.nvmeOf (n * cfg.pageSize)) T)
      (hspare : ∀ i, first ≤ i → i < first + n → σ.Spare cfg exclude i) :
      Reserved cfg exclude n w T σ σ' (some ((first + 1) * cfg.pageSize))

theorem Reserved.of_spare {σ₁ : Shared} {r : Option Nat} (h : Reserved cfg exclude n w T σ₁ σ' r)
    (hsame : ∀ i, σ₁.Spare cfg exclude i ↔ σ.Spare cfg exclude i) : Reserved cfg exclude n w T σ σ' r := by
  cases h with
  | refused hop hs hnone hrun => exact .refused hop (fun i => (hs i).trans (hsame i)) hnone hrun
  | taken first hop hsp => exact .taken first hop fun i h1 h2 => (hsame i).1 (hsp i h1 h2)

/-- What was added to the extents in use was free. -/
theorem freeRun_of_usedBag {first : Nat} (hn : 0 < n) (hg : σ'.store.extentCount = σ.store.extentCount)
    (hb : σ'.store.usedBag = σ.store.usedBag + Extents.range first n) : σ.store.FreeRun first n := by
  have hin : ∀ i, first ≤ i → i < first + n → i < σ.store.extentCount := by
    intro i h1 h2
    have : i ∈ σ'.store.usedBag := by
      rw [hb]
      exact Multiset.mem_add.2 (.inr (Extents.mem_range.2 ⟨h1, h2⟩))
    rw [← hg]
    exact (Extents.mem_usedBag.1 this).1
  have hnd := σ'.store.nodup_usedBag
  rw [hb, Multiset.nodup_add] at hnd
  refine ⟨?_, fun i h1 h2 => (used_eq_false_iff (hin i h1 h2)).2 fun hi => ?_⟩
  · have := hin (first + n - 1) (by omega) (by omega)
    omega
  · exact Multiset.disjoint_left.1 hnd.2.2 hi (Extents.mem_range.2 ⟨h1, h2⟩)

theorem store_none {t : Nat} {ω : Env} (h : allocateExtents n t ω σ = (.ok none, σ)) : σ.store.allocateExtents n = .ok none := by
  unfold allocateExtents at h
  split at h <;> first | assumption | simp at h

/-- The budget and the extents stay in step over a reservation that took both. -/
theorem inStep_taken {first : Nat} (h : Open cfg σ none w T) (hstep : σ.InStep cfg) (htb : σ'.table = σ.table)
    (hop : Open cfg σ' none (w + Res.extOf (Extents.range first n) + Res.nvmeOf (n * cfg.pageSize)) T) : σ'.InStep cfg := by
  have hrest : rest cfg σ' none T = rest cfg σ none T := by
    unfold rest others
    rw [htb]
  have hpair : (Res.extOf (Extents.range first n) + Res.nvmeOf (n * cfg.pageSize)).Paired cfg := by
    simp [Res.Paired, Res.extOf, Res.nvmeOf, Nat.mul_comm]
  rw [hop.inStep_iff, hrest, add_assoc w, add_right_comm]
  exact (h.inStep_iff.1 hstep).add hpair

/-- One attempt: it takes a run of free extents, or there is none. -/
theorem tryReserve_exact (h : Open cfg σ none w T) (hstep : σ.InStep cfg) (hn : 0 < n) (hio : w.io = 0) (exclude : PageId) (t : Nat)
    (ω : Env) :
    (tryReserveRange n (n * cfg.pageSize) t ω σ = (.ok none, σ) ∧ ∀ first, ¬σ.store.FreeRun first n) ∨
    ∃ offset σ', tryReserveRange n (n * cfg.pageSize) t ω σ = (.ok (some offset), σ') ∧ Trimmed exclude σ σ' ∧ σ'.InStep cfg ∧
      Reserved cfg exclude n w T σ σ' (some offset) := by
  obtain ⟨r, σ₁, -, hrun, htb, hcase⟩ := tryInStep_run h hstep hn t ω
  obtain ⟨r', σ₂, hrun', -, htrim, hatt⟩ := h.tryReserveRange hn hio (n * cfg.pageSize) exclude t ω
  rw [hrun] at hrun'
  cases hrun'
  rcases hcase with ⟨rfl, rfl, ha⟩ | ⟨offset, σ₂, rfl, -⟩
  · exact .inl ⟨hrun, Extents.allocateExtents_none h.wf.store hn (store_none ha)⟩
  · rcases hatt with ⟨hr, -⟩ | ⟨first, hr, hop⟩
    · cases hr
    · cases hr
      have hrest : rest cfg σ₁ none T = rest cfg σ none T := by
        unfold rest others
        rw [htb]
      have h1 : σ.store.usedBag = w.ext + (rest cfg σ none T).ext := congrArg Res.ext h.acc
      have h2 : σ₁.store.usedBag = w.ext + Extents.range first n + 0 + (rest cfg σ₁ none T).ext := congrArg Res.ext hop.acc
      have hfree : σ.store.FreeRun first n := by
        refine freeRun_of_usedBag hn (hop.wf.geometry.2.trans h.wf.geometry.2.symm) ?_
        rw [h2, h1, hrest, add_zero, add_right_comm]
      refine .inr ⟨_, σ₁, hrun, htrim, inStep_taken h hstep htb hop, .taken first hop fun i hl hu => ?_⟩
      exact ⟨lt_of_lt_of_le hu hfree.1, .inl (hfree.2 i hl hu)⟩

/-- The list names every page whose extent can be taken away. -/
def Complete (exclude : PageId) (σ : Shared) (l : List (Nat × PageId)) : Prop :=
  ∀ p, σ.table.lookup p.id = some p → Reclaimable exclude p = true → p.id ∈ l.map Prod.snd

theorem complete_reclaimable (exclude : PageId) (σ : Shared) : Complete exclude σ (reclaimable exclude σ) := by
  intro p hp hr
  have hmem : p ∈ σ.table.items.filter (Reclaimable exclude) := List.mem_filter.2 ⟨(Keyed.lookup_some.1 hp).1, hr⟩
  refine List.mem_map.2 ⟨(p.nvmeOffset.getD 0, p.id), ?_, rfl⟩
  exact (List.perm_insertionSort _ _).mem_iff.2 (List.mem_map.2 ⟨p, hmem, rfl⟩)

/-- After its page was dealt with, the list without it is complete. -/
theorem Reclaimed.complete {offset : Nat} {rest : List (Nat × PageId)} (h : Reclaimed cfg exclude p σ σ')
    (hc : Complete exclude σ ((offset, p.id) :: rest)) : Complete exclude σ' rest := by
  intro q hq hr
  have hne : p.id ≠ q.id := by
    intro he
    rw [← he, h.lookup_self] at hq
    cases hq
    rw [not_reclaimable_uncached] at hr
    cases hr
  rw [h.lookup_ne hne] at hq
  rcases List.mem_cons.1 (hc q hq hr) with he | hm
  · exact absurd he.symm hne
  · exact hm

theorem reclaimLoop_exact (hn : 0 < n) (hio : w.io = 0) (t : Nat) (ω : Env) :
    ∀ {l : List (Nat × PageId)} {σ : Shared}, Open cfg σ none w T → σ.InStep cfg → Listed exclude σ l → Complete exclude σ l →
      (∀ first, ¬σ.store.FreeRun first n) →
      ∃ r σ', reclaimLoop cfg n (n * cfg.pageSize) l t ω σ = (.ok r, σ') ∧ Trimmed exclude σ σ' ∧ σ'.InStep cfg ∧
        Reserved cfg exclude n w T σ σ' r
  | [], σ, h, hstep, _, hc, hno => by
    refine ⟨none, σ, rfl, Trimmed.of_table rfl, hstep, .refused h (fun _ => Iff.rfl) (fun p hp => ?_) hno⟩
    by_contra hr
    exact List.not_mem_nil (hc p hp (by simpa using hr))
  | (offset, id) :: rest, σ, h, hstep, hlist, hc, hno => by
    obtain ⟨p, σ₁, hrun, hop, rfl, hrec, hlist₁⟩ := h.reclaimRound hlist hio t ω
    have hstep₁ := hrec.inStep h hop hstep
    have hsame : ∀ i, σ₁.Spare cfg exclude i ↔ σ.Spare cfg exclude i :=
      hrec.spare_iff (hop.wf.geometry.2.trans h.wf.geometry.2.symm)
    unfold reclaimLoop
    rw [Act.bind_ok hrun]
    rcases tryReserve_exact hop hstep₁ hn hio exclude t ω with ⟨htry, hno₁⟩ | ⟨offset, σ', htry, ht, hs, hres⟩
    · obtain ⟨r, σ', hl, ht, hs, hres⟩ := reclaimLoop_exact hn hio t ω hop hstep₁ hlist₁ (hrec.complete hc) hno₁
      rw [Act.bind_ok htry]
      exact ⟨r, σ', hl, hrec.trimmed.trans ht, hs, hres.of_spare hsame⟩
    · rw [Act.bind_ok htry]
      exact ⟨some offset, σ', rfl, hrec.trimmed.trans ht, hs, hres.of_spare hsame⟩

theorem reserveNvmeRange_exact (h : Open cfg σ none w T) (hstep : σ.InStep cfg) (hn : 0 < n) (hio : w.io = 0) (exclude : PageId)
    (t : Nat) (ω : Env) :
    ∃ r σ', reserveNvmeRange cfg n (n * cfg.pageSize) exclude t ω σ = (.ok r, σ') ∧ Trimmed exclude σ σ' ∧ σ'.InStep cfg ∧
      Reserved cfg exclude n w T σ σ' r := by
  unfold reserveNvmeRange
  rcases tryReserve_exact h hstep hn hio exclude t ω with ⟨htry, hno⟩ | ⟨offset, σ', htry, ht, hs, hres⟩
  · rw [Act.bind_ok htry]
    simp only
    rw [Act.bind_ok (Act.get_apply t ω σ)]
    exact reclaimLoop_exact hn hio t ω h hstep (listed_reclaimable exclude σ) (complete_reclaimable exclude σ) hno
  · rw [Act.bind_ok htry]
    exact ⟨some offset, σ', rfl, ht, hs, hres⟩

/-! ## Who owns an extent -/

/-- The share holds at least the bytes of its extents. -/
def Res.Covered (cfg : RuntimeConfig) (r : Res) : Prop := cfg.pageSize * r.ext.card ≤ r.nvme

theorem Res.Paired.covered {r : Res} (h : r.Paired cfg) : r.Covered cfg := h.symm.le

theorem Res.Covered.add {a b : Res} (ha : a.Covered cfg) (hb : b.Covered cfg) : (a + b).Covered cfg := by
  unfold Res.Covered at *
  rw [add_nvme, add_ext, Multiset.card_add, Nat.mul_add]
  omega

theorem Res.covered_sum {α : Type} {f : α → Res} {s : Multiset α} (h : ∀ a ∈ s, (f a).Covered cfg) : (s.map f).sum.Covered cfg := by
  refine Multiset.sum_induction _ _ (fun a b ha hb => ha.add hb) Res.paired_zero.covered fun r hr => ?_
  obtain ⟨a, ha, rfl⟩ := Multiset.mem_map.1 hr
  exact h a ha

/-- Shares that are paired together, each with enough bytes, are paired one by one. -/
theorem Res.Covered.paired {a b : Res} (ha : a.Covered cfg) (hb : b.Covered cfg) (h : (a + b).Paired cfg) : a.Paired cfg := by
  unfold Res.Covered at *
  unfold Res.Paired at *
  rw [add_nvme, add_ext, Multiset.card_add, Nat.mul_add] at h
  omega

theorem HoldOk.covered {x : Nat × Hold} (h : HoldOk cfg σ x) : (x.2.own cfg).Covered cfg := by
  obtain ⟨s, tok, ids⟩ := x
  refine Res.Covered.add (a := tok.own cfg) ?_ (by simp [Res.Covered, Res.idsOf])
  cases tok with
  | moving m tier stage =>
    have hp : (m.parts cfg).Paired cfg := h.1.record.form.paired
    cases stage with
    | claimed | copied => exact hp.covered
    | io => exact hp.covered.add (by simp [Res.Covered, Res.ioOf])
    | refunded => exact hp.covered
  | releasing m left => exact h.2.2.2.2.bytes
  | _ => simp [Token.own, Res.Covered, Res.hostBuf, Res.vramOf, Res.devBuf]

/-- With the budget in step, so is every thread's share. -/
theorem Open.paired_hold (h : Open cfg σ none w T) (hp : (rest cfg σ none T).Paired cfg) {x : Nat × Hold} (hx : x ∈ T) :
    (x.2.own cfg).Paired cfg := by
  have hpages : ((others σ none).map (PageMetadata.foot cfg)).sum.Covered cfg := by
    refine Res.covered_sum fun p hm => ?_
    unfold PageMetadata.foot
    split
    · exact Res.paired_zero.covered
    · rename_i hf
      exact ((h.pages p hm).ok (by simpa using hf)).record.form.paired.covered
  obtain ⟨T', rfl⟩ := Multiset.exists_cons_of_mem hx
  have hT' : (T'.map fun y : Nat × Hold => y.2.own cfg).sum.Covered cfg :=
    Res.covered_sum fun y hy => (h.holds y (Multiset.mem_cons_of_mem hy)).covered
  refine (h.holds x hx).covered.paired (hpages.add hT') ?_
  rw [rest, Multiset.map_cons, Multiset.sum_cons, add_left_comm] at hp
  exact hp

/-- With the budget in step, every page of the table is accounted for with the extents its record names. -/
theorem Open.extents_rest (h : Open cfg σ none w T) (hp : (rest cfg σ none T).Paired cfg) (hm : p ∈ σ.table.bag) :
    ∀ i ∈ p.extents cfg, i ∈ (rest cfg σ none T).ext := by
  intro i hi
  by_cases hf : p.inFlight = true
  · have hcl : p.core ∈ (others σ none).bind PageMetadata.claim := Multiset.mem_bind.2 ⟨p, hm, mem_claim.2 ⟨hf, rfl⟩⟩
    rw [h.claims] at hcl
    obtain ⟨x, hx, hc⟩ := Multiset.mem_bind.1 hcl
    refine (part_rest_hold hx).mem_ext ?_
    have hok := h.holds x hx
    have hpair := h.paired_hold hp hx
    obtain ⟨t, tok, ids⟩ := x
    cases tok with
    | moving m tier stage =>
      cases Multiset.mem_singleton.1 hc
      exact ((covers_stage p.core stage).mono (Res.part_add_left ..)).ext i hi
    | releasing m left =>
      cases Multiset.mem_singleton.1 hc
      have he : left.ext = p.core.extents cfg := hok.2.2.2.2.extents (by simpa [Hold.own, Token.own, Res.Paired, Res.idsOf] using hpair)
      show i ∈ left.ext + 0
      rw [he, add_zero]
      exact hi
    | _ => exact absurd hc (Multiset.notMem_zero _)
  · have hpart : Res.Part (p.foot cfg) (rest cfg σ none T) := part_rest_page hm
    rw [PageMetadata.foot, if_neg hf] at hpart
    exact hpart.mem_ext hi

/-! ## The reservation -/

/-- `reserve_nvme_range_locked`, run as one step in a reachable state with the budget in step: it returns a
range exactly when the free extents and those of pages in memory, but for the excluded one and busy ones,
hold a run of `n`; the range is of no page left with it; the pages that change are such pages, and lose
their extent and nothing else; a page in the store is not touched; the budget stays in step. -/
theorem reserve_complete (hr : Reached cfg disk c) (hs : c.shared.nvmeBudget.used = c.shared.store.usedExtents * cfg.pageSize)
    (hn : 0 < n) (exclude : PageId) (t : Nat) (ω : Env) :
    ∃ r σ', reserveNvmeRange cfg n (n * cfg.pageSize) exclude t ω c.shared = (.ok r, σ') ∧
      (r.isSome ↔ ∃ first, ∀ i, first ≤ i → i < first + n → c.shared.Spare cfg exclude i) ∧
      (∀ offset, r = some offset → ∃ first, offset = (first + 1) * cfg.pageSize ∧
        (∀ i, first ≤ i → i < first + n → c.shared.Spare cfg exclude i) ∧
        ∀ p ∈ σ'.table.items, ∀ i ∈ p.extents cfg, ¬(first ≤ i ∧ i < first + n)) ∧
      Trimmed exclude c.shared σ' ∧
      (∀ id p, c.shared.table.lookup id = some p → p.state = .residentNvme → σ'.table.lookup id = some p) ∧
      σ'.nvmeBudget.used = σ'.store.usedExtents * cfg.pageSize := by
  obtain ⟨T, hi⟩ := reachable_inv hr
  obtain ⟨r, σ', hrun, htrim, hstep, hres⟩ := reserveNvmeRange_exact hi hs hn rfl exclude t ω
  refine ⟨r, σ', hrun, ?_, ?_, htrim, fun id p hl hst => ?_, hstep⟩
  · cases hres with
    | refused hop hsame hnone hno =>
      constructor
      · rintro ⟨⟩
      · rintro ⟨first, hall⟩
        -- all that can be had is free by now, and the search has found no run
        have hspare : ∀ i, first ≤ i → i < first + n → σ'.Spare cfg exclude i := fun i h1 h2 => (hsame i).2 (hall i h1 h2)
        refine absurd ⟨?_, fun i h1 h2 => (hspare i h1 h2).free hnone⟩ (hno first)
        have := (hspare (first + n - 1) (by omega) (by omega)).1
        omega
    | taken first hop hsp => exact ⟨fun _ => ⟨first, hsp⟩, fun _ => rfl⟩
  · rintro offset rfl
    cases hres with
    | taken first hop hsp =>
      refine ⟨first, rfl, hsp, fun p hp i hi ⟨h1, h2⟩ => ?_⟩
      have hpair : (rest cfg σ' none T).Paired cfg := by
        have := hop.inStep_iff.1 hstep
        simp only [Res.Paired, zero_add, Res.add_nvme, Res.add_ext, Res.extOf, Res.nvmeOf, Multiset.card_add, Extents.card_range,
          add_zero] at this ⊢
        rw [Nat.mul_add, Nat.mul_comm n] at this
        omega
      have hmem := hop.extents_rest hpair (Keyed.mem_bag.2 hp) i hi
      refine Shared.ext_ne hop.acc ?_ hmem
      simpa [Res.extOf, Res.nvmeOf, Extents.mem_range] using ⟨h1, h2⟩
  · rcases htrim.pages id with he | ⟨q, hq, hrq, -⟩
    · exact he.trans hl
    · rw [hl] at hq
      cases hq
      simp [Reclaimable, hst] at hrq

/-- A page in host memory whose cached copy has the only extent. -/
def cachedInHost : List (Move Env Op) :=
  .spawn (.allocate { logicalBytes := 10 }) :: turns 0 6 ++ .spawn (.demoteToNvme 1) :: turns 1 11 ++
    .spawn (.promote 1) :: turns 2 4 ++ .spawn .worker :: turns 3 18

/-- A reservation for another page takes the cached extent away. -/
theorem reserve_complete_cached : ∃ c r σ', Reached (smallConfig 0 1 1) (fun _ => 0) c ∧ c.shared.store.freeList = [] ∧
    c.shared.nvmeBudget.used = c.shared.store.usedExtents * (smallConfig 0 1 1).pageSize ∧
    reserveNvmeRange (smallConfig 0 1 1) 1 (1 * (smallConfig 0 1 1).pageSize) 2 4 {} c.shared = (.ok r, σ') ∧ r.isSome = true ∧
      Trimmed 2 c.shared σ' ∧ σ'.nvmeBudget.used = σ'.store.usedExtents * (smallConfig 0 1 1).pageSize := by
  obtain ⟨c, hr, hfree, hs, p, hp, hid, hrec, hext⟩ := reached_of_test (smallConfig 0 1 1) (fun _ => 0) cachedInHost
    (fun c => c.shared.store.freeList = [] ∧ c.shared.nvmeBudget.used = c.shared.store.usedExtents * (smallConfig 0 1 1).pageSize ∧
      ∃ p ∈ c.shared.table.items, p.id = 1 ∧ Reclaimable 2 p = true ∧ 0 ∈ p.extents (smallConfig 0 1 1)) (by decide +kernel)
  obtain ⟨r, σ', hrun, hiff, -, htrim, -, hs'⟩ := reserve_complete (n := 1) hr hs (by decide) 2 4 {}
  refine ⟨c, r, σ', hr, hfree, hs, hrun, hiff.2 ⟨0, fun i h1 h2 => ?_⟩, htrim, hs'⟩
  obtain rfl : i = 0 := by omega
  obtain ⟨T, hi⟩ := reachable_inv hr
  exact ⟨by rw [hi.wf.geometry.2]; decide, .inr ⟨p, Keyed.lookup_of_mem (Keyed.mem_bag.2 hp), hrec, hext⟩⟩

end FlashTier
