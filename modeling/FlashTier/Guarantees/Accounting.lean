/-
What the invariant says of the budgets: their limits hold in every state of every run, no counter
wraps and no internal assertion throws; and when no operation is in progress, each budget is the sum
over the pages that own a buffer or an extent of its tier.
-/
import FlashTier.Invariant.Sound

namespace FlashTier

open Conc

/-- The configurations the runtime reaches in some run over a store file. -/
abbrev Reached (cfg : RuntimeConfig) (disk : Bytes) (c : Runtime) : Prop :=
  Reachable (fun _ => True) (code cfg) (cfg.initial disk) c

/-- A small configuration: so many pages of device and host memory and extents, and no device tier when
there are no device pages. -/
def smallConfig (vram host extents : Fin 4) : RuntimeConfig where
  pageSize := 4096
  vramLimit := vram * 4096
  vramReserve := 0
  hostLimit := host * 4096
  extentCount := extents
  queueDepth := 2
  prefetchDepth := 2
  usePageableFallback := true
  device := vram != 0
  backendName := "sim"
  pinnedAvailable := true
  policy := .lru
  seed := 1
  firstId := 1
  page_min := by decide
  reserve_le := Nat.zero_le _
  vram_lt := by have := vram.isLt; omega
  host_lt := by have := host.isLt; omega
  store_lt := by have := extents.isLt; omega
  queue_pos := by decide
  cpu_only := by
    intro h
    rw [bne_eq_false_iff_eq.1 h]
    rfl
  first_ok := ⟨le_rfl, Nat.one_lt_two_pow (by decide)⟩

/-- The next `n` sections of a thread, with no failing call. -/
def turns (t n : Nat) : List (Move Env Op) := List.replicate n (.exec t {})

/-- A run that can be evaluated, with what its threads were started for. -/
theorem reached_of_run (cfg : RuntimeConfig) (disk : Bytes) (ms : List (Move Env Op)) (P : Runtime → Prop) [DecidablePred P]
    (h : (Config.run (code cfg) ⟨cfg.initial disk, []⟩ ms).any (fun c => P c) = true) :
    ∃ c, Reached cfg disk c ∧ c.labels = spawned ms ∧ P c :=
  Reachable.of_test P (fun _ _ => trivial) h

theorem reached_of_test (cfg : RuntimeConfig) (disk : Bytes) (ms : List (Move Env Op)) (P : Runtime → Prop) [DecidablePred P]
    (h : (Config.run (code cfg) ⟨cfg.initial disk, []⟩ ms).any (fun c => P c) = true) : ∃ c, Reached cfg disk c ∧ P c := by
  obtain ⟨c, hr, -, hp⟩ := reached_of_run cfg disk ms P h
  exact ⟨c, hr, hp⟩

variable {cfg : RuntimeConfig} {disk : Bytes} {c : Runtime} {σ : Shared} {T : Multiset (Nat × Hold)} {α : Type}

theorem reached_accounted (hr : Reached cfg disk c) : ∃ hs, Accounted (fun _ _ _ => True) cfg [] c hs :=
  reachable_accounted _ (fun _ _ _ _ _ => trivial) hr

/-! ## Sums of shares -/

/-- What is additive of shares, or of parts of them, may be summed term by term. -/
theorem map_sum_of_add {M N : Type} [AddCommMonoid M] [AddCommMonoid N] (g : M → N) (h0 : g 0 = 0)
    (hadd : ∀ a b, g (a + b) = g a + g b) (f : α → M) (s : Multiset α) : g (s.map f).sum = (s.map fun a => g (f a)).sum := by
  have h := map_multiset_sum (⟨⟨g, h0⟩, hadd⟩ : M →+ N) (s.map f)
  rw [Multiset.map_map] at h
  exact h

/-- The bytes of the pages that own a place of some kind. -/
def Shared.bytesWith (σ : Shared) (owns : PageMetadata → Bool) : Nat :=
  ((σ.table.items.filter owns).map PageMetadata.allocationSize).sum

theorem bytesWith_eq_sum (owns : PageMetadata → Bool) :
    σ.bytesWith owns = (σ.table.bag.map fun p => if owns p then p.allocationSize else 0).sum := by
  unfold Shared.bytesWith Keyed.bag
  rw [Multiset.map_coe, Multiset.sum_coe]
  induction σ.table.items with
  | nil => rfl
  | cons p l ih => by_cases hp : owns p <;> simp [hp, ih]

/-! ## When no operation is in progress -/

/-- No thread holds anything. -/
def AtRest (T : Multiset (Nat × Hold)) : Prop := ∀ x ∈ T, x.2.tok = .idle

theorem Inv.not_inFlight (hi : Inv cfg σ T) (hT : AtRest T) {p : PageMetadata} (hp : p ∈ σ.table.bag) : p.inFlight = false := by
  by_contra hf
  have hm : p.core ∈ σ.table.bag.bind PageMetadata.claim :=
    Multiset.mem_bind.2 ⟨p, hp, mem_claim.2 ⟨by simpa using hf, rfl⟩⟩
  rw [show σ.table.bag.bind PageMetadata.claim = _ from hi.claims] at hm
  obtain ⟨x, hx, hm⟩ := Multiset.mem_bind.1 hm
  rw [Hold.claim, hT x hx] at hm
  exact Multiset.notMem_zero _ hm

/-- The ledger is what the pages point to, and the ids not used. -/
theorem Inv.ledger_atRest (hi : Inv cfg σ T) (hT : AtRest T) :
    ∃ ids, σ.ledger = (σ.table.bag.map (PageMetadata.parts cfg)).sum + Res.idsOf ids := by
  have hpages : (σ.table.bag.map (PageMetadata.foot cfg)) = σ.table.bag.map (PageMetadata.parts cfg) := by
    refine Multiset.map_congr rfl fun p hp => ?_
    rw [PageMetadata.foot, hi.not_inFlight hT hp, if_neg Bool.false_ne_true]
  have hholds : ∃ ids, (T.map fun x => x.2.own cfg).sum = Res.idsOf ids := by
    clear hi
    induction T using Multiset.induction_on with
    | empty => exact ⟨0, rfl⟩
    | cons x T ih =>
      obtain ⟨ids, hs⟩ := ih fun y hy => hT y (Multiset.mem_cons_of_mem hy)
      refine ⟨x.2.ids + ids, ?_⟩
      rw [Multiset.map_cons, Multiset.sum_cons, hs, Hold.own, hT x (Multiset.mem_cons_self ..)]
      simp [Res.ext_iff', Res.idsOf, Token.own]
  obtain ⟨ids, hs⟩ := hholds
  refine ⟨ids, ?_⟩
  rw [hi.acc, rest, hs, zero_add]
  exact congrArg (· + Res.idsOf ids) (congrArg Multiset.sum hpages)

/-- A thread that has ended holds nothing, unless a release call failed. -/
theorem Accounted.ended_idle {env : Nat → Env → Shared → Prop} {h₀ : List Event} {hs : List Hold} (h : Accounted env cfg h₀ c hs)
    (hf : ∀ e ∈ c.shared.history, e.releaseFailed = false) {t : Nat} {l : Op} {r : Except Error Reply} {hd : Hold}
    (ht : c.threads[t]? = some ⟨l, .ret r⟩) (hhd : hs[t]? = some hd) : hd.tok = .idle := by
  obtain ⟨hd', hhd', hw⟩ := h.ended ht
  cases hhd.symm.trans hhd'
  refine hw.1.resolve_right ?_
  rintro ⟨⟨call, hcall, hm⟩, -⟩
  have := hf _ hm
  rw [Event.releaseFailed, hcall] at this
  cases this

theorem Accounted.atRest {env : Nat → Env → Shared → Prop} {h₀ : List Event} {hs : List Hold}
    (h : Accounted env cfg h₀ c hs) (hq : c.Quiet) (hf : ∀ e ∈ c.shared.history, e.releaseFailed = false) :
    AtRest (tagged hs) := by
  intro x hx
  have hx := mem_tagged.1 hx
  have hlt : x.1 < c.threads.length := by
    rw [← h.length]
    exact (List.getElem?_eq_some_iff.1 hx).1
  obtain ⟨r, hr⟩ := hq c.threads[x.1] (List.getElem_mem hlt)
  have hth : c.threads[x.1]? = some ⟨c.threads[x.1].label, .ret r⟩ := by
    rw [List.getElem?_eq_getElem hlt, ← hr]
  exact h.ended_idle hf hth hx

/-- The host buffers of the ledger are as large as the bytes in use. -/
theorem Inv.host_used (hi : Inv cfg σ T) : σ.host.used = (σ.ledger.host.map Prod.snd).sum := by
  rw [hi.wf.hostUsed, Shared.ledger, Multiset.map_map]
  rfl

theorem Inv.extents_card (hi : Inv cfg σ T) : σ.store.usedExtents = σ.ledger.ext.card := hi.wf.store.count

/-- The extents of a page are as long as the page. -/
theorem WellFormed.card_extents {p : PageMetadata} (hw : WellFormed cfg p) :
    (p.extents cfg).card * cfg.pageSize = if p.nvmeOffset.isSome then p.allocationSize else 0 := by
  obtain ⟨n, -, hn⟩ := hw.size
  rcases ho : p.nvmeOffset with _ | off
  · simp [PageMetadata.extents, ho]
  · simp only [PageMetadata.extents, ho, Extents.card_range, Option.isSome_some, if_true]
    rw [hn, Nat.mul_div_cancel _ cfg.page_pos]

/-- The budgets and the store's counter are the sums over the pages. -/
structure Exact (cfg : RuntimeConfig) (σ : Shared) : Prop where
  vram : σ.vramBudget.used = σ.bytesWith (·.vramPtr.isSome)
  host : σ.host.used = σ.bytesWith (·.hostPtr.isSome)
  nvme : σ.nvmeBudget.used = σ.bytesWith (·.nvmeOffset.isSome)
  extents : σ.nvmeBudget.used = σ.store.usedExtents * cfg.pageSize

theorem Inv.exact (hi : Inv cfg σ T) (hT : AtRest T) : Exact cfg σ := by
  obtain ⟨ids, hl⟩ := hi.ledger_atRest hT
  have hsum {N : Type} [AddCommMonoid N] (g : Res → N) (h0 : g 0 = 0) (hadd : ∀ a b, g (a + b) = g a + g b)
      (hids : g (Res.idsOf ids) = 0) : g σ.ledger = (σ.table.bag.map fun p => g (p.parts cfg)).sum := by
    rw [hl, hadd, hids, add_zero, map_sum_of_add g h0 hadd]
  have hnvme : σ.nvmeBudget.used = σ.bytesWith (·.nvmeOffset.isSome) := by
    rw [bytesWith_eq_sum]
    exact hsum Res.nvme rfl (fun _ _ => rfl) rfl
  refine ⟨?_, ?_, hnvme, ?_⟩
  · rw [bytesWith_eq_sum]
    exact hsum Res.vram rfl (fun _ _ => rfl) rfl
  · rw [hi.host_used, bytesWith_eq_sum, hsum (fun r => (r.host.map Prod.snd).sum) rfl (fun a b => by simp) rfl]
    refine congrArg Multiset.sum (Multiset.map_congr rfl fun p _ => ?_)
    rcases hp : p.hostPtr with _ | ptr <;> simp [PageMetadata.parts, hp]
  · rw [hnvme, bytesWith_eq_sum, hi.extents_card,
      hsum (fun r => r.ext.card * cfg.pageSize) (by simp) (fun a b => by simp [Nat.add_mul]) (by simp [Res.idsOf])]
    refine congrArg Multiset.sum (Multiset.map_congr rfl fun p hp => ?_)
    exact ((hi.pages p hp).ok (hi.not_inFlight hT hp)).record.form.card_extents.symm

/-! ## Every run -/

/-- The budgets are never overshot and no counter wraps, whatever fails; and unless the release of a
buffer failed, they are exact whenever no operation is in progress. -/
theorem budgets_exact (hr : Reached cfg disk c) :
    c.shared.vramBudget.used ≤ cfg.vramLimit - cfg.vramReserve ∧ c.shared.host.used ≤ cfg.hostLimit ∧
      c.shared.nvmeBudget.used ≤ cfg.nvmeLimit ∧ (∀ t, .wrapped t ∉ c.shared.history) ∧
      ((∀ e ∈ c.shared.history, e.releaseFailed = false) → c.Quiet → Exact cfg c.shared) := by
  obtain ⟨hs, h⟩ := reached_accounted hr
  have hi : Inv cfg c.shared (tagged hs) := h.inv
  have hv := hi.wf.vram.used
  have hn := hi.wf.nvme.used
  rw [TierBudget.usable, hi.wf.vramLimit.1, hi.wf.vramLimit.2] at hv
  rw [TierBudget.usable, hi.wf.nvmeLimit.1, hi.wf.nvmeLimit.2, Nat.sub_zero] at hn
  refine ⟨hv, hi.wf.hostLe, hn, fun t hm => ?_, fun hf hq => hi.exact (h.atRest hq hf)⟩
  obtain ⟨pre, post, he⟩ := List.append_of_mem hm
  have := hi.wf.events
  rw [he] at this
  cases Each.of_suffix this

theorem budgets_exact_allocated : ∃ c, Reached (smallConfig 1 1 2) (fun _ => 0) c ∧
    (c.Quiet ∧ ∀ e ∈ c.shared.history, e.releaseFailed = false) ∧ c.shared.vramBudget.used = 4096 ∧
      Exact (smallConfig 1 1 2) c.shared := by
  obtain ⟨c, hr, hq, hf, hu⟩ := reached_of_test (smallConfig 1 1 2) (fun _ => 0)
    (.spawn (.allocate { logicalBytes := 10 }) :: turns 0 10)
    (fun c => c.Quiet ∧ (∀ e ∈ c.shared.history, e.releaseFailed = false) ∧ c.shared.vramBudget.used = 4096) (by decide +kernel)
  exact ⟨c, hr, ⟨hq, hf⟩, hu, (budgets_exact hr).2.2.2.2 hf hq⟩

/-- No internal assertion ever throws, whatever fails. -/
theorem no_assertion (hr : Reached cfg disk c) (t : Nat) (a : Assertion) : .assertion t a ∉ c.shared.history := by
  obtain ⟨T, hi⟩ := reachable_inv hr
  intro hm
  obtain ⟨pre, post, he⟩ := List.append_of_mem hm
  have := hi.wf.events
  rw [he] at this
  cases Each.of_suffix this

theorem no_assertion_allocated : ∃ c, Reached (smallConfig 1 1 2) (fun _ => 0) c ∧ c.shared.history ≠ [] ∧
    .assertion 0 .duplicateId ∉ c.shared.history := by
  obtain ⟨c, hr, hh⟩ := reached_of_test (smallConfig 1 1 2) (fun _ => 0)
    (.spawn (.allocate { logicalBytes := 10 }) :: turns 0 10) (fun c => c.shared.history ≠ []) (by decide +kernel)
  exact ⟨c, hr, hh, no_assertion hr 0 .duplicateId⟩

end FlashTier
