/-
Which copies of a page exist: in every reachable state each page of the table has the pointers its
state promises, all of them live, at most one thread owns it, and two pages share nothing, unless one
of them is being released: `free_page` gives a buffer or a range back before it clears the field.
-/
import FlashTier.Guarantees.Accounting

namespace FlashTier

open Conc

variable {cfg : RuntimeConfig} {disk : Bytes} {c : Runtime} {σ : Shared} {T : Multiset (Nat × Hold)} {p q : PageMetadata}

/-- `free_page` is giving the page's resources back. -/
def PageMetadata.Releasing (p : PageMetadata) : Prop := p.state = .released ∧ p.inFlight = true

instance (p : PageMetadata) : Decidable p.Releasing := inferInstanceAs (Decidable (_ ∧ _))

/-! ## Who accounts for a page -/

/-- Whoever accounts for resources: a page at rest or a thread. -/
def shareOf (cfg : RuntimeConfig) : PageMetadata ⊕ (Nat × Hold) → Res
  | .inl p => p.foot cfg
  | .inr x => x.2.own cfg

/-- All of them. -/
def sharers (σ : Shared) (T : Multiset (Nat × Hold)) : Multiset (PageMetadata ⊕ (Nat × Hold)) :=
  σ.table.bag.map .inl + T.map .inr

theorem Inv.sum_sharers (hi : Inv cfg σ T) : σ.ledger = ((sharers σ T).map (shareOf cfg)).sum := by
  rw [hi.acc, zero_add, sharers, Multiset.map_add, Multiset.sum_add, Multiset.map_map, Multiset.map_map]
  rfl

/-- The thread that has taken a page. -/
theorem Inv.owner (hi : Inv cfg σ T) (hp : p ∈ σ.table.bag) (hf : p.inFlight = true) : ∃ x ∈ T, p.core ∈ x.2.claim := by
  have hm : p.core ∈ σ.table.bag.bind PageMetadata.claim := Multiset.mem_bind.2 ⟨p, hp, mem_claim.2 ⟨hf, rfl⟩⟩
  rw [show σ.table.bag.bind PageMetadata.claim = _ from hi.claims] at hm
  exact Multiset.mem_bind.1 hm

theorem Inv.taken (hi : Inv cfg σ T) {x : Nat × Hold} (hx : x ∈ T) {m : PageMetadata} (hm : m ∈ x.2.claim) :
    Taken cfg σ x.1 m ∧ (m.state.transfer = true ∨ m.state = .released) := by
  have hok := hi.holds x hx
  obtain ⟨t, tok, ids⟩ := x
  cases tok with
  | moving m' tier stage =>
    cases Multiset.mem_singleton.1 hm
    exact ⟨hok.1, .inl hok.2.1⟩
  | releasing m' left =>
    cases Multiset.mem_singleton.1 hm
    exact ⟨hok.1, .inr hok.2.1⟩
  | _ => exact absurd hm (Multiset.notMem_zero m)

/-- A thread has taken one page at most. -/
theorem Hold.claim_inj {h : Hold} {m m' : PageMetadata} (hm : m ∈ h.claim) (hm' : m' ∈ h.claim) : m = m' := by
  obtain ⟨tok, ids⟩ := h
  cases tok with
  | moving | releasing => exact (Multiset.mem_singleton.1 hm).trans (Multiset.mem_singleton.1 hm').symm
  | _ => exact absurd hm (Multiset.notMem_zero m)

/-- The page accounts for itself, or the thread that took it does. -/
def Sharer (p : PageMetadata) : PageMetadata ⊕ (Nat × Hold) → Prop
  | .inl q => q = p
  | .inr x => p.core ∈ x.2.claim

theorem Sharer.id_eq {u : PageMetadata ⊕ (Nat × Hold)} (hp : Sharer p u) (hq : Sharer q u) : p.id = q.id := by
  cases u with
  | inl r => exact congrArg PageMetadata.id ((Eq.symm hp).trans hq)
  | inr x =>
    have h : p.core = q.core := Hold.claim_inj hp hq
    show p.core.id = q.core.id
    rw [h]

/-- A page that is not being released is covered by the share of who accounts for it. -/
theorem Inv.sharer (hi : Inv cfg σ T) (hp : p ∈ σ.table.bag) (hr : ¬p.Releasing) :
    ∃ u ∈ sharers σ T, Sharer p u ∧ Covers cfg (shareOf cfg u) p := by
  by_cases hf : p.inFlight = true
  · obtain ⟨x, hx, hm⟩ := hi.owner hp hf
    refine ⟨.inr x, Multiset.mem_add.2 (.inr (Multiset.mem_map_of_mem _ hx)), hm, ?_⟩
    have hok := hi.holds x hx
    obtain ⟨t, tok, ids⟩ := x
    cases tok with
    | moving m tier stage =>
      cases Multiset.mem_singleton.1 hm
      have hc : Covers cfg (Hold.own cfg ⟨.moving p.core tier stage, ids⟩) p.core := (covers_stage p.core stage).mono (Res.part_add_left ..)
      exact ⟨hc.host, hc.dev, hc.ext⟩
    | releasing m left =>
      cases Multiset.mem_singleton.1 hm
      exact absurd ⟨hok.2.1, hf⟩ hr
    | _ => exact absurd hm (Multiset.notMem_zero p.core)
  · refine ⟨.inl p, Multiset.mem_add.2 (.inl (Multiset.mem_map_of_mem _ hp)), rfl, ?_⟩
    rw [shareOf, PageMetadata.foot, if_neg hf]
    exact covers_parts p

theorem Inv.covered (hi : Inv cfg σ T) (hp : p ∈ σ.table.bag) (hr : ¬p.Releasing) : Covers cfg σ.ledger p := by
  obtain ⟨u, hu, -, hc⟩ := hi.sharer hp hr
  rw [hi.sum_sharers]
  exact hc.mono (Res.part_sum hu)

/-- Two pages that are not being released are covered by disjoint parts of the ledger. -/
theorem Inv.apart (hi : Inv cfg σ T) (hp : p ∈ σ.table.bag) (hq : q ∈ σ.table.bag) (hne : p.id ≠ q.id)
    (hrp : ¬p.Releasing) (hrq : ¬q.Releasing) : ∃ a b, σ.ledger = a + b ∧ Covers cfg a p ∧ Covers cfg b q := by
  obtain ⟨u, hu, hup, hcu⟩ := hi.sharer hp hrp
  obtain ⟨v, hv, hvq, hcv⟩ := hi.sharer hq hrq
  have huv : v ≠ u := fun h => hne (hup.id_eq (h ▸ hvq))
  obtain ⟨s, hs⟩ := Multiset.exists_cons_of_mem hu
  rw [hs] at hv
  have hv := (Multiset.mem_cons.1 hv).resolve_left huv
  refine ⟨shareOf cfg u, (s.map (shareOf cfg)).sum, ?_, hcu, hcv.mono (Res.part_sum hv)⟩
  rw [hi.sum_sharers, hs, Multiset.map_cons, Multiset.sum_cons]

/-! ## Single authority -/

/-- The copies of a page are those its state names, they are live, and one thread owns the page exactly
while it is in flight, which it is in a transfer state or during a release. -/
structure SingleAuthority (cfg : RuntimeConfig) (c : Runtime) (p : PageMetadata) : Prop where
  shape : p.Shape
  vram : ¬p.Releasing → ∀ ptr, p.vramPtr = some ptr → (c.shared.device.lookup ptr).isSome
  host : ¬p.Releasing → ∀ ptr, p.hostPtr = some ptr → (c.shared.host.allocations.lookup ptr).isSome
  extents : ¬p.Releasing → ∀ i ∈ p.extents cfg, c.shared.store.used i = true
  tier : p.state = .residentHost → ∀ ptr, p.hostPtr = some ptr → c.shared.host.allocationTier ptr = some p.currentTier
  dirty : p.dirty = true → p.hasNvmeCopy = false
  copy : p.hasNvmeCopy = true → p.nvmeOffset.isSome
  owned : p.inFlight = true → (p.state.transfer = true ∨ p.state = .released) ∧
    ∃ t, ownersIn c.shared.history p.id = [t] ∧ c.Running t
  free : p.inFlight = false → p.state.transfer = false ∧ ownersIn c.shared.history p.id = []

/-- Two pages have no place in common. -/
structure Apart (cfg : RuntimeConfig) (p q : PageMetadata) : Prop where
  vram : ∀ ptr, p.vramPtr = some ptr → q.vramPtr ≠ some ptr
  host : ∀ ptr, p.hostPtr = some ptr → q.hostPtr ≠ some ptr
  extents : ∀ i ∈ p.extents cfg, i ∉ q.extents cfg

theorem Inv.apart_pages (hi : Inv cfg σ T) (hp : p ∈ σ.table.bag) (hq : q ∈ σ.table.bag) (hne : p.id ≠ q.id)
    (hrp : ¬p.Releasing) (hrq : ¬q.Releasing) : Apart cfg p q := by
  obtain ⟨a, b, hl, ha, hb⟩ := hi.apart hp hq hne hrp hrq
  refine ⟨fun ptr h1 h2 => ?_, fun ptr h1 h2 => ?_, fun i h1 h2 => ?_⟩
  · exact Shared.dev_ne hl (ha.dev ptr h1) (hb.dev ptr h2)
  · exact Shared.host_ne hl (ha.host ptr h1) (hb.host ptr h2)
  · exact Shared.ext_ne hl (ha.ext i h1) (hb.ext i h2)

/-- A thread that holds a page has not ended, unless a release call of it failed. -/
theorem Accounted.running {env : Nat → Env → Shared → Prop} {h₀ : List Event} {hs : List Hold} (h : Accounted env cfg h₀ c hs)
    (hf : ∀ e ∈ c.shared.history, e.releaseFailed = false) {x : Nat × Hold} (hx : x ∈ tagged hs) (hc : x.2.claim ≠ 0) :
    c.Running x.1 := by
  have hx := mem_tagged.1 hx
  have hlt : x.1 < c.threads.length := by
    rw [← h.length]
    exact (List.getElem?_eq_some_iff.1 hx).1
  refine ⟨c.threads[x.1], List.getElem?_eq_getElem hlt, fun r hr => hc ?_⟩
  have hth : c.threads[x.1]? = some ⟨c.threads[x.1].label, .ret r⟩ := by
    rw [List.getElem?_eq_getElem hlt, ← hr]
  rw [Hold.claim, h.ended_idle hf hth hx]
  rfl

/-- The thread that has taken a page is still running, unless a release call failed. -/
theorem Accounted.owner {env : Nat → Env → Shared → Prop} {h₀ : List Event} {hs : List Hold} (h : Accounted env cfg h₀ c hs)
    (hf : ∀ e ∈ c.shared.history, e.releaseFailed = false) (hp : p ∈ c.shared.table.bag) (hfl : p.inFlight = true) :
    (p.state.transfer = true ∨ p.state = .released) ∧ ∃ t, ownersIn c.shared.history p.id = [t] ∧ c.Running t := by
  have hi : Inv cfg c.shared (tagged hs) := h.inv
  obtain ⟨x, hx, hm⟩ := hi.owner hp hfl
  have ht := hi.taken hx hm
  refine ⟨ht.2, x.1, ht.1.owners, h.running hf hx fun h0 => ?_⟩
  rw [h0] at hm
  exact Multiset.notMem_zero _ hm

/-- The record of a page is right, at rest or taken. -/
theorem Inv.record (hi : Inv cfg σ T) (hp : p ∈ σ.table.bag) : RecordOk cfg σ p := by
  by_cases hf : p.inFlight = true
  · obtain ⟨x, hx, hm⟩ := hi.owner hp hf
    exact (hi.taken hx hm).1.record.of_core
  · exact ((hi.pages p hp).ok (by simpa using hf)).record

/-- Unless the release of a buffer failed, every page has a single authority, and no two pages that are
not being released share a buffer or an extent. -/
theorem single_authority (hr : Reached cfg disk c) (hf : ∀ e ∈ c.shared.history, e.releaseFailed = false) :
    (∀ p ∈ c.shared.table.items, SingleAuthority cfg c p) ∧
      ∀ p ∈ c.shared.table.items, ∀ q ∈ c.shared.table.items, p.id ≠ q.id → ¬p.Releasing → ¬q.Releasing → Apart cfg p q := by
  obtain ⟨hs, h⟩ := reached_accounted hr
  have hi : Inv cfg c.shared (tagged hs) := h.inv
  refine ⟨fun p hp => ?_, fun p hp q hq hne hrp hrq => hi.apart_pages (Keyed.mem_bag.2 hp) (Keyed.mem_bag.2 hq) hne hrp hrq⟩
  have hp := Keyed.mem_bag.2 hp
  have hw := (hi.record hp).form
  refine ⟨hw.shape, fun hrel ptr hv => ?_, fun hrel ptr hh => ?_, fun hrel i hm => ?_, fun hst ptr hh => ?_, hw.dirty, hw.copy,
    fun hfl => ?_, fun hfl => ?_⟩
  · obtain ⟨a, ha, -⟩ := Shared.lookup_dev rfl ((hi.covered hp hrel).dev ptr hv)
    rw [ha]; rfl
  · obtain ⟨a, ha, -⟩ := Shared.lookup_host rfl ((hi.covered hp hrel).host ptr hh)
    rw [ha]; rfl
  · exact (Extents.mem_usedBag.1 ((hi.covered hp hrel).ext i hm)).2
  · have hfl : p.inFlight = false := by
      by_contra hfl
      obtain ⟨x, hx, hm⟩ := hi.owner hp (by simpa using hfl)
      have hst' : p.core.state = .residentHost := hst
      rcases (hi.taken hx hm).2 with ht | ht <;> rw [hst'] at ht <;> cases ht
    exact ((hi.pages p hp).ok hfl).tier hst ptr hh
  · exact h.owner hf hp hfl
  · have hok := (hi.pages p hp).ok hfl
    exact ⟨hok.rest, hok.owners⟩

/-- A page in host memory and one in the store. -/
def twoPages : List (Move Env Op) :=
  .spawn (.allocate { logicalBytes := 10 }) :: turns 0 6 ++ .spawn (.allocate { logicalBytes := 10 }) :: turns 1 5

theorem single_authority_twoPages : ∃ c, Reached (smallConfig 0 1 2) (fun _ => 0) c ∧
    (∀ e ∈ c.shared.history, e.releaseFailed = false) ∧ ∃ p ∈ c.shared.table.items, ∃ q ∈ c.shared.table.items,
      (p.state = .residentHost ∧ q.state = .residentNvme) ∧ SingleAuthority (smallConfig 0 1 2) c p ∧
        Apart (smallConfig 0 1 2) p q := by
  obtain ⟨c, hr, hf, p, hp, q, hq, hst, hne, hrp, hrq⟩ := reached_of_test (smallConfig 0 1 2) (fun _ => 0) twoPages
    (fun c => (∀ e ∈ c.shared.history, e.releaseFailed = false) ∧ ∃ p ∈ c.shared.table.items, ∃ q ∈ c.shared.table.items,
      (p.state = .residentHost ∧ q.state = .residentNvme) ∧ p.id ≠ q.id ∧ ¬p.Releasing ∧ ¬q.Releasing) (by decide +kernel)
  have h := single_authority hr hf
  exact ⟨c, hr, hf, p, hp, q, hq, hst, h.1 p hp, h.2 p hp q hq hne hrp hrq⟩

/-- The extent of a page that `free_page` is releasing is allocated to a new page while the old one still
points to it. -/
theorem released_extent_shared : ∃ c, Reached (smallConfig 0 1 2) (fun _ => 0) c ∧
    (∀ e ∈ c.shared.history, e.callFailed = false) ∧ ∃ p ∈ c.shared.table.items, ∃ q ∈ c.shared.table.items,
      p.id ≠ q.id ∧ p.nvmeOffset = some 8192 ∧ q.nvmeOffset = some 8192 ∧ p.Releasing ∧ q.state = .residentNvme :=
  reached_of_test (smallConfig 0 1 2) (fun _ => 0)
    (twoPages ++ .spawn (.free 2) :: turns 2 4 ++ .spawn (.allocate { logicalBytes := 10 }) :: turns 3 5) _ (by decide +kernel)

end FlashTier
