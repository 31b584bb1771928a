/-
What teardown keeps while it releases the pages' handles one by one: every handle in a page's record is live,
no device buffer or extent is live without one, and each handle leaves a record when, and only when, its
backend gave it up. A page's turn of the release loop is put together from one lemma for each of its handles.
-/
import FlashTier.Lifecycle.Teardown
import FlashTier.Guarantees.Accounting

namespace FlashTier

open Conc

variable {cfg : RuntimeConfig} {σ σ' : Shared} {t : Nat} {id : PageId} {p q m : PageMetadata} {x : Res}
  {lost : Multiset (Ptr × Nat)} {exact : Prop}

/-! ## Handles -/

/-- The handles of a page, each with the page's id. -/
def PageMetadata.handles (p : PageMetadata) : Multiset (PageId × Resource) := (p.owned.map (Prod.mk p.id) : List _)

/-- The handles in the records of the table. -/
def Shared.handles (σ : Shared) : Multiset (PageId × Resource) := σ.table.bag.bind PageMetadata.handles

/-- The handle an event gives up. -/
def Event.freedHandle : Event → Option (PageId × Resource)
  | .freed _ id r => some (id, r)
  | _ => none

/-- The handles some events give up. -/
def freedIn (evs : List Event) : Multiset (PageId × Resource) := (evs.filterMap Event.freedHandle : List _)

theorem freedIn_append (a b : List Event) : freedIn (a ++ b) = freedIn a + freedIn b := by
  rw [freedIn, List.filterMap_append]
  rfl

/-- From `σ` to `σ'`, the handles that leave the records are those given up meanwhile. -/
def Sheds (σ σ' : Shared) : Prop := ∃ evs, σ'.history = evs ++ σ.history ∧ σ.handles = σ'.handles + freedIn evs

theorem Sheds.refl (σ : Shared) : Sheds σ σ := ⟨[], rfl, (add_zero _).symm⟩

theorem Sheds.trans {σ₁ σ₂ σ₃ : Shared} : Sheds σ₁ σ₂ → Sheds σ₂ σ₃ → Sheds σ₁ σ₃ := by
  rintro ⟨e₁, h₁, hh₁⟩ ⟨e₂, h₂, hh₂⟩
  refine ⟨e₂ ++ e₁, by rw [h₂, h₁, List.append_assoc], ?_⟩
  rw [hh₁, hh₂, freedIn_append, add_assoc]

theorem Sheds.same {evs : List Event} (hh : σ'.history = evs ++ σ.history) (hf : freedIn evs = 0) (ht : σ'.table = σ.table) :
    Sheds σ σ' :=
  ⟨evs, hh, by rw [hf, add_zero, Shared.handles, Shared.handles, ht]⟩

theorem handles_of_lookup (hl : σ.table.lookup id = some p) : σ.handles = p.handles + (σ.table.erase id).bag.bind PageMetadata.handles := by
  rw [Shared.handles, Keyed.bag_eq_cons hl, Multiset.cons_bind]

/-- A page's record is replaced by one with fewer handles. -/
theorem Sheds.put {evs : List Event} (hl : σ.table.lookup id = some p) (hq : q.id = id) (hh : σ'.history = evs ++ σ.history)
    (ht : σ'.table = σ.table.put q) (hp : p.handles = q.handles + freedIn evs) : Sheds σ σ' := by
  refine ⟨evs, hh, ?_⟩
  rw [handles_of_lookup hl, hp, Shared.handles, ht, Keyed.bag_put, Multiset.cons_bind, hq, add_right_comm]

theorem PageMetadata.nodup_owned (p : PageMetadata) : p.owned.Nodup := by
  unfold PageMetadata.owned
  split <;> split <;> split <;> simp

/-- No handle is in two records, or twice in one. -/
theorem nodup_handles (σ : Shared) : σ.handles.Nodup := by
  rw [Shared.handles, Multiset.nodup_bind]
  refine ⟨fun p _ => Multiset.coe_nodup.2 (p.nodup_owned.map (Prod.mk_right_injective _)), ?_⟩
  have hnd : σ.table.items.Nodup := List.Nodup.of_map _ σ.table.nodup
  refine ⟨σ.table.items, rfl, hnd.pairwise_of_forall_ne fun a ha b hb hab => ?_⟩
  refine Multiset.disjoint_left.2 fun {h} h1 h2 => hab ?_
  obtain ⟨r, -, rfl⟩ := List.mem_map.1 (Multiset.mem_coe.1 h1)
  obtain ⟨r', -, he⟩ := List.mem_map.1 (Multiset.mem_coe.1 h2)
  exact Keyed.eq_of_key (Keyed.mem_bag.2 ha) (Keyed.mem_bag.2 hb) (Prod.mk.inj he).1.symm

/-! ## What the records point to -/

/-- What the records of the table point to. -/
def Shared.total (cfg : RuntimeConfig) (σ : Shared) : Res := (σ.table.bag.map (PageMetadata.parts cfg)).sum

/-- A page's record is replaced by one that points to `x` less. -/
theorem total_put (hl : σ.table.lookup id = some p) (hq : q.id = id) (hx : p.parts cfg = q.parts cfg + x)
    (ht : σ'.table = σ.table.put q) : σ.total cfg = σ'.total cfg + x := by
  rw [Shared.total, Shared.total, ht, Keyed.bag_eq_cons hl, Keyed.bag_put, hq, Multiset.map_cons, Multiset.map_cons,
    Multiset.sum_cons, Multiset.sum_cons, hx, add_right_comm]

/-- A page that points to nothing is erased. -/
theorem total_erase (hl : σ.table.lookup id = some p) (hp : p.parts cfg = 0) (ht : σ'.table = σ.table.erase id) :
    σ.total cfg = σ'.total cfg := by
  rw [Shared.total, Shared.total, ht, Keyed.bag_eq_cons hl, Multiset.map_cons, Multiset.sum_cons, hp, zero_add]

theorem part_total (hp : p ∈ σ.table.bag) : Res.Part (p.parts cfg) (σ.total cfg) := Res.part_sum hp

/-- The size of a page is a number of pages of the store, and its offset that of an extent. -/
structure PageMetadata.Placed (cfg : RuntimeConfig) (p : PageMetadata) : Prop where
  size : ∃ n, 0 < n ∧ p.allocationSize = n * cfg.pageSize
  offset : ∀ off, p.nvmeOffset = some off → ∃ first, off = (first + 1) * cfg.pageSize

/-- The backends hold what the records point to, and `lost` host buffers besides. The device budget and the
store's operations are accounted for if `exact`. -/
structure Owned (cfg : RuntimeConfig) (lost : Multiset (Ptr × Nat)) (exact : Prop) (σ : Shared) : Prop where
  host : σ.ledger.host = (σ.total cfg).host + lost
  dev : σ.ledger.dev = (σ.total cfg).dev
  ext : σ.ledger.ext = (σ.total cfg).ext
  nvme : σ.nvmeBudget.used = (σ.total cfg).nvme
  vram : exact → σ.vramBudget.used = (σ.total cfg).vram
  io : exact → σ.store.ioBag = 0
  placed : ∀ p ∈ σ.table.bag, p.Placed cfg
  hostUsed : σ.host.used = (σ.host.allocations.bag.map HostAllocation.bytes).sum
  store : (∃ p ∈ σ.table.bag, p.nvmeOffset.isSome) → σ.store.Ok ∧ σ.store.pageSize = cfg.pageSize

/-- Only what the accounts do not mention changes. -/
theorem Owned.same (h : Owned cfg lost exact σ) (ht : σ'.table = σ.table) (hh : σ'.host = σ.host) (hd : σ'.device = σ.device)
    (hs : σ'.store = σ.store) (hn : σ'.nvmeBudget = σ.nvmeBudget) (hv : σ'.vramBudget = σ.vramBudget) : Owned cfg lost exact σ' := by
  have htotal : σ'.total cfg = σ.total cfg := by rw [Shared.total, Shared.total, ht]
  refine ⟨?_, ?_, ?_, by rw [hn, htotal]; exact h.nvme, by rw [hv, htotal]; exact h.vram, by rw [hs]; exact h.io,
    by rw [ht]; exact h.placed, by rw [hh]; exact h.hostUsed, by rw [ht, hs]; exact h.store⟩
  · rw [htotal, ← h.host]
    simp only [Shared.ledger, hh]
  · rw [htotal, ← h.dev]
    simp only [Shared.ledger, hd]
  · rw [htotal, ← h.ext]
    simp only [Shared.ledger, hs]

theorem Owned.log (h : Owned cfg lost exact σ) (e : Event) : Owned cfg lost exact (σ.log e) := h.same rfl rfl rfl rfl rfl rfl

theorem placed_put (h : ∀ p ∈ σ.table.bag, p.Placed cfg) (hq : q.Placed cfg) (ht : σ'.table = σ.table.put q) :
    ∀ p ∈ σ'.table.bag, p.Placed cfg := by
  rw [ht, Keyed.bag_put]
  intro p hp
  rcases Multiset.mem_cons.1 hp with rfl | hp
  · exact hq
  · exact h p (Keyed.mem_erase.1 hp).1

theorem nvme_put (hl : σ.table.lookup id = some p) (hn : q.nvmeOffset.isSome → p.nvmeOffset.isSome) (ht : σ'.table = σ.table.put q)
    (h : ∃ p ∈ σ'.table.bag, p.nvmeOffset.isSome) : ∃ p ∈ σ.table.bag, p.nvmeOffset.isSome := by
  obtain ⟨r, hr, hs⟩ := h
  rw [ht, Keyed.bag_put] at hr
  rcases Multiset.mem_cons.1 hr with rfl | hr
  · exact ⟨p, (Keyed.lookup_some.1 hl).1, hn hs⟩
  · exact ⟨r, (Keyed.mem_erase.1 hr).1, hs⟩

/-! ## The calls -/

/-- The host buffer a record points to is live. -/
theorem Owned.lookupHost (h : Owned cfg lost exact σ) (hl : σ.table.lookup id = some p) {ptr : Ptr} (hp : p.hostPtr = some ptr) :
    ∃ a, σ.host.allocations.lookup ptr = some a ∧ a.ptr = ptr ∧ a.bytes = p.allocationSize := by
  refine Shared.lookup_host rfl ?_
  rw [h.host]
  refine Multiset.mem_add.2 (.inl ((part_total (Keyed.lookup_some.1 hl).1).mem_host ?_))
  simp [PageMetadata.parts, hp]

theorem Owned.lookupDev (h : Owned cfg lost exact σ) (hl : σ.table.lookup id = some p) {ptr : Ptr} (hp : p.vramPtr = some ptr) :
    ∃ a, σ.device.lookup ptr = some a ∧ a.ptr = ptr ∧ a.bytes = p.allocationSize := by
  refine Shared.lookup_dev rfl ?_
  rw [h.dev]
  refine (part_total (Keyed.lookup_some.1 hl).1).mem_dev ?_
  simp [PageMetadata.parts, hp]

theorem Owned.hostTier (h : Owned cfg lost exact σ) (hl : σ.table.lookup id = some p) {ptr : Ptr} (hp : p.hostPtr = some ptr) (ω : Env) :
    ∃ a, σ.host.allocations.lookup ptr = some a ∧ allocationTier ptr t ω σ = (.ok a.tier, σ) := by
  obtain ⟨a, ha, -, -⟩ := h.lookupHost hl hp
  refine ⟨a, ha, ?_⟩
  simp only [allocationTier, HostBackend.allocationTier, ha, Option.map_some]
  rfl

/-- A live host buffer is freed, unless the device's allocator throws. -/
theorem Owned.hostFree (h : Owned cfg lost exact σ) (hl : σ.table.lookup id = some p) {ptr : Ptr} (hp : p.hostPtr = some ptr) (ω : Env) :
    ∃ a, σ.host.allocations.lookup ptr = some a ∧ a.ptr = ptr ∧ a.bytes = p.allocationSize ∧
      ((∃ e, a.pinned = true ∧ ω.pinnedFree = some e ∧
          FlashTier.hostFree ptr p.allocationSize t ω σ = (.error e, σ.log (.failed t .hostFree))) ∨
        FlashTier.hostFree ptr p.allocationSize t ω σ = (.ok (), σ.dropHost a)) := by
  obtain ⟨a, ha, rfl, hb⟩ := h.lookupHost hl hp
  refine ⟨a, ha, rfl, hb, ?_⟩
  have hle : a.bytes ≤ σ.host.used := by
    rw [h.hostUsed, Keyed.bag_eq_cons ha, Multiset.map_cons, Multiset.sum_cons]
    exact Nat.le_add_right _ _
  unfold FlashTier.hostFree
  simp only [ha, ← hb, ne_eq, not_true_eq_false, if_false]
  cases hpin : a.pinned with
  | false => exact .inr (by simp only [Bool.false_eq_true, if_false]; rw [noteWrap_of_not _ _ (by omega)])
  | true =>
    rcases hf : ω.pinnedFree with _ | e
    · exact .inr (by simp only [if_true]; rw [noteWrap_of_not _ _ (by omega)])
    · exact .inl ⟨e, rfl, rfl, rfl⟩

/-- The record without its host buffer, once the buffer is freed. -/
theorem Owned.shedHost (h : Owned cfg lost exact σ) (hl : σ.table.lookup p.id = some p) {a : HostAllocation} (hp : p.hostPtr = some a.ptr)
    (hb : a.bytes = p.allocationSize) (ha : σ.host.allocations.lookup a.ptr = some a) :
    Owned cfg lost exact (((σ.dropHost a).log (.freed t p.id .host)).setPage { p with hostPtr := none }) := by
  have hx : p.parts cfg = ({ p with hostPtr := none } : PageMetadata).parts cfg + Res.hostBuf a.ptr p.allocationSize :=
    parts_host rfl rfl hp rfl rfl
  have htotal : σ.total cfg = (((σ.dropHost a).log (.freed t p.id .host)).setPage { p with hostPtr := none }).total cfg +
      Res.hostBuf a.ptr p.allocationSize := total_put (q := { p with hostPtr := none }) hl rfl hx rfl
  have ht := Res.ext_iff'.1 htotal
  have hbag := Keyed.bag_eq_cons ha
  have hused : a.bytes ≤ σ.host.used := by
    rw [h.hostUsed, hbag, Multiset.map_cons, Multiset.sum_cons]
    exact Nat.le_add_right _ _
  refine ⟨?_, ?_, ?_, ?_, fun he => ?_, h.io, placed_put h.placed ?_ rfl, ?_, fun hs => h.store (nvme_put (q := { p with hostPtr := none }) hl (fun h => h) rfl hs)⟩
  · have hhost := h.host
    rw [ht.1] at hhost
    simp only [Shared.ledger, hbag, Multiset.map_cons] at hhost
    rw [hb, ← Multiset.singleton_add, Res.add_host, add_right_comm, add_comm] at hhost
    exact add_right_cancel hhost
  · exact h.dev.trans (ht.2.1.trans (by simp [Res.hostBuf]))
  · exact h.ext.trans (ht.2.2.2.2.1.trans (by simp [Res.hostBuf]))
  · exact h.nvme.trans (ht.2.2.2.1.trans (by simp [Res.hostBuf]))
  · exact (h.vram he).trans (ht.2.2.1.trans (by simp [Res.hostBuf]))
  · obtain ⟨hsize, hoff⟩ := h.placed p (Keyed.lookup_some.1 hl).1
    exact ⟨hsize, hoff⟩
  · show u64Sub σ.host.used a.bytes = ((σ.host.allocations.erase a.ptr).bag.map HostAllocation.bytes).sum
    have hsum := h.hostUsed
    rw [hbag, Multiset.map_cons, Multiset.sum_cons] at hsum
    rw [u64Sub_of_le hused, hsum, Nat.add_sub_cancel_left]

/-- The record without its device buffer, once the buffer is freed and the budget left with `b`. -/
theorem Owned.shedDev (h : Owned cfg lost exact σ) (hl : σ.table.lookup p.id = some p) {ptr : Ptr} (hp : p.vramPtr = some ptr)
    (b : TierBudget) (hb : exact → σ.vramBudget.used = b.used + p.allocationSize) :
    Owned cfg lost exact ((((σ.dropDev ptr).log (.freed t p.id .vram)).setPage { p with vramPtr := none }).setVram b) := by
  obtain ⟨a, ha, rfl, hbytes⟩ := h.lookupDev hl hp
  have hx : p.parts cfg = ({ p with vramPtr := none } : PageMetadata).parts cfg +
      (Res.vramOf p.allocationSize + Res.devBuf a.ptr p.allocationSize) := by
    rw [← add_assoc]
    exact parts_vram rfl rfl rfl hp rfl
  have htotal : σ.total cfg = ((((σ.dropDev a.ptr).log (.freed t p.id .vram)).setPage { p with vramPtr := none }).setVram b).total cfg +
      (Res.vramOf p.allocationSize + Res.devBuf a.ptr p.allocationSize) := total_put (q := { p with vramPtr := none }) hl rfl hx rfl
  have ht := Res.ext_iff'.1 htotal
  have hbag := Keyed.bag_eq_cons ha
  refine ⟨?_, ?_, ?_, ?_, fun he => ?_, h.io, placed_put h.placed ?_ rfl, h.hostUsed,
    fun hs => h.store (nvme_put (q := { p with vramPtr := none }) hl (fun h => h) rfl hs)⟩
  · exact h.host.trans (by rw [ht.1]; simp [Res.vramOf, Res.devBuf])
  · have hdev := h.dev
    rw [ht.2.1] at hdev
    simp only [Shared.ledger, hbag, Multiset.map_cons] at hdev
    rw [hbytes, ← Multiset.singleton_add, add_comm] at hdev
    refine add_right_cancel (b := {(a.ptr, p.allocationSize)}) (hdev.trans ?_)
    simp [Res.vramOf, Res.devBuf]
  · exact h.ext.trans (ht.2.2.2.2.1.trans (by simp [Res.vramOf, Res.devBuf]))
  · exact h.nvme.trans (ht.2.2.2.1.trans (by simp [Res.vramOf, Res.devBuf]))
  · have hv := ht.2.2.1
    rw [← h.vram he, hb he] at hv
    exact Nat.add_right_cancel (hv.trans (by simp [Res.vramOf, Res.devBuf]))
  · obtain ⟨hsize, hoff⟩ := h.placed p (Keyed.lookup_some.1 hl).1
    exact ⟨hsize, hoff⟩

/-- The bytes a page holds of the device budget are in use. -/
theorem Owned.vramLe (h : Owned cfg lost exact σ) (he : exact) (hl : σ.table.lookup id = some p) (hp : p.vramPtr.isSome) :
    p.allocationSize ≤ σ.vramBudget.used := by
  obtain ⟨rest, hr⟩ : Res.Part (p.parts cfg) (σ.total cfg) := part_total (Keyed.lookup_some.1 hl).1
  rw [h.vram he, hr, Res.add_vram]
  simp [PageMetadata.parts, hp]

theorem Owned.nvmeLe (h : Owned cfg lost exact σ) (hl : σ.table.lookup id = some p) (hp : p.nvmeOffset.isSome) :
    p.allocationSize ≤ σ.nvmeBudget.used := by
  obtain ⟨rest, hr⟩ : Res.Part (p.parts cfg) (σ.total cfg) := part_total (Keyed.lookup_some.1 hl).1
  rw [h.nvme, hr, Res.add_nvme]
  simp [PageMetadata.parts, hp]

/-- The record without its extents, once they are free and their bytes released. -/
theorem Owned.shedNvme (h : Owned cfg lost exact σ) (hl : σ.table.lookup p.id = some p) {first n : Nat}
    (hp : p.nvmeOffset = some ((first + 1) * cfg.pageSize)) (hsize : p.allocationSize = n * cfg.pageSize) {s : Extents}
    (hs : Extents.Freed σ.store s first n) :
    Owned cfg lost exact ((((σ.setStore s).log (.freed t p.id .nvme)).setPage { p with nvmeOffset := none, hasNvmeCopy := false }).setNvme
      { σ.nvmeBudget with used := σ.nvmeBudget.used - p.allocationSize }) := by
  have hx : p.parts cfg = ({ p with nvmeOffset := none, hasNvmeCopy := false } : PageMetadata).parts cfg +
      (Res.nvmeOf p.allocationSize + Res.extOf (Extents.range first n)) := by
    rw [← add_assoc]
    exact parts_nvme rfl rfl rfl rfl hp hsize
  have htotal : σ.total cfg = ((((σ.setStore s).log (.freed t p.id .nvme)).setPage { p with nvmeOffset := none, hasNvmeCopy := false }).setNvme
      { σ.nvmeBudget with used := σ.nvmeBudget.used - p.allocationSize }).total cfg +
      (Res.nvmeOf p.allocationSize + Res.extOf (Extents.range first n)) :=
    total_put (q := { p with nvmeOffset := none, hasNvmeCopy := false }) hl rfl hx rfl
  have ht := Res.ext_iff'.1 htotal
  have hpsize := (h.store ⟨p, (Keyed.lookup_some.1 hl).1, by rw [hp]; rfl⟩).2
  refine ⟨?_, ?_, ?_, ?_, fun he => ?_, fun he => ?_, placed_put h.placed ?_ rfl, h.hostUsed, fun _ => ?_⟩
  · exact h.host.trans (by rw [ht.1]; simp [Res.nvmeOf, Res.extOf])
  · exact h.dev.trans (ht.2.1.trans (by simp [Res.nvmeOf, Res.extOf]))
  · have hext := h.ext
    rw [ht.2.2.2.2.1, show σ.ledger.ext = Extents.range first n + s.usedBag from hs.bag, add_comm] at hext
    refine add_right_cancel (b := Extents.range first n) (hext.trans ?_)
    simp [Res.nvmeOf, Res.extOf]
  · have hn := ht.2.2.2.1
    rw [← h.nvme] at hn
    exact Nat.sub_eq_of_eq_add (hn.trans (by simp [Res.nvmeOf, Res.extOf]))
  · exact (h.vram he).trans (ht.2.2.1.trans (by simp [Res.nvmeOf, Res.extOf]))
  · exact (Extents.ioBag_congr hs.geometry.2 hs.io).trans (h.io he)
  · obtain ⟨hpos, -⟩ := h.placed p (Keyed.lookup_some.1 hl).1
    exact ⟨hpos, fun _ hx => absurd hx (Option.some_ne_none _).symm⟩
  · exact ⟨hs.ok, hs.geometry.1.trans hpsize⟩

/-- A page with no handle left is erased. -/
theorem Owned.erase (h : Owned cfg lost exact σ) (hl : σ.table.lookup id = some p) (hp : p.owned = []) :
    Owned cfg lost exact (σ.erasePage id) := by
  have hnone : p.hostPtr = none ∧ p.vramPtr = none ∧ p.nvmeOffset = none := by
    simp only [PageMetadata.owned, List.append_eq_nil_iff] at hp
    obtain ⟨⟨hv, hh⟩, hn⟩ := hp
    refine ⟨?_, ?_, ?_⟩
    · by_contra hne
      rw [if_pos (Option.isSome_iff_ne_none.2 hne)] at hh
      cases hh
    · by_contra hne
      rw [if_pos (Option.isSome_iff_ne_none.2 hne)] at hv
      cases hv
    · by_contra hne
      rw [if_pos (Option.isSome_iff_ne_none.2 hne)] at hn
      cases hn
  have htotal : σ.total cfg = (σ.erasePage id).total cfg :=
    total_erase hl (parts_none hnone.1 hnone.2.1 hnone.2.2) rfl
  refine ⟨by rw [← htotal]; exact h.host, by rw [← htotal]; exact h.dev, by rw [← htotal]; exact h.ext,
    by rw [← htotal]; exact h.nvme, fun he => by rw [← htotal]; exact h.vram he, h.io,
    fun q hq => h.placed q (Keyed.mem_erase.1 hq).1, h.hostUsed, fun ⟨q, hq, hs⟩ => h.store ⟨q, (Keyed.mem_erase.1 hq).1, hs⟩⟩

end FlashTier
