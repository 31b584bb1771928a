/-
The ledger: what a page or a thread accounts for (host and device buffers, bytes of the device and
store budgets, extents, active operations, page ids issued and not used), and that the backends and
budgets hold exactly the sum of it.
-/
import FlashTier.Invariant.History
import Mathlib.Algebra.BigOperators.Group.Multiset.Basic
import Mathlib.Data.Multiset.Bind

namespace FlashTier

open Conc

/-! ## Resources -/

/-- A share of the runtime's resources. -/
structure Res where
  host : Multiset (Ptr × Nat) := 0
  dev : Multiset (Ptr × Nat) := 0
  vram : Nat := 0
  nvme : Nat := 0
  ext : Multiset Nat := 0
  io : Multiset Nat := 0
  ids : Multiset PageId := 0

namespace Res

theorem ext_iff' {a b : Res} : a = b ↔ a.host = b.host ∧ a.dev = b.dev ∧ a.vram = b.vram ∧ a.nvme = b.nvme ∧
    a.ext = b.ext ∧ a.io = b.io ∧ a.ids = b.ids := by
  cases a; cases b; simp

instance : Zero Res := ⟨{}⟩

instance : Add Res := ⟨fun a b =>
  ⟨a.host + b.host, a.dev + b.dev, a.vram + b.vram, a.nvme + b.nvme, a.ext + b.ext, a.io + b.io, a.ids + b.ids⟩⟩

@[simp] theorem zero_host : (0 : Res).host = 0 := rfl
@[simp] theorem zero_dev : (0 : Res).dev = 0 := rfl
@[simp] theorem zero_vram : (0 : Res).vram = 0 := rfl
@[simp] theorem zero_nvme : (0 : Res).nvme = 0 := rfl
@[simp] theorem zero_ext : (0 : Res).ext = 0 := rfl
@[simp] theorem zero_io : (0 : Res).io = 0 := rfl
@[simp] theorem zero_ids : (0 : Res).ids = 0 := rfl

@[simp] theorem add_host (a b : Res) : (a + b).host = a.host + b.host := rfl
@[simp] theorem add_dev (a b : Res) : (a + b).dev = a.dev + b.dev := rfl
@[simp] theorem add_vram (a b : Res) : (a + b).vram = a.vram + b.vram := rfl
@[simp] theorem add_nvme (a b : Res) : (a + b).nvme = a.nvme + b.nvme := rfl
@[simp] theorem add_ext (a b : Res) : (a + b).ext = a.ext + b.ext := rfl
@[simp] theorem add_io (a b : Res) : (a + b).io = a.io + b.io := rfl
@[simp] theorem add_ids (a b : Res) : (a + b).ids = a.ids + b.ids := rfl

instance : AddCommMonoid Res where
  add_assoc a b c := by simp [ext_iff', add_assoc]
  zero_add a := by simp [ext_iff']
  add_zero a := by simp [ext_iff']
  add_comm a b := by simp [ext_iff', add_comm]
  nsmul := nsmulRec

instance : IsLeftCancelAdd Res where
  add_left_cancel a b c h := by
    rw [ext_iff'] at h ⊢
    simpa using h

/-- A host buffer. -/
def hostBuf (ptr : Ptr) (bytes : Nat) : Res := { host := {(ptr, bytes)} }
/-- A device buffer. -/
def devBuf (ptr : Ptr) (bytes : Nat) : Res := { dev := {(ptr, bytes)} }
/-- Bytes of the device budget. -/
def vramOf (bytes : Nat) : Res := { vram := bytes }
/-- Bytes of the store budget. -/
def nvmeOf (bytes : Nat) : Res := { nvme := bytes }
/-- Allocated extents. -/
def extOf (e : Multiset Nat) : Res := { ext := e }
/-- Extents with an active operation. -/
def ioOf (e : Multiset Nat) : Res := { io := e }
/-- Issued ids. -/
def idsOf (e : Multiset PageId) : Res := { ids := e }

/-- A share contained in another. -/
def Part (a b : Res) : Prop := ∃ c, b = a + c

theorem Part.trans {a b c : Res} (h : Part a b) (h' : Part b c) : Part a c := by
  obtain ⟨x, rfl⟩ := h
  obtain ⟨y, rfl⟩ := h'
  exact ⟨x + y, add_assoc ..⟩

theorem part_add_left (a b : Res) : Part a (a + b) := ⟨b, rfl⟩

theorem part_add_right (a b : Res) : Part b (a + b) := ⟨a, add_comm ..⟩

theorem Part.mem_host {a b : Res} (h : Part a b) {x : Ptr × Nat} (hx : x ∈ a.host) : x ∈ b.host := by
  obtain ⟨c, rfl⟩ := h
  exact Multiset.mem_add.2 (.inl hx)

theorem Part.mem_dev {a b : Res} (h : Part a b) {x : Ptr × Nat} (hx : x ∈ a.dev) : x ∈ b.dev := by
  obtain ⟨c, rfl⟩ := h
  exact Multiset.mem_add.2 (.inl hx)

theorem Part.mem_ext {a b : Res} (h : Part a b) {x : Nat} (hx : x ∈ a.ext) : x ∈ b.ext := by
  obtain ⟨c, rfl⟩ := h
  exact Multiset.mem_add.2 (.inl hx)

theorem part_sum {α : Type} {f : α → Res} {s : Multiset α} {a : α} (ha : a ∈ s) : Part (f a) (s.map f).sum := by
  obtain ⟨s, rfl⟩ := Multiset.exists_cons_of_mem ha
  rw [Multiset.map_cons, Multiset.sum_cons]
  exact part_add_left ..

end Res

/-! ## What a page accounts for -/

variable (cfg : RuntimeConfig)

/-- The extents of a page. -/
def PageMetadata.extents (p : PageMetadata) : Multiset Nat :=
  match p.nvmeOffset with
  | none => 0
  | some offset => Extents.range (offset / cfg.pageSize - 1) (p.allocationSize / cfg.pageSize)

/-- What a page's record points to. -/
def PageMetadata.parts (p : PageMetadata) : Res where
  host := match p.hostPtr with
    | none => 0
    | some ptr => {(ptr, p.allocationSize)}
  dev := match p.vramPtr with
    | none => 0
    | some ptr => {(ptr, p.allocationSize)}
  vram := if p.vramPtr.isSome then p.allocationSize else 0
  nvme := if p.nvmeOffset.isSome then p.allocationSize else 0
  ext := p.extents cfg

/-- What a page accounts for: while it is in flight, the thread that took it does. -/
def PageMetadata.foot (p : PageMetadata) : Res := if p.inFlight then 0 else p.parts cfg

/-- The record of a page that the thread holding it knows; only the pinned flag may change meanwhile. -/
def PageMetadata.core (p : PageMetadata) : PageMetadata := { p with pinned := false }

/-- The record of a page in flight. -/
def PageMetadata.claim (p : PageMetadata) : Multiset PageMetadata := if p.inFlight then {p.core} else 0

/-! ## The ledger -/

/-- The ids issued and not used for a page. -/
def spareIds (σ : Shared) : Multiset PageId :=
  ((List.range' σ.firstId (σ.nextPageId - σ.firstId)).filter fun i => i ∉ allocIds σ.history : List PageId)

theorem mem_spareIds {σ : Shared} {i : Nat} :
    i ∈ spareIds σ ↔ σ.firstId ≤ i ∧ i < σ.nextPageId ∧ i ∉ allocIds σ.history := by
  simp only [spareIds, Multiset.mem_coe, List.mem_filter, List.mem_range'_1, decide_eq_true_eq]
  constructor
  · rintro ⟨⟨h1, h2⟩, h3⟩; exact ⟨h1, by omega, h3⟩
  · rintro ⟨h1, h2, h3⟩; exact ⟨⟨h1, by omega⟩, h3⟩

theorem nodup_spareIds (σ : Shared) : (spareIds σ).Nodup :=
  Multiset.coe_nodup.2 (List.Nodup.filter _ List.nodup_range')

theorem spareIds_congr {σ σ' : Shared} (hn : (σ'.firstId, σ'.nextPageId) = (σ.firstId, σ.nextPageId)) (hh : σ'.history = σ.history) :
    spareIds σ' = spareIds σ := by
  obtain ⟨hf, hn⟩ := Prod.mk.inj hn
  unfold spareIds
  rw [hf, hn, hh]

/-- What the backends and budgets hold. -/
def Shared.ledger (σ : Shared) : Res where
  host := σ.host.allocations.bag.map fun a => (a.ptr, a.bytes)
  dev := σ.device.bag.map fun a => (a.ptr, a.bytes)
  vram := σ.vramBudget.used
  nvme := σ.nvmeBudget.used
  ext := σ.store.usedBag
  io := σ.store.ioBag
  ids := spareIds σ

theorem nodup_hostPtrs (σ : Shared) : (σ.host.allocations.bag.map HostAllocation.ptr).Nodup :=
  Multiset.coe_nodup.2 σ.host.allocations.nodup

theorem nodup_devPtrs (σ : Shared) : (σ.device.bag.map DeviceBlock.ptr).Nodup :=
  Multiset.coe_nodup.2 σ.device.nodup

/-- A key in one part of a bag without repeated keys is in no other part. -/
theorem not_mem_of_nodup_add {a b : Multiset (Ptr × Nat)} (h : ((a + b).map Prod.fst).Nodup) {ptr n n' : Nat}
    (ha : (ptr, n) ∈ a) : (ptr, n') ∉ b := by
  intro hb
  rw [Multiset.map_add, Multiset.nodup_add] at h
  exact Multiset.disjoint_left.1 h.2.2 (Multiset.mem_map.2 ⟨_, ha, rfl⟩) (Multiset.mem_map.2 ⟨_, hb, rfl⟩)

namespace Shared

variable {σ : Shared} {w R : Res}

theorem nodup_host (h : σ.ledger = R) : (R.host.map Prod.fst).Nodup := by
  rw [← h]
  show ((σ.host.allocations.bag.map _).map _).Nodup
  rw [Multiset.map_map]
  exact nodup_hostPtrs σ

theorem nodup_dev (h : σ.ledger = R) : (R.dev.map Prod.fst).Nodup := by
  rw [← h]
  show ((σ.device.bag.map _).map _).Nodup
  rw [Multiset.map_map]
  exact nodup_devPtrs σ

theorem nodup_ext (h : σ.ledger = R) : R.ext.Nodup := by
  rw [← h]
  exact Extents.nodup_usedBag _

theorem host_ne (h : σ.ledger = w + R) {ptr n n' : Nat} (hw : (ptr, n) ∈ w.host) : (ptr, n') ∉ R.host :=
  not_mem_of_nodup_add (nodup_host h) hw

theorem dev_ne (h : σ.ledger = w + R) {ptr n n' : Nat} (hw : (ptr, n) ∈ w.dev) : (ptr, n') ∉ R.dev :=
  not_mem_of_nodup_add (nodup_dev h) hw

theorem ext_ne (h : σ.ledger = w + R) {i : Nat} (hw : i ∈ w.ext) : i ∉ R.ext := by
  have := nodup_ext h
  rw [Res.add_ext, Multiset.nodup_add] at this
  exact Multiset.disjoint_left.1 this.2.2 hw

/-- A host buffer of the ledger is live, with its size. -/
theorem lookup_host (h : σ.ledger = R) {ptr n : Nat} (hr : (ptr, n) ∈ R.host) :
    ∃ a, σ.host.allocations.lookup ptr = some a ∧ a.ptr = ptr ∧ a.bytes = n := by
  rw [← h] at hr
  obtain ⟨a, ha, he⟩ : ∃ a ∈ σ.host.allocations.bag, (a.ptr, a.bytes) = (ptr, n) := Multiset.mem_map.1 hr
  cases he
  exact ⟨a, Keyed.lookup_of_mem ha, rfl, rfl⟩

theorem lookup_dev (h : σ.ledger = R) {ptr n : Nat} (hr : (ptr, n) ∈ R.dev) :
    ∃ a, σ.device.lookup ptr = some a ∧ a.ptr = ptr ∧ a.bytes = n := by
  rw [← h] at hr
  obtain ⟨a, ha, he⟩ : ∃ a ∈ σ.device.bag, (a.ptr, a.bytes) = (ptr, n) := Multiset.mem_map.1 hr
  cases he
  exact ⟨a, Keyed.lookup_of_mem ha, rfl, rfl⟩

end Shared

end FlashTier
