/-
The state the runtime's threads share: the page table, the budgets, the backends with the memory they
manage, the request queue and the lifecycle flags. `history` and `prefetching` are ghost fields: the
sections record in them what they commit and what they are at, and nothing reads them back.
-/
import FlashTier.Conc.Prog
import FlashTier.Conc.Keyed
import FlashTier.Runtime.Extents
import FlashTier.Runtime.Integrity
import FlashTier.Runtime.Planner

namespace FlashTier

open Conc

/-! ## Configuration -/

/-- What `start` establishes before it admits operations: the effective budgets in bytes, the store's
geometry and the selected backends. -/
structure RuntimeConfig where
  pageSize : Nat
  vramLimit : Nat
  vramReserve : Nat
  hostLimit : Nat
  extentCount : Nat
  queueDepth : Nat
  prefetchDepth : Nat
  usePageableFallback : Bool
  /-- `device_ != nullptr` -/
  device : Bool
  backendName : String
  /-- the device backend provides pinned host memory -/
  pinnedAvailable : Bool
  policy : Policy
  seed : UInt64
  /-- `next_page_id_`, which goes on counting over restarts -/
  firstId : Nat
  page_min : 4096 ≤ pageSize
  reserve_le : vramReserve ≤ vramLimit
  vram_lt : vramLimit < 2 ^ 64
  host_lt : hostLimit < 2 ^ 64
  /-- `validate_store_geometry`: header and payload fit the largest file -/
  store_lt : (extentCount + 1) * pageSize < 2 ^ 63
  queue_pos : 1 ≤ queueDepth
  cpu_only : device = false → vramLimit = 0
  first_ok : 1 ≤ firstId ∧ firstId < 2 ^ 64

namespace RuntimeConfig

variable (cfg : RuntimeConfig)

/-- `nvme_limit`, a multiple of the page size. -/
def nvmeLimit : Nat := cfg.extentCount * cfg.pageSize

/-- Whether host buffers are taken from pageable memory. -/
def pageable : Bool := cfg.usePageableFallback || !cfg.device

theorem page_pos : 0 < cfg.pageSize := lt_of_lt_of_le (by decide) cfg.page_min

end RuntimeConfig

/-! ## Backends -/

/-- `HostBackend::Allocation`, with its address. -/
structure HostAllocation where
  ptr : Ptr
  bytes : Nat
  pinned : Bool
  deriving DecidableEq, Repr

/-- `HostBackend`, with a zero reserve margin, as the runtime configures it. -/
structure HostBackend where
  limit : Nat
  used : Nat := 0
  highWater : Nat := 0
  pinnedAvailable : Bool
  allocations : Keyed HostAllocation.ptr := ∅

/-- `HostBackend::headroom`. -/
def HostBackend.headroom (h : HostBackend) : Nat := if h.limit ≤ h.used then 0 else h.limit - h.used

/-- `HostBackend::allocation_tier`. -/
def HostBackend.allocationTier (h : HostBackend) (ptr : Ptr) : Option Tier :=
  (h.allocations.lookup ptr).map fun a => if a.pinned then .hostPinned else .hostPageable

/-- A live device allocation. -/
structure DeviceBlock where
  ptr : Ptr
  bytes : Nat
  deriving DecidableEq, Repr

/-! ## The environment -/

/-- How a device copy ends: in full, or with an error and having changed any part of its destination. -/
inductive CopyOutcome where
  | complete
  | failed (e : Error) (left : Bytes)

/-- How a store operation ends: complete, failed with its own error, cancelled, or complete with too few bytes. One that does
not complete in full may have changed any part of its destination. -/
inductive IoOutcome where
  | complete
  | failed (e : Error) (left : Bytes)
  | cancelled (left : Bytes)
  | incomplete (done : Nat) (left : Bytes)

/-- The answers of the environment to the calls one section makes. An address an allocator returns is
made fresh by `freshPtr`; `rounds` is how often a loop with a deadline goes round. -/
structure Env where
  deviceAlloc : Except Error Ptr := .ok 0
  deviceFree : Option Error := none
  pinnedAlloc : Except Error Ptr := .ok 0
  pinnedFree : Option Error := none
  alignedAlloc : Option Ptr := some 0
  copy : CopyOutcome := .complete
  io : IoOutcome := .complete
  /-- what newly allocated memory holds -/
  scratch : Bytes := fun _ => 0
  rounds : Nat := 1
  emit : Option Error := none

/-! ## History -/

/-- The backend calls that can fail. -/
inductive Call where
  | deviceAlloc | deviceFree | hostAlloc | hostFree | deviceCopy | storeIo
  deriving DecidableEq, Repr

/-- The calls that give a resource back. -/
def Call.release : Call → Bool
  | .deviceFree | .hostFree => true
  | _ => false

/-- The internal assertions: the throws that guard facts of the runtime itself. -/
inductive Assertion where
  | transition | overRelease | hostUnknown | hostSize | tierUnknown | freeExtents | storeIo | duplicateId
  deriving DecidableEq, Repr

/-- What a page may own. -/
inductive Resource where
  | vram | host | nvme
  deriving DecidableEq, Repr

/-- A throw of the planner for want of victims: the bytes needed, the candidates it was offered and the budgets
it was given; and the pages of the table and the device budget at that moment. -/
structure Refusal where
  need : Nat
  candidates : List PageId
  planner : PlannerBudgets
  pages : List PageMetadata
  budget : TierBudget
  deriving DecidableEq

/-- What a section records. -/
inductive Event where
  /-- a page is inserted, with its size, pinned flag and initial content -/
  | alloc (t : Nat) (id : PageId) (bytes : Nat) (pinned : Bool) (content : List UInt8)
  /-- `write_page` committed -/
  | wrote (t : Nat) (id : PageId) (data : List UInt8)
  /-- the device copy of a `write_page` threw: whether the page had an NVMe copy, its bytes before and after -/
  | torn (t : Nat) (id : PageId) (copy : Bool) (before left : List UInt8)
  /-- `read_page` took its bytes -/
  | read (t : Nat) (id : PageId) (bytes : List UInt8)
  | pin (t : Nat) (id : PageId) (pinned : Bool)
  /-- a transfer took the page -/
  | claim (t : Nat) (id : PageId)
  /-- `free_page` took the page, which owned these resources -/
  | release (t : Nat) (id : PageId) (owned : List Resource)
  /-- a transfer or a release gave the page back, in this state and with this `in_flight` -/
  | settle (t : Nat) (id : PageId) (state : PageState) (busy : Bool)
  /-- `free_page` released a resource of the page -/
  | freed (t : Nat) (id : PageId) (r : Resource)
  /-- and subtracted its bytes from the budget -/
  | refunded (t : Nat) (id : PageId) (r : Resource)
  /-- `free_page` erased the page -/
  | erase (t : Nat) (id : PageId)
  /-- an eviction on behalf of another page took the page out of memory; `ticket` is the length of the
  history when its thread last looked at the pinned flag -/
  | autoMove (t : Nat) (id : PageId) (ticket : Nat) (pinned : Bool)
  /-- the planner found too few victims -/
  | refused (t : Nat) (r : Refusal)
  | notified (t : Nat)
  | failed (t : Nat) (call : Call)
  | assertion (t : Nat) (a : Assertion)
  /-- a 64-bit counter wrapped -/
  | wrapped (t : Nat)
  deriving DecidableEq

/-- The thread that recorded an event. -/
def Event.thread : Event → Nat
  | .alloc t .. | .wrote t .. | .torn t .. | .read t .. | .pin t .. | .claim t .. | .release t .. | .settle t ..
  | .freed t .. | .refunded t .. | .erase t _ | .autoMove t .. | .refused t .. | .notified t | .failed t _
  | .assertion t _ | .wrapped t => t

/-! ## Requests -/

inductive RequestKind where
  | demand | prefetch
  deriving DecidableEq, Repr

/-- `Runtime::Request`; a demand's promise by its index. -/
structure Request where
  kind : RequestKind
  page : PageId
  target : Tier
  completion : Option Nat
  deriving DecidableEq, Repr

/-! ## The shared state -/

structure Shared where
  table : Keyed PageMetadata.id := ∅
  vramBudget : TierBudget
  nvmeBudget : TierBudget
  host : HostBackend
  device : Keyed DeviceBlock.ptr := ∅
  store : Extents
  hostMem : Ptr → Bytes := fun _ _ => 0
  devMem : Ptr → Bytes := fun _ _ => 0
  /-- the store file, header included -/
  disk : Bytes
  planner : PlannerBudgets := {}
  nextPageId : Nat := 1
  /-- ghost: the next id when `start` returned -/
  firstId : Nat := 1
  accessSeq : Nat := 0
  prefetched : List PageId := []
  queue : List Request := []
  pendingPrefetches : List PageId := []
  /-- ghost: the prefetch requests a worker has taken and not finished, each with its thread -/
  prefetching : List (Nat × PageId) := []
  promises : List (Option (Except Error Unit)) := []
  running : Bool := true
  stopping : Bool := false
  /-- `headroom_mu_` is held -/
  headroomHeld : Bool := false
  history : List Event := []

/-- The state when `start` returns, over a store file with any payload. -/
def RuntimeConfig.initial (cfg : RuntimeConfig) (disk : Bytes) : Shared where
  vramBudget := { limit := cfg.vramLimit, reserve := cfg.vramReserve }
  nvmeBudget := { limit := cfg.nvmeLimit, reserve := 0 }
  host := { limit := cfg.hostLimit, pinnedAvailable := cfg.pinnedAvailable }
  store := Extents.fresh cfg.pageSize cfg.extentCount
  disk := disk
  nextPageId := cfg.firstId
  firstId := cfg.firstId

namespace Shared

variable (σ : Shared)

/-! ## Elementary changes -/

def log (e : Event) : Shared := { σ with history := e :: σ.history }

/-- Record that a counter wraps. -/
def noteWrap (t : Nat) (wraps : Bool) : Shared := if wraps then σ.log (.wrapped t) else σ

def setPage (p : PageMetadata) : Shared := { σ with table := σ.table.put p }

def erasePage (id : PageId) : Shared := { σ with table := σ.table.erase id }

def setVram (b : TierBudget) : Shared := { σ with vramBudget := b }

def setNvme (b : TierBudget) : Shared := { σ with nvmeBudget := b }

/-- The first `n` bytes of `b` over the bytes of `old`. -/
def overlay (b : Bytes) (n : Nat) (old : Bytes) : Bytes := fun i => if i < n then b i else old i

def writeHost (ptr : Ptr) (b : Bytes) (n : Nat) : Shared :=
  { σ with hostMem := fun p => if p = ptr then overlay b n (σ.hostMem p) else σ.hostMem p }

def writeDev (ptr : Ptr) (b : Bytes) (n : Nat) : Shared :=
  { σ with devMem := fun p => if p = ptr then overlay b n (σ.devMem p) else σ.devMem p }

def writeDisk (offset : Nat) (b : Bytes) (n : Nat) : Shared :=
  { σ with disk := fun i => if offset ≤ i ∧ i < offset + n then b (i - offset) else σ.disk i }

/-- The bytes of the store from an offset on. -/
def diskAt (offset : Nat) : Bytes := fun i => σ.disk (offset + i)

def putHost (a : HostAllocation) (scratch : Bytes) : Shared :=
  { σ with
    host := { σ.host with
      used := u64 (σ.host.used + a.bytes)
      highWater := max σ.host.highWater (u64 (σ.host.used + a.bytes))
      allocations := σ.host.allocations.put a }
    hostMem := fun p => if p = a.ptr then scratch else σ.hostMem p }

def dropHost (a : HostAllocation) : Shared :=
  { σ with host := { σ.host with
      used := u64Sub σ.host.used a.bytes
      allocations := σ.host.allocations.erase a.ptr } }

def putDev (a : DeviceBlock) (scratch : Bytes) : Shared :=
  { σ with
    device := σ.device.put a
    devMem := fun p => if p = a.ptr then scratch else σ.devMem p }

def dropDev (ptr : Ptr) : Shared := { σ with device := σ.device.erase ptr }

def setStore (s : Extents) : Shared := { σ with store := s }

def issueId : Shared := { σ with nextPageId := u64 (σ.nextPageId + 1) }

/-! ## Observations -/

/-- The address an allocator returns: any that is not live. -/
def freshPtr (live : List Ptr) (p : Ptr) : Ptr := if p ∈ live then live.foldr max 0 + 1 else p

theorem le_foldr_max : ∀ {l : List Nat} {x : Nat}, x ∈ l → x ≤ l.foldr max 0
  | a :: l, x, hx => by
    rw [List.foldr_cons]
    rcases List.mem_cons.1 hx with rfl | hx
    · exact le_max_left _ _
    · exact le_trans (le_foldr_max hx) (le_max_right _ _)

theorem freshPtr_not_mem (live : List Ptr) (p : Ptr) : freshPtr live p ∉ live := by
  unfold freshPtr
  split
  · exact fun h => absurd (le_foldr_max h) (Nat.not_succ_le_self _)
  · assumption

def hostLive : List Ptr := σ.host.allocations.items.map HostAllocation.ptr

def devLive : List Ptr := σ.device.items.map DeviceBlock.ptr

/-- The budgets as the planner is given them. -/
def budgets : PlannerBudgets where
  vramLimit := σ.vramBudget.limit
  vramReserve := σ.vramBudget.reserve
  vramUsed := σ.vramBudget.used
  hostLimit := σ.host.limit
  hostUsed := σ.host.used
  nvmeLimit := σ.nvmeBudget.limit
  nvmeUsed := σ.nvmeBudget.used

end Shared

end FlashTier
