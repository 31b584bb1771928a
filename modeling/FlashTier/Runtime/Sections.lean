/-
The calls the runtime's critical sections are made of: the page table, the budgets, the host and
device backends, the store, the flags. A call that fails records it; so does a throw that guards a
fact of the runtime itself.
-/
import FlashTier.Runtime.State

namespace FlashTier

open Conc

/-- A critical section of the runtime. -/
abbrev Sec (α : Type) : Type := Act Env Shared Error α

/-- Code of the runtime. -/
abbrev Code (α : Type) : Type 1 := Prog Env Shared Error α

/-- Record an event of the running thread. -/
def record (e : Nat → Event) : Sec Unit := fun t _ σ => (.ok (), σ.log (e t))

/-- A throw that guards a fact of the runtime. -/
def failAssertion {α : Type} (a : Assertion) (e : Error) : Sec α := fun t _ σ => (.error e, σ.log (.assertion t a))

/-- Throw `e` once shutdown has begun. -/
def throwIfStopping (e : Error) : Sec Unit := fun _ _ σ => (if σ.stopping then .error e else .ok (), σ)

/-- `require_running`. -/
def requireRunning : Sec Unit := fun _ _ σ =>
  (if !σ.running || σ.stopping then .error ⟨.state, "runtime is not running", ""⟩ else .ok (), σ)

/-! ## Page table -/

def notFound (id : PageId) : Error := ⟨.notFound, "page not found", toString id⟩

def duplicateId (id : PageId) : Error :=
  ⟨.invariant, "duplicate page ID insertion would overwrite live metadata", toString id⟩

/-- `PageTable::copy_of`. -/
def copyOf (id : PageId) : Sec PageMetadata := fun _ _ σ =>
  match σ.table.lookup id with
  | some p => (.ok p, σ)
  | none => (.error (notFound id), σ)

/-- `PageTable::with`, for assignments to fields. -/
def withPage (id : PageId) (f : PageMetadata → PageMetadata) : Sec Unit := fun _ _ σ =>
  match σ.table.lookup id with
  | some p => (.ok (), σ.setPage (f p))
  | none => (.error (notFound id), σ)

/-- `PageMetadata::transition` inside `PageTable::with`. -/
def transition (id : PageId) (dst : PageState) : Sec Unit := fun t ω σ =>
  match σ.table.lookup id with
  | none => (.error (notFound id), σ)
  | some p => match p.transition dst with
    | .ok p' => (.ok (), σ.setPage p')
    | .error e => failAssertion .transition e t ω σ

/-- `PageTable::insert`. -/
def insertPage (p : PageMetadata) : Sec Unit := fun t ω σ =>
  match σ.table.lookup p.id with
  | none => (.ok (), σ.setPage p)
  | some _ => failAssertion .duplicateId (duplicateId p.id) t ω σ

/-- `PageTable::erase`. -/
def erasePage (id : PageId) : Sec Unit := fun _ _ σ => (.ok (), σ.erasePage id)

/-! ## Budgets -/

def overRelease (b : TierBudget) (bytes : Nat) : Error :=
  ⟨.invariant, "tier budget release exceeds reserved usage", b.overRelease bytes⟩

/-- `vram_budget_.try_reserve`. -/
def vramTryReserve (bytes : Nat) : Sec Bool := fun t _ σ =>
  match σ.vramBudget.tryReserve bytes with
  | some b => (.ok true, (σ.noteWrap t (2 ^ 64 ≤ σ.vramBudget.used + bytes)).setVram b)
  | none => (.ok false, σ)

/-- `vram_budget_.release`. -/
def vramRelease (bytes : Nat) : Sec Unit := fun t ω σ =>
  match σ.vramBudget.release bytes with
  | some b => (.ok (), σ.setVram b)
  | none => failAssertion .overRelease (overRelease σ.vramBudget bytes) t ω σ

/-- `nvme_budget_.try_reserve`. -/
def nvmeTryReserve (bytes : Nat) : Sec Bool := fun t _ σ =>
  match σ.nvmeBudget.tryReserve bytes with
  | some b => (.ok true, (σ.noteWrap t (2 ^ 64 ≤ σ.nvmeBudget.used + bytes)).setNvme b)
  | none => (.ok false, σ)

/-- `nvme_budget_.release`. -/
def nvmeRelease (bytes : Nat) : Sec Unit := fun t ω σ =>
  match σ.nvmeBudget.release bytes with
  | some b => (.ok (), σ.setNvme b)
  | none => failAssertion .overRelease (overRelease σ.nvmeBudget bytes) t ω σ

/-! ## Host backend -/

def hostSizeInvalid : Error := ⟨.invalidArgument, "host backend allocation size is invalid", ""⟩

def pinnedUnsupported : Error :=
  ⟨.unsupported, "host backend: pinned allocation requested but the active device backend does not provide one; " ++
    "pageable fallback must be enabled explicitly", ""⟩

def alignedFailed : Error := ⟨.internal, "aligned host allocation failed", ""⟩

def hostUnknown : Error := ⟨.state, "host backend: free of unknown pointer", ""⟩

def hostSizeMismatch (bytes actual : Nat) : Error :=
  ⟨.invalidArgument, "host backend: free size does not match allocation", toString bytes ++ " != " ++ toString actual⟩

def tierUnknown : Error := ⟨.state, "host backend: tier query for unknown pointer", ""⟩

/-- The address the host allocator answers with. -/
def Env.hostAlloc (ω : Env) (pinned : Bool) : Except Error Ptr :=
  if pinned then ω.pinnedAlloc
  else match ω.alignedAlloc with
    | some p => .ok p
    | none => .error alignedFailed

/-- `HostBackend::allocate`; `none` is a budget breach. -/
def hostAllocate (bytes : Nat) (pageable : Bool) : Sec (Option Ptr) := fun t ω σ =>
  if bytes = 0 then (.error hostSizeInvalid, σ)
  else if σ.host.limit < bytes ∨ σ.host.limit - bytes < σ.host.used then (.ok none, σ)
  else if !pageable && !σ.host.pinnedAvailable then (.error pinnedUnsupported, σ)
  else
    let pinned := !pageable && σ.host.pinnedAvailable
    match ω.hostAlloc pinned with
    | .error e => (.error e, σ.log (.failed t .hostAlloc))
    | .ok p =>
      let ptr := Shared.freshPtr σ.hostLive p
      (.ok (some ptr), (σ.noteWrap t (2 ^ 64 ≤ σ.host.used + bytes)).putHost ⟨ptr, bytes, pinned⟩ ω.scratch)

/-- `HostBackend::free` of a pointer that is not null. -/
def hostFree (ptr : Ptr) (bytes : Nat) : Sec Unit := fun t ω σ =>
  match σ.host.allocations.lookup ptr with
  | none => failAssertion .hostUnknown hostUnknown t ω σ
  | some a =>
    if bytes ≠ a.bytes then failAssertion .hostSize (hostSizeMismatch bytes a.bytes) t ω σ
    else match (if a.pinned then ω.pinnedFree else none) with
      | some e => (.error e, σ.log (.failed t .hostFree))
      | none => (.ok (), (σ.noteWrap t (σ.host.used < a.bytes)).dropHost a)

/-- `HostBackend::allocation_tier`. -/
def allocationTier (ptr : Ptr) : Sec Tier := fun t ω σ =>
  match σ.host.allocationTier ptr with
  | some tier => (.ok tier, σ)
  | none => failAssertion .tierUnknown tierUnknown t ω σ

/-! ## Device backend -/

section

variable (cfg : RuntimeConfig)

/-- `device_alloc`. -/
def deviceAlloc (bytes : Nat) : Sec Ptr := fun t ω σ =>
  if !cfg.device then (.error ⟨.state, "device-memory allocation requested with no device backend", ""⟩, σ)
  else match ω.deviceAlloc with
    | .error e => (.error e, σ.log (.failed t .deviceAlloc))
    | .ok p =>
      let ptr := Shared.freshPtr σ.devLive p
      (.ok ptr, σ.putDev ⟨ptr, bytes⟩ ω.scratch)

/-- `device_free`. -/
def deviceFree (ptr : Option Ptr) : Sec Unit := fun t ω σ =>
  match ptr with
  | none => (.ok (), σ)
  | some ptr =>
    if !cfg.device then (.error ⟨.state, "device-memory release requested with no device backend", ""⟩, σ)
    else match ω.deviceFree with
      | some e => (.error e, σ.log (.failed t .deviceFree))
      | none => (.ok (), σ.dropDev ptr)

def copyCancelled : Error := ⟨.cancelled, "device transfer cancelled during shutdown", ""⟩

def copyNoDevice : Error := ⟨.state, "device transfer requested with no device backend", ""⟩

/-- `device_copy_h2d`. -/
def deviceCopyH2D (dst : Ptr) (src : Bytes) (bytes : Nat) : Sec Unit := fun t ω σ =>
  if σ.stopping then (.error copyCancelled, σ)
  else if !cfg.device then (.error copyNoDevice, σ)
  else match ω.copy with
    | .complete => (.ok (), σ.writeDev dst src bytes)
    | .failed e left => (.error e, (σ.writeDev dst left bytes).log (.failed t .deviceCopy))

/-- `device_copy_d2h` into a host buffer. -/
def deviceCopyD2H (dst src : Ptr) (bytes : Nat) : Sec Unit := fun t ω σ =>
  if σ.stopping then (.error copyCancelled, σ)
  else if !cfg.device then (.error copyNoDevice, σ)
  else match ω.copy with
    | .complete => (.ok (), σ.writeHost dst (σ.devMem src) bytes)
    | .failed e left => (.error e, (σ.writeHost dst left bytes).log (.failed t .deviceCopy))

/-- `device_copy_d2h` into a vector of the caller's, which it returns. -/
def deviceStage (src : Ptr) (bytes : Nat) : Sec (List UInt8) := fun t ω σ =>
  if σ.stopping then (.error copyCancelled, σ)
  else if !cfg.device then (.error copyNoDevice, σ)
  else match ω.copy with
    | .complete => (.ok (Bytes.take (σ.devMem src) bytes), σ)
    | .failed e _ => (.error e, σ.log (.failed t .deviceCopy))

end

/-! ## Store -/

/-- `allocate_extents`. -/
def allocateExtents (n : Nat) : Sec (Option Nat) := fun t _ σ =>
  match σ.store.allocateExtents n with
  | .error e => (.error e, σ)
  | .ok none => (.ok none, σ)
  | .ok (some (offset, s)) => (.ok (some offset), (σ.noteWrap t (2 ^ 64 ≤ σ.store.usedExtents + n)).setStore s)

/-- `free_extents`. -/
def freeExtents (offset n : Nat) : Sec Unit := fun t ω σ =>
  match σ.store.freeExtents offset n with
  | .error e => failAssertion .freeExtents e t ω σ
  | .ok s => (.ok (), (σ.noteWrap t (σ.store.usedExtents < n)).setStore s)

/-- `read_async` or `write_async`, up to the queueing of the operation. `kInvalidOffset` is misaligned. -/
def submitIo (what : String) (offset : Option Nat) (bytes : Nat) : Sec Unit := fun t ω σ =>
  match offset with
  | none => failAssertion .storeIo (Extents.misalignedIo (2 ^ 64 - 1) bytes) t ω σ
  | some offset => match σ.store.submit what offset bytes with
    | .error e => failAssertion .storeIo e t ω σ
    | .ok s => (.ok (), σ.setStore s)

/-- `wait_for_store_io`: the error it throws for an operation that did not complete, and what the operation left. The wait
itself rethrows the error of one that failed. -/
def waitForStoreIo (operation : String) (expected : Nat) : IoOutcome → Option (Error × Bytes)
  | .complete => none
  | .failed e left => some (e, left)
  | .cancelled left => some (⟨.cancelled, operation ++ " was cancelled", ""⟩, left)
  | .incomplete done left => some (⟨.io, operation ++ " did not complete in full",
      "expected " ++ toString expected ++ " bytes, completed " ++ toString done⟩, left)

/-- The operation on the extents of a page retires. -/
def Shared.retireIo (σ : Shared) (offset bytes : Nat) : Shared :=
  σ.setStore (σ.store.retire (offset / σ.store.pageSize - 1) (bytes / σ.store.pageSize))

/-- The operation of a `read_async` ends, and `wait_for_store_io` returns or throws. -/
def awaitRead (offset : Nat) (dst : Ptr) (bytes : Nat) : Sec Unit := fun t ω σ =>
  match waitForStoreIo "NVMe load" bytes ω.io with
  | none => (.ok (), (σ.retireIo offset bytes).writeHost dst (σ.diskAt offset) bytes)
  | some (e, left) => (.error e, ((σ.retireIo offset bytes).writeHost dst left bytes).log (.failed t .storeIo))

/-- The operation of a `write_async` ends, and `wait_for_store_io` returns or throws. -/
def awaitWrite (offset : Nat) (src : Ptr) (bytes : Nat) : Sec Unit := fun t ω σ =>
  match waitForStoreIo "NVMe writeback" bytes ω.io with
  | none => (.ok (), (σ.retireIo offset bytes).writeDisk offset (σ.hostMem src) bytes)
  | some (e, left) => (.error e, ((σ.retireIo offset bytes).writeDisk offset left bytes).log (.failed t .storeIo))

/-! ## Telemetry -/

/-- `emit_event`: a failure to emit is thrown. -/
def emitEvent : Sec Unit := fun _ ω σ =>
  (match ω.emit with
    | some e => .error e
    | none => .ok (), σ)

end FlashTier
