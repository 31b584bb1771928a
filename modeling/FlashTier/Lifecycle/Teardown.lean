/-
Teardown (`shutdown` and `shutdown_locked` in `runtime.cpp`) and the gate by which `start` refuses a restart.
The lifecycle lock keeps public operations out and the workers are joined, so an attempt runs alone. Any call
it makes may fail: the attempt goes on, keeps what it could not release, and throws the first error at its end.
-/
import FlashTier.Runtime.Ops

namespace FlashTier

open Conc

/-! ## The runtime object -/

/-- The members of `Runtime` that `start` sets up and teardown takes down. -/
structure Instance where
  shared : Shared
  /-- the threads in `workers_` -/
  workers : Nat
  /-- `nvme_ != nullptr` -/
  nvme : Bool
  storeOpened : Bool
  /-- the store file exists -/
  storeFile : Bool
  /-- `device_ != nullptr` -/
  device : Bool
  deviceStream : Bool
  /-- the host backend has a device backend -/
  hostDevice : Bool
  sink : Bool

/-- The object of a runtime that `start` has set up. -/
def RuntimeConfig.started (cfg : RuntimeConfig) (workers : Nat) (σ : Shared) : Instance where
  shared := σ
  workers := workers
  nvme := true
  storeOpened := true
  storeFile := true
  device := cfg.device
  deviceStream := cfg.device
  hostDevice := cfg.device
  sink := true

/-- What the calls of one attempt answer, an error for each that throws; those of the release loop by page. -/
structure TeardownAnswers where
  cancelAll : Option Error := none
  cancelAllLocked : Option Error := none
  pinnedFree : PageId → Option Error := fun _ => none
  deviceFree : PageId → Option Error := fun _ => none
  flush : Option Error := none
  close : Option Error := none
  destroyFile : Option Error := none
  destroyStream : Option Error := none
  deviceClose : Option Error := none
  sinkFlush : Option Error := none

/-- The answers the sections that release the page are run with. -/
def TeardownAnswers.env (ω : TeardownAnswers) (id : PageId) : Env :=
  { pinnedFree := ω.pinnedFree id, deviceFree := ω.deviceFree id }

/-- An attempt under way: the object, the first error, and whether something could not be released that the
device or the store still has to serve. -/
structure Attempt where
  obj : Instance
  firstError : Option Error := none
  deviceResourcesLive : Bool := false
  nvmeResourcesLive : Bool := false

namespace Attempt

/-- `remember_error`. -/
def remember (s : Attempt) (e : Error) : Attempt := { s with firstError := s.firstError.or (some e) }

/-- A call whose error is remembered. -/
def check (s : Attempt) : Option Error → Attempt
  | none => s
  | some e => s.remember e

def set (s : Attempt) (σ : Shared) : Attempt := { s with obj := { s.obj with shared := σ } }

variable (cfg : RuntimeConfig) (t : Nat) (ω : TeardownAnswers)

/-- A `try` block of calls, and what its handler does after it remembered the error. -/
def guarded (id : PageId) (calls : Sec Unit) (caught : Attempt → Attempt) (s : Attempt) : Attempt :=
  match calls t (ω.env id) s.obj.shared with
  | (.ok (), σ) => s.set σ
  | (.error e, σ) => caught ((s.set σ).remember e)

/-! ## The release loop -/

/-- `allocation_tier`, pinned when the lookup fails. -/
def hostTier (ptr : Ptr) (s : Attempt) : Tier × Attempt :=
  match allocationTier ptr t {} s.obj.shared with
  | (.ok tier, σ) => (tier, s.set σ)
  | (.error e, σ) => (.hostPinned, (s.set σ).remember e)

def releaseHost (m : PageMetadata) (s : Attempt) : Attempt :=
  match m.hostPtr with
  | none => s
  | some ptr =>
    let (tier, s) := hostTier t ptr s
    s.guarded t ω m.id (do
      hostFree ptr m.allocationSize
      record fun t => .freed t m.id .host
      withPage m.id fun p => { p with hostPtr := none })
      fun s => if tier = .hostPinned then { s with deviceResourcesLive := true } else s

/-- `device_free`, with the device backend the object has left. -/
def freeOnDevice (device : Bool) (ptr : Ptr) : Sec Unit :=
  if device then deviceFree cfg (some ptr)
  else throw ⟨.state, "device-memory release requested with no device backend", ""⟩

def releaseVram (m : PageMetadata) (s : Attempt) : Attempt :=
  match m.vramPtr with
  | none => s
  | some ptr =>
    s.guarded t ω m.id (do
      freeOnDevice cfg s.obj.device ptr
      record fun t => .freed t m.id .vram
      withPage m.id fun p => { p with vramPtr := none }
      vramRelease m.allocationSize)
      fun s => if (s.obj.shared.table.lookup m.id).any (·.vramPtr.isSome) then { s with deviceResourcesLive := true } else s

def releaseNvme (m : PageMetadata) (s : Attempt) : Attempt :=
  match m.nvmeOffset with
  | none => s
  | some offset =>
    if s.obj.nvme && s.obj.storeOpened then
      s.guarded t ω m.id (do
        freeExtents offset (m.allocationSize / cfg.pageSize)
        record fun t => .freed t m.id .nvme
        withPage m.id fun p => { p with nvmeOffset := none, hasNvmeCopy := false }
        nvmeRelease m.allocationSize)
        fun s => if (s.obj.shared.table.lookup m.id).any (·.nvmeOffset.isSome) then { s with nvmeResourcesLive := true } else s
    else s

/-- The page leaves the table when it has no handle left. -/
def eraseEmpty (id : PageId) (s : Attempt) : Attempt :=
  if (s.obj.shared.table.lookup id).any (·.owned.isEmpty) then s.set (s.obj.shared.erasePage id) else s

/-- One turn of the release loop. -/
def releasePage (s : Attempt) (id : PageId) : Attempt :=
  match s.obj.shared.table.lookup id with
  | none => s.remember (notFound id)
  | some m => eraseEmpty id (releaseNvme cfg t ω m (releaseVram cfg t ω m (releaseHost t ω m s)))

/-- `PageTable::ids`. -/
def ids (σ : Shared) : List PageId := (σ.table.items.map PageMetadata.id).insertionSort (· ≤ ·)

def releaseAll (s : Attempt) : Attempt :=
  let s := (ids s.obj.shared).foldl (releasePage cfg t ω) s
  s.set { s.obj.shared with prefetched := [] }

/-! ## The store -/

/-- The extent map `NvmeBackend::close` leaves. -/
def closedMap (s : Extents) : Extents :=
  { s with used := fun _ => false, activeIo := fun _ => 0, freeList := [], usedExtents := 0, stopping := false, opened := false }

/-- `close`, then `destroy_file` unless the store is retained. A `close` that throws has set `stopping`. -/
def closeStore (retainStore : Bool) (s : Attempt) : Attempt :=
  if s.obj.nvme && s.obj.storeOpened && !s.nvmeResourcesLive then
    let s := s.check ω.flush
    let σ := s.obj.shared
    match ω.close with
    | some e => (s.set (σ.setStore { σ.store with stopping := true })).remember e
    | none =>
      let s := { s with obj := { s.obj with shared := σ.setStore (closedMap σ.store), storeOpened := false } }
      if retainStore then s
      else match ω.destroyFile with
        | some e => s.remember e
        | none => { s with obj := { s.obj with storeFile := false } }
  else s

def resetStore (s : Attempt) : Attempt := if s.obj.storeOpened then s else { s with obj := { s.obj with nvme := false } }

/-! ## The device -/

def pinnedLive : Error :=
  ⟨.state, "cannot change host allocator backend while pinned allocations are live", ""⟩

/-- `HostBackend::set_device_backend(nullptr)`. -/
def detach (obj : Instance) : Except Error Instance :=
  if obj.hostDevice && obj.shared.host.allocations.items.any (·.pinned) then .error pinnedLive
  else .ok { obj with
    hostDevice := false
    shared := { obj.shared with host := { obj.shared.host with pinnedAvailable := false } } }

def closeDevice (s : Attempt) : Attempt :=
  if s.obj.device && !s.deviceResourcesLive then
    let s := if s.obj.deviceStream then
        let s := s.check ω.destroyStream
        { s with obj := { s.obj with deviceStream := false } }
      else s
    match detach s.obj with
    | .error e => s.remember e
    | .ok obj =>
      let s := { s with obj := obj }
      match ω.deviceClose with
      | some e => s.remember e
      | none => { s with obj := { s.obj with device := false } }
  else s

def flushSink (s : Attempt) : Attempt :=
  if s.obj.sink then
    let s := s.check ω.sinkFlush
    { s with obj := { s.obj with sink := false } }
  else s

/-- The admission stop, the cancellation of store operations and the join of the workers. -/
def stopWork (s : Attempt) : Attempt :=
  let s := s.set (beginShutdown t {} s.obj.shared).2
  let s := if s.obj.nvme && s.obj.storeOpened then s.check ω.cancelAllLocked else s
  { s with obj := { s.obj with workers := 0 } }

end Attempt

/-! ## Shutdown and restart -/

variable (cfg : RuntimeConfig) (retainStore : Bool) (t : Nat)

/-- The attempt at the end of `shutdown_locked`. -/
def Instance.attempt (ω : TeardownAnswers) (obj : Instance) : Attempt :=
  (((((Attempt.mk obj none false false).stopWork t ω).releaseAll cfg t ω).closeStore ω retainStore).resetStore.closeDevice ω).flushSink ω

/-- `shutdown_locked`. -/
def Instance.shutdownLocked (ω : TeardownAnswers) (obj : Instance) : Option Error × Instance :=
  let s := obj.attempt cfg retainStore t ω
  (s.firstError, s.obj)

/-- `shutdown`: the error it throws, if any, and the object it leaves. -/
def Instance.shutdown (ω : TeardownAnswers) (obj : Instance) : Option Error × Instance :=
  let obj := { obj with shared := (beginShutdown t {} obj.shared).2 }
  let cancellationError := if obj.nvme && obj.storeOpened then ω.cancelAll else none
  let (e, obj) := obj.shutdownLocked cfg retainStore t ω
  (cancellationError.or e, obj)

/-- The calls of `shutdown` one after another, each with its answers. -/
def Instance.shutdowns (obj : Instance) (ωs : List TeardownAnswers) : Instance :=
  ωs.foldl (fun obj ω => (obj.shutdown cfg retainStore t ω).2) obj

/-- The gate of `start`. -/
def Instance.restart (obj : Instance) : Except Error Instance :=
  if obj.shared.running || !obj.shared.stopping then .error ⟨.state, "runtime is already started", ""⟩
  else if obj.workers ≠ 0 ∨ obj.shared.table.items ≠ [] ∨ obj.device ∨ obj.nvme ∨ obj.storeOpened then
    .error ⟨.state, "runtime cannot restart after incomplete teardown", ""⟩
  else .ok { obj with shared := { obj.shared with pendingPrefetches := [], stopping := false } }

end FlashTier
