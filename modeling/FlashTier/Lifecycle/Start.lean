/-
`start` (`runtime.cpp`): the gate, the choice of a backend, the budgets, the store, the telemetry files and the
workers. Any call on the way may throw; `start` then takes down what it has set up and throws the same error.
-/
import FlashTier.Lifecycle.Teardown
import FlashTier.Startup.Registry

namespace FlashTier

open Conc Codec

/-! ## Answers -/

/-- What the calls of one `start` answer, an error for each that throws. -/
structure StartAnswers where
  registry : Registry
  probeSystem : Option Error := none
  machine : MachineProbe
  createDevice : Option Error := none
  openDevice : Option Error := none
  /-- `device_info` or `free_memory` throws -/
  deviceInfo : Option Error := none
  device : DeviceProbe
  createStream : Option Error := none
  /-- `reserve_of` the device limit, computed with doubles -/
  vramReserve : Nat := 0
  /-- `capabilities().pinned_host_allocation` -/
  capabilities : Except Error Bool := .ok false
  temporaryPath : Except Error String := .ok "store"
  /-- there is a file at the temporary path, and its header is not that of this store -/
  leftover : Bool := false
  destroyLeftover : Option Error := none
  openStore : Option Error := none
  /-- a failed `open` has left a file -/
  openLeft : Bool := false
  disk : Bytes := fun _ => 0
  sink : Option Error := none
  emit : Option Error := none
  /-- how many threads can be created, and what the next creation throws -/
  threads : Option (Nat × Error) := none

/-- What `start` finds of the machine. -/
def StartAnswers.probe (a : StartAnswers) (cpuOnly : Bool) : MachineProbe :=
  { a.machine with device := if cpuOnly then none else some a.device }

/-- How `start` is cut short: by an exception, or by arithmetic that is not defined. -/
inductive Stop where
  | thrown (e : Error)
  | trap (x : Trap)
  deriving DecidableEq

/-- A part of `start`. -/
abbrev Boot (α : Type) : Type := Act StartAnswers Instance Stop α

namespace Boot

variable {α : Type}

/-- A call that answers, or throws. -/
def ask (answer : StartAnswers → Except Error α) : Boot α := fun _ a obj => ((answer a).mapError .thrown, obj)

def call (answer : StartAnswers → Option Error) : Boot Unit := ask fun a => (answer a).elim (.ok ()) .error

/-- A computation of the budgets. -/
def compute (p : StartAnswers → Start α) : Boot α := fun _ a obj =>
  (match (p a).run with
    | .ok r => r.mapError .thrown
    | .error x => .error (.trap x), obj)

def assign (f : Instance → Instance) : Boot Unit := Act.modify f

/-- A call on a part of the object, which throws or changes it. -/
def update (f : StartAnswers → Instance → Except Error Instance) : Boot Unit := fun _ a obj =>
  match f a obj with
  | .ok obj => (.ok (), obj)
  | .error e => (.error (.thrown e), obj)

end Boot

/-! ## Members -/

/-- `TierBudget::set_limit`. -/
def TierBudget.setLimit (b : TierBudget) (limit reserve : Nat) (margin : Option ℚ) : Except Error TierBudget :=
  if StartConfig.fractionBad margin fun x => 0 ≤ x ∧ x < 1 then
    .error ⟨.invalidArgument, "tier reserve margin must be finite and in [0, 1)", ""⟩
  else if limit - reserve < b.used then .error ⟨.budget, "new tier limit is below current reserved usage", ""⟩
  else .ok { b with limit := limit, reserve := reserve }

/-- `HostBackend::set_budget` with no margin. -/
def HostBackend.setBudget (h : HostBackend) (limit : Nat) : Except Error HostBackend :=
  if limit < h.used then .error ⟨.state, "host backend budget cannot be reduced below live allocations", ""⟩
  else .ok { h with limit := limit }

namespace Instance

/-- The object `Runtime::Runtime` makes; there may be a file where the store will be. -/
def constructed (disk : Bytes) (file : Bool) : Instance where
  shared := {
    vramBudget := { limit := 0, reserve := 0 }
    nvmeBudget := { limit := 0, reserve := 0 }
    host := { limit := 0, pinnedAvailable := false }
    store := Attempt.closedMap (Extents.fresh 0 0)
    disk := disk
    running := false
    stopping := true }
  workers := 0
  nvme := false
  storeOpened := false
  storeFile := file
  device := false
  deviceStream := false
  hostDevice := false
  sink := false

def setVram (obj : Instance) (b : TierBudget) : Instance := { obj with shared := { obj.shared with vramBudget := b } }

def setNvme (obj : Instance) (b : TierBudget) : Instance := { obj with shared := { obj.shared with nvmeBudget := b } }

def setHost (obj : Instance) (h : HostBackend) : Instance := { obj with shared := { obj.shared with host := h } }

/-- Whether the object's device backend, if it has one, can allocate pinned memory. -/
def pinnedSupport (obj : Instance) (capabilities : Except Error Bool) : Except Error Bool := if obj.device then capabilities else .ok false

/-- `HostBackend::set_device_backend(device_.get())`; a device that was just created is not the one before. -/
def attach (obj : Instance) (capabilities : Except Error Bool) : Except Error Instance := do
  let pinned ← obj.pinnedSupport capabilities
  if (obj.device || obj.hostDevice) && obj.shared.host.allocations.items.any (·.pinned) then .error Attempt.pinnedLive
  else .ok { obj.setHost { obj.shared.host with pinnedAvailable := pinned } with hostDevice := obj.device }

/-- A life of the object begins: the record and the promises of the one before are no longer looked at. -/
def begin (obj : Instance) : Instance :=
  { obj with shared := { obj.shared with history := [], promises := [], firstId := obj.shared.nextPageId } }

end Instance

/-! ## Start -/

/-- The other fields of `Config` that `start` reads. -/
structure StoreOptions where
  nvmePath : String := ""
  retainStore : Bool := false

section

variable (scfg : StartConfig) (opts : StoreOptions)

/-- The device backend and the device limit; none in CPU-only mode. -/
def setUpDevice (cpuOnly : Bool) : Boot UInt64 :=
  if cpuOnly then Boot.compute fun a => scfg.deviceLimit (a.probe true)
  else do
    Boot.call (·.createDevice)
    Boot.assign fun obj => { obj with device := true }
    Boot.call (·.openDevice)
    Boot.call (·.deviceInfo)
    let vram ← Boot.compute fun a => scfg.deviceLimit (a.probe false)
    Boot.call (·.createStream)
    Boot.assign fun obj => { obj with deviceStream := true }
    pure vram

/-- The limits, in the budgets and the host backend. A reserve is never more than the limit. -/
def setUpBudgets (cpuOnly : Bool) (vram : UInt64) : Boot StartLimits := do
  let host ← Boot.compute fun a => scfg.hostLimit (a.probe cpuOnly)
  let clamped ← Boot.compute fun a => scfg.sharedLimit (a.probe cpuOnly) vram host
  let nvme ← Boot.compute fun a => scfg.nvmeLimit (a.probe cpuOnly)
  Boot.update fun a obj => obj.setVram <$>
    obj.shared.vramBudget.setLimit clamped.toNat (min a.vramReserve clamped.toNat) scfg.vramReserveMargin
  Boot.update fun _ obj => obj.setHost <$> obj.shared.host.setBudget host.toNat
  Boot.update fun a obj => obj.attach a.capabilities
  Boot.update fun _ obj => obj.setNvme <$> obj.shared.nvmeBudget.setLimit nvme.toNat 0 (some 0)
  Boot.assign fun obj => { obj with shared := { obj.shared with planner := {} } }
  pure { vram := clamped, host := host, nvme := nvme }

/-- The path of the store. A file left at the temporary path by another run is removed, unless stores are retained. -/
def storePath : Boot String :=
  if opts.nvmePath ≠ "" then pure opts.nvmePath
  else do
    let path ← Boot.ask (·.temporaryPath)
    let a ← Act.env
    if !opts.retainStore && a.leftover then do
      Boot.call (·.destroyLeftover)
      Boot.assign fun obj => { obj with storeFile := false }
      pure path
    else pure path

/-- `NvmeBackend::open`. A file that was there stays when it fails. -/
def openStore (path : String) (limits : StartLimits) : Boot Unit := fun _ a obj =>
  match Extents.openMap path limits.nvme.toNat scfg.pageSize.toNat with
  | .error e => (.error (.thrown e), obj)
  | .ok map =>
    match a.openStore with
    | some e => (.error (.thrown e), { obj with storeFile := obj.storeFile || a.openLeft })
    | none => (.ok (), { obj with
        shared := { obj.shared with store := map, disk := a.disk }
        storeOpened := true
        storeFile := true })

def setUpStore (limits : StartLimits) : Boot Unit := do
  let path ← storePath opts
  Boot.assign fun obj => { obj with nvme := true }
  openStore scfg path limits

def setUpTelemetry : Boot Unit := do
  Boot.call (·.sink)
  Boot.assign fun obj => { obj with sink := true }
  Boot.call (·.emit)

/-- `n_workers`. -/
def workerCount : Nat := (if scfg.workerThreads ≠ 0 then scfg.workerThreads else scfg.queueDepth).toNat

def startWorkers : Boot Unit := fun _ a obj =>
  match a.threads with
  | some (n, e) =>
    if n < workerCount scfg then (.error (.thrown e), { obj with workers := n }) else (.ok (), { obj with workers := workerCount scfg })
  | none => (.ok (), { obj with workers := workerCount scfg })

/-- The `try` block of `start`. -/
def startBody : Boot Unit := do
  let selection ← Boot.ask fun a => scfg.startBackend a.registry
  Boot.call (·.probeSystem)
  let cpuOnly := selection.name == "cpu"
  let vram ← setUpDevice scfg cpuOnly
  let limits ← setUpBudgets scfg cpuOnly vram
  setUpStore scfg opts limits
  setUpTelemetry
  startWorkers scfg
  Boot.assign fun obj => { obj with shared := { obj.shared with running := true } }

/-- `start`: how it ends and the object it leaves. Teardown finds no page, so that nothing of `cfg` matters to it. -/
def Instance.start (cfg : RuntimeConfig) (t : Nat) (a : StartAnswers) (ω : TeardownAnswers) (obj : Instance) : Except Stop Unit × Instance :=
  match obj.restart with
  | .error e => (.error (.thrown e), obj)
  | .ok obj =>
    match startBody scfg opts t a obj.begin with
    | (.error (.thrown e), obj) => (.error (.thrown e), (obj.shutdownLocked cfg opts.retainStore t ω).2)
    | r => r

end

end FlashTier
