/-
The public operations of the runtime (`runtime.cpp`), the requests they hand to the workers, and the
worker's turn. Every operation of every thread is a program of steps; `code` gives the program of each.
-/
import FlashTier.Runtime.Transfer

namespace FlashTier

open Conc

variable (cfg : RuntimeConfig)

/-! ## Requests -/

def demandStopped (id : PageId) : Error :=
  ⟨.cancelled, "cannot submit demand work to a stopped runtime", toString id⟩

def prefetchStopped (id : PageId) : Error :=
  ⟨.cancelled, "cannot submit prefetch work to a stopped runtime", toString id⟩

/-- Push a demand with a new promise. -/
def pushDemand (id : PageId) (target : Tier) : Sec Nat := fun _ _ σ =>
  if σ.stopping || !σ.running then (.error (demandStopped id), σ)
  else (.ok σ.promises.length,
    { σ with
      queue := σ.queue ++ [⟨.demand, id, target, some σ.promises.length⟩]
      promises := σ.promises ++ [none] })

def Shared.satisfied (σ : Shared) (k : Nat) : Bool := (σ.promises[k]?.join).isSome

/-- `promise->get_future().get()`. -/
def getFuture (k : Nat) : Sec Unit := fun _ _ σ => ((σ.promises[k]?.join).getD (.ok ()), σ)

/-- `submit_demand`. -/
def submitDemand (id : PageId) (target : Tier) : Code Unit := do
  let k ← .await (fun σ => σ.stopping || !σ.running || σ.queue.length < cfg.queueDepth) (pushDemand id target)
  .await (·.satisfied k) (getFuture k)

/-- How `submit_prefetch` ends under the queue's lock. -/
inductive Pushed where
  | queued | duplicate | full
  deriving DecidableEq

def pushPrefetch (id : PageId) (target : Tier) : Sec Pushed := fun _ _ σ =>
  if σ.stopping || !σ.running then (.error (prefetchStopped id), σ)
  else if id ∈ σ.pendingPrefetches then (.ok .duplicate, σ)
  else if σ.queue.length < cfg.queueDepth + cfg.prefetchDepth then
    (.ok .queued, { σ with
      pendingPrefetches := id :: σ.pendingPrefetches
      queue := σ.queue ++ [⟨.prefetch, id, target, none⟩] })
  else (.ok .full, σ)

/-- `submit_prefetch`. -/
def submitPrefetch (id : PageId) (target : Tier) : Code Unit := do
  match ← .atomic (pushPrefetch cfg id target) with
  | .duplicate => pure ()
  | _ => .atomic emitEvent

def isPrefetchOf (id : PageId) (r : Request) : Bool := r.page == id && r.kind == .prefetch

/-- `remove_queued_prefetch`. -/
def removeQueuedPrefetch (id : PageId) : Sec Unit := Act.modify fun σ =>
  { σ with
    queue := σ.queue.filter fun r => !isPrefetchOf id r
    pendingPrefetches :=
      if σ.queue.any (isPrefetchOf id) then σ.pendingPrefetches.filter (· != id) else σ.pendingPrefetches }

def setPromise (completion : Option Nat) (r : Except Error Unit) : Sec Unit := Act.modify fun σ =>
  match completion with
  | some k => { σ with promises := σ.promises.set k (some r) }
  | none => σ

def markPrefetched (id : PageId) : Sec Unit := Act.modify fun σ =>
  if (σ.table.lookup id).isSome then { σ with prefetched := id :: σ.prefetched.filter (· != id) } else σ

def unmarkPrefetched (id : PageId) : Sec Unit := Act.modify fun σ =>
  { σ with prefetched := σ.prefetched.filter (· != id) }

/-- `consume_prefetch_mark`. -/
def consumePrefetchMark (id : PageId) : Code Unit := do
  let hit ← .atomic fun _ _ σ => (.ok (decide (id ∈ σ.prefetched)), { σ with prefetched := σ.prefetched.filter (· != id) })
  if hit then .atomic emitEvent else pure ()

/-! ## The worker -/

/-- Take the first request; `none` when the runtime stops and the queue is empty. -/
def popRequest : Sec (Option Request) := fun t _ σ =>
  match σ.queue with
  | [] => (.ok none, σ)
  | r :: rest => (.ok (some r), { σ with
      queue := rest
      prefetching := if r.kind = .prefetch then (t, r.page) :: σ.prefetching else σ.prefetching })

/-- The last section of a turn that served a prefetch. -/
def finishPrefetch (id : PageId) : Sec Unit := fun t _ σ =>
  (.ok (), { σ with
    pendingPrefetches := σ.pendingPrefetches.filter (· != id)
    prefetching := σ.prefetching.erase (t, id) })

def workerFailed (r : Request) (e : Error) : Code Unit := do
  if r.kind = .prefetch then .atomic (unmarkPrefetched r.page) else pure ()
  if e.code ≠ .cancelled then .atomic emitEvent else pure ()
  .atomic (setPromise r.completion (.error e))

def serve (r : Request) : Code Unit := do
  if r.kind = .prefetch then .atomic (markPrefetched r.page) else pure ()
  tryCatch (do
    loadPage cfg r.page r.target
    .atomic (setPromise r.completion (.ok ()))) (workerFailed r)
  if r.kind = .prefetch then .atomic (finishPrefetch r.page) else pure ()

/-- One turn of `worker_loop`. -/
def workerTurn : Code Unit := do
  match ← .await (fun σ => σ.stopping || !σ.queue.isEmpty) popRequest with
  | none => pure ()
  | some r => serve cfg r

/-- The admission stop of `shutdown`: queued demands are cancelled. -/
def beginShutdown : Sec Unit := Act.modify fun σ =>
  let cancel := fun (ps : List (Option (Except Error Unit))) (r : Request) =>
    match r.completion with
    | some k => ps.set k (some (.error ⟨.cancelled, "runtime is shutting down", ""⟩))
    | none => ps
  { σ with
    running := false
    stopping := true
    queue := []
    pendingPrefetches := []
    promises := σ.queue.foldl cancel σ.promises }

/-! ## Allocation -/

/-- The arguments of `allocate_page`. -/
structure AllocArgs where
  logicalBytes : Nat
  cls : SemanticClass := .generic
  pinned : Bool := false
  executionOrderHint : Int := -1
  reuseDistanceEstimate : Int := -1

/-- `alloc_size`. -/
def allocSize (bytes : Nat) : Nat := (bytes + cfg.pageSize - 1) / cfg.pageSize * cfg.pageSize

def takePageId : Sec PageId := fun _ _ σ =>
  if σ.nextPageId = 0 ∨ σ.nextPageId = 2 ^ 64 - 1 then
    (.error ⟨.state, "runtime page ID space is exhausted", ""⟩, σ)
  else (.ok σ.nextPageId, σ.issueId)

def chooseTier (bytes : Nat) : Sec Tier := fun _ _ σ =>
  let σ' := { σ with planner := σ.budgets }
  (σ'.planner.chooseAllocationTier bytes, σ')

def newPage (id : PageId) (a : AllocArgs) : PageMetadata :=
  { id := id, logicalSize := a.logicalBytes, allocationSize := allocSize cfg a.logicalBytes, semanticClass := a.cls,
    pinned := a.pinned, executionOrderHint := a.executionOrderHint, reuseDistanceEstimate := a.reuseDistanceEstimate }

/-- Record the insertion of a page with the bytes its memory holds. -/
def recordAlloc (p : PageMetadata) (content : Shared → Bytes) : Sec Unit := fun t _ σ =>
  (.ok (), σ.log (.alloc t p.id p.allocationSize p.pinned (Bytes.take (content σ) p.allocationSize)))

def insertVram (p : PageMetadata) (ptr : Ptr) : Sec Unit := do
  insertPage { p with vramPtr := some ptr }
  transition p.id .residentVram
  recordAlloc p (·.devMem ptr)

def insertHost (p : PageMetadata) (ptr : Ptr) : Sec Unit := do
  insertPage { p with hostPtr := some ptr }
  let tier ← allocationTier ptr
  transition p.id .residentHost
  withPage p.id fun m => { m with currentTier := tier }
  recordAlloc p (·.hostMem ptr)

def insertNvme (p : PageMetadata) : Sec Unit := do
  match ← reserveNvmeRange cfg (p.allocationSize / cfg.pageSize) p.allocationSize p.id with
  | none => throw ⟨.budget, "NVMe store full", toString p.id⟩
  | some offset => do
    insertPage { p with nvmeOffset := some offset, hasNvmeCopy := false }
    transition p.id .residentNvme
    recordAlloc p (·.diskAt offset)

def allocVram (p : PageMetadata) : Code Unit := do
  ensureVramHeadroom cfg p.allocationSize
  if ← .atomic (vramTryReserve p.allocationSize) then do
    let ptr ← tryCatch (.atomic (deviceAlloc cfg p.allocationSize)) fun e => do
      .atomic (vramRelease p.allocationSize)
      throw e
    .atomic (insertVram p ptr)
  else throw ⟨.budget, "VRAM budget could not be reserved after planned eviction", toString p.id⟩

def allocHost (p : PageMetadata) : Code Unit := do
  match ← .atomic (hostAllocate p.allocationSize cfg.pageable) with
  | none => throw ⟨.budget, "host budget could not be reserved", toString p.id⟩
  | some ptr => .atomic (insertHost p ptr)

/-- `allocate_page`. -/
def allocatePage (a : AllocArgs) : Code PageId := do
  .atomic requireRunning
  if a.logicalBytes = 0 then throw ⟨.invalidArgument, "page size must be nonzero", ""⟩
  else if 2 ^ 64 - 1 - (cfg.pageSize - 1) < a.logicalBytes then
    throw ⟨.invalidArgument, "logical allocation size overflows page alignment", ""⟩
  else do
    let id ← .atomic takePageId
    let p := newPage cfg id a
    let tier ← .atomic (chooseTier p.allocationSize)
    match tier with
    | .vram => allocVram cfg p
    | .hostPinned | .hostPageable => allocHost cfg p
    | .nvme => .atomic (insertNvme cfg p)
    | .none => throw ⟨.internal, "unexpected allocation tier", ""⟩
    .atomic emitEvent
    pure id

/-! ## Release -/

/-- The states in which `free_page` does not wait. -/
def Shared.releasable (σ : Shared) (id : PageId) : Bool :=
  match σ.table.lookup id with
  | none => true
  | some p => if p.state.transfer then σ.stopping else !(p.state == .released && p.inFlight)

/-- What a page owns. -/
def PageMetadata.owned (p : PageMetadata) : List Resource :=
  (if p.vramPtr.isSome then [.vram] else []) ++ (if p.hostPtr.isSome then [.host] else []) ++
    (if p.nvmeOffset.isSome then [.nvme] else [])

/-- The claim of `free_page`: the page as it was. `free_page` waits while another thread has it. -/
def claimFree (id : PageId) : Sec PageMetadata := do
  let m ← copyOf id
  match m.state with
  | .residentVram | .residentHost | .residentNvme | .error => do
    transition id .released
    withPage id fun p => { p with inFlight := true }
  | .released => withPage id fun p => { p with inFlight := true }
  | _ => throw ⟨.cancelled, "page release cancelled during shutdown", toString id⟩
  Act.modify fun σ => { σ with prefetched := σ.prefetched.filter (· != id) }
  record fun t => .release t id m.owned
  pure m

/-- What a step of the release of one resource leaves: the first error so far, and whether a resource
could not be released. -/
structure FreeStatus where
  firstError : Option Error := none
  failed : Bool := false

def FreeStatus.orElse (s : FreeStatus) (e : Error) : FreeStatus := { s with firstError := s.firstError.or (some e) }

/-- Release one resource and clear its field; then release its bytes of a budget. -/
def freeResource (r : Resource) (id : PageId) (s : FreeStatus) (free clear : Sec Unit) (release : Option (Sec Unit)) :
    Code FreeStatus :=
  (.atomic (do free; record fun t => .freed t id r) : Code Unit).andThen fun
    | .error e => pure { s.orElse e with failed := true }
    | .ok () => (.atomic clear : Code Unit).andThen fun x =>
      let s := match x with
        | .error e => { s.orElse e with failed := true }
        | .ok () => s
      match release with
      | none => pure s
      | some release => (.atomic (do release; record fun t => .refunded t id r) : Code Unit).andThen fun
        | .error e => pure (s.orElse e)
        | .ok () => pure s

def freeVram (id : PageId) (m : PageMetadata) (s : FreeStatus) : Code FreeStatus :=
  match m.vramPtr with
  | none => pure s
  | some ptr => freeResource .vram id s (deviceFree cfg (some ptr)) (withPage id fun p => { p with vramPtr := none })
      (some (vramRelease m.allocationSize))

/-- The backend's `free` also subtracts the bytes. -/
def freeHost (id : PageId) (m : PageMetadata) (s : FreeStatus) : Code FreeStatus :=
  match m.hostPtr with
  | none => pure s
  | some ptr => freeResource .host id s (do hostFree ptr m.allocationSize; record fun t => .refunded t id .host)
      (withPage id fun p => { p with hostPtr := none }) none

def freeNvme (id : PageId) (m : PageMetadata) (s : FreeStatus) : Code FreeStatus :=
  match m.nvmeOffset with
  | none => pure s
  | some offset => freeResource .nvme id s (freeExtents offset (m.allocationSize / cfg.pageSize))
      (withPage id fun p => { p with nvmeOffset := none, hasNvmeCopy := false }) (some (nvmeRelease m.allocationSize))

/-- The last section of `free_page`. -/
def finishFree (id : PageId) (failed : Bool) : Sec Unit :=
  if failed then do
    withPage id fun p => { p with inFlight := false }
    recordSettle id
  else do
    record fun t => .erase t id
    erasePage id

/-- `free_page`. -/
def freePage (id : PageId) : Code Unit := do
  .atomic requireRunning
  let m ← .await (·.releasable id) (claimFree id)
  .atomic (removeQueuedPrefetch id)
  let s ← freeVram cfg id m {}
  let s ← freeHost id m s
  let s ← freeNvme cfg id m s
  .atomic (finishFree id s.failed)
  .atomic notifyAll
  match s.firstError with
  | some e => throw e
  | none => .atomic emitEvent

/-! ## Access -/

/-- A new number of the access sequence and the count of one more access. -/
def touch (id : PageId) (f : PageMetadata → PageMetadata) : Sec Unit := do
  let σ ← Act.get
  withPage id fun p => { f p with lastAccessSequence := u64 (σ.accessSeq + 1), accessCount := u64 (p.accessCount + 1) }
  Act.modify fun σ => { σ with accessSeq := u64 (σ.accessSeq + 1) }

/-- The bytes of a device-resident page. -/
def Shared.vramBytes (σ : Shared) (m : PageMetadata) (bytes : Nat) : List UInt8 := Bytes.take (σ.devMem (deref m.vramPtr)) bytes

/-- Copy to a device-resident page; a failed copy records what it left of the page. -/
def writeVram (cur : PageMetadata) (data : Bytes) (bytes : Nat) : Sec Unit := do
  let σ ← Act.get
  tryCatch (deviceCopyH2D cfg (deref cur.vramPtr) data bytes) fun e => do
    let σ' ← Act.get
    record fun t => .torn t cur.id cur.hasNvmeCopy (σ.vramBytes cur bytes) (σ'.vramBytes cur bytes)
    throw e

/-- One turn of the copy loop of `write_page`: whether the data is written. -/
def tryWrite (id : PageId) (data : Bytes) (bytes : Nat) : Sec Bool := do
  let cur ← copyOf id
  let commit : Sec Bool := do
    touch id fun p => { p with dirty := true, hasNvmeCopy := false, checksum := fnv1a64 (Bytes.take data bytes) }
    record fun t => .wrote t id (Bytes.take data bytes)
    pure true
  match cur.state with
  | .residentHost => do
    Act.modify fun σ => σ.writeHost (deref cur.hostPtr) data bytes
    commit
  | .residentVram => do
    writeVram cfg cur data bytes
    commit
  | .error | .released | .unallocated =>
    throw ⟨.state, "page not writable in current state", toString id ++ " " ++ pageStateName cur.state⟩
  | _ => pure false

/-- Wait for the page to settle and demand it when it is in the store. -/
def settleInMemory (id : PageId) (target : PageMetadata → Sec Tier) : Code PageMetadata := do
  let m ← waitSettled id
  if m.state = .residentNvme then do
    let target ← .atomic (target m)
    submitDemand cfg id target
    waitSettled id
  else pure m

/-- Repeat a copy under the lock until it is done, settling the page between two tries; `none` when the
deadline comes first. -/
def copyRounds {α : Type} (id : PageId) (copy : Sec (Option α)) : Nat → Code (Option α)
  | 0 => pure none
  | n + 1 => do
    match ← .atomic copy with
    | some a => pure (some a)
    | none => do
      let _ ← settleInMemory cfg id fun _ => pure .hostPinned
      copyRounds id copy n

def untilDeadline {α : Type} (id : PageId) (copy : Sec (Option α)) : Code (Option α) := do
  let rounds ← .atomic (fun _ ω σ => (.ok ω.rounds, σ))
  copyRounds cfg id copy rounds

/-- The copy loop of `write_page` for a page as it was when it settled, and what follows it. -/
def finishWrite (id : PageId) (data : Bytes) (m : PageMetadata) : Code Unit := do
  match ← untilDeadline cfg id (do if ← tryWrite cfg id data m.allocationSize then pure (some ()) else pure none) with
  | none => throw ⟨.state, "page did not become writable after repeated retries", toString id⟩
  | some () => do
    consumePrefetchMark id
    .atomic emitEvent

/-- `write_page_impl`. -/
def writePageImpl (id : PageId) (data : Option Bytes) : Code Unit := do
  let m ← waitSettled id
  match data with
  | none => throw ⟨.invalidArgument, "write buffer must not be null", toString id⟩
  | some data => do
    let m ← if m.state = .residentNvme then do
        submitDemand cfg id .hostPinned
        waitSettled id
      else pure m
    finishWrite cfg id data m

/-- The tier `read_page` demands a page to. -/
def readTarget (m : PageMetadata) : Sec Tier := fun _ _ σ =>
  (.ok (if m.allocationSize ≤ σ.vramBudget.headroom then .vram else .hostPinned), σ)

/-- One turn of the copy loop of `read_page` and of `verify_page`: the bytes and the page, if it is in memory. -/
def tryCopyOut (id : PageId) (bytes : Nat) : Sec (Option (List UInt8 × PageMetadata)) := do
  let cur ← copyOf id
  match cur.state with
  | .residentHost => do
    let σ ← Act.get
    pure (some (Bytes.take (σ.hostMem (deref cur.hostPtr)) bytes, cur))
  | .residentVram => do
    let out ← deviceStage cfg (deref cur.vramPtr) bytes
    pure (some (out, cur))
  | _ => pure none

def tryRead (id : PageId) (bytes : Nat) : Sec (Option (List UInt8)) := do
  match ← tryCopyOut cfg id bytes with
  | none => pure none
  | some (out, _) => do
    touch id fun p => p
    record fun t => .read t id out
    pure (some out)

/-- The copy loop of `read_page` for a page as it was when it settled, and what follows it; `promoted` says
whether the page was demanded. -/
def finishRead (id : PageId) (promoted : Bool) (m : PageMetadata) : Code (List UInt8) := do
  match ← untilDeadline cfg id (tryRead cfg id m.allocationSize) with
  | none => throw ⟨.state, "page did not become readable after repeated retries", toString id⟩
  | some bytes => do
    consumePrefetchMark id
    .atomic emitEvent
    if promoted then do
      .atomic emitEvent
      .atomic emitEvent
    else pure ()
    pure bytes

/-- `read_page`; `out` says whether the caller's buffer is not null. -/
def readPage (id : PageId) (out : Bool) : Code (List UInt8) := do
  .atomic requireRunning
  let m ← waitSettled id
  if !out then throw ⟨.invalidArgument, "read buffer must not be null", toString id⟩
  else do
    let m' ← if m.state = .residentNvme then do
        let target ← .atomic (readTarget m)
        submitDemand cfg id target
        waitSettled id
      else pure m
    finishRead cfg id (m.state = .residentNvme) m'

/-- `fill_page`. -/
def fillPage (id : PageId) : Code Unit := do
  .atomic requireRunning
  let m ← .atomic (copyOf id)
  let pattern := fillPattern m.allocationSize cfg.seed (UInt64.ofNat id)
  writePageImpl cfg id (some fun i => pattern.getD i 0)

/-- `hex_u64`: sixteen upper-case digits. -/
def hexU64 (v : UInt64) : String :=
  String.ofList ((List.range 16).map fun i => (Nat.digitChar (v.toNat / 16 ^ (15 - i) % 16)).toUpper)

/-- `transfer_path_str`: the device tier is reported with the backend's name. -/
def transferPathStr (src dst : Tier) : String :=
  let label := fun tier : Tier =>
    if tier = .vram then (if cfg.backendName = "" then "vram" else cfg.backendName ++ "_device") else tierName tier
  label src ++ "->" ++ label dst

def integrityFailed (m : PageMetadata) (actual : UInt64) (mismatch : Option IntegrityMismatch) : Error :=
  ⟨.integrity, "page integrity check failed",
    "page " ++ toString m.id ++ " expected_checksum=" ++ hexU64 m.checksum ++ " actual_checksum=" ++ hexU64 actual ++
      (match mismatch with
        | some x => " mismatch_at=" ++ toString x.offset
        | none => "") ++
      " state=" ++ pageStateName m.state ++ " path=" ++ transferPathStr cfg m.currentTier m.currentTier⟩

/-- `verify_page`. -/
def verifyPage (id : PageId) : Code Unit := do
  .atomic requireRunning
  let m ← settleInMemory cfg id fun _ => pure .hostPinned
  match ← untilDeadline cfg id (tryCopyOut cfg id m.allocationSize) with
  | none => throw ⟨.state, "page did not become verifiable after repeated retries", toString id⟩
  | some (buf, m) => do
    let actual := fnv1a64 buf
    let mismatch := verifyPattern (fun i => buf.getD i 0) buf.length cfg.seed (UInt64.ofNat id) 0
    .atomic emitEvent
    if actual ≠ m.checksum ∨ mismatch.isSome then throw (integrityFailed cfg m actual mismatch)
    else pure ()

/-! ## Residency control -/

/-- `promote`. -/
def promote (id : PageId) : Code Unit := do
  .atomic requireRunning
  let m ← .atomic (copyOf id)
  if m.state = .residentVram then pure ()
  else do
    let device ← .atomic hasVram
    submitDemand cfg id (if device then .vram else .hostPinned)

def cannotDemote (id : PageId) : Error := ⟨.state, "cannot demote page in current state", toString id⟩

def demotionUnsettled (id : PageId) : Error := ⟨.state, "page did not settle during demotion", toString id⟩

/-- The loop of `demote_to_host` and `demote_to_nvme`: until the page is in `goal`, take the transfer
that `move` gives for its state. -/
def demoteAttempts (id : PageId) (goal : PageState) (move : PageState → Option (Code Unit)) : Nat → Code Unit
  | 0 => throw (demotionUnsettled id)
  | n + 1 => do
    let m ← waitSettled id
    if m.state = goal then pure ()
    else match move m.state with
      | none => throw (cannotDemote id)
      | some transfer => do
        transfer
        let m ← waitSettled id
        if m.state = goal then pure () else demoteAttempts id goal move n

/-- `demote_to_host_impl`. -/
def demoteToHostImpl (id : PageId) : Code Unit :=
  demoteAttempts id .residentHost (fun
    | .residentVram => some (evictVramToHost cfg none id)
    | .residentNvme => some (loadNvmeToHost cfg id)
    | _ => none) 16

/-- `demote_to_host`. -/
def demoteToHost (id : PageId) : Code Unit := do
  .atomic requireRunning
  demoteToHostImpl cfg id

/-- `demote_to_nvme`. -/
def demoteToNvme (id : PageId) : Code Unit := do
  .atomic requireRunning
  demoteAttempts id .residentNvme (fun
    | .residentVram => some (evictVramToHost cfg none id)
    | .residentHost => some (evictHostToNvme cfg none id)
    | _ => none) 16

/-- The clean drop of `evict`; whether the page was dropped. -/
def tryDrop (id : PageId) : Sec Bool := do
  let cur ← copyOf id
  if cur.dirty = false ∧ cur.hasNvmeCopy ∧ cur.inFlight = false ∧ cur.state = .residentVram then do
    dropClean cfg id cur
    pure true
  else pure false

/-- `evict`. -/
def evict (id : PageId) : Code Unit := do
  .atomic requireRunning
  let m ← waitSettled id
  if m.state = .residentNvme then pure ()
  else if m.state = .residentVram ∧ m.dirty = false ∧ m.hasNvmeCopy then do
    if ← .atomic (tryDrop cfg id) then .atomic emitEvent else demoteToHostImpl cfg id
  else demoteToHostImpl cfg id

def setPinned (id : PageId) (pinned : Bool) : Sec Unit := do
  withPage id fun p => { p with pinned := pinned }
  record fun t => .pin t id pinned

/-- `pin`. -/
def pin (id : PageId) (pinned : Bool) : Code Unit := do
  .atomic requireRunning
  .atomic (setPinned id pinned)

def prefetchEach : List PageId → Code Unit
  | [] => pure ()
  | id :: rest => do
    let m ← waitSettled id
    if m.state = .residentVram ∨ m.state = .residentHost then prefetchEach rest
    else do
      let target ← .atomic (readTarget m)
      submitPrefetch cfg id target
      prefetchEach rest

/-- `prefetch`. -/
def prefetch (ids : List PageId) : Code Unit := do
  .atomic requireRunning
  prefetchEach cfg ids

/-- `prefetch_sequential`, with a vector of at most `2 ^ 60 - 1` ids. -/
def prefetchSequential (start count : Nat) : Code Unit :=
  if 2 ^ 60 - 1 < count ∨ (count ≠ 0 ∧ 2 ^ 64 - 1 - (count - 1) < start) then
    throw ⟨.invalidArgument, "sequential prefetch range is too large", ""⟩
  else prefetch cfg (List.range' start count)

/-! ## Threads -/

/-- The four transfers. -/
inductive TransferKind where
  | evictVramToHost | evictHostToNvme | loadNvmeToHost | promoteHostToVram
  deriving DecidableEq, Repr

/-- A transfer as its callers start it. -/
def transferStep (id : PageId) : TransferKind → Code Unit
  | .evictVramToHost => evictVramToHost cfg none id
  | .evictHostToNvme => evictHostToNvme cfg none id
  | .loadNvmeToHost => loadNvmeToHost cfg id
  | .promoteHostToVram => promoteHostToVram cfg id

/-- What a thread of the runtime is started for: a public operation, a worker's turn, the stop of
admission, or a transfer by itself. -/
inductive Op where
  | allocate (a : AllocArgs)
  | free (id : PageId)
  | write (id : PageId) (data : Option Bytes)
  | fill (id : PageId)
  | read (id : PageId) (out : Bool)
  | verify (id : PageId)
  | promote (id : PageId)
  | demoteToHost (id : PageId)
  | demoteToNvme (id : PageId)
  | evict (id : PageId)
  | pin (id : PageId) (pinned : Bool)
  | prefetch (ids : List PageId)
  | prefetchSequential (start count : Nat)
  | worker
  | shutdown
  | transfer (kind : TransferKind) (id : PageId)

/-- What an operation returns. -/
inductive Reply where
  | unit
  | page (id : PageId)
  | bytes (b : List UInt8)
  deriving DecidableEq

def done (p : Code Unit) : Code Reply := do
  p
  pure .unit

/-- The program of each thread. -/
def code : Op → Code Reply
  | .allocate a => do
    let id ← allocatePage cfg a
    pure (.page id)
  | .free id => done (freePage cfg id)
  | .write id data => done (do .atomic requireRunning; writePageImpl cfg id data)
  | .fill id => done (fillPage cfg id)
  | .read id out => do
    let b ← readPage cfg id out
    pure (.bytes b)
  | .verify id => done (verifyPage cfg id)
  | .promote id => done (promote cfg id)
  | .demoteToHost id => done (demoteToHost cfg id)
  | .demoteToNvme id => done (demoteToNvme cfg id)
  | .evict id => done (evict cfg id)
  | .pin id pinned => done (pin id pinned)
  | .prefetch ids => done (prefetch cfg ids)
  | .prefetchSequential start count => done (prefetchSequential cfg start count)
  | .worker => done (workerTurn cfg)
  | .shutdown => done (.atomic beginShutdown)
  | .transfer kind id => done (transferStep cfg id kind)

end FlashTier
