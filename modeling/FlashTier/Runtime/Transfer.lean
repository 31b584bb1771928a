/-
The transfer engine (`runtime.cpp`): reserving store extents, the four claim-atomic transfers, the
claim of host buffers and of device headroom, and the demand load. Every `state_mu_` section and
every backend call outside one is a step; a bounded wait on `state_cv_` is a step that does nothing,
an unbounded one a guard.
-/
import FlashTier.Runtime.Sections

namespace FlashTier

open Conc

/-- A pointer passed to a backend. It is not null where a page's state says so. -/
def deref (p : Option Ptr) : Ptr := p.getD 0

/-- Why a page is moved: `none` for a call that names it, and for an eviction on behalf of another
page the length of the history when its pinned flag was last looked at. -/
abbrev Cause := Option Nat

def recordMove (cause : Cause) (m : PageMetadata) : Sec Unit :=
  match cause with
  | none => pure ()
  | some ticket => record fun t => .autoMove t m.id ticket m.pinned

/-- Record that the running thread gives the page back. -/
def recordSettle (id : PageId) : Sec Unit := fun t _ σ =>
  match σ.table.lookup id with
  | some p => (.ok (), σ.log (.settle t id p.state p.inFlight))
  | none => (.ok (), σ)

/-- `state_cv_.notify_all`. -/
def notifyAll : Sec Unit := record .notified

/-- The end of a bounded wait on `state_cv_`. -/
def pause : Sec Unit := pure ()

variable (cfg : RuntimeConfig)

/-! ## Store extents -/

def tryReserveRange (n bytes : Nat) : Sec (Option Nat) := do
  match ← allocateExtents n with
  | none => pure none
  | some offset => do
    if ← nvmeTryReserve bytes then pure (some offset)
    else do
      freeExtents offset n
      pure none

/-- A page whose extent may be taken away: resident in memory, so that its extent is a clean copy or
stale. -/
def Reclaimable (exclude : PageId) (p : PageMetadata) : Bool :=
  p.id != exclude && !p.inFlight && p.nvmeOffset.isSome && (p.state == .residentVram || p.state == .residentHost)

def reclaimable (exclude : PageId) (σ : Shared) : List (Nat × PageId) :=
  ((σ.table.items.filter (Reclaimable exclude)).map fun p => (p.nvmeOffset.getD 0, p.id)).insertionSort
    fun a b => a.1 < b.1 ∨ (a.1 = b.1 ∧ a.2 ≤ b.2)

def reclaim (offset : Nat) (id : PageId) : Sec Unit := do
  let page ← copyOf id
  freeExtents offset (page.allocationSize / cfg.pageSize)
  nvmeRelease page.allocationSize
  withPage id fun m => { m with nvmeOffset := none, hasNvmeCopy := false }

def reclaimLoop (n bytes : Nat) : List (Nat × PageId) → Sec (Option Nat)
  | [] => pure none
  | (offset, id) :: rest => do
    reclaim cfg offset id
    match ← tryReserveRange n bytes with
    | some offset => pure (some offset)
    | none => reclaimLoop n bytes rest

/-- `reserve_nvme_range_locked`. -/
def reserveNvmeRange (n bytes : Nat) (exclude : PageId) : Sec (Option Nat) := do
  match ← tryReserveRange n bytes with
  | some offset => pure (some offset)
  | none => do
    let σ ← Act.get
    reclaimLoop cfg n bytes (reclaimable exclude σ)

/-! ## `evict_host_to_nvme` -/

def storeFull (id : PageId) : Error := ⟨.budget, "NVMe store full during writeback", toString id⟩

/-- The extent an eviction writes to: the page's own, or a new one when it has none and must write. -/
def evictOffset (m : PageMetadata) : Sec (Option Nat) :=
  if (m.dirty || !m.hasNvmeCopy) && m.nvmeOffset.isNone then do
    match ← reserveNvmeRange cfg (m.allocationSize / cfg.pageSize) m.allocationSize m.id with
    | some offset => pure (some offset)
    | none => throw (storeFull m.id)
  else pure m.nvmeOffset

/-- The claim: the page before it and the extent; `none` when the page is busy or not in host memory. -/
def claimEvictHost (cause : Cause) (id : PageId) : Sec (Option (PageMetadata × Option Nat)) := do
  let m ← copyOf id
  if m.state ≠ .residentHost ∨ m.inFlight then pure none
  else do
    let offset ← evictOffset cfg m
    withPage id fun p => { p with inFlight := true, nvmeOffset := offset }
    transition id .evictingToNvme
    recordMove cause m
    record fun t => .claim t id
    pure (some (m, offset))

def failEvictHost (id : PageId) : Sec Unit := do
  withPage id fun p => { p with inFlight := false }
  transition id .error
  recordSettle id
  notifyAll

def finishEvictHost (id : PageId) (m : PageMetadata) : Sec Unit := do
  hostFree (deref m.hostPtr) m.allocationSize
  withPage id fun p =>
    { p with hostPtr := none, inFlight := false, dirty := false, hasNvmeCopy := true, demotionCount := p.demotionCount + 1 }
  transition id .residentNvme
  recordSettle id

def writebackCancelled (id : PageId) : Error := ⟨.cancelled, "NVMe writeback cancelled during shutdown", toString id⟩

def writeback (id : PageId) (offset : Option Nat) (m : PageMetadata) : Code Unit := do
  .atomic (throwIfStopping (writebackCancelled id))
  .atomic (submitIo "write" offset m.allocationSize)
  .atomic (awaitWrite (offset.getD 0) (deref m.hostPtr) m.allocationSize)

/-- What `evict_host_to_nvme` does after the claim. -/
def evictHostTail (id : PageId) (m : PageMetadata) (offset : Option Nat) : Code Unit := do
  tryCatch (if m.dirty || !m.hasNvmeCopy then writeback id offset m else pure ()) fun e => do
    .atomic (failEvictHost id)
    throw e
  .atomic (finishEvictHost id m)
  .atomic notifyAll
  .atomic emitEvent
  .atomic emitEvent

/-- `evict_host_to_nvme`. -/
def evictHostToNvme (cause : Cause) (id : PageId) : Code Unit := do
  match ← .atomic (claimEvictHost cfg cause id) with
  | none => pure ()
  | some (m, offset) => evictHostTail id m offset

/-! ## `claim_host_buffer` -/

/-- The end of one round of `claim_host_buffer`. -/
inductive Round where
  | claimed (ptr : Ptr)
  | retry
  | wait

def hostVictims (forPage : PageId) (σ : Shared) : List PageMetadata :=
  σ.table.items.filter fun p => p.id != forPage && p.state == .residentHost && !p.pinned && !p.inFlight

/-- The victims of a host claim in the policy's order, and the length of the history at the snapshot. -/
def snapshotHostVictims (forPage : PageId) : Sec (List PageId × Nat) := fun _ _ σ =>
  (.ok (cfg.policy.rankVictims (hostVictims forPage σ), σ.history.length), σ)

/-- Evict the victims in order until one is in the store. -/
def evictFirst (ticket : Nat) : List PageId → Code Bool
  | [] => pure false
  | victim :: rest => do
    evictHostToNvme cfg (some ticket) victim
    let m ← .atomic (copyOf victim)
    if m.state = .residentNvme then pure true else evictFirst ticket rest

def hostRound (bytes : Nat) (forPage : PageId) : Code Round := do
  match ← .atomic (hostAllocate bytes cfg.pageable) with
  | some ptr => pure (.claimed ptr)
  | none => do
    let (victims, ticket) ← .atomic (snapshotHostVictims cfg forPage)
    if ← evictFirst cfg ticket victims then pure .retry
    else do
      let headroom ← .atomic (fun _ _ σ => (.ok σ.host.headroom, σ))
      pure (if bytes ≤ headroom then .retry else .wait)

/-- Hold `headroom_mu_` around a program. -/
def withHeadroomLock {α : Type} (p : Code α) : Code α := do
  .await (fun σ => !σ.headroomHeld) (Act.modify fun σ => { σ with headroomHeld := true })
  p.finally_ (.atomic (Act.modify fun σ => { σ with headroomHeld := false }))

def claimCancelled (id : PageId) : Error := ⟨.cancelled, "host-buffer claim cancelled during shutdown", toString id⟩

def hostUnsatisfied (id : PageId) : Error := ⟨.budget, "host budget could not be satisfied", toString id⟩

def claimHostRounds (bytes : Nat) (forPage : PageId) : Nat → Code Ptr
  | 0 => throw (hostUnsatisfied forPage)
  | n + 1 => do
    .atomic (throwIfStopping (claimCancelled forPage))
    match ← withHeadroomLock (hostRound cfg bytes forPage) with
    | .claimed ptr => pure ptr
    | .retry => claimHostRounds bytes forPage n
    | .wait => do
      .atomic pause
      claimHostRounds bytes forPage n

/-- `claim_host_buffer`. -/
def claimHostBuffer (bytes : Nat) (forPage : PageId) : Code Ptr := claimHostRounds cfg bytes forPage 64

/-- The handler around a claim that took a host buffer: give the buffer back, whatever that throws. -/
def orFreeHost {α : Type} (ptr : Ptr) (bytes : Nat) (p : Code α) : Code α :=
  tryCatch p fun e => do
    tryCatch (.atomic (hostFree ptr bytes)) fun _ => pure ()
    throw e

/-! ## `evict_vram_to_host` -/

def claimEvictVram (cause : Cause) (id : PageId) (hostPtr : Ptr) (requested : Nat) : Sec (Option PageMetadata) := do
  let m ← copyOf id
  if m.state ≠ .residentVram ∨ m.inFlight then do
    hostFree hostPtr requested
    pure none
  else do
    withPage id fun p => { p with hostPtr := some hostPtr, inFlight := true }
    transition id .evictingToHost
    recordMove cause m
    record fun t => .claim t id
    pure (some m)

/-- The handler of a failed copy to host memory, of `evict_vram_to_host` and `load_nvme_to_host`. -/
def failToHost (id : PageId) (hostPtr : Ptr) (bytes : Nat) : Sec Unit := do
  hostFree hostPtr bytes
  withPage id fun p => { p with hostPtr := none, inFlight := false }
  transition id .error
  recordSettle id
  notifyAll

def finishEvictVram (id : PageId) (hostTier : Tier) (m : PageMetadata) : Sec Unit := do
  deviceFree cfg m.vramPtr
  vramRelease m.allocationSize
  withPage id fun p => { p with vramPtr := none, inFlight := false, demotionCount := p.demotionCount + 1 }
  transition id .residentHost
  withPage id fun p => { p with currentTier := hostTier }
  recordSettle id

/-- What `evict_vram_to_host` does after the claim. -/
def evictVramTail (id : PageId) (hostPtr : Ptr) (hostTier : Tier) (m : PageMetadata) : Code Unit := do
  tryCatch (.atomic (deviceCopyD2H cfg hostPtr (deref m.vramPtr) m.allocationSize)) fun e => do
    .atomic (failToHost id hostPtr m.allocationSize)
    throw e
  .atomic (finishEvictVram cfg id hostTier m)
  .atomic notifyAll
  .atomic emitEvent
  .atomic emitEvent

/-- `evict_vram_to_host`. -/
def evictVramToHost (cause : Cause) (id : PageId) : Code Unit := do
  let m ← .atomic (copyOf id)
  let requested := m.allocationSize
  let hostPtr ← claimHostBuffer cfg requested id
  let hostTier ← .atomic (allocationTier hostPtr)
  match ← orFreeHost hostPtr requested (.atomic (claimEvictVram cause id hostPtr requested)) with
  | none => pure ()
  | some m => evictVramTail cfg id hostPtr hostTier m

/-! ## `load_nvme_to_host` -/

def claimLoad (id : PageId) (hostPtr : Ptr) (requested : Nat) : Sec (Option PageMetadata) := do
  let m ← copyOf id
  if m.state ≠ .residentNvme ∨ m.inFlight then do
    hostFree hostPtr requested
    pure none
  else do
    withPage id fun p => { p with hostPtr := some hostPtr, inFlight := true }
    transition id .loadingToHost
    record fun t => .claim t id
    pure (some m)

def finishLoad (id : PageId) (hostTier : Tier) : Sec Unit := do
  withPage id fun p => { p with inFlight := false, promotionCount := p.promotionCount + 1 }
  transition id .residentHost
  withPage id fun p => { p with currentTier := hostTier }
  recordSettle id

def nvmeLoadCancelled (id : PageId) : Error := ⟨.cancelled, "NVMe load cancelled during shutdown", toString id⟩

def readIn (id : PageId) (hostPtr : Ptr) (m : PageMetadata) : Code Unit := do
  .atomic (throwIfStopping (nvmeLoadCancelled id))
  .atomic (submitIo "read" m.nvmeOffset m.allocationSize)
  .atomic (awaitRead (m.nvmeOffset.getD 0) hostPtr m.allocationSize)

/-- What `load_nvme_to_host` does after the claim. -/
def loadTail (id : PageId) (hostPtr : Ptr) (hostTier : Tier) (m : PageMetadata) : Code Unit := do
  tryCatch (readIn id hostPtr m) fun e => do
    .atomic (failToHost id hostPtr m.allocationSize)
    throw e
  .atomic (finishLoad id hostTier)
  .atomic notifyAll
  .atomic emitEvent

/-- `load_nvme_to_host`. -/
def loadNvmeToHost (id : PageId) : Code Unit := do
  let m ← .atomic (copyOf id)
  let requested := m.allocationSize
  let hostPtr ← claimHostBuffer cfg requested id
  let hostTier ← .atomic (allocationTier hostPtr)
  match ← orFreeHost hostPtr requested (.atomic (claimLoad id hostPtr requested)) with
  | none => pure ()
  | some m => loadTail id hostPtr hostTier m

/-! ## `promote_host_to_vram` -/

def claimPromote (id : PageId) : Sec (Option (PageMetadata × Ptr)) := do
  let m ← copyOf id
  if m.state ≠ .residentHost ∨ m.inFlight then pure none
  else do
    if ← vramTryReserve m.allocationSize then do
      let vramPtr ← tryCatch (deviceAlloc cfg m.allocationSize) fun e => do
        vramRelease m.allocationSize
        throw e
      withPage id fun p => { p with vramPtr := some vramPtr, inFlight := true }
      transition id .loadingToVram
      record fun t => .claim t id
      pure (some (m, vramPtr))
    else pure none

def failPromote (id : PageId) (vramPtr : Ptr) (bytes : Nat) : Sec Unit := do
  vramRelease bytes
  deviceFree cfg (some vramPtr)
  withPage id fun p => { p with vramPtr := none, inFlight := false }
  transition id .error
  recordSettle id
  notifyAll

def finishPromote (id : PageId) (m : PageMetadata) : Sec Unit := do
  hostFree (deref m.hostPtr) m.allocationSize
  withPage id fun p => { p with hostPtr := none, inFlight := false, promotionCount := p.promotionCount + 1 }
  transition id .residentVram
  recordSettle id

/-- `device_copy_h2d` from a host buffer. -/
def copyUp (vramPtr hostPtr : Ptr) (bytes : Nat) : Sec Unit := do
  let σ ← Act.get
  deviceCopyH2D cfg vramPtr (σ.hostMem hostPtr) bytes

/-- What `promote_host_to_vram` does after the claim. -/
def promoteTail (id : PageId) (vramPtr : Ptr) (m : PageMetadata) : Code Unit := do
  tryCatch (.atomic (copyUp cfg vramPtr (deref m.hostPtr) m.allocationSize)) fun e => do
    .atomic (failPromote cfg id vramPtr m.allocationSize)
    throw e
  .atomic (finishPromote id m)
  .atomic notifyAll
  .atomic emitEvent

/-- `vram_tier_exists`. -/
def vramTierExists : Sec Bool := fun _ _ σ => (.ok (σ.vramBudget.limit != 0 && cfg.device), σ)

/-- `promote_host_to_vram`. -/
def promoteHostToVram (id : PageId) : Code Unit := do
  let m ← .atomic (copyOf id)
  if m.state ≠ .residentHost ∨ m.inFlight then pure ()
  else do
    if ← .atomic (vramTierExists cfg) then do
      match ← .atomic (claimPromote cfg id) with
      | none => pure ()
      | some (m, vramPtr) => promoteTail cfg id vramPtr m
    else pure ()

/-! ## `ensure_vram_headroom` -/

def vramVictims (σ : Shared) : List PageMetadata :=
  σ.table.items.filter fun p => p.state == .residentVram && !p.pinned && !p.inFlight

/-- What the locked part of a decision finds: the page is pinned or busy, was dropped, or is left to a
demotion. -/
inductive Decided where
  | skip
  | dropped
  | demote

/-- The clean drop of a page whose copy in the store is valid. -/
def dropClean (id : PageId) (cur : PageMetadata) : Sec Unit := do
  deviceFree cfg cur.vramPtr
  vramRelease cur.allocationSize
  withPage id fun p => { p with vramPtr := none }
  transition id .residentNvme
  Act.modify fun σ => { σ with prefetched := σ.prefetched.filter (· != id) }

def decideVictim (d : EvictionDecision) : Sec Decided := do
  let cur ← copyOf d.id
  if cur.pinned || cur.inFlight then pure .skip
  else if d.target = .nvme ∧ cur.dirty = false ∧ cur.hasNvmeCopy ∧ cur.state = .residentVram then do
    let σ ← Act.get
    dropClean cfg d.id cur
    recordMove (some σ.history.length) cur
    pure .dropped
  else pure .demote

/-- `copy_of`, with the length of the history at that moment. -/
def lookAt (id : PageId) : Sec (PageMetadata × Nat) := fun _ _ σ =>
  match σ.table.lookup id with
  | some p => (.ok (p, σ.history.length), σ)
  | none => (.error (notFound id), σ)

/-- The decisions in order; whether any made progress. -/
def runDecisions : List EvictionDecision → Bool → Code Bool
  | [], madeProgress => pure madeProgress
  | d :: rest, madeProgress => do
    match ← .atomic (decideVictim cfg d) with
    | .skip => runDecisions rest madeProgress
    | .dropped => do
      .atomic emitEvent
      runDecisions rest true
    | .demote => do
      let (cur, ticket) ← .atomic (lookAt d.id)
      if cur.pinned || cur.inFlight || cur.state != .residentVram then runDecisions rest madeProgress
      else do
        evictVramToHost cfg (some ticket) d.id
        let m ← .atomic (copyOf d.id)
        if m.state ≠ .residentHost then runDecisions rest madeProgress
        else do
          if d.target = .nvme then evictHostToNvme cfg (some ticket) d.id else pure ()
          runDecisions rest true

/-- What a throw of the planner records. -/
def Shared.refusal (σ : Shared) (need : Nat) (candidates : List PageMetadata) : Refusal where
  need := need
  candidates := candidates.map PageMetadata.id
  planner := σ.planner
  pages := σ.table.items
  budget := σ.vramBudget

/-- `plan_evictions`, with the budgets the planner holds; a throw is recorded. -/
def plan (need : Nat) (candidates : List PageMetadata) (hostFree : Nat) : Sec (List EvictionDecision) := fun t _ σ =>
  match σ.planner.planEvictions need candidates cfg.policy hostFree with
  | .ok decisions => (.ok decisions, σ)
  | .error e => (.error e, σ.log (.refused t (σ.refusal need candidates)))

def headroomCancelled : Error := ⟨.cancelled, "device headroom request cancelled during shutdown", ""⟩

def headroomTimeout (need : Nat) : Error :=
  ⟨.budget, "timed out waiting for device-memory eviction progress", "need " ++ toString need ++ " bytes"⟩

def headroomRounds (need : Nat) : Nat → Code Unit
  | 0 => throw (headroomTimeout need)
  | n + 1 => do
    .atomic (throwIfStopping headroomCancelled)
    let headroom ← .atomic (fun _ _ σ => (.ok σ.vramBudget.headroom, σ))
    if need ≤ headroom then pure ()
    else do
      let (candidates, hostFree) ← .atomic (fun _ _ σ => (.ok (vramVictims σ, σ.host.headroom), σ))
      let budgets ← .atomic (fun _ _ σ => (.ok σ.budgets, σ))
      .atomic (Act.modify fun σ => { σ with planner := budgets })
      let decisions ← .atomic (plan cfg need candidates hostFree)
      if ← runDecisions cfg decisions false then headroomRounds need n
      else do
        .atomic pause
        headroomRounds need n

/-- `ensure_vram_headroom`; how often the loop goes round before its deadline is the environment's. -/
def ensureVramHeadroom (need : Nat) : Code Unit := do
  let rounds ← .atomic (fun _ ω σ => (.ok ω.rounds, σ))
  headroomRounds cfg need rounds

/-! ## Waiting and loading -/

def waitCancelled (id : PageId) : Error := ⟨.cancelled, "page wait cancelled during shutdown", toString id⟩

/-- A settled page. `wait_settled` waits while the page is in a transfer. -/
def settledPage (id : PageId) : Sec PageMetadata := do
  throwIfStopping (waitCancelled id)
  let m ← copyOf id
  match m.state with
  | .error => throw ⟨.state, "page is in failed state", toString id⟩
  | .released | .unallocated => throw ⟨.state, "page is not allocated", toString id⟩
  | _ => pure m

def Shared.settled (σ : Shared) (id : PageId) : Bool :=
  match σ.table.lookup id with
  | some p => !p.state.transfer
  | none => true

/-- `wait_settled`. -/
def waitSettled (id : PageId) : Code PageMetadata :=
  .await (fun σ => σ.stopping || σ.settled id) (settledPage id)

def loadCancelled (id : PageId) : Error := ⟨.cancelled, "page load cancelled during shutdown", toString id⟩

def loadUnsettled (id : PageId) : Error := ⟨.state, "page did not settle during load", toString id⟩

def hasVram : Sec Bool := fun _ _ σ => (.ok (σ.vramBudget.limit != 0), σ)

/-- Make room and promote; whether the page is then in device memory, after waiting for it to settle
when it is not. -/
def promoteOnce (id : PageId) (bytes : Nat) : Code Bool := do
  ensureVramHeadroom cfg bytes
  promoteHostToVram cfg id
  let m ← .atomic (copyOf id)
  if m.state = .residentVram then pure true
  else do
    let _ ← waitSettled id
    pure false

def loadAttempts (id : PageId) (target : Tier) : Nat → Code Unit
  | 0 => throw (loadUnsettled id)
  | n + 1 => do
    .atomic (throwIfStopping (loadCancelled id))
    let m ← .atomic (copyOf id)
    match m.state with
    | .residentVram => pure ()
    | .residentHost =>
      if target = .vram then do
        if ← .atomic hasVram then do
          if ← promoteOnce cfg id m.allocationSize then pure () else loadAttempts id target n
        else pure ()
      else pure ()
    | .residentNvme => do
      loadNvmeToHost cfg id
      let m ← .atomic (copyOf id)
      if m.state ≠ .residentHost then
        if m.state = .residentVram then pure ()
        else do
          let _ ← waitSettled id
          loadAttempts id target n
      else if target = .vram then do
        if ← .atomic hasVram then do
          if ← promoteOnce cfg id m.allocationSize then pure () else loadAttempts id target n
        else pure ()
      else pure ()
    | _ => do
      let _ ← waitSettled id
      loadAttempts id target n

/-- `load_page`. -/
def loadPage (id : PageId) (target : Tier) : Code Unit := loadAttempts cfg id target 16

end FlashTier
