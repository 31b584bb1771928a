/-
The request queue of the runtime (`runtime.cpp`) as a step system: the workers, any number of callers that
submit demands and prefetches or free pages, and `start` and `shutdown`. A section under `queue_mu_` and a
notification are one step each, and a thread that waits on `queue_cv_` is asleep until it is woken; it then
tests its predicate again.
-/
import FlashTier.Conc.Steps
import FlashTier.Runtime.State

namespace FlashTier

/-! ## Threads -/

/-- How a promise is satisfied. -/
inductive Completion where
  | value
  | loadError (e : Error)
  | cancelled
  deriving DecidableEq

/-- Where a worker is in `worker_loop`: before the test of its predicate, asleep, with a request and the
notification to issue, serving it, with the promise set and a prefetch to finish, with the prefetch finished
and the notification to issue, or gone. -/
inductive WorkerAt where
  | testing
  | asleep
  | popped (r : Request)
  | serving (r : Request)
  | served (page : PageId)
  | finished
  | exited
  deriving DecidableEq

/-- Where a caller is: in no call; in `submit_demand` before the test of its predicate, asleep, with its
request pushed and the notification to issue, or waiting for its promise; at the end of the section of
`submit_prefetch`, or of `remove_queued_prefetch`, with the notification to issue. -/
inductive CallerAt where
  | idle
  | testing (page : PageId) (target : Tier)
  | asleep (page : PageId) (target : Tier)
  | pushed (promise : Nat)
  | waiting (promise : Nat)
  | prefetched
  | removed
  deriving DecidableEq

def WorkerAt.woken : WorkerAt → WorkerAt
  | .asleep => .testing
  | x => x

def CallerAt.woken : CallerAt → CallerAt
  | .asleep page target => .testing page target
  | x => x

def CallerAt.isAsleep : CallerAt → Bool
  | .asleep .. => true
  | _ => false

/-- Where the holder of `lifecycle_control_mu_` is: in the loop that cancels what was queued, with the
notification to issue, before the second section of `shutdown`, joining the workers, or in `start`. The
second round is that of `shutdown_locked`. -/
inductive ControlAt where
  | free
  | cancelling (second : Bool) (rest : List Request)
  | stopped (second : Bool)
  | locking
  | joining
  | starting
  deriving DecidableEq

/-- A thread that may be asleep on `queue_cv_`. -/
inductive Waiter where
  | worker (w : Nat)
  | caller (c : Nat)
  deriving DecidableEq

/-! ## State -/

/-- The fields of `Config` that the queue reads. -/
structure QueueConfig where
  queueDepth : Nat
  prefetchDepth : Nat
  workerThreads : Nat
  queue_pos : 1 ≤ queueDepth

/-- `n_workers`. -/
def QueueConfig.workers (cfg : QueueConfig) : Nat := if cfg.workerThreads ≠ 0 then cfg.workerThreads else cfg.queueDepth

/-- The queue, its flags and its threads. Every demand has its promise, with all that satisfied it. -/
structure RequestQueue where
  running : Bool := false
  stopping : Bool := true
  queue : List Request := []
  pendingPrefetches : List PageId := []
  promises : List (List Completion) := []
  workers : List WorkerAt := []
  callers : List CallerAt
  control : ControlAt := .free

namespace RequestQueue

/-- A runtime that was never started, and `n` threads that may call it. -/
def initial (n : Nat) : RequestQueue := { callers := List.replicate n .idle }

variable (s : RequestQueue)

def setWorker (w : Nat) (x : WorkerAt) : RequestQueue := { s with workers := s.workers.set w x }

def setCaller (c : Nat) (x : CallerAt) : RequestQueue := { s with callers := s.callers.set c x }

/-- `set_value` or `set_exception` on the promise of a request, if it has one. -/
def satisfy (r : Request) (x : Completion) : RequestQueue :=
  match r.completion with
  | some k => { s with promises := s.promises.modify k (x :: ·) }
  | none => s

/-- Setting a promise changes nothing else. -/
theorem satisfy_eq (r : Request) (x : Completion) : ∃ promises, s.satisfy r x = { s with promises := promises } := by
  unfold satisfy
  split
  · exact ⟨_, rfl⟩
  · exact ⟨s.promises, rfl⟩

/-! ## The condition variable -/

/-- `notify_all`. -/
def wakeAll : RequestQueue := { s with workers := s.workers.map WorkerAt.woken, callers := s.callers.map CallerAt.woken }

variable {s} in
theorem wakeAll_worker {w : Nat} {x : WorkerAt} (hw : s.workers[w]? = some x) : s.wakeAll.workers[w]? = some x.woken := by
  show (s.workers.map WorkerAt.woken)[w]? = _
  rw [List.getElem?_map, hw]
  rfl

def isAsleep : Waiter → Bool
  | .worker w => s.workers[w]? == some .asleep
  | .caller c => s.callers[c]?.any CallerAt.isAsleep

/-- Wake one thread. -/
def wake : Waiter → RequestQueue
  | .worker w => { s with workers := s.workers.modify w WorkerAt.woken }
  | .caller c => { s with callers := s.callers.modify c CallerAt.woken }

/-- Some thread is asleep. -/
def anyAsleep : Bool := s.workers.any (· == .asleep) || s.callers.any CallerAt.isAsleep

/-- `notify_one`: it wakes any of the threads that are asleep, if there is one. -/
def wakeOne : Option Waiter → Option RequestQueue
  | none => if s.anyAsleep then none else some s
  | some x => if s.isAsleep x then some (s.wake x) else none

/-! ## Sections under the queue's lock -/

/-- The section of `worker_loop`. -/
def testWorker (w : Nat) : RequestQueue :=
  if s.stopping || !s.queue.isEmpty then
    match s.queue with
    | [] => s.setWorker w .exited
    | r :: rest => { s with queue := rest }.setWorker w (.popped r)
  else s.setWorker w .asleep

variable (cfg : QueueConfig)

/-- The section of `submit_demand`; the caller gets an error when the runtime has stopped. -/
def testDemand (c : Nat) (page : PageId) (target : Tier) : RequestQueue :=
  if s.stopping || !s.running || s.queue.length < cfg.queueDepth then
    if s.stopping || !s.running then s.setCaller c .idle
    else { s with
        queue := s.queue ++ [Request.mk .demand page target (some s.promises.length)]
        promises := s.promises ++ [[]] }.setCaller c (.pushed s.promises.length)
  else s.setCaller c (.asleep page target)

/-- The section of `submit_prefetch`; a duplicate and a full queue are notified too. -/
def pushPrefetch (c : Nat) (page : PageId) (target : Tier) : RequestQueue :=
  if s.stopping || !s.running then s
  else if page ∉ s.pendingPrefetches ∧ s.queue.length < cfg.queueDepth + cfg.prefetchDepth then
    { s with
        pendingPrefetches := page :: s.pendingPrefetches
        queue := s.queue ++ [Request.mk .prefetch page target none] }.setCaller c .prefetched
  else s.setCaller c .prefetched

def isPrefetch (page : PageId) (r : Request) : Bool := r.page == page && r.kind == .prefetch

/-- The section of `remove_queued_prefetch`. -/
def removeQueuedPrefetch (c : Nat) (page : PageId) : RequestQueue :=
  if s.queue.any (isPrefetch page) then
    { s with
        queue := s.queue.filter fun r => !isPrefetch page r
        pendingPrefetches := s.pendingPrefetches.filter (· != page) }.setCaller c .removed
  else s

/-- The sections of `shutdown` and `shutdown_locked`. -/
def stop (second : Bool) : RequestQueue :=
  { s with
    running := false
    stopping := true
    queue := []
    pendingPrefetches := []
    control := .cancelling second s.queue }

/-! ## Steps -/

inductive Action where
  | test (w : Nat)
  | announce (w : Nat)
  | complete (w : Nat) (outcome : Except Error Unit)
  | finish (w : Nat)
  | demand (c : Nat) (page : PageId) (target : Tier)
  | push (c : Nat)
  | notifyOne (c : Nat) (x : Option Waiter)
  | getFuture (c : Nat)
  | prefetch (c : Nat) (page : PageId) (target : Tier)
  | remove (c : Nat) (page : PageId)
  | notifyAll (c : Nat)
  | spurious (x : Waiter)
  | start
  | go
  | startFails (created : Nat)
  | shutdown
  | cancel
  | announceStop
  | lock
  | join

/-- How `worker_loop` satisfies the promise after `load_page`. -/
def completionOf : Except Error Unit → Completion
  | .ok _ => .value
  | .error e => .loadError e

/-- A worker's next step. -/
def workerStep (w : Nat) : Action → Option RequestQueue
  | .test _ =>
    match s.workers[w]? with
    | some .testing => some (s.testWorker w)
    | _ => none
  | .announce _ =>
    match s.workers[w]? with
    | some (.popped r) => some (s.wakeAll.setWorker w (.serving r))
    | some .finished => some (s.wakeAll.setWorker w .testing)
    | _ => none
  | .complete _ outcome =>
    match s.workers[w]? with
    | some (.serving r) =>
      some ((s.satisfy r (completionOf outcome)).setWorker w (if r.kind = .prefetch then .served r.page else .testing))
    | _ => none
  | .finish _ =>
    match s.workers[w]? with
    | some (.served page) => some ({ s with pendingPrefetches := s.pendingPrefetches.filter (· != page) }.setWorker w .finished)
    | _ => none
  | _ => none

/-- A caller's next step. -/
def callerStep (c : Nat) : Action → Option RequestQueue
  | .demand _ page target => if s.callers[c]? = some .idle then some (s.setCaller c (.testing page target)) else none
  | .push _ =>
    match s.callers[c]? with
    | some (.testing page target) => some (s.testDemand cfg c page target)
    | _ => none
  | .notifyOne _ x =>
    match s.callers[c]? with
    | some (.pushed k) => (s.setCaller c (.waiting k)).wakeOne x
    | some .prefetched => (s.setCaller c .idle).wakeOne x
    | _ => none
  | .getFuture _ =>
    match s.callers[c]? with
    | some (.waiting k) => if s.promises[k]? = some [] then none else some (s.setCaller c .idle)
    | _ => none
  | .prefetch _ page target => if s.callers[c]? = some .idle then some (s.pushPrefetch cfg c page target) else none
  | .remove _ page => if s.callers[c]? = some .idle then some (s.removeQueuedPrefetch c page) else none
  | .notifyAll _ => if s.callers[c]? = some .removed then some (s.setCaller c .idle).wakeAll else none
  | _ => none

/-- The next step of `start` or `shutdown`. A `start` that fails shuts down, with the workers it created. -/
def controlStep : Action → Option RequestQueue
  | .start =>
    if s.control = .free ∧ ¬s.running ∧ s.stopping ∧ s.workers = [] then
      some { s with pendingPrefetches := [], stopping := false, control := .starting }
    else none
  | .go =>
    if s.control = .starting then some { s with workers := List.replicate cfg.workers .testing, running := true, control := .free }
    else none
  | .startFails created => if s.control = .starting then some ({ s with workers := List.replicate created .testing }.stop true) else none
  | .shutdown => if s.control = .free then some (s.stop false) else none
  | .cancel =>
    match s.control with
    | .cancelling second (r :: rest) => some { s.satisfy r .cancelled with control := .cancelling second rest }
    | .cancelling second [] => some { s with control := .stopped second }
    | _ => none
  | .announceStop =>
    match s.control with
    | .stopped second => some { s.wakeAll with control := if second then .joining else .locking }
    | _ => none
  | .lock => if s.control = .locking then some (s.stop true) else none
  | .join => if s.control = .joining ∧ s.workers.all (· == .exited) then some { s with workers := [], control := .free } else none
  | _ => none

/-- One step; `none` when the action is not enabled. -/
def step (cfg : QueueConfig) (s : RequestQueue) (a : Action) : Option RequestQueue :=
  match a with
  | .test w | .announce w | .complete w _ | .finish w => s.workerStep w a
  | .demand c .. | .push c | .notifyOne c _ | .getFuture c | .prefetch c .. | .remove c _ | .notifyAll c => s.callerStep cfg c a
  | .spurious x => if s.isAsleep x then some (s.wake x) else none
  | .start | .go | .startFails _ | .shutdown | .cancel | .announceStop | .lock | .join => s.controlStep cfg a

/-- One place in the queue and one worker. -/
def oneByOne : QueueConfig := ⟨1, 1, 1, Nat.le_refl 1⟩

end RequestQueue

end FlashTier
