/-
The POSIX store backend (`nvme_backend.cpp`) as a step system: submitters, the worker pool, `flush`,
`cancel_all`, `open` and `close`. A section under `impl_->mu`, a section of an operation's own mutex
and a kernel call are one step each. Every call holds `lifecycle_mu_` to its end, so one call at a time
is in progress, and the workers take their steps in between.
-/
import FlashTier.Conc.Steps
import FlashTier.Store.Allocator

namespace FlashTier

/-! ## Operations -/

/-- `AsyncOp::Status`. -/
inductive OpStatus where
  | pending | complete | failed | cancelled
  deriving DecidableEq, Repr

/-- `AsyncOpImpl`. The last three fields are not in the source: the bytes asked for, the bytes that
kernel calls have moved so far, and the workers that took the operation. -/
structure AsyncOp where
  status : OpStatus := .pending
  bytesDone : Nat := 0
  error : Option Error := none
  size : Nat := 0
  moved : Nat := 0
  takers : List Nat := []
  deriving DecidableEq, Repr

namespace AsyncOp

/-- `AsyncOpImpl::complete`. -/
def complete (o : AsyncOp) (bytes : Nat) : AsyncOp :=
  if o.status ≠ .pending then o else { o with bytesDone := bytes, status := .complete }

/-- `AsyncOpImpl::fail`. -/
def fail (o : AsyncOp) (e : Error) : AsyncOp :=
  if o.status ≠ .pending then o else { o with error := some e, status := .failed }

/-- `AsyncOpImpl::cancel`. -/
def cancel (o : AsyncOp) : AsyncOp :=
  if o.status ≠ .pending then o else { o with status := .cancelled }

end AsyncOp

/-- `PosixOpContext`; `op` is the number of the operation. -/
structure OpContext where
  op : Nat
  offset : Nat
  bytes : Nat
  firstExtent : Nat
  extentCount : Nat
  isRead : Bool
  deriving DecidableEq, Repr

/-! ## Workers -/

/-- How an operation ends. -/
inductive OpOutcome where
  | complete (bytes : Nat)
  | fail (e : Error)
  deriving DecidableEq, Repr

/-- `op->complete` or `op->fail`. -/
def OpOutcome.publish (o : AsyncOp) : OpOutcome → AsyncOp
  | .complete bytes => o.complete bytes
  | .fail e => o.fail e

/-- What a `pread` or `pwrite` returns: interrupted (`EINTR`), another error, zero, or bytes moved. -/
inductive IoResult where
  | interrupted
  | failed (message : String)
  | zero
  | moved (n : Nat)
  deriving DecidableEq, Repr

/-- Where a worker is: waiting for the queue, in the loop of `Impl::run` with `total` bytes done, about
to retire the operation, about to publish its end, or gone. -/
inductive Worker where
  | waiting
  | running (ctx : OpContext) (total : Nat)
  | retiring (ctx : OpContext) (outcome : OpOutcome)
  | publishing (ctx : OpContext) (outcome : OpOutcome)
  | exited
  deriving DecidableEq, Repr

namespace OpContext

def ioFailed (ctx : OpContext) (message : String) : Error :=
  ⟨.io, (if ctx.isRead then "pread" else "pwrite") ++ " failed: " ++ message, ""⟩

def noProgress (ctx : OpContext) : Error :=
  ⟨.io, if ctx.isRead then "unexpected EOF in store read" else "zero-byte progress in store write", ""⟩

/-- One turn of the loop of `Impl::run`, after its kernel call. -/
def turn (ctx : OpContext) (total : Nat) : IoResult → Worker
  | .interrupted => .running ctx total
  | .failed message => .retiring ctx (.fail (ctx.ioFailed message))
  | .zero => .retiring ctx (.fail ctx.noProgress)
  | .moved n => if total + n < ctx.bytes then .running ctx (total + n) else .retiring ctx (.complete (total + n))

end OpContext

/-! ## Calls -/

/-- The arguments of `read_async` and `write_async`. -/
structure IoRequest where
  isRead : Bool
  offset : Nat
  bytes : Nat
  null : Bool := false
  deriving DecidableEq, Repr

def IoRequest.what (r : IoRequest) : String := if r.isRead then "read" else "write"

/-- The arguments of `open`. -/
structure OpenArgs where
  path : String
  capacityBytes : Nat
  pageSize : Nat
  deriving DecidableEq, Repr

/-- A call of `flush`, with the number of operations returned before it and those unsettled then. -/
structure FlushCall where
  submitted : Nat
  unsettled : List Nat
  deriving DecidableEq, Repr

/-- What the holder of `lifecycle_mu_` is doing across steps: nothing; in the loop of `cancel_all`; in
`flush` before its snapshot, or waiting for operations; in the loop of `close`, or joining the workers,
with the `open` that called it. -/
inductive StorePhase where
  | free
  | cancelling
  | flushing (call : FlushCall)
  | flushWait (call : FlushCall) (rest : List Nat)
  | draining (next : Option OpenArgs)
  | joining (next : Option OpenArgs)
  deriving DecidableEq, Repr

/-- `impl_->mu` is held across steps. -/
def StorePhase.locked : StorePhase → Bool
  | .cancelling | .draining _ => true
  | _ => false

/-- `close` has set `stopping`. -/
def StorePhase.closing : StorePhase → Bool
  | .draining _ | .joining _ => true
  | _ => false

/-- The backend. `opened_` and `impl_->stopping` are in the extent map; `ops` are the operations ever
returned, meant below `opCount`; `flushCalls` are the calls of `flush` that wait for `lifecycle_mu_`, which any of
them may take next. -/
structure NvmeBackend where
  map : Extents
  fd : Bool := false
  queue : List OpContext := []
  pending : List Nat := []
  workers : List Worker := []
  ops : Nat → AsyncOp := fun _ => {}
  opCount : Nat := 0
  phase : StorePhase := .free
  flushCalls : List FlushCall := []

namespace NvmeBackend

/-- A backend that was never opened. -/
def initial : NvmeBackend :=
  { map := { pageSize := 0, extentCount := 0, opened := false, freeList := [] } }

variable (s : NvmeBackend)

def setOp (id : Nat) (f : AsyncOp → AsyncOp) : NvmeBackend :=
  { s with ops := fun i => if i = id then f (s.ops i) else s.ops i }

def setWorker (w : Nat) (x : Worker) : NvmeBackend := { s with workers := s.workers.set w x }

/-- The operations that have not settled. -/
def unsettled : List Nat := (List.range s.opCount).filter fun id => (s.ops id).status = .pending

/-! ## Submission -/

def nullBuffer : Error := ⟨.invalidArgument, "store I/O buffer must not be null", ""⟩

/-- The context of the next operation. -/
def nextContext (r : IoRequest) : OpContext :=
  { op := s.opCount, offset := r.offset, bytes := r.bytes, firstExtent := r.offset / s.map.pageSize - 1,
    extentCount := r.bytes / s.map.pageSize, isRead := r.isRead }

def enqueue (r : IoRequest) (map : Extents) : NvmeBackend :=
  { s with
    map := map
    pending := s.opCount :: s.pending
    queue := s.queue ++ [s.nextContext r]
    ops := fun i => if i = s.opCount then { size := r.bytes } else s.ops i
    opCount := s.opCount + 1 }

/-- The map a submission looks at: a backend without a file counts as closing. -/
def admission : Extents := { s.map with stopping := s.map.stopping || !s.fd }

/-- `read_async` and `write_async`. -/
def submit (r : IoRequest) : Except Error NvmeBackend :=
  if !s.map.opened then .error Extents.notOpen
  else if r.null then .error nullBuffer
  else match s.admission.submit r.what r.offset r.bytes with
    | .error e => .error e
    | .ok map => .ok (s.enqueue r { map with stopping := s.map.stopping })

/-! ## The end of an operation -/

/-- Take the operation out of the pending map and off its extents. -/
def retire (ctx : OpContext) : NvmeBackend :=
  { s with
    pending := s.pending.filter (· ≠ ctx.op)
    map := s.map.retire ctx.firstExtent ctx.extentCount }

/-- One turn of the loop of `cancel_all` and `close`. -/
def cancelFirst (ctx : OpContext) (rest : List OpContext) : NvmeBackend :=
  ({ s with queue := rest }.retire ctx).setOp ctx.op AsyncOp.cancel

/-! ## Opening and closing -/

/-- What `open` meets after the geometry check: success, or an error, after which it has called `close`
or has not. -/
inductive OpenAnswer where
  | opened
  | failed (closed : Bool)
  deriving DecidableEq, Repr

/-- The last section of `close`. -/
def clear : NvmeBackend :=
  { s with
    fd := false
    workers := []
    pending := []
    map := { s.map with used := fun _ => false, activeIo := fun _ => 0, freeList := [], usedExtents := 0, stopping := false,
                        opened := false } }

/-- `open` after its `close`. -/
def openAfter (a : OpenArgs) (answer : OpenAnswer) : NvmeBackend :=
  match Extents.openMap a.path a.capacityBytes a.pageSize with
  | .error _ => s
  | .ok map =>
    match answer with
    | .opened => { s with map := map, fd := true, workers := List.replicate 4 .waiting }
    | .failed false => { s with map := { map with opened := false } }
    | .failed true => { s with map := map }.clear

/-- `close` up to its loop, or to its end when there is nothing to close; then the `open` that called it. -/
def beginClose (next : Option OpenArgs) (answer : OpenAnswer) : NvmeBackend :=
  if !s.map.opened && !s.fd then
    match next with
    | none => s
    | some a => s.openAfter a answer
  else { s with map := { s.map with stopping := true }, phase := .draining next }

/-- `close` after the join; then the `open` that called it. -/
def endClose (next : Option OpenArgs) (answer : OpenAnswer) : NvmeBackend :=
  match next with
  | none => { s.clear with phase := .free }
  | some a => { s.clear with phase := .free }.openAfter a answer

/-! ## Steps -/

inductive Action where
  | submit (r : IoRequest)
  | extents (k : Extents.Call)
  | cancelAll
  | callFlush
  | flush (i : Nat)
  | snapshot
  | wait
  | fsync (ok : Bool)
  | close
  | openStore (a : OpenArgs) (answer : OpenAnswer)
  | drain
  | join (answer : OpenAnswer)
  | take (w : Nat)
  | io (w : Nat) (r : IoResult)
  | retire (w : Nat)
  | publish (w : Nat)

/-- The calls that take `lifecycle_mu_`. -/
def callStep : Action → Option NvmeBackend
  | .submit r =>
    match s.submit r with
    | .ok s' => some s'
    | .error _ => some s
  | .extents k => some { s with map := (s.map.call k).2 }
  | .cancelAll => some (if s.map.opened then { s with phase := .cancelling } else s)
  | .flush i =>
    match s.flushCalls[i]? with
    | none => none
    | some call => some { s with flushCalls := s.flushCalls.eraseIdx i, phase := if s.map.opened then .flushing call else .free }
  | .close => some (s.beginClose none .opened)
  | .openStore a answer => some (s.beginClose (some a) answer)
  | _ => none

/-- The next step of a call in progress. A `flush` whose wait or `fsync` throws ends there. -/
def phaseStep : Action → Option NvmeBackend
  | .drain =>
    match s.phase, s.queue with
    | .cancelling, [] => some { s with phase := .free }
    | .draining next, [] => some { s with phase := .joining next }
    | .cancelling, ctx :: rest | .draining _, ctx :: rest => some (s.cancelFirst ctx rest)
    | _, _ => none
  | .snapshot =>
    match s.phase with
    | .flushing call => some { s with phase := .flushWait call s.pending }
    | _ => none
  | .wait =>
    match s.phase with
    | .flushWait call (id :: rest) =>
      match (s.ops id).status with
      | .pending => none
      | .failed => some { s with phase := .free }
      | _ => some { s with phase := .flushWait call rest }
    | _ => none
  | .fsync _ =>
    match s.phase with
    | .flushWait _ [] => some { s with phase := .free }
    | _ => none
  | .join answer =>
    match s.phase with
    | .joining next => if s.workers.all (· == .exited) then some (s.endClose next answer) else none
    | _ => none
  | _ => none

/-- A worker's next step. -/
def workerStep : Action → Option NvmeBackend
  | .take w =>
    match s.workers[w]?, s.queue with
    | some .waiting, ctx :: rest =>
      if s.phase.locked then none
      else some (({ s with queue := rest }.setWorker w (.running ctx 0)).setOp ctx.op fun o => { o with takers := w :: o.takers })
    | some .waiting, [] => if s.phase.locked || !s.map.stopping then none else some (s.setWorker w .exited)
    | _, _ => none
  | .io w r =>
    match s.workers[w]? with
    | some (.running ctx total) =>
      match r with
      | .moved n =>
        if 0 < n ∧ total + n ≤ ctx.bytes then
          some ((s.setWorker w (ctx.turn total r)).setOp ctx.op fun o => { o with moved := o.moved + n })
        else none
      | _ => some (s.setWorker w (ctx.turn total r))
    | _ => none
  | .retire w =>
    match s.workers[w]? with
    | some (.retiring ctx outcome) => if s.phase.locked then none else some ((s.retire ctx).setWorker w (.publishing ctx outcome))
    | _ => none
  | .publish w =>
    match s.workers[w]? with
    | some (.publishing ctx outcome) => some ((s.setWorker w .waiting).setOp ctx.op outcome.publish)
    | _ => none
  | _ => none

/-- One step; `none` when the action is not enabled. -/
def step (s : NvmeBackend) (a : Action) : Option NvmeBackend :=
  match a with
  | .submit _ | .extents _ | .cancelAll | .flush _ | .close | .openStore .. => if s.phase = .free then s.callStep a else none
  | .drain | .snapshot | .wait | .fsync _ | .join _ => s.phaseStep a
  | .take _ | .io .. | .retire _ | .publish _ => s.workerStep a
  | .callFlush => some { s with flushCalls := s.flushCalls ++ [⟨s.opCount, s.unsettled⟩] }

end NvmeBackend

end FlashTier
