/-
What the store backend promises about its operations: no extent is freed under active I/O, every
operation settles once and none is left when `close` returns, and `flush` covers what was submitted
before it, if no worker is between the retirement of an operation and its publication when `flush` looks.
-/
import FlashTier.Store.Operations

namespace FlashTier

open Conc

/-- The steps a worker has left when the queue is empty, each kernel call moving a byte at least. -/
def Worker.work : Worker → Nat
  | .exited => 0
  | .waiting => 1
  | .publishing _ _ => 2
  | .retiring _ _ => 3
  | .running ctx total => 4 + (ctx.bytes - total)

namespace NvmeBackend

variable {s s' s'' : NvmeBackend} {a : Action} {allowed : NvmeBackend → Action → Prop}

/-! ## Every reachable state -/

theorem recorded_initial : Recorded initial :=
  ⟨Multiset.nodup_zero, fun x hx => (Multiset.notMem_zero x hx).elim, fun id hid => (Nat.not_lt_zero id hid).elim, rfl⟩

/-- What every step keeps. -/
structure Sound (s : NvmeBackend) : Prop where
  flow : FlowOk s
  recorded : Recorded s

theorem sound_step (h : s.step a = some s') (hs : Sound s) : Sound s' :=
  ⟨flow_step hs.flow h, recorded_change (step_change hs.flow h) hs.recorded⟩

theorem sound_of_steps (h : Steps step allowed initial s) : Sound s :=
  h.invariant (fun _ _ _ _ hstep hs => sound_step hstep hs) ⟨flow_initial, recorded_initial⟩

/-- An operation is in hand exactly while it is pending. -/
theorem Recorded.pending_iff (h : Recorded s) {id : Nat} (hid : id < s.opCount) :
    (s.ops id).status = .pending ↔ ∃ x ∈ s.hands, x.1.op = id := by
  constructor
  · intro hp
    by_contra hn
    refine (h.settled id hid fun hm => ?_).status hp
    obtain ⟨x, hx, he⟩ := Multiset.mem_map.1 hm
    exact hn ⟨x, hx, he⟩
  · rintro ⟨x, hx, rfl⟩
    exact (h.inHand x hx).2.1

/-! ## No extent is freed under active I/O -/

/-- Fewer than 2^32 operations are pending after the step. -/
def Few (s : NvmeBackend) (a : Action) : Prop := ∀ s' ∈ s.step a, s'.pending.length < 2 ^ 32

instance (s : NvmeBackend) (a : Action) : Decidable (Few s a) := by unfold Few; infer_instance

theorem counted_of_steps (h : Steps step Few initial s) : Sound s ∧ Counted s := by
  refine h.invariant (P := fun s => Sound s ∧ Counted s) (fun s a s' hfew hstep hs => ?_) ⟨⟨flow_initial, recorded_initial⟩, rfl, ?_⟩
  · exact ⟨sound_step hstep hs.1, counted_change (step_change hs.1.flow hstep) hs.1.recorded (hfew s' hstep) hs.2⟩
  · exact fun x hx => (Multiset.notMem_zero x hx).elim

theorem count_bind_io (H : Multiset Hand) (i : Nat) :
    (H.bind Hand.io).count i = (H.filter fun x => x.2.active = true ∧ i ∈ x.1.extents).card := by
  induction H using Multiset.induction_on with
  | empty => rfl
  | cons x H ih =>
    have hone : (Hand.io x).count i = if x.2.active = true ∧ i ∈ x.1.extents then 1 else 0 := by
      by_cases ha : x.2.active = true
      · rw [Hand.io, if_pos ha, OpContext.extents, Multiset.count_eq_of_nodup (Extents.nodup_range _ _)]
        simp [ha]
      · simp [Hand.io, ha]
    rw [Multiset.cons_bind, Multiset.count_add, ih, Multiset.filter_cons, hone]
    split <;> simp [Nat.add_comm]

/-- In every run with fewer than 2^32 operations pending at once: the counter of an extent is the number
of operations on it that are queued or being executed; an extent with active operations is allocated;
every such operation lies inside the payload, on existing extents whose counters it will lower; and an
operation that has left `Pending`, so that `wait` returns, is not among them. -/
theorem io_counted (h : Steps step Few initial s) :
    (∀ i < s.map.extentCount,
      s.map.activeIo i = (s.hands.filter fun x => x.2.active = true ∧ i ∈ x.1.extents).card ∧
        (0 < s.map.activeIo i → s.map.used i = true)) ∧
    (∀ x ∈ s.hands, x.2.active = true → s.map.pageSize ≤ x.1.offset ∧ x.1.offset + x.1.bytes ≤ s.map.fileSize ∧
      ∀ i ∈ x.1.extents, i < s.map.extentCount ∧ s.map.activeIo i ≠ 0) ∧
    ∀ id < s.opCount, (s.ops id).status ≠ .pending → ∀ x ∈ s.hands, x.1.op ≠ id := by
  obtain ⟨hs, hc⟩ := counted_of_steps h
  refine ⟨fun i hi => ?_, fun x hx ha => ?_, fun id hid hst x hx he => ?_⟩
  · have hcount : s.map.activeIo i = (s.hands.filter fun x => x.2.active = true ∧ i ∈ x.1.extents).card := by
      rw [← count_bind_io, ← hc.io, Extents.count_ioBag, if_pos hi]
    refine ⟨hcount, fun hpos => ?_⟩
    rw [hcount] at hpos
    obtain ⟨x, hx⟩ := Multiset.card_pos_iff_exists_mem.1 hpos
    obtain ⟨hx, ha, hi⟩ := Multiset.mem_filter.1 hx
    exact (hc.inside x hx ha).used i hi
  · have hin := hc.inside x hx ha
    refine ⟨?_, ?_, fun i hi => ⟨?_, hc.pos hx ha hi⟩⟩
    · rw [hin.offset]
      exact Nat.le_mul_of_pos_left _ (Nat.succ_pos _)
    · rw [hin.offset, hin.bytes, ← Nat.add_mul]
      refine Nat.mul_le_mul_right _ ?_
      have := hin.inside
      omega
    · have := Extents.mem_range.1 hi
      have := hin.inside
      omega
  · exact hst ((hs.recorded.pending_iff hid).2 ⟨x, hx, he⟩)

/-- A store of two pages with one extent allocated and a write queued on it. -/
def oneWrite : List Action :=
  [.openStore ⟨"store", 8192, 4096⟩ .opened, .extents .allocateExtent, .submit ⟨false, 8192, 4096, false⟩]

theorem io_counted_oneWrite : ∃ s, Steps step Few initial s ∧ s.map.activeIo 1 = 1 ∧ s.opCount = 1 ∧ s.map.extentCount = 2 ∧
    s.map.used 1 = true := by
  obtain ⟨s, hs, hio, hn, hc⟩ := Steps.of_test step Few initial oneWrite
    (fun s => s.map.activeIo 1 = 1 ∧ s.opCount = 1 ∧ s.map.extentCount = 2) (by decide +kernel)
  exact ⟨s, hs, hio, hn, hc, ((io_counted hs).1 1 (by omega)).2 (by omega)⟩

/-! ## Every operation settles once -/

/-- A settled operation keeps its record, and no operation is forgotten. -/
structure Kept (s s' : NvmeBackend) : Prop where
  count : s.opCount ≤ s'.opCount
  ops : ∀ id < s.opCount, (s.ops id).status ≠ .pending → s'.ops id = s.ops id

theorem Kept.refl (s : NvmeBackend) : Kept s s := ⟨le_rfl, fun _ _ _ => rfl⟩

theorem Kept.trans (h : Kept s s') (h' : Kept s' s'') : Kept s s'' := by
  refine ⟨h.count.trans h'.count, fun id hid hst => ?_⟩
  have he := h.ops id hid hst
  rw [← he]
  exact h'.ops id (lt_of_lt_of_le hid h.count) (by rw [he]; exact hst)

/-- Only the record of an operation in hand changes. -/
theorem kept_updated {c : OpContext} {st : OpStage} {R : Multiset Hand} {f : AsyncOp → AsyncOp} (h : Recorded s)
    (hb : s.hands = (c, st) ::ₘ R) (hops : s'.ops = updated s.ops c.op f ∧ s'.opCount = s.opCount) : Kept s s' := by
  refine ⟨hops.2.symm.le, fun id hid hst => ?_⟩
  rw [hops.1, updated_ne]
  rintro rfl
  exact hst ((h.pending_iff hid).2 ⟨(c, st), by rw [hb]; exact Multiset.mem_cons_self _ _, rfl⟩)

theorem kept_change (hc : Change s s') (h : Recorded s) : Kept s s' := by
  cases hc with
  | same hh ho hp hm => exact ⟨ho.2.symm.le, fun _ _ _ => by rw [ho.1]⟩
  | submitted r hok hin hs =>
    subst hs
    exact ⟨Nat.le_succ _, fun id hid _ => if_neg (Nat.ne_of_lt hid)⟩
  | extents k hok hs =>
    subst hs
    exact ⟨le_rfl, fun _ _ _ => rfl⟩
  | advanced c st st' f R hb ha hact ho hp hm hrec => exact kept_updated h hb ho
  | retired c outcome R hb ha ho hp hm => exact ⟨ho.2.symm.le, fun _ _ _ => by rw [ho.1]⟩
  | published c outcome R hb ha ho hp hm => exact kept_updated h hb ho
  | cancelled c R hb ha ho hp hm => exact kept_updated h hb ho
  | reset hb ha ho hp hm => exact ⟨ho.2.symm.le, fun _ _ _ => by rw [ho.1]⟩

theorem kept_of_steps (hs : Sound s) (h : Steps step allowed s s') : Kept s s' :=
  h.relate Kept.refl (fun _ _ _ => Kept.trans) (fun _ _ _ _ hstep hs => sound_step hstep hs)
    (fun _ _ _ _ hstep hs => kept_change (step_change hs.flow hstep) hs.recorded) hs

/-- `close` returns in this step: after its join, or at once when nothing is open. -/
def Closes (s s' : NvmeBackend) : Prop :=
  (s.phase = .joining none ∧ ∃ answer, s.step (.join answer) = some s') ∨ (s.step .close = some s' ∧ s'.phase = .free)

theorem Closes.sound (hc : Closes s s') (hs : Sound s) : Sound s' := by
  rcases hc with ⟨-, answer, h⟩ | ⟨h, -⟩ <;> exact sound_step h hs

/-- A store that `close` has left is not open. -/
theorem Closes.closed (hc : Closes s s') : s'.map.opened = false := by
  rcases hc with ⟨hp, answer, h⟩ | ⟨h, hp⟩
  · simp only [step, phaseStep, hp] at h
    split at h
    · cases h
      rfl
    · cases h
  · simp only [step] at h
    split at h
    · cases h
      unfold beginClose at hp ⊢
      split
      · rename_i ho
        simp only [Bool.and_eq_true, Bool.not_eq_true'] at ho
        exact ho.1
      · rename_i ho
        rw [if_neg ho] at hp
        cases hp
    · cases h

/-- With the store closed, no operation is pending. -/
theorem Sound.settled_of_closed (hs : Sound s) (hc : s.map.opened = false) {id : Nat} (hid : id < s.opCount) :
    (s.ops id).status ≠ .pending := by
  intro hp
  obtain ⟨x, hx, -⟩ := (hs.recorded.pending_iff hid).1 hp
  obtain ⟨hq, hw, -⟩ := hs.flow.closed hc
  rw [hands, hq, hw] at hx
  rw [handsOf_nil fun x hx => (List.not_mem_nil hx).elim] at hx
  exact Multiset.notMem_zero x hx

/-- The action calls `open`. -/
def Action.opens : Action → Bool
  | .openStore .. => true
  | _ => false

/-- A closed store stays closed until the next `open`. -/
theorem closed_step (hs : Sound s) (hc : s.map.opened = false) (ha : a.opens = false) (h : s.step a = some s') :
    s'.map.opened = false := by
  obtain ⟨-, hw, hp⟩ := hs.flow.closed hc
  have hfd : s.fd = false := hs.flow.fd.trans hc
  cases a with
  | submit r =>
    simp only [step, hp, if_true, callStep, submit_of_closed hc] at h
    cases h
    exact hc
  | extents k =>
    simp only [step, hp, if_true, callStep, call_of_closed hc] at h
    cases h
    exact hc
  | cancelAll =>
    simp only [step, hp, if_true, callStep, hc] at h
    cases h
    exact hc
  | flush i =>
    simp only [step, hp, if_true, callStep] at h
    split at h <;> cases h
    exact hc
  | close =>
    simp only [step, hp, if_true, callStep, beginClose, hc, hfd] at h
    cases h
    exact hc
  | openStore args answer => cases ha
  | callFlush =>
    cases h
    exact hc
  | drain | snapshot | wait | fsync | join =>
    simp only [step, phaseStep, hp] at h
    cases h
  | take w | io w | retire w | publish w =>
    simp only [step, workerStep, hw, List.getElem?_nil] at h
    cases h

theorem closed_of_steps (hs : Sound s) (hc : s.map.opened = false) (h : Steps step (fun _ a => a.opens = false) s s') :
    Sound s' ∧ s'.map.opened = false :=
  h.invariant (P := fun s => Sound s ∧ s.map.opened = false)
    (fun _ _ _ ha hstep hs => ⟨sound_step hstep hs.1, closed_step hs.1 hs.2 ha hstep⟩) ⟨hs, hc⟩

/-- The record of an operation is that of one in hand, or has settled. -/
theorem Sound.record (hs : Sound s) {id : Nat} (hid : id < s.opCount) :
    ((s.ops id).status = .complete → (s.ops id).bytesDone = (s.ops id).size ∧ (s.ops id).moved = (s.ops id).size) ∧
      ((s.ops id).status = .cancelled → (s.ops id).moved = 0 ∧ (s.ops id).takers = []) ∧ (s.ops id).takers.length ≤ 1 := by
  by_cases hm : id ∈ s.hands.map fun x => x.1.op
  · obtain ⟨⟨c, st⟩, hx, rfl⟩ := Multiset.mem_map.1 hm
    obtain ⟨-, hst, -, hrest⟩ := hs.recorded.inHand _ hx
    refine ⟨fun h => (by rw [hst] at h; cases h), fun h => (by rw [hst] at h; cases h), ?_⟩
    cases st with
    | queued => rw [hrest.2]; exact Nat.zero_le 1
    | running total => exact hrest.2.le
    | retiring outcome | publishing outcome =>
      cases outcome with
      | complete bytes => exact hrest.2.2.le
      | fail e => exact hrest.le
  · have := hs.recorded.settled id hid hm
    exact ⟨this.complete, this.cancelled, this.once⟩

/-! ### The join ends -/

def work (s : NvmeBackend) : Nat := (s.workers.map Worker.work).sum

theorem work_setWorker {w : Nat} {x y : Worker} (hw : s.workers[w]? = some x) (hlt : y.work < x.work) :
    (s.setWorker w y).work < s.work := by
  obtain ⟨rest, hl, hset⟩ := bag_set hw y
  have hsum : ∀ l : List Worker, (l.map Worker.work).sum = ((l : Multiset Worker).map Worker.work).sum := fun l => by
    rw [Multiset.map_coe, Multiset.sum_coe]
  show ((s.workers.set w y).map Worker.work).sum < (s.workers.map Worker.work).sum
  rw [hsum, hsum, hl, hset, Multiset.map_cons, Multiset.map_cons, Multiset.sum_cons, Multiset.sum_cons]
  omega

/-- A step of a worker; a kernel call that is interrupted is not counted. -/
def Action.works : Action → Bool
  | .io _ .interrupted => false
  | .take _ | .io .. | .retire _ | .publish _ => true
  | _ => false

/-- While `close` joins, every step of a worker leaves less to do. -/
theorem work_decreases (hs : Sound s) {next : Option OpenArgs} (hp : s.phase = .joining next) (ha : a.works = true)
    (h : s.step a = some s') : s'.work < s.work := by
  have hq := hs.flow.joining next hp
  cases a with
  | take w =>
    simp only [step, workerStep, hq] at h
    split at h
    · rename_i heq
      cases heq
    · rename_i hw _
      split at h
      · cases h
      · cases h
        exact work_setWorker hw Nat.one_pos
    · cases h
  | io w r =>
    simp only [step, workerStep] at h
    split at h
    · rename_i c total hw
      cases r with
      | interrupted => cases ha
      | failed message =>
        cases h
        exact work_setWorker hw (by simp only [OpContext.turn, Worker.work]; omega)
      | zero =>
        cases h
        exact work_setWorker hw (by simp only [OpContext.turn, Worker.work]; omega)
      | moved n =>
        simp only at h
        split at h
        · rename_i hn
          cases h
          refine work_setWorker hw ?_
          simp only [OpContext.turn]
          split <;> simp only [Worker.work] <;> omega
        · cases h
    · cases h
  | retire w =>
    simp only [step, workerStep] at h
    split at h
    · rename_i c outcome hw
      split at h
      · cases h
      · cases h
        exact work_setWorker hw (Nat.lt_succ_self 2)
    · cases h
  | publish w =>
    simp only [step, workerStep] at h
    split at h
    · rename_i c outcome hw
      cases h
      exact work_setWorker hw (Nat.lt_succ_self 1)
    · cases h
  | _ => cases ha

/-- While `close` joins, a worker that is not gone can take a step. -/
theorem work_enabled (hs : Sound s) {next : Option OpenArgs} (hp : s.phase = .joining next) {w : Nat} {x : Worker}
    (hw : s.workers[w]? = some x) (hx : x ≠ .exited) : ∃ a s', a.works = true ∧ s.step a = some s' := by
  have hq := hs.flow.joining next hp
  have hstop : s.map.stopping = true := hs.flow.stopping (by rw [hp]; rfl)
  have hlock : s.phase.locked = false := by rw [hp]; rfl
  cases x with
  | waiting => exact ⟨.take w, s.setWorker w .exited, rfl, by simp [step, workerStep, hw, hq, hlock, hstop]⟩
  | running c total => exact ⟨.io w .zero, s.setWorker w (c.turn total .zero), rfl, by simp [step, workerStep, hw]⟩
  | retiring c outcome =>
    exact ⟨.retire w, (s.retire c).setWorker w (.publishing c outcome), rfl, by simp [step, workerStep, hw, hlock]⟩
  | publishing c outcome =>
    exact ⟨.publish w, (s.setWorker w .waiting).setOp c.op outcome.publish, rfl, by simp [step, workerStep, hw]⟩
  | exited => exact absurd rfl hx

/-- In every run: a settled operation never changes; it is complete only with all its bytes moved and
cancelled only when no worker took it, and no two workers take it; when `close` returns, every operation
has settled, and no submission succeeds until the next `open`; and while `close` joins, the workers can
go on and have less to do after every step, so that the join ends. -/
theorem operations_settle (h : Steps step (fun _ _ => True) initial s) :
    (∀ s', Steps step (fun _ _ => True) s s' → ∀ id < s.opCount, (s.ops id).status ≠ .pending → s'.ops id = s.ops id) ∧
    (∀ id < s.opCount,
      ((s.ops id).status = .complete → (s.ops id).bytesDone = (s.ops id).size ∧ (s.ops id).moved = (s.ops id).size) ∧
        ((s.ops id).status = .cancelled → (s.ops id).moved = 0 ∧ (s.ops id).takers = []) ∧ (s.ops id).takers.length ≤ 1) ∧
    (∀ s', Closes s s' → (∀ id < s'.opCount, (s'.ops id).status ≠ .pending) ∧
      ∀ s'', Steps step (fun _ a => a.opens = false) s' s'' → ∀ r, ∃ e, s''.submit r = .error e) ∧
    ∀ next, s.phase = .joining next →
      (s.workers.all (· == .exited) = true ∨ ∃ a s', a.works = true ∧ s.step a = some s') ∧
        ∀ a s', a.works = true → s.step a = some s' → s'.work < s.work := by
  have hs := sound_of_steps h
  refine ⟨fun s' hrun => (kept_of_steps hs hrun).ops, fun id hid => hs.record hid, fun s' hc => ⟨fun id hid => ?_, fun s'' hrun r => ?_⟩,
    fun next hp => ⟨?_, fun a s' ha hstep => work_decreases hs hp ha hstep⟩⟩
  · exact (hc.sound hs).settled_of_closed (hc.closed) hid
  · exact ⟨_, submit_of_closed (closed_of_steps (hc.sound hs) (hc.closed) hrun).2 r⟩
  · by_cases hall : s.workers.all (· == .exited) = true
    · exact .inl hall
    · rw [List.all_eq_true] at hall
      push Not at hall
      obtain ⟨x, hx, hne⟩ := hall
      obtain ⟨w, hw⟩ := List.mem_iff_getElem?.1 hx
      exact .inr (work_enabled hs hp hw (by simpa using hne))

theorem operations_settle_oneWrite : ∃ s s', Steps step (fun _ _ => True) initial s ∧ Closes s s' ∧
    (s.ops 0).status = .complete ∧ ∀ id < s'.opCount, (s'.ops id).status ≠ .pending := by
  obtain ⟨s, hs, hp, hst, hw⟩ := Steps.of_test step (fun _ _ => True) initial
    (oneWrite ++ [.take 0, .io 0 (.moved 4096), .retire 0, .publish 0, .close, .drain, .take 0, .take 1, .take 2, .take 3])
    (fun s => s.phase = .joining none ∧ (s.ops 0).status = .complete ∧ s.workers.all (· == .exited) = true) (by decide +kernel)
  have hc : Closes s (s.endClose none .opened) := .inl ⟨hp, .opened, by simp [step, phaseStep, hp, hw]⟩
  exact ⟨s, _, hs, hc, hst, ((operations_settle hs).2.2.1 _ hc).1⟩

/-! ## What `flush` covers -/

/-- The call of `flush` that looks at the pending map in this step, or finds the store closed. -/
def looking (s : NvmeBackend) : Action → Option FlushCall
  | .snapshot =>
    match s.phase with
    | .flushing call => some call
    | _ => none
  | .flush i => if s.map.opened then none else s.flushCalls[i]?
  | _ => none

/-- The operation has settled without an error. -/
def Fine (s : NvmeBackend) (id : Nat) : Prop := (s.ops id).status ≠ .pending ∧ (s.ops id).status ≠ .failed

instance (s : NvmeBackend) (id : Nat) : Decidable (Fine s id) := by unfold Fine; infer_instance

/-- When `flush` looks, every operation that was unsettled at its call is still in the pending map or has
settled without an error: no worker is between taking one out and publishing its end, and none has failed. -/
def InTime (s : NvmeBackend) (a : Action) : Prop :=
  ∀ call ∈ s.looking a, ∀ id ∈ call.unsettled, id ∈ s.pending ∨ Fine s id

instance (s : NvmeBackend) (a : Action) : Decidable (InTime s a) := by unfold InTime; infer_instance

/-- `flush` returns normally in this step: after its waits and its `fsync`, or at once when nothing is open. -/
def Flushed (s : NvmeBackend) (a : Action) (call : FlushCall) (s' : NvmeBackend) : Prop :=
  s.step a = some s' ∧ ((a = .fsync true ∧ s.phase = .flushWait call []) ∨
    (∃ i, a = .flush i ∧ s.map.opened = false ∧ s.flushCalls[i]? = some call))

/-- A call of `flush` knows the operations that had not settled. -/
structure CallOk (s : NvmeBackend) (call : FlushCall) : Prop where
  submitted : call.submitted ≤ s.opCount
  unsettled : ∀ id ∈ call.unsettled, id < call.submitted
  others : ∀ id < call.submitted, id ∉ call.unsettled → (s.ops id).status ≠ .pending

/-- The operations unsettled at a call of `flush` are still to be waited for, or fine. -/
structure FlushOk (s : NvmeBackend) : Prop where
  calls : ∀ call ∈ s.flushCalls, CallOk s call
  flushing : ∀ call, s.phase = .flushing call → CallOk s call
  waiting : ∀ call rest, s.phase = .flushWait call rest →
    CallOk s call ∧ ∀ id ∈ call.unsettled, id ∈ rest ∨ Fine s id

theorem CallOk.kept {call : FlushCall} (h : CallOk s call) (hk : Kept s s') : CallOk s' call := by
  refine ⟨h.submitted.trans hk.count, h.unsettled, fun id hid hn => ?_⟩
  have hst := h.others id hid hn
  rw [hk.ops id (lt_of_lt_of_le hid h.submitted) hst]
  exact hst

theorem Fine.kept {id : Nat} (h : Fine s id) (hid : id < s.opCount) (hk : Kept s s') : Fine s' id := by
  unfold Fine
  rw [hk.ops id hid h.1]
  exact h

/-- A step that is none of `flush`. -/
theorem FlushOk.kept (h : FlushOk s) (hk : Kept s s') (hc : s'.flushCalls = s.flushCalls)
    (hp : s'.phase = s.phase ∨ ((∀ call, s'.phase ≠ .flushing call) ∧ ∀ call rest, s'.phase ≠ .flushWait call rest)) : FlushOk s' := by
  refine ⟨?_, fun call hf => ?_, fun call rest hw => ?_⟩
  · rw [hc]
    exact fun call hm => (h.calls call hm).kept hk
  · rcases hp with hp | hp
    · exact (h.flushing call (hp ▸ hf)).kept hk
    · exact absurd hf (hp.1 call)
  · rcases hp with hp | hp
    · obtain ⟨hcall, hids⟩ := h.waiting call rest (hp ▸ hw)
      refine ⟨hcall.kept hk, fun id hid => (hids id hid).imp_right fun hfine => hfine.kept ?_ hk⟩
      exact lt_of_lt_of_le (hcall.unsettled id hid) hcall.submitted
    · exact absurd hw (hp.2 call rest)

theorem openAfter_calls (s : NvmeBackend) (args : OpenArgs) (answer : OpenAnswer) :
    (s.openAfter args answer).flushCalls = s.flushCalls ∧ (s.openAfter args answer).phase = s.phase := by
  rcases s.openAfter_cases args answer with h | ⟨map, -, h | h | h⟩ <;> rw [h] <;> exact ⟨rfl, rfl⟩

theorem beginClose_calls (s : NvmeBackend) (next : Option OpenArgs) (answer : OpenAnswer) :
    (s.beginClose next answer).flushCalls = s.flushCalls ∧
      ((s.beginClose next answer).phase = s.phase ∨ (s.beginClose next answer).phase = .draining next) := by
  unfold beginClose
  split
  · cases next with
    | none => exact ⟨rfl, .inl rfl⟩
    | some args => exact ⟨(s.openAfter_calls args answer).1, .inl (s.openAfter_calls args answer).2⟩
  · exact ⟨rfl, .inr rfl⟩

theorem endClose_calls (s : NvmeBackend) (next : Option OpenArgs) (answer : OpenAnswer) :
    (s.endClose next answer).flushCalls = s.flushCalls ∧ (s.endClose next answer).phase = .free := by
  cases next with
  | none => exact ⟨rfl, rfl⟩
  | some args => exact openAfter_calls { s.clear with phase := .free } args answer

theorem workerStep_calls (h : s.workerStep a = some s') : s'.flushCalls = s.flushCalls ∧ s'.phase = s.phase := by
  unfold workerStep at h
  cases a with
  | take w =>
    simp only at h
    split at h
    · split at h <;> cases h
      exact ⟨rfl, rfl⟩
    · split at h <;> cases h
      exact ⟨rfl, rfl⟩
    · cases h
  | io w r =>
    simp only at h
    split at h
    · split at h
      · split at h <;> cases h
        exact ⟨rfl, rfl⟩
      · cases h
        exact ⟨rfl, rfl⟩
    · cases h
  | retire w =>
    simp only at h
    split at h
    · split at h <;> cases h
      exact ⟨rfl, rfl⟩
    · cases h
  | publish w =>
    simp only at h
    split at h <;> cases h
    exact ⟨rfl, rfl⟩
  | _ => cases h

/-- A new call of `flush` notes what has not settled. -/
theorem callOk_new (s : NvmeBackend) : CallOk s ⟨s.opCount, s.unsettled⟩ := by
  refine ⟨le_rfl, fun id hid => ?_, fun id hid hn hst => hn ?_⟩
  · exact List.mem_range.1 (List.mem_filter.1 hid).1
  · exact List.mem_filter.2 ⟨List.mem_range.2 hid, by simpa using hst⟩

theorem flush_callStep (h : FlushOk s) (hk : Kept s s') (hs : s.callStep a = some s') : FlushOk s' := by
  unfold callStep at hs
  cases a with
  | submit r =>
    simp only at hs
    rcases hr : s.submit r with e | s₁
    · rw [hr] at hs
      cases hs
      exact h
    · rw [hr] at hs
      cases hs
      have he : s'.flushCalls = s.flushCalls ∧ s'.phase = s.phase := by
        unfold submit at hr
        split at hr; · cases hr
        split at hr; · cases hr
        split at hr <;> cases hr
        exact ⟨rfl, rfl⟩
      exact h.kept hk he.1 (.inl he.2)
  | extents k =>
    cases hs
    exact h.kept hk rfl (.inl rfl)
  | cancelAll =>
    simp only [Option.some.injEq] at hs
    subst hs
    split
    · rename_i ho
      rw [if_pos ho] at hk
      exact h.kept hk rfl (.inr ⟨fun _ hp => (by cases hp), fun _ _ hp => (by cases hp)⟩)
    · exact h
  | flush i =>
    simp only at hs
    split at hs
    · cases hs
    · rename_i call hi
      cases hs
      have hcall : CallOk s call := h.calls call (List.mem_of_getElem? hi)
      refine ⟨fun c hc => ?_, fun c hp => ?_, fun c r hp => ?_⟩
      · exact (h.calls c (List.mem_of_mem_eraseIdx hc)).kept hk
      · simp only at hp
        split at hp <;> cases hp
        exact hcall.kept hk
      · simp only at hp
        split at hp <;> cases hp
  | close =>
    cases hs
    obtain ⟨h1, h2⟩ := s.beginClose_calls none .opened
    refine h.kept hk h1 (h2.imp_right fun h2 => ?_)
    rw [h2]
    exact ⟨fun _ hp => (by cases hp), fun _ _ hp => (by cases hp)⟩
  | openStore args answer =>
    cases hs
    obtain ⟨h1, h2⟩ := s.beginClose_calls (some args) answer
    refine h.kept hk h1 (h2.imp_right fun h2 => ?_)
    rw [h2]
    exact ⟨fun _ hp => (by cases hp), fun _ _ hp => (by cases hp)⟩
  | _ => cases hs

theorem flush_phaseStep (h : FlushOk s) (hk : Kept s s') (ht : InTime s a) (hs : s.phaseStep a = some s') : FlushOk s' := by
  unfold phaseStep at hs
  cases a with
  | drain =>
    simp only at hs
    split at hs
    · cases hs
      exact h.kept hk rfl (.inr ⟨fun _ hp => (by cases hp), fun _ _ hp => (by cases hp)⟩)
    · cases hs
      exact h.kept hk rfl (.inr ⟨fun _ hp => (by cases hp), fun _ _ hp => (by cases hp)⟩)
    · cases hs
      exact h.kept hk rfl (.inl rfl)
    · cases hs
      exact h.kept hk rfl (.inl rfl)
    · cases hs
  | snapshot =>
    simp only at hs
    split at hs
    · rename_i call hp
      cases hs
      have hlook : s.looking .snapshot = some call := by simp only [looking, hp]
      refine ⟨fun c hc => (h.calls c hc).kept hk, fun c hc => (by cases hc), fun c rest hw => ?_⟩
      cases hw
      -- the snapshot is the pending map: it has every operation unsettled at the call that is not fine
      exact ⟨(h.flushing call hp).kept hk, ht call hlook⟩
    · cases hs
  | wait =>
    simp only at hs
    split at hs
    · rename_i call id rest hp
      obtain ⟨hcall, hids⟩ := h.waiting call (id :: rest) hp
      -- the operation waited for is fine when the wait returns
      have hdone : (s.ops id).status ≠ .pending → (s.ops id).status ≠ .failed → FlushOk { s with phase := .flushWait call rest } := by
        intro h1 h2
        have hk : Kept s { s with phase := .flushWait call rest } := ⟨le_rfl, fun _ _ _ => rfl⟩
        refine ⟨fun c hc => (h.calls c hc).kept hk, fun c hc => (by cases hc), fun c r hw => ?_⟩
        cases hw
        refine ⟨hcall.kept hk, fun i hi => ?_⟩
        rcases hids i hi with hi' | hi'
        · rcases List.mem_cons.1 hi' with rfl | hi'
          · exact .inr ⟨h1, h2⟩
          · exact .inl hi'
        · exact .inr hi'
      split at hs
      · cases hs
      · cases hs
        exact h.kept hk rfl (.inr ⟨fun _ hp => (by cases hp), fun _ _ hp => (by cases hp)⟩)
      · rename_i h1 h2
        cases hs
        exact hdone h1 h2
    · cases hs
  | fsync ok =>
    simp only at hs
    split at hs
    · cases hs
      exact h.kept hk rfl (.inr ⟨fun _ hp => (by cases hp), fun _ _ hp => (by cases hp)⟩)
    · cases hs
  | join answer =>
    simp only at hs
    split at hs
    · rename_i next hp
      split at hs
      · cases hs
        obtain ⟨h1, h2⟩ := s.endClose_calls next answer
        refine h.kept hk h1 (.inr ?_)
        rw [h2]
        exact ⟨fun _ hp => (by cases hp), fun _ _ hp => (by cases hp)⟩
      · cases hs
    · cases hs
  | _ => cases hs

theorem flush_step (hs : Sound s) (h : FlushOk s) (ht : InTime s a) (hstep : s.step a = some s') : FlushOk s' := by
  have hk : Kept s s' := kept_change (step_change hs.flow hstep) hs.recorded
  unfold step at hstep
  cases a with
  | submit | extents | cancelAll | flush | close | openStore =>
    simp only at hstep
    split at hstep
    · exact flush_callStep h hk hstep
    · cases hstep
  | drain | snapshot | wait | fsync | join => exact flush_phaseStep h hk ht hstep
  | take | io | retire | publish =>
    obtain ⟨h1, h2⟩ := workerStep_calls hstep
    exact h.kept hk h1 (.inl h2)
  | callFlush =>
    cases hstep
    refine ⟨fun c hc => ?_, fun c hp => (h.flushing c hp).kept hk, fun c rest hw => ?_⟩
    · rcases List.mem_append.1 hc with hc | hc
      · exact (h.calls c hc).kept hk
      · cases List.mem_singleton.1 hc
        exact (callOk_new s).kept hk
    · obtain ⟨h1, h2⟩ := h.waiting c rest hw
      exact ⟨h1.kept hk, h2⟩

theorem flushOk_of_steps (h : Steps step InTime initial s) : Sound s ∧ FlushOk s := by
  refine h.invariant (P := fun s => Sound s ∧ FlushOk s)
    (fun _ _ _ ht hstep hs => ⟨sound_step hstep hs.1, flush_step hs.1 hs.2 ht hstep⟩) ⟨⟨flow_initial, recorded_initial⟩, ?_⟩
  exact ⟨fun _ hc => (List.not_mem_nil hc).elim, fun _ hp => (by cases hp), fun _ _ hp => (by cases hp)⟩

/-- A `flush` that finds the store closed leaves every operation as it is. -/
theorem ops_flush {i : Nat} (h : s.step (.flush i) = some s') : s'.ops = s.ops := by
  simp only [step] at h
  split at h
  · simp only [callStep] at h
    split at h <;> cases h
    rfl
  · cases h

/-- In every run in which `flush` looks in time, when `flush` returns normally every operation returned
before its call has left `Pending`, and none that was unsettled at the call has failed. -/
theorem flush_covers (h : Steps step InTime initial s) {call : FlushCall} (hf : Flushed s a call s') (ht : InTime s a) :
    (∀ id < call.submitted, (s'.ops id).status ≠ .pending) ∧ ∀ id ∈ call.unsettled, (s'.ops id).status ≠ .failed := by
  obtain ⟨hs, hfl⟩ := flushOk_of_steps h
  obtain ⟨hstep, ⟨rfl, hp⟩ | ⟨i, rfl, hc, hi⟩⟩ := hf
  · simp only [step, phaseStep, hp] at hstep
    cases hstep
    obtain ⟨hok, hids⟩ := hfl.waiting call [] hp
    have hfine : ∀ id ∈ call.unsettled, Fine s id := fun id hid => (hids id hid).resolve_left List.not_mem_nil
    refine ⟨fun id hid => ?_, fun id hid => (hfine id hid).2⟩
    by_cases hm : id ∈ call.unsettled
    · exact (hfine id hm).1
    · exact hok.others id hid hm
  · have hok : CallOk s call := hfl.calls call (List.mem_of_getElem? hi)
    have hset : ∀ id < s.opCount, (s.ops id).status ≠ .pending := fun id hid => hs.settled_of_closed hc hid
    rw [ops_flush hstep]
    refine ⟨fun id hid => hset id (lt_of_lt_of_le hid hok.submitted), fun id hid => ?_⟩
    rcases ht call (by simp [looking, hc, hi]) id hid with hpend | hfine
    · -- with nothing open the pending map is empty
      have hmem : id ∈ (s.pending : Multiset Nat) := hpend
      rw [hs.recorded.pending] at hmem
      obtain ⟨x, hx, -, rfl⟩ := mem_bind_pending.1 hmem
      exact absurd (hs.recorded.inHand x hx).2.1 (hset _ (hs.recorded.inHand x hx).1)
    · exact hfine.2

/-- Two calls, of which the second takes the lock first. The one write has settled when the first looks. -/
theorem flush_covers_oneWrite : ∃ s s', Steps step InTime initial s ∧ Flushed s (.fsync true) ⟨1, [0]⟩ s' ∧
    (∀ id < 1, (s'.ops id).status ≠ .pending) ∧ ∀ id ∈ [0], (s'.ops id).status ≠ .failed := by
  obtain ⟨s, hs, hp⟩ := Steps.of_test step InTime initial
    (oneWrite ++ [.callFlush, .callFlush, .flush 1, .snapshot, .take 0, .io 0 (.moved 4096), .retire 0, .publish 0, .wait,
      .fsync true, .flush 0, .snapshot])
    (fun s => s.phase = .flushWait ⟨1, [0]⟩ []) (by decide +kernel)
  have hf : Flushed s (.fsync true) ⟨1, [0]⟩ { s with phase := .free } := ⟨by simp [step, phaseStep, hp], .inl ⟨rfl, hp⟩⟩
  refine ⟨s, _, hs, hf, flush_covers hs hf ?_⟩
  intro call hcall
  cases hcall

/-- A `flush` called while a worker has retired an operation and not yet published its end returns with
the operation still pending. -/
theorem flush_misses : ∃ s s', Steps step (fun _ _ => True) initial s ∧ Flushed s (.fsync true) ⟨1, [0]⟩ s' ∧
    (s'.ops 0).status = .pending := by
  obtain ⟨s, hs, hp, hst⟩ := Steps.of_test step (fun _ _ => True) initial
    (oneWrite ++ [.take 0, .io 0 (.moved 4096), .retire 0, .callFlush, .flush 0, .snapshot])
    (fun s => s.phase = .flushWait ⟨1, [0]⟩ [] ∧ (s.ops 0).status = .pending) (by decide +kernel)
  exact ⟨s, { s with phase := .free }, hs, ⟨by simp [step, phaseStep, hp], .inl ⟨rfl, hp⟩⟩, hst⟩

end NvmeBackend

end FlashTier
