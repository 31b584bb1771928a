/-
The operations the store backend has in hand: queued, in the loop of a worker, about to be retired, or
retired and about to be published. One step changes one of them, adds one or drops one; the pending map,
the extents' counters and the operations' records follow.
-/
import FlashTier.Store.Backend
import Mathlib.Data.Multiset.Bind

namespace FlashTier

open Conc

/-- How far an operation is that is still in hand. -/
inductive OpStage where
  | queued
  | running (total : Nat)
  | retiring (outcome : OpOutcome)
  | publishing (outcome : OpOutcome)
  deriving DecidableEq

/-- Queued or being executed; not retired yet. -/
def OpStage.active : OpStage → Bool
  | .publishing _ => false
  | _ => true

abbrev Hand := OpContext × OpStage

def Worker.hand : Worker → Multiset Hand
  | .waiting | .exited => 0
  | .running ctx total => {(ctx, .running total)}
  | .retiring ctx outcome => {(ctx, .retiring outcome)}
  | .publishing ctx outcome => {(ctx, .publishing outcome)}

/-- The extents of an operation. -/
def OpContext.extents (c : OpContext) : Multiset Nat := Extents.range c.firstExtent c.extentCount

/-- What an operation in hand has in the pending map. -/
def Hand.pending (x : Hand) : Multiset Nat := if x.2.active then {x.1.op} else 0

/-- The extents on which an operation in hand counts as active. -/
def Hand.io (x : Hand) : Multiset Nat := if x.2.active then x.1.extents else 0

/-- The operations in hand of a queue and a pool of workers. -/
def handsOf (queue : List OpContext) (workers : List Worker) : Multiset Hand :=
  (queue : Multiset OpContext).map (fun c => (c, .queued)) + (workers : Multiset Worker).bind Worker.hand

section
variable {queue : List OpContext} {workers : List Worker} {w : Nat}

theorem handsOf_set (queue : List OpContext) {x : Worker} (h : workers[w]? = some x) (y : Worker) :
    ∃ R, handsOf queue workers = x.hand + R ∧ handsOf queue (workers.set w y) = y.hand + R := by
  obtain ⟨rest, hl, hset⟩ := bag_set h y
  refine ⟨(queue : Multiset OpContext).map (fun c => (c, .queued)) + rest.bind Worker.hand, ?_, ?_⟩
  · rw [handsOf, hl, Multiset.cons_bind, add_left_comm]
  · rw [handsOf, hset, Multiset.cons_bind, add_left_comm]

theorem handsOf_cons (c : OpContext) : handsOf (c :: queue) workers = (c, .queued) ::ₘ handsOf queue workers := by
  rw [handsOf, ← Multiset.cons_coe, Multiset.map_cons, Multiset.cons_add]
  rfl

theorem handsOf_append (c : OpContext) : handsOf (queue ++ [c]) workers = (c, .queued) ::ₘ handsOf queue workers := by
  rw [← handsOf_cons, handsOf, handsOf, Multiset.coe_eq_coe.2 (List.perm_append_singleton c queue)]

theorem handsOf_nil (h : ∀ x ∈ workers, x = .waiting ∨ x = .exited) : handsOf [] workers = 0 := by
  rw [handsOf, Multiset.coe_nil, Multiset.map_zero, zero_add, Multiset.eq_zero_iff_forall_notMem]
  intro y hy
  obtain ⟨x, hx, hy⟩ := Multiset.mem_bind.1 hy
  rcases h x hx with rfl | rfl <;> exact Multiset.notMem_zero y hy

end

namespace NvmeBackend

/-- The operations in hand. -/
def hands (s : NvmeBackend) : Multiset Hand := handsOf s.queue s.workers

end NvmeBackend

/-! ## What a step does -/

/-- The record of an operation in hand. -/
def InHand (x : Hand) (o : AsyncOp) : Prop :=
  o.status = .pending ∧ o.size = x.1.bytes ∧
    match x.2 with
    | .queued => o.moved = 0 ∧ o.takers = []
    | .running total => o.moved = total ∧ o.takers.length = 1
    | .retiring (.complete bytes) | .publishing (.complete bytes) => o.moved = bytes ∧ bytes = x.1.bytes ∧ o.takers.length = 1
    | .retiring (.fail _) | .publishing (.fail _) => o.takers.length = 1

/-- The record of an operation that has settled: complete only with all its bytes moved, cancelled only
when no worker took it. -/
structure AsyncOp.Settled (o : AsyncOp) : Prop where
  status : o.status ≠ .pending
  complete : o.status = .complete → o.bytesDone = o.size ∧ o.moved = o.size
  cancelled : o.status = .cancelled → o.moved = 0 ∧ o.takers = []
  once : o.takers.length ≤ 1

/-- The operations' records with one of them changed. -/
def updated (ops : Nat → AsyncOp) (id : Nat) (f : AsyncOp → AsyncOp) : Nat → AsyncOp :=
  fun i => if i = id then f (ops i) else ops i

@[simp] theorem updated_self (ops : Nat → AsyncOp) (id : Nat) (f : AsyncOp → AsyncOp) : updated ops id f id = f (ops id) := if_pos rfl

theorem updated_ne {ops : Nat → AsyncOp} {id i : Nat} {f : AsyncOp → AsyncOp} (h : i ≠ id) : updated ops id f i = ops i := if_neg h

/-- The operation covers allocated extents of the map. -/
structure OpContext.Inside (c : OpContext) (m : Extents) : Prop where
  offset : c.offset = (c.firstExtent + 1) * m.pageSize
  bytes : c.bytes = c.extentCount * m.pageSize
  pos : 0 < c.extentCount
  inside : c.firstExtent + c.extentCount ≤ m.extentCount
  used : ∀ i ∈ c.extents, m.used i = true

/-- The map with one more operation active on the extents of `c`. -/
def Extents.raise (m : Extents) (c : OpContext) : Extents :=
  { m with activeIo := fun i => if Within c.firstExtent c.extentCount i then (m.activeIo i + 1) % 2 ^ 32 else m.activeIo i }

/-- The map but for its flags. -/
structure SameMap (m m' : Extents) : Prop where
  pageSize : m'.pageSize = m.pageSize
  extentCount : m'.extentCount = m.extentCount
  used : m'.used = m.used
  activeIo : m'.activeIo = m.activeIo

theorem SameMap.refl (m : Extents) : SameMap m m := ⟨rfl, rfl, rfl, rfl⟩

/-- What one step does to the operations in hand, the records, the pending map and the extents. -/
inductive Change (s s' : NvmeBackend) : Prop where
  /-- nothing -/
  | same (hands : s'.hands = s.hands) (ops : s'.ops = s.ops ∧ s'.opCount = s.opCount) (pending : s'.pending = s.pending)
      (map : SameMap s.map s'.map)
  /-- an operation is accepted -/
  | submitted (r : IoRequest) (opened : s.map.Ok) (inside : (s.nextContext r).Inside s.map)
      (h : s' = s.enqueue r (s.map.raise (s.nextContext r)))
  /-- a call of the allocator -/
  | extents (k : Extents.Call) (opened : s.map.Ok) (h : s' = { s with map := (s.map.call k).2 })
  /-- a worker takes an operation, or a kernel call returns -/
  | advanced (c : OpContext) (st st' : OpStage) (f : AsyncOp → AsyncOp) (R : Multiset Hand)
      (before : s.hands = (c, st) ::ₘ R) (after : s'.hands = (c, st') ::ₘ R) (active : st.active = true ∧ st'.active = true)
      (ops : s'.ops = updated s.ops c.op f ∧ s'.opCount = s.opCount) (pending : s'.pending = s.pending)
      (map : s'.map = s.map) (record : InHand (c, st) (s.ops c.op) → InHand (c, st') (f (s.ops c.op)))
  /-- a worker retires an operation -/
  | retired (c : OpContext) (outcome : OpOutcome) (R : Multiset Hand)
      (before : s.hands = (c, .retiring outcome) ::ₘ R) (after : s'.hands = (c, .publishing outcome) ::ₘ R)
      (ops : s'.ops = s.ops ∧ s'.opCount = s.opCount) (pending : s'.pending = s.pending.filter (· ≠ c.op))
      (map : s'.map = s.map.retire c.firstExtent c.extentCount)
  /-- a worker publishes the end of an operation -/
  | published (c : OpContext) (outcome : OpOutcome) (R : Multiset Hand)
      (before : s.hands = (c, .publishing outcome) ::ₘ R) (after : s'.hands = R)
      (ops : s'.ops = updated s.ops c.op outcome.publish ∧ s'.opCount = s.opCount) (pending : s'.pending = s.pending)
      (map : s'.map = s.map)
  /-- a queued operation is cancelled -/
  | cancelled (c : OpContext) (R : Multiset Hand)
      (before : s.hands = (c, .queued) ::ₘ R) (after : s'.hands = R)
      (ops : s'.ops = updated s.ops c.op AsyncOp.cancel ∧ s'.opCount = s.opCount)
      (pending : s'.pending = s.pending.filter (· ≠ c.op)) (map : s'.map = s.map.retire c.firstExtent c.extentCount)
  /-- the store is closed or opened, with no operation in hand -/
  | reset (before : s.hands = 0) (after : s'.hands = 0) (ops : s'.ops = s.ops ∧ s'.opCount = s.opCount)
      (pending : s'.pending = [] ∨ s'.pending = s.pending) (map : s'.map = s.map ∨ ∀ i, s'.map.activeIo i = 0)

namespace NvmeBackend

/-- The flags, the phases and the queue. -/
structure FlowOk (s : NvmeBackend) : Prop where
  fd : s.fd = s.map.opened
  map : s.map.opened = true → s.phase.closing = false → s.map.Ok
  closed : s.map.opened = false → s.queue = [] ∧ s.workers = [] ∧ s.phase = .free
  joining : ∀ next, s.phase = .joining next → s.queue = []
  stopping : s.phase.closing = true → s.map.stopping = true

variable {s s' : NvmeBackend} {a : Action} {w : Nat}

/-! ## Inversion of the steps -/

theorem openAfter_cases (s : NvmeBackend) (a : OpenArgs) (answer : OpenAnswer) :
    s.openAfter a answer = s ∨
      ∃ map, Extents.openMap a.path a.capacityBytes a.pageSize = .ok map ∧
        (s.openAfter a answer = { s with map := map, fd := true, workers := List.replicate 4 .waiting } ∨
          s.openAfter a answer = { s with map := { map with opened := false } } ∨
          s.openAfter a answer = clear { s with map := map }) := by
  unfold openAfter
  rcases Extents.openMap a.path a.capacityBytes a.pageSize with e | map
  · exact .inl rfl
  · refine .inr ⟨map, rfl, ?_⟩
    rcases answer with _ | _ | _
    · exact .inl rfl
    · exact .inr (.inl rfl)
    · exact .inr (.inr rfl)

/-- Opening a closed store leaves no operation in hand and no active extent. -/
theorem openAfter_spec (hq : s.queue = []) (hw : s.workers = []) (a : OpenArgs) (answer : OpenAnswer) :
    (s.openAfter a answer).hands = 0 ∧ ((s.openAfter a answer).ops = s.ops ∧ (s.openAfter a answer).opCount = s.opCount) ∧
      ((s.openAfter a answer).pending = [] ∨ (s.openAfter a answer).pending = s.pending) ∧
      ((s.openAfter a answer).map = s.map ∨ ∀ i, (s.openAfter a answer).map.activeIo i = 0) := by
  have hnil : handsOf [] [] = 0 := handsOf_nil fun x hx => (List.not_mem_nil hx).elim
  have hz : s.hands = 0 := by rw [hands, hq, hw, hnil]
  rcases s.openAfter_cases a answer with h | ⟨map, hmap, h⟩
  · rw [h]
    exact ⟨hz, ⟨rfl, rfl⟩, .inr rfl, .inl rfl⟩
  · obtain ⟨rfl, -, -⟩ := Extents.openMap_ok hmap
    rcases h with h | h | h <;> rw [h]
    · refine ⟨?_, ⟨rfl, rfl⟩, .inr rfl, .inr fun _ => rfl⟩
      show handsOf s.queue _ = 0
      rw [hq]
      exact handsOf_nil fun x hx => .inl (List.eq_of_mem_replicate hx)
    · exact ⟨hz, ⟨rfl, rfl⟩, .inr rfl, .inr fun _ => rfl⟩
    · refine ⟨?_, ⟨rfl, rfl⟩, .inl rfl, .inr fun _ => rfl⟩
      show handsOf s.queue [] = 0
      rw [hq, hnil]

theorem change_openAfter (hq : s.queue = []) (hw : s.workers = []) (a : OpenArgs) (answer : OpenAnswer) :
    Change s (s.openAfter a answer) := by
  obtain ⟨hh, hops, hp, hm⟩ := openAfter_spec hq hw a answer
  refine .reset ?_ hh hops hp hm
  rw [hands, hq, hw]
  exact handsOf_nil fun x hx => (List.not_mem_nil hx).elim

/-- After the join, with every worker gone and the queue empty. -/
theorem change_endClose (hq : s.queue = []) (hw : s.workers.all (· == .exited) = true) (next : Option OpenArgs)
    (answer : OpenAnswer) : Change s (s.endClose next answer) := by
  have hz : s.hands = 0 := by
    rw [hands, hq]
    refine handsOf_nil fun x hx => .inr ?_
    simpa using List.all_eq_true.1 hw x hx
  cases next with
  | none =>
    refine .reset hz ?_ ⟨rfl, rfl⟩ (.inl rfl) (.inr fun _ => rfl)
    show handsOf s.queue [] = 0
    rw [hq]
    exact handsOf_nil fun x hx => (List.not_mem_nil hx).elim
  | some a =>
    obtain ⟨hh, hops, hp, hm⟩ := openAfter_spec (s := { s.clear with phase := .free }) hq rfl a answer
    refine .reset hz hh hops (.inl (hp.elim id id)) (.inr ?_)
    rcases hm with hm | hm
    · intro i
      exact (congrArg (fun m : Extents => m.activeIo i) hm).trans rfl
    · exact hm

theorem change_beginClose (hf : FlowOk s) (next : Option OpenArgs) (answer : OpenAnswer) : Change s (s.beginClose next answer) := by
  unfold beginClose
  split
  · rename_i h
    have ho : s.map.opened = false := by
      simp only [Bool.and_eq_true, Bool.not_eq_true'] at h
      exact h.1
    obtain ⟨hq, hw, -⟩ := hf.closed ho
    cases next with
    | none => exact .same rfl ⟨rfl, rfl⟩ rfl (.refl _)
    | some a => exact change_openAfter hq hw a answer
  · exact .same rfl ⟨rfl, rfl⟩ rfl ⟨rfl, rfl, rfl, rfl⟩

/-- An operation is accepted only on allocated extents inside the payload. -/
theorem submit_spec {r : IoRequest} (hok : s.map.Ok) (h : s.submit r = .ok s') :
    (s.nextContext r).Inside s.map ∧ s' = s.enqueue r (s.map.raise (s.nextContext r)) := by
  unfold submit at h
  split at h
  · cases h
  split at h
  · cases h
  split at h
  · cases h
  rename_i map hs
  cases h
  obtain ⟨first, n, ho, hb, hn, hin, hused, rfl⟩ := Extents.submit_ok (s := s.admission) hok.size hs
  have hfirst : (s.nextContext r).firstExtent = first := by
    show r.offset / s.map.pageSize - 1 = first
    rw [ho]
    exact Extents.offset_div hok.size
  have hcount : (s.nextContext r).extentCount = n := by
    show r.bytes / s.map.pageSize = n
    rw [hb]
    exact Nat.mul_div_cancel _ hok.size
  refine ⟨⟨?_, ?_, ?_, ?_, ?_⟩, ?_⟩
  · rw [hfirst]
    exact ho
  · rw [hcount]
    exact hb
  · rw [hcount]
    exact hn
  · rw [hfirst, hcount]
    exact hin
  · rw [OpContext.extents, hfirst, hcount]
    exact hused
  · rw [Extents.raise, hfirst, hcount]
    rfl

/-- A store that is not open refuses every call. -/
theorem call_of_closed (h : s.map.opened = false) (k : Extents.Call) : (s.map.call k).2 = s.map := by
  have ho : (!s.map.opened) = true := by rw [h]; rfl
  cases k with
  | allocateExtent => simp only [Extents.call, Extents.allocateExtent, ho, if_true, Extents.ofAllocation]
  | allocateExtents n => simp only [Extents.call, Extents.allocateExtents, ho, if_true, Extents.ofAllocation]
  | freeExtent offset => simp only [Extents.call, Extents.freeExtents, ho, if_true, Extents.ofRelease]
  | freeExtents offset n => simp only [Extents.call, Extents.freeExtents, ho, if_true, Extents.ofRelease]

theorem submit_of_closed (h : s.map.opened = false) (r : IoRequest) : s.submit r = .error Extents.notOpen := by
  simp only [submit, h, Bool.not_false, if_true]

theorem callStep_change (hf : FlowOk s) (hfree : s.phase = .free) (h : s.callStep a = some s') : Change s s' := by
  have hok : s.map.opened = true → s.map.Ok := fun ho => hf.map ho (by rw [hfree]; rfl)
  unfold callStep at h
  cases a with
  | submit r =>
    simp only at h
    rcases hs : s.submit r with e | s₁
    · rw [hs] at h
      cases h
      exact .same rfl ⟨rfl, rfl⟩ rfl (.refl _)
    · rw [hs] at h
      cases h
      by_cases ho : s.map.opened = true
      · obtain ⟨hin, rfl⟩ := submit_spec (hok ho) hs
        exact .submitted r (hok ho) hin rfl
      · rw [submit_of_closed (by simpa using ho)] at hs
        cases hs
  | extents k =>
    cases h
    by_cases ho : s.map.opened = true
    · exact .extents k (hok ho) rfl
    · rw [call_of_closed (by simpa using ho)]
      exact .same rfl ⟨rfl, rfl⟩ rfl (.refl _)
  | cancelAll =>
    simp only [Option.some.injEq] at h
    subst h
    split <;> exact .same rfl ⟨rfl, rfl⟩ rfl (.refl _)
  | flush i =>
    simp only at h
    split at h
    · cases h
    · cases h
      exact .same rfl ⟨rfl, rfl⟩ rfl (.refl _)
  | close =>
    cases h
    exact change_beginClose hf _ _
  | openStore args answer =>
    cases h
    exact change_beginClose hf _ _
  | _ => cases h

/-- The first queued operation is cancelled. -/
theorem change_cancelFirst {c : OpContext} {rest : List OpContext} (hq : s.queue = c :: rest) : Change s (s.cancelFirst c rest) := by
  refine .cancelled c (handsOf rest s.workers) ?_ rfl ⟨rfl, rfl⟩ rfl rfl
  rw [hands, hq, handsOf_cons]

theorem phaseStep_change (hf : FlowOk s) (h : s.phaseStep a = some s') : Change s s' := by
  unfold phaseStep at h
  cases a with
  | drain =>
    simp only at h
    split at h
    · cases h
      exact .same rfl ⟨rfl, rfl⟩ rfl (.refl _)
    · cases h
      exact .same rfl ⟨rfl, rfl⟩ rfl (.refl _)
    · rename_i hq
      cases h
      exact change_cancelFirst hq
    · rename_i hq
      cases h
      exact change_cancelFirst hq
    · cases h
  | snapshot =>
    simp only at h
    split at h
    · cases h
      exact .same rfl ⟨rfl, rfl⟩ rfl (.refl _)
    · cases h
  | wait =>
    simp only at h
    split at h
    · split at h
      · cases h
      all_goals
        cases h
        exact .same rfl ⟨rfl, rfl⟩ rfl (.refl _)
    · cases h
  | fsync ok =>
    simp only at h
    split at h
    · cases h
      exact .same rfl ⟨rfl, rfl⟩ rfl (.refl _)
    · cases h
  | join answer =>
    simp only at h
    split at h
    · rename_i next hp
      split at h
      · rename_i hw
        cases h
        exact change_endClose (hf.joining next hp) hw next answer
      · cases h
    · cases h
  | _ => cases h

/-- A kernel call that moved no byte leaves the record as it is. -/
theorem change_turn {c : OpContext} {total : Nat} {r : IoResult} (hw : s.workers[w]? = some (.running c total))
    (hr : ∀ n, r ≠ .moved n) : Change s (s.setWorker w (c.turn total r)) := by
  obtain ⟨R, hb, ha⟩ := handsOf_set s.queue hw (c.turn total r)
  have hid : s.ops = updated s.ops c.op id := by
    funext i
    simp [updated]
  cases r with
  | interrupted => exact .advanced c (.running total) (.running total) id R hb ha ⟨rfl, rfl⟩ ⟨hid, rfl⟩ rfl rfl id
  | failed message =>
    exact .advanced c (.running total) (.retiring (.fail (c.ioFailed message))) id R hb ha ⟨rfl, rfl⟩ ⟨hid, rfl⟩ rfl rfl
      fun ⟨h1, h2, h3⟩ => ⟨h1, h2, h3.2⟩
  | zero =>
    exact .advanced c (.running total) (.retiring (.fail c.noProgress)) id R hb ha ⟨rfl, rfl⟩ ⟨hid, rfl⟩ rfl rfl
      fun ⟨h1, h2, h3⟩ => ⟨h1, h2, h3.2⟩
  | moved n => exact absurd rfl (hr n)

/-- A kernel call moved bytes. -/
theorem change_moved {c : OpContext} {total n : Nat} (hw : s.workers[w]? = some (.running c total)) (hn : total + n ≤ c.bytes) :
    Change s ((s.setWorker w (c.turn total (.moved n))).setOp c.op fun o => { o with moved := o.moved + n }) := by
  obtain ⟨R, hb, ha⟩ := handsOf_set s.queue hw (c.turn total (.moved n))
  by_cases hlt : total + n < c.bytes
  · have hturn : c.turn total (.moved n) = .running c (total + n) := if_pos hlt
    rw [hturn] at ha ⊢
    exact .advanced c (.running total) (.running (total + n)) (fun o => { o with moved := o.moved + n }) R hb ha ⟨rfl, rfl⟩ ⟨rfl, rfl⟩ rfl rfl
      fun ⟨h1, h2, h3, h4⟩ => ⟨h1, h2, congrArg (· + n) h3, h4⟩
  · have hturn : c.turn total (.moved n) = .retiring c (.complete (total + n)) := if_neg hlt
    rw [hturn] at ha ⊢
    have hall : total + n = c.bytes := by omega
    exact .advanced c (.running total) (.retiring (.complete (total + n))) (fun o => { o with moved := o.moved + n }) R hb ha
      ⟨rfl, rfl⟩ ⟨rfl, rfl⟩ rfl rfl fun ⟨h1, h2, h3, h4⟩ => ⟨h1, h2, congrArg (· + n) h3, hall, h4⟩

theorem workerStep_change (h : s.workerStep a = some s') : Change s s' := by
  unfold workerStep at h
  cases a with
  | take w =>
    simp only at h
    split at h
    · rename_i c rest hw hq
      split at h
      · cases h
      · cases h
        obtain ⟨R, hb, ha⟩ := handsOf_set rest hw (.running c 0)
        refine .advanced c .queued (.running 0) (fun o => { o with takers := w :: o.takers }) R ?_ ha ⟨rfl, rfl⟩ ⟨rfl, rfl⟩ rfl rfl ?_
        · rw [hands, hq, handsOf_cons, hb]
          exact congrArg _ (zero_add R)
        · rintro ⟨h1, h2, h3, h4⟩
          exact ⟨h1, h2, h3, by simp [h4]⟩
    · rename_i hw hq
      split at h
      · cases h
      · cases h
        obtain ⟨R, hb, ha⟩ := handsOf_set s.queue hw .exited
        exact .same (ha.trans hb.symm) ⟨rfl, rfl⟩ rfl (.refl _)
    · cases h
  | io w r =>
    simp only at h
    split at h
    · rename_i c total hw
      split at h
      · rename_i n
        split at h
        · rename_i hn
          cases h
          exact change_moved hw hn.2
        · cases h
      · rename_i hr
        cases h
        exact change_turn hw hr
    · cases h
  | retire w =>
    simp only at h
    split at h
    · rename_i c outcome hw
      split at h
      · cases h
      · cases h
        obtain ⟨R, hb, ha⟩ := handsOf_set s.queue hw (.publishing c outcome)
        exact .retired c outcome R hb ha ⟨rfl, rfl⟩ rfl rfl
    · cases h
  | publish w =>
    simp only at h
    split at h
    · rename_i c outcome hw
      cases h
      obtain ⟨R, hb, ha⟩ := handsOf_set s.queue hw .waiting
      exact .published c outcome R hb (ha.trans (zero_add R)) ⟨rfl, rfl⟩ rfl rfl
    · cases h
  | _ => cases h

/-- Every step is one of the changes. -/
theorem step_change (hf : FlowOk s) (h : s.step a = some s') : Change s s' := by
  unfold step at h
  cases a with
  | submit | extents | cancelAll | flush | close | openStore =>
    simp only at h
    split at h
    · rename_i hfree
      exact callStep_change hf hfree h
    · cases h
  | drain | snapshot | wait | fsync | join => exact phaseStep_change hf h
  | take | io | retire | publish => exact workerStep_change h
  | callFlush =>
    cases h
    exact .same rfl ⟨rfl, rfl⟩ rfl (.refl _)

end NvmeBackend

end FlashTier
