/-
The promises of demand requests. A demand is in the queue, in the hands of one worker or in the hands of the
shutdown that took it from the queue, exactly as long as its promise is not satisfied. So no promise is
satisfied twice, and none is left when `shutdown` returns.
-/
import FlashTier.Queue.System
import Mathlib.Algebra.BigOperators.Group.Multiset.Basic

namespace FlashTier

open Conc

/-! ## Requests in hand -/

/-- The promise of a request, if it has one. -/
def Request.owes (r : Request) : Multiset Nat :=
  match r.completion with
  | some k => {k}
  | none => 0

def WorkerAt.owes : WorkerAt → Multiset Nat
  | .popped r | .serving r => r.owes
  | _ => 0

/-- The requests that are still to be cancelled. -/
def ControlAt.rest : ControlAt → List Request
  | .cancelling _ rest => rest
  | _ => []

def owesAll (l : List Request) : Multiset Nat := (l.map Request.owes).sum

@[simp] theorem owesAll_nil : owesAll [] = 0 := rfl

@[simp] theorem owesAll_cons (r : Request) (l : List Request) : owesAll (r :: l) = r.owes + owesAll l := by
  rw [owesAll, List.map_cons, List.sum_cons]
  rfl

@[simp] theorem owesAll_append (l l' : List Request) : owesAll (l ++ l') = owesAll l + owesAll l' := by
  rw [owesAll, List.map_append, List.sum_append]
  rfl

/-- Requests without a promise may be left out. -/
theorem owesAll_filter {p : Request → Bool} {l : List Request} (h : ∀ r ∈ l, p r = false → r.completion = none) :
    owesAll (l.filter p) = owesAll l := by
  induction l with
  | nil => rfl
  | cons r l ih =>
    have hl := ih fun r' hr' => h r' (List.mem_cons_of_mem _ hr')
    cases hp : p r with
    | true => rw [List.filter_cons_of_pos hp, owesAll_cons, owesAll_cons, hl]
    | false =>
      have hnone : r.owes = 0 := by rw [Request.owes, h r List.mem_cons_self hp]
      rw [List.filter_cons_of_neg (by rw [hp]; decide), owesAll_cons, hnone, zero_add, hl]

namespace RequestQueue

variable {cfg : QueueConfig} {s s' : RequestQueue} {a : Action}

/-- The promises of the workers' requests. -/
def workersOwe (l : List WorkerAt) : Multiset Nat := ((l : Multiset WorkerAt).map WorkerAt.owes).sum

/-- The promises of the requests in the queue, in the hands of the workers and of the shutdown. -/
def owed (s : RequestQueue) : Multiset Nat := owesAll s.queue + workersOwe s.workers + owesAll s.control.rest

theorem workersOwe_set {l : List WorkerAt} {w : Nat} {x : WorkerAt} (hw : l[w]? = some x) (y : WorkerAt) :
    ∃ R, workersOwe l = x.owes + R ∧ workersOwe (l.set w y) = y.owes + R := by
  obtain ⟨rest, hl, hset⟩ := bag_set hw y
  refine ⟨(rest.map WorkerAt.owes).sum, ?_, ?_⟩
  · rw [workersOwe, hl, Multiset.map_cons, Multiset.sum_cons]
  · rw [workersOwe, hset, Multiset.map_cons, Multiset.sum_cons]

/-- A worker that moves on with the same promise. -/
theorem workersOwe_same {l : List WorkerAt} {w : Nat} {x y : WorkerAt} (hw : l[w]? = some x) (h : y.owes = x.owes) :
    workersOwe (l.set w y) = workersOwe l := by
  obtain ⟨R, hl, hset⟩ := workersOwe_set hw y
  rw [hl, hset, h]

theorem owes_woken (x : WorkerAt) : x.woken.owes = x.owes := by
  cases x <;> rfl

theorem workersOwe_woken (l : List WorkerAt) : workersOwe (l.map WorkerAt.woken) = workersOwe l := by
  rw [workersOwe, ← Multiset.map_coe, Multiset.map_map]
  congr 2
  funext x
  exact owes_woken x

theorem workersOwe_modify (l : List WorkerAt) (w : Nat) : workersOwe (l.modify w WorkerAt.woken) = workersOwe l := by
  have hmap : (l.modify w WorkerAt.woken).map WorkerAt.owes = l.map WorkerAt.owes := by
    apply List.ext_getElem?
    intro i
    rw [List.getElem?_map, List.getElem?_map, List.getElem?_modify]
    rcases l[i]? with _ | x
    · rfl
    · by_cases hi : w = i
      · simp [hi, owes_woken]
      · simp [hi]
  rw [workersOwe, workersOwe, Multiset.map_coe, Multiset.map_coe, hmap]

theorem workersOwe_of_idle {l : List WorkerAt} (h : ∀ x ∈ l, x.owes = 0) : workersOwe l = 0 := by
  rw [workersOwe, Multiset.sum_eq_zero]
  intro m hm
  obtain ⟨x, hx, rfl⟩ := Multiset.mem_map.1 hm
  exact h x hx

/-! ## The invariant -/

/-- A promise is owed exactly while it is not satisfied; the queue keeps within its bound, and is empty once
the runtime stops. -/
structure Owing (cfg : QueueConfig) (s : RequestQueue) : Prop where
  nodup : s.owed.Nodup
  owed_iff : ∀ k, k ∈ s.owed ↔ s.promises[k]? = some []
  once : ∀ l ∈ s.promises, l.length ≤ 1
  prefetch : ∀ r ∈ s.queue, r.kind = .prefetch → r.completion = none
  room : s.queue.length ≤ cfg.queueDepth + cfg.prefetchDepth
  stopped : s.stopping = true → s.queue = []
  control : s.control ≠ .free → s.control ≠ .starting → s.stopping = true
  starting : s.control = .starting → s.workers = []

theorem owing_initial (n : Nat) : Owing cfg (initial n) := by
  refine ⟨Multiset.nodup_zero, fun k => ?_, fun l hl => ?_, fun r hr => ?_, Nat.zero_le _, fun _ => rfl, fun h => absurd rfl h, fun h => ?_⟩
  · exact iff_of_false (Multiset.notMem_zero k) (by intro h; cases h)
  · cases hl
  · cases hr
  · cases h

/-- The promises and what is owed stay. -/
theorem Owing.keep (h : Owing cfg s) (ho : s'.owed = s.owed) (hp : s'.promises = s.promises) (hq : s'.queue.Sublist s.queue)
    (hs : s'.stopping = true → s'.queue = []) (hc : s'.control ≠ .free → s'.control ≠ .starting → s'.stopping = true)
    (hstart : s'.control = .starting → s'.workers = []) : Owing cfg s' := by
  constructor
  · rw [ho]
    exact h.nodup
  · intro k
    rw [ho, hp]
    exact h.owed_iff k
  · rw [hp]
    exact h.once
  · intro r hr
    exact h.prefetch r (hq.subset hr)
  · exact hq.length_le.trans h.room
  · exact hs
  · exact hc
  · exact hstart

/-- The promise of a request in hand is satisfied, and the request is gone. -/
theorem Owing.settle {r : Request} {x : Completion} {R : Multiset Nat} (h : Owing cfg s) (ho : s.owed = r.owes + R) (ho' : s'.owed = R)
    (hp : s'.promises = (s.satisfy r x).promises) (hq : s'.queue = s.queue) (hs : s'.stopping = s.stopping)
    (hc : s'.control ≠ .free → s'.control ≠ .starting → s'.stopping = true) (hstart : s'.control = .starting → s'.workers = []) :
    Owing cfg s' := by
  unfold satisfy at hp
  unfold Request.owes at ho
  cases hr : r.completion with
  | none =>
    rw [hr] at ho hp
    simp only [zero_add] at ho
    refine h.keep (ho'.trans ho.symm) hp (by rw [hq]) (fun hst => ?_) hc hstart
    rw [hq]
    exact h.stopped (hs ▸ hst)
  | some k =>
    rw [hr] at ho hp
    simp only at ho hp
    have hnodup := h.nodup
    rw [ho, Multiset.singleton_add, Multiset.nodup_cons] at hnodup
    have hopen : s.promises[k]? = some [] := (h.owed_iff k).1 (by rw [ho]; simp)
    constructor
    · rw [ho']
      exact hnodup.2
    · intro j
      rw [ho', hp, List.getElem?_modify]
      by_cases hj : k = j
      · subst hj
        rw [hopen]
        simpa using hnodup.1
      · have := h.owed_iff j
        rw [ho, Multiset.singleton_add, Multiset.mem_cons] at this
        simp only [if_neg hj, id_map', ← this]
        exact ⟨.inr, fun hm => hm.resolve_left (Ne.symm hj)⟩
    · intro l hl
      rw [hp] at hl
      obtain ⟨j, hj⟩ := List.mem_iff_getElem?.1 hl
      rw [List.getElem?_modify] at hj
      by_cases hk : k = j
      · subst hk
        rw [hopen] at hj
        simp only [if_true, Option.map_eq_map, Option.map_some, Option.some.injEq] at hj
        rw [← hj]
        exact Nat.le_refl 1
      · simp only [if_neg hk, id_map'] at hj
        exact h.once l (List.mem_of_getElem? hj)
    · rw [hq]
      exact h.prefetch
    · rw [hq]
      exact h.room
    · intro hst
      rw [hq]
      exact h.stopped (hs ▸ hst)
    · exact hc
    · exact hstart

/-! ## Workers -/

/-- A worker moves on, with the promise it had. -/
theorem Owing.setWorker {w : Nat} {x y : WorkerAt} (h : Owing cfg s) (hw : s.workers[w]? = some x) (hy : y.owes = x.owes) :
    Owing cfg (s.setWorker w y) := by
  refine h.keep ?_ rfl (List.Sublist.refl _) h.stopped h.control fun hc => ?_
  · show owesAll s.queue + workersOwe (s.workers.set w y) + owesAll s.control.rest = s.owed
    rw [workersOwe_same hw hy]
    rfl
  · rw [h.starting hc] at hw
    cases hw

theorem Owing.wakeAll (h : Owing cfg s) : Owing cfg s.wakeAll := by
  refine h.keep ?_ rfl (List.Sublist.refl _) h.stopped h.control fun hc => ?_
  · show owesAll s.queue + workersOwe (s.workers.map WorkerAt.woken) + owesAll s.control.rest = s.owed
    rw [workersOwe_woken]
    rfl
  · show s.workers.map WorkerAt.woken = []
    rw [h.starting hc]
    rfl

theorem owing_testWorker {w : Nat} (h : Owing cfg s) (hw : s.workers[w]? = some .testing) : Owing cfg (s.testWorker w) := by
  unfold testWorker
  split
  · split
    · exact h.setWorker hw rfl
    · -- the first request passes from the queue to the worker
      rename_i r rest hq
      obtain ⟨R, hl, hset⟩ := workersOwe_set hw (.popped r)
      refine h.keep ?_ rfl ?_ (fun hs => ?_) h.control fun hc => ?_
      · show owesAll rest + workersOwe (s.workers.set w (.popped r)) + owesAll s.control.rest = s.owed
        rw [hset, owed, hq, owesAll_cons, hl]
        show owesAll rest + (r.owes + R) + _ = r.owes + owesAll rest + (0 + R) + _
        rw [zero_add, ← add_assoc, add_comm (owesAll rest)]
      · rw [hq]
        exact List.sublist_cons_self r rest
      · rw [h.stopped hs] at hq
        cases hq
      · rw [h.starting hc] at hw
        cases hw
  · exact h.setWorker hw rfl

theorem owing_complete {w : Nat} {r : Request} {x : Completion} {y : WorkerAt} (h : Owing cfg s) (hw : s.workers[w]? = some (.serving r))
    (hy : y.owes = 0) : Owing cfg ((s.satisfy r x).setWorker w y) := by
  obtain ⟨R, hl, hset⟩ := workersOwe_set hw y
  obtain ⟨promises, hsat⟩ := s.satisfy_eq r x
  have hpromises : promises = (s.satisfy r x).promises := by rw [hsat]
  rw [hsat]
  refine h.settle (x := x) (R := owesAll s.queue + R + owesAll s.control.rest) (r := r) ?_ ?_ hpromises rfl rfl h.control fun hc => ?_
  · rw [owed, hl]
    show owesAll s.queue + (r.owes + R) + _ = r.owes + (owesAll s.queue + R + _)
    rw [← add_assoc, ← add_assoc, ← add_assoc, add_comm (owesAll s.queue)]
  · show owesAll s.queue + workersOwe (s.workers.set w y) + owesAll s.control.rest = _
    rw [hset, hy, zero_add]
  · rw [h.starting hc] at hw
    cases hw

theorem owing_workerStep {w : Nat} (h : Owing cfg s) (hs : s.workerStep w a = some s') : Owing cfg s' := by
  unfold workerStep at hs
  cases a with
  | test =>
    simp only at hs
    split at hs <;> cases hs
    rename_i hw
    exact owing_testWorker h hw
  | announce =>
    simp only at hs
    split at hs
    · rename_i r hw
      cases hs
      exact h.wakeAll.setWorker (wakeAll_worker hw) rfl
    · rename_i hw
      cases hs
      exact h.wakeAll.setWorker (wakeAll_worker hw) rfl
    · cases hs
  | complete _ outcome =>
    simp only at hs
    split at hs <;> cases hs
    rename_i r hw
    apply owing_complete h hw
    split <;> rfl
  | finish =>
    simp only at hs
    split at hs <;> cases hs
    rename_i page hw
    exact Owing.setWorker (s := { s with pendingPrefetches := _ })
      ⟨h.nodup, h.owed_iff, h.once, h.prefetch, h.room, h.stopped, h.control, h.starting⟩ hw rfl
  | _ => cases hs

/-! ## Callers -/

theorem Owing.setCaller {c : Nat} {y : CallerAt} (h : Owing cfg s) : Owing cfg (s.setCaller c y) :=
  ⟨h.nodup, h.owed_iff, h.once, h.prefetch, h.room, h.stopped, h.control, h.starting⟩

/-- A new demand owes the promise that comes with it. -/
theorem owing_push {page : PageId} {target : Tier} (h : Owing cfg s) (hroom : s.queue.length < cfg.queueDepth) (hs : s.stopping = false) :
    Owing cfg { s with queue := s.queue ++ [Request.mk .demand page target (some s.promises.length)], promises := s.promises ++ [[]] } := by
  have howed : owed { s with queue := s.queue ++ [Request.mk .demand page target (some s.promises.length)], promises := s.promises ++ [[]] } =
      s.promises.length ::ₘ s.owed := by
    show owesAll (s.queue ++ [_]) + workersOwe s.workers + owesAll s.control.rest = _
    rw [owesAll_append, owesAll_cons, owesAll_nil, add_zero, owed, ← Multiset.singleton_add]
    show owesAll s.queue + {s.promises.length} + _ + _ = _
    rw [add_comm (owesAll s.queue), add_assoc, add_assoc, add_assoc]
  have hnew : s.promises.length ∉ s.owed := by
    rw [h.owed_iff, List.getElem?_eq_none (Nat.le_refl _)]
    intro hn
    cases hn
  constructor
  · rw [howed]
    exact Multiset.nodup_cons.2 ⟨hnew, h.nodup⟩
  · intro k
    rw [howed, Multiset.mem_cons, h.owed_iff, List.getElem?_append]
    by_cases hk : k < s.promises.length
    · rw [if_pos hk]
      exact ⟨fun ho => ho.resolve_left hk.ne, .inr⟩
    · have hold : s.promises[k]? = none := List.getElem?_eq_none (Nat.not_lt.1 hk)
      rw [if_neg hk, hold]
      constructor
      · rintro (rfl | hn)
        · rw [Nat.sub_self]
          rfl
        · cases hn
      · intro hsome
        have hlt := (List.getElem?_eq_some_iff.1 hsome).1
        rw [List.length_singleton] at hlt
        exact .inl (by omega)
  · intro l hl
    rcases List.mem_append.1 hl with hl | hl
    · exact h.once l hl
    · rw [List.mem_singleton.1 hl]
      exact Nat.zero_le 1
  · intro r hr hkind
    rcases List.mem_append.1 hr with hr | hr
    · exact h.prefetch r hr hkind
    · rw [List.mem_singleton.1 hr] at hkind
      cases hkind
  · show (s.queue ++ [_]).length ≤ _
    rw [List.length_append]
    exact Nat.le_add_right_of_le hroom
  · intro hst
    rw [hs] at hst
    cases hst
  · exact h.control
  · exact h.starting

theorem owing_testDemand {c : Nat} {page : PageId} {target : Tier} (h : Owing cfg s) : Owing cfg (s.testDemand cfg c page target) := by
  unfold testDemand
  split
  · split
    · exact h.setCaller
    · rename_i hpred hrun
      simp only [Bool.or_eq_true, not_or, decide_eq_true_eq] at hpred hrun
      exact (owing_push h (hpred.resolve_left (not_or.2 hrun)) (Bool.eq_false_of_not_eq_true hrun.1)).setCaller
  · exact h.setCaller

theorem owing_pushPrefetch {c : Nat} {page : PageId} {target : Tier} (h : Owing cfg s) : Owing cfg (s.pushPrefetch cfg c page target) := by
  unfold pushPrefetch
  split
  · exact h
  split
  · rename_i hrun hroom
    refine Owing.setCaller ?_
    have howed : owed { s with pendingPrefetches := page :: s.pendingPrefetches, queue := s.queue ++ [Request.mk .prefetch page target none] } = s.owed := by
      show owesAll (s.queue ++ [_]) + workersOwe s.workers + owesAll s.control.rest = s.owed
      rw [owesAll_append, owesAll_cons, owesAll_nil, add_zero]
      show owesAll s.queue + 0 + _ + _ = _
      rw [add_zero]
      rfl
    constructor
    · rw [howed]
      exact h.nodup
    · rw [howed]
      exact h.owed_iff
    · exact h.once
    · intro r hr hkind
      rcases List.mem_append.1 hr with hr | hr
      · exact h.prefetch r hr hkind
      · rw [List.mem_singleton.1 hr]
    · show (s.queue ++ [_]).length ≤ _
      rw [List.length_append]
      exact hroom.2
    · intro hst
      rw [Bool.or_eq_true, not_or] at hrun
      exact absurd hst hrun.1
    · exact h.control
    · exact h.starting
  · exact h.setCaller

/-- What `remove_queued_prefetch` takes out of the queue owes nothing. -/
theorem owing_remove {c : Nat} {page : PageId} (h : Owing cfg s) : Owing cfg (s.removeQueuedPrefetch c page) := by
  unfold removeQueuedPrefetch
  split
  · refine Owing.setCaller (h.keep ?_ rfl List.filter_sublist (fun hst => ?_) h.control h.starting)
    · show owesAll (s.queue.filter _) + workersOwe s.workers + owesAll s.control.rest = s.owed
      rw [owesAll_filter]
      · rfl
      · intro r hr hp
        refine h.prefetch r hr ?_
        simp only [isPrefetch, Bool.not_eq_false', Bool.and_eq_true, beq_iff_eq] at hp
        exact hp.2
    · show s.queue.filter _ = []
      rw [h.stopped hst]
      rfl
  · exact h

theorem Owing.wake {x : Waiter} (h : Owing cfg s) : Owing cfg (s.wake x) := by
  cases x with
  | worker w =>
    refine h.keep ?_ rfl (List.Sublist.refl _) h.stopped h.control fun hc => ?_
    · show owesAll s.queue + workersOwe (s.workers.modify w WorkerAt.woken) + owesAll s.control.rest = s.owed
      rw [workersOwe_modify]
      rfl
    · exact List.modify_eq_nil_iff.2 (h.starting hc)
  | caller c => exact ⟨h.nodup, h.owed_iff, h.once, h.prefetch, h.room, h.stopped, h.control, h.starting⟩

theorem owing_wakeOne {x : Option Waiter} (h : Owing cfg s) (hs : s.wakeOne x = some s') : Owing cfg s' := by
  cases x with
  | none =>
    simp only [wakeOne] at hs
    split at hs <;> cases hs
    exact h
  | some x =>
    simp only [wakeOne] at hs
    split at hs <;> cases hs
    exact h.wake

theorem owing_callerStep {c : Nat} (h : Owing cfg s) (hs : s.callerStep cfg c a = some s') : Owing cfg s' := by
  unfold callerStep at hs
  cases a with
  | demand _ page target =>
    simp only at hs
    split at hs <;> cases hs
    exact h.setCaller
  | push =>
    simp only at hs
    split at hs <;> cases hs
    exact owing_testDemand h
  | notifyOne _ x =>
    simp only at hs
    split at hs
    · exact owing_wakeOne h.setCaller hs
    · exact owing_wakeOne h.setCaller hs
    · cases hs
  | getFuture =>
    simp only at hs
    split at hs
    · split at hs <;> cases hs
      exact h.setCaller
    · cases hs
  | prefetch _ page target =>
    simp only at hs
    split at hs <;> cases hs
    exact owing_pushPrefetch h
  | remove _ page =>
    simp only at hs
    split at hs <;> cases hs
    exact owing_remove h
  | notifyAll =>
    simp only at hs
    split at hs <;> cases hs
    exact h.setCaller.wakeAll
  | _ => cases hs

/-! ## Start and shutdown -/

/-- Other workers that have no request. -/
theorem Owing.setWorkers {workers : List WorkerAt} {control : ControlAt} (running : Bool) (h : Owing cfg s) (hold : ∀ x ∈ s.workers, x.owes = 0)
    (hnew : ∀ x ∈ workers, x.owes = 0) (hrest : s.control.rest = []) (hrest' : control.rest = [])
    (hc : control ≠ .free → control ≠ .starting → s.stopping = true) (hstart : control = .starting → workers = []) :
    Owing cfg { s with workers := workers, running := running, control := control } := by
  refine h.keep ?_ rfl (List.Sublist.refl _) h.stopped hc hstart
  show owesAll s.queue + workersOwe workers + owesAll control.rest = owesAll s.queue + workersOwe s.workers + owesAll s.control.rest
  rw [hrest, hrest', workersOwe_of_idle hold, workersOwe_of_idle hnew]

/-- The control moves on, with nothing left to cancel. -/
theorem Owing.setControl {control : ControlAt} (h : Owing cfg s) (hrest : s.control.rest = control.rest) (hst : s.stopping = true)
    (hstart : control ≠ .starting) : Owing cfg { s with control := control } := by
  refine h.keep ?_ rfl (List.Sublist.refl _) h.stopped (fun _ _ => hst) fun hc => absurd hc hstart
  show owesAll s.queue + workersOwe s.workers + owesAll control.rest = s.owed
  rw [← hrest]
  rfl

/-- What was queued passes to the shutdown. -/
theorem Owing.stop {second : Bool} (h : Owing cfg s) (hrest : s.control.rest = []) : Owing cfg (s.stop second) := by
  refine h.keep ?_ rfl (List.nil_sublist _) (fun _ => rfl) (fun _ _ => rfl) fun hc => ?_
  · show owesAll [] + workersOwe s.workers + owesAll s.queue = owesAll s.queue + workersOwe s.workers + owesAll s.control.rest
    rw [hrest, owesAll_nil, zero_add, add_zero, add_comm]
  · cases hc

theorem owing_controlStep (h : Owing cfg s) (hs : s.controlStep cfg a = some s') : Owing cfg s' := by
  unfold controlStep at hs
  cases a with
  | start =>
    simp only at hs
    split at hs <;> cases hs
    rename_i hfree
    obtain ⟨hc, -, hst, hw⟩ := hfree
    refine h.keep ?_ rfl (List.Sublist.refl _) (fun hst' => ?_) (fun _ hne => absurd rfl hne) fun _ => hw
    · show owesAll s.queue + workersOwe s.workers + 0 = owesAll s.queue + workersOwe s.workers + owesAll s.control.rest
      rw [hc]
      rfl
    · cases hst'
  | go =>
    simp only at hs
    split at hs <;> cases hs
    rename_i hstart
    refine h.setWorkers true (fun x hx => ?_) (fun x hx => ?_) (by rw [hstart]; rfl) rfl (fun hne => absurd rfl hne) fun hc => ?_
    · rw [h.starting hstart] at hx
      cases hx
    · rw [List.eq_of_mem_replicate hx]
      rfl
    · cases hc
  | startFails created =>
    simp only at hs
    split at hs <;> cases hs
    rename_i hstart
    -- the workers that were created have nothing in hand; the control is as good as free
    have hfree : Owing cfg { s with workers := List.replicate created .testing, running := s.running, control := .free } := by
      refine h.setWorkers s.running (fun x hx => ?_) (fun x hx => ?_) (by rw [hstart]; rfl) rfl (fun hne => absurd rfl hne) fun hc => ?_
      · rw [h.starting hstart] at hx
        cases hx
      · rw [List.eq_of_mem_replicate hx]
        rfl
      · cases hc
    exact hfree.stop rfl
  | shutdown =>
    simp only at hs
    split at hs <;> cases hs
    rename_i hfree
    exact h.stop (by rw [hfree]; rfl)
  | cancel =>
    have hstop : ∀ {second rest}, s.control = .cancelling second rest → s.stopping = true := by
      intro second rest hc
      apply h.control <;> rw [hc] <;> intro he <;> cases he
    simp only at hs
    split at hs <;> cases hs
    · rename_i second r rest hc
      obtain ⟨promises, hsat⟩ := s.satisfy_eq r .cancelled
      have hpromises : promises = (s.satisfy r .cancelled).promises := by rw [hsat]
      rw [hsat]
      refine h.settle (r := r) (x := .cancelled) (R := owesAll s.queue + workersOwe s.workers + owesAll rest) ?_ rfl hpromises rfl rfl
        (fun _ _ => hstop hc) fun he => ?_
      · rw [owed, hc]
        show owesAll s.queue + _ + owesAll (r :: rest) = _
        rw [owesAll_cons, add_left_comm]
      · cases he
    · rename_i second hc
      exact h.setControl (by rw [hc]; rfl) (hstop hc) (by intro he; cases he)
  | announceStop =>
    simp only at hs
    split at hs <;> cases hs
    rename_i second hc
    have hstop : s.stopping = true := by
      apply h.control <;> rw [hc] <;> intro he <;> cases he
    cases second with
    | false => exact h.wakeAll.setControl (by show s.control.rest = _; rw [hc]; rfl) hstop (by intro he; cases he)
    | true => exact h.wakeAll.setControl (by show s.control.rest = _; rw [hc]; rfl) hstop (by intro he; cases he)
  | lock =>
    simp only at hs
    split at hs <;> cases hs
    rename_i hlock
    exact h.stop (by rw [hlock]; rfl)
  | join =>
    simp only at hs
    split at hs <;> cases hs
    rename_i hc
    refine h.setWorkers s.running (fun x hx => ?_) (fun x hx => ?_) (by rw [hc.1]; rfl) rfl (fun hne => absurd rfl hne) fun he => ?_
    · have hexited : x = .exited := by simpa using List.all_eq_true.1 hc.2 x hx
      rw [hexited]
      rfl
    · cases hx
    · cases he
  | _ => cases hs

theorem owing_step (h : Owing cfg s) (hs : step cfg s a = some s') : Owing cfg s' := by
  unfold step at hs
  cases a with
  | test | announce | complete | finish => exact owing_workerStep h hs
  | demand | push | notifyOne | getFuture | prefetch | remove | notifyAll => exact owing_callerStep h hs
  | spurious x =>
    simp only at hs
    split at hs <;> cases hs
    exact h.wake
  | start | go | startFails | shutdown | cancel | announceStop | lock | join => exact owing_controlStep h hs

/-! ## What a step accepts -/

theorem satisfy_length (s : RequestQueue) (r : Request) (x : Completion) : (s.satisfy r x).promises.length = s.promises.length := by
  unfold satisfy
  split
  · exact List.length_modify _ _ _
  · rfl

/-- A stopped runtime accepts nothing. -/
theorem step_stopping (hq : s.queue = []) (hst : s.stopping = true) (hs : step cfg s a = some s') :
    s'.promises.length = s.promises.length ∧ s'.queue = [] := by
  have hsat : ∀ r x, (s.satisfy r x).promises.length = s.promises.length ∧ (s.satisfy r x).queue = [] := by
    intro r x
    obtain ⟨promises, h⟩ := s.satisfy_eq r x
    refine ⟨s.satisfy_length r x, ?_⟩
    rw [h]
    exact hq
  have hwake : ∀ {t t' : RequestQueue} {x}, t.wakeOne x = some t' → t'.promises = t.promises ∧ t'.queue = t.queue := by
    intro t t' x h
    cases x with
    | none =>
      simp only [wakeOne] at h
      split at h <;> cases h
      exact ⟨rfl, rfl⟩
    | some x =>
      simp only [wakeOne] at h
      split at h <;> cases h
      cases x <;> exact ⟨rfl, rfl⟩
  unfold step at hs
  cases a with
  | test w =>
    simp only [workerStep] at hs
    split at hs <;> cases hs
    unfold testWorker
    rw [hq, hst]
    exact ⟨rfl, hq⟩
  | announce w =>
    simp only [workerStep] at hs
    split at hs <;> cases hs <;> exact ⟨rfl, hq⟩
  | complete w outcome =>
    simp only [workerStep] at hs
    split at hs <;> cases hs
    exact hsat _ _
  | finish w =>
    simp only [workerStep] at hs
    split at hs <;> cases hs
    exact ⟨rfl, hq⟩
  | demand c page target =>
    simp only [callerStep] at hs
    split at hs <;> cases hs
    exact ⟨rfl, hq⟩
  | push c =>
    simp only [callerStep] at hs
    split at hs <;> cases hs
    unfold testDemand
    rw [hst]
    exact ⟨rfl, hq⟩
  | notifyOne c x =>
    simp only [callerStep] at hs
    split at hs
    · obtain ⟨hp, hq'⟩ := hwake hs
      exact ⟨congrArg List.length hp, hq'.trans hq⟩
    · obtain ⟨hp, hq'⟩ := hwake hs
      exact ⟨congrArg List.length hp, hq'.trans hq⟩
    · cases hs
  | getFuture c =>
    simp only [callerStep] at hs
    split at hs
    · split at hs <;> cases hs
      exact ⟨rfl, hq⟩
    · cases hs
  | prefetch c page target =>
    simp only [callerStep] at hs
    split at hs <;> cases hs
    unfold pushPrefetch
    rw [hst]
    exact ⟨rfl, hq⟩
  | remove c page =>
    simp only [callerStep] at hs
    split at hs <;> cases hs
    unfold removeQueuedPrefetch
    rw [hq]
    exact ⟨rfl, hq⟩
  | notifyAll c =>
    simp only [callerStep] at hs
    split at hs <;> cases hs
    exact ⟨rfl, hq⟩
  | spurious x =>
    simp only at hs
    split at hs <;> cases hs
    cases x <;> exact ⟨rfl, hq⟩
  | cancel =>
    simp only [controlStep] at hs
    split at hs <;> cases hs
    · exact hsat _ _
    · exact ⟨rfl, hq⟩
  | announceStop =>
    simp only [controlStep] at hs
    split at hs <;> cases hs
    exact ⟨rfl, hq⟩
  | start | go | startFails | shutdown | lock | join =>
    simp only [controlStep] at hs
    split at hs <;> cases hs
    exact ⟨rfl, by first | exact hq | rfl⟩

/-- The removal of a queued prefetch leaves the demands. -/
theorem remove_demands {c : Nat} {page : PageId} (hs : step cfg s (.remove c page) = some s') :
    s'.queue.filter (fun r => r.kind = .demand) = s.queue.filter fun r => r.kind = .demand := by
  simp only [step, callerStep] at hs
  split at hs <;> cases hs
  unfold removeQueuedPrefetch
  split
  · show (s.queue.filter fun r => !isPrefetch page r).filter _ = _
    rw [List.filter_filter]
    refine List.filter_congr fun r _ => ?_
    cases hk : r.kind <;> simp [isPrefetch, hk]
  · rfl

/-- After the join nothing is owed. -/
theorem join_settled (h : Owing cfg s) (hs : step cfg s .join = some s') (k : Nat) : s'.promises[k]? ≠ some [] := by
  have h' := owing_step h hs
  simp only [step, controlStep] at hs
  split at hs <;> cases hs
  rename_i hc
  have hstop : s.stopping = true := by
    apply h.control <;> simp [hc.1]
  have hnone : owed { s with workers := [], control := .free } = 0 := by
    show owesAll s.queue + 0 + 0 = 0
    rw [h.stopped hstop]
    rfl
  rw [Ne, ← h'.owed_iff, hnone]
  exact Multiset.notMem_zero k

/-- In every run of callers, workers, `start` and `shutdown`: no promise is satisfied twice, the queue keeps
within its bound, a stopping runtime accepts no request, `remove_queued_prefetch` drops no demand, and when
`shutdown` returns every promise has been satisfied. -/
theorem demands_complete_once {n : Nat} (h : Steps (step cfg) (fun _ _ => True) (initial n) s) :
    (∀ l ∈ s.promises, l.length ≤ 1) ∧ s.queue.length ≤ cfg.queueDepth + cfg.prefetchDepth ∧
    ∀ a s', step cfg s a = some s' →
      (s.stopping = true → s'.promises.length = s.promises.length ∧ s'.queue = []) ∧
      (∀ c page, a = .remove c page → s'.queue.filter (fun r => r.kind = .demand) = s.queue.filter fun r => r.kind = .demand) ∧
      (a = .join → ∀ k, k < s'.promises.length → ∃ x, s'.promises[k]? = some [x]) := by
  have ho : Owing cfg s := h.invariant (fun _ _ _ _ hs ho => owing_step ho hs) (owing_initial n)
  refine ⟨ho.once, ho.room, fun a s' hs => ⟨fun hst => step_stopping (ho.stopped hst) hst hs, ?_, ?_⟩⟩
  · rintro c page rfl
    exact remove_demands hs
  · rintro rfl k hk
    have hsettled := join_settled ho hs k
    have honce := (owing_step ho hs).once _ (List.getElem_mem hk)
    rw [List.getElem?_eq_getElem hk] at hsettled ⊢
    rcases hl : s'.promises[k] with _ | ⟨x, _ | ⟨y, rest⟩⟩
    · rw [hl] at hsettled
      exact absurd rfl hsettled
    · exact ⟨x, rfl⟩
    · rw [hl] at honce
      exact absurd honce (by simp)

/-- A demand is left in the queue at shutdown: the join finds its promise satisfied. -/
theorem demands_complete_once_cancelled : ∃ s, Steps (step oneByOne) (fun _ _ => True) (initial 1) s ∧
    ∃ s', step oneByOne s .join = some s' ∧ ∀ k, k < s'.promises.length → ∃ x, s'.promises[k]? = some [x] := by
  obtain ⟨s, hs, hjoin⟩ := Steps.of_test (step oneByOne) (fun _ _ => True) (initial 1)
    [.start, .go, .test 0, .demand 0 1 .vram, .push 0, .shutdown, .cancel, .cancel, .announceStop, .lock, .cancel, .announceStop, .test 0]
    (fun s => (step oneByOne s .join).isSome = true) (by decide)
  obtain ⟨s', hs'⟩ := Option.isSome_iff_exists.mp hjoin
  exact ⟨s, hs, s', hs', ((demands_complete_once hs).2.2 .join s' hs').2.2 rfl⟩

end RequestQueue

end FlashTier
