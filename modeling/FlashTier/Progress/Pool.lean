/-
The threads of the runtime asleep. A thread that waits on `queue_cv_` or `state_cv_` sleeps until it is woken and then
tests its predicate again, and so do the workers between their turns. A section that changes what sleepers test is
followed by its notification, a step of its own. While `notify_one` wakes no demand submitter when every worker
sleeps, a sleeper whose predicate has become true has a notification to come, and a queue that is not empty a worker.
-/
import FlashTier.Progress.Programs
import FlashTier.Guarantees.Residency
import FlashTier.Guarantees.Prefetch
import FlashTier.Queue.System

namespace FlashTier

open Conc

variable {cfg : RuntimeConfig} {disk : Bytes} {c c' : Runtime} {σ σ' : Shared} {t : Nat} {id : PageId} {l : Op} {ω : Env}

/-! ## Sleepers -/

inductive CondVar where
  | queue | state
  deriving DecidableEq

/-- The condition variable of a wait; the others are for a mutex or a future. -/
def Wait.cv : Wait → Option CondVar
  | .room => some .queue
  | .settled _ | .releasable _ => some .state
  | _ => none

theorem Wait.eq_room {w : Wait} (h : w.cv = some .queue) : w = .room := by
  cases w with
  | room => rfl
  | _ => cases h

/-- The part of the predicate that the mutex of the condition variable protects. A thread that waits on `state_cv_`
has tested the stop under `queue_mu_`, and the stop may come between that test and the wait. -/
def Wait.locked (cfg : RuntimeConfig) : Wait → Shared → Bool
  | .settled id => (·.settled id)
  | .releasable id => fun σ => { σ with stopping := false }.releasable id
  | w => w.guard cfg

/-- Where a worker is: between two turns, awake or asleep on `queue_cv_`; in the turn of a thread; or gone. -/
inductive Station where
  | awake
  | asleep
  | serving (t : Nat)
  | exited
  deriving DecidableEq

def Station.woken : Station → Station
  | .asleep => .awake
  | x => x

/-- A notification to issue: `notify_one` after a push, `notify_all` on the queue after a pop or a removal, and on both
condition variables after the stop of admission. -/
inductive Notice where
  | one | all | stop
  deriving DecidableEq

/-- What follows a section. The other notifications on `queue_cv_`, of a prefetch that was not queued and at the end of
one, come with no change that a sleeper tests: they wake threads as a spurious wakeup does. -/
def notice (σ σ' : Shared) : Option Notice :=
  if σ'.running ≠ σ.running ∨ σ'.stopping ≠ σ.stopping then some .stop
  else if σ'.queue.length < σ.queue.length then some .all
  else if σ.queue.length < σ'.queue.length then some .one
  else none

def Event.notifies : Event → Bool
  | .notified _ => true
  | _ => false

/-- The section has issued `state_cv_.notify_all`. -/
def roused (σ σ' : Shared) : Bool := (σ'.history.take (σ'.history.length - σ.history.length)).any Event.notifies

/-- The runtime with its sleepers, the notifications that threads have to issue before they go on, and the workers. -/
structure Pool where
  conf : Runtime
  asleep : List (Nat × Wait) := []
  owed : List (Nat × Notice) := []
  workers : List Station

def Pool.initial (cfg : RuntimeConfig) (disk : Bytes) (n : Nat) : Pool := { conf := ⟨cfg.initial disk, []⟩, workers := List.replicate n .awake }

namespace Pool

variable (p : Pool)

/-- `queue_cv_.notify_all`. -/
def wakeQueue : Pool := { p with asleep := p.asleep.filter (·.2.cv ≠ some .queue), workers := p.workers.map Station.woken }

/-- `state_cv_.notify_all`. -/
def wakeState : Pool := { p with asleep := p.asleep.filter (·.2.cv ≠ some .state) }

/-- The thread is asleep on `queue_cv_`. -/
def isAsleep : Waiter → Bool
  | .worker i => p.workers[i]? == some .asleep
  | .caller t => p.asleep.any fun x => x.1 == t && x.2.cv == some .queue

def anyAsleep : Bool := p.workers.any (· == .asleep) || p.asleep.any (·.2.cv == some .queue)

/-- Wake one thread. -/
def wake : Waiter → Pool
  | .worker i => { p with workers := p.workers.modify i Station.woken }
  | .caller t => { p with asleep := p.asleep.filter (·.1 ≠ t) }

/-- `queue_cv_.notify_one`: it wakes any of the threads that are asleep, if there is one. -/
def wakeOne : Option Waiter → Option Pool
  | none => if p.anyAsleep then none else some p
  | some x => if p.isAsleep x then some (p.wake x) else none

/-- Thread `t` has run a section. The worker of a turn that has ended is awake. -/
def ran (t : Nat) (c' : Runtime) : Pool where
  conf := c'
  asleep := if roused p.conf.shared c'.shared then p.wakeState.asleep else p.asleep
  owed := (notice p.conf.shared c'.shared).toList.map (t, ·) ++ p.owed
  workers := p.workers.map fun x => if x = .serving t ∧ (c'.result t).isSome then .awake else x

/-- Worker `i` has looked at the queue: it has a request, or it exits. -/
def served (i : Nat) (c' : Runtime) : Pool :=
  { p.ran p.conf.threads.length c' with
    workers := p.workers.set i (if p.conf.shared.queue.isEmpty then .exited else .serving p.conf.threads.length) }

/-! ## Steps -/

inductive Act where
  | spawn (l : Op)
  | exec (t : Nat) (ω : Env)
  | serve (i : Nat) (ω : Env)
  | notifyOne (k : Nat) (x : Option Waiter)
  | notifyAll (k : Nat)
  | look (i : Nat)
  | sleep (t : Nat) (w : Wait)
  | spurious (x : Waiter)

/-- One step, but for a thread that falls asleep. -/
def step (cfg : RuntimeConfig) : Act → Option Pool
  | .spawn l => if l.isWorker then none else (p.conf.move (code cfg) (.spawn l)).map fun c' => { p with conf := c' }
  | .exec t ω =>
    if p.asleep.any (·.1 == t) || p.owed.any (·.1 == t) then none else (p.conf.move (code cfg) (.exec t ω)).map (p.ran t)
  | .serve i ω =>
    if p.workers[i]? = some .awake then
      (p.conf.run (code cfg) [.spawn .worker, .exec p.conf.threads.length ω]).map (p.served i)
    else none
  | .notifyOne k x =>
    match p.owed[k]? with
    | some (_, .one) => { p with owed := p.owed.eraseIdx k }.wakeOne x
    | _ => none
  | .notifyAll k =>
    match p.owed[k]? with
    | some (_, .all) => some { p with owed := p.owed.eraseIdx k }.wakeQueue
    | some (_, .stop) => some { p with owed := p.owed.eraseIdx k }.wakeQueue.wakeState
    | _ => none
  | .look i =>
    if p.workers[i]? = some .awake ∧ p.conf.shared.stopping = false ∧ p.conf.shared.queue = [] then
      some { p with workers := p.workers.set i .asleep }
    else none
  | .sleep .. => none
  | .spurious x => some (p.wake x)

end Pool

/-- The thread is at the guard of a wait. -/
def At (cfg : RuntimeConfig) (c : Runtime) (t : Nat) (w : Wait) : Prop :=
  ∃ l β, ∃ (a : Sec β) (k : Except Error β → Code Reply), c.threads[t]? = some ⟨l, .step (w.guard cfg) a k⟩

namespace Pool

variable {p p' : Pool}

/-- The thread may fall asleep: it is awake, has nothing to issue, and has found its predicate false. -/
structure Tires (cfg : RuntimeConfig) (p : Pool) (t : Nat) (w : Wait) : Prop where
  wait : At cfg p.conf t w
  cv : w.cv.isSome
  locked : w.locked cfg p.conf.shared = false
  awake : ∀ x ∈ p.asleep, x.1 ≠ t
  owed : ∀ x ∈ p.owed, x.1 ≠ t

/-- One step. -/
inductive Step (cfg : RuntimeConfig) : Pool → Act → Pool → Prop
  | act {p p' : Pool} {a : Act} (h : p.step cfg a = some p') : Step cfg p a p'
  | sleep {p : Pool} {t : Nat} {w : Wait} (h : Tires cfg p t w) : Step cfg p (.sleep t w) { p with asleep := (t, w) :: p.asleep }

/-- No emission throws, and `notify_one` does not wake a demand submitter while every worker is asleep. -/
def InTime (p : Pool) : Act → Prop
  | .exec _ ω | .serve _ ω => ω.emit = none
  | .notifyOne _ (some (.caller _)) => ¬∀ x ∈ p.workers, x = .asleep
  | _ => True

instance (p : Pool) (a : Act) : Decidable (p.InTime a) := by
  unfold InTime
  split <;> infer_instance

/-- Some run all of whose steps are in time. -/
def Run (cfg : RuntimeConfig) : Pool → Pool → Prop := Relation.ReflTransGen fun p p' => ∃ a, p.InTime a ∧ Step cfg p a p'

/-! ## What each step does -/

theorem step_spawn (h : p.step cfg (.spawn l) = some p') :
    l.isWorker = false ∧ ∃ c', p.conf.move (code cfg) (.spawn l) = some c' ∧ p' = { p with conf := c' } := by
  simp only [Pool.step] at h
  split at h
  · cases h
  · rename_i hl
    obtain ⟨c', hm, rfl⟩ := Option.map_eq_some_iff.1 h
    exact ⟨Bool.eq_false_of_not_eq_true hl, c', hm, rfl⟩

theorem step_exec (h : p.step cfg (.exec t ω) = some p') :
    (∀ x ∈ p.asleep, x.1 ≠ t) ∧ ∃ c', p.conf.move (code cfg) (.exec t ω) = some c' ∧ p' = p.ran t c' := by
  simp only [Pool.step] at h
  split at h
  · cases h
  · rename_i hbusy
    obtain ⟨c', hm, rfl⟩ := Option.map_eq_some_iff.1 h
    refine ⟨fun x hx hxt => hbusy ?_, c', hm, rfl⟩
    exact Bool.or_eq_true_iff.2 (.inl (List.any_eq_true.2 ⟨x, hx, beq_iff_eq.2 hxt⟩))

theorem step_serve {i : Nat} (h : p.step cfg (.serve i ω) = some p') : p.workers[i]? = some .awake ∧
    ∃ c', p.conf.run (code cfg) [.spawn .worker, .exec p.conf.threads.length ω] = some c' ∧ p' = p.served i c' := by
  simp only [Pool.step] at h
  split at h
  · rename_i hi
    obtain ⟨c', hm, rfl⟩ := Option.map_eq_some_iff.1 h
    exact ⟨hi, c', hm, rfl⟩
  · cases h

theorem wakeOne_cases {x : Option Waiter} (h : p.wakeOne x = some p') :
    (x = none ∧ p.anyAsleep = false ∧ p' = p) ∨ ∃ y, x = some y ∧ p.isAsleep y = true ∧ p' = p.wake y := by
  cases x with
  | none =>
    simp only [wakeOne] at h
    split at h
    · cases h
    · rename_i hany
      cases h
      exact .inl ⟨rfl, Bool.eq_false_of_not_eq_true hany, rfl⟩
  | some y =>
    simp only [wakeOne] at h
    split at h
    · rename_i hasleep
      cases h
      exact .inr ⟨y, rfl, hasleep, rfl⟩
    · cases h

theorem step_notifyOne {k : Nat} {x : Option Waiter} (h : p.step cfg (.notifyOne k x) = some p') :
    ∃ u, p.owed[k]? = some (u, .one) ∧ { p with owed := p.owed.eraseIdx k }.wakeOne x = some p' := by
  simp only [Pool.step] at h
  split at h
  · rename_i u hk
    exact ⟨u, hk, h⟩
  · cases h

/-- Whichever notification it is, nobody sleeps on `queue_cv_` after it. -/
theorem step_notifyAll {k : Nat} (h : p.step cfg (.notifyAll k) = some p') : ∃ y asleep, p.owed[k]? = some y ∧
    (∀ x ∈ asleep, x ∈ p.asleep ∧ x.2.cv ≠ some .queue) ∧ p' = ⟨p.conf, asleep, p.owed.eraseIdx k, p.workers.map Station.woken⟩ := by
  have hqueue : ∀ x ∈ p.asleep.filter (·.2.cv ≠ some .queue), x ∈ p.asleep ∧ x.2.cv ≠ some .queue :=
    fun x hx => ⟨List.mem_of_mem_filter hx, of_decide_eq_true (List.mem_filter.1 hx).2⟩
  simp only [Pool.step] at h
  split at h
  · rename_i u hk
    cases h
    exact ⟨_, _, hk, hqueue, rfl⟩
  · rename_i u hk
    cases h
    exact ⟨_, _, hk, fun x hx => hqueue x (List.mem_of_mem_filter hx), rfl⟩
  · cases h

theorem step_look {i : Nat} (h : p.step cfg (.look i) = some p') : p.workers[i]? = some .awake ∧ p.conf.shared.stopping = false ∧
    p.conf.shared.queue = [] ∧ p' = { p with workers := p.workers.set i .asleep } := by
  simp only [Pool.step] at h
  split at h
  · rename_i hlook
    cases h
    exact ⟨hlook.1, hlook.2.1, hlook.2.2, rfl⟩
  · cases h

theorem mem_ran_asleep {x : Nat × Wait} (hx : x ∈ (p.ran t c').asleep) : x ∈ p.asleep ∧ (x.2.cv = some .state → roused p.conf.shared c'.shared = false) := by
  unfold ran at hx
  split at hx
  · obtain ⟨hx, hcv⟩ := List.mem_filter.1 hx
    exact ⟨hx, fun h => absurd h (of_decide_eq_true hcv)⟩
  · rename_i hr
    exact ⟨hx, fun _ => Bool.eq_false_of_not_eq_true hr⟩

theorem mem_ran_owed {n : Notice} (hn : notice p.conf.shared c'.shared = some n) : (t, n) ∈ (p.ran t c').owed := by
  refine List.mem_append_left _ ?_
  rw [hn]
  exact List.mem_singleton_self _

/-- A worker that is not awake after a section was where it is before it, and its turn goes on. -/
theorem mem_ran_workers {x : Station} (hx : x ∈ (p.ran t c').workers) (hne : x ≠ .awake) :
    x ∈ p.workers ∧ ¬(x = .serving t ∧ (c'.result t).isSome) := by
  obtain ⟨y, hy, hyx⟩ := List.mem_map.1 hx
  split at hyx
  · exact absurd hyx.symm hne
  · rename_i hgoes
    subst hyx
    exact ⟨hy, hgoes⟩

end Pool

/-! ## Sections and the queue -/

/-- The stop is not taken back, and after it there are no requests. -/
def Orderly (β : Type) (a : Sec β) : Prop := ∀ t ω σ,
  (σ.stopping = true → (a t ω σ).2.stopping = true) ∧
    ((σ.stopping = true → σ.queue = []) → (a t ω σ).2.stopping = true → (a t ω σ).2.queue = [])

theorem orderly_of_same {β : Type} {a : Sec β} (hq : ∀ t ω σ, (a t ω σ).2.queue = σ.queue)
    (hs : ∀ t ω σ, (a t ω σ).2.stopping = σ.stopping) : Orderly β a := by
  intro t ω σ
  rw [hq, hs]
  exact ⟨fun h => h, fun h => h⟩

theorem FrontPath.stopping (h : FrontPath l t σ σ') : σ'.stopping = σ.stopping :=
  h.invariant (J := fun s => s.stopping = σ.stopping) (fun _ _ hstep hs => hstep.noted.2.2.trans hs) rfl

theorem orderly_pushDemand {target : Tier} : Orderly _ (pushDemand id target) := by
  intro t ω σ
  unfold pushDemand
  split
  · exact ⟨fun h => h, fun h => h⟩
  · rename_i hrun
    have hs : σ.stopping = false := (Bool.or_eq_false_iff.1 (Bool.eq_false_of_not_eq_true hrun)).1
    exact ⟨fun h => h, fun _ h => absurd (hs.symm.trans h) Bool.false_ne_true⟩

theorem orderly_pushPrefetch {target : Tier} : Orderly _ (pushPrefetch cfg id target) := by
  intro t ω σ
  unfold pushPrefetch
  split
  · exact ⟨fun h => h, fun h => h⟩
  · rename_i hrun
    have hs : σ.stopping = false := (Bool.or_eq_false_iff.1 (Bool.eq_false_of_not_eq_true hrun)).1
    split
    · exact ⟨fun h => h, fun h => h⟩
    split
    · exact ⟨fun h => h, fun _ h => absurd (hs.symm.trans h) Bool.false_ne_true⟩
    · exact ⟨fun h => h, fun h => h⟩

theorem orderly_popRequest : Orderly _ popRequest := by
  intro t ω σ
  unfold popRequest
  split
  · exact ⟨fun h => h, fun h => h⟩
  · rename_i r rest hq
    refine ⟨fun h => h, fun h hs => ?_⟩
    rw [h hs] at hq
    cases hq

theorem queue_markPrefetched : (markPrefetched id t ω σ).2.queue = σ.queue := by
  show (if (σ.table.lookup id).isSome then _ else σ : Shared).queue = σ.queue
  split <;> rfl

theorem stopping_markPrefetched : (markPrefetched id t ω σ).2.stopping = σ.stopping := by
  show (if (σ.table.lookup id).isSome then _ else σ : Shared).stopping = σ.stopping
  split <;> rfl

theorem orderly_removeQueuedPrefetch : Orderly _ (removeQueuedPrefetch id) := by
  refine fun t ω σ => ⟨fun h => h, fun h hs => ?_⟩
  show σ.queue.filter _ = []
  rw [h hs]
  rfl

theorem orderly_admits (cfg : RuntimeConfig) (l : Op) : Admits cfg l Orderly where
  effect h := orderly_of_same (fun t ω σ => (h t ω σ).tame.queue) fun t ω σ => (h t ω σ).stopping
  demand _ _ := orderly_pushDemand
  prefetch _ _ := orderly_pushPrefetch
  insert hl hins := by
    subst hl
    exact orderly_of_same (fun t ω σ => (hins t ω σ).tame.queue) fun t ω σ => ((tidy_insertion hins t ω σ).2 rfl).2
  pop _ := orderly_popRequest
  mark _ _ := orderly_of_same (fun _ _ _ => queue_markPrefetched) fun _ _ _ => stopping_markPrefetched
  settle _ k _ := orderly_of_same (fun _ _ _ => by cases k <;> rfl) fun _ _ _ => by cases k <;> rfl
  served _ _ := orderly_of_same (fun _ _ _ => rfl) fun _ _ _ => rfl
  claim id hl := orderly_of_same (fun _ _ _ => tame_claimFree.queue) fun t ω σ => ((tidy_claimFree t ω σ).2 rfl).2
  dequeue _ _ := orderly_removeQueuedPrefetch
  finish id failed hl := orderly_of_same (fun _ _ _ => rouses_finishFree.queue) fun t ω σ => ((tidy_finishFree t ω σ).2 rfl).2
  stop _ _ _ _ := ⟨fun _ => rfl, fun _ _ => rfl⟩

/-- After the stop the queue is empty. -/
theorem queue_of_stopping {allowed : Move Env Op → Prop} (hr : Reachable allowed (code cfg) (cfg.initial disk) c) (hs : c.shared.stopping = true) :
    c.shared.queue = [] := by
  refine hr.keeps (P := fun _ => Orderly) (fun l _ => code_all (orderly_admits cfg l)) (fun _ σ => σ.stopping = true → σ.queue = [])
    (fun h => by cases h) (fun _ _ _ h => h) (fun ls t l β a ω σ _ ha h => (ha t ω σ).2 h) hs

theorem stopping_move {allowed : Move Env Op → Prop} (hr : Reachable allowed (code cfg) (cfg.initial disk) c)
    (hm : c.move (code cfg) (.exec t ω) = some c') (hs : c.shared.stopping = true) : c'.shared.stopping = true := by
  obtain ⟨l, β, g, a, k, ht, -, rfl⟩ := move_exec hm
  exact ((hr.all (P := fun _ => Orderly) (fun l _ => code_all (orderly_admits cfg l)) _ (List.mem_of_getElem? ht)).1 t ω c.shared).1 hs

/-! ## What sleepers test -/

theorem notice_of_room (h : Wait.guard cfg .room σ = false) (h' : Wait.guard cfg .room σ' = true) : ∃ n, notice σ σ' = some n ∧ n ≠ .one := by
  unfold notice
  split
  · exact ⟨.stop, rfl, by decide⟩
  rename_i hflags
  obtain ⟨hrun, hstop⟩ := not_or.1 hflags
  have hlen : σ'.queue.length < σ.queue.length := by
    simp only [Wait.guard, Bool.or_eq_false_iff, decide_eq_false_iff_not] at h
    simp only [Wait.guard, not_not.1 hrun, not_not.1 hstop, h.1.1, h.1.2, Bool.false_or, decide_eq_true_eq] at h'
    omega
  rw [if_pos hlen]
  exact ⟨.all, rfl, by decide⟩

theorem notice_of_stop (h : σ.stopping = false) (h' : σ'.stopping = true) : notice σ σ' = some .stop :=
  if_pos (.inr (by rw [h, h']; decide))

theorem notice_of_queue (h : σ.queue = []) (h' : σ'.queue ≠ []) : notice σ σ' ≠ none := by
  unfold notice
  split
  · exact Option.some_ne_none _
  rw [h, List.length_nil, if_neg (Nat.not_lt_zero _), if_pos (List.length_pos_iff.2 h')]
  exact Option.some_ne_none _

/-- Unless a page is given back or erased, it is not absent and has its owners and its phase, or more owners. -/
theorem owners_kept {h : List Event} (ha : id ∈ allocIds h) (hp : phaseIn h id ≠ .absent) : ∀ {evs : List Event}, Each EventOk (evs ++ h) →
    (∀ e ∈ evs, e.settles = false) → phaseIn (evs ++ h) id ≠ .absent ∧
      ((ownersIn (evs ++ h) id = ownersIn h id ∧ phaseIn (evs ++ h) id = phaseIn h id) ∨ (ownersIn h id).length < (ownersIn (evs ++ h) id).length)
  | [], _, _ => ⟨hp, .inl ⟨rfl, rfl⟩⟩
  | e :: evs, hev, hset => by
    have ih := owners_kept ha hp hev.2 fun e' he' => hset e' (List.mem_cons_of_mem _ he')
    have hself := hset e (List.mem_cons_self ..)
    by_cases hpage : e.page = some id
    · have hok : EventOk e (evs ++ h) := hev.1
      have hle : (ownersIn h id).length ≤ (ownersIn (evs ++ h) id).length := ih.2.elim (fun h => h.1 ▸ le_rfl) Nat.le_of_lt
      cases e with
      | alloc t i n b x =>
        cases hpage
        exact absurd (mem_allocIds_append ha evs) hok
      | claim t i =>
        cases hpage
        refine ⟨ih.1, .inr ?_⟩
        simp only [List.cons_append, ownersIn, if_true, List.length_cons]
        omega
      | release t i o =>
        cases hpage
        refine ⟨by simp [phaseIn], .inr ?_⟩
        simp only [List.cons_append, ownersIn, if_true, List.length_cons]
        omega
      | settle | erase => cases hself
      | _ => exact ih
    · have hsame := sameReplay_cons hpage (evs ++ h)
      rw [List.cons_append, hsame.owners, hsame.phase]
      exact ih

section Pages

variable {T T' : Multiset (Nat × Hold)} {q : PageMetadata} (hi : Inv cfg σ T)

include hi

theorem Inv.busy_of_transfer (hq : q ∈ σ.table.bag) (ht : q.state.transfer = true) : q.inFlight = true := by
  by_contra hfl
  have hrest := ((hi.pages q hq).ok (Bool.eq_false_of_not_eq_true hfl)).rest
  rw [ht] at hrest
  cases hrest

theorem Inv.one_owner (hq : q ∈ σ.table.bag) (hfl : q.inFlight = true) : ∃ u, ownersIn σ.history q.id = [u] := by
  obtain ⟨x, hx, hm⟩ := hi.owner hq hfl
  exact ⟨x.1, (hi.taken hx hm).1.owners⟩

/-- A page in flight stays so, in its phase, until it is given back or erased. -/
theorem Inv.busy_kept (hi' : Inv cfg σ' T') {evs : List Event} (hh : σ'.history = evs ++ σ.history) (hset : ∀ e ∈ evs, e.settles = false)
    (hq : σ.table.lookup id = some q) (hfl : q.inFlight = true) :
    ∃ q', σ'.table.lookup id = some q' ∧ q'.inFlight = true ∧ q'.state.phase = q.state.phase := by
  obtain ⟨hbag, rfl⟩ := Keyed.lookup_some.1 hq
  obtain ⟨u, hu⟩ := hi.one_owner hbag hfl
  have hrec := hi.record hbag
  have hpresent : phaseIn σ.history q.id ≠ .absent := by
    rw [hrec.phase]
    cases q.state <;> decide
  have hkept := owners_kept (mem_allocIds_of_sizeIn hrec.size) hpresent (hh ▸ hi'.wf.events) hset
  rw [← hh, hu] at hkept
  obtain ⟨q', hq'⟩ := Option.isSome_iff_exists.1 (hi'.wf.present q.id hkept.1)
  obtain ⟨hbag', hid⟩ := Keyed.lookup_some.1 hq'
  have hid : q'.id = q.id := hid
  have hfl' : q'.inFlight = true := by
    by_contra hno
    have hnone := ((hi'.pages q' hbag').ok (Bool.eq_false_of_not_eq_true hno)).owners
    rw [hid] at hnone
    rcases hkept.2 with ⟨ho, -⟩ | ho
    · rw [hnone] at ho
      cases ho
    · rw [hnone] at ho
      cases ho
  refine ⟨q', hq', hfl', ?_⟩
  rcases hkept.2 with ⟨-, hphase⟩ | ho
  · rw [← (hi'.record hbag').phase, hid, hphase, hrec.phase]
  · -- a page in flight has one owner
    obtain ⟨u', hu'⟩ := hi'.one_owner hbag' hfl'
    rw [hid] at hu'
    rw [hu'] at ho
    exact absurd ho (lt_irrefl _)

/-- A page in flight is in transfer or being released. -/
theorem Inv.state_of_busy (hq : q ∈ σ.table.bag) (hfl : q.inFlight = true) : q.state.transfer = true ∨ q.state = .released := by
  obtain ⟨x, hx, hm⟩ := hi.owner hq hfl
  exact (hi.taken hx hm).2

theorem Inv.locked_settled : Wait.locked cfg (.settled id) σ = false ↔
    ∃ q, σ.table.lookup id = some q ∧ q.inFlight = true ∧ q.state.phase = .live := by
  show σ.settled id = false ↔ _
  rw [Shared.settled]
  constructor
  · intro h
    split at h
    · rename_i q hq
      have ht : q.state.transfer = true := (Bool.not_eq_false' _).mp h
      exact ⟨q, hq, hi.busy_of_transfer (Keyed.lookup_some.1 hq).1 ht, PageState.phase_of_transfer ht⟩
    · cases h
  · rintro ⟨q, hq, hfl, hlive⟩
    rw [hq]
    refine (Bool.not_eq_false' _).mpr ((hi.state_of_busy (Keyed.lookup_some.1 hq).1 hfl).resolve_right fun hrel => ?_)
    rw [hrel] at hlive
    cases hlive

theorem Inv.locked_releasable : Wait.locked cfg (.releasable id) σ = false ↔ ∃ q, σ.table.lookup id = some q ∧ q.inFlight = true := by
  show Shared.releasable { σ with stopping := false } id = false ↔ _
  rw [Shared.releasable]
  constructor
  · intro h
    split at h
    · cases h
    · rename_i q hq
      split at h
      · rename_i ht
        exact ⟨q, hq, hi.busy_of_transfer (Keyed.lookup_some.1 hq).1 ht⟩
      · exact ⟨q, hq, (Bool.and_eq_true_iff.1 ((Bool.not_eq_false' _).mp h)).2⟩
  · rintro ⟨q, hq, hfl⟩
    have hq' : ({ σ with stopping := false } : Shared).table.lookup id = some q := hq
    simp only [hq']
    rcases hi.state_of_busy (Keyed.lookup_some.1 hq).1 hfl with ht | hrel
    · rw [if_pos ht]
    · rw [hrel, if_neg (by decide), hfl]
      rfl

/-- A thread that waits on `state_cv_` waits for a page in flight. -/
theorem Inv.busy_of_locked {w : Wait} (hcv : w.cv = some .state) (h : w.locked cfg σ = false) :
    ∃ id q, σ.table.lookup id = some q ∧ q.inFlight = true := by
  cases w with
  | settled id =>
    obtain ⟨q, hq, hfl, -⟩ := hi.locked_settled.1 h
    exact ⟨id, q, hq, hfl⟩
  | releasable id =>
    obtain ⟨q, hq, hfl⟩ := hi.locked_releasable.1 h
    exact ⟨id, q, hq, hfl⟩
  | _ => cases hcv

/-- What a thread waits for on `state_cv_` does not come without a page being given back or erased. -/
theorem Inv.locked_kept (hi' : Inv cfg σ' T') {evs : List Event} (hh : σ'.history = evs ++ σ.history) (hset : ∀ e ∈ evs, e.settles = false)
    {w : Wait} (hcv : w.cv = some .state) (h : w.locked cfg σ = false) : w.locked cfg σ' = false := by
  cases w with
  | settled id =>
    obtain ⟨q, hq, hfl, hlive⟩ := hi.locked_settled.1 h
    obtain ⟨q', hq', hfl', hphase⟩ := hi.busy_kept hi' hh hset hq hfl
    exact hi'.locked_settled.2 ⟨q', hq', hfl', hphase.trans hlive⟩
  | releasable id =>
    obtain ⟨q, hq, hfl⟩ := hi.locked_releasable.1 h
    obtain ⟨q', hq', hfl', -⟩ := hi.busy_kept hi' hh hset hq hfl
    exact hi'.locked_releasable.2 ⟨q', hq', hfl'⟩
  | _ => cases hcv

end Pages

/-! ## Who is to wake whom -/

theorem unnotified_append {u : Nat} : ∀ {evs : List Event} {h : List Event}, (∀ e ∈ evs, e.notifies = false) → unnotified u h = true →
    unnotified u (evs ++ h) = true
  | [], _, _, hu => hu
  | e :: evs, h, hn, hu => by
    have ih := unnotified_append (u := u) (fun e' he' => hn e' (List.mem_cons_of_mem _ he')) hu
    cases e with
    | notified => cases hn _ (List.mem_cons_self ..)
    | settle | erase =>
      rw [List.cons_append, unnotified, ih]
      exact Bool.or_true _
    | _ => exact ih

theorem unnotified_of_settles {u : Nat} : ∀ {evs : List Event} {h : List Event}, (∀ e ∈ evs, e.thread = u ∧ e.notifies = false) →
    (∃ e ∈ evs, e.settles = true) → unnotified u (evs ++ h) = true
  | [], _, _, he => by
    obtain ⟨e, he, -⟩ := he
    cases he
  | e :: evs, h, hn, hs => by
    have hself := hn e (List.mem_cons_self ..)
    by_cases he : e.settles = true
    · cases e with
      | settle t' | erase t' =>
        have ht : t' = u := hself.1
        rw [List.cons_append, unnotified, decide_eq_true ht]
        exact Bool.true_or _
      | _ => cases he
    · obtain ⟨e', he', hs'⟩ := hs
      have htail : e' ∈ evs := (List.mem_cons.1 he').resolve_left fun h => he (h ▸ hs')
      have ih := unnotified_of_settles (h := h) (fun e' he' => hn e' (List.mem_cons_of_mem _ he')) ⟨e', htail, hs'⟩
      have hquiet : ∀ e' ∈ [e], e'.notifies = false := fun e' he' => List.mem_singleton.1 he' ▸ hself.2
      show unnotified u ([e] ++ (evs ++ h)) = true
      exact unnotified_append hquiet ih

/-- When what a thread waits for on `state_cv_` has come and nobody has been notified, a thread has given a page back, in this
section or before. -/
theorem Inv.unnotified_of_locked {T T' : Multiset (Nat × Hold)} {u : Nat} {evs : List Event} {w : Wait} (hi : Inv cfg σ T) (hi' : Inv cfg σ' T')
    (hh : σ'.history = evs ++ σ.history) (hevs : ∀ e ∈ evs, e.thread = u ∧ e.notifies = false) (hcv : w.cv = some .state)
    (hl : w.locked cfg σ' = true) (hbefore : w.locked cfg σ = true → ∃ u, unnotified u σ.history = true) : ∃ u, unnotified u σ'.history = true := by
  rw [hh]
  by_cases hset : ∃ e ∈ evs, e.settles = true
  · exact ⟨u, unnotified_of_settles hevs hset⟩
  · have hset : ∀ e ∈ evs, e.settles = false := fun e he => Bool.eq_false_of_not_eq_true fun ht => hset ⟨e, he, ht⟩
    have hold : w.locked cfg σ = true := by
      by_contra hno
      have hl' := hi.locked_kept hi' hh hset hcv (Bool.eq_false_of_not_eq_true hno)
      exact absurd (hl'.symm.trans hl) Bool.false_ne_true
    obtain ⟨u', hu'⟩ := hbefore hold
    exact ⟨u', unnotified_append (fun e he => (hevs e he).2) hu'⟩

theorem roused_eq {evs : List Event} (hh : σ'.history = evs ++ σ.history) : roused σ σ' = evs.any Event.notifies := by
  rw [roused, hh, List.length_append, Nat.add_sub_cancel, List.take_left]

/-- A thread that has recorded nothing has no waiters to notify. -/
theorem unnotified_of_mine : ∀ {h : List Event}, mine t h = [] → unnotified t h = false
  | [], _ => rfl
  | e :: h, hm => by
    have hne : e.thread ≠ t := fun he => absurd (decide_eq_true he) (List.filter_eq_nil_iff.1 hm e (List.mem_cons_self ..))
    have ih := unnotified_of_mine (List.filter_eq_nil_iff.2 fun e' he' => List.filter_eq_nil_iff.1 hm e' (List.mem_cons_of_mem _ he'))
    cases e with
    | notified t' =>
      rw [unnotified, ih]
      exact Bool.and_false _
    | settle t' | erase t' =>
      have hne : t' ≠ t := hne
      rw [unnotified, ih, decide_eq_false hne]
      rfl
    | _ => exact ih

/-! ## The stakes of a pool -/

/-- The stakes of the threads of a configuration. -/
abbrev Awake (cfg : RuntimeConfig) (c : Runtime) (hs : List Stakes) : Prop := (watch cfg).Sound (fun _ _ h => OnlyPages h) c hs

/-- An owner of a page has taken it. -/
theorem mine_of_owner : ∀ {h : List Event}, t ∈ ownersIn h id → mine t h ≠ []
  | e :: h, hm => by
    have hrest : t ∈ ownersIn h id → mine t (e :: h) ≠ [] := fun hm hnil =>
      mine_of_owner hm ((List.filter_eq_nil_iff.2 fun e he => List.filter_eq_nil_iff.1 hnil e (List.mem_cons_of_mem _ he)))
    have hself : e.thread = t → mine t (e :: h) ≠ [] := fun he hnil =>
      absurd (decide_eq_true he) (List.filter_eq_nil_iff.1 hnil e (List.mem_cons_self ..))
    cases e with
    | alloc t' i n b x =>
      rw [ownersIn] at hm
      split at hm
      · exact absurd hm List.not_mem_nil
      · exact hrest hm
    | claim t' i | release t' i o =>
      rw [ownersIn] at hm
      split at hm
      · rcases List.mem_cons.1 hm with rfl | hm
        · exact hself rfl
        · exact hrest hm
      · exact hrest hm
    | settle t' i s b =>
      rw [ownersIn] at hm
      split at hm
      · exact hrest (List.mem_of_mem_erase hm)
      · exact hrest hm
    | _ => exact hrest hm

/-- A thread that has not been started has recorded nothing. -/
theorem mine_of_new (hr : Reachable Emits (code cfg) (cfg.initial disk) c) (hle : c.threads.length ≤ t) : mine t c.shared.history = [] := by
  obtain ⟨gs, hacc⟩ := reachable_accounted (fun _ _ _ => True) (fun _ _ _ _ _ => trivial) hr
  exact (hacc.fresh t hle).1

/-- So it has taken no page and has no waiters to notify. -/
theorem staked_new (hr : Reachable Emits (code cfg) (cfg.initial disk) c) {T : Multiset (Nat × Stakes)} (hi : Staked c.shared T) :
    Staked c.shared ((c.threads.length, 0) ::ₘ T) := by
  have hmine := mine_of_new hr (le_refl c.threads.length)
  have hmore : ∀ {s : Stake}, (∃ x ∈ T, s ∈ x.2) → ∃ x ∈ (c.threads.length, 0) ::ₘ T, s ∈ x.2 := by
    rintro s ⟨x, hx, hs⟩
    exact ⟨x, Multiset.mem_cons_of_mem hx, hs⟩
  refine ⟨fun x hx i => ?_, fun x hx hu => ?_, fun h => hmore (hi.headroom h), fun k hk => (hi.promises k hk).imp_right hmore,
    fun x hx k hk => ?_, hi.prefetches⟩
  · rcases Multiset.mem_cons.1 hx with rfl | hx
    · exact (List.count_eq_zero.2 fun hm => mine_of_owner hm hmine).trans_le (Nat.zero_le _)
    · exact hi.pages x hx i
  · rcases Multiset.mem_cons.1 hx with rfl | hx
    · exact absurd hu (by rw [unnotified_of_mine hmine]; exact Bool.false_ne_true)
    · exact hi.waiters x hx hu
  · rcases Multiset.mem_cons.1 hx with rfl | hx
    · exact absurd hk (Multiset.notMem_zero _)
    · exact hi.futures x hx k hk

theorem awake_initial : Awake cfg ⟨cfg.initial disk, []⟩ [] := by
  refine Watch.Sound.start (show Staked (cfg.initial disk) 0 from ?_)
  exact ⟨fun x hx => absurd hx (Multiset.notMem_zero x), fun x hx => absurd hx (Multiset.notMem_zero x), fun h => (by cases h),
    fun k hk => (by cases hk), fun x hx => absurd hx (Multiset.notMem_zero x), fun r hr => absurd hr List.not_mem_nil⟩

/-! ## The invariant -/

/-- The worker has a turn, or will look at the queue. -/
def Station.attends : Station → Bool
  | .awake | .serving _ => true
  | _ => false

/-- The thread is a worker's turn that has not ended. -/
def Turning (c : Runtime) (t : Nat) : Prop := ∃ th, c.threads[t]? = some th ∧ th.label.isWorker = true ∧ ∀ r, th.code ≠ .ret r

theorem At.move {w : Wait} {m : Move Env Op} (h : At cfg c t w) (hm : c.move (code cfg) m = some c') (hne : m.isOf t = false) : At cfg c' t w := by
  obtain ⟨l, β, a, k, ht⟩ := h
  exact ⟨l, β, a, k, thread_move_other hm hne ht⟩

theorem Turning.move {m : Move Env Op} (h : Turning c t) (hm : c.move (code cfg) m = some c') (hne : m.isOf t = false) : Turning c' t := by
  obtain ⟨th, ht, hw, hrun⟩ := h
  exact ⟨th, thread_move_other hm hne ht, hw, hrun⟩

/-- A turn goes on until it has a result. -/
theorem Turning.exec (h : Turning c t) (hm : c.move (code cfg) (.exec t ω) = some c') (hgoes : (c'.result t).isSome = false) : Turning c' t := by
  obtain ⟨th, hth, hw, -⟩ := h
  obtain ⟨l, β, g, a, k, ht, -, rfl⟩ := move_exec hm
  cases hth.symm.trans ht
  have hnew : (c.threads.set t ⟨l, k (a t ω c.shared).1⟩)[t]? = some ⟨l, k (a t ω c.shared).1⟩ :=
    List.getElem?_set_self (List.getElem?_eq_some_iff.1 ht).1
  refine ⟨_, hnew, hw, fun r hr => ?_⟩
  have hr : k (a t ω c.shared).1 = .ret r := hr
  rw [hr] at hnew hgoes
  simp only [Config.result, hnew] at hgoes
  cases hgoes

/-- A sleeper is at the guard of its wait, and when what it waits for has come it will be woken: by a thread that has given a
page back, or by a notification to come. A queue that is not empty is attended to. -/
structure Pool.Ok (cfg : RuntimeConfig) (disk : Bytes) (p : Pool) : Prop where
  reach : Reachable Emits (code cfg) (cfg.initial disk) p.conf
  awake : ∃ hs, Awake cfg p.conf hs
  some_worker : p.workers ≠ []
  turns : ∀ t, .serving t ∈ p.workers → Turning p.conf t
  sleeps : ∀ x ∈ p.asleep, At cfg p.conf x.1 x.2 ∧ x.2.cv.isSome ∧ ∃ σ, x.2.guard cfg σ = false
  pages : ∀ x ∈ p.asleep, x.2.cv = some .state → x.2.locked cfg p.conf.shared = true → ∃ u, unnotified u p.conf.shared.history = true
  room : ∀ x ∈ p.asleep, x.2.cv = some .queue → x.2.locked cfg p.conf.shared = true → ∃ y ∈ p.owed, y.2 ≠ .one
  stops : p.conf.shared.stopping = true → .asleep ∈ p.workers → ∃ y ∈ p.owed, y.2 ≠ .one
  exits : .exited ∈ p.workers → p.conf.shared.stopping = true
  attended : p.conf.shared.queue ≠ [] → p.owed ≠ [] ∨ ∃ x ∈ p.workers, x.attends = true

namespace Pool

variable {p p' : Pool}

theorem ok_initial {n : Nat} (hn : 0 < n) : (Pool.initial cfg disk n).Ok cfg disk where
  reach := .start
  awake := ⟨[], awake_initial⟩
  some_worker := by simp [Pool.initial, hn.ne']
  turns t ht := by cases (List.mem_replicate.1 ht).2
  sleeps x hx := absurd hx List.not_mem_nil
  pages x hx := absurd hx List.not_mem_nil
  room x hx := absurd hx List.not_mem_nil
  stops hs := by cases hs
  exits hx := by cases (List.mem_replicate.1 hx).2
  attended hq := absurd rfl hq

/-- What a section does to the sleepers, when the threads that are asleep do not run. -/
theorem Ok.section (h : p.Ok cfg disk) {u : Nat} {ws : List Station} (hreach : Reachable Emits (code cfg) (cfg.initial disk) c')
    (hawake : ∃ hs, Awake cfg c' hs) (hat : ∀ x ∈ p.asleep, At cfg c' x.1 x.2)
    (hhist : ∃ evs, c'.shared.history = evs ++ p.conf.shared.history ∧ ∀ e ∈ evs, e.thread = u)
    (hstop : p.conf.shared.stopping = true → c'.shared.stopping = true) (hsome : ws ≠ []) (hturns : ∀ t, .serving t ∈ ws → Turning c' t)
    (hasleep : .asleep ∈ ws → .asleep ∈ p.workers) (hexits : .exited ∈ ws → .exited ∈ p.workers ∨ c'.shared.stopping = true)
    (hattends : p.conf.shared.queue ≠ [] → (∃ x ∈ p.workers, x.attends = true) →
      notice p.conf.shared c'.shared ≠ none ∨ ∃ x ∈ ws, x.attends = true) :
    Ok cfg disk { p.ran u c' with workers := ws } := by
  obtain ⟨evs, hh, hevs⟩ := hhist
  have hsub : ∀ x ∈ (p.ran u c').asleep, x ∈ p.asleep := fun x hx => (mem_ran_asleep hx).1
  have howed : ∀ y ∈ p.owed, y ∈ (p.ran u c').owed := fun y hy => List.mem_append_right _ hy
  have hnotice : notice p.conf.shared c'.shared ≠ none → (p.ran u c').owed ≠ [] := by
    intro hn
    obtain ⟨n, hn⟩ := Option.ne_none_iff_exists'.1 hn
    exact List.ne_nil_of_mem (mem_ran_owed hn)
  refine ⟨hreach, hawake, hsome, hturns, fun x hx => ⟨hat x (hsub x hx), (h.sleeps x (hsub x hx)).2⟩, fun x hx hcv hl => ?_,
    fun x hx hcv hl => ?_, fun hs hx => ?_, fun hx => ?_, fun hq => ?_⟩
  · -- a section that notifies leaves nobody asleep on `state_cv_`
    have hquiet : ∀ e ∈ evs, e.notifies = false := by
      have hroused := (mem_ran_asleep (t := u) hx).2 hcv
      rw [roused_eq hh, List.any_eq_false] at hroused
      exact fun e he => Bool.eq_false_of_not_eq_true (hroused e he)
    obtain ⟨T, hi⟩ := reachable_inv h.reach
    obtain ⟨T', hi'⟩ := reachable_inv hreach
    exact hi.unnotified_of_locked hi' hh (fun e he => ⟨hevs e he, hquiet e he⟩) hcv hl (h.pages x (hsub x hx) hcv)
  · by_cases hold : x.2.locked cfg p.conf.shared = true
    · obtain ⟨y, hy, hne⟩ := h.room x (hsub x hx) hcv hold
      exact ⟨y, howed y hy, hne⟩
    · rw [Wait.eq_room hcv] at hl hold
      obtain ⟨n, hn, hne⟩ := notice_of_room (Bool.eq_false_of_not_eq_true hold) hl
      exact ⟨_, mem_ran_owed hn, hne⟩
  · by_cases hold : p.conf.shared.stopping = true
    · obtain ⟨y, hy, hne⟩ := h.stops hold (hasleep hx)
      exact ⟨y, howed y hy, hne⟩
    · exact ⟨(u, .stop), mem_ran_owed (notice_of_stop (Bool.eq_false_of_not_eq_true hold) hs), by simp⟩
  · exact (hexits hx).elim (fun hx => hstop (h.exits hx)) fun hs => hs
  · -- the first request comes with a notification; later ones find the queue attended to
    by_cases hold : p.conf.shared.queue = []
    · exact .inl (hnotice (notice_of_queue hold hq))
    · rcases h.attended hold with hne | hbusy
      · obtain ⟨y, hy⟩ := List.exists_mem_of_ne_nil _ hne
        exact .inl (List.ne_nil_of_mem (howed y hy))
      · exact (hattends hold hbusy).imp_left hnotice

theorem Ok.spawn (h : p.Ok cfg disk) (hl : l.isWorker = false) (hm : p.conf.move (code cfg) (.spawn l) = some c') :
    Ok cfg disk { p with conf := c' } := by
  obtain ⟨hs, hawake⟩ := h.awake
  have hreach : Reachable Emits (code cfg) (cfg.initial disk) c' := .move (.spawn l) trivial h.reach hm
  have hat : ∀ x ∈ p.asleep, At cfg c' x.1 x.2 := fun x hx => (h.sleeps x hx).1.move hm rfl
  have hturns : ∀ t, .serving t ∈ p.workers → Turning c' t := fun t ht => (h.turns t ht).move hm rfl
  cases hm
  exact ⟨hreach, ⟨_, hawake.add (staked_new h.reach hawake.inv) (safe_code hl _)⟩, h.some_worker, hturns,
    fun x hx => ⟨hat x hx, (h.sleeps x hx).2⟩, h.pages, h.room, h.stops, h.exits, h.attended⟩

theorem Ok.exec (h : p.Ok cfg disk) (hω : ω.emit = none) (hawake : ∀ x ∈ p.asleep, x.1 ≠ t)
    (hm : p.conf.move (code cfg) (.exec t ω) = some c') : (p.ran t c').Ok cfg disk := by
  obtain ⟨hs, hsound⟩ := h.awake
  obtain ⟨l, -, ⟨evs, hh, hevs⟩, -⟩ := noted_move h.reach hm
  refine h.section (.move (.exec t ω) hω h.reach hm) (hsound.exec hω hm) (fun x hx => (h.sleeps x hx).1.move hm ?_)
    ⟨evs, hh, fun e he => (hevs e he).1⟩ (stopping_move h.reach hm) (by simpa using h.some_worker) (fun t' ht' => ?_) (fun hx => ?_)
    (fun hx => .inl ?_) fun _ ⟨x, hx, hbusy⟩ => .inr ?_
  · exact beq_eq_false_iff_ne.2 (hawake x hx).symm
  · obtain ⟨hx, hgoes⟩ := mem_ran_workers ht' (by simp)
    by_cases htt : t = t'
    · subst htt
      exact (h.turns t hx).exec hm (Bool.eq_false_of_not_eq_true fun hend => hgoes ⟨rfl, hend⟩)
    · exact (h.turns t' hx).move hm (beq_eq_false_iff_ne.2 htt)
  · exact (mem_ran_workers hx (by simp)).1
  · exact (mem_ran_workers hx (by simp)).1
  · refine ⟨_, List.mem_map_of_mem hx, ?_⟩
    split
    · rfl
    · exact hbusy

/-- A worker that looks at the queue takes a request, to be followed by its notification, or finds that the runtime stops. -/
theorem enter_cases (hm : c.run (code cfg) [.spawn .worker, .exec c.threads.length ω] = some c') :
    ∃ q, c'.threads = c.threads ++ [⟨.worker, q⟩] ∧ c'.shared.history = c.shared.history ∧ c'.shared.stopping = c.shared.stopping ∧
      ((c.shared.queue = [] ∧ c'.shared.queue = [] ∧ c.shared.stopping = true) ∨
        c.shared.queue ≠ [] ∧ c'.shared.queue.length < c.shared.queue.length ∧ notice c.shared c'.shared = some .all ∧ ∀ x, q ≠ .ret x) := by
  obtain ⟨k, hcode, -, hk⟩ := exists_turn cfg
  obtain ⟨hg, rfl⟩ := run_spawn_exec hcode hm
  refine ⟨_, rfl, ?_⟩
  rcases hq : c.shared.queue with _ | ⟨r, rest⟩
  · simp only [popRequest, hq]
    refine ⟨trivial, trivial, .inl ⟨trivial, trivial, ?_⟩⟩
    rw [hq] at hg
    simpa using hg
  · have hpop : popRequest c.threads.length ω c.shared = (.ok (some r), { c.shared with
        queue := rest
        prefetching := if r.kind = .prefetch then (c.threads.length, r.page) :: c.shared.prefetching else c.shared.prefetching }) := by
      simp only [popRequest, hq]
    rw [hpop]
    refine ⟨rfl, rfl, .inr ⟨List.cons_ne_nil _ _, Nat.lt_succ_self _, ?_, hk r⟩⟩
    simp [notice, hq]

theorem Ok.serve (h : p.Ok cfg disk) (i : Nat) (hω : ω.emit = none)
    (hm : p.conf.run (code cfg) [.spawn .worker, .exec p.conf.threads.length ω] = some c') : (p.served i c').Ok cfg disk := by
  obtain ⟨hs, hsound⟩ := h.awake
  obtain ⟨k, hcode, hsafe, -⟩ := exists_turn cfg
  obtain ⟨q, hthreads, hh, hstop, hcases⟩ := enter_cases hm
  have hold : ∀ {u : Nat} {th : Thread Env Shared Error Op Reply}, p.conf.threads[u]? = some th → c'.threads[u]? = some th := by
    intro u th hu
    rw [hthreads, List.getElem?_append_left (List.getElem?_eq_some_iff.1 hu).1]
    exact hu
  have hmoves : ∀ m ∈ [Move.spawn .worker, .exec p.conf.threads.length ω], Emits m := by
    intro m hmem
    rcases List.mem_cons.1 hmem with rfl | hmem
    · exact trivial
    · rw [List.mem_singleton.1 hmem]
      exact hω
  refine h.section (h.reach.of_run hmoves hm) (hsound.enter hω (staked_new h.reach hsound.inv) hcode (hsafe _) hm)
    (fun x hx => ?_) ⟨[], hh, fun e he => absurd he List.not_mem_nil⟩ (fun hs => hstop.trans hs) ?_ (fun t' ht' => ?_) (fun hx => ?_) (fun hx => ?_)
    fun hne _ => .inl ?_
  · obtain ⟨l, β, a, k, ht⟩ := (h.sleeps x hx).1
    exact ⟨l, β, a, k, hold ht⟩
  · intro hnil
    exact h.some_worker ((List.set_eq_nil_iff i _).1 hnil)
  · rcases List.mem_or_eq_of_mem_set ht' with hx | hx
    · obtain ⟨th, hth, hworker, hrun⟩ := h.turns t' hx
      exact ⟨th, hold hth, hworker, hrun⟩
    · rcases hcases with ⟨hq, -⟩ | ⟨hq, -, -, hrun⟩
      · rw [hq] at hx
        cases hx
      · rw [if_neg (by simpa using hq)] at hx
        cases hx
        refine ⟨⟨.worker, q⟩, ?_, rfl, hrun⟩
        rw [hthreads]
        exact List.getElem?_concat_length
  · rcases List.mem_or_eq_of_mem_set hx with hx | hx
    · exact hx
    · split at hx <;> cases hx
  · rcases List.mem_or_eq_of_mem_set hx with hx | hx
    · exact .inl hx
    · rcases hcases with ⟨-, -, hs⟩ | ⟨hq, -⟩
      · exact .inr (hstop.trans hs)
      · rw [if_neg (by simpa using hq)] at hx
        cases hx
  · rcases hcases with ⟨hq, -⟩ | ⟨-, -, hn, -⟩
    · exact absurd hq hne
    · rw [hn]
      exact Option.some_ne_none _

/-- Threads are woken: those that still sleep on `queue_cv_` keep the notification they wait for. -/
theorem Ok.rouse (h : p.Ok cfg disk) {asleep : List (Nat × Wait)} {owed : List (Nat × Notice)} {ws : List Station} (hsub : ∀ x ∈ asleep, x ∈ p.asleep)
    (hsome : ws ≠ []) (hws : ∀ x ∈ ws, x = .awake ∨ x ∈ p.workers)
    (howed : (.asleep ∈ ws ∨ ∃ x ∈ asleep, x.2.cv = some .queue) → ∀ y ∈ p.owed, y.2 ≠ .one → y ∈ owed)
    (hattended : p.conf.shared.queue ≠ [] → owed ≠ [] ∨ ∃ x ∈ ws, x.attends = true) : Ok cfg disk ⟨p.conf, asleep, owed, ws⟩ := by
  have hmem : ∀ x, x ≠ .awake → x ∈ ws → x ∈ p.workers := fun x hne hx => (hws x hx).resolve_left hne
  refine ⟨h.reach, h.awake, hsome, fun t ht => h.turns t (hmem _ (by simp) ht), fun x hx => h.sleeps x (hsub x hx),
    fun x hx => h.pages x (hsub x hx), fun x hx hcv hl => ?_, fun hs hx => ?_, fun hx => h.exits (hmem _ (by simp) hx), hattended⟩
  · obtain ⟨y, hy, hne⟩ := h.room x (hsub x hx) hcv hl
    exact ⟨y, howed (.inr ⟨x, hx, hcv⟩) y hy hne, hne⟩
  · obtain ⟨y, hy, hne⟩ := h.stops hs (hmem _ (by simp) hx)
    exact ⟨y, howed (.inl hx) y hy hne, hne⟩

theorem mem_woken {x : Station} (hx : x ∈ p.workers.map Station.woken) : x = .awake ∨ x ∈ p.workers := by
  obtain ⟨y, hy, rfl⟩ := List.mem_map.1 hx
  cases y with
  | asleep => exact .inl rfl
  | _ => exact .inr hy

theorem woken_ne_asleep (x : Station) : x.woken ≠ .asleep := by
  cases x <;> simp [Station.woken]

/-- An awake worker attends to the queue, unless the runtime stops and the queue is empty. -/
theorem Ok.attends_of_awake (h : p.Ok cfg disk) (hq : p.conf.shared.queue ≠ []) {x : Station} (hx : x = .awake ∨ x ∈ p.workers) (hne : x ≠ .asleep) :
    x.attends = true := by
  cases x with
  | asleep => exact absurd rfl hne
  | exited => exact absurd (queue_of_stopping h.reach (h.exits (hx.resolve_left (by simp)))) hq
  | _ => rfl

theorem Ok.wakeAll (h : p.Ok cfg disk) {asleep : List (Nat × Wait)} {owed : List (Nat × Notice)}
    (hsub : ∀ x ∈ asleep, x ∈ p.asleep ∧ x.2.cv ≠ some .queue) : Ok cfg disk ⟨p.conf, asleep, owed, p.workers.map Station.woken⟩ := by
  refine h.rouse (fun x hx => (hsub x hx).1) (by simpa using h.some_worker) (fun x => mem_woken) ?_ fun hq => .inr ?_
  · rintro (hx | ⟨x, hx, hcv⟩)
    · obtain ⟨y, -, hy⟩ := List.mem_map.1 hx
      exact absurd hy (woken_ne_asleep y)
    · exact absurd hcv (hsub x hx).2
  · obtain ⟨x, hx⟩ := List.exists_mem_of_ne_nil _ h.some_worker
    have hx := List.mem_map_of_mem (f := Station.woken) hx
    exact ⟨_, hx, h.attends_of_awake hq (mem_woken hx) (woken_ne_asleep x)⟩

theorem getElem?_modify_woken (ws : List Station) (i k : Nat) : (ws.modify i Station.woken)[k]? = ws[k]?.map fun x => if i = k then x.woken else x := by
  rw [List.getElem?_modify]
  split <;> simp

theorem mem_modify_woken {i : Nat} {x : Station} (hx : x ∈ p.workers.modify i Station.woken) : x = .awake ∨ x ∈ p.workers := by
  obtain ⟨k, hk⟩ := List.mem_iff_getElem?.1 hx
  rw [getElem?_modify_woken] at hk
  obtain ⟨y, hy, rfl⟩ := Option.map_eq_some_iff.1 hk
  split
  · exact mem_woken (List.mem_map_of_mem (List.mem_of_getElem? hy))
  · exact .inr (List.mem_of_getElem? hy)

theorem mem_modify_of_attends {i : Nat} {x : Station} (hx : x ∈ p.workers) (ha : x.attends = true) : x ∈ p.workers.modify i Station.woken := by
  obtain ⟨k, hk⟩ := List.mem_iff_getElem?.1 hx
  refine List.mem_of_getElem? (i := k) ?_
  rw [getElem?_modify_woken, hk]
  cases x with
  | asleep | exited => cases ha
  | _ => split <;> rfl

theorem Ok.notifyOne (h : p.Ok cfg disk) {k u : Nat} {x : Option Waiter} (hk : p.owed[k]? = some (u, .one)) (hx : p.InTime (.notifyOne k x))
    (hw : { p with owed := p.owed.eraseIdx k }.wakeOne x = some p') : p'.Ok cfg disk := by
  have howed : ∀ y ∈ p.owed, y.2 ≠ .one → y ∈ p.owed.eraseIdx k := by
    intro y hy hne
    obtain ⟨i, hi⟩ := List.mem_iff_getElem?.1 hy
    refine List.mem_eraseIdx_iff_getElem?.2 ⟨i, fun hik => hne ?_, hi⟩
    rw [hik] at hi
    cases hi.symm.trans hk
    rfl
  have hothers : ∀ ws : List Station, (∃ y ∈ ws, (y = .awake ∨ y ∈ p.workers) ∧ y ≠ .asleep) → p.conf.shared.queue ≠ [] →
      p.owed.eraseIdx k ≠ [] ∨ ∃ y ∈ ws, y.attends = true := by
    rintro ws ⟨y, hy, hmem, hne⟩ hq
    exact .inr ⟨y, hy, h.attends_of_awake hq hmem hne⟩
  rcases wakeOne_cases hw with ⟨rfl, hany, rfl⟩ | ⟨y, rfl, hasleep, rfl⟩
  · -- no worker is asleep
    refine h.rouse (fun _ hx => hx) h.some_worker (fun _ hx => .inr hx) (fun _ => howed) (hothers _ ?_)
    obtain ⟨y, hy⟩ := List.exists_mem_of_ne_nil _ h.some_worker
    refine ⟨y, hy, .inr hy, fun he => ?_⟩
    exact List.any_eq_false.1 (Bool.or_eq_false_iff.1 hany).1 y hy (beq_iff_eq.2 he)
  cases y with
  | worker i =>
    have hi : p.workers[i]? = some .asleep := beq_iff_eq.1 hasleep
    have hawake : .awake ∈ p.workers.modify i Station.woken := by
      refine List.mem_of_getElem? (i := i) ?_
      rw [getElem?_modify_woken, hi]
      simp [Station.woken]
    refine h.rouse (fun _ hx => hx) (List.ne_nil_of_mem hawake) (fun _ => mem_modify_woken) (fun _ => howed) (hothers _ ?_)
    exact ⟨_, hawake, .inl rfl, by simp⟩
  | caller t =>
    -- this notification is spent on a submitter, so some worker must be awake
    refine h.rouse (fun _ hx => List.mem_of_mem_filter hx) h.some_worker (fun _ hx => .inr hx) (fun _ => howed) (hothers _ ?_)
    have hx : ¬∀ y ∈ p.workers, y = .asleep := hx
    push Not at hx
    obtain ⟨y, hy, hne⟩ := hx
    exact ⟨y, hy, .inr hy, hne⟩

theorem Ok.spurious (h : p.Ok cfg disk) (x : Waiter) : (p.wake x).Ok cfg disk := by
  cases x with
  | worker i =>
    refine h.rouse (fun _ hx => hx) ?_ (fun _ => mem_modify_woken) (fun _ _ hy _ => hy) fun hq => ?_
    · rw [← List.length_pos_iff, List.length_modify, List.length_pos_iff]
      exact h.some_worker
    · refine (h.attended hq).imp_right ?_
      rintro ⟨y, hy, ha⟩
      exact ⟨y, mem_modify_of_attends hy ha, ha⟩
  | caller t => exact h.rouse (fun _ hx => List.mem_of_mem_filter hx) h.some_worker (fun _ hx => .inr hx) (fun _ _ hy _ => hy) h.attended

theorem Ok.look (h : p.Ok cfg disk) {i : Nat} (hs : p.conf.shared.stopping = false) (hq : p.conf.shared.queue = []) :
    Ok cfg disk { p with workers := p.workers.set i .asleep } := by
  have hmem : ∀ x, x ≠ .asleep → x ∈ p.workers.set i .asleep → x ∈ p.workers :=
    fun x hne hx => (List.mem_or_eq_of_mem_set hx).resolve_right hne
  refine ⟨h.reach, h.awake, fun hnil => h.some_worker ((List.set_eq_nil_iff i _).1 hnil), fun t ht => h.turns t (hmem _ (by simp) ht), h.sleeps,
    h.pages, h.room, fun hstop => ?_, fun hx => h.exits (hmem _ (by simp) hx), fun hne => absurd hq hne⟩
  exact absurd (hs.symm.trans hstop) Bool.false_ne_true

theorem Tires.guard {w : Wait} (h : Tires cfg p t w) : ∃ σ, w.guard cfg σ = false := by
  have hl := h.locked
  cases w with
  | room => exact ⟨p.conf.shared, hl⟩
  | settled id => exact ⟨{ p.conf.shared with stopping := false }, hl⟩
  | releasable id => exact ⟨{ p.conf.shared with stopping := false }, hl⟩
  | _ => exact absurd h.cv (by simp [Wait.cv])

theorem Ok.sleep (h : p.Ok cfg disk) {w : Wait} (ht : Tires cfg p t w) : Ok cfg disk { p with asleep := (t, w) :: p.asleep } := by
  have hno : w.locked cfg p.conf.shared ≠ true := by
    rw [ht.locked]
    exact Bool.false_ne_true
  refine ⟨h.reach, h.awake, h.some_worker, h.turns, fun x hx => ?_, fun x hx hcv hl => ?_, fun x hx hcv hl => ?_, h.stops, h.exits, h.attended⟩
  · rcases List.mem_cons.1 hx with rfl | hx
    · exact ⟨ht.wait, ht.cv, ht.guard⟩
    · exact h.sleeps x hx
  · rcases List.mem_cons.1 hx with rfl | hx
    · exact absurd hl hno
    · exact h.pages x hx hcv hl
  · rcases List.mem_cons.1 hx with rfl | hx
    · exact absurd hl hno
    · exact h.room x hx hcv hl

/-! ## Runs -/

theorem Ok.step (h : p.Ok cfg disk) {a : Act} (ha : p.InTime a) (hs : Step cfg p a p') : p'.Ok cfg disk := by
  cases hs with
  | sleep ht => exact h.sleep ht
  | act hs =>
    cases a with
    | spawn l =>
      obtain ⟨hl, c', hm, rfl⟩ := step_spawn hs
      exact h.spawn hl hm
    | exec t ω =>
      obtain ⟨hawake, c', hm, rfl⟩ := step_exec hs
      exact h.exec ha hawake hm
    | serve i ω =>
      obtain ⟨-, c', hm, rfl⟩ := step_serve hs
      exact h.serve i ha hm
    | notifyOne k x =>
      obtain ⟨u, hk, hw⟩ := step_notifyOne hs
      exact h.notifyOne hk ha hw
    | notifyAll k =>
      obtain ⟨y, asleep, -, hsub, rfl⟩ := step_notifyAll hs
      exact h.wakeAll hsub
    | look i =>
      obtain ⟨-, hstop, hq, rfl⟩ := step_look hs
      exact h.look hstop hq
    | sleep t w => cases hs
    | spurious x =>
      cases hs
      exact h.spurious x

theorem Run.ok (hr : Run cfg p p') (h : p.Ok cfg disk) : p'.Ok cfg disk := by
  induction hr with
  | refl => exact h
  | tail _ hlast ih =>
    obtain ⟨a, ha, hs⟩ := hlast
    exact ih.step ha hs

end Pool

end FlashTier
