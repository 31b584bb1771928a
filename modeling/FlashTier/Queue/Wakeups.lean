/-
The wakeups of the request queue. Workers and demand submitters sleep on one condition variable, and
`notify_one` may wake a submitter that finds the queue still full while every worker sleeps on: then nobody
is left to serve the queue. As long as `notify_one` wakes no submitter while every worker sleeps, a queue that
is not empty always has a worker awake or a notification to come.
-/
import FlashTier.Queue.System

namespace FlashTier

/-- The thread has a notification to issue. -/
def CallerAt.notifies : CallerAt → Bool
  | .pushed _ | .prefetched | .removed => true
  | _ => false

namespace RequestQueue

open Conc

variable {cfg : QueueConfig} {s s' : RequestQueue} {a : Action}

def AllAsleep (s : RequestQueue) : Prop := ∀ x ∈ s.workers, x = .asleep

instance (s : RequestQueue) : Decidable s.AllAsleep := inferInstanceAs (Decidable (∀ x ∈ s.workers, x = .asleep))

/-- Requests wait in a running queue, every worker is asleep and no notification is to come. -/
structure Stuck (s : RequestQueue) : Prop where
  running : s.running = true
  queue : s.queue ≠ []
  workers : s.AllAsleep
  callers : ∀ x ∈ s.callers, x.notifies = false
  control : ∀ second, s.control ≠ .stopped second

/-- `notify_one` does not wake a demand submitter while every worker is asleep. -/
def InTime (s : RequestQueue) : Action → Prop
  | .notifyOne _ (some (.caller _)) => ¬s.AllAsleep
  | _ => True

instance (s : RequestQueue) (a : Action) : Decidable (InTime s a) := by
  unfold InTime
  split <;> infer_instance

/-- Someone will look at the queue: a worker that is awake, or one that a notification wakes. -/
def Attended (s : RequestQueue) : Prop := ¬s.AllAsleep ∨ ∃ x ∈ s.callers, x.notifies = true

/-- A runtime that runs has workers, and its queue is attended to. -/
structure Alert (s : RequestQueue) : Prop where
  control : s.control ≠ .free → s.running = false
  starting : s.control = .starting → s.stopping = false
  stopping : s.running = true → s.stopping = false
  workers : s.running = true → s.workers ≠ []
  attended : s.running = true → s.queue ≠ [] → s.Attended

theorem Alert.not_stuck (h : Alert s) : ¬Stuck s := by
  intro hs
  rcases h.attended hs.running hs.queue with hw | ⟨x, hx, hn⟩
  · exact hw hs.workers
  · rw [hs.callers x hx] at hn
    cases hn

theorem alert_initial (n : Nat) : Alert (initial n) := by
  refine ⟨fun _ => rfl, fun h => ?_, fun h => ?_, fun h => ?_, fun h => ?_⟩ <;> cases h

/-- A runtime that does not run needs no attention. -/
theorem alert_of_stopped (h : s.running = false) (hs : s.control = .starting → s.stopping = false) : Alert s := by
  have hno : s.running ≠ true := by rw [h]; decide
  exact ⟨fun _ => h, hs, fun hr => absurd hr hno, fun hr => absurd hr hno, fun hr => absurd hr hno⟩

/-! ## Awake workers -/

/-- A worker that was put somewhere but to sleep is awake. -/
theorem awake_setWorker {w : Nat} {x y : WorkerAt} (hw : s.workers[w]? = some x) (hy : y ≠ .asleep) : ¬(s.setWorker w y).AllAsleep := by
  intro h
  exact hy (h y (List.mem_set (List.getElem?_eq_some_iff.1 hw).1 y))

theorem awake_wakeAll (hne : s.workers ≠ []) : ¬s.wakeAll.AllAsleep := by
  obtain ⟨x, hx⟩ := List.exists_mem_of_ne_nil _ hne
  intro h
  have hx' := h x.woken (List.mem_map_of_mem hx)
  cases x <;> cases hx'

theorem setWorker_ne_nil {w : Nat} {y : WorkerAt} (h : s.workers ≠ []) : (s.setWorker w y).workers ≠ [] := by
  intro hnil
  exact h ((List.set_eq_nil_iff _ _).1 hnil)

/-! ## Workers -/

/-- What keeps a runtime alert: nothing but the workers, the callers and the queue changes, and a queue that
is not empty is attended to. -/
theorem Alert.keep (h : Alert s) (hr : s'.running = s.running) (hs : s'.stopping = s.stopping) (hc : s'.control = s.control)
    (hne : s.workers ≠ [] → s'.workers ≠ []) (ha : s.running = true → s'.queue ≠ [] → s'.Attended) : Alert s' := by
  constructor
  · intro hfree
    rw [hr]
    exact h.control (hc ▸ hfree)
  · intro hstart
    rw [hs]
    exact h.starting (hc ▸ hstart)
  · intro hrun
    rw [hs]
    exact h.stopping (hr ▸ hrun)
  · intro hrun
    exact hne (h.workers (hr ▸ hrun))
  · intro hrun
    exact ha (hr ▸ hrun)

theorem alert_testWorker {w : Nat} (h : Alert s) (hw : s.workers[w]? = some .testing) : Alert (s.testWorker w) := by
  unfold testWorker
  split
  · split
    · -- without a request a worker goes on only to stop
      rename_i hpred _ hq
      refine h.keep rfl rfl rfl setWorker_ne_nil fun hr _ => ?_
      have hstop := h.stopping hr
      rw [hq, hstop] at hpred
      cases hpred
    · rename_i r rest hq
      exact h.keep rfl rfl rfl setWorker_ne_nil
        fun _ _ => .inl (awake_setWorker (s := { s with queue := rest }) hw (by intro he; cases he))
  · rename_i hpred
    refine h.keep rfl rfl rfl setWorker_ne_nil fun hr hq => ?_
    -- only an empty queue puts a worker to sleep
    have hstop := h.stopping hr
    rw [hstop, Bool.false_or, Bool.not_eq_true', Bool.not_eq_false, List.isEmpty_iff] at hpred
    exact absurd hpred hq

theorem wakeAll_ne_nil (h : s.workers ≠ []) : s.wakeAll.workers ≠ [] := by
  intro hnil
  exact h (List.map_eq_nil_iff.1 hnil)

theorem alert_workerStep {w : Nat} (h : Alert s) (hs : s.workerStep w a = some s') : Alert s' := by
  unfold workerStep at hs
  cases a with
  | test =>
    simp only at hs
    split at hs <;> cases hs
    rename_i hw
    exact alert_testWorker h hw
  | announce =>
    have hall : ∀ x y : WorkerAt, s.workers[w]? = some x → y ≠ .asleep → Alert (s.wakeAll.setWorker w y) := by
      intro x y hw hy
      refine h.keep rfl rfl rfl (fun hne => ?_) fun _ _ => .inl (awake_setWorker (wakeAll_worker hw) hy)
      exact setWorker_ne_nil (wakeAll_ne_nil hne)
    simp only at hs
    split at hs
    · rename_i r hw
      cases hs
      exact hall _ _ hw (by intro he; cases he)
    · rename_i hw
      cases hs
      exact hall _ _ hw (by intro he; cases he)
    · cases hs
  | complete _ outcome =>
    simp only at hs
    split at hs <;> cases hs
    rename_i r hw
    obtain ⟨promises, hsat⟩ := s.satisfy_eq r (completionOf outcome)
    rw [hsat]
    refine h.keep rfl rfl rfl setWorker_ne_nil fun _ _ => .inl (awake_setWorker (s := { s with promises := promises }) hw ?_)
    split <;> (intro he; cases he)
  | finish =>
    simp only at hs
    split at hs <;> cases hs
    rename_i page hw
    exact h.keep rfl rfl rfl setWorker_ne_nil
      fun _ _ => .inl (awake_setWorker (s := { s with pendingPrefetches := _ }) hw (by intro he; cases he))
  | _ => cases hs

/-! ## Callers -/

/-- A caller that is put where it has a notification to issue attends to the queue. -/
theorem attended_setCaller {c : Nat} {x y : CallerAt} (hc : s.callers[c]? = some x) (hy : y.notifies = true) : (s.setCaller c y).Attended :=
  .inr ⟨y, List.mem_set (List.getElem?_eq_some_iff.1 hc).1 y, hy⟩

/-- A caller that had nothing to issue is not missed. -/
theorem Attended.setCaller {c : Nat} {x y : CallerAt} (h : s.Attended) (hc : s.callers[c]? = some x) (hx : x.notifies = false) :
    (s.setCaller c y).Attended := by
  rcases h with h | ⟨z, hz, hn⟩
  · exact .inl h
  · refine .inr ⟨z, ?_, hn⟩
    obtain ⟨i, hi⟩ := List.mem_iff_getElem?.1 hz
    refine List.mem_iff_getElem?.2 ⟨i, ?_⟩
    have hne : c ≠ i := by
      rintro rfl
      rw [hc] at hi
      cases hi
      rw [hx] at hn
      cases hn
    show (s.callers.set c y)[i]? = some z
    rw [List.getElem?_set_ne hne, hi]

theorem Alert.setCaller {c : Nat} {x y : CallerAt} (h : Alert s) (hc : s.callers[c]? = some x) (hx : x.notifies = false) :
    Alert (s.setCaller c y) :=
  h.keep rfl rfl rfl id fun hr hq => (h.attended hr hq).setCaller hc hx

theorem alert_testDemand {c : Nat} {page : PageId} {target : Tier} (h : Alert s) (hc : s.callers[c]? = some (.testing page target)) :
    Alert (s.testDemand cfg c page target) := by
  unfold testDemand
  split
  · split
    · exact h.setCaller hc rfl
    · exact h.keep rfl rfl rfl id fun _ _ => attended_setCaller (s := { s with queue := _, promises := _ }) hc rfl
  · exact h.setCaller hc rfl

theorem alert_pushPrefetch {c : Nat} {page : PageId} {target : Tier} (h : Alert s) (hc : s.callers[c]? = some .idle) :
    Alert (s.pushPrefetch cfg c page target) := by
  unfold pushPrefetch
  split
  · exact h
  split
  · exact h.keep rfl rfl rfl id fun _ _ => attended_setCaller (s := { s with queue := _, pendingPrefetches := _ }) hc rfl
  · exact h.setCaller hc rfl

theorem alert_remove {c : Nat} {page : PageId} (h : Alert s) (hc : s.callers[c]? = some .idle) : Alert (s.removeQueuedPrefetch c page) := by
  unfold removeQueuedPrefetch
  split
  · exact h.keep rfl rfl rfl id fun _ _ => attended_setCaller (s := { s with queue := _, pendingPrefetches := _ }) hc rfl
  · exact h

theorem alert_wakeAll (h : Alert s) {c : Nat} {y : CallerAt} : Alert (s.setCaller c y).wakeAll :=
  h.keep rfl rfl rfl wakeAll_ne_nil fun hr _ => .inl (awake_wakeAll (s := s.setCaller c y) (h.workers hr))

/-- `notify_one` leaves a worker awake: it wakes one, or there was one, or it wakes a submitter, which it
does not when every worker is asleep. -/
theorem alert_wakeOne {c : Nat} {y : CallerAt} {x : Option Waiter} (h : Alert s) (ht : ∀ c', x = some (.caller c') → ¬s.AllAsleep)
    (hs : (s.setCaller c y).wakeOne x = some s') : Alert s' := by
  cases x with
  | none =>
    simp only [wakeOne] at hs
    split at hs <;> cases hs
    rename_i hnone
    refine h.keep rfl rfl rfl id fun hr _ => .inl fun hall => ?_
    obtain ⟨z, hz⟩ := List.exists_mem_of_ne_nil _ (h.workers hr)
    apply hnone
    rw [anyAsleep, Bool.or_eq_true, List.any_eq_true]
    exact .inl ⟨z, hz, by rw [hall z hz]; rfl⟩
  | some x =>
    simp only [wakeOne] at hs
    split at hs <;> cases hs
    rename_i hasleep
    cases x with
    | worker w =>
      have hw : s.workers[w]? = some .asleep := eq_of_beq hasleep
      have hmodify : (s.workers.modify w WorkerAt.woken)[w]? = some .testing := by rw [List.getElem?_modify_eq, hw]; rfl
      refine h.keep rfl rfl rfl (fun hne hnil => ?_) fun _ _ => .inl fun hall => ?_
      · exact hne (List.modify_eq_nil_iff.1 hnil)
      · cases hall _ (List.mem_of_getElem? hmodify)
    | caller c' => exact h.keep rfl rfl rfl id fun _ _ => .inl (ht c' rfl)

theorem alert_callerStep {c : Nat} (h : Alert s) (ht : InTime s a) (hs : s.callerStep cfg c a = some s') : Alert s' := by
  unfold callerStep at hs
  cases a with
  | demand _ page target =>
    simp only at hs
    split at hs <;> cases hs
    rename_i hc
    exact h.setCaller hc rfl
  | push =>
    simp only at hs
    split at hs <;> cases hs
    rename_i hc
    exact alert_testDemand h hc
  | notifyOne _ x =>
    have ht : ∀ c', x = some (.caller c') → ¬s.AllAsleep := by
      rintro c' rfl
      exact ht
    simp only at hs
    split at hs
    · exact alert_wakeOne h ht hs
    · exact alert_wakeOne h ht hs
    · cases hs
  | getFuture =>
    simp only at hs
    split at hs
    · rename_i hc
      split at hs <;> cases hs
      exact h.setCaller hc rfl
    · cases hs
  | prefetch _ page target =>
    simp only at hs
    split at hs <;> cases hs
    rename_i hc
    exact alert_pushPrefetch h hc
  | remove _ page =>
    simp only at hs
    split at hs <;> cases hs
    rename_i hc
    exact alert_remove h hc
  | notifyAll =>
    simp only at hs
    split at hs <;> cases hs
    exact alert_wakeAll h
  | _ => cases hs

/-! ## Start and shutdown -/

theorem workers_pos (cfg : QueueConfig) : 0 < cfg.workers := by
  unfold QueueConfig.workers
  split
  · exact Nat.pos_of_ne_zero ‹_›
  · exact cfg.queue_pos

theorem alert_controlStep (h : Alert s) (hs : s.controlStep cfg a = some s') : Alert s' := by
  -- once the runtime has stopped it stays so up to the next start
  have hstopped : ∀ {x : ControlAt}, s.control = x → x ≠ .free → s.running = false := by
    rintro x rfl hx
    exact h.control hx
  unfold controlStep at hs
  cases a with
  | start =>
    simp only at hs
    split at hs <;> cases hs
    rename_i hfree
    exact alert_of_stopped (Bool.eq_false_of_not_eq_true hfree.2.1) fun _ => rfl
  | go =>
    simp only at hs
    split at hs <;> cases hs
    rename_i hstart
    have hmem : WorkerAt.testing ∈ List.replicate cfg.workers .testing := List.mem_replicate.2 ⟨(workers_pos cfg).ne', rfl⟩
    constructor
    · exact fun hfree => absurd rfl hfree
    · intro hc
      cases hc
    · exact fun _ => h.starting hstart
    · exact fun _ => List.ne_nil_of_mem hmem
    · refine fun _ _ => .inl fun hall => ?_
      cases hall _ hmem
  | startFails created =>
    simp only at hs
    split at hs <;> cases hs
    exact alert_of_stopped rfl (by intro hc; cases hc)
  | shutdown =>
    simp only at hs
    split at hs <;> cases hs
    exact alert_of_stopped rfl (by intro hc; cases hc)
  | cancel =>
    simp only at hs
    split at hs <;> cases hs
    · rename_i second r rest hc
      obtain ⟨promises, hsat⟩ := s.satisfy_eq r .cancelled
      rw [hsat]
      exact alert_of_stopped (hstopped hc (by intro he; cases he)) (by intro hc; cases hc)
    · rename_i second hc
      exact alert_of_stopped (hstopped hc (by intro he; cases he)) (by intro hc; cases hc)
  | announceStop =>
    simp only at hs
    split at hs <;> cases hs
    rename_i second hc
    refine alert_of_stopped (hstopped hc (by intro he; cases he)) ?_
    cases second <;> (intro hc; cases hc)
  | lock =>
    simp only at hs
    split at hs <;> cases hs
    exact alert_of_stopped rfl (by intro hc; cases hc)
  | join =>
    simp only at hs
    split at hs <;> cases hs
    rename_i hc
    exact alert_of_stopped (hstopped hc.1 (by intro he; cases he)) (by intro hc; cases hc)
  | _ => cases hs

/-! ## Runs -/

theorem notifies_woken (x : CallerAt) : x.woken.notifies = x.notifies := by
  cases x <;> rfl

theorem mem_modify {α : Type} {l : List α} {f : α → α} {x : α} (h : x ∈ l) (i : Nat) : x ∈ l.modify i f ∨ f x ∈ l.modify i f := by
  obtain ⟨j, hj⟩ := List.mem_iff_getElem?.1 h
  by_cases hij : i = j
  · refine .inr (List.mem_iff_getElem?.2 ⟨j, ?_⟩)
    rw [hij, List.getElem?_modify_eq, hj]
    rfl
  · refine .inl (List.mem_iff_getElem?.2 ⟨j, ?_⟩)
    rw [List.getElem?_modify, hj]
    simp [hij]

/-- A thread that wakes takes no attention away. -/
theorem alert_wake (h : Alert s) (x : Waiter) : Alert (s.wake x) := by
  cases x with
  | worker w =>
    refine h.keep rfl rfl rfl (fun hne hnil => hne (List.modify_eq_nil_iff.1 hnil)) fun hr hq => ?_
    rcases h.attended hr hq with hawake | hcaller
    · refine .inl fun hall => hawake fun y hy => ?_
      rcases mem_modify (f := WorkerAt.woken) hy w with hm | hm
      · exact hall y hm
      · have := hall _ hm
        cases y <;> cases this
    · exact .inr hcaller
  | caller c =>
    refine h.keep rfl rfl rfl id fun hr hq => ?_
    rcases h.attended hr hq with hawake | ⟨y, hy, hn⟩
    · exact .inl hawake
    · rcases mem_modify (f := CallerAt.woken) hy c with hm | hm
      · exact .inr ⟨y, hm, hn⟩
      · exact .inr ⟨y.woken, hm, (notifies_woken y).trans hn⟩

theorem alert_step (h : Alert s) (ht : InTime s a) (hs : step cfg s a = some s') : Alert s' := by
  unfold step at hs
  cases a with
  | test | announce | complete | finish => exact alert_workerStep h hs
  | demand | push | notifyOne | getFuture | prefetch | remove | notifyAll => exact alert_callerStep h ht hs
  | spurious x =>
    simp only at hs
    split at hs <;> cases hs
    exact alert_wake h x
  | start | go | startFails | shutdown | cancel | announceStop | lock | join => exact alert_controlStep h hs

/-- For every queue depth, every number of workers and of callers: in no state that a run reaches do
requests wait in a running queue with every worker asleep and no notification to come, if `notify_one` wakes no
demand submitter whenever it is issued while every worker is asleep. -/
theorem queue_attended {n : Nat} (h : Steps (step cfg) InTime (initial n) s) : ¬Stuck s := by
  apply Alert.not_stuck
  exact h.invariant (fun _ _ _ ht hs ha => alert_step ha ht hs) (alert_initial n)

/-- Three demands: the first notification wakes the worker, while a submitter sleeps; the second wakes the submitter, which
goes back to sleep, while the worker is awake. -/
theorem queue_attended_pushed : ∃ s, Steps (step oneByOne) InTime (initial 3) s ∧ s.running = true ∧ s.queue ≠ [] ∧
    (∀ x ∈ s.callers, x.notifies = false) ∧ ¬Stuck s := by
  obtain ⟨s, hs, hr, hq, hn⟩ := Steps.of_test (step oneByOne) InTime (initial 3)
    [.start, .go, .test 0, .demand 0 1 .vram, .push 0, .demand 1 2 .vram, .push 1, .notifyOne 0 (some (.worker 0)), .test 0,
      .demand 2 3 .vram, .push 2, .notifyOne 2 (some (.caller 1)), .push 1]
    (fun s => s.running = true ∧ s.queue ≠ [] ∧ ∀ x ∈ s.callers, x.notifies = false) (by decide)
  exact ⟨s, hs, hr, hq, hn, queue_attended hs⟩

/-- Two demands meet at a queue of one place: the notification of the first wakes the second submitter,
which finds the queue full and goes back to sleep, and the worker sleeps on. -/
theorem queue_stuck : ∃ s, Steps (step oneByOne) (fun _ _ => True) (initial 2) s ∧ Stuck s := by
  obtain ⟨s, hs, hr, hq, hw, hc, hcontrol⟩ := Steps.of_test (step oneByOne) (fun _ _ => True) (initial 2)
    [.start, .go, .test 0, .demand 0 1 .vram, .push 0, .demand 1 2 .vram, .push 1, .notifyOne 0 (some (.caller 1)), .push 1]
    (fun s => s.running = true ∧ s.queue ≠ [] ∧ s.AllAsleep ∧ (∀ x ∈ s.callers, x.notifies = false) ∧ ∀ second, s.control ≠ .stopped second)
    (by decide)
  exact ⟨s, hs, hr, hq, hw, hc, hcontrol⟩

end RequestQueue

end FlashTier
