/-
The runtime does not come to a standstill. While no emission throws, no release of a buffer has failed and `notify_one`
wakes no demand submitter while every worker sleeps, some thread or worker that is awake can go on, or a notification is to
come, unless every operation has ended; and however the threads are scheduled, the operations that have been started end.
-/
import FlashTier.Progress.Pool
import Mathlib.Data.Prod.Lex

namespace FlashTier

open Conc

variable {cfg : RuntimeConfig} {disk : Bytes} {c c' : Runtime} {σ : Shared} {t : Nat} {id : PageId} {l : Op} {hs : List Stakes} {ω : Env}

/-! ## Work -/

namespace Pool

variable {p p' : Pool}

/-- A section or a notification. -/
def Act.works : Act → Bool
  | .exec .. | .serve .. | .notifyOne .. | .notifyAll _ => true
  | _ => false

/-- A thread falls asleep, or wakes by itself. -/
def Act.rests : Act → Bool
  | .look _ | .sleep .. | .spurious _ => true
  | _ => false

def Works (cfg : RuntimeConfig) (p p' : Pool) : Prop := ∃ a : Act, a.works = true ∧ p.InTime a ∧ Step cfg p a p'

def Rests (cfg : RuntimeConfig) (p p' : Pool) : Prop := ∃ a : Act, a.rests = true ∧ p.InTime a ∧ Step cfg p a p'

/-- Nothing is left to do: the queue is empty, every operation has ended, and after the stop every worker has. -/
structure Concluded (p : Pool) : Prop where
  queue : p.conf.shared.queue = []
  threads : p.conf.Quiet
  workers : p.conf.shared.stopping = true → ∀ x ∈ p.workers, x = .exited

/-- A notification can be issued in time: when every worker is asleep, it wakes one. -/
theorem Ok.notify_works (h : p.Ok cfg disk) (hne : p.owed ≠ []) : ∃ p', Works cfg p p' := by
  obtain ⟨⟨u, n⟩, rest, hq⟩ := List.exists_cons_of_ne_nil hne
  have hk : p.owed[0]? = some (u, n) := by rw [hq]; rfl
  have hworks : ∀ a : Act, a.works = true → p.InTime a → (p.step cfg a).isSome → ∃ p', Works cfg p p' := by
    intro a hw ha hs
    obtain ⟨p', hs⟩ := Option.isSome_iff_exists.1 hs
    exact ⟨p', a, hw, ha, .act hs⟩
  cases n with
  | all | stop => exact hworks (.notifyAll 0) rfl trivial (by simp only [Pool.step, hk, Option.isSome_some])
  | one =>
    by_cases hworker : .asleep ∈ p.workers
    · obtain ⟨i, hi⟩ := List.mem_iff_getElem?.1 hworker
      refine hworks (.notifyOne 0 (some (.worker i))) rfl trivial ?_
      simp only [Pool.step, hk, wakeOne, isAsleep, hi, beq_self_eq_true, if_true, Option.isSome_some]
    · by_cases hany : ∃ x ∈ p.asleep, x.2.cv = some .queue
      · obtain ⟨x, hx, hcv⟩ := hany
        have hasleep : (p.asleep.any fun y => y.1 == x.1 && y.2.cv == some .queue) = true :=
          List.any_eq_true.2 ⟨x, hx, by rw [hcv]; simp⟩
        obtain ⟨y, hy⟩ := List.exists_mem_of_ne_nil _ h.some_worker
        refine hworks (.notifyOne 0 (some (.caller x.1))) rfl (fun hall => hworker (hall y hy ▸ hy)) ?_
        simp only [Pool.step, hk, wakeOne, isAsleep, hasleep, if_true, Option.isSome_some]
      · have hnone : { p with owed := p.owed.eraseIdx 0 }.anyAsleep = false := by
          refine Bool.or_eq_false_iff.2 ⟨List.any_eq_false.2 fun x hx he => ?_, List.any_eq_false.2 fun x hx he => ?_⟩
          · exact hworker (beq_iff_eq.1 he ▸ hx)
          · exact hany ⟨x, hx, beq_iff_eq.1 he⟩
        refine hworks (.notifyOne 0 none) rfl trivial ?_
        simp only [Pool.step, hk, wakeOne, hnone, Bool.false_eq_true, if_false, Option.isSome_some]

/-- A thread that is awake and whose guard holds can go on. -/
theorem enabled_works (howed : p.owed = []) (hen : p.conf.Enabled t) (hawake : ∀ x ∈ p.asleep, x.1 ≠ t) : ∃ p', Works cfg p p' := by
  obtain ⟨c', hm⟩ := hen.move (code cfg) {}
  have hnone : p.asleep.any (·.1 == t) = false := List.any_eq_false.2 fun x hx he => hawake x hx (beq_iff_eq.1 he)
  refine ⟨p.ran t c', .exec t {}, rfl, rfl, .act ?_⟩
  simp only [Pool.step, hnone, howed, List.any_nil, Bool.or_false, Bool.false_eq_true, if_false, hm, Option.map_some]

/-- A worker that is awake and finds a request or the stop can go on. -/
theorem serve_works {i : Nat} (hw : p.workers[i]? = some .awake) (hg : (p.conf.shared.stopping || !p.conf.shared.queue.isEmpty) = true) :
    ∃ p', Works cfg p p' := by
  have hen : Config.Enabled (⟨p.conf.shared, p.conf.threads ++ [⟨.worker, code cfg .worker⟩]⟩ : Runtime) p.conf.threads.length :=
    ⟨.worker, _, _, popRequest, _, List.getElem?_concat_length, hg⟩
  obtain ⟨c', hm⟩ := hen.move (code cfg) {}
  have hrun : p.conf.run (code cfg) [.spawn .worker, .exec p.conf.threads.length {}] = some c' := by
    show (Config.move (code cfg) ⟨p.conf.shared, p.conf.threads ++ [⟨.worker, code cfg .worker⟩]⟩ (.exec p.conf.threads.length {})).bind some = some c'
    rw [hm]
    rfl
  refine ⟨p.served i c', .serve i {}, rfl, rfl, .act ?_⟩
  simp only [Pool.step, hw, if_true, hrun, Option.map_some]

/-! ## Who waits for whom -/

theorem releasable_of_guard (hg : Wait.guard cfg (.releasable id) σ = false) : Wait.locked cfg (.releasable id) σ = false := by
  have hg : σ.releasable id = false := hg
  show Shared.releasable { σ with stopping := false } id = false
  rw [Shared.releasable] at hg ⊢
  split at hg
  · cases hg
  · rename_i q hq
    simp only [hq]
    split
    · rfl
    · rename_i ht
      rwa [if_neg ht] at hg

/-- A thread that has a page, waiters to notify or the lock, or a client with the promise of a demand, waits for nothing. -/
theorem nothing_of_bound {h : Stakes} {w : Wait} (hw : w.Admitted l h) (hb : ¬h.Free l) : w = .nothing := by
  cases w with
  | nothing => rfl
  | settled | headroom => exact absurd hw hb
  | room | releasable | result => exact absurd hw.1 hb

/-- So it is awake and can go on. -/
theorem Ok.bound_works (h : p.Ok cfg disk) (howed : p.owed = []) (hsound : Awake cfg p.conf hs) {hd : Stakes} (hh : hs[t]? = some hd)
    (hb : ∀ l, ¬hd.Free l) (hrun : p.conf.Running t) : ∃ p', Works cfg p p' := by
  obtain ⟨⟨l, q⟩, ht, hne⟩ := hrun
  cases q with
  | ret r => exact absurd rfl (hne r)
  | step g a k =>
    obtain ⟨hd', hh', w, rfl, hw⟩ := hsound.waits ht
    cases hh.symm.trans hh'
    rw [nothing_of_bound hw (hb l)] at ht
    refine enabled_works howed ⟨l, _, _, a, k, ht, rfl⟩ ?_
    rintro x hx rfl
    obtain ⟨⟨l', β', a', k', ht'⟩, -, σ, hσ⟩ := h.sleeps x hx
    rw [← guard_unique ht ht'] at hσ
    cases hσ

/-- The thread that has taken a page can go on. -/
theorem Ok.busy_works (h : p.Ok cfg disk) (hf : ∀ e ∈ p.conf.shared.history, e.releaseFailed = false) (howed : p.owed = []) {q : PageMetadata}
    (hq : p.conf.shared.table.lookup id = some q) (hfl : q.inFlight = true) : ∃ p', Works cfg p p' := by
  obtain ⟨gs, hacc⟩ := reachable_accounted (fun _ _ _ => True) (fun _ _ _ _ _ => trivial) h.reach
  obtain ⟨-, t, ho, hrun⟩ := hacc.owner hf (Keyed.lookup_some.1 hq).1 hfl
  obtain ⟨hs, hsound⟩ := h.awake
  obtain ⟨th, hth, -⟩ := show p.conf.Running t from hrun
  have hlt : t < hs.length := by
    rw [hsound.length]
    exact (List.getElem?_eq_some_iff.1 hth).1
  have hh := List.getElem?_eq_getElem hlt
  have hstake : Stake.page q.id ∈ hs[t] := by
    have hcount := Staked.pages hsound.inv (t, hs[t]) (mem_tagged.2 hh) q.id
    rw [ho, List.count_singleton_self] at hcount
    exact Multiset.count_pos.1 hcount
  exact h.bound_works howed hsound hh (fun l hfree => hfree.page q.id hstake) hrun

/-- A thread with a stake other than a page has not ended. -/
theorem running_of_stake (hsound : Awake cfg p.conf hs) {hd : Stakes} (hh : hs[t]? = some hd) {s : Stake} (hm : s ∈ hd) (hs : ∀ i, s ≠ .page i) :
    ∃ l β, ∃ (w : Wait) (a : Sec β) (k : Except Error β → Code Reply), p.conf.threads[t]? = some ⟨l, .step (w.guard cfg) a k⟩ ∧ w.Admitted l hd := by
  obtain ⟨l, β, g, a, k, ht, w, rfl, hw⟩ := hsound.unfinished hh fun l r honly => by
    obtain ⟨i, hi⟩ := honly s hm
    exact hs i hi
  exact ⟨l, β, w, a, k, ht, hw⟩

/-- The thread that has waiters to notify can go on. -/
theorem Ok.unnotified_works (h : p.Ok cfg disk) (howed : p.owed = []) {u : Nat} (hu : unnotified u p.conf.shared.history = true) :
    ∃ p', Works cfg p p' := by
  obtain ⟨hs, hsound⟩ := h.awake
  have hlt : u < hs.length := by
    rw [hsound.length]
    by_contra hle
    rw [unnotified_of_mine (mine_of_new h.reach (Nat.le_of_not_lt hle))] at hu
    cases hu
  have hh := List.getElem?_eq_getElem hlt
  have hm : Stake.waiters ∈ hs[u] := Staked.waiters hsound.inv (u, hs[u]) (mem_tagged.2 hh) hu
  obtain ⟨l, β, w, a, k, ht, -⟩ := running_of_stake hsound hh hm (by simp)
  exact h.bound_works howed hsound hh (fun l hfree => hfree.waiters hm) ⟨_, ht, fun r hr => by cases hr⟩

/-- The thread that has the headroom lock can go on. -/
theorem Ok.locked_works (h : p.Ok cfg disk) (howed : p.owed = []) (hl : p.conf.shared.headroomHeld = true) : ∃ p', Works cfg p p' := by
  obtain ⟨hs, hsound⟩ := h.awake
  obtain ⟨⟨t, hd⟩, hx, hm⟩ := Staked.headroom hsound.inv hl
  have hh := mem_tagged.1 hx
  obtain ⟨l, β, w, a, k, ht, -⟩ := running_of_stake hsound hh hm (by simp)
  exact h.bound_works howed hsound hh (fun l hfree => hfree.headroom hm) ⟨_, ht, fun r hr => by cases hr⟩

/-- When no page is in flight, nobody waits for one on `state_cv_`. -/
theorem Ok.locked_of_rest (h : p.Ok cfg disk) (hrest : ∀ id q, p.conf.shared.table.lookup id = some q → q.inFlight = false) {w : Wait}
    (hcv : w.cv = some .state) : w.locked cfg p.conf.shared = true := by
  obtain ⟨T, hi⟩ := reachable_inv h.reach
  by_contra hl
  obtain ⟨id, q, hq, hfl⟩ := hi.busy_of_locked hcv (Bool.eq_false_of_not_eq_true hl)
  rw [hrest id q hq] at hfl
  cases hfl

/-! ## No deadlock -/

section Stuck

variable (h : p.Ok cfg disk) (hf : ∀ e ∈ p.conf.shared.history, e.releaseFailed = false) (hstuck : ¬∃ p', Works cfg p p')

include h hstuck

theorem Ok.owed_of_stuck : p.owed = [] := by
  by_contra hne
  exact hstuck (h.notify_works hne)

include hf

theorem Ok.rest_of_stuck (i : PageId) (q : PageMetadata) (hq : p.conf.shared.table.lookup i = some q) : q.inFlight = false := by
  by_contra hfl
  exact hstuck (h.busy_works hf (h.owed_of_stuck hstuck) hq (Bool.eq_true_of_not_eq_false hfl))

/-- A thread that cannot go on waits, asleep or awake: a sleeper whose guard holds would have been woken. -/
theorem Ok.guard_of_stuck {g : Shared → Bool} {β : Type} {a : Sec β} {k : Except Error β → Code Reply}
    (ht : p.conf.threads[t]? = some ⟨l, .step g a k⟩) : g p.conf.shared = false := by
  have howed := h.owed_of_stuck hstuck
  by_contra hg
  have hg := Bool.eq_true_of_not_eq_false hg
  refine hstuck (enabled_works howed ⟨l, β, g, a, k, ht, hg⟩ ?_)
  rintro x hx rfl
  obtain ⟨⟨l', β', a', k', ht'⟩, hcv, -⟩ := h.sleeps x hx
  have hguard : x.2.guard cfg p.conf.shared = true := guard_unique ht ht' ▸ hg
  obtain ⟨cv, hcv⟩ := Option.isSome_iff_exists.1 hcv
  cases cv with
  | queue =>
    have hlocked : x.2.locked cfg p.conf.shared = true := by
      rw [Wait.eq_room hcv] at hguard ⊢
      exact hguard
    obtain ⟨y, hy, -⟩ := h.room x hx hcv hlocked
    rw [howed] at hy
    cases hy
  | state =>
    -- it may have missed the stop, but no page is in flight
    obtain ⟨u, hu⟩ := h.pages x hx hcv (h.locked_of_rest (h.rest_of_stuck hf hstuck) hcv)
    exact hstuck (h.unnotified_works howed hu)

/-- Pages that are taken and the headroom lock keep no thread from going on: when none can, each one that has not ended
waits for room in the queue or for the result of a demand. -/
theorem Ok.wait_of_stuck {w : Wait} {β : Type} {a : Sec β} {k : Except Error β → Code Reply}
    (ht : p.conf.threads[t]? = some ⟨l, .step (w.guard cfg) a k⟩) : w = .room ∨ ∃ k, w = .result k := by
  have hg := h.guard_of_stuck hf hstuck ht
  have hlocked : ∀ {w : Wait}, w.cv = some .state → w.locked cfg p.conf.shared ≠ false := by
    intro w hcv
    rw [h.locked_of_rest (h.rest_of_stuck hf hstuck) hcv]
    decide
  cases w with
  | nothing => cases hg
  | room => exact .inl rfl
  | result k => exact .inr ⟨k, rfl⟩
  | settled i => exact absurd (Bool.or_eq_false_iff.1 hg).2 (hlocked (w := .settled i) rfl)
  | releasable i => exact absurd (releasable_of_guard hg) (hlocked rfl)
  | headroom => exact absurd (h.locked_works (h.owed_of_stuck hstuck) ((Bool.not_eq_false' _).mp hg)) hstuck

/-- An operation that has not ended is not a worker's turn, and there is a request in the queue. -/
theorem Ok.queue_of_stuck {g : Shared → Bool} {β : Type} {a : Sec β} {k : Except Error β → Code Reply}
    (ht : p.conf.threads[t]? = some ⟨l, .step g a k⟩) : l.isWorker = false ∧ p.conf.shared.queue ≠ [] := by
  obtain ⟨hs, hsound⟩ := h.awake
  obtain ⟨hd, hh, w, rfl, hw⟩ := hsound.waits ht
  have hg := h.guard_of_stuck hf hstuck ht
  obtain rfl | ⟨i, rfl⟩ := h.wait_of_stuck hf hstuck ht
  · -- the queue is full, and it has room for one request at least
    refine ⟨hw.2, fun hq => ?_⟩
    have hfull : decide (p.conf.shared.queue.length < cfg.queueDepth) = false := (Bool.or_eq_false_iff.1 hg).2
    rw [hq] at hfull
    exact of_decide_eq_false hfull cfg.queue_pos
  · -- the demand is in the queue: a worker that had it in its hands could go on
    refine ⟨hw.2.1, ?_⟩
    have hlt := Staked.futures hsound.inv (t, hd) (mem_tagged.2 hh) i hw.2.2
    have hopen : p.conf.shared.promises[i]? = some none := by
      rw [List.getElem?_eq_getElem hlt]
      have hsat : p.conf.shared.satisfied i = false := hg
      rw [Shared.satisfied, List.getElem?_eq_getElem hlt] at hsat
      exact congrArg some (Option.isSome_eq_false_iff.1 hsat |> Option.isNone_iff_eq_none.1)
    rcases Staked.promises hsound.inv i hopen with ⟨r, hr', -⟩ | ⟨⟨u, hu⟩, hx, hm⟩
    · exact List.ne_nil_of_mem hr'
    obtain ⟨l', β', w', a', k', hu', hw'⟩ := running_of_stake hsound (mem_tagged.1 hx) hm (by simp)
    obtain rfl | ⟨j, rfl⟩ := h.wait_of_stuck hf hstuck hu'
    · exact absurd hm (hw'.1.promise hw'.2 i)
    · exact absurd hm (hw'.1.promise hw'.2.1 i)

theorem Ok.turn_of_stuck (ht : Turning p.conf t) : False := by
  obtain ⟨⟨l, q⟩, ht, hw, hne⟩ := ht
  cases q with
  | ret r => exact hne r rfl
  | step g a k =>
    have hl := (h.queue_of_stuck hf hstuck ht).1
    exact absurd (hl.symm.trans hw) Bool.false_ne_true

theorem Ok.concluded_of_stuck : Concluded p := by
  have howed := h.owed_of_stuck hstuck
  have hawake : ∀ x ∈ p.workers, (p.conf.shared.stopping || !p.conf.shared.queue.isEmpty) = true → x ≠ .awake := by
    rintro x hx hg rfl
    obtain ⟨i, hi⟩ := List.mem_iff_getElem?.1 hx
    exact hstuck (serve_works hi hg)
  have hq : p.conf.shared.queue = [] := by
    by_contra hq
    rcases h.attended hq with hne | ⟨x, hx, ha⟩
    · exact hne howed
    · have hg : (p.conf.shared.stopping || !p.conf.shared.queue.isEmpty) = true := by simp [hq]
      cases x with
      | awake => exact hawake _ hx hg rfl
      | serving t => exact h.turn_of_stuck hf hstuck (h.turns t hx)
      | asleep | exited => cases ha
  refine ⟨hq, ?_, fun hs x hx => ?_⟩
  · rintro ⟨l, q⟩ hth
    obtain ⟨t, ht⟩ := List.mem_iff_getElem?.1 hth
    cases q with
    | ret r => exact ⟨r, rfl⟩
    | step g a k => exact absurd hq (h.queue_of_stuck hf hstuck ht).2
  · cases x with
    | exited => rfl
    | awake => exact absurd rfl (hawake _ hx (by rw [hs]; rfl))
    | serving t => exact (h.turn_of_stuck hf hstuck (h.turns t hx)).elim
    | asleep =>
      obtain ⟨y, hy, -⟩ := h.stops hs hx
      rw [howed] at hy
      cases hy

end Stuck

end Pool

/-- Some thread or worker that is awake can go on or a notification can be issued, unless nothing is left to do. -/
theorem no_deadlock {n : Nat} {p : Pool} (hn : 0 < n) (hr : Pool.Run cfg (Pool.initial cfg disk n) p)
    (hf : ∀ e ∈ p.conf.shared.history, e.releaseFailed = false) : (∃ p', Pool.Works cfg p p') ∨ p.Concluded := by
  have h : p.Ok cfg disk := hr.ok (Pool.ok_initial hn)
  by_cases hw : ∃ p', Pool.Works cfg p p'
  · exact .inl hw
  · exact .inr (h.concluded_of_stuck hf hw)

namespace Pool

variable {p p' : Pool}

/-- The thread is at a guard that does not hold, while no page is in flight, the lock is free and no demand was made. -/
def Idles (p : Pool) (t : Nat) : Bool :=
  (match p.conf.threads[t]? with
    | some ⟨_, .step g _ _⟩ => !g p.conf.shared
    | _ => false) &&
  !p.conf.shared.headroomHeld && p.conf.shared.promises.isEmpty && p.conf.shared.table.items.all (!·.inFlight)

/-- Such a thread waits for room in the queue. -/
theorem Ok.at_room (h : p.Ok cfg disk) (hi : p.Idles t = true) : At cfg p.conf t .room ∧ Wait.guard cfg .room p.conf.shared = false := by
  simp only [Idles, Bool.and_eq_true, Bool.not_eq_true', List.isEmpty_iff, List.all_eq_true] at hi
  obtain ⟨⟨⟨hguard, hlock⟩, hprom⟩, hpages⟩ := hi
  split at hguard
  · rename_i l β g a k ht
    obtain ⟨hs, hsound⟩ := h.awake
    obtain ⟨hd, hh, w, rfl, hw⟩ := hsound.waits ht
    have hg : w.guard cfg p.conf.shared = false := (Bool.not_eq_true' _).mp hguard
    have hlocked : ∀ w : Wait, w.cv = some .state → w.locked cfg p.conf.shared ≠ false := by
      intro w hcv
      rw [h.locked_of_rest (fun i q hq => hpages q (Keyed.mem_bag.1 (Keyed.lookup_some.1 hq).1)) hcv]
      decide
    cases w with
    | room => exact ⟨⟨l, β, a, k, ht⟩, hg⟩
    | nothing => cases hg
    | headroom => exact absurd (hlock.symm.trans ((Bool.not_eq_false' _).mp hg)) Bool.false_ne_true
    | settled i => exact absurd (Bool.or_eq_false_iff.1 hg).2 (hlocked (.settled i) rfl)
    | releasable i => exact absurd (releasable_of_guard hg) (hlocked (.releasable i) rfl)
    | result i =>
      have hlt := Staked.futures hsound.inv (t, hd) (mem_tagged.2 hh) i hw.2.2
      rw [hprom] at hlt
      cases hlt
  · cases hguard

theorem Ok.tires (h : p.Ok cfg disk) (hi : p.Idles t = true) (hasleep : p.asleep = []) (howed : ∀ x ∈ p.owed, x.1 ≠ t) : Tires cfg p t .room := by
  obtain ⟨hat, hg⟩ := h.at_room hi
  refine ⟨hat, rfl, hg, fun x hx => ?_, howed⟩
  rw [hasleep] at hx
  cases hx

/-- The next `n` sections of a thread, with no failing call. -/
def execs (t n : Nat) : List Act := List.replicate n (.exec t {})

/-- The worker sleeps, and two pages come into the store. -/
def storeFilled : List Act :=
  .look 0 :: .spawn (.allocate { logicalBytes := 10 }) :: execs 0 6 ++ .spawn (.demoteToNvme 1) :: execs 1 11 ++
    .spawn (.allocate { logicalBytes := 10 }) :: execs 2 6 ++ .spawn (.demoteToNvme 2) :: execs 3 11

/-- A prefetch of both pages fills the queue; its first `notify_one` wakes the worker. Then a client demands one of them. -/
def queueFilled : List Act :=
  storeFilled ++ .spawn (.prefetch [1, 2]) :: execs 4 4 ++ .notifyOne 0 (some (.worker 0)) :: execs 4 4 ++ .spawn (.promote 1) :: execs 5 3

theorem run_of_steps (h : Steps (fun p a => step p cfg a) InTime p p') : Run cfg p p' :=
  Relation.ReflTransGen.mono (fun _ _ ⟨a, ha, hs⟩ => ⟨a, ha, .act hs⟩) _ _ h

/-- The client sleeps, is woken by the second `notify_one`, finds the queue still full and sleeps again. -/
theorem exists_full : ∃ p, Run (smallConfig 0 1 2) (initial (smallConfig 0 1 2) (fun _ => 0) 1) p ∧ p.asleep = [(5, .room)] ∧
    p.conf.shared.queue.length = 2 ∧ ∀ e ∈ p.conf.shared.history, e.releaseFailed = false := by
  obtain ⟨⟨conf, asleep, owed, workers⟩, hsteps, hasleep, howed, hworkers, hidle, hq, hf⟩ := Steps.of_test (fun p a => step p (smallConfig 0 1 2) a) InTime
    (initial (smallConfig 0 1 2) (fun _ => 0) 1) queueFilled
    (fun p => p.asleep.isEmpty = true ∧ p.owed = [(4, .one)] ∧ p.workers = [.awake] ∧ p.Idles 5 = true ∧ p.conf.shared.queue.length = 2 ∧
      ∀ e ∈ p.conf.shared.history, e.releaseFailed = false) (by decide +kernel)
  obtain rfl : asleep = [] := List.isEmpty_iff.1 hasleep
  obtain rfl : owed = [(4, .one)] := howed
  obtain rfl : workers = [.awake] := hworkers
  have hrun := run_of_steps hsteps
  have htires := (hrun.ok (ok_initial Nat.one_pos)).tires hidle rfl (by simp)
  have hslept := hrun.tail ⟨.sleep 5 .room, trivial, .sleep htires⟩
  have hwoken : Run (smallConfig 0 1 2) (initial (smallConfig 0 1 2) (fun _ => 0) 1) ⟨conf, [], [], [.awake]⟩ :=
    hslept.tail ⟨.notifyOne 0 (some (.caller 5)), by simp [InTime], .act rfl⟩
  have htires := (hwoken.ok (ok_initial Nat.one_pos)).tires hidle rfl (by simp)
  exact ⟨_, hwoken.tail ⟨.sleep 5 .room, trivial, .sleep htires⟩, rfl, hq, hf⟩

end Pool

theorem no_deadlock_full : ∃ p, Pool.Run (smallConfig 0 1 2) (Pool.initial (smallConfig 0 1 2) (fun _ => 0) 1) p ∧ p.asleep = [(5, .room)] ∧
    p.conf.shared.queue.length = 2 ∧ ((∃ p', Pool.Works (smallConfig 0 1 2) p p') ∨ p.Concluded) := by
  obtain ⟨p, hr, hasleep, hq, hf⟩ := Pool.exists_full
  exact ⟨p, hr, hasleep, hq, no_deadlock Nat.one_pos hr hf⟩

namespace Pool

variable {p p' : Pool}

/-- No thread is at a guard that holds, no worker is awake and no notification is to come. -/
def Halted (p : Pool) : Bool :=
  p.owed.isEmpty && p.workers.all (· != .awake) && (List.range p.conf.threads.length).all fun t => !(match p.conf.threads[t]? with
    | some ⟨_, .step g _ _⟩ => g p.conf.shared
    | _ => false)

theorem not_step_of_halted (h : p.Halted = true) {a : Act} (ha : a.works = true) : ¬Step cfg p a p' := by
  simp only [Halted, Bool.and_eq_true, List.isEmpty_iff, List.all_eq_true, List.mem_range, bne_iff_ne, Bool.not_eq_true'] at h
  obtain ⟨⟨howed, hworkers⟩, hthreads⟩ := h
  have hnone : ∀ (k : Nat) (y : Nat × Notice), p.owed[k]? ≠ some y := by
    intro k y hk
    rw [howed] at hk
    cases hk
  intro hs
  cases hs with
  | sleep => cases ha
  | act hs =>
    cases a with
    | exec t ω =>
      obtain ⟨-, c', hm, -⟩ := step_exec hs
      obtain ⟨l, β, g, b, k, ht, hg, -⟩ := move_exec hm
      have hguard := hthreads t (List.getElem?_eq_some_iff.1 ht).1
      simp only [ht, hg] at hguard
      cases hguard
    | serve i ω =>
      obtain ⟨hi, -⟩ := step_serve hs
      exact hworkers _ (List.mem_of_getElem? hi) rfl
    | notifyOne k x =>
      obtain ⟨u, hk, -⟩ := step_notifyOne hs
      exact hnone _ _ hk
    | notifyAll k =>
      obtain ⟨y, asleep, hk, -⟩ := step_notifyAll hs
      exact hnone _ _ hk
    | _ => cases ha

/-- Two prefetches fill the queue while the worker sleeps, and have their notifications to issue; then a client demands one of
the pages. -/
def bothPushed : List Act :=
  storeFilled ++ .spawn (.prefetch [1]) :: execs 4 4 ++ .spawn (.prefetch [2]) :: execs 5 4 ++ .spawn (.promote 1) :: execs 6 3

/-- Some run in which `notify_one` may wake anybody. -/
def AnyRun (cfg : RuntimeConfig) : Pool → Pool → Prop :=
  Relation.ReflTransGen fun p p' => ∃ a, (p.InTime a ∨ ∃ k x, a = .notifyOne k x) ∧ Step cfg p a p'

theorem Run.any (h : Run cfg p p') : AnyRun cfg p p' := Relation.ReflTransGen.mono (fun _ _ ⟨a, ha, hs⟩ => ⟨a, .inl ha, hs⟩) _ _ h

end Pool

/-- The condition on `notify_one` cannot be dropped: both notifications wake the client, which finds the queue full each time,
and the worker sleeps on. -/
theorem notify_one_lost : ∃ p, Pool.AnyRun (smallConfig 0 1 2) (Pool.initial (smallConfig 0 1 2) (fun _ => 0) 1) p ∧
    (∀ e ∈ p.conf.shared.history, e.releaseFailed = false) ∧ p.conf.shared.queue ≠ [] ∧
      ∀ a p', a.works = true → ¬Pool.Step (smallConfig 0 1 2) p a p' := by
  obtain ⟨⟨conf, asleep, owed, workers⟩, hsteps, hasleep, howed, hworkers, hidle, hends⟩ := Steps.of_test (fun p a => Pool.step p (smallConfig 0 1 2) a)
    Pool.InTime (Pool.initial (smallConfig 0 1 2) (fun _ => 0) 1) Pool.bothPushed
    (fun p => p.asleep.isEmpty = true ∧ p.owed = [(5, .one), (4, .one)] ∧ p.workers = [.asleep] ∧ p.Idles 6 = true ∧
      (Steps.run (fun p a => Pool.step p (smallConfig 0 1 2) a) Pool.InTime { p with owed := [] } (Pool.execs 4 1 ++ Pool.execs 5 1)).any (fun p =>
        decide ((∀ e ∈ p.conf.shared.history, e.releaseFailed = false) ∧ p.conf.shared.queue ≠ [] ∧ p.Halted = true)) = true) (by decide +kernel)
  obtain rfl : asleep = [] := List.isEmpty_iff.1 hasleep
  obtain rfl : owed = [(5, .one), (4, .one)] := howed
  obtain rfl : workers = [.asleep] := hworkers
  have hrun := Pool.run_of_steps hsteps
  have htires := (hrun.ok (Pool.ok_initial Nat.one_pos)).tires hidle rfl (by simp)
  have hwoken : Pool.AnyRun (smallConfig 0 1 2) (Pool.initial (smallConfig 0 1 2) (fun _ => 0) 1) ⟨conf, [], [(4, .one)], [.asleep]⟩ :=
    (hrun.any.tail ⟨.sleep 6 .room, .inl trivial, .sleep htires⟩).tail ⟨.notifyOne 0 (some (.caller 6)), .inr ⟨_, _, rfl⟩, .act rfl⟩
  -- nothing has changed for the client, so it sleeps again
  have htires : Pool.Tires (smallConfig 0 1 2) ⟨conf, [], [(4, .one)], [.asleep]⟩ 6 .room :=
    ⟨htires.wait, rfl, htires.locked, fun x hx => absurd hx List.not_mem_nil, by simp⟩
  have hwoken : Pool.AnyRun (smallConfig 0 1 2) (Pool.initial (smallConfig 0 1 2) (fun _ => 0) 1) ⟨conf, [], [], [.asleep]⟩ :=
    (hwoken.tail ⟨.sleep 6 .room, .inl trivial, .sleep htires⟩).tail ⟨.notifyOne 0 (some (.caller 6)), .inr ⟨_, _, rfl⟩, .act rfl⟩
  -- the two prefetches end
  obtain ⟨p, hlast, hp⟩ := (Option.any_eq_true _ _).1 hends
  obtain ⟨hf, hq, hhalted⟩ := of_decide_eq_true hp
  exact ⟨p, hwoken.trans (Pool.run_of_steps (Steps.of_run hlast)).any, hf, hq, fun a p' ha => Pool.not_step_of_halted hhalted ha⟩

/-! ## Operations end -/

/-- A section of a worker adds no request. -/
def Draws (l : Op) (β : Type) (a : Sec β) : Prop := l.isWorker = true → ∀ t ω σ, (a t ω σ).2.queue.length ≤ σ.queue.length

theorem draws_effect {β : Type} {a : Sec β} (ha : Effect l β a) : Draws l β a :=
  fun _ t ω σ => (congrArg List.length (FrontPath.tame (ha t ω σ)).queue).le

theorem draws_setPromise {k : Option Nat} {x : Except Error Unit} : Draws l Unit (setPromise k x) := by
  intro _ t ω σ
  cases k with
  | none => exact le_rfl
  | some k => exact le_rfl

theorem draws_popRequest : Draws l _ popRequest := by
  intro _ t ω σ
  unfold popRequest
  split
  · exact le_rfl
  · rename_i r rest hq
    rw [hq]
    exact Nat.le_succ _

theorem draws_of_queue {β : Type} {a : Sec β} (ha : ∀ t ω σ, (a t ω σ).2.queue = σ.queue) : Draws l β a :=
  fun _ t ω σ => (congrArg List.length (ha t ω σ)).le

theorem workerFailed_draws {r : Request} {e : Error} : (workerFailed r e).All (Draws l) := by
  have hset : (.atomic (setPromise r.completion (.error e)) : Code Unit).All (Draws l) := .atomic draws_setPromise
  have hunmark : (.atomic (unmarkPrefetched r.page) : Code Unit).All (Draws l) := .atomic (draws_of_queue fun _ _ _ => rfl)
  have hemit : (.atomic emitEvent : Code Unit).All (Draws l) := .atomic (draws_of_queue fun _ _ _ => rfl)
  unfold workerFailed
  by_cases hk : r.kind = .prefetch <;> by_cases hc : e.code = .cancelled <;> simp only [hk, hc, ne_eq, not_true_eq_false, not_false_eq_true, if_true, if_false]
  · exact .bind hunmark fun _ => hset
  · exact .bind hunmark fun _ => .bind hemit fun _ => hset
  · exact hset
  · exact .bind hemit fun _ => hset

theorem serve_draws {r : Request} : (serve cfg r).All (Draws l) := by
  have hbody : (tryCatch (do
      loadPage cfg r.page r.target
      .atomic (setPromise r.completion (.ok ()))) (workerFailed r) : Code Unit).All (Draws l) :=
    .tryCatch (.bind (loadAttempts_all.mono fun _ _ => draws_effect) fun _ => .atomic draws_setPromise) fun _ => workerFailed_draws
  unfold serve
  by_cases hk : r.kind = .prefetch
  · simp only [if_pos hk]
    exact .bind (.atomic (draws_of_queue fun _ _ _ => queue_markPrefetched)) fun _ => .bind hbody fun _ => .atomic (draws_of_queue fun _ _ _ => rfl)
  · simp only [if_neg hk]
    exact .bind hbody fun _ => trivial

theorem code_draws (l : Op) : (code cfg l).All (Draws l) := by
  cases hl : l.isWorker with
  | false => exact Prog.all_of (fun _ _ hw => by rw [hl] at hw; cases hw) _
  | true =>
    cases l with
    | worker =>
      refine .bind (.bind (.await draws_popRequest) fun r => ?_) fun _ => trivial
      cases r with
      | none => trivial
      | some r => exact serve_draws
    | _ => cases hl

/-- The worker has not exited. -/
def Station.stays : Station → Bool
  | .exited => false
  | _ => true

theorem stays_woken (x : Station) : x.woken.stays = x.stays := by
  cases x <;> rfl

namespace Pool

variable {p p' : Pool}

/-- What is left: of the operations, then the requests in the queue, then the workers, of their turns, and the notifications.
A section of an operation may add requests, but the operation has less left; a worker that looks at the queue takes a
request or exits; and a section adds a notification, but its thread has less left. -/
def remaining (p : Pool) : Multiset (Code Reply) × Nat × Nat × Multiset (Code Reply) × Nat :=
  (p.conf.left fun l => !l.isWorker, p.conf.shared.queue.length, p.workers.countP Station.stays, p.conf.left Op.isWorker, p.owed.length)

def Less (r r' : Multiset (Code Reply) × Nat × Nat × Multiset (Code Reply) × Nat) : Prop :=
  Prod.Lex (Relation.CutExpand Prog.After) (Prod.Lex (· < ·) (Prod.Lex (· < ·) (Prod.Lex (Relation.CutExpand Prog.After) (· < ·)))) r r'

theorem less_wf : WellFounded Less := by
  have hwf : WellFounded (Relation.CutExpand (Prog.After : Code Reply → Code Reply → Prop)) := Prog.after_wf.cutExpand
  have hlt : WellFounded ((· < ·) : Nat → Nat → Prop) := Nat.lt_wfRel.wf
  exact hwf.prod_lex (hlt.prod_lex (hlt.prod_lex (hwf.prod_lex hlt)))

theorem countP_map_of_stays {f : Station → Station} (hf : ∀ x, (f x).stays = x.stays) (ws : List Station) :
    (ws.map f).countP Station.stays = ws.countP Station.stays := by
  rw [List.countP_map]
  exact congrArg (List.countP · ws) (funext hf)

/-- One worker is somewhere else. -/
theorem countP_set_of_stays {ws : List Station} {i : Nat} {x y : Station} (hi : ws[i]? = some x) (hx : x.stays = true) :
    (ws.set i y).countP Station.stays + 1 = ws.countP Station.stays + if y.stays then 1 else 0 := by
  obtain ⟨hlt, hi'⟩ := List.getElem?_eq_some_iff.1 hi
  have hpos : 0 < ws.countP Station.stays := List.countP_pos_iff.2 ⟨x, List.mem_of_getElem? hi, hx⟩
  rw [List.countP_set hlt, hi', hx, if_pos rfl]
  omega

theorem countP_modify_woken (ws : List Station) : ∀ i, (ws.modify i Station.woken).countP Station.stays = ws.countP Station.stays := by
  induction ws with
  | nil => exact fun i => by simp
  | cons x ws ih =>
    intro i
    cases i with
    | zero => simp [List.countP_cons, stays_woken]
    | succ i => simp [List.countP_cons, ih i]

/-- A section leaves less: of its operation, or of the queue, or of its worker's turn. -/
theorem less_of_exec (hr : Reachable Emits (code cfg) (cfg.initial disk) p.conf) (hm : p.conf.move (code cfg) (.exec t ω) = some c') :
    Less (p.ran t c').remaining p.remaining := by
  obtain ⟨l, β, g, a, k, ht, -, hc'⟩ := move_exec hm
  have hdraws := (hr.all (fun l _ => code_draws l) _ (List.mem_of_getElem? ht)).1
  have hws : (p.ran t c').workers.countP Station.stays = p.workers.countP Station.stays := by
    refine countP_map_of_stays (fun x => ?_) p.workers
    split
    · rename_i hx
      rw [hx.1]
      rfl
    · rfl
  rcases left_exec (P := fun l : Op => !l.isWorker) ht hm with ⟨-, hcut⟩ | ⟨hw, hops⟩
  · exact Prod.Lex.left _ _ hcut
  have hw : l.isWorker = true := (Bool.not_eq_false' _).mp hw
  have hq : c'.shared.queue.length ≤ p.conf.shared.queue.length := by
    rw [hc']
    exact hdraws hw t ω p.conf.shared
  rw [remaining, remaining, show (p.ran t c').conf = c' from rfl, hops, hws]
  refine Prod.Lex.right _ ?_
  rcases hq.lt_or_eq with hlt | heq
  · exact Prod.Lex.left _ _ hlt
  rw [heq]
  rcases left_exec (P := Op.isWorker) ht hm with ⟨-, hcut⟩ | ⟨hn, -⟩
  · exact Prod.Lex.right _ (Prod.Lex.right _ (Prod.Lex.left _ _ hcut))
  · cases hw.symm.trans hn

/-- A worker that looks at the queue takes a request, or it exits. -/
theorem less_of_serve {i : Nat} (hw : p.workers[i]? = some .awake)
    (hm : p.conf.run (code cfg) [.spawn .worker, .exec p.conf.threads.length ω] = some c') : Less (p.served i c').remaining p.remaining := by
  obtain ⟨q, hthreads, -, -, hcases⟩ := enter_cases hm
  have hops : c'.left (fun l : Op => !l.isWorker) = p.conf.left fun l => !l.isWorker := by
    simp [Config.left, hthreads, Op.isWorker]
  rw [remaining, remaining, show (p.served i c').conf = c' from rfl, hops]
  refine Prod.Lex.right _ ?_
  rcases hcases with ⟨hq, hq', -⟩ | ⟨-, hlt, -⟩
  · rw [hq, hq']
    refine Prod.Lex.right _ (Prod.Lex.left _ _ ?_)
    have hcount : (p.workers.set i .exited).countP Station.stays + 1 = p.workers.countP Station.stays := countP_set_of_stays hw rfl
    show (p.workers.set i (if p.conf.shared.queue.isEmpty then .exited else .serving p.conf.threads.length)).countP _ < _
    rw [hq, List.isEmpty_nil, if_pos rfl, ← hcount]
    exact Nat.lt_succ_self _
  · exact Prod.Lex.left _ _ hlt

/-- A notification is issued; threads wake. -/
theorem less_of_notify {k : Nat} {x : Nat × Notice} (hk : p.owed[k]? = some x) (hconf : p'.conf = p.conf) (howed : p'.owed = p.owed.eraseIdx k)
    (hws : p'.workers.countP Station.stays = p.workers.countP Station.stays) : Less p'.remaining p.remaining := by
  rw [remaining, remaining, hconf, howed, hws]
  refine Prod.Lex.right _ (Prod.Lex.right _ (Prod.Lex.right _ (Prod.Lex.right _ ?_)))
  have hlt := (List.getElem?_eq_some_iff.1 hk).1
  rw [List.length_eraseIdx_of_lt hlt]
  omega

theorem countP_wake (x : Waiter) : (p.wake x).workers.countP Station.stays = p.workers.countP Station.stays := by
  cases x with
  | worker i => exact countP_modify_woken p.workers i
  | caller t => rfl

theorem conf_wake (x : Waiter) : (p.wake x).conf = p.conf ∧ (p.wake x).owed = p.owed := by
  cases x <;> exact ⟨rfl, rfl⟩

theorem Works.less (hr : Reachable Emits (code cfg) (cfg.initial disk) p.conf) (h : Works cfg p p') : Less p'.remaining p.remaining := by
  obtain ⟨a, hw, -, hs⟩ := h
  cases hs with
  | sleep => cases hw
  | act hs =>
    cases a with
    | spawn | look | sleep | spurious => cases hw
    | exec t ω =>
      obtain ⟨-, c', hm, rfl⟩ := step_exec hs
      exact less_of_exec hr hm
    | serve i ω =>
      obtain ⟨hi, c', hm, rfl⟩ := step_serve hs
      exact less_of_serve hi hm
    | notifyOne k x =>
      obtain ⟨u, hk, hw⟩ := step_notifyOne hs
      rcases wakeOne_cases hw with ⟨-, -, rfl⟩ | ⟨y, -, -, rfl⟩
      · exact less_of_notify hk rfl rfl rfl
      · exact less_of_notify hk (conf_wake y).1 (conf_wake y).2 (countP_wake y)
    | notifyAll k =>
      obtain ⟨y, asleep, hk, -, rfl⟩ := step_notifyAll hs
      exact less_of_notify hk rfl rfl (countP_map_of_stays stays_woken p.workers)

/-- A thread that falls asleep or wakes leaves as much as before. -/
theorem Rests.remaining (h : Rests cfg p p') : p'.remaining = p.remaining := by
  obtain ⟨a, hw, -, hs⟩ := h
  cases hs with
  | sleep => rfl
  | act hs =>
    cases a with
    | look i =>
      obtain ⟨hi, -, -, rfl⟩ := step_look hs
      have hws : (p.workers.set i .asleep).countP Station.stays = p.workers.countP Station.stays := Nat.succ_injective (countP_set_of_stays hi rfl)
      simp only [Pool.remaining, hws]
    | spurious x =>
      cases hs
      rw [Pool.remaining, countP_wake, (conf_wake x).1, (conf_wake x).2, Pool.remaining]
    | sleep => cases hs
    | _ => cases hw

theorem Works.ok (h : p.Ok cfg disk) (hw : Works cfg p p') : p'.Ok cfg disk := by
  obtain ⟨a, -, ha, hs⟩ := hw
  exact h.step ha hs

theorem Rests.ok (h : p.Ok cfg disk) (hw : Rests cfg p p') : p'.Ok cfg disk := by
  obtain ⟨a, -, ha, hs⟩ := hw
  exact h.step ha hs

/-- Threads fall asleep and wake, and then a section runs or a notification is issued. -/
def Advances (cfg : RuntimeConfig) (p p'' : Pool) : Prop := ∃ p', Relation.ReflTransGen (Rests cfg) p p' ∧ Works cfg p' p''

theorem remaining_of_rests (h : p.Ok cfg disk) (hr : Relation.ReflTransGen (Rests cfg) p p') : p'.Ok cfg disk ∧ p'.remaining = p.remaining := by
  induction hr with
  | refl => exact ⟨h, rfl⟩
  | tail _ hlast ih => exact ⟨hlast.ok ih.1, hlast.remaining.trans ih.2⟩

theorem Advances.less (h : p.Ok cfg disk) (ha : Advances cfg p p') : p'.Ok cfg disk ∧ Less p'.remaining p.remaining := by
  obtain ⟨q, hrests, hw⟩ := ha
  obtain ⟨hq, hsame⟩ := remaining_of_rests h hrests
  exact ⟨hw.ok hq, hsame ▸ hw.less hq.reach⟩

/-- Whatever the schedule, only finitely many sections and notifications follow. -/
theorem Ok.acc (h : p.Ok cfg disk) : Acc (fun p₂ p₁ => Advances cfg p₁ p₂) p := by
  have hacc := less_wf.apply p.remaining
  generalize hrem : p.remaining = m at hacc
  induction hacc generalizing p with
  | intro m _ ih =>
    refine ⟨p, fun p' hadv => ?_⟩
    obtain ⟨h', hless⟩ := hadv.less h
    exact ih p'.remaining (hrem ▸ hless) h' rfl

end Pool

/-- Whatever the schedule and the answers, the operations that have been started end: from every state of the pool only finitely
many sections and notifications follow, and when no more can, nothing is left to do, unless a release failed. -/
theorem operations_end {n : Nat} {p : Pool} (hn : 0 < n) (hr : Pool.Run cfg (Pool.initial cfg disk n) p) :
    Acc (fun p₂ p₁ => Pool.Advances cfg p₁ p₂) p ∧
      ∀ p', Relation.ReflTransGen (fun p₁ p₂ => Pool.Rests cfg p₁ p₂ ∨ Pool.Works cfg p₁ p₂) p p' →
        (∀ e ∈ p'.conf.shared.history, e.releaseFailed = false) → (∀ p'', ¬Pool.Works cfg p' p'') → p'.Concluded := by
  have h : p.Ok cfg disk := hr.ok (Pool.ok_initial hn)
  refine ⟨h.acc, fun p' hsteps => ?_⟩
  have h' : p'.Ok cfg disk := by
    induction hsteps with
    | refl => exact h
    | tail _ hlast ih => exact hlast.elim (fun hrest => hrest.ok ih) fun hw => hw.ok ih
  exact fun hf hstuck => h'.concluded_of_stuck hf (not_exists.2 hstuck)

theorem operations_end_full : ∃ p, Pool.Run (smallConfig 0 1 2) (Pool.initial (smallConfig 0 1 2) (fun _ => 0) 1) p ∧ p.asleep = [(5, .room)] ∧
    p.conf.shared.queue.length = 2 ∧ Acc (fun p₂ p₁ => Pool.Advances (smallConfig 0 1 2) p₁ p₂) p ∧
      ∀ p', Relation.ReflTransGen (fun p₁ p₂ => Pool.Rests (smallConfig 0 1 2) p₁ p₂ ∨ Pool.Works (smallConfig 0 1 2) p₁ p₂) p p' →
        (∀ e ∈ p'.conf.shared.history, e.releaseFailed = false) → (∀ p'', ¬Pool.Works (smallConfig 0 1 2) p' p'') → p'.Concluded := by
  obtain ⟨p, hr, hasleep, hq, -⟩ := Pool.exists_full
  exact ⟨p, hr, hasleep, hq, operations_end Nat.one_pos hr⟩

end FlashTier
