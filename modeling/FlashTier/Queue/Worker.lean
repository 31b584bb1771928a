/-
`worker_loop` by itself: what a worker does with the requests it pops, for any end of `load_page` and any
answer of the telemetry sink to the report of a failure. The runtime's model has the same turns, with
`load_page` in full.
-/
import FlashTier.Runtime.Ops

namespace FlashTier

open Conc

/-- What the clauses of `worker_loop` tell apart: an `Error`, another `std::exception`, anything else. -/
inductive Thrown where
  | error (e : Error)
  | exception (what : String)
  | unknown
  deriving DecidableEq

/-- What `record_error` is called with; a cancellation is not reported. -/
def Thrown.report : Thrown → Option Error
  | .error e => if e.code = .cancelled then none else some e
  | .exception what => some ⟨.internal, "worker exception: " ++ what, ""⟩
  | .unknown => some ⟨.internal, "worker raised a non-standard exception", ""⟩

namespace WorkerLoop

/-- How `load_page` ends in a turn, and the error of the sink when it cannot write the report. -/
structure Answers where
  load : Except Thrown Unit
  emit : Option Error := none

/-- What a worker does to the state it shares. -/
inductive Effect where
  | popped (r : Request)
  | marked (page : PageId)
  | unmarked (page : PageId)
  | reported (e : Error)
  | completed (promise : Option Nat) (result : Except Thrown Unit)
  | erased (page : PageId)

/-- What is done for a prefetch only. -/
def ifPrefetch (r : Request) (x : Effect) : List Effect := if r.kind = .prefetch then [x] else []

/-- The part of a turn before `load_page`. -/
def entry (r : Request) : List Effect := .popped r :: ifPrefetch r (.marked r.page)

/-- The handlers: the effects, and what leaves the loop. -/
def handle (r : Request) (emit : Option Error) (x : Thrown) : List Effect × Option Thrown :=
  match x.report, emit with
  | none, _ => (ifPrefetch r (.unmarked r.page) ++ [.completed r.completion (.error x)], none)
  | some e, none => (ifPrefetch r (.unmarked r.page) ++ [.reported e, .completed r.completion (.error x)], none)
  | some e, some f => (ifPrefetch r (.unmarked r.page) ++ [.reported e], some (.error f))

/-- The `try` block and its handlers. -/
def conclude (r : Request) (a : Answers) : List Effect × Option Thrown :=
  match a.load with
  | .ok () => ([.completed r.completion (.ok ())], none)
  | .error x => handle r a.emit x

/-- The part of a turn after `load_page`. -/
def exit (r : Request) (a : Answers) : List Effect × Option Thrown :=
  match conclude r a with
  | (l, some x) => (l, some x)
  | (l, none) => (l ++ ifPrefetch r (.erased r.page), none)

/-- One turn. -/
def turn (r : Request) (a : Answers) : List Effect × Option Thrown := (entry r ++ (exit r a).1, (exit r a).2)

/-- The turns for these requests in the order they are popped, up to the first that an exception leaves. -/
def loop : List (Request × Answers) → List Effect × Option Thrown
  | [] => ([], none)
  | (r, a) :: rest =>
    match turn r a with
    | (l, some x) => (l, some x)
    | (l, none) => (l ++ (loop rest).1, (loop rest).2)

/-! ## What the effects say -/

def Effect.request? : Effect → Option Request
  | .popped r => some r
  | _ => none

def Effect.promise? : Effect → Option Nat
  | .completed k _ => k
  | _ => none

def Effect.erased? : Effect → Option PageId
  | .erased page => some page
  | _ => none

/-- The page of a prefetch request. -/
def prefetchPage? (r : Request) : Option PageId := if r.kind = .prefetch then some r.page else none

/-- All requests are popped, the promise of each is satisfied once, every prefetch is erased from the pending
ones, and nothing leaves the loop. -/
structure Survives (turns : List (Request × Answers)) : Prop where
  popped : (loop turns).1.filterMap Effect.request? = turns.map Prod.fst
  completed : (loop turns).1.filterMap Effect.promise? = (turns.map Prod.fst).filterMap Request.completion
  erased : (loop turns).1.filterMap Effect.erased? = (turns.map Prod.fst).filterMap prefetchPage?
  returns : (loop turns).2 = none

/-- The report of a failure, if there is one, is written. -/
def Reports (a : Answers) : Prop := ∀ x, a.load = .error x → x.report ≠ none → a.emit = none

/-! ## One turn -/

/-- Neither a pop nor a completion nor an erasure. -/
def Effect.silent (x : Effect) : Prop := x.request? = none ∧ x.promise? = none ∧ x.erased? = none

theorem silent_unmarked (r : Request) : ∀ x ∈ ifPrefetch r (.unmarked r.page), x.silent := by
  unfold ifPrefetch
  split
  · intro x hx
    cases List.mem_singleton.1 hx
    exact ⟨rfl, rfl, rfl⟩
  · exact fun x hx => (List.not_mem_nil hx).elim

theorem conclude_returns {r : Request} {a : Answers} : (conclude r a).2 = none ↔ Reports a := by
  unfold conclude Reports
  cases a.load with
  | ok u => simp
  | error x =>
    unfold handle
    cases hr : x.report with
    | none => simp [hr]
    | some e => cases a.emit <;> simp [hr]

/-- When nothing leaves the handlers, they end with the completion of the request. -/
theorem conclude_effects {r : Request} {a : Answers} (h : (conclude r a).2 = none) :
    ∃ pre x, (conclude r a).1 = pre ++ [.completed r.completion x] ∧ ∀ x ∈ pre, x.silent := by
  revert h
  unfold conclude
  cases a.load with
  | ok u => exact fun _ => ⟨[], .ok (), rfl, fun _ hx => (List.not_mem_nil hx).elim⟩
  | error x =>
    simp only [handle]
    cases x.report with
    | none => exact fun _ => ⟨_, .error x, rfl, silent_unmarked r⟩
    | some e =>
      cases a.emit with
      | none =>
        refine fun _ => ⟨ifPrefetch r (.unmarked r.page) ++ [.reported e], .error x, by simp, fun x hx => ?_⟩
        rcases List.mem_append.1 hx with hx | hx
        · exact silent_unmarked r x hx
        · cases List.mem_singleton.1 hx
          exact ⟨rfl, rfl, rfl⟩
      | some f =>
        intro h
        cases h

theorem exit_of_returns {r : Request} {a : Answers} (h : (conclude r a).2 = none) :
    exit r a = ((conclude r a).1 ++ ifPrefetch r (.erased r.page), none) := by
  have hc : conclude r a = ((conclude r a).1, none) := by rw [← h]
  rw [exit, hc]

theorem exit_returns {r : Request} {a : Answers} : (exit r a).2 = none ↔ Reports a := by
  rw [← conclude_returns (r := r)]
  unfold exit
  rcases conclude r a with ⟨l, _ | x⟩ <;> simp

/-- What the effects of a turn say when nothing leaves it. -/
theorem exit_effects {r : Request} {a : Answers} (h : Reports a) :
    (exit r a).1.filterMap Effect.request? = [] ∧ (exit r a).1.filterMap Effect.promise? = r.completion.toList ∧
      (exit r a).1.filterMap Effect.erased? = (prefetchPage? r).toList := by
  have hreturns : (conclude r a).2 = none := conclude_returns.2 h
  obtain ⟨pre, x, hpre, hsilent⟩ := conclude_effects hreturns
  have hr : pre.filterMap Effect.request? = [] := List.filterMap_eq_nil_iff.2 fun x hx => (hsilent x hx).1
  have hp : pre.filterMap Effect.promise? = [] := List.filterMap_eq_nil_iff.2 fun x hx => (hsilent x hx).2.1
  have he : pre.filterMap Effect.erased? = [] := List.filterMap_eq_nil_iff.2 fun x hx => (hsilent x hx).2.2
  simp only [exit_of_returns hreturns, hpre, List.filterMap_append, hr, hp, he, List.nil_append]
  unfold ifPrefetch prefetchPage?
  refine ⟨?_, ?_, ?_⟩
  · split <;> rfl
  · cases r.completion <;> split <;> rfl
  · split <;> rfl

theorem entry_effects (r : Request) :
    (entry r).filterMap Effect.request? = [r] ∧ (entry r).filterMap Effect.promise? = [] ∧ (entry r).filterMap Effect.erased? = [] := by
  unfold entry ifPrefetch
  split <;> simp [Effect.request?, Effect.promise?, Effect.erased?]

/-! ## The loop -/

theorem loop_cons_returns {r : Request} {a : Answers} (rest : List (Request × Answers)) (h : (exit r a).2 = none) :
    loop ((r, a) :: rest) = ((turn r a).1 ++ (loop rest).1, (loop rest).2) := by
  have ht : turn r a = ((turn r a).1, none) := by rw [← h]; rfl
  rw [loop, ht]

theorem loop_returns : ∀ turns : List (Request × Answers), (loop turns).2 = none ↔ ∀ x ∈ turns, Reports x.2
  | [] => by simp [loop]
  | (r, a) :: rest => by
    rw [List.forall_mem_cons, ← loop_returns rest, ← exit_returns (r := r)]
    cases h : (exit r a).2 with
    | none => simp [loop_cons_returns rest h]
    | some x =>
      have ht : turn r a = ((turn r a).1, some x) := by rw [← h]; rfl
      rw [loop, ht]
      simp

/-- A worker survives exactly when the sink writes the reports of the failures it meets. -/
theorem worker_survives (turns : List (Request × Answers)) : Survives turns ↔ ∀ x ∈ turns, Reports x.2 := by
  refine ⟨fun h => (loop_returns turns).1 h.returns, fun h => ?_⟩
  induction turns with
  | nil => exact ⟨rfl, rfl, rfl, rfl⟩
  | cons x rest ih =>
    obtain ⟨r, a⟩ := x
    obtain ⟨ha, hrest⟩ := List.forall_mem_cons.1 h
    have ih := ih hrest
    have hexit : (exit r a).2 = none := exit_returns.2 ha
    have hloop := loop_cons_returns rest hexit
    obtain ⟨hp, hc, he⟩ := exit_effects ha (r := r)
    obtain ⟨hp', hc', he'⟩ := entry_effects r
    refine ⟨?_, ?_, ?_, by rw [hloop]; exact ih.returns⟩
    · simp only [hloop, turn, List.filterMap_append, hp, hp', ih.popped, List.append_nil, List.singleton_append, List.map_cons]
    · simp only [hloop, turn, List.filterMap_append, hc, hc', ih.completed, List.nil_append, List.map_cons]
      cases hk : r.completion <;> simp [hk]
    · simp only [hloop, turn, List.filterMap_append, he, he', ih.erased, List.nil_append, List.map_cons]
      cases hq : prefetchPage? r <;> simp [hq]

/-- A full disk fails the load of a demand and the report of the failure: the exception leaves the loop and the
promise is not satisfied. -/
theorem worker_dies : ¬Survives [(⟨.demand, 1, .hostPinned, some 0⟩,
    ⟨.error (.error ⟨.io, "NVMe writeback did not complete in full", ""⟩), some ⟨.io, "failed to write JSONL telemetry", ""⟩⟩)] :=
  fun h => by cases h.returns

/-! ## The turns of the runtime's model -/

/-- What ends a section of the runtime's model. -/
def result : Except Error Unit → Except Thrown Unit
  | .ok () => .ok ()
  | .error e => .error (.error e)

/-- The sections of the runtime's model that have an effect; a pop is its own step there. -/
def Effect.sections : Effect → List (Σ β : Type, Sec β)
  | .popped _ => []
  | .marked page => [⟨Unit, markPrefetched page⟩]
  | .unmarked page => [⟨Unit, unmarkPrefetched page⟩]
  | .reported _ => [⟨Unit, emitEvent⟩]
  | .completed k (.ok ()) => [⟨Unit, setPromise k (.ok ())⟩]
  | .completed k (.error (.error e)) => [⟨Unit, setPromise k (.error e)⟩]
  | .completed _ (.error _) => []
  | .erased page => [⟨Unit, finishPrefetch page⟩]

variable {cfg : RuntimeConfig} {t : Nat} {r : Request} {l : List (Σ β : Type, Sec β)} {x : Except Error Unit}

/-- Some state, for the paths through sections that look at none. -/
def anyState (cfg : RuntimeConfig) : Shared := cfg.initial fun _ => 0

theorem path_returns (cfg : RuntimeConfig) {a : Sec Unit} (ha : ∀ ω σ, (a t ω σ).1 = .ok ()) :
    Prog.Path t (.atomic a : Code Unit) l x ↔ l = [⟨Unit, a⟩] ∧ x = .ok () := by
  rw [Prog.path_atomic]
  refine and_congr_right fun _ => ⟨?_, ?_⟩
  · rintro ⟨ω, σ, rfl⟩
    exact ha ω σ
  · rintro rfl
    exact ⟨{}, anyState cfg, ha _ _⟩

theorem path_emit (cfg : RuntimeConfig) :
    Prog.Path t (.atomic emitEvent : Code Unit) l x ↔ l = [⟨Unit, emitEvent⟩] ∧ ∃ emit : Option Error, x = match emit with
      | none => .ok ()
      | some e => .error e := by
  rw [Prog.path_atomic]
  refine and_congr_right fun _ => ⟨?_, ?_⟩
  · rintro ⟨ω, σ, rfl⟩
    refine ⟨ω.emit, ?_⟩
    unfold emitEvent
    cases ω.emit <;> rfl
  · rintro ⟨emit, rfl⟩
    exact ⟨{ emit := emit }, anyState cfg, by cases emit <;> rfl⟩

/-- A part of a program that always goes through the same sections and returns. -/
theorem path_bind_returns (cfg : RuntimeConfig) {a : Sec Unit} {f : Unit → Code Unit} (ha : ∀ ω σ, (a t ω σ).1 = .ok ()) :
    Prog.Path t (.atomic a >>= f) l x ↔ ∃ l₂, Prog.Path t (f ()) l₂ x ∧ l = [⟨Unit, a⟩] ++ l₂ := by
  rw [Prog.path_bind]
  constructor
  · rintro ⟨l₁, z, l₂, h, hf, rfl⟩
    obtain ⟨rfl, rfl⟩ := (path_returns cfg ha).1 h
    exact ⟨l₂, hf, rfl⟩
  · rintro ⟨l₂, hf, rfl⟩
    exact ⟨_, .ok (), l₂, (path_returns cfg ha).2 ⟨rfl, rfl⟩, hf, rfl⟩

/-- A section that is run for a prefetch only. -/
theorem path_ifPrefetch (cfg : RuntimeConfig) (r : Request) {a : Sec Unit} {f : Unit → Code Unit} (e : Effect)
    (he : e.sections = [⟨Unit, a⟩]) (ha : ∀ ω σ, (a t ω σ).1 = .ok ()) :
    Prog.Path t (if r.kind = .prefetch then .atomic a >>= f else f ()) l x ↔
      ∃ l₂, Prog.Path t (f ()) l₂ x ∧ l = (ifPrefetch r e).flatMap Effect.sections ++ l₂ := by
  unfold ifPrefetch
  split
  · rw [path_bind_returns cfg ha, List.flatMap_singleton, he]
  · exact ⟨fun h => ⟨l, h, rfl⟩, fun ⟨_, h, hl⟩ => hl ▸ h⟩

theorem path_ifPrefetch_last (cfg : RuntimeConfig) (r : Request) {a : Sec Unit} (e : Effect)
    (he : e.sections = [⟨Unit, a⟩]) (ha : ∀ ω σ, (a t ω σ).1 = .ok ()) :
    Prog.Path t (if r.kind = .prefetch then .atomic a else pure () : Code Unit) l x ↔
      l = (ifPrefetch r e).flatMap Effect.sections ∧ x = .ok () := by
  unfold ifPrefetch
  split
  · rw [path_returns cfg ha, List.flatMap_singleton, he]
  · exact Prog.path_ret

/-- How a part of the turn ends. -/
def outcome : Option Thrown → Except Thrown Unit
  | none => .ok ()
  | some x => .error x

theorem result_ok : result x = .ok () ↔ x = .ok () := by
  cases x <;> simp [result]

theorem result_error {e : Error} : result x = .error (.error e) ↔ x = .error e := by
  cases x <;> simp [result]

/-- The handlers of the runtime's model. -/
theorem workerFailed_path (cfg : RuntimeConfig) (r : Request) (e : Error) :
    Prog.Path t (workerFailed r e) l x ↔ ∃ emit, l = (handle r emit (.error e)).1.flatMap Effect.sections ∧
      result x = outcome (handle r emit (.error e)).2 := by
  unfold workerFailed
  dsimp only
  rw [path_ifPrefetch cfg r (.unmarked r.page) rfl fun _ _ => rfl]
  by_cases hc : e.code = .cancelled
  · have hreport : (Thrown.error e).report = none := if_pos hc
    simp only [hc, ne_eq, not_true_eq_false, if_false, handle, hreport, path_returns cfg (a := setPromise _ _) fun _ _ => rfl,
      List.flatMap_append]
    constructor
    · rintro ⟨_, ⟨rfl, rfl⟩, rfl⟩
      exact ⟨none, rfl, rfl⟩
    · rintro ⟨_, rfl, hx⟩
      exact ⟨_, ⟨rfl, result_ok.1 hx⟩, rfl⟩
  · have hreport : (Thrown.error e).report = some e := if_neg hc
    simp only [hc, ne_eq, not_false_eq_true, if_true]
    constructor
    · rintro ⟨l₂, h, rfl⟩
      obtain ⟨l₁, y, l₂, hemit, h, rfl⟩ := Prog.path_bind.1 h
      obtain ⟨rfl, emit, rfl⟩ := (path_emit cfg).1 hemit
      refine ⟨emit, ?_⟩
      cases emit with
      | none =>
        obtain ⟨rfl, rfl⟩ := (path_returns cfg fun _ _ => rfl).1 h
        exact ⟨by simp only [handle, hreport, List.flatMap_append]; rfl, by simp only [handle, hreport]; rfl⟩
      | some f =>
        obtain ⟨rfl, rfl⟩ := Prog.path_ret.1 h
        exact ⟨by simp only [handle, hreport, List.flatMap_append]; rfl, by simp only [handle, hreport]; rfl⟩
    · rintro ⟨emit, rfl, hx⟩
      cases emit with
      | none =>
        simp only [handle, hreport] at hx ⊢
        refine ⟨_, Prog.path_bind.2 ⟨_, _, _, (path_emit cfg).2 ⟨rfl, none, rfl⟩, ?_, rfl⟩, List.flatMap_append⟩
        exact (path_returns cfg fun _ _ => rfl).2 ⟨rfl, result_ok.1 hx⟩
      | some f =>
        simp only [handle, hreport] at hx ⊢
        refine ⟨_, Prog.path_bind.2 ⟨_, _, [], (path_emit cfg).2 ⟨rfl, some f, rfl⟩, ?_, rfl⟩, List.flatMap_append⟩
        exact Prog.path_ret.2 ⟨rfl, result_error.1 hx⟩

/-- The `try` block and its handlers, in the runtime's model. -/
theorem conclude_path (cfg : RuntimeConfig) (r : Request) (load : Code Unit) :
    Prog.Path t (tryCatch (do load; .atomic (setPromise r.completion (.ok ()))) (workerFailed r)) l x ↔
      ∃ l₁ y emit, Prog.Path t load l₁ y ∧ l = l₁ ++ (conclude r ⟨result y, emit⟩).1.flatMap Effect.sections ∧
        result x = outcome (conclude r ⟨result y, emit⟩).2 := by
  rw [Prog.path_tryCatch]
  constructor
  · rintro ⟨_, z, l₃, hbody, hhandler, rfl⟩
    obtain ⟨l₁, y, l₂, hload, hset, rfl⟩ := Prog.path_bind.1 hbody
    cases y with
    | ok u =>
      obtain ⟨rfl, rfl⟩ := (path_returns cfg fun _ _ => rfl).1 hset
      obtain ⟨rfl, rfl⟩ := Prog.path_ret.1 hhandler
      exact ⟨l₁, .ok u, none, hload, List.append_nil _, rfl⟩
    | error e =>
      obtain ⟨rfl, rfl⟩ := Prog.path_ret.1 hset
      obtain ⟨emit, rfl, hx⟩ := (workerFailed_path cfg r e).1 hhandler
      exact ⟨l₁, .error e, emit, hload, by rw [List.append_nil]; rfl, hx⟩
  · rintro ⟨l₁, y, emit, hload, rfl, hx⟩
    cases y with
    | ok u =>
      refine ⟨_, .ok (), [], Prog.path_bind.2 ⟨l₁, .ok u, _, hload, (path_returns cfg fun _ _ => rfl).2 ⟨rfl, rfl⟩, rfl⟩, ?_,
        (List.append_nil _).symm⟩
      exact Prog.path_ret.2 ⟨rfl, result_ok.1 hx⟩
    | error e =>
      refine ⟨l₁, .error e, _, Prog.path_bind.2 ⟨l₁, .error e, [], hload, Prog.path_ret.2 ⟨rfl, rfl⟩, (List.append_nil _).symm⟩,
        ?_, rfl⟩
      exact (workerFailed_path cfg r e).2 ⟨emit, rfl, hx⟩

/-- A turn of the runtime's model goes through the sections of `turn`, with those of `load_page` where it is
called, and ends as it does. -/
theorem serve_path (cfg : RuntimeConfig) (r : Request) :
    Prog.Path t (serve cfg r) l x ↔ ∃ l₁ y emit, Prog.Path t (loadPage cfg r.page r.target) l₁ y ∧
      l = (entry r).flatMap Effect.sections ++ (l₁ ++ (exit r ⟨result y, emit⟩).1.flatMap Effect.sections) ∧
      result x = outcome (exit r ⟨result y, emit⟩).2 := by
  unfold serve
  dsimp only
  rw [path_ifPrefetch cfg r (.marked r.page) rfl fun _ _ => rfl]
  constructor
  · rintro ⟨_, h, rfl⟩
    obtain ⟨_, z, l₃, hc, hfinish, rfl⟩ := Prog.path_bind.1 h
    obtain ⟨l₁, y, emit, hload, rfl, hz⟩ := (conclude_path cfg r _).1 hc
    refine ⟨l₁, y, emit, hload, ?_⟩
    unfold exit
    -- what leaves the handlers leaves the turn; else the prefetch is erased
    rcases hcase : conclude r ⟨result y, emit⟩ with ⟨effects, _ | thrown⟩ <;> rw [hcase] at hz
    · cases result_ok.1 hz
      obtain ⟨rfl, rfl⟩ := (path_ifPrefetch_last cfg r (.erased r.page) rfl fun _ _ => rfl).1 hfinish
      exact ⟨by simp [entry, Effect.sections], rfl⟩
    · cases z with
      | ok u => cases hz
      | error e =>
        obtain ⟨rfl, rfl⟩ := Prog.path_ret.1 hfinish
        exact ⟨by simp [entry, Effect.sections], hz⟩
  · rintro ⟨l₁, y, emit, hload, rfl, hx⟩
    refine ⟨_, ?_, rfl⟩
    unfold exit at hx ⊢
    rcases hcase : conclude r ⟨result y, emit⟩ with ⟨effects, _ | thrown⟩ <;> rw [hcase] at hx
    · refine Prog.path_bind.2 ⟨_, .ok (), _, (conclude_path cfg r _).2 ⟨l₁, y, emit, hload, rfl, ?_⟩,
        (path_ifPrefetch_last cfg r (.erased r.page) rfl fun _ _ => rfl).2 ⟨rfl, result_ok.1 hx⟩, ?_⟩
      · rw [hcase]
        rfl
      · rw [hcase, List.flatMap_append, List.append_assoc]
    · cases x with
      | ok u => cases hx
      | error e =>
        refine Prog.path_bind.2 ⟨_, .error e, [], (conclude_path cfg r _).2 ⟨l₁, y, emit, hload, rfl, ?_⟩,
          Prog.path_ret.2 ⟨rfl, rfl⟩, ?_⟩
        · rw [hcase]
          exact hx
        · rw [hcase, List.append_nil]

end WorkerLoop

end FlashTier
