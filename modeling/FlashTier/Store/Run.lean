/-
One operation in the hands of a worker, from its first kernel call to the published end (`Impl::run`,
`nvme_backend.cpp`), for every way the kernel may split the transfer. In the running backend, whatever the
other threads do in between, a worker goes through just these events.
-/
import FlashTier.Codec.Pieces
import FlashTier.Store.Settlement

namespace FlashTier

open Codec

/-! ## The run of an operation -/

/-- What `Impl::run` does: a kernel call at a place of the buffer and of the file, the release of the
extents, the publication of the end. -/
inductive RunEvent where
  | call (buffer file requested : Nat) (r : IoResult)
  | retire (firstExtent extentCount : Nat)
  | publish (outcome : OpOutcome)
  deriving DecidableEq, Repr

/-- What a worker does with the operation in its hands when its calls return these results, and where it is
after that. -/
def Worker.run : Worker → List IoResult → List RunEvent × Worker
  | .running ctx total, r :: rest =>
    ((.call total (ctx.offset + total) (ctx.bytes - total) r) :: ((ctx.turn total r).run rest).1, ((ctx.turn total r).run rest).2)
  | .retiring ctx outcome, _ => ([.retire ctx.firstExtent ctx.extentCount, .publish outcome], .waiting)
  | .publishing _ outcome, _ => ([.publish outcome], .waiting)
  | x, _ => ([], x)

/-- How the loop goes on after a result. -/
def IoResult.turn : IoResult → Turn
  | .interrupted => .again
  | .failed _ | .zero => .stop
  | .moved n => .advance n

theorem IoResult.turn_eq_again {r : IoResult} : r.turn = .again ↔ r = .interrupted := by
  cases r <;> simp [IoResult.turn]

/-- The part of the transfer that a call made. -/
def RunEvent.piece : RunEvent → Option Piece
  | .call buffer _ _ (.moved n) => some ⟨buffer, n⟩
  | _ => none

/-- The bytes that a call moved: of the buffer, and of the file. -/
def RunEvent.moves : RunEvent → List (Nat × Nat)
  | .call buffer file _ (.moved n) => (List.range n).map fun k => (buffer + k, file + k)
  | _ => []

namespace OpContext

variable {ctx : OpContext}

/-- A call for the rest of the operation, at the place that belongs to the buffer's. -/
def Calls (ctx : OpContext) : RunEvent → Prop
  | .call buffer file requested _ => buffer < ctx.bytes ∧ file = ctx.offset + buffer ∧ requested = ctx.bytes - buffer
  | _ => False

/-- The error of a result that stops the loop. -/
def failure (ctx : OpContext) : IoResult → Error
  | .failed message => ctx.ioFailed message
  | _ => ctx.noProgress

/-- The end of an operation. -/
def finish (ctx : OpContext) (outcome : OpOutcome) : List RunEvent := [.retire ctx.firstExtent ctx.extentCount, .publish outcome]

/-- Where the loop's ending leaves the worker: in the loop, or done with the operation retired and then
published. -/
def Ran (ctx : OpContext) (calls : List RunEvent) (out : List RunEvent × Worker) : Option (Ending IoResult) → Prop
  | none => ∃ t, out = (calls, .running ctx t)
  | some .complete => out = (calls ++ ctx.finish (.complete ctx.bytes), .waiting)
  | some (.stopped r) => out = (calls ++ ctx.finish (.fail (ctx.failure r)), .waiting)

theorem ran_complete (calls : List RunEvent) : ctx.Ran calls (calls ++ ctx.finish (.complete ctx.bytes), .waiting) (some .complete) := by
  rw [Ran]

theorem ran_stopped (calls : List RunEvent) (r : IoResult) :
    ctx.Ran calls (calls ++ ctx.finish (.fail (ctx.failure r)), .waiting) (some (.stopped r)) := by
  rw [Ran]

theorem Ran.cons {calls : List RunEvent} {out : List RunEvent × Worker} {ending : Option (Ending IoResult)} (h : ctx.Ran calls out ending)
    (e : RunEvent) : ctx.Ran (e :: calls) (e :: out.1, out.2) ending := by
  rcases ending with _ | _ | r
  · obtain ⟨t, rfl⟩ := h
    exact ⟨t, rfl⟩
  · obtain rfl : out = _ := h
    exact ran_complete (e :: calls)
  · obtain rfl : out = _ := h
    exact ran_stopped (e :: calls) r

/-- The calls of a run are those of the loop. -/
theorem run_spec {results : List IoResult} {total : Nat} (hl : Lawful IoResult.turn ctx.bytes total results) (ht : total < ctx.bytes) :
    ∃ calls, (∀ e ∈ calls, ctx.Calls e) ∧ calls.filterMap RunEvent.piece = (transfer IoResult.turn ctx.bytes total results).pieces ∧
      ctx.Ran calls ((Worker.running ctx total).run results) (transfer IoResult.turn ctx.bytes total results).ending := by
  induction results generalizing total with
  | nil => exact ⟨[], fun e he => (by cases he), rfl, total, rfl⟩
  | cons r rest ih =>
    -- the call goes before those of the rest of the loop
    have hmore : ∀ calls : List RunEvent, (∀ e ∈ calls, ctx.Calls e) →
        ∀ e ∈ RunEvent.call total (ctx.offset + total) (ctx.bytes - total) r :: calls, ctx.Calls e := by
      intro calls hcalls e he
      rcases List.mem_cons.1 he with rfl | he
      · exact ⟨ht, rfl, rfl⟩
      · exact hcalls e he
    have hone := hmore [] fun e he => (by cases he)
    cases r with
    | interrupted =>
      obtain ⟨calls, hcalls, hpieces, hend⟩ := ih hl ht
      exact ⟨_, hmore calls hcalls, hpieces, hend.cons _⟩
    | failed message =>
      refine ⟨_, hone, rfl, ?_⟩
      simp only [transfer, IoResult.turn, Worker.run, OpContext.turn]
      exact ran_stopped _ (.failed message)
    | zero =>
      refine ⟨_, hone, rfl, ?_⟩
      simp only [transfer, IoResult.turn, Worker.run, OpContext.turn]
      exact ran_stopped _ .zero
    | moved n =>
      obtain ⟨hn, hle, hrest⟩ : 0 < n ∧ total + n ≤ ctx.bytes ∧ (total + n < ctx.bytes → Lawful IoResult.turn ctx.bytes (total + n) rest) := hl
      by_cases hlt : total + n < ctx.bytes
      · obtain ⟨calls, hcalls, hpieces, hend⟩ := ih (hrest hlt) hlt
        refine ⟨_, hmore calls hcalls, ?_, ?_⟩
        · simp only [transfer, IoResult.turn, if_pos hlt, Transfer.after, List.filterMap_cons, RunEvent.piece, hpieces]
        · simp only [transfer, IoResult.turn, if_pos hlt, Transfer.after, Worker.run, OpContext.turn]
          exact hend.cons _
      · have hall : total + n = ctx.bytes := by omega
        refine ⟨_, hone, ?_, ?_⟩
        · simp only [transfer, IoResult.turn, if_neg hlt, List.filterMap_cons, List.filterMap_nil, RunEvent.piece]
        · simp only [transfer, IoResult.turn, if_neg hlt, Worker.run, OpContext.turn]
          rw [hall]
          exact ran_complete _

/-- The byte of the file that belongs to a byte of the buffer. -/
def paired (ctx : OpContext) (i : Nat) : Nat × Nat := (i, ctx.offset + i)

theorem moves_of_calls {e : RunEvent} (h : ctx.Calls e) : e.moves = (e.piece.toList.flatMap Piece.positions).map ctx.paired := by
  cases e with
  | call buffer file requested r =>
    obtain ⟨-, rfl, -⟩ := h
    cases r with
    | moved n =>
      simp [RunEvent.moves, RunEvent.piece, Piece.positions, List.range'_eq_map_range, Function.comp_def, paired, Nat.add_assoc]
    | _ => rfl
  | retire => exact h.elim
  | publish => exact h.elim

/-- The bytes the calls moved, in order, are those of their pieces, each with its own byte of the file. -/
theorem flatMap_moves {calls : List RunEvent} (h : ∀ e ∈ calls, ctx.Calls e) :
    calls.flatMap RunEvent.moves = ((calls.filterMap RunEvent.piece).flatMap Piece.positions).map ctx.paired := by
  induction calls with
  | nil => rfl
  | cons e calls ih =>
    have he := moves_of_calls (h e List.mem_cons_self)
    have hcalls := ih fun e' he' => h e' (List.mem_cons_of_mem _ he')
    rw [List.flatMap_cons, he, hcalls, ← List.map_append]
    rcases hp : e.piece with _ | p <;> simp [hp]

/-- However the kernel splits the transfer: a run that ends has made calls, each for the rest of the
operation, then retired the extents once and then published its end. It is complete if the results move all the
bytes, and then the calls moved every byte of the buffer, in order and once, from or to its own byte of the file, and
that is the count it publishes. Otherwise it failed with the error of the first result that stops the loop, and they
moved the first so many, as many as the results before that move. With finitely many interruptions it ends. -/
theorem run_exact (ctx : OpContext) (hb : 1 ≤ ctx.bytes) :
    (∀ results, Lawful IoResult.turn ctx.bytes 0 results → ((Worker.running ctx 0).run results).2 = .waiting →
      ∃ calls outcome,
        ((Worker.running ctx 0).run results).1 = calls ++ [.retire ctx.firstExtent ctx.extentCount, .publish outcome] ∧
        (∀ e ∈ calls, ctx.Calls e) ∧
        ((∃ done, outcome = .complete done ∧ done = ctx.bytes ∧ ctx.bytes ≤ advanced IoResult.turn results ∧
            calls.flatMap RunEvent.moves = (List.range ctx.bytes).map fun i => (i, ctx.offset + i)) ∨
          ∃ r t, outcome = .fail (ctx.failure r) ∧ results.find? (fun r => r.turn == .stop) = some r ∧ t < ctx.bytes ∧
            t = advanced IoResult.turn results ∧ calls.flatMap RunEvent.moves = (List.range t).map fun i => (i, ctx.offset + i))) ∧
    ∀ results : Nat → IoResult, (∀ k, Lawful IoResult.turn ctx.bytes 0 (firstOf results k)) →
      (∃ last, ∀ i, last ≤ i → results i ≠ .interrupted) → ∃ k, ((Worker.running ctx 0).run (firstOf results k)).2 = .waiting := by
  refine ⟨?_, ?_⟩
  · intro results hl hdone
    obtain ⟨calls, hcalls, hpieces, hran⟩ := run_spec hl hb
    have hmoves : ∀ {t}, Tiles 0 (transfer IoResult.turn ctx.bytes 0 results).pieces t →
        calls.flatMap RunEvent.moves = (List.range t).map fun i => (i, ctx.offset + i) := fun htiles => by
      rw [flatMap_moves hcalls, hpieces, htiles.flatMap_positions, Nat.sub_zero, List.range_eq_range']
      rfl
    rcases hending : (transfer IoResult.turn ctx.bytes 0 results).ending with _ | _ | r
    · rw [hending] at hran
      obtain ⟨t, hrun⟩ := hran
      rw [hrun] at hdone
      cases hdone
    · rw [hending] at hran
      obtain ⟨t, htiles, -, hcomplete⟩ := transfer_tiles hl hb
      obtain rfl := hcomplete.1 hending
      have hall := transfer_complete hending
      rw [Nat.zero_add] at hall
      exact ⟨calls, _, congrArg Prod.fst hran, hcalls, .inl ⟨_, rfl, rfl, hall, hmoves htiles⟩⟩
    · rw [hending] at hran
      obtain ⟨htiles, hlt, hfind⟩ := transfer_stopped hl hb hending
      rw [Nat.zero_add] at htiles hlt
      exact ⟨calls, _, congrArg Prod.fst hran, hcalls, .inr ⟨r, _, rfl, hfind, hlt, rfl, hmoves htiles⟩⟩
  · rintro results hl ⟨last, hlast⟩
    have hagain : ∀ i, last ≤ i → (results i).turn ≠ .again := fun i hi h => hlast i hi (IoResult.turn_eq_again.1 h)
    obtain ⟨k, hk⟩ := transfer_ends _ last le_rfl hb hagain hl
    obtain ⟨calls, -, -, hran⟩ := run_spec (hl k) hb
    refine ⟨k, ?_⟩
    rcases hending : (transfer IoResult.turn ctx.bytes 0 (firstOf results k)).ending with _ | _ | r
    · exact absurd hending hk
    · rw [hending] at hran
      exact congrArg Prod.snd hran
    · rw [hending] at hran
      exact congrArg Prod.snd hran

/-- A page in two reads, with an interruption between them. -/
theorem run_exact_short : ((Worker.running ⟨0, 8192, 4096, 1, 1, true⟩ 0).run [.moved 1000, .interrupted, .moved 3096]).2 = .waiting ∧
    ∃ calls, ((Worker.running ⟨0, 8192, 4096, 1, 1, true⟩ 0).run [.moved 1000, .interrupted, .moved 3096]).1 =
        calls ++ [.retire 1 1, .publish (.complete 4096)] ∧
      calls.flatMap RunEvent.moves = (List.range 4096).map fun i => (i, 8192 + i) := by
  have hl : Lawful IoResult.turn 4096 0 [.moved 1000, .interrupted, .moved 3096] := by simp [Lawful, IoResult.turn]
  obtain ⟨calls, outcome, hrun, -, hout⟩ :=
    (run_exact ⟨0, 8192, 4096, 1, 1, true⟩ (by decide)).1 [.moved 1000, .interrupted, .moved 3096] hl (by decide)
  rcases hout with ⟨done, rfl, rfl, -, hmoves⟩ | ⟨r, t, -, hfind, -⟩
  · exact ⟨by decide, calls, hrun, hmoves⟩
  · cases hfind

end OpContext

/-! ## In the running backend -/

namespace NvmeBackend

open Conc

variable {s s' : NvmeBackend} {a : Action} {w : Nat} {x : Worker}

/-- The worker has an operation in its hands. -/
def Busy : Worker → Prop
  | .waiting | .exited => False
  | _ => True

/-- What a worker does in a step. -/
def eventOf (s : NvmeBackend) (w : Nat) : Action → Option RunEvent
  | .io v r =>
    if v = w then
      match s.workers[v]? with
      | some (.running ctx total) => some (.call total (ctx.offset + total) (ctx.bytes - total) r)
      | _ => none
    else none
  | .retire v =>
    if v = w then
      match s.workers[v]? with
      | some (.retiring ctx _) => some (.retire ctx.firstExtent ctx.extentCount)
      | _ => none
    else none
  | .publish v =>
    if v = w then
      match s.workers[v]? with
      | some (.publishing _ outcome) => some (.publish outcome)
      | _ => none
    else none
  | _ => none

/-- The result of a kernel call of a worker. -/
def resultOf (w : Nat) : Action → Option IoResult
  | .io v r => if v = w then some r else none
  | _ => none

/-- What a worker does in the steps of a run. -/
def eventsOf (w : Nat) : NvmeBackend → List Action → List RunEvent
  | _, [] => []
  | s, a :: as => (s.eventOf w a).toList ++ (s.step a).elim [] fun s' => eventsOf w s' as

theorem callStep_workers (hf : FlowOk s) (hne : s.workers ≠ []) (h : s.callStep a = some s') : s'.workers = s.workers := by
  have hopen : s.map.opened = true := by
    by_contra hc
    exact hne (hf.closed (Bool.eq_false_of_not_eq_true hc)).2.1
  have hclose : ∀ next answer, (s.beginClose next answer).workers = s.workers := by
    intro next answer
    unfold beginClose
    rw [if_neg (by simp [hopen])]
  unfold callStep at h
  cases a with
  | submit r =>
    simp only at h
    split at h
    · rename_i s₁ hsub
      cases h
      unfold submit at hsub
      split at hsub
      · cases hsub
      split at hsub
      · cases hsub
      split at hsub <;> cases hsub
      rfl
    · cases h
      rfl
  | extents k =>
    cases h
    rfl
  | cancelAll =>
    cases h
    split <;> rfl
  | flush i =>
    simp only at h
    split at h <;> cases h
    rfl
  | close =>
    cases h
    exact hclose _ _
  | openStore args answer =>
    cases h
    exact hclose _ _
  | _ => cases h

theorem phaseStep_workers (hx : x ∈ s.workers) (hb : Busy x) (h : s.phaseStep a = some s') : s'.workers = s.workers := by
  unfold phaseStep at h
  cases a with
  | drain =>
    simp only at h
    split at h <;> cases h <;> rfl
  | snapshot =>
    simp only at h
    split at h <;> cases h
    rfl
  | wait =>
    simp only at h
    split at h
    · split at h <;> cases h <;> rfl
    · cases h
  | fsync ok =>
    simp only at h
    split at h <;> cases h
    rfl
  | join answer =>
    simp only at h
    split at h
    · split at h
      · rename_i hall
        have hexited : x = .exited := by simpa using List.all_eq_true.1 hall x hx
        rw [hexited] at hb
        exact hb.elim
      · cases h
    · cases h
  | _ => cases h

/-- A step of the backend either leaves the worker at its operation, or is the worker's next one. -/
inductive WorkerMove (w : Nat) (s' : NvmeBackend) (a : Action) (e : Option RunEvent) : Worker → Prop where
  | other (x : Worker) (he : e = none) (hr : resultOf w a = none) (hw : s'.workers[w]? = some x) : WorkerMove w s' a e x
  | io (ctx : OpContext) (total : Nat) (r : IoResult) (ha : a = .io w r)
      (he : e = some (.call total (ctx.offset + total) (ctx.bytes - total) r))
      (hl : ∀ n, r = .moved n → 0 < n ∧ total + n ≤ ctx.bytes) (hw : s'.workers[w]? = some (ctx.turn total r)) :
      WorkerMove w s' a e (.running ctx total)
  | retire (ctx : OpContext) (outcome : OpOutcome) (ha : a = .retire w) (he : e = some (.retire ctx.firstExtent ctx.extentCount))
      (hw : s'.workers[w]? = some (.publishing ctx outcome)) : WorkerMove w s' a e (.retiring ctx outcome)
  | publish (ctx : OpContext) (outcome : OpOutcome) (ha : a = .publish w) (he : e = some (.publish outcome))
      (hw : s'.workers[w]? = some .waiting) : WorkerMove w s' a e (.publishing ctx outcome)

theorem worker_move (hf : FlowOk s) (hw : s.workers[w]? = some x) (hb : Busy x) (h : s.step a = some s') :
    WorkerMove w s' a (s.eventOf w a) x := by
  have hmem : x ∈ s.workers := List.mem_of_getElem? hw
  have hne : s.workers ≠ [] := List.ne_nil_of_mem hmem
  have hkeep : ∀ {v : Nat} {y : Worker}, v ≠ w → (s.workers.set v y)[w]? = some x := fun hv => by rw [List.getElem?_set_ne hv, hw]
  have hset : ∀ y : Worker, (s.workers.set w y)[w]? = some y := fun y => List.getElem?_set_self (List.getElem?_eq_some_iff.1 hw).1
  unfold step at h
  cases a with
  | submit | extents | cancelAll | flush | close | openStore =>
    simp only at h
    split at h
    · exact .other x rfl rfl ((callStep_workers hf hne h).symm ▸ hw)
    · cases h
  | drain | snapshot | wait | fsync | join => exact .other x rfl rfl ((phaseStep_workers hmem hb h).symm ▸ hw)
  | callFlush =>
    cases h
    exact .other x rfl rfl hw
  | take v =>
    have hv : v ≠ w := by
      rintro rfl
      simp only [workerStep, hw] at h
      cases x <;> simp_all [Busy]
    refine .other x rfl rfl ?_
    simp only [workerStep] at h
    split at h
    · split at h <;> cases h
      exact hkeep hv
    · split at h <;> cases h
      exact hkeep hv
    · cases h
  | io v r =>
    by_cases hv : v = w
    · subst hv
      cases x with
      | running ctx total =>
        have hevent : s.eventOf v (.io v r) = some (.call total (ctx.offset + total) (ctx.bytes - total) r) := by simp [eventOf, hw]
        simp only [workerStep, hw] at h
        split at h
        · split at h <;> cases h
          rename_i n hn
          refine .io ctx total _ rfl hevent (fun m hm => ?_) (hset _)
          cases hm
          exact hn
        · rename_i hmoved
          cases h
          exact .io ctx total r rfl hevent (fun n hn => (hmoved n hn).elim) (hset _)
      | _ => simp [workerStep, hw] at h
    · refine .other x (if_neg hv) (if_neg hv) ?_
      simp only [workerStep] at h
      split at h
      · split at h
        · split at h <;> cases h
          exact hkeep hv
        · cases h
          exact hkeep hv
      · cases h
  | retire v =>
    by_cases hv : v = w
    · subst hv
      cases x with
      | retiring ctx outcome =>
        simp only [workerStep, hw] at h
        split at h <;> cases h
        exact .retire ctx outcome rfl (by simp [eventOf, hw]) (hset _)
      | _ => simp [workerStep, hw] at h
    · refine .other x (if_neg hv) rfl ?_
      simp only [workerStep] at h
      split at h
      · split at h <;> cases h
        exact hkeep hv
      · cases h
  | publish v =>
    by_cases hv : v = w
    · subst hv
      cases x with
      | publishing ctx outcome =>
        simp only [workerStep, hw] at h
        cases h
        exact .publish ctx outcome rfl (by simp [eventOf, hw]) (hset _)
      | _ => simp [workerStep, hw] at h
    · refine .other x (if_neg hv) rfl ?_
      simp only [workerStep] at h
      split at h <;> cases h
      exact hkeep hv

theorem busy_turn (ctx : OpContext) (total : Nat) (r : IoResult) : Busy (ctx.turn total r) := by
  cases r with
  | moved n =>
    unfold OpContext.turn
    simp only
    split <;> trivial
  | _ => trivial

/-- The results a worker at its operation may still get. -/
def Answers : Worker → List IoResult → Prop
  | .running ctx total, results => Lawful IoResult.turn ctx.bytes total results
  | _, _ => True

/-- Whatever the other threads do until a worker publishes the end of its operation: its own steps are those
of the run of the operation, with results that a kernel call can give. -/
theorem events_of_run {as : List Action} {s₁ s₂ : NvmeBackend} (hs : Sound s) (hw : s.workers[w]? = some x) (hb : Busy x)
    (h : Steps.run step (fun _ _ => True) s as = some s₁) (hnot : .publish w ∉ as) (hlast : s₁.step (.publish w) = some s₂) :
    Answers x (as.filterMap (resultOf w)) ∧
      x.run (as.filterMap (resultOf w)) = (eventsOf w s (as ++ [.publish w]), .waiting) := by
  induction as generalizing s x with
  | nil =>
    cases h
    cases x with
    | publishing ctx outcome =>
      refine ⟨trivial, ?_⟩
      simp [Worker.run, eventsOf, eventOf, hw, hlast]
    | _ => simp [step, workerStep, hw] at hlast
  | cons a as ih =>
    rw [Steps.run, if_pos trivial] at h
    obtain ⟨s', hstep, hrest⟩ := Option.bind_eq_some_iff.1 h
    rw [List.mem_cons, not_or] at hnot
    have hs' := sound_step hstep hs
    rw [List.cons_append, eventsOf, hstep, Option.elim_some, List.filterMap_cons]
    cases worker_move hs.flow hw hb hstep with
    | other x he hr hw' =>
      rw [he, hr]
      exact ih hs' hw' hb hrest hnot.2
    | io ctx total r ha he hl hw' =>
      subst ha
      obtain ⟨hlaw, hrun⟩ := ih hs' hw' (busy_turn ctx total r) hrest hnot.2
      simp only [resultOf, if_true, he]
      refine ⟨?_, ?_⟩
      · cases r with
        | moved n =>
          refine ⟨(hl n rfl).1, (hl n rfl).2, fun hlt => ?_⟩
          rw [OpContext.turn, if_pos hlt] at hlaw
          exact hlaw
        | interrupted => exact hlaw
        | failed => trivial
        | zero => trivial
      · rw [Worker.run, hrun]
        rfl
    | retire ctx outcome ha he hw' =>
      subst ha
      obtain ⟨-, hrun⟩ := ih hs' hw' trivial hrest hnot.2
      refine ⟨trivial, ?_⟩
      simp only [Worker.run] at hrun ⊢
      rw [he, ← (Prod.mk.inj hrun).1]
      rfl
    | publish ctx outcome ha => exact absurd ha.symm hnot.1

end NvmeBackend

end FlashTier
