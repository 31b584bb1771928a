/-
Who records what. A section records events of the thread that runs it, and only those its operation
may record: writes are recorded by `write_page` and `fill_page` of the page, releases by `free_page` of
the page, and so on. Only the stop of admission changes the lifecycle flags.
-/
import FlashTier.Invariant.Programs

namespace FlashTier

open Conc

variable {l : Op} {t : Nat} {ω : Env} {σ σ' σ'' : Shared} {α β : Type} {id : PageId} {cfg : RuntimeConfig}

/-- The stop of admission. -/
def Op.stops : Op → Bool
  | .shutdown => true
  | _ => false

/-- From `σ` to `σ'`, thread `t` records events that `l` may record, and leaves the flags unless `l` stops
the runtime. -/
def Noted (l : Op) (t : Nat) (σ σ' : Shared) : Prop :=
  (∃ evs, σ'.history = evs ++ σ.history ∧ ∀ e ∈ evs, e.thread = t ∧ l.records e = true) ∧
    (l.stops = false → σ'.running = σ.running ∧ σ'.stopping = σ.stopping)

theorem noted_same (hh : σ'.history = σ.history) (hr : σ'.running = σ.running) (hs : σ'.stopping = σ.stopping) : Noted l t σ σ' :=
  ⟨⟨[], hh, fun _ he => (List.not_mem_nil he).elim⟩, fun _ => ⟨hr, hs⟩⟩

/-- An elementary change records at most one event, of its thread and operation, and leaves the flags. -/
theorem FrontStep.noted {s s' : Front} (h : FrontStep l t s s') :
    (∃ evs, s'.history = evs ++ s.history ∧ ∀ e ∈ evs, e.thread = t ∧ l.records e = true) ∧
      s'.running = s.running ∧ s'.stopping = s.stopping := by
  cases h with
  | log e hm => exact ⟨⟨[e], rfl, fun e' he => by cases List.mem_singleton.1 he; exact ⟨hm.thread, hm.allowed⟩⟩, rfl, rfl⟩
  | access p q e hp hi hst hs hc ht hl =>
    exact ⟨⟨[e], rfl, fun e' he => by cases List.mem_singleton.1 he; exact ⟨ht, hl⟩⟩, rfl, rfl⟩
  | edit | enter | unmark => exact ⟨⟨[], rfl, fun _ he => (List.not_mem_nil he).elim⟩, rfl, rfl⟩

theorem FrontPath.noted (h : FrontPath l t σ σ') : Noted l t σ σ' := by
  have hpath : ∀ s', Relation.ReflTransGen (FrontStep l t) σ.front s' →
      (∃ evs, s'.history = evs ++ σ.history ∧ ∀ e ∈ evs, e.thread = t ∧ l.records e = true) ∧
        s'.running = σ.running ∧ s'.stopping = σ.stopping := by
    intro s' hs
    induction hs with
    | refl => exact ⟨⟨[], rfl, fun _ he => (List.not_mem_nil he).elim⟩, rfl, rfl⟩
    | tail _ hlast ih =>
      obtain ⟨⟨p, hp, hpe⟩, hr, hst⟩ := ih
      obtain ⟨⟨q, hq, hqe⟩, hr', hst'⟩ := hlast.noted
      refine ⟨⟨q ++ p, by rw [hq, hp, List.append_assoc], fun e he => ?_⟩, hr'.trans hr, hst'.trans hst⟩
      exact (List.mem_append.1 he).elim (hqe e) (hpe e)
  exact ⟨(hpath _ h).1, fun _ => (hpath _ h).2⟩

/-- Whoever runs the section, and however it ends, what it records is noted. -/
def Tidy (l : Op) (β : Type) (a : Sec β) : Prop := ∀ t ω σ, Noted l t σ (a t ω σ).2

theorem Effect.tidy {a : Sec α} (h : Effect l α a) : Tidy l α a := fun t ω σ => (h t ω σ).noted

theorem Noted.trans (h : Noted l t σ σ') (h' : Noted l t σ' σ'') : Noted l t σ σ'' := by
  obtain ⟨⟨p, hp, hpe⟩, hf⟩ := h
  obtain ⟨⟨q, hq, hqe⟩, hg⟩ := h'
  refine ⟨⟨q ++ p, by rw [hq, hp, List.append_assoc], fun e he => ?_⟩, fun hl => ?_⟩
  · exact (List.mem_append.1 he).elim (hqe e) (hpe e)
  · exact ⟨(hg hl).1.trans (hf hl).1, (hg hl).2.trans (hf hl).2⟩

theorem Tidy.bind {a : Sec α} {f : α → Sec β} (ha : Tidy l α a) (hf : ∀ x, Tidy l β (f x)) : Tidy l β (a >>= f) :=
  fun t ω σ => Act.bind_relates (R := Noted l t) Noted.trans (ha t ω σ) fun x => hf x t ω

theorem tidy_record {e : Nat → Event} (ht : ∀ t, (e t).thread = t) (hl : ∀ t, l.records (e t) = true) : Tidy l Unit (record e) :=
  fun t _ _ => ⟨⟨[e t], rfl, fun e' he => by cases List.mem_singleton.1 he; exact ⟨ht t, hl t⟩⟩, fun _ => ⟨rfl, rfl⟩⟩

theorem tidy_transition {dst : PageState} : Tidy l _ (transition id dst) := by
  intro t ω σ
  unfold transition
  split
  · exact noted_same rfl rfl rfl
  split
  · exact noted_same rfl rfl rfl
  · exact (path_log σ (by exact ⟨rfl, rfl, rfl, rfl⟩)).noted

/-! ## The sections that are no elementary effects -/

theorem tidy_insertion {a : AllocArgs} {s : Sec α} (hins : Insertion (.allocate a) α s) : Tidy (.allocate a) α s := by
  intro t ω σ
  cases hins t ω σ with
  | path h => exact h.noted
  | page σ₁ q n b c h hq hs hc hσ =>
    rw [hσ]
    exact h.noted.trans (Noted.trans (noted_same rfl rfl rfl) (path_log (σ₁.setPage q) ⟨rfl, rfl, rfl, rfl⟩).noted)
  | broken σ₁ pages a h hσ =>
    rw [hσ]
    exact h.noted.trans (Noted.trans (noted_same rfl rfl rfl) (path_log { σ₁ with table := pages } ⟨rfl, rfl, rfl, rfl⟩).noted)

theorem tidy_claimFree : Tidy (.free id) _ (claimFree id) := by
  have hend : ∀ m : PageMetadata, Tidy (.free id) _ (do
      Act.modify fun σ : Shared => { σ with prefetched := σ.prefetched.filter (· != id) }
      record fun t => .release t id m.owned
      pure m : Sec PageMetadata) := fun m =>
    effect_unmark.tidy.bind fun _ => (tidy_record (fun _ => rfl) (by exact fun _ => beq_self_eq_true id)).bind fun _ =>
      (effect_pure m).tidy
  have hbusy : Tidy (.free id) _ (withPage id fun p => { p with inFlight := true }) := (effect_withPage fun _ => by rfl).tidy
  refine effect_copyOf.tidy.bind fun m => ?_
  cases m.state with
  | residentVram | residentHost | residentNvme | error => exact tidy_transition.bind fun _ => hbusy.bind fun _ => hend m
  | released => exact hbusy.bind fun _ => hend m
  | _ => exact (effect_throw _).tidy.bind fun _ => hend m

theorem tidy_finishFree {failed : Bool} : Tidy (.free id) _ (finishFree id failed) := by
  unfold finishFree
  cases failed with
  | true =>
    exact (effect_withPage fun _ => by rfl).tidy.bind fun _ => effect_recordSettle.tidy
  | false =>
    have herase : Tidy (.free id) _ (record fun t => .erase t id) := tidy_record (fun _ => rfl) fun _ => beq_self_eq_true id
    exact herase.bind fun _ => fun _ _ _ => noted_same rfl rfl rfl

theorem tidy_admits (cfg : RuntimeConfig) (l : Op) : Admits cfg l (Tidy l) where
  effect h := h.tidy
  demand id target t ω σ := by
    unfold pushDemand
    split <;> exact noted_same rfl rfl rfl
  prefetch id target t ω σ := by
    unfold pushPrefetch
    repeat' split
    all_goals exact noted_same rfl rfl rfl
  insert hl hins := hl ▸ tidy_insertion (hl ▸ hins)
  pop _ t ω σ := by
    unfold popRequest
    split <;> exact noted_same rfl rfl rfl
  mark _ id t ω σ := by
    show Noted l t σ (if (σ.table.lookup id).isSome then _ else σ)
    split <;> exact noted_same rfl rfl rfl
  settle _ k r t ω σ := by
    cases k <;> exact noted_same rfl rfl rfl
  served _ _ _ _ _ := noted_same rfl rfl rfl
  claim id hl := hl ▸ tidy_claimFree
  dequeue _ _ _ _ _ := noted_same rfl rfl rfl
  finish id failed hl := hl ▸ tidy_finishFree
  stop hl t ω σ := ⟨⟨[], rfl, fun _ he => (List.not_mem_nil he).elim⟩, by rw [hl]; intro h; cases h⟩

/-! ## Every run -/

variable {allowed : Move Env Op → Prop} {disk : Bytes} {c : Runtime}

/-- Every event was recorded by a thread started for an operation that may record it. -/
theorem reachable_records (hr : Reachable allowed (code cfg) (cfg.initial disk) c) :
    ∀ e ∈ c.shared.history, ∃ l, c.labels[e.thread]? = some l ∧ l.records e = true := by
  refine hr.keeps (P := Tidy) (fun l _ => code_all (tidy_admits cfg l))
    (fun ls σ => ∀ e ∈ σ.history, ∃ l, ls[e.thread]? = some l ∧ l.records e = true) (fun e he => (List.not_mem_nil he).elim) ?_ ?_
  · intro ls l σ h e he
    obtain ⟨l', hl', hrec⟩ := h e he
    exact ⟨l', by rw [List.getElem?_append_left (List.getElem?_eq_some_iff.1 hl').1]; exact hl', hrec⟩
  · intro ls t l β a ω σ hl ha h e he
    obtain ⟨⟨evs, hh, hevs⟩, -⟩ := ha t ω σ
    rw [hh] at he
    rcases List.mem_append.1 he with he | he
    · obtain ⟨rfl, hrec⟩ := hevs e he
      exact ⟨l, hl, hrec⟩
    · exact h e he

/-- What a thread records when it runs is noted. -/
theorem noted_move (hr : Reachable allowed (code cfg) (cfg.initial disk) c) {c' : Runtime}
    (hm : c.move (code cfg) (.exec t ω) = some c') : ∃ l, c.labels[t]? = some l ∧ Noted l t c.shared c'.shared := by
  obtain ⟨l, β, g, a, k, ht, -, rfl⟩ := move_exec hm
  have hall := hr.all (P := Tidy) (fun l _ => code_all (tidy_admits cfg l)) _ (List.mem_of_getElem? ht)
  exact ⟨l, by rw [Config.labels, List.getElem?_map, ht]; rfl, hall.1 t ω c.shared⟩

/-- The runtime keeps running while nothing stops it. -/
theorem reachable_running (hno : ¬allowed (.spawn .shutdown)) (hr : Reachable allowed (code cfg) (cfg.initial disk) c) :
    c.shared.running = true ∧ c.shared.stopping = false := by
  have h := hr.keeps (P := fun l β a => l.stops = false ∧ Tidy l β a) (fun l hl => ?_)
    (fun _ σ => σ.running = true ∧ σ.stopping = false) ⟨rfl, rfl⟩ (fun _ _ _ h => h) ?_
  · exact h
  · have hs : l.stops = false := by
      cases l <;> first | rfl | exact absurd hl hno
    exact (code_all (tidy_admits cfg l)).mono fun β a ha => ⟨hs, ha⟩
  · intro ls t l β a ω σ _ ha h
    obtain ⟨h1, h2⟩ := (ha.2 t ω σ).2 ha.1
    exact ⟨h1.trans h.1, h2.trans h.2⟩

end FlashTier
