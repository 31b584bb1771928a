/-
The requests for prefetches. While the runtime runs, the pages that `pending_prefetches_` lists are those with a
prefetch request in the queue or in the hands of a worker, and each has one. A page is marked as prefetched when a
worker takes its request, perhaps after `free_page` has taken the page; the mark is then gone when the worker is done.
-/
import FlashTier.Guarantees.Allocation
import FlashTier.Guarantees.Residency
import FlashTier.Invariant.Programs

namespace FlashTier

open Conc

variable {cfg : RuntimeConfig} {disk : Bytes} {c : Runtime} {l : Op} {t : Nat} {ω : Env} {σ σ' σ'' : Shared} {α β : Type}
  {id : PageId}

/-! ## Requests -/

/-- The pages of the prefetch requests of a queue. -/
def prefetchPages (queue : List Request) : List PageId := (queue.filter fun r => r.kind == .prefetch).map Request.page

/-- The pages with a prefetch request in the queue or in the hands of a worker, once for each request. -/
def Shared.outstanding (σ : Shared) : List PageId := prefetchPages σ.queue ++ σ.prefetching.map Prod.snd

/-- `free_page` has not taken the page yet. -/
def Shared.Live (σ : Shared) (id : PageId) : Prop := phaseIn σ.history id = .live

/-- A prefetch in the hands of a worker, and whether the worker will come to drop the page's mark. -/
structure Serving where
  page : PageId
  drops : Bool

def entry (x : Nat × Option Serving) : Option (Nat × PageId) := x.2.map fun s => (x.1, s.page)

/-- The list of pending prefetches is that of the outstanding ones, the ones in the hands of workers are those of the
threads' tokens, and a marked page that `free_page` has taken will lose its mark. -/
structure Tracked (σ : Shared) (T : Multiset (Nat × Option Serving)) : Prop where
  pending : σ.running = true → σ.outstanding.Nodup ∧ σ.pendingPrefetches.Nodup ∧ ∀ i, i ∈ σ.pendingPrefetches ↔ i ∈ σ.outstanding
  serving : (σ.prefetching : Multiset (Nat × PageId)) = T.filterMap entry
  marks : ∀ i ∈ σ.prefetched, σ.Live i ∨ ∃ t, (t, some ⟨i, true⟩) ∈ T

/-- No emission throws; the states are ones that the invariant of the runtime holds of. -/
def Quietly (cfg : RuntimeConfig) (_ : Nat) (ω : Env) (σ σ' : Shared) : Prop :=
  ω.emit = none ∧ (∃ T, Inv cfg σ T) ∧ ∃ T, Inv cfg σ' T

def tracking (cfg : RuntimeConfig) : Logic Env Shared (Option Serving) where
  env := Quietly cfg
  Inv := Tracked
  le _ _ := True
  rely _ _ _ := True
  le_refl _ := trivial
  le_trans _ _ := trivial
  rely_refl _ _ := trivial
  rely_trans _ _ := trivial
  rely_le _ := trivial

theorem guar_tracking : Guar (tracking cfg) t σ σ' := ⟨trivial, fun _ _ => trivial⟩

/-! ## Sections that leave the requests alone -/

/-- Requests are as they were, no page is marked, and of the pages that stay marked none is taken by `free_page`. -/
structure Tame (σ σ' : Shared) : Prop where
  queue : σ'.queue = σ.queue
  pending : σ'.pendingPrefetches = σ.pendingPrefetches
  prefetching : σ'.prefetching = σ.prefetching
  running : σ'.running = σ.running
  marks : ∀ i ∈ σ'.prefetched, i ∈ σ.prefetched ∧ (σ.Live i → σ'.Live i)

theorem Tame.refl (σ : Shared) : Tame σ σ := ⟨rfl, rfl, rfl, rfl, fun _ hi => ⟨hi, id⟩⟩

theorem Tame.trans (h : Tame σ σ') (h' : Tame σ' σ'') : Tame σ σ'' := by
  refine ⟨h'.queue.trans h.queue, h'.pending.trans h.pending, h'.prefetching.trans h.prefetching, h'.running.trans h.running, fun i hi => ?_⟩
  obtain ⟨hi', hl'⟩ := h'.marks i hi
  obtain ⟨hi, hl⟩ := h.marks i hi'
  exact ⟨hi, hl' ∘ hl⟩

theorem Tracked.tame {T : Multiset (Nat × Option Serving)} (h : Tracked σ T) (hs : Tame σ σ') : Tracked σ' T := by
  have hout : σ'.outstanding = σ.outstanding := by rw [Shared.outstanding, hs.queue, hs.prefetching]; rfl
  refine ⟨fun hr => ?_, by rw [hs.prefetching]; exact h.serving, fun i hi => ?_⟩
  · rw [hout, hs.pending]
    exact h.pending (hs.running ▸ hr)
  · obtain ⟨hi, hl⟩ := hs.marks i hi
    exact (h.marks i hi).imp_left hl

theorem live_cons {e : Event} {h : List Event} (he : e.ends = false) (hl : phaseIn h id = .live) : phaseIn (e :: h) id = .live := by
  cases e with
  | alloc t i n b x =>
    rw [phaseIn]
    split
    · rfl
    · exact hl
  | release | erase => cases he
  | _ => exact hl

/-- What an elementary change does to the requests and marks. -/
theorem FrontStep.tame {s s' : Front} (h : FrontStep l t s s') :
    (s'.queue = s.queue ∧ s'.pendingPrefetches = s.pendingPrefetches ∧ s'.prefetching = s.prefetching ∧ s'.running = s.running) ∧
      (∀ i ∈ s'.prefetched, i ∈ s.prefetched) ∧ ∀ i, phaseIn s.history i = .live → phaseIn s'.history i = .live := by
  cases h with
  | log e hm => exact ⟨⟨rfl, rfl, rfl, rfl⟩, fun _ hi => hi, fun i hl => live_cons hm.stays hl⟩
  | edit | enter => exact ⟨⟨rfl, rfl, rfl, rfl⟩, fun _ hi => hi, fun _ hl => hl⟩
  | access p q e hp hi hst hs hc ht hl ha =>
    refine ⟨⟨rfl, rfl, rfl, rfl⟩, fun _ hi => hi, fun i hl => live_cons ?_ hl⟩
    cases e <;> first | rfl | cases ha
  | unmark id => exact ⟨⟨rfl, rfl, rfl, rfl⟩, fun i hi => List.mem_of_mem_filter hi, fun _ hl => hl⟩

theorem FrontPath.tame (h : FrontPath l t σ σ') : Tame σ σ' := by
  have hall := h.invariant (J := fun s => (s.queue = σ.queue ∧ s.pendingPrefetches = σ.pendingPrefetches ∧
      s.prefetching = σ.prefetching ∧ s.running = σ.running) ∧
    (∀ i ∈ s.prefetched, i ∈ σ.prefetched) ∧ ∀ i, phaseIn σ.history i = .live → phaseIn s.history i = .live)
    (fun s s' hstep hs => ?_) ⟨⟨rfl, rfl, rfl, rfl⟩, fun _ hi => hi, fun _ hl => hl⟩
  · obtain ⟨⟨hq, hp, hf, hr⟩, hm, hl⟩ := hall
    exact ⟨hq, hp, hf, hr, fun i hi => ⟨hm i hi, hl i⟩⟩
  · obtain ⟨⟨hq, hp, hf, hr⟩, hm, hl⟩ := hs
    obtain ⟨⟨hq', hp', hf', hr'⟩, hm', hl'⟩ := hstep.tame
    exact ⟨⟨hq'.trans hq, hp'.trans hp, hf'.trans hf, hr'.trans hr⟩, fun i hi => hm i (hm' i hi), fun i h => hl' i (hl i h)⟩

theorem Inserts.tame (h : Inserts l t σ σ') : Tame σ σ' := by
  cases h with
  | path h => exact h.tame
  | broken σ₁ pages a h hσ =>
    rw [hσ]
    exact h.tame.trans ⟨rfl, rfl, rfl, rfl, fun i hi => ⟨hi, id⟩⟩
  | page σ₁ q n b x h hq hs hc hσ =>
    rw [hσ]
    exact h.tame.trans ⟨rfl, rfl, rfl, rfl, fun i hi => ⟨hi, fun hl => live_cons rfl hl⟩⟩

theorem tame_transition {dst : PageState} : Tame σ (transition id dst t ω σ).2 := by
  unfold transition
  split
  · exact Tame.refl σ
  split
  · exact ⟨rfl, rfl, rfl, rfl, fun _ hi => ⟨hi, fun hl => hl⟩⟩
  · exact ⟨rfl, rfl, rfl, rfl, fun _ hi => ⟨hi, fun hl => hl⟩⟩

/-- The page that `free_page` takes loses its mark in the same section. -/
theorem tame_claimFree : Tame σ (claimFree id t ω σ).2 := by
  have hend : ∀ (m : PageMetadata) σ, Tame σ ((do
      Act.modify fun σ : Shared => { σ with prefetched := σ.prefetched.filter (· != id) }
      record fun t => .release t id m.owned
      pure m : Sec PageMetadata) t ω σ).2 := by
    intro m σ
    refine ⟨rfl, rfl, rfl, rfl, fun i hi => ?_⟩
    obtain ⟨hi, hne⟩ := List.mem_filter.1 hi
    refine ⟨hi, fun hl => ?_⟩
    show phaseIn (.release t id m.owned :: σ.history) i = .live
    rw [phaseIn, if_neg (Ne.symm (bne_iff_ne.1 hne))]
    exact hl
  have heff : ∀ {β : Type} {a : Sec β}, Effect .worker β a → ∀ σ, Tame σ (a t ω σ).2 := fun ha σ => (ha t ω σ).tame
  have hbusy : ∀ σ, Tame σ (withPage id (fun p => { p with inFlight := true }) t ω σ).2 := heff (effect_withPage fun _ => rfl)
  refine Act.bind_relates (R := Tame) Tame.trans (heff effect_copyOf σ) fun m σ' => ?_
  cases m.state with
  | residentVram | residentHost | residentNvme | error =>
    exact Act.bind_relates (R := Tame) Tame.trans tame_transition fun _ σ' =>
      Act.bind_relates (R := Tame) Tame.trans (hbusy σ') fun _ => hend m
  | released => exact Act.bind_relates (R := Tame) Tame.trans (hbusy σ') fun _ => hend m
  | _ => exact Act.bind_relates (R := Tame) Tame.trans (Tame.refl σ') fun _ => hend m

/-- `free_page` erases a page that it has taken. -/
theorem tame_finishFree {failed : Bool} (hok : Each EventOk (finishFree id failed t ω σ).2.history) :
    Tame σ (finishFree id failed t ω σ).2 := by
  cases failed with
  | true =>
    have heff : Effect .worker _ (finishFree id true) := (effect_withPage fun _ => by rfl).bind fun _ => effect_recordSettle
    exact (heff t ω σ).tame
  | false =>
    refine ⟨rfl, rfl, rfl, rfl, fun i hi => ⟨hi, fun hl => ?_⟩⟩
    show phaseIn (.erase t id :: σ.history) i = .live
    rw [phaseIn]
    split
    · rename_i hid
      have hrel : phaseIn σ.history id = .released := hok.1
      have hl : phaseIn σ.history i = .live := hl
      rw [← hid, hrel] at hl
      cases hl
    · exact hl

/-- Whoever runs the section, it leaves the thread's token and keeps the invariant. -/
def Tracks (cfg : RuntimeConfig) (β : Type) (a : Sec β) : Prop :=
  ∀ t h, SectionOk (tracking cfg) t h (fun _ => True) a fun _ _ h' => h' = h

theorem tracks_of_tame {a : Sec β} (ha : ∀ t ω σ, Quietly cfg t ω σ (a t ω σ).2 → Tame σ (a t ω σ).2) : Tracks cfg β a :=
  fun t h ω σ _ hω _ _ hi => ⟨guar_tracking, h, Tracked.tame hi (ha t ω σ hω), rfl⟩

/-! ## Sections on the queue -/

theorem prefetchPages_append (q q' : List Request) : prefetchPages (q ++ q') = prefetchPages q ++ prefetchPages q' := by
  simp [prefetchPages]

theorem tracks_pushDemand {target : Tier} : Tracks cfg _ (pushDemand id target) := by
  intro t h ω σ T _ _ _ hi
  have hi : Tracked σ ((t, h) ::ₘ T) := hi
  refine ⟨guar_tracking, h, ?_, rfl⟩
  show Tracked (pushDemand id target t ω σ).2 ((t, h) ::ₘ T)
  unfold pushDemand
  split
  · exact hi
  · have hout : prefetchPages (σ.queue ++ [⟨.demand, id, target, some σ.promises.length⟩]) = prefetchPages σ.queue := by
      rw [prefetchPages_append]
      exact List.append_nil _
    refine ⟨fun hr => ?_, hi.serving, hi.marks⟩
    have hp := hi.pending hr
    unfold Shared.outstanding at hp ⊢
    rw [hout]
    exact hp

theorem tracks_pushPrefetch {target : Tier} : Tracks cfg _ (pushPrefetch cfg id target) := by
  intro t h ω σ T _ _ _ hi
  have hi : Tracked σ ((t, h) ::ₘ T) := hi
  refine ⟨guar_tracking, h, ?_, rfl⟩
  show Tracked (pushPrefetch cfg id target t ω σ).2 ((t, h) ::ₘ T)
  unfold pushPrefetch
  split
  · exact hi
  split
  · exact hi
  split
  · rename_i hnew _
    refine ⟨fun hr => ?_, hi.serving, hi.marks⟩
    obtain ⟨hnd, hnd', hiff⟩ := hi.pending hr
    -- one more request, for a page that had none
    have hperm : List.Perm (prefetchPages (σ.queue ++ [⟨.prefetch, id, target, none⟩]) ++ σ.prefetching.map Prod.snd)
        (id :: σ.outstanding) := by
      rw [prefetchPages_append, List.append_assoc]
      exact List.perm_middle
    refine ⟨hperm.nodup_iff.2 (List.nodup_cons.2 ⟨fun h => hnew ((hiff id).2 h), hnd⟩), List.nodup_cons.2 ⟨hnew, hnd'⟩, fun i => ?_⟩
    show i ∈ id :: σ.pendingPrefetches ↔ i ∈ prefetchPages (σ.queue ++ [⟨.prefetch, id, target, none⟩]) ++ σ.prefetching.map Prod.snd
    rw [hperm.mem_iff, List.mem_cons, List.mem_cons, hiff i]
  · exact hi

theorem prefetchPages_remove (id : PageId) (q : List Request) :
    prefetchPages (q.filter fun r => !isPrefetchOf id r) = (prefetchPages q).filter (· != id) := by
  induction q with
  | nil => rfl
  | cons r q ih =>
    unfold prefetchPages at ih ⊢
    by_cases hk : r.kind = .prefetch <;> by_cases hp : r.page = id <;> simp_all [isPrefetchOf]

theorem mem_prefetchPages {q : List Request} : id ∈ prefetchPages q ↔ q.any (isPrefetchOf id) = true := by
  simp only [prefetchPages, List.mem_map, List.mem_filter, List.any_eq_true, isPrefetchOf, Bool.and_eq_true, beq_iff_eq]
  exact ⟨fun ⟨r, ⟨hr, hk⟩, hp⟩ => ⟨r, hr, hp, hk⟩, fun ⟨r, hr, hp, hk⟩ => ⟨r, ⟨hr, hk⟩, hp⟩⟩

theorem tracks_removeQueuedPrefetch : Tracks cfg _ (removeQueuedPrefetch id) := by
  intro t h ω σ T _ _ _ hi
  have hi : Tracked σ ((t, h) ::ₘ T) := hi
  refine ⟨guar_tracking, h, ⟨fun hr => ?_, hi.serving, hi.marks⟩, rfl⟩
  obtain ⟨hnd, hnd', hiff⟩ := hi.pending hr
  show (prefetchPages (σ.queue.filter fun r => !isPrefetchOf id r) ++ σ.prefetching.map Prod.snd).Nodup ∧
    (if σ.queue.any (isPrefetchOf id) then σ.pendingPrefetches.filter (· != id) else σ.pendingPrefetches).Nodup ∧
    ∀ i, i ∈ (if σ.queue.any (isPrefetchOf id) then σ.pendingPrefetches.filter (· != id) else σ.pendingPrefetches) ↔
      i ∈ prefetchPages (σ.queue.filter fun r => !isPrefetchOf id r) ++ σ.prefetching.map Prod.snd
  rw [prefetchPages_remove]
  have hsub : List.Sublist ((prefetchPages σ.queue).filter (· != id) ++ σ.prefetching.map Prod.snd) σ.outstanding :=
    (List.filter_sublist).append (List.Sublist.refl _)
  refine ⟨hnd.sublist hsub, ?_⟩
  by_cases hany : σ.queue.any (isPrefetchOf id) = true
  · -- the request in the queue was the only one
    rw [if_pos hany]
    have hnot : id ∉ σ.prefetching.map Prod.snd := fun h => (List.nodup_append.1 hnd).2.2 id (mem_prefetchPages.2 hany) id h rfl
    refine ⟨hnd'.filter _, fun i => ?_⟩
    rw [List.mem_filter, hiff i, Shared.outstanding, List.mem_append, List.mem_append, List.mem_filter]
    by_cases hid : i = id
    · subst hid
      simp [hnot]
    · simp [hid]
  · rw [if_neg hany]
    have hsame : (prefetchPages σ.queue).filter (· != id) = prefetchPages σ.queue := by
      refine List.filter_eq_self.2 fun i hi => bne_iff_ne.2 ?_
      rintro rfl
      exact hany (mem_prefetchPages.1 hi)
    rw [hsame]
    exact ⟨hnd', hiff⟩

theorem tracks_beginShutdown : Tracks cfg _ beginShutdown := by
  intro t h ω σ T _ _ _ hi
  have hi : Tracked σ ((t, h) ::ₘ T) := hi
  exact ⟨guar_tracking, h, ⟨fun hr => (by cases hr), hi.serving, hi.marks⟩, rfl⟩

theorem tracks_setPromise {k : Option Nat} {r : Except Error Unit} : Tracks cfg _ (setPromise k r) := by
  refine tracks_of_tame fun t ω σ _ => ?_
  cases k <;> exact ⟨rfl, rfl, rfl, rfl, fun _ hi => ⟨hi, fun hl => hl⟩⟩

theorem tracks_effect {a : Sec β} (ha : Effect l β a) : Tracks cfg β a := tracks_of_tame fun t ω σ _ => (ha t ω σ).tame

/-- Every section of an operation that is not a worker's. -/
theorem tracks_admits (cfg : RuntimeConfig) (hl : l ≠ .worker) : Admits cfg l (Tracks cfg) where
  effect h := tracks_effect h
  demand _ _ := tracks_pushDemand
  prefetch _ _ := tracks_pushPrefetch
  insert _ h := tracks_of_tame fun t ω σ _ => (h t ω σ).tame
  pop h := absurd h hl
  mark h := absurd h hl
  settle h := absurd h hl
  served h := absurd h hl
  claim _ _ := tracks_of_tame fun _ _ _ _ => tame_claimFree
  dequeue _ _ := tracks_removeQueuedPrefetch
  finish _ _ _ := tracks_of_tame fun _ _ _ hω => tame_finishFree (by
    obtain ⟨-, -, T, hi⟩ := hω
    exact hi.wf.events)
  stop _ := tracks_beginShutdown

/-! ## The worker -/

variable {T : Multiset (Nat × Option Serving)} {h h' : Option Serving}

@[simp] theorem entries_none : ((t, none) ::ₘ T).filterMap entry = T.filterMap entry := Multiset.filterMap_cons_none _ _ rfl

@[simp] theorem entries_some {s : Serving} : ((t, some s) ::ₘ T).filterMap entry = (t, s.page) ::ₘ T.filterMap entry :=
  Multiset.filterMap_cons_some _ _ _ rfl

/-- Another token for the thread: a marked page is live or has a worker that drops the mark, as before. -/
theorem Tracked.swap {i : PageId} (hi : Tracked σ ((t, h) ::ₘ T)) (hm : i ∈ σ.prefetched)
    (hown : h = some ⟨i, true⟩ → σ.Live i ∨ h' = some ⟨i, true⟩) : σ.Live i ∨ ∃ s, (s, some ⟨i, true⟩) ∈ (t, h') ::ₘ T := by
  rcases hi.marks i hm with hl | ⟨s, hs⟩
  · exact .inl hl
  rcases Multiset.mem_cons.1 hs with heq | hs
  · cases heq
    rcases hown rfl with hl | rfl
    · exact .inl hl
    · exact .inr ⟨t, Multiset.mem_cons_self ..⟩
  · exact .inr ⟨s, Multiset.mem_cons_of_mem hs⟩

/-- A worker whose page is live need not drop the mark. -/
theorem Tracked.relieve {b : Bool} (hi : Tracked σ ((t, some ⟨id, b⟩) ::ₘ T)) (hl : σ.Live id) : Tracked σ ((t, some ⟨id, false⟩) ::ₘ T) := by
  refine ⟨hi.pending, by simpa using hi.serving, fun i hm => hi.swap hm fun he => ?_⟩
  cases he
  exact .inl hl

/-- The token with which a worker goes on with a request. -/
def servingOf (r : Request) : Option Serving := if r.kind = .prefetch then some ⟨r.page, false⟩ else none

theorem prefetchPages_cons (r : Request) (q : List Request) :
    prefetchPages (r :: q) = if r.kind = .prefetch then r.page :: prefetchPages q else prefetchPages q := by
  unfold prefetchPages
  by_cases hk : r.kind = .prefetch <;> simp [hk]

theorem popRequest_ok : SectionOk (tracking cfg) t none (fun _ => True) popRequest fun _ r h' =>
    ∃ x, r = .ok x ∧ h' = x.bind servingOf := by
  intro ω σ T _ _ _ hi
  have hi : Tracked σ ((t, none) ::ₘ T) := hi
  refine ⟨guar_tracking, ?_⟩
  show ∃ h', Tracked (popRequest t ω σ).2 ((t, h') ::ₘ T) ∧ _
  unfold popRequest
  split
  · exact ⟨none, hi, none, rfl, rfl⟩
  rename_i r rest hq
  refine ⟨servingOf r, ?_, some r, rfl, rfl⟩
  have hp := hi.pending
  have hserving := hi.serving
  rw [entries_none] at hserving
  unfold Shared.outstanding at hp
  rw [hq, prefetchPages_cons] at hp
  unfold servingOf
  by_cases hk : r.kind = .prefetch
  · simp only [if_pos hk] at hp ⊢
    refine ⟨fun hr => ?_, ?_, fun i hm => hi.swap hm fun he => by cases he⟩
    · obtain ⟨hnd, hnd', hiff⟩ := hp hr
      have hperm : List.Perm (prefetchPages rest ++ r.page :: σ.prefetching.map Prod.snd)
          (r.page :: prefetchPages rest ++ σ.prefetching.map Prod.snd) := List.perm_middle
      exact ⟨hperm.nodup_iff.2 hnd, hnd', fun i => (hiff i).trans hperm.mem_iff.symm⟩
    · rw [entries_some, ← hserving]
      rfl
  · simp only [if_neg hk] at hp ⊢
    exact ⟨hp, hi.serving, hi.marks⟩

theorem markPrefetched_ok : SectionOk (tracking cfg) t (some ⟨id, false⟩) (fun _ => True) (markPrefetched id) fun _ r h' =>
    ∃ b, r = .ok () ∧ h' = some ⟨id, b⟩ := by
  intro ω σ T _ _ _ hi
  have hi : Tracked σ ((t, some ⟨id, false⟩) ::ₘ T) := hi
  refine ⟨guar_tracking, ?_⟩
  show ∃ h', Tracked (if (σ.table.lookup id).isSome then { σ with prefetched := id :: σ.prefetched.filter (· != id) } else σ) ((t, h') ::ₘ T) ∧ _
  by_cases hl : σ.Live id
  · refine ⟨_, ?_, false, rfl, rfl⟩
    split
    · refine ⟨hi.pending, hi.serving, fun i hm => ?_⟩
      rcases List.mem_cons.1 hm with rfl | hm
      · exact .inl hl
      · exact hi.marks i (List.mem_of_mem_filter hm)
    · exact hi
  · -- `free_page` has taken the page: the load will fail, and the worker drop the mark
    have hserving : (σ.prefetching : Multiset (Nat × PageId)) = ((t, some ⟨id, true⟩) ::ₘ T).filterMap entry := by simpa using hi.serving
    refine ⟨_, ?_, true, rfl, rfl⟩
    split
    · refine ⟨hi.pending, hserving, fun i hm => ?_⟩
      rcases List.mem_cons.1 hm with rfl | hm
      · exact .inr ⟨t, Multiset.mem_cons_self ..⟩
      · exact hi.swap (List.mem_of_mem_filter hm) fun he => by cases he
    · exact ⟨hi.pending, hserving, fun i hm => hi.swap hm fun he => by cases he⟩

theorem unmarkPrefetched_ok {b : Bool} : SectionOk (tracking cfg) t (some ⟨id, b⟩) (fun _ => True) (unmarkPrefetched id) fun _ r h' =>
    r = .ok () ∧ h' = some ⟨id, false⟩ := by
  intro ω σ T _ _ _ hi
  have hi : Tracked σ ((t, some ⟨id, b⟩) ::ₘ T) := hi
  have hserving : (σ.prefetching : Multiset (Nat × PageId)) = ((t, some ⟨id, false⟩) ::ₘ T).filterMap entry := by simpa using hi.serving
  refine ⟨guar_tracking, some ⟨id, false⟩, ⟨hi.pending, hserving, fun i hm => ?_⟩, rfl, rfl⟩
  obtain ⟨hm, hne⟩ := List.mem_filter.1 hm
  refine hi.swap hm fun he => ?_
  cases he
  exact absurd rfl (bne_iff_ne.1 hne)

theorem finishPrefetch_ok : SectionOk (tracking cfg) t (some ⟨id, false⟩) (fun _ => True) (finishPrefetch id) fun _ _ h' => h' = none := by
  intro ω σ T _ _ _ hi
  have hi : Tracked σ ((t, some ⟨id, false⟩) ::ₘ T) := hi
  have hserving : (σ.prefetching : Multiset (Nat × PageId)) = (t, id) ::ₘ T.filterMap entry := hi.serving.trans entries_some
  have hmem : (t, id) ∈ σ.prefetching := by
    rw [← Multiset.mem_coe, hserving]
    exact Multiset.mem_cons_self ..
  have hrest := List.perm_cons_erase hmem
  refine ⟨guar_tracking, none, ⟨fun hr => ?_, ?_, fun i hm => hi.swap hm fun he => by cases he⟩, rfl⟩
  · obtain ⟨hnd, hnd', hiff⟩ := hi.pending hr
    -- the request in the hands of the worker was the only one
    have hperm : List.Perm σ.outstanding (id :: (prefetchPages σ.queue ++ (σ.prefetching.erase (t, id)).map Prod.snd)) :=
      ((hrest.map Prod.snd).append_left _).trans List.perm_middle
    obtain ⟨hnot, hnd⟩ := List.nodup_cons.1 (hperm.nodup_iff.1 hnd)
    refine ⟨hnd, hnd'.filter _, fun i => ?_⟩
    show i ∈ σ.pendingPrefetches.filter (· != id) ↔ i ∈ prefetchPages σ.queue ++ (σ.prefetching.erase (t, id)).map Prod.snd
    rw [List.mem_filter, hiff i, hperm.mem_iff, List.mem_cons, bne_iff_ne]
    constructor
    · rintro ⟨rfl | hi, hne⟩
      · exact absurd rfl hne
      · exact hi
    · intro hi
      refine ⟨.inr hi, ?_⟩
      rintro rfl
      exact hnot hi
  · have hcons : (t, id) ::ₘ (σ.prefetching.erase (t, id) : Multiset (Nat × PageId)) = (t, id) ::ₘ T.filterMap entry := by
      rw [← hserving]
      exact (Multiset.coe_eq_coe.2 hrest).symm
    exact ((Multiset.cons_inj_right _).1 hcons).trans entries_none.symm

/-! ## The load of a page that `free_page` has taken -/

/-- A page that is not live is gone or released. -/
theorem released_of_not_live {p : PageMetadata} {T : Multiset (Nat × Hold)} (hi : Inv cfg σ T) (hl : ¬σ.Live id)
    (hp : σ.table.lookup id = some p) : p.state = .released := by
  obtain ⟨hmem, rfl⟩ := Keyed.lookup_some.1 hp
  have hphase : phaseIn σ.history p.id = p.state.phase := (hi.record hmem).phase
  by_contra hne
  refine hl (hphase.trans ?_)
  cases hs : p.state <;> first | rfl | exact absurd hs hne

theorem settledPage_not_released {m : PageMetadata} (h : (settledPage id t ω σ).1 = .ok m) : m.state ≠ .released := by
  obtain ⟨hσ, hm⟩ := settledPage_run id t ω σ
  have hl := hm m h
  intro hs
  unfold settledPage at h
  rw [Act.bind_apply] at h
  unfold throwIfStopping at h
  by_cases hstop : σ.stopping = true
  · rw [if_pos hstop] at h
    cases h
  · rw [if_neg hstop] at h
    dsimp only at h
    rw [Act.bind_ok (copyOf_some hl), hs] at h
    cases h

/-- A section that only reads, run by a worker that is to drop the mark: the page is live, or the section finds it gone. -/
theorem reading_ok {a : Sec α} {P : Except Error α → Prop} (hread : ∀ ω σ, (a t ω σ).2 = σ)
    (ha : ∀ ω σ T, Inv cfg σ T → ¬σ.Live id → P (a t ω σ).1) :
    SectionOk (tracking cfg) t (some ⟨id, true⟩) (fun _ => True) a fun _ r h' =>
      h' = some ⟨id, false⟩ ∨ h' = some ⟨id, true⟩ ∧ P r := by
  intro ω σ T hω _ _ hi
  have hi : Tracked σ ((t, some ⟨id, true⟩) ::ₘ T) := hi
  obtain ⟨-, ⟨T', hinv⟩, -⟩ := hω
  refine ⟨guar_tracking, ?_⟩
  rw [hread ω σ]
  by_cases hl : σ.Live id
  · exact ⟨_, hi.relieve hl, .inl rfl⟩
  · exact ⟨_, hi, .inr ⟨rfl, ha ω σ T' hinv hl⟩⟩

theorem copyOf_tracked : SectionOk (tracking cfg) t (some ⟨id, true⟩) (fun _ => True) (copyOf id) fun _ r h' =>
    h' = some ⟨id, false⟩ ∨ h' = some ⟨id, true⟩ ∧ ∀ m, r = .ok m → m.state = .released := by
  refine reading_ok (fun ω σ => ?_) fun ω σ T hi hl => ?_
  all_goals
    unfold copyOf
    split
  · rfl
  · rfl
  · rename_i p hp
    intro m hm
    cases hm
    exact released_of_not_live hi hl hp
  · exact fun m hm => by cases hm

theorem settledPage_tracked : SectionOk (tracking cfg) t (some ⟨id, true⟩) (fun _ => True) (settledPage id) fun _ r h' =>
    h' = some ⟨id, false⟩ ∨ h' = some ⟨id, true⟩ ∧ ∀ m, r ≠ .ok m := by
  refine reading_ok (fun ω σ => (settledPage_run id t ω σ).1) fun ω σ T hi hl m hm => ?_
  exact settledPage_not_released hm (released_of_not_live hi hl ((settledPage_run id t ω σ).2 m hm))

/-- What a load ends with: a worker that is still to drop the mark has an error to handle. -/
def Loaded (id : PageId) (r : Except Error α) (h : Option Serving) : Prop :=
  h = some ⟨id, false⟩ ∨ h = some ⟨id, true⟩ ∧ ∃ e, r = .error e

theorem wp_effects {p : Code α} (hp : p.All (Effect .worker)) : wp (tracking cfg) t p σ h fun _ _ h' => h' = h :=
  wp_of_all (P := Tracks cfg) (fun _ _ ha => ha t h) (hp.mono fun _ _ => tracks_effect)

theorem wp_loaded {p : Code α} (hp : p.All (Effect .worker)) : wp (tracking cfg) t p σ (some ⟨id, false⟩) fun _ r h' => Loaded id r h' :=
  wp_mono (fun _ _ _ _ he => .inl he) (wp_effects hp)

theorem loadAttempts_tracked {target : Tier} {b : Bool} (n : Nat) :
    wp (tracking cfg) t (loadAttempts cfg id target n) σ (some ⟨id, b⟩) fun _ r h' => Loaded id r h' := by
  cases b with
  | false => exact wp_loaded loadAttempts_all
  | true =>
    cases n with
    | zero => exact .inr ⟨rfl, _, rfl⟩
    | succ n =>
      have hall : (loadAttempts cfg id target (n + 1)).All (Effect .worker) := loadAttempts_all
      refine wp_bind (M := fun _ _ h' => h' = some ⟨id, true⟩) (wp_effects (.atomic effect_of_state)) ?_ ?_
      · rintro σ ⟨⟩ h' - rfl
        refine wp_bind (wp_atomic copyOf_tracked.anywhere) ?_ ?_
        · rintro σ m h' - (rfl | ⟨rfl, hm⟩)
          · -- from here on the page is live, or will have been when it lost its mark
            exact wp_loaded ((hall.2 (.ok ())).2 (.ok m))
          · rw [hm m rfl]
            refine wp_bind (wp_await settledPage_tracked.anywhere) ?_ ?_
            · rintro σ m' h' - (rfl | ⟨rfl, hm'⟩)
              · exact wp_loaded loadAttempts_all
              · exact absurd rfl (hm' m')
            · rintro σ e h' - (rfl | ⟨rfl, -⟩)
              · exact .inl rfl
              · exact .inr ⟨rfl, e, rfl⟩
        · rintro σ e h' - (rfl | ⟨rfl, -⟩)
          · exact .inl rfl
          · exact .inr ⟨rfl, e, rfl⟩
      · rintro σ e h' - rfl
        exact .inr ⟨rfl, e, rfl⟩

theorem wp_setPromise {k : Option Nat} {r : Except Error Unit} :
    wp (tracking cfg) t (.atomic (setPromise k r)) σ h fun _ r' h' => r' = .ok () ∧ h' = h := by
  refine wp_atomic fun ω σ T hω _ ht hi => ?_
  obtain ⟨hg, h', hi', he⟩ := tracks_setPromise t h ω σ T hω trivial ht hi
  exact ⟨hg, h', hi', rfl, he⟩

theorem wp_emitEvent : wp (tracking cfg) t (.atomic emitEvent) σ h fun _ r' h' => r' = .ok () ∧ h' = h := by
  refine wp_atomic fun ω σ T hω _ ht hi => ⟨guar_tracking, h, hi, ?_, rfl⟩
  simp only [emitEvent, hω.1]

/-- A worker that handles an error of the load of a prefetched page drops the mark. -/
theorem workerFailed_tracked {r : Request} {e : Error} {b : Bool} (hk : r.kind = .prefetch) :
    wp (tracking cfg) t (workerFailed r e) σ (some ⟨r.page, b⟩) fun _ r' h' => r' = .ok () ∧ h' = some ⟨r.page, false⟩ := by
  unfold workerFailed
  simp only [if_pos hk]
  refine wp_bind (wp_atomic unmarkPrefetched_ok.anywhere) ?_ (fun _ _ _ _ h => by cases h.1)
  rintro σ ⟨⟩ h' - ⟨-, rfl⟩
  by_cases hc : e.code ≠ .cancelled
  · simp only [if_pos hc]
    refine wp_bind wp_emitEvent ?_ (fun _ _ _ _ h => by cases h.1)
    rintro σ ⟨⟩ h' - ⟨-, rfl⟩
    exact wp_setPromise
  · simp only [if_neg hc]
    exact wp_setPromise

theorem serve_tracked {r : Request} : wp (tracking cfg) t (serve cfg r) σ (servingOf r) fun _ _ h' => h' = none := by
  unfold serve servingOf
  by_cases hk : r.kind = .prefetch
  · simp only [if_pos hk]
    refine wp_bind (wp_atomic markPrefetched_ok.anywhere) ?_ (fun _ _ _ _ ⟨_, h, _⟩ => by cases h)
    rintro σ ⟨⟩ h' - ⟨b, -, rfl⟩
    refine wp_bind (M := fun _ r' h' => r' = .ok () ∧ h' = some ⟨r.page, false⟩) ?_ ?_ (fun _ _ _ _ h => by cases h.1)
    · refine wp_tryCatch (M := fun _ r' h' => Loaded r.page r' h' ∧ (r' = .ok () → h' = some ⟨r.page, false⟩)) ?_ ?_ ?_
      · refine wp_bind (loadAttempts_tracked 16) ?_ ?_
        · rintro σ ⟨⟩ h' - (rfl | ⟨-, e, he⟩)
          · exact wp_mono (fun _ _ _ _ h => ⟨.inl h.2, fun _ => h.2⟩) wp_setPromise
          · cases he
        · rintro σ e h' - hloaded
          refine ⟨?_, fun h => by cases h⟩
          rcases hloaded with rfl | ⟨rfl, -⟩
          · exact .inl rfl
          · exact .inr ⟨rfl, e, rfl⟩
      · rintro σ ⟨⟩ h' - ⟨-, hok⟩
        exact ⟨rfl, hok rfl⟩
      · rintro σ e h' - ⟨rfl | ⟨rfl, -⟩, -⟩
        · exact workerFailed_tracked hk
        · exact workerFailed_tracked hk
    · rintro σ ⟨⟩ h' - ⟨-, rfl⟩
      exact wp_atomic finishPrefetch_ok.anywhere
  · -- a demand: no section of the turn has to do with prefetches
    simp only [if_neg hk]
    have hfailed : ∀ e, (workerFailed r e).All (Tracks cfg) := by
      intro e
      unfold workerFailed
      simp only [if_neg hk]
      by_cases hc : e.code ≠ .cancelled
      · simp only [if_pos hc]
        exact .bind (.atomic (tracks_effect (l := .worker) effect_of_state)) fun _ => .atomic tracks_setPromise
      · simp only [if_neg hc]
        exact .atomic tracks_setPromise
    refine wp_of_all (P := Tracks cfg) (fun _ _ ha => ha t none) ?_
    exact .bind (.tryCatch (.bind (loadAttempts_all.mono fun _ _ => tracks_effect (l := .worker)) fun _ => .atomic tracks_setPromise) hfailed)
      fun _ => trivial

theorem workerTurn_tracked : wp (tracking cfg) t (workerTurn cfg) σ none fun _ _ h' => h' = none := by
  unfold workerTurn
  refine wp_bind (wp_await popRequest_ok.anywhere) ?_ (fun _ _ _ _ ⟨_, h, _⟩ => by cases h)
  rintro σ x h' - ⟨y, hx, rfl⟩
  cases hx
  cases x with
  | none => exact rfl
  | some r => exact serve_tracked

theorem code_tracked (l : Op) : wp (tracking cfg) t (code cfg l) σ none fun _ _ h' => h' = none := by
  by_cases hl : l = .worker
  · subst hl
    exact wp_bind workerTurn_tracked (fun _ _ _ _ h => h) fun _ _ _ _ h => h
  · exact wp_of_all (P := Tracks cfg) (fun _ _ ha => ha t none) (code_all (tracks_admits cfg hl))

/-! ## Every run -/

/-- Every configuration reached while no emission throws is sound; a thread that has ended has no prefetch in hand. -/
theorem reachable_tracked (hr : Reachable Emits (code cfg) (cfg.initial disk) c) :
    ∃ hs, Sound (tracking cfg) (fun _ _ => True) (fun _ _ _ _ h => h = none) c hs := by
  have hinit : Tracked (cfg.initial disk) 0 := by
    refine ⟨fun _ => ⟨.nil, .nil, fun _ => Iff.rfl⟩, rfl, fun i hi => ?_⟩
    cases hi
  have hspawn : ∀ σ T t, Tracked σ T → Tracked σ ((t, none) ::ₘ T) := by
    intro σ T t hi
    refine ⟨hi.pending, hi.serving.trans entries_none.symm, fun i hm => (hi.marks i hm).imp_right ?_⟩
    rintro ⟨s, hs⟩
    exact ⟨s, Multiset.mem_cons_of_mem hs⟩
  have henv : ∀ (c c' : Runtime) t ω, Reachable Emits (code cfg) (cfg.initial disk) c → Emits (.exec t ω) →
      c.move (code cfg) (.exec t ω) = some c' → Quietly cfg t ω c.shared c'.shared :=
    fun c c' t ω hc ha hm => ⟨ha, reachable_inv hc, reachable_inv (.move _ ha hc hm)⟩
  exact hr.sound hinit hspawn (fun _ => trivial) (fun _ _ _ _ _ => trivial) henv (fun l _ t σ _ => code_tracked l)
    fun _ _ _ _ _ _ _ h => h

/-- While the runtime runs, the pending prefetches are the outstanding ones, and a page has one at most; threads that
have one in hand are running; a page that is marked and no longer in the table is in such hands. -/
structure PrefetchesTracked (c : Runtime) : Prop where
  pending : c.shared.running = true → c.shared.outstanding.Nodup ∧ c.shared.pendingPrefetches.Nodup ∧
    ∀ id, id ∈ c.shared.pendingPrefetches ↔ id ∈ c.shared.outstanding
  workers : ∀ x ∈ c.shared.prefetching, c.Running x.1
  marks : ∀ id ∈ c.shared.prefetched, c.shared.table.lookup id = none → ∃ t, (t, id) ∈ c.shared.prefetching

theorem prefetches_tracked (hr : Reachable Emits (code cfg) (cfg.initial disk) c) : PrefetchesTracked c := by
  obtain ⟨hs, hsound⟩ := reachable_tracked hr
  have hi : Tracked c.shared (tagged hs) := hsound.inv
  have hentry : ∀ t id, (t, id) ∈ c.shared.prefetching ↔ ∃ b, hs[t]? = some (some ⟨id, b⟩) := by
    intro t id
    rw [← Multiset.mem_coe, hi.serving, Multiset.mem_filterMap]
    constructor
    · rintro ⟨⟨s, h⟩, hmem, he⟩
      cases h with
      | none => cases he
      | some v =>
        cases he
        exact ⟨v.drops, mem_tagged.1 hmem⟩
    · rintro ⟨b, hb⟩
      exact ⟨(t, some ⟨id, b⟩), mem_tagged.2 hb, rfl⟩
  refine ⟨hi.pending, ?_, fun id hm hgone => ?_⟩
  · rintro ⟨t, id⟩ hx
    obtain ⟨b, hb⟩ := (hentry t id).1 hx
    have hlt : t < c.threads.length := by
      rw [← hsound.length]
      exact (List.getElem?_eq_some_iff.1 hb).1
    refine ⟨c.threads[t], List.getElem?_eq_getElem hlt, fun r hret => ?_⟩
    have hw := hsound.safe t _ _ (List.getElem?_eq_getElem hlt) hb
    rw [hret] at hw
    cases hw
  · obtain ⟨T, hinv⟩ := reachable_inv hr
    have hdead : ¬c.shared.Live id := by
      intro hl
      have hsome := hinv.wf.present id (by rw [show phaseIn c.shared.history id = .live from hl]; decide)
      rw [hgone] at hsome
      cases hsome
    obtain ⟨t, ht⟩ := (hi.marks id hm).resolve_left hdead
    exact ⟨t, (hentry t id).2 ⟨true, mem_tagged.1 ht⟩⟩

/-- `free_page` takes the page when a worker has its prefetch request in hand, and erases it after the worker has marked it. -/
def freedInHand : List (Move Env Op) :=
  .spawn (.allocate { logicalBytes := 10 }) :: turns 0 6 ++ .spawn (.demoteToNvme 1) :: turns 1 11 ++ .spawn (.prefetch [1]) :: turns 2 5 ++
    .spawn .worker :: turns 3 1 ++ .spawn (.free 1) :: turns 4 2 ++ turns 3 1 ++ turns 4 7

theorem prefetches_tracked_freed : ∃ c, Reachable Emits (code (smallConfig 0 1 1)) ((smallConfig 0 1 1).initial fun _ => 0) c ∧
    c.shared.pendingPrefetches = [1] ∧ c.shared.prefetched = [1] ∧ c.shared.table.lookup 1 = none ∧ PrefetchesTracked c := by
  obtain ⟨c, hr, -, hp, hm, hl⟩ : ∃ c, Reachable Emits (code (smallConfig 0 1 1)) ((smallConfig 0 1 1).initial fun _ => 0) c ∧
      c.labels = spawned freedInHand ∧ c.shared.pendingPrefetches = [1] ∧ c.shared.prefetched = [1] ∧ (c.shared.table.lookup 1).isSome = false :=
    Reachable.of_test _ (by simp [freedInHand, turns, Emits]) (by decide +kernel)
  exact ⟨c, hr, hp, hm, Option.isSome_eq_false_iff.1 hl |> Option.isNone_iff_eq_none.1, prefetches_tracked hr⟩

end FlashTier
