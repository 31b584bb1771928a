/-
What a failed `allocate_page` leaves behind. Its sections up to the insertion record no page, and a section
that inserts one returns; after it comes the telemetry only. So a call that throws created no page, unless
that last emission threw. The ids that calls return are distinct, also over restarts.
-/
import FlashTier.Invariant.Authors
import FlashTier.Guarantees.Accounting
import FlashTier.Conc.Steps

namespace FlashTier

open Conc

variable {cfg : RuntimeConfig} {disk : Bytes} {c : Runtime} {σ σ' : Shared} {t : Nat} {id : PageId} {α β : Type}

/-! ## Up to the insertion -/

/-- What is left of `allocate_page` once the page is in the table. -/
def announce (id : PageId) : Code Reply := do
  .atomic emitEvent
  pure (.page id)

/-- Every section records what a worker may record, so that it creates no page, or leaves the announcement of a
page to be run; and the program throws before it comes to one. -/
def Unplaced : Code Reply → Prop
  | .ret r => ∃ e, r = .error e
  | .step _ a k => ∀ t ω σ, (Noted .worker t σ (a t ω σ).2 ∧ Unplaced (k (a t ω σ).1)) ∨ ∃ id, k (a t ω σ).1 = announce id

/-- A part that creates no page, in front of one that has yet to. -/
theorem unplaced_bind {f : α → Code Reply} (hf : ∀ a, Unplaced (f a)) : ∀ {p : Code α}, p.All (Tidy .worker) → Unplaced (p >>= f)
  | .ret (.ok a), _ => hf a
  | .ret (.error e), _ => ⟨e, rfl⟩
  | .step _ _ _, hp => fun t ω σ => .inl ⟨hp.1 t ω σ, unplaced_bind hf (hp.2 _)⟩

/-- A section that creates no page when it throws. -/
def Late (s : Sec α) : Prop := ∀ t ω σ e, (s t ω σ).1 = .error e → Noted .worker t σ (s t ω σ).2

theorem Late.bind {x : Sec α} {f : α → Sec β} (hx : Tidy .worker α x) (hf : ∀ a, Late (f a)) : Late (x >>= f) := by
  intro t ω σ e he
  have hnote := hx t ω σ
  rw [Act.bind_apply] at he ⊢
  revert hnote he
  rcases x t ω σ with ⟨e' | a, σ'⟩
  · exact fun _ hnote => hnote
  · exact fun he hnote => hnote.trans (hf a t ω σ' e he)

theorem late_recordAlloc {p : PageMetadata} {content : Shared → Bytes} : Late (recordAlloc p content) := by
  intro t ω σ e he
  cases he

theorem tidy_insertPage {p : PageMetadata} : Tidy .worker _ (insertPage p) := by
  intro t ω σ
  unfold insertPage
  split
  · exact noted_same rfl rfl rfl
  · exact (path_assertion (ω := ω) .duplicateId _ σ).noted

theorem late_insertVram {p : PageMetadata} {ptr : Ptr} : Late (insertVram p ptr) :=
  .bind tidy_insertPage fun _ => .bind tidy_transition fun _ => late_recordAlloc

theorem late_insertHost {p : PageMetadata} {ptr : Ptr} : Late (insertHost p ptr) :=
  .bind tidy_insertPage fun _ => .bind effect_allocationTier.tidy fun _ => .bind tidy_transition fun _ =>
    .bind (effect_withPage fun _ => by rfl).tidy fun _ => late_recordAlloc

theorem late_insertNvme {p : PageMetadata} : Late (insertNvme cfg p) := by
  refine .bind effect_reserveNvmeRange.tidy fun r => ?_
  cases r with
  | none => exact fun _ _ _ _ _ => noted_same rfl rfl rfl
  | some offset => exact .bind tidy_insertPage fun _ => .bind tidy_transition fun _ => late_recordAlloc

/-- The insertion is followed by the announcement. -/
theorem unplaced_insert {s : Sec Unit} (hs : Late s) (id : PageId) :
    Unplaced (.atomic s >>= fun _ => (do .atomic emitEvent; pure id : Code PageId) >>= fun id => pure (.page id)) := by
  intro t ω σ
  rcases hr : (s t ω σ).1 with e | u
  · exact .inl ⟨hs t ω σ e hr, e, rfl⟩
  · exact .inr ⟨id, Prog.bind_bind ..⟩

theorem unplaced_allocVram {p : PageMetadata} (id : PageId) : Unplaced (allocVram cfg p >>= fun _ =>
    (do .atomic emitEvent; pure id : Code PageId) >>= fun id => pure (.page id)) := by
  unfold allocVram
  rw [Prog.bind_bind]
  refine unplaced_bind (fun _ => ?_) (ensureVramHeadroom_all.mono fun _ _ => Effect.tidy)
  rw [Prog.bind_bind]
  refine unplaced_bind (fun b => ?_) (.atomic effect_vramTryReserve.tidy)
  cases b with
  | false => exact ⟨_, rfl⟩
  | true =>
    rw [if_pos rfl, Prog.bind_bind]
    refine unplaced_bind (fun ptr => unplaced_insert late_insertVram id) (.tryCatch (.atomic effect_deviceAlloc.tidy) fun e => ?_)
    exact .bind (.atomic effect_vramRelease.tidy) fun _ => trivial

theorem unplaced_allocHost {p : PageMetadata} (id : PageId) : Unplaced (allocHost cfg p >>= fun _ =>
    (do .atomic emitEvent; pure id : Code PageId) >>= fun id => pure (.page id)) := by
  unfold allocHost
  rw [Prog.bind_bind]
  refine unplaced_bind (fun x => ?_) (.atomic effect_hostAllocate.tidy)
  cases x with
  | none => exact ⟨_, rfl⟩
  | some ptr => exact unplaced_insert late_insertHost id

/-- `allocate_page` creates no page before the section that leaves only its announcement. -/
theorem unplaced_allocate (a : AllocArgs) : Unplaced (code cfg (.allocate a)) := by
  show Unplaced (allocatePage cfg a >>= fun id => pure (.page id))
  unfold allocatePage
  rw [Prog.bind_bind]
  refine unplaced_bind (fun _ => ?_) (.atomic (effect_of_state (l := .worker)).tidy)
  split
  · exact ⟨_, rfl⟩
  split
  · exact ⟨_, rfl⟩
  rw [Prog.bind_bind]
  refine unplaced_bind (fun id => ?_) (.atomic effect_takePageId.tidy)
  rw [Prog.bind_bind]
  refine unplaced_bind (fun tier => ?_) (.atomic fun _ _ _ => noted_same rfl rfl rfl)
  cases tier with
  | vram => exact Prog.bind_bind .. ▸ unplaced_allocVram id
  | hostPinned | hostPageable => exact Prog.bind_bind .. ▸ unplaced_allocHost id
  | nvme => exact Prog.bind_bind .. ▸ unplaced_insert late_insertNvme id
  | none => exact ⟨_, rfl⟩

/-! ## Every run -/

/-- The sink takes the event of a page that `allocate_page` has put into the table. -/
def Announced (c : Runtime) : Move Env Op → Prop
  | .exec t ω => ∀ a id, c.threads[t]? = some ⟨.allocate a, announce id⟩ → ω.emit = none
  | .spawn _ => True

/-- How far a call of thread `t` is: it has created no page, or it has one to announce, or it returned one. -/
def CallAt (t : Nat) (p : Code Reply) (h : List Event) : Prop :=
  ((∀ id, ¬Created t id h) ∧ Unplaced p) ∨ (∃ id, p = announce id) ∨ ∃ id, p = .ret (.ok (.page id))

theorem not_created_append {evs h : List Event} (hn : ∀ id, ¬Created t id h) (he : ∀ e ∈ evs, e.thread ≠ t ∨ Op.worker.records e = true) (id : PageId) :
    ¬Created t id (evs ++ h) := by
  rintro ⟨n, b, x, hm⟩
  rcases List.mem_append.1 hm with hm | hm
  · rcases he _ hm with he | he
    · exact he rfl
    · cases he
  · exact hn id ⟨n, b, x, hm⟩

/-- A run whose steps are these is a run of the runtime. -/
theorem reached_of_steps {allowed : Runtime → Move Env Op → Prop}
    (h : Steps (fun c m => c.move (code cfg) m) allowed ⟨cfg.initial disk, []⟩ c) : Reached cfg disk c :=
  Reachable.steps .start (fun _ _ _ => trivial) h

/-- The step lemma: every call of `allocate_page` goes on as it should. -/
theorem callAt_move {c' : Runtime} {m : Move Env Op} (hr : Reached cfg disk c) (ha : Announced c m) (hm : c.move (code cfg) m = some c')
    (hc : ∀ t a p, c.threads[t]? = some ⟨.allocate a, p⟩ → CallAt t p c.shared.history) :
    ∀ t a p, c'.threads[t]? = some ⟨.allocate a, p⟩ → CallAt t p c'.shared.history := by
  have hall := threads_move (P := fun c t l p => ∀ a, l = .allocate a → CallAt t p c.shared.history) hm ?_ ?_ ?_
    fun t l p ht a hl => hc t a p (hl ▸ ht)
  · exact fun t a p ht => hall t _ p ht a rfl
  · -- a thread that is just started has recorded nothing
    rintro l rfl a rfl
    cases hm
    refine .inl ⟨?_, unplaced_allocate a⟩
    rintro id ⟨n, b, x, hev⟩
    obtain ⟨l, hl, -⟩ := reachable_records hr _ hev
    rw [Config.labels, List.getElem?_map] at hl
    simp [Event.thread] at hl
  · rintro t ω l β g act k rfl hs hσ hc a rfl
    rw [hσ]
    rcases hc a rfl with ⟨hn, hu⟩ | ⟨id, hid⟩ | ⟨id, hid⟩
    · rcases hu t ω c.shared with ⟨⟨⟨evs, hh, hevs⟩, -⟩, hu⟩ | ⟨id, hid⟩
      · refine .inl ⟨fun id => ?_, hu⟩
        rw [hh]
        exact not_created_append hn (fun e he => .inr (hevs e he).2) id
      · exact .inr (.inl ⟨id, hid⟩)
    · -- the announcement does not throw
      have hemit := ha a id (hid ▸ hs)
      cases hid
      refine .inr (.inr ⟨id, ?_⟩)
      show Prog.onOk _ (emitEvent t ω c.shared).1 = _
      unfold emitEvent
      rw [hemit]
      rfl
    · cases hid
  · rintro t l p hne - hc a rfl
    rcases hc a rfl with ⟨hn, hu⟩ | hrest
    · refine .inl ⟨fun id => ?_, hu⟩
      cases m with
      | spawn l =>
        cases hm
        exact hn id
      | exec s ω =>
        obtain ⟨l', hl', ⟨evs, hh, hevs⟩, -⟩ := noted_move hr hm
        have hst : s ≠ t := by
          rintro rfl
          exact hne ω rfl
        rw [hh]
        exact not_created_append hn (fun e he => .inl ((hevs e he).1 ▸ hst)) id
    · exact .inr hrest

theorem callAt_run (h : Steps (fun c m => c.move (code cfg) m) Announced ⟨cfg.initial disk, []⟩ c) {a : AllocArgs} {p : Code Reply}
    (ht : c.threads[t]? = some ⟨.allocate a, p⟩) : CallAt t p c.shared.history := by
  have hall : Reached cfg disk c ∧ ∀ t a p, c.threads[t]? = some ⟨.allocate a, p⟩ → CallAt t p c.shared.history := by
    refine h.invariant (P := fun c => Reached cfg disk c ∧ ∀ t a p, c.threads[t]? = some ⟨.allocate a, p⟩ → CallAt t p c.shared.history)
      (fun c m c' ha hm hc => ⟨.move m trivial hc.1 hm, callAt_move hc.1 ha hm hc.2⟩) ⟨.start, fun t a p ht => ?_⟩
    simp at ht
  exact hall.2 t a p ht

/-! ## What is in use -/

/-- A share for every thread, such that these and the shares of the pages are all that is in use, and each
thread has the share that what it has left to run gives back or puts into the table: with it the thread is safe,
and at its end it has none, unless a release call of a transfer it made failed. -/
structure Shares (cfg : RuntimeConfig) (c : Runtime) (hs : List Hold) : Prop where
  length : hs.length = c.threads.length
  ledger : c.shared.ledger = rest cfg c.shared none (tagged hs)
  owed : ∀ t th h, c.threads[t]? = some th → hs[t]? = some h →
    wp (logic (fun _ _ _ => True) cfg) t th.code c.shared h fun σ _ h' => Rests t σ h'

/-- A thread that has ended has no share, unless a release call of a transfer it made failed: then it has that
of the transfer. -/
theorem Shares.ended {hs : List Hold} (h : Shares cfg c hs) {l : Op} {r : Except Error Reply} {hd : Hold}
    (ht : c.threads[t]? = some ⟨l, .ret r⟩) (hhd : hs[t]? = some hd) : Rests t c.shared hd := h.owed t _ hd ht hhd

theorem reached_shares (hr : Reached cfg disk c) : ∃ hs, Shares cfg c hs := by
  obtain ⟨hs, h⟩ := reached_accounted hr
  have hi : Inv cfg c.shared (tagged hs) := h.inv
  refine ⟨hs, h.length, ?_, fun t th hd ht hhd => wp_mono (fun _ _ _ _ hq => hq.1) (h.safe t th hd ht hhd)⟩
  rw [hi.acc, zero_add]

/-- When no operation is in progress and no release call failed, what is in use is what the pages point to, and
the ids not used. -/
theorem quiet_ledger (hr : Reached cfg disk c) (hq : c.Quiet) (hf : ∀ e ∈ c.shared.history, e.releaseFailed = false) :
    ∃ ids, c.shared.ledger = (c.shared.table.bag.map (PageMetadata.parts cfg)).sum + Res.idsOf ids := by
  obtain ⟨hs, h⟩ := reached_accounted hr
  exact Inv.ledger_atRest h.inv (h.atRest hq hf)

/-! ## Who created a page -/

theorem mem_allocIds_iff : ∀ {h : List Event} {id : PageId}, id ∈ allocIds h ↔ ∃ t, Created t id h
  | [], id => by simp [allocIds, Created]
  | e :: h, id => by
    have ih : id ∈ allocIds h ↔ ∃ t, Created t id h := mem_allocIds_iff
    constructor
    · intro hm
      cases e with
      | alloc t i n b x =>
        rcases List.mem_cons.1 hm with rfl | hm
        · exact ⟨t, n, b, x, List.mem_cons_self ..⟩
        · obtain ⟨t', hc⟩ := ih.1 hm
          exact ⟨t', hc.mono (List.subset_cons_self ..)⟩
      | _ =>
        obtain ⟨t', hc⟩ := ih.1 hm
        exact ⟨t', hc.mono (List.subset_cons_self ..)⟩
    · rintro ⟨t, n, b, x, hm⟩
      rcases List.mem_cons.1 hm with rfl | hm
      · exact List.mem_cons_self ..
      · exact mem_allocIds_append (ih.2 ⟨t, n, b, x, hm⟩) [e]

theorem created_of_mem (hr : Reached cfg disk c) {p : PageMetadata} (hp : p ∈ c.shared.table.items) :
    ∃ t, Created t p.id c.shared.history := by
  obtain ⟨T, hi⟩ := reachable_inv hr
  have hl : c.shared.table.lookup p.id = some p := Keyed.lookup_some.2 ⟨hp, rfl⟩
  exact mem_allocIds_iff.1 (mem_allocIds_of_sizeIn (Open.size hi hl))

/-- An id is used once. -/
theorem created_unique {t' : Nat} : ∀ {h : List Event}, Each EventOk h → Created t id h → Created t' id h → t = t'
  | [], _, ⟨_, _, _, hm⟩, _ => (List.not_mem_nil hm).elim
  | e :: h, he, ⟨n, b, x, hm⟩, ⟨n', b', x', hm'⟩ => by
    rcases List.mem_cons.1 hm with rfl | hm₁
    · rcases List.mem_cons.1 hm' with heq | hm₁'
      · cases heq
        rfl
      · exact absurd (mem_allocIds_iff.2 ⟨t', n', b', x', hm₁'⟩) he.1
    · rcases List.mem_cons.1 hm' with rfl | hm₁'
      · exact absurd (mem_allocIds_iff.2 ⟨t, n, b, x, hm₁⟩) he.1
      · exact created_unique he.2 ⟨n, b, x, hm₁⟩ ⟨n', b', x', hm₁'⟩

/-- The event of the insertion of a page by a thread. -/
def Event.creates (t : Nat) (id : PageId) : Event → Bool
  | .alloc s i .. => s == t && i == id
  | _ => false

theorem created_of_any {h : List Event} (hany : h.any (Event.creates t id) = true) : Created t id h := by
  obtain ⟨e, he, hc⟩ := List.any_eq_true.1 hany
  unfold Event.creates at hc
  split at hc
  · rw [Bool.and_eq_true, beq_iff_eq, beq_iff_eq] at hc
    obtain ⟨rfl, rfl⟩ := hc
    exact ⟨_, _, _, he⟩
  · cases hc

/-! ## Restarts -/

/-- What happens between a `start` and the next. -/
structure Life where
  cfg : RuntimeConfig
  disk : Bytes
  last : Runtime
  reached : Reached cfg disk last

/-- The id that a call of `allocate_page` returned. -/
def returnedId (th : Thread Env Shared Error Op Reply) : Option PageId :=
  match th with
  | ⟨.allocate _, .ret (.ok (.page id))⟩ => some id
  | _ => none

def Life.returned (x : Life) : List PageId := x.last.threads.filterMap returnedId

theorem returnedId_some {th : Thread Env Shared Error Op Reply} (h : returnedId th = some id) :
    ∃ a, th = ⟨.allocate a, .ret (.ok (.page id))⟩ := by
  unfold returnedId at h
  split at h <;> cases h
  exact ⟨_, rfl⟩

/-- A returned id is that of a page the call created. -/
theorem Life.created {x : Life} {th : Thread Env Shared Error Op Reply} (ht : x.last.threads[t]? = some th) (h : returnedId th = some id) :
    Created t id x.last.shared.history := by
  obtain ⟨a, rfl⟩ := returnedId_some h
  obtain ⟨hs, hacc⟩ := reached_accounted x.reached
  obtain ⟨hd, -, hends⟩ := hacc.ended ht
  exact hends.2 id rfl

theorem Life.returned_range {x : Life} {id : Nat} (h : id ∈ x.returned) : x.cfg.firstId ≤ id ∧ id < x.last.shared.nextPageId := by
  obtain ⟨th, hth, hid⟩ := List.mem_filterMap.1 h
  obtain ⟨t, ht⟩ := List.mem_iff_getElem?.1 hth
  obtain ⟨T, hi⟩ := reachable_inv x.reached
  have hissued := hi.wf.issued id (mem_allocIds_iff.2 ⟨t, x.created ht hid⟩)
  rw [hi.wf.next.1] at hissued
  exact hissued

theorem Life.returned_nodup (x : Life) : x.returned.Nodup := by
  obtain ⟨T, hi⟩ := reachable_inv x.reached
  refine List.pairwise_filterMap.2 (List.pairwise_iff_getElem.2 fun i j hi' hj hij id hid id' hid' heq => ?_)
  subst heq
  have hcreated := x.created (List.getElem?_eq_getElem hi') hid
  exact absurd (created_unique hi.wf.events hcreated (x.created (List.getElem?_eq_getElem hj) hid')) (Nat.ne_of_lt hij)

theorem Life.first_le (x : Life) : x.cfg.firstId ≤ x.last.shared.nextPageId := by
  obtain ⟨T, hi⟩ := reachable_inv x.reached
  have := hi.wf.next
  rw [this.1] at this
  exact this.2.1

/-- Each start goes on with the ids where the one before left off. -/
def Successive (lives : List Life) : Prop := lives.IsChain fun x y => y.cfg.firstId = x.last.shared.nextPageId

theorem successive_above : ∀ {x : Life} {lives : List Life}, Successive (x :: lives) →
    ∀ y ∈ lives, x.last.shared.nextPageId ≤ y.cfg.firstId
  | x, [], _, y, hy => (List.not_mem_nil hy).elim
  | x, z :: lives, h, y, hy => by
    obtain ⟨hz, hrest⟩ := List.isChain_cons_cons.1 h
    rcases List.mem_cons.1 hy with rfl | hy
    · exact hz.ge
    · calc x.last.shared.nextPageId = z.cfg.firstId := hz.symm
        _ ≤ z.last.shared.nextPageId := z.first_le
        _ ≤ y.cfg.firstId := successive_above hrest y hy

theorem returned_distinct : ∀ {lives : List Life}, Successive lives → (lives.flatMap Life.returned).Nodup
  | [], _ => List.nodup_nil
  | x :: lives, h => by
    rw [List.flatMap_cons]
    refine List.Nodup.append x.returned_nodup (returned_distinct (List.IsChain.tail h)) fun id hid hid' => ?_
    obtain ⟨y, hy, hid'⟩ := List.mem_flatMap.1 hid'
    have h1 := (x.returned_range hid).2
    have h2 := successive_above h y hy
    have h3 := (y.returned_range hid').1
    omega

/-! ## Failed calls -/

/-- A move in which no emission fails. -/
def Emits : Move Env Op → Prop
  | .exec _ ω => ω.emit = none
  | .spawn _ => True

theorem steps_of_emits (hr : Reachable Emits (code cfg) (cfg.initial disk) c) :
    Steps (fun c m => c.move (code cfg) m) Announced ⟨cfg.initial disk, []⟩ c := by
  induction hr with
  | start => exact Steps.refl _
  | move m hm _ hmove ih =>
    refine ih.tail ?_ hmove
    cases m with
    | spawn l => exact trivial
    | exec t ω => exact fun _ _ _ => hm

/-- Three calls of `allocate_page`, for a page in host memory, one in the store and one for which there is no room. -/
def threePages : List (Move Env Op) :=
  .spawn (.allocate { logicalBytes := 10 }) :: turns 0 6 ++ .spawn (.allocate { logicalBytes := 10 }) :: turns 1 5 ++
    .spawn (.allocate { logicalBytes := 10 }) :: turns 2 3

end FlashTier
