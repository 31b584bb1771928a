/-
When a reservation is refused. A headroom request that the planner refuses needs more than the device budget has
without the pinned pages, as long as no page with device memory is busy and no reservation waits for its page;
one whose victims turn out to be busy waits and asks again. A range of free extents is never given back for want
of budget, as long as the budget and the extents agree.
-/
import FlashTier.Guarantees.Transfers

namespace FlashTier

open Conc

variable {cfg : RuntimeConfig} {disk : Bytes} {c : Runtime} {σ : Shared} {T : Multiset (Nat × Hold)} {t n : Nat} {w : Res}
  {exclude : PageId} {ω : Env} {p : PageMetadata}

/-! ## Device headroom -/

/-- The bytes of some of the pages are no more than those of all. -/
theorem sum_map_le_of_subset {α : Type} {l l' : List α} (hl : l.Nodup) (hs : l ⊆ l') (f : α → Nat) :
    (l.map f).sum ≤ (l'.map f).sum := by
  obtain ⟨m, hp, hs⟩ := List.subperm_of_subset hl hs
  calc (l.map f).sum = (m.map f).sum := ((hp.map f).sum_nat).symm
    _ ≤ (l'.map f).sum := (hs.map f).sum_le_sum fun _ _ => Nat.zero_le _

namespace Refusal

variable (r : Refusal)

/-- No page with device memory is in a transfer or a release. -/
def Settled : Prop := ∀ p ∈ r.pages, p.vramPtr.isSome = true → p.state = .residentVram ∧ p.inFlight = false

/-- Every device byte in use is a page's: no reservation has yet to be attached to one. -/
def Attached : Prop := r.budget.used = ((r.pages.filter fun p => p.vramPtr.isSome).map PageMetadata.allocationSize).sum

/-- The planner was given the budget of this moment, and every page that may be evicted. -/
def Current : Prop :=
  (r.planner.vramLimit, r.planner.vramReserve, r.planner.vramUsed) = (r.budget.limit, r.budget.reserve, r.budget.used) ∧
    ∀ p ∈ r.pages, p.state = .residentVram → p.pinned = false → p.inFlight = false → p.id ∈ r.candidates

/-- The bytes of pinned pages in device memory. -/
def pinnedBytes : Nat := ((r.pages.filter fun p => p.state == .residentVram && p.pinned).map PageMetadata.allocationSize).sum

instance : Decidable r.Settled := inferInstanceAs (Decidable (∀ p ∈ r.pages, _ → _))
instance : Decidable r.Attached := inferInstanceAs (Decidable (_ = _))
instance : Decidable r.Current := inferInstanceAs (Decidable (_ ∧ _))

variable {r}

/-- The planner counted the bytes that the budget has free. -/
theorem Current.headroom (h : r.Current) (hb : r.budget.Ok) : r.planner.headroom + r.budget.used = r.budget.usable := by
  obtain ⟨hl, hv, hu⟩ : r.planner.vramLimit = r.budget.limit ∧ r.planner.vramReserve = r.budget.reserve ∧
      r.planner.vramUsed = r.budget.used := by simpa [Prod.ext_iff] using h.1
  have hle := hb.used
  unfold PlannerBudgets.headroom
  rw [hl, hv, hu]
  unfold TierBudget.usable at hle ⊢
  simp only
  split_ifs <;> omega

/-- The device bytes in use are those of candidates and of pinned pages. -/
theorem used_le {before : List Event} (hok : r.Ok before) (hset : r.Settled) (hatt : r.Attached) (hcur : r.Current) :
    r.budget.used ≤ bytesIn before r.candidates + r.pinnedBytes := by
  have hpinned : (((r.pages.filter fun p => p.vramPtr.isSome).filter fun p => p.pinned).map PageMetadata.allocationSize).sum ≤
      r.pinnedBytes := by
    have hsub : ((r.pages.filter fun p => p.vramPtr.isSome).filter fun p => p.pinned) =
        (r.pages.filter fun p => p.state == .residentVram && p.pinned).filter fun p => p.vramPtr.isSome := by
      rw [List.filter_filter, List.filter_filter]
      refine List.filter_congr fun p hp => ?_
      rcases hv : p.vramPtr.isSome with _ | _
      · simp
      · simp [(hset p hp hv).1]
    rw [hsub]
    exact (List.filter_sublist.map _).sum_le_sum fun _ _ => Nat.zero_le _
  have hfree : (((r.pages.filter fun p => p.vramPtr.isSome).filter fun p => ¬p.pinned).map PageMetadata.allocationSize).sum ≤
      bytesIn before r.candidates := by
    have hsub : ((r.pages.filter fun p => p.vramPtr.isSome).filter fun p => ¬p.pinned).Sublist r.pages :=
      List.filter_sublist.trans List.filter_sublist
    rw [show ((r.pages.filter fun p => p.vramPtr.isSome).filter fun p => ¬p.pinned).map PageMetadata.allocationSize =
        (((r.pages.filter fun p => p.vramPtr.isSome).filter fun p => ¬p.pinned).map PageMetadata.id).map
          fun id => (sizeIn before id).getD 0 by
      rw [List.map_map]
      refine List.map_congr_left fun p hp => ?_
      rw [Function.comp, hok.size p (hsub.subset hp)]
      rfl]
    refine sum_map_le_of_subset (hok.nodup.sublist (hsub.map _)) (fun id hid => ?_) _
    obtain ⟨p, hp, rfl⟩ := List.mem_map.1 hid
    obtain ⟨hp, hpin⟩ := List.mem_filter.1 hp
    obtain ⟨hp, hv⟩ := List.mem_filter.1 hp
    obtain ⟨hst, hf⟩ := hset p hp hv
    exact hcur.2 p hp hst (by simpa using hpin) hf
  have hsplit := List.sum_map_filter_add_sum_map_filter_not (fun p : PageMetadata => p.pinned = true) PageMetadata.allocationSize
    (r.pages.filter fun p => p.vramPtr.isSome)
  simp only [Bool.decide_eq_true] at hsplit
  rw [hatt]
  omega

end Refusal

/-- The throws of the planner that a history records. -/
def refusals (h : List Event) : List Refusal := h.filterMap fun
  | .refused _ r => some r
  | _ => none

theorem ok_of_mem_refusals : ∀ {h : List Event} {r : Refusal}, Each EventOk h → r ∈ refusals h → ∃ before, r.Ok before
  | e :: h, r, hok, hr => by
    cases e
    case refused t r' =>
      rcases List.mem_cons.1 hr with rfl | hr
      · exact ⟨h, hok.1⟩
      · exact ok_of_mem_refusals hok.2 hr
    all_goals exact ok_of_mem_refusals hok.2 hr

/-! ### Waiting for busy pages -/

/-- What a round of `ensure_vram_headroom` does with the planner's decisions: it evicts the pages, waits when none
could be evicted, and asks again. -/
def evictOrWait (cfg : RuntimeConfig) (need n : Nat) (decisions : List EvictionDecision) : Code Unit := do
  if ← runDecisions cfg decisions false then headroomRounds cfg need n
  else do
    .atomic pause
    headroomRounds cfg need n

/-- The end of a round of `ensure_vram_headroom`: the planner is asked, and throws or decides. -/
def planOrThrow (cfg : RuntimeConfig) (need n : Nat) (candidates : List PageMetadata) (hostFree : Nat) : Code Unit := do
  let decisions ← .atomic (plan cfg need candidates hostFree)
  evictOrWait cfg need n decisions

/-- Every round that finds too little headroom comes to it. -/
theorem headroomRounds_succ (need n : Nat) : headroomRounds cfg need (n + 1) = (do
    .atomic (throwIfStopping headroomCancelled)
    let headroom ← .atomic (fun _ _ σ => (.ok σ.vramBudget.headroom, σ))
    if need ≤ headroom then pure ()
    else do
      let (candidates, hostFree) ← .atomic (fun _ _ σ => (.ok (vramVictims σ, σ.host.headroom), σ))
      let budgets ← .atomic (fun _ _ σ => (.ok σ.budgets, σ))
      .atomic (Act.modify fun σ => { σ with planner := budgets })
      planOrThrow cfg need n candidates hostFree) := rfl

theorem planEvictions_error {b : PlannerBudgets} {need hostFree : Nat} {candidates : List PageMetadata} {policy : Policy} {e : Error}
    (h : b.planEvictions need candidates policy hostFree = .error e) : ∃ short, e = PlannerBudgets.noVictim short := by
  unfold PlannerBudgets.planEvictions PlannerBudgets.planOrdered at h
  split at h
  · cases h
  dsimp only at h
  split at h
  · cases h
    exact ⟨_, rfl⟩
  · cases h

/-- The planner throws and this is recorded, with the pages and the budget of the moment, or its decisions are carried out. -/
theorem planOrThrow_move {c' : Runtime} {l : Op} {need k hostFree : Nat} {candidates : List PageMetadata} {rest : Except Error Unit → Code Reply}
    (ht : c.threads[t]? = some ⟨l, (planOrThrow cfg need k candidates hostFree).andThen rest⟩) (hm : c.move (code cfg) (.exec t ω) = some c') :
    (∃ short, c'.threads[t]? = some ⟨l, rest (.error (PlannerBudgets.noVictim short))⟩ ∧
        c'.shared.history = .refused t (c.shared.refusal need candidates) :: c.shared.history) ∨
      ∃ ds, c'.threads[t]? = some ⟨l, (evictOrWait cfg need k ds).andThen rest⟩ ∧ c'.shared = c.shared := by
  obtain ⟨l', β, g, a, next, ht', -, rfl⟩ := move_exec hm
  have hlt := (List.getElem?_eq_some_iff.1 ht).1
  rw [ht] at ht'
  cases ht'
  rw [List.getElem?_set_self hlt]
  rcases hplan : c.shared.planner.planEvictions need candidates cfg.policy hostFree with e | ds
  · obtain ⟨short, rfl⟩ := planEvictions_error hplan
    have hthrow : plan cfg need candidates hostFree t ω c.shared =
        (.error (PlannerBudgets.noVictim short), c.shared.log (.refused t (c.shared.refusal need candidates))) := by simp only [plan, hplan]
    rw [hthrow]
    exact .inl ⟨short, rfl, rfl⟩
  · have hdecide : plan cfg need candidates hostFree t ω c.shared = (.ok ds, c.shared) := by simp only [plan, hplan]
    rw [hdecide]
    exact .inr ⟨ds, rfl, rfl⟩

/-- The page is pinned or in flight. -/
def Shared.Busy (σ : Shared) (id : PageId) : Prop := ∃ p ∈ σ.table.items, p.id = id ∧ (p.pinned = true ∨ p.inFlight = true)

theorem decideVictim_busy {d : EvictionDecision} (h : σ.Busy d.id) : decideVictim cfg d t ω σ = (.ok .skip, σ) := by
  obtain ⟨p, hp, hid, hbusy⟩ := h
  have hl : σ.table.lookup d.id = some p := hid ▸ Keyed.lookup_of_mem (Keyed.mem_bag.2 hp)
  have hb : (p.pinned || p.inFlight) = true := by simpa using hbusy
  unfold decideVictim
  rw [Act.bind_ok (copyOf_some hl), if_pos hb]
  rfl

/-- A move of a thread that is to evict busy pages: it passes over the next of them, and after the last it has waited
and asks again. -/
theorem evictOrWait_move {c' : Runtime} {l : Op} {need k : Nat} {ds : List EvictionDecision} {rest : Except Error Unit → Code Reply}
    (ht : c.threads[t]? = some ⟨l, (evictOrWait cfg need k ds).andThen rest⟩) (hb : ∀ d ∈ ds, c.shared.Busy d.id)
    (hm : c.move (code cfg) (.exec t ω) = some c') :
    c'.threads[t]? = some ⟨l, (match ds with
      | [] => headroomRounds cfg need k
      | _ :: ds => evictOrWait cfg need k ds).andThen rest⟩ := by
  obtain ⟨l', β, g, a, next, ht', -, rfl⟩ := move_exec hm
  have hlt := (List.getElem?_eq_some_iff.1 ht).1
  rw [List.getElem?_set_self hlt]
  rw [ht] at ht'
  cases ds with
  | nil =>
    cases ht'
    rfl
  | cons d ds =>
    cases ht'
    rw [decideVictim_busy (hb d (List.mem_cons_self ..))]
    rfl

/-- However the others run, a thread whose victims are busy passes over them, waits and asks the planner again. -/
theorem evictOrWait_run {l : Op} {need k : Nat} {rest : Except Error Unit → Code Reply} :
    ∀ {ms : List (Move Env Op)} {ds : List EvictionDecision} {c c' : Runtime},
      c.threads[t]? = some ⟨l, (evictOrWait cfg need k ds).andThen rest⟩ → Config.run (code cfg) c ms = some c' →
      (∀ pre c₁, pre <+: ms → Config.run (code cfg) c pre = some c₁ → ∀ d ∈ ds, c₁.shared.Busy d.id) →
      ms.countP (Move.isOf t) = ds.length + 1 → c'.threads[t]? = some ⟨l, (headroomRounds cfg need k).andThen rest⟩
  | [], ds, c, c', _, _, _, hn => by simp at hn
  | m :: ms, ds, c, c', ht, hrun, hb, hn => by
    obtain ⟨c₁, hm, hrun₁⟩ := Option.bind_eq_some_iff.1 hrun
    have hb₁ : ∀ pre c₂, pre <+: ms → Config.run (code cfg) c₁ pre = some c₂ → ∀ d ∈ ds, c₂.shared.Busy d.id := by
      intro pre c₂ hpre hrun'
      refine hb (m :: pre) c₂ (List.cons_prefix_cons.2 ⟨rfl, hpre⟩) ?_
      rw [Config.run, hm]
      exact hrun'
    rcases hof : m.isOf t with _ | _
    · rw [List.countP_cons_of_neg (by simp [hof])] at hn
      exact evictOrWait_run (thread_move_other hm hof ht) hrun₁ hb₁ hn
    · rw [List.countP_cons_of_pos hof] at hn
      obtain ⟨ω, rfl⟩ : ∃ ω, m = .exec t ω := by
        cases m with
        | spawn l => cases hof
        | exec s ω => exact ⟨ω, by rw [beq_iff_eq.1 hof]⟩
      have ht₁ := evictOrWait_move ht (hb [] c List.nil_prefix rfl) hm
      cases ds with
      | nil => exact thread_run_others (Nat.succ.inj hn) hrun₁ ht₁
      | cons d ds =>
        exact evictOrWait_run ht₁ hrun₁ (fun pre c₂ hp hr d hd => hb₁ pre c₂ hp hr d (List.mem_cons_of_mem _ hd)) (Nat.succ.inj hn)

/-- A page in device memory and one in host memory. -/
def deviceAndHost : List (Move Env Op) :=
  .spawn (.allocate { logicalBytes := 10 }) :: turns 0 10 ++ .spawn (.allocate { logicalBytes := 10 }) :: turns 1 6

/-- A thread's share is paired, unless the thread is releasing a page. -/
theorem Inv.paired_hold (hi : Inv cfg σ T) (hq : ∀ p ∈ σ.table.items, ¬p.Releasing) {x : Nat × Hold} (hx : x ∈ T) :
    (x.2.own cfg).Paired cfg := by
  have hok := hi.holds x hx
  have hcl : ∀ {m}, m ∈ x.2.claim → ∃ p ∈ σ.table.bag, p.inFlight = true ∧ m = p.core := hi.claimed hx
  obtain ⟨s, tok, ids⟩ := x
  refine Res.Paired.add (a := tok.own cfg) ?_ (by simp [Res.Paired, Res.idsOf])
  cases tok with
  | moving m tier stage =>
    have hp : (m.parts cfg).Paired cfg := hok.1.record.form.paired
    cases stage with
    | claimed | copied => exact hp
    | io => exact hp.add (by simp [Res.Paired, Res.ioOf])
    | refunded => exact hp
  | releasing m left =>
    obtain ⟨p, hp, hf, rfl⟩ := hcl (Multiset.mem_singleton_self m)
    exact absurd ⟨hok.2.1, hf⟩ (hq p hp)
  | _ => simp [Token.own, Res.Paired, Res.hostBuf, Res.vramOf, Res.devBuf]

theorem Open.paired_rest (h : Open cfg σ none w T) (hT : ∀ x ∈ T, (x.2.own cfg).Paired cfg) : (rest cfg σ none T).Paired cfg := by
  refine Res.Paired.add (Res.paired_sum fun p hp => ?_) (Res.paired_sum hT)
  unfold PageMetadata.foot
  split
  · exact Res.paired_zero
  · rename_i hf
    exact ((h.pages p hp).ok (by simpa using hf)).record.form.paired

/-- The store budget counts the bytes of the extents in use. -/
def Shared.InStep (cfg : RuntimeConfig) (σ : Shared) : Prop := σ.nvmeBudget.used = σ.store.usedExtents * cfg.pageSize

theorem Open.inStep_iff (h : Open cfg σ none w T) : σ.InStep cfg ↔ (w + rest cfg σ none T).Paired cfg := by
  unfold Shared.InStep
  rw [← h.acc, Res.Paired, h.wf.store.count, Nat.mul_comm]
  rfl

/-- Whoever has just taken a range of extents finds the budget with room for it. -/
theorem Open.room {first : Nat} (h : Open cfg σ none (w + Res.extOf (Extents.range first n)) T)
    (hp : (w + rest cfg σ none T).Paired cfg) : σ.nvmeBudget.used + n * cfg.pageSize ≤ σ.nvmeBudget.usable := by
  have hn : σ.nvmeBudget.used = (w + rest cfg σ none T).nvme := by
    have := congrArg Res.nvme h.acc
    simpa [Shared.ledger, Res.extOf] using this
  have he : σ.store.usedBag.card = n + (w + rest cfg σ none T).ext.card := by
    have := congrArg (fun r => r.ext.card) h.acc
    simp only [Shared.ledger, Res.add_ext, Res.extOf, Multiset.card_add, Extents.card_range] at this ⊢
    omega
  have hle : n + (w + rest cfg σ none T).ext.card ≤ cfg.extentCount := by
    rw [← he, ← h.wf.geometry.2]
    exact Extents.card_usedBag_le _
  calc σ.nvmeBudget.used + n * cfg.pageSize
      = (n + (w + rest cfg σ none T).ext.card) * cfg.pageSize := by rw [hn, hp]; ring
    _ ≤ cfg.extentCount * cfg.pageSize := Nat.mul_le_mul_right _ hle
    _ = σ.nvmeBudget.usable := by rw [TierBudget.usable, h.wf.nvmeLimit.1, h.wf.nvmeLimit.2]; rfl

/-- Taking a cached extent away gives back as many bytes as the extents have. -/
theorem Reclaimed.inStep {σ' : Shared} (hrec : Reclaimed cfg exclude p σ σ') (h : Open cfg σ none w T) (h' : Open cfg σ' none w T)
    (hs : σ.InStep cfg) : σ'.InStep cfg := by
  have hform := (h.record hrec.was).form
  have hoff : p.nvmeOffset.isSome := by
    have := hrec.could
    simp only [Reclaimable, Bool.and_eq_true] at this
    exact this.1.2
  have hpair : p.allocationSize = cfg.pageSize * (p.extents cfg).card := by
    have := hform.paired
    rwa [Res.Paired, PageMetadata.parts, if_pos hoff] at this
  have hn : σ.nvmeBudget.used = σ'.nvmeBudget.used + (p.allocationSize + 0) := congrArg Res.nvme hrec.ledger
  have he : σ.store.usedBag.card = σ'.store.usedBag.card + (p.extents cfg).card := by
    have := congrArg (fun r => r.ext.card) hrec.ledger
    simpa [Shared.ledger, Res.nvmeOf, Res.extOf] using this
  unfold Shared.InStep at hs ⊢
  rw [h.wf.store.count, he, hn, hpair, Nat.add_mul, Nat.mul_comm cfg.pageSize] at hs
  rw [h'.wf.store.count]
  omega

/-! ## The reservation without its rollback -/

def rolledBack : Error := ⟨.internal, "the store budget refused extents that were free", ""⟩

/-- An attempt of `reserve_nvme_range_locked` whose rollback branch throws. -/
def tryInStep (n bytes : Nat) : Sec (Option Nat) := do
  match ← allocateExtents n with
  | none => pure none
  | some offset => do
    if ← nvmeTryReserve bytes then pure (some offset) else throw rolledBack

def reclaimInStep (cfg : RuntimeConfig) (n bytes : Nat) : List (Nat × PageId) → Sec (Option Nat)
  | [] => pure none
  | (offset, id) :: rest => do
    reclaim cfg offset id
    match ← tryInStep n bytes with
    | some offset => pure (some offset)
    | none => reclaimInStep cfg n bytes rest

def reserveInStep (cfg : RuntimeConfig) (n bytes : Nat) (exclude : PageId) : Sec (Option Nat) := do
  match ← tryInStep n bytes with
  | some offset => pure (some offset)
  | none => do
    let σ ← Act.get
    reclaimInStep cfg n bytes (reclaimable exclude σ)

/-- An attempt finds no range, or takes it and its bytes; it does not come to the rollback. -/
theorem tryInStep_run (h : Open cfg σ none w T) (hstep : σ.InStep cfg) (hn : 0 < n) (t : Nat) (ω : Env) :
    ∃ r σ', tryInStep n (n * cfg.pageSize) t ω σ = (.ok r, σ') ∧
      tryReserveRange n (n * cfg.pageSize) t ω σ = (.ok r, σ') ∧ σ'.table = σ.table ∧
      ((r = none ∧ σ' = σ ∧ allocateExtents n t ω σ = (.ok none, σ)) ∨
        ∃ offset σ₁, r = some offset ∧ allocateExtents n t ω σ = (.ok (some offset), σ₁)) := by
  unfold tryInStep tryReserveRange
  rcases h.allocateExtents hn t ω with ha | ⟨first, s, ha, ho⟩
  · refine ⟨none, σ, ?_, ?_, rfl, .inl ⟨rfl, rfl, ha⟩⟩ <;>
      · rw [Act.bind_ok ha]
        rfl
  · rcases ho.nvmeTryReserve (n * cfg.pageSize) t ω with hb | ⟨b, hb, -⟩
    · -- the budget has room, so it does not refuse
      obtain ⟨b, hsome⟩ := TierBudget.tryReserve_isSome (ho.room (h.inStep_iff.1 hstep))
      simp [nvmeTryReserve, hsome] at hb
    · refine ⟨some ((first + 1) * cfg.pageSize), (σ.setStore s).setNvme b, ?_, ?_, rfl, .inr ⟨_, _, rfl, ha⟩⟩ <;>
        · rw [Act.bind_ok ha]
          simp only
          rw [Act.bind_ok hb, if_pos rfl]
          rfl

theorem reclaimInStep_run (hn : 0 < n) (hio : w.io = 0) (t : Nat) (ω : Env) :
    ∀ {l : List (Nat × PageId)} {σ : Shared}, Open cfg σ none w T → σ.InStep cfg → Listed exclude σ l →
      allocateExtents n t ω σ = (.ok none, σ) →
      ∃ r σ', reclaimInStep cfg n (n * cfg.pageSize) l t ω σ = (.ok r, σ') ∧
        reclaimLoop cfg n (n * cfg.pageSize) l t ω σ = (.ok r, σ') ∧
        (r = none → allocateExtents n t ω σ' = (.ok none, σ'))
  | [], σ, h, _, _, ha => ⟨none, σ, rfl, rfl, fun _ => ha⟩
  | (offset, id) :: rest, σ, h, hstep, hlist, ha => by
    obtain ⟨p, σ₁, hrun, hop, -, hrec, hlist⟩ := h.reclaimRound hlist hio t ω
    have hstep₁ := hrec.inStep h hop hstep
    obtain ⟨r, σ₂, hs, hl, -, hcase⟩ := tryInStep_run hop hstep₁ hn t ω
    unfold reclaimInStep reclaimLoop
    rw [Act.bind_ok hrun, Act.bind_ok hrun, Act.bind_ok hs, Act.bind_ok hl]
    rcases hcase with ⟨rfl, rfl, ha⟩ | ⟨offset, σ₃, rfl, -⟩
    · exact reclaimInStep_run hn hio t ω hop hstep₁ hlist ha
    · exact ⟨_, σ₂, rfl, rfl, fun h => by cases h⟩

/-- `reserve_nvme_range_locked` never comes to its rollback when the store budget counts the bytes of the extents
in use as it starts, which it does as long as no page is being released: it refuses only when no range of free
extents is long enough, and takes no cached extent away when one is. -/
theorem reserve_inStep (hr : Reached cfg disk c) (hn : 0 < n) (exclude : PageId) (t : Nat) (ω : Env) :
    ((∀ p ∈ c.shared.table.items, ¬p.Releasing) → c.shared.InStep cfg) ∧
    (c.shared.InStep cfg → ∃ r σ', reserveInStep cfg n (n * cfg.pageSize) exclude t ω c.shared = (.ok r, σ') ∧
      reserveNvmeRange cfg n (n * cfg.pageSize) exclude t ω c.shared = (.ok r, σ') ∧
      (r = none → allocateExtents n t ω σ' = (.ok none, σ')) ∧
      ∀ offset σ₁, allocateExtents n t ω c.shared = (.ok (some offset), σ₁) → r = some offset ∧ σ'.table = c.shared.table) := by
  obtain ⟨T, hi⟩ := reachable_inv hr
  refine ⟨fun hq => ?_, fun hstep => ?_⟩
  · exact (Open.inStep_iff hi).2 (Res.paired_zero.add (Open.paired_rest hi fun x hx => hi.paired_hold hq hx))
  obtain ⟨r, σ₁, hs, hl, htb, hcase⟩ := tryInStep_run hi hstep hn t ω
  unfold reserveInStep reserveNvmeRange
  rw [Act.bind_ok hs, Act.bind_ok hl]
  rcases hcase with ⟨rfl, rfl, ha⟩ | ⟨offset, σ₂, rfl, ha⟩
  · simp only
    rw [Act.bind_ok (Act.get_apply t ω _), Act.bind_ok (Act.get_apply t ω _)]
    obtain ⟨r, σ', hs, hl, hnone⟩ := reclaimInStep_run hn rfl t ω hi hstep (listed_reclaimable exclude _) ha
    refine ⟨r, σ', hs, hl, hnone, fun offset σ₂ ha' => ?_⟩
    rw [ha] at ha'
    cases ha'
  · refine ⟨some offset, σ₁, rfl, rfl, ?_, fun offset' σ₃ ha' => ?_⟩
    · rintro ⟨⟩
    · rw [ha] at ha'
      cases ha'
      exact ⟨rfl, htb⟩

theorem reserve_inStep_twoPages : ∃ c, Reached (smallConfig 0 1 2) (fun _ => 0) c ∧ (∀ p ∈ c.shared.table.items, ¬p.Releasing) ∧
    ∃ r σ', reserveInStep (smallConfig 0 1 2) 1 (1 * (smallConfig 0 1 2).pageSize) 3 2 {} c.shared = (.ok r, σ') ∧
      reserveNvmeRange (smallConfig 0 1 2) 1 (1 * (smallConfig 0 1 2).pageSize) 3 2 {} c.shared = (.ok r, σ') ∧
      (r = none → allocateExtents 1 2 {} σ' = (.ok none, σ')) ∧
      ∀ offset σ₁, allocateExtents 1 2 {} c.shared = (.ok (some offset), σ₁) → r = some offset ∧ σ'.table = c.shared.table := by
  obtain ⟨c, hr, hq⟩ := reached_of_test (smallConfig 0 1 2) (fun _ => 0) twoPages
    (fun c => ∀ p ∈ c.shared.table.items, ¬p.Releasing) (by decide +kernel)
  obtain ⟨hstep, hres⟩ := reserve_inStep hr (Nat.one_pos) 3 2 {}
  exact ⟨c, hr, hq, hres (hstep hq)⟩

/-- The release of a page in the store, up to the return of its extent. -/
def extentReturned : List (Move Env Op) :=
  .spawn (.allocate { logicalBytes := 10 }) :: turns 0 6 ++ .spawn (.allocate { logicalBytes := 10 }) :: turns 1 5 ++
    .spawn (.free 2) :: turns 2 4

/-- Between the return of a page's extent and that of its bytes, an eviction finds the extent free and
the budget full: it gives the extent back and fails. -/
theorem reserve_refused : ∃ c, Reached (smallConfig 0 1 1) (fun _ => 0) c ∧ c.shared.store.freeList = [0] ∧
    c.shared.nvmeBudget.tryReserve 4096 = none ∧ c.result 3 = some (.error (storeFull 1)) :=
  reached_of_test (smallConfig 0 1 1) (fun _ => 0) (extentReturned ++ .spawn (.demoteToNvme 1) :: turns 3 3) _ (by decide +kernel)

end FlashTier
