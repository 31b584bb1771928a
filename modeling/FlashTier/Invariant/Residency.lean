/-
The programs that change where pages live: the clean drop, device headroom, the demand load, and the
public residency operations built on them.
-/
import FlashTier.Invariant.Transfers
import FlashTier.Runtime.Ops

namespace FlashTier

open Conc

variable {env : Nat → Env → Shared → Prop} {cfg : RuntimeConfig} {σ σ' : Shared} {T : Multiset (Nat × Hold)} {t : Nat} {ω : Env} {α : Type} {id : PageId}
  {ids : Multiset PageId} {m cur : PageMetadata}

/-! ## Transfers as plain programs -/

theorem evictHostToNvme_plain {cause : Cause} (hcause : cause.Allows id σ) :
    Plain env cfg t ids (evictHostToNvme cfg cause id) σ fun _ _ => True := fun _ hL =>
  wp_mono (fun _ _ _ _ hq => hq.post (fun _ _ => trivial) not_false) (evictHostToNvme_wp hcause hL)

theorem promoteHostToVram_plain : Plain env cfg t ids (promoteHostToVram cfg id) σ fun _ _ => True := fun _ hL =>
  wp_mono (fun _ _ _ _ hq => hq.post (fun _ _ => trivial) not_false) (promoteHostToVram_wp hL)

theorem evictVramToHost_plain {cause : Cause} (hcause : cause.Allows id σ) :
    Plain env cfg t ids (evictVramToHost cfg cause id) σ fun _ _ => True := fun _ hL =>
  wp_mono (fun _ _ _ _ hq => hq.post (fun _ hf => hf.elim) not_false) (evictVramToHost_wp hcause hL)

theorem loadNvmeToHost_plain : Plain env cfg t ids (loadNvmeToHost cfg id) σ fun _ _ => True := fun _ hL =>
  wp_mono (fun _ _ _ _ hq => hq.post (fun _ hf => hf.elim) not_false) (loadNvmeToHost_wp hL)

/-! ## The clean drop -/

/-- Dropping a clean device page leaves it in the store with the same content; a failed free changes nothing. -/
theorem dropClean_run (hi : Inv cfg σ ((t, ⟨.idle, ids⟩) ::ₘ T)) (hl : σ.table.lookup id = some cur) (hf : cur.inFlight = false)
    (hst : cur.state = .residentVram) (hd : cur.dirty = false) (hc : cur.hasNvmeCopy = true) :
    (∃ e, dropClean cfg id cur t ω σ = (.error e, σ.log (.failed t .deviceFree))) ∨
    ∃ σ', dropClean cfg id cur t ω σ = (.ok (), σ') ∧ σ'.history = σ.history ∧ Inv cfg σ' ((t, ⟨.idle, ids⟩) ::ₘ T) := by
  obtain rfl := id_of_lookup hl
  obtain ⟨ho, -⟩ := hi.enter rfl
  rw [own_idle] at ho
  obtain ⟨hop, hok, hpin⟩ := ho.openPage hl hf
  have hr := hok.record
  have hshape := hr.form.shape
  simp only [PageMetadata.Shape, hst] at hshape
  obtain ⟨v, hv⟩ := Option.isSome_iff_exists.1 hshape.1
  have hdev : cfg.device = true := hop.device (Nat.add_pos_right _ (parts_vram_pos hr.form hv))
  have hparts : cur.parts cfg = ({ cur with vramPtr := none } : PageMetadata).parts cfg + Res.vramOf cur.allocationSize +
      Res.devBuf v cur.allocationSize := parts_vram rfl rfl rfl hv rfl
  rw [hparts, ← add_assoc, ← add_assoc] at hop
  unfold dropClean
  rw [hv]
  rcases hop.deviceFree hdev t ω with ⟨e, hrun, -⟩ | ⟨hrun, hop⟩
  · exact .inl ⟨e, by rw [Act.bind_error hrun]⟩
  obtain ⟨b, hrel, hop⟩ := hop.vramRelease t ω
  have hl' : ((σ.dropDev v).setVram b).table.lookup cur.id = some cur := hl
  let q := ({ cur with vramPtr := none } : PageMetadata).enter .residentNvme
  have hdrop : ({ cur with vramPtr := none } : PageMetadata).dropUnsafe .residentNvme = false := by
    obtain ⟨off, hoff⟩ := Option.isSome_iff_exists.1 (hr.form.copy hc)
    simp [PageMetadata.dropUnsafe, hd, hc, hoff]
  refine .inr ⟨{ ((σ.dropDev v).setVram b).setPage q with prefetched := σ.prefetched.filter (· != cur.id) }, by
    rw [Act.bind_ok hrun, Act.bind_ok hrel, run_enter hl' rfl (by simp [transitionAllowed, hst]) hdrop]; rfl, rfl, ?_⟩
  -- the page closes with its copy in the store as its content
  have hq : PageOk cfg (((σ.dropDev v).setVram b).setPage q) q := by
    refine ⟨hr.edit (SameData.refl _ _) rfl (by rw [hst]; rfl) rfl rfl hr.form.offset ⟨hshape.2, rfl, hr.form.copy hc⟩ hr.form.dirty hr.form.copy
      fun hcl c hcc => ?_, rfl, hok.owners, by simp [q, PageMetadata.enter], by simp [q, PageMetadata.enter]⟩
    have hcc : σ.stored cur = some c := hcc
    have hcont : σ.content cur = some (Bytes.take (σ.devMem v) cur.allocationSize) := by simp [Shared.content, hst, hv]
    have := (hr.content hcl _ hcont).2 hc
    rw [hcc] at this
    exact ⟨hcont.trans this.symm, fun _ => hcc⟩
  have hset : Open cfg (((σ.dropDev v).setVram b).setPage q) (some cur.id) (Res.idsOf ids + q.parts cfg) T :=
    hop.setPage (p := q) rfl
  have hclose := hset.closePage (lookup_setPage _ q) hf hq hpin
  refine Open.leave (hclose.same ?_) (own_idle ids).symm rfl trivial
  exact ⟨rfl, rfl, rfl, rfl, rfl, rfl, rfl, rfl, rfl, rfl, rfl⟩

theorem decideVictim_ends {d : EvictionDecision} (hi : Inv cfg σ ((t, ⟨.idle, ids⟩) ::ₘ T)) :
    Ends cfg t T σ (decideVictim cfg d t ω σ) fun _ _ h' => h' = ⟨.idle, ids⟩ := by
  unfold decideVictim
  rcases hl : σ.table.lookup d.id with _ | cur
  · rw [Act.bind_error (copyOf_none hl)]
    exact ⟨[], _, ⟨rfl, by simp⟩, hi, rfl⟩
  rw [Act.bind_ok (copyOf_some hl)]
  by_cases hb : (cur.pinned || cur.inFlight) = true
  · rw [if_pos hb]
    exact ⟨[], _, ⟨rfl, by simp⟩, hi, rfl⟩
  rw [if_neg hb]
  simp only [Bool.or_eq_true, not_or, Bool.not_eq_true] at hb
  by_cases hc : d.target = .nvme ∧ cur.dirty = false ∧ cur.hasNvmeCopy = true ∧ cur.state = .residentVram
  · rw [if_pos hc, Act.bind_ok (Act.get_apply t ω σ)]
    rcases dropClean_run (ω := ω) hi hl hb.2 hc.2.2.2 hc.2.1 hc.2.2.1 with ⟨e, hrun⟩ | ⟨σ', hrun, hh, hi'⟩
    · rw [Act.bind_error hrun]
      exact ⟨[.failed t .deviceFree], _, ⟨rfl, by simp [Event.thread]⟩, Open.logNone hi rfl rfl, rfl⟩
    · rw [Act.bind_ok hrun, Act.bind_ok (recordMove_run _ _)]
      have hpin : cur.pinned = pinnedIn σ.history cur.id := (hi.pages cur (Keyed.lookup_some.1 hl).1).pinned
      have hcause : Cause.Allows (some σ.history.length) cur.id σ' := by
        intro ticket ht
        cases ht
        rw [hh, historyAt_length, ← hpin]
        exact ⟨le_rfl, mem_allocIds_of_sizeIn ((hi.pages cur (Keyed.lookup_some.1 hl).1).ok hb.2).record.size, hb.1⟩
      refine ⟨moves t (some σ.history.length) cur, _, ⟨?_, thread_of_mem_moves⟩, Open.moved hi' hcause (by rw [hh]; exact hpin), rfl⟩
      show _ ++ σ'.history = _
      rw [hh]
  · rw [if_neg hc]
    exact ⟨[], _, ⟨rfl, by simp⟩, hi, rfl⟩

theorem tryDrop_ends (hi : Inv cfg σ ((t, ⟨.idle, ids⟩) ::ₘ T)) :
    Ends cfg t T σ (tryDrop cfg id t ω σ) fun _ _ h' => h' = ⟨.idle, ids⟩ := by
  unfold tryDrop
  rcases hl : σ.table.lookup id with _ | cur
  · rw [Act.bind_error (copyOf_none hl)]
    exact ⟨[], _, ⟨rfl, by simp⟩, hi, rfl⟩
  rw [Act.bind_ok (copyOf_some hl)]
  by_cases hc : cur.dirty = false ∧ cur.hasNvmeCopy = true ∧ cur.inFlight = false ∧ cur.state = .residentVram
  · rw [if_pos hc]
    rcases dropClean_run (ω := ω) hi hl hc.2.2.1 hc.2.2.2 hc.1 hc.2.1 with ⟨e, hrun⟩ | ⟨σ', hrun, hh, hi'⟩
    · rw [Act.bind_error hrun]
      exact ⟨[.failed t .deviceFree], _, ⟨rfl, by simp [Event.thread]⟩, Open.logNone hi rfl rfl, rfl⟩
    · rw [Act.bind_ok hrun]
      exact ⟨[], _, ⟨hh, by simp⟩, hi', rfl⟩
  · rw [if_neg hc]
    exact ⟨[], _, ⟨rfl, by simp⟩, hi, rfl⟩

/-! ## Device headroom -/

/-- `copy_of` with a ticket: a page that is not pinned or busy then is one the ticket allows to move. -/
theorem lookAt_plain : Plain env cfg t ids (.atomic (lookAt id)) σ
    fun σ' x => x.1.pinned = false → x.1.inFlight = false → Cause.Allows (some x.2) id σ' := by
  refine Plain.atomic fun ω σ₁ T _ hi => ?_
  unfold lookAt
  rcases hl : σ₁.table.lookup id with _ | p
  · exact ⟨[], _, ⟨rfl, by simp⟩, hi, rfl, fun x hx => by cases hx⟩
  · refine ⟨[], _, ⟨rfl, by simp⟩, hi, rfl, fun x hx hp hf ticket ht => ?_⟩
    cases hx
    cases ht
    rw [← id_of_lookup hl]
    have hpage := hi.pages p (Keyed.lookup_some.1 hl).1
    refine ⟨le_rfl, ?_⟩
    show p.id ∈ allocIds (historyAt σ₁.history σ₁.history.length) ∧ pinnedIn (historyAt σ₁.history σ₁.history.length) p.id = false
    rw [historyAt_length, ← hpage.pinned]
    exact ⟨mem_allocIds_of_sizeIn (hpage.ok hf).record.size, hp⟩

theorem runDecisions_plain : ∀ {ds : List EvictionDecision} {progress : Bool} {σ : Shared},
    Plain env cfg t ids (runDecisions cfg ds progress) σ fun _ _ => True
  | [], progress, σ => Plain.ret trivial
  | d :: rest, progress, σ => by
    unfold runDecisions
    refine Plain.bind (F := fun _ _ => True)
      (Plain.atomic fun ω σ₁ T _ hi => (decideVictim_ends hi).mono fun _ _ _ hq => ⟨hq, fun _ _ => trivial⟩) fun σ₁ r _ _ => ?_
    cases r with
    | skip => exact runDecisions_plain
    | dropped => exact Plain.pass (Bystander.atomic neutral_emitEvent) fun _ _ _ => runDecisions_plain
    | demote =>
      refine lookAt_plain.bind fun σ₂ x _ hx => ?_
      obtain ⟨cur, ticket⟩ := x
      by_cases hc : (cur.pinned || cur.inFlight || cur.state != .residentVram) = true
      · simp only [hc, if_true]
        exact runDecisions_plain
      · simp only [hc, Bool.false_eq_true, if_false]
        have hp : cur.pinned = false ∧ cur.inFlight = false := by
          simp only [Bool.or_eq_true, not_or, Bool.not_eq_true] at hc
          exact hc.1
        refine (evictVramToHost_plain (hx hp.1 hp.2)).bind fun σ₃ _ hle₃ _ => ?_
        refine Plain.pass (Bystander.atomic (neutral_copyOf _)) fun σ₄ m hle₄ => ?_
        by_cases hm : m.state ≠ .residentHost
        · rw [if_pos hm]
          exact runDecisions_plain
        · rw [if_neg hm]
          by_cases hd : d.target = .nvme
          · rw [if_pos hd]
            exact (evictHostToNvme_plain ((hx hp.1 hp.2).later (hle₃.trans hle₄))).bind fun _ _ _ _ => runDecisions_plain
          · rw [if_neg hd]
            exact runDecisions_plain

/-- The pages that are neither pinned nor busy are candidates. -/
theorem candidates_vramVictims (σ : Shared) : Candidates (vramVictims σ) := by
  refine ⟨σ.table.nodup.sublist (List.filter_sublist.map _), fun p hp => ?_⟩
  have := (List.mem_filter.1 hp).2
  simp only [Bool.and_eq_true, Bool.not_eq_true'] at this
  exact ⟨this.1.2, this.2⟩

/-- What the candidates are known to be when they are taken and later. -/
structure Offered (σ : Shared) (candidates : List PageMetadata) : Prop where
  legal : Candidates candidates
  size : ∀ p ∈ candidates, sizeIn σ.history p.id = some p.allocationSize

theorem Offered.later {candidates : List PageMetadata} (h : Offered σ candidates) (hle : σ.history <:+ σ'.history) :
    Offered σ' candidates := ⟨h.legal, fun p hp => sizeIn_suffix (h.size p hp) hle⟩

theorem Offered.bytes {candidates : List PageMetadata} (h : Offered σ candidates) :
    bytesIn σ.history (candidates.map PageMetadata.id) = (candidates.map PageMetadata.allocationSize).sum := by
  unfold bytesIn
  rw [List.map_map]
  refine congrArg List.sum (List.map_congr_left fun p hp => ?_)
  rw [Function.comp, h.size p hp]
  rfl

theorem snapshotVictims_plain : Plain env cfg t ids
    (.atomic fun _ _ σ => (.ok (vramVictims σ, σ.host.headroom), σ)) σ fun σ' x => Offered σ' x.1 := by
  refine Plain.atomic fun ω σ₁ T _ hi => ⟨[], _, ⟨rfl, by simp⟩, hi, rfl, fun x hx => ?_⟩
  cases hx
  exact ⟨candidates_vramVictims σ₁, fun p hp => Open.size hi (Keyed.lookup_of_mem (List.mem_filter.1 hp).1)⟩

theorem plan_plain {need hostFree : Nat} {candidates : List PageMetadata} (hc : Offered σ candidates) :
    Plain env cfg t ids (.atomic (plan cfg need candidates hostFree)) σ fun _ _ => True := by
  refine Plain.atomic fun ω σ₁ T hr hi => ?_
  unfold plan
  rcases hp : σ₁.planner.planEvictions need candidates cfg.policy hostFree with e | ds
  · have hlt := PlannerBudgets.headroom_of_refused hc.legal hp
    rw [← (hc.later ((logic env cfg).rely_le hr)).bytes] at hlt
    have hok : (σ₁.refusal need candidates).Ok σ₁.history :=
      ⟨hlt, σ₁.table.nodup, fun p hp => Open.size hi (Keyed.lookup_of_mem hp), hi.wf.vram⟩
    exact ⟨[_], _, ⟨rfl, by simp [Event.thread]⟩, Open.logNone hi rfl hok, rfl, fun _ _ => trivial⟩
  · exact ⟨[], _, ⟨rfl, by simp⟩, hi, rfl, fun _ _ => trivial⟩

theorem headroomRounds_plain {need : Nat} : ∀ {n : Nat} {σ : Shared},
    Plain env cfg t ids (headroomRounds cfg need n) σ fun _ _ => True
  | 0, σ => Plain.throw
  | n + 1, σ => by
    unfold headroomRounds
    refine Plain.pass (Bystander.atomic (neutral_throwIfStopping _)) fun σ₁ _ _ => ?_
    refine Plain.pass (Bystander.atomic neutral_of_state) fun σ₂ room _ => ?_
    by_cases hroom : need ≤ room
    · rw [if_pos hroom]
      exact Plain.ret trivial
    rw [if_neg hroom]
    refine snapshotVictims_plain.bind fun σ₃ x _ hc => ?_
    refine Plain.pass (Bystander.atomic neutral_of_state) fun σ₄ budgets hle => ?_
    refine Plain.pass (Bystander.atomic fun _ _ _ => ⟨rfl, rfl, rfl, rfl, rfl, rfl, rfl, rfl, rfl, rfl, rfl⟩) fun σ₅ _ hle' => ?_
    refine (plan_plain (hc.later (hle.trans hle'))).bind fun σ₆ ds _ _ => ?_
    refine runDecisions_plain.bind fun σ₇ progress _ _ => ?_
    cases progress with
    | true => exact headroomRounds_plain
    | false => exact Plain.pass (Bystander.atomic neutral_pause) fun _ _ _ => headroomRounds_plain

theorem ensureVramHeadroom_plain {need : Nat} : Plain env cfg t ids (ensureVramHeadroom cfg need) σ fun _ _ => True :=
  Plain.pass (Bystander.atomic neutral_of_state) fun _ _ _ => headroomRounds_plain

/-! ## Waiting and loading -/

/-- The section of `wait_settled` only reads, and what it returns is the page's record. -/
theorem settledPage_run (id : PageId) (t : Nat) (ω : Env) (σ : Shared) :
    (settledPage id t ω σ).2 = σ ∧ ∀ m, (settledPage id t ω σ).1 = .ok m → σ.table.lookup id = some m := by
  unfold settledPage
  by_cases hs : σ.stopping = true
  · have hstop : throwIfStopping (waitCancelled id) t ω σ = (.error (waitCancelled id), σ) := by
      simp only [throwIfStopping, hs, if_true]
    rw [Act.bind_error hstop]
    exact ⟨rfl, fun m hm => by cases hm⟩
  · have hgo : throwIfStopping (waitCancelled id) t ω σ = (.ok (), σ) := by
      simp only [throwIfStopping, hs]
      rfl
    rw [Act.bind_ok hgo]
    rcases hl : σ.table.lookup id with _ | p
    · rw [Act.bind_error (copyOf_none hl)]
      exact ⟨rfl, fun m hm => by cases hm⟩
    · rw [Act.bind_ok (copyOf_some hl)]
      cases p.state <;> exact ⟨rfl, fun m hm => by cases hm <;> rfl⟩

theorem neutral_settledPage (id : PageId) : Neutral (settledPage id) := fun t ω σ => by
  rw [(settledPage_run id t ω σ).1]
  exact SameCore.refl σ

theorem bystander_waitSettled (id : PageId) : Bystander (waitSettled id) := Bystander.await (neutral_settledPage id)

/-- `wait_settled` gives the page's size. -/
theorem waitSettled_plain : Plain env cfg t ids (waitSettled id) σ fun σ' m => sizeIn σ'.history id = some m.allocationSize := by
  refine Safe.neutral (neutral_settledPage id) fun ω σ₁ T m _ _ hi hx => ?_
  obtain ⟨hσ, hm⟩ := settledPage_run id t ω σ₁
  rw [hσ]
  exact (hi.enter rfl).1.size (hm m hx)

theorem promoteOnce_plain {bytes : Nat} : Plain env cfg t ids (promoteOnce cfg id bytes) σ fun _ _ => True := by
  unfold promoteOnce
  refine ensureVramHeadroom_plain.bind fun σ₁ _ _ _ => promoteHostToVram_plain.bind fun σ₂ _ _ _ => ?_
  refine Plain.pass (Bystander.atomic (neutral_copyOf id)) fun σ₃ m _ => ?_
  by_cases hm : m.state = .residentVram
  · rw [if_pos hm]
    exact Plain.ret trivial
  · rw [if_neg hm]
    exact Plain.pass (bystander_waitSettled id) fun _ _ _ => Plain.ret trivial

theorem loadAttempts_plain {target : Tier} : ∀ {n : Nat} {σ : Shared},
    Plain env cfg t ids (loadAttempts cfg id target n) σ fun _ _ => True
  | 0, σ => Plain.throw
  | n + 1, σ => by
    have hup : ∀ (bytes : Nat) (σ : Shared), Plain env cfg t ids (if target = .vram then do
        if ← .atomic hasVram then do
          if ← promoteOnce cfg id bytes then pure () else loadAttempts cfg id target n
        else pure ()
      else pure () : Code Unit) σ fun _ _ => True := by
      intro bytes σ
      by_cases ht : target = .vram
      · rw [if_pos ht]
        refine Plain.pass (Bystander.atomic neutral_of_state) fun σ₁ v _ => ?_
        cases v with
        | false => exact Plain.ret trivial
        | true =>
          refine promoteOnce_plain.bind fun σ₂ done _ _ => ?_
          cases done with
          | true => exact Plain.ret trivial
          | false => exact loadAttempts_plain
      · rw [if_neg ht]
        exact Plain.ret trivial
    unfold loadAttempts
    refine Plain.pass (Bystander.atomic (neutral_throwIfStopping _)) fun σ₁ _ _ => ?_
    refine Plain.pass (Bystander.atomic (neutral_copyOf id)) fun σ₂ m _ => ?_
    have hwait : ∀ σ : Shared, Plain env cfg t ids (do let _ ← waitSettled id; loadAttempts cfg id target n : Code Unit) σ
        fun _ _ => True := fun σ => Plain.pass (bystander_waitSettled id) fun _ _ _ => loadAttempts_plain
    cases hst : m.state with
    | residentVram => exact Plain.ret trivial
    | residentHost => exact hup m.allocationSize σ₂
    | residentNvme =>
      refine loadNvmeToHost_plain.bind fun σ₃ _ _ _ => Plain.pass (Bystander.atomic (neutral_copyOf id)) fun σ₄ m' _ => ?_
      by_cases hm : m'.state ≠ .residentHost
      · rw [if_pos hm]
        by_cases hm' : m'.state = .residentVram
        · rw [if_pos hm']
          exact Plain.ret trivial
        · rw [if_neg hm']
          exact hwait σ₄
      · rw [if_neg hm]
        exact hup m'.allocationSize σ₄
    | unallocated | loadingToHost | loadingToVram | evictingToHost | evictingToNvme | error | released => exact hwait σ₂

/-- `load_page`. -/
theorem loadPage_plain {target : Tier} : Plain env cfg t ids (loadPage cfg id target) σ fun _ _ => True := loadAttempts_plain

/-! ## Residency operations -/

theorem demoteAttempts_plain {goal : PageState} {move : PageState → Option (Code Unit)}
    (hmove : ∀ s transfer, move s = some transfer → ∀ σ, Plain env cfg t ids transfer σ fun _ _ => True) : ∀ {n : Nat} {σ : Shared},
    Plain env cfg t ids (demoteAttempts id goal move n) σ fun _ _ => True
  | 0, σ => Plain.throw
  | n + 1, σ => by
    unfold demoteAttempts
    refine Plain.pass (bystander_waitSettled id) fun σ₁ m _ => ?_
    by_cases hm : m.state = goal
    · rw [if_pos hm]
      exact Plain.ret trivial
    rw [if_neg hm]
    rcases ht : move m.state with _ | transfer
    · exact Plain.throw
    · refine (hmove _ _ ht σ₁).bind fun σ₂ _ _ _ => Plain.pass (bystander_waitSettled id) fun σ₃ m' _ => ?_
      by_cases hm' : m'.state = goal
      · rw [if_pos hm']
        exact Plain.ret trivial
      · rw [if_neg hm']
        exact demoteAttempts_plain hmove

theorem demoteToHostImpl_plain : Plain env cfg t ids (demoteToHostImpl cfg id) σ fun _ _ => True := by
  refine demoteAttempts_plain fun s transfer hs σ => ?_
  cases s <;> cases hs
  · exact loadNvmeToHost_plain
  · exact evictVramToHost_plain (Cause.allows_none _ _)

theorem bystander_requireRunning : Bystander (.atomic requireRunning : Code Unit) := Bystander.atomic neutral_of_state

theorem demoteToHost_plain : Plain env cfg t ids (demoteToHost cfg id) σ fun _ _ => True :=
  Plain.pass bystander_requireRunning fun _ _ _ => demoteToHostImpl_plain

theorem demoteToNvme_plain : Plain env cfg t ids (demoteToNvme cfg id) σ fun _ _ => True := by
  refine Plain.pass bystander_requireRunning fun σ₁ _ _ => demoteAttempts_plain fun s transfer hs σ => ?_
  cases s <;> cases hs
  · exact evictHostToNvme_plain (Cause.allows_none _ _)
  · exact evictVramToHost_plain (Cause.allows_none _ _)

/-- `evict`. -/
theorem evict_plain : Plain env cfg t ids (evict cfg id) σ fun _ _ => True := by
  unfold evict
  refine Plain.pass bystander_requireRunning fun σ₁ _ _ => Plain.pass (bystander_waitSettled id) fun σ₂ m _ => ?_
  by_cases hm : m.state = .residentNvme
  · rw [if_pos hm]
    exact Plain.ret trivial
  rw [if_neg hm]
  by_cases hc : m.state = .residentVram ∧ m.dirty = false ∧ m.hasNvmeCopy = true
  · rw [if_pos hc]
    refine Plain.bind (F := fun _ _ => True)
      (Plain.atomic fun ω σ₁ T _ hi => (tryDrop_ends hi).mono fun _ _ _ hq => ⟨hq, fun _ _ => trivial⟩) fun σ₃ dropped _ _ => ?_
    cases dropped with
    | true => exact Plain.of_bystander (Bystander.atomic neutral_emitEvent)
    | false => exact demoteToHostImpl_plain
  · rw [if_neg hc]
    exact demoteToHostImpl_plain

end FlashTier
