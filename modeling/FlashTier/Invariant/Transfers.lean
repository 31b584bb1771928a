/-
The four transfers as programs, and the claim of host buffers, which evicts other pages. A transfer
that has claimed its page settles it and notifies the waiters, unless a release call it makes after the
claim fails.
-/
import FlashTier.Invariant.Safe

namespace FlashTier

open Conc

variable {env : Nat → Env → Shared → Prop} {cfg : RuntimeConfig} {σ σ' : Shared} {T : Multiset (Nat × Hold)} {t : Nat} {ω : Env} {α : Type} {id : PageId}
  {ids : Multiset PageId} {K : PageId → Prop} {h : Hold} {L : List Event} {m : PageMetadata} {tier : Tier}

/-! ## Neutral sections -/

theorem neutral_of_state {f : Nat → Env → Shared → Except Error α} : Neutral (fun t ω σ => (f t ω σ, σ)) :=
  fun _ _ σ => SameCore.refl σ

theorem neutral_throwIfStopping (e : Error) : Neutral (throwIfStopping e) := neutral_of_state

theorem neutral_emitEvent : Neutral emitEvent := neutral_of_state

theorem neutral_copyOf (id : PageId) : Neutral (copyOf id) := fun _ _ σ => by
  unfold copyOf
  split <;> exact SameCore.refl σ

theorem neutral_pause : Neutral pause := neutral_of_state

theorem bystander_emits : Bystander (do .atomic emitEvent; .atomic emitEvent : Code Unit) :=
  (Bystander.atomic neutral_emitEvent).bind fun _ => Bystander.atomic neutral_emitEvent

/-! ## After the claim -/

/-- Among the events, newest first, the page is settled and then the waiters are notified. -/
def Settles (t : Nat) (id : PageId) (evs : List Event) : Prop :=
  ∃ dst, (dst = .residentVram ∨ dst = .residentHost ∨ dst = .residentNvme ∨ dst = .error) ∧
    ∃ a b c, evs = a ++ .notified t :: (b ++ .settle t id dst false :: c)

/-- How a transfer ends that records `evs` after its claim: the page is settled, or a release call failed. -/
def Outcome (t : Nat) (ids : Multiset PageId) (id : PageId) (evs : List Event) (r : Except Error Unit) (h' : Hold) : Prop :=
  (∀ e ∈ evs, Spares (fun _ => True) e) ∧
    ((h' = ⟨.idle, ids⟩ ∧ Settles t id evs ∧ ∀ e ∈ evs, e.releaseFailed = false) ∨
      ((∃ e, r = .error e) ∧ (∃ c : Call, c.release = true ∧ .failed t c ∈ evs) ∧ (∀ dst b, .settle t id dst b ∉ evs) ∧ h'.Moving))

/-- How the part of a transfer after its claim ends. -/
def TailEnds (t : Nat) (ids : Multiset PageId) (id : PageId) (L : List Event) (σ' : Shared) (r : Except Error Unit) (h' : Hold) :
    Prop :=
  ∃ evs, Log t (evs ++ L) σ' ∧ Outcome t ids id evs r h'

theorem CallsFailed.spares {evs : List Event} (he : CallsFailed t evs) : ∀ e ∈ evs, Spares K e := by
  intro e hm t' i h'
  obtain ⟨c, rfl, -⟩ := he e hm
  cases h'

theorem CallsFailed.releaseFailed {evs : List Event} (he : CallsFailed t evs) : ∀ e ∈ evs, e.releaseFailed = false := by
  intro e hm
  obtain ⟨c, rfl, hc⟩ := he e hm
  exact hc

theorem CallsFailed.not_settle {evs : List Event} (he : CallsFailed t evs) (dst : PageState) (b : Bool) :
    .settle t id dst b ∉ evs := by
  intro hm
  obtain ⟨c, h', -⟩ := he _ hm
  cases h'

/-- A release call failed after the copy: the page is left in flight. -/
theorem TailEnds.stuck {evs : List Event} {c : Call} {e : Error} (he : CallsFailed t evs) (hc : c.release = true) (hh : h.Moving)
    (hL : Log t ([.failed t c] ++ (evs ++ L)) σ') : TailEnds t ids id L σ' (.error e) h := by
  refine ⟨.failed t c :: evs, hL, ?_, .inr ⟨⟨e, rfl⟩, ⟨c, hc, List.mem_cons_self ..⟩, fun dst b hm => ?_, hh⟩⟩
  · rintro e' hm
    rcases List.mem_cons.1 hm with rfl | hm
    · rintro _ _ h'; cases h'
    · exact he.spares e' hm
  · rcases List.mem_cons.1 hm with h' | hm
    · cases h'
    · exact he.not_settle dst b hm

/-- The page was settled and the waiters notified. -/
theorem TailEnds.settled {evs : List Event} {dst : PageState} {r : Except Error Unit} (he : CallsFailed t evs)
    (hdst : dst = .residentVram ∨ dst = .residentHost ∨ dst = .residentNvme ∨ dst = .error)
    (hL : Log t ([.notified t, .settle t id dst false] ++ (evs ++ L)) σ') : TailEnds t ids id L σ' r ⟨.idle, ids⟩ := by
  refine ⟨.notified t :: .settle t id dst false :: evs, hL, ?_, .inl ⟨rfl, ⟨dst, hdst, [], [], evs, rfl⟩, ?_⟩⟩
  · rintro e' hm
    rcases List.mem_cons.1 hm with rfl | hm
    · rintro _ _ h'; cases h'
    rcases List.mem_cons.1 hm with rfl | hm
    · rintro _ _ h'; cases h'
    · exact he.spares e' hm
  · rintro e' hm
    rcases List.mem_cons.1 hm with rfl | hm
    · rfl
    rcases List.mem_cons.1 hm with rfl | hm
    · rfl
    · exact he.releaseFailed e' hm

theorem notifyAll_ends (hi : Inv cfg σ ((t, h) ::ₘ T)) :
    Ends cfg t T σ (notifyAll t ω σ) fun evs r h' => evs = [.notified t] ∧ r = .ok () ∧ h' = h :=
  ⟨[.notified t], h, ⟨rfl, by simp [Event.thread]⟩, Open.logNone hi rfl rfl, rfl, rfl, rfl⟩

/-- A transfer after its claim: the movement of the bytes, with its handler, and the completion. -/
theorem tail_wp (m : PageMetadata) (tier : Tier) {copy rest : Code Unit} {handler finish : Sec Unit} {dst : PageState}
    (hcopy : wp (logic env cfg) t copy σ h fun σ' r h' => ∃ evs, Log t (evs ++ L) σ' ∧ CopyEnds t ids m tier evs r h')
    (hhandler : ∀ ω σ T, Inv cfg σ ((t, ⟨.moving m tier .claimed, ids⟩) ::ₘ T) →
      Ends cfg t T σ (handler t ω σ) (HandlerEnds t ids id))
    (hfinish : ∀ ω σ T, Inv cfg σ ((t, ⟨.moving m tier .copied, ids⟩) ::ₘ T) →
      Ends cfg t T σ (finish t ω σ) (FinishEnds t ids id dst))
    (hdst : dst = .residentVram ∨ dst = .residentHost ∨ dst = .residentNvme) (hrest : Bystander rest) :
    wp (logic env cfg) t (do
      tryCatch copy fun e => do
        .atomic handler
        throw e
      .atomic finish
      .atomic notifyAll
      rest) σ h (TailEnds t ids id L) := by
  -- the bytes have arrived, or the handler has run
  have hmove : wp (logic env cfg) t (tryCatch copy fun e => do .atomic handler; throw e) σ h fun σ' r h' =>
      (r = .ok () → h' = ⟨.moving m tier .copied, ids⟩ ∧ ∃ evs, Log t (evs ++ L) σ' ∧ CallsFailed t evs) ∧
        ∀ e, r = .error e → TailEnds t ids id L σ' r h' := by
    refine wp_tryCatch hcopy (fun σ' _ h' _ hq => ?_) fun σ' e h' _ hq => ?_
    · obtain ⟨evs, hl, rfl, he⟩ := hq
      exact ⟨fun _ => ⟨rfl, evs, hl, he⟩, nofun⟩
    · obtain ⟨evs, hl, rfl, he⟩ := hq
      refine wp_bind (wp_section hl fun ω σ₁ T _ _ hi => hhandler ω σ₁ T hi) (fun σ₂ _ h₂ _ hq => ?_) fun σ₂ e₂ h₂ _ hq => ?_
      · obtain ⟨evs₂, hl₂, rfl, rfl⟩ := hq
        exact ⟨nofun, fun _ _ => TailEnds.settled he (by simp) hl₂⟩
      · obtain ⟨evs₂, hl₂, c, hc, rfl, hh⟩ := hq
        exact ⟨nofun, fun _ _ => TailEnds.stuck he hc hh hl₂⟩
  refine wp_bind hmove (fun σ₁ _ h₁ _ hq => ?_) fun σ₁ e h₁ _ hq => hq.2 e rfl
  obtain ⟨rfl, evs, hl, he⟩ := hq.1 rfl
  refine wp_bind (wp_section hl fun ω σ₁ T _ _ hi => hfinish ω σ₁ T hi) (fun σ₂ _ h₂ _ hq => ?_) fun σ₂ e₂ h₂ _ hq => ?_
  · obtain ⟨evs₂, hl₂, rfl, rfl⟩ := hq
    refine wp_bind (wp_section hl₂ fun ω σ₁ T _ _ hi => notifyAll_ends hi) (fun σ₃ _ h₃ _ hq => ?_) fun σ₃ e₃ h₃ _ hq => ?_
    · obtain ⟨evs₃, hl₃, rfl, -, rfl⟩ := hq
      refine wp_mono (fun σ₄ r h₄ _ hq => ?_) (hrest.wp hl₃)
      obtain ⟨rfl, hl₄⟩ := hq
      exact TailEnds.settled he (by tauto) hl₄
    · obtain ⟨evs₃, hl₃, rfl, hr, -⟩ := hq
      cases hr
  · obtain ⟨evs₂, hl₂, c, hc, rfl, hh⟩ := hq
    exact TailEnds.stuck he hc hh hl₂

/-- A transfer between host memory and store: the operation is queued and ends. -/
theorem storeMove_wp {first : Nat} {what : String} {e : Error} {await : Sec Unit} (hL : Log t L σ)
    (hoff : m.nvmeOffset = some ((first + 1) * cfg.pageSize))
    (hawait : ∀ ω σ T, Inv cfg σ ((t, ⟨.moving m tier .io, ids⟩) ::ₘ T) → Ends cfg t T σ (await t ω σ) (CopyEnds t ids m tier)) :
    wp (logic env cfg) t (do
      .atomic (throwIfStopping e)
      .atomic (submitIo what (some ((first + 1) * cfg.pageSize)) m.allocationSize)
      .atomic await : Code Unit) σ ⟨.moving m tier .claimed, ids⟩
      fun σ' r h' => ∃ evs, Log t (evs ++ L) σ' ∧ CopyEnds t ids m tier evs r h' := by
  refine wp_bind ((Bystander.atomic (neutral_throwIfStopping e)).wp hL) (fun σ₁ _ h₁ _ hq => ?_) fun σ₁ e₁ h₁ _ hq => ?_
  · obtain ⟨rfl, hL₁⟩ := hq
    refine wp_bind (wp_section hL₁ fun ω σ₁ T _ _ hi => submitIo_ends what hi hoff) (fun σ₂ _ h₂ _ hq => ?_) fun σ₂ e₂ h₂ _ hq => ?_
    · obtain ⟨evs, hL₂, rfl, -, rfl⟩ := hq
      exact wp_section hL₂ fun ω σ₁ T _ _ hi => hawait ω σ₁ T hi
    · obtain ⟨evs, hL₂, -, hr, -⟩ := hq
      cases hr
  · obtain ⟨rfl, hL₁⟩ := hq
    exact ⟨[], hL₁, rfl, callsFailed_nil t⟩

theorem evictHostTail_wp {first : Nat} (hL : Log t L σ) (hst : m.state = .residentHost) (hshape : m.Shape)
    (hdirty : m.dirty = true → m.hasNvmeCopy = false) :
    wp (logic env cfg) t (evictHostTail m.id m (some ((first + 1) * cfg.pageSize))) σ
      ⟨.moving (m.writingBack (some ((first + 1) * cfg.pageSize))).core .none (evictStage m), ids⟩ (TailEnds t ids m.id L) := by
  simp only [PageMetadata.Shape, hst] at hshape
  obtain ⟨ptr, hptr⟩ := Option.isSome_iff_exists.1 hshape.1
  let q := (m.writingBack (some ((first + 1) * cfg.pageSize))).core
  refine tail_wp q .none ?_ (fun ω σ T hi => failEvictHost_ends (m := q) hi)
    (fun ω σ T hi => finishEvictHost_ends (m := q) hi rfl hptr hptr rfl) (.inr (.inr rfl)) bystander_emits
  by_cases hneed : (m.dirty || !m.hasNvmeCopy) = true
  · have hcopy : m.hasNvmeCopy = false := by
      rcases (Bool.or_eq_true_iff.1 hneed) with hd | hc
      · exact hdirty hd
      · simpa using hc
    rw [if_pos hneed, evictStage, if_pos hneed]
    refine storeMove_wp (m := q) hL rfl fun ω σ T hi => ?_
    rw [show deref m.hostPtr = ptr by rw [hptr]; rfl]
    exact awaitWrite_ends (m := q) hi rfl hptr rfl hcopy
  · rw [if_neg hneed, evictStage, if_neg hneed]
    exact ⟨[], hL, rfl, callsFailed_nil t⟩

theorem evictVramTail_wp {ptr : Ptr} (hL : Log t L σ) (hst : m.state = .residentVram) (hshape : m.Shape) :
    wp (logic env cfg) t (evictVramTail cfg m.id ptr tier m) σ ⟨.moving (m.toHost ptr).core tier .claimed, ids⟩
      (TailEnds t ids m.id L) := by
  simp only [PageMetadata.Shape, hst] at hshape
  obtain ⟨v, hv⟩ := Option.isSome_iff_exists.1 hshape.1
  let q := (m.toHost ptr).core
  refine tail_wp q tier (wp_section hL fun ω σ₁ T _ _ hi => ?_) (fun ω σ T hi => failToHost_ends (m := q) hi rfl)
    (fun ω σ T hi => finishEvictVram_ends (m := q) hi rfl hv hv rfl) (.inr (.inl rfl)) bystander_emits
  rw [show deref m.vramPtr = v by rw [hv]; rfl]
  exact deviceCopyD2H_ends (m := q) hi rfl rfl hv

theorem loadTail_wp {first : Nat} {ptr : Ptr} (hL : Log t L σ) (hoff : m.nvmeOffset = some ((first + 1) * cfg.pageSize)) :
    wp (logic env cfg) t (loadTail m.id ptr tier m) σ ⟨.moving (m.loading ptr).core tier .claimed, ids⟩ (TailEnds t ids m.id L) := by
  let q := (m.loading ptr).core
  refine tail_wp q tier ?_ (fun ω σ T hi => failToHost_ends (m := q) hi rfl)
    (fun ω σ T hi => finishLoad_ends (m := q) hi rfl) (.inr (.inl rfl)) (Bystander.atomic neutral_emitEvent)
  unfold readIn
  rw [hoff]
  exact storeMove_wp (m := q) hL hoff fun ω σ T hi => awaitRead_ends (m := q) hi rfl rfl hoff

theorem promoteTail_wp {v : Ptr} (hL : Log t L σ) (hst : m.state = .residentHost) (hshape : m.Shape) :
    wp (logic env cfg) t (promoteTail cfg m.id v m) σ ⟨.moving (m.promoting v).core .none .claimed, ids⟩ (TailEnds t ids m.id L) := by
  simp only [PageMetadata.Shape, hst] at hshape
  obtain ⟨ptr, hptr⟩ := Option.isSome_iff_exists.1 hshape.1
  let q := (m.promoting v).core
  refine tail_wp q .none (wp_section hL fun ω σ₁ T _ _ hi => ?_) (fun ω σ T hi => failPromote_ends (m := q) hi rfl)
    (fun ω σ T hi => finishPromote_ends (m := q) hi rfl hptr hptr rfl) (.inl rfl) (Bystander.atomic neutral_emitEvent)
  rw [show deref m.hostPtr = ptr by rw [hptr]; rfl]
  exact copyUp_ends (m := q) hi rfl hptr rfl

/-! ## Whole transfers -/

/-- How a transfer of page `id` ends: without a claim of it, or with one claim and its outcome. -/
def TransferEnds (t : Nat) (ids : Multiset PageId) (id : PageId) (K : PageId → Prop) (L : List Event) (σ' : Shared)
    (r : Except Error Unit) (h' : Hold) : Prop :=
  Post t ids K L (Idle ids fun _ _ => True) σ' r h' ∨
  ∃ a b, Log t (a ++ .claim t id :: (b ++ L)) σ' ∧ (∀ e ∈ b, Spares K e) ∧ Outcome t ids id a r h'

theorem Outcome.ends {evs : List Event} {r : Except Error Unit} {h' : Hold} (ho : Outcome t ids id evs r h')
    (hL : Log t (evs ++ L) σ') : Finished t ids (Idle ids fun _ _ => True) σ' r h' := by
  rcases ho.2 with ⟨rfl, -⟩ | ⟨⟨e, rfl⟩, ⟨c, hc, hm⟩, -, hh⟩
  · cases r with
    | ok a => exact ⟨rfl, trivial⟩
    | error e => exact .inl rfl
  · exact .inr (Stuck.of_log hL hc hm hh)

/-- A transfer is safe, and takes no page but its own and those it is free to take. -/
theorem TransferEnds.post {K' : PageId → Prop} {r : Except Error Unit} {h' : Hold} (he : TransferEnds t ids id K L σ' r h')
    (hK : ∀ i, K' i → K i) (hid : ¬K' id) : Post t ids K' L (Idle ids fun _ _ => True) σ' r h' := by
  have hmono : ∀ e, Spares K e → Spares K' e := fun e hs u i hc hk => hs u i hc (hK i hk)
  rcases he with ⟨⟨evs, hl, he⟩, hq⟩ | ⟨a, b, hl, hb, ho⟩
  · exact ⟨⟨evs, hl, fun e hm => hmono e (he e hm)⟩, hq⟩
  · refine ⟨⟨a ++ .claim t id :: b, by simpa using hl, fun e hm => ?_⟩, ho.ends hl⟩
    rcases List.mem_append.1 hm with hm | hm
    · exact fun u i hc _ => ho.1 e hm u i hc trivial
    rcases List.mem_cons.1 hm with rfl | hm
    · rintro u i hc hk
      cases hc
      exact hid hk
    · exact hmono e (hb e hm)

theorem spares_moves {cause : Cause} : ∀ e ∈ moves t cause m, Spares K e := by
  cases cause with
  | none => simp [moves]
  | some ticket =>
    intro e hm u i hc
    rw [moves, List.mem_singleton] at hm
    rw [hm] at hc
    cases hc

/-- `evict_host_to_nvme`. -/
theorem evictHostToNvme_wp {cause : Cause} (hcause : cause.Allows id σ) (hL : Log t L σ) :
    wp (logic env cfg) t (evictHostToNvme cfg cause id) σ ⟨.idle, ids⟩ (TransferEnds t ids id (fun _ => True) L) := by
  unfold evictHostToNvme
  refine wp_bind (wp_section hL fun ω σ₁ T hr _ hi => claimEvictHost_ends hi (hcause.later ((logic env cfg).rely_le hr)))
    (fun σ₁ r h₁ _ hq => ?_) fun σ₁ e h₁ _ hq => ?_
  · obtain ⟨evs, hl, hq⟩ := hq
    rcases r with _ | ⟨m, offset⟩
    · obtain ⟨rfl, rfl⟩ := hq
      exact .inl ⟨hl.spared, rfl, trivial⟩
    · obtain ⟨rfl, rfl, rfl, hst, hshape, hdirty, first, rfl⟩ := hq
      refine wp_mono (fun σ₂ r h₂ _ hq => ?_) (evictHostTail_wp hl hst hshape hdirty)
      obtain ⟨evs, hl₂, ho⟩ := hq
      exact .inr ⟨evs, moves t cause m, hl₂, spares_moves, ho⟩
  · obtain ⟨evs, hl, rfl, rfl⟩ := hq
    exact .inl ⟨hl.spared, .inl rfl⟩

/-- `promote_host_to_vram`. -/
theorem promoteHostToVram_wp (hL : Log t L σ) :
    wp (logic env cfg) t (promoteHostToVram cfg id) σ ⟨.idle, ids⟩ (TransferEnds t ids id (fun _ => True) L) := by
  have hret : ∀ {σ : Shared}, Log t L σ →
      wp (logic env cfg) t (pure () : Code Unit) σ ⟨.idle, ids⟩ (TransferEnds t ids id (fun _ => True) L) :=
    fun hl => .inl ⟨hl.spared, rfl, trivial⟩
  have herr : ∀ {σ : Shared} {e : Error} {h' : Hold}, h' = ⟨.idle, ids⟩ ∧ Log t L σ →
      TransferEnds t ids id (fun _ => True) L σ (.error e) h' := fun hq => .inl ⟨hq.2.spared, .inl hq.1⟩
  unfold promoteHostToVram
  refine wp_bind ((Bystander.atomic (neutral_copyOf id)).wp hL) (fun σ₁ m h₁ _ hq => ?_) fun σ₁ e h₁ _ hq => herr hq
  obtain ⟨rfl, hL⟩ := hq
  by_cases hb : m.state ≠ .residentHost ∨ m.inFlight = true
  · rw [if_pos hb]
    exact hret hL
  rw [if_neg hb]
  refine wp_bind ((Bystander.atomic (show Neutral (vramTierExists cfg) from neutral_of_state)).wp hL) (fun σ₂ ex h₂ _ hq => ?_)
    fun σ₂ e h₂ _ hq => herr hq
  obtain ⟨rfl, hL⟩ := hq
  cases ex with
  | false => exact hret hL
  | true =>
    refine wp_bind (wp_section hL fun ω σ₁ T hr _ hi => claimPromote_ends hi) (fun σ₃ r h₃ _ hq => ?_) fun σ₃ e h₃ _ hq => ?_
    · obtain ⟨evs, hl, hq⟩ := hq
      rcases r with _ | ⟨m, v⟩
      · obtain ⟨rfl, rfl⟩ := hq
        exact hret hl
      · obtain ⟨rfl, rfl, rfl, hst, hshape⟩ := hq
        refine wp_mono (fun σ₂ r h₂ _ hq => ?_) (promoteTail_wp hl hst hshape)
        obtain ⟨evs, hl₂, ho⟩ := hq
        exact .inr ⟨evs, [], hl₂, by simp, ho⟩
    · obtain ⟨evs, hl, rfl, he⟩ := hq
      refine .inl ⟨⟨evs, hl, fun e hm u i hc => ?_⟩, .inl rfl⟩
      rw [he e hm] at hc
      cases hc

/-! ## Host buffers -/

theorem hostAllocate_ends {n : Nat} {pageable : Bool} (hi : Inv cfg σ ((t, ⟨.idle, ids⟩) ::ₘ T)) :
    Ends cfg t T σ (hostAllocate n pageable t ω σ) fun evs r h' => CallsFailed t evs ∧
      match r with
      | .ok (some ptr) => ∃ tier, h' = ⟨.hostBuf ptr n tier, ids⟩
      | _ => h' = ⟨.idle, ids⟩ := by
  obtain ⟨ho, -⟩ := hi.enter rfl
  rw [own_idle] at ho
  rcases ho.hostAllocate n pageable t ω with ⟨e, hrun⟩ | hrun | ⟨e, hrun⟩ | ⟨a, scratch, hrun, hn, htier, ho⟩
  · rw [hrun]
    exact ⟨[], _, ⟨rfl, by simp⟩, hi, callsFailed_nil t, rfl⟩
  · rw [hrun]
    exact ⟨[], _, ⟨rfl, by simp⟩, hi, callsFailed_nil t, rfl⟩
  · rw [hrun]
    exact ⟨[.failed t .hostAlloc], _, ⟨rfl, by simp [Event.thread]⟩, Open.logNone hi rfl rfl, callsFailed_one t rfl, rfl⟩
  · rw [hrun]
    exact ⟨[], ⟨.hostBuf a.ptr n a.tier, ids⟩, ⟨rfl, by simp⟩, ho.leave (own_hostBuf ..).symm rfl htier, callsFailed_nil t,
      a.tier, rfl⟩

theorem historyAt_length (h : List Event) : historyAt h h.length = h := by simp [historyAt]

/-- The victims of a host claim are other pages, not pinned at the snapshot. -/
theorem snapshotHostVictims_safe {forPage : PageId} : Safe env cfg t ids K (.atomic (snapshotHostVictims cfg forPage)) σ ⟨.idle, ids⟩
    (Idle ids fun σ' x => ∀ v ∈ x.1, v ≠ forPage ∧ Cause.Allows (some x.2) v σ') := by
  refine Safe.neutral neutral_of_state fun ω σ₁ T x _ _ hi hx => ?_
  cases hx
  intro v hv
  obtain ⟨p, hp, rfl⟩ := Policy.mem_rankVictims.1 hv
  obtain ⟨hp, hc⟩ := List.mem_filter.1 hp
  simp only [Bool.and_eq_true, bne_iff_ne, beq_iff_eq, Bool.not_eq_true'] at hc
  refine ⟨hc.1.1.1, fun ticket ht => ?_⟩
  cases ht
  have hpage := hi.pages p (Keyed.mem_bag.2 hp)
  refine ⟨le_rfl, ?_⟩
  show p.id ∈ allocIds (historyAt σ₁.history σ₁.history.length) ∧ pinnedIn (historyAt σ₁.history σ₁.history.length) p.id = false
  rw [historyAt_length, ← hpage.pinned]
  exact ⟨mem_allocIds_of_sizeIn (hpage.ok hc.2).record.size, hc.1.2⟩

theorem evictFirst_safe {ticket : Nat} : ∀ {victims : List PageId} {σ : Shared},
    (∀ v ∈ victims, ¬K v ∧ Cause.Allows (some ticket) v σ) →
    Safe env cfg t ids K (evictFirst cfg ticket victims) σ ⟨.idle, ids⟩ (Idle ids fun _ _ => True)
  | [], σ, _ => Safe.ret ⟨rfl, trivial⟩
  | v :: rest, σ, hv => by
    obtain ⟨hk, hc⟩ := hv v (List.mem_cons_self ..)
    unfold evictFirst
    refine Safe.bind (F := Idle ids fun _ _ => True) (fun L hL => ?_) fun σ₁ _ h₁ hle₁ hq => ?_
    · exact wp_mono (fun σ' r h' _ hq => hq.post (fun _ _ => trivial) hk) (evictHostToNvme_wp hc hL)
    · obtain ⟨rfl, -⟩ := hq
      refine Safe.pass (Bystander.atomic (neutral_copyOf v)) fun σ₂ m hle₂ => ?_
      by_cases hm : m.state = .residentNvme
      · rw [if_pos hm]
        exact Safe.ret ⟨rfl, trivial⟩
      · rw [if_neg hm]
        exact evictFirst_safe fun u hu => (hv u (List.mem_cons_of_mem _ hu)).imp_right (·.later (hle₁.trans hle₂))

/-- The thread holds a host buffer of `n` bytes. -/
def HoldsBuffer (ids : Multiset PageId) (n : Nat) (ptr : Ptr) (h : Hold) : Prop := ∃ tier, h = ⟨.hostBuf ptr n tier, ids⟩

/-- What a thread holds after a round of `claim_host_buffer`. -/
def RoundEnds (ids : Multiset PageId) (n : Nat) (_ : Shared) (r : Round) (h : Hold) : Prop :=
  match r with
  | .claimed ptr => HoldsBuffer ids n ptr h
  | _ => h = ⟨.idle, ids⟩

/-- What a thread holds after a host allocation that did not throw. -/
def Allocated (ids : Multiset PageId) (n : Nat) (ptr : Option Ptr) (h : Hold) : Prop :=
  (∀ p, ptr = some p → HoldsBuffer ids n p h) ∧ (ptr = none → h = ⟨.idle, ids⟩)

theorem hostRound_safe {n : Nat} {forPage : PageId} (hK : ∀ i, K i → i = forPage) :
    Safe env cfg t ids K (hostRound cfg n forPage) σ ⟨.idle, ids⟩ (RoundEnds ids n) := by
  unfold hostRound
  refine Safe.bind (F := fun _ r h => Allocated ids n r h) (Safe.atomic fun ω σ₁ T _ _ hi => (hostAllocate_ends hi).mono fun evs r h' hq => ?_)
    fun σ₁ r h₁ _ hq => ?_
  · refine ⟨hq.1.spares, ?_⟩
    rcases r with e | _ | ptr
    · exact .inl hq.2
    · exact ⟨nofun, fun _ => hq.2⟩
    · refine ⟨fun p hp => ?_, nofun⟩
      cases hp
      exact hq.2
  rcases r with _ | ptr
  · cases hq.2 rfl
    refine snapshotHostVictims_safe.bind fun σ₂ x h₂ _ hq => ?_
    obtain ⟨rfl, hv⟩ := hq
    refine Safe.bind (evictFirst_safe fun v hm => ⟨fun hk => (hv v hm).1 (hK v hk), (hv v hm).2⟩) fun σ₃ b h₃ _ hq => ?_
    obtain ⟨rfl, -⟩ := hq
    cases b with
    | true => exact Safe.ret rfl
    | false =>
      refine Safe.pass (Bystander.atomic neutral_of_state) fun σ₄ room _ => Safe.ret ?_
      split <;> rfl
  · exact Safe.ret (hq.1 ptr rfl)

/-- A program that holds `headroom_mu_`. -/
theorem withHeadroomLock_safe {p : Code α} {F : Shared → α → Hold → Prop}
    (hF : ∀ σ σ' a h, σ.history <:+ σ'.history → F σ a h → F σ' a h)
    (hp : ∀ σ', σ.history <:+ σ'.history → Safe env cfg t ids K p σ' ⟨.idle, ids⟩ F) :
    Safe env cfg t ids K (withHeadroomLock p) σ ⟨.idle, ids⟩ F := by
  unfold withHeadroomLock
  have hlock : Neutral (Act.modify fun σ : Shared => { σ with headroomHeld := true } : Sec Unit) :=
    fun _ _ _ => ⟨rfl, rfl, rfl, rfl, rfl, rfl, rfl, rfl, rfl, rfl, rfl⟩
  have hunlock : Neutral (Act.modify fun σ : Shared => { σ with headroomHeld := false } : Sec Unit) :=
    fun _ _ _ => ⟨rfl, rfl, rfl, rfl, rfl, rfl, rfl, rfl, rfl, rfl, rfl⟩
  refine Safe.pass (Bystander.await hlock) fun σ₁ _ hle L hL => ?_
  -- the lock is given back however the program ended
  refine wp_andThen (wp_mono (fun σ₂ r h₂ _ hq => ?_) (hp σ₁ hle L hL))
  obtain ⟨⟨evs, hl, he⟩, hq⟩ := hq
  refine wp_andThen (wp_mono (fun σ₃ _ h₃ hle₃ hq₃ => ?_) ((Bystander.atomic hunlock).wp hl))
  obtain ⟨rfl, hl₃⟩ := hq₃
  refine ⟨⟨evs, hl₃, he⟩, ?_⟩
  cases r with
  | ok a => exact hF _ _ _ _ hle₃ hq
  | error e => exact hq.imp_right (·.later hle₃)

theorem claimHostRounds_safe {n : Nat} {forPage : PageId} (hK : ∀ i, K i → i = forPage) : ∀ {k : Nat} {σ : Shared},
    Safe env cfg t ids K (claimHostRounds cfg n forPage k) σ ⟨.idle, ids⟩ (fun _ ptr h => HoldsBuffer ids n ptr h)
  | 0, σ => Safe.throw
  | k + 1, σ => by
    unfold claimHostRounds
    refine Safe.pass (Bystander.atomic (neutral_throwIfStopping _)) fun σ₁ _ _ => ?_
    refine Safe.bind (withHeadroomLock_safe (fun _ _ _ _ _ hq => hq) fun _ _ => hostRound_safe hK) fun σ₂ r h₂ _ hq => ?_
    cases r with
    | claimed ptr => exact Safe.ret hq
    | retry =>
      obtain rfl : h₂ = ⟨.idle, ids⟩ := hq
      exact claimHostRounds_safe hK
    | wait =>
      obtain rfl : h₂ = ⟨.idle, ids⟩ := hq
      exact Safe.pass (Bystander.atomic neutral_pause) fun _ _ _ => claimHostRounds_safe hK

/-- `claim_host_buffer`: a buffer is in hand, and only other pages were evicted for it. -/
theorem claimHostBuffer_safe {n : Nat} {forPage : PageId} (hK : ∀ i, K i → i = forPage) :
    Safe env cfg t ids K (claimHostBuffer cfg n forPage) σ ⟨.idle, ids⟩ (fun _ ptr h => HoldsBuffer ids n ptr h) :=
  claimHostRounds_safe hK

/-! ## Transfers into host memory -/

/-- `copy_of` gives the page's size, which never changes. -/
theorem copyOf_safe : Safe env cfg t ids K (.atomic (copyOf id)) σ ⟨.idle, ids⟩
    (Idle ids fun σ' m => sizeIn σ'.history id = some m.allocationSize) := by
  refine Safe.neutral (neutral_copyOf id) fun ω σ₁ T m _ _ hi hx => ?_
  rcases hl : σ₁.table.lookup id with _ | p
  · rw [copyOf_none hl] at hx
    cases hx
  · rw [copyOf_some hl] at hx ⊢
    cases hx
    exact (hi.enter rfl).1.size hl

theorem allocationTier_ends {ptr : Ptr} {n : Nat} (hi : Inv cfg σ ((t, ⟨.hostBuf ptr n tier, ids⟩) ::ₘ T)) :
    Ends cfg t T σ (allocationTier ptr t ω σ) fun evs r h' => evs = [] ∧ r = .ok tier ∧ h' = ⟨.hostBuf ptr n tier, ids⟩ := by
  have htok : σ.host.allocationTier ptr = some tier := (hi.enter rfl).2
  simp only [allocationTier, htok]
  exact ⟨[], _, ⟨rfl, by simp⟩, hi, rfl, rfl, rfl⟩

/-- A claim that was given a host buffer; when it throws, the buffer is given back. -/
theorem orFreeHost_wp {ptr : Ptr} {n : Nat} {claim : Sec (Option PageMetadata)} {taken : PageMetadata → PageMetadata}
    {cause : Cause} {src : PageState} (hL : Log t L σ)
    (hclaim : ∀ ω σ₁ T, Rely t σ σ₁ → Inv cfg σ₁ ((t, ⟨.hostBuf ptr n tier, ids⟩) ::ₘ T) →
      Ends cfg t T σ₁ (claim t ω σ₁) (BufferClaim cfg t ids ptr n tier id taken cause src)) :
    wp (logic env cfg) t (orFreeHost ptr n (.atomic claim)) σ ⟨.hostBuf ptr n tier, ids⟩ fun σ' r h' =>
      ∃ evs, Log t (evs ++ L) σ' ∧ match r with
        | .ok x => BufferClaim cfg t ids ptr n tier id taken cause src evs (.ok x) h'
        | .error _ => (∀ e ∈ evs, Spares (fun _ => True) e) ∧ (h' = ⟨.idle, ids⟩ ∨ Stuck t σ' h') := by
  have hspare : ∀ {evs : List Event}, (∀ e ∈ evs, e = .failed t .hostFree) → ∀ e ∈ evs, Spares (fun _ => True) e := by
    intro evs he e hm u i hc
    rw [he e hm] at hc
    cases hc
  unfold orFreeHost
  refine wp_tryCatch (wp_section hL fun ω σ₁ T hr _ hi => hclaim ω σ₁ T hr hi) (fun σ₁ x h₁ _ hq => hq) fun σ₁ e h₁ _ hq => ?_
  obtain ⟨evs, hl, rfl, he⟩ := hq
  -- the handler frees the buffer, and swallows a failure of that
  have hfree : wp (logic env cfg) t (tryCatch (.atomic (hostFree ptr n)) fun _ => pure () : Code Unit) σ₁
      ⟨.hostBuf ptr n tier, ids⟩ fun σ' r h' => ∃ evs', Log t (evs' ++ L) σ' ∧ (∀ e ∈ evs', e = .failed t .hostFree) ∧
        (h' = ⟨.idle, ids⟩ ∨ Stuck t σ' h') := by
    refine wp_tryCatch (wp_section hl fun ω σ₁ T _ _ hi => hostFree_ends hi) (fun σ₂ _ h₂ _ hq => ?_) fun σ₂ e₂ h₂ _ hq => ?_
    · obtain ⟨evs₂, hl₂, rfl, rfl⟩ := hq
      exact ⟨evs, hl₂, he, .inl rfl⟩
    · obtain ⟨evs₂, hl₂, rfl, rfl⟩ := hq
      exact ⟨.failed t .hostFree :: evs, hl₂, by simpa using he, .inr (Stuck.of_log (c := .hostFree) hl₂ rfl (by simp) (.inr ⟨ptr, n, tier, rfl⟩))⟩
  refine wp_bind hfree (fun σ₂ _ h₂ _ hq => ?_) fun σ₂ e₂ h₂ _ hq => ?_ <;>
  · obtain ⟨evs', hl₂, he', hq⟩ := hq
    exact ⟨evs', hl₂, hspare he', hq⟩

/-- A transfer into host memory: a buffer is claimed first, then the page. -/
theorem bufferTransfer_wp (claim : Ptr → Nat → Sec (Option PageMetadata)) (tail : Ptr → Tier → PageMetadata → Code Unit)
    {taken : Ptr → PageMetadata → PageMetadata} {cause : Cause} {src : PageState} (hL : Log t L σ)
    (hclaim : ∀ ω σ₁ T ptr n tier, σ.history <:+ σ₁.history → sizeIn σ₁.history id = some n →
      Inv cfg σ₁ ((t, ⟨.hostBuf ptr n tier, ids⟩) ::ₘ T) →
      Ends cfg t T σ₁ (claim ptr n t ω σ₁) (BufferClaim cfg t ids ptr n tier id (taken ptr) cause src))
    (htail : ∀ L σ₁ ptr tier m, m.id = id → m.state = src → WellFormed cfg m → Log t L σ₁ →
      wp (logic env cfg) t (tail ptr tier m) σ₁ ⟨.moving (taken ptr m).core tier .claimed, ids⟩ (TailEnds t ids id L)) :
    wp (logic env cfg) t (do
      let m ← .atomic (copyOf id)
      let hostPtr ← claimHostBuffer cfg m.allocationSize id
      let hostTier ← .atomic (allocationTier hostPtr)
      match ← orFreeHost hostPtr m.allocationSize (.atomic (claim hostPtr m.allocationSize)) with
      | none => pure ()
      | some m => tail hostPtr hostTier m : Code Unit) σ ⟨.idle, ids⟩ (TransferEnds t ids id (· = id) L) := by
  have herr : ∀ {σ' : Shared} {evs : List Event} {e : Error} {h' : Hold}, Log t (evs ++ L) σ' → (∀ e ∈ evs, Spares (· = id) e) →
      (h' = ⟨.idle, ids⟩ ∨ Stuck t σ' h') → TransferEnds t ids id (· = id) L σ' (.error e) h' :=
    fun hl he hq => .inl ⟨⟨_, hl, he⟩, hq⟩
  have happ : ∀ {a b : List Event}, (∀ e ∈ a, Spares (fun _ => True) e) → (∀ e ∈ b, Spares (· = id) e) →
      ∀ e ∈ a ++ b, Spares (· = id) e := fun ha hb e hm =>
    (List.mem_append.1 hm).elim (fun hm u i hc _ => ha e hm u i hc trivial) (hb e)
  refine wp_bind (copyOf_safe (K := (· = id)) L hL) (fun σ₁ m h₁ hle₁ hq => ?_) fun σ₁ e h₁ _ hq => .inl hq
  obtain ⟨⟨evs₁, hl₁, he₁⟩, rfl, hsize⟩ := hq
  refine wp_bind (claimHostBuffer_safe (K := (· = id)) (fun _ hi => hi) _ hl₁) (fun σ₂ ptr h₂ hle₂ hq => ?_) fun σ₂ e h₂ _ hq =>
    .inl ⟨hq.1.trans he₁, hq.2⟩
  obtain ⟨hsp, tier, rfl⟩ := hq
  obtain ⟨evs₂, hl₂, he₂⟩ := hsp.trans he₁
  refine wp_bind (wp_section hl₂ fun ω σ₁ T _ _ hi => allocationTier_ends hi) (fun σ₃ tier' h₃ hle₃ hq => ?_) fun σ₃ e h₃ _ hq => ?_
  · obtain ⟨evs₃, hl₃, rfl, hr, rfl⟩ := hq
    cases hr
    refine wp_bind (orFreeHost_wp hl₃ fun ω σ' T hr hi => hclaim ω σ' T ptr _ _ ?_ ?_ hi) (fun σ₄ r h₄ _ hq => ?_)
      fun σ₄ e h₄ _ hq => ?_
    · exact ((hle₁.trans hle₂).trans hle₃).trans ((logic env cfg).rely_le hr)
    · exact sizeIn_suffix hsize ((hle₂.trans hle₃).trans ((logic env cfg).rely_le hr))
    · obtain ⟨evs₄, hl₄, hq⟩ := hq
      rcases r with _ | m'
      · obtain ⟨rfl, rfl⟩ := hq
        exact .inl ⟨⟨evs₂, hl₄, he₂⟩, rfl, trivial⟩
      · obtain ⟨rfl, rfl, hid, hst, hform⟩ := hq
        refine wp_mono (fun σ₅ r h₅ _ hq => ?_) (htail _ σ₄ ptr tier m' hid hst hform hl₄)
        obtain ⟨a, hl₅, ho⟩ := hq
        refine .inr ⟨a, moves t cause m' ++ evs₂, by simpa using hl₅, happ spares_moves he₂, ho⟩
    · obtain ⟨evs₄, hl₄, he₄, hq⟩ := hq
      exact herr (by rw [List.append_assoc]; exact hl₄) (happ he₄ he₂) hq
  · obtain ⟨evs₃, hl₃, -, hr, -⟩ := hq
    cases hr

/-- `evict_vram_to_host`. -/
theorem evictVramToHost_wp {cause : Cause} (hcause : cause.Allows id σ) (hL : Log t L σ) :
    wp (logic env cfg) t (evictVramToHost cfg cause id) σ ⟨.idle, ids⟩ (TransferEnds t ids id (· = id) L) := by
  refine bufferTransfer_wp (claimEvictVram cause id) (evictVramTail cfg id) hL
    (fun ω σ₁ T ptr n tier hle hs hi => claimEvictVram_ends hi hs (hcause.later hle)) fun L σ₁ ptr tier m hid hst hform hl => ?_
  subst hid
  exact evictVramTail_wp hl hst hform.shape

/-- `load_nvme_to_host`. -/
theorem loadNvmeToHost_wp (hL : Log t L σ) :
    wp (logic env cfg) t (loadNvmeToHost cfg id) σ ⟨.idle, ids⟩ (TransferEnds t ids id (· = id) L) := by
  refine bufferTransfer_wp (claimLoad id) (loadTail id) hL
    (fun ω σ₁ T ptr n tier hle hs hi => claimLoad_ends hi hs) fun L σ₁ ptr tier m hid hst hform hl => ?_
  subst hid
  have hshape := hform.shape
  simp only [PageMetadata.Shape, hst] at hshape
  obtain ⟨off, hoff⟩ := Option.isSome_iff_exists.1 hshape.2.2
  obtain ⟨first, rfl⟩ := hform.offset off hoff
  exact loadTail_wp hl hoff

end FlashTier
