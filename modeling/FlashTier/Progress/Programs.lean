/-
The programs of the runtime wait only as they may: a thread that has taken a page, or holds the headroom lock, goes
on without waiting until it has given it back. `Prompt` programs never wait; `Patient` ones may, when they start
with neither a page nor the lock, and end so, unless with an error.
-/
import FlashTier.Progress.Stakes

namespace FlashTier

open Conc

variable {cfg : RuntimeConfig} {l : Op} {t : Nat} {ω : Env} {σ σ' σ'' : Shared} {α β : Type} {id : PageId} {h h' : Stakes}
  {T : Multiset (Nat × Stakes)} {g : Shared → Bool}

/-! ## Sections and stakes -/

/-- A section that leaves the history alone. -/
theorem Staked.tell (hi : Staked σ ((t, h) ::ₘ T)) {x : Nat × Stakes} (hx : x ∈ (t, h') ::ₘ T) (hu : unnotified x.1 σ.history = true)
    (hh : Stake.waiters ∈ h → Stake.waiters ∈ h') : Stake.waiters ∈ x.2 := by
  rcases Multiset.mem_cons.1 hx with rfl | hx
  · exact hh (hi.waiters (t, h) (Multiset.mem_cons_self ..) hu)
  · exact hi.waiters x (Multiset.mem_cons_of_mem hx) hu

/-- The running thread's stakes change, and the owners of pages; all else is as it was. -/
theorem Staked.retake (hi : Staked σ ((t, h) ::ₘ T)) (ht : ∀ x ∈ T, x.1 ≠ t) (hq : σ'.queue = σ.queue) (hp : σ'.promises = σ.promises)
    (hl : σ'.headroomHeld = σ.headroomHeld)
    (hothers : ∀ t' ≠ t, ∀ id, (ownersIn σ'.history id).count t' ≤ (ownersIn σ.history id).count t')
    (hown : ∀ id, (ownersIn σ'.history id).count t ≤ h'.count (.page id))
    (hwait : ∀ t' ≠ t, unnotified t' σ'.history = true → unnotified t' σ.history = true)
    (htell : unnotified t σ'.history = true → Stake.waiters ∈ h') (hlock : Stake.headroom ∈ h → Stake.headroom ∈ h')
    (hprom : ∀ k, Stake.promise k ∈ h → Stake.promise k ∈ h') (hfut : ∀ k, Stake.future k ∈ h' → Stake.future k ∈ h) :
    Staked σ' ((t, h') ::ₘ T) := by
  refine ⟨fun x hx id => ?_, fun x hx hu => ?_, fun hheld => ?_, fun k hk => ?_, fun x hx k hk => ?_, ?_⟩
  · rcases Multiset.mem_cons.1 hx with rfl | hx
    · exact hown id
    · exact (hothers x.1 (ht x hx) id).trans (hi.pages x (Multiset.mem_cons_of_mem hx) id)
  · rcases Multiset.mem_cons.1 hx with rfl | hx
    · exact htell hu
    · exact hi.waiters x (Multiset.mem_cons_of_mem hx) (hwait x.1 (ht x hx) hu)
  · rw [hl] at hheld
    exact exists_stake (hi.headroom hheld) hlock
  · rw [hp] at hk
    rw [hq]
    exact (hi.promises k hk).imp_right fun hs => exists_stake hs (hprom k)
  · rw [hp]
    rcases Multiset.mem_cons.1 hx with rfl | hx
    · exact hi.futures (t, h) (Multiset.mem_cons_self ..) k (hfut k hk)
    · exact hi.futures x (Multiset.mem_cons_of_mem hx) k hk
  · rw [hq]
    exact hi.prefetches

theorem section_steady {a : Sec β} (ha : Steadies β a) : (watch cfg).Section t h g a fun _ h' => h' = h :=
  fun ω σ _ _ _ hi _ => ⟨h, Staked.steady hi (ha t ω σ), rfl⟩

/-- The page is given back, and there are waiters to notify. -/
theorem section_givesBack {a : Sec β} (ha : GivesBack id β a) : (watch cfg).Section t (.page id ::ₘ h) g a fun r h' =>
    (∃ x, r = .ok x) ∧ h' = .waiters ::ₘ h ∨ (∃ e, r = .error e) ∧ h' = .page id ::ₘ h := by
  intro ω σ T _ ht hi _
  have hi : Staked σ ((t, .page id ::ₘ h) ::ₘ T) := hi
  rcases ha t ω σ with ⟨he, hs⟩ | ⟨hx, hs, hcount⟩
  · exact ⟨_, hi.steady hs, .inr ⟨he, rfl⟩⟩
  refine ⟨.waiters ::ₘ h, ?_, .inl ⟨hx, rfl⟩⟩
  refine hi.retake ht hs.queue hs.promises hs.headroom (fun t' _ => hs.owners t') (fun i => ?_) hs.waiters
    (fun _ => Multiset.mem_cons_self ..) (fun hm => ?_) (fun k hm => ?_) fun k hm => ?_
  · have hpages := hi.pages _ (Multiset.mem_cons_self ..) i
    rw [Multiset.count_cons] at hpages
    rw [Multiset.count_cons_of_ne (by simp)]
    by_cases hid : i = id
    · subst hid
      rw [if_pos rfl] at hpages
      exact hcount.trans (Nat.sub_le_of_le_add hpages)
    · rw [if_neg (by simpa using hid)] at hpages
      exact (hs.owners t i).trans hpages
  · exact Multiset.mem_cons_of_mem ((Multiset.mem_cons.1 hm).resolve_left (by simp))
  · exact Multiset.mem_cons_of_mem ((Multiset.mem_cons.1 hm).resolve_left (by simp))
  · exact Multiset.mem_cons_of_mem ((Multiset.mem_cons.1 hm).resolve_left (by simp))

/-- The waiters are notified. -/
theorem section_notify : (watch cfg).Section t (.waiters ::ₘ h) g notifyAll fun r h' => r = .ok () ∧ h' = h := by
  intro ω σ T _ ht hi _
  have hi : Staked σ ((t, .waiters ::ₘ h) ::ₘ T) := hi
  refine ⟨h, ?_, rfl, rfl⟩
  show Staked (σ.log (.notified t)) ((t, h) ::ₘ T)
  refine hi.retake ht rfl rfl rfl (fun _ _ _ => le_rfl) (fun i => ?_) (fun t' hne hu => unnotified_of_cons rfl hu)
    (fun hu => ?_) (fun hm => ?_) (fun k hm => ?_) fun k => Multiset.mem_cons_of_mem
  · have hpages := hi.pages _ (Multiset.mem_cons_self ..) i
    rw [Multiset.count_cons_of_ne (by simp)] at hpages
    exact hpages
  · have hu : unnotified t (.notified t :: σ.history) = true := hu
    rw [unnotified_notified] at hu
    simp at hu
  · exact (Multiset.mem_cons.1 hm).resolve_left (by simp)
  · exact (Multiset.mem_cons.1 hm).resolve_left (by simp)

/-- How a section that may take the page ends. -/
def Claimed (P : β → Bool) (id : PageId) (h : Stakes) (r : Except Error β) (h' : Stakes) : Prop :=
  (∃ x, r = .ok x ∧ P x = true ∧ h' = .page id ::ₘ h) ∨ (∀ x, r = .ok x → P x = false) ∧ h' = h

theorem section_takes {P : β → Bool} {a : Sec β} (ha : TakesWhen P id a) : (watch cfg).Section t h g a (Claimed P id h) := by
  intro ω σ T _ ht hi _
  have hi : Staked σ ((t, h) ::ₘ T) := hi
  rcases ha t ω σ with ⟨x, hx, hp, htook⟩ | ⟨hn, hs⟩
  · refine ⟨_, hi.retake ht htook.queue htook.promises htook.headroom (fun t' hne i => ?_) (fun i => ?_) (fun t' _ => htook.waiters t')
      (fun hu => Multiset.mem_cons_of_mem (hi.waiters _ (Multiset.mem_cons_self ..) (htook.waiters t hu))) (fun hm => Multiset.mem_cons_of_mem hm)
      (fun k hm => Multiset.mem_cons_of_mem hm) (fun k hm => (Multiset.mem_cons.1 hm).resolve_left (by simp)), .inl ⟨x, hx, hp, rfl⟩⟩
    · refine (htook.owners t' i).trans_eq ?_
      rw [if_neg fun hc => hne hc.1, Nat.add_zero]
    · refine (htook.owners t i).trans ?_
      rw [Multiset.count_cons]
      refine Nat.add_le_add (hi.pages _ (Multiset.mem_cons_self ..) i) ?_
      by_cases hid : i = id <;> simp [hid]
  · exact ⟨h, hi.steady hs, .inr ⟨hn, rfl⟩⟩

/-! ## Programs -/

/-- A program without waits whose sections leave the stakes alone. -/
structure Brief (p : Code α) : Prop where
  ready : p.Ready
  steady : p.All Steadies

theorem brief_ret (r : Except Error α) : Brief (.ret r) := ⟨trivial, trivial⟩

theorem brief_atomic {a : Sec α} (ha : Steadies α a) : Brief (.atomic a) := ⟨Prog.ready_atomic a, .atomic ha⟩

theorem Brief.bind {p : Code α} {f : α → Code β} (hp : Brief p) (hf : ∀ a, Brief (f a)) : Brief (p >>= f) :=
  ⟨hp.ready.bind fun a => (hf a).ready, hp.steady.bind fun a => (hf a).steady⟩

theorem Brief.andThen {p : Code α} {f : Except Error α → Code β} (hp : Brief p) (hf : ∀ r, Brief (f r)) : Brief (p.andThen f) :=
  ⟨hp.ready.andThen fun a => (hf a).ready, hp.steady.andThen fun a => (hf a).steady⟩

theorem Brief.ite {c : Prop} [Decidable c] {p q : Code α} (hp : Brief p) (hq : Brief q) : Brief (if c then p else q) := by
  split
  · exact hp
  · exact hq

theorem Brief.tryCatch {p : Code α} {f : Error → Code α} (hp : Brief p) (hf : ∀ e, Brief (f e)) : Brief (tryCatch p f) :=
  hp.andThen fun r => match r with
    | .ok a => brief_ret (.ok a)
    | .error e => hf e

theorem brief_emit : Brief (.atomic emitEvent) := brief_atomic steadies_of_state

theorem safe_brief : ∀ {p : Code α}, Brief p → (watch cfg).Safe l t p h fun _ h' => h' = h
  | .ret _, _ => rfl
  | .step g a k, hp => by
    have hg : g = fun _ => true := funext hp.ready.1
    refine ⟨by rw [hg]; exact may_nothing, (section_steady hp.steady.1).mono fun r h' he => ?_⟩
    rw [he]
    exact safe_brief ⟨hp.ready.2 r, hp.steady.2 r⟩

/-- The stakes are as they were, unless an error came and a page could not be given back. -/
def Back (h : Stakes) (r : Except Error α) (h' : Stakes) : Prop := ∃ X : Multiset PageId, h' = X.map Stake.page + h ∧ ∀ a, r = .ok a → X = 0

theorem back_refl (h : Stakes) (r : Except Error α) : Back h r h := ⟨0, (zero_add h).symm, fun _ _ => rfl⟩

theorem Back.ok {a : α} (hb : Back h (.ok a) h') : h' = h := by
  obtain ⟨X, rfl, hX⟩ := hb
  rw [hX a rfl, Multiset.map_zero, zero_add]

theorem Back.error {e : Error} (hb : Back h (.error e : Except Error α) h') : Back h (.error e : Except Error β) h' := by
  obtain ⟨X, hX, -⟩ := hb
  exact ⟨X, hX, fun a ha => by cases ha⟩

theorem back_page (e : Error) : Back h (.error e : Except Error α) (.page id ::ₘ h) := ⟨{id}, rfl, fun a ha => by cases ha⟩

/-- The program never waits. -/
def Prompt (cfg : RuntimeConfig) (p : Code α) : Prop := ∀ l t h, (watch cfg).Safe l t p h (Back h)

/-- The program waits only as `l` may. -/
def Patient (cfg : RuntimeConfig) (l : Op) (p : Code α) : Prop := ∀ t (h : Stakes), h.Free l → (watch cfg).Safe l t p h (Back h)

theorem Brief.prompt {p : Code α} (hp : Brief p) : Prompt cfg p := by
  intro l t h
  refine (safe_brief hp).mono fun r h' he => ?_
  rw [he]
  exact back_refl h r

theorem Prompt.patient {p : Code α} (hp : Prompt cfg p) : Patient cfg l p := fun t h _ => hp l t h

theorem Brief.patient {p : Code α} (hp : Brief p) : Patient cfg l p := hp.prompt.patient

theorem Prompt.bind {p : Code α} {f : α → Code β} (hp : Prompt cfg p) (hf : ∀ a, Prompt cfg (f a)) : Prompt cfg (p >>= f) := by
  intro l t h
  refine (hp l t h).bind (fun a h' hb => ?_) fun e h' hb => hb.error
  rw [hb.ok]
  exact hf a l t h

theorem Patient.bind {p : Code α} {f : α → Code β} (hp : Patient cfg l p) (hf : ∀ a, Patient cfg l (f a)) : Patient cfg l (p >>= f) := by
  intro t h hfree
  refine (hp t h hfree).bind (fun a h' hb => ?_) fun e h' hb => hb.error
  rw [hb.ok]
  exact hf a t h hfree

theorem Prompt.ite {c : Prop} [Decidable c] {p q : Code α} (hp : Prompt cfg p) (hq : Prompt cfg q) : Prompt cfg (if c then p else q) := by
  split
  · exact hp
  · exact hq

theorem Patient.ite {c : Prop} [Decidable c] {p q : Code α} (hp : Patient cfg l p) (hq : Patient cfg l q) : Patient cfg l (if c then p else q) := by
  split
  · exact hp
  · exact hq

theorem patient_await {a : Sec α} (w : Wait) (hw : ∀ h : Stakes, h.Free l → w.Admitted l h) (ha : Steadies α a) :
    Patient cfg l (.await (w.guard cfg) a) := by
  intro t h hfree
  refine Watch.Safe.await ⟨w, rfl, hw h hfree⟩ ((section_steady ha).mono fun r h' he => ?_)
  rw [he]
  exact back_refl h r

/-! ## Transfers -/

/-- What a transfer does after it has taken the page: the copy, its handler, the section that gives the page back, and the
notification of the waiters. -/
theorem safe_tail {body rest : Code Unit} {fail finish : Sec Unit} (hb : Brief body) (hf : Steadies _ fail) (hg : GivesBack id _ finish)
    (hr : Brief rest) : (watch cfg).Safe l t (do
      tryCatch body fun e => do
        .atomic fail
        throw e
      .atomic finish
      .atomic notifyAll
      rest) (.page id ::ₘ h) (Back h) := by
  refine Watch.Safe.bind (M := fun _ h' => h' = .page id ::ₘ h) ?_ (fun _ h' he => ?_) fun e h' he => he ▸ back_page e
  · exact safe_brief (hb.tryCatch fun e => (brief_atomic hf).bind fun _ => brief_ret _)
  · rw [he]
    refine Watch.Safe.bind (Watch.Safe.await may_nothing (section_givesBack hg)) (fun _ h' he => ?_) fun e h' he => ?_
    · rcases he with ⟨-, rfl⟩ | ⟨⟨e, he⟩, -⟩
      · refine Watch.Safe.bind (Watch.Safe.await may_nothing section_notify) (fun _ h' he => ?_) fun e h' he => (by cases he.1)
        rw [he.2]
        exact hr.prompt l t h
      · cases he
    · rcases he with ⟨⟨x, hx⟩, -⟩ | ⟨-, rfl⟩
      · cases hx
      · exact back_page e

theorem takes_claimEvictHost {cause : Cause} : TakesWhen Option.isSome id (claimEvictHost cfg cause id) := by
  refine .bind steadies_copyOf fun m => .ite (takesWhen_not (steadies_pure _) fun _ _ _ x hx => by cases hx; rfl) ?_
  refine .bind steadies_evictOffset fun off => .bind steadies_withPage fun _ => .bind steadies_transition fun _ => .bind steadies_recordMove fun _ => ?_
  exact takesWhen_record (fun _ => rfl) (fun _ => rfl) (fun _ => rfl) rfl

theorem prompt_evictHostToNvme {cause : Cause} : Prompt cfg (evictHostToNvme cfg cause id) := by
  intro l t h
  refine Watch.Safe.bind (Watch.Safe.await may_nothing (section_takes takes_claimEvictHost)) (fun x h' he => ?_) fun e h' he => ?_
  · rcases he with ⟨y, hy, hsome, rfl⟩ | ⟨hn, rfl⟩
    · cases hy
      obtain ⟨⟨m, off⟩, rfl⟩ := Option.isSome_iff_exists.1 hsome
      refine safe_tail (.ite ?_ (brief_ret _)) steadies_fails ?_ (brief_emit.bind fun _ => brief_emit)
      · exact (brief_atomic steadies_of_state).bind fun _ => (brief_atomic steadies_submitIo).bind fun _ => brief_atomic steadies_awaitWrite
      · exact .bind steadies_hostFree fun _ => .bind steadies_withPage fun _ => givesBack_transition
    · rw [Option.isSome_eq_false_iff.1 (hn x rfl) |> Option.isNone_iff_eq_none.1]
      exact back_refl h' _
  · rcases he with ⟨y, hy, -⟩ | ⟨-, rfl⟩
    · cases hy
    · exact back_refl h' _

theorem prompt_evictFirst {ticket : Nat} : ∀ {victims : List PageId}, Prompt cfg (evictFirst cfg ticket victims)
  | [] => (brief_ret _).prompt
  | _ :: _ => prompt_evictHostToNvme.bind fun _ => (brief_atomic steadies_copyOf).prompt.bind fun _ => .ite (brief_ret _).prompt prompt_evictFirst

theorem prompt_hostRound {n : Nat} : Prompt cfg (hostRound cfg n id) := by
  unfold hostRound
  refine (brief_atomic steadies_hostAllocate).prompt.bind fun x => ?_
  split
  · exact (brief_ret _).prompt
  · exact (brief_atomic steadies_of_state).prompt.bind fun _ => prompt_evictFirst.bind fun _ =>
      .ite (brief_ret _).prompt ((brief_atomic steadies_of_state).bind fun _ => brief_ret _).prompt

/-! ## The headroom lock -/

theorem section_lock : (watch cfg).Section t h g (Act.modify fun σ => { σ with headroomHeld := true } : Sec Unit)
    fun r h' => r = .ok () ∧ h' = .headroom ::ₘ h := by
  intro ω σ T _ ht hi _
  have hi : Staked σ ((t, h) ::ₘ T) := hi
  refine ⟨.headroom ::ₘ h, ⟨fun x hx id => ?_, fun x hx hu => ?_, fun _ => ⟨_, Multiset.mem_cons_self .., Multiset.mem_cons_self ..⟩, fun k hk => ?_,
    fun x hx k hk => ?_, hi.prefetches⟩, rfl, rfl⟩
  · rcases Multiset.mem_cons.1 hx with rfl | hx
    · rw [Multiset.count_cons_of_ne (by simp)]
      exact hi.pages _ (Multiset.mem_cons_self ..) id
    · exact hi.pages x (Multiset.mem_cons_of_mem hx) id
  · exact hi.tell hx hu Multiset.mem_cons_of_mem
  · exact (hi.promises k hk).imp_right fun hs => exists_stake hs Multiset.mem_cons_of_mem
  · rcases Multiset.mem_cons.1 hx with rfl | hx
    · exact hi.futures _ (Multiset.mem_cons_self ..) k ((Multiset.mem_cons.1 hk).resolve_left (by simp))
    · exact hi.futures x (Multiset.mem_cons_of_mem hx) k hk

theorem section_unlock : (watch cfg).Section t (.headroom ::ₘ h) g (Act.modify fun σ => { σ with headroomHeld := false } : Sec Unit)
    fun _ h' => h' = h := by
  intro ω σ T _ ht hi _
  have hi : Staked σ ((t, .headroom ::ₘ h) ::ₘ T) := hi
  refine ⟨_, ⟨fun x hx id => ?_, fun x hx hu => ?_, nofun, fun k hk => ?_, fun x hx k hk => ?_, hi.prefetches⟩, rfl⟩
  · rcases Multiset.mem_cons.1 hx with rfl | hx
    · have hc := hi.pages _ (Multiset.mem_cons_self ..) id
      rw [Multiset.count_cons_of_ne (by simp)] at hc
      exact hc
    · exact hi.pages x (Multiset.mem_cons_of_mem hx) id
  · exact hi.tell hx hu fun hm => (Multiset.mem_cons.1 hm).resolve_left (by simp)
  · exact (hi.promises k hk).imp_right fun hs => exists_stake hs fun hm => (Multiset.mem_cons.1 hm).resolve_left (by simp)
  · rcases Multiset.mem_cons.1 hx with rfl | hx
    · exact hi.futures (t, .headroom ::ₘ h) (Multiset.mem_cons_self ..) k (Multiset.mem_cons_of_mem hk)
    · exact hi.futures x (Multiset.mem_cons_of_mem hx) k hk

/-- Under the lock a program must not wait. -/
theorem patient_withHeadroomLock {p : Code α} (hp : Prompt cfg p) : Patient cfg l (withHeadroomLock p) := by
  intro t h hfree
  refine Watch.Safe.bind (Watch.Safe.await ⟨.headroom, rfl, hfree⟩ section_lock) (fun _ h' he => ?_) fun e h' he => (by cases he.1)
  rw [he.2]
  refine Watch.Safe.andThen ((hp l t (.headroom ::ₘ h)).mono fun r h₁ hb => ?_)
  obtain ⟨X, rfl, hX⟩ := hb
  rw [Multiset.add_cons]
  refine Watch.Safe.andThen ((Watch.Safe.await may_nothing section_unlock).mono fun _ h₂ he => ?_)
  exact ⟨X, he, hX⟩

theorem patient_claimHostRounds {bytes : Nat} : ∀ {n : Nat}, Patient cfg l (claimHostRounds cfg bytes id n)
  | 0 => (brief_ret _).patient
  | n + 1 => by
    unfold claimHostRounds
    refine (brief_atomic steadies_of_state).patient.bind fun _ => (patient_withHeadroomLock prompt_hostRound).bind fun r => ?_
    cases r with
    | claimed ptr => exact (brief_ret _).patient
    | retry => exact patient_claimHostRounds
    | wait => exact (brief_atomic (steadies_pure ())).patient.bind fun _ => patient_claimHostRounds

/-! ## Transfers with a host buffer -/

/-- The claim of a page for which a host buffer was taken. -/
theorem safe_claim {P : α → Bool} {a : Sec α} {ptr : Ptr} {n : Nat} (ha : TakesWhen P id a) :
    (watch cfg).Safe l t (orFreeHost ptr n (.atomic a)) h (Claimed P id h) := by
  refine Watch.Safe.tryCatch (Watch.Safe.await may_nothing (section_takes ha)) (fun _ _ he => he) fun e h' he => ?_
  rcases he with ⟨y, hy, -⟩ | ⟨-, rfl⟩
  · cases hy
  -- the handler ends with the error
  refine Watch.Safe.bind (M := fun _ h₁ => h₁ = h') (safe_brief ((brief_atomic steadies_hostFree).tryCatch fun _ => brief_ret _))
    (fun _ h₁ he => ?_) fun e' h₁ he => ?_
  · exact .inr ⟨fun x hx => (by cases hx), he⟩
  · exact .inr ⟨fun x hx => (by cases hx), he⟩

/-- A transfer after the claim of its page. -/
theorem safe_claimed {p : Code (Option α)} {f : Option α → Code β} (hp : (watch cfg).Safe l t p h (Claimed Option.isSome id h))
    (hnone : Brief (f none)) (hsome : ∀ m, (watch cfg).Safe l t (f (some m)) (.page id ::ₘ h) (Back h)) :
    (watch cfg).Safe l t (p >>= f) h (Back h) := by
  refine hp.bind (fun x h' he => ?_) fun e h' he => ?_
  · rcases he with ⟨y, hy, hs, rfl⟩ | ⟨hn, rfl⟩
    · cases hy
      obtain ⟨m, rfl⟩ := Option.isSome_iff_exists.1 hs
      exact hsome m
    · rw [Option.isNone_iff_eq_none.1 (Option.isSome_eq_false_iff.1 (hn x rfl))]
      exact hnone.prompt l t h'
  · rcases he with ⟨y, hy, -⟩ | ⟨-, rfl⟩
    · cases hy
    · exact back_refl h' _

theorem takes_claimEvictVram {cause : Cause} {ptr : Ptr} {n : Nat} : TakesWhen Option.isSome id (claimEvictVram cause id ptr n) := by
  refine .bind steadies_copyOf fun m => .ite ?_ ?_
  · exact .bind steadies_hostFree fun _ => takesWhen_not (steadies_pure _) fun _ _ _ x hx => by cases hx; rfl
  · exact .bind steadies_withPage fun _ => .bind steadies_transition fun _ => .bind steadies_recordMove fun _ =>
      takesWhen_record (fun _ => rfl) (fun _ => rfl) (fun _ => rfl) rfl

theorem patient_evictVramToHost {cause : Cause} : Patient cfg l (evictVramToHost cfg cause id) := by
  refine (brief_atomic steadies_copyOf).patient.bind fun _ => patient_claimHostRounds.bind fun ptr =>
    (brief_atomic steadies_allocationTier).patient.bind fun tier => ?_
  intro t h _
  refine safe_claimed (safe_claim takes_claimEvictVram) (brief_ret _) fun m => ?_
  refine safe_tail (brief_atomic steadies_deviceCopyD2H) (steadies_hostFree.bind fun _ => steadies_fails) ?_
    (brief_emit.bind fun _ => brief_emit)
  exact .bind steadies_deviceFree fun _ => .bind steadies_vramRelease fun _ => .bind steadies_withPage fun _ => .bind steadies_transition fun _ =>
    givesBack_withPage fun _ => rfl

theorem takes_claimLoad {ptr : Ptr} {n : Nat} : TakesWhen Option.isSome id (claimLoad id ptr n) := by
  refine .bind steadies_copyOf fun m => .ite ?_ ?_
  · exact .bind steadies_hostFree fun _ => takesWhen_not (steadies_pure _) fun _ _ _ x hx => by cases hx; rfl
  · exact .bind steadies_withPage fun _ => .bind steadies_transition fun _ => takesWhen_record (fun _ => rfl) (fun _ => rfl) (fun _ => rfl) rfl

theorem patient_loadNvmeToHost : Patient cfg l (loadNvmeToHost cfg id) := by
  refine (brief_atomic steadies_copyOf).patient.bind fun _ => patient_claimHostRounds.bind fun ptr =>
    (brief_atomic steadies_allocationTier).patient.bind fun tier => ?_
  intro t h _
  refine safe_claimed (safe_claim takes_claimLoad) (brief_ret _) fun m => ?_
  refine safe_tail ?_ (steadies_hostFree.bind fun _ => steadies_fails) ?_ brief_emit
  · exact (brief_atomic steadies_of_state).bind fun _ => (brief_atomic steadies_submitIo).bind fun _ => brief_atomic steadies_awaitRead
  · exact .bind steadies_withPage fun _ => .bind steadies_transition fun _ => givesBack_withPage fun _ => rfl

theorem takes_claimPromote : TakesWhen Option.isSome id (claimPromote cfg id) := by
  have hnone : TakesWhen Option.isSome id (pure none : Sec (Option (PageMetadata × Ptr))) :=
    takesWhen_not (steadies_pure _) fun _ _ _ x hx => by cases hx; rfl
  refine .bind steadies_copyOf fun m => .ite hnone (.bind steadies_vramTryReserve fun b => .ite ?_ hnone)
  refine .bind (steadies_deviceAlloc.tryCatch fun e => steadies_vramRelease.bind fun _ => steadies_throw e) fun ptr => ?_
  exact .bind steadies_withPage fun _ => .bind steadies_transition fun _ => takesWhen_record (fun _ => rfl) (fun _ => rfl) (fun _ => rfl) rfl

theorem prompt_promoteHostToVram : Prompt cfg (promoteHostToVram cfg id) := by
  refine (brief_atomic steadies_copyOf).prompt.bind fun m => .ite (brief_ret _).prompt ?_
  refine (brief_atomic steadies_of_state).prompt.bind fun _ => .ite ?_ (brief_ret _).prompt
  intro l t h
  refine safe_claimed (Watch.Safe.await may_nothing (section_takes takes_claimPromote)) (brief_ret _) ?_
  rintro ⟨m, ptr⟩
  refine safe_tail (brief_atomic (Steadies.bind steadies_of_state fun _ => steadies_deviceCopyH2D))
    (steadies_vramRelease.bind fun _ => steadies_deviceFree.bind fun _ => steadies_fails) ?_ brief_emit
  exact .bind steadies_hostFree fun _ => .bind steadies_withPage fun _ => givesBack_transition

/-! ## Headroom and loads -/

theorem steadies_decideVictim {d : EvictionDecision} : Steadies _ (decideVictim cfg d) :=
  steadies_copyOf.bind fun _ => .ite (steadies_pure _) (.ite
    (Steadies.bind steadies_of_state fun _ => steadies_dropClean.bind fun _ => steadies_recordMove.bind fun _ => steadies_pure _) (steadies_pure _))

theorem steadies_lookAt : Steadies _ (lookAt id) := by
  intro t ω σ
  unfold lookAt
  split <;> exact Steady.refl σ

theorem steadies_plan {need free : Nat} {ps : List PageMetadata} : Steadies _ (plan cfg need ps free) := by
  intro t ω σ
  unfold plan
  split
  · exact Steady.refl σ
  · exact steady_log σ rfl

theorem patient_runDecisions : ∀ {ds : List EvictionDecision} {progress : Bool}, Patient cfg l (runDecisions cfg ds progress)
  | [], _ => (brief_ret _).patient
  | d :: rest, progress => by
    unfold runDecisions
    refine (brief_atomic steadies_decideVictim).patient.bind fun r => ?_
    cases r with
    | skip => exact patient_runDecisions
    | dropped => exact brief_emit.patient.bind fun _ => patient_runDecisions
    | demote =>
      refine (brief_atomic steadies_lookAt).patient.bind fun x => .ite patient_runDecisions (patient_evictVramToHost.bind fun _ => ?_)
      refine (brief_atomic steadies_copyOf).patient.bind fun _ => .ite patient_runDecisions ?_
      by_cases hd : d.target = .nvme
      · simp only [hd, if_true]
        exact prompt_evictHostToNvme.patient.bind fun _ => patient_runDecisions
      · simp only [hd, if_false]
        exact patient_runDecisions

theorem patient_headroomRounds {need : Nat} : ∀ {n : Nat}, Patient cfg l (headroomRounds cfg need n)
  | 0 => (brief_ret _).patient
  | n + 1 => by
    unfold headroomRounds
    refine (brief_atomic steadies_of_state).patient.bind fun _ => (brief_atomic steadies_of_state).patient.bind fun _ =>
      .ite (brief_ret _).patient ?_
    refine (brief_atomic steadies_of_state).patient.bind fun x => (brief_atomic steadies_of_state).patient.bind fun _ =>
      (brief_atomic (steadies_modify (by exact fun _ => rfl))).patient.bind fun _ => (brief_atomic steadies_plan).patient.bind fun _ => ?_
    exact patient_runDecisions.bind fun _ => .ite patient_headroomRounds
      ((brief_atomic (steadies_pure ())).patient.bind fun _ => patient_headroomRounds)

theorem patient_ensureVramHeadroom {need : Nat} : Patient cfg l (ensureVramHeadroom cfg need) :=
  (brief_atomic steadies_of_state).patient.bind fun _ => patient_headroomRounds

theorem steadies_settledPage : Steadies _ (settledPage id) := by
  refine Steadies.bind steadies_of_state fun _ => steadies_copyOf.bind fun m => ?_
  split
  · exact steadies_throw _
  · exact steadies_throw _
  · exact steadies_throw _
  · exact steadies_pure _

theorem patient_waitSettled : Patient cfg l (waitSettled id) := patient_await (.settled id) (fun _ h => h) steadies_settledPage

theorem patient_promoteOnce {n : Nat} : Patient cfg l (promoteOnce cfg id n) :=
  patient_ensureVramHeadroom.bind fun _ => prompt_promoteHostToVram.patient.bind fun _ => (brief_atomic steadies_copyOf).patient.bind fun _ =>
    .ite (brief_ret _).patient (patient_waitSettled.bind fun _ => (brief_ret _).patient)

theorem patient_loadAttempts {target : Tier} : ∀ {n : Nat}, Patient cfg l (loadAttempts cfg id target n)
  | 0 => (brief_ret _).patient
  | n + 1 => by
    have hup : ∀ bytes : Nat, Patient cfg l (if target = .vram then do
        if ← .atomic hasVram then do
          if ← promoteOnce cfg id bytes then pure () else loadAttempts cfg id target n
        else pure ()
      else pure () : Code Unit) := fun bytes =>
      .ite ((brief_atomic steadies_of_state).patient.bind fun _ => .ite (patient_promoteOnce.bind fun _ => .ite (brief_ret _).patient patient_loadAttempts)
        (brief_ret _).patient) (brief_ret _).patient
    unfold loadAttempts
    refine (brief_atomic steadies_of_state).patient.bind fun _ => (brief_atomic steadies_copyOf).patient.bind fun m => ?_
    split
    · exact (brief_ret _).patient
    · exact hup m.allocationSize
    · refine patient_loadNvmeToHost.bind fun _ => (brief_atomic steadies_copyOf).patient.bind fun m => .ite (.ite (brief_ret _).patient ?_) (hup m.allocationSize)
      exact patient_waitSettled.bind fun _ => patient_loadAttempts
    · exact patient_waitSettled.bind fun _ => patient_loadAttempts

/-! ## Requests -/

theorem section_pushDemand {target : Tier} : (watch cfg).Section t h g (pushDemand id target) fun r h' =>
    (∃ k, r = .ok k ∧ h' = .future k ::ₘ h) ∨ (∃ e, r = .error e) ∧ h' = h := by
  intro ω σ T _ ht hi _
  have hi : Staked σ ((t, h) ::ₘ T) := hi
  show ∃ h', Staked (pushDemand id target t ω σ).2 ((t, h') ::ₘ T) ∧ _
  unfold pushDemand
  split
  · exact ⟨h, hi, .inr ⟨⟨_, rfl⟩, rfl⟩⟩
  refine ⟨.future σ.promises.length ::ₘ h, ⟨fun x hx i => ?_, fun x hx hu => ?_, fun hheld => ?_, fun k hk => ?_, fun x hx k hk => ?_,
    fun r hr hkind => ?_⟩, .inl ⟨_, rfl, rfl⟩⟩
  · rcases Multiset.mem_cons.1 hx with rfl | hx
    · rw [Multiset.count_cons_of_ne (by simp)]
      exact hi.pages _ (Multiset.mem_cons_self ..) i
    · exact hi.pages x (Multiset.mem_cons_of_mem hx) i
  · exact hi.tell hx hu Multiset.mem_cons_of_mem
  · exact exists_stake (hi.headroom hheld) Multiset.mem_cons_of_mem
  · -- the new promise is that of the new request
    have hk : (σ.promises ++ [none])[k]? = some none := hk
    rcases Nat.lt_or_ge k σ.promises.length with hlt | hge
    · rw [List.getElem?_append_left hlt] at hk
      rcases hi.promises k hk with ⟨r, hr, hc⟩ | hs
      · exact .inl ⟨r, List.mem_append_left _ hr, hc⟩
      · exact .inr (exists_stake hs Multiset.mem_cons_of_mem)
    · have hlt := (List.getElem?_eq_some_iff.1 hk).1
      rw [List.length_append, List.length_singleton] at hlt
      have hk : σ.promises.length = k := by omega
      exact .inl ⟨_, List.mem_append_right _ (List.mem_singleton_self _), congrArg some hk⟩
  · show k < (σ.promises ++ [none]).length
    rw [List.length_append, List.length_singleton]
    rcases Multiset.mem_cons.1 hx with rfl | hx
    · rcases Multiset.mem_cons.1 hk with heq | hk
      · cases heq
        exact Nat.lt_succ_self _
      · exact Nat.lt_succ_of_lt (hi.futures _ (Multiset.mem_cons_self ..) k hk)
    · exact Nat.lt_succ_of_lt (hi.futures x (Multiset.mem_cons_of_mem hx) k hk)
  · rcases List.mem_append.1 hr with hr | hr
    · exact hi.prefetches r hr hkind
    · rw [List.mem_singleton.1 hr] at hkind
      cases hkind

theorem section_getFuture {k : Nat} : (watch cfg).Section t (.future k ::ₘ h) g (getFuture k) fun _ h' => h' = h := by
  intro ω σ T _ ht hi _
  have hi : Staked σ ((t, .future k ::ₘ h) ::ₘ T) := hi
  refine ⟨h, ?_, rfl⟩
  refine hi.retake ht rfl rfl rfl (fun _ _ _ => le_rfl) (fun i => ?_) (fun _ _ hu => hu)
    (fun hu => (Multiset.mem_cons.1 (hi.waiters _ (Multiset.mem_cons_self ..) hu)).resolve_left (by simp))
    (fun hm => (Multiset.mem_cons.1 hm).resolve_left (by simp)) (fun k hm => (Multiset.mem_cons.1 hm).resolve_left (by simp)) fun k => Multiset.mem_cons_of_mem
  have hc := hi.pages _ (Multiset.mem_cons_self ..) i
  rw [Multiset.count_cons_of_ne (by simp)] at hc
  exact hc

theorem patient_submitDemand (hl : l.isWorker = false) {target : Tier} : Patient cfg l (submitDemand cfg id target) := by
  intro t h hfree
  refine Watch.Safe.bind (Watch.Safe.await ⟨.room, rfl, hfree, hl⟩ section_pushDemand) (fun k h' he => ?_) fun e h' he => ?_
  · rcases he with ⟨k', hk, rfl⟩ | ⟨⟨e, he⟩, -⟩
    · cases hk
      have hfree' : Stakes.Free l (.future k ::ₘ h) := by
        refine ⟨fun i hm => hfree.page i ?_, fun hm => hfree.waiters ?_, fun hm => hfree.headroom ?_, fun hl i hm => hfree.promise hl i ?_⟩ <;>
          exact (Multiset.mem_cons.1 hm).resolve_left (by simp)
      refine Watch.Safe.await ⟨.result k, rfl, hfree', hl, Multiset.mem_cons_self ..⟩ (section_getFuture.mono fun r h' he => ?_)
      rw [he]
      exact back_refl h r
    · cases he
  · rcases he with ⟨k, hk, -⟩ | ⟨-, rfl⟩
    · cases hk
    · exact back_refl h' _

theorem section_pushPrefetch {target : Tier} : (watch cfg).Section t h g (pushPrefetch cfg id target) fun _ h' => h' = h := by
  intro ω σ T _ ht hi _
  have hi : Staked σ ((t, h) ::ₘ T) := hi
  refine ⟨h, ?_, rfl⟩
  show Staked (pushPrefetch cfg id target t ω σ).2 ((t, h) ::ₘ T)
  unfold pushPrefetch
  split
  · exact hi
  split
  · exact hi
  split
  · refine ⟨hi.pages, hi.waiters, hi.headroom, fun k hk => (hi.promises k hk).imp_left fun ⟨r, hr, hc⟩ => ⟨r, List.mem_append_left _ hr, hc⟩, hi.futures,
      fun r hr hkind => ?_⟩
    rcases List.mem_append.1 hr with hr | hr
    · exact hi.prefetches r hr hkind
    · rw [List.mem_singleton.1 hr]
  · exact hi

theorem prompt_submitPrefetch {target : Tier} : Prompt cfg (submitPrefetch cfg id target) := by
  intro l t h
  refine Watch.Safe.bind (Watch.Safe.await may_nothing section_pushPrefetch) (fun x h' he => ?_) fun e h' he => he ▸ back_refl h' _
  rw [he]
  cases x with
  | duplicate => exact back_refl h _
  | _ => exact brief_emit.prompt l t h

/-- Prefetch requests have no promise, so that none is forgotten with them. -/
theorem section_removeQueuedPrefetch : (watch cfg).Section t h g (removeQueuedPrefetch id) fun r h' => r = .ok () ∧ h' = h := by
  intro ω σ T _ ht hi _
  have hi : Staked σ ((t, h) ::ₘ T) := hi
  refine ⟨h, ⟨hi.pages, hi.waiters, hi.headroom, fun k hk => ?_, hi.futures, fun r hr => hi.prefetches r (List.mem_of_mem_filter hr)⟩, rfl, rfl⟩
  refine (hi.promises k hk).imp_left fun ⟨r, hr, hc⟩ => ⟨r, List.mem_filter.2 ⟨hr, ?_⟩, hc⟩
  cases hp : isPrefetchOf id r with
  | false => rfl
  | true =>
    simp only [isPrefetchOf, Bool.and_eq_true, beq_iff_eq] at hp
    rw [hi.prefetches r hr hp.2] at hc
    cases hc

/-- The promises that are not satisfied after those of the queue were. -/
theorem foldl_cancel {x : Except Error Unit} {f : List (Option (Except Error Unit)) → Request → List (Option (Except Error Unit))}
    (hnone : ∀ ps r, r.completion = none → f ps r = ps) (hsome : ∀ ps r k, r.completion = some k → f ps r = ps.set k (some x)) {k : Nat} :
    ∀ {q : List Request} {ps : List (Option (Except Error Unit))}, (q.foldl f ps)[k]? = some none →
      ps[k]? = some none ∧ ∀ r ∈ q, r.completion ≠ some k
  | [], ps, hk => ⟨hk, fun r hr => absurd hr List.not_mem_nil⟩
  | r :: q, ps, hk => by
    obtain ⟨hps, hq⟩ := foldl_cancel hnone hsome (q := q) hk
    have hfirst : ps[k]? = some none ∧ r.completion ≠ some k := by
      rcases hc : r.completion with _ | k'
      · rw [hnone ps r hc] at hps
        exact ⟨hps, nofun⟩
      · rw [hsome ps r k' hc] at hps
        by_cases hkk : k' = k
        · subst hkk
          rw [List.getElem?_set_self'] at hps
          obtain ⟨y, -, hy⟩ := Option.map_eq_some_iff.1 hps
          cases hy
        · rw [List.getElem?_set_ne hkk] at hps
          exact ⟨hps, fun heq => hkk (Option.some.inj heq)⟩
    refine ⟨hfirst.1, fun r' hr' => ?_⟩
    rcases List.mem_cons.1 hr' with rfl | hr'
    · exact hfirst.2
    · exact hq r' hr'

theorem length_foldl_cancel {x : Except Error Unit} {f : List (Option (Except Error Unit)) → Request → List (Option (Except Error Unit))}
    (hnone : ∀ ps r, r.completion = none → f ps r = ps) (hsome : ∀ ps r k, r.completion = some k → f ps r = ps.set k (some x)) :
    ∀ (q : List Request) (ps : List (Option (Except Error Unit))), (q.foldl f ps).length = ps.length
  | [], _ => rfl
  | r :: q, ps => by
    rw [List.foldl_cons, length_foldl_cancel hnone hsome q]
    rcases hc : r.completion with _ | k
    · rw [hnone ps r hc]
    · rw [hsome ps r k hc, List.length_set]

theorem section_beginShutdown : (watch cfg).Section t h g beginShutdown fun r h' => r = .ok () ∧ h' = h := by
  intro ω σ T _ ht hi _
  have hi : Staked σ ((t, h) ::ₘ T) := hi
  refine ⟨h, ⟨hi.pages, hi.waiters, hi.headroom, fun k hk => ?_, fun x hx k hk => ?_, fun r hr => absurd hr List.not_mem_nil⟩, rfl, rfl⟩
  · obtain ⟨hps, hq⟩ := foldl_cancel (x := .error ⟨.cancelled, "runtime is shutting down", ""⟩) (fun ps r hc => by simp only [hc])
      (fun ps r k hc => by simp only [hc]) hk
    rcases hi.promises k hps with ⟨r, hr, hc⟩ | hs
    · exact absurd hc (hq r hr)
    · exact .inr hs
  · refine (hi.futures x hx k hk).trans_eq (Eq.symm ?_)
    exact length_foldl_cancel (x := .error ⟨.cancelled, "runtime is shutting down", ""⟩) (fun ps r hc => by simp only [hc])
      (fun ps r k hc => by simp only [hc]) _ _

/-! ## The worker -/

/-- What a worker has of a request in its hands. -/
def Request.stakes (r : Request) : Stakes :=
  match r.completion with
  | some k => {.promise k}
  | none => 0

theorem section_popRequest : (watch cfg).Section t 0 g popRequest fun r h' => (∃ x, r = .ok (some x) ∧ h' = x.stakes) ∨ r = .ok none ∧ h' = 0 := by
  intro ω σ T _ ht hi _
  have hi : Staked σ ((t, 0) ::ₘ T) := hi
  show ∃ h', Staked (popRequest t ω σ).2 ((t, h') ::ₘ T) ∧ _
  unfold popRequest
  split
  · exact ⟨0, hi, .inr ⟨rfl, rfl⟩⟩
  rename_i r rest hq
  have hcases : (r.completion = none ∧ r.stakes = 0) ∨ ∃ k, r.completion = some k ∧ r.stakes = {.promise k} := by
    unfold Request.stakes
    rcases r.completion with _ | k
    · exact .inl ⟨rfl, rfl⟩
    · exact .inr ⟨k, rfl, rfl⟩
  have hmem : ∀ s ∈ r.stakes, ∃ k, r.completion = some k ∧ s = .promise k := by
    intro s hs
    rcases hcases with ⟨-, h0⟩ | ⟨k, hc, hk⟩
    · rw [h0] at hs
      cases Multiset.notMem_zero _ hs
    · rw [hk] at hs
      exact ⟨k, hc, Multiset.mem_singleton.1 hs⟩
  have hzero : ∀ {s : Stake}, s ∈ (0 : Stakes) → s ∈ r.stakes := fun hm => absurd hm (Multiset.notMem_zero _)
  refine ⟨r.stakes, ⟨fun x hx i => ?_, fun x hx hu => hi.tell hx hu hzero, fun hheld => exists_stake (hi.headroom hheld) hzero, fun k hk => ?_,
    fun x hx k hk => ?_, fun r' hr' => hi.prefetches r' (hq ▸ List.mem_cons_of_mem _ hr')⟩, .inl ⟨r, rfl, rfl⟩⟩
  · rcases Multiset.mem_cons.1 hx with rfl | hx
    · exact (hi.pages _ (Multiset.mem_cons_self ..) i).trans (Nat.zero_le _)
    · exact hi.pages x (Multiset.mem_cons_of_mem hx) i
  · rcases hi.promises k hk with ⟨r', hr', hc⟩ | hs
    · rw [hq] at hr'
      rcases List.mem_cons.1 hr' with rfl | hr'
      · refine .inr ⟨_, Multiset.mem_cons_self .., ?_⟩
        rcases hcases with ⟨hn, -⟩ | ⟨k', hc', hk'⟩
        · rw [hn] at hc
          cases hc
        · cases hc'.symm.trans hc
          show Stake.promise k ∈ r'.stakes
          rw [hk']
          exact Multiset.mem_singleton_self _
      · exact .inl ⟨r', hr', hc⟩
    · exact .inr (exists_stake hs hzero)
  · rcases Multiset.mem_cons.1 hx with rfl | hx
    · obtain ⟨k', -, he⟩ := hmem _ hk
      cases he
    · exact hi.futures x (Multiset.mem_cons_of_mem hx) k hk

theorem section_setPromise {r : Request} {x : Except Error Unit} : (watch cfg).Section t (r.stakes + h) g (setPromise r.completion x)
    fun r' h' => r' = .ok () ∧ h' = h := by
  intro ω σ T _ ht hi _
  have hi : Staked σ ((t, r.stakes + h) ::ₘ T) := hi
  show ∃ h', Staked (setPromise r.completion x t ω σ).2 ((t, h') ::ₘ T) ∧ _
  unfold Request.stakes at hi
  rcases hc : r.completion with _ | k
  · rw [hc, zero_add] at hi
    exact ⟨h, hi, rfl, rfl⟩
  rw [hc] at hi
  have hne : ∀ s : Stake, s ≠ .promise k → s ∈ ({.promise k} + h : Stakes) → s ∈ h := by
    intro s hs hm
    exact (Multiset.mem_add.1 hm).resolve_left fun hp => hs (Multiset.mem_singleton.1 hp)
  refine ⟨h, ⟨fun y hy i => ?_, fun y hy hu => hi.tell hy hu (hne _ (by simp)), fun hheld => exists_stake (hi.headroom hheld) (hne _ (by simp)),
    fun k' hk' => ?_, fun y hy k' hk' => ?_, hi.prefetches⟩,
    rfl, rfl⟩
  · rcases Multiset.mem_cons.1 hy with rfl | hy
    · have hcount := hi.pages _ (Multiset.mem_cons_self ..) i
      rw [Multiset.count_add, Multiset.count_singleton, if_neg (by simp), zero_add] at hcount
      exact hcount
    · exact hi.pages y (Multiset.mem_cons_of_mem hy) i
  · have hk' : (σ.promises.set k (some x))[k']? = some none := hk'
    by_cases hkk : k = k'
    · subst hkk
      rw [List.getElem?_set_self'] at hk'
      obtain ⟨y, -, hy⟩ := Option.map_eq_some_iff.1 hk'
      cases hy
    · rw [List.getElem?_set_ne hkk] at hk'
      exact (hi.promises k' hk').imp_right fun hs => exists_stake hs (hne _ (by simpa using Ne.symm hkk))
  · show k' < (σ.promises.set k (some x)).length
    rw [List.length_set]
    rcases Multiset.mem_cons.1 hy with rfl | hy
    · exact hi.futures (t, {.promise k} + h) (Multiset.mem_cons_self ..) k' (Multiset.mem_add.2 (.inr hk'))
    · exact hi.futures y (Multiset.mem_cons_of_mem hy) k' hk'

/-- A section that does not throw. -/
theorem safe_sure {a : Sec Unit} (ha : Steadies _ a) (hok : ∀ t ω σ, ω.emit = none → (a t ω σ).1 = .ok ()) :
    (watch cfg).Safe l t (.atomic a) h fun r h' => r = .ok () ∧ h' = h :=
  Watch.Safe.await may_nothing fun ω σ _ hω _ hi _ => ⟨h, Staked.steady hi (ha t ω σ), hok t ω σ hω, rfl⟩

theorem steadies_unmarkPrefetched : Steadies _ (unmarkPrefetched id) := steadies_modify fun _ => rfl

theorem steadies_markPrefetched : Steadies _ (markPrefetched id) := by
  refine steadies_modify fun σ => ?_
  split <;> rfl

theorem steadies_finishPrefetch : Steadies _ (finishPrefetch id) := fun _ _ _ => steady_of_history rfl rfl rfl rfl

/-- A worker that handles an error satisfies the promise. -/
theorem safe_workerFailed {r : Request} {e : Error} : (watch cfg).Safe l t (workerFailed r e) (r.stakes + h) fun r' h' => r' = .ok () ∧ h' = h := by
  have hset : (watch cfg).Safe l t (.atomic (setPromise r.completion (.error e))) (r.stakes + h) fun r' h' => r' = .ok () ∧ h' = h :=
    Watch.Safe.await may_nothing section_setPromise
  have hemit : (watch cfg).Safe l t (do
      if e.code ≠ .cancelled then .atomic emitEvent else pure ()
      .atomic (setPromise r.completion (.error e)) : Code Unit) (r.stakes + h) fun r' h' => r' = .ok () ∧ h' = h := by
    by_cases hc : e.code ≠ .cancelled
    · simp only [if_pos hc]
      refine Watch.Safe.bind (safe_sure steadies_of_state fun _ _ _ hω => (by simp only [emitEvent, hω])) (fun _ h' he => ?_) fun _ _ he => (by cases he.1)
      rw [he.2]
      exact hset
    · simp only [if_neg hc]
      exact hset
  unfold workerFailed
  by_cases hk : r.kind = .prefetch
  · simp only [if_pos hk]
    refine Watch.Safe.bind (safe_sure steadies_unmarkPrefetched fun _ _ _ _ => rfl) (fun _ h' he => ?_) fun _ _ he => (by cases he.1)
    rw [he.2]
    exact hemit
  · simp only [if_neg hk]
    exact hemit

/-- Only pages are left, which could not be given back. -/
def OnlyPages (h : Stakes) : Prop := ∀ s ∈ h, ∃ id, s = .page id

theorem onlyPages_map (X : Multiset PageId) : OnlyPages (X.map Stake.page) := by
  intro s hs
  obtain ⟨id, -, rfl⟩ := Multiset.mem_map.1 hs
  exact ⟨id, rfl⟩

theorem free_stakes (r : Request) : r.stakes.Free .worker := by
  unfold Request.stakes
  rcases r.completion with _ | k
  · exact free_zero
  · exact ⟨fun _ => by simp, by simp, by simp, nofun⟩

/-- The load of a request and what becomes of its promise. -/
theorem safe_load {r : Request} : (watch cfg).Safe .worker t (tryCatch (do
      loadPage cfg r.page r.target
      .atomic (setPromise r.completion (.ok ()))) (workerFailed r)) r.stakes fun _ h' => OnlyPages h' := by
  refine Watch.Safe.tryCatch (M := fun r' h' => (r' = .ok () ∧ h' = 0) ∨ ∃ X : Multiset PageId, (∃ e, r' = .error e) ∧ h' = r.stakes + X.map .page) ?_ ?_ ?_
  · refine Watch.Safe.bind (patient_loadAttempts t r.stakes (free_stakes r)) (fun _ h' hb => ?_) fun e h' hb => ?_
    · rw [hb.ok, ← add_zero r.stakes]
      exact (Watch.Safe.await may_nothing section_setPromise).mono fun _ _ he => .inl he
    · obtain ⟨X, hX, -⟩ := hb
      exact .inr ⟨X, ⟨e, rfl⟩, hX.trans (add_comm _ _)⟩
  · rintro ⟨⟩ h' (⟨-, rfl⟩ | ⟨X, ⟨e, he⟩, -⟩)
    · exact fun s hs => absurd hs (Multiset.notMem_zero s)
    · cases he
  · rintro e h' (⟨he, -⟩ | ⟨X, -, rfl⟩)
    · cases he
    · exact safe_workerFailed.mono fun _ _ he => he.2 ▸ onlyPages_map X

theorem safe_serve {r : Request} : (watch cfg).Safe .worker t (serve cfg r) r.stakes fun _ h' => OnlyPages h' := by
  unfold serve
  by_cases hk : r.kind = .prefetch
  · simp only [if_pos hk]
    refine Watch.Safe.bind (safe_sure steadies_markPrefetched fun _ _ _ _ => rfl) (fun _ h' he => ?_) fun _ _ he => (by cases he.1)
    rw [he.2]
    refine Watch.Safe.bind safe_load (fun _ h' he => ?_) fun _ _ he => he
    refine (safe_sure steadies_finishPrefetch fun _ _ _ _ => rfl).mono fun _ _ h₁ => ?_
    rw [h₁.2]
    exact he
  · simp only [if_neg hk]
    exact Watch.Safe.bind safe_load (fun _ _ he => he) fun _ _ he => he

/-- A turn that has taken a request goes on. -/
theorem serve_ne_ret (r : Request) (x : Except Error Reply) : done (serve cfg r) ≠ .ret x := by
  unfold serve
  by_cases hk : r.kind = .prefetch
  · simp only [if_pos hk]
    exact fun h => by cases h
  · simp only [if_neg hk]
    exact fun h => by cases h

/-- What follows the pop of a turn; the wait for the request is not part of it. -/
theorem exists_turn (cfg : RuntimeConfig) : ∃ k, code cfg .worker = .step (fun σ => σ.stopping || !σ.queue.isEmpty) popRequest k ∧
    (∀ t, (watch cfg).Section t 0 (fun σ => σ.stopping || !σ.queue.isEmpty) popRequest fun r h' =>
      (watch cfg).Safe .worker t (k r) h' fun _ h' => OnlyPages h') ∧ ∀ r x, k (.ok (some r)) ≠ .ret x := by
  refine ⟨_, rfl, fun t => section_popRequest.mono fun r h' he => ?_, fun r x => serve_ne_ret r x⟩
  rcases he with ⟨r, rfl, rfl⟩ | ⟨rfl, rfl⟩
  · exact Watch.Safe.bind safe_serve (fun _ _ he => he) fun _ _ he => he
  · exact fun s hs => absurd hs (Multiset.notMem_zero s)

/-! ## Release -/

theorem takes_claimFree : TakesWhen (fun _ => true) id (claimFree id) := by
  have hend : ∀ m : PageMetadata, TakesWhen (fun _ => true) id (do
      Act.modify fun σ : Shared => { σ with prefetched := σ.prefetched.filter (· != id) }
      record fun t => .release t id m.owned
      pure m : Sec PageMetadata) := fun m =>
    .bind (steadies_modify fun _ => rfl) fun _ => takesWhen_record (fun _ => rfl) (fun _ => rfl) (fun _ => rfl) rfl
  refine .bind steadies_copyOf fun m => ?_
  cases m.state with
  | residentVram | residentHost | residentNvme | error =>
    exact .bind steadies_transition fun _ => .bind steadies_withPage fun _ => hend m
  | released => exact .bind steadies_withPage fun _ => hend m
  | _ => exact .bind (steadies_throw _) fun _ => hend m

theorem brief_freeResource {r : Resource} {s : FreeStatus} {free clear : Sec Unit} {release : Option (Sec Unit)} (hf : Steadies _ free)
    (hc : Steadies _ clear) (hr : ∀ a, release = some a → Steadies _ a) : Brief (freeResource r id s free clear release) := by
  refine (brief_atomic (hf.bind fun _ => steadies_record fun _ => rfl)).andThen fun x => ?_
  cases x with
  | error e => exact brief_ret _
  | ok =>
    refine (brief_atomic hc).andThen fun y => ?_
    cases release with
    | none => exact brief_ret _
    | some a =>
      refine (brief_atomic ((hr a rfl).bind fun _ => steadies_record fun _ => rfl)).andThen fun z => ?_
      cases z <;> exact brief_ret _

theorem brief_freeVram {m : PageMetadata} {s : FreeStatus} : Brief (freeVram cfg id m s) := by
  unfold freeVram
  split
  · exact brief_ret _
  · exact brief_freeResource steadies_deviceFree steadies_withPage fun a ha => by cases ha; exact steadies_vramRelease

theorem brief_freeHost {m : PageMetadata} {s : FreeStatus} : Brief (freeHost id m s) := by
  unfold freeHost
  split
  · exact brief_ret _
  · exact brief_freeResource (steadies_hostFree.bind fun _ => steadies_record fun _ => rfl) steadies_withPage fun a ha => by cases ha

theorem brief_freeNvme {m : PageMetadata} {s : FreeStatus} : Brief (freeNvme cfg id m s) := by
  unfold freeNvme
  split
  · exact brief_ret _
  · exact brief_freeResource steadies_freeExtents steadies_withPage fun a ha => by cases ha; exact steadies_nvmeRelease

/-- The last section of a release: the page is erased, or given back to be released again. -/
theorem ends_finishFree {failed : Bool} (t : Nat) (ω : Env) (σ : Shared) :
    ((∃ e, (finishFree id failed t ω σ).1 = .error e) ∧ Steady σ (finishFree id failed t ω σ).2) ∨
      (∃ x, (finishFree id failed t ω σ).1 = .ok x) ∧ Rouses t σ (finishFree id failed t ω σ).2 := by
  cases failed with
  | false =>
    refine .inr ⟨⟨(), rfl⟩, rfl, rfl, rfl, count_owners_le (e := .erase t id) rfl σ.history, fun t' hne hu => ?_⟩
    have hu : unnotified t' (.erase t id :: σ.history) = true := hu
    rwa [unnotified, decide_eq_false hne.symm, Bool.false_or] at hu
  | true =>
    have hback : GivesBack id Unit (finishFree id true) := givesBack_withPage fun _ => rfl
    rcases hback t ω σ with herr | ⟨hx, hs, -⟩
    · exact .inl herr
    · exact .inr ⟨hx, hs⟩

theorem rouses_finishFree {failed : Bool} : Rouses t σ (finishFree id failed t ω σ).2 :=
  (ends_finishFree t ω σ).elim (fun h => h.2.rouses) fun h => h.2

theorem section_finishFree {failed : Bool} : (watch cfg).Section t h g (finishFree id failed) fun r h' =>
    (∃ x, r = .ok x) ∧ h' = .waiters ::ₘ h ∨ (∃ e, r = .error e) ∧ h' = h := by
  intro ω σ T _ ht hi _
  have hi : Staked σ ((t, h) ::ₘ T) := hi
  rcases ends_finishFree t ω σ with ⟨he, hs⟩ | ⟨hx, hs⟩
  · exact ⟨h, hi.steady hs, .inr ⟨he, rfl⟩⟩
  refine ⟨.waiters ::ₘ h, ?_, .inl ⟨hx, rfl⟩⟩
  refine hi.retake ht hs.queue hs.promises hs.headroom (fun t' _ => hs.owners t') (fun i => ?_) hs.waiters (fun _ => Multiset.mem_cons_self ..)
    Multiset.mem_cons_of_mem (fun k => Multiset.mem_cons_of_mem) fun k hm => (Multiset.mem_cons.1 hm).resolve_left (by simp)
  rw [Multiset.count_cons_of_ne (by simp)]
  exact (hs.owners t i).trans (hi.pages _ (Multiset.mem_cons_self ..) i)

theorem safe_freePage (hl : l.isWorker = false) : (watch cfg).Safe l t (freePage cfg id) 0 fun _ h' => OnlyPages h' := by
  have hnone : OnlyPages 0 := fun s hs => absurd hs (Multiset.notMem_zero s)
  have hpage : OnlyPages (.page id ::ₘ 0) := fun s hs => ⟨id, Multiset.mem_singleton.1 hs⟩
  refine Watch.Safe.bind (safe_brief (brief_atomic steadies_of_state)) (fun _ h' he => ?_) fun _ _ he => he ▸ hnone
  rw [he]
  refine Watch.Safe.bind (Watch.Safe.await ⟨.releasable id, rfl, free_zero, hl⟩ (section_takes takes_claimFree)) (fun m h' he => ?_) fun e h' he => ?_
  · obtain ⟨-, -, -, rfl⟩ | ⟨hn, -⟩ := he
    · -- the page has been taken: from here on the release waits for nothing
      refine Watch.Safe.bind (Watch.Safe.await may_nothing section_removeQueuedPrefetch) (fun _ h' he => ?_) fun _ _ he => (by cases he.1)
      rw [he.2]
      refine Watch.Safe.bind (safe_brief brief_freeVram) (fun s h' he => ?_) fun _ _ he => he ▸ hpage
      rw [he]
      refine Watch.Safe.bind (safe_brief brief_freeHost) (fun s h' he => ?_) fun _ _ he => he ▸ hpage
      rw [he]
      refine Watch.Safe.bind (safe_brief brief_freeNvme) (fun s h' he => ?_) fun _ _ he => he ▸ hpage
      rw [he]
      refine Watch.Safe.bind (Watch.Safe.await may_nothing section_finishFree) (fun _ h' he => ?_) fun e h' he => ?_
      · obtain ⟨-, rfl⟩ | ⟨⟨e, he⟩, -⟩ := he
        · refine Watch.Safe.bind (Watch.Safe.await may_nothing section_notify) (fun _ h' he => ?_) fun e h' he => (by cases he.1)
          rw [he.2]
          refine Watch.Safe.mono (fun _ _ he => he ▸ hpage) (safe_brief ?_)
          split
          · exact brief_ret _
          · exact brief_emit
        · cases he
      · obtain ⟨⟨x, hx⟩, -⟩ | ⟨-, rfl⟩ := he
        · cases hx
        · exact hpage
    · cases hn m rfl
  · rcases he with ⟨y, hy, -⟩ | ⟨-, rfl⟩
    · cases hy
    · exact hnone

/-! ## Allocation -/

theorem steadies_recordAlloc {p : PageMetadata} {content : Shared → Bytes} : Steadies _ (recordAlloc p content) :=
  fun t _ σ => steady_log (e := .alloc t p.id p.allocationSize p.pinned (Bytes.take (content σ) p.allocationSize)) σ rfl

theorem steadies_takePageId : Steadies _ takePageId := by
  intro t ω σ
  unfold takePageId
  split
  · exact Steady.refl σ
  · exact steady_of_history rfl rfl rfl rfl

theorem patient_allocVram {p : PageMetadata} : Patient cfg l (allocVram cfg p) := by
  refine patient_ensureVramHeadroom.bind fun _ => (brief_atomic steadies_vramTryReserve).patient.bind fun _ => .ite ?_ (brief_ret _).patient
  refine Brief.patient (Brief.bind (.tryCatch (brief_atomic steadies_deviceAlloc) fun e => (brief_atomic steadies_vramRelease).bind fun _ => brief_ret _)
    fun ptr => brief_atomic ?_)
  exact steadies_insertPage.bind fun _ => steadies_transition.bind fun _ => steadies_recordAlloc

theorem patient_allocHost {p : PageMetadata} : Patient cfg l (allocHost cfg p) := by
  refine (brief_atomic steadies_hostAllocate).patient.bind fun x => ?_
  split
  · exact (brief_ret _).patient
  · exact (brief_atomic (steadies_insertPage.bind fun _ => steadies_allocationTier.bind fun _ => steadies_transition.bind fun _ =>
      steadies_withPage.bind fun _ => steadies_recordAlloc)).patient

theorem steadies_insertNvme {p : PageMetadata} : Steadies _ (insertNvme cfg p) := by
  refine steadies_reserveNvmeRange.bind fun x => ?_
  split
  · exact steadies_throw _
  · exact steadies_insertPage.bind fun _ => steadies_transition.bind fun _ => steadies_recordAlloc

theorem patient_allocatePage {a : AllocArgs} : Patient cfg l (allocatePage cfg a) := by
  refine (brief_atomic steadies_of_state).patient.bind fun _ => .ite (brief_ret _).patient (.ite (brief_ret _).patient ?_)
  refine (brief_atomic steadies_takePageId).patient.bind fun id =>
    (brief_atomic fun _ _ _ => steady_of_history rfl rfl rfl rfl).patient.bind fun tier => ?_
  have hend : Patient cfg l (do
      .atomic emitEvent
      pure id : Code PageId) := (brief_emit.bind fun _ => brief_ret _).patient
  cases tier with
  | vram => exact patient_allocVram.bind fun _ => hend
  | hostPinned | hostPageable => exact patient_allocHost.bind fun _ => hend
  | nvme => exact (brief_atomic steadies_insertNvme).patient.bind fun _ => hend
  | none => exact (brief_ret _).patient.bind fun _ => hend

/-! ## Access -/

variable (hl : l.isWorker = false)

theorem brief_consumePrefetchMark : Brief (consumePrefetchMark id) :=
  (brief_atomic fun _ _ _ => steady_of_history rfl rfl rfl rfl).bind fun _ => .ite brief_emit (brief_ret _)

include hl

theorem patient_settleInMemory {target : PageMetadata → Sec Tier} (ht : ∀ m, Steadies _ (target m)) : Patient cfg l (settleInMemory cfg id target) :=
  patient_waitSettled.bind fun m => .ite ((brief_atomic (ht m)).patient.bind fun _ => (patient_submitDemand hl).bind fun _ => patient_waitSettled)
    (brief_ret _).patient

theorem patient_copyRounds {copy : Sec (Option α)} (hc : Steadies _ copy) : ∀ n, Patient cfg l (copyRounds cfg id copy n)
  | 0 => (brief_ret _).patient
  | n + 1 => by
    refine (brief_atomic hc).patient.bind fun x => ?_
    split
    · exact (brief_ret _).patient
    · exact (patient_settleInMemory hl fun _ => steadies_pure _).bind fun _ => patient_copyRounds hc n

theorem patient_untilDeadline {copy : Sec (Option α)} (hc : Steadies _ copy) : Patient cfg l (untilDeadline cfg id copy) :=
  (brief_atomic steadies_of_state).patient.bind fun n => patient_copyRounds hl hc n

omit hl in
theorem steadies_writeVram {m : PageMetadata} {data : Bytes} {n : Nat} : Steadies _ (writeVram cfg m data n) :=
  Steadies.bind steadies_of_state fun _ => steadies_deviceCopyH2D.tryCatch fun _ => Steadies.bind steadies_of_state fun _ =>
    (steadies_record fun _ => rfl).bind fun _ => steadies_throw _

omit hl in
theorem steadies_tryWrite {data : Bytes} {n : Nat} : Steadies _ (tryWrite cfg id data n) := by
  refine steadies_copyOf.bind fun m => ?_
  have hcommit : Steadies _ (do
      touch id fun p => { p with dirty := true, hasNvmeCopy := false, checksum := fnv1a64 (Bytes.take data n) }
      record fun t => .wrote t id (Bytes.take data n)
      pure true : Sec Bool) := steadies_touch.bind fun _ => (steadies_record fun _ => rfl).bind fun _ => steadies_pure _
  dsimp only
  split
  · exact Steadies.bind (steadies_modify fun _ => rfl) fun _ => hcommit
  · exact steadies_writeVram.bind fun _ => hcommit
  · exact steadies_throw _
  · exact steadies_throw _
  · exact steadies_throw _
  · exact steadies_pure _

theorem patient_finishWrite {data : Bytes} {m : PageMetadata} : Patient cfg l (finishWrite cfg id data m) := by
  refine (patient_untilDeadline hl (steadies_tryWrite.bind fun _ => .ite (steadies_pure _) (steadies_pure _))).bind fun x => ?_
  split
  · exact (brief_ret _).patient
  · exact (brief_consumePrefetchMark.bind fun _ => brief_emit).patient

theorem patient_writePageImpl {data : Option Bytes} : Patient cfg l (writePageImpl cfg id data) := by
  refine patient_waitSettled.bind fun m => ?_
  split
  · exact (brief_ret _).patient
  by_cases hm : m.state = .residentNvme
  · simp only [if_pos hm]
    exact (patient_submitDemand hl).bind fun _ => patient_waitSettled.bind fun _ => patient_finishWrite hl
  · simp only [if_neg hm]
    exact patient_finishWrite hl

omit hl in
theorem steadies_tryCopyOut {n : Nat} : Steadies _ (tryCopyOut cfg id n) := by
  refine steadies_copyOf.bind fun m => ?_
  split
  · exact Steadies.bind steadies_of_state fun _ => steadies_pure _
  · exact steadies_deviceStage.bind fun _ => steadies_pure _
  · exact steadies_pure _

omit hl in
theorem steadies_tryRead {n : Nat} : Steadies _ (tryRead cfg id n) := by
  refine steadies_tryCopyOut.bind fun x => ?_
  split
  · exact steadies_pure _
  · exact steadies_touch.bind fun _ => (steadies_record fun _ => rfl).bind fun _ => steadies_pure _

theorem patient_finishRead {promoted : Bool} {m : PageMetadata} : Patient cfg l (finishRead cfg id promoted m) := by
  refine (patient_untilDeadline hl steadies_tryRead).bind fun x => ?_
  split
  · exact (brief_ret _).patient
  refine (brief_consumePrefetchMark.bind fun _ => brief_emit.bind fun _ => ?_).patient
  cases promoted with
  | true => exact brief_emit.bind fun _ => brief_emit.bind fun _ => brief_ret _
  | false => exact brief_ret _

theorem patient_readPage {out : Bool} : Patient cfg l (readPage cfg id out) := by
  refine (brief_atomic steadies_of_state).patient.bind fun _ => patient_waitSettled.bind fun m => .ite (brief_ret _).patient ?_
  by_cases hm : m.state = .residentNvme
  · simp only [if_pos hm]
    exact (brief_atomic steadies_of_state).patient.bind fun _ => (patient_submitDemand hl).bind fun _ => patient_waitSettled.bind fun _ => patient_finishRead hl
  · simp only [if_neg hm]
    exact patient_finishRead hl

theorem patient_verifyPage : Patient cfg l (verifyPage cfg id) := by
  refine (brief_atomic steadies_of_state).patient.bind fun _ => (patient_settleInMemory hl fun _ => steadies_pure _).bind fun m =>
    (patient_untilDeadline hl steadies_tryCopyOut).bind fun x => ?_
  split
  · exact (brief_ret _).patient
  · exact (brief_emit.bind fun _ => .ite (brief_ret _) (brief_ret _)).patient

/-! ## Residency control -/

theorem patient_promote : Patient cfg l (promote cfg id) :=
  (brief_atomic steadies_of_state).patient.bind fun _ => (brief_atomic steadies_copyOf).patient.bind fun _ => .ite (brief_ret _).patient
    ((brief_atomic steadies_of_state).patient.bind fun _ => patient_submitDemand hl)

omit hl

theorem patient_demoteAttempts {goal : PageState} {move : PageState → Option (Code Unit)} (hm : ∀ s p, move s = some p → Patient cfg l p) :
    ∀ n, Patient cfg l (demoteAttempts id goal move n)
  | 0 => (brief_ret _).patient
  | n + 1 => by
    refine patient_waitSettled.bind fun m => .ite (brief_ret _).patient ?_
    split
    · exact (brief_ret _).patient
    · rename_i p hp
      exact (hm _ p hp).bind fun _ => patient_waitSettled.bind fun _ => .ite (brief_ret _).patient (patient_demoteAttempts hm n)

theorem patient_demoteToHostImpl : Patient cfg l (demoteToHostImpl cfg id) := by
  refine patient_demoteAttempts (fun s p hp => ?_) 16
  cases s with
  | residentVram => cases hp; exact patient_evictVramToHost
  | residentNvme => cases hp; exact patient_loadNvmeToHost
  | _ => cases hp

theorem patient_demoteToNvme : Patient cfg l (demoteToNvme cfg id) := by
  refine (brief_atomic steadies_of_state).patient.bind fun _ => patient_demoteAttempts (fun s p hp => ?_) 16
  cases s with
  | residentVram => cases hp; exact patient_evictVramToHost
  | residentHost => cases hp; exact prompt_evictHostToNvme.patient
  | _ => cases hp

theorem steadies_tryDrop : Steadies _ (tryDrop cfg id) :=
  steadies_copyOf.bind fun _ => .ite (steadies_dropClean.bind fun _ => steadies_pure _) (steadies_pure _)

theorem patient_evict : Patient cfg l (evict cfg id) :=
  (brief_atomic steadies_of_state).patient.bind fun _ => patient_waitSettled.bind fun _ => .ite (brief_ret _).patient
    (.ite ((brief_atomic steadies_tryDrop).patient.bind fun _ => .ite brief_emit.patient patient_demoteToHostImpl) patient_demoteToHostImpl)

theorem patient_prefetchEach : ∀ ids, Patient cfg l (prefetchEach cfg ids)
  | [] => (brief_ret _).patient
  | _ :: rest => patient_waitSettled.bind fun _ => .ite (patient_prefetchEach rest)
      ((brief_atomic steadies_of_state).patient.bind fun _ => prompt_submitPrefetch.patient.bind fun _ => patient_prefetchEach rest)

theorem patient_prefetch {ids : List PageId} : Patient cfg l (prefetch cfg ids) :=
  (brief_atomic steadies_of_state).patient.bind fun _ => patient_prefetchEach ids

/-! ## Every operation -/

theorem Patient.safe {p : Code α} (hp : Patient cfg l p) : (watch cfg).Safe l t p 0 fun _ h' => OnlyPages h' := by
  refine (hp t 0 free_zero).mono fun r h' hb => ?_
  obtain ⟨X, rfl, -⟩ := hb
  rw [add_zero]
  exact onlyPages_map X

theorem Patient.done {p : Code Unit} (hp : Patient cfg l p) : Patient cfg l (FlashTier.done p) := hp.bind fun _ => (brief_ret _).patient

/-- Every operation waits only as it may, and ends with nothing that another waits for, but for pages it could not
give back. -/
theorem safe_code (hl : l.isWorker = false) (t : Nat) : (watch cfg).Safe l t (code cfg l) 0 fun _ h' => OnlyPages h' := by
  cases l with
  | allocate a => exact (patient_allocatePage.bind fun _ => (brief_ret _).patient).safe
  | free id => exact Watch.Safe.bind (safe_freePage rfl) (fun _ _ he => he) fun _ _ he => he
  | write id data => exact ((brief_atomic steadies_of_state).patient.bind fun _ => patient_writePageImpl rfl).done.safe
  | fill id =>
    exact ((brief_atomic steadies_of_state).patient.bind fun _ => (brief_atomic steadies_copyOf).patient.bind fun _ =>
      patient_writePageImpl rfl).done.safe
  | read id out => exact ((patient_readPage rfl).bind fun _ => (brief_ret _).patient).safe
  | verify id => exact (patient_verifyPage rfl).done.safe
  | promote id => exact (patient_promote rfl).done.safe
  | demoteToHost id => exact ((brief_atomic steadies_of_state).patient.bind fun _ => patient_demoteToHostImpl).done.safe
  | demoteToNvme id => exact patient_demoteToNvme.done.safe
  | evict id => exact patient_evict.done.safe
  | pin id b =>
    exact Patient.safe (((brief_atomic steadies_of_state).bind fun _ =>
      brief_atomic (steadies_withPage.bind fun _ => steadies_record fun _ => rfl)).patient.done)
  | prefetch ids => exact patient_prefetch.done.safe
  | prefetchSequential start count => exact (Patient.ite (brief_ret _).patient patient_prefetch).done.safe
  | worker => cases hl
  | shutdown =>
    have hnone : OnlyPages 0 := fun s hs => absurd hs (Multiset.notMem_zero s)
    refine Watch.Safe.bind (Watch.Safe.await may_nothing section_beginShutdown) (fun _ h' he => ?_) fun _ _ he => (by cases he.1)
    rw [he.2]
    exact hnone
  | transfer kind id =>
    cases kind with
    | evictVramToHost => exact patient_evictVramToHost.done.safe
    | evictHostToNvme => exact prompt_evictHostToNvme.patient.done.safe
    | loadNvmeToHost => exact patient_loadNvmeToHost.done.safe
    | promoteHostToVram => exact prompt_promoteHostToVram.patient.done.safe

end FlashTier
