/-
Concurrent calls of `free_page` for one page. A page is released once and for all: no transfer takes it
afterwards, and once erased it never comes back. So among the calls of a run that is kept running one erases
the page and the others find it gone. A call whose release failed leaves the page released, with what could
not be given back, and the next call takes that.
-/
import FlashTier.Guarantees.Allocation
import FlashTier.Guarantees.Residency

namespace FlashTier

open Conc

variable {cfg : RuntimeConfig} {disk : Bytes} {c c₀ c' : Runtime} {σ σ' : Shared} {t s : Nat} {id : PageId}

/-! ## The life of a page in the history -/

theorem mem_allocIds_of_phase : ∀ {h : List Event}, Each EventOk h → phaseIn h id ≠ .absent → id ∈ allocIds h
  | [], _, hp => absurd rfl hp
  | e :: h, hok, hp => by
    have ih : phaseIn h id ≠ .absent → id ∈ allocIds h := mem_allocIds_of_phase hok.2
    cases e with
    | alloc t i n b x =>
      by_cases hi : i = id
      · rw [hi]
        exact List.mem_cons_self ..
      · rw [phaseIn, if_neg hi] at hp
        exact List.mem_cons_of_mem _ (ih hp)
    | release t i owned =>
      by_cases hi : i = id
      · subst hi
        exact ih hok.1.1
      · rw [phaseIn, if_neg hi] at hp
        exact ih hp
    | erase t i =>
      by_cases hi : i = id
      · rw [phaseIn, if_pos hi] at hp
        exact absurd rfl hp
      · rw [phaseIn, if_neg hi] at hp
        exact ih hp
    | _ => exact ih hp

/-- A page that is allocated and not live never becomes live again. -/
theorem not_live_append {h : List Event} (ha : id ∈ allocIds h) (hp : phaseIn h id ≠ .live) :
    ∀ {pre : List Event}, Each EventOk (pre ++ h) → phaseIn (pre ++ h) id ≠ .live
  | [], _ => hp
  | e :: pre, hok => by
    have ih := not_live_append ha hp hok.2
    cases e <;> simp only [List.cons_append, phaseIn]
    case alloc t i n b x =>
      have hne : i ≠ id := fun hi => hok.1 (hi ▸ mem_allocIds_append ha pre)
      rwa [if_neg hne]
    case release t i owned =>
      split
      · decide
      · exact ih
    case erase t i =>
      split
      · decide
      · exact ih
    all_goals exact ih

/-- A page that was erased stays away. -/
theorem absent_append {h : List Event} (ha : id ∈ allocIds h) (hp : phaseIn h id = .absent) :
    ∀ {pre : List Event}, Each EventOk (pre ++ h) → phaseIn (pre ++ h) id = .absent
  | [], _ => hp
  | e :: pre, hok => by
    have ih := absent_append ha hp hok.2
    cases e <;> simp only [List.cons_append, phaseIn]
    case alloc t i n b x =>
      have hne : i ≠ id := fun hi => hok.1 (hi ▸ mem_allocIds_append ha pre)
      rwa [if_neg hne]
    case release t i owned =>
      have hne : i ≠ id := fun hi => hok.1.1 (hi ▸ ih)
      rwa [if_neg hne]
    case erase t i =>
      split
      · rfl
      · exact ih
    all_goals exact ih

/-- After `free_page` has taken a page, no transfer takes it. -/
theorem no_claim_after {post before : List Event} {owned : List Resource}
    (hok : Each EventOk (post ++ .release t id owned :: before)) : .claim s id ∉ post := by
  intro hm
  obtain ⟨l, r, rfl⟩ := List.append_of_mem hm
  rw [List.append_assoc, List.cons_append] at hok
  have hclaim := Each.of_suffix hok
  have hok' := (Each.drop hok).2
  have hrel := Each.of_suffix hok'
  have ha : id ∈ allocIds before := mem_allocIds_of_phase (Each.drop hok').2 hrel.1
  exact not_live_append (h := .release t id owned :: before) ha (by rw [phaseIn, if_pos rfl]; decide) hok' hclaim

/-- After a page has been erased, no call takes it or erases it. -/
theorem nothing_after_erase {post before : List Event} (hok : Each EventOk (post ++ .erase t id :: before)) :
    ∀ e ∈ post, e.ends = true → e.page ≠ some id := by
  intro e hm he hpage
  obtain ⟨l, r, rfl⟩ := List.append_of_mem hm
  rw [List.append_assoc, List.cons_append] at hok
  have hev := Each.of_suffix hok
  have hok' := (Each.drop hok).2
  have herase := Each.of_suffix hok'
  have hrel : phaseIn before id ≠ .absent := by
    rw [show phaseIn before id = .released from herase]
    decide
  have ha : id ∈ allocIds before := mem_allocIds_of_phase (Each.drop hok').2 hrel
  have habs := absent_append (h := .erase t id :: before) ha (by rw [phaseIn, if_pos rfl]) hok'
  cases e with
  | release u i owned =>
    cases hpage
    exact hev.1 habs
  | erase u i =>
    cases hpage
    rw [show phaseIn (r ++ .erase t id :: before) id = .released from hev] at habs
    cases habs
  | _ => cases he

/-- A page is erased once. -/
theorem erase_unique {h : List Event} (hok : Each EventOk h) (ht : .erase t id ∈ h) (hs : .erase s id ∈ h) : t = s := by
  obtain ⟨post, before, rfl⟩ := List.append_of_mem ht
  have hafter := nothing_after_erase hok
  rcases List.mem_append.1 hs with hm | hm
  · exact absurd rfl (hafter _ hm rfl)
  rcases List.mem_cons.1 hm with heq | hm
  · cases heq
    rfl
  · -- the other one came first, so this one came after it
    obtain ⟨post', before', rfl⟩ := List.append_of_mem hm
    have hok' : Each EventOk ((post ++ .erase t id :: post') ++ .erase s id :: before') := by simpa using hok
    exact absurd rfl (nothing_after_erase hok' (.erase t id) (by simp) rfl)

/-- A page that was live and is missing later was erased in between. -/
theorem erased_between {h : List Event} (hp : phaseIn h id ≠ .absent) :
    ∀ {pre : List Event}, phaseIn (pre ++ h) id = .absent → ∃ t, .erase t id ∈ pre
  | [], ha => absurd ha hp
  | e :: pre, ha => by
    by_cases hpre : phaseIn (pre ++ h) id = .absent
    · obtain ⟨t, ht⟩ := erased_between hp hpre
      exact ⟨t, List.mem_cons_of_mem _ ht⟩
    · cases e <;> simp only [List.cons_append, phaseIn] at ha
      case alloc t i n b x =>
        split at ha
        · cases ha
        · exact absurd ha hpre
      case release t i owned =>
        split at ha
        · cases ha
        · exact absurd ha hpre
      case erase t i =>
        split at ha
        · rename_i hi
          exact ⟨t, hi ▸ List.mem_cons_self ..⟩
        · exact absurd ha hpre
      all_goals exact absurd ha hpre

/-! ## Runs that are kept running -/

/-- The page that a thread was started to free. -/
def Op.frees : Op → Option PageId
  | .free id => some id
  | _ => none

theorem Op.frees_some {l : Op} (h : l.frees = some id) : l = .free id := by
  cases l <;> cases h
  rfl

/-- The runtime is not stopped, and the sink takes the event with which `free_page` ends. -/
def Kept (c : Runtime) : Move Env Op → Prop
  | .spawn l => l.stops = false
  | .exec t ω => (c.labels[t]?.bind Op.frees).isSome → ω.emit = none

instance (c : Runtime) (m : Move Env Op) : Decidable (Kept c m) :=
  match m with
  | .spawn l => inferInstanceAs (Decidable (l.stops = false))
  | .exec t ω => inferInstanceAs (Decidable ((c.labels[t]?.bind Op.frees).isSome → ω.emit = none))

/-- The moves of such a run. -/
abbrev KeptRun (cfg : RuntimeConfig) (c c' : Runtime) : Prop := Steps (fun c m => c.move (code cfg) m) Kept c c'

/-- What is known of the answers, when the threads are those of `ls`. -/
def keptEnv (ls : List Op) (t : Nat) (ω : Env) (σ : Shared) : Prop :=
  (σ.running = true ∧ σ.stopping = false) ∧ ∀ id, ls[t]? = some (.free id) → ω.emit = none

theorem not_halting_kept {ls : List Op} : ¬Halting (keptEnv ls) t := by
  rintro ⟨ω, σ, ⟨⟨hrun, hstop⟩, -⟩, h | h⟩
  · rw [hrun] at h
    cases h
  · rw [hstop] at h
    cases h

theorem KeptRun.reached (h : KeptRun cfg ⟨cfg.initial disk, []⟩ c) :
    Reachable (fun m => m ≠ .spawn .shutdown) (code cfg) (cfg.initial disk) c := by
  refine h.invariant (P := Reachable (fun m => m ≠ .spawn .shutdown) (code cfg) (cfg.initial disk)) (fun c m c' ha hm hr => ?_) .start
  refine .move m ?_ hr hm
  rintro rfl
  cases ha

/-- The configuration is sound for any threads that are started later, where what thread `t` learns it learns
after `f t` was recorded. -/
def SoundFrom (cfg : RuntimeConfig) (f : Nat → List Event) (c : Runtime) : Prop :=
  ∀ ls, c.labels <+: ls → ∃ hs, Sound (logic (keptEnv ls) cfg) (fun t σ => Log t [] σ ∧ f t <:+ σ.history)
    (fun l t => EndsWell (keptEnv ls) (f t) l t) c hs

/-- The step lemma. -/
theorem SoundFrom.move {f : Nat → List Event} {m : Move Env Op} (h : SoundFrom cfg f c) (ha : Kept c m)
    (hrun : c.shared.running = true ∧ c.shared.stopping = false) (hm : c.move (code cfg) m = some c') : SoundFrom cfg f c' := by
  intro ls hls
  cases m with
  | spawn l =>
    cases hm
    have hlabels : Config.labels { c with threads := c.threads ++ [⟨l, code cfg l⟩] } = c.labels ++ [l] := by simp [Config.labels]
    rw [hlabels] at hls
    obtain ⟨hs, hsound⟩ := h ls ((List.prefix_append _ _).trans hls)
    exact ⟨_, hsound.spawn (fun σ T t hi => Inv.spawn hi t) fun t σ hn => code_wp l hn.1 hn.2⟩
  | exec t ω =>
    obtain ⟨l, β, g, act, k, ht, -, rfl⟩ := move_exec hm
    rw [labels_set ht] at hls
    obtain ⟨hs, hsound⟩ := h ls hls
    refine hsound.exec ?_ (fun l t σ σ' r h hr hq => hq.rely hr) ⟨hrun, fun id hid => ?_⟩ hm
    · rintro t σ σ' hr ⟨hl, hle⟩
      exact ⟨hl.rely hr, hle.trans (Rely.le hr)⟩
    · -- the label of the thread is the one it has in any longer list
      have hlab : c.labels[t]? = some l := by rw [Config.labels, List.getElem?_map, ht]; rfl
      obtain ⟨more, rfl⟩ := hls
      rw [List.getElem?_append_left (List.getElem?_eq_some_iff.1 hlab).1] at hid
      exact ha (by rw [hid]; rfl)

theorem KeptRun.running (h : KeptRun cfg ⟨cfg.initial disk, []⟩ c) : c.shared.running = true ∧ c.shared.stopping = false :=
  reachable_running (fun hne => hne rfl) h.reached

/-- The run lemma, from any configuration of the run on. -/
theorem SoundFrom.run {f : Nat → List Event} (h₀ : KeptRun cfg ⟨cfg.initial disk, []⟩ c₀) (h : KeptRun cfg c₀ c)
    (hs : SoundFrom cfg f c₀) : SoundFrom cfg f c := by
  have hall : KeptRun cfg ⟨cfg.initial disk, []⟩ c ∧ SoundFrom cfg f c :=
    h.invariant (P := fun c => KeptRun cfg ⟨cfg.initial disk, []⟩ c ∧ SoundFrom cfg f c)
      (fun c m c' ha hm hc => ⟨hc.1.tail ha hm, hc.2.move ha hc.1.running hm⟩) ⟨h₀, hs⟩
  exact hall.2

theorem KeptRun.sound (h : KeptRun cfg ⟨cfg.initial disk, []⟩ c) : SoundFrom cfg (fun _ => []) c := by
  refine SoundFrom.run (Steps.refl _) h fun ls _ => ⟨[], rfl, initial_inv cfg disk, fun t _ => ⟨rfl, List.suffix_refl _⟩, ?_⟩
  intro t th h ht
  simp at ht

/-- What is recorded before a thread learns anything, when those from `n` on start after `h₀`. -/
def since (n : Nat) (h₀ : List Event) (t : Nat) : List Event := if t < n then [] else h₀

/-- Threads started after a configuration learn what they learn after it. -/
theorem KeptRun.sound_since (h₀ : KeptRun cfg ⟨cfg.initial disk, []⟩ c₀) (h : KeptRun cfg c₀ c) :
    SoundFrom cfg (since c₀.threads.length c₀.shared.history) c := by
  refine SoundFrom.run h₀ h fun ls hls => ?_
  obtain ⟨hs, hsound⟩ := h₀.sound ls hls
  refine ⟨hs, hsound.length, hsound.inv, fun t ht => ⟨(hsound.fresh t ht).1, ?_⟩, fun t th hd ht hh => ?_⟩
  · rw [since, if_neg (Nat.not_lt.2 ht)]
  · rw [since, if_pos (List.getElem?_eq_some_iff.1 ht).1]
    exact hsound.safe t th hd ht hh

/-! ## How the calls end -/

theorem mem_of_log {L : List Event} {e : Event} (hl : Log t L σ) (he : e ∈ L) : e ∈ σ.history := by
  rw [← show mine t σ.history = L from hl] at he
  exact List.mem_of_mem_filter he

/-- A call of a kept run without failed releases erased the page and returned, or found it gone since it was
started, and threw. -/
theorem KeptRun.ended (h₀ : KeptRun cfg ⟨cfg.initial disk, []⟩ c₀) (h : KeptRun cfg c₀ c)
    (hf : ∀ e ∈ c.shared.history, e.releaseFailed = false) {r : Except Error Reply} (ht : c.threads[t]? = some ⟨.free id, .ret r⟩) :
    (∃ a owned, r = .ok a ∧ mine t c.shared.history = freeEvents t id owned) ∨
      r = .error (notFound id) ∧ mine t c.shared.history = [] ∧
        (c₀.threads.length ≤ t → ∃ h, c₀.shared.history <:+ h ∧ h <:+ c.shared.history ∧ phaseIn h id = .absent) := by
  obtain ⟨hs, hsound⟩ := h₀.sound_since h c.labels (List.prefix_refl _)
  have hlt : t < hs.length := by
    rw [hsound.length]
    exact (List.getElem?_eq_some_iff.1 ht).1
  have hends : EndsWell (keptEnv c.labels) (since c₀.threads.length c₀.shared.history t) (.free id) t c.shared r hs[t] :=
    hsound.safe t _ _ ht (List.getElem?_eq_getElem hlt)
  have hlab : c.labels[t]? = some (.free id) := by rw [Config.labels, List.getElem?_map, ht]; rfl
  obtain ⟨-, -, hends⟩ := hends
  cases r with
  | ok a =>
    obtain ⟨owned, hl⟩ := hends
    exact .inl ⟨a, owned, rfl, by rw [← List.append_nil (freeEvents t id owned)]; exact hl⟩
  | error e =>
    rcases hends with ⟨hl, ⟨rfl, h, hle, hle', habs⟩ | hhalt⟩ | ⟨evs, call, owned, hl, hcall, hm, -⟩ | ⟨⟨ω, σ, henv, hemit⟩, -⟩
    · refine .inr ⟨rfl, hl, fun hn => ⟨h, ?_, hle', habs⟩⟩
      rwa [since, if_neg (Nat.not_lt.2 hn)] at hle
    · exact absurd hhalt not_halting_kept
    · have := hf _ (mem_of_log hl (List.mem_append_left _ hm))
      rw [Event.releaseFailed, hcall] at this
      cases this
    · rw [henv.2 id hlab] at hemit
      cases hemit

/-! ## Where a call waits -/

/-- A program that waits for a page once at most, after it has asked whether the runtime is running. -/
inductive Waits (id : PageId) : Code Reply → Prop
  | ready {p : Code Reply} (h : p.Ready) : Waits id p
  | claim {a : Sec PageMetadata} {k : Except Error PageMetadata → Code Reply} (hk : ∀ r, (k r).Ready) :
      Waits id (.step (·.releasable id) a k)
  | check {k : Except Error Unit → Code Reply} (hk : ∀ r, Waits id (k r)) : Waits id (.step (fun _ => true) requireRunning k)

theorem ready_freeResource {r : Resource} {s : FreeStatus} {free clear : Sec Unit} {release : Option (Sec Unit)} :
    (freeResource r id s free clear release).Ready := by
  refine (Prog.ready_atomic _).andThen fun x => ?_
  cases x with
  | error e => trivial
  | ok u =>
    refine (Prog.ready_atomic _).andThen fun y => ?_
    cases release with
    | none => cases y <;> trivial
    | some release =>
      refine Prog.Ready.andThen (fun z => ?_) (Prog.ready_atomic _)
      cases z <;> trivial

theorem ready_freeVram {m : PageMetadata} {s : FreeStatus} : (freeVram cfg id m s).Ready := by
  unfold freeVram
  cases m.vramPtr with
  | none => trivial
  | some ptr => exact ready_freeResource

theorem ready_freeHost {m : PageMetadata} {s : FreeStatus} : (freeHost id m s).Ready := by
  unfold freeHost
  cases m.hostPtr with
  | none => trivial
  | some ptr => exact ready_freeResource

theorem ready_freeNvme {m : PageMetadata} {s : FreeStatus} : (freeNvme cfg id m s).Ready := by
  unfold freeNvme
  cases m.nvmeOffset with
  | none => trivial
  | some offset => exact ready_freeResource

theorem waits_free : Waits id (code cfg (.free id)) := by
  show Waits id (freePage cfg id >>= fun _ => pure .unit)
  unfold freePage
  rw [Prog.bind_bind]
  refine .check fun r => ?_
  cases r with
  | error e => exact .ready trivial
  | ok u =>
    show Waits id (_ >>= fun _ => pure .unit)
    rw [Prog.bind_bind]
    refine .claim fun r => ?_
    cases r with
    | error e => trivial
    | ok m =>
      -- the claim is the only section that is waited for
      show Prog.Ready ((_ : Code Unit) >>= fun _ => pure Reply.unit)
      refine Prog.Ready.bind ?_ fun _ => trivial
      refine (Prog.ready_atomic _).bind fun _ => ready_freeVram.bind fun _ => ready_freeHost.bind fun _ => ready_freeNvme.bind fun s =>
        (Prog.ready_atomic _).bind fun _ => (Prog.ready_atomic _).bind fun _ => ?_
      cases s.firstError with
      | some e => trivial
      | none => exact Prog.ready_atomic _

/-- A call that may have to wait has recorded nothing. -/
def WaitsAt (t : Nat) (id : PageId) (p : Code Reply) (h : List Event) : Prop := p.Ready ∨ mine t h = [] ∧ Waits id p

theorem waitsAt_reached (hr : Reached cfg disk c) :
    ∀ t l p, c.threads[t]? = some ⟨l, p⟩ → ∀ id, l = .free id → WaitsAt t id p c.shared.history := by
  induction hr with
  | start => exact fun t l p ht => by simp at ht
  | @move c c' m _ hr hm ih =>
    refine threads_move (P := fun c t l p => ∀ id, l = .free id → WaitsAt t id p c.shared.history) hm ?_ ?_ ?_ ih
    · rintro l rfl id rfl
      cases hm
      refine .inr ⟨List.filter_eq_nil_iff.2 fun e he => ?_, waits_free⟩
      -- a thread that is just started has recorded nothing
      obtain ⟨l, hl, -⟩ := reachable_records hr _ he
      have hlt := (List.getElem?_eq_some_iff.1 hl).1
      rw [Config.labels, List.length_map] at hlt
      simpa using hlt.ne
    · rintro t ω l β g a k rfl hs hσ hw id rfl
      rcases hw id rfl with hready | ⟨hmine, hw⟩
      · exact .inl (hready.2 _)
      · cases hw with
        | ready h => exact .inl (h.2 _)
        | claim hk => exact .inl (hk _)
        | check hk => exact .inr ⟨hσ ▸ hmine, hk _⟩
    · rintro t l p hne - hw id rfl
      rcases hw id rfl with hready | ⟨hmine, hw⟩
      · exact .inl hready
      refine .inr ⟨?_, hw⟩
      cases m with
      | spawn l =>
        cases hm
        exact hmine
      | exec s ω =>
        obtain ⟨_, _, ⟨evs, hh, hevs⟩, -⟩ := noted_move hr hm
        have hst : s ≠ t := by
          rintro rfl
          exact hne ω rfl
        rw [hh, mine_append_other (fun e he => (hevs e he).1 ▸ hst)]
        exact hmine

/-- A page that `free_page` has to wait for is one that a running thread has taken. -/
theorem owner_of_not_releasable (hr : Reached cfg disk c) (hf : ∀ e ∈ c.shared.history, e.releaseFailed = false)
    (hw : c.shared.releasable id = false) : ∃ s, ownersIn c.shared.history id = [s] ∧ c.Running s := by
  obtain ⟨hs, hacc⟩ := reached_accounted hr
  have hi : Inv cfg c.shared (tagged hs) := hacc.inv
  unfold Shared.releasable at hw
  cases hl : c.shared.table.lookup id with
  | none =>
    rw [hl] at hw
    cases hw
  | some p =>
    obtain ⟨hp, rfl⟩ := Keyed.lookup_some.1 hl
    suffices hfl : p.inFlight = true from (hacc.owner hf hp hfl).2
    by_contra hfl
    have hrest := ((hi.pages p hp).ok (by simpa using hfl)).rest
    simp [hl, hrest, hfl] at hw

/-- Whoever has taken a page has recorded it. -/
theorem mine_of_mem_ownersIn : ∀ {h : List Event}, s ∈ ownersIn h id → mine s h ≠ []
  | e :: h, hs => by
    have hcons : mine s h ≠ [] → mine s (e :: h) ≠ [] := fun hne heq => by
      rw [mine, List.filter_cons] at heq
      split at heq
      · cases heq
      · exact hne heq
    have hown : e.thread = s → mine s (e :: h) ≠ [] := fun he => by simp [mine, he]
    cases e with
    | alloc t i n b x =>
      by_cases hi : i = id
      · simp [ownersIn, hi] at hs
      · exact hcons (mine_of_mem_ownersIn (by simpa [ownersIn, hi] using hs))
    | claim t i | release t i owned =>
      by_cases hi : i = id
      · rw [ownersIn, if_pos hi] at hs
        rcases List.mem_cons.1 hs with rfl | hs
        · exact hown rfl
        · exact hcons (mine_of_mem_ownersIn hs)
      · exact hcons (mine_of_mem_ownersIn (by simpa [ownersIn, hi] using hs))
    | settle t i st f =>
      by_cases hi : i = id
      · rw [ownersIn, if_pos hi] at hs
        exact hcons (mine_of_mem_ownersIn (List.mem_of_mem_erase hs))
      · exact hcons (mine_of_mem_ownersIn (by simpa [ownersIn, hi] using hs))
    | _ => exact hcons (mine_of_mem_ownersIn hs)

/-- A call that has not ended may go on, or another thread that is still running has taken the page. -/
theorem free_goes_on (hr : Reached cfg disk c) (hf : ∀ e ∈ c.shared.history, e.releaseFailed = false) {p : Code Reply}
    (ht : c.threads[t]? = some ⟨.free id, p⟩) :
    (∃ r, p = .ret r) ∨ (∀ ω, (c.move (code cfg) (.exec t ω)).isSome) ∨
      ∃ s, s ≠ t ∧ ownersIn c.shared.history id = [s] ∧ c.Running s := by
  cases p with
  | ret r => exact .inl ⟨r, rfl⟩
  | @step β g a k =>
    refine .inr ?_
    have hgo : g c.shared = true → ∀ ω, (c.move (code cfg) (.exec t ω)).isSome := fun hg ω => by
      simp [Config.move, ht, hg]
    rcases waitsAt_reached hr t _ _ ht id rfl with hready | ⟨hmine, hw⟩
    · exact .inl (hgo (hready.1 _))
    · cases hw with
      | ready h => exact .inl (hgo (h.1 _))
      | check hk => exact .inl (hgo rfl)
      | claim hk =>
        by_cases hg : c.shared.releasable id = true
        · exact .inl (hgo hg)
        · obtain ⟨s, hs, hrun⟩ := owner_of_not_releasable hr hf (by simpa using hg)
          refine .inr ⟨s, ?_, hs, hrun⟩
          rintro rfl
          exact mine_of_mem_ownersIn (hs ▸ List.mem_singleton_self s) hmine

/-! ## What is released -/

/-- The resource of the page is given back. -/
def Event.frees (id : PageId) (r : Resource) : Event → Bool
  | .freed _ i x => i == id && x == r
  | _ => false

/-- The bytes of the resource are subtracted from its budget. -/
def Event.refunds (id : PageId) (r : Resource) : Event → Bool
  | .refunded _ i x => i == id && x == r
  | _ => false

theorem countP_frees_freeEvents {owned : List Resource} (r : Resource) :
    (freeEvents t id owned).countP (Event.frees id r) = if r ∈ owned then 1 else 0 := by
  cases r <;> simp only [freeEvents, stepEvents, List.countP_append, apply_ite (List.countP _), List.countP_cons, List.countP_nil,
    releaseEvents, Event.frees] <;> simp

theorem countP_refunds_freeEvents {owned : List Resource} (r : Resource) :
    (freeEvents t id owned).countP (Event.refunds id r) = if r ∈ owned then 1 else 0 := by
  cases r <;> simp only [freeEvents, stepEvents, List.countP_append, apply_ite (List.countP _), List.countP_cons, List.countP_nil,
    releaseEvents, Event.refunds] <;> simp

/-- Events that only one thread recorded are counted in what it recorded. -/
theorem countP_mine {h : List Event} {P : Event → Bool} (honly : ∀ e ∈ h, P e = true → e.thread = t) : h.countP P = (mine t h).countP P := by
  rw [mine, List.countP_filter]
  refine List.countP_congr fun e he => ?_
  simp only [Bool.and_eq_true, decide_eq_true_eq]
  exact ⟨fun hp => ⟨hp, honly e he hp⟩, And.left⟩

/-- Nothing is released of a page before `free_page` takes it, and what it still has to release was not released:
so nothing is released twice. -/
structure ReleasedOnce (h : List Event) (id : PageId) (r : Resource) : Prop where
  fresh : phaseIn h id = .live ∨ id ∉ allocIds h → heldIn h id = [] ∧ h.countP (Event.frees id r) = 0
  held : r ∈ heldIn h id → h.countP (Event.frees id r) = 0
  once : h.countP (Event.frees id r) ≤ 1

/-- An event that does not concern the release of the page. -/
theorem ReleasedOnce.cons {h : List Event} {e : Event} {r : Resource} (ho : ReleasedOnce h id r) (hp : phaseIn (e :: h) id = phaseIn h id)
    (hh : heldIn (e :: h) id = heldIn h id) (hc : e.frees id r = false) : ReleasedOnce (e :: h) id r := by
  have hcount : (e :: h).countP (Event.frees id r) = h.countP (Event.frees id r) := List.countP_cons_of_neg (by simp [hc])
  constructor
  · rw [hp, hh, hcount]
    rintro (hlive | hnew)
    · exact ho.fresh (.inl hlive)
    · exact ho.fresh (.inr fun hm => hnew (mem_allocIds_append hm [e]))
  · rw [hh, hcount]
    exact ho.held
  · rw [hcount]
    exact ho.once

theorem releasedOnce (r : Resource) : ∀ {h : List Event}, Each EventOk h → ReleasedOnce h id r
  | [], _ => ⟨fun _ => ⟨rfl, rfl⟩, fun _ => rfl, by simp⟩
  | e :: h, hok => by
    have ih := releasedOnce r hok.2
    have halloc : phaseIn h id ≠ .absent → id ∈ allocIds h := mem_allocIds_of_phase hok.2
    cases e with
    | alloc t i n b x =>
      by_cases hi : i = id
      · -- the page is new
        subst hi
        obtain ⟨hheld, hcount⟩ := ih.fresh (.inr hok.1)
        have hcount' : (Event.alloc t i n b x :: h).countP (Event.frees i r) = 0 := by simpa [Event.frees] using hcount
        exact ⟨fun _ => ⟨hheld, hcount'⟩, fun _ => hcount', by omega⟩
      · exact ih.cons (if_neg hi) rfl rfl
    | release t i owned =>
      by_cases hi : i = id
      · subst hi
        have hcons : (Event.release t i owned :: h).countP (Event.frees i r) = h.countP (Event.frees i r) := by
          simp [Event.frees]
        refine ⟨?_, fun hm => ?_, hcons.trans_le ih.once⟩
        · rintro (hlive | hnew)
          · simp [phaseIn] at hlive
          · exact absurd (halloc hok.1.1) hnew
        · -- taken for the first time, or with what was left
          rw [heldIn, if_pos rfl] at hm
          rw [hcons]
          cases hp : phaseIn h i with
          | absent => exact absurd hp hok.1.1
          | live => exact (ih.fresh (.inl hp)).2
          | released => exact ih.held ((hok.1.2.1 hp r).1 hm)
      · exact ih.cons (if_neg hi) (if_neg hi) rfl
    | freed t i x =>
      by_cases hi : i = id
      · subst hi
        have hx : x ∈ heldIn h i := hok.1
        refine ⟨fun hnew => ?_, fun hm => ?_, ?_⟩
        · have hold : phaseIn h i = .live ∨ i ∉ allocIds h := hnew
          rw [(ih.fresh hold).1] at hx
          exact absurd hx List.not_mem_nil
        · rw [heldIn, if_pos rfl, List.mem_filter, decide_eq_true_eq] at hm
          simpa [Event.frees, hm.2.symm] using ih.held hm.1
        · by_cases hxr : x = r
          · have hzero := ih.held (hxr ▸ hx)
            simp [Event.frees, hxr, hzero]
          · simpa [Event.frees, hxr] using ih.once
      · exact ih.cons rfl (if_neg hi) (by simp [Event.frees, hi])
    | erase t i =>
      by_cases hi : i = id
      · subst hi
        have hp : phaseIn h i = .released := hok.1
        have hcons : (Event.erase t i :: h).countP (Event.frees i r) = h.countP (Event.frees i r) := by simp [Event.frees]
        refine ⟨?_, fun hm => hcons.trans (ih.held hm), hcons.trans_le ih.once⟩
        rintro (hlive | hnew)
        · simp [phaseIn] at hlive
        · exact absurd (halloc (by rw [hp]; simp)) hnew
      · exact ih.cons (if_neg hi) rfl rfl
    | _ => exact ih.cons rfl rfl rfl

/-! ## One winner -/

theorem free_of_frees {e : Event} {r : Resource} {l : Op} (he : e.frees id r = true ∨ e.refunds id r = true)
    (hl : l.records e = true) : l = .free id := by
  cases e <;> simp only [Event.frees, Event.refunds, Bool.false_eq_true, or_self, or_false, false_or, Bool.and_eq_true, beq_iff_eq] at he
  all_goals
    cases l <;> simp only [Op.records, Bool.false_eq_true, beq_iff_eq] at hl
    rw [hl, he.1]

theorem free_of_erases {l : Op} (hl : l.records (.erase t id) = true) : l = .free id := by
  cases l <;> simp only [Op.records, Bool.false_eq_true, beq_iff_eq] at hl
  rw [hl]

/-- Only calls of `free_page` for a page release what it has. -/
theorem free_of_records {e : Event} (hr : Reached cfg disk c) (he : e ∈ c.shared.history)
    (hrec : ∀ l : Op, l.records e = true → l = .free id) : ∃ p, c.threads[e.thread]? = some ⟨.free id, p⟩ := by
  obtain ⟨l, hl, hle⟩ := reachable_records hr e he
  rw [Config.labels, List.getElem?_map] at hl
  obtain ⟨⟨l', p⟩, ht, rfl⟩ := Option.map_eq_some_iff.1 hl
  exact ⟨p, by rw [ht, ← hrec l' hle]⟩

theorem phase_of_lookup {p : PageMetadata} (hr : Reached cfg disk c) (hl : c.shared.table.lookup id = some p) :
    phaseIn c.shared.history id ≠ .absent := by
  obtain ⟨T, hi⟩ := reachable_inv hr
  obtain ⟨hp, rfl⟩ := Keyed.lookup_some.1 hl
  rw [(hi.record hp).phase]
  cases hs : p.state <;> simp [PageState.phase]

/-- The call `t` released what the page owned and returned, and every other call threw. -/
structure Winner (c : Runtime) (id : PageId) (t : Nat) (owned : List Resource) : Prop where
  returned : ∃ a, c.threads[t]? = some ⟨.free id, .ret (.ok a)⟩
  took : .release t id owned ∈ c.shared.history
  others : ∀ s r, s ≠ t → c.threads[s]? = some ⟨.free id, .ret r⟩ → r = .error (notFound id)
  released : ∀ r, c.shared.history.countP (Event.frees id r) = if r ∈ owned then 1 else 0
  refunded : ∀ r, c.shared.history.countP (Event.refunds id r) = if r ∈ owned then 1 else 0

theorem mem_freeEvents_erase {owned : List Resource} : .erase t id ∈ freeEvents t id owned := by simp [freeEvents]

theorem mem_freeEvents_release {owned : List Resource} : .release t id owned ∈ freeEvents t id owned := by simp [freeEvents]

/-- A call that returned is the only one that erased the page. -/
theorem KeptRun.winner (h₀ : KeptRun cfg ⟨cfg.initial disk, []⟩ c₀) (h : KeptRun cfg c₀ c)
    (hf : ∀ e ∈ c.shared.history, e.releaseFailed = false)
    (hended : ∀ (t : Nat) (p : Code Reply), c.threads[t]? = some ⟨.free id, p⟩ → ∃ r, p = .ret r) {owned : List Resource} {a : Reply}
    (ht : c.threads[t]? = some ⟨.free id, .ret (.ok a)⟩) (hm : mine t c.shared.history = freeEvents t id owned) :
    Winner c id t owned := by
  have hr : Reached cfg disk c := reached_of_steps (h₀.trans h)
  obtain ⟨T, hi⟩ := reachable_inv hr
  have hmem : ∀ e ∈ freeEvents t id owned, e ∈ c.shared.history := fun e he => mem_of_log hm he
  -- another call recorded nothing
  have hothers : ∀ s r, s ≠ t → c.threads[s]? = some ⟨.free id, .ret r⟩ → r = .error (notFound id) ∧ mine s c.shared.history = [] := by
    intro s r hst hs
    rcases h₀.ended h hf hs with ⟨a', owned', -, hs'⟩ | ⟨hr', hs', -⟩
    · have herase : .erase s id ∈ c.shared.history := mem_of_log hs' mem_freeEvents_erase
      exact absurd (erase_unique hi.wf.events herase (hmem _ mem_freeEvents_erase)) hst
    · exact ⟨hr', hs'⟩
  have honly : ∀ e ∈ c.shared.history, (∀ l : Op, l.records e = true → l = .free id) → e.thread = t := by
    intro e he hrec
    obtain ⟨p, hs⟩ := free_of_records hr he hrec
    by_contra hst
    obtain ⟨r, rfl⟩ := hended _ _ hs
    have hmine := (hothers _ r hst hs).2
    exact absurd (mem_mine.2 ⟨he, rfl⟩) (hmine ▸ List.not_mem_nil)
  refine ⟨⟨a, ht⟩, hmem _ mem_freeEvents_release, fun s r hst hs => (hothers s r hst hs).1, fun r => ?_, fun r => ?_⟩
  · rw [countP_mine (fun e he hp => honly e he fun l => free_of_frees (.inl hp)), hm, countP_frees_freeEvents]
  · rw [countP_mine (fun e he hp => honly e he fun l => free_of_frees (.inr hp)), hm, countP_refunds_freeEvents]

/-- What a failed release leaves to the next call: the call throws and leaves the page released; what a released
page owns is what was not given back, the next call takes that, and nothing else is given back. -/
structure Resumable (c : Runtime) (id : PageId) : Prop where
  threw : ∀ t r call, c.threads[t]? = some ⟨.free id, .ret r⟩ → .failed t call ∈ c.shared.history → call.release = true →
    (∃ e, r = .error e) ∧ .settle t id .released false ∈ c.shared.history
  left : ∀ p, c.shared.table.lookup id = some p → p.state = .released → p.inFlight = false →
    ∀ r, r ∈ p.owned ↔ r ∈ heldIn c.shared.history id
  taken : ∀ post t owned before, c.shared.history = post ++ .release t id owned :: before → phaseIn before id = .released →
    ∀ r, r ∈ owned ↔ r ∈ heldIn before id
  freed : ∀ post t r before, c.shared.history = post ++ .freed t id r :: before → r ∈ heldIn before id
  once : ∀ r, c.shared.history.countP (Event.frees id r) ≤ 1

theorem no_failed_freeEvents {owned : List Resource} {call : Call} : .failed t call ∉ freeEvents t id owned := by
  have hstep : ∀ r, .failed t call ∉ stepEvents t id owned r := fun r => by
    unfold stepEvents
    split
    · cases r <;> simp [releaseEvents]
    · exact List.not_mem_nil
  simp [freeEvents, hstep]

theorem resumable (hr : Reached cfg disk c) (id : PageId) : Resumable c id := by
  obtain ⟨hs, hacc⟩ := reached_accounted hr
  have hi : Inv cfg c.shared (tagged hs) := hacc.inv
  refine ⟨fun t r call ht hfail hcall => ?_, fun p hl hst hfl r => ?_, fun post t owned before he hp => ?_, fun post t r before he => ?_,
    fun r => (releasedOnce r hi.wf.events).once⟩
  · obtain ⟨hd, -, hends⟩ := hacc.ended ht
    obtain ⟨-, -, hends⟩ := hends
    have hmine : .failed t call ∈ mine t c.shared.history := mem_mine.2 ⟨hfail, rfl⟩
    have hno : ∀ owned, ¬Log t (freeEvents t id owned ++ []) c.shared := fun owned hl => by
      rw [show mine t c.shared.history = _ from hl, List.append_nil] at hmine
      exact no_failed_freeEvents hmine
    cases r with
    | ok a =>
      obtain ⟨owned, hl⟩ := hends
      exact absurd hl (hno owned)
    | error e =>
      refine ⟨⟨e, rfl⟩, ?_⟩
      rcases hends with ⟨hl, -⟩ | ⟨evs, call', owned, hl, -, -, hsettle⟩ | ⟨-, owned, hl⟩
      · rw [show mine t c.shared.history = [] from hl] at hmine
        exact absurd hmine List.not_mem_nil
      · exact mem_of_log hl (List.mem_append_left _ hsettle)
      · exact absurd hl (hno owned)
  · obtain ⟨hp, rfl⟩ := Keyed.lookup_some.1 hl
    have hok := (hi.pages p hp).ok hfl
    exact (hok.held hst).owned hok.record.form r
  · have hev : Each EventOk (post ++ .release t id owned :: before) := he ▸ hi.wf.events
    exact (Each.of_suffix hev).2.1 hp
  · have hev : Each EventOk (post ++ .freed t id r :: before) := he ▸ hi.wf.events
    exact Each.of_suffix hev

/-- In every run, what a call of `free_page` could not give back is left to the next one, and no transfer step
starts on a page that was taken to be released. While the runtime is kept running, the sink takes the last event of
`free_page` and no release fails, a call that has not ended may go on unless a running thread has taken the page;
and once all calls for a page that was in the table when one of them was started have ended, one of them has returned, after
it released all that the page owned once, and the others threw that there is no such page. -/
theorem free_page_one_winner (hr : Reached cfg disk c) (id : PageId) :
    Resumable c id ∧ (∀ post t owned before, c.shared.history = post ++ .release t id owned :: before → ∀ s, .claim s id ∉ post) ∧
    ∀ c₀ : Runtime, KeptRun cfg ⟨cfg.initial disk, []⟩ c₀ → KeptRun cfg c₀ c → (∀ e ∈ c.shared.history, e.releaseFailed = false) →
      (c₀.shared.table.lookup id).isSome →
      (∃ t, c₀.threads.length ≤ t ∧ c.labels[t]? = some (.free id)) →
      (∀ (t : Nat) (p : Code Reply), c.threads[t]? = some ⟨.free id, p⟩ → (∃ r, p = .ret r) ∨ (∀ ω, (c.move (code cfg) (.exec t ω)).isSome) ∨
        ∃ s, s ≠ t ∧ ownersIn c.shared.history id = [s] ∧ c.Running s) ∧
      ((∀ (t : Nat) (p : Code Reply), c.threads[t]? = some ⟨.free id, p⟩ → ∃ r, p = .ret r) → ∃ t owned, Winner c id t owned) := by
  obtain ⟨T, hi⟩ := reachable_inv hr
  refine ⟨resumable hr id, fun post t owned before he s => ?_, ?_⟩
  · have hev : Each EventOk (post ++ .release t id owned :: before) := he ▸ hi.wf.events
    exact no_claim_after hev
  intro c₀ h₀ h hf hlive hcall
  refine ⟨fun t p ht => free_goes_on hr hf ht, fun hended => ?_⟩
  obtain ⟨p, hl⟩ := Option.isSome_iff_exists.1 hlive
  obtain ⟨t, hlt, hlab⟩ := hcall
  rw [Config.labels, List.getElem?_map] at hlab
  obtain ⟨⟨l, q⟩, ht, rfl⟩ := Option.map_eq_some_iff.1 hlab
  obtain ⟨r, rfl⟩ := hended t q ht
  rcases h₀.ended h hf ht with ⟨a, owned, rfl, hm⟩ | ⟨-, -, hgone⟩
  · exact ⟨t, owned, h₀.winner h hf hended ht hm⟩
  · -- the page was there when the call was started, so a call has erased it since
    obtain ⟨_, ⟨pre, rfl⟩, hle, habs⟩ := hgone hlt
    obtain ⟨w, hw⟩ := erased_between (phase_of_lookup (reached_of_steps h₀) hl) habs
    have hmem : .erase w id ∈ c.shared.history := hle.subset (List.mem_append_left _ hw)
    obtain ⟨q, hwt⟩ := free_of_records hr hmem fun l => free_of_erases
    obtain ⟨r, rfl⟩ := hended _ q hwt
    rcases h₀.ended h hf hwt with ⟨a, owned, rfl, hm⟩ | ⟨-, hm, -⟩
    · exact ⟨w, owned, h₀.winner h hf hended hwt hm⟩
    · exact absurd (mem_mine.2 ⟨hmem, rfl⟩) (hm ▸ List.not_mem_nil)

/-- Two calls for one page: the first takes it while the second waits. -/
def twoFrees : List (Move Env Op) :=
  .spawn (.free 1) :: .spawn (.free 1) :: turns 1 2 ++ turns 2 1 ++ turns 1 6 ++ turns 2 1

theorem free_page_one_winner_two : ∃ c, Reached (smallConfig 0 1 1) (fun _ => 0) c ∧
    c.labels.map Op.frees = [none, some 1, some 1] ∧ ∃ t owned, Winner c 1 t owned := by
  obtain ⟨c₀, h₀, hpage, hrun⟩ := Steps.of_test (fun c m => c.move (code (smallConfig 0 1 1)) m) Kept
    ⟨(smallConfig 0 1 1).initial fun _ => 0, []⟩ (.spawn (.allocate { logicalBytes := 10 }) :: turns 0 6)
    (fun c₀ => ((c₀.shared.table.lookup 1).isSome ∧ c₀.labels.length = 1) ∧
      (Steps.run (fun c m => c.move (code (smallConfig 0 1 1)) m) Kept c₀ twoFrees).any fun c => decide
        ((∀ e ∈ c.shared.history, e.releaseFailed = false) ∧ c.labels.map Op.frees = [none, some 1, some 1] ∧ c.Quiet))
    (by decide +kernel)
  obtain ⟨c, hc, hp⟩ := (Option.any_eq_true _ _).1 hrun
  obtain ⟨hf, hlabels, hquiet⟩ := of_decide_eq_true hp
  have h : KeptRun (smallConfig 0 1 1) c₀ c := Steps.of_run hc
  have hr : Reached (smallConfig 0 1 1) (fun _ => 0) c := reached_of_steps (h₀.trans h)
  have hfirst : c.labels[1]? = some (.free 1) := by
    have hmap : (c.labels.map Op.frees)[1]? = some (some 1) := by rw [hlabels]; rfl
    rw [List.getElem?_map] at hmap
    obtain ⟨l, hl, hl'⟩ := Option.map_eq_some_iff.1 hmap
    rw [hl, Op.frees_some hl']
  refine ⟨c, hr, hlabels, ((free_page_one_winner hr 1).2.2 c₀ h₀ h hf hpage.1 ⟨1, ?_, hfirst⟩).2 fun t p ht => ?_⟩
  · rw [← List.length_map (f := Thread.label)]
    exact hpage.2.le
  · exact hquiet _ (List.mem_of_getElem? ht)

/-- The sink fails at the event of a page that is released: no call returns. -/
theorem free_page_no_winner : ∃ c, Reached (smallConfig 0 1 1) (fun _ => 0) c ∧ (∀ e ∈ c.shared.history, e.callFailed = false) ∧
    c.labels = [.allocate { logicalBytes := 10 }, .free 1] ∧ c.shared.running = true ∧ c.shared.table.lookup 1 = none ∧
      c.result 1 = some (.error ⟨.io, "failed to write JSONL telemetry", ""⟩) := by
  obtain ⟨c, hr, hlabels, h⟩ := reached_of_run (smallConfig 0 1 1) (fun _ => 0)
    (.spawn (.allocate { logicalBytes := 10 }) :: turns 0 6 ++ .spawn (.free 1) :: turns 1 7 ++
      [.exec 1 { emit := some ⟨.io, "failed to write JSONL telemetry", ""⟩ }])
    (fun c => (∀ e ∈ c.shared.history, e.callFailed = false) ∧ c.shared.running = true ∧ (c.shared.table.lookup 1).isNone ∧
      c.result 1 = some (.error ⟨.io, "failed to write JSONL telemetry", ""⟩)) (by decide +kernel)
  exact ⟨c, hr, h.1, hlabels, h.2.1, by simpa using h.2.2.1, h.2.2.2⟩

end FlashTier
