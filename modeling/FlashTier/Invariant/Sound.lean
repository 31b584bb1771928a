/-
The runtime as a whole: the invariant holds when `start` returns, every operation is safe, and so every
reachable configuration is sound. `EndsWell` is what is known of a thread that has ended.
-/
import FlashTier.Invariant.Access

namespace FlashTier

open Conc

variable {env : Nat → Env → Shared → Prop} {cfg : RuntimeConfig} {σ σ' : Shared} {t : Nat} {id : PageId} {ids : Multiset PageId} {α : Type}
  {L h₀ : List Event}

/-! ## The start -/

theorem initial_inv (cfg : RuntimeConfig) (disk : Bytes) : Inv cfg (cfg.initial disk) 0 := by
  have hio : (Extents.fresh cfg.pageSize cfg.extentCount).ioBag = 0 := by
    ext i
    rw [Extents.count_ioBag]
    exact ite_self 0
  have hids : spareIds (cfg.initial disk) = 0 := by
    unfold spareIds
    rw [show (cfg.initial disk).nextPageId - (cfg.initial disk).firstId = 0 from Nat.sub_self _]
    rfl
  refine ⟨?_, rfl, fun p hp => absurd hp (Multiset.notMem_zero p), fun x hx => absurd hx (Multiset.notMem_zero x), ?_⟩
  · have hrest : rest cfg (cfg.initial disk) none 0 = 0 := rfl
    rw [hrest, add_zero, Res.ext_iff']
    exact ⟨rfl, rfl, rfl, rfl, Extents.usedBag_fresh _ _, hio, hids⟩
  · have hn : cfg.nvmeLimit ≤ (cfg.extentCount + 1) * cfg.pageSize := Nat.mul_le_mul_right _ (Nat.le_succ _)
    have hlt := cfg.store_lt
    refine ⟨⟨cfg.vram_lt, Nat.zero_le _⟩, ⟨rfl, rfl⟩, ⟨?_, Nat.zero_le _⟩, ⟨rfl, rfl⟩, ⟨rfl, rfl⟩, rfl, Nat.zero_le _,
      Extents.fresh_ok cfg.page_pos cfg.store_lt, ⟨rfl, rfl⟩, ⟨rfl, le_rfl, cfg.first_ok.2⟩, fun i hi => (List.not_mem_nil hi).elim,
      fun i hi => absurd rfl hi, trivial⟩
    show cfg.nvmeLimit < 2 ^ 64
    omega

/-- A thread is started with nothing. -/
theorem Inv.spawn {T : Multiset (Nat × Hold)} (hi : Inv cfg σ T) (t : Nat) : Inv cfg σ ((t, {}) ::ₘ T) :=
  Open.leave hi rfl rfl trivial

/-! ## How threads end -/

/-- Whether a reply came, without what it was. -/
def outcome (r : Except Error Reply) : Except Error Unit :=
  match r with
  | .ok _ => .ok ()
  | .error e => .error e

/-- How a thread started for an operation ends, when the history was at least `h₀` at its start. -/
def EndsWell (env : Nat → Env → Shared → Prop) (h₀ : List Event) (l : Op) (t : Nat) (σ : Shared) (r : Except Error Reply) (h : Hold) : Prop :=
  Rests t σ h ∧ match l with
  | .allocate _ => ∀ id, r = .ok (.page id) → Created t id σ.history
  | .read id _ => ∀ b, r = .ok (.bytes b) → .read t id b ∈ σ.history
  | .free id => FreeEnds env t 0 id h₀ [] σ (outcome r) h
  | .transfer _ id => TransferEnds t 0 id (· = id) [] σ (outcome r) h
  | _ => True

theorem FreeEnds.rests {r : Except Error Unit} {h : Hold} (hf : FreeEnds env t ids id h₀ L σ r h) : Rests t σ h :=
  .inl (by rw [hf.1])

theorem FreeEnds.rely {r : Except Error Unit} {h : Hold} (hr : Rely t σ σ') (hf : FreeEnds env t ids id h₀ L σ r h) :
    FreeEnds env t ids id h₀ L σ' r h := by
  obtain ⟨hh, hf⟩ := hf
  have hle : σ.history <:+ σ'.history := hr.le
  refine ⟨hh, ?_⟩
  cases r with
  | ok _ =>
    obtain ⟨owned, hl⟩ := hf
    exact ⟨owned, hl.rely hr⟩
  | error e =>
    rcases hf with ⟨hl, he⟩ | ⟨evs, c, owned, hl, hq⟩ | ⟨hω, owned, hl⟩
    · exact .inl ⟨hl.rely hr, he.imp_left fun ⟨he, h, h1, h2, h3⟩ => ⟨he, h, h1, h2.trans hle, h3⟩⟩
    · exact .inr (.inl ⟨evs, c, owned, hl.rely hr, hq⟩)
    · exact .inr (.inr ⟨hω, owned, hl.rely hr⟩)

/-- The moment a page was missing is also one since an earlier start. -/
theorem FreeEnds.since {h₁ : List Event} {r : Except Error Unit} {h : Hold} (hle : h₀ <:+ h₁) (hf : FreeEnds env t ids id h₁ L σ r h) :
    FreeEnds env t ids id h₀ L σ r h := by
  obtain ⟨hh, hf⟩ := hf
  refine ⟨hh, ?_⟩
  cases r with
  | ok _ => exact hf
  | error e =>
    refine hf.imp_left fun ⟨hl, he⟩ => ⟨hl, he.imp_left fun ⟨he, h, h1, h2⟩ => ⟨he, h, hle.trans h1, h2⟩⟩

theorem TransferEnds.rests {K : PageId → Prop} {r : Except Error Unit} {h : Hold} (he : TransferEnds t ids id K L σ r h) : Rests t σ h :=
  (show Post t ids (fun _ => False) L (Idle ids fun _ _ => True) σ r h from he.post (fun _ hf => hf.elim) not_false).2.rests

theorem TransferEnds.mono {K K' : PageId → Prop} {r : Except Error Unit} {h : Hold} (hK : ∀ i, K' i → K i)
    (he : TransferEnds t ids id K L σ r h) : TransferEnds t ids id K' L σ r h := by
  have hmono : ∀ e, Spares K e → Spares K' e := fun e hs u i hc hk => hs u i hc (hK i hk)
  rcases he with ⟨⟨evs, hl, he⟩, hq⟩ | ⟨a, b, hl, hb, ho⟩
  · exact .inl ⟨⟨evs, hl, fun e hm => hmono e (he e hm)⟩, hq⟩
  · exact .inr ⟨a, b, hl, fun e hm => hmono e (hb e hm), ho⟩

theorem TransferEnds.rely {K : PageId → Prop} {r : Except Error Unit} {h : Hold} (hr : Rely t σ σ')
    (he : TransferEnds t ids id K L σ r h) : TransferEnds t ids id K L σ' r h := by
  have hle : σ.history <:+ σ'.history := hr.le
  rcases he with ⟨⟨evs, hl, he⟩, hq⟩ | ⟨a, b, hl, hb, ho⟩
  · refine .inl ⟨⟨evs, hl.rely hr, he⟩, ?_⟩
    cases r with
    | ok _ => exact hq
    | error e => exact hq.imp_right fun hs => hs.later hle
  · exact .inr ⟨a, b, hl.rely hr, hb, ho⟩

theorem EndsWell.rely {l : Op} {r : Except Error Reply} {h : Hold} (hr : Rely t σ σ') (he : EndsWell env h₀ l t σ r h) :
    EndsWell env h₀ l t σ' r h := by
  have hle : σ.history <:+ σ'.history := hr.le
  refine ⟨he.1.later hle, ?_⟩
  cases l with
  | allocate a => exact fun id hid => (he.2 id hid).mono hle.subset
  | read id out => exact fun b hb => hle.subset (he.2 b hb)
  | free id => exact FreeEnds.rely hr he.2
  | transfer kind id => exact TransferEnds.rely hr he.2
  | _ => trivial

/-! ## Every operation -/

theorem wp_done {p : Code Unit} {h : Hold} {Q : Shared → Except Error Unit → Hold → Prop} (hp : wp (logic env cfg) t p σ h Q) :
    wp (logic env cfg) t (done p) σ h fun σ' r h' => Q σ' (outcome r) h' :=
  wp_bind hp (fun _ _ _ _ hq => hq) fun _ _ _ _ hq => hq

theorem Plain.done {p : Code Unit} {F : Shared → Unit → Prop} (hp : Plain env cfg t ids p σ F) :
    wp (logic env cfg) t (done p) σ ⟨.idle, ids⟩ fun σ' _ h' => Rests t σ' h' := wp_done hp.rests

theorem transferStep_wp (kind : TransferKind) (hL : Log t L σ) :
    wp (logic env cfg) t (transferStep cfg id kind) σ ⟨.idle, ids⟩ (TransferEnds t ids id (· = id) L) := by
  cases kind with
  | evictVramToHost => exact evictVramToHost_wp (Cause.allows_none _ _) hL
  | evictHostToNvme =>
    exact wp_mono (fun _ _ _ _ hq => hq.mono fun _ _ => trivial) (evictHostToNvme_wp (Cause.allows_none _ _) hL)
  | loadNvmeToHost => exact loadNvmeToHost_wp hL
  | promoteHostToVram => exact wp_mono (fun _ _ _ _ hq => hq.mono fun _ _ => trivial) (promoteHostToVram_wp hL)

/-- Every operation started by a new thread is safe. -/
theorem code_wp (l : Op) (hL : Log t [] σ) (hle : h₀ <:+ σ.history) :
    wp (logic env cfg) t (code cfg l) σ {} (EndsWell env h₀ l t) := by
  cases l with
  | allocate a =>
    refine wp_bind allocatePage_wp (fun σ' id h' _ hq => ⟨hq.1, fun id' hid => ?_⟩) fun σ' e h' _ hq => ⟨hq.1, nofun⟩
    cases hid
    exact hq.2 id rfl
  | free id =>
    refine wp_mono (fun σ' r h' _ hq => ?_) (wp_done (freePage_wp hL))
    exact ⟨hq.rests, hq.since hle⟩
  | read id out =>
    refine wp_bind (readPage_plain [] hL) (fun σ' b h' _ hq => ⟨hq.2.rests, fun b' hb => ?_⟩) fun σ' e h' _ hq => ⟨hq.2.rests, nofun⟩
    cases hb
    exact hq.2.2
  | transfer kind id =>
    exact wp_mono (fun σ' r h' _ hq => ⟨hq.rests, hq⟩) (wp_done (transferStep_wp kind hL))
  | write id data =>
    refine wp_mono (fun _ _ _ _ hq => ⟨hq, trivial⟩) (Plain.done (F := fun _ _ => True) ?_)
    exact Plain.pass bystander_requireRunning fun _ _ _ => writePageImpl_plain
  | fill id => exact wp_mono (fun _ _ _ _ hq => ⟨hq, trivial⟩) fillPage_plain.done
  | verify id => exact wp_mono (fun _ _ _ _ hq => ⟨hq, trivial⟩) verifyPage_plain.done
  | promote id => exact wp_mono (fun _ _ _ _ hq => ⟨hq, trivial⟩) (Plain.of_bystander (bystander_promote id)).done
  | demoteToHost id => exact wp_mono (fun _ _ _ _ hq => ⟨hq, trivial⟩) demoteToHost_plain.done
  | demoteToNvme id => exact wp_mono (fun _ _ _ _ hq => ⟨hq, trivial⟩) demoteToNvme_plain.done
  | evict id => exact wp_mono (fun _ _ _ _ hq => ⟨hq, trivial⟩) evict_plain.done
  | pin id b => exact wp_mono (fun _ _ _ _ hq => ⟨hq, trivial⟩) pin_plain.done
  | prefetch l => exact wp_mono (fun _ _ _ _ hq => ⟨hq, trivial⟩) (Plain.of_bystander (bystander_prefetch l)).done
  | prefetchSequential start count =>
    exact wp_mono (fun _ _ _ _ hq => ⟨hq, trivial⟩) (Plain.of_bystander (bystander_prefetchSequential start count)).done
  | worker => exact wp_mono (fun _ _ _ _ hq => ⟨hq, trivial⟩) (wp_done workerTurn_wp)
  | shutdown =>
    exact wp_mono (fun _ _ _ _ hq => ⟨hq, trivial⟩) (Plain.of_bystander (Bystander.atomic neutral_beginShutdown)).done

/-! ## Every run -/

/-- The configurations of the runtime. -/
abbrev Runtime := Config Env Shared Error Op Reply

variable {allowed : Move Env Op → Prop} {disk : Bytes} {c : Runtime}

/-- The threads of a configuration and what they hold. -/
abbrev Accounted (env : Nat → Env → Shared → Prop) (cfg : RuntimeConfig) (h₀ : List Event) (c : Runtime) (hs : List Hold) : Prop :=
  Sound (logic env cfg) (fun t σ => Log t [] σ ∧ h₀ <:+ σ.history) (EndsWell env h₀) c hs

/-- Every reachable configuration is sound, for all that is known of the answers and the states. -/
theorem reachable_accounted (env : Nat → Env → Shared → Prop) (henv : ∀ (c : Runtime) t ω, Reachable allowed (code cfg) (cfg.initial disk) c → allowed (.exec t ω) →
      env t ω c.shared) (hr : Reachable allowed (code cfg) (cfg.initial disk) c) : ∃ hs, Accounted env cfg [] c hs := by
  refine hr.sound (initial_inv cfg disk) (fun σ T t hi => Inv.spawn hi t) (fun t => ⟨rfl, List.suffix_refl _⟩) ?_
    (fun c _ t ω hc ha _ => henv c t ω hc ha)
    (fun l _ t σ hn => code_wp l hn.1 hn.2) fun l t σ σ' r h hr hq => hq.rely hr
  rintro t σ σ' hr ⟨hl, hle⟩
  exact ⟨hl.rely hr, hle.trans (Rely.le hr)⟩

/-- The invariant holds in every reachable state, of the tokens of all threads. -/
theorem reachable_inv (hr : Reachable allowed (code cfg) (cfg.initial disk) c) : ∃ T, Inv cfg c.shared T := by
  obtain ⟨hs, h⟩ := reachable_accounted (fun _ _ _ => True) (fun _ _ _ _ _ => trivial) hr
  exact ⟨_, h.inv⟩

/-- What is known of a thread that has ended. -/
theorem Accounted.ended {hs : List Hold} (h : Accounted env cfg h₀ c hs) {r : Except Error Reply} {l : Op}
    (ht : c.threads[t]? = some ⟨l, .ret r⟩) : ∃ hd, hs[t]? = some hd ∧ EndsWell env h₀ l t c.shared r hd := by
  have hlt : t < hs.length := by
    rw [h.length]
    exact (List.getElem?_eq_some_iff.1 ht).1
  exact ⟨_, List.getElem?_eq_getElem hlt, h.safe t _ _ ht (List.getElem?_eq_getElem hlt)⟩

end FlashTier
