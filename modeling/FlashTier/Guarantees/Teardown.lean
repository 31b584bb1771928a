/-
Teardown, over any number of attempts with any calls failing, from any state in which no operation is in
progress. No handle is given up twice, and none is forgotten: it stays in its page's record, and the store and
the device are closed only when none of theirs is left. `shutdown` returns normally only when it is done with all
of it; and unless a release failed while the runtime was running, an attempt in which no call fails is.
-/
import FlashTier.Lifecycle.Attempts

namespace FlashTier

open Conc

variable {cfg : RuntimeConfig} {disk : Bytes} {c : Runtime} {σ σ₀ : Shared} {T : Multiset (Nat × Hold)} {t : Nat} {s s' : Attempt}
  {lost : Multiset (Ptr × Nat)} {exact : Prop} {ω : TeardownAnswers} {retainStore : Bool} {obj : Instance}

/-! ## Where teardown starts -/

/-- The host buffer a thread has left behind. -/
def Hold.leftBuffer (h : Hold) : Multiset (Ptr × Nat) :=
  match h.tok with
  | .hostBuf ptr n _ => {(ptr, n)}
  | _ => 0

/-- What a thread that has ended accounts for: the page it could not give back, and the buffer it has lost. -/
theorem own_of_ended {h : Hold} (hh : h.tok = .idle ∨ h.Moving) :
    (h.own cfg).host = ((h.claim.map (PageMetadata.parts cfg)).sum).host + h.leftBuffer ∧
    (h.own cfg).dev = ((h.claim.map (PageMetadata.parts cfg)).sum).dev ∧
    (h.own cfg).ext = ((h.claim.map (PageMetadata.parts cfg)).sum).ext ∧
    (h.own cfg).nvme = ((h.claim.map (PageMetadata.parts cfg)).sum).nvme := by
  rcases hh with hi | ⟨m, tier, stage, hi⟩ | ⟨ptr, n, tier, hi⟩
  · simp [Hold.own, Hold.claim, Hold.leftBuffer, hi, Token.own, Token.claim, Res.idsOf]
  · cases stage <;> simp [Hold.own, Hold.claim, Hold.leftBuffer, hi, Token.own, Token.claim, Stage.own, Res.idsOf, Res.ioOf]
  · simp [Hold.own, Hold.claim, Hold.leftBuffer, hi, Token.own, Token.claim, Res.idsOf, Res.hostBuf]

/-- A page accounts for what it points to, or the thread that has taken it does. -/
theorem sum_parts (b : Multiset PageMetadata) : (b.map (PageMetadata.parts cfg)).sum =
    (b.map (PageMetadata.foot cfg)).sum + ((b.bind PageMetadata.claim).map (PageMetadata.parts cfg)).sum := by
  induction b using Multiset.induction_on with
  | empty => rfl
  | cons p b ih =>
    have hp : p.parts cfg = p.foot cfg + (p.claim.map (PageMetadata.parts cfg)).sum := by
      unfold PageMetadata.foot PageMetadata.claim
      cases p.inFlight with
      | false => simp
      | true => simp [PageMetadata.core, PageMetadata.parts, PageMetadata.extents]
    rw [Multiset.map_cons, Multiset.sum_cons, Multiset.map_cons, Multiset.sum_cons, Multiset.cons_bind, Multiset.map_add,
      Multiset.sum_add, ih, hp, add_add_add_comm]

/-- The threads' shares of a kind that comes with their pages. -/
theorem sum_claims {N : Type} [AddCommMonoid N] (g : Res → N) (h0 : g 0 = 0) (hadd : ∀ a b, g (a + b) = g a + g b)
    (T : Multiset (Nat × Hold)) : g (((T.bind fun x => x.2.claim).map (PageMetadata.parts cfg)).sum) =
      (T.map fun x => g ((x.2.claim.map (PageMetadata.parts cfg)).sum)).sum := by
  induction T using Multiset.induction_on with
  | empty => exact h0
  | cons x T ih => rw [Multiset.cons_bind, Multiset.map_add, Multiset.sum_add, hadd, ih, Multiset.map_cons, Multiset.sum_cons]

/-- One kind of what the backends hold, when every thread has ended. -/
theorem Inv.ledger_ended {N : Type} [AddCommMonoid N] (hi : Inv cfg σ T) (g : Res → N) (h0 : g 0 = 0) (hadd : ∀ a b, g (a + b) = g a + g b)
    (f : Hold → N) (hf : ∀ x ∈ T, g (x.2.own cfg) = g ((x.2.claim.map (PageMetadata.parts cfg)).sum) + f x.2) :
    g σ.ledger = g (σ.total cfg) + (T.map fun x => f x.2).sum := by
  have hclaims : σ.table.bag.bind PageMetadata.claim = T.bind fun x => x.2.claim := hi.claims
  have hown : (T.map fun x => g (x.2.own cfg)).sum =
      (T.map fun x => g ((x.2.claim.map (PageMetadata.parts cfg)).sum)).sum + (T.map fun x => f x.2).sum := by
    rw [← Multiset.sum_map_add]
    exact congrArg Multiset.sum (Multiset.map_congr rfl hf)
  rw [hi.acc, zero_add, rest, hadd, Shared.total, sum_parts, hadd, hclaims, sum_claims g h0 hadd, map_sum_of_add g h0 hadd _ T, hown,
    ← add_assoc]
  rfl

/-- Every page of the table has a size and an offset that make sense, also one that a thread has not given back. -/
theorem Inv.placed (hi : Inv cfg σ T) (hT : ∀ x ∈ T, x.2.tok = .idle ∨ x.2.Moving) {p : PageMetadata} (hp : p ∈ σ.table.bag) : p.Placed cfg := by
  by_cases hf : p.inFlight = true
  · have hm : p.core ∈ T.bind fun x => x.2.claim := by
      rw [← show σ.table.bag.bind PageMetadata.claim = _ from hi.claims]
      exact Multiset.mem_bind.2 ⟨p, hp, mem_claim.2 ⟨hf, rfl⟩⟩
    obtain ⟨x, hx, hm⟩ := Multiset.mem_bind.1 hm
    have hok := hi.holds x hx
    rcases hT x hx with htok | ⟨m, tier, stage, htok⟩ | ⟨ptr, n, tier, htok⟩
    · rw [Hold.claim, htok] at hm
      cases Multiset.notMem_zero _ hm
    · rw [Hold.claim, htok] at hm
      rw [HoldOk, htok] at hok
      have hcore : p.core = m := Multiset.mem_singleton.1 hm
      have hform := hok.1.record.form
      rw [← hcore] at hform
      exact ⟨hform.size, hform.offset⟩
    · rw [Hold.claim, htok] at hm
      cases Multiset.notMem_zero _ hm
  · have hform := ((hi.pages p hp).ok (Bool.eq_false_of_not_eq_true hf)).record.form
    exact ⟨hform.size, hform.offset⟩

theorem Inv.owned (hi : Inv cfg σ T) (hT : ∀ x ∈ T, x.2.tok = .idle ∨ x.2.Moving) (hex : exact → AtRest T) :
    Owned cfg (T.map fun x => x.2.leftBuffer).sum exact σ := by
  have hzero : ∀ {N : Type} [AddCommMonoid N], (T.map fun _ => (0 : N)).sum = 0 := by simp
  refine ⟨?_, ?_, ?_, ?_, fun he => ?_, fun he => ?_, fun p hp => hi.placed hT hp, hi.wf.hostUsed, fun _ => ⟨hi.wf.store, hi.wf.geometry.1⟩⟩
  · exact hi.ledger_ended Res.host rfl (fun _ _ => rfl) Hold.leftBuffer fun x hx => (own_of_ended (hT x hx)).1
  · rw [hi.ledger_ended Res.dev rfl (fun _ _ => rfl) (fun _ => 0) fun x hx => (own_of_ended (hT x hx)).2.1.trans (add_zero _).symm, hzero, add_zero]
  · rw [hi.ledger_ended Res.ext rfl (fun _ _ => rfl) (fun _ => 0) fun x hx => (own_of_ended (hT x hx)).2.2.1.trans (add_zero _).symm, hzero, add_zero]
  · have hn := hi.ledger_ended Res.nvme rfl (fun _ _ => rfl) (fun _ => 0) fun x hx => (own_of_ended (hT x hx)).2.2.2.trans (add_zero _).symm
    rwa [hzero, add_zero] at hn
  · obtain ⟨ids, hl⟩ := hi.ledger_atRest (hex he)
    exact (congrArg Res.vram hl).trans (add_zero _)
  · obtain ⟨ids, hl⟩ := hi.ledger_atRest (hex he)
    refine (congrArg Res.io hl).trans ?_
    rw [Res.add_io, map_sum_of_add Res.io rfl (fun _ _ => rfl)]
    simp [parts_io, Res.idsOf]

/-! ## Between two attempts -/

/-- What holds of the object between two attempts, and between the parts of one; it was in `σ₀` when teardown began. -/
structure Settled (cfg : RuntimeConfig) (retainStore : Bool) (lost : Multiset (Ptr × Nat)) (exact : Prop) (σ₀ : Shared) (obj : Instance) :
    Prop where
  owned : Owned cfg lost exact obj.shared
  sheds : Sheds σ₀ obj.shared
  members : Members cfg exact obj
  detached : cfg.device = true → obj.hostDevice = false → ∀ a ∈ obj.shared.host.allocations.bag, a.pinned = false
  order : obj.device = false → obj.hostDevice = false ∧ obj.deviceStream = false
  next : obj.shared.nextPageId = σ₀.nextPageId

/-- The attempt is past the admission stop. -/
structure Stopped (cfg : RuntimeConfig) (retainStore : Bool) (lost : Multiset (Ptr × Nat)) (exact : Prop) (σ₀ : Shared) (s : Attempt) : Prop
    extends Settled cfg retainStore lost exact σ₀ s.obj where
  marked : s.Marked
  flags : s.obj.shared.running = false ∧ s.obj.shared.stopping = true
  workers : s.obj.workers = 0

/-- Errors and marks stay as they are, but an error may have come. -/
structure Attempt.Later (s s' : Attempt) : Prop where
  error : s.firstError.isSome → s'.firstError.isSome
  deviceLive : s'.deviceResourcesLive = s.deviceResourcesLive
  nvmeLive : s'.nvmeResourcesLive = s.nvmeResourcesLive

theorem Leftover.later {q : PageMetadata} (hk : Leftover s q) (h : s.Later s') : Leftover s' q :=
  ⟨h.error hk.error, hk.owned, fun hq => h.deviceLive.trans (hk.host hq), fun hq => h.deviceLive.trans (hk.vram hq),
    fun hq => h.nvmeLive.trans (hk.nvme hq)⟩

theorem Attempt.Marked.later (hm : s.Marked) (h : s.Later s') : s'.Marked := by
  intro hx
  rw [h.deviceLive, h.nvmeLive] at hx
  exact h.error (hm hx)

theorem later_check (s : Attempt) (x : Option Error) : s.Later (s.check x) := by
  cases x with
  | none => exact ⟨fun h => h, rfl, rfl⟩
  | some e => exact ⟨fun _ => isSome_or _ e, rfl, rfl⟩

theorem obj_check (s : Attempt) (x : Option Error) : (s.check x).obj = s.obj := by cases x <;> rfl

theorem check_eq_none {x : Option Error} (h : (s.check x).firstError = none) : s.firstError = none := by
  cases x with
  | none => exact h
  | some e =>
    have hsome := isSome_or s.firstError e
    rw [show s.firstError.or (some e) = none from h] at hsome
    cases hsome

theorem remember_ne_none (s : Attempt) (e : Error) : (s.remember e).firstError ≠ none := by
  intro h
  have hsome := isSome_or s.firstError e
  rw [show s.firstError.or (some e) = none from h] at hsome
  cases hsome

/-! ## The admission stop -/

theorem Settled.stop (h : Settled cfg retainStore lost exact σ₀ obj) :
    Settled cfg retainStore lost exact σ₀ { obj with shared := (beginShutdown t {} obj.shared).2 } :=
  ⟨h.owned.same rfl rfl rfl rfl rfl rfl, h.sheds.trans (.same (List.nil_append _).symm rfl rfl),
    ⟨h.members.device, h.members.noDevice, h.members.noStore, h.members.opened⟩, h.detached, h.order, h.next⟩

theorem stopWork_stopped (ω : TeardownAnswers) (h : Settled cfg retainStore lost exact σ₀ obj) :
    Stopped cfg retainStore lost exact σ₀ ((Attempt.mk obj none false false).stopWork t ω) ∧
      (ω.cancelAllLocked = none → ((Attempt.mk obj none false false).stopWork t ω).firstError = none) := by
  have hs := h.stop (t := t)
  have hkeep : ∀ e : Option Error,
      Stopped cfg retainStore lost exact σ₀ ⟨{ obj with shared := (beginShutdown t {} obj.shared).2, workers := 0 }, e, false, false⟩ := by
    intro e
    have hs' : Settled cfg retainStore lost exact σ₀ { obj with shared := (beginShutdown t {} obj.shared).2, workers := 0 } :=
      ⟨hs.owned, hs.sheds, ⟨hs.members.device, hs.members.noDevice, hs.members.noStore, hs.members.opened⟩, hs.detached, hs.order, hs.next⟩
    exact { hs' with marked := nofun, flags := ⟨rfl, rfl⟩, workers := rfl }
  unfold Attempt.stopWork
  by_cases ho : (obj.nvme && obj.storeOpened) = true
  · simp only [Attempt.set, ho, if_true]
    rcases hc : ω.cancelAllLocked with _ | e
    · exact ⟨hkeep _, fun _ => rfl⟩
    · exact ⟨hkeep _, nofun⟩
  · simp only [Attempt.set, ho]
    exact ⟨hkeep _, fun _ => rfl⟩

/-! ## The release loop -/

/-- A turn leaves the members, so what is known of them stays. -/
theorem Stopped.turn (h : Stopped cfg retainStore lost exact σ₀ s) {K : PageId → Prop} (hturn : LoopTurn cfg lost exact K s s')
    (hm : Members cfg exact s'.obj) : Stopped cfg retainStore lost exact σ₀ s' := by
  have hobj := hturn.members
  have hhost : s'.obj.hostDevice = s.obj.hostDevice := by rw [← hobj]
  have hstream : s'.obj.deviceStream = s.obj.deviceStream := by rw [← hobj]
  have hwork : s'.obj.workers = s.obj.workers := by rw [← hobj]
  obtain ⟨hdev, -, -⟩ := hturn.sameMembers
  obtain ⟨hrun, hrest⟩ := Prod.mk.inj hturn.flags
  obtain ⟨hstop, hnext⟩ := Prod.mk.inj hrest
  exact {
    owned := hturn.owned
    sheds := h.sheds.trans hturn.sheds
    members := hm
    detached := fun hd hh a ha => h.detached hd (hhost ▸ hh) a (hturn.buffers a ha)
    order := fun hd => by rw [hhost, hstream]; exact h.order (hdev ▸ hd)
    next := hnext.trans h.next
    marked := hturn.marked h.marked
    flags := ⟨hrun.trans h.flags.1, hstop.trans h.flags.2⟩
    workers := hwork.trans h.workers }

/-! ## The store -/

theorem total_ext_eq_zero (h : ∀ p ∈ σ.table.bag, p.nvmeOffset = none) : (σ.total cfg).ext = 0 := by
  rw [Shared.total, map_sum_of_add Res.ext rfl (fun _ _ => rfl)]
  refine Multiset.sum_eq_zero fun x hx => ?_
  obtain ⟨p, hp, rfl⟩ := Multiset.mem_map.1 hx
  simp [PageMetadata.parts, PageMetadata.extents, h p hp]

/-- The extent map is replaced once no page has extents. -/
theorem Owned.setStore {map : Extents} (h : Owned cfg lost exact σ) (hn : ∀ p ∈ σ.table.bag, p.nvmeOffset = none) (hu : map.usedBag = 0)
    (hio : exact → map.ioBag = 0) : Owned cfg lost exact (σ.setStore map) := by
  refine ⟨h.host, h.dev, ?_, h.nvme, h.vram, hio, h.placed, h.hostUsed, ?_⟩
  · have hzero : ((σ.setStore map).total cfg).ext = 0 := total_ext_eq_zero hn
    rw [hzero]
    exact hu
  · rintro ⟨p, hp, hs⟩
    rw [hn p hp] at hs
    cases hs

/-- The store's part of an attempt: `obj'` is the object it leaves, with the file or without. -/
theorem Stopped.storeClosed (h : Stopped cfg retainStore lost exact σ₀ s) (map : Extents) (opened file : Bool)
    (hn : ∀ p ∈ s.obj.shared.table.bag, p.nvmeOffset = none) (hu : map.usedBag = 0) (hio : exact → map.ioBag = 0)
    (ho : opened = true → s.obj.nvme = true) (hl : s.Later s')
    (hobj : s'.obj = { s.obj with shared := s.obj.shared.setStore map, storeOpened := opened, storeFile := file }) :
    Stopped cfg retainStore lost exact σ₀ s' := by
  have hs : Settled cfg retainStore lost exact σ₀ s'.obj := by
    rw [hobj]
    exact ⟨h.owned.setStore hn hu hio, h.sheds.trans (.same (List.nil_append _).symm rfl rfl),
      ⟨h.members.device, h.members.noDevice, fun _ => hn, ho⟩, h.detached, h.order, h.next⟩
  refine { hs with marked := h.marked.later hl, flags := ?_, workers := ?_ }
  · rw [hobj]
    exact h.flags
  · rw [hobj]
    exact h.workers

theorem usedBag_closedMap (map : Extents) : (Attempt.closedMap map).usedBag = 0 := by
  simp [Attempt.closedMap, Extents.usedBag]

theorem ioBag_closedMap (map : Extents) : (Attempt.closedMap map).ioBag = 0 := by
  ext i
  rw [Extents.count_ioBag]
  exact ite_self 0

/-- After the store's part, a store that is open had something left, or its `close` threw. -/
theorem closeStore_stopped (ω : TeardownAnswers) (h : Stopped cfg retainStore lost exact σ₀ s) (hk : ∀ q ∈ s.obj.shared.table.bag, Leftover s q) :
    Stopped cfg retainStore lost exact σ₀ (s.closeStore ω retainStore) ∧
    (∀ q ∈ (s.closeStore ω retainStore).obj.shared.table.bag, Leftover (s.closeStore ω retainStore) q) ∧
    ((s.closeStore ω retainStore).firstError = none → s.firstError = none ∧ (s.closeStore ω retainStore).obj.storeOpened = false) ∧
    (ω.flush = none → ω.close = none → ω.destroyFile = none → (s.closeStore ω retainStore).firstError = s.firstError) := by
  unfold Attempt.closeStore
  by_cases hc : (s.obj.nvme && s.obj.storeOpened && !s.nvmeResourcesLive) = true
  swap
  · rw [if_neg hc]
    refine ⟨h, hk, fun he => ⟨he, Bool.eq_false_of_not_eq_true fun ho => hc ?_⟩, fun _ _ _ => rfl⟩
    have hlive : s.nvmeResourcesLive = false := by
      refine Bool.eq_false_of_not_eq_true fun hl => ?_
      have := h.marked (by rw [hl, Bool.or_true])
      rw [he] at this
      cases this
    rw [h.members.opened ho, ho, hlive]
    rfl
  rw [if_pos hc]
  simp only [Bool.and_eq_true, Bool.not_eq_true'] at hc
  obtain ⟨⟨hnvme, hopen⟩, hlive⟩ := hc
  have hn : ∀ p ∈ s.obj.shared.table.bag, p.nvmeOffset = none := by
    intro p hp
    refine Option.not_isSome_iff_eq_none.1 fun hx => ?_
    rw [(hk p hp).nvme hx] at hlive
    cases hlive
  have hl := later_check s ω.flush
  have hobj := obj_check s ω.flush
  have hflush : ω.flush = none → (s.check ω.flush).firstError = s.firstError := fun hf => by rw [hf]; rfl
  have hnone : (s.check ω.flush).firstError = none → s.firstError = none := check_eq_none
  generalize s.check ω.flush = s₁ at hl hobj hflush hnone ⊢
  dsimp only
  rw [hobj]
  rcases hclose : ω.close with _ | e
  · have hclosed : ∀ (file : Bool) {s' : Attempt}, s₁.Later s' →
        s'.obj = { s.obj with shared := s.obj.shared.setStore (Attempt.closedMap s.obj.shared.store), storeOpened := false, storeFile := file } →
        Stopped cfg retainStore lost exact σ₀ s' ∧ ∀ q ∈ s'.obj.shared.table.bag, Leftover s' q := by
      intro file s' hl' ho
      have hlater : s.Later s' := ⟨fun h => hl'.error (hl.error h), hl'.deviceLive.trans hl.deviceLive, hl'.nvmeLive.trans hl.nvmeLive⟩
      refine ⟨h.storeClosed _ false file hn (usedBag_closedMap _) (fun _ => ioBag_closedMap _) (fun hx => Bool.noConfusion hx) hlater ho,
        fun q hq => ?_⟩
      rw [ho] at hq
      exact (hk q hq).later hlater
    by_cases hr : retainStore = true
    · rw [if_pos hr]
      exact and_assoc.1 ⟨hclosed s.obj.storeFile ⟨fun h => h, rfl, rfl⟩ rfl,
        fun he => ⟨hnone he, rfl⟩, fun hf _ _ => hflush hf⟩
    · rw [if_neg hr]
      rcases hd : ω.destroyFile with _ | e
      · exact and_assoc.1 ⟨hclosed false ⟨fun h => h, rfl, rfl⟩ rfl,
          fun he => ⟨hnone he, rfl⟩, fun hf _ _ => hflush hf⟩
      · exact and_assoc.1 ⟨hclosed s.obj.storeFile ⟨fun _ => isSome_or _ e, rfl, rfl⟩ rfl,
          fun he => absurd he (remember_ne_none _ e), fun _ _ hx => nomatch hx⟩
  · have hlater : s.Later ((s₁.set (s.obj.shared.setStore { s.obj.shared.store with stopping := true })).remember e) :=
      ⟨fun _ => isSome_or _ e, hl.deviceLive, hl.nvmeLive⟩
    have hu : s.obj.shared.store.usedBag = 0 := h.owned.ext.trans (total_ext_eq_zero hn)
    refine ⟨h.storeClosed { s.obj.shared.store with stopping := true } s.obj.storeOpened s.obj.storeFile hn hu h.owned.io (fun _ => hnvme) hlater ?_, fun q hq => ?_,
      fun he => absurd he (remember_ne_none _ e), fun _ hx => nomatch hx⟩
    · show ({ s₁.obj with shared := s.obj.shared.setStore { s.obj.shared.store with stopping := true } } : Instance) = _
      rw [hobj]
    · have hq' : q ∈ s.obj.shared.table.bag := hq
      exact (hk q hq').later hlater

theorem resetStore_stopped (h : Stopped cfg retainStore lost exact σ₀ s) (hk : ∀ q ∈ s.obj.shared.table.bag, Leftover s q) :
    Stopped cfg retainStore lost exact σ₀ s.resetStore ∧ (∀ q ∈ s.resetStore.obj.shared.table.bag, Leftover s.resetStore q) ∧
    s.resetStore.firstError = s.firstError ∧
    (s.obj.storeOpened = false → s.resetStore.obj.storeOpened = false ∧ s.resetStore.obj.nvme = false) := by
  unfold Attempt.resetStore
  by_cases ho : s.obj.storeOpened = true
  · rw [if_pos ho]
    exact ⟨h, hk, rfl, fun hx => absurd (hx.symm.trans ho) Bool.false_ne_true⟩
  · rw [if_neg ho]
    have ho := Bool.eq_false_of_not_eq_true ho
    have hn := h.members.noStore (by rw [ho, Bool.and_false])
    refine ⟨?_, fun q hq => (hk q hq).later ⟨fun h => h, rfl, rfl⟩, rfl, fun hx => ⟨hx, rfl⟩⟩
    exact {
      owned := h.owned
      sheds := h.sheds
      members := ⟨h.members.device, h.members.noDevice, fun _ => hn, fun hx => absurd (ho.symm.trans hx) Bool.false_ne_true⟩
      detached := h.detached
      order := h.order
      next := h.next
      marked := h.marked
      flags := h.flags
      workers := h.workers }

/-! ## The device -/

/-- The device's part of an attempt leaves the pages and the buffers. -/
theorem Stopped.deviceClosed {stream hostDevice device available : Bool} (h : Stopped cfg retainStore lost exact σ₀ s)
    (hd : device = true → s.obj.device = true) (hv : ∀ p ∈ s.obj.shared.table.bag, p.vramPtr = none)
    (hp : cfg.device = true → hostDevice = false → ∀ a ∈ s.obj.shared.host.allocations.bag, a.pinned = false)
    (ho : device = false → hostDevice = false ∧ stream = false) (hl : s.Later s')
    (hobj : s'.obj = { s.obj with
      shared := { s.obj.shared with host := { s.obj.shared.host with pinnedAvailable := available } }
      device := device
      deviceStream := stream
      hostDevice := hostDevice }) :
    Stopped cfg retainStore lost exact σ₀ s' := by
  have hs : Settled cfg retainStore lost exact σ₀ s'.obj := by
    rw [hobj]
    exact ⟨⟨h.owned.host, h.owned.dev, h.owned.ext, h.owned.nvme, h.owned.vram, h.owned.io, h.owned.placed, h.owned.hostUsed, h.owned.store⟩,
      h.sheds.trans (.same (List.nil_append _).symm rfl rfl),
      ⟨fun p hp hx => h.members.device p hp (hd hx), fun _ _ => hv, h.members.noStore, h.members.opened⟩, hp, ho, h.next⟩
  refine { hs with marked := h.marked.later hl, flags := ?_, workers := ?_ }
  · rw [hobj]
    exact h.flags
  · rw [hobj]
    exact h.workers

theorem not_pinned {obj : Instance} (h : (obj.hostDevice && obj.shared.host.allocations.items.any (·.pinned)) = false) (ho : obj.hostDevice = true) :
    ∀ a ∈ obj.shared.host.allocations.bag, a.pinned = false := by
  rw [ho, Bool.true_and, List.any_eq_false] at h
  exact fun a ha => Bool.eq_false_of_not_eq_true (h a (Keyed.mem_bag.1 ha))

/-- The stream's part. -/
theorem closeStream_later (s : Attempt) (ω : TeardownAnswers) : ∃ s₁ : Attempt,
    (if s.obj.deviceStream then { s.check ω.destroyStream with obj := { (s.check ω.destroyStream).obj with deviceStream := false } } else s) = s₁ ∧
    s.Later s₁ ∧ s₁.obj = { s.obj with deviceStream := false } ∧ (s₁.firstError = none → s.firstError = none) ∧
    (ω.destroyStream = none → s₁.firstError = s.firstError) := by
  by_cases hs : s.obj.deviceStream = true
  · rw [if_pos hs]
    have hl := later_check s ω.destroyStream
    refine ⟨_, rfl, ⟨hl.error, hl.deviceLive, hl.nvmeLive⟩, by rw [obj_check], check_eq_none, fun hd => ?_⟩
    rw [hd]
    rfl
  · rw [if_neg hs]
    refine ⟨s, rfl, ⟨fun h => h, rfl, rfl⟩, ?_, fun h => h, fun _ => rfl⟩
    rw [← Bool.eq_false_of_not_eq_true hs]

/-- After the device's part, a device that is there had something left, or a call for it threw. -/
theorem closeDevice_stopped (ω : TeardownAnswers) (h : Stopped cfg retainStore lost exact σ₀ s) (hk : ∀ q ∈ s.obj.shared.table.bag, Leftover s q) :
    Stopped cfg retainStore lost exact σ₀ (s.closeDevice ω) ∧
    (∀ q ∈ (s.closeDevice ω).obj.shared.table.bag, Leftover (s.closeDevice ω) q) ∧
    ((s.closeDevice ω).firstError = none → s.firstError = none ∧ (s.closeDevice ω).obj.device = false) ∧
    (ω.destroyStream = none → ω.deviceClose = none → (∀ a ∈ s.obj.shared.host.allocations.bag, a.pinned = false) →
      (s.closeDevice ω).firstError = s.firstError) ∧
    ((s.closeDevice ω).obj.nvme = s.obj.nvme ∧ (s.closeDevice ω).obj.storeOpened = s.obj.storeOpened ∧
      (s.closeDevice ω).obj.storeFile = s.obj.storeFile) := by
  unfold Attempt.closeDevice
  by_cases hc : (s.obj.device && !s.deviceResourcesLive) = true
  swap
  · rw [if_neg hc]
    refine ⟨h, hk, fun he => ⟨he, Bool.eq_false_of_not_eq_true fun hd => hc ?_⟩, fun _ _ _ => rfl, rfl, rfl, rfl⟩
    have hlive : s.deviceResourcesLive = false := by
      refine Bool.eq_false_of_not_eq_true fun hl => ?_
      have := h.marked (by rw [hl, Bool.true_or])
      rw [he] at this
      cases this
    rw [hd, hlive]
    rfl
  rw [if_pos hc]
  simp only [Bool.and_eq_true, Bool.not_eq_true'] at hc
  obtain ⟨hdev, hlive⟩ := hc
  have hv : ∀ p ∈ s.obj.shared.table.bag, p.vramPtr = none := by
    intro p hp
    refine Option.not_isSome_iff_eq_none.1 fun hx => ?_
    rw [(hk p hp).vram hx] at hlive
    cases hlive
  obtain ⟨s₁, hs₁, hl, hobj, hnone, herr⟩ := closeStream_later s ω
  dsimp only
  rw [hs₁]
  have hdone : ∀ (available : Bool) {hostDevice device : Bool} {s' : Attempt}, (device = true → s.obj.device = true) →
      (cfg.device = true → hostDevice = false → ∀ a ∈ s.obj.shared.host.allocations.bag, a.pinned = false) →
      (device = false → hostDevice = false) → s₁.Later s' →
      s'.obj = { s.obj with
        shared := { s.obj.shared with host := { s.obj.shared.host with pinnedAvailable := available } }
        device := device
        deviceStream := false
        hostDevice := hostDevice } →
      Stopped cfg retainStore lost exact σ₀ s' ∧ ∀ q ∈ s'.obj.shared.table.bag, Leftover s' q := by
    intro available hostDevice device s' hd hp ho hl' hobj'
    have hlater : s.Later s' := ⟨fun h => hl'.error (hl.error h), hl'.deviceLive.trans hl.deviceLive, hl'.nvmeLive.trans hl.nvmeLive⟩
    refine ⟨h.deviceClosed hd hv hp (fun hx => ⟨ho hx, rfl⟩) hlater hobj', fun q hq => ?_⟩
    rw [hobj'] at hq
    exact (hk q hq).later hlater
  unfold Attempt.detach
  rw [hobj]
  dsimp only
  by_cases hpin : (s.obj.hostDevice && s.obj.shared.host.allocations.items.any (·.pinned)) = true
  · rw [if_pos hpin]
    refine and_assoc.1 ⟨hdone s.obj.shared.host.pinnedAvailable (fun hx => hx) h.detached (fun hx => (h.order hx).1) ⟨fun _ => isSome_or _ _, rfl, rfl⟩ ?_, fun he => absurd he (remember_ne_none _ _),
      fun _ _ hn => ?_, ?_⟩
    · exact hobj
    · simp only [Bool.and_eq_true, List.any_eq_true] at hpin
      obtain ⟨-, a, ha, hap⟩ := hpin
      exact absurd ((hn a (Keyed.mem_bag.2 ha)).symm.trans hap) Bool.false_ne_true
    · show s₁.obj.nvme = _ ∧ s₁.obj.storeOpened = _ ∧ s₁.obj.storeFile = _
      rw [hobj]
      exact ⟨rfl, rfl, rfl⟩
  · rw [if_neg hpin]
    have hp : cfg.device = true → false = false → ∀ a ∈ s.obj.shared.host.allocations.bag, a.pinned = false := by
      intro hcfg _
      by_cases ho : s.obj.hostDevice = true
      · exact not_pinned (Bool.eq_false_of_not_eq_true hpin) ho
      · exact h.detached hcfg (Bool.eq_false_of_not_eq_true ho)
    rcases hcl : ω.deviceClose with _ | e
    · exact and_assoc.1 ⟨hdone false (fun hx => Bool.noConfusion hx) hp (fun _ => rfl) ⟨fun h => h, rfl, rfl⟩ rfl, fun he => ⟨hnone he, rfl⟩,
        fun hx _ _ => herr hx, rfl, rfl, rfl⟩
    · exact and_assoc.1 ⟨hdone false (fun hx => hx) hp (fun _ => rfl) ⟨fun _ => isSome_or _ e, rfl, rfl⟩ rfl, fun he => absurd he (remember_ne_none _ e),
        (fun _ hx => nomatch hx), rfl, rfl, rfl⟩

/-! ## The telemetry sink -/

theorem flushSink_stopped (ω : TeardownAnswers) (h : Stopped cfg retainStore lost exact σ₀ s) (hk : ∀ q ∈ s.obj.shared.table.bag, Leftover s q) :
    Stopped cfg retainStore lost exact σ₀ (s.flushSink ω) ∧ (∀ q ∈ (s.flushSink ω).obj.shared.table.bag, Leftover (s.flushSink ω) q) ∧
    ((s.flushSink ω).firstError = none → s.firstError = none) ∧ (ω.sinkFlush = none → (s.flushSink ω).firstError = s.firstError) ∧
    (s.flushSink ω).obj = { s.obj with sink := false } := by
  have hl : s.Later (s.flushSink ω) ∧ (s.flushSink ω).obj = { s.obj with sink := false } ∧
      ((s.flushSink ω).firstError = none → s.firstError = none) ∧ (ω.sinkFlush = none → (s.flushSink ω).firstError = s.firstError) := by
    unfold Attempt.flushSink
    by_cases hs : s.obj.sink = true
    · rw [if_pos hs]
      have hl := later_check s ω.sinkFlush
      refine ⟨⟨hl.error, hl.deviceLive, hl.nvmeLive⟩, by rw [← obj_check s ω.sinkFlush], check_eq_none, fun hd => ?_⟩
      rw [hd]
      rfl
    · rw [if_neg hs]
      refine ⟨⟨fun h => h, rfl, rfl⟩, ?_, fun h => h, fun _ => rfl⟩
      rw [← Bool.eq_false_of_not_eq_true hs]
  obtain ⟨hl, hobj, hnone, herr⟩ := hl
  have hs : Settled cfg retainStore lost exact σ₀ (s.flushSink ω).obj := by
    rw [hobj]
    exact ⟨h.owned, h.sheds, ⟨h.members.device, h.members.noDevice, h.members.noStore, h.members.opened⟩, h.detached, h.order, h.next⟩
  refine ⟨{ hs with marked := h.marked.later hl, flags := ?_, workers := ?_ }, fun q hq => ?_, hnone, herr, hobj⟩
  · rw [hobj]
    exact h.flags
  · rw [hobj]
    exact h.workers
  · rw [hobj] at hq
    exact (hk q hq).later hl

/-! ## An attempt -/

/-- No call of the attempt fails. -/
structure TeardownAnswers.Clean (ω : TeardownAnswers) : Prop where
  cancelAll : ω.cancelAll = none
  cancelAllLocked : ω.cancelAllLocked = none
  serves : ∀ i, ω.Serves i
  flush : ω.flush = none
  close : ω.close = none
  destroyFile : ω.destroyFile = none
  destroyStream : ω.destroyStream = none
  deviceClose : ω.deviceClose = none
  sinkFlush : ω.sinkFlush = none

/-- There is nothing left to tear down. -/
structure Instance.Complete (obj : Instance) : Prop where
  table : obj.shared.table.items = []
  workers : obj.workers = 0
  nvme : obj.nvme = false
  storeOpened : obj.storeOpened = false
  device : obj.device = false

/-- The host buffers, when no page is left and none is lost. -/
theorem Owned.noBuffers (h : Owned cfg 0 exact σ) (ht : σ.table.items = []) : σ.host.allocations.bag = 0 := by
  have hbag : σ.table.bag = 0 := by rw [Keyed.bag, ht]; rfl
  have hhost := h.host
  rw [Shared.total, hbag, add_zero] at hhost
  exact Multiset.map_eq_zero.1 hhost

/-- What an attempt does to the store: it may close it, and remove the file of a store it has closed. -/
structure StoreKept (retainStore : Bool) (destroyed : Prop) (obj obj' : Instance) : Prop where
  opened : obj'.storeOpened = true → obj.storeOpened = true
  file : obj'.storeFile = obj.storeFile ∨ obj'.storeFile = false ∧ obj.storeOpened = true ∧ obj'.storeOpened = false ∧ retainStore = false
  removed : destroyed → obj.storeOpened = true → obj'.storeOpened = false → obj'.storeFile = (obj.storeFile && retainStore)

theorem closeStore_kept (ω : TeardownAnswers) (retainStore : Bool) (s : Attempt) :
    StoreKept retainStore (ω.destroyFile = none) s.obj (s.closeStore ω retainStore).obj := by
  unfold Attempt.closeStore
  by_cases hc : (s.obj.nvme && s.obj.storeOpened && !s.nvmeResourcesLive) = true
  swap
  · rw [if_neg hc]
    exact ⟨fun h => h, .inl rfl, fun _ ho hn => absurd (hn.symm.trans ho) Bool.false_ne_true⟩
  rw [if_pos hc]
  simp only [Bool.and_eq_true] at hc
  have hopen := hc.1.2
  have hobj := obj_check s ω.flush
  generalize s.check ω.flush = s₁ at hobj ⊢
  dsimp only
  rw [hobj]
  rcases ω.close with _ | e
  · by_cases hr : retainStore = true
    · rw [if_pos hr, hr]
      exact ⟨fun h => Bool.noConfusion h, .inl rfl, fun _ _ _ => (Bool.and_true _).symm⟩
    · rw [if_neg hr]
      have hr := Bool.eq_false_of_not_eq_true hr
      rcases hd : ω.destroyFile with _ | e
      · exact ⟨fun h => Bool.noConfusion h, .inr ⟨rfl, hopen, rfl, hr⟩, fun _ _ _ => by rw [hr, Bool.and_false]⟩
      · exact ⟨fun h => Bool.noConfusion h, .inl rfl, fun hx => by cases hx⟩
  · refine ⟨fun _ => hopen, .inl ?_, fun _ _ hx => ?_⟩
    · show s₁.obj.storeFile = _
      rw [hobj]
    · have hx : s₁.obj.storeOpened = false := hx
      rw [hobj, hopen] at hx
      cases hx

/-- The file is there unless the store is closed and not to be retained. -/
def Instance.FileHeld (retainStore : Bool) (obj : Instance) : Prop := obj.storeFile = false → obj.storeOpened = false ∧ retainStore = false

/-- A store that is closed has its file only if it is to be retained. -/
def Instance.FileRight (retainStore : Bool) (obj : Instance) : Prop := obj.storeOpened = false → obj.storeFile = retainStore

theorem StoreKept.held {destroyed : Prop} {obj' : Instance} (h : StoreKept retainStore destroyed obj obj') (hf : obj.FileHeld retainStore) :
    obj'.FileHeld retainStore := by
  intro hx
  rcases h.file with hsame | ⟨-, -, ho, hr⟩
  · obtain ⟨ho, hr⟩ := hf (hsame ▸ hx)
    exact ⟨Bool.eq_false_of_not_eq_true fun ht => absurd (ho.symm.trans (h.opened ht)) Bool.false_ne_true, hr⟩
  · exact ⟨ho, hr⟩

theorem StoreKept.right {destroyed : Prop} {obj' : Instance} (h : StoreKept retainStore destroyed obj obj') (hd : destroyed)
    (hf : obj.FileHeld retainStore) (hr : obj.FileRight retainStore) : obj'.FileRight retainStore := by
  intro hx
  by_cases ho : obj.storeOpened = true
  · have hfile : obj.storeFile = true := Bool.eq_true_of_not_eq_false fun hn => absurd ((hf hn).1.symm.trans ho) Bool.false_ne_true
    rw [h.removed hd ho hx, hfile, Bool.true_and]
  · rcases h.file with hsame | ⟨-, ht, -⟩
    · rw [hsame]
      exact hr (Bool.eq_false_of_not_eq_true ho)
    · exact absurd ht ho

theorem stopWork_store (ω : TeardownAnswers) (s : Attempt) :
    (s.stopWork t ω).obj.storeOpened = s.obj.storeOpened ∧ (s.stopWork t ω).obj.storeFile = s.obj.storeFile := by
  unfold Attempt.stopWork
  dsimp only
  split
  · cases ω.cancelAllLocked <;> exact ⟨rfl, rfl⟩
  · exact ⟨rfl, rfl⟩

theorem StoreKept.congr {destroyed : Prop} {a a' b b' : Instance} (h : StoreKept retainStore destroyed a b)
    (ha : a.storeOpened = a'.storeOpened ∧ a.storeFile = a'.storeFile) (hb : b'.storeOpened = b.storeOpened ∧ b'.storeFile = b.storeFile) :
    StoreKept retainStore destroyed a' b' := by
  refine ⟨?_, ?_, ?_⟩ <;> rw [hb.1, ← ha.1]
  · exact h.opened
  · rw [hb.2, ← ha.2]
    exact h.file
  · rw [hb.2, ← ha.2]
    exact h.removed

/-- One attempt, from any object between two attempts. -/
theorem attempt_stopped (ω : TeardownAnswers) (h : Settled cfg retainStore lost exact σ₀ obj) :
    Stopped cfg retainStore lost exact σ₀ (obj.attempt cfg retainStore t ω) ∧
    (∀ q ∈ (obj.attempt cfg retainStore t ω).obj.shared.table.bag, Leftover (obj.attempt cfg retainStore t ω) q) ∧
    ((obj.attempt cfg retainStore t ω).firstError = none → (obj.attempt cfg retainStore t ω).obj.Complete) ∧
    (exact → lost = 0 → ω.Clean → (obj.attempt cfg retainStore t ω).firstError = none) ∧
    StoreKept retainStore (ω.destroyFile = none) obj (obj.attempt cfg retainStore t ω).obj := by
  unfold Instance.attempt
  obtain ⟨h₀, e₀⟩ := stopWork_stopped (t := t) ω h
  have f₀ := stopWork_store (t := t) ω (Attempt.mk obj none false false)
  generalize (Attempt.mk obj none false false).stopWork t ω = s₀ at h₀ e₀ f₀ ⊢
  obtain ⟨hturn, hm, k₁, e₁⟩ := releaseAll_turn (t := t) ω h₀.owned h₀.members
  have h₁ := h₀.turn hturn hm
  have f₁ : ((s₀.releaseAll cfg t ω).obj.storeOpened, (s₀.releaseAll cfg t ω).obj.storeFile) = (s₀.obj.storeOpened, s₀.obj.storeFile) := by
    rw [← hturn.members]
  generalize s₀.releaseAll cfg t ω = s₁ at h₁ k₁ e₁ f₁ ⊢
  obtain ⟨h₂, k₂, n₂, e₂⟩ := closeStore_stopped ω h₁ k₁
  have f₂ := closeStore_kept ω retainStore s₁
  generalize s₁.closeStore ω retainStore = s₂ at h₂ k₂ n₂ e₂ f₂ ⊢
  obtain ⟨h₃, k₃, e₃, n₃⟩ := resetStore_stopped h₂ k₂
  have f₃ : s₂.resetStore.obj.storeOpened = s₂.obj.storeOpened ∧ s₂.resetStore.obj.storeFile = s₂.obj.storeFile := by
    unfold Attempt.resetStore
    split <;> exact ⟨rfl, rfl⟩
  generalize s₂.resetStore = s₃ at h₃ k₃ n₃ e₃ f₃ ⊢
  obtain ⟨h₄, k₄, n₄, e₄, hstore⟩ := closeDevice_stopped ω h₃ k₃
  generalize s₃.closeDevice ω = s₄ at h₄ k₄ n₄ e₄ hstore ⊢
  obtain ⟨h₅, k₅, n₅, e₅, hobj⟩ := flushSink_stopped ω h₄ k₄
  generalize s₄.flushSink ω = s₅ at h₅ k₅ n₅ e₅ hobj ⊢
  have hempty : ∀ {s : Attempt}, (∀ q ∈ s.obj.shared.table.bag, Leftover s q) → s.firstError = none → s.obj.shared.table.items = [] := by
    intro s hk he
    refine List.eq_nil_iff_forall_not_mem.2 fun q hq => ?_
    have := (hk q (Keyed.mem_bag.2 hq)).error
    rw [he] at this
    cases this
  refine ⟨h₅, k₅, fun he => ?_, fun hex hlost hc => ?_, ?_⟩
  · have he₄ := n₅ he
    obtain ⟨he₃, hdev⟩ := n₄ he₄
    obtain ⟨-, ho₂⟩ := n₂ (e₃ ▸ he₃)
    obtain ⟨ho₃, hn₃⟩ := n₃ ho₂
    refine ⟨hempty k₅ he, h₅.workers, ?_, ?_, ?_⟩ <;> rw [hobj]
    · exact hstore.1.trans hn₃
    · exact hstore.2.1.trans ho₃
    · exact hdev
  · subst hlost
    have he₁ : s₁.firstError = none := (e₁ hex hc.serves).trans (e₀ hc.cancelAllLocked)
    have he₃ : s₃.firstError = none := e₃.trans ((e₂ hc.flush hc.close hc.destroyFile).trans he₁)
    have hnobuf := h₃.owned.noBuffers (hempty k₃ he₃)
    refine (e₅ hc.sinkFlush).trans ((e₄ hc.destroyStream hc.deviceClose fun a ha => ?_).trans he₃)
    rw [hnobuf] at ha
    cases Multiset.notMem_zero _ ha
  · obtain ⟨ho₁, hf₁⟩ := Prod.mk.inj f₁
    rw [hobj]
    exact f₂.congr ⟨ho₁.trans f₀.1, hf₁.trans f₀.2⟩ ⟨hstore.2.1.trans f₃.1, hstore.2.2.trans f₃.2⟩

/-- What an attempt leaves. -/
structure AfterAttempt (cfg : RuntimeConfig) (retainStore : Bool) (lost : Multiset (Ptr × Nat)) (exact : Prop) (σ₀ : Shared) (obj : Instance) : Prop
    extends Settled cfg retainStore lost exact σ₀ obj where
  kept : ∀ p ∈ obj.shared.table.bag, p.owned ≠ []
  flags : obj.shared.running = false ∧ obj.shared.stopping = true
  workers : obj.workers = 0

theorem shutdown_settled (ω : TeardownAnswers) (h : Settled cfg retainStore lost exact σ₀ obj) :
    AfterAttempt cfg retainStore lost exact σ₀ (obj.shutdown cfg retainStore t ω).2 ∧
    ((obj.shutdown cfg retainStore t ω).1 = none → (obj.shutdown cfg retainStore t ω).2.Complete) ∧
    (exact → lost = 0 → ω.Clean → (obj.shutdown cfg retainStore t ω).1 = none) ∧
    StoreKept retainStore (ω.destroyFile = none) obj (obj.shutdown cfg retainStore t ω).2 := by
  obtain ⟨hs, hk, hn, he, hf⟩ := attempt_stopped (t := t) ω (h.stop (t := t))
  refine ⟨⟨hs.toSettled, fun p hp => (hk p hp).owned, hs.flags, hs.workers⟩, fun hnone => ?_, fun hex hlost hc => ?_,
    hf.congr ⟨rfl, rfl⟩ ⟨rfl, rfl⟩⟩
  · exact hn (Option.or_eq_none_iff.1 hnone).2
  · refine Option.or_eq_none_iff.2 ⟨?_, he hex hlost hc⟩
    rw [hc.cancelAll, ite_self]

/-- Any number of attempts. -/
theorem shutdowns_settled : ∀ (ωs : List TeardownAnswers) {obj : Instance}, Settled cfg retainStore lost exact σ₀ obj → obj.FileHeld retainStore →
    Settled cfg retainStore lost exact σ₀ (obj.shutdowns cfg retainStore t ωs) ∧ (obj.shutdowns cfg retainStore t ωs).FileHeld retainStore ∧
    ((∀ ω ∈ ωs, ω.destroyFile = none) → obj.FileRight retainStore → (obj.shutdowns cfg retainStore t ωs).FileRight retainStore)
  | [], _, h, hf => ⟨h, hf, fun _ hr => hr⟩
  | ω :: ωs, obj, h, hf => by
    obtain ⟨h₁, -, -, f₁⟩ := shutdown_settled (t := t) ω h
    obtain ⟨h₂, f₂, r₂⟩ := shutdowns_settled ωs h₁.toSettled (f₁.held hf)
    exact ⟨h₂, f₂, fun hd hr => r₂ (fun ω' hω => hd ω' (List.mem_cons_of_mem _ hω)) (f₁.right (hd ω (List.mem_cons_self ..)) hf hr)⟩

/-! ## From any state in which no operation is in progress -/

/-- A thread that has ended holds nothing, or what it could not release. -/
theorem Accounted.ended_moving {env : Nat → Env → Shared → Prop} {h₀ : List Event} {hs : List Hold} (h : Accounted env cfg h₀ c hs)
    (hq : c.Quiet) {x : Nat × Hold} (hx : x ∈ tagged hs) : x.2.tok = .idle ∨ x.2.Moving := by
  have hx := mem_tagged.1 hx
  have hlt : x.1 < c.threads.length := by
    rw [← h.length]
    exact (List.getElem?_eq_some_iff.1 hx).1
  obtain ⟨r, hr⟩ := hq c.threads[x.1] (List.getElem_mem hlt)
  have hth : c.threads[x.1]? = some ⟨c.threads[x.1].label, .ret r⟩ := by
    rw [List.getElem?_eq_getElem hlt, ← hr]
  obtain ⟨hd, hhd, hw⟩ := h.ended hth
  cases hx.symm.trans hhd
  exact hw.1.imp_right And.right

/-- Without a device no page has a device buffer. -/
theorem Inv.noDevice (hi : Inv cfg σ T) (ho : Owned cfg lost exact σ) (he : exact) (hd : cfg.device = false) :
    ∀ p ∈ σ.table.bag, p.vramPtr = none := by
  intro p hp
  refine Option.not_isSome_iff_eq_none.1 fun hv => ?_
  have hle := ho.vramLe he (Keyed.lookup_of_mem hp) hv
  have hused := hi.wf.vram.used
  rw [TierBudget.usable, hi.wf.vramLimit.1, cfg.cpu_only hd, Nat.zero_sub] at hused
  obtain ⟨n, hn, hsize⟩ := (ho.placed p hp).size
  have hpos : 0 < n * cfg.pageSize := Nat.mul_pos hn cfg.page_pos
  omega

theorem fileHeld_started (cfg : RuntimeConfig) (retainStore : Bool) (workers : Nat) (σ : Shared) : (cfg.started workers σ).FileHeld retainStore :=
  fun hx => Bool.noConfusion hx

/-- Where the attempts start. -/
theorem Accounted.settled {env : Nat → Env → Shared → Prop} {h₀ : List Event} {hs : List Hold} (h : Accounted env cfg h₀ c hs) (hq : c.Quiet)
    (retainStore : Bool) (workers : Nat) :
    ∃ lost, Settled cfg retainStore lost (∀ e ∈ c.shared.history, e.releaseFailed = false) c.shared (cfg.started workers c.shared) ∧
      ((∀ e ∈ c.shared.history, e.releaseFailed = false) → lost = 0) := by
  have hi : Inv cfg c.shared (tagged hs) := h.inv
  have ho := hi.owned (fun x hx => h.ended_moving hq hx) (h.atRest hq)
  refine ⟨_, ⟨ho, .refl _, ⟨fun _ _ hd => hd, ?_, nofun, fun _ => rfl⟩, ?_, fun hd => ⟨hd, hd⟩, rfl⟩, fun hf => ?_⟩
  · rintro (he | hd) hdev
    · exact hi.noDevice ho he hdev
    · exact absurd (hdev.symm.trans hd) Bool.false_ne_true
  · exact fun hd hn => absurd (hn.symm.trans hd) Bool.false_ne_true
  · refine Multiset.sum_eq_zero fun y hy => ?_
    obtain ⟨x, hx, rfl⟩ := Multiset.mem_map.1 hy
    rw [Hold.leftBuffer, h.atRest hq hf x hx]

theorem started_settled (hr : Reached cfg disk c) (hq : c.Quiet) (retainStore : Bool) (workers : Nat) :
    ∃ lost, Settled cfg retainStore lost (∀ e ∈ c.shared.history, e.releaseFailed = false) c.shared (cfg.started workers c.shared) ∧
      ((∀ e ∈ c.shared.history, e.releaseFailed = false) → lost = 0) := by
  obtain ⟨hs, h⟩ := reached_accounted hr
  exact h.settled hq retainStore workers

/-! ## What teardown leaves -/

/-- After an attempt: no handle is given up twice and none is forgotten. -/
structure TornDown (cfg : RuntimeConfig) (retainStore : Bool) (σ₀ : Shared) (obj : Instance) : Prop where
  /-- a handle is still in its page's record, or teardown has given it up, once -/
  handles : ∃ evs, obj.shared.history = evs ++ σ₀.history ∧ σ₀.handles = obj.shared.handles + freedIn evs ∧ (freedIn evs).Nodup
  /-- a page is only kept for what could not be released -/
  kept : ∀ p ∈ obj.shared.table.bag, p.owned ≠ []
  /-- the buffers and extents in the records are live, and no other block of the device or extent is -/
  buffers : ∀ p ∈ obj.shared.table.bag, ∀ ptr, p.hostPtr = some ptr → (obj.shared.host.allocations.lookup ptr).isSome
  blocks : ∀ ptr, (obj.shared.device.lookup ptr).isSome ↔ ∃ p ∈ obj.shared.table.bag, p.vramPtr = some ptr
  extents : ∀ i, i < obj.shared.store.extentCount ∧ obj.shared.store.used i = true ↔ ∃ p ∈ obj.shared.table.bag, i ∈ p.extents cfg
  /-- the store is closed once no page has extents, the device once none of its memory is in use -/
  store : obj.storeOpened = false → ∀ p ∈ obj.shared.table.bag, p.nvmeOffset = none
  device : cfg.device = true → obj.device = false →
    (∀ p ∈ obj.shared.table.bag, p.vramPtr = none) ∧ ∀ a ∈ obj.shared.host.allocations.bag, a.pinned = false
  /-- the file is removed only from a store that is closed and not to be retained -/
  file : obj.storeFile = false → obj.storeOpened = false ∧ retainStore = false
  /-- a restart is refused as long as anything is left -/
  restart : obj.restart.isOk = true ↔ obj.Complete

/-- A device buffer or an extent of some page's. -/
theorem mem_total_dev {x : Ptr × Nat} (hx : x ∈ (σ.total cfg).dev) : ∃ p ∈ σ.table.bag, x ∈ (p.parts cfg).dev := by
  rw [Shared.total, map_sum_of_add Res.dev rfl (fun _ _ => rfl)] at hx
  exact Multiset.mem_bind.1 hx

theorem mem_total_ext {i : Nat} : i ∈ (σ.total cfg).ext ↔ ∃ p ∈ σ.table.bag, i ∈ p.extents cfg := by
  rw [Shared.total, map_sum_of_add Res.ext rfl (fun _ _ => rfl)]
  exact (Multiset.mem_bind : i ∈ σ.table.bag.bind (PageMetadata.extents cfg) ↔ _)

theorem Owned.blocks (h : Owned cfg lost exact σ) (ptr : Ptr) : (σ.device.lookup ptr).isSome ↔ ∃ p ∈ σ.table.bag, p.vramPtr = some ptr := by
  constructor
  · intro hs
    obtain ⟨a, ha⟩ := Option.isSome_iff_exists.1 hs
    obtain ⟨hmem, hkey⟩ := Keyed.lookup_some.1 ha
    have hmem : (a.ptr, a.bytes) ∈ σ.ledger.dev := Multiset.mem_map.2 ⟨a, hmem, rfl⟩
    rw [h.dev] at hmem
    obtain ⟨p, hp, hm⟩ := mem_total_dev hmem
    refine ⟨p, hp, ?_⟩
    rcases hv : p.vramPtr with _ | ptr'
    · simp [PageMetadata.parts, hv] at hm
    · simp only [PageMetadata.parts, hv, Multiset.mem_singleton] at hm
      rw [← hkey, (Prod.mk.inj hm).1]
  · rintro ⟨p, hp, hv⟩
    obtain ⟨a, ha, -⟩ := h.lookupDev (Keyed.lookup_of_mem hp) hv
    rw [ha]
    rfl

theorem Owned.extents (h : Owned cfg lost exact σ) (i : Nat) :
    i < σ.store.extentCount ∧ σ.store.used i = true ↔ ∃ p ∈ σ.table.bag, i ∈ p.extents cfg := by
  rw [← mem_total_ext, ← h.ext]
  exact Extents.mem_usedBag.symm

/-- `start` accepts the object once it is complete. -/
theorem AfterAttempt.restart (h : AfterAttempt cfg retainStore lost exact σ₀ obj) : obj.restart.isOk = true ↔ obj.Complete := by
  unfold Instance.restart
  rw [if_neg (by rw [h.flags.1, h.flags.2]; exact Bool.false_ne_true)]
  by_cases hx : obj.workers ≠ 0 ∨ obj.shared.table.items ≠ [] ∨ obj.device = true ∨ obj.nvme = true ∨ obj.storeOpened = true
  · rw [if_pos hx]
    refine ⟨nofun, fun hc => ?_⟩
    rw [hc.workers, hc.table, hc.nvme, hc.storeOpened, hc.device] at hx
    simp at hx
  · rw [if_neg hx]
    simp only [not_or, ne_eq, not_not, Bool.not_eq_true] at hx
    exact ⟨fun _ => ⟨hx.2.1, hx.1, hx.2.2.2.1, hx.2.2.2.2, hx.2.2.1⟩, fun _ => rfl⟩

theorem AfterAttempt.tornDown (h : AfterAttempt cfg retainStore lost exact σ₀ obj) (hf : obj.FileHeld retainStore) :
    TornDown cfg retainStore σ₀ obj where
  handles := by
    obtain ⟨evs, hh, hs⟩ := h.sheds
    refine ⟨evs, hh, hs, ?_⟩
    have hnd := nodup_handles σ₀
    rw [hs, Multiset.nodup_add] at hnd
    exact hnd.2.1
  kept := h.kept
  buffers p hp ptr hv := by
    obtain ⟨a, ha, -⟩ := h.owned.lookupHost (Keyed.lookup_of_mem hp) hv
    rw [ha]
    rfl
  blocks := h.owned.blocks
  extents := h.owned.extents
  store ho := h.members.noStore (by rw [ho, Bool.and_false])
  device hc hd := ⟨h.members.noDevice (.inr hc) hd, h.detached hc (h.order hd).1⟩
  file := hf
  restart := h.restart

/-- There is no page, no buffer and no extent, and nothing of the budgets is in use. -/
structure Bare (σ : Shared) : Prop where
  table : σ.table.items = []
  buffers : σ.host.allocations.items = []
  blocks : σ.device.items = []
  vram : σ.vramBudget.used = 0
  nvme : σ.nvmeBudget.used = 0
  host : σ.host.used = 0
  extents : σ.store.usedBag = 0
  io : σ.store.ioBag = 0

theorem Owned.bare (h : Owned cfg 0 exact σ) (he : exact) (ht : σ.table.items = []) : Bare σ := by
  have hbag : σ.table.bag = 0 := by
    rw [Keyed.bag, ht]
    rfl
  have hbuf := h.noBuffers ht
  have htotal : σ.total cfg = 0 := by
    rw [Shared.total, hbag]
    rfl
  refine ⟨ht, (Multiset.coe_eq_zero _).1 hbuf, ?_, ?_, ?_, ?_, ?_, h.io he⟩
  · refine (Multiset.coe_eq_zero _).1 (Multiset.map_eq_zero.1 (h.dev.trans ?_))
    rw [htotal]
    rfl
  · rw [h.vram he, htotal]
    rfl
  · rw [h.nvme, htotal]
    rfl
  · rw [h.hostUsed, hbuf]
    rfl
  · refine h.ext.trans ?_
    rw [htotal]
    rfl

/-- Nothing is lost in teardown, whatever fails in however many attempts, from any state in which no operation
is in progress. -/
theorem teardown_conserves (hr : Reached cfg disk c) (hq : c.Quiet) (workers : Nat) (retainStore : Bool) (t : Nat)
    (ωs : List TeardownAnswers) (ω : TeardownAnswers) :
    TornDown cfg retainStore c.shared (((cfg.started workers c.shared).shutdowns cfg retainStore t ωs).shutdown cfg retainStore t ω).2 := by
  obtain ⟨lost, hs, -⟩ := started_settled hr hq retainStore workers
  obtain ⟨hs, hf, -⟩ := shutdowns_settled (t := t) ωs hs (fileHeld_started cfg retainStore workers c.shared)
  obtain ⟨ha, -, -, hk⟩ := shutdown_settled (t := t) ω hs
  exact ha.tornDown (hk.held hf)

/-- A page on the device, which the device does not free in the first attempt; in the second nothing fails. -/
theorem teardown_conserves_refused : ∃ c, Reached (smallConfig 1 1 2) (fun _ => 0) c ∧ c.Quiet ∧ c.shared.handles ≠ 0 ∧
    TornDown (smallConfig 1 1 2) false c.shared
      ((((smallConfig 1 1 2).started 2 c.shared).shutdowns (smallConfig 1 1 2) false 7
        [{ deviceFree := fun _ => some ⟨.device, "free failed", ""⟩ }]).shutdown (smallConfig 1 1 2) false 7 {}).2 := by
  obtain ⟨c, hr, hq, hn⟩ := reached_of_test (smallConfig 1 1 2) (fun _ => 0)
    (.spawn (.allocate { logicalBytes := 10 }) :: turns 0 10)
    (fun c => c.Quiet ∧ c.shared.table.items.any (·.vramPtr.isSome) = true) (by decide +kernel)
  refine ⟨c, hr, hq, fun h0 => ?_, teardown_conserves hr hq 2 false 7 _ _⟩
  obtain ⟨p, hp, hv⟩ := List.any_eq_true.1 hn
  have hin : (p.id, Resource.vram) ∈ c.shared.handles := by
    refine Multiset.mem_bind.2 ⟨p, Keyed.mem_bag.2 hp, Multiset.mem_coe.2 (List.mem_map.2 ⟨.vram, ?_, rfl⟩)⟩
    simp [PageMetadata.owned, hv]
  rw [h0] at hin
  cases Multiset.notMem_zero _ hin

/-- `shutdown` returns normally only when it is done: nothing of the device, of the store or of a page is left, and
`start` may be called again. -/
theorem shutdown_reports (hr : Reached cfg disk c) (hq : c.Quiet) (workers : Nat) (retainStore : Bool) (t : Nat)
    (ωs : List TeardownAnswers) (ω : TeardownAnswers)
    (hnone : (((cfg.started workers c.shared).shutdowns cfg retainStore t ωs).shutdown cfg retainStore t ω).1 = none) :
    ∃ obj, (((cfg.started workers c.shared).shutdowns cfg retainStore t ωs).shutdown cfg retainStore t ω) = (none, obj) ∧
      obj.Complete ∧ obj.restart.isOk = true ∧ obj.shared.device.items = [] ∧
      (∀ i < obj.shared.store.extentCount, obj.shared.store.used i = false) ∧ obj.shared.nvmeBudget.used = 0 ∧
      (cfg.device = true → ∀ a ∈ obj.shared.host.allocations.bag, a.pinned = false) ∧
      ((∀ ω' ∈ ω :: ωs, ω'.destroyFile = none) → obj.storeFile = retainStore) := by
  obtain ⟨lost, hs, -⟩ := started_settled hr hq retainStore workers
  obtain ⟨hs, hheld, hfile⟩ := shutdowns_settled (t := t) ωs hs (fileHeld_started cfg retainStore workers c.shared)
  obtain ⟨ha, hc, -, hf⟩ := shutdown_settled (t := t) ω hs
  have hc := hc hnone
  have hbag : ∀ p ∈ (((cfg.started workers c.shared).shutdowns cfg retainStore t ωs).shutdown cfg retainStore t ω).2.shared.table.bag, False := by
    intro p hp
    have hp := Keyed.mem_bag.1 hp
    rw [hc.table] at hp
    cases hp
  refine ⟨_, Prod.ext hnone rfl, hc, ha.restart.2 hc, ?_, fun i hi => ?_, ?_, fun hd => ha.detached hd (ha.order hc.device).1, fun hd => ?_⟩
  · refine List.eq_nil_iff_forall_not_mem.2 fun a ham => ?_
    have hl := Keyed.lookup_of_mem (Keyed.mem_bag.2 ham)
    obtain ⟨p, hp, -⟩ := (ha.owned.blocks _).1 (by rw [hl]; rfl)
    exact hbag p hp
  · refine Bool.eq_false_of_not_eq_true fun hu => ?_
    obtain ⟨p, hp, -⟩ := (ha.owned.extents i).1 ⟨hi, hu⟩
    exact hbag p hp
  · rw [ha.owned.nvme, Shared.total, Multiset.eq_zero_of_forall_notMem fun p hp => hbag p hp]
    rfl
  · exact hf.right (hd ω (List.mem_cons_self ..)) hheld (hfile (fun ω' hω => hd ω' (List.mem_cons_of_mem _ hω)) fun hx => Bool.noConfusion hx) hc.storeOpened

theorem shutdown_reports_retry : ∃ c, Reached (smallConfig 1 1 2) (fun _ => 0) c ∧ c.Quiet ∧
    ∃ obj, (((smallConfig 1 1 2).started 2 c.shared).shutdowns (smallConfig 1 1 2) false 7
      [{ deviceFree := fun _ => some ⟨.device, "free failed", ""⟩ }]).shutdown (smallConfig 1 1 2) false 7 {} = (none, obj) ∧
      obj.Complete ∧ obj.storeFile = false := by
  obtain ⟨c, hr, hq, hn⟩ := reached_of_test (smallConfig 1 1 2) (fun _ => 0)
    (.spawn (.allocate { logicalBytes := 10 }) :: turns 0 10)
    (fun c => c.Quiet ∧ ((((smallConfig 1 1 2).started 2 c.shared).shutdowns (smallConfig 1 1 2) false 7
      [{ deviceFree := fun _ => some ⟨.device, "free failed", ""⟩ }]).shutdown (smallConfig 1 1 2) false 7 {}).1.isNone = true)
    (by decide +kernel)
  obtain ⟨obj, he, hc, -, -, -, -, -, hfile⟩ := shutdown_reports hr hq 2 false 7 _ _ (Option.isNone_iff_eq_none.1 hn)
  exact ⟨c, hr, hq, obj, he, hc, hfile (by simp)⟩

/-- Unless a release failed while the runtime was running, an attempt in which no call fails completes the
teardown, whatever failed in the attempts before it. -/
theorem teardown_completes (hr : Reached cfg disk c) (hq : c.Quiet) (hf : ∀ e ∈ c.shared.history, e.releaseFailed = false)
    (workers : Nat) (retainStore : Bool) (t : Nat) (ωs : List TeardownAnswers) (ω : TeardownAnswers) (hω : ω.Clean) :
    ∃ obj, (((cfg.started workers c.shared).shutdowns cfg retainStore t ωs).shutdown cfg retainStore t ω) = (none, obj) ∧
      obj.Complete ∧ obj.restart.isOk = true ∧ obj.shared.host.allocations.items = [] ∧ obj.shared.device.items = [] ∧
      obj.shared.vramBudget.used = 0 ∧ obj.shared.host.used = 0 ∧ obj.shared.nvmeBudget.used = 0 := by
  obtain ⟨lost, hs, hlost⟩ := started_settled hr hq retainStore workers
  obtain rfl := hlost hf
  obtain ⟨hs, -, -⟩ := shutdowns_settled (t := t) ωs hs (fileHeld_started cfg retainStore workers c.shared)
  obtain ⟨ha, hc, hnone, -⟩ := shutdown_settled (t := t) ω hs
  have hnone := hnone hf rfl hω
  have hc := hc hnone
  have hbare := ha.owned.bare hf hc.table
  exact ⟨_, Prod.ext hnone rfl, hc, ha.restart.2 hc, hbare.buffers, hbare.blocks, hbare.vram, hbare.host, hbare.nvme⟩

theorem teardown_completes_retry : ∃ c, Reached (smallConfig 1 1 2) (fun _ => 0) c ∧ c.Quiet ∧
    ∃ obj, (((smallConfig 1 1 2).started 2 c.shared).shutdowns (smallConfig 1 1 2) true 7
      [{ deviceFree := fun _ => some ⟨.device, "free failed", ""⟩ }, { close := some ⟨.io, "close failed", ""⟩ }]).shutdown
        (smallConfig 1 1 2) true 7 {} = (none, obj) ∧ obj.Complete ∧ obj.shared.vramBudget.used = 0 := by
  obtain ⟨c, hr, hq, hf⟩ := reached_of_test (smallConfig 1 1 2) (fun _ => 0)
    (.spawn (.allocate { logicalBytes := 10 }) :: turns 0 10)
    (fun c => c.Quiet ∧ ∀ e ∈ c.shared.history, e.releaseFailed = false) (by decide +kernel)
  obtain ⟨obj, he, hc, -, -, -, hv, -⟩ := teardown_completes hr hq hf 2 true 7
    [{ deviceFree := fun _ => some ⟨.device, "free failed", ""⟩ }, { close := some ⟨.io, "close failed", ""⟩ }] {}
    ⟨rfl, rfl, fun _ => ⟨rfl, rfl⟩, rfl, rfl, rfl, rfl, rfl, rfl⟩
  exact ⟨c, hr, hq, obj, he, hc, hv⟩

end FlashTier
