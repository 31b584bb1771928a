/-
`free_page`: the claim, the release of each resource and the last section. Between two sections the
thread accounts for what the page's record still points to; a resource is given back in three steps
(the backend's call, the field, the budget), and a failed call leaves the page released and at rest,
with what could not be given back.
-/
import FlashTier.Invariant.Allocation

namespace FlashTier

open Conc

variable {env : Nat → Env → Shared → Prop} {cfg : RuntimeConfig} {σ σ' : Shared} {w : Res} {T : Multiset (Nat × Hold)} {t : Nat} {ω : Env}
  {id : PageId} {p q m m' : PageMetadata} {ids : Multiset PageId} {b : Bool} {left : Res} {L : List Event}

/-! ## What a released page owns -/

theorem mem_owned_vram (p : PageMetadata) : .vram ∈ p.owned ↔ (p.parts cfg).dev ≠ 0 := by
  unfold PageMetadata.owned PageMetadata.parts
  rcases p.vramPtr with _ | v <;> rcases p.hostPtr with _ | a <;> rcases p.nvmeOffset with _ | o <;> simp

theorem mem_owned_host (p : PageMetadata) : .host ∈ p.owned ↔ (p.parts cfg).host ≠ 0 := by
  unfold PageMetadata.owned PageMetadata.parts
  rcases p.vramPtr with _ | v <;> rcases p.hostPtr with _ | a <;> rcases p.nvmeOffset with _ | o <;> simp

/-- The extents of a page are none only when it has no offset. -/
theorem extents_eq_zero (hw : WellFormed cfg p) : p.extents cfg = 0 ↔ p.nvmeOffset = none := by
  constructor
  · intro h
    rcases ho : p.nvmeOffset with _ | off
    · rfl
    · obtain ⟨first, rfl⟩ := hw.offset off ho
      obtain ⟨n, hn, -, hext⟩ := hw.extents ho
      have hcard := congrArg Multiset.card (hext.symm.trans h)
      rw [Extents.card_range, Multiset.card_zero] at hcard
      omega
  · intro h
    simp only [PageMetadata.extents, h]

theorem mem_owned_nvme (hw : WellFormed cfg p) : .nvme ∈ p.owned ↔ (p.parts cfg).ext ≠ 0 := by
  show _ ↔ p.extents cfg ≠ 0
  rw [Ne, extents_eq_zero hw]
  unfold PageMetadata.owned
  rcases p.vramPtr with _ | v <;> rcases p.hostPtr with _ | a <;> rcases p.nvmeOffset with _ | o <;> simp

/-- Once it is taken, a page has to release all that it owns. -/
theorem held_owned (hw : WellFormed cfg p) (h : List Event) : Held (.release t p.id p.owned :: h) p.id (p.parts cfg) := by
  have hh : heldIn (.release t p.id p.owned :: h) p.id = p.owned := if_pos rfl
  exact ⟨by rw [hh]; exact mem_owned_vram p, by rw [hh]; exact mem_owned_host p, by rw [hh]; exact mem_owned_nvme hw⟩

theorem Held.owned {h : List Event} (hh : Held h p.id (p.parts cfg)) (hw : WellFormed cfg p) (r : Resource) :
    r ∈ p.owned ↔ r ∈ heldIn h p.id := by
  cases r with
  | vram => exact (mem_owned_vram p).trans hh.vram.symm
  | host => exact (mem_owned_host p).trans hh.host.symm
  | nvme => exact (mem_owned_nvme hw).trans hh.nvme.symm

/-! ## The claim -/

theorem phase_eq_released {s : PageState} (h : s.phase = .released) : s = .released := by
  cases s <;> first | rfl | cases h

theorem phase_ne_absent (s : PageState) : s.phase ≠ .absent := by cases s <;> simp [PageState.phase]

/-- The record of a page `free_page` takes. -/
def PageMetadata.taken (p : PageMetadata) : PageMetadata :=
  { p with state := .released, currentTier := if p.state = .released then p.currentTier else .none, inFlight := true, pinned := false }

/-- The record of a released page: the page holds no bytes any more. -/
theorem RecordOk.released (hr : RecordOk cfg σ p) (hform : WellFormed cfg q) (hid : q.id = p.id) (hst : q.state = .released)
    (hs : q.allocationSize = p.allocationSize) (hck : q.checksum = p.checksum) (hph : phaseIn σ'.history p.id = .released)
    (hsize : sizeIn σ'.history p.id = sizeIn σ.history p.id) (hlw : lastWrite σ'.history p.id = lastWrite σ.history p.id) :
    RecordOk cfg σ' q := by
  refine ⟨hform, ?_, ?_, ?_, fun _ c hcc => ?_⟩
  · rw [hid, hph, hst]; rfl
  · rw [hid, hsize, hs]; exact hr.size
  · rw [hid, hlw, hck]; exact hr.checksum
  · rw [content_released hst] at hcc; cases hcc

/-- The end of the claim of `free_page`. -/
theorem Open.takeFree (ho : Open cfg σ (some p.id) (p.parts cfg + Res.idsOf ids) T) (hp : PageOk cfg σ p)
    (hpin : p.pinned = pinnedIn σ.history p.id) :
    Inv cfg ((σ.setPage { p.taken with pinned := p.pinned }).log (.release t p.id p.owned))
      ((t, ⟨.releasing p.taken (p.taken.parts cfg), ids⟩) ::ₘ T) := by
  have hok : EventOk (.release t p.id p.owned) σ.history := by
    refine ⟨by rw [hp.record.phase]; exact phase_ne_absent _, fun hrel r => ?_, hp.owners⟩
    rw [hp.record.phase] at hrel
    exact (hp.held (phase_eq_released hrel)).owned hp.record.form r
  have hf := hp.record.form
  have ho' := (ho.setPage (p := { p.taken with pinned := p.pinned }) rfl).logPage (e := .release t p.id p.owned) rfl hok (by simp)
  have hrec : RecordOk cfg ((σ.setPage { p.taken with pinned := p.pinned }).log (.release t p.id p.owned)) p.taken :=
    hp.record.released ⟨hf.size, hf.offset, trivial, hf.dirty, hf.copy⟩ rfl rfl rfl rfl (if_pos rfl) rfl rfl
  refine ho'.leaveClaim (lookup_setPage σ { p.taken with pinned := p.pinned }) rfl hpin rfl rfl
    ⟨⟨hrec, rfl, rfl, ?_⟩, rfl, rfl, held_owned hf σ.history, hrec.form.owes⟩
  show ownersIn (.release t p.id p.owned :: σ.history) p.id = [t]
  rw [ownersIn, if_pos rfl, hp.owners]

/-- How the claim of `free_page` ends. -/
def ClaimFreeEnds (cfg : RuntimeConfig) (t : Nat) (ids : Multiset PageId) (id : PageId) (σ : Shared) (evs : List Event)
    (r : Except Error PageMetadata) (h' : Hold) : Prop :=
  match r with
  | .ok m => m.id = id ∧ WellFormed cfg m ∧ h' = ⟨.releasing m.taken (m.taken.parts cfg), ids⟩ ∧ evs = [.release t id m.owned]
  | .error e => h' = ⟨.idle, ids⟩ ∧ evs = [] ∧
      (e = notFound id ∧ phaseIn σ.history id = .absent ∨ e.code = .cancelled ∧ σ.stopping = true)

/-- The claim of a page that is at rest. -/
theorem claimFree_run (hl : σ.table.lookup p.id = some p)
    (hst : p.state = .released ∨ transitionAllowed p.state .released = true) (hu : p.state ≠ .unallocated) :
    claimFree p.id t ω σ = (.ok p, ({ σ.setPage { p.taken with pinned := p.pinned } with
      prefetched := σ.prefetched.filter (· != p.id) }).log (.release t p.id p.owned)) := by
  have hw : withPage p.id (fun p => { p with inFlight := true }) t ω (σ.setPage (p.enter .released)) =
      (.ok (), σ.setPage { p.enter .released with inFlight := true }) := by
    have hl' : (σ.setPage (p.enter .released)).table.lookup p.id = some (p.enter .released) := lookup_setPage σ (p.enter .released)
    rw [withPage_some hl']
    exact congrArg (Prod.mk _) (setPage_setPage σ rfl)
  have htrans : transitionAllowed p.state .released = true →
      transition p.id .released t ω σ = (.ok (), σ.setPage (p.enter .released)) := fun h =>
    transition_some hl h (by simp [PageMetadata.dropUnsafe])
  unfold claimFree
  rw [Act.bind_ok (copyOf_some hl)]
  cases hs : p.state with
  | residentVram | residentHost | residentNvme | error =>
    rw [hs] at htrans
    simp only [Act.bind_apply, htrans rfl, hw]
    simp [record, PageMetadata.taken, PageMetadata.enter, PageMetadata.tierAfter, hs, Shared.log, Shared.setPage]
  | released =>
    simp [withPage_some hl, record, PageMetadata.taken, hs, Shared.log, Shared.setPage]
  | unallocated => exact absurd hs hu
  | _ => rw [hs] at hst; simp [transitionAllowed] at hst

/-- `free_page` goes on past a page in a transfer only when the runtime stops. -/
theorem claimFree_busy (hl : σ.table.lookup p.id = some p) (htr : p.state.transfer = true) :
    claimFree p.id t ω σ = (.error ⟨.cancelled, "page release cancelled during shutdown", toString p.id⟩, σ) := by
  unfold claimFree
  rw [Act.bind_ok (copyOf_some hl)]
  cases hs : p.state with
  | loadingToHost | loadingToVram | evictingToHost | evictingToNvme => rfl
  | _ => rw [hs] at htr; cases htr

theorem claimFree_ends (hi : Inv cfg σ ((t, ⟨.idle, ids⟩) ::ₘ T)) (hg : σ.releasable id = true) :
    Ends cfg t T σ (claimFree id t ω σ) (ClaimFreeEnds cfg t ids id σ) := by
  obtain ⟨ho, -⟩ := hi.enter rfl
  rcases hl : σ.table.lookup id with _ | p
  · unfold claimFree
    rw [Act.bind_error (copyOf_none hl)]
    refine ⟨[], _, ⟨rfl, by simp⟩, hi, rfl, rfl, .inl ⟨rfl, ?_⟩⟩
    by_contra hne
    have := hi.wf.present id hne
    rw [hl] at this
    cases this
  have hid := id_of_lookup hl
  subst hid
  simp only [Shared.releasable, hl] at hg
  by_cases htr : p.state.transfer = true
  · rw [if_pos htr] at hg
    rw [claimFree_busy hl htr]
    exact ⟨[], ⟨.idle, ids⟩, ⟨rfl, by simp⟩, hi, rfl, rfl, .inr ⟨rfl, hg⟩⟩
  rw [if_neg htr] at hg
  have hshape := (ho.record hl).form.shape
  have hu : p.state ≠ .unallocated := fun h => by simp [PageMetadata.Shape, h] at hshape
  have hst : p.state = .released ∨ transitionAllowed p.state .released = true := by
    revert htr
    cases p.state <;> simp [PageState.transfer, transitionAllowed]
  have hf : p.inFlight = false := by
    by_cases hrel : p.state = .released
    · simpa [hrel] using hg
    · exact ho.resting hl (by simpa using htr) hrel
  obtain ⟨ho', hok, hpin⟩ := ho.openPage hl hf
  rw [own_idle, add_comm] at ho'
  rw [claimFree_run hl hst hu]
  refine ⟨[.release t p.id p.owned], _, ⟨rfl, by simp [Event.thread]⟩, ?_, rfl, hok.record.form, rfl, rfl⟩
  exact Open.same (Open.takeFree ho' hok hpin) ⟨rfl, rfl, rfl, rfl, rfl, rfl, rfl, rfl, rfl, rfl, rfl⟩

/-! ## Sections of a release -/

/-- The record of a released page with some of its pointers cleared. -/
structure Cleared (cfg : RuntimeConfig) (m m' : PageMetadata) : Prop where
  id : m'.id = m.id
  state : m'.state = .released
  size : m'.allocationSize = m.allocationSize
  checksum : m'.checksum = m.checksum
  busy : m'.inFlight = true
  core : m'.pinned = false
  form : WellFormed cfg m'

theorem Cleared.refl (ht : Taken cfg σ t m) (hst : m.state = .released) : Cleared cfg m m :=
  ⟨rfl, hst, rfl, rfl, ht.busy, ht.core, ht.record.form⟩

/-- What is replayed of a page but what it has left to release. -/
structure Carries (h h' : List Event) (id : PageId) : Prop extends SameData h h' id where
  pinned : pinnedIn h' id = pinnedIn h id
  owners : ownersIn h' id = ownersIn h id

/-- The end of a section of a release. -/
theorem Open.leaveReleasing {left' : Res} (evs : List Event) (ho : Open cfg σ' (some m.id) (left' + Res.idsOf ids) T)
    (hl : σ'.table.lookup m.id = some { m' with pinned := b }) (hb : b = pinnedIn σ.history m.id)
    (htok : TokenOk cfg σ t (.releasing m left)) (hc : Cleared cfg m m') (hist : σ'.history = evs ++ σ.history)
    (he : ∀ e ∈ evs, e.thread = t) (hr : Carries σ.history σ'.history m.id) (hio : left'.io = 0)
    (hheld : Held σ'.history m.id left') (how : Owes cfg m' left') :
    Adds t evs σ σ' ∧ Inv cfg σ' ((t, ⟨.releasing m' left', ids⟩) ::ₘ T) := by
  obtain ⟨htk, hst, -⟩ := htok
  have hph : phaseIn σ'.history m.id = .released := by
    rw [hr.phase, htk.record.phase, hst]
    rfl
  have hrec : RecordOk cfg σ' m' := htk.record.released hc.form hc.id hc.state hc.size hc.checksum hph hr.size hr.written
  rw [← hc.id] at ho hl hheld
  refine ⟨⟨hist, he⟩, ho.leavePage hl ?_ hc.core hc.busy rfl rfl ⟨⟨hrec, hc.busy, hc.core, ?_⟩, hc.state, hio, hheld, how⟩⟩
  · rw [hc.id, hr.pinned]; exact hb
  · rw [hc.id, hr.owners]; exact htk.owners

/-- How the call that gives a resource back ends. -/
def FreeCallEnds (cfg : RuntimeConfig) (t : Nat) (ids : Multiset PageId) (m : PageMetadata) (left : Res) (freed evs : List Event)
    (r : Except Error Unit) (h' : Hold) : Prop :=
  match r with
  | .ok _ => h' = ⟨.releasing m left, ids⟩ ∧ evs = freed
  | .error _ => h' = ⟨.releasing m (m.parts cfg), ids⟩ ∧ ∃ c : Call, c.release = true ∧ evs = [.failed t c]

/-- A call that gave nothing back. -/
theorem Open.leaveUnreleased (c : Call) (ho : Open cfg σ (some m.id) (m.parts cfg + Res.idsOf ids) T)
    (hl : σ.table.lookup m.id = some { m with pinned := b }) (hb : b = pinnedIn σ.history m.id)
    (htok : TokenOk cfg σ t (.releasing m (m.parts cfg))) :
    Adds t [.failed t c] σ (σ.log (.failed t c)) ∧
      Inv cfg (σ.log (.failed t c)) ((t, ⟨.releasing m (m.parts cfg), ids⟩) ::ₘ T) := by
  have hh := htok.2.2.2.1
  refine (ho.logNone (e := .failed t c) rfl rfl).leaveReleasing [.failed t c] hl hb htok (.refl htok.1 htok.2.1) rfl (by simp [Event.thread])
    ⟨⟨rfl, rfl, rfl, rfl, ⟨[.failed t c], rfl⟩⟩, rfl, rfl⟩ rfl ⟨hh.vram, hh.host, hh.nvme⟩ htok.2.2.2.2

/-- After a resource is given back, the others are left. -/
theorem Held.freed {h : List Event} (hh : Held h id left) (r : Resource) (left' : Res)
    (hv : left'.dev = 0 ↔ r = .vram ∨ left.dev = 0) (ho : left'.host = 0 ↔ r = .host ∨ left.host = 0)
    (hn : left'.ext = 0 ↔ r = .nvme ∨ left.ext = 0) : Held (.freed t id r :: h) id left' := by
  have hmem : ∀ r', r' ∈ heldIn (.freed t id r :: h) id ↔ r' ∈ heldIn h id ∧ r' ≠ r := by simp [heldIn]
  refine ⟨?_, ?_, ?_⟩
  · simp only [hmem, hh.vram, ne_eq, hv, not_or, eq_comm (a := r)]; tauto
  · simp only [hmem, hh.host, ne_eq, ho, not_or, eq_comm (a := r)]; tauto
  · simp only [hmem, hh.nvme, ne_eq, hn, not_or, eq_comm (a := r)]; tauto

/-- The device buffer is given back. -/
theorem freeDevice_ends {v : Ptr} (hi : Inv cfg σ ((t, ⟨.releasing m (m.parts cfg), ids⟩) ::ₘ T)) (hv : m.vramPtr = some v) :
    Ends cfg t T σ ((do deviceFree cfg (some v); record fun t => .freed t m.id .vram : Sec Unit) t ω σ)
      (FreeCallEnds cfg t ids m (({ m with vramPtr := none } : PageMetadata).parts cfg + Res.vramOf m.allocationSize)
        [.freed t m.id .vram]) := by
  obtain ⟨b, hl, hb, -, -, ho, htok⟩ := hi.enterPage rfl
  have hdev : cfg.device = true := ho.device (Nat.add_pos_left (parts_vram_pos htok.1.record.form hv) _)
  have hparts : m.parts cfg = ({ m with vramPtr := none } : PageMetadata).parts cfg + Res.vramOf m.allocationSize +
      Res.devBuf v m.allocationSize := parts_vram rfl rfl rfl hv rfl
  have ho' := ho
  rw [show Hold.own cfg ⟨.releasing m (m.parts cfg), ids⟩ = m.parts cfg + Res.idsOf ids from rfl, hparts, add_right_comm] at ho'
  rcases ho'.deviceFree hdev t ω with ⟨e, hrun, -⟩ | ⟨hrun, ho'⟩
  · rw [Act.bind_error hrun]
    obtain ⟨hadds, hi'⟩ := ho.leaveUnreleased .deviceFree hl hb htok
    exact ⟨_, _, hadds, hi', rfl, .deviceFree, rfl, rfl⟩
  · rw [Act.bind_ok hrun]
    have hheld := htok.2.2.2.1.freed (t := t) .vram (({ m with vramPtr := none } : PageMetadata).parts cfg + Res.vramOf m.allocationSize)
      (by simp [PageMetadata.parts, Res.vramOf]) (by rw [hparts]; simp [Res.devBuf]) (by rw [hparts]; simp [Res.devBuf])
    have hmem : .vram ∈ heldIn σ.history m.id := htok.2.2.2.1.vram.2 (by rw [hparts]; simp [Res.devBuf])
    obtain ⟨hadds, hi'⟩ := (ho'.logPage (e := .freed t m.id .vram) rfl hmem (by simp)).leaveReleasing [.freed t m.id .vram] hl hb htok
      (.refl htok.1 htok.2.1) rfl (by simp [Event.thread]) ⟨⟨rfl, rfl, rfl, rfl, ⟨[.freed t m.id .vram], rfl⟩⟩, rfl, rfl⟩ rfl hheld
      (htok.2.2.2.2.congr rfl (add_zero _) (add_zero _))
    exact ⟨_, _, hadds, hi', rfl, rfl⟩

/-- The host buffer is given back, and its bytes with it. -/
theorem freeHostBuf_ends {a : Ptr} (hi : Inv cfg σ ((t, ⟨.releasing m (m.parts cfg), ids⟩) ::ₘ T)) (ha : m.hostPtr = some a) :
    Ends cfg t T σ ((do (do hostFree a m.allocationSize; record fun t => .refunded t m.id .host)
                        record fun t => .freed t m.id .host : Sec Unit) t ω σ)
      (FreeCallEnds cfg t ids m (({ m with hostPtr := none } : PageMetadata).parts cfg)
        [.freed t m.id .host, .refunded t m.id .host]) := by
  obtain ⟨b, hl, hb, -, -, ho, htok⟩ := hi.enterPage rfl
  have hparts : m.parts cfg = ({ m with hostPtr := none } : PageMetadata).parts cfg + Res.hostBuf a m.allocationSize :=
    parts_host rfl rfl ha rfl rfl
  have ho' := ho
  rw [show Hold.own cfg ⟨.releasing m (m.parts cfg), ids⟩ = m.parts cfg + Res.idsOf ids from rfl, hparts, add_right_comm] at ho'
  rcases ho'.hostFree t ω with ⟨e, hrun, -⟩ | ⟨x, hrun, ho'⟩
  · rw [Act.bind_error (Act.bind_error hrun)]
    obtain ⟨hadds, hi'⟩ := ho.leaveUnreleased .hostFree hl hb htok
    exact ⟨_, _, hadds, hi', rfl, .hostFree, rfl, rfl⟩
  · rw [Act.bind_ok (Act.bind_ok hrun)]
    have hheld := htok.2.2.2.1.freed (t := t) .host (({ m with hostPtr := none } : PageMetadata).parts cfg)
      (by rw [hparts]; simp [Res.hostBuf]) (by simp [PageMetadata.parts]) (by rw [hparts]; simp [Res.hostBuf])
    have hmem : .host ∈ heldIn σ.history m.id := htok.2.2.2.1.host.2 (by rw [hparts]; simp [Res.hostBuf])
    have ho' := (ho'.logNone (e := .refunded t m.id .host) rfl rfl).logPage (e := .freed t m.id .host) rfl hmem (by simp)
    obtain ⟨hadds, hi'⟩ := ho'.leaveReleasing [.freed t m.id .host, .refunded t m.id .host] hl hb htok (.refl htok.1 htok.2.1) rfl
      (by simp [Event.thread]) ⟨⟨rfl, rfl, rfl, rfl, ⟨[.freed t m.id .host, .refunded t m.id .host], rfl⟩⟩, rfl, rfl⟩ rfl
      ⟨hheld.vram, hheld.host, hheld.nvme⟩ (htok.2.2.2.2.congr rfl rfl rfl)
    exact ⟨_, _, hadds, hi', rfl, rfl⟩

/-- The extents are given back; this cannot fail. -/
theorem freeRange_ends {off : Nat} (hi : Inv cfg σ ((t, ⟨.releasing m (m.parts cfg), ids⟩) ::ₘ T)) (hoff : m.nvmeOffset = some off) :
    Ends cfg t T σ ((do freeExtents off (m.allocationSize / cfg.pageSize); record fun t => .freed t m.id .nvme : Sec Unit) t ω σ)
      (FreeCallEnds cfg t ids m (({ m with nvmeOffset := none, hasNvmeCopy := false } : PageMetadata).parts cfg +
        Res.nvmeOf m.allocationSize) [.freed t m.id .nvme]) := by
  obtain ⟨b, hl, hb, -, -, ho, htok⟩ := hi.enterPage rfl
  have hform := htok.1.record.form
  obtain ⟨first, rfl⟩ := hform.offset off hoff
  obtain ⟨n, hn, hs, -⟩ := hform.extents hoff
  have hparts : m.parts cfg = ({ m with nvmeOffset := none, hasNvmeCopy := false } : PageMetadata).parts cfg +
      Res.nvmeOf m.allocationSize + Res.extOf (Extents.range first n) := parts_nvme rfl rfl rfl rfl hoff hs
  rw [show Hold.own cfg ⟨.releasing m (m.parts cfg), ids⟩ = m.parts cfg + Res.idsOf ids from rfl, hparts, add_right_comm] at ho
  obtain ⟨s, hrun, ho'⟩ := ho.freeExtents_run hn (by simp [PageMetadata.parts, Res.nvmeOf, Res.idsOf]) t ω
  rw [hs, Nat.mul_div_cancel _ cfg.page_pos, Act.bind_ok hrun]
  have hne : Extents.range first n ≠ 0 := fun h => by
    have := congrArg Multiset.card h
    rw [Extents.card_range, Multiset.card_zero] at this
    omega
  have hheld := htok.2.2.2.1.freed (t := t) .nvme (({ m with nvmeOffset := none, hasNvmeCopy := false } : PageMetadata).parts cfg +
    Res.nvmeOf m.allocationSize) (by rw [hparts]; simp [Res.extOf]) (by rw [hparts]; simp [Res.extOf])
    (by simp [PageMetadata.parts, PageMetadata.extents, Res.nvmeOf])
  -- the bytes are still to be refunded
  have how : Owes cfg m (({ m with nvmeOffset := none, hasNvmeCopy := false } : PageMetadata).parts cfg + Res.nvmeOf m.allocationSize) := by
    have hpos : 0 < m.allocationSize := by
      rw [hs]
      exact Nat.mul_pos hn cfg.page_pos
    refine ⟨by simp [PageMetadata.parts, PageMetadata.extents, Res.nvmeOf], fun he => ?_⟩
    simp [PageMetadata.parts, PageMetadata.extents, Res.nvmeOf] at he
    omega
  have hmem : .nvme ∈ heldIn σ.history m.id := htok.2.2.2.1.nvme.2 (by rw [hparts]; simpa [Res.extOf] using fun _ _ => hne)
  obtain ⟨hadds, hi'⟩ := (ho'.logPage (e := .freed t m.id .nvme) rfl hmem (by simp)).leaveReleasing [.freed t m.id .nvme] hl hb htok
    (.refl htok.1 htok.2.1) rfl (by simp [Event.thread]) ⟨⟨rfl, rfl, rfl, rfl, ⟨[.freed t m.id .nvme], rfl⟩⟩, rfl, rfl⟩ rfl hheld how
  rw [hs] at hi'
  exact ⟨_, _, hadds, hi', rfl, rfl⟩

/-- The field of a resource that was given back is cleared. -/
theorem clear_ends {f : PageMetadata → PageMetadata} (hi : Inv cfg σ ((t, ⟨.releasing m left, ids⟩) ::ₘ T))
    (hf : ∀ b, f { m with pinned := b } = { m' with pinned := b }) (hc : Cleared cfg m m → Cleared cfg m m')
    (how : Owes cfg m left → Owes cfg m' left) :
    Ends cfg t T σ (withPage m.id f t ω σ) fun evs r h' => evs = [] ∧ r = .ok () ∧ h' = ⟨.releasing m' left, ids⟩ := by
  obtain ⟨b, hl, hb, -, -, ho, htok⟩ := hi.enterPage rfl
  have hc := hc (.refl htok.1 htok.2.1)
  have hid : ({ m' with pinned := b } : PageMetadata).id = m.id := hc.id
  rw [withPage_some hl, hf b]
  have hl' : (σ.setPage { m' with pinned := b }).table.lookup m.id = some { m' with pinned := b } := by
    rw [← hid]
    exact lookup_setPage σ _
  obtain ⟨hadds, hi'⟩ := (ho.setPage hid).leaveReleasing [] hl' hb htok hc rfl (by simp) ⟨SameData.refl _ _, rfl, rfl⟩ htok.2.2.1
    htok.2.2.2.1 (how htok.2.2.2.2)
  exact ⟨[], _, hadds, hi', rfl, rfl, rfl⟩

/-- The bytes of a resource that was given back are subtracted from its budget. -/
theorem refund_ends {x : Res} {release : Sec Unit} (r : Resource) (hi : Inv cfg σ ((t, ⟨.releasing m (m.parts cfg + x), ids⟩) ::ₘ T))
    (hx : x.dev = 0 ∧ x.host = 0 ∧ x.ext = 0)
    (hrel : ∀ A w, Open cfg σ A (w + x) T → ∃ σ', release t ω σ = (.ok (), σ') ∧ Open cfg σ' A w T ∧ σ'.table = σ.table ∧
      σ'.history = σ.history) :
    Ends cfg t T σ ((do release; record fun t => .refunded t m.id r : Sec Unit) t ω σ) fun evs r' h' =>
      evs = [.refunded t m.id r] ∧ r' = .ok () ∧ h' = ⟨.releasing m (m.parts cfg), ids⟩ := by
  obtain ⟨b, hl, hb, -, -, ho, htok⟩ := hi.enterPage rfl
  rw [show Hold.own cfg ⟨.releasing m (m.parts cfg + x), ids⟩ = m.parts cfg + x + Res.idsOf ids from rfl, add_right_comm] at ho
  obtain ⟨σ', hrun, ho', ht, hh⟩ := hrel _ _ ho
  rw [Act.bind_ok hrun]
  have hhist : (σ'.log (.refunded t m.id r)).history = [.refunded t m.id r] ++ σ.history := by rw [← hh]; rfl
  have hheld : Held (σ'.log (.refunded t m.id r)).history m.id (m.parts cfg) := by
    rw [hhist]
    refine ⟨htok.2.2.2.1.vram.trans ?_, htok.2.2.2.1.host.trans ?_, htok.2.2.2.1.nvme.trans ?_⟩
    · rw [Res.add_dev, hx.1, add_zero]
    · rw [Res.add_host, hx.2.1, add_zero]
    · rw [Res.add_ext, hx.2.2, add_zero]
  obtain ⟨hadds, hi'⟩ := (ho'.logNone (e := .refunded t m.id r) rfl rfl).leaveReleasing [.refunded t m.id r]
    (b := b) (by rw [← ht] at hl; exact hl) hb htok (.refl htok.1 htok.2.1) hhist (by simp [Event.thread])
    (by rw [hhist]; exact ⟨⟨rfl, rfl, rfl, rfl, ⟨[.refunded t m.id r], rfl⟩⟩, rfl, rfl⟩) rfl hheld htok.1.record.form.owes
  exact ⟨_, _, hadds, hi', rfl, rfl, rfl⟩

/-! ## The release of one resource -/

/-- How the release of a resource ends: it is given back and the record cleared, or the call failed and
all is as before. -/
def StepEnds (cfg : RuntimeConfig) (t : Nat) (ids : Multiset PageId) (L : List Event) (m m' : PageMetadata) (s : FreeStatus)
    (evs : List Event) (σ' : Shared) (x : Except Error FreeStatus) (h' : Hold) : Prop :=
  (x = .ok s ∧ h' = ⟨.releasing m' (m'.parts cfg), ids⟩ ∧ Log t (evs ++ L) σ') ∨
  ∃ s' c, x = .ok s' ∧ s'.failed = true ∧ s'.firstError.isSome = true ∧ h' = ⟨.releasing m (m.parts cfg), ids⟩ ∧
    Call.release c = true ∧ Log t (.failed t c :: L) σ'

theorem FreeStatus.isSome_orElse (s : FreeStatus) (e : Error) : (s.orElse e).firstError.isSome = true := by
  unfold FreeStatus.orElse
  cases s.firstError <;> rfl

/-- The three steps of the release of a resource. -/
theorem freeResource_wp {r : Resource} {s : FreeStatus} {free clear : Sec Unit} {release : Option (Sec Unit)}
    (fe re : List Event) (hL : Log t L σ)
    (hfree : ∀ ω σ T, Inv cfg σ ((t, ⟨.releasing m (m.parts cfg), ids⟩) ::ₘ T) →
      Ends cfg t T σ ((do free; record fun t => .freed t id r : Sec Unit) t ω σ) (FreeCallEnds cfg t ids m left fe))
    (hclear : ∀ ω σ T, Inv cfg σ ((t, ⟨.releasing m left, ids⟩) ::ₘ T) →
      Ends cfg t T σ (clear t ω σ) fun evs r h' => evs = [] ∧ r = .ok () ∧ h' = ⟨.releasing m' left, ids⟩)
    (hrel : match release with
      | none => left = m'.parts cfg ∧ re = []
      | some rel => ∀ ω σ T, Inv cfg σ ((t, ⟨.releasing m' left, ids⟩) ::ₘ T) →
          Ends cfg t T σ ((do rel; record fun t => .refunded t id r : Sec Unit) t ω σ) fun evs r h' =>
            evs = re ∧ r = .ok () ∧ h' = ⟨.releasing m' (m'.parts cfg), ids⟩) :
    wp (logic env cfg) t (freeResource r id s free clear release) σ ⟨.releasing m (m.parts cfg), ids⟩
      (StepEnds cfg t ids L m m' s (re ++ fe)) := by
  unfold freeResource
  refine wp_andThen (wp_mono (fun σ₁ x h₁ _ hq => ?_) (wp_section hL fun ω σ T _ _ hi => hfree ω σ T hi))
  obtain ⟨evs, hL₁, hq⟩ := hq
  cases x with
  | error e =>
    obtain ⟨rfl, c, hc, rfl⟩ := hq
    exact .inr ⟨_, c, rfl, rfl, s.isSome_orElse e, rfl, hc, hL₁⟩
  | ok u =>
    obtain ⟨rfl, rfl⟩ := hq
    refine wp_andThen (wp_mono (fun σ₂ x h₂ _ hq => ?_) (wp_section hL₁ fun ω σ T _ _ hi => hclear ω σ T hi))
    obtain ⟨evs', hL₂, rfl, rfl, rfl⟩ := hq
    cases release with
    | none =>
      obtain ⟨rfl, rfl⟩ := hrel
      exact .inl ⟨rfl, rfl, hL₂⟩
    | some rel =>
      refine wp_andThen (wp_mono (fun σ₃ x h₃ _ hq => ?_) (wp_section hL₂ fun ω σ T _ _ hi => hrel ω σ T hi))
      obtain ⟨evs'', hL₃, rfl, rfl, rfl⟩ := hq
      refine .inl ⟨rfl, rfl, ?_⟩
      rwa [List.append_assoc]

/-- What the release of a resource records. -/
def releaseEvents (t : Nat) (id : PageId) : Resource → List Event
  | .vram => [.refunded t id .vram, .freed t id .vram]
  | .host => [.freed t id .host, .refunded t id .host]
  | .nvme => [.refunded t id .nvme, .freed t id .nvme]

/-- What the step of a resource records when no call fails. -/
def stepEvents (t : Nat) (id : PageId) (owned : List Resource) (r : Resource) : List Event :=
  if r ∈ owned then releaseEvents t id r else []

theorem PageMetadata.mem_owned_vram_iff (p : PageMetadata) : .vram ∈ p.owned ↔ p.vramPtr.isSome := by
  unfold PageMetadata.owned
  rcases p.vramPtr with _ | v <;> rcases p.hostPtr with _ | a <;> rcases p.nvmeOffset with _ | o <;> simp

theorem PageMetadata.mem_owned_host_iff (p : PageMetadata) : .host ∈ p.owned ↔ p.hostPtr.isSome := by
  unfold PageMetadata.owned
  rcases p.vramPtr with _ | v <;> rcases p.hostPtr with _ | a <;> rcases p.nvmeOffset with _ | o <;> simp

theorem PageMetadata.mem_owned_nvme_iff (p : PageMetadata) : .nvme ∈ p.owned ↔ p.nvmeOffset.isSome := by
  unfold PageMetadata.owned
  rcases p.vramPtr with _ | v <;> rcases p.hostPtr with _ | a <;> rcases p.nvmeOffset with _ | o <;> simp

/-- Nothing is left to do for a resource the page does not own. -/
theorem stepEnds_none {s : FreeStatus} {owned : List Resource} {r : Resource} (hL : Log t L σ) (hr : r ∉ owned) (hm : m' = m) :
    wp (logic env cfg) t (pure s : Code FreeStatus) σ ⟨.releasing m (m.parts cfg), ids⟩
      (StepEnds cfg t ids L m m' s (stepEvents t id owned r)) := by
  subst hm
  refine .inl ⟨rfl, rfl, ?_⟩
  rw [stepEvents, if_neg hr]
  exact hL

theorem freeVram_wp {c : PageMetadata} {s : FreeStatus} (hL : Log t L σ) (hs : m.allocationSize = c.allocationSize)
    (hv : m.vramPtr = c.vramPtr) :
    wp (logic env cfg) t (freeVram cfg m.id c s) σ ⟨.releasing m (m.parts cfg), ids⟩
      (StepEnds cfg t ids L m { m with vramPtr := none } s (stepEvents t m.id c.owned .vram)) := by
  unfold freeVram
  rcases hc : c.vramPtr with _ | v
  · refine stepEnds_none hL (by rw [c.mem_owned_vram_iff, hc]; simp) ?_
    rw [← hc, ← hv]
  · rw [stepEvents, if_pos ((c.mem_owned_vram_iff).2 (by rw [hc]; rfl)), ← hs]
    refine freeResource_wp [.freed t m.id .vram] [.refunded t m.id .vram] hL
      (fun ω σ T hi => freeDevice_ends hi (hv.trans hc))
      (fun ω σ T hi => clear_ends hi (fun _ => rfl) (fun hc => ?_) fun h => h.congr rfl rfl rfl) ?_
    · exact ⟨rfl, hc.state, rfl, rfl, hc.busy, hc.core, hc.form.size, hc.form.offset, by simp [PageMetadata.Shape, hc.state], hc.form.dirty, hc.form.copy⟩
    · exact fun ω σ T hi => refund_ends (m := { m with vramPtr := none }) .vram hi ⟨rfl, rfl, rfl⟩ fun A w ho => by
        obtain ⟨b, hrun, ho'⟩ := ho.vramRelease t ω
        exact ⟨_, hrun, ho', rfl, rfl⟩

theorem freeHost_wp {c : PageMetadata} {s : FreeStatus} (hL : Log t L σ) (hs : m.allocationSize = c.allocationSize)
    (hv : m.hostPtr = c.hostPtr) :
    wp (logic env cfg) t (freeHost m.id c s) σ ⟨.releasing m (m.parts cfg), ids⟩
      (StepEnds cfg t ids L m { m with hostPtr := none } s (stepEvents t m.id c.owned .host)) := by
  unfold freeHost
  rcases hc : c.hostPtr with _ | a
  · refine stepEnds_none hL (by rw [c.mem_owned_host_iff, hc]; simp) ?_
    rw [← hc, ← hv]
  · rw [stepEvents, if_pos ((c.mem_owned_host_iff).2 (by rw [hc]; rfl)), ← hs]
    refine freeResource_wp [.freed t m.id .host, .refunded t m.id .host] [] hL
      (fun ω σ T hi => freeHostBuf_ends hi (hv.trans hc))
      (fun ω σ T hi => clear_ends hi (fun _ => rfl) (fun hc => ?_) fun h => h.congr rfl rfl rfl) ⟨rfl, rfl⟩
    exact ⟨rfl, hc.state, rfl, rfl, hc.busy, hc.core, hc.form.size, hc.form.offset, by simp [PageMetadata.Shape, hc.state], hc.form.dirty, hc.form.copy⟩

theorem freeNvme_wp {c : PageMetadata} {s : FreeStatus} (hL : Log t L σ) (hs : m.allocationSize = c.allocationSize)
    (hv : m.nvmeOffset = c.nvmeOffset) (hcopy : c.nvmeOffset = none → m.hasNvmeCopy = false) :
    wp (logic env cfg) t (freeNvme cfg m.id c s) σ ⟨.releasing m (m.parts cfg), ids⟩
      (StepEnds cfg t ids L m { m with nvmeOffset := none, hasNvmeCopy := false } s (stepEvents t m.id c.owned .nvme)) := by
  unfold freeNvme
  rcases hc : c.nvmeOffset with _ | off
  · refine stepEnds_none hL (by rw [c.mem_owned_nvme_iff, hc]; simp) ?_
    rw [← hc, ← hv, ← hcopy hc]
  · rw [stepEvents, if_pos ((c.mem_owned_nvme_iff).2 (by rw [hc]; rfl)), ← hs]
    refine freeResource_wp [.freed t m.id .nvme] [.refunded t m.id .nvme] hL
      (fun ω σ T hi => freeRange_ends hi (hv.trans hc))
      (fun ω σ T hi => clear_ends hi (fun _ => rfl) (fun hc => ?_) fun h => ⟨h.bytes, fun _ => add_zero _⟩) ?_
    · exact ⟨rfl, hc.state, rfl, rfl, hc.busy, hc.core, hc.form.size, nofun, by simp [PageMetadata.Shape, hc.state], fun _ => rfl, nofun⟩
    · exact fun ω σ T hi => refund_ends (m := { m with nvmeOffset := none, hasNvmeCopy := false }) .nvme hi ⟨rfl, rfl, rfl⟩
        fun A w ho => by
          obtain ⟨b, hrun, ho'⟩ := ho.nvmeRelease t ω
          exact ⟨_, hrun, ho', rfl, rfl⟩

/-! ## The last section -/

/-- The page is erased when all it owned is given back. -/
theorem finishFree_erases (hi : Inv cfg σ ((t, ⟨.releasing m (m.parts cfg), ids⟩) ::ₘ T)) (hp : m.parts cfg = 0) :
    Ends cfg t T σ (finishFree m.id false t ω σ) fun evs r h' => evs = [.erase t m.id] ∧ r = .ok () ∧ h' = ⟨.idle, ids⟩ := by
  obtain ⟨b, hl, hb, -, -, ho, htok⟩ := hi.enterPage rfl
  rw [show Hold.own cfg ⟨.releasing m (m.parts cfg), ids⟩ = m.parts cfg + Res.idsOf ids from rfl, hp, zero_add] at ho
  have hph : phaseIn σ.history m.id = .released := by
    rw [htok.1.record.phase, htok.2.1]
    rfl
  have ho' := (ho.logPage (e := .erase t m.id) rfl hph (by simp)).erasePage (if_pos rfl)
  exact ⟨[.erase t m.id], _, ⟨rfl, by simp [Event.thread]⟩, ho'.leave (own_idle ids).symm rfl trivial, rfl, rfl, rfl⟩

/-- Otherwise it is left at rest, released, with what could not be given back. -/
theorem finishFree_keeps (hi : Inv cfg σ ((t, ⟨.releasing m (m.parts cfg), ids⟩) ::ₘ T)) :
    Ends cfg t T σ (finishFree m.id true t ω σ) fun evs r h' =>
      evs = [.settle t m.id .released false] ∧ r = .ok () ∧ h' = ⟨.idle, ids⟩ := by
  obtain ⟨b, hl, hb, -, -, ho, htok⟩ := hi.enterPage rfl
  obtain ⟨htk, hst, -, hheld, -⟩ := htok
  have hf := htk.record.form
  have hph : phaseIn σ.history m.id = .released := by
    rw [htk.record.phase, hst]
    rfl
  have hrec : RecordOk cfg σ { m with pinned := b, inFlight := false } :=
    htk.record.released ⟨hf.size, hf.offset, by simp [PageMetadata.Shape, hst], hf.dirty, hf.copy⟩ rfl hst rfl rfl hph rfl rfl
  rw [show Hold.own cfg ⟨.releasing m (m.parts cfg), ids⟩ = Res.idsOf ids + m.parts cfg from add_comm _ _] at ho
  have hi' := ho.settle (t := t) (q := { m with pinned := b, inFlight := false }) (h := ⟨.idle, ids⟩) rfl rfl hb htk.owners hrec
    (by rw [hst]; rfl) (fun h => absurd (hst.symm.trans h) (by decide)) (fun _ => hheld) rfl (own_idle ids).symm rfl trivial
  have hl' : (σ.setPage { m with pinned := b, inFlight := false }).table.lookup m.id = some { m with pinned := b, inFlight := false } :=
    lookup_setPage σ { m with pinned := b, inFlight := false }
  have hrun : finishFree m.id true t ω σ = (.ok (), (σ.setPage { m with pinned := b, inFlight := false }).log
      (.settle t m.id m.state false)) := by
    show (withPage m.id (fun p => { p with inFlight := false }) >>= fun _ => recordSettle m.id) t ω σ = _
    rw [Act.bind_ok (withPage_some hl _)]
    exact recordSettle_some hl'
  rw [hrun]
  exact ⟨[.settle t m.id m.state false], _, ⟨rfl, by simp [Event.thread]⟩, hi', by rw [hst], rfl, rfl⟩

/-! ## The whole operation -/

/-- What a `free_page` that erases the page records, its latest event first. -/
def freeEvents (t : Nat) (id : PageId) (owned : List Resource) : List Event :=
  [.notified t, .erase t id] ++ (stepEvents t id owned .nvme ++ (stepEvents t id owned .host ++
    (stepEvents t id owned .vram ++ [.release t id owned])))

/-- A release call failed, and the page was left released. -/
def LeftReleased (t : Nat) (id : PageId) (L : List Event) (σ' : Shared) : Prop :=
  ∃ evs c owned, Log t (evs ++ .release t id owned :: L) σ' ∧ Call.release c = true ∧ .failed t c ∈ evs ∧
    .settle t id .released false ∈ evs

/-- The runtime may be found not running. -/
def Halting (env : Nat → Env → Shared → Prop) (t : Nat) : Prop := ∃ ω σ, env t ω σ ∧ (σ.running = false ∨ σ.stopping = true)

/-- How `free_page` ends: the page is erased; or the page was not there at some moment since `h₀`, or
the runtime stops, and nothing was done; or a release call failed; or the last event could not be
emitted. -/
def FreeEnds (env : Nat → Env → Shared → Prop) (t : Nat) (ids : Multiset PageId) (id : PageId) (h₀ L : List Event) (σ' : Shared)
    (r : Except Error Unit) (h' : Hold) : Prop :=
  h' = ⟨.idle, ids⟩ ∧ match r with
  | .ok _ => ∃ owned, Log t (freeEvents t id owned ++ L) σ'
  | .error e =>
    Log t L σ' ∧ (e = notFound id ∧ (∃ h, h₀ <:+ h ∧ h <:+ σ'.history ∧ phaseIn h id = .absent) ∨
      Halting env t) ∨
    LeftReleased t id L σ' ∨
    (∃ ω σ, env t ω σ ∧ ω.emit = some e) ∧ ∃ owned, Log t (freeEvents t id owned ++ L) σ'

/-- A release call failed, and the release goes on. -/
def Failing (t : Nat) (L : List Event) (s : FreeStatus) (σ : Shared) : Prop :=
  s.failed = true ∧ s.firstError.isSome = true ∧ ∃ evs c, Log t (evs ++ L) σ ∧ Call.release c = true ∧ .failed t c ∈ evs

/-- How the release stands: `c` is the copy of the record it works from, and `m` the record, where `P`
holds of what is still to do and `D` of what is done when no call failed, with the events `evs`. -/
def Standing (cfg : RuntimeConfig) (t : Nat) (ids : Multiset PageId) (L : List Event) (c : PageMetadata)
    (P D : PageMetadata → Prop) (evs : List Event) (σ : Shared) (x : Except Error FreeStatus) (h : Hold) : Prop :=
  ∃ s m, x = .ok s ∧ h = ⟨.releasing m (m.parts cfg), ids⟩ ∧ m.id = c.id ∧ m.allocationSize = c.allocationSize ∧ P m ∧
    (s = {} ∧ D m ∧ Log t (evs ++ L) σ ∨ Failing t L s σ)

/-- The release of one more resource, and what follows it. -/
theorem Standing.bind {c : PageMetadata} {P D : PageMetadata → Prop} {evs : List Event} {s : FreeStatus} {h : Hold}
    {prog : FreeStatus → Code FreeStatus} {R : FreeStatus → Code Unit} {Q : Shared → Except Error Unit → Hold → Prop}
    (P₁ D₁ : PageMetadata → Prop) (evs₁ : List Event) (clr : PageMetadata → PageMetadata)
    (hst : Standing cfg t ids L c P D evs σ (.ok s) h)
    (hstep : ∀ s m L₁, m.id = c.id → m.allocationSize = c.allocationSize → P m → Log t L₁ σ →
      wp (logic env cfg) t (prog s) σ ⟨.releasing m (m.parts cfg), ids⟩ (StepEnds cfg t ids L₁ m (clr m) s evs₁))
    (hclr : ∀ m, (clr m).id = m.id ∧ (clr m).allocationSize = m.allocationSize) (hP : ∀ m, P m → P₁ m ∧ P₁ (clr m))
    (hD : ∀ m, D m → D₁ (clr m))
    (hR : ∀ σ₁ s₁ h₁, σ.history <:+ σ₁.history → Standing cfg t ids L c P₁ D₁ (evs₁ ++ evs) σ₁ (.ok s₁) h₁ →
      wp (logic env cfg) t (R s₁) σ₁ h₁ Q) :
    wp (logic env cfg) t (prog s >>= R) σ h Q := by
  obtain ⟨_, m, hx, rfl, hid, hs, hp, hlog⟩ := hst
  cases hx
  have hids : (clr m).id = c.id ∧ (clr m).allocationSize = c.allocationSize := ⟨(hclr m).1.trans hid, (hclr m).2.trans hs⟩
  have hno : ∀ {L₁ σ₁ e h₁}, StepEnds cfg t ids L₁ m (clr m) s evs₁ σ₁ (.error e) h₁ → False := fun hq => by
    rcases hq with ⟨hx, -⟩ | ⟨_, _, hx, -⟩ <;> cases hx
  rcases hlog with ⟨rfl, hd, hL⟩ | ⟨hf, he, evs', k, hL, hk, hm⟩
  · refine wp_bind (hstep _ m _ hid hs hp hL) (fun σ₁ s₁ h₁ hle hq => hR σ₁ s₁ h₁ hle ?_) fun _ _ _ _ hq => (hno hq).elim
    rcases hq with ⟨hx, rfl, hL'⟩ | ⟨s', k, hx, hf, he, rfl, hk, hL'⟩
    · cases hx
      exact ⟨_, _, rfl, rfl, hids.1, hids.2, (hP m hp).2, .inl ⟨rfl, hD m hd, by rwa [List.append_assoc]⟩⟩
    · cases hx
      exact ⟨_, _, rfl, rfl, hid, hs, (hP m hp).1, .inr ⟨hf, he, .failed t k :: evs, k, hL', hk, List.mem_cons_self ..⟩⟩
  · refine wp_bind (hstep _ m _ hid hs hp hL) (fun σ₁ s₁ h₁ hle hq => hR σ₁ s₁ h₁ hle ?_) fun _ _ _ _ hq => (hno hq).elim
    rcases hq with ⟨hx, rfl, hL'⟩ | ⟨s', k', hx, hf', he', rfl, hk', hL'⟩
    · cases hx
      exact ⟨_, _, rfl, rfl, hids.1, hids.2, (hP m hp).2, .inr ⟨hf, he, evs₁ ++ evs', k, by rwa [List.append_assoc], hk,
        List.mem_append_right _ hm⟩⟩
    · cases hx
      exact ⟨_, _, rfl, rfl, hid, hs, (hP m hp).1, .inr ⟨hf', he', .failed t k' :: evs', k', hL', hk', List.mem_cons_self ..⟩⟩

/-- The release of the three resources. -/
theorem freeAll_wp {c : PageMetadata} {R : FreeStatus → Code Unit} {Q : Shared → Except Error Unit → Hold → Prop} (hL : Log t L σ)
    (hw : WellFormed cfg c)
    (hR : ∀ σ' s h, σ.history <:+ σ'.history → Standing cfg t ids L c (fun _ => True) (fun m => m.parts cfg = 0)
      (stepEvents t c.id c.owned .nvme ++ (stepEvents t c.id c.owned .host ++ (stepEvents t c.id c.owned .vram ++ []))) σ' (.ok s) h →
      wp (logic env cfg) t (R s) σ' h Q) :
    wp (logic env cfg) t (do
      let s ← freeVram cfg c.id c {}
      let s ← freeHost c.id c s
      let s ← freeNvme cfg c.id c s
      R s) σ ⟨.releasing c.taken (c.taken.parts cfg), ids⟩ Q := by
  have h0 : Standing cfg t ids L c
      (fun m => m.vramPtr = c.vramPtr ∧ m.hostPtr = c.hostPtr ∧ m.nvmeOffset = c.nvmeOffset ∧ m.hasNvmeCopy = c.hasNvmeCopy)
      (fun _ => True) [] σ (.ok {}) ⟨.releasing c.taken (c.taken.parts cfg), ids⟩ :=
    ⟨{}, c.taken, rfl, rfl, rfl, rfl, ⟨rfl, rfl, rfl, rfl⟩, .inl ⟨rfl, trivial, hL⟩⟩
  refine h0.bind (fun m => m.hostPtr = c.hostPtr ∧ m.nvmeOffset = c.nvmeOffset ∧ m.hasNvmeCopy = c.hasNvmeCopy)
    (fun m => m.vramPtr = none) (stepEvents t c.id c.owned .vram) (fun m => { m with vramPtr := none })
    (fun s m L₁ hid hs hp hL => by rw [← hid]; exact freeVram_wp hL hs hp.1) (fun _ => ⟨rfl, rfl⟩) (fun m hp => ⟨hp.2, hp.2⟩)
    (fun _ _ => rfl) fun σ₁ s₁ h₁ hle₁ h1 => ?_
  refine h1.bind (fun m => m.nvmeOffset = c.nvmeOffset ∧ m.hasNvmeCopy = c.hasNvmeCopy)
    (fun m => m.vramPtr = none ∧ m.hostPtr = none) (stepEvents t c.id c.owned .host) (fun m => { m with hostPtr := none })
    (fun s m L₁ hid hs hp hL => by rw [← hid]; exact freeHost_wp hL hs hp.1) (fun _ => ⟨rfl, rfl⟩) (fun m hp => ⟨hp.2, hp.2⟩)
    (fun _ hd => ⟨hd, rfl⟩) fun σ₂ s₂ h₂ hle₂ h2 => ?_
  refine h2.bind (fun _ => True) (fun m => m.parts cfg = 0) (stepEvents t c.id c.owned .nvme)
    (fun m => { m with nvmeOffset := none, hasNvmeCopy := false }) (fun s m L₁ hid hs hp hL => ?_) (fun _ => ⟨rfl, rfl⟩)
    (fun m hp => ⟨trivial, trivial⟩) (fun _ hd => parts_none hd.2 hd.1 rfl) fun σ₃ s₃ h₃ hle₃ h3 =>
      hR σ₃ s₃ h₃ (hle₁.trans (hle₂.trans hle₃)) h3
  rw [← hid]
  refine freeNvme_wp hL hs hp.1 fun hn => ?_
  rw [hp.2]
  by_contra hc
  have := hw.copy (by simpa using hc)
  rw [hn] at this
  cases this

theorem requireRunning_wp (hL : Log t L σ) {h : Hold} :
    wp (logic env cfg) t (.atomic requireRunning) σ h fun σ' r h' =>
      h' = h ∧ Log t L σ' ∧ ((∃ e, r = .error e) → Halting env t) := by
  refine Neutral.wp_await neutral_of_state fun ω σ₁ T hω hr _ _ => ⟨rfl, hL.rely hr, fun ⟨e, he⟩ => ?_⟩
  dsimp only at he
  split at he
  · rename_i hc
    refine ⟨ω, σ₁, hω, ?_⟩
    simpa using hc
  · cases he

/-- The claim of `free_page`, as a step of the program. -/
theorem claimFree_wp (hL : Log t L σ) :
    wp (logic env cfg) t (.await (·.releasable id) (claimFree id)) σ ⟨.idle, ids⟩ fun σ' r h' => match r with
      | .ok m => m.id = id ∧ WellFormed cfg m ∧ h' = ⟨.releasing m.taken (m.taken.parts cfg), ids⟩ ∧
          Log t (.release t id m.owned :: L) σ'
      | .error e => h' = ⟨.idle, ids⟩ ∧ Log t L σ' ∧
          (e = notFound id ∧ (∃ h, σ.history <:+ h ∧ h <:+ σ'.history ∧ phaseIn h id = .absent) ∨ Halting env t) := by
  refine wp_await fun ω σ₁ T hω hp hT hi => ?_
  obtain ⟨evs, h', hadds, hi', hpost⟩ := claimFree_ends (ω := ω) hi hp.2
  refine ⟨hadds.guar, h', hi', ?_⟩
  have hL' := (hL.rely hp.1).adds hadds
  revert hpost
  rcases (claimFree id t ω σ₁).1 with e | m
  · rintro ⟨rfl, rfl, he⟩
    refine ⟨rfl, hL', he.imp (fun ⟨he, hph⟩ => ⟨he, σ₁.history, (logic env cfg).rely_le hp.1, ?_, hph⟩) fun he => ⟨ω, σ₁, hω, .inr he.2⟩⟩
    exact ⟨[], hadds.history.symm⟩
  · rintro ⟨hid, hw, rfl, rfl⟩
    exact ⟨hid, hw, rfl, hL'⟩

/-- The end of `free_page`: the page is erased or left released, and the caller told. -/
theorem freeTail_wp {h₀ : List Event} {c : PageMetadata} {s : FreeStatus} {h : Hold}
    (hst : Standing cfg t ids (.release t c.id c.owned :: L) c (fun _ => True) (fun m => m.parts cfg = 0)
      (stepEvents t c.id c.owned .nvme ++ (stepEvents t c.id c.owned .host ++ (stepEvents t c.id c.owned .vram ++ []))) σ (.ok s) h) :
    wp (logic env cfg) t (do
      .atomic (finishFree c.id s.failed)
      .atomic notifyAll
      match s.firstError with
      | some e => throw e
      | none => .atomic emitEvent) σ h (FreeEnds env t ids c.id h₀ L) := by
  obtain ⟨_, m, hx, rfl, hid, -, -, hlog⟩ := hst
  cases hx
  rcases hlog with ⟨rfl, hp, hL⟩ | ⟨hf, he, evs, k, hL, hk, hm⟩
  · have hfin : ∀ ω σ T, Inv cfg σ ((t, ⟨.releasing m (m.parts cfg), ids⟩) ::ₘ T) → Ends cfg t T σ (finishFree c.id false t ω σ)
        fun evs r h' => evs = [.erase t c.id] ∧ r = .ok () ∧ h' = ⟨.idle, ids⟩ := by
      rw [← hid]
      exact fun ω σ T hi => finishFree_erases hi hp
    refine wp_bind (wp_section hL fun ω σ T _ _ hi => hfin ω σ T hi) (fun σ₁ _ h₁ _ hq => ?_)
      fun σ₁ e h₁ _ ⟨_, _, _, hr, _⟩ => by cases hr
    obtain ⟨evs, hL₁, rfl, -, rfl⟩ := hq
    refine wp_bind (wp_section hL₁ fun ω σ T _ _ hi => notifyAll_ends hi) (fun σ₂ _ h₂ _ hq => ?_)
      fun σ₂ e h₂ _ ⟨_, _, _, hr, _⟩ => by cases hr
    obtain ⟨evs', hL₂, rfl, -, rfl⟩ := hq
    have hlog : Log t (freeEvents t c.id c.owned ++ L) σ₂ := by
      simpa [freeEvents] using hL₂
    refine Neutral.wp_await neutral_emitEvent fun ω σ₃ T hω hr _ _ => ⟨rfl, ?_⟩
    have hlog' := hlog.rely hr
    unfold emitEvent
    rcases hem : ω.emit with _ | e
    · exact ⟨_, hlog'⟩
    · exact .inr (.inr ⟨⟨ω, σ₃, hω, hem⟩, _, hlog'⟩)
  · obtain ⟨e, he⟩ := Option.isSome_iff_exists.1 he
    have hfin : ∀ ω σ T, Inv cfg σ ((t, ⟨.releasing m (m.parts cfg), ids⟩) ::ₘ T) → Ends cfg t T σ (finishFree c.id true t ω σ)
        fun evs r h' => evs = [.settle t c.id .released false] ∧ r = .ok () ∧ h' = ⟨.idle, ids⟩ := by
      rw [← hid]
      exact fun ω σ T hi => finishFree_keeps hi
    rw [hf]
    refine wp_bind (wp_section hL fun ω σ T _ _ hi => hfin ω σ T hi) (fun σ₁ _ h₁ _ hq => ?_)
      fun σ₁ e h₁ _ ⟨_, _, _, hr, _⟩ => by cases hr
    obtain ⟨evs₁, hL₁, rfl, -, rfl⟩ := hq
    refine wp_bind (wp_section hL₁ fun ω σ T _ _ hi => notifyAll_ends hi) (fun σ₂ _ h₂ _ hq => ?_)
      fun σ₂ e h₂ _ ⟨_, _, _, hr, _⟩ => by cases hr
    obtain ⟨evs₂, hL₂, rfl, -, rfl⟩ := hq
    rw [he]
    refine ⟨rfl, .inr (.inl ⟨[.notified t, .settle t c.id .released false] ++ evs, k, c.owned, hL₂, hk,
      List.mem_append_right _ hm, by simp⟩)⟩

theorem freePage_wp (hL : Log t L σ) :
    wp (logic env cfg) t (freePage cfg id) σ ⟨.idle, ids⟩ (FreeEnds env t ids id σ.history L) := by
  unfold freePage
  refine wp_bind (requireRunning_wp hL) (fun σ₁ _ h₁ hle₁ ⟨hh, hL₁, _⟩ => ?_)
    fun σ₁ e h₁ _ ⟨hh, hl, he⟩ => ⟨hh, .inl ⟨hl, .inr (he ⟨e, rfl⟩)⟩⟩
  subst hh
  refine wp_bind (claimFree_wp hL₁) (fun σ₂ m h₂ hle₂ ⟨hid, hw, hh, hL₂⟩ => ?_) fun σ₂ e h₂ _ ⟨hh, hl, he⟩ => ⟨hh, .inl ⟨hl, ?_⟩⟩
  · subst hid hh
    have hrm : wp (logic env cfg) t (.atomic (removeQueuedPrefetch m.id)) σ₂ ⟨.releasing m.taken (m.taken.parts cfg), ids⟩
        fun σ' r h' => r = .ok () ∧ h' = ⟨.releasing m.taken (m.taken.parts cfg), ids⟩ ∧ Log t (.release t m.id m.owned :: L) σ' :=
      Neutral.wp_await (neutral_removeQueuedPrefetch m.id) fun ω σ₁ T _ hr _ _ => ⟨rfl, rfl, hL₂.rely hr⟩
    refine wp_bind hrm (fun σ₃ _ h₃ hle₃ ⟨_, hh, hL₃⟩ => ?_) fun σ₃ e h₃ _ ⟨hr, _⟩ => by cases hr
    subst hh
    exact freeAll_wp hL₃ hw fun σ₄ s h₄ _ hst => freeTail_wp hst
  · exact he.imp_left fun ⟨he, h, h1, h2, h3⟩ => ⟨he, h, hle₁.trans h1, h2, h3⟩

end FlashTier
