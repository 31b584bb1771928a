/-
The sections of a transfer after its claim: the copy or the store operation, the section that settles
the page, and the handler of a failed copy. The page is in flight, so its record does not change but
for the pinned flag; a release call that fails leaves it so.
-/
import FlashTier.Invariant.Claims

namespace FlashTier

open Conc

variable {cfg : RuntimeConfig} {σ σ' : Shared} {w : Res} {T : Multiset (Nat × Hold)} {t : Nat} {ω : Env} {id : PageId}
  {p q m : PageMetadata} {ids : Multiset PageId} {tier : Tier} {stage : Stage} {b : Bool}

/-! ## The page in flight -/

theorem core_pinned (h : m.pinned = false) (b : Bool) : ({ m with pinned := b } : PageMetadata).core = m := by
  unfold PageMetadata.core
  rw [← h]

/-- At the start of a section of a thread that has taken a page. -/
theorem Inv.enterPage {h : Hold} (hi : Inv cfg σ ((t, h) ::ₘ T)) (hc : h.claim = {m}) :
    ∃ b, σ.table.lookup m.id = some { m with pinned := b } ∧ b = pinnedIn σ.history m.id ∧ m.pinned = false ∧
      m.inFlight = true ∧ Open cfg σ (some m.id) (h.own cfg) T ∧ TokenOk cfg σ t h.tok := by
  obtain ⟨p, hl, hp, hf, hpin, ho, htok⟩ := hi.enterClaim hc
  subst hp
  exact ⟨p.pinned, hl, hpin, rfl, hf, ho, htok⟩

/-- At its end, the page is still in flight. -/
theorem Open.leavePage {h : Hold} (ho : Open cfg σ (some m.id) w T) (hl : σ.table.lookup m.id = some { m with pinned := b })
    (hb : b = pinnedIn σ.history m.id) (hm : m.pinned = false) (hf : m.inFlight = true) (hw : w = h.own cfg)
    (hc : h.claim = {m}) (htok : TokenOk cfg σ t h.tok) : Inv cfg σ ((t, h) ::ₘ T) :=
  ho.leaveClaim hl hf hb hw (by rw [core_pinned hm]; exact hc) htok

theorem sameReplay_of_page {evs : List Event} (he : ∀ e ∈ evs, e.page = none) (h : List Event) (id : PageId) :
    SameReplay h (evs ++ h) id :=
  sameReplay_append h fun e hm => by rw [he e hm]; simp

theorem Taken.later (evs : List Event) (h : Taken cfg σ t m) (hh : σ'.history = evs ++ σ.history) (he : ∀ e ∈ evs, e.page = none)
    (hc : σ'.content m = σ.content m) (hs : m.hasNvmeCopy = true → σ'.stored m = σ.stored m) : Taken cfg σ' t m := by
  have hr := sameReplay_of_page he σ.history m.id
  rw [← hh] at hr
  exact ⟨h.record.later ⟨hr.content, hr.written, hr.size, hr.phase, evs, hh.symm⟩ hc hs, h.busy, h.core, hr.owners.trans h.owners⟩

/-! ## Copies and store operations -/

/-- Events of failed calls that are not releases. -/
def CallsFailed (t : Nat) (evs : List Event) : Prop := ∀ e ∈ evs, ∃ c : Call, e = .failed t c ∧ c.release = false

theorem callsFailed_nil (t : Nat) : CallsFailed t [] := by simp [CallsFailed]

theorem callsFailed_one (t : Nat) {c : Call} (h : c.release = false) : CallsFailed t [.failed t c] := by
  simpa [CallsFailed] using h

theorem CallsFailed.event {evs : List Event} (h : CallsFailed t evs) : ∀ e ∈ evs, e.page = none ∧ e.thread = t := by
  intro e he
  obtain ⟨c, rfl, -⟩ := h e he
  exact ⟨rfl, rfl⟩

/-- How the movement of a page's bytes ends: they have arrived, or the page is as after the claim. -/
def CopyEnds (t : Nat) (ids : Multiset PageId) (m : PageMetadata) (tier : Tier) (evs : List Event) (r : Except Error Unit)
    (h' : Hold) : Prop :=
  match r with
  | .ok _ => h' = ⟨.moving m tier .copied, ids⟩ ∧ CallsFailed t evs
  | .error _ => h' = ⟨.moving m tier .claimed, ids⟩ ∧ CallsFailed t evs

/-- A change of memory by the thread that moves the page. -/
theorem Open.leaveCopy {evs : List Event} (stage' : Stage) (ho : Open cfg σ' (some m.id) (stage'.own cfg m + Res.idsOf ids) T)
    (hl : σ.table.lookup m.id = some { m with pinned := b }) (hb : b = pinnedIn σ.history m.id)
    (htok : TokenOk cfg σ t (.moving m tier stage)) (ht : σ'.table = σ.table) (hh : σ'.host = σ.host)
    (hist : σ'.history = evs ++ σ.history) (he : ∀ e ∈ evs, e.page = none ∧ e.thread = t) (hc : σ'.content m = σ.content m)
    (hs : m.hasNvmeCopy = true → σ'.stored m = σ.stored m) (ha : stage' = .copied → σ'.arrived m = σ'.content m) :
    Adds t evs σ σ' ∧ Inv cfg σ' ((t, ⟨.moving m tier stage', ids⟩) ::ₘ T) := by
  obtain ⟨h1, h2, h3, -⟩ := htok
  have hpage : ∀ e ∈ evs, e.page = none := fun e hm => (he e hm).1
  refine ⟨⟨hist, fun e hm => (he e hm).2⟩, ho.leavePage (by rw [ht]; exact hl) ?_ h1.core h1.busy rfl rfl
    ⟨h1.later evs hist hpage hc hs, h2, ?_, fun hst _ => ha hst⟩⟩
  · rw [hist, (sameReplay_of_page hpage σ.history m.id).pinned]
    exact hb
  · rw [hh]; exact h3

theorem mem_host_parts {ptr : Ptr} (hp : m.hostPtr = some ptr) (x : Res) : (ptr, m.allocationSize) ∈ (m.parts cfg + x).host :=
  (Res.part_add_left _ x).mem_host ((covers_parts m).host ptr hp)

theorem mem_dev_parts {ptr : Ptr} (hp : m.vramPtr = some ptr) (x : Res) : (ptr, m.allocationSize) ∈ (m.parts cfg + x).dev :=
  (Res.part_add_left _ x).mem_dev ((covers_parts m).dev ptr hp)

/-- The copy of `evict_vram_to_host`. -/
theorem deviceCopyD2H_ends {ptr v : Ptr} (hi : Inv cfg σ ((t, ⟨.moving m tier .claimed, ids⟩) ::ₘ T))
    (hst : m.state = .evictingToHost) (hp : m.hostPtr = some ptr) (hv : m.vramPtr = some v) :
    Ends cfg t T σ (deviceCopyD2H cfg ptr v m.allocationSize t ω σ) (CopyEnds t ids m tier) := by
  obtain ⟨b, hl, hb, -, -, ho, htok⟩ := hi.enterPage rfl
  have hmem : (ptr, m.allocationSize) ∈ (m.parts cfg + Res.idsOf ids).host := mem_host_parts hp _
  have hc : ∀ (src : Bytes) (n : Nat), (σ.writeHost ptr src n).content m = σ.content m := fun src n => by
    simp [Shared.content, hst, Shared.writeHost]
  unfold deviceCopyD2H
  by_cases hstop : σ.stopping = true
  · rw [if_pos hstop]
    exact ⟨[], _, ⟨rfl, by simp⟩, hi, rfl, callsFailed_nil t⟩
  rw [if_neg hstop]
  by_cases hd : (!cfg.device) = true
  · rw [if_pos hd]
    exact ⟨[], _, ⟨rfl, by simp⟩, hi, rfl, callsFailed_nil t⟩
  rw [if_neg hd]
  rcases ω.copy with _ | ⟨e, left⟩
  · obtain ⟨hadds, hi'⟩ := (ho.writeHost hmem (σ.devMem v) m.allocationSize).leaveCopy .copied hl hb htok rfl rfl
      rfl (callsFailed_nil t).event (hc _ _) (fun _ => rfl) fun _ => by
        simp only [Shared.arrived, Shared.content, hst, hp, hv, Option.map_some]
        rw [take_writeHost]
        rfl
    exact ⟨[], _, hadds, hi', rfl, callsFailed_nil t⟩
  · have ho := (ho.writeHost hmem left m.allocationSize).logNone (e := .failed t .deviceCopy) rfl rfl
    obtain ⟨hadds, hi'⟩ := ho.leaveCopy .claimed hl hb htok rfl rfl rfl (callsFailed_one t rfl).event (hc _ _)
      (fun _ => rfl) (by simp)
    exact ⟨_, _, hadds, hi', rfl, callsFailed_one t rfl⟩

/-- The copy of `promote_host_to_vram`. -/
theorem copyUp_ends {ptr v : Ptr} (hi : Inv cfg σ ((t, ⟨.moving m tier .claimed, ids⟩) ::ₘ T)) (hst : m.state = .loadingToVram)
    (hp : m.hostPtr = some ptr) (hv : m.vramPtr = some v) :
    Ends cfg t T σ (copyUp cfg v ptr m.allocationSize t ω σ) (CopyEnds t ids m tier) := by
  obtain ⟨b, hl, hb, -, -, ho, htok⟩ := hi.enterPage rfl
  have hmem : (v, m.allocationSize) ∈ (m.parts cfg + Res.idsOf ids).dev := mem_dev_parts hv _
  have hc : ∀ (src : Bytes) (n : Nat), (σ.writeDev v src n).content m = σ.content m := fun src n => by
    simp [Shared.content, hst, Shared.writeDev]
  unfold copyUp
  rw [Act.bind_ok (Act.get_apply t ω σ)]
  unfold deviceCopyH2D
  by_cases hstop : σ.stopping = true
  · rw [if_pos hstop]
    exact ⟨[], _, ⟨rfl, by simp⟩, hi, rfl, callsFailed_nil t⟩
  rw [if_neg hstop]
  by_cases hd : (!cfg.device) = true
  · rw [if_pos hd]
    exact ⟨[], _, ⟨rfl, by simp⟩, hi, rfl, callsFailed_nil t⟩
  rw [if_neg hd]
  rcases ω.copy with _ | ⟨e, left⟩
  · obtain ⟨hadds, hi'⟩ := (ho.writeDev hmem (σ.hostMem ptr) m.allocationSize).leaveCopy .copied hl hb htok rfl rfl
      rfl (callsFailed_nil t).event (hc _ _) (fun _ => rfl) fun _ => by
        simp only [Shared.arrived, Shared.content, hst, hp, hv, Option.map_some]
        rw [take_writeDev]
        rfl
    exact ⟨[], _, hadds, hi', rfl, callsFailed_nil t⟩
  · have ho := (ho.writeDev hmem left m.allocationSize).logNone (e := .failed t .deviceCopy) rfl rfl
    obtain ⟨hadds, hi'⟩ := ho.leaveCopy .claimed hl hb htok rfl rfl rfl (callsFailed_one t rfl).event (hc _ _) (fun _ => rfl) (by simp)
    exact ⟨_, _, hadds, hi', rfl, callsFailed_one t rfl⟩

/-- The operation of a transfer between host memory and store is queued. -/
theorem submitIo_ends {first : Nat} (what : String) (hi : Inv cfg σ ((t, ⟨.moving m tier .claimed, ids⟩) ::ₘ T))
    (hoff : m.nvmeOffset = some ((first + 1) * cfg.pageSize)) :
    Ends cfg t T σ (submitIo what (some ((first + 1) * cfg.pageSize)) m.allocationSize t ω σ) fun evs r h' =>
      evs = [] ∧ r = .ok () ∧ h' = ⟨.moving m tier .io, ids⟩ := by
  obtain ⟨b, hl, hb, -, -, ho, htok⟩ := hi.enterPage rfl
  obtain ⟨n, hn, hs, hext⟩ := htok.1.record.form.extents hoff
  have hin : ∀ i ∈ Extents.range first n, i ∈ (m.parts cfg + Res.idsOf ids).ext := fun i hi => by
    rw [← hext] at hi
    exact Multiset.mem_add.2 (.inl hi)
  obtain ⟨s, hrun, ho'⟩ := Open.submitIo (w := m.parts cfg + Res.idsOf ids) ho what hn hin (by simp [parts_io, Res.idsOf])
  rw [← hs] at hrun
  have hw : m.parts cfg + Res.idsOf ids + Res.ioOf (Extents.range first n) = Stage.own cfg m .io + Res.idsOf ids := by
    show _ = m.parts cfg + Res.ioOf (m.extents cfg) + _
    rw [hext]
    abel
  rw [hw] at ho'
  obtain ⟨hadds, hi'⟩ := ho'.leaveCopy .io hl hb htok rfl rfl rfl (callsFailed_nil t).event rfl (fun _ => rfl) (by simp)
  simp only [submitIo, hrun]
  exact ⟨[], _, hadds, hi', rfl, rfl, rfl⟩

/-- The operation ends: it is no longer active. -/
theorem Open.retire {first : Nat} (ho : Open cfg σ (some m.id) (Stage.own cfg m .io + Res.idsOf ids) T) (hw : WellFormed cfg m)
    (hoff : m.nvmeOffset = some ((first + 1) * cfg.pageSize)) :
    Open cfg (σ.retireIo ((first + 1) * cfg.pageSize) m.allocationSize) (some m.id) (m.parts cfg + Res.idsOf ids) T := by
  obtain ⟨n, hn, hs, hext⟩ := hw.extents hoff
  have hown : Stage.own cfg m .io + Res.idsOf ids = m.parts cfg + Res.idsOf ids + Res.ioOf (Extents.range first n) := by
    show m.parts cfg + Res.ioOf (m.extents cfg) + _ = _
    rw [hext]
    abel
  rw [hown] at ho
  rw [hs]
  exact ho.retireIo

/-- The read of `load_nvme_to_host` ends. -/
theorem awaitRead_ends {first : Nat} {ptr : Ptr} (hi : Inv cfg σ ((t, ⟨.moving m tier .io, ids⟩) ::ₘ T))
    (hst : m.state = .loadingToHost) (hp : m.hostPtr = some ptr) (hoff : m.nvmeOffset = some ((first + 1) * cfg.pageSize)) :
    Ends cfg t T σ (awaitRead ((first + 1) * cfg.pageSize) ptr m.allocationSize t ω σ) (CopyEnds t ids m tier) := by
  obtain ⟨b, hl, hb, -, -, ho, htok⟩ := hi.enterPage rfl
  have ho := Open.retire ho htok.1.record.form hoff
  have hmem : (ptr, m.allocationSize) ∈ (m.parts cfg + Res.idsOf ids).host := mem_host_parts hp _
  unfold awaitRead
  rcases waitForStoreIo "NVMe load" m.allocationSize ω.io with _ | ⟨e, left⟩
  · obtain ⟨hadds, hi'⟩ := (ho.writeHost hmem (σ.diskAt ((first + 1) * cfg.pageSize)) m.allocationSize).leaveCopy .copied hl hb
      htok rfl rfl rfl (callsFailed_nil t).event (by simp only [Shared.content, hst]; rfl) (fun _ => rfl) fun _ => by
        simp only [Shared.arrived, Shared.content, hst, hp, hoff, Option.map_some]
        rw [take_writeHost]
        rfl
    exact ⟨[], _, hadds, hi', rfl, callsFailed_nil t⟩
  · have ho := (ho.writeHost hmem left m.allocationSize).logNone (e := .failed t .storeIo) rfl rfl
    obtain ⟨hadds, hi'⟩ := ho.leaveCopy .claimed hl hb htok rfl rfl rfl (callsFailed_one t rfl).event (by simp only [Shared.content, hst]; rfl)
      (fun _ => rfl) (by simp)
    exact ⟨_, _, hadds, hi', rfl, callsFailed_one t rfl⟩

/-- The write of `evict_host_to_nvme` ends; the page has no valid copy meanwhile. -/
theorem awaitWrite_ends {first : Nat} {ptr : Ptr} (hi : Inv cfg σ ((t, ⟨.moving m tier .io, ids⟩) ::ₘ T))
    (hst : m.state = .evictingToNvme) (hp : m.hostPtr = some ptr) (hoff : m.nvmeOffset = some ((first + 1) * cfg.pageSize))
    (hcopy : m.hasNvmeCopy = false) :
    Ends cfg t T σ (awaitWrite ((first + 1) * cfg.pageSize) ptr m.allocationSize t ω σ) (CopyEnds t ids m tier) := by
  obtain ⟨b, hl, hb, -, -, ho, htok⟩ := hi.enterPage rfl
  have ho := Open.retire ho htok.1.record.form hoff
  obtain ⟨n, hn, hs, hext⟩ := htok.1.record.form.extents hoff
  have hin : ∀ i ∈ Extents.range first n, i ∈ (m.parts cfg + Res.idsOf ids).ext := fun i hi => by
    rw [← hext] at hi
    exact Multiset.mem_add.2 (.inl hi)
  have hwrite : ∀ src, Open cfg ((σ.retireIo ((first + 1) * cfg.pageSize) m.allocationSize).writeDisk
      ((first + 1) * cfg.pageSize) src m.allocationSize) (some m.id) (m.parts cfg + Res.idsOf ids) T := fun src => by
    have := ho.writeDisk hin src
    rwa [← hs] at this
  have hno : ∀ {P : Prop}, m.hasNvmeCopy = true → P := fun h => by rw [hcopy] at h; cases h
  unfold awaitWrite
  rcases waitForStoreIo "NVMe writeback" m.allocationSize ω.io with _ | ⟨e, left⟩
  · obtain ⟨hadds, hi'⟩ := (hwrite (σ.hostMem ptr)).leaveCopy .copied hl hb htok rfl rfl rfl (callsFailed_nil t).event
      (by simp only [Shared.content, hst]; rfl) hno fun _ => by
        simp only [Shared.arrived, Shared.stored, Shared.content, hst, hp, hoff, Option.map_some]
        rw [take_writeDisk]
        rfl
    exact ⟨[], _, hadds, hi', rfl, callsFailed_nil t⟩
  · have ho := (hwrite left).logNone (e := .failed t .storeIo) rfl rfl
    obtain ⟨hadds, hi'⟩ := ho.leaveCopy .claimed hl hb htok rfl rfl rfl (callsFailed_one t rfl).event (by simp only [Shared.content, hst]; rfl)
      hno (by simp)
    exact ⟨_, _, hadds, hi', rfl, callsFailed_one t rfl⟩

end FlashTier
