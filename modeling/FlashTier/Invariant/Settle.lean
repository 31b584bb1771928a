/-
The sections that settle a transfer: its completion and the handler of a failed copy. Both call the
backends to release what the page leaves; when such a call fails, the section ends there, and the page
stays in flight.
-/
import FlashTier.Invariant.Moves

namespace FlashTier

open Conc

variable {cfg : RuntimeConfig} {σ σ' : Shared} {w : Res} {T : Multiset (Nat × Hold)} {t : Nat} {ω : Env} {id : PageId}
  {p q m m₀ : PageMetadata} {ids : Multiset PageId} {tier : Tier} {stage : Stage} {b : Bool}

/-! ## Runs -/

/-- Assignments and a transition, then the page is given back. -/
theorem run_settle {α : Type} {f : PageMetadata → PageMetadata} {dst : PageState} {k : Unit → Sec α}
    (hl : σ.table.lookup id = some p) (hid : (f p).id = p.id) (ha : transitionAllowed (f p).state dst = true)
    (hd : (f p).dropUnsafe dst = false) :
    (withPage id f >>= fun _ => transition id dst >>= fun _ => recordSettle id >>= k) t ω σ =
      k () t ω ((σ.setPage ((f p).enter dst)).log (.settle t id dst (f p).inFlight)) := by
  have hl' : (σ.setPage ((f p).enter dst)).table.lookup id = some ((f p).enter dst) := by
    rw [← id_of_lookup hl, ← hid]
    exact lookup_setPage _ _
  rw [run_enter hl hid ha hd, Act.bind_ok (recordSettle_some hl')]
  rfl

theorem run_settled {f : PageMetadata → PageMetadata} {dst : PageState} (hl : σ.table.lookup id = some p)
    (hid : (f p).id = p.id) (ha : transitionAllowed (f p).state dst = true) (hd : (f p).dropUnsafe dst = false) :
    (withPage id f >>= fun _ => transition id dst >>= fun _ => recordSettle id) t ω σ =
      (.ok (), (σ.setPage ((f p).enter dst)).log (.settle t id dst (f p).inFlight)) := by
  have hl' : (σ.setPage ((f p).enter dst)).table.lookup id = some ((f p).enter dst) := by
    rw [← id_of_lookup hl, ← hid]
    exact lookup_setPage _ _
  rw [run_enter hl hid ha hd, recordSettle_some hl']
  rfl

/-- The same, with the tier set after the transition. -/
theorem run_settleTier {f : PageMetadata → PageMetadata} {dst : PageState} (hl : σ.table.lookup id = some p)
    (hid : (f p).id = p.id) (ha : transitionAllowed (f p).state dst = true) (hd : (f p).dropUnsafe dst = false) :
    (withPage id f >>= fun _ => transition id dst >>= fun _ => withPage id (fun p => { p with currentTier := tier }) >>=
      fun _ => recordSettle id) t ω σ =
      (.ok (), (σ.setPage { (f p).enter dst with currentTier := tier }).log (.settle t id dst (f p).inFlight)) := by
  have hid' : (f p).id = id := hid.trans (id_of_lookup hl)
  have hl' : (σ.setPage ((f p).enter dst)).table.lookup id = some ((f p).enter dst) := by
    rw [← hid']
    exact lookup_setPage _ _
  have hset : (σ.setPage ((f p).enter dst)).setPage { (f p).enter dst with currentTier := tier } =
      σ.setPage { (f p).enter dst with currentTier := tier } := setPage_setPage σ rfl
  have hl'' : (σ.setPage { (f p).enter dst with currentTier := tier }).table.lookup id =
      some { (f p).enter dst with currentTier := tier } := by
    rw [← hid']
    exact lookup_setPage σ _
  rw [run_enter hl hid ha hd, Act.bind_ok (withPage_some hl' _), hset, recordSettle_some hl'']
  rfl

/-! ## How the sections end -/

/-- The thread has a page on its way, or the buffer for one. -/
def Hold.Moving (h : Hold) : Prop := (∃ m tier stage, h.tok = .moving m tier stage) ∨ ∃ ptr n tier, h.tok = .hostBuf ptr n tier

/-- How the section that completes a transfer ends. -/
def FinishEnds (t : Nat) (ids : Multiset PageId) (id : PageId) (dst : PageState) (evs : List Event) (r : Except Error Unit)
    (h' : Hold) : Prop :=
  match r with
  | .ok _ => h' = ⟨.idle, ids⟩ ∧ evs = [.settle t id dst false]
  | .error _ => ∃ c : Call, c.release = true ∧ evs = [.failed t c] ∧ h'.Moving

/-- How the handler of a failed copy ends. -/
def HandlerEnds (t : Nat) (ids : Multiset PageId) (id : PageId) (evs : List Event) (r : Except Error Unit) (h' : Hold) : Prop :=
  match r with
  | .ok _ => h' = ⟨.idle, ids⟩ ∧ evs = [.notified t, .settle t id .error false]
  | .error _ => ∃ c : Call, c.release = true ∧ evs = [.failed t c] ∧ h'.Moving

/-- A release call failed: the page stays in flight. -/
theorem Open.leaveStuck (stage : Stage) (c : Call) (ho : Open cfg σ (some m.id) (stage.own cfg m + Res.idsOf ids) T)
    {stage' : Stage}
    (hl : σ.table.lookup m.id = some { m with pinned := b }) (hb : b = pinnedIn σ.history m.id)
    (htok : TokenOk cfg σ t (.moving m tier stage')) (hs : stage = .copied → stage' = .copied) :
    Adds t [.failed t c] σ (σ.log (.failed t c)) ∧
      Inv cfg (σ.log (.failed t c)) ((t, ⟨.moving m tier stage, ids⟩) ::ₘ T) := by
  have ho := ho.logNone (e := .failed t c) rfl rfl
  obtain ⟨h1, h2, h3, h4⟩ := htok
  have hc : Taken cfg (σ.log (.failed t c)) t m := h1.later [.failed t c] rfl (by simp [Event.page]) rfl fun _ => rfl
  exact ⟨⟨rfl, by simp [Event.thread]⟩, ho.leavePage hl hb h1.core h1.busy rfl rfl
    ⟨hc, h2, h3, fun hst hcl => h4 (hs hst) (hcl.of_suffix ⟨[.failed t c], rfl⟩)⟩⟩

/-- A page in the failed state holds nothing. -/
theorem RecordOk.failed (hr : RecordOk cfg σ m) (hm : m.state.phase = .live) (hst : q.state = .error) (hid : q.id = m.id)
    (hs : q.allocationSize = m.allocationSize) (hck : q.checksum = m.checksum) (hn : q.nvmeOffset = m.nvmeOffset)
    (hd : q.dirty = m.dirty) (hc : q.hasNvmeCopy = m.hasNvmeCopy) : RecordOk cfg σ q := by
  refine hr.edit (SameData.refl _ _) hid (by rw [hst, hm]; rfl) hs hck (by rw [hn]; exact hr.form.offset) (by simp [PageMetadata.Shape, hst])
    (by rw [hd, hc]; exact hr.form.dirty) (by rw [hc, hn]; exact hr.form.copy) fun _ c hcc => ?_
  simp [Shared.content, hst] at hcc

/-! ## Handlers -/

/-- The end of a handler: the page is set to the failed state, and the waiters are notified. -/
theorem handler_ends {f : PageMetadata → PageMetadata}
    (ho : Open cfg σ (some m.id) (Res.idsOf ids + ((f { m with pinned := b }).enter .error).parts cfg) T)
    (hl : σ.table.lookup m.id = some { m with pinned := b }) (hb : b = pinnedIn σ.history m.id) (htk : Taken cfg σ t m)
    (hst : m.state.transfer = true) (hf : ∀ p : PageMetadata, (f p).id = p.id ∧ (f p).state = p.state ∧ (f p).pinned = p.pinned ∧
      (f p).inFlight = false ∧ (f p).allocationSize = p.allocationSize ∧ (f p).checksum = p.checksum ∧
      (f p).nvmeOffset = p.nvmeOffset ∧ (f p).dirty = p.dirty ∧ (f p).hasNvmeCopy = p.hasNvmeCopy) :
    Ends cfg t T σ ((withPage m.id f >>= fun _ => transition m.id .error >>= fun _ => recordSettle m.id >>= fun _ => notifyAll) t ω σ)
      (HandlerEnds t ids m.id) := by
  obtain ⟨h1, h2, h3, h4, h5, h6, h7, h8, h9⟩ := hf { m with pinned := b }
  have ha : transitionAllowed (f { m with pinned := b }).state .error = true := by
    rw [h2]
    revert hst
    show m.state.transfer = true → transitionAllowed m.state .error = true
    cases m.state <;> decide
  have hd : (f { m with pinned := b }).dropUnsafe .error = false := by simp [PageMetadata.dropUnsafe]
  rw [run_settle hl h1 ha hd, h4]
  refine ⟨[.notified t, .settle t m.id .error false], ⟨.idle, ids⟩, ⟨rfl, by simp [Event.thread]⟩, ?_, rfl, rfl⟩
  have hi := ho.settle (q := (f { m with pinned := b }).enter .error) (h := ⟨.idle, ids⟩) h1 h4 (h3.trans hb) htk.owners
    (htk.record.failed (PageState.phase_of_transfer hst) rfl h1 h5 h6 h7 h8 h9) rfl (by simp [PageMetadata.enter]) (by simp [PageMetadata.enter]) rfl (own_idle ids).symm rfl trivial
  exact ((hi.enter rfl).1.logNone (e := .notified t) rfl rfl).leave rfl rfl trivial

/-- The handler of `evict_host_to_nvme`. -/
theorem failEvictHost_ends (hi : Inv cfg σ ((t, ⟨.moving m tier .claimed, ids⟩) ::ₘ T)) :
    Ends cfg t T σ (failEvictHost m.id t ω σ) (HandlerEnds t ids m.id) := by
  obtain ⟨b, hl, hb, -, -, ho, htok⟩ := hi.enterPage rfl
  have hw : Hold.own cfg ⟨.moving m tier .claimed, ids⟩ = Res.idsOf ids + m.parts cfg := add_comm _ _
  rw [hw] at ho
  exact handler_ends (f := fun p => { p with inFlight := false }) ho hl hb htok.1 htok.2.1 fun _ => ⟨rfl, rfl, rfl, rfl, rfl, rfl, rfl, rfl, rfl⟩

/-- The handler of `evict_vram_to_host` and `load_nvme_to_host`. -/
theorem failToHost_ends {ptr : Ptr} (hi : Inv cfg σ ((t, ⟨.moving m tier .claimed, ids⟩) ::ₘ T)) (hp : m.hostPtr = some ptr) :
    Ends cfg t T σ (failToHost m.id ptr m.allocationSize t ω σ) (HandlerEnds t ids m.id) := by
  obtain ⟨b, hl, hb, -, -, ho, htok⟩ := hi.enterPage rfl
  have hparts : m.parts cfg = ({ m with hostPtr := none } : PageMetadata).parts cfg + Res.hostBuf ptr m.allocationSize :=
    parts_host rfl rfl hp rfl rfl
  have hw : Hold.own cfg ⟨.moving m tier .claimed, ids⟩ =
      Res.idsOf ids + ({ m with hostPtr := none } : PageMetadata).parts cfg + Res.hostBuf ptr m.allocationSize := by
    show m.parts cfg + _ = _
    rw [hparts]
    abel
  unfold failToHost
  have ho' := ho
  rw [hw] at ho'
  rcases ho'.hostFree t ω with ⟨e, hrun, -⟩ | ⟨a, hrun, ho'⟩
  · rw [Act.bind_error hrun]
    obtain ⟨hadds, hi'⟩ := Open.leaveStuck .claimed .hostFree ho hl hb htok (by simp)
    exact ⟨_, _, hadds, hi', .hostFree, rfl, rfl, .inl ⟨_, _, _, rfl⟩⟩
  · rw [Act.bind_ok hrun]
    have htk : Taken cfg (σ.dropHost a) t m := htok.1.later [] rfl (by simp) rfl fun _ => rfl
    exact (handler_ends (f := fun p => { p with hostPtr := none, inFlight := false }) ho' hl hb htk htok.2.1
      fun _ => ⟨rfl, rfl, rfl, rfl, rfl, rfl, rfl, rfl, rfl⟩).of_history rfl

/-- What a promotion accounts for once its budget bytes are given back. -/
theorem own_refunded {v : Ptr} (hv : m.vramPtr = some v) : Stage.own cfg m .refunded =
    ({ m with vramPtr := none } : PageMetadata).parts cfg + Res.devBuf v m.allocationSize := by
  have hparts : m.parts cfg = ({ m with vramPtr := none } : PageMetadata).parts cfg + Res.vramOf m.allocationSize +
      Res.devBuf v m.allocationSize := parts_vram rfl rfl rfl hv rfl
  simp only [Stage.own, hparts]
  simp [Res.ext_iff', PageMetadata.parts, Res.vramOf, Res.devBuf]

/-- The handler of `promote_host_to_vram`: the budget bytes are given back before the device buffer. -/
theorem failPromote_ends {v : Ptr} (hi : Inv cfg σ ((t, ⟨.moving m tier .claimed, ids⟩) ::ₘ T)) (hv : m.vramPtr = some v) :
    Ends cfg t T σ (failPromote cfg m.id v m.allocationSize t ω σ) (HandlerEnds t ids m.id) := by
  obtain ⟨b, hl, hb, -, -, ho, htok⟩ := hi.enterPage rfl
  have hdev : cfg.device = true := ho.device (Nat.add_pos_left (parts_vram_pos htok.1.record.form hv) _)
  have hparts : m.parts cfg = ({ m with vramPtr := none } : PageMetadata).parts cfg + Res.vramOf m.allocationSize +
      Res.devBuf v m.allocationSize := parts_vram rfl rfl rfl hv rfl
  have hw : Hold.own cfg ⟨.moving m tier .claimed, ids⟩ =
      Stage.own cfg m .refunded + Res.idsOf ids + Res.vramOf m.allocationSize := by
    show m.parts cfg + _ = _
    rw [own_refunded hv, hparts]
    abel
  rw [hw] at ho
  obtain ⟨bud, hrel, ho⟩ := ho.vramRelease t ω
  unfold failPromote
  rw [Act.bind_ok hrel]
  have ho' := ho
  rw [own_refunded hv, add_right_comm] at ho'
  rcases ho'.deviceFree hdev t ω with ⟨e, hrun, -⟩ | ⟨hrun, ho'⟩
  · rw [Act.bind_error hrun]
    have htok' : TokenOk cfg (σ.setVram bud) t (.moving m tier .claimed) :=
      ⟨htok.1.later [] rfl (by simp) rfl fun _ => rfl, htok.2.1, htok.2.2.1, by simp⟩
    obtain ⟨hadds, hi'⟩ := Open.leaveStuck .refunded .deviceFree ho hl hb htok' (by simp)
    exact (show Ends cfg t T (σ.setVram bud) _ _ from ⟨_, _, hadds, hi', .deviceFree, rfl, rfl, .inl ⟨_, _, _, rfl⟩⟩).of_history rfl
  · rw [Act.bind_ok hrun]
    have htk : Taken cfg ((σ.setVram bud).dropDev v) t m := htok.1.later [] rfl (by simp) rfl fun _ => rfl
    rw [add_comm] at ho'
    exact (handler_ends (f := fun p => { p with vramPtr := none, inFlight := false }) ho' hl hb htk htok.2.1
      fun _ => ⟨rfl, rfl, rfl, rfl, rfl, rfl, rfl, rfl, rfl⟩).of_history rfl

/-! ## Completions -/

/-- The page that is set at rest at the end of a transfer. -/
theorem Open.finish {dst : PageState} (ho : Open cfg σ (some m.id) w T)
    (hb : b = pinnedIn σ.history m.id) (htk : Taken cfg σ t m) (hid : q.id = m.id) (hf : q.inFlight = false)
    (hpin : q.pinned = b) (hst : q.state = dst) (hw : w = Res.idsOf ids + q.parts cfg) (hr : RecordOk cfg σ q) (hrest : dst.transfer = false)
    (hlive : dst ≠ .released)
    (htier : q.state = .residentHost → ∀ ptr, q.hostPtr = some ptr → σ.host.allocationTier ptr = some q.currentTier) :
    Ends cfg t T σ (.ok (), (σ.setPage q).log (.settle t m.id dst false)) (FinishEnds t ids m.id dst) := by
  subst hst
  refine ⟨[.settle t m.id q.state false], ⟨.idle, ids⟩, ⟨rfl, by simp [Event.thread]⟩, ?_, rfl, rfl⟩
  exact ho.settle (h := ⟨.idle, ids⟩) hid hf (hpin.trans hb) htk.owners hr hrest htier (fun h => absurd h hlive) hw (own_idle ids).symm rfl trivial

/-- The completion of `evict_host_to_nvme`. -/
theorem finishEvictHost_ends {ptr : Ptr} (hi : Inv cfg σ ((t, ⟨.moving m tier .copied, ids⟩) ::ₘ T))
    (hst : m.state = .evictingToNvme) (hp : m.hostPtr = some ptr) (hp₀ : m₀.hostPtr = some ptr)
    (hs₀ : m₀.allocationSize = m.allocationSize) :
    Ends cfg t T σ (finishEvictHost m.id m₀ t ω σ) (FinishEnds t ids m.id .residentNvme) := by
  obtain ⟨b, hl, hb, -, -, ho, htok⟩ := hi.enterPage rfl
  have hparts : m.parts cfg = ({ m with hostPtr := none } : PageMetadata).parts cfg + Res.hostBuf ptr m.allocationSize :=
    parts_host rfl rfl hp rfl rfl
  have hw : Hold.own cfg ⟨.moving m tier .copied, ids⟩ =
      Res.idsOf ids + ({ m with hostPtr := none } : PageMetadata).parts cfg + Res.hostBuf ptr m.allocationSize := by
    show m.parts cfg + _ = _
    rw [hparts]
    abel
  have ho' := ho
  rw [hw] at ho'
  unfold finishEvictHost
  rw [show deref m₀.hostPtr = ptr by rw [hp₀]; rfl, hs₀]
  rcases ho'.hostFree t ω with ⟨e, hrun, -⟩ | ⟨a, hrun, ho'⟩
  · rw [Act.bind_error hrun]
    obtain ⟨hadds, hi'⟩ := Open.leaveStuck .copied .hostFree ho hl hb htok (by simp)
    exact ⟨_, _, hadds, hi', .hostFree, rfl, rfl, .inl ⟨_, _, _, rfl⟩⟩
  rw [Act.bind_ok hrun]
  have htk : Taken cfg (σ.dropHost a) t m := htok.1.later [] rfl (by simp) rfl fun _ => rfl
  have hshape := htk.record.form.shape
  simp only [PageMetadata.Shape, hst] at hshape
  have hl' : (σ.dropHost a).table.lookup m.id = some { m with pinned := b } := hl
  rw [run_settled hl' rfl (by simp [transitionAllowed, hst]) (by simp [PageMetadata.dropUnsafe, hst])]
  refine Ends.of_history (ho'.finish hb htk rfl rfl rfl rfl rfl ?_ rfl (by decide) (by simp [PageMetadata.enter])) rfl
  -- the store holds what the host buffer held
  refine htk.record.edit (SameData.refl _ _) rfl (by rw [hst]; rfl) rfl rfl htk.record.form.offset ⟨rfl, hshape.2.1, hshape.2.2⟩ (by simp [PageMetadata.enter])
    (fun _ => hshape.2.2) fun hcl c hc => ?_
  have harr : σ.arrived m = σ.content m := htok.2.2.2 rfl hcl
  have hc : σ.stored m = some c := hc
  simp only [Shared.arrived, hst] at harr
  exact ⟨harr ▸ hc, fun _ => hc⟩

/-- The completion of `evict_vram_to_host`. -/
theorem finishEvictVram_ends {v : Ptr} (hi : Inv cfg σ ((t, ⟨.moving m tier .copied, ids⟩) ::ₘ T))
    (hst : m.state = .evictingToHost) (hv : m.vramPtr = some v) (hv₀ : m₀.vramPtr = some v)
    (hs₀ : m₀.allocationSize = m.allocationSize) :
    Ends cfg t T σ (finishEvictVram cfg m.id tier m₀ t ω σ) (FinishEnds t ids m.id .residentHost) := by
  obtain ⟨b, hl, hb, -, -, ho, htok⟩ := hi.enterPage rfl
  have hdev : cfg.device = true := ho.device (Nat.add_pos_left (parts_vram_pos htok.1.record.form hv) _)
  have hparts : m.parts cfg = ({ m with vramPtr := none } : PageMetadata).parts cfg + Res.vramOf m.allocationSize +
      Res.devBuf v m.allocationSize := parts_vram rfl rfl rfl hv rfl
  have hw : Hold.own cfg ⟨.moving m tier .copied, ids⟩ = Res.idsOf ids + ({ m with vramPtr := none } : PageMetadata).parts cfg +
      Res.vramOf m.allocationSize + Res.devBuf v m.allocationSize := by
    show m.parts cfg + _ = _
    rw [hparts]
    abel
  have ho' := ho
  rw [hw] at ho'
  unfold finishEvictVram
  rw [hv₀, hs₀]
  rcases ho'.deviceFree hdev t ω with ⟨e, hrun, -⟩ | ⟨hrun, ho'⟩
  · rw [Act.bind_error hrun]
    obtain ⟨hadds, hi'⟩ := Open.leaveStuck .copied .deviceFree ho hl hb htok (by simp)
    exact ⟨_, _, hadds, hi', .deviceFree, rfl, rfl, .inl ⟨_, _, _, rfl⟩⟩
  obtain ⟨bud, hrel, ho'⟩ := ho'.vramRelease t ω
  rw [Act.bind_ok hrun, Act.bind_ok hrel]
  have htk : Taken cfg ((σ.dropDev v).setVram bud) t m := htok.1.later [] rfl (by simp) rfl fun _ => rfl
  have hl' : ((σ.dropDev v).setVram bud).table.lookup m.id = some { m with pinned := b } := hl
  have hshape := htk.record.form.shape
  simp only [PageMetadata.Shape, hst] at hshape
  rw [run_settleTier hl' rfl (by simp [transitionAllowed, hst]) (by simp [PageMetadata.dropUnsafe])]
  refine Ends.of_history (ho'.finish hb htk rfl rfl rfl rfl rfl ?_ rfl (by decide) fun _ ptr' hp' => htok.2.2.1 (.inl hst) ptr' hp') rfl
  -- host memory holds what device memory held
  refine htk.record.edit (SameData.refl _ _) rfl (by rw [hst]; rfl) rfl rfl htk.record.form.offset ⟨hshape.1, rfl⟩ htk.record.form.dirty
    htk.record.form.copy fun hcl c hc => ?_
  have harr : σ.arrived m = σ.content m := htok.2.2.2 rfl hcl
  have hc : σ.arrived m = some c := by
    simp only [Shared.arrived, hst]
    exact hc
  rw [harr] at hc
  exact ⟨hc, fun hcp => (htk.record.content hcl c hc).2 hcp⟩

/-- The completion of `load_nvme_to_host`, which releases nothing. -/
theorem finishLoad_ends (hi : Inv cfg σ ((t, ⟨.moving m tier .copied, ids⟩) ::ₘ T)) (hst : m.state = .loadingToHost) :
    Ends cfg t T σ (finishLoad m.id tier t ω σ) (FinishEnds t ids m.id .residentHost) := by
  obtain ⟨b, hl, hb, -, -, ho, htok⟩ := hi.enterPage rfl
  have hw : Hold.own cfg ⟨.moving m tier .copied, ids⟩ = Res.idsOf ids + m.parts cfg := add_comm _ _
  rw [hw] at ho
  have htk := htok.1
  have hshape := htk.record.form.shape
  simp only [PageMetadata.Shape, hst] at hshape
  unfold finishLoad
  rw [run_settleTier hl rfl (by simp [transitionAllowed, hst]) (by simp [PageMetadata.dropUnsafe])]
  refine ho.finish hb htk rfl rfl rfl rfl rfl ?_ rfl (by decide) fun _ ptr' hp' => htok.2.2.1 (.inr hst) ptr' hp'
  refine htk.record.edit (SameData.refl _ _) rfl (by rw [hst]; rfl) rfl rfl htk.record.form.offset ⟨hshape.1, hshape.2.1⟩ htk.record.form.dirty
    htk.record.form.copy fun hcl c hc => ?_
  have harr : σ.arrived m = σ.content m := htok.2.2.2 rfl hcl
  have hc : σ.arrived m = some c := by
    simp only [Shared.arrived, hst]
    exact hc
  rw [harr] at hc
  exact ⟨hc, fun hcp => (htk.record.content hcl c hc).2 hcp⟩

/-- The completion of `promote_host_to_vram`. -/
theorem finishPromote_ends {ptr : Ptr} (hi : Inv cfg σ ((t, ⟨.moving m tier .copied, ids⟩) ::ₘ T))
    (hst : m.state = .loadingToVram) (hp : m.hostPtr = some ptr) (hp₀ : m₀.hostPtr = some ptr)
    (hs₀ : m₀.allocationSize = m.allocationSize) :
    Ends cfg t T σ (finishPromote m.id m₀ t ω σ) (FinishEnds t ids m.id .residentVram) := by
  obtain ⟨b, hl, hb, -, -, ho, htok⟩ := hi.enterPage rfl
  have hparts : m.parts cfg = ({ m with hostPtr := none } : PageMetadata).parts cfg + Res.hostBuf ptr m.allocationSize :=
    parts_host rfl rfl hp rfl rfl
  have hw : Hold.own cfg ⟨.moving m tier .copied, ids⟩ =
      Res.idsOf ids + ({ m with hostPtr := none } : PageMetadata).parts cfg + Res.hostBuf ptr m.allocationSize := by
    show m.parts cfg + _ = _
    rw [hparts]
    abel
  have ho' := ho
  rw [hw] at ho'
  unfold finishPromote
  rw [show deref m₀.hostPtr = ptr by rw [hp₀]; rfl, hs₀]
  rcases ho'.hostFree t ω with ⟨e, hrun, -⟩ | ⟨a, hrun, ho'⟩
  · rw [Act.bind_error hrun]
    obtain ⟨hadds, hi'⟩ := Open.leaveStuck .copied .hostFree ho hl hb htok (by simp)
    exact ⟨_, _, hadds, hi', .hostFree, rfl, rfl, .inl ⟨_, _, _, rfl⟩⟩
  rw [Act.bind_ok hrun]
  have htk : Taken cfg (σ.dropHost a) t m := htok.1.later [] rfl (by simp) rfl fun _ => rfl
  have hshape := htk.record.form.shape
  simp only [PageMetadata.Shape, hst] at hshape
  have hl' : (σ.dropHost a).table.lookup m.id = some { m with pinned := b } := hl
  rw [run_settled hl' rfl (by simp [transitionAllowed, hst]) (by simp [PageMetadata.dropUnsafe])]
  refine Ends.of_history (ho'.finish hb htk rfl rfl rfl rfl rfl ?_ rfl (by decide) (by simp [PageMetadata.enter])) rfl
  refine htk.record.edit (SameData.refl _ _) rfl (by rw [hst]; rfl) rfl rfl htk.record.form.offset ⟨hshape.2, rfl⟩ htk.record.form.dirty
    htk.record.form.copy fun hcl c hc => ?_
  have harr : σ.arrived m = σ.content m := htok.2.2.2 rfl hcl
  have hc : σ.arrived m = some c := by
    simp only [Shared.arrived, hst]
    exact hc
  rw [harr] at hc
  exact ⟨hc, fun hcp => (htk.record.content hcl c hc).2 hcp⟩

end FlashTier
