/-
The claims: a section takes a page at rest, with the buffer or extent the transfer needs, and leaves it
in flight in a transfer state, accounted for by the thread's token. `Open.take` and `Open.settle` are
the two ends of every transfer.
-/
import FlashTier.Invariant.Reserve

namespace FlashTier

open Conc

variable {cfg : RuntimeConfig} {σ σ' : Shared} {w : Res} {T : Multiset (Nat × Hold)} {t : Nat} {ω : Env} {id : PageId}
  {p q m : PageMetadata} {ids : Multiset PageId}

/-! ## Automatic moves -/

/-- What an automatic move records. -/
def moves (t : Nat) (cause : Cause) (m : PageMetadata) : List Event :=
  match cause with
  | none => []
  | some ticket => [.autoMove t m.id ticket m.pinned]

def Shared.moved (σ : Shared) (t : Nat) (cause : Cause) (m : PageMetadata) : Shared :=
  { σ with history := moves t cause m ++ σ.history }

theorem recordMove_run (cause : Cause) (m : PageMetadata) : recordMove cause m t ω σ = (.ok (), σ.moved t cause m) := by
  cases cause <;> rfl

theorem thread_of_mem_moves {cause : Cause} : ∀ e ∈ moves t cause m, e.thread = t := by
  cases cause <;> simp [moves, Event.thread]

/-- The page was in the table and not pinned when the cause last looked at it. -/
def Cause.Allows (cause : Cause) (id : PageId) (σ : Shared) : Prop :=
  ∀ ticket, cause = some ticket → ticket ≤ σ.history.length ∧ id ∈ allocIds (historyAt σ.history ticket) ∧
    pinnedIn (historyAt σ.history ticket) id = false

theorem Cause.allows_none (id : PageId) (σ : Shared) : Cause.Allows none id σ := nofun

theorem Cause.Allows.later {cause : Cause} (h : cause.Allows id σ) (hle : σ.history <:+ σ'.history) :
    cause.Allows id σ' := by
  intro ticket hc
  obtain ⟨h1, h2⟩ := h ticket hc
  obtain ⟨pre, hp⟩ := hle
  rw [← hp]
  refine ⟨le_trans h1 (by simp), ?_⟩
  rw [historyAt_append pre _ h1]
  exact h2

theorem Open.moved {cause : Cause} {A : Option PageId} (h : Open cfg σ A w T) (hc : cause.Allows m.id σ)
    (hpin : m.pinned = pinnedIn σ.history m.id) : Open cfg (σ.moved t cause m) A w T := by
  cases cause with
  | none => exact h
  | some ticket =>
    obtain ⟨h1, h2⟩ := hc ticket rfl
    exact h.logNone rfl ⟨hpin, h1, h2⟩

/-! ## Taking a page and giving it back -/

/-- Nothing of a page's data is replayed from these events. -/
theorem sameData_moved (σ : Shared) (t : Nat) (cause : Cause) (m : PageMetadata) (i id : PageId) :
    SameData σ.history (.claim t i :: (σ.moved t cause m).history) id := by
  cases cause with
  | none => exact ⟨rfl, rfl, rfl, rfl, ⟨[.claim t i], rfl⟩⟩
  | some ticket => exact ⟨rfl, rfl, rfl, rfl, ⟨[.claim t i, .autoMove t m.id ticket m.pinned], rfl⟩⟩

theorem pinnedIn_moved (σ : Shared) (t : Nat) (cause : Cause) (m : PageMetadata) (id : PageId) :
    pinnedIn (σ.moved t cause m).history id = pinnedIn σ.history id := by
  cases cause <;> rfl

theorem ownersIn_moved (σ : Shared) (t : Nat) (cause : Cause) (m : PageMetadata) (id : PageId) :
    ownersIn (σ.moved t cause m).history id = ownersIn σ.history id := by
  cases cause <;> rfl

theorem phaseIn_moved (σ : Shared) (t : Nat) (cause : Cause) (m : PageMetadata) (id : PageId) :
    phaseIn (σ.moved t cause m).history id = phaseIn σ.history id := by
  cases cause <;> rfl

theorem RecordOk.later (hr : RecordOk cfg σ q) (hd : SameData σ.history σ'.history q.id)
    (hc : σ'.content q = σ.content q) (hs : q.hasNvmeCopy = true → σ'.stored q = σ.stored q) : RecordOk cfg σ' q := by
  refine hr.edit hd rfl rfl rfl rfl hr.form.offset hr.form.shape hr.form.dirty hr.form.copy fun hcl c hcc => ?_
  rw [hc] at hcc
  exact ⟨hcc, fun hcp => (hs hcp).trans ((hr.content (hcl.of_suffix hd.suffix) c hcc).2 hcp)⟩

/-- The end of a claim: the open page is set in flight, and the claim is recorded. -/
theorem Open.take {cause : Cause} {tier : Tier} (stage : Stage) (ho : Open cfg σ (some p.id) w T)
    (howner : ownersIn σ.history p.id = []) (hpin : p.pinned = pinnedIn σ.history p.id) (hcause : cause.Allows p.id σ)
    (hid : q.id = p.id) (hqp : q.pinned = p.pinned) (hf : q.inFlight = true) (hst : q.state.transfer = true)
    (hr : RecordOk cfg σ q) (hw : w = stage.own cfg q.core + Res.idsOf ids)
    (htier : q.state = .evictingToHost ∨ q.state = .loadingToHost →
      ∀ ptr, q.hostPtr = some ptr → σ.host.allocationTier ptr = some tier)
    (hstage : stage = .copied → Clean σ.history → σ.arrived q = σ.content q) :
    Inv cfg (((σ.setPage q).moved t cause p).log (.claim t p.id)) ((t, ⟨.moving q.core tier stage, ids⟩) ::ₘ T) := by
  have hd : SameData σ.history (((σ.setPage q).moved t cause p).log (.claim t p.id)).history q.id :=
    sameData_moved (σ.setPage q) t cause p p.id q.id
  have hlive : phaseIn (σ.moved t cause p).history p.id = .live := by
    rw [phaseIn_moved, ← hid, hr.phase, PageState.phase_of_transfer hst]
  have ho : Open cfg (((σ.setPage q).moved t cause p).log (.claim t p.id)) (some p.id) w T :=
    ((ho.setPage hid).moved hcause hpin).logPage rfl hlive (by simp)
  have hmv : (((σ.setPage q).moved t cause p).log (.claim t p.id)).history = .claim t p.id :: (σ.moved t cause p).history :=
    rfl
  have hrec : RecordOk cfg (((σ.setPage q).moved t cause p).log (.claim t p.id)) q.core := (hr.later hd rfl fun _ => rfl).core
  have hown : ownersIn (((σ.setPage q).moved t cause p).log (.claim t p.id)).history q.id = [t] := by
    rw [hmv, hid, ownersIn, if_pos rfl, ownersIn_moved, howner]
  have hpin' : q.pinned = pinnedIn (((σ.setPage q).moved t cause p).log (.claim t p.id)).history q.id := by
    rw [hmv, hid, hqp, hpin]
    exact (pinnedIn_moved σ t cause p p.id).symm
  refine ho.leaveClaim ?_ hf hpin' (h := ⟨.moving q.core tier stage, ids⟩) hw rfl
    ⟨⟨hrec, hf, rfl, hown⟩, hst, htier, fun hs hcl => ?_⟩
  · rw [← hid]
    exact lookup_setPage σ q
  · exact hstage hs (hcl.of_suffix hd.suffix)

/-- The end of a transfer or release: the open page is set at rest, and this is recorded. -/
theorem Open.settle {w' : Res} {h : Hold} (ho : Open cfg σ (some id) w T) (hid : q.id = id) (hf : q.inFlight = false)
    (hpin : q.pinned = pinnedIn σ.history id) (howner : ownersIn σ.history id = [t]) (hr : RecordOk cfg σ q)
    (hrest : q.state.transfer = false)
    (htier : q.state = .residentHost → ∀ ptr, q.hostPtr = some ptr → σ.host.allocationTier ptr = some q.currentTier)
    (hheld : q.state = .released → Held σ.history id (q.parts cfg)) (hw : w = w' + q.parts cfg) (hh : w' = h.own cfg) (hc : h.claim = 0)
    (htok : TokenOk cfg ((σ.setPage q).log (.settle t id q.state false)) t h.tok) :
    Inv cfg ((σ.setPage q).log (.settle t id q.state false)) ((t, h) ::ₘ T) := by
  subst hid
  rw [hw] at ho
  have ho := ho.setPage (p := q) rfl
  have ho : Open cfg ((σ.setPage q).log (.settle t q.id q.state false)) (some q.id) _ T := ho.logPage rfl rfl (by simp)
  have hd : SameData σ.history ((σ.setPage q).log (.settle t q.id q.state false)).history q.id :=
    ⟨rfl, rfl, rfl, rfl, ⟨[.settle t q.id q.state false], rfl⟩⟩
  refine (ho.closePage (lookup_setPage σ q) hf ⟨hr.later hd rfl fun _ => rfl, hrest, ?_, htier,
    fun h => ⟨(hheld h).vram, (hheld h).host, (hheld h).nvme⟩⟩ hpin).leave hh hc htok
  show ownersIn (.settle t q.id q.state false :: σ.history) q.id = []
  rw [ownersIn, if_pos rfl, howner]
  simp

/-! ## Giving a host buffer back -/

theorem own_hostBuf (ptr : Ptr) (n : Nat) (tier : Tier) (ids : Multiset PageId) :
    Hold.own cfg ⟨.hostBuf ptr n tier, ids⟩ = Res.idsOf ids + Res.hostBuf ptr n := add_comm _ _

theorem own_idle (ids : Multiset PageId) : Hold.own cfg ⟨.idle, ids⟩ = Res.idsOf ids := zero_add _

/-- A thread that holds a host buffer frees it, or keeps it when the free fails. -/
theorem hostFree_ends {ptr n : Nat} {tier : Tier} (hi : Inv cfg σ ((t, ⟨.hostBuf ptr n tier, ids⟩) ::ₘ T)) :
    Ends cfg t T σ (hostFree ptr n t ω σ) fun evs r h' =>
      match r with
      | .ok _ => h' = ⟨.idle, ids⟩ ∧ evs = []
      | .error _ => h' = ⟨.hostBuf ptr n tier, ids⟩ ∧ evs = [.failed t .hostFree] := by
  obtain ⟨ho, htok⟩ := hi.enter rfl
  rw [own_hostBuf] at ho
  rcases ho.hostFree t ω with ⟨e, hrun, ho⟩ | ⟨a, hrun, ho⟩
  · rw [hrun]
    exact ⟨[.failed t .hostFree], _, ⟨rfl, by simp [Event.thread]⟩,
      ho.leave (own_hostBuf ptr n tier ids).symm rfl htok, rfl, rfl⟩
  · rw [hrun]
    exact ⟨[], _, ⟨rfl, by simp⟩, ho.leave (own_idle ids).symm rfl trivial, rfl, rfl⟩

/-! ## The four claims -/

namespace PageMetadata

variable (m : PageMetadata)

/-- The page while it moves from device to host memory. -/
def toHost (ptr : Ptr) : PageMetadata := ({ m with hostPtr := some ptr, inFlight := true } : PageMetadata).enter .evictingToHost

/-- The page while it is read from the store. -/
def loading (ptr : Ptr) : PageMetadata := ({ m with hostPtr := some ptr, inFlight := true } : PageMetadata).enter .loadingToHost

/-- The page while it is written to the store. -/
def writingBack (offset : Option Nat) : PageMetadata :=
  ({ m with inFlight := true, nvmeOffset := offset } : PageMetadata).enter .evictingToNvme

/-- The page while it moves to device memory. -/
def promoting (ptr : Ptr) : PageMetadata := ({ m with vramPtr := some ptr, inFlight := true } : PageMetadata).enter .loadingToVram

end PageMetadata

variable (cfg) in
/-- How a claim that was given a host buffer ends. -/
def BufferClaim (t : Nat) (ids : Multiset PageId) (ptr n : Nat) (tier : Tier) (id : PageId) (taken : PageMetadata → PageMetadata)
    (cause : Cause) (src : PageState) (evs : List Event) (r : Except Error (Option PageMetadata)) (h' : Hold) : Prop :=
  match r with
  | .ok none => h' = ⟨.idle, ids⟩ ∧ evs = []
  | .ok (some m) => h' = ⟨.moving (taken m).core tier .claimed, ids⟩ ∧ evs = .claim t id :: moves t cause m ∧
      m.id = id ∧ m.state = src ∧ WellFormed cfg m
  | .error _ => h' = ⟨.hostBuf ptr n tier, ids⟩ ∧ ∀ e ∈ evs, e = .failed t .hostFree

section

variable {ptr n : Nat} {tier : Tier} {cause : Cause}

/-- The page is not to be had: the buffer goes back. -/
theorem bufferClaim_busy {taken : PageMetadata → PageMetadata} {src : PageState}
    (hi : Inv cfg σ ((t, ⟨.hostBuf ptr n tier, ids⟩) ::ₘ T)) :
    Ends cfg t T σ ((hostFree ptr n >>= fun _ => pure none) t ω σ) (BufferClaim cfg t ids ptr n tier id taken cause src) := by
  obtain ⟨evs, h', hadds, hi', hpost⟩ := hostFree_ends (ω := ω) hi
  rcases hrun : hostFree ptr n t ω σ with ⟨e | _, σ'⟩
  · rw [Act.bind_error hrun]
    rw [hrun] at hadds hi' hpost
    exact ⟨evs, h', hadds, hi', hpost.1, by simp [hpost.2]⟩
  · rw [Act.bind_ok hrun]
    rw [hrun] at hadds hi' hpost
    exact ⟨evs, h', hadds, hi', hpost⟩

/-- The page is taken, with the buffer. -/
theorem bufferClaim_take (taken : PageMetadata → PageMetadata) {src : PageState} (dst : PageState)
    (hi : Inv cfg σ ((t, ⟨.hostBuf ptr n tier, ids⟩) ::ₘ T)) (hl : σ.table.lookup m.id = some m) (hf : m.inFlight ≠ true)
    (hsize : sizeIn σ.history m.id = some n) (hcause : cause.Allows m.id σ) (hst : m.state = src) (hhost : m.hostPtr = none)
    (hq : taken m = ({ m with hostPtr := some ptr, inFlight := true } : PageMetadata).enter dst)
    (hdst : dst.transfer = true) (hrec : RecordOk cfg σ m → RecordOk cfg σ (taken m)) :
    Ends cfg t T σ (.ok (some m), ((σ.setPage (taken m)).moved t cause m).log (.claim t m.id))
      (BufferClaim cfg t ids ptr n tier m.id taken cause src) := by
  obtain ⟨ho, htok⟩ := hi.enter rfl
  obtain ⟨hop, hok, hpin⟩ := ho.openPage hl (by simpa using hf)
  have hn : m.allocationSize = n := by
    have := hok.record.size
    rw [hsize] at this
    exact (Option.some.inj this).symm
  have hparts : (taken m).core.parts cfg = m.parts cfg + Res.hostBuf ptr m.allocationSize := by
    rw [hq]
    exact parts_host rfl hhost rfl rfl rfl
  have hown : Hold.own cfg ⟨.hostBuf ptr n tier, ids⟩ + m.parts cfg = (taken m).core.parts cfg + Res.idsOf ids := by
    rw [own_hostBuf, hparts, hn]
    abel
  refine ⟨.claim t m.id :: moves t cause m, _, ⟨rfl, ?_⟩, hop.take .claimed hok.owners hpin hcause ?_ ?_ ?_ ?_
    (hrec hok.record) hown ?_ (by simp), rfl, rfl, rfl, hst, hok.record.form⟩
  · simpa [Event.thread] using fun e he => thread_of_mem_moves e he
  · rw [hq]; rfl
  · rw [hq]; rfl
  · rw [hq]; rfl
  · rw [hq]; exact hdst
  · rintro - ptr' hp
    rw [hq] at hp
    cases hp
    exact htok

/-- The claim of `evict_vram_to_host`. -/
theorem claimEvictVram_ends (hi : Inv cfg σ ((t, ⟨.hostBuf ptr n tier, ids⟩) ::ₘ T)) (hsize : sizeIn σ.history id = some n)
    (hcause : cause.Allows id σ) :
    Ends cfg t T σ (claimEvictVram cause id ptr n t ω σ)
      (BufferClaim cfg t ids ptr n tier id (·.toHost ptr) cause .residentVram) := by
  unfold claimEvictVram
  rcases hl : σ.table.lookup id with _ | m
  · rw [Act.bind_error (copyOf_none hl)]
    exact ⟨[], _, ⟨rfl, by simp⟩, hi, rfl, by simp⟩
  rw [Act.bind_ok (copyOf_some hl)]
  by_cases hb : m.state ≠ .residentVram ∨ m.inFlight = true
  · rw [if_pos hb]
    exact bufferClaim_busy hi
  rw [if_neg hb]
  push Not at hb
  obtain ⟨hst, hf⟩ := hb
  obtain rfl := id_of_lookup hl
  have hshape := ((hi.enter rfl).1.record hl).form.shape
  simp only [PageMetadata.Shape, hst] at hshape
  rw [run_enter hl rfl (by simp [transitionAllowed, hst]) (by simp [PageMetadata.dropUnsafe]),
    Act.bind_ok (recordMove_run _ _)]
  refine bufferClaim_take (·.toHost ptr) .evictingToHost hi hl hf hsize hcause hst hshape.2 rfl rfl fun hr => ?_
  -- in flight, the page's content is still in device memory
  refine hr.edit (SameData.refl _ _) rfl (by rw [hst]; rfl) rfl rfl hr.form.offset ⟨rfl, hshape.1⟩ hr.form.dirty hr.form.copy fun hcl c hc => ?_
  have hc' : σ.content m = some c := by simpa [Shared.content, PageMetadata.toHost, PageMetadata.enter, hst] using hc
  exact ⟨hc', (hr.content hcl c hc').2⟩

/-- The claim of `load_nvme_to_host`. -/
theorem claimLoad_ends (hi : Inv cfg σ ((t, ⟨.hostBuf ptr n tier, ids⟩) ::ₘ T)) (hsize : sizeIn σ.history id = some n) :
    Ends cfg t T σ (claimLoad id ptr n t ω σ) (BufferClaim cfg t ids ptr n tier id (·.loading ptr) none .residentNvme) := by
  unfold claimLoad
  rcases hl : σ.table.lookup id with _ | m
  · rw [Act.bind_error (copyOf_none hl)]
    exact ⟨[], _, ⟨rfl, by simp⟩, hi, rfl, by simp⟩
  rw [Act.bind_ok (copyOf_some hl)]
  by_cases hb : m.state ≠ .residentNvme ∨ m.inFlight = true
  · rw [if_pos hb]
    exact bufferClaim_busy hi
  rw [if_neg hb]
  push Not at hb
  obtain ⟨hst, hf⟩ := hb
  obtain rfl := id_of_lookup hl
  have hshape := ((hi.enter rfl).1.record hl).form.shape
  simp only [PageMetadata.Shape, hst] at hshape
  rw [run_enter hl rfl (by simp [transitionAllowed, hst]) (by simp [PageMetadata.dropUnsafe])]
  refine bufferClaim_take (·.loading ptr) .loadingToHost hi hl hf hsize (Cause.allows_none _ _) hst hshape.1 rfl rfl fun hr => ?_
  refine hr.edit (SameData.refl _ _) rfl (by rw [hst]; rfl) rfl rfl hr.form.offset ⟨rfl, hshape.2⟩ hr.form.dirty hr.form.copy fun hcl c hc => ?_
  have hc' : σ.content m = some c := by simpa [Shared.content, PageMetadata.loading, PageMetadata.enter, hst] using hc
  exact ⟨hc', (hr.content hcl c hc').2⟩

end

/-- The extent of an eviction: the page's own, or a new one, in hand; a page with a valid copy keeps its own. -/
theorem Open.evictOffset (h : Open cfg σ none w T) (hio : w.io = 0) (hr : RecordOk cfg σ m) (t : Nat) (ω : Env) :
    ∃ r σ', FlashTier.evictOffset cfg m t ω σ = (r, σ') ∧ Trimmed m.id σ σ' ∧
      ((r = .error (storeFull m.id) ∧ Open cfg σ' none w T) ∨
        ∃ offset x, r = .ok offset ∧ Open cfg σ' none (w + x) T ∧ offset.isSome ∧ (m.hasNvmeCopy = true → offset = m.nvmeOffset) ∧
          (∀ o, offset = some o → ∃ first, o = (first + 1) * cfg.pageSize) ∧
          (m.writingBack offset).core.parts cfg = m.parts cfg + x) := by
  unfold FlashTier.evictOffset
  by_cases hc : ((m.dirty || !m.hasNvmeCopy) && m.nvmeOffset.isNone) = true
  · rw [if_pos hc]
    obtain ⟨hneed, hnone⟩ := Bool.and_eq_true_iff.1 hc
    have hnone : m.nvmeOffset = none := by simpa using hnone
    obtain ⟨n, hn, hsize⟩ := hr.form.size
    have hdiv : m.allocationSize / cfg.pageSize = n := by rw [hsize, Nat.mul_div_cancel _ cfg.page_pos]
    obtain ⟨r, σ', hrun, htrim, hcase⟩ := h.reserveNvmeRange hn hio m.allocationSize m.id t ω
    rw [← hdiv] at hrun
    rw [Act.bind_ok hrun]
    rcases hcase with ⟨rfl, ho⟩ | ⟨first, rfl, ho⟩
    · exact ⟨_, σ', rfl, htrim, .inl ⟨rfl, ho⟩⟩
    · refine ⟨_, σ', rfl, htrim, .inr ⟨some ((first + 1) * cfg.pageSize),
        Res.extOf (Extents.range first n) + Res.nvmeOf m.allocationSize, rfl, ?_, rfl, fun hcp => ?_, ?_, ?_⟩⟩
      · rw [← add_assoc]; exact ho
      · have := hr.form.copy hcp
        rw [hnone] at this
        cases this
      · rintro o ho; cases ho; exact ⟨first, rfl⟩
      · rw [parts_nvme (p := m) (q := (m.writingBack (some ((first + 1) * cfg.pageSize))).core) rfl rfl rfl hnone rfl hsize]
        abel
  · rw [if_neg hc]
    refine ⟨_, σ, rfl, Trimmed.of_table rfl, .inr ⟨m.nvmeOffset, 0, rfl, by rw [add_zero]; exact h, ?_, fun _ => rfl,
      hr.form.offset, by rw [add_zero]; exact parts_congr rfl rfl rfl rfl⟩⟩
    by_cases hcp : m.hasNvmeCopy = true
    · exact hr.form.copy hcp
    · simp only [Bool.not_eq_true] at hcp
      simpa [hcp, Option.isSome_iff_ne_none] using hc

/-- Whether an eviction must write: it has arrived already when the page has a clean copy. -/
def evictStage (m : PageMetadata) : Stage := if m.dirty || !m.hasNvmeCopy then .claimed else .copied

variable (cfg) in
/-- How the claim of `evict_host_to_nvme` ends. -/
def StoreClaim (t : Nat) (ids : Multiset PageId) (id : PageId) (cause : Cause) (evs : List Event)
    (r : Except Error (Option (PageMetadata × Option Nat))) (h' : Hold) : Prop :=
  match r with
  | .ok none | .error _ => h' = ⟨.idle, ids⟩ ∧ evs = []
  | .ok (some (m, offset)) => h' = ⟨.moving (m.writingBack offset).core .none (evictStage m), ids⟩ ∧
      evs = .claim t id :: moves t cause m ∧ m.id = id ∧ m.state = .residentHost ∧ m.Shape ∧
      (m.dirty = true → m.hasNvmeCopy = false) ∧ ∃ first, offset = some ((first + 1) * cfg.pageSize)

/-- The claim of `evict_host_to_nvme`. -/
theorem claimEvictHost_ends {cause : Cause} (hi : Inv cfg σ ((t, ⟨.idle, ids⟩) ::ₘ T)) (hcause : cause.Allows id σ) :
    Ends cfg t T σ (claimEvictHost cfg cause id t ω σ) (StoreClaim cfg t ids id cause) := by
  obtain ⟨ho, -⟩ := hi.enter rfl
  rw [own_idle] at ho
  unfold claimEvictHost
  rcases hl : σ.table.lookup id with _ | m
  · rw [Act.bind_error (copyOf_none hl)]
    exact ⟨[], _, ⟨rfl, by simp⟩, hi, rfl, rfl⟩
  rw [Act.bind_ok (copyOf_some hl)]
  by_cases hb : m.state ≠ .residentHost ∨ m.inFlight = true
  · rw [if_pos hb]
    exact ⟨[], _, ⟨rfl, by simp⟩, hi, rfl, rfl⟩
  rw [if_neg hb]
  push Not at hb
  obtain ⟨hst, hf⟩ := hb
  obtain rfl := id_of_lookup hl
  obtain ⟨r, σ', hrun, htrim, hcase⟩ := ho.evictOffset rfl (ho.record hl) t ω
  rcases hcase with ⟨rfl, ho⟩ | ⟨offset, x, rfl, ho, hsome, hcopy, hoff, hparts⟩
  · rw [Act.bind_error hrun]
    exact ⟨[], _, ⟨htrim.history, by simp⟩, ho.leave (own_idle ids).symm rfl trivial, rfl, rfl⟩
  rw [Act.bind_ok hrun]
  have hl' : σ'.table.lookup m.id = some m := htrim.lookup_self.trans hl
  have hcause' : cause.Allows m.id σ' := hcause.later ⟨[], htrim.history.symm⟩
  obtain ⟨hop, hok, hpin⟩ := ho.openPage hl' (by simpa using hf)
  have hr := hok.record
  have hshape := hr.form.shape
  simp only [PageMetadata.Shape, hst] at hshape
  rw [run_enter hl' rfl (by simp [transitionAllowed, hst]) (by simp [PageMetadata.dropUnsafe]),
    Act.bind_ok (recordMove_run _ _)]
  have hcont : ∀ σ : Shared, σ.content (m.writingBack offset) = σ.content m := fun σ => by
    simp [Shared.content, PageMetadata.writingBack, PageMetadata.enter, hst]
  have hstored : m.hasNvmeCopy = true → σ'.stored (m.writingBack offset) = σ'.stored m := fun hc => by
    simp [Shared.stored, PageMetadata.writingBack, PageMetadata.enter, hcopy hc]
  have hrec : RecordOk cfg σ' (m.writingBack offset) := by
    refine hr.edit (SameData.refl _ _) rfl (by rw [hst]; rfl) rfl rfl hoff ⟨hshape.1, hshape.2, hsome⟩ hr.form.dirty (fun _ => hsome)
      fun hcl c hc => ?_
    rw [hcont] at hc
    exact ⟨hc, fun hcp => (hstored hcp).trans ((hr.content hcl c hc).2 hcp)⟩
  obtain ⟨o, rfl⟩ := Option.isSome_iff_exists.1 hsome
  obtain ⟨first, rfl⟩ := hoff o rfl
  refine ⟨.claim t m.id :: moves t cause m, _, ⟨?_, ?_⟩, hop.take (evictStage m) hok.owners hpin hcause' rfl rfl rfl rfl hrec ?_
    (by rintro (h | h) <;> cases h) fun hs hcl => ?_, rfl, rfl, rfl, hst, hr.form.shape, hr.form.dirty, first, rfl⟩
  · show Event.claim t m.id :: (moves t cause m ++ σ'.history) = _
    rw [htrim.history]
    rfl
  · simpa [Event.thread] using fun e he => thread_of_mem_moves e he
  · have hown : (evictStage m).own cfg (m.writingBack (some ((first + 1) * cfg.pageSize))).core =
        (m.writingBack (some ((first + 1) * cfg.pageSize))).core.parts cfg := by
      unfold evictStage
      split <;> rfl
    show _ = (evictStage m).own cfg (m.writingBack (some ((first + 1) * cfg.pageSize))).core + _
    rw [hown, hparts]
    abel
  · -- nothing to write: the extent is a valid copy
    have hcp : m.hasNvmeCopy = true := by
      unfold evictStage at hs
      split at hs
      · cases hs
      · simp_all
    obtain ⟨ptr, hptr⟩ := Option.isSome_iff_exists.1 hshape.1
    have hc : σ'.content m = some (Bytes.take (σ'.hostMem ptr) m.allocationSize) := by
      simp [Shared.content, hst, hptr]
    show σ'.stored (m.writingBack (some ((first + 1) * cfg.pageSize))) = σ'.content (m.writingBack _)
    rw [hcont, hstored hcp, hc]
    exact (hr.content hcl _ hc).2 hcp

/-- How the claim of `promote_host_to_vram` ends. -/
def PromoteClaim (t : Nat) (ids : Multiset PageId) (id : PageId) (evs : List Event)
    (r : Except Error (Option (PageMetadata × Ptr))) (h' : Hold) : Prop :=
  match r with
  | .ok none => h' = ⟨.idle, ids⟩ ∧ evs = []
  | .ok (some (m, ptr)) => h' = ⟨.moving (m.promoting ptr).core .none .claimed, ids⟩ ∧ evs = [.claim t id] ∧
      m.id = id ∧ m.state = .residentHost ∧ m.Shape
  | .error _ => h' = ⟨.idle, ids⟩ ∧ ∀ e ∈ evs, e = .failed t .deviceAlloc

/-- The claim of `promote_host_to_vram`. -/
theorem claimPromote_ends (hi : Inv cfg σ ((t, ⟨.idle, ids⟩) ::ₘ T)) :
    Ends cfg t T σ (claimPromote cfg id t ω σ) (PromoteClaim t ids id) := by
  obtain ⟨ho, -⟩ := hi.enter rfl
  rw [own_idle] at ho
  unfold claimPromote
  rcases hl : σ.table.lookup id with _ | m
  · rw [Act.bind_error (copyOf_none hl)]
    exact ⟨[], _, ⟨rfl, by simp⟩, hi, rfl, by simp⟩
  rw [Act.bind_ok (copyOf_some hl)]
  by_cases hb : m.state ≠ .residentHost ∨ m.inFlight = true
  · rw [if_pos hb]
    exact ⟨[], _, ⟨rfl, by simp⟩, hi, rfl, rfl⟩
  rw [if_neg hb]
  push Not at hb
  obtain ⟨hst, hf⟩ := hb
  obtain rfl := id_of_lookup hl
  rcases ho.vramTryReserve m.allocationSize t ω with hres | ⟨b, hres, ho⟩
  · rw [Act.bind_ok hres, if_neg (by simp)]
    exact ⟨[], _, ⟨rfl, by simp⟩, hi, rfl, rfl⟩
  rw [Act.bind_ok hres, if_pos rfl]
  -- a failed allocation gives the bytes back
  have hback : ∀ {σ₁ e}, Open cfg σ₁ none (Res.idsOf ids + Res.vramOf m.allocationSize) T →
      deviceAlloc cfg m.allocationSize t ω (σ.setVram b) = (.error e, σ₁) →
      ∃ b', tryCatch (deviceAlloc cfg m.allocationSize) (fun e => do vramRelease m.allocationSize; throw e) t ω (σ.setVram b) =
        (.error e, σ₁.setVram b') ∧ Inv cfg (σ₁.setVram b') ((t, ⟨.idle, ids⟩) ::ₘ T) := by
    intro σ₁ e ho₁ hrun
    obtain ⟨b', hrel, ho₂⟩ := ho₁.vramRelease t ω
    refine ⟨b', ?_, ho₂.leave (own_idle ids).symm rfl trivial⟩
    rw [Act.tryCatch_error hrun, Act.bind_ok hrel]
    rfl
  rcases ho.deviceAlloc m.allocationSize t ω with ⟨e, hal⟩ | ⟨e, hal⟩ | ⟨ptr, scratch, hal, ho⟩
  · obtain ⟨b', hrun, hi'⟩ := hback ho hal
    rw [Act.bind_error hrun]
    exact ⟨[], _, ⟨rfl, by simp⟩, hi', rfl, by simp⟩
  · obtain ⟨b', hrun, hi'⟩ := hback (ho.logNone (e := .failed t .deviceAlloc) rfl rfl) hal
    rw [Act.bind_error hrun]
    exact ⟨[.failed t .deviceAlloc], _, ⟨rfl, by simp [Event.thread]⟩, hi', rfl, by simp⟩
  have hl' : ((σ.setVram b).putDev ⟨ptr, m.allocationSize⟩ scratch).table.lookup m.id = some m := hl
  obtain ⟨hop, hok, hpin⟩ := ho.openPage hl' (by simpa using hf)
  have hr := hok.record
  have hshape := hr.form.shape
  simp only [PageMetadata.Shape, hst] at hshape
  rw [Act.bind_ok (Act.tryCatch_ok hal),
    run_enter hl' rfl (by simp [transitionAllowed, hst]) (by simp [PageMetadata.dropUnsafe])]
  have hrec : RecordOk cfg ((σ.setVram b).putDev ⟨ptr, m.allocationSize⟩ scratch) (m.promoting ptr) := by
    refine hr.edit (SameData.refl _ _) rfl (by rw [hst]; rfl) rfl rfl hr.form.offset ⟨hshape.1, rfl⟩ hr.form.dirty hr.form.copy fun hcl c hc => ?_
    have hc' : ((σ.setVram b).putDev ⟨ptr, m.allocationSize⟩ scratch).content m = some c := by
      simpa [Shared.content, PageMetadata.promoting, PageMetadata.enter, hst] using hc
    exact ⟨hc', (hr.content hcl c hc').2⟩
  have hw : Res.idsOf ids + Res.vramOf m.allocationSize + Res.devBuf ptr m.allocationSize + m.parts cfg =
      (m.promoting ptr).core.parts cfg + Res.idsOf ids := by
    rw [parts_vram (p := m) (q := (m.promoting ptr).core) rfl rfl hshape.2 rfl rfl]
    abel
  exact ⟨[.claim t m.id], _, ⟨rfl, by simp [Event.thread]⟩, hop.take .claimed hok.owners hpin (Cause.allows_none _ _) rfl rfl
    rfl rfl hrec hw (by rintro (h | h) <;> cases h) (by simp), rfl, rfl, rfl, hst, hr.form.shape⟩

end FlashTier
