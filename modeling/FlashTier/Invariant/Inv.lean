/-
The invariant of the runtime. A page at rest satisfies `PageOk`; a page in flight is accounted for by
the token of the thread that took it. `Open` is the invariant inside a critical section: the running
thread has the resources `w` in hand and may have one page open, whose record it is editing.
-/
import FlashTier.Invariant.Ledger
import FlashTier.Conc.Logic

namespace FlashTier

open Conc

variable (cfg : RuntimeConfig)

/-! ## Pages -/

/-- The bytes at the authoritative place of a page, which its state names. -/
def Shared.content (σ : Shared) (p : PageMetadata) : Option (List UInt8) :=
  match p.state with
  | .residentVram | .evictingToHost => p.vramPtr.map fun v => Bytes.take (σ.devMem v) p.allocationSize
  | .residentHost | .evictingToNvme | .loadingToVram => p.hostPtr.map fun h => Bytes.take (σ.hostMem h) p.allocationSize
  | .residentNvme | .loadingToHost => p.nvmeOffset.map fun o => Bytes.take (σ.diskAt o) p.allocationSize
  | _ => none

/-- The bytes of the page's extent. -/
def Shared.stored (σ : Shared) (p : PageMetadata) : Option (List UInt8) :=
  p.nvmeOffset.map fun o => Bytes.take (σ.diskAt o) p.allocationSize

/-- The bytes at the place a transfer moves the page to. -/
def Shared.arrived (σ : Shared) (p : PageMetadata) : Option (List UInt8) :=
  match p.state with
  | .evictingToHost | .loadingToHost => p.hostPtr.map fun h => Bytes.take (σ.hostMem h) p.allocationSize
  | .loadingToVram => p.vramPtr.map fun v => Bytes.take (σ.devMem v) p.allocationSize
  | .evictingToNvme => σ.stored p
  | _ => none

/-- Which pointers a page has in each state. -/
def PageMetadata.Shape (p : PageMetadata) : Prop :=
  match p.state with
  | .residentVram => p.vramPtr.isSome ∧ p.hostPtr = none
  | .residentHost => p.hostPtr.isSome ∧ p.vramPtr = none
  | .residentNvme => p.hostPtr = none ∧ p.vramPtr = none ∧ p.nvmeOffset.isSome
  | .loadingToVram | .evictingToHost => p.hostPtr.isSome ∧ p.vramPtr.isSome
  | .loadingToHost | .evictingToNvme => p.hostPtr.isSome ∧ p.vramPtr = none ∧ p.nvmeOffset.isSome
  | .error | .released => True
  | .unallocated => False

/-- The record of a page makes sense by itself. -/
structure WellFormed (p : PageMetadata) : Prop where
  size : ∃ n, 0 < n ∧ p.allocationSize = n * cfg.pageSize
  offset : ∀ off, p.nvmeOffset = some off → ∃ first, off = (first + 1) * cfg.pageSize
  shape : p.Shape
  dirty : p.dirty = true → p.hasNvmeCopy = false
  copy : p.hasNvmeCopy = true → p.nvmeOffset.isSome

/-- The record agrees with the history and the memory: unless a failed write spoiled a copy, the page
holds what the history says, and so does its extent when it is marked as a copy. -/
structure RecordOk (σ : Shared) (p : PageMetadata) : Prop where
  form : WellFormed cfg p
  phase : phaseIn σ.history p.id = p.state.phase
  size : sizeIn σ.history p.id = some p.allocationSize
  checksum : ∀ d, lastWrite σ.history p.id = some d → p.checksum = fnv1a64 d
  content : Clean σ.history → ∀ c, σ.content p = some c →
    contentIn σ.history p.id = some c ∧ (p.hasNvmeCopy = true → σ.stored p = some c)

/-- What `free_page` still has to release is what `left` accounts for. -/
structure Held (h : List Event) (id : PageId) (left : Res) : Prop where
  vram : .vram ∈ heldIn h id ↔ left.dev ≠ 0
  host : .host ∈ heldIn h id ↔ left.host ≠ 0
  nvme : .nvme ∈ heldIn h id ↔ left.ext ≠ 0

/-- A release keeps the bytes of its extents until these are back, and as long as none are due it has the
extents its record names. -/
structure Owes (m : PageMetadata) (left : Res) : Prop where
  bytes : cfg.pageSize * left.ext.card ≤ left.nvme
  extents : left.nvme = cfg.pageSize * left.ext.card → left.ext = m.extents cfg

theorem Owes.congr {cfg : RuntimeConfig} {m m' : PageMetadata} {left left' : Res} (h : Owes cfg m left) (hm : m'.extents cfg = m.extents cfg)
    (hn : left'.nvme = left.nvme) (he : left'.ext = left.ext) : Owes cfg m' left' := by
  refine ⟨?_, fun hx => ?_⟩
  · rw [hn, he]
    exact h.bytes
  · rw [hn, he] at hx
    rw [he, hm]
    exact h.extents hx

/-- A page at rest. -/
structure PageOk (σ : Shared) (p : PageMetadata) : Prop where
  record : RecordOk cfg σ p
  rest : p.state.transfer = false
  owners : ownersIn σ.history p.id = []
  tier : p.state = .residentHost → ∀ ptr, p.hostPtr = some ptr → σ.host.allocationTier ptr = some p.currentTier
  held : p.state = .released → Held σ.history p.id (p.parts cfg)

/-! ## Tokens -/

/-- How far a transfer is: claimed; a store operation is active; the bytes have arrived; a failed
promotion whose budget bytes are given back. -/
inductive Stage where
  | claimed | io | copied | refunded
  deriving DecidableEq

/-- What a thread holds between two sections. -/
inductive Token where
  | idle
  | hostBuf (ptr : Ptr) (bytes : Nat) (tier : Tier)
  | vramBytes (bytes : Nat)
  | vramBuf (ptr : Ptr) (bytes : Nat)
  | moving (m : PageMetadata) (tier : Tier) (stage : Stage)
  | releasing (m : PageMetadata) (left : Res)

/-- A token and the ids its thread was issued and has not used. -/
structure Hold where
  tok : Token := .idle
  ids : Multiset PageId := 0

/-- What a transfer accounts for. -/
def Stage.own (m : PageMetadata) : Stage → Res
  | .claimed | .copied => m.parts cfg
  | .io => m.parts cfg + Res.ioOf (m.extents cfg)
  | .refunded => { m.parts cfg with vram := 0 }

def Token.own : Token → Res
  | .idle => 0
  | .hostBuf ptr bytes _ => Res.hostBuf ptr bytes
  | .vramBytes bytes => Res.vramOf bytes
  | .vramBuf ptr bytes => Res.devBuf ptr bytes + Res.vramOf bytes
  | .moving m _ stage => stage.own cfg m
  | .releasing _ left => left

def Hold.own (h : Hold) : Res := h.tok.own cfg + Res.idsOf h.ids

/-- The record of the page the thread has taken. -/
def Token.claim : Token → Multiset PageMetadata
  | .moving m _ _ | .releasing m _ => {m}
  | _ => 0

def Hold.claim (h : Hold) : Multiset PageMetadata := h.tok.claim

/-- A page taken by thread `t`. -/
structure Taken (σ : Shared) (t : Nat) (m : PageMetadata) : Prop where
  record : RecordOk cfg σ m
  busy : m.inFlight = true
  core : m.pinned = false
  owners : ownersIn σ.history m.id = [t]

/-- What is true of a token. -/
def TokenOk (σ : Shared) (t : Nat) : Token → Prop
  | .idle | .vramBytes _ | .vramBuf _ _ => True
  | .hostBuf ptr _ tier => σ.host.allocationTier ptr = some tier
  | .moving m tier stage => Taken cfg σ t m ∧ m.state.transfer = true ∧
      (m.state = .evictingToHost ∨ m.state = .loadingToHost →
        ∀ ptr, m.hostPtr = some ptr → σ.host.allocationTier ptr = some tier) ∧
      (stage = .copied → Clean σ.history → σ.arrived m = σ.content m)
  | .releasing m left => Taken cfg σ t m ∧ m.state = .released ∧ left.io = 0 ∧ Held σ.history m.id left ∧ Owes cfg m left

def HoldOk (σ : Shared) (x : Nat × Hold) : Prop := TokenOk cfg σ x.1 x.2.tok

/-! ## The state as a whole -/

/-- Budgets, backends, counters and events by themselves. -/
structure Wf (σ : Shared) : Prop where
  vram : σ.vramBudget.Ok
  vramLimit : σ.vramBudget.limit = cfg.vramLimit ∧ σ.vramBudget.reserve = cfg.vramReserve
  nvme : σ.nvmeBudget.Ok
  nvmeLimit : σ.nvmeBudget.limit = cfg.nvmeLimit ∧ σ.nvmeBudget.reserve = 0
  host : σ.host.limit = cfg.hostLimit ∧ σ.host.pinnedAvailable = cfg.pinnedAvailable
  hostUsed : σ.host.used = (σ.host.allocations.bag.map HostAllocation.bytes).sum
  hostLe : σ.host.used ≤ cfg.hostLimit
  store : σ.store.Ok
  geometry : σ.store.pageSize = cfg.pageSize ∧ σ.store.extentCount = cfg.extentCount
  next : σ.firstId = cfg.firstId ∧ σ.firstId ≤ σ.nextPageId ∧ σ.nextPageId < 2 ^ 64
  issued : ∀ i : Nat, i ∈ allocIds σ.history → σ.firstId ≤ i ∧ i < σ.nextPageId
  present : ∀ i : PageId, phaseIn σ.history i ≠ .absent → (σ.table.lookup i).isSome
  events : Each EventOk σ.history

/-- The pages of the table, but for an open one. -/
def others (σ : Shared) : Option PageId → Multiset PageMetadata
  | none => σ.table.bag
  | some id => (σ.table.erase id).bag

/-- What the pages that are not open and the other threads account for. -/
def rest (σ : Shared) (A : Option PageId) (T : Multiset (Nat × Hold)) : Res :=
  ((others σ A).map (PageMetadata.foot cfg)).sum + (T.map fun x => x.2.own cfg).sum

/-- What is true of every page of the table that is not open. -/
structure PageInv (σ : Shared) (p : PageMetadata) : Prop where
  pinned : p.pinned = pinnedIn σ.history p.id
  ok : p.inFlight = false → PageOk cfg σ p

/-- The invariant inside a critical section. -/
structure Open (σ : Shared) (A : Option PageId) (w : Res) (T : Multiset (Nat × Hold)) : Prop where
  acc : σ.ledger = w + rest cfg σ A T
  claims : (others σ A).bind PageMetadata.claim = T.bind fun x => x.2.claim
  pages : ∀ p ∈ others σ A, PageInv cfg σ p
  holds : ∀ x ∈ T, HoldOk cfg σ x
  wf : Wf cfg σ

/-- The invariant between two sections. -/
def Inv (σ : Shared) (T : Multiset (Nat × Hold)) : Prop := Open cfg σ none 0 T

/-! ## Membership -/

variable {cfg} {σ σ' : Shared} {A : Option PageId} {w w' R : Res} {T : Multiset (Nat × Hold)}

theorem others_id_ne {id : PageId} {p : PageMetadata} (hp : p ∈ others σ (some id)) : p.id ≠ id :=
  (Keyed.mem_erase.1 hp).2

theorem mem_table_of_others {p : PageMetadata} (hp : p ∈ others σ A) : p ∈ σ.table.bag := by
  cases A with
  | none => exact hp
  | some id => exact (Keyed.mem_erase.1 hp).1

theorem mem_claim {p m : PageMetadata} : m ∈ p.claim ↔ p.inFlight = true ∧ m = p.core := by
  unfold PageMetadata.claim
  split <;> simp_all

/-- The page a token has taken is in the table and in flight. -/
theorem Open.claimed (h : Open cfg σ A w T) {x : Nat × Hold} (hx : x ∈ T) {m : PageMetadata} (hm : m ∈ x.2.claim) :
    ∃ p ∈ others σ A, p.inFlight = true ∧ m = p.core := by
  have : m ∈ T.bind fun x => x.2.claim := Multiset.mem_bind.2 ⟨x, hx, hm⟩
  rw [← h.claims] at this
  obtain ⟨p, hp, hm⟩ := Multiset.mem_bind.1 this
  exact ⟨p, hp, mem_claim.1 hm⟩

theorem part_rest_page {p : PageMetadata} (hp : p ∈ others σ A) : Res.Part (p.foot cfg) (rest cfg σ A T) :=
  (Res.part_sum hp).trans (Res.part_add_left ..)

theorem part_rest_hold {x : Nat × Hold} (hx : x ∈ T) : Res.Part (x.2.own cfg) (rest cfg σ A T) :=
  (Res.part_sum (f := fun x : Nat × Hold => x.2.own cfg) hx).trans (Res.part_add_right ..)

/-! ## Frames -/

/-- `R` accounts for every place the record of `p` points to. -/
structure Covers (cfg : RuntimeConfig) (R : Res) (p : PageMetadata) : Prop where
  host : ∀ ptr, p.hostPtr = some ptr → (ptr, p.allocationSize) ∈ R.host
  dev : ∀ ptr, p.vramPtr = some ptr → (ptr, p.allocationSize) ∈ R.dev
  ext : ∀ i ∈ p.extents cfg, i ∈ R.ext

theorem Covers.mono {p : PageMetadata} {R' : Res} (h : Covers cfg R p) (hR : Res.Part R R') : Covers cfg R' p :=
  ⟨fun _ hp => hR.mem_host (h.host _ hp), fun _ hp => hR.mem_dev (h.dev _ hp), fun i hi => hR.mem_ext (h.ext i hi)⟩

theorem covers_parts (p : PageMetadata) : Covers cfg (p.parts cfg) p := by
  refine ⟨fun ptr hp => ?_, fun ptr hp => ?_, fun i hi => hi⟩
  · simp [PageMetadata.parts, hp]
  · simp [PageMetadata.parts, hp]

theorem covers_stage (m : PageMetadata) (s : Stage) : Covers cfg (s.own cfg m) m := by
  cases s with
  | claimed | copied => exact covers_parts m
  | io => exact (covers_parts m).mono (Res.part_add_left ..)
  | refunded =>
    have hc : Covers cfg (m.parts cfg) m := covers_parts m
    exact ⟨hc.host, hc.dev, hc.ext⟩

variable (cfg) in
/-- From `σ` to `σ'`, everything `R` accounts for and everything recorded about the pages `P` is kept. -/
structure Keeps (σ σ' : Shared) (R : Res) (P : Multiset PageMetadata) : Prop where
  host : ∀ ptr n, (ptr, n) ∈ R.host →
    σ'.hostMem ptr = σ.hostMem ptr ∧ σ'.host.allocationTier ptr = σ.host.allocationTier ptr
  dev : ∀ ptr n, (ptr, n) ∈ R.dev → σ'.devMem ptr = σ.devMem ptr
  disk : ∀ i ∈ R.ext, ∀ b, (i + 1) * cfg.pageSize ≤ b → b < (i + 2) * cfg.pageSize → σ'.disk b = σ.disk b
  history : ∃ pre, σ'.history = pre ++ σ.history ∧ ∀ e ∈ pre, ∀ p ∈ P, e.page ≠ some p.id

variable {P : Multiset PageMetadata}

theorem Keeps.suffix (h : Keeps cfg σ σ' R P) : σ.history <:+ σ'.history := by
  obtain ⟨pre, hp, -⟩ := h.history
  exact ⟨pre, hp.symm⟩

theorem Keeps.replay (h : Keeps cfg σ σ' R P) {id : PageId} (hid : ∃ p ∈ P, p.id = id) :
    SameReplay σ.history σ'.history id := by
  obtain ⟨pre, hp, he⟩ := h.history
  obtain ⟨p, hpP, rfl⟩ := hid
  rw [hp]
  exact sameReplay_append _ fun e hm => he e hm p hpP

theorem take_congr {a b : Bytes} {n : Nat} (h : ∀ i, i < n → a i = b i) : Bytes.take a n = Bytes.take b n := by
  unfold Bytes.take
  exact List.map_congr_left fun i hi => h i (List.mem_range.1 hi)

/-- Byte `i` of a page lies in one of its extents. -/
theorem mem_extents_of_byte {p : PageMetadata} (hw : WellFormed cfg p) {off i : Nat} (ho : p.nvmeOffset = some off)
    (hi : i < p.allocationSize) :
    ∃ j ∈ p.extents cfg, (j + 1) * cfg.pageSize ≤ off + i ∧ off + i < (j + 2) * cfg.pageSize := by
  obtain ⟨first, rfl⟩ := hw.offset off ho
  obtain ⟨n, -, hn⟩ := hw.size
  have hp := cfg.page_pos
  have hdm := Nat.div_add_mod i cfg.pageSize
  have hml := Nat.mod_lt i hp
  have hq : i / cfg.pageSize < n := by
    rw [Nat.div_lt_iff_lt_mul hp, ← hn]; exact hi
  refine ⟨first + i / cfg.pageSize, ?_, ?_, ?_⟩
  · unfold PageMetadata.extents
    rw [ho]
    simp only
    rw [Extents.offset_div hp, hn, Nat.mul_div_cancel _ hp, Extents.mem_range]
    exact ⟨Nat.le_add_right _ _, Nat.add_lt_add_left hq _⟩
  · have : (first + i / cfg.pageSize + 1) * cfg.pageSize =
        (first + 1) * cfg.pageSize + cfg.pageSize * (i / cfg.pageSize) := by ring
    omega
  · have : (first + i / cfg.pageSize + 2) * cfg.pageSize =
        (first + 1) * cfg.pageSize + cfg.pageSize * (i / cfg.pageSize) + cfg.pageSize := by ring
    omega

theorem Keeps.stored (h : Keeps cfg σ σ' R P) {p : PageMetadata} (hw : WellFormed cfg p) (hc : Covers cfg R p) :
    σ'.stored p = σ.stored p := by
  unfold Shared.stored
  rcases ho : p.nvmeOffset with _ | off
  · rfl
  · simp only [Option.map_some, Option.some.injEq]
    refine take_congr fun i hi => ?_
    obtain ⟨j, hj, h1, h2⟩ := mem_extents_of_byte hw ho hi
    exact h.disk j (hc.ext j hj) _ h1 h2

theorem Keeps.hostBytes (h : Keeps cfg σ σ' R P) {p : PageMetadata} (hc : Covers cfg R p) :
    (p.hostPtr.map fun q => Bytes.take (σ'.hostMem q) p.allocationSize) =
      p.hostPtr.map fun q => Bytes.take (σ.hostMem q) p.allocationSize := by
  rcases hp : p.hostPtr with _ | ptr
  · rfl
  · simp only [Option.map_some, (h.host ptr _ (hc.host ptr hp)).1]

theorem Keeps.devBytes (h : Keeps cfg σ σ' R P) {p : PageMetadata} (hc : Covers cfg R p) :
    (p.vramPtr.map fun q => Bytes.take (σ'.devMem q) p.allocationSize) =
      p.vramPtr.map fun q => Bytes.take (σ.devMem q) p.allocationSize := by
  rcases hp : p.vramPtr with _ | ptr
  · rfl
  · simp only [Option.map_some, h.dev ptr _ (hc.dev ptr hp)]

theorem Keeps.content (h : Keeps cfg σ σ' R P) {p : PageMetadata} (hw : WellFormed cfg p) (hc : Covers cfg R p) :
    σ'.content p = σ.content p := by
  have hs := h.stored hw hc
  unfold Shared.stored at hs
  unfold Shared.content
  cases p.state <;> simp only [h.hostBytes hc, h.devBytes hc, hs]

theorem Keeps.arrived (h : Keeps cfg σ σ' R P) {p : PageMetadata} (hw : WellFormed cfg p) (hc : Covers cfg R p) :
    σ'.arrived p = σ.arrived p := by
  unfold Shared.arrived
  cases p.state <;> simp only [h.hostBytes hc, h.devBytes hc, h.stored hw hc]

/-- A record stays right when the places it points to and what is recorded of the page are kept; a page
without content needs only the latter. -/
theorem RecordOk.keeps {p : PageMetadata} (hr : RecordOk cfg σ p) (h : Keeps cfg σ σ' R P)
    (hid : ∃ q ∈ P, q.id = p.id) (hc : Covers cfg R p ∨ ∀ σ : Shared, σ.content p = none) : RecordOk cfg σ' p := by
  have hs := h.replay hid
  refine ⟨hr.form, by rw [hs.phase]; exact hr.phase, by rw [hs.size]; exact hr.size,
    by rw [hs.written]; exact hr.checksum, fun hcl c hcc => ?_⟩
  rcases hc with hc | hc
  · rw [h.content hr.form hc] at hcc
    rw [hs.content, h.stored hr.form hc]
    exact hr.content (hcl.of_suffix h.suffix) c hcc
  · rw [hc] at hcc; cases hcc

theorem Held.keeps {h h' : List Event} {id : PageId} {left : Res} (hh : Held h id left) (hs : SameReplay h h' id) :
    Held h' id left :=
  ⟨by rw [hs.held]; exact hh.vram, by rw [hs.held]; exact hh.host, by rw [hs.held]; exact hh.nvme⟩

theorem PageOk.keeps {p : PageMetadata} (hr : PageOk cfg σ p) (h : Keeps cfg σ σ' R P)
    (hid : ∃ q ∈ P, q.id = p.id) (hc : Covers cfg R p) : PageOk cfg σ' p := by
  refine ⟨hr.record.keeps h hid (.inl hc), hr.rest, by rw [(h.replay hid).owners]; exact hr.owners, fun hst ptr hp => ?_,
    fun hst => (hr.held hst).keeps (h.replay hid)⟩
  rw [(h.host ptr _ (hc.host ptr hp)).2]
  exact hr.tier hst ptr hp

theorem content_released {p : PageMetadata} (hp : p.state = .released) (σ : Shared) : σ.content p = none := by
  simp [Shared.content, hp]

theorem Taken.keeps {m : PageMetadata} {t : Nat} (ht : Taken cfg σ t m) (h : Keeps cfg σ σ' R P)
    (hid : ∃ q ∈ P, q.id = m.id) (hc : Covers cfg R m ∨ ∀ σ : Shared, σ.content m = none) : Taken cfg σ' t m :=
  ⟨ht.record.keeps h hid hc, ht.busy, ht.core, by rw [(h.replay hid).owners]; exact ht.owners⟩

theorem TokenOk.keeps {t : Nat} {tok : Token} (ht : TokenOk cfg σ t tok) (h : Keeps cfg σ σ' R P)
    (hid : ∀ m ∈ tok.claim, ∃ q ∈ P, q.id = m.id) (hR : Res.Part (tok.own cfg) R) : TokenOk cfg σ' t tok := by
  cases tok with
  | idle | vramBytes | vramBuf => trivial
  | hostBuf ptr bytes tier =>
    exact (h.host ptr bytes (hR.mem_host (by simp [Token.own, Res.hostBuf]))).2.trans ht
  | moving m tier stage =>
    obtain ⟨h1, h2, h3, h4⟩ := ht
    have hc : Covers cfg R m := (covers_stage m stage).mono hR
    refine ⟨h1.keeps h (hid m (by simp [Token.claim])) (.inl hc), h2, fun hst ptr hp => ?_, fun hst hcl => ?_⟩
    · rw [(h.host ptr _ (hc.host ptr hp)).2]; exact h3 hst ptr hp
    · rw [h.arrived h1.record.form hc, h.content h1.record.form hc]; exact h4 hst (hcl.of_suffix h.suffix)
  | releasing m left =>
    obtain ⟨h1, h2, h3, h4, h5⟩ := ht
    have hm := hid m (by simp [Token.claim])
    exact ⟨h1.keeps h hm (.inr (content_released h2)), h2, h3, h4.keeps (h.replay hm), h5⟩

/-- The frame rule: a change inside a section that leaves the other pages in the table, keeps what the
rest accounts for and balances the ledger keeps the invariant. -/
theorem Open.frame (h : Open cfg σ A w T) (ht : others σ' A = others σ A)
    (hk : Keeps cfg σ σ' (rest cfg σ A T) (others σ A)) (hacc : σ'.ledger = w' + rest cfg σ A T) (hwf : Wf cfg σ') :
    Open cfg σ' A w' T := by
  have hrest : rest cfg σ' A T = rest cfg σ A T := by unfold rest; rw [ht]
  refine ⟨by rw [hrest]; exact hacc, by rw [ht]; exact h.claims, fun p hp => ?_, fun x hx => ?_, hwf⟩
  · rw [ht] at hp
    have hid : ∃ q ∈ others σ A, q.id = p.id := ⟨p, hp, rfl⟩
    refine ⟨by rw [(hk.replay hid).pinned]; exact (h.pages p hp).pinned, fun hf => ?_⟩
    refine ((h.pages p hp).ok hf).keeps hk hid ((covers_parts p).mono ?_)
    have : Res.Part (p.foot cfg) (rest cfg σ A T) := part_rest_page hp
    rwa [PageMetadata.foot, hf, if_neg (by simp)] at this
  · refine (h.holds x hx).keeps hk (fun m hm => ?_) ((Res.part_add_left ..).trans (part_rest_hold hx))
    obtain ⟨p, hp, -, rfl⟩ := h.claimed hx hm
    exact ⟨p, hp, rfl⟩

end FlashTier
