/-
`allocate_page`: the id a thread was issued names no page of the table until the thread inserts one, so
the insertion never overwrites; the page takes over the buffer or extent the thread holds.
-/
import FlashTier.Invariant.Requests

namespace FlashTier

open Conc

variable {env : Nat → Env → Shared → Prop} {cfg : RuntimeConfig} {σ σ' : Shared} {w : Res} {T : Multiset (Nat × Hold)} {t : Nat} {ω : Env} {id : PageId}
  {ids : Multiset PageId} {p q : PageMetadata} {α : Type}

/-! ## New pages -/

/-- A page that is in no table yet. -/
structure Blank (cfg : RuntimeConfig) (p : PageMetadata) : Prop where
  size : ∃ n, 0 < n ∧ p.allocationSize = n * cfg.pageSize
  state : p.state = .unallocated
  rest : p.inFlight = false
  clean : p.dirty = false ∧ p.hasNvmeCopy = false
  empty : p.hostPtr = none ∧ p.vramPtr = none ∧ p.nvmeOffset = none

theorem blank_newPage {a : AllocArgs} (ha : a.logicalBytes ≠ 0) : Blank cfg (newPage cfg id a) := by
  refine ⟨⟨(a.logicalBytes + cfg.pageSize - 1) / cfg.pageSize, ?_, rfl⟩, rfl, rfl, ⟨rfl, rfl⟩, rfl, rfl, rfl⟩
  exact Nat.div_pos (by omega) cfg.page_pos

theorem Blank.parts (hp : Blank cfg p) : p.parts cfg = 0 := parts_none hp.empty.1 hp.empty.2.1 hp.empty.2.2

/-- The record a new page is inserted with. -/
theorem Blank.form (hp : Blank cfg p) (hs : q.allocationSize = p.allocationSize)
    (hc : q.hasNvmeCopy = false) (hoff : ∀ off, q.nvmeOffset = some off → ∃ first, off = (first + 1) * cfg.pageSize)
    (hshape : q.Shape) : WellFormed cfg q :=
  ⟨by rw [hs]; exact hp.size, hoff, hshape, fun _ => hc, fun h => by rw [hc] at h; cases h⟩

theorem sizeIn_of_not_alloc {h : List Event} (hid : id ∉ allocIds h) : sizeIn h id = none := by
  rcases hs : sizeIn h id with _ | n
  · rfl
  · exact absurd (mem_allocIds_of_sizeIn hs) hid

/-- An id in hand was used for no page. -/
theorem Open.spare {A : Option PageId} (h : Open cfg σ A (w + Res.idsOf {id}) T) : id ∉ allocIds σ.history := by
  have hids : spareIds σ = _ := congrArg Res.ids h.acc
  have hmem : id ∈ spareIds σ := by
    rw [hids]
    simp [Res.idsOf]
  exact (mem_spareIds.1 hmem).2.2

theorem Open.lookup_spare (h : Open cfg σ none (w + Res.idsOf {id}) T) : σ.table.lookup id = none := by
  rcases hl : σ.table.lookup id with _ | p
  · rfl
  · exact absurd (mem_allocIds_of_sizeIn (h.size hl)) h.spare

/-- A page is inserted and recorded with its content. -/
theorem Open.insert {c : List UInt8} (ho : Open cfg σ none (w + q.parts cfg + Res.idsOf {q.id}) T) (hf : q.inFlight = false)
    (hform : WellFormed cfg q) (hph : q.state.phase = .live) (hrest : q.state.transfer = false) (hcopy : q.hasNvmeCopy = false)
    (hcont : ∀ c', σ.content q = some c' → c' = c)
    (htier : q.state = .residentHost → ∀ ptr, q.hostPtr = some ptr → σ.host.allocationTier ptr = some q.currentTier) :
    Open cfg ((σ.setPage q).log (.alloc t q.id q.allocationSize q.pinned c)) none w T := by
  have hspare := ho.spare
  have hop := (ho.insertPage ho.lookup_spare).logAlloc (t := t) (n := q.allocationSize) (b := q.pinned) (c := c)
    (by rw [lookup_setPage]; rfl)
  refine hop.closePage (lookup_setPage σ q) hf ⟨⟨hform, ?_, ?_, fun d hd => ?_, fun _ c' hc' => ?_⟩, hrest, ?_, htier, fun h => ?_⟩ ?_
  · exact (if_pos rfl).trans hph.symm
  · show (sizeIn σ.history q.id).or (if q.id = q.id then _ else _) = _
    rw [sizeIn_of_not_alloc hspare, if_pos rfl, Option.none_or]
  · have hd : (if q.id = q.id then none else lastWrite σ.history q.id) = some d := hd
    rw [if_pos rfl] at hd
    cases hd
  · obtain rfl := hcont c' hc'
    exact ⟨if_pos rfl, fun h => by rw [hcopy] at h; cases h⟩
  · exact if_pos rfl
  · rw [h] at hph
    cases hph
  · exact (if_pos rfl).symm

/-- The insertion of a page, then a transition that is allowed. -/
theorem run_insert {dst : PageState} {k : Unit → Sec α} (hl : σ.table.lookup id = none) (hid : p.id = id)
    (ha : transitionAllowed p.state dst = true) (hd : p.dropUnsafe dst = false) :
    (insertPage p >>= fun _ => transition id dst >>= k) t ω σ = k () t ω (σ.setPage (p.enter dst)) := by
  subst hid
  have hset : (σ.setPage p).setPage (p.enter dst) = σ.setPage (p.enter dst) := setPage_setPage σ rfl
  rw [Act.bind_ok (insertPage_none hl), Act.bind_ok (transition_some (lookup_setPage σ p) ha hd), hset]

/-! ## Sections -/

/-- The thread inserted the page, by these events. -/
def Created (t : Nat) (id : PageId) (evs : List Event) : Prop := ∃ n b c, .alloc t id n b c ∈ evs

theorem Created.mono {evs evs' : List Event} (h : Created t id evs) (hs : evs ⊆ evs') : Created t id evs' := by
  obtain ⟨n, b, c, hm⟩ := h
  exact ⟨n, b, c, hs hm⟩

theorem Created.logged {evs L : List Event} (h : Created t id evs) (hL : Log t (evs ++ L) σ) : Created t id σ.history := by
  refine h.mono fun e he => ?_
  exact (mem_mine.1 (hL.symm ▸ List.mem_append_left L he)).1

theorem takePageId_ends (hi : Inv cfg σ ((t, ⟨.idle, ids⟩) ::ₘ T)) :
    Ends cfg t T σ (takePageId t ω σ) fun _ r h' =>
      match r with
      | .ok id => h' = ⟨.idle, ids + {id}⟩
      | .error _ => h' = ⟨.idle, ids⟩ := by
  obtain ⟨ho, -⟩ := hi.enter rfl
  rw [own_idle] at ho
  unfold takePageId
  by_cases hx : σ.nextPageId = 0 ∨ σ.nextPageId = 2 ^ 64 - 1
  · rw [if_pos hx]
    exact ⟨[], _, ⟨rfl, by simp⟩, hi, rfl⟩
  · rw [if_neg hx]
    rw [not_or] at hx
    refine ⟨[], ⟨.idle, ids + {σ.nextPageId}⟩, ⟨rfl, by simp⟩, (ho.takeId hx.2).leave ?_ rfl trivial, rfl⟩
    rw [own_idle]
    simp [Res.ext_iff', Res.idsOf]

theorem own_vramBytes (n : Nat) (ids : Multiset PageId) :
    Hold.own cfg ⟨.vramBytes n, ids⟩ = Res.idsOf ids + Res.vramOf n := add_comm _ _

theorem own_vramBuf (ptr : Ptr) (n : Nat) (ids : Multiset PageId) :
    Hold.own cfg ⟨.vramBuf ptr n, ids⟩ = Res.idsOf ids + Res.vramOf n + Res.devBuf ptr n := by
  simp [Hold.own, Token.own, Res.ext_iff', Res.idsOf, Res.vramOf, Res.devBuf]

theorem vramTryReserve_ends {n : Nat} (hi : Inv cfg σ ((t, ⟨.idle, ids⟩) ::ₘ T)) :
    Ends cfg t T σ (vramTryReserve n t ω σ) fun _ r h' => ∃ b, r = .ok b ∧ h' = ⟨if b then .vramBytes n else .idle, ids⟩ := by
  obtain ⟨ho, -⟩ := hi.enter rfl
  rw [own_idle] at ho
  rcases ho.vramTryReserve n t ω with hrun | ⟨b, hrun, ho⟩
  · rw [hrun]
    exact ⟨[], _, ⟨rfl, by simp⟩, hi, false, rfl, rfl⟩
  · rw [hrun]
    exact ⟨[], _, ⟨rfl, by simp⟩, ho.leave (own_vramBytes n ids).symm rfl trivial, true, rfl, rfl⟩

theorem vramRelease_ends {n : Nat} (hi : Inv cfg σ ((t, ⟨.vramBytes n, ids⟩) ::ₘ T)) :
    Ends cfg t T σ (vramRelease n t ω σ) fun _ r h' => r = .ok () ∧ h' = ⟨.idle, ids⟩ := by
  obtain ⟨ho, -⟩ := hi.enter rfl
  rw [own_vramBytes] at ho
  obtain ⟨b, hrun, ho⟩ := ho.vramRelease t ω
  rw [hrun]
  exact ⟨[], _, ⟨rfl, by simp⟩, ho.leave (own_idle ids).symm rfl trivial, rfl, rfl⟩

theorem deviceAlloc_ends {n : Nat} (hi : Inv cfg σ ((t, ⟨.vramBytes n, ids⟩) ::ₘ T)) :
    Ends cfg t T σ (deviceAlloc cfg n t ω σ) fun _ r h' =>
      match r with
      | .ok ptr => h' = ⟨.vramBuf ptr n, ids⟩
      | .error _ => h' = ⟨.vramBytes n, ids⟩ := by
  obtain ⟨ho, -⟩ := hi.enter rfl
  rw [own_vramBytes] at ho
  rcases ho.deviceAlloc n t ω with ⟨e, hrun⟩ | ⟨e, hrun⟩ | ⟨ptr, b, hrun, ho⟩ <;> rw [hrun]
  · exact ⟨[], _, ⟨rfl, by simp⟩, hi, rfl⟩
  · exact ⟨[.failed t .deviceAlloc], _, ⟨rfl, by simp [Event.thread]⟩, Open.logNone hi rfl rfl, rfl⟩
  · exact ⟨[], _, ⟨rfl, by simp⟩, ho.leave (own_vramBuf ptr n ids).symm rfl trivial, rfl⟩

/-- The ids in hand, one of them apart. -/
theorem idsOf_add (ids : Multiset PageId) (id : PageId) : Res.idsOf (ids + {id}) = Res.idsOf ids + Res.idsOf {id} := by
  simp [Res.ext_iff', Res.idsOf]

theorem insertVram_ends {ptr : Ptr} (hp : Blank cfg p)
    (hi : Inv cfg σ ((t, ⟨.vramBuf ptr p.allocationSize, ids + {p.id}⟩) ::ₘ T)) :
    Ends cfg t T σ (insertVram p ptr t ω σ) fun evs r h' => Created t p.id evs ∧ r = .ok () ∧ h' = ⟨.idle, ids⟩ := by
  obtain ⟨ho, -⟩ := hi.enter rfl
  let q := ({ p with vramPtr := some ptr } : PageMetadata).enter .residentVram
  have hparts : q.parts cfg = p.parts cfg + Res.vramOf p.allocationSize + Res.devBuf ptr p.allocationSize :=
    parts_vram rfl rfl hp.empty.2.1 rfl rfl
  have hown : Hold.own cfg ⟨.vramBuf ptr p.allocationSize, ids + {p.id}⟩ = Res.idsOf ids + q.parts cfg + Res.idsOf {q.id} := by
    rw [own_vramBuf, idsOf_add, hparts, hp.parts, zero_add]
    show _ = _ + _ + Res.idsOf {p.id}
    abel
  rw [hown] at ho
  have hform : WellFormed cfg q :=
    hp.form rfl hp.clean.2 (fun off hoff => absurd (hp.empty.2.2.symm.trans hoff) (by simp)) ⟨rfl, hp.empty.1⟩
  have hins := ho.insert (t := t) (c := Bytes.take (σ.devMem ptr) p.allocationSize) hp.rest hform rfl rfl hp.clean.2
    (fun c' hc' => (Option.some.inj hc').symm) (by simp [q, PageMetadata.enter])
  have hl : σ.table.lookup p.id = none := ho.lookup_spare
  unfold insertVram
  rw [run_insert (p := { p with vramPtr := some ptr }) hl rfl (by simp [transitionAllowed, hp.state])
    (by simp [PageMetadata.dropUnsafe])]
  exact ⟨[.alloc t p.id p.allocationSize p.pinned (Bytes.take (σ.devMem ptr) p.allocationSize)], _,
    ⟨rfl, by simp [Event.thread]⟩, hins.leave (own_idle ids).symm rfl trivial, ⟨_, _, _, List.mem_cons_self ..⟩, rfl, rfl⟩

theorem insertHost_ends {ptr : Ptr} {tier : Tier} (hp : Blank cfg p)
    (hi : Inv cfg σ ((t, ⟨.hostBuf ptr p.allocationSize tier, ids + {p.id}⟩) ::ₘ T)) :
    Ends cfg t T σ (insertHost p ptr t ω σ) fun evs r h' => Created t p.id evs ∧ r = .ok () ∧ h' = ⟨.idle, ids⟩ := by
  obtain ⟨ho, htok⟩ := hi.enter rfl
  have htier : σ.host.allocationTier ptr = some tier := htok
  let q₁ : PageMetadata := { p with hostPtr := some ptr }
  let q₂ := q₁.enter .residentHost
  let q : PageMetadata := { q₂ with currentTier := tier }
  have hparts : q.parts cfg = p.parts cfg + Res.hostBuf ptr p.allocationSize := parts_host rfl hp.empty.1 rfl rfl rfl
  have hown : Hold.own cfg ⟨.hostBuf ptr p.allocationSize tier, ids + {p.id}⟩ =
      Res.idsOf ids + q.parts cfg + Res.idsOf {q.id} := by
    rw [own_hostBuf, idsOf_add, hparts, hp.parts, zero_add]
    show _ = _ + _ + Res.idsOf {p.id}
    abel
  rw [hown] at ho
  have hform : WellFormed cfg q :=
    hp.form rfl hp.clean.2 (fun off hoff => absurd (hp.empty.2.2.symm.trans hoff) (by simp)) ⟨rfl, hp.empty.2.1⟩
  have hins := ho.insert (t := t) (c := Bytes.take (σ.hostMem ptr) p.allocationSize) hp.rest hform rfl rfl hp.clean.2
    (fun c' hc' => (Option.some.inj hc').symm) (fun _ ptr' hptr => by cases hptr; exact htier)
  have hl : σ.table.lookup q₁.id = none := ho.lookup_spare
  have hset : ((σ.setPage q₁).setPage q₂).setPage q = σ.setPage q := by
    rw [setPage_setPage (p := q₁) (q := q₂) σ rfl, setPage_setPage (p := q₂) (q := q) σ rfl]
  have hrun : insertHost p ptr t ω σ = (.ok (), (σ.setPage q).log
      (.alloc t p.id p.allocationSize p.pinned (Bytes.take (σ.hostMem ptr) p.allocationSize))) := by
    have h1 : allocationTier ptr t ω (σ.setPage q₁) = (.ok tier, σ.setPage q₁) := by
      simp only [allocationTier, show (σ.setPage q₁).host.allocationTier ptr = some tier from htier]
    have h2 : transition p.id .residentHost t ω (σ.setPage q₁) = (.ok (), (σ.setPage q₁).setPage q₂) :=
      transition_some (lookup_setPage σ q₁) (by simp [q₁, transitionAllowed, hp.state]) (by simp [PageMetadata.dropUnsafe])
    have h3 : withPage p.id (fun m => { m with currentTier := tier }) t ω ((σ.setPage q₁).setPage q₂) = (.ok (), _) :=
      withPage_some (lookup_setPage _ q₂) _
    unfold insertHost
    rw [Act.bind_ok (insertPage_none hl), Act.bind_ok h1, Act.bind_ok h2, Act.bind_ok h3]
    show (_, (((σ.setPage q₁).setPage q₂).setPage q).log _) = _
    rw [hset]
    rfl
  rw [hrun]
  exact ⟨[.alloc t p.id p.allocationSize p.pinned (Bytes.take (σ.hostMem ptr) p.allocationSize)], _,
    ⟨rfl, by simp [Event.thread]⟩, hins.leave (own_idle ids).symm rfl trivial, ⟨_, _, _, List.mem_cons_self ..⟩, rfl, rfl⟩

theorem insertNvme_ends (hp : Blank cfg p) (hi : Inv cfg σ ((t, ⟨.idle, ids + {p.id}⟩) ::ₘ T)) :
    Ends cfg t T σ (insertNvme cfg p t ω σ) fun evs r h' =>
      match r with
      | .ok _ => h' = ⟨.idle, ids⟩ ∧ Created t p.id evs
      | .error _ => h' = ⟨.idle, ids + {p.id}⟩ := by
  obtain ⟨ho, -⟩ := hi.enter rfl
  rw [own_idle] at ho
  obtain ⟨n, hn, hsize⟩ := hp.size
  have hdiv : p.allocationSize / cfg.pageSize = n := by rw [hsize, Nat.mul_div_cancel _ cfg.page_pos]
  obtain ⟨r, σ₁, hrun, htrim, hres⟩ := ho.reserveNvmeRange hn rfl p.allocationSize p.id t ω
  unfold insertNvme
  rw [hdiv, Act.bind_ok hrun]
  rcases hres with ⟨rfl, ho₁⟩ | ⟨first, rfl, ho₁⟩
  · exact ⟨[], _, ⟨htrim.history, by simp⟩, ho₁.leave (own_idle _).symm rfl trivial, rfl⟩
  let q := ({ p with nvmeOffset := some ((first + 1) * cfg.pageSize), hasNvmeCopy := false } : PageMetadata).enter .residentNvme
  have hparts : q.parts cfg = p.parts cfg + Res.nvmeOf p.allocationSize + Res.extOf (Extents.range first n) :=
    parts_nvme rfl rfl rfl hp.empty.2.2 rfl hsize
  have hown : Res.idsOf (ids + {p.id}) + Res.extOf (Extents.range first n) + Res.nvmeOf p.allocationSize =
      Res.idsOf ids + q.parts cfg + Res.idsOf {q.id} := by
    rw [idsOf_add, hparts, hp.parts, zero_add]
    show _ = _ + _ + Res.idsOf {p.id}
    abel
  rw [hown] at ho₁
  have hform : WellFormed cfg q :=
    hp.form rfl rfl (fun off hoff => ⟨first, (Option.some.inj hoff).symm⟩) ⟨hp.empty.1, hp.empty.2.1, rfl⟩
  have hins := ho₁.insert (t := t) (c := Bytes.take (σ₁.diskAt ((first + 1) * cfg.pageSize)) p.allocationSize) hp.rest hform rfl rfl rfl
    (fun c' hc' => (Option.some.inj hc').symm) (by simp [q, PageMetadata.enter])
  have hl : σ₁.table.lookup p.id = none := ho₁.lookup_spare
  simp only
  rw [run_insert (p := { p with nvmeOffset := some ((first + 1) * cfg.pageSize), hasNvmeCopy := false }) hl rfl
    (by simp [transitionAllowed, hp.state]) (by simp [PageMetadata.dropUnsafe, hp.state])]
  refine ⟨[.alloc t p.id p.allocationSize p.pinned (Bytes.take (σ₁.diskAt ((first + 1) * cfg.pageSize)) p.allocationSize)], _,
    ⟨?_, by simp [Event.thread]⟩, hins.leave (own_idle ids).symm rfl trivial, rfl, ⟨_, _, _, List.mem_cons_self ..⟩⟩
  show _ :: σ₁.history = _ :: σ.history
  rw [htrim.history]
  rfl

/-! ## Programs -/

/-- How an attempt to place a new page ends: the page was inserted, or its id stays unused. -/
def Placed (t : Nat) (ids : Multiset PageId) (id : PageId) (σ : Shared) (r : Except Error Unit) (h : Hold) : Prop :=
  match r with
  | .ok _ => h = ⟨.idle, ids⟩ ∧ Created t id σ.history
  | .error _ => h = ⟨.idle, ids + {id}⟩ ∨ Stuck t σ h

theorem wp_placed {a : Sec Unit} {h : Hold}
    (ha : ∀ ω σ₁ T, Inv cfg σ₁ ((t, h) ::ₘ T) →
      Ends cfg t T σ₁ (a t ω σ₁) fun evs r h' => Created t id evs ∧ r = .ok () ∧ h' = ⟨.idle, ids⟩) :
    wp (logic env cfg) t (.atomic a) σ h (Placed t ids id) := by
  refine wp_mono (fun σ' r h' _ hq => ?_) (wp_section (L := mine t σ.history) rfl fun ω σ₁ T _ _ hi => ha ω σ₁ T hi)
  obtain ⟨evs, hl, hc, rfl, rfl⟩ := hq
  exact ⟨rfl, hc.logged hl⟩

theorem allocVram_wp (hp : Blank cfg p) : wp (logic env cfg) t (allocVram cfg p) σ ⟨.idle, ids + {p.id}⟩ (Placed t ids p.id) := by
  unfold allocVram
  refine wp_bind (ensureVramHeadroom_plain _ rfl) (fun σ₁ _ h₁ _ hq => ?_) fun _ _ _ _ hq => hq.2
  obtain ⟨-, rfl, -⟩ := hq
  refine wp_bind (wp_section (L := mine t σ₁.history) rfl fun ω σ₁ T _ _ hi => vramTryReserve_ends hi)
    (fun σ₂ b h₂ _ hq => ?_) fun σ₂ e h₂ _ hq => ?_
  · obtain ⟨_, -, b', hb, rfl⟩ := hq
    cases hb
    cases b with
    | false => exact .inl rfl
    | true =>
      have halloc : wp (logic env cfg) t (tryCatch (.atomic (deviceAlloc cfg p.allocationSize)) fun e => do
          .atomic (vramRelease p.allocationSize)
          throw e : Code Ptr) σ₂ ⟨.vramBytes p.allocationSize, ids + {p.id}⟩ fun _ r h' => match r with
            | .ok ptr => h' = ⟨.vramBuf ptr p.allocationSize, ids + {p.id}⟩
            | .error _ => h' = ⟨.idle, ids + {p.id}⟩ := by
        refine wp_tryCatch (wp_section (L := mine t σ₂.history) rfl fun ω σ₁ T _ _ hi => deviceAlloc_ends hi)
          (fun σ₃ ptr h₃ _ hq => ?_) fun σ₃ e h₃ _ hq => ?_
        · obtain ⟨_, -, rfl⟩ := hq
          exact rfl
        · obtain ⟨_, -, rfl⟩ := hq
          refine wp_bind (wp_section (L := mine t σ₃.history) rfl fun ω σ₁ T _ _ hi => vramRelease_ends hi)
            (fun σ₄ _ h₄ _ hq => ?_) fun σ₄ e' h₄ _ hq => ?_
          · obtain ⟨_, -, -, rfl⟩ := hq
            exact rfl
          · obtain ⟨_, -, hr, -⟩ := hq
            cases hr
      refine wp_bind halloc (fun σ₃ ptr h₃ _ hq => ?_) fun σ₃ e h₃ _ hq => .inl hq
      obtain rfl : h₃ = _ := hq
      exact wp_placed fun ω σ₁ T hi => insertVram_ends hp hi
  · obtain ⟨_, -, b', hb, -⟩ := hq
    cases hb

theorem allocHost_wp (hp : Blank cfg p) : wp (logic env cfg) t (allocHost cfg p) σ ⟨.idle, ids + {p.id}⟩ (Placed t ids p.id) := by
  unfold allocHost
  refine wp_bind (wp_section (L := mine t σ.history) rfl fun ω σ₁ T _ _ hi => hostAllocate_ends hi) (fun σ₁ r h₁ _ hq => ?_)
    fun σ₁ e h₁ _ hq => ?_
  · obtain ⟨_, -, -, hq⟩ := hq
    cases r with
    | none => exact .inl hq
    | some ptr =>
      obtain ⟨tier, rfl⟩ := hq
      exact wp_placed fun ω σ₁ T hi => insertHost_ends hp hi
  · obtain ⟨_, -, -, hq⟩ := hq
    exact .inl hq

theorem allocatePage_wp {a : AllocArgs} :
    wp (logic env cfg) t (allocatePage cfg a) σ ⟨.idle, ids⟩ fun σ' r h' => Rests t σ' h' ∧ ∀ id, r = .ok id → Created t id σ'.history := by
  unfold allocatePage
  -- whatever throws before the page is placed leaves the thread with nothing
  have herr : ∀ {σ' : Shared} {e : Error} {h' : Hold}, h'.tok = .idle →
      Rests t σ' h' ∧ ∀ id, (.error e : Except Error PageId) = .ok id → Created t id σ'.history := fun hh => ⟨.inl hh, nofun⟩
  refine wp_bind (bystander_requireRunning.wp rfl) (fun σ₁ _ h₁ _ hq => ?_) fun _ _ _ _ hq => herr (by rw [hq.1])
  rw [hq.1]
  by_cases h0 : a.logicalBytes = 0
  · rw [if_pos h0]
    exact herr rfl
  rw [if_neg h0]
  by_cases hbig : 2 ^ 64 - 1 - (cfg.pageSize - 1) < a.logicalBytes
  · rw [if_pos hbig]
    exact herr rfl
  rw [if_neg hbig]
  refine wp_bind (wp_section (L := mine t σ₁.history) rfl fun ω σ₁ T _ _ hi => takePageId_ends hi) (fun σ₂ id h₂ _ hq => ?_)
    fun _ _ _ _ hq => ?_
  · obtain ⟨_, -, rfl⟩ := hq
    have hp : Blank cfg (newPage cfg id a) := blank_newPage h0
    refine wp_bind ((Bystander.atomic (a := chooseTier (newPage cfg id a).allocationSize) fun _ _ _ =>
      ⟨rfl, rfl, rfl, rfl, rfl, rfl, rfl, rfl, rfl, rfl, rfl⟩).wp rfl) (fun σ₃ tier h₃ _ hq => ?_)
      fun _ _ _ _ hq => herr (by rw [hq.1])
    rw [hq.1]
    -- however the page is placed, what is left is to tell the telemetry
    have hend : ∀ {place : Code Unit}, wp (logic env cfg) t place σ₃ ⟨.idle, ids + {id}⟩ (Placed t ids id) →
        wp (logic env cfg) t (do place; .atomic emitEvent; pure id : Code PageId) σ₃ ⟨.idle, ids + {id}⟩
          fun σ' r h' => Rests t σ' h' ∧ ∀ id, r = .ok id → Created t id σ'.history := fun hplace => by
      refine wp_bind hplace (fun σ₄ _ h₄ _ hq => ?_) fun _ _ _ _ hq => ⟨hq.imp_left fun h => by rw [h], nofun⟩
      obtain ⟨rfl, hc⟩ := hq
      refine wp_bind ((Bystander.atomic neutral_emitEvent).wp rfl) (fun σ₅ _ h₅ hle hq => ?_) fun _ _ _ _ hq => herr (by rw [hq.1])
      refine ⟨.inl (by rw [hq.1]), fun id' hid => ?_⟩
      cases hid
      exact hc.mono hle.subset
    cases tier with
    | vram => exact hend (allocVram_wp hp)
    | hostPinned | hostPageable => exact hend (allocHost_wp hp)
    | nvme =>
      refine hend (wp_mono (fun σ' r h' _ hq => ?_)
        (wp_section (L := mine t σ₃.history) rfl fun ω σ₁ T _ _ hi => insertNvme_ends hp hi))
      obtain ⟨evs, hl, hq⟩ := hq
      cases r with
      | ok _ => exact ⟨hq.1, hq.2.logged hl⟩
      | error _ => exact .inl hq
    | none => exact herr rfl
  · obtain ⟨_, -, rfl⟩ := hq
    exact herr rfl

end FlashTier
