/-
The elementary changes of the shared state, inside a critical section: what each takes from the
running thread's hand or puts into it, and that it keeps the invariant.
-/
import FlashTier.Invariant.Inv
import FlashTier.Runtime.Sections

namespace FlashTier

open Conc

variable {cfg : RuntimeConfig} {σ σ' : Shared} {A : Option PageId} {w w' R : Res} {T : Multiset (Nat × Hold)}
  {P : Multiset PageMetadata}

/-! ## Changes that touch nothing accounted for -/

/-- Two states that differ only in fields the invariant does not mention. -/
structure SameCore (σ σ' : Shared) : Prop where
  table : σ'.table = σ.table
  vram : σ'.vramBudget = σ.vramBudget
  nvme : σ'.nvmeBudget = σ.nvmeBudget
  host : σ'.host = σ.host
  device : σ'.device = σ.device
  store : σ'.store = σ.store
  hostMem : σ'.hostMem = σ.hostMem
  devMem : σ'.devMem = σ.devMem
  disk : σ'.disk = σ.disk
  next : (σ'.firstId, σ'.nextPageId) = (σ.firstId, σ.nextPageId)
  history : σ'.history = σ.history

theorem SameCore.ledger (hs : SameCore σ σ') : σ'.ledger = σ.ledger := by
  unfold Shared.ledger
  rw [hs.vram, hs.nvme, hs.host, hs.device, hs.store, spareIds_congr hs.next hs.history]

theorem Wf.same (h : Wf cfg σ) (hs : SameCore σ σ') : Wf cfg σ' := by
  obtain ⟨htb, hv, hn, hh, -, hst, -, -, -, hnx, hhi⟩ := hs
  obtain ⟨hfx, hnx⟩ := Prod.mk.inj hnx
  exact ⟨by rw [hv]; exact h.vram, by rw [hv]; exact h.vramLimit, by rw [hn]; exact h.nvme, by rw [hn]; exact h.nvmeLimit,
    by rw [hh]; exact h.host, by rw [hh]; exact h.hostUsed, by rw [hh]; exact h.hostLe, by rw [hst]; exact h.store,
    by rw [hst]; exact h.geometry, by rw [hfx, hnx]; exact h.next, by rw [hfx, hnx, hhi]; exact h.issued,
    by rw [htb, hhi]; exact h.present,
    by rw [hhi]; exact h.events⟩

theorem Keeps.same (hm : σ'.hostMem = σ.hostMem) (hh : σ'.host = σ.host) (hd : σ'.devMem = σ.devMem)
    (hk : σ'.disk = σ.disk) (hi : σ'.history = σ.history) : Keeps cfg σ σ' R P :=
  ⟨fun _ _ _ => by rw [hm, hh]; exact ⟨rfl, rfl⟩, fun _ _ _ => by rw [hd], fun _ _ _ _ _ => by rw [hk],
    [], by rw [hi]; rfl, by simp⟩

theorem Open.same (h : Open cfg σ A w T) (hs : SameCore σ σ') : Open cfg σ' A w T := by
  refine h.frame ?_ (Keeps.same hs.hostMem hs.host hs.devMem hs.disk hs.history) (hs.ledger.trans h.acc) (h.wf.same hs)
  unfold others
  rw [hs.table]

/-! ## The table -/

/-- A change of the table that leaves the other pages. -/
theorem Open.table {tb : Keyed PageMetadata.id} {A' : Option PageId} (h : Open cfg σ A w T)
    (ht : others { σ with table := tb } A' = others σ A)
    (hpres : ∀ i, phaseIn σ.history i ≠ .absent → (tb.lookup i).isSome) : Open cfg { σ with table := tb } A' w T := by
  have hrest : rest cfg { σ with table := tb } A' T = rest cfg σ A T := by unfold rest; rw [ht]
  refine ⟨by rw [hrest]; exact h.acc, by rw [ht]; exact h.claims, fun p hp => ?_, fun x hx => ?_, ?_⟩
  · rw [ht] at hp
    have hp := h.pages p hp
    exact ⟨hp.pinned, fun hf =>
      have hk := hp.ok hf
      ⟨⟨hk.record.form, hk.record.phase, hk.record.size, hk.record.checksum, hk.record.content⟩, hk.rest, hk.owners, hk.tier, hk.held⟩⟩
  · have := h.holds x hx
    obtain ⟨t, tok, ids⟩ := x
    cases tok with
    | idle | vramBytes | vramBuf => trivial
    | hostBuf => exact this
    | moving =>
      obtain ⟨h1, h2⟩ := this
      exact ⟨⟨⟨h1.record.form, h1.record.phase, h1.record.size, h1.record.checksum, h1.record.content⟩, h1.busy, h1.core, h1.owners⟩, h2⟩
    | releasing =>
      obtain ⟨h1, h2⟩ := this
      exact ⟨⟨⟨h1.record.form, h1.record.phase, h1.record.size, h1.record.checksum, h1.record.content⟩, h1.busy, h1.core, h1.owners⟩, h2⟩
  · have hw := h.wf
    exact ⟨hw.vram, hw.vramLimit, hw.nvme, hw.nvmeLimit, hw.host, hw.hostUsed, hw.hostLe, hw.store, hw.geometry, hw.next,
      hw.issued, hpres, hw.events⟩

theorem others_setPage_self (p : PageMetadata) : others (σ.setPage p) (some p.id) = others σ (some p.id) := by
  show ((σ.table.put p).erase p.id).bag = (σ.table.erase p.id).bag
  have h1 := Keyed.bag_eq_cons (Keyed.lookup_put_self σ.table p)
  rw [Keyed.bag_put] at h1
  exact ((Multiset.cons_inj_right p).1 h1).symm

theorem isSome_lookup_put {tb : Keyed PageMetadata.id} {i : PageId} (p : PageMetadata) (h : (tb.lookup i).isSome) :
    ((tb.put p).lookup i).isSome := by
  by_cases hi : p.id = i
  · rw [← hi, Keyed.lookup_put_self]
    rfl
  · rw [Keyed.lookup_put_ne _ hi]
    exact h

/-- The record of the open page is set. -/
theorem Open.setPage {id : PageId} {p : PageMetadata} (h : Open cfg σ (some id) w T) (hid : p.id = id) :
    Open cfg (σ.setPage p) (some id) w T := by
  subst hid
  exact h.table (others_setPage_self p) fun i hi => isSome_lookup_put p (h.wf.present i hi)

/-- A new page is inserted, and open. -/
theorem Open.insertPage {p : PageMetadata} (h : Open cfg σ none w T) (hl : σ.table.lookup p.id = none) :
    Open cfg (σ.setPage p) (some p.id) w T := by
  refine h.table ((others_setPage_self p).trans ?_) fun i hi => isSome_lookup_put p (h.wf.present i hi)
  exact Keyed.bag_erase_of_none hl

/-- The open page is erased, after this was recorded. -/
theorem Open.erasePage {id : PageId} (h : Open cfg σ (some id) w T) (ha : phaseIn σ.history id = .absent) :
    Open cfg (σ.erasePage id) none w T := by
  refine h.table rfl fun i hi => ?_
  have hne : id ≠ i := by
    rintro rfl
    exact hi ha
  rw [Keyed.lookup_erase_ne _ hne]
  exact h.wf.present i hi

theorem table_eq_cons {id : PageId} {p : PageMetadata} (hl : σ.table.lookup id = some p) :
    others σ none = p ::ₘ others σ (some id) := Keyed.bag_eq_cons hl

theorem rest_none {id : PageId} {p : PageMetadata} (hl : σ.table.lookup id = some p) :
    rest cfg σ none T = p.foot cfg + rest cfg σ (some id) T := by
  unfold rest
  rw [table_eq_cons hl, Multiset.map_cons, Multiset.sum_cons, add_assoc]

/-- Open a page at rest: what it accounts for is in hand. -/
theorem Open.openPage {id : PageId} {p : PageMetadata} (h : Open cfg σ none w T) (hl : σ.table.lookup id = some p)
    (hf : p.inFlight = false) :
    Open cfg σ (some id) (w + p.parts cfg) T ∧ PageOk cfg σ p ∧ p.pinned = pinnedIn σ.history p.id := by
  have hmem : p ∈ others σ none := (Keyed.lookup_some.1 hl).1
  have hfoot : p.foot cfg = p.parts cfg := by unfold PageMetadata.foot; rw [hf, if_neg (by simp)]
  have hclaim : p.claim = 0 := by unfold PageMetadata.claim; rw [hf, if_neg (by simp)]
  refine ⟨⟨?_, ?_, fun q hq => h.pages q (mem_table_of_others hq), h.holds, h.wf⟩, (h.pages p hmem).ok hf,
    (h.pages p hmem).pinned⟩
  · rw [add_assoc, ← hfoot, ← rest_none hl]; exact h.acc
  · have := h.claims
    rw [table_eq_cons hl, Multiset.cons_bind, hclaim, zero_add] at this
    exact this

/-- Close a page at rest. -/
theorem Open.closePage {id : PageId} {p : PageMetadata} (h : Open cfg σ (some id) (w + p.parts cfg) T)
    (hl : σ.table.lookup id = some p) (hf : p.inFlight = false) (hp : PageOk cfg σ p)
    (hpin : p.pinned = pinnedIn σ.history p.id) : Open cfg σ none w T := by
  have hfoot : p.foot cfg = p.parts cfg := by unfold PageMetadata.foot; rw [hf, if_neg (by simp)]
  have hclaim : p.claim = 0 := by unfold PageMetadata.claim; rw [hf, if_neg (by simp)]
  refine ⟨?_, ?_, fun q hq => ?_, h.holds, h.wf⟩
  · rw [rest_none hl, hfoot, ← add_assoc]; exact h.acc
  · rw [table_eq_cons hl, Multiset.cons_bind, hclaim, zero_add]; exact h.claims
  · rw [table_eq_cons hl] at hq
    rcases Multiset.mem_cons.1 hq with rfl | hq
    · exact ⟨hpin, fun _ => hp⟩
    · exact h.pages q hq

/-! ## Tokens -/

theorem rest_cons (x : Nat × Hold) : rest cfg σ A (x ::ₘ T) = x.2.own cfg + rest cfg σ A T := by
  unfold rest
  rw [Multiset.map_cons, Multiset.sum_cons]
  abel

/-- At the start of a section of a thread that has taken no page, what it holds is in hand. -/
theorem Inv.enter {t : Nat} {h : Hold} (hi : Inv cfg σ ((t, h) ::ₘ T)) (hc : h.claim = 0) :
    Open cfg σ none (h.own cfg) T ∧ TokenOk cfg σ t h.tok := by
  refine ⟨⟨?_, ?_, hi.pages, fun x hx => hi.holds x (Multiset.mem_cons_of_mem hx), hi.wf⟩,
    hi.holds _ (Multiset.mem_cons_self _ _)⟩
  · have := hi.acc
    rwa [zero_add, rest_cons] at this
  · have := hi.claims
    rw [Multiset.cons_bind] at this
    rw [this, hc, zero_add]

/-- At its end, what is in hand is what it holds. -/
theorem Open.leave {t : Nat} {h : Hold} (ho : Open cfg σ none w T) (hw : w = h.own cfg) (hc : h.claim = 0)
    (ht : TokenOk cfg σ t h.tok) : Inv cfg σ ((t, h) ::ₘ T) := by
  refine ⟨?_, ?_, ho.pages, fun x hx => ?_, ho.wf⟩
  · rw [zero_add, rest_cons, ← hw]; exact ho.acc
  · rw [Multiset.cons_bind, hc, zero_add]; exact ho.claims
  · rcases Multiset.mem_cons.1 hx with rfl | hx
    · exact ht
    · exact ho.holds x hx

/-- At the start of a section of a thread that has taken a page, the page is open. -/
theorem Inv.enterClaim {t : Nat} {h : Hold} {m : PageMetadata} (hi : Inv cfg σ ((t, h) ::ₘ T)) (hc : h.claim = {m}) :
    ∃ p, σ.table.lookup m.id = some p ∧ p.core = m ∧ p.inFlight = true ∧ p.pinned = pinnedIn σ.history m.id ∧
      Open cfg σ (some m.id) (h.own cfg) T ∧ TokenOk cfg σ t h.tok := by
  obtain ⟨p, hp, hf, rfl⟩ := hi.claimed (Multiset.mem_cons_self _ _) (by rw [hc]; exact Multiset.mem_singleton_self m)
  have hl : σ.table.lookup p.core.id = some p := Keyed.lookup_of_mem (mem_table_of_others hp)
  have hfoot : p.foot cfg = 0 := by unfold PageMetadata.foot; rw [hf, if_pos rfl]
  have hclaim : p.claim = {p.core} := by unfold PageMetadata.claim; rw [hf, if_pos rfl]
  refine ⟨p, hl, rfl, hf, (hi.pages p hp).pinned, ⟨?_, ?_, fun q hq => hi.pages q (mem_table_of_others hq),
    fun x hx => hi.holds x (Multiset.mem_cons_of_mem hx), hi.wf⟩, hi.holds _ (Multiset.mem_cons_self _ _)⟩
  · have := hi.acc
    rwa [zero_add, rest_none hl, hfoot, zero_add, rest_cons] at this
  · have := hi.claims
    rw [table_eq_cons hl, Multiset.cons_bind, Multiset.cons_bind, hc, hclaim] at this
    exact add_left_cancel this

/-- At its end, the open page is in flight and taken by the thread. -/
theorem Open.leaveClaim {t : Nat} {h : Hold} {id : PageId} {p : PageMetadata} (ho : Open cfg σ (some id) w T)
    (hl : σ.table.lookup id = some p) (hf : p.inFlight = true) (hpin : p.pinned = pinnedIn σ.history p.id)
    (hw : w = h.own cfg) (hc : h.claim = {p.core}) (ht : TokenOk cfg σ t h.tok) : Inv cfg σ ((t, h) ::ₘ T) := by
  have hfoot : p.foot cfg = 0 := by unfold PageMetadata.foot; rw [hf, if_pos rfl]
  have hclaim : p.claim = {p.core} := by unfold PageMetadata.claim; rw [hf, if_pos rfl]
  refine ⟨?_, ?_, fun q hq => ?_, fun x hx => ?_, ho.wf⟩
  · rw [zero_add, rest_none hl, hfoot, zero_add, rest_cons, ← hw]; exact ho.acc
  · rw [table_eq_cons hl, Multiset.cons_bind, Multiset.cons_bind, hc, hclaim, ho.claims]
  · rw [table_eq_cons hl] at hq
    rcases Multiset.mem_cons.1 hq with rfl | hq
    · exact ⟨hpin, fun h' => by rw [hf] at h'; cases h'⟩
    · exact ho.pages q hq
  · rcases Multiset.mem_cons.1 hx with rfl | hx
    · exact ht
    · exact ho.holds x hx

/-! ## Recording -/

theorem allocIds_cons_of_page_ne {e : Event} (he : ∀ t id n b c, e ≠ .alloc t id n b c) (h : List Event) :
    allocIds (e :: h) = allocIds h := by
  cases e with
  | alloc t id n b c => exact absurd rfl (he t id n b c)
  | _ => rfl

/-- Only an allocation brings a page into the table. -/
theorem phase_of_cons {e : Event} {h : List Event} {i : PageId} (hok : EventOk e h) (hna : ∀ t id n b c, e ≠ .alloc t id n b c)
    (hi : phaseIn (e :: h) i ≠ .absent) : phaseIn h i ≠ .absent := by
  cases e with
  | alloc t id n b c => exact absurd rfl (hna t id n b c)
  | release t id owned =>
    by_cases heq : id = i
    · rw [← heq]
      exact hok.1
    · rwa [phaseIn, if_neg heq] at hi
  | erase t id =>
    by_cases heq : id = i
    · rw [phaseIn, if_pos heq] at hi
      exact absurd rfl hi
    · rwa [phaseIn, if_neg heq] at hi
  | _ => exact hi

theorem Keeps.log {e : Event} (he : ∀ p ∈ P, e.page ≠ some p.id) : Keeps cfg σ (σ.log e) R P :=
  ⟨fun _ _ _ => ⟨rfl, rfl⟩, fun _ _ _ => rfl, fun _ _ _ _ _ => rfl, [e], rfl, by simpa using he⟩

/-- An event that does not allocate is recorded; it concerns no page but the open one. -/
theorem Open.log {e : Event} (h : Open cfg σ A w T) (he : ∀ p ∈ others σ A, e.page ≠ some p.id)
    (hok : EventOk e σ.history) (hna : ∀ t id n b c, e ≠ .alloc t id n b c) : Open cfg (σ.log e) A w T := by
  have hw := h.wf
  have hal : allocIds (e :: σ.history) = allocIds σ.history := allocIds_cons_of_page_ne hna _
  have hids : spareIds (σ.log e) = spareIds σ := by
    unfold spareIds
    simp only [Shared.log, hal]
  have hled : (σ.log e).ledger = σ.ledger := by
    unfold Shared.ledger
    rw [hids]
    rfl
  refine h.frame rfl (Keeps.log he) (hled.trans h.acc)
    ⟨hw.vram, hw.vramLimit, hw.nvme, hw.nvmeLimit, hw.host, hw.hostUsed, hw.hostLe, hw.store, hw.geometry, hw.next,
      fun i hi => hw.issued i ?_, fun i hi => hw.present i (phase_of_cons hok hna hi), ⟨hok, hw.events⟩⟩
  rw [← hal]
  exact hi

/-- An event about no page's record. -/
theorem Open.logNone {e : Event} (h : Open cfg σ A w T) (he : e.page = none) (hok : EventOk e σ.history) :
    Open cfg (σ.log e) A w T :=
  h.log (fun p _ => by rw [he]; simp) hok fun t id n b c heq => by rw [heq] at he; cases he

/-- An event about the open page. -/
theorem Open.logPage {e : Event} {id : PageId} (h : Open cfg σ (some id) w T) (he : e.page = some id)
    (hok : EventOk e σ.history) (hna : ∀ t id n b c, e ≠ .alloc t id n b c) : Open cfg (σ.log e) (some id) w T :=
  h.log (fun p hp => by rw [he]; exact fun h' => others_id_ne hp (Option.some.inj h').symm) hok hna

/-- The open page is recorded as allocated, which uses its id. -/
theorem Open.logAlloc {t id n : Nat} {b : Bool} {c : List UInt8} (h : Open cfg σ (some id) (w + Res.idsOf {id}) T)
    (hl : (σ.table.lookup id).isSome) :
    Open cfg (σ.log (.alloc t id n b c)) (some id) w T := by
  have hw := h.wf
  have hmem : id ∈ spareIds σ := by
    have : (σ.ledger).ids = _ := congrArg Res.ids h.acc
    rw [show spareIds σ = _ from this]
    simp [Res.idsOf]
  have hid := mem_spareIds.1 hmem
  have hids : id ::ₘ spareIds (σ.log (.alloc t id n b c)) = spareIds σ := by
    have hnot : id ∉ spareIds (σ.log (.alloc t id n b c)) :=
      fun hm => (mem_spareIds.1 hm).2.2 (List.mem_cons_self ..)
    rw [Multiset.Nodup.ext (Multiset.nodup_cons.2 ⟨hnot, nodup_spareIds _⟩) (nodup_spareIds σ)]
    intro (i : Nat)
    rw [Multiset.mem_cons, mem_spareIds, mem_spareIds]
    show i = id ∨ (σ.firstId ≤ i ∧ i < σ.nextPageId ∧ i ∉ id :: allocIds σ.history) ↔ _
    rw [List.mem_cons, not_or]
    constructor
    · rintro (rfl | ⟨h1, h2, -, h3⟩)
      · exact hid
      · exact ⟨h1, h2, h3⟩
    · rintro ⟨h1, h2, h3⟩
      by_cases hi : i = id
      · exact .inl hi
      · exact .inr ⟨h1, h2, hi, h3⟩
  have hled : Res.idsOf {id} + (σ.log (.alloc t id n b c)).ledger = σ.ledger :=
    Res.ext_iff'.2 ⟨zero_add _, zero_add _, zero_add _, zero_add _, zero_add _, zero_add _, hids⟩
  refine h.frame rfl (Keeps.log fun p hp h' => others_id_ne hp (Option.some.inj h').symm) ?_
    ⟨hw.vram, hw.vramLimit, hw.nvme, hw.nvmeLimit, hw.host, hw.hostUsed, hw.hostLe, hw.store, hw.geometry, hw.next,
      fun i hi => ?_, fun i hi => ?_, ⟨hid.2.2, hw.events⟩⟩
  · rw [h.acc, add_comm w, add_assoc] at hled
    exact add_left_cancel hled
  · rcases List.mem_cons.1 hi with rfl | hi
    · exact ⟨hid.1, hid.2.1⟩
    · exact hw.issued i hi
  · have hi : (if id = i then Phase.live else phaseIn σ.history i) ≠ .absent := hi
    by_cases heq : id = i
    · rw [← heq]
      exact hl
    · rw [if_neg heq] at hi
      exact hw.present i hi

/-- A page id is issued. -/
theorem Open.takeId (h : Open cfg σ A w T) (hlt : σ.nextPageId ≠ 2 ^ 64 - 1) :
    Open cfg σ.issueId A (w + Res.idsOf {σ.nextPageId}) T := by
  have hw := h.wf
  have hu : σ.issueId.nextPageId = σ.nextPageId + 1 := u64_of_lt (by have := hw.next; omega)
  have hnew : σ.nextPageId ∉ allocIds σ.history := fun hi => absurd (hw.issued _ hi).2 (lt_irrefl _)
  have hids : spareIds σ.issueId = spareIds σ + {σ.nextPageId} := by
    have hnd : (σ.nextPageId ::ₘ spareIds σ).Nodup :=
      Multiset.nodup_cons.2 ⟨fun hm => absurd (mem_spareIds.1 hm).2.1 (lt_irrefl _), nodup_spareIds σ⟩
    rw [add_comm, Multiset.singleton_add, Multiset.Nodup.ext (nodup_spareIds _) hnd]
    intro (i : Nat)
    rw [Multiset.mem_cons, mem_spareIds, mem_spareIds, hu]
    show σ.firstId ≤ i ∧ i < σ.nextPageId + 1 ∧ i ∉ allocIds σ.history ↔ _
    have := hw.next
    constructor
    · rintro ⟨h1, h2, h3⟩
      by_cases hi : i = σ.nextPageId
      · exact .inl hi
      · exact .inr ⟨h1, by omega, h3⟩
    · rintro (rfl | ⟨h1, h2, h3⟩)
      · exact ⟨this.2.1, Nat.lt_succ_self _, hnew⟩
      · exact ⟨h1, by omega, h3⟩
  have hled : σ.issueId.ledger = σ.ledger + Res.idsOf {σ.nextPageId} :=
    Res.ext_iff'.2 ⟨(add_zero _).symm, (add_zero _).symm, rfl, rfl, (add_zero _).symm, (add_zero _).symm, hids⟩
  refine h.frame rfl (Keeps.same rfl rfl rfl rfl rfl) (by rw [hled, h.acc, add_right_comm])
    ⟨hw.vram, hw.vramLimit, hw.nvme, hw.nvmeLimit, hw.host, hw.hostUsed, hw.hostLe, hw.store, hw.geometry, ?_,
      fun i hi => ?_, hw.present, hw.events⟩
  · rw [hu]
    have := hw.next
    exact ⟨this.1, Nat.le_succ_of_le this.2.1, by omega⟩
  · rw [hu]
    exact ⟨(hw.issued i hi).1, Nat.lt_succ_of_lt (hw.issued i hi).2⟩

/-! ## Budgets -/

theorem Open.reserveVram {n : Nat} {b : TierBudget} (h : Open cfg σ A w T) (hb : σ.vramBudget.tryReserve n = some b) :
    Open cfg (σ.setVram b) A (w + Res.vramOf n) T := by
  have hw := h.wf
  obtain ⟨h1, h2, h3, h4⟩ := TierBudget.tryReserve_some hw.vram hb
  have hled : (σ.setVram b).ledger = σ.ledger + Res.vramOf n :=
    Res.ext_iff'.2 ⟨(add_zero _).symm, (add_zero _).symm, h1, rfl, (add_zero _).symm, (add_zero _).symm,
      (add_zero _).symm⟩
  exact h.frame rfl (Keeps.same rfl rfl rfl rfl rfl) (by rw [hled, h.acc, add_right_comm])
    ⟨h4, ⟨h2.trans hw.vramLimit.1, h3.trans hw.vramLimit.2⟩, hw.nvme, hw.nvmeLimit, hw.host, hw.hostUsed, hw.hostLe,
      hw.store, hw.geometry, hw.next, hw.issued, hw.present, hw.events⟩

theorem Open.releaseVram {n : Nat} (h : Open cfg σ A (w + Res.vramOf n) T) :
    ∃ b, σ.vramBudget.release n = some b ∧ Open cfg (σ.setVram b) A w T := by
  have hw := h.wf
  have hu : σ.vramBudget.used = w.vram + n + (rest cfg σ A T).vram := congrArg Res.vram h.acc
  have hled : Res.vramOf n + (σ.setVram { σ.vramBudget with used := σ.vramBudget.used - n }).ledger = σ.ledger := by
    refine Res.ext_iff'.2 ⟨zero_add _, zero_add _, ?_, zero_add _, zero_add _, zero_add _, zero_add _⟩
    show n + (σ.vramBudget.used - n) = σ.vramBudget.used
    omega
  refine ⟨_, TierBudget.release_of_le (by omega), h.frame rfl (Keeps.same rfl rfl rfl rfl rfl) ?_
    ⟨hw.vram.sub n, hw.vramLimit, hw.nvme, hw.nvmeLimit, hw.host, hw.hostUsed, hw.hostLe,
      hw.store, hw.geometry, hw.next, hw.issued, hw.present, hw.events⟩⟩
  rw [h.acc, add_comm w, add_assoc] at hled
  exact add_left_cancel hled

theorem Open.reserveNvme {n : Nat} {b : TierBudget} (h : Open cfg σ A w T) (hb : σ.nvmeBudget.tryReserve n = some b) :
    Open cfg (σ.setNvme b) A (w + Res.nvmeOf n) T := by
  have hw := h.wf
  obtain ⟨h1, h2, h3, h4⟩ := TierBudget.tryReserve_some hw.nvme hb
  have hled : (σ.setNvme b).ledger = σ.ledger + Res.nvmeOf n :=
    Res.ext_iff'.2 ⟨(add_zero _).symm, (add_zero _).symm, rfl, h1, (add_zero _).symm, (add_zero _).symm,
      (add_zero _).symm⟩
  exact h.frame rfl (Keeps.same rfl rfl rfl rfl rfl) (by rw [hled, h.acc, add_right_comm])
    ⟨hw.vram, hw.vramLimit, h4, ⟨h2.trans hw.nvmeLimit.1, h3.trans hw.nvmeLimit.2⟩, hw.host, hw.hostUsed, hw.hostLe,
      hw.store, hw.geometry, hw.next, hw.issued, hw.present, hw.events⟩

theorem Open.releaseNvme {n : Nat} (h : Open cfg σ A (w + Res.nvmeOf n) T) :
    ∃ b, σ.nvmeBudget.release n = some b ∧ Open cfg (σ.setNvme b) A w T := by
  have hw := h.wf
  have hu : σ.nvmeBudget.used = w.nvme + n + (rest cfg σ A T).nvme := congrArg Res.nvme h.acc
  have hled : Res.nvmeOf n + (σ.setNvme { σ.nvmeBudget with used := σ.nvmeBudget.used - n }).ledger = σ.ledger := by
    refine Res.ext_iff'.2 ⟨zero_add _, zero_add _, zero_add _, ?_, zero_add _, zero_add _, zero_add _⟩
    show n + (σ.nvmeBudget.used - n) = σ.nvmeBudget.used
    omega
  refine ⟨_, TierBudget.release_of_le (by omega), h.frame rfl (Keeps.same rfl rfl rfl rfl rfl) ?_
    ⟨hw.vram, hw.vramLimit, hw.nvme.sub n, hw.nvmeLimit, hw.host, hw.hostUsed, hw.hostLe,
      hw.store, hw.geometry, hw.next, hw.issued, hw.present, hw.events⟩⟩
  rw [h.acc, add_comm w, add_assoc] at hled
  exact add_left_cancel hled

/-! ## Host buffers -/

theorem allocationTier_put (h : HostBackend) (a : HostAllocation) {ptr : Ptr} (hne : a.ptr ≠ ptr) :
    ((h.allocations.put a).lookup ptr).map (fun a => if a.pinned then Tier.hostPinned else .hostPageable) =
      h.allocationTier ptr := by
  rw [Keyed.lookup_put_ne _ hne]
  rfl

/-- A new host buffer is put in hand. -/
theorem Open.putHost {a : HostAllocation} (h : Open cfg σ A w T) (hfresh : a.ptr ∉ σ.hostLive)
    (hroom : σ.host.used + a.bytes ≤ σ.host.limit) (scratch : Bytes) :
    Open cfg (σ.putHost a scratch) A (w + Res.hostBuf a.ptr a.bytes) T := by
  have hw := h.wf
  have hlim := hw.host.1
  have hu : (σ.putHost a scratch).host.used = σ.host.used + a.bytes := u64_of_lt (by have := cfg.host_lt; omega)
  have hnone : σ.host.allocations.lookup a.ptr = none :=
    Keyed.lookup_none.2 fun b hb he => hfresh (by rw [← he]; exact List.mem_map_of_mem (Keyed.mem_bag.1 hb))
  have hbag := Keyed.bag_put_of_none hnone
  -- no buffer of the others is at the new address
  have hne : ∀ ptr n, (ptr, n) ∈ (rest cfg σ A T).host → a.ptr ≠ ptr := by
    rintro ptr n hm rfl
    obtain ⟨b, hb, -⟩ := Shared.lookup_host h.acc ((Res.part_add_right w _).mem_host hm)
    rw [hnone] at hb
    cases hb
  have hids : spareIds (σ.putHost a scratch) = spareIds σ := @spareIds_congr σ (σ.putHost a scratch) rfl rfl
  have hled : (σ.putHost a scratch).ledger = σ.ledger + Res.hostBuf a.ptr a.bytes := by
    simp only [Res.ext_iff', Shared.ledger, hids, Res.add_host, Res.add_dev, Res.add_vram, Res.add_nvme, Res.add_ext,
      Res.add_io, Res.add_ids]
    simp [Shared.putHost, Res.hostBuf, hbag, ← Multiset.singleton_add, add_comm]
  refine h.frame rfl ⟨fun ptr n hm => ⟨?_, allocationTier_put σ.host a (hne ptr n hm)⟩, fun _ _ _ => rfl,
    fun _ _ _ _ _ => rfl, [], rfl, by simp⟩ (by rw [hled, h.acc, add_right_comm])
    ⟨hw.vram, hw.vramLimit, hw.nvme, hw.nvmeLimit, hw.host, ?_, ?_, hw.store, hw.geometry, hw.next, hw.issued, hw.present, hw.events⟩
  · exact if_neg fun he => hne ptr n hm he.symm
  · show (σ.putHost a scratch).host.used = ((σ.host.allocations.put a).bag.map HostAllocation.bytes).sum
    rw [hu, hbag, Multiset.map_cons, Multiset.sum_cons, hw.hostUsed, Nat.add_comm]
  · rw [hu]; omega

/-- A host buffer in hand is live, with its size. -/
theorem Open.lookupHost {ptr n : Nat} (h : Open cfg σ A w T) (hw : (ptr, n) ∈ w.host) :
    ∃ a, σ.host.allocations.lookup ptr = some a ∧ a.ptr = ptr ∧ a.bytes = n :=
  Shared.lookup_host h.acc ((Res.part_add_left w _).mem_host hw)

/-- A host buffer in hand is freed. -/
theorem Open.dropHost {a : HostAllocation} (h : Open cfg σ A (w + Res.hostBuf a.ptr a.bytes) T)
    (hl : σ.host.allocations.lookup a.ptr = some a) : a.bytes ≤ σ.host.used ∧ Open cfg (σ.dropHost a) A w T := by
  have hw := h.wf
  have hbag := Keyed.bag_eq_cons hl
  have hsum : σ.host.used = a.bytes + ((σ.host.allocations.erase a.ptr).bag.map HostAllocation.bytes).sum := by
    rw [hw.hostUsed, hbag, Multiset.map_cons, Multiset.sum_cons]
  have hu : (σ.dropHost a).host.used = σ.host.used - a.bytes := u64Sub_of_le (by omega)
  have hne : ∀ ptr n, (ptr, n) ∈ (rest cfg σ A T).host → a.ptr ≠ ptr := by
    rintro ptr n hm rfl
    exact Shared.host_ne h.acc (show (a.ptr, a.bytes) ∈ _ by simp [Res.hostBuf]) hm
  have hids : spareIds (σ.dropHost a) = spareIds σ := @spareIds_congr σ (σ.dropHost a) rfl rfl
  have hled : Res.hostBuf a.ptr a.bytes + (σ.dropHost a).ledger = σ.ledger := by
    simp only [Res.ext_iff', Shared.ledger, hids, Res.add_host, Res.add_dev, Res.add_vram, Res.add_nvme, Res.add_ext,
      Res.add_io, Res.add_ids]
    simp [Shared.dropHost, Res.hostBuf, hbag, ← Multiset.singleton_add]
  refine ⟨by omega, h.frame rfl ⟨fun ptr n hm => ⟨rfl, ?_⟩, fun _ _ _ => rfl, fun _ _ _ _ _ => rfl, [], rfl, by simp⟩ ?_
    ⟨hw.vram, hw.vramLimit, hw.nvme, hw.nvmeLimit, hw.host, ?_, ?_, hw.store, hw.geometry, hw.next, hw.issued,
      hw.present, hw.events⟩⟩
  · show ((σ.host.allocations.erase a.ptr).lookup ptr).map _ = _
    rw [Keyed.lookup_erase_ne _ (hne ptr n hm)]
    rfl
  · rw [h.acc, add_comm w, add_assoc] at hled
    exact add_left_cancel hled
  · rw [hu]
    exact Nat.sub_eq_of_eq_add' hsum
  · rw [hu]
    exact le_trans (Nat.sub_le _ _) hw.hostLe

/-! ## Device buffers -/

/-- A new device buffer is put in hand. -/
theorem Open.putDev {a : DeviceBlock} (h : Open cfg σ A w T) (hfresh : a.ptr ∉ σ.devLive) (scratch : Bytes) :
    Open cfg (σ.putDev a scratch) A (w + Res.devBuf a.ptr a.bytes) T := by
  have hw := h.wf
  have hnone : σ.device.lookup a.ptr = none :=
    Keyed.lookup_none.2 fun b hb he => hfresh (by rw [← he]; exact List.mem_map_of_mem (Keyed.mem_bag.1 hb))
  have hbag := Keyed.bag_put_of_none hnone
  have hne : ∀ ptr n, (ptr, n) ∈ (rest cfg σ A T).dev → a.ptr ≠ ptr := by
    rintro ptr n hm rfl
    obtain ⟨b, hb, -⟩ := Shared.lookup_dev h.acc ((Res.part_add_right w _).mem_dev hm)
    rw [hnone] at hb
    cases hb
  have hids : spareIds (σ.putDev a scratch) = spareIds σ := @spareIds_congr σ (σ.putDev a scratch) rfl rfl
  have hled : (σ.putDev a scratch).ledger = σ.ledger + Res.devBuf a.ptr a.bytes := by
    simp only [Res.ext_iff', Shared.ledger, hids, Res.add_host, Res.add_dev, Res.add_vram, Res.add_nvme, Res.add_ext,
      Res.add_io, Res.add_ids]
    simp [Shared.putDev, Res.devBuf, hbag, ← Multiset.singleton_add, add_comm]
  refine h.frame rfl ⟨fun _ _ _ => ⟨rfl, rfl⟩, fun ptr n hm => if_neg fun he => hne ptr n hm he.symm,
    fun _ _ _ _ _ => rfl, [], rfl, by simp⟩ (by rw [hled, h.acc, add_right_comm])
    ⟨hw.vram, hw.vramLimit, hw.nvme, hw.nvmeLimit, hw.host, hw.hostUsed, hw.hostLe, hw.store, hw.geometry, hw.next,
      hw.issued, hw.present, hw.events⟩

/-- A device buffer in hand is freed. -/
theorem Open.dropDev {ptr n : Nat} (h : Open cfg σ A (w + Res.devBuf ptr n) T) : Open cfg (σ.dropDev ptr) A w T := by
  have hw := h.wf
  obtain ⟨a, hl, rfl, rfl⟩ := Shared.lookup_dev h.acc (show (ptr, n) ∈ _ by simp [Res.devBuf])
  have hbag := Keyed.bag_eq_cons hl
  have hids : spareIds (σ.dropDev a.ptr) = spareIds σ := @spareIds_congr σ (σ.dropDev a.ptr) rfl rfl
  have hled : Res.devBuf a.ptr a.bytes + (σ.dropDev a.ptr).ledger = σ.ledger := by
    simp only [Res.ext_iff', Shared.ledger, hids, Res.add_host, Res.add_dev, Res.add_vram, Res.add_nvme, Res.add_ext,
      Res.add_io, Res.add_ids]
    simp [Shared.dropDev, Res.devBuf, hbag, ← Multiset.singleton_add]
  refine h.frame rfl (Keeps.same rfl rfl rfl rfl rfl) ?_
    ⟨hw.vram, hw.vramLimit, hw.nvme, hw.nvmeLimit, hw.host, hw.hostUsed, hw.hostLe, hw.store, hw.geometry, hw.next,
      hw.issued, hw.present, hw.events⟩
  rw [h.acc, add_comm w, add_assoc] at hled
  exact add_left_cancel hled

/-! ## Extents -/

theorem foot_io (p : PageMetadata) : (p.foot cfg).io = 0 := by
  unfold PageMetadata.foot
  split <;> rfl

theorem TokenOk.io_subset {t : Nat} {tok : Token} (h : TokenOk cfg σ t tok) :
    ∀ i ∈ (tok.own cfg).io, i ∈ (tok.own cfg).ext := by
  intro i hi
  cases tok with
  | idle | hostBuf | vramBytes | vramBuf => exact absurd hi (Multiset.notMem_zero i)
  | moving m tier stage =>
    cases stage with
    | claimed | copied | refunded => exact absurd hi (Multiset.notMem_zero i)
    | io =>
      have hi : i ∈ 0 + m.extents cfg := hi
      rw [zero_add] at hi
      exact Multiset.mem_add.2 (.inl hi)
  | releasing m left => exact absurd (show i ∈ left.io from hi) (by rw [h.2.2.1]; exact Multiset.notMem_zero i)

theorem sum_io_subset {α : Type} {f : α → Res} {s : Multiset α} (h : ∀ a ∈ s, ∀ i ∈ (f a).io, i ∈ (f a).ext) :
    ∀ i ∈ (s.map f).sum.io, i ∈ (s.map f).sum.ext := by
  induction s using Multiset.induction_on with
  | empty => intro i hi; exact absurd hi (Multiset.notMem_zero i)
  | cons a s ih =>
    intro i hi
    rw [Multiset.map_cons, Multiset.sum_cons, Res.add_io, Multiset.mem_add] at hi
    rw [Multiset.map_cons, Multiset.sum_cons, Res.add_ext, Multiset.mem_add]
    rcases hi with hi | hi
    · exact .inl (h a (Multiset.mem_cons_self a s) i hi)
    · exact .inr (ih (fun b hb => h b (Multiset.mem_cons_of_mem hb)) i hi)

/-- The others' operations are on the others' extents. -/
theorem Open.rest_io (h : Open cfg σ A w T) {i : Nat} (hi : i ∈ (rest cfg σ A T).io) : i ∈ (rest cfg σ A T).ext := by
  unfold rest at hi ⊢
  rw [Res.add_io, Multiset.mem_add] at hi
  rw [Res.add_ext, Multiset.mem_add]
  rcases hi with hi | hi
  · refine .inl (sum_io_subset (fun p _ j hj => ?_) i hi)
    rw [foot_io] at hj
    exact absurd hj (Multiset.notMem_zero j)
  · refine .inr (sum_io_subset (fun x hx j hj => ?_) i hi)
    have hj : j ∈ (x.2.tok.own cfg).io + 0 := hj
    rw [add_zero] at hj
    exact Multiset.mem_add.2 (.inl ((h.holds x hx).io_subset j hj))

/-- No operation is active on extents in hand. -/
theorem Open.activeIo_zero (h : Open cfg σ A w T) (hio : w.io = 0) {i : Nat} (hi : i ∈ w.ext) :
    σ.store.activeIo i = 0 := by
  have hu : i ∈ σ.store.usedBag := by
    rw [show σ.store.usedBag = _ from congrArg Res.ext h.acc]
    exact Multiset.mem_add.2 (.inl hi)
  have hc : σ.store.ioBag.count i = 0 := by
    rw [show σ.store.ioBag = w.io + (rest cfg σ A T).io from congrArg Res.io h.acc, hio, zero_add]
    exact Multiset.count_eq_zero_of_notMem fun hm => Shared.ext_ne h.acc hi (h.rest_io hm)
  rwa [Extents.count_ioBag, if_pos (Extents.mem_usedBag.1 hu).1] at hc

theorem Open.used_of_mem (h : Open cfg σ A w T) {i : Nat} (hi : i ∈ w.ext) : i ∈ σ.store.usedBag := by
  rw [show σ.store.usedBag = _ from congrArg Res.ext h.acc]
  exact Multiset.mem_add.2 (.inl hi)

theorem setStore_ledger {s : Extents} {W W' R : Res} (hacc : σ.ledger = W + R)
    (hsame : { W' with ext := W.ext, io := W.io } = W) (hext : s.usedBag = W'.ext + R.ext)
    (hio : s.ioBag = W'.io + R.io) : (σ.setStore s).ledger = W' + R := by
  have ha := Res.ext_iff'.1 hacc
  have hs := Res.ext_iff'.1 hsame
  exact Res.ext_iff'.2 ⟨ha.1.trans (by simp [← hs.1]), ha.2.1.trans (by simp [← hs.2.1]),
    ha.2.2.1.trans (by simp [← hs.2.2.1]), ha.2.2.2.1.trans (by simp [← hs.2.2.2.1]), hext, hio,
    ha.2.2.2.2.2.2.trans (by simp [← hs.2.2.2.2.2.2])⟩

/-- A change of the extent map that keeps its geometry. -/
theorem Open.setStore {s : Extents} (h : Open cfg σ A w T) (hs : s.Ok)
    (hg : s.pageSize = σ.store.pageSize ∧ s.extentCount = σ.store.extentCount)
    (hled : (σ.setStore s).ledger = w' + rest cfg σ A T) : Open cfg (σ.setStore s) A w' T := by
  have hw := h.wf
  exact h.frame rfl (Keeps.same rfl rfl rfl rfl rfl) hled
    ⟨hw.vram, hw.vramLimit, hw.nvme, hw.nvmeLimit, hw.host, hw.hostUsed, hw.hostLe, hs,
      ⟨hg.1.trans hw.geometry.1, hg.2.trans hw.geometry.2⟩, hw.next, hw.issued, hw.present, hw.events⟩

theorem Open.takeExtents {s : Extents} {first n : Nat} (h : Open cfg σ A w T) (hs : σ.store.Taken s first n) :
    Open cfg (σ.setStore s) A (w + Res.extOf (Extents.range first n)) T := by
  refine h.setStore hs.ok hs.geometry ?_
  have hacc := Res.ext_iff'.1 h.acc
  refine setStore_ledger h.acc (by simp [Res.extOf]) ?_ ?_
  · rw [hs.bag, show σ.store.usedBag = _ from hacc.2.2.2.2.1]
    simp [Res.extOf, add_comm, add_left_comm, add_assoc]
  · rw [Extents.ioBag_congr hs.geometry.2 hs.io, show σ.store.ioBag = _ from hacc.2.2.2.2.2.1]
    simp [Res.extOf]

theorem Open.freeExtents {first n : Nat} (h : Open cfg σ A (w + Res.extOf (Extents.range first n)) T) (hn : 0 < n)
    (hio : w.io = 0) : ∃ s, σ.store.freeExtents ((first + 1) * cfg.pageSize) n = .ok s ∧ n ≤ σ.store.usedExtents ∧
      Open cfg (σ.setStore s) A w T := by
  have hin : ∀ i ∈ Extents.range first n, i ∈ (w + Res.extOf (Extents.range first n)).ext :=
    fun i hi => Multiset.mem_add.2 (.inr hi)
  have hio' : (w + Res.extOf (Extents.range first n)).io = 0 := by simp [Res.extOf, hio]
  obtain ⟨s, hs, hf⟩ := Extents.freeExtents_spec h.wf.store hn (fun i hi => h.used_of_mem (hin i hi))
    (fun i hi => h.activeIo_zero hio' (hin i hi))
  rw [h.wf.geometry.1] at hs
  have hacc := Res.ext_iff'.1 h.acc
  have hcount : n ≤ σ.store.usedExtents := by
    rw [h.wf.store.count, hf.bag, Multiset.card_add, Extents.card_range]
    exact Nat.le_add_right _ _
  refine ⟨s, hs, hcount, h.setStore hf.ok hf.geometry (setStore_ledger h.acc (by simp [Res.ext_iff', Res.extOf]) ?_ ?_)⟩
  · have hb := hf.bag
    rw [show σ.store.usedBag = _ from hacc.2.2.2.2.1] at hb
    simp only [Res.extOf, Res.add_ext] at hb ⊢
    rw [add_comm w.ext, add_assoc] at hb
    exact (add_left_cancel hb).symm
  · rw [Extents.ioBag_congr hf.geometry.2 hf.io, show σ.store.ioBag = _ from hacc.2.2.2.2.2.1]
    simp [Res.extOf]

/-- An operation on extents in hand is queued. -/
theorem Open.submitIo {first n : Nat} (h : Open cfg σ A w T) (what : String) (hn : 0 < n)
    (hin : ∀ i ∈ Extents.range first n, i ∈ w.ext) (hio : w.io = 0) :
    ∃ s, σ.store.submit what ((first + 1) * cfg.pageSize) (n * cfg.pageSize) = .ok s ∧
      Open cfg (σ.setStore s) A (w + Res.ioOf (Extents.range first n)) T := by
  obtain ⟨s, hs, hf⟩ := Extents.submit_spec h.wf.store what hn (fun i hi => h.used_of_mem (hin i hi))
    (fun i hi => h.activeIo_zero hio (hin i hi))
  rw [h.wf.geometry.1] at hs
  have hacc := Res.ext_iff'.1 h.acc
  refine ⟨s, hs, h.setStore hf.ok hf.geometry (setStore_ledger h.acc (by simp [Res.ioOf]) ?_ ?_)⟩
  · rw [hf.bag, show σ.store.usedBag = _ from hacc.2.2.2.2.1]
    simp [Res.ioOf]
  · rw [hf.ioBag fun i hi => (Extents.mem_usedBag.1 (h.used_of_mem (hin i hi))).1,
      show σ.store.ioBag = _ from hacc.2.2.2.2.2.1]
    simp [Res.ioOf, add_comm, add_left_comm, add_assoc]

/-- An active operation of the running thread ends. -/
theorem Open.retireIo {first n : Nat} (h : Open cfg σ A (w + Res.ioOf (Extents.range first n)) T) :
    Open cfg (σ.retireIo ((first + 1) * cfg.pageSize) (n * cfg.pageSize)) A w T := by
  have hg := h.wf.geometry.1
  have hacc := Res.ext_iff'.1 h.acc
  have hr : σ.retireIo ((first + 1) * cfg.pageSize) (n * cfg.pageSize) = σ.setStore (σ.store.retire first n) := by
    unfold Shared.retireIo
    rw [hg, Extents.offset_div cfg.page_pos, Nat.mul_div_cancel _ cfg.page_pos]
  rw [hr]
  refine h.setStore (Extents.retire_ok h.wf.store _ _) ⟨rfl, rfl⟩ (setStore_ledger h.acc (by simp [Res.ext_iff', Res.ioOf]) ?_ ?_)
  · rw [Extents.usedBag_retire, show σ.store.usedBag = _ from hacc.2.2.2.2.1]
    simp [Res.ioOf]
  · refine Extents.ioBag_retire ?_
    rw [show σ.store.ioBag = _ from hacc.2.2.2.2.2.1]
    simp [Res.ioOf, add_comm, add_left_comm, add_assoc]

/-! ## Memory -/

theorem Open.writeHost {ptr n : Nat} (h : Open cfg σ A w T) (hw : (ptr, n) ∈ w.host) (b : Bytes) (k : Nat) :
    Open cfg (σ.writeHost ptr b k) A w T := by
  have hf := h.wf
  refine h.frame rfl ⟨fun q m hm => ⟨if_neg ?_, rfl⟩, fun _ _ _ => rfl, fun _ _ _ _ _ => rfl, [], rfl, by simp⟩ h.acc
    ⟨hf.vram, hf.vramLimit, hf.nvme, hf.nvmeLimit, hf.host, hf.hostUsed, hf.hostLe, hf.store, hf.geometry, hf.next,
      hf.issued, hf.present, hf.events⟩
  rintro rfl
  exact Shared.host_ne h.acc hw hm

theorem Open.writeDev {ptr n : Nat} (h : Open cfg σ A w T) (hw : (ptr, n) ∈ w.dev) (b : Bytes) (k : Nat) :
    Open cfg (σ.writeDev ptr b k) A w T := by
  have hf := h.wf
  refine h.frame rfl ⟨fun _ _ _ => ⟨rfl, rfl⟩, fun q m hm => if_neg ?_, fun _ _ _ _ _ => rfl, [], rfl, by simp⟩ h.acc
    ⟨hf.vram, hf.vramLimit, hf.nvme, hf.nvmeLimit, hf.host, hf.hostUsed, hf.hostLe, hf.store, hf.geometry, hf.next,
      hf.issued, hf.present, hf.events⟩
  rintro rfl
  exact Shared.dev_ne h.acc hw hm

theorem Open.writeDisk {first n : Nat} (h : Open cfg σ A w T) (hin : ∀ i ∈ Extents.range first n, i ∈ w.ext) (b : Bytes) :
    Open cfg (σ.writeDisk ((first + 1) * cfg.pageSize) b (n * cfg.pageSize)) A w T := by
  have hf := h.wf
  refine h.frame rfl ⟨fun _ _ _ => ⟨rfl, rfl⟩, fun _ _ _ => rfl, fun i hi c h1 h2 => if_neg ?_, [], rfl, by simp⟩ h.acc
    ⟨hf.vram, hf.vramLimit, hf.nvme, hf.nvmeLimit, hf.host, hf.hostUsed, hf.hostLe, hf.store, hf.geometry, hf.next,
      hf.issued, hf.present, hf.events⟩
  -- a byte of an extent of the others is in no extent of the range
  rintro ⟨h3, h4⟩
  refine Shared.ext_ne h.acc (hin i (Extents.mem_range.2 ⟨?_, ?_⟩)) hi
  · by_contra hlt
    have : (i + 2) * cfg.pageSize ≤ (first + 1) * cfg.pageSize := Nat.mul_le_mul_right _ (by omega)
    omega
  · by_contra hge
    have : (first + 1 + n) * cfg.pageSize ≤ (i + 1) * cfg.pageSize := Nat.mul_le_mul_right _ (by omega)
    rw [Nat.add_mul (first + 1)] at this
    omega

end FlashTier
