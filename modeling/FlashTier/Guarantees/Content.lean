/-
What a page holds. Its content changes only when a `write_page` of it commits, and reads return what
was written last, as long as no backend call fails. When calls fail, a copy in the store that is marked
as clean equals the page, unless a failed write of a page with such a copy has changed bytes.
-/
import FlashTier.Guarantees.Transfers
import FlashTier.Invariant.Writes

namespace FlashTier

open Conc

variable {cfg : RuntimeConfig} {disk : Bytes} {c c' : Runtime} {h : List Event} {id : PageId} {t : Nat}

/-! ## Replay without writes -/

/-- The event changes the bytes of the page: a write that committed, or one that threw and left other bytes. -/
def Event.alters (id : PageId) : Event → Bool
  | .wrote _ i _ => i == id
  | .torn _ i _ before left => i == id && before != left
  | _ => false

/-- A clean history replays the same content over events that do not alter the page. -/
theorem contentIn_append (ha : id ∈ allocIds h) : ∀ {pre : List Event}, Each EventOk (pre ++ h) → Clean (pre ++ h) →
    (∀ e ∈ pre, e.alters id = false) → contentIn (pre ++ h) id = contentIn h id
  | [], _, _, _ => rfl
  | e :: pre, hok, hcl, hw => by
    have hcl' : Clean (pre ++ h) := hcl.of_suffix ⟨[e], rfl⟩
    have ih := contentIn_append ha hok.2 hcl' fun e' he' => hw e' (List.mem_cons_of_mem _ he')
    have hne := hw e (List.mem_cons_self ..)
    cases e <;> simp only [List.cons_append, contentIn, ih]
    case alloc s i n b d =>
      have hi : i ≠ id := fun hi => hok.1 (hi ▸ mem_allocIds_append ha pre)
      rw [if_neg hi]
    case wrote s i d => rw [if_neg (by simpa [Event.alters] using hne)]
    case torn s i copy before left =>
      split
      · rename_i hi
        subst hi
        have hb : before = left := by simpa [Event.alters] using hne
        rw [← hb, ← ih]
        exact (hok.1.1 hcl').symm
      · rfl

/-- Without a failed call, no failed write changed any bytes. -/
theorem clean_of_callFailed (hok : Each EventOk h) (hf : ∀ e ∈ h, e.callFailed = false) : Clean h := by
  intro e he
  cases e <;> try rfl
  case torn s i copy before left =>
    obtain ⟨post, pre, rfl⟩ := List.append_of_mem he
    have hb : before = left := by
      by_contra hne
      have := hf _ (List.mem_append_right _ (List.mem_cons_of_mem _ ((Each.of_suffix hok).2 hne)))
      cases this
    cases copy <;> simp [Event.spoils, hb]

/-- Without a failed call, the content of a page that was written is what was written last. -/
theorem contentIn_of_lastWrite : ∀ {h : List Event}, Each EventOk h → (∀ e ∈ h, e.callFailed = false) → ∀ {d : List UInt8},
    lastWrite h id = some d → contentIn h id = some d
  | e :: h, hok, hf, d, hw => by
    have hf' : ∀ e ∈ h, e.callFailed = false := fun e he => hf e (List.mem_cons_of_mem _ he)
    have ih : lastWrite h id = some d → contentIn h id = some d := contentIn_of_lastWrite hok.2 hf'
    cases e <;> simp only [lastWrite, contentIn] at hw ⊢ <;> try exact ih hw
    case alloc s i n b x =>
      split at hw
      · cases hw
      · rename_i hi
        rw [if_neg hi]
        exact ih hw
    case wrote s i x =>
      split at hw
      · rename_i hi
        rw [if_pos hi]
        exact hw
      · rename_i hi
        rw [if_neg hi]
        exact ih hw
    case torn s i copy before left =>
      split
      · rename_i hi
        subst hi
        have hb : before = left := by
          by_contra hne
          cases hf' _ (hok.1.2 hne)
        rw [← hb, ← hok.1.1 (clean_of_callFailed hok.2 hf')]
        exact ih hw
      · exact ih hw

/-! ## Coherence -/

/-- Every page in a live state has content. -/
theorem content_isSome {σ : Shared} {p : PageMetadata} (hs : p.Shape) (he : p.state ≠ .error) (hr : p.state ≠ .released) :
    (σ.content p).isSome = true := by
  unfold PageMetadata.Shape at hs
  unfold Shared.content
  cases hst : p.state <;> simp only [hst, Option.isSome_map] at hs he hr ⊢ <;> tauto

/-- The history of a reached configuration is extended by the thread that moves. -/
theorem Reached.extends (hr : Reached cfg disk c) {m : Move Env Op} (hm : c.move (code cfg) m = some c') :
    ∃ evs, c'.shared.history = evs ++ c.shared.history ∧ ∀ e ∈ evs, ∃ ω l, m = .exec e.thread ω ∧ c.labels[e.thread]? = some l ∧
      l.records e = true := by
  cases m with
  | spawn l =>
    cases hm
    exact ⟨[], rfl, fun e he => (List.not_mem_nil he).elim⟩
  | exec t ω =>
    obtain ⟨l, hl, ⟨evs, hh, hevs⟩, -⟩ := noted_move hr hm
    refine ⟨evs, hh, fun e he => ?_⟩
    obtain ⟨ht, hrec⟩ := hevs e he
    exact ⟨ω, l, by rw [ht], by rw [ht]; exact hl, hrec⟩

theorem Op.writes_of_records {l : Op} {d : List UInt8} (h : l.records (.wrote t id d) = true) : l.Writes id := by
  cases l <;> simp only [Op.records, beq_iff_eq, Bool.false_eq_true] at h
  case write i data => exact .inl ⟨data, by rw [h]⟩
  case fill i => exact .inr (by rw [h])

/-- A move changes the content of a page only when the thread that moves was started for a write of it. -/
theorem content_changed (hr : Reached cfg disk c) {m : Move Env Op} (hm : c.move (code cfg) m = some c')
    (hf : ∀ e ∈ c'.shared.history, e.callFailed = false) {p p' : PageMetadata} (hp : p ∈ c.shared.table.items)
    (hp' : p' ∈ c'.shared.table.items) (hid : p'.id = p.id) {x y : List UInt8} (hx : c.shared.content p = some x)
    (hy : c'.shared.content p' = some y) (hne : x ≠ y) : ∃ t ω l, m = .exec t ω ∧ c.labels[t]? = some l ∧ l.Writes p.id := by
  obtain ⟨T, hi⟩ := reachable_inv hr
  obtain ⟨T', hi'⟩ := reachable_inv (Reachable.move m trivial hr hm)
  obtain ⟨evs, hh, hevs⟩ := hr.extends hm
  have hrec := hi.record (Keyed.mem_bag.2 hp)
  have hok' : Each EventOk (evs ++ c.shared.history) := hh ▸ hi'.wf.events
  have hcl' : Clean (evs ++ c.shared.history) := hh ▸ clean_of_callFailed hi'.wf.events hf
  have hy' := ((hi'.record (Keyed.mem_bag.2 hp')).content (hh ▸ hcl') y hy).1
  have hx' := (hrec.content (hcl'.of_suffix ⟨evs, rfl⟩) x hx).1
  by_contra hno
  have hkeep : ∀ e ∈ evs, e.alters p.id = false := by
    intro e he
    obtain ⟨ω, l, hme, hl, hlr⟩ := hevs e he
    cases e <;> try rfl
    case wrote s i d =>
      refine beq_eq_false_iff_ne.2 fun hi => hno ⟨s, ω, l, hme, hl, ?_⟩
      exact Op.writes_of_records (hi ▸ hlr)
    case torn s i copy before left =>
      obtain ⟨post, pre, hsplit⟩ := List.append_of_mem he
      have hb : before = left := by
        by_contra hb
        have hmem : .failed s .deviceCopy ∈ c'.shared.history := by
          rw [hsplit, List.append_assoc] at hok'
          rw [hh, hsplit, List.append_assoc]
          exact List.mem_append_right _ (List.mem_cons_of_mem _ ((Each.of_suffix hok').2 hb))
        cases hf _ hmem
      simp [Event.alters, hb]
  rw [hh, hid, contentIn_append (mem_allocIds_of_sizeIn hrec.size) hok' hcl' hkeep, hx'] at hy'
  exact hne (Option.some.inj hy')

/-- What is written is the data of the operation that the writing thread was started for. -/
theorem Reached.wrote (hr : Reached cfg disk c) {d : List UInt8} (hm : .wrote t id d ∈ c.shared.history) :
    ∃ l n, c.labels[t]? = some l ∧ sizeIn c.shared.history id = some n ∧ l.data cfg id n = some d := by
  obtain ⟨l, hl, -⟩ := reachable_records hr _ hm
  have hl : c.labels[t]? = some l := hl
  rw [Config.labels, List.getElem?_map] at hl
  obtain ⟨⟨l', p⟩, ht, rfl⟩ := Option.map_eq_some_iff.1 hl
  obtain ⟨n, hn, hd⟩ := (reachable_data hr ht).1 id d hm
  exact ⟨l', n, by rw [Config.labels, List.getElem?_map, ht]; rfl, hn, hd⟩

/-- A write that returned has written its data. -/
theorem Reached.hasWritten (hr : Reached cfg disk c) {l : Op} {x : Reply} {f : Nat → List UInt8} (ht : c.threads[t]? = some ⟨l, .ret (.ok x)⟩)
    (hl : l.Writes id) (hf : ∀ n, l.data cfg id n = some (f n)) :
    ∃ n, sizeIn c.shared.history id = some n ∧ .wrote t id (f n) ∈ c.shared.history := by
  obtain ⟨n, d, hn, hd, hm⟩ := (reachable_data hr ht).2 x id rfl hl
  rw [hf, Option.some.injEq] at hd
  exact ⟨n, hn, hd ▸ hm⟩

/-- As long as no backend call fails: every live page has content, which changes only by a write of the
page; once the page is written, it is what was written last, and the checksum is the checksum of it; and a
read returns what was written last before it. What is written are the first bytes of the buffer of a
`write_page`, or the pattern of a `fill_page`, as many as the page has, and a call that returned has written
them. -/
theorem content_coherent (hr : Reached cfg disk c) (hf : ∀ e ∈ c.shared.history, e.callFailed = false) :
    (∀ p ∈ c.shared.table.items, p.state ≠ .error → p.state ≠ .released → (c.shared.content p).isSome = true) ∧
    (∀ m c', c.move (code cfg) m = some c' → (∀ e ∈ c'.shared.history, e.callFailed = false) →
      ∀ p ∈ c.shared.table.items, ∀ p' ∈ c'.shared.table.items, p'.id = p.id → ∀ x y, c.shared.content p = some x →
        c'.shared.content p' = some y → x ≠ y → ∃ t ω l, m = .exec t ω ∧ c.labels[t]? = some l ∧ l.Writes p.id) ∧
    (∀ p ∈ c.shared.table.items, ∀ d, lastWrite c.shared.history p.id = some d →
      p.checksum = fnv1a64 d ∧ ∀ x, c.shared.content p = some x → x = d) ∧
    (∀ t id out b, c.threads[t]? = some ⟨.read id out, .ret (.ok (.bytes b))⟩ →
      ∃ after before, c.shared.history = after ++ .read t id b :: before ∧ ∀ d, lastWrite before id = some d → b = d) ∧
    (∀ t id d, .wrote t id d ∈ c.shared.history →
      ∃ l n, c.labels[t]? = some l ∧ sizeIn c.shared.history id = some n ∧ l.data cfg id n = some d) ∧
    (∀ t id data, c.threads[t]? = some ⟨.write id (some data), .ret (.ok .unit)⟩ →
      ∃ n, sizeIn c.shared.history id = some n ∧ .wrote t id (Bytes.take data n) ∈ c.shared.history) ∧
    (∀ t id, c.threads[t]? = some ⟨.fill id, .ret (.ok .unit)⟩ →
      ∃ n, sizeIn c.shared.history id = some n ∧ .wrote t id (fillPattern n cfg.seed (UInt64.ofNat id)) ∈ c.shared.history) := by
  obtain ⟨hs, h⟩ := reached_accounted hr
  have hi : Inv cfg c.shared (tagged hs) := h.inv
  have hok := hi.wf.events
  have hcl := clean_of_callFailed hok hf
  refine ⟨fun p hp he hrel => ?_, fun m c' hm hf' p hp p' hp' hid x y hx hy hne => ?_, fun p hp d hd => ?_, fun t id out b ht => ?_,
    fun t id d hm => hr.wrote hm, fun t id data ht => ?_, fun t id ht => ?_⟩
  · exact content_isSome (hi.record (Keyed.mem_bag.2 hp)).form.shape he hrel
  · exact content_changed hr hm hf' hp hp' hid hx hy hne
  · have hrec := hi.record (Keyed.mem_bag.2 hp)
    refine ⟨hrec.checksum d hd, fun x hx => ?_⟩
    have := (hrec.content hcl x hx).1
    rw [contentIn_of_lastWrite hok hf hd] at this
    exact (Option.some.inj this).symm
  · obtain ⟨hd, -, -, hread⟩ := h.ended ht
    obtain ⟨after, before, he⟩ := List.append_of_mem (hread b rfl)
    refine ⟨after, before, he, fun d hd => ?_⟩
    rw [he] at hok hf hcl
    have hb := (Each.drop hok).2
    have hfb : ∀ e ∈ before, e.callFailed = false := fun e hm => hf e (List.mem_append_right _ (List.mem_cons_of_mem _ hm))
    have hc := (Each.of_suffix hok).2 (hcl.of_suffix ⟨after ++ [.read t id b], by simp⟩)
    rw [contentIn_of_lastWrite hb hfb hd] at hc
    exact (Option.some.inj hc).symm
  · exact hr.hasWritten ht (.inl ⟨_, rfl⟩) fun n => if_pos rfl
  · exact hr.hasWritten ht (.inr rfl) fun n => if_pos rfl

/-- The reply is the bytes of a page. -/
def isBytes : Option (Except Error Reply) → Bool
  | some (.ok (.bytes _)) => true
  | _ => false

theorem bytes_of_isBytes {r : Option (Except Error Reply)} (h : isBytes r = true) : ∃ b, r = some (.ok (.bytes b)) := by
  unfold isBytes at h
  split at h
  · exact ⟨_, rfl⟩
  · cases h

theorem content_coherent_written : ∃ c, Reached (smallConfig 1 1 2) (fun _ => 0) c ∧
    (∀ e ∈ c.shared.history, e.callFailed = false) ∧ ∃ b after before, c.shared.history = after ++ .read 2 1 b :: before ∧
      ∀ d, lastWrite before 1 = some d → b = d := by
  obtain ⟨c, hr, hl, hf, hb⟩ := reached_of_run (smallConfig 1 1 2) (fun _ => 0)
    (.spawn (.allocate { logicalBytes := 10 }) :: turns 0 10 ++ .spawn (.write 1 (some fun _ => 5)) :: turns 1 6 ++
      .spawn (.read 1 true) :: turns 2 6)
    (fun c => (∀ e ∈ c.shared.history, e.callFailed = false) ∧ isBytes (c.result 2) = true) (by decide +kernel)
  obtain ⟨b, hb⟩ := bytes_of_isBytes hb
  have ht : c.threads[2]? = some ⟨.read 1 true, .ret (.ok (.bytes b))⟩ := Config.thread_of_result hb (by rw [hl]; rfl)
  exact ⟨c, hr, hf, b, (content_coherent hr hf).2.2.2.1 2 1 true b ht⟩

/-! ## Clean copies -/

/-- Unless a failed write changed bytes of a page with a copy in the store: a page in memory that is not
dirty and has a copy holds the bytes of its copy; and the reads of a page return the same bytes as long as no
write changes them, each call the bytes of the read it has recorded. -/
theorem clean_copy (hr : Reached cfg disk c) (hcl : Clean c.shared.history) (id : PageId) :
    (∀ p ∈ c.shared.table.items, p.hasNvmeCopy = true → p.dirty = false → p.state = .residentVram ∨ p.state = .residentHost →
      ∃ x, c.shared.content p = some x ∧ c.shared.stored p = some x) ∧
    (∀ after t b mid s b' before, c.shared.history = after ++ .read t id b :: (mid ++ .read s id b' :: before) →
      (∀ e ∈ mid, e.alters id = false) → b = b') ∧
    ∀ t out b, c.threads[t]? = some ⟨.read id out, .ret (.ok (.bytes b))⟩ → .read t id b ∈ c.shared.history := by
  obtain ⟨hs, h⟩ := reached_accounted hr
  have hi : Inv cfg c.shared (tagged hs) := h.inv
  refine ⟨fun p hp hcopy _ hst => ?_, fun after t b mid s b' before he hmid => ?_, fun t out b ht => ?_⟩
  · have hrec := hi.record (Keyed.mem_bag.2 hp)
    obtain ⟨x, hx⟩ := Option.isSome_iff_exists.1 (content_isSome (σ := c.shared) hrec.form.shape
      (by rcases hst with h | h <;> simp [h]) (by rcases hst with h | h <;> simp [h]))
    exact ⟨x, hx, (hrec.content hcl x hx).2 hcopy⟩
  · have hok := hi.wf.events
    rw [he] at hok hcl
    have hcl₁ : Clean (mid ++ .read s id b' :: before) := hcl.of_suffix ⟨after ++ [.read t id b], by simp⟩
    have hok₁ : Each EventOk (mid ++ .read s id b' :: before) := (Each.drop hok).2
    obtain ⟨ha, hb'⟩ := Each.of_suffix hok₁
    have hb' : contentIn (.read s id b' :: before) id = some b' := hb' (hcl₁.of_suffix ⟨mid ++ [.read s id b'], by simp⟩)
    have hb := (Each.of_suffix hok).2 hcl₁
    have ha' : id ∈ allocIds (.read s id b' :: before) := ha
    rw [contentIn_append ha' hok₁ hcl₁ hmid, hb'] at hb
    exact (Option.some.inj hb).symm
  · obtain ⟨hd, -, -, hread⟩ := h.ended ht
    exact hread b rfl

/-- A page demoted to the store after its allocation and brought back to device memory by a demand, so that
its copy is clean. -/
def cleanInVram : List (Move Env Op) :=
  .spawn (.allocate { logicalBytes := 10 }) :: turns 0 10 ++ .spawn (.demoteToNvme 1) :: turns 1 25 ++
    .spawn (.promote 1) :: turns 2 4 ++ .spawn .worker :: turns 3 30

theorem clean_copy_inVram : ∃ c, Reached (smallConfig 1 1 2) (fun _ => 0) c ∧ Clean c.shared.history ∧
    ∃ p ∈ c.shared.table.items, (p.hasNvmeCopy = true ∧ p.dirty = false ∧ p.state = .residentVram) ∧
      ∃ x, c.shared.content p = some x ∧ c.shared.stored p = some x := by
  obtain ⟨c, hr, hcl, p, hp, hst⟩ := reached_of_test (smallConfig 1 1 2) (fun _ => 0) cleanInVram
    (fun c => (∀ e ∈ c.shared.history, e.spoils = false) ∧
      ∃ p ∈ c.shared.table.items, p.hasNvmeCopy = true ∧ p.dirty = false ∧ p.state = .residentVram) (by decide +kernel)
  exact ⟨c, hr, hcl, p, hp, hst, (clean_copy hr hcl 1).1 p hp hst.1 hst.2.1 (.inl hst.2.2)⟩

/-- A write whose device copy fails half-way leaves the copy in the store marked as clean. -/
theorem torn_copy : ∃ c, Reached (smallConfig 1 1 2) (fun _ => 0) c ∧ ∃ p ∈ c.shared.table.items,
    (p.hasNvmeCopy = true ∧ p.dirty = false ∧ p.state = .residentVram) ∧ c.shared.content p ≠ c.shared.stored p :=
  reached_of_test (smallConfig 1 1 2) (fun _ => 0)
    (cleanInVram ++ .spawn (.write 1 (some fun _ => 5)) :: turns 4 3 ++
      [.exec 4 { copy := .failed ⟨.io, "device copy failed", ""⟩ fun _ => 5 }]) _ (by decide +kernel)

end FlashTier
