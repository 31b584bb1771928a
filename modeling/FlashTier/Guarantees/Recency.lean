/-
The access counters against the history: in every reachable state a page's counters say when it was last
accessed and how often, so that the LRU policy ranks pages by the accesses the run has committed. The
counters have 64 bits, which is enough for all of this as long as they do not wrap.
-/
import FlashTier.Guarantees.Accounting
import FlashTier.Guarantees.Ranking
import FlashTier.Invariant.Access
import FlashTier.Invariant.Authors

namespace FlashTier

open Conc

variable {l : Op} {t : Nat} {ω : Env} {σ σ' : Shared} {α : Type} {h : List Event} {id i j : PageId} {cfg : RuntimeConfig}
  {disk : Bytes} {c c' : Runtime}

/-! ## Accesses of a history -/

/-- How many accesses are committed. -/
def accesses (h : List Event) : Nat := h.countP fun e => e.accesses.isSome

/-- How many accesses of the page are committed. -/
def accessesOf (h : List Event) (id : PageId) : Nat := h.countP fun e => e.accesses == some id

/-- Which of all accesses was the last one of the page, counted from one; zero for a page never accessed. -/
def lastAccess : List Event → PageId → Nat
  | [], _ => 0
  | e :: h, id => if e.accesses = some id then accesses h + 1 else lastAccess h id

theorem accesses_cons_none {e : Event} (he : e.accesses = none) : accesses (e :: h) = accesses h := by
  simp [accesses, he]

theorem accesses_cons_some {e : Event} (he : e.accesses = some id) : accesses (e :: h) = accesses h + 1 := by
  simp [accesses, he]

theorem accessesOf_cons_self {e : Event} (he : e.accesses = some id) : accessesOf (e :: h) id = accessesOf h id + 1 := by
  simp [accessesOf, he]

theorem accessesOf_cons_ne {e : Event} (he : e.accesses ≠ some id) : accessesOf (e :: h) id = accessesOf h id := by
  simp [accessesOf, he]

theorem lastAccess_cons_self {e : Event} (he : e.accesses = some id) : lastAccess (e :: h) id = accesses h + 1 := if_pos he

theorem lastAccess_cons_ne {e : Event} (he : e.accesses ≠ some id) : lastAccess (e :: h) id = lastAccess h id := if_neg he

theorem accesses_le_cons (e : Event) (h : List Event) : accesses h ≤ accesses (e :: h) :=
  List.Sublist.countP_le (List.sublist_cons_self e h)

theorem lastAccess_le : ∀ (h : List Event) (id : PageId), lastAccess h id ≤ accesses h
  | [], _ => le_rfl
  | e :: h, id => by
    by_cases he : e.accesses = some id
    · rw [lastAccess_cons_self he, accesses_cons_some he]
    · rw [lastAccess_cons_ne he]
      exact (lastAccess_le h id).trans (accesses_le_cons e h)

/-- Two pages were not last accessed at the same moment. -/
theorem lastAccess_inj : ∀ {h : List Event}, lastAccess h i = lastAccess h j → lastAccess h i ≠ 0 → i = j
  | [], _, h0 => absurd rfl h0
  | e :: h, heq, h0 => by
    have hle := lastAccess_le h
    by_cases hi : e.accesses = some i
    · by_cases hj : e.accesses = some j
      · exact Option.some.inj (hi.symm.trans hj)
      · rw [lastAccess_cons_self hi, lastAccess_cons_ne hj] at heq
        have := hle j
        omega
    · by_cases hj : e.accesses = some j
      · rw [lastAccess_cons_ne hi, lastAccess_cons_self hj] at heq
        have := hle i
        omega
      · rw [lastAccess_cons_ne hi] at heq h0
        rw [lastAccess_cons_ne hj] at heq
        exact lastAccess_inj heq h0

theorem lastAccess_eq_zero : ∀ {h : List Event}, lastAccess h id = 0 ↔ accessesOf h id = 0
  | [] => Iff.rfl
  | e :: h => by
    by_cases he : e.accesses = some id
    · rw [lastAccess_cons_self he, accessesOf_cons_self he]
      omega
    · rw [lastAccess_cons_ne he, accessesOf_cons_ne he]
      exact lastAccess_eq_zero

/-! ## The counters -/

theorem u64_u64_add (n k : Nat) : u64 (u64 n + k) = u64 (n + k) := by
  unfold u64
  exact Nat.mod_add_mod n _ k

/-- The counters of the front agree with its history, and only pages of the table were accessed. -/
structure Counted (s : Front) : Prop where
  seq : s.accessSeq = u64 (accesses s.history)
  recency : ∀ p ∈ s.table.bag, p.lastAccessSequence = u64 (lastAccess s.history p.id)
  count : ∀ p ∈ s.table.bag, p.accessCount = u64 (accessesOf s.history p.id)
  listed : ∀ p ∈ s.table.bag, p.id ∈ allocIds s.history
  known : ∀ i, accessesOf s.history i ≠ 0 → i ∈ allocIds s.history

theorem mem_allocIds_cons {e : Event} (hi : id ∈ allocIds h) : id ∈ allocIds (e :: h) := mem_allocIds_append hi [e]

theorem mem_put {d : Keyed PageMetadata.id} {p q : PageMetadata} (hp : p ∈ (d.put q).bag) : p = q ∨ p ∈ d.bag ∧ p.id ≠ q.id := by
  rw [Keyed.bag_put, Multiset.mem_cons] at hp
  exact hp.imp_right Keyed.mem_erase.1

/-- A record of a page takes the place of another with the same counters. -/
theorem Counted.put {s : Front} (hs : Counted s) {p q : PageMetadata} (hp : s.table.lookup p.id = some p) (hi : q.id = p.id)
    (hr : q.lastAccessSequence = p.lastAccessSequence) (hc : q.accessCount = p.accessCount) :
    Counted { s with table := s.table.put q } := by
  have hmem : p ∈ s.table.bag := (Keyed.lookup_some.1 hp).1
  refine ⟨hs.seq, fun r hr' => ?_, fun r hr' => ?_, fun r hr' => ?_, hs.known⟩
  all_goals rcases mem_put hr' with rfl | ⟨hmr, -⟩
  · rw [hr, hi]
    exact hs.recency p hmem
  · exact hs.recency r hmr
  · rw [hc, hi]
    exact hs.count p hmem
  · exact hs.count r hmr
  · rw [hi]
    exact hs.listed p hmem
  · exact hs.listed r hmr

/-- An event that is no access is recorded. -/
theorem Counted.log {s : Front} (hs : Counted s) {e : Event} (he : e.accesses = none) :
    Counted { s with history := e :: s.history } := by
  have hne : ∀ i, e.accesses ≠ some i := fun i hi => by rw [he] at hi; cases hi
  refine ⟨by rw [accesses_cons_none he]; exact hs.seq, fun p hp => ?_, fun p hp => ?_,
    fun p hp => mem_allocIds_cons (hs.listed p hp), fun i hi => ?_⟩
  · rw [lastAccess_cons_ne (hne _)]
    exact hs.recency p hp
  · rw [accessesOf_cons_ne (hne _)]
    exact hs.count p hp
  · rw [accessesOf_cons_ne (hne _)] at hi
    exact mem_allocIds_cons (hs.known i hi)

/-- An access of a page is committed. -/
theorem Counted.access {s : Front} (hs : Counted s) {p q : PageMetadata} {e : Event} (hp : s.table.lookup p.id = some p)
    (hi : q.id = p.id) (hr : q.lastAccessSequence = u64 (s.accessSeq + 1)) (hc : q.accessCount = u64 (p.accessCount + 1))
    (he : e.accesses = some p.id) :
    Counted { s with table := s.table.put q, accessSeq := u64 (s.accessSeq + 1), history := e :: s.history } := by
  have hmem : p ∈ s.table.bag := (Keyed.lookup_some.1 hp).1
  have hne : ∀ i, i ≠ q.id → e.accesses ≠ some i := fun i hii hei => hii (by rw [hi]; exact Option.some.inj (hei.symm.trans he))
  have hseq : u64 (s.accessSeq + 1) = u64 (accesses s.history + 1) := by rw [hs.seq, u64_u64_add]
  refine ⟨by rw [accesses_cons_some he]; exact hseq, fun r hr' => ?_, fun r hr' => ?_, fun r hr' => ?_, fun i hii => ?_⟩
  · rcases mem_put hr' with rfl | ⟨hmr, hrq⟩
    · rw [hr, hi, lastAccess_cons_self he, hseq]
    · rw [lastAccess_cons_ne (hne _ hrq)]
      exact hs.recency r hmr
  · rcases mem_put hr' with rfl | ⟨hmr, hrq⟩
    · rw [hc, hi, accessesOf_cons_self he, hs.count p hmem, u64_u64_add]
    · rw [accessesOf_cons_ne (hne _ hrq)]
      exact hs.count r hmr
  · rcases mem_put hr' with rfl | ⟨hmr, -⟩
    · rw [hi]
      exact mem_allocIds_cons (hs.listed p hmem)
    · exact mem_allocIds_cons (hs.listed r hmr)
  · by_cases hip : i = p.id
    · rw [hip]
      exact mem_allocIds_cons (hs.listed p hmem)
    · rw [accessesOf_cons_ne (hne i (by rw [hi]; exact hip))] at hii
      exact mem_allocIds_cons (hs.known i hii)

/-- A new page is inserted and recorded. -/
theorem Counted.insert {s : Front} (hs : Counted s) {q : PageMetadata} {n : Nat} {b : Bool} {x : List UInt8}
    (hnew : q.id ∉ allocIds s.history) (hr : q.lastAccessSequence = 0) (hc : q.accessCount = 0) :
    Counted { s with table := s.table.put q, history := .alloc t q.id n b x :: s.history } := by
  have hzero : accessesOf s.history q.id = 0 := by
    by_contra hne
    exact hnew (hs.known q.id hne)
  have hlog := hs.log (e := .alloc t q.id n b x) rfl
  have hne : Event.accesses (.alloc t q.id n b x) ≠ some q.id := Option.some_ne_none q.id ∘ Eq.symm
  refine ⟨hlog.seq, fun p hp => ?_, fun p hp => ?_, fun p hp => ?_, hlog.known⟩
  all_goals rcases mem_put hp with rfl | ⟨hmp, -⟩
  · rw [hr, lastAccess_cons_ne hne, lastAccess_eq_zero.2 hzero, u64_of_lt (by decide)]
  · exact hlog.recency p hmp
  · rw [hc, accessesOf_cons_ne hne, hzero, u64_of_lt (by decide)]
  · exact hlog.count p hmp
  · exact List.mem_cons_self ..
  · exact hlog.listed p hmp

theorem Counted.erase {s : Front} (hs : Counted s) (id : PageId) : Counted { s with table := s.table.erase id } :=
  ⟨hs.seq, fun p hp => hs.recency p (Keyed.mem_erase.1 hp).1, fun p hp => hs.count p (Keyed.mem_erase.1 hp).1,
    fun p hp => hs.listed p (Keyed.mem_erase.1 hp).1, hs.known⟩

/-! ## Sections -/

theorem FrontStep.counted {s s' : Front} (h : FrontStep l t s s') (hs : Counted s) : Counted s' := by
  cases h with
  | log e he => exact hs.log he.access
  | edit p q hp hq =>
    have hk : q.id = p.id ∧ q.state = p.state ∧ q.lastAccessSequence = p.lastAccessSequence ∧ q.accessCount = p.accessCount := by
      simpa [PageMetadata.kept] using hq
    exact hs.put hp hk.1 hk.2.2.1 hk.2.2.2
  | enter p dst hp hd => exact hs.put hp rfl rfl rfl
  | access p q e hp hi hst hr hc ht hl he => exact hs.access hp hi hr hc he
  | unmark id => exact ⟨hs.seq, hs.recency, hs.count, hs.listed, hs.known⟩

theorem FrontPath.counted (h : FrontPath l t σ σ') (hs : Counted σ.front) : Counted σ'.front := h.invariant (fun _ _ => FrontStep.counted) hs

/-- What is known of the states before and after a section. -/
abbrev Recorded (σ : Shared) : Prop := Each EventOk σ.history

/-- The section keeps the counters right. -/
def Counts (β : Type) (a : Sec β) : Prop :=
  ∀ t ω σ, Recorded σ → Recorded (a t ω σ).2 → Counted σ.front → Counted (a t ω σ).2.front

/-- A section that changes neither the table nor the history nor the counter. -/
theorem counts_of_same {a : Sec α} (h : ∀ t ω σ, (a t ω σ).2.table = σ.table ∧ (a t ω σ).2.history = σ.history ∧
    (a t ω σ).2.accessSeq = σ.accessSeq) : Counts α a := by
  intro t ω σ _ _ hs
  obtain ⟨h1, h2, h3⟩ := h t ω σ
  refine ⟨?_, ?_, ?_, ?_, ?_⟩
  all_goals simp only [Shared.front, h1, h2, h3]
  · exact hs.seq
  · exact hs.recency
  · exact hs.count
  · exact hs.listed
  · exact hs.known

/-- From `σ` to `σ'` the counters stay right. -/
def StaysCounted (σ σ' : Shared) : Prop := Counted σ.front → Counted σ'.front

theorem StaysCounted.trans {σ₁ σ₂ σ₃ : Shared} (h : StaysCounted σ₁ σ₂) (h' : StaysCounted σ₂ σ₃) : StaysCounted σ₁ σ₃ := fun hs => h' (h hs)

theorem staysCounted_release {dst : PageState} : StaysCounted σ (transition id dst t ω σ).2 := by
  intro hs
  unfold transition
  split
  · exact hs
  · rename_i p hp
    split
    · rename_i q hq
      rw [PageMetadata.transition_eq hq]
      exact hs.put (lookup_own hp) rfl rfl rfl
    · exact (path_assertion (l := .worker) ..).counted hs

theorem counts_claimFree : Counts _ (claimFree id) := by
  intro t ω σ _ _
  have heff : ∀ {β : Type} {a : Sec β}, Effect .worker β a → ∀ σ, StaysCounted σ (a t ω σ).2 := fun ha σ hs => (ha t ω σ).counted hs
  have hend : ∀ (m : PageMetadata) σ, StaysCounted σ ((do
      Act.modify fun σ : Shared => { σ with prefetched := σ.prefetched.filter (· != id) }
      record fun t => .release t id m.owned
      pure m : Sec PageMetadata) t ω σ).2 := fun m σ =>
    Act.bind_relates (R := StaysCounted) StaysCounted.trans (heff effect_unmark σ) fun _ σ' => fun hs => hs.log rfl
  have hbusy : ∀ σ, StaysCounted σ (withPage id (fun p => { p with inFlight := true }) t ω σ).2 := heff (effect_withPage fun _ => rfl)
  refine Act.bind_relates (R := StaysCounted) StaysCounted.trans (heff effect_copyOf σ) fun m σ' => ?_
  cases m.state with
  | residentVram | residentHost | residentNvme | error =>
    exact Act.bind_relates (R := StaysCounted) StaysCounted.trans staysCounted_release fun _ σ' =>
      Act.bind_relates (R := StaysCounted) StaysCounted.trans (hbusy σ') fun _ => hend m
  | released => exact Act.bind_relates (R := StaysCounted) StaysCounted.trans (hbusy σ') fun _ => hend m
  | _ => exact Act.bind_relates (R := StaysCounted) StaysCounted.trans (fun hs => hs) fun _ => hend m

theorem counts_finishFree {failed : Bool} : Counts _ (finishFree id failed) := by
  intro t ω σ _ _
  cases failed with
  | true =>
    have heff : Effect .worker _ (finishFree id true) := (effect_withPage fun _ => by rfl).bind fun _ => effect_recordSettle
    exact (heff t ω σ).counted
  | false => exact fun hs => (hs.log rfl).erase id

theorem Inserts.counted (h : Inserts l t σ σ') (hK : Recorded σ') (hs : Counted σ.front) : Counted σ'.front := by
  cases h with
  | path h => exact h.counted hs
  | broken σ₁ pages a h hσ =>
    rw [hσ] at hK
    cases hK.1
  | page σ₁ q n b x h hq hr hc hσ =>
    rw [hσ] at hK ⊢
    exact (h.counted hs).insert hK.1 hr hc

theorem counts_admits (cfg : RuntimeConfig) (l : Op) : Admits cfg l Counts where
  effect h t ω σ _ _ hs := (h t ω σ).counted hs
  demand id target := counts_of_same fun t ω σ => by
    unfold pushDemand
    split <;> exact ⟨rfl, rfl, rfl⟩
  prefetch id target := counts_of_same fun t ω σ => by
    unfold pushPrefetch
    repeat' split
    all_goals exact ⟨rfl, rfl, rfl⟩
  insert _ h t ω σ _ hK hs := (h t ω σ).counted hK hs
  pop _ := counts_of_same fun t ω σ => by
    unfold popRequest
    split <;> exact ⟨rfl, rfl, rfl⟩
  mark _ id := counts_of_same fun t ω σ => by
    simp only [markPrefetched, Act.modify_apply]
    split <;> exact ⟨rfl, rfl, rfl⟩
  settle _ k r := counts_of_same fun t ω σ => by
    cases k <;> exact ⟨rfl, rfl, rfl⟩
  served _ _ := counts_of_same fun _ _ _ => ⟨rfl, rfl, rfl⟩
  claim _ _ := counts_claimFree
  dequeue _ _ := counts_of_same fun _ _ _ => ⟨rfl, rfl, rfl⟩
  finish _ _ _ := counts_finishFree
  stop _ := counts_of_same fun _ _ _ => ⟨rfl, rfl, rfl⟩

/-! ## Runs -/

theorem reached_recorded (hr : Reached cfg disk c) : Recorded c.shared := by
  obtain ⟨T, hi⟩ := reachable_inv hr
  exact hi.wf.events

theorem reached_counted (hr : Reached cfg disk c) : Counted c.shared.front := by
  refine hr.keeps_known (P := fun _ => Counts) (K := Recorded) (fun _ => reached_recorded) (fun l _ => code_all (counts_admits cfg l))
    (fun _ σ => Counted σ.front) ?_ (fun _ _ _ h => h) fun _ t _ _ a ω σ _ ha hK hK' hs => ha t ω σ hK hK' hs
  have hseq : 0 = u64 0 := (u64_of_lt (by decide)).symm
  exact ⟨hseq, fun p hp => absurd hp (Multiset.notMem_zero p), fun p hp => absurd hp (Multiset.notMem_zero p),
    fun p hp => absurd hp (Multiset.notMem_zero p), fun i hi => absurd rfl hi⟩

/-! ## The ranking -/

/-- The order of true recency: pages never accessed by their ids, then the others by their last accesses. -/
def Staler (h : List Event) (i j : PageId) : Prop :=
  if accessesOf h i = 0 then accessesOf h j = 0 → i < j
  else accessesOf h j ≠ 0 ∧ lastAccess h i < lastAccess h j

/-- The page an operation accesses. -/
def Op.accesses : Op → Option PageId
  | .read id _ | .write id _ | .fill id => some id
  | _ => none

theorem accesses_of_records {e : Event} (hl : l.accesses = none) (he : l.records e = true) : e.accesses = none := by
  cases e <;> cases l <;> simp_all [Op.accesses, Op.records, Event.accesses]

theorem lastAccess_append : ∀ {evs : List Event}, (∀ e ∈ evs, e.accesses = none) → lastAccess (evs ++ h) id = lastAccess h id
  | [], _ => rfl
  | e :: evs, hevs => by
    have he : e.accesses ≠ some id := by
      rw [hevs e (List.mem_cons_self ..)]
      exact Option.some_ne_none id ∘ Eq.symm
    rw [List.cons_append, lastAccess_cons_ne he]
    exact lastAccess_append fun e' he' => hevs e' (List.mem_cons_of_mem e he')

theorem accessesOf_append {evs : List Event} (hevs : ∀ e ∈ evs, e.accesses = none) : accessesOf (evs ++ h) id = accessesOf h id := by
  have h0 : evs.countP (fun e => e.accesses == some id) = 0 := List.countP_eq_zero.2 fun e he => by rw [hevs e he]; simp
  rw [accessesOf, List.countP_append, h0, Nat.zero_add]
  rfl

/-- A step of an operation that is no access leaves the counters of every page. -/
theorem counters_kept (hr : Reached cfg disk c) (hm : c.move (code cfg) (.exec t ω) = some c') (hl : c.labels[t]? = some l)
    (hacc : l.accesses = none) {p q : PageMetadata} (hp : p ∈ c.shared.table.bag) (hq : q ∈ c'.shared.table.bag) (hid : q.id = p.id) :
    q.lastAccessSequence = p.lastAccessSequence ∧ q.accessCount = p.accessCount := by
  obtain ⟨l', hl', ⟨evs, hh, hevs⟩, -⟩ := noted_move hr hm
  rw [hl] at hl'
  cases hl'
  have hnone : ∀ e ∈ evs, e.accesses = none := fun e he => accesses_of_records hacc (hevs e he).2
  have hc := reached_counted hr
  have hc' := reached_counted (.move _ trivial hr hm)
  have hh' : c'.shared.front.history = evs ++ c.shared.front.history := hh
  refine ⟨?_, ?_⟩
  · rw [hc'.recency q hq, hc.recency p hp, hh', lastAccess_append hnone, hid]
  · rw [hc'.count q hq, hc.count p hp, hh', accessesOf_append hnone, hid]

/-- Pages that the LRU comparison puts in order are in the order of recency. -/
theorem staler_of_before {p q : PageMetadata} (hp : (p.lastAccessSequence : Int) = lastAccess h p.id)
    (hq : (q.lastAccessSequence : Int) = lastAccess h q.id) (hne : p.id ≠ q.id) (hb : Policy.lru.Before p q) : Staler h p.id q.id := by
  simp only [Policy.Before, Policy.rank, hp, hq] at hb
  unfold Staler
  split
  · rename_i h0
    intro h0'
    rw [← lastAccess_eq_zero] at h0 h0'
    rw [h0, h0'] at hb
    rcases hb with hb | ⟨-, hid⟩
    · exact absurd hb (lt_irrefl _)
    · exact lt_of_le_of_ne hid hne
  · rename_i h0
    rw [← lastAccess_eq_zero] at h0
    have hlt : lastAccess h p.id < lastAccess h q.id := by
      rcases hb with hb | ⟨hb, -⟩
      · exact_mod_cast hb
      · exact absurd (lastAccess_inj (by exact_mod_cast hb) h0) hne
    refine ⟨fun hz => ?_, hlt⟩
    rw [← lastAccess_eq_zero] at hz
    omega

/-- As long as fewer than `2 ^ 64` accesses are committed: no two pages share a sequence number of an
access, a page's count is that of its committed accesses, the LRU policy ranks any of the pages of the
table by true recency, and only accesses change the counters. -/
theorem lru_recency (hr : Reached cfg disk c) (hpol : cfg.policy = .lru) (hfew : accesses c.shared.history < 2 ^ 64) :
    (∀ p ∈ c.shared.table.items, ∀ q ∈ c.shared.table.items,
      p.lastAccessSequence ≠ 0 → p.lastAccessSequence = q.lastAccessSequence → p = q) ∧
    (∀ p ∈ c.shared.table.items, p.accessCount = accessesOf c.shared.history p.id) ∧
    (∀ candidates : List PageMetadata, candidates.Nodup → candidates ⊆ c.shared.table.items →
      (cfg.policy.rankVictims candidates).Perm (candidates.map PageMetadata.id) ∧
        (cfg.policy.rankVictims candidates).Pairwise (Staler c.shared.history)) ∧
    ∀ t ω l c', c.labels[t]? = some l → l.accesses = none → c.move (code cfg) (.exec t ω) = some c' →
      ∀ p ∈ c.shared.table.items, ∀ q ∈ c'.shared.table.items, q.id = p.id →
        q.lastAccessSequence = p.lastAccessSequence ∧ q.accessCount = p.accessCount := by
  have hc := reached_counted hr
  have hrec : ∀ p ∈ c.shared.table.items, p.lastAccessSequence = lastAccess c.shared.history p.id := by
    intro p hp
    rw [hc.recency p (Keyed.mem_bag.2 hp)]
    exact u64_of_lt (lt_of_le_of_lt (lastAccess_le _ _) hfew)
  refine ⟨fun p hp q hq h0 heq => ?_, fun p hp => ?_, fun candidates hnd hsub => ⟨?_, ?_⟩, ?_⟩
  · rw [hrec p hp] at h0 heq
    rw [hrec q hq] at heq
    exact Keyed.eq_of_key (Keyed.mem_bag.2 hp) (Keyed.mem_bag.2 hq) (lastAccess_inj heq h0)
  · rw [hc.count p (Keyed.mem_bag.2 hp)]
    refine u64_of_lt (lt_of_le_of_lt (List.countP_mono_left fun e _ he => ?_) hfew)
    rw [eq_of_beq he]
    rfl
  · exact (List.perm_insertionSort _ _).map _
  · rw [hpol, Policy.rankVictims, List.pairwise_map]
    have hnd' : (candidates.insertionSort Policy.lru.Before).Nodup := (List.perm_insertionSort _ _).nodup_iff.2 hnd
    refine (List.Pairwise.and hnd' (List.pairwise_insertionSort _ candidates)).imp_of_mem fun {p q} hp hq hpq => ?_
    have hp' := hsub ((List.mem_insertionSort _).1 hp)
    have hq' := hsub ((List.mem_insertionSort _).1 hq)
    refine staler_of_before (by rw [hrec p hp']) (by rw [hrec q hq']) (fun hid => hpq.1 ?_) hpq.2
    exact Keyed.eq_of_key (Keyed.mem_bag.2 hp') (Keyed.mem_bag.2 hq') hid
  · exact fun t ω l c' hl hacc hm p hp q hq hid => counters_kept hr hm hl hacc (Keyed.mem_bag.2 hp) (Keyed.mem_bag.2 hq) hid

theorem lru_recency_read : ∃ c, Reached (smallConfig 0 2 2) (fun _ => 0) c ∧ accesses c.shared.history = 1 ∧
    ∀ candidates : List PageMetadata, candidates.Nodup → candidates ⊆ c.shared.table.items →
      (Policy.lru.rankVictims candidates).Perm (candidates.map PageMetadata.id) ∧
        (Policy.lru.rankVictims candidates).Pairwise (Staler c.shared.history) := by
  obtain ⟨c, hr, h1⟩ := reached_of_test (smallConfig 0 2 2) (fun _ => 0)
    (.spawn (.allocate { logicalBytes := 10 }) :: turns 0 6 ++ .spawn (.allocate { logicalBytes := 10 }) :: turns 1 6 ++
      .spawn (.read 2 true) :: turns 2 6) (fun c => accesses c.shared.history = 1) (by decide +kernel)
  exact ⟨c, hr, h1, (lru_recency hr rfl (by rw [h1]; decide)).2.2.1⟩

/-! ## Beyond 64 bits -/

section Wrap

variable {p : PageMetadata}

/-- The state after a read of a page in host memory. -/
def Shared.afterRead (σ : Shared) (t : Nat) (p : PageMetadata) : Shared :=
  { σ with
    table := σ.table.put { p with lastAccessSequence := u64 (σ.accessSeq + 1), accessCount := u64 (p.accessCount + 1) }
    accessSeq := u64 (σ.accessSeq + 1)
    prefetched := σ.prefetched.filter (· != p.id)
    history := .read t p.id (Bytes.take (σ.hostMem (deref p.hostPtr)) p.allocationSize) :: σ.history }

theorem settledPage_host {ω : Env} (hstop : σ.stopping = false) (hl : σ.table.lookup p.id = some p) (hs : p.state = .residentHost) :
    settledPage p.id t ω σ = (.ok p, σ) := by
  have h : throwIfStopping (waitCancelled p.id) t ω σ = (.ok (), σ) := by simp [throwIfStopping, hstop]
  rw [settledPage, Act.bind_ok h, Act.bind_ok (copyOf_some hl), hs]
  rfl

theorem tryRead_run (cfg : RuntimeConfig) {ω : Env} (hl : σ.table.lookup p.id = some p) (hs : p.state = .residentHost) :
    ∃ σ', tryRead cfg p.id p.allocationSize t ω σ = (.ok (some (Bytes.take (σ.hostMem (deref p.hostPtr)) p.allocationSize)), σ') ∧
      { σ' with prefetched := σ'.prefetched.filter (· != p.id) } = σ.afterRead t p := by
  have h : tryCopyOut cfg p.id p.allocationSize t ω σ =
      (.ok (some (Bytes.take (σ.hostMem (deref p.hostPtr)) p.allocationSize, p)), σ) := by
    rw [tryCopyOut, Act.bind_ok (copyOf_some hl), hs]
    rfl
  rw [tryRead, Act.bind_ok h]
  dsimp only
  rw [Act.bind_ok (touch_run hl)]
  exact ⟨_, rfl, rfl⟩

/-- A read of a page in host memory, run alone. -/
theorem read_alone (cfg : RuntimeConfig) (hrun : σ.running = true) (hstop : σ.stopping = false) (hl : σ.table.lookup p.id = some p)
    (hs : p.state = .residentHost) :
    ∃ b, (code cfg (.read p.id true)).Alone (fun _ => True) t σ (.ok (.bytes b)) (σ.afterRead t p) := by
  have h₁ : requireRunning t {} σ = (.ok (), σ) := by simp [requireRunning, hrun, hstop]
  have hset : (σ.stopping || σ.settled p.id) = true := by simp [Shared.settled, hl, hs, PageState.transfer]
  set out := Bytes.take (σ.hostMem (deref p.hostPtr)) p.allocationSize
  obtain ⟨σ', h₂, h₃⟩ := tryRead_run cfg (t := t) (ω := {}) hl hs
  have h₄ : (consumePrefetchMark p.id).Alone (fun _ => True) t σ' (.ok ()) (σ.afterRead t p) := by
    rw [← h₃]
    refine .bind (.atomic {} trivial rfl) ?_
    split
    · exact .atomic {} trivial rfl
    · exact .ret _ _
  refine ⟨out, .bind (a := out) ?_ (.ret _ _)⟩
  refine .bind (.atomic {} trivial h₁) (.bind (.await {} trivial hset (settledPage_host hstop hl hs)) ?_)
  rw [if_neg (by simp), if_neg (by simp [hs])]
  refine .bind (.ret _ _) (.bind (.bind (.atomic {} trivial rfl) (.bind (.atomic {} trivial h₂) (.ret _ _))) ?_)
  refine .bind h₄ (.bind (.atomic {} trivial rfl) ?_)
  rw [if_neg (by simp [hs])]
  exact .bind (.ret _ _) (.ret _ _)

/-- Reads of a page in host memory, one after the other, move the access sequence on and leave the other pages. -/
theorem reads_reached (hr : Reached cfg disk c) (hrun : c.shared.running = true) (hstop : c.shared.stopping = false)
    (hl : c.shared.table.lookup id = some p) (hs : p.state = .residentHost) (n : Nat) :
    ∃ c' q, Reached cfg disk c' ∧ c'.shared.running = true ∧ c'.shared.stopping = false ∧ c'.shared.table.lookup id = some q ∧
      q.state = .residentHost ∧ c'.shared.accessSeq = u64 (c.shared.accessSeq + n) ∧
      (n ≠ 0 → q.lastAccessSequence = u64 (c.shared.accessSeq + n)) ∧
      ∀ i, i ≠ id → c'.shared.table.lookup i = c.shared.table.lookup i := by
  induction n with
  | zero =>
    have hseq : c.shared.accessSeq = u64 (c.shared.accessSeq + 0) := by
      rw [show c.shared.accessSeq = u64 (accesses c.shared.history) from (reached_counted hr).seq, u64_u64_add]
      rfl
    exact ⟨c, p, hr, hrun, hstop, hl, hs, hseq, fun h => absurd rfl h, fun _ _ => rfl⟩
  | succ n ih =>
    obtain ⟨c', q, hr', hrun', hstop', hl', hs', hseq, -, hother⟩ := ih
    have hid := id_of_lookup hl'
    subst hid
    obtain ⟨b, hb⟩ := read_alone cfg (t := c'.threads.length) hrun' hstop' hl' hs'
    have hnext : u64 (c'.shared.accessSeq + 1) = u64 (c.shared.accessSeq + (n + 1)) := by
      rw [hseq, u64_u64_add, Nat.add_assoc]
    refine ⟨_, _, Reachable.alone hr' trivial (fun _ _ _ => trivial) hb, hrun', hstop', Keyed.lookup_put_self .., hs', hnext,
      fun _ => hnext, fun i hi => ?_⟩
    rw [← hother i hi]
    exact Keyed.lookup_put_ne _ (Ne.symm hi)

/-- After `2 ^ 64` reads of another page, a page shares the sequence number of its access with it. -/
theorem lru_recency_wraps : ∃ c, Reached (smallConfig 0 2 2) (fun _ => 0) c ∧
    ∃ p ∈ c.shared.table.items, ∃ q ∈ c.shared.table.items,
      p.lastAccessSequence ≠ 0 ∧ p.lastAccessSequence = q.lastAccessSequence ∧ p ≠ q := by
  obtain ⟨c, hr, hrun, hstop, hseq, hp, hq⟩ := reached_of_test (smallConfig 0 2 2) (fun _ => 0)
    (.spawn (.allocate { logicalBytes := 10 }) :: turns 0 6 ++ .spawn (.allocate { logicalBytes := 10 }) :: turns 1 6 ++
      .spawn (.read 2 true) :: turns 2 6)
    (fun c => c.shared.running = true ∧ c.shared.stopping = false ∧ c.shared.accessSeq = 1 ∧
      (c.shared.table.lookup 1).any (·.state = .residentHost) = true ∧
      (c.shared.table.lookup 2).any (·.lastAccessSequence = 1) = true) (by decide +kernel)
  obtain ⟨p, hp, hs⟩ := (Option.any_eq_true _ _).1 hp
  obtain ⟨q, hq, h1⟩ := (Option.any_eq_true _ _).1 hq
  obtain ⟨c', p', hr', -, -, hl', -, -, hlast, hother⟩ := reads_reached hr hrun hstop hp (of_decide_eq_true hs) (2 ^ 64)
  have hq' := hother 2 (by decide)
  rw [hq] at hq'
  have hwrap : u64 (1 + 2 ^ 64) = 1 := by
    unfold u64
    rfl
  have hp1 : p'.lastAccessSequence = 1 := by rw [hlast (by decide), hseq, hwrap]
  have hq1 : q.lastAccessSequence = 1 := of_decide_eq_true h1
  refine ⟨c', hr', p', Keyed.mem_bag.1 (Keyed.lookup_some.1 hl').1, q, Keyed.mem_bag.1 (Keyed.lookup_some.1 hq').1,
    by rw [hp1]; decide, by rw [hp1, hq1], fun heq => ?_⟩
  have hid := id_of_lookup hl'
  rw [heq, id_of_lookup hq'] at hid
  cases hid

end Wrap

end FlashTier
