/-
The order in which the policies rank pages (`policy.cpp`). The candidates are collected from a hash table,
in any order, and sorted with an algorithm that is not stable; the comparators are total on pages of
different ids, so that neither shows in a ranking, nor in what the planner decides from it.
-/
import FlashTier.Runtime.Planner

namespace FlashTier

/-! ## Comparators -/

/-- The comparator of the rankings: by a key, then by id. -/
def KeyOrder {κ : Type} [LinearOrder κ] (key : PageMetadata → κ) (a b : PageMetadata) : Prop :=
  key a < key b ∨ (key a = key b ∧ a.id ≤ b.id)

namespace KeyOrder

variable {κ : Type} [LinearOrder κ] {key : PageMetadata → κ} {p q r : PageMetadata}

theorem total (key : PageMetadata → κ) (p q : PageMetadata) : KeyOrder key p q ∨ KeyOrder key q p := by
  rcases lt_trichotomy (key p) (key q) with h | h | h
  · exact .inl (.inl h)
  · rcases Nat.le_total p.id q.id with hid | hid
    · exact .inl (.inr ⟨h, hid⟩)
    · exact .inr (.inr ⟨h.symm, hid⟩)
  · exact .inr (.inl h)

theorem trans : KeyOrder key p q → KeyOrder key q r → KeyOrder key p r := by
  rintro (h | ⟨h, hid⟩) (h' | ⟨h', hid'⟩)
  · exact .inl (h.trans h')
  · exact .inl (h.trans_eq h')
  · exact .inl (h.trans_lt h')
  · exact .inr ⟨h.trans h', hid.trans hid'⟩

/-- Pages that may be swapped have the same id. -/
theorem id_eq : KeyOrder key p q → KeyOrder key q p → p.id = q.id := by
  rintro (h | ⟨h, hid⟩) (h' | ⟨h', hid'⟩)
  · exact absurd h h'.asymm
  · exact absurd h (h'.symm ▸ lt_irrefl _)
  · exact absurd h' (h.symm ▸ lt_irrefl _)
  · exact Nat.le_antisymm hid hid'

instance : Std.Total (KeyOrder key) := ⟨total key⟩

instance : IsTrans PageMetadata (KeyOrder key) := ⟨fun _ _ _ => trans⟩

/-- The test the sort is given: `a` is to come before `b`. -/
def Less (key : PageMetadata → κ) (a b : PageMetadata) : Prop := key a < key b ∨ (key a = key b ∧ a.id < b.id)

theorem not_less : ¬Less key q p ↔ KeyOrder key p q := by
  unfold Less KeyOrder
  constructor
  · intro h
    rw [not_or, not_and] at h
    rcases lt_or_eq_of_le (not_lt.1 h.1) with hlt | heq
    · exact .inl hlt
    · exact .inr ⟨heq, Nat.le_of_not_lt (h.2 heq.symm)⟩
  · rintro (h | ⟨h, hid⟩) (h' | ⟨h', hid'⟩)
    · exact absurd h h'.asymm
    · exact absurd h (h'.symm ▸ lt_irrefl _)
    · exact absurd h' (h.symm ▸ lt_irrefl _)
    · exact absurd hid' (Nat.not_lt.2 hid)

/-- Two arrangements of pages of different ids, both in order, are the same. -/
theorem eq_of_perm (key : PageMetadata → κ) {ps qs : List PageMetadata} (hids : (qs.map PageMetadata.id).Nodup) (hp : ps.Perm qs)
    (h : ps.Pairwise (KeyOrder key)) (h' : qs.Pairwise (KeyOrder key)) : ps = qs :=
  hp.eq_of_pairwise (fun _ _ ha hb hab hba => List.inj_on_of_nodup_map hids (hp.subset ha) hb (id_eq hab hba)) h h'

end KeyOrder

namespace Policy

variable {pol : Policy}

instance : Std.Total pol.Before := inferInstanceAs (Std.Total (KeyOrder pol.rank))

instance : IsTrans PageMetadata pol.Before := inferInstanceAs (IsTrans PageMetadata (KeyOrder pol.rank))

/-- The key of `rank_prefetch`: the highest score first. -/
def prefetchKey (pol : Policy) (p : PageMetadata) : Intᵒᵈ := OrderDual.toDual (pol.rank p)

/-- The comparison of `rank_prefetch`: by score, the highest first, then by id. -/
def BeforePrefetch (pol : Policy) (a b : PageMetadata) : Prop :=
  pol.rank b < pol.rank a ∨ (pol.rank a = pol.rank b ∧ a.id ≤ b.id)

instance (pol : Policy) : DecidableRel pol.BeforePrefetch := fun a b => by unfold BeforePrefetch; infer_instance

instance : Std.Total pol.BeforePrefetch := inferInstanceAs (Std.Total (KeyOrder pol.prefetchKey))

instance : IsTrans PageMetadata pol.BeforePrefetch := inferInstanceAs (IsTrans PageMetadata (KeyOrder pol.prefetchKey))

/-- `rank_prefetch`. -/
def rankPrefetch (pol : Policy) (candidates : List PageMetadata) : List PageId :=
  (candidates.insertionSort pol.BeforePrefetch).map PageMetadata.id

end Policy

/-! ## Rankings -/

/-- A ranking of the candidates: the ids of an arrangement of them in which no page comes before an
earlier one. -/
def Ranks {κ : Type} [LinearOrder κ] (key : PageMetadata → κ) (candidates : List PageMetadata) (ranking : List PageId) : Prop :=
  ∃ ps : List PageMetadata, ps.Perm candidates ∧ ps.Pairwise (fun a b => ¬KeyOrder.Less key b a) ∧ ranking = ps.map PageMetadata.id

variable {pol : Policy} {candidates candidates' : List PageMetadata}

/-- There is one ranking of pages of different ids, whatever their order. -/
theorem Ranks.unique {κ : Type} [LinearOrder κ] {key : PageMetadata → κ} {ranking ranking' : List PageId}
    (hids : (candidates.map PageMetadata.id).Nodup) (hp : candidates.Perm candidates') (h : Ranks key candidates ranking)
    (h' : Ranks key candidates' ranking') : ranking = ranking' := by
  obtain ⟨ps, hperm, hsorted, rfl⟩ := h
  obtain ⟨qs, hperm', hsorted', rfl⟩ := h'
  have hqs : qs.Perm candidates := hperm'.trans hp.symm
  have hids' : (qs.map PageMetadata.id).Nodup := (hqs.map _).nodup_iff.2 hids
  rw [KeyOrder.eq_of_perm key hids' (hperm.trans hqs.symm) (hsorted.imp KeyOrder.not_less.1)
    (hsorted'.imp KeyOrder.not_less.1)]

theorem Policy.ranks_victims (pol : Policy) (candidates : List PageMetadata) : Ranks pol.rank candidates (pol.rankVictims candidates) :=
  ⟨_, List.perm_insertionSort pol.Before candidates,
    (List.pairwise_insertionSort pol.Before candidates).imp fun h => KeyOrder.not_less.2 h, rfl⟩

theorem Policy.ranks_prefetch (pol : Policy) (candidates : List PageMetadata) :
    Ranks pol.prefetchKey candidates (pol.rankPrefetch candidates) :=
  ⟨_, List.perm_insertionSort pol.BeforePrefetch candidates,
    (List.pairwise_insertionSort pol.BeforePrefetch candidates).imp fun h => KeyOrder.not_less.2 h, rfl⟩

theorem Ranks.perm {κ : Type} [LinearOrder κ] {key : PageMetadata → κ} {ranking : List PageId} (h : Ranks key candidates ranking) :
    ranking.Perm (candidates.map PageMetadata.id) := by
  obtain ⟨ps, hperm, -, rfl⟩ := h
  exact hperm.map _

/-! ## Plans -/

namespace PlannerBudgets

/-- Looking up a page does not depend on the order of the candidates. -/
theorem findById_perm (hids : (candidates.map PageMetadata.id).Nodup) (hp : candidates.Perm candidates') (id : PageId) :
    findById candidates id = findById candidates' id := by
  have hids' : (candidates'.map PageMetadata.id).Nodup := (hp.map _).nodup_iff.1 hids
  rcases hf : findById candidates id with _ | p
  · symm
    unfold findById at hf ⊢
    rw [List.find?_eq_none] at hf ⊢
    exact fun q hq => hf q (hp.mem_iff.2 hq)
  · have hmem := List.mem_of_find?_eq_some hf
    have hid : p.id = id := by simpa using List.find?_some hf
    have hfind : findById candidates' p.id = some p := Conc.Keyed.lookup_of_mem (d := ⟨candidates', hids'⟩) (hp.mem_iff.1 hmem)
    rw [← hid, hfind]

theorem planLoop_perm (hids : (candidates.map PageMetadata.id).Nodup) (hp : candidates.Perm candidates') (ordered : List PageId)
    (need hostRemaining : Nat) : planLoop candidates ordered need hostRemaining = planLoop candidates' ordered need hostRemaining := by
  have hlegal : legal candidates ordered = legal candidates' ordered := by
    unfold legal
    rw [funext (findById_perm hids hp)]
  rw [planLoop_eq_greedy, planLoop_eq_greedy, hlegal]

end PlannerBudgets

/-- Neither the order of the candidates nor the sorting algorithm shows: in every order of candidates of
different ids a policy returns the only ranking there is, and the planner the same plan or error. -/
theorem ranking_deterministic (pol : Policy) (hids : (candidates.map PageMetadata.id).Nodup) (hp : candidates.Perm candidates') :
    (pol.rankVictims candidates = pol.rankVictims candidates' ∧ pol.rankPrefetch candidates = pol.rankPrefetch candidates') ∧
    ((pol.rankVictims candidates).Perm (candidates.map PageMetadata.id) ∧
      (pol.rankPrefetch candidates).Perm (candidates.map PageMetadata.id)) ∧
    (∀ ranking, Ranks pol.rank candidates ranking ↔ ranking = pol.rankVictims candidates) ∧
    (∀ ranking, Ranks pol.prefetchKey candidates ranking ↔ ranking = pol.rankPrefetch candidates) ∧
    ∀ (b : PlannerBudgets) (need hostFree : Nat),
      b.planEvictions need candidates pol hostFree = b.planEvictions need candidates' pol hostFree := by
  have hv : pol.rankVictims candidates = pol.rankVictims candidates' :=
    Ranks.unique hids hp (pol.ranks_victims candidates) (pol.ranks_victims candidates')
  have hf : pol.rankPrefetch candidates = pol.rankPrefetch candidates' :=
    Ranks.unique hids hp (pol.ranks_prefetch candidates) (pol.ranks_prefetch candidates')
  refine ⟨⟨hv, hf⟩, ⟨(pol.ranks_victims candidates).perm, (pol.ranks_prefetch candidates).perm⟩, fun ranking => ⟨fun h => ?_, ?_⟩,
    fun ranking => ⟨fun h => ?_, ?_⟩, fun b need hostFree => ?_⟩
  · exact Ranks.unique hids (List.Perm.refl _) h (pol.ranks_victims candidates)
  · rintro rfl
    exact pol.ranks_victims candidates
  · exact Ranks.unique hids (List.Perm.refl _) h (pol.ranks_prefetch candidates)
  · rintro rfl
    exact pol.ranks_prefetch candidates
  · unfold PlannerBudgets.planEvictions PlannerBudgets.planOrdered
    rw [PlannerBudgets.planLoop_perm hids hp, hv]

theorem ranking_deterministic_two :
    Policy.lru.rankVictims [{ id := 2, logicalSize := 1, allocationSize := 4096 }, { id := 1, logicalSize := 1, allocationSize := 4096 }] =
      Policy.lru.rankVictims [{ id := 1, logicalSize := 1, allocationSize := 4096 }, { id := 2, logicalSize := 1, allocationSize := 4096 }] :=
  (ranking_deterministic .lru (by decide) (List.Perm.swap ..)).1.1

end FlashTier
