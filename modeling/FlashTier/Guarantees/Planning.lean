/-
What `plan_evictions` decides, for any ranking of the candidates: nothing when there is headroom, the
shortest prefix of the legal candidates that covers the shortfall when they do, and a throw exactly when
they do not; the host is never overbooked, and no subtraction goes below zero.
-/
import FlashTier.Runtime.Budget
import FlashTier.Runtime.Planner

namespace FlashTier

namespace PlannerBudgets

/-! ## The same in 64-bit registers -/

def headroom64 (b : PlannerBudgets) : Nat :=
  let usable := if b.vramReserve ≤ b.vramLimit then u64Sub b.vramLimit b.vramReserve else 0
  if b.vramUsed < usable then u64Sub usable b.vramUsed else 0

def decision64 (p : PageMetadata) (hostRemaining : Nat) : EvictionDecision × Nat :=
  if hostRemaining < p.allocationSize ∧ p.dirty then (⟨p.id, .nvme, "writeback_to_nvme"⟩, hostRemaining)
  else if hostRemaining < p.allocationSize ∧ p.hasNvmeCopy then (⟨p.id, .nvme, "drop_to_nvme_clean"⟩, hostRemaining)
  else if hostRemaining < p.allocationSize then (⟨p.id, .nvme, "spill_to_nvme"⟩, hostRemaining)
  else (⟨p.id, .hostPinned, "demote_to_host"⟩, u64Sub hostRemaining p.allocationSize)

def planLoop64 (candidates : List PageMetadata) : List PageId → Nat → Nat → List EvictionDecision × Nat
  | [], need, _ => ([], need)
  | id :: rest, need, hostRemaining =>
    if need = 0 then ([], need)
    else match findById candidates id with
      | none => planLoop64 candidates rest need hostRemaining
      | some p =>
        if p.pinned || p.inFlight then planLoop64 candidates rest need hostRemaining
        else
          let d := decision64 p hostRemaining
          let freed := min need p.allocationSize
          let r := planLoop64 candidates rest (if need ≤ freed then 0 else u64Sub need freed) d.2
          (d.1 :: r.1, r.2)

/-- `plan_evictions` with every subtraction one of 64-bit registers. -/
def planOrdered64 (b : PlannerBudgets) (needBytes : Nat) (candidates : List PageMetadata) (ordered : List PageId)
    (hostFreeBytes : Nat) : Except Error (List EvictionDecision) :=
  if needBytes ≤ b.headroom64 then .ok []
  else
    let r := planLoop64 candidates ordered (u64Sub needBytes b.headroom64) hostFreeBytes
    if r.2 ≠ 0 then .error (noVictim r.2) else .ok r.1

theorem headroom_eq (b : PlannerBudgets) : b.headroom = b.vramLimit - b.vramReserve - b.vramUsed := by
  unfold headroom
  by_cases hr : b.vramReserve ≤ b.vramLimit
  · simp only [if_pos hr]
    split <;> omega
  · simp only [if_neg hr]
    split <;> omega

theorem headroom64_eq (b : PlannerBudgets) : b.headroom64 = b.headroom := by
  unfold headroom64 headroom
  by_cases hr : b.vramReserve ≤ b.vramLimit
  · simp only [if_pos hr, u64Sub_of_le hr]
    split
    · rename_i hu
      exact u64Sub_of_le hu.le
    · rfl
  · simp only [if_neg hr, Nat.not_lt_zero, if_false]

theorem decision64_eq (p : PageMetadata) (hostRemaining : Nat) : decision64 p hostRemaining = decision p hostRemaining := by
  unfold decision64 decision
  split
  · rfl
  split
  · rfl
  split
  · rfl
  · rename_i h
    rw [u64Sub_of_le (Nat.le_of_not_lt h)]

theorem planLoop64_eq (candidates : List PageMetadata) : ∀ (ordered : List PageId) (need hostRemaining : Nat),
    planLoop64 candidates ordered need hostRemaining = planLoop candidates ordered need hostRemaining
  | [], need, hostRemaining => rfl
  | id :: rest, need, hostRemaining => by
    unfold planLoop64 planLoop
    split
    · rfl
    rcases findById candidates id with _ | p
    · exact planLoop64_eq candidates rest need hostRemaining
    · simp only
      split
      · exact planLoop64_eq candidates rest need hostRemaining
      · have hneed : (if need ≤ min need p.allocationSize then 0 else u64Sub need (min need p.allocationSize)) =
            need - min need p.allocationSize := by
          split
          · omega
          · exact u64Sub_of_le (Nat.min_le_left _ _)
        rw [hneed, decision64_eq, planLoop64_eq candidates rest]

theorem planOrdered64_eq (b : PlannerBudgets) (need : Nat) (candidates : List PageMetadata) (ordered : List PageId) (hostFree : Nat) :
    b.planOrdered64 need candidates ordered hostFree = b.planOrdered need candidates ordered hostFree := by
  unfold planOrdered64 planOrdered
  rw [headroom64_eq]
  by_cases hn : need ≤ b.headroom
  · rw [if_pos hn, if_pos hn]
  · rw [if_neg hn, if_neg hn, u64Sub_of_le (Nat.le_of_not_le hn), planLoop64_eq]

/-! ## Host bytes -/

/-- The bytes of the pages that decisions send to the host. -/
def hostBytes : List EvictionDecision → List PageMetadata → Nat
  | d :: ds, p :: ps => (if d.target = .hostPinned then p.allocationSize else 0) + hostBytes ds ps
  | _, _ => 0

/-- The decisions book the host within its free bytes, and send a page to the store only when the host
bytes left at its turn are fewer than its size. -/
structure HostBooked (ds : List EvictionDecision) (ps : List PageMetadata) (hostFree : Nat) : Prop where
  within : hostBytes ds ps ≤ hostFree
  targets : ∀ d ∈ ds, d.target = .hostPinned ∨ d.target = .nvme
  spilled : ∀ i d p, ds[i]? = some d → ps[i]? = some p → d.target = .nvme →
    hostFree - hostBytes (ds.take i) (ps.take i) < p.allocationSize

theorem decision_cases (p : PageMetadata) (hostRemaining : Nat) :
    ((decision p hostRemaining).1.target = .nvme ∧ (decision p hostRemaining).2 = hostRemaining ∧ hostRemaining < p.allocationSize) ∨
      ((decision p hostRemaining).1.target = .hostPinned ∧ p.allocationSize ≤ hostRemaining ∧
        (decision p hostRemaining).2 = hostRemaining - p.allocationSize) := by
  unfold decision
  split
  · rename_i h
    exact .inl ⟨rfl, rfl, h.1⟩
  split
  · rename_i h
    exact .inl ⟨rfl, rfl, h.1⟩
  split
  · rename_i h
    exact .inl ⟨rfl, rfl, h⟩
  · rename_i h
    exact .inr ⟨rfl, Nat.le_of_not_lt h, rfl⟩

theorem greedy_booked : ∀ (ps : List PageMetadata) (need hostRemaining : Nat),
    HostBooked (greedy ps need hostRemaining).1 ps hostRemaining
  | [], need, hostRemaining => by
    refine ⟨Nat.zero_le _, fun d hd => (List.not_mem_nil hd).elim, fun i d p hd => ?_⟩
    simp [greedy] at hd
  | p :: ps, need, hostRemaining => by
    by_cases hn : need = 0
    · subst hn
      rw [greedy_zero]
      refine ⟨Nat.zero_le _, fun d hd => (List.not_mem_nil hd).elim, fun i d p hd => ?_⟩
      simp at hd
    · obtain ⟨hle, htar, hsp⟩ := greedy_booked ps (need - min need p.allocationSize) (decision p hostRemaining).2
      rw [greedy, if_neg hn]
      simp only
      rcases decision_cases p hostRemaining with ⟨ht, hrem, hlt⟩ | ⟨ht, hge, hrem⟩
      · -- the page goes to the store: the host is as it was
        have hz : (if (decision p hostRemaining).1.target = .hostPinned then p.allocationSize else 0) = 0 := by
          rw [ht]
          rfl
        rw [hrem] at hle htar hsp ⊢
        refine ⟨?_, ?_, ?_⟩
        · rw [hostBytes, hz, Nat.zero_add]
          exact hle
        · rintro d (_ | ⟨_, hd⟩)
          · exact .inr ht
          · exact htar d hd
        · rintro (_ | i) d q hd hq hnv
          · cases hd
            cases hq
            exact lt_of_le_of_lt (Nat.sub_le _ _) hlt
          · rw [List.take_succ_cons, List.take_succ_cons, hostBytes, hz, Nat.zero_add]
            exact hsp i d q hd hq hnv
      · have hz : (if (decision p hostRemaining).1.target = .hostPinned then p.allocationSize else 0) = p.allocationSize := by
          rw [ht]
          rfl
        rw [hrem] at hle htar hsp ⊢
        refine ⟨?_, ?_, ?_⟩
        · rw [hostBytes, hz]
          omega
        · rintro d (_ | ⟨_, hd⟩)
          · exact .inl ht
          · exact htar d hd
        · rintro (_ | i) d q hd hq hnv
          · cases hd
            rw [ht] at hnv
            cases hnv
          · rw [List.take_succ_cons, List.take_succ_cons, hostBytes, hz, ← Nat.sub_sub]
            exact hsp i d q hd hq hnv

/-! ## The plan -/

/-- The decisions of a plan: for the shortest prefix of the legal candidates that covers the shortfall,
each of a different page, with the host booked within its free bytes. -/
structure Plan (ps : List PageMetadata) (shortfall hostFree : Nat) (ds : List EvictionDecision) : Prop where
  ids : ds.map EvictionDecision.id = (ps.take ds.length).map PageMetadata.id
  covers : shortfall ≤ sizes (ps.take ds.length)
  shortest : ∀ j < ds.length, sizes (ps.take j) < shortfall
  nodup : (ds.map EvictionDecision.id).Nodup
  legal : ∀ d ∈ ds, ∃ p ∈ ps, p.id = d.id ∧ p.pinned = false ∧ p.inFlight = false
  host : HostBooked ds ps hostFree

theorem mem_legal {candidates : List PageMetadata} {ordered : List PageId} {p : PageMetadata} (h : p ∈ legal candidates ordered) :
    p ∈ candidates ∧ p.pinned = false ∧ p.inFlight = false := by
  obtain ⟨hp, hl⟩ := List.mem_filter.1 h
  obtain ⟨id, -, hf⟩ := List.mem_filterMap.1 hp
  have : (!p.pinned && !p.inFlight) = true := hl
  simp only [Bool.and_eq_true, Bool.not_eq_true'] at this
  exact ⟨List.mem_of_find?_eq_some hf, this⟩

/-- A ranking that is a permutation of the candidates' ids ranks each legal candidate once. -/
theorem legal_nodup {candidates : List PageMetadata} {ordered : List PageId} (hc : (candidates.map PageMetadata.id).Nodup)
    (ho : ordered.Perm (candidates.map PageMetadata.id)) : ((legal candidates ordered).map PageMetadata.id).Nodup := by
  have hmap : (ordered.filterMap (findById candidates)).Perm candidates := by
    have := ho.filterMap (findById candidates)
    rwa [filterMap_find hc (List.Subset.refl _)] at this
  exact ((hmap.map PageMetadata.id).nodup_iff.2 hc).sublist (List.filter_sublist.map _)

/-- `plan_evictions` for any ranking that is a permutation of the candidates' ids: nothing with enough
headroom; else a throw of `Budget` exactly when the legal candidates do not cover the shortfall, and the
shortest plan when they do; the registers never wrap. -/
theorem plan_exact (b : PlannerBudgets) (need hostFree : Nat)
    {candidates : List PageMetadata} (hc : (candidates.map PageMetadata.id).Nodup) {ordered : List PageId}
    (ho : ordered.Perm (candidates.map PageMetadata.id)) :
    b.planOrdered64 need candidates ordered hostFree = b.planOrdered need candidates ordered hostFree ∧
    (need ≤ b.vramLimit - b.vramReserve - b.vramUsed → b.planOrdered need candidates ordered hostFree = .ok []) ∧
    (b.vramLimit - b.vramReserve - b.vramUsed < need →
      ((∃ e, b.planOrdered need candidates ordered hostFree = .error e) ↔
        sizes (candidates.filter PageMetadata.Legal) < need - (b.vramLimit - b.vramReserve - b.vramUsed)) ∧
      (∀ e, b.planOrdered need candidates ordered hostFree = .error e → e.code = .budget) ∧
      ∀ ds, b.planOrdered need candidates ordered hostFree = .ok ds →
        Plan (legal candidates ordered) (need - (b.vramLimit - b.vramReserve - b.vramUsed)) hostFree ds) := by
  have hsizes : sizes (legal candidates ordered) = sizes (candidates.filter PageMetadata.Legal) := by
    have hmap : (ordered.filterMap (findById candidates)).Perm candidates := by
      have := ho.filterMap (findById candidates)
      rwa [filterMap_find hc (List.Subset.refl _)] at this
    exact ((hmap.filter _).map PageMetadata.allocationSize).sum_nat
  rw [← headroom_eq]
  refine ⟨planOrdered64_eq .., fun hn => if_pos hn, fun hn => ⟨?_, fun e he => ?_, fun ds hds => ?_⟩⟩
  · rw [planOrdered_error_iff, hsizes]
    omega
  · rw [planOrdered, if_neg (Nat.not_le.2 hn)] at he
    simp only at he
    split at he <;> cases he
    rfl
  · rw [planOrdered, if_neg (Nat.not_le.2 hn), planLoop_eq_greedy] at hds
    simp only at hds
    split at hds
    · cases hds
    · rename_i hz
      cases hds
      obtain ⟨k, hk, hids, hrest, hmin, -⟩ := greedy_prefix (legal candidates ordered) (need - b.headroom) hostFree
      have hlen : (greedy (legal candidates ordered) (need - b.headroom) hostFree).1.length = k := by
        have := congrArg List.length hids
        simpa [Nat.min_eq_left hk] using this
      have hz : (greedy (legal candidates ordered) (need - b.headroom) hostFree).2 = 0 := by simpa using hz
      refine ⟨by rw [hlen]; exact hids, by rw [hlen]; omega, by rw [hlen]; exact hmin, ?_, fun d hd => ?_, greedy_booked _ _ _⟩
      · rw [hids]
        exact (legal_nodup hc ho).sublist ((List.take_sublist _ _).map _)
      · have hm : d.id ∈ ((legal candidates ordered).take k).map PageMetadata.id := by
          rw [← hids]
          exact List.mem_map_of_mem hd
        obtain ⟨p, hp, hid⟩ := List.mem_map.1 hm
        have hp := List.mem_of_mem_take hp
        exact ⟨p, hp, hid, (mem_legal hp).2⟩

/-- Four pages of two bytes: one dirty, one pinned, one busy. -/
def fourPages : List PageMetadata :=
  [{ id := 4, allocationSize := 2, dirty := true }, { id := 1, allocationSize := 2, pinned := true },
    { id := 2, allocationSize := 2, inFlight := true }, { id := 3, allocationSize := 2 }]

/-- Ten usable bytes, eight of them used, and five needed: of the two legal pages, ranked by id, the host
has room for the first and the second goes to the store. -/
theorem plan_exact_twoVictims :
    ∃ ds, (PlannerBudgets.mk 12 2 8 0 0 0 0).planOrdered 5 fourPages [1, 2, 3, 4] 3 = .ok ds ∧
      ds.map EvictionDecision.target = [.hostPinned, .nvme] ∧ Plan (legal fourPages [1, 2, 3, 4]) 3 3 ds :=
  ⟨_, rfl, by decide, ((plan_exact ⟨12, 2, 8, 0, 0, 0, 0⟩ 5 3 (by decide) (by decide)).2.2 (by decide)).2.2 _ rfl⟩

end PlannerBudgets

end FlashTier
