/-
Placement: the order in which a policy offers victims (`policy.cpp`) and the planner's decisions
(`planner.cpp`).
-/
import FlashTier.Conc.Keyed
import FlashTier.Runtime.Page
import Mathlib.Data.List.Sort
import Mathlib.Tactic

namespace FlashTier

/-! ## Policies -/

/-- `Policy`. The predictive policy ranks by a floating-point temperature score; only the order of
the scores matters, so they are integers here. -/
inductive Policy where
  | lru
  | predictive (score : PageMetadata → Int)

namespace Policy

/-- The score a policy ranks by, lowest first. -/
def rank : Policy → PageMetadata → Int
  | .lru, p => p.lastAccessSequence
  | .predictive score, p => score p

/-- The comparison of `rank_victims`: by score, then by id. -/
def Before (pol : Policy) (a b : PageMetadata) : Prop :=
  pol.rank a < pol.rank b ∨ (pol.rank a = pol.rank b ∧ a.id ≤ b.id)

instance (pol : Policy) : DecidableRel pol.Before := fun a b => by unfold Before; infer_instance

/-- `rank_victims`. -/
def rankVictims (pol : Policy) (candidates : List PageMetadata) : List PageId :=
  (candidates.insertionSort pol.Before).map PageMetadata.id

theorem mem_rankVictims {pol : Policy} {candidates : List PageMetadata} {id : PageId} :
    id ∈ pol.rankVictims candidates ↔ ∃ p ∈ candidates, p.id = id := by
  simp [rankVictims, List.mem_insertionSort]

end Policy

/-! ## Planner -/

/-- `Planner::Budgets`. -/
structure PlannerBudgets where
  vramLimit : Nat := 0
  vramReserve : Nat := 0
  vramUsed : Nat := 0
  hostLimit : Nat := 0
  hostUsed : Nat := 0
  nvmeLimit : Nat := 0
  nvmeUsed : Nat := 0
  deriving DecidableEq, Repr

/-- `Planner::EvictionDecision`. -/
structure EvictionDecision where
  id : PageId
  target : Tier
  reason : String
  deriving DecidableEq, Repr

namespace PlannerBudgets

/-- `vram_has_headroom`. -/
def vramHasHeadroom (b : PlannerBudgets) (needBytes : Nat) : Bool :=
  if b.vramLimit < b.vramReserve then false
  else if b.vramLimit - b.vramReserve < b.vramUsed then false
  else needBytes ≤ b.vramLimit - b.vramReserve - b.vramUsed

/-- Where a victim goes, and the host bytes left after it. -/
def decision (p : PageMetadata) (hostRemaining : Nat) : EvictionDecision × Nat :=
  if hostRemaining < p.allocationSize ∧ p.dirty then (⟨p.id, .nvme, "writeback_to_nvme"⟩, hostRemaining)
  else if hostRemaining < p.allocationSize ∧ p.hasNvmeCopy then (⟨p.id, .nvme, "drop_to_nvme_clean"⟩, hostRemaining)
  else if hostRemaining < p.allocationSize then (⟨p.id, .nvme, "spill_to_nvme"⟩, hostRemaining)
  else (⟨p.id, .hostPinned, "demote_to_host"⟩, hostRemaining - p.allocationSize)

/-- `find_by_id`. -/
def findById (candidates : List PageMetadata) (id : PageId) : Option PageMetadata := candidates.find? fun p => p.id = id

/-- The loop of `plan_evictions`: the decisions, and the bytes still needed after them. -/
def planLoop (candidates : List PageMetadata) : List PageId → Nat → Nat → List EvictionDecision × Nat
  | [], need, _ => ([], need)
  | id :: rest, need, hostRemaining =>
    if need = 0 then ([], need)
    else match findById candidates id with
      | none => planLoop candidates rest need hostRemaining
      | some p =>
        if p.pinned || p.inFlight then planLoop candidates rest need hostRemaining
        else
          let d := decision p hostRemaining
          let r := planLoop candidates rest (need - min need p.allocationSize) d.2
          (d.1 :: r.1, r.2)

def noVictim (need : Nat) : Error :=
  ⟨.budget, "no legal eviction victim exists for requested VRAM headroom",
    "need " ++ toString need ++ " bytes more after exhausting candidates"⟩

/-- The free device bytes, by the planner's budgets. -/
def headroom (b : PlannerBudgets) : Nat :=
  let usable := if b.vramReserve ≤ b.vramLimit then b.vramLimit - b.vramReserve else 0
  if b.vramUsed < usable then usable - b.vramUsed else 0

/-- `plan_evictions`, with the order in which the policy ranks the candidates. -/
def planOrdered (b : PlannerBudgets) (needBytes : Nat) (candidates : List PageMetadata) (ordered : List PageId)
    (hostFreeBytes : Nat) : Except Error (List EvictionDecision) :=
  if needBytes ≤ b.headroom then .ok []
  else
    let r := planLoop candidates ordered (needBytes - b.headroom) hostFreeBytes
    if r.2 ≠ 0 then .error (noVictim r.2) else .ok r.1

/-- `plan_evictions`. -/
def planEvictions (b : PlannerBudgets) (needBytes : Nat) (candidates : List PageMetadata) (policy : Policy)
    (hostFreeBytes : Nat) : Except Error (List EvictionDecision) :=
  b.planOrdered needBytes candidates (policy.rankVictims candidates) hostFreeBytes

def noTier (b : PlannerBudgets) : Error :=
  ⟨.budget, "no tier can host the requested allocation",
    "vram " ++ toString b.vramUsed ++ "/" ++ toString b.vramLimit ++
      " host " ++ toString b.hostUsed ++ "/" ++ toString b.hostLimit ++
      " nvme " ++ toString b.nvmeUsed ++ "/" ++ toString b.nvmeLimit⟩

/-- `choose_allocation_tier`. -/
def chooseAllocationTier (b : PlannerBudgets) (bytes : Nat) : Except Error Tier :=
  if b.vramHasHeadroom bytes then .ok .vram
  else if bytes ≤ (if b.hostUsed < b.hostLimit then b.hostLimit - b.hostUsed else 0) then .ok .hostPinned
  else if bytes ≤ (if b.nvmeUsed < b.nvmeLimit then b.nvmeLimit - b.nvmeUsed else 0) then .ok .nvme
  else .error b.noTier

end PlannerBudgets

/-! ## The loop without its lookups -/

/-- A page that may be evicted. -/
def PageMetadata.Legal (p : PageMetadata) : Bool := !p.pinned && !p.inFlight

namespace PlannerBudgets

/-- The legal candidates in the order of a ranking. -/
def legal (candidates : List PageMetadata) (ordered : List PageId) : List PageMetadata :=
  (ordered.filterMap (findById candidates)).filter PageMetadata.Legal

/-- The decisions over legal candidates, and the bytes still needed after them. -/
def greedy : List PageMetadata → Nat → Nat → List EvictionDecision × Nat
  | [], need, _ => ([], need)
  | p :: ps, need, hostRemaining =>
    if need = 0 then ([], need)
    else
      let d := decision p hostRemaining
      let r := greedy ps (need - min need p.allocationSize) d.2
      (d.1 :: r.1, r.2)

theorem greedy_zero (ps : List PageMetadata) (hostRemaining : Nat) : greedy ps 0 hostRemaining = ([], 0) := by
  cases ps with
  | nil => rfl
  | cons p ps => exact if_pos rfl

theorem planLoop_eq_greedy (candidates : List PageMetadata) : ∀ (ordered : List PageId) (need hostRemaining : Nat),
    planLoop candidates ordered need hostRemaining = greedy (legal candidates ordered) need hostRemaining
  | [], need, hostRemaining => rfl
  | id :: rest, need, hostRemaining => by
    unfold planLoop legal
    by_cases hn : need = 0
    · subst hn
      rw [if_pos rfl, greedy_zero]
    · rw [if_neg hn]
      rcases hf : findById candidates id with _ | p
      · rw [List.filterMap_cons_none hf]
        exact planLoop_eq_greedy candidates rest need hostRemaining
      · rw [List.filterMap_cons_some hf]
        by_cases hl : (p.pinned || p.inFlight) = true
        · have hl' : p.Legal = false := by
            unfold PageMetadata.Legal
            rw [← Bool.not_or, hl]
            rfl
          rw [List.filter_cons_of_neg (by simp [hl'])]
          simp only [hl, if_true]
          exact planLoop_eq_greedy candidates rest need hostRemaining
        · have hl' : p.Legal = true := by
            unfold PageMetadata.Legal
            rw [← Bool.not_or, Bool.eq_false_iff.2 hl]
            rfl
          rw [List.filter_cons_of_pos hl', greedy, if_neg hn]
          simp only [hl, Bool.false_eq_true, if_false]
          rw [planLoop_eq_greedy candidates rest]
          rfl

/-- The bytes of pages. -/
def sizes (ps : List PageMetadata) : Nat := (ps.map PageMetadata.allocationSize).sum

theorem sizes_take_le (ps : List PageMetadata) (k : Nat) : sizes (ps.take k) ≤ sizes ps := by
  have h : sizes (ps.take k) + sizes (ps.drop k) = sizes ps := by
    unfold sizes
    rw [← List.sum_append, ← List.map_append, List.take_append_drop]
  omega

/-- The decisions are for the shortest prefix that covers the need, or for all the pages. -/
theorem greedy_prefix : ∀ (ps : List PageMetadata) (need hostRemaining : Nat),
    ∃ k ≤ ps.length, (greedy ps need hostRemaining).1.map EvictionDecision.id = (ps.take k).map PageMetadata.id ∧
      (greedy ps need hostRemaining).2 = need - sizes (ps.take k) ∧ (∀ j < k, sizes (ps.take j) < need) ∧
      ((greedy ps need hostRemaining).2 ≠ 0 → k = ps.length)
  | [], need, _ => ⟨0, le_rfl, rfl, rfl, fun j hj => (Nat.not_lt_zero j hj).elim, fun _ => rfl⟩
  | p :: ps, need, hostRemaining => by
    by_cases hn : need = 0
    · subst hn
      rw [greedy_zero]
      exact ⟨0, Nat.zero_le _, rfl, rfl, fun j hj => (Nat.not_lt_zero j hj).elim, fun h => absurd rfl h⟩
    · obtain ⟨k, hk, hids, hrest, hmin, hall⟩ :=
        greedy_prefix ps (need - min need p.allocationSize) (decision p hostRemaining).2
      have hid : (decision p hostRemaining).1.id = p.id := by
        unfold decision
        split
        · rfl
        split
        · rfl
        split <;> rfl
      have htake : ∀ j, sizes ((p :: ps).take (j + 1)) = p.allocationSize + sizes (ps.take j) := fun j => by
        simp [sizes]
      refine ⟨k + 1, Nat.succ_le_succ hk, ?_, ?_, ?_, ?_⟩
      · rw [greedy, if_neg hn, List.map_cons, List.take_succ_cons, List.map_cons, hid, hids]
      · rw [greedy, if_neg hn, hrest, htake]
        omega
      · rintro (_ | j) hj
        · exact Nat.pos_of_ne_zero hn
        · have := hmin j (by omega)
          rw [htake]
          omega
      · intro hne
        rw [greedy, if_neg hn] at hne
        rw [hall hne, List.length_cons]

/-- The loop comes out short exactly when all the pages together do. -/
theorem greedy_short_iff (ps : List PageMetadata) (need hostRemaining : Nat) :
    (greedy ps need hostRemaining).2 ≠ 0 ↔ sizes ps < need := by
  obtain ⟨k, -, -, hrest, -, hall⟩ := greedy_prefix ps need hostRemaining
  constructor
  · intro hne
    rw [hall hne, List.take_length] at hrest
    omega
  · intro hlt
    have := sizes_take_le ps k
    omega

theorem planOrdered_error_iff {b : PlannerBudgets} {need hostFree : Nat} {candidates : List PageMetadata} {ordered : List PageId} :
    (∃ e, b.planOrdered need candidates ordered hostFree = .error e) ↔ sizes (legal candidates ordered) + b.headroom < need := by
  unfold planOrdered
  by_cases hn : need ≤ b.headroom
  · rw [if_pos hn]
    constructor
    · rintro ⟨e, ⟨⟩⟩
    · intro h
      omega
  · have hiff := greedy_short_iff (legal candidates ordered) (need - b.headroom) hostFree
    rw [if_neg hn, planLoop_eq_greedy]
    simp only
    split
    · rename_i hr
      have := hiff.1 hr
      exact ⟨fun _ => by omega, fun _ => ⟨_, rfl⟩⟩
    · rename_i hr
      constructor
      · rintro ⟨e, ⟨⟩⟩
      · intro h
        exact absurd (hiff.2 (by omega)) hr

end PlannerBudgets

/-! ## When the planner refuses -/

/-- The records the planner is given: of different pages, each free to be taken. -/
structure Candidates (candidates : List PageMetadata) : Prop where
  nodup : (candidates.map PageMetadata.id).Nodup
  free : ∀ p ∈ candidates, p.pinned = false ∧ p.inFlight = false

namespace PlannerBudgets

/-- Looking up the ids of pages of the list gives the pages. -/
theorem filterMap_find {candidates : List PageMetadata} (hc : (candidates.map PageMetadata.id).Nodup) :
    ∀ {ps : List PageMetadata}, ps ⊆ candidates →
      (ps.map PageMetadata.id).filterMap (findById candidates) = ps
  | [], _ => rfl
  | p :: ps, hps => by
    obtain ⟨hp, hps⟩ := List.cons_subset.1 hps
    have hfind : findById candidates p.id = some p := Conc.Keyed.lookup_of_mem (d := ⟨candidates, hc⟩) hp
    rw [List.map_cons, List.filterMap_cons_some hfind, filterMap_find hc hps]

/-- The planner throws only when the free bytes and all the candidates together are too few. -/
theorem headroom_of_refused {b : PlannerBudgets} {need hostFree : Nat} {candidates : List PageMetadata}
    {policy : Policy} {e : Error} (hc : Candidates candidates)
    (h : b.planEvictions need candidates policy hostFree = .error e) :
    b.headroom + (candidates.map PageMetadata.allocationSize).sum < need := by
  -- the ranking is a rearrangement of the candidates
  have hperm := List.perm_insertionSort policy.Before candidates
  have hlegal : legal candidates (policy.rankVictims candidates) = candidates.insertionSort policy.Before := by
    unfold legal Policy.rankVictims
    rw [filterMap_find hc.nodup hperm.subset, List.filter_eq_self]
    intro p hp
    obtain ⟨h1, h2⟩ := hc.free p (hperm.subset hp)
    simp [PageMetadata.Legal, h1, h2]
  have hlt := planOrdered_error_iff.1 ⟨e, h⟩
  rw [hlegal, sizes, (hperm.map PageMetadata.allocationSize).sum_nat] at hlt
  omega

end PlannerBudgets

end FlashTier
