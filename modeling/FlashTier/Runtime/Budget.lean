/-
The byte budget of a tier (`allocator.cpp`). Counters are 64-bit: additions wrap, and `release`
refuses to go below zero.
-/
import Mathlib.Tactic

namespace FlashTier

/-- The value a 64-bit unsigned register holds. -/
@[irreducible] def u64 (n : Nat) : Nat := n % 2 ^ 64

theorem u64_of_lt {n : Nat} (h : n < 2 ^ 64) : u64 n = n := by
  unfold u64
  exact Nat.mod_eq_of_lt h

/-- Subtraction of 64-bit unsigned registers. -/
@[irreducible] def u64Sub (n k : Nat) : Nat := if k ≤ n then n - k else n + 2 ^ 64 - k

theorem u64Sub_of_le {n k : Nat} (hk : k ≤ n) : u64Sub n k = n - k := by
  unfold u64Sub
  exact if_pos hk

/-- `TierBudget`, with its reserve in bytes (`reserve_of(limit, margin)`). -/
structure TierBudget where
  limit : Nat
  reserve : Nat
  used : Nat := 0
  highWater : Nat := 0
  deriving DecidableEq, Repr

namespace TierBudget

/-- The bytes a reservation may use. -/
def usable (b : TierBudget) : Nat := b.limit - b.reserve

/-- `TierBudget::try_reserve`; `none` when the request would breach the reserve. -/
def tryReserve (b : TierBudget) (bytes : Nat) : Option TierBudget :=
  if b.usable < bytes ∨ b.usable - bytes < b.used then none
  else
    let used := u64 (b.used + bytes)
    some { b with used := used, highWater := max b.highWater used }

/-- The error of an over-release. -/
def overRelease (b : TierBudget) (bytes : Nat) : String :=
  "release " ++ toString bytes ++ " used " ++ toString b.used

/-- `TierBudget::release`; `none` is the over-release it throws on. -/
def release (b : TierBudget) (bytes : Nat) : Option TierBudget :=
  if b.used < bytes then none else some { b with used := b.used - bytes }

/-- `TierBudget::headroom`. -/
def headroom (b : TierBudget) : Nat := if b.usable ≤ b.used then 0 else b.usable - b.used

/-- A budget within its limits, in 64 bits. -/
structure Ok (b : TierBudget) : Prop where
  small : b.limit < 2 ^ 64
  used : b.used ≤ b.usable

/-- A successful reservation adds exactly the bytes, without wrapping, and stays within the limit. -/
theorem tryReserve_some {b b' : TierBudget} {bytes : Nat} (hb : b.Ok) (h : b.tryReserve bytes = some b') :
    b'.used = b.used + bytes ∧ b'.limit = b.limit ∧ b'.reserve = b.reserve ∧ b'.Ok := by
  unfold tryReserve at h
  split at h
  · cases h
  · rename_i hn
    push Not at hn
    have hu : b.usable ≤ b.limit := Nat.sub_le _ _
    have hlt : b.used + bytes < 2 ^ 64 := by have := hb.small; omega
    cases h
    refine ⟨u64_of_lt hlt, rfl, rfl, hb.small, ?_⟩
    show u64 (b.used + bytes) ≤ b.limit - b.reserve
    rw [u64_of_lt hlt]
    have : b.usable = b.limit - b.reserve := rfl
    omega

theorem tryReserve_isSome {b : TierBudget} {bytes : Nat} (h : b.used + bytes ≤ b.usable) :
    ∃ b', b.tryReserve bytes = some b' := by
  unfold tryReserve
  rw [if_neg (by omega)]
  exact ⟨_, rfl⟩

/-- Releasing what is in use subtracts exactly the bytes. -/
theorem release_of_le {b : TierBudget} {bytes : Nat} (h : bytes ≤ b.used) :
    b.release bytes = some { b with used := b.used - bytes } := by
  unfold release
  rw [if_neg (by omega)]

theorem Ok.sub {b : TierBudget} (hb : b.Ok) (bytes : Nat) : TierBudget.Ok { b with used := b.used - bytes } :=
  ⟨hb.small, le_trans (Nat.sub_le _ _) hb.used⟩

theorem headroom_eq {b : TierBudget} : b.headroom = b.usable - b.used := by
  unfold headroom
  split <;> omega

end TierBudget

end FlashTier
