/-
Pages: tiers, errors, the page state machine and the metadata of one page
(`tier.hpp`, `error.hpp`, `page.hpp`, `page.cpp`).
-/
import Mathlib.Tactic.Basic

namespace FlashTier

/-! ## Errors -/

/-- `ErrorCode`. -/
inductive ErrorCode where
  | none | config | invalidArgument | notFound | state | invariant | budget | cuda | io | storeCorrupt
  | unsupported | cancelled | integrity | internal | device
  deriving DecidableEq, Repr

/-- A thrown `Error`: its code, message and detail. -/
structure Error where
  code : ErrorCode
  what : String
  detail : String := ""
  deriving DecidableEq, Repr

/-! ## Tiers and states -/

/-- `Tier`: the memory tiers the runtime governs. -/
inductive Tier where
  | none | vram | hostPinned | nvme | hostPageable
  deriving DecidableEq, Repr

/-- `tier_name`. -/
def tierName : Tier → String
  | .none => "none"
  | .vram => "vram"
  | .hostPinned => "host_pinned"
  | .nvme => "nvme"
  | .hostPageable => "host_pageable"

/-- `PageState`: resident states name the authoritative copy, the four transfer states a movement. -/
inductive PageState where
  | unallocated | residentNvme | loadingToHost | residentHost | loadingToVram | residentVram
  | evictingToHost | evictingToNvme | error | released
  deriving DecidableEq, Repr

/-- `page_state_name`. -/
def pageStateName : PageState → String
  | .unallocated => "unallocated"
  | .residentNvme => "resident_nvme"
  | .loadingToHost => "loading_to_host"
  | .residentHost => "resident_host"
  | .loadingToVram => "loading_to_vram"
  | .residentVram => "resident_vram"
  | .evictingToHost => "evicting_to_host"
  | .evictingToNvme => "evicting_to_nvme"
  | .error => "error"
  | .released => "released"

/-- `transition_allowed`: the documented state machine. -/
def transitionAllowed : PageState → PageState → Bool
  | .unallocated, dst => dst == .loadingToVram || dst == .residentHost || dst == .residentNvme ||
      dst == .residentVram || dst == .released
  | .loadingToVram, dst => dst == .residentVram || dst == .error
  | .loadingToHost, dst => dst == .residentHost || dst == .error
  -- `residentNvme` from `residentVram` is the clean drop of a page whose NVMe copy is valid
  | .residentVram, dst => dst == .evictingToHost || dst == .residentNvme || dst == .error || dst == .released
  | .residentHost, dst => dst == .loadingToVram || dst == .evictingToNvme || dst == .error || dst == .released
  | .residentNvme, dst => dst == .loadingToHost || dst == .error || dst == .released
  | .evictingToHost, dst => dst == .residentHost || dst == .error
  | .evictingToNvme, dst => dst == .residentNvme || dst == .error
  | .error, dst => dst == .released
  | .released, _ => false

/-- The four states of a movement in progress. -/
def PageState.transfer : PageState → Bool
  | .loadingToHost | .loadingToVram | .evictingToHost | .evictingToNvme => true
  | _ => false

/-- `SemanticClass`: the role of a region; it biases the predictive policy only. -/
inductive SemanticClass where
  | generic | weight | kvCache | moeExpert | activation | scratch
  deriving DecidableEq, Repr

/-! ## Metadata -/

/-- A page id (`PageId::value`). -/
abbrev PageId := Nat

/-- A non-null host or device address; a `void*` field is an `Option Ptr`. -/
abbrev Ptr := Nat

/-- `PageMetadata`. `kInvalidOffset` is `none`. -/
structure PageMetadata where
  id : PageId
  logicalSize : Nat := 0
  allocationSize : Nat := 0
  nvmeOffset : Option Nat := none
  state : PageState := .unallocated
  currentTier : Tier := .none
  dirty : Bool := false
  pinned : Bool := false
  inFlight : Bool := false
  hasNvmeCopy : Bool := false
  lastAccessSequence : Nat := 0
  accessCount : Nat := 0
  promotionCount : Nat := 0
  demotionCount : Nat := 0
  checksum : UInt64 := 0
  semanticClass : SemanticClass := .generic
  executionOrderHint : Int := -1
  reuseDistanceEstimate : Int := -1
  hostPtr : Option Ptr := none
  vramPtr : Option Ptr := none
  deriving DecidableEq, Repr

namespace PageMetadata

/-- The tier a page is in after a transition; transfer states keep the source tier. -/
def tierAfter (dst : PageState) (tier : Tier) : Tier :=
  match dst with
  | .residentVram => .vram
  | .residentHost => .hostPinned
  | .residentNvme => .nvme
  | .unallocated => .none
  | .released => .none
  | _ => tier

/-- The page after a transition that is allowed. -/
def enter (p : PageMetadata) (dst : PageState) : PageMetadata :=
  { p with state := dst, currentTier := tierAfter dst p.currentTier }

/-- Dropping the device copy needs a valid clean copy in the store. -/
def dropUnsafe (p : PageMetadata) (dst : PageState) : Bool :=
  p.state == .residentVram && dst == .residentNvme && (p.dirty || !p.hasNvmeCopy || p.nvmeOffset.isNone)

def illegalTransition (p : PageMetadata) (dst : PageState) : Error :=
  ⟨.state, "illegal page state transition " ++ pageStateName p.state ++ " -> " ++ pageStateName dst,
    "page " ++ toString p.id⟩

def cleanCopyMissing (p : PageMetadata) : Error :=
  ⟨.invariant, "cannot drop device-resident page without a valid clean NVMe copy", "page " ++ toString p.id⟩

/-- `PageMetadata::transition`. -/
def transition (p : PageMetadata) (dst : PageState) : Except Error PageMetadata :=
  if !transitionAllowed p.state dst then .error (p.illegalTransition dst)
  else if p.dropUnsafe dst then .error p.cleanCopyMissing
  else .ok (p.enter dst)

theorem transition_ok {p : PageMetadata} {dst : PageState} (h : transitionAllowed p.state dst = true)
    (hd : p.dropUnsafe dst = false) : p.transition dst = .ok (p.enter dst) := by
  simp [transition, h, hd]

end PageMetadata

end FlashTier
