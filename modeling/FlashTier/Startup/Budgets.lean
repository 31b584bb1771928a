/-
The budgets `start` computes (`runtime.cpp`) from an accepted configuration (`validate_config`, `config.cpp`)
and what it finds of the machine. Whatever that is, a start that goes through keeps within the free memory
and the free disk, and no subtraction on the way goes below zero. With a store geometry the backend accepts,
such a start is one the runtime is modelled for.
-/
import FlashTier.Runtime.State
import FlashTier.Store.Header

namespace FlashTier

open Codec

/-! ## Configuration -/

/-- The fields of `Config` that its validation and the budgets read. A fraction that is not finite is
`none`; the enumerations are their codes. -/
structure StartConfig where
  backend : String := "auto"
  cudaEnabled : Bool := true
  deviceId : Int := 0
  pageSize : UInt64 := 2 * 1024 * 1024
  vramBudgetBytes : UInt64 := 0
  hostBudgetBytes : UInt64 := 0
  nvmeBudgetBytes : UInt64 := 0
  vramReserveMargin : Option ℚ := some (1 / 10)
  policy : Int := 1
  prefetch : Int := 0
  prefetchDepth : UInt32 := 16
  queueDepth : UInt32 := 8
  workerThreads : UInt32 := 0
  iterations : UInt32 := 1
  autoVramFraction : Option ℚ := some (3 / 4)
  autoHostFraction : Option ℚ := some (1 / 4)
  autoNvmeFraction : Option ℚ := some (1 / 4)
  autoNvmeCap : UInt64 := 64 * 1024 * 1024 * 1024

namespace StartConfig

variable (cfg : StartConfig)

/-- A message if the test fails the configuration. -/
def failIf (test : Bool) (message : String) : List String := if test then [message] else []

/-- Not finite, or outside what `inside` admits. -/
def fractionBad (fraction : Option ℚ) (inside : ℚ → Bool) : Bool := !fraction.any inside

/-- The checks of the page size. -/
def pageErrors : List String :=
  if cfg.pageSize = 0 then ["page size must be nonzero"]
  else
    failIf (cfg.pageSize < 4096) "page size must be at least 4096 bytes" ++
    failIf (cfg.pageSize % 4096 ≠ 0) "page size must be a multiple of 4096 bytes" ++
    failIf (cfg.pageSize &&& (cfg.pageSize - 1) ≠ 0) "page size must be a power of two"

/-- `validate_config`: the errors, none when the configuration is accepted. -/
def validate (knownBackends : List String) : List String :=
  let explicit := cfg.backend ≠ "" ∧ cfg.backend ≠ "auto"
  failIf (explicit ∧ cfg.backend ∉ knownBackends) ("unknown device backend '" ++ cfg.backend ++ "'") ++
  failIf (!cfg.cudaEnabled ∧ explicit ∧ cfg.backend ≠ "cpu")
    ("disabled accelerator support conflicts with backend '" ++ cfg.backend ++ "'") ++
  cfg.pageErrors ++
  failIf (cfg.queueDepth = 0 ∨ 1024 < cfg.queueDepth) "queue depth must be in [1, 1024]" ++
  failIf (1024 < cfg.workerThreads) "worker thread count must not exceed 1024" ++
  failIf (cfg.prefetchDepth = 0 ∨ (1 : UInt32) <<< 20 < cfg.prefetchDepth) "prefetch depth must be in [1, 1048576]" ++
  failIf (cfg.iterations = 0 ∨ 1000000 < cfg.iterations) "iterations must be in [1, 1000000]" ++
  failIf (fractionBad cfg.autoVramFraction fun x => 0 < x ∧ x ≤ 1) "auto VRAM fraction must be finite and in (0, 1]" ++
  failIf (fractionBad cfg.autoHostFraction fun x => 0 < x ∧ x ≤ 1 / 2) "auto host fraction must be finite and in (0, 0.5]" ++
  failIf (fractionBad cfg.autoNvmeFraction fun x => 0 < x ∧ x ≤ 1 / 2) "auto NVMe fraction must be finite and in (0, 0.5]" ++
  failIf (fractionBad cfg.vramReserveMargin fun x => 0 ≤ x ∧ x < 1 / 2) "VRAM reserve margin must be finite and in [0, 0.5)" ++
  failIf (cfg.pageSize ≠ 0 ∧ (cfg.autoNvmeCap < cfg.pageSize ∨ cfg.autoNvmeCap % cfg.pageSize ≠ 0))
    "auto NVMe cap must be a nonzero multiple of page size" ++
  failIf (cfg.policy ≠ 0 ∧ cfg.policy ≠ 1) "invalid policy kind" ++
  failIf (cfg.prefetch ≠ 0 ∧ cfg.prefetch ≠ 1 ∧ cfg.prefetch ≠ 2) "invalid prefetch kind" ++
  failIf (cfg.deviceId < 0) "device id must be nonnegative"

end StartConfig

/-! ## Budgets -/

/-- What `start` finds of the selected accelerator. -/
structure DeviceProbe where
  freeMemory : UInt64
  memoryShared : Bool

/-- What `start` finds of the machine. The products of a fraction and a free amount, computed with doubles,
may have any value; there is no device in CPU-only mode. -/
structure MachineProbe where
  device : Option DeviceProbe
  freeRam : UInt64
  diskFree : UInt64
  vramShare : UInt64
  hostShare : UInt64
  nvmeShare : UInt64
  osReserve : UInt64

/-- The effective limits in bytes, and what is added to the reason of the backend's selection. -/
structure StartLimits where
  vram : UInt64
  host : UInt64
  nvme : UInt64
  note : String := ""
  deriving DecidableEq

/-- Code that may throw an `Error`, with arithmetic that traps. -/
abbrev Start (α : Type) : Type := Guarded Error α

/-- `round_down`. -/
def roundDown (v pageSize : UInt64) : Except Trap UInt64 := do
  let rest ← checkedMod v pageSize
  checkedSub v rest

namespace StartConfig

variable (cfg : StartConfig) (probe : MachineProbe)

/-- The explicit budget, or the share of what is free, in whole pages. -/
def budgetOf (explicit share : UInt64) : Start UInt64 :=
  liftM (roundDown (if explicit ≠ 0 then explicit else share) cfg.pageSize)

/-- The device limit before the host's is known. -/
def deviceLimit : Start UInt64 :=
  match probe.device with
  | none => pure 0
  | some device =>
    if device.freeMemory = 0 then throw ⟨.unsupported, "cannot determine free device memory; refusing to guess budgets", ""⟩
    else do
      let limit ← cfg.budgetOf cfg.vramBudgetBytes probe.vramShare
      if device.freeMemory < limit then
        throw ⟨.budget, "device-memory budget exceeds currently free device memory",
          "budget " ++ toString limit ++ " free " ++ toString device.freeMemory⟩
      else pure limit

def hostLimit : Start UInt64 := do
  let limit ← cfg.budgetOf cfg.hostBudgetBytes probe.hostShare
  if limit = 0 then throw ⟨.budget, "effective host budget is zero", ""⟩
  else if probe.freeRam = 0 ∨ probe.freeRam < limit then
    throw ⟨.budget, "host budget exceeds detected free system memory",
      "budget " ++ toString limit ++ " free " ++ toString probe.freeRam⟩
  else pure limit

/-- What the system leaves of the memory after the host's. -/
def ramRoom (afterHost : UInt64) : Except Trap UInt64 :=
  if probe.osReserve < afterHost then checkedSub afterHost probe.osReserve else .ok 0

/-- The device limit of an accelerator that shares the host's memory: what the host and the system leave. -/
def clampShared (vram host : UInt64) : Except Trap UInt64 := do
  let afterHost ← checkedSub probe.freeRam host
  let room ← ramRoom probe afterHost
  let rounded ← roundDown room cfg.pageSize
  pure (min vram rounded)

def sharesMemory : Bool := probe.device.any (·.memoryShared)

/-- The device limit once the host's is known. -/
def sharedLimit (vram host : UInt64) : Start UInt64 :=
  if sharesMemory probe ∧ vram ≠ 0 then liftM (cfg.clampShared probe vram host) else pure vram

def noHeadroom : String :=
  "; integrated GPU: no RAM headroom for a device tier, device tier disabled (host+NVMe)"

/-- The store's limit before it is compared with the disk; a share of the disk is capped. -/
def nvmeBudget : Except Trap UInt64 :=
  if cfg.nvmeBudgetBytes ≠ 0 then roundDown cfg.nvmeBudgetBytes cfg.pageSize
  else do
    let share ← roundDown probe.nvmeShare cfg.pageSize
    pure (min share cfg.autoNvmeCap)

def nvmeLimit : Start UInt64 := do
  let limit ← liftM (cfg.nvmeBudget probe)
  if limit = 0 then throw ⟨.budget, "effective NVMe budget is zero", ""⟩
  else do
    let largest ← liftM (checkedSub uint64Max cfg.pageSize)
    if largest < limit ∨ probe.diskFree = 0 ∨ probe.diskFree < limit + cfg.pageSize then
      throw ⟨.budget, "NVMe budget plus store header exceeds detected free disk space",
        "payload " ++ toString limit ++ " header " ++ toString cfg.pageSize ++ " free " ++ toString probe.diskFree⟩
    else pure limit

/-- The budget computation of `start`. -/
def startBudgets : Start StartLimits := do
  let vram ← cfg.deviceLimit probe
  let host ← cfg.hostLimit probe
  let clamped ← cfg.sharedLimit probe vram host
  let nvme ← cfg.nvmeLimit probe
  pure { vram := clamped, host := host, nvme := nvme,
         note := if sharesMemory probe ∧ vram ≠ 0 ∧ clamped = 0 then noHeadroom else "" }

end StartConfig

/-! ## Each limit -/

/-- Whole pages. -/
def WholePages (pageSize v : UInt64) : Prop := pageSize.toNat ∣ v.toNat

theorem roundDown_ok {v pageSize : UInt64} (hp : pageSize ≠ 0) : ∃ r, roundDown v pageSize = .ok r ∧ r ≤ v ∧ WholePages pageSize r := by
  have hle : v % pageSize ≤ v := by
    rw [UInt64.le_iff_toNat_le, UInt64.toNat_mod]
    exact Nat.mod_le _ _
  refine ⟨v - v % pageSize, ?_, ?_, ?_⟩
  · rw [roundDown, checkedMod_of_ne hp]
    exact checkedSub_of_le hle
  · rw [UInt64.le_iff_toNat_le, UInt64.toNat_sub_of_le _ _ hle]
    exact Nat.sub_le _ _
  · rw [WholePages, UInt64.toNat_sub_of_le _ _ hle, UInt64.toNat_mod]
    exact Nat.dvd_sub_mod _

theorem min_spec (a b : UInt64) : (min a b = a ∨ min a b = b) ∧ min a b ≤ a ∧ min a b ≤ b := by
  show ((if a ≤ b then a else b) = a ∨ (if a ≤ b then a else b) = b) ∧ (if a ≤ b then a else b) ≤ a ∧ (if a ≤ b then a else b) ≤ b
  split
  · exact ⟨.inl rfl, UInt64.le_refl _, ‹_›⟩
  · exact ⟨.inr rfl, UInt64.le_of_lt (UInt64.not_le.1 ‹_›), UInt64.le_refl _⟩

theorem wholePages_min {pageSize a b : UInt64} (ha : WholePages pageSize a) (hb : WholePages pageSize b) : WholePages pageSize (min a b) := by
  rcases (min_spec a b).1 with h | h
  · rwa [h]
  · rwa [h]

namespace StartConfig

variable {cfg : StartConfig} {probe : MachineProbe}

/-- What acceptance says of the page size, the cap and the queue. -/
structure Sized (cfg : StartConfig) : Prop where
  page : 4096 ≤ cfg.pageSize.toNat
  cap : WholePages cfg.pageSize cfg.autoNvmeCap
  queue : 1 ≤ cfg.queueDepth.toNat

theorem Sized.ne_zero (h : cfg.Sized) : cfg.pageSize ≠ 0 := by
  intro h0
  have := h.page
  rw [h0] at this
  exact absurd this (by decide)

theorem failIf_eq_nil {test : Bool} {message : String} (h : failIf test message = []) : test = false := by
  cases test with
  | false => rfl
  | true => cases h

/-- An accepted configuration has pages of at least 4096 bytes, a cap in whole pages and a queue. -/
theorem sized_of_validate {knownBackends : List String} (h : cfg.validate knownBackends = []) : cfg.Sized := by
  simp only [validate, List.append_eq_nil_iff] at h
  have hpage : cfg.pageErrors = [] := by tauto
  have hnil : failIf (cfg.pageSize ≠ 0 ∧ (cfg.autoNvmeCap < cfg.pageSize ∨ cfg.autoNvmeCap % cfg.pageSize ≠ 0))
      "auto NVMe cap must be a nonzero multiple of page size" = [] := by tauto
  have hqueue : failIf (cfg.queueDepth = 0 ∨ 1024 < cfg.queueDepth) "queue depth must be in [1, 1024]" = [] := by tauto
  have hcap := failIf_eq_nil hnil
  unfold pageErrors at hpage
  split at hpage
  · cases hpage
  rename_i h0
  simp only [List.append_eq_nil_iff] at hpage
  have hmin := failIf_eq_nil hpage.1.1
  have hmod := of_decide_eq_false hcap
  push Not at hmod
  refine ⟨?_, ?_, ?_⟩
  · exact UInt64.le_iff_toNat_le.1 (UInt64.not_lt.1 (of_decide_eq_false hmin))
  · have hzero := congrArg UInt64.toNat (hmod h0).2
    rw [UInt64.toNat_mod] at hzero
    exact Nat.dvd_of_mod_eq_zero hzero
  · have hdepth := of_decide_eq_false (failIf_eq_nil hqueue)
    rw [not_or] at hdepth
    exact Nat.pos_of_ne_zero fun h => hdepth.1 (UInt32.toNat.inj h)

theorem budgetOf_ends (h : cfg.Sized) (explicit share : UInt64) : (cfg.budgetOf explicit share).Ends (WholePages cfg.pageSize) := by
  obtain ⟨r, hr, -, hpages⟩ := roundDown_ok (v := if explicit ≠ 0 then explicit else share) h.ne_zero
  exact Guarded.ends_lift hr hpages

/-- The device limit fits the device, and is zero without one. -/
def DeviceFits (cfg : StartConfig) (probe : MachineProbe) (vram : UInt64) : Prop :=
  WholePages cfg.pageSize vram ∧ (∀ d, probe.device = some d → vram ≤ d.freeMemory) ∧ (probe.device = none → vram = 0)

theorem deviceLimit_ends (h : cfg.Sized) : (cfg.deviceLimit probe).Ends (cfg.DeviceFits probe) := by
  unfold deviceLimit
  rcases hd : probe.device with _ | device
  · exact Guarded.ends_pure ⟨Nat.dvd_zero _, fun d hd' => (by cases hd.symm.trans hd'), fun _ => rfl⟩
  · refine .ite (fun _ => Guarded.ends_throw _) fun _ => (budgetOf_ends h _ _).bind fun limit hl => ?_
    refine .ite (fun _ => Guarded.ends_throw _) fun hfree => Guarded.ends_pure ⟨hl, fun d hd' => ?_, fun hn => ?_⟩
    · cases hd.symm.trans hd'
      exact UInt64.not_lt.1 hfree
    · cases hd.symm.trans hn

theorem hostLimit_ends (h : cfg.Sized) :
    (cfg.hostLimit probe).Ends fun host => WholePages cfg.pageSize host ∧ host ≠ 0 ∧ host ≤ probe.freeRam := by
  refine (budgetOf_ends h _ _).bind fun limit hl => .ite (fun _ => Guarded.ends_throw _) fun h0 => ?_
  refine .ite (fun _ => Guarded.ends_throw _) fun hfree => Guarded.ends_pure ⟨hl, h0, ?_⟩
  rw [not_or] at hfree
  exact UInt64.not_lt.1 hfree.2

theorem ramRoom_ok {host : UInt64} (hh : host ≤ probe.freeRam) : ∃ room, ramRoom probe (probe.freeRam - host) = .ok room ∧
    (room ≠ 0 → room.toNat + host.toNat + probe.osReserve.toNat ≤ probe.freeRam.toNat) := by
  have hafter : (probe.freeRam - host).toNat = probe.freeRam.toNat - host.toNat := UInt64.toNat_sub_of_le _ _ hh
  unfold ramRoom
  split
  · rename_i hlt
    refine ⟨_, checkedSub_of_le (UInt64.le_of_lt hlt), fun _ => ?_⟩
    rw [UInt64.toNat_sub_of_le _ _ (UInt64.le_of_lt hlt), hafter]
    rw [UInt64.lt_iff_toNat_lt, hafter] at hlt
    omega
  · exact ⟨0, rfl, fun h0 => absurd rfl h0⟩

/-- A clamped device limit leaves the host and the system what is theirs. -/
theorem clampShared_ok (h : cfg.Sized) {vram host : UInt64} (hv : WholePages cfg.pageSize vram) (hh : host ≤ probe.freeRam) :
    ∃ r, cfg.clampShared probe vram host = .ok r ∧ WholePages cfg.pageSize r ∧ r ≤ vram ∧
      (r ≠ 0 → r.toNat + host.toNat + probe.osReserve.toNat ≤ probe.freeRam.toNat) := by
  obtain ⟨room, hroom, hle⟩ := ramRoom_ok hh
  obtain ⟨rounded, hr, hrle, hpages⟩ := roundDown_ok (v := room) h.ne_zero
  obtain ⟨-, hleft, hright⟩ := min_spec vram rounded
  refine ⟨min vram rounded, ?_, wholePages_min hv hpages, hleft, fun hne => ?_⟩
  · unfold clampShared
    rw [checkedSub_of_le hh]
    show (do let room ← ramRoom probe (probe.freeRam - host); _) = _
    rw [hroom]
    show (do let rounded ← roundDown room cfg.pageSize; pure (min vram rounded)) = _
    rw [hr]
    rfl
  · rw [UInt64.le_iff_toNat_le] at hright hrle
    have hpos : (min vram rounded).toNat ≠ 0 := fun h0 => hne (UInt64.toNat.inj h0)
    have hroom0 : room ≠ 0 := by
      rintro rfl
      exact hpos (Nat.le_zero.1 (hright.trans hrle))
    have := hle hroom0
    omega

theorem nvmeBudget_ok (probe : MachineProbe) (h : cfg.Sized) : ∃ r, cfg.nvmeBudget probe = .ok r ∧ WholePages cfg.pageSize r := by
  unfold nvmeBudget
  split
  · obtain ⟨r, hr, -, hpages⟩ := roundDown_ok (v := cfg.nvmeBudgetBytes) h.ne_zero
    exact ⟨r, hr, hpages⟩
  · obtain ⟨r, hr, -, hpages⟩ := roundDown_ok (v := probe.nvmeShare) h.ne_zero
    rw [hr]
    exact ⟨_, rfl, wholePages_min hpages h.cap⟩

theorem nvmeLimit_ends (h : cfg.Sized) : (cfg.nvmeLimit probe).Ends fun nvme =>
    WholePages cfg.pageSize nvme ∧ nvme ≠ 0 ∧ nvme.toNat + cfg.pageSize.toNat ≤ probe.diskFree.toNat := by
  obtain ⟨limit, hlimit, hl⟩ := nvmeBudget_ok probe h
  refine (Guarded.ends_lift hlimit hl).bind fun limit hl => ?_
  refine .ite (fun _ => Guarded.ends_throw _) fun h0 => ?_
  refine (Guarded.ends_lift (Q := (· = uint64Max - cfg.pageSize)) (checkedSub_of_le (le_uint64Max _)) rfl).bind fun largest hlargest => ?_
  subst hlargest
  refine .ite (fun _ => Guarded.ends_throw _) fun hfits => Guarded.ends_pure ⟨hl, h0, ?_⟩
  rw [not_or, not_or, UInt64.not_lt, UInt64.not_lt, UInt64.le_iff_toNat_le, UInt64.le_iff_toNat_le,
    UInt64.toNat_sub_of_le _ _ (le_uint64Max _), UInt64.toNat_add] at hfits
  -- the sum does not wrap, by the first test
  have hmax := toNat_uint64Max
  have hpage := cfg.pageSize.toNat_lt
  rw [hmax] at hfits
  have hsum : limit.toNat + cfg.pageSize.toNat < 2 ^ 64 := by omega
  rw [Nat.mod_eq_of_lt hsum] at hfits
  exact hfits.2.2

/-! ## Start -/

/-- The limits are within what the machine has. -/
structure Safe (cfg : StartConfig) (probe : MachineProbe) (limits : StartLimits) : Prop where
  vramPages : WholePages cfg.pageSize limits.vram
  hostPages : WholePages cfg.pageSize limits.host
  nvmePages : WholePages cfg.pageSize limits.nvme
  host_ne : limits.host ≠ 0
  nvme_ne : limits.nvme ≠ 0
  host_le : limits.host ≤ probe.freeRam
  vram_le : ∀ d, probe.device = some d → limits.vram ≤ d.freeMemory
  vram_none : probe.device = none → limits.vram = 0
  disk : limits.nvme.toNat + cfg.pageSize.toNat ≤ probe.diskFree.toNat
  shared : ∀ d, probe.device = some d → d.memoryShared = true → limits.vram ≠ 0 →
    limits.vram.toNat + limits.host.toNat + probe.osReserve.toNat ≤ probe.freeRam.toNat

theorem startBudgets_ends (probe : MachineProbe) (h : cfg.Sized) : (cfg.startBudgets probe).Ends (cfg.Safe probe) := by
  refine (deviceLimit_ends h).bind fun vram hv => (hostLimit_ends h).bind fun host hh => ?_
  obtain ⟨hvPages, hvLe, hvNone⟩ := hv
  have hclamp : (cfg.sharedLimit probe vram host).Ends fun r => WholePages cfg.pageSize r ∧ r ≤ vram ∧ ∀ d, probe.device = some d → d.memoryShared = true → r ≠ 0 →
        r.toNat + host.toNat + probe.osReserve.toNat ≤ probe.freeRam.toNat := by
    refine .ite (fun _ => ?_) fun hno => ?_
    · obtain ⟨r, hr, hpages, hle, hsum⟩ := clampShared_ok h hvPages hh.2.2
      exact Guarded.ends_lift hr ⟨hpages, hle, fun _ _ _ hne => hsum hne⟩
    · refine Guarded.ends_pure ⟨hvPages, UInt64.le_refl _, fun d hd hs hne => absurd ⟨?_, hne⟩ hno⟩
      rw [sharesMemory, hd]
      exact hs
  refine hclamp.bind fun clamped hc => (nvmeLimit_ends h).bind fun nvme hn => Guarded.ends_pure ?_
  exact { vramPages := hc.1, hostPages := hh.1, nvmePages := hn.1, host_ne := hh.2.1, nvme_ne := hn.2.1, host_le := hh.2.2
          vram_le := fun d hd => UInt64.le_trans hc.2.1 (hvLe d hd)
          vram_none := fun hd => by
            have hle := UInt64.le_iff_toNat_le.1 hc.2.1
            rw [hvNone hd] at hle
            exact UInt64.toNat.inj (Nat.le_zero.1 hle)
          disk := hn.2.2, shared := hc.2.2 }

/-- For every accepted configuration and every machine, no arithmetic of the budget computation wraps or
divides by zero on any path, and limits it returns are safe. -/
theorem start_budgets_safe (knownBackends : List String) (h : cfg.validate knownBackends = []) (probe : MachineProbe) :
    (∃ r, (cfg.startBudgets probe).run = .ok r) ∧
    ∀ limits, (cfg.startBudgets probe).run = .ok (.ok limits) → cfg.Safe probe limits := by
  have hends := startBudgets_ends probe (sized_of_validate h)
  exact ⟨hends.no_trap, fun limits hl => hends.of_ok hl⟩

/-- An accelerator that shares the host's memory: its limit is what the host and the system leave, in whole pages. -/
theorem start_budgets_safe_shared : ({} : StartConfig).validate [] = [] ∧
    ∃ limits, ({} : StartConfig).Safe ⟨some ⟨0x180000000, true⟩, 0x200000000, 0x1000000000, 0x120000000, 0x80000000, 0x400000000, 0x80000001⟩ limits ∧
      limits.vram = 0xFFE00000 ∧ limits.host = 0x80000000 ∧ limits.nvme = 0x400000000 := by
  have hv : ({} : StartConfig).validate [] = [] := by decide +kernel
  have hrun : (({} : StartConfig).startBudgets
        ⟨some ⟨0x180000000, true⟩, 0x200000000, 0x1000000000, 0x120000000, 0x80000000, 0x400000000, 0x80000001⟩).run =
      .ok (.ok { vram := 0xFFE00000, host := 0x80000000, nvme := 0x400000000 }) := by decide +kernel
  exact ⟨hv, _, (start_budgets_safe [] hv _).2 _ hrun, rfl, rfl, rfl⟩

/-! ## The runtime -/

/-- The runtime `start` goes on with, once the backend has accepted the store's geometry. -/
def runtimeConfig (cfg : StartConfig) {probe : MachineProbe} {limits : StartLimits} (hs : cfg.Sized) (h : cfg.Safe probe limits)
    {path : String} {map : Extents} (hopen : Extents.openMap path limits.nvme.toNat cfg.pageSize.toNat = .ok map)
    (vramReserve : Nat) (hreserve : vramReserve ≤ limits.vram.toNat) (usePageableFallback pinnedAvailable : Bool)
    (backendName : String) (policy : Policy) (seed : UInt64) (firstId : Nat) (hfirst : 1 ≤ firstId ∧ firstId < 2 ^ 64) : RuntimeConfig where
  pageSize := cfg.pageSize.toNat
  vramLimit := limits.vram.toNat
  vramReserve := vramReserve
  hostLimit := limits.host.toNat
  extentCount := limits.nvme.toNat / cfg.pageSize.toNat
  queueDepth := cfg.queueDepth.toNat
  prefetchDepth := cfg.prefetchDepth.toNat
  usePageableFallback := usePageableFallback
  device := probe.device.isSome
  backendName := backendName
  pinnedAvailable := pinnedAvailable
  policy := policy
  seed := seed
  firstId := firstId
  page_min := hs.page
  reserve_le := hreserve
  vram_lt := limits.vram.toNat_lt
  host_lt := limits.host.toNat_lt
  store_lt := by
    obtain ⟨rfl, hok, -⟩ := Extents.openMap_ok hopen
    exact hok.small
  queue_pos := hs.queue
  cpu_only := by
    intro hd
    rw [h.vram_none (Option.isNone_iff_eq_none.1 (by rw [← Option.not_isSome, hd]; rfl))]
    rfl
  first_ok := hfirst

/-- The runtime's store budget is the limit that was computed. -/
theorem nvmeLimit_runtimeConfig {probe : MachineProbe} {limits : StartLimits} (hs : cfg.Sized) (h : cfg.Safe probe limits)
    {path : String} {map : Extents} (hopen : Extents.openMap path limits.nvme.toNat cfg.pageSize.toNat = .ok map)
    (vramReserve : Nat) (hreserve : vramReserve ≤ limits.vram.toNat) (fallback pinned : Bool) (name : String) (policy : Policy)
    (seed : UInt64) (firstId : Nat) (hfirst : 1 ≤ firstId ∧ firstId < 2 ^ 64) :
    (cfg.runtimeConfig hs h hopen vramReserve hreserve fallback pinned name policy seed firstId hfirst).nvmeLimit = limits.nvme.toNat :=
  Nat.div_mul_cancel h.nvmePages

end StartConfig

end FlashTier
