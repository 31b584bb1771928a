/-
The lives of a runtime object: starts that fail, runs, teardowns in any number of attempts, and starts again.
A `start` that throws has taken down what it had set up, up to calls that failed; one that returns begins a life
in which the accounts are as exact as in the first, and no life issues a page id of an earlier one.
-/
import FlashTier.Guarantees.Teardown
import FlashTier.Lifecycle.Start

namespace FlashTier

open Conc Codec

variable {scfg : StartConfig} {opts : StoreOptions} {cfg : RuntimeConfig} {c : Runtime} {σ σ₀ : Shared} {t : Nat} {a : StartAnswers}
  {ω : TeardownAnswers} {obj obj' obj₀ : Instance} {α : Type}

/-! ## Parts of `start` -/

/-- Cut short by an exception, with an object that satisfies `P`. -/
def CutShort (P : Instance → Prop) (s : Stop) (obj : Instance) : Prop := (∃ e, s = .thrown e) ∧ P obj

namespace Boot

variable {β : Type} {P : Instance → Prop} {Q : β → Instance → Prop}

theorem meets_ask {r : StartAnswers → Except Error β} (hx : P obj) (h : ∀ x, r a = .ok x → Q x obj) :
    (Boot.ask r).Meets t a obj (CutShort P) Q := by
  have hask : Boot.ask r t a obj = ((r a).mapError .thrown, obj) := rfl
  rcases hr : r a with e | x <;> rw [hr] at hask
  · exact Act.meets_of_error hask ⟨⟨e, rfl⟩, hx⟩
  · exact Act.meets_of_ok hask (h x hr)

theorem meets_call {r : StartAnswers → Option Error} {Q : Unit → Instance → Prop} (hx : P obj) (h : Q () obj) :
    (Boot.call r).Meets t a obj (CutShort P) Q := meets_ask hx fun _ _ => h

theorem meets_compute {p : StartAnswers → Start β} {R : β → Prop} (hp : (p a).Ends R) (hx : P obj)
    (h : ∀ x, (p a).run = .ok (.ok x) → R x → Q x obj) : (Boot.compute p).Meets t a obj (CutShort P) Q := by
  rcases hp with ⟨e, he⟩ | ⟨x, hr, hR⟩
  · have hrun : Boot.compute p t a obj = (.error (.thrown e), obj) := by
      unfold Boot.compute
      rw [he]
      rfl
    exact Act.meets_of_error hrun ⟨⟨e, rfl⟩, hx⟩
  · have hrun : Boot.compute p t a obj = (.ok x, obj) := by
      unfold Boot.compute
      rw [hr]
      rfl
    exact Act.meets_of_ok hrun (h x hr hR)

theorem meets_update {g : StartAnswers → Instance → Except Error Instance} {Q : Unit → Instance → Prop} (hx : P obj)
    (h : ∀ obj', g a obj = .ok obj' → Q () obj') : (Boot.update g).Meets t a obj (CutShort P) Q := by
  rcases hr : g a obj with e | obj'
  · have hrun : Boot.update g t a obj = (.error (.thrown e), obj) := by
      unfold Boot.update
      rw [hr]
    exact Act.meets_of_error hrun ⟨⟨e, rfl⟩, hx⟩
  · have hrun : Boot.update g t a obj = (.ok (), obj') := by
      unfold Boot.update
      rw [hr]
    exact Act.meets_of_ok hrun (h obj' hr)

theorem meets_assign {g : Instance → Instance} {Q : Unit → Instance → Prop} (h : Q () (g obj)) :
    (Boot.assign g).Meets t a obj (CutShort P) Q := Act.meets_of_ok rfl h

theorem ask_bind {r : StartAnswers → Except Error α} {f : α → Boot β} (hx : P obj)
    (h : ∀ x, r a = .ok x → (f x).Meets t a obj (CutShort P) Q) : (Boot.ask r >>= f).Meets t a obj (CutShort P) Q := by
  refine Act.Meets.bind (Q := fun x o => o = obj ∧ r a = .ok x) (meets_ask hx fun _ hr => ⟨rfl, hr⟩) ?_
  rintro x _ ⟨rfl, hr⟩
  exact h x hr

theorem call_bind {r : StartAnswers → Option Error} {f : Unit → Boot β} (hx : P obj) (h : (f ()).Meets t a obj (CutShort P) Q) :
    (Boot.call r >>= f).Meets t a obj (CutShort P) Q := ask_bind hx fun _ _ => h

theorem compute_bind {p : StartAnswers → Start α} {f : α → Boot β} {R : α → Prop} (hp : (p a).Ends R) (hx : P obj)
    (h : ∀ x, (p a).run = .ok (.ok x) → R x → (f x).Meets t a obj (CutShort P) Q) : (Boot.compute p >>= f).Meets t a obj (CutShort P) Q := by
  refine Act.Meets.bind (Q := fun x o => o = obj ∧ (p a).run = .ok (.ok x) ∧ R x) (meets_compute hp hx fun _ hr hR => ⟨rfl, hr, hR⟩) ?_
  rintro x _ ⟨rfl, hr, hR⟩
  exact h x hr hR

theorem update_bind {g : StartAnswers → Instance → Except Error Instance} {f : Unit → Boot β} (hx : P obj)
    (h : ∀ obj', g a obj = .ok obj' → (f ()).Meets t a obj' (CutShort P) Q) : (Boot.update g >>= f).Meets t a obj (CutShort P) Q :=
  Act.Meets.bind (Q := fun _ o => g a obj = .ok o) (meets_update hx fun _ hr => hr) fun _ o ho => h o ho

theorem assign_bind {g : Instance → Instance} {f : Unit → Boot β} (h : (f ()).Meets t a (g obj) (CutShort P) Q) :
    (Boot.assign g >>= f).Meets t a obj (CutShort P) Q := by
  refine Act.Meets.bind (Q := fun _ o => o = g obj) (meets_assign rfl) ?_
  rintro _ _ rfl
  exact h

end Boot

/-! ## An object without pages -/

theorem Bare.bag (h : Bare σ) : σ.table.bag = 0 := by
  rw [Keyed.bag, h.table]
  rfl

/-- With no page in the table, nothing of the configuration matters to the accounts. -/
theorem Bare.owned (h : Bare σ) (cfg : RuntimeConfig) : Owned cfg 0 True σ := by
  have htotal : σ.total cfg = 0 := by
    rw [Shared.total, h.bag]
    rfl
  have hbuf : σ.host.allocations.bag = 0 := by
    rw [Keyed.bag, h.buffers]
    rfl
  have hdev : σ.device.bag = 0 := by
    rw [Keyed.bag, h.blocks]
    rfl
  refine ⟨?_, ?_, ?_, ?_, fun _ => ?_, fun _ => h.io, fun p hp => ?_, ?_, ?_⟩
  · rw [htotal]
    show σ.host.allocations.bag.map _ = _
    rw [hbuf]
    rfl
  · rw [htotal]
    show σ.device.bag.map _ = _
    rw [hdev]
    rfl
  · rw [htotal]
    exact h.extents
  · rw [htotal]
    exact h.nvme
  · rw [htotal]
    exact h.vram
  · rw [h.bag] at hp
    exact absurd hp (Multiset.notMem_zero p)
  · rw [hbuf, h.host]
    rfl
  · rintro ⟨p, hp, -⟩
    rw [h.bag] at hp
    exact absurd hp (Multiset.notMem_zero p)

/-- What holds of the object all along `start`, which began with `obj₀`. -/
structure Incomplete (obj₀ obj : Instance) : Prop where
  bare : Bare obj.shared
  opened : obj.storeOpened = true → obj.nvme = true
  order : obj.device = false → obj.hostDevice = false ∧ obj.deviceStream = false
  next : obj.shared.nextPageId = obj₀.shared.nextPageId

theorem Incomplete.settled (h : Incomplete obj₀ obj) (cfg : RuntimeConfig) (retainStore : Bool) :
    Settled cfg retainStore 0 True obj.shared obj := by
  have hnone : ∀ p ∈ obj.shared.table.bag, False := by
    intro p hp
    rw [h.bare.bag] at hp
    exact Multiset.notMem_zero p hp
  refine ⟨h.bare.owned cfg, .refl _, ⟨fun p hp => (hnone p hp).elim, fun _ _ p hp => (hnone p hp).elim,
    fun _ p hp => (hnone p hp).elim, h.opened⟩, fun _ _ x hx => ?_, h.order, rfl⟩
  rw [Keyed.bag, h.bare.buffers] at hx
  cases hx

/-- Teardown finds no page and leaves none. -/
theorem AfterAttempt.noPage {retainStore : Bool} {lost : Multiset (Ptr × Nat)} {exact : Prop}
    (h : AfterAttempt cfg retainStore lost exact σ₀ obj) (hb : Bare σ₀) : obj.shared.table.items = [] := by
  obtain ⟨evs, -, hh⟩ := h.sheds
  have h0 : σ₀.handles = 0 := by
    rw [Shared.handles, hb.bag]
    rfl
  rw [h0] at hh
  have hnone : obj.shared.handles = 0 := (add_eq_zero.1 hh.symm).1
  refine List.eq_nil_iff_forall_not_mem.2 fun p hp => ?_
  have hp := Keyed.mem_bag.2 hp
  obtain ⟨r, hr⟩ := List.exists_mem_of_ne_nil _ (h.kept p hp)
  have hin : (p.id, r) ∈ obj.shared.handles :=
    Multiset.mem_bind.2 ⟨p, hp, Multiset.mem_coe.2 (List.mem_map.2 ⟨r, hr, rfl⟩)⟩
  rw [hnone] at hin
  exact Multiset.notMem_zero _ hin

/-! ## The device -/

/-- The object with the device, or in CPU-only mode without one. -/
def Instance.withDevice (obj : Instance) (device : Bool) : Instance := { obj with device := device, deviceStream := device }

theorem setUpDevice_meets (hs : scfg.Sized) (h : Incomplete obj₀ obj) (hd : obj.device = false) (cpuOnly : Bool) :
    (setUpDevice scfg cpuOnly).Meets t a obj (CutShort (Incomplete obj₀)) fun vram obj' =>
      obj' = obj.withDevice (!cpuOnly) ∧ (scfg.deviceLimit (a.probe cpuOnly)).run = .ok (.ok vram) ∧ WholePages scfg.pageSize vram := by
  unfold setUpDevice
  cases cpuOnly with
  | true =>
    have hobj : obj.withDevice false = obj := by
      have hstream := (h.order hd).2
      cases obj
      cases hd
      cases hstream
      rfl
    exact Boot.meets_compute (p := fun a => scfg.deviceLimit (a.probe true)) (StartConfig.deviceLimit_ends hs) h fun vram hrun hf => ⟨hobj.symm, hrun, hf.1⟩
  | false =>
    have h₁ : Incomplete obj₀ { obj with device := true } := ⟨h.bare, h.opened, fun hx => Bool.noConfusion hx, h.next⟩
    refine Boot.call_bind h (Boot.assign_bind (Boot.call_bind h₁ (Boot.call_bind h₁ ?_)))
    refine Boot.compute_bind (p := fun a => scfg.deviceLimit (a.probe false)) (StartConfig.deviceLimit_ends hs) h₁ fun vram hrun hf => ?_
    exact Boot.call_bind h₁ (Boot.assign_bind (Act.meets_of_ok rfl ⟨rfl, hrun, hf.1⟩))

/-! ## The budgets -/

theorem exists_ok_of_map {ε β : Type} {f : α → β} {x : Except ε α} {b : β} (h : f <$> x = .ok b) : ∃ r, x = .ok r ∧ f r = b := by
  rcases x with e | r
  · cases h
  · exact ⟨r, rfl, Except.ok.inj h⟩

theorem TierBudget.setLimit_ok {b b' : TierBudget} {limit reserve : Nat} {margin : Option ℚ} (h : b.setLimit limit reserve margin = .ok b') :
    b' = { b with limit := limit, reserve := reserve } := by
  unfold TierBudget.setLimit at h
  split at h
  · cases h
  split at h
  · cases h
  · exact (Except.ok.inj h).symm

theorem HostBackend.setBudget_ok {b b' : HostBackend} {limit : Nat} (h : b.setBudget limit = .ok b') : b' = { b with limit := limit } := by
  unfold HostBackend.setBudget at h
  split at h
  · cases h
  · exact (Except.ok.inj h).symm

theorem Instance.attach_ok {capabilities : Except Error Bool} (h : obj.attach capabilities = .ok obj') :
    ∃ pinned, obj' = { obj.setHost { obj.shared.host with pinnedAvailable := pinned } with hostDevice := obj.device } := by
  unfold Instance.attach at h
  rcases hp : obj.pinnedSupport capabilities with e | pinned
  · rw [hp] at h
    cases h
  rw [hp, ok_bind] at h
  split at h
  · cases h
  · exact ⟨pinned, (Except.ok.inj h).symm⟩

theorem StartConfig.sharedLimit_ends {probe : MachineProbe} {vram host : UInt64} (hs : scfg.Sized) (hv : WholePages scfg.pageSize vram)
    (hh : host ≤ probe.freeRam) : (scfg.sharedLimit probe vram host).Ends fun _ => True := by
  refine .ite (fun _ => ?_) fun _ => Guarded.ends_pure trivial
  obtain ⟨r, hr, -⟩ := StartConfig.clampShared_ok hs hv hh
  exact Guarded.ends_lift hr trivial

/-- The limits come from the computation of the budgets. -/
theorem StartConfig.safe_of_runs {probe : MachineProbe} {vram host clamped nvme : UInt64} (hs : scfg.Sized)
    (hv : (scfg.deviceLimit probe).run = .ok (.ok vram)) (hh : (scfg.hostLimit probe).run = .ok (.ok host))
    (hc : (scfg.sharedLimit probe vram host).run = .ok (.ok clamped)) (hn : (scfg.nvmeLimit probe).run = .ok (.ok nvme)) :
    scfg.Safe probe { vram := clamped, host := host, nvme := nvme } := by
  have hrun : ∃ note, (scfg.startBudgets probe).run = .ok (.ok { vram := clamped, host := host, nvme := nvme, note := note }) := by
    unfold StartConfig.startBudgets
    rw [ExceptT.run_bind, hv]
    show ∃ note, (scfg.hostLimit probe >>= _ : Start StartLimits).run = _
    rw [ExceptT.run_bind, hh]
    show ∃ note, (scfg.sharedLimit probe vram host >>= _ : Start StartLimits).run = _
    rw [ExceptT.run_bind, hc]
    show ∃ note, (scfg.nvmeLimit probe >>= _ : Start StartLimits).run = _
    rw [ExceptT.run_bind, hn]
    exact ⟨_, rfl⟩
  obtain ⟨note, hrun⟩ := hrun
  exact { (StartConfig.startBudgets_ends probe hs).of_ok hrun with }

/-- The object with the limits set. -/
def Instance.withBudgets (obj : Instance) (limits : StartLimits) (reserve : Nat) (pinned : Bool) : Instance :=
  { obj with
    shared := { obj.shared with
      vramBudget := { obj.shared.vramBudget with limit := limits.vram.toNat, reserve := reserve }
      nvmeBudget := { obj.shared.nvmeBudget with limit := limits.nvme.toNat, reserve := 0 }
      host := { obj.shared.host with limit := limits.host.toNat, pinnedAvailable := pinned }
      planner := {} }
    hostDevice := obj.device }

/-- Setting a limit leaves what is in use. -/
theorem Incomplete.setVram (h : Incomplete obj₀ obj) {b : TierBudget} (hb : b.used = obj.shared.vramBudget.used) : Incomplete obj₀ (obj.setVram b) :=
  ⟨⟨h.bare.table, h.bare.buffers, h.bare.blocks, hb.trans h.bare.vram, h.bare.nvme, h.bare.host, h.bare.extents, h.bare.io⟩, h.opened, h.order, h.next⟩

theorem Incomplete.setHost (h : Incomplete obj₀ obj) {b : HostBackend} (hb : b.used = obj.shared.host.used)
    (ha : b.allocations = obj.shared.host.allocations) : Incomplete obj₀ (obj.setHost b) := by
  refine ⟨⟨h.bare.table, ?_, h.bare.blocks, h.bare.vram, h.bare.nvme, hb.trans h.bare.host, h.bare.extents, h.bare.io⟩, h.opened, h.order, h.next⟩
  show b.allocations.items = []
  rw [ha]
  exact h.bare.buffers

theorem setUpBudgets_meets {vram : UInt64} {cpuOnly : Bool} (hs : scfg.Sized) (h : Incomplete obj₀ obj)
    (hstream : obj.device = false → obj.deviceStream = false) (hrun : (scfg.deviceLimit (a.probe cpuOnly)).run = .ok (.ok vram))
    (hpages : WholePages scfg.pageSize vram) :
    (setUpBudgets scfg cpuOnly vram).Meets t a obj (CutShort (Incomplete obj₀)) fun limits obj' =>
      ∃ reserve pinned, obj' = obj.withBudgets limits reserve pinned ∧ reserve ≤ limits.vram.toNat ∧ scfg.Safe (a.probe cpuOnly) limits := by
  unfold setUpBudgets
  refine Boot.compute_bind (p := fun a => scfg.hostLimit (a.probe cpuOnly)) (StartConfig.hostLimit_ends hs) h fun host hhost hh => ?_
  refine Boot.compute_bind (p := fun a => scfg.sharedLimit (a.probe cpuOnly) vram host) (StartConfig.sharedLimit_ends hs hpages hh.2.2) h
    fun clamped hclamped _ => ?_
  refine Boot.compute_bind (p := fun a => scfg.nvmeLimit (a.probe cpuOnly)) (StartConfig.nvmeLimit_ends hs) h fun nvme hnvme _ => ?_
  have hsafe := StartConfig.safe_of_runs hs hrun hhost hclamped hnvme
  refine Boot.update_bind h fun obj₁ h₁ => ?_
  obtain ⟨b₁, hb₁, rfl⟩ := exists_ok_of_map h₁
  obtain rfl := TierBudget.setLimit_ok hb₁
  refine Boot.update_bind (h.setVram rfl) fun obj₂ h₂ => ?_
  obtain ⟨b₂, hb₂, rfl⟩ := exists_ok_of_map h₂
  obtain rfl := HostBackend.setBudget_ok hb₂
  have i₂ := (h.setVram (b := { obj.shared.vramBudget with limit := clamped.toNat, reserve := min a.vramReserve clamped.toNat }) rfl).setHost
    (b := { obj.shared.host with limit := host.toNat }) rfl rfl
  refine Boot.update_bind i₂ fun obj₃ h₃ => ?_
  obtain ⟨pinned, rfl⟩ := Instance.attach_ok h₃
  have i₃ := i₂.setHost (b := { obj.shared.host with limit := host.toNat, pinnedAvailable := pinned }) rfl rfl
  refine Boot.update_bind ⟨i₃.bare, i₃.opened, fun hd => ⟨hd, hstream hd⟩, i₃.next⟩ fun obj₄ h₄ => ?_
  obtain ⟨b₄, hb₄, rfl⟩ := exists_ok_of_map h₄
  obtain rfl := TierBudget.setLimit_ok hb₄
  exact Boot.assign_bind (Act.meets_of_ok rfl ⟨min a.vramReserve clamped.toNat, pinned, rfl, Nat.min_le_right _ _, hsafe⟩)

/-! ## The store, the telemetry files and the workers -/

/-- A map that was just opened has no extent in use and no operation in progress. -/
theorem ioBag_fresh (pageSize count : Nat) : (Extents.fresh pageSize count).ioBag = 0 := by
  ext i
  rw [Extents.count_ioBag]
  exact ite_self 0

theorem storePath_meets (h : Incomplete obj₀ obj) : (storePath opts).Meets t a obj (CutShort (Incomplete obj₀)) fun _ obj' =>
    ∃ file, obj' = { obj with storeFile := file } := by
  unfold storePath
  by_cases hp : opts.nvmePath ≠ ""
  · rw [if_pos hp]
    exact Act.meets_of_ok rfl ⟨obj.storeFile, rfl⟩
  rw [if_neg hp]
  refine Boot.ask_bind h fun path _ => ?_
  refine Act.Meets.bind (Q := fun _ o => o = obj) (Act.meets_of_ok rfl rfl) ?_
  rintro x _ rfl
  split
  · exact Boot.call_bind h (Boot.assign_bind (Act.meets_of_ok rfl ⟨false, rfl⟩))
  · exact Act.meets_of_ok rfl ⟨_, rfl⟩

/-- The object with its store open. -/
def Instance.withStore (obj : Instance) (map : Extents) (disk : Bytes) : Instance :=
  { obj with
    shared := { obj.shared with store := map, disk := disk }
    nvme := true
    storeOpened := true
    storeFile := true }

theorem Incomplete.withStore (h : Incomplete obj₀ obj) (pageSize count : Nat) (disk : Bytes) :
    Incomplete obj₀ (obj.withStore (Extents.fresh pageSize count) disk) :=
  ⟨⟨h.bare.table, h.bare.buffers, h.bare.blocks, h.bare.vram, h.bare.nvme, h.bare.host, Extents.usedBag_fresh _ _, ioBag_fresh _ _⟩,
    fun _ => rfl, h.order, h.next⟩

theorem setUpStore_meets {limits : StartLimits} (h : Incomplete obj₀ obj) :
    (setUpStore scfg opts limits).Meets t a obj (CutShort (Incomplete obj₀)) fun _ obj' => ∃ path map,
      Extents.openMap path limits.nvme.toNat scfg.pageSize.toNat = .ok map ∧ obj' = obj.withStore map a.disk := by
  refine (storePath_meets h).bind ?_
  rintro path _ ⟨file, rfl⟩
  refine Boot.assign_bind ?_
  have h₁ : ∀ file : Bool, Incomplete obj₀ { obj with storeFile := file, nvme := true } := fun _ => ⟨h.bare, fun _ => rfl, h.order, h.next⟩
  rcases hm : Extents.openMap path limits.nvme.toNat scfg.pageSize.toNat with e | map
  · refine Act.meets_of_error (e := .thrown e) ?_ ⟨⟨e, rfl⟩, h₁ file⟩
    unfold openStore
    rw [hm]
  rcases ho : a.openStore with _ | e
  · refine Act.meets_of_ok (a := ()) ?_ ⟨path, map, hm, rfl⟩
    unfold openStore
    rw [hm, ho]
    rfl
  · refine Act.meets_of_error (e := .thrown e) ?_ ⟨⟨e, rfl⟩, h₁ (file || a.openLeft)⟩
    unfold openStore
    rw [hm, ho]

theorem setUpTelemetry_meets (h : Incomplete obj₀ obj) :
    setUpTelemetry.Meets t a obj (CutShort (Incomplete obj₀)) fun _ obj' => obj' = { obj with sink := true } := by
  have h₁ : Incomplete obj₀ { obj with sink := true } := ⟨h.bare, h.opened, h.order, h.next⟩
  exact Boot.call_bind h (Boot.assign_bind (Boot.meets_call h₁ rfl))

theorem startWorkers_meets (h : Incomplete obj₀ obj) :
    (startWorkers scfg).Meets t a obj (CutShort (Incomplete obj₀)) fun _ obj' => obj' = { obj with workers := workerCount scfg } := by
  rcases ha : a.threads with _ | ⟨n, e⟩
  · refine Act.meets_of_ok (a := ()) ?_ rfl
    unfold startWorkers
    rw [ha]
  by_cases hn : n < workerCount scfg
  · have h₁ : Incomplete obj₀ { obj with workers := n } := ⟨h.bare, h.opened, h.order, h.next⟩
    refine Act.meets_of_error (e := .thrown e) ?_ ⟨⟨e, rfl⟩, h₁⟩
    unfold startWorkers
    rw [ha]
    exact if_pos hn
  · refine Act.meets_of_ok (a := ()) ?_ rfl
    unfold startWorkers
    rw [ha]
    exact if_neg hn

/-! ## Start -/

/-- The object when `start` returns. -/
def Instance.up (obj : Instance) (device : Bool) (limits : StartLimits) (reserve : Nat) (pinned : Bool) (map : Extents) (disk : Bytes)
    (workers : Nat) : Instance :=
  let obj := ((obj.withDevice device).withBudgets limits reserve pinned).withStore map disk
  { obj with shared := { obj.shared with running := true }, sink := true, workers := workers }

/-- What a `start` that returns has set up. -/
structure Up (scfg : StartConfig) (a : StartAnswers) (obj obj' : Instance) (device : Bool) (limits : StartLimits) (reserve : Nat) (pinned : Bool)
    (path : String) (map : Extents) : Prop where
  sized : scfg.Sized
  safe : scfg.Safe (a.probe (!device)) limits
  reserve_le : reserve ≤ limits.vram.toNat
  store : Extents.openMap path limits.nvme.toNat scfg.pageSize.toNat = .ok map
  eq : obj' = obj.up device limits reserve pinned map a.disk (workerCount scfg)

theorem StartConfig.startBackend_sized {r : Registry} {s : Registry.Selection} (h : scfg.startBackend r = .ok s) : scfg.Sized := by
  by_cases hv : scfg.validate r.compiledBackends = []
  · exact StartConfig.sized_of_validate hv
  · unfold StartConfig.startBackend at h
    rw [if_pos hv] at h
    cases h

theorem startBody_meets (h : Incomplete obj₀ obj) (hd : obj.device = false) :
    (startBody scfg opts).Meets t a obj (CutShort (Incomplete obj₀)) fun _ obj' =>
      ∃ device limits reserve pinned path map, Up scfg a obj obj' device limits reserve pinned path map := by
  unfold startBody
  refine Boot.ask_bind (r := fun a => scfg.startBackend a.registry) h fun selection hsel => ?_
  refine Boot.call_bind h ?_
  have hs := StartConfig.startBackend_sized hsel
  generalize (selection.name == "cpu") = cpuOnly
  refine (setUpDevice_meets hs h hd cpuOnly).bind ?_
  rintro vram _ ⟨rfl, hrun, hpages⟩
  have h₁ : Incomplete obj₀ (obj.withDevice !cpuOnly) :=
    ⟨h.bare, h.opened, fun hx => ⟨(h.order hd).1, hx⟩, h.next⟩
  refine (setUpBudgets_meets hs h₁ (fun hx => hx) hrun hpages).bind ?_
  rintro limits _ ⟨reserve, pinned, rfl, hres, hsafe⟩
  have h₂ : Incomplete obj₀ ((obj.withDevice !cpuOnly).withBudgets limits reserve pinned) :=
    ⟨⟨h.bare.table, h.bare.buffers, h.bare.blocks, h.bare.vram, h.bare.nvme, h.bare.host, h.bare.extents, h.bare.io⟩, h.opened,
      fun hx => ⟨hx, hx⟩, h.next⟩
  refine (setUpStore_meets h₂).bind ?_
  rintro _ _ ⟨path, map, hmap, rfl⟩
  obtain ⟨rfl, -, -⟩ := Extents.openMap_ok hmap
  have h₃ := h₂.withStore scfg.pageSize.toNat (limits.nvme.toNat / scfg.pageSize.toNat) a.disk
  refine (setUpTelemetry_meets h₃).bind ?_
  rintro _ _ rfl
  have h₄ : Incomplete obj₀ { ((obj.withDevice !cpuOnly).withBudgets limits reserve pinned).withStore
      (Extents.fresh scfg.pageSize.toNat (limits.nvme.toNat / scfg.pageSize.toNat)) a.disk with sink := true } :=
    ⟨h₃.bare, h₃.opened, h₃.order, h₃.next⟩
  refine (startWorkers_meets h₄).bind ?_
  rintro _ _ rfl
  refine Boot.meets_assign ⟨!cpuOnly, limits, reserve, pinned, path, _, hs, ?_, hres, hmap, rfl⟩
  rw [Bool.not_not]
  exact hsafe

/-! ## The beginning of a life -/

/-- The configuration is that of the life `start` has begun: the limits it computed, and its members. -/
structure Governs (scfg : StartConfig) (cfg : RuntimeConfig) (obj : Instance) : Prop where
  pageSize : cfg.pageSize = scfg.pageSize.toNat
  vram : cfg.vramLimit = obj.shared.vramBudget.limit ∧ cfg.vramReserve = obj.shared.vramBudget.reserve
  nvme : cfg.nvmeLimit = obj.shared.nvmeBudget.limit
  host : cfg.hostLimit = obj.shared.host.limit ∧ cfg.pinnedAvailable = obj.shared.host.pinnedAvailable
  extents : cfg.extentCount = obj.shared.store.extentCount
  device : cfg.device = obj.device
  firstId : cfg.firstId = obj.shared.nextPageId
  depths : cfg.queueDepth = scfg.queueDepth.toNat ∧ cfg.prefetchDepth = scfg.prefetchDepth.toNat

/-- Without pages, and with the limits and a new map of the configuration, the invariant holds of any state that
has no history. -/
theorem inv_of_bare (hb : Bare σ) (hh : σ.history = []) (hf : σ.firstId = σ.nextPageId) (hnext : cfg.firstId = σ.nextPageId)
    (hv : cfg.vramLimit = σ.vramBudget.limit ∧ cfg.vramReserve = σ.vramBudget.reserve)
    (hn : cfg.nvmeLimit = σ.nvmeBudget.limit ∧ σ.nvmeBudget.reserve = 0)
    (hhost : cfg.hostLimit = σ.host.limit ∧ cfg.pinnedAvailable = σ.host.pinnedAvailable)
    (hs : σ.store = Extents.fresh cfg.pageSize cfg.extentCount) : Inv cfg σ 0 := by
  have hids : spareIds σ = 0 := by
    unfold spareIds
    rw [hf, Nat.sub_self]
    rfl
  have howned := hb.owned cfg
  have htotal : σ.total cfg = 0 := by
    rw [Shared.total, hb.bag]
    rfl
  have hlt : cfg.nvmeLimit < 2 ^ 64 := by
    have hle : cfg.nvmeLimit ≤ (cfg.extentCount + 1) * cfg.pageSize := Nat.mul_le_mul_right _ (Nat.le_succ _)
    have := cfg.store_lt
    omega
  refine ⟨?_, ?_, fun p hp => ?_, fun x hx => absurd hx (Multiset.notMem_zero x), ?_⟩
  · have hrest : rest cfg σ none 0 = 0 := by
      show (σ.table.bag.map (PageMetadata.foot cfg)).sum + 0 = 0
      rw [hb.bag]
      rfl
    rw [hrest, add_zero, Res.ext_iff']
    refine ⟨?_, ?_, hb.vram, hb.nvme, hb.extents, hb.io, hids⟩
    · exact howned.host.trans (by rw [htotal]; rfl)
    · exact howned.dev.trans (by rw [htotal])
  · show σ.table.bag.bind PageMetadata.claim = _
    rw [hb.bag]
    rfl
  · have hp : p ∈ σ.table.bag := hp
    rw [hb.bag] at hp
    exact absurd hp (Multiset.notMem_zero p)
  · refine ⟨⟨hv.1 ▸ cfg.vram_lt, ?_⟩, ⟨hv.1.symm, hv.2.symm⟩, ⟨hn.1 ▸ hlt, ?_⟩, ⟨hn.1.symm, hn.2⟩, ⟨hhost.1.symm, hhost.2.symm⟩,
      howned.hostUsed, ?_, ?_, ?_, ⟨hf.trans hnext.symm, hf.le, ?_⟩, ?_, ?_, ?_⟩
    · rw [hb.vram]
      exact Nat.zero_le _
    · rw [hb.nvme]
      exact Nat.zero_le _
    · rw [hb.host]
      exact Nat.zero_le _
    · rw [hs]
      exact Extents.fresh_ok cfg.page_pos cfg.store_lt
    · rw [hs]
      exact ⟨rfl, rfl⟩
    · rw [← hnext]
      exact cfg.first_ok.2
    · rw [hh]
      exact fun i hi => (List.not_mem_nil hi).elim
    · rw [hh]
      exact fun i hi => absurd rfl hi
    · rw [hh]
      trivial

section

variable {device pinned : Bool} {limits : StartLimits} {reserve : Nat} {path : String} {map : Extents}

theorem Up.inv (h : Up scfg a obj obj' device limits reserve pinned path map) (hb : Bare obj.shared) (hh : obj.shared.history = [])
    (hf : obj.shared.firstId = obj.shared.nextPageId) (hg : Governs scfg cfg obj') : Inv cfg obj'.shared 0 := by
  obtain ⟨rfl, -, -⟩ := Extents.openMap_ok h.store
  obtain rfl := h.eq
  have hstore : Extents.fresh scfg.pageSize.toNat (limits.nvme.toNat / scfg.pageSize.toNat) = Extents.fresh cfg.pageSize cfg.extentCount := by
    rw [hg.pageSize, hg.extents]
    rfl
  refine inv_of_bare ⟨hb.table, hb.buffers, hb.blocks, hb.vram, hb.nvme, hb.host, Extents.usedBag_fresh _ _, ioBag_fresh _ _⟩ hh hf hg.firstId
    hg.vram ⟨hg.nvme, rfl⟩ hg.host hstore

theorem Up.started (h : Up scfg a obj obj' device limits reserve pinned path map) (hg : Governs scfg cfg obj') (σ : Shared) :
    { obj' with shared := σ } = cfg.started (workerCount scfg) σ := by
  obtain rfl := h.eq
  have hd : cfg.device = device := hg.device
  unfold RuntimeConfig.started
  rw [hd]
  rfl

theorem Up.governed (h : Up scfg a obj obj' device limits reserve pinned path map)
    (hn : 1 ≤ obj.shared.nextPageId ∧ obj.shared.nextPageId < 2 ^ 64) : ∃ cfg, Governs scfg cfg obj' := by
  refine ⟨scfg.runtimeConfig h.sized h.safe h.store reserve h.reserve_le true pinned "" .lru 0 obj.shared.nextPageId hn, ?_⟩
  have hnvme := StartConfig.nvmeLimit_runtimeConfig h.sized h.safe h.store reserve h.reserve_le true pinned "" .lru 0 obj.shared.nextPageId hn
  have hprobe : (a.probe (!device)).device.isSome = device := by cases device <;> rfl
  obtain ⟨rfl, -, -⟩ := Extents.openMap_ok h.store
  obtain rfl := h.eq
  exact ⟨rfl, ⟨rfl, rfl⟩, hnvme, ⟨rfl, rfl⟩, rfl, hprobe, rfl, ⟨rfl, rfl⟩⟩

end

/-- The accounts of a run from any state without a history in which the invariant holds. -/
theorem accounted_of_inv (hi : Inv cfg σ 0) (hh : σ.history = []) (hr : Reachable (fun _ => True) (code cfg) σ c) :
    ∃ hs, Accounted (fun _ _ _ => True) cfg [] c hs := by
  have hnew : ∀ t, Log t [] σ := by
    intro t
    unfold Log
    rw [hh]
    rfl
  refine hr.sound hi (fun σ T t hi => Inv.spawn hi t) (fun t => ⟨hnew t, List.nil_suffix⟩) ?_ (fun _ _ _ _ _ _ _ => trivial)
    (fun l _ t σ hn => code_wp l hn.1 hn.2) fun l t σ σ' r h hr hq => hq.rely hr
  rintro t σ σ' hr ⟨hl, hle⟩
  exact ⟨hl.rely hr, hle.trans (Rely.le hr)⟩

/-! ## Lives -/

/-- The object between two lives, with the configuration of the last and all page ids issued so far. A start may
fail and a teardown be attempted at any time; a life in which no release failed ends with an attempt. -/
inductive Lives (scfg : StartConfig) (opts : StoreOptions) : RuntimeConfig → Instance → List PageId → Prop where
  | constructed (cfg : RuntimeConfig) (disk : Bytes) (file : Bool) : Lives scfg opts cfg (Instance.constructed disk file) []
  | failed {cfg : RuntimeConfig} {obj obj' : Instance} {ids : List PageId} (t : Nat) (a : StartAnswers) (ω : TeardownAnswers) (e : Error) :
      Lives scfg opts cfg obj ids → obj.start scfg opts cfg t a ω = (.error (.thrown e), obj') → Lives scfg opts cfg obj' ids
  | shutdown {cfg : RuntimeConfig} {obj : Instance} {ids : List PageId} (t : Nat) (ω : TeardownAnswers) :
      Lives scfg opts cfg obj ids → Lives scfg opts cfg (obj.shutdown cfg opts.retainStore t ω).2 ids
  | life {cfg cfg' : RuntimeConfig} {obj obj' : Instance} {ids : List PageId} {c : Runtime} (t : Nat) (a : StartAnswers)
      (ω : TeardownAnswers) (t' : Nat) (ω' : TeardownAnswers) :
      Lives scfg opts cfg obj ids → obj.start scfg opts cfg t a ω = (.ok (), obj') → Governs scfg cfg' obj' →
      Reachable (fun _ => True) (code cfg') obj'.shared c → c.Quiet → (∀ e ∈ c.shared.history, e.releaseFailed = false) →
      Lives scfg opts cfg' (Instance.shutdown cfg' opts.retainStore t' ω' { obj' with shared := c.shared }).2 (allocIds c.shared.history ++ ids)

/-- What holds between two lives. -/
structure Between (cfg : RuntimeConfig) (retainStore : Bool) (obj : Instance) (ids : List PageId) : Prop where
  after : ∃ σ₀ exact, exact ∧ AfterAttempt cfg retainStore 0 exact σ₀ obj
  next : 1 ≤ obj.shared.nextPageId ∧ obj.shared.nextPageId < 2 ^ 64
  nodup : ids.Nodup
  below : ∀ i : Nat, i ∈ ids → i < obj.shared.nextPageId

/-- The object the `try` block of `start` is run on. -/
def Instance.readied (obj : Instance) : Instance :=
  Instance.begin { obj with shared := { obj.shared with pendingPrefetches := [], stopping := false } }

theorem Instance.restart_ok (h : obj.restart = .ok obj') : obj'.begin = obj.readied := by
  unfold Instance.restart at h
  split at h
  · cases h
  split at h
  · cases h
  · cases h
    rfl

/-- How `start` ends: refused by the gate, or as its body does, with an attempt at teardown after an error. -/
theorem Instance.start_eq (scfg : StartConfig) (opts : StoreOptions) (cfg : RuntimeConfig) (t : Nat) (a : StartAnswers) (ω : TeardownAnswers)
    (obj : Instance) : (∃ e, obj.restart = .error e ∧ obj.start scfg opts cfg t a ω = (.error (.thrown e), obj)) ∨
    obj.restart.isOk = true ∧
      ((∃ obj', startBody scfg opts t a obj.readied = (.ok (), obj') ∧ obj.start scfg opts cfg t a ω = (.ok (), obj')) ∨
      (∃ e obj', startBody scfg opts t a obj.readied = (.error (.thrown e), obj') ∧
        obj.start scfg opts cfg t a ω = (.error (.thrown e), (obj'.shutdownLocked cfg opts.retainStore t ω).2)) ∨
      ∃ x obj', startBody scfg opts t a obj.readied = (.error (.trap x), obj')) := by
  unfold Instance.start
  rcases hr : obj.restart with e | o
  · exact .inl ⟨e, rfl, rfl⟩
  refine .inr ⟨rfl, ?_⟩
  dsimp only
  rw [Instance.restart_ok hr]
  rcases hb : startBody scfg opts t a obj.readied with ⟨stop | _, obj'⟩
  · cases stop with
    | thrown e => exact .inr (.inl ⟨e, obj', rfl, rfl⟩)
    | trap x => exact .inr (.inr ⟨x, obj', rfl⟩)
  · exact .inl ⟨obj', rfl, rfl⟩

section

variable {ids : List PageId} {retainStore : Bool}

theorem Between.complete (h : Between cfg retainStore obj ids) : obj.restart.isOk = true ↔ obj.Complete := by
  obtain ⟨σ₀, exact, -, ha⟩ := h.after
  exact ha.restart

theorem Between.readied (h : Between cfg retainStore obj ids) (ho : obj.restart.isOk = true) : Incomplete obj obj.readied ∧ obj.readied.device = false := by
  have hc := h.complete.1 ho
  obtain ⟨σ₀, exact, he, ha⟩ := h.after
  have hb := ha.owned.bare he hc.table
  refine ⟨⟨⟨hb.table, hb.buffers, hb.blocks, hb.vram, hb.nvme, hb.host, hb.extents, hb.io⟩, fun hx => ?_, ha.order, rfl⟩, hc.device⟩
  exact absurd (hc.storeOpened.symm.trans hx) Bool.false_ne_true

/-- The attempt after an error of `start`. -/
theorem Incomplete.shutdownLocked (h : Incomplete obj₀ obj) (cfg : RuntimeConfig) (retainStore : Bool) (t : Nat) (ω : TeardownAnswers) :
    AfterAttempt cfg retainStore 0 True obj.shared (obj.shutdownLocked cfg retainStore t ω).2 ∧
    Bare (obj.shutdownLocked cfg retainStore t ω).2.shared ∧
    (obj.shutdownLocked cfg retainStore t ω).2.shared.nextPageId = obj₀.shared.nextPageId ∧
    (ω.Clean → (obj.shutdownLocked cfg retainStore t ω).2.Complete) := by
  obtain ⟨hs, hk, hn, he, -⟩ := attempt_stopped (t := t) ω (h.settled cfg retainStore)
  have ha : AfterAttempt cfg retainStore 0 True obj.shared (obj.shutdownLocked cfg retainStore t ω).2 :=
    ⟨hs.toSettled, fun p hp => (hk p hp).owned, hs.flags, hs.workers⟩
  exact ⟨ha, ha.owned.bare trivial (ha.noPage h.bare), ha.next.trans h.next, fun hω => hn (he trivial rfl hω)⟩

/-- The body of `start` never traps, so a `start` that the gate lets through ends in one of two ways. -/
theorem Between.start_cases (h : Between cfg opts.retainStore obj ids) (ho : obj.restart.isOk = true) (scfg : StartConfig) (t : Nat)
    (a : StartAnswers) :
    (∃ obj' device limits reserve pinned path map, Up scfg a obj.readied obj' device limits reserve pinned path map ∧
      ∀ ω, obj.start scfg opts cfg t a ω = (.ok (), obj')) ∨
    ∃ e obj', Incomplete obj obj' ∧
      ∀ ω, obj.start scfg opts cfg t a ω = (.error (.thrown e), (obj'.shutdownLocked cfg opts.retainStore t ω).2) := by
  obtain ⟨hi, hd⟩ := h.readied ho
  have hm : (startBody scfg opts).Meets t a obj.readied (CutShort (Incomplete obj)) fun _ obj' =>
      ∃ device limits reserve pinned path map, Up scfg a obj.readied obj' device limits reserve pinned path map := startBody_meets hi hd
  have hgate : ∀ e, obj.restart ≠ .error e := fun e he => by
    rw [he] at ho
    cases ho
  rcases hb : startBody scfg opts t a obj.readied with ⟨stop | _, obj'⟩
  · obtain ⟨⟨e, rfl⟩, hinc⟩ := hm.error _ _ hb
    refine .inr ⟨e, obj', hinc, fun ω => ?_⟩
    rcases Instance.start_eq scfg opts cfg t a ω obj with ⟨e', he, -⟩ | ⟨-, ⟨o, hb', -⟩ | ⟨e', o, hb', hr⟩ | ⟨x, o, hb'⟩⟩
    · exact absurd he (hgate e')
    all_goals cases hb.symm.trans hb'
    exact hr
  · obtain ⟨device, limits, reserve, pinned, path, map, hup⟩ := hm.ok _ _ hb
    refine .inl ⟨obj', device, limits, reserve, pinned, path, map, hup, fun ω => ?_⟩
    rcases Instance.start_eq scfg opts cfg t a ω obj with ⟨e', he, -⟩ | ⟨-, ⟨o, hb', hr⟩ | ⟨e', o, hb', -⟩ | ⟨x, o, hb'⟩⟩
    · exact absurd he (hgate e')
    all_goals cases hb.symm.trans hb'
    exact hr

/-- A `start` that the gate refuses changes nothing. -/
theorem Instance.start_refused (ho : obj.restart.isOk = false) (scfg : StartConfig) (opts : StoreOptions) (cfg : RuntimeConfig) (t : Nat)
    (a : StartAnswers) (ω : TeardownAnswers) : ∃ e, obj.start scfg opts cfg t a ω = (.error (.thrown e), obj) := by
  unfold Instance.start
  rcases hr : obj.restart with e | o
  · exact ⟨e, rfl⟩
  · rw [hr] at ho
    cases ho

theorem Between.begun (h : Between cfg opts.retainStore obj ids) (hs : obj.start scfg opts cfg t a ω = (.ok (), obj')) :
    Incomplete obj obj.readied ∧ ∃ device limits reserve pinned path map, Up scfg a obj.readied obj' device limits reserve pinned path map := by
  by_cases ho : obj.restart.isOk = true
  · rcases h.start_cases ho scfg t a with ⟨o, device, limits, reserve, pinned, path, map, hup, hr⟩ | ⟨e, o, -, hr⟩
    · cases (hr ω).symm.trans hs
      exact ⟨(h.readied ho).1, device, limits, reserve, pinned, path, map, hup⟩
    · cases (hr ω).symm.trans hs
  · obtain ⟨e, hr⟩ := Instance.start_refused (Bool.eq_false_of_not_eq_true ho) scfg opts cfg t a ω
    cases hr.symm.trans hs

/-- The accounts of the new life, in any state of it. -/
theorem Between.accounted {cfg' : RuntimeConfig} (h : Between cfg opts.retainStore obj ids) (hs : obj.start scfg opts cfg t a ω = (.ok (), obj'))
    (hg : Governs scfg cfg' obj') (hr : Reachable (fun _ => True) (code cfg') obj'.shared c) :
    cfg'.firstId = obj.shared.nextPageId ∧ ∃ hs, Accounted (fun _ _ _ => True) cfg' [] c hs := by
  obtain ⟨hi, device, limits, reserve, pinned, path, map, hup⟩ := h.begun hs
  have hinv := hup.inv hi.bare rfl rfl hg
  obtain rfl := hup.eq
  exact ⟨hg.firstId, accounted_of_inv hinv rfl hr⟩

theorem allocIds_nodup : ∀ {h : List Event}, Each EventOk h → (allocIds h).Nodup
  | [], _ => List.nodup_nil
  | e :: h, he => by
    have ih := allocIds_nodup he.2
    cases e with
    | alloc t i n b x => exact List.nodup_cons.2 ⟨he.1, ih⟩
    | _ => exact ih

/-- The ids of the new life are new. -/
theorem Between.fresh {cfg' : RuntimeConfig} (h : Between cfg opts.retainStore obj ids) {hs : List Hold}
    (hfirst : cfg'.firstId = obj.shared.nextPageId) (hacc : Accounted (fun _ _ _ => True) cfg' [] c hs) :
    (allocIds c.shared.history ++ ids).Nodup ∧ (∀ i : Nat, i ∈ allocIds c.shared.history ++ ids → i < c.shared.nextPageId) ∧
      obj.shared.nextPageId ≤ c.shared.nextPageId ∧ c.shared.nextPageId < 2 ^ 64 := by
  have hi : Inv cfg' c.shared (tagged hs) := hacc.inv
  obtain ⟨hf, hle, hlt⟩ := hi.wf.next
  have hnext : obj.shared.nextPageId ≤ c.shared.nextPageId := by
    rw [← hfirst, ← hf]
    exact hle
  refine ⟨(allocIds_nodup hi.wf.events).append h.nodup fun i hi₁ hi₂ => ?_, fun i hm => ?_, hnext, hlt⟩
  · have h₁ := (hi.wf.issued i hi₁).1
    rw [hf, hfirst] at h₁
    exact absurd (h.below i hi₂) (Nat.not_lt.2 h₁)
  · rcases List.mem_append.1 hm with hm | hm
    · exact (hi.wf.issued i hm).2
    · exact lt_of_lt_of_le (h.below i hm) hnext

theorem between_constructed (cfg : RuntimeConfig) (retainStore : Bool) (disk : Bytes) (file : Bool) :
    Between cfg retainStore (Instance.constructed disk file) [] := by
  have hi : Incomplete (Instance.constructed disk file) (Instance.constructed disk file) :=
    ⟨⟨rfl, rfl, rfl, rfl, rfl, rfl, usedBag_closedMap _, ioBag_closedMap _⟩, fun hx => hx, fun _ => ⟨rfl, rfl⟩, rfl⟩
  refine ⟨⟨_, True, trivial, hi.settled cfg retainStore, fun p hp => ?_, ⟨rfl, rfl⟩, rfl⟩, ⟨le_rfl, Nat.one_lt_two_pow (by decide)⟩,
    List.nodup_nil, fun i hi => absurd hi List.not_mem_nil⟩
  exact absurd hp (Multiset.notMem_zero p)

theorem Between.failed {e : Error} (h : Between cfg opts.retainStore obj ids) (hs : obj.start scfg opts cfg t a ω = (.error (.thrown e), obj')) :
    Between cfg opts.retainStore obj' ids := by
  by_cases ho : obj.restart.isOk = true
  · rcases h.start_cases ho scfg t a with ⟨o, device, limits, reserve, pinned, path, map, -, hr⟩ | ⟨e', o, hinc, hr⟩
    · cases (hr ω).symm.trans hs
    · cases (hr ω).symm.trans hs
      obtain ⟨ha, -, hnext, -⟩ := hinc.shutdownLocked cfg opts.retainStore t ω
      exact ⟨⟨_, True, trivial, ha⟩, hnext.symm ▸ h.next, h.nodup, hnext.symm ▸ h.below⟩
  · obtain ⟨e', hr⟩ := Instance.start_refused (Bool.eq_false_of_not_eq_true ho) scfg opts cfg t a ω
    cases hr.symm.trans hs
    exact h

theorem Between.shutdown (h : Between cfg retainStore obj ids) (t : Nat) (ω : TeardownAnswers) :
    Between cfg retainStore (obj.shutdown cfg retainStore t ω).2 ids := by
  obtain ⟨σ₀, exact, he, ha⟩ := h.after
  have ha' := (shutdown_settled (t := t) ω ha.toSettled).1
  have hnext := ha'.next.trans ha.next.symm
  exact ⟨⟨σ₀, exact, he, ha'⟩, hnext.symm ▸ h.next, h.nodup, hnext.symm ▸ h.below⟩

theorem Lives.between (h : Lives scfg opts cfg obj ids) : Between cfg opts.retainStore obj ids := by
  induction h with
  | constructed cfg disk file => exact between_constructed cfg _ disk file
  | failed t a ω e _ hs ih =>
    exact ih.failed hs
  | shutdown t ω _ ih => exact ih.shutdown t ω
  | @life cfg cfg' obj obj' ids c t a ω t' ω' _ hs hg hr hq hf ih =>
    obtain ⟨hfirst, hs', hacc⟩ := ih.accounted hs hg hr
    obtain ⟨-, device, limits, reserve, pinned, path, map, hup⟩ := ih.begun hs
    obtain ⟨lost, hset, hlost⟩ := hacc.settled hq opts.retainStore (workerCount scfg)
    obtain rfl := hlost hf
    obtain ⟨hnodup, hbelow, hle, hlt⟩ := ih.fresh hfirst hacc
    rw [hup.started hg c.shared]
    have ha := (shutdown_settled (t := t') ω' hset).1
    have hnext := ha.next
    exact ⟨⟨_, _, hf, ha⟩, hnext.symm ▸ ⟨ih.next.1.trans hle, hlt⟩, hnodup, hnext.symm ▸ hbelow⟩

/-! ## What holds over any number of lives -/

/-- A configuration in CPU-only mode with one page of host memory and two extents, and a machine that has them. -/
def cpuStart : StartConfig :=
  { cudaEnabled := false, pageSize := 4096, hostBudgetBytes := 4096, nvmeBudgetBytes := 8192, queueDepth := 2, prefetchDepth := 2 }

theorem noBackends_sorted : ((∅ : Keyed Registration.name).items.map Registration.name).Pairwise (· < ·) := List.Pairwise.nil

def cpuMachine : StartAnswers where
  registry := { backends := ∅, sorted := noBackends_sorted }
  machine := ⟨none, 65536, 65536, 0, 0, 0, 0⟩
  device := ⟨0, false⟩

/-- The configuration, on a machine that has no pinned memory. -/
def RuntimeConfig.unpinned (cfg : RuntimeConfig) : RuntimeConfig := { cfg with pinnedAvailable := false }

/-- A `start` that throws has given up what it had set up: there is no page, buffer, block or extent and no worker,
and its error does not depend on what fails in its teardown. When nothing fails there, `start` may be called
again; and whatever failed, an attempt in which no call fails finishes it. -/
theorem failed_start_releases (h : Lives scfg opts cfg obj ids) (ho : obj.restart.isOk = true) {e : Error}
    (hs : obj.start scfg opts cfg t a ω = (.error (.thrown e), obj')) :
    Bare obj'.shared ∧ obj'.workers = 0 ∧ obj'.shared.nextPageId = obj.shared.nextPageId ∧
      (∀ ω₁, (obj.start scfg opts cfg t a ω₁).1 = .error (.thrown e)) ∧
      (ω.Clean → obj'.restart.isOk = true) ∧
      ∀ t₁ ω₁, ω₁.Clean → (obj'.shutdown cfg opts.retainStore t₁ ω₁).1 = none ∧
        (obj'.shutdown cfg opts.retainStore t₁ ω₁).2.restart.isOk = true := by
  rcases h.between.start_cases ho scfg t a with ⟨o, device, limits, reserve, pinned, path, map, -, hr⟩ | ⟨e', o, hinc, hr⟩
  · cases (hr ω).symm.trans hs
  cases (hr ω).symm.trans hs
  obtain ⟨ha, hbare, hnext, hclean⟩ := hinc.shutdownLocked cfg opts.retainStore t ω
  refine ⟨hbare, ha.workers, hnext, fun ω₁ => by rw [hr ω₁], fun hω => ha.restart.2 (hclean hω), fun t₁ ω₁ hω₁ => ?_⟩
  obtain ⟨ha₁, hn, hc, -⟩ := shutdown_settled (t := t₁) ω₁ ha.toSettled
  have hnone := hc trivial rfl hω₁
  exact ⟨hnone, ha₁.restart.2 (hn hnone)⟩

theorem failed_start_releases_open : ∃ e obj', (Instance.constructed (fun _ => 0) false).start cpuStart {} (smallConfig 0 1 2).unpinned 0
    { cpuMachine with openStore := some ⟨.io, "open failed", ""⟩ } {} = (.error (.thrown e), obj') ∧
    e = ⟨.io, "open failed", ""⟩ ∧ Bare obj'.shared ∧ obj'.restart.isOk = true := by
  have hs : ((Instance.constructed (fun _ => 0) false).start cpuStart {} (smallConfig 0 1 2).unpinned 0
      { cpuMachine with openStore := some ⟨.io, "open failed", ""⟩ } {}).1 = .error (.thrown ⟨.io, "open failed", ""⟩) := by decide +kernel
  obtain ⟨hb, -, -, -, hr, -⟩ := failed_start_releases (Lives.constructed (smallConfig 0 1 2).unpinned (fun _ => 0) false) (by decide) (Prod.ext hs rfl)
  exact ⟨_, _, Prod.ext hs rfl, rfl, hb, hr ⟨rfl, rfl, fun _ => ⟨rfl, rfl⟩, rfl, rfl, rfl, rfl, rfl, rfl⟩⟩

/-- Whatever came before, a `start` never computes with numbers that wrap or divides by zero; and if it returns, there is a
configuration that describes the new life, and in every state of every run of it the budgets are within their limits and, as
long as no release has failed, exact whenever no operation is in progress. -/
theorem lives_begin_anew (h : Lives scfg opts cfg obj ids) (t : Nat) (a : StartAnswers) (ω : TeardownAnswers) :
    (∀ x, (obj.start scfg opts cfg t a ω).1 ≠ .error (.trap x)) ∧
    ∀ obj', obj.start scfg opts cfg t a ω = (.ok (), obj') → (∃ cfg', Governs scfg cfg' obj') ∧
      ∀ cfg', Governs scfg cfg' obj' → obj' = cfg'.started (workerCount scfg) obj'.shared ∧
        ∀ c : Runtime, Reachable (fun _ => True) (code cfg') obj'.shared c →
          c.shared.vramBudget.used ≤ cfg'.vramLimit - cfg'.vramReserve ∧ c.shared.host.used ≤ cfg'.hostLimit ∧
          c.shared.nvmeBudget.used ≤ cfg'.nvmeLimit ∧
          ((∀ e ∈ c.shared.history, e.releaseFailed = false) → c.Quiet → Exact cfg' c.shared) := by
  have hb := h.between
  refine ⟨fun x hx => ?_, fun obj' hs => ?_⟩
  · by_cases ho : obj.restart.isOk = true
    · rcases hb.start_cases ho scfg t a with ⟨o, device, limits, reserve, pinned, path, map, -, hr⟩ | ⟨e, o, -, hr⟩
      · rw [hr ω] at hx
        cases hx
      · rw [hr ω] at hx
        cases hx
    · obtain ⟨e, hr⟩ := Instance.start_refused (Bool.eq_false_of_not_eq_true ho) scfg opts cfg t a ω
      rw [hr] at hx
      cases hx
  obtain ⟨-, device, limits, reserve, pinned, path, map, hup⟩ := hb.begun hs
  refine ⟨hup.governed hb.next, fun cfg' hg => ⟨hup.started hg obj'.shared, fun c hr => ?_⟩⟩
  obtain ⟨-, hs', hacc⟩ := hb.accounted hs hg hr
  have hi : Inv cfg' c.shared (tagged hs') := hacc.inv
  have hv := hi.wf.vram.used
  have hn := hi.wf.nvme.used
  rw [TierBudget.usable, hi.wf.vramLimit.1, hi.wf.vramLimit.2] at hv
  rw [TierBudget.usable, hi.wf.nvmeLimit.1, hi.wf.nvmeLimit.2, Nat.sub_zero] at hn
  exact ⟨hv, hi.wf.hostLe, hn, fun hf hq => hi.exact (hacc.atRest hq hf)⟩

/-- The object on that machine, started. -/
def cpuObject (cfg : RuntimeConfig) : Instance := ((Instance.constructed (fun _ => 0) false).start cpuStart {} cfg 0 cpuMachine {}).2

theorem cpuStart_starts : (Instance.constructed (fun _ => 0) false).start cpuStart {} (smallConfig 0 1 2).unpinned 0 cpuMachine {} =
    (.ok (), cpuObject (smallConfig 0 1 2).unpinned) := by
  refine Prod.ext ?_ rfl
  decide +kernel

theorem cpuStart_governs : Governs cpuStart (smallConfig 0 1 2).unpinned (cpuObject (smallConfig 0 1 2).unpinned) := by
  refine ⟨?_, ⟨?_, ?_⟩, ?_, ⟨?_, ?_⟩, ?_, ?_, ?_, ?_, ?_⟩ <;> decide +kernel

/-- A page was allocated in a first life, and there is a second one. -/
theorem exists_restart : ∃ obj obj', Lives cpuStart {} (smallConfig 0 1 2).unpinned obj [1] ∧
    obj.start cpuStart {} (smallConfig 0 1 2).unpinned 0 cpuMachine {} = (.ok (), obj') := by
  obtain ⟨c, hr, -, hq, hids, hf, hs⟩ : ∃ c : Runtime,
      Reachable (fun _ => True) (code (smallConfig 0 1 2).unpinned) (cpuObject (smallConfig 0 1 2).unpinned).shared c ∧
      c.labels = spawned (.spawn (.allocate { logicalBytes := 10 }) :: turns 0 6) ∧
      c.Quiet ∧ allocIds c.shared.history = [1] ∧ (∀ e ∈ c.shared.history, e.releaseFailed = false) ∧
      ((Instance.shutdown (smallConfig 0 1 2).unpinned false 0 {} { cpuObject (smallConfig 0 1 2).unpinned with shared := c.shared }).2.start
        cpuStart {} (smallConfig 0 1 2).unpinned 0 cpuMachine {}).1 = .ok () :=
    Reachable.of_test _ (fun _ _ => trivial) (by decide +kernel)
  have hl : Lives cpuStart {} (smallConfig 0 1 2).unpinned _ (allocIds c.shared.history ++ []) :=
    .life 0 cpuMachine {} 0 {} (.constructed (smallConfig 0 1 2).unpinned (fun _ => 0) false) cpuStart_starts cpuStart_governs hr hq hf
  rw [hids] at hl
  exact ⟨_, _, hl, Prod.ext hs rfl⟩

theorem lives_begin_anew_restart : ∃ cfg obj obj', Lives cpuStart {} (smallConfig 0 1 2).unpinned obj [1] ∧
    obj.start cpuStart {} (smallConfig 0 1 2).unpinned 0 cpuMachine {} = (.ok (), obj') ∧ Governs cpuStart cfg obj' ∧
    ∀ c : Runtime, Reachable (fun _ => True) (code cfg) obj'.shared c → c.shared.host.used ≤ cfg.hostLimit ∧
      ((∀ e ∈ c.shared.history, e.releaseFailed = false) → c.Quiet → Exact cfg c.shared) := by
  obtain ⟨obj, obj', hl, hstart⟩ := exists_restart
  obtain ⟨⟨cfg, hg⟩, hruns⟩ := (lives_begin_anew hl 0 cpuMachine {}).2 _ hstart
  exact ⟨cfg, obj, obj', hl, hstart, hg, fun c hr => ⟨((hruns cfg hg).2 c hr).2.1, ((hruns cfg hg).2 c hr).2.2.2⟩⟩

/-- Over any number of lives no page id is issued twice, and an id of an earlier life names no page of a later one. -/
theorem page_ids_unique (h : Lives scfg opts cfg obj ids) : ids.Nodup ∧
    ∀ t a ω obj' cfg' (c : Runtime), obj.start scfg opts cfg t a ω = (.ok (), obj') → Governs scfg cfg' obj' →
      Reachable (fun _ => True) (code cfg') obj'.shared c →
      (allocIds c.shared.history ++ ids).Nodup ∧ ∀ id ∈ ids, c.shared.table.lookup id = none := by
  have hb := h.between
  refine ⟨hb.nodup, fun t a ω obj' cfg' c hs hg hr => ?_⟩
  obtain ⟨hfirst, hs', hacc⟩ := hb.accounted hs hg hr
  have hi : Inv cfg' c.shared (tagged hs') := hacc.inv
  have hnodup := (hb.fresh hfirst hacc).1
  refine ⟨hnodup, fun id hid => Option.eq_none_iff_forall_not_mem.2 fun p hp => ?_⟩
  have halloc : id ∈ allocIds c.shared.history := mem_allocIds_of_sizeIn (Open.size hi hp)
  exact (List.nodup_append.1 hnodup).2.2 id halloc id hid rfl

theorem page_ids_unique_restart : ∃ cfg obj obj', Lives cpuStart {} (smallConfig 0 1 2).unpinned obj [1] ∧
    obj.start cpuStart {} (smallConfig 0 1 2).unpinned 0 cpuMachine {} = (.ok (), obj') ∧ Governs cpuStart cfg obj' ∧ obj'.shared.table.lookup 1 = none := by
  obtain ⟨obj, obj', hl, hstart⟩ := exists_restart
  have hb := hl.between
  obtain ⟨-, device, limits, reserve, pinned, path, map, hup⟩ := hb.begun hstart
  obtain ⟨cfg, hg⟩ := hup.governed hb.next
  exact ⟨cfg, _, _, hl, hstart, hg, ((page_ids_unique hl).2 _ _ _ _ _ _ hstart hg .start).2 1 (List.mem_singleton.2 rfl)⟩

end

end FlashTier
