/-
One attempt at teardown, step by step: a page's turn of the release loop, the loop, and the closing of the store
and of the device. A turn changes no other page; what it could not release it leaves in the record, with an error
remembered and, where the store or the device is still needed for it, a mark that keeps that open.
-/
import FlashTier.Lifecycle.Owned

namespace FlashTier

open Conc

variable {cfg : RuntimeConfig} {σ σ' : Shared} {t : Nat} {id : PageId} {p q m : PageMetadata} {s s' s₁ s₂ s₃ : Attempt}
  {lost : Multiset (Ptr × Nat)} {exact : Prop} {ω : TeardownAnswers} {K K' : PageId → Prop}

/-! ## Steps of the loop -/

/-- What releases for the pages `K` do to the shared state. -/
structure Passes (cfg : RuntimeConfig) (lost : Multiset (Ptr × Nat)) (exact : Prop) (K : PageId → Prop) (σ σ' : Shared) : Prop where
  owned : Owned cfg lost exact σ'
  sheds : Sheds σ σ'
  others : ∀ i, ¬K i → σ'.table.lookup i = σ.table.lookup i
  buffers : ∀ a ∈ σ'.host.allocations.bag, a ∈ σ.host.allocations.bag
  flags : (σ'.running, σ'.stopping, σ'.nextPageId) = (σ.running, σ.stopping, σ.nextPageId)

/-- A mark that something is live comes with an error. -/
def Attempt.Marked (s : Attempt) : Prop := (s.deviceResourcesLive || s.nvmeResourcesLive) = true → s.firstError.isSome

/-- And to the attempt: errors and marks stay, the members of the object too. -/
structure LoopTurn (cfg : RuntimeConfig) (lost : Multiset (Ptr × Nat)) (exact : Prop) (K : PageId → Prop) (s s' : Attempt) : Prop
    extends Passes cfg lost exact K s.obj.shared s'.obj.shared where
  error : s.firstError.isSome → s'.firstError.isSome
  deviceLive : s.deviceResourcesLive = true → s'.deviceResourcesLive = true
  nvmeLive : s.nvmeResourcesLive = true → s'.nvmeResourcesLive = true
  marked : s.Marked → s'.Marked
  members : { s'.obj with shared := s.obj.shared } = s.obj

theorem Passes.refl (h : Owned cfg lost exact σ) : Passes cfg lost exact K σ σ := ⟨h, .refl σ, fun _ _ => rfl, fun _ ha => ha, rfl⟩

theorem LoopTurn.refl (h : Owned cfg lost exact s.obj.shared) : LoopTurn cfg lost exact K s s :=
  { Passes.refl h with error := fun h => h, deviceLive := fun h => h, nvmeLive := fun h => h, marked := fun h => h, members := rfl }

theorem LoopTurn.trans (h₁ : LoopTurn cfg lost exact K s₁ s₂) (h₂ : LoopTurn cfg lost exact K s₂ s₃) : LoopTurn cfg lost exact K s₁ s₃ where
  owned := h₂.owned
  sheds := h₁.sheds.trans h₂.sheds
  others i hi := (h₂.others i hi).trans (h₁.others i hi)
  buffers a ha := h₁.buffers a (h₂.buffers a ha)
  flags := h₂.flags.trans h₁.flags
  error h := h₂.error (h₁.error h)
  deviceLive h := h₂.deviceLive (h₁.deviceLive h)
  nvmeLive h := h₂.nvmeLive (h₁.nvmeLive h)
  marked h := h₂.marked (h₁.marked h)
  members := by
    have h := congrArg (fun o : Instance => { o with shared := s₁.obj.shared }) h₂.members
    exact h.trans h₁.members

theorem LoopTurn.sameMembers (h : LoopTurn cfg lost exact K s s') :
    s'.obj.device = s.obj.device ∧ s'.obj.nvme = s.obj.nvme ∧ s'.obj.storeOpened = s.obj.storeOpened := by
  rw [← h.members]
  exact ⟨rfl, rfl, rfl⟩

theorem LoopTurn.mono (h : LoopTurn cfg lost exact K s s') (hK : ∀ i, K i → K' i) : LoopTurn cfg lost exact K' s s' :=
  { h with others := fun i hi => h.others i fun hk => hi (hK i hk) }

theorem isSome_or (a : Option Error) (e : Error) : (a.or (some e)).isSome = true := by
  cases a <;> rfl

/-- A `try` block that ran through. -/
theorem Passes.turn (h : Passes cfg lost exact K s.obj.shared σ) : LoopTurn cfg lost exact K s (s.set σ) :=
  { h with error := fun h => h, deviceLive := fun h => h, nvmeLive := fun h => h, marked := fun h => h, members := rfl }

/-- A `try` block that threw, with the marks its handler may have set. -/
theorem Passes.caught (h : Passes cfg lost exact K s.obj.shared σ) (e : Error) (dev nvme : Bool) :
    LoopTurn cfg lost exact K s
      { (s.set σ).remember e with
        deviceResourcesLive := s.deviceResourcesLive || dev, nvmeResourcesLive := s.nvmeResourcesLive || nvme } :=
  { h with
    error := fun _ => isSome_or _ e
    deviceLive := fun h => by simp [h]
    nvmeLive := fun h => by simp [h]
    marked := fun _ _ => isSome_or _ e
    members := rfl }

/-- Only an event that gives no handle up is recorded. -/
theorem Passes.log (h : Owned cfg lost exact σ) {e : Event} (he : e.freedHandle = none) : Passes cfg lost exact K σ (σ.log e) := by
  have hf : freedIn [e] = 0 := by simp [freedIn, he]
  exact ⟨h.log e, Sheds.same rfl hf rfl, fun _ _ => rfl, fun _ ha => ha, rfl⟩

theorem lookup_put_other {tb : Keyed PageMetadata.id} (hq : q.id = id) : ∀ i, i ≠ id → (tb.put q).lookup i = tb.lookup i :=
  fun _ hi => Keyed.lookup_put_ne _ fun he => hi (he.symm.trans hq)

/-! ## The handles of a page -/

/-- One handle leaves the record. -/
theorem handles_cleared {r : Resource} (hid : q.id = p.id) (ho : p.owned.Perm (r :: q.owned)) :
    p.handles = q.handles + freedIn [.freed t p.id r] := by
  have hfreed : freedIn [.freed t p.id r] = {(p.id, r)} := rfl
  rw [PageMetadata.handles, Multiset.coe_eq_coe.2 (ho.map (Prod.mk p.id)), hfreed, PageMetadata.handles, hid, List.map_cons,
    ← Multiset.cons_coe, ← Multiset.singleton_add, add_comm]

theorem owned_clear_host (hp : p.hostPtr.isSome) : p.owned.Perm (.host :: ({ p with hostPtr := none } : PageMetadata).owned) := by
  simp only [PageMetadata.owned, hp, if_true, Option.isSome_none, Bool.false_eq_true, if_false, List.append_nil, List.append_assoc]
  exact List.perm_middle

theorem owned_clear_vram (hp : p.vramPtr.isSome) : p.owned.Perm (.vram :: ({ p with vramPtr := none } : PageMetadata).owned) := by
  simp only [PageMetadata.owned, hp, if_true, Option.isSome_none, Bool.false_eq_true, if_false, List.nil_append]
  exact List.Perm.refl _

theorem owned_clear_nvme (hp : p.nvmeOffset.isSome) :
    p.owned.Perm (.nvme :: ({ p with nvmeOffset := none, hasNvmeCopy := false } : PageMetadata).owned) := by
  simp only [PageMetadata.owned, hp, if_true, Option.isSome_none, Bool.false_eq_true, if_false, List.append_nil]
  exact List.perm_append_singleton _ _

/-- The page's record is replaced by one without the handle that was given up, and nothing else the loop reads. -/
theorem Passes.put (q : PageMetadata) (evs : List Event) {r : Resource} (hl : σ.table.lookup p.id = some p) (hid : q.id = p.id) (ho : p.owned.Perm (r :: q.owned))
    (howned : Owned cfg lost exact σ') (hh : σ'.history = evs ++ .freed t p.id r :: σ.history) (hevs : freedIn evs = 0)
    (ht : σ'.table = σ.table.put q) (hbuf : ∀ a ∈ σ'.host.allocations.bag, a ∈ σ.host.allocations.bag)
    (hflags : (σ'.running, σ'.stopping, σ'.nextPageId) = (σ.running, σ.stopping, σ.nextPageId)) : Passes cfg lost exact (· = p.id) σ σ' := by
  have hh' : σ'.history = (evs ++ [.freed t p.id r]) ++ σ.history := by rw [hh, List.append_assoc]; rfl
  refine ⟨howned, Sheds.put hl hid hh' ht ?_, ?_, hbuf, hflags⟩
  · rw [freedIn_append, hevs, zero_add]
    exact handles_cleared hid ho
  · rw [ht]
    exact lookup_put_other hid

/-! ## Host memory -/

/-- What is known of a page after a release: its record, which lost at most the handle that was to be released. -/
structure Remains (s : Attempt) (id : PageId) (q q' : PageMetadata) : Prop where
  lookup : s.obj.shared.table.lookup id = some q'
  size : q'.allocationSize = q.allocationSize

theorem set_self (s : Attempt) : s.set s.obj.shared = s := rfl

theorem guarded_ok {calls : Sec Unit} {caught : Attempt → Attempt} (h : calls t (ω.env id) s.obj.shared = (.ok (), σ)) :
    s.guarded t ω id calls caught = s.set σ := by
  simp only [Attempt.guarded, h]

theorem guarded_error {calls : Sec Unit} {caught : Attempt → Attempt} {e : Error}
    (h : calls t (ω.env id) s.obj.shared = (.error e, σ)) : s.guarded t ω id calls caught = caught ((s.set σ).remember e) := by
  simp only [Attempt.guarded, h]

/-- A handle that was given up is recorded and taken out of the page's record. -/
theorem run_clear {e : Nat → Event} {ω : Env} (hl : σ.table.lookup p.id = some p) (f : PageMetadata → PageMetadata) :
    (record e >>= fun _ => withPage p.id f) t ω σ = (.ok (), (σ.log (e t)).setPage (f p)) := by
  have hl' : (σ.log (e t)).table.lookup p.id = some p := hl
  have hr : record e t ω σ = (.ok (), σ.log (e t)) := rfl
  rw [Act.bind_ok hr, withPage_some hl']

/-- The host buffer is released, or its page keeps it: then the device's allocator threw, and the device stays open. -/
theorem releaseHost_turn (ω : TeardownAnswers) (h : Owned cfg lost exact s.obj.shared) (hl : s.obj.shared.table.lookup m.id = some q)
    (hh : q.hostPtr = m.hostPtr) (hs : q.allocationSize = m.allocationSize) :
    LoopTurn cfg lost exact (· = m.id) s (s.releaseHost t ω m) ∧
    ∃ q', Remains (s.releaseHost t ω m) m.id q q' ∧ q'.vramPtr = q.vramPtr ∧ q'.nvmeOffset = q.nvmeOffset ∧
      (q'.hostPtr = none ∧ (s.releaseHost t ω m).firstError = s.firstError ∨
        q'.hostPtr = q.hostPtr ∧ (ω.pinnedFree m.id).isSome ∧ (s.releaseHost t ω m).firstError.isSome ∧
          (s.releaseHost t ω m).deviceResourcesLive = true) := by
  unfold Attempt.releaseHost
  rcases hm : m.hostPtr with _ | ptr
  · rw [hm] at hh
    exact ⟨LoopTurn.refl h, q, ⟨hl, rfl⟩, rfl, rfl, .inl ⟨hh, rfl⟩⟩
  have hid : q.id = m.id := id_of_lookup hl
  rw [hm] at hh
  obtain ⟨a, ha, htier⟩ := h.hostTier (t := t) hl hh {}
  obtain ⟨a', ha', hptr, hbytes, hfree⟩ := h.hostFree (t := t) hl hh (ω.env m.id)
  cases ha.symm.trans ha'
  simp only [Attempt.hostTier, htier, set_self]
  rw [hs] at hfree
  rcases hfree with ⟨e, hpin, hfail, hrun⟩ | hrun
  · have hcalls := Act.bind_error (f := fun _ => do
      record fun t => .freed t m.id .host
      withPage m.id fun p => { p with hostPtr := none }) hrun
    rw [guarded_error hcalls]
    have htrue : a.tier = .hostPinned := by rw [HostAllocation.tier, hpin]; rfl
    rw [htrue, if_pos rfl]
    have hpass : Passes cfg lost exact (· = m.id) s.obj.shared (s.obj.shared.log (.failed t .hostFree)) := .log h rfl
    have hturn := hpass.caught e true false
    simp only [Bool.or_true, Bool.or_false] at hturn
    refine ⟨hturn, q, ⟨hl, rfl⟩, rfl, rfl, .inr ⟨rfl, ?_, isSome_or _ _, rfl⟩⟩
    rw [show ω.pinnedFree m.id = some e from hfail]
    rfl
  · subst hptr
    rw [← hid] at hl
    have hset : ((do hostFree a.ptr m.allocationSize; record fun t => .freed t m.id .host; withPage m.id fun p => { p with hostPtr := none } : Sec Unit)
        t (ω.env m.id) s.obj.shared) = (.ok (), ((s.obj.shared.dropHost a).log (.freed t q.id .host)).setPage { q with hostPtr := none }) := by
      have hl' : (s.obj.shared.dropHost a).table.lookup q.id = some q := hl
      rw [Act.bind_ok hrun, ← hid, run_clear hl']
    rw [guarded_ok hset, ← hid]
    have hpass : Passes cfg lost exact (· = q.id) s.obj.shared (((s.obj.shared.dropHost a).log (.freed t q.id .host)).setPage { q with hostPtr := none }) :=
      Passes.put { q with hostPtr := none } [] hl rfl (owned_clear_host (by rw [hh]; rfl)) (h.shedHost hl hh hbytes ha) rfl rfl rfl
        (fun b hb => (Keyed.mem_erase.1 hb).1) rfl
    exact ⟨hpass.turn, { q with hostPtr := none }, ⟨lookup_setPage _ _, rfl⟩, rfl, rfl, .inl ⟨rfl, rfl⟩⟩

/-! ## Device memory -/

/-- How `device_free` ends for a page's buffer. -/
theorem freeOnDevice_cases {dev : Bool} (hdev : dev = true → cfg.device = true) (ptr : Ptr) (ω : Env) (σ : Shared) :
    (∃ e, Attempt.freeOnDevice cfg dev ptr t ω σ = (.error e, σ) ∧ dev = false) ∨
    (∃ e, Attempt.freeOnDevice cfg dev ptr t ω σ = (.error e, σ.log (.failed t .deviceFree)) ∧ ω.deviceFree = some e) ∨
    Attempt.freeOnDevice cfg dev ptr t ω σ = (.ok (), σ.dropDev ptr) := by
  cases dev with
  | false => exact .inl ⟨_, rfl, rfl⟩
  | true =>
    have hd : cfg.device = true := hdev rfl
    rcases hf : ω.deviceFree with _ | e
    · exact .inr (.inr (by simp [Attempt.freeOnDevice, deviceFree, hd, hf]))
    · exact .inr (.inl ⟨e, by simp [Attempt.freeOnDevice, deviceFree, hd, hf], rfl⟩)

/-- The state once a page's device buffer is free and out of its record. -/
def Shared.withoutVram (σ : Shared) (t : Nat) (q : PageMetadata) (ptr : Ptr) : Shared :=
  ((σ.dropDev ptr).log (.freed t q.id .vram)).setPage { q with vramPtr := none }

/-- The buffer's bytes go back to the budget; only if these are not all in use does that throw, and the record
has lost the buffer before. -/
theorem refundVram_cases {ptr : Ptr} (ω : Env) (h : Owned cfg lost exact σ) (hl : σ.table.lookup q.id = some q) (hv : q.vramPtr = some ptr) :
    ∃ r σ', vramRelease q.allocationSize t ω (σ.withoutVram t q ptr) = (r, σ') ∧ Passes cfg lost exact (· = q.id) σ σ' ∧
      σ'.table.lookup q.id = some { q with vramPtr := none } ∧ (exact → r = .ok ()) := by
  have hperm := owned_clear_vram (p := q) (by rw [hv]; rfl)
  have hlook : (σ.withoutVram t q ptr).table.lookup q.id = some { q with vramPtr := none } := lookup_setPage _ _
  by_cases hle : q.allocationSize ≤ σ.vramBudget.used
  · have howned := h.shedDev (t := t) hl hv { σ.vramBudget with used := σ.vramBudget.used - q.allocationSize }
      fun _ => (Nat.sub_add_cancel hle).symm
    refine ⟨.ok (), (σ.withoutVram t q ptr).setVram { σ.vramBudget with used := σ.vramBudget.used - q.allocationSize }, ?_,
      Passes.put { q with vramPtr := none } [] hl rfl hperm howned rfl rfl rfl (fun _ ha => ha) rfl, hlook, fun _ => rfl⟩
    have hrel : (σ.withoutVram t q ptr).vramBudget.release q.allocationSize = _ := TierBudget.release_of_le hle
    simp only [vramRelease, hrel]
    rfl
  · have hex : ¬exact := fun he => hle (h.vramLe he hl (by rw [hv]; rfl))
    have howned := h.shedDev (t := t) hl hv σ.vramBudget fun he => absurd he hex
    have hrel : (σ.withoutVram t q ptr).vramBudget.release q.allocationSize = none := if_pos (Nat.lt_of_not_le hle)
    have hpass : Passes cfg lost exact (· = q.id) σ ((σ.withoutVram t q ptr).log (.assertion t .overRelease)) :=
      Passes.put { q with vramPtr := none } [.assertion t .overRelease] hl rfl hperm (howned.log _) rfl rfl rfl (fun _ ha => ha) rfl
    refine ⟨.error (overRelease σ.vramBudget q.allocationSize), (σ.withoutVram t q ptr).log (.assertion t .overRelease), ?_, hpass, hlook,
      fun he => absurd he hex⟩
    simp only [vramRelease, hrel]
    rfl

/-- The device buffer is released, or its page keeps it: then the device threw, or there is none, and a device
that is there stays open. -/
theorem releaseVram_turn (ω : TeardownAnswers) (h : Owned cfg lost exact s.obj.shared) (hdev : s.obj.device = true → cfg.device = true)
    (hl : s.obj.shared.table.lookup m.id = some q) (hv : q.vramPtr = m.vramPtr) (hs : q.allocationSize = m.allocationSize) :
    LoopTurn cfg lost exact (· = m.id) s (s.releaseVram cfg t ω m) ∧
    ∃ q', Remains (s.releaseVram cfg t ω m) m.id q q' ∧ q'.hostPtr = q.hostPtr ∧ q'.nvmeOffset = q.nvmeOffset ∧
      (q'.vramPtr = none ∧ (exact → (s.releaseVram cfg t ω m).firstError = s.firstError) ∨
        q'.vramPtr = q.vramPtr ∧ q.vramPtr.isSome ∧ (s.obj.device = true → (ω.deviceFree m.id).isSome) ∧
          (s.releaseVram cfg t ω m).firstError.isSome ∧ (s.releaseVram cfg t ω m).deviceResourcesLive = true) := by
  unfold Attempt.releaseVram
  rcases hm : m.vramPtr with _ | ptr
  · rw [hm] at hv
    exact ⟨LoopTurn.refl h, q, ⟨hl, rfl⟩, rfl, rfl, .inl ⟨hv, fun _ => rfl⟩⟩
  have hid : q.id = m.id := id_of_lookup hl
  rw [hm] at hv
  dsimp only
  -- what the handler does when the record still has the buffer
  have hkept : ∀ {e : Error} {σ : Shared} {f : Unit → Sec Unit}, Attempt.freeOnDevice cfg s.obj.device ptr t (ω.env m.id) s.obj.shared = (.error e, σ) →
      σ.table = s.obj.shared.table →
      s.guarded t ω m.id (Attempt.freeOnDevice cfg s.obj.device ptr >>= f)
        (fun s => if (s.obj.shared.table.lookup m.id).any (·.vramPtr.isSome) then { s with deviceResourcesLive := true } else s) =
      { (s.set σ).remember e with deviceResourcesLive := true } := by
    intro e σ f hrun htab
    rw [guarded_error (Act.bind_error hrun)]
    have hlook : ((s.set σ).remember e).obj.shared.table.lookup m.id = some q := by
      show σ.table.lookup m.id = some q
      rw [htab]
      exact hl
    rw [hlook]
    exact if_pos (by simp [hv])
  rcases freeOnDevice_cases (t := t) hdev ptr (ω.env m.id) s.obj.shared with ⟨e, hrun, hoff⟩ | ⟨e, hrun, hfail⟩ | hrun
  · rw [hkept hrun rfl]
    have hturn := (Passes.refl h : Passes cfg lost exact (· = m.id) _ _).caught e true false
    simp only [Bool.or_true, Bool.or_false] at hturn
    refine ⟨hturn, q, ⟨hl, rfl⟩, rfl, rfl, .inr ⟨rfl, by rw [hv]; rfl, fun hon => ?_, isSome_or _ _, rfl⟩⟩
    rw [hon] at hoff
    cases hoff
  · rw [hkept hrun rfl]
    have hpass : Passes cfg lost exact (· = m.id) s.obj.shared (s.obj.shared.log (.failed t .deviceFree)) := .log h rfl
    have hturn := hpass.caught e true false
    simp only [Bool.or_true, Bool.or_false] at hturn
    refine ⟨hturn, q, ⟨hl, rfl⟩, rfl, rfl, .inr ⟨rfl, by rw [hv]; rfl, fun _ => ?_, isSome_or _ _, rfl⟩⟩
    rw [show ω.deviceFree m.id = some e from hfail]
    rfl
  · rw [← hid] at hl hrun ⊢
    obtain ⟨r, σ', hcall, hpass, hlook, hok⟩ := refundVram_cases (t := t) (ω.env q.id) h hl hv
    have hcalls : (do
        Attempt.freeOnDevice cfg s.obj.device ptr
        record fun t => .freed t q.id .vram
        withPage q.id fun p => { p with vramPtr := none }
        vramRelease m.allocationSize : Sec Unit) t (ω.env q.id) s.obj.shared = (r, σ') := by
      have hl' : ((s.obj.shared.dropDev ptr).log (.freed t q.id .vram)).table.lookup q.id = some q := hl
      have hr : record (fun t => .freed t q.id .vram) t (ω.env q.id) (s.obj.shared.dropDev ptr) =
          (.ok (), (s.obj.shared.dropDev ptr).log (.freed t q.id .vram)) := rfl
      rw [Act.bind_ok hrun, Act.bind_ok hr, Act.bind_ok (withPage_some hl' _), ← hs]
      exact hcall
    cases r with
    | ok _ =>
      rw [guarded_ok hcalls]
      exact ⟨hpass.turn, _, ⟨hlook, rfl⟩, rfl, rfl, .inl ⟨rfl, fun _ => rfl⟩⟩
    | error e =>
      rw [guarded_error hcalls]
      have hgone : ((s.set σ').remember e).obj.shared.table.lookup q.id = some { q with vramPtr := none } := hlook
      rw [hgone]
      have hturn := hpass.caught e false false
      simp only [Bool.or_false] at hturn
      exact ⟨hturn, _, ⟨hlook, rfl⟩, rfl, rfl, .inl ⟨rfl, fun he => by cases hok he⟩⟩

/-! ## The store -/

/-- Extents that only pages own have no operation on them. -/
theorem Owned.activeIo (h : Owned cfg lost exact σ) (he : exact) {i : Nat} (hi : i ∈ σ.store.usedBag) : σ.store.activeIo i = 0 := by
  have hc := Extents.count_ioBag σ.store i
  rw [h.io he, Multiset.count_zero, if_pos (Extents.mem_usedBag.1 hi).1] at hc
  exact hc.symm

/-- How `free_extents` ends for a page's extents: it frees them, or it throws and changes nothing. -/
theorem Owned.freeExtents_cases {off : Nat} (h : Owned cfg lost exact σ) (hl : σ.table.lookup id = some q) (hn : q.nvmeOffset = some off)
    (ω : Env) :
    (∃ e, freeExtents off (q.allocationSize / cfg.pageSize) t ω σ = (.error e, σ.log (.assertion t .freeExtents)) ∧ ¬exact) ∨
    ∃ first n s', freeExtents off (q.allocationSize / cfg.pageSize) t ω σ = (.ok (), σ.setStore s') ∧
      off = (first + 1) * cfg.pageSize ∧ q.allocationSize = n * cfg.pageSize ∧ Extents.Freed σ.store s' first n := by
  have hmem := (Keyed.lookup_some.1 hl).1
  obtain ⟨hok, hpage⟩ := h.store ⟨q, hmem, by rw [hn]; rfl⟩
  obtain ⟨⟨n, hpos, hsize⟩, hoff⟩ := h.placed q hmem
  obtain ⟨first, rfl⟩ := hoff off hn
  have hdiv : q.allocationSize / cfg.pageSize = n := by rw [hsize, Nat.mul_div_cancel _ cfg.page_pos]
  rw [hdiv]
  rcases hrun : σ.store.freeExtents ((first + 1) * cfg.pageSize) n with e | s'
  · refine .inl ⟨e, by simp only [freeExtents, hrun]; rfl, fun he => ?_⟩
    have hin : ∀ i ∈ Extents.range first n, i ∈ σ.store.usedBag := by
      intro i hi
      rw [show σ.store.usedBag = _ from h.ext]
      refine (part_total hmem).mem_ext ?_
      simp only [PageMetadata.parts, PageMetadata.extents, hn]
      rwa [Extents.offset_div cfg.page_pos, hdiv]
    obtain ⟨s', hs', -⟩ := Extents.freeExtents_spec hok hpos hin fun i hi => h.activeIo he (hin i hi)
    rw [hpage, hrun] at hs'
    cases hs'
  · obtain ⟨first', hfirst, hfreed, -⟩ := Extents.freeExtents_ok hok hrun
    rw [hpage] at hfirst
    refine .inr ⟨first', n, s', ?_, hfirst, hsize, hfreed⟩
    have hcount : n ≤ σ.store.usedExtents := by
      rw [hok.count, hfreed.bag, Multiset.card_add, Extents.card_range]
      exact Nat.le_add_right _ _
    simp only [freeExtents, hrun]
    rw [noteWrap_of_not _ _ (by omega)]

/-- The extents are released, or their page keeps them: then the store is closed, or it refused and stays open. -/
theorem releaseNvme_turn (ω : TeardownAnswers) (h : Owned cfg lost exact s.obj.shared) (hl : s.obj.shared.table.lookup m.id = some q)
    (hn : q.nvmeOffset = m.nvmeOffset) (hs : q.allocationSize = m.allocationSize) :
    LoopTurn cfg lost exact (· = m.id) s (s.releaseNvme cfg t ω m) ∧
    ∃ q', Remains (s.releaseNvme cfg t ω m) m.id q q' ∧ q'.hostPtr = q.hostPtr ∧ q'.vramPtr = q.vramPtr ∧
      (q'.nvmeOffset = none ∧ (s.releaseNvme cfg t ω m).firstError = s.firstError ∨
        q'.nvmeOffset = q.nvmeOffset ∧ q.nvmeOffset.isSome ∧ ((s.obj.nvme && s.obj.storeOpened) = true → ¬exact ∧
          (s.releaseNvme cfg t ω m).firstError.isSome ∧ (s.releaseNvme cfg t ω m).nvmeResourcesLive = true)) := by
  unfold Attempt.releaseNvme
  rcases hm : m.nvmeOffset with _ | off
  · rw [hm] at hn
    exact ⟨LoopTurn.refl h, q, ⟨hl, rfl⟩, rfl, rfl, .inl ⟨hn, rfl⟩⟩
  rw [hm] at hn
  dsimp only
  by_cases hopen : (s.obj.nvme && s.obj.storeOpened) = true
  swap
  · rw [if_neg hopen]
    exact ⟨LoopTurn.refl h, q, ⟨hl, rfl⟩, rfl, rfl, .inr ⟨rfl, by rw [hn]; rfl, fun ho => absurd ho hopen⟩⟩
  rw [if_pos hopen]
  have hid : q.id = m.id := id_of_lookup hl
  have hcases := h.freeExtents_cases (t := t) hl hn (ω.env m.id)
  rw [hs] at hcases
  rcases hcases with ⟨e, hrun, hex⟩ | ⟨first, n, s', hrun, hoff, hsize, hfreed⟩
  · rw [guarded_error (Act.bind_error hrun)]
    have hlook : ((s.set (s.obj.shared.log (.assertion t .freeExtents))).remember e).obj.shared.table.lookup m.id = some q := hl
    rw [hlook, if_pos (by simp [hn])]
    have hpass : Passes cfg lost exact (· = m.id) s.obj.shared (s.obj.shared.log (.assertion t .freeExtents)) := .log h rfl
    have hturn := hpass.caught e false true
    simp only [Bool.or_true, Bool.or_false] at hturn
    exact ⟨hturn, q, ⟨hl, rfl⟩, rfl, rfl, .inr ⟨rfl, by rw [hn]; rfl, fun _ => ⟨hex, isSome_or _ _, rfl⟩⟩⟩
  · rw [← hid] at hl hrun ⊢
    have hle : q.allocationSize ≤ s.obj.shared.nvmeBudget.used := h.nvmeLe hl (by rw [hn]; rfl)
    have howned := h.shedNvme (t := t) hl (hn.trans (congrArg some hoff)) (hs.trans hsize) hfreed
    have hpass : Passes cfg lost exact (· = q.id) s.obj.shared _ :=
      Passes.put { q with nvmeOffset := none, hasNvmeCopy := false } [] hl rfl (owned_clear_nvme (by rw [hn]; rfl)) howned rfl rfl rfl
        (fun _ ha => ha) rfl
    have hcalls : (do
        freeExtents off (m.allocationSize / cfg.pageSize)
        record fun t => .freed t q.id .nvme
        withPage q.id fun p => { p with nvmeOffset := none, hasNvmeCopy := false }
        nvmeRelease m.allocationSize : Sec Unit) t (ω.env q.id) s.obj.shared =
        (.ok (), (((s.obj.shared.setStore s').log (.freed t q.id .nvme)).setPage { q with nvmeOffset := none, hasNvmeCopy := false }).setNvme
          { s.obj.shared.nvmeBudget with used := s.obj.shared.nvmeBudget.used - q.allocationSize }) := by
      have hl' : ((s.obj.shared.setStore s').log (.freed t q.id .nvme)).table.lookup q.id = some q := hl
      have hr : record (fun t => .freed t q.id .nvme) t (ω.env q.id) (s.obj.shared.setStore s') =
          (.ok (), (s.obj.shared.setStore s').log (.freed t q.id .nvme)) := rfl
      rw [Act.bind_ok hrun, Act.bind_ok hr, Act.bind_ok (withPage_some hl' _), ← hs]
      have hrel : (((s.obj.shared.setStore s').log (.freed t q.id .nvme)).setPage
          { q with nvmeOffset := none, hasNvmeCopy := false }).nvmeBudget.release q.allocationSize = _ := TierBudget.release_of_le hle
      simp only [nvmeRelease, hrel]
      rfl
    rw [guarded_ok hcalls]
    exact ⟨hpass.turn, _, ⟨lookup_setPage _ _, rfl⟩, rfl, rfl, .inl ⟨rfl, rfl⟩⟩

/-! ## A page's turn -/

/-- A page that is still in the table after its turn: something of it could not be released. -/
structure Leftover (s : Attempt) (q : PageMetadata) : Prop where
  error : s.firstError.isSome
  owned : q.owned ≠ []
  host : q.hostPtr.isSome → s.deviceResourcesLive = true
  vram : q.vramPtr.isSome → s.deviceResourcesLive = true
  nvme : q.nvmeOffset.isSome → s.nvmeResourcesLive = true

theorem Leftover.turn (hk : Leftover s q) (h : LoopTurn cfg lost exact K s s') : Leftover s' q :=
  ⟨h.error hk.error, hk.owned, fun hq => h.deviceLive (hk.host hq), fun hq => h.deviceLive (hk.vram hq), fun hq => h.nvmeLive (hk.nvme hq)⟩

/-- What holds of the object between two turns: a device or store that is gone has no handle left. -/
structure Members (cfg : RuntimeConfig) (exact : Prop) (obj : Instance) : Prop where
  device : ∀ p ∈ obj.shared.table.bag, obj.device = true → cfg.device = true
  noDevice : exact ∨ cfg.device = true → obj.device = false → ∀ p ∈ obj.shared.table.bag, p.vramPtr = none
  noStore : (obj.nvme && obj.storeOpened) = false → ∀ p ∈ obj.shared.table.bag, p.nvmeOffset = none
  opened : obj.storeOpened = true → obj.nvme = true

/-- Nothing the turn of the page calls fails. -/
def TeardownAnswers.Serves (ω : TeardownAnswers) (id : PageId) : Prop := ω.pinnedFree id = none ∧ ω.deviceFree id = none

theorem owned_eq_nil (q : PageMetadata) : q.owned = [] ↔ q.hostPtr = none ∧ q.vramPtr = none ∧ q.nvmeOffset = none := by
  unfold PageMetadata.owned
  cases q.hostPtr <;> cases q.vramPtr <;> cases q.nvmeOffset <;> simp

theorem eraseEmpty_turn (h : Owned cfg lost exact s.obj.shared) (hl : s.obj.shared.table.lookup id = some q) :
    LoopTurn cfg lost exact (· = id) s (s.eraseEmpty id) ∧ (s.eraseEmpty id).firstError = s.firstError ∧
      ∀ q', (s.eraseEmpty id).obj.shared.table.lookup id = some q' → q' = q ∧ q.owned ≠ [] := by
  unfold Attempt.eraseEmpty
  rw [hl]
  by_cases hq : q.owned = []
  · rw [if_pos (by simp [hq])]
    have hh : q.handles = 0 := by rw [PageMetadata.handles, hq]; rfl
    have hsheds : Sheds s.obj.shared (s.obj.shared.erasePage id) := by
      refine ⟨[], rfl, ?_⟩
      rw [handles_of_lookup hl, hh, zero_add]
      exact (add_zero _).symm
    have hpass : Passes cfg lost exact (· = id) s.obj.shared (s.obj.shared.erasePage id) :=
      ⟨h.erase hl hq, hsheds, fun i hi => Keyed.lookup_erase_ne _ (Ne.symm hi), fun _ ha => ha, rfl⟩
    refine ⟨hpass.turn, rfl, fun q' hq' => ?_⟩
    have hnone : (s.obj.shared.table.erase id).lookup id = none := Keyed.lookup_erase_self _ _
    rw [show (s.obj.shared.table.erase id).lookup id = some q' from hq'] at hnone
    cases hnone
  · rw [if_neg (by simpa using hq)]
    refine ⟨LoopTurn.refl h, rfl, fun q' hq' => ?_⟩
    cases hl.symm.trans hq'
    exact ⟨rfl, hq⟩

/-- A page's turn: it leaves the table, or is kept; and if every call serves, no error is added. -/
theorem releasePage_turn (ω : TeardownAnswers) (h : Owned cfg lost exact s.obj.shared) (hm : Members cfg exact s.obj) (hl : s.obj.shared.table.lookup id = some m) :
    LoopTurn cfg lost exact (· = id) s (s.releasePage cfg t ω id) ∧
    (∀ q, (s.releasePage cfg t ω id).obj.shared.table.lookup id = some q → Leftover (s.releasePage cfg t ω id) q ∧
      (q.vramPtr.isSome → m.vramPtr.isSome) ∧ (q.nvmeOffset.isSome → m.nvmeOffset.isSome)) ∧
    (exact → ω.Serves id → (s.releasePage cfg t ω id).firstError = s.firstError) := by
  obtain rfl := id_of_lookup hl
  unfold Attempt.releasePage
  rw [hl]
  dsimp only
  obtain ⟨h₁, q₁, r₁, v₁, n₁, c₁⟩ := releaseHost_turn (t := t) ω h hl rfl rfl
  generalize hs₁ : s.releaseHost t ω m = s₁ at h₁ r₁ c₁ ⊢
  have hobj₁ := h₁.sameMembers
  obtain ⟨h₂, q₂, r₂, p₂, n₂, c₂⟩ := releaseVram_turn (t := t) ω h₁.owned (fun hd => hm.device m (Keyed.lookup_some.1 hl).1 (hobj₁.1 ▸ hd)) r₁.lookup v₁ r₁.size
  generalize hs₂ : s₁.releaseVram cfg t ω m = s₂ at h₂ r₂ c₂ ⊢
  have hobj₂ := (h₁.trans h₂).sameMembers.2
  obtain ⟨h₃, q₃, r₃, p₃, v₃, c₃⟩ := releaseNvme_turn (t := t) ω h₂.owned r₂.lookup (n₂.trans n₁) (r₂.size.trans r₁.size)
  generalize hs₃ : s₂.releaseNvme cfg t ω m = s₃ at h₃ r₃ c₃ ⊢
  obtain ⟨h₄, he, hq⟩ := eraseEmpty_turn h₃.owned r₃.lookup
  have hmem : m ∈ s.obj.shared.table.bag := (Keyed.lookup_some.1 hl).1
  -- a handle that is left was there before, and its release failed
  have hhost : q₃.hostPtr.isSome → (ω.pinnedFree m.id).isSome ∧ s₁.firstError.isSome ∧ s₁.deviceResourcesLive = true := by
    intro hsome
    rw [p₃, p₂] at hsome
    rcases c₁ with ⟨hn, -⟩ | ⟨-, hf, hr⟩
    · rw [hn] at hsome
      cases hsome
    · exact ⟨hf, hr⟩
  have hvram : q₃.vramPtr.isSome → m.vramPtr.isSome ∧ (s.obj.device = true → (ω.deviceFree m.id).isSome) ∧ s₂.firstError.isSome ∧
      s₂.deviceResourcesLive = true := by
    intro hsome
    rw [v₃] at hsome
    rcases c₂ with ⟨hn, -⟩ | ⟨-, hv, hf, hr⟩
    · rw [hn] at hsome
      cases hsome
    · exact ⟨v₁ ▸ hv, fun hd => hf (hobj₁.1.trans hd), hr⟩
  have hnvme : q₃.nvmeOffset.isSome → m.nvmeOffset.isSome ∧ ¬exact ∧ s₃.firstError.isSome ∧ s₃.nvmeResourcesLive = true := by
    intro hsome
    rcases c₃ with ⟨hn, -⟩ | ⟨-, hv, hf⟩
    · rw [hn] at hsome
      cases hsome
    · have hsome' : m.nvmeOffset.isSome := n₁ ▸ n₂ ▸ hv
      refine ⟨hsome', hf ?_⟩
      rw [hobj₂.1, hobj₂.2]
      by_contra hno
      rw [hm.noStore (Bool.eq_false_of_not_eq_true hno) m hmem] at hsome'
      cases hsome'
  have h₁₃ := h₂.trans h₃
  refine ⟨((h₁.trans h₂).trans h₃).trans h₄, fun q hlook => ?_, fun hex hserve => ?_⟩
  · obtain ⟨rfl, hown⟩ := hq q hlook
    have hkept : Leftover s₃ q := by
      refine ⟨?_, hown, fun hx => h₁₃.deviceLive (hhost hx).2.2, fun hx => h₃.deviceLive (hvram hx).2.2.2, fun hx => (hnvme hx).2.2.2⟩
      by_contra hno
      refine hown ((owned_eq_nil q).2 ⟨?_, ?_, ?_⟩)
      · exact Option.not_isSome_iff_eq_none.1 fun hx => hno (h₁₃.error (hhost hx).2.1)
      · exact Option.not_isSome_iff_eq_none.1 fun hx => hno (h₃.error (hvram hx).2.2.1)
      · exact Option.not_isSome_iff_eq_none.1 fun hx => hno (hnvme hx).2.2.1
    exact ⟨hkept.turn h₄, fun hx => (hvram hx).1, fun hx => (hnvme hx).1⟩
  · have e₁ : s₁.firstError = s.firstError := by
      rcases c₁ with ⟨-, he⟩ | ⟨-, hf, -⟩
      · exact he
      · rw [hserve.1] at hf
        cases hf
    have e₂ : s₂.firstError = s₁.firstError := by
      rcases c₂ with ⟨-, he⟩ | ⟨-, hv, hf, -⟩
      · exact he hex
      · rw [hserve.2] at hf
        have hoff : s₁.obj.device = false := Bool.eq_false_of_not_eq_true fun hd => by cases hf hd
        rw [v₁, hm.noDevice (.inl hex) (hobj₁.1 ▸ hoff) m hmem] at hv
        cases hv
    have e₃ : s₃.firstError = s₂.firstError := by
      rcases c₃ with ⟨-, he⟩ | ⟨hsame, hv, -⟩
      · exact he
      · exact absurd hex (hnvme (hsame ▸ hv)).2.1
    rw [he, e₃, e₂, e₁]

/-! ## The release loop -/

/-- What holds of every page still holds when one page has lost handles. -/
theorem forall_of_turn {P : PageMetadata → Prop} (h : LoopTurn cfg lost exact (· = id) s s')
    (hid : ∀ q, s'.obj.shared.table.lookup id = some q → P q) (hall : ∀ p ∈ s.obj.shared.table.bag, P p) :
    ∀ p ∈ s'.obj.shared.table.bag, P p := by
  intro p hp
  have hl := Keyed.lookup_of_mem hp
  by_cases hpid : p.id = id
  · rw [hpid] at hl
    exact hid p hl
  · rw [h.others p.id hpid] at hl
    exact hall p (Keyed.lookup_some.1 hl).1

theorem Members.turn (hm : Members cfg exact s.obj) (h : LoopTurn cfg lost exact (· = id) s s') (hl : s.obj.shared.table.lookup id = some m)
    (hq : ∀ q, s'.obj.shared.table.lookup id = some q → (q.vramPtr.isSome → m.vramPtr.isSome) ∧ (q.nvmeOffset.isSome → m.nvmeOffset.isSome)) :
    Members cfg exact s'.obj := by
  obtain ⟨hdev, hnvme, hopen⟩ := h.sameMembers
  have hmem := (Keyed.lookup_some.1 hl).1
  refine ⟨fun _ _ hd => hm.device m (Keyed.lookup_some.1 hl).1 (hdev ▸ hd), fun hex hd => ?_, fun hs => ?_, fun ho => hnvme ▸ hm.opened (hopen ▸ ho)⟩
  · have hnone := hm.noDevice hex (hdev ▸ hd)
    refine forall_of_turn h (fun q hlook => ?_) hnone
    refine Option.not_isSome_iff_eq_none.1 fun hx => ?_
    have := (hq q hlook).1 hx
    rw [hnone m hmem] at this
    cases this
  · rw [hnvme, hopen] at hs
    have hnone := hm.noStore hs
    refine forall_of_turn h (fun q hlook => ?_) hnone
    refine Option.not_isSome_iff_eq_none.1 fun hx => ?_
    have := (hq q hlook).2 hx
    rw [hnone m hmem] at this
    cases this

/-- The turns of some pages, one after another: each leaves the table or is kept. -/
theorem releaseLoop_turn (ω : TeardownAnswers) : ∀ (l : List PageId) {s : Attempt}, Owned cfg lost exact s.obj.shared → Members cfg exact s.obj → l.Nodup →
    (∀ i ∈ l, (s.obj.shared.table.lookup i).isSome) →
    LoopTurn cfg lost exact (· ∈ l) s (l.foldl (Attempt.releasePage cfg t ω) s) ∧
    Members cfg exact (l.foldl (Attempt.releasePage cfg t ω) s).obj ∧
    (∀ i ∈ l, ∀ q, (l.foldl (Attempt.releasePage cfg t ω) s).obj.shared.table.lookup i = some q →
      Leftover (l.foldl (Attempt.releasePage cfg t ω) s) q) ∧
    (exact → (∀ i ∈ l, ω.Serves i) → (l.foldl (Attempt.releasePage cfg t ω) s).firstError = s.firstError)
  | [], s, h, hm, _, _ => ⟨(LoopTurn.refl h : LoopTurn cfg lost exact (fun _ => False) s s).mono fun _ hf => hf.elim, hm,
      fun i hi => absurd hi List.not_mem_nil, fun _ _ => rfl⟩
  | i :: l, s, h, hm, hnd, hin => by
    obtain ⟨hni, hnd⟩ := List.nodup_cons.1 hnd
    obtain ⟨m, hl⟩ := Option.isSome_iff_exists.1 (hin i (List.mem_cons_self ..))
    obtain ⟨h₁, hq, he⟩ := releasePage_turn (t := t) ω h hm hl
    have hm₁ := hm.turn h₁ hl fun q hlook => (hq q hlook).2
    have hin₁ : ∀ j ∈ l, ((s.releasePage cfg t ω i).obj.shared.table.lookup j).isSome := by
      intro j hj
      have hji : ¬j = i := fun hji => hni (hji ▸ hj)
      rw [h₁.others j hji]
      exact hin j (List.mem_cons_of_mem _ hj)
    obtain ⟨h₂, hm₂, hk, he₂⟩ := releaseLoop_turn ω l h₁.owned hm₁ hnd hin₁
    rw [List.foldl_cons]
    refine ⟨(h₁.mono fun j hj => hj ▸ List.mem_cons_self ..).trans (h₂.mono fun j hj => List.mem_cons_of_mem _ hj), hm₂, fun j hj q hlook => ?_,
      fun hex hserve => ?_⟩
    · rcases List.mem_cons.1 hj with rfl | hj
      · rw [h₂.others j hni] at hlook
        exact (hq q hlook).1.turn h₂
      · exact hk j hj q hlook
    · rw [he₂ hex fun j hj => hserve j (List.mem_cons_of_mem _ hj)]
      exact he hex (hserve i (List.mem_cons_self ..))

theorem mem_ids {i : PageId} : i ∈ Attempt.ids σ ↔ (σ.table.lookup i).isSome := by
  rw [Attempt.ids, List.mem_insertionSort]
  constructor
  · intro hi
    obtain ⟨p, hp, rfl⟩ := List.mem_map.1 hi
    rw [Keyed.lookup_of_mem (Keyed.mem_bag.2 hp)]
    rfl
  · intro hi
    obtain ⟨p, hp⟩ := Option.isSome_iff_exists.1 hi
    obtain ⟨hmem, rfl⟩ := Keyed.lookup_some.1 hp
    exact List.mem_map.2 ⟨p, Keyed.mem_bag.1 hmem, rfl⟩

theorem nodup_ids (σ : Shared) : (Attempt.ids σ).Nodup := by
  have hp : (Attempt.ids σ).Perm (σ.table.items.map PageMetadata.id) := List.perm_insertionSort _ _
  exact hp.nodup_iff.2 σ.table.nodup

/-- The whole loop: every page still in the table is kept. -/
theorem releaseAll_turn (ω : TeardownAnswers) (h : Owned cfg lost exact s.obj.shared) (hm : Members cfg exact s.obj) :
    LoopTurn cfg lost exact (fun _ => True) s (s.releaseAll cfg t ω) ∧ Members cfg exact (s.releaseAll cfg t ω).obj ∧
    (∀ q ∈ (s.releaseAll cfg t ω).obj.shared.table.bag, Leftover (s.releaseAll cfg t ω) q) ∧
    (exact → (∀ i, ω.Serves i) → (s.releaseAll cfg t ω).firstError = s.firstError) := by
  obtain ⟨h₁, hm₁, hk, he⟩ := releaseLoop_turn (t := t) ω (Attempt.ids s.obj.shared) h hm (nodup_ids _) fun i hi => mem_ids.1 hi
  have hclear : LoopTurn cfg lost exact (fun _ => True) ((Attempt.ids s.obj.shared).foldl (Attempt.releasePage cfg t ω) s) (s.releaseAll cfg t ω) := by
    have hpass : Passes cfg lost exact (fun _ => True) ((Attempt.ids s.obj.shared).foldl (Attempt.releasePage cfg t ω) s).obj.shared
        { ((Attempt.ids s.obj.shared).foldl (Attempt.releasePage cfg t ω) s).obj.shared with prefetched := [] } :=
      ⟨h₁.owned.same rfl rfl rfl rfl rfl rfl, .same (List.nil_append _).symm rfl rfl, fun _ _ => rfl, fun _ ha => ha, rfl⟩
    exact hpass.turn
  refine ⟨(h₁.mono fun _ _ => trivial).trans hclear, ⟨hm₁.device, hm₁.noDevice, hm₁.noStore, hm₁.opened⟩, fun q hq => ?_, fun hex hs => he hex fun i _ => hs i⟩
  have hlook : ((Attempt.ids s.obj.shared).foldl (Attempt.releasePage cfg t ω) s).obj.shared.table.lookup q.id = some q := Keyed.lookup_of_mem hq
  have hid : q.id ∈ Attempt.ids s.obj.shared := by
    by_contra hno
    rw [h₁.others q.id hno] at hlook
    refine hno (mem_ids.2 ?_)
    rw [hlook]
    rfl
  exact (hk q.id hid q hlook).turn hclear

end FlashTier
