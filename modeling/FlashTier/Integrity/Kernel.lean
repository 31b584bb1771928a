/-
The device's fill of a page (`cuda_backend.cu`): the launch of `fill_device_pattern` and what each thread of
`fill_pattern_kernel` writes. Whatever the order in which the threads run, the page holds what the host's
`fill_pattern` writes.
-/
import FlashTier.Integrity.Pattern
import FlashTier.Runtime.Page

namespace FlashTier

open Codec

/-! ## Launch -/

/-- What `fill_device_pattern` finds of the backend and of its arguments. -/
structure FillCall where
  opened : Bool := true
  /-- the device pointer is not null -/
  pointer : Bool := true
  ownsRange : Bool := true
  ownsStart : Bool := true
  streamKnown : Bool := true

/-- The geometry of a kernel launch. -/
structure Launch where
  blocks : UInt32
  threads : UInt32

/-- `fill_device_pattern` up to the launch. -/
def fillDevicePattern (call : FillCall) (bytes : UInt64) : Except Error Launch :=
  if !call.opened then .error ⟨.state, "cuda backend is not open", ""⟩
  else if !call.pointer || bytes = 0 then .error ⟨.invalidArgument, "cuda backend: invalid device pattern range", ""⟩
  else if (0xFFFFFFFF : UInt32).toUInt64 * 256 < bytes then
    .error ⟨.invalidArgument, "cuda backend: pattern range exceeds kernel launch geometry", ""⟩
  else
    let threads : UInt32 := 256
    let blocks := ((bytes + threads.toUInt64 - 1) / threads.toUInt64).toUInt32
    if !call.ownsRange then
      if call.ownsStart then .error ⟨.invalidArgument, "cuda backend: pattern range exceeds allocation", ""⟩
      else .error ⟨.state, "cuda backend: pattern destination is not owned", ""⟩
    else if !call.streamKnown then .error ⟨.state, "cuda backend: unknown stream", ""⟩
    else .ok ⟨blocks, threads⟩

/-- The threads of a launch: the index of the block, and that of the thread in it. -/
def Launch.grid (launch : Launch) : List (UInt32 × UInt32) :=
  (List.range launch.blocks.toNat).flatMap fun b =>
    (List.range launch.threads.toNat).map fun t => (UInt32.ofNat b, UInt32.ofNat t)

/-! ## The kernel -/

/-- The offset a thread works on. -/
def Launch.index (launch : Launch) (thread : UInt32 × UInt32) : UInt64 :=
  thread.1.toUInt64 * launch.threads.toUInt64 + thread.2.toUInt64

/-- `fill_pattern_kernel`: the offset and the byte one thread writes. -/
def fillPatternKernel (launch : Launch) (bytes seed pageId : UInt64) (thread : UInt32 × UInt32) : Option (UInt64 × UInt8) :=
  let i := launch.index thread
  if bytes ≤ i then none
  else
    let block := i / 8
    let x := seed ^^^ (pageId * 0x9E3779B97F4A7C15) ^^^ block
    let x := x + 0x9E3779B97F4A7C15
    let x := (x ^^^ (x >>> 30)) * 0xBF58476D1CE4E5B9
    let x := (x ^^^ (x >>> 27)) * 0x94D049BB133111EB
    let x := x ^^^ (x >>> 31)
    some (i, (x >>> (i % 8 * 8)).toUInt8)

/-- Memory after writes, in their order. -/
def writeAll (mem : Bytes) (writes : List (UInt64 × UInt8)) : Bytes :=
  writes.foldl (fun mem w i => if i = w.1.toNat then w.2 else mem i) mem

variable {launch : Launch} {bytes seed pageId : UInt64} {thread : UInt32 × UInt32}

/-- A thread computes the byte of its offset as the host does. -/
theorem kernel_byte (seed pageId i : UInt64) :
    (splitmix64 (seed ^^^ (pageId * 0x9E3779B97F4A7C15) ^^^ (i / 8)) >>> (i % 8 * 8)).toUInt8 = patternByte seed pageId i.toNat := by
  have hdiv : UInt64.ofNat (i.toNat / 8) = i / 8 := by
    apply UInt64.toNat.inj
    rw [UInt64.toNat_ofNat_of_lt' (lt_of_le_of_lt (Nat.div_le_self _ _) i.toNat_lt), UInt64.toNat_div]
    rfl
  have hmod : UInt64.ofNat (i.toNat % 8 * 8) = i % 8 * 8 := by
    have hlt : i.toNat % 8 < 8 := Nat.mod_lt _ (by decide)
    apply UInt64.toNat.inj
    rw [UInt64.toNat_ofNat_of_lt' (by show _ < 2 ^ 64; omega), UInt64.toNat_mul, UInt64.toNat_mod]
    show _ = i.toNat % 8 * 8 % 2 ^ 64
    omega
  rw [patternByte, byteOf, patternBlock, hdiv, hmod]

theorem fillPatternKernel_eq (launch : Launch) (bytes seed pageId : UInt64) (thread : UInt32 × UInt32) :
    fillPatternKernel launch bytes seed pageId thread =
      if bytes ≤ launch.index thread then none
      else some (launch.index thread, patternByte seed pageId (launch.index thread).toNat) := by
  rw [← kernel_byte seed pageId]
  rfl

/-! ## Coverage -/

variable {call : FillCall}

/-- The geometry of an accepted call. -/
theorem launch_geometry (h : fillDevicePattern call bytes = .ok launch) :
    launch.threads = 256 ∧ launch.blocks.toNat = (bytes.toNat + 255) / 256 := by
  unfold fillDevicePattern at h
  repeat' split at h
  all_goals cases h
  rename_i hmax _ _
  have hle : bytes.toNat ≤ (2 ^ 32 - 1) * 256 := by
    have hmax' := UInt64.le_iff_toNat_le.1 (UInt64.not_lt.1 hmax)
    exact hmax'
  have hsum : (bytes + (256 : UInt32).toUInt64 - 1).toNat = bytes.toNat + 255 := by
    have h256 : (bytes + (256 : UInt32).toUInt64).toNat = bytes.toNat + 256 := by
      rw [UInt64.toNat_add]
      show (bytes.toNat + 256) % 2 ^ 64 = _
      omega
    rw [UInt64.toNat_sub_of_le _ _ (UInt64.le_iff_toNat_le.2 (by rw [h256]; show 1 ≤ _; omega)), h256]
    rfl
  refine ⟨rfl, ?_⟩
  rw [UInt64.toNat_toUInt32, UInt64.toNat_div, hsum]
  show (bytes.toNat + 255) / 256 % 2 ^ 32 = _
  omega

/-- The offset of a thread of the grid. -/
theorem index_toNat (ht : launch.threads = 256) {b t : Nat} (hb : b < launch.blocks.toNat) (htl : t < 256) :
    (launch.index (UInt32.ofNat b, UInt32.ofNat t)).toNat = b * 256 + t := by
  have hb32 : b < 2 ^ 32 := hb.trans launch.blocks.toNat_lt
  rw [Launch.index, ht, UInt64.toNat_add, UInt64.toNat_mul]
  simp only [UInt32.toNat_toUInt64, UInt32.toNat_ofNat_of_lt' hb32, UInt32.toNat_ofNat_of_lt' (htl.trans (by decide))]
  show (b * 256 % 2 ^ 64 + t) % 2 ^ 64 = _
  omega

/-- The threads work on the offsets up to the end of the last block, each on its own. -/
theorem map_index_grid (ht : launch.threads = 256) :
    launch.grid.map (fun thread => (launch.index thread).toNat) = List.range (launch.blocks.toNat * 256) := by
  rw [range_mul_blocks, Launch.grid, List.map_flatMap]
  refine List.flatMap_congr fun b hb => ?_
  rw [List.map_map, ht]
  exact List.map_congr_left fun t htl => index_toNat ht (List.mem_range.1 hb) (List.mem_range.1 htl)

/-- Memory where all the writes of an offset agree. -/
theorem writeAll_apply {i : Nat} {v : UInt8} : ∀ {writes : List (UInt64 × UInt8)} (mem : Bytes), (∀ w ∈ writes, w.1.toNat = i → w.2 = v) →
    writeAll mem writes i = if ∃ w ∈ writes, w.1.toNat = i then v else mem i
  | [], mem, _ => by simp [writeAll]
  | w :: writes, mem, h => by
    rw [writeAll, List.foldl_cons]
    have ih := writeAll_apply (fun i => if i = w.1.toNat then w.2 else mem i) fun w' hw' => h w' (List.mem_cons_of_mem w hw')
    rw [writeAll] at ih
    rw [ih]
    by_cases hrest : ∃ w' ∈ writes, w'.1.toNat = i
    · obtain ⟨w', hw', hi⟩ := hrest
      rw [if_pos ⟨w', hw', hi⟩, if_pos ⟨w', List.mem_cons_of_mem w hw', hi⟩]
    · rw [if_neg hrest]
      by_cases hw : w.1.toNat = i
      · rw [if_pos hw.symm, if_pos ⟨w, List.mem_cons_self .., hw⟩, h w (List.mem_cons_self ..) hw]
      · rw [if_neg (Ne.symm hw), if_neg]
        rintro ⟨w', hw', hi⟩
        rcases List.mem_cons.1 hw' with rfl | hw'
        · exact hw hi
        · exact hrest ⟨w', hw', hi⟩

/-- What the threads write to an offset. -/
theorem mem_writes {order : List (UInt32 × UInt32)} {w : UInt64 × UInt8} :
    w ∈ order.filterMap (fillPatternKernel launch bytes seed pageId) ↔
      ∃ thread ∈ order, launch.index thread < bytes ∧ w = (launch.index thread, patternByte seed pageId (launch.index thread).toNat) := by
  rw [List.mem_filterMap]
  refine exists_congr fun thread => and_congr_right fun _ => ?_
  rw [fillPatternKernel_eq]
  split
  · rename_i hle
    constructor
    · intro h
      cases h
    · rintro ⟨hlt, -⟩
      exact absurd hle (UInt64.not_le.2 hlt)
  · rename_i hlt
    rw [Option.some.injEq]
    exact ⟨fun h => ⟨UInt64.not_le.1 hlt, h.symm⟩, fun h => h.2.symm⟩

/-- For every size that fits the launch geometry: the launch is accepted; its blocks of 256 threads work on
each offset of the page exactly once and write nothing else; and in every order of the threads the page gets
the host's pattern. -/
theorem kernel_fills (bytes : UInt64) (hpos : 1 ≤ bytes.toNat) (hmax : bytes.toNat ≤ (2 ^ 32 - 1) * 256) (seed pageId : UInt64) :
    (∃ launch, fillDevicePattern {} bytes = .ok launch) ∧
    ∀ call launch, fillDevicePattern call bytes = .ok launch →
      (launch.threads = 256 ∧ launch.blocks.toNat = (bytes.toNat + 255) / 256) ∧
      (∀ i < bytes.toNat, launch.grid.countP (fun thread => (launch.index thread).toNat = i) = 1) ∧
      (∀ thread ∈ launch.grid, ∀ w, fillPatternKernel launch bytes seed pageId thread = some w →
        w.1 = launch.index thread ∧ w.1 < bytes) ∧
      ∀ order : List (UInt32 × UInt32), order.Perm launch.grid → ∀ mem i,
        writeAll mem (order.filterMap (fillPatternKernel launch bytes seed pageId)) i =
          (fillPattern bytes.toNat seed pageId)[i]?.getD (mem i) := by
  refine ⟨?_, fun call launch h => ?_⟩
  · have h0 : bytes ≠ 0 := by
      rintro rfl
      exact absurd hpos (by decide)
    have hlim : ¬(0xFFFFFFFF : UInt32).toUInt64 * 256 < bytes := by
      rw [UInt64.not_lt, UInt64.le_iff_toNat_le]
      exact hmax
    unfold fillDevicePattern
    rw [if_neg (by decide), if_neg (by simp [h0]), if_neg hlim, if_neg (by decide), if_neg (by decide)]
    exact ⟨_, rfl⟩
  obtain ⟨ht, hb⟩ := launch_geometry h
  have hcover : ∀ i < bytes.toNat, ∃ thread ∈ launch.grid, (launch.index thread).toNat = i := by
    intro i hi
    have hmem : i ∈ launch.grid.map fun thread => (launch.index thread).toNat := by
      rw [map_index_grid ht, List.mem_range, hb]
      omega
    exact List.mem_map.1 hmem
  refine ⟨⟨ht, hb⟩, fun i hi => ?_, fun thread hth w hw => ?_, fun order horder mem i => ?_⟩
  · have hcount : launch.grid.countP (fun thread => (launch.index thread).toNat = i) =
        (launch.grid.map fun thread => (launch.index thread).toNat).count i := by
      rw [List.count, List.countP_map]
      exact List.countP_congr fun thread _ => by simp
    rw [hcount, map_index_grid ht]
    exact List.count_eq_one_of_mem List.nodup_range (List.mem_range.2 (by rw [hb]; omega))
  · obtain ⟨thread', hth', hlt, rfl⟩ := mem_writes.1 (List.mem_filterMap.2 ⟨thread, List.mem_singleton_self thread, hw⟩)
    obtain rfl := List.mem_singleton.1 hth'
    exact ⟨rfl, hlt⟩
  · rw [writeAll_apply (v := patternByte seed pageId i) mem ?_]
    · by_cases hi : i < bytes.toNat
      · obtain ⟨thread, hth, rfl⟩ := hcover i hi
        rw [getElem?_fillPattern seed pageId hi, Option.getD_some, if_pos]
        exact ⟨_, mem_writes.2 ⟨thread, horder.mem_iff.2 hth, UInt64.lt_iff_toNat_lt.2 hi, rfl⟩, rfl⟩
      · rw [List.getElem?_eq_none (by rw [length_fillPattern]; omega), Option.getD_none, if_neg]
        rintro ⟨w, hw, rfl⟩
        obtain ⟨thread, -, hlt, rfl⟩ := mem_writes.1 hw
        exact hi (UInt64.lt_iff_toNat_lt.1 hlt)
    · intro w hw hwi
      obtain ⟨thread, -, -, rfl⟩ := mem_writes.1 hw
      rw [← hwi]

theorem kernel_fills_tail : ∃ launch, fillDevicePattern {} 259 = .ok launch ∧ launch.blocks.toNat = 2 ∧
    ∀ mem i, writeAll mem (launch.grid.filterMap (fillPatternKernel launch 259 7 1)) i = (fillPattern 259 7 1)[i]?.getD (mem i) := by
  obtain ⟨⟨launch, h⟩, hall⟩ := kernel_fills 259 (by decide) (by decide) 7 1
  obtain ⟨⟨-, hb⟩, -, -, hmem⟩ := hall {} launch h
  exact ⟨launch, h, hb, hmem launch.grid (List.Perm.refl _)⟩

end FlashTier
