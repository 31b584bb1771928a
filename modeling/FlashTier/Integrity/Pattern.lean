/-
The pattern that fills a page and its verification (`integrity.cpp`). Both loops go over complete blocks
and a tail; taken byte by byte they say the same of every offset. The block values come from an injective
mixing function, so that no two pages, seeds or blocks share a block's content.
-/
import FlashTier.Codec.Bytes
import FlashTier.Codec.Words
import FlashTier.Runtime.Integrity

namespace FlashTier

open Codec

variable {data : Bytes} {n i : Nat} {seed pageId : UInt64} {checkLimit : Nat}

/-! ## Byte by byte -/

/-- The byte of the pattern at an offset. -/
def patternByte (seed pageId : UInt64) (i : Nat) : UInt8 := byteOf (patternBlock seed pageId (i / 8)) (i % 8)

theorem patternByte_block (seed pageId : UInt64) (b : Nat) {j : Nat} (hj : j < 8) :
    patternByte seed pageId (b * 8 + j) = byteOf (patternBlock seed pageId b) j := by
  have hdiv : (b * 8 + j) / 8 = b := by omega
  have hmod : (b * 8 + j) % 8 = j := by omega
  rw [patternByte, hdiv, hmod]

theorem map_patternByte_block (seed pageId : UInt64) (b : Nat) {count : Nat} (hc : count ≤ 8) :
    ((List.range count).map (b * 8 + ·)).map (patternByte seed pageId) =
      (List.range count).map (byteOf (patternBlock seed pageId b)) := by
  rw [List.map_map]
  refine List.map_congr_left fun j hj => ?_
  exact patternByte_block seed pageId b (lt_of_lt_of_le (List.mem_range.1 hj) hc)

/-- `fill_pattern` writes the byte of each offset. -/
theorem fillPattern_eq (n : Nat) (seed pageId : UInt64) : fillPattern n seed pageId = (List.range n).map (patternByte seed pageId) := by
  have hblocks : ((List.range (n / 8)).flatMap fun b => (List.range 8).map (b * 8 + ·)).map (patternByte seed pageId) =
      (List.range (n / 8)).flatMap fun b => (List.range 8).map (byteOf (patternBlock seed pageId b)) := by
    rw [List.map_flatMap]
    exact List.flatMap_congr fun b _ => map_patternByte_block seed pageId b le_rfl
  rw [range_blocks n 8, List.map_append, hblocks, map_patternByte_block _ _ _ (Nat.mod_lt n (by decide)).le]
  rfl

@[simp] theorem length_fillPattern (n : Nat) (seed pageId : UInt64) : (fillPattern n seed pageId).length = n := by
  rw [fillPattern_eq, List.length_map, List.length_range]

theorem getElem?_fillPattern (seed pageId : UInt64) (hi : i < n) : (fillPattern n seed pageId)[i]? = some (patternByte seed pageId i) := by
  rw [fillPattern_eq, List.getElem?_map, List.getElem?_range hi, Option.map_some]

theorem fillPattern_prefix (seed pageId : UInt64) {n' : Nat} (h : n ≤ n') : fillPattern n seed pageId <+: fillPattern n' seed pageId := by
  obtain ⟨k, rfl⟩ := Nat.exists_eq_add_of_le h
  rw [fillPattern_eq, fillPattern_eq, List.range_add, List.map_append]
  exact List.prefix_append _ _

/-! ## Verification -/

/-- How many bytes `verify_pattern` checks. -/
def checkedLength (n checkLimit : Nat) : Nat := if checkLimit = 0 then n else min checkLimit n

theorem checkedLength_le (n checkLimit : Nat) : checkedLength n checkLimit ≤ n := by
  unfold checkedLength
  split <;> omega

/-- The mismatch at an offset, if there is one. -/
def mismatchAt (data : Bytes) (seed pageId : UInt64) (i : Nat) : Option IntegrityMismatch :=
  if data i ≠ patternByte seed pageId i then some ⟨i, patternByte seed pageId i, data i⟩ else none

/-- The mismatch at an offset that is checked. -/
def checkedAt (data : Bytes) (seed pageId : UInt64) (limit i : Nat) : Option IntegrityMismatch :=
  if i < limit then mismatchAt data seed pageId i else none

/-- A block is checked byte by byte, up to the limit. -/
theorem verifyBlock_eq (data : Bytes) (seed pageId : UInt64) (b limit : Nat) {count : Nat} (hc : count ≤ 8) :
    verifyBlock data (patternBlock seed pageId b) (b * 8) count limit =
      ((List.range count).map (b * 8 + ·)).findSome? (checkedAt data seed pageId limit) := by
  rw [List.findSome?_map, verifyBlock]
  refine findSome?_congr fun j hj => ?_
  have hbyte := patternByte_block seed pageId b (lt_of_lt_of_le (List.mem_range.1 hj) hc)
  rw [Function.comp_apply, checkedAt, mismatchAt, hbyte]
  by_cases hl : b * 8 + j < limit
  · simp only [hl, true_and, if_true]
  · simp only [hl, false_and, if_false]

/-- Nothing of a block is checked when it begins at the limit or beyond. -/
theorem findSome?_block_beyond (data : Bytes) (seed pageId : UInt64) {b limit : Nat} (count : Nat) (h : ¬b * 8 < limit) :
    ((List.range count).map (b * 8 + ·)).findSome? (checkedAt data seed pageId limit) = none := by
  rw [List.findSome?_map, List.findSome?_eq_none_iff]
  intro j _
  rw [Function.comp_apply, checkedAt, if_neg (by omega)]

theorem verifyTail_eq (data : Bytes) (n : Nat) (seed pageId : UInt64) (limit : Nat) :
    (if n % 8 ≠ 0 ∧ n / 8 * 8 < limit then
      verifyBlock data (patternBlock seed pageId (n / 8)) (n / 8 * 8) (n % 8) limit
    else none) = ((List.range (n % 8)).map (n / 8 * 8 + ·)).findSome? (checkedAt data seed pageId limit) := by
  split
  · exact verifyBlock_eq data seed pageId (n / 8) limit (Nat.mod_lt n (by decide)).le
  · rename_i h
    rw [not_and_or, not_not] at h
    rcases h with h | h
    · rw [h]
      rfl
    · exact (findSome?_block_beyond data seed pageId (n % 8) h).symm

theorem verifyPattern_def (data : Bytes) (n : Nat) (seed pageId : UInt64) (checkLimit : Nat) :
    verifyPattern data n seed pageId checkLimit =
      ((List.range (n / 8)).findSome? fun b => if b * 8 < checkedLength n checkLimit then
        verifyBlock data (patternBlock seed pageId b) (b * 8) 8 (checkedLength n checkLimit) else none).or
      (if n % 8 ≠ 0 ∧ n / 8 * 8 < checkedLength n checkLimit then
        verifyBlock data (patternBlock seed pageId (n / 8)) (n / 8 * 8) (n % 8) (checkedLength n checkLimit) else none) := rfl

/-- `verify_pattern` finds the first mismatch below the limit. -/
theorem verifyPattern_eq (data : Bytes) (n : Nat) (seed pageId : UInt64) (checkLimit : Nat) :
    verifyPattern data n seed pageId checkLimit =
      (List.range (checkedLength n checkLimit)).findSome? (mismatchAt data seed pageId) := by
  set limit := checkedLength n checkLimit with hlimit
  have hall : verifyPattern data n seed pageId checkLimit = (List.range n).findSome? (checkedAt data seed pageId limit) := by
    rw [range_blocks n 8, List.findSome?_append, findSome?_flatMap, ← verifyTail_eq, verifyPattern_def, ← hlimit]
    refine congrArg (Option.or · _) (findSome?_congr fun b _ => ?_)
    split
    · exact verifyBlock_eq data seed pageId b limit le_rfl
    · rename_i h
      exact (findSome?_block_beyond data seed pageId 8 h).symm
  obtain ⟨k, hk⟩ := Nat.exists_eq_add_of_le (checkedLength_le n checkLimit)
  rw [← hlimit] at hk
  have hbelow : (List.range limit).findSome? (checkedAt data seed pageId limit) =
      (List.range limit).findSome? (mismatchAt data seed pageId) :=
    findSome?_congr fun i hi => by rw [checkedAt, if_pos (List.mem_range.1 hi)]
  have habove : ((List.range k).map (limit + ·)).findSome? (checkedAt data seed pageId limit) = none := by
    rw [List.findSome?_map, List.findSome?_eq_none_iff]
    intro j _
    rw [Function.comp_apply, checkedAt, if_neg (by omega)]
  rw [hall, hk, List.range_add, List.findSome?_append, hbelow, habove, Option.or_none]

theorem mismatchAt_eq_none : mismatchAt data seed pageId i = none ↔ data i = patternByte seed pageId i := by
  unfold mismatchAt
  split <;> simp_all

theorem mismatchAt_eq_some {m : IntegrityMismatch} : mismatchAt data seed pageId i = some m ↔
    m.offset = i ∧ m.expected = patternByte seed pageId i ∧ m.actual = data i ∧ m.actual ≠ m.expected := by
  unfold mismatchAt
  obtain ⟨offset, expected, actual⟩ := m
  dsimp only
  split
  · rename_i h
    rw [Option.some.injEq, IntegrityMismatch.mk.injEq]
    constructor
    · rintro ⟨rfl, rfl, rfl⟩
      exact ⟨rfl, rfl, rfl, h⟩
    · rintro ⟨rfl, rfl, rfl, -⟩
      exact ⟨rfl, rfl, rfl⟩
  · rename_i h
    constructor
    · intro he
      cases he
    · rintro ⟨rfl, rfl, rfl, hne⟩
      exact absurd hne h

/-! ## Reading -/

section Reading

variable (read : Nat → Option UInt8) (seed pageId : UInt64)

/-- The loop over one block, in a buffer of which some bytes must not be read; `none` when one is. -/
def verifyBlockReading (v : UInt64) (base count limit : Nat) : Option (Option IntegrityMismatch) :=
  (List.range count).findSomeM? fun j =>
    if base + j < limit then do
      let actual ← read (base + j)
      pure (if actual ≠ byteOf v j then some ⟨base + j, byteOf v j, actual⟩ else none)
    else pure none

/-- `verify_pattern` in such a buffer. -/
def verifyPatternReading (n checkLimit : Nat) : Option (Option IntegrityMismatch) := do
  let limit := checkedLength n checkLimit
  let found ← (List.range (n / 8)).findSomeM? fun b =>
    if b * 8 < limit then verifyBlockReading read (patternBlock seed pageId b) (b * 8) 8 limit else pure none
  match found with
  | some m => pure (some m)
  | none =>
    if n % 8 ≠ 0 ∧ n / 8 * 8 < limit then verifyBlockReading read (patternBlock seed pageId (n / 8)) (n / 8 * 8) (n % 8) limit
    else pure none

end Reading

/-- A buffer whose bytes may be read below the limit only. -/
def Bytes.upTo (data : Bytes) (limit i : Nat) : Option UInt8 := if i < limit then some (data i) else none

theorem verifyBlockReading_eq (data : Bytes) (v : UInt64) (base count limit : Nat) :
    verifyBlockReading (data.upTo limit) v base count limit = some (verifyBlock data v base count limit) := by
  refine findSomeM?_eq fun j _ => ?_
  by_cases h : base + j < limit
  · rw [if_pos h, Bytes.upTo, if_pos h]
    simp only [h, true_and]
    rfl
  · rw [if_neg h, if_neg (fun hc => h hc.1)]
    rfl

/-- `verify_pattern` reads nothing at the limit or beyond. -/
theorem verifyPatternReading_eq (data : Bytes) (n : Nat) (seed pageId : UInt64) (checkLimit : Nat) :
    verifyPatternReading (data.upTo (checkedLength n checkLimit)) seed pageId n checkLimit =
      some (verifyPattern data n seed pageId checkLimit) := by
  set limit := checkedLength n checkLimit with hlimit
  have hblocks := findSomeM?_eq (l := List.range (n / 8))
    (f := fun b => if b * 8 < limit then verifyBlockReading (data.upTo limit) (patternBlock seed pageId b) (b * 8) 8 limit else pure none)
    (g := fun b => if b * 8 < limit then verifyBlock data (patternBlock seed pageId b) (b * 8) 8 limit else none) fun b _ => by
      split
      · exact verifyBlockReading_eq data _ _ _ _
      · rfl
  have htail : (if n % 8 ≠ 0 ∧ n / 8 * 8 < limit then
      verifyBlockReading (data.upTo limit) (patternBlock seed pageId (n / 8)) (n / 8 * 8) (n % 8) limit else pure none) =
      some (if n % 8 ≠ 0 ∧ n / 8 * 8 < limit then
        verifyBlock data (patternBlock seed pageId (n / 8)) (n / 8 * 8) (n % 8) limit else none) := by
    split
    · exact verifyBlockReading_eq data _ _ _ _
    · rfl
  rw [verifyPattern_def, ← hlimit]
  unfold verifyPatternReading
  simp only [← hlimit, hblocks, htail, Option.bind_eq_bind, Option.bind_some]
  cases (List.range (n / 8)).findSome? fun b =>
    if b * 8 < limit then verifyBlock data (patternBlock seed pageId b) (b * 8) 8 limit else none with
  | none => rfl
  | some m => rfl

/-- `verify_pattern` finds exactly the first deviation below its limit from what `fill_pattern` writes, reads
no byte beyond, and the pattern of a longer page extends that of a shorter one. -/
theorem verify_exact (data : Bytes) (n : Nat) (seed pageId : UInt64) (checkLimit : Nat) :
    (verifyPattern data n seed pageId checkLimit = none ↔
      data.take (checkedLength n checkLimit) = (fillPattern n seed pageId).take (checkedLength n checkLimit)) ∧
    (∀ m, verifyPattern data n seed pageId checkLimit = some m ↔
      m.offset < checkedLength n checkLimit ∧ (fillPattern n seed pageId)[m.offset]? = some m.expected ∧ m.actual = data m.offset ∧
        m.actual ≠ m.expected ∧ ∀ i < m.offset, (fillPattern n seed pageId)[i]? = some (data i)) ∧
    verifyPatternReading (data.upTo (checkedLength n checkLimit)) seed pageId n checkLimit =
      some (verifyPattern data n seed pageId checkLimit) ∧
    (fillPattern n seed pageId).length = n ∧ ∀ n', n ≤ n' → fillPattern n seed pageId <+: fillPattern n' seed pageId := by
  have hle := checkedLength_le n checkLimit
  refine ⟨?_, fun m => ?_, verifyPatternReading_eq data n seed pageId checkLimit, length_fillPattern n seed pageId,
    fun n' h => fillPattern_prefix seed pageId h⟩
  · have htake : (fillPattern n seed pageId).take (checkedLength n checkLimit) =
        (List.range (checkedLength n checkLimit)).map (patternByte seed pageId) := by
      rw [fillPattern_eq, ← List.map_take, List.take_range, Nat.min_eq_left hle]
    rw [verifyPattern_eq, List.findSome?_eq_none_iff, htake, Bytes.take, List.map_inj_left]
    exact forall_congr' fun i => imp_congr_right fun _ => mismatchAt_eq_none
  · rw [verifyPattern_eq, findSome?_range_eq_some]
    constructor
    · rintro ⟨i, hi, hm, hbefore⟩
      obtain ⟨rfl, hexp, hact, hne⟩ := mismatchAt_eq_some.1 hm
      refine ⟨hi, ?_, hact, hne, fun j hj => ?_⟩
      · rw [getElem?_fillPattern seed pageId (lt_of_lt_of_le hi hle), hexp]
      · rw [getElem?_fillPattern seed pageId (lt_of_lt_of_le (hj.trans hi) hle), ← mismatchAt_eq_none.1 (hbefore j hj)]
    · rintro ⟨hlt, hexp, hact, hne, hbefore⟩
      rw [getElem?_fillPattern seed pageId (lt_of_lt_of_le hlt hle), Option.some.injEq] at hexp
      refine ⟨m.offset, hlt, mismatchAt_eq_some.2 ⟨rfl, hexp.symm, hact, hne⟩, fun j hj => mismatchAt_eq_none.2 ?_⟩
      have hj' := hbefore j hj
      rw [getElem?_fillPattern seed pageId (lt_of_lt_of_le (hj.trans hlt) hle), Option.some.injEq] at hj'
      exact hj'.symm

/-! ## No two blocks alike -/

theorem splitmix64_inj {x y : UInt64} (h : splitmix64 x = splitmix64 y) : x = y := by
  -- from the last step of the finaliser to the first
  have h₁ := xorShift_inj (by decide) h
  have h₂ := xorShift_inj (by decide) (mul_inj 0x319642b2d24d8ec3 (by decide) h₁)
  have h₃ := xorShift_inj (by decide) (mul_inj 0x96de1b173f119089 (by decide) h₂)
  exact (UInt64.add_left_inj _).1 h₃

variable {a b seed' : UInt64} {k k' : Nat}

theorem patternBlock_id_inj (h : patternBlock seed a k = patternBlock seed b k) : a = b :=
  mul_inj 0xf1de83e19937733d (by decide) (xor_right_inj (xor_left_inj (splitmix64_inj h)))

theorem patternBlock_seed_inj (h : patternBlock seed pageId k = patternBlock seed' pageId k) : seed = seed' :=
  xor_left_inj (xor_left_inj (splitmix64_inj h))

theorem patternBlock_block_inj (hk : k < 2 ^ 64) (hk' : k' < 2 ^ 64) (h : patternBlock seed pageId k = patternBlock seed pageId k') :
    k = k' := by
  have hw : UInt64.ofNat k = UInt64.ofNat k' := xor_right_inj (splitmix64_inj h)
  have hn := congrArg UInt64.toNat hw
  rwa [UInt64.toNat_ofNat_of_lt' hk, UInt64.toNat_ofNat_of_lt' hk'] at hn

/-- A complete block holds the bytes of its value. -/
theorem getElem?_block (seed pageId : UInt64) (hk : k < n / 8) {j : Nat} (hj : j < 8) :
    (field (fillPattern n seed pageId) (k * 8) 8)[j]? = some (byteOf (patternBlock seed pageId k) j) := by
  have hfield := getElem?_field (fillPattern n seed pageId) (k * 8) 8 (i := k * 8 + j) (by omega)
  rw [Nat.add_sub_cancel_left] at hfield
  rw [hfield, getElem?_fillPattern seed pageId (by omega), patternByte_block seed pageId k hj]

/-- Two complete blocks with the same content have the same value. -/
theorem patternBlock_eq_of_block (hk : k < n / 8) (hk' : k' < n / 8)
    (h : field (fillPattern n seed a) (k * 8) 8 = field (fillPattern n seed' b) (k' * 8) 8) :
    patternBlock seed a k = patternBlock seed' b k' := by
  refine byteOf_inj fun j hj => ?_
  have hbyte := getElem?_block seed a hk hj
  rw [h, getElem?_block seed' b hk' hj, Option.some.injEq] at hbyte
  exact hbyte.symm

/-- What `fill_pattern` leaves in a buffer. -/
def filled (n : Nat) (seed pageId : UInt64) : Bytes := fun i => (fillPattern n seed pageId).getD i 0

theorem filled_eq (seed pageId : UInt64) (hi : i < n) : filled n seed pageId i = patternByte seed pageId i := by
  rw [filled, List.getD_eq_getElem?_getD, getElem?_fillPattern seed pageId hi, Option.getD_some]

/-- A page whose first block should have another value is noticed in its first eight bytes. -/
theorem mismatch_of_block (hn : 8 ≤ checkedLength n checkLimit) (hne : patternBlock seed a 0 ≠ patternBlock seed' b 0) :
    ∃ m, verifyPattern (filled n seed a) n seed' b checkLimit = some m ∧ m.offset < 8 := by
  have hle := checkedLength_le n checkLimit
  obtain ⟨j, hj, hbyte⟩ : ∃ j < 8, patternByte seed a j ≠ patternByte seed' b j := by
    by_contra hall
    push Not at hall
    refine hne (byteOf_inj fun j hj => ?_)
    have hj' := hall j hj
    rwa [← Nat.zero_add j, ← Nat.zero_mul 8, patternByte_block seed a 0 hj, patternByte_block seed' b 0 hj] at hj'
  obtain ⟨m, hm⟩ : ∃ m, verifyPattern (filled n seed a) n seed' b checkLimit = some m := by
    rw [← Option.ne_none_iff_exists', verifyPattern_eq, Ne, List.findSome?_eq_none_iff]
    intro hnone
    have hj' := mismatchAt_eq_none.1 (hnone j (List.mem_range.2 (by omega)))
    rw [filled_eq seed a (by omega)] at hj'
    exact hbyte hj'
  refine ⟨m, hm, ?_⟩
  rw [verifyPattern_eq, findSome?_range_eq_some] at hm
  obtain ⟨i, -, hi, hbefore⟩ := hm
  rw [(mismatchAt_eq_some.1 hi).1]
  by_contra hlt
  have hj' := mismatchAt_eq_none.1 (hbefore j (by omega))
  rw [filled_eq seed a (by omega)] at hj'
  exact hbyte hj'

/-- Pages filled for different ids, or with different seeds, differ in every complete block, which their
verification notices in the first one; no two complete blocks of a page are alike. -/
theorem misplaced_detected (hn : 8 ≤ n) (hsize : n < 2 ^ 64) :
    (∀ seed a b, a ≠ b →
      (∀ k < n / 8, field (fillPattern n seed a) (k * 8) 8 ≠ field (fillPattern n seed b) (k * 8) 8) ∧
      ∀ checkLimit, 8 ≤ checkedLength n checkLimit →
        ∃ m, verifyPattern (filled n seed a) n seed b checkLimit = some m ∧ m.offset < 8) ∧
    (∀ pageId seed seed', seed ≠ seed' →
      (∀ k < n / 8, field (fillPattern n seed pageId) (k * 8) 8 ≠ field (fillPattern n seed' pageId) (k * 8) 8) ∧
      ∀ checkLimit, 8 ≤ checkedLength n checkLimit →
        ∃ m, verifyPattern (filled n seed pageId) n seed' pageId checkLimit = some m ∧ m.offset < 8) ∧
    ∀ seed pageId, ∀ k < n / 8, ∀ k' < n / 8, k ≠ k' →
      field (fillPattern n seed pageId) (k * 8) 8 ≠ field (fillPattern n seed pageId) (k' * 8) 8 := by
  refine ⟨fun seed a b hne => ⟨fun k hk h => ?_, fun checkLimit hl => ?_⟩,
    fun pageId seed seed' hne => ⟨fun k hk h => ?_, fun checkLimit hl => ?_⟩, fun seed pageId k hk k' hk' hne h => ?_⟩
  · exact hne (patternBlock_id_inj (patternBlock_eq_of_block hk hk h))
  · exact mismatch_of_block hl fun h => hne (patternBlock_id_inj h)
  · exact hne (patternBlock_seed_inj (patternBlock_eq_of_block hk hk h))
  · exact mismatch_of_block hl fun h => hne (patternBlock_seed_inj h)
  · exact hne (patternBlock_block_inj (by omega) (by omega) (patternBlock_eq_of_block hk hk' h))

theorem misplaced_detected_swapped : ∃ m, verifyPattern (filled 16 7 1) 16 7 2 0 = some m ∧ m.offset < 8 :=
  ((misplaced_detected (n := 16) (by decide) (by decide)).1 7 1 2 (by decide)).2 0 (by decide)

end FlashTier
