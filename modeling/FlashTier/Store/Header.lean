/-
The header block of a store file (`store_common.hpp`): its fields as a 4096-byte image, the checksum that
seals it and the check of an existing header. A header built by `open` is accepted for its own geometry,
and no change of a single byte of an accepted one goes unnoticed.
-/
import FlashTier.Codec.Bytes
import FlashTier.Codec.Checked
import FlashTier.Codec.Words
import FlashTier.Store.Allocator

namespace FlashTier

open Codec

/-! ## The block -/

/-- `detail::kStoreMagic`. -/
def storeMagic : UInt32 := 0x46544E56

/-- `detail::kStoreVersion`. -/
def storeVersion : UInt32 := 2

/-- `detail::StoreHeader`. -/
@[ext] structure StoreHeader where
  magic : UInt32 := storeMagic
  version : UInt32 := storeVersion
  pageSize : UInt64 := 0
  capacityBytes : UInt64 := 0
  extentCount : UInt64 := 0
  generation : UInt64 := 0
  seed : UInt64 := 0
  checksum : UInt64 := 0
  reserved : { bytes : List UInt8 // bytes.length = 4040 } := ⟨List.replicate 4040 0, List.length_replicate⟩

namespace StoreHeader

/-- The bytes before the checksum. -/
def front (h : StoreHeader) : List UInt8 :=
  leBytes 4 h.magic.toNat ++ leBytes 4 h.version.toNat ++ leBytes 8 h.pageSize.toNat ++ leBytes 8 h.capacityBytes.toNat ++
    leBytes 8 h.extentCount.toNat ++ leBytes 8 h.generation.toNat ++ leBytes 8 h.seed.toNat

/-- The block as it lies in memory and in the file. -/
def image (h : StoreHeader) : List UInt8 := h.front ++ leBytes 8 h.checksum.toNat ++ h.reserved.1

/-- The header that a block holds. -/
def ofImage (img : { bytes : List UInt8 // bytes.length = 4096 }) : StoreHeader where
  magic := UInt32.ofNat (leNat (field img.1 0 4))
  version := UInt32.ofNat (leNat (field img.1 4 4))
  pageSize := UInt64.ofNat (leNat (field img.1 8 8))
  capacityBytes := UInt64.ofNat (leNat (field img.1 16 8))
  extentCount := UInt64.ofNat (leNat (field img.1 24 8))
  generation := UInt64.ofNat (leNat (field img.1 32 8))
  seed := UInt64.ofNat (leNat (field img.1 40 8))
  checksum := UInt64.ofNat (leNat (field img.1 48 8))
  reserved := ⟨field img.1 56 4040, length_field _ (by rw [img.2])⟩

@[simp] theorem length_front (h : StoreHeader) : h.front.length = 48 := by simp [front]

@[simp] theorem length_image (h : StoreHeader) : h.image.length = 4096 := by simp [image, h.reserved.2]

theorem leBytes_field32 {img : List UInt8} {off : Nat} (h : off + 4 ≤ img.length) :
    leBytes 4 (UInt32.ofNat (leNat (field img off 4))).toNat = field img off 4 := by
  have hlt := leNat_lt (field img off 4)
  rw [length_field _ h] at hlt
  rw [UInt32.toNat_ofNat_of_lt' hlt, leBytes_field h]

theorem leBytes_field64 {img : List UInt8} {off : Nat} (h : off + 8 ≤ img.length) :
    leBytes 8 (UInt64.ofNat (leNat (field img off 8))).toNat = field img off 8 := by
  have hlt := leNat_lt (field img off 8)
  rw [length_field _ h] at hlt
  rw [UInt64.toNat_ofNat_of_lt' hlt, leBytes_field h]

theorem front_ofImage (img : { bytes : List UInt8 // bytes.length = 4096 }) : (ofImage img).front = field img.1 0 48 := by
  have hin : ∀ {n}, n ≤ 4096 → n ≤ img.1.length := fun h => by rw [img.2]; exact h
  unfold front ofImage
  simp only
  rw [leBytes_field32 (hin (by decide)), leBytes_field32 (hin (by decide)), leBytes_field64 (hin (by decide)),
    leBytes_field64 (hin (by decide)), leBytes_field64 (hin (by decide)), leBytes_field64 (hin (by decide)),
    leBytes_field64 (hin (by decide))]
  rw [field_append img.1 0 4 4, field_append img.1 0 8 8, field_append img.1 0 16 8, field_append img.1 0 24 8, field_append img.1 0 32 8,
    field_append img.1 0 40 8]

/-- A block is the image of the header it holds. -/
theorem image_ofImage (img : { bytes : List UInt8 // bytes.length = 4096 }) : (ofImage img).image = img.1 := by
  rw [image, front_ofImage]
  show field img.1 0 48 ++ leBytes 8 (UInt64.ofNat (leNat (field img.1 48 8))).toNat ++ field img.1 56 4040 = img.1
  rw [leBytes_field64 (by rw [img.2]; decide), field_append img.1 0 48 8, field_append img.1 0 56 4040]
  conv_rhs => rw [← field_all img.1, img.2]

theorem ofNat_leBytes32 (w : UInt32) : UInt32.ofNat (leNat (leBytes 4 w.toNat)) = w := by
  have hlt : w.toNat < 256 ^ 4 := w.toNat_lt
  rw [leNat_leBytes, Nat.mod_eq_of_lt hlt, UInt32.ofNat_toNat]

theorem ofNat_leBytes64 (w : UInt64) : UInt64.ofNat (leNat (leBytes 8 w.toNat)) = w := by
  have hlt : w.toNat < 256 ^ 8 := w.toNat_lt
  rw [leNat_leBytes, Nat.mod_eq_of_lt hlt, UInt64.ofNat_toNat]

/-- A header is what its image holds. -/
theorem ofImage_image (h : StoreHeader) : ofImage ⟨h.image, h.length_image⟩ = h := by
  have hres : field h.image 56 4040 = h.reserved.1 := by
    show h.reserved.1.take 4040 = h.reserved.1
    exact List.take_of_length_le h.reserved.2.le
  -- each field is cut out where the image has it
  apply StoreHeader.ext
  · exact ofNat_leBytes32 h.magic
  · exact ofNat_leBytes32 h.version
  · exact ofNat_leBytes64 h.pageSize
  · exact ofNat_leBytes64 h.capacityBytes
  · exact ofNat_leBytes64 h.extentCount
  · exact ofNat_leBytes64 h.generation
  · exact ofNat_leBytes64 h.seed
  · exact ofNat_leBytes64 h.checksum
  · exact Subtype.ext hres

end StoreHeader

/-! ## The checksum -/

/-- `store_header_checksum`: of the block with a zero checksum. -/
def storeHeaderChecksum (h : StoreHeader) : UInt64 :=
  ({ h with checksum := 0 } : StoreHeader).image.foldl fnvStep 14695981039346656037

/-- `seal_store_header`. -/
def sealStoreHeader (h : StoreHeader) : StoreHeader := { h with checksum := storeHeaderChecksum h }

theorem checksum_seal (h : StoreHeader) : (sealStoreHeader h).checksum = storeHeaderChecksum (sealStoreHeader h) := by
  simp only [storeHeaderChecksum, sealStoreHeader]

/-- The header that `NvmeBackend::open` writes into a new store. -/
def openHeader (pageSize capacityBytes : UInt64) : StoreHeader :=
  sealStoreHeader { pageSize := pageSize, capacityBytes := capacityBytes, extentCount := capacityBytes / pageSize, generation := 1, seed := 0xC0FFEE }

/-- The block with its checksum bytes zero. -/
def unsealed (img : List UInt8) : List UInt8 := field img 0 48 ++ List.replicate 8 0 ++ field img 56 4040

namespace StoreHeader

theorem image_unsealed (h : StoreHeader) : ({ h with checksum := 0 } : StoreHeader).image = unsealed h.image := by
  have h48 : field h.image 0 48 = h.front := rfl
  have h56 : field h.image 56 4040 = h.reserved.1 := by
    show h.reserved.1.take 4040 = h.reserved.1
    exact List.take_of_length_le h.reserved.2.le
  have hzero : leBytes 8 (0 : UInt64).toNat = List.replicate 8 0 := by decide
  rw [unsealed, h48, h56, ← hzero]
  rfl

theorem checksum_eq (h : StoreHeader) : storeHeaderChecksum h = (unsealed h.image).foldl fnvStep 14695981039346656037 := by
  rw [storeHeaderChecksum, image_unsealed]

end StoreHeader

/-- A change outside the checksum is one of what the checksum is taken of. -/
theorem unsealed_set {img : List UInt8} (hl : img.length = 4096) {i : Nat} (hi : i < 4096) (hout : ¬(48 ≤ i ∧ i < 56)) (v : UInt8) :
    unsealed (img.set i v) = (unsealed img).set i v ∧ (unsealed img)[i]? = img[i]? := by
  have h48 : (field img 0 48).length = 48 := length_field _ (by omega)
  have h56 : (field img 0 48 ++ List.replicate 8 0).length = 56 := by simp [h48]
  unfold unsealed
  by_cases hlow : i < 48
  · have hin : 0 ≤ i ∧ i < 0 + 48 := ⟨Nat.zero_le i, by omega⟩
    have hi' : i < (field img 0 48).length := by omega
    rw [field_set_of_mem img 0 48 v hin, field_set_of_not_mem img 56 4040 v (by omega), Nat.sub_zero, List.append_assoc, List.append_assoc,
      List.set_append_left _ _ hi', List.getElem?_append_left hi']
    exact ⟨rfl, getElem?_field img 0 48 hin⟩
  · have hin : 56 ≤ i ∧ i < 56 + 4040 := ⟨by omega, by omega⟩
    have hi' : (field img 0 48 ++ List.replicate 8 0).length ≤ i := by omega
    rw [field_set_of_not_mem img 0 48 v (by omega), field_set_of_mem img 56 4040 v hin, List.set_append_right _ _ hi',
      List.getElem?_append_right hi', h56]
    exact ⟨rfl, getElem?_field img 56 4040 hin⟩

/-- A sealed block with one byte changed is not sealed. -/
theorem checksum_set_ne (h : StoreHeader) (hs : h.checksum = storeHeaderChecksum h) {i : Nat} (hi : i < 4096) {v : UInt8}
    (hv : h.image[i]? ≠ some v) {h' : StoreHeader} (hi' : h'.image = h.image.set i v) : h'.checksum ≠ storeHeaderChecksum h' := by
  obtain ⟨x, hx⟩ : ∃ x, h.image[i]? = some x := ⟨_, List.getElem?_eq_getElem (by rw [h.length_image]; exact hi)⟩
  have hne : v ≠ x := by
    rintro rfl
    exact hv hx
  have hfield : ∀ g : StoreHeader, field g.image 48 8 = leBytes 8 g.checksum.toNat := fun _ => rfl
  rw [h'.checksum_eq, hi']
  rw [h.checksum_eq] at hs
  by_cases hin : 48 ≤ i ∧ i < 56
  · -- the checksum itself is changed, and nothing that it is taken of
    have hsame : unsealed (h.image.set i v) = unsealed h.image := by
      unfold unsealed
      rw [field_set_of_not_mem _ 0 48 _ (by omega), field_set_of_not_mem _ 56 4040 _ (by omega)]
    rw [hsame, ← hs]
    intro he
    have hold : (field h'.image 48 8)[i - 48]? = some x := by
      rw [hfield, he, ← hfield, getElem?_field h.image 48 8 hin, hx]
    rw [getElem?_field h'.image 48 8 hin, hi', List.getElem?_set_self (by rw [h.length_image]; exact hi)] at hold
    exact hne (Option.some.inj hold)
  · obtain ⟨hset, hold⟩ := unsealed_set h.length_image hi hin v
    have hck : h'.checksum = h.checksum := by
      have hf := field_set_of_not_mem h.image 48 8 v hin
      rw [← hi', hfield, hfield] at hf
      rw [← StoreHeader.ofNat_leBytes64 h'.checksum, hf, StoreHeader.ofNat_leBytes64]
    rw [hck, hs, hset]
    exact (foldl_set_ne fnvStep_inj_state fnvStep_inj_byte _ (hold.trans hx) hne).symm

/-! ## The check of an existing header -/

/-- `header_mismatch_reason`; empty when the header is accepted. -/
def headerMismatchReason (h : StoreHeader) (pageSize capacityBytes : UInt64) : Except Trap String :=
  if h.magic ≠ storeMagic then .ok "magic mismatch (not a FlashTier store)"
  else if h.version ≠ storeVersion then .ok ("unsupported store version " ++ toString h.version)
  else if h.checksum ≠ storeHeaderChecksum h then .ok "header checksum mismatch"
  else if pageSize ≠ 0 ∧ h.pageSize ≠ pageSize then
    .ok ("page size mismatch (header " ++ toString h.pageSize ++ ", requested " ++ toString pageSize ++ ")")
  else if capacityBytes ≠ 0 ∧ h.capacityBytes ≠ capacityBytes then
    .ok ("capacity mismatch (header " ++ toString h.capacityBytes ++ ", requested " ++ toString capacityBytes ++ ")")
  else if h.pageSize.toNat < headerBlockSize ∨ h.capacityBytes = 0 ∨ h.extentCount = 0 then .ok "truncated or zeroed header"
  else do
    let remainder ← checkedMod h.capacityBytes h.pageSize
    if remainder ≠ 0 then pure "capacity is not a multiple of page size"
    else do
      let count ← checkedDiv h.capacityBytes h.pageSize
      if h.extentCount ≠ count then pure "extent count inconsistent with capacity"
      else do
        let limit ← checkedSub uint64Max h.pageSize
        if limit < h.capacityBytes then pure "store file size overflows 64 bits"
        else if h.reserved.1.any (· ≠ 0) then pure "reserved header bytes are nonzero"
        else pure ""

/-- What the check asks for. -/
structure Accepted (h : StoreHeader) (pageSize capacityBytes : UInt64) : Prop where
  magic : h.magic = storeMagic
  version : h.version = storeVersion
  checksum : h.checksum = storeHeaderChecksum h
  page : pageSize = 0 ∨ h.pageSize = pageSize
  capacity : capacityBytes = 0 ∨ h.capacityBytes = capacityBytes
  block : headerBlockSize ≤ h.pageSize.toNat
  nonzero : h.capacityBytes ≠ 0 ∧ h.extentCount ≠ 0
  multiple : h.capacityBytes % h.pageSize = 0
  count : h.extentCount = h.capacityBytes / h.pageSize
  fits : h.capacityBytes ≤ uint64Max - h.pageSize
  reserved : ∀ b ∈ h.reserved.1, b = 0

theorem append_ne_empty {a : String} (h : a ≠ "") (b : String) : a ++ b ≠ "" := by
  intro he
  exact h (String.append_eq_empty_iff.1 he).1

/-- The check ends without a division by zero or an overflow, on every header, with an empty text exactly
when all it asks for holds. -/
theorem headerMismatchReason_spec (h : StoreHeader) (pageSize capacityBytes : UInt64) :
    ∃ reason, headerMismatchReason h pageSize capacityBytes = .ok reason ∧ (reason = "" ↔ Accepted h pageSize capacityBytes) := by
  unfold headerMismatchReason
  by_cases hmagic : h.magic = storeMagic
  swap
  · rw [if_pos hmagic]
    exact ⟨_, rfl, iff_of_false (by decide) fun ha => hmagic ha.magic⟩
  by_cases hversion : h.version = storeVersion
  swap
  · rw [if_neg (not_not.2 hmagic), if_pos hversion]
    exact ⟨_, rfl, iff_of_false (append_ne_empty (by decide) _) fun ha => hversion ha.version⟩
  by_cases hsum : h.checksum = storeHeaderChecksum h
  swap
  · rw [if_neg (not_not.2 hmagic), if_neg (not_not.2 hversion), if_pos hsum]
    exact ⟨_, rfl, iff_of_false (by decide) fun ha => hsum ha.checksum⟩
  rw [if_neg (not_not.2 hmagic), if_neg (not_not.2 hversion), if_neg (not_not.2 hsum)]
  split
  · rename_i hpage
    refine ⟨_, rfl, iff_of_false ?_ fun ha => ha.page.elim hpage.1 hpage.2⟩
    exact append_ne_empty (append_ne_empty (append_ne_empty (append_ne_empty (by decide) _) _) _) _
  rename_i hpage
  split
  · rename_i hcap
    refine ⟨_, rfl, iff_of_false ?_ fun ha => ha.capacity.elim hcap.1 hcap.2⟩
    exact append_ne_empty (append_ne_empty (append_ne_empty (append_ne_empty (by decide) _) _) _) _
  rename_i hcap
  split
  · rename_i hzero
    refine ⟨_, rfl, iff_of_false (by decide) fun ha => ?_⟩
    rcases hzero with hz | hz | hz
    · exact absurd ha.block (Nat.not_le.2 hz)
    · exact ha.nonzero.1 hz
    · exact ha.nonzero.2 hz
  rename_i hzero
  push Not at hpage hcap hzero
  -- a page size of a block or more is no zero divisor, and no subtrahend too large
  have hps : h.pageSize ≠ 0 := by
    intro hz
    have hblock := hzero.1
    rw [hz, UInt64.toNat_zero] at hblock
    exact Nat.not_succ_le_zero _ hblock
  rw [checkedMod_of_ne hps, checkedDiv_of_ne hps, checkedSub_of_le (le_uint64Max _), ok_bind, ok_bind, ok_bind]
  split
  · rename_i hmod
    exact ⟨_, rfl, iff_of_false (by decide) fun ha => hmod ha.multiple⟩
  rename_i hmod
  split
  · rename_i hcount
    exact ⟨_, rfl, iff_of_false (by decide) fun ha => hcount ha.count⟩
  rename_i hcount
  split
  · rename_i hfits
    exact ⟨_, rfl, iff_of_false (by decide) fun ha => absurd ha.fits (UInt64.not_le.2 hfits)⟩
  rename_i hfits
  split
  · rename_i hres
    obtain ⟨b, hb, hne⟩ := List.any_eq_true.1 hres
    exact ⟨_, rfl, iff_of_false (by decide) fun ha => absurd (ha.reserved b hb) (by simpa using hne)⟩
  · rename_i hres
    refine ⟨_, rfl, iff_of_true rfl ⟨hmagic, hversion, hsum, ?_, ?_, hzero.1, hzero.2, not_not.1 hmod, not_not.1 hcount,
      UInt64.not_lt.1 hfits, fun b hb => ?_⟩⟩
    · exact or_iff_not_imp_left.2 hpage
    · exact or_iff_not_imp_left.2 hcap
    · by_contra hne
      exact hres (List.any_eq_true.2 ⟨b, hb, by simpa using hne⟩)

theorem accepted_iff {h : StoreHeader} {pageSize capacityBytes : UInt64} :
    headerMismatchReason h pageSize capacityBytes = .ok "" ↔ Accepted h pageSize capacityBytes := by
  obtain ⟨reason, hrun, hiff⟩ := headerMismatchReason_spec h pageSize capacityBytes
  rw [hrun, ← hiff]
  exact ⟨Except.ok.inj, congrArg _⟩

/-! ## A new store -/

/-- A header sealed for a valid geometry is accepted for this geometry and for a part of it. -/
theorem openHeader_accepted {path : String} {capacity page : UInt64} {maxFileSize maxIoSize : Nat}
    (hv : validateStoreGeometry path capacity.toNat page.toNat maxFileSize maxIoSize = .ok ()) (pageSize capacityBytes : UInt64) :
    Accepted (openHeader page capacity) pageSize capacityBytes ↔
      (pageSize = 0 ∨ pageSize = page) ∧ (capacityBytes = 0 ∨ capacityBytes = capacity) := by
  have hgeom := geometry_ok hv
  constructor
  · intro ha
    exact ⟨ha.page.imp_right Eq.symm, ha.capacity.imp_right Eq.symm⟩
  · rintro ⟨hp, hc⟩
    have hmax := toNat_uint64Max
    have hsum : (openHeader page capacity).checksum = storeHeaderChecksum (openHeader page capacity) := by
      unfold openHeader
      exact checksum_seal _
    refine ⟨rfl, rfl, hsum, hp.imp_right Eq.symm, hc.imp_right Eq.symm, hgeom.page, ⟨?_, ?_⟩, ?_, rfl, ?_, ?_⟩
    · intro hz
      apply hgeom.capacity
      have : capacity = 0 := hz
      rw [this]
      rfl
    · intro hz
      have hz : capacity / page = 0 := hz
      have := congrArg UInt64.toNat hz
      rw [UInt64.toNat_div] at this
      exact hgeom.extents this
    · apply UInt64.toNat.inj
      show (capacity % page).toNat = 0
      rw [UInt64.toNat_mod]
      exact hgeom.multiple
    · show capacity ≤ uint64Max - page
      rw [UInt64.le_iff_toNat_le, UInt64.toNat_sub_of_le _ _ (le_uint64Max page), hmax]
      exact hgeom.word
    · exact fun b hb => List.eq_of_mem_replicate hb

/-- The header format: a block and the header it holds determine each other; the header that `open` builds
for a valid geometry is accepted exactly for requests that leave out or repeat its page size and
capacity; a block accepted for a request is no longer accepted for it after any change of one byte; and
the check of a block never divides by zero or overflows. -/
theorem header_detects :
    (∀ h : StoreHeader, StoreHeader.ofImage ⟨h.image, h.length_image⟩ = h) ∧
    (∀ (path : String) (capacity page : UInt64) (maxFileSize maxIoSize : Nat),
      validateStoreGeometry path capacity.toNat page.toNat maxFileSize maxIoSize = .ok () → ∀ pageSize capacityBytes,
        headerMismatchReason (openHeader page capacity) pageSize capacityBytes = .ok "" ↔
          (pageSize = 0 ∨ pageSize = page) ∧ (capacityBytes = 0 ∨ capacityBytes = capacity)) ∧
    (∀ (h : StoreHeader) (pageSize capacityBytes : UInt64), headerMismatchReason h pageSize capacityBytes = .ok "" →
      ∀ (i : Nat) (v : UInt8), i < 4096 → h.image[i]? ≠ some v →
        ∃ reason, reason ≠ "" ∧
          headerMismatchReason (StoreHeader.ofImage ⟨h.image.set i v, by rw [List.length_set, h.length_image]⟩) pageSize capacityBytes = .ok reason) ∧
    ∀ (img : { bytes : List UInt8 // bytes.length = 4096 }) (pageSize capacityBytes : UInt64),
      ∃ reason, headerMismatchReason (StoreHeader.ofImage img) pageSize capacityBytes = .ok reason := by
  refine ⟨StoreHeader.ofImage_image, fun path capacity page maxFileSize maxIoSize hv pageSize capacityBytes => ?_,
    fun h pageSize capacityBytes hacc i v hi hv => ?_, fun img pageSize capacityBytes => ?_⟩
  · rw [accepted_iff]
    exact openHeader_accepted hv pageSize capacityBytes
  · obtain ⟨reason, hrun, hiff⟩ := headerMismatchReason_spec
      (StoreHeader.ofImage ⟨h.image.set i v, by rw [List.length_set, h.length_image]⟩) pageSize capacityBytes
    refine ⟨reason, fun he => ?_, hrun⟩
    exact checksum_set_ne h (accepted_iff.1 hacc).checksum hi hv (StoreHeader.image_ofImage _) (hiff.1 he).checksum
  · obtain ⟨reason, hrun, -⟩ := headerMismatchReason_spec (StoreHeader.ofImage img) pageSize capacityBytes
    exact ⟨reason, hrun⟩

/-- Two pages of 4096 bytes, and a change of the generation. -/
theorem header_detects_twoPages :
    headerMismatchReason (openHeader 4096 8192) 4096 0 = .ok "" ∧
    ∃ reason, reason ≠ "" ∧ headerMismatchReason (StoreHeader.ofImage ⟨(openHeader 4096 8192).image.set 32 7,
      by rw [List.length_set, StoreHeader.length_image]⟩) 4096 0 = .ok reason := by
  have hv : validateStoreGeometry "store" (8192 : UInt64).toNat (4096 : UInt64).toNat maxOffset maxOffset = .ok () := by
    simp [validateStoreGeometry, headerBlockSize, maxOffset]
  have hacc := (header_detects.2.1 "store" 8192 4096 maxOffset maxOffset hv 4096 0).2 ⟨.inr rfl, .inl rfl⟩
  have hbyte : ∀ h : StoreHeader, h.image[32]? = some (UInt8.ofNat h.generation.toNat) := fun _ => rfl
  have hne : (openHeader 4096 8192).image[32]? ≠ some 7 := by
    rw [hbyte]
    show some (UInt8.ofNat (1 : UInt64).toNat) ≠ some 7
    decide
  exact ⟨hacc, header_detects.2.2.1 _ 4096 0 hacc 32 7 (by decide) hne⟩

end FlashTier
