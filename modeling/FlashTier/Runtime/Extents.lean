/-
The extent map of the NVMe store (`nvme_backend.cpp`, POSIX): which extents are allocated, the free
list a single extent is taken from, the search for a run of extents, and how many operations are
active on each extent.
-/
import FlashTier.Runtime.Budget
import FlashTier.Runtime.Page
import Mathlib.Data.Multiset.AddSub
import Mathlib.Data.List.Nodup
import Mathlib.Tactic

namespace FlashTier

/-- The extent map of an open store. The vectors `used` and `active_io` are functions of the index,
meant below `extentCount`. -/
structure Extents where
  pageSize : Nat
  extentCount : Nat
  opened : Bool := true
  stopping : Bool := false
  used : Nat → Bool := fun _ => false
  activeIo : Nat → Nat := fun _ => 0
  freeList : List Nat
  usedExtents : Nat := 0

namespace Extents

def notOpen : Error := ⟨.state, "store not open", ""⟩
def closing : Error := ⟨.state, "store is closing", ""⟩
def zeroCount : Error := ⟨.invalidArgument, "extent count must be nonzero", ""⟩
def invalidRange (offset : Nat) : Error := ⟨.invalidArgument, "invalid extent range", toString offset⟩
def doubleFree (offset : Nat) : Error := ⟨.state, "double free of store extent range", toString offset⟩
def activeIoError (offset : Nat) : Error := ⟨.state, "cannot free an extent with active I/O", toString offset⟩

/-- The indices `first, …, first + n - 1`. -/
def Within (first n i : Nat) : Bool := first ≤ i && i < first + n

/-- The map right after `NvmeBackend::open`: every extent free. -/
def fresh (pageSize extentCount : Nat) : Extents :=
  { pageSize := pageSize, extentCount := extentCount, freeList := List.range extentCount }

/-- The offset of the extent with index `first`. -/
def offsetOf (s : Extents) (first : Nat) : Nat := u64 ((first + 1) * s.pageSize)

/-- `allocate_extent`: the last extent of the free list. -/
def allocateExtent (s : Extents) : Except Error (Option (Nat × Extents)) :=
  if !s.opened then .error notOpen
  else if s.stopping then .error closing
  else match s.freeList.getLast? with
    | none => .ok none
    | some idx => .ok (some (s.offsetOf idx,
        { s with
          freeList := s.freeList.dropLast
          used := fun i => if i = idx then true else s.used i
          usedExtents := u64 (s.usedExtents + 1) }))

/-- The loop of `allocate_extents`: from the highest index down, the length of the free run ending
there; the index at which it reaches `n`. -/
def findRun (used : Nat → Bool) (n : Nat) : Nat → Nat → Option Nat
  | 0, _ => none
  | idx + 1, run =>
    if used idx then findRun used n idx 0
    else if run + 1 = n then some idx
    else findRun used n idx (run + 1)

/-- `allocate_extents`: `ok none` when no run of `n` free extents is found. -/
def allocateExtents (s : Extents) (n : Nat) : Except Error (Option (Nat × Extents)) :=
  if !s.opened then .error notOpen
  else if n = 0 then .error zeroCount
  else if n = 1 then s.allocateExtent
  else if s.stopping then .error closing
  else if s.extentCount - s.usedExtents < n then .ok none
  else match findRun s.used n s.extentCount 0 with
    | none => .ok none
    | some first => .ok (some (s.offsetOf first,
        { s with
          used := fun i => if Within first n i then true else s.used i
          freeList := s.freeList.filter fun i => !Within first n i
          usedExtents := u64 (s.usedExtents + n) }))

/-- `free_extents`. The checks of every extent come before any change. -/
def freeExtents (s : Extents) (offset n : Nat) : Except Error Extents :=
  if !s.opened then .error notOpen
  else if n = 0 ∨ offset < s.pageSize ∨ offset % s.pageSize ≠ 0 then .error (invalidRange offset)
  else
    let first := offset / s.pageSize - 1
    if s.extentCount < n ∨ s.extentCount - n < first then .error (invalidRange offset)
    else if s.stopping then .error closing
    else match (List.range' first n).find? fun i => !s.used i || s.activeIo i ≠ 0 with
      | some i => .error (if !s.used i then doubleFree offset else activeIoError offset)
      | none => .ok { s with
          used := fun i => if Within first n i then false else s.used i
          freeList := s.freeList ++ List.range' first n
          usedExtents := u64Sub s.usedExtents n }

/-- The bytes of the store file: a header page and the payload. -/
def fileSize (s : Extents) : Nat := (s.extentCount + 1) * s.pageSize

def badIoSize (bytes : Nat) : Error :=
  ⟨.invalidArgument, "store I/O size is zero or exceeds the platform limit", toString bytes⟩

def misalignedIo (offset bytes : Nat) : Error :=
  ⟨.invalidArgument, "store I/O is outside allocated payload or is misaligned",
    "offset " ++ toString offset ++ " bytes " ++ toString bytes⟩

/-- `read_async` and `write_async` up to the queueing of the operation, with `validate_io_request` on a
buffer that is not null. -/
def submit (s : Extents) (what : String) (offset bytes : Nat) : Except Error Extents :=
  if !s.opened then .error notOpen
  else if bytes = 0 ∨ 2 ^ 63 - 1 < bytes then .error (badIoSize bytes)
  else if offset < s.pageSize ∨ offset % s.pageSize ≠ 0 ∨ bytes % s.pageSize ≠ 0 ∨ s.fileSize ≤ offset ∨
      s.fileSize - offset < bytes then .error (misalignedIo offset bytes)
  else if s.stopping then .error closing
  else if ∃ i ∈ List.range' (offset / s.pageSize - 1) (bytes / s.pageSize), s.used i = false then
    .error ⟨.state, "store " ++ what ++ " targets an unallocated extent", ""⟩
  else
    let first := offset / s.pageSize - 1
    let n := bytes / s.pageSize
    .ok { s with activeIo := fun i => if Within first n i then (s.activeIo i + 1) % 2 ^ 32 else s.activeIo i }

/-- `retire_posix_operation`. -/
def retire (s : Extents) (first n : Nat) : Extents :=
  { s with activeIo := fun i => if Within first n i then s.activeIo i - 1 else s.activeIo i }

/-! ## The representation invariant -/

/-- The allocated extents. -/
def usedBag (s : Extents) : Multiset Nat := ((List.range s.extentCount).filter s.used : List Nat)

/-- The extents of a range. -/
def range (first n : Nat) : Multiset Nat := (List.range' first n : List Nat)

theorem mem_range {first n i : Nat} : i ∈ range first n ↔ first ≤ i ∧ i < first + n := by
  simp [range, List.mem_range'_1]

theorem nodup_range (first n : Nat) : (range first n).Nodup := List.nodup_range'

@[simp] theorem card_range (first n : Nat) : (range first n).card = n := by simp [range]

/-- The free list holds each free extent once, the counter counts the allocated ones, and offsets
fit in 64 bits. -/
structure Ok (s : Extents) : Prop where
  opened : s.opened = true
  running : s.stopping = false
  size : 0 < s.pageSize
  small : (s.extentCount + 1) * s.pageSize < 2 ^ 63
  nodup : s.freeList.Nodup
  free : ∀ i, i ∈ s.freeList ↔ i < s.extentCount ∧ s.used i = false
  count : s.usedExtents = s.usedBag.card

theorem mem_usedBag {s : Extents} {i : Nat} : i ∈ s.usedBag ↔ i < s.extentCount ∧ s.used i = true := by
  simp [usedBag]

theorem nodup_usedBag (s : Extents) : s.usedBag.Nodup :=
  Multiset.coe_nodup.2 (List.Nodup.filter _ List.nodup_range)

theorem fresh_ok {pageSize extentCount : Nat} (hp : 0 < pageSize)
    (hs : (extentCount + 1) * pageSize < 2 ^ 63) : (fresh pageSize extentCount).Ok :=
  ⟨rfl, rfl, hp, hs, List.nodup_range, by simp [fresh], by simp [fresh, usedBag]⟩

theorem usedBag_fresh (pageSize extentCount : Nat) : (fresh pageSize extentCount).usedBag = 0 := by
  simp [fresh, usedBag]

/-- Extents fit in 64 bits. -/
theorem Ok.count_lt {s : Extents} (h : s.Ok) : s.extentCount < 2 ^ 64 := by
  have h1 : s.extentCount + 1 ≤ (s.extentCount + 1) * s.pageSize := Nat.le_mul_of_pos_right _ h.size
  have := h.small
  omega

theorem card_usedBag_le (s : Extents) : s.usedBag.card ≤ s.extentCount := by
  have := List.length_filter_le s.used (List.range s.extentCount)
  simpa [usedBag] using this

theorem Ok.offsetOf_eq {s : Extents} (h : s.Ok) {first : Nat} (hf : first < s.extentCount) :
    s.offsetOf first = (first + 1) * s.pageSize := by
  apply u64_of_lt
  have : (first + 1) * s.pageSize ≤ (s.extentCount + 1) * s.pageSize := Nat.mul_le_mul_right _ (by omega)
  have := h.small
  omega

/-- The extents with active operations, each as often as it has one. -/
def ioBag (s : Extents) : Multiset Nat :=
  ((List.range s.extentCount).flatMap fun i => List.replicate (s.activeIo i) i : List Nat)

theorem count_flatMap_replicate (f : Nat → Nat) (i : Nat) :
    ∀ n, ((List.range n).flatMap fun j => List.replicate (f j) j).count i = if i < n then f i else 0
  | 0 => by simp
  | n + 1 => by
    rw [List.range_succ, List.flatMap_append, List.count_append, count_flatMap_replicate f i n]
    simp only [List.flatMap_singleton, List.count_replicate, beq_iff_eq]
    split <;> split <;> split <;> first | omega | (subst_vars; omega)

theorem count_ioBag (s : Extents) (i : Nat) : s.ioBag.count i = if i < s.extentCount then s.activeIo i else 0 := by
  unfold ioBag
  rw [Multiset.coe_count, count_flatMap_replicate]

theorem ioBag_congr {s s' : Extents} (hc : s'.extentCount = s.extentCount) (hio : s'.activeIo = s.activeIo) :
    s'.ioBag = s.ioBag := by
  unfold ioBag
  rw [hc, hio]

/-! ## Allocation -/

/-- What a successful allocation of `n` extents from `first` on does. -/
structure Taken (s s' : Extents) (first n : Nat) : Prop where
  ok : s'.Ok
  geometry : s'.pageSize = s.pageSize ∧ s'.extentCount = s.extentCount
  io : s'.activeIo = s.activeIo
  inside : first + n ≤ s.extentCount
  wasFree : ∀ i ∈ range first n, i ∉ s.usedBag
  bag : s'.usedBag = range first n + s.usedBag

/-- Setting the bits of a range of free extents adds exactly the range to the bag. -/
theorem usedBag_set {s s' : Extents} {first n : Nat} (hc : s'.extentCount = s.extentCount)
    (hin : first + n ≤ s.extentCount) (hfree : ∀ i, first ≤ i → i < first + n → s.used i = false)
    (hu : ∀ i, s'.used i = if Within first n i then true else s.used i) :
    s'.usedBag = range first n + s.usedBag := by
  have hdis : (range first n + s.usedBag).Nodup := by
    rw [Multiset.nodup_add]
    refine ⟨nodup_range _ _, nodup_usedBag s, Multiset.disjoint_left.2 fun {i} hi hi' => ?_⟩
    have := hfree i (mem_range.1 hi).1 (mem_range.1 hi).2
    rw [(mem_usedBag.1 hi').2] at this
    cases this
  rw [Multiset.Nodup.ext (nodup_usedBag s') hdis]
  intro i
  rw [mem_usedBag, Multiset.mem_add, mem_range, mem_usedBag, hc, hu]
  simp only [Within, Bool.and_eq_true, decide_eq_true_eq]
  split <;> rename_i hw
  · constructor
    · intro _; exact .inl hw
    · intro _; exact ⟨by omega, rfl⟩
  · constructor
    · rintro ⟨h1, h2⟩; exact .inr ⟨h1, h2⟩
    · rintro (h | h)
      · exact absurd h hw
      · exact h

/-- The map with a range taken and `fl` left on the free list. -/
def take (s : Extents) (first n : Nat) (fl : List Nat) : Extents :=
  { s with
    used := fun i => if Within first n i then true else s.used i
    freeList := fl
    usedExtents := u64 (s.usedExtents + n) }

theorem taken_of {s : Extents} {first n : Nat} {fl : List Nat} (h : s.Ok) (hin : first + n ≤ s.extentCount)
    (hfree : ∀ i, first ≤ i → i < first + n → s.used i = false) (hnd : fl.Nodup)
    (hmem : ∀ i, i ∈ fl ↔ i ∈ s.freeList ∧ ¬(first ≤ i ∧ i < first + n)) :
    Taken s (s.take first n fl) first n := by
  have hbag : (s.take first n fl).usedBag = range first n + s.usedBag :=
    usedBag_set rfl hin hfree fun _ => rfl
  have hcard : (s.take first n fl).usedBag.card = n + s.usedBag.card := by
    rw [hbag, Multiset.card_add, card_range]
  refine ⟨⟨h.opened, h.running, h.size, h.small, hnd, ?_, ?_⟩, ⟨rfl, rfl⟩, rfl, hin, ?_, hbag⟩
  · intro i
    show i ∈ fl ↔ i < s.extentCount ∧ (if Within first n i then true else s.used i) = false
    rw [hmem, h.free]
    by_cases hw : first ≤ i ∧ i < first + n
    · simp [Within, hw]
    · simp only [Within, Bool.and_eq_true, decide_eq_true_eq, if_neg hw]
      exact and_iff_left hw
  · show u64 (s.usedExtents + n) = _
    have h1 : (s.take first n fl).usedBag.card ≤ s.extentCount := card_usedBag_le _
    have h2 := h.count_lt
    rw [hcard, h.count, Nat.add_comm, u64_of_lt (by omega)]
  · intro i hi hi'
    have := hfree i (mem_range.1 hi).1 (mem_range.1 hi).2
    rw [(mem_usedBag.1 hi').2] at this
    cases this

/-- A run the search finds is free. -/
theorem findRun_some {used : Nat → Bool} {n : Nat} (hn : 0 < n) :
    ∀ {cursor run first : Nat}, (∀ i, cursor ≤ i → i < cursor + run → used i = false) → run < n →
      findRun used n cursor run = some first →
      first < cursor ∧ first + n ≤ cursor + run ∧ ∀ i, first ≤ i → i < first + n → used i = false
  | 0, _, _, _, _, h => by simp [findRun] at h
  | idx + 1, run, first, hrun, hlt, h => by
    unfold findRun at h
    split at h
    · have hnil : ∀ i, idx ≤ i → i < idx + 0 → used i = false := by intro i h1 h2; omega
      obtain ⟨h1, h2, h3⟩ := findRun_some hn hnil hn h
      exact ⟨by omega, by omega, h3⟩
    · rename_i hu
      have hu : used idx = false := by simpa using hu
      have hext : ∀ i, idx ≤ i → i < idx + (run + 1) → used i = false := by
        intro i h1 h2
        rcases Nat.eq_or_lt_of_le h1 with rfl | h1
        · exact hu
        · exact hrun i (by omega) (by omega)
      split at h
      · rename_i he
        cases h
        exact ⟨by omega, by omega, fun i h1 h2 => hext i h1 (by omega)⟩
      · obtain ⟨h1, h2, h3⟩ := findRun_some hn hext (by omega) h
        exact ⟨by omega, by omega, h3⟩

theorem allocateExtent_spec {s : Extents} (h : s.Ok) :
    (s.freeList = [] ∧ s.allocateExtent = .ok none) ∨
    ∃ first s', s.allocateExtent = .ok (some ((first + 1) * s.pageSize, s')) ∧ Taken s s' first 1 := by
  unfold allocateExtent
  simp only [h.opened, h.running]
  rcases hl : s.freeList.getLast? with _ | idx
  · left; exact ⟨List.getLast?_eq_none_iff.1 hl, rfl⟩
  · right
    obtain ⟨l, hl⟩ := List.getLast?_eq_some_iff.1 hl
    have hmem : idx ∈ s.freeList := by rw [hl]; simp
    have hfree := (h.free idx).1 hmem
    have hnd : (l ++ [idx]).Nodup := by rw [← hl]; exact h.nodup
    rw [List.nodup_append] at hnd
    have hidx : idx ∉ l := fun hi => hnd.2.2 idx hi idx (by simp) rfl
    have hused : (fun i => if i = idx then true else s.used i) = fun i => if Within idx 1 i then true else s.used i := by
      funext i
      have : Within idx 1 i = decide (i = idx) := by
        simp only [Within, ← Bool.decide_and, decide_eq_decide]; omega
      simp only [this, decide_eq_true_eq]
    refine ⟨idx, s.take idx 1 l, ?_, taken_of h (by omega) ?_ hnd.1 ?_⟩
    · simp only [h.offsetOf_eq hfree.1, hused, take, hl, List.dropLast_concat, h.opened, h.running]
      rfl
    · intro i h1 h2; rw [show i = idx by omega]; exact hfree.2
    · intro i
      rw [hl, List.mem_append, List.mem_singleton]
      constructor
      · intro hi
        refine ⟨.inl hi, fun hw => hidx ?_⟩
        rw [show idx = i by omega]; exact hi
      · rintro ⟨hi | rfl, hw⟩
        · exact hi
        · omega

/-- `allocate_extents` on a well-formed map: it returns nothing and changes nothing, or it takes a
range that was free. -/
theorem allocateExtents_spec {s : Extents} (h : s.Ok) {n : Nat} (hn : 0 < n) :
    s.allocateExtents n = .ok none ∨
    ∃ first s', s.allocateExtents n = .ok (some ((first + 1) * s.pageSize, s')) ∧ Taken s s' first n := by
  unfold allocateExtents
  simp only [h.opened, h.running]
  rw [if_neg (by simp), if_neg (by omega)]
  split
  · rename_i h1
    subst h1
    rcases allocateExtent_spec h with ⟨-, h1⟩ | h1
    · exact .inl h1
    · exact .inr h1
  · rw [if_neg (by simp)]
    split
    · exact .inl rfl
    · rcases hf : findRun s.used n s.extentCount 0 with _ | first
      · exact .inl rfl
      · right
        obtain ⟨h1, h2, h3⟩ := findRun_some hn (by intro i h1 h2; omega) hn hf
        refine ⟨first, s.take first n (s.freeList.filter fun i => !Within first n i), ?_,
          taken_of h (by omega) h3 (h.nodup.filter _) ?_⟩
        · simp [h.offsetOf_eq h1, take, h.opened, h.running]
        · intro i
          simp only [List.mem_filter, Within, Bool.not_eq_true', Bool.and_eq_false_iff, decide_eq_false_iff_not]
          rw [not_and_or]

/-- The extents from `first` on, `n` of them, are there and free. -/
def FreeRun (s : Extents) (first n : Nat) : Prop :=
  first + n ≤ s.extentCount ∧ ∀ i, first ≤ i → i < first + n → s.used i = false

/-- The search misses no run below the ones it has seen. -/
theorem findRun_none {used : Nat → Bool} {n : Nat} : ∀ {cursor run : Nat}, run < n → findRun used n cursor run = none →
    ∀ first, first + n ≤ cursor + run → ¬∀ i, first ≤ i → i < first + n → used i = false
  | 0, run, hlt, _, first, hle, _ => by omega
  | idx + 1, run, hlt, h, first, hle, hfree => by
    unfold findRun at h
    split at h
    · -- the extent is used, so the run ends below it
      rename_i hu
      by_cases hin : first + n ≤ idx
      · exact findRun_none (by omega) h first (by omega) hfree
      · have := hfree idx (by omega) (by omega)
        rw [hu] at this
        cases this
    · split at h
      · cases h
      · exact findRun_none (by omega) h first (by omega) hfree

/-- A free run leaves room for the extents in use. -/
theorem FreeRun.room {s : Extents} {first n : Nat} (h : s.FreeRun first n) : s.usedBag.card + n ≤ s.extentCount := by
  have hbag : (s.take first n s.freeList).usedBag = _ := usedBag_set (s := s) rfl h.1 h.2 fun _ => rfl
  have hle := card_usedBag_le (s.take first n s.freeList)
  rw [hbag, Multiset.card_add, card_range] at hle
  have : (s.take first n s.freeList).extentCount = s.extentCount := rfl
  omega

/-- `allocate_extents` finds nothing only when there is nothing. -/
theorem allocateExtents_none {s : Extents} (h : s.Ok) {n : Nat} (hn : 0 < n) (ha : s.allocateExtents n = .ok none) (first : Nat) :
    ¬s.FreeRun first n := by
  intro hr
  unfold allocateExtents at ha
  simp only [h.opened, h.running] at ha
  rw [if_neg (by simp), if_neg (by omega)] at ha
  split at ha
  · rename_i h1
    subst h1
    rcases allocateExtent_spec h with ⟨hl, -⟩ | ⟨f, s', ha', -⟩
    · have : first ∈ s.freeList := (h.free first).2 ⟨by have := hr.1; omega, hr.2 first le_rfl (by omega)⟩
      rw [hl] at this
      cases this
    · rw [ha'] at ha
      cases ha
  · rw [if_neg (by simp)] at ha
    split at ha
    · have := hr.room
      rw [← h.count] at this
      omega
    · rcases hf : findRun s.used n s.extentCount 0 with _ | f
      · exact findRun_none hn hf first hr.1 hr.2
      · rw [hf] at ha
        cases ha

/-! ## Release -/

/-- What freeing `n` extents from `first` on does. -/
structure Freed (s s' : Extents) (first n : Nat) : Prop where
  ok : s'.Ok
  geometry : s'.pageSize = s.pageSize ∧ s'.extentCount = s.extentCount
  io : s'.activeIo = s.activeIo
  bag : s.usedBag = range first n + s'.usedBag

theorem offset_div {pageSize first : Nat} (hp : 0 < pageSize) :
    (first + 1) * pageSize / pageSize - 1 = first := by
  rw [Nat.mul_div_cancel _ hp]; omega

/-- Freeing an allocated range without active operations succeeds and frees exactly the range. -/
theorem freeExtents_spec {s : Extents} (h : s.Ok) {first n : Nat} (hn : 0 < n)
    (hin : ∀ i ∈ range first n, i ∈ s.usedBag) (hio : ∀ i ∈ range first n, s.activeIo i = 0) :
    ∃ s', s.freeExtents ((first + 1) * s.pageSize) n = .ok s' ∧ Freed s s' first n := by
  have hin' : ∀ i, first ≤ i → i < first + n → i < s.extentCount ∧ s.used i = true :=
    fun i h1 h2 => mem_usedBag.1 (hin i (mem_range.2 ⟨h1, h2⟩))
  have hend : first + n ≤ s.extentCount := by have := (hin' (first + n - 1) (by omega) (by omega)).1; omega
  have hfind : (List.range' first n).find? (fun i => !s.used i || s.activeIo i ≠ 0) = none := by
    rw [List.find?_eq_none]
    intro i hi
    have hi : i ∈ range first n := hi
    simp [(hin' i (mem_range.1 hi).1 (mem_range.1 hi).2).2, hio i hi]
  unfold freeExtents
  simp only [h.opened, h.running, offset_div h.size, hfind]
  rw [if_neg (by simp), if_neg ?_, if_neg (by omega), if_neg (by simp)]
  swap
  · rintro (h1 | h1 | h1)
    · omega
    · have := Nat.le_mul_of_pos_left s.pageSize (show 0 < first + 1 by omega); omega
    · exact h1 (Nat.mul_mod_left _ _)
  refine ⟨_, rfl, ?_⟩
  -- the freed map is the one a taking of the range leads back from
  set s' : Extents := { s with
    used := fun i => if Within first n i then false else s.used i
    freeList := s.freeList ++ List.range' first n
    usedExtents := u64Sub s.usedExtents n } with hs'
  have hu : ∀ i, s.used i = if Within first n i then true else s'.used i := by
    intro i
    simp only [hs', Within, Bool.and_eq_true, decide_eq_true_eq]
    split
    · rename_i hw; exact (hin' i hw.1 hw.2).2
    · rfl
  have hbag : s.usedBag = range first n + s'.usedBag :=
    usedBag_set rfl hend (fun i h1 h2 => by simp [hs', Within, h1, h2]) hu
  have hcard : s.usedBag.card = n + s'.usedBag.card := by rw [hbag, Multiset.card_add, card_range]
  refine ⟨⟨rfl, rfl, h.size, h.small, ?_, ?_, ?_⟩, ⟨rfl, rfl⟩, rfl, hbag⟩
  · show (s.freeList ++ List.range' first n).Nodup
    rw [List.nodup_append]
    refine ⟨h.nodup, List.nodup_range', fun a ha b hb hab => ?_⟩
    subst hab
    have hb : a ∈ range first n := hb
    have := (hin' a (mem_range.1 hb).1 (mem_range.1 hb).2).2
    rw [((h.free a).1 ha).2] at this
    cases this
  · intro i
    show i ∈ s.freeList ++ List.range' first n ↔ i < s.extentCount ∧ (if Within first n i then false else s.used i) = false
    rw [List.mem_append, h.free, show i ∈ List.range' first n ↔ _ from mem_range]
    simp only [Within, Bool.and_eq_true, decide_eq_true_eq]
    split <;> rename_i hw
    · constructor
      · intro _; exact ⟨by omega, rfl⟩
      · intro _; exact .inr hw
    · constructor
      · rintro (h1 | h1)
        · exact h1
        · exact absurd h1 hw
      · exact .inl
  · show u64Sub s.usedExtents n = s'.usedBag.card
    have h1 := card_usedBag_le s
    have h2 := h.count_lt
    rw [h.count, u64Sub_of_le (by omega)]
    omega

/-- Whatever `free_extents` accepts is an allocated range without active operations. -/
theorem freeExtents_ok {s s' : Extents} {offset n : Nat} (h : s.Ok) (hf : s.freeExtents offset n = .ok s') :
    ∃ first, offset = (first + 1) * s.pageSize ∧ Freed s s' first n ∧ ∀ i ∈ range first n, s.activeIo i = 0 := by
  have hrun := hf
  unfold freeExtents at hf
  simp only [h.opened, h.running, Bool.not_true, Bool.false_eq_true, if_false] at hf
  split at hf
  · cases hf
  rename_i hr
  push Not at hr
  obtain ⟨hn, hlow, hmod⟩ := hr
  split at hf
  · cases hf
  rename_i hin
  split at hf
  · cases hf
  rename_i hfind
  obtain ⟨first, rfl⟩ : ∃ first, offset = (first + 1) * s.pageSize := by
    obtain ⟨k, rfl⟩ := Nat.dvd_of_mod_eq_zero hmod
    obtain ⟨first, rfl⟩ : ∃ first, k = first + 1 := Nat.exists_eq_succ_of_ne_zero (by rintro rfl; have := h.size; omega)
    exact ⟨first, Nat.mul_comm ..⟩
  rw [offset_div h.size] at hin hfind
  rw [List.find?_eq_none] at hfind
  have hbits : ∀ i ∈ range first n, s.used i = true ∧ s.activeIo i = 0 := by
    intro i hi
    have := hfind i hi
    simpa using this
  obtain ⟨s'', hs'', hfreed⟩ := freeExtents_spec h (Nat.pos_of_ne_zero hn)
    (fun i hi => mem_usedBag.2 ⟨by have := mem_range.1 hi; omega, (hbits i hi).1⟩) (fun i hi => (hbits i hi).2)
  rw [hs''] at hrun
  cases hrun
  exact ⟨first, rfl, hfreed, fun i hi => (hbits i hi).2⟩

/-! ## Operations on allocated extents -/

/-- What queueing an operation on `n` allocated extents from `first` on does. -/
structure Submitted (s s' : Extents) (first n : Nat) : Prop where
  ok : s'.Ok
  geometry : s'.pageSize = s.pageSize ∧ s'.extentCount = s.extentCount
  bag : s'.usedBag = s.usedBag
  io : ∀ i, s'.activeIo i = (range first n).count i + s.activeIo i

theorem count_range (first n i : Nat) : (range first n).count i = if Within first n i then 1 else 0 := by
  by_cases h : i ∈ range first n
  · rw [Multiset.count_eq_one_of_mem (nodup_range _ _) h, if_pos]
    simpa [Within] using mem_range.1 h
  · rw [Multiset.count_eq_zero_of_notMem h, if_neg]
    simpa [Within] using fun h1 h2 => h (mem_range.2 ⟨h1, h2⟩)

theorem submit_spec {s : Extents} (h : s.Ok) (what : String) {first n : Nat} (hn : 0 < n)
    (hin : ∀ i ∈ range first n, i ∈ s.usedBag) (hio : ∀ i ∈ range first n, s.activeIo i = 0) :
    ∃ s', s.submit what ((first + 1) * s.pageSize) (n * s.pageSize) = .ok s' ∧ Submitted s s' first n := by
  have hin' : ∀ i, first ≤ i → i < first + n → i < s.extentCount ∧ s.used i = true :=
    fun i h1 h2 => mem_usedBag.1 (hin i (mem_range.2 ⟨h1, h2⟩))
  have hend : first + n ≤ s.extentCount := by have := (hin' (first + n - 1) (by omega) (by omega)).1; omega
  have hp := h.size
  have hfile : (first + 1) * s.pageSize + n * s.pageSize ≤ s.fileSize := by
    rw [← Nat.add_mul]; exact Nat.mul_le_mul_right _ (by omega)
  have hpos : s.pageSize ≤ n * s.pageSize := Nat.le_mul_of_pos_left _ hn
  have hone : s.pageSize ≤ (first + 1) * s.pageSize := Nat.le_mul_of_pos_left _ (by omega)
  have hsmall : s.fileSize < 2 ^ 63 := h.small
  have hused : ¬∃ i ∈ List.range' first n, s.used i = false := by
    rintro ⟨i, hi, hf⟩
    have hi : i ∈ range first n := hi
    rw [(hin' i (mem_range.1 hi).1 (mem_range.1 hi).2).2] at hf
    cases hf
  refine ⟨{ s with activeIo := fun i => if Within first n i then (s.activeIo i + 1) % 2 ^ 32 else s.activeIo i },
    ?_, ⟨h.opened, h.running, h.size, h.small, h.nodup, h.free, h.count⟩, ⟨rfl, rfl⟩, rfl, ?_⟩
  · unfold submit
    rw [offset_div hp, Nat.mul_div_cancel _ hp, h.opened, h.running]
    rw [if_neg (by simp), if_neg (by omega), if_neg, if_neg (by simp), if_neg hused]
    rw [Nat.mul_mod_left, Nat.mul_mod_left]
    omega
  · intro i
    rw [count_range]
    show (if Within first n i then (s.activeIo i + 1) % 2 ^ 32 else s.activeIo i) = _
    split
    · rename_i hw
      have hi : i ∈ range first n := by rw [mem_range]; simpa [Within] using hw
      rw [hio i hi]
      rfl
    · omega

/-- Whatever `read_async` and `write_async` accept is a range of allocated extents inside the payload. -/
theorem submit_ok {s s' : Extents} {what : String} {offset bytes : Nat} (hp : 0 < s.pageSize)
    (h : s.submit what offset bytes = .ok s') :
    ∃ first n, offset = (first + 1) * s.pageSize ∧ bytes = n * s.pageSize ∧ 0 < n ∧ first + n ≤ s.extentCount ∧
      (∀ i ∈ range first n, s.used i = true) ∧
      s' = { s with activeIo := fun i => if Within first n i then (s.activeIo i + 1) % 2 ^ 32 else s.activeIo i } := by
  unfold submit at h
  split at h
  · cases h
  split at h
  · cases h
  rename_i hsize
  split at h
  · cases h
  rename_i hrange
  split at h
  · cases h
  split at h
  · cases h
  rename_i hused
  push Not at hsize hrange hused
  obtain ⟨hlow, hoff, hbytes, hin, hend⟩ := hrange
  obtain ⟨k, rfl⟩ := Nat.dvd_of_mod_eq_zero hoff
  obtain ⟨n, rfl⟩ := Nat.dvd_of_mod_eq_zero hbytes
  obtain ⟨first, rfl⟩ : ∃ first, k = first + 1 := Nat.exists_eq_succ_of_ne_zero (by rintro rfl; omega)
  rw [Nat.mul_comm s.pageSize, Nat.mul_comm s.pageSize, offset_div hp, Nat.mul_div_cancel _ hp] at h hused
  have hn : 0 < n := Nat.pos_of_ne_zero (by rintro rfl; omega)
  have hle : (first + 1 + n) * s.pageSize ≤ (s.extentCount + 1) * s.pageSize := by
    have : s.fileSize = (s.extentCount + 1) * s.pageSize := rfl
    rw [Nat.add_mul, Nat.mul_comm (first + 1), Nat.mul_comm n]
    omega
  have hle : first + 1 + n ≤ s.extentCount + 1 := Nat.le_of_mul_le_mul_right hle hp
  cases h
  refine ⟨first, n, Nat.mul_comm .., Nat.mul_comm .., hn, by omega, fun i hi => ?_, rfl⟩
  simpa using hused i hi

theorem Submitted.ioBag {s s' : Extents} {first n : Nat} (h : Submitted s s' first n)
    (hin : ∀ i ∈ range first n, i < s.extentCount) : s'.ioBag = range first n + s.ioBag := by
  ext i
  rw [Multiset.count_add, count_ioBag, count_ioBag, h.geometry.2, h.io]
  by_cases hi : i ∈ range first n
  · simp [hin i hi]
  · rw [Multiset.count_eq_zero_of_notMem hi, Nat.zero_add, Nat.zero_add]

theorem retire_ok {s : Extents} (h : s.Ok) (first n : Nat) : (s.retire first n).Ok :=
  ⟨h.opened, h.running, h.size, h.small, h.nodup, h.free, h.count⟩

@[simp] theorem usedBag_retire (s : Extents) (first n : Nat) : (s.retire first n).usedBag = s.usedBag := rfl

theorem activeIo_retire (s : Extents) (first n i : Nat) :
    (s.retire first n).activeIo i = s.activeIo i - (range first n).count i := by
  rw [count_range]
  show (if Within first n i then s.activeIo i - 1 else s.activeIo i) = _
  split <;> omega

/-- Operations that are active end. -/
theorem ioBag_retire {s : Extents} {first n : Nat} {b : Multiset Nat} (h : s.ioBag = range first n + b) :
    (s.retire first n).ioBag = b := by
  ext i
  have hc := congrArg (Multiset.count i) h
  rw [Multiset.count_add, count_ioBag] at hc
  rw [count_ioBag, activeIo_retire]
  show (if i < s.extentCount then s.activeIo i - (range first n).count i else 0) = b.count i
  split
  · rename_i hi
    rw [if_pos hi] at hc
    omega
  · rename_i hi
    rw [if_neg hi] at hc
    omega

end Extents

end FlashTier
