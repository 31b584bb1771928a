/-
The extent allocator of an open store over whole sequences of calls, valid or not: the free list, the
bits and the counter agree, an allocation returns extents that no live allocation has, and a call that
is refused or throws changes nothing.
-/
import FlashTier.Runtime.Extents

namespace FlashTier

/-! ## Geometry -/

/-- `detail::kHeaderBlockSize`. -/
def headerBlockSize : Nat := 4096

/-- `validate_store_geometry`. -/
def validateStoreGeometry (path : String) (capacityBytes pageSize maxFileSize maxIoSize : Nat) : Except Error Unit :=
  if path.isEmpty then .error ⟨.invalidArgument, "store path must not be empty", ""⟩
  else if path.toList.contains (Char.ofNat 0) then
    .error ⟨.invalidArgument, "store path must not contain an embedded NUL byte", ""⟩
  else if capacityBytes = 0 ∨ pageSize < headerBlockSize ∨ capacityBytes % pageSize ≠ 0 then
    .error ⟨.invalidArgument, "store capacity must be a nonzero multiple of a page size of at least 4096 bytes", ""⟩
  else if maxIoSize < pageSize then
    .error ⟨.invalidArgument, "store page size exceeds the platform I/O limit", toString pageSize⟩
  else if 2 ^ 64 - 1 - pageSize < capacityBytes ∨ maxFileSize < capacityBytes + pageSize then
    .error ⟨.invalidArgument, "store geometry exceeds the platform file-size limit", ""⟩
  else if capacityBytes / pageSize = 0 ∨ 2 ^ 64 - 1 < capacityBytes / pageSize then
    .error ⟨.invalidArgument, "store extent count exceeds the platform metadata limit", ""⟩
  else .ok ()

/-- What an accepted geometry satisfies. -/
structure GeometryOk (capacityBytes pageSize maxFileSize : Nat) : Prop where
  capacity : capacityBytes ≠ 0
  page : headerBlockSize ≤ pageSize
  multiple : capacityBytes % pageSize = 0
  word : capacityBytes ≤ 2 ^ 64 - 1 - pageSize
  file : capacityBytes + pageSize ≤ maxFileSize
  extents : capacityBytes / pageSize ≠ 0

theorem geometry_ok {path : String} {capacityBytes pageSize maxFileSize maxIoSize : Nat}
    (h : validateStoreGeometry path capacityBytes pageSize maxFileSize maxIoSize = .ok ()) : GeometryOk capacityBytes pageSize maxFileSize := by
  unfold validateStoreGeometry at h
  split at h; · cases h
  split at h; · cases h
  split at h; · cases h
  rename_i hgeom
  split at h; · cases h
  split at h; · cases h
  rename_i hfile
  split at h; · cases h
  rename_i hcount
  push Not at hgeom hfile hcount
  exact ⟨hgeom.1, hgeom.2.1, hgeom.2.2, hfile.1, hfile.2, hcount.1⟩

/-- The largest `off_t`, and the largest `ssize_t`. -/
def maxOffset : Nat := 2 ^ 63 - 1

namespace Extents

/-- The map that `NvmeBackend::open` sets up. -/
def openMap (path : String) (capacityBytes pageSize : Nat) : Except Error Extents := do
  validateStoreGeometry path capacityBytes pageSize maxOffset maxOffset
  pure (fresh pageSize (capacityBytes / pageSize))

theorem openMap_ok {path : String} {capacityBytes pageSize : Nat} {s : Extents}
    (h : openMap path capacityBytes pageSize = .ok s) :
    s = fresh pageSize (capacityBytes / pageSize) ∧ s.Ok ∧ s.fileSize = capacityBytes + pageSize := by
  unfold openMap at h
  rcases hv : validateStoreGeometry path capacityBytes pageSize maxOffset maxOffset with e | u
  · rw [hv] at h
    cases h
  · rw [hv] at h
    cases h
    have hgeom := geometry_ok hv
    have hpos : 0 < pageSize := lt_of_lt_of_le (by decide) hgeom.page
    have hsize : (capacityBytes / pageSize + 1) * pageSize = capacityBytes + pageSize := by
      rw [Nat.add_mul, Nat.one_mul, Nat.div_mul_cancel (Nat.dvd_of_mod_eq_zero hgeom.multiple)]
    refine ⟨rfl, fresh_ok hpos ?_, hsize⟩
    rw [hsize]
    have : capacityBytes + pageSize ≤ 2 ^ 63 - 1 := hgeom.file
    omega

/-! ## Calls -/

inductive Call where
  | allocateExtent
  | allocateExtents (n : Nat)
  | freeExtent (offset : Nat)
  | freeExtents (offset n : Nat)
  deriving DecidableEq, Repr

/-- How a call ends: with the offset of the extents it took, without any (`false`), with the extents
given back, or with a throw. -/
inductive Answer where
  | took (offset : Nat)
  | refused
  | gave
  | threw (e : Error)
  deriving DecidableEq, Repr

/-- How many extents the call is about. -/
def Call.count : Call → Nat
  | .allocateExtent | .freeExtent _ => 1
  | .allocateExtents n | .freeExtents _ n => n

def ofAllocation (s : Extents) : Except Error (Option (Nat × Extents)) → Answer × Extents
  | .ok (some (offset, s')) => (.took offset, s')
  | .ok none => (.refused, s)
  | .error e => (.threw e, s)

def ofRelease (s : Extents) : Except Error Extents → Answer × Extents
  | .ok s' => (.gave, s')
  | .error e => (.threw e, s)

/-- A call. `free_extent` is `free_extents` of one extent. -/
def call (s : Extents) : Call → Answer × Extents
  | .allocateExtent => s.ofAllocation s.allocateExtent
  | .allocateExtents n => s.ofAllocation (s.allocateExtents n)
  | .freeExtent offset => s.ofRelease (s.freeExtents offset 1)
  | .freeExtents offset n => s.ofRelease (s.freeExtents offset n)

/-- The offset a release names. -/
def Call.offset : Call → Nat
  | .allocateExtent | .allocateExtents _ => 0
  | .freeExtent offset | .freeExtents offset _ => offset

/-- The extents a call took or gave back. -/
def Call.covers (pageSize : Nat) (k : Call) (a : Answer) (i : Nat) : Bool :=
  match a with
  | .took offset => Within (offset / pageSize - 1) k.count i
  | .gave => Within (k.offset / pageSize - 1) k.count i
  | _ => false

/-- The map and the calls so far, the last one first. -/
structure Session where
  map : Extents
  trace : List (Call × Answer) := []

def Session.step (x : Session) (k : Call) : Session :=
  { map := (x.map.call k).2, trace := (k, (x.map.call k).1) :: x.trace }

def Session.run (x : Session) (calls : List Call) : Session := calls.foldl Session.step x

/-- The extent was taken by a call, and no later call gave it back. -/
def live (pageSize : Nat) : List (Call × Answer) → Nat → Bool
  | [], _ => false
  | (k, .took offset) :: trace, i => k.covers pageSize (.took offset) i || live pageSize trace i
  | (k, .gave) :: trace, i => !k.covers pageSize .gave i && live pageSize trace i
  | _ :: trace, i => live pageSize trace i

/-! ## One call -/

/-- What a call does: it takes a range of free extents inside the payload, gives a range of allocated
extents back, or leaves the map as it is. -/
inductive Effect (s : Extents) (k : Call) : Answer → Extents → Prop where
  | took {first : Nat} {s' : Extents} (h : Taken s s' first k.count) :
      Effect s k (.took ((first + 1) * s.pageSize)) s'
  | gave {first : Nat} {s' : Extents} (h : Freed s s' first k.count) (hk : k.offset = (first + 1) * s.pageSize)
      (hio : ∀ i ∈ range first k.count, s.activeIo i = 0) : Effect s k .gave s'
  | refused : Effect s k .refused s
  | threw (e : Error) : Effect s k (.threw e) s

theorem effect_of_release {s : Extents} (h : s.Ok) (k : Call) :
    Effect s k (s.ofRelease (s.freeExtents k.offset k.count)).1 (s.ofRelease (s.freeExtents k.offset k.count)).2 := by
  rcases hf : s.freeExtents k.offset k.count with e | s'
  · exact .threw e
  · obtain ⟨first, hk, hfreed, hio⟩ := freeExtents_ok h hf
    exact .gave hfreed hk hio

theorem call_effect {s : Extents} (h : s.Ok) (k : Call) : Effect s k (s.call k).1 (s.call k).2 := by
  cases k with
  | allocateExtent =>
    show Effect s .allocateExtent (s.ofAllocation s.allocateExtent).1 (s.ofAllocation s.allocateExtent).2
    rcases allocateExtent_spec h with ⟨-, hs⟩ | ⟨first, s', hs, ht⟩
    · rw [hs]
      exact .refused
    · rw [hs]
      exact .took ht
  | allocateExtents n =>
    show Effect s (.allocateExtents n) (s.ofAllocation (s.allocateExtents n)).1 (s.ofAllocation (s.allocateExtents n)).2
    by_cases hn : n = 0
    · subst hn
      simp only [allocateExtents, h.opened, Bool.not_true, Bool.false_eq_true, if_false, if_true]
      exact .threw _
    · rcases allocateExtents_spec h (Nat.pos_of_ne_zero hn) with hs | ⟨first, s', hs, ht⟩
      · rw [hs]
        exact .refused
      · rw [hs]
        exact .took ht
  | freeExtent offset => exact effect_of_release h (.freeExtent offset)
  | freeExtents offset n => exact effect_of_release h (.freeExtents offset n)

/-- A call keeps the map well formed, and its bits as the trace has them. -/
theorem Effect.keeps {s s' : Extents} {k : Call} {a : Answer} (he : Effect s k a s') (h : s.Ok) :
    s'.Ok ∧ s'.pageSize = s.pageSize ∧ s'.extentCount = s.extentCount := by
  cases he with
  | took ht => exact ⟨ht.ok, ht.geometry⟩
  | gave hf => exact ⟨hf.ok, hf.geometry⟩
  | refused | threw => exact ⟨h, rfl, rfl⟩

theorem mem_range_iff_within {first n i : Nat} : i ∈ range first n ↔ Within first n i = true := by
  simp [mem_range, Within]

theorem Freed.not_mem {s s' : Extents} {first n i : Nat} (h : Freed s s' first n) (hi : i ∈ range first n) : i ∉ s'.usedBag := by
  have hnd : (range first n + s'.usedBag).Nodup := h.bag ▸ nodup_usedBag s
  exact Multiset.disjoint_left.1 (Multiset.nodup_add.1 hnd).2.2 hi

/-- After a call, an allocated extent is one the call took, or one that was allocated and that the call
did not give back. -/
theorem Effect.bag {s s' : Extents} {k : Call} {a : Answer} (he : Effect s k a s') (h : s.Ok) (i : Nat)
    (trace : List (Call × Answer)) (hl : i ∈ s.usedBag ↔ live s.pageSize trace i = true) :
    i ∈ s'.usedBag ↔ live s.pageSize ((k, a) :: trace) i = true := by
  cases he with
  | took ht =>
    rw [ht.bag, Multiset.mem_add, hl, mem_range_iff_within]
    simp only [live, Call.covers, offset_div h.size, Bool.or_eq_true]
  | gave hf hk _ =>
    rw [hf.bag, Multiset.mem_add] at hl
    simp only [live, Call.covers, hk, offset_div h.size, Bool.and_eq_true, Bool.not_eq_true', ← hl,
      ← Bool.not_eq_true, ← mem_range_iff_within]
    constructor
    · intro hi
      exact ⟨fun hr => hf.not_mem hr hi, .inr hi⟩
    · rintro ⟨hw, hi⟩
      exact hi.resolve_left hw
  | refused | threw => exact hl

/-! ## Sequences of calls -/

/-- The representation invariant of a session over the map `s₀`. -/
structure Session.Ok (s₀ : Extents) (x : Session) : Prop where
  map : x.map.Ok
  geometry : x.map.pageSize = s₀.pageSize ∧ x.map.extentCount = s₀.extentCount
  live : ∀ i, i ∈ x.map.usedBag ↔ live s₀.pageSize x.trace i = true

theorem Session.Ok.step {s₀ : Extents} {x : Session} (h : x.Ok s₀) (k : Call) : (x.step k).Ok s₀ := by
  have he := call_effect h.map k
  obtain ⟨hok, hp, hc⟩ := he.keeps h.map
  refine ⟨hok, ⟨hp.trans h.geometry.1, hc.trans h.geometry.2⟩, fun i => ?_⟩
  have := he.bag h.map i x.trace (by rw [h.geometry.1]; exact h.live i)
  rw [h.geometry.1] at this
  exact this

theorem Session.Ok.run {s₀ : Extents} : ∀ (calls : List Call) {x : Session}, x.Ok s₀ → (x.run calls).Ok s₀
  | [], _, h => h
  | k :: calls, _, h => Session.Ok.run calls (h.step k)

theorem session_ok {path : String} {capacityBytes pageSize : Nat} {s : Extents}
    (h : openMap path capacityBytes pageSize = .ok s) (calls : List Call) : (Session.run { map := s } calls).Ok s := by
  obtain ⟨rfl, hok, -⟩ := openMap_ok h
  refine Session.Ok.run calls ⟨hok, ⟨rfl, rfl⟩, fun i => ?_⟩
  rw [usedBag_fresh]
  simp [live]

/-- The number of extents whose bit is set. -/
def bitCount (s : Extents) : Nat := ((List.range s.extentCount).filter s.used).length

/-- What a successful allocation of `n` extents returns: the offset of a run inside the payload, without
overflow, whose extents were free and that no earlier allocation still has. -/
structure AllocationOk (s s' : Extents) (trace : List (Call × Answer)) (n offset : Nat) : Prop where
  run : ∃ first, offset = (first + 1) * s.pageSize ∧ ∀ i, first ≤ i → i < first + n →
    i < s.extentCount ∧ s.used i = false ∧ live s.pageSize trace i = false ∧ s'.used i = true
  low : s.pageSize ≤ offset
  high : offset + n * s.pageSize ≤ s.fileSize
  small : s.fileSize < 2 ^ 64
  others : ∀ i, i < s.extentCount → ¬Within (offset / s.pageSize - 1) n i = true → s'.used i = s.used i

/-- What a successful release of `n` extents at an offset does. -/
structure ReleaseOk (s s' : Extents) (offset n : Nat) : Prop where
  range : ∀ i, Within (offset / s.pageSize - 1) n i = true → i < s.extentCount ∧ s.used i = true ∧ s'.used i = false
  others : ∀ i, i < s.extentCount → ¬Within (offset / s.pageSize - 1) n i = true → s'.used i = s.used i

theorem used_eq_of_mem {s s' : Extents} {i : Nat} (hc : s'.extentCount = s.extentCount) (hi : i < s.extentCount)
    (h : i ∈ s'.usedBag ↔ i ∈ s.usedBag) : s'.used i = s.used i := by
  rw [mem_usedBag, mem_usedBag, hc] at h
  simp only [hi, true_and] at h
  exact Bool.eq_iff_iff.2 h

theorem used_false_of_not_mem {s : Extents} {i : Nat} (hi : i < s.extentCount) (h : i ∉ s.usedBag) : s.used i = false := by
  rw [mem_usedBag] at h
  simpa [hi] using h

theorem Taken.allocationOk {s s' : Extents} {first n : Nat} (h : Taken s s' first n) (hs : s.Ok)
    {trace : List (Call × Answer)} (hl : ∀ i, i ∈ s.usedBag ↔ live s.pageSize trace i = true) :
    AllocationOk s s' trace n ((first + 1) * s.pageSize) := by
  have hin := h.inside
  refine ⟨⟨first, rfl, fun i h1 h2 => ?_⟩, Nat.le_mul_of_pos_left _ (Nat.succ_pos first), ?_, ?_, fun i hi hw => ?_⟩
  · have hr : i ∈ range first n := mem_range.2 ⟨h1, h2⟩
    have hfree : i ∉ s.usedBag := h.wasFree i hr
    have hused : i ∈ s'.usedBag := by
      rw [h.bag]
      exact Multiset.mem_add.2 (.inl hr)
    refine ⟨by omega, used_false_of_not_mem (by omega) hfree, ?_, (mem_usedBag.1 hused).2⟩
    rw [← Bool.not_eq_true, ← hl]
    exact hfree
  · rw [← Nat.add_mul]
    exact Nat.mul_le_mul_right _ (by omega)
  · have := hs.small
    show (s.extentCount + 1) * s.pageSize < 2 ^ 64
    omega
  · rw [offset_div hs.size, ← mem_range_iff_within] at hw
    apply used_eq_of_mem h.geometry.2 hi
    rw [h.bag, Multiset.mem_add]
    exact ⟨fun hm => hm.resolve_left hw, .inr⟩

theorem Freed.releaseOk {s s' : Extents} {first n : Nat} (h : Freed s s' first n) (hs : s.Ok) :
    ReleaseOk s s' ((first + 1) * s.pageSize) n := by
  constructor
  · intro i hw
    rw [offset_div hs.size, ← mem_range_iff_within] at hw
    have hused : i ∈ s.usedBag := by
      rw [h.bag]
      exact Multiset.mem_add.2 (.inl hw)
    obtain ⟨hi, hu⟩ := mem_usedBag.1 hused
    exact ⟨hi, hu, used_false_of_not_mem (by rw [h.geometry.2]; exact hi) (h.not_mem hw)⟩
  · intro i hi hw
    rw [offset_div hs.size, ← mem_range_iff_within] at hw
    apply used_eq_of_mem h.geometry.2 hi
    rw [h.bag, Multiset.mem_add]
    exact ⟨.inr, fun hm => hm.resolve_left hw⟩

/-- After any sequence of calls on a store whose geometry was accepted: the free list holds each free
extent once, the counter counts the bits, which are those of the live allocations, and the next call
takes free extents inside the payload, gives exactly its extents back, or changes nothing. -/
theorem extents_represented {path : String} {capacityBytes pageSize : Nat} {s : Extents}
    (h : openMap path capacityBytes pageSize = .ok s) (calls : List Call) {x : Session}
    (hx : Session.run { map := s } calls = x) (k : Call) :
    x.map.freeList.Nodup ∧ (∀ i, i ∈ x.map.freeList ↔ i < x.map.extentCount ∧ x.map.used i = false) ∧
      x.map.usedExtents = x.map.bitCount ∧ (∀ i, i < x.map.extentCount → x.map.used i = live x.map.pageSize x.trace i) ∧
      (∀ offset, (x.map.call k).1 = .took offset → AllocationOk x.map (x.map.call k).2 x.trace k.count offset) ∧
      ((x.map.call k).1 = .gave → ReleaseOk x.map (x.map.call k).2 k.offset k.count) ∧
      ((x.map.call k).1 = .refused ∨ (∃ e, (x.map.call k).1 = .threw e) → (x.map.call k).2 = x.map) := by
  have hok : x.Ok s := hx ▸ session_ok h calls
  have hlive : ∀ i, i ∈ x.map.usedBag ↔ live x.map.pageSize x.trace i = true := by
    rw [hok.geometry.1]
    exact hok.live
  have he := call_effect hok.map k
  refine ⟨hok.map.nodup, hok.map.free, hok.map.count, fun i hi => ?_, ?_⟩
  · rw [Bool.eq_iff_iff, ← hlive, mem_usedBag]
    simp only [hi, true_and]
  · generalize (x.map.call k).1 = a at he ⊢
    generalize (x.map.call k).2 = s' at he ⊢
    cases he with
    | took ht =>
      refine ⟨?_, ?_, ?_⟩
      · rintro offset ⟨⟩
        exact ht.allocationOk hok.map hlive
      · rintro ⟨⟩
      · rintro (h | ⟨e, h⟩) <;> cases h
    | gave hf hk _ =>
      refine ⟨?_, ?_, ?_⟩
      · rintro offset ⟨⟩
      · rintro -
        rw [hk]
        exact hf.releaseOk hok.map
      · rintro (h | ⟨e, h⟩) <;> cases h
    | refused | threw =>
      refine ⟨?_, ?_, fun _ => rfl⟩
      · rintro offset ⟨⟩
      · rintro ⟨⟩

/-- Single extents and runs are taken and given back, one is given back twice and a run is too long: of six extents the
two in the middle stay in use. -/
def mixedCalls : List Call :=
  [.allocateExtent, .allocateExtents 2, .allocateExtent, .allocateExtent, .freeExtent 8192, .freeExtents 20480 2, .freeExtent 8192, .allocateExtents 3]

abbrev fragmented : Session := Session.run { map := fresh 4096 6 } mixedCalls

theorem extents_represented_mixed : openMap "store" 24576 4096 = .ok (fresh 4096 6) ∧ fragmented.map.usedExtents = 2 ∧
    AllocationOk fragmented.map (fragmented.map.call (.allocateExtents 2)).2 fragmented.trace 2 20480 ∧
    ReleaseOk fragmented.map (fragmented.map.call (.freeExtent 12288)).2 12288 1 :=
  have h : openMap "store" 24576 4096 = .ok (fresh 4096 6) := rfl
  ⟨h, by decide +kernel, (extents_represented h mixedCalls rfl (.allocateExtents 2)).2.2.2.2.1 20480 (by decide +kernel),
    (extents_represented h mixedCalls rfl (.freeExtent 12288)).2.2.2.2.2.1 (by decide +kernel)⟩

/-! ## The search -/

/-- No free run begins above the one the search finds. -/
theorem findRun_greatest {used : Nat → Bool} {n : Nat} : ∀ {cursor run first : Nat}, run < n → findRun used n cursor run = some first →
    ∀ f, f + n ≤ cursor + run → (∀ i, f ≤ i → i < f + n → used i = false) → f ≤ first
  | 0, _, _, _, h, _, _, _ => by cases h
  | idx + 1, run, first, hlt, h, f, hle, hfree => by
    unfold findRun at h
    split at h
    · -- a run that reaches beyond a used extent begins above it, where there are too few
      rename_i hu
      by_cases hin : f + n ≤ idx
      · exact findRun_greatest (by omega) h f (by omega) hfree
      · have := hfree idx (by omega) (by omega)
        rw [hu] at this
        cases this
    · split at h
      · cases h
        omega
      · exact findRun_greatest (by omega) h f (by omega) hfree

/-- What a successful allocation of several extents finds: the free run that begins highest. -/
theorem allocateExtents_greatest {s s' : Extents} {n offset : Nat} (hn : 2 ≤ n) (h : s.Ok)
    (ha : s.allocateExtents n = .ok (some (offset, s'))) :
    ∃ first, offset = (first + 1) * s.pageSize ∧ s.FreeRun first n ∧ ∀ f, s.FreeRun f n → f ≤ first := by
  unfold allocateExtents at ha
  simp only [h.opened, h.running] at ha
  rw [if_neg (by simp), if_neg (by omega), if_neg (by omega), if_neg (by simp)] at ha
  split at ha
  · cases ha
  rcases hf : findRun s.used n s.extentCount 0 with _ | first
  · rw [hf] at ha
    cases ha
  rw [hf] at ha
  obtain ⟨hlt, hin, hfree⟩ := findRun_some (by omega) (by intro i h1 h2; omega) (by omega) hf
  simp only [Except.ok.injEq, Option.some.injEq, Prod.mk.injEq] at ha
  refine ⟨first, ?_, ⟨hin, hfree⟩, fun f hr => findRun_greatest (by omega) hf f hr.1 hr.2⟩
  rw [← ha.1, h.offsetOf_eq hlt]

theorem allocateExtents_iff {s : Extents} (h : s.Ok) {n : Nat} (hn : 1 ≤ n) :
    (∃ offset s', s.allocateExtents n = .ok (some (offset, s'))) ↔ ∃ first, s.FreeRun first n := by
  constructor
  · rintro ⟨offset, s', ha⟩
    rcases allocateExtents_spec h hn with hnone | ⟨first, s'', hsome, ht⟩
    · rw [hnone] at ha
      cases ha
    · refine ⟨first, ht.inside, fun i h1 h2 => ?_⟩
      have hin := ht.inside
      exact used_false_of_not_mem (by omega) (ht.wasFree i (mem_range.2 ⟨h1, h2⟩))
  · rintro ⟨first, hr⟩
    rcases allocateExtents_spec h hn with hnone | ⟨first', s', hsome, -⟩
    · exact absurd hr (allocateExtents_none h hn hnone first)
    · exact ⟨_, s', hsome⟩

/-- `allocate_extents` succeeds exactly when there is a run of free extents, finds the highest one of
several, is not refused by the count when there is one, and succeeds with more extents free. -/
theorem search_exact {s : Extents} (h : s.Ok) {n : Nat} (hn : 1 ≤ n) :
    ((∃ offset s', s.allocateExtents n = .ok (some (offset, s'))) ↔ ∃ first, s.FreeRun first n) ∧
    (s.allocateExtents n = .ok none ↔ ¬∃ first, s.FreeRun first n) ∧
    (2 ≤ n → ∀ offset s', s.allocateExtents n = .ok (some (offset, s')) →
      ∃ first, offset = (first + 1) * s.pageSize ∧ s.FreeRun first n ∧ ∀ f, s.FreeRun f n → f ≤ first) ∧
    ((∃ first, s.FreeRun first n) → n ≤ s.extentCount - s.usedExtents) ∧
    ∀ freer : Extents, freer.Ok → freer.extentCount = s.extentCount →
      (∀ i < s.extentCount, s.used i = false → freer.used i = false) →
      (∃ offset s', s.allocateExtents n = .ok (some (offset, s'))) → ∃ offset s', freer.allocateExtents n = .ok (some (offset, s')) := by
  have hiff := allocateExtents_iff h hn
  refine ⟨hiff, ?_, fun h2 offset s' ha => allocateExtents_greatest h2 h ha, ?_, fun freer hf hc hused hsome => ?_⟩
  · constructor
    · rintro hnone ⟨first, hr⟩
      exact allocateExtents_none h hn hnone first hr
    · intro hno
      rcases allocateExtents_spec h hn with hnone | ⟨first, s', hsome, -⟩
      · exact hnone
      · exact absurd (hiff.1 ⟨_, s', hsome⟩) hno
  · rintro ⟨first, hr⟩
    have hroom := hr.room
    rw [← h.count] at hroom
    omega
  · obtain ⟨first, hin, hfree⟩ := hiff.1 hsome
    refine (allocateExtents_iff hf hn).2 ⟨first, by rw [hc]; exact hin, fun i h1 h2 => ?_⟩
    exact hused i (by omega) (hfree i h1 h2)

theorem search_exact_fragmented : fragmented.map.Ok ∧ fragmented.map.FreeRun 0 2 ∧
    (∀ offset s', fragmented.map.allocateExtents 2 = .ok (some (offset, s')) → offset = 20480) ∧ fragmented.map.allocateExtents 3 = .ok none := by
  have hopen : openMap "store" 24576 4096 = .ok (fresh 4096 6) := rfl
  have h : fragmented.map.Ok := (session_ok hopen mixedCalls).map
  have hfree : ∀ i < 6, fragmented.map.used i = (i == 2 || i == 3) := by decide +kernel
  have hcount : fragmented.map.extentCount = 6 := by decide +kernel
  have hsize : fragmented.map.pageSize = 4096 := by decide +kernel
  have hrun : ∀ first n, fragmented.map.FreeRun first n ↔ first + n ≤ 6 ∧ ∀ i, first ≤ i → i < first + n → i ≠ 2 ∧ i ≠ 3 := by
    intro first n
    unfold FreeRun
    rw [hcount]
    refine and_congr_right fun hin => forall_congr' fun i => forall_congr' fun _ => forall_congr' fun hi => ?_
    rw [hfree i (by omega)]
    simp
  refine ⟨h, (hrun 0 2).2 ⟨by decide, by omega⟩, fun offset s' ha => ?_, (search_exact h (n := 3) (by decide)).2.1.2 ?_⟩
  · obtain ⟨first, rfl, hfirst, hmax⟩ := (search_exact h (n := 2) (by decide)).2.2.1 le_rfl offset s' ha
    have hle := hmax 4 ((hrun 4 2).2 ⟨by decide, by omega⟩)
    have hin := ((hrun first 2).1 hfirst).1
    rw [hsize]
    omega
  · rintro ⟨first, hfirst⟩
    obtain ⟨hin, hne⟩ := (hrun first 3).1 hfirst
    have h0 := hne first
    have h1 := hne (first + 1)
    have h2 := hne (first + 2)
    omega

end Extents

end FlashTier
