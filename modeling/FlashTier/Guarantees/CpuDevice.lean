/-
The CPU device over whole runs of calls, whatever the system's allocator answers: the accounting is exact and
nothing is leaked or given back twice, a block keeps what was copied to it, and a synchronous copy is the
asynchronous one.
-/
import FlashTier.Device.Cpu

namespace FlashTier

open Conc

/-! ## Runs -/

/-- The blocks do not overlap. -/
def CpuBlock.Apart (a b : CpuBlock) : Prop := a.base + a.bytes ≤ b.base ∨ b.base + b.bytes ≤ a.base

instance (a b : CpuBlock) : Decidable (a.Apart b) := inferInstanceAs (Decidable (_ ∨ _))

theorem CpuBlock.Apart.symm {a b : CpuBlock} (h : a.Apart b) : b.Apart a := Or.symm h

namespace CpuBackend

/-- What the system and the caller keep to: new objects are new, and `memcpy` is called on ranges that do not
overlap. -/
def Admits (s : CpuBackend) : CpuAction → Prop
  | .allocate bytes answer => ∀ a ∈ answer, ∀ b ∈ s.heap.items, CpuBlock.Apart ⟨a.ptr, bytes⟩ b
  | .createStream made _ => ∀ handle ∈ made, handle ∉ s.streams
  | .createEvent made _ => ∀ handle ∈ made, s.events.lookup handle = none
  | .copyHostToDevice dst src bytes _ => ∀ d ∈ dst, ∀ c ∈ src, CpuBlock.Apart ⟨d, bytes⟩ ⟨c, bytes⟩
  | .copyDeviceToHost dst src bytes _ => ∀ d ∈ dst, ∀ c ∈ src, CpuBlock.Apart ⟨d, bytes⟩ ⟨c, bytes⟩
  | .copyDeviceToDevice dst src bytes _ => ∀ d ∈ dst, ∀ c ∈ src, CpuBlock.Apart ⟨d, bytes⟩ ⟨c, bytes⟩
  | _ => True

instance (s : CpuBackend) (k : CpuAction) : Decidable (s.Admits k) := by
  cases k <;> unfold Admits <;> infer_instance

/-- What holds between calls. -/
structure Sound (s : CpuBackend) : Prop where
  heap : s.heap.bag = s.sizes.bag
  total : s.allocatedBytes = (s.sizes.bag.map CpuBlock.bytes).sum
  limit : s.allocatedBytes ≤ maxAllocationSize
  positive : ∀ b ∈ s.sizes.bag, 0 < b.bytes
  apart : ∀ a ∈ s.sizes.bag, ∀ b ∈ s.sizes.bag, a ≠ b → a.Apart b
  closed : s.opened = false → s.sizes.bag = 0 ∧ s.streams = ∅ ∧ s.events.bag = 0
  frees : s.badFree = false

theorem sound_new : Sound {} := by
  refine ⟨rfl, rfl, Nat.zero_le _, ?_, ?_, fun _ => ⟨rfl, rfl, rfl⟩, rfl⟩
  · intro b hb
    exact absurd hb (Multiset.notMem_zero b)
  · intro a ha
    exact absurd ha (Multiset.notMem_zero a)

variable {s : CpuBackend}

theorem not_closed {P : Prop} (hopen : s.opened = true) (hclosed : s.opened = false) : P := by
  rw [hopen] at hclosed
  cases hclosed

/-! ## The checks before a call -/

theorem whenOpen_elim {P : CpuBackend → Prop} {rest : Except CpuThrow CpuReply × CpuBackend} (hs : P s)
    (hr : s.opened = true → P rest.2) : P (s.whenOpen rest).2 := by
  unfold whenOpen
  split
  · exact hr ‹_›
  · exact hs

theorem whenKnown_elim {P : CpuBackend → Prop} {stream : Option Ptr} {rest : Except CpuThrow CpuReply × CpuBackend}
    (hs : P s) (hr : P rest.2) : P (s.whenKnown stream rest).2 := by
  unfold whenKnown
  split
  · exact hr
  · exact hs

theorem whenOpen_eq {rest : Except CpuThrow CpuReply × CpuBackend} (h : s.opened = true) : s.whenOpen rest = rest :=
  if_pos h

theorem whenKnown_eq {stream : Option Ptr} {rest : Except CpuThrow CpuReply × CpuBackend}
    (h : ∀ handle ∈ stream, handle ∈ s.streams) : s.whenKnown stream rest = rest := by
  refine if_pos ?_
  cases stream with
  | none => rfl
  | some handle => simpa using h handle rfl

/-- A copy past the checks of the device and the stream. -/
theorem asyncCopy_eq (ho : s.opened = true) {stream : Option Ptr} (hstream : ∀ handle ∈ stream, handle ∈ s.streams)
    (what : String) (valid : Bool) (dst src : Option Ptr) (len : Nat) : s.asyncCopy what valid dst src len stream =
      if len = 0 then (.ok .nothing, s)
      else if valid then (.ok .nothing, s.memcpy (dst.getD 0) (src.getD 0) len)
      else s.fail .invalidArgument ("cpu backend: invalid " ++ what ++ " copy range") "" := by
  rw [asyncCopy, whenOpen_eq ho, whenKnown_eq hstream]

/-! ## Giving blocks back -/

theorem alignedFree_eq {b : CpuBlock} (h : b ∈ s.heap.bag) : s.alignedFree b.base = { s with heap := s.heap.erase b.base } := by
  unfold alignedFree
  rw [Keyed.lookup_of_mem h, Option.isSome_some, if_pos rfl]

/-- Giving back every block the system has given out: no block twice, and none is left. -/
theorem foldl_alignedFree : ∀ (l : List CpuBlock) (s : CpuBackend), s.heap.bag = (l : Multiset CpuBlock) →
    ∃ heap : Keyed CpuBlock.base, (l.map CpuBlock.base).foldl alignedFree s = { s with heap := heap } ∧ heap.bag = 0
  | [], s, h => ⟨s.heap, rfl, h⟩
  | b :: l, s, h => by
    have hb : b ∈ s.heap.bag := by
      rw [h]
      exact List.mem_cons_self
    have hrest : (s.heap.erase b.base).bag = (l : Multiset CpuBlock) := by
      have hc := Keyed.bag_eq_cons (Keyed.lookup_of_mem hb)
      rw [h, ← Multiset.cons_coe, Multiset.cons_inj_right] at hc
      exact hc.symm
    obtain ⟨heap, he, hz⟩ := foldl_alignedFree l { s with heap := s.heap.erase b.base } hrest
    refine ⟨heap, ?_, hz⟩
    rw [List.map_cons, List.foldl_cons, alignedFree_eq hb, he]

theorem releaseOwnedResources_eq (h : s.heap.bag = s.sizes.bag) : ∃ heap : Keyed CpuBlock.base, heap.bag = 0 ∧
    s.releaseOwnedResources = { s with events := ∅, streams := ∅, sizes := ∅, allocatedBytes := 0, heap := heap } := by
  obtain ⟨heap, he, hz⟩ := foldl_alignedFree s.sizes.items { s with events := ∅, streams := ∅ } h
  refine ⟨heap, hz, ?_⟩
  unfold releaseOwnedResources
  simp only
  rw [he]

/-- With nothing owned, whatever `opened_` and the memory are. -/
theorem Sound.emptied (h : s.Sound) {heap : Keyed CpuBlock.base} (hz : heap.bag = 0) (opened : Bool) (totalMemory : Nat) :
    Sound { s with opened := opened, totalMemory := totalMemory, events := ∅, streams := ∅, sizes := ∅, allocatedBytes := 0,
                   heap := heap } := by
  refine ⟨hz, rfl, Nat.zero_le _, ?_, ?_, fun _ => ⟨rfl, rfl, rfl⟩, h.frees⟩
  · intro b hb
    exact absurd hb (Multiset.notMem_zero b)
  · intro a ha
    exact absurd ha (Multiset.notMem_zero a)

/-! ## One call -/

/-- The system's new block is at an address that is not in use. -/
theorem Sound.fresh (h : s.Sound) {b : CpuBlock} (hb : 0 < b.bytes) (hnew : ∀ a ∈ s.heap.items, b.Apart a) :
    s.heap.lookup b.base = none ∧ s.sizes.lookup b.base = none := by
  have hne : ∀ a ∈ s.sizes.bag, a.base ≠ b.base := by
    intro a ha he
    have hpos := h.positive a ha
    rw [← h.heap] at ha
    rcases hnew a (Keyed.mem_bag.1 ha) with hl | hr <;> omega
  refine ⟨Keyed.lookup_none.2 ?_, Keyed.lookup_none.2 hne⟩
  rw [h.heap]
  exact hne

theorem Sound.allocated (h : s.Sound) (hopen : s.opened = true) {b : CpuBlock} (hb : 0 < b.bytes)
    (hnew : ∀ a ∈ s.heap.items, b.Apart a) (hfit : s.allocatedBytes + b.bytes ≤ maxAllocationSize) (scratch : Nat → UInt8) :
    Sound { (s.alignedAlloc b scratch).emplace b with allocatedBytes := u64 (s.allocatedBytes + b.bytes) } := by
  obtain ⟨hh, hz⟩ := h.fresh hb hnew
  have hsizes : ((s.alignedAlloc b scratch).emplace b).sizes = s.sizes.put b := by
    simp [emplace, alignedAlloc, hz]
  have hbag : ((s.alignedAlloc b scratch).emplace b).sizes.bag = b ::ₘ s.sizes.bag := by
    rw [hsizes, Keyed.bag_put_of_none hz]
  have hsum : u64 (s.allocatedBytes + b.bytes) = s.allocatedBytes + b.bytes := by
    refine u64_of_lt ?_
    unfold maxAllocationSize at hfit
    omega
  have hold : ∀ a ∈ s.sizes.bag, b.Apart a := by
    intro a ha
    rw [← h.heap] at ha
    exact hnew a (Keyed.mem_bag.1 ha)
  refine ⟨?_, ?_, ?_, ?_, ?_, ?_, h.frees⟩
  · show (s.heap.put b).bag = _
    rw [hbag, Keyed.bag_put_of_none hh, h.heap]
  · show u64 _ = _
    rw [hbag, hsum, Multiset.map_cons, Multiset.sum_cons, h.total, Nat.add_comm]
  · show u64 _ ≤ _
    rw [hsum]
    exact hfit
  · rw [hbag]
    intro a ha
    rcases Multiset.mem_cons.1 ha with rfl | ha
    · exact hb
    · exact h.positive a ha
  · rw [hbag]
    intro a ha c hc hne
    rcases Multiset.mem_cons.1 ha with rfl | ha' <;> rcases Multiset.mem_cons.1 hc with rfl | hc'
    · exact absurd rfl hne
    · exact hold c hc'
    · exact (hold a ha').symm
    · exact h.apart a ha' c hc' hne
  · exact not_closed hopen

theorem Sound.freed (h : s.Sound) (hopen : s.opened = true) {b : CpuBlock} (hb : b ∈ s.sizes.bag) :
    Sound { s with allocatedBytes := u64Sub s.allocatedBytes b.bytes, sizes := s.sizes.erase b.base,
                   heap := s.heap.erase b.base } := by
  have hsizes := Keyed.bag_eq_cons (Keyed.lookup_of_mem hb)
  have hheap := Keyed.bag_eq_cons (Keyed.lookup_of_mem (h.heap ▸ hb : b ∈ s.heap.bag))
  have htotal := h.total
  rw [hsizes, Multiset.map_cons, Multiset.sum_cons] at htotal
  have hsub : u64Sub s.allocatedBytes b.bytes = ((s.sizes.erase b.base).bag.map CpuBlock.bytes).sum := by
    rw [u64Sub_of_le (by omega)]
    omega
  have hmem : ∀ a ∈ (s.sizes.erase b.base).bag, a ∈ s.sizes.bag := fun a ha => (Keyed.mem_erase.1 ha).1
  refine ⟨?_, hsub, ?_, fun a ha => h.positive a (hmem a ha), fun a ha c hc => h.apart a (hmem a ha) c (hmem c hc), ?_,
    h.frees⟩
  · rw [h.heap, hsizes, Multiset.cons_inj_right] at hheap
    exact hheap.symm
  · show u64Sub _ _ ≤ _
    have := h.limit
    omega
  · exact not_closed hopen

/-- Streams, events and memory are changed freely while the device is open. -/
theorem Sound.touched (h : s.Sound) (hopen : s.opened = true) (streams : Finset Ptr) (events : Keyed CpuEvent.handle)
    (memory : Nat → UInt8) : Sound { s with streams := streams, events := events, memory := memory } := by
  exact ⟨h.heap, h.total, h.limit, h.positive, h.apart, not_closed hopen, h.frees⟩

/-- A block that could not be noted is given back. -/
theorem Sound.returned (h : s.Sound) {b : CpuBlock} (hb : 0 < b.bytes) (hnew : ∀ a ∈ s.heap.items, b.Apart a)
    (scratch : Nat → UInt8) : Sound ((s.alignedAlloc b scratch).alignedFree b.base) := by
  have hput := Keyed.bag_put_of_none (h.fresh hb hnew).1
  have hmem : b ∈ (s.alignedAlloc b scratch).heap.bag := by
    show b ∈ (s.heap.put b).bag
    rw [hput]
    exact Multiset.mem_cons_self b _
  have hheap : ((s.heap.put b).erase b.base).bag = s.heap.bag := by
    have hc := Keyed.bag_eq_cons (Keyed.lookup_put_self s.heap b)
    rw [hput, Multiset.cons_inj_right] at hc
    exact hc.symm
  rw [alignedFree_eq hmem]
  exact ⟨hheap.trans h.heap, h.total, h.limit, h.positive, h.apart, h.closed, h.frees⟩

theorem sound_openDevice (h : s.Sound) (index : Int) (selected : Option Nat) (assigned : Bool) :
    (s.openDevice index selected assigned).2.Sound := by
  obtain ⟨heap, hz, he⟩ := releaseOwnedResources_eq h.heap
  unfold openDevice
  split
  · exact h
  split
  · exact h
  rw [he]
  split
  · exact h.emptied hz true _
  · exact h.emptied hz s.opened s.totalMemory

theorem sound_close (h : s.Sound) : s.close.2.Sound := by
  obtain ⟨heap, hz, he⟩ := releaseOwnedResources_eq h.heap
  unfold close
  rw [he]
  exact h.emptied hz false s.totalMemory

/-- How `allocate` ends: as it began, with the block noted, or with the block given back. -/
theorem allocate_elim {P : CpuBackend → Prop} (h : s.Sound) {bytes : Nat} {answer : Option AllocAnswer} (hs : P s)
    (hok : ∀ a ∈ answer, s.opened = true → 0 < bytes → s.allocatedBytes + bytes ≤ maxAllocationSize →
      P { (s.alignedAlloc ⟨a.ptr, bytes⟩ a.scratch).emplace ⟨a.ptr, bytes⟩ with allocatedBytes := u64 (s.allocatedBytes + bytes) })
    (herr : ∀ a ∈ answer, 0 < bytes → P ((s.alignedAlloc ⟨a.ptr, bytes⟩ a.scratch).alignedFree a.ptr)) :
    P (s.allocate bytes answer).2 := by
  unfold allocate
  split
  · exact hs
  split
  · exact hs
  refine whenOpen_elim hs ?_
  intro hopen
  split
  · exact hs
  rename_i hz _ hfit
  rw [u64Sub_of_le h.limit] at hfit
  have hlimit := h.limit
  cases answer with
  | none => exact hs
  | some a =>
    simp only
    split
    · exact hok a rfl hopen (by omega) (by omega)
    · exact herr a rfl (by omega)

/-- How `free` ends: as it began, or without the block. -/
theorem free_elim {P : CpuBackend → Prop} (h : s.Sound) {ptr : Option Ptr} (hs : P s)
    (hok : ∀ b ∈ s.sizes.bag, ptr = some b.base → s.opened = true →
      P { s with allocatedBytes := u64Sub s.allocatedBytes b.bytes, sizes := s.sizes.erase b.base,
                 heap := s.heap.erase b.base }) : P (s.free ptr).2 := by
  cases ptr with
  | none => exact hs
  | some ptr =>
    refine whenOpen_elim hs ?_
    intro hopen
    cases hl : s.sizes.lookup ptr with
    | none => exact hs
    | some b =>
      obtain ⟨hb, rfl⟩ := Keyed.lookup_some.1 hl
      have hheap : b ∈ s.heap.bag := by
        rw [h.heap]
        exact hb
      have hfree := alignedFree_eq (s := { s with allocatedBytes := u64Sub s.allocatedBytes b.bytes,
                                                  sizes := s.sizes.erase b.base }) hheap
      simp only
      rw [hfree]
      exact hok b hb rfl hopen

/-- How a copy ends: as it began, or with the bytes copied between two pointers. -/
theorem asyncCopy_elim {P : CpuBackend → Prop} {what : String} {valid : Bool} {dst src stream : Option Ptr} {bytes : Nat}
    (hs : P s) (hptr : valid = true → dst.isSome ∧ src.isSome)
    (hok : ∀ d ∈ dst, ∀ c ∈ src, s.opened = true → P (s.memcpy d c bytes)) :
    P (s.asyncCopy what valid dst src bytes stream).2 := by
  refine whenOpen_elim hs ?_
  intro hopen
  refine whenKnown_elim hs ?_
  split
  · exact hs
  split
  · rename_i hv
    obtain ⟨hd, hc⟩ := hptr hv
    obtain ⟨d, rfl⟩ := Option.isSome_iff_exists.1 hd
    obtain ⟨c, rfl⟩ := Option.isSome_iff_exists.1 hc
    exact hok d rfl c rfl hopen
  · exact hs

theorem isSome_of_ownsRange {ptr : Option Ptr} {bytes : Nat} (h : s.ownsRange ptr bytes = true) : ptr.isSome := by
  cases ptr with
  | none => cases h
  | some ptr => rfl

/-- A copy of any of the three kinds. -/
inductive IsCopy (dst src : Option Ptr) (bytes : Nat) : CpuAction → Prop
  | hostToDevice (stream : Option Ptr) : IsCopy dst src bytes (.copyHostToDevice dst src bytes stream)
  | deviceToHost (stream : Option Ptr) : IsCopy dst src bytes (.copyDeviceToHost dst src bytes stream)
  | deviceToDevice (stream : Option Ptr) : IsCopy dst src bytes (.copyDeviceToDevice dst src bytes stream)

theorem copy_elim {P : CpuBackend → Prop} {dst src : Option Ptr} {bytes : Nat} {k : CpuAction} (hk : IsCopy dst src bytes k)
    (hs : P s) (hok : ∀ d ∈ dst, ∀ c ∈ src, s.opened = true → P (s.memcpy d c bytes)) : P (s.call k).2 := by
  cases hk with
  | hostToDevice stream =>
    refine asyncCopy_elim hs ?_ hok
    intro hv
    obtain ⟨hc, hd⟩ := Bool.and_eq_true_iff.1 hv
    exact ⟨isSome_of_ownsRange hd, hc⟩
  | deviceToHost stream =>
    refine asyncCopy_elim hs ?_ hok
    intro hv
    obtain ⟨hd, hc⟩ := Bool.and_eq_true_iff.1 hv
    exact ⟨hd, isSome_of_ownsRange hc⟩
  | deviceToDevice stream =>
    refine asyncCopy_elim hs ?_ hok
    intro hv
    obtain ⟨hd, hc⟩ := Bool.and_eq_true_iff.1 hv
    exact ⟨isSome_of_ownsRange hd, isSome_of_ownsRange hc⟩

/-- The calls that change streams and events, or nothing. -/
def Handles : CpuAction → Prop
  | .prefetchToDevice .. | .advisePreferredLocation .. | .createStream .. | .destroyStream .. | .createEvent .. | .destroyEvent ..
  | .recordEvent .. | .waitEvent .. | .eventElapsed .. | .syncStream .. | .syncAll => True
  | _ => False

theorem hint_elim {P : CpuBackend → Prop} {what : String} {ptr : Option Ptr} {bytes : Nat} (hs : P s) :
    P (s.hint what ptr bytes).2 := by
  refine whenOpen_elim hs ?_
  intro _
  split <;> exact hs

/-- They end as they began, or with other streams and events, of which there are some only if the device is open. -/
theorem handles_elim {P : CpuBackend → Prop} (h : s.Sound) {k : CpuAction} (hk : Handles k) (hs : P s)
    (hok : ∀ streams events, s.opened = true → P { s with streams := streams, events := events }) : P (s.call k).2 := by
  have hopen : s.streams ≠ ∅ ∨ s.events.bag ≠ 0 → s.opened = true := by
    intro hne
    by_contra hc
    obtain ⟨-, hst, hev⟩ := h.closed (by simpa using hc)
    rcases hne with hne | hne
    · exact hne hst
    · exact hne hev
  cases k with
  | prefetchToDevice ptr bytes => exact hint_elim hs
  | advisePreferredLocation ptr bytes => exact hint_elim hs
  | createStream made inserted =>
    cases made with
    | none => exact hs
    | some handle =>
      refine whenOpen_elim hs ?_
      intro ho
      split
      · exact hok (insert handle s.streams) s.events ho
      · exact hs
  | destroyStream stream =>
    cases stream with
    | none => exact hs
    | some handle =>
      show P (s.destroyStream (some handle)).2
      unfold destroyStream
      simp only
      split
      · rename_i hm
        exact hok (s.streams.erase handle) s.events (hopen (.inl (Finset.ne_empty_of_mem hm)))
      · exact hs
  | createEvent made inserted =>
    cases made with
    | none => exact hs
    | some handle =>
      refine whenOpen_elim hs ?_
      intro ho
      split
      · exact hok s.streams (s.events.put ⟨handle, none⟩) ho
      · exact hs
  | destroyEvent event =>
    cases event with
    | none => exact hs
    | some handle =>
      show P (s.destroyEvent (some handle)).2
      unfold destroyEvent
      simp only
      split
      · rename_i hm
        obtain ⟨e, he⟩ := Option.isSome_iff_exists.1 hm
        refine hok s.streams (s.events.erase handle) (hopen (.inr ?_))
        intro hz
        have hmem := (Keyed.lookup_some.1 he).1
        rw [hz] at hmem
        exact Multiset.notMem_zero e hmem
      · exact hs
  | recordEvent event stream now =>
    refine whenOpen_elim hs ?_
    intro ho
    split
    · exact hs
    · exact whenKnown_elim hs (hok s.streams _ ho)
  | waitEvent event =>
    refine whenOpen_elim hs ?_
    intro _
    split <;> exact hs
  | eventElapsed first last =>
    refine whenOpen_elim hs ?_
    intro _
    split <;> exact hs
  | syncStream stream => exact whenOpen_elim hs fun _ => whenKnown_elim hs hs
  | syncAll => exact whenOpen_elim hs fun _ => hs
  | _ => exact hk.elim

/-- Every admitted call keeps the accounting. -/
theorem sound_call (h : s.Sound) {k : CpuAction} (hk : s.Admits k) : (s.call k).2.Sound := by
  have hcopy : ∀ {dst src : Option Ptr} {bytes : Nat}, IsCopy dst src bytes k → (s.call k).2.Sound := by
    intro dst src bytes hc
    refine copy_elim hc h ?_
    intro d _ c _ ho
    exact h.touched ho s.streams s.events _
  have hhandles : Handles k → (s.call k).2.Sound := by
    intro hh
    refine handles_elim h hh h ?_
    intro streams events ho
    exact h.touched ho streams events s.memory
  cases k with
  | openDevice index selected assigned => exact sound_openDevice h index selected assigned
  | close => exact sound_close h
  | allocate bytes answer =>
    refine allocate_elim h h ?_ ?_
    · intro a ha ho hpos hfit
      exact h.allocated ho hpos (hk a ha) hfit a.scratch
    · intro a ha hpos
      exact h.returned hpos (hk a ha) a.scratch
  | free ptr =>
    refine free_elim h h ?_
    intro b hb _ ho
    exact h.freed ho hb
  | copyHostToDevice dst src bytes stream => exact hcopy (.hostToDevice stream)
  | copyDeviceToHost dst src bytes stream => exact hcopy (.deviceToHost stream)
  | copyDeviceToDevice dst src bytes stream => exact hcopy (.deviceToDevice stream)
  | store ptr value => exact ⟨h.heap, h.total, h.limit, h.positive, h.apart, h.closed, h.frees⟩
  | _ => exact hhandles trivial

theorem sound_steps {s' : CpuBackend} (h : Steps step Admits s s') (hs : s.Sound) : s'.Sound := by
  refine h.invariant ?_ hs
  rintro s k _ hk ⟨⟩ hs
  exact sound_call hs hk

/-! ## The accounting -/

/-- Whatever is called and whatever the system answers: the bytes counted are those of the blocks noted, at most one
GiB; these are the blocks the system has given out, none was ever given back twice, and they do not overlap; the free
memory reported is what they leave; nothing is owned while the device is closed, and `close` gives everything back. -/
theorem cpu_conserves {s : CpuBackend} (h : Steps step Admits {} s) :
    s.Sound ∧ (s.opened = true → s.allocatedBytes ≤ s.totalMemory →
      s.freeMemory + (s.sizes.bag.map CpuBlock.bytes).sum = s.totalMemory) ∧
    s.close.2.heap.bag = 0 ∧ s.close.2.badFree = false := by
  have hs := sound_steps h sound_new
  have hc := sound_close hs
  have hclosed : s.close.2.opened = false := rfl
  refine ⟨hs, ?_, ?_, hc.frees⟩
  · intro ho hle
    rw [← hs.total]
    by_cases hlt : s.allocatedBytes < s.totalMemory
    · rw [freeMemory, if_pos ⟨ho, hlt⟩]
      omega
    · rw [freeMemory, if_neg fun hc => hlt hc.2]
      omega
  · rw [hc.heap]
    exact (hc.closed hclosed).1

/-- Two blocks taken and one given back. -/
theorem cpu_conserves_run : ∃ s, Steps step Admits {} s ∧ s.allocatedBytes = 32 ∧ s.Sound := by
  obtain ⟨s, hs, hp⟩ := Steps.of_test step Admits {}
    [.openDevice 0 (some 65536) true, .allocate 64 (some { ptr := 4096 }), .allocate 32 (some { ptr := 8192 }), .free (some 4096)]
    (fun s => s.allocatedBytes = 32) (by decide +kernel)
  exact ⟨s, hs, hp, (cpu_conserves hs).1⟩

/-! ## The contents of a block -/

/-- The action neither ends the block nor writes to the range of `n` bytes at `d`. -/
def Spares (b : CpuBlock) (d n : Nat) : CpuAction → Prop
  | .openDevice index _ _ => index ≠ 0
  | .close => False
  | .free ptr => ptr ≠ some b.base
  | .copyHostToDevice dst _ bytes _ | .copyDeviceToHost dst _ bytes _ | .copyDeviceToDevice dst _ bytes _ =>
    ∀ a ∈ dst, CpuBlock.Apart ⟨a, bytes⟩ ⟨d, n⟩
  | .store ptr _ => ptr < d ∨ d + n ≤ ptr
  | _ => True

instance (b : CpuBlock) (d n : Nat) (k : CpuAction) : Decidable (Spares b d n k) := by
  cases k <;> unfold Spares <;> infer_instance

/-- The block is owned, and the range at `d` holds these bytes. -/
structure Holds (b : CpuBlock) (d n : Nat) (bytes : Nat → UInt8) (s : CpuBackend) : Prop where
  sound : s.Sound
  owned : b ∈ s.sizes.bag
  content : ∀ x, d ≤ x → x < d + n → s.memory x = bytes x

/-- The part of `Holds` that is not the accounting. -/
def Keeps (b : CpuBlock) (d n : Nat) (bytes : Nat → UInt8) (s : CpuBackend) : Prop :=
  b ∈ s.sizes.bag ∧ ∀ x, d ≤ x → x < d + n → s.memory x = bytes x

variable {b : CpuBlock} {d n : Nat} {bytes : Nat → UInt8}

theorem Holds.opened (h : Holds b d n bytes s) : s.opened = true := by
  by_contra hc
  have hz := (h.sound.closed (by simpa using hc)).1
  exact Multiset.notMem_zero b (hz ▸ h.owned)

theorem Holds.ownsRange (h : Holds b d n bytes s) (hin : b.base ≤ d ∧ d + n ≤ b.base + b.bytes) :
    s.ownsRange (some d) n = true := by
  refine List.any_eq_true.2 ⟨b, Keyed.mem_bag.1 h.owned, ?_⟩
  have hoffset : d - b.base ≤ b.bytes := by omega
  have hrest : n ≤ b.bytes - (d - b.base) := by omega
  exact decide_eq_true ⟨hin.1, hoffset, hrest⟩

theorem alignedFree_kept (ptr : Ptr) : (s.alignedFree ptr).sizes = s.sizes ∧ (s.alignedFree ptr).memory = s.memory := by
  unfold alignedFree
  split <;> exact ⟨rfl, rfl⟩

/-- A new block is outside the range. -/
theorem Holds.alignedAlloc_content (h : Holds b d n bytes s) (hin : b.base ≤ d ∧ d + n ≤ b.base + b.bytes) {a : CpuBlock}
    (hnew : ∀ c ∈ s.heap.items, a.Apart c) (scratch : Nat → UInt8) (x : Nat) (hl : d ≤ x) (hr : x < d + n) :
    (s.alignedAlloc a scratch).memory x = bytes x := by
  have hb : b ∈ s.heap.bag := by
    rw [h.sound.heap]
    exact h.owned
  have hout : ¬ (a.base ≤ x ∧ x < a.base + a.bytes) := by
    rcases hnew b (Keyed.mem_bag.1 hb) with hlt | hgt <;> omega
  exact (if_neg hout).trans (h.content x hl hr)

/-- Every admitted call that spares the range leaves it as it is. -/
theorem Holds.call (h : Holds b d n bytes s) (hin : b.base ≤ d ∧ d + n ≤ b.base + b.bytes) {k : CpuAction} (hk : s.Admits k)
    (hspare : Spares b d n k) : Holds b d n bytes (s.call k).2 := by
  suffices hkeep : Keeps b d n bytes (s.call k).2 from
    ⟨sound_call h.sound hk, hkeep.1, hkeep.2⟩
  have hsame : Keeps b d n bytes s := ⟨h.owned, h.content⟩
  have hcopy : ∀ {dst src : Option Ptr} {len : Nat}, IsCopy dst src len k →
      (∀ a ∈ dst, CpuBlock.Apart ⟨a, len⟩ ⟨d, n⟩) → Keeps b d n bytes (s.call k).2 := by
    intro dst src len hc hapart
    refine copy_elim hc hsame ?_
    intro (a : Nat) ha c _ _
    refine ⟨h.owned, ?_⟩
    intro x hl hr
    have hout : ¬ (a ≤ x ∧ x < a + len) := by
      have hap : a + len ≤ d ∨ d + n ≤ a := hapart a ha
      omega
    exact (if_neg hout).trans (h.content x hl hr)
  have hhandles : Handles k → Keeps b d n bytes (s.call k).2 := by
    intro hh
    exact handles_elim h.sound hh hsame fun _ _ _ => hsame
  cases k with
  | openDevice index selected assigned =>
    have he : s.call (.openDevice index selected assigned) = s.fail .config _ _ := if_pos hspare
    rw [he]
    exact hsame
  | close => exact hspare.elim
  | allocate len answer =>
    refine allocate_elim h.sound hsame ?_ ?_
    · intro a ha _ hpos _
      refine ⟨?_, h.alignedAlloc_content hin (hk a ha) a.scratch⟩
      have hz := (h.sound.fresh hpos (hk a ha)).2
      show b ∈ (if (s.sizes.lookup a.ptr).isSome then s.sizes else s.sizes.put ⟨a.ptr, len⟩).bag
      rw [hz, if_neg (by simp), Keyed.bag_put_of_none hz]
      exact Multiset.mem_cons_of_mem h.owned
    · intro a ha hpos
      obtain ⟨hs, hm⟩ := alignedFree_kept (s := s.alignedAlloc ⟨a.ptr, len⟩ a.scratch) a.ptr
      unfold Keeps
      rw [hs, hm]
      exact ⟨h.owned, h.alignedAlloc_content hin (hk a ha) a.scratch⟩
  | free ptr =>
    refine free_elim h.sound hsame ?_
    intro c _ hptr _
    refine ⟨Keyed.mem_erase.2 ⟨h.owned, ?_⟩, h.content⟩
    intro he
    exact hspare (hptr.trans (congrArg some he.symm))
  | copyHostToDevice dst src len stream => exact hcopy (.hostToDevice stream) hspare
  | copyDeviceToHost dst src len stream => exact hcopy (.deviceToHost stream) hspare
  | copyDeviceToDevice dst src len stream => exact hcopy (.deviceToDevice stream) hspare
  | store ptr value =>
    refine ⟨h.owned, ?_⟩
    intro x hl hr
    have hne : x ≠ ptr := by
      have hsp : ptr < d ∨ d + n ≤ ptr := hspare
      omega
    exact (if_neg hne).trans (h.content x hl hr)
  | _ => exact hhandles trivial

theorem Holds.steps {s' : CpuBackend} (hin : b.base ≤ d ∧ d + n ≤ b.base + b.bytes) (h : Holds b d n bytes s)
    (hrun : Steps step (fun s k => s.Admits k ∧ Spares b d n k) s s') : Holds b d n bytes s' := by
  refine hrun.invariant ?_ h
  rintro s k _ ⟨hk, hspare⟩ ⟨⟩ hs
  exact hs.call hin hk hspare

theorem memcpy_at (d c len i : Nat) (hi : i < len) : (s.memcpy d c len).memory (d + i) = s.memory (c + i) := by
  have hin : d ≤ d + i ∧ d + i < d + len := by omega
  refine (if_pos hin).trans ?_
  rw [Nat.add_sub_cancel_left]

theorem copyHostToDevice_eq (h : Holds b d n bytes s) (hin : b.base ≤ d ∧ d + n ≤ b.base + b.bytes) (src : Nat)
    {stream : Option Ptr} (hstream : ∀ handle ∈ stream, handle ∈ s.streams) (hn : 0 < n) :
    s.call (.copyHostToDevice (some d) (some src) n stream) = (.ok .nothing, s.memcpy d src n) := by
  refine (asyncCopy_eq h.opened hstream _ _ _ _ n).trans ?_
  rw [if_neg (by omega), h.ownsRange hin]
  rfl

theorem copyDeviceToHost_eq (h : Holds b d n bytes s) (hin : b.base ≤ d ∧ d + n ≤ b.base + b.bytes) (out : Nat)
    {stream : Option Ptr} (hstream : ∀ handle ∈ stream, handle ∈ s.streams) (hn : 0 < n) :
    s.call (.copyDeviceToHost (some out) (some d) n stream) = (.ok .nothing, s.memcpy out d n) := by
  refine (asyncCopy_eq h.opened hstream _ _ _ _ n).trans ?_
  rw [if_neg (by omega), h.ownsRange hin]
  rfl

/-- What is copied to a part of a block is what is copied back from it, whatever is called in between, as long as the
block is not given up and that part is not written to. Both copies succeed. -/
theorem cpu_round_trip {s s' : CpuBackend} {b : CpuBlock} {d n src : Nat} {stream : Option Ptr} (h : Steps step Admits {} s)
    (hb : b ∈ s.sizes.items) (hin : b.base ≤ d ∧ d + n ≤ b.base + b.bytes) (hn : 0 < n)
    (hstream : ∀ handle ∈ stream, handle ∈ s.streams) (hsrc : CpuBlock.Apart ⟨d, n⟩ ⟨src, n⟩)
    (hrun : Steps step (fun s k => s.Admits k ∧ Spares b d n k) (s.call (.copyHostToDevice (some d) (some src) n stream)).2 s') :
    (s.call (.copyHostToDevice (some d) (some src) n stream)).1 = .ok .nothing ∧
    ∀ (out : Nat) (stream' : Option Ptr), (∀ handle ∈ stream', handle ∈ s'.streams) → CpuBlock.Apart ⟨out, n⟩ ⟨d, n⟩ →
      (s'.call (.copyDeviceToHost (some out) (some d) n stream')).1 = .ok .nothing ∧
      ∀ i < n, (s'.call (.copyDeviceToHost (some out) (some d) n stream')).2.memory (out + i) = s.memory (src + i) := by
  have hs : Holds b d n s.memory s := ⟨sound_steps h sound_new, Keyed.mem_bag.2 hb, fun _ _ _ => rfl⟩
  have hcopy := copyHostToDevice_eq hs hin src hstream hn
  have hadmits : s.Admits (.copyHostToDevice (some d) (some src) n stream) := by
    rintro _ ⟨⟩ _ ⟨⟩
    exact hsrc
  -- the copy itself puts the source's bytes into the range, and from there on they stay
  have hafter : Holds b d n (s.memcpy d src n).memory (s.call (.copyHostToDevice (some d) (some src) n stream)).2 := by
    refine ⟨sound_call hs.sound hadmits, ?_, ?_⟩ <;> rw [hcopy]
    · exact hs.owned
    · exact fun _ _ _ => rfl
  have hend := hafter.steps hin hrun
  refine ⟨by rw [hcopy], ?_⟩
  intro out stream' hstream' hout
  have hback := copyDeviceToHost_eq hend hin out hstream' hn
  rw [hback]
  refine ⟨rfl, ?_⟩
  intro i hi
  rw [memcpy_at out d n i hi, hend.content (d + i) (by omega) (by omega), memcpy_at d src n i hi]

/-- In between, another block is taken, filled and given back. -/
theorem cpu_round_trip_run : ∃ s s' : CpuBackend, s'.sizes.items.length = 1 ∧
    (s.call (.copyHostToDevice (some 4104) (some 16384) 16 none)).1 = .ok .nothing ∧
    ∀ i < 16, (s'.call (.copyDeviceToHost (some 32768) (some 4104) 16 none)).2.memory (32768 + i) = s.memory (16384 + i) := by
  obtain ⟨s, hs, hb, hmore⟩ := Steps.of_test step Admits {}
    [.openDevice 0 (some 65536) true, .allocate 64 (some { ptr := 4096 }), .store 16384 7]
    (fun s => ⟨4096, 64⟩ ∈ s.sizes.items ∧
      (Steps.run step (fun s k => s.Admits k ∧ Spares ⟨4096, 64⟩ 4104 16 k)
        (s.call (.copyHostToDevice (some 4104) (some 16384) 16 none)).2
        [.allocate 32 (some { ptr := 8192 }), .copyHostToDevice (some 8192) (some 16384) 32 none, .free (some 8192)]).any
          (fun s' => s'.sizes.items.length = 1) = true) (by decide +kernel)
  obtain ⟨s', hrun, hone⟩ := Steps.of_test _ _ _ _ (fun s' : CpuBackend => s'.sizes.items.length = 1) hmore
  have hnone : ∀ t : CpuBackend, ∀ handle ∈ (none : Option Ptr), handle ∈ t.streams := by
    rintro _ _ ⟨⟩
  obtain ⟨hok, hback⟩ := cpu_round_trip hs hb (by decide) (by decide) (hnone s) (by decide) hrun
  exact ⟨s, s', hone, hok, (hback 32768 none (hnone s') (by decide)).2⟩

/-! ## Synchronous copies -/

theorem destroyStream_insert {handle : Ptr} (h : handle ∉ s.streams) (memory : Nat → UInt8) :
    destroyStream { s with streams := insert handle s.streams, memory := memory } (some handle) =
      (.ok .nothing, { s with memory := memory }) := by
  unfold destroyStream
  simp only
  rw [if_pos (Finset.mem_insert_self handle s.streams), Finset.erase_insert h]

theorem syncStream_eq {stream : Option Ptr} (ho : s.opened = true) (hstream : ∀ handle ∈ stream, handle ∈ s.streams) :
    s.syncStream stream = (.ok .nothing, s) := by
  rw [syncStream, whenOpen_eq ho, whenKnown_eq hstream]

/-- A copy on a new stream of its own is the copy on no stream, if its pointers are checked against the blocks only. -/
theorem copySync_eq {handle : Ptr} (h : handle ∉ s.streams) (what : String) (valid : CpuBackend → Bool) (dst src : Option Ptr)
    (len : Nat) (hvalid : ∀ streams, valid { s with streams := streams } = valid s) :
    s.copySync (fun s => s.asyncCopy what (valid s) dst src len) (some handle) true = s.asyncCopy what (valid s) dst src len none := by
  have hknown : ∀ x ∈ some handle, x ∈ insert handle s.streams := by
    rintro _ ⟨⟩
    exact Finset.mem_insert_self handle s.streams
  have hnone : ∀ x ∈ (none : Option Ptr), x ∈ s.streams := by
    rintro _ ⟨⟩
  by_cases ho : s.opened = true
  · have hmade : s.createStream (some handle) true = (.ok (.pointer handle), { s with streams := insert handle s.streams }) :=
      whenOpen_eq ho
    have hsync : ∀ memory : Nat → UInt8, syncStream { s with streams := insert handle s.streams, memory := memory } (some handle) =
        (.ok .nothing, { s with streams := insert handle s.streams, memory := memory }) :=
      fun memory => syncStream_eq ho hknown
    have hcopy := asyncCopy_eq (s := { s with streams := insert handle s.streams }) ho hknown what (valid s) dst src len
    unfold copySync
    rw [hmade]
    simp only [hvalid]
    rw [hcopy, asyncCopy_eq ho hnone]
    by_cases hl : len = 0
    · rw [if_pos hl, if_pos hl]
      simp only [hsync s.memory, destroyStream_insert h s.memory]
    rw [if_neg hl, if_neg hl]
    by_cases hv : valid s = true
    · rw [if_pos hv, if_pos hv]
      simp only [memcpy, hsync, destroyStream_insert h]
    · rw [if_neg hv, if_neg hv]
      simp only [fail, destroyStream_insert h s.memory]
  · have hmade : s.createStream (some handle) true = s.fail .state "cpu backend is not open" "" := if_neg ho
    have hcopy : s.asyncCopy what (valid s) dst src len none = s.fail .state "cpu backend is not open" "" := if_neg ho
    unfold copySync
    rw [hmade, hcopy]
    rfl

/-- In any state, a synchronous copy returns, throws and leaves behind what the asynchronous copy on no stream does: its
own stream is gone again, also when the copy fails. -/
theorem cpu_sync_copies {s : CpuBackend} {handle : Ptr} (h : handle ∉ s.streams) (dst src : Option Ptr) (len : Nat) :
    s.copyHostToDeviceSync dst src len (some handle) true = s.asyncCopyHostToDevice dst src len none ∧
    s.copyDeviceToHostSync dst src len (some handle) true = s.asyncCopyDeviceToHost dst src len none :=
  ⟨copySync_eq h "host-to-device" (fun s => src.isSome && s.ownsRange dst len) dst src len fun _ => rfl,
    copySync_eq h "device-to-host" (fun s => dst.isSome && s.ownsRange src len) dst src len fun _ => rfl⟩

/-- A copy to memory that is not owned. -/
theorem cpu_sync_copies_invalid :
    (copyHostToDeviceSync { opened := true } (some 4096) (some 8192) 16 (some 64) true).1 =
      .error (.error ⟨.invalidArgument, "cpu backend: invalid host-to-device copy range", ""⟩) := by
  rw [(cpu_sync_copies (by decide) (some 4096) (some 8192) 16).1]
  rfl

end CpuBackend

end FlashTier
