/-
The CPU emulation of a device (`cpu_backend.cpp`): every call, with what the system's allocator answers and the
texts of its errors. The mutex makes a call one step. Memory is that of the process, by address; the blocks the
system has given out and not got back are kept apart from the backend's own map of them.
-/
import FlashTier.Conc.Keyed
import FlashTier.Conc.Steps
import FlashTier.Runtime.Budget
import FlashTier.Runtime.Page
import Mathlib.Tactic

namespace FlashTier

open Conc

/-! ## State -/

/-- An entry of `sizes_`: a block of memory. -/
structure CpuBlock where
  base : Nat
  bytes : Nat
  deriving DecidableEq

/-- A `CpuEvent` with its address, and when it was recorded. -/
structure CpuEvent where
  handle : Ptr
  recorded : Option Int := none
  deriving DecidableEq

/-- What a call throws: an `Error`, or that a container cannot grow. -/
inductive CpuThrow where
  | error (e : Error)
  | badAlloc
  deriving DecidableEq

/-- What a call returns. -/
inductive CpuReply where
  | nothing
  | pointer (ptr : Ptr)
  | elapsed (ticks : Int)
  deriving DecidableEq

/-- `CpuBackend`. The last three fields are not the backend's: the memory, the blocks the system has given it and
not got back, and whether it ever gave back something else. -/
structure CpuBackend where
  opened : Bool := false
  /-- `info_.total_memory` -/
  totalMemory : Nat := 0
  allocatedBytes : Nat := 0
  sizes : Keyed CpuBlock.base := ∅
  streams : Finset Ptr := ∅
  events : Keyed CpuEvent.handle := ∅
  memory : Nat → UInt8 := fun _ => 0
  heap : Keyed CpuBlock.base := ∅
  badFree : Bool := false

/-- `caps_.max_allocation_size`, one GiB. -/
def maxAllocationSize : Nat := 1073741824

namespace CpuBackend

variable (s : CpuBackend)

/-! ## The system's allocator -/

/-- `aligned_alloc_bytes` has returned a block; it may hold anything. -/
def alignedAlloc (b : CpuBlock) (scratch : Nat → UInt8) : CpuBackend :=
  { s with heap := s.heap.put b, memory := fun x => if b.base ≤ x ∧ x < b.base + b.bytes then scratch x else s.memory x }

/-- `aligned_free_bytes`. -/
def alignedFree (ptr : Ptr) : CpuBackend :=
  if (s.heap.lookup ptr).isSome then { s with heap := s.heap.erase ptr } else { s with badFree := true }

/-! ## Errors -/

def fail (code : ErrorCode) (message : String) (detail : String) : Except CpuThrow CpuReply × CpuBackend :=
  (.error (.error ⟨code, message, detail⟩), s)

/-- `require_open_locked` before the rest of a call. -/
def whenOpen (rest : Except CpuThrow CpuReply × CpuBackend) : Except CpuThrow CpuReply × CpuBackend :=
  if s.opened then rest else s.fail .state "cpu backend is not open" ""

/-- A stream that is given must be known, before the rest of a call. -/
def whenKnown (stream : Option Ptr) (rest : Except CpuThrow CpuReply × CpuBackend) : Except CpuThrow CpuReply × CpuBackend :=
  if stream.all (· ∈ s.streams) then rest else s.fail .state "cpu backend: unknown stream" ""

/-! ## Lifecycle -/

/-- `release_owned_resources_locked`. -/
def releaseOwnedResources : CpuBackend :=
  let s := { s with events := ∅, streams := ∅ }
  let s := (s.sizes.items.map CpuBlock.base).foldl alignedFree s
  { s with sizes := ∅, allocatedBytes := 0 }

/-- `open`: the memory `enumerate_devices` reports, unless it throws, and whether the assignment to `info_` does not.
That assignment comes after the release, so its failure leaves nothing owned and `opened_` as it was. -/
def openDevice (index : Int) (selected : Option Nat) (assigned : Bool) : Except CpuThrow CpuReply × CpuBackend :=
  if index ≠ 0 then s.fail .config "cpu backend has exactly one device (index 0)" ("requested index " ++ toString index)
  else match selected with
    | none => (.error .badAlloc, s)
    | some totalMemory =>
      if assigned then (.ok .nothing, { s.releaseOwnedResources with totalMemory := totalMemory, opened := true })
      else (.error .badAlloc, s.releaseOwnedResources)

/-- `close`. -/
def close : Except CpuThrow CpuReply × CpuBackend := (.ok .nothing, { s.releaseOwnedResources with opened := false })

/-- `free_memory`. -/
def freeMemory : Nat := if s.opened ∧ s.allocatedBytes < s.totalMemory then s.totalMemory - s.allocatedBytes else 0

/-! ## Memory -/

/-- What the system answers an allocation: the address, what the block holds, and whether the map can grow. -/
structure AllocAnswer where
  ptr : Nat
  scratch : Nat → UInt8 := fun _ => 0
  emplaced : Bool := true

/-- `sizes_.emplace`. -/
def emplace (b : CpuBlock) : CpuBackend :=
  { s with sizes := if (s.sizes.lookup b.base).isSome then s.sizes else s.sizes.put b }

/-- `allocate`, which is also `allocate_host_pinned` and `allocate_unified`. -/
def allocate (bytes : Nat) (answer : Option AllocAnswer) : Except CpuThrow CpuReply × CpuBackend :=
  if bytes = 0 then s.fail .invalidArgument "cpu backend: zero-byte allocation" ""
  else if maxAllocationSize < bytes then
    s.fail .budget "cpu backend: allocation exceeds emulation limit" (toString bytes ++ " > " ++ toString maxAllocationSize)
  else s.whenOpen <|
    if u64Sub maxAllocationSize s.allocatedBytes < bytes then
      s.fail .budget "cpu backend: emulated device memory exhausted"
        (toString bytes ++ " requested with " ++ toString s.allocatedBytes ++ " already allocated")
    else match answer with
      | none => s.fail .budget "cpu backend: allocation failed" ""
      | some answer =>
        let taken := s.alignedAlloc ⟨answer.ptr, bytes⟩ answer.scratch
        if answer.emplaced then
          (.ok (.pointer answer.ptr), { taken.emplace ⟨answer.ptr, bytes⟩ with allocatedBytes := u64 (s.allocatedBytes + bytes) })
        else (.error .badAlloc, taken.alignedFree answer.ptr)

/-- `free`, which is also `free_host_pinned` and `free_unified`. -/
def free (ptr : Option Ptr) : Except CpuThrow CpuReply × CpuBackend :=
  match ptr with
  | none => (.ok .nothing, s)
  | some ptr => s.whenOpen <|
    match s.sizes.lookup ptr with
    | none => s.fail .state "cpu backend: free of unknown pointer" ""
    | some b => (.ok .nothing,
        alignedFree { s with allocatedBytes := u64Sub s.allocatedBytes b.bytes, sizes := s.sizes.erase ptr } ptr)

/-- `owns_range_locked`. -/
def ownsRange (ptr : Option Ptr) (bytes : Nat) : Bool :=
  match ptr with
  | none => false
  | some ptr => s.sizes.items.any fun b => b.base ≤ ptr ∧ ptr - b.base ≤ b.bytes ∧ bytes ≤ b.bytes - (ptr - b.base)

/-- `prefetch_to_device` and `advise_preferred_location`: the check of the range is all they do. -/
def hint (what : String) (ptr : Option Ptr) (bytes : Nat) : Except CpuThrow CpuReply × CpuBackend :=
  s.whenOpen <|
    if ptr = none ∨ bytes = 0 ∨ !s.ownsRange ptr bytes then s.fail .invalidArgument ("cpu backend: invalid " ++ what ++ " range") ""
    else (.ok .nothing, s)

def prefetchToDevice : Option Ptr → Nat → Except CpuThrow CpuReply × CpuBackend := s.hint "prefetch"

def advisePreferredLocation : Option Ptr → Nat → Except CpuThrow CpuReply × CpuBackend := s.hint "advice"

/-! ## Streams and events -/

/-- `create_stream`: the address of the new object, if there is one, and whether the set can grow. -/
def createStream (made : Option Ptr) (inserted : Bool) : Except CpuThrow CpuReply × CpuBackend :=
  match made with
  | none => (.error .badAlloc, s)
  | some handle => s.whenOpen <|
    if inserted then (.ok (.pointer handle), { s with streams := insert handle s.streams }) else (.error .badAlloc, s)

/-- `destroy_stream`. -/
def destroyStream (stream : Option Ptr) : Except CpuThrow CpuReply × CpuBackend :=
  match stream with
  | none => (.ok .nothing, s)
  | some handle =>
    if handle ∈ s.streams then (.ok .nothing, { s with streams := s.streams.erase handle })
    else s.fail .state "cpu backend: destroy of unknown stream" ""

/-- `create_event`. -/
def createEvent (made : Option Ptr) (inserted : Bool) : Except CpuThrow CpuReply × CpuBackend :=
  match made with
  | none => (.error .badAlloc, s)
  | some handle => s.whenOpen <|
    if inserted then (.ok (.pointer handle), { s with events := s.events.put ⟨handle, none⟩ }) else (.error .badAlloc, s)

/-- `destroy_event`. -/
def destroyEvent (event : Option Ptr) : Except CpuThrow CpuReply × CpuBackend :=
  match event with
  | none => (.ok .nothing, s)
  | some handle =>
    if (s.events.lookup handle).isSome then (.ok .nothing, { s with events := s.events.erase handle })
    else s.fail .state "cpu backend: destroy of unknown event" ""

/-- When the event was recorded, if it is known and was. -/
def recordedAt (event : Option Ptr) : Option Int := (event.bind s.events.lookup).bind CpuEvent.recorded

/-- `record_event`, at a time. -/
def recordEvent (event stream : Option Ptr) (now : Int) : Except CpuThrow CpuReply × CpuBackend :=
  s.whenOpen <|
    match event.bind s.events.lookup with
    | none => s.fail .state "cpu backend: unknown event" ""
    | some e => s.whenKnown stream (.ok .nothing, { s with events := s.events.put { e with recorded := some now } })

/-- `wait_event`. -/
def waitEvent (event : Option Ptr) : Except CpuThrow CpuReply × CpuBackend :=
  s.whenOpen <|
    if (s.recordedAt event).isSome then (.ok .nothing, s) else s.fail .state "cpu backend: event was not recorded" ""

/-- `event_elapsed_us`, in ticks of the clock. -/
def eventElapsed (first last : Option Ptr) : Except CpuThrow CpuReply × CpuBackend :=
  s.whenOpen <|
    match s.recordedAt first, s.recordedAt last with
    | some a, some b => (.ok (.elapsed (b - a)), s)
    | _, _ => s.fail .state "cpu backend: elapsed time requires recorded events" ""

/-! ## Copies -/

/-- `memcpy`. -/
def memcpy (dst src : Nat) (bytes : Nat) : CpuBackend :=
  { s with memory := fun x => if dst ≤ x ∧ x < dst + bytes then s.memory (src + (x - dst)) else s.memory x }

/-- A copy whose pointers are valid if `valid`. -/
def asyncCopy (what : String) (valid : Bool) (dst src : Option Ptr) (bytes : Nat) (stream : Option Ptr) :
    Except CpuThrow CpuReply × CpuBackend :=
  s.whenOpen <| s.whenKnown stream <|
    if bytes = 0 then (.ok .nothing, s)
    else if valid then (.ok .nothing, s.memcpy (dst.getD 0) (src.getD 0) bytes)
    else s.fail .invalidArgument ("cpu backend: invalid " ++ what ++ " copy range") ""

def asyncCopyHostToDevice (dst src : Option Ptr) (bytes : Nat) : Option Ptr → Except CpuThrow CpuReply × CpuBackend :=
  s.asyncCopy "host-to-device" (src.isSome && s.ownsRange dst bytes) dst src bytes

def asyncCopyDeviceToHost (dst src : Option Ptr) (bytes : Nat) : Option Ptr → Except CpuThrow CpuReply × CpuBackend :=
  s.asyncCopy "device-to-host" (dst.isSome && s.ownsRange src bytes) dst src bytes

def asyncCopyDeviceToDevice (dst src : Option Ptr) (bytes : Nat) : Option Ptr → Except CpuThrow CpuReply × CpuBackend :=
  s.asyncCopy "device-to-device" (s.ownsRange dst bytes && s.ownsRange src bytes) dst src bytes

/-- `sync_stream`. -/
def syncStream (stream : Option Ptr) : Except CpuThrow CpuReply × CpuBackend := s.whenOpen (s.whenKnown stream (.ok .nothing, s))

/-- `sync_all`. -/
def syncAll : Except CpuThrow CpuReply × CpuBackend := s.whenOpen (.ok .nothing, s)

/-! ## Synchronous copies -/

/-- A synchronous copy of `device_backend.hpp`: a copy on a stream of its own. A failure of the clean-up after an
error is not reported. -/
def copySync (copy : CpuBackend → Option Ptr → Except CpuThrow CpuReply × CpuBackend) (made : Option Ptr) (inserted : Bool) :
    Except CpuThrow CpuReply × CpuBackend :=
  match s.createStream made inserted with
  | (.error e, s) => (.error e, s)
  | (.ok _, s) =>
    match copy s made with
    | (.error e, s) => (.error e, (s.destroyStream made).2)
    | (.ok _, s) =>
      match s.syncStream made with
      | (.error e, s) => (.error e, (s.destroyStream made).2)
      | (.ok _, s) => s.destroyStream made

def copyHostToDeviceSync (dst src : Option Ptr) (bytes : Nat) : Option Ptr → Bool → Except CpuThrow CpuReply × CpuBackend :=
  s.copySync fun s => s.asyncCopyHostToDevice dst src bytes

def copyDeviceToHostSync (dst src : Option Ptr) (bytes : Nat) : Option Ptr → Bool → Except CpuThrow CpuReply × CpuBackend :=
  s.copySync fun s => s.asyncCopyDeviceToHost dst src bytes

end CpuBackend

/-! ## Runs -/

/-- The calls, with the answers of the system, and the stores of the program that uses the backend. -/
inductive CpuAction where
  | openDevice (index : Int) (selected : Option Nat) (assigned : Bool)
  | close
  | allocate (bytes : Nat) (answer : Option CpuBackend.AllocAnswer)
  | free (ptr : Option Ptr)
  | prefetchToDevice (ptr : Option Ptr) (bytes : Nat)
  | advisePreferredLocation (ptr : Option Ptr) (bytes : Nat)
  | createStream (made : Option Ptr) (inserted : Bool)
  | destroyStream (stream : Option Ptr)
  | createEvent (made : Option Ptr) (inserted : Bool)
  | destroyEvent (event : Option Ptr)
  | recordEvent (event stream : Option Ptr) (now : Int)
  | waitEvent (event : Option Ptr)
  | eventElapsed (first last : Option Ptr)
  | copyHostToDevice (dst src : Option Ptr) (bytes : Nat) (stream : Option Ptr)
  | copyDeviceToHost (dst src : Option Ptr) (bytes : Nat) (stream : Option Ptr)
  | copyDeviceToDevice (dst src : Option Ptr) (bytes : Nat) (stream : Option Ptr)
  | syncStream (stream : Option Ptr)
  | syncAll
  | store (ptr : Nat) (value : UInt8)

namespace CpuBackend

/-- A call, or a store, which returns nothing. -/
def call (s : CpuBackend) : CpuAction → Except CpuThrow CpuReply × CpuBackend
  | .openDevice index selected assigned => s.openDevice index selected assigned
  | .close => s.close
  | .allocate bytes answer => s.allocate bytes answer
  | .free ptr => s.free ptr
  | .prefetchToDevice ptr bytes => s.prefetchToDevice ptr bytes
  | .advisePreferredLocation ptr bytes => s.advisePreferredLocation ptr bytes
  | .createStream made inserted => s.createStream made inserted
  | .destroyStream stream => s.destroyStream stream
  | .createEvent made inserted => s.createEvent made inserted
  | .destroyEvent event => s.destroyEvent event
  | .recordEvent event stream now => s.recordEvent event stream now
  | .waitEvent event => s.waitEvent event
  | .eventElapsed first last => s.eventElapsed first last
  | .copyHostToDevice dst src bytes stream => s.asyncCopyHostToDevice dst src bytes stream
  | .copyDeviceToHost dst src bytes stream => s.asyncCopyDeviceToHost dst src bytes stream
  | .copyDeviceToDevice dst src bytes stream => s.asyncCopyDeviceToDevice dst src bytes stream
  | .syncStream stream => s.syncStream stream
  | .syncAll => s.syncAll
  | .store ptr value => (.ok .nothing, { s with memory := fun x => if x = ptr then value else s.memory x })

/-- A step of a run: a call that throws is one too. -/
def step (s : CpuBackend) (k : CpuAction) : Option CpuBackend := some (s.call k).2

end CpuBackend

end FlashTier
