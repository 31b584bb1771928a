/-
Page content: the FNV-1a checksum, the deterministic pattern and its verification (`integrity.cpp`).
-/
import FlashTier.Codec.Words

namespace FlashTier

open Codec (byteOf fnvStep)

/-- The bytes of a buffer, by offset. -/
abbrev Bytes := Nat → UInt8

/-- The first `n` bytes of a buffer. -/
def Bytes.take (b : Bytes) (n : Nat) : List UInt8 := (List.range n).map b

/-- `fnv1a64` with its default seed. -/
def fnv1a64 (data : List UInt8) : UInt64 :=
  data.foldl fnvStep 0xC0FFEE

/-- `splitmix64`. -/
def splitmix64 (x : UInt64) : UInt64 :=
  let x := x + 0x9E3779B97F4A7C15
  let x := (x ^^^ (x >>> 30)) * 0xBF58476D1CE4E5B9
  let x := (x ^^^ (x >>> 27)) * 0x94D049BB133111EB
  x ^^^ (x >>> 31)

/-- The value whose little-endian bytes fill block `b` of a page. -/
def patternBlock (seed pageId : UInt64) (b : Nat) : UInt64 :=
  splitmix64 (seed ^^^ (pageId * 0x9E3779B97F4A7C15) ^^^ UInt64.ofNat b)

/-- `fill_pattern`: the complete blocks, then the tail from the last block. -/
def fillPattern (n : Nat) (seed pageId : UInt64) : List UInt8 :=
  (List.range (n / 8)).flatMap (fun b => (List.range 8).map (byteOf (patternBlock seed pageId b))) ++
    (List.range (n % 8)).map (byteOf (patternBlock seed pageId (n / 8)))

/-- `IntegrityMismatch`. -/
structure IntegrityMismatch where
  offset : Nat
  expected : UInt8
  actual : UInt8
  deriving DecidableEq, Repr

/-- The first byte among `count` from `base`, below `limit`, that differs from the block value's. -/
def verifyBlock (data : Bytes) (v : UInt64) (base count limit : Nat) : Option IntegrityMismatch :=
  (List.range count).findSome? fun j =>
    if base + j < limit ∧ data (base + j) ≠ byteOf v j then some ⟨base + j, byteOf v j, data (base + j)⟩
    else none

/-- `verify_pattern`: complete blocks, then the tail. -/
def verifyPattern (data : Bytes) (n : Nat) (seed pageId : UInt64) (checkLimit : Nat) : Option IntegrityMismatch :=
  let limit := if checkLimit = 0 then n else min checkLimit n
  ((List.range (n / 8)).findSome? fun b =>
    if b * 8 < limit then verifyBlock data (patternBlock seed pageId b) (b * 8) 8 limit else none).or
    (if n % 8 ≠ 0 ∧ n / 8 * 8 < limit then
      verifyBlock data (patternBlock seed pageId (n / 8)) (n / 8 * 8) (n % 8) limit
    else none)

end FlashTier
