/-
Words that lose nothing: the mixing steps of a hash finaliser are injective, and a word is determined by
its bytes. Positions of a buffer, taken block by block.
-/
import Mathlib.Tactic

namespace Codec

/-! ## Mixing -/

/-- A word is determined by itself xored with itself shifted right. -/
theorem xor_ushiftRight_inj {w k : Nat} (hk : 0 < k) {x y : BitVec w} (h : x ^^^ (x >>> k) = y ^^^ (y >>> k)) : x = y := by
  -- from the top: a bit is determined by the result and by a bit further up
  have hbit : ∀ m i, w ≤ i + m → x.getLsbD i = y.getLsbD i := by
    intro m
    induction m with
    | zero =>
      intro i hi
      rw [BitVec.getLsbD_of_ge x i hi, BitVec.getLsbD_of_ge y i hi]
    | succ m ih =>
      intro i hi
      have hup := ih (k + i) (by omega)
      have hi' := congrArg (BitVec.getLsbD · i) h
      simp only [BitVec.getLsbD_xor, BitVec.getLsbD_ushiftRight, hup] at hi'
      exact Bool.xor_left_inj.1 hi'
  exact BitVec.eq_of_getLsbD_eq fun i _ => hbit w i (Nat.le_add_left w i)

/-- A word is determined by its product with a word that has an inverse. -/
theorem mul_inj {c x y : UInt64} (inv : UInt64) (hc : c * inv = 1) (h : x * c = y * c) : x = y := by
  have h' : x * c * inv = y * c * inv := congrArg (· * inv) h
  rwa [UInt64.mul_assoc, UInt64.mul_assoc, hc, UInt64.mul_one, UInt64.mul_one] at h'

theorem xorShift_inj {k x y : UInt64} (hk : 0 < (k.toBitVec % 64).toNat) (h : x ^^^ (x >>> k) = y ^^^ (y >>> k)) : x = y := by
  have h' := congrArg UInt64.toBitVec h
  simp only [UInt64.toBitVec_xor, UInt64.toBitVec_shiftRight] at h'
  exact UInt64.toBitVec_inj.1 (xor_ushiftRight_inj hk h')

theorem xor_left_inj {c x y : UInt64} (h : x ^^^ c = y ^^^ c) : x = y := by
  have h' := congrArg UInt64.toBitVec h
  simp only [UInt64.toBitVec_xor] at h'
  exact UInt64.toBitVec_inj.1 ((BitVec.xor_left_inj c.toBitVec).1 h')

theorem xor_right_inj {c x y : UInt64} (h : c ^^^ x = c ^^^ y) : x = y := by
  have h' := congrArg UInt64.toBitVec h
  simp only [UInt64.toBitVec_xor] at h'
  exact UInt64.toBitVec_inj.1 ((BitVec.xor_right_inj c.toBitVec).1 h')

/-! ## FNV-1a -/

/-- One step of the 64-bit FNV-1a hash. -/
def fnvStep (hash : UInt64) (byte : UInt8) : UInt64 := (hash ^^^ byte.toUInt64) * 0x100000001b3

/-- The multiplier is odd, so it has an inverse. -/
theorem xor_of_fnvStep {a b : UInt64} {x y : UInt8} (h : fnvStep a x = fnvStep b y) : a ^^^ x.toUInt64 = b ^^^ y.toUInt64 :=
  mul_inj 14886173955864302971 (by decide) h

theorem fnvStep_inj_state (byte : UInt8) : Function.Injective fun hash => fnvStep hash byte :=
  fun _ _ h => xor_left_inj (xor_of_fnvStep h)

theorem fnvStep_inj_byte (hash : UInt64) : Function.Injective (fnvStep hash) :=
  fun _ _ h => UInt8.toUInt64_inj.1 (xor_right_inj (xor_of_fnvStep h))

/-! ## Bytes -/

/-- Byte `j` of a word, lowest first. -/
def byteOf (v : UInt64) (j : Nat) : UInt8 := (v >>> UInt64.ofNat (j * 8)).toUInt8

theorem getLsbD_byteOf {v : UInt64} {j : Nat} (hj : j < 8) (i : Nat) :
    (byteOf v j).toBitVec.getLsbD i = (decide (i < 8) && v.toBitVec.getLsbD (j * 8 + i)) := by
  have hs : ((UInt64.ofNat (j * 8)).toBitVec % 64).toNat = j * 8 := by
    simp only [BitVec.toNat_umod, UInt64.toNat_toBitVec, UInt64.toNat_ofNat']
    have h64 : (64 : BitVec 64).toNat = 64 := rfl
    rw [h64]
    omega
  simp only [byteOf, UInt64.toBitVec_toUInt8, UInt64.toBitVec_shiftRight, BitVec.getLsbD_setWidth]
  rw [BitVec.ushiftRight_eq', hs, BitVec.getLsbD_ushiftRight]

/-- A word is determined by its eight bytes. -/
theorem byteOf_inj {v w : UInt64} (h : ∀ j < 8, byteOf v j = byteOf w j) : v = w := by
  refine UInt64.toBitVec_inj.1 (BitVec.eq_of_getLsbD_eq fun i hi => ?_)
  have hj : i / 8 < 8 := by omega
  have hbyte := congrArg (fun b => b.toBitVec.getLsbD (i % 8)) (h (i / 8) hj)
  simp only [getLsbD_byteOf hj, Nat.mod_lt i (by decide : 0 < 8), decide_true, Bool.true_and] at hbyte
  rwa [Nat.div_add_mod'] at hbyte

/-! ## Searching -/

section Search

variable {α β γ : Type}

theorem findSome?_congr {f g : α → Option β} : ∀ {l : List α}, (∀ a ∈ l, f a = g a) → l.findSome? f = l.findSome? g
  | [], _ => rfl
  | a :: l, h => by
    rw [List.findSome?_cons, List.findSome?_cons, h a (List.mem_cons_self ..),
      findSome?_congr fun b hb => h b (List.mem_cons_of_mem a hb)]

theorem findSome?_flatMap (f : β → Option γ) (g : α → List β) : ∀ l : List α,
    (l.flatMap g).findSome? f = l.findSome? fun a => (g a).findSome? f
  | [] => rfl
  | a :: l => by
    rw [List.flatMap_cons, List.findSome?_append, findSome?_flatMap f g l, List.findSome?_cons]
    cases (g a).findSome? f <;> rfl

/-- A search whose tests may fail finds what the search finds when none of them does. -/
theorem findSomeM?_eq {f : α → Option (Option β)} {g : α → Option β} : ∀ {l : List α}, (∀ a ∈ l, f a = some (g a)) →
    l.findSomeM? f = some (l.findSome? g)
  | [], _ => rfl
  | a :: l, h => by
    have ih := findSomeM?_eq (f := f) (g := g) fun b hb => h b (List.mem_cons_of_mem a hb)
    rw [List.findSomeM?, h a (List.mem_cons_self ..), List.findSome?_cons]
    cases g a with
    | none => exact ih
    | some b => rfl

/-- The first position below `m` at which a test finds something. -/
theorem findSome?_range_eq_some {f : Nat → Option β} {m : Nat} {b : β} :
    (List.range m).findSome? f = some b ↔ ∃ i < m, f i = some b ∧ ∀ j < i, f j = none := by
  rw [List.findSome?_eq_some_iff]
  constructor
  · rintro ⟨l₁, i, l₂, hl, hb, hnone⟩
    have hi := congrArg (·[l₁.length]?) hl
    simp only [List.getElem?_append_right le_rfl, Nat.sub_self, List.getElem?_cons_zero] at hi
    obtain ⟨hlt, heq⟩ := List.getElem?_eq_some_iff.1 hi
    rw [List.getElem_range] at heq
    rw [List.length_range] at hlt
    refine ⟨i, by omega, hb, fun j hj => hnone j ?_⟩
    have hj' := congrArg (·[j]?) hl
    simp only [List.getElem?_range (show j < m by omega), List.getElem?_append_left (show j < l₁.length by omega)] at hj'
    exact List.mem_of_getElem? hj'.symm
  · rintro ⟨i, hi, hb, hnone⟩
    obtain ⟨k, rfl⟩ := Nat.exists_eq_add_of_lt hi
    refine ⟨List.range i, i, (List.range k).map (i + 1 + ·), ?_, hb, fun j hj => hnone j (List.mem_range.1 hj)⟩
    rw [show i + k + 1 = i + 1 + k by omega, List.range_add, List.range_succ, List.append_assoc]
    rfl

end Search

/-! ## Positions by blocks -/

theorem range_mul_blocks (k : Nat) : ∀ a : Nat, List.range (a * k) = (List.range a).flatMap fun b => (List.range k).map (b * k + ·)
  | 0 => by rw [Nat.zero_mul]; rfl
  | a + 1 => by
    rw [Nat.succ_mul, List.range_add, range_mul_blocks k a, List.range_succ, List.flatMap_append, List.flatMap_singleton]

/-- The positions below `n` are those of the complete blocks and those of the tail. -/
theorem range_blocks (n k : Nat) :
    List.range n = (List.range (n / k)).flatMap (fun b => (List.range k).map (b * k + ·)) ++ (List.range (n % k)).map (n / k * k + ·) := by
  rw [← range_mul_blocks, ← List.range_add, Nat.div_add_mod']

end Codec
