/-
Numbers as little-endian bytes, fields of a byte image, and folds over bytes that notice a single change.
-/
import Mathlib.Tactic

namespace Codec

/-! ## Little-endian numbers -/

/-- The `n` low bytes of a number, lowest first. -/
def leBytes : Nat → Nat → List UInt8
  | 0, _ => []
  | n + 1, w => UInt8.ofNat w :: leBytes n (w / 256)

/-- The number that bytes make, lowest first. -/
def leNat : List UInt8 → Nat
  | [] => 0
  | b :: bs => b.toNat + 256 * leNat bs

@[simp] theorem length_leBytes : ∀ n w : Nat, (leBytes n w).length = n
  | 0, _ => rfl
  | n + 1, w => congrArg (· + 1) (length_leBytes n (w / 256))

theorem leNat_lt : ∀ bs : List UInt8, leNat bs < 256 ^ bs.length
  | [] => by decide
  | b :: bs => by
    have hb : b.toNat < 256 := b.toNat_lt
    have := leNat_lt bs
    rw [leNat, List.length_cons, pow_succ]
    omega

theorem leNat_leBytes : ∀ n w : Nat, leNat (leBytes n w) = w % 256 ^ n
  | 0, w => by rw [leBytes, leNat, pow_zero, Nat.mod_one]
  | n + 1, w => by
    have hlow : (UInt8.ofNat w).toNat = w % 256 := UInt8.toNat_ofNat'
    rw [leBytes, leNat, leNat_leBytes n (w / 256), hlow, pow_succ, Nat.mul_comm (256 ^ n), Nat.mod_mul]

theorem leBytes_leNat : ∀ bs : List UInt8, leBytes bs.length (leNat bs) = bs
  | [] => rfl
  | b :: bs => by
    have hb : b.toNat < 256 := b.toNat_lt
    have hlow : UInt8.ofNat (b.toNat + 256 * leNat bs) = b := by
      apply UInt8.toNat.inj
      rw [UInt8.toNat_ofNat']
      omega
    have hhigh : (b.toNat + 256 * leNat bs) / 256 = leNat bs := by omega
    rw [leNat, List.length_cons, leBytes, hlow, hhigh, leBytes_leNat bs]

/-! ## Fields -/

/-- The `n` bytes from `off` on. -/
def field {α : Type} (img : List α) (off n : Nat) : List α := (img.drop off).take n

section Field

variable {α : Type} (img : List α)

theorem length_field {off n : Nat} (h : off + n ≤ img.length) : (field img off n).length = n := by
  rw [field, List.length_take, List.length_drop]
  omega

theorem field_append (off m n : Nat) : field img off m ++ field img (off + m) n = field img off (m + n) := by
  rw [field, field, field, List.take_add, List.drop_drop]

theorem field_all : field img 0 img.length = img := by rw [field, List.drop_zero, List.take_length]

/-- The number in a field, as bytes again. -/
theorem leBytes_field {bytes : List UInt8} {off n : Nat} (h : off + n ≤ bytes.length) :
    leBytes n (leNat (field bytes off n)) = field bytes off n := by
  have := leBytes_leNat (field bytes off n)
  rwa [length_field bytes h] at this

/-- A change outside the field leaves it. -/
theorem field_set_of_not_mem (off n : Nat) {i : Nat} (a : α) (h : ¬(off ≤ i ∧ i < off + n)) : field (img.set i a) off n = field img off n := by
  rw [field, field, List.drop_set]
  split
  · rfl
  · rw [List.take_set_of_le (by omega)]

/-- A change inside the field is one of the field. -/
theorem field_set_of_mem (off n : Nat) {i : Nat} (a : α) (h : off ≤ i ∧ i < off + n) :
    field (img.set i a) off n = (field img off n).set (i - off) a := by
  rw [field, field, List.drop_set, if_neg (by omega), List.take_set]

theorem getElem?_field (off n : Nat) {i : Nat} (h : off ≤ i ∧ i < off + n) : (field img off n)[i - off]? = img[i]? := by
  rw [field, List.getElem?_take, if_pos (by omega), List.getElem?_drop]
  congr 1
  omega

end Field

/-! ## Folds -/

/-- A fold whose step is injective in the state and in the element notices a change of one element. -/
theorem foldl_set_ne {α β : Type} {f : β → α → β} (hstate : ∀ a, Function.Injective fun b => f b a)
    (helem : ∀ b, Function.Injective (f b)) : ∀ {l : List α} {i : Nat} {x a : α} (b : β), l[i]? = some x → a ≠ x →
      (l.set i a).foldl f b ≠ l.foldl f b
  | [], i, x, a, b, h, _ => by simp at h
  | y :: l, 0, x, a, b, h, hne => by
    cases h
    intro he
    -- the rest of the fold is injective in the state it starts from
    have hinj : ∀ l : List α, Function.Injective fun b => l.foldl f b := by
      intro l
      induction l with
      | nil => exact fun _ _ h => h
      | cons z l ih => exact fun b b' h => hstate z (ih h)
    exact hne (helem b (hinj l he))
  | y :: l, i + 1, x, a, b, h, hne => foldl_set_ne hstate helem (f b y) (by simpa using h) hne

end Codec
