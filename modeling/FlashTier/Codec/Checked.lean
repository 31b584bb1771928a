/-
Arithmetic on 64-bit words that reports what a program must avoid: a division by zero, which is undefined,
and a result that would wrap around. Where no operation traps, the words are the numbers they stand for.
Code over it may also throw; its rules say that it ends without a trap.
-/
import Mathlib.Tactic

namespace Codec

/-! ## Operations -/

/-- What would make a computation on words undefined or wrong. -/
inductive Trap where
  | divisionByZero | wrapped
  deriving DecidableEq, Repr

def checkedMod (a b : UInt64) : Except Trap UInt64 := if b = 0 then .error .divisionByZero else .ok (a % b)

def checkedDiv (a b : UInt64) : Except Trap UInt64 := if b = 0 then .error .divisionByZero else .ok (a / b)

def checkedSub (a b : UInt64) : Except Trap UInt64 := if a < b then .error .wrapped else .ok (a - b)

def checkedAdd (a b : UInt64) : Except Trap UInt64 := if a.toNat + b.toNat < 2 ^ 64 then .ok (a + b) else .error .wrapped

def checkedMul (a b : UInt64) : Except Trap UInt64 := if a.toNat * b.toNat < 2 ^ 64 then .ok (a * b) else .error .wrapped

theorem checkedMod_of_ne {a b : UInt64} (h : b ≠ 0) : checkedMod a b = .ok (a % b) := if_neg h

theorem checkedDiv_of_ne {a b : UInt64} (h : b ≠ 0) : checkedDiv a b = .ok (a / b) := if_neg h

theorem checkedSub_of_le {a b : UInt64} (h : b ≤ a) : checkedSub a b = .ok (a - b) := if_neg (UInt64.not_lt.2 h)

/-- A sum that does not wrap around is the sum of the numbers. -/
theorem checkedAdd_of_lt {a b : UInt64} (h : a.toNat + b.toNat < 2 ^ 64) :
    checkedAdd a b = .ok (a + b) ∧ (a + b).toNat = a.toNat + b.toNat :=
  ⟨if_pos h, by rw [UInt64.toNat_add, Nat.mod_eq_of_lt h]⟩

/-- A product that does not wrap around is the product of the numbers. -/
theorem checkedMul_of_lt {a b : UInt64} (h : a.toNat * b.toNat < 2 ^ 64) :
    checkedMul a b = .ok (a * b) ∧ (a * b).toNat = a.toNat * b.toNat :=
  ⟨if_pos h, by rw [UInt64.toNat_mul, Nat.mod_eq_of_lt h]⟩

theorem ok_bind {ε α β : Type} (a : α) (f : α → Except ε β) : (Except.ok a >>= f) = f a := rfl

/-- The largest `uint64_t`. -/
@[irreducible] def uint64Max : UInt64 := 0xFFFFFFFFFFFFFFFF

theorem toNat_uint64Max : uint64Max.toNat = 2 ^ 64 - 1 := by simp [uint64Max]

theorem le_uint64Max (w : UInt64) : w ≤ uint64Max := by
  have := w.toNat_lt
  rw [UInt64.le_iff_toNat_le, toNat_uint64Max]
  omega

/-- The usual test before a product: a factor is at most the largest word divided by the other. -/
theorem mul_lt_of_le_div {a b : UInt64} (h : a ≤ uint64Max / b) (hb : b ≠ 0) : a.toNat * b.toNat < 2 ^ 64 := by
  rw [UInt64.le_iff_toNat_le, UInt64.toNat_div, toNat_uint64Max] at h
  have hb' : 0 < b.toNat := UInt64.lt_iff_toNat_lt.1 (UInt64.pos_iff_ne_zero.2 hb)
  have := (Nat.le_div_iff_mul_le hb').1 h
  omega

/-! ## Code that may throw -/

/-- Code that may throw an error, with arithmetic that traps. -/
abbrev Guarded (ε α : Type) : Type := ExceptT ε (Except Trap) α

namespace Guarded

variable {ε α β σ : Type} {Q : α → Prop} {Q' : β → Prop}

/-- The computation ends without a trap, by throwing or with a value that satisfies `Q`. -/
def Ends (p : Guarded ε α) (Q : α → Prop) : Prop := (∃ e, p.run = .ok (.error e)) ∨ ∃ a, p.run = .ok (.ok a) ∧ Q a

theorem ends_pure {a : α} (h : Q a) : Ends (pure a : Guarded ε α) Q := .inr ⟨a, rfl, h⟩

theorem ends_throw (e : ε) : Ends (throw e : Guarded ε α) Q := .inl ⟨e, rfl⟩

theorem ends_lift {p : Except Trap α} {a : α} (hp : p = .ok a) (h : Q a) : Ends (liftM p : Guarded ε α) Q := by
  subst hp
  exact ends_pure h

theorem Ends.bind {p : Guarded ε α} {f : α → Guarded ε β} (hp : p.Ends Q) (hf : ∀ a, Q a → (f a).Ends Q') : Ends (p >>= f) Q' := by
  rcases hp with ⟨e, he⟩ | ⟨a, ha, hq⟩
  · refine .inl ⟨e, ?_⟩
    rw [ExceptT.run_bind, he]
    rfl
  · have hrun : (p >>= f).run = (f a).run := by
      rw [ExceptT.run_bind, ha]
      rfl
    unfold Ends
    rw [hrun]
    exact hf a hq

theorem Ends.mono {Q₁ : α → Prop} {p : Guarded ε α} (hp : p.Ends Q) (h : ∀ a, Q a → Q₁ a) : p.Ends Q₁ :=
  hp.imp_right fun ⟨a, ha, hq⟩ => ⟨a, ha, h a hq⟩

theorem Ends.ite {c : Prop} [Decidable c] {p q : Guarded ε α} (hp : c → p.Ends Q) (hq : ¬c → q.Ends Q) : Ends (if c then p else q) Q := by
  split
  · exact hp ‹_›
  · exact hq ‹_›

/-- What holds of every value holds of the one returned. -/
theorem Ends.of_ok {p : Guarded ε α} (h : p.Ends Q) {a : α} (ha : p.run = .ok (.ok a)) : Q a := by
  rcases h with ⟨e, he⟩ | ⟨a', ha', hq⟩
  · rw [he] at ha
    cases ha
  · rw [ha'] at ha
    cases ha
    exact hq

theorem Ends.no_trap {p : Guarded ε α} (h : p.Ends Q) : ∃ r, p.run = .ok r := by
  rcases h with ⟨e, he⟩ | ⟨a, ha, -⟩
  · exact ⟨_, he⟩
  · exact ⟨_, ha⟩

/-- A loop of so many draws, each from the state that the one before it left. -/
def repeatDraw (draw : σ → Guarded ε (α × σ)) : Nat → σ → Guarded ε (List α × σ)
  | 0, s => pure ([], s)
  | n + 1, s => do
    let (a, s) ← draw s
    let (l, s) ← repeatDraw draw n s
    pure (a :: l, s)

/-- What the draw at each index ensures and keeps of the state holds of the whole loop. -/
theorem ends_repeatDraw_at {draw : σ → Guarded ε (α × σ)} {I : Nat → σ → Prop} {P : Nat → α → Prop} {n : Nat}
    (hdraw : ∀ k < n, ∀ s, I k s → (draw s).Ends fun r => P k r.1 ∧ I (k + 1) r.2) :
    ∀ (m k : Nat) (s : σ), k + m = n → I k s →
      (repeatDraw draw m s).Ends fun r => List.Forall₂ P (List.range' k m) r.1 ∧ I n r.2
  | 0, k, s, hk, hs => ends_pure ⟨.nil, hk ▸ hs⟩
  | m + 1, k, s, hk, hs => by
    refine (hdraw k (by omega) s hs).bind fun r hr => ?_
    refine (ends_repeatDraw_at hdraw m (k + 1) r.2 (by omega) hr.2).bind fun r' hr' => ?_
    exact ends_pure ⟨.cons hr.1 hr'.1, hr'.2⟩

/-- What every draw ensures and keeps of the state holds of the whole loop. -/
theorem ends_repeatDraw {draw : σ → Guarded ε (α × σ)} {I : σ → Prop} (hdraw : ∀ s, I s → (draw s).Ends fun r => Q r.1 ∧ I r.2) :
    ∀ (n : Nat) (s : σ), I s → (repeatDraw draw n s).Ends fun r => r.1.length = n ∧ (∀ a ∈ r.1, Q a) ∧ I r.2
  | 0, s, hs => ends_pure ⟨rfl, List.forall_mem_nil _, hs⟩
  | n + 1, s, hs => by
    refine (hdraw s hs).bind fun r hr => ?_
    refine (ends_repeatDraw hdraw n r.2 hr.2).bind fun r' hr' => ends_pure ⟨?_, ?_, hr'.2.2⟩
    · rw [List.length_cons, hr'.1]
    · exact List.forall_mem_cons.2 ⟨hr.1, hr'.2.1⟩

end Guarded

end Codec
