/-
Next-use distances (`annotate_next_use`, `workload.cpp`). A single pass from the end of the trace keeps, for
each page, the position at which it was last seen, which is its first position from there on; so the distance
the pass writes down is the distance to the next use of the page.
-/
import Mathlib.Order.Bounds.Basic
import FlashTier.Workload.Traces

namespace FlashTier

/-- A `std::vector`: its size is a word. -/
structure Vec (α : Type) where
  items : List α
  fits : items.length < 2 ^ 64

/-! ## The pass -/

/-- The local variables of the pass: the distances so far, and the position of each page last seen. -/
structure Scan where
  last : List UInt64
  nextPos : Std.HashMap UInt64 UInt64

/-- The body of the loop, for a position of the trace. -/
def Scan.visit (s : Scan) (i : Nat) (id : UInt64) : Scan where
  last := s.last.set i (match s.nextPos[id]? with
    | none => 0
    | some next => next - UInt64.ofNat i)
  nextPos := s.nextPos.insert id (UInt64.ofNat i)

/-- The loop, over the positions below a bound from the highest down. -/
def Scan.run (pageIds : List UInt64) : Nat → Scan → Scan
  | 0, s => s
  | i + 1, s => run pageIds i (match pageIds[i]? with
    | none => s
    | some id => s.visit i id)

/-- `annotate_next_use`. -/
def annotateNextUse (pageIds : Vec UInt64) : List TraceAccess :=
  let n := pageIds.items.length
  let s := Scan.run pageIds.items n ⟨List.replicate n 0, ∅⟩
  (pageIds.items.zip s.last).map fun (id, distance) => { pageId := id, nextUseDistance := distance }

/-! ## What the pass has seen -/

section Positions

variable {α : Type} {l : List α} {i k p : Nat} {a x : α}

/-- The first position of a value, from a position on. -/
def FirstFrom (l : List α) (k : Nat) (a : α) (p : Nat) : Prop := IsLeast {j | k ≤ j ∧ l[j]? = some a} p

/-- The distance from a position to the next one with the value, `0` if there is none. -/
def NextUse (l : List α) (i : Nat) (a : α) (d : Nat) : Prop :=
  (d = 0 ∧ ∀ e, 0 < e → l[i + e]? ≠ some a) ∨ IsLeast {e | 0 < e ∧ l[i + e]? = some a} d

theorem firstFrom_self (h : l[i]? = some a) : FirstFrom l i a i := ⟨⟨le_rfl, h⟩, fun _ hj => hj.1⟩

/-- A position with another value does not matter. -/
theorem FirstFrom.pred (h : FirstFrom l (i + 1) x p) (hi : l[i]? ≠ some x) : FirstFrom l i x p := by
  refine ⟨⟨Nat.le_of_succ_le h.1.1, h.1.2⟩, ?_⟩
  rintro j ⟨hj, hx⟩
  have hne : j ≠ i := by
    rintro rfl
    exact hi hx
  exact h.2 ⟨by omega, hx⟩

theorem FirstFrom.nextUse (h : FirstFrom l (i + 1) a p) : NextUse l i a (p - i) := by
  have hp := h.1.1
  refine .inr ⟨⟨by omega, ?_⟩, ?_⟩
  · rw [Nat.add_sub_cancel' (by omega)]
    exact h.1.2
  · rintro e ⟨he, ha⟩
    have := h.2 ⟨show i + 1 ≤ i + e by omega, ha⟩
    omega

end Positions

variable {ids : List UInt64} {s : Scan} {i k : Nat}

/-- The pass has come down to a position: it knows the first position of each page from there on, and the
distances are right from there on. -/
structure Scan.Seen (ids : List UInt64) (k : Nat) (s : Scan) : Prop where
  size : s.last.length = ids.length
  known : ∀ x p, s.nextPos[x]? = some p → FirstFrom ids k x p.toNat
  unknown : ∀ x, s.nextPos[x]? = none → ∀ j, k ≤ j → ids[j]? ≠ some x
  right : ∀ j x d, k ≤ j → ids[j]? = some x → s.last[j]? = some d → NextUse ids j x d.toNat

namespace Scan

theorem seen_start (ids : List UInt64) : Seen ids ids.length ⟨List.replicate ids.length 0, ∅⟩ where
  size := List.length_replicate
  known x p h := by simp at h
  unknown x _ j hj := by simp [hj]
  right j x d hj hx := by simp [hj] at hx

/-- The distance that is written down at a position. -/
theorem Seen.distance (h : Seen ids (i + 1) s) (hfits : ids.length < 2 ^ 64) {id : UInt64} (hi : ids[i]? = some id) :
    NextUse ids i id (match s.nextPos[id]? with
      | none => (0 : UInt64)
      | some next => next - UInt64.ofNat i).toNat := by
  rcases hn : s.nextPos[id]? with _ | next
  · exact .inl ⟨rfl, fun e he => h.unknown id hn (i + e) (by omega)⟩
  · have hfirst := h.known id next hn
    have hlt : i < 2 ^ 64 := (List.getElem?_eq_some_iff.1 hi).1.trans hfits
    have hle : UInt64.ofNat i ≤ next := by
      rw [UInt64.le_iff_toNat_le, UInt64.toNat_ofNat_of_lt' hlt]
      exact Nat.le_of_succ_le hfirst.1.1
    show NextUse ids i id (next - UInt64.ofNat i).toNat
    rw [UInt64.toNat_sub_of_le _ _ hle, UInt64.toNat_ofNat_of_lt' hlt]
    exact hfirst.nextUse

/-- One step down. -/
theorem Seen.visit (h : Seen ids (i + 1) s) (hfits : ids.length < 2 ^ 64) {id : UInt64} (hi : ids[i]? = some id) :
    Seen ids i (s.visit i id) := by
  have hin := (List.getElem?_eq_some_iff.1 hi).1
  have hpos : (UInt64.ofNat i).toNat = i := UInt64.toNat_ofNat_of_lt' (hin.trans hfits)
  refine ⟨by rw [Scan.visit, List.length_set, h.size], fun x p hx => ?_, fun x hx j hj => ?_, fun j x d hj hx hd => ?_⟩
  · rw [Scan.visit, Std.HashMap.getElem?_insert] at hx
    split at hx
    · rename_i heq
      cases hx
      rw [hpos, ← beq_iff_eq.1 heq]
      exact firstFrom_self hi
    · rename_i hne
      refine (h.known x p hx).pred fun hx' => hne ?_
      rw [hi] at hx'
      exact beq_iff_eq.2 (Option.some.inj hx')
  · rw [Scan.visit, Std.HashMap.getElem?_insert] at hx
    split at hx
    · cases hx
    · rename_i hne
      rcases hj.eq_or_lt with rfl | hlt
      · rw [hi]
        exact fun h => hne (beq_iff_eq.2 (Option.some.inj h))
      · exact h.unknown x hx j hlt
  · rcases hj.eq_or_lt with rfl | hlt
    · have hlast : i < s.last.length := h.size ▸ hin
      rw [Scan.visit, List.getElem?_set_self hlast] at hd
      cases hd
      rw [hi] at hx
      cases hx
      exact h.distance hfits hi
    · rw [Scan.visit, List.getElem?_set_ne hlt.ne] at hd
      exact h.right j x d hlt hx hd

/-- The whole loop, by induction on the positions still to visit. -/
theorem Seen.run (hfits : ids.length < 2 ^ 64) : ∀ (k : Nat) {s : Scan}, k ≤ ids.length → Seen ids k s → Seen ids 0 (Scan.run ids k s)
  | 0, _, _, h => h
  | i + 1, s, hk, h => by
    have hi : ids[i]? = some ids[i] := List.getElem?_eq_getElem hk
    rw [Scan.run, hi]
    exact Seen.run hfits i (Nat.le_of_succ_le hk) (h.visit hfits hi)

end Scan

/-- The distances are those to the next use: the accesses are those of the trace, and at each position the
distance is the least positive one at which the page comes again, or `0` when it does not. -/
theorem next_use_exact (pageIds : Vec UInt64) :
    (annotateNextUse pageIds).map TraceAccess.pageId = pageIds.items ∧
      ∀ (i : Nat) (a : TraceAccess), (annotateNextUse pageIds)[i]? = some a →
        (a.nextUseDistance = 0 ∧ ∀ d, 0 < d → pageIds.items[i + d]? ≠ some a.pageId) ∨
          IsLeast {d | 0 < d ∧ pageIds.items[i + d]? = some a.pageId} a.nextUseDistance.toNat := by
  have hseen := Scan.Seen.run pageIds.fits _ le_rfl (Scan.seen_start pageIds.items)
  constructor
  · rw [annotateNextUse, List.map_map]
    exact List.map_fst_zip hseen.size.ge
  · intro i a ha
    rw [annotateNextUse, List.getElem?_map] at ha
    obtain ⟨⟨id, distance⟩, hzip, rfl⟩ := Option.map_eq_some_iff.1 ha
    obtain ⟨hid, hlast⟩ := List.getElem?_zip_eq_some.1 hzip
    exact (hseen.right i id distance (Nat.zero_le i) hid hlast).imp_left fun ⟨h0, hnone⟩ => ⟨UInt64.toNat.inj h0, hnone⟩

end FlashTier
