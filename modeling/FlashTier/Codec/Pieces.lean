/-
Transfers in pieces: a loop of calls each of which moves a part of what is left, asks to be made again, or
stops the loop. The pieces of a loop that ends lie end to end, and it ends unless it is asked to go on for
ever.
-/
import FlashTier.Codec.Bytes

namespace Codec

/-! ## Pieces end to end -/

/-- A part of a transfer: `count` bytes from `start` on. -/
structure Piece where
  start : Nat
  count : Nat
  deriving DecidableEq, Repr

/-- The positions of its bytes. -/
def Piece.positions (p : Piece) : List Nat := List.range' p.start p.count

/-- The pieces lie end to end from `a` to `b`, and none is empty. -/
inductive Tiles : Nat → List Piece → Nat → Prop where
  | nil (a : Nat) : Tiles a [] a
  | cons {a n b : Nat} {ps : List Piece} (hn : 0 < n) (h : Tiles (a + n) ps b) : Tiles a (⟨a, n⟩ :: ps) b

namespace Tiles

variable {a b : Nat} {ps : List Piece}

theorem le (h : Tiles a ps b) : a ≤ b := by
  induction h with
  | nil => exact Nat.le_refl _
  | cons hn _ ih => exact (Nat.le_add_right _ _).trans ih

/-- The bytes of the pieces, in order, are those between the ends. -/
theorem flatMap_positions (h : Tiles a ps b) : ps.flatMap Piece.positions = List.range' a (b - a) := by
  induction h with
  | nil a => simp
  | @cons a n b ps hn h ih =>
    have hle := h.le
    have hlen : b - a = n + (b - (a + n)) := by omega
    rw [List.flatMap_cons, ih, hlen, List.range'_append_1.symm]
    rfl

/-- What the pieces of a source hold, in order, is what it holds between the ends. -/
theorem flatMap_field (h : Tiles a ps b) (src : List UInt8) : (ps.flatMap fun p => field src p.start p.count) = field src a (b - a) := by
  induction h with
  | nil a => simp [field]
  | @cons a n b ps hn h ih =>
    have hle := h.le
    rw [List.flatMap_cons, ih, field_append]
    exact congrArg (field src a) (show n + (b - (a + n)) = b - a by omega)

end Tiles

/-- Bytes put over a part of an image. -/
def splice (img : List UInt8) (off : Nat) (bytes : List UInt8) : List UInt8 := img.take off ++ bytes ++ img.drop (off + bytes.length)

theorem length_splice {img bytes : List UInt8} {off : Nat} (h : off + bytes.length ≤ img.length) : (splice img off bytes).length = img.length := by
  simp only [splice, List.length_append, List.length_take, List.length_drop]
  omega

theorem splice_splice {img as bs : List UInt8} {off : Nat} (h : off + as.length ≤ img.length) :
    splice (splice img off as) (off + as.length) bs = splice img off (as ++ bs) := by
  have hlen : (img.take off ++ as).length = off + as.length := by
    rw [List.length_append, List.length_take]
    omega
  have htake : (splice img off as).take (off + as.length) = img.take off ++ as := by rw [splice, ← hlen, List.take_left]
  have hdrop : (splice img off as).drop (off + as.length + bs.length) = img.drop (off + (as ++ bs).length) := by
    rw [splice, List.drop_append, List.drop_of_length_le (by omega), List.nil_append, List.drop_drop, hlen, List.length_append]
    exact congrArg img.drop (by omega)
  rw [splice, htake, hdrop, List.append_assoc, List.append_assoc, splice, List.append_assoc, List.append_assoc]

/-- Written in pieces, a source lies in the target as if written at once. -/
theorem Tiles.foldl_splice {a b : Nat} {ps : List Piece} (h : Tiles a ps b) (src img : List UInt8) (hs : b ≤ src.length) (hi : b ≤ img.length) :
    ps.foldl (fun img p => splice img p.start (field src p.start p.count)) img = splice img a (field src a (b - a)) := by
  induction h generalizing img with
  | nil a => simp [splice, field]
  | @cons a n b ps hn h ih =>
    have hle := h.le
    have hlen : (field src a n).length = n := length_field src (by omega)
    have hsplice : (splice img a (field src a n)).length = img.length := length_splice (by omega)
    have hfield : field src a (b - a) = field src a n ++ field src (a + n) (b - (a + n)) := by
      rw [field_append]
      exact congrArg (field src a) (by omega)
    have hrest := ih (splice img a (field src a n)) hs (by omega)
    rw [hfield, ← splice_splice (by omega), hlen]
    exact hrest

/-! ## The loop -/

/-- What the loop does after a call: make it again, stop, or go on `n` bytes further. -/
inductive Turn where
  | again
  | stop
  | advance (n : Nat)
  deriving DecidableEq, Repr

/-- How a loop ends: with everything moved, or at a result that stops it. -/
inductive Ending (ρ : Type) where
  | complete
  | stopped (r : ρ)
  deriving DecidableEq, Repr

/-- The pieces moved, and how the loop ended; `none` while it has not. -/
structure Transfer (ρ : Type) where
  pieces : List Piece := []
  ending : Option (Ending ρ) := none

section

variable {ρ : Type} (turn : ρ → Turn) (bytes : Nat)

def Transfer.after {ρ : Type} (p : Piece) (t : Transfer ρ) : Transfer ρ := { t with pieces := p :: t.pieces }

/-- The loop from `total` bytes on, when its calls return these results. -/
def transfer : Nat → List ρ → Transfer ρ
  | _, [] => {}
  | total, r :: rest =>
    match turn r with
    | .again => transfer total rest
    | .stop => { ending := some (.stopped r) }
    | .advance n =>
      if total + n < bytes then (transfer (total + n) rest).after ⟨total, n⟩
      else { pieces := [⟨total, n⟩], ending := some .complete }

/-- Every call moves at least a byte and at most what it was asked for. -/
def Lawful : Nat → List ρ → Prop
  | _, [] => True
  | total, r :: rest =>
    match turn r with
    | .again => Lawful total rest
    | .stop => True
    | .advance n => 0 < n ∧ total + n ≤ bytes ∧ (total + n < bytes → Lawful (total + n) rest)

end

variable {ρ : Type} {turn : ρ → Turn} {bytes total : Nat}

/-- The pieces lie end to end; they reach the end exactly if the loop is complete. -/
theorem transfer_tiles {results : List ρ} (hl : Lawful turn bytes total results) (ht : total < bytes) :
    ∃ t, Tiles total (transfer turn bytes total results).pieces t ∧ t ≤ bytes ∧
      ((transfer turn bytes total results).ending = some .complete ↔ t = bytes) := by
  induction results generalizing total with
  | nil => exact ⟨total, .nil _, ht.le, iff_of_false (by intro h; cases h) ht.ne⟩
  | cons r rest ih =>
    unfold Lawful at hl
    unfold transfer
    cases hturn : turn r with
    | again =>
      rw [hturn] at hl
      exact ih hl ht
    | stop => exact ⟨total, .nil _, ht.le, iff_of_false (by intro h; cases h) ht.ne⟩
    | advance n =>
      simp only [hturn] at hl ⊢
      obtain ⟨hn, hle, hrest⟩ := hl
      split
      · rename_i hlt
        obtain ⟨t, htiles, hle', hiff⟩ := ih (hrest hlt) hlt
        exact ⟨t, .cons hn htiles, hle', hiff⟩
      · exact ⟨total + n, .cons hn (.nil _), hle, iff_of_true rfl (by omega)⟩

/-- The bytes that results move, up to one that stops the loop. -/
def advanced (turn : ρ → Turn) : List ρ → Nat
  | [] => 0
  | r :: rest => match turn r with
    | .again => advanced turn rest
    | .stop => 0
    | .advance n => n + advanced turn rest

/-- A loop that is complete was given results that move everything. -/
theorem transfer_complete {results : List ρ} (h : (transfer turn bytes total results).ending = some .complete) :
    bytes ≤ total + advanced turn results := by
  induction results generalizing total with
  | nil => cases h
  | cons r rest ih =>
    unfold transfer at h
    unfold advanced
    cases hturn : turn r with
    | again =>
      rw [hturn] at h
      exact ih h
    | stop =>
      rw [hturn] at h
      cases h
    | advance n =>
      simp only [hturn] at h ⊢
      split at h
      · have := ih h
        omega
      · omega

/-- A loop that a result stops was given that result first among those that stop it, and has moved what the results
before it move, which is not everything. -/
theorem transfer_stopped {results : List ρ} {r : ρ} (hl : Lawful turn bytes total results) (ht : total < bytes)
    (h : (transfer turn bytes total results).ending = some (.stopped r)) :
    Tiles total (transfer turn bytes total results).pieces (total + advanced turn results) ∧ total + advanced turn results < bytes ∧
      results.find? (fun r => turn r == .stop) = some r := by
  induction results generalizing total with
  | nil => cases h
  | cons x rest ih =>
    unfold Lawful at hl
    unfold transfer at h ⊢
    unfold advanced
    cases hturn : turn x with
    | again =>
      rw [hturn] at hl h
      obtain ⟨htiles, hlt, hfind⟩ := ih hl ht h
      exact ⟨htiles, hlt, by rw [List.find?_cons_of_neg (by simp [hturn])]; exact hfind⟩
    | stop =>
      rw [hturn] at h
      cases h
      exact ⟨.nil _, ht, List.find?_cons_of_pos (by simp [hturn])⟩
    | advance n =>
      simp only [hturn] at hl h ⊢
      obtain ⟨hn, -, hrest⟩ := hl
      split at h
      · rename_i hlt
        obtain ⟨htiles, hlt', hfind⟩ := ih (hrest hlt) hlt h
        rw [if_pos hlt, ← Nat.add_assoc]
        exact ⟨.cons hn htiles, hlt', by rw [List.find?_cons_of_neg (by simp [hturn])]; exact hfind⟩
      · cases h

/-- The first `k` results. -/
def firstOf (results : Nat → ρ) (k : Nat) : List ρ := (List.range k).map results

theorem firstOf_succ (results : Nat → ρ) (k : Nat) : firstOf results (k + 1) = results 0 :: firstOf (fun i => results (i + 1)) k := by
  simp [firstOf, List.range_succ_eq_map]

/-- A loop that is asked to go on finitely often ends: each other call stops it or leaves less to move. -/
theorem transfer_ends (n : Nat) : ∀ {total : Nat} {results : Nat → ρ} (last : Nat), (bytes - total) + last ≤ n → total < bytes →
    (∀ i, last ≤ i → turn (results i) ≠ .again) → (∀ k, Lawful turn bytes total (firstOf results k)) →
    ∃ k, (transfer turn bytes total (firstOf results k)).ending ≠ none := by
  induction n with
  | zero =>
    intro total results last hn ht
    omega
  | succ n ih =>
    intro total results last hn ht hagain hl
    have hlaw : ∀ k, Lawful turn bytes total (results 0 :: firstOf (fun i => results (i + 1)) k) := fun k => firstOf_succ results k ▸ hl (k + 1)
    have hlater : ∀ i, last - 1 ≤ i → turn (results (i + 1)) ≠ .again := fun i hi => hagain (i + 1) (by omega)
    cases hturn : turn (results 0) with
    | again =>
      have hpos : last ≠ 0 := by
        rintro rfl
        exact hagain 0 (Nat.le_refl 0) hturn
      obtain ⟨k, hk⟩ := ih (last - 1) (by omega) ht hlater fun k => by
        have := hlaw k
        simp only [Lawful, hturn] at this
        exact this
      refine ⟨k + 1, ?_⟩
      rw [firstOf_succ]
      simp only [transfer, hturn]
      exact hk
    | stop =>
      refine ⟨1, ?_⟩
      rw [firstOf_succ]
      simp only [transfer, hturn]
      intro h
      cases h
    | advance m =>
      have hstep : ∀ k, 0 < m ∧ total + m ≤ bytes ∧ (total + m < bytes → Lawful turn bytes (total + m) (firstOf (fun i => results (i + 1)) k)) :=
        fun k => by
          have := hlaw k
          simp only [Lawful, hturn] at this
          exact this
      by_cases hlt : total + m < bytes
      · have hm := (hstep 0).1
        obtain ⟨k, hk⟩ := ih (last - 1) (by omega) hlt hlater fun k => (hstep k).2.2 hlt
        refine ⟨k + 1, ?_⟩
        rw [firstOf_succ]
        simp only [transfer, hturn, if_pos hlt]
        exact hk
      · refine ⟨1, ?_⟩
        rw [firstOf_succ]
        simp only [transfer, hturn, if_neg hlt]
        intro h
        cases h

end Codec
