/-
Deterministic workload traces (`workload.cpp`). A generator draws from a pseudo-random sequence and, for a
skewed choice, from a cumulative distribution of doubles whose values nothing here depends on. Every draw
lies inside the working set, no operation on words divides by zero or wraps around, and a trace of experts
fits in what was reserved for it.
-/
import Mathlib.Data.List.Destutter
import Mathlib.Data.List.Sort
import FlashTier.Codec.Checked
import FlashTier.Runtime.Page

namespace FlashTier

open Codec

/-! ## Draws -/

/-- Code of a generator: it may throw an `Error`. -/
abbrev Generate (α : Type) : Type := Guarded Error α

/-- The arguments are refused. -/
def refused {α : Type} (what : String) : Generate α := throw ⟨.invalidArgument, what, ""⟩

/-- A check that refuses the arguments. -/
def refuseIf (bad : Prop) [Decidable bad] (what : String) : Generate Unit := if bad then refused what else pure ()

theorem ends_refuseIf (bad : Prop) [Decidable bad] (what : String) : (refuseIf bad what).Ends fun _ => ¬bad :=
  .ite (fun _ => Guarded.ends_throw _) fun h => Guarded.ends_pure h

theorem ends_checkedMod {a b : UInt64} (hb : 0 < b) : Guarded.Ends (liftM (checkedMod a b) : Generate UInt64) (· < b) :=
  Guarded.ends_lift (checkedMod_of_ne (UInt64.pos_iff_ne_zero.1 hb)) (UInt64.mod_lt a hb)

theorem ends_checkedDiv {a b : UInt64} (hb : b ≠ 0) : Guarded.Ends (liftM (checkedDiv a b) : Generate UInt64) (· = a / b) :=
  Guarded.ends_lift (checkedDiv_of_ne hb) rfl

theorem ends_checkedAdd {a b : UInt64} (h : a.toNat + b.toNat < 2 ^ 64) :
    Guarded.Ends (liftM (checkedAdd a b) : Generate UInt64) fun r => r.toNat = a.toNat + b.toNat :=
  Guarded.ends_lift (checkedAdd_of_lt h).1 (checkedAdd_of_lt h).2

theorem ends_checkedSub {a b : UInt64} (h : b ≤ a) :
    Guarded.Ends (liftM (checkedSub a b) : Generate UInt64) fun r => r.toNat = a.toNat - b.toNat :=
  Guarded.ends_lift (checkedSub_of_le h) (UInt64.toNat_sub_of_le _ _ h)

theorem ends_checkedMul {a b : UInt64} (h : a.toNat * b.toNat < 2 ^ 64) :
    Guarded.Ends (liftM (checkedMul a b) : Generate UInt64) fun r => r.toNat = a.toNat * b.toNat :=
  Guarded.ends_lift (checkedMul_of_lt h).1 (checkedMul_of_lt h).2

/-- `SplitMix64`. -/
structure SplitMix64 where
  state : UInt64
  deriving DecidableEq, Repr

/-- `SplitMix64::next`; the state wraps around on purpose. -/
def SplitMix64.next (g : SplitMix64) : UInt64 × SplitMix64 :=
  let state := g.state + 0x9E3779B97F4A7C15
  let z := (state ^^^ (state >>> 30)) * 0xBF58476D1CE4E5B9
  let z := (z ^^^ (z >>> 27)) * 0x94D049BB133111EB
  (z ^^^ (z >>> 31), ⟨state⟩)

/-- What the generators use of `double`. Nothing is assumed of the operations. -/
class DoubleOps (δ : Type) extends Add δ, Div δ where
  ofUInt64 : UInt64 → δ
  pow : δ → δ → δ
  lt : δ → δ → Bool
  le : δ → δ → Bool
  isFinite : δ → Bool

instance : DoubleOps Float where
  ofUInt64 := UInt64.toFloat
  pow := Float.pow
  lt a b := decide (a < b)
  le a b := decide (a ≤ b)
  isFinite := Float.isFinite

/-- What vectors can hold: `max_size()` for elements of so many bytes. -/
structure Platform where
  maxSize : Nat → Nat

variable {δ : Type} [DoubleOps δ]

/-- The exponent is not finite, or not positive. -/
def badExponent (exponent : δ) : Bool := !DoubleOps.isFinite exponent || DoubleOps.le exponent (DoubleOps.ofUInt64 0)

/-- `std::lower_bound` by halving, over `len` elements from `first`; `below` compares an element with the value. -/
def lowerBound (below : Nat → Bool) (first len : Nat) : Nat :=
  if len = 0 then first
  else if below (first + len / 2) then lowerBound below (first + len / 2 + 1) (len - len / 2 - 1)
  else lowerBound below first (len / 2)
  termination_by len
  decreasing_by all_goals omega

theorem lowerBound_le (below : Nat → Bool) (first len : Nat) : lowerBound below first len ≤ first + len := by
  fun_induction lowerBound below first len <;> omega

/-- `ZipfGenerator`: there is an item, and the distribution has one entry for each. -/
structure ZipfGenerator (δ : Type) where
  rng : SplitMix64
  n : UInt64
  exponent : δ
  cdf : List δ
  pos : 0 < n
  size : cdf.length = n.toNat

/-- The loop that fills the distribution: the entry of an item is the sum of the shares up to it. -/
def cumulate (share : Nat → δ) : List Nat → δ × List δ → δ × List δ
  | [], s => s
  | i :: is, (acc, cdf) => cumulate share is (acc + share i, cdf.set i (acc + share i))

theorem length_cumulate (share : Nat → δ) : ∀ (is : List Nat) (s : δ × List δ), (cumulate share is s).2.length = s.2.length
  | [], _ => rfl
  | i :: is, (acc, cdf) => by rw [cumulate, length_cumulate share is, List.length_set]

/-- The constructor of `ZipfGenerator`. -/
def ZipfGenerator.new (platform : Platform) (seed n : UInt64) (exponent : δ) : Generate (ZipfGenerator δ) :=
  if hn : n = 0 then refused "Zipf domain must contain at least one item"
  else if badExponent exponent then refused "Zipf exponent must be finite and positive"
  else if platform.maxSize 8 < n.toNat then refused "Zipf domain is too large"
  else
    let weight : Nat → δ := fun i => DoubleOps.ofUInt64 1 / DoubleOps.pow (DoubleOps.ofUInt64 (UInt64.ofNat (i + 1))) exponent
    let sum := (List.range n.toNat).foldl (fun sum i => sum + weight i) (DoubleOps.ofUInt64 0)
    let cdf := (cumulate (fun i => weight i / sum) (List.range n.toNat)
      (DoubleOps.ofUInt64 0, List.replicate n.toNat (DoubleOps.ofUInt64 0))).2
    -- the last entry is set to one, in case the rounded sum stays below it
    pure ⟨⟨seed⟩, n, exponent, cdf.set (n.toNat - 1) (DoubleOps.ofUInt64 1), UInt64.pos_iff_ne_zero.2 hn,
      by rw [List.length_set, length_cumulate, List.length_replicate]⟩

theorem ZipfGenerator.ends_new (platform : Platform) (seed n : UInt64) (exponent : δ) :
    (ZipfGenerator.new platform seed n exponent).Ends (·.n = n) := by
  unfold ZipfGenerator.new
  split
  · exact Guarded.ends_throw _
  refine .ite (fun _ => Guarded.ends_throw _) fun _ => .ite (fun _ => Guarded.ends_throw _) fun _ => ?_
  exact Guarded.ends_pure rfl

/-- The item that `next` chooses for a point of the unit interval. -/
def ZipfGenerator.select (z : ZipfGenerator δ) (u : δ) : UInt64 :=
  let it := lowerBound (fun i => z.cdf[i]?.any (DoubleOps.lt · u)) 0 z.cdf.length
  if it = z.cdf.length then z.n - 1 else UInt64.ofNat it

/-- The point of the unit interval for a word: its upper bits, divided by two to the power 53. -/
def unitPoint (word : UInt64) : δ := DoubleOps.ofUInt64 (word >>> 11) / DoubleOps.ofUInt64 9007199254740992

/-- `ZipfGenerator::next`. -/
def ZipfGenerator.next (z : ZipfGenerator δ) : UInt64 × ZipfGenerator δ :=
  (z.select (unitPoint z.rng.next.1), { z with rng := z.rng.next.2 })

theorem ZipfGenerator.select_lt (z : ZipfGenerator δ) (u : δ) : z.select u < z.n := by
  have hpos := UInt64.lt_iff_toNat_lt.1 z.pos
  have hle := lowerBound_le (fun i => z.cdf[i]?.any (DoubleOps.lt · u)) 0 z.cdf.length
  have hn := z.n.toNat_lt
  unfold ZipfGenerator.select
  dsimp only
  rw [Nat.zero_add, z.size] at hle
  rw [z.size, UInt64.lt_iff_toNat_lt]
  split
  · have hone : (1 : UInt64) ≤ z.n := UInt64.le_iff_toNat_le.2 hpos
    rw [UInt64.toNat_sub_of_le _ _ hone]
    exact Nat.sub_lt hpos Nat.one_pos
  · rename_i hne
    rw [UInt64.toNat_ofNat_of_lt' (hle.trans_lt hn)]
    exact lt_of_le_of_ne hle hne

theorem ZipfGenerator.n_next : ∀ z : ZipfGenerator δ, z.next.2.n = z.n
  | ⟨_, _, _, _, _, _⟩ => rfl

/-- The choice is an item, whatever the distribution holds. -/
theorem ZipfGenerator.next_lt (z : ZipfGenerator δ) : z.next.1 < z.n := z.select_lt _

/-! ## Page traces -/

/-- `TracePattern`; the code of another value of the enumeration's type is kept. -/
inductive TracePattern where
  | sequential | randomUniform | skewed | moe
  | other (code : Int)
  deriving DecidableEq, Repr

/-- `TraceAccess`. -/
structure TraceAccess where
  pageId : UInt64 := 0
  write : Bool := false
  nextUseDistance : UInt64 := 0
  deriving DecidableEq, Repr

namespace TraceGenerator

variable (pageCount : UInt64)

/-- One access in eight is a write. -/
def writes (word : UInt64) : Bool := word &&& 7 == 0

/-- The body of the loop for `Sequential`. -/
def sequential : UInt64 × SplitMix64 → Generate (TraceAccess × UInt64 × SplitMix64)
  | (pos, rng) => do
    let up ← checkedAdd pos 1
    let next ← checkedMod up pageCount
    pure ({ pageId := pos, write := writes rng.next.1 }, next, rng.next.2)

/-- The body of the loop for `RandomUniform`. -/
def randomUniform (rng : SplitMix64) : Generate (TraceAccess × SplitMix64) := do
  let pageId ← checkedMod rng.next.1 pageCount
  let rng := rng.next.2
  pure ({ pageId := pageId, write := writes rng.next.1 }, rng.next.2)

/-- The body of the loop for `Skewed`. -/
def skewed : ZipfGenerator δ × SplitMix64 → Generate (TraceAccess × ZipfGenerator δ × SplitMix64)
  | (zipf, rng) => pure ({ pageId := zipf.next.1, write := writes rng.next.1 }, zipf.next.2, rng.next.2)

/-- An access of the `MoE` pattern to a hot page. -/
def hotAccess (hotCount : UInt64) (zipf : ZipfGenerator δ) (rng : SplitMix64) :
    Generate (TraceAccess × ZipfGenerator δ × SplitMix64) := do
  let pageId ← checkedMod zipf.next.1 hotCount
  pure ({ pageId := pageId }, zipf.next.2, rng)

/-- An access of the `MoE` pattern to one of the other pages. -/
def coldAccess (hotCount : UInt64) (zipf : ZipfGenerator δ) (rng : SplitMix64) :
    Generate (TraceAccess × ZipfGenerator δ × SplitMix64) := do
  let cold ← checkedSub pageCount hotCount
  let offset ← checkedMod rng.next.1 cold
  let pageId ← checkedAdd hotCount offset
  pure ({ pageId := pageId }, zipf, rng.next.2)

/-- The body of the loop for `MoE`. Nothing is drawn to choose between the two when every page is hot. -/
def moe (hotCount : UInt64) : ZipfGenerator δ × SplitMix64 → Generate (TraceAccess × ZipfGenerator δ × SplitMix64)
  | (zipf, rng) =>
    if pageCount = hotCount then hotAccess hotCount zipf rng
    else if rng.next.1 &&& 1 ≠ 0 then hotAccess hotCount zipf rng.next.2
    else coldAccess pageCount hotCount zipf rng.next.2

/-- The accesses of a trace, by its pattern. -/
def accesses (platform : Platform) (seed pageCount opCount : UInt64) (skewExponent : δ) (rng : SplitMix64) :
    TracePattern → Generate (List TraceAccess)
  | .sequential => do
    let pos ← checkedMod rng.next.1 pageCount
    let trace ← Guarded.repeatDraw (sequential pageCount) opCount.toNat (pos, rng.next.2)
    pure trace.1
  | .randomUniform => do
    let trace ← Guarded.repeatDraw (randomUniform pageCount) opCount.toNat rng
    pure trace.1
  | .skewed => do
    let zipf ← ZipfGenerator.new platform (seed ^^^ 0xA5A5A5A5) pageCount skewExponent
    let trace ← Guarded.repeatDraw skewed opCount.toNat (zipf, rng)
    pure trace.1
  | .moe => do
    -- the first pages are the hot ones
    let hotCount := max 1 (pageCount / 8)
    let zipf ← ZipfGenerator.new platform (seed ^^^ 0x5A5A5A5A) hotCount skewExponent
    let trace ← Guarded.repeatDraw (moe pageCount hotCount) opCount.toNat (zipf, rng)
    pure trace.1
  | .other _ => refused "unknown trace pattern"

/-- `TraceGenerator::generate`, with the accesses it leaves. -/
def generate (platform : Platform) (seed pageCount opCount : UInt64) (pattern : TracePattern) (skewExponent : δ) :
    Generate (List TraceAccess) := do
  refuseIf (pageCount = 0) "trace page count must be positive"
  refuseIf (platform.maxSize 24 < opCount.toNat) "trace operation count is too large"
  accesses platform seed pageCount opCount skewExponent ⟨seed⟩ pattern

variable {pageCount} {hotCount : UInt64}

theorem ends_sequential : ∀ s : UInt64 × SplitMix64, s.1 < pageCount →
    (sequential pageCount s).Ends fun r => r.1.pageId < pageCount ∧ r.2.1 < pageCount
  | (pos, rng), hs => by
    have hpos : 0 < pageCount := UInt64.lt_of_le_of_lt UInt64.zero_le hs
    have hlt : pos.toNat + (1 : UInt64).toNat < 2 ^ 64 := by
      have hone : (1 : UInt64).toNat = 1 := rfl
      have : pos.toNat < pageCount.toNat := UInt64.lt_iff_toNat_lt.1 hs
      have := pageCount.toNat_lt
      omega
    unfold sequential
    refine (ends_checkedAdd hlt).bind fun up _ => (ends_checkedMod hpos).bind fun next hnext => ?_
    exact Guarded.ends_pure ⟨hs, hnext⟩

theorem ends_randomUniform (hpos : 0 < pageCount) (rng : SplitMix64) :
    (randomUniform pageCount rng).Ends fun r => r.1.pageId < pageCount ∧ True := by
  unfold randomUniform
  refine (ends_checkedMod hpos).bind fun page hpage => ?_
  exact Guarded.ends_pure ⟨hpage, trivial⟩

theorem ends_skewed : ∀ s : ZipfGenerator δ × SplitMix64, s.1.n = pageCount →
    (skewed s).Ends fun r => r.1.pageId < pageCount ∧ r.2.1.n = pageCount
  | (zipf, rng), hs => by
    unfold skewed
    refine Guarded.ends_pure ⟨?_, zipf.n_next.trans hs⟩
    rw [← hs]
    exact zipf.next_lt

theorem ends_hotAccess (hhot : 0 < hotCount) (hle : hotCount ≤ pageCount) {zipf : ZipfGenerator δ} (hz : zipf.n = hotCount)
    (rng : SplitMix64) : (hotAccess hotCount zipf rng).Ends fun r => r.1.pageId < pageCount ∧ r.2.1.n = hotCount := by
  unfold hotAccess
  refine (ends_checkedMod hhot).bind fun page hpage => ?_
  exact Guarded.ends_pure ⟨UInt64.lt_of_lt_of_le hpage hle, zipf.n_next.trans hz⟩

omit [DoubleOps δ] in
theorem ends_coldAccess (hlt : hotCount < pageCount) {zipf : ZipfGenerator δ} (hz : zipf.n = hotCount)
    (rng : SplitMix64) : (coldAccess pageCount hotCount zipf rng).Ends fun r => r.1.pageId < pageCount ∧ r.2.1.n = hotCount := by
  have hlt' := UInt64.lt_iff_toNat_lt.1 hlt
  have hfits := pageCount.toNat_lt
  unfold coldAccess
  refine (ends_checkedSub (UInt64.le_of_lt hlt)).bind fun cold hcold => ?_
  have hpos : 0 < cold := by
    rw [UInt64.lt_iff_toNat_lt, hcold]
    exact Nat.sub_pos_of_lt hlt'
  refine (ends_checkedMod hpos).bind fun offset hoff => ?_
  rw [UInt64.lt_iff_toNat_lt, hcold] at hoff
  -- the page is inside the working set, so the sum does not wrap around
  refine (ends_checkedAdd (by omega)).bind fun page hpage => Guarded.ends_pure ⟨?_, hz⟩
  rw [UInt64.lt_iff_toNat_lt, hpage]
  omega

theorem ends_moe (hhot : 0 < hotCount) (hle : hotCount ≤ pageCount) : ∀ s : ZipfGenerator δ × SplitMix64, s.1.n = hotCount →
    (moe pageCount hotCount s).Ends fun r => r.1.pageId < pageCount ∧ r.2.1.n = hotCount
  | (zipf, rng), hs => by
    unfold moe
    refine .ite (fun _ => ends_hotAccess hhot hle hs _) fun hne => ?_
    refine .ite (fun _ => ends_hotAccess hhot hle hs _) fun _ => ?_
    exact ends_coldAccess (UInt64.lt_of_le_of_ne hle fun h => hne h.symm) hs _

theorem hotCount_pos (pageCount : UInt64) : 0 < max 1 (pageCount / 8) := by
  show 0 < if (1 : UInt64) ≤ pageCount / 8 then pageCount / 8 else 1
  split
  · rename_i h
    exact UInt64.lt_of_lt_of_le (by decide) h
  · decide

theorem hotCount_le (hpos : 0 < pageCount) : max 1 (pageCount / 8) ≤ pageCount := by
  show (if (1 : UInt64) ≤ pageCount / 8 then pageCount / 8 else 1) ≤ pageCount
  split
  · rw [UInt64.le_iff_toNat_le, UInt64.toNat_div]
    exact Nat.div_le_self _ _
  · rw [UInt64.le_iff_toNat_le]
    exact UInt64.lt_iff_toNat_lt.1 hpos

/-- A whole trace: so many accesses, each to a page of the working set. -/
def Inside (pageCount opCount : UInt64) (trace : List TraceAccess) : Prop :=
  trace.length = opCount.toNat ∧ ∀ a ∈ trace, a.pageId < pageCount

/-- A loop whose body stays inside the working set yields such a trace. -/
theorem ends_trace {σ : Type} {I : σ → Prop} {draw : σ → Generate (TraceAccess × σ)} {s : σ} (opCount : UInt64)
    (hdraw : ∀ s, I s → (draw s).Ends fun r => r.1.pageId < pageCount ∧ I r.2) (hs : I s) :
    Guarded.Ends (do
      let trace ← Guarded.repeatDraw draw opCount.toNat s
      pure trace.1 : Generate (List TraceAccess)) (Inside pageCount opCount) :=
  (Guarded.ends_repeatDraw hdraw _ s hs).bind fun _ h => Guarded.ends_pure ⟨h.1, h.2.1⟩

theorem ends_accesses (platform : Platform) (seed opCount : UInt64) (skewExponent : δ) (rng : SplitMix64) (hpos : 0 < pageCount) :
    ∀ pattern, (accesses platform seed pageCount opCount skewExponent rng pattern).Ends (Inside pageCount opCount)
  | .sequential => (ends_checkedMod hpos).bind fun _ hlt => ends_trace opCount ends_sequential hlt
  | .randomUniform => ends_trace opCount (I := fun _ => True) (fun s _ => ends_randomUniform hpos s) trivial
  | .skewed => (ZipfGenerator.ends_new ..).bind fun _ hz => ends_trace opCount ends_skewed hz
  | .moe => (ZipfGenerator.ends_new ..).bind fun _ hz => ends_trace opCount (ends_moe (hotCount_pos pageCount) (hotCount_le hpos)) hz
  | .other _ => Guarded.ends_throw _

theorem ends_generate (platform : Platform) (seed pageCount opCount : UInt64) (pattern : TracePattern) (skewExponent : δ) :
    (generate platform seed pageCount opCount pattern skewExponent).Ends (Inside pageCount opCount) := by
  unfold generate
  refine (ends_refuseIf _ _).bind fun _ hne => (ends_refuseIf _ _).bind fun _ _ => ?_
  exact ends_accesses platform seed opCount skewExponent _ (UInt64.pos_iff_ne_zero.2 hne) pattern

end TraceGenerator

/-! ## Traces of experts -/

section Experts

variable (expertCount activePerToken hotCount pagesPerExpert tokens : UInt64)

/-- The most experts a token may have. -/
def expertsPerToken : Generate UInt64 :=
  if 0 < hotCount ∧ activePerToken < expertCount then checkedAdd activePerToken 1 else pure activePerToken

/-- The check that the size of the trace is a word. -/
def refuseTooLarge (expertsPerToken : UInt64) : Generate Unit :=
  if expertsPerToken ≠ 0 then do
    let most ← checkedDiv uint64Max expertsPerToken
    refuseIf (most < tokens) "MoE trace is too large"
    let experts ← checkedMul tokens expertsPerToken
    let most ← checkedDiv uint64Max pagesPerExpert
    refuseIf (most < experts) "MoE trace is too large"
  else pure ()

/-- The checks of `generate_moe_trace`, and what it reserves. -/
def moeReserve (platform : Platform) (zipfExponent : δ) : Generate UInt64 := do
  refuseIf (expertCount = 0) "expert count must be positive"
  refuseIf (activePerToken = 0 ∨ expertCount < activePerToken) "active experts per token must be in [1, expert count]"
  refuseIf (expertCount < hotCount) "hot expert count cannot exceed expert count"
  refuseIf (pagesPerExpert = 0) "invalid pages-per-expert geometry"
  let most ← checkedDiv uint64Max pagesPerExpert
  refuseIf (most < expertCount) "invalid pages-per-expert geometry"
  refuseIf (badExponent zipfExponent) "Zipf exponent must be finite and positive"
  let perToken ← expertsPerToken expertCount activePerToken hotCount
  refuseTooLarge pagesPerExpert tokens perToken
  let experts ← checkedMul tokens perToken
  let reserveCount ← checkedMul experts pagesPerExpert
  refuseIf (platform.maxSize 8 < reserveCount.toNat) "MoE trace is too large"
  pure reserveCount

/-- One page of an expert, in the loop over them. -/
def expertPage (e p : UInt64) : Generate (UInt64 × UInt64) := do
  let first ← checkedMul e pagesPerExpert
  let page ← checkedAdd first p
  pure (page, p + 1)

/-- The pages of the chosen experts. -/
def expertPages : List UInt64 → Generate (List UInt64)
  | [] => pure []
  | e :: es => do
    let block ← Guarded.repeatDraw (expertPage pagesPerExpert e) pagesPerExpert.toNat 0
    let rest ← expertPages es
    pure (block.1 ++ rest)

/-- The shared hot expert of every other token. -/
def addHot (t : UInt64) (chosen : List UInt64) (rng : SplitMix64) : Generate (List UInt64 × SplitMix64) :=
  if 0 < hotCount ∧ t % 2 = 0 then do
    let e ← checkedMod rng.next.1 hotCount
    pure (chosen ++ [e], rng.next.2)
  else pure (chosen, rng)

/-- Sorted, and each expert once. -/
def distinct (chosen : List UInt64) : List UInt64 := (chosen.insertionSort (· ≤ ·)).destutter (· ≠ ·)

/-- The body of the loop over the tokens. -/
def moeToken : UInt64 × ZipfGenerator δ × SplitMix64 → Generate (List UInt64 × UInt64 × ZipfGenerator δ × SplitMix64)
  | (t, zipf, rng) => do
    let drawn ← Guarded.repeatDraw (fun z : ZipfGenerator δ => pure z.next) activePerToken.toNat zipf
    let chosen ← addHot hotCount t drawn.1 rng
    let pages ← expertPages pagesPerExpert (distinct chosen.1)
    pure (pages, t + 1, drawn.2, chosen.2)

/-- `generate_moe_trace`. -/
def generateMoeTrace (platform : Platform) (seed expertCount activePerToken hotCount pagesPerExpert : UInt64) (zipfExponent : δ)
    (tokens : UInt64) : Generate (List UInt64) := do
  let _ ← moeReserve expertCount activePerToken hotCount pagesPerExpert tokens platform zipfExponent
  let zipf ← ZipfGenerator.new platform (seed ^^^ 0x3D3D3D3D) expertCount zipfExponent
  let out ← Guarded.repeatDraw (moeToken activePerToken hotCount pagesPerExpert) tokens.toNat (0, zipf, ⟨seed⟩)
  pure out.1.flatten

/-- What the checks ensure of the geometry. -/
structure Geometry : Prop where
  active_ne : activePerToken ≠ 0
  active_le : activePerToken ≤ expertCount
  hot_le : hotCount ≤ expertCount
  pages_ne : pagesPerExpert ≠ 0
  pages_lt : expertCount.toNat * pagesPerExpert.toNat < 2 ^ 64

/-- The experts of a token: those drawn, and one more when a hot one may be added to fewer than all. -/
def mostExperts : Nat := activePerToken.toNat + if 0 < hotCount ∧ activePerToken < expertCount then 1 else 0

/-- The pages of an expert, in order. -/
def block (pages e : Nat) : List Nat := (List.range pages).map (e * pages + ·)

/-- What a token adds: the whole blocks of distinct experts, in ascending order. -/
def TokenPages (part : List UInt64) : Prop :=
  ∃ experts : List Nat, experts.Pairwise (· < ·) ∧ (∀ e ∈ experts, e < expertCount.toNat) ∧ experts ≠ [] ∧
    experts.length ≤ mostExperts expertCount activePerToken hotCount ∧
    part.map UInt64.toNat = experts.flatMap (block pagesPerExpert.toNat)

end Experts

section Reserve

variable {expertCount activePerToken hotCount pagesPerExpert tokens : UInt64}

theorem ends_expertsPerToken (hne : activePerToken ≠ 0) :
    (expertsPerToken expertCount activePerToken hotCount).Ends fun e =>
      e.toNat = mostExperts expertCount activePerToken hotCount ∧ e ≠ 0 := by
  unfold expertsPerToken mostExperts
  refine .ite (fun h => ?_) fun h => ?_
  · have hone : (1 : UInt64).toNat = 1 := rfl
    have hlt := UInt64.lt_iff_toNat_lt.1 h.2
    have hfits := expertCount.toNat_lt
    refine (ends_checkedAdd (by omega)).mono fun e he => ⟨by rw [he, if_pos h, hone], ?_⟩
    rintro rfl
    rw [hone] at he
    exact Nat.succ_ne_zero _ he.symm
  · refine Guarded.ends_pure ⟨by rw [if_neg h, Nat.add_zero], hne⟩

/-- A size that is not refused is a word, and so is the number of experts. -/
theorem ends_refuseTooLarge {perToken : UInt64} (hne : perToken ≠ 0) (hpages : pagesPerExpert ≠ 0) :
    (refuseTooLarge pagesPerExpert tokens perToken).Ends fun _ =>
      tokens.toNat * perToken.toNat < 2 ^ 64 ∧ tokens.toNat * perToken.toNat * pagesPerExpert.toNat < 2 ^ 64 := by
  unfold refuseTooLarge
  rw [if_pos hne]
  refine (ends_checkedDiv hne).bind fun most hmost => (ends_refuseIf _ _).bind fun _ hle => ?_
  subst hmost
  have hexperts := mul_lt_of_le_div (UInt64.not_lt.1 hle) hne
  refine (ends_checkedMul hexperts).bind fun experts heq => (ends_checkedDiv hpages).bind fun most hmost => ?_
  subst hmost
  refine (ends_refuseIf _ _).mono fun _ hle' => ⟨hexperts, ?_⟩
  have hsize := mul_lt_of_le_div (UInt64.not_lt.1 hle') hpages
  rwa [heq] at hsize

theorem ends_moeReserve (platform : Platform) (zipfExponent : δ) :
    (moeReserve expertCount activePerToken hotCount pagesPerExpert tokens platform zipfExponent).Ends fun r =>
      Geometry expertCount activePerToken hotCount pagesPerExpert ∧
        r.toNat = tokens.toNat * mostExperts expertCount activePerToken hotCount * pagesPerExpert.toNat := by
  unfold moeReserve
  refine (ends_refuseIf _ _).bind fun _ _ => (ends_refuseIf _ _).bind fun _ hactive => ?_
  refine (ends_refuseIf _ _).bind fun _ hhot => (ends_refuseIf _ _).bind fun _ hpages => ?_
  refine (ends_checkedDiv hpages).bind fun most hmost => (ends_refuseIf _ _).bind fun _ hle => ?_
  subst hmost
  rw [not_or] at hactive
  have hgeom : Geometry expertCount activePerToken hotCount pagesPerExpert :=
    ⟨hactive.1, UInt64.not_lt.1 hactive.2, UInt64.not_lt.1 hhot, hpages, mul_lt_of_le_div (UInt64.not_lt.1 hle) hpages⟩
  refine (ends_refuseIf _ _).bind fun _ _ => (ends_expertsPerToken hgeom.active_ne).bind fun perToken hper => ?_
  refine (ends_refuseTooLarge hper.2 hpages).bind fun _ hsize => (ends_checkedMul hsize.1).bind fun experts hexperts => ?_
  rw [← hexperts] at hsize
  refine (ends_checkedMul hsize.2).bind fun reserved hreserved => (ends_refuseIf _ _).bind fun _ _ => ?_
  refine Guarded.ends_pure ⟨hgeom, ?_⟩
  rw [hreserved, hexperts, hper.1]

end Reserve

section Tokens

variable {expertCount activePerToken hotCount pagesPerExpert : UInt64}

/-! The experts of a token, sorted and each once. -/

theorem distinct_subset {chosen : List UInt64} {e : UInt64} (he : e ∈ distinct chosen) : e ∈ chosen :=
  (List.perm_insertionSort _ chosen).subset ((List.destutter_sublist _ _).subset he)

theorem length_distinct_le (chosen : List UInt64) : (distinct chosen).length ≤ chosen.length :=
  (List.destutter_sublist _ _).length_le.trans_eq (List.perm_insertionSort _ chosen).length_eq

theorem distinct_ne_nil {chosen : List UInt64} (h : chosen ≠ []) : distinct chosen ≠ [] := by
  intro hnil
  have hsort := (List.destutter_eq_nil _).1 hnil
  have hperm := List.perm_insertionSort (· ≤ ·) chosen
  rw [hsort] at hperm
  exact h hperm.nil_eq.symm

theorem pairwise_distinct (chosen : List UInt64) : (distinct chosen).Pairwise (· < ·) := by
  have hsorted := List.pairwise_insertionSort (· ≤ ·) chosen
  have hle : (distinct chosen).IsChain (· ≤ ·) := (hsorted.sublist (List.destutter_sublist _ _)).isChain
  have hne : (distinct chosen).IsChain (· ≠ ·) := List.isChain_destutter _ _
  rw [← List.isChain_iff_pairwise, List.isChain_iff_forall_rel_of_append_cons_cons]
  -- neighbours are in order and differ
  intro a b l₁ l₂ h
  exact UInt64.lt_of_le_of_ne (List.isChain_iff_forall_rel_of_append_cons_cons.1 hle h)
    (List.isChain_iff_forall_rel_of_append_cons_cons.1 hne h)

/-- Distinct numbers below a bound are at most so many. -/
theorem length_le_of_pairwise_lt {l : List Nat} {n : Nat} (hl : l.Pairwise (· < ·)) (hn : ∀ e ∈ l, e < n) : l.length ≤ n := by
  have hnodup : l.Nodup := hl.imp fun h => Nat.ne_of_lt h
  have hsub := hnodup.subperm fun e he => List.mem_range.2 (hn e he)
  simpa using hsub.length_le

theorem ends_expertPage (hg : Geometry expertCount activePerToken hotCount pagesPerExpert) {e : UInt64} (he : e < expertCount) :
    ∀ k < pagesPerExpert.toNat, ∀ p : UInt64, p.toNat = k → (expertPage pagesPerExpert e p).Ends fun r =>
      r.1.toNat = e.toNat * pagesPerExpert.toNat + k ∧ r.2.toNat = k + 1 := by
  intro k hk p hp
  have hpages := pagesPerExpert.toNat_lt
  -- the block of an expert below the count lies inside the working set
  have hblock : (e.toNat + 1) * pagesPerExpert.toNat ≤ expertCount.toNat * pagesPerExpert.toNat :=
    Nat.mul_le_mul_right _ (UInt64.lt_iff_toNat_lt.1 he)
  have hlt := hg.pages_lt
  rw [Nat.add_mul, Nat.one_mul] at hblock
  refine (ends_checkedMul (by omega)).bind fun first hfirst => ?_
  refine (ends_checkedAdd (by omega)).bind fun page hpage => Guarded.ends_pure ⟨?_, ?_⟩
  · rw [hpage, hfirst, hp]
  · have hone : (1 : UInt64).toNat = 1 := rfl
    rw [(checkedAdd_of_lt (by omega)).2, hp, hone]

theorem ends_expertPages (hg : Geometry expertCount activePerToken hotCount pagesPerExpert) :
    ∀ es : List UInt64, (∀ e ∈ es, e < expertCount) → (expertPages pagesPerExpert es).Ends fun pages =>
      pages.map UInt64.toNat = (es.map UInt64.toNat).flatMap (block pagesPerExpert.toNat)
  | [], _ => Guarded.ends_pure rfl
  | e :: es, h => by
    have hloop := Guarded.ends_repeatDraw_at (I := fun k (p : UInt64) => p.toNat = k)
      (P := fun k (page : UInt64) => page.toNat = e.toNat * pagesPerExpert.toNat + k)
      (ends_expertPage hg (h e (List.mem_cons_self ..))) pagesPerExpert.toNat 0 0 (Nat.zero_add _) rfl
    refine hloop.bind fun pages hpages => (ends_expertPages hg es fun e' he' => h e' (List.mem_cons_of_mem _ he')).bind fun rest hrest => ?_
    refine Guarded.ends_pure ?_
    rw [List.map_append, List.map_cons, List.flatMap_cons, hrest]
    congr 1
    rw [block, List.range_eq_range', ← List.forall₂_eq_eq_eq, List.forall₂_map_left_iff, List.forall₂_map_right_iff]
    exact hpages.1.flip.imp fun _ _ h => h

/-- The experts chosen for a token are experts, and with the hot one they are one more. -/
theorem ends_addHot (hhot : hotCount ≤ expertCount) (t : UInt64) {chosen : List UInt64} (hc : ∀ e ∈ chosen, e < expertCount) (rng : SplitMix64) :
    (addHot hotCount t chosen rng).Ends fun r => (∀ e ∈ r.1, e < expertCount) ∧ (chosen ≠ [] → r.1 ≠ []) ∧
      r.1.length ≤ chosen.length + if 0 < hotCount then 1 else 0 := by
  unfold addHot
  refine .ite (fun h => ?_) fun _ => Guarded.ends_pure ⟨hc, id, Nat.le_add_right _ _⟩
  refine (ends_checkedMod h.1).bind fun e he => Guarded.ends_pure ⟨?_, fun _ => by simp, ?_⟩
  · intro e' he'
    rcases List.mem_append.1 he' with hmem | hmem
    · exact hc e' hmem
    · rw [List.mem_singleton.1 hmem]
      exact UInt64.lt_of_lt_of_le he hhot
  · rw [if_pos h.1, List.length_append, List.length_singleton]

/-- A token adds whole blocks of distinct experts. -/
theorem ends_moeToken (hg : Geometry expertCount activePerToken hotCount pagesPerExpert) :
    ∀ s : UInt64 × ZipfGenerator δ × SplitMix64, s.2.1.n = expertCount →
      (moeToken activePerToken hotCount pagesPerExpert s).Ends fun r =>
        TokenPages expertCount activePerToken hotCount pagesPerExpert r.1 ∧ r.2.2.1.n = expertCount
  | (t, zipf, rng), hz => by
    have hdraw : ∀ z : ZipfGenerator δ, z.n = expertCount →
        Guarded.Ends (pure z.next : Generate (UInt64 × ZipfGenerator δ)) fun r => r.1 < expertCount ∧ r.2.n = expertCount := by
      intro z hn
      refine Guarded.ends_pure ⟨?_, z.n_next.trans hn⟩
      rw [← hn]
      exact z.next_lt
    unfold moeToken
    refine (Guarded.ends_repeatDraw (Q := (· < expertCount)) (I := fun z => z.n = expertCount) hdraw _ zipf hz).bind fun drawn hd => ?_
    refine (ends_addHot hg.hot_le t hd.2.1 rng).bind fun chosen hc => ?_
    have hmem : ∀ e ∈ distinct chosen.1, e < expertCount := fun e he => hc.1 e (distinct_subset he)
    refine (ends_expertPages hg _ hmem).bind fun pages hpages => Guarded.ends_pure ⟨?_, hd.2.2⟩
    have hactive : 0 < activePerToken.toNat := UInt64.lt_iff_toNat_lt.1 (UInt64.pos_iff_ne_zero.2 hg.active_ne)
    have hsorted : ((distinct chosen.1).map UInt64.toNat).Pairwise (· < ·) :=
      List.pairwise_map.2 ((pairwise_distinct chosen.1).imp fun h => UInt64.lt_iff_toNat_lt.1 h)
    have hbelow : ∀ e ∈ (distinct chosen.1).map UInt64.toNat, e < expertCount.toNat := by
      intro e he
      obtain ⟨w, hw, rfl⟩ := List.mem_map.1 he
      exact UInt64.lt_iff_toNat_lt.1 (hmem w hw)
    refine ⟨(distinct chosen.1).map UInt64.toNat, hsorted, hbelow, ?_, ?_, hpages⟩
    · rw [Ne, List.map_eq_nil_iff]
      refine distinct_ne_nil (hc.2.1 fun hnil => ?_)
      rw [hnil, List.length_nil] at hd
      omega
    · -- the experts drawn and the hot one, or at most all experts
      have hall := length_le_of_pairwise_lt hsorted hbelow
      have hsome := (length_distinct_le chosen.1).trans hc.2.2
      rw [hd.1] at hsome
      rw [List.length_map] at hall ⊢
      unfold mostExperts
      by_cases hlt : activePerToken < expertCount
      · simpa only [hlt, and_true] using hsome
      · have := UInt64.le_iff_toNat_le.1 (UInt64.not_lt.1 hlt)
        omega

theorem mem_block {pages e x : Nat} (hx : x ∈ block pages e) : x < (e + 1) * pages := by
  obtain ⟨k, hk, rfl⟩ := List.mem_map.1 hx
  have := List.mem_range.1 hk
  rw [Nat.add_mul, Nat.one_mul]
  omega

theorem length_flatMap_block (pages : Nat) (experts : List Nat) : (experts.flatMap (block pages)).length = experts.length * pages := by
  rw [List.length_flatMap, List.map_congr_left (g := fun _ => pages) fun e _ => by rw [block, List.length_map, List.length_range],
    List.map_const', List.sum_replicate, smul_eq_mul]

theorem TokenPages.below {part : List UInt64} (h : TokenPages expertCount activePerToken hotCount pagesPerExpert part) :
    ∀ page ∈ part, page.toNat < expertCount.toNat * pagesPerExpert.toNat := by
  obtain ⟨experts, -, hbelow, -, -, hpart⟩ := h
  intro page hpage
  have hmem : page.toNat ∈ experts.flatMap (block pagesPerExpert.toNat) := hpart ▸ List.mem_map_of_mem hpage
  obtain ⟨e, he, hx⟩ := List.mem_flatMap.1 hmem
  exact (mem_block hx).trans_le (Nat.mul_le_mul_right _ (hbelow e he))

theorem TokenPages.length_le {part : List UInt64} (h : TokenPages expertCount activePerToken hotCount pagesPerExpert part) :
    part.length ≤ mostExperts expertCount activePerToken hotCount * pagesPerExpert.toNat := by
  obtain ⟨experts, -, -, -, hlen, hpart⟩ := h
  have := congrArg List.length hpart
  rw [List.length_map, length_flatMap_block] at this
  rw [this]
  exact Nat.mul_le_mul_right _ hlen

/-- A trace of experts: the pages of its tokens one after the other, inside the working set and what was reserved. -/
structure MoeTrace (expertCount activePerToken hotCount pagesPerExpert tokens : UInt64) (out : List UInt64) : Prop where
  parts : ∃ parts : List (List UInt64), parts.length = tokens.toNat ∧ out = parts.flatten ∧
    ∀ part ∈ parts, TokenPages expertCount activePerToken hotCount pagesPerExpert part
  below : ∀ page ∈ out, page.toNat < expertCount.toNat * pagesPerExpert.toNat
  length_le : out.length ≤ tokens.toNat * mostExperts expertCount activePerToken hotCount * pagesPerExpert.toNat

theorem moeTrace_flatten {tokens : UInt64} {parts : List (List UInt64)} (hlen : parts.length = tokens.toNat)
    (h : ∀ part ∈ parts, TokenPages expertCount activePerToken hotCount pagesPerExpert part) :
    MoeTrace expertCount activePerToken hotCount pagesPerExpert tokens parts.flatten := by
  refine ⟨⟨parts, hlen, rfl, h⟩, ?_, ?_⟩
  · intro page hpage
    obtain ⟨part, hpart, hmem⟩ := List.mem_flatten.1 hpage
    exact (h part hpart).below page hmem
  · rw [List.length_flatten, Nat.mul_assoc, ← hlen, ← List.length_map (f := List.length), ← smul_eq_mul]
    refine List.sum_le_card_nsmul _ _ fun n hn => ?_
    obtain ⟨part, hpart, rfl⟩ := List.mem_map.1 hn
    exact (h part hpart).length_le

theorem ends_generateMoeTrace (platform : Platform) (seed expertCount activePerToken hotCount pagesPerExpert : UInt64) (zipfExponent : δ)
    (tokens : UInt64) : (generateMoeTrace platform seed expertCount activePerToken hotCount pagesPerExpert zipfExponent tokens).Ends
      (MoeTrace expertCount activePerToken hotCount pagesPerExpert tokens) := by
  unfold generateMoeTrace
  refine (ends_moeReserve platform zipfExponent).bind fun _ hreserve => (ZipfGenerator.ends_new ..).bind fun zipf hz => ?_
  refine (Guarded.ends_repeatDraw (Q := TokenPages expertCount activePerToken hotCount pagesPerExpert)
    (I := fun s => s.2.1.n = expertCount) (ends_moeToken hreserve.1) _ _ hz).bind fun out hout => ?_
  exact Guarded.ends_pure (moeTrace_flatten hout.1 hout.2.1)

end Tokens

/-- Whatever doubles the distribution holds and whatever the seed, a generator that does not refuse its
arguments runs without dividing by zero or wrapping around, and stays inside its working set; what is
reserved for a trace of experts is the product of its sizes, and the trace fits in it. -/
theorem traces_inside (δ : Type) [DoubleOps δ] (platform : Platform) :
    (∀ z : ZipfGenerator δ, z.next.1 < z.n) ∧
    (∀ (seed pageCount opCount : UInt64) (pattern : TracePattern) (skewExponent : δ),
      (TraceGenerator.generate platform seed pageCount opCount pattern skewExponent).Ends fun accesses =>
        accesses.length = opCount.toNat ∧ ∀ a ∈ accesses, a.pageId < pageCount) ∧
    ∀ (seed expertCount activePerToken hotCount pagesPerExpert : UInt64) (zipfExponent : δ) (tokens : UInt64),
      (moeReserve expertCount activePerToken hotCount pagesPerExpert tokens platform zipfExponent).Ends (fun reserved =>
        reserved.toNat = tokens.toNat * mostExperts expertCount activePerToken hotCount * pagesPerExpert.toNat) ∧
      (generateMoeTrace platform seed expertCount activePerToken hotCount pagesPerExpert zipfExponent tokens).Ends
        (MoeTrace expertCount activePerToken hotCount pagesPerExpert tokens) := by
  refine ⟨ZipfGenerator.next_lt, TraceGenerator.ends_generate platform, fun seed experts active hot pages exponent tokens => ⟨?_, ?_⟩⟩
  · exact (ends_moeReserve platform exponent).mono fun _ h => h.2
  · exact ends_generateMoeTrace platform seed experts active hot pages exponent tokens

/-- Whole numbers in place of doubles, to run a generator. -/
@[reducible] def wholeNumbers : DoubleOps Nat where
  ofUInt64 := UInt64.toNat
  pow := Nat.pow
  lt a b := decide (a < b)
  le a b := decide (a ≤ b)
  isFinite _ := true

/-- Vectors of at most half the address space. -/
def halfSpace : Platform where
  maxSize bytes := (2 ^ 63 - 1) / bytes

example : (@generateMoeTrace Nat wholeNumbers halfSpace 5 8 1 4 2 1 3).run.toOption.bind Except.toOption = some [0, 1, 4, 5, 0, 1, 0, 1] := by
  decide +kernel

end FlashTier
