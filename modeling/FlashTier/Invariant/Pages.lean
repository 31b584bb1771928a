/-
What the invariant says of a page's record, and how an edit of the record changes what the page
accounts for.
-/
import FlashTier.Invariant.Rules

namespace FlashTier

open Conc

variable {cfg : RuntimeConfig} {σ σ' : Shared} {A : Option PageId} {w : Res} {T : Multiset (Nat × Hold)}
  {t : Nat} {ω : Env} {id : PageId} {p q : PageMetadata}

/-! ## Bytes -/

theorem take_overlay (b old : Bytes) (n : Nat) : Bytes.take (Shared.overlay b n old) n = Bytes.take b n :=
  take_congr fun _ hi => if_pos hi

theorem take_writeHost (σ : Shared) (ptr : Ptr) (b : Bytes) (n : Nat) :
    Bytes.take ((σ.writeHost ptr b n).hostMem ptr) n = Bytes.take b n := by
  show Bytes.take (if ptr = ptr then _ else _) n = _
  rw [if_pos rfl, take_overlay]

theorem take_writeDev (σ : Shared) (ptr : Ptr) (b : Bytes) (n : Nat) :
    Bytes.take ((σ.writeDev ptr b n).devMem ptr) n = Bytes.take b n := by
  show Bytes.take (if ptr = ptr then _ else _) n = _
  rw [if_pos rfl, take_overlay]

theorem take_writeDisk (σ : Shared) (offset : Nat) (b : Bytes) (n : Nat) :
    Bytes.take ((σ.writeDisk offset b n).diskAt offset) n = Bytes.take b n := by
  refine take_congr fun i hi => ?_
  show (if offset ≤ offset + i ∧ offset + i < offset + n then b (offset + i - offset) else _) = _
  rw [if_pos (by omega), Nat.add_sub_cancel_left]

/-! ## What a page accounts for -/

theorem parts_congr (hs : q.allocationSize = p.allocationSize) (hh : q.hostPtr = p.hostPtr) (hv : q.vramPtr = p.vramPtr)
    (hn : q.nvmeOffset = p.nvmeOffset) : q.parts cfg = p.parts cfg := by
  unfold PageMetadata.parts PageMetadata.extents
  rw [hs, hh, hv, hn]

theorem extents_congr (hs : q.allocationSize = p.allocationSize) (hn : q.nvmeOffset = p.nvmeOffset) :
    q.extents cfg = p.extents cfg := by
  unfold PageMetadata.extents
  rw [hs, hn]

/-- A page with a host buffer more. -/
theorem parts_host {ptr : Ptr} (hs : q.allocationSize = p.allocationSize) (hp : p.hostPtr = none)
    (hq : q.hostPtr = some ptr) (hv : q.vramPtr = p.vramPtr) (hn : q.nvmeOffset = p.nvmeOffset) :
    q.parts cfg = p.parts cfg + Res.hostBuf ptr p.allocationSize := by
  simp only [PageMetadata.parts, extents_congr hs hn, hs, hp, hq, hv, hn]
  simp [Res.ext_iff', Res.hostBuf]

/-- A page with a device buffer more. -/
theorem parts_vram {ptr : Ptr} (hs : q.allocationSize = p.allocationSize) (hh : q.hostPtr = p.hostPtr)
    (hp : p.vramPtr = none) (hq : q.vramPtr = some ptr) (hn : q.nvmeOffset = p.nvmeOffset) :
    q.parts cfg = p.parts cfg + Res.vramOf p.allocationSize + Res.devBuf ptr p.allocationSize := by
  simp only [PageMetadata.parts, extents_congr hs hn, hs, hp, hq, hh, hn]
  simp [Res.ext_iff', Res.vramOf, Res.devBuf]

/-- A page with extents more. -/
theorem parts_nvme {first n : Nat} (hs : q.allocationSize = p.allocationSize) (hh : q.hostPtr = p.hostPtr)
    (hv : q.vramPtr = p.vramPtr) (hp : p.nvmeOffset = none) (hq : q.nvmeOffset = some ((first + 1) * cfg.pageSize))
    (hsize : p.allocationSize = n * cfg.pageSize) :
    q.parts cfg = p.parts cfg + Res.nvmeOf p.allocationSize + Res.extOf (Extents.range first n) := by
  have hext : q.extents cfg = Extents.range first n := by
    simp only [PageMetadata.extents, hq]
    rw [Extents.offset_div cfg.page_pos, hs, hsize, Nat.mul_div_cancel _ cfg.page_pos]
  have hext' : p.extents cfg = 0 := by simp only [PageMetadata.extents, hp]
  simp only [PageMetadata.parts, hext, hext', hs, hp, hq, hh, hv]
  simp [Res.ext_iff', Res.nvmeOf, Res.extOf]

theorem parts_io (p : PageMetadata) : (p.parts cfg).io = 0 := rfl

theorem parts_vram_pos (hw : WellFormed cfg p) {ptr : Ptr} (hv : p.vramPtr = some ptr) : 0 < (p.parts cfg).vram := by
  obtain ⟨n, hn, hs⟩ := hw.size
  simp only [PageMetadata.parts, hv, Option.isSome_some, if_true, hs]
  exact Nat.mul_pos hn cfg.page_pos

/-- A page that points to nothing. -/
theorem parts_none (hh : p.hostPtr = none) (hv : p.vramPtr = none) (hn : p.nvmeOffset = none) : p.parts cfg = 0 := by
  simp [PageMetadata.parts, PageMetadata.extents, hh, hv, hn, Res.ext_iff']

/-! ## Records -/

/-- What is replayed of a page's data is the same, in a longer history. -/
structure SameData (h h' : List Event) (id : PageId) : Prop where
  content : contentIn h' id = contentIn h id
  written : lastWrite h' id = lastWrite h id
  size : sizeIn h' id = sizeIn h id
  phase : phaseIn h' id = phaseIn h id
  suffix : h <:+ h'

theorem SameData.refl (h : List Event) (id : PageId) : SameData h h id := ⟨rfl, rfl, rfl, rfl, List.suffix_refl h⟩

theorem RecordOk.core (h : RecordOk cfg σ p) : RecordOk cfg σ p.core :=
  ⟨⟨h.form.size, h.form.offset, h.form.shape, h.form.dirty, h.form.copy⟩, h.phase, h.size, h.checksum, h.content⟩

theorem RecordOk.of_core (h : RecordOk cfg σ p.core) : RecordOk cfg σ p :=
  ⟨⟨h.form.size, h.form.offset, h.form.shape, h.form.dirty, h.form.copy⟩, h.phase, h.size, h.checksum, h.content⟩

/-- An edit of a record that leaves the page's data. -/
theorem RecordOk.edit (hr : RecordOk cfg σ p) (hd : SameData σ.history σ'.history p.id) (hid : q.id = p.id)
    (hph : q.state.phase = p.state.phase) (hs : q.allocationSize = p.allocationSize) (hck : q.checksum = p.checksum)
    (hoff : ∀ off, q.nvmeOffset = some off → ∃ first, off = (first + 1) * cfg.pageSize) (hshape : q.Shape)
    (hdirty : q.dirty = true → q.hasNvmeCopy = false) (hcopy : q.hasNvmeCopy = true → q.nvmeOffset.isSome)
    (hc : Clean σ'.history → ∀ c, σ'.content q = some c →
      σ.content p = some c ∧ (q.hasNvmeCopy = true → σ'.stored q = some c)) : RecordOk cfg σ' q := by
  refine ⟨⟨by rw [hs]; exact hr.form.size, hoff, hshape, hdirty, hcopy⟩, ?_, ?_, ?_, fun hcl c hcc => ?_⟩
  · rw [hid, hd.phase, hph]; exact hr.phase
  · rw [hid, hd.size, hs]; exact hr.size
  · rw [hid, hd.written, hck]; exact hr.checksum
  · obtain ⟨h1, h2⟩ := hc hcl c hcc
    rw [hid, hd.content]
    exact ⟨(hr.content (hcl.of_suffix hd.suffix) c h1).1, h2⟩

/-! ## Pages of the table -/

/-! ## Extents and their bytes -/

/-- The extents of a page in the store. -/
theorem WellFormed.extents {first : Nat} (hw : WellFormed cfg p) (ho : p.nvmeOffset = some ((first + 1) * cfg.pageSize)) :
    ∃ n, 0 < n ∧ p.allocationSize = n * cfg.pageSize ∧ p.extents cfg = Extents.range first n := by
  obtain ⟨n, hn, hs⟩ := hw.size
  refine ⟨n, hn, hs, ?_⟩
  simp only [PageMetadata.extents, ho]
  rw [Extents.offset_div cfg.page_pos, hs, Nat.mul_div_cancel _ cfg.page_pos]

/-- The share holds as many bytes of the store budget as its extents have. -/
def Res.Paired (cfg : RuntimeConfig) (r : Res) : Prop := r.nvme = cfg.pageSize * r.ext.card

theorem Res.Paired.add {a b : Res} (ha : a.Paired cfg) (hb : b.Paired cfg) : (a + b).Paired cfg := by
  unfold Res.Paired at *
  rw [add_nvme, add_ext, Multiset.card_add, ha, hb, Nat.mul_add]

theorem Res.paired_zero : (0 : Res).Paired cfg := by simp [Res.Paired]

theorem Res.paired_sum {α : Type} {f : α → Res} {s : Multiset α} (h : ∀ a ∈ s, (f a).Paired cfg) : (s.map f).sum.Paired cfg := by
  refine Multiset.sum_induction _ _ (fun a b ha hb => ha.add hb) Res.paired_zero fun r hr => ?_
  obtain ⟨a, ha, rfl⟩ := Multiset.mem_map.1 hr
  exact h a ha

theorem WellFormed.paired (hw : WellFormed cfg p) : (p.parts cfg).Paired cfg := by
  unfold Res.Paired
  rcases ho : p.nvmeOffset with _ | offset
  · simp [PageMetadata.parts, PageMetadata.extents, ho]
  · obtain ⟨first, rfl⟩ := hw.offset _ ho
    obtain ⟨n, -, hsize, hext⟩ := hw.extents ho
    show (if p.nvmeOffset.isSome then p.allocationSize else 0) = cfg.pageSize * (p.extents cfg).card
    rw [ho, Option.isSome_some, if_pos rfl, hext, Extents.card_range, hsize, Nat.mul_comm]

theorem WellFormed.owes (hw : WellFormed cfg p) : Owes cfg p (p.parts cfg) := ⟨hw.paired.symm.le, fun _ => rfl⟩

/-- A page of the table is at rest or taken by a thread. -/
theorem Open.page (h : Open cfg σ none w T) (hl : σ.table.lookup id = some p) :
    (p.inFlight = false ∧ PageOk cfg σ p) ∨
    (p.inFlight = true ∧ (p.state.transfer = true ∨ p.state = .released) ∧ ∃ x ∈ T, Taken cfg σ x.1 p.core) := by
  have hmem : p ∈ others σ none := (Keyed.lookup_some.1 hl).1
  cases hf : p.inFlight with
  | false => exact .inl ⟨rfl, (h.pages p hmem).ok hf⟩
  | true =>
    refine .inr ⟨rfl, ?_⟩
    have hc : p.core ∈ T.bind fun x => x.2.claim := by
      rw [← h.claims]
      exact Multiset.mem_bind.2 ⟨p, hmem, mem_claim.2 ⟨hf, rfl⟩⟩
    obtain ⟨x, hx, hm⟩ := Multiset.mem_bind.1 hc
    have hok := h.holds x hx
    obtain ⟨u, tok, ids⟩ := x
    -- only a transfer and a release hold a page
    cases tok with
    | idle | hostBuf | vramBytes | vramBuf => exact absurd hm (Multiset.notMem_zero _)
    | moving m tier stage =>
      have hm : p.core = m := Multiset.mem_singleton.1 hm
      subst hm
      exact ⟨.inl hok.2.1, _, hx, hok.1⟩
    | releasing m left =>
      have hm : p.core = m := Multiset.mem_singleton.1 hm
      subst hm
      exact ⟨.inr hok.2.1, _, hx, hok.1⟩

theorem Open.record (h : Open cfg σ none w T) (hl : σ.table.lookup id = some p) : RecordOk cfg σ p := by
  rcases h.page hl with ⟨-, hp⟩ | ⟨-, -, x, -, hx⟩
  · exact hp.record
  · exact hx.record.of_core

theorem Open.size (h : Open cfg σ none w T) (hl : σ.table.lookup id = some p) :
    sizeIn σ.history id = some p.allocationSize := by
  rw [← id_of_lookup hl]
  exact (h.record hl).size

/-- A page in a settled state that is not being released is at rest. -/
theorem Open.resting (h : Open cfg σ none w T) (hl : σ.table.lookup id = some p) (hs : p.state.transfer = false)
    (hr : p.state ≠ .released) : p.inFlight = false := by
  rcases h.page hl with ⟨hf, -⟩ | ⟨-, hst | hst, -⟩
  · exact hf
  · rw [hs] at hst; cases hst
  · exact absurd hst hr

end FlashTier
