/-
Reading, writing and pinning. A read takes the bytes of a page at rest; a write commits new bytes and
invalidates the copy in the store, and one whose device copy throws records what it left of the page;
a pin may also change the flag of a page in flight.
-/
import FlashTier.Invariant.Release

namespace FlashTier

open Conc

variable {env : Nat → Env → Shared → Prop} {cfg : RuntimeConfig} {σ σ' : Shared} {w : Res} {T : Multiset (Nat × Hold)} {t : Nat} {ω : Env}
  {id : PageId} {p q m : PageMetadata} {ids : Multiset PageId} {bytes : Nat} {d : List UInt8} {α : Type}

/-! ## Pages in memory -/

/-- The page is in host or device memory. -/
def PageMetadata.InMemory (p : PageMetadata) : Prop := p.state = .residentHost ∨ p.state = .residentVram

theorem PageMetadata.InMemory.settled (h : p.InMemory) : p.state.transfer = false ∧ p.state ≠ .released := by
  rcases h with h | h <;> rw [h] <;> decide

/-- An access number and count leave the page's record right. -/
theorem RecordOk.touch (hr : RecordOk cfg σ p) (σ₁ : Shared) (hd : SameData σ.history σ₁.history p.id)
    (hc : σ₁.content p = σ.content p) (hs : σ₁.stored p = σ.stored p) (n k : Nat) :
    RecordOk cfg σ₁ { p with lastAccessSequence := n, accessCount := k } := by
  refine hr.edit hd rfl rfl rfl rfl hr.form.offset hr.form.shape hr.form.dirty hr.form.copy fun hcl c hcc => ?_
  have hcc : σ.content p = some c := hc.symm.trans hcc
  exact ⟨hcc, fun hcp => hs.trans ((hr.content (hcl.of_suffix hd.suffix) c hcc).2 hcp)⟩

theorem touch_run {f : PageMetadata → PageMetadata} (hl : σ.table.lookup id = some p) : touch id f t ω σ = (.ok (),
    { σ.setPage { f p with lastAccessSequence := u64 (σ.accessSeq + 1), accessCount := u64 (p.accessCount + 1) } with
      accessSeq := u64 (σ.accessSeq + 1) }) := by
  unfold touch
  rw [Act.bind_ok (Act.get_apply t ω σ), Act.bind_ok (withPage_some hl _)]
  rfl

/-! ## Reading -/

/-- How the copy of a page's bytes ends. -/
theorem tryCopyOut_run (t : Nat) (ω : Env) (ho : Open cfg σ none w T) (hs : sizeIn σ.history id = some bytes) :
    (∃ e, tryCopyOut cfg id bytes t ω σ = (.error e, σ)) ∨
    (∃ e, tryCopyOut cfg id bytes t ω σ = (.error e, σ.log (.failed t .deviceCopy))) ∨
    tryCopyOut cfg id bytes t ω σ = (.ok none, σ) ∨
    ∃ p out, σ.table.lookup id = some p ∧ p.InMemory ∧ σ.content p = some out ∧
      tryCopyOut cfg id bytes t ω σ = (.ok (some (out, p)), σ) := by
  unfold tryCopyOut
  rcases hl : σ.table.lookup id with _ | p
  · rw [Act.bind_error (copyOf_none hl)]
    exact .inl ⟨_, rfl⟩
  rw [Act.bind_ok (copyOf_some hl)]
  have hsize : p.allocationSize = bytes := Option.some.inj ((ho.size hl).symm.trans hs)
  have hshape := (ho.record hl).form.shape
  cases hst : p.state with
  | residentHost =>
    simp only [PageMetadata.Shape, hst] at hshape
    obtain ⟨a, ha⟩ := Option.isSome_iff_exists.1 hshape.1
    refine .inr (.inr (.inr ⟨p, _, rfl, .inl hst, ?_, Act.bind_ok (Act.get_apply t ω σ)⟩))
    simp [Shared.content, hst, ha, hsize, deref]
  | residentVram =>
    simp only [PageMetadata.Shape, hst] at hshape
    obtain ⟨v, hv⟩ := Option.isSome_iff_exists.1 hshape.1
    simp only [Act.bind_apply, deviceStage]
    split_ifs
    · exact .inl ⟨_, rfl⟩
    · exact .inl ⟨_, rfl⟩
    · rcases ω.copy with _ | ⟨e, left⟩
      · refine .inr (.inr (.inr ⟨p, _, rfl, .inr hst, ?_, rfl⟩))
        simp [Shared.content, hst, hv, hsize, deref]
      · exact .inr (.inl ⟨_, rfl⟩)
  | _ => exact .inr (.inr (.inl rfl))

/-- A read of a page in memory. -/
theorem Open.readPage (ho : Open cfg σ none (Res.idsOf ids) T) (hl : σ.table.lookup p.id = some p) (hm : p.InMemory)
    (hc : σ.content p = some d) (n k a : Nat) :
    Inv cfg (({ σ.setPage { p with lastAccessSequence := n, accessCount := k } with accessSeq := a } : Shared).log (.read t p.id d))
      ((t, ⟨.idle, ids⟩) ::ₘ T) := by
  have hf : p.inFlight = false := ho.resting hl hm.settled.1 hm.settled.2
  obtain ⟨ho', hok, hpin⟩ := ho.openPage hl hf
  have hread : EventOk (.read t p.id d) σ.history := 
    ⟨mem_allocIds_of_sizeIn hok.record.size, fun hcl => (hok.record.content hcl d hc).1⟩
  have ho₁ : Open cfg ({ σ.setPage { p with lastAccessSequence := n, accessCount := k } with accessSeq := a } : Shared) (some p.id)
      (Res.idsOf ids + ({ p with lastAccessSequence := n, accessCount := k } : PageMetadata).parts cfg) T :=
    (ho'.setPage (p := { p with lastAccessSequence := n, accessCount := k }) rfl).same
      ⟨rfl, rfl, rfl, rfl, rfl, rfl, rfl, rfl, rfl, rfl, rfl⟩
  have hd : SameData σ.history (.read t p.id d :: σ.history) p.id := ⟨rfl, rfl, rfl, rfl, ⟨[.read t p.id d], rfl⟩⟩
  have hrec : RecordOk cfg (({ σ.setPage { p with lastAccessSequence := n, accessCount := k } with accessSeq := a } : Shared).log
      (.read t p.id d)) { p with lastAccessSequence := n, accessCount := k } := by
    apply hok.record.touch _ hd <;> rfl
  exact ((ho₁.logNone (e := .read t p.id d) rfl hread).closePage
    (lookup_setPage σ { p with lastAccessSequence := n, accessCount := k }) hf
    ⟨hrec, hok.rest, hok.owners, hok.tier, fun h => absurd h hm.settled.2⟩ hpin).leave (own_idle ids).symm rfl trivial

/-- The section of `read_page`. -/
theorem tryRead_plain (hs : sizeIn σ.history id = some bytes) : Plain env cfg t ids (.atomic (tryRead cfg id bytes)) σ
    fun σ' x => ∀ out, x = some out → .read t id out ∈ σ'.history := by
  refine Plain.atomic fun ω σ₁ T hr hi => ?_
  obtain ⟨ho, -⟩ := hi.enter rfl
  rw [own_idle] at ho
  have hs₁ := sizeIn_suffix hs ((logic env cfg).rely_le hr)
  unfold tryRead
  rcases tryCopyOut_run t ω ho hs₁ with ⟨e, hrun⟩ | ⟨e, hrun⟩ | hrun | ⟨p, out, hl, hm, hc, hrun⟩
  · rw [Act.bind_error hrun]
    exact ⟨[], _, ⟨rfl, by simp⟩, hi, rfl, fun x hx => by cases hx⟩
  · rw [Act.bind_error hrun]
    exact ⟨[.failed t .deviceCopy], _, ⟨rfl, by simp [Event.thread]⟩, Open.logNone hi rfl rfl, rfl, fun x hx => by cases hx⟩
  · rw [Act.bind_ok hrun]
    exact ⟨[], _, ⟨rfl, by simp⟩, hi, rfl, fun x hx out ho => by cases hx; cases ho⟩
  · rw [Act.bind_ok hrun]
    have hid := id_of_lookup hl
    subst hid
    dsimp only
    rw [Act.bind_ok (touch_run hl)]
    refine ⟨[.read t p.id out], _, ⟨rfl, by simp [Event.thread]⟩, ho.readPage hl hm hc _ _ _, rfl, fun x hx out' ho' => ?_⟩
    cases hx
    cases ho'
    exact List.mem_cons_self ..

/-- The section of `verify_page`. -/
theorem tryCopyOut_plain (hs : sizeIn σ.history id = some bytes) :
    Plain env cfg t ids (.atomic (tryCopyOut cfg id bytes)) σ fun _ _ => True := by
  refine Plain.atomic fun ω σ₁ T hr hi => ?_
  obtain ⟨ho, -⟩ := hi.enter rfl
  have hs₁ := sizeIn_suffix hs ((logic env cfg).rely_le hr)
  rcases tryCopyOut_run t ω ho hs₁ with ⟨e, hrun⟩ | ⟨e, hrun⟩ | hrun | ⟨p, out, -, -, -, hrun⟩
  · rw [hrun]
    exact ⟨[], _, ⟨rfl, by simp⟩, hi, rfl, fun _ _ => trivial⟩
  · rw [hrun]
    exact ⟨[.failed t .deviceCopy], _, ⟨rfl, by simp [Event.thread]⟩, Open.logNone hi rfl rfl, rfl, fun _ _ => trivial⟩
  · rw [hrun]
    exact ⟨[], _, ⟨rfl, by simp⟩, hi, rfl, fun _ _ => trivial⟩
  · rw [hrun]
    exact ⟨[], _, ⟨rfl, by simp⟩, hi, rfl, fun _ _ => trivial⟩

/-! ## Writing -/

/-- The record of a page after a write. -/
def PageMetadata.written (p : PageMetadata) (d : List UInt8) (n : Nat) : PageMetadata :=
  { p with dirty := true, hasNvmeCopy := false, checksum := fnv1a64 d, lastAccessSequence := n, accessCount := u64 (p.accessCount + 1) }

/-- The end of a write: the page's bytes are the data. -/
theorem Open.wrote (ho : Open cfg σ' (some p.id) (Res.idsOf ids + p.parts cfg) T) (hok : PageOk cfg σ p)
    (hpin : p.pinned = pinnedIn σ.history p.id) (hf : p.inFlight = false) (hm : p.InMemory) (hh : σ'.history = σ.history)
    (hhost : σ'.host = σ.host) (hc : σ'.content p = some d) (n a : Nat) :
    Inv cfg (({ σ'.setPage (p.written d n) with accessSeq := a } : Shared).log (.wrote t p.id d)) ((t, ⟨.idle, ids⟩) ::ₘ T) := by
  have hform := hok.record.form
  have ho₂ : Open cfg ({ σ'.setPage (p.written d n) with accessSeq := a } : Shared) (some p.id)
      (Res.idsOf ids + (p.written d n).parts cfg) T :=
    (ho.setPage (p := p.written d n) rfl).same ⟨rfl, rfl, rfl, rfl, rfl, rfl, rfl, rfl, rfl, rfl, rfl⟩
  have ho₃ := ho₂.logPage (e := .wrote t p.id d) rfl rfl (by simp)
  refine (ho₃.closePage (lookup_setPage σ' (p.written d n)) hf ⟨⟨⟨hform.size, hform.offset, hform.shape, fun _ => rfl, nofun⟩,
    ?_, ?_, ?_, fun _ c hcc => ⟨?_, nofun⟩⟩, hok.rest, ?_, ?_, fun h => absurd h hm.settled.2⟩ ?_).leave (own_idle ids).symm rfl trivial
  · show phaseIn σ'.history p.id = _
    rw [hh]; exact hok.record.phase
  · show sizeIn σ'.history p.id = _
    rw [hh]; exact hok.record.size
  · intro d' hd'
    have hd' : (if p.id = p.id then some d else lastWrite σ'.history p.id) = some d' := hd'
    rw [if_pos rfl] at hd'
    cases hd'
    rfl
  · have hcc : σ'.content p = some c := hcc
    rw [hc] at hcc
    cases hcc
    exact if_pos rfl
  · show ownersIn σ'.history p.id = []
    rw [hh]; exact hok.owners
  · show p.state = .residentHost → ∀ ptr, p.hostPtr = some ptr → σ'.host.allocationTier ptr = some p.currentTier
    rw [hhost]
    exact hok.tier
  · show p.pinned = pinnedIn σ'.history p.id
    rw [hh]; exact hpin

/-- The end of a write whose device copy threw: the page's bytes are what it left. -/
theorem Open.torn {before left : List UInt8} (evs : List Event) (ho : Open cfg σ' (some p.id) (Res.idsOf ids + p.parts cfg) T)
    (hok : PageOk cfg σ p) (hpin : p.pinned = pinnedIn σ.history p.id) (hf : p.inFlight = false) (hm : p.InMemory)
    (hl : σ'.table.lookup p.id = some p) (hh : σ'.history = evs ++ σ.history) (he : ∀ e ∈ evs, e = .failed t .deviceCopy)
    (hhost : σ'.host = σ.host) (hdisk : σ'.stored p = σ.stored p) (hb : σ.content p = some before)
    (hc : σ'.content p = some left) (hfail : before ≠ left → evs ≠ []) :
    Inv cfg (σ'.log (.torn t p.id p.hasNvmeCopy before left)) ((t, ⟨.idle, ids⟩) ::ₘ T) := by
  have hform := hok.record.form
  have hsame : SameReplay σ.history σ'.history p.id := by
    rw [hh]
    exact sameReplay_of_page (fun e hmem => by rw [he e hmem]; rfl) _ _
  have hsuf : σ.history <:+ σ'.history := ⟨evs, hh.symm⟩
  have hev : EventOk (.torn t p.id p.hasNvmeCopy before left) σ'.history := by
    refine ⟨fun hcl => ?_, fun hne => ?_⟩
    · rw [hsame.content]
      exact (hok.record.content (hcl.of_suffix hsuf) before hb).1
    · obtain ⟨e, hmem⟩ := List.exists_mem_of_ne_nil _ (hfail hne)
      rw [hh, ← he e hmem]
      exact List.mem_append_left _ hmem
  refine ((ho.logPage (e := .torn t p.id p.hasNvmeCopy before left) rfl hev (by simp)).closePage hl hf ⟨⟨hform, ?_, ?_, ?_,
    fun hcl c hcc => ?_⟩, hok.rest, ?_, ?_, fun h => absurd h hm.settled.2⟩ ?_).leave (own_idle ids).symm rfl trivial
  · exact hsame.phase.trans hok.record.phase
  · exact hsame.size.trans hok.record.size
  · intro d' hd'
    exact hok.record.checksum d' (hsame.written.symm.trans hd')
  · have hcc : σ'.content p = some c := hcc
    rw [hc] at hcc
    cases hcc
    refine ⟨if_pos rfl, fun hcp => ?_⟩
    -- a copy that is still marked valid was not spoiled, so the bytes are those of before
    have hspoil := hcl _ (List.mem_cons_self ..)
    rw [hcp] at hspoil
    have heq : before = left := by simpa [Event.spoils] using hspoil
    have hold := hok.record.content (hcl.of_suffix (hsuf.trans (List.suffix_cons ..))) before hb
    exact hdisk.trans ((hold.2 hcp).trans (congrArg some heq))
  · exact hsame.owners.trans hok.owners
  · show p.state = .residentHost → ∀ ptr, p.hostPtr = some ptr → σ'.host.allocationTier ptr = some p.currentTier
    rw [hhost]
    exact hok.tier
  · exact hpin.trans hsame.pinned.symm

/-- How the copy to a device-resident page ends: in full, or with the bytes it left recorded. -/
theorem writeVram_run (cfg : RuntimeConfig) (bytes : Nat) (data : Bytes) (t : Nat) (ω : Env) (σ : Shared) {v : Ptr}
    (hv : p.vramPtr = some v) :
    writeVram cfg p data bytes t ω σ = (.ok (), σ.writeDev v data bytes) ∨
    ∃ (e : Error) (σ₁ : Shared) (evs : List Event), writeVram cfg p data bytes t ω σ =
        (.error e, σ₁.log (.torn t p.id p.hasNvmeCopy (σ.vramBytes p bytes) (σ₁.vramBytes p bytes))) ∧
      (σ₁ = σ ∧ evs = [] ∨ ∃ left, σ₁ = (σ.writeDev v left bytes).log (.failed t .deviceCopy) ∧ evs = [.failed t .deviceCopy]) := by
  have hderef : deref p.vramPtr = v := by rw [hv]; rfl
  unfold writeVram
  rw [Act.bind_ok (Act.get_apply t ω σ), hderef]
  by_cases hstop : σ.stopping = true
  · refine .inr ⟨copyCancelled, σ, [], ?_, .inl ⟨rfl, rfl⟩⟩
    have hrun : deviceCopyH2D cfg v data bytes t ω σ = (.error copyCancelled, σ) := if_pos hstop
    rw [Act.tryCatch_error hrun]
    rfl
  by_cases hd : (!cfg.device) = true
  · refine .inr ⟨copyNoDevice, σ, [], ?_, .inl ⟨rfl, rfl⟩⟩
    have hrun : deviceCopyH2D cfg v data bytes t ω σ = (.error copyNoDevice, σ) := (if_neg hstop).trans (if_pos hd)
    rw [Act.tryCatch_error hrun]
    rfl
  rcases hcopy : ω.copy with _ | ⟨e, left⟩
  · left
    have hrun : deviceCopyH2D cfg v data bytes t ω σ = (.ok (), σ.writeDev v data bytes) := by
      simp only [deviceCopyH2D, if_neg hstop, if_neg hd, hcopy]
    exact Act.tryCatch_ok hrun
  · refine .inr ⟨e, (σ.writeDev v left bytes).log (.failed t .deviceCopy), [.failed t .deviceCopy], ?_, .inr ⟨left, rfl, rfl⟩⟩
    have hrun : deviceCopyH2D cfg v data bytes t ω σ = (.error e, (σ.writeDev v left bytes).log (.failed t .deviceCopy)) := by
      simp only [deviceCopyH2D, if_neg hstop, if_neg hd, hcopy]
    rw [Act.tryCatch_error hrun]
    rfl

/-- The commit of a write. -/
theorem commit_run {data : Bytes} (hl : σ.table.lookup p.id = some p) :
    (do
      touch p.id fun p => { p with dirty := true, hasNvmeCopy := false, checksum := fnv1a64 (Bytes.take data bytes) }
      record fun t => .wrote t p.id (Bytes.take data bytes)
      pure true : Sec Bool) t ω σ = (.ok true, ({ σ.setPage (p.written (Bytes.take data bytes) (u64 (σ.accessSeq + 1))) with
        accessSeq := u64 (σ.accessSeq + 1) } : Shared).log (.wrote t p.id (Bytes.take data bytes))) := by
  rw [Act.bind_ok (touch_run hl)]
  rfl

/-- What a turn of the copy loop commits: nothing but these bytes, and these when it says that they are written. -/
structure Commits (t : Nat) (id : PageId) (d : List UInt8) (evs : List Event) (r : Except Error Bool) : Prop where
  only : ∀ s i x, .wrote s i x ∈ evs → i = id ∧ x = d
  done : r = .ok true → .wrote t id d ∈ evs

/-- The section of `write_page`. -/
theorem tryWrite_ends {data : Bytes} (hi : Inv cfg σ ((t, ⟨.idle, ids⟩) ::ₘ T)) (hs : sizeIn σ.history id = some bytes) :
    Ends cfg t T σ (tryWrite cfg id data bytes t ω σ) fun evs r h' =>
      h' = ⟨.idle, ids⟩ ∧ Commits t id (Bytes.take data bytes) evs r := by
  have hnothing : ∀ {r : Except Error Bool}, r ≠ .ok true → Commits t id (Bytes.take data bytes) [] r := fun hr =>
    ⟨fun _ _ _ hm => (List.not_mem_nil hm).elim, fun h => absurd h hr⟩
  obtain ⟨ho, -⟩ := hi.enter rfl
  rw [own_idle] at ho
  unfold tryWrite
  rcases hl : σ.table.lookup id with _ | p
  · rw [Act.bind_error (copyOf_none hl)]
    exact ⟨[], _, ⟨rfl, by simp⟩, hi, rfl, hnothing (by simp)⟩
  rw [Act.bind_ok (copyOf_some hl)]
  have hid := id_of_lookup hl
  subst hid
  have hsize : p.allocationSize = bytes := Option.some.inj ((ho.size hl).symm.trans hs)
  subst hsize
  have hwritten : ∀ r, Commits t p.id (Bytes.take data p.allocationSize) [.wrote t p.id (Bytes.take data p.allocationSize)] r :=
    fun r => ⟨by simp, fun _ => List.mem_singleton.2 rfl⟩
  have hshape := (ho.record hl).form.shape
  cases hst : p.state with
  | residentHost =>
    have hm : p.InMemory := .inl hst
    have hf : p.inFlight = false := ho.resting hl hm.settled.1 hm.settled.2
    simp only [PageMetadata.Shape, hst] at hshape
    obtain ⟨a, ha⟩ := Option.isSome_iff_exists.1 hshape.1
    obtain ⟨ho', hok, hpin⟩ := ho.openPage hl hf
    have hmem : (a, p.allocationSize) ∈ (Res.idsOf ids + p.parts cfg).host := by
      rw [add_comm]
      exact mem_host_parts ha _
    have hderef : deref p.hostPtr = a := by rw [ha]; rfl
    dsimp only
    have hl' : (σ.writeHost a data p.allocationSize).table.lookup p.id = some p := hl
    rw [hderef, Act.bind_ok (Act.modify_apply t ω σ _), commit_run hl']
    refine ⟨[.wrote t p.id (Bytes.take data p.allocationSize)], _, ⟨rfl, by simp [Event.thread]⟩,
      (ho'.writeHost hmem data p.allocationSize).wrote hok hpin hf hm rfl rfl ?_ _ _, rfl, hwritten _⟩
    simp only [Shared.content, hst, ha, Option.map_some]
    rw [take_writeHost]
  | residentVram =>
    have hm : p.InMemory := .inr hst
    have hf : p.inFlight = false := ho.resting hl hm.settled.1 hm.settled.2
    simp only [PageMetadata.Shape, hst] at hshape
    obtain ⟨v, hv⟩ := Option.isSome_iff_exists.1 hshape.1
    obtain ⟨ho', hok, hpin⟩ := ho.openPage hl hf
    have hmem : (v, p.allocationSize) ∈ (Res.idsOf ids + p.parts cfg).dev := by
      rw [add_comm]
      exact mem_dev_parts hv _
    have hcont : ∀ σ : Shared, σ.content p = some (σ.vramBytes p p.allocationSize) := fun σ => by
      simp [Shared.content, Shared.vramBytes, hst, hv, deref]
    dsimp only
    rcases writeVram_run cfg p.allocationSize data t ω σ hv with
      hrun | ⟨e, σ₂, evs, hrun, hσ⟩
    · have hl' : (σ.writeDev v data p.allocationSize).table.lookup p.id = some p := hl
      rw [Act.bind_ok hrun, commit_run hl']
      refine ⟨[.wrote t p.id (Bytes.take data p.allocationSize)], _, ⟨rfl, by simp [Event.thread]⟩,
        (ho'.writeDev hmem data p.allocationSize).wrote hok hpin hf hm rfl rfl ?_ _ _, rfl, hwritten _⟩
      simp only [Shared.content, hst, hv, Option.map_some]
      rw [take_writeDev]
    · rw [Act.bind_error hrun]
      rcases hσ with ⟨rfl, rfl⟩ | ⟨left, rfl, rfl⟩
      · exact ⟨[_], _, ⟨rfl, by simp [Event.thread]⟩, ho'.torn [] hok hpin hf hm hl rfl (by simp) rfl rfl (hcont _) (hcont _)
          (by simp), rfl, by simp, fun h => by cases h⟩
      · exact ⟨[_, .failed t .deviceCopy], _, ⟨rfl, by simp [Event.thread]⟩,
          ((ho'.writeDev hmem left p.allocationSize).logNone (e := .failed t .deviceCopy) rfl rfl).torn [.failed t .deviceCopy] hok hpin hf hm hl
            rfl (by simp) rfl rfl (hcont _) (hcont _) (by simp), rfl, by simp, fun h => by cases h⟩
  | _ => exact ⟨[], _, ⟨rfl, by simp⟩, hi, rfl, hnothing fun h => by cases h⟩

/-! ## The copy loops -/

/-- Settling a page keeps its size known. -/
theorem settleInMemory_plain {target : PageMetadata → Sec Tier} (ht : ∀ m, Neutral (target m)) :
    Plain env cfg t ids (settleInMemory cfg id target) σ fun σ' m => sizeIn σ'.history id = some m.allocationSize := by
  unfold settleInMemory
  refine waitSettled_plain.bind fun σ₁ m hle hm => ?_
  by_cases hst : m.state = .residentNvme
  · rw [if_pos hst]
    refine Plain.pass (Bystander.atomic (ht m)) fun σ₂ tier _ => Plain.pass (bystander_submitDemand id tier) fun _ _ _ => ?_
    exact waitSettled_plain
  · rw [if_neg hst]
    exact Plain.ret hm

theorem copyRounds_plain {copy : Sec (Option α)} {F : Shared → α → Prop} :
    ∀ {n : Nat} {σ : Shared},
      (∀ σ', σ.history <:+ σ'.history → Plain env cfg t ids (.atomic copy) σ' fun σ'' x => ∀ a, x = some a → F σ'' a) →
      Plain env cfg t ids (copyRounds cfg id copy n) σ fun σ' x => ∀ a, x = some a → F σ' a
  | 0, σ, _ => Plain.ret nofun
  | n + 1, σ, hcopy => by
    unfold copyRounds
    refine (hcopy σ (List.suffix_refl _)).bind fun σ₁ x hle₁ hx => ?_
    cases x with
    | some a => exact Plain.ret hx
    | none =>
      refine (settleInMemory_plain fun _ _ _ σ => SameCore.refl σ).bind fun σ₂ _ hle₂ _ => ?_
      exact copyRounds_plain fun σ' hle => hcopy σ' (hle₁.trans (hle₂.trans hle))

theorem untilDeadline_plain {copy : Sec (Option α)} {F : Shared → α → Prop}
    (hcopy : ∀ σ', σ.history <:+ σ'.history → Plain env cfg t ids (.atomic copy) σ' fun σ'' x => ∀ a, x = some a → F σ'' a) :
    Plain env cfg t ids (untilDeadline cfg id copy) σ fun σ' x => ∀ a, x = some a → F σ' a :=
  Plain.pass (Bystander.atomic neutral_of_state) fun _ _ hle => copyRounds_plain fun σ' hle' => hcopy σ' (hle.trans hle')

/-- What follows a copy only emits events. -/
theorem bystander_accessed (id : PageId) : Bystander (do consumePrefetchMark id; .atomic emitEvent : Code Unit) :=
  (bystander_consumePrefetchMark id).bind fun _ => Bystander.atomic neutral_emitEvent

/-- The turn of the copy loop, as the loop takes it. -/
theorem tryWrite_copy (w : Sec Bool) (t : Nat) (ω : Env) (σ : Shared) :
    (do if ← w then pure (some ()) else pure none : Sec (Option Unit)) t ω σ =
      ((w t ω σ).1.map fun b => if b then some () else none, (w t ω σ).2) := by
  rw [Act.bind_apply]
  rcases w t ω σ with ⟨_ | _ | _, _⟩ <;> rfl

theorem tryWrite_plain {data : Bytes} (hs : sizeIn σ.history id = some bytes) :
    Plain env cfg t ids (.atomic (do if ← tryWrite cfg id data bytes then pure (some ()) else pure none)) σ fun _ _ => True := by
  refine Plain.atomic fun ω σ₁ T hr hi => ?_
  obtain ⟨evs, h', hadds, hi', hh, -⟩ := tryWrite_ends (ω := ω) hi (sizeIn_suffix hs ((logic env cfg).rely_le hr))
  rw [tryWrite_copy]
  exact ⟨evs, h', hadds, hi', hh, fun _ _ => trivial⟩

theorem finishWrite_plain {data : Bytes} {m : PageMetadata} (hm : sizeIn σ.history id = some m.allocationSize) :
    Plain env cfg t ids (finishWrite cfg id data m) σ fun _ _ => True := by
  refine (untilDeadline_plain (F := fun _ _ => True) fun σ' hle =>
    (tryWrite_plain (sizeIn_suffix hm hle)).mono fun _ _ _ _ _ _ => trivial).bind fun σ₂ x _ _ => ?_
  cases x with
  | none => exact Plain.throw
  | some _ => exact Plain.of_bystander (bystander_accessed id)

theorem writePageImpl_plain {data : Option Bytes} : Plain env cfg t ids (writePageImpl cfg id data) σ fun _ _ => True := by
  unfold writePageImpl
  refine waitSettled_plain.bind fun σ₁ m hle hm => ?_
  cases data with
  | none => exact Plain.throw
  | some data =>
    by_cases hst : m.state = .residentNvme
    · simp only [if_pos hst]
      refine Plain.pass (bystander_submitDemand id _) fun σ₂ _ _ => ?_
      exact waitSettled_plain.bind fun σ₃ m' _ hm' => finishWrite_plain hm'
    · simp only [if_neg hst]
      exact finishWrite_plain hm

theorem finishRead_plain {promoted : Bool} {m : PageMetadata} (hm : sizeIn σ.history id = some m.allocationSize) :
    Plain env cfg t ids (finishRead cfg id promoted m) σ fun σ' b => .read t id b ∈ σ'.history := by
  refine (untilDeadline_plain fun σ' hle => tryRead_plain (sizeIn_suffix hm hle)).bind fun σ₃ x _ hx => ?_
  cases x with
  | none => exact Plain.throw
  | some b =>
    refine Plain.pass (bystander_consumePrefetchMark id) fun σ₄ _ hle₄ => ?_
    refine Plain.pass (Bystander.atomic neutral_emitEvent) fun σ₅ _ hle₅ => ?_
    have hb : .read t id b ∈ σ₅.history := hle₅.subset (hle₄.subset (hx b rfl))
    cases promoted with
    | true =>
      refine Plain.pass (Bystander.atomic neutral_emitEvent) fun σ₆ _ hle₆ => ?_
      exact Plain.pass (Bystander.atomic neutral_emitEvent) fun σ₇ _ hle₇ => Plain.ret (hle₇.subset (hle₆.subset hb))
    | false => exact Plain.ret hb

/-- `read_page` returns the bytes it recorded. -/
theorem readPage_plain {out : Bool} : Plain env cfg t ids (readPage cfg id out) σ fun σ' b => .read t id b ∈ σ'.history := by
  unfold readPage
  refine Plain.pass bystander_requireRunning fun σ₁ _ _ => waitSettled_plain.bind fun σ₂ m _ hm => ?_
  by_cases hout : (!out) = true
  · rw [if_pos hout]
    exact Plain.throw
  rw [if_neg hout]
  by_cases hst : m.state = .residentNvme
  · simp only [if_pos hst]
    refine Plain.pass (Bystander.atomic neutral_of_state) fun σ₃ tier _ => Plain.pass (bystander_submitDemand id tier) fun σ₄ _ _ => ?_
    exact waitSettled_plain.bind fun σ₅ m' _ hm' => finishRead_plain hm'
  · simp only [if_neg hst]
    exact finishRead_plain hm

theorem fillPage_plain : Plain env cfg t ids (fillPage cfg id) σ fun _ _ => True :=
  Plain.pass bystander_requireRunning fun _ _ _ => Plain.pass (Bystander.atomic (neutral_copyOf id)) fun _ _ _ => writePageImpl_plain

theorem verifyPage_plain : Plain env cfg t ids (verifyPage cfg id) σ fun _ _ => True := by
  unfold verifyPage
  refine Plain.pass bystander_requireRunning fun σ₁ _ _ => ?_
  refine (settleInMemory_plain fun _ _ _ σ => SameCore.refl σ).bind fun σ₂ m _ hm => ?_
  refine (untilDeadline_plain (F := fun _ _ => True) fun σ' hle =>
    (tryCopyOut_plain (sizeIn_suffix hm hle)).mono fun _ _ _ _ _ _ => trivial).bind fun σ₃ x _ _ => ?_
  cases x with
  | none => exact Plain.throw
  | some y =>
    refine Plain.pass (Bystander.atomic neutral_emitEvent) fun σ₄ _ _ => Plain.of_bystander ?_
    exact bystander_ite (Bystander.throw _) (Bystander.pure ())

/-! ## Pinning -/

/-- The pinned flag is not part of what a thread holds. -/
theorem TokenOk.pinned {tok : Token} {u : Nat} {b : Bool} (h : TokenOk cfg σ u tok) :
    TokenOk cfg ((σ.setPage q).log (.pin t id b)) u tok := by
  have hd : ∀ i, SameData σ.history (.pin t id b :: σ.history) i := fun i => ⟨rfl, rfl, rfl, rfl, ⟨[.pin t id b], rfl⟩⟩
  have htk : ∀ {m}, Taken cfg σ u m → Taken cfg ((σ.setPage q).log (.pin t id b)) u m := fun hm =>
    ⟨hm.record.later (hd _) rfl fun _ => rfl, hm.busy, hm.core, hm.owners⟩
  cases tok with
  | idle | vramBytes | vramBuf => trivial
  | hostBuf => exact h
  | moving m tier stage => exact ⟨htk h.1, h.2.1, h.2.2.1, fun hs hc => h.2.2.2 hs (hc.of_suffix (hd m.id).suffix)⟩
  | releasing m left => exact ⟨htk h.1, h.2.1, h.2.2.1, ⟨h.2.2.2.1.vram, h.2.2.2.1.host, h.2.2.2.1.nvme⟩, h.2.2.2.2⟩

/-- The pinned flag of any page of the table is set. -/
theorem Inv.setPinned {h : Hold} (hi : Inv cfg σ ((t, h) ::ₘ T)) (hc : h.claim = 0) (hl : σ.table.lookup p.id = some p) (b : Bool) :
    Inv cfg ((σ.setPage { p with pinned := b }).log (.pin t p.id b)) ((t, h) ::ₘ T) := by
  obtain ⟨ho, htok⟩ := hi.enter hc
  rcases ho.page hl with ⟨hf, -⟩ | ⟨hf, -⟩
  · obtain ⟨ho', hok, hpin⟩ := ho.openPage hl hf
    have ho₁ : Open cfg (σ.setPage { p with pinned := b }) (some p.id) (h.own cfg + ({ p with pinned := b } : PageMetadata).parts cfg) T :=
      ho'.setPage (p := { p with pinned := b }) rfl
    have ho₂ := ho₁.logPage (e := .pin t p.id b) rfl rfl (by simp)
    have hd : SameData σ.history (.pin t p.id b :: σ.history) p.id := ⟨rfl, rfl, rfl, rfl, ⟨[.pin t p.id b], rfl⟩⟩
    have hrec : RecordOk cfg ((σ.setPage { p with pinned := b }).log (.pin t p.id b)) p.core := by
      apply (hok.record.later hd ?_ ?_).core
      · rfl
      · exact fun _ => rfl
    exact (ho₂.closePage (lookup_setPage σ { p with pinned := b }) hf ⟨RecordOk.of_core (p := { p with pinned := b }) hrec, hok.rest,
      hok.owners, hok.tier, fun h => ⟨(hok.held h).vram, (hok.held h).host, (hok.held h).nvme⟩⟩ (if_pos rfl).symm).leave rfl hc
      htok.pinned
  · -- the page is in flight: another thread accounts for it, and knows its record but for the flag
    obtain ⟨x, hx, hm⟩ : ∃ x ∈ T, p.core ∈ x.2.claim := by
      have hmem : p.core ∈ T.bind fun x => x.2.claim := by
        rw [← ho.claims]
        exact Multiset.mem_bind.2 ⟨p, (Keyed.lookup_some.1 hl).1, mem_claim.2 ⟨hf, rfl⟩⟩
      exact Multiset.mem_bind.1 hmem
    obtain ⟨u, h'⟩ := x
    have hclaim : h'.claim = {p.core} := by
      obtain ⟨tok, ids⟩ := h'
      cases tok with
      | idle | hostBuf | vramBytes | vramBuf => exact absurd hm (Multiset.notMem_zero _)
      | moving m tier stage => rw [Multiset.mem_singleton.1 hm]; rfl
      | releasing m left => rw [Multiset.mem_singleton.1 hm]; rfl
    obtain ⟨T', rfl⟩ := Multiset.exists_cons_of_mem hx
    rw [Multiset.cons_swap] at hi ⊢
    obtain ⟨p', hl', -, -, -, ho', htok'⟩ := hi.enterClaim hclaim
    cases hl.symm.trans hl'
    have ho₂ := (ho'.setPage (p := { p with pinned := b }) rfl).logPage (e := .pin t p.id b) rfl rfl (by simp)
    exact ho₂.leaveClaim (lookup_setPage σ { p with pinned := b }) hf (if_pos rfl).symm rfl hclaim htok'.pinned

theorem pin_plain {b : Bool} : Plain env cfg t ids (pin id b) σ fun _ _ => True := by
  refine Plain.pass bystander_requireRunning fun σ₁ _ _ => Plain.atomic fun ω σ₂ T hr hi => ?_
  unfold setPinned
  rcases hl : σ₂.table.lookup id with _ | p
  · have hrun : withPage id (fun p => { p with pinned := b }) t ω σ₂ = (.error (notFound id), σ₂) := by
      simp only [withPage, hl]
    rw [Act.bind_error hrun]
    exact ⟨[], _, ⟨rfl, by simp⟩, hi, rfl, fun _ _ => trivial⟩
  · have hid := id_of_lookup hl
    subst hid
    rw [Act.bind_ok (withPage_some hl _)]
    exact ⟨[.pin t p.id b], _, ⟨rfl, by simp [Event.thread]⟩, hi.setPinned rfl hl b, rfl, fun _ _ => trivial⟩

end FlashTier
