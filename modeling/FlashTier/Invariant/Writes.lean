/-
What a write writes. The bytes recorded as written are those of the operation the thread was started for:
the first bytes of the caller's buffer, or the pattern of the page; and a `write_page` or `fill_page` that
returned has recorded them.
-/
import FlashTier.Conc.Follow
import FlashTier.Integrity.Pattern
import FlashTier.Invariant.Authors

namespace FlashTier

open Conc

variable {cfg : RuntimeConfig} {σ σ' : Shared} {t : Nat} {id : PageId} {l : Op} {α : Type}

/-! ## The data of an operation -/

/-- The bytes an operation writes to a page of so many bytes. -/
def Op.data (cfg : RuntimeConfig) (l : Op) (id : PageId) (n : Nat) : Option (List UInt8) :=
  match l with
  | .write i (some data) => if i = id then some (Bytes.take data n) else none
  | .fill i => if i = id then some (fillPattern n cfg.seed (UInt64.ofNat id)) else none
  | _ => none

/-- The bytes a thread started for `l` has written are the data of `l`. -/
def WritesData (cfg : RuntimeConfig) (l : Op) (t : Nat) (σ : Shared) : Prop :=
  ∀ id d, .wrote t id d ∈ σ.history → ∃ n, sizeIn σ.history id = some n ∧ l.data cfg id n = some d

/-- The thread has written the data of `l` to the page. -/
def HasWritten (cfg : RuntimeConfig) (l : Op) (t : Nat) (id : PageId) (σ : Shared) : Prop :=
  ∃ n d, sizeIn σ.history id = some n ∧ l.data cfg id n = some d ∧ .wrote t id d ∈ σ.history

theorem HasWritten.later (h : HasWritten cfg l t id σ) (hle : σ.history <:+ σ'.history) : HasWritten cfg l t id σ' := by
  obtain ⟨n, d, hn, hd, hm⟩ := h
  exact ⟨n, d, sizeIn_suffix hn hle, hd, hle.subset hm⟩

/-- Events that are no writes of the thread leave its data. -/
theorem WritesData.append (h : WritesData cfg l t σ) {evs : List Event} (hh : σ'.history = evs ++ σ.history)
    (hevs : ∀ id d, .wrote t id d ∉ evs) : WritesData cfg l t σ' := by
  intro id d hm
  rw [hh] at hm ⊢
  obtain ⟨n, hn, hd⟩ := h id d ((List.mem_append.1 hm).resolve_left (hevs id d))
  exact ⟨n, sizeIn_append hn evs, hd⟩

/-- The pattern as a buffer gives back the pattern. -/
theorem take_fillPattern (n : Nat) (seed pageId : UInt64) :
    Bytes.take (fun i => (fillPattern n seed pageId).getD i 0) n = fillPattern n seed pageId := by
  conv_rhs => rw [fillPattern_eq]
  refine List.map_congr_left fun i hi => ?_
  rw [List.getD_eq_getElem?_getD, getElem?_fillPattern seed pageId (List.mem_range.1 hi), Option.getD_some]

/-! ## The threads -/

theorem writesData_stable (hr : Rely t σ σ') (h : WritesData cfg l t σ) : WritesData cfg l t σ' := by
  obtain ⟨pre, hh, hne⟩ := hr
  exact h.append hh fun id d hm => hne _ hm rfl

/-- A thread is followed in the runtime's states, in which the others record their own events. -/
def dataFollow (cfg : RuntimeConfig) (l : Op) (t : Nat) : Follow Shared :=
  (logic (fun _ _ _ => True) cfg).follow t (fun σ => ∃ T, Inv cfg σ T) (WritesData cfg l t) writesData_stable

theorem Bystander.follows : ∀ {p : Code α} {σ : Shared}, Bystander p → p.Follows (dataFollow cfg l t) t σ fun _ _ => True
  | .ret _, _, _ => fun _ _ => trivial
  | .step _ a _, σ, hp => by
    intro ω σ₁ _ _ hw
    have hh : (a t ω σ₁).2.history = [] ++ σ₁.history := (hp.1 t ω σ₁).history
    exact ⟨⟨[], hh.symm⟩, WritesData.append hw hh fun _ _ hm => (List.not_mem_nil hm).elim, Bystander.follows (hp.2 _)⟩

/-- A section that only reads, and whose result is the page's record, gives the page's size. -/
theorem follows_record {g : Shared → Bool} {a : Sec PageMetadata}
    (ha : ∀ t ω σ, (a t ω σ).2 = σ ∧ ∀ m, (a t ω σ).1 = .ok m → σ.table.lookup id = some m) :
    (Prog.await g a).Follows (dataFollow cfg l t) t σ fun σ' m => sizeIn σ'.history id = some m.allocationSize := by
  refine Prog.Follows.await fun ω σ₁ _ hk hw => ?_
  obtain ⟨hσ, hm⟩ := ha t ω σ₁
  obtain ⟨T, hi⟩ := hk
  rw [hσ]
  exact ⟨List.suffix_refl _, hw, fun m hr => Open.size hi (hm m hr)⟩

theorem waitSettled_follows : (waitSettled id).Follows (dataFollow cfg l t) t σ fun σ' m =>
    sizeIn σ'.history id = some m.allocationSize := follows_record (settledPage_run id)

theorem copyOf_follows : (Prog.atomic (copyOf id) : Code PageMetadata).Follows (dataFollow cfg l t) t σ fun σ' m =>
    sizeIn σ'.history id = some m.allocationSize := by
  refine follows_record fun t ω σ => ?_
  rcases hl : σ.table.lookup id with _ | p
  · rw [copyOf_none hl]
    exact ⟨rfl, fun m hm => by cases hm⟩
  · rw [copyOf_some hl]
    exact ⟨rfl, fun m hm => by cases hm; rfl⟩

/-! ## The copy loop -/

/-- A turn of the loop: what it commits is the data. -/
theorem tryWrite_follows {data : Bytes} {n : Nat} (hs : sizeIn σ.history id = some n)
    (hd : l.data cfg id n = some (Bytes.take data n)) :
    (Prog.atomic (do if ← tryWrite cfg id data n then pure (some ()) else pure none) : Code (Option Unit)).Follows
      (dataFollow cfg l t) t σ fun σ' x => x = some () → HasWritten cfg l t id σ' := by
  refine Prog.Follows.await fun ω σ₁ hr hk hw => ?_
  obtain ⟨T, hi⟩ := hk
  have hs₁ : sizeIn σ₁.history id = some n := sizeIn_suffix hs (Rely.le hr)
  have hends : Ends cfg t T σ₁ (tryWrite cfg id data n t ω σ₁) _ := tryWrite_ends (hi.spawn t) hs₁
  obtain ⟨evs, -, hadds, -, -, hcom⟩ := hends
  rw [tryWrite_copy]
  have hle : σ₁.history <:+ (tryWrite cfg id data n t ω σ₁).2.history := ⟨evs, hadds.history.symm⟩
  refine ⟨hle, fun i d hm => ?_, fun x hx hsome => ⟨n, _, sizeIn_suffix hs₁ hle, hd, ?_⟩⟩
  · rw [hadds.history] at hm
    rcases List.mem_append.1 hm with hm | hm
    · obtain ⟨rfl, rfl⟩ := hcom.only _ _ _ hm
      exact ⟨n, sizeIn_suffix hs₁ hle, hd⟩
    · obtain ⟨k, hk, hd'⟩ := hw i d hm
      exact ⟨k, sizeIn_suffix hk hle, hd'⟩
  · rw [hadds.history]
    refine List.mem_append_left _ (hcom.done ?_)
    subst hsome
    rcases hres : (tryWrite cfg id data n t ω σ₁).1 with e | _ | _
    · rw [hres] at hx
      cases hx
    · rw [hres] at hx
      cases hx
    · rfl

theorem bystander_settleHost (id : PageId) : Bystander (settleInMemory cfg id fun _ => pure .hostPinned) := by
  refine (bystander_waitSettled id).bind fun m => bystander_ite ?_ trivial
  exact (Bystander.atomic fun _ _ σ => SameCore.refl σ).bind fun _ => (bystander_submitDemand id _).bind fun _ => bystander_waitSettled id

theorem copyRounds_follows {data : Bytes} {n : Nat} (hd : l.data cfg id n = some (Bytes.take data n)) :
    ∀ {k : Nat} {σ : Shared}, sizeIn σ.history id = some n →
      (copyRounds cfg id (do if ← tryWrite cfg id data n then pure (some ()) else pure none) k).Follows (dataFollow cfg l t) t σ
        fun σ' x => x = some () → HasWritten cfg l t id σ'
  | 0, _, _ => Prog.Follows.ret fun h => by cases h
  | k + 1, σ, hs => by
    unfold copyRounds
    refine (tryWrite_follows hs hd).bind fun σ₁ x hle hx => ?_
    cases x with
    | some u => exact Prog.Follows.ret hx
    | none =>
      refine (bystander_settleHost id).follows.bind fun σ₂ _ hle' _ => ?_
      exact copyRounds_follows hd (sizeIn_suffix hs (List.IsSuffix.trans hle hle'))

theorem finishWrite_follows {data : Bytes} {m : PageMetadata} (hs : sizeIn σ.history id = some m.allocationSize)
    (hd : l.data cfg id m.allocationSize = some (Bytes.take data m.allocationSize)) :
    (finishWrite cfg id data m).Follows (dataFollow cfg l t) t σ fun σ' _ => HasWritten cfg l t id σ' := by
  unfold finishWrite untilDeadline
  rw [Prog.bind_bind]
  refine (Bystander.atomic neutral_of_state).follows.bind fun σ₁ k hle _ => ?_
  refine (copyRounds_follows hd (sizeIn_suffix hs hle)).bind fun σ₂ x _ hx => ?_
  cases x with
  | none => exact Prog.Follows.throw _
  | some u => exact (bystander_accessed id).follows.mono fun σ₃ _ hle' _ => (hx rfl).later hle'

/-- `write_page_impl` with a buffer that holds the data of `l`, once the size of the page is known. -/
theorem writePageImpl_follows {data : Bytes}
    (hd : ∀ (σ' : Shared) n, σ.history <:+ σ'.history → sizeIn σ'.history id = some n → l.data cfg id n = some (Bytes.take data n)) :
    (writePageImpl cfg id (some data)).Follows (dataFollow cfg l t) t σ fun σ' _ => HasWritten cfg l t id σ' := by
  unfold writePageImpl
  refine waitSettled_follows.bind fun σ₁ m hle hm => ?_
  by_cases hst : m.state = .residentNvme
  · simp only [if_pos hst]
    refine (bystander_submitDemand id _).follows.bind fun σ₂ _ hle₂ _ => ?_
    refine waitSettled_follows.bind fun σ₃ m' hle₃ hm' => ?_
    have hle' : σ.history <:+ σ₃.history := List.IsSuffix.trans hle (List.IsSuffix.trans hle₂ hle₃)
    exact finishWrite_follows hm' (hd σ₃ _ hle' hm')
  · simp only [if_neg hst]
    exact finishWrite_follows hm (hd σ₁ _ hle hm)

/-! ## Every operation -/

theorem follows_done {p : Code Unit} {Q : Shared → Prop} (hp : p.Follows (dataFollow cfg l t) t σ fun σ' _ => Q σ') :
    (done p).Follows (dataFollow cfg l t) t σ fun σ' _ => Q σ' :=
  hp.bind fun _ _ _ hq => Prog.Follows.ret hq

theorem writePage_follows (id : PageId) (data : Option Bytes) :
    (code cfg (.write id data)).Follows (dataFollow cfg (.write id data) t) t σ fun σ' _ => HasWritten cfg (.write id data) t id σ' := by
  refine follows_done ((Bystander.atomic neutral_of_state).follows.bind fun σ₁ _ _ _ => ?_)
  cases data with
  | none => exact waitSettled_follows.bind fun _ _ _ _ => Prog.Follows.throw _
  | some data => exact writePageImpl_follows fun σ' n _ _ => if_pos rfl

theorem fillPage_follows (id : PageId) :
    (code cfg (.fill id)).Follows (dataFollow cfg (.fill id) t) t σ fun σ' _ => HasWritten cfg (.fill id) t id σ' := by
  refine follows_done ((Bystander.atomic neutral_of_state).follows.bind fun σ₁ _ _ _ => ?_)
  refine copyOf_follows.bind fun σ₂ m _ hm => writePageImpl_follows fun σ₃ n hle hn => ?_
  -- the size of a page does not change
  have hsize : m.allocationSize = n := Option.some.inj ((sizeIn_suffix hm hle).symm.trans hn)
  rw [← hsize, take_fillPattern]
  exact if_pos rfl

theorem code_follows (l : Op) :
    (code cfg l).Follows (dataFollow cfg l t) t σ fun σ' _ => ∀ id, l.Writes id → HasWritten cfg l t id σ' := by
  have hother : (∀ t id d, l.records (.wrote t id d) = false) →
      (code cfg l).Follows (dataFollow cfg l t) t σ fun _ _ => True := fun hl => by
    refine Prog.Follows.of_all (P := Tidy l) (fun β a ha ω σ hk => ?_) (code_all (tidy_admits cfg l))
    obtain ⟨⟨evs, hh, hevs⟩, -⟩ := ha t ω σ
    refine ⟨⟨evs, hh.symm⟩, WritesData.append hk hh fun id d hm => ?_⟩
    have hrec := (hevs _ hm).2
    rw [hl] at hrec
    cases hrec
  cases l with
  | write i data =>
    refine (writePage_follows i data).mono fun σ' _ _ hq id hw => ?_
    rcases hw with ⟨_, h⟩ | h <;> cases h
    exact hq
  | fill i =>
    refine (fillPage_follows i).mono fun σ' _ _ hq id hw => ?_
    rcases hw with ⟨_, h⟩ | h <;> cases h
    exact hq
  | _ =>
    refine (hother fun _ _ _ => rfl).mono fun σ' _ _ _ id hw => ?_
    rcases hw with ⟨_, h⟩ | h <;> cases h

/-! ## Every run -/

variable {allowed : Move Env Op → Prop} {disk : Bytes} {c : Runtime}

/-- Every thread has written nothing but the data of its operation, and a write that returned has written it. -/
theorem reachable_data (hr : Reachable allowed (code cfg) (cfg.initial disk) c) {p : Code Reply} (ht : c.threads[t]? = some ⟨l, p⟩) :
    WritesData cfg l t c.shared ∧ ∀ x id, p = .ret (.ok x) → l.Writes id → HasWritten cfg l t id c.shared := by
  have hrely : ∀ (c c' : Runtime) s ω, Reachable allowed (code cfg) (cfg.initial disk) c → c.move (code cfg) (.exec s ω) = some c' →
      ∀ t, t ≠ s → Rely t c.shared c'.shared := by
    intro c c' s ω hr hm t hne
    obtain ⟨l', -, ⟨evs, hh, hevs⟩, -⟩ := noted_move hr hm
    exact ⟨evs, hh, fun e he => by rw [(hevs e he).1]; exact Ne.symm hne⟩
  -- a thread that is not yet started has recorded nothing
  have hnew : ∀ c : Runtime, Reachable allowed (code cfg) (cfg.initial disk) c → ∀ l, WritesData cfg l c.threads.length c.shared := by
    intro c hr l id d hm
    obtain ⟨l', hl', -⟩ := reachable_records hr _ hm
    rw [Config.labels, List.getElem?_map] at hl'
    simp [Event.thread] at hl'
  obtain ⟨hw, σ, hσ, hf⟩ := hr.follows (F := dataFollow cfg) (Q := fun l t σ _ => ∀ id, l.Writes id → HasWritten cfg l t id σ)
    (fun c hr _ _ => reachable_inv hr) (fun c c' s ω hr hm _ => hrely c c' s ω hr hm) hnew (fun l _ t σ _ => code_follows l) t l p ht
  refine ⟨hw, ?_⟩
  rintro x id rfl hid
  exact (hf x rfl id hid).later (Rely.le hσ)

end FlashTier
