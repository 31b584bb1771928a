/-
What the threads of a pool wait for. Every thread holds a token; an invariant relates the shared state to the
tokens, and a section may be waited for only as the token of its thread admits, so a thread that others wait for
can be shown not to wait itself. And programs end: each section leaves its thread with a part of the program, so
that a run in which no thread is started is finite.
-/
import FlashTier.Conc.Logic
import Mathlib.Logic.Hydra

namespace Conc

variable {Ω S E H L R α β : Type}

/-- A thread is started and runs its first section. -/
theorem run_spawn_exec {code : L → Prog Ω S E R} {c c' : Config Ω S E L R} {ω : Ω} {l : L} {g : S → Bool} {a : Act Ω S E β}
    {k : Except E β → Prog Ω S E R} (hcode : code l = .step g a k) (h : c.run code [.spawn l, .exec c.threads.length ω] = some c') :
    g c.shared = true ∧ c' = ⟨(a c.threads.length ω c.shared).2, c.threads ++ [⟨l, k (a c.threads.length ω c.shared).1⟩]⟩ := by
  obtain ⟨c₁, hspawn, h⟩ := Option.bind_eq_some_iff.1 h
  cases hspawn
  obtain ⟨c₂, hm, hend⟩ := Option.bind_eq_some_iff.1 h
  cases hend
  obtain ⟨l', β', g', a', k', ht, hg, rfl⟩ := move_exec hm
  rw [hcode, List.getElem?_concat_length] at ht
  cases ht
  refine ⟨hg, ?_⟩
  rw [List.set_append_right _ _ le_rfl, Nat.sub_self]
  rfl

/-! ## Waiting -/

/-- The answers the environment gives, the invariant over the shared state and the tokens, and the guards that a
thread started for a label may come to with a token. -/
structure Watch (Ω S H L : Type) where
  env : Ω → Prop
  Inv : S → Multiset (Nat × H) → Prop
  may : L → H → (S → Bool) → Prop

namespace Watch

variable (W : Watch Ω S H L) (l : L) (t : Nat)

/-- The section, run by `t` with the token `h` when its guard holds, keeps the invariant and ends in `post`. -/
def Section (h : H) (g : S → Bool) (a : Act Ω S E β) (post : Except E β → H → Prop) : Prop :=
  ∀ ω σ T, W.env ω → (∀ x ∈ T, x.1 ≠ t) → W.Inv σ ((t, h) ::ₘ T) → g σ = true →
    ∃ h', W.Inv (a t ω σ).2 ((t, h') ::ₘ T) ∧ post (a t ω σ).1 h'

/-- Run by `t` for `l` with the token `h`, the program waits only as it may, keeps the invariant and ends in `Q`. -/
def Safe : Prog Ω S E α → H → (Except E α → H → Prop) → Prop
  | .ret r, h, Q => Q r h
  | .step g a k, h, Q => W.may l h g ∧ W.Section t h g a fun r h' => Safe (k r) h' Q

variable {W l t}

theorem Section.mono {h : H} {g : S → Bool} {a : Act Ω S E β} {post post' : Except E β → H → Prop}
    (hp : ∀ r h', post r h' → post' r h') (ha : W.Section t h g a post) : W.Section t h g a post' := by
  intro ω σ T hω ht hi hg
  obtain ⟨h', hi', hq⟩ := ha ω σ T hω ht hi hg
  exact ⟨h', hi', hp _ _ hq⟩

theorem Safe.mono {Q Q' : Except E α → H → Prop} (hq : ∀ r h, Q r h → Q' r h) :
    ∀ {p : Prog Ω S E α} {h : H}, W.Safe l t p h Q → W.Safe l t p h Q'
  | .ret _, _, hs => hq _ _ hs
  | .step _ _ _, _, hs => ⟨hs.1, hs.2.mono fun _ _ hk => hk.mono hq⟩

theorem Safe.andThen {Q : Except E β → H → Prop} {f : Except E α → Prog Ω S E β} :
    ∀ {p : Prog Ω S E α} {h : H}, W.Safe l t p h (fun r h' => W.Safe l t (f r) h' Q) → W.Safe l t (p.andThen f) h Q
  | .ret _, _, hs => hs
  | .step _ _ _, _, hs => ⟨hs.1, hs.2.mono fun _ _ hk => hk.andThen⟩

theorem Safe.bind {Q : Except E β → H → Prop} {M : Except E α → H → Prop} {p : Prog Ω S E α} {f : α → Prog Ω S E β} {h : H}
    (hp : W.Safe l t p h M) (hok : ∀ a h', M (.ok a) h' → W.Safe l t (f a) h' Q) (herr : ∀ e h', M (.error e) h' → Q (.error e) h') :
    W.Safe l t (p >>= f) h Q := by
  refine Safe.andThen (hp.mono fun r h' hm => ?_)
  cases r with
  | ok a => exact hok a h' hm
  | error e => exact herr e h' hm

theorem Safe.tryCatch {Q M : Except E α → H → Prop} {p : Prog Ω S E α} {f : E → Prog Ω S E α} {h : H} (hp : W.Safe l t p h M)
    (hok : ∀ a h', M (.ok a) h' → Q (.ok a) h') (herr : ∀ e h', M (.error e) h' → W.Safe l t (f e) h' Q) :
    W.Safe l t (tryCatch p f) h Q := by
  refine Safe.andThen (hp.mono fun r h' hm => ?_)
  cases r with
  | ok a => exact hok a h' hm
  | error e => exact herr e h' hm

theorem Safe.await {Q : Except E α → H → Prop} {g : S → Bool} {a : Act Ω S E α} {h : H} (hm : W.may l h g) (ha : W.Section t h g a Q) :
    W.Safe l t (.await g a) h Q := ⟨hm, ha⟩

/-! ## Adequacy -/

/-- The tokens of a configuration's threads: the invariant holds of them together, and each thread's code is safe. -/
structure Sound (W : Watch Ω S H L) (Q : L → Except E R → H → Prop) (c : Config Ω S E L R) (hs : List H) : Prop where
  length : hs.length = c.threads.length
  inv : W.Inv c.shared (tagged hs)
  safe : ∀ t th h, c.threads[t]? = some th → hs[t]? = some h → W.Safe th.label t th.code h (Q th.label)

variable {code : L → Prog Ω S E R} {σ₀ : S} {Q : L → Except E R → H → Prop} {h₀ : H}

theorem Sound.start (hinit : W.Inv σ₀ 0) : W.Sound Q ⟨σ₀, []⟩ [] := ⟨rfl, hinit, fun t th h ht => by simp at ht⟩

/-- One more thread, with a token of its own. -/
theorem Sound.add {c : Config Ω S E L R} {hs : List H} (h : W.Sound Q c hs) {σ : S} {hd : H} {p : Prog Ω S E R}
    (hi : W.Inv σ ((c.threads.length, hd) ::ₘ tagged hs)) (hp : W.Safe l c.threads.length p hd (Q l)) :
    W.Sound Q ⟨σ, c.threads ++ [⟨l, p⟩]⟩ (hs ++ [hd]) := by
  refine ⟨by simp [h.length], by rw [tagged_append, h.length]; exact hi, fun t th hd' ht hh => ?_⟩
  rcases Nat.lt_trichotomy t c.threads.length with hlt | rfl | hgt
  · rw [List.getElem?_append_left hlt] at ht
    rw [List.getElem?_append_left (by rw [h.length]; exact hlt)] at hh
    exact h.safe t th hd' ht hh
  · rw [List.getElem?_append_right le_rfl, Nat.sub_self] at ht
    rw [← h.length, List.getElem?_append_right le_rfl, Nat.sub_self] at hh
    cases ht
    cases hh
    exact hp
  · rw [List.getElem?_eq_none (by simp; omega)] at ht
    cases ht

/-- A thread that is started and runs its first section at once; it may start at a guard that it may not wait at. -/
theorem Sound.enter {c c' : Config Ω S E L R} {hs : List H} (h : W.Sound Q c hs) {ω : Ω} (hω : W.env ω)
    (hnew : W.Inv c.shared ((c.threads.length, h₀) ::ₘ tagged hs)) {g : S → Bool} {a : Act Ω S E β} {k : Except E β → Prog Ω S E R}
    (hcode : code l = .step g a k) (hsec : W.Section c.threads.length h₀ g a fun r h' => W.Safe l c.threads.length (k r) h' (Q l))
    (hm : c.run code [.spawn l, .exec c.threads.length ω] = some c') : ∃ hs', W.Sound Q c' hs' := by
  obtain ⟨hg, rfl⟩ := run_spawn_exec hcode hm
  have hothers : ∀ x ∈ tagged hs, x.1 ≠ c.threads.length := by
    intro x hx
    have hlt := (List.getElem?_eq_some_iff.1 (mem_tagged.1 hx)).1
    rw [h.length] at hlt
    exact hlt.ne
  obtain ⟨h', hi, hsafe⟩ := hsec ω c.shared _ hω hothers hnew hg
  exact ⟨_, h.add hi hsafe⟩

theorem Sound.exec {c c' : Config Ω S E L R} {hs : List H} (h : W.Sound Q c hs) {ω : Ω} (hω : W.env ω)
    (hm : c.move code (.exec t ω) = some c') : ∃ hs', W.Sound Q c' hs' := by
  obtain ⟨l, β, g, a, k, ht, hg, rfl⟩ := move_exec hm
  have hlt : t < c.threads.length := (List.getElem?_eq_some_iff.1 ht).1
  have hlt' : t < hs.length := by rw [h.length]; exact hlt
  have hh : hs[t]? = some hs[t] := List.getElem?_eq_getElem hlt'
  have hi := h.inv
  rw [tagged_eq_cons hh] at hi
  obtain ⟨h', hi', hsafe⟩ := (h.safe t _ _ ht hh).2 ω c.shared _ hω (fun _ => ne_of_mem_others) hi hg
  refine ⟨hs.set t h', by simp [h.length], by rw [tagged_set hlt']; exact hi', fun s th hd hs1 hs2 => ?_⟩
  by_cases hst : t = s
  · subst hst
    rw [List.getElem?_set_self hlt] at hs1
    rw [List.getElem?_set_self hlt'] at hs2
    cases hs1
    cases hs2
    exact hsafe
  · rw [List.getElem?_set_ne hst] at hs1 hs2
    exact h.safe s th hd hs1 hs2

/-- The token of a thread that has not ended admits the guard the thread is at. -/
theorem Sound.waits {c : Config Ω S E L R} {hs : List H} (h : W.Sound Q c hs) {g : S → Bool} {a : Act Ω S E β}
    {k : Except E β → Prog Ω S E R} (ht : c.threads[t]? = some ⟨l, .step g a k⟩) : ∃ hd, hs[t]? = some hd ∧ W.may l hd g := by
  have hlt : t < hs.length := by
    rw [h.length]
    exact (List.getElem?_eq_some_iff.1 ht).1
  exact ⟨_, List.getElem?_eq_getElem hlt, (h.safe t _ _ ht (List.getElem?_eq_getElem hlt)).1⟩

/-- A thread whose token is not one of an end is at a guard that the token admits. -/
theorem Sound.unfinished {c : Config Ω S E L R} {hs : List H} (h : W.Sound Q c hs) {hd : H} (hh : hs[t]? = some hd) (hq : ∀ l r, ¬Q l r hd) :
    ∃ l β g, ∃ (a : Act Ω S E β) (k : Except E β → Prog Ω S E R), c.threads[t]? = some ⟨l, .step g a k⟩ ∧ W.may l hd g := by
  have hlt : t < c.threads.length := by
    rw [← h.length]
    exact (List.getElem?_eq_some_iff.1 hh).1
  have ht := List.getElem?_eq_getElem hlt
  have hsafe := h.safe t _ _ ht hh
  rcases hth : c.threads[t] with ⟨l, p⟩
  rw [hth] at ht hsafe
  cases p with
  | ret r => exact absurd hsafe (hq l r)
  | step g a k => exact ⟨l, _, g, a, k, ht, hsafe.1⟩

end Watch

/-! ## Programs end -/

/-- The thread at `t` may run its next section. -/
def Config.Enabled (c : Config Ω S E L R) (t : Nat) : Prop :=
  ∃ l β g, ∃ (a : Act Ω S E β) (k : Except E β → Prog Ω S E R), c.threads[t]? = some ⟨l, .step g a k⟩ ∧ g c.shared = true

/-- A thread is at one guard. -/
theorem guard_unique {γ : Type} {c : Config Ω S E L R} {t : Nat} {l l' : L} {g g' : S → Bool} {a : Act Ω S E β} {a' : Act Ω S E γ}
    {k : Except E β → Prog Ω S E R} {k' : Except E γ → Prog Ω S E R} (h : c.threads[t]? = some ⟨l, .step g a k⟩)
    (h' : c.threads[t]? = some ⟨l', .step g' a' k'⟩) : g = g' := by
  have heq := h.symm.trans h'
  simp only [Option.some.injEq, Thread.mk.injEq, Prog.step.injEq] at heq
  exact heq.2.2.1

theorem Config.Enabled.move {c : Config Ω S E L R} {t : Nat} (h : c.Enabled t) (code : L → Prog Ω S E R) (ω : Ω) :
    ∃ c', c.move code (.exec t ω) = some c' := by
  obtain ⟨l, β, g, a, k, ht, hg⟩ := h
  refine ⟨⟨(a t ω c.shared).2, c.threads.set t ⟨l, k (a t ω c.shared).1⟩⟩, ?_⟩
  simp only [Config.move, ht, hg, if_true]

/-- What holds of every section holds of those of any program. -/
theorem Prog.all_of {P : ∀ β : Type, Act Ω S E β → Prop} (h : ∀ β a, P β a) : ∀ p : Prog Ω S E α, p.All P
  | .ret _ => trivial
  | .step _ a k => ⟨h _ a, fun r => Prog.all_of h (k r)⟩

/-- What a program has left after one of its sections. -/
inductive Prog.After : Prog Ω S E α → Prog Ω S E α → Prop
  | step {β : Type} (g : S → Bool) (a : Act Ω S E β) (k : Except E β → Prog Ω S E α) (r : Except E β) : After (k r) (.step g a k)

theorem Prog.after_wf : WellFounded (Prog.After : Prog Ω S E α → Prog Ω S E α → Prop) := by
  refine ⟨fun p => ?_⟩
  induction p with
  | ret r => exact ⟨_, fun q hq => nomatch hq⟩
  | step g a k ih =>
    refine ⟨_, fun q hq => ?_⟩
    cases hq with
    | step _ _ _ r => exact ih r

/-- What the threads with certain labels have left to run. -/
def Config.left (P : L → Bool) (c : Config Ω S E L R) : Multiset (Prog Ω S E R) := ((c.threads.filter (P ·.label)).map Thread.code : List _)

/-- The threads as a multiset, with one of them apart. -/
theorem left_apart {P : L → Bool} {c : Config Ω S E L R} {t : Nat} {th : Thread Ω S E L R} (ht : c.threads[t]? = some th) :
    c.left P = (if P th.label then {th.code} else 0) + (((c.threads.eraseIdx t).filter (P ·.label)).map Thread.code : List _) := by
  obtain ⟨hlt, rfl⟩ := List.getElem?_eq_some_iff.1 ht
  have hperm := (List.getElem_cons_eraseIdx_perm hlt).symm
  rw [Config.left, Multiset.coe_eq_coe.2 ((hperm.filter _).map _)]
  by_cases hp : P c.threads[t].label = true
  · rw [List.filter_cons_of_pos (p := fun th : Thread Ω S E L R => P th.label) hp, if_pos hp]
    rfl
  · rw [List.filter_cons_of_neg (p := fun th : Thread Ω S E L R => P th.label) hp, if_neg hp, zero_add]

/-- A section leaves its thread with a part of its program, and the others with theirs. -/
theorem left_exec {P : L → Bool} {code : L → Prog Ω S E R} {c c' : Config Ω S E L R} {t : Nat} {ω : Ω} {th : Thread Ω S E L R}
    (ht : c.threads[t]? = some th) (hm : c.move code (.exec t ω) = some c') :
    (P th.label = true ∧ Relation.CutExpand Prog.After (c'.left P) (c.left P)) ∨ P th.label = false ∧ c'.left P = c.left P := by
  obtain ⟨l, β, g, a, k, ht', -, rfl⟩ := move_exec hm
  cases ht.symm.trans ht'
  have hlt : t < c.threads.length := (List.getElem?_eq_some_iff.1 ht).1
  have hset : (c.threads.set t ⟨l, k (a t ω c.shared).1⟩)[t]? = some ⟨l, k (a t ω c.shared).1⟩ := List.getElem?_set_self hlt
  have hleft := left_apart (P := P) (c := ⟨(a t ω c.shared).2, c.threads.set t ⟨l, k (a t ω c.shared).1⟩⟩) hset
  rw [List.eraseIdx_set_eq] at hleft
  rw [hleft, left_apart ht]
  by_cases hp : P l = true
  · refine .inl ⟨hp, {k (a t ω c.shared).1}, .step g a k, fun q hq => ?_, ?_⟩
    · rw [Multiset.mem_singleton.1 hq]
      exact .step ..
    · simp only [hp, if_true]
      exact (add_right_comm _ _ _).trans ((congrArg (· + _) (add_comm _ _)).trans (add_right_comm _ _ _))
  · have hp := Bool.eq_false_of_not_eq_true hp
    refine .inr ⟨hp, ?_⟩
    simp only [hp, Bool.false_eq_true, if_false]

end Conc
