/-
Runs of a pool of threads over a shared state. A configuration is the shared state and the threads
started so far, each with the label it was started for and the code it has left. A move starts a
thread or lets one thread run its next section, with any answers of the environment; a run is a list
of moves, so every interleaving of every set of threads is one.
-/
import FlashTier.Conc.Prog
import FlashTier.Conc.Steps
import Mathlib.Data.List.Basic

namespace Conc

variable {Ω S E L R : Type}

/-- A thread: what it was started for, and the code it has left. -/
structure Thread (Ω S E L R : Type) : Type 1 where
  label : L
  code : Prog Ω S E R

structure Config (Ω S E L R : Type) : Type 1 where
  shared : S
  threads : List (Thread Ω S E L R)

/-- One move of the scheduler. -/
inductive Move (Ω L : Type) where
  | spawn (l : L)
  | exec (t : Nat) (ω : Ω)

namespace Config

/-- How the thread at `t` has ended. -/
def result (c : Config Ω S E L R) (t : Nat) : Option (Except E R) :=
  match c.threads[t]? with
  | some ⟨_, .ret r⟩ => some r
  | _ => none

/-- What the threads were started for, in order. -/
def labels (c : Config Ω S E L R) : List L := c.threads.map Thread.label

theorem thread_of_result {c : Config Ω S E L R} {t : Nat} {r : Except E R} {l : L} (h : c.result t = some r)
    (hl : c.labels[t]? = some l) : c.threads[t]? = some ⟨l, .ret r⟩ := by
  unfold result at h
  split at h
  · rename_i l' r' ht
    cases h
    rw [labels, List.getElem?_map, ht] at hl
    cases hl
    exact ht
  · cases h

/-- The thread at `t` has a section left to run. -/
def Running (c : Config Ω S E L R) (t : Nat) : Prop := ∃ th, c.threads[t]? = some th ∧ ∀ r, th.code ≠ .ret r

/-- No thread has a section left to run. -/
def Quiet (c : Config Ω S E L R) : Prop := ∀ th ∈ c.threads, ∃ r, th.code = .ret r

instance (c : Config Ω S E L R) : Decidable c.Quiet :=
  decidable_of_iff (c.threads.all fun th => match th.code with | .ret _ => true | .step .. => false) <| by
    simp only [Quiet, List.all_eq_true]
    refine forall₂_congr fun th _ => ?_
    cases th.code <;> simp

/-- One move; `none` when the thread does not exist, has ended or must wait. -/
def move (code : L → Prog Ω S E R) (c : Config Ω S E L R) : Move Ω L → Option (Config Ω S E L R)
  | .spawn l => some { c with threads := c.threads ++ [⟨l, code l⟩] }
  | .exec t ω =>
    match c.threads[t]? with
    | some ⟨l, .step g a k⟩ =>
      if g c.shared then
        some ⟨(a t ω c.shared).2, c.threads.set t ⟨l, k (a t ω c.shared).1⟩⟩
      else none
    | _ => none

/-- A list of moves, in order. -/
def run (code : L → Prog Ω S E R) : Config Ω S E L R → List (Move Ω L) → Option (Config Ω S E L R)
  | c, [] => some c
  | c, m :: ms => (c.move code m).bind fun c' => run code c' ms

end Config

/-- The configurations some run from `σ₀` with no threads ends in, all of whose moves are admitted. -/
inductive Reachable (allowed : Move Ω L → Prop) (code : L → Prog Ω S E R) (σ₀ : S) : Config Ω S E L R → Prop where
  | start : Reachable allowed code σ₀ ⟨σ₀, []⟩
  | move {c c' : Config Ω S E L R} (m : Move Ω L) (hm : allowed m) :
      Reachable allowed code σ₀ c → c.move code m = some c' → Reachable allowed code σ₀ c'

theorem Reachable.of_run {allowed : Move Ω L → Prop} {code : L → Prog Ω S E R} {σ₀ : S} :
    ∀ {ms : List (Move Ω L)} {c c' : Config Ω S E L R}, Reachable allowed code σ₀ c → (∀ m ∈ ms, allowed m) →
      c.run code ms = some c' → Reachable allowed code σ₀ c'
  | [], c, c', h, _, hr => by cases hr; exact h
  | m :: ms, c, c', h, ha, hr => by
    obtain ⟨c₁, hm, hr⟩ := Option.bind_eq_some_iff.1 hr
    exact Reachable.of_run (.move m (ha m (List.mem_cons_self ..)) h hm) (fun m' hm' => ha m' (List.mem_cons_of_mem _ hm')) hr

/-- What a move by a thread is: the thread is at a section whose guard holds, and only the shared
state and that thread's code change. -/
theorem move_exec {code : L → Prog Ω S E R} {c c' : Config Ω S E L R} {t : Nat} {ω : Ω}
    (h : c.move code (.exec t ω) = some c') :
    ∃ l β g, ∃ (a : Act Ω S E β) (k : Except E β → Prog Ω S E R), c.threads[t]? = some ⟨l, .step g a k⟩ ∧
      g c.shared = true ∧
      c' = ⟨(a t ω c.shared).2, c.threads.set t ⟨l, k (a t ω c.shared).1⟩⟩ := by
  simp only [Config.move] at h
  split at h
  · rename_i l β g a k ht
    split at h
    · rename_i hg
      cases h
      exact ⟨l, β, g, a, k, ht, hg, rfl⟩
    · cases h
  · cases h

/-- The move is a section of thread `t`. -/
def Move.isOf (t : Nat) : Move Ω L → Bool
  | .exec s _ => s == t
  | .spawn _ => false

/-- The moves of others leave a thread. -/
theorem thread_move_other {code : L → Prog Ω S E R} {c c' : Config Ω S E L R} {m : Move Ω L} {t : Nat} {th : Thread Ω S E L R}
    (hm : c.move code m = some c') (hne : m.isOf t = false) (ht : c.threads[t]? = some th) : c'.threads[t]? = some th := by
  cases m with
  | spawn l =>
    cases hm
    rw [List.getElem?_append_left (List.getElem?_eq_some_iff.1 ht).1]
    exact ht
  | exec s ω =>
    obtain ⟨l, β, g, a, k, -, -, rfl⟩ := move_exec hm
    rw [List.getElem?_set_ne (by simpa [Move.isOf] using hne)]
    exact ht

theorem thread_run_others {code : L → Prog Ω S E R} {t : Nat} {th : Thread Ω S E L R} : ∀ {ms : List (Move Ω L)}
    {c c' : Config Ω S E L R}, ms.countP (Move.isOf t) = 0 → c.run code ms = some c' → c.threads[t]? = some th →
      c'.threads[t]? = some th
  | [], c, c', _, hr, ht => by
    cases hr
    exact ht
  | m :: ms, c, c', hn, hr, ht => by
    obtain ⟨c₁, hm, hr⟩ := Option.bind_eq_some_iff.1 hr
    rw [List.countP_eq_zero] at hn
    have hof : m.isOf t = false := by simpa using hn m (List.mem_cons_self ..)
    refine thread_run_others (List.countP_eq_zero.2 fun m' hm' => hn m' (List.mem_cons_of_mem _ hm')) hr ?_
    exact thread_move_other hm hof ht

/-- What is true of each thread stays true: of one that is started, of the one that runs and of the others. -/
theorem threads_move {code : L → Prog Ω S E R} {P : Config Ω S E L R → Nat → L → Prog Ω S E R → Prop} {c c' : Config Ω S E L R}
    {m : Move Ω L} (hm : c.move code m = some c') (hspawn : ∀ l, m = .spawn l → P c' c.threads.length l (code l))
    (hown : ∀ t ω l β g (a : Act Ω S E β) k, m = .exec t ω → c.threads[t]? = some ⟨l, .step g a k⟩ → c'.shared = (a t ω c.shared).2 →
      P c t l (.step g a k) → P c' t l (k (a t ω c.shared).1))
    (hother : ∀ t l p, (∀ ω, m ≠ .exec t ω) → c.threads[t]? = some ⟨l, p⟩ → P c t l p → P c' t l p)
    (h : ∀ t l p, c.threads[t]? = some ⟨l, p⟩ → P c t l p) : ∀ t l p, c'.threads[t]? = some ⟨l, p⟩ → P c' t l p := by
  intro t l p ht
  cases m with
  | spawn l' =>
    rcases Nat.lt_trichotomy t c.threads.length with hlt | rfl | hgt
    · refine hother t l p (fun ω => by simp) ?_ (h t l p ?_)
      all_goals
        cases hm
        rwa [List.getElem?_append_left hlt] at ht
    · have hnew := hspawn l' rfl
      cases hm
      rw [List.getElem?_concat_length] at ht
      cases ht
      exact hnew
    · cases hm
      rw [List.getElem?_eq_none (by simp; omega)] at ht
      cases ht
  | exec s ω =>
    obtain ⟨l', β, g, a, k, hs, hg, rfl⟩ := move_exec hm
    by_cases hst : s = t
    · subst hst
      rw [List.getElem?_set_self (List.getElem?_eq_some_iff.1 hs).1] at ht
      cases ht
      exact hown s ω l β g a k rfl hs rfl (h s l _ hs)
    · rw [List.getElem?_set_ne hst] at ht
      refine hother t l p (fun ω' he => hst ?_) ht (h t l p ht)
      cases he
      rfl

/-- The thread that runs keeps its label. -/
theorem labels_set {c : Config Ω S E L R} {t : Nat} {l : L} {p : Prog Ω S E R} (ht : c.threads[t]? = some ⟨l, p⟩) (σ : S)
    (q : Prog Ω S E R) : Config.labels ⟨σ, c.threads.set t ⟨l, q⟩⟩ = c.labels := by
  obtain ⟨hlt, hth⟩ := List.getElem?_eq_some_iff.1 ht
  have hlt' : t < (c.threads.map Thread.label).length := by simpa using hlt
  have hlab : (c.threads.map Thread.label)[t] = l := by simp [hth]
  rw [Config.labels, List.map_set, ← hlab, List.set_getElem_self]
  rfl

/-- What holds of every section of every program holds of all that the threads have left to run. -/
theorem Reachable.all {allowed : Move Ω L → Prop} {code : L → Prog Ω S E R} {σ₀ : S} {P : L → ∀ β : Type, Act Ω S E β → Prop}
    (hcode : ∀ l, allowed (.spawn l) → (code l).All (P l)) {c : Config Ω S E L R} (hr : Reachable allowed code σ₀ c) :
    ∀ th ∈ c.threads, th.code.All (P th.label) := by
  induction hr with
  | start => exact fun th hth => (List.not_mem_nil hth).elim
  | @move c c' m hm _ hmove ih =>
    cases m with
    | spawn l =>
      cases hmove
      intro th hth
      rcases List.mem_append.1 hth with hth | hth
      · exact ih th hth
      · cases List.mem_singleton.1 hth
        exact hcode l hm
    | exec t ω =>
      obtain ⟨l, β, g, a, k, ht, -, rfl⟩ := move_exec hmove
      intro th hth
      rcases List.mem_or_eq_of_mem_set hth with hth | rfl
      · exact ih th hth
      · exact (ih _ (List.mem_of_getElem? ht)).2 _

/-- An invariant that every section of every program keeps between states of which `K` is known. -/
theorem Reachable.keeps_known {allowed : Move Ω L → Prop} {code : L → Prog Ω S E R} {σ₀ : S} {P : L → ∀ β : Type, Act Ω S E β → Prop}
    {K : S → Prop} (hK : ∀ c : Config Ω S E L R, Reachable allowed code σ₀ c → K c.shared)
    (hcode : ∀ l, allowed (.spawn l) → (code l).All (P l)) (J : List L → S → Prop) (hstart : J [] σ₀)
    (hspawn : ∀ ls l σ, J ls σ → J (ls ++ [l]) σ)
    (hexec : ∀ ls t l β (a : Act Ω S E β) ω σ, ls[t]? = some l → P l β a → K σ → K (a t ω σ).2 → J ls σ → J ls (a t ω σ).2)
    {c : Config Ω S E L R} (hr : Reachable allowed code σ₀ c) : J c.labels c.shared := by
  induction hr with
  | start => exact hstart
  | @move c c' m hm hr hmove ih =>
    have hknown := hK c' (.move m hm hr hmove)
    cases m with
    | spawn l =>
      cases hmove
      rw [show Config.labels { c with threads := c.threads ++ [⟨l, code l⟩] } = c.labels ++ [l] by simp [Config.labels]]
      exact hspawn _ _ _ ih
    | exec t ω =>
      obtain ⟨l, β, g, a, k, ht, -, rfl⟩ := move_exec hmove
      rw [labels_set ht]
      exact hexec _ t l β a ω _ (by rw [Config.labels, List.getElem?_map, ht]; rfl) (hr.all hcode _ (List.mem_of_getElem? ht)).1
        (hK c hr) hknown ih

/-- An invariant that every section of every program keeps. -/
theorem Reachable.keeps {allowed : Move Ω L → Prop} {code : L → Prog Ω S E R} {σ₀ : S} {P : L → ∀ β : Type, Act Ω S E β → Prop}
    (hcode : ∀ l, allowed (.spawn l) → (code l).All (P l)) (J : List L → S → Prop) (hstart : J [] σ₀)
    (hspawn : ∀ ls l σ, J ls σ → J (ls ++ [l]) σ)
    (hexec : ∀ ls t l β (a : Act Ω S E β) ω σ, ls[t]? = some l → P l β a → J ls σ → J ls (a t ω σ).2)
    {c : Config Ω S E L R} (hr : Reachable allowed code σ₀ c) : J c.labels c.shared :=
  hr.keeps_known (K := fun _ => True) (fun _ _ => trivial) hcode J hstart hspawn
    fun ls t l β a ω σ hl ha _ _ => hexec ls t l β a ω σ hl ha

/-- What the threads started by some moves are started for. -/
def spawned : List (Move Ω L) → List L
  | [] => []
  | .spawn l :: ms => l :: spawned ms
  | .exec _ _ :: ms => spawned ms

theorem labels_run {code : L → Prog Ω S E R} : ∀ {ms : List (Move Ω L)} {c c' : Config Ω S E L R},
    c.run code ms = some c' → c'.labels = c.labels ++ spawned ms
  | [], c, c', hr => by
    cases hr
    exact (List.append_nil _).symm
  | .spawn l :: ms, c, c', hr => by
    obtain ⟨c₁, hm, hr⟩ := Option.bind_eq_some_iff.1 hr
    cases hm
    rw [labels_run hr]
    simp [Config.labels, spawned]
  | .exec t ω :: ms, c, c', hr => by
    obtain ⟨c₁, hm, hr⟩ := Option.bind_eq_some_iff.1 hr
    obtain ⟨l, β, g, a, k, ht, -, rfl⟩ := move_exec hm
    rw [labels_run hr, spawned]
    exact congrArg (· ++ spawned ms) (labels_set ht _ _)

/-- A run that can be evaluated reaches a configuration of which the test at its end holds. -/
theorem Reachable.of_test {allowed : Move Ω L → Prop} {code : L → Prog Ω S E R} {σ₀ : S} {ms : List (Move Ω L)}
    (P : Config Ω S E L R → Prop) [DecidablePred P] (ha : ∀ m ∈ ms, allowed m)
    (h : (Config.run code ⟨σ₀, []⟩ ms).any (fun c => P c) = true) :
    ∃ c, Reachable allowed code σ₀ c ∧ c.labels = spawned ms ∧ P c := by
  obtain ⟨c, hc, hp⟩ := (Option.any_eq_true _ _).1 h
  exact ⟨c, Reachable.of_run .start ha hc, labels_run hc, of_decide_eq_true hp⟩

/-! ## Threads that run alone -/

/-- Run alone by thread `t` from a state, with answers of which `ok` holds, the program may end with `r` and leave another state. -/
inductive Prog.Alone (ok : Ω → Prop) (t : Nat) {α : Type} : Prog Ω S E α → S → Except E α → S → Prop
  | ret (r : Except E α) (σ : S) : Alone ok t (.ret r) σ r σ
  | step {β : Type} {g : S → Bool} {a : Act Ω S E β} {k : Except E β → Prog Ω S E α} {σ σ' : S} {r : Except E α} (ω : Ω) (hω : ok ω)
      (hg : g σ = true) (h : Alone ok t (k (a t ω σ).1) (a t ω σ).2 r σ') : Alone ok t (.step g a k) σ r σ'

namespace Prog.Alone

variable {α β : Type} {ok : Ω → Prop} {t : Nat} {σ σ₁ σ' : S}

theorem andThen {p : Prog Ω S E α} {f : Except E α → Prog Ω S E β} {r : Except E α} {r' : Except E β} (hp : p.Alone ok t σ r σ₁) :
    (f r).Alone ok t σ₁ r' σ' → (p.andThen f).Alone ok t σ r' σ' := by
  induction hp with
  | ret r σ => exact fun hf => hf
  | step ω hω hg _ ih => exact fun hf => .step ω hω hg (ih hf)

theorem bind {p : Prog Ω S E α} {f : α → Prog Ω S E β} {a : α} {r : Except E β} (hp : p.Alone ok t σ (.ok a) σ₁)
    (hf : (f a).Alone ok t σ₁ r σ') : (p >>= f).Alone ok t σ r σ' :=
  hp.andThen (f := Prog.onOk f) hf

theorem bind_error {p : Prog Ω S E α} {f : α → Prog Ω S E β} {e : E} (hp : p.Alone ok t σ (.error e) σ') :
    (p >>= f).Alone ok t σ (.error e) σ' :=
  hp.andThen (f := Prog.onOk f) (.ret _ _)

theorem await {g : S → Bool} {a : Act Ω S E α} {r : Except E α} (ω : Ω) (hω : ok ω) (hg : g σ = true) (h : a t ω σ = (r, σ')) :
    (Prog.await g a).Alone ok t σ r σ' := by
  refine .step ω hω hg ?_
  rw [h]
  exact .ret r σ'

theorem atomic {a : Act Ω S E α} {r : Except E α} (ω : Ω) (hω : ok ω) (h : a t ω σ = (r, σ')) : (Prog.atomic a).Alone ok t σ r σ' :=
  await ω hω rfl h

/-- The last thread of a pool runs alone. -/
theorem steps {allowed : Config Ω S E L R → Move Ω L → Prop} {code : L → Prog Ω S E R} {l : L} {ths : List (Thread Ω S E L R)}
    (he : ∀ c ω, ok ω → allowed c (.exec ths.length ω)) {p : Prog Ω S E R} {r : Except E R} (ha : p.Alone ok ths.length σ r σ') :
    Steps (fun c m => Config.move code c m) allowed ⟨σ, ths ++ [⟨l, p⟩]⟩ ⟨σ', ths ++ [⟨l, .ret r⟩]⟩ := by
  induction ha with
  | ret r σ => exact Steps.refl _
  | step ω hω hg _ ih =>
    refine ((Steps.refl _).tail (he _ ω hω) ?_).trans ih
    simp only [Config.move, List.getElem?_concat_length, hg, if_true, List.set_append_right _ _ (Nat.le_refl _), Nat.sub_self,
      List.set_cons_zero]

end Prog.Alone

variable {allowed : Move Ω L → Prop} {code : L → Prog Ω S E R} {σ₀ : S}

/-- What is reached from a reachable configuration is reachable. -/
theorem Reachable.steps {more : Config Ω S E L R → Move Ω L → Prop} {c c' : Config Ω S E L R} (hr : Reachable allowed code σ₀ c)
    (hm : ∀ c m, more c m → allowed m) (h : Steps (fun c m => Config.move code c m) more c c') : Reachable allowed code σ₀ c' :=
  h.invariant (P := Reachable allowed code σ₀) (fun c m _ ha hs hr => .move m (hm c m ha) hr hs) hr

/-- A thread started in a reachable configuration may run alone. -/
theorem Reachable.alone {ok : Ω → Prop} {l : L} {r : Except E R} {c : Config Ω S E L R} {σ' : S} (hr : Reachable allowed code σ₀ c)
    (hl : allowed (.spawn l)) (he : ∀ t ω, ok ω → allowed (.exec t ω)) (ha : (code l).Alone ok c.threads.length c.shared r σ') :
    Reachable allowed code σ₀ ⟨σ', c.threads ++ [⟨l, .ret r⟩]⟩ :=
  Reachable.steps (.move (.spawn l) hl hr rfl) (fun _ m (h : allowed m) => h) (ha.steps fun _ => he _)

end Conc
