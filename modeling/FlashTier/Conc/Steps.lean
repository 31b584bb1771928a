/-
Step systems: a partial step function on states, the runs all of whose steps are admitted, the rules
for what a run preserves, and runs that can be evaluated.
-/
import Mathlib.Logic.Relation
import Mathlib.Data.Multiset.AddSub

namespace Conc

universe u v

variable {S : Type u} {A : Type v} {step : S → A → Option S} {allowed : S → A → Prop} {s s' s'' : S}

/-- From `s`, some run all of whose steps are admitted ends in `s'`. -/
def Steps (step : S → A → Option S) (allowed : S → A → Prop) : S → S → Prop :=
  Relation.ReflTransGen fun s s' => ∃ a, allowed s a ∧ step s a = some s'

namespace Steps

theorem refl (s : S) : Steps step allowed s s := Relation.ReflTransGen.refl

theorem tail {a : A} (h : Steps step allowed s s') (ha : allowed s' a) (hs : step s' a = some s'') :
    Steps step allowed s s'' :=
  Relation.ReflTransGen.tail h ⟨a, ha, hs⟩

theorem trans (h : Steps step allowed s s') (h' : Steps step allowed s' s'') : Steps step allowed s s'' :=
  Relation.ReflTransGen.trans h h'

theorem mono {more : S → A → Prop} (h : Steps step allowed s s') (hm : ∀ s a, allowed s a → more s a) :
    Steps step more s s' := by
  refine Relation.ReflTransGen.mono ?_ _ _ h
  rintro s s' ⟨a, ha, hs⟩
  exact ⟨a, hm s a ha, hs⟩

/-- What every admitted step preserves, a run preserves. -/
theorem invariant {P : S → Prop} (h : Steps step allowed s s')
    (hstep : ∀ s a s', allowed s a → step s a = some s' → P s → P s') (hs : P s) : P s' := by
  induction h with
  | refl => exact hs
  | tail _ hlast ih =>
    obtain ⟨a, ha, hstep'⟩ := hlast
    exact hstep _ a _ ha hstep' ih

/-- What relates the two ends of every admitted step relates the two ends of a run. -/
theorem relate {P : S → Prop} {R : S → S → Prop} (hrefl : ∀ s, R s s) (htrans : ∀ s s' s'', R s s' → R s' s'' → R s s'')
    (hP : ∀ s a s', allowed s a → step s a = some s' → P s → P s')
    (hR : ∀ s a s', allowed s a → step s a = some s' → P s → R s s') (h : Steps step allowed s s') (hs : P s) : R s s' := by
  induction h with
  | refl => exact hrefl _
  | tail hprev hlast ih =>
    obtain ⟨a, ha, hstep⟩ := hlast
    exact htrans _ _ _ ih (hR _ a _ ha hstep (invariant hprev hP hs))

/-- A list of actions, in order; `none` when one is not admitted or not enabled. -/
def run (step : S → A → Option S) (allowed : S → A → Prop) [∀ s a, Decidable (allowed s a)] : S → List A → Option S
  | s, [] => some s
  | s, a :: as => if allowed s a then (step s a).bind fun s' => run step allowed s' as else none

theorem of_run [∀ s a, Decidable (allowed s a)] : ∀ {as : List A} {s s' : S}, run step allowed s as = some s' →
    Steps step allowed s s'
  | [], s, s', h => by
    cases h
    exact refl s
  | a :: as, s, s', h => by
    unfold run at h
    split at h
    · rename_i ha
      obtain ⟨s₁, hs, h⟩ := Option.bind_eq_some_iff.1 h
      exact (tail (refl s) ha hs).trans (of_run h)
    · cases h

/-- A run that can be evaluated. -/
theorem of_test (step : S → A → Option S) (allowed : S → A → Prop) [∀ s a, Decidable (allowed s a)] (s : S) (as : List A)
    (P : S → Prop) [DecidablePred P] (h : (run step allowed s as).any (fun s' => P s') = true) : ∃ s', Steps step allowed s s' ∧ P s' := by
  obtain ⟨s', hr, hp⟩ := (Option.any_eq_true _ _).1 h
  exact ⟨s', of_run hr, of_decide_eq_true hp⟩

end Steps

/-- Replacing an entry of a list replaces it in the bag. -/
theorem bag_set {α : Type} {l : List α} {i : Nat} {a : α} (h : l[i]? = some a) (b : α) :
    ∃ rest : Multiset α, (l : Multiset α) = a ::ₘ rest ∧ (l.set i b : Multiset α) = b ::ₘ rest := by
  obtain ⟨hi, rfl⟩ := List.getElem?_eq_some_iff.1 h
  refine ⟨(l.eraseIdx i : List α), ?_, ?_⟩
  · exact (Multiset.coe_eq_coe.2 (List.getElem_cons_eraseIdx_perm hi)).symm
  · exact Multiset.coe_eq_coe.2 (List.set_perm_cons_eraseIdx hi b)

end Conc
