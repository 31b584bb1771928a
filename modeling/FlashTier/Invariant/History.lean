/-
What the recorded history says about a page: its size, content, pinned flag and owners, replayed from
the events that concern it. An event that concerns another page changes none of them.
-/
import FlashTier.Runtime.State

namespace FlashTier

/-! ## Replay -/

/-- The page an event changes what is replayed of. -/
def Event.page : Event → Option PageId
  | .alloc _ id .. | .wrote _ id _ | .torn _ id .. | .pin _ id _ | .claim _ id | .release _ id _ | .settle _ id ..
  | .freed _ id _ | .erase _ id => some id
  | _ => none

/-- The bytes of a page: those it was allocated with, those of the last write, or what a failed write left. -/
def contentIn : List Event → PageId → Option (List UInt8)
  | [], _ => none
  | .alloc _ i _ _ c :: h, id => if i = id then some c else contentIn h id
  | .wrote _ i d :: h, id => if i = id then some d else contentIn h id
  | .torn _ i _ _ l :: h, id => if i = id then some l else contentIn h id
  | _ :: h, id => contentIn h id

/-- The bytes of the last write to the page that committed. -/
def lastWrite : List Event → PageId → Option (List UInt8)
  | [], _ => none
  | .alloc _ i _ _ _ :: h, id => if i = id then none else lastWrite h id
  | .wrote _ i d :: h, id => if i = id then some d else lastWrite h id
  | _ :: h, id => lastWrite h id

/-- The allocation size of a page, from the first event that allocates it. -/
def sizeIn : List Event → PageId → Option Nat
  | [], _ => none
  | .alloc _ i n _ _ :: h, id => (sizeIn h id).or (if i = id then some n else none)
  | _ :: h, id => sizeIn h id

/-- The pinned flag of a page. -/
def pinnedIn : List Event → PageId → Bool
  | [], _ => false
  | .alloc _ i _ b _ :: h, id => if i = id then b else pinnedIn h id
  | .pin _ i b :: h, id => if i = id then b else pinnedIn h id
  | _ :: h, id => pinnedIn h id

/-- The threads that have taken a page and not given it back. -/
def ownersIn : List Event → PageId → List Nat
  | [], _ => []
  | .alloc _ i _ _ _ :: h, id => if i = id then [] else ownersIn h id
  | .claim t i :: h, id => if i = id then t :: ownersIn h id else ownersIn h id
  | .release t i _ :: h, id => if i = id then t :: ownersIn h id else ownersIn h id
  | .settle t i _ _ :: h, id => if i = id then (ownersIn h id).erase t else ownersIn h id
  | _ :: h, id => ownersIn h id

/-- The life of a page: not in the table, in it, and in it after `free_page` has taken it. -/
inductive Phase where
  | absent | live | released
  deriving DecidableEq, Repr

/-- The phase of a page. -/
def phaseIn : List Event → PageId → Phase
  | [], _ => .absent
  | .alloc _ i _ _ _ :: h, id => if i = id then .live else phaseIn h id
  | .release _ i _ :: h, id => if i = id then .released else phaseIn h id
  | .erase _ i :: h, id => if i = id then .absent else phaseIn h id
  | _ :: h, id => phaseIn h id

/-- What `free_page` still has to release of a page it has taken. -/
def heldIn : List Event → PageId → List Resource
  | [], _ => []
  | .release _ i owned :: h, id => if i = id then owned else heldIn h id
  | .freed _ i r :: h, id => if i = id then (heldIn h id).filter (· ≠ r) else heldIn h id
  | _ :: h, id => heldIn h id

/-- The phase of a page of the table. -/
def PageState.phase : PageState → Phase
  | .released => .released
  | _ => .live

theorem PageState.phase_of_transfer {s : PageState} (h : s.transfer = true) : s.phase = .live := by
  cases s <;> first | rfl | cases h

/-- The pages allocated so far. -/
def allocIds : List Event → List PageId
  | [] => []
  | .alloc _ i _ _ _ :: h => i :: allocIds h
  | _ :: h => allocIds h

/-- What is replayed of a page is the same in two histories. -/
structure SameReplay (h h' : List Event) (id : PageId) : Prop where
  content : contentIn h' id = contentIn h id
  written : lastWrite h' id = lastWrite h id
  size : sizeIn h' id = sizeIn h id
  pinned : pinnedIn h' id = pinnedIn h id
  owners : ownersIn h' id = ownersIn h id
  phase : phaseIn h' id = phaseIn h id
  held : heldIn h' id = heldIn h id

theorem SameReplay.refl (h : List Event) (id : PageId) : SameReplay h h id := ⟨rfl, rfl, rfl, rfl, rfl, rfl, rfl⟩

theorem sameReplay_cons {e : Event} {id : PageId} (he : e.page ≠ some id) (h : List Event) :
    SameReplay h (e :: h) id := by
  cases e <;> simp only [Event.page, ne_eq, Option.some.injEq, reduceCtorEq, not_false_eq_true] at he <;>
    constructor <;> simp [contentIn, lastWrite, sizeIn, pinnedIn, ownersIn, phaseIn, heldIn, he]

theorem sameReplay_append {id : PageId} (h : List Event) :
    ∀ {pre : List Event}, (∀ e ∈ pre, e.page ≠ some id) → SameReplay h (pre ++ h) id
  | [], _ => SameReplay.refl h id
  | e :: pre, he => by
    have h1 := sameReplay_append h fun e' he' => he e' (List.mem_cons_of_mem _ he')
    have h2 := sameReplay_cons (he e (List.mem_cons_self ..)) (pre ++ h)
    exact ⟨h2.content.trans h1.content, h2.written.trans h1.written, h2.size.trans h1.size, h2.pinned.trans h1.pinned,
      h2.owners.trans h1.owners, h2.phase.trans h1.phase, h2.held.trans h1.held⟩

theorem sizeIn_append {h : List Event} {id : PageId} {n : Nat} (hs : sizeIn h id = some n) :
    ∀ pre : List Event, sizeIn (pre ++ h) id = some n
  | [] => hs
  | e :: pre => by
    have ih := sizeIn_append hs pre
    cases e <;> simp [sizeIn, ih]

theorem sizeIn_suffix {h h' : List Event} {id : PageId} {n : Nat} (hs : sizeIn h id = some n) (hle : h <:+ h') :
    sizeIn h' id = some n := by
  obtain ⟨pre, rfl⟩ := hle
  exact sizeIn_append hs pre

theorem mem_allocIds_of_sizeIn : ∀ {h : List Event} {id : PageId} {n : Nat}, sizeIn h id = some n → id ∈ allocIds h
  | e :: h, id, n, hs => by
    cases e <;> simp only [sizeIn, allocIds] at hs ⊢
    case alloc t i m b c =>
      rcases ho : sizeIn h id with _ | k
      · rw [ho, Option.none_or] at hs
        split at hs
        · rename_i hi; rw [hi]; exact List.mem_cons_self ..
        · cases hs
      · exact List.mem_cons_of_mem _ (mem_allocIds_of_sizeIn ho)
    all_goals exact mem_allocIds_of_sizeIn hs

theorem mem_allocIds_append {h : List Event} {id : PageId} (ha : id ∈ allocIds h) : ∀ pre : List Event, id ∈ allocIds (pre ++ h)
  | [] => ha
  | e :: pre => by
    have ih := mem_allocIds_append ha pre
    cases e <;> simp [allocIds, ih]

/-! ## Events that must not happen, and facts of every event -/

/-- A write that threw after it changed bytes of a page whose NVMe copy stays marked valid. -/
def Event.spoils : Event → Bool
  | .torn _ _ true before left => before ≠ left
  | _ => false

/-- No failed write spoiled a copy. -/
def Clean (h : List Event) : Prop := ∀ e ∈ h, e.spoils = false

theorem Clean.of_suffix {h h' : List Event} (hc : Clean h') (hle : h <:+ h') : Clean h :=
  fun e he => hc e (hle.subset he)

/-- A release call failed. -/
def Event.releaseFailed : Event → Bool
  | .failed _ c => c.release
  | _ => false

/-- A backend call failed. -/
def Event.callFailed : Event → Bool
  | .failed .. => true
  | _ => false

/-- An internal assertion threw or a counter wrapped. -/
def Event.breach : Event → Bool
  | .assertion .. | .wrapped _ => true
  | _ => false

/-- The events after the first `ticket` ones are dropped. -/
def historyAt (h : List Event) (ticket : Nat) : List Event := h.drop (h.length - ticket)

theorem historyAt_append (pre h : List Event) {ticket : Nat} (hle : ticket ≤ h.length) :
    historyAt (pre ++ h) ticket = historyAt h ticket := by
  unfold historyAt
  rw [List.length_append, List.drop_append, List.drop_eq_nil_of_le (by omega), List.nil_append]
  congr 1
  omega

/-- A fact of each event and what was recorded before it. -/
def Each (P : Event → List Event → Prop) : List Event → Prop
  | [] => True
  | e :: h => P e h ∧ Each P h

def decidableEach {P : Event → List Event → Prop} [∀ e h, Decidable (P e h)] : ∀ h, Decidable (Each P h)
  | [] => inferInstanceAs (Decidable True)
  | _ :: h => @instDecidableAnd _ _ inferInstance (decidableEach h)

theorem Each.of_suffix {P : Event → List Event → Prop} :
    ∀ {pre : List Event} {e : Event} {h : List Event}, Each P (pre ++ e :: h) → P e h
  | [], _, _, hp => hp.1
  | _ :: _, _, _, hp => Each.of_suffix hp.2

theorem Each.drop {P : Event → List Event → Prop} : ∀ {pre h : List Event}, Each P (pre ++ h) → Each P h
  | [], _, hp => hp
  | _ :: _, _, hp => Each.drop hp.2

/-- The bytes of some pages. -/
def bytesIn (h : List Event) (ids : List PageId) : Nat := (ids.map fun id => (sizeIn h id).getD 0).sum

/-- What holds of a throw of the planner: what it was given does not cover the need, and what is recorded with it is a
page table and a budget within its limits. -/
structure Refusal.Ok (r : Refusal) (before : List Event) : Prop where
  short : r.planner.headroom + bytesIn before r.candidates < r.need
  nodup : (r.pages.map PageMetadata.id).Nodup
  size : ∀ p ∈ r.pages, sizeIn before p.id = some p.allocationSize
  budget : r.budget.Ok

/-- What holds of an event when it is recorded: a page is allocated once, taken by a transfer only before
`free_page` takes it, taken by `free_page` from nobody and again with what it has not released yet, and erased only
then; what is released of it was still to be released; an automatic move saw the page in the table with its pinned flag unset when it last
looked and records what it is; a read took the page's bytes, unless a copy was spoiled; a write that
threw changed bytes only when its device copy failed; the planner refused only what its free bytes and
candidates could not cover. -/
def EventOk (e : Event) (before : List Event) : Prop :=
  match e with
  | .alloc _ id .. => id ∉ allocIds before
  | .claim _ id => phaseIn before id = .live
  | .release _ id owned =>
    phaseIn before id ≠ .absent ∧ (phaseIn before id = .released → ∀ r, r ∈ owned ↔ r ∈ heldIn before id) ∧ ownersIn before id = []
  | .freed _ id r => r ∈ heldIn before id
  | .erase _ id => phaseIn before id = .released
  | .autoMove _ id ticket pinned =>
    pinned = pinnedIn before id ∧ ticket ≤ before.length ∧ id ∈ allocIds (historyAt before ticket) ∧
      pinnedIn (historyAt before ticket) id = false
  | .read _ id bytes => id ∈ allocIds before ∧ (Clean before → contentIn before id = some bytes)
  | .torn t id _ bytes left =>
    (Clean before → contentIn before id = some bytes) ∧ (bytes ≠ left → .failed t .deviceCopy ∈ before)
  | .refused _ r => r.Ok before
  | _ => e.breach = false

end FlashTier
