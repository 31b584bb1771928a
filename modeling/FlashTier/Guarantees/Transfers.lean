/-
What a transfer leaves behind. A page that an operation takes out of memory on behalf of another page
was not pinned when the operation last looked; a transfer that has claimed a page gives it back
settled, unless a release call of it fails.
-/
import FlashTier.Guarantees.Residency

namespace FlashTier

open Conc

variable {cfg : RuntimeConfig} {disk : Bytes} {c : Runtime} {t : Nat} {id : PageId}

/-! ## Pinned pages -/

/-- What the last of these events that sets the pinned flag of a page sets it to. -/
def lastPin : List Event → PageId → Option Bool
  | [], _ => none
  | .pin _ i b :: h, id => if i = id then some b else lastPin h id
  | _ :: h, id => lastPin h id

/-- The pinned flag is what it was last set to, when the page was allocated before. -/
theorem pinnedIn_append {h : List Event} (ha : id ∈ allocIds h) : ∀ {pre : List Event}, Each EventOk (pre ++ h) →
    pinnedIn (pre ++ h) id = (lastPin pre id).getD (pinnedIn h id)
  | [], _ => rfl
  | e :: pre, hok => by
    have ih := pinnedIn_append ha hok.2
    have hmem : id ∈ allocIds (pre ++ h) := mem_allocIds_append ha pre
    cases e <;> simp only [List.cons_append, pinnedIn, lastPin, ih]
    case alloc s i n b content =>
      have hne : i ≠ id := fun hi => hok.1 (hi ▸ hmem)
      rw [if_neg hne]
    case pin s i b => split <;> rfl

/-- When an automatic eviction takes a page, nobody has pinned it since the eviction last looked at its pinned
flag, or whoever did has unpinned it again. -/
def UnpinnedMeanwhile (h : List Event) : Prop :=
  Each (fun e before => match e with
    | .autoMove _ id ticket _ => lastPin (before.take (before.length - ticket)) id ≠ some true
    | _ => True) h

instance (h : List Event) : Decidable (UnpinnedMeanwhile h) :=
  @decidableEach _ (fun e _ => by cases e <;> dsimp only <;> infer_instance) h

/-- No automatic eviction takes a pinned page, unless the page was pinned between the last look and the claim. -/
theorem pinned_stays (hr : Reached cfg disk c) (hu : UnpinnedMeanwhile c.shared.history) {ticket : Nat} {pinned : Bool}
    (hm : .autoMove t id ticket pinned ∈ c.shared.history) : pinned = false := by
  obtain ⟨T, hi⟩ := reachable_inv hr
  obtain ⟨post, before, he⟩ := List.append_of_mem hm
  have hev : Each EventOk (post ++ .autoMove t id ticket pinned :: before) := he ▸ hi.wf.events
  obtain ⟨hp, hle, ha, hl⟩ := Each.of_suffix hev
  have hsplit : before.take (before.length - ticket) ++ historyAt before ticket = before := List.take_append_drop _ _
  have hbefore : Each EventOk (before.take (before.length - ticket) ++ historyAt before ticket) := by
    rw [hsplit]
    exact (Each.drop hev).2
  unfold UnpinnedMeanwhile at hu
  rw [he] at hu
  have hlast : lastPin (before.take (before.length - ticket)) id ≠ some true := Each.of_suffix hu
  rw [hp, ← hsplit, pinnedIn_append ha hbefore, hl]
  rcases hb : lastPin (before.take (before.length - ticket)) id with _ | _ | _
  · rfl
  · rfl
  · exact absurd hb hlast

/-- `demote_to_host` of the page in the store, up to the snapshot of the victims for its host buffer. -/
def victimChosen : List (Move Env Op) := twoPages ++ .spawn (.demoteToHost 2) :: turns 2 7

/-- The victim may be pinned meanwhile, as long as it is unpinned again. -/
theorem pinned_stays_chosen : ∃ c, Reached (smallConfig 0 1 2) (fun _ => 0) c ∧ .pin 3 1 true ∈ c.shared.history ∧
    UnpinnedMeanwhile c.shared.history ∧ ∃ pinned, .autoMove 2 1 2 pinned ∈ c.shared.history ∧ pinned = false := by
  obtain ⟨c, hr, hpin, hm, hu⟩ := reached_of_test (smallConfig 0 1 2) (fun _ => 0)
    (victimChosen ++ .spawn (.pin 1 true) :: turns 3 2 ++ .spawn (.pin 1 false) :: turns 4 2 ++ turns 2 1)
    (fun c => .pin 3 1 true ∈ c.shared.history ∧ .autoMove 2 1 2 false ∈ c.shared.history ∧ UnpinnedMeanwhile c.shared.history)
    (by decide +kernel)
  exact ⟨c, hr, hpin, hu, false, hm, pinned_stays hr hu hm⟩

/-- A page that is pinned after it was chosen as a victim is evicted all the same. -/
theorem pinned_evicted : ∃ c, Reached (smallConfig 0 1 2) (fun _ => 0) c ∧ .autoMove 2 1 2 true ∈ c.shared.history ∧
    ∃ p ∈ c.shared.table.items, p.id = 1 ∧ p.pinned = true ∧ p.state = .evictingToNvme :=
  reached_of_test (smallConfig 0 1 2) (fun _ => 0)
    (victimChosen ++ .spawn (.pin 1 true) :: turns 3 2 ++ turns 2 1) _ (by decide +kernel)

/-! ## Every claimed transfer settles -/

/-- A transfer that has claimed its page and ended gave it back in a settled state, not in flight, and
then notified the waiters, if and only if no release call it made after the claim failed; otherwise it did not
settle the page at all. -/
theorem transfer_settles (hr : Reached cfg disk c) {kind : TransferKind} {r : Except Error Reply}
    (ht : c.threads[t]? = some ⟨.transfer kind id, .ret r⟩) {after before : List Event}
    (hlog : mine t c.shared.history = after ++ .claim t id :: before) :
    (Settles t id after ↔ ∀ e ∈ after, e.releaseFailed = false) ∧
      ((∃ e ∈ after, e.releaseFailed = true) → ∀ dst busy, .settle t id dst busy ∉ after) := by
  obtain ⟨hs, h⟩ := reached_accounted hr
  obtain ⟨hd, -, -, he⟩ := h.ended ht
  rcases he with ⟨⟨evs, hl, hsp⟩, -⟩ | ⟨a, b, hl, hb, ho⟩
  · have hm : .claim t id ∈ evs ++ [] := by
      rw [← hl, hlog]
      simp
    rw [List.append_nil] at hm
    exact absurd rfl (hsp _ hm t id rfl)
  · rw [List.append_nil] at hl
    have hna : .claim t id ∉ a := fun hm => ho.1 _ hm t id rfl trivial
    have hnb : .claim t id ∉ b := fun hm => hb _ hm t id rfl rfl
    obtain ⟨rfl, -, -⟩ := (List.append_cons_inj_of_notMem hna hnb).1 (hl.symm.trans hlog)
    rcases ho.2 with ⟨-, hset, hok⟩ | ⟨-, ⟨call, hcall, hm⟩, hnone, -⟩
    · refine ⟨⟨fun _ => hok, fun _ => hset⟩, ?_⟩
      rintro ⟨e, he, hf⟩
      rw [hok e he] at hf
      cases hf
    · refine ⟨⟨?_, fun hf => ?_⟩, fun _ => hnone⟩
      · rintro ⟨dst, -, x, y, z, heq⟩
        exact absurd (by rw [heq]; simp) (hnone dst false)
      · have := hf _ hm
        rw [Event.releaseFailed, hcall] at this
        cases this

/-- The transfer of a page out of device memory, up to the end of its copy. -/
def copiedToHost : List (Move Env Op) :=
  .spawn (.allocate { logicalBytes := 10 }) :: turns 0 10 ++ .spawn (.transfer .evictVramToHost 1) :: turns 1 8

theorem transfer_settles_copied : ∃ c, Reached (smallConfig 1 1 2) (fun _ => 0) c ∧
    mine 1 c.shared.history = [.notified 1, .settle 1 1 .residentHost false] ++ .claim 1 1 :: [] ∧
      Settles 1 1 [.notified 1, .settle 1 1 .residentHost false] := by
  obtain ⟨c, hr, hl, hres, hlog⟩ := reached_of_run (smallConfig 1 1 2) (fun _ => 0) (copiedToHost ++ turns 1 4)
    (fun c => c.result 1 = some (.ok .unit) ∧
      mine 1 c.shared.history = [.notified 1, .settle 1 1 .residentHost false] ++ .claim 1 1 :: []) (by decide +kernel)
  have ht : c.threads[1]? = some ⟨.transfer .evictVramToHost 1, .ret (.ok .unit)⟩ :=
    Config.thread_of_result hres (by rw [hl]; rfl)
  exact ⟨c, hr, hlog, (transfer_settles hr ht hlog).1.2 (by decide)⟩

/-- A device buffer that cannot be freed after the copy leaves the page in a transfer state for good. -/
theorem transfer_stuck : ∃ c, Reached (smallConfig 1 1 2) (fun _ => 0) c ∧
    c.result 1 = some (.error ⟨.io, "device free failed", ""⟩) ∧ .claim 1 1 ∈ c.shared.history ∧
      ∃ p ∈ c.shared.table.items, p.id = 1 ∧ p.state = .evictingToHost ∧ p.inFlight = true :=
  reached_of_test (smallConfig 1 1 2) (fun _ => 0)
    (copiedToHost ++ [.exec 1 { deviceFree := some ⟨.io, "device free failed", ""⟩ }]) _ (by decide +kernel)

end FlashTier
