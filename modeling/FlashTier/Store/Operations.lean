/-
What holds in every state of the store backend: the flags agree with the call in progress, every
operation in hand has one record, the pending map holds those that are not retired, and the counters
count them.
-/
import FlashTier.Store.Hands

namespace FlashTier

open Conc

namespace NvmeBackend

variable {s s' : NvmeBackend} {a : Action} {w : Nat}

/-! ## Flags and phases -/

theorem raise_ok {m : Extents} (h : m.Ok) (c : OpContext) : (m.raise c).Ok :=
  ⟨h.opened, h.running, h.size, h.small, h.nodup, h.free, h.count⟩

/-- A step that leaves the call in progress where it is. -/
theorem FlowOk.keep (hf : FlowOk s) (hfd : s'.fd = s.fd) (hopen : s'.map.opened = s.map.opened) (hmap : s.map.Ok → s'.map.Ok)
    (hstop : s'.map.stopping = s.map.stopping) (hphase : s'.phase = s.phase) (hq : s.queue = [] → s'.queue = [])
    (hw : s.workers = [] → s'.workers = []) : FlowOk s' := by
  refine ⟨?_, ?_, ?_, ?_, ?_⟩
  · rw [hfd, hopen]
    exact hf.fd
  · intro ho hc
    rw [hopen] at ho
    rw [hphase] at hc
    exact hmap (hf.map ho hc)
  · intro ho
    rw [hopen] at ho
    obtain ⟨h1, h2, h3⟩ := hf.closed ho
    exact ⟨hq h1, hw h2, hphase.trans h3⟩
  · intro next hp
    exact hq (hf.joining next (hphase ▸ hp))
  · intro hc
    rw [hstop]
    exact hf.stopping (hphase ▸ hc)

/-- The call in progress goes on, with the store open. -/
theorem FlowOk.phase (hf : FlowOk s) (ho : s.map.opened = true) (p : StorePhase) (hp : p.closing = s.phase.closing)
    (hj : ∀ next, p = .joining next → s.queue = []) : FlowOk { s with phase := p } := by
  refine ⟨hf.fd, fun _ hc => hf.map ho (hp.symm.trans hc), fun hc => ?_, hj, fun hc => hf.stopping (hp.symm.trans hc)⟩
  have hc : s.map.opened = false := hc
  rw [ho] at hc
  cases hc

theorem flow_openAfter (hc : s.map.opened = false) (hfd : s.fd = false) (hq : s.queue = []) (hw : s.workers = [])
    (hp : s.phase = .free) (a : OpenArgs) (answer : OpenAnswer) : FlowOk (s.openAfter a answer) := by
  have hj : ∀ next, s.phase = .joining next → s.queue = [] := fun _ _ => hq
  have hstop : ∀ {b : Bool}, s.phase.closing = true → b = true := fun h => by
    rw [hp] at h
    cases h
  rcases s.openAfter_cases a answer with h | ⟨map, hmap, h⟩
  · rw [h]
    exact ⟨hfd.trans hc.symm, fun ho => (by rw [hc] at ho; cases ho), fun _ => ⟨hq, hw, hp⟩, hj, hstop⟩
  · obtain ⟨-, hok, -⟩ := Extents.openMap_ok hmap
    rcases h with h | h | h <;> rw [h]
    · refine ⟨hok.opened.symm, fun _ _ => hok, fun ho => ?_, hj, hstop⟩
      have ho : map.opened = false := ho
      rw [hok.opened] at ho
      cases ho
    · exact ⟨hfd, fun ho => (by cases ho), fun _ => ⟨hq, hw, hp⟩, hj, hstop⟩
    · exact ⟨rfl, fun ho => (by cases ho), fun _ => ⟨hq, rfl, hp⟩, hj, hstop⟩

theorem flow_beginClose (hf : FlowOk s) (next : Option OpenArgs) (answer : OpenAnswer) : FlowOk (s.beginClose next answer) := by
  unfold beginClose
  split
  · rename_i h
    simp only [Bool.and_eq_true, Bool.not_eq_true'] at h
    obtain ⟨hq, hw, hp⟩ := hf.closed h.1
    cases next with
    | none => exact hf
    | some a => exact flow_openAfter h.1 h.2 hq hw hp a answer
  · rename_i h
    have ho : s.map.opened = true := by
      by_contra hn
      simp [hf.fd, hn] at h
    refine ⟨hf.fd, fun _ hc => (by cases hc), fun hc => ?_, fun next hn => (by cases hn), fun _ => rfl⟩
    have hc : s.map.opened = false := hc
    rw [ho] at hc
    cases hc

theorem flow_callStep (hf : FlowOk s) (hfree : s.phase = .free) (h : s.callStep a = some s') : FlowOk s' := by
  have hok : s.map.opened = true → s.map.Ok := fun ho => hf.map ho (by rw [hfree]; rfl)
  unfold callStep at h
  cases a with
  | submit r =>
    simp only at h
    rcases hs : s.submit r with e | s₁
    · rw [hs] at h
      cases h
      exact hf
    · rw [hs] at h
      cases h
      have ho : s.map.opened = true := by
        by_contra hn
        rw [submit_of_closed (by simpa using hn)] at hs
        cases hs
      obtain ⟨-, rfl⟩ := submit_spec (hok ho) hs
      refine ⟨hf.fd, fun _ _ => raise_ok (hok ho) _, fun hc => ?_, fun next hn => ?_, hf.stopping⟩
      · have hc : s.map.opened = false := hc
        rw [ho] at hc
        cases hc
      · have hn : s.phase = .joining next := hn
        rw [hfree] at hn
        cases hn
  | extents k =>
    cases h
    by_cases ho : s.map.opened = true
    · have hk := ((Extents.call_effect (hok ho) k).keeps (hok ho)).1
      exact hf.keep rfl (hk.opened.trans ho.symm) (fun _ => hk) (hk.running.trans (hok ho).running.symm) rfl id id
    · rw [call_of_closed (by simpa using ho)]
      exact hf
  | cancelAll =>
    simp only [Option.some.injEq] at h
    subst h
    split
    · rename_i ho
      exact hf.phase ho .cancelling (by rw [hfree]; rfl) fun next hn => by cases hn
    · exact hf
  | flush i =>
    simp only at h
    split at h
    · cases h
    · cases h
      refine ⟨hf.fd, fun ho _ => hok ho, fun hc => ?_, fun next hn => ?_, fun hc => ?_⟩
      · have hc : s.map.opened = false := hc
        exact ⟨(hf.closed hc).1, (hf.closed hc).2.1, by simp [hc]⟩
      · simp only at hn
        split at hn <;> cases hn
      · simp only at hc
        split at hc <;> cases hc
  | close =>
    cases h
    exact flow_beginClose hf _ _
  | openStore args answer =>
    cases h
    exact flow_beginClose hf _ _
  | _ => cases h

/-- A call in progress has the store open. -/
theorem FlowOk.opened (hf : FlowOk s) (h : s.phase ≠ .free) : s.map.opened = true := by
  by_contra hn
  exact h (hf.closed (by simpa using hn)).2.2

theorem flow_cancelFirst (hf : FlowOk s) {c : OpContext} {rest : List OpContext} (hq : s.queue = c :: rest) :
    FlowOk (s.cancelFirst c rest) := by
  refine hf.keep rfl rfl (fun h => Extents.retire_ok h _ _) rfl rfl (fun hn => ?_) id
  rw [hq] at hn
  cases hn

theorem flow_phaseStep (hf : FlowOk s) (h : s.phaseStep a = some s') : FlowOk s' := by
  unfold phaseStep at h
  cases a with
  | drain =>
    simp only at h
    split at h
    · rename_i hp hq
      cases h
      exact hf.phase (hf.opened (by simp [hp])) .free (by rw [hp]; rfl) fun next hn => by cases hn
    · rename_i next hp hq
      cases h
      exact hf.phase (hf.opened (by simp [hp])) (.joining next) (by rw [hp]; rfl) fun _ _ => hq
    · rename_i hq
      cases h
      exact flow_cancelFirst hf hq
    · rename_i hq
      cases h
      exact flow_cancelFirst hf hq
    · cases h
  | snapshot =>
    simp only at h
    split at h
    · rename_i call hp
      cases h
      exact hf.phase (hf.opened (by simp [hp])) _ (by rw [hp]; rfl) fun next hn => by cases hn
    · cases h
  | wait =>
    simp only at h
    split at h
    · rename_i call id rest hp
      have ho := hf.opened (by simp [hp])
      split at h
      · cases h
      all_goals
        cases h
        exact hf.phase ho _ (by rw [hp]; rfl) fun next hn => by cases hn
    · cases h
  | fsync ok =>
    simp only at h
    split at h
    · rename_i call hp
      cases h
      exact hf.phase (hf.opened (by simp [hp])) .free (by rw [hp]; rfl) fun next hn => by cases hn
    · cases h
  | join answer =>
    simp only at h
    split at h
    · rename_i next hp
      split at h
      · cases h
        have hq := hf.joining next hp
        cases next with
        | none => exact ⟨rfl, fun ho => (by cases ho), fun _ => ⟨hq, rfl, rfl⟩, fun next hn => (by cases hn), fun hc => (by cases hc)⟩
        | some a => exact flow_openAfter (s := { s.clear with phase := .free }) rfl rfl hq rfl rfl a answer
      · cases h
    · cases h
  | _ => cases h

theorem flow_workerStep (hf : FlowOk s) (h : s.workerStep a = some s') : FlowOk s' := by
  unfold workerStep at h
  have hset : ∀ {w x}, s.workers = [] → s.workers.set w x = [] := fun hw => by rw [hw]; rfl
  cases a with
  | take w =>
    simp only at h
    split at h
    · rename_i c rest hw hq
      split at h
      · cases h
      · cases h
        refine hf.keep rfl rfl id rfl rfl (fun hn => ?_) hset
        rw [hq] at hn
        cases hn
    · split at h
      · cases h
      · cases h
        exact hf.keep rfl rfl id rfl rfl id hset
    · cases h
  | io w r =>
    simp only at h
    split at h
    · split at h
      · split at h
        · cases h
          exact hf.keep rfl rfl id rfl rfl id hset
        · cases h
      · cases h
        exact hf.keep rfl rfl id rfl rfl id hset
    · cases h
  | retire w =>
    simp only at h
    split at h
    · split at h
      · cases h
      · cases h
        exact hf.keep rfl rfl (fun h => Extents.retire_ok h _ _) rfl rfl id hset
    · cases h
  | publish w =>
    simp only at h
    split at h
    · cases h
      exact hf.keep rfl rfl id rfl rfl id hset
    · cases h
  | _ => cases h

theorem flow_step (hf : FlowOk s) (h : s.step a = some s') : FlowOk s' := by
  unfold step at h
  cases a with
  | submit | extents | cancelAll | flush | close | openStore =>
    simp only at h
    split at h
    · rename_i hfree
      exact flow_callStep hf hfree h
    · cases h
  | drain | snapshot | wait | fsync | join => exact flow_phaseStep hf h
  | take | io | retire | publish => exact flow_workerStep hf h
  | callFlush =>
    cases h
    exact hf.keep rfl rfl id rfl rfl id id

theorem flow_initial : FlowOk initial :=
  ⟨rfl, fun ho => (by cases ho), fun _ => ⟨rfl, rfl, rfl⟩, fun next hn => (by cases hn), fun hc => (by cases hc)⟩

/-! ## Records and the pending map -/

/-- Every operation in hand has one record and one place; the others have settled. -/
structure OpsOk (H : Multiset Hand) (ops : Nat → AsyncOp) (n : Nat) (pending : List Nat) : Prop where
  nodup : (H.map fun x => x.1.op).Nodup
  inHand : ∀ x ∈ H, x.1.op < n ∧ InHand x (ops x.1.op)
  settled : ∀ id < n, id ∉ H.map (fun x => x.1.op) → (ops id).Settled
  pending : (pending : Multiset Nat) = H.bind Hand.pending

section
variable {H R : Multiset Hand} {ops : Nat → AsyncOp} {n : Nat} {pending pending' : List Nat} {c : OpContext} {st st' : OpStage}
  {f : AsyncOp → AsyncOp}

theorem mem_bind_pending {id : Nat} : id ∈ H.bind Hand.pending ↔ ∃ x ∈ H, x.2.active = true ∧ x.1.op = id := by
  rw [Multiset.mem_bind]
  refine exists_congr fun x => and_congr_right fun _ => ?_
  unfold Hand.pending
  split
  · rename_i ha
    simp [ha, eq_comm]
  · rename_i ha
    simp [ha]

/-- No other operation in hand has the same number. -/
theorem OpsOk.not_mem (h : OpsOk ((c, st) ::ₘ R) ops n pending) : c.op ∉ R.map fun x => x.1.op := by
  have := h.nodup
  rw [Multiset.map_cons, Multiset.nodup_cons] at this
  exact this.1

theorem OpsOk.op_ne (h : OpsOk ((c, st) ::ₘ R) ops n pending) {x : Hand} (hx : x ∈ R) : x.1.op ≠ c.op := by
  intro he
  exact h.not_mem (he ▸ Multiset.mem_map_of_mem _ hx)

theorem OpsOk.record (h : OpsOk ((c, st) ::ₘ R) ops n pending) : InHand (c, st) (ops c.op) :=
  (h.inHand _ (Multiset.mem_cons_self _ _)).2

/-- The others are as they were when the record of one changes. -/
theorem OpsOk.others (h : OpsOk ((c, st) ::ₘ R) ops n pending) (f : AsyncOp → AsyncOp) :
    ∀ x ∈ R, x.1.op < n ∧ InHand x (updated ops c.op f x.1.op) := by
  intro x hx
  rw [updated_ne (h.op_ne hx)]
  exact h.inHand x (Multiset.mem_cons_of_mem hx)

/-- The pending map without the operation. -/
theorem OpsOk.filter_pending (h : OpsOk ((c, st) ::ₘ R) ops n pending) :
    ((pending.filter (· ≠ c.op) : List Nat) : Multiset Nat) = R.bind Hand.pending := by
  have hR : ∀ id ∈ R.bind Hand.pending, id ≠ c.op := by
    intro id hid
    obtain ⟨x, hx, -, rfl⟩ := mem_bind_pending.1 hid
    exact h.op_ne hx
  rw [← Multiset.filter_coe, h.pending, Multiset.cons_bind, Multiset.filter_add, Multiset.filter_eq_self.2 hR]
  have hc : (Hand.pending (c, st)).filter (· ≠ c.op) = 0 := by
    unfold Hand.pending
    split <;> simp
  rw [hc, zero_add]

/-- The operation in hand goes on. -/
theorem OpsOk.change (h : OpsOk ((c, st) ::ₘ R) ops n pending) (hf : InHand (c, st') (f (ops c.op)))
    (hp : (pending' : Multiset Nat) = Hand.pending (c, st') + R.bind Hand.pending) :
    OpsOk ((c, st') ::ₘ R) (updated ops c.op f) n pending' := by
  refine ⟨?_, fun x hx => ?_, fun id hid hn => ?_, ?_⟩
  · have := h.nodup
    rw [Multiset.map_cons] at this ⊢
    exact this
  · rcases Multiset.mem_cons.1 hx with rfl | hx
    · refine ⟨(h.inHand _ (Multiset.mem_cons_self _ _)).1, ?_⟩
      rw [updated_self]
      exact hf
    · exact h.others f x hx
  · rw [Multiset.map_cons] at hn
    have hne : id ≠ c.op := fun he => hn (he ▸ Multiset.mem_cons_self _ _)
    rw [updated_ne hne]
    refine h.settled id hid ?_
    rw [Multiset.map_cons]
    exact hn
  · rw [Multiset.cons_bind]
    exact hp

/-- The operation in hand settles. -/
theorem OpsOk.drop (h : OpsOk ((c, st) ::ₘ R) ops n pending) (hf : (f (ops c.op)).Settled)
    (hp : (pending' : Multiset Nat) = R.bind Hand.pending) : OpsOk R (updated ops c.op f) n pending' := by
  refine ⟨?_, h.others f, fun id hid hn => ?_, hp⟩
  · have := h.nodup
    rw [Multiset.map_cons, Multiset.nodup_cons] at this
    exact this.2
  · by_cases he : id = c.op
    · rw [he, updated_self]
      exact hf
    · rw [updated_ne he]
      refine h.settled id hid ?_
      rw [Multiset.map_cons, Multiset.mem_cons]
      rintro (h' | h')
      · exact he h'
      · exact hn h'

/-- An operation is accepted. -/
theorem OpsOk.add (h : OpsOk H ops n pending) (hc : c.op = n) :
    OpsOk ((c, .queued) ::ₘ H) (fun i => if i = n then { size := c.bytes } else ops i) (n + 1) (n :: pending) := by
  have hlt : ∀ x ∈ H, x.1.op ≠ n := fun x hx => Nat.ne_of_lt (h.inHand x hx).1
  refine ⟨?_, fun x hx => ?_, fun id hid hn => ?_, ?_⟩
  · rw [Multiset.map_cons, Multiset.nodup_cons]
    refine ⟨fun hm => ?_, h.nodup⟩
    obtain ⟨x, hx, he⟩ := Multiset.mem_map.1 hm
    exact hlt x hx (he.trans hc)
  · rcases Multiset.mem_cons.1 hx with rfl | hx
    · refine ⟨by show c.op < n + 1; omega, ?_⟩
      rw [if_pos hc]
      exact ⟨rfl, rfl, rfl, rfl⟩
    · rw [if_neg (hlt x hx)]
      exact ⟨Nat.lt_succ_of_lt (h.inHand x hx).1, (h.inHand x hx).2⟩
  · rw [Multiset.map_cons, Multiset.mem_cons, not_or] at hn
    have hne : id ≠ n := fun he => hn.1 (he.trans hc.symm)
    rw [if_neg hne]
    exact h.settled id (by omega) hn.2
  · rw [Multiset.cons_bind, ← h.pending, ← Multiset.cons_coe, ← Multiset.singleton_add]
    show {n} + (pending : Multiset Nat) = {c.op} + (pending : Multiset Nat)
    rw [hc]

end

/-- Retiring an operation leaves its record. -/
theorem inHand_publishing {c : OpContext} {outcome : OpOutcome} {o : AsyncOp} (h : InHand (c, .retiring outcome) o) :
    InHand (c, .publishing outcome) o := by
  cases outcome <;> exact h

/-- What a worker publishes settles the operation. -/
theorem settled_publish {c : OpContext} {outcome : OpOutcome} {o : AsyncOp} (h : InHand (c, .publishing outcome) o) :
    (outcome.publish o).Settled := by
  obtain ⟨hst, hsize, hrest⟩ := h
  have hsize : o.size = c.bytes := hsize
  cases outcome with
  | complete bytes =>
    obtain ⟨hm, hb, ht⟩ := hrest
    have hb : bytes = c.bytes := hb
    have he : OpOutcome.publish o (.complete bytes) = { o with bytesDone := bytes, status := .complete } := if_neg (by simp [hst])
    rw [he]
    exact ⟨by simp, fun _ => ⟨hb.trans hsize.symm, hm.trans (hb.trans hsize.symm)⟩, fun hc => (by cases hc), ht.le⟩
  | fail e =>
    have he : OpOutcome.publish o (.fail e) = { o with error := some e, status := .failed } := if_neg (by simp [hst])
    rw [he]
    exact ⟨by simp, fun hc => (by cases hc), fun hc => (by cases hc), hrest.le⟩

theorem settled_cancel {c : OpContext} {o : AsyncOp} (h : InHand (c, .queued) o) : o.cancel.Settled := by
  obtain ⟨hst, -, hm, ht⟩ := h
  have he : o.cancel = { o with status := .cancelled } := if_neg (by simp [hst])
  rw [he]
  exact ⟨by simp, fun hc => (by cases hc), fun _ => ⟨hm, ht⟩, by simp [ht]⟩

/-- The records and the pending map agree with what is in hand. -/
def Recorded (s : NvmeBackend) : Prop := OpsOk s.hands s.ops s.opCount s.pending

theorem updated_id (ops : Nat → AsyncOp) (id : Nat) : updated ops id (fun o => o) = ops := by
  funext i
  unfold updated
  split <;> rfl

theorem recorded_change (hc : Change s s') (h : Recorded s) : Recorded s' := by
  unfold Recorded at h ⊢
  cases hc with
  | same hh ho hp hm => rw [hh, ho.1, ho.2, hp]; exact h
  | submitted r hok hin hs =>
    subst hs
    show OpsOk (handsOf (s.queue ++ [s.nextContext r]) s.workers) _ _ _
    rw [handsOf_append]
    exact h.add rfl
  | extents k hok hs => subst hs; exact h
  | advanced c st st' f R hb ha hact ho hp hm hrec =>
    rw [hb] at h
    rw [ha, ho.1, ho.2, hp]
    refine h.change (hrec h.record) ?_
    rw [h.pending, Multiset.cons_bind]
    simp only [Hand.pending, hact.1, hact.2]
  | retired c outcome R hb ha ho hp hm =>
    rw [hb] at h
    rw [ha, ho.1, ho.2, hp]
    have := h.change (f := fun o => o) (inHand_publishing h.record) (h.filter_pending.trans (zero_add _).symm)
    rw [updated_id] at this
    exact this
  | published c outcome R hb ha ho hp hm =>
    rw [hb] at h
    rw [ha, ho.1, ho.2, hp]
    exact h.drop (settled_publish h.record) (h.pending.trans ((Multiset.cons_bind _ _ _).trans (zero_add _)))
  | cancelled c R hb ha ho hp hm =>
    rw [hb] at h
    rw [ha, ho.1, ho.2, hp]
    exact h.drop (settled_cancel h.record) h.filter_pending
  | reset hb ha ho hp hm =>
    rw [hb] at h
    rw [ha, ho.1, ho.2]
    refine ⟨h.nodup, h.inHand, h.settled, ?_⟩
    rcases hp with hp | hp
    · rw [hp]
      rfl
    · rw [hp]
      exact h.pending

/-! ## Counters of active operations -/

/-- The extents' counters count the operations that are queued or being executed, on allocated extents. -/
structure IoOk (H : Multiset Hand) (m : Extents) : Prop where
  io : m.ioBag = H.bind Hand.io
  inside : ∀ x ∈ H, x.2.active = true → x.1.Inside m

theorem ioBag_eq_zero {m : Extents} (h : ∀ i, m.activeIo i = 0) : m.ioBag = 0 := by
  ext i
  rw [Extents.count_ioBag, h, ite_self, Multiset.count_zero]

theorem ioBag_same {m m' : Extents} (h : SameMap m m') : m'.ioBag = m.ioBag := Extents.ioBag_congr h.extentCount h.activeIo

theorem inside_congr {c : OpContext} {m m' : Extents} (h : c.Inside m) (hp : m'.pageSize = m.pageSize)
    (he : m'.extentCount = m.extentCount) (hu : ∀ i ∈ c.extents, m.used i = true → m'.used i = true) : c.Inside m' :=
  ⟨by rw [hp]; exact h.offset, by rw [hp]; exact h.bytes, h.pos, by rw [he]; exact h.inside, fun i hi => hu i hi (h.used i hi)⟩

/-- An extent that an active operation covers has a counter above zero. -/
theorem IoOk.pos {H : Multiset Hand} {m : Extents} (h : IoOk H m) {x : Hand} (hx : x ∈ H) (ha : x.2.active = true) {i : Nat}
    (hi : i ∈ x.1.extents) : m.activeIo i ≠ 0 := by
  have hmem : i ∈ m.ioBag := by
    rw [h.io, Multiset.mem_bind]
    refine ⟨x, hx, ?_⟩
    rw [Hand.io, if_pos ha]
    exact hi
  have := Multiset.count_pos.2 hmem
  rw [Extents.count_ioBag] at this
  split at this <;> omega

/-- The counter of an extent is at most the number of operations in the pending map. -/
theorem activeIo_le {H : Multiset Hand} {m : Extents} (h : IoOk H m) {pending : List Nat}
    (hp : (pending : Multiset Nat) = H.bind Hand.pending) {i : Nat} (hi : i < m.extentCount) : m.activeIo i ≤ pending.length := by
  have hc : m.activeIo i = (H.bind Hand.io).count i := by
    rw [← h.io, Extents.count_ioBag, if_pos hi]
  rw [hc, Multiset.count_bind, ← Multiset.coe_card, hp, Multiset.card_bind]
  refine Multiset.sum_map_le_sum_map _ _ fun x _ => ?_
  show (Hand.io x).count i ≤ (Hand.pending x).card
  unfold Hand.io Hand.pending
  split
  · rw [Multiset.card_singleton]
    exact Multiset.nodup_iff_count_le_one.1 (Extents.nodup_range _ _) i
  · exact Nat.zero_le _

theorem IoOk.change {m : Extents} {c : OpContext} {st st' : OpStage} {R : Multiset Hand}
    (h : IoOk ((c, st) ::ₘ R) m) (ha : st.active = true ∧ st'.active = true) : IoOk ((c, st') ::ₘ R) m := by
  refine ⟨?_, fun x hx hact => ?_⟩
  · rw [h.io, Multiset.cons_bind, Multiset.cons_bind]
    simp only [Hand.io, ha.1, ha.2]
  · rcases Multiset.mem_cons.1 hx with rfl | hx
    · exact h.inside (c, st) (Multiset.mem_cons_self _ _) ha.1
    · exact h.inside x (Multiset.mem_cons_of_mem hx) hact

/-- An operation leaves its extents. -/
theorem IoOk.retire {m : Extents} {c : OpContext} {st : OpStage} {R : Multiset Hand} (h : IoOk ((c, st) ::ₘ R) m)
    (ha : st.active = true) : IoOk R (m.retire c.firstExtent c.extentCount) := by
  have hio := h.io
  rw [Multiset.cons_bind, Hand.io, if_pos ha] at hio
  exact ⟨Extents.ioBag_retire hio, fun x hx hact =>
    inside_congr (h.inside x (Multiset.mem_cons_of_mem hx) hact) rfl rfl fun _ _ hu => hu⟩

theorem IoOk.cons_inactive {m : Extents} {c : OpContext} {st : OpStage} {R : Multiset Hand} (ha : st.active = false) :
    IoOk ((c, st) ::ₘ R) m ↔ IoOk R m := by
  have hz : Hand.io (c, st) = 0 := by
    rw [Hand.io, ha]
    rfl
  constructor
  · intro h
    refine ⟨?_, fun x hx => h.inside x (Multiset.mem_cons_of_mem hx)⟩
    rw [h.io, Multiset.cons_bind, hz, zero_add]
  · intro h
    refine ⟨?_, fun x hx hact => ?_⟩
    · rw [h.io, Multiset.cons_bind, hz, zero_add]
    · rcases Multiset.mem_cons.1 hx with rfl | hx
      · rw [ha] at hact
        cases hact
      · exact h.inside x hx hact

/-- An accepted operation raises the counters of its extents, none of which is at its maximum. -/
theorem IoOk.add {H : Multiset Hand} {m : Extents} {c : OpContext} (h : IoOk H m) (hin : c.Inside m)
    (hmax : ∀ i < m.extentCount, m.activeIo i + 1 < 2 ^ 32) : IoOk ((c, .queued) ::ₘ H) (m.raise c) := by
  have hlt : ∀ i ∈ c.extents, i < m.extentCount := fun i hi => by
    have := Extents.mem_range.1 hi
    have := hin.inside
    omega
  refine ⟨?_, fun x hx hact => ?_⟩
  · ext i
    rw [Multiset.cons_bind, Multiset.count_add, ← h.io, Extents.count_ioBag, Extents.count_ioBag]
    show (if i < m.extentCount then
      (if Extents.Within c.firstExtent c.extentCount i then (m.activeIo i + 1) % 2 ^ 32 else m.activeIo i) else 0) =
      (Extents.range c.firstExtent c.extentCount).count i + _
    rw [Extents.count_range]
    by_cases hw : Extents.Within c.firstExtent c.extentCount i = true
    · have hi : i < m.extentCount := hlt i (Extents.mem_range_iff_within.2 hw)
      rw [if_pos hi, if_pos hw, if_pos hw, if_pos hi, Nat.mod_eq_of_lt (hmax i hi), Nat.add_comm]
    · rw [if_neg hw, if_neg hw, Nat.zero_add]
  · rcases Multiset.mem_cons.1 hx with rfl | hx
    · exact inside_congr hin rfl rfl fun _ _ hu => hu
    · exact inside_congr (h.inside x hx hact) rfl rfl fun _ _ hu => hu

/-- A call of the allocator takes no extent away from an active operation. -/
theorem IoOk.call {H : Multiset Hand} {m : Extents} (h : IoOk H m) (hok : m.Ok) (k : Extents.Call) : IoOk H (m.call k).2 := by
  have he := Extents.call_effect hok k
  generalize (m.call k).1 = a at he
  generalize (m.call k).2 = m' at he
  cases he with
  | took ht =>
    refine ⟨(Extents.ioBag_congr ht.geometry.2 ht.io).trans h.io, fun x hx hact => ?_⟩
    refine inside_congr (h.inside x hx hact) ht.geometry.1 ht.geometry.2 fun i hi hu => ?_
    have hlt : i < m.extentCount := by
      have := Extents.mem_range.1 hi
      have := (h.inside x hx hact).inside
      omega
    have hmem : i ∈ m'.usedBag := by
      rw [ht.bag]
      exact Multiset.mem_add.2 (.inr (Extents.mem_usedBag.2 ⟨hlt, hu⟩))
    exact (Extents.mem_usedBag.1 hmem).2
  | gave hf hk hio =>
    refine ⟨(Extents.ioBag_congr hf.geometry.2 hf.io).trans h.io, fun x hx hact => ?_⟩
    refine inside_congr (h.inside x hx hact) hf.geometry.1 hf.geometry.2 fun i hi hu => ?_
    have hlt : i < m.extentCount := by
      have := Extents.mem_range.1 hi
      have := (h.inside x hx hact).inside
      omega
    -- the extent has an active operation, so it is not among those given back
    have hmem : i ∈ m.usedBag := Extents.mem_usedBag.2 ⟨hlt, hu⟩
    rw [hf.bag, Multiset.mem_add] at hmem
    rcases hmem with hmem | hmem
    · exact absurd (hio i hmem) (h.pos hx hact hi)
    · exact (Extents.mem_usedBag.1 hmem).2
  | refused => exact h
  | threw => exact h

/-- The counters agree with what is in hand. -/
def Counted (s : NvmeBackend) : Prop := IoOk s.hands s.map

theorem counted_change (hc : Change s s') (hr : Recorded s) (hfew : s'.pending.length < 2 ^ 32) (h : Counted s) : Counted s' := by
  unfold Counted at h ⊢
  cases hc with
  | same hh ho hp hm =>
    rw [hh]
    exact ⟨(ioBag_same hm).trans h.io, fun x hx hact =>
      inside_congr (h.inside x hx hact) hm.pageSize hm.extentCount fun i _ hu => by rw [hm.used]; exact hu⟩
  | submitted r hok hin hs =>
    subst hs
    show IoOk (handsOf (s.queue ++ [s.nextContext r]) s.workers) (s.map.raise (s.nextContext r))
    rw [handsOf_append]
    refine h.add hin fun i hi => ?_
    have hle := activeIo_le h hr.pending hi
    have : (s.opCount :: s.pending).length < 2 ^ 32 := hfew
    rw [List.length_cons] at this
    omega
  | extents k hok hs =>
    subst hs
    exact h.call hok k
  | advanced c st st' f R hb ha hact ho hp hm hrec =>
    rw [hb] at h
    rw [ha, hm]
    exact h.change hact
  | retired c outcome R hb ha ho hp hm =>
    rw [hb] at h
    rw [ha, hm, IoOk.cons_inactive rfl]
    exact h.retire rfl
  | published c outcome R hb ha ho hp hm =>
    rw [hb, IoOk.cons_inactive rfl] at h
    rw [ha, hm]
    exact h
  | cancelled c R hb ha ho hp hm =>
    rw [hb] at h
    rw [ha, hm]
    exact h.retire rfl
  | reset hb ha ho hp hm =>
    rw [hb] at h
    rw [ha]
    refine ⟨?_, fun x hx => (Multiset.notMem_zero x hx).elim⟩
    rcases hm with hm | hm
    · rw [hm]
      exact h.io
    · exact ioBag_eq_zero hm

end NvmeBackend

end FlashTier
