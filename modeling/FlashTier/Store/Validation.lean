/-
The two checks of a store file: `store_header_valid` (`storage_backend.cpp`), which reads it with the standard
library, and `open` (`nvme_backend.cpp`), which reads it in as many `pread` calls as it takes. On every file
they come to the same verdict, `open` changes no byte of a file it found, and accepts again what it created.
-/
import FlashTier.Store.Header
import FlashTier.Store.Run

namespace FlashTier

open Codec

/-- The header in the first block of a file, if there is a whole one. -/
def headerOf (bytes : List UInt8) : Option StoreHeader :=
  if h : bytes.length = 4096 then some (StoreHeader.ofImage ⟨bytes, h⟩) else none

/-! ## `store_header_valid` -/

/-- What the standard library answers: the file opens, the bytes `fread` delivers, the seek to the end. -/
structure StdioAnswers where
  opens : Bool := true
  got : Nat
  seeks : Bool := true

/-- Nothing fails: the block is read up to its end or that of the file. -/
structure StdioAnswers.Serves (io : StdioAnswers) (file : List UInt8) : Prop where
  opens : io.opens = true
  got : io.got = min 4096 file.length
  seeks : io.seeks = true

/-- `store_header_valid`, on a file of these bytes. -/
def storeHeaderValid (file : List UInt8) (io : StdioAnswers) (pageSize capacityBytes : UInt64) : Except Trap Bool :=
  if io.opens = false then .ok false
  else match headerOf (file.take io.got) with
    | none => .ok false
    | some h => do
      let reason ← headerMismatchReason h pageSize capacityBytes
      if reason ≠ "" then pure false
      else do
        let limit ← checkedSub uint64Max h.pageSize
        if limit < h.capacityBytes then pure false
        else pure (io.seeks && file.length == (h.capacityBytes + h.pageSize).toNat)

/-! ## `open` -/

/-- The memory for the extents' tables. -/
inductive MemoryAnswer where
  | granted | badAlloc | lengthError
  deriving DecidableEq, Repr

/-- What the system answers the calls of `open`: the text of an error where one may come, and the results of
the calls that read or write the header. -/
structure OpenIo where
  memory : MemoryAnswer := .granted
  createError : Option String := none
  openError : Option String := none
  lockError : Option String := none
  statError : Option String := none
  regular : Bool := true
  reads : List IoResult := []
  truncateError : Option String := none
  writes : List IoResult := []
  syncError : Option String := none
  destroyError : Option Error := none
  threadsStart : Bool := true

/-- How `open` ends: the file it leaves, its result, where an exception that is no `Error` is `none`, and
whether a failure came after a `close`. -/
structure Opening where
  disk : Option (List UInt8)
  result : Except (Option Error) Unit
  closed : Bool := true

/-- The answer the backend's step system sees. -/
def Opening.answer (o : Opening) : NvmeBackend.OpenAnswer :=
  match o.result with
  | .ok _ => .opened
  | .error _ => .failed o.closed

/-- The arguments of `open`. -/
structure OpenRequest where
  path : String
  capacityBytes : UInt64
  pageSize : UInt64

namespace OpenRequest

variable (a : OpenRequest) (io : OpenIo)

def args : OpenArgs := ⟨a.path, a.capacityBytes.toNat, a.pageSize.toNat⟩

/-- `impl_->file_size`. -/
def fileSize : UInt64 := a.capacityBytes + a.pageSize

def ioError (what message : String) : Error := ⟨.io, what ++ message, a.path⟩

/-- The workers are started; the store is open. -/
def startWorkers (disk : List UInt8) : Opening :=
  { disk := some disk, result := if io.threadsStart then .ok () else .error none }

/-- The end with an error after `close`. -/
def rejected (disk : Option (List UInt8)) (e : Error) : Opening := { disk := disk, result := .error (some e) }

/-- The checks of a header that was read in full. -/
def checkHeader (file : List UInt8) (h : StoreHeader) : Except Trap Opening := do
  let reason ← headerMismatchReason h a.pageSize a.capacityBytes
  if reason ≠ "" then pure (rejected (some file) ⟨.storeCorrupt, "existing store rejected: " ++ reason, a.path⟩)
  else if file.length ≠ a.fileSize.toNat then
    pure (rejected (some file) ⟨.storeCorrupt, "existing store file size does not match its header",
      "expected " ++ toString a.fileSize ++ " bytes, found " ++ toString file.length⟩)
  else pure (startWorkers io file)

/-- The bytes that the calls have read. -/
def bytesRead (file : List UInt8) (t : Transfer IoResult) : List UInt8 := t.pieces.flatMap fun p => field file p.start p.count

/-- An existing file; `none` while the loop of `pread` calls goes on. -/
def openExisting (file : List UInt8) : Except Trap (Option Opening) :=
  let t := transfer IoResult.turn 4096 0 io.reads
  match t.ending with
  | none => .ok none
  | some (.stopped (.failed message)) => .ok (some (rejected (some file) (a.ioError "pread header failed: " message)))
  | _ => match headerOf (bytesRead file t) with
    | none => .ok (some (rejected (some file) ⟨.storeCorrupt, "existing store has truncated header", a.path⟩))
    | some h => do
      let opening ← a.checkHeader io file h
      pure (some opening)

/-- A file that was created is deleted again before the error; the deletion may fail with its own. -/
def undo (file : List UInt8) (e : Error) : Opening :=
  match io.destroyError with
  | none => rejected none e
  | some e' => rejected (some file) e'

/-- A new file; `none` while the loop of `pwrite` calls goes on. -/
def openCreated : Option Opening :=
  match io.truncateError with
  | some message => some (undo io [] (a.ioError "ftruncate failed: " message))
  | none =>
    let zeros := List.replicate a.fileSize.toNat (0 : UInt8)
    let t := transfer IoResult.turn 4096 0 io.writes
    let image := (openHeader a.pageSize a.capacityBytes).image
    let file := t.pieces.foldl (fun file p => splice file p.start (field image p.start p.count)) zeros
    match t.ending with
    | none => none
    | some (.stopped (.failed message)) => some (undo io file (a.ioError "pwrite header failed: " message))
    | some (.stopped _) => some (undo io file (a.ioError "pwrite header failed: " "zero-byte write"))
    | some .complete => match io.syncError with
      | some message => some (undo io file (a.ioError "fsync header failed: " message))
      | none => some (startWorkers io file)

/-- An error before anything of the file is looked at. -/
def refuse (disk : Option (List UInt8)) (e : Error) (closed : Bool) : Except Trap (Option Opening) :=
  .ok (some { disk := disk, result := .error (some e), closed := closed })

/-- `open` with its file in hand. -/
def openLocked (disk : Option (List UInt8)) : Except Trap (Option Opening) :=
  match io.lockError with
  | some message => refuse (some (disk.getD [])) (a.ioError "store is already open or cannot be locked: " message) false
  | none => match io.statError with
    | some message =>
      match disk with
      | none => .ok (some (undo io [] (a.ioError "fstat store failed: " message)))
      | some file => refuse (some file) (a.ioError "fstat store failed: " message) true
    | none =>
      if io.regular = false then refuse (some (disk.getD [])) ⟨.invalidArgument, "store path is not a regular file", a.path⟩ true
      else match disk with
        | none => .ok (a.openCreated io)
        | some file => a.openExisting io file

/-- `open`, after the `close` it begins with. -/
def openStore (disk : Option (List UInt8)) : Except Trap (Option Opening) :=
  match validateStoreGeometry a.path a.capacityBytes.toNat a.pageSize.toNat maxOffset maxOffset with
  | .error e => refuse disk e false
  | .ok () => match io.memory with
    | .badAlloc => refuse disk ⟨.invalidArgument, "store geometry requires too much allocation metadata", ""⟩ false
    | .lengthError => refuse disk ⟨.invalidArgument, "store extent count exceeds the allocation metadata limit", ""⟩ false
    | .granted => match io.createError, disk, io.openError with
      | some message, _, _ => refuse disk (a.ioError "create store failed: " message) false
      | none, some file, some message => refuse (some file) (a.ioError "open store failed: " message) false
      | none, _, _ => a.openLocked io disk

end OpenRequest

/-! ## A file that can be read -/

/-- The calls for the header on a file of these bytes, from `total` on: some of the bytes left, in any number
of calls, none only at the end of the file, and no error. -/
def ReadsOf (file : List UInt8) : Nat → List IoResult → Prop
  | _, [] => True
  | total, .interrupted :: rest => ReadsOf file total rest
  | _, .failed _ :: _ => False
  | total, .zero :: _ => file.length ≤ total
  | total, .moved n :: rest => 0 < n ∧ total + n ≤ 4096 ∧ total + n ≤ file.length ∧ (total + n < 4096 → ReadsOf file (total + n) rest)

/-- The file can be opened, locked and read, and the loop over it comes to its end. -/
structure OpenIo.Serves (io : OpenIo) (file : List UInt8) : Prop where
  memory : io.memory = .granted
  create : io.createError = none
  opens : io.openError = none
  lock : io.lockError = none
  stat : io.statError = none
  regular : io.regular = true
  threads : io.threadsStart = true
  reads : ReadsOf file 0 io.reads
  ends : (transfer IoResult.turn 4096 0 io.reads).ending ≠ none

/-- When the loop has ended, the bytes read are those of the block or of the file, whichever is less. -/
theorem readsOf_tiles {file : List UInt8} {results : List IoResult} {total : Nat} (h : ReadsOf file total results)
    (ht : total < 4096) (hf : total ≤ file.length) (hend : (transfer IoResult.turn 4096 total results).ending ≠ none) :
    Tiles total (transfer IoResult.turn 4096 total results).pieces (min 4096 file.length) ∧
      ∀ message, (transfer IoResult.turn 4096 total results).ending ≠ some (.stopped (.failed message)) := by
  induction results generalizing total with
  | nil => exact absurd rfl hend
  | cons r rest ih =>
    cases r with
    | interrupted => exact ih h ht hf hend
    | failed => exact h.elim
    | zero =>
      have htotal : total = min 4096 file.length := by
        have : file.length ≤ total := h
        omega
      refine ⟨?_, fun message hm => (by cases hm)⟩
      rw [← htotal]
      exact .nil _
    | moved n =>
      obtain ⟨hn, hle, hlen, hrest⟩ := h
      by_cases hlt : total + n < 4096
      · simp only [transfer, IoResult.turn, if_pos hlt, Transfer.after] at hend ⊢
        obtain ⟨htiles, hstop⟩ := ih (hrest hlt) hlt hlen hend
        exact ⟨.cons hn htiles, hstop⟩
      · have htotal : total + n = min 4096 file.length := by omega
        simp only [transfer, IoResult.turn, if_neg hlt]
        refine ⟨.cons hn ?_, fun message hm => (by cases hm)⟩
        rw [htotal]
        exact .nil _

theorem bytesRead_eq {file : List UInt8} {results : List IoResult} (h : ReadsOf file 0 results)
    (hend : (transfer IoResult.turn 4096 0 results).ending ≠ none) :
    OpenRequest.bytesRead file (transfer IoResult.turn 4096 0 results) = file.take 4096 := by
  obtain ⟨htiles, -⟩ := readsOf_tiles h (by decide) (Nat.zero_le _) hend
  rw [OpenRequest.bytesRead, htiles.flatMap_field, Nat.sub_zero, field, List.drop_zero, ← List.take_eq_take_min]

/-! ## The verdicts -/

/-- A whole header that the checks accept, in a file of the size it gives. -/
def FileAccepted (file : List UInt8) (pageSize capacityBytes : UInt64) : Prop :=
  ∃ h, headerOf (file.take 4096) = some h ∧ Accepted h pageSize capacityBytes ∧ file.length = (h.capacityBytes + h.pageSize).toNat

theorem storeHeaderValid_spec {file : List UInt8} {io : StdioAnswers} (hio : io.Serves file) (pageSize capacityBytes : UInt64) :
    ∃ valid, storeHeaderValid file io pageSize capacityBytes = .ok valid ∧ (valid = true ↔ FileAccepted file pageSize capacityBytes) := by
  have hread : file.take io.got = file.take 4096 := by rw [hio.got, ← List.take_eq_take_min]
  unfold storeHeaderValid FileAccepted
  rw [hio.opens, hread, hio.seeks, if_neg (by decide)]
  rcases headerOf (file.take 4096) with _ | h
  · exact ⟨false, rfl, iff_of_false (by decide) (by rintro ⟨h, hh, -⟩; cases hh)⟩
  obtain ⟨reason, hrun, hiff⟩ := headerMismatchReason_spec h pageSize capacityBytes
  simp only
  rw [hrun, ok_bind]
  by_cases hreason : reason = ""
  · have hacc := hiff.1 hreason
    rw [if_neg (not_not.2 hreason), checkedSub_of_le (le_uint64Max h.pageSize), ok_bind, if_neg (UInt64.not_lt.2 hacc.fits), Bool.true_and]
    refine ⟨_, rfl, ?_⟩
    rw [beq_iff_eq]
    constructor
    · intro hlen
      exact ⟨h, rfl, hacc, hlen⟩
    · rintro ⟨h', hh, -, hlen⟩
      cases hh
      exact hlen
  · rw [if_pos hreason]
    refine ⟨false, rfl, iff_of_false (by decide) ?_⟩
    rintro ⟨h', hh, hacc, -⟩
    cases hh
    exact hreason (hiff.2 hacc)

namespace OpenRequest

variable {a : OpenRequest} {io : OpenIo} {file : List UInt8}

/-- The geometry is one the backend takes. -/
def Valid (a : OpenRequest) : Prop := validateStoreGeometry a.path a.capacityBytes.toNat a.pageSize.toNat maxOffset maxOffset = .ok ()

/-- A file in hand: accepted and left as it is, or rejected as corrupt and left as it is. -/
def Verdict (a : OpenRequest) (file : List UInt8) (o : Opening) : Prop :=
  o.disk = some file ∧
    (o.result = .ok () ∧ FileAccepted file a.pageSize a.capacityBytes ∨
      ¬FileAccepted file a.pageSize a.capacityBytes ∧ o.closed = true ∧ ∃ e, o.result = .error (some e) ∧ e.code = .storeCorrupt)

theorem Valid.nonzero (hv : a.Valid) : a.pageSize ≠ 0 ∧ a.capacityBytes ≠ 0 := by
  have hgeom := geometry_ok hv
  refine ⟨fun h => ?_, fun h => ?_⟩
  · have hpage := hgeom.page
    rw [h, UInt64.toNat_zero] at hpage
    exact Nat.not_succ_le_zero _ hpage
  · exact hgeom.capacity (by rw [h]; rfl)

/-- An accepted header has the geometry asked for, so its file has the size asked for. -/
theorem Valid.size (hv : a.Valid) {h : StoreHeader} (hacc : Accepted h a.pageSize a.capacityBytes) :
    (h.capacityBytes + h.pageSize).toNat = a.fileSize.toNat := by
  rw [hacc.page.resolve_left hv.nonzero.1, hacc.capacity.resolve_left hv.nonzero.2]
  rfl

theorem checkHeader_spec (hv : a.Valid) (ht : io.threadsStart = true) {h : StoreHeader} (hh : headerOf (file.take 4096) = some h) :
    ∃ o, a.checkHeader io file h = .ok o ∧ a.Verdict file o := by
  obtain ⟨reason, hrun, hiff⟩ := headerMismatchReason_spec h a.pageSize a.capacityBytes
  unfold checkHeader
  rw [hrun, ok_bind]
  -- the header of the file is the only one there is to accept
  have honly : FileAccepted file a.pageSize a.capacityBytes → Accepted h a.pageSize a.capacityBytes ∧ file.length = a.fileSize.toNat := by
    rintro ⟨h', hh', hacc, hlen⟩
    rw [hh] at hh'
    cases hh'
    exact ⟨hacc, hlen.trans (hv.size hacc)⟩
  by_cases hreason : reason = ""
  · have hacc := hiff.1 hreason
    rw [if_neg (not_not.2 hreason)]
    by_cases hlen : file.length = a.fileSize.toNat
    · rw [if_neg (not_not.2 hlen)]
      refine ⟨_, rfl, rfl, .inl ⟨?_, h, hh, hacc, hlen.trans (hv.size hacc).symm⟩⟩
      show (if io.threadsStart then Except.ok () else Except.error none) = _
      rw [if_pos ht]
    · rw [if_pos hlen]
      exact ⟨_, rfl, rfl, .inr ⟨fun hfile => hlen (honly hfile).2, rfl, _, rfl, rfl⟩⟩
  · rw [if_pos hreason]
    exact ⟨_, rfl, rfl, .inr ⟨fun hfile => hreason (hiff.2 (honly hfile).1), rfl, _, rfl, rfl⟩⟩

theorem openExisting_spec (hv : a.Valid) (hio : io.Serves file) : ∃ o, a.openExisting io file = .ok (some o) ∧ a.Verdict file o := by
  have hbytes := bytesRead_eq hio.reads hio.ends
  obtain ⟨-, hnofail⟩ := readsOf_tiles hio.reads (by decide) (Nat.zero_le _) hio.ends
  unfold openExisting
  simp only
  rw [hbytes]
  -- whether the loop read the block or met the end of the file, the header decides
  have hdecide : ∃ o, (match headerOf (file.take 4096) with
      | none => .ok (some (rejected (some file) ⟨.storeCorrupt, "existing store has truncated header", a.path⟩))
      | some h => do
        let opening ← a.checkHeader io file h
        pure (some opening) : Except Trap (Option Opening)) = .ok (some o) ∧ a.Verdict file o := by
    rcases hh : headerOf (file.take 4096) with _ | h
    · refine ⟨_, rfl, rfl, .inr ⟨?_, rfl, _, rfl, rfl⟩⟩
      rintro ⟨h, hh', -⟩
      rw [hh] at hh'
      cases hh'
    · obtain ⟨o, hcheck, hverdict⟩ := checkHeader_spec hv hio.threads hh
      refine ⟨o, ?_, hverdict⟩
      simp only
      rw [hcheck, ok_bind]
      rfl
  rcases hending : (transfer IoResult.turn 4096 0 io.reads).ending with _ | _ | r
  · exact absurd hending hio.ends
  · exact hdecide
  · cases r with
    | failed message => exact absurd hending (hnofail message)
    | _ => exact hdecide

theorem openStore_spec (hv : a.Valid) (hio : io.Serves file) : ∃ o, a.openStore io (some file) = .ok (some o) ∧ a.Verdict file o := by
  have hopen : a.openStore io (some file) = a.openExisting io file := by
    unfold openStore openLocked
    rw [hv, hio.memory, hio.create, hio.opens, hio.lock, hio.stat, hio.regular]
    rfl
  rw [hopen]
  exact openExisting_spec hv hio

/-! ## A file that `open` created -/

theorem Valid.page_le (hv : a.Valid) : a.pageSize.toNat ≤ a.fileSize.toNat := by
  have hword := (geometry_ok hv).word
  have hlt := a.pageSize.toNat_lt
  rw [fileSize, UInt64.toNat_add, Nat.mod_eq_of_lt (by omega)]
  exact Nat.le_add_left _ _

theorem take_splice {img bytes : List UInt8} : (splice img 0 bytes).take bytes.length = bytes := by
  rw [splice, List.take_zero, List.nil_append, List.take_left]

/-- The file of a new store: the header that `open` builds, in a file of the size it gives. -/
theorem openCreated_file (hv : a.Valid) (hw : Lawful IoResult.turn 4096 0 io.writes) {o : Opening} (h : a.openCreated io = some o)
    (hok : o.result = .ok ()) :
    ∃ file, o.disk = some file ∧ file.length = a.fileSize.toNat ∧ file.take 4096 = (openHeader a.pageSize a.capacityBytes).image := by
  have hundo : ∀ file e, (undo io file e).result ≠ .ok () := by
    intro file e
    unfold undo
    rcases io.destroyError with _ | e' <;> intro hr <;> cases hr
  unfold openCreated at h
  split at h
  · cases h
    exact absurd hok (hundo _ _)
  simp only at h
  obtain ⟨t, htiles, -, hcomplete⟩ := transfer_tiles hw (by decide)
  split at h
  · cases h
  · cases h
    exact absurd hok (hundo _ _)
  · cases h
    exact absurd hok (hundo _ _)
  · rename_i hending
    obtain rfl := hcomplete.1 hending
    split at h
    · cases h
      exact absurd hok (hundo _ _)
    · cases h
      have himage := (openHeader a.pageSize a.capacityBytes).length_image
      have hroom : 4096 ≤ a.fileSize.toNat := (geometry_ok hv).page.trans hv.page_le
      have hfile := htiles.foldl_splice (openHeader a.pageSize a.capacityBytes).image (List.replicate a.fileSize.toNat 0)
        (by rw [himage]) (by rw [List.length_replicate]; exact hroom)
      have hall : field (openHeader a.pageSize a.capacityBytes).image 0 (4096 - 0) = (openHeader a.pageSize a.capacityBytes).image := by
        conv_rhs => rw [← field_all (openHeader a.pageSize a.capacityBytes).image, himage]
      rw [hall] at hfile
      refine ⟨_, rfl, ?_, ?_⟩
      · rw [hfile, length_splice (by rw [himage, List.length_replicate, Nat.zero_add]; exact hroom), List.length_replicate]
      · rw [hfile]
        conv_lhs => rw [← himage]
        exact take_splice

/-- A store that was created has gone through all the calls before the header's. -/
theorem openStore_created {o : Opening} (h : a.openStore io none = .ok (some o)) (hok : o.result = .ok ()) : a.openCreated io = some o := by
  have hrefuse : ∀ disk e closed, refuse disk e closed ≠ .ok (some o) := by
    intro disk e closed hr
    cases hr
    cases hok
  unfold openStore at h
  split at h
  · exact absurd h (hrefuse _ _ _)
  split at h
  · exact absurd h (hrefuse _ _ _)
  · exact absurd h (hrefuse _ _ _)
  split at h
  · exact absurd h (hrefuse _ _ _)
  · rename_i hd _
    cases hd
  unfold openLocked at h
  split at h
  · exact absurd h (hrefuse _ _ _)
  split at h
  · rename_i message _
    simp only [undo] at h
    split at h <;> (cases h; cases hok)
  split at h
  · exact absurd h (hrefuse _ _ _)
  · exact Except.ok.inj h

theorem headerOf_image (h : StoreHeader) : headerOf h.image = some h := by
  rw [headerOf, dif_pos h.length_image, h.ofImage_image]

/-- The new store, and every file that has its first page and its size, is accepted. -/
theorem created_accepted (hv : a.Valid) (hw : Lawful IoResult.turn 4096 0 io.writes) {o : Opening} (h : a.openStore io none = .ok (some o))
    (hok : o.result = .ok ()) : ∃ file, o.disk = some file ∧ ∀ file', file'.length = file.length →
      file'.take a.pageSize.toNat = file.take a.pageSize.toNat → FileAccepted file' a.pageSize a.capacityBytes := by
  obtain ⟨file, hdisk, hlen, hhead⟩ := openCreated_file hv hw (openStore_created h hok) hok
  refine ⟨file, hdisk, fun file' hlen' hpage => ?_⟩
  have hacc := (openHeader_accepted hv a.pageSize a.capacityBytes).2 ⟨.inr rfl, .inr rfl⟩
  have hblock : file'.take 4096 = (openHeader a.pageSize a.capacityBytes).image := by
    have htake : ∀ l : List UInt8, l.take 4096 = (l.take a.pageSize.toNat).take 4096 := fun l => by
      rw [List.take_take, Nat.min_eq_left (show 4096 ≤ a.pageSize.toNat from (geometry_ok hv).page)]
    rw [htake, hpage, ← htake, hhead]
  refine ⟨_, by rw [hblock, headerOf_image], hacc, ?_⟩
  rw [hv.size hacc, hlen', hlen]

/-- A backend after the `close` that `open` begins with. -/
def ClosedBackend (s : NvmeBackend) : Prop := s.map.opened = false ∧ s.fd = false

/-- For a geometry the backend takes and every file that can be opened, locked and read, in however many
calls: `open` accepts the file exactly if `store_header_valid` does, and otherwise throws `StoreCorrupt` and
leaves the backend closed; either way the file stays as it is. A file that `open` created is accepted
again, whatever was written behind its first page. -/
theorem validators_agree (a : OpenRequest) (hv : a.Valid) :
    (∀ (file : List UInt8) (io : OpenIo) (stdio : StdioAnswers) (s : NvmeBackend), io.Serves file → stdio.Serves file → ClosedBackend s →
      ∃ valid o, storeHeaderValid file stdio a.pageSize a.capacityBytes = .ok valid ∧
        a.openStore io (some file) = .ok (some o) ∧ o.disk = some file ∧
        (o.result = .ok () ↔ valid = true) ∧
        (valid = true → (s.openAfter a.args o.answer).map.opened = true) ∧
        (valid = false → (∃ e, o.result = .error (some e) ∧ e.code = .storeCorrupt) ∧ ClosedBackend (s.openAfter a.args o.answer))) ∧
    ∀ (io : OpenIo) (o : Opening), Lawful IoResult.turn 4096 0 io.writes → a.openStore io none = .ok (some o) → o.result = .ok () →
      ∃ file, o.disk = some file ∧ ∀ (file' : List UInt8) (io' : OpenIo), file'.length = file.length →
        file'.take a.pageSize.toNat = file.take a.pageSize.toNat → io'.Serves file' →
        ∃ o', a.openStore io' (some file') = .ok (some o') ∧ o'.result = .ok () ∧ o'.disk = some file' := by
  have hmap : Extents.openMap a.path a.capacityBytes.toNat a.pageSize.toNat =
      .ok (Extents.fresh a.pageSize.toNat (a.capacityBytes.toNat / a.pageSize.toNat)) := by
    rw [Extents.openMap, hv]
    rfl
  refine ⟨fun file io stdio s hio hstdio hs => ?_, fun io o hw h hok => ?_⟩
  · obtain ⟨valid, hvalid, hiff⟩ := storeHeaderValid_spec hstdio a.pageSize a.capacityBytes
    obtain ⟨o, hopen, hdisk, ⟨hres, hfile⟩ | ⟨hnot, hclosed, e, hres, hcode⟩⟩ := openStore_spec hv hio
    · have htrue := hiff.2 hfile
      refine ⟨valid, o, hvalid, hopen, hdisk, iff_of_true hres htrue, fun _ => ?_, fun hf => absurd (htrue.symm.trans hf) (by decide)⟩
      simp only [NvmeBackend.openAfter, args, hmap, Opening.answer, hres]
      rfl
    · have hfalse : valid ≠ true := fun ht => hnot (hiff.1 ht)
      refine ⟨valid, o, hvalid, hopen, hdisk, iff_of_false ?_ hfalse, fun ht => absurd ht hfalse, fun _ => ⟨⟨e, hres, hcode⟩, ?_⟩⟩
      · rw [hres]
        intro h
        cases h
      · simp only [NvmeBackend.openAfter, args, hmap, Opening.answer, hres, hclosed]
        exact ⟨rfl, rfl⟩
  · obtain ⟨file, hdisk, hall⟩ := created_accepted hv hw h hok
    refine ⟨file, hdisk, fun file' io' hlen hpage hio => ?_⟩
    obtain ⟨o', hopen, hdisk', ⟨hres, -⟩ | ⟨hnot, -⟩⟩ := openStore_spec hv hio
    · exact ⟨o', hopen, hres, hdisk'⟩
    · exact absurd (hall file' hlen hpage) hnot

/-- An empty file is rejected; a store of two pages is created, and found again in two reads. -/
theorem validators_agree_twoPages :
    (∃ o, openStore ⟨"store", 8192, 4096⟩ { reads := [.interrupted, .zero] } (some []) = .ok (some o) ∧ o.result ≠ .ok ()) ∧
    ∃ file o, openStore ⟨"store", 8192, 4096⟩ { reads := [.moved 1000, .moved 3096] } (some file) = .ok (some o) ∧ o.result = .ok () := by
  have hv : Valid ⟨"store", 8192, 4096⟩ := by simp [Valid, validateStoreGeometry, headerBlockSize, maxOffset]
  obtain ⟨hfound, hcreated⟩ := validators_agree ⟨"store", 8192, 4096⟩ hv
  refine ⟨?_, ?_⟩
  · have hio : OpenIo.Serves { reads := [.interrupted, .zero] } [] := ⟨rfl, rfl, rfl, rfl, rfl, rfl, rfl, Nat.le_refl 0, by decide⟩
    obtain ⟨valid, o, hvalid, hopen, -, hiff, -⟩ := hfound [] _ { got := 0 } .initial hio ⟨rfl, rfl, rfl⟩ ⟨rfl, rfl⟩
    refine ⟨o, hopen, fun hok => ?_⟩
    rw [hiff.1 hok] at hvalid
    cases hvalid
  · have hnew : ∃ o, openStore ⟨"store", 8192, 4096⟩ { writes := [.moved 4096] } none = .ok (some o) ∧ o.result = .ok () := by
      unfold openStore
      rw [hv]
      exact ⟨_, rfl, rfl⟩
    obtain ⟨o, ho, hok⟩ := hnew
    have hlaw : Lawful IoResult.turn 4096 0 [.moved 4096] := by simp [Lawful, IoResult.turn]
    obtain ⟨file, hdisk, hagain⟩ := hcreated _ o hlaw ho hok
    obtain ⟨file', hdisk', hlen, -⟩ := openCreated_file hv hlaw (openStore_created ho hok) hok
    cases hdisk.symm.trans hdisk'
    have hroom : 4096 ≤ file.length := by
      rw [hlen]
      exact (geometry_ok hv).page.trans hv.page_le
    have hreads : ReadsOf file 0 [.moved 1000, .moved 3096] := by
      refine ⟨by decide, by decide, by omega, fun _ => ⟨by decide, by decide, by omega, fun _ => trivial⟩⟩
    obtain ⟨o', hopen, hres, -⟩ := hagain file { reads := [.moved 1000, .moved 3096] } rfl rfl ⟨rfl, rfl, rfl, rfl, rfl, rfl, rfl, hreads, by decide⟩
    exact ⟨file, o', hopen, hres⟩

end OpenRequest

end FlashTier
