/-
Telemetry events as JSON lines (`telemetry.cpp`): the writer, member by member, and that a line reads back
as one object with the event's fields.
-/
import FlashTier.Codec.Json
import FlashTier.Runtime.Page

namespace FlashTier

open Codec.Json

/-! ## Events -/

/-- `EventType`. -/
inductive EventType where
  | pageAlloc | pageFree | pageWrite | pageRead | transferBegin | transferEnd | evict | prefetchIssue | prefetchHit | prefetchWaste
  | demandFault | stall | integrityCheck | errorEvent | benchmarkBegin | benchmarkEnd | storeOp | configEvent
  deriving DecidableEq, Repr

/-- `event_type_name`. -/
def eventTypeName : EventType → String
  | .pageAlloc => "page_alloc"
  | .pageFree => "page_free"
  | .pageWrite => "page_write"
  | .pageRead => "page_read"
  | .transferBegin => "transfer_begin"
  | .transferEnd => "transfer_end"
  | .evict => "evict"
  | .prefetchIssue => "prefetch_issue"
  | .prefetchHit => "prefetch_hit"
  | .prefetchWaste => "prefetch_waste"
  | .demandFault => "demand_fault"
  | .stall => "stall"
  | .integrityCheck => "integrity_check"
  | .errorEvent => "error"
  | .benchmarkBegin => "benchmark_begin"
  | .benchmarkEnd => "benchmark_end"
  | .storeOp => "store_op"
  | .configEvent => "config"

/-- What the writer sees of a finite double: whether it equals zero, and its `%.6g` rendering, which is a
number of the grammar. -/
structure Double where
  isZero : Bool := true
  text : List UInt8 := [48]
  number : isNumber text = true := by decide

/-- `TelemetryEvent`. Strings are byte strings. -/
structure TelemetryEvent where
  timestampUs : Int := 0
  sequence : Nat := 0
  type : EventType := .pageAlloc
  pageId : Nat := 0
  src : Tier := .none
  dst : Tier := .none
  bytes : Nat := 0
  durationUs : Double := {}
  bandwidthGbS : Double := {}
  policy : List UInt8 := []
  reason : List UInt8 := []
  path : List UInt8 := []
  queueDepth : Nat := 0
  vramUsed : Nat := 0
  vramFree : Nat := 0
  hostUsed : Nat := 0
  hostFree : Nat := 0
  nvmeUsed : Nat := 0
  nvmeFree : Nat := 0
  cacheHit : Bool := false
  prefetchHit : Bool := false
  prefetchWaste : Bool := false
  stallUs : Double := {}
  checksumOk : Bool := true
  checksumExpected : List UInt8 := []
  checksumActual : List UInt8 := []
  cudaError : List UInt8 := []
  errorCode : List UInt8 := []
  logicalSize : Int := 0
  op : List UInt8 := []
  throughput : Double := {}

/-! ## The writer -/

/-- A lower-case hexadecimal digit. -/
def hexDigit (n : Nat) : UInt8 := if n < 10 then UInt8.ofNat (48 + n) else UInt8.ofNat (87 + n)

/-- One byte in `json_escape`. -/
def jsonEscapeByte (c : UInt8) : List UInt8 :=
  if c = 34 then [92, 34]
  else if c = 92 then [92, 92]
  else if c = 10 then [92, 110]
  else if c = 13 then [92, 114]
  else if c = 9 then [92, 116]
  else if c < 0x20 then
    -- "\\u%04x"
    [92, 117, hexDigit (c.toNat / 4096 % 16), hexDigit (c.toNat / 256 % 16), hexDigit (c.toNat / 16 % 16), hexDigit (c.toNat % 16)]
  else [c]

/-- `json_escape`. -/
def jsonEscape (s : List UInt8) : List UInt8 := s.flatMap jsonEscapeByte

/-- The output so far, and the flag `first`. -/
abbrev Output := List UInt8 × Bool

/-- A member with its value's text: a comma unless it is the first. -/
def appendMember (key : String) (text : List UInt8) (o : Output) : Output :=
  (o.1 ++ (if o.2 then [] else [44]) ++ 34 :: (ascii key ++ [34, 58]) ++ text, false)

/-- `append_str`. -/
def appendStr (key : String) (val : List UInt8) (o : Output) : Output :=
  if val.isEmpty then o else appendMember key (34 :: (jsonEscape val ++ [34])) o

/-- `append_u64`. -/
def appendU64 (key : String) (val : Nat) (o : Output) : Output := if val = 0 then o else appendMember key (decimal val) o

/-- `append_i64`. -/
def appendI64 (key : String) (val : Int) (o : Output) : Output := if val = 0 then o else appendMember key (signed val) o

/-- `append_dbl`. -/
def appendDbl (key : String) (val : Double) (o : Output) : Output := if val.isZero then o else appendMember key val.text o

/-- `append_bool`. -/
def appendBool (key : String) (val : Bool) (o : Output) : Output := appendMember key (if val then ascii "true" else ascii "false") o

/-- `append_tier`. -/
def appendTier (key : String) (t : Tier) (o : Output) : Output := if t = .none then o else appendStr key (ascii (tierName t)) o

/-- `telemetry_event_to_jsonl`. -/
def telemetryEventToJsonl (ev : TelemetryEvent) : List UInt8 :=
  let o : Output := (ascii "\x7b" ++ ascii "\"schema\":\"" ++ ascii "1.0" ++ ascii "\"", false)
  let o := appendI64 "timestamp_us" ev.timestampUs o
  let o := appendU64 "sequence" ev.sequence o
  let o := appendStr "event" (ascii (eventTypeName ev.type)) o
  let o := appendU64 "page_id" ev.pageId o
  let o := appendTier "src_tier" ev.src o
  let o := appendTier "dst_tier" ev.dst o
  let o := appendU64 "bytes" ev.bytes o
  let o := appendDbl "duration_us" ev.durationUs o
  let o := appendDbl "bandwidth_gb_s" ev.bandwidthGbS o
  let o := appendStr "policy" ev.policy o
  let o := appendStr "reason" ev.reason o
  let o := appendStr "path" ev.path o
  let o := appendU64 "queue_depth" ev.queueDepth o
  let o := appendU64 "vram_used" ev.vramUsed o
  let o := appendU64 "vram_free" ev.vramFree o
  let o := appendU64 "host_used" ev.hostUsed o
  let o := appendU64 "host_free" ev.hostFree o
  let o := appendU64 "nvme_used" ev.nvmeUsed o
  let o := appendU64 "nvme_free" ev.nvmeFree o
  let o := if ev.type = .pageRead ∨ ev.type = .pageWrite ∨ ev.type = .demandFault then appendBool "cache_hit" ev.cacheHit o else o
  let o := if ev.type = .prefetchHit ∨ ev.prefetchHit then appendBool "prefetch_hit" ev.prefetchHit o else o
  let o := if ev.type = .prefetchWaste ∨ ev.prefetchWaste then appendBool "prefetch_waste" ev.prefetchWaste o else o
  let o := appendDbl "stall_us" ev.stallUs o
  let o :=
    if ev.type = .integrityCheck then
      let o := appendBool "checksum_ok" ev.checksumOk o
      let o := appendStr "checksum_expected" ev.checksumExpected o
      appendStr "checksum_actual" ev.checksumActual o
    else o
  let o := appendStr "cuda_error" ev.cudaError o
  let o := appendStr "error_code" ev.errorCode o
  let o := appendI64 "logical_size" ev.logicalSize o
  let o := appendStr "op" ev.op o
  let o := appendDbl "throughput" ev.throughput o
  o.1 ++ ascii "\x7d"

/-! ## Escapes -/

theorem hexVal_hexDigit : ∀ d < 16, hexVal (hexDigit d) = some d := by decide

theorem visible_hexDigit : ∀ d < 16, 0x20 ≤ hexDigit d := by decide

theorem jsonEscape_read (c : UInt8) (tail : List UInt8) :
    readString .plain (jsonEscapeByte c ++ tail) = emit [c] (readString .plain tail) := by
  unfold jsonEscapeByte
  by_cases hq : c = 34
  · subst hq
    rfl
  by_cases hb : c = 92
  · subst hb
    rfl
  by_cases hn : c = 10
  · subst hn
    rfl
  by_cases hr : c = 13
  · subst hr
    rfl
  by_cases ht : c = 9
  · subst ht
    rfl
  rw [if_neg hq, if_neg hb, if_neg hn, if_neg hr, if_neg ht]
  split
  · rename_i hlt
    have hlt : c.toNat < 32 := UInt8.lt_iff_toNat_lt.1 hlt
    have hval : ((c.toNat / 4096 % 16 * 16 + c.toNat / 256 % 16) * 16 + c.toNat / 16 % 16) * 16 + c.toNat % 16 = c.toNat := by omega
    have hu : utf8 (((c.toNat / 4096 % 16 * 16 + c.toNat / 256 % 16) * 16 + c.toNat / 16 % 16) * 16 + c.toNat % 16) = some [c] := by
      rw [hval, utf8, if_pos (by omega), UInt8.ofNat_toNat]
    have hex : ∀ n, hexVal (hexDigit (n % 16)) = some (n % 16) := fun n => hexVal_hexDigit _ (Nat.mod_lt _ (by decide))
    exact readString_unicode (hex _) (hex _) (hex _) (hex _) hu tail
  · rename_i hge
    exact readString_byte ⟨hq, hb, UInt8.not_lt.1 hge⟩ tail

theorem visible_pair {a b : UInt8} (ha : 0x20 ≤ a) (hb : 0x20 ≤ b) : ∀ c ∈ [a, b], 0x20 ≤ c :=
  List.forall_mem_cons.2 ⟨ha, List.forall_mem_singleton.2 hb⟩

theorem jsonEscape_visible (c : UInt8) : ∀ b ∈ jsonEscapeByte c, 0x20 ≤ b := by
  unfold jsonEscapeByte
  split; · exact visible_pair (by decide) (by decide)
  split; · exact visible_pair (by decide) (by decide)
  split; · exact visible_pair (by decide) (by decide)
  split; · exact visible_pair (by decide) (by decide)
  split; · exact visible_pair (by decide) (by decide)
  split
  · intro b hb
    simp only [List.mem_cons, List.not_mem_nil, or_false] at hb
    rcases hb with rfl | rfl | rfl | rfl | rfl | rfl
    · decide
    · decide
    all_goals exact visible_hexDigit _ (Nat.mod_lt _ (by decide))
  · rename_i hge
    intro b hb
    rw [List.mem_singleton.1 hb]
    exact UInt8.not_lt.1 hge

theorem escaping_json : Escaping jsonEscapeByte := ⟨jsonEscape_read, jsonEscape_visible⟩

/-! ## Fields -/

/-- The value of a string field; an empty string is left out. -/
def strValue (val : List UInt8) : Option Value := if val.isEmpty then none else some (.str val)

/-- The value of an integer field; zero is left out. -/
def intValue (val : Int) : Option Value := if val = 0 then none else some (.num ⟨signed val, isNumber_signed val⟩)

def dblValue (val : Double) : Option Value := if val.isZero then none else some (.num ⟨val.text, val.number⟩)

def tierValue (t : Tier) : Option Value := if t = .none then none else strValue (ascii (tierName t))

/-- A field behind a guard. -/
def guardedBy (p : Bool) (v : Option Value) : Option Value := if p then v else none

/-- The fields of an event by key, in the order of the line, with the values of those that are there. -/
def eventFields (ev : TelemetryEvent) : List (String × Option Value) :=
  [("schema", some (.str (ascii "1.0"))),
    ("timestamp_us", intValue ev.timestampUs),
    ("sequence", intValue ev.sequence),
    ("event", strValue (ascii (eventTypeName ev.type))),
    ("page_id", intValue ev.pageId),
    ("src_tier", tierValue ev.src),
    ("dst_tier", tierValue ev.dst),
    ("bytes", intValue ev.bytes),
    ("duration_us", dblValue ev.durationUs),
    ("bandwidth_gb_s", dblValue ev.bandwidthGbS),
    ("policy", strValue ev.policy),
    ("reason", strValue ev.reason),
    ("path", strValue ev.path),
    ("queue_depth", intValue ev.queueDepth),
    ("vram_used", intValue ev.vramUsed),
    ("vram_free", intValue ev.vramFree),
    ("host_used", intValue ev.hostUsed),
    ("host_free", intValue ev.hostFree),
    ("nvme_used", intValue ev.nvmeUsed),
    ("nvme_free", intValue ev.nvmeFree),
    ("cache_hit", guardedBy (ev.type = .pageRead ∨ ev.type = .pageWrite ∨ ev.type = .demandFault) (some (.bool ev.cacheHit))),
    ("prefetch_hit", guardedBy (ev.type = .prefetchHit ∨ ev.prefetchHit) (some (.bool ev.prefetchHit))),
    ("prefetch_waste", guardedBy (ev.type = .prefetchWaste ∨ ev.prefetchWaste) (some (.bool ev.prefetchWaste))),
    ("stall_us", dblValue ev.stallUs),
    ("checksum_ok", guardedBy (ev.type = .integrityCheck) (some (.bool ev.checksumOk))),
    ("checksum_expected", guardedBy (ev.type = .integrityCheck) (strValue ev.checksumExpected)),
    ("checksum_actual", guardedBy (ev.type = .integrityCheck) (strValue ev.checksumActual)),
    ("cuda_error", strValue ev.cudaError),
    ("error_code", strValue ev.errorCode),
    ("logical_size", intValue ev.logicalSize),
    ("op", strValue ev.op),
    ("throughput", dblValue ev.throughput)]

/-- The members of the line: the fields that are there. -/
def members (fields : List (String × Option Value)) : List Member := fields.filterMap fun f => f.2.map fun v => (ascii f.1, v)

/-- A field that may be left out. -/
def appendField (f : String × Option Value) (o : Output) : Output :=
  match f.2 with
  | none => o
  | some v => appendMember f.1 (printValue jsonEscapeByte v) o

theorem appendStr_eq (key : String) (val : List UInt8) (o : Output) : appendStr key val o = appendField (key, strValue val) o := by
  unfold appendStr appendField strValue
  split <;> rfl

theorem appendI64_eq (key : String) (val : Int) (o : Output) : appendI64 key val o = appendField (key, intValue val) o := by
  unfold appendI64 appendField intValue
  split <;> rfl

theorem appendU64_eq (key : String) (val : Nat) (o : Output) : appendU64 key val o = appendField (key, intValue val) o := by
  rw [← appendI64_eq]
  unfold appendU64 appendI64
  by_cases h : val = 0
  · rw [if_pos h, if_pos (by exact_mod_cast h)]
  · rw [if_neg h, if_neg (by exact_mod_cast h)]
    rfl

theorem appendDbl_eq (key : String) (val : Double) (o : Output) : appendDbl key val o = appendField (key, dblValue val) o := by
  unfold appendDbl appendField dblValue
  split <;> rfl

theorem appendBool_eq (key : String) (val : Bool) (o : Output) : appendBool key val o = appendField (key, some (.bool val)) o := by
  cases val <;> rfl

theorem appendTier_eq (key : String) (t : Tier) (o : Output) : appendTier key t o = appendField (key, tierValue t) o := by
  unfold appendTier tierValue
  split
  · rfl
  · exact appendStr_eq ..

theorem appendGuarded_eq {p : Prop} [Decidable p] (key : String) (v : Option Value) (o : Output) :
    (if p then appendField (key, v) o else o) = appendField (key, guardedBy p v) o := by
  unfold guardedBy
  by_cases h : p <;> simp [h, appendField]

/-- The writer goes through the fields in order. -/
theorem telemetryEventToJsonl_eq (ev : TelemetryEvent) :
    telemetryEventToJsonl ev = ((eventFields ev).foldl (fun o f => appendField f o) ([openBrace], true)).1 ++ [closeBrace] := by
  have hguard : ∀ (p : Prop) [Decidable p] (f g h : String × Option Value) (o : Output),
      (if p then appendField h (appendField g (appendField f o)) else o) =
        appendField (h.1, guardedBy p h.2) (appendField (g.1, guardedBy p g.2) (appendField (f.1, guardedBy p f.2) o)) := by
    intro p _ f g h o
    rw [← appendGuarded_eq, ← appendGuarded_eq, ← appendGuarded_eq]
    by_cases hp : p <;> simp [hp]
  unfold telemetryEventToJsonl
  simp only [appendStr_eq, appendI64_eq, appendU64_eq, appendDbl_eq, appendBool_eq, appendTier_eq, hguard]
  simp only [appendGuarded_eq]
  rfl

/-- A further member goes after a comma. -/
theorem appendMember_printed {ms : List Member} (hne : ms ≠ []) (key : String) (v : Value) :
    appendMember key (printValue jsonEscapeByte v) (openBrace :: printMembers jsonEscapeByte ms, false) =
      (openBrace :: printMembers jsonEscapeByte (ms ++ [(ascii key, v)]), false) := by
  rw [printMembers_concat jsonEscapeByte hne]
  simp [appendMember, printMember, comma, quote, colon]

/-- The writer's text is the members so far, printed. -/
theorem foldl_appendField : ∀ {fields : List (String × Option Value)} {ms : List Member}, ms ≠ [] →
    fields.foldl (fun o f => appendField f o) (openBrace :: printMembers jsonEscapeByte ms, false) =
      (openBrace :: printMembers jsonEscapeByte (ms ++ members fields), false)
  | [], ms, _ => by simp [members]
  | (key, none) :: fields, ms, hne => by
    show fields.foldl (fun o f => appendField f o) _ = (openBrace :: printMembers jsonEscapeByte (ms ++ members fields), false)
    exact foldl_appendField hne
  | (key, some v) :: fields, ms, hne => by
    have hcons : ms ++ members ((key, some v) :: fields) = ms ++ [(ascii key, v)] ++ members fields := by simp [members]
    rw [List.foldl_cons, hcons, ← foldl_appendField (by simp)]
    exact congrArg (fields.foldl (fun o f => appendField f o)) (appendMember_printed hne key v)

theorem telemetryEventToJsonl_printed (ev : TelemetryEvent) :
    telemetryEventToJsonl ev = printObject jsonEscapeByte (members (eventFields ev)) := by
  have hhead : eventFields ev = ("schema", some (.str (ascii "1.0"))) :: (eventFields ev).tail := rfl
  have hfirst : appendField ("schema", some (.str (ascii "1.0"))) ([openBrace], true) =
      (openBrace :: printMembers jsonEscapeByte [(ascii "schema", .str (ascii "1.0"))], false) := by decide
  have hms : members (eventFields ev) = [(ascii "schema", .str (ascii "1.0"))] ++ members (eventFields ev).tail := rfl
  rw [telemetryEventToJsonl_eq, hhead, List.foldl_cons, hfirst, foldl_appendField (List.cons_ne_nil _ _), printObject, ← hhead, hms]
  rfl

/-! ## The schema -/

/-- The properties of `telemetry.schema.json`. -/
def schemaProperties : List String :=
  ["schema", "timestamp_us", "sequence", "event", "page_id", "src_tier", "dst_tier", "bytes", "duration_us", "bandwidth_gb_s", "policy",
    "reason", "path", "queue_depth", "vram_used", "vram_free", "host_used", "host_free", "nvme_used", "nvme_free", "cache_hit",
    "prefetch_hit", "prefetch_waste", "stall_us", "checksum_ok", "checksum_expected", "checksum_actual", "cuda_error", "error_code",
    "logical_size", "op", "throughput"]

theorem schemaProperties_keys : (schemaProperties.map ascii).Nodup ∧ ∀ k ∈ schemaProperties, PlainText (ascii k) := by decide +kernel

theorem eventFields_keys (ev : TelemetryEvent) : (eventFields ev).map Prod.fst = schemaProperties := rfl

theorem members_sublist (fields : List (String × Option Value)) :
    ((members fields).map Prod.fst).Sublist ((fields.map Prod.fst).map ascii) := by
  induction fields with
  | nil => exact List.Sublist.slnil
  | cons f fields ih =>
    obtain ⟨key, v⟩ := f
    cases v with
    | none => exact ih.cons _
    | some v => exact ih.cons_cons _

theorem mem_members {fields : List (String × Option Value)} {key : String} {v : Value} (h : (key, some v) ∈ fields) :
    (ascii key, v) ∈ members fields := List.mem_filterMap.2 ⟨_, h, rfl⟩

/-- The string fields whose bytes are arbitrary. -/
def stringFields : List (String × (TelemetryEvent → List UInt8)) :=
  [("policy", (·.policy)), ("reason", (·.reason)), ("path", (·.path)), ("cuda_error", (·.cudaError)), ("error_code", (·.errorCode)),
    ("op", (·.op))]

/-- The integer fields. -/
def integerFields : List (String × (TelemetryEvent → Int)) :=
  [("timestamp_us", (·.timestampUs)), ("sequence", (·.sequence)), ("page_id", (·.pageId)), ("bytes", (·.bytes)),
    ("queue_depth", (·.queueDepth)), ("vram_used", (·.vramUsed)), ("vram_free", (·.vramFree)), ("host_used", (·.hostUsed)),
    ("host_free", (·.hostFree)), ("nvme_used", (·.nvmeUsed)), ("nvme_free", (·.nvmeFree)), ("logical_size", (·.logicalSize))]

/-- When a field has its default value, or its guard leaves it out. -/
def leftOut (ev : TelemetryEvent) : List (String × Prop) :=
  [("schema", False), ("timestamp_us", ev.timestampUs = 0), ("sequence", ev.sequence = 0), ("event", False), ("page_id", ev.pageId = 0),
    ("src_tier", ev.src = .none), ("dst_tier", ev.dst = .none), ("bytes", ev.bytes = 0), ("duration_us", ev.durationUs.isZero = true),
    ("bandwidth_gb_s", ev.bandwidthGbS.isZero = true), ("policy", ev.policy = []), ("reason", ev.reason = []), ("path", ev.path = []),
    ("queue_depth", ev.queueDepth = 0), ("vram_used", ev.vramUsed = 0), ("vram_free", ev.vramFree = 0), ("host_used", ev.hostUsed = 0),
    ("host_free", ev.hostFree = 0), ("nvme_used", ev.nvmeUsed = 0), ("nvme_free", ev.nvmeFree = 0),
    ("cache_hit", ¬(ev.type = .pageRead ∨ ev.type = .pageWrite ∨ ev.type = .demandFault)),
    ("prefetch_hit", ev.prefetchHit = false), ("prefetch_waste", ev.prefetchWaste = false), ("stall_us", ev.stallUs.isZero = true),
    ("checksum_ok", ev.type ≠ .integrityCheck), ("checksum_expected", ev.type ≠ .integrityCheck ∨ ev.checksumExpected = []),
    ("checksum_actual", ev.type ≠ .integrityCheck ∨ ev.checksumActual = []), ("cuda_error", ev.cudaError = []),
    ("error_code", ev.errorCode = []), ("logical_size", ev.logicalSize = 0), ("op", ev.op = []), ("throughput", ev.throughput.isZero = true)]

theorem strValue_none {val : List UInt8} : strValue val = none ↔ val = [] := by
  unfold strValue
  cases val <;> simp

theorem intValue_none {val : Int} : intValue val = none ↔ val = 0 := by
  unfold intValue
  split <;> simp_all

theorem dblValue_none {val : Double} : dblValue val = none ↔ val.isZero = true := by
  unfold dblValue
  split <;> simp_all

theorem guardedBy_none {p : Bool} {v : Option Value} : guardedBy p v = none ↔ p = false ∨ v = none := by
  unfold guardedBy
  cases p <;> simp

theorem tierValue_none {t : Tier} : tierValue t = none ↔ t = .none := by
  cases t <;> decide

/-- A field without a value is one that may be left out. -/
theorem leftOut_of_none (ev : TelemetryEvent) :
    List.Forall₂ (fun a b => a.1 = b.1 ∧ (b.2 = none → a.2)) (leftOut ev) (eventFields ev) := by
  have hevent : ascii (eventTypeName ev.type) ≠ [] := by cases ev.type <;> decide
  simp [leftOut, eventFields, strValue_none, intValue_none, dblValue_none, guardedBy_none, tierValue_none, hevent]

/-- Each entry of the one list has its field in the other. -/
theorem exists_field (ev : TelemetryEvent) {a : String × Prop} (ha : a ∈ leftOut ev) :
    ∃ b ∈ eventFields ev, a.1 = b.1 ∧ (b.2 = none → a.2) := by
  obtain ⟨hlen, hzip⟩ := List.forall₂_iff_zip.1 (leftOut_of_none ev)
  obtain ⟨i, hi, rfl⟩ := List.getElem_of_mem ha
  have hb : i < (eventFields ev).length := hlen ▸ hi
  refine ⟨(eventFields ev)[i], List.getElem_mem hb, hzip ?_⟩
  rw [List.mem_iff_getElem]
  exact ⟨i, by rw [List.length_zip]; exact lt_min hi hb, List.getElem_zip⟩

/-- A line of telemetry reads back as one object: its keys are different properties of the schema, it has
no control byte, the string fields have their bytes and the integer fields their values, and a field is
absent only with its default value or behind its guard. -/
theorem jsonl_decodes (ev : TelemetryEvent) : ∃ obj, readObject (telemetryEventToJsonl ev) = some obj ∧
    (obj.map Prod.fst).Nodup ∧ (∀ m ∈ obj, m.1 ∈ schemaProperties.map ascii) ∧ (∀ b ∈ telemetryEventToJsonl ev, 0x20 ≤ b) ∧
    (∀ f ∈ stringFields, f.2 ev ≠ [] → (ascii f.1, .str (f.2 ev)) ∈ obj) ∧
    (∀ f ∈ integerFields, f.2 ev ≠ 0 → ∃ text, (ascii f.1, .num text) ∈ obj ∧ readInt text.1 = some (f.2 ev)) ∧
    ∀ f ∈ leftOut ev, ascii f.1 ∉ obj.map Prod.fst → f.2 := by
  have hsub := members_sublist (eventFields ev)
  rw [eventFields_keys] at hsub
  have hin : ∀ m ∈ members (eventFields ev), m.1 ∈ schemaProperties.map ascii := fun m hm => hsub.subset (List.mem_map_of_mem hm)
  have hplain : ∀ m ∈ members (eventFields ev), PlainText m.1 := by
    intro m hm
    obtain ⟨k, hk, he⟩ := List.mem_map.1 (hin m hm)
    rw [← he]
    exact schemaProperties_keys.2 k hk
  rw [telemetryEventToJsonl_printed]
  refine ⟨members (eventFields ev), readObject_print escaping_json hplain, hsub.nodup schemaProperties_keys.1, hin,
    visible_printObject escaping_json hplain, fun f hf hne => ?_, fun f hf hne => ?_, fun f hf habs => ?_⟩
  · have hmem : (f.1, strValue (f.2 ev)) ∈ eventFields ev := by
      revert f
      simp [stringFields, eventFields]
    have hval : strValue (f.2 ev) = some (.str (f.2 ev)) := if_neg (by simpa using hne)
    rw [hval] at hmem
    exact mem_members hmem
  · have hmem : (f.1, intValue (f.2 ev)) ∈ eventFields ev := by
      revert f
      simp [integerFields, eventFields]
    have hval : intValue (f.2 ev) = some (.num ⟨signed (f.2 ev), isNumber_signed _⟩) := if_neg hne
    rw [hval] at hmem
    exact ⟨_, mem_members hmem, readInt_signed _⟩
  · obtain ⟨b, hb, hkey, hnone⟩ := exists_field ev hf
    apply hnone
    rcases hv : b.2 with _ | v
    · rfl
    · refine absurd (List.mem_map.2 ⟨(ascii b.1, v), mem_members ?_, ?_⟩) habs
      · rw [← hv]
        exact hb
      · rw [hkey]

/-- A reason of two lines, of an event with a negative size. -/
theorem jsonl_decodes_twoLines : ∃ obj, readObject (telemetryEventToJsonl { reason := [97, 10, 98], logicalSize := -3 }) = some obj ∧
    (ascii "reason", .str [97, 10, 98]) ∈ obj ∧ ∃ text, (ascii "logical_size", .num text) ∈ obj ∧ readInt text.1 = some (-3) := by
  obtain ⟨obj, hread, -, -, -, hstr, hint, -⟩ := jsonl_decodes { reason := [97, 10, 98], logicalSize := -3 }
  exact ⟨obj, hread, hstr ("reason", (·.reason)) (by simp [stringFields]) (by simp),
    hint ("logical_size", (·.logicalSize)) (by simp [integerFields]) (by simp)⟩

end FlashTier
