/-
The byte sizes of the command line (`parse_bytesize`, `config.cpp`): the scanner as it is written, with its
64-bit overflow tests, and the grammar it accepts, with unbounded numbers.
-/
import FlashTier.Codec.Json
import FlashTier.Runtime.Page
import Mathlib.Data.List.DropRight

namespace FlashTier

open Codec.Json (ascii isDigit readFrom readNat)

/-! ## The scanner -/

/-- `isspace` in the C locale. -/
def isSpace (c : UInt8) : Bool := c = 32 || (9 ≤ c && c ≤ 13)

/-- `toupper` in the C locale. -/
def toUpper (c : UInt8) : UInt8 := if 97 ≤ c ∧ c ≤ 122 then c - 32 else c

/-- Bytes as the text of an error. -/
def byteText (text : List UInt8) : String := String.ofList (text.map fun c => Char.ofNat c.toNat)

def emptySize (text : List UInt8) : Error := ⟨.config, "empty byte size", byteText text⟩

def sizeOverflows (text : List UInt8) : Error := ⟨.config, "byte size overflows 64 bits", byteText text⟩

def noInteger (text : List UInt8) : Error := ⟨.config, "expected an unsigned integer byte size", byteText text⟩

def unknownSuffix (text : List UInt8) : Error :=
  ⟨.config, "unknown byte size suffix (expected KiB, MiB, GiB, TiB, or bare bytes)", byteText text⟩

/-- The loop over the digits: the value, whether there were any, and what follows them. -/
def scanDigits (text : List UInt8) : List UInt8 → UInt64 → Bool → Except Error (UInt64 × Bool × List UInt8)
  | [], value, any => .ok (value, any, [])
  | c :: cs, value, any =>
    if isDigit c then
      let d := (c - 48).toUInt64
      if (0xFFFFFFFFFFFFFFFF - d) / 10 < value then .error (sizeOverflows text)
      else scanDigits text cs (value * 10 + d) true
    else .ok (value, any, c :: cs)

/-- The factor of a suffix in upper case. -/
def multiplierOf (suffix : List UInt8) : Option UInt64 :=
  if suffix = ascii "B" ∨ suffix = ascii "BYTES" then some 1
  else if suffix = ascii "KIB" then some 1024
  else if suffix = ascii "MIB" then some (1024 * 1024)
  else if suffix = ascii "GIB" then some (1024 * 1024 * 1024)
  else if suffix = ascii "TIB" then some (1024 * 1024 * 1024 * 1024)
  else none

/-- The factor that what follows the number and its blanks stands for. -/
def scanSuffix (text rest : List UInt8) : Except Error UInt64 :=
  if rest.isEmpty then .ok 1
  else match multiplierOf ((rest.rdropWhile isSpace).map toUpper) with
    | some multiplier => .ok multiplier
    | none => .error (unknownSuffix text)

/-- `parse_bytesize`. -/
def parseBytesize (text : List UInt8) : Except Error UInt64 :=
  let start := text.dropWhile isSpace
  if start.isEmpty then .error (emptySize text)
  else do
    let (value, any, rest) ← scanDigits text start 0 false
    if !any then .error (noInteger text)
    else do
      let multiplier ← scanSuffix text (rest.dropWhile isSpace)
      if 0xFFFFFFFFFFFFFFFF / multiplier < value then .error (sizeOverflows text)
      else .ok (value * multiplier)

/-! ## The grammar -/

/-- The suffixes. -/
inductive SizeUnit where
  | b | bytes | kib | mib | gib | tib

def SizeUnit.name : SizeUnit → List UInt8
  | .b => ascii "B"
  | .bytes => ascii "BYTES"
  | .kib => ascii "KIB"
  | .mib => ascii "MIB"
  | .gib => ascii "GIB"
  | .tib => ascii "TIB"

def SizeUnit.factor : SizeUnit → Nat
  | .b | .bytes => 1
  | .kib => 2 ^ 10
  | .mib => 2 ^ 20
  | .gib => 2 ^ 30
  | .tib => 2 ^ 40

/-- What may follow a number and its blanks, with the factor it stands for: nothing, or a suffix in any
case and blanks. -/
inductive SuffixText : List UInt8 → Nat → Prop where
  | none : SuffixText [] 1
  | unit (u : SizeUnit) {word blanks : List UInt8} (hw : word.map toUpper = u.name) (hb : blanks.all isSpace = true) :
      SuffixText (word ++ blanks) u.factor

/-- The text has the form `space* digit+ space* [suffix space*]` and stands for the number. -/
inductive ByteSizeText (text : List UInt8) : Nat → Prop where
  | intro {lead digits mid tail : List UInt8} {factor : Nat} (htext : text = lead ++ (digits ++ (mid ++ tail)))
      (hlead : lead.all isSpace = true) (hne : digits ≠ []) (hdigits : digits.all isDigit = true) (hmid : mid.all isSpace = true)
      (htail : SuffixText tail factor) : ByteSizeText text (readNat digits * factor)

/-! ## Characters -/

variable {text rest lead digits mid tail : List UInt8} {c : UInt8} {p : UInt8 → Bool}

theorem not_isDigit_of_isSpace (h : isSpace c = true) : isDigit c = false := by
  simp only [isSpace, isDigit, Bool.or_eq_true, Bool.and_eq_true, decide_eq_true_eq, Bool.and_eq_false_iff, decide_eq_false_iff_not,
    UInt8.le_iff_toNat_le] at h ⊢
  rcases h with rfl | ⟨-, h⟩
  · decide
  · left
    have h13 : (13 : UInt8).toNat = 13 := rfl
    have h48 : (48 : UInt8).toNat = 48 := rfl
    omega

/-- A byte whose upper case is a letter is neither a blank nor a digit. -/
theorem letter_of_toUpper (h : 65 ≤ (toUpper c).toNat) : isSpace c = false ∧ isDigit c = false := by
  have hc : 65 ≤ c.toNat := by
    unfold toUpper at h
    split at h
    · rename_i hl
      exact le_trans (by decide) (UInt8.le_iff_toNat_le.1 hl.1)
    · exact h
  have h13 : (13 : UInt8).toNat = 13 := rfl
  have h57 : (57 : UInt8).toNat = 57 := rfl
  constructor
  · rw [← Bool.not_eq_true]
    intro hs
    simp only [isSpace, Bool.or_eq_true, Bool.and_eq_true, decide_eq_true_eq, UInt8.le_iff_toNat_le] at hs
    rcases hs with rfl | ⟨-, hs⟩
    · exact absurd hc (by decide)
    · omega
  · rw [← Bool.not_eq_true]
    intro hd
    simp only [isDigit, Bool.and_eq_true, decide_eq_true_eq, UInt8.le_iff_toNat_le] at hd
    omega

theorem SizeUnit.name_letters (u : SizeUnit) : u.name ≠ [] ∧ u.name.all (fun c => decide (65 ≤ c.toNat)) = true := by
  cases u <;> decide

theorem word_letters {u : SizeUnit} {word : List UInt8} (h : word.map toUpper = u.name) :
    word ≠ [] ∧ ∀ c ∈ word, isSpace c = false ∧ isDigit c = false := by
  obtain ⟨hne, hall⟩ := u.name_letters
  rw [← h] at hne hall
  constructor
  · rintro rfl
    exact hne rfl
  · intro c hc
    rw [List.all_map, List.all_eq_true] at hall
    exact letter_of_toUpper (of_decide_eq_true (hall c hc))

/-! ## Scanning -/

/-- The first element, if there is one, does not satisfy `p`. -/
def StopsAt (p : UInt8 → Bool) (l : List UInt8) : Prop := ∀ c, l.head? = some c → p c = false

theorem stopsAt_dropWhile (p : UInt8 → Bool) (l : List UInt8) : StopsAt p (l.dropWhile p) := by
  intro c hc
  have := List.head?_dropWhile_not p l
  rw [hc] at this
  exact this

theorem dropWhile_eq_self (h : StopsAt p rest) : rest.dropWhile p = rest := by
  cases rest with
  | nil => rfl
  | cons c cs => rw [List.dropWhile_cons_of_neg (by simp [h c rfl])]

theorem dropWhile_append (hl : lead.all p = true) (h : StopsAt p rest) : (lead ++ rest).dropWhile p = rest := by
  rw [List.dropWhile_append_of_pos fun c hc => List.all_eq_true.1 hl c hc, dropWhile_eq_self h]

theorem stopsAt_append (h : lead.all p = true) (hdisj : ∀ c, p c = true → isDigit c = false) (hr : StopsAt isDigit rest) :
    StopsAt isDigit (lead ++ rest) := by
  cases lead with
  | nil => exact hr
  | cons c cs =>
    rintro _ ⟨⟩
    exact hdisj c (List.all_eq_true.1 h c (List.mem_cons_self ..))

theorem le_readFrom : ∀ (digits : List UInt8) (n : Nat), n ≤ readFrom n digits
  | [], n => le_rfl
  | c :: cs, n => by
    have := le_readFrom cs (n * 10 + (c.toNat - 48))
    show n ≤ readFrom (n * 10 + (c.toNat - 48)) cs
    omega

theorem digit_value (h : isDigit c = true) : (c - 48).toUInt64.toNat = c.toNat - 48 ∧ c.toNat - 48 ≤ 9 := by
  simp only [isDigit, Bool.and_eq_true, decide_eq_true_eq] at h
  have h57 := UInt8.le_iff_toNat_le.1 h.2
  have hval : (57 : UInt8).toNat = 57 := rfl
  rw [UInt8.toNat_toUInt64, UInt8.toNat_sub_of_le _ _ h.1]
  exact ⟨rfl, by show c.toNat - 48 ≤ 9; omega⟩

/-- The overflow test of a digit is exact. -/
theorem digit_overflows {value d : UInt64} (hd : d.toNat ≤ 9) :
    (0xFFFFFFFFFFFFFFFF - d) / 10 < value ↔ 2 ^ 64 ≤ value.toNat * 10 + d.toNat := by
  have hsub : (0xFFFFFFFFFFFFFFFF - d : UInt64).toNat = 2 ^ 64 - 1 - d.toNat :=
    UInt64.toNat_sub_of_le _ _ (UInt64.le_iff_toNat_le.2 (le_trans hd (by decide)))
  rw [UInt64.lt_iff_toNat_lt, UInt64.toNat_div, hsub]
  show (2 ^ 64 - 1 - d.toNat) / 10 < value.toNat ↔ _
  omega

theorem digit_appended {value d : UInt64} (h : value.toNat * 10 + d.toNat < 2 ^ 64) :
    (value * 10 + d).toNat = value.toNat * 10 + d.toNat := by
  rw [UInt64.toNat_add, UInt64.toNat_mul]
  show (value.toNat * 10 % 2 ^ 64 + d.toNat) % 2 ^ 64 = _
  omega

/-- The digits are read in full, or their number does not fit. -/
theorem scanDigits_eq (text : List UInt8) (hr : StopsAt isDigit rest) : ∀ {digits : List UInt8} (value : UInt64) (any : Bool),
    digits.all isDigit = true → scanDigits text (digits ++ rest) value any =
      if readFrom value.toNat digits < 2 ^ 64 then .ok (UInt64.ofNat (readFrom value.toNat digits), any || !digits.isEmpty, rest)
      else .error (sizeOverflows text)
  | [], value, any, _ => by
    show scanDigits text rest value any = if value.toNat < 2 ^ 64 then .ok (UInt64.ofNat value.toNat, any || false, rest) else _
    rw [if_pos value.toNat_lt, UInt64.ofNat_toNat, Bool.or_false]
    cases rest with
    | nil => rfl
    | cons c cs => rw [scanDigits, hr c rfl, if_neg Bool.false_ne_true]
  | c :: cs, value, any, hall => by
    rw [List.all_cons, Bool.and_eq_true] at hall
    obtain ⟨hc, hcs⟩ := hall
    obtain ⟨hval, hle⟩ := digit_value hc
    rw [List.cons_append, scanDigits, if_pos hc]
    dsimp only
    have hread : readFrom value.toNat (c :: cs) = readFrom (value.toNat * 10 + (c.toNat - 48)) cs := rfl
    rw [← hval] at hread
    by_cases hover : (0xFFFFFFFFFFFFFFFF - (c - 48).toUInt64) / 10 < value
    · have hbig := (digit_overflows (by omega)).1 hover
      have hmono := le_readFrom cs (value.toNat * 10 + (c - 48).toUInt64.toNat)
      rw [if_pos hover, hread, if_neg (by omega)]
    · have hsmall := mt (digit_overflows (by omega)).2 hover
      rw [if_neg hover, scanDigits_eq text hr _ true hcs, digit_appended (by omega), hread]
      simp

/-! ## Suffixes -/

theorem multiplierOf_eq_some {word : List UInt8} {m : UInt64} :
    multiplierOf word = some m ↔ ∃ u : SizeUnit, word = u.name ∧ m = UInt64.ofNat u.factor := by
  constructor
  · intro h
    unfold multiplierOf at h
    split at h
    · rename_i hw
      cases h
      rcases hw with rfl | rfl
      · exact ⟨.b, rfl, rfl⟩
      · exact ⟨.bytes, rfl, rfl⟩
    split at h
    · cases h
      exact ⟨.kib, ‹_›, rfl⟩
    split at h
    · cases h
      exact ⟨.mib, ‹_›, rfl⟩
    split at h
    · cases h
      exact ⟨.gib, ‹_›, rfl⟩
    split at h
    · cases h
      exact ⟨.tib, ‹_›, rfl⟩
    · cases h
  · rintro ⟨u, rfl, rfl⟩
    cases u <;> decide +kernel

theorem SizeUnit.toNat_factor (u : SizeUnit) : (UInt64.ofNat u.factor).toNat = u.factor ∧ 0 < u.factor := by
  cases u <;> decide

theorem SuffixText.pos {factor : Nat} (h : SuffixText tail factor) : 0 < factor := by
  cases h with
  | none => exact Nat.one_pos
  | unit u _ _ => exact u.toNat_factor.2

/-- What follows the number's blanks begins with a letter or not at all. -/
theorem SuffixText.stopsAt {factor : Nat} (h : SuffixText tail factor) : StopsAt isSpace tail ∧ StopsAt isDigit tail := by
  cases h with
  | none => exact ⟨by rintro _ ⟨⟩, by rintro _ ⟨⟩⟩
  | @unit u word blanks hw hb =>
    obtain ⟨hne, hword⟩ := word_letters hw
    cases word with
    | nil => exact absurd rfl hne
    | cons c cs =>
      have hc := hword c (List.mem_cons_self ..)
      constructor
      · rintro _ ⟨⟩
        exact hc.1
      · rintro _ ⟨⟩
        exact hc.2

/-- Trailing blanks go, and nothing else. -/
theorem rdropWhile_word {word blanks : List UInt8} (hw : ∀ c ∈ word, isSpace c = false) (hb : blanks.all isSpace = true) :
    (word ++ blanks).rdropWhile isSpace = word := by
  have hrev : (word ++ blanks).rdropWhile isSpace = ((blanks.reverse ++ word.reverse).dropWhile isSpace).reverse := by
    rw [List.rdropWhile, List.reverse_append]
  rw [hrev, dropWhile_append (by rw [List.all_reverse]; exact hb), List.reverse_reverse]
  intro c hc
  exact hw c (List.mem_reverse.1 (List.mem_of_mem_head? hc))

/-- The suffix is scanned as the grammar has it. -/
theorem scanSuffix_eq_ok {m : UInt64} :
    scanSuffix text tail = .ok m ↔ ∃ factor, SuffixText tail factor ∧ m = UInt64.ofNat factor := by
  unfold scanSuffix
  constructor
  · intro h
    split at h
    · rename_i he
      cases h
      rw [List.isEmpty_iff] at he
      subst he
      exact ⟨1, .none, rfl⟩
    · rcases hm : multiplierOf ((tail.rdropWhile isSpace).map toUpper) with _ | m'
      · rw [hm] at h
        cases h
      · rw [hm] at h
        cases h
        obtain ⟨u, hu, rfl⟩ := multiplierOf_eq_some.1 hm
        refine ⟨u.factor, ?_, rfl⟩
        rw [← List.rdropWhile_append_rtakeWhile (p := isSpace) (l := tail)]
        exact .unit u hu (List.all_eq_true.2 fun c hc => List.mem_rtakeWhile_imp hc)
  · rintro ⟨factor, hs, rfl⟩
    cases hs with
    | none => rfl
    | @unit u word blanks hw hb =>
      obtain ⟨hne, hword⟩ := word_letters hw
      rw [rdropWhile_word (fun c hc => (hword c hc).1) hb, hw, multiplierOf_eq_some.2 ⟨u, rfl, rfl⟩]
      cases word with
      | nil => exact absurd rfl hne
      | cons c cs => rfl

theorem scanSuffix_error {e : Error} (h : scanSuffix text tail = .error e) : e.code = .config := by
  unfold scanSuffix at h
  split at h
  · cases h
  · split at h
    · cases h
    · cases h
      rfl

/-! ## Texts -/

/-- The parts of a text as the scanner finds them. -/
structure Parts (text lead digits mid tail : List UInt8) : Prop where
  whole : text = lead ++ (digits ++ (mid ++ tail))
  leadBlank : lead.all isSpace = true
  allDigits : digits.all isDigit = true
  midBlank : mid.all isSpace = true
  start : StopsAt isSpace (digits ++ (mid ++ tail))
  number : StopsAt isDigit (mid ++ tail)
  suffix : StopsAt isSpace tail

/-- Every text has its parts. -/
theorem parts_exist (text : List UInt8) : ∃ lead digits mid tail, Parts text lead digits mid tail := by
  have hstart := stopsAt_dropWhile isSpace text
  have hnumber := stopsAt_dropWhile isDigit (text.dropWhile isSpace)
  refine ⟨text.takeWhile isSpace, (text.dropWhile isSpace).takeWhile isDigit,
    ((text.dropWhile isSpace).dropWhile isDigit).takeWhile isSpace,
    ((text.dropWhile isSpace).dropWhile isDigit).dropWhile isSpace, ?_, List.all_takeWhile, List.all_takeWhile, List.all_takeWhile, ?_, ?_,
    stopsAt_dropWhile isSpace _⟩
  · rw [List.takeWhile_append_dropWhile, List.takeWhile_append_dropWhile, List.takeWhile_append_dropWhile]
  · rw [List.takeWhile_append_dropWhile, List.takeWhile_append_dropWhile]
    exact hstart
  · rw [List.takeWhile_append_dropWhile]
    exact hnumber

/-- The parts that the grammar names are those the scanner finds. -/
theorem parts_of_suffix {factor : Nat} (htext : text = lead ++ (digits ++ (mid ++ tail))) (hlead : lead.all isSpace = true)
    (hne : digits ≠ []) (hdigits : digits.all isDigit = true) (hmid : mid.all isSpace = true) (htail : SuffixText tail factor) :
    Parts text lead digits mid tail := by
  refine ⟨htext, hlead, hdigits, hmid, ?_, stopsAt_append hmid (fun _ => not_isDigit_of_isSpace) htail.stopsAt.2, htail.stopsAt.1⟩
  cases digits with
  | nil => exact absurd rfl hne
  | cons c cs =>
    rintro _ ⟨⟩
    have hc := List.all_eq_true.1 hdigits c (List.mem_cons_self ..)
    rw [← Bool.not_eq_true]
    intro hs
    rw [not_isDigit_of_isSpace hs] at hc
    cases hc

namespace Parts

variable (h : Parts text lead digits mid tail)

include h

theorem dropLead : text.dropWhile isSpace = digits ++ (mid ++ tail) := by
  rw [h.whole]
  exact dropWhile_append h.leadBlank h.start

theorem scan : scanDigits text (digits ++ (mid ++ tail)) 0 false =
    if readNat digits < 2 ^ 64 then .ok (UInt64.ofNat (readNat digits), !digits.isEmpty, mid ++ tail) else .error (sizeOverflows text) :=
  scanDigits_eq text h.number 0 false h.allDigits

/-- A text without a number is refused. -/
theorem parse_nil (hd : digits = []) : ∃ e, parseBytesize text = .error e ∧ e.code = .config := by
  unfold parseBytesize
  simp only [h.dropLead]
  split
  · exact ⟨_, rfl, rfl⟩
  · rw [h.scan, hd]
    exact ⟨_, rfl, rfl⟩

/-- What becomes of a text with a number. -/
theorem parse (hd : digits ≠ []) : parseBytesize text =
    if readNat digits < 2 ^ 64 then do
      let multiplier ← scanSuffix text tail
      if 0xFFFFFFFFFFFFFFFF / multiplier < UInt64.ofNat (readNat digits) then .error (sizeOverflows text)
      else .ok (UInt64.ofNat (readNat digits) * multiplier)
    else .error (sizeOverflows text) := by
  have hne : (digits ++ (mid ++ tail)).isEmpty = false := by simp [hd]
  have hany : (!digits.isEmpty) = true := by simp [hd]
  unfold parseBytesize
  simp only [h.dropLead, hne, Bool.false_eq_true, if_false, h.scan, hany]
  split
  · show (do let multiplier ← scanSuffix text ((mid ++ tail).dropWhile isSpace); _) = _
    rw [dropWhile_append h.midBlank h.suffix]
  · rfl

end Parts

/-- The last test is exact. -/
theorem product_overflows {n factor : Nat} (hn : n < 2 ^ 64) (hf : 0 < factor) (hf' : factor < 2 ^ 64) :
    0xFFFFFFFFFFFFFFFF / UInt64.ofNat factor < UInt64.ofNat n ↔ 2 ^ 64 ≤ n * factor := by
  rw [UInt64.lt_iff_toNat_lt, UInt64.toNat_div, UInt64.toNat_ofNat_of_lt' hn, UInt64.toNat_ofNat_of_lt' hf']
  show (2 ^ 64 - 1) / factor < n ↔ _
  rw [Nat.div_lt_iff_lt_mul hf]
  omega

theorem SuffixText.factor_lt {factor : Nat} (h : SuffixText tail factor) : factor < 2 ^ 64 := by
  cases h with
  | none => decide
  | unit u _ _ => cases u <;> decide

/-- A text of the grammar is read as its number, when that fits. -/
theorem parse_of_text {n : Nat} (h : ByteSizeText text n) :
    parseBytesize text = if n < 2 ^ 64 then .ok (UInt64.ofNat n) else .error (sizeOverflows text) := by
  obtain ⟨htext, hlead, hne, hdigits, hmid, htail⟩ := h
  rename_i lead digits mid tail factor
  have hpos := htail.pos
  rw [(parts_of_suffix htext hlead hne hdigits hmid htail).parse hne, scanSuffix_eq_ok.2 ⟨factor, htail, rfl⟩]
  have hmul : readNat digits ≤ readNat digits * factor := Nat.le_mul_of_pos_right _ hpos
  by_cases hn : readNat digits < 2 ^ 64
  · have hiff := product_overflows hn hpos htail.factor_lt
    rw [if_pos hn]
    show (if 0xFFFFFFFFFFFFFFFF / UInt64.ofNat factor < UInt64.ofNat (readNat digits) then _ else _) = _
    by_cases hover : readNat digits * factor < 2 ^ 64
    · rw [if_neg (mt hiff.1 (by omega)), if_pos hover, UInt64.ofNat_mul]
    · rw [if_pos (hiff.2 (by omega)), if_neg hover]
  · rw [if_neg hn, if_neg (by omega)]

/-- `parse_bytesize` returns exactly the numbers that texts of the grammar stand for and that fit in 64
bits, and otherwise throws a configuration error. -/
theorem bytesize_exact (text : List UInt8) :
    (∀ v, parseBytesize text = .ok v ↔ ByteSizeText text v.toNat) ∧
    ((¬∃ n, ByteSizeText text n ∧ n ≤ 2 ^ 64 - 1) → ∃ e, parseBytesize text = .error e ∧ e.code = .config) := by
  obtain ⟨lead, digits, mid, tail, hparts⟩ := parts_exist text
  -- what the scanner returns is in the grammar, by the parts it finds
  have hsound : ∀ v, parseBytesize text = .ok v → ∃ n, ByteSizeText text n ∧ n < 2 ^ 64 := by
    intro v hv
    by_cases hd : digits = []
    · obtain ⟨e, he, -⟩ := hparts.parse_nil hd
      rw [he] at hv
      cases hv
    rw [hparts.parse hd] at hv
    split at hv
    · rcases hs : scanSuffix text tail with e | m
      · rw [hs] at hv
        cases hv
      obtain ⟨factor, htail, rfl⟩ := scanSuffix_eq_ok.1 hs
      have htext : ByteSizeText text (readNat digits * factor) := .intro hparts.whole hparts.leadBlank hd hparts.allDigits hparts.midBlank htail
      refine ⟨_, htext, ?_⟩
      by_contra hbig
      have hp := parse_of_text htext
      rw [if_neg hbig, hparts.parse hd, if_pos ‹_›, hv] at hp
      cases hp
    · cases hv
  refine ⟨fun v => ⟨fun hv => ?_, fun ht => ?_⟩, fun hno => ?_⟩
  · obtain ⟨n, hn, hlt⟩ := hsound v hv
    rw [parse_of_text hn, if_pos hlt] at hv
    cases hv
    rwa [UInt64.toNat_ofNat_of_lt' hlt]
  · rw [parse_of_text ht, if_pos v.toNat_lt, UInt64.ofNat_toNat]
  · by_cases hd : digits = []
    · exact hparts.parse_nil hd
    rcases hp : parseBytesize text with e | v
    · refine ⟨e, rfl, ?_⟩
      rw [hparts.parse hd] at hp
      split at hp
      · rcases hs : scanSuffix text tail with e' | m
        · rw [hs] at hp
          cases hp
          exact scanSuffix_error hs
        · rw [hs] at hp
          change (if _ then _ else _) = _ at hp
          split at hp <;> cases hp
          rfl
      · cases hp
        rfl
    · obtain ⟨n, hn, hlt⟩ := hsound v hp
      exact absurd ⟨n, hn, by omega⟩ hno

example : parseBytesize (ascii "16 KiB  ") = .ok 16384 := by decide +kernel

end FlashTier
