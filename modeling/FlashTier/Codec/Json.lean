/-
JSON as bytes: a reader for objects of strings, numbers and truth values, by the rules of the grammar
(escapes, numbers without leading zeros, no raw control bytes; no blanks between tokens), a printer for any
escaping that the reader undoes, and that reading inverts printing.
-/
import Mathlib.Tactic

namespace Codec.Json

/-- The bytes of a text in ASCII. -/
def ascii (s : String) : List UInt8 := s.toList.map fun c => UInt8.ofNat c.toNat

def quote : UInt8 := 34
def comma : UInt8 := 44
def colon : UInt8 := 58
def backslash : UInt8 := 92
def openBrace : UInt8 := 123
def closeBrace : UInt8 := 125

/-! ## Strings -/

/-- The value of a hexadecimal digit. -/
def hexVal (c : UInt8) : Option Nat :=
  if 48 ≤ c ∧ c ≤ 57 then some (c.toNat - 48)
  else if 97 ≤ c ∧ c ≤ 102 then some (c.toNat - 87)
  else if 65 ≤ c ∧ c ≤ 70 then some (c.toNat - 55)
  else none

/-- The byte that a two-character escape stands for. -/
def unescape (c : UInt8) : Option UInt8 :=
  if c = 34 ∨ c = 92 ∨ c = 47 then some c
  else if c = 98 then some 8
  else if c = 102 then some 12
  else if c = 110 then some 10
  else if c = 114 then some 13
  else if c = 116 then some 9
  else none

/-- The bytes of a code unit; surrogates are refused. -/
def utf8 (u : Nat) : Option (List UInt8) :=
  if u < 0x80 then some [UInt8.ofNat u]
  else if u < 0x800 then some [UInt8.ofNat (0xC0 + u / 64), UInt8.ofNat (0x80 + u % 64)]
  else if 0xD800 ≤ u ∧ u < 0xE000 then none
  else some [UInt8.ofNat (0xE0 + u / 4096), UInt8.ofNat (0x80 + u / 64 % 64), UInt8.ofNat (0x80 + u % 64)]

/-- Where the reader of a string is: between characters, after a backslash, or in a `\u` escape. -/
inductive Mode where
  | plain
  | escape
  | unicode (seen value : Nat)

/-- Put bytes in front of what is read later. -/
def emit (bytes : List UInt8) (r : Option (List UInt8 × List UInt8)) : Option (List UInt8 × List UInt8) :=
  r.map fun x => (bytes ++ x.1, x.2)

/-- Read a string after its opening quote: its bytes, and what follows the closing quote. -/
def readString : Mode → List UInt8 → Option (List UInt8 × List UInt8)
  | _, [] => none
  | .plain, c :: cs =>
    if c = quote then some ([], cs)
    else if c = backslash then readString .escape cs
    else if c < 0x20 then none
    else emit [c] (readString .plain cs)
  | .escape, c :: cs =>
    if c = 117 then readString (.unicode 0 0) cs
    else match unescape c with
      | some b => emit [b] (readString .plain cs)
      | none => none
  | .unicode seen value, c :: cs =>
    match hexVal c with
    | none => none
    | some d =>
      if seen = 3 then match utf8 (value * 16 + d) with
        | some bytes => emit bytes (readString .plain cs)
        | none => none
      else readString (.unicode (seen + 1) (value * 16 + d)) cs

/-- Bytes that stand for themselves in a string. -/
def PlainText (s : List UInt8) : Prop := ∀ c ∈ s, c ≠ quote ∧ c ≠ backslash ∧ 0x20 ≤ c

instance (s : List UInt8) : Decidable (PlainText s) := List.decidableBAll _ s

theorem readString_byte {c : UInt8} (h : c ≠ quote ∧ c ≠ backslash ∧ 0x20 ≤ c) (tail : List UInt8) :
    readString .plain (c :: tail) = emit [c] (readString .plain tail) := by
  rw [readString, if_neg h.1, if_neg h.2.1, if_neg (UInt8.not_lt.2 h.2.2)]

theorem visible_of_plain {s : List UInt8} (hs : PlainText s) : ∀ b ∈ s, 0x20 ≤ b := fun b hb => (hs b hb).2.2

theorem readString_plain {s : List UInt8} (hs : PlainText s) (rest : List UInt8) :
    readString .plain (s ++ quote :: rest) = some (s, rest) := by
  induction s with
  | nil => rfl
  | cons c s ih =>
    obtain ⟨hc, hs⟩ := List.forall_mem_cons.1 hs
    rw [List.cons_append, readString_byte hc, ih hs]
    rfl

/-- A code unit is read by its four digits. -/
theorem readString_unicode {a b c d : UInt8} {x y z w : Nat} {bytes : List UInt8} (ha : hexVal a = some x) (hb : hexVal b = some y)
    (hc : hexVal c = some z) (hd : hexVal d = some w) (hu : utf8 (((x * 16 + y) * 16 + z) * 16 + w) = some bytes)
    (tail : List UInt8) : readString .plain (backslash :: 117 :: a :: b :: c :: d :: tail) = emit bytes (readString .plain tail) := by
  rw [readString, if_neg (by decide), if_pos rfl, readString, if_pos rfl]
  rw [readString, ha]
  simp only [Nat.zero_mul, Nat.zero_add]
  rw [if_neg (by decide), readString, hb]
  simp only
  rw [if_neg (by decide), readString, hc]
  simp only
  rw [if_neg (by decide), readString, hd]
  simp only [if_true]
  rw [hu]

/-- An escaping that the reader undoes, in visible bytes. -/
structure Escaping (esc : UInt8 → List UInt8) : Prop where
  read : ∀ c tail, readString .plain (esc c ++ tail) = emit [c] (readString .plain tail)
  visible : ∀ c, ∀ b ∈ esc c, 0x20 ≤ b

theorem Escaping.readString {esc : UInt8 → List UInt8} (h : Escaping esc) (s rest : List UInt8) :
    Json.readString .plain (s.flatMap esc ++ quote :: rest) = some (s, rest) := by
  induction s with
  | nil => rfl
  | cons c s ih =>
    rw [List.flatMap_cons, List.append_assoc, h.read, ih]
    rfl

/-! ## Numbers -/

/-- Where the reader of a number is. -/
inductive NumState where
  | start | minus | zero | int | dot | frac | exp | expSign | expDigits
  deriving DecidableEq

def isDigit (c : UInt8) : Bool := 48 ≤ c && c ≤ 57

/-- One more character of a number. -/
def NumState.next (st : NumState) (c : UInt8) : Option NumState :=
  match st with
  | .start => if c = 45 then some .minus else if c = 48 then some .zero else if isDigit c then some .int else none
  | .minus => if c = 48 then some .zero else if isDigit c then some .int else none
  | .zero => if c = 46 then some .dot else if c = 101 ∨ c = 69 then some .exp else none
  | .int => if isDigit c then some .int else if c = 46 then some .dot else if c = 101 ∨ c = 69 then some .exp else none
  | .dot => if isDigit c then some .frac else none
  | .frac => if isDigit c then some .frac else if c = 101 ∨ c = 69 then some .exp else none
  | .exp => if isDigit c then some .expDigits else if c = 43 ∨ c = 45 then some .expSign else none
  | .expSign => if isDigit c then some .expDigits else none
  | .expDigits => if isDigit c then some .expDigits else none

def NumState.run : NumState → List UInt8 → Option NumState
  | st, [] => some st
  | st, c :: cs => match st.next c with
    | some st' => st'.run cs
    | none => none

def NumState.accepts : NumState → Bool
  | .zero | .int | .frac | .expDigits => true
  | _ => false

/-- The text is a number of the grammar. -/
def isNumber (text : List UInt8) : Bool :=
  match NumState.start.run text with
  | some st => st.accepts
  | none => false

/-- The characters of numbers. -/
def numChar (c : UInt8) : Bool := isDigit c || c = 43 || c = 45 || c = 46 || c = 69 || c = 101

theorem numChar_of_isDigit {c : UInt8} (h : isDigit c = true) : numChar c = true := by
  unfold numChar
  rw [h]
  rfl

theorem numChar_of_next {st st' : NumState} {c : UInt8} (h : st.next c = some st') : numChar c = true := by
  cases st <;> simp only [NumState.next] at h <;> split_ifs at h
  all_goals first
    | exact numChar_of_isDigit ‹_›
    | (subst c; rfl)
    | (rcases ‹c = _ ∨ c = _› with rfl | rfl <;> rfl)

theorem numChar_of_run : ∀ {text : List UInt8} {st st' : NumState}, st.run text = some st' → ∀ c ∈ text, numChar c = true
  | [], _, _, _, c, hc => by cases hc
  | a :: text, st, st', h, c, hc => by
    unfold NumState.run at h
    split at h
    · rename_i st₁ hn
      rcases List.mem_cons.1 hc with rfl | hc
      · exact numChar_of_next hn
      · exact numChar_of_run h c hc
    · cases h

theorem numChar_of_isNumber {text : List UInt8} (h : isNumber text = true) : ∀ c ∈ text, numChar c = true := by
  unfold isNumber at h
  split at h
  · rename_i st hr
    exact numChar_of_run hr
  · cases h

theorem isNumber_ne_nil {text : List UInt8} (h : isNumber text = true) : text ≠ [] := by
  rintro rfl
  cases h

theorem visible_of_numChar {c : UInt8} (h : numChar c = true) : 0x20 ≤ c := by
  simp only [numChar, isDigit, Bool.or_eq_true, Bool.and_eq_true, decide_eq_true_eq] at h
  rcases h with ((((⟨h, -⟩ | rfl) | rfl) | rfl) | rfl) | rfl
  · exact UInt8.le_trans (by decide) h
  all_goals decide

/-! ## Objects -/

/-- A number keeps its text. -/
inductive Value where
  | str (bytes : List UInt8)
  | num (text : { t : List UInt8 // isNumber t = true })
  | bool (b : Bool)
  deriving DecidableEq

def readValue : List UInt8 → Option (Value × List UInt8)
  | [] => none
  | c :: rest =>
    if c = quote then (readString .plain rest).map fun r => (.str r.1, r.2)
    else if (ascii "true").isPrefixOf (c :: rest) then some (.bool true, (c :: rest).drop 4)
    else if (ascii "false").isPrefixOf (c :: rest) then some (.bool false, (c :: rest).drop 5)
    else if h : isNumber ((c :: rest).takeWhile numChar) = true then
      some (.num ⟨(c :: rest).takeWhile numChar, h⟩, (c :: rest).dropWhile numChar)
    else none

/-- The text after a byte that must come first. -/
def expect (c : UInt8) : List UInt8 → Option (List UInt8)
  | [] => none
  | b :: rest => if b = c then some rest else none

abbrev Member := List UInt8 × Value

def readMember (s : List UInt8) : Option (Member × List UInt8) := do
  let s ← expect quote s
  let (key, s) ← readString .plain s
  let s ← expect colon s
  let (value, s) ← readValue s
  pure ((key, value), s)

def readMembers : Nat → List UInt8 → Option (List Member)
  | 0, _ => none
  | fuel + 1, s =>
    match readMember s with
    | none => none
    | some (_, []) => none
    | some (m, c :: rest) =>
      if c = comma then (readMembers fuel rest).map (m :: ·)
      else if c = closeBrace ∧ rest = [] then some [m]
      else none

/-- Read a text that is one object and nothing else. -/
def readObject (s : List UInt8) : Option (List Member) :=
  match expect openBrace s with
  | none => none
  | some rest => if rest = [closeBrace] then some [] else readMembers rest.length rest

section Print

variable (esc : UInt8 → List UInt8)

def printValue : Value → List UInt8
  | .str bytes => quote :: (bytes.flatMap esc ++ [quote])
  | .num text => text.1
  | .bool true => ascii "true"
  | .bool false => ascii "false"

/-- A member; its key is printed as it is. -/
def printMember (m : Member) : List UInt8 := quote :: (m.1 ++ quote :: colon :: printValue esc m.2)

def printMembers : List Member → List UInt8
  | [] => []
  | [m] => printMember esc m
  | m :: ms => printMember esc m ++ comma :: printMembers ms

def printObject (ms : List Member) : List UInt8 := openBrace :: (printMembers esc ms ++ [closeBrace])

end Print

theorem printMembers_concat (esc : UInt8 → List UInt8) : ∀ {ms : List Member}, ms ≠ [] → ∀ m,
    printMembers esc (ms ++ [m]) = printMembers esc ms ++ comma :: printMember esc m
  | [], h, _ => absurd rfl h
  | [_], _, _ => rfl
  | m₁ :: m₂ :: ms, _, m => by
    have ih := printMembers_concat esc (List.cons_ne_nil m₂ ms) m
    simp only [List.cons_append, printMembers, List.append_assoc] at ih ⊢
    rw [ih]

/-! ## Reading inverts printing -/

variable {esc : UInt8 → List UInt8}

theorem not_isPrefixOf {k l : List UInt8} {a c : UInt8} (hk : k.head? = some a) (hne : a ≠ c) : k.isPrefixOf (c :: l) = false := by
  cases k with
  | nil => cases hk
  | cons b k =>
    cases hk
    simp [List.isPrefixOf, hne]

theorem readValue_num {text rest : List UInt8} (h : isNumber text = true) (hr : ∀ c ∈ rest.head?, numChar c = false) :
    readValue (text ++ rest) = some (.num ⟨text, h⟩, rest) := by
  have hall := numChar_of_isNumber h
  have htake : (text ++ rest).takeWhile numChar = text := by
    rw [List.takeWhile_append_of_pos hall]
    cases rest with
    | nil => simp
    | cons c rest => rw [List.takeWhile_cons_of_neg (by simp [hr c rfl]), List.append_nil]
  have hdrop : (text ++ rest).dropWhile numChar = rest := by
    rw [List.dropWhile_append_of_pos hall]
    cases rest with
    | nil => rfl
    | cons c rest => rw [List.dropWhile_cons_of_neg (by simp [hr c rfl])]
  obtain ⟨c, cs, rfl⟩ := List.exists_cons_of_ne_nil (isNumber_ne_nil h)
  have hc : numChar c = true := hall c (List.mem_cons_self ..)
  -- a number starts like no string and no truth value
  have hq : c ≠ quote := by
    rintro rfl
    exact absurd hc (by decide)
  have ht : (ascii "true").isPrefixOf (c :: cs ++ rest) = false := by
    refine not_isPrefixOf (a := 116) (by decide) ?_
    rintro rfl
    exact absurd hc (by decide)
  have hf : (ascii "false").isPrefixOf (c :: cs ++ rest) = false := by
    refine not_isPrefixOf (a := 102) (by decide) ?_
    rintro rfl
    exact absurd hc (by decide)
  rw [List.cons_append] at htake hdrop ht hf ⊢
  rw [readValue, if_neg hq, ht, hf]
  simp only [htake, hdrop, h, Bool.false_eq_true, if_false, dite_true]

/-- What follows a value starts with no character of a number. -/
theorem readValue_print (he : Escaping esc) (v : Value) {rest : List UInt8} (hr : ∀ c ∈ rest.head?, numChar c = false) :
    readValue (printValue esc v ++ rest) = some (v, rest) := by
  cases v with
  | str bytes =>
    rw [printValue, List.cons_append, List.append_assoc, readValue, if_pos rfl]
    show (readString .plain (bytes.flatMap esc ++ quote :: rest)).map _ = _
    rw [he.readString]
    rfl
  | num text => exact readValue_num text.2 hr
  | bool b => cases b <;> rfl

theorem readMember_print (he : Escaping esc) {m : Member} (hk : PlainText m.1) {rest : List UInt8}
    (hr : ∀ c ∈ rest.head?, numChar c = false) : readMember (printMember esc m ++ rest) = some (m, rest) := by
  have hs : printMember esc m ++ rest = quote :: (m.1 ++ quote :: (colon :: (printValue esc m.2 ++ rest))) := by
    simp [printMember]
  unfold readMember
  rw [hs]
  simp only [expect, if_true, Option.bind_eq_bind, Option.bind_some, readString_plain hk, readValue_print he m.2 hr]
  rfl

theorem readMembers_print (he : Escaping esc) : ∀ {ms : List Member} {fuel : Nat}, ms ≠ [] → (∀ m ∈ ms, PlainText m.1) → ms.length ≤ fuel →
    readMembers fuel (printMembers esc ms ++ [closeBrace]) = some ms
  | [], _, h, _, _ => absurd rfl h
  | _ :: _, 0, _, _, hf => absurd hf (by simp)
  | [m], fuel + 1, _, hk, _ => by
    rw [printMembers, readMembers, readMember_print he (hk m (by simp)) (by simp [closeBrace, numChar, isDigit])]
    rfl
  | m :: m' :: ms, fuel + 1, _, hk, hf => by
    obtain ⟨hm, hk⟩ := List.forall_mem_cons.1 hk
    rw [printMembers, List.append_assoc, readMembers, readMember_print he hm (by simp [comma, numChar, isDigit])]
    · simp only [List.cons_append, if_true]
      rw [readMembers_print he (List.cons_ne_nil _ _) hk (by simpa using hf)]
      rfl
    · simp

/-- One object is read back from its text. -/
theorem readObject_print (he : Escaping esc) {ms : List Member} (hk : ∀ m ∈ ms, PlainText m.1) :
    readObject (printObject esc ms) = some ms := by
  have hlen : ∀ ms : List Member, ms.length ≤ (printMembers esc ms).length := by
    intro ms
    induction ms with
    | nil => exact le_rfl
    | cons m ms ih =>
      cases ms with
      | nil => simp [printMembers, printMember]
      | cons m' ms =>
        have hpos : 0 < (printMember esc m).length := by simp [printMember]
        simp only [printMembers, List.length_append, List.length_cons] at ih ⊢
        omega
  cases ms with
  | nil => rfl
  | cons m ms =>
    have hne : printMembers esc (m :: ms) ++ [closeBrace] ≠ [closeBrace] := by
      intro h
      have := congrArg List.length h
      have hl := hlen (m :: ms)
      simp only [List.length_append, List.length_cons, List.length_nil] at this hl
      omega
    unfold readObject
    rw [printObject, expect, if_pos rfl]
    simp only
    rw [if_neg hne]
    refine readMembers_print he (List.cons_ne_nil _ _) hk ?_
    have := hlen (m :: ms)
    rw [List.length_append]
    omega

/-! ## No control bytes -/

theorem visible_printValue (he : Escaping esc) (v : Value) : ∀ b ∈ printValue esc v, 0x20 ≤ b := by
  cases v with
  | str bytes =>
    intro b hb
    simp only [printValue, List.mem_cons, List.mem_append, List.mem_flatMap, List.not_mem_nil, or_false] at hb
    rcases hb with rfl | ⟨c, -, hc⟩ | rfl
    · decide
    · exact he.visible c b hc
    · decide
  | num text => exact fun b hb => visible_of_numChar (numChar_of_isNumber text.2 b hb)
  | bool b =>
    cases b
    · exact visible_of_plain (s := ascii "false") (by decide)
    · exact visible_of_plain (s := ascii "true") (by decide)

theorem visible_printMember (he : Escaping esc) {m : Member} (hk : PlainText m.1) : ∀ b ∈ printMember esc m, 0x20 ≤ b := by
  intro b hb
  simp only [printMember, List.mem_cons, List.mem_append] at hb
  rcases hb with rfl | hb | rfl | rfl | hb
  · decide
  · exact (hk b hb).2.2
  · decide
  · decide
  · exact visible_printValue he m.2 b hb

theorem visible_printMembers (he : Escaping esc) : ∀ {ms : List Member}, (∀ m ∈ ms, PlainText m.1) → ∀ b ∈ printMembers esc ms, 0x20 ≤ b
  | [], _, b, hb => by cases hb
  | [m], hk, b, hb => visible_printMember he (hk m (by simp)) b hb
  | m :: m' :: ms, hk, b, hb => by
    obtain ⟨hm, hk⟩ := List.forall_mem_cons.1 hk
    rw [printMembers] at hb
    · rcases List.mem_append.1 hb with hb | hb
      · exact visible_printMember he hm b hb
      · rcases List.mem_cons.1 hb with rfl | hb
        · decide
        · exact visible_printMembers he hk b hb
    · simp

/-- A printed object is one line. -/
theorem visible_printObject (he : Escaping esc) {ms : List Member} (hk : ∀ m ∈ ms, PlainText m.1) :
    ∀ b ∈ printObject esc ms, 0x20 ≤ b := by
  intro b hb
  simp only [printObject, List.mem_cons, List.mem_append, List.not_mem_nil, or_false] at hb
  rcases hb with rfl | hb | rfl
  · decide
  · exact visible_printMembers he hk b hb
  · decide

/-! ## Integers in decimal -/

/-- The digit of a number below ten. -/
def digit (d : Nat) : UInt8 := UInt8.ofNat (48 + d)

/-- A natural number in decimal. -/
def decimal (n : Nat) : List UInt8 := if n = 0 then [digit 0] else (Nat.digits 10 n).reverse.map digit

/-- An integer in decimal. -/
def signed : Int → List UInt8
  | .ofNat n => decimal n
  | .negSucc n => 45 :: decimal (n + 1)

/-- The number that digits make after a number already read. -/
def readFrom (n : Nat) (text : List UInt8) : Nat := text.foldl (fun n c => n * 10 + (c.toNat - 48)) n

/-- The number that digits make. -/
def readNat (text : List UInt8) : Nat := readFrom 0 text

/-- The integer that a text is. -/
def readInt : List UInt8 → Option Int
  | [] => none
  | c :: cs =>
    if c = 45 then if cs ≠ [] ∧ cs.all isDigit then some (-(readNat cs : Int)) else none
    else if (c :: cs).all isDigit then some (readNat (c :: cs)) else none

theorem toNat_digit {d : Nat} (h : d < 10) : (digit d).toNat = 48 + d := by
  rw [digit, UInt8.toNat_ofNat']
  omega

theorem isDigit_digit {d : Nat} (h : d < 10) : isDigit (digit d) = true := by
  have := toNat_digit h
  simp only [isDigit, Bool.and_eq_true, decide_eq_true_eq, UInt8.le_iff_toNat_le, this]
  exact ⟨by simp, by simp; omega⟩

theorem isDigit_decimal (n : Nat) : ∀ c ∈ decimal n, isDigit c = true := by
  intro c hc
  unfold decimal at hc
  split at hc
  · rw [List.mem_singleton.1 hc]
    exact isDigit_digit (by decide)
  · obtain ⟨d, hd, rfl⟩ := List.mem_map.1 hc
    exact isDigit_digit (Nat.digits_lt_base (by decide) (List.mem_reverse.1 hd))

theorem readNat_digits (ds : List Nat) (h : ∀ d ∈ ds, d < 10) : readNat (ds.reverse.map digit) = Nat.ofDigits 10 ds := by
  induction ds with
  | nil => rfl
  | cons d ds ih =>
    obtain ⟨hd, hds⟩ := List.forall_mem_cons.1 h
    have := ih hds
    unfold readNat readFrom at this ⊢
    rw [List.reverse_cons, List.map_append, List.foldl_append, this, Nat.ofDigits_cons]
    simp only [List.map_cons, List.map_nil, List.foldl_cons, List.foldl_nil, toNat_digit hd]
    omega

theorem readNat_decimal (n : Nat) : readNat (decimal n) = n := by
  unfold decimal
  split
  · rename_i h
    rw [h]
    rfl
  · rw [readNat_digits _ fun d hd => Nat.digits_lt_base (by decide) hd, Nat.ofDigits_digits]

theorem decimal_ne_nil (n : Nat) : decimal n ≠ [] := by
  unfold decimal
  split
  · exact List.cons_ne_nil _ _
  · rename_i h
    simpa [Nat.digits_eq_nil_iff_eq_zero] using h

theorem readInt_signed (i : Int) : readInt (signed i) = some i := by
  cases i with
  | ofNat n =>
    have hd := isDigit_decimal n
    rw [signed]
    obtain ⟨c, cs, hc⟩ := List.exists_cons_of_ne_nil (decimal_ne_nil n)
    have hne : c ≠ 45 := by
      rintro rfl
      exact absurd (hd 45 (by rw [hc]; exact List.mem_cons_self ..)) (by decide)
    have hall : (decimal n).all isDigit = true := List.all_eq_true.2 hd
    have hv := readNat_decimal n
    rw [hc] at hall hv ⊢
    rw [readInt, if_neg hne, if_pos hall, hv]
    rfl
  | negSucc n =>
    have hall : (decimal (n + 1)).all isDigit = true := List.all_eq_true.2 (isDigit_decimal _)
    rw [signed, readInt, if_pos rfl, if_pos ⟨decimal_ne_nil _, hall⟩, readNat_decimal]
    rfl

/-! The text of an integer is a number of the grammar. -/

theorem run_int {text : List UInt8} (h : ∀ c ∈ text, isDigit c = true) : NumState.int.run text = some .int := by
  induction text with
  | nil => rfl
  | cons c text ih =>
    obtain ⟨hc, ht⟩ := List.forall_mem_cons.1 h
    rw [NumState.run, NumState.next, if_pos hc]
    exact ih ht

theorem run_decimal {st : NumState} (hst : st = .start ∨ st = .minus) (n : Nat) :
    st.run (decimal n) = some .zero ∨ st.run (decimal n) = some .int := by
  unfold decimal
  split
  · rcases hst with rfl | rfl <;> exact .inl rfl
  · rename_i hn
    right
    have hlt : ∀ d ∈ Nat.digits 10 n, d < 10 := fun d hd => Nat.digits_lt_base (by decide) hd
    have hne : Nat.digits 10 n ≠ [] := by simpa [Nat.digits_eq_nil_iff_eq_zero] using hn
    have hlast := Nat.getLast_digit_ne_zero 10 hn
    obtain ⟨ds, d, hds⟩ : ∃ ds d, Nat.digits 10 n = ds ++ [d] :=
      ⟨_, _, (List.dropLast_append_getLast hne).symm⟩
    have hd : d ≠ 0 := by simpa [hds] using hlast
    rw [hds] at hlt ⊢
    have hd10 : d < 10 := hlt d (by simp)
    have h48 : digit d ≠ 48 := by
      intro h
      have := congrArg UInt8.toNat h
      rw [toNat_digit hd10] at this
      simp at this
      omega
    have h45 : digit d ≠ 45 := by
      intro h
      have := congrArg UInt8.toNat h
      rw [toNat_digit hd10] at this
      simp at this
      omega
    have hrest : ∀ c ∈ ds.reverse.map digit, isDigit c = true := by
      intro c hc
      obtain ⟨e, he, rfl⟩ := List.mem_map.1 hc
      exact isDigit_digit (hlt e (by simp [List.mem_reverse.1 he]))
    rw [List.reverse_append, List.map_append]
    show st.run (digit d :: ds.reverse.map digit) = _
    rw [NumState.run]
    have hnext : st.next (digit d) = some .int := by
      rcases hst with rfl | rfl <;> simp [NumState.next, h48, h45, isDigit_digit hd10]
    rw [hnext]
    exact run_int hrest

theorem isNumber_signed (i : Int) : isNumber (signed i) = true := by
  unfold isNumber
  cases i with
  | ofNat n =>
    rcases run_decimal (.inl rfl) n with h | h
    · rw [signed, h]
      rfl
    · rw [signed, h]
      rfl
  | negSucc n =>
    have hminus : NumState.start.run (signed (.negSucc n)) = NumState.minus.run (decimal (n + 1)) := rfl
    rw [hminus]
    rcases run_decimal (.inr rfl) (n + 1) with h | h
    · rw [h]
      rfl
    · rw [h]
      rfl

end Codec.Json
