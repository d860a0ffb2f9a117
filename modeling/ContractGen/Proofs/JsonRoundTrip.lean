import ContractGen.Data.Json.Reader
import ContractGen.Data.Json.Writer
import Mathlib.Data.List.Basic

/-!
# Reading JSON that was written

What is written without blanks can be read back. The reader is followed along the writer: for each
part of a value, it takes off exactly the characters that were written for it and leaves what comes
after them.

**Definitions.**
* `Reads`: what a reader has read, and what it leaves.
* `Storable`: the values that JSON can hold exactly, up to a depth.

**Results.**
* `readString_literal`: escapes are undone, whatever the characters.
* `readNumeral_integer`: the digits of an integer are read to the end.
* `readValue_chars`: so is every value that can be stored.
* `read_compact`: the text of such a value is read as that value.
-/

namespace ContractGen
namespace Data
namespace Json

open Text (isDigit)

/-! ## Readers -/

/-- A reader has read a value and leaves the rest. -/
def Reads {α : Type} {input : List Char} (result : Option (Taken α input)) (value : α)
    (rest : List Char) : Prop :=
  ∃ h, result = some ⟨value, rest, h⟩

@[simp] theorem readChar_cons_self
    (c : Char)
    (rest : List Char) :
    readChar c (c :: rest) = some ⟨(), rest, Reading.rest_lt⟩ := by
  simp [readChar]

theorem readChar_of_ne
    {c : Char} {input : List Char}
    (h : input.head? ≠ some c) :
    readChar c input = none := by
  cases input with
  | nil =>
      rfl
  | cons d rest =>
      have hne : d ≠ c := by
        simpa using h
      simp [readChar, hne]

/-- Where there are no blanks none are skipped. -/
theorem skipWhile_of_head?
    {p : Char → Bool} {input : List Char}
    (h : ∀ c ∈ input.head?, p c = false) :
    skipWhile p input = .whole input := by
  cases input with
  | nil =>
      rfl
  | cons c rest =>
      simp [skipWhile, Left.whole, h c rfl]

/-! ## Strings -/

theorem hexValue?_hexDigit :
    ∀ n < 16, hexValue? (hexDigit n) = some n := by
  decide

theorem hexNumber?_hexDigit
    {n : Nat}
    (h : n < 32) :
    hexNumber? ['0', '0', hexDigit (n / 16), hexDigit (n % 16)] = some n := by
  have hhigh := hexValue?_hexDigit (n / 16) (by omega)
  have hlow := hexValue?_hexDigit (n % 16) (by omega)
  have hzero : hexValue? '0' = some 0 := by
    decide
  have hsum : 16 * (n / 16) + n % 16 = n := Nat.div_add_mod n 16
  simp [hexNumber?, hhigh, hlow, hzero, hsum]

/-- A control character is read from its code. -/
theorem readEscape_control
    {c : Char}
    (h : c.toNat < 32)
    (rest : List Char) :
    Reads
      (readEscape ('u' :: '0' :: '0' :: hexDigit (c.toNat / 16) :: hexDigit (c.toNat % 16) :: rest))
      (some c) rest := by
  refine ⟨by simp; omega, ?_⟩
  have hhigh : ¬ (0xd800 ≤ c.toNat ∧ c.toNat < 0xdc00) := by
    omega
  have hlow : ¬ (0xdc00 ≤ c.toNat ∧ c.toNat < 0xe000) := by
    omega
  simp only [readEscape, hexNumber?_hexDigit h, Option.bind_eq_bind, Option.bind_some, hhigh, hlow,
    if_false, Char.ofNat_toNat]

/-- A character stands for itself, or for what follows a backslash in its escape. -/
theorem escaped_cases
    (c : Char) :
    (escaped c = [c] ∧ c ≠ '"' ∧ c ≠ '\\' ∧ 32 ≤ c.toNat) ∨
      ∃ name, escaped c = '\\' :: name ∧
        ∀ rest, Reads (readEscape (name ++ rest)) (some c) rest := by
  by_cases hquote : c = '"'
  · subst hquote
    exact Or.inr ⟨['"'], rfl, fun rest => ⟨by simp, rfl⟩⟩
  by_cases hslash : c = '\\'
  · subst hslash
    exact Or.inr ⟨['\\'], rfl, fun rest => ⟨by simp, rfl⟩⟩
  by_cases hnewline : c = '\n'
  · subst hnewline
    exact Or.inr ⟨['n'], rfl, fun rest => ⟨by simp, rfl⟩⟩
  by_cases hreturn : c = '\r'
  · subst hreturn
    exact Or.inr ⟨['r'], rfl, fun rest => ⟨by simp, rfl⟩⟩
  by_cases htab : c = '\t'
  · subst htab
    exact Or.inr ⟨['t'], rfl, fun rest => ⟨by simp, rfl⟩⟩
  by_cases hback : c.toNat = 8
  · obtain rfl : Char.ofNat 8 = c := hback ▸ Char.ofNat_toNat c
    exact Or.inr ⟨['b'], rfl, fun rest => ⟨by simp, rfl⟩⟩
  by_cases hfeed : c.toNat = 12
  · obtain rfl : Char.ofNat 12 = c := hfeed ▸ Char.ofNat_toNat c
    exact Or.inr ⟨['f'], rfl, fun rest => ⟨by simp, rfl⟩⟩
  rw [escaped, if_neg hquote, if_neg hslash, if_neg hnewline, if_neg hreturn, if_neg htab,
    if_neg hback, if_neg hfeed]
  by_cases hcontrol : c.toNat < 32
  · rw [if_pos hcontrol]
    exact Or.inr ⟨_, rfl, fun rest => readEscape_control hcontrol rest⟩
  · rw [if_neg hcontrol]
    exact Or.inl ⟨rfl, hquote, hslash, by omega⟩

/-- The escape of a character is one step of the reader. -/
theorem readString_escaped
    (c : Char)
    {input cs rest : List Char}
    (h : Reads (readString input) (some cs) rest) :
    Reads (readString (escaped c ++ input)) (some (c :: cs)) rest := by
  obtain ⟨hlt, hread⟩ := h
  rcases escaped_cases c with ⟨hc, hquote, hslash, hcontrol⟩ | ⟨name, hname, hescape⟩
  · rw [hc, List.singleton_append]
    refine ⟨Reading.lt_cons_of_lt hlt, ?_⟩
    rw [readString, if_neg hquote, if_neg hslash, if_neg (by omega), hread]
    rfl
  · obtain ⟨hltEscape, hescape⟩ := hescape input
    rw [hname, List.cons_append]
    refine ⟨Reading.lt_cons_of_lt (Reading.lt_of_lt_lt hltEscape hlt), ?_⟩
    rw [readString, if_neg (by decide), if_pos rfl, hescape, Option.bind_eq_bind, Option.bind_some]
    simp only [hread]
    rfl

/-- The escaped characters of a string, followed by a quote, read back as the string. -/
theorem readString_literal
    (cs rest : List Char) :
    Reads (readString (cs.flatMap escaped ++ '"' :: rest)) (some cs) rest := by
  induction cs with
  | nil =>
      rw [List.flatMap_nil, List.nil_append]
      exact ⟨Reading.rest_lt, by rw [readString, if_pos rfl]; rfl⟩
  | cons c cs ih =>
      rw [List.flatMap_cons, List.append_assoc]
      exact readString_escaped c ih

/-! ## Numbers -/

/-- A number does not go on with this text. -/
def EndsNumber (rest : List Char) : Prop :=
  ∀ c ∈ rest.head?, isDigit c = false ∧ c ≠ '.' ∧ c ≠ 'e' ∧ c ≠ 'E'

theorem isDigit_of_mem_toDigits
    {n : Nat} {c : Char}
    (h : c ∈ Nat.toDigits 10 n) :
    isDigit c = true := by
  have hdigit := Nat.isDigit_of_mem_toDigits (by decide) (by decide) h
  simpa [Char.isDigit, isDigit, Char.le_def] using hdigit

theorem toDigits_eq_cons
    (n : Nat) :
    ∃ c cs, Nat.toDigits 10 n = c :: cs ∧ isDigit c = true := by
  obtain ⟨c, cs, h⟩ := List.exists_cons_of_ne_nil (@Nat.toDigits_ne_nil n 10)
  exact ⟨c, cs, h, isDigit_of_mem_toDigits (by rw [h]; exact List.mem_cons_self)⟩

/-- Only zero is written with a zero in front. -/
theorem eq_zero_of_head?_toDigits
    {n : Nat}
    (h : (Nat.toDigits 10 n).head? = some '0') :
    n = 0 := by
  induction n using Nat.strongRecOn with
  | ind n ih =>
      rw [Nat.toDigits_eq_if (by decide)] at h
      split at h
      · simpa [Nat.digitChar_eq_zero] using h
      · rename_i hlarge
        rw [List.head?_append_of_ne_nil _ Nat.toDigits_ne_nil] at h
        have hzero := ih (n / 10) (by omega) h
        omega

/-- The digits of a number are read up to where the number ends. -/
theorem readDigits_append
    {digits rest : List Char}
    (hne : digits ≠ [])
    (hdigits : ∀ c ∈ digits, isDigit c = true)
    (hrest : EndsNumber rest) :
    Reads (readDigits (digits ++ rest)) digits rest := by
  have hend : rest.takeWhile isDigit = [] ∧ rest.dropWhile isDigit = rest := by
    cases rest with
    | nil =>
        exact ⟨rfl, rfl⟩
    | cons c cs =>
        simp [(hrest c rfl).1]
  have htake : (digits ++ rest).takeWhile isDigit = digits := by
    rw [List.takeWhile_append_of_pos hdigits, hend.1, List.append_nil]
  have hdrop : (digits ++ rest).dropWhile isDigit = rest := by
    rw [List.dropWhile_append_of_pos hdigits, hend.2]
  have hpos := List.length_pos_iff.mpr hne
  refine ⟨by rw [List.length_append]; omega, ?_⟩
  unfold readDigits
  simp only [htake, hdrop, dif_neg hne]

/-- The digits of a natural number are read to the end. -/
theorem readWhole_toDigits
    (n : Nat)
    {rest : List Char}
    (hrest : EndsNumber rest) :
    Reads (readWhole (Nat.toDigits 10 n ++ rest)) (Nat.toDigits 10 n) rest := by
  unfold readWhole
  by_cases hzero : (Nat.toDigits 10 n).head? = some '0'
  · obtain rfl := eq_zero_of_head?_toDigits hzero
    exact ⟨by simp, rfl⟩
  · rw [readChar_of_ne]
    · exact readDigits_append Nat.toDigits_ne_nil (fun c => isDigit_of_mem_toDigits) hrest
    · rwa [List.head?_append_of_ne_nil _ Nat.toDigits_ne_nil]

theorem readFraction_of_ends
    {rest : List Char}
    (h : EndsNumber rest) :
    readFraction rest = some (none, .whole rest) := by
  have hpoint : rest.head? ≠ some '.' := by
    intro hhead
    exact (h '.' hhead).2.1 rfl
  rw [readFraction, readChar_of_ne hpoint]
  rfl

theorem readExponent_of_ends
    {rest : List Char}
    (h : EndsNumber rest) :
    readExponent rest = some (none, .whole rest) := by
  cases rest with
  | nil =>
      rfl
  | cons c cs =>
      obtain ⟨-, -, hlower, hupper⟩ := h c rfl
      rw [readExponent, if_neg (by simp [hlower, hupper])]
      rfl

/-- A numeral without fraction and exponent. -/
def wholeNumeral (negative : Bool) (n : Nat) : Numeral :=
  { negative, whole := Nat.toDigits 10 n, fraction := none, exponent := none }

/--
The decimal digits of a natural number read back as that number, without fraction or exponent.
-/
theorem readUnsigned_toDigits
    (negative : Bool)
    (n : Nat)
    {rest : List Char}
    (hrest : EndsNumber rest) :
    Reads (readUnsigned negative (Nat.toDigits 10 n ++ rest)) (wholeNumeral negative n) rest := by
  obtain ⟨hlt, hwhole⟩ := readWhole_toDigits n hrest
  refine ⟨hlt, ?_⟩
  rw [readUnsigned, hwhole, Option.bind_eq_bind, Option.bind_some]
  simp only [readFraction_of_ends hrest, readExponent_of_ends hrest, Option.bind_eq_bind,
    Option.bind_some, Left.whole, wholeNumeral]

/-- The leading digits of a number that fits are all of its digits. -/
theorem leadingDigits_eq
    {start : Nat} {digits : List Char}
    (h : Nat.ofDigitChars 10 digits start < Double.twoTo 64) :
    leadingDigits start digits = (Nat.ofDigitChars 10 digits start, 0) := by
  induction digits generalizing start with
  | nil =>
      rfl
  | cons c cs ih =>
      have hnext : 10 * start + (c.toNat - 48) ≤
          Nat.ofDigitChars 10 cs (10 * start + (c.toNat - 48)) := by
        rw [Nat.ofDigitChars_eq_ofDigitChars_zero]
        exact Nat.le_add_right_of_le (Nat.le_mul_of_pos_left _ (Nat.pow_pos (by decide)))
      rw [Nat.ofDigitChars_cons] at h ⊢
      rw [leadingDigits, if_pos (Nat.lt_of_le_of_lt hnext h)]
      exact ih h

/-- Whether an integer is read as one: it fits into a word of 64 bits, signed or unsigned. -/
def IsWord (n : Int) : Prop :=
  -(Double.twoTo 63 : Int) ≤ n ∧ n < Double.twoTo 64

theorem numeral_ofNat
    (n : Nat) :
    numeral (.integer n) = Nat.toDigits 10 n := by
  show (toString n).toList = _
  rw [Nat.toString_eq_ofList_toDigits, String.toList_ofList]

theorem numeral_neg
    {n : Nat}
    (h : 0 < n) :
    numeral (.integer (-(n : Int))) = '-' :: Nat.toDigits 10 n := by
  show (Int.repr (-(n : Int))).toList = _
  rw [Int.repr_eq_if, if_neg (by omega), Int.neg_neg, Int.toNat_natCast,
    Nat.repr_eq_ofList_toDigits]
  simp

theorem leadingDigits_toDigits
    {n : Nat}
    (h : n < Double.twoTo 64) :
    leadingDigits 0 (Nat.toDigits 10 n) = (n, 0) := by
  rw [leadingDigits_eq (by rwa [Nat.ofDigitChars_ten_toDigits]), Nat.ofDigitChars_ten_toDigits]

/-- An integer that fits is read to its last digit. -/
theorem readNumeral_integer
    {n : Int}
    (hn : IsWord n)
    {rest : List Char}
    (hrest : EndsNumber rest) :
    ∃ m : Numeral, m.number? = some (.integer n) ∧
      Reads (readNumeral (numeral (.integer n) ++ rest)) m rest := by
  obtain ⟨hlower, hupper⟩ := hn
  by_cases hnegative : n < 0
  · obtain ⟨k, rfl⟩ : ∃ k : Nat, n = -(k : Int) := ⟨n.natAbs, by omega⟩
    have hk : 0 < k ∧ k ≤ Double.twoTo 63 := by
      omega
    have hword : k < Double.twoTo 64 := Nat.lt_of_le_of_lt hk.2 (by decide)
    obtain ⟨hlt, hread⟩ := readUnsigned_toDigits true k hrest
    rw [numeral_neg hk.1, List.cons_append]
    refine ⟨wholeNumeral true k, ?_, Reading.lt_cons_of_lt hlt, ?_⟩
    · simp [Numeral.number?, wholeNumeral, leadingDigits_toDigits hword, hk]
    · rw [readNumeral, readChar_cons_self]
      simp only [hread]
      rfl
  · obtain ⟨k, rfl⟩ := Int.eq_ofNat_of_zero_le (Int.not_lt.mp hnegative)
    have hword : k < Double.twoTo 64 := by
      omega
    obtain ⟨hlt, hread⟩ := readUnsigned_toDigits false k hrest
    rw [numeral_ofNat]
    refine ⟨wholeNumeral false k, ?_, hlt, ?_⟩
    · simp [Numeral.number?, wholeNumeral, leadingDigits_toDigits hword]
    · obtain ⟨c, cs, hcons, hdigit⟩ := toDigits_eq_cons k
      have hsign : (Nat.toDigits 10 k ++ rest).head? ≠ some '-' := by
        rw [hcons]
        rintro ⟨⟩
        cases hdigit
      rw [readNumeral, readChar_of_ne hsign]
      exact hread

/-- Whether a number can start with a character. -/
def startsNumber (c : Char) : Bool :=
  c = '-' || isDigit c

/-- The text of an integer starts with a digit or a minus sign. -/
theorem numeral_eq_cons
    (n : Int) :
    ∃ c cs, numeral (.integer n) = c :: cs ∧ startsNumber c = true := by
  by_cases hnegative : n < 0
  · obtain ⟨k, rfl⟩ : ∃ k : Nat, n = -(k : Int) := ⟨n.natAbs, by omega⟩
    exact ⟨'-', _, numeral_neg (by omega), rfl⟩
  · obtain ⟨k, rfl⟩ := Int.eq_ofNat_of_zero_le (Int.not_lt.mp hnegative)
    obtain ⟨c, cs, hcons, hdigit⟩ := toDigits_eq_cons k
    exact ⟨c, cs, (numeral_ofNat k).trans hcons, by simp [startsNumber, hdigit]⟩

theorem ne_of_startsNumber
    {c d : Char}
    (hc : startsNumber c = true)
    (hd : startsNumber d = false) :
    c ≠ d := by
  rintro rfl
  rw [hc] at hd
  cases hd

/-! ## Values -/

/-- The values that JSON holds exactly, if lists and records nest no deeper than a limit. -/
inductive Storable : Nat → Value → Prop
  | null (limit : Nat) : Storable limit .null
  | bool (limit : Nat) (b : Bool) : Storable limit (.bool b)
  | integer (limit : Nat) {n : Int} (h : IsWord n) : Storable limit (.number (.integer n))
  | string (limit : Nat) (s : String) : Storable limit (.string s)
  | list {limit : Nat} {items : List Value} (h : ∀ v ∈ items, Storable limit v) :
      Storable (limit + 1) (.list items)
  | record {limit : Nat} {entries : List (String × Value)}
      (h : ∀ e ∈ entries, Storable limit e.2) : Storable (limit + 1) (.record entries)

theorem chars_list
    (items : List Value) :
    chars (.list items) = '[' :: listChars items ++ [']'] := by
  rfl

theorem chars_record
    (entries : List (String × Value)) :
    chars (.record entries) = '{' :: recordChars entries ++ ['}'] := by
  rfl

/-- What has been written for a value starts neither with a blank nor like the end of a list. -/
theorem chars_eq_cons
    {limit : Nat} {v : Value}
    (h : Storable limit v) :
    ∃ c cs, chars v = c :: cs ∧ isJsonBlank c = false ∧ c ≠ ']' := by
  cases h with
  | null =>
      exact ⟨'n', _, rfl, by decide, by decide⟩
  | bool _ b =>
      cases b with
      | true =>
          exact ⟨'t', _, rfl, by decide, by decide⟩
      | false =>
          exact ⟨'f', _, rfl, by decide, by decide⟩
  | @integer _ n hword =>
      obtain ⟨c, cs, hcons, hc⟩ := numeral_eq_cons n
      refine ⟨c, cs, hcons, ?_, ne_of_startsNumber hc (by decide)⟩
      rw [Bool.eq_false_iff]
      intro hblank
      simp only [isJsonBlank, Bool.or_eq_true, decide_eq_true_eq] at hblank
      rcases hblank with ((rfl | rfl) | rfl) | rfl <;> cases hc
  | string _ s =>
      exact ⟨'"', _, rfl, by decide, by decide⟩
  | list =>
      exact ⟨'[', _, rfl, by decide, by decide⟩
  | record =>
      exact ⟨'{', _, rfl, by decide, by decide⟩

theorem endsNumber_nil :
    EndsNumber [] := by
  intro c hc
  cases hc

theorem endsNumber_cons
    {c : Char}
    (h : c ∈ [',', ']', '}'])
    (rest : List Char) :
    EndsNumber (c :: rest) := by
  rintro d ⟨⟩
  simp only [List.mem_cons, List.not_mem_nil, or_false] at h
  rcases h with rfl | rfl | rfl <;> decide

theorem readValue_scalar
    {c : Char} {cs : List Char}
    (hlist : c ≠ '[')
    (hrecord : c ≠ '{')
    (limit : Nat) :
    readValue limit (c :: cs) = readScalar (c :: cs) := by
  rw [readValue, readChar_of_ne (by simpa using hlist), readChar_of_ne (by simpa using hrecord)]

/-- A string literal reads back as the string, whatever follows. -/
theorem readValue_string
    (limit : Nat)
    (s : String)
    (rest : List Char) :
    Reads (readValue limit (literal s ++ rest)) (.string s) rest := by
  obtain ⟨hlt, hread⟩ := readString_literal s.toList rest
  have hliteral : literal s ++ rest = '"' :: (s.toList.flatMap escaped ++ '"' :: rest) := by
    simp [literal]
  rw [hliteral]
  refine ⟨Reading.lt_cons_of_lt hlt, ?_⟩
  rw [readValue_scalar (by decide) (by decide), readScalar, readChar_cons_self]
  simp only [hread, Option.bind_eq_bind, Option.bind_some, kept, String.ofList_toList]

theorem readWord_of_startsNumber
    {c : Char} {input : List Char}
    (h : startsNumber c = true)
    (hinput : input.head? = some c) :
    readWord input = none := by
  unfold readWord
  split
  · exact absurd (Option.some.inj hinput).symm (ne_of_startsNumber h (by decide))
  · exact absurd (Option.some.inj hinput).symm (ne_of_startsNumber h (by decide))
  · exact absurd (Option.some.inj hinput).symm (ne_of_startsNumber h (by decide))
  · rfl

theorem readValue_number
    (limit : Nat)
    {c : Char} {cs rest : List Char} {m : Numeral} {n : Number}
    (hc : startsNumber c = true)
    (hread : Reads (readNumeral (c :: cs)) m rest)
    (hm : m.number? = some n) :
    Reads (readValue limit (c :: cs)) (.number n) rest := by
  obtain ⟨hlt, hread⟩ := hread
  have hquote : (c :: cs).head? ≠ some '"' := by
    simpa using ne_of_startsNumber hc (by decide)
  refine ⟨hlt, ?_⟩
  rw [readValue_scalar (ne_of_startsNumber hc (by decide)) (ne_of_startsNumber hc (by decide)),
    readScalar, readChar_of_ne hquote, readWord_of_startsNumber hc rfl]
  simp only [hread, Option.bind_eq_bind, Option.bind_some, hm, kept]

/-- A 64-bit integer reads back as itself where the number ends. -/
theorem readValue_integer
    (limit : Nat)
    {n : Int}
    (hn : IsWord n)
    {rest : List Char}
    (hrest : EndsNumber rest) :
    Reads (readValue limit (numeral (.integer n) ++ rest)) (.number (.integer n)) rest := by
  obtain ⟨m, hm, hread⟩ := readNumeral_integer hn hrest
  obtain ⟨c, cs, hcons, hc⟩ := numeral_eq_cons n
  rw [hcons, List.cons_append] at hread ⊢
  exact readValue_number limit hc hread hm

theorem listChars_cons_cons
    (v w : Value)
    (ws : List Value) :
    listChars (v :: w :: ws) = chars v ++ ',' :: listChars (w :: ws) := by
  rw [listChars]
  exact nofun

theorem listChars_eq_cons
    {limit : Nat} {v : Value}
    (h : Storable limit v)
    (vs : List Value) :
    ∃ c cs, listChars (v :: vs) = c :: cs ∧ isJsonBlank c = false ∧ c ≠ ']' := by
  obtain ⟨c, cs, hchars, hc⟩ := chars_eq_cons h
  cases vs with
  | nil =>
      exact ⟨c, cs, by rw [listChars, hchars], hc⟩
  | cons w ws =>
      exact ⟨c, _, by rw [listChars_cons_cons, hchars]; rfl, hc⟩

/-- A value is read wherever it stands. -/
def ReadsBack (limit : Nat) (v : Value) : Prop :=
  ∀ rest, EndsNumber rest → Reads (readValue limit (chars v ++ rest)) v rest

/-- The items of a list read back in order, if each of them does. -/
theorem readItems_listChars
    {limit : Nat} {items : List Value}
    (hne : items ≠ [])
    (hitems : ∀ v ∈ items, Storable limit v ∧ ReadsBack limit v)
    (rest : List Char) :
    Reads (readItems limit (listChars items ++ ']' :: rest)) items rest := by
  induction items with
  | nil =>
      exact absurd rfl hne
  | cons v vs ih =>
      obtain ⟨-, hv⟩ := hitems v List.mem_cons_self
      cases vs with
      | nil =>
          obtain ⟨hlt, hread⟩ := hv (']' :: rest) (endsNumber_cons (by decide) rest)
          rw [listChars]
          refine ⟨Reading.lt_of_lt_lt hlt Reading.rest_lt, ?_⟩
          rw [readItems]
          simp only [hread, Option.bind_eq_bind, Option.bind_some]
          rfl
      | cons w ws =>
          have hws : ∀ u ∈ w :: ws, Storable limit u ∧ ReadsBack limit u :=
            fun u hu => hitems u (List.mem_cons_of_mem v hu)
          obtain ⟨hltItems, hreadItems⟩ := ih (List.cons_ne_nil w ws) hws
          obtain ⟨c, cs, hcons, hblank, -⟩ :=
            listChars_eq_cons (hws w List.mem_cons_self).1 ws
          have hnext : ∀ d ∈ (listChars (w :: ws) ++ ']' :: rest).head?, isJsonBlank d = false := by
            rw [hcons]
            rintro d ⟨⟩
            exact hblank
          obtain ⟨hlt, hread⟩ := hv (',' :: (listChars (w :: ws) ++ ']' :: rest))
            (endsNumber_cons (by decide) _)
          rw [listChars_cons_cons, List.append_assoc, List.cons_append]
          refine ⟨Reading.lt_of_lt_lt hlt (Reading.lt_cons_of_lt hltItems), ?_⟩
          rw [readItems]
          simp only [hread, Option.bind_eq_bind, Option.bind_some]
          show Option.bind (readItems limit (skipWhile isJsonBlank _).val) _ = _
          rw [skipWhile_of_head? hnext]
          simp only [Left.whole, hreadItems, Option.bind_some]

theorem readKey_literal
    (key : String)
    {rest : List Char}
    (hrest : ∀ c ∈ rest.head?, isJsonBlank c = false) :
    Reads (readKey (literal key ++ ':' :: rest)) (some key) rest := by
  obtain ⟨hlt, hread⟩ := readString_literal key.toList (':' :: rest)
  have hliteral : literal key ++ ':' :: rest =
      '"' :: (key.toList.flatMap escaped ++ '"' :: ':' :: rest) := by
    simp [literal]
  rw [hliteral]
  refine ⟨Reading.lt_cons_of_lt (Reading.lt_of_lt_lt hlt Reading.rest_lt), ?_⟩
  rw [readKey, readChar_cons_self]
  simp only [hread, Option.bind_eq_bind, Option.bind_some, Option.map_some, String.ofList_toList]
  show some (Taken.mk (some key) (skipWhile isJsonBlank rest).val _) = _
  simp only [skipWhile_of_head? hrest, Left.whole]

theorem recordChars_cons_cons
    (key : String)
    (v : Value)
    (e : String × Value)
    (es : List (String × Value)) :
    recordChars ((key, v) :: e :: es) =
      literal key ++ ':' :: (chars v ++ ',' :: recordChars (e :: es)) := by
  rw [recordChars]
  · simp
  · exact nofun

theorem recordChars_eq_cons
    (e : String × Value)
    (es : List (String × Value)) :
    ∃ cs, recordChars (e :: es) = '"' :: cs := by
  cases es with
  | nil =>
      exact ⟨_, by rw [recordChars, literal]; rfl⟩
  | cons e' es =>
      exact ⟨_, by rw [recordChars_cons_cons, literal]; rfl⟩

/-- The entries of a record read back in order, if the value of each of them does. -/
theorem readEntries_recordChars
    {limit : Nat} {entries : List (String × Value)}
    (hne : entries ≠ [])
    (hentries : ∀ e ∈ entries, Storable limit e.2 ∧ ReadsBack limit e.2)
    (rest : List Char) :
    Reads (readEntries limit (recordChars entries ++ '}' :: rest)) (some entries) rest := by
  induction entries with
  | nil =>
      exact absurd rfl hne
  | cons e es ih =>
      obtain ⟨key, v⟩ := e
      obtain ⟨hstorable, hv⟩ := hentries (key, v) List.mem_cons_self
      have hvisible : ∀ tail, ∀ d ∈ (chars v ++ tail).head?, isJsonBlank d = false := by
        obtain ⟨c, cs, hcons, hblank, -⟩ := chars_eq_cons hstorable
        rw [hcons]
        rintro tail d ⟨⟩
        exact hblank
      cases es with
      | nil =>
          obtain ⟨hlt, hread⟩ := hv ('}' :: rest) (endsNumber_cons (by decide) rest)
          obtain ⟨hltKey, hkey⟩ := readKey_literal key (hvisible ('}' :: rest))
          rw [recordChars, List.append_assoc, List.cons_append]
          refine ⟨Reading.lt_of_lt_lt hltKey (Reading.lt_of_lt_lt hlt Reading.rest_lt), ?_⟩
          rw [readEntries]
          simp only [hkey, hread, Option.bind_eq_bind, Option.bind_some]
          rfl
      | cons e' es =>
          have hes : ∀ u ∈ e' :: es, Storable limit u.2 ∧ ReadsBack limit u.2 :=
            fun u hu => hentries u (List.mem_cons_of_mem (key, v) hu)
          obtain ⟨hltEntries, hreadEntries⟩ := ih (List.cons_ne_nil e' es) hes
          obtain ⟨cs, hcons⟩ := recordChars_eq_cons e' es
          have hnext : ∀ d ∈ (recordChars (e' :: es) ++ '}' :: rest).head?,
              isJsonBlank d = false := by
            rw [hcons]
            rintro d ⟨⟩
            decide
          obtain ⟨hlt, hread⟩ := hv (',' :: (recordChars (e' :: es) ++ '}' :: rest))
            (endsNumber_cons (by decide) _)
          obtain ⟨hltKey, hkey⟩ := readKey_literal key
            (hvisible (',' :: (recordChars (e' :: es) ++ '}' :: rest)))
          rw [recordChars_cons_cons, List.append_assoc, List.cons_append, List.append_assoc,
            List.cons_append]
          refine ⟨Reading.lt_of_lt_lt hltKey
            (Reading.lt_of_lt_lt hlt (Reading.lt_cons_of_lt hltEntries)), ?_⟩
          rw [readEntries]
          simp only [hkey, hread, Option.bind_eq_bind, Option.bind_some]
          show Option.bind (readEntries limit (skipWhile isJsonBlank _).val) _ = _
          rw [skipWhile_of_head? hnext]
          simp only [Left.whole, hreadEntries, Option.bind_some]
          rfl

theorem readValue_items
    {limit : Nat} {next rest : List Char} {items : List Value}
    (hblank : ∀ c ∈ next.head?, isJsonBlank c = false)
    (hclose : next.head? ≠ some ']')
    (hread : Reads (readItems limit next) items rest) :
    Reads (readValue (limit + 1) ('[' :: next)) (.list items) rest := by
  obtain ⟨hlt, hread⟩ := hread
  refine ⟨Reading.lt_cons_of_lt hlt, ?_⟩
  rw [readValue, readChar_cons_self]
  dsimp only
  rw [skipWhile_of_head? hblank]
  simp only [Left.whole, readChar_of_ne hclose, Nat.add_sub_cancel, hread, Option.bind_eq_bind,
    Option.bind_some]
  rfl

theorem readValue_entries
    {limit : Nat} {next rest : List Char} {entries : List (String × Value)}
    (hblank : ∀ c ∈ next.head?, isJsonBlank c = false)
    (hclose : next.head? ≠ some '}')
    (hread : Reads (readEntries limit next) (some entries) rest) :
    Reads (readValue (limit + 1) ('{' :: next)) (.record entries) rest := by
  obtain ⟨hlt, hread⟩ := hread
  refine ⟨Reading.lt_cons_of_lt hlt, ?_⟩
  rw [readValue, readChar_cons_self, readChar_of_ne (by simp)]
  dsimp only
  rw [skipWhile_of_head? hblank]
  simp only [Left.whole, readChar_of_ne hclose, Nat.add_sub_cancel, hread, Option.bind_eq_bind,
    Option.bind_some]
  rfl

/-- A list reads back one level deeper than its items. -/
theorem readsBack_list
    {limit : Nat} {items : List Value}
    (hitems : ∀ v ∈ items, Storable limit v ∧ ReadsBack limit v) :
    ReadsBack (limit + 1) (.list items) := by
  intro rest _
  have hinput : chars (.list items) ++ rest = '[' :: (listChars items ++ ']' :: rest) := by
    rw [chars_list]
    simp
  rw [hinput]
  cases items with
  | nil =>
      refine ⟨Reading.lt_cons_of_lt Reading.rest_lt, ?_⟩
      rw [readValue, readChar_cons_self]
      rfl
  | cons v vs =>
      have hread := readItems_listChars (List.cons_ne_nil v vs) hitems rest
      obtain ⟨c, cs, hcons, hblank, hclose⟩ :=
        listChars_eq_cons (hitems v List.mem_cons_self).1 vs
      rw [hcons] at hread ⊢
      refine readValue_items ?_ (by simpa using hclose) hread
      rintro d ⟨⟩
      exact hblank

/-- A record reads back one level deeper than the values of its entries. -/
theorem readsBack_record
    {limit : Nat} {entries : List (String × Value)}
    (hentries : ∀ e ∈ entries, Storable limit e.2 ∧ ReadsBack limit e.2) :
    ReadsBack (limit + 1) (.record entries) := by
  intro rest _
  have hinput : chars (.record entries) ++ rest =
      '{' :: (recordChars entries ++ '}' :: rest) := by
    rw [chars_record]
    simp
  rw [hinput]
  cases entries with
  | nil =>
      refine ⟨Reading.lt_cons_of_lt Reading.rest_lt, ?_⟩
      rw [readValue, readChar_of_ne (by simp), readChar_cons_self]
      rfl
  | cons e es =>
      have hread := readEntries_recordChars (List.cons_ne_nil e es) hentries rest
      obtain ⟨cs, hcons⟩ := recordChars_eq_cons e es
      rw [hcons] at hread ⊢
      refine readValue_entries ?_ (by simp) hread
      rintro d ⟨⟩
      decide

/-- What is written for a value that can be stored is read as this value. -/
theorem readValue_chars
    {limit : Nat} {v : Value}
    (h : Storable limit v) :
    ReadsBack limit v := by
  induction h with
  | null limit =>
      intro rest _
      show Reads (readValue limit ('n' :: 'u' :: 'l' :: 'l' :: rest)) .null rest
      exact ⟨by simp; omega, readValue_scalar (by decide) (by decide) limit⟩
  | bool limit b =>
      intro rest _
      cases b with
      | true =>
          show Reads (readValue limit ('t' :: 'r' :: 'u' :: 'e' :: rest)) (.bool true) rest
          exact ⟨by simp; omega, readValue_scalar (by decide) (by decide) limit⟩
      | false =>
          show Reads (readValue limit ('f' :: 'a' :: 'l' :: 's' :: 'e' :: rest)) (.bool false) rest
          exact ⟨by simp; omega, readValue_scalar (by decide) (by decide) limit⟩
  | integer limit hword =>
      intro rest hrest
      exact readValue_integer limit hword hrest
  | string limit s =>
      intro rest _
      exact readValue_string limit s rest
  | @list limit items hitems ih =>
      exact readsBack_list fun v hv => ⟨hitems v hv, ih v hv⟩
  | @record limit entries hentries ih =>
      exact readsBack_record fun e he => ⟨hentries e he, ih e he⟩

/-- The text of a value that can be stored holds this value. -/
theorem read_compact
    {v : Value}
    (h : Storable nestingLimit v) :
    read (compact v) = some v := by
  obtain ⟨c, cs, hcons, hblank, -⟩ := chars_eq_cons h
  have hstart : (compact v).toList.dropWhile isJsonBlank = chars v ++ [] := by
    rw [compact, String.toList_ofList, List.append_nil, hcons,
      List.dropWhile_cons_of_neg (by simp [hblank])]
  have hvalue : Reads (readValue nestingLimit ((compact v).toList.dropWhile isJsonBlank)) v [] := by
    rw [hstart]
    exact readValue_chars h [] endsNumber_nil
  obtain ⟨hlt, hread⟩ := hvalue
  rw [read, hread]
  rfl

end Json
end Data
end ContractGen
