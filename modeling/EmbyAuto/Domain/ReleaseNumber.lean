import EmbyAuto.Domain.ReleaseTitle

/-!
# Numerals in release titles

A season or an episode is written in decimal digits, in Chinese digits read by their position, or
in Chinese digits with the units ten and hundred. Each kind of numeral has its text and the number
that it denotes; the parser reads the text without knowing the kind.

The loop keeps one digit that waits for its unit. A further digit takes its place, so of the digits
of a positional numeral only the last one counts. A digit after the hundreds whose unit is left out
stands for tens, but the loop takes it for ones.

## Main definitions

* `RSSReleaseNumeral`: the numerals with their texts and the numbers that they denote
* `RSSReleaseNumeral.Readable`: the numerals whose number the parser can give

## Main results

* `parseRSSReleaseNumber_decimal`, `parseRSSReleaseNumber_positional`,
  `parseRSSReleaseNumber_units`: the parser on each kind of numeral
* `parseRSSReleaseNumber_iff_readable`: the parser gives the number or nothing exactly for the
  readable numerals
-/

namespace EmbyAuto

/-! ## Decimal digits -/

section Decimal

variable {digits : Runes}

theorem decimal_eq_ofDigitChars (h : ∀ c ∈ digits, c.isDigit = true) :
    decimal digits = (Nat.ofDigitChars 10 digits 0 : Nat) := by
  have hfold : ∀ (digits : Runes) (n : Nat),
      digits.foldl (fun (n : Int) c => 10 * n + (c.toNat - '0'.toNat : Nat)) (n) =
        (digits.foldl (fun n c => 10 * n + (c.toNat - '0'.toNat)) n) := by
    intro digits
    induction digits with
    | nil => exact fun n => rfl
    | cons c digits ih =>
      intro n
      rw [List.foldl_cons, List.foldl_cons, ← ih]
      rfl
  rw [decimal, if_pos (List.all_eq_true.mpr h)]
  exact_mod_cast hfold digits 0

/-- Decimal digits are read as the number that they wrap to, if it is positive. -/
theorem parseRSSReleaseNumber_decimal (hne : digits ≠ []) (h : ∀ c ∈ digits, c.isDigit = true) :
    parseRSSReleaseNumber digits = max 0 (int64 (Nat.ofDigitChars 10 digits 0 : Nat)) := by
  obtain ⟨c, rest, rfl⟩ := List.exists_cons_of_ne_nil hne
  have hc := h c List.mem_cons_self
  have hdigit : rssReleaseDigit? c = none := by
    unfold rssReleaseDigit?
    split <;> first | rfl | exact absurd hc (by decide)
  have hunit : rssReleaseUnit? c = none := by
    unfold rssReleaseUnit?
    split <;> first | rfl | exact absurd hc (by decide)
  have hnumerals : parseRSSReleaseNumerals (c :: rest) 0 0 = 0 := by
    rw [parseRSSReleaseNumerals, hdigit, hunit]
  rw [parseRSSReleaseNumber, trimFunc_of_forall fun c hc => isSpace_of_isDigit (h c hc),
    decimal_eq_ofDigitChars h, hnumerals]
  split_ifs with hpositive
  · rw [max_eq_right hpositive.le]
  · rw [max_eq_left (not_lt.mp hpositive)]
    rfl

end Decimal

/-! ## Chinese digits -/

/-- The digits and the numbers that they denote. -/
def chineseDigits : List (Char × Nat) :=
  [('零', 0), ('〇', 0), ('一', 1), ('二', 2), ('两', 2), ('兩', 2), ('三', 3), ('四', 4), ('五', 5),
    ('六', 6), ('七', 7), ('八', 8), ('九', 9)]

structure ChineseDigit where
  char : Char
  value : Nat
  mem : (char, value) ∈ chineseDigits

/-- What the parser and the texts need to know about a character of a Chinese numeral. -/
structure IsChinese (c : Char) : Prop where
  not_isDigit : c.isDigit = false
  not_isSpace : isSpace c = false

theorem ChineseDigit.spec (d : ChineseDigit) :
    rssReleaseDigit? d.char = some (d.value : Int) ∧ IsChinese d.char := by
  have hall : ∀ entry ∈ chineseDigits, rssReleaseDigit? entry.1 = some (entry.2) ∧
      entry.1.isDigit = false ∧ isSpace entry.1 = false := by
    simp only [chineseDigits, List.forall_mem_cons, List.not_mem_nil, false_implies, implies_true]
    repeat' constructor
  obtain ⟨hdigit, hnot, hspace⟩ := hall _ d.mem
  exact ⟨hdigit, hnot, hspace⟩

section Loop

variable (rest : Runes) (total current : Int)

theorem parseRSSReleaseNumerals_chineseDigit (d : ChineseDigit) :
    parseRSSReleaseNumerals (d.char :: rest) total current =
      parseRSSReleaseNumerals rest total d.value := by
  rw [parseRSSReleaseNumerals, d.spec.1]

theorem parseRSSReleaseNumerals_ten : parseRSSReleaseNumerals ('十' :: rest) total current =
    parseRSSReleaseNumerals rest (total + (if current = 0 then 1 else current) * 10) 0 := rfl

theorem parseRSSReleaseNumerals_hundred : parseRSSReleaseNumerals ('百' :: rest) total current =
    parseRSSReleaseNumerals rest (total + (if current = 0 then 1 else current) * 100) 0 := rfl

end Loop

/-- A text of Chinese characters is read by the loop. -/
theorem parseRSSReleaseNumber_chinese {text : Runes} (hne : text ≠ [])
    (h : ∀ c ∈ text, IsChinese c) :
    parseRSSReleaseNumber text = int64 (parseRSSReleaseNumerals text 0 0) := by
  have hdecimal : decimal text = 0 := by
    obtain ⟨c, rest, rfl⟩ := List.exists_cons_of_ne_nil hne
    exact if_neg (by simp [(h c (by simp)).not_isDigit])
  rw [parseRSSReleaseNumber, trimFunc_of_forall fun c hc => (h c hc).not_isSpace, hdecimal]
  rfl

/-! ## Digits by their position -/

/-- The number that digits denote by their position. -/
def positionalValue (digits : List ChineseDigit) : Nat :=
  digits.foldl (fun n d => 10 * n + d.value) 0

variable (digits : List ChineseDigit)

theorem positionalValue_concat (d : ChineseDigit) :
    positionalValue (digits ++ [d]) = 10 * positionalValue digits + d.value := by
  simp [positionalValue]

theorem positionalValue_eq_zero {digits} :
    positionalValue digits = 0 ↔ ∀ d ∈ digits, d.value = 0 := by
  induction digits using List.reverseRecOn with
  | nil => simp [positionalValue]
  | append_singleton digits d ih =>
    rw [positionalValue_concat]
    simp only [List.mem_append, List.mem_singleton]
    constructor
    · rintro hzero d' (hd' | rfl)
      · exact ih.mp (by omega) d' hd'
      · omega
    · intro hall
      have := ih.mpr fun d' hd' => hall d' (.inl hd')
      have := hall d (.inr rfl)
      omega

theorem ChineseDigit.value_lt (d : ChineseDigit) : d.value < 10 := by
  have hall : ∀ entry ∈ chineseDigits, entry.2 < 10 := by decide
  exact hall _ d.mem

/-- Each digit takes the place of the one before. -/
theorem parseRSSReleaseNumerals_positional (last : ChineseDigit) (total current : Int) :
    parseRSSReleaseNumerals ((digits ++ [last]).map ChineseDigit.char) total current =
      total + last.value := by
  induction digits generalizing current with
  | nil => exact parseRSSReleaseNumerals_chineseDigit [] total current last
  | cons d digits ih =>
    rw [List.cons_append, List.map_cons, parseRSSReleaseNumerals_chineseDigit, ih]

theorem parseRSSReleaseNumber_positional (last : ChineseDigit) :
    parseRSSReleaseNumber ((digits ++ [last]).map ChineseDigit.char) = last.value := by
  rw [parseRSSReleaseNumber_chinese (by simp), parseRSSReleaseNumerals_positional, Int.zero_add]
  · have := last.value_lt
    exact int64_of_range (by omega) (by omega)
  · intro c hc
    obtain ⟨d, -, rfl⟩ := List.mem_map.mp hc
    exact d.spec.2

/-! ## Digits with units -/

/-- A digit before a unit, or alone at the end. -/
structure NonzeroDigit extends ChineseDigit where
  ne_zero : value ≠ 0

/-- The numerals with the units ten and hundred. A unit without a digit counts once; between
hundreds and ones stands a zero, since a digit right after the hundreds means tens. -/
inductive UnitNumeral where
  | tens (tens : Option NonzeroDigit) (ones : Option NonzeroDigit)
  | hundreds (hundreds : Option NonzeroDigit)
  | hundredsOnes (hundreds : Option NonzeroDigit) (zero : ChineseDigit) (isZero : zero.value = 0)
      (ones : NonzeroDigit)
  | hundredsShort (hundreds : Option NonzeroDigit) (tens : NonzeroDigit)
  | hundredsTens (hundreds tens : Option NonzeroDigit) (ones : Option NonzeroDigit)

variable (n : UnitNumeral)

namespace UnitNumeral

def digitText (digit : Option NonzeroDigit) : Runes := (digit.map (·.char)).toList

/-- The count of a unit. -/
def count (digit : Option NonzeroDigit) : Nat := (digit.map (·.value)).getD 1

def onesValue (digit : Option NonzeroDigit) : Nat := (digit.map (·.value)).getD 0

def text : UnitNumeral → Runes
  | tens t o => digitText t ++ '十' :: digitText o
  | hundreds h => digitText h ++ ['百']
  | hundredsOnes h zero _ o => digitText h ++ ['百', zero.char, o.char]
  | hundredsShort h t => digitText h ++ ['百', t.char]
  | hundredsTens h t o => digitText h ++ '百' :: (digitText t ++ '十' :: digitText o)

def value : UnitNumeral → Nat
  | tens t o => 10 * count t + onesValue o
  | hundreds h => 100 * count h
  | hundredsOnes h _ _ o => 100 * count h + o.value
  | hundredsShort h t => 100 * count h + 10 * t.value
  | hundredsTens h t o => 100 * count h + 10 * count t + onesValue o

/-- No unit is left out. -/
def writtenOut : UnitNumeral → Bool
  | hundredsShort _ _ => false
  | _ => true

/-- The number that the loop finds. -/
def reading : UnitNumeral → Nat
  | hundredsShort h t => 100 * count h + t.value
  | n => n.value

variable (digit : Option NonzeroDigit)

/-- A unit with the digit before it adds its count. -/
theorem parse_unit {unit : Char} {factor : Int} (rest : Runes) (total : Int)
    (hunit : ∀ rest total current, parseRSSReleaseNumerals (unit :: rest) total current =
      parseRSSReleaseNumerals rest (total + (if current = 0 then 1 else current) * factor) 0) :
    parseRSSReleaseNumerals (digitText digit ++ unit :: rest) total 0 =
      parseRSSReleaseNumerals rest (total + count digit * factor) 0 := by
  cases digit with
  | none => simp [digitText, count, hunit]
  | some d =>
    have hne : ((d.value) : Int) ≠ 0 := by exact_mod_cast d.ne_zero
    change parseRSSReleaseNumerals (d.char :: unit :: rest) total 0 = _
    rw [parseRSSReleaseNumerals_chineseDigit, hunit, if_neg hne]
    rfl

theorem parse_ones (total : Int) :
    parseRSSReleaseNumerals (digitText digit) total 0 = total + onesValue digit := by
  cases digit with
  | none => rfl
  | some d => exact parseRSSReleaseNumerals_chineseDigit [] total 0 d.toChineseDigit

theorem parse_text : parseRSSReleaseNumerals n.text 0 0 = n.reading := by
  cases n with
  | tens t o =>
    rw [text, parse_unit t _ 0 parseRSSReleaseNumerals_ten, parse_ones]
    simp only [reading, value]
    omega
  | hundreds h =>
    rw [text, parse_unit h _ 0 parseRSSReleaseNumerals_hundred]
    simp only [parseRSSReleaseNumerals, reading, value]
    omega
  | hundredsOnes h zero hzero o =>
    rw [text, parse_unit h _ 0 parseRSSReleaseNumerals_hundred,
      parseRSSReleaseNumerals_chineseDigit, parseRSSReleaseNumerals_chineseDigit]
    simp only [parseRSSReleaseNumerals, reading, value]
    omega
  | hundredsShort h t =>
    rw [text, parse_unit h _ 0 parseRSSReleaseNumerals_hundred,
      parseRSSReleaseNumerals_chineseDigit]
    simp only [parseRSSReleaseNumerals, reading]
    omega
  | hundredsTens h t o =>
    rw [text, parse_unit h _ 0 parseRSSReleaseNumerals_hundred,
      parse_unit t _ _ parseRSSReleaseNumerals_ten, parse_ones]
    simp only [reading, value]
    omega

theorem isChinese_of_mem_digitText {digit} {c : Char} (h : c ∈ digitText digit) : IsChinese c := by
  cases digit with
  | none => cases h
  | some d =>
    obtain rfl := List.mem_singleton.mp h
    exact d.spec.2

theorem isChinese_of_mem {c : Char} (h : c ∈ n.text) : IsChinese c := by
  have hten : IsChinese '十' := ⟨rfl, rfl⟩
  have hhundred : IsChinese '百' := ⟨rfl, rfl⟩
  cases n with
  | tens t o =>
    simp only [text, List.mem_append, List.mem_cons] at h
    rcases h with h | rfl | h
    · exact isChinese_of_mem_digitText h
    · exact hten
    · exact isChinese_of_mem_digitText h
  | hundreds h' =>
    simp only [text, List.mem_append, List.mem_singleton] at h
    rcases h with h | rfl
    · exact isChinese_of_mem_digitText h
    · exact hhundred
  | hundredsOnes h' zero hzero o =>
    simp only [text, List.mem_append, List.mem_cons, List.not_mem_nil, or_false] at h
    rcases h with h | rfl | rfl | rfl
    · exact isChinese_of_mem_digitText h
    · exact hhundred
    · exact zero.spec.2
    · exact o.spec.2
  | hundredsShort h' t =>
    simp only [text, List.mem_append, List.mem_cons, List.not_mem_nil, or_false] at h
    rcases h with h | rfl | rfl
    · exact isChinese_of_mem_digitText h
    · exact hhundred
    · exact t.spec.2
  | hundredsTens h' t o =>
    simp only [text, List.mem_append, List.mem_cons] at h
    rcases h with h | rfl | h | rfl | h
    · exact isChinese_of_mem_digitText h
    · exact hhundred
    · exact isChinese_of_mem_digitText h
    · exact hten
    · exact isChinese_of_mem_digitText h

theorem count_lt : count digit < 10 := by
  cases digit with
  | none => decide
  | some d => exact d.value_lt

theorem onesValue_lt : onesValue digit < 10 := by
  cases digit with
  | none => decide
  | some d => exact d.value_lt

theorem reading_lt : n.reading < 1000 := by
  cases n with
  | tens t o =>
    have := count_lt t
    have := onesValue_lt o
    simp only [reading, value]
    omega
  | hundreds h =>
    have := count_lt h
    simp only [reading, value]
    omega
  | hundredsOnes h zero hzero o =>
    have := count_lt h
    have := o.value_lt
    simp only [reading, value]
    omega
  | hundredsShort h t =>
    have := count_lt h
    have := t.value_lt
    simp only [reading]
    omega
  | hundredsTens h t o =>
    have := count_lt h
    have := count_lt t
    have := onesValue_lt o
    simp only [reading, value]
    omega

theorem reading_eq_zero_or_value : n.reading = 0 ∨ n.reading = n.value ↔ n.writtenOut = true := by
  cases n with
  | hundredsShort h t =>
    have := t.ne_zero
    simp only [reading, value, writtenOut, Bool.false_eq_true, iff_false]
    omega
  | _ => simp [reading, writtenOut]

end UnitNumeral

theorem parseRSSReleaseNumber_units : parseRSSReleaseNumber n.text = n.reading := by
  have := n.reading_lt
  rw [parseRSSReleaseNumber_chinese (by cases n <;> simp [UnitNumeral.text])
    fun c hc => n.isChinese_of_mem hc, n.parse_text, int64_of_range (by omega) (by omega)]

/-! ## All numerals -/

inductive RSSReleaseNumeral where
  | decimal (digits : Runes) (ne_nil : digits ≠ []) (all : digits.all Char.isDigit = true)
  | positional (digits : List ChineseDigit) (ne_nil : digits ≠ [])
  | units (numeral : UnitNumeral)

namespace RSSReleaseNumeral

def text : RSSReleaseNumeral → Runes
  | decimal digits _ _ => digits
  | positional digits _ => digits.map ChineseDigit.char
  | units numeral => numeral.text

def value : RSSReleaseNumeral → Nat
  | decimal digits _ _ => Nat.ofDigitChars 10 digits 0
  | positional digits _ => positionalValue digits
  | units numeral => numeral.value

/-- The number is the one that the loop keeps: a decimal number within the range of an `int`, or
beyond it one that wraps to no positive number; Chinese digits with nothing but zeros before the
last one, or with a zero at the end; units that are all written. -/
def Readable : RSSReleaseNumeral → Prop
  | decimal digits _ _ =>
    let n := Nat.ofDigitChars 10 digits 0
    n < 2 ^ 63 ∨ n % 2 ^ 64 = 0 ∨ 2 ^ 63 ≤ n % 2 ^ 64
  | positional digits ne_nil =>
    (∀ d ∈ digits.dropLast, d.value = 0) ∨ (digits.getLast ne_nil).value = 0
  | units numeral => numeral.writtenOut = true

end RSSReleaseNumeral

/-- The parser gives the number of a numeral or nothing exactly for the readable numerals. -/
theorem parseRSSReleaseNumber_iff_readable (n : RSSReleaseNumeral) :
    (parseRSSReleaseNumber n.text = 0 ∨ parseRSSReleaseNumber n.text = n.value) ↔ n.Readable := by
  cases n with
  | decimal digits hne hall =>
    simp only [RSSReleaseNumeral.text, RSSReleaseNumeral.value, RSSReleaseNumeral.Readable]
    rw [parseRSSReleaseNumber_decimal hne (List.all_eq_true.mp hall)]
    rw [int64, Int.bmod]
    split_ifs with hhalf <;> omega
  | positional digits hne =>
    obtain ⟨front, last, rfl⟩ := List.eq_nil_or_concat digits |>.resolve_left hne
    simp only [RSSReleaseNumeral.text, RSSReleaseNumeral.value, RSSReleaseNumeral.Readable,
      List.concat_eq_append, List.dropLast_concat, List.getLast_concat]
    rw [parseRSSReleaseNumber_positional, positionalValue_concat, ← positionalValue_eq_zero]
    omega
  | units numeral =>
    simp only [RSSReleaseNumeral.text, RSSReleaseNumeral.value, RSSReleaseNumeral.Readable]
    rw [parseRSSReleaseNumber_units, ← numeral.reading_eq_zero_or_value]
    norm_cast

/-- The digits of twelve are read as two. -/
theorem positional_twelve_misread : ∃ n : RSSReleaseNumeral, n.text = "一二".toList ∧
    n.value = 12 ∧ parseRSSReleaseNumber n.text = 2 :=
  ⟨.positional [⟨'一', 1, by decide⟩, ⟨'二', 2, by decide⟩] (by simp), rfl, rfl, by decide⟩

end EmbyAuto
