import EmbyAuto.Domain.SubtitleText

/-!
# The byte range of an artifact request

A request for an artifact names one range of bytes: from an offset to an offset, from an offset to
the end, or a number of bytes at the end. The numbers are read as 63-bit integers before they are
compared with the size, so a numeral that does not fit is an error even where every large number
means the end of the file.

## Main definitions

* `parseByteRange`: the first and the last byte that a header names

## Main results

* `parseByteRange_names_range`: the headers whose range is the one they name, and that every
  accepted range lies in the file
-/

namespace EmbyAuto

/-- `strconv.ParseUint(text, 10, 63)`. -/
def parseUint63 (text : Runes) : Option Nat := (digits? text).filter (· < 2 ^ 63)

/-- The range of the two texts around the dash. -/
def byteRangeOf (size : Int) (first last : Runes) : Option (Int × Int) :=
  if first = [] then
    (parseUint63 last).bind fun suffix =>
      if suffix = 0 then none else some (size - min (suffix : Int) size, size - 1)
  else
    (parseUint63 first).bind fun start =>
      (if last = [] then some (size - 1) else (parseUint63 last).map Int.ofNat).bind fun stop =>
        if (start : Int) < 0 ∨ stop < start ∨ size ≤ start then none
        else some (start, if size ≤ stop then size - 1 else stop)

def parseByteRange (header : Runes) (size : Int) : Option (Int × Int) :=
  if ¬ "bytes=".toList <+: header ∨ size ≤ 0 then none
  else match splitN '-' 2 (header.drop 6) with
    | [first, last] => byteRangeOf size first last
    | _ => none

/-- The header with these texts around the dash. -/
def rangeHeader (first last : Runes) : Runes := "bytes=".toList ++ (first ++ '-' :: last)

section Range

variable {size : Int} {first last : Runes} {m n : Nat}

/-- A numeral is read if it fits 63 bits. -/
theorem parseUint63_eq (h : digits? first = some m) :
    parseUint63 first = if m < 2 ^ 63 then some m else none := by
  rw [parseUint63, h, Option.filter_some]
  simp

theorem parseByteRange_rangeHeader (hsize : 0 < size) (h : '-' ∉ first) :
    parseByteRange (rangeHeader first last) size = byteRangeOf size first last := by
  have hstart : "bytes=".toList <+: rangeHeader first last := List.prefix_append _ _
  rw [parseByteRange, if_neg (not_or.mpr ⟨not_not.mpr hstart, Int.not_le.mpr hsize⟩)]
  change (match splitN '-' 2 (first ++ '-' :: last) with
    | [first, last] => byteRangeOf size first last
    | _ => none) = _
  rw [splitN_cons h last 0]
  rfl

/-- An accepted range lies in the file. -/
theorem parseByteRange_bounds {header : Runes} {start stop : Int}
    (h : parseByteRange header size = some (start, stop)) :
    0 ≤ start ∧ start ≤ stop ∧ stop < size := by
  obtain ⟨hguard, h⟩ := Option.ite_none_left_eq_some.mp h
  split at h
  · unfold byteRangeOf at h
    split at h
    · obtain ⟨suffix, -, h⟩ := Option.bind_eq_some_iff.mp h
      obtain ⟨hsuffix, h⟩ := Option.ite_none_left_eq_some.mp h
      cases h
      omega
    · obtain ⟨first, -, h⟩ := Option.bind_eq_some_iff.mp h
      obtain ⟨last, -, h⟩ := Option.bind_eq_some_iff.mp h
      obtain ⟨hordered, h⟩ := Option.ite_none_left_eq_some.mp h
      cases h
      split_ifs <;> omega
  · cases h

/-- **The range of a header.** A range between two offsets and a range at the end are those that
the header names exactly if the numeral that may exceed the size fits 63 bits; a range from an
offset to the end always is. -/
theorem parseByteRange_names_range (hsize : 0 < size) (hmax : size < 2 ^ 63) :
    (∀ first last m n, digits? first = some m → digits? last = some n → m ≤ n →
      (parseByteRange (rangeHeader first last) size =
          (if (m : Int) < size then some ((m : Int), min (n : Int) (size - 1)) else none) ↔
        n < 2 ^ 63 ∨ size ≤ m)) ∧
    (∀ first m, digits? first = some m → parseByteRange (rangeHeader first []) size =
      if (m : Int) < size then some ((m : Int), size - 1) else none) ∧
    (∀ last n, digits? last = some n → 1 ≤ n →
      (parseByteRange (rangeHeader [] last) size = some (size - min (n : Int) size, size - 1) ↔
        n < 2 ^ 63)) ∧
    ∀ header start stop, parseByteRange header size = some (start, stop) →
      0 ≤ start ∧ start ≤ stop ∧ stop < size := by
  have hnumeral : ∀ {text : List Char} {k : Nat}, digits? text = some k →
      text ≠ [] ∧ '-' ∉ text := by
    intro text k h
    obtain ⟨⟨hne, hdigits⟩, -⟩ := Option.ite_none_right_eq_some.mp h
    exact ⟨hne, fun hmem => absurd (List.all_eq_true.mp hdigits _ hmem) (by decide)⟩
  refine ⟨?_, ?_, ?_, fun header start stop => parseByteRange_bounds⟩
  -- a numeral from `2 ^ 63` on is not read, and then there is no range
  · intro first last m n hfirst hlast hle
    rw [parseByteRange_rangeHeader hsize (hnumeral hfirst).2, byteRangeOf,
      if_neg (hnumeral hfirst).1, if_neg (hnumeral hlast).1, parseUint63_eq hfirst,
      parseUint63_eq hlast]
    by_cases hm : m < 2 ^ 63 <;> by_cases hn : n < 2 ^ 63 <;> simp <;> grind
  · intro first m hfirst
    rw [parseByteRange_rangeHeader hsize (hnumeral hfirst).2, byteRangeOf,
      if_neg (hnumeral hfirst).1, if_pos rfl, parseUint63_eq hfirst]
    by_cases hm : m < 2 ^ 63 <;> simp <;> grind
  · intro last n hlast hpos
    rw [parseByteRange_rangeHeader hsize List.not_mem_nil, byteRangeOf, if_pos rfl,
      parseUint63_eq hlast]
    by_cases hn : n < 2 ^ 63 <;> simp <;> grind

theorem parseByteRange_names_range_ten :
    parseByteRange (rangeHeader ['2'] ['9', '9']) 10 = some (2, 9) :=
  ((@parseByteRange_names_range 10 (by decide) (by decide)).1 ['2'] ['9', '9'] 2 99 (by decide)
    (by decide) (by decide)).mpr (.inl (by decide))

/-- A file of ten bytes, and its bytes up to a numeral of 64 bits. -/
theorem parseByteRange_long_numeral :
    digits? "9223372036854775808".toList = some (2 ^ 63) ∧
      parseByteRange "bytes=0-9223372036854775808".toList 10 = none := by
  decide +kernel

end Range

end EmbyAuto
