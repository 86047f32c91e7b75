import Mathlib

/-!
# Text functions of the Go standard library

The functions of `strings`, `unicode`, `strconv`, `fmt`, `encoding/hex`, `path` and
`path/filepath` that the repository uses, on lists of characters. The Unicode tables are a
parameter of the functions that read them.
-/

namespace EmbyAuto

/-- A text as its runes. -/
abbrev Runes := List Char

/-- `unicode.IsSpace`. -/
def isSpace (c : Char) : Bool :=
  c ∈ ['\t', '\n', '\x0b', '\x0c', '\r', ' ', '\u0085', '\u00a0', '\u1680', '\u2028', '\u2029',
    '\u202f', '\u205f', '\u3000'] || ('\u2000' ≤ c && c ≤ '\u200a')

/-- `unicode.IsControl`. -/
def isControl (c : Char) : Bool := c.toNat < 0x20 || (0x7f ≤ c.toNat && c.toNat ≤ 0x9f)

/-- Drops the characters that satisfy `p` at both ends, as `strings.TrimFunc`. -/
def trimFunc (p : Char → Bool) (text : Runes) : Runes :=
  ((text.dropWhile p).reverse.dropWhile p).reverse

/-- `strings.TrimSpace`. -/
def trimSpace (text : String) : String := .ofList (trimFunc isSpace text.toList)

theorem dropWhile_eq_self {p : Char → Bool} {l : Runes} (h : ∀ c ∈ l.head?, p c = false) :
    l.dropWhile p = l := by
  cases l with
  | nil => rfl
  | cons c l => exact List.dropWhile_cons_of_neg (by simp [h c rfl])

theorem head_dropWhile {p : Char → Bool} {l : Runes} {c : Char}
    (hc : c ∈ (l.dropWhile p).head?) : p c = false := by
  have := List.head?_dropWhile_not p l
  rw [hc] at this
  simpa using this

theorem trimFunc_front (p : Char → Bool) (text : Runes) :
    trimFunc p text <+: text.dropWhile p := by
  rw [trimFunc, ← List.reverse_suffix, List.reverse_reverse]
  exact List.dropWhile_suffix p

theorem trimFunc_part (p : Char → Bool) (text : Runes) : trimFunc p text <:+: text :=
  (trimFunc_front p text).isInfix.trans (List.dropWhile_suffix p).isInfix

/-- What is left of a trimmed text begins and ends with a character that stays. -/
theorem ends_trimFunc (p : Char → Bool) (text : Runes) :
    (∀ c ∈ (trimFunc p text).head?, p c = false) ∧
      ∀ c ∈ (trimFunc p text).getLast?, p c = false := by
  constructor
  · intro c hc
    obtain ⟨rest, hrest⟩ := trimFunc_front p text
    refine head_dropWhile (l := text) ?_
    rw [← hrest, List.head?_append, hc]
    rfl
  · intro c hc
    rw [trimFunc, List.getLast?_reverse] at hc
    exact head_dropWhile hc

theorem trimFunc_eq_self {p : Char → Bool} {text : Runes}
    (hhead : ∀ c ∈ text.head?, p c = false) (hlast : ∀ c ∈ text.getLast?, p c = false) :
    trimFunc p text = text := by
  rw [trimFunc, dropWhile_eq_self hhead, dropWhile_eq_self (by simpa using hlast),
    List.reverse_reverse]

/-- Trimming twice is trimming once. -/
theorem trimFunc_trimFunc (p : Char → Bool) (text : Runes) :
    trimFunc p (trimFunc p text) = trimFunc p text :=
  trimFunc_eq_self (ends_trimFunc p text).1 (ends_trimFunc p text).2

theorem trimSpace_trimSpace (text : String) : trimSpace (trimSpace text) = trimSpace text := by
  rw [trimSpace, trimSpace, String.toList_ofList, trimFunc_trimFunc]

theorem isAlphanum_range {c : Char} (h : c.isAlphanum = true) :
    0x20 < c.toNat ∧ c.toNat < 0x7f := by
  simp only [Char.isAlphanum, Char.isAlpha, Char.isUpper, Char.isLower, Char.isDigit,
    UInt32.le_iff_toNat_le] at h
  simp at h
  omega

theorem toNat_lt_of_isAlphanum {c : Char} (h : c.isAlphanum = true) : c.toNat < 0x80 :=
  Nat.lt_trans (isAlphanum_range h).2 (by decide)

theorem forall_ascii {P : Char → Prop} (h : ∀ n < 0x80, P (Char.ofNat n)) {c : Char}
    (hc : c.toNat < 0x80) : P c := by
  simpa using h c.toNat hc

theorem isAlphanum_of_isSpace {c : Char} (h : isSpace c = true) : c.isAlphanum = false := by
  simp only [isSpace, List.mem_cons, List.not_mem_nil, or_false, Bool.or_eq_true, Bool.and_eq_true,
    decide_eq_true_eq] at h
  rcases h with (rfl | rfl | rfl | rfl | rfl | rfl | rfl | rfl | rfl | rfl | rfl | rfl | rfl |
    rfl) |
    ⟨h, -⟩
  iterate 14 rfl
  have hlarge : (0x2000) ≤ c.val := h
  grind [Char.isAlphanum, Char.isAlpha, Char.isUpper, Char.isLower, Char.isDigit]

theorem isSpace_of_isAlphanum {c : Char} (h : c.isAlphanum = true) : isSpace c = false :=
  Bool.eq_false_iff.mpr fun hspace => by simp [isAlphanum_of_isSpace hspace] at h

theorem isSpace_of_isDigit {c : Char} (h : c.isDigit = true) : isSpace c = false :=
  isSpace_of_isAlphanum (by simp [Char.isAlphanum, h])

theorem trimFunc_of_forall {p : Char → Bool} {text : Runes} (h : ∀ c ∈ text, p c = false) :
    trimFunc p text = text :=
  trimFunc_eq_self (fun c hc => h c (List.mem_of_mem_head? hc))
    fun c hc => h c (List.mem_of_getLast? hc)

theorem forall_ne_of_not_mem {separator : Char} {text : Runes} (h : separator ∉ text) :
    ∀ c ∈ text, decide (c ≠ separator) = true :=
  fun _ hc => decide_eq_true fun heq => h (heq ▸ hc)

theorem mem_of_mem_splitOnP {p : Char → Bool} (text : Runes) :
    ∀ part ∈ text.splitOnP p, ∀ c ∈ part, c ∈ text ∧ p c = false := by
  induction text with
  | nil => simp
  | cons c text ih =>
    rw [List.splitOnP_cons_eq_if_modifyHead]
    split_ifs with heq
    · exact List.forall_mem_cons.mpr ⟨nofun, fun part hpart d hd =>
        (ih part hpart d hd).imp_left (List.mem_cons_of_mem c)⟩
    · cases hsplit : text.splitOnP p with
      | nil => exact absurd hsplit (List.splitOnP_ne_nil _ _)
      | cons first rest =>
        simp only [List.modifyHead_cons] at ih ⊢
        grind

theorem splitOn_not_mem {separator : Char} (text : Runes) :
    ∀ part ∈ text.splitOn separator, separator ∉ part := by
  intro part hpart hmem
  simpa using (mem_of_mem_splitOnP text part hpart separator hmem).2

theorem intercalate_ne_nil {separator : Char} {first : Runes} {rest : List Runes}
    (h : first ≠ []) : [separator].intercalate (first :: rest) ≠ [] := by
  cases rest with
  | nil => simpa using h
  | cons second rest => simp

theorem mem_intercalate_singleton {separator c : Char} {parts : List Runes}
    (h : c ∈ [separator].intercalate parts) : c = separator ∨ ∃ part ∈ parts, c ∈ part := by
  induction parts with
  | nil => simp at h
  | cons part parts ih =>
    cases parts with
    | nil => exact .inr ⟨part, List.mem_cons_self, by simpa using h⟩
    | cons next parts =>
      rw [List.intercalate_cons_cons, List.mem_append, List.mem_append] at h
      rcases h with (hpart | hseparator) | hrest
      · exact .inr ⟨part, List.mem_cons_self, hpart⟩
      · exact .inl (List.mem_singleton.mp hseparator)
      · obtain heq | ⟨other, hother, hc⟩ := ih hrest
        · exact .inl heq
        · exact .inr ⟨other, List.mem_cons_of_mem _ hother, hc⟩

/-- `strings.EqualFold`, with the representative of each character under simple case folding. -/
def equalFold (foldRune : Char → Char) (left right : Runes) : Bool :=
  left.map foldRune = right.map foldRune

/-- `strings.Fields`: the maximal runs of characters that are not spaces. -/
def fields (text : Runes) : List Runes := (text.splitOnP isSpace).filter (· ≠ [])

/-- The decimal digits of a number, with zeros in front up to the given width (`%0*d`). -/
def padZero (width n : Nat) : String :=
  let digits := toString n
  .ofList (List.replicate (width - digits.length) '0') ++ digits

/-- The value of a non-empty list of decimal digits. -/
def digits? (text : Runes) : Option Nat :=
  if text ≠ [] ∧ text.all Char.isDigit then
    some (text.foldl (fun n c => 10 * n + (c.toNat - '0'.toNat)) 0)
  else none

/-- `strconv.Atoi` for a 64-bit `int`. -/
def atoi? (text : String) : Option Int :=
  match text.toList with
  | '-' :: rest => (digits? rest).bind fun n => if n ≤ 2 ^ 63 then some (-n) else none
  | '+' :: rest => (digits? rest).bind fun n => if n < 2 ^ 63 then some n else none
  | rest => (digits? rest).bind fun n => if n < 2 ^ 63 then some n else none

/-- The 64-bit `int` that sums and products wrap to. -/
def int64 (n : Int) : Int := n.bmod (2 ^ 64)

theorem int64_of_range {n : Int} (hlow : -2 ^ 63 ≤ n) (hhigh : n < 2 ^ 63) : int64 n = n :=
  Int.bmod_eq_of_le (show -(((2 ^ 64 : Nat)) / 2) ≤ n by omega)
    (show n < (((2 ^ 64 : Nat)) + 1) / 2 by omega)

/-- `hex.EncodeToString`. -/
def hex (bytes : List UInt8) : String :=
  .ofList (bytes.flatMap fun b => [Nat.digitChar (b.toNat / 16), Nat.digitChar (b.toNat % 16)])

/-- `filepath.Base` of a slash-separated path. -/
def fileBase (path : String) : String :=
  if path = "" then "."
  else match path.toList.reverse.dropWhile (· = '/') with
    | [] => "/"
    | name => .ofList (name.takeWhile (· ≠ '/')).reverse

/-- The characters of a name in reverse, split at its last dot. -/
def splitExt (name : String) : Runes × Runes :=
  name.toList.reverse.span (· ≠ '.')

/-- `filepath.Ext` of a name without separators: from the last dot on. -/
def fileExt (name : String) : String :=
  match splitExt name with
  | (_, []) => ""
  | (extension, _ :: _) => .ofList ('.' :: extension.reverse)

/-- `strings.TrimSuffix(name, filepath.Ext(name))`. -/
def fileStem (name : String) : String :=
  match splitExt name with
  | (_, []) => name
  | (_, _ :: stem) => .ofList stem.reverse

/-! ## Hexadecimal digits -/

/-- The value of a hexadecimal digit. -/
def unhex? (c : Char) : Option Nat :=
  if c.isDigit then some (c.toNat - '0'.toNat)
  else if 'a' ≤ c ∧ c ≤ 'f' then some (c.toNat - 'a'.toNat + 10)
  else if 'A' ≤ c ∧ c ≤ 'F' then some (c.toNat - 'A'.toNat + 10)
  else none

/-- The hexadecimal digits of a number, with leading zeros up to the width. -/
def hexDigits (width n : Nat) : Runes :=
  (List.range width).map fun i => Nat.digitChar (n / 16 ^ (width - 1 - i) % 16)

theorem hexDigits_succ (width n : Nat) :
    hexDigits (width + 1) n = hexDigits width (n / 16) ++ [Nat.digitChar (n % 16)] := by
  rw [hexDigits, List.range_succ, List.map_append]
  congr 1
  · refine List.map_congr_left fun i hi => ?_
    have hlt : i < width := List.mem_range.mp hi
    rw [Nat.div_div_eq_div_mul, ← Nat.pow_succ', show width + 1 - 1 - i =
      (width - 1 - i).succ by omega]
  · simp

/-- The last digits of a number are those of its remainder. -/
theorem hexDigits_add (width more n : Nat) :
    hexDigits (width + more) n = hexDigits width (n / 16 ^ more) ++ hexDigits more n := by
  induction more generalizing n with
  | zero => simp [hexDigits]
  | succ more ih =>
    rw [← Nat.add_assoc, hexDigits_succ, hexDigits_succ, ih, Nat.div_div_eq_div_mul,
      ← Nat.pow_succ', List.append_assoc]

theorem mem_hexDigits {width n : Nat} {c : Char} (h : c ∈ hexDigits width n) :
    c ∈ "0123456789abcdef".toList := by
  obtain ⟨i, -, rfl⟩ := List.mem_map.mp h
  exact (show ∀ d < 16, Nat.digitChar d ∈ "0123456789abcdef".toList by decide) _
    (Nat.mod_lt _ (by decide))

/-- The digits of a number spell it. -/
theorem hexDigits_values {width n : Nat} (hn : n < 16 ^ width) :
    ∃ values, (hexDigits width n).mapM unhex? = some values ∧
      values.foldl (fun n d => 16 * n + d) 0 = n := by
  have hdigit : ∀ d < 16, unhex? (Nat.digitChar d) = some d := by decide
  induction width generalizing n with
  | zero =>
    exact ⟨[], rfl, by simp; omega⟩
  | succ width ih =>
    obtain ⟨values, hvalues, hfoldl⟩ := ih (show n / 16 < 16 ^ width by omega)
    refine ⟨values ++ [n % 16], ?_, ?_⟩
    · rw [hexDigits_succ, List.mapM_append, hvalues]
      simp [hdigit _ (Nat.mod_lt n (by omega))]
    · rw [List.foldl_append, hfoldl, List.foldl_cons, List.foldl_nil, Nat.div_add_mod]

/-! ## Slash-separated paths and labels -/

/-- `strings.ReplaceAll(path, "\\", "/")`. -/
def forwardSlashes (path : String) : String :=
  .ofList (path.toList.map fun c => if c = '\\' then '/' else c)

/-- One segment of `path.Clean`, with the cleaned segments so far in reverse. -/
def cleanSegment (rooted : Bool) (cleaned : List Runes) (segment : Runes) :
    List Runes :=
  if segment = [] ∨ segment = ['.'] then cleaned
  else if segment = ['.', '.'] then
    match cleaned with
    | [] => if rooted then [] else [segment]
    | last :: rest => if last = ['.', '.'] then segment :: cleaned else rest
  else segment :: cleaned

/-- `path.Clean`. -/
def pathClean (path : Runes) : Runes :=
  let rooted := path.head? = some '/'
  let segments := ((path.splitOn '/').foldl (cleanSegment rooted) []).reverse
  match (if rooted then ['/'] else []) ++ ['/'].intercalate segments with
  | [] => ['.']
  | cleaned => cleaned

/-- `path.Dir`. -/
def pathDir (path : Runes) : Runes :=
  pathClean (path.reverse.dropWhile (· ≠ '/')).reverse

/-- `path.Ext`: from the last dot of the last segment on. -/
def pathExt (path : String) : String :=
  fileExt (.ofList (path.toList.reverse.takeWhile (· ≠ '/')).reverse)

/-- `strings.Contains`. -/
def contains (text part : String) : Bool := part.toList <:+: text.toList

/-- The tables of the package `unicode`. -/
structure Unicode where
  isLetter : Char → Bool
  isNumber : Char → Bool
  toLower : Char → Char

/-- The tables on ASCII texts. -/
def asciiUnicode : Unicode := ⟨Char.isAlpha, Char.isDigit, Char.toLower⟩

theorem toLower_cases (c : Char) :
    c.toLower = c ∨ c.isAlphanum = true ∧ c.toLower.isAlphanum = true := by
  grind [Char.toLower, Char.isAlphanum, Char.isAlpha, Char.isUpper, Char.isLower]

/-- Only letters have another lower case. -/
theorem toLower_eq_iff {c mark : Char} (h : mark.isAlphanum = false) :
    c.toLower = mark ↔ c = mark := by
  rcases toLower_cases c with hc | ⟨hc, hlower⟩
  · rw [hc]
  · constructor <;> rintro rfl <;> simp_all

theorem toLower_toLower (c : Char) : c.toLower.toLower = c.toLower := by
  grind [Char.toLower]

/-- `strings.ToLower`. -/
def Unicode.lower (unicode : Unicode) (text : String) : String :=
  .ofList (text.toList.map unicode.toLower)

/-! ## Results of fallible functions -/

theorem ok_of_toOption {ε α : Type} {result : Except ε α} {a : α}
    (h : result.toOption = some a) : result = .ok a := by
  cases result with
  | error error => cases h
  | ok b => exact congrArg _ (Option.some.inj h)

theorem exists_ok_of_isOk {ε α : Type} {result : Except ε α} (h : result.isOk = true) :
    ∃ a, result = .ok a := by
  cases result with
  | error error => cases h
  | ok a => exact ⟨a, rfl⟩

end EmbyAuto
