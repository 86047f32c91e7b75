import EmbyAuto.Domain.Words

/-!
# Names of subtitle groups

`NormalizeRSSSubtitleGroupName` writes a name in half width with single blanks and takes off the
brackets around the whole of it; `RSSSubtitleGroupNameKey` is the key that the maintained names are
unique by. A string stands for the runes that Go reads from it: `strings.Map` writes U+FFFD for
every byte that belongs to none.

## Main definitions

* `Balanced`, `Enclosed`: brackets that close each other, and a text between two of them
* `LowersNames`: the lower-case table on spaces, brackets and wide forms

## Main results

* `leading_brackets_decompose`: the bracket groups that a text begins with, and the remainder
* `subtitle_group_names_normal`: names and keys are fixed by what computes them
-/

namespace EmbyAuto.RSSSubtitleGroup

variable {text inner rest : Runes} {c : Char} {unicode : Unicode}

/-! ## The source's functions -/

/-- The mapping of `normalizeText`. -/
def foldWidth (token : Char) : Char :=
  if '！' ≤ token ∧ token ≤ '～' then .ofNat (token.toNat - 0xFEE0)
  else if token = '\u00a0' ∨ token = '\u3000' then ' '
  else token

def normalizeText (value : String) : String :=
  .ofList ([' '].intercalate (fields (value.toList.map foldWidth)))

def openingBracket : Char → Option Char
  | '[' => some ']'
  | '【' => some '】'
  | '(' => some ')'
  | '（' => some '）'
  | '「' => some '」'
  | '『' => some '』'
  | '〖' => some '〗'
  | _ => none

def closingBrackets : Runes := [']', '】', ')', '）', '」', '』', '〗']

/-- The loop from `index` on; the stack of expected brackets is never empty. -/
def bracketEnd.scan (index : Nat) (top : Char) (below : Runes) : Runes → Option Nat
  | [] => none
  | token :: rest =>
    match openingBracket token with
    | some closing => scan (index + 1) closing (top :: below) rest
    | none =>
      if token ∈ closingBrackets then
        if token ≠ top then none
        else match below with
          | [] => some index
          | next :: below => scan (index + 1) next below rest
      else scan (index + 1) top below rest

/-- Where the bracket that opens the text is closed. -/
def bracketEnd : Runes → Option Nat
  | [] => none
  | first :: rest => (openingBracket first).bind fun closing => bracketEnd.scan 1 closing [] rest

/-- The condition of the loop that takes off brackets. -/
abbrev Peels (runes : Runes) : Prop :=
  2 ≤ runes.length ∧ bracketEnd runes = some (runes.length - 1)

def peelBrackets (runes : Runes) : Runes :=
  if Peels runes then peelBrackets (trimFunc isSpace runes.tail.dropLast) else runes
termination_by runes.length
decreasing_by
  have hpart := (trimFunc_part isSpace runes.tail.dropLast).length_le
  rw [List.length_dropLast, List.length_tail] at hpart
  omega

def normalizeName (value : String) : String :=
  .ofList (peelBrackets (normalizeText value).toList)

def nameKey (unicode : Unicode) (value : String) : String := unicode.lower (normalizeName value)

/-- The bracket groups at the front, without the white space behind each of them. -/
def leadingBrackets : Runes → List Runes × Runes
  | [] => ([], [])
  | first :: runes =>
    match bracketEnd (first :: runes) with
    | none => ([], first :: runes)
    | some stop =>
      let tail := leadingBrackets ((runes.drop stop).dropWhile isSpace)
      (runes.take (stop - 1) :: tail.1, tail.2)
termination_by runes => runes.length
decreasing_by
  exact Nat.lt_succ_of_le (((List.dropWhile_sublist _).trans (List.drop_sublist _ _)).length_le)

/-! ## Matching brackets -/

open bracketEnd (scan)

def isBracket (c : Char) : Bool := (openingBracket c).isSome || c ∈ closingBrackets

/-- Every bracket is closed by its own, and closes one. -/
inductive Balanced : Runes → Prop
  | nil : Balanced []
  | plain {c : Char} {rest : Runes} (hc : isBracket c = false) (hrest : Balanced rest) :
      Balanced (c :: rest)
  | enclosed {opening closing : Char} {inner rest : Runes}
      (hpair : openingBracket opening = some closing) (hinner : Balanced inner)
      (hrest : Balanced rest) : Balanced (opening :: (inner ++ closing :: rest))

/-- One pair of matching brackets encloses the whole text. -/
def Enclosed (text : Runes) : Prop :=
  ∃ opening closing inner, openingBracket opening = some closing ∧
    Balanced inner ∧ text = opening :: (inner ++ [closing])

theorem closing_of_opening {opening closing : Char} (h : openingBracket opening = some closing) :
    openingBracket closing = none ∧ closing ∈ closingBrackets := by
  unfold openingBracket at h
  split at h <;> cases h <;> decide

theorem isBracket_eq_false :
    isBracket c = false ↔ openingBracket c = none ∧ c ∉ closingBrackets := by
  simp [isBracket]

theorem scan_plain (hc : isBracket c = false) (index : Nat) (top : Char) (below : Runes) :
    scan index top below (c :: rest) = scan (index + 1) top below rest := by
  obtain ⟨hopen, hclose⟩ := isBracket_eq_false.mp hc
  simp [scan, hopen, if_neg hclose]

/-- The scan passes over what is balanced with the stack that it came with. -/
theorem Balanced.scan_append (h : Balanced inner) :
    ∀ index top below rest, scan index top below (inner ++ rest) =
      scan (index + inner.length) top below rest := by
  induction h with
  | nil => exact fun _ _ _ _ => rfl
  | plain hc _ ih =>
    intro index top below rest
    rw [List.cons_append, scan_plain hc, ih, List.length_cons, Nat.add_right_comm, Nat.add_assoc]
  | enclosed hpair _ _ ihinner ihrest =>
    intro index top below rest
    obtain ⟨hopen, hclose⟩ := closing_of_opening hpair
    simp only [List.cons_append, List.append_assoc, scan, hpair, ihinner, hopen, if_pos hclose,
      ne_eq, not_true, if_false, ihrest]
    simp only [List.length_cons, List.length_append]
    congr 1
    omega

theorem bracketEnd_enclosed {opening closing : Char} (hpair : openingBracket opening = some closing)
    (hinner : Balanced inner) :
    bracketEnd (opening :: (inner ++ closing :: rest)) = some (inner.length + 1) := by
  obtain ⟨hopen, hclose⟩ := closing_of_opening hpair
  rw [bracketEnd, hpair, Option.bind_some, hinner.scan_append, scan, hopen]
  simp [hclose, Nat.add_comm]

theorem Enclosed.peels (h : Enclosed text) : Peels text := by
  obtain ⟨opening, closing, inner, hpair, hinner, rfl⟩ := h
  refine ⟨by simp, ?_⟩
  rw [bracketEnd_enclosed hpair hinner]
  simp

/-- A scan that ends has found the bracket on top of the stack behind what is balanced, and goes
on from there with the rest of the stack. -/
theorem scan_eq_some (text : Runes) : ∀ {index stop : Nat} {top : Char} {below : Runes},
    scan index top below text = some stop → ∃ inner rest, Balanced inner ∧
      text = inner ++ top :: rest ∧ match below with
        | [] => stop = index + inner.length
        | next :: below => scan (index + inner.length + 1) next below rest = some stop := by
  intro index stop top below h
  cases text with
  | nil => cases h
  | cons token text =>
    unfold scan at h
    cases hopen : openingBracket token with
    | some closing =>
      simp only [hopen] at h
      -- once up to the bracket that closes this one, once up to `top`
      obtain ⟨inner, rest, hinner, rfl, hrest⟩ := scan_eq_some text h
      obtain ⟨inner', rest', hinner', rfl, hbelow⟩ := scan_eq_some rest hrest
      refine ⟨token :: (inner ++ closing :: inner'), rest', .enclosed hopen hinner hinner',
        by simp, ?_⟩
      have hlength : index + (token :: (inner ++ closing :: inner')).length =
          index + 1 + inner.length + 1 + inner'.length := by
        simp only [List.length_cons, List.length_append]
        omega
      rwa [hlength]
    | none =>
      simp only [hopen] at h
      split_ifs at h with hclose htop
      · obtain rfl := not_not.mp htop
        refine ⟨[], text, .nil, rfl, ?_⟩
        cases below with
        | nil => exact (Option.some.inj h).symm
        | cons next below => exact h
      · obtain ⟨inner, rest, hinner, rfl, hbelow⟩ := scan_eq_some text h
        refine ⟨token :: inner, rest, .plain (isBracket_eq_false.mpr ⟨hopen, hclose⟩) hinner,
          rfl, ?_⟩
        rwa [List.length_cons, Nat.add_comm inner.length, ← Nat.add_assoc]
termination_by text.length
decreasing_by all_goals (subst_vars; simp <;> omega)

theorem bracketEnd_eq_some {stop : Nat} (h : bracketEnd text = some stop) :
    ∃ opening closing inner rest, openingBracket opening = some closing ∧ Balanced inner ∧
      text = opening :: (inner ++ closing :: rest) ∧ stop = inner.length + 1 := by
  cases text with
  | nil => cases h
  | cons opening text =>
    obtain ⟨closing, hpair, h⟩ := Option.bind_eq_some_iff.mp h
    obtain ⟨inner, rest, hinner, rfl, hstop⟩ := scan_eq_some text h
    exact ⟨opening, closing, inner, rest, hpair, hinner, rfl, hstop.trans (Nat.add_comm _ _)⟩

/-- Bracket groups with these labels, white space behind each, and a remainder. -/
inductive Groups (remainder : Runes) : List Runes → Runes → Prop
  | nil : Groups remainder [] remainder
  | cons {opening closing : Char} {label blanks text : Runes} {labels : List Runes}
      (hpair : openingBracket opening = some closing) (hlabel : Balanced label)
      (hblanks : ∀ c ∈ blanks, isSpace c = true) (htext : Groups remainder labels text) :
      Groups remainder (label :: labels) (opening :: (label ++ closing :: (blanks ++ text)))

/-- **Leading brackets.** The labels in their brackets and the remainder make up the text, up to
white space behind the groups, and the remainder begins with no group. -/
theorem leading_brackets_decompose (value : String) :
    Groups (leadingBrackets value.toList).2 (leadingBrackets value.toList).1 value.toList ∧
      ∀ group rest, Enclosed group → (leadingBrackets value.toList).2 ≠ group ++ rest := by
  generalize value.toList = text
  fun_induction leadingBrackets text with
  | case1 =>
    refine ⟨.nil, ?_⟩
    rintro _ rest ⟨_, _, _, _, _, rfl⟩ h
    cases h
  | case2 first runes hnone =>
    refine ⟨.nil, ?_⟩
    rintro _ rest ⟨opening, closing, inner, hpair, hinner, rfl⟩ heq
    change first :: runes = _ at heq
    rw [heq, List.cons_append, List.append_assoc, List.singleton_append,
      bracketEnd_enclosed hpair hinner] at hnone
    cases hnone
  | case3 first runes stop hstop tail ih =>
    obtain ⟨opening, closing, inner, rest, hpair, hinner, heq, rfl⟩ := bracketEnd_eq_some hstop
    obtain ⟨rfl, rfl⟩ := List.cons.inj heq
    have hdrop : (inner ++ closing :: rest).drop (inner.length + 1) = rest := by simp
    have htake : (inner ++ closing :: rest).take (inner.length + 1 - 1) = inner := by simp
    simp only [tail, hdrop, htake] at ih ⊢
    refine ⟨?_, ih.2⟩
    have hblanks : ∀ c ∈ rest.takeWhile isSpace, isSpace c = true :=
      fun c hc => List.mem_takeWhile_imp hc
    have hgroup := Groups.cons hpair hinner hblanks ih.1
    rwa [List.takeWhile_append_dropWhile] at hgroup

/-! ## Normal names -/

/-- What `normalizeText` leaves as it is. -/
structure NormalText (text : Runes) : Prop where
  spaced : Spaced text
  folded : ∀ c ∈ text, foldWidth c = c
  head : ∀ c ∈ text.head?, isSpace c = false
  last : ∀ c ∈ text.getLast?, isSpace c = false

theorem foldWidth_foldWidth (c : Char) : foldWidth (foldWidth c) = foldWidth c := by
  have hascii : ∀ n < 0x80, foldWidth (.ofNat n) = .ofNat n := by decide
  rw [foldWidth.eq_def c]
  split_ifs with hwide hblank
  · have hle : c.toNat ≤ 0xFF5E := UInt32.le_iff_toNat_le.mp hwide.2
    exact hascii _ (by omega)
  · rfl
  · rw [foldWidth, if_neg hwide, if_neg hblank]

theorem normalText_normalize (value : String) : NormalText (normalizeText value).toList := by
  rw [normalizeText, String.toList_ofList]
  have hwords := words_fields (value.toList.map foldWidth)
  refine ⟨spaced_fields _, ?_, (spaced_intercalate hwords).2, last_intercalate hwords⟩
  intro c hc
  obtain rfl | hmem := mem_intercalate_fields hc
  · rfl
  · obtain ⟨d, -, rfl⟩ := List.mem_map.mp hmem
    exact foldWidth_foldWidth d

/-- Taking off brackets ends with a text that has none around it. -/
theorem peelBrackets_normal (h : NormalText text) :
    NormalText (peelBrackets text) ∧ ¬ Peels (peelBrackets text) := by
  fun_induction peelBrackets text with
  | case1 runes hpeels ih =>
    have hpart : trimFunc isSpace runes.tail.dropLast <:+: runes :=
      ((trimFunc_part _ _).trans (List.dropLast_prefix _).isInfix).trans
        (List.tail_suffix _).isInfix
    obtain ⟨hhead, hlast⟩ := ends_trimFunc isSpace runes.tail.dropLast
    exact ih ⟨h.spaced.of_part hpart, fun c hc => h.folded c (hpart.subset hc), hhead, hlast⟩
  | case2 runes hstop => exact ⟨h, hstop⟩

theorem normalizeName_normal (value : String) :
    NormalText (normalizeName value).toList ∧ ¬ Peels (normalizeName value).toList := by
  rw [normalizeName, String.toList_ofList]
  exact peelBrackets_normal (normalText_normalize value)

theorem normalizeName_eq_self {value : String} (h : NormalText value.toList)
    (hstop : ¬ Peels value.toList) : normalizeName value = value := by
  rw [normalizeName, normalizeText, List.map_congr_left h.folded, List.map_id',
    h.spaced.intercalate_fields h.head h.last, String.toList_ofList, peelBrackets, if_neg hstop,
    String.ofList_toList]

/-! ## Keys -/

/-- What `strings.ToLower` does with spaces, brackets and wide forms. -/
structure LowersNames (unicode : Unicode) : Prop where
  toLower_toLower : ∀ c, unicode.toLower (unicode.toLower c) = unicode.toLower c
  mark : ∀ c mark, isSpace mark = true ∨ isBracket mark = true →
    (unicode.toLower c = mark ↔ c = mark)
  folded : ∀ c, foldWidth c = c → foldWidth (unicode.toLower c) = unicode.toLower c

namespace LowersNames

variable (hlower : LowersNames unicode)

include hlower

theorem apply_eq {p : Char → Bool} (hp : ∀ d, p d = true → isSpace d = true ∨ isBracket d = true)
    (c : Char) : p (unicode.toLower c) = p c := by
  rw [Bool.eq_iff_iff]
  constructor
  · intro h
    rwa [← (hlower.mark c _ (hp _ h)).mp rfl] at h
  · intro h
    rwa [(hlower.mark c c (hp c h)).mpr rfl]

theorem isSpace_toLower (c : Char) : isSpace (unicode.toLower c) = isSpace c :=
  hlower.apply_eq (fun _ => Or.inl) c

theorem bracket_cases (c : Char) : unicode.toLower c = c ∨
    isBracket c = false ∧ isBracket (unicode.toLower c) = false := by
  rw [hlower.apply_eq (fun _ => Or.inr) c, and_self]
  cases hc : isBracket c with
  | true => exact .inl ((hlower.mark c c (.inr hc)).mpr rfl)
  | false => exact .inr rfl

theorem scan_map (text : Runes) : ∀ index top below,
    scan index top below (text.map unicode.toLower) = scan index top below text := by
  induction text with
  | nil => exact fun _ _ _ => rfl
  | cons c text ih =>
    intro index top below
    rw [List.map_cons]
    rcases hlower.bracket_cases c with hc | ⟨hc, hlow⟩
    · simp [hc, scan, ih]
    · rw [scan_plain hc, scan_plain hlow, ih]

theorem bracketEnd_map (text : Runes) :
    bracketEnd (text.map unicode.toLower) = bracketEnd text := by
  cases text with
  | nil => rfl
  | cons c text =>
    rcases hlower.bracket_cases c with hc | ⟨hc, hlow⟩
    · simp [hc, bracketEnd, hlower.scan_map]
    · simp [bracketEnd, (isBracket_eq_false.mp hc).1, (isBracket_eq_false.mp hlow).1]

theorem normalText_map (h : NormalText text) : NormalText (text.map unicode.toLower) := by
  refine ⟨⟨?_, ?_⟩, ?_, ?_, ?_⟩
  · rw [List.isChain_map]
    simpa [hlower.isSpace_toLower] using h.spaced.apart
  · refine List.forall_mem_map.mpr fun c hc hspace => ?_
    rw [hlower.isSpace_toLower] at hspace
    rw [h.spaced.blank c hc hspace]
    exact (hlower.mark ' ' ' ' (.inl rfl)).mpr rfl
  · exact List.forall_mem_map.mpr fun c hc => hlower.folded c (h.folded c hc)
  · simpa [hlower.isSpace_toLower] using h.head
  · simpa [hlower.isSpace_toLower] using h.last

end LowersNames

/-- A normalized name is normal and stands in no brackets, and a name, its normal form and its key
have one key. -/
theorem subtitle_group_names_normal (hlower : LowersNames unicode) (value : String) :
    normalizeName (normalizeName value) = normalizeName value ∧
      ¬ Enclosed (normalizeName value).toList ∧
      nameKey unicode (normalizeName value) = nameKey unicode value ∧
      nameKey unicode (nameKey unicode value) = nameKey unicode value := by
  obtain ⟨hnormal, hstop⟩ := normalizeName_normal value
  have hname := normalizeName_eq_self hnormal hstop
  refine ⟨hname, fun h => hstop h.peels, congrArg unicode.lower hname, ?_⟩
  have hkey : (nameKey unicode value).toList =
      (normalizeName value).toList.map unicode.toLower := String.toList_ofList
  rw [nameKey, normalizeName_eq_self, Unicode.lower, hkey, List.map_map]
  · exact congrArg String.ofList (List.map_congr_left fun c _ => hlower.toLower_toLower c)
  · exact hkey ▸ hlower.normalText_map hnormal
  · rw [hkey, Peels, List.length_map, hlower.bracketEnd_map]
    exact hstop

theorem isAlphanum_of_isBracket (h : isBracket c = true) : c.isAlphanum = false := by
  have hclosing : ∀ d ∈ closingBrackets, d.isAlphanum = false := by
    simp [closingBrackets]
  rcases Bool.or_eq_true_iff.mp h with hopen | hclose
  · unfold openingBracket at hopen
    split at hopen <;> first | rfl | cases hopen
  · exact hclosing c (of_decide_eq_true hclose)

theorem foldWidth_of_isAlphanum (h : c.isAlphanum = true) : foldWidth c = c := by
  have hwide : ¬ ('！' ≤ c ∧ c ≤ '～') := by
    simp only [Char.le_def]
    grind [Char.isAlphanum, Char.isAlpha, Char.isUpper, Char.isLower, Char.isDigit]
  rw [foldWidth, if_neg hwide, if_neg]
  rintro (rfl | rfl) <;> cases h

theorem lowersNames_ascii : LowersNames asciiUnicode where
  toLower_toLower := toLower_toLower
  mark _ _ hmark := toLower_eq_iff (hmark.elim isAlphanum_of_isSpace isAlphanum_of_isBracket)
  folded c hc := by
    rcases toLower_cases c with hsame | ⟨-, hlower⟩
    · change foldWidth c.toLower = c.toLower
      rwa [hsame]
    · exact foldWidth_of_isAlphanum hlower

theorem subtitle_group_names_normal_ascii :
    LowersNames asciiUnicode ∧ ¬ Enclosed (normalizeName "【[A]】").toList :=
  ⟨lowersNames_ascii, (subtitle_group_names_normal lowersNames_ascii "【[A]】").2.1⟩

end EmbyAuto.RSSSubtitleGroup
