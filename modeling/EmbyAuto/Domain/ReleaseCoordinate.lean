import EmbyAuto.Domain.ReleaseNumber
import EmbyAuto.Domain.ReleaseScan

/-!
# Titles of a word and a number

In the title `w N` the number is the episode. The pattern of a delimited number reports it, and
then, taken as a text of its own, the last digit of it; the title is ambiguous unless both say the
same or a marker such as `ep` decides.

## Main definitions

* `WordNumber`: the texts of a word, a space and digits

## Main results

* `findRSSPatternSubmatches_delimitedEpisode`: the number and its last digit
* `candidates_wordNumber`: the candidates of such a title
* `parseRSSReleaseCoordinate_iff`: when its coordinate is found
-/

namespace EmbyAuto

open Regexp

/-- A word of ASCII letters and a number of at most three digits. -/
structure WordNumber where
  word : Runes
  digits : Runes
  letters : word.all Char.isAlpha = true
  word_ne_nil : word ≠ []
  allDigits : digits.all Char.isDigit = true
  digits_ne_nil : digits ≠ []
  digits_length : digits.length ≤ 3

variable {pattern : RSSCoordinatePattern} {c : Char}

namespace WordNumber

variable (t : WordNumber)

/-- The word, a space and the number. -/
def text : Runes := t.word ++ ' ' :: t.digits

theorem isAlpha_of_mem (h : c ∈ t.word) : c.isAlpha = true :=
  List.all_eq_true.mp t.letters c h

theorem isDigit_of_mem (h : c ∈ t.digits) : c.isDigit = true :=
  List.all_eq_true.mp t.allDigits c h

end WordNumber

/-! ## Letters, digits and what is neither -/

/-- A character that neither a word nor a number nor the space between them has. -/
def Foreign (c : Char) : Prop := c.isAlphanum = false ∧ c ≠ ' '

/-- A letter up to the folding of case. -/
def Letter (c : Char) : Prop := (foldCase c).isAlpha = true

theorem not_isDigit_of_isAlpha (h : c.isAlpha = true) : ¬ c.isDigit = true := by
  grind [Char.isAlpha, Char.isUpper, Char.isLower, Char.isDigit]

theorem letter_of_isAlpha (h : c.isAlpha = true) : Letter c := by
  unfold Letter foldCase
  split_ifs
  · rfl
  · rfl
  · unfold Char.toLower
    split_ifs
    · grind [Char.isAlpha, Char.isUpper, Char.isLower]
    · exact h

theorem not_letter_of_isDigit (h : c.isDigit = true) : ¬ Letter c := by
  rw [Letter, foldCase_of_isDigit h]
  exact fun halpha => not_isDigit_of_isAlpha halpha h

theorem not_letter_space : ¬ Letter ' ' := by
  unfold Letter
  decide

theorem letter_of_foldCase {c d : Char} (h : foldCase c = d) (hd : d.isAlpha = true) :
    Letter c := by
  rwa [Letter, h]

/-- Among digits, nothing follows a number that ends with no digit. -/
theorem number_eq_of_digits {digits found trail closing after : Runes}
    (hdigits : ∀ c ∈ digits, c.isDigit = true)
    (hsplit : digits = found ++ trail ++ closing ++ after)
    (htrail : ∀ c ∈ trail.head?, ¬ c.isDigit = true)
    (hclosing : closing = [] ∧ after = [] ∨ ∃ c, ¬ c.isDigit = true ∧ closing = [c]) :
    found = digits ∧ after = [] := by
  have hall : ∀ c ∈ trail ++ closing, c.isDigit = true := fun c hc => hdigits c (by
    rw [hsplit]
    simp only [List.mem_append] at hc ⊢
    tauto)
  obtain rfl : trail = [] := by
    cases trail with
    | nil => rfl
    | cons c trail => exact absurd (hall c (by simp)) (htrail c rfl)
  rcases hclosing with ⟨rfl, rfl⟩ | ⟨c, hc, rfl⟩
  · exact ⟨by simpa using hsplit.symm, rfl⟩
  · exact absurd (hall c (by simp)) hc

/-- Two ways to split a text where characters of one kind are followed by those of another. -/
theorem append_inj_of_boundary {a b a' b' : Runes} {P : Char → Prop}
    (h : a ++ b = a' ++ b') (ha : ∀ c ∈ a, P c) (hb : ∀ c ∈ b, ¬ P c)
    (ha' : ∀ c ∈ a'.getLast?, P c) (hb' : ∀ c ∈ b'.head?, ¬ P c) : a = a' ∧ b = b' := by
  rcases List.append_eq_append_iff.mp h with ⟨extra, rfl, rfl⟩ | ⟨extra, rfl, rfl⟩
  · rcases List.eq_nil_or_concat extra with rfl | ⟨extra', c, rfl⟩
    · simp
    · exact absurd (ha' c (by simp)) (hb c (by simp))
  · rcases extra with _ | ⟨c, extra⟩
    · simp
    · exact absurd (ha c (by simp)) (hb' c rfl)

namespace WordNumber

variable (t : WordNumber)

theorem mem_text (h : c ∈ t.text) : c.isAlpha = true ∨ c = ' ' ∨ c.isDigit = true := by
  simp only [text, List.mem_append, List.mem_cons] at h
  exact h.imp t.isAlpha_of_mem (Or.imp_right t.isDigit_of_mem)

theorem not_spells_foreign : ¬ Spells [Foreign] t.text := by
  rintro ⟨_, hsub, _ | ⟨hforeign, _⟩⟩
  rcases t.mem_text (hsub.subset List.mem_cons_self) with halpha | rfl | hdigit
  · simp [Foreign, Char.isAlphanum, halpha] at hforeign
  · exact hforeign.2 rfl
  · simp [Foreign, Char.isAlphanum, hdigit] at hforeign

/-- No letter stands behind a digit. -/
theorem not_spells_digit_letter : ¬ Spells [fun c => c.isDigit = true, Letter] t.text := by
  rintro ⟨_, hsub, _ | ⟨hdigit, _ | ⟨hletter, _ | _⟩⟩⟩
  rename_i a b
  obtain ⟨front, back, hsplit, hfront, hback⟩ := List.sublist_append_iff.mp hsub
  rcases front with _ | ⟨c, front⟩
  · rw [List.nil_append] at hsplit
    have hmem : b ∈ ' ' :: t.digits := hback.subset (by simp [← hsplit])
    rcases List.mem_cons.mp hmem with rfl | hmem
    · exact not_letter_space hletter
    · exact not_letter_of_isDigit (t.isDigit_of_mem hmem) hletter
  · obtain ⟨rfl, -⟩ := List.cons.inj hsplit
    exact not_isDigit_of_isAlpha (t.isAlpha_of_mem (hfront.subset (by simp))) hdigit

/-- A number in the text that digits do not precede or continue is the number of the title. -/
theorem digits_of_split {front found trail closing after : Runes}
    (hsplit : t.text = front ++ (found ++ trail ++ closing ++ after))
    (hfront : ∀ c ∈ front.getLast?, ¬ c.isDigit = true) (hfound : ∀ c ∈ found, c.isDigit = true)
    (hne : found ≠ []) (htrail : ∀ c ∈ trail.head?, ¬ c.isDigit = true)
    (hclosing : closing = [] ∧ after = [] ∨ ∃ c, ¬ c.isDigit = true ∧ closing = [c]) :
    front = t.word ++ [' '] ∧ found = t.digits ∧ after = [] := by
  have hword : ∀ c ∈ t.word ++ [' '], ¬ c.isDigit = true := by
    intro c hc
    rcases List.mem_append.mp hc with hc | hc
    · exact not_isDigit_of_isAlpha (t.isAlpha_of_mem hc)
    · obtain rfl := List.mem_singleton.mp hc
      decide
  obtain ⟨d, found', rfl⟩ := List.exists_cons_of_ne_nil hne
  have hregions : (t.word ++ [' ']) ++ t.digits = front ++
      (d :: found' ++ trail ++ closing ++ after) := by
    rw [← hsplit, text]
    simp
  obtain ⟨hfronts, hrest⟩ := append_inj_of_boundary hregions hword
    (fun c hc => not_not.mpr (t.isDigit_of_mem hc)) hfront (by simp [hfound d (by simp)])
  obtain ⟨hfound, hafter⟩ :=
    number_eq_of_digits (fun _ => t.isDigit_of_mem) hrest htrail hclosing
  exact ⟨hfronts.symm, hfound, hafter⟩

end WordNumber

/-! ## Patterns without a match -/

section NoMatch

variable {e : Regexp} {input : Runes}

theorem findRSSPatternSubmatches_of_search_eq_none (h : search e true input = none) :
    findRSSPatternSubmatches e input = [] := by
  rw [findRSSPatternSubmatches, searchRounds, List.drop_zero, h]
  split_ifs <;> rfl

theorem findRSSPatternSubmatches_of_demands {tests} (h : Demands e tests)
    (hnot : ¬ Spells tests input) : findRSSPatternSubmatches e input = [] :=
  findRSSPatternSubmatches_of_search_eq_none <| search_eq_none_of_language
    fun consumed hconsumed hinfix => hnot ((h consumed hconsumed).mono hinfix.sublist)

theorem heads_foreign {set : Runes} (h : set.all fun c => !c.isAlphanum && c ≠ ' ') :
    Heads (oneOf set) Foreign :=
  heads_chars fun c hc => by
    have := List.all_eq_true.mp h c (by simpa using hc)
    simpa [Foreign] using this

theorem demands_fraction_foreign : Demands fraction [Foreign] :=
  (heads_foreign rfl).demands.head.skip

theorem heads_letter {pattern : String} {first : Char} {rest : Runes}
    (hpattern : pattern.toList = first :: rest) (hfirst : first.isAlpha = true) :
    Heads (word foldCase pattern) Letter :=
  heads_word hpattern fun _ hc => letter_of_foldCase hc hfirst

theorem heads_episodeMarker_letter : Heads episodeMarker Letter :=
  heads_episodeMarker.imp fun _ hc => letter_of_foldCase hc rfl

variable (t : WordNumber)

/-- No digit follows a letter. -/
theorem WordNumber.isChain_text : t.text.IsChain fun a b => Letter a → ¬ b.isDigit = true := by
  have hword : ∀ c ∈ t.word.tail, ¬ c.isDigit = true := fun c hc =>
    not_isDigit_of_isAlpha (t.isAlpha_of_mem (List.mem_of_mem_tail hc))
  have hchain : t.word.IsChain fun a b => Letter a → ¬ b.isDigit = true :=
    (isChain_of_forall_mem_tail hword).imp fun _ _ hb _ => hb
  refine hchain.append ?_ ?_
  · rw [List.isChain_cons, List.isChain_iff_forall_rel_of_append_cons_cons]
    refine ⟨fun _ _ hletter => absurd hletter not_letter_space,
      fun a b front back hsplit hletter => ?_⟩
    exact absurd hletter (not_letter_of_isDigit (t.isDigit_of_mem (by simp [hsplit])))
  · rintro a - b ⟨rfl⟩ -
    decide

theorem isDigit_of_foldCase (h : (foldCase c).isDigit = true) : c.isDigit = true := by
  unfold foldCase at h
  split_ifs at h
  · cases h
  · cases h
  · unfold Char.toLower at h
    grind [Char.isDigit]

/-- A codec name has a digit behind its letter. -/
theorem WordNumber.not_infix_codec {a b : Char} {rest : Runes} (ha : Letter a)
    (hb : b.isDigit = true) : ¬ a :: b :: rest <:+: t.text := by
  intro hinfix
  have hchain := List.IsChain.infix t.isChain_text hinfix
  exact hchain.rel ha hb

theorem search_rssTechnicalDecimalPattern :
    search rssTechnicalDecimalPattern true t.text = none := by
  refine search_eq_none_of_language fun consumed hconsumed hinfix => ?_
  obtain ⟨opening, inner, closing, rfl, hinner, -, -⟩ := mem_language_bounded.mp hconsumed
  have hinside : inner <:+: t.text := List.IsInfix.trans ⟨opening, closing, rfl⟩ hinfix
  obtain ⟨_, halts, _, rfl, rfl⟩ := mem_language_seqs_cons.mp hinner
  rw [List.append_nil] at hinside
  obtain ⟨e, he, hmem⟩ := mem_language_alts.mp halts
  simp only [List.mem_cons, List.not_mem_nil, or_false] at he
  rcases he with rfl | rfl | rfl
  · have hpoint : Demands (seqs [digits 2, point, digit, opt (word foldCase "ch")]) [Foreign] :=
      (heads_foreign rfl).demands.head.skip
    exact t.not_spells_foreign ((hpoint _ hmem).mono hinside.sublist)
  · obtain ⟨name, hname, _, ⟨dot, hdot, _, ⟨number, hnumber, rest, -, rfl⟩, rfl⟩, rfl⟩ := hmem
    obtain ⟨a, _, rfl, ha, hname⟩ := List.map_eq_cons_iff.mp (mem_language_word.mp hname)
    obtain rfl := List.map_eq_nil_iff.mp hname
    obtain ⟨b, number, rfl, hb, -⟩ := List.map_eq_cons_iff.mp (mem_language_word.mp hnumber)
    rcases mem_language_opt.mp hdot with rfl | ⟨c, hc, rfl⟩
    · exact t.not_infix_codec (letter_of_foldCase ha rfl) (isDigit_of_foldCase (by rw [hb]; rfl))
        hinside
    · obtain rfl : c = '.' := by simpa using hc
      have hpoint : Foreign '.' := ⟨rfl, by decide⟩
      exact t.not_spells_foreign
        ⟨['.'], List.singleton_sublist.mpr (hinside.subset (by simp)), .cons hpoint .nil⟩
  · obtain ⟨name, hname, rest, -, rfl⟩ := hmem
    obtain ⟨a, _, rfl, ha, hname⟩ := List.map_eq_cons_iff.mp (mem_language_word.mp hname)
    obtain ⟨b, name, rfl, hb, -⟩ := List.map_eq_cons_iff.mp hname
    exact t.not_infix_codec (letter_of_foldCase ha rfl) (isDigit_of_foldCase (by rw [hb]; rfl))
      hinside

theorem candidates_wordNumber (pattern : RSSCoordinatePattern) : pattern.candidates t.text =
    (findRSSPatternSubmatches pattern.expression t.text).filterMap pattern.candidate? := by
  rw [RSSCoordinatePattern.candidates,
    replaceAll_of_search_eq_none (search_rssTechnicalDecimalPattern t), ite_self]

theorem candidates_eq_nil_of_foreign (h : Demands pattern.expression [Foreign]) :
    pattern.candidates t.text = [] := by
  rw [candidates_wordNumber, findRSSPatternSubmatches_of_demands h t.not_spells_foreign]
  rfl

theorem candidates_eq_nil_of_letter
    (h : Demands pattern.expression [fun c => c.isDigit = true, Letter]) :
    pattern.candidates t.text = [] := by
  rw [candidates_wordNumber, findRSSPatternSubmatches_of_demands h t.not_spells_digit_letter]
  rfl

/-- The patterns before the episode marker need other characters, or a letter behind a digit. -/
theorem candidates_before_marker (h : pattern ∈ rssCoordinatePatterns.take 9) :
    pattern.candidates t.text = [] := by
  simp only [rssCoordinatePatterns, List.take_succ_cons, List.take_zero, List.mem_cons,
    List.not_mem_nil, or_false] at h
  have hbracket : Heads (chars isOpeningBracket) Foreign := heads_foreign rfl
  have hdash : Heads (oneOf ['-']) Foreign := heads_foreign rfl
  rcases h with rfl | rfl | rfl | rfl | rfl | rfl | rfl | rfl | rfl
  · exact candidates_eq_nil_of_foreign t (demands_bounded demands_fraction_foreign.head.skip)
  · exact candidates_eq_nil_of_foreign t (demands_bounded demands_fraction_foreign.head.skip.skip)
  · exact candidates_eq_nil_of_foreign t (heads_foreign rfl).demands.head.skip.skip
  · refine candidates_eq_nil_of_foreign t fun text htext => ?_
    rcases htext with htext | htext
    · exact hbracket.demands.head text htext
    · exact demands_bounded hdash.demands.head text htext
  · exact candidates_eq_nil_of_foreign t (demands_bounded demands_fraction_foreign.head)
  · exact candidates_eq_nil_of_letter t (demands_bounded ((heads_number 1 2).demands.seqs
      (heads_letter rfl rfl).demands.head.skip).skip.skip)
  · exact candidates_eq_nil_of_letter t (demands_bounded ((heads_number 1 2).demands.seqs
      (heads_letter rfl rfl).demands.head))
  · exact candidates_eq_nil_of_letter t (demands_bounded ((heads_number 1 2).demands.seqs
      heads_episodeMarker_letter.demands.head.skip).skip.skip)
  · exact candidates_eq_nil_of_foreign t (heads_foreign rfl).demands.head

theorem candidates_behind_marker (h : pattern ∈ (rssCoordinatePatterns.drop 10).take 4) :
    pattern.candidates t.text = [] := by
  simp only [rssCoordinatePatterns, List.drop_succ_cons, List.drop_zero, List.take_succ_cons,
    List.take_zero, List.mem_cons, List.not_mem_nil, or_false] at h
  have hbracket : Heads (chars isOpeningBracket) Foreign := heads_foreign rfl
  rcases h with rfl | rfl | rfl | rfl
  · exact candidates_eq_nil_of_foreign t (demands_bounded (heads_foreign rfl).demands.head)
  · exact candidates_eq_nil_of_foreign t (heads_foreign rfl).demands.head.skip.skip.skip
  · exact candidates_eq_nil_of_foreign t (demands_bounded (heads_foreign rfl).demands.head)
  · exact candidates_eq_nil_of_foreign t hbracket.demands.head

/-- Two patterns can have candidates in such a title. -/
theorem rssCoordinatePatterns_wordNumber :
    (rssCoordinatePatterns.flatMap fun pattern => pattern.candidates t.text) =
      rssEpisodeMarkerPattern.candidates t.text ++
        rssDelimitedEpisodePattern.candidates t.text := by
  have hsplit : rssCoordinatePatterns = rssCoordinatePatterns.take 9 ++
      rssEpisodeMarkerPattern :: ((rssCoordinatePatterns.drop 10).take 4 ++
        [rssDelimitedEpisodePattern]) := rfl
  rw [hsplit, List.flatMap_append, List.flatMap_cons, List.flatMap_append,
    List.flatMap_eq_nil_iff.mpr fun _ => candidates_before_marker t,
    List.flatMap_eq_nil_iff.mpr fun _ => candidates_behind_marker t, List.flatMap_singleton]
  rfl

end NoMatch

/-! ## The delimited number and its last digit -/

section Delimited

theorem mem_run_number {p : Place} {found rest : Runes} {index most : Nat}
    (hp : p.rest = found ++ rest) (hfound : ∀ c ∈ found, c.isDigit = true) (hne : found ≠ [])
    (hlength : found.length ≤ most) :
    { p.advance found rest with captures := (index, found) :: p.captures } ∈
      run (number index most) p := by
  have hbody : p.advance found rest ∈ run (rep 1 (some most) digit) p := by
    refine mem_run_rep_chars.mpr ⟨found, rest, hp, mem_language_rep_chars.mpr ⟨?_, ?_, hfound⟩, rfl⟩
    · exact List.length_pos_of_ne_nil hne
    · rintro m ⟨rfl⟩
      omega
  refine List.mem_map.mpr ⟨_, hbody, ?_⟩
  have hbetween : p.between (p.advance found rest) = found := by
    rw [Place.between, hp]
    simp [Place.advance]
  rw [hbetween]
  rfl

/-- A number to the end of the text, at a place where it may open. -/
theorem run_delimitedEpisode_ne_nil {p r : Place} {found : Runes}
    (hopened : Opened isDelimiter p r) (hr : r.rest = found)
    (hfound : ∀ c ∈ found, c.isDigit = true) (hne : found ≠ []) (hlength : found.length ≤ 3) :
    run delimitedEpisode p ≠ [] := by
  rw [← List.append_nil found] at hr
  exact List.ne_nil_of_mem (mem_run_bounded_iff.mpr ⟨r, _, hopened, mem_run_seqs_cons.mpr
    ⟨_, mem_run_number hr hfound hne hlength, mem_run_seqs_cons.mpr
      ⟨_, mem_run_opt_self _ _, List.mem_singleton_self _⟩⟩, .inl ⟨rfl, rfl⟩⟩)

/-- A match of a delimited number that ends the text. -/
def numberMatch (opening found : Runes) : Match :=
  { before := [], text := opening ++ found, after := [], captures := [(1, found)] }

theorem head_lowerRelease {trail : Runes} (h : trail ∈ language (seqs [lowerRelease])) :
    ∀ c ∈ trail.head?, ¬ c.isDigit = true := by
  obtain ⟨_, hrelease, _, rfl, rfl⟩ := mem_language_seqs_cons.mp h
  rcases mem_language_opt.mp hrelease with rfl | ⟨_, ⟨c, hc, rfl⟩, digits, -, rfl⟩
  · simp
  · obtain rfl : c = 'v' := by simpa using hc
    rintro _ ⟨rfl⟩
    decide

/-- The only way through digits that end the text. -/
theorem matchAt_delimitedEpisode {atStart : Bool} {opening found : Runes} {m : Match}
    (hopening : opening = [] ∨ ∃ c, isDelimiter c = true ∧ opening = [c])
    (hfound : ∀ c ∈ found, c.isDigit = true)
    (h : matchAt delimitedEpisode atStart (opening ++ found) = some m) :
    m = numberMatch opening found := by
  obtain ⟨opened, _, number, trail, closing, htext, hcaptures, rfl, hnumber, htrail, hopened,
    hclosing⟩ := matchAt_bounded_group [] rfl rfl rfl h
  obtain ⟨hbefore, hsplit, -⟩ := matchAt_consumes h
  obtain ⟨d, number', rfl, hd⟩ := heads_number 1 3 number hnumber
  obtain ⟨rfl, hrest⟩ : opened = opening ∧ found = d :: number' ++ trail ++ closing ++ m.after := by
    rcases hopening with rfl | ⟨c, hc, rfl⟩ <;> rcases hopened with ⟨rfl, -⟩ | ⟨c', hc', rfl⟩
    · exact ⟨rfl, by simpa using htext⟩
    · exact absurd (hfound c' (by rw [List.nil_append] at htext; simp [htext]))
        (not_isDigit_of_isDelimiter c' hc')
    · obtain ⟨rfl, -⟩ := List.cons.inj htext
      exact absurd hd (not_isDigit_of_isDelimiter c hc)
    · obtain ⟨rfl, hrest⟩ := List.cons.inj htext
      exact ⟨rfl, by simpa using hrest⟩
  obtain ⟨rfl, hafter⟩ := number_eq_of_digits hfound hrest (head_lowerRelease htrail)
    (hclosing.imp_right fun ⟨c, hc, hclosing⟩ => ⟨c, not_isDigit_of_isDelimiter c hc, hclosing⟩)
  rw [hafter, List.append_nil] at hsplit
  cases m
  simp only [numberMatch, Match.mk.injEq] at *
  exact ⟨hbefore, hsplit.symm, hafter, hcaptures⟩

variable (t : WordNumber)

theorem matchAt_delimitedEpisode_letter {atStart : Bool} {rest : Runes}
    (hc : c.isAlpha = true) : matchAt delimitedEpisode atStart (c :: rest) = none := by
  rw [Option.eq_none_iff_forall_ne_some]
  intro m h
  obtain ⟨opened, _, number, trail, closing, htext, -, rfl, hnumber, -, hopened, -⟩ :=
    matchAt_bounded_group [] rfl rfl rfl h
  obtain ⟨d, number', rfl, hd⟩ := heads_number 1 3 number hnumber
  rcases hopened with ⟨rfl, -⟩ | ⟨c', hc', rfl⟩
  · obtain ⟨rfl, -⟩ := List.cons.inj htext
    exact not_isDigit_of_isAlpha hc hd
  · obtain ⟨rfl, -⟩ := List.cons.inj htext
    simpa [Char.isAlphanum, hc] using isAlphanum_of_isDelimiter hc'

/-- A number that ends the text, at a place where it may open. -/
theorem matchAt_delimitedEpisode_eq {atStart : Bool} {opening found : Runes}
    (hopening : opening = [] ∧ atStart = true ∨ ∃ c, isDelimiter c = true ∧ opening = [c])
    (hfound : ∀ c ∈ found, c.isDigit = true) (hne : found ≠ []) (hlength : found.length ≤ 3) :
    matchAt delimitedEpisode atStart (opening ++ found) = some (numberMatch opening found) := by
  have hsome : matchAt delimitedEpisode atStart (opening ++ found) ≠ none := by
    rw [Ne, matchAt_eq_none_iff]
    rcases hopening with ⟨rfl, hstart⟩ | ⟨c, hc, rfl⟩
    · exact run_delimitedEpisode_ne_nil (.inl ⟨hstart, rfl⟩) rfl hfound hne hlength
    · exact run_delimitedEpisode_ne_nil (.inr ⟨c, found, hc, rfl, rfl⟩) rfl hfound hne hlength
  obtain ⟨m, hm⟩ := Option.ne_none_iff_exists'.mp hsome
  rw [hm, matchAt_delimitedEpisode (hopening.imp_left And.left) hfound hm]

theorem search_delimitedEpisode : search delimitedEpisode true t.text =
    some { numberMatch [' '] t.digits with before := t.word } := by
  have hhere : search delimitedEpisode false ([' '] ++ t.digits) =
      some (numberMatch [' '] t.digits) :=
    search_of_matchAt (matchAt_delimitedEpisode_eq (.inr ⟨' ', rfl, rfl⟩)
      (fun _ => t.isDigit_of_mem)
      t.digits_ne_nil t.digits_length)
  have hpassed : ∀ passed rest, passed ++ rest = t.word ++ ' ' :: t.digits →
      passed.length < t.word.length →
      matchAt delimitedEpisode (true && passed.isEmpty) rest = none := by
    intro passed rest hsplit hlength
    rcases List.append_eq_append_iff.mp hsplit with ⟨extra, hextra, hrest⟩ | ⟨extra, rfl, -⟩
    · cases extra with
      | nil => simp [hextra] at hlength
      | cons c extra =>
        rw [hrest]
        exact matchAt_delimitedEpisode_letter (t.isAlpha_of_mem (by simp [hextra]))
    · simp only [List.length_append] at hlength
      omega
  rw [WordNumber.text, search_append hpassed]
  have hempty : t.word.isEmpty = false := by simpa using t.word_ne_nil
  rw [hempty]
  change (search delimitedEpisode false ([' '] ++ t.digits)).map _ = _
  rw [hhere]
  simp [numberMatch]

theorem searchRounds_of_search {e : Regexp} {input : Runes} {rounds offset next : Nat}
    {m : Match} {rest : List Match} (hoffset : offset < input.length)
    (hsearch : search e true (input.drop offset) = some m)
    (hnext : nextSearchOffset input { m with before := input.take offset ++ m.before } = some next)
    (hrest : searchRounds e input rounds next = some rest) :
    searchRounds e input (rounds + 1) offset =
      some ({ m with before := input.take offset ++ m.before } :: rest) := by
  rw [searchRounds, if_pos hoffset]
  simp [hsearch, hnext, hrest]

/-- The pattern reports the number, and its last digit as a number of its own. -/
theorem findRSSPatternSubmatches_delimitedEpisode :
    (findRSSPatternSubmatches delimitedEpisode t.text).map (·.submatch 1) =
      [t.digits, [t.digits.getLast t.digits_ne_nil]] := by
  set last := t.digits.getLast t.digits_ne_nil
  have hpositive : 0 < t.digits.length := List.length_pos_of_ne_nil t.digits_ne_nil
  have hlength : t.text.length = t.word.length + t.digits.length + 1 := by
    simp only [WordNumber.text, List.length_append, List.length_cons]
    omega
  have hlast : t.text.drop (t.word.length + t.digits.length) = [last] := by
    have hsplit : t.text = (t.word ++ ' ' :: t.digits.dropLast) ++ [last] := by
      rw [WordNumber.text, List.append_assoc, List.cons_append,
        List.dropLast_append_getLast t.digits_ne_nil]
    rw [hsplit]
    apply List.drop_left'
    simp only [List.length_append, List.length_cons, List.length_dropLast]
    omega
  have hdigit : ∀ c ∈ [last], c.isDigit = true := by
    intro c hc
    obtain rfl := List.mem_singleton.mp hc
    exact t.isDigit_of_mem (List.getLast_mem _)
  have hsecond : search delimitedEpisode true (t.text.drop (t.word.length + t.digits.length)) =
      some (numberMatch [] [last]) := by
    rw [hlast]
    exact search_of_matchAt
      (matchAt_delimitedEpisode_eq (.inl ⟨rfl, rfl⟩) hdigit (by simp) (by simp))
  -- the rounds: the number, its last digit, and the end of the title
  obtain ⟨rounds, hrounds⟩ : ∃ rounds, t.text.length + 1 = rounds + 1 + 1 + 1 :=
    ⟨t.text.length - 2, by omega⟩
  have hend : searchRounds delimitedEpisode t.text (rounds + 1) t.text.length = some [] := by
    rw [searchRounds, if_neg (lt_irrefl _)]
  have hsecondRound := searchRounds_of_search (by omega) hsecond
    (by
      rw [nextSearchOffset_eq, if_neg (by simp [numberMatch])]
      simp [numberMatch, hlength]) hend
  have hfirstRound := searchRounds_of_search (show 0 < t.text.length by omega)
    (search_delimitedEpisode t)
    (by
      rw [nextSearchOffset_eq, if_pos (by simp [numberMatch]; omega)]
      simp [numberMatch]) hsecondRound
  rw [findRSSPatternSubmatches, hrounds, hfirstRound]
  rfl

end Delimited

/-! ## Tokens with a number -/

section Tokens

variable (t : WordNumber)

/-- In a token with a number, the number is that of the title and the rest stands before it. -/
theorem submatch_token {lead trail : List Regexp} {most : Nat} {m : Match}
    (hlead : groupless (seqs lead) = true) (htrail : groupless (seqs trail) = true)
    (hleadDigits : Within (seqs lead) fun c => ¬ c.isDigit = true)
    (htrailHead : ∀ text ∈ language (seqs trail), ∀ c ∈ text.head?, ¬ c.isDigit = true)
    (h : StandsIn (token (lead ++ number 1 most :: trail)) t.text m) :
    m.submatch 1 = t.digits ∧ ∃ opening leading,
      m.before ++ (opening ++ leading) = t.word ++ [' '] ∧ leading ∈ language (seqs lead) ∧
      (opening = [] ∧ m.before = [] ∨ ∃ c, isBreak c = true ∧ opening = [c]) := by
  have hbreak : ∀ c, isBreak c = true → ¬ c.isDigit = true := fun c hc hdigit => by
    simp [isBreak_of_isDigit hdigit] at hc
  obtain ⟨opening, leading, found, trailing, closing, htext, hcaptures, hleading, hfound, htrailing,
    hopening, hclosing⟩ := matchAt_bounded_group lead hlead rfl htrail h.2
  have hsplit : t.text =
      m.before ++ (opening ++ leading) ++ (found ++ trailing ++ closing ++ m.after) := by
    rw [h.1, htext]
    simp
  have hfront : ∀ c ∈ (m.before ++ (opening ++ leading)).getLast?, ¬ c.isDigit = true := by
    rcases List.eq_nil_or_concat leading with rfl | ⟨leading', c, rfl⟩
    · rcases hopening with ⟨rfl, hstart⟩ | ⟨c, hc, rfl⟩
      · simp [List.isEmpty_iff.mp hstart]
      · simpa using hbreak c hc
    · have hc := hleadDigits _ hleading c (by simp)
      simpa [List.concat_eq_append, ← List.append_assoc] using hc
  obtain ⟨hdigits, -, hallDigits⟩ := mem_language_rep_chars.mp hfound
  obtain ⟨hbefore, rfl, -⟩ := t.digits_of_split hsplit hfront hallDigits
    (List.ne_nil_of_length_pos hdigits) (htrailHead trailing htrailing)
    (hclosing.imp_right fun ⟨c, hc, hclosing⟩ => ⟨c, hbreak c hc, hclosing⟩)
  refine ⟨?_, opening, leading, hbefore, hleading, hopening.imp_left fun ⟨hnil, hstart⟩ =>
    ⟨hnil, by simpa using hstart⟩⟩
  have hsame : m.captures = [(1, t.digits)] := hcaptures
  simp [Match.submatch, hsame]

theorem within_separators : Within separators fun c => ¬ c.isDigit = true ∧ ¬ Letter c := by
  refine within_rep fun c hc => ?_
  simp only [List.mem_cons, List.not_mem_nil, or_false, decide_eq_true_eq] at hc
  rcases hc with rfl | rfl | rfl | rfl <;> exact ⟨by decide, by unfold Letter; decide⟩

/-- The words of the patterns have letters only. -/
theorem within_letters {pattern : String} (h : pattern.toList.all Char.isAlpha = true) :
    Within (word foldCase pattern) Letter :=
  within_word fun _ hc => List.all_eq_true.mp h _ hc

theorem within_episodeMarker : Within episodeMarker Letter := by
  intro text htext
  obtain ⟨e, he, htext⟩ := mem_language_alts.mp htext
  simp only [List.mem_cons, List.not_mem_nil, or_false] at he
  rcases he with rfl | rfl | rfl <;> exact within_letters rfl text htext

theorem not_isDigit_of_letter (c : Char) (h : Letter c) : ¬ c.isDigit = true := fun hdigit =>
  not_letter_of_isDigit hdigit h

/-! ## The season -/

/-- Every season that the title states is its number. -/
theorem submatch_seasonPattern {pattern : Regexp} (hpattern : pattern ∈ rssStandaloneSeasonPatterns)
    {m : Match} (hm : m ∈ findRSSPatternSubmatches pattern t.text) : m.submatch 1 = t.digits := by
  have hlead : ∀ {name : String} {between : Regexp}, name.toList.all Char.isAlpha = true →
      Within between (fun c => ¬ c.isDigit = true) →
      Within (seqs [word foldCase name, between]) fun c => ¬ c.isDigit = true := by
    intro name between hname hbetween
    exact .cons ((within_letters hname).imp not_isDigit_of_letter) (.cons hbetween within_nil)
  have htrail : ∀ text ∈ language (seqs []), ∀ c ∈ text.head?, ¬ c.isDigit = true := by
    rintro text rfl c hc
    cases hc
  simp only [rssStandaloneSeasonPatterns, List.mem_cons, List.not_mem_nil, or_false] at hpattern
  rcases hpattern with rfl | rfl | rfl | rfl
  · refine (submatch_token t rfl rfl (hlead rfl (within_separators.imp fun _ => And.left)) htrail
      (standsIn_of_resumes (resumes_wordNumber rfl rfl) hm)).1
  · refine (submatch_token t rfl rfl (hlead rfl (within_rep fun c hc => ?_)) htrail
      (standsIn_of_resumes (resumes_wordNumber rfl rfl) hm)).1
    simp only [List.mem_cons, List.not_mem_nil, or_false, decide_eq_true_eq] at hc
    rcases hc with rfl | rfl | rfl <;> decide
  · have hordinal : Demands (token [number 1 2, alts [word foldCase "st", word foldCase "nd",
        word foldCase "rd", word foldCase "th"], separators, word foldCase "season"])
        [fun c => c.isDigit = true, Letter] :=
      demands_bounded ((heads_number 1 2).demands.seqs
        (heads_letter rfl rfl).demands.head.skip.skip)
    rw [findRSSPatternSubmatches_of_demands hordinal t.not_spells_digit_letter] at hm
    cases hm
  · have heastAsian : Heads (oneOf ['第']) Foreign := heads_foreign rfl
    rw [findRSSPatternSubmatches_of_demands heastAsian.demands.head t.not_spells_foreign] at hm
    cases hm

/-- A title with one number states at most one season. -/
theorem exists_resolveRSSReleaseSeason (defaultSeason : Int) :
    ∃ season, resolveRSSReleaseSeason t.text defaultSeason = some season := by
  unfold resolveRSSReleaseSeason
  dsimp only
  set seasons := (rssStandaloneSeasonPatterns.flatMap fun pattern =>
    (findRSSPatternSubmatches pattern t.text).map fun found =>
      parseRSSReleaseNumber (found.submatch 1)).filter (0 < ·) with hseasons
  have hsame : ∀ season ∈ seasons.dedup, season = parseRSSReleaseNumber t.digits := by
    intro season hseason
    rw [List.mem_dedup, List.mem_filter, List.mem_flatMap] at hseason
    obtain ⟨⟨pattern, hpattern, hseason⟩, -⟩ := hseason
    obtain ⟨m, hm, rfl⟩ := List.mem_map.mp hseason
    rw [submatch_seasonPattern t hpattern hm]
  have hnodup := List.nodup_dedup seasons
  rcases hdedup : seasons.dedup with _ | ⟨a, _ | ⟨b, rest⟩⟩
  · exact ⟨defaultSeason, rfl⟩
  · exact ⟨a, rfl⟩
  · rw [hdedup] at hsame hnodup
    have hab : a = b := (hsame a (by simp)).trans (hsame b (by simp)).symm
    simp [hab] at hnodup

/-! ## The episode marker -/

/-- The words that mark an episode. -/
def episodeMarkers : List Runes := ["episode".toList, "ep".toList, "e".toList]

theorem mem_language_episodeMarker {text : Runes} :
    text ∈ language episodeMarker ↔ text.map foldCase ∈ episodeMarkers := by
  rw [episodeMarker, mem_language_alts]
  simp [mem_language_word, episodeMarkers]

/-- A marked number is the number of the title, and its marker the word. -/
theorem markedEpisode_match {m : Match} (hm : m ∈ findRSSPatternSubmatches markedEpisode t.text) :
    m.submatch 1 = t.digits ∧ m.before = [] ∧ t.word.map foldCase ∈ episodeMarkers := by
  have hlead : Within (seqs [episodeMarker, separators]) fun c => ¬ c.isDigit = true := by
    exact .cons (within_episodeMarker.imp not_isDigit_of_letter)
      (.cons (within_separators.imp fun _ => And.left) within_nil)
  have htrail : ∀ text ∈ language (seqs [release]), ∀ c ∈ text.head?, ¬ c.isDigit = true := by
    intro text htext
    obtain ⟨_, hrelease, _, rfl, rfl⟩ := mem_language_seqs_cons.mp htext
    rcases mem_language_opt.mp hrelease with rfl | hrelease
    · simp
    · have hv : Heads (word foldCase "v") Letter := heads_letter rfl rfl
      obtain ⟨c, rest, rfl, hc⟩ := hv.seq _ hrelease
      rintro _ ⟨rfl⟩
      exact not_isDigit_of_letter c hc
  obtain ⟨hdigits, opening, leading, hsplit, hleading, hopening⟩ :=
    submatch_token t rfl rfl hlead htrail (standsIn_of_resumes resumes_markedEpisode hm)
  obtain ⟨marker, hmarker, _, ⟨blanks, hblanks, _, rfl, rfl⟩, rfl⟩ := hleading
  obtain ⟨a, marker, rfl, ha⟩ := heads_episodeMarker_letter marker hmarker
  obtain ⟨rfl, hbefore⟩ : opening = [] ∧ m.before = [] := by
    refine hopening.resolve_right ?_
    rintro ⟨c, hc, rfl⟩
    -- a break before the marker would stand inside the word
    have hword : c ∈ t.word := by
      have hinit := congrArg List.dropLast hsplit
      rw [List.dropLast_concat] at hinit
      simp [← hinit]
    simp [isBreak, Char.isAlphanum, show (foldCase _).isAlpha = true from
      letter_of_isAlpha (t.isAlpha_of_mem hword)] at hc
  refine ⟨hdigits, hbefore, ?_⟩
  obtain hword : a :: marker = t.word := by
    have hregions : (a :: marker) ++ blanks = t.word ++ [' '] := by
      simpa [hbefore] using hsplit
    exact (append_inj_of_boundary hregions (within_episodeMarker _ hmarker)
      (fun c hc => (within_separators blanks hblanks c hc).2)
      (fun c hc => letter_of_isAlpha (t.isAlpha_of_mem (List.mem_of_getLast? hc)))
      (by simpa using not_letter_space)).1
  rw [← hword]
  exact mem_language_episodeMarker.mp hmarker

/-- A marker, a space and a number match at the start of the title. -/
theorem run_markedEpisode_ne_nil (hmarker : t.word.map foldCase ∈ episodeMarkers) :
    run markedEpisode { atStart := true, rest := t.text } ≠ [] := by
  let start : Place := { atStart := true, rest := t.text }
  have hword : start.advance t.word (' ' :: t.digits) ∈ run episodeMarker start := by
    rw [episodeMarker, mem_run_alts]
    simp only [episodeMarkers, List.mem_cons, List.not_mem_nil, or_false] at hmarker
    rcases hmarker with hmarker | hmarker | hmarker <;>
      exact ⟨_, by simp, mem_run_word hmarker rfl⟩
  let behindWord := start.advance t.word (' ' :: t.digits)
  let behindSpace := behindWord.advance [' '] t.digits
  have hspace : behindSpace ∈ run separators behindWord :=
    mem_run_rep_chars.mpr ⟨[' '], t.digits, rfl,
      mem_language_rep_chars.mpr ⟨by simp, by simp, by simp⟩, rfl⟩
  let behindNumber : Place :=
    { behindSpace.advance t.digits [] with captures := (1, t.digits) :: behindSpace.captures }
  have hnumber : behindNumber ∈ run (number 1 4) behindSpace :=
    mem_run_number (List.append_nil t.digits).symm (fun _ => t.isDigit_of_mem) t.digits_ne_nil
      (t.digits_length.trans (by omega))
  have hmiddle : behindNumber ∈
      run (seqs [episodeMarker, separators, number 1 4, release]) start :=
    mem_run_seqs_cons.mpr ⟨_, hword, mem_run_seqs_cons.mpr ⟨_, hspace, mem_run_seqs_cons.mpr
      ⟨_, hnumber, mem_run_seqs_cons.mpr ⟨_, mem_run_opt_self _ _, List.mem_singleton_self _⟩⟩⟩⟩
  exact List.ne_nil_of_mem
    (mem_run_bounded_iff.mpr ⟨start, behindNumber, .inl ⟨rfl, rfl⟩, hmiddle, .inl ⟨rfl, rfl⟩⟩)

/-- The word is a marker: the pattern reports the number once. -/
theorem findRSSPatternSubmatches_markedEpisode :
    (findRSSPatternSubmatches markedEpisode t.text).map (·.submatch 1) =
      if t.word.map foldCase ∈ episodeMarkers then [t.digits] else [] := by
  have hsorted := findRSSPatternSubmatches_sorted markedEpisode t.text
  have hmatch : ∀ m ∈ findRSSPatternSubmatches markedEpisode t.text, _ :=
    fun m hm => markedEpisode_match t hm
  split_ifs with hmarker
  · have hsome : findRSSPatternSubmatches markedEpisode t.text ≠ [] := by
      refine findRSSPatternSubmatches_ne_nil (by simp [WordNumber.text]) ?_
      rw [Ne, matchAt_eq_none_iff]
      exact run_markedEpisode_ne_nil t hmarker
    rcases hfound : findRSSPatternSubmatches markedEpisode t.text with _ | ⟨m, _ | ⟨m', rest⟩⟩
    · exact absurd hfound hsome
    · rw [hfound] at hmatch
      simp [(hmatch m (by simp)).1]
    · rw [hfound] at hmatch hsorted
      have hlt : m.before.length < m'.before.length := by
        simp only [List.pairwise_cons, List.mem_cons, forall_eq_or_imp] at hsorted
        exact hsorted.1.1
      simp [(hmatch m' (by simp)).2.1] at hlt
  · rcases hfound : findRSSPatternSubmatches markedEpisode t.text with _ | ⟨m, rest⟩
    · rfl
    · rw [hfound] at hmatch
      exact absurd (hmatch m (by simp)).2.2 hmarker

end Tokens

/-! ## The coordinate of the title -/

section Coordinate

/-- The candidate of a pattern without a season, read from its number. -/
def episodeCandidate? (pattern : RSSCoordinatePattern) (number : Runes) :
    Option RSSCoordinateCandidate :=
  let episode := parseRSSReleaseNumber number
  if episode ≤ 0 then none
  else some { episode, priority := pattern.priority, evidence := pattern.evidence }

variable (t : WordNumber)

theorem candidates_eq_filterMap (hfractional : pattern.fractional = false)
    (hseason : pattern.seasonGroup = 0) : pattern.candidates t.text =
      ((findRSSPatternSubmatches pattern.expression t.text).map
        (·.submatch pattern.episodeGroup)).filterMap (episodeCandidate? pattern) := by
  rw [candidates_wordNumber, List.filterMap_map]
  refine List.filterMap_congr fun found _ => ?_
  simp [RSSCoordinatePattern.candidate?, episodeCandidate?, hfractional, hseason]

/-- The candidates of a title with the number `n` whose last digit is `d`. -/
def wordNumberCandidates (marked : Prop) [Decidable marked] (n d : Int) :
    List RSSCoordinateCandidate :=
  (if marked then [{ episode := n, priority := 300, evidence := "episode_marker" }] else []) ++
    ({ episode := n, priority := 100, evidence := "delimited_episode" } ::
      if d ≤ 0 then [] else [{ episode := d, priority := 100, evidence := "delimited_episode" }])

theorem candidates_of_number {n d : Int} (hn : parseRSSReleaseNumber t.digits = n)
    (hd : parseRSSReleaseNumber [t.digits.getLast t.digits_ne_nil] = d) (hpositive : 0 < n) :
    (rssCoordinatePatterns.flatMap fun pattern => pattern.candidates t.text) =
      wordNumberCandidates (t.word.map foldCase ∈ episodeMarkers) n d := by
  rw [rssCoordinatePatterns_wordNumber, candidates_eq_filterMap t rfl rfl,
    candidates_eq_filterMap t rfl rfl]
  refine congrArg₂ (· ++ ·) ?_ ?_
  · change ((findRSSPatternSubmatches markedEpisode t.text).map (·.submatch 1)).filterMap _ = _
    rw [findRSSPatternSubmatches_markedEpisode]
    split_ifs
    · simp [episodeCandidate?, hn, hpositive, rssEpisodeMarkerPattern]
    · rfl
  · change ((findRSSPatternSubmatches delimitedEpisode t.text).map (·.submatch 1)).filterMap _ = _
    rw [findRSSPatternSubmatches_delimitedEpisode]
    simp only [List.filterMap_cons, episodeCandidate?, hn, hd,
      if_neg (not_le.mpr hpositive)]
    split_ifs <;> rfl

/-- The candidates agree, or a marker decides. -/
theorem decideRSSCandidates_wordNumber {normalized : Runes} {defaultSeason season n d : Int}
    {marked : Prop} [Decidable marked]
    (hseason : resolveRSSReleaseSeason normalized defaultSeason = some season) :
    let result := decideRSSCandidates normalized defaultSeason (wordNumberCandidates marked n d)
    result.status = .matched ∧ result.sourceEpisode = n ↔ marked ∨ d ≤ 0 ∨ d = n := by
  unfold wordNumberCandidates
  by_cases hmarked : marked
  · simp only [hmarked]
    split_ifs <;> simp [decideRSSCandidates, Ranking.sortBy, resolveRSSCandidates, hseason]
  · simp only [hmarked]
    by_cases hd : d ≤ 0
    · simp [hd, decideRSSCandidates, Ranking.sortBy, resolveRSSCandidates, hseason]
    · by_cases hsame : n = d
      · subst hsame
        simp [hd, decideRSSCandidates, Ranking.sortBy, resolveRSSCandidates, hseason]
      · simp [hd, hsame, Ne.symm hsame, decideRSSCandidates, Ranking.sortBy, resolveRSSCandidates,
          hseason]

theorem normalizeRSSReleaseRune_of_isAlphanum (h : c.isAlphanum = true) :
    normalizeRSSReleaseRune c = c := by
  unfold normalizeRSSReleaseRune
  rw [if_neg, if_neg, if_neg]
  · rintro (rfl | rfl) <;> cases h
  · intro hdash
    simp only [List.mem_cons, List.not_mem_nil, or_false] at hdash
    rcases hdash with rfl | rfl | rfl | rfl | rfl | rfl | rfl <;> cases h
  · rintro ⟨hwide, -⟩
    have hlarge : (0xff01) ≤ c.val := hwide
    grind [Char.isAlphanum, Char.isAlpha, Char.isUpper, Char.isLower, Char.isDigit]

/-- Such a title is in its normal form. -/
theorem normalizeRSSReleaseTitle_wordNumber :
    normalizeRSSReleaseTitle (.ofList t.text) = .ofList t.text := by
  have hword : ∀ c ∈ t.word, isSpace c = false := fun c hc =>
    isSpace_of_isAlphanum (by simp [Char.isAlphanum, t.isAlpha_of_mem hc])
  have hdigits : ∀ c ∈ t.digits, isSpace c = false := fun c hc =>
    isSpace_of_isDigit (t.isDigit_of_mem hc)
  have htrim : trimFunc isSpace t.text = t.text := by
    refine trimFunc_eq_self (fun c hc => ?_) fun c hc => ?_
    · rw [WordNumber.text, List.head?_append_of_ne_nil _ t.word_ne_nil] at hc
      exact hword c (List.mem_of_mem_head? hc)
    · rw [WordNumber.text, List.getLast?_append_of_ne_nil _ (List.cons_ne_nil _ _),
        List.getLast?_cons_of_ne_nil t.digits_ne_nil] at hc
      exact hdigits c (List.mem_of_getLast? hc)
  have hmap : t.text.map normalizeRSSReleaseRune = t.text := by
    conv_rhs => rw [← List.map_id t.text]
    refine List.map_congr_left fun c hc => ?_
    rcases t.mem_text hc with halpha | rfl | hdigit
    · exact normalizeRSSReleaseRune_of_isAlphanum (by simp [Char.isAlphanum, halpha])
    · decide
    · exact normalizeRSSReleaseRune_of_isAlphanum (by simp [Char.isAlphanum, hdigit])
  have hfields : fields t.text = [t.word, t.digits] := by
    rw [fields, WordNumber.text, List.splitOnP_append_cons_of_forall_mem hword ' ' rfl,
      List.splitOnP_eq_singleton hdigits]
    simp [t.word_ne_nil, t.digits_ne_nil]
  rw [normalizeRSSReleaseTitle, trimSpace]
  rw [String.toList_ofList, String.toList_ofList, htrim, hmap, hfields]
  simp [WordNumber.text]

/-- The coordinate of a word and a number is found with a positive default season, if the number
has one digit or ends in zero or the word marks an episode. -/
theorem parseRSSReleaseCoordinate_iff {n d : Int} (defaultSeason : Int)
    (hn : parseRSSReleaseNumber t.digits = n)
    (hd : parseRSSReleaseNumber [t.digits.getLast t.digits_ne_nil] = d) (hpositive : 0 < n) :
    (parseRSSReleaseCoordinate (.ofList t.text) defaultSeason).status = .matched ∧
      (parseRSSReleaseCoordinate (.ofList t.text) defaultSeason).sourceEpisode = n ↔
    0 < defaultSeason ∧ (t.word.map foldCase ∈ episodeMarkers ∨ d ≤ 0 ∨ d = n) := by
  have htext : String.ofList t.text ≠ "" := by
    intro hempty
    have := congrArg String.toList hempty
    simp [WordNumber.text] at this
  by_cases hdefault : 0 < defaultSeason
  · obtain ⟨season, hseason⟩ := exists_resolveRSSReleaseSeason t defaultSeason
    have hresult : parseRSSReleaseCoordinate (.ofList t.text) defaultSeason =
        decideRSSCandidates t.text defaultSeason
          (rssCoordinatePatterns.flatMap fun pattern => pattern.candidates t.text) := by
      rw [parseRSSReleaseCoordinate, normalizeRSSReleaseTitle_wordNumber,
        if_neg (by simp [htext, hdefault]), String.toList_ofList]
    rw [hresult, candidates_of_number t hn hd hpositive]
    simpa [hdefault] using decideRSSCandidates_wordNumber hseason
  · have hresult : parseRSSReleaseCoordinate (.ofList t.text) defaultSeason =
        { status := .notFound } := by
      rw [parseRSSReleaseCoordinate]
      exact if_pos (.inr (not_lt.mp hdefault))
    rw [hresult]
    simp [hdefault]

/-! ## Words and numbers -/

/-- The title of a word and a number below a thousand. -/
def WordNumber.ofNat (w : String) (n : Nat) (hw : w.toList.all Char.isAlpha = true) (hne : w ≠ "")
    (hn : n ≤ 999) : WordNumber where
  word := w.toList
  digits := Nat.toDigits 10 n
  letters := hw
  word_ne_nil := by simpa using hne
  allDigits := List.all_eq_true.mpr fun _ => Nat.isDigit_of_mem_toDigits (by decide) (by decide)
  digits_ne_nil := by
    rw [Nat.toDigits_eq_if (by decide)]
    split_ifs <;> simp
  digits_length := (Nat.length_toDigits_le_iff (by decide) (by decide)).mpr (by omega)

theorem parseRSSReleaseNumber_toDigits {n : Nat} (h : n ≤ 999) :
    parseRSSReleaseNumber (Nat.toDigits 10 n) = n := by
  have hne : Nat.toDigits 10 n ≠ [] := by
    rw [Nat.toDigits_eq_if (by decide)]
    split_ifs <;> simp
  rw [parseRSSReleaseNumber_decimal hne fun _ =>
    Nat.isDigit_of_mem_toDigits (by decide) (by decide),
    Nat.ofDigitChars_toDigits (by decide) (by decide), int64_of_range (by omega) (by omega),
    max_eq_right (by omega)]

theorem getLast_toDigits {n : Nat} (hne : Nat.toDigits 10 n ≠ []) :
    [(Nat.toDigits 10 n).getLast hne] = Nat.toDigits 10 (n % 10) := by
  have hlast : Nat.toDigits 10 (n % 10) = [(n % 10).digitChar] :=
    Nat.toDigits_of_lt_base (Nat.mod_lt n (by decide))
  rw [hlast]
  by_cases hsmall : n < 10
  · have hdigits : Nat.toDigits 10 n = [n.digitChar] := Nat.toDigits_of_lt_base hsmall
    simp [hdigits, Nat.mod_eq_of_lt hsmall]
  · have hdigits : Nat.toDigits 10 n = Nat.toDigits 10 (n / 10) ++ [(n % 10).digitChar] := by
      rw [Nat.toDigits_eq_if (by decide), if_neg hsmall]
    simp [hdigits]

end Coordinate

/-- The scan of every pattern ends with its matches in order. They are matches of the whole input
unless one of them leaks its end into the rest. In the title of a word and a number, the number is
found as the episode exactly if its last digit says the same, says nothing, or is overruled by a
marker. -/
theorem findRSSPatternSubmatches_spec (input : List Char) (defaultSeason : Int) :
    (∀ e ∈ rssPatterns,
      searchRounds e input (input.length + 1) 0 = some (findRSSPatternSubmatches e input) ∧
      (findRSSPatternSubmatches e input).Pairwise
        (fun m m' => m.before.length < m'.before.length) ∧
      ((∀ m ∈ findRSSPatternSubmatches e input, StandsIn e input m) ↔ ¬ Leaks e input)) ∧
    ∀ (w : String) (n : Nat), w ≠ "" → w.toList.all Char.isAlpha = true →
      1 ≤ n → n ≤ 999 →
      let result := parseRSSReleaseCoordinate (w ++ " " ++ toString n) defaultSeason
      (result.status = .matched ∧ result.sourceEpisode = n ↔
        0 < defaultSeason ∧
          (w.toLower ∈ ["episode", "ep", "e"] ∨ n % 10 = 0 ∨ n < 10)) := by
  refine ⟨fun e he => ⟨searchRounds_findRSSPatternSubmatches e input,
    findRSSPatternSubmatches_sorted e input,
    standsIn_iff_not_leaks (rssPattern_resumes_or_apart he)⟩, ?_⟩
  intro w n hne hw hlow hhigh
  -- a title of one word and one number: the scan is known for all of them
  let t := WordNumber.ofNat w n hw hne hhigh
  have htitle : w ++ " " ++ toString n = String.ofList t.text := by
    apply String.toList_injective
    simp [WordNumber.text, t, WordNumber.ofNat]
  have hmarker : t.word.map foldCase ∈ episodeMarkers ↔ w.toLower ∈ ["episode", "ep", "e"] := by
    have hlower : t.word.map foldCase = w.toLower.toList := by
      rw [String.toLower, String.toList_map]
      refine List.map_congr_left fun c hc => ?_
      have halpha := t.isAlpha_of_mem hc
      rw [foldCase, if_neg (by rintro rfl; cases halpha), if_neg (by rintro rfl; cases halpha)]
    simp only [hlower, episodeMarkers, List.mem_cons, List.not_mem_nil, String.toList_inj]
  have hlast : parseRSSReleaseNumber [t.digits.getLast t.digits_ne_nil] = (n % 10 : Nat) := by
    have hdigits : [t.digits.getLast t.digits_ne_nil] = Nat.toDigits 10 (n % 10) :=
      getLast_toDigits t.digits_ne_nil
    rw [hdigits, parseRSSReleaseNumber_toDigits (by omega)]
  dsimp only
  rw [htitle, parseRSSReleaseCoordinate_iff t defaultSeason (parseRSSReleaseNumber_toDigits hhigh)
    hlast (by omega), hmarker]
  refine and_congr_right fun _ => or_congr_right (or_congr ?_ ?_)
  · omega
  · omega

/-- The number of a marked title is found, whatever its last digit. -/
theorem findRSSPatternSubmatches_spec_marked :
    (parseRSSReleaseCoordinate ("Ep" ++ " " ++ toString 12) 1).status = .matched ∧
      (parseRSSReleaseCoordinate ("Ep" ++ " " ++ toString 12) 1).sourceEpisode = (12 : Nat) :=
  ((findRSSPatternSubmatches_spec [] 1).2 "Ep" 12 (by decide) (by decide) (by decide)
    (by decide)).mpr
    ⟨by decide, .inl (by decide +kernel)⟩

/-- The last digit of a number is reported as a number at the start of the title, and the title is
taken for ambiguous. -/
theorem last_digit_reported_twice :
    ((findRSSPatternSubmatches delimitedEpisode "A 12".toList).map fun m =>
      (m.before.length, m.text)) = [(1, " 12".toList), (3, "2".toList)] ∧
    matchAt delimitedEpisode false "2".toList = none ∧
    parseRSSReleaseCoordinate "A 12" 1 = { status := .ambiguous } := by
  decide +kernel

end EmbyAuto
