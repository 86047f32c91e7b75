import EmbyAuto.Domain.ReleaseTitle
import EmbyAuto.Regexp.Resume

/-!
# The matches that the release parser reports

`findRSSPatternSubmatches` goes on behind each match with a slice of the title, so a pattern that
asks for the start of the title finds it again at the start of the slice. The scan ends and its
matches stand in order. They are matches of the whole title unless some match ends in a character
with which a text of its own would begin another one.

## Main definitions

* `FoundFrom`: the match that one round of the scan finds

## Main results

* `searchRounds_isSome`: the scan ends
* `findRSSPatternSubmatches_sorted`: each match begins behind the one before
* `standsIn_iff_not_leaks`: when all matches are matches of the title
* `rssPattern_resumes_or_apart`: the patterns of the tables
-/

namespace EmbyAuto

open Regexp

/-! ## One round -/

section Round

variable {e : Regexp} {input : Runes} {m found : Match} {rounds offset : Nat}
  {ms : List Match}

/-- The first match from an offset on, with a start of the text at the offset. -/
structure FoundFrom (e : Regexp) (input : Runes) (offset : Nat) (found : Match) : Prop where
  split : input = found.before ++ (found.text ++ found.after)
  behind : offset ≤ found.before.length
  here : matchAt e (decide (found.before.length = offset)) (found.text ++ found.after) =
    some { found with before := [] }
  first : ∀ place, offset ≤ place → place < found.before.length →
    matchAt e (decide (place = offset)) (input.drop place) = none

theorem drop_before (hsplit : input = m.before ++ (m.text ++ m.after)) :
    input.drop m.before.length = m.text ++ m.after := by
  conv_lhs => rw [hsplit]
  rw [List.drop_left]

theorem isEmpty_before (m : Match) : m.before.isEmpty = decide (m.before.length = 0) := by
  rw [Bool.eq_iff_iff, List.isEmpty_iff_length_eq_zero, decide_eq_true_iff]

/-- A found match is one of the whole input unless it begins at a start that the input has not. -/
theorem FoundFrom.standsIn (h : FoundFrom e input offset found)
    (hstart : offset = 0 ∨
      matchAt e true (input.drop offset) = matchAt e false (input.drop offset)) :
    StandsIn e input found := by
  refine ⟨h.split, ?_⟩
  have hhere := h.here
  rw [isEmpty_before]
  by_cases hbefore : found.before.length = offset
  · rcases hstart with rfl | hsame
    · exact hhere
    · rw [← hbefore, drop_before h.split] at hsame
      rw [decide_eq_true hbefore] at hhere
      cases decide (found.before.length = 0)
      · rw [← hsame, hhere]
      · exact hhere
  · have := h.behind
    rwa [decide_eq_false hbefore, ← decide_eq_false (show ¬ found.before.length = 0 by omega)]
      at hhere

theorem nextSearchOffset_eq (input : Runes) (m : Match) : nextSearchOffset input m =
    if 2 ≤ m.text.length then some (m.before.length + m.text.length - 1)
    else if m.before.length < input.length then some (m.before.length + 1) else none := by
  unfold nextSearchOffset
  dsimp only
  split_ifs <;> first | rfl | omega

/-- The scan goes on behind the start of the match, with the text that the library calls resumed. -/
theorem nextSearchOffset_spec {next : Nat} (hsplit : input = m.before ++ (m.text ++ m.after))
    (h : nextSearchOffset input m = some next) :
    m.before.length < next ∧ next ≤ input.length ∧ input.drop next = resumed m ∧
      next ≤ m.before.length + max 1 (m.text.length - 1) := by
  have hlength := congrArg List.length hsplit
  simp only [List.length_append] at hlength
  rw [nextSearchOffset_eq] at h
  split_ifs at h with htwo hinside
  · obtain rfl := Option.some.inj h
    refine ⟨by omega, by omega, ?_, by omega⟩
    rw [resumed, if_pos htwo, hsplit, List.drop_append, List.drop_append,
      List.drop_of_length_le (by omega), List.nil_append]
    congr 1
    · congr 1
      omega
    · rw [show m.before.length + m.text.length - 1 - m.before.length - m.text.length = 0 by omega,
        List.drop_zero]
  · obtain rfl := Option.some.inj h
    refine ⟨by omega, by omega, ?_, by omega⟩
    rw [resumed, if_neg htwo, hsplit, List.drop_append, List.drop_of_length_le (by omega),
      List.nil_append, Nat.add_sub_cancel_left]

/-- The part of the input between an offset and a place. -/
theorem exists_slice {place : Nat} (hfrom : offset ≤ place) (hplace : place ≤ input.length) :
    ∃ front, front ++ input.drop place = input.drop offset ∧ front.length = place - offset ∧
      front.isEmpty = decide (place = offset) := by
  have hlength : ((input.drop offset).take (place - offset)).length = place - offset := by
    apply List.length_take_of_le
    rw [List.length_drop]
    omega
  refine ⟨(input.drop offset).take (place - offset), ?_, hlength, ?_⟩
  · conv_rhs => rw [← List.take_append_drop (place - offset) (input.drop offset)]
    rw [List.drop_drop, Nat.add_sub_cancel' hfrom]
  · rw [Bool.eq_iff_iff, List.isEmpty_iff_length_eq_zero, decide_eq_true_iff]
    omega

/-- What the search of one round returns, told by places in the whole input. -/
theorem foundFrom_of_search (hoffset : offset ≤ input.length)
    (h : search e true (input.drop offset) = some m) :
    FoundFrom e input offset { m with before := input.take offset ++ m.before } := by
  obtain ⟨hsplit, hmatch, hfirst⟩ := search_eq_some_iff.mp h
  have hlength : (input.take offset).length = offset := List.length_take_of_le hoffset
  have hempty : ∀ l : Runes, decide ((input.take offset ++ l).length = offset) = l.isEmpty := by
    intro l
    rw [List.length_append, hlength]
    cases l <;> simp
  refine ⟨?_, ?_, ?_, ?_⟩
  · simp only [List.append_assoc]
    rw [← hsplit, List.take_append_drop]
  · simp [hlength]
  · simpa only [hempty, Bool.true_and] using hmatch
  · intro place hfrom hbefore
    simp only [List.length_append] at hbefore
    have hsplitLength := congrArg List.length hsplit
    simp only [List.length_append, List.length_drop] at hsplitLength
    obtain ⟨front, hslice, hfront, hempty⟩ :=
      exists_slice hfrom (show place ≤ input.length by omega)
    rw [← hempty]
    simpa using hfirst front _ hslice (by omega)

/-- One round: the scan is over, or it reports a match and goes on behind its start. -/
theorem searchRounds_cases (h : searchRounds e input (rounds + 1) offset = some ms) :
    (ms = [] ∧ (offset < input.length →
      ∀ place, offset ≤ place → place ≤ input.length →
        matchAt e (decide (place = offset)) (input.drop place) = none)) ∨
    ∃ found rest, ms = found :: rest ∧ offset < input.length ∧ FoundFrom e input offset found ∧
      (nextSearchOffset input found = none ∧ rest = [] ∨
        ∃ next, nextSearchOffset input found = some next ∧
          searchRounds e input rounds next = some rest) := by
  rw [searchRounds] at h
  split_ifs at h with hoffset
  · cases hsearch : search e true (input.drop offset) with
    | none =>
      simp only [hsearch, Option.some.injEq] at h
      refine .inl ⟨h.symm, fun _ place hfrom hplace => ?_⟩
      obtain ⟨front, hslice, -, hempty⟩ := exists_slice hfrom hplace
      rw [← hempty]
      simpa using search_eq_none_iff.mp hsearch front _ hslice
    | some m =>
      simp only [hsearch] at h
      right
      have hfound := foundFrom_of_search hoffset.le hsearch
      cases hnext : nextSearchOffset input { m with before := input.take offset ++ m.before } with
      | none =>
        simp only [hnext, Option.some.injEq] at h
        exact ⟨_, [], h.symm, hoffset, hfound, .inl ⟨hnext, rfl⟩⟩
      | some next =>
        simp only [hnext, Option.map_eq_some_iff] at h
        obtain ⟨rest, hrest, rfl⟩ := h
        exact ⟨_, rest, rfl, hoffset, hfound, .inr ⟨next, hnext, hrest⟩⟩
  · exact .inl ⟨(Option.some.inj h).symm, fun hinside => absurd hinside hoffset⟩

/-! ## Runs of the scan -/

/-- The scan ends: each round goes on behind the offset of the one before. -/
theorem searchRounds_isSome (h : input.length - offset < rounds) :
    (searchRounds e input rounds offset).isSome = true := by
  induction rounds generalizing offset with
  | zero => omega
  | succ rounds ih =>
    rw [searchRounds]
    split_ifs with hoffset
    · cases hsearch : search e true (input.drop offset) with
      | none => rfl
      | some m =>
        have hfound := foundFrom_of_search hoffset.le hsearch
        dsimp only
        cases hnext : nextSearchOffset input { m with before := input.take offset ++ m.before } with
        | none => rfl
        | some next =>
          have hforward := (nextSearchOffset_spec hfound.split hnext).1
          have hbehind := hfound.behind
          simpa using ih (show input.length - next < rounds by omega)
    · rfl

theorem searchRounds_sorted (h : searchRounds e input rounds offset = some ms) :
    ms.Pairwise (fun m m' => m.before.length < m'.before.length) ∧
      ∀ m ∈ ms, offset ≤ m.before.length := by
  induction rounds generalizing offset ms with
  | zero => cases h
  | succ rounds ih =>
    obtain ⟨rfl, -⟩ | ⟨found, rest, rfl, -, hfound, hrest⟩ := searchRounds_cases h
    · exact ⟨.nil, by simp⟩
    · obtain ⟨-, rfl⟩ | ⟨next, hnext, hrest⟩ := hrest
      · exact ⟨List.pairwise_singleton _ _, by simpa using hfound.behind⟩
      · obtain ⟨hsorted, hbehind⟩ := ih hrest
        have hforward := (nextSearchOffset_spec hfound.split hnext).1
        refine ⟨.cons (fun m hm => hforward.trans_le (hbehind m hm)) hsorted, ?_⟩
        simp only [List.mem_cons, forall_eq_or_imp]
        exact ⟨hfound.behind, fun m hm => hfound.behind.trans (hforward.le.trans (hbehind m hm))⟩

/-- Where every place at which the scan goes on agrees with the whole input, so do its matches. -/
theorem standsIn_of_searchRounds (hleaks : ¬ Leaks e input)
    (hstart : offset < input.length → offset = 0 ∨
      matchAt e true (input.drop offset) = matchAt e false (input.drop offset))
    (h : searchRounds e input rounds offset = some ms) : ∀ m ∈ ms, StandsIn e input m := by
  induction rounds generalizing offset ms with
  | zero => cases h
  | succ rounds ih =>
    obtain ⟨rfl, -⟩ | ⟨found, rest, rfl, hoffset, hfound, hrest⟩ := searchRounds_cases h
    · simp
    have hstands : StandsIn e input found := hfound.standsIn (hstart hoffset)
    obtain ⟨-, rfl⟩ | ⟨next, hnext, hrest⟩ := hrest
    · simpa using hstands
    · refine List.forall_mem_cons.mpr ⟨hstands, ih (fun hinside => .inr ?_) hrest⟩
      obtain ⟨-, -, hresumed, -⟩ := nextSearchOffset_spec hfound.split hnext
      by_contra hdiffers
      refine hleaks ⟨found, hstands, ?_, by rwa [← hresumed]⟩
      rw [← hresumed, Ne, List.drop_eq_nil_iff]
      omega

/-- A scan that goes on where the start of a text makes a difference reports the difference. -/
theorem exists_not_standsIn_of_differs (hzero : offset ≠ 0) (hoffset : offset < input.length)
    (hdiffers : matchAt e true (input.drop offset) ≠ matchAt e false (input.drop offset))
    (h : searchRounds e input rounds offset = some ms) : ∃ m ∈ ms, ¬ StandsIn e input m := by
  obtain ⟨m, hm⟩ : ∃ m, matchAt e true (input.drop offset) = some m := by
    rw [← Option.isSome_iff_exists]
    cases hinner : matchAt e false (input.drop offset) with
    | none => exact Option.isSome_iff_ne_none.mpr (hinner ▸ hdiffers)
    | some m => exact matchAt_start_isSome (by rw [hinner]; rfl)
  cases rounds with
  | zero => cases h
  | succ rounds =>
    obtain ⟨-, hnone⟩ | ⟨found, rest, rfl, -, hfound, -⟩ := searchRounds_cases h
    · have := hnone hoffset offset le_rfl hoffset.le
      simp [hm] at this
    · refine ⟨found, by simp, fun hstands => hdiffers ?_⟩
      have hbehind : found.before.length = offset := by
        by_contra hne
        have := hfound.first offset le_rfl (lt_of_le_of_ne hfound.behind (Ne.symm hne))
        simp [hm] at this
      have hhere := hfound.here
      have hthere := hstands.2
      rw [decide_eq_true hbehind] at hhere
      rw [isEmpty_before, decide_eq_false (show ¬ found.before.length = 0 by omega)] at hthere
      rw [← hbehind, drop_before hfound.split, hhere, hthere]

/-- A match of the whole input that leaks is reached, or another one has leaked before. -/
theorem exists_not_standsIn_of_searchRounds (happart : Apart e) (hm : StandsIn e input m)
    (hresumed : resumed m ≠ [])
    (hdiffers : matchAt e true (resumed m) ≠ matchAt e false (resumed m))
    (hoffset : offset ≤ m.before.length) (h : searchRounds e input rounds offset = some ms) :
    ∃ m ∈ ms, ¬ StandsIn e input m := by
  induction rounds generalizing offset ms with
  | zero => cases h
  | succ rounds ih =>
    have hinside : m.before.length < input.length := by
      rw [hm.1, List.length_append, Nat.lt_add_right_iff_pos, List.length_pos_iff]
      intro hnil
      obtain ⟨htext, hafter⟩ := List.append_eq_nil_iff.mp hnil
      simp [resumed, htext, hafter] at hresumed
    -- a round that begins before the match sees it, so what it finds is no later
    have hthere : (matchAt e (decide (m.before.length = offset)) (m.text ++ m.after)).isSome := by
      have hstands := Option.isSome_of_eq_some hm.2
      by_cases hbefore : m.before.length = offset
      · rw [decide_eq_true hbefore]
        exact matchAt_start_isSome hstands
      · rw [isEmpty_before] at hstands
        rwa [decide_eq_false hbefore, ← decide_eq_false (show ¬ m.before.length = 0 by omega)]
    rw [← drop_before hm.1, Option.isSome_iff_ne_none] at hthere
    obtain ⟨-, hnone⟩ | ⟨found, rest, rfl, hoffset', hfound, hrest⟩ := searchRounds_cases h
    · exact absurd (hnone (by omega) _ hoffset hinside.le) hthere
    have hle : found.before.length ≤ m.before.length := by
      by_contra hlt
      exact hthere (hfound.first _ hoffset (by omega))
    obtain ⟨hnext, -⟩ | ⟨next, hnext, hrest⟩ := hrest
    · rw [nextSearchOffset_eq] at hnext
      split_ifs at hnext
      omega
    obtain ⟨hforward, -, hdrop, hshort⟩ := nextSearchOffset_spec hfound.split hnext
    by_cases hbefore : found.before.length = m.before.length
    · by_cases hstands : StandsIn e input found
      · -- the match itself is reported, and the scan goes on where it leaks
        obtain rfl := hstands.eq_of_before hm hbefore
        have hnonempty : next < input.length := by
          rw [← hdrop, Ne, List.drop_eq_nil_iff] at hresumed
          omega
        rw [← hdrop] at hdiffers
        obtain ⟨m', hm', hnot⟩ :=
          exists_not_standsIn_of_differs (by omega) hnonempty hdiffers hrest
        exact ⟨m', List.mem_cons_of_mem _ hm', hnot⟩
      · exact ⟨found, by simp, hstands⟩
    · -- an earlier match ends before the scan would pass over this one
      obtain ⟨front, hslice, hfront, -⟩ := exists_slice hle hinside.le
      rw [drop_before hfound.split, drop_before hm.1] at hslice
      have hmatch := hm.2
      rw [isEmpty_before, decide_eq_false (show ¬ m.before.length = 0 by omega)] at hmatch
      have hhere := hfound.here
      rw [← hslice] at hhere
      have := happart _ front _ _ _ (List.ne_nil_of_length_pos (by omega)) hhere hmatch
      dsimp only at this
      obtain ⟨m', hm', hnot⟩ := ih (show next ≤ m.before.length by omega) hrest
      exact ⟨m', List.mem_cons_of_mem _ hm', hnot⟩

end Round

section Scan

variable {e : Regexp} {input : Runes}

theorem searchRounds_findRSSPatternSubmatches (e : Regexp) (input : Runes) :
    searchRounds e input (input.length + 1) 0 = some (findRSSPatternSubmatches e input) := by
  obtain ⟨ms, hms⟩ := Option.isSome_iff_exists.mp
    (searchRounds_isSome (show input.length - 0 < input.length + 1 by omega))
  rw [findRSSPatternSubmatches, hms]
  rfl

theorem findRSSPatternSubmatches_sorted (e : Regexp) (input : Runes) :
    (findRSSPatternSubmatches e input).Pairwise fun m m' => m.before.length < m'.before.length :=
  (searchRounds_sorted (searchRounds_findRSSPatternSubmatches e input)).1

/-- All reported matches are matches of the whole input exactly if none leaks its end. -/
theorem standsIn_iff_not_leaks (h : Resumes e ∨ Apart e) :
    (∀ m ∈ findRSSPatternSubmatches e input, StandsIn e input m) ↔ ¬ Leaks e input := by
  have hscan := searchRounds_findRSSPatternSubmatches e input
  refine ⟨fun hall hleaks => ?_, fun hleaks =>
    standsIn_of_searchRounds hleaks (fun _ => .inl rfl) hscan⟩
  obtain hresumes | happart := h
  · exact hresumes.not_leaks input hleaks
  · obtain ⟨m, hm, hresumed, hdiffers⟩ := hleaks
    obtain ⟨m', hm', hnot⟩ := exists_not_standsIn_of_searchRounds happart hm hresumed hdiffers
      (Nat.zero_le _) hscan
    exact hnot (hall m' hm')

theorem standsIn_of_resumes (h : Resumes e) {m : Match}
    (hm : m ∈ findRSSPatternSubmatches e input) : StandsIn e input m :=
  (standsIn_iff_not_leaks (.inl h)).mpr (h.not_leaks input) m hm

/-- A match at the start of the input is reported. -/
theorem findRSSPatternSubmatches_ne_nil (hinput : input ≠ []) (h : matchAt e true input ≠ none) :
    findRSSPatternSubmatches e input ≠ [] := by
  intro hnil
  have hscan := searchRounds_findRSSPatternSubmatches e input
  obtain ⟨-, hnone⟩ | ⟨found, rest, hfound, -⟩ := searchRounds_cases hscan
  · exact h (by simpa using hnone (List.length_pos_of_ne_nil hinput) 0 le_rfl (Nat.zero_le _))
  · simp [hnil] at hfound

end Scan

/-! ## The patterns of the tables -/

/-- The expressions of both tables. -/
def rssPatterns : List Regexp :=
  rssCoordinatePatterns.map (·.expression) ++ rssStandaloneSeasonPatterns

section Tables

variable {middle : List Regexp}

theorem foldCase_of_isDigit {c : Char} (h : c.isDigit = true) : foldCase c = c := by
  have hlower : c.toLower = c := by
    unfold Char.toLower
    grind [Char.isDigit]
  unfold foldCase
  rw [if_neg (by rintro rfl; cases h), if_neg (by rintro rfl; cases h), hlower]

theorem isBreak_of_isDigit {c : Char} (h : c.isDigit = true) : isBreak c = false := by
  simp [isBreak, foldCase_of_isDigit h, Char.isAlphanum, h]

theorem isBreak_of_foldCase {c d : Char} (h : foldCase c = d) (hd : d.isAlphanum = true) :
    isBreak c = false := by
  simp [isBreak, h, hd]

theorem isAlphanum_of_isDelimiter {c : Char} (h : isDelimiter c = true) : c.isAlphanum = false := by
  simp only [isDelimiter, isBlank, List.mem_cons, List.not_mem_nil, or_false, Bool.or_eq_true,
    decide_eq_true_eq] at h
  rcases h with (rfl | rfl | rfl | rfl | rfl | rfl) | rfl | rfl <;> rfl

theorem not_isDigit_of_isDelimiter (c : Char) (h : isDelimiter c = true) :
    ¬ c.isDigit = true := fun hdigit => by
  simpa [Char.isAlphanum, hdigit] using isAlphanum_of_isDelimiter h

theorem heads_digits (most : Nat) : Heads (digits most) fun c => c.isDigit = true :=
  heads_rep fun _ hc => hc

theorem heads_number (index most : Nat) : Heads (number index most) fun c => c.isDigit = true :=
  heads_rep fun _ hc => hc

theorem heads_word_isBreak {pattern : String} {first : Char} {rest : Runes}
    (hpattern : pattern.toList = first :: rest) (hfirst : first.isAlphanum = true) :
    Heads (word foldCase pattern) fun c => isBreak c = false :=
  heads_word hpattern fun _ hc => isBreak_of_foldCase hc hfirst

theorem demands_fraction : Demands fraction [fun c => c.isDigit = true, fun c => c = '.'] :=
  (heads_digits 4).demands.seqs (heads_chars (by simp)).demands.head

theorem heads_fraction : Heads fraction fun c => c.isDigit = true := (heads_digits 4).seqs

theorem lasts_fraction : Lasts fraction fun c => c.isDigit = true :=
  (lasts_rep fun _ hc => hc).singleton.seqs.seqs

theorem heads_episodeMarker : Heads episodeMarker fun c => foldCase c = 'e' :=
  (heads_word rfl fun _ => id).alts ((heads_word rfl fun _ => id).alts (heads_word rfl fun _ => id))

/-- A token that begins with a letter or digit and has two characters. -/
theorem resumes_token {tests} (hheads : Heads (seqs middle) fun c => isBreak c = false)
    (hdemands : Demands (seqs middle) tests) (htests : 2 ≤ tests.length) : Resumes (token middle) :=
  resumes_bounded hheads (fun c hc hnot => by simp [hc] at hnot) fun inner hinner =>
    htests.trans (hdemands inner hinner).length_le

theorem resumes_seasonEpisodeFraction : Resumes seasonEpisodeFraction :=
  resumes_token (.seqs (.alts (.seqs (heads_word_isBreak rfl rfl))
    (.alts (.seqs ((heads_digits 2).imp fun _ => isBreak_of_isDigit))
      (.seqs (heads_word_isBreak rfl rfl))))) demands_fraction.head.skip le_rfl

theorem resumes_markedEpisode : Resumes markedEpisode :=
  resumes_token (heads_episodeMarker.imp fun _ hc => isBreak_of_foldCase hc rfl).seqs
    (heads_episodeMarker.demands.seqs (heads_number 1 4).demands.head.skip) le_rfl

/-- A word before a number, as in the patterns of seasons. -/
theorem resumes_wordNumber {pattern : String} {first : Char} {rest : Runes} {between : Regexp}
    {index most : Nat} (hpattern : pattern.toList = first :: rest)
    (hfirst : first.isAlphanum = true) :
    Resumes (token [word foldCase pattern, between, number index most]) :=
  resumes_token (heads_word_isBreak hpattern hfirst).seqs
    ((heads_word_isBreak hpattern hfirst).demands.seqs (heads_number index most).demands.head.skip)
    le_rfl

theorem heads_dash (middle : List Regexp) : Heads (seqs (oneOf ['-'] :: middle)) fun c => c = '-' :=
  (heads_chars (by simp)).seqs

/-- A dash before a number. -/
theorem resumes_releaseDash {test : Char → Prop} (hmiddle : Demands (seqs middle) [test]) :
    Resumes (releaseDash middle) := by
  refine resumes_bounded (heads_dash _) ?_ fun inner hinner => ?_
  · rintro c hc rfl
    revert hc
    decide
  · have hdash : Heads (oneOf ['-']) fun c => c = '-' := heads_chars (by simp)
    exact (hdash.demands.seqs hmiddle.skip inner hinner).length_le

theorem lasts_release {fold : Char → Char} :
    Lasts (seq (word fold "v") (plus digit)) fun c => c.isDigit = true :=
  (lasts_rep fun _ hc => hc).seq

/-- The fractions in brackets or behind a dash: no match ends in a dash. -/
theorem resumes_delimitedFraction :
    Resumes (alt (bracketed [fraction, release]) (releaseDash [fraction, release])) := by
  have hdigit : ∀ c : Char, c.isDigit = true → c ≠ '-' := by
    rintro c hc rfl
    cases hc
  have hbracket : Lasts (bracketed [fraction, release]) fun c => c ≠ '-' := by
    refine (lasts_chars ?_).singleton.seqs.seqs.seqs.seqs.seqs
    rintro c hc rfl
    cases hc
  have hinner : Lasts (seqs [oneOf ['-'], spaces, fraction, release]) fun c => c ≠ '-' :=
    ((lasts_fraction.optional lasts_release).imp hdigit).seqs.seqs
  refine resumes_of_last (fun text htext =>
    List.rel_append (same_run rfl ⟨rfl, rfl⟩) (same_run_bounded (heads_dash _) htext)) ?_
  rintro text (htext | htext)
  · obtain ⟨front, c, rfl, hc⟩ := hbracket text htext
    refine ⟨(demands_fraction.head.skip.skip _ htext).length_le, by simpa using hc⟩
  · obtain ⟨opening, inner, closing, rfl, hmem, -, hclosing⟩ := mem_language_bounded.mp htext
    have hlength : 2 ≤ inner.length := (demands_fraction.head.skip.skip inner hmem).length_le
    refine ⟨by simp only [List.length_append]; omega, ?_⟩
    rcases hclosing with rfl | ⟨c, hc, rfl⟩
    · obtain ⟨front, c, rfl, hc⟩ := hinner inner hmem
      simpa using hc
    · suffices c ≠ '-' by simpa
      rintro rfl
      cases hc

/-- Inside a hash mark with its number there is no further hash. -/
theorem apart_hashMarker : Apart hashMarker := by
  have hheads : Heads (seqs [oneOf ['#'], spaces, number 1 4, lowerRelease]) fun c => c = '#' :=
    (heads_chars (by simp)).seqs
  have htail : Within (seqs [spaces, number 1 4, lowerRelease]) fun c => c ≠ '#' := by
    refine .cons (within_rep ?_) (.cons (within_rep ?_)
      (.cons (within_seq (within_chars ?_) (within_rep ?_)).opt within_nil))
    all_goals
      rintro c hc rfl
      cases hc
  have hlast : Lasts (seqs [oneOf ['#'], spaces, number 1 4, lowerRelease]) fun c =>
      c.isDigit = true := (Lasts.optional (lasts_rep fun _ hc => hc)
        (lasts_rep fun _ hc => hc).seq).seqs.seqs
  refine apart_bounded hheads fun inner hinner => ⟨?_, ?_⟩
  · obtain ⟨_, ⟨c, -, rfl⟩, tail, htail', rfl⟩ := mem_language_seqs_cons.mp hinner
    have hrest : ∀ b ∈ ([c] ++ tail).tail, b ≠ '#' := htail tail htail'
    exact (isChain_of_forall_mem_tail hrest).imp fun _ _ hb _ => hb
  · obtain ⟨front, c, rfl, hc⟩ := hlast inner hinner
    simp [Char.isAlphanum, hc]

/-- Inside a marked fraction a marker stands only behind a letter. -/
theorem apart_episodeFraction : Apart episodeFraction := by
  have hheads : Heads (seqs [alts [word foldCase "episode", word foldCase "ep", word foldCase "e",
      oneOf ['#']], separators, fraction, release]) fun c => foldCase c = 'e' ∨ c = '#' := by
    exact .seqs (.alts (heads_word rfl fun _ => .inl) (.alts (heads_word rfl fun _ => .inl)
      (.alts (heads_word rfl fun _ => .inl) (heads_chars fun c hc => .inr (by simpa using hc)))))
  have hdigit : ∀ c : Char, c.isDigit = true → ¬ (foldCase c = 'e' ∨ c = '#') := by
    rintro c hc (he | rfl)
    · rw [foldCase_of_isDigit hc] at he
      subst he
      cases hc
    · cases hc
  -- behind the marker no character can begin another marker
  have htail : Within (seqs [separators, fraction, release]) fun c =>
      ¬ (foldCase c = 'e' ∨ c = '#') := by
    refine .cons (within_rep fun c hc => ?_) (.cons (.cons (within_rep hdigit)
      (.cons (within_chars fun c hc => ?_) (.cons (within_rep hdigit) within_nil)))
      (.cons (within_seq (within_word fun c hc => ?_) (within_rep hdigit)).opt within_nil))
    · simp only [List.mem_cons, List.not_mem_nil, or_false, decide_eq_true_eq] at hc
      rcases hc with rfl | rfl | rfl | rfl <;> decide
    · obtain rfl : c = '.' := by simpa using hc
      decide
    · obtain hv : foldCase c = 'v' := by simpa using hc
      rintro (he | rfl)
      · simp [hv] at he
      · exact absurd hv (by decide)
  -- and in the marker itself no break stands before such a character
  have hmarker : ∀ marker ∈ language (alts [word foldCase "episode", word foldCase "ep",
      word foldCase "e", oneOf ['#']]),
      marker.IsChain fun a b => isBreak a = true → ¬ (foldCase b = 'e' ∨ b = '#') := by
    have hword : ∀ {pattern : String}, pattern.toList.all Char.isAlphanum = true →
        ∀ marker ∈ language (word foldCase pattern),
          marker.IsChain fun a b => isBreak a = true → ¬ (foldCase b = 'e' ∨ b = '#') := by
      intro pattern hpattern marker hmarker
      rw [List.isChain_iff_forall_rel_of_append_cons_cons]
      rintro a b front back rfl ha
      have hwithin : Within (word foldCase pattern) fun c => isBreak c = false :=
        within_word fun c hc => isBreak_of_foldCase rfl (List.all_eq_true.mp hpattern _ hc)
      simp [hwithin _ hmarker a (by simp)] at ha
    intro marker hmarker
    obtain ⟨e, he, hmarker⟩ := mem_language_alts.mp hmarker
    simp only [List.mem_cons, List.not_mem_nil, or_false] at he
    rcases he with rfl | rfl | rfl | rfl
    · exact hword rfl marker hmarker
    · exact hword rfl marker hmarker
    · exact hword rfl marker hmarker
    · obtain ⟨c, -, rfl⟩ := hmarker
      exact .singleton c
  have hlast : Lasts (seqs [alts [word foldCase "episode", word foldCase "ep", word foldCase "e",
      oneOf ['#']], separators, fraction, release]) fun c => c.isDigit = true :=
    (lasts_fraction.optional lasts_release).seqs.seqs
  refine apart_bounded hheads fun inner hinner => ⟨?_, ?_⟩
  · obtain ⟨marker, hmem, tail, hmem', rfl⟩ := mem_language_seqs_cons.mp hinner
    refine (hmarker marker hmem).append ?_ fun _ _ b hb _ =>
      htail tail hmem' b (List.mem_of_mem_head? hb)
    exact (isChain_of_forall_mem_tail fun b hb => htail tail hmem' b (List.mem_of_mem_tail hb)).imp
      fun _ _ hb _ => hb
  · obtain ⟨front, c, rfl, hc⟩ := hlast inner hinner
    simpa using isBreak_of_isDigit hc

/-- A delimited number has no delimiters inside. -/
theorem apart_delimitedEpisode : Apart delimitedEpisode := by
  have hdigit : ∀ c : Char, c.isDigit = true → isDelimiter c = false := fun c hc =>
    Bool.eq_false_iff.mpr fun hdelimiter => not_isDigit_of_isDelimiter c hdelimiter hc
  have hwithin : Within (seqs [number 1 3, lowerRelease]) fun c => isDelimiter c = false := by
    refine .cons (within_rep hdigit)
      (.cons (within_seq (within_chars ?_) (within_rep hdigit)).opt within_nil)
    intro c hc
    obtain rfl : c = 'v' := by simpa using hc
    rfl
  have hheads : Heads (seqs [number 1 3, lowerRelease]) fun c => c.isDigit = true :=
    (heads_number 1 3).seqs
  refine apart_bounded hheads fun inner hinner => ⟨?_, ?_⟩
  · rw [List.isChain_iff_forall_rel_of_append_cons_cons]
    rintro a b front back rfl ha
    simp [hwithin _ hinner a (by simp)] at ha
  · exact fun a ha => hwithin inner hinner a (List.mem_of_mem_getLast? ha)

theorem rssPattern_resumes_or_apart {e : Regexp} (h : e ∈ rssPatterns) : Resumes e ∨ Apart e := by
  simp only [rssPatterns, rssCoordinatePatterns, rssStandaloneSeasonPatterns, List.map_cons,
    List.map_nil, List.cons_append, List.nil_append, List.mem_cons, List.not_mem_nil,
    or_false] at h
  rcases h with rfl | rfl | rfl | rfl | rfl | rfl | rfl | rfl | rfl | rfl | rfl | rfl | rfl | rfl |
    rfl | rfl | rfl | rfl | rfl
  · exact .inl resumes_seasonEpisodeFraction
  · exact .inr apart_episodeFraction
  · exact .inl (resumes_of_anchorless rfl)
  · exact .inl resumes_delimitedFraction
  · exact .inl (resumes_bounded heads_fraction.seqs not_isDigit_of_isDelimiter fun inner hinner =>
      (demands_fraction.head inner hinner).length_le)
  · exact .inl (resumes_token (heads_word_isBreak rfl rfl).seqs
      ((heads_number 1 2).demands.seqs (heads_number 2 4).demands.head.skip.skip.skip).skip.skip
      le_rfl)
  · exact .inl (resumes_token ((heads_number 1 2).imp fun _ => isBreak_of_isDigit).seqs
      ((heads_number 1 2).demands.seqs (heads_number 2 4).demands.head.skip) le_rfl)
  · exact .inl (resumes_token (heads_word_isBreak rfl rfl).seqs
      ((heads_number 1 2).demands.seqs (heads_number 2 4).demands.head.skip.skip.skip).skip.skip
      le_rfl)
  · exact .inl (resumes_of_anchorless rfl)
  · exact .inl resumes_markedEpisode
  · exact .inr apart_hashMarker
  · exact .inl (resumes_of_anchorless rfl)
  · exact .inl (resumes_releaseDash (heads_number 1 4).demands.head)
  · exact .inl (resumes_of_anchorless rfl)
  · exact .inr apart_delimitedEpisode
  · exact .inl (resumes_wordNumber rfl rfl)
  · exact .inl (resumes_wordNumber rfl rfl)
  · exact .inl (resumes_token ((heads_number 1 2).imp fun _ => isBreak_of_isDigit).seqs
      ((heads_number 1 2).demands.seqs (heads_word_isBreak rfl rfl).demands.head.skip.skip) le_rfl)
  · exact .inl (resumes_of_anchorless rfl)

end Tables

end EmbyAuto
