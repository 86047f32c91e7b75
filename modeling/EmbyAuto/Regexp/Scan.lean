import EmbyAuto.Regexp.Language

/-!
# Matches and where they stand

The leftmost match of an expression with the text around it, and the replacement of all matches.
A text between boundaries, `(?:^|[..])…(?:$|[..])`, matches at the start of a text in one more way
than inside it: the one that skips the boundary.

## Main definitions

* `Regexp.search`: the leftmost match from a place on
* `Regexp.replaceAll`: every match replaced by a text
* `Regexp.bounded`: a text between boundaries

## Main results

* `Regexp.search_eq_some_iff`, `Regexp.search_eq_none_iff`: where the leftmost match stands
* `Regexp.matchAt_start_of_anchorless`, `Regexp.matchAt_start_bounded`: matches that do not depend
  on the start of the text
-/

namespace Regexp

/-- A match, with the text before and after it. -/
structure Match where
  before : List Char
  text : List Char
  after : List Char
  captures : List (Nat × List Char)
  deriving DecidableEq

/-- The text of a group; empty for a group that took no part in the match. -/
def Match.submatch (m : Match) (index : Nat) : List Char := (m.captures.lookup index).getD []

/-- The first way to match at a place, if there is one. -/
def matchAt (e : Regexp) (atStart : Bool) (text : List Char) : Option Match :=
  (run e { atStart, rest := text }).head?.map fun q =>
    { before := []
      text := text.take (text.length - q.rest.length)
      after := q.rest
      captures := q.captures }

/-- The leftmost match from a place on. -/
def search (e : Regexp) (atStart : Bool) : List Char → Option Match
  | [] => matchAt e atStart []
  | c :: rest =>
    (matchAt e atStart (c :: rest)).or
      ((search e false rest).map fun m => { m with before := c :: m.before })

/-- The rounds of `replaceAll`, as many as the text has characters. -/
def replaceRounds (e : Regexp) (replacement : List Char) :
    Nat → Bool → List Char → List Char
  | 0, _, text => text
  | n + 1, atStart, text =>
    match search e atStart text with
    | none => text
    | some m => m.before ++ replacement ++ replaceRounds e replacement n false m.after

/-- `ReplaceAllString` for an expression that matches no empty text. -/
def replaceAll (e : Regexp) (replacement text : List Char) : List Char :=
  replaceRounds e replacement text.length true text

/-! ## The leftmost match -/

section Search

variable {e : Regexp} {atStart : Bool} {text : List Char} {m : Match}

theorem matchAt_eq_some_iff : matchAt e atStart text = some m ↔
    ∃ q, (run e { atStart, rest := text }).head? = some q ∧
      m = { before := [], text := text.take (text.length - q.rest.length), after := q.rest,
            captures := q.captures } := by
  simp [matchAt, eq_comm (a := m)]

theorem matchAt_eq_none_iff :
    matchAt e atStart text = none ↔ run e { atStart, rest := text } = [] := by
  rw [matchAt, Option.map_eq_none_iff, List.head?_eq_none_iff]

/-- A match is a text of the language at the head of what it was matched with. -/
theorem matchAt_consumes (h : matchAt e atStart text = some m) :
    m.before = [] ∧ text = m.text ++ m.after ∧ m.text ∈ language e := by
  obtain ⟨q, hq, rfl⟩ := matchAt_eq_some_iff.mp h
  obtain ⟨consumed, hlanguage, hconsumed⟩ :=
    exists_language_of_mem_run e _ q (List.mem_of_mem_head? hq)
  have htext := hconsumed.text_eq
  simp only [Place.between] at htext
  exact ⟨rfl, by rw [htext]; exact hconsumed.1, htext ▸ hlanguage⟩

theorem Match.eq_of_before_nil (h : m.before = []) : { m with before := [] } = m := by
  rw [← h]

theorem forall_append_eq_cons {P : List Char → List Char → Prop} {c : Char} :
    (∀ front back, front ++ back = c :: text → P front back) ↔
      P [] (c :: text) ∧ ∀ front back, front ++ back = text → P (c :: front) back := by
  simp only [List.append_eq_cons_iff]
  grind

theorem search_eq_none_iff : search e atStart text = none ↔
    ∀ front back, front ++ back = text → matchAt e (atStart && front.isEmpty) back = none := by
  induction text generalizing atStart with
  | nil => simp [search]
  | cons c text ih =>
    rw [search, Option.or_eq_none_iff, Option.map_eq_none_iff, ih, forall_append_eq_cons]
    simp

/-- The leftmost match: no match begins before it. -/
theorem search_eq_some_iff : search e atStart text = some m ↔
    text = m.before ++ (m.text ++ m.after) ∧
    matchAt e (atStart && m.before.isEmpty) (m.text ++ m.after) = some { m with before := [] } ∧
    ∀ front back, front ++ back = text → front.length < m.before.length →
      matchAt e (atStart && front.isEmpty) back = none := by
  -- a match at the very start has nothing before it
  have hfirst : ∀ {atStart text m}, matchAt e atStart text = some m →
      text = m.before ++ (m.text ++ m.after) ∧
      matchAt e (atStart && m.before.isEmpty) (m.text ++ m.after) = some { m with before := [] } ∧
      ∀ front back, front ++ back = text → front.length < m.before.length →
        matchAt e (atStart && front.isEmpty) back = none := by
    intro atStart text m h
    obtain ⟨hbefore, htext, -⟩ := matchAt_consumes h
    rw [m.eq_of_before_nil hbefore, ← htext, hbefore, List.isEmpty_nil, Bool.and_true, h]
    simp
  induction text generalizing atStart m with
  | nil =>
    refine ⟨hfirst, ?_⟩
    rintro ⟨htext, hmatch, -⟩
    obtain ⟨hbefore, htext⟩ := List.append_eq_nil_iff.mp htext.symm
    rwa [m.eq_of_before_nil hbefore, htext, hbefore, List.isEmpty_nil, Bool.and_true] at hmatch
  | cons c text ih =>
    rw [search]
    cases hhere : matchAt e atStart (c :: text) with
    | some found =>
      rw [Option.some_or, Option.some.injEq]
      constructor
      · rintro rfl
        exact hfirst hhere
      · rintro ⟨htext, hmatch, hearlier⟩
        rcases hbefore : m.before with _ | ⟨d, before⟩
        · rw [hbefore, List.nil_append] at htext
          rw [m.eq_of_before_nil hbefore, hbefore, ← htext, List.isEmpty_nil, Bool.and_true,
            hhere] at hmatch
          exact Option.some.inj hmatch
        -- a later match would pass over the one at the start
        · have := hearlier [] _ rfl (by simp [hbefore])
          simp [hhere] at this
    | none =>
      rw [Option.none_or, Option.map_eq_some_iff]
      constructor
      · rintro ⟨later, hlater, rfl⟩
        obtain ⟨htext, hmatch, hearlier⟩ := ih.mp hlater
        refine ⟨congrArg (c :: ·) htext, by simpa using hmatch, forall_append_eq_cons.mpr ⟨?_, ?_⟩⟩
        · simpa using hhere
        · simpa using hearlier
      · rintro ⟨htext, hmatch, hearlier⟩
        rcases hbefore : m.before with _ | ⟨d, before⟩
        · rw [hbefore, List.nil_append] at htext
          rw [hbefore, ← htext, List.isEmpty_nil, Bool.and_true, hhere] at hmatch
          cases hmatch
        · rw [hbefore] at htext
          obtain ⟨rfl, rfl⟩ := List.cons.inj htext
          refine ⟨{ m with before }, ih.mpr ⟨rfl, ?_, ?_⟩, by simp [← hbefore]⟩
          · simpa [hbefore] using hmatch
          · simpa [hbefore] using (forall_append_eq_cons.mp hearlier).2

theorem search_of_matchAt (h : matchAt e atStart text = some m) :
    search e atStart text = some m := by
  cases text with
  | nil => exact h
  | cons c text => rw [search, h, Option.some_or]

/-- The search passes over places without a match. -/
theorem search_append {front back : List Char}
    (h : ∀ passed rest, passed ++ rest = front ++ back → passed.length < front.length →
      matchAt e (atStart && passed.isEmpty) rest = none) :
    search e atStart (front ++ back) =
      (search e (atStart && front.isEmpty) back).map fun m =>
        { m with before := front ++ m.before } := by
  induction front generalizing atStart with
  | nil => simp
  | cons c front ih =>
    have hhere : matchAt e atStart (c :: (front ++ back)) = none := by
      simpa using h [] _ rfl (by simp)
    have hlater : search e false (front ++ back) = _ := ih fun passed rest hsplit hlength => by
      simpa using h (c :: passed) rest (by simp [hsplit]) (by simpa using hlength)
    rw [List.cons_append, search, hhere, hlater]
    simp [Function.comp_def]

theorem search_eq_none_of_language (h : ∀ consumed ∈ language e, ¬ consumed <:+: text) :
    search e atStart text = none := by
  rw [search_eq_none_iff]
  rintro front back rfl
  rw [Option.eq_none_iff_forall_ne_some]
  intro m hm
  obtain ⟨-, rfl, hlanguage⟩ := matchAt_consumes hm
  exact h m.text hlanguage ⟨front, m.after, by simp⟩

theorem replaceAll_of_search_eq_none {replacement : List Char}
    (h : search e true text = none) : replaceAll e replacement text = text := by
  rw [replaceAll]
  cases text.length with
  | zero => rfl
  | succ n => rw [replaceRounds, h]

end Search

/-! ## The start of the text -/

/-- The expression asks for the start of the text. -/
def anchored : Regexp → Bool
  | textStart => true
  | empty | chars _ | textEnd => false
  | seq first second | alt first second => anchored first || anchored second
  | rep _ _ body | group _ body => anchored body

/-- Two places with the same text ahead and the same groups. -/
def Place.Same (p q : Place) : Prop := p.rest = q.rest ∧ p.captures = q.captures

section Anchors

variable {e : Regexp} {text : List Char}

variable {step step' : Place → List Place}

theorem same_times (h : ∀ p p', p.Same p' → List.Forall₂ Place.Same (step p) (step' p')) (n : Nat)
    {p p' : Place} (hp : p.Same p') :
    List.Forall₂ Place.Same (times step n p) (times step' n p') := by
  induction n generalizing p p' with
  | zero => exact .cons hp .nil
  | succ n ih => exact List.rel_flatMap (h p p' hp) fun _ _ hq => ih hq

theorem same_rounds (h : ∀ p p', p.Same p' → List.Forall₂ Place.Same (step p) (step' p')) (n : Nat)
    {p p' : Place} (hp : p.Same p') :
    List.Forall₂ Place.Same (rounds step n p) (rounds step' n p') := by
  induction n generalizing p p' with
  | zero => exact .cons hp .nil
  | succ n ih =>
    refine List.rel_append (List.rel_flatMap (List.rel_filter ?_ (h p p' hp)) fun _ _ hq => ih hq)
      (.cons hp .nil)
    intro q q' hq
    simp [hq.1, hp.1]

/-- Without the anchor, the ways to match depend only on the text ahead. -/
theorem same_run (h : anchored e = false) {p p' : Place} (hp : p.Same p') :
    List.Forall₂ Place.Same (run e p) (run e p') := by
  induction e generalizing p p' with
  | empty => exact .cons hp .nil
  | chars accepts =>
    obtain ⟨a, rest, captures⟩ := p
    obtain ⟨a', rest', captures'⟩ := p'
    obtain ⟨rfl, rfl⟩ : rest = rest' ∧ captures = captures' := hp
    cases rest with
    | nil => exact .nil
    | cons c rest =>
      simp only [run]
      split_ifs
      · exact .cons ⟨rfl, rfl⟩ .nil
      · exact .nil
  | textStart => cases h
  | textEnd =>
    simp only [run, hp.1]
    split_ifs
    · exact .cons hp .nil
    · exact .nil
  | seq first second ihfirst ihsecond =>
    obtain ⟨hfirst, hsecond⟩ := Bool.or_eq_false_iff.mp h
    exact List.rel_flatMap (ihfirst hfirst hp) fun _ _ hq => ihsecond hsecond hq
  | alt first second ihfirst ihsecond =>
    obtain ⟨hfirst, hsecond⟩ := Bool.or_eq_false_iff.mp h
    exact List.rel_append (ihfirst hfirst hp) (ihsecond hsecond hp)
  -- how many rounds are tried depends on the rest of the text alone
  | rep least most body ih =>
    refine List.rel_flatMap (same_times (fun _ _ hq => ih h hq) least hp) fun q q' hq => ?_
    rw [hq.1]
    exact same_rounds (fun _ _ hr => ih h hr) _ hq
  | group index body ih =>
    refine List.rel_map (fun q q' hq => ⟨hq.1, ?_⟩) (ih h hp)
    rw [Place.between, Place.between, hp.1, hq.1, hq.2]

/-- Where the ways at the start of a text and inside it agree, so do the matches. -/
theorem matchAt_start_of_same
    (h : List.Forall₂ Place.Same (run e { atStart := true, rest := text })
      (run e { atStart := false, rest := text })) :
    matchAt e true text = matchAt e false text := by
  unfold matchAt
  revert h
  generalize run e { atStart := true, rest := text } = ways
  generalize run e { atStart := false, rest := text } = ways'
  rintro (_ | ⟨hq, -⟩)
  · rfl
  · simp [hq.1, hq.2]

theorem matchAt_start_of_anchorless (h : anchored e = false) :
    matchAt e true text = matchAt e false text :=
  matchAt_start_of_same (same_run h ⟨rfl, rfl⟩)

/-- Two places, the second at least as much at the start as the first. -/
def Place.Below (p q : Place) : Prop := p.Same q ∧ (p.atStart = true → q.atStart = true)

/-- Every way from one place has one from another that ends at least as much at the start. -/
def Grows (step step' : Place → List Place) : Prop :=
  ∀ p p', p.Below p' → ∀ q ∈ step p, ∃ q' ∈ step' p', q.Below q'

theorem grows_pure : Grows ([·]) ([·]) := by
  intro p p' hp q hq
  obtain rfl := List.mem_singleton.mp hq
  exact ⟨p', List.mem_singleton_self p', hp⟩

theorem Grows.flatMap {next next'} (h : Grows step step') (hnext : Grows next next') :
    Grows (fun p => (step p).flatMap next) fun p => (step' p).flatMap next' := by
  intro p p' hp q hq
  obtain ⟨r, hr, hq⟩ := List.mem_flatMap.mp hq
  obtain ⟨r', hr', hrr⟩ := h p p' hp r hr
  obtain ⟨q', hq', hqq⟩ := hnext r r' hrr q hq
  exact ⟨q', List.mem_flatMap.mpr ⟨r', hr', hq'⟩, hqq⟩

theorem Grows.append {other other'} (h : Grows step step')
    (hother : Grows other other') : Grows (fun p => step p ++ other p) fun p =>
      step' p ++ other' p := by
  intro p p' hp q hq
  rcases List.mem_append.mp hq with hq | hq
  · obtain ⟨q', hq', hqq⟩ := h p p' hp q hq
    exact ⟨q', List.mem_append_left _ hq', hqq⟩
  · obtain ⟨q', hq', hqq⟩ := hother p p' hp q hq
    exact ⟨q', List.mem_append_right _ hq', hqq⟩

theorem grows_times (h : Grows step step') (n : Nat) : Grows (times step n) (times step' n) := by
  induction n with
  | zero => exact grows_pure
  | succ n ih => exact h.flatMap ih

theorem grows_rounds (h : Grows step step') (n : Nat) : Grows (rounds step n) (rounds step' n) := by
  induction n with
  | zero => exact grows_pure
  | succ n ih =>
    refine Grows.append (Grows.flatMap (fun p p' hp r hr => ?_) ih) grows_pure
    obtain ⟨hr, hshorter⟩ := List.mem_filter.mp hr
    obtain ⟨r', hr', hrr⟩ := h p p' hp r hr
    rw [hrr.1.1, hp.1.1] at hshorter
    exact ⟨r', List.mem_filter.mpr ⟨hr', hshorter⟩, hrr⟩

theorem grows_run (e : Regexp) : Grows (run e) (run e) := by
  induction e with
  | empty => exact grows_pure
  | chars accepts =>
    intro p p' hp q hq
    obtain ⟨c, rest, hc, hrest, rfl⟩ := mem_run_chars.mp hq
    refine ⟨_, mem_run_chars.mpr ⟨c, rest, hc, hp.1.1 ▸ hrest, rfl⟩, ⟨rfl, hp.1.2⟩, ?_⟩
    simp [Place.advance]
  | textStart =>
    intro p p' hp q hq
    simp only [run] at hq ⊢
    split_ifs at hq with hstart
    · rw [if_pos (hp.2 hstart)]
      exact grows_pure p p' hp q hq
    · cases hq
  | textEnd =>
    intro p p' hp q hq
    simp only [run, ← hp.1.1] at hq ⊢
    split_ifs at hq ⊢ with hend
    · exact grows_pure p p' hp q hq
    · cases hq
  | seq first second ihfirst ihsecond => exact ihfirst.flatMap ihsecond
  | alt first second ihfirst ihsecond => exact ihfirst.append ihsecond
  | rep least most body ih =>
    refine (grows_times ih least).flatMap fun r r' hrr q hq => ?_
    rw [hrr.1.1] at hq
    exact grows_rounds ih _ r r' hrr q hq
  | group index body ih =>
    intro p p' hp q hq
    obtain ⟨r, hr, rfl⟩ := List.mem_map.mp hq
    obtain ⟨r', hr', hrr⟩ := ih p p' hp r hr
    refine ⟨_, List.mem_map.mpr ⟨r', hr', rfl⟩, ⟨hrr.1.1, ?_⟩, hrr.2⟩
    simp [Place.between, hp.1.1, hrr.1.1, hrr.1.2]

/-- What matches inside a text matches at the start of one. -/
theorem matchAt_start_isSome {atStart : Bool} (h : (matchAt e atStart text).isSome = true) :
    (matchAt e true text).isSome = true := by
  obtain ⟨m, hm⟩ := Option.isSome_iff_exists.mp h
  obtain ⟨q, hq, -⟩ := matchAt_eq_some_iff.mp hm
  obtain ⟨q', hq', -⟩ := grows_run e { atStart, rest := text } { atStart := true, rest := text }
    ⟨⟨rfl, rfl⟩, fun _ => rfl⟩ q (List.mem_of_mem_head? hq)
  rw [Option.isSome_iff_ne_none, Ne, matchAt_eq_none_iff]
  exact List.ne_nil_of_mem hq'

end Anchors

/-! ## Texts between boundaries -/

/-- `(?:^|[opens])…(?:$|[closes])`. -/
def bounded (opens closes : Char → Bool) (middle : List Regexp) : Regexp :=
  seqs (alt textStart (chars opens) :: (middle ++ [alt textEnd (chars closes)]))

section Bounded

variable {opens closes : Char → Bool} {middle : List Regexp} {text : List Char}

theorem mem_language_bounded : text ∈ language (bounded opens closes middle) ↔
    ∃ opening inner closing, text = opening ++ inner ++ closing ∧ inner ∈ language (seqs middle) ∧
      (opening = [] ∨ ∃ c, opens c = true ∧ opening = [c]) ∧
      (closing = [] ∨ ∃ c, closes c = true ∧ closing = [c]) := by
  rw [bounded]
  simp only [mem_language_seqs_append, mem_language_seqs_cons]
  constructor
  · rintro ⟨opening, hopening, _, ⟨inner, hinner, _, ⟨closing, hclosing, _, rfl, rfl⟩, rfl⟩, rfl⟩
    exact ⟨opening, inner, closing, by simp, hinner, hopening, hclosing⟩
  · rintro ⟨opening, inner, closing, rfl, hinner, hopening, hclosing⟩
    exact ⟨opening, hopening, _, ⟨inner, hinner, _, ⟨closing, hclosing, [], rfl, rfl⟩, rfl⟩,
      by simp⟩

theorem demands_bounded {tests} (h : Demands (seqs middle) tests) :
    Demands (bounded opens closes middle) tests := by
  intro text htext
  obtain ⟨opening, inner, closing, rfl, hinner, -, -⟩ := mem_language_bounded.mp htext
  refine (h inner hinner).mono ?_
  rw [List.append_assoc]
  exact (List.sublist_append_left inner closing).trans (List.sublist_append_right _ _)

/-- The places behind the opening boundary. -/
def Opened (opens : Char → Bool) (p r : Place) : Prop :=
  p.atStart = true ∧ r = p ∨ ∃ c rest, opens c = true ∧ p.rest = c :: rest ∧ r = p.advance [c] rest

/-- The places behind the closing boundary. -/
def Closed (closes : Char → Bool) (p q : Place) : Prop :=
  p.rest = [] ∧ q = p ∨ ∃ c rest, closes c = true ∧ p.rest = c :: rest ∧ q = p.advance [c] rest

theorem mem_run_bounded_iff {p q : Place} : q ∈ run (bounded opens closes middle) p ↔
    ∃ r s, Opened opens p r ∧ s ∈ run (seqs middle) r ∧ Closed closes s q := by
  have hopened : ∀ p r, r ∈ run (alt textStart (chars opens)) p ↔ Opened opens p r := by
    intro p r
    rw [Opened, ← mem_run_chars]
    change r ∈ run textStart p ++ run (chars opens) p ↔ _
    rw [List.mem_append]
    simp only [run]
    split_ifs with hstart <;> simp [hstart]
  have hclosed : ∀ p q, q ∈ run (seqs [alt textEnd (chars closes)]) p ↔ Closed closes p q := by
    intro p q
    rw [Closed, ← mem_run_chars, mem_run_seqs_cons]
    change (∃ r ∈ run textEnd p ++ run (chars closes) p, q ∈ [r]) ↔ _
    simp only [List.mem_append]
    simp only [run]
    split_ifs with hend <;> simp [hend]
  rw [bounded, mem_run_seqs_cons]
  simp only [hopened, run_seqs_append, List.mem_flatMap, hclosed]
  constructor
  · rintro ⟨r, hr, s, hs, hq⟩
    exact ⟨r, s, hr, hs, hq⟩
  · rintro ⟨r, s, hr, hs, hq⟩
    exact ⟨r, hr, s, hs, hq⟩

theorem Opened.consumed {p r : Place} (h : Opened opens p r) :
    ∃ opening, p.rest = opening ++ r.rest ∧ r.captures = p.captures ∧
      (opening = [] ∧ p.atStart = true ∨ ∃ c, opens c = true ∧ opening = [c]) := by
  rcases h with ⟨hstart, rfl⟩ | ⟨c, rest, hc, hp, rfl⟩
  · exact ⟨[], rfl, rfl, .inl ⟨rfl, hstart⟩⟩
  · exact ⟨[c], hp, rfl, .inr ⟨c, hc, rfl⟩⟩

theorem Closed.consumed {p q : Place} (h : Closed closes p q) :
    ∃ closing, p.rest = closing ++ q.rest ∧ q.captures = p.captures ∧
      (closing = [] ∧ q.rest = [] ∨ ∃ c, closes c = true ∧ closing = [c]) := by
  rcases h with ⟨hend, rfl⟩ | ⟨c, rest, hc, hp, rfl⟩
  · exact ⟨[], rfl, rfl, .inl ⟨rfl, hend⟩⟩
  · exact ⟨[c], hp, rfl, .inr ⟨c, hc, rfl⟩⟩

/-- The boundaries of a bounded text are there, or the text starts or ends there. -/
theorem matchAt_bounded {atStart : Bool} {m : Match}
    (h : matchAt (bounded opens closes middle) atStart text = some m) :
    ∃ opening inner closing, m.text = opening ++ inner ++ closing ∧
      inner ∈ language (seqs middle) ∧
      (opening = [] ∧ atStart = true ∨ ∃ c, opens c = true ∧ opening = [c]) ∧
      (closing = [] ∧ m.after = [] ∨ ∃ c, closes c = true ∧ closing = [c]) := by
  obtain ⟨q, hq, rfl⟩ := matchAt_eq_some_iff.mp h
  obtain ⟨r, s, hr, hs, hq⟩ := mem_run_bounded_iff.mp (List.mem_of_mem_head? hq)
  obtain ⟨opening, hp, -, hopening⟩ := hr.consumed
  obtain ⟨inner, hinner, hrest, -⟩ := exists_language_of_mem_run _ _ _ hs
  obtain ⟨closing, hs, -, hclosing⟩ := hq.consumed
  refine ⟨opening, inner, closing, ?_, hinner, hopening, hclosing⟩
  have htext : text = opening ++ inner ++ closing ++ q.rest := by
    rw [show text = _ from hp, hrest, hs, List.append_assoc, List.append_assoc]
  rw [htext, List.length_append, Nat.add_sub_cancel, List.take_left]

/-- A bounded text with one group: what the group matched and what stands around it. -/
theorem matchAt_bounded_group (front : List Regexp) {back : List Regexp} {index : Nat}
    {body : Regexp} {atStart : Bool} {m : Match} (hfront : groupless (seqs front) = true)
    (hbody : groupless body = true) (hback : groupless (seqs back) = true)
    (h : matchAt (bounded opens closes (front ++ group index body :: back)) atStart text = some m) :
    ∃ opening lead found trail closing,
      text = opening ++ lead ++ found ++ trail ++ closing ++ m.after ∧
      m.captures = [(index, found)] ∧
      lead ∈ language (seqs front) ∧ found ∈ language body ∧ trail ∈ language (seqs back) ∧
      (opening = [] ∧ atStart = true ∨ ∃ c, opens c = true ∧ opening = [c]) ∧
      (closing = [] ∧ m.after = [] ∨ ∃ c, closes c = true ∧ closing = [c]) := by
  obtain ⟨q, hq, rfl⟩ := matchAt_eq_some_iff.mp h
  obtain ⟨r, s, hr, hs, hq⟩ := mem_run_bounded_iff.mp (List.mem_of_mem_head? hq)
  rw [run_seqs_append, List.mem_flatMap] at hs
  obtain ⟨t, ht, hs⟩ := hs
  obtain ⟨_, hmem, hs⟩ := mem_run_seqs_cons.mp hs
  obtain ⟨u, hu, rfl⟩ := List.mem_map.mp hmem
  obtain ⟨opening, hp, hr, hopening⟩ := hr.consumed
  obtain ⟨lead, hlead, hconsumed⟩ := exists_language_of_mem_run _ _ _ ht
  obtain ⟨found, hfound, hgroup⟩ := exists_language_of_mem_run _ _ _ hu
  obtain ⟨trail, htrail, hrest⟩ := exists_language_of_mem_run _ _ _ hs
  obtain ⟨closing, hclosed, hq, hclosing⟩ := hq.consumed
  refine ⟨opening, lead, found, trail, closing, ?_, ?_, hlead, hfound, htrail, hopening, hclosing⟩
  · have htext : text = opening ++ r.rest := hp
    have hbehind : u.rest = trail ++ s.rest := hrest.1
    simp [htext, hconsumed.1, hgroup.1, hbehind, hclosed]
  · rw [hq, captures_of_groupless hback hs, hgroup.text_eq, captures_of_groupless hbody hu,
      captures_of_groupless hfront ht, hr]

/-- The ways through a bounded text: without the opening character at the start, and with it. -/
theorem run_bounded (atStart : Bool) (text : List Char) :
    run (bounded opens closes middle) { atStart, rest := text } =
      (if atStart = true then
        run (seqs (middle ++ [alt textEnd (chars closes)])) { atStart := true, rest := text }
      else []) ++
      run (seqs (chars opens :: (middle ++ [alt textEnd (chars closes)])))
        { atStart := false, rest := text } := by
  have hchars : run (chars opens) { atStart, rest := text } =
      run (chars opens) { atStart := false, rest := text } := by
    cases text <;> rfl
  change (run textStart { atStart, rest := text } ++
      run (chars opens) { atStart, rest := text }).flatMap
      (run (seqs (middle ++ [alt textEnd (chars closes)]))) = _
  rw [List.flatMap_append, hchars]
  cases atStart
  · rfl
  · simp [run, seqs]

/-- Where the text does not begin without the opening character, the start makes no difference. -/
theorem matchAt_start_bounded
    (h : run (seqs (middle ++ [alt textEnd (chars closes)]))
      { atStart := true, rest := text } = []) :
    matchAt (bounded opens closes middle) true text =
      matchAt (bounded opens closes middle) false text := by
  unfold matchAt
  rw [run_bounded, run_bounded, if_pos rfl, h]
  rfl

end Bounded

end Regexp
