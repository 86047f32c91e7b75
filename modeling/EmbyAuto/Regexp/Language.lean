import EmbyAuto.Regexp.Backtrack

/-!
# The texts that an expression consumes

Every way to match consumes a text of the language of the expression, where anchors and groups
count as nothing. What the language says about the characters of its texts (how they begin, which
characters they must contain and in which order) rules out matches without running the search.

## Main definitions

* `Regexp.language`: the texts that an expression can consume
* `Regexp.Heads`, `Regexp.Lasts`, `Regexp.Within`, `Regexp.Demands`: how its texts begin and end,
  and what they contain

## Main results

* `Regexp.exists_language_of_mem_run`: a way to match consumes a text of the language
* `Regexp.mem_run_rep_chars`: the ways to match repeated characters
-/

namespace Regexp

/-- The texts that an expression can consume, with all its anchors granted. -/
def language : Regexp → Language Char
  | empty | textStart | textEnd => 1
  | chars accepts => {text | ∃ c, accepts c = true ∧ text = [c]}
  | seq first second => language first * language second
  | alt first second => language first + language second
  | rep least most body =>
    {text | ∃ n, least ≤ n ∧ (∀ m ∈ most, n ≤ max least m) ∧ text ∈ language body ^ n}
  | group _ body => language body

variable {step : Place → List Place} {most : Option Nat} {fold : Char → Char} {pattern : String}
  {least : Nat}

section Membership

variable {e first second : Regexp} {es : List Regexp} {text : List Char} {accepts : Char → Bool}

theorem mem_language_chars :
    text ∈ language (chars accepts) ↔ ∃ c, accepts c = true ∧ text = [c] := Iff.rfl

theorem mem_language_alt : text ∈ language (alt first second) ↔
    text ∈ language first ∨ text ∈ language second := Iff.rfl

theorem mem_language_seqs_cons : text ∈ language (seqs (e :: es)) ↔
    ∃ front ∈ language e, ∃ back ∈ language (seqs es), front ++ back = text := Language.mem_mul

theorem mem_language_seqs_append {es' : List Regexp} : text ∈ language (seqs (es ++ es')) ↔
    ∃ front ∈ language (seqs es), ∃ back ∈ language (seqs es'), front ++ back = text := by
  induction es generalizing text with
  | nil =>
    constructor
    · exact fun h => ⟨[], rfl, text, h, rfl⟩
    · rintro ⟨front, rfl, back, hback, rfl⟩
      exact hback
  | cons e es ih =>
    simp only [List.cons_append, mem_language_seqs_cons, ih]
    constructor
    · rintro ⟨a, ha, _, ⟨b, hb, c, hc, rfl⟩, rfl⟩
      exact ⟨_, ⟨a, ha, b, hb, rfl⟩, c, hc, List.append_assoc a b c⟩
    · rintro ⟨_, ⟨a, ha, b, hb, rfl⟩, c, hc, rfl⟩
      exact ⟨a, ha, _, ⟨b, hb, c, hc, rfl⟩, (List.append_assoc a b c).symm⟩

theorem mem_language_alts : text ∈ language (alts es) ↔ ∃ e ∈ es, text ∈ language e := by
  induction es with
  | nil => simp [alts, mem_language_chars]
  | cons e es ih =>
    cases es with
    | nil => simp [alts]
    | cons e' es =>
      change text ∈ language (alt e (alts (e' :: es))) ↔ _
      rw [mem_language_alt, ih]
      simp

theorem mem_language_pow_chars {n : Nat} : text ∈ language (chars accepts) ^ n ↔
    text.length = n ∧ ∀ c ∈ text, accepts c = true := by
  induction n generalizing text with
  | zero =>
    rw [pow_zero, Language.mem_one, List.length_eq_zero_iff]
    exact ⟨fun h => ⟨h, by simp [h]⟩, And.left⟩
  | succ n ih =>
    rw [pow_succ']
    constructor
    · rintro ⟨_, ⟨c, hc, rfl⟩, rest, hrest, rfl⟩
      obtain ⟨hlength, hall⟩ := ih.mp hrest
      exact ⟨by simp [hlength], by simpa using ⟨hc, hall⟩⟩
    · rintro ⟨hlength, hall⟩
      cases text with
      | nil => cases hlength
      | cons c rest =>
        exact ⟨[c], ⟨c, hall c (by simp), rfl⟩, rest,
          ih.mpr ⟨by simpa using hlength, fun d hd => hall d (by simp [hd])⟩, rfl⟩

theorem mem_language_rep_chars :
    text ∈ language (rep least most (chars accepts)) ↔
      least ≤ text.length ∧ (∀ m ∈ most, text.length ≤ max least m) ∧
        ∀ c ∈ text, accepts c = true := by
  constructor
  · rintro ⟨n, hleast, hmost, htext⟩
    obtain ⟨rfl, hall⟩ := mem_language_pow_chars.mp htext
    exact ⟨hleast, hmost, hall⟩
  · rintro ⟨hleast, hmost, hall⟩
    exact ⟨_, hleast, hmost, mem_language_pow_chars.mpr ⟨rfl, hall⟩⟩

theorem mem_language_opt : text ∈ language (opt e) ↔ text = [] ∨ text ∈ language e := by
  constructor
  · rintro ⟨n, -, hmost, htext⟩
    match n, hmost 1 rfl with
    | 0, _ => exact .inl htext
    | 1, _ => exact .inr (by rwa [pow_one] at htext)
  · rintro (rfl | htext)
    · exact ⟨0, le_rfl, by simp, rfl⟩
    · exact ⟨1, by omega, by simp, by rwa [pow_one]⟩

theorem mem_language_word :
    text ∈ language (word fold pattern) ↔ text.map fold = pattern.toList := by
  unfold word
  generalize pattern.toList = cs
  induction cs generalizing text with
  | nil =>
    rw [List.map_eq_nil_iff]
    exact Iff.rfl
  | cons c cs ih =>
    rw [List.map_cons, List.map_eq_cons_iff]
    constructor
    · rintro ⟨_, ⟨d, hd, rfl⟩, rest, hrest, rfl⟩
      exact ⟨d, rest, rfl, of_decide_eq_true hd, ih.mp hrest⟩
    · rintro ⟨d, rest, rfl, hd, hrest⟩
      exact ⟨[d], ⟨d, decide_eq_true hd, rfl⟩, rest, ih.mpr hrest, rfl⟩

end Membership

/-! ## Soundness -/

/-- A place reached from another one by consuming a text. -/
def Place.Consumed (p : Place) (text : List Char) (q : Place) : Prop :=
  p.rest = text ++ q.rest ∧ q.atStart = (p.atStart && text.isEmpty)

theorem Place.Consumed.refl (p : Place) : p.Consumed [] p := ⟨rfl, by simp⟩

theorem Place.Consumed.trans {p q r : Place} {front back : List Char} (hfront : p.Consumed front q)
    (hback : q.Consumed back r) : p.Consumed (front ++ back) r := by
  refine ⟨by rw [hfront.1, hback.1, List.append_assoc], ?_⟩
  rw [hback.2, hfront.2]
  cases front <;> simp

theorem Place.Consumed.text_eq {p q : Place} {text : List Char} (h : p.Consumed text q) :
    p.between q = text := by
  rw [Place.between, h.1, List.length_append, Nat.add_sub_cancel, List.take_left]

/-- The place after a text. -/
def Place.advance (p : Place) (text rest : List Char) : Place :=
  { p with atStart := p.atStart && text.isEmpty, rest }

theorem Place.advance_nil (p : Place) : p.advance [] p.rest = p := by simp [Place.advance]

theorem mem_run_chars {accepts : Char → Bool} {p q : Place} : q ∈ run (chars accepts) p ↔
      ∃ c rest, accepts c = true ∧ p.rest = c :: rest ∧ q = p.advance [c] rest := by
  obtain ⟨atStart, _ | ⟨c, rest⟩, captures⟩ := p
  · simp [run]
  · simp only [run, Place.advance, List.cons.injEq]
    constructor
    · intro hq
      split_ifs at hq with hc
      · exact ⟨c, rest, hc, ⟨rfl, rfl⟩, by simpa using hq⟩
      · cases hq
    · rintro ⟨_, _, hc, ⟨rfl, rfl⟩, rfl⟩
      simp [hc]

/-- The steps of a search consume texts of a language. -/
def Consumes (step : Place → List Place) (L : Language Char) : Prop :=
  ∀ p, ∀ q ∈ step p, ∃ text ∈ L, p.Consumed text q

theorem consumes_pure : Consumes ([·]) 1 := by
  intro p q hq
  obtain rfl := List.mem_singleton.mp hq
  exact ⟨[], rfl, .refl q⟩

theorem Consumes.flatMap {step' L M} (h : Consumes step L) (h' : Consumes step' M) :
    Consumes (fun p => (step p).flatMap step') (L * M) := by
  intro p q hq
  obtain ⟨r, hr, hq⟩ := List.mem_flatMap.mp hq
  obtain ⟨front, hfront, hpr⟩ := h p r hr
  obtain ⟨back, hback, hrq⟩ := h' r q hq
  exact ⟨_, Language.append_mem_mul hfront hback, hpr.trans hrq⟩

theorem consumes_times {L} (h : Consumes step L) (n : Nat) : Consumes (times step n) (L ^ n) := by
  induction n with
  | zero => exact consumes_pure
  | succ n ih => exact pow_succ' L n ▸ h.flatMap ih

theorem exists_times_of_mem_rounds {n : Nat} {p q : Place} (hq : q ∈ rounds step n p) :
    ∃ k ≤ n, q ∈ times step k p := by
  induction n generalizing p with
  | zero => exact ⟨0, le_rfl, hq⟩
  | succ n ih =>
    rcases List.mem_append.mp hq with hq | hq
    · obtain ⟨r, hr, hq⟩ := List.mem_flatMap.mp hq
      obtain ⟨k, hk, hq⟩ := ih hq
      exact ⟨k + 1, by omega, List.mem_flatMap.mpr ⟨r, List.mem_of_mem_filter hr, hq⟩⟩
    · exact ⟨0, by omega, hq⟩

/-- Steps that all consume something can be repeated. -/
theorem mem_rounds_of_mem_times (hstep : ∀ p, ∀ q ∈ step p, q.rest.length < p.rest.length)
    {n k : Nat} (hk : k ≤ n) {p q : Place} (hq : q ∈ times step k p) : q ∈ rounds step n p := by
  induction n generalizing k p with
  | zero => rwa [Nat.le_zero.mp hk] at hq
  | succ n ih =>
    cases k with
    | zero => exact List.mem_append_right _ hq
    | succ k =>
      obtain ⟨r, hr, hq⟩ := List.mem_flatMap.mp hq
      exact List.mem_append_left _ (List.mem_flatMap.mpr
        ⟨r, List.mem_filter.mpr ⟨hr, by simpa using hstep p r hr⟩, ih (by omega) hq⟩)

/-- A way to match consumes a text of the language. -/
theorem exists_language_of_mem_run (e : Regexp) : Consumes (run e) (language e) := by
  induction e with
  | empty => exact consumes_pure
  | chars accepts =>
    intro p q hq
    obtain ⟨c, rest, hc, hp, rfl⟩ := mem_run_chars.mp hq
    exact ⟨[c], ⟨c, hc, rfl⟩, hp, rfl⟩
  | textStart | textEnd =>
    intro p q hq
    simp only [run] at hq
    split_ifs at hq
    · exact consumes_pure p q hq
    · cases hq
  | seq first second ihfirst ihsecond => exact ihfirst.flatMap ihsecond
  | alt first second ihfirst ihsecond =>
    intro p q hq
    rcases List.mem_append.mp hq with hq | hq
    · obtain ⟨text, htext, h⟩ := ihfirst p q hq
      exact ⟨text, .inl htext, h⟩
    · obtain ⟨text, htext, h⟩ := ihsecond p q hq
      exact ⟨text, .inr htext, h⟩
  | rep least most body ih =>
    intro p q hq
    -- the required rounds first, then `k` of those that are allowed
    obtain ⟨r, hr, hq⟩ := List.mem_flatMap.mp hq
    obtain ⟨k, hk, hq⟩ := exists_times_of_mem_rounds hq
    obtain ⟨front, hfront, hpr⟩ := consumes_times ih least p r hr
    obtain ⟨back, hback, hrq⟩ := consumes_times ih k r q hq
    refine ⟨front ++ back, ⟨least + k, by omega, ?_, ?_⟩, hpr.trans hrq⟩
    · rintro m rfl
      simp only [Option.elim_some] at hk
      omega
    · rw [pow_add]
      exact Language.append_mem_mul hfront hback
  | group index body ih =>
    intro p q hq
    obtain ⟨r, hr, rfl⟩ := List.mem_map.mp hq
    exact ih p r hr

/-! ## How texts begin and what they contain -/

/-- Every text of the expression begins with a character that passes the test. -/
def Heads (e : Regexp) (test : Char → Prop) : Prop :=
  ∀ text ∈ language e, ∃ c rest, text = c :: rest ∧ test c

section Heads

variable {e : Regexp} {es : List Regexp} {test : Char → Prop} {accepts : Char → Bool}

theorem Heads.imp {test' : Char → Prop} (h : Heads e test) (himp : ∀ c, test c → test' c) :
    Heads e test' := by
  intro text htext
  obtain ⟨c, rest, rfl, hc⟩ := h text htext
  exact ⟨c, rest, rfl, himp c hc⟩

theorem heads_chars (h : ∀ c, accepts c = true → test c) : Heads (chars accepts) test := by
  rintro _ ⟨c, hc, rfl⟩
  exact ⟨c, [], rfl, h c hc⟩

theorem Heads.seq {e' : Regexp} (h : Heads e test) : Heads (seq e e') test := by
  rintro _ ⟨front, hfront, back, -, rfl⟩
  obtain ⟨c, rest, rfl, hc⟩ := h front hfront
  exact ⟨c, rest ++ back, rfl, hc⟩

theorem Heads.seqs (h : Heads e test) : Heads (Regexp.seqs (e :: es)) test := h.seq

theorem Heads.alts (h : Heads e test) (h' : Heads (alts es) test) :
    Heads (Regexp.alts (e :: es)) test := by
  intro text htext
  obtain ⟨e', he, htext'⟩ := mem_language_alts.mp htext
  rcases List.mem_cons.mp he with rfl | he
  · exact h text htext'
  · exact h' text (mem_language_alts.mpr ⟨e', he, htext'⟩)

theorem heads_rep (h : ∀ c, accepts c = true → test c) :
    Heads (rep (least + 1) most (chars accepts)) test := by
  intro text htext
  obtain ⟨hleast, -, hall⟩ := mem_language_rep_chars.mp htext
  match text, hleast with
  | c :: rest, _ => exact ⟨c, rest, rfl, h c (hall c (by simp))⟩

theorem heads_word {first : Char} {rest : List Char} (hpattern : pattern.toList = first :: rest)
    (h : ∀ c, fold c = first → test c) : Heads (word fold pattern) test := by
  intro text htext
  rw [mem_language_word, hpattern, List.map_eq_cons_iff] at htext
  obtain ⟨c, rest, rfl, hc, -⟩ := htext
  exact ⟨c, rest, rfl, h c hc⟩

end Heads

/-- Every text of the expression ends with a character that passes the test. -/
def Lasts (e : Regexp) (test : Char → Prop) : Prop :=
  ∀ text ∈ language e, ∃ front c, text = front ++ [c] ∧ test c

section Lasts

variable {e : Regexp} {es : List Regexp} {test : Char → Prop} {accepts : Char → Bool}

theorem lasts_chars (h : ∀ c, accepts c = true → test c) : Lasts (chars accepts) test := by
  rintro _ ⟨c, hc, rfl⟩
  exact ⟨[], c, rfl, h c hc⟩

theorem lasts_rep (h : ∀ c, accepts c = true → test c) :
    Lasts (rep (least + 1) most (chars accepts)) test := by
  intro text htext
  obtain ⟨hleast, -, hall⟩ := mem_language_rep_chars.mp htext
  rcases List.eq_nil_or_concat text with rfl | ⟨front, c, rfl⟩
  · simp at hleast
  · exact ⟨front, c, by simp, h c (hall c (by simp))⟩

theorem Lasts.imp {test' : Char → Prop} (h : Lasts e test) (himp : ∀ c, test c → test' c) :
    Lasts e test' := by
  intro text htext
  obtain ⟨front, c, rfl, hc⟩ := h text htext
  exact ⟨front, c, rfl, himp c hc⟩

theorem Lasts.seq {first : Regexp} (h : Lasts e test) : Lasts (seq first e) test := by
  rintro _ ⟨front, -, back, hback, rfl⟩
  obtain ⟨back, c, rfl, hc⟩ := h back hback
  exact ⟨front ++ back, c, by simp, hc⟩

theorem Lasts.seqs (h : Lasts (Regexp.seqs es) test) : Lasts (Regexp.seqs (e :: es)) test := h.seq

theorem Lasts.singleton (h : Lasts e test) : Lasts (Regexp.seqs [e]) test := by
  rintro _ ⟨front, hfront, _, rfl, rfl⟩
  simpa using h front hfront

/-- A sequence that ends in something optional. -/
theorem Lasts.optional {last : Regexp} (h : Lasts e test) (hlast : Lasts last test) :
    Lasts (Regexp.seqs [e, opt last]) test := by
  rintro _ ⟨front, hfront, _, ⟨back, hback, _, rfl, rfl⟩, rfl⟩
  rcases mem_language_opt.mp hback with rfl | hback
  · simpa using h front hfront
  · obtain ⟨back, c, rfl, hc⟩ := hlast back hback
    exact ⟨front ++ back, c, by simp, hc⟩

end Lasts

/-- Every character of every text of the expression passes the test. -/
def Within (e : Regexp) (test : Char → Prop) : Prop := ∀ text ∈ language e, ∀ c ∈ text, test c

section Within

variable {e : Regexp} {es : List Regexp} {test : Char → Prop} {accepts : Char → Bool}

theorem Within.imp {test' : Char → Prop} (h : Within e test) (himp : ∀ c, test c → test' c) :
    Within e test' := fun text htext c hc => himp c (h text htext c hc)

theorem within_chars (h : ∀ c, accepts c = true → test c) : Within (chars accepts) test := by
  rintro _ ⟨d, hd, rfl⟩ c hc
  obtain rfl := List.mem_singleton.mp hc
  exact h c hd

theorem within_seq {first second : Regexp} (hfirst : Within first test)
    (hsecond : Within second test) : Within (seq first second) test := by
  rintro _ ⟨front, hfront, back, hback, rfl⟩ c hc
  rcases List.mem_append.mp hc with hc | hc
  · exact hfirst front hfront c hc
  · exact hsecond back hback c hc

theorem Within.cons (h : Within e test) (h' : Within (seqs es) test) :
    Within (seqs (e :: es)) test := within_seq h h'

theorem within_nil : Within (seqs []) test := by
  rintro _ rfl c hc
  cases hc

theorem within_rep (h : ∀ c, accepts c = true → test c) :
    Within (rep least most (chars accepts)) test := fun _ htext c hc =>
  h c ((mem_language_rep_chars.mp htext).2.2 c hc)

theorem within_word (h : ∀ c, fold c ∈ pattern.toList → test c) :
    Within (word fold pattern) test := by
  intro text htext c hc
  rw [mem_language_word] at htext
  exact h c (htext ▸ List.mem_map_of_mem hc)

theorem Within.opt (h : Within e test) : Within (opt e) test := by
  intro text htext c hc
  rcases mem_language_opt.mp htext with rfl | htext
  · cases hc
  · exact h text htext c hc

end Within

/-- A text contains characters that pass the tests, in their order. -/
def Spells (tests : List (Char → Prop)) (text : List Char) : Prop :=
  ∃ cs, cs.Sublist text ∧ List.Forall₂ (fun test c => test c) tests cs

theorem Spells.append {tests tests'} {text text' : List Char}
    (h : Spells tests text) (h' : Spells tests' text') :
      Spells (tests ++ tests') (text ++ text') := by
  obtain ⟨cs, hcs, htests⟩ := h
  obtain ⟨cs', hcs', htests'⟩ := h'
  exact ⟨cs ++ cs', hcs.append hcs', List.rel_append htests htests'⟩

theorem Spells.mono {tests} {text text' : List Char} (h : Spells tests text)
    (hsub : text.Sublist text') : Spells tests text' :=
  h.imp fun _ hcs => ⟨hcs.1.trans hsub, hcs.2⟩

theorem Spells.length_le {tests} {text : List Char} (h : Spells tests text) :
    tests.length ≤ text.length := by
  obtain ⟨cs, hcs, htests⟩ := h
  exact htests.length_eq ▸ hcs.length_le

/-- Every text of the expression spells the tests. -/
def Demands (e : Regexp) (tests : List (Char → Prop)) : Prop :=
  ∀ text ∈ language e, Spells tests text

section Demands

variable {e : Regexp} {es : List Regexp} {tests tests' : List (Char → Prop)}

theorem demands_nil (e : Regexp) : Demands e [] := fun _ _ =>
  ⟨[], List.nil_sublist _, .nil⟩

theorem Demands.seqs (h : Demands e tests) (h' : Demands (seqs es) tests') :
    Demands (seqs (e :: es)) (tests ++ tests') := by
  rintro _ ⟨front, hfront, back, hback, rfl⟩
  exact (h front hfront).append (h' back hback)

/-- A part of a sequence demands nothing. -/
theorem Demands.skip (h : Demands (Regexp.seqs es) tests) :
    Demands (Regexp.seqs (e :: es)) tests := (demands_nil e).seqs h

/-- The last part of a sequence that demands something. -/
theorem Demands.head (h : Demands e tests) : Demands (Regexp.seqs (e :: es)) tests := by
  have := h.seqs (demands_nil (Regexp.seqs es))
  rwa [List.append_nil] at this

theorem Heads.demands {test : Char → Prop} (h : Heads e test) : Demands e [test] := by
  intro text htext
  obtain ⟨c, rest, rfl, hc⟩ := h text htext
  exact ⟨[c], by simp, .cons hc .nil⟩

end Demands

/-! ## The ways through sequences and repeated characters -/

section Ways

variable {e first second : Regexp} {es : List Regexp} {accepts : Char → Bool} {p q : Place}

theorem mem_run_seqs_cons : q ∈ run (seqs (e :: es)) p ↔ ∃ r ∈ run e p, q ∈ run (seqs es) r :=
  List.mem_flatMap

theorem run_seqs_append {es' : List Regexp} (p : Place) :
    run (seqs (es ++ es')) p = (run (seqs es) p).flatMap (run (seqs es')) := by
  induction es generalizing p with
  | nil => exact (List.flatMap_singleton _ p).symm
  | cons e es ih =>
    change (run e p).flatMap (run (seqs (es ++ es'))) =
      ((run e p).flatMap (run (seqs es))).flatMap (run (seqs es'))
    rw [List.flatMap_assoc]
    exact congrArg (List.flatMap · (run e p)) (funext ih)

theorem mem_times_chars {n : Nat} : q ∈ times (run (chars accepts)) n p ↔
    ∃ text rest, p.rest = text ++ rest ∧ text.length = n ∧ (∀ c ∈ text, accepts c = true) ∧
      q = p.advance text rest := by
  induction n generalizing p with
  | zero =>
    constructor
    · intro hq
      obtain rfl := List.mem_singleton.mp hq
      exact ⟨[], q.rest, rfl, rfl, by simp, q.advance_nil.symm⟩
    · rintro ⟨text, rest, hrest, hlength, -, rfl⟩
      obtain rfl := List.length_eq_zero_iff.mp hlength
      rw [List.nil_append] at hrest
      rw [← hrest, p.advance_nil]
      exact List.mem_singleton_self p
  | succ n ih =>
    simp only [times, List.mem_flatMap, ih, mem_run_chars]
    constructor
    · rintro ⟨_, ⟨c, rest, hc, hp, rfl⟩, text, rest', hrest, hlength, hall, rfl⟩
      refine ⟨c :: text, rest', ?_, by simp [hlength], by simpa using ⟨hc, hall⟩, ?_⟩
      · rw [hp, List.cons_append, ← hrest]
        rfl
      · simp [Place.advance]
    · rintro ⟨text, rest, hrest, hlength, hall, rfl⟩
      match text, hlength with
      | c :: text, hlength =>
        refine ⟨_, ⟨c, text ++ rest, hall c (by simp), hrest, rfl⟩, text, rest, rfl,
          by simpa using hlength, fun d hd => hall d (by simp [hd]), ?_⟩
        simp [Place.advance]

theorem mem_rounds_chars {n : Nat} : q ∈ rounds (run (chars accepts)) n p ↔
    ∃ text rest, p.rest = text ++ rest ∧ text.length ≤ n ∧ (∀ c ∈ text, accepts c = true) ∧
      q = p.advance text rest := by
  constructor
  · intro hq
    obtain ⟨k, hk, hq⟩ := exists_times_of_mem_rounds hq
    obtain ⟨text, rest, hp, rfl, h⟩ := mem_times_chars.mp hq
    exact ⟨text, rest, hp, hk, h⟩
  · rintro ⟨text, rest, hp, hlength, h⟩
    refine mem_rounds_of_mem_times (fun p q hq => ?_) hlength
      (mem_times_chars.mpr ⟨text, rest, hp, rfl, h⟩)
    obtain ⟨c, rest, -, hp, rfl⟩ := mem_run_chars.mp hq
    simp [hp, Place.advance]

theorem mem_run_rep_chars :
    q ∈ run (rep least most (chars accepts)) p ↔
      ∃ text rest, p.rest = text ++ rest ∧ text ∈ language (rep least most (chars accepts)) ∧
        q = p.advance text rest := by
  rw [run, List.mem_flatMap]
  simp only [mem_times_chars, mem_rounds_chars, mem_language_rep_chars]
  constructor
  · rintro ⟨_, ⟨front, rest, hp, rfl, hfront, rfl⟩, back, rest', hrest, hlength, hback, rfl⟩
    refine ⟨front ++ back, rest', ?_, ⟨by simp, ?_, ?_⟩, ?_⟩
    · rw [hp, List.append_assoc, ← hrest]
      rfl
    · rintro m rfl
      simp only [Option.elim_some] at hlength
      simp only [List.length_append]
      omega
    · simpa [or_imp, forall_and] using ⟨hfront, hback⟩
    · cases front <;> simp [Place.advance]
  · rintro ⟨text, rest, hp, ⟨hleast, hmost, hall⟩, rfl⟩
    refine ⟨_, ⟨text.take least, text.drop least ++ rest, ?_, by simpa using hleast,
      fun c hc => hall c (List.mem_of_mem_take hc), rfl⟩, text.drop least, rest, rfl, ?_,
      fun c hc => hall c (List.mem_of_mem_drop hc), ?_⟩
    · rw [hp, ← List.append_assoc, List.take_append_drop]
    · cases most with
      | none => simp [Place.advance]
      | some m =>
        have := hmost m rfl
        simp only [Option.elim_some, List.length_drop]
        omega
    · have : text.isEmpty = ((text.take least).isEmpty && (text.drop least).isEmpty) := by
        conv_lhs => rw [← List.take_append_drop least text]
        cases text.take least <;> rfl
      simp [Place.advance, this, Bool.and_assoc]

theorem mem_run_alts : q ∈ run (alts es) p ↔ ∃ e ∈ es, q ∈ run e p := by
  induction es with
  | nil => cases hp : p.rest <;> simp [alts, run, hp]
  | cons e es ih =>
    cases es with
    | nil => simp [alts]
    | cons e' es =>
      change q ∈ run e p ++ run (alts (e' :: es)) p ↔ _
      rw [List.mem_append, ih]
      simp

theorem mem_run_opt_self (e : Regexp) (p : Place) : p ∈ run (opt e) p := by
  change p ∈ ([p]).flatMap fun q => rounds (run e) 1 q
  simp [rounds]

/-- A text that folds to a word is a way through the word. -/
theorem mem_run_word {text rest : List Char} (htext : text.map fold = pattern.toList)
    (hp : p.rest = text ++ rest) : p.advance text rest ∈ run (word fold pattern) p := by
  unfold word
  revert htext
  generalize pattern.toList = cs
  induction text generalizing p cs with
  | nil =>
    rintro rfl
    rw [List.nil_append] at hp
    rw [← hp, p.advance_nil]
    exact List.mem_singleton_self p
  | cons c text ih =>
    rintro rfl
    refine mem_run_seqs_cons.mpr ⟨p.advance [c] (text ++ rest),
      mem_run_chars.mpr ⟨c, _, by simp, hp, rfl⟩, ?_⟩
    have := ih (p := p.advance [c] (text ++ rest)) rfl _ rfl
    simpa [Place.advance] using this

/-- An expression without groups keeps the groups matched before. -/
def groupless : Regexp → Bool
  | empty | chars _ | textStart | textEnd => true
  | seq first second | alt first second => groupless first && groupless second
  | rep _ _ body => groupless body
  | group _ _ => false

theorem captures_of_mem_times (h : ∀ p, ∀ q ∈ step p, q.captures = p.captures) {n : Nat}
    (hq : q ∈ times step n p) : q.captures = p.captures := by
  induction n generalizing p with
  | zero => rw [List.mem_singleton.mp hq]
  | succ n ih =>
    obtain ⟨r, hr, hq⟩ := List.mem_flatMap.mp hq
    exact (ih hq).trans (h p r hr)

theorem captures_of_groupless (h : groupless e = true) (hq : q ∈ run e p) :
    q.captures = p.captures := by
  induction e generalizing p q with
  | empty => rw [List.mem_singleton.mp hq]
  | chars accepts =>
    obtain ⟨c, rest, -, -, rfl⟩ := mem_run_chars.mp hq
    rfl
  | textStart | textEnd =>
    simp only [run] at hq
    split_ifs at hq
    · rw [List.mem_singleton.mp hq]
    · cases hq
  | seq first second ihfirst ihsecond =>
    obtain ⟨hfirst, hsecond⟩ := Bool.and_eq_true_iff.mp h
    obtain ⟨r, hr, hq⟩ := List.mem_flatMap.mp hq
    exact (ihsecond hsecond hq).trans (ihfirst hfirst hr)
  | alt first second ihfirst ihsecond =>
    obtain ⟨hfirst, hsecond⟩ := Bool.and_eq_true_iff.mp h
    rcases List.mem_append.mp hq with hq | hq
    · exact ihfirst hfirst hq
    · exact ihsecond hsecond hq
  | rep least most body ih =>
    obtain ⟨r, hr, hq⟩ := List.mem_flatMap.mp hq
    obtain ⟨k, -, hq⟩ := exists_times_of_mem_rounds hq
    exact (captures_of_mem_times (fun _ _ => ih h) hq).trans
      (captures_of_mem_times (fun _ _ => ih h) hr)
  | group index body => cases h

end Ways

end Regexp
