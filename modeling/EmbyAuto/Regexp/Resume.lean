import EmbyAuto.Regexp.Scan

/-!
# Searching on from the last character of a match

Two matches may share a boundary character. A scan that lets them do so goes on at the last
character of each match; if it takes the rest as a text of its own, the start of that text stands
for the start of the whole input.

## Main definitions

* `Regexp.StandsIn`: a match at its own place in the whole input
* `Regexp.resumed`: the text with which the scan goes on
* `Regexp.Leaks`: going on there grants an anchor that the whole input does not
* `Regexp.Resumes`, `Regexp.Apart`: expressions that never leak, and expressions whose matches
  never begin inside one another

## Main results

* `Regexp.resumes_bounded`, `Regexp.apart_bounded`: conditions for texts between boundaries
-/

namespace Regexp

/-- The match of the expression at its own place in the whole input. -/
def StandsIn (e : Regexp) (input : List Char) (m : Match) : Prop :=
  input = m.before ++ (m.text ++ m.after) ∧
    matchAt e m.before.isEmpty (m.text ++ m.after) = some { m with before := [] }

/-- The text from the last character of a match on, or behind the first character of a match that
has no other. -/
def resumed (m : Match) : List Char :=
  if 2 ≤ m.text.length then m.text.drop (m.text.length - 1) ++ m.after
  else (m.text ++ m.after).drop 1

/-- Some match is followed by a place where the expression matches differently at the start of a
text. -/
def Leaks (e : Regexp) (input : List Char) : Prop :=
  ∃ m, StandsIn e input m ∧ resumed m ≠ [] ∧
    matchAt e true (resumed m) ≠ matchAt e false (resumed m)

/-- Where a scan goes on, the start of the text makes no difference. -/
def Resumes (e : Regexp) : Prop :=
  ∀ atStart text m, matchAt e atStart text = some m →
    matchAt e true (resumed m) = matchAt e false (resumed m)

/-- No match begins strictly inside another one, its last character apart. -/
def Apart (e : Regexp) : Prop :=
  ∀ atStart front back found m, front ≠ [] → matchAt e atStart (front ++ back) = some found →
    matchAt e false back = some m → found.text.length ≤ front.length + 1

/-- At one place of an input there is one match. -/
theorem StandsIn.eq_of_before {e : Regexp} {input : List Char} {m m' : Match}
    (h : StandsIn e input m) (h' : StandsIn e input m')
    (hbefore : m.before.length = m'.before.length) : m = m' := by
  obtain ⟨hsame, hrest⟩ := List.append_inj (h.1.symm.trans h'.1) hbefore
  have hmatch := h.2
  rw [hsame, hrest, h'.2] at hmatch
  cases m
  cases m'
  simp_all

theorem Resumes.not_leaks {e : Regexp} (h : Resumes e) (input : List Char) : ¬ Leaks e input := by
  rintro ⟨m, hstands, -, hdiffers⟩
  exact hdiffers (h _ _ _ hstands.2 :)

theorem resumes_of_anchorless {e : Regexp} (h : anchored e = false) : Resumes e :=
  fun _ _ _ _ => matchAt_start_of_anchorless h

/-- Only a text that begins with a certain character needs the anchor, and no match ends in one. -/
theorem resumes_of_last {e : Regexp} {test : Char → Prop}
    (hstart : ∀ text, (∀ c ∈ text.head?, ¬ test c) →
      List.Forall₂ Place.Same (run e { atStart := true, rest := text })
        (run e { atStart := false, rest := text }))
    (hlast : ∀ text ∈ language e, 2 ≤ text.length ∧ ∀ c ∈ text.getLast?, ¬ test c) :
    Resumes e := by
  intro atStart text m hm
  obtain ⟨-, -, hlanguage⟩ := matchAt_consumes hm
  obtain ⟨hlength, hlast⟩ := hlast m.text hlanguage
  refine matchAt_start_of_same (hstart _ ?_)
  obtain ⟨front, last, hsplit⟩ := List.eq_nil_or_concat m.text |>.resolve_left (by
    rintro hnil
    simp [hnil] at hlength)
  rw [resumed, if_pos hlength, hsplit]
  rw [hsplit] at hlast
  simpa using hlast

section Bounded

variable {opens closes : Char → Bool} {middle : List Regexp} {head : Char → Prop}

/-- Without its opening character, a bounded text begins as its middle does. -/
theorem run_unopened_eq_nil (hheads : Heads (seqs middle) head) {text : List Char}
    (htext : ∀ c ∈ text.head?, ¬ head c) :
    run (seqs (middle ++ [alt textEnd (chars closes)])) { atStart := true, rest := text } = [] := by
  rw [List.eq_nil_iff_forall_not_mem]
  intro q hq
  rw [run_seqs_append, List.mem_flatMap] at hq
  obtain ⟨r, hr, -⟩ := hq
  obtain ⟨inner, hinner, hrest, -⟩ := exists_language_of_mem_run _ _ _ hr
  obtain ⟨c, tail, rfl, hc⟩ := hheads inner hinner
  simp only at hrest
  exact htext c (by simp [hrest]) hc

/-- Where the middle cannot begin, the start of the text makes no difference. -/
theorem same_run_bounded (hheads : Heads (seqs middle) head) {text : List Char}
    (htext : ∀ c ∈ text.head?, ¬ head c) :
    List.Forall₂ Place.Same (run (bounded opens closes middle) { atStart := true, rest := text })
      (run (bounded opens closes middle) { atStart := false, rest := text }) := by
  rw [run_bounded, run_bounded, if_pos rfl, run_unopened_eq_nil hheads htext]
  exact List.forall₂_same.mpr fun _ _ => ⟨rfl, rfl⟩

/-- A bounded text whose middle has two characters and does not begin with a closing one. -/
theorem resumes_bounded (hheads : Heads (seqs middle) head)
    (hcloses : ∀ c, closes c = true → ¬ head c)
    (hlength : ∀ inner ∈ language (seqs middle), 2 ≤ inner.length) :
    Resumes (bounded opens closes middle) := by
  intro atStart text m hm
  obtain ⟨opening, inner, closing, htext, hinner, -, hclosing⟩ := matchAt_bounded hm
  have htwo := hlength inner hinner
  have hresumed : resumed m = m.text.drop (m.text.length - 1) ++ m.after :=
    if_pos (by rw [htext]; simp only [List.length_append]; omega)
  apply matchAt_start_bounded
  rcases hclosing with ⟨rfl, hafter⟩ | ⟨c, hc, rfl⟩
  · -- the match ends the text, and its last character is no middle
    obtain ⟨front, last, rfl⟩ := List.eq_nil_or_concat inner |>.resolve_left (by
      rintro rfl
      simp at htwo)
    have hlast : resumed m = [last] := by
      rw [hresumed, htext, hafter]
      simp
    rw [hlast, List.eq_nil_iff_forall_not_mem]
    intro q hq
    rw [run_seqs_append, List.mem_flatMap] at hq
    obtain ⟨r, hr, -⟩ := hq
    obtain ⟨inner', hinner', hrest, -⟩ := exists_language_of_mem_run _ _ _ hr
    have := congrArg List.length hrest
    have := hlength inner' hinner'
    simp only [List.length_append, List.length_singleton] at *
    omega
  · have hlast : resumed m = c :: m.after := by
      rw [hresumed, htext]
      simp
    rw [hlast]
    exact run_unopened_eq_nil hheads (by simpa using hcloses c hc)

theorem isChain_of_forall_mem_tail {test : Char → Prop} {text : List Char}
    (h : ∀ c ∈ text.tail, test c) : text.IsChain fun _ b => test b := by
  rw [List.isChain_iff_forall_rel_of_append_cons_cons]
  rintro a b front back rfl
  exact h b (by cases front <;> simp)

/-- A bounded text whose middle has no opening character before one with which it could begin. -/
theorem apart_bounded (hheads : Heads (seqs middle) head)
    (hinner : ∀ inner ∈ language (seqs middle),
      inner.IsChain (fun a b => opens a = true → ¬ head b) ∧
        ∀ a ∈ inner.getLast?, opens a = false) :
    Apart (bounded opens closes middle) := by
  intro atStart front back found m hfront hfound hm
  by_contra hinside
  obtain ⟨-, htext, -⟩ := matchAt_consumes hfound
  obtain ⟨-, hback, -⟩ := matchAt_consumes hm
  obtain ⟨opening, inner, closing, hfoundText, hmiddle, hopening, hclosing⟩ :=
    matchAt_bounded hfound
  obtain ⟨opening', inner', closing', hmText, hmiddle', hopening', -⟩ := matchAt_bounded hm
  -- the second match begins with an opening character and the head of a middle
  obtain ⟨a, ha, rfl⟩ : ∃ c, opens c = true ∧ opening' = [c] := by simpa using hopening'
  obtain ⟨b, tail, rfl, hb⟩ := hheads inner' hmiddle'
  obtain ⟨hchain, hlast⟩ := hinner inner hmiddle
  -- both lie in the first match, behind its opening character
  obtain ⟨rest, hrest⟩ : ∃ rest, found.text = front ++ a :: b :: rest := by
    have hwhole : front ++ [a, b] <+: front ++ back := by
      rw [hback, hmText]
      simp
    have hshorter : (front ++ [a, b]).length ≤ found.text.length := by
      simp only [List.length_append, List.length_cons, List.length_nil]
      omega
    obtain ⟨rest, hrest⟩ :=
      List.prefix_of_prefix_length_le hwhole ⟨found.after, htext.symm⟩ hshorter
    exact ⟨rest, by rw [← hrest]; simp⟩
  obtain ⟨front', hfront'⟩ : opening <+: front := by
    have hwhole : opening <+: found.text := ⟨inner ++ closing, by simp [hfoundText]⟩
    have hshorter : opening.length ≤ front.length := by
      have := List.length_pos_of_ne_nil hfront
      rcases hopening with ⟨rfl, -⟩ | ⟨c, -, rfl⟩
      · exact Nat.zero_le _
      · exact this
    exact List.prefix_of_prefix_length_le hwhole ⟨a :: b :: rest, hrest.symm⟩ hshorter
  have hsplit : inner ++ closing = front' ++ a :: b :: rest := by
    rw [← hfront', hfoundText] at hrest
    simpa using hrest
  have hbroken : ∀ rest', inner ≠ front' ++ a :: b :: rest' := by
    rintro rest' rfl
    exact (List.isChain_append.mp hchain).2.1.rel ha hb
  rcases hclosing with ⟨rfl, -⟩ | ⟨c, -, rfl⟩
  · exact hbroken rest (by simpa using hsplit)
  · rcases List.eq_nil_or_concat rest with rfl | ⟨rest', d, rfl⟩
    · have hend : inner ++ [c] = (front' ++ [a]) ++ [b] := by simpa using hsplit
      obtain ⟨rfl, -⟩ := List.append_inj' hend rfl
      simpa [ha] using hlast a (by simp)
    · have hend : inner ++ [c] = (front' ++ a :: b :: rest') ++ [d] := by simpa using hsplit
      exact hbroken rest' (List.append_inj' hend rfl).1

end Bounded

end Regexp
