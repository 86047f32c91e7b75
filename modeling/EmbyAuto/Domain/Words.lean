import EmbyAuto.Domain.Text

/-!
# Words with single blanks between them

`strings.Join(strings.Fields(text), " ")` leaves single blanks between words. A part of such a text
that begins and ends with a word is its own result.
-/

namespace EmbyAuto

variable {text part word : Runes} {c : Char}

/-- No two spaces follow each other, and the only space is the blank. -/
structure Spaced (text : Runes) : Prop where
  apart : text.IsChain fun a b => isSpace a = true → isSpace b = false
  blank : ∀ c ∈ text, isSpace c = true → c = ' '

theorem Spaced.of_part (h : Spaced text) (hpart : part <:+: text) : Spaced part where
  apart := List.IsChain.infix h.apart hpart
  blank c hc := h.blank c (hpart.subset hc)

theorem spaced_cons : Spaced (c :: text) ↔
    (isSpace c = true → c = ' ' ∧ ∀ d ∈ text.head?, isSpace d = false) ∧ Spaced text := by
  constructor
  · rintro ⟨hapart, hblank⟩
    obtain ⟨hfirst, hrest⟩ := List.isChain_cons.mp hapart
    obtain ⟨hc, hblank⟩ := List.forall_mem_cons.mp hblank
    exact ⟨fun hspace => ⟨hc hspace, fun d hd => hfirst d hd hspace⟩, hrest, hblank⟩
  · rintro ⟨hc, hrest, hblank⟩
    exact ⟨List.isChain_cons.mpr ⟨fun d hd hspace => (hc hspace).2 d hd, hrest⟩,
      List.forall_mem_cons.mpr ⟨fun hspace => (hc hspace).1, hblank⟩⟩

theorem Spaced.word_append (h : Spaced text) (hword : ∀ c ∈ word, isSpace c = false) :
    Spaced (word ++ text) := by
  induction word with
  | nil => exact h
  | cons c word ih =>
    obtain ⟨hc, hword⟩ := List.forall_mem_cons.mp hword
    exact spaced_cons.mpr ⟨by simp [hc], ih hword⟩

theorem spaced_intercalate {words} (h : ∀ word ∈ words, word ≠ [] ∧ ∀ c ∈ word, isSpace c = false) :
    Spaced ([' '].intercalate words) ∧
      ∀ c ∈ ([' '].intercalate words).head?, isSpace c = false := by
  induction words with
  | nil => exact ⟨⟨.nil, nofun⟩, nofun⟩
  | cons word words ih =>
    obtain ⟨⟨hne, hword⟩, hwords⟩ := List.forall_mem_cons.mp h
    obtain ⟨hrest, hnext⟩ := ih hwords
    have hhead : ∀ more : Runes, ∀ c ∈ (word ++ more).head?, isSpace c = false := by
      intro more c hc
      rw [List.head?_append_of_ne_nil _ hne] at hc
      exact hword c (List.mem_of_mem_head? hc)
    cases words with
    | nil =>
      exact ⟨hrest.word_append hword, hhead []⟩
    | cons next words =>
      exact ⟨(spaced_cons.mpr ⟨fun _ => ⟨rfl, hnext⟩, hrest⟩).word_append hword, hhead _⟩

theorem last_intercalate {words} (h : ∀ word ∈ words, word ≠ [] ∧ ∀ c ∈ word, isSpace c = false) :
    ∀ c ∈ ([' '].intercalate words).getLast?, isSpace c = false := by
  induction words with
  | nil => exact nofun
  | cons word words ih =>
    obtain ⟨⟨-, hword⟩, hwords⟩ := List.forall_mem_cons.mp h
    intro c hc
    cases words with
    | nil =>
      rw [List.intercalate_singleton] at hc
      exact hword c (List.mem_of_mem_getLast? hc)
    | cons next words =>
      have hne := @intercalate_ne_nil ' ' _ words (hwords next List.mem_cons_self).1
      rw [List.intercalate_cons_cons, List.append_assoc, List.singleton_append,
        List.getLast?_append_of_ne_nil _ (List.cons_ne_nil _ _),
          List.getLast?_cons_of_ne_nil hne] at hc
      exact ih hwords c hc

theorem mem_fields (h : word ∈ fields text) :
    word ≠ [] ∧ ∀ c ∈ word, c ∈ text ∧ isSpace c = false := by
  obtain ⟨hmem, hne⟩ := List.mem_filter.mp h
  exact ⟨by simpa using hne, mem_of_mem_splitOnP text word hmem⟩

theorem words_fields (text : Runes) :
    ∀ word ∈ fields text, word ≠ [] ∧ ∀ c ∈ word, isSpace c = false := fun _ hword =>
  (mem_fields hword).imp_right fun h c hc => (h c hc).2

theorem spaced_fields (text : Runes) : Spaced ([' '].intercalate (fields text)) :=
  (spaced_intercalate (words_fields text)).1

theorem mem_intercalate_fields (h : c ∈ [' '].intercalate (fields text)) : c = ' ' ∨ c ∈ text := by
  obtain hblank | ⟨word, hword, hc⟩ := mem_intercalate_singleton h
  · exact .inl hblank
  · exact .inr ((mem_fields hword).2 c hc).1

/-- A text with single blanks between its words, and none at its ends, is its own result. -/
theorem Spaced.intercalate_fields (h : Spaced text) (hhead : ∀ c ∈ text.head?, isSpace c = false)
    (hlast : ∀ c ∈ text.getLast?, isSpace c = false) : [' '].intercalate (fields text) = text := by
  -- By the length of the text: behind the first word and its blank stands a shorter such text.
  generalize hlength : text.length = length
  induction length using Nat.strong_induction_on generalizing text with
  | _ length ih =>
    obtain ⟨word, rest, rfl, hword, hrest⟩ : ∃ word rest, text = word ++ rest ∧
        (∀ c ∈ word, isSpace c = false) ∧ ∀ c ∈ rest.head?, isSpace c = true :=
      ⟨_, _, (List.takeWhile_append_dropWhile (p := fun c => !isSpace c)).symm,
        fun c hc => by simpa using List.mem_takeWhile_imp hc,
        fun c hc => by simpa using head_dropWhile hc⟩
    rcases rest with _ | ⟨c, rest⟩
    · by_cases hne : word = []
      · simp [hne, fields]
      · simp [fields, List.splitOnP_eq_singleton hword, hne]
    · have htail := spaced_cons.mp (h.of_part (List.suffix_append word (c :: rest)).isInfix)
      obtain ⟨rfl, hnext⟩ := htail.1 (hrest c rfl)
      have hne : word ≠ [] := by
        rintro rfl
        simpa using (hhead ' ' rfl).symm.trans (hrest ' ' rfl)
      have hmore : rest ≠ [] := by
        rintro rfl
        simpa using (hlast ' ' (by simp)).symm.trans (hrest ' ' rfl)
      have hih := ih rest.length (by simp [← hlength]; omega) htail.2 hnext (fun d hd =>
        hlast d (by rwa [List.getLast?_append_of_ne_nil _ (List.cons_ne_nil _ _),
          List.getLast?_cons_of_ne_nil hmore])) rfl
      rw [fields, List.splitOnP_append_cons_of_forall_mem hword ' ' rfl,
        List.filter_cons_of_pos (by simpa using hne), ← fields]
      cases hfields : fields rest with
      | nil => simp [hfields, Ne.symm hmore] at hih
      | cons next words =>
        rw [List.intercalate_cons_cons, ← hfields, hih, List.append_assoc]
        rfl

end EmbyAuto
