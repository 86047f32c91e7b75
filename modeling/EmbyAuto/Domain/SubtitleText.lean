import EmbyAuto.Domain.SubtitleScript

/-!
# The text of a dialogue line

A dialogue line is split at its commas into a known number of fields, and its text field at the
override blocks. Both splittings are undone by joining; what is converted are the visible parts.

## Main definitions

* `IsOverrides`: what the splitting at override blocks returns
* `visibleText`: the text with its visible parts converted

## Main results

* `intercalate_splitN`, `splitOverrides_spec`: the fields make up the line, and the blocks and the
  parts between them the text
* `not_mem_visibleText`, `visibleText_not_blank`: what a converter keeps out of a text, and in it
-/

namespace EmbyAuto

/-! ## Trimming -/

variable {separator : Char} {text : Runes} {parts : List (Runes × Runes)}
  {fields : List Runes} {p : Char → Bool}

theorem trimFunc_eq_nil_iff : trimFunc p text = [] ↔ ∀ c ∈ text, p c = true := by
  rw [trimFunc, List.reverse_eq_nil_iff, List.dropWhile_eq_nil_iff]
  simp only [List.mem_reverse]
  constructor
  · intro h c hc
    by_contra hne
    -- the first character that stays would have to be dropped
    have hdrop : text.dropWhile p ≠ [] := fun hnil => hne (List.dropWhile_eq_nil_iff.mp hnil c hc)
    have hhead := List.head_dropWhile_not p hdrop
    rw [h _ (List.head_mem hdrop)] at hhead
    cases hhead
  · intro h c hc
    exact h c (List.dropWhile_suffix p |>.subset hc)

/-- Behind a text without white space at its ends only the end is trimmed. -/
theorem trimFunc_append_right {front : Runes} (hhead : ∀ c ∈ front.head?, p c = false)
    (hlast : ∀ c ∈ front.getLast?, p c = false) (hne : front ≠ []) (rest : Runes) :
    trimFunc p (front ++ rest) = front ++ (rest.reverse.dropWhile p).reverse := by
  have hfront : (front ++ rest).dropWhile p = front ++ rest := by
    refine dropWhile_eq_self fun c hc => hhead c ?_
    rwa [List.head?_append_of_ne_nil _ hne] at hc
  have hback : front.reverse.dropWhile p = front.reverse :=
    dropWhile_eq_self fun c hc => hlast c (by rwa [List.head?_reverse] at hc)
  rw [trimFunc, hfront, List.reverse_append, List.dropWhile_append]
  split_ifs with hnil
  · rw [List.isEmpty_iff.mp hnil, hback]
    simp
  · simp

theorem trimFunc_concat {c : Char} (h : p c = true) (text : Runes) :
    trimFunc p (text ++ [c]) = trimFunc p text := by
  rw [trimFunc, trimFunc, List.dropWhile_append]
  split_ifs with hnil
  · rw [List.isEmpty_iff.mp hnil]
    simp [h]
  · simp [List.dropWhile_cons_of_pos h]

@[simp] theorem trim_dropCarriage (line : Runes) :
    trimFunc isSpace (dropCarriage line) = trimFunc isSpace line := by
  unfold dropCarriage
  split_ifs with hlast
  · conv_rhs => rw [← List.dropLast_append_getLast? _ hlast]
    exact (trimFunc_concat (by decide) _).symm
  · rfl

/-- Dropping from the front keeps what it does not look for. -/
theorem mem_dropWhile {c : Char} (hc : c ∈ text) (hp : p c = false) : c ∈ text.dropWhile p := by
  rw [← List.takeWhile_append_dropWhile (p := p) (l := text), List.mem_append] at hc
  rcases hc with htake | hdrop
  · rw [List.mem_takeWhile_imp htake] at hp
    cases hp
  · exact hdrop

/-! ## Splitting -/

theorem splitN_cons {front : Runes} (h : separator ∉ front) (back : Runes) (n : Nat) :
    splitN separator (n + 2) (front ++ separator :: back) =
      front :: splitN separator (n + 1) back := by
  have hfront := forall_ne_of_not_mem h
  rw [splitN, List.takeWhile_append_of_pos hfront,
    List.dropWhile_append_of_pos hfront]
  simp

theorem splitN_of_not_mem (h : separator ∉ text) {n : Nat} (hn : 0 < n) :
    splitN separator n text = [text] := by
  match n with
  | 1 => rfl
  | n + 2 => rw [splitN, if_neg h]

theorem splitN_ne_nil {n : Nat} (hn : 0 < n) (text : Runes) : splitN separator n text ≠ [] := by
  match n with
  | 1 => simp [splitN]
  | n + 2 =>
    rw [splitN]
    split_ifs <;> simp

/-- Joining undoes splitting. -/
theorem intercalate_splitN (n : Nat) (text : Runes) :
    [separator].intercalate (splitN separator (n + 1) text) = text := by
  induction n generalizing text with
  | zero => simp [splitN]
  | succ n ih =>
    by_cases hmem : separator ∈ text
    · obtain ⟨front, back, rfl, hfront⟩ := List.eq_append_cons_of_mem hmem
      rw [splitN_cons hfront, List.intercalate_cons_of_ne_nil (splitN_ne_nil (by omega) _), ih]
      simp
    · rw [splitN_of_not_mem hmem (by omega)]
      simp

theorem subset_intercalate {field : Runes} (h : field ∈ fields) :
    field ⊆ [separator].intercalate fields := by
  induction fields with
  | nil => cases h
  | cons first fields ih =>
    cases fields with
    | nil =>
      rw [List.mem_singleton.mp h, List.intercalate_singleton]
      exact fun c hc => hc
    | cons next fields =>
      rw [List.intercalate_cons_cons]
      rcases List.mem_cons.mp h with rfl | hrest
      · exact fun c hc => List.mem_append_left _ (List.mem_append_left _ hc)
      · exact fun c hc => List.mem_append_right _ (ih hrest hc)

/-! ## Override blocks -/

theorem splitOverridesFrom_plain {front : Runes} (h : '{' ∉ front) (plain rest : Runes) :
    splitOverridesFrom plain [] false (front ++ rest) =
      splitOverridesFrom (plain ++ front) [] false rest := by
  induction front generalizing plain with
  | nil => simp
  | cons c front ih =>
    rw [List.mem_cons, not_or] at h
    have hopen : ¬ (c = '{' ∧ '}' ∈ front ++ rest) := fun hc => h.1 hc.1.symm
    rw [List.cons_append, splitOverridesFrom, if_neg Bool.false_ne_true, if_neg hopen, ih h.2,
      List.append_assoc, List.singleton_append]

theorem splitOverridesFrom_block {inner : Runes} (h : '}' ∉ inner)
    (plain block rest : Runes) :
    splitOverridesFrom plain block true (inner ++ '}' :: rest) =
      ((plain, block ++ inner ++ ['}']) :: (splitOverrides rest).1, (splitOverrides rest).2) := by
  induction inner generalizing block with
  | nil => simp [splitOverridesFrom, splitOverrides]
  | cons c inner ih =>
    rw [List.mem_cons, not_or] at h
    rw [List.cons_append, splitOverridesFrom, if_neg (Ne.symm h.1), ih h.2]
    simp

/-- A text with no brace that opens a block has none. -/
theorem splitOverridesFrom_tail (h : ¬ ['{', '}'].Sublist text) (plain : Runes) :
    splitOverridesFrom plain [] false text = ([], plain ++ text) := by
  induction text generalizing plain with
  | nil => rfl
  | cons c text ih =>
    have hopen : ¬ (c = '{' ∧ '}' ∈ text) := by
      rintro ⟨rfl, hclose⟩
      exact h (List.Sublist.cons_cons _ (List.singleton_sublist.mpr hclose))
    rw [splitOverridesFrom, if_neg Bool.false_ne_true, if_neg hopen,
      ih fun hsub => h (hsub.trans (List.sublist_cons_self c text)), List.append_assoc,
      List.singleton_append]

/-- The first override block of a text. -/
theorem splitOverrides_cons {plain inner : Runes} (hplain : '{' ∉ plain) (hinner : '}' ∉ inner)
    (rest : Runes) : splitOverrides (plain ++ '{' :: inner ++ '}' :: rest) =
      ((plain, '{' :: inner ++ ['}']) :: (splitOverrides rest).1, (splitOverrides rest).2) := by
  have hclose : '}' ∈ inner ++ '}' :: rest := by simp
  rw [splitOverrides, List.append_assoc, splitOverridesFrom_plain hplain, List.cons_append,
    splitOverridesFrom, if_neg Bool.false_ne_true, splitOverridesFrom_block hinner]
  simp

/-- A text with a brace that opens a block has a first one. -/
theorem exists_override (h : ['{', '}'].Sublist text) :
    ∃ plain inner rest, text = plain ++ '{' :: inner ++ '}' :: rest ∧ '{' ∉ plain ∧
      '}' ∉ inner := by
  obtain ⟨plain, back, rfl, hplain⟩ :=
    List.eq_append_cons_of_mem (h.subset (List.mem_cons_self))
  have hclose : '}' ∈ back := by
    obtain ⟨front, rear, hsplit, hfront, hrear⟩ := List.sublist_append_iff.mp h
    cases front with
    | nil =>
      rw [List.nil_append] at hsplit
      rw [← hsplit, List.cons_sublist_cons] at hrear
      exact List.singleton_sublist.mp hrear
    | cons c front =>
      -- the brace that opens the block would stand before the first one
      obtain ⟨rfl, -⟩ := List.cons.inj hsplit
      exact absurd (hfront.subset List.mem_cons_self) hplain
  obtain ⟨inner, rest, rfl, hinner⟩ := List.eq_append_cons_of_mem hclose
  exact ⟨plain, inner, rest, by simp, hplain, hinner⟩

/-- What makes a list of parts the override blocks of a text, before a rest without blocks. -/
structure IsOverrides (parts : List (Runes × Runes)) (tail : Runes) : Prop where
  plain : ∀ part ∈ parts, '{' ∉ part.1
  block : ∀ part ∈ parts, ∃ inner, part.2 = '{' :: inner ++ ['}'] ∧ '}' ∉ inner
  tail : ¬ ['{', '}'].Sublist tail

/-- The parts in the order of the text. -/
def joinOverrides (parts : List (Runes × Runes)) (tail : Runes) : Runes :=
  parts.flatMap (fun part => part.1 ++ part.2) ++ tail

/-- **Splitting is joining undone**: the parts are the blocks of the text, and make it up. -/
theorem splitOverrides_spec (text : Runes) :
    IsOverrides (splitOverrides text).1 (splitOverrides text).2 ∧
      joinOverrides (splitOverrides text).1 (splitOverrides text).2 = text := by
  -- on the length: what is behind the first block is shorter
  induction hlength : text.length using Nat.strong_induction_on generalizing text with
  | _ length ih =>
    by_cases hblock : ['{', '}'].Sublist text
    · obtain ⟨plain, inner, rest, rfl, hplain, hinner⟩ := exists_override hblock
      obtain ⟨hrest, hjoin⟩ := ih rest.length (by simp at hlength; omega) rest rfl
      rw [splitOverrides_cons hplain hinner]
      refine ⟨⟨List.forall_mem_cons.mpr ⟨hplain, hrest.plain⟩,
        List.forall_mem_cons.mpr ⟨⟨inner, rfl, hinner⟩, hrest.block⟩, hrest.tail⟩, ?_⟩
      rw [joinOverrides] at hjoin ⊢
      simp [hjoin]
    · rw [splitOverrides, splitOverridesFrom_tail hblock]
      exact ⟨⟨by simp, by simp, by simpa using hblock⟩, by simp [joinOverrides]⟩

/-! ## Converting a text -/

def visibleText (convert : Runes → Runes) (text : Runes) : Runes :=
  joinOverrides ((splitOverrides text).1.map fun part => (convert part.1, part.2))
    (convert (splitOverrides text).2)

theorem convertASSVisibleText_total (convert : Runes → Runes) (text : Runes) :
    convertASSVisibleText (fun s => .ok (convert s)) text = .ok (visibleText convert text) := by
  have hparts : ∀ parts : List (Runes × Runes),
      parts.mapM (m := Except String) (fun part => do
        return (← Except.ok (convert part.1)) ++ part.2) =
      .ok (parts.map fun part => convert part.1 ++ part.2) := by
    intro parts
    induction parts with
    | nil => rfl
    | cons part parts ih =>
      rw [List.mapM_cons, ih]
      rfl
  rw [convertASSVisibleText, hparts]
  simp [visibleText, joinOverrides, List.flatMap_def, Function.comp_def, bind, Except.bind, pure,
    Except.pure]

section Convert

variable {convert : Runes → Runes}

theorem mem_joinOverrides {tail : Runes} {c : Char} :
    c ∈ joinOverrides parts tail ↔ (∃ part ∈ parts, c ∈ part.1 ∨ c ∈ part.2) ∨ c ∈ tail := by
  simp [joinOverrides]

/-- A converter that does not introduce a character does not do so around blocks. -/
theorem not_mem_visibleText {c : Char} (h : ∀ s, c ∉ s → c ∉ convert s) (htext : c ∉ text) :
    c ∉ visibleText convert text := by
  rw [← (splitOverrides_spec text).2, mem_joinOverrides] at htext
  push Not at htext
  rw [visibleText, mem_joinOverrides]
  push Not
  exact ⟨List.forall_mem_map.mpr fun part hpart => (htext.1 part hpart).imp_left (h _),
    h _ htext.2⟩

/-- A text that shows something shows something when it is converted. -/
theorem visibleText_not_blank
    (h : ∀ s, (∃ c ∈ s, isSpace c = false) → ∃ c ∈ convert s, isSpace c = false)
    (htext : ∃ c ∈ text, isSpace c = false) :
    ∃ c ∈ visibleText convert text, isSpace c = false := by
  obtain ⟨hoverrides, hjoin⟩ := splitOverrides_spec text
  cases hparts : (splitOverrides text).1 with
  | nil =>
    rw [hparts] at hjoin
    rw [visibleText, hparts]
    have htail : (splitOverrides text).2 = text := by simpa [joinOverrides] using hjoin
    simpa [joinOverrides, htail] using h text htext
  | cons part parts =>
    obtain ⟨inner, hblock, -⟩ := hoverrides.block part (hparts ▸ List.mem_cons_self)
    refine ⟨'{', ?_, by decide⟩
    rw [visibleText, mem_joinOverrides]
    refine .inl ⟨(convert part.1, part.2), by simp [hparts], .inr ?_⟩
    rw [hblock]
    exact List.mem_cons_self

end Convert

end EmbyAuto
