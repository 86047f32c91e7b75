import EmbyAuto.Domain.SubtitleText

/-!
# When a subtitle can be normalised

The candidate check, the rewriting and the final check read the lines one by one. What the first
check has seen in a line, the last one sees in the line that is written for it; only the script
information is looked for in two ways, once by case folding and once in lower case.

## Main definitions

* `normalizedLines`: the lines that are written
* `Covers`: what one check has seen the other has seen

## Main results

* `normalizeASSToSimplified_ok`: the whole rewriting in one equivalence
* `Covers.foldl_written`: the written lines pass where the lines have passed
* `normalize_accepted_iff`: when the normalisation of a candidate succeeds
-/

namespace EmbyAuto

/-! ## Reading a line -/

variable {text : Runes} {lines : List Runes}

section Lines

variable {rules : CaseRules} {state : RewriteState} {line : Runes}

variable {convert : Runes → Runes} {a b : StructureScan} (rest : Runes)
  {dialogue : DialogueFields}

theorem RewriteState.visit_eq_some (h : (state.visit rules line).2 = some dialogue) :
    (state.visit rules line).1 = state ∧
    isSection (trimFunc isSpace line) = false ∧ state.currentSection = eventsSection ∧
    ¬ formatKeyword <+: (trimFunc isSpace line).map rules.lower ∧
    dialogueKeyword <+: (trimFunc isSpace line).map rules.lower ∧
    state.textColumn = some dialogue.column ∧
    dialogue.fields = splitN ',' state.columnCount
      (dropBytes dialogueKeyword.length (trimFunc isSpace line)) ∧
    dialogue.fields[dialogue.column]? = some dialogue.text := by
  unfold RewriteState.visit at h ⊢
  simp only at h ⊢
  split_ifs at h ⊢ with hsection hevents hformat hkeyword
  split at h
  · cases h
  · next column hcolumn =>
    obtain ⟨text, htext, rfl⟩ := Option.map_eq_some_iff.mp h
    exact ⟨rfl, by simpa using hsection, by simpa using hevents, hformat, hkeyword, hcolumn, rfl,
      htext⟩

/-- The line that is written. -/
def RewriteState.written (rules : CaseRules) (convert : Runes → Runes)
    (state : RewriteState) (line : Runes) : Runes :=
  match (state.visit rules line).2 with
  | none => line
  | some dialogue => dialogue.line (visibleText convert dialogue.text)

def writtenLines (rules : CaseRules) (convert : Runes → Runes) :
    RewriteState → List Runes → List Runes
  | _, [] => []
  | state, line :: lines =>
    state.written rules convert line ::
      writtenLines rules convert (state.visit rules line).1 lines

theorem rewriteLines_total (convert : Runes → Runes) (state : RewriteState)
    (lines : List Runes) : rewriteLines rules (fun s => .ok (convert s)) state lines =
      .ok (writtenLines rules convert state lines) := by
  induction lines generalizing state with
  | nil => rfl
  | cons line lines ih =>
    rw [rewriteLines, ih, writtenLines, RewriteState.written]
    cases (state.visit rules line).2 with
    | none => rfl
    | some dialogue =>
      simp only [convertASSVisibleText_total]
      rfl

theorem dropBytes_suffix (n : Nat) (text : Runes) : dropBytes n text <:+ text := by
  fun_induction dropBytes n text with
  | case1 => exact List.suffix_refl _
  | case2 => exact List.suffix_refl _
  | case3 n c text ih => exact ih.trans (List.suffix_cons c text)

theorem dropBytes_dialogue :
    dropBytes dialogueKeyword.length ("Dialogue:".toList ++ rest) = rest := by
  rw [show dialogueKeyword.length = 9 by decide]
  simp [dropBytes, Char.utf8Size]

/-- The columns are counted where one of them is the text. -/
def RewriteState.Counted (state : RewriteState) : Prop :=
  state.textColumn ≠ none → 0 < state.columnCount

theorem RewriteState.Counted.visit (h : state.Counted) : ((state.visit rules line).1).Counted := by
  unfold RewriteState.visit
  simp only
  split_ifs
  · exact h
  · exact h
  · intro _
    exact List.length_pos_of_ne_nil (List.splitOn_ne_nil _ _)
  · split <;> exact h
  · exact h

/-- The fields are made of characters of the line. -/
theorem RewriteState.Counted.fields_subset (h : state.Counted)
    (hvisit : (state.visit rules line).2 = some dialogue) :
    (∀ field ∈ dialogue.fields, field ⊆ line) ∧ dialogue.text ⊆ line := by
  obtain ⟨-, -, -, -, -, hcolumn, hfields, htext⟩ := RewriteState.visit_eq_some hvisit
  have hcount : 0 < state.columnCount := h (by simp [hcolumn])
  have hjoin := @intercalate_splitN ',' (state.columnCount - 1)
    (dropBytes dialogueKeyword.length (trimFunc isSpace line))
  rw [Nat.sub_add_cancel hcount, ← hfields] at hjoin
  have hall : ∀ field ∈ dialogue.fields, field ⊆ line := by
    intro field hfield c hc
    have hrest := @subset_intercalate ',' _ _ hfield c hc
    rw [hjoin] at hrest
    exact (trimFunc_part isSpace line).subset ((dropBytes_suffix _ _).subset hrest)
  exact ⟨hall, hall _ (List.mem_of_getElem? htext)⟩

/-- Lines are written as lines. -/
theorem RewriteState.newline_not_mem_written (hconvert : ∀ s, '\n' ∉ s → '\n' ∉ convert s)
    (hcounted : state.Counted) (hline : '\n' ∉ line) : '\n' ∉ state.written rules convert line := by
  unfold RewriteState.written
  split
  · exact hline
  · next dialogue hvisit =>
    obtain ⟨hold, htext⟩ := hcounted.fields_subset hvisit
    intro hmem
    rcases List.mem_append.mp hmem with hkeyword | hfields
    · exact absurd hkeyword (by decide)
    obtain hcomma | ⟨field, hfield, hc⟩ := mem_intercalate_singleton hfields
    · exact absurd hcomma (by decide)
    rcases List.mem_or_eq_of_mem_set hfield with hkept | rfl
    · exact hline (hold field hkept hc)
    · exact not_mem_visibleText hconvert (fun hc => hline (htext hc)) hc

/-! ## Reading a written dialogue line -/

theorem lower_of_ascii (rules : CaseRules) (h : text.all (·.toNat < 128)) :
    text.map rules.lower = text.map Char.toLower :=
  List.map_congr_left fun c hc => rules.lower_ascii c (by simpa using List.all_eq_true.mp h c hc)

theorem lower_dialogue (rules : CaseRules) (rest : Runes) :
    ("Dialogue:".toList ++ rest).map rules.lower = dialogueKeyword ++ rest.map rules.lower := by
  rw [List.map_append, lower_of_ascii rules rfl]
  rfl

/-- The white space at the end of a dialogue line is cut. -/
theorem trim_dialogue :
    trimFunc isSpace ("Dialogue:".toList ++ rest) =
      "Dialogue:".toList ++ (rest.reverse.dropWhile isSpace).reverse :=
  trimFunc_append_right (by rintro _ ⟨⟩; rfl) (by rintro _ ⟨⟩; rfl) (by decide) rest

theorem isSection_dialogue : isSection ("Dialogue:".toList ++ rest) = false := by
  rfl

theorem isSection_trim_dialogue :
    isSection (trimFunc isSpace ("Dialogue:".toList ++ rest)) = false :=
  (congrArg isSection (trim_dialogue _)).trans (isSection_dialogue _)

/-- The text has a character that is not white space. -/
theorem trim_ne_nil_iff : trimFunc isSpace text ≠ [] ↔ ∃ c ∈ text, isSpace c = false := by
  rw [Ne, trimFunc_eq_nil_iff]
  simp

theorem hasKeyword_iff {keyword : Runes} : hasKeyword rules keyword line = true ↔
    keyword <+: line.map rules.lower ∧
      trimFunc isSpace (dropBytes keyword.length line) ≠ [] := by
  rw [hasKeyword, Bool.and_eq_true, decide_eq_true_eq, decide_eq_true_eq]

theorem hasKeyword_dialogue :
    hasKeyword rules dialogueKeyword (trimFunc isSpace ("Dialogue:".toList ++ rest)) = true ↔
      ∃ c ∈ rest, isSpace c = false := by
  have hkeyword : decide (dialogueKeyword <+:
      ("Dialogue:".toList ++ (rest.reverse.dropWhile isSpace).reverse).map rules.lower) = true := by
    rw [lower_dialogue]
    exact decide_eq_true (List.prefix_append _ _)
  rw [hasKeyword, trim_dialogue, hkeyword, Bool.true_and, decide_eq_true_eq, dropBytes_dialogue,
    trim_ne_nil_iff]
  constructor
  · rintro ⟨c, hc, hspace⟩
    exact ⟨c, List.mem_reverse.mp (List.dropWhile_suffix _ |>.subset (List.mem_reverse.mp hc)),
      hspace⟩
  · rintro ⟨c, hc, hspace⟩
    exact ⟨c, List.mem_reverse.mpr (mem_dropWhile (List.mem_reverse.mpr hc) hspace), hspace⟩

/-! ## The check of the written lines -/

/-- What one check has seen the other has seen, apart from the script information. -/
structure Covers (a b : StructureScan) : Prop where
  inEvents : a.currentSection = eventsSection → b.currentSection = eventsSection
  events : a.hasEvents = true → b.hasEvents = true
  format : a.hasFormat = true → b.hasFormat = true
  dialogue : a.hasDialogue = true → b.hasDialogue = true

/-- A line that both read. -/
theorem Covers.visit (h : Covers a b) {line' : Runes}
    (htrim : trimFunc isSpace line' = trimFunc isSpace line) :
    Covers (a.visit rules line) (b.visit rules line') := by
  obtain ⟨hinEvents, hevents, hformat, hdialogue⟩ := h
  unfold StructureScan.visit
  rw [htrim]
  by_cases hsection : isSection (trimFunc isSpace line) = true
  · rw [if_pos hsection, if_pos hsection]
    constructor <;> simp only [Bool.or_eq_true] <;> tauto
  rw [if_neg hsection, if_neg hsection]
  by_cases ha : a.currentSection = eventsSection
  · rw [if_neg (not_not.mpr ha), if_neg (not_not.mpr (hinEvents ha))]
    constructor <;> simp only [Bool.or_eq_true] <;> tauto
  · rw [if_pos ha]
    split_ifs
    · exact ⟨hinEvents, hevents, hformat, hdialogue⟩
    · constructor <;> simp only [Bool.or_eq_true] <;> tauto

/-- A line that the first reads as nothing, outside the events. -/
theorem Covers.visit_right (h : Covers a b) (ha : a.currentSection ≠ eventsSection)
    (line : Runes) : Covers a (b.visit rules line) := by
  obtain ⟨hinEvents, hevents, hformat, hdialogue⟩ := h
  unfold StructureScan.visit
  simp only
  split_ifs
  · constructor <;> simp only [Bool.or_eq_true] <;> tauto
  · exact ⟨hinEvents, hevents, hformat, hdialogue⟩
  · constructor <;> simp only [Bool.or_eq_true] <;> tauto

/-- A converter that shows something where there is something to show. -/
def KeepsVisible (convert : Runes → Runes) : Prop :=
  ∀ s, trimFunc isSpace s ≠ [] → trimFunc isSpace (convert s) ≠ []

/-- The converted fields show something if the fields do. -/
theorem DialogueFields.line_not_blank (hconvert : KeepsVisible convert) {n : Nat} {rest : Runes}
    (hfields : dialogue.fields = splitN ',' (n + 1) rest)
    (htext : dialogue.fields[dialogue.column]? = some dialogue.text)
    (hrest : ∃ c ∈ rest, isSpace c = false) :
    ∃ c ∈ [','].intercalate (dialogue.fields.set dialogue.column
      (visibleText convert dialogue.text)), isSpace c = false := by
  have hjoin := @intercalate_splitN ',' n rest
  rw [← hfields] at hjoin
  match hall : dialogue.fields with
  | [] => simp [hall] at htext
  | [field] =>
    rw [hall] at htext hjoin
    rw [List.intercalate_singleton] at hjoin
    rw [List.getElem?_singleton] at htext
    obtain ⟨hcolumn, hfield⟩ : dialogue.column = 0 ∧ field = dialogue.text := by
      split_ifs at htext with hcolumn
      exact ⟨hcolumn, Option.some.inj htext⟩
    rw [hcolumn, List.set_cons_zero, List.intercalate_singleton, ← hfield, hjoin]
    refine visibleText_not_blank (fun s hs => ?_) hrest
    exact trim_ne_nil_iff.mp (hconvert s (trim_ne_nil_iff.mpr hs))
  | first :: second :: fields =>
    -- there is a comma
    refine ⟨',', ?_, by decide⟩
    obtain ⟨first', second', fields', hset⟩ : ∃ first' second' fields',
        (first :: second :: fields).set dialogue.column (visibleText convert dialogue.text) =
          first' :: second' :: fields' := by
      rcases dialogue.column with _ | _ | column <;> exact ⟨_, _, _, rfl⟩
    rw [hset]
    simp

theorem StructureScan.visit_currentSection (scan : StructureScan) :
    (scan.visit rules line).currentSection =
      if isSection (trimFunc isSpace line) then (trimFunc isSpace line).map rules.lower
      else scan.currentSection := by
  unfold StructureScan.visit
  simp only
  split_ifs <;> rfl

theorem RewriteState.visit_currentSection :
    (state.visit rules line).1.currentSection =
      if isSection (trimFunc isSpace line) then (trimFunc isSpace line).map rules.lower
      else state.currentSection := by
  unfold RewriteState.visit
  simp only
  split_ifs <;> try rfl
  split <;> rfl

/-- A line and what is written for it, read by the check. -/
theorem Covers.visit_written (h : Covers a b) (hconvert : KeepsVisible convert)
    (hcounted : state.Counted) (hstate : a.currentSection = state.currentSection) :
    Covers (a.visit rules line)
      (b.visit rules (dropCarriage (state.written rules convert line))) := by
  unfold RewriteState.written
  split
  · exact h.visit (trim_dropCarriage line)
  · next dialogue hvisit =>
    obtain ⟨-, hsection, hevents, hformat, hkeyword, hcolumn, hfields, htext⟩ :=
      RewriteState.visit_eq_some hvisit
    have ha : a.currentSection = eventsSection := hstate.trans hevents
    have hcount : 0 < state.columnCount := hcounted (by simp [hcolumn])
    have hnoFormat : hasKeyword rules formatKeyword (trimFunc isSpace line) = false := by
      rw [hasKeyword, decide_eq_false hformat, Bool.false_and]
    have hdialogue : hasKeyword rules dialogueKeyword (trimFunc isSpace line) = true →
        hasKeyword rules dialogueKeyword (trimFunc isSpace
          (dialogue.line (visibleText convert dialogue.text))) = true := by
      intro hshown
      have hrest := trim_ne_nil_iff.mp (hasKeyword_iff.mp hshown).2
      obtain ⟨n, hn⟩ := Nat.exists_eq_add_of_lt hcount
      rw [hn] at hfields
      exact (hasKeyword_dialogue _).mpr
        (DialogueFields.line_not_blank hconvert hfields htext hrest)
    have hwritten : isSection (trimFunc isSpace
        (dialogue.line (visibleText convert dialogue.text))) = false := isSection_trim_dialogue _
    obtain ⟨hinEvents, hseen, hformatSeen, hdialogueSeen⟩ := h
    simp only [StructureScan.visit, trim_dropCarriage, hsection, hwritten, ha, hinEvents ha,
      hnoFormat, Bool.or_false]
    refine ⟨fun _ => rfl, hseen, fun hold => ?_, fun hold => ?_⟩
    · exact Bool.or_eq_true_iff.mpr (.inl (hformatSeen hold))
    · rcases Bool.or_eq_true_iff.mp hold with hbefore | hshown
      · exact Bool.or_eq_true_iff.mpr (.inl (hdialogueSeen hbefore))
      · exact Bool.or_eq_true_iff.mpr (.inr (hdialogue hshown))

/-- **The check of the written lines sees what the check of the lines has seen.** -/
theorem Covers.foldl_written (hconvert : KeepsVisible convert) (lines : List Runes)
    (h : Covers a b) (hcounted : state.Counted) (hstate : a.currentSection = state.currentSection) :
    Covers (lines.foldl (StructureScan.visit rules) a)
      (((writtenLines rules convert state lines).map dropCarriage).foldl
        (StructureScan.visit rules) b) := by
  induction lines generalizing a b state with
  | nil => exact h
  | cons line lines ih =>
    refine ih (h.visit_written hconvert hcounted hstate) hcounted.visit ?_
    rw [StructureScan.visit_currentSection, RewriteState.visit_currentSection, hstate]

/-! ## The script information -/

/-- The line that the check takes for the script information. -/
def isScriptInfoLine (rules : CaseRules) (line : Runes) : Bool :=
  isSection (trimFunc isSpace line) && (trimFunc isSpace line).map rules.lower = scriptInfo

theorem foldl_hasScriptInfo (lines : List Runes) (scan : StructureScan) :
    (lines.foldl (StructureScan.visit rules) scan).hasScriptInfo =
      (scan.hasScriptInfo || lines.any (isScriptInfoLine rules)) := by
  induction lines generalizing scan with
  | nil => simp
  | cons line lines ih =>
    have hvisit : (scan.visit rules line).hasScriptInfo =
        (scan.hasScriptInfo || isScriptInfoLine rules line) := by
      unfold StructureScan.visit isScriptInfoLine
      simp only
      split_ifs with hsection <;> simp [hsection]
    rw [List.foldl_cons, ih, hvisit, List.any_cons, Bool.or_assoc]

theorem isScriptInfoLine_written (convert : Runes → Runes) :
    isScriptInfoLine rules (dropCarriage (state.written rules convert line)) =
      isScriptInfoLine rules line := by
  unfold RewriteState.written
  split
  · rw [isScriptInfoLine, trim_dropCarriage]
    rfl
  · next dialogue hvisit =>
    have hsection := (RewriteState.visit_eq_some hvisit).2.1
    have hwritten : isSection (trimFunc isSpace
        (dialogue.line (visibleText convert dialogue.text))) = false := isSection_trim_dialogue _
    rw [isScriptInfoLine, isScriptInfoLine, trim_dropCarriage, hwritten, hsection,
      Bool.false_and, Bool.false_and]

theorem any_isScriptInfoLine_written (convert : Runes → Runes) (lines : List Runes) :
    ((writtenLines rules convert state lines).map dropCarriage).any (isScriptInfoLine rules) =
      lines.any (isScriptInfoLine rules) := by
  induction lines generalizing state with
  | nil => rfl
  | cons line lines ih =>
    rw [writtenLines, List.map_cons, List.any_cons, List.any_cons, isScriptInfoLine_written, ih]

end Lines

/-! ## Reading the written text -/

theorem assLines_snd :
    (assLines text).2 = false ↔
      ∀ line ∈ rawLines text, utf8Length line < maxASSScanTokenBytes := by
  simp [assLines, scanLines]

theorem assLines_fst (h : (assLines text).2 = false) :
    (assLines text).1 = (rawLines text).map dropCarriage := by
  rw [assLines, scanLines, List.takeWhile_eq_self_iff.mpr]
  intro line hline
  exact decide_eq_true (assLines_snd.mp h line hline)

@[simp] theorem trimMark_mark (text : Runes) : trimMark (byteOrderMark :: text) = text :=
  if_pos rfl

theorem trimMark_eq_self (h : text.head? ≠ some byteOrderMark) : trimMark text = text :=
  if_neg h

theorem trimMark_cons {c : Char} (h : c ≠ byteOrderMark) (text : Runes) :
    trimMark (c :: text) = c :: text :=
  trimMark_eq_self fun heq => h (Option.some.inj heq)

/-- The mark at the start of a text is at the start of its first line. -/
theorem trimMark_unlines (lines : List Runes) :
    trimMark (unlines lines) = unlines (lines.modifyHead trimMark) := by
  cases lines with
  | nil => rfl
  | cons line lines =>
    rw [unlines_cons, List.modifyHead_cons, unlines_cons]
    cases line with
    | nil => exact trimMark_cons (by decide) _
    | cons c line =>
      by_cases hmark : c = byteOrderMark
      · rw [hmark, List.cons_append, trimMark_mark, trimMark_mark]
      · rw [List.cons_append, trimMark_cons hmark, trimMark_cons hmark, List.cons_append]

theorem trimMark_suffix (text : Runes) : trimMark text <:+ text := by
  unfold trimMark
  split_ifs
  · exact List.tail_suffix text
  · exact List.suffix_refl text

theorem newline_not_mem_modifyHead (h : ∀ line ∈ lines, '\n' ∉ line) :
    ∀ line ∈ lines.modifyHead trimMark, '\n' ∉ line := by
  cases lines with
  | nil => simp
  | cons first lines =>
    rintro line (_ | ⟨_, hline⟩)
    · exact fun hmem => h first List.mem_cons_self ((trimMark_suffix first).subset hmem)
    · exact h line (List.mem_cons_of_mem _ hline)

theorem rawLines_cons {c : Char} (hc : c ≠ '\n') (h : text ≠ []) :
    rawLines (c :: text) = (rawLines text).modifyHead (c :: ·) := by
  have hjoin : ['\n'].intercalate (text.splitOn '\n') = text := List.intercalate_splitOn '\n'
  have hsplit : (c :: text).splitOn '\n' = (text.splitOn '\n').modifyHead (c :: ·) := by
    rw [List.splitOn_cons_eq_if_modifyHead, if_neg (by simpa using hc)]
  rw [rawLines, rawLines, hsplit]
  rcases hpieces : text.splitOn '\n' with _ | ⟨piece, _ | ⟨next, pieces⟩⟩
  · exact absurd hpieces (List.splitOn_ne_nil _ _)
  · -- the whole text is one line, which is not empty
    rw [hpieces, List.intercalate_singleton] at hjoin
    simp [hjoin, h]
  · simp only [List.modifyHead_cons, List.getLast?_cons_cons]
    split_ifs <;> simp

/-- A text begins with its first line. -/
theorem rawLines_head_isPrefix {text line : Runes} (h : rawLines text = line :: lines) :
    line <+: text := by
  have hjoin : ['\n'].intercalate (text.splitOn '\n') = text := List.intercalate_splitOn '\n'
  have hhead : (text.splitOn '\n').head? = some line := by
    unfold rawLines at h
    simp only at h
    split_ifs at h
    · cases hpieces : text.splitOn '\n' with
      | nil => simp [hpieces] at h
      | cons piece pieces =>
        cases pieces with
        | nil => simp [hpieces] at h
        | cons next pieces =>
          rw [hpieces] at h
          rw [List.head?_cons, (List.cons.inj h).1]
    · rw [h, List.head?_cons]
  rw [← hjoin, List.eq_cons_of_mem_head? hhead]
  cases (text.splitOn '\n').tail with
  | nil => simp
  | cons next pieces =>
    exact List.prefix_append _ _

theorem head?_of_isPrefix {front : Runes} {c : Char} (h : front <+: text)
    (hc : front.head? = some c) : text.head? = some c := by
  obtain ⟨back, rfl⟩ := h
  rw [List.head?_append, hc]
  rfl

/-- The lines without the mark. -/
theorem rawLines_trimMark (h : text ≠ [byteOrderMark]) :
    rawLines (trimMark text) = (rawLines text).modifyHead trimMark := by
  by_cases hmark : text.head? = some byteOrderMark
  · obtain ⟨rest, rfl⟩ := List.head?_eq_some_iff.mp hmark
    have hrest : rest ≠ [] := by
      rintro rfl
      exact h rfl
    rw [trimMark_mark, rawLines_cons (by decide) hrest]
    cases rawLines rest with
    | nil => rfl
    | cons line lines => simp
  · rw [trimMark_eq_self hmark]
    cases hlines : rawLines text with
    | nil => rfl
    | cons line lines =>
      rw [List.modifyHead_cons, trimMark_eq_self fun hhead =>
        hmark (head?_of_isPrefix (rawLines_head_isPrefix hlines) hhead)]

/-! ## The normalisation -/

section Normalize

variable {rules : CaseRules} {convert : Runes → Runes} {content : Runes}

theorem validateASSStructure_ok {required : Bool} :
    validateASSStructure rules content required = .ok () ↔
      (assLines (trimMark content)).2 = false ∧
      (required = true → (scanStructure rules content).hasScriptInfo = true) ∧
      (scanStructure rules content).hasEvents = true ∧
      (scanStructure rules content).hasFormat = true ∧
      (scanStructure rules content).hasDialogue = true := by
  unfold validateASSStructure
  simp only
  split_ifs with hlong hmissing
  · simp [hlong]
  · simp only [false_iff]
    rintro ⟨-, hinfo, hevents, hformat, hdialogue⟩
    cases required <;> simp_all
  · cases required <;> simp_all

/-- What is written for the subtitle. -/
def normalizedLines (rules : CaseRules) (convert : Runes → Runes) (content : Runes) :
    List Runes :=
  writtenLines rules convert {} (assLines (trimMark content)).1

def outputLines (rules : CaseRules) (convert : Runes → Runes) (content : Runes) :
    List Runes :=
  addedHeader rules (trimMark content) ++ normalizedLines rules convert content

/-- **The whole rewriting**: a candidate is written, and what is written is checked. -/
theorem normalizeASSToSimplified_ok {output : Runes} :
    normalizeASSToSimplified rules (.ok fun s => .ok (convert s)) content = .ok output ↔
      validateASSCandidate rules content = .ok () ∧
      output = unlines (outputLines rules convert content) ∧ validateASS rules output = .ok () := by
  unfold normalizeASSToSimplified
  cases hcandidate : validateASSCandidate rules content with
  | error e => simp [bind, Except.bind, Except.mapError]
  | ok =>
    have hfits := (validateASSStructure_ok.mp hcandidate).1
    simp only [Except.mapError, bind, Except.bind, rewriteLines_total, hfits, Bool.false_eq_true,
      if_false]
    rw [true_and, outputLines, normalizedLines]
    constructor
    · intro h
      split at h
      · cases h
      · next hcheck =>
        split at hcheck
        · cases hcheck
        · next hvalid =>
          cases h
          exact ⟨rfl, hvalid⟩
    · rintro ⟨rfl, hvalid⟩
      rw [hvalid]
      rfl

theorem newline_not_mem_writtenLines (hconvert : ∀ s, '\n' ∉ s → '\n' ∉ convert s)
    {state : RewriteState} (hcounted : state.Counted) (hlines : ∀ line ∈ lines, '\n' ∉ line) :
    ∀ line ∈ writtenLines rules convert state lines, '\n' ∉ line := by
  induction lines generalizing state with
  | nil => exact nofun
  | cons line lines ih =>
    rintro written (_ | ⟨_, hwritten⟩)
    · exact RewriteState.newline_not_mem_written hconvert hcounted (hlines line List.mem_cons_self)
    · exact ih hcounted.visit (fun l hl => hlines l (List.mem_cons_of_mem _ hl)) written hwritten

variable (line : Runes)

theorem dropCarriage_isPrefix : dropCarriage line <+: line := by
  unfold dropCarriage
  split_ifs
  · exact List.dropLast_prefix line
  · exact List.prefix_rfl

theorem newline_not_mem_assLines {text line : Runes} (h : line ∈ (assLines text).1) :
    '\n' ∉ line := by
  obtain ⟨raw, hraw, rfl⟩ := List.mem_map.mp h
  exact fun hmem => newline_not_mem_rawLines ((List.takeWhile_sublist _).subset hraw)
    ((dropCarriage_isPrefix raw).subset hmem)

theorem utf8Length_le {text whole : Runes} (h : text <:+: whole) :
    utf8Length text ≤ utf8Length whole := by
  obtain ⟨front, back, rfl⟩ := h
  simp only [utf8Length, List.map_append, List.sum_append]
  omega

theorem newline_not_mem_output (hconvert : ∀ s, '\n' ∉ s → '\n' ∉ convert s) :
    ∀ line ∈ outputLines rules convert content, '\n' ∉ line := by
  intro line hline
  rcases List.mem_append.mp hline with hheader | hwritten
  · unfold addedHeader at hheader
    split_ifs at hheader
    · cases hheader
    · exact (by decide : ∀ l ∈ scriptInfoHeader, '\n' ∉ l) line hheader
  · exact newline_not_mem_writtenLines hconvert (fun h => absurd rfl h)
      (fun l hl => newline_not_mem_assLines hl) line hwritten

/-- The lines of the output as the next reader finds them. -/
theorem rawLines_output (hconvert : ∀ s, '\n' ∉ s → '\n' ∉ convert s) :
    rawLines (trimMark (unlines (outputLines rules convert content))) =
      (outputLines rules convert content).modifyHead trimMark := by
  rw [trimMark_unlines,
    rawLines_unlines (newline_not_mem_modifyHead (newline_not_mem_output hconvert))]

/-- The first line is outside all sections and left as it is. -/
theorem writtenLines_cons (lines : List Runes) :
    writtenLines rules convert {} (line :: lines) =
      line :: writtenLines rules convert (RewriteState.visit rules {} line).1 lines := by
  rw [writtenLines]
  have hvisit : (RewriteState.visit rules {} line).2 = none := by
    unfold RewriteState.visit
    simp only
    split_ifs <;> rfl
  rw [RewriteState.written, hvisit]

theorem isSection_mark : isSection (trimFunc isSpace (byteOrderMark :: line)) = false := by
  have htrim := @trimFunc_append_right isSpace [byteOrderMark] (by rintro _ ⟨⟩; rfl)
    (by rintro _ ⟨⟩; rfl) (by decide) line
  rw [List.singleton_append] at htrim
  rw [htrim]
  rfl

theorem lower_header (rules : CaseRules) : "[Script Info]".toList.map rules.lower = scriptInfo :=
  (lower_of_ascii rules rfl).trans (by decide)

theorem StructureScan.visit_of_not_events {scan : StructureScan} {line : Runes}
    (hsection : isSection (trimFunc isSpace line) = false)
    (hevents : scan.currentSection ≠ eventsSection) : scan.visit rules line = scan := by
  unfold StructureScan.visit
  rw [if_neg (by simp [hsection]), if_pos hevents]

/-- The check of the header. -/
theorem foldl_header : scriptInfoHeader.foldl (StructureScan.visit rules) {} =
    { currentSection := scriptInfo, hasScriptInfo := true } := by
  have htitle : StructureScan.visit rules {} "[Script Info]".toList =
      { currentSection := scriptInfo, hasScriptInfo := true } := by
    unfold StructureScan.visit
    rw [if_pos (by decide), show trimFunc isSpace "[Script Info]".toList = "[Script Info]".toList
      by decide, lower_header]
    decide
  rw [scriptInfoHeader, List.foldl_cons, htitle, List.foldl_cons,
    StructureScan.visit_of_not_events (by decide) (by decide), List.foldl_cons,
    StructureScan.visit_of_not_events (by decide) (by decide), List.foldl_nil]

/-- The output begins with the header, or with the first line. -/
theorem modifyHead_output (written : List Runes) :
    (scriptInfoHeader ++ written).modifyHead trimMark = scriptInfoHeader ++ written := by
  rw [scriptInfoHeader, List.cons_append, List.modifyHead_cons,
    show trimMark "[Script Info]".toList = "[Script Info]".toList by decide]

/-- **The check of the output sees what the check of the candidate has seen.** -/
theorem covers_output (hvisible : KeepsVisible convert) :
    Covers ((assLines (trimMark content)).1.foldl (StructureScan.visit rules) {})
      ((((outputLines rules convert content).modifyHead trimMark).map dropCarriage).foldl
        (StructureScan.visit rules) {}) := by
  have hcounted : RewriteState.Counted {} := fun h => absurd rfl h
  unfold outputLines addedHeader
  split_ifs with hheader
  · rw [List.nil_append, normalizedLines]
    cases (assLines (trimMark content)).1 with
    | nil => exact ⟨id, id, id, id⟩
    | cons line lines =>
      rw [writtenLines_cons, List.modifyHead_cons, List.map_cons, List.foldl_cons, List.foldl_cons]
      refine Covers.foldl_written hvisible lines ?_ hcounted.visit ?_
      · by_cases hmark : line.head? = some byteOrderMark
        · -- the candidate's first line begins with a second mark, which the next reader drops
          obtain ⟨rest, rfl⟩ := List.head?_eq_some_iff.mp hmark
          rw [StructureScan.visit_of_not_events (isSection_mark rest) (by decide)]
          exact Covers.visit_right ⟨id, id, id, id⟩ (by decide) _
        · rw [trimMark_eq_self hmark]
          exact Covers.visit ⟨id, id, id, id⟩ (trim_dropCarriage line)
      · rw [StructureScan.visit_currentSection, RewriteState.visit_currentSection]
  · rw [modifyHead_output, List.map_append, List.foldl_append,
      show scriptInfoHeader.map dropCarriage = scriptInfoHeader by decide, foldl_header]
    exact Covers.foldl_written hvisible _ ⟨fun h => absurd h (by decide), nofun, nofun, nofun⟩
      hcounted rfl

/-- The output fits the reader if the written lines do. -/
theorem output_fits (hfits : (assLines (trimMark content)).2 = false) :
    (∀ line ∈ (outputLines rules convert content).modifyHead trimMark,
      utf8Length line < maxASSScanTokenBytes) ↔
    ∀ line ∈ normalizedLines rules convert content, utf8Length line < maxASSScanTokenBytes := by
  unfold outputLines addedHeader
  split_ifs with hheader
  · rw [List.nil_append, normalizedLines]
    have hline : ∀ line ∈ (assLines (trimMark content)).1,
        utf8Length line < maxASSScanTokenBytes := by
      intro line hline
      rw [assLines_fst hfits] at hline
      obtain ⟨raw, hraw, rfl⟩ := List.mem_map.mp hline
      exact lt_of_le_of_lt (utf8Length_le (dropCarriage_isPrefix raw).isInfix)
        (assLines_snd.mp hfits raw hraw)
    cases hlines : (assLines (trimMark content)).1 with
    | nil => exact Iff.rfl
    | cons line lines =>
      rw [hlines] at hline
      have hfirst := hline line List.mem_cons_self
      have htrimmed := lt_of_le_of_lt (utf8Length_le (trimMark_suffix line).isInfix) hfirst
      rw [writtenLines_cons, List.modifyHead_cons, List.forall_mem_cons, List.forall_mem_cons]
      simp [hfirst, htrimmed]
  · rw [modifyHead_output, List.forall_mem_append]
    exact and_iff_right (by decide)

theorem dropCarriage_mark :
    dropCarriage (byteOrderMark :: line) = byteOrderMark :: dropCarriage line := by
  unfold dropCarriage
  cases line with
  | nil => decide
  | cons c line =>
    rw [List.getLast?_cons_cons]
    split_ifs <;> rfl

/-- The mark and the carriage return are at different ends. -/
theorem trim_trimMark_dropCarriage :
    trimFunc isSpace (trimMark (dropCarriage line)) = trimFunc isSpace (trimMark line) := by
  by_cases hmark : line.head? = some byteOrderMark
  · rw [List.eq_cons_of_mem_head? hmark, dropCarriage_mark, trimMark_mark, trimMark_mark,
      trim_dropCarriage]
  · have hkept : (dropCarriage line).head? ≠ some byteOrderMark := fun hhead =>
      hmark (head?_of_isPrefix (dropCarriage_isPrefix line) hhead)
    rw [trimMark_eq_self hkept, trimMark_eq_self hmark, trim_dropCarriage]

theorem output_hasScriptInfo (hfits : (assLines (trimMark content)).2 = false)
    (hne : trimMark content ≠ [byteOrderMark]) :
    ((((outputLines rules convert content).modifyHead trimMark).map dropCarriage).foldl
      (StructureScan.visit rules) {}).hasScriptInfo = true ↔
    (assHasSection rules (trimMark content) scriptInfo = true →
      (assLines (trimMark (trimMark content))).1.any (isScriptInfoLine rules) = true) := by
  rw [foldl_hasScriptInfo]
  unfold outputLines addedHeader
  split_ifs with hheader
  · have hlines : (assLines (trimMark (trimMark content))).1 =
        ((rawLines (trimMark content)).modifyHead trimMark).map dropCarriage := by
      rw [assLines_fst, rawLines_trimMark hne]
      rw [assLines_snd, rawLines_trimMark hne]
      cases hraw : rawLines (trimMark content) with
      | nil => exact nofun
      | cons line lines =>
        rw [assLines_snd, hraw, List.forall_mem_cons] at hfits
        rw [List.modifyHead_cons, List.forall_mem_cons]
        exact ⟨lt_of_le_of_lt (utf8Length_le (trimMark_suffix line).isInfix) hfits.1, hfits.2⟩
    rw [List.nil_append, normalizedLines, assLines_fst hfits, hlines]
    cases rawLines (trimMark content) with
    | nil => simp [writtenLines, hheader]
    | cons line lines =>
      -- a mark and a carriage return stand at different ends of the line
      have hfirst : isScriptInfoLine rules (dropCarriage (trimMark (dropCarriage line))) =
          isScriptInfoLine rules (dropCarriage (trimMark line)) := by
        rw [isScriptInfoLine, isScriptInfoLine, trim_dropCarriage, trim_trimMark_dropCarriage,
          trim_dropCarriage]
      rw [List.map_cons, writtenLines_cons, List.modifyHead_cons, List.map_cons, List.any_cons,
        any_isScriptInfoLine_written, List.modifyHead_cons, List.map_cons, hfirst]
      simp [hheader]
  · rw [modifyHead_output, List.map_append]
    -- the header that was added is itself found
    have hinfo : (scriptInfoHeader.map dropCarriage).any (isScriptInfoLine rules) = true := by
      refine List.any_eq_true.mpr ⟨"[Script Info]".toList, by decide, ?_⟩
      rw [isScriptInfoLine,
        show trimFunc isSpace "[Script Info]".toList = "[Script Info]".toList by decide,
        lower_header]
      decide
    simp [hinfo, hheader]

/-- **When the normalisation of a candidate succeeds**: exactly where the two readings of the
script information agree, and no converted line outgrows the reader. -/
theorem normalize_accepted_iff (rules : CaseRules) (convert : List Char → List Char)
    (hvisible : KeepsVisible convert) (hlines : ∀ s, '\n' ∉ s → '\n' ∉ convert s)
    (content : List Char) (hcandidate : validateASSCandidate rules content = .ok ()) :
    (∃ output, normalizeASSToSimplified rules (.ok fun s => .ok (convert s)) content = .ok output ∧
      validateASS rules output = .ok ()) ↔
    (assHasSection rules (trimMark content) scriptInfo = true →
      (assLines (trimMark (trimMark content))).1.any (isScriptInfoLine rules) = true) ∧
    ∀ line ∈ normalizedLines rules convert content, utf8Length line < maxASSScanTokenBytes := by
  obtain ⟨hfits, -, hevents, hformat, hdialogue⟩ := validateASSStructure_ok.mp hcandidate
  have hne : trimMark content ≠ [byteOrderMark] := by
    intro heq
    have hlines : (assLines [byteOrderMark]).1 = [[byteOrderMark]] := by decide
    rw [scanStructure, heq, hlines, List.foldl_cons] at hevents
    cases hevents
  rw [← output_hasScriptInfo hfits hne, ← @output_fits rules convert content hfits,
    ← rawLines_output hlines, ← assLines_snd]
  constructor
  · rintro ⟨output, hnormalize, hvalid⟩
    obtain ⟨-, rfl, -⟩ := normalizeASSToSimplified_ok.mp hnormalize
    obtain ⟨hread, hinfo, -⟩ := validateASSStructure_ok.mp hvalid
    rw [scanStructure, assLines_fst hread] at hinfo
    exact ⟨hinfo rfl, hread⟩
  · rintro ⟨hinfo, hread⟩
    have hcovers := @covers_output rules convert content hvisible
    rw [← rawLines_output hlines, ← assLines_fst hread] at hcovers
    rw [← assLines_fst hread] at hinfo
    have hvalid : validateASS rules (unlines (outputLines rules convert content)) = .ok () :=
      validateASSStructure_ok.mpr ⟨hread, fun _ => hinfo, hcovers.events hevents,
        hcovers.format hformat, hcovers.dialogue hdialogue⟩
    exact ⟨_, normalizeASSToSimplified_ok.mpr ⟨hcandidate, rfl, hvalid⟩, hvalid⟩

/-- ASCII with the long s, which folds to an s and is a small letter of its own. -/
def longSRules : CaseRules where
  lower := Char.toLower
  fold c := if c = 'ſ' then 's' else c.toLower
  lower_ascii _ _ := rfl
  fold_ascii c hc := by
    have hall : ∀ n : Fin 128, (if Char.ofNat n = 'ſ' then 's' else (Char.ofNat n).toLower) =
        if (Char.ofNat n).toLower = 'ſ' then 's' else (Char.ofNat n).toLower.toLower := by
      decide +kernel
    have hc := hall ⟨c.toNat, hc⟩
    rwa [Char.ofNat_toNat] at hc
  fold_bracket c hc := by
    rw [if_neg (show '[' ≠ 'ſ' by decide), show '['.toLower = '[' by decide] at hc
    split_ifs at hc
    · exact absurd hc (by decide)
    · unfold Char.toLower at hc
      split at hc
      · next hupper =>
        have hval : c.val + 32 = 91 := congrArg Char.val hc
        have hlow : 65 ≤ c.val := hupper.1
        have hhigh : c.val ≤ 90 := hupper.2
        grind
      · exact hc

/-- A subtitle without script information is normalised. -/
theorem normalize_accepted_plain :
    ∃ output, normalizeASSToSimplified longSRules (.ok fun s => .ok (id s))
      "[Events]\nFormat: Text\nDialogue: x\n".toList = .ok output ∧
      validateASS longSRules output = .ok () :=
  (normalize_accepted_iff longSRules id (fun _ h => h) (fun _ h => h) _ (by decide +kernel)).mpr
    ⟨by decide +kernel, by decide +kernel⟩

/-- A section in a spelling that folds to the script information, but is not its lower case. -/
theorem long_s_header_refused :
    validateASSCandidate longSRules
      "[ſcript Info]\n[Events]\nFormat: Text\nDialogue: x\n".toList = .ok () ∧
    normalizeASSToSimplified longSRules (.ok fun s => .ok s)
      "[ſcript Info]\n[Events]\nFormat: Text\nDialogue: x\n".toList =
      .error (.subtitle ⟨"subtitle_invalid_ass",
        "ASS subtitle requires Script Info, Events, Format, and Dialogue"⟩) := by
  decide +kernel

end Normalize

end EmbyAuto
