import EmbyAuto.Domain.Lines

/-!
# Normalising ASS subtitles to simplified Chinese

A subtitle is checked as a candidate, rewritten line by line, and checked again. The three passes
read sections, `Format` lines and `Dialogue` lines on their own. The rewriting converts the `Text`
field of the dialogue lines, outside their override blocks, and leaves every other line. Case
folding and the converter are parameters.

## Main definitions

* `CaseRules`: what `strings.ToLower` and `strings.EqualFold` do to a character
* `validateASSStructure`: the check of a subtitle
* `RewriteState.visit`: how the rewriting reads a line
* `convertASSVisibleText`: the conversion of a text around its override blocks
* `normalizeASSToSimplified`: the whole rewriting
-/

namespace EmbyAuto

/-! ## Case -/

/-- Lower case and case folding of characters; on ASCII they are the usual ones, and a bracket
folds with no other character. -/
structure CaseRules where
  lower : Char → Char
  fold : Char → Char
  lower_ascii : ∀ c, c.toNat < 128 → lower c = c.toLower
  fold_ascii : ∀ c, c.toNat < 128 → fold c = fold c.toLower
  fold_bracket : ∀ c, fold c = fold '[' → c = '['

def byteOrderMark : Char := '\ufeff'

/-- Removes one byte order mark at the start. -/
def trimMark (content : Runes) : Runes :=
  if content.head? = some byteOrderMark then content.tail else content

/-- Drops whole characters until the given number of bytes has been passed. -/
def dropBytes : Nat → Runes → Runes
  | 0, text => text
  | _ + 1, [] => []
  | n + 1, c :: text => dropBytes (n + 1 - c.utf8Size) text

/-- `strings.SplitN` at a character. -/
def splitN (separator : Char) : Nat → Runes → List Runes
  | 0, _ => []
  | 1, text => [text]
  | n + 2, text =>
    if separator ∈ text then
      text.takeWhile (· ≠ separator) ::
        splitN separator (n + 1) (text.dropWhile (· ≠ separator)).tail
    else [text]

/-! ## Checking the structure -/

structure SubtitleError where
  code : String
  message : String
  deriving DecidableEq

def maxASSScanTokenBytes : Nat := 64 * 2 ^ 20

def assLines (content : Runes) : List Runes × Bool :=
  scanLines maxASSScanTokenBytes content

/-- A section line, after trimming. -/
def isSection (line : Runes) : Bool := line.head? = some '[' && line.getLast? = some ']'

def scriptInfo : Runes := "[script info]".toList

def eventsSection : Runes := "[events]".toList

def formatKeyword : Runes := "format:".toList

def dialogueKeyword : Runes := "dialogue:".toList

/-- What the check has seen. -/
structure StructureScan where
  currentSection : Runes := []
  hasScriptInfo : Bool := false
  hasEvents : Bool := false
  hasFormat : Bool := false
  hasDialogue : Bool := false
  deriving DecidableEq

section Validation

variable (rules : CaseRules)

/-- The line begins with the keyword in any case, and something follows. -/
def hasKeyword (keyword line : Runes) : Bool :=
  decide (keyword <+: line.map rules.lower) &&
    trimFunc isSpace (dropBytes keyword.length line) ≠ []

def StructureScan.visit (scan : StructureScan) (rawLine : Runes) : StructureScan :=
  let line := trimFunc isSpace rawLine
  if isSection line then
    let lower := line.map rules.lower
    { scan with
      currentSection := lower
      hasScriptInfo := scan.hasScriptInfo || lower = scriptInfo
      hasEvents := scan.hasEvents || lower = eventsSection }
  else if scan.currentSection ≠ eventsSection then scan
  else
    { scan with
      hasFormat := scan.hasFormat || hasKeyword rules formatKeyword line
      hasDialogue := scan.hasDialogue || hasKeyword rules dialogueKeyword line }

def scanStructure (content : Runes) : StructureScan :=
  (assLines (trimMark content)).1.foldl (StructureScan.visit rules) {}

def validateASSStructure (content : Runes) (requireScriptInfo : Bool) :
    Except SubtitleError Unit :=
  let scan := scanStructure rules content
  if (assLines (trimMark content)).2 then
    .error ⟨"subtitle_invalid_ass", "read ASS subtitle: bufio.Scanner: token too long"⟩
  else if requireScriptInfo && !scan.hasScriptInfo || !scan.hasEvents || !scan.hasFormat ||
      !scan.hasDialogue then
    .error ⟨"subtitle_invalid_ass",
      if requireScriptInfo then
        "ASS subtitle requires Script Info, Events, Format, and Dialogue"
      else "ASS subtitle requires Events, Format, and Dialogue"⟩
  else .ok ()

def validateASS (content : Runes) : Except SubtitleError Unit :=
  validateASSStructure rules content true

def validateASSCandidate (content : Runes) : Except SubtitleError Unit :=
  validateASSStructure rules content false

def assHasSection (content target : Runes) : Bool :=
  (assLines (trimMark content)).1.any fun line =>
    equalFold rules.fold (trimFunc isSpace line) target

end Validation

/-! ## Converting a text -/

/-- The matches of `\{[^}]*\}` with the text before each, and the text after the last. A brace
opens a block if one that closes it follows. -/
def splitOverridesFrom (plain block : Runes) (inBlock : Bool) :
    Runes → List (Runes × Runes) × Runes
  | [] => ([], plain ++ block)
  | c :: rest =>
    if inBlock then
      if c = '}' then
        let after := splitOverridesFrom [] [] false rest
        ((plain, block ++ [c]) :: after.1, after.2)
      else splitOverridesFrom plain (block ++ [c]) true rest
    else if c = '{' ∧ '}' ∈ rest then splitOverridesFrom plain [c] true rest
    else splitOverridesFrom (plain ++ [c]) [] false rest

def splitOverrides (text : Runes) : List (Runes × Runes) × Runes :=
  splitOverridesFrom [] [] false text

/-- Converts the text around the override blocks. -/
def convertASSVisibleText (convert : Runes → Except String Runes) (text : Runes) :
    Except String Runes := do
  let converted ← (splitOverrides text).1.mapM fun (plain, block) => do
    return (← convert plain) ++ block
  return converted.flatten ++ (← convert (splitOverrides text).2)

/-! ## Rewriting -/

/-- What the rewriting keeps between lines; the column is the index of the `Text` field. -/
structure RewriteState where
  currentSection : Runes := []
  textColumn : Option Nat := none
  columnCount : Nat := 0
  deriving DecidableEq

/-- The fields of a dialogue line, with the index of its text. -/
structure DialogueFields where
  fields : List Runes
  column : Nat
  text : Runes

section Rewriting

variable (rules : CaseRules)

/-- Reads a line: the state after it, and the fields if it is a dialogue line with a text. -/
def RewriteState.visit (state : RewriteState) (line : Runes) :
    RewriteState × Option DialogueFields :=
  let trimmed := trimFunc isSpace line
  let lower := trimmed.map rules.lower
  if isSection trimmed then ({ state with currentSection := lower }, none)
  else if state.currentSection ≠ eventsSection then (state, none)
  else if formatKeyword <+: lower then
    let columns := (dropBytes formatKeyword.length trimmed).splitOn ','
    ({ state with
        textColumn := columns.findIdx? fun column =>
          equalFold rules.fold (trimFunc isSpace column) "text".toList
        columnCount := columns.length }, none)
  else if dialogueKeyword <+: lower then
    match state.textColumn with
    | none => (state, none)
    | some column =>
      let fields := splitN ',' state.columnCount (dropBytes dialogueKeyword.length trimmed)
      (state, fields[column]?.map fun text => { fields, column, text })
  else (state, none)

/-- The dialogue line with another text. -/
def DialogueFields.line (dialogue : DialogueFields) (converted : Runes) : Runes :=
  "Dialogue:".toList ++ [','].intercalate (dialogue.fields.set dialogue.column converted)

/-- The loop over the lines. -/
def rewriteLines (convert : Runes → Except String Runes) :
    RewriteState → List Runes → Except String (List Runes)
  | _, [] => .ok []
  | state, line :: lines => do
    let written ← match (state.visit rules line).2 with
      | none => pure line
      | some dialogue => dialogue.line <$> convertASSVisibleText convert dialogue.text
    return written :: (← rewriteLines convert (state.visit rules line).1 lines)

/-- The header that is added where there is none. -/
def scriptInfoHeader : List Runes :=
  ["[Script Info]".toList, "ScriptType: v4.00+".toList, []]

inductive NormalizeError where
  | subtitle (error : SubtitleError)
  | openCC (message : String)
  deriving DecidableEq

/-- The header, if it is missing. -/
def addedHeader (content : Runes) : List Runes :=
  if assHasSection rules content scriptInfo then [] else scriptInfoHeader

def normalizeASSToSimplified
    (openCC : Except String (Runes → Except String Runes)) (content : Runes) :
    Except NormalizeError Runes := do
  (validateASSCandidate rules content).mapError .subtitle
  let convert ← openCC.mapError fun e => .openCC ("initialize OpenCC: " ++ e)
  let content := trimMark content
  let written ← (rewriteLines rules convert {} (assLines content).1).mapError fun e =>
    .openCC ("convert ASS dialogue to simplified Chinese: " ++ e)
  if (assLines content).2 then
    throw (.subtitle ⟨"subtitle_invalid_ass",
      "read ASS subtitle for normalization: bufio.Scanner: token too long"⟩)
  let normalized := unlines (addedHeader rules content ++ written)
  (validateASS rules normalized).mapError .subtitle
  return normalized

end Rewriting

end EmbyAuto
