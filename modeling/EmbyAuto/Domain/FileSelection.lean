import EmbyAuto.Domain.Text
import EmbyAuto.Regexp.Backtrack

/-!
# The files of a torrent and their source coordinates

A manifest is the list of files that qBittorrent reports for a torrent. Each file gets a kind
from its path, and a video or a subtitle gets the season and the episode that its name states.
For a single episode the coordinate of the acquisition replaces the one of the name.

## Main definitions

* `parseSourceCoordinate`, `recoverLegacyFractionalSourceCoordinate`: coordinates in paths
* `classifyDownloadPath`, `detectSubtitleLanguage`: what a path says about a file
* `classifyDownloadFiles`: the classification of a manifest
-/

namespace EmbyAuto

/-- The kinds of files and of artifacts. -/
inductive MediaKind where
  | unknown | video | subtitle | extra | other
  deriving DecidableEq

def MediaKind.text : MediaKind → String
  | unknown => "unknown"
  | video => "video"
  | subtitle => "subtitle"
  | extra => "extra"
  | other => "other"

structure EpisodeCoordinate where
  season : Int := 0
  episode : Int := 0
  episodeFractionHundredths : Int := 0
  deriving DecidableEq

/-! ## Patterns -/

section Patterns

open Regexp

/-- The folding of `(?i)`: the long s and the Kelvin sign fold to ASCII letters. -/
def foldCase (c : Char) : Char :=
  if c = 'ſ' then 's' else if c = 'K' then 'k' else c.toLower

/-- `[^[:alnum:]]` under `(?i)`. -/
def notAlnum : Regexp := chars fun c => !(foldCase c).isAlphanum

/-- `(?:^|[^[:alnum:]])`. -/
def tokenStart : Regexp := alt textStart notAlnum

/-- `(?:$|[^[:alnum:]])`. -/
def tokenEnd : Regexp := alt textEnd notAlnum

def digit : Regexp := chars Char.isDigit

/-- `([0-9]{1,most})`. -/
def number (index most : Nat) : Regexp := group index (rep 1 (some most) digit)

/-- `(?i)(?:v[0-9]+)?`. -/
def release : Regexp := opt (seq (word foldCase "v") (plus digit))

/-- `[ ._-]*`. -/
def separators : Regexp := star (oneOf [' ', '.', '_', '-'])

def point : Regexp := oneOf ['.']

/-- `[[:space:]]*`. -/
def spaces : Regexp := star (oneOf ['\t', '\n', '\x0b', '\x0c', '\r', ' '])

/-- The tokens of files that are no episodes. -/
def extraToken : Regexp :=
  let fixed (text : String) := word foldCase text
  let numbered (text : String) := seq (word foldCase text) (star digit)
  alts [fixed "ncop", fixed "nced", numbered "op", numbered "ed", numbered "pv", numbered "cm",
    numbered "sp", fixed "menu", seq (fixed "scan") (opt (fixed "s")), fixed "sample",
    fixed "trailer", fixed "teaser", fixed "bonus", fixed "creditless", numbered "talk",
    fixed "commentary", fixed "audiocommentary", fixed "谈话", fixed "訪談", fixed "访谈",
    fixed "副音声", fixed "コメンタリー", fixed "オーディオコメンタリー"]

def extraTokenPattern : Regexp := seqs [tokenStart, extraToken, tokenEnd]

def extraSingleTokenPattern : Regexp := seqs [textStart, extraToken, textEnd]

/-- `s01e02` with what follows the episode number. -/
def seasonPattern (rest : List Regexp) : Regexp :=
  seqs ([tokenStart, word foldCase "s", number 1 2, separators, word foldCase "e", number 2 3] ++
    rest ++ [release, tokenEnd])

def seasonDecimalEpisodePattern : Regexp := seasonPattern [point, number 3 2]

def seasonEpisodePattern : Regexp := seasonPattern []

def seasonDirectoryPattern : Regexp :=
  seqs [alt textStart (oneOf ['/']), alt (word foldCase "season") (word foldCase "s"), separators,
    number 1 2, alt (oneOf ['/']) textEnd]

/-- `第01话` with what follows the episode number. -/
def eastAsianPattern (rest : List Regexp) : Regexp :=
  seqs ([opt (seq (oneOf ['第']) spaces), number 1 3] ++ rest ++ [spaces, oneOf ['话', '話', '集']])

def eastAsianDecimalEpisodePattern : Regexp := eastAsianPattern [point, number 2 2]

def eastAsianEpisodePattern : Regexp := eastAsianPattern []

/-- `ep01` with what follows the episode number. -/
def tokenPattern (rest : List Regexp) : Regexp :=
  seqs ([tokenStart, alts [word foldCase "ep", word foldCase "episode", word foldCase "e"],
    separators, number 1 3] ++ rest ++ [release, tokenEnd])

def episodeTokenDecimalPattern : Regexp := tokenPattern [point, number 2 2]

def episodeTokenPattern : Regexp := tokenPattern []

/-- A number between delimiters, with what follows it. -/
def delimitedPattern (rest : List Regexp) : Regexp :=
  let blank := ['\t', '\n', '\x0b', '\x0c', '\r', ' ', '.', '_', '-']
  seqs ([alt textStart (oneOf (['[', ']'] ++ blank)), number 1 3] ++ rest ++
    [release, alt textEnd (oneOf ([']', ')'] ++ blank))])

def delimitedDecimalEpisodePattern : Regexp := delimitedPattern [point, number 2 2]

def delimitedEpisodePattern : Regexp := delimitedPattern []

end Patterns

/-! ## Coordinates in paths -/

/-- The value of a text of decimal digits; zero for any other text. -/
def decimal (text : Runes) : Int :=
  if text.all Char.isDigit then text.foldl (fun n c => 10 * n + (c.toNat - '0'.toNat : Nat)) 0
  else 0

structure ParsedSourceCoordinate where
  coordinate : EpisodeCoordinate
  legacyCollapsedEpisode : Int := 0
  fractional : Bool := false

def episodeFractionHundredths? (raw : Runes) : Option Int :=
  if raw.length = 0 ∨ raw.length > 2 then none
  else
    let fraction := if raw.length = 1 then decimal raw * 10 else decimal raw
    if 0 ≤ fraction ∧ fraction ≤ 99 then some fraction else none

def parseDecimalSourceCoordinate (season : Int) (episodeRaw fractionRaw : Runes) :
    Option ParsedSourceCoordinate :=
  let episode := decimal episodeRaw
  match episodeFractionHundredths? fractionRaw with
  | none => none
  | some fraction =>
    if season ≤ 0 ∨ episode ≤ 0 then none
    else some {
      coordinate := ⟨season, episode, fraction⟩
      legacyCollapsedEpisode := episode * 10 + decimal fractionRaw
      fractional := true }

/-- A coordinate without a fraction, if its numbers are positive. -/
def wholeSourceCoordinate (season episode : Int) : Option ParsedSourceCoordinate :=
  if 0 < season ∧ 0 < episode then some { coordinate := { season, episode } } else none

/-- The stem of the last segment of a path. -/
def pathStem (path : String) : Runes := (fileStem (fileBase path)).toList

/-- The season that a directory of the path names, or the default. -/
def directorySeason (path : String) (defaultSeason : Int) : Int :=
  match seasonDirectoryPattern.find? path.toList with
  | some found => decimal (found.submatch 1)
  | none => defaultSeason

/-- Coordinates with a season in the name come first, then fractions, then whole numbers. -/
def parseSourceCoordinate (filePath : String) (defaultSeason : Int) :
    Option ParsedSourceCoordinate :=
  let normalized := forwardSlashes (trimSpace filePath)
  let stem := pathStem normalized
  let season := directorySeason normalized defaultSeason
  ((seasonDecimalEpisodePattern.find? stem).bind fun found =>
      parseDecimalSourceCoordinate (decimal (found.submatch 1)) (found.submatch 2)
        (found.submatch 3)) |>.or <|
  ((seasonEpisodePattern.find? stem).bind fun found =>
      wholeSourceCoordinate (decimal (found.submatch 1)) (decimal (found.submatch 2))) |>.or <|
  ([eastAsianDecimalEpisodePattern, episodeTokenDecimalPattern,
      delimitedDecimalEpisodePattern].findSome? fun pattern =>
    (pattern.find? stem).bind fun found =>
      parseDecimalSourceCoordinate season (found.submatch 1) (found.submatch 2)) |>.or <|
  [eastAsianEpisodePattern, episodeTokenPattern, delimitedEpisodePattern].findSome? fun pattern =>
    (pattern.find? stem).bind fun found =>
      wholeSourceCoordinate season (decimal (found.submatch 1))

/-- The exported `ParseSourceCoordinate`. -/
def sourceCoordinate? (filePath : String) (defaultSeason : Int) : Option EpisodeCoordinate :=
  (parseSourceCoordinate filePath defaultSeason).map (·.coordinate)

/-- The coordinate with the fraction that an older version had appended to the episode. -/
def recoverLegacyFractionalSourceCoordinate (filePath : String) (persisted : EpisodeCoordinate) :
    Option EpisodeCoordinate :=
  if persisted.season ≤ 0 ∨ persisted.episode ≤ 0 ∨ persisted.episodeFractionHundredths ≠ 0 then
    none
  else match parseSourceCoordinate filePath persisted.season with
    | none => none
    | some parsed =>
      if parsed.fractional = true ∧ parsed.coordinate.season = persisted.season ∧
          parsed.legacyCollapsedEpisode = persisted.episode then
        some parsed.coordinate
      else none

/-! ## Kinds and languages -/

section Labels

variable (unicode : Unicode)

/-- A directory of extras: each of its tokens is a number or the token of an extra, and not
all are numbers. -/
def isIndependentExtraDirectory (segment : Runes) : Bool :=
  let trimmed := trimSpace (.ofList segment)
  let tokens := ((unicode.lower trimmed).toList.splitOnP fun c =>
    !(unicode.isLetter c || unicode.isNumber c)).filter (· ≠ [])
  let extra (token : Runes) : Bool := extraSingleTokenPattern.isMatch token
  trimmed ≠ "" && trimmed ≠ "." && extraTokenPattern.isMatch trimmed.toList &&
    tokens.all (fun token => token.all Char.isDigit || extra token) &&
    tokens.any (fun token => !token.all Char.isDigit && extra token)

def videoExtensions : List String :=
  [".avi", ".m2ts", ".m4v", ".mkv", ".mov", ".mp4", ".ts", ".webm"]

def subtitleExtensions : List String := [".ass", ".srt", ".ssa", ".vtt"]

/-- Some directory of the path holds extras. Only the first one may carry a release label
that happens to contain such a token. -/
def inExtraDirectory (path : String) : Bool :=
  match pathDir path.toList with
  | ['.'] => false
  | dir =>
    match dir.splitOn '/' with
    | [] => false
    | first :: nested =>
      isIndependentExtraDirectory unicode first || nested.any extraTokenPattern.isMatch

def classifyDownloadPath (filePath : String) : MediaKind :=
  let normalized := forwardSlashes filePath
  let extension := unicode.lower (pathExt normalized)
  if extraTokenPattern.isMatch (fileBase normalized).toList then .extra
  else if inExtraDirectory unicode normalized then .extra
  else if extension ∈ videoExtensions then .video
  else if extension ∈ subtitleExtensions then .subtitle
  else .other

/-- The words of a label between spaces. -/
def normalizeSubtitleLabel (label : String) : String :=
  let words := (label.toList.splitOnP fun c =>
    !unicode.isLetter c && !unicode.isNumber c).filter (· ≠ [])
  " " ++ .ofList ([' '].intercalate words) ++ " "

def containsAny (text : String) (candidates : List String) : Bool := candidates.any (contains text)

def containsSubtitleLabelToken (normalized : String) (tokens : List String) : Bool :=
  containsAny normalized (tokens.map fun token => " " ++ token ++ " ")

/-- The languages that a label names. -/
structure SubtitleLabelSignals where
  simplified : Bool
  traditional : Bool
  otherLanguage : Bool

def subtitleLabelSignals (label : String) : SubtitleLabelSignals :=
  let lower := unicode.lower (trimSpace label)
  let normalized := normalizeSubtitleLabel unicode lower
  { simplified :=
      containsAny lower ["简体", "簡體", "简中", "簡中", "简繁", "簡繁", "繁简", "繁簡", "简日",
        "簡日", "日简", "日簡", "简英", "簡英", "英简", "英簡"] ||
      containsSubtitleLabelToken normalized ["zh hans", "zh cn", "zh sg", "chs", "sc", "gb",
        "gb2312", "gbk", "simplified", "simplified chinese", "jpsc", "scjp", "jpnsc", "scjpn"]
    traditional :=
      containsAny lower ["繁体", "繁體", "繁中", "繁日", "繁英", "简繁", "簡繁", "繁简", "繁簡"] ||
      containsSubtitleLabelToken normalized ["zh hant", "zh tw", "zh hk", "zh mo", "cht", "tc",
        "big5", "traditional", "traditional chinese", "jptc", "tcjp", "jpntc", "tcjpn"]
    otherLanguage :=
      containsAny lower ["简英", "簡英", "简日", "簡日", "中英", "中日", "双语", "雙語", "英文",
        "英语", "英語", "日文", "日语", "日語"] ||
      containsSubtitleLabelToken normalized ["en", "eng", "english", "ja", "jpn", "jp",
        "japanese", "bilingual", "multilingual"] }

def detectSubtitleLanguage (filePath : String) : String :=
  let label := fileBase (forwardSlashes filePath)
  let signals := subtitleLabelSignals unicode label
  let normalized := normalizeSubtitleLabel unicode (unicode.lower label)
  if signals.simplified && !signals.traditional && !signals.otherLanguage then "zh-Hans"
  else if signals.traditional && !signals.simplified && !signals.otherLanguage then "zh-Hant"
  else if containsSubtitleLabelToken normalized ["ja", "jpn", "jp", "japanese"] then "ja"
  else if containsSubtitleLabelToken normalized ["en", "eng", "english"] then "en"
  else ""

end Labels

/-! ## Manifests -/

/-- The domain's `DownloadFile`: a file as qBittorrent reports it. -/
structure ManifestFile where
  index : Int
  relativePath : String
  sizeBytes : Int
  deriving DecidableEq

structure ClassifiedDownloadFile extends ManifestFile where
  kind : MediaKind
  selected : Bool := false
  coordinate : EpisodeCoordinate := {}
  language : String := ""
  deriving DecidableEq

structure FileSelectionOptions where
  defaultSeason : Int := 0
  defaultEpisode : Int := 0
  singleEpisode : Bool := false
  deriving DecidableEq

inductive ManifestError where
  | defaultSeason
  | singleEpisode
  | negativeIndex (index : Int)
  | duplicateIndex (index : Int)
  | unsafePath (index : Int)
  | negativeSize (index : Int)
  deriving DecidableEq

def ManifestError.text : ManifestError → String
  | defaultSeason => "default season must be positive"
  | singleEpisode => "single episode number must be positive"
  | negativeIndex index => "duplicate download file: negative qBittorrent index " ++ toString index
  | duplicateIndex index => "duplicate download file: qBittorrent index " ++ toString index
  | unsafePath index => "file index " ++ toString index ++ ": unsafe download file path"
  | negativeSize index => "file index " ++ toString index ++ " has a negative size"

/-- `validateRelativeDownloadPath` accepts the path. -/
def relativeDownloadPathValid (filePath : String) : Bool :=
  let normalized := (forwardSlashes (trimSpace filePath)).toList
  let drive : Bool := match normalized with
    | letter :: ':' :: '/' :: _ => (foldCase letter).isLower
    | _ => false
  normalized ≠ [] && '\x00' ∉ normalized && normalized.head? ≠ some '/' && !drive &&
    (normalized.splitOn '/').all (· ≠ ['.', '.'])

section Classification

variable (unicode : Unicode) (options : FileSelectionOptions)

/-- The coordinate of a video or a subtitle. -/
def classifiedCoordinate (filePath : String) : EpisodeCoordinate :=
  if options.singleEpisode then
    { season := options.defaultSeason, episode := options.defaultEpisode }
  else (sourceCoordinate? filePath options.defaultSeason).getD {}

def classifyFile (file : ManifestFile) : ClassifiedDownloadFile :=
  let kind := classifyDownloadPath unicode file.relativePath
  { file with
    kind
    coordinate := if kind = .video ∨ kind = .subtitle then
      classifiedCoordinate options file.relativePath else {}
    language := if kind = .subtitle then detectSubtitleLanguage unicode file.relativePath else "" }

/-- The loop over the files, with the indexes seen so far. -/
def classifyFiles : List Int → List ManifestFile →
    Except ManifestError (List ClassifiedDownloadFile)
  | _, [] => .ok []
  | seen, file :: rest =>
    if file.index < 0 then .error (.negativeIndex file.index)
    else if file.index ∈ seen then .error (.duplicateIndex file.index)
    else if !relativeDownloadPathValid file.relativePath then .error (.unsafePath file.index)
    else if file.sizeBytes < 0 then .error (.negativeSize file.index)
    else (classifyFiles (file.index :: seen) rest).map (classifyFile unicode options file :: ·)

def classifyDownloadFiles (files : List ManifestFile) :
    Except ManifestError (List ClassifiedDownloadFile) :=
  if options.defaultSeason ≤ 0 then .error .defaultSeason
  else if options.singleEpisode = true ∧ options.defaultEpisode ≤ 0 then .error .singleEpisode
  else classifyFiles unicode options [] files

end Classification

end EmbyAuto
