import EmbyAuto.Domain.FileSelection
import EmbyAuto.Ranking.Select
import EmbyAuto.Regexp.Scan

/-!
# Coordinates in the titles of RSS releases

A release title states its season and episode in one of many forms. Each form is a pattern with a
priority; the candidates of the highest priority decide, and they must agree.

The matches of a pattern may share their boundary: after a match the search goes on at its last
character, in the rest of the title taken as a text of its own.

## Main definitions

* `normalizeRSSReleaseTitle`, `parseRSSReleaseNumber`: titles and numbers in one form
* `rssCoordinatePatterns`, `rssStandaloneSeasonPatterns`: the tables of patterns
* `findRSSPatternSubmatches`: the matches of a pattern
* `parseRSSReleaseCoordinate`: the coordinate of a title
-/

namespace EmbyAuto

open Ranking

/-! ## Titles and numbers -/

/-- Full-width forms, dashes and wide spaces as their ASCII forms. -/
def normalizeRSSReleaseRune (value : Char) : Char :=
  if '\uff01' ≤ value ∧ value ≤ '\uff5e' then Char.ofNat (value.toNat - 0xFEE0)
  else if value ∈ ['\u2010', '\u2011', '\u2012', '\u2013', '\u2014', '\u2015', '\u2212'] then '-'
  else if value = '\u00a0' ∨ value = '\u3000' then ' '
  else value

def normalizeRSSReleaseTitle (title : String) : String :=
  let normalized := (trimSpace title).toList.map normalizeRSSReleaseRune
  .ofList ([' '].intercalate (fields normalized))

/-- The value of a numeral below ten. -/
def rssReleaseDigit? : Char → Option Int
  | '零' | '〇' => some 0
  | '一' => some 1
  | '二' | '两' | '兩' => some 2
  | '三' => some 3
  | '四' => some 4
  | '五' => some 5
  | '六' => some 6
  | '七' => some 7
  | '八' => some 8
  | '九' => some 9
  | _ => none

def rssReleaseUnit? : Char → Option Int
  | '十' => some 10
  | '百' => some 100
  | _ => none

/-- The loop over the numerals, with the total and the digit that waits for its unit. -/
def parseRSSReleaseNumerals : Runes → Int → Int → Int
  | [], total, current => total + current
  | token :: rest, total, current =>
    match rssReleaseDigit? token with
    | some digit => parseRSSReleaseNumerals rest total digit
    | none =>
      match rssReleaseUnit? token with
      | none => 0
      | some unit =>
        parseRSSReleaseNumerals rest (total + (if current = 0 then 1 else current) * unit) 0

def parseRSSReleaseNumber (value : Runes) : Int :=
  let value := trimFunc isSpace value
  let number := int64 (decimal value)
  if 0 < number then number else int64 (parseRSSReleaseNumerals value 0 0)

/-! ## Patterns -/

structure RSSCoordinatePattern where
  expression : Regexp
  priority : Nat
  seasonGroup : Nat := 0
  episodeGroup : Nat := 0
  evidence : String := ""
  weak : Bool := false
  fractional : Bool := false

section Patterns

open Regexp

/-- `[^[:alnum:]]` under `(?i)`. -/
def isBreak (c : Char) : Bool := !(foldCase c).isAlphanum

/-- `(?i)(?:^|[^[:alnum:]])…(?:$|[^[:alnum:]])`. -/
def token (middle : List Regexp) : Regexp := bounded isBreak isBreak middle

/-- `[[:space:]]`. -/
def isBlank (c : Char) : Bool := c ∈ ['\t', '\n', '\x0b', '\x0c', '\r', ' ']

def isOpeningBracket (c : Char) : Bool := c ∈ ['[', '(', '【', '（']

def isClosingBracket (c : Char) : Bool := c ∈ [']', ')', '】', '）']

/-- `[[:space:]_.]`. -/
def isDelimiter (c : Char) : Bool := isBlank c || c ∈ ['_', '.']

/-- `[0-9]{1,most}` outside of groups. -/
def digits (most : Nat) : Regexp := rep 1 (some most) digit

/-- `[0-9]{1,4}[.][0-9]+`. -/
def fraction : Regexp := seqs [digits 4, point, plus digit]

/-- `(?:v[0-9]+)?` without `(?i)`. -/
def lowerRelease : Regexp := opt (seq (oneOf ['v']) (plus digit))

/-- `(?i)(?:episode|ep|e)`. -/
def episodeMarker : Regexp :=
  alts [word foldCase "episode", word foldCase "ep", word foldCase "e"]

def isReleaseNumeral (c : Char) : Bool :=
  c.isDigit || c ∈ ['零', '〇', '一', '二', '三', '四', '五', '六', '七', '八', '九', '十', '百', '两', '兩']

def rssReleaseNumber : Regexp := rep 1 (some 6) (chars isReleaseNumeral)

/-- `[话話集回]`. -/
def episodeCounter : Regexp := oneOf ['话', '話', '集', '回']

def rssTechnicalDecimalPattern : Regexp :=
  token [alts [
    seqs [digits 2, point, digit, opt (word foldCase "ch")],
    seqs [word foldCase "h", opt point, word foldCase "26", oneOf ['4', '5', '6']],
    seqs [word foldCase "x26", oneOf ['4', '5', '6']]]]

def rssStandaloneSeasonPatterns : List Regexp :=
  [token [word foldCase "s", separators, number 1 2],
   token [word foldCase "season", star (oneOf [' ', '.', '_']), number 1 2],
   token [number 1 2,
     alts [word foldCase "st", word foldCase "nd", word foldCase "rd", word foldCase "th"],
     separators, word foldCase "season"],
   seqs [oneOf ['第'], spaces, group 1 rssReleaseNumber, spaces, oneOf ['季']]]

/-- `-[[:space:]]*` and a number between the ends of the title or brackets and spaces. -/
def releaseDash (middle : List Regexp) : Regexp :=
  bounded (fun c => isBlank c || isClosingBracket c) (fun c => isBlank c || isOpeningBracket c)
    ([oneOf ['-'], spaces] ++ middle)

/-- A number in brackets. -/
def bracketed (middle : List Regexp) : Regexp :=
  seqs ([chars isOpeningBracket, spaces] ++ middle ++ [spaces, chars isClosingBracket])

def seasonEpisodeFraction : Regexp :=
  token [alts [
      seqs [word foldCase "s", separators, digits 2, separators, word foldCase "e", separators],
      seqs [digits 2, word foldCase "x"],
      seqs [word foldCase "season", separators, digits 2, plus (oneOf [' ', '.', '_', '/', '-']),
        episodeMarker, separators]],
    fraction, release]

def episodeFraction : Regexp :=
  token [alts [word foldCase "episode", word foldCase "ep", word foldCase "e", oneOf ['#']],
    separators, fraction, release]

def hashMarker : Regexp :=
  bounded (fun c => !c.isAlphanum) (fun c => !c.isAlphanum)
    [oneOf ['#'], spaces, number 1 4, lowerRelease]

def delimitedEpisode : Regexp := bounded isDelimiter isDelimiter [number 1 3, lowerRelease]

/-- `episode_marker`. -/
def markedEpisode : Regexp := token [episodeMarker, separators, number 1 4, release]

def rssEpisodeMarkerPattern : RSSCoordinatePattern :=
  { expression := markedEpisode, priority := 300, episodeGroup := 1, evidence := "episode_marker" }

def rssDelimitedEpisodePattern : RSSCoordinatePattern :=
  { expression := delimitedEpisode, priority := 100, episodeGroup := 1,
    evidence := "delimited_episode", weak := true }

def rssCoordinatePatterns : List RSSCoordinatePattern :=
  [{ expression := seasonEpisodeFraction, priority := 400, fractional := true },
   { expression := episodeFraction, priority := 300, fractional := true },
   { expression := seqs [opt (seq (oneOf ['第']) spaces), rssReleaseNumber, point, plus digit,
        spaces, episodeCounter],
     priority := 300, fractional := true },
   { expression := alt (bracketed [fraction, release]) (releaseDash [fraction, release]),
     priority := 200, fractional := true },
   { expression := bounded isDelimiter isDelimiter [fraction],
     priority := 100, weak := true, fractional := true },
   { expression := token [word foldCase "s", separators, number 1 2, separators,
        word foldCase "e", separators, number 2 4, release],
     priority := 400, seasonGroup := 1, episodeGroup := 2, evidence := "season_episode" },
   { expression := token [number 1 2, word foldCase "x", number 2 4, release],
     priority := 400, seasonGroup := 1, episodeGroup := 2, evidence := "season_x_episode" },
   { expression := token [word foldCase "season", separators, number 1 2,
        plus (oneOf [' ', '.', '_', '/', '-']), episodeMarker, separators, number 2 4, release],
     priority := 400, seasonGroup := 1, episodeGroup := 2, evidence := "season_episode_words" },
   { expression := seqs [oneOf ['第'], spaces, group 1 rssReleaseNumber, spaces, oneOf ['季'],
        rep 0 (some 32) (chars fun c => !isReleaseNumeral c), opt (oneOf ['第']), spaces,
        group 2 rssReleaseNumber, spaces, episodeCounter],
     priority := 400, seasonGroup := 1, episodeGroup := 2,
     evidence := "east_asian_season_episode" },
   rssEpisodeMarkerPattern,
   { expression := hashMarker, priority := 300, episodeGroup := 1, evidence := "hash_marker" },
   { expression := seqs [opt (seq (oneOf ['第']) spaces), group 1 rssReleaseNumber, spaces,
        episodeCounter],
     priority := 300, episodeGroup := 1, evidence := "east_asian_episode" },
   { expression := releaseDash [number 1 4, lowerRelease], priority := 200, episodeGroup := 1,
     evidence := "release_dash" },
   { expression := bracketed [number 1 4, release], priority := 200, episodeGroup := 1,
     evidence := "bracketed_episode" },
   rssDelimitedEpisodePattern]

end Patterns

/-! ## The matches of a pattern -/

/-- Where the search goes on after a match: at its last character, or behind its first one if
that would make no progress. No value at the end of the input. -/
def nextSearchOffset (input : Runes) (found : Regexp.Match) : Option Nat :=
  let matchStart := found.before.length
  let matchEnd := matchStart + found.text.length
  if matchEnd = 0 ∨ matchEnd - 1 ≤ matchStart then
    if matchStart < input.length then some (matchStart + 1) else none
  else some (matchEnd - 1)

/-- The loop of `findRSSPatternSubmatches`, with each match where it stands in the input. No value
if the rounds run out. -/
def searchRounds (expression : Regexp) (input : Runes) : Nat → Nat → Option (List Regexp.Match)
  | 0, _ => none
  | rounds + 1, searchOffset =>
    if searchOffset < input.length then
      match expression.search true (input.drop searchOffset) with
      | none => some []
      | some m =>
        let found := { m with before := input.take searchOffset ++ m.before }
        match nextSearchOffset input found with
        | none => some [found]
        | some next => (searchRounds expression input rounds next).map (found :: ·)
    else some []

def findRSSPatternSubmatches (expression : Regexp) (input : Runes) : List Regexp.Match :=
  (searchRounds expression input (input.length + 1) 0).getD []

/-! ## Candidates -/

inductive RSSCoordinateParseStatus where
  | matched | notFound | ambiguous | fractional
  deriving DecidableEq

structure RSSCoordinateParseResult where
  status : RSSCoordinateParseStatus
  sourceSeason : Int := 0
  sourceEpisode : Int := 0
  evidence : String := ""
  deriving DecidableEq

structure RSSCoordinateCandidate where
  season : Int := 0
  episode : Int := 0
  priority : Nat
  evidence : String := ""
  fractional : Bool := false
  deriving DecidableEq

/-- The candidate of a match; none if one of its numbers is not positive. -/
def RSSCoordinatePattern.candidate? (pattern : RSSCoordinatePattern) (found : Regexp.Match) :
    Option RSSCoordinateCandidate :=
  if pattern.fractional then some { priority := pattern.priority, fractional := true }
  else
    let episode := parseRSSReleaseNumber (found.submatch pattern.episodeGroup)
    let season :=
      if pattern.seasonGroup > 0 then parseRSSReleaseNumber (found.submatch pattern.seasonGroup)
      else 0
    if episode ≤ 0 then none
    else if pattern.seasonGroup > 0 ∧ season ≤ 0 then none
    else some { season, episode, priority := pattern.priority, evidence := pattern.evidence }

def RSSCoordinatePattern.candidates (pattern : RSSCoordinatePattern) (normalized : Runes) :
    List RSSCoordinateCandidate :=
  let input :=
    if pattern.weak then rssTechnicalDecimalPattern.replaceAll [' '] normalized else normalized
  (findRSSPatternSubmatches pattern.expression input).filterMap pattern.candidate?

/-- The season that the title states for all its episodes, or the default; no value if it states
several. -/
def resolveRSSReleaseSeason (title : Runes) (defaultSeason : Int) : Option Int :=
  let seasons := (rssStandaloneSeasonPatterns.flatMap fun pattern =>
    (findRSSPatternSubmatches pattern title).map fun found =>
      parseRSSReleaseNumber (found.submatch 1)).filter (0 < ·)
  match seasons.dedup with
  | [] => some defaultSeason
  | [season] => some season
  | _ => none

/-- The coordinates of the candidates with the evidence seen first; no value if a candidate has no
season. -/
def resolveRSSCandidates (normalized : Runes) (defaultSeason : Int) :
    List RSSCoordinateCandidate → List (EpisodeCoordinate × String) →
      Option (List (EpisodeCoordinate × String))
  | [], resolved => some resolved
  | candidate :: rest, resolved =>
    let season :=
      if candidate.season = 0 then resolveRSSReleaseSeason normalized defaultSeason
      else some candidate.season
    match season with
    | none => none
    | some season =>
      let coordinate : EpisodeCoordinate := { season, episode := candidate.episode }
      resolveRSSCandidates normalized defaultSeason rest <|
        if resolved.any fun entry => entry.1 = coordinate then resolved
        else resolved ++ [(coordinate, candidate.evidence)]

/-- The result of ranked candidates: those of the highest priority decide. -/
def decideRSSCandidates (normalized : Runes) (defaultSeason : Int)
    (candidates : List RSSCoordinateCandidate) : RSSCoordinateParseResult :=
  match sortBy (fun left right => left.priority > right.priority) candidates with
  | [] => { status := .notFound }
  | first :: rest =>
    let highest (candidate : RSSCoordinateCandidate) : Bool := candidate.priority = first.priority
    if (first :: rest).any fun candidate => highest candidate && candidate.fractional then
      { status := .fractional }
    else
      match resolveRSSCandidates normalized defaultSeason ((first :: rest).takeWhile highest)
        [] with
      | some [(coordinate, evidence)] =>
        { status := .matched, sourceSeason := coordinate.season,
          sourceEpisode := coordinate.episode, evidence }
      | _ => { status := .ambiguous }

def parseRSSReleaseCoordinate (title : String) (defaultSeason : Int) : RSSCoordinateParseResult :=
  let normalized := normalizeRSSReleaseTitle title
  if normalized = "" ∨ defaultSeason ≤ 0 then { status := .notFound }
  else
    decideRSSCandidates normalized.toList defaultSeason
      (rssCoordinatePatterns.flatMap fun pattern => pattern.candidates normalized.toList)

end EmbyAuto
