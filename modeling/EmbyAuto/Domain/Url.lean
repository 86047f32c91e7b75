import EmbyAuto.Domain.Text

/-!
# URLs of the Go standard library

`url.Parse` and `url.ParseQuery` as far as the repository reads their results. Go texts are
sequences of bytes, and an escape can produce any byte, so unescaped texts are bytes; a byte
that is no part of a character reads as the replacement character.

What `url.Parse` accepts between `//` and the path is a parameter: it depends on the tables of
host names and addresses.

## Main definitions

* `decodeUTF8`: the characters of a byte sequence
* `unescape`: `url.QueryUnescape` and `url.PathUnescape`
* `parseURL`, `parseQuery`: the parsed URL and its query
-/

namespace EmbyAuto

/-! ## Bytes and characters -/

/-- The bytes of a text. -/
def utf8 (text : Runes) : List UInt8 := text.flatMap String.utf8EncodeChar

/-- The value of a continuation byte. -/
def continuation? (b : UInt8) : Option Nat :=
  if 0x80 ≤ b.toNat ∧ b.toNat < 0xc0 then some (b.toNat - 0x80) else none

/-- `utf8.DecodeRune`: a character with the number of bytes after the first one. A byte that
starts no character stands alone. -/
def decodeRune (first : UInt8) (rest : List UInt8) : Char × Nat :=
  let a := first.toNat
  if a < 0x80 then (Char.ofNat a, 0)
  else match rest.take 3 |>.map continuation? with
    | some b :: tail =>
      if 0xc2 ≤ a ∧ a < 0xe0 then (Char.ofNat ((a - 0xc0) * 64 + b), 1)
      else match tail with
        | some c :: tail =>
          let three := ((a - 0xe0) * 64 + b) * 64 + c
          if 0xe0 ≤ a ∧ a < 0xf0 then
            if 0x800 ≤ three ∧ ¬ (0xd800 ≤ three ∧ three < 0xe000) then (Char.ofNat three, 2)
            else ('�', 0)
          else match tail with
            | some d :: _ =>
              let four := (((a - 0xf0) * 64 + b) * 64 + c) * 64 + d
              if 0xf0 ≤ a ∧ 0x10000 ≤ four ∧ four < 0x110000 then (Char.ofNat four, 3)
              else ('�', 0)
            | _ => ('�', 0)
        | _ => ('�', 0)
    | _ => ('�', 0)

/-- The characters of a byte sequence, as `range` over a string reads them. -/
def decodeUTF8 (bytes : List UInt8) : Runes := go bytes.length bytes
where
  go : Nat → List UInt8 → Runes
  | 0, _ | _, [] => []
  | fuel + 1, first :: rest =>
    let (c, more) := decodeRune first rest
    c :: go fuel (rest.drop more)

/-! ## Escapes -/

/-- `url.unescape` of a query component, where a plus sign is a space, or of another part. -/
def unescape (plusIsSpace : Bool) : Runes → Option (List UInt8)
  | [] => some []
  | '%' :: high :: low :: rest =>
    match unhex? high, unhex? low, unescape plusIsSpace rest with
    | some h, some l, some bytes => some (UInt8.ofNat (16 * h + l) :: bytes)
    | _, _, _ => none
  | '%' :: _ => none
  | c :: rest =>
    (unescape plusIsSpace rest).map fun bytes =>
      if c = '+' ∧ plusIsSpace then 0x20 :: bytes else String.utf8EncodeChar c ++ bytes

/-! ## The parts of a URL -/

structure URL where
  scheme : String := ""
  isOpaque : Bool := false
  host : String := ""
  path : List UInt8 := []
  rawQuery : Runes := []
  fragment : List UInt8 := []
  /-- the host with the user information, as it is spelled -/
  authority : Runes := []
  /-- the path as it is spelled -/
  rawPath : Runes := []
  deriving DecidableEq

/-- `strings.Cut` at a character. -/
def cut (separator : Char) (text : Runes) : Runes × Runes :=
  match text.span (· ≠ separator) with
  | (front, []) => (front, [])
  | (front, _ :: rest) => (front, rest)

/-- `getScheme`: the scheme and the rest; no value for a colon at the start. -/
def getScheme (raw : Runes) : Option (Runes × Runes) :=
  match raw.span fun c => c.isAlphanum || c ∈ ['+', '-', '.'] with
  | (scheme, ':' :: rest) =>
    match scheme with
    | [] => none
    | first :: _ => if first.isAlpha then some (scheme, rest) else some ([], raw)
  | _ => some ([], raw)

section Parse

variable (parseAuthority : String → Option String)

/-- The path after the scheme and the query were cut off, with the host if there is one. -/
def parseHierarchy (url : URL) (rest : Runes) : Option URL :=
  match rest with
  | '/' :: '/' :: authority =>
    if url.scheme = "" ∧ authority.head? = some '/' then setPath url rest
    else
      let (name, path) := authority.span (· ≠ '/')
      (parseAuthority (.ofList name)).bind fun host =>
        setPath { url with host, authority := name } path
  | _ => setPath url rest
where
  setPath (url : URL) (path : Runes) : Option URL :=
    (unescape false path).map fun decoded => { url with path := decoded, rawPath := path }

/-- `url.Parse` of the part before the fragment. -/
def parseWithoutFragment (raw : Runes) : Option URL :=
  if raw.any fun c => c.toNat < 0x20 || c.toNat = 0x7f then none
  else if raw = ['*'] then some { path := [0x2a], rawPath := raw }
  else (getScheme raw).bind fun (scheme, rest) =>
    let (rest, rawQuery) := cut '?' rest
    let url : URL := { scheme := (String.ofList scheme).toLower, rawQuery }
    if rest.head? = some '/' then parseHierarchy parseAuthority url rest
    else if url.scheme ≠ "" then some { url with isOpaque := true }
    else if ':' ∈ rest.takeWhile (· ≠ '/') then none
    else parseHierarchy parseAuthority url rest

/-- `url.Parse`; no value for an error. -/
def parseURL (raw : String) : Option URL :=
  let (front, fragment) := cut '#' raw.toList
  (parseWithoutFragment parseAuthority front).bind fun url =>
    (unescape false fragment).map fun fragment => { url with fragment }

end Parse

/-! ## The query -/

/-- One setting of a query: its key and its value, unless an escape is invalid or a semicolon
separates it. -/
def parseSetting (setting : Runes) : Option (List UInt8 × List UInt8) :=
  if ';' ∈ setting ∨ setting = [] then none
  else
    let (key, value) := cut '=' setting
    match unescape true key, unescape true value with
    | some key, some value => some (key, value)
    | _, _ => none

/-- The settings of a query in order, without those that are invalid. -/
def querySettings (rawQuery : Runes) : List (List UInt8 × List UInt8) :=
  (rawQuery.splitOn '&').filterMap parseSetting

/-- `urlParamsWithinMax`: empty parameters count too. -/
def withinMaxParams (rawQuery : Runes) : Bool := (rawQuery.splitOn '&').length ≤ 10000

/-- `URL.Query`: nothing for a query with too many parameters. -/
def parseQuery (rawQuery : Runes) : List (List UInt8 × List UInt8) :=
  if withinMaxParams rawQuery then querySettings rawQuery else []

/-- The values of a key. -/
def settingValues (settings : List (List UInt8 × List UInt8)) (key : String) :
    List (List UInt8) :=
  (settings.filter fun setting => setting.1 = utf8 key.toList).map Prod.snd

/-- `URL.Query()[key]`. -/
def URL.queryValues (url : URL) (key : String) : List (List UInt8) :=
  settingValues (parseQuery url.rawQuery) key

theorem length_parseQuery_le (rawQuery : Runes) : (parseQuery rawQuery).length ≤ 10000 := by
  rw [parseQuery]
  split_ifs with hmax
  · exact (List.length_filterMap_le _ _).trans (of_decide_eq_true hmax)
  · exact Nat.zero_le _

end EmbyAuto
