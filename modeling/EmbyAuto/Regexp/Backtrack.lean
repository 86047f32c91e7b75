import Mathlib

/-!
# Regular expressions with captures

Leftmost-first matching: among the matches that begin at the leftmost possible place, the one
that a backtracking search finds first. The search lists the ways to match at a place in the
order of preference, so the first way is the match.

## Main definitions

* `Regexp`: expressions with character classes, anchors, bounded repetition and groups
* `Regexp.run`: the ways to match at a place, the preferred one first
* `Regexp.find?`, `Regexp.isMatch`: the leftmost match
-/

/-- A regular expression over characters. -/
inductive Regexp where
  | empty
  | chars (accepts : Char → Bool)
  | textStart
  | textEnd
  | seq (first second : Regexp)
  | alt (first second : Regexp)
  /-- between `least` and `most` rounds, as many as possible -/
  | rep (least : Nat) (most : Option Nat) (body : Regexp)
  | group (index : Nat) (body : Regexp)

namespace Regexp

/-! ## Derived forms -/

def seqs : List Regexp → Regexp := List.foldr seq empty

/-- The alternatives in the order of preference. -/
def alts : List Regexp → Regexp
  | [] => chars fun _ => false
  | [e] => e
  | e :: rest => alt e (alts rest)

def opt (e : Regexp) : Regexp := rep 0 (some 1) e

def star (e : Regexp) : Regexp := rep 0 none e

def plus (e : Regexp) : Regexp := rep 1 none e

def oneOf (set : List Char) : Regexp := chars fun c => c ∈ set

/-- A text up to the folding of characters. -/
def word (fold : Char → Char) (text : String) : Regexp :=
  seqs (text.toList.map fun c => chars fun d => fold d = c)

/-! ## Matching -/

/-- A place in a text, with the groups matched on the way to it. -/
structure Place where
  atStart : Bool
  rest : List Char
  captures : List (Nat × List Char) := []

/-- Exactly `n` rounds of a step. -/
def times (step : Place → List Place) : Nat → Place → List Place
  | 0, p => [p]
  | n + 1, p => (step p).flatMap (times step n)

/-- At most `n` rounds of a step, more rounds first; a round that consumes nothing is not
repeated. -/
def rounds (step : Place → List Place) : Nat → Place → List Place
  | 0, p => [p]
  | n + 1, p =>
    ((step p).filter fun q => q.rest.length < p.rest.length).flatMap (rounds step n) ++ [p]

/-- The text between a place and a later one. -/
def Place.between (p q : Place) : List Char := p.rest.take (p.rest.length - q.rest.length)

def run : Regexp → Place → List Place
  | empty, p => [p]
  | chars accepts, p =>
    match p.rest with
    | [] => []
    | c :: rest => if accepts c then [{ p with atStart := false, rest }] else []
  | textStart, p => if p.atStart then [p] else []
  | textEnd, p => if p.rest = [] then [p] else []
  | seq first second, p => (run first p).flatMap (run second)
  | alt first second, p => run first p ++ run second p
  | rep least most body, p =>
    (times (run body) least p).flatMap fun q =>
      rounds (run body) (most.elim q.rest.length (· - least)) q
  | group index body, p =>
    (run body p).map fun q => { q with captures := (index, p.between q) :: q.captures }

/-- The leftmost match from a place on. -/
def findFrom (e : Regexp) (atStart : Bool) : List Char → Option Place
  | [] => (run e { atStart, rest := [] }).head?
  | c :: rest =>
    ((run e { atStart, rest := c :: rest }).head?).or (findFrom e false rest)

def find? (e : Regexp) (text : List Char) : Option Place := findFrom e true text

def isMatch (e : Regexp) (text : List Char) : Bool := (find? e text).isSome

/-- The text of a group; empty for a group that took no part in the match. -/
def Place.submatch (p : Place) (index : Nat) : List Char := (p.captures.lookup index).getD []

end Regexp
