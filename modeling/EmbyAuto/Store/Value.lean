import EmbyAuto.Domain.Text
import EmbyAuto.Relational.Hoare

/-!
# Values stored in the database

Identifiers, JSON documents and the errors that database code returns.

## Main definitions

* `JSON`, `JSON.valuesEqual`: JSON documents, compared as `encoding/json` decodes them
* `Fault`: the errors of queries and services, with the text they are wrapped in
* `int32`: the conversion of a Go `int` to a column of type `integer`
-/

namespace EmbyAuto

open Relational

/-- A `uuid` column. -/
abbrev UUID := Nat

/-- A `timestamptz` column. -/
abbrev Timestamp := Nat

/-- Go's `time.Duration`, in nanoseconds. -/
abbrev Duration := Int

namespace Duration

def second : Duration := 1000000000

def minute : Duration := 60 * second

def hour : Duration := 60 * minute

end Duration

/-- Go's conversion `int32(n)`. -/
def int32 (n : Int) : Int := n.bmod (2 ^ 32)

/-- `uuid.Nil`, the identifier of nothing. -/
def UUID.nil : UUID := 0

namespace UUID

variable (id : UUID)

/-- The number of digits of the first group: 8 below `2 ^ 128`. -/
def firstWidth : Nat := max 8 (Nat.log2 id / 4 + 1 - 24)

/-- The text of an identifier in keys and messages: its hexadecimal digits in five groups. -/
def text : String :=
  .ofList (hexDigits (firstWidth id) (id / 16 ^ 24) ++ '-' :: (hexDigits 4 (id / 16 ^ 20) ++
    '-' :: (hexDigits 4 (id / 16 ^ 16) ++ '-' :: (hexDigits 4 (id / 16 ^ 12) ++
      '-' :: hexDigits 12 id))))

variable {id}

/-- Without its dashes a text has the digits. -/
theorem filter_text : (text id).toList.filter (· ≠ '-') = hexDigits (firstWidth id + 24) id := by
  have hkeep (width n : Nat) : (hexDigits width n).filter (· ≠ '-') = hexDigits width n := by
    refine List.filter_eq_self.mpr fun c hc => decide_eq_true ?_
    rintro rfl
    exact absurd (mem_hexDigits hc) (by decide)
  rw [text, String.toList_ofList]
  simp only [List.filter_append, List.filter_cons_of_neg, ne_eq, not_true_eq_false, decide_false,
    Bool.false_eq_true, not_false_eq_true]
  simp only [← ne_eq, hkeep, ← hexDigits_add]

/-- The digits spell the identifier. -/
theorem digits_values : ∃ values, (hexDigits (firstWidth id + 24) id).mapM unhex? = some values ∧
    values.foldl (fun n d => 16 * n + d) 0 = id := by
  refine hexDigits_values ?_
  calc id < 2 ^ (Nat.log2 id + 1) := Nat.lt_log2_self
    _ ≤ 2 ^ (4 * (firstWidth id + 24)) := by
      refine Nat.pow_le_pow_right (by decide) ?_
      unfold firstWidth
      omega
    _ = 16 ^ (firstWidth id + 24) := pow_mul 2 4 _

theorem text_injective : Function.Injective text := by
  intro a b h
  obtain ⟨values, hvalues, ha⟩ := @digits_values a
  obtain ⟨values', hvalues', hb⟩ := @digits_values b
  rw [← filter_text, h, filter_text, hvalues'] at hvalues
  rw [← ha, ← hb, Option.some.inj hvalues]

theorem mem_text {c : Char} (h : c ∈ (text id).toList) :
    c = '-' ∨ c ∈ "0123456789abcdef".toList := by
  by_cases hdash : c = '-'
  · exact .inl hdash
  · have hdigit : c ∈ hexDigits (firstWidth id + 24) id := by
      rw [← filter_text]
      exact List.mem_filter.mpr ⟨h, decide_eq_true hdash⟩
    exact .inr (mem_hexDigits hdigit)

end UUID

/-- PostgreSQL's `btrim(text) <> ''`: the text has a character other than a space. -/
def notBlank (text : String) : Bool := text.toList.any (· ≠ ' ')

/-- The column of a text that is `NULL` when the text is empty. -/
def optionalString (value : String) : Option String := if value = "" then none else some value

/-- `column IS NOT NULL AND btrim(column) <> ''`. -/
def presentNotBlank (column : Option String) : Bool := column.any notBlank

/-! ## JSON -/

/-- A JSON document whose numbers are integers. -/
inductive JSON where
  | null
  | bool (value : Bool)
  | number (value : Int)
  | string (value : String)
  | array (items : List JSON)
  | object (fields : List (String × JSON))

namespace JSON

/-- The `float64` that decodes an integer literal, rounded to nearest and ties to even;
`none` when the literal is out of range. -/
def decodeNumber (n : Int) : Option Int :=
  let magnitude := n.natAbs
  if magnitude ≤ 2 ^ 53 then some n
  else
    let shift := Nat.log2 magnitude - 52
    let quotient := magnitude >>> shift
    let rest := magnitude % 2 ^ shift
    let half := 2 ^ (shift - 1)
    let rounded := if rest > half ∨ (rest = half ∧ quotient % 2 = 1) then quotient + 1 else quotient
    let value := rounded * 2 ^ shift
    if Nat.log2 value < 1024 then some (n.sign * value) else none

mutual

/-- `json.Unmarshal` into an empty interface succeeds. -/
def decodable : JSON → Bool
  | .number n => (decodeNumber n).isSome
  | .array items => decodableItems items
  | .object fields => decodableFields fields
  | _ => true

def decodableItems : List JSON → Bool
  | [] => true
  | v :: rest => decodable v && decodableItems rest

def decodableFields : List (String × JSON) → Bool
  | [] => true
  | (_, v) :: rest => decodable v && decodableFields rest

end

mutual

/-- `reflect.DeepEqual` of two decoded documents: objects are maps, numbers are `float64`. -/
def deepEqual : JSON → JSON → Bool
  | .null, .null => true
  | .bool a, .bool b => a == b
  | .number a, .number b => decodeNumber a == decodeNumber b
  | .string a, .string b => a == b
  | .array xs, .array ys => deepEqualItems xs ys
  | .object xs, .object ys => xs.length == ys.length && deepEqualFields xs ys
  | _, _ => false

def deepEqualItems : List JSON → List JSON → Bool
  | [], [] => true
  | x :: xs, y :: ys => deepEqual x y && deepEqualItems xs ys
  | _, _ => false

def deepEqualFields : List (String × JSON) → List (String × JSON) → Bool
  | [], _ => true
  | (k, v) :: rest, ys =>
    (match ys.lookup k with
      | some w => deepEqual v w
      | none => false) && deepEqualFields rest ys

end

/-- The service's `jsonValuesEqual`. -/
def valuesEqual (left right : JSON) : Bool :=
  left.decodable && right.decodable && left.deepEqual right

/-- The value of an object's field; `none` for a missing field or another kind of document. -/
def field? (document : JSON) (name : String) : Option JSON :=
  match document with
  | .object fields => fields.lookup name
  | _ => none

/-- `jsonb_typeof(document) = 'object'`. -/
def isObject : JSON → Bool
  | .object _ => true
  | _ => false

end JSON

/-! ## Errors -/

/-- A value in the details of a service error. -/
inductive Detail where
  | text (value : String)
  | number (value : Int)
  deriving DecidableEq

/-- The errors of queries, repositories and services. -/
inductive Fault where
  /-- `pgx.ErrNoRows` -/
  | noRows
  /-- a violated constraint, by name -/
  | constraint (name : String)
  /-- `domain.ErrOperationNotRunnable` -/
  | operationNotRunnable
  /-- an error with a text of its own -/
  | text (message : String)
  /-- `fmt.Errorf("context: %w", cause)` -/
  | wrap (context : String) (cause : Fault)
  /-- `domain.ErrNotFound` -/
  | notFound
  /-- a service error with the code, the message and the details shown to the client -/
  | service (code message : String) (details : List (String × Detail) := [])
  /-- a media workflow error, which a worker turns into a failure of the operation -/
  | media (code message : String) (retryable : Bool)
  deriving DecidableEq

instance : ConstraintError Fault := ⟨Fault.constraint⟩

/-- `return fmt.Errorf("context: %w", err)` around a computation. -/
def context {σ α : Type} (text : String) (m : Tx Fault σ α) : Tx Fault σ α :=
  m.mapError (Fault.wrap text)

/-- A `:one` query whose caller does not treat `pgx.ErrNoRows` apart. -/
def requireRow {σ α : Type} (m : Tx Fault σ (Option α)) : Tx Fault σ α := do
  match ← m with
  | some r => return r
  | none => throw .noRows

/-- A `:one` query whose caller answers a missing row with `domain.ErrNotFound`. -/
def orNotFound {σ α : Type} (m : Tx Fault σ (Option α)) : Tx Fault σ α := do
  match ← m with
  | some r => return r
  | none => throw .notFound

/-- `%q` of a text without characters to escape. -/
def quote (text : String) : String := "\"" ++ text ++ "\""

section

variable {σ α : Type} {m : Tx Fault σ α} {s : σ} {r : α × σ}

@[simp] theorem context_ok {text : String} : context text m s = .ok r ↔ m s = .ok r :=
  Tx.mapError_ok

@[simp] theorem requireRow_ok {m} {a : α} {s' : σ} :
    requireRow m s = .ok (a, s') ↔ m s = .ok (some a, s') := by
  simp only [requireRow, Tx.bind_ok]
  constructor
  · rintro ⟨o, s₁, hm, h⟩
    cases o with
    | none => cases h
    | some b => cases h; exact hm
  · intro h
    exact ⟨some a, s', h, rfl⟩

@[simp] theorem orNotFound_ok {m} {a : α} {s' : σ} :
    orNotFound m s = .ok (a, s') ↔ m s = .ok (some a, s') := by
  simp only [orNotFound, Tx.bind_ok]
  constructor
  · rintro ⟨o, s₁, hm, h⟩
    cases o with
    | none => cases h
    | some b => cases h; exact hm
  · intro h
    exact ⟨some a, s', h, rfl⟩

theorem context_succeeds_iff {text : String} : (context text m).Succeeds s ↔ m.Succeeds s :=
  exists_congr fun _ => context_ok

theorem context_succeeds {text : String} (h : m.Succeeds s) : (context text m).Succeeds s :=
  context_succeeds_iff.mpr h

variable {I : σ → Prop} {q : Tx Fault σ (Option α)}

theorem keeps_context {text : String} (h : m.Keeps I) : (context text m).Keeps I :=
  h.mapError

theorem keeps_requireRow (h : q.Keeps I) : (requireRow q).Keeps I :=
  fun _ _ _ hs hrun => h hs (requireRow_ok.mp hrun)

theorem keeps_orNotFound (h : q.Keeps I) : (orNotFound q).Keeps I :=
  fun _ _ _ hs hrun => h hs (orNotFound_ok.mp hrun)

end

end EmbyAuto
