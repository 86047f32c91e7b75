import Mathlib

/-!
# Raw values in a JSON text

A decoder that keeps the values of an array or of an object as they are written does not need to
know what they mean: it looks for the end of each value. A string ends at its closing quote, an
array or an object at the bracket that closes it, every other value in front of the next character
with a meaning in the syntax of JSON. The text is expected to be valid JSON; nothing is checked.

## Main definitions

* `scan`: the rest of a value that has been begun
* `rawValue`, `rawArray`, `rawObject`: a value, and the values of an array or of an object

## Main results

* `rawValue_spec`: a value is found again wherever it is written
* `rawArray_join`, `rawObject_join`: what is joined with commas is read back
-/

namespace JsonText

abbrev Bytes := List UInt8

def ascii (text : String) : Bytes := text.toList.map Char.toUInt8

def isSpace (b : UInt8) : Bool := b = 0x20 || b = 0x09 || b = 0x0a || b = 0x0d

def skipSpace (input : Bytes) : Bytes := input.dropWhile isSpace

/-! ## Values -/

/-- Where in a value the scan is. -/
inductive Mode where
  | plain
  | quoted
  | escaped
  deriving DecidableEq

def isOpening (b : UInt8) : Bool := b = 0x5b || b = 0x7b

def isClosing (b : UInt8) : Bool := b = 0x5d || b = 0x7d

/-- After a string or a bracket the value goes on if a bracket is open. -/
def closed (depth : Nat) : Option (Nat × Mode) := if depth = 0 then none else some (depth, .plain)

/-- Where the scan is after a byte; `none` after the last byte of the value. -/
def step (depth : Nat) (mode : Mode) (b : UInt8) : Option (Nat × Mode) :=
  match mode with
  | .escaped => some (depth, .quoted)
  | .quoted =>
    if b = 0x5c then some (depth, .escaped)
    else if b = 0x22 then closed depth
    else some (depth, .quoted)
  | .plain =>
    if b = 0x22 then some (depth, .quoted)
    else if isOpening b then some (depth + 1, .plain)
    else if isClosing b then closed (depth - 1)
    else some (depth, .plain)

/-- The rest of a value in which `depth` brackets are open, and what follows it. -/
def scan : Nat → Mode → Bytes → Option (Bytes × Bytes)
  | _, _, [] => none
  | depth, mode, b :: rest =>
    match step depth mode b with
    | none => some ([b], rest)
    | some (depth, mode) => (scan depth mode rest).map (Prod.map (b :: ·) id)

/-- The byte belongs to a number or to one of `true`, `false` and `null`. -/
def isScalar (b : UInt8) : Bool :=
  !isSpace b && b ≠ 0x2c && b ≠ 0x3a && b ≠ 0x22 && !isOpening b && !isClosing b

/-- The value at the beginning of the input as it is written, and what follows it. -/
def rawValue : Bytes → Option (Bytes × Bytes)
  | [] => none
  | b :: rest =>
    if b = 0x22 then (scan 0 .quoted rest).map (Prod.map (b :: ·) id)
    else if isOpening b then (scan 1 .plain rest).map (Prod.map (b :: ·) id)
    else if isScalar b then some ((b :: rest).takeWhile isScalar, (b :: rest).dropWhile isScalar)
    else none

/-! ## Arrays and objects -/

section Sequence

variable {α : Type} (close : UInt8) (item : Bytes → Option (α × Bytes))

/-- Items with commas between them, up to the closing bracket. -/
def sequence : Nat → Bytes → Option (List α × Bytes)
  | 0, _ => none
  | n + 1, input => (item (skipSpace input)).bind fun (x, rest) =>
    match skipSpace rest with
    | [] => none
    | b :: rest =>
      if b = 0x2c then (sequence n rest).map (Prod.map (x :: ·) id)
      else if b = close then some ([x], rest)
      else none

/-- Items between brackets. -/
def bracketed (opening : UInt8) (input : Bytes) : Option (List α × Bytes) :=
  match skipSpace input with
  | [] => none
  | b :: rest =>
    if b = opening then
      if (skipSpace rest).head? = some close then some ([], (skipSpace rest).tail)
      else sequence close item rest.length rest
    else none

end Sequence

/-- A key of an object with its value. -/
def rawMember (input : Bytes) : Option ((Bytes × Bytes) × Bytes) :=
  (rawValue input).bind fun (key, rest) =>
    match skipSpace rest with
    | [] => none
    | b :: rest =>
      if b = 0x3a then (rawValue (skipSpace rest)).map fun (value, rest) => ((key, value), rest)
      else none

def rawArray (input : Bytes) : Option (List Bytes × Bytes) := bracketed 0x5d rawValue 0x5b input

def rawObject (input : Bytes) : Option (List (Bytes × Bytes) × Bytes) :=
  bracketed 0x7d rawMember 0x7b input

example : rawArray (ascii "[ 1, \"a,]\" ,[[2] ,3]] x") =
    some ([ascii "1", ascii "\"a,]\"", ascii "[[2] ,3]"], ascii " x") := by decide

/-! ## A value is found again -/

section Scan

variable {depth : Nat} {mode : Mode} {b : UInt8}

theorem closed_add (k : Nat) (hk : 0 < k) : closed (depth + k) =
    some (((closed depth).map fun after => (after.1 + k, after.2)).getD (k, .plain)) := by
  rw [closed, closed, if_neg (by omega)]
  split_ifs with hdepth
  · simp [hdepth]
  · rfl

/-- With `k` more open brackets the scan takes the same steps, and goes on behind the value. -/
theorem step_add (hplain : mode = .plain → 0 < depth) (k : Nat) (hk : 0 < k) :
    step (depth + k) mode b =
      some (((step depth mode b).map fun after => (after.1 + k, after.2)).getD (k, .plain)) := by
  cases mode with
  | escaped => rfl
  | quoted =>
    simp only [step]
    split_ifs
    · rfl
    · exact closed_add k hk
    · rfl
  | plain =>
    have hpositive := hplain rfl
    simp only [step]
    split_ifs
    · rfl
    · simp [Nat.add_right_comm]
    · rw [show depth + k - 1 = depth - 1 + k by omega]
      exact closed_add k hk
    · rfl

theorem step_plain (hplain : mode = .plain → 0 < depth) {after : Nat × Mode}
    (h : step depth mode b = some after) : after.2 = .plain → 0 < after.1 := by
  intro hafter
  have hclosed {depth : Nat} (h : closed depth = some after) : 0 < after.1 := by
    rw [closed] at h
    split_ifs at h with hzero
    rw [← Option.some.inj h]
    exact Nat.pos_of_ne_zero hzero
  cases mode with
  | escaped =>
    cases h
    cases hafter
  | quoted =>
    simp only [step] at h
    split_ifs at h
    · cases h
      cases hafter
    · exact hclosed h
    · cases h
      cases hafter
  | plain =>
    have hpositive := hplain rfl
    simp only [step] at h
    split_ifs at h
    · cases h
      cases hafter
    · cases h
      exact Nat.succ_pos depth
    · exact hclosed h
    · cases h
      exact hpositive

theorem scan_cons_none {rest : Bytes} (h : step depth mode b = none) :
    scan depth mode (b :: rest) = some ([b], rest) := by
  rw [scan, h]

theorem scan_cons_some {rest : Bytes} {after : Nat × Mode} (h : step depth mode b = some after) :
    scan depth mode (b :: rest) = (scan after.1 after.2 rest).map (Prod.map (b :: ·) id) := by
  rw [scan, h]

/-- **What is scanned does not depend on what follows.** Inside of `k` more open brackets the scan
passes over the value. -/
theorem scan_spec {input v rest : Bytes} (hplain : mode = .plain → 0 < depth)
    (h : scan depth mode input = some (v, rest)) :
    (∀ rest', scan depth mode (v ++ rest') = some (v, rest')) ∧
      ∀ k, 0 < k → ∀ rest', scan (depth + k) mode (v ++ rest') =
        (scan k .plain rest').map (Prod.map (v ++ ·) id) := by
  induction input generalizing depth mode v with
  | nil => cases h
  | cons b input ih =>
    cases hstep : step depth mode b with
    | none =>
      rw [scan_cons_none hstep] at h
      cases h
      refine ⟨fun rest' => scan_cons_none hstep, fun k hk rest' => ?_⟩
      -- the byte that ends the value here only closes a bracket below `k` others
      have hadd := @step_add depth mode b hplain k hk
      rw [hstep] at hadd
      exact scan_cons_some hadd
    | some after =>
      rw [scan_cons_some hstep, Option.map_eq_some_iff] at h
      obtain ⟨⟨w, rest⟩, hscan, heq⟩ := h
      cases heq
      obtain ⟨hagain, hinner⟩ := ih (step_plain hplain hstep) hscan
      refine ⟨fun rest' => ?_, fun k hk rest' => ?_⟩
      · rw [List.cons_append, scan_cons_some hstep, hagain]
        rfl
      · have hadd := @step_add depth mode b hplain k hk
        rw [hstep] at hadd
        rw [List.cons_append, scan_cons_some hadd]
        show (scan (after.1 + k) after.2 (w ++ rest')).map _ = _
        rw [hinner k hk, Option.map_map]
        rfl

end Scan

/-- The text is a value, and so it is read in front of everything that can follow a value. -/
structure IsRaw (v : Bytes) : Prop where
  value : ∀ rest : Bytes, (∀ b ∈ rest.head?, isScalar b = false) →
    rawValue (v ++ rest) = some (v, rest)
  /-- Inside of brackets it is passed over. -/
  inner : ∀ depth : Nat, 0 < depth → ∀ rest : Bytes,
    scan depth .plain (v ++ rest) = (scan depth .plain rest).map (Prod.map (v ++ ·) id)
  head : ∃ b tail, v = b :: tail ∧ isSpace b = false ∧ isClosing b = false

theorem step_of_isScalar {depth : Nat} {b : UInt8} (h : isScalar b = true) :
    step depth .plain b = some (depth, .plain) := by
  simp only [isScalar, Bool.and_eq_true, Bool.not_eq_true', decide_eq_true_eq] at h
  simp [step, h]

theorem map_nil_append (o : Option (Bytes × Bytes)) : o.map (Prod.map ([] ++ ·) id) = o := by
  cases o with
  | none => rfl
  | some read => rfl

theorem scan_scalars {depth : Nat} {v : Bytes} (h : ∀ b ∈ v, isScalar b = true) (rest : Bytes) :
    scan depth .plain (v ++ rest) = (scan depth .plain rest).map (Prod.map (v ++ ·) id) := by
  induction v with
  | nil => exact (map_nil_append _).symm
  | cons b v ih =>
    obtain ⟨hb, hv⟩ := List.forall_mem_cons.mp h
    rw [List.cons_append, scan_cons_some (step_of_isScalar hb), ih hv, Option.map_map]
    rfl

theorem isRaw_scalars {v : Bytes} (hne : v ≠ []) (h : ∀ b ∈ v, isScalar b = true) : IsRaw v := by
  obtain ⟨b, tail, rfl⟩ := List.exists_cons_of_ne_nil hne
  have hb := h b List.mem_cons_self
  have hkinds := hb
  simp only [isScalar, Bool.and_eq_true, Bool.not_eq_true', decide_eq_true_eq] at hkinds
  refine ⟨fun rest hrest => ?_, fun _ _ rest => scan_scalars h rest, b, tail, rfl, ?_, ?_⟩
  · obtain ⟨htake, hdrop⟩ : (b :: tail ++ rest).takeWhile isScalar = b :: tail ∧
        (b :: tail ++ rest).dropWhile isScalar = rest := by
      rw [List.takeWhile_append_of_pos h, List.dropWhile_append_of_pos h]
      cases rest with
      | nil => simp
      | cons c rest => simp [hrest c rfl]
    rw [List.cons_append] at htake hdrop ⊢
    rw [rawValue, htake, hdrop]
    simp [hkinds, hb]
  · exact hkinds.1.1.1.1.1
  · exact hkinds.2

/-- A value that is begun by a bracket or a quote, and ends by itself. -/
theorem isRaw_scanned {b : UInt8} {depth : Nat} {mode : Mode} {v : Bytes}
    (hbegin : ∀ input, rawValue (b :: input) = (scan depth mode input).map (Prod.map (b :: ·) id))
    (hstep : ∀ k, step k .plain b = some (depth + k, mode)) (hplain : mode = .plain → 0 < depth)
    (hspace : isSpace b = false) (hclosing : isClosing b = false)
    {input rest : Bytes} (h : scan depth mode input = some (v, rest)) : IsRaw (b :: v) := by
  obtain ⟨hagain, hinner⟩ := scan_spec hplain h
  refine ⟨fun rest' _ => ?_, fun k hk rest' => ?_, b, v, rfl, hspace, hclosing⟩
  · rw [List.cons_append, hbegin, hagain]
    rfl
  · rw [List.cons_append, scan_cons_some (hstep k)]
    rw [hinner k hk, Option.map_map]
    rfl

/-- **A value is found again wherever it is written.** -/
theorem rawValue_spec {input v rest : Bytes} (h : rawValue input = some (v, rest)) : IsRaw v := by
  cases input with
  | nil => cases h
  | cons b input =>
    by_cases hquote : b = 0x22
    · subst hquote
      rw [rawValue, if_pos rfl, Option.map_eq_some_iff] at h
      obtain ⟨⟨w, rest⟩, hscan, heq⟩ := h
      cases heq
      exact isRaw_scanned (fun _ => rfl) (fun k => by rw [Nat.zero_add]; rfl) (by simp) rfl rfl
        hscan
    by_cases hopening : isOpening b = true
    · have hkinds : isSpace b = false ∧ isClosing b = false := by
        simp only [isOpening, Bool.or_eq_true, decide_eq_true_eq] at hopening
        rcases hopening with rfl | rfl <;> exact ⟨rfl, rfl⟩
      have hbegin (input : Bytes) :
          rawValue (b :: input) = (scan 1 .plain input).map (Prod.map (b :: ·) id) := by
        rw [rawValue, if_neg hquote, if_pos hopening]
      have hstep (k : Nat) : step k .plain b = some (1 + k, .plain) := by
        simp [step, hquote, hopening, Nat.add_comm]
      rw [hbegin, Option.map_eq_some_iff] at h
      obtain ⟨⟨w, rest⟩, hscan, heq⟩ := h
      cases heq
      exact isRaw_scanned hbegin hstep (fun _ => Nat.one_pos) hkinds.1 hkinds.2 hscan
    · rw [rawValue] at h
      split_ifs at h with hscalar
      obtain ⟨rfl, -⟩ := Prod.mk.inj (Option.some.inj h)
      refine isRaw_scalars ?_ fun c hc => List.mem_takeWhile_imp hc
      rw [List.takeWhile_cons_of_pos hscalar]
      exact List.cons_ne_nil _ _

/-! ## What is read -/

theorem sequence_spec {α : Type} {close : UInt8} {item} {n : Nat}
    {input rest : Bytes} {xs : List α} (h : sequence close item n input = some (xs, rest)) :
    xs.length ≤ n ∧ ∀ x ∈ xs, ∃ before after, item before = some (x, after) := by
  induction n generalizing input xs with
  | zero => cases h
  | succ n ih =>
    rw [sequence, Option.bind_eq_some_iff] at h
    obtain ⟨⟨x, after⟩, hitem, h⟩ := h
    simp only at h
    split at h
    · cases h
    · split_ifs at h
      · rw [Option.map_eq_some_iff] at h
        obtain ⟨⟨ys, after'⟩, hrest, heq⟩ := h
        cases heq
        obtain ⟨hlength, hmem⟩ := ih hrest
        exact ⟨Nat.succ_le_succ hlength, List.forall_mem_cons.mpr ⟨⟨_, _, hitem⟩, hmem⟩⟩
      · cases h
        exact ⟨Nat.succ_le_succ (Nat.zero_le n), by simpa using ⟨_, _, hitem⟩⟩

/-- The values of an array are values, at most one for each byte. -/
theorem rawArray_spec {input rest : Bytes} {items : List Bytes}
    (h : rawArray input = some (items, rest)) :
    items.length ≤ input.length ∧ ∀ v ∈ items, IsRaw v := by
  rw [rawArray, bracketed] at h
  cases hskip : skipSpace input with
  | nil =>
    rw [hskip] at h
    cases h
  | cons b tail =>
    have hlength : tail.length < input.length := by
      have hle := (List.dropWhile_sublist (p := isSpace) (l := input)).length_le
      rw [skipSpace] at hskip
      rw [hskip] at hle
      exact hle
    rw [hskip] at h
    simp only at h
    split_ifs at h
    · cases h
      simp
    · obtain ⟨hcount, hmem⟩ := sequence_spec h
      refine ⟨Nat.le_trans hcount (Nat.le_of_lt hlength), fun v hv => ?_⟩
      obtain ⟨before, after, hread⟩ := hmem v hv
      exact rawValue_spec hread

/-! ## Joined values are read back -/

section Join

variable {α : Type} {close : UInt8} {item : Bytes → Option (α × Bytes)} {render : α → Bytes}

theorem skipSpace_cons {b : UInt8} (h : isSpace b = false) (rest : Bytes) :
    skipSpace (b :: rest) = b :: rest := List.dropWhile_cons_of_neg (by simp [h])

/-- The item is read back in front of a comma and in front of the closing bracket. -/
structure ReadsBack (close : UInt8) (item : Bytes → Option (α × Bytes)) (x : α) (text : Bytes) :
    Prop where
  item : ∀ b rest, b = 0x2c ∨ b = close → item (text ++ b :: rest) = some (x, b :: rest)
  head : ∃ b tail, text = b :: tail ∧ isSpace b = false ∧ b ≠ close

theorem ReadsBack.skipSpace {x : α} {text : Bytes} (h : ReadsBack close item x text)
    (rest : Bytes) : JsonText.skipSpace (text ++ rest) = text ++ rest := by
  obtain ⟨b, tail, rfl, hspace, -⟩ := h.head
  exact skipSpace_cons hspace _

theorem sequence_join (hspace : isSpace close = false) (hcomma : close ≠ 0x2c) {xs : List α}
    (hne : xs ≠ []) (h : ∀ x ∈ xs, ReadsBack close item x (render x)) {n : Nat} (hn : xs.length ≤ n)
    (rest : Bytes) : sequence close item n ([0x2c].intercalate (xs.map render) ++ close :: rest) =
      some (xs, rest) := by
  induction xs generalizing n with
  | nil => exact absurd rfl hne
  | cons x xs ih =>
    obtain ⟨n, rfl⟩ := Nat.exists_eq_add_one_of_ne_zero (Nat.ne_of_gt (Nat.lt_of_lt_of_le
      (Nat.succ_pos xs.length) hn))
    obtain ⟨hx, hxs⟩ := List.forall_mem_cons.mp h
    cases xs with
    | nil =>
      rw [sequence, List.map_singleton, List.intercalate_singleton, hx.skipSpace,
        hx.item close rest (Or.inr rfl)]
      simp [skipSpace_cons hspace, hcomma]
    | cons y ys =>
      have hrest := ih (by simp) hxs (Nat.le_of_succ_le_succ hn)
      rw [List.map_cons, List.intercalate_cons_of_ne_nil (by simp), List.append_assoc,
        List.append_assoc, List.singleton_append, sequence, hx.skipSpace,
        hx.item 0x2c _ (Or.inl rfl)]
      simp only [Option.bind_some, skipSpace_cons (rfl : isSpace 0x2c = false), hrest]
      rfl

theorem length_le_join {xs : List α} (h : ∀ x ∈ xs, render x ≠ []) :
    xs.length ≤ ([0x2c].intercalate (xs.map render)).length := by
  induction xs with
  | nil => exact Nat.zero_le _
  | cons x xs ih =>
    obtain ⟨hne, hxs⟩ := List.forall_mem_cons.mp h
    have hx := List.length_pos_iff.mpr hne
    have hrest := ih hxs
    cases xs with
    | nil => simpa [Nat.succ_le_iff] using hx
    | cons y ys =>
      rw [List.map_cons, List.intercalate_cons_of_ne_nil (by simp)]
      simp only [List.length_append, List.length_cons] at hrest ⊢
      omega

/-- Items between brackets are read back. -/
theorem bracketed_join {opening : UInt8} (hopening : isSpace opening = false)
    (hspace : isSpace close = false) (hcomma : close ≠ 0x2c) {xs : List α}
    (h : ∀ x ∈ xs, ReadsBack close item x (render x)) (rest : Bytes) : bracketed close item opening
      (opening :: [0x2c].intercalate (xs.map render) ++ close :: rest) = some (xs, rest) := by
  rw [bracketed, List.cons_append, skipSpace_cons hopening]
  cases xs with
  | nil =>
    have hskip : skipSpace ([0x2c].intercalate (([]).map render) ++ close :: rest) =
        close :: rest := skipSpace_cons hspace rest
    simp only [if_true, hskip, List.head?_cons, List.tail_cons]
  | cons x xs =>
    obtain ⟨b, tail, hx, hbspace, hbclose⟩ := (h x List.mem_cons_self).head
    -- the first byte is that of the first item
    obtain ⟨more, hfirst⟩ : ∃ more, [0x2c].intercalate ((x :: xs).map render) = b :: more := by
      cases xs with
      | nil => exact ⟨tail, by simpa using hx⟩
      | cons y ys =>
        rw [List.map_cons, hx]
        exact ⟨_, rfl⟩
    have hlength : (x :: xs).length ≤
        ([0x2c].intercalate ((x :: xs).map render) ++ close :: rest).length := by
      rw [List.length_append]
      refine Nat.le_trans (length_le_join fun y hy => ?_) (Nat.le_add_right _ _)
      obtain ⟨c, more, hy, -⟩ := (h y hy).head
      simp [hy]
    have hsequence := sequence_join hspace hcomma (List.cons_ne_nil x xs) h hlength rest
    simp only [if_true]
    rw [if_neg]
    · exact hsequence
    · rw [hfirst, List.cons_append, skipSpace_cons hbspace]
      simpa using hbclose

end Join

theorem not_isScalar_of_comma_or_closing {b close : UInt8} (hclose : isClosing close = true)
    (h : b = 0x2c ∨ b = close) : isScalar b = false := by
  rcases h with rfl | rfl
  · rfl
  · simp [isScalar, hclose]

theorem IsRaw.readsBack {v : Bytes} (h : IsRaw v) {close : UInt8}
    (hclose : isClosing close = true) :
    ReadsBack close rawValue v v := by
  obtain ⟨b, tail, hv, hspace, hbclosing⟩ := h.head
  refine ⟨fun b rest hb => h.value _ ?_, b, tail, hv, hspace, ?_⟩
  · intro c hc
    cases hc
    exact not_isScalar_of_comma_or_closing hclose hb
  · rintro rfl
    rw [hclose] at hbclosing
    cases hbclosing

/-- The values of an array are read back. -/
theorem rawArray_join {items : List Bytes} (h : ∀ v ∈ items, IsRaw v) (rest : Bytes) :
    rawArray (0x5b :: [0x2c].intercalate items ++ 0x5d :: rest) = some (items, rest) := by
  have hread : ∀ v ∈ items, ReadsBack 0x5d rawValue v (id v) := fun v hv =>
    (h v hv).readsBack rfl
  have hjoin := @bracketed_join _ _ _ _ 0x5b rfl rfl (by decide) _ hread rest
  rwa [List.map_id] at hjoin

/-- A key and a value with a colon between them. -/
def member (pair : Bytes × Bytes) : Bytes := pair.1 ++ 0x3a :: pair.2

theorem rawMember_readsBack {pair} (hkey : IsRaw pair.1) (hvalue : IsRaw pair.2) :
    ReadsBack 0x7d rawMember pair (member pair) := by
  obtain ⟨b, tail, hkeyText, hspace, hclosing⟩ := hkey.head
  obtain ⟨c, more, hvalueText, hvalueSpace, -⟩ := hvalue.head
  refine ⟨fun b rest hb => ?_, b, tail ++ 0x3a :: pair.2, ?_, hspace, ?_⟩
  · have hskip : skipSpace (pair.2 ++ b :: rest) = pair.2 ++ b :: rest := by
      rw [hvalueText]
      exact skipSpace_cons hvalueSpace _
    have hcolon : ∀ d ∈ (0x3a :: (pair.2 ++ b :: rest)).head?, isScalar d = false := by
      intro d hd
      cases hd
      rfl
    have hfollow : ∀ d ∈ (b :: rest).head?, isScalar d = false := by
      intro d hd
      cases hd
      exact not_isScalar_of_comma_or_closing rfl hb
    rw [member, List.append_assoc, List.cons_append, rawMember, hkey.value _ hcolon]
    simp [skipSpace_cons (rfl : isSpace 0x3a = false), hskip,
      hvalue.value _ hfollow]
  · rw [member, hkeyText, List.cons_append]
  · rintro rfl
    cases hclosing

/-- The members of an object are read back. -/
theorem rawObject_join {members : List (Bytes × Bytes)}
    (h : ∀ pair ∈ members, IsRaw pair.1 ∧ IsRaw pair.2) (rest : Bytes) :
    rawObject (0x7b :: [0x2c].intercalate (members.map member) ++ 0x7d :: rest) =
      some (members, rest) :=
  bracketed_join rfl rfl (by decide) (fun pair hpair => rawMember_readsBack (h pair hpair).1
    (h pair hpair).2) rest

/-- Texts that are passed over inside of brackets are passed over when they are joined. -/
theorem scan_joined {texts : List Bytes}
    (h : ∀ text ∈ texts, ∀ depth : Nat, 0 < depth → ∀ rest : Bytes,
      scan depth .plain (text ++ rest) = (scan depth .plain rest).map (Prod.map (text ++ ·) id))
    {depth : Nat} (hdepth : 0 < depth) (rest : Bytes) :
    scan depth .plain ([0x2c].intercalate texts ++ rest) =
      (scan depth .plain rest).map (Prod.map ([0x2c].intercalate texts ++ ·) id) := by
  induction texts with
  | nil => exact (map_nil_append _).symm
  | cons v texts ih =>
    obtain ⟨hv, hrest⟩ := List.forall_mem_cons.mp h
    cases texts with
    | nil =>
      rw [List.intercalate_singleton]
      exact hv depth hdepth rest
    | cons w texts =>
      rw [List.intercalate_cons_of_ne_nil (by simp), List.append_assoc, List.append_assoc,
        hv depth hdepth, List.singleton_append,
        scan_cons_some (rfl), ih hrest, Option.map_map,
          Option.map_map]
      simp only [List.append_assoc]
      rfl

/-- An array of values is a value. -/
theorem isRaw_array {items : List Bytes} (h : ∀ v ∈ items, IsRaw v) :
    IsRaw (0x5b :: [0x2c].intercalate items ++ [0x5d]) := by
  have hread : rawValue (0x5b :: [0x2c].intercalate items ++ [0x5d]) =
      some (0x5b :: [0x2c].intercalate items ++ [0x5d], []) := by
    rw [List.cons_append]
    show (scan 1 .plain _).map _ = _
    rw [scan_joined (fun v hv => (h v hv).inner) Nat.one_pos]
    rfl
  exact rawValue_spec hread

end JsonText
