import EmbyAuto.Domain.Text
import EmbyAuto.JsonText.Scan
import EmbyAuto.Validation.Loop

/-!
# Lists that an agent reads in pages

A tool that answers a list longer than one tool result may be is given in pages. The pages are
written when the tool is built; each one but the last names the offset of the next one.

## Main definitions

* `pagedStaticAgentTool`: the tool over the items of an encoded array
* `PagedTool.execute`: a call of the tool
* `readPages`: a reader who starts without an offset and follows `nextOffset`

## Main results

* `packPages_spec`: what the packing loop writes
* `paged_tool_reads_all`: the reader sees every item once, in order, in as many calls as announced
-/

namespace EmbyAuto

open JsonText Validation

/-- `agentapi.MaxToolResultBytes`. -/
def maxToolResultBytes : Nat := 64 * 2 ^ 10

/-- `strconv.AppendInt` of a length or an offset. -/
def decimalBytes (n : Nat) : Bytes := (Nat.toDigits 10 n).map Char.toUInt8

def isDigitByte (b : UInt8) : Bool := 0x30 ≤ b && b ≤ 0x39

/-- The number of a list of digits. -/
def digitsValue (digits : Bytes) : Nat :=
  Nat.ofDigitChars 10 (digits.map fun b => Char.ofNat b.toNat) 0

/-! ## Building the tool -/

/-- The items of a page with the bytes used so far, and the items behind it. -/
def packPage : Nat → List Bytes → List Bytes × List Bytes
  | _, [] => ([], [])
  | used, item :: items =>
    -- room is kept for the offset, the total and the JSON around the items
    if used + item.length + 1 ≤ maxToolResultBytes - 256 then
      let (page, rest) := packPage (used + item.length + 1) items
      (item :: page, rest)
    else ([], item :: items)

def pageData (items : List Bytes) (total : Nat) (next : Option Nat) : Bytes :=
  ascii "\x7b\"items\":[" ++ [0x2c].intercalate items ++ ascii "],\"total\":" ++
    decimalBytes total ++
    (match next with
      | none => []
      | some next => ascii ",\"nextOffset\":" ++ decimalBytes next) ++
    ascii "\x7d"

/-- The offset of the page behind a group of items, unless it is the last one. -/
def nextOffset (total offset : Nat) (group : List Bytes) : Option Nat :=
  if offset + group.length < total then some (offset + group.length) else none

/-- The loop over the pages from an offset on, with the items from there on. -/
def packPages (total : Nat) : Nat → Nat → List Bytes → Option (List (Nat × Bytes))
  | _, _, [] => some []
  | 0, _, _ :: _ => none
  | fuel + 1, offset, items =>
    let (page, rest) := packPage 0 items
    let data := pageData page total (nextOffset total offset page)
    if page = [] then none
    else if data.length > maxToolResultBytes then none
    else (packPages total fuel (offset + page.length) rest).map ((offset, data) :: ·)

/-- The tool of a list: its definition, and the pages that its calls answer. -/
structure PagedTool where
  name : String
  description : String
  /-- The values that the parameter `offset` may have. -/
  offsets : List Nat
  pages : List (Nat × Bytes)

namespace PagedTool

/-- `MinimumReadSteps`: the number of keys of the map of pages. -/
def minimumReadSteps (tool : PagedTool) : Nat := (tool.pages.map Prod.fst).dedup.length

/-- `json.Unmarshal` into a pointer to an `int`. -/
def unmarshalInt (raw : Bytes) : Except String (Option Int) :=
  let digits := if raw.head? = some 0x2d then raw.tail else raw
  let value : Int := if raw.head? = some 0x2d then -digitsValue digits else digitsValue digits
  if raw = ascii "null" then .ok none
  else if digits ≠ [] ∧ digits.all isDigitByte ∧
      (digits.head? = some 0x30 → digits.length = 1) ∧
      -2 ^ 63 ≤ value ∧ value < 2 ^ 63 then .ok (some value)
  else .error "json: cannot unmarshal value into Go value of type int"

/-- The offset of a call, from the field `offset` of its arguments: no bytes without an offset. -/
def requestedOffset (raw : Bytes) : Except String Int :=
  if raw = [] then .ok 0
  else match unmarshalInt raw with
    | .error error => .error error
    | .ok none => .error "分页起点必须为整数"
    | .ok (some requested) => .ok requested

/-- A call, with what decoding its arguments gives. -/
def execute (tool : PagedTool) (arguments : Except String Bytes) : Except String Bytes := do
  let offset ← requestedOffset (← arguments)
  match tool.pages.find? fun page => (page.1 : Int) = offset with
  | none => .error "分页起点超出当前列表范围"
  | some page => .ok page.2

end PagedTool

section Build

-- whether `json.Unmarshal` accepts a text as JSON
variable (valid : Bytes → Bool)

/-- `json.Unmarshal` into a slice of raw messages. -/
def unmarshalItems (encoded : Bytes) : Option (List Bytes) :=
  if valid encoded then (rawArray encoded).map Prod.fst else none

def pagedStaticAgentTool (name description : String) (encoded : Bytes) : Option PagedTool :=
  (unmarshalItems valid encoded).bind fun items =>
    if items.length < 2 then none
    else (packPages items.length items.length 0 items).map fun pages =>
      { name
        description := description ++
          " 结果按页返回；先使用空参数，再用 offset 读取 nextOffset 指定的页，直到 nextOffset 不再出现。"
        offsets := pages.map Prod.fst
        pages }

end Build

/-! ## Reading the pages -/

/-- What a page says. -/
structure AgentPage where
  items : List Bytes
  total : Nat
  nextOffset : Option Nat
  deriving DecidableEq

/-- A number as it stands in a page. -/
def readDecimal (raw : Bytes) : Option Nat :=
  if raw ≠ [] ∧ raw.all isDigitByte then some (digitsValue raw) else none

/-- A reader of a page: the members of the object by their keys. -/
def readPage (data : Bytes) : Option AgentPage := do
  let (members, rest) ← rawObject data
  let (items, _) ← rawArray (← members.lookup (ascii "\"items\""))
  let total ← readDecimal (← members.lookup (ascii "\"total\""))
  if rest ≠ [] then none
  match members.lookup (ascii "\"nextOffset\"") with
  | none => some { items, total, nextOffset := none }
  | some raw => (readDecimal raw).map fun next => { items, total, nextOffset := some next }

/-- Calls of the tool from an offset on, each at the offset that the page before it names. -/
def readPages (tool : PagedTool) : Nat → Bytes → Option (List AgentPage)
  | 0, _ => none
  | calls + 1, offset => do
    let data ← (tool.execute (.ok offset)).toOption
    let page ← readPage data
    match page.nextOffset with
    | none => some [page]
    | some next => (readPages tool calls (decimalBytes next)).map (page :: ·)

/-- The offset of the first item of each page. -/
def pageStarts : Nat → List AgentPage → List Nat
  | _, [] => []
  | offset, page :: pages => offset :: pageStarts (offset + page.items.length) pages

/-! ## Numbers -/

theorem digit_toUInt8 {c : Char} (h : c.isDigit = true) :
    isDigitByte c.toUInt8 = true ∧ Char.ofNat c.toUInt8.toNat = c ∧
      isScalar c.toUInt8 = true := by
  have hsmall : c.toNat < 0x80 := toNat_lt_of_isAlphanum (by simp [Char.isAlphanum, h])
  revert h
  apply forall_ascii _ hsmall
  decide

theorem isDigit_of_mem_toDigits {n : Nat} {c : Char} (h : c ∈ Nat.toDigits 10 n) :
    c.isDigit = true := Nat.isDigit_of_mem_toDigits (by decide) (by decide) h

theorem decimalBytes_ne_nil (n : Nat) : decimalBytes n ≠ [] := by
  simp [decimalBytes]

theorem decimalBytes_all (n : Nat) : (decimalBytes n).all isDigitByte = true := by
  rw [List.all_eq_true]
  intro b hb
  obtain ⟨c, hc, rfl⟩ := List.mem_map.mp hb
  exact (digit_toUInt8 (isDigit_of_mem_toDigits hc)).1

theorem isRaw_decimalBytes (n : Nat) : IsRaw (decimalBytes n) := by
  refine isRaw_scalars (decimalBytes_ne_nil n) ?_
  intro b hb
  obtain ⟨c, hc, rfl⟩ := List.mem_map.mp hb
  exact (digit_toUInt8 (isDigit_of_mem_toDigits hc)).2.2

@[simp] theorem digitsValue_decimalBytes (n : Nat) : digitsValue (decimalBytes n) = n := by
  have hback : (decimalBytes n).map (fun b => Char.ofNat b.toNat) = Nat.toDigits 10 n := by
    rw [decimalBytes, List.map_map]
    show (Nat.toDigits 10 n).map (fun c => Char.ofNat c.toUInt8.toNat) = _
    rw [List.map_congr_left fun c hc => (digit_toUInt8 (isDigit_of_mem_toDigits hc)).2.1,
      List.map_id']
  rw [digitsValue, hback]
  exact Nat.ofDigitChars_toDigits (by decide) (by decide)

theorem readDecimal_decimalBytes (n : Nat) : readDecimal (decimalBytes n) = some n := by
  rw [readDecimal, if_pos ⟨decimalBytes_ne_nil n, decimalBytes_all n⟩, digitsValue_decimalBytes]

/-- Only the number zero begins with a zero. -/
theorem head_toDigits {n : Nat} (hn : 0 < n) : (Nat.toDigits 10 n).head? ≠ some '0' := by
  induction n using Nat.strongRecOn with
  | ind n ih =>
    rw [Nat.toDigits_eq_if (by decide)]
    split_ifs with hsmall
    · have htable : ∀ n < 10, 0 < n → [n.digitChar].head? ≠ some '0' := by decide
      exact htable n hsmall hn
    · rw [List.head?_append_of_ne_nil _ Nat.toDigits_ne_nil]
      exact ih (n / 10) (by omega) (by omega)

theorem decimalBytes_head {n : Nat} {b : UInt8} (h : (decimalBytes n).head? = some b) :
    isDigitByte b = true ∧ (b = 0x30 → (decimalBytes n).length = 1) := by
  obtain ⟨c, hc, rfl⟩ : ∃ c, (Nat.toDigits 10 n).head? = some c ∧ c.toUInt8 = b := by
    rwa [decimalBytes, List.head?_map, Option.map_eq_some_iff] at h
  have hdigit := digit_toUInt8 (isDigit_of_mem_toDigits (List.mem_of_mem_head? hc))
  refine ⟨hdigit.1, fun hzero => ?_⟩
  rcases Nat.eq_zero_or_pos n with rfl | hn
  · rfl
  · refine absurd ?_ (head_toDigits hn)
    rw [hc, ← hdigit.2.1, hzero]
    rfl

/-- An offset that a page names is decoded to itself. -/
theorem unmarshalInt_decimalBytes {n : Nat} (h : n < 2 ^ 63) :
    PagedTool.unmarshalInt (decimalBytes n) = .ok (some (n : Int)) := by
  have hsign : (decimalBytes n).head? ≠ some 0x2d := fun hhead => by
    cases (decimalBytes_head hhead).1
  have hnull : decimalBytes n ≠ ascii "null" := fun hnull => by
    have hall := decimalBytes_all n
    rw [hnull] at hall
    cases hall
  rw [PagedTool.unmarshalInt]
  simp only [hsign, hnull, if_false, digitsValue_decimalBytes]
  rw [if_pos ⟨decimalBytes_ne_nil n, decimalBytes_all n, fun hhead =>
    (decimalBytes_head hhead).2 rfl, by omega, by omega⟩]

/-! ## A page is read back -/

def pageMembers (items : List Bytes) (total : Nat) (next : Option Nat) : List (Bytes × Bytes) :=
  [(ascii "\"items\"", 0x5b :: [0x2c].intercalate items ++ [0x5d]),
    (ascii "\"total\"", decimalBytes total)] ++
  (next.map fun next => (ascii "\"nextOffset\"", decimalBytes next)).toList

theorem pageData_eq (items : List Bytes) (total : Nat) (next : Option Nat) :
    pageData items total next =
      0x7b :: [0x2c].intercalate ((pageMembers items total next).map member) ++ 0x7d :: [] := by
  cases next with
  | none =>
    simp [pageData, pageMembers, member, ascii]
    decide
  | some next =>
    simp [pageData, pageMembers, member, ascii]
    decide

theorem readPage_pageData {items : List Bytes} (h : ∀ v ∈ items, IsRaw v) (total : Nat)
    (next : Option Nat) :
    readPage (pageData items total next) = some { items, total, nextOffset := next } := by
  have hmembers : ∀ pair ∈ pageMembers items total next, IsRaw pair.1 ∧ IsRaw pair.2 := by
    intro pair hpair
    simp only [pageMembers, List.cons_append, List.nil_append, List.mem_cons,
      Option.mem_toList, Option.map_eq_some_iff] at hpair
    rcases hpair with rfl | rfl | ⟨next, -, rfl⟩
    · exact ⟨@rawValue_spec (ascii "\"items\"") _ [] rfl, isRaw_array h⟩
    · exact ⟨@rawValue_spec (ascii "\"total\"") _ [] rfl, isRaw_decimalBytes total⟩
    · exact ⟨@rawValue_spec (ascii "\"nextOffset\"") _ [] rfl, isRaw_decimalBytes next⟩
  have hitems : (pageMembers items total next).lookup (ascii "\"items\"") =
      some (0x5b :: [0x2c].intercalate items ++ [0x5d]) := rfl
  have htotal : (pageMembers items total next).lookup (ascii "\"total\"") =
      some (decimalBytes total) := rfl
  have harray : rawArray (0x5b :: [0x2c].intercalate items ++ [0x5d]) = some (items, []) :=
    rawArray_join h []
  rw [readPage, pageData_eq, rawObject_join hmembers]
  simp only [Option.bind_eq_bind, Option.bind_some, hitems, htotal, harray,
    readDecimal_decimalBytes]
  cases next with
  | none => rfl
  | some next =>
    have hnext : (pageMembers items total (some next)).lookup (ascii "\"nextOffset\"") =
        some (decimalBytes next) := rfl
    simp only [hnext, readDecimal_decimalBytes]
    rfl

/-! ## Packing -/

theorem packPage_append (used : Nat) (items : List Bytes) :
    (packPage used items).1 ++ (packPage used items).2 = items := by
  induction items generalizing used with
  | nil => rfl
  | cons item items ih =>
    rw [packPage]
    split_ifs
    · exact congrArg (item :: ·) (ih _)
    · rfl

/-- The pages of groups of items, from an offset on. -/
def layout (total : Nat) : Nat → List (List Bytes) → List (Nat × Bytes)
  | _, [] => []
  | offset, group :: groups =>
    (offset, pageData group total (nextOffset total offset group)) ::
      layout total (offset + group.length) groups

/-- **What the packing loop writes**: the items in order, in groups that are not empty. -/
theorem packPages_spec {total fuel offset : Nat} {items : List Bytes} {pages}
    (h : packPages total fuel offset items = some pages) :
    ∃ groups, groups.flatten = items ∧ (∀ group ∈ groups, group ≠ []) ∧
      pages = layout total offset groups ∧
      ∀ page ∈ pages, page.2.length ≤ maxToolResultBytes := by
  induction fuel generalizing offset items pages with
  | zero =>
    cases items with
    | nil => exact ⟨[], rfl, by simp, (Option.some.inj h).symm, by simp [← Option.some.inj h]⟩
    | cons item items => cases h
  | succ fuel ih =>
    cases items with
    | nil => exact ⟨[], rfl, by simp, (Option.some.inj h).symm, by simp [← Option.some.inj h]⟩
    | cons item items =>
      simp only [packPages] at h
      split_ifs at h with hempty hlong
      · rw [Option.map_eq_some_iff] at h
        obtain ⟨rest, hrest, rfl⟩ := h
        obtain ⟨groups, hflatten, hgroups, hlayout, hsize⟩ := ih hrest
        refine ⟨(packPage 0 (item :: items)).1 :: groups, ?_, ?_, ?_, ?_⟩
        · rw [List.flatten_cons, hflatten, packPage_append]
        · exact List.forall_mem_cons.mpr ⟨hempty, hgroups⟩
        · rw [hlayout]
          rfl
        · exact List.forall_mem_cons.mpr ⟨Nat.le_of_not_lt hlong, hsize⟩

/-! ## Calls -/

variable {tool : PagedTool}

section Calls

variable {total : Nat}

theorem layout_keys {offset : Nat} {groups} (h : ∀ group ∈ groups, group ≠ []) :
    (∀ key ∈ (layout total offset groups).map Prod.fst, offset ≤ key) ∧
      ((layout total offset groups).map Prod.fst).Nodup := by
  induction groups generalizing offset with
  | nil => simp [layout]
  | cons group groups ih =>
    obtain ⟨hle, hnodup⟩ := @ih (offset + group.length) (List.forall_mem_cons.mp h).2
    have hgroup := List.length_pos_iff.mpr (List.forall_mem_cons.mp h).1
    refine ⟨?_, List.nodup_cons.mpr ⟨fun hmem => ?_, hnodup⟩⟩
    · refine List.forall_mem_cons.mpr ⟨Nat.le_refl _, fun key hkey => ?_⟩
      exact Nat.le_trans (Nat.le_add_right _ _) (hle key hkey)
    · have := hle _ hmem
      omega

/-- The page at the offset behind some groups. -/
theorem find?_layout {offset : Nat} {front} {group : List Bytes}
    {groups} (h : ∀ g ∈ front, g ≠ []) :
    (layout total offset (front ++ group :: groups)).find? (fun page =>
        decide ((page.1 : Int) = (offset + front.flatten.length : Nat))) =
      some (offset + front.flatten.length, pageData group total
        (nextOffset total (offset + front.flatten.length) group)) := by
  induction front generalizing offset with
  | nil => simp [layout]
  | cons first front ih =>
    have hfirst := List.length_pos_iff.mpr (List.forall_mem_cons.mp h).1
    have hrest := @ih (offset + first.length) (List.forall_mem_cons.mp h).2
    rw [List.cons_append, layout, List.find?_cons_of_neg]
    · rw [List.flatten_cons, List.length_append, ← Nat.add_assoc]
      exact hrest
    · rw [decide_eq_true_eq, List.flatten_cons, List.length_append]
      omega

/-- The pages that a reader of groups sees. -/
def groupPages (total : Nat) : Nat → List (List Bytes) → List AgentPage
  | _, [] => []
  | offset, group :: groups =>
    { items := group, total, nextOffset := nextOffset total offset group } ::
      groupPages total (offset + group.length) groups

theorem groupPages_items (offset : Nat) (groups : List (List Bytes)) :
    (groupPages total offset groups).flatMap AgentPage.items = groups.flatten := by
  induction groups generalizing offset with
  | nil => rfl
  | cons group groups ih => rw [groupPages, List.flatMap_cons, ih, List.flatten_cons]

theorem pageStarts_groupPages (offset : Nat) (groups : List (List Bytes)) :
    pageStarts offset (groupPages total offset groups) =
      (layout total offset groups).map Prod.fst := by
  induction groups generalizing offset with
  | nil => rfl
  | cons group groups ih => rw [groupPages, pageStarts, ih, layout, List.map_cons]

theorem length_groupPages (offset : Nat) (groups : List (List Bytes)) :
    (groupPages total offset groups).length = groups.length := by
  induction groups generalizing offset with
  | nil => rfl
  | cons group groups ih => rw [groupPages, List.length_cons, List.length_cons, ih]

theorem length_layout (offset : Nat) (groups : List (List Bytes)) :
    (layout total offset groups).length = groups.length := by
  induction groups generalizing offset with
  | nil => rfl
  | cons group groups ih => rw [layout, List.length_cons, List.length_cons, ih]

/-- **The reader goes through the groups.** The groups in front have been read. -/
theorem readPages_groups {front groups} {raw : Bytes}
    (hpages : tool.pages = layout total 0 (front ++ groups))
    (hgroups : ∀ group ∈ front ++ groups, group ≠ [])
    (hraw : ∀ v ∈ (front ++ groups).flatten, IsRaw v)
    (htotal : (front ++ groups).flatten.length = total) (hsmall : total < 2 ^ 63)
    (hne : groups ≠ [])
    (hoffset : PagedTool.requestedOffset raw = .ok (front.flatten.length : Int)) :
    readPages tool groups.length raw = some (groupPages total front.flatten.length groups) := by
  -- on the groups that are left; those before them give the offset of the call
  induction groups generalizing front raw with
  | nil => exact absurd rfl hne
  | cons group groups ih =>
    have hfind := @find?_layout total 0 front group groups
      fun g hg => hgroups g (List.mem_append_left _ hg)
    rw [← hpages, Nat.zero_add] at hfind
    have hread : readPage (pageData group total
        (nextOffset total front.flatten.length group)) = some _ := readPage_pageData
      (fun v hv => hraw v (by simp [hv])) total _
    have hlength : front.flatten.length + group.length + groups.flatten.length = total := by
      rw [← htotal]
      simp [Nat.add_assoc]
    rw [List.length_cons, readPages]
    simp only [PagedTool.execute, bind, Except.bind, hoffset, hfind, Except.toOption,
      Option.bind_some, hread]
    cases groups with
    | nil =>
      have hlast : nextOffset total front.flatten.length group = none :=
        if_neg (by
          rw [List.flatten_nil, List.length_nil] at hlength
          omega)
      simp only [hlast, groupPages]
    | cons second groups =>
      have hsecond := List.length_pos_iff.mpr (hgroups second (by simp))
      have hnext : nextOffset total front.flatten.length group =
          some (front.flatten.length + group.length) := if_pos (by
        rw [List.flatten_cons, List.length_append] at hlength
        omega)
      -- the offset that the page names is the one that the next call asks for
      have hmore := @ih (front ++ [group]) (decimalBytes (front.flatten.length + group.length))
        (by rw [hpages]; simp) (by simpa using hgroups) (by simpa using hraw)
        (by simpa using htotal) (by simp) (by
          rw [PagedTool.requestedOffset, if_neg (decimalBytes_ne_nil _),
            unmarshalInt_decimalBytes (by omega)]
          simp)
      simp only [hnext, hmore, groupPages]
      simp

end Calls

/-! ## The tool -/

theorem minimumReadSteps_layout {total : Nat} {groups} (hpages : tool.pages = layout total 0 groups)
    (h : ∀ group ∈ groups, group ≠ []) : tool.minimumReadSteps = groups.length := by
  rw [PagedTool.minimumReadSteps, hpages, (layout_keys h).2.dedup, List.length_map, length_layout]

/-- An offset that begins no page is refused. -/
theorem execute_of_not_start {raw : Bytes} (hne : raw ≠ [])
    (h : ∀ start ∈ tool.pages.map Prod.fst, PagedTool.unmarshalInt raw ≠ .ok (some (start : Int))) :
    ∃ error, tool.execute (.ok raw) = .error error := by
  simp only [PagedTool.execute, bind, Except.bind, PagedTool.requestedOffset, if_neg hne]
  cases hint : PagedTool.unmarshalInt raw with
  | error error => exact ⟨error, rfl⟩
  | ok value =>
    cases value with
    | none => exact ⟨_, rfl⟩
    | some offset =>
      have hfind : tool.pages.find? (fun page => decide ((page.1) = offset)) = none := by
        rw [List.find?_eq_none]
        intro page hpage heq
        refine h page.1 (List.mem_map_of_mem hpage) ?_
        rw [hint, of_decide_eq_true heq]
      exact ⟨"分页起点超出当前列表范围", by simp [hfind]⟩

/-- **A reader sees every item.** -/
theorem paged_tool_reads_all {valid : Bytes → Bool} {name description : String} {encoded : Bytes}
    {tool : PagedTool} (hlength : encoded.length < 2 ^ 63)
    (h : pagedStaticAgentTool valid name description encoded = some tool) :
    ∃ items pages, unmarshalItems valid encoded = some items ∧
      readPages tool tool.minimumReadSteps [] = some pages ∧
      pages.length = tool.minimumReadSteps ∧
      pages.flatMap AgentPage.items = items ∧
      tool.offsets = pageStarts 0 pages ∧
      (∀ arguments data, tool.execute arguments = .ok data →
        data.length ≤ maxToolResultBytes) ∧
      ∀ raw, raw ≠ [] →
        (∀ start ∈ pageStarts 0 pages,
          PagedTool.unmarshalInt raw ≠ .ok (some (start : Int))) →
        ∃ error, tool.execute (.ok raw) = .error error := by
  rw [pagedStaticAgentTool, Option.bind_eq_some_iff] at h
  obtain ⟨items, hitems, h⟩ := h
  split_ifs at h with hfew
  rw [Option.map_eq_some_iff] at h
  obtain ⟨pages, hpack, rfl⟩ := h
  obtain ⟨groups, hflatten, hgroups, rfl, hsize⟩ := packPages_spec hpack
  obtain ⟨hcount, hraw⟩ : items.length ≤ encoded.length ∧ ∀ v ∈ items, IsRaw v := by
    obtain ⟨-, hread⟩ := Option.ite_none_right_eq_some.mp hitems
    obtain ⟨_, hraw, rfl⟩ := Option.map_eq_some_iff.mp hread
    exact rawArray_spec hraw
  have hne : groups ≠ [] := by
    rintro rfl
    rw [← hflatten] at hfew
    exact hfew (by decide)
  refine ⟨items, groupPages items.length 0 groups, hitems, ?_, ?_, ?_, ?_, ?_, ?_⟩
  · rw [minimumReadSteps_layout rfl hgroups]
    exact @readPages_groups _ _ [] groups [] rfl hgroups (by simpa [hflatten] using hraw)
      (by simp [hflatten]) (Nat.lt_of_le_of_lt hcount hlength) hne rfl
  · rw [minimumReadSteps_layout rfl hgroups, length_groupPages]
  · rw [groupPages_items, hflatten]
  · exact (pageStarts_groupPages 0 groups).symm
  · intro arguments data hexecute
    obtain ⟨raw, -, hexecute⟩ := bind_ok_iff.mp hexecute
    obtain ⟨offset, -, hexecute⟩ := bind_ok_iff.mp hexecute
    split at hexecute
    · cases hexecute
    · next page hfind =>
      rw [← Except.ok.inj hexecute]
      exact hsize page (List.mem_of_find?_eq_some hfind)
  · intro raw hrawne hstart
    rw [pageStarts_groupPages] at hstart
    exact execute_of_not_start hrawne hstart

theorem length_two_lt {item : Bytes} (hshort : item.length ≤ 65000) :
    (0x5b :: [0x2c].intercalate [item, item] ++ [0x5d]).length < 2 ^ 63 := by
  have hlength : (0x5b :: [0x2c].intercalate [item, item] ++ [0x5d]).length =
      2 * item.length + 3 := by
    simp
    omega
  omega

/-- Two items that do not fit on one page get a page each. -/
theorem packPages_two {item : Bytes} (hlong : 32768 ≤ item.length) (hshort : item.length ≤ 65000) :
    packPages 2 2 0 [item, item] = some (layout 2 0 [[item], [item]]) := by
  have hroom : maxToolResultBytes - 256 = 65280 := rfl
  have hfirst : packPage 0 [item, item] = ([item], [item]) := by
    rw [packPage, hroom, if_pos (by omega), packPage, hroom, if_neg (by omega)]
  have hsecond : packPage 0 [item] = ([item], []) := by
    rw [packPage, hroom, if_pos (by omega), packPage]
  have hsize (next : Option Nat) (hnext : ∀ n ∈ next, n = 1) :
      ¬ (pageData [item] 2 next).length > maxToolResultBytes := by
    have htwo : decimalBytes 2 = [0x32] := rfl
    have hdigit : decimalBytes 1 = [0x31] := rfl
    have hdata : (pageData [item] 2 next).length ≤ item.length + 40 := by
      cases next with
      | none => simp [pageData, ascii, htwo]
      | some n =>
        cases hnext n rfl
        simp [pageData, ascii, htwo, hdigit]
    have hmax : maxToolResultBytes = 65536 := rfl
    omega
  have hone : nextOffset 2 0 [item] = some 1 := rfl
  have hnone : nextOffset 2 1 [item] = none := rfl
  simp only [packPages, hfirst, hsecond, List.length_singleton, Nat.zero_add, hone, hnone,
    hsize (some 1) (by simp), hsize none (by simp), List.cons_ne_nil, if_false, Option.map_some,
    layout]

/-- A number of 40000 digits. -/
def longNumber : Bytes := List.replicate 40000 0x31

/-- The reader follows `nextOffset` to the second page. -/
theorem paged_tool_of_two :
    ∃ tool, pagedStaticAgentTool (fun _ => true) "list" ""
        (0x5b :: [0x2c].intercalate [longNumber, longNumber] ++ [0x5d]) = some tool ∧
      tool.minimumReadSteps = 2 ∧
      ∃ first second, readPages tool 2 [] = some [first, second] ∧
        first.items ++ second.items = [longNumber, longNumber] := by
  have hlength : longNumber.length = 40000 := List.length_replicate
  have hraw : IsRaw longNumber := by
    refine isRaw_scalars (List.ne_nil_of_length_pos (by rw [hlength]; decide)) fun b hb => ?_
    rw [List.eq_of_mem_replicate hb]
    rfl
  generalize longNumber = item at hlength hraw ⊢
  have hitems : unmarshalItems (fun _ => true)
      (0x5b :: [0x2c].intercalate [item, item] ++ [0x5d]) = some [item, item] := by
    have hall : ∀ v ∈ [item, item], IsRaw v := by simp [hraw]
    rw [unmarshalItems, if_pos rfl, rawArray_join hall []]
    rfl
  have hpack : packPages 2 2 0 [item, item] = _ := packPages_two (by omega) (by omega)
  obtain ⟨tool, htool, hpages⟩ : ∃ tool, pagedStaticAgentTool (fun _ => true) "list" ""
      (0x5b :: [0x2c].intercalate [item, item] ++ [0x5d]) = some tool ∧
      tool.pages = layout 2 0 [[item], [item]] := by
    rw [pagedStaticAgentTool, hitems, Option.bind_some, if_neg (by simp)]
    exact ⟨_, congrArg (Option.map _) hpack, rfl⟩
  have hsteps : tool.minimumReadSteps = 2 := minimumReadSteps_layout hpages (by simp)
  obtain ⟨items, pages, hdecoded, hread, hcount, hflat, -⟩ := paged_tool_reads_all
    (length_two_lt (by omega)) htool
  rw [hsteps] at hread hcount
  obtain ⟨first, second, rfl⟩ := List.length_eq_two.mp hcount
  refine ⟨tool, htool, hsteps, first, second, hread, ?_⟩
  obtain rfl := Option.some.inj (hitems.symm.trans hdecoded)
  simpa using hflat

end EmbyAuto
