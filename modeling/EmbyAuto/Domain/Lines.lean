import EmbyAuto.Domain.Text

/-!
# Lines of a text

`bufio.Scanner` reads a text line by line: it cuts at every line feed, drops one carriage return
at the end of a line, and stops with an error at a line that does not fit its buffer.

## Main definitions

* `scanLines`: the lines that a scanner with the given limit returns
* `unlines`: the text of lines that are written one after the other

## Main results

* `rawLines_unlines`: written lines are read back
-/

namespace EmbyAuto

/-- The length of the UTF-8 encoding. -/
def utf8Length (text : Runes) : Nat := (text.map Char.utf8Size).sum

/-- The text between line feeds; nothing follows the last one. -/
def rawLines (text : Runes) : List Runes :=
  let pieces := text.splitOn '\n'
  if pieces.getLast? = some [] then pieces.dropLast else pieces

/-- Drops one carriage return at the end. -/
def dropCarriage (line : Runes) : Runes :=
  if line.getLast? = some '\r' then line.dropLast else line

/-- The lines of a scanner, up to the first that does not fit, and whether there is one. -/
def scanLines (limit : Nat) (text : Runes) : List Runes × Bool :=
  ((rawLines text).takeWhile (fun line => utf8Length line < limit) |>.map dropCarriage,
    (rawLines text).any fun line => limit ≤ utf8Length line)

/-- Writes each line with a line feed. -/
def unlines (lines : List Runes) : Runes := lines.flatMap fun line => line ++ ['\n']

@[simp] theorem unlines_cons (line : Runes) (lines : List Runes) :
    unlines (line :: lines) = line ++ '\n' :: unlines lines := by
  simp [unlines]

theorem splitOn_unlines {lines} (h : ∀ line ∈ lines, '\n' ∉ line) :
    (unlines lines).splitOn '\n' = lines ++ [[]] := by
  induction lines with
  | nil => rfl
  | cons line lines ih =>
    rw [unlines_cons, List.splitOn_append_cons_self_of_not_mem (h line List.mem_cons_self),
      ih fun l hl => h l (List.mem_cons_of_mem _ hl), List.cons_append]

/-- **Written lines are read back.** -/
theorem rawLines_unlines {lines} (h : ∀ line ∈ lines, '\n' ∉ line) :
    rawLines (unlines lines) = lines := by
  simp [rawLines, splitOn_unlines h]

theorem newline_not_mem_rawLines {text line : Runes} (h : line ∈ rawLines text) :
    '\n' ∉ line := by
  have hmem : line ∈ text.splitOn '\n' := by
    unfold rawLines at h
    simp only at h
    split_ifs at h
    · exact (List.dropLast_sublist _).subset h
    · exact h
  exact splitOn_not_mem text line hmem

end EmbyAuto
