import Mathlib.Data.List.Basic

/-!
# Comma-separated values

`csv.writer` and `csv.reader` as they are called without options: cells are separated by commas and
rows end with `"\r\n"`; a cell in which a comma, a quote or a line break stands is quoted, and a
quote in it is doubled. The reader is the automaton of `parse_process_char`, over a text as a file
opened with `newline=""` delivers it.

## What is proved

* `read_write`: whatever the cells hold, what is read from the text of some rows is the rows.

## Honest scope

The reader is not strict: a quote within a cell that is not quoted stands for itself, and a text may
end within a quoted cell.
-/

namespace StratTrader.Foundation.Csv

/-- The characters of a cell. -/
abbrev Cell := List Char

/-- The cells of a row. -/
abbrev Row := List Cell

/-! ### Writing -/

/-- A cell with the character is quoted. -/
def isSpecial (c : Char) : Bool := decide (c ∈ [',', '"', '\r', '\n'])

/-- A cell with its quotes doubled. -/
def doubleQuotes : Cell → List Char
  | [] => []
  | c :: cs => if c = '"' then '"' :: '"' :: doubleQuotes cs else c :: doubleQuotes cs

/-- `join_append` of a cell. -/
def writeCell (cell : Cell) : List Char :=
  if cell.any isSpecial then '"' :: doubleQuotes cell ++ ['"'] else cell

/-- The cells of a row, with commas between them. -/
def writeCells : Row → List Char
  | [] => []
  | [cell] => writeCell cell
  | cell :: cells => writeCell cell ++ ',' :: writeCells cells

/-- `writerow`: a row of one empty cell is not left empty. -/
def writeRow (row : Row) : List Char :=
  (if row = [[]] then ['"', '"'] else writeCells row) ++ ['\r', '\n']

/-- `writerows`. -/
def write (rows : List Row) : List Char := rows.flatMap writeRow

/-! ### Reading -/

/-- Where a reader is. -/
inductive Pos where
  /-- `START_RECORD`. -/
  | startRecord
  /-- `START_FIELD`. -/
  | startField
  /-- `IN_FIELD`. -/
  | inField
  /-- `IN_QUOTED_FIELD`. -/
  | inQuotedField
  /-- `QUOTE_IN_QUOTED_FIELD`. -/
  | quoteInQuotedField
  /-- `EAT_CRNL`, behind a carriage return: a line feed belongs to the same line break. -/
  | eatCrnl
  deriving DecidableEq

/-- What has been read. -/
structure Reader where
  /-- The rows that have ended. -/
  rows : List Row
  /-- The cells of the row that have ended. -/
  cells : Row
  /-- What has been read of the cell. -/
  cell : Cell
  /-- Where the reader is. -/
  pos : Pos

namespace Reader

/-- A reader that has read nothing. -/
def start : Reader := ⟨[], [], [], .startRecord⟩

/-- `parse_add_char`. -/
def addChar (r : Reader) (pos : Pos) (c : Char) : Reader := { r with cell := r.cell ++ [c], pos := pos }

/-- `parse_save_field`. -/
def saveField (r : Reader) : Reader := { r with cells := r.cells ++ [r.cell], cell := [] }

/-- A row ends, with the line break that begins with the character. -/
def endRow (r : Reader) (c : Char) : Reader :=
  { r with rows := r.rows ++ [r.cells], cells := [], pos := if c = '\r' then .eatCrnl else .startRecord }

/-- Whether a character begins a line break. -/
def isLineBreak (c : Char) : Bool := decide (c = '\r' ∨ c = '\n')

/-- A character at the start of a cell. -/
def atField (r : Reader) (c : Char) : Reader :=
  if isLineBreak c then r.saveField.endRow c
  else if c = '"' then { r with pos := .inQuotedField }
  else if c = ',' then { r.saveField with pos := .startField }
  else r.addChar .inField c

/-- A character at the start of a row. -/
def atRecord (r : Reader) (c : Char) : Reader := if isLineBreak c then r.endRow c else r.atField c

/-- `parse_process_char`. -/
def feed (r : Reader) (c : Char) : Reader :=
  match r.pos with
  | .startRecord => r.atRecord c
  | .startField => r.atField c
  | .inField =>
    if isLineBreak c then r.saveField.endRow c
    else if c = ',' then { r.saveField with pos := .startField }
    else r.addChar .inField c
  | .inQuotedField =>
    if c = '"' then { r with pos := .quoteInQuotedField } else r.addChar .inQuotedField c
  | .quoteInQuotedField =>
    if c = '"' then r.addChar .inQuotedField c
    else if c = ',' then { r.saveField with pos := .startField }
    else if isLineBreak c then r.saveField.endRow c
    else r.addChar .inField c
  | .eatCrnl => if c = '\n' then { r with pos := .startRecord } else r.atRecord c

/-- The rows, when the text has ended. -/
def finish (r : Reader) : List Row :=
  match r.pos with
  | .startRecord | .eatCrnl => r.rows
  | .startField | .inField | .inQuotedField | .quoteInQuotedField => r.rows ++ [r.cells ++ [r.cell]]

end Reader

/-- `list(csv.reader(text))`. -/
def read (text : List Char) : List Row := (text.foldl Reader.feed .start).finish

/-! ### What is read of a cell -/

section
variable (rows : List Row) (cells : Row)

theorem isSpecial_eq_false {c : Char} (h : isSpecial c = false) :
    Reader.isLineBreak c = false ∧ c ≠ '"' ∧ c ≠ ',' := by
  simp only [isSpecial, List.mem_cons, List.not_mem_nil, or_false, decide_eq_false_iff_not, not_or] at h
  simp only [Reader.isLineBreak, decide_eq_false_iff_not, not_or]
  exact ⟨⟨h.2.2.1, h.2.2.2⟩, h.2.1, h.1⟩

/-- Characters that are not special are read as they stand. -/
theorem feed_plain {cs : List Char} (h : ∀ c ∈ cs, isSpecial c = false) (cell : Cell) :
    cs.foldl Reader.feed ⟨rows, cells, cell, .inField⟩ = ⟨rows, cells, cell ++ cs, .inField⟩ := by
  induction cs generalizing cell with
  | nil => rw [List.foldl_nil, List.append_nil]
  | cons c cs ih =>
    obtain ⟨hbreak, -, hcomma⟩ := isSpecial_eq_false (h c List.mem_cons_self)
    have hfeed : Reader.feed ⟨rows, cells, cell, .inField⟩ c = ⟨rows, cells, cell ++ [c], .inField⟩ := by
      simp [Reader.feed, hbreak, hcomma, Reader.addChar]
    rw [List.foldl_cons, hfeed, ih fun d hd => h d (List.mem_cons_of_mem c hd), List.append_assoc,
      List.singleton_append]

/-- Within a quoted cell every character is read as it stands, and a doubled quote as one. -/
theorem feed_doubleQuotes (cs : List Char) (cell : Cell) :
    (doubleQuotes cs).foldl Reader.feed ⟨rows, cells, cell, .inQuotedField⟩ =
      ⟨rows, cells, cell ++ cs, .inQuotedField⟩ := by
  induction cs generalizing cell with
  | nil => rw [doubleQuotes, List.foldl_nil, List.append_nil]
  | cons c cs ih =>
    have happend : cell ++ c :: cs = cell ++ [c] ++ cs := by rw [List.append_assoc, List.singleton_append]
    unfold doubleQuotes
    rw [happend, ← ih]
    split_ifs with hquote
    · subst hquote
      rfl
    · rw [List.foldl_cons]
      simp [Reader.feed, hquote, Reader.addChar]

/-- A cell has been read that ends here: a comma or a line break is the end of it. -/
def AtEnd (cell : Cell) (r : Reader) : Prop :=
  r.rows = rows ∧ r.cells = cells ∧ r.cell = cell ∧ r.pos ∈ [Pos.startField, .inField, .quoteInQuotedField]

/-- At the start of a cell, the text of a cell is read as the cell. -/
theorem atEnd_writeCell (cell : Cell) :
    AtEnd rows cells cell ((writeCell cell).foldl Reader.feed ⟨rows, cells, [], .startField⟩) := by
  unfold writeCell
  split_ifs with hspecial
  · -- a quoted cell: its last quote may be the first of two
    have hquoted : Reader.feed ⟨rows, cells, [], .startField⟩ '"' = ⟨rows, cells, [], .inQuotedField⟩ := rfl
    rw [List.cons_append, List.foldl_cons, hquoted, List.foldl_append, feed_doubleQuotes, List.nil_append]
    exact ⟨rfl, rfl, rfl, by simp [Reader.feed]⟩
  · have hplain : ∀ c ∈ cell, isSpecial c = false := by simpa using hspecial
    cases cell with
    | nil => exact ⟨rfl, rfl, rfl, by simp⟩
    | cons c cs =>
      obtain ⟨hbreak, hquote, hcomma⟩ := isSpecial_eq_false (hplain c List.mem_cons_self)
      have hfeed : Reader.feed ⟨rows, cells, [], .startField⟩ c = ⟨rows, cells, [c], .inField⟩ := by
        simp [Reader.feed, Reader.atField, hbreak, hquote, hcomma, Reader.addChar]
      rw [List.foldl_cons, hfeed, feed_plain rows cells fun d hd => hplain d (List.mem_cons_of_mem c hd)]
      exact ⟨rfl, rfl, rfl, by simp⟩

variable {rows cells}

theorem AtEnd.feed_comma {cell : Cell} {r : Reader} (h : AtEnd rows cells cell r) :
    r.feed ',' = ⟨rows, cells ++ [cell], [], .startField⟩ := by
  obtain ⟨rfl, rfl, rfl, hpos⟩ := h
  simp only [List.mem_cons, List.not_mem_nil, or_false] at hpos
  obtain hpos | hpos | hpos := hpos <;> simp [Reader.feed, hpos, Reader.atField, Reader.isLineBreak, Reader.saveField]

theorem AtEnd.feed_lineBreak {cell : Cell} {r : Reader} (h : AtEnd rows cells cell r) :
    ['\r', '\n'].foldl Reader.feed r = ⟨rows ++ [cells ++ [cell]], [], [], .startRecord⟩ := by
  obtain ⟨rfl, rfl, rfl, hpos⟩ := h
  simp only [List.mem_cons, List.not_mem_nil, or_false] at hpos
  obtain hpos | hpos | hpos := hpos <;>
    simp [Reader.feed, hpos, Reader.atField, Reader.isLineBreak, Reader.saveField, Reader.endRow]

/-! ### What is read of a row -/

/-- At the start of a cell, the text of the cells that are left of a row is read as them. -/
theorem feed_writeCells (cell : Cell) (rest : Row) (rows : List Row) (cells : Row) :
    (writeCells (cell :: rest) ++ ['\r', '\n']).foldl Reader.feed ⟨rows, cells, [], .startField⟩ =
      ⟨rows ++ [cells ++ cell :: rest], [], [], .startRecord⟩ := by
  induction rest generalizing cell cells with
  | nil =>
    rw [writeCells, List.foldl_append]
    exact (atEnd_writeCell rows cells cell).feed_lineBreak
  | cons next rest ih =>
    have hwrite : writeCells (cell :: next :: rest) = writeCell cell ++ ',' :: writeCells (next :: rest) := rfl
    rw [hwrite, List.append_assoc, List.foldl_append, List.cons_append, List.foldl_cons,
      (atEnd_writeCell rows cells cell).feed_comma, ih, List.append_assoc, List.singleton_append]

/-- The text of a row begins with no line break, unless the row is empty. -/
theorem exists_cons_writeRow {row : Row} (h : row ≠ []) :
    ∃ c cs, writeRow row = c :: cs ∧ Reader.isLineBreak c = false := by
  have hcell : ∀ (cell : Cell) (rest : List Char), cell ≠ [] →
      ∃ c cs, writeCell cell ++ rest = c :: cs ∧ Reader.isLineBreak c = false := by
    intro cell rest hne
    unfold writeCell
    split_ifs with hspecial
    · exact ⟨'"', doubleQuotes cell ++ ['"'] ++ rest, rfl, rfl⟩
    · obtain ⟨c, cs, rfl⟩ := List.exists_cons_of_ne_nil hne
      rw [List.any_eq_true, not_exists] at hspecial
      have hplain : isSpecial c = false := by simpa using hspecial c
      exact ⟨c, cs ++ rest, rfl, (isSpecial_eq_false hplain).1⟩
  unfold writeRow
  split_ifs with hempty
  · exact ⟨'"', ['"', '\r', '\n'], rfl, rfl⟩
  · match row, h with
    | [cell], _ => exact hcell cell _ fun hcell => hempty (by rw [hcell])
    | [] :: next :: rest, _ => exact ⟨',', writeCells (next :: rest) ++ ['\r', '\n'], rfl, rfl⟩
    | (c :: cs) :: next :: rest, _ =>
      obtain ⟨d, ds, hd, hbreak⟩ := hcell (c :: cs) (',' :: writeCells (next :: rest) ++ ['\r', '\n']) (by simp)
      refine ⟨d, ds, ?_, hbreak⟩
      rw [← hd]
      simp [writeCells]

/-- At the start of a row, the text of a row is read as the row. -/
theorem feed_writeRow (rows : List Row) (row : Row) :
    (writeRow row).foldl Reader.feed ⟨rows, [], [], .startRecord⟩ = ⟨rows ++ [row], [], [], .startRecord⟩ := by
  cases row with
  | nil => rfl
  | cons cell rest =>
    -- the first character is read as it is at the start of a cell
    obtain ⟨c, cs, hrow, hbreak⟩ := exists_cons_writeRow (List.cons_ne_nil cell rest)
    have hfirst : Reader.feed ⟨rows, [], [], .startRecord⟩ c = Reader.feed ⟨rows, [], [], .startField⟩ c := by
      simp [Reader.feed, Reader.atRecord, Reader.atField, hbreak, Reader.saveField, Reader.addChar]
    have hstart : (writeRow (cell :: rest)).foldl Reader.feed ⟨rows, [], [], .startRecord⟩ =
        (writeRow (cell :: rest)).foldl Reader.feed ⟨rows, [], [], .startField⟩ := by
      rw [hrow, List.foldl_cons, List.foldl_cons, hfirst]
    rw [hstart, writeRow]
    split_ifs with hempty
    · rw [hempty]
      rfl
    · exact feed_writeCells cell rest rows []

/-- **The rows are read back**, whatever stands in their cells. -/
theorem read_write (rows : List Row) : read (write rows) = rows := by
  have hfold : ∀ before : List Row, (write rows).foldl Reader.feed ⟨before, [], [], .startRecord⟩ =
      ⟨before ++ rows, [], [], .startRecord⟩ := by
    induction rows with
    | nil =>
      intro before
      rw [List.append_nil]
      rfl
    | cons row rows ih =>
      intro before
      have hwrite : write (row :: rows) = writeRow row ++ write rows := rfl
      rw [hwrite, List.foldl_append, feed_writeRow, ih, List.append_assoc, List.singleton_append]
  unfold read Reader.start
  rw [hfold []]
  rfl

end

end StratTrader.Foundation.Csv
