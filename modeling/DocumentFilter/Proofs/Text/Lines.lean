import DocumentFilter.Text.Lines
import Mathlib.Data.List.Basic

/-!
# The lines of a text, by their ends

`DocumentFilter.Text.lines` rewrites the ends of lines and then cuts. What it cuts is said here
without rewriting: a text is a sequence of lines, each with one of three ends, and the last line
may lack its end (`DocumentFilter.Text.SplitsInto`). A carriage return is an end of its own only
where no line feed follows it, which is what makes the lines of a text unique.

Of a text whose end is missing only the lines that are complete are known
(`DocumentFilter.Text.BeginsWith`), and those do not depend on what comes behind it.

* `DocumentFilter.Text.splitsInto_iff`: **a text splits into its lines** and no others;
* `DocumentFilter.Text.lines_flatMap`: lines that are written with a line feed each;
* `DocumentFilter.Text.beginsWith_iff`: **a text begins with its complete lines**.
-/

namespace DocumentFilter.Text

/-- A line without its end: no character of an end is in it. -/
def IsLine (line : List Char) : Prop :=
  '\n' ∉ line ∧ '\r' ∉ line

/-- **A text splits into lines**, which end at a line feed, at a carriage return with a line
feed, or at a carriage return that no line feed follows; the last one may have no end, if there
is something in it. -/
inductive SplitsInto : List Char → List (List Char) → Prop
  | nil : SplitsInto [] []
  | last {line : List Char} (isLine : IsLine line) (ne : line ≠ []) : SplitsInto line [line]
  | lineFeed {line rest : List Char} {lines : List (List Char)} (isLine : IsLine line)
      (next : SplitsInto rest lines) : SplitsInto (line ++ '\n' :: rest) (line :: lines)
  | both {line rest : List Char} {lines : List (List Char)} (isLine : IsLine line)
      (next : SplitsInto rest lines) : SplitsInto (line ++ '\r' :: '\n' :: rest) (line :: lines)
  | carriageReturn {line rest : List Char} {lines : List (List Char)} (isLine : IsLine line)
      (alone : rest.head? ≠ some '\n') (next : SplitsInto rest lines) :
      SplitsInto (line ++ '\r' :: rest) (line :: lines)

theorem isLine_nil : IsLine [] :=
  ⟨List.not_mem_nil, List.not_mem_nil⟩

theorem isLine_cons_iff {c : Char} {line : List Char} :
    IsLine (c :: line) ↔ c ≠ '\n' ∧ c ≠ '\r' ∧ IsLine line := by
  rw [IsLine, IsLine, List.mem_cons, List.mem_cons, not_or, not_or, and_and_and_comm, and_assoc,
    ne_comm, ne_comm (a := c)]

/-! ### Cutting at the ends -/

theorem lineFeeds_cons {c : Char} (h : c ≠ '\r') (rest : List Char) :
    lineFeeds (c :: rest) = c :: lineFeeds rest := by
  rw [lineFeeds]
  · rintro tail rfl
    exact absurd rfl h
  · exact h

theorem lineFeeds_carriageReturn {rest : List Char} (alone : rest.head? ≠ some '\n') :
    lineFeeds ('\r' :: rest) = '\n' :: lineFeeds rest := by
  rw [lineFeeds]
  rintro rest rfl
  exact alone rfl

/-- A line is left as it is. -/
theorem lineFeeds_append {line : List Char} (isLine : IsLine line) (rest : List Char) :
    lineFeeds (line ++ rest) = line ++ lineFeeds rest := by
  induction line with
  | nil => rfl
  | cons c line ih =>
    obtain ⟨-, ret, others⟩ := isLine_cons_iff.1 isLine
    rw [List.cons_append, lineFeeds_cons ret, ih others, List.cons_append]

/-- A line is cut off at its end. -/
theorem splitLines_append {line : List Char} (isLine : IsLine line) (rest : List Char) :
    splitLines (line ++ '\n' :: rest) = (line :: (splitLines rest).1, (splitLines rest).2) := by
  induction line with
  | nil => rfl
  | cons c line ih =>
    obtain ⟨feed, -, others⟩ := isLine_cons_iff.1 isLine
    rw [List.cons_append, splitLines, ih others]
    simp only [if_neg feed]

theorem splitLines_of_isLine {line : List Char} (isLine : IsLine line) :
    splitLines line = ([], line) := by
  induction line with
  | nil => rfl
  | cons c line ih =>
    obtain ⟨feed, -, others⟩ := isLine_cons_iff.1 isLine
    rw [splitLines, ih others]
    simp only [if_neg feed]

/-- A line in front of a text whose lines are known, however it ends. -/
theorem lines_cons {line cs rest : List Char} (isLine : IsLine line)
    (ended : lineFeeds cs = '\n' :: lineFeeds rest) :
    lines (line ++ cs) = line :: lines rest := by
  simp only [lines]
  rw [lineFeeds_append isLine, ended, splitLines_append isLine]
  simp only
  split <;> rfl

/-- A line without an end. -/
theorem lines_of_isLine {line : List Char} (isLine : IsLine line) (ne : line ≠ []) :
    lines line = [line] := by
  have kept := lineFeeds_append isLine []
  rw [lineFeeds, List.append_nil] at kept
  simp only [lines]
  rw [kept, splitLines_of_isLine isLine]
  simp only [if_neg ne, List.nil_append]

/-! ### Every text splits -/

theorem SplitsInto.eq_lines {cs : List Char} {ls : List (List Char)} (h : SplitsInto cs ls) :
    lines cs = ls := by
  induction h with
  | nil => rfl
  | last isLine ne => exact lines_of_isLine isLine ne
  | lineFeed isLine _ ih => rw [lines_cons isLine (lineFeeds_cons (by decide) _), ih]
  | both isLine _ ih => rw [lines_cons isLine rfl, ih]
  | carriageReturn isLine alone _ ih =>
    rw [lines_cons isLine (lineFeeds_carriageReturn alone), ih]

/-- A character that is part of no end becomes part of the first line. -/
theorem SplitsInto.cons {c : Char} {cs : List Char} {ls : List (List Char)}
    (h : SplitsInto cs ls) (feed : c ≠ '\n') (ret : c ≠ '\r') :
    ∃ lines, SplitsInto (c :: cs) lines := by
  have longer : ∀ {line : List Char}, IsLine line → IsLine (c :: line) := fun isLine =>
    isLine_cons_iff.2 ⟨feed, ret, isLine⟩
  cases h with
  | nil => exact ⟨_, .last (longer isLine_nil) (List.cons_ne_nil _ _)⟩
  | last isLine => exact ⟨_, .last (longer isLine) (List.cons_ne_nil _ _)⟩
  | lineFeed isLine next => exact ⟨_, .lineFeed (longer isLine) next⟩
  | both isLine next => exact ⟨_, .both (longer isLine) next⟩
  | carriageReturn isLine alone next => exact ⟨_, .carriageReturn (longer isLine) alone next⟩

theorem exists_splitsInto (cs : List Char) : ∃ ls, SplitsInto cs ls := by
  fun_induction lineFeeds cs with
  | case1 => exact ⟨[], .nil⟩
  | case2 rest ih =>
    obtain ⟨ls, next⟩ := ih
    exact ⟨[] :: ls, .both isLine_nil next⟩
  | case3 rest other ih =>
    obtain ⟨ls, next⟩ := ih
    refine ⟨[] :: ls, .carriageReturn isLine_nil ?_ next⟩
    rcases rest with _ | ⟨c, rest⟩
    · simp
    · rintro ⟨⟩
      exact other rest rfl
  | case4 c rest _ other ih =>
    obtain ⟨ls, next⟩ := ih
    by_cases feed : c = '\n'
    · subst feed
      exact ⟨[] :: ls, .lineFeed isLine_nil next⟩
    · exact next.cons feed other

/-- **A text splits into its lines** and into no others. -/
theorem splitsInto_iff {cs : List Char} {ls : List (List Char)} :
    SplitsInto cs ls ↔ lines cs = ls := by
  constructor
  · exact SplitsInto.eq_lines
  · rintro rfl
    obtain ⟨ls, split⟩ := exists_splitsInto cs
    rwa [split.eq_lines]

/-- **Lines that are written with a line feed each** are read back. -/
theorem lines_flatMap {ls : List (List Char)} (isLine : ∀ line ∈ ls, IsLine line) :
    lines (ls.flatMap fun line => line ++ ['\n']) = ls := by
  induction ls with
  | nil => rfl
  | cons line rest ih =>
    obtain ⟨first, others⟩ := List.forall_mem_cons.1 isLine
    rw [List.flatMap_cons, List.append_assoc, List.singleton_append,
      lines_cons first (lineFeeds_cons (by decide) _), ih others]

/-! ### The lines of a beginning -/

/-- **The lines that a text begins with**, whatever comes behind it: those whose ends are in it.
A carriage return that it ends in may be the first half of an end. -/
inductive BeginsWith : List Char → List (List Char) → Prop
  | part {line : List Char} (isLine : IsLine line) : BeginsWith line []
  | half {line : List Char} (isLine : IsLine line) : BeginsWith (line ++ ['\r']) []
  | lineFeed {line rest : List Char} {lines : List (List Char)} (isLine : IsLine line)
      (next : BeginsWith rest lines) : BeginsWith (line ++ '\n' :: rest) (line :: lines)
  | both {line rest : List Char} {lines : List (List Char)} (isLine : IsLine line)
      (next : BeginsWith rest lines) : BeginsWith (line ++ '\r' :: '\n' :: rest) (line :: lines)
  | carriageReturn {line rest : List Char} {c : Char} {lines : List (List Char)}
      (isLine : IsLine line) (alone : c ≠ '\n') (next : BeginsWith (c :: rest) lines) :
      BeginsWith (line ++ '\r' :: c :: rest) (line :: lines)

/-- A text without the carriage return that it ends in. -/
def dropReturn (cs : List Char) : List Char :=
  if cs.getLast? = some '\r' then cs.dropLast else cs

theorem completeLines_eq (cs : List Char) :
    completeLines cs = (splitLines (lineFeeds (dropReturn cs))).1 := rfl

theorem dropReturn_append {rest : List Char} (ne : rest ≠ []) (front : List Char) :
    dropReturn (front ++ rest) = front ++ dropReturn rest := by
  rw [dropReturn, dropReturn, List.getLast?_append_of_ne_nil _ ne,
    List.dropLast_append_of_ne_nil ne]
  split <;> rfl

theorem dropReturn_cons {c : Char} (h : c ≠ '\r') (rest : List Char) :
    dropReturn (c :: rest) = c :: dropReturn rest := by
  cases rest with
  | nil => exact if_neg (by simpa using h)
  | cons d rest => exact dropReturn_append (List.cons_ne_nil d rest) [c]

theorem dropReturn_of_isLine {line : List Char} (isLine : IsLine line) :
    dropReturn line = line :=
  if_neg fun last => isLine.2 (List.mem_of_getLast? last)

theorem head?_dropReturn_ne {c : Char} (h : c ≠ '\n') (rest : List Char) :
    (dropReturn (c :: rest)).head? ≠ some '\n' := by
  rw [dropReturn]
  cases rest with
  | nil => split <;> simp [h]
  | cons d rest => split <;> simpa using h

/-- A line in front of a text, however it ends. -/
theorem completeLines_cons {line cs rest : List Char} (isLine : IsLine line) (ne : cs ≠ [])
    (ended : lineFeeds (dropReturn cs) = '\n' :: lineFeeds (dropReturn rest)) :
    completeLines (line ++ cs) = line :: completeLines rest := by
  rw [completeLines_eq, dropReturn_append ne, lineFeeds_append isLine, ended,
    splitLines_append isLine, completeLines_eq]

theorem BeginsWith.eq_completeLines {cs : List Char} {ls : List (List Char)}
    (h : BeginsWith cs ls) : completeLines cs = ls := by
  have none : ∀ {line : List Char}, IsLine line → (splitLines (lineFeeds line)).1 = [] := by
    intro line isLine
    have kept := lineFeeds_append isLine []
    rw [lineFeeds, List.append_nil] at kept
    rw [kept, splitLines_of_isLine isLine]
  induction h with
  | part isLine => rw [completeLines_eq, dropReturn_of_isLine isLine, none isLine]
  | half isLine =>
    rw [completeLines_eq, dropReturn_append (List.cons_ne_nil _ _)]
    rw [show dropReturn ['\r'] = [] from rfl, List.append_nil, none isLine]
  | lineFeed isLine _ ih =>
    rw [completeLines_cons isLine (List.cons_ne_nil _ _), ih]
    rw [dropReturn_cons (by decide), lineFeeds_cons (by decide)]
  | @both line rest lines isLine _ ih =>
    rw [completeLines_cons isLine (List.cons_ne_nil _ _), ih]
    have kept := dropReturn_append (List.cons_ne_nil '\n' rest) ['\r']
    rw [List.singleton_append] at kept
    rw [kept, dropReturn_cons (by decide), List.singleton_append, lineFeeds]
  | @carriageReturn line rest c lines isLine alone _ ih =>
    rw [completeLines_cons isLine (List.cons_ne_nil _ _), ih]
    have kept := dropReturn_append (List.cons_ne_nil c rest) ['\r']
    rw [List.singleton_append] at kept
    rw [kept, List.singleton_append, lineFeeds_carriageReturn (head?_dropReturn_ne alone rest)]

/-- A text that splits into lines begins with some of them. -/
theorem SplitsInto.exists_beginsWith {cs : List Char} {ls : List (List Char)}
    (h : SplitsInto cs ls) : ∃ first, BeginsWith cs first := by
  induction h with
  | nil => exact ⟨[], .part isLine_nil⟩
  | last isLine _ => exact ⟨[], .part isLine⟩
  | lineFeed isLine _ ih => exact ih.imp' (_ :: ·) fun _ => .lineFeed isLine
  | both isLine _ ih => exact ih.imp' (_ :: ·) fun _ => .both isLine
  | @carriageReturn line rest lines isLine alone _ ih =>
    cases rest with
    | nil => exact ⟨[], .half isLine⟩
    | cons c rest => exact ih.imp' (_ :: ·) fun _ => .carriageReturn isLine (by simpa using alone)

/-- **A text begins with its complete lines**, and with no others. -/
theorem beginsWith_iff {cs : List Char} {ls : List (List Char)} :
    BeginsWith cs ls ↔ completeLines cs = ls := by
  constructor
  · exact BeginsWith.eq_completeLines
  · rintro rfl
    obtain ⟨_, split⟩ := exists_splitsInto cs
    obtain ⟨ls, begins⟩ := split.exists_beginsWith
    rwa [begins.eq_completeLines]

end DocumentFilter.Text
