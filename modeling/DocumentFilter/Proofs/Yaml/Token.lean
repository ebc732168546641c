import DocumentFilter.Proofs.Yaml.Scan

/-!
# The tokens of a JSON text in YAML

The tokens of YAML are those of JSON, but for the names of fields. In JSON a string is a name by its
place alone. In YAML it is a key only if the colon behind it is on the same line and not too far
behind, since the scanner gives up the place of a key that is stale when it comes to the colon. The
colon is a token then as well, and no key is in front of it. The string and the space behind it
count as they are written, so that an escape may make the difference
(`DocumentFilter.Json.Name.attached`).

* `DocumentFilter.Json.Tree.tokens`: the tokens of a value;
* `DocumentFilter.Json.scans_tree`: they are scanned in front of what closes a word;
* `DocumentFilter.Json.tokens_layout`: **the tokens of a text**.
-/

namespace DocumentFilter

namespace Yaml

open Json (Piece Space piecesChars)

namespace Scanner

/-! ### Colons -/

section Colon

variable {s : Scanner} (flow : s.inFlow = true)
include flow

/-- **A colon makes a key** of the token in front of it, if that was kept. -/
theorem colon_of_some {place : KeyPlace} {token : Token} {tokens : List Token}
    (key : s.key = some place) (added : s.tokens = token :: tokens)
    (before : place.before = tokens.length) :
    s.colon = .ok { s with
      key := none, allowKey := false, tokens := .value :: token :: .key :: tokens,
      cursor := s.cursor.skip 1 } := by
  rw [inFlow] at flow
  simp [colon, key, added, before, inFlow, flow, indicator]

/-- A colon is a token alone, if nothing was kept. -/
theorem colon_of_none (key : s.key = none) :
    s.colon = .ok { s with
      key := none, allowKey := false, tokens := .value :: s.tokens,
      cursor := s.cursor.skip 1 } := by
  rw [inFlow] at flow
  simp [colon, key, inFlow, flow, dropKey, indicator, bind, Except.bind, pure, Except.pure]

end Colon

/-- **The place of a string is kept** where a key may come: behind the string it is known how far it
is in front. -/
theorem scans_key (pieces : List Piece) {depth : Nat} {tail : List Char} {s : Scanner}
    (ready : Ready (depth + 1) true ('"' :: piecesChars pieces ++ tail) s)
    (unbroken : Unbroken ('"' :: piecesChars pieces)) :
    ∃ s' place, (∀ fuel, run fuel s = run (fuel - 1) s') ∧ Ready (depth + 1) false tail s' ∧
      s'.tokens = .scalar false (pieces.flatMap Piece.yaml) :: s.tokens ∧ s'.cursor.rest = tail ∧
      s'.key = some place ∧ place.before = s.tokens.length ∧ s'.cursor.line = place.line ∧
      s'.cursor.index = place.index + ((piecesChars pieces).length + 1) := by
  have whole : solid ('"' :: piecesChars pieces ++ tail) = '"' :: piecesChars pieces ++ tail :=
    solid_cons (by decide) _
  obtain ⟨s₁, settled, ready₁, shape, same, keeps, -⟩ := ready.settled (by rw [whole]; rfl)
  rw [whole] at shape
  obtain ⟨s', fetched, ready', added, cursor, kept⟩ := ready₁.fetch_string shape unbroken
  obtain ⟨behind, index, line⟩ := s₁.cursor.skip_of_append shape
  have inline : ('"' :: piecesChars pieces).countP isBreak = 0 := by
    refine List.countP_eq_zero.2 (List.forall_mem_cons.2 ⟨by decide, fun c mem => ?_⟩)
    simp [isBreak_eq_false (List.forall_mem_cons.1 unbroken).2 mem]
  rw [← cursor] at behind index line
  exact ⟨s', _, run_of_fetch settled ready₁.outer shape fetched, ready',
    added.trans (by rw [same]), behind, kept ((keeps (Nat.succ_pos depth)).trans (ready.fresh rfl)),
    by rw [same], line.trans (by rw [inline]; rfl), index⟩

/-- The end of a line is what ends one in a gap. -/
theorem countP_isBreak_eq_zero {gap : List Char} (blank : ∀ c ∈ gap, isGap c = true) :
    gap.countP isBreak = 0 ↔ gap.contains '\n' = false := by
  rw [List.countP_eq_zero, ← Bool.not_eq_true, List.contains_iff_mem]
  constructor
  · exact fun none mem => none _ mem rfl
  · intro none c mem ends
    have gap := blank c mem
    simp only [isGap, Bool.or_eq_true, decide_eq_true_eq] at gap
    rcases gap with rfl | rfl
    · cases ends
    · exact none mem

/-- The place of a key is too far behind a gap, if that has the end of a line in it or too many
characters lie between. -/
theorem isStale_of_gap {gap : List Char} (blank : ∀ c ∈ gap, isGap c = true) {place : KeyPlace}
    {width : Nat} {c : Cursor} (line : c.line = place.line + gap.countP isBreak)
    (index : c.index = place.index + width + gap.length) :
    isStale c place = !(!gap.contains '\n' && decide (width + gap.length ≤ 1024)) := by
  have far : decide (c.index > place.index + 1024) = !decide (width + gap.length ≤ 1024) := by
    rw [index, ← decide_not]
    exact decide_eq_decide.2 (by omega)
  have apart : decide (place.line ≠ c.line) = gap.contains '\n' := by
    rw [line, Bool.eq_iff_iff, decide_eq_true_eq, ← Bool.not_eq_false,
      ← countP_isBreak_eq_zero blank]
    omega
  rw [isStale, far, apart, Bool.not_and, Bool.not_not]

/-- **A colon is reached**: the string in front of it is a key if it is on the same line and not too
far in front. -/
theorem scans_colon {gap : List Char} (blank : ∀ c ∈ gap, isGap c = true) {depth width : Nat}
    {rest : List Char} {s : Scanner} {token : Token} {tokens : List Token} {place : KeyPlace}
    (ready : Ready (depth + 1) false (gap ++ ':' :: rest) s)
    (shape : s.cursor.rest = gap ++ ':' :: rest) (added : s.tokens = token :: tokens)
    (key : s.key = some place) (before : place.before = tokens.length)
    (line : s.cursor.line = place.line) (index : s.cursor.index = place.index + width) :
    ∃ s', (∀ fuel, run fuel s = run (fuel - 1) s') ∧ Ready (depth + 1) false rest s' ∧
      s'.tokens = if !gap.contains '\n' && decide (width + gap.length ≤ 1024)
        then .value :: token :: .key :: tokens else .value :: token :: tokens := by
  have whole : solid (gap ++ ':' :: rest) = ':' :: rest :=
    (solid_append blank _).trans (solid_cons (by decide) rest)
  obtain ⟨s₁, settled, ready₁, place₁, same, -, gap', blank', shape', cursor, key'⟩ :=
    ready.settled (by rw [whole]; rfl)
  rw [whole] at place₁ shape'
  obtain rfl : gap = gap' := List.append_cancel_right (shape.symm.trans shape')
  have flow : s₁.inFlow = true := ready₁.inFlow
  obtain ⟨-, index₁, line₁⟩ := s.cursor.skip_of_append shape
  rw [← cursor] at index₁ line₁
  have split : s₁.cursor.rest = [':'] ++ rest := place₁
  have behind := (s₁.cursor.skip_of_append split).1
  -- whether there is a key in front of it or not, the colon is taken in one step
  have taken : ∀ {s' : Scanner}, s₁.colon = .ok s' → ∀ fuel, run fuel s = run (fuel - 1) s' :=
    fun taken => run_of_fetch settled ready₁.outer place₁ ((fetch_colon flow place₁).trans taken)
  rw [key, kept, Option.any_some,
    isStale_of_gap blank (line₁.trans (by rw [line])) (index₁.trans (by rw [index]))] at key'
  cases attached : (!gap.contains '\n' && decide (width + gap.length ≤ 1024)) with
  | true =>
    rw [attached, Bool.not_true, if_neg Bool.false_ne_true] at key'
    refine ⟨_, taken (colon_of_some flow key' (same.trans added) before), ?_, rfl⟩
    exact ⟨ready₁.outer, ready₁.indent, rfl, ready₁.keys, ready₁.depth,
      fun no => absurd no Bool.false_ne_true, congrArg solid behind⟩
  | false =>
    rw [attached, Bool.not_false, if_pos rfl] at key'
    refine ⟨_, taken (colon_of_none flow key'), ?_, by rw [same, added]; rfl⟩
    exact ⟨ready₁.outer, ready₁.indent, rfl, ready₁.keys, ready₁.depth,
      fun no => absurd no Bool.false_ne_true, congrArg solid behind⟩

end Scanner

end Yaml

namespace Json

open Yaml (Token)

/-! ### The tokens of a text -/

/-- **A name that is attached** to its colon: on one line, and not too far in front. -/
def Name.attached (name : Name) : Bool :=
  !name.before.chars.contains '\n' &&
    decide ((piecesChars name.pieces).length + 1 + name.before.chars.length ≤ 1024)

/-- The tokens of a name. A colon does not make a key of what it is not attached to. -/
def Name.tokens (name : Name) : List Token :=
  if name.attached then [.key, .scalar false (name.pieces.flatMap Piece.yaml), .value]
  else [.scalar false (name.pieces.flatMap Piece.yaml), .value]

/-- The token of a scalar. -/
def Scalar.token (s : Scalar) : Token :=
  .scalar s.isPlain s.text

mutual

/-- The tokens of a value. -/
def Tree.tokens : Tree → List Token
  | .scalar s => [s.token]
  | .emptyArray _ => [.flowSequenceStart, .flowSequenceEnd]
  | .array _ items => .flowSequenceStart :: items.tokens
  | .emptyObject _ => [.flowMappingStart, .flowMappingEnd]
  | .object _ members => .flowMappingStart :: members.tokens

/-- The tokens of items. -/
def Items.tokens : Items → List Token
  | .last item _ => item.tokens ++ [.flowSequenceEnd]
  | .more item _ _ rest => item.tokens ++ .flowEntry :: rest.tokens

/-- The tokens of fields. -/
def Members.tokens : Members → List Token
  | .last name value _ => name.tokens ++ (value.tokens ++ [.flowMappingEnd])
  | .more name value _ _ rest => name.tokens ++ (value.tokens ++ .flowEntry :: rest.tokens)

end

open Yaml Yaml.Scanner

/-- **A name is scanned** up to its colon. It is a key where it is attached to that. -/
theorem scans_name (name : Name) (depth : Nat) (rest : List Char) :
    Scans (depth + 1) true name.chars rest name.tokens (depth + 1) false := by
  obtain ⟨pieces, before, behind⟩ := name
  have split : Name.chars ⟨pieces, before, behind⟩ =
      '"' :: (piecesChars pieces ++ (before.chars ++ [':'])) ++ behind.chars := by
    simp [Name.chars]
  rw [split, ← List.append_nil (Name.tokens _)]
  refine Scans.append (fun _ => ?_) (scans_space behind (depth + 1) false rest)
  generalize behind.chars ++ rest = rest
  intro s ready unbroken
  have text : '"' :: (piecesChars pieces ++ (before.chars ++ [':'])) =
      '"' :: piecesChars pieces ++ (before.chars ++ [':']) := rfl
  rw [text] at unbroken
  obtain ⟨string, others⟩ := unbroken_append.1 unbroken
  obtain ⟨gap, -⟩ := unbroken_append.1 others
  have ready' : Ready (depth + 1) true ('"' :: piecesChars pieces ++ (before.chars ++ ':' :: rest))
      s := by
    simpa using ready
  obtain ⟨s₁, place, run₁, ready₁, added, shape, key, start, line, index⟩ :=
    scans_key pieces ready' string
  have space := scans_space before (depth + 1) false (':' :: rest) s₁ ready₁ gap
  by_cases tab : '\t' ∈ before.chars
  · rw [if_pos tab] at space
    rw [if_pos (by simp [tab])]
    exact fun fuel => (run₁ fuel).trans (space _)
  · have blank : ∀ c ∈ before.chars, isGap c = true := fun c mem =>
      isGap_of_space gap c mem fun same => tab (same ▸ mem)
    obtain ⟨s₂, run₂, ready₂, added₂⟩ := scans_colon blank ready₁ shape added key start line index
    have inline : '\t' ∉ piecesChars pieces := fun mem =>
      absurd (visible_piecesChars pieces _ mem) (by decide)
    rw [if_neg (by simp [tab, inline])]
    refine ⟨2, s₂, ?_, fun fuel => (run₁ fuel).trans (run₂ _), ready₂, ?_⟩
    · simp only [List.length_cons, List.length_append]
      omega
    · rw [added₂, Name.tokens, Name.attached]
      split
      · rfl
      · rfl

/-- **A number starts a word**: behind a minus there is a digit. -/
theorem Literal.startsWord (l : Literal) : StartsWord l.chars := by
  obtain ⟨d, rest, lt, shape⟩ := l.exists_unsignedChars
  have digit : ∀ d < 10, isWordChar (Decimal.digitChar d) = true ∧ Decimal.digitChar d ≠ '.' ∧
      Decimal.digitChar d ≠ '-' := by decide
  obtain ⟨word, point, minus⟩ := digit d lt
  rw [Literal.chars, shape]
  cases l.negative with
  | true => exact ⟨'-', _, rfl, by decide, by decide, fun _ => ⟨_, rest, rfl, word, minus⟩⟩
  | false => exact ⟨_, rest, rfl, word, point, fun same => absurd same minus⟩

/-- **A scalar is scanned** in front of what closes a word. -/
theorem scans_scalar (s : Scalar) (depth : Nat) {rest : List Char}
    (closed : Closed (decide (0 < depth)) rest) :
    Scans depth false s.chars rest [s.token] depth false := by
  have word : ∀ {x : Char} (more : List Char), x ≠ '.' → x ≠ '-' →
      ((x :: more).all isWordChar) = true →
      Scans depth false (x :: more) rest [.scalar true (x :: more)] depth false := by
    intro x more point minus chars
    have chars := List.all_eq_true.1 chars
    have starts : StartsWord (x :: more) :=
      ⟨x, more, rfl, chars x (List.mem_cons_self ..), point, fun same => absurd same minus⟩
    exact scans_word starts chars depth closed
  cases s with
  | null => exact word _ (by decide) (by decide) (by decide)
  | bool b =>
    cases b with
    | true => exact word _ (by decide) (by decide) (by decide)
    | false => exact word _ (by decide) (by decide) (by decide)
  | nan => exact word _ (by decide) (by decide) (by decide)
  | infinity negative =>
    cases negative with
    | true =>
      have starts : StartsWord "-Infinity".toList :=
        ⟨'-', _, rfl, by decide, by decide, fun _ => ⟨'I', _, rfl, by decide, by decide⟩⟩
      exact scans_word starts (List.all_eq_true.1 (by decide)) depth closed
    | false => exact word _ (by decide) (by decide) (by decide)
  | string pieces => exact scans_string pieces depth rest
  | number l => exact scans_word l.startsWord l.isWordChar_of_mem depth closed

/-! ### Trees -/

/-- What is in brackets is scanned with them. -/
theorem scans_inside {x : Char} {token : Token} (start : isStart x = true) (tab : '\t' ≠ x)
    (fetch : ∀ {s : Scanner} {tail}, s.cursor.rest = x :: tail → s.fetch x = s.openFlow token)
    (inside : Space) {depth : Nat} {text rest : List Char} {tokens : List Token}
    (scans : Scans (depth + 1) true text rest tokens depth false) :
    Scans depth false (x :: (inside.chars ++ text)) rest (token :: tokens) depth false :=
  .cons (scans_open start tab fetch depth _) (scans.behind inside)

/-- What comes behind a comma is scanned with it. -/
theorem scans_next (after behind : Space) {depth : Nat} {text rest : List Char}
    {tokens : List Token} (scans : Scans (depth + 1) true text rest tokens depth false) :
    Scans (depth + 1) false (after.chars ++ ',' :: (behind.chars ++ text)) rest
      (.flowEntry :: tokens) depth false :=
  (Scans.cons (scans_comma depth _) (scans.behind behind)).behind after

/-- What closes a bracket is scanned with the space in front of it. -/
theorem scans_end {x : Char} {token : Token} (start : isStart x = true) (tab : '\t' ≠ x)
    (fetch : ∀ {s : Scanner} {tail}, s.cursor.rest = x :: tail → s.fetch x = s.closeFlow token)
    (after : Space) (depth : Nat) (rest : List Char) :
    Scans (depth + 1) false (after.chars ++ [x]) rest [token] depth false :=
  (scans_close start tab fetch depth rest).behind after

mutual

/-- **A value is scanned** in front of what closes a word. -/
theorem scans_tree (tree : Tree) (depth : Nat) {rest : List Char}
    (closed : Closed (decide (0 < depth)) rest) :
    Scans depth false tree.chars rest tree.tokens depth false := by
  match tree with
  | .scalar s =>
    rw [Tree.chars, Tree.tokens]
    exact scans_scalar s depth closed
  | .emptyArray inside =>
    rw [Tree.chars, Tree.tokens]
    refine scans_inside (by decide) (by decide) fetch_openSequence inside ?_
    exact (scans_close (by decide) (by decide) fetch_closeSequence depth rest).of_fresh true
  | .array inside items =>
    rw [Tree.chars, Tree.tokens]
    refine scans_inside (by decide) (by decide) fetch_openSequence inside ?_
    exact (scans_items items depth rest).of_fresh true
  | .emptyObject inside =>
    rw [Tree.chars, Tree.tokens]
    refine scans_inside (by decide) (by decide) fetch_openMapping inside ?_
    exact (scans_close (by decide) (by decide) fetch_closeMapping depth rest).of_fresh true
  | .object inside members =>
    rw [Tree.chars, Tree.tokens]
    refine scans_inside (by decide) (by decide) fetch_openMapping inside ?_
    exact scans_members members depth rest

/-- **Items are scanned**, and the bracket behind them. -/
theorem scans_items (items : Items) (depth : Nat) (rest : List Char) :
    Scans (depth + 1) false items.chars rest items.tokens depth false := by
  match items with
  | .last item after =>
    rw [Items.chars, Items.tokens]
    refine Scans.append (fun unbroken => scans_tree item (depth + 1) ?_) ?_
    · exact closed_space unbroken (by decide) rest
    · exact scans_end (by decide) (by decide) fetch_closeSequence after depth rest
  | .more item after behind more =>
    rw [Items.chars, Items.tokens]
    refine Scans.append (fun unbroken => scans_tree item (depth + 1) ?_) ?_
    · exact closed_space unbroken (by decide) rest
    · exact scans_next after behind ((scans_items more depth rest).of_fresh true)

/-- **Fields are scanned**, and the brace behind them. -/
theorem scans_members (members : Members) (depth : Nat) (rest : List Char) :
    Scans (depth + 1) true members.chars rest members.tokens depth false := by
  match members with
  | .last name value after =>
    rw [Members.chars, Members.tokens]
    refine Scans.append (fun _ => scans_name name depth _)
      (.append (fun unbroken => scans_tree value (depth + 1) ?_) ?_)
    · exact closed_space unbroken (by decide) rest
    · exact scans_end (by decide) (by decide) fetch_closeMapping after depth rest
  | .more name value after behind more =>
    rw [Members.chars, Members.tokens]
    refine Scans.append (fun _ => scans_name name depth _)
      (.append (fun unbroken => scans_tree value (depth + 1) ?_) ?_)
    · exact closed_space unbroken (by decide) rest
    · exact scans_next after behind (scans_members more depth rest)

end

/-! ### Texts -/

/-- At the end of a text what was scanned is all that there is. -/
theorem run_end {fresh : Bool} {s : Scanner} (ready : Ready 0 fresh [] s) (fuel : Nat) :
    run (fuel + 1) s = .ok s.tokens.reverse := by
  obtain ⟨s', settled, ready', place, same, -⟩ := ready.settled rfl
  have ends : s'.cursor.peek = none := by
    rw [Cursor.peek, place]
    rfl
  rw [run, settled, ← same]
  simp only [bind, Except.bind, unwind_of_outer ready'.outer, ends, dropKey_of_free ready'.key]
  rfl

/-- The state at the start of a text. -/
theorem ready_start (cs : List Char) : Ready 0 true cs (.start cs) :=
  ⟨rfl, rfl, rfl, List.forall_mem_nil _, rfl, fun _ => rfl, rfl⟩

/-- Space at the end of a text closes a word. -/
theorem closed_end {after : Space} (unbroken : Unbroken after.chars) :
    Closed false (after.chars ++ []) := by
  intro c tail shape
  have blanks := isGap_of_space unbroken
  by_cases tab : '\t' ∈ after.chars
  · obtain ⟨tail', shape'⟩ := exists_solid_of_tab blanks tab []
    exact .inl (List.cons.inj (shape.symm.trans shape')).1
  · rw [solid_append fun c mem => blanks c mem fun same => tab (same ▸ mem)] at shape
    cases shape

/-- **The tokens of a JSON text** in YAML, which reads none of it if there is a tab in it or a
character that it does not allow. -/
theorem tokens_layout (layout : Layout) (unbroken : Unbroken layout.chars) :
    Yaml.tokens layout.chars =
      if layout.chars.all isAllowed ∧ '\t' ∉ layout.chars then .ok layout.tree.tokens
      else .error .malformed := by
  have scans : Scans 0 true layout.chars [] layout.tree.tokens 0 false := by
    rw [← List.append_nil layout.tree.tokens]
    refine (Scans.append (fun unbroken => ?_) (scans_space layout.after 0 false [])).behind
      layout.before
    exact (scans_tree layout.tree 0 (closed_end unbroken)).of_fresh true
  have read := scans (.start layout.chars) (by simpa using ready_start layout.chars) unbroken
  rw [Yaml.tokens]
  by_cases allowed : layout.chars.all isAllowed = true
  · rw [if_pos allowed]
    by_cases tab : '\t' ∈ layout.chars
    · rw [if_pos tab] at read
      rw [if_neg fun both => both.2 tab, read]
    · rw [if_neg tab] at read
      obtain ⟨n, s', le, reach, ready, added⟩ := read
      rw [if_pos ⟨allowed, tab⟩, reach, Nat.sub_add_comm le, run_end ready, added]
      change Except.ok ((_ ++ []).reverse) = _
      rw [List.append_nil, List.reverse_reverse]
  · rw [if_neg allowed, if_neg fun both => allowed both.1]

end Json

end DocumentFilter
