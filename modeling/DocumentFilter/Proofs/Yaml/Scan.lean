import DocumentFilter.Proofs.Document.Grammar
import DocumentFilter.Proofs.Yaml.Text
import DocumentFilter.Yaml.Token

/-!
# Scanning a JSON text as YAML

What the scanner of a YAML text does at the tokens of a JSON text. No block is ever opened, since
the whole text is either one scalar or in brackets, so that nothing depends on indentation and no
token must be a key. What is left of the state is how deep it is in brackets, whether the next token
may be a key, and what comes next up to spaces and ends of lines
(`DocumentFilter.Yaml.Scanner.Ready`).

Of the space that JSON allows between tokens, YAML does not pass over tabs: a tab starts no token,
and from there on nothing is scanned. So a text is scanned only if there is no tab in it, and else
it is malformed (`DocumentFilter.Yaml.Scanner.Scans`). This holds of the parts of a text over an
arbitrary rest, and so it holds of one part after the other.

* `DocumentFilter.Yaml.Scanner.Scans.append`: **one text after the other**;
* `DocumentFilter.Yaml.Scanner.scans_token`: a token that is taken in one step;
* `DocumentFilter.Yaml.Scanner.scans_space`: the space between tokens.
-/

namespace DocumentFilter

namespace Yaml

open Json (Piece Space isWordChar piecesChars)

namespace Scanner

/-! ### Between two tokens -/

/-- **The state between two tokens** of a JSON text, inside of so many brackets: no block is open,
no token must be a key, and the next may be one if the flag says so. What comes next is told up to
spaces and ends of lines. -/
structure Ready (depth : Nat) (fresh : Bool) (rest : List Char) (s : Scanner) : Prop where
  outer : s.outer = []
  indent : s.indent = -1
  key : s.key.any (·.required) = false
  keys : ∀ key ∈ s.keys, key.any (·.required) = false
  depth : s.keys.length = depth
  fresh : fresh = true → s.allowKey = true
  place : solid s.cursor.rest = solid rest

/-- A character that starts a token, or that nothing starts with. -/
def isStart (c : Char) : Bool :=
  !isGap c && !isBreak c && c != '#' && c != '\uFEFF'

/-- The key of a level, if it can still be one at some place. -/
def kept (c : Cursor) (key : Option KeyPlace) : Option KeyPlace :=
  if key.any (isStale c) then none else key

theorem any_kept {c : Cursor} {key : Option KeyPlace} (free : key.any (·.required) = false) :
    (kept c key).any (·.required) = false := by
  rw [kept]
  split
  · rfl
  · exact free

theorem dropSpaces_of_space {c : Cursor} {rest : List Char} (shape : c.rest = ' ' :: rest) :
    c.dropSpaces = c.next.dropSpaces := by
  have behind := (c.next_of_cons shape).1
  simp only [Cursor.dropSpaces, Cursor.drop, Cursor.take, shape, behind]
  rfl

theorem dropSpaces_of_head {c : Cursor} (apart : (c.rest.head?.all (· != ' ')) = true) :
    c.dropSpaces = c := by
  rcases shape : c.rest with _ | ⟨x, rest⟩
  · simp only [Cursor.dropSpaces, Cursor.drop, Cursor.take, shape]
    rfl
  · have other : x ≠ ' ' := by simpa [shape] using apart
    simp only [Cursor.dropSpaces, Cursor.drop, Cursor.take, shape]
    rw [List.takeWhile_cons_of_neg (by simpa using other)]
    rfl

/-- What starts a token is neither a space nor a comment nor the end of a line. -/
theorem stay_of_isStart {c : Cursor} (start : (c.rest.head?.all isStart) = true) :
    (c.rest.head?.all (· != ' ')) = true ∧ c.sees '#' = false ∧ c.lineBreak? = none := by
  rcases shape : c.rest with _ | ⟨x, rest⟩
  · rw [Cursor.sees, Cursor.lineBreak?, Cursor.peek, shape]
    exact ⟨rfl, rfl, rfl⟩
  · rw [shape, List.head?_cons, Option.all_some] at start
    have apart : ∀ {other : Char}, isStart other = false → x ≠ other := by
      rintro other none rfl
      rw [start] at none
      cases none
    have inline : isBreak x = false := by
      simp only [isStart, Bool.and_eq_true] at start
      simpa using start.1.1.2
    refine ⟨by simpa using apart rfl, ?_, Cursor.lineBreak?_of_inline shape inline⟩
    rw [Cursor.sees, Cursor.peek, shape, List.head?_cons]
    simpa using apart rfl

/-- **Spaces and ends of lines are passed over**, up to what starts a token. -/
theorem skipLines_gap (inFlow : Bool) (fuel : Nat) (allowKey : Bool) {gap rest : List Char}
    (blank : ∀ c ∈ gap, isGap c = true) (start : (rest.head?.all isStart) = true) {c : Cursor}
    (shape : c.rest = gap ++ rest) (enough : gap.length < fuel) :
    ∃ allowed, skipLines inFlow fuel allowKey c = (allowed, c.skip gap.length) ∧
      (inFlow = true → allowed = allowKey) := by
  induction gap generalizing fuel allowKey c with
  | nil =>
    obtain ⟨fuel, rfl⟩ : ∃ n, fuel = n + 1 := ⟨fuel - 1, by simp at enough; omega⟩
    refine ⟨allowKey, ?_, fun _ => rfl⟩
    rw [List.nil_append] at shape
    subst shape
    obtain ⟨space, comment, line⟩ := stay_of_isStart start
    rw [skipLines, dropSpaces_of_head space, Cursor.dropComment, comment,
      if_neg Bool.false_ne_true, line]
    rfl
  | cons x gap ih =>
    obtain ⟨first, others⟩ := List.forall_mem_cons.1 blank
    have behind := (c.next_of_cons shape).1
    obtain ⟨fuel, rfl⟩ : ∃ n, fuel = n + 1 := ⟨fuel - 1, by simp at enough; omega⟩
    rw [isGap, Bool.or_eq_true, decide_eq_true_eq, decide_eq_true_eq] at first
    rcases first with rfl | rfl
    · have same : skipLines inFlow (fuel + 1) allowKey c =
          skipLines inFlow (fuel + 1) allowKey c.next := by
        rw [skipLines, skipLines, dropSpaces_of_space shape]
      rw [same]
      exact ih (fuel + 1) allowKey others behind (by simp at enough; omega)
    · obtain ⟨allowed, read, keeps⟩ := ih fuel (allowKey || !inFlow) others behind
        (by simp at enough; omega)
      have line : c.lineBreak? = some ('\n', c.next) := by
        rw [Cursor.lineBreak?, Cursor.peek, shape]
        rfl
      have comment : c.sees '#' = false := by
        rw [Cursor.sees, Cursor.peek, shape]
        rfl
      rw [skipLines, dropSpaces_of_head (by rw [shape]; rfl), Cursor.dropComment, comment,
        if_neg Bool.false_ne_true, line]
      refine ⟨allowed, read, fun flow => ?_⟩
      rw [keeps flow, flow]
      exact Bool.or_false _

/-- A token is not reached by way of a byte order mark. -/
theorem sees_mark_of_gap {gap rest : List Char} (blank : ∀ c ∈ gap, isGap c = true)
    (start : (rest.head?.all isStart) = true) {c : Cursor} (shape : c.rest = gap ++ rest) :
    c.sees '\uFEFF' = false := by
  have none : isGap '\uFEFF' = false ∧ isStart '\uFEFF' = false := by decide
  refine decide_eq_false fun mark => ?_
  rw [Cursor.peek, shape] at mark
  rcases gap with _ | ⟨x, gap⟩
  · rw [List.nil_append] at mark
    rw [mark, Option.all_some, none.2] at start
    cases start
  · cases mark
    exact Bool.false_ne_true (none.1.symm.trans (blank _ (List.mem_cons_self ..)))

/-- Keys that are too far behind are given up where none must be one. -/
theorem dropStaleKeys_of_free {s : Scanner}
    (free : ∀ key ∈ s.key :: s.keys, key.any (·.required) = false) :
    s.dropStaleKeys =
      .ok { s with key := kept s.cursor s.key, keys := s.keys.map (kept s.cursor) } := by
  have none : ((s.key :: s.keys).any fun key =>
      key.any (isStale s.cursor) && key.any (·.required)) = false := by
    refine List.any_eq_false.2 fun key mem => ?_
    simp [free key mem]
  rw [dropStaleKeys]
  dsimp only
  rw [none, if_neg Bool.false_ne_true]
  rfl

variable {depth : Nat} {fresh : Bool} {rest : List Char} {s : Scanner}

/-- **The next token is reached**: only the place is another, and keys that are too far behind are
given up. -/
theorem Ready.settle (ready : Ready depth fresh rest s)
    (start : ((solid rest).head?.all isStart) = true) :
    ∃ allowed gap, (∀ c ∈ gap, isGap c = true) ∧ s.cursor.rest = gap ++ solid rest ∧
      (0 < depth → allowed = s.allowKey) ∧
      s.skipBlanks.dropStaleKeys = .ok { s with
        cursor := s.cursor.skip gap.length
        allowKey := allowed
        key := kept (s.cursor.skip gap.length) s.key
        keys := s.keys.map (kept (s.cursor.skip gap.length)) } := by
  have split : s.cursor.rest = s.cursor.rest.takeWhile isGap ++ solid rest := by
    rw [← ready.place]
    exact List.takeWhile_append_dropWhile.symm
  obtain ⟨gap, taken⟩ : ∃ gap, s.cursor.rest.takeWhile isGap = gap := ⟨_, rfl⟩
  have blank : ∀ c ∈ gap, isGap c = true := fun c mem => List.mem_takeWhile_imp (taken ▸ mem)
  rw [taken] at split
  obtain ⟨allowed, read, keeps⟩ := skipLines_gap s.inFlow (s.cursor.rest.length + 1) s.allowKey
    blank start split (by rw [split, List.length_append]; omega)
  have passed :
      s.skipBlanks = { s with cursor := s.cursor.skip gap.length, allowKey := allowed } := by
    rw [skipBlanks, sees_mark_of_gap blank start split,
      if_neg (fun both => Bool.false_ne_true both.2)]
    simp only [read]
  refine ⟨allowed, gap, blank, split, fun deep => keeps ?_, ?_⟩
  · rw [inFlow, Bool.not_eq_true', List.isEmpty_eq_false_iff, ← List.length_pos_iff, ready.depth]
    exact deep
  · rw [passed]
    exact dropStaleKeys_of_free (List.forall_mem_cons.2 ⟨ready.key, ready.keys⟩)

/-- Where no block is open, none ends. -/
theorem unwind_of_outer (outer : s.outer = []) (column : Int) : s.unwind column = s := by
  obtain ⟨cursor, tokens, indent, _, allowKey, key, keys⟩ := s
  obtain rfl : _ = [] := outer
  rw [unwind]
  split
  · rfl
  · rfl

/-- **A step of the scanner** starts a token where the next one is reached. -/
theorem run_succ {s' : Scanner} (settled : s.skipBlanks.dropStaleKeys = .ok s')
    (outer : s'.outer = []) {x : Char} (first : s'.cursor.peek = some x) (fuel : Nat) :
    run (fuel + 1) s = s'.fetch x >>= run fuel := by
  rw [run, settled]
  simp only [bind, Except.bind, unwind_of_outer outer, first]

/-- One step is taken for a token that is fetched. -/
theorem run_of_fetch {s' s'' : Scanner} (settled : s.skipBlanks.dropStaleKeys = .ok s')
    (outer : s'.outer = []) {x : Char} {tail : List Char} (place : s'.cursor.rest = x :: tail)
    (fetched : s'.fetch x = .ok s'') (fuel : Nat) : run fuel s = run (fuel - 1) s'' := by
  cases fuel with
  | zero => rfl
  | succ fuel =>
    rw [run_succ settled outer (by rw [Cursor.peek, place]; rfl), fetched]
    rfl

/-- The state in which the next token is reached is one between two tokens. -/
theorem Ready.settled (ready : Ready depth fresh rest s)
    (start : ((solid rest).head?.all isStart) = true) :
    ∃ s', s.skipBlanks.dropStaleKeys = .ok s' ∧ Ready depth false rest s' ∧
      s'.cursor.rest = solid rest ∧ s'.tokens = s.tokens ∧ (0 < depth → s'.allowKey = s.allowKey) ∧
      ∃ gap, (∀ c ∈ gap, isGap c = true) ∧ s.cursor.rest = gap ++ solid rest ∧
        s'.cursor = s.cursor.skip gap.length ∧ s'.key = kept s'.cursor s.key := by
  obtain ⟨allowed, gap, blank, split, keeps, settled⟩ := ready.settle start
  have behind := (s.cursor.skip_of_append split).1
  refine ⟨_, settled, ⟨ready.outer, ready.indent, any_kept ready.key, ?_, ?_, nofun, ?_⟩, behind,
    rfl, keeps, gap, blank, split, rfl, rfl⟩
  · intro key mem
    obtain ⟨old, old_mem, rfl⟩ := List.mem_map.1 mem
    exact any_kept (ready.keys old old_mem)
  · dsimp only
    rw [List.length_map, ready.depth]
  · dsimp only
    rw [behind, solid_solid]

/-- **A text is scanned** in front of the given rest: -/
def Scans (depth : Nat) (fresh : Bool) (text rest : List Char) (tokens : List Token) (depth' : Nat)
    (fresh' : Bool) : Prop :=
  ∀ s, Ready depth fresh (text ++ rest) s → Unbroken text →
    if '\t' ∈ text then ∀ fuel, run fuel s = .error .malformed
    else ∃ n s', n ≤ text.length ∧ (∀ fuel, run fuel s = run (fuel - n) s') ∧
      Ready depth' fresh' rest s' ∧ s'.tokens = tokens.reverse ++ s.tokens

/-- **One text after the other.** -/
theorem Scans.append {d d' d'' : Nat} {f f' f'' : Bool} {text more rest : List Char}
    {tokens others : List Token}
    (first : Unbroken more → Scans d f text (more ++ rest) tokens d' f')
    (next : Scans d' f' more rest others d'' f'') :
    Scans d f (text ++ more) rest (tokens ++ others) d'' f'' := by
  intro s ready unbroken
  obtain ⟨unbroken, unbroken'⟩ := unbroken_append.1 unbroken
  rw [List.append_assoc] at ready
  have read := first unbroken' s ready unbroken
  by_cases tab : '\t' ∈ text
  · rw [if_pos tab] at read
    rw [if_pos (List.mem_append_left _ tab)]
    exact read
  rw [if_neg tab] at read
  obtain ⟨n, s', le, run, ready', added⟩ := read
  have read' := next s' ready' unbroken'
  by_cases tab' : '\t' ∈ more
  · rw [if_pos tab'] at read'
    rw [if_pos (List.mem_append_right _ tab')]
    exact fun fuel => (run fuel).trans (read' _)
  rw [if_neg tab'] at read'
  obtain ⟨n', s'', le', run', ready'', added'⟩ := read'
  rw [if_neg fun mem => (List.mem_append.1 mem).elim tab tab']
  refine ⟨n + n', s'', ?_, fun fuel => ?_, ready'', ?_⟩
  · rw [List.length_append]
    exact Nat.add_le_add le le'
  · rw [run, run', Nat.sub_sub]
  · rw [added', added, List.reverse_append, List.append_assoc]

/-- That the next token may be a key does no harm. -/
theorem Scans.of_fresh {d d' : Nat} {f' : Bool} {text rest : List Char} {tokens : List Token}
    (scans : Scans d false text rest tokens d' f') (f : Bool) : Scans d f text rest tokens d' f' :=
  fun s ready => scans s { ready with fresh := nofun }

/-- A token of one character, in front of others. -/
theorem Scans.cons {d d' d'' : Nat} {f f' f'' : Bool} {x : Char} {more rest : List Char}
    {token : Token} {tokens : List Token} (first : Scans d f [x] (more ++ rest) [token] d' f')
    (next : Scans d' f' more rest tokens d'' f'') :
    Scans d f (x :: more) rest (token :: tokens) d'' f'' :=
  (Scans.append (fun _ => first) next : Scans d f ([x] ++ more) rest ([token] ++ tokens) d'' f'')

/-- **A token is scanned** in one step, if it is taken where it is reached. -/
theorem scans_token {depth depth' : Nat} {fresh fresh' : Bool} {x : Char} {more rest : List Char}
    {tokens : List Token} (start : isStart x = true) (inline : '\t' ∉ x :: more)
    (taken : ∀ s, Ready depth false (x :: more ++ rest) s → s.cursor.rest = x :: more ++ rest →
      Unbroken (x :: more) → ∃ s', s.fetch x = .ok s' ∧ Ready depth' fresh' rest s' ∧
        s'.tokens = tokens.reverse ++ s.tokens) :
    Scans depth fresh (x :: more) rest tokens depth' fresh' := by
  intro s ready unbroken
  have apart : isGap x = false := by
    simp only [isStart, Bool.and_eq_true] at start
    simpa using start.1.1.1
  have whole : solid (x :: more ++ rest) = x :: more ++ rest := solid_cons apart _
  obtain ⟨s₁, settled, ready₁, place, same, -⟩ := ready.settled (by rw [whole]; exact start)
  rw [whole] at place
  obtain ⟨s', fetched, ready', added⟩ := taken s₁ ready₁ place unbroken
  rw [if_neg inline]
  exact ⟨1, s', Nat.succ_le_succ (Nat.zero_le _), run_of_fetch settled ready₁.outer place fetched,
    ready', by rw [added, same]⟩

/-! ### Starts of tokens -/

/-- A line that starts or ends a document does not start in another way. -/
theorem seesMarker_of_ne {x : Char} (apart : x ≠ '-' ∧ x ≠ '.') {tail : List Char} {c : Cursor}
    (shape : c.rest = x :: tail) :
    c.seesMarker ['-', '-', '-'] = false ∧ c.seesMarker ['.', '.', '.'] = false := by
  simp [Cursor.seesMarker, shape, apart.1.symm, apart.2.symm]

section Fetch

variable {s : Scanner} {tail : List Char}

/-- **A tab starts nothing.** -/
theorem fetch_tab (shape : s.cursor.rest = '\t' :: tail) : s.fetch '\t' = .error .malformed := by
  have plain : s.seesPlain = false := by
    rw [seesPlain, Cursor.peek, shape]
    simp [isIndicator, endsWord, isBlank]
  simp [fetch, seesMarker_of_ne (by decide) shape, plain]

theorem fetch_openSequence (shape : s.cursor.rest = '[' :: tail) :
    s.fetch '[' = s.openFlow .flowSequenceStart := by
  simp [fetch, seesMarker_of_ne (by decide) shape]

theorem fetch_openMapping (shape : s.cursor.rest = '\x7b' :: tail) :
    s.fetch '\x7b' = s.openFlow .flowMappingStart := by
  simp [fetch, seesMarker_of_ne (by decide) shape]

theorem fetch_closeSequence (shape : s.cursor.rest = ']' :: tail) :
    s.fetch ']' = s.closeFlow .flowSequenceEnd := by
  simp [fetch, seesMarker_of_ne (by decide) shape]

theorem fetch_closeMapping (shape : s.cursor.rest = '\x7d' :: tail) :
    s.fetch '\x7d' = s.closeFlow .flowMappingEnd := by
  simp [fetch, seesMarker_of_ne (by decide) shape]

theorem fetch_comma (shape : s.cursor.rest = ',' :: tail) : s.fetch ',' = s.flowEntry := by
  simp [fetch, seesMarker_of_ne (by decide) shape]

theorem fetch_colon (flow : s.inFlow = true) (shape : s.cursor.rest = ':' :: tail) :
    s.fetch ':' = s.colon := by
  simp [fetch, seesMarker_of_ne (by decide) shape, flow]

theorem fetch_quote (shape : s.cursor.rest = '"' :: tail) : s.fetch '"' = s.quotedScalar true := by
  simp [fetch, seesMarker_of_ne (by decide) shape]

/-- The start of a word: a minus has something behind it that is none. -/
def StartsWord (cs : List Char) : Prop :=
  ∃ x more, cs = x :: more ∧ isWordChar x = true ∧ x ≠ '.' ∧
    (x = '-' → ∃ y others, more = y :: others ∧ isWordChar y = true ∧ y ≠ '-')

theorem StartsWord.append {cs : List Char} (starts : StartsWord cs) (rest : List Char) :
    StartsWord (cs ++ rest) := by
  obtain ⟨x, more, rfl, word, point, minus⟩ := starts
  refine ⟨x, more ++ rest, rfl, word, point, fun sign => ?_⟩
  obtain ⟨y, others, rfl, word', other⟩ := minus sign
  exact ⟨y, others ++ rest, rfl, word', other⟩

/-- **A word starts** a plain scalar. -/
theorem fetch_word {x : Char} (shape : s.cursor.rest = x :: tail)
    (starts : StartsWord (x :: tail)) :
    s.fetch x = s.plainScalar := by
  obtain ⟨_, _, same, word, point, minus⟩ := starts
  obtain ⟨rfl, rfl⟩ := List.cons.inj same
  have apart : x ∉ ['%', '[', '\x7b', ']', '\x7d', ',', '?', ':', '*', '&', '!', '|', '>', '\'',
      '"', '#', '@', '\x60'] := not_mem_of_isWordChar word (by decide)
  simp only [List.mem_cons, List.not_mem_nil, or_false, not_or] at apart
  have solid := endsWord_of_isWordChar word
  by_cases sign : x = '-'
  · subst sign
    obtain ⟨y, others, rfl, word', other⟩ := minus rfl
    have next : s.cursor.peekAt 1 = some y := by
      rw [Cursor.peekAt, shape]
      rfl
    have first : s.cursor.seesMarker ['-', '-', '-'] = false := by
      simp [Cursor.seesMarker, shape, other.symm]
    have second : s.cursor.seesMarker ['.', '.', '.'] = false := by
      simp [Cursor.seesMarker, shape]
    have plain : s.seesPlain = true := by
      rw [seesPlain, Cursor.peek, shape]
      simp [next, endsWord_of_isWordChar word']
    simp [fetch, first, second, next, endsWord_of_isWordChar word', plain]
  · have plain : s.seesPlain = true := by
      rw [seesPlain, Cursor.peek, shape]
      simp [isIndicator, solid, apart, sign]
    simp [fetch, seesMarker_of_ne ⟨sign, point⟩ shape, apart, sign, plain]

end Fetch

/-! ### Tokens -/

theorem dropKey_of_free {s : Scanner} (free : s.key.any (·.required) = false) :
    s.dropKey = .ok { s with key := none } := by
  rw [dropKey, free, if_neg Bool.false_ne_true]

/-- **The place of a token is kept** where it may be a key. -/
theorem Ready.saveKey {depth : Nat} {fresh : Bool} {rest : List Char} {s : Scanner}
    (ready : Ready depth fresh rest s) :
    ∃ key, s.saveKey = .ok { s with key := key } ∧ key.any (·.required) = false ∧
      (s.allowKey = true → key = some
        ⟨s.tokens.length, false, s.cursor.index, s.cursor.line, s.cursor.column⟩) := by
  have level : decide (s.indent = s.cursor.column) = false := by
    rw [ready.indent]
    exact decide_eq_false (by omega)
  rw [Scanner.saveKey]
  by_cases allow : s.allowKey = true
  · rw [if_pos allow, dropKey_of_free ready.key]
    refine ⟨_, ?_, rfl, fun _ => rfl⟩
    simp [bind, Except.bind, pure, Except.pure, level]
  · rw [if_neg allow]
    exact ⟨s.key, rfl, ready.key, fun yes => absurd yes allow⟩

theorem Ready.inFlow {depth : Nat} {fresh : Bool} {rest : List Char} {s : Scanner}
    (ready : Ready depth fresh rest s) : s.inFlow = decide (0 < depth) := by
  rw [Scanner.inFlow, ← ready.depth]
  cases s.keys with
  | nil => rfl
  | cons => rfl

theorem plainScalar_of_saveKey {s s' : Scanner} {text : List Char} {broken : Bool} {c : Cursor}
    (saved : s.saveKey = .ok s')
    (read : plain s'.inFlow (s'.indent + 1) s'.cursor = (text, broken, c)) :
    s.plainScalar = .ok { s' with
      tokens := .scalar true text :: s'.tokens, cursor := c, allowKey := broken } := by
  simp only [plainScalar, saved, bind, Except.bind, read]
  rfl

theorem quotedScalar_of_saveKey {s s' : Scanner} {text : List Char} {c : Cursor}
    (saved : s.saveKey = .ok s') (read : quoted true (s'.cursor.skip 1) = .ok (text, c)) :
    s.quotedScalar true = .ok { s' with
      tokens := .scalar false text :: s'.tokens, cursor := c, allowKey := false } := by
  have next : quoted true s'.cursor.next = .ok (text, c) := read
  simp only [quotedScalar, saved, bind, Except.bind, next]
  rfl

/-- **A bracket opens** a level of its own. -/
theorem scans_open {x : Char} {token : Token} (start : isStart x = true) (tab : '\t' ≠ x)
    (fetch : ∀ {s : Scanner} {tail}, s.cursor.rest = x :: tail → s.fetch x = s.openFlow token)
    (depth : Nat) (rest : List Char) : Scans depth false [x] rest [token] (depth + 1) true := by
  refine scans_token start (by simpa using tab) fun s ready shape _ => ?_
  obtain ⟨key, saved, free, -⟩ := ready.saveKey
  have behind := (s.cursor.skip_of_append shape).1
  refine ⟨_, (fetch shape).trans (by rw [openFlow, saved]; rfl), ?_, rfl⟩
  refine ⟨ready.outer, ready.indent, rfl, List.forall_mem_cons.2 ⟨free, ready.keys⟩,
    congrArg (· + 1) ready.depth, fun _ => rfl, congrArg solid behind⟩

/-- **A bracket closes** its level. -/
theorem scans_close {x : Char} {token : Token} (start : isStart x = true) (tab : '\t' ≠ x)
    (fetch : ∀ {s : Scanner} {tail}, s.cursor.rest = x :: tail → s.fetch x = s.closeFlow token)
    (depth : Nat) (rest : List Char) : Scans (depth + 1) false [x] rest [token] depth false := by
  refine scans_token start (by simpa using tab) fun s ready shape _ => ?_
  have behind := (s.cursor.skip_of_append shape).1
  obtain ⟨key, keys, levels⟩ : ∃ key keys, s.keys = key :: keys :=
    List.exists_cons_of_length_eq_add_one ready.depth
  obtain ⟨free, others⟩ := List.forall_mem_cons.1 (levels ▸ ready.keys)
  refine ⟨_, (fetch shape).trans (by rw [closeFlow, levels]), ?_, rfl⟩
  have depth_eq := ready.depth
  rw [levels, List.length_cons] at depth_eq
  exact ⟨ready.outer, ready.indent, free, others, Nat.succ.inj depth_eq, nofun,
    congrArg solid behind⟩

/-- **Behind a comma** the next token may be a key. -/
theorem scans_comma (depth : Nat) (rest : List Char) :
    Scans (depth + 1) false [','] rest [.flowEntry] (depth + 1) true := by
  refine scans_token (by decide) (by decide) fun s ready shape _ => ?_
  have behind := (s.cursor.skip_of_append shape).1
  refine ⟨_, (fetch_comma shape).trans (by rw [flowEntry, dropKey_of_free ready.key]; rfl), ?_, rfl⟩
  exact ⟨ready.outer, ready.indent, rfl, ready.keys, ready.depth, fun _ => rfl,
    congrArg solid behind⟩

/-- **A word** is one token. -/
theorem scans_word {word : List Char} (starts : StartsWord word)
    (chars : ∀ c ∈ word, isWordChar c = true) (depth : Nat) {rest : List Char}
    (closed : Closed (decide (0 < depth)) rest) :
    Scans depth false word rest [.scalar true word] depth false := by
  obtain ⟨x, more, rfl, word, -⟩ := id starts
  have tab : '\t' ∉ x :: more := fun mem => by cases chars _ mem
  have start : isStart x = true := by
    have apart : x ∉ [' ', '\n', '\r', '\u0085', '\u2028', '\u2029', '#', '\uFEFF'] :=
      not_mem_of_isWordChar word (by decide)
    simp only [List.mem_cons, List.not_mem_nil, or_false, not_or] at apart
    simp [isStart, isGap, isBreak, apart]
  refine scans_token start tab fun s ready shape _ => ?_
  obtain ⟨key, saved, free, -⟩ := ready.saveKey
  obtain ⟨broken, behind, read, place⟩ :=
    plain_word (s.indent + 1) shape chars (List.cons_ne_nil _ _) closed
  have fetched : s.fetch x = s.plainScalar := fetch_word shape (starts.append rest)
  rw [← ready.inFlow] at read
  refine ⟨_, fetched.trans (plainScalar_of_saveKey saved read), ?_, rfl⟩
  exact ⟨ready.outer, ready.indent, free, ready.keys, ready.depth,
    fun no => absurd no Bool.false_ne_true, place⟩

/-- A tab is not passed over. -/
theorem exists_solid_of_tab {cs : List Char} (blank : ∀ c ∈ cs, c ≠ '\t' → isGap c = true)
    (tab : '\t' ∈ cs) (rest : List Char) : ∃ tail, solid (cs ++ rest) = '\t' :: tail := by
  induction cs with
  | nil => cases tab
  | cons c cs ih =>
    obtain ⟨first, others⟩ := List.forall_mem_cons.1 blank
    by_cases same : c = '\t'
    · subst same
      exact ⟨cs ++ rest, solid_cons (by decide) _⟩
    · obtain ⟨tail, shape⟩ := ih others ((List.mem_cons.1 tab).resolve_left (Ne.symm same))
      exact ⟨tail, (solid_cons_of_isGap (first same) _).trans shape⟩

/-- **Nothing is scanned from a tab on.** -/
theorem run_of_tab {depth : Nat} {fresh : Bool} {rest tail : List Char} {s : Scanner}
    (ready : Ready depth fresh rest s) (tab : solid rest = '\t' :: tail) (fuel : Nat) :
    run fuel s = .error .malformed := by
  obtain ⟨s', settled, ready', place, -⟩ := ready.settled (by rw [tab]; rfl)
  rw [tab] at place
  cases fuel with
  | zero => rfl
  | succ fuel =>
    rw [run_succ settled ready'.outer (by rw [Cursor.peek, place]; rfl), fetch_tab place]
    rfl

/-- Spaces and line feeds are all that there is in space besides. -/
theorem isGap_of_space {space : Space} (unbroken : Unbroken space.chars) :
    ∀ c ∈ space.chars, c ≠ '\t' → isGap c = true := by
  intro c mem tab
  have blank := space.blank c mem
  have carriage : c ≠ '\r' := fun same => by cases same ▸ unbroken c mem (same ▸ rfl)
  simp only [Json.isSpace, beq_iff_eq, Bool.or_eq_true] at blank
  simp only [isGap, Bool.or_eq_true, decide_eq_true_eq]
  tauto

/-- **A word is closed** by a comma or a bracket, with space in front of it. -/
theorem closed_space {space : Space} {x : Char} {more : List Char}
    (unbroken : Unbroken (space.chars ++ x :: more)) (mem : x ∈ [',', ']', '\x7d'])
    (rest : List Char) :
    Closed true (space.chars ++ x :: more ++ rest) := by
  intro c tail shape
  have blanks := isGap_of_space (unbroken_append.1 unbroken).1
  rw [List.append_assoc] at shape
  by_cases tab : '\t' ∈ space.chars
  · obtain ⟨tail', shape'⟩ := exists_solid_of_tab blanks tab (x :: more ++ rest)
    rw [shape'] at shape
    exact .inl (List.cons.inj shape).1.symm
  · have marks : ∀ x ∈ [',', ']', '\x7d'], isGap x = false :=
      List.all_iff_forall_prop.1 (by decide)
    rw [solid_append fun c mem => blanks c mem fun same => tab (same ▸ mem), List.cons_append,
      solid_cons (marks x mem)] at shape
    exact .inr ⟨rfl, (List.cons.inj shape).1 ▸ mem⟩

/-- **Space is passed over**, unless there is a tab in it. -/
theorem scans_space (space : Space) (depth : Nat) (fresh : Bool) (rest : List Char) :
    Scans depth fresh space.chars rest [] depth fresh := by
  intro s ready unbroken
  have blanks := isGap_of_space unbroken
  split
  · rename_i tab
    obtain ⟨tail, shape⟩ := exists_solid_of_tab blanks tab rest
    exact run_of_tab ready shape
  · rename_i tab
    have all : ∀ c ∈ space.chars, isGap c = true := fun c mem =>
      blanks c mem fun same => tab (same ▸ mem)
    refine ⟨0, s, Nat.zero_le _, fun _ => rfl, ?_, rfl⟩
    exact { ready with place := ready.place.trans (solid_append all rest) }

/-- Space in front of a text is passed over. -/
theorem Scans.behind {d d' : Nat} {f f' : Bool} {text rest : List Char} {tokens : List Token}
    (scans : Scans d f text rest tokens d' f') (space : Space) :
    Scans d f (space.chars ++ text) rest tokens d' f' :=
  (Scans.append (fun _ => scans_space space d f _) scans :
    Scans d f (space.chars ++ text) rest ([] ++ tokens) d' f')

/-- **A string is taken** whole, and its place is kept where it may be a key. -/
theorem Ready.fetch_string {pieces : List Piece} {depth : Nat} {fresh : Bool} {rest : List Char}
    {s : Scanner} (ready : Ready depth fresh ('"' :: piecesChars pieces ++ rest) s)
    (shape : s.cursor.rest = '"' :: piecesChars pieces ++ rest)
    (unbroken : Unbroken ('"' :: piecesChars pieces)) :
    ∃ s', s.fetch '"' = .ok s' ∧ Ready depth false rest s' ∧
      s'.tokens = .scalar false (pieces.flatMap Piece.yaml) :: s.tokens ∧
      s'.cursor = s.cursor.skip ('"' :: piecesChars pieces).length ∧
      (s.allowKey = true → s'.key = some
        ⟨s.tokens.length, false, s.cursor.index, s.cursor.line, s.cursor.column⟩) := by
  obtain ⟨key, saved, free, kept⟩ := ready.saveKey
  have behind := (s.cursor.skip_of_append shape).1
  have split : s.cursor.rest = ['"'] ++ (piecesChars pieces ++ rest) := shape
  have read := quoted_pieces (List.forall_mem_cons.1 unbroken).2 (s.cursor.skip_of_append split).1
  refine ⟨_, (fetch_quote shape).trans (quotedScalar_of_saveKey saved read), ?_, rfl, rfl, kept⟩
  exact ⟨ready.outer, ready.indent, free, ready.keys, ready.depth, nofun, congrArg solid behind⟩

/-- **A string** is one token. -/
theorem scans_string (pieces : List Piece) (depth : Nat) (rest : List Char) :
    Scans depth false ('"' :: piecesChars pieces) rest [.scalar false (pieces.flatMap Piece.yaml)]
      depth false := by
  have tab : '\t' ∉ '"' :: piecesChars pieces := by
    rintro (_ | ⟨_, mem⟩)
    exact absurd (visible_piecesChars pieces _ mem) (by decide)
  refine scans_token (by decide) tab fun s ready shape unbroken => ?_
  obtain ⟨s', fetched, ready', added, -⟩ := ready.fetch_string shape unbroken
  exact ⟨s', fetched, ready', added⟩

end Scanner

end Yaml

end DocumentFilter
