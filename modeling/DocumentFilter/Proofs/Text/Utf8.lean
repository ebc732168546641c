import DocumentFilter.Text.Utf8
import Mathlib.Data.List.Basic

/-!
# UTF-8, written and read

The bytes of a text are those of its characters, one after the other, and the machine reads each
character back: from between two characters it comes to between two characters again, and
completes that character. A number below U+10FFFF that is no half of a pair is the only thing
that the bounds between the bytes let through, so within a character the one thing to check is
that its own bytes lie in their bounds.

Nothing else is read. What the machine reads up to a place between two characters starts with the
bytes of a character, by the cases of its first byte, and so by induction it is the bytes of the
characters that it completed.

How bytes are cut into blocks does not matter to a machine that keeps its state from block to
block, unless it comes to a byte that cannot stand where it does. Then the block of that byte is
lost from its start (`DocumentFilter.Utf8.Breaks`).

* `DocumentFilter.Utf8.encode`: the bytes of a text;
* `DocumentFilter.Utf8.run_encodeChars`: they are read back;
* `DocumentFilter.Utf8.decode?_eq_some_iff`: **and nothing else is read**;
* `DocumentFilter.Utf8.decodeBlocks_encode`: the same of bytes that come in blocks;
* `DocumentFilter.Utf8.decodeBlocks_eq_false_iff`: what is read of bytes that break off.
-/

namespace DocumentFilter.Utf8

/-! ### Bytes one after the other -/

/-- What bytes do after others. -/
theorem run_append (state : State) (first next : List UInt8) :
    run state (first ++ next) = (run state first).bind fun read =>
      (run read.1 next).map fun more => (more.1, read.2 ++ more.2) := by
  induction first generalizing state with
  | nil => simp [run]
  | cons b rest ih =>
    rw [List.cons_append, run, run]
    rcases step state b.toNat with _ | ⟨state, cs⟩
    · rfl
    · simp only [ih]
      rcases run state rest with _ | ⟨middle, more⟩
      · rfl
      · simp only [Option.bind_some]
        rcases run middle next with _ | ⟨last, others⟩
        · rfl
        · simp

theorem toNat_ofNat {n : Nat} (lt : n < 256) : (UInt8.ofNat n).toNat = n := by
  rw [UInt8.toNat_ofNat', Nat.mod_eq_of_lt lt]

/-- A byte that completes no character changes the state alone. -/
theorem run_cons {state next : State} {n : Nat} (lt : n < 256)
    (moves : step state n = some (next, [])) (rest : List UInt8) :
    run state (UInt8.ofNat n :: rest) = run next rest := by
  rw [run, toNat_ofNat lt, moves]
  simp only
  rcases run next rest with _ | ⟨last, cs⟩
  · rfl
  · rfl

/-! ### The bytes of a character -/

/-- A byte in the middle of a character adds six digits to its number. -/
theorem run_middle {more low high code d : Nat} (lt : d < 64)
    (bounds : low ≤ d + 0x80 ∧ d + 0x80 ≤ high)
    (whole : more = 0 → startsHalf (code * 64 + d) = false) (rest : List UInt8) :
    run (.within (more + 2) low high code) (UInt8.ofNat (d + 0x80) :: rest) =
      run (.within (more + 1) 0x80 0xBF (code * 64 + d)) rest := by
  refine run_cons (by omega) ?_ rest
  rw [step, if_pos bounds, Nat.add_sub_cancel]
  simp only
  rw [if_neg (by omega), if_neg]
  · rfl
  · rintro ⟨two, half⟩
    rw [whole (by omega)] at half
    cases half

/-- The last byte of a character completes it. -/
theorem run_last {low high code d : Nat} (lt : d < 64)
    (bounds : low ≤ d + 0x80 ∧ d + 0x80 ≤ high) :
    run (.within 1 low high code) [UInt8.ofNat (d + 0x80)] =
      some (.between, [Char.ofNat (code * 64 + d)]) := by
  rw [run, toNat_ofNat (by omega), step, if_pos bounds, Nat.add_sub_cancel]
  rfl

/-- The number of a character is that of no half of a pair. -/
theorem startsHalf_eq_false {code : Nat} (h : code * 64 + 63 < 0xD800 ∨ 0xDFFF < code * 64) :
    startsHalf code = false := by
  rw [startsHalf, Bool.and_eq_false_iff, decide_eq_false_iff_not, decide_eq_false_iff_not]
  omega

/-- **A character is read back** from its bytes. -/
theorem run_utf8EncodeChar (c : Char) :
    run .between (String.utf8EncodeChar c) = some (.between, [c]) := by
  have valid := c.valid
  have code : Char.ofNat c.val.toNat = c := Char.ofNat_toNat c
  rw [UInt32.isValidChar, Nat.isValidChar] at valid
  unfold String.utf8EncodeChar
  generalize c.val.toNat = v at valid code
  simp only
  split
  · rename_i one
    rw [run, toNat_ofNat (by omega), step, first, if_pos (by omega), code]
    rfl
  split
  · rename_i two
    have lead : step .between (v / 64 % 32 + 0xC0) =
        some (.within 1 0x80 0xBF (v / 64 % 32), []) := by
      rw [step, first, if_neg (by omega), if_neg (by omega), if_pos (by omega), Nat.add_sub_cancel]
    have number : v / 64 % 32 * 64 + v % 64 = v := by omega
    rw [run_cons (by omega) lead, run_last (by omega) (by omega), number, code]
  split
  · rename_i three
    have lead : step .between (v / 4096 % 16 + 0xE0) = some (.within 2
        (if v / 4096 % 16 + 0xE0 = 0xE0 then 0xA0 else 0x80) 0xBF (v / 4096 % 16), []) := by
      rw [step, first, if_neg (by omega), if_neg (by omega), if_neg (by omega), if_pos (by omega),
        Nat.add_sub_cancel]
    have number : (v / 4096 % 16 * 64 + v / 64 % 64) * 64 + v % 64 = v := by omega
    rw [run_cons (by omega) lead, run_middle (by omega) (by split <;> omega),
      run_last (by omega) (by omega), number, code]
    exact fun _ => startsHalf_eq_false (by omega)
  · have lead : step .between (v / 262144 % 8 + 0xF0) = some (.within 3
        (if v / 262144 % 8 + 0xF0 = 0xF0 then 0x90 else 0x80)
        (if v / 262144 % 8 + 0xF0 = 0xF4 then 0x8F else 0xBF) (v / 262144 % 8), []) := by
      rw [step, first, if_neg (by omega), if_neg (by omega), if_neg (by omega), if_neg (by omega),
        if_pos (by omega), Nat.add_sub_cancel]
    have number : ((v / 262144 % 8 * 64 + v / 4096 % 64) * 64 + v / 64 % 64) * 64 + v % 64 = v := by
      omega
    rw [run_cons (by omega) lead, run_middle (by omega) (by split <;> split <;> omega),
      run_middle (by omega) (by omega), run_last (by omega) (by omega), number, code]
    · exact fun _ => startsHalf_eq_false (by omega)
    · rintro ⟨⟩

/-! ### The bytes of a text -/

/-- **The bytes of a text**. -/
def encode (s : String) : List UInt8 :=
  s.toList.flatMap String.utf8EncodeChar

/-- The characters of a text are read back. -/
theorem run_encodeChars (cs : List Char) :
    run .between (cs.flatMap String.utf8EncodeChar) = some (.between, cs) := by
  induction cs with
  | nil => rfl
  | cons c rest ih =>
    rw [List.flatMap_cons, run_append, run_utf8EncodeChar, Option.bind_some, ih]
    rfl

theorem decode?_encode (s : String) : decode? (encode s) = some s.toList := by
  rw [decode?, encode, run_encodeChars]

/-! ### Only the bytes of a text are read -/

/-- What is read has a first byte that can stand there, and a rest. -/
theorem run_cons_eq_some {state last : State} {b : UInt8} {rest : List UInt8} {cs : List Char}
    (read : run state (b :: rest) = some (last, cs)) :
    ∃ next front back, step state b.toNat = some (next, front) ∧
      run next rest = some (last, back) ∧ cs = front ++ back := by
  rw [run] at read
  split at read
  · cases read
  · rename_i next front moves
    split at read
    · cases read
    · rename_i last back more
      cases read
      exact ⟨next, front, back, moves, more, rfl⟩

/-- **A character is read** from its last byte. -/
theorem exists_of_run_last {low high code : Nat} (ge : 0x80 ≤ low) (le : high ≤ 0xBF)
    {bytes : List UInt8} {cs : List Char}
    (read : run (.within 1 low high code) bytes = some (.between, cs)) :
    ∃ d tail others, d < 64 ∧ low ≤ d + 0x80 ∧ d + 0x80 ≤ high ∧
      bytes = UInt8.ofNat (d + 0x80) :: tail ∧ cs = Char.ofNat (code * 64 + d) :: others ∧
      run .between tail = some (.between, others) := by
  cases bytes with
  | nil => cases read
  | cons b tail =>
    obtain ⟨next, front, back, moves, more, rfl⟩ := run_cons_eq_some read
    rw [step] at moves
    split at moves
    · rename_i bounds
      cases moves
      have same : b.toNat - 0x80 + 0x80 = b.toNat := by omega
      exact ⟨b.toNat - 0x80, tail, back, by omega, by omega, by omega,
        by rw [same, UInt8.ofNat_toNat], rfl, more⟩
    · cases moves

/-- A byte in the middle is followed by the others. -/
theorem exists_of_run_middle {more low high code : Nat} (ge : 0x80 ≤ low) (le : high ≤ 0xBF)
    {bytes : List UInt8} {cs : List Char}
    (read : run (.within (more + 2) low high code) bytes = some (.between, cs)) :
    ∃ d tail, d < 64 ∧ low ≤ d + 0x80 ∧ d + 0x80 ≤ high ∧
      bytes = UInt8.ofNat (d + 0x80) :: tail ∧ (more = 0 → startsHalf (code * 64 + d) = false) ∧
      run (.within (more + 1) 0x80 0xBF (code * 64 + d)) tail = some (.between, cs) := by
  cases bytes with
  | nil => cases read
  | cons b tail =>
    obtain ⟨next, front, back, moves, others, rfl⟩ := run_cons_eq_some read
    rw [step] at moves
    split at moves
    · rename_i bounds
      simp only at moves
      rw [if_neg (by omega)] at moves
      have same : b.toNat - 0x80 + 0x80 = b.toNat := by omega
      refine ⟨b.toNat - 0x80, tail, by omega, by omega, by omega,
        by rw [same, UInt8.ofNat_toNat], ?_⟩
      split at moves
      · -- nothing goes on behind the start of a half of a pair
        cases moves
        cases tail with
        | nil => cases others
        | cons b' tail =>
          obtain ⟨next, front, back, stuck, -⟩ := run_cons_eq_some others
          cases stuck
      · rename_i whole
        cases moves
        refine ⟨fun zero => ?_, others⟩
        rw [← Bool.not_eq_true]
        exact fun half => whole ⟨by omega, half⟩
    · cases moves

/-- The number of a character that starts no half of a pair is not that of a half. -/
theorem not_half_of_startsHalf {code d : Nat} (lt : d < 64) (h : startsHalf code = false) :
    code * 64 + d < 0xD800 ∨ 0xDFFF < code * 64 + d := by
  rw [startsHalf, Bool.and_eq_false_iff, decide_eq_false_iff_not, decide_eq_false_iff_not] at h
  omega

theorem utf8EncodeChar_ofNat {v : Nat} (valid : v < 0xD800 ∨ 0xDFFF < v ∧ v < 0x110000) :
    String.utf8EncodeChar (Char.ofNat v) =
      if v ≤ 0x7F then [UInt8.ofNat v]
      else if v ≤ 0x7FF then [UInt8.ofNat (v / 64 % 32 + 0xC0), UInt8.ofNat (v % 64 + 0x80)]
      else if v ≤ 0xFFFF then
        [UInt8.ofNat (v / 4096 % 16 + 0xE0), UInt8.ofNat (v / 64 % 64 + 0x80),
          UInt8.ofNat (v % 64 + 0x80)]
      else
        [UInt8.ofNat (v / 262144 % 8 + 0xF0), UInt8.ofNat (v / 4096 % 64 + 0x80),
          UInt8.ofNat (v / 64 % 64 + 0x80), UInt8.ofNat (v % 64 + 0x80)] := by
  have code : (Char.ofNat v).val.toNat = v := by
    rw [Char.ofNat, dif_pos valid]
    rfl
  unfold String.utf8EncodeChar
  rw [code]

/-- The bytes of a character of two. -/
theorem encode_two {b : UInt8} {d : Nat} (lower : 0xC2 ≤ b.toNat) (upper : b.toNat < 0xE0)
    (lt : d < 64) :
    String.utf8EncodeChar (Char.ofNat ((b.toNat - 0xC0) * 64 + d)) =
      [b, UInt8.ofNat (d + 0x80)] := by
  generalize code : (b.toNat - 0xC0) * 64 + d = v
  have lead : v / 64 % 32 + 0xC0 = b.toNat := by omega
  have last : v % 64 = d := by omega
  rw [utf8EncodeChar_ofNat (by omega), if_neg (by omega), if_pos (by omega), lead, last,
    UInt8.ofNat_toNat]

/-- The bytes of a character of three. -/
theorem encode_three {b : UInt8} {d d' : Nat} (lower : 0xE0 ≤ b.toNat) (upper : b.toNat < 0xF0)
    (lt : d < 64) (lt' : d' < 64) (long : (if b.toNat = 0xE0 then 0xA0 else 0x80) ≤ d + 0x80)
    (whole : startsHalf ((b.toNat - 0xE0) * 64 + d) = false) :
    String.utf8EncodeChar (Char.ofNat (((b.toNat - 0xE0) * 64 + d) * 64 + d')) =
      [b, UInt8.ofNat (d + 0x80), UInt8.ofNat (d' + 0x80)] := by
  have valid := not_half_of_startsHalf lt' whole
  generalize code : ((b.toNat - 0xE0) * 64 + d) * 64 + d' = v at valid
  have bounds : 0x800 ≤ v ∧ v < 0x10000 := by split at long <;> omega
  have lead : v / 4096 % 16 + 0xE0 = b.toNat := by omega
  have second : v / 64 % 64 = d := by omega
  have last : v % 64 = d' := by omega
  rw [utf8EncodeChar_ofNat (by omega), if_neg (by omega), if_neg (by omega), if_pos (by omega),
    lead, second, last, UInt8.ofNat_toNat]

/-- The bytes of a character of four. -/
theorem encode_four {b : UInt8} {d d' d'' : Nat} (lower : 0xF0 ≤ b.toNat) (lt : d < 64)
    (lt' : d' < 64) (lt'' : d'' < 64)
    (long : (if b.toNat = 0xF0 then 0x90 else 0x80) ≤ d + 0x80)
    (short : d + 0x80 ≤ if b.toNat = 0xF4 then 0x8F else 0xBF) (upper : b.toNat < 0xF5) :
    String.utf8EncodeChar
        (Char.ofNat ((((b.toNat - 0xF0) * 64 + d) * 64 + d') * 64 + d'')) =
      [b, UInt8.ofNat (d + 0x80), UInt8.ofNat (d' + 0x80), UInt8.ofNat (d'' + 0x80)] := by
  generalize code : (((b.toNat - 0xF0) * 64 + d) * 64 + d') * 64 + d'' = v
  have bounds : 0x10000 ≤ v ∧ v < 0x110000 := by split at long <;> split at short <;> omega
  have lead : v / 262144 % 8 + 0xF0 = b.toNat := by omega
  have second : v / 4096 % 64 = d := by omega
  have third : v / 64 % 64 = d' := by omega
  have last : v % 64 = d'' := by omega
  rw [utf8EncodeChar_ofNat (by omega), if_neg (by omega), if_neg (by omega), if_neg (by omega),
    lead, second, third, last, UInt8.ofNat_toNat]

/-- **What is read starts with the bytes of a character.** The cases are those of its first
byte. -/
theorem exists_char_of_run {b : UInt8} {rest : List UInt8} {cs : List Char}
    (read : run .between (b :: rest) = some (.between, cs)) :
    ∃ c tail others, b :: rest = String.utf8EncodeChar c ++ tail ∧ cs = c :: others ∧
      run .between tail = some (.between, others) := by
  obtain ⟨next, front, back, moves, more, rfl⟩ := run_cons_eq_some read
  rw [step, first] at moves
  split at moves
  · rename_i one
    cases moves
    refine ⟨Char.ofNat b.toNat, rest, back, ?_, rfl, more⟩
    rw [utf8EncodeChar_ofNat (by omega), if_pos (by omega), UInt8.ofNat_toNat]
    rfl
  split at moves
  · cases moves
  split at moves
  · cases moves
    obtain ⟨d, tail, others, lt, -, -, rfl, rfl, next⟩ :=
      exists_of_run_last (Nat.le_refl _) (Nat.le_refl _) more
    refine ⟨_, tail, others, ?_, rfl, next⟩
    rw [encode_two (by omega) (by omega) lt]
    rfl
  split at moves
  · cases moves
    obtain ⟨d, tail, lt, long, -, rfl, whole, more⟩ :=
      exists_of_run_middle (by split <;> omega) (Nat.le_refl _) more
    obtain ⟨d', tail, others, lt', -, -, rfl, rfl, next⟩ :=
      exists_of_run_last (Nat.le_refl _) (Nat.le_refl _) more
    refine ⟨_, tail, others, ?_, rfl, next⟩
    rw [encode_three (by omega) (by omega) lt lt' long (whole rfl)]
    rfl
  split at moves
  · cases moves
    obtain ⟨d, tail, lt, long, short, rfl, -, more⟩ :=
      exists_of_run_middle (by split <;> omega) (by split <;> omega) more
    obtain ⟨d', tail, lt', -, -, rfl, -, more⟩ :=
      exists_of_run_middle (Nat.le_refl _) (Nat.le_refl _) more
    obtain ⟨d'', tail, others, lt'', -, -, rfl, rfl, next⟩ :=
      exists_of_run_last (Nat.le_refl _) (Nat.le_refl _) more
    refine ⟨_, tail, others, ?_, rfl, next⟩
    rw [encode_four (by omega) lt lt' lt'' long short (by omega)]
    rfl
  · cases moves

/-- **Only the bytes of a text are read**, and as that text. -/
theorem eq_encode_of_run {bytes : List UInt8} {cs : List Char}
    (read : run .between bytes = some (.between, cs)) : bytes = encode (String.ofList cs) := by
  rw [encode, String.toList_ofList]
  induction h : bytes.length using Nat.strongRecOn generalizing bytes cs with
  | ind n ih =>
    cases bytes with
    | nil =>
      cases read
      rfl
    | cons b rest =>
      obtain ⟨c, tail, others, shape, rfl, more⟩ := exists_char_of_run read
      have shorter : tail.length < n := by
        have length := congrArg List.length shape
        have pos := String.utf8EncodeChar_ne_nil (c := c)
        have := List.length_pos_iff.2 pos
        rw [List.length_append] at length
        omega
      rw [shape, List.flatMap_cons, ← ih _ shorter more rfl]

/-- **What is decoded**: the bytes of a text, and nothing else. -/
theorem decode?_eq_some_iff {bytes : List UInt8} {cs : List Char} :
    decode? bytes = some cs ↔ bytes = encode (String.ofList cs) := by
  constructor
  · intro read
    rw [decode?] at read
    split at read
    · rename_i more run
      cases read
      exact eq_encode_of_run run
    · cases read
  · rintro rfl
    rw [decode?_encode, String.toList_ofList]

theorem decode?_eq_none_iff {bytes : List UInt8} :
    decode? bytes = none ↔ ∀ text, bytes ≠ encode text := by
  constructor
  · rintro none text rfl
    rw [decode?_encode] at none
    cases none
  · intro no
    cases read : decode? bytes with
    | none => rfl
    | some cs => exact absurd (decode?_eq_some_iff.1 read) (no _)

/-! ### Blocks -/

/-- **Blocks are read like their bytes in one piece**, if those end between two characters. -/
theorem decodeBlocks_of_run {state : State} {blocks : List (List UInt8)} {cs : List Char}
    (read : run state blocks.flatten = some (.between, cs)) :
    decodeBlocks state blocks = (cs, true) := by
  induction blocks generalizing state cs with
  | nil =>
    cases read
    rfl
  | cons block rest ih =>
    rw [List.flatten_cons, run_append] at read
    obtain ⟨⟨middle, front⟩, first, read⟩ := Option.bind_eq_some_iff.1 read
    obtain ⟨⟨last, back⟩, others, read⟩ := Option.map_eq_some_iff.1 read
    cases read
    rw [decodeBlocks, first]
    simp only [ih others]

/-- **Blocks are read to the end** like their bytes in one piece. -/
theorem decodeBlocks_eq_true_iff {state : State} {blocks : List (List UInt8)} {cs : List Char} :
    decodeBlocks state blocks = (cs, true) ↔ run state blocks.flatten = some (.between, cs) := by
  refine ⟨fun read => ?_, decodeBlocks_of_run⟩
  induction blocks generalizing state cs with
  | nil =>
    rw [decodeBlocks, Prod.mk.injEq, decide_eq_true_eq] at read
    obtain ⟨rfl, rfl⟩ := read
    rfl
  | cons block rest ih =>
    rw [decodeBlocks] at read
    split at read
    · cases read
    · rename_i middle front first
      obtain ⟨rfl, all⟩ := Prod.mk.inj read
      rw [List.flatten_cons, run_append, first, Option.bind_some, ih (Prod.ext rfl all)]
      rfl

theorem flatten_blocks {size : Nat} (ne : size ≠ 0) (bytes : List UInt8) :
    (blocks size bytes).flatten = bytes := by
  fun_induction blocks size bytes with
  | case1 bytes h => exact (h.resolve_left ne).symm
  | case2 bytes h ih => rw [List.flatten_cons, ih, List.take_append_drop]

/-- **The bytes of a text are read back**, whatever the size of the blocks that they come in. -/
theorem decodeBlocks_encode {size : Nat} (ne : size ≠ 0) (s : String) :
    decodeBlocks .between (blocks size (encode s)) = (s.toList, true) := by
  refine decodeBlocks_of_run ?_
  rw [flatten_blocks ne]
  exact run_encodeChars s.toList

/-- **Bytes break off** where a block cannot be decoded or the last one ends within a character;
the characters are those of the blocks before. -/
def Breaks (size : Nat) (state : State) (bytes : List UInt8) (cs : List Char) : Prop :=
  ∃ n last, run state (bytes.take (n * size)) = some (last, cs) ∧
    (run state (bytes.take ((n + 1) * size)) = none ∨
      bytes.length ≤ n * size ∧ last ≠ .between)

theorem breaks_nil {size : Nat} {state : State} {cs : List Char} :
    Breaks size state [] cs ↔ cs = [] ∧ state ≠ .between := by
  constructor
  · rintro ⟨n, last, read, stops⟩
    rw [List.take_nil] at read stops
    cases read
    exact ⟨rfl, stops.elim nofun (·.2)⟩
  · rintro ⟨rfl, inside⟩
    exact ⟨0, state, by rw [List.take_nil]; rfl, .inr ⟨Nat.zero_le _, inside⟩⟩

/-- Where the first block cannot be decoded there is nothing before. -/
theorem breaks_of_run_none {size : Nat} {state : State} {bytes : List UInt8} {cs : List Char}
    (none : run state (bytes.take size) = none) : Breaks size state bytes cs ↔ cs = [] := by
  constructor
  · rintro ⟨n, last, read, -⟩
    cases n with
    | zero =>
      rw [Nat.zero_mul, List.take_zero] at read
      cases read
      rfl
    | succ n =>
      rw [Nat.succ_mul, Nat.add_comm, List.take_add, run_append, none] at read
      cases read
  · rintro rfl
    refine ⟨0, state, by rw [Nat.zero_mul, List.take_zero]; rfl, .inl ?_⟩
    rwa [Nat.zero_add, Nat.one_mul]

/-- Behind a block that is decoded the others go on. -/
theorem breaks_of_run_some {size : Nat} {state next : State} {bytes : List UInt8}
    {front cs : List Char} (ne : bytes ≠ [])
    (some : run state (bytes.take size) = some (next, front)) :
    Breaks size state bytes cs ↔ ∃ more, Breaks size next (bytes.drop size) more ∧
      cs = front ++ more := by
  have go : ∀ n, run state (bytes.take ((n + 1) * size)) =
      (run next ((bytes.drop size).take (n * size))).map fun more => (more.1, front ++ more.2) := by
    intro n
    rw [Nat.succ_mul, Nat.add_comm, List.take_add, run_append, some, Option.bind_some]
  have length : ∀ n, bytes.length ≤ (n + 1) * size ↔ (bytes.drop size).length ≤ n * size := by
    intro n
    rw [List.length_drop, Nat.succ_mul]
    omega
  constructor
  · rintro ⟨n, last, read, stops⟩
    cases n with
    | zero =>
      rw [Nat.zero_add, Nat.one_mul, some, Nat.zero_mul] at stops
      have nil := stops.resolve_left nofun
      exact absurd (List.length_eq_zero_iff.1 (Nat.le_zero.1 nil.1)) ne
    | succ n =>
      rw [go] at read stops
      obtain ⟨⟨last', more⟩, others, same⟩ := Option.map_eq_some_iff.1 read
      cases same
      rw [Option.map_eq_none_iff, length] at stops
      exact ⟨more, ⟨n, last', others, stops⟩, rfl⟩
  · rintro ⟨more, ⟨n, last, read, stops⟩, rfl⟩
    refine ⟨n + 1, last, by rw [go, read]; rfl, ?_⟩
    rwa [go, Option.map_eq_none_iff, length]

/-- **Blocks are not read to the end** exactly if their bytes break off. -/
theorem decodeBlocks_eq_false_iff {size : Nat} (pos : size ≠ 0) {state : State}
    {bytes : List UInt8} {cs : List Char} :
    decodeBlocks state (blocks size bytes) = (cs, false) ↔ Breaks size state bytes cs := by
  fun_induction blocks size bytes generalizing state cs with
  | case1 bytes h =>
    rw [h.resolve_left pos, breaks_nil, decodeBlocks, Prod.mk.injEq, decide_eq_false_iff_not,
      eq_comm]
  | case2 bytes h ih =>
    have ne : bytes ≠ [] := fun nil => h (.inr nil)
    rw [decodeBlocks]
    cases first : run state (bytes.take size) with
    | none =>
      rw [breaks_of_run_none first, Prod.mk.injEq, eq_comm]
      simp
    | some read =>
      obtain ⟨next, front⟩ := read
      rw [breaks_of_run_some ne first]
      simp only [← ih]
      constructor
      · intro read
        obtain ⟨rfl, all⟩ := Prod.mk.inj read
        exact ⟨_, Prod.ext rfl all, rfl⟩
      · rintro ⟨more, read, rfl⟩
        rw [read]

end DocumentFilter.Utf8
