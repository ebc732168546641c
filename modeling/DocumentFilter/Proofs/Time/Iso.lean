import DocumentFilter.Proofs.Text.Numeral
import DocumentFilter.Time.Iso

/-!
# Written timestamps

The reader of ISO 8601 takes many forms, and decides by looking at single characters which of
them it has before it. Here is the form that is written, as a grammar: a date `YYYY-MM-DD`,
one character and a time `HH:MM`, `HH:MM:SS` or `HH:MM:SS` with a fraction of a second, and
behind it nothing or a sign and a time again. Each part has a relation between its text and
its value, and the reader gives back the value.

The one place where the parts are not independent is the length of the date, which the
reader finds before it reads anything. It sees the dash after the year and no `W` behind it.

* `DocumentFilter.Iso.DateText`, `DocumentFilter.Iso.ClockText`,
  `DocumentFilter.Iso.OffsetText`: the grammar;
* `DocumentFilter.Iso.form?_date`, `DocumentFilter.Iso.form?_dateTime`: the reader on it;
* `DocumentFilter.Timestamp.ofText_dateTime`: from the parts to the timestamp.
-/

namespace DocumentFilter

namespace Numeral

variable {width n : Nat} {cs : List Char}

/-- **A numeral is read** from the front of a text. -/
theorem digits?_append (h : Numeral width cs n) (rest : List Char) :
    Iso.digits? width (cs ++ rest) = some (n, rest) := by
  obtain ⟨ds, read, rfl⟩ := h.read
  rw [Iso.digits?, if_neg (by simp [h.length]), List.take_left' h.length,
    List.drop_left' h.length, read]
  rfl

theorem digits?_self (h : Numeral width cs n) : Iso.digits? width cs = some (n, []) := by
  have read := h.digits?_append []
  rwa [List.append_nil] at read

end Numeral

/-- What is read from the front of a text is a numeral. -/
theorem exists_numeral_of_digits? {width n : Nat} {cs rest : List Char}
    (h : Iso.digits? width cs = some (n, rest)) :
    ∃ front, Numeral width front n ∧ cs = front ++ rest := by
  rw [Iso.digits?] at h
  split at h
  · cases h
  · rename_i long
    obtain ⟨ds, read, same⟩ := Option.map_eq_some_iff.1 h
    cases same
    exact ⟨cs.take width, ⟨List.length_take_of_le (Nat.le_of_not_lt long), ds, read, rfl⟩,
      (List.take_append_drop width cs).symm⟩

namespace Iso

/-! ### The grammar -/

/-- The text of a date, `YYYY-MM-DD`. -/
inductive DateText : List Char → Date → Prop
  | intro {ys ms ds : List Char} {year month day : Nat} (years : Numeral 4 ys year)
      (months : Numeral 2 ms month) (days : Numeral 2 ds day) :
      DateText (ys ++ '-' :: (ms ++ '-' :: ds)) ⟨year, month, day⟩

/-- The text of a time of day: `HH:MM`, or the same without the colon, `HH:MM:SS`, or that
with a fraction of the second. -/
inductive ClockText : List Char → Clock → Prop
  | minutes {hs ms : List Char} {hour minute : Nat} (hours : Numeral 2 hs hour)
      (minutes : Numeral 2 ms minute) : ClockText (hs ++ ':' :: ms) ⟨hour, minute, 0, 0⟩
  | compact {hs ms : List Char} {hour minute : Nat} (hours : Numeral 2 hs hour)
      (minutes : Numeral 2 ms minute) : ClockText (hs ++ ms) ⟨hour, minute, 0, 0⟩
  | seconds {hs ms ss : List Char} {hour minute second : Nat} (hours : Numeral 2 hs hour)
      (minutes : Numeral 2 ms minute) (seconds : Numeral 2 ss second) :
      ClockText (hs ++ ':' :: (ms ++ ':' :: ss)) ⟨hour, minute, second, 0⟩
  | fraction {hs ms ss fs : List Char} {hour minute second micro : Nat} {point : Char}
      (hours : Numeral 2 hs hour) (minutes : Numeral 2 ms minute)
      (seconds : Numeral 2 ss second) (pointed : point = '.' ∨ point = ',')
      (read : fraction? fs = some micro) :
      ClockText (hs ++ ':' :: (ms ++ ':' :: (ss ++ point :: fs))) ⟨hour, minute, second, micro⟩

/-- The text of an offset behind a time: nothing, or a sign and a time. -/
inductive OffsetText : List Char → Option Int → Prop
  | none : OffsetText [] none
  | ahead {cs : List Char} {clock : Clock} (size : ClockText cs clock) :
      OffsetText ('+' :: cs) (some (ahead clock))
  | behind {cs : List Char} {clock : Clock} (size : ClockText cs clock) :
      OffsetText ('-' :: cs) (some (-ahead clock))

/-- A fraction has digits only, and at least one. -/
theorem digits_of_fraction? {cs : List Char} {micro : Nat} (h : fraction? cs = some micro) :
    cs ≠ [] ∧ ∀ c ∈ cs, ∃ d, Text.asciiDigit? c = some d := by
  rw [fraction?] at h
  split at h
  · cases h
  · rename_i ne
    obtain ⟨ds, read, -⟩ := Option.map_eq_some_iff.1 h
    have numeral : Numeral cs.length cs (Decimal.value ds) := ⟨rfl, ds, read, rfl⟩
    exact ⟨ne, fun c mem => numeral.digit mem⟩

/-- The characters of a time of day. -/
def IsClockChar (c : Char) : Prop :=
  (∃ d, Text.asciiDigit? c = some d) ∨ c = ':' ∨ c = '.' ∨ c = ','

theorem IsClockChar.isZoneMark {c : Char} (h : IsClockChar c) : isZoneMark c = false := by
  rcases h with ⟨d, digit⟩ | rfl | rfl | rfl
  · have plus : c ≠ '+' := Text.ne_of_asciiDigit? digit rfl
    have minus : c ≠ '-' := Text.ne_of_asciiDigit? digit rfl
    have zed : c ≠ 'Z' := Text.ne_of_asciiDigit? digit rfl
    simp [Iso.isZoneMark, plus, minus, zed]
  all_goals rfl

/-- A fraction that has digits only is read to its end. -/
theorem micros?_of_fraction? {cs : List Char} {micro : Nat} (h : fraction? cs = some micro) :
    micros? cs = some (micro, []) := by
  have digits := (digits_of_fraction? h).2
  rw [fraction?, if_neg (digits_of_fraction? h).1] at h
  obtain ⟨ds, read, rfl⟩ := Option.map_eq_some_iff.1 h
  have passed : ((cs.drop 6).dropWhile fun c => (Text.asciiDigit? c).isSome) = [] := by
    refine List.dropWhile_eq_nil_iff.2 fun c mem => ?_
    obtain ⟨d, digit⟩ := digits c (List.mem_of_mem_drop mem)
    rw [digit]
    rfl
  have same : ((ds.take 6) ++ [0, 0, 0, 0, 0]).take 6 = (ds ++ [0, 0, 0, 0, 0]).take 6 := by
    rw [List.take_append, List.take_append, List.take_take, Nat.min_self, List.length_take]
    congr 2
    omega
  rw [micros?, mapM_take read, Option.map_some, same, passed]

/-! ### Fields -/

section Fields

variable {number more : Nat} {ns rest : List Char} {colons : Option Bool}
  (field : Numeral 2 ns number)
include field

/-- The last field of a time. -/
theorem fields?_last : fields? (more + 1) colons ns = some ⟨[number], 0, []⟩ := by
  rw [fields?, field.digits?_self]
  rfl

/-- A field with a colon and more behind it. -/
theorem fields?_colon (separate : colons = some true ∨ colons = none) (ne : rest ≠ []) :
    fields? (more + 1) colons (ns ++ ':' :: rest) =
      (fields? more (some true) rest).map (Fields.behind number) := by
  rw [fields?, field.digits?_append]
  rcases separate with rfl | rfl
  · simp [ne]
  · simp [ne]

/-- A field with a point or a comma and more behind it. -/
theorem fields?_point {point : Char} (pointed : point = '.' ∨ point = ',') (ne : rest ≠ []) :
    fields? (more + 1) colons (ns ++ point :: rest) =
      (micros? rest).map fun (micro, left) => ⟨[number], micro, left⟩ := by
  rw [fields?, field.digits?_append]
  rcases pointed with rfl | rfl
  · simp [ne]
  · simp [ne]

/-- A field with a digit and more behind it. -/
theorem fields?_compact (separate : colons = some false ∨ colons = none) {c : Char} {d : Nat}
    (digit : Text.asciiDigit? c = some d) (ne : rest ≠ []) :
    fields? (more + 1) colons (ns ++ c :: rest) =
      (fields? more (some false) (c :: rest)).map (Fields.behind number) := by
  have colon : c ≠ ':' := Text.ne_of_asciiDigit? digit rfl
  have point : c ≠ '.' := Text.ne_of_asciiDigit? digit rfl
  have comma : c ≠ ',' := Text.ne_of_asciiDigit? digit rfl
  rw [fields?, field.digits?_append]
  rcases separate with rfl | rfl
  · simp [ne, point, comma]
  · simp [ne, colon, point, comma]

end Fields

namespace DateText

variable {cs : List Char} {date : Date}

theorem ends (h : DateText cs date) : StartsInDigit cs ∧ EndsInDigit cs := by
  cases h with
  | intro years months days =>
    exact ⟨(years.ends (by decide)).1.append _, ((((days.ends (by decide)).2.cons '-').append
      _).cons '-').append _⟩

theorem length (h : DateText cs date) : cs.length = 10 := by
  cases h with
  | intro years months days =>
    simp [years.length, months.length, days.length]

/-- The reader finds the end of the date. -/
theorem dateLength_append (h : DateText cs date) (rest : List Char) :
    dateLength (cs ++ rest) = 10 := by
  cases h with
  | @intro ys ms ds _ _ _ years months days =>
    obtain ⟨c, d, others, rfl, digit⟩ := (months.ends (by decide)).1
    have plain : c ≠ 'W' := Text.ne_of_asciiDigit? digit rfl
    have behind : (ys ++ '-' :: (c :: others ++ '-' :: ds) ++ rest).drop 4 =
        '-' :: c :: (others ++ '-' :: ds ++ rest) := by
      rw [List.append_assoc, List.drop_left' years.length]
      simp
    rw [dateLength, behind]
    -- behind a dash only a `W` makes a difference
    split <;> simp_all

theorem date?_eq (h : DateText cs date) : date? cs = some date := by
  cases h with
  | @intro ys ms ds year month day years months days =>
    obtain ⟨c, d, others, rfl, digit⟩ := (months.ends (by decide)).1
    have plain : c ≠ 'W' := Text.ne_of_asciiDigit? digit rfl
    have behind : monthDay? true year (c :: others ++ '-' :: ds) =
        some ⟨year, month, day⟩ := by
      unfold monthDay?
      split
      · rename_i same
        exact absurd (List.cons.inj same).1 plain
      · rw [months.digits?_append]
        simp [dash?, days.digits?_self, ending]
    rw [date?, years.digits?_append]
    exact behind

end DateText

namespace ClockText

variable {cs : List Char} {clock : Clock}

theorem startsInDigit (h : ClockText cs clock) : StartsInDigit cs := by
  cases h with
  | minutes hours => exact (hours.ends (by decide)).1.append _
  | compact hours => exact (hours.ends (by decide)).1.append _
  | seconds hours => exact (hours.ends (by decide)).1.append _
  | fraction hours => exact (hours.ends (by decide)).1.append _

theorem endsInDigit (h : ClockText cs clock) : EndsInDigit cs := by
  cases h with
  | minutes _ minutes => exact ((minutes.ends (by decide)).2.cons ':').append _
  | compact _ minutes => exact (minutes.ends (by decide)).2.append _
  | seconds _ _ seconds =>
    exact ((((seconds.ends (by decide)).2.cons ':').append _).cons ':').append _
  | fraction _ _ _ _ read =>
    obtain ⟨ne, digits⟩ := digits_of_fraction? read
    exact ((((((digit_ends ne digits).2.cons _).append _).cons ':').append _).cons ':').append _

/-- What stands in a time of day. -/
theorem isClockChar (h : ClockText cs clock) : ∀ c ∈ cs, IsClockChar c := by
  intro c mem
  cases h with
  | minutes hours minutes =>
    simp only [List.mem_append, List.mem_cons] at mem
    rcases mem with mem | rfl | mem
    · exact .inl (hours.digit mem)
    · exact .inr (.inl rfl)
    · exact .inl (minutes.digit mem)
  | compact hours minutes =>
    rcases List.mem_append.1 mem with mem | mem
    · exact .inl (hours.digit mem)
    · exact .inl (minutes.digit mem)
  | seconds hours minutes seconds =>
    simp only [List.mem_append, List.mem_cons] at mem
    rcases mem with mem | rfl | mem | rfl | mem
    · exact .inl (hours.digit mem)
    · exact .inr (.inl rfl)
    · exact .inl (minutes.digit mem)
    · exact .inr (.inl rfl)
    · exact .inl (seconds.digit mem)
  | fraction hours minutes seconds pointed read =>
    simp only [List.mem_append, List.mem_cons] at mem
    rcases mem with mem | rfl | mem | rfl | mem | rfl | mem
    · exact .inl (hours.digit mem)
    · exact .inr (.inl rfl)
    · exact .inl (minutes.digit mem)
    · exact .inr (.inl rfl)
    · exact .inl (seconds.digit mem)
    · exact .inr (.inr pointed)
    · exact .inl ((digits_of_fraction? read).2 c mem)

/-- **A time of day is read** to its end. -/
theorem clock?_eq (h : ClockText cs clock) : clock? cs = some (clock, []) := by
  cases h with
  | minutes hours minutes =>
    rw [clock?, fields?_colon hours (.inr rfl) (minutes.ne_nil (by decide)),
      fields?_last minutes]
    rfl
  | compact hours minutes =>
    obtain ⟨c, d, others, rfl, digit⟩ := (minutes.ends (by decide)).1
    have ne : others ≠ [] := by
      rintro rfl
      cases minutes.length
    rw [clock?, fields?_compact hours (.inr rfl) digit ne, fields?_last minutes]
    rfl
  | seconds hours minutes seconds =>
    rw [clock?, fields?_colon hours (.inr rfl) (by simp), fields?_colon minutes (.inl rfl)
      (seconds.ne_nil (by decide)), fields?_last seconds]
    rfl
  | fraction hours minutes seconds pointed read =>
    rw [clock?, fields?_colon hours (.inr rfl) (by simp), fields?_colon minutes (.inl rfl)
      (by simp), fields?_point seconds pointed (digits_of_fraction? read).1,
      micros?_of_fraction? read]
    rfl

end ClockText

/-! ### The reader -/

/-- A time and what stands behind it. -/
theorem time?_append {ts os : List Char} {clock : Clock} {offset : Option Int}
    (time : ClockText ts clock) (zone : OffsetText os offset) :
    time? (ts ++ os) = some (clock, offset) := by
  have unmarked : ∀ c ∈ ts, (!isZoneMark c) = true := fun c mem => by
    rw [(time.isClockChar c mem).isZoneMark]
    rfl
  -- the time goes up to the first mark of an offset, and there is none in it
  cases zone with
  | none =>
    rw [time?, List.takeWhile_append_of_pos unmarked, List.dropWhile_append_of_pos unmarked,
      List.takeWhile_nil, List.dropWhile_nil, List.append_nil, time.clock?_eq]
    rfl
  | ahead size =>
    rw [time?, List.takeWhile_append_of_pos unmarked, List.dropWhile_append_of_pos unmarked,
      List.takeWhile_cons_of_neg (by decide), List.dropWhile_cons_of_neg (by decide),
      List.append_nil, time.clock?_eq]
    simp [size.clock?_eq, isEnd]
  | behind size =>
    rw [time?, List.takeWhile_append_of_pos unmarked, List.dropWhile_append_of_pos unmarked,
      List.takeWhile_cons_of_neg (by decide), List.dropWhile_cons_of_neg (by decide),
      List.append_nil, time.clock?_eq]
    simp [size.clock?_eq, isEnd]

/-- **A date alone** is read as its midnight. -/
theorem form?_date {cs : List Char} {date : Date} (h : DateText cs date) :
    form? cs = some ⟨date, ⟨0, 0, 0, 0⟩, none⟩ := by
  have length := h.dateLength_append []
  rw [List.append_nil] at length
  rw [form?, length, List.take_of_length_le (Nat.le_of_eq h.length), h.date?_eq,
    List.drop_of_length_le (Nat.le_of_eq h.length)]
  rfl

/-- Behind a date and one more character the time is read. -/
theorem form?_append {ds rest : List Char} {date : Date} (days : DateText ds date) (joint : Char)
    (ne : rest ≠ []) : form? (ds ++ joint :: rest) =
      (time? rest).map fun time => ⟨date, time.1, time.2⟩ := by
  obtain ⟨c, others, rfl⟩ := List.exists_cons_of_ne_nil ne
  rw [form?, days.dateLength_append, List.take_left' days.length, List.drop_left' days.length,
    days.date?_eq]
  change (time? (c :: others)).bind _ = _
  cases time? (c :: others) <;> rfl

/-- **A date and a time** are read as what is written. -/
theorem form?_dateTime {ds ts os : List Char} {date : Date} {clock : Clock}
    {offset : Option Int} (days : DateText ds date) (joint : Char) (time : ClockText ts clock)
    (zone : OffsetText os offset) :
    form? (ds ++ joint :: (ts ++ os)) = some ⟨date, clock, offset⟩ := by
  obtain ⟨c, d, rest, shape, -⟩ := time.startsInDigit.append os
  rw [form?_append days joint (by simp [shape]), time?_append time zone]
  rfl

/-- A time and an offset end in a digit. -/
theorem endsInDigit_append {ts os : List Char} {clock : Clock} {offset : Option Int}
    (time : ClockText ts clock) (zone : OffsetText os offset) : EndsInDigit (ts ++ os) := by
  cases zone with
  | none => exact (List.append_nil ts).symm ▸ time.endsInDigit
  | ahead size => exact (size.endsInDigit.cons '+').append ts
  | behind size => exact (size.endsInDigit.cons '-').append ts

/-! ### What a time can hold -/

/-- **What is read of a text**, and what is left: the characters of a time come first. -/
def ReadsClock (cs left : List Char) : Prop :=
  ∃ front, cs = front ++ left ∧ ∀ c ∈ front, IsClockChar c

theorem readsClock_self (cs : List Char) : ReadsClock cs cs :=
  ⟨[], rfl, List.forall_mem_nil _⟩

theorem ReadsClock.append {front cs left : List Char} (reads : ReadsClock cs left)
    (others : ∀ c ∈ front, IsClockChar c) : ReadsClock (front ++ cs) left := by
  obtain ⟨more, rfl, known⟩ := reads
  exact ⟨front ++ more, (List.append_assoc ..).symm, List.forall_mem_append.2 ⟨others, known⟩⟩

theorem ReadsClock.cons {c : Char} {cs left : List Char} (reads : ReadsClock cs left)
    (mark : IsClockChar c) : ReadsClock (c :: cs) left := by
  rw [← List.singleton_append]
  exact reads.append (List.forall_mem_singleton.2 mark)

theorem readsClock_of_micros? {cs left : List Char} {micro : Nat}
    (h : micros? cs = some (micro, left)) : ReadsClock cs left := by
  obtain ⟨ds, read, same⟩ := Option.map_eq_some_iff.1 h
  cases same
  have numeral : Numeral (cs.take 6).length (cs.take 6) (Decimal.value ds) := ⟨rfl, ds, read, rfl⟩
  refine ⟨cs.take 6 ++ (cs.drop 6).takeWhile fun c => (Text.asciiDigit? c).isSome, ?_, ?_⟩
  · rw [List.append_assoc, List.takeWhile_append_dropWhile, List.take_append_drop]
  · refine List.forall_mem_append.2 ⟨fun c mem => .inl (numeral.digit mem), fun c mem => ?_⟩
    exact .inl (Option.isSome_iff_exists.1 (List.all_eq_true.1 List.all_takeWhile c mem))

theorem readsClock_of_fields? {more : Nat} {colons : Option Bool} {cs : List Char} {fields : Fields}
    (h : fields? more colons cs = some fields) : ReadsClock cs fields.left := by
  induction more generalizing colons cs fields with
  | zero =>
    obtain ⟨⟨micro, left⟩, read, rfl⟩ := Option.map_eq_some_iff.1 h
    exact readsClock_of_micros? read
  | succ more ih =>
    rw [fields?] at h
    obtain ⟨⟨number, rest⟩, read, next⟩ := Option.bind_eq_some_iff.1 h
    obtain ⟨ns, field, rfl⟩ := exists_numeral_of_digits? read
    refine ReadsClock.append ?_ fun c mem => .inl (field.digit mem)
    split at next
    · rename_i same
      cases same
      cases next
      exact readsClock_self []
    · rename_i mark rest same
      cases same
      dsimp only at next
      split at next
      · rename_i last
        cases next
        rw [last.1]
        exact readsClock_self [mark]
      split at next
      · rename_i point
        obtain ⟨⟨micro, left⟩, read, rfl⟩ := Option.map_eq_some_iff.1 next
        exact (readsClock_of_micros? read).cons (.inr (.inr point))
      split at next
      · split at next
        · rename_i colon
          obtain ⟨others, read, rfl⟩ := Option.map_eq_some_iff.1 next
          exact (ih read).cons (.inr (.inl colon))
        · cases next
      · obtain ⟨others, read, rfl⟩ := Option.map_eq_some_iff.1 next
        have known := ih read
        exact known

/-- **In front of what is left** of a time of day there are digits, colons and points only. -/
theorem readsClock_of_clock? {cs left : List Char} {clock : Clock}
    (h : clock? cs = some (clock, left)) : ReadsClock cs left := by
  obtain ⟨fields, read, same⟩ := Option.map_eq_some_iff.1 h
  cases same
  exact readsClock_of_fields? read

end Iso

/-! ### Timestamps -/

namespace Iso

/-- Only a letter for universal time is replaced. -/
theorem numericZone_of_endsInDigit {cs : List Char} (ends : EndsInDigit cs) :
    numericZone cs = cs := by
  obtain ⟨c, d, front, rfl, digit⟩ := ends
  have upper : c ≠ 'Z' := Text.ne_of_asciiDigit? digit rfl
  have lower : c ≠ 'z' := Text.ne_of_asciiDigit? digit rfl
  rw [numericZone, List.getLast?_concat]
  split <;> simp_all

theorem numericZone_concat (cs : List Char) {letter : Char} (zed : letter = 'Z' ∨ letter = 'z') :
    numericZone (cs ++ [letter]) = cs ++ "+00:00".toList := by
  rcases zed with rfl | rfl
  · simp only [numericZone, List.getLast?_concat, List.dropLast_concat]
  · simp only [numericZone, List.getLast?_concat, List.dropLast_concat]

/-- The first character stays, unless it is the letter that is replaced. -/
theorem numericZone_cons (c : Char) (rest : List Char) :
    (∃ others, numericZone (c :: rest) = c :: others) ∨
      ∃ others, numericZone (c :: rest) = '+' :: others := by
  have replaced : (∃ others, (c :: rest).dropLast ++ "+00:00".toList = c :: others) ∨
      ∃ others, (c :: rest).dropLast ++ "+00:00".toList = '+' :: others := by
    cases rest with
    | nil => exact .inr ⟨_, rfl⟩
    | cons next rest => exact .inl ⟨_, rfl⟩
  rw [numericZone]
  split
  · exact replaced
  · exact replaced
  · exact .inl ⟨rest, rfl⟩

/-- A text that is read starts with the year. -/
theorem startsInDigit_of_form? {cs : List Char} {form : Form} (h : form? cs = some form) :
    StartsInDigit cs := by
  obtain ⟨date, read, -⟩ := Option.bind_eq_some_iff.1 h
  obtain ⟨⟨year, rest⟩, read, -⟩ := Option.bind_eq_some_iff.1 read
  obtain ⟨ys, years, shape⟩ := exists_numeral_of_digits? read
  rw [← List.take_append_drop (dateLength cs) cs, shape]
  exact ((years.ends (by decide)).1.append rest).append _

/-- The timestamp with given parts, if it exists, is made of them. -/
theorem Form.timestamp_eq_ok_iff {form : Form} {t : Timestamp} :
    form.timestamp = .ok t ↔ OffsetInRange form.offset ∧
      Moment.ofFields form.date form.clock = .ok t.wall ∧ t.offset = form.offset := by
  rw [timestamp]
  by_cases range : OffsetInRange form.offset
  · rw [if_pos range]
    cases Moment.ofFields form.date form.clock with
    | error flaw => simp
    | ok wall =>
      constructor
      · intro same
        cases same
        exact ⟨range, rfl, rfl⟩
      · rintro ⟨-, wall, offset⟩
        cases wall
        rw [← offset]
  · rw [if_neg range]
    simp [range]

end Iso

namespace Timestamp

/-- What a text denotes, where it neither starts nor ends in a blank. -/
theorem ofText_of_solid {cs : List Char} {first last : Char} {rest front : List Char}
    (starts : cs = first :: rest) (ends : cs = front ++ [last])
    (first_solid : Text.isBlank first = false) (last_solid : Text.isBlank last = false) :
    ofText (String.ofList cs) =
      match Iso.form? (Iso.numericZone cs) with
      | none => .error (.form (String.ofList (Iso.numericZone cs)))
      | some form => form.timestamp := by
  rw [ofText, String.toList_ofList, Text.strip_eq_self starts ends first_solid last_solid]
  split
  · cases starts
  · rfl

/-- What a text denotes that starts and ends in a digit. -/
theorem ofText_of_digits {cs : List Char} (starts : StartsInDigit cs) (ends : EndsInDigit cs) :
    ofText (String.ofList cs) =
      match Iso.form? cs with
      | none => .error (.form (String.ofList cs))
      | some form => form.timestamp := by
  obtain ⟨c, d, rest, starts, digit⟩ := starts
  obtain ⟨c', d', front, ends', digit'⟩ := id ends
  rw [ofText_of_solid starts ends' (Text.isBlank_of_asciiDigit? digit)
    (Text.isBlank_of_asciiDigit? digit'), Iso.numericZone_of_endsInDigit ends]

/-- **A date, a time of day and an offset** are read as the timestamp with these parts. -/
theorem ofText_dateTime {ds ts os : List Char} {date : Date} {clock : Clock} {offset : Option Int}
    (days : Iso.DateText ds date) (joint : Char) (time : Iso.ClockText ts clock)
    (zone : Iso.OffsetText os offset) :
    ofText (String.ofList (ds ++ joint :: (ts ++ os))) =
      Iso.Form.timestamp ⟨date, clock, offset⟩ := by
  have ends := ((Iso.endsInDigit_append time zone).cons joint).append ds
  rw [ofText_of_digits (days.ends.1.append _) ends, Iso.form?_dateTime days joint time zone]

/-- A text that denotes a timestamp, and does not start with a blank, starts with a digit. -/
theorem digit_of_ofText {c : Char} {rest : List Char} {t : Timestamp}
    (read : ofText (String.ofList (c :: rest)) = .ok t) (solid : Text.isBlank c = false) :
    ∃ d, Text.asciiDigit? c = some d := by
  obtain ⟨others, stripped⟩ := Text.strip_cons rest solid
  rw [ofText, String.toList_ofList, stripped] at read
  cases form : Iso.form? (Iso.numericZone (c :: others)) with
  | none =>
    simp only [form] at read
    cases read
  | some form' =>
    obtain ⟨first, d, tail, shape, digit⟩ := Iso.startsInDigit_of_form? form
    rcases Iso.numericZone_cons c others with ⟨zone, same⟩ | ⟨zone, same⟩
    · rw [same, List.cons.injEq] at shape
      exact ⟨d, shape.1 ▸ digit⟩
    · -- a letter was all there was, and the offset it stands for does not start with a digit
      rw [same, List.cons.injEq] at shape
      rw [← shape.1] at digit
      cases digit

end Timestamp

end DocumentFilter
