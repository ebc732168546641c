import DocumentFilter.Config.Timestamp
import DocumentFilter.Proofs.Time.Iso

/-!
# Two readers of timestamps

The age of an item is told by the reader of ISO 8601, and the timestamp that a payload gets is
told by the check on payloads. Both take texts, each takes texts that the other refuses, and
what both take they need not take for the same.

They agree on the calendar. A text that the check takes for a date, or for a date and a time,
is a text of the common grammar, with one exception: the check also takes a minus sign proper
before an offset, which the reader refuses. They do not agree on decimal numbers: the check
takes `20221002` for Unix time, the reader for a date without dashes.

* `DocumentFilter.Check.timestamp_eq_of_calendarText?`: the agreement;
* `DocumentFilter.Check.timestamp_string_eq_ok`: where both readers take a text but differ, it is
  a decimal number without a sign.
-/

namespace DocumentFilter

namespace Check

open Iso (DateText ClockText OffsetText)

/-! ### The parts of a calendar text -/

theorem dash?_true_eq_some {cs rest : List Char} (h : Iso.dash? true cs = some rest) :
    cs = '-' :: rest := by
  rw [Iso.dash?.eq_def] at h
  split at h
  · contradiction
  · rw [Option.some.inj h]
  · cases h

theorem exists_dateText {cs rest : List Char} {date : Date}
    (h : datePart? cs = some (date, rest)) : ∃ front, DateText front date ∧ cs = front ++ rest := by
  simp only [datePart?, Option.bind_eq_bind, Option.bind_eq_some_iff, Prod.exists] at h
  obtain ⟨year, _, read, _, dashed, month, _, read', _, dashed', day, _, read'', result⟩ := h
  obtain ⟨ys, years, rfl⟩ := exists_numeral_of_digits? read
  obtain ⟨ms, months, rfl⟩ := exists_numeral_of_digits? read'
  obtain ⟨ds, days, rfl⟩ := exists_numeral_of_digits? read''
  cases dash?_true_eq_some dashed
  cases dash?_true_eq_some dashed'
  cases result
  exact ⟨_, .intro years months days, by simp⟩

theorem exists_fraction {cs rest : List Char} {micro : Nat}
    (h : fractionPart? cs = some (micro, rest)) :
    ∃ front, Iso.fraction? front = some micro ∧ cs = front ++ rest := by
  obtain ⟨n, read, same⟩ := Option.map_eq_some_iff.1 h
  cases same
  exact ⟨_, read, List.takeWhile_append_dropWhile.symm⟩

theorem exists_clockText {cs rest : List Char} {clock : Clock}
    (h : timePart? cs = some (clock, rest)) :
    ∃ front, ClockText front clock ∧ cs = front ++ rest := by
  simp only [timePart?, Option.bind_eq_bind, Option.bind_eq_some_iff, Prod.exists] at h
  obtain ⟨hour, _, read, h⟩ := h
  obtain ⟨hs, hours, rfl⟩ := exists_numeral_of_digits? read
  split at h
  case h_2 => cases h
  rename_i same
  cases same
  simp only [Option.bind_eq_some_iff, Prod.exists] at h
  obtain ⟨minute, _, read, h⟩ := h
  obtain ⟨ms, minutes, rfl⟩ := exists_numeral_of_digits? read
  rw [secondPart?.eq_def] at h
  split at h
  case h_2 =>
    cases h
    exact ⟨_, .minutes hours minutes, by simp⟩
  simp only [Option.bind_eq_bind, Option.bind_eq_some_iff, Prod.exists] at h
  obtain ⟨second, _, read, h⟩ := h
  obtain ⟨ss, seconds, rfl⟩ := exists_numeral_of_digits? read
  split at h
  · obtain ⟨⟨micro, _⟩, fraction, same⟩ := Option.map_eq_some_iff.1 h
    cases same
    obtain ⟨fs, counted, rfl⟩ := exists_fraction fraction
    exact ⟨_, .fraction hours minutes seconds (.inl rfl) counted, by simp⟩
  · obtain ⟨⟨micro, _⟩, fraction, same⟩ := Option.map_eq_some_iff.1 h
    cases same
    obtain ⟨fs, counted, rfl⟩ := exists_fraction fraction
    exact ⟨_, .fraction hours minutes seconds (.inr rfl) counted, by simp⟩
  · cases h
    exact ⟨_, .seconds hours minutes seconds, by simp⟩

theorem exists_offsetClock {cs : List Char} {size : Int} (h : offsetSize? cs = some size) :
    ∃ clock, ClockText cs clock ∧ size = Iso.ahead clock := by
  simp only [offsetSize?, Option.bind_eq_bind, Option.bind_eq_some_iff, Prod.exists] at h
  obtain ⟨hour, _, read, minute, _, read', h⟩ := h
  obtain ⟨hs, hours, rfl⟩ := exists_numeral_of_digits? read
  split at h
  case isFalse => cases h
  rename_i range
  obtain ⟨rfl, -, -⟩ := range
  have size : size = Iso.ahead ⟨hour, minute, 0, 0⟩ := by
    rw [← Option.some.inj h, Iso.ahead]
    simp only [Clock.micros]
    split <;> omega
  obtain ⟨ms, minutes, same⟩ := exists_numeral_of_digits? read'
  rw [List.append_nil] at same
  -- there may be a colon between the hours and the minutes
  split at same
  · cases same
    exact ⟨_, .minutes hours minutes, size⟩
  · cases same
    exact ⟨_, .compact hours minutes, size⟩

/-- The offset behind a time, as the check takes it: nothing, the letter for universal time, a
sign and a time, or a minus sign proper and a time. -/
inductive Zone : List Char → Option Int → Prop
  | written {cs : List Char} {offset : Option Int} (text : OffsetText cs offset) : Zone cs offset
  | universal {letter : Char} (zed : letter = 'Z' ∨ letter = 'z') : Zone [letter] (some 0)
  | minus {cs : List Char} {clock : Clock} (size : ClockText cs clock) :
      Zone ('\u2212' :: cs) (some (-Iso.ahead clock))

theorem zone_of_offsetPart? {cs : List Char} {offset : Option Int}
    (h : offsetPart? cs = some offset) : Zone cs offset := by
  rw [offsetPart?.eq_def] at h
  split at h
  · cases h
    exact .written .none
  · cases h
    exact .universal (.inl rfl)
  · cases h
    exact .universal (.inr rfl)
  · obtain ⟨size, read, rfl⟩ := Option.map_eq_some_iff.1 h
    obtain ⟨clock, text, rfl⟩ := exists_offsetClock read
    exact .written (.ahead text)
  · obtain ⟨size, read, rfl⟩ := Option.map_eq_some_iff.1 h
    obtain ⟨clock, text, rfl⟩ := exists_offsetClock read
    exact .written (.behind text)
  · obtain ⟨size, read, rfl⟩ := Option.map_eq_some_iff.1 h
    obtain ⟨clock, text, rfl⟩ := exists_offsetClock read
    exact .minus text
  · cases h

/-- A text that the check takes for a date, or a date and a time, by its parts. -/
inductive CalendarText : List Char → Iso.Form → Prop
  | date {cs : List Char} {date : Date} (text : DateText cs date) :
      CalendarText cs ⟨date, ⟨0, 0, 0, 0⟩, none⟩
  | dateTime {ds ts os : List Char} {date : Date} {clock : Clock} {offset : Option Int}
      (days : DateText ds date) (joint : Char) (time : ClockText ts clock)
      (zone : Zone os offset) : CalendarText (ds ++ joint :: (ts ++ os)) ⟨date, clock, offset⟩

theorem exists_calendarText {cs : List Char} {t : Timestamp} (h : calendarText? cs = some t) :
    ∃ form, CalendarText cs form ∧ Moment.ofFields form.date form.clock = .ok t.wall ∧
      form.offset = t.offset := by
  have wallOf : ∀ {x : Except FieldFlaw Moment} {wall : Moment},
      x.toOption = some wall → x = .ok wall := by
    rintro (flaw | moment) wall same
    · cases same
    · rw [Option.some.inj same]
  simp only [calendarText?, Option.bind_eq_bind, Option.bind_eq_some_iff, Prod.exists] at h
  obtain ⟨date, rest, read, h⟩ := h
  obtain ⟨ds, days, rfl⟩ := exists_dateText read
  split at h
  · rename_i same
    cases same
    obtain ⟨wall, fields, result⟩ := Option.bind_eq_some_iff.1 h
    cases result
    rw [List.append_nil]
    exact ⟨_, .date days, wallOf fields, rfl⟩
  · rename_i joint cs same
    cases same
    split at h
    case isFalse => cases h
    simp only [Option.bind_eq_some_iff, Prod.exists] at h
    obtain ⟨clock, os, read, offset, zone, wall, fields, result⟩ := h
    obtain ⟨ts, time, rfl⟩ := exists_clockText read
    cases result
    exact ⟨_, .dateTime days joint time (zone_of_offsetPart? zone), wallOf fields, rfl⟩

/-! ### The agreement -/

/-- The offset that the reader takes a final `Z` for. -/
theorem offsetText_zero : OffsetText "+00:00".toList (some 0) :=
  have zeros : Numeral 2 ['0', '0'] 0 := ⟨rfl, [0, 0], rfl, rfl⟩
  .ahead (.minutes zeros zeros)

/-- A minus sign proper cannot stand behind a time. -/
theorem time?_minus {ts cs : List Char} {clock size : Clock} (time : ClockText ts clock)
    (offset : ClockText cs size) : Iso.time? (ts ++ '\u2212' :: cs) = none := by
  have known : ∀ c ∈ ts ++ '\u2212' :: cs, Iso.IsClockChar c ∨ c = '\u2212' := by
    refine List.forall_mem_append.2 ⟨fun c mem => .inl (time.isClockChar c mem), ?_⟩
    exact List.forall_mem_cons.2 ⟨.inr rfl, fun c mem => .inl (offset.isClockChar c mem)⟩
  have strange : ∀ {c : Char}, Text.asciiDigit? c = none → c ≠ ':' → c ≠ '.' → c ≠ ',' →
      ¬ Iso.IsClockChar c := by
    rintro c none colon point comma (⟨d, digit⟩ | same | same | same)
    · rw [none] at digit
      cases digit
    all_goals contradiction
  have unmarked : ∀ c ∈ ts ++ '\u2212' :: cs, (!Iso.isZoneMark c) = true := fun c mem => by
    rcases known c mem with clock | rfl
    · rw [clock.isZoneMark]
      rfl
    · rfl
  -- the whole text is taken for the time, and what is left behind it starts at the sign or later
  rw [Iso.time?, List.takeWhile_eq_self_iff.2 unmarked, List.dropWhile_eq_nil_iff.2 unmarked]
  cases read : Iso.clock? (ts ++ '\u2212' :: cs) with
  | none => rfl
  | some result =>
    obtain ⟨clock, left⟩ := result
    obtain ⟨front, whole, digits⟩ := Iso.readsClock_of_clock? read
    cases left with
    | nil =>
      have sign : '\u2212' ∈ front := by
        rw [← List.append_nil front, ← whole]
        simp
      exact absurd (digits _ sign) (strange rfl (by decide) (by decide) (by decide))
    | cons c left =>
      have nonzero : c ≠ '\x00' := by
        rintro rfl
        rcases known '\x00' (whole ▸ by simp) with zero | same
        · exact strange rfl (by decide) (by decide) (by decide) zero
        · exact absurd same (by decide)
      change (if Iso.isEnd (c :: left) then some (clock, none) else none) = none
      rw [Iso.isEnd, if_neg (by simpa using nonzero)]

/-- The reader takes a calendar text for the timestamp that is written, if it takes it. -/
theorem CalendarText.timestamp_eq {cs : List Char} {form : Iso.Form} (h : CalendarText cs form)
    {t : Timestamp} (iso : Timestamp.ofText (String.ofList cs) = .ok t) :
    form.timestamp = .ok t := by
  cases h with
  | date text =>
    rw [Timestamp.ofText_of_digits text.ends.1 text.ends.2, Iso.form?_date text] at iso
    exact iso
  | @dateTime ds ts os date clock offset days joint time zone =>
    have starts : ∀ rest, StartsInDigit (ds ++ rest) := fun rest => days.ends.1.append rest
    cases zone with
    | written text =>
      have ends := ((Iso.endsInDigit_append time text).cons joint).append ds
      rw [Timestamp.ofText_of_digits (starts _) ends, Iso.form?_dateTime days joint time text]
        at iso
      exact iso
    | @universal letter zed =>
      -- the reader replaces the letter first, and then reads an offset of zero
      obtain ⟨c, d, rest, shape, digit⟩ := starts (joint :: (ts ++ [letter]))
      have apart : ds ++ joint :: (ts ++ [letter]) = ds ++ joint :: ts ++ [letter] := by simp
      have solid : Text.isBlank letter = false := by
        rcases zed with rfl | rfl
        · decide
        · decide
      have numeric : Iso.numericZone (ds ++ joint :: (ts ++ [letter])) =
          ds ++ joint :: (ts ++ "+00:00".toList) := by
        rw [apart, Iso.numericZone_concat _ zed, List.append_assoc, List.cons_append]
      rw [Timestamp.ofText_of_solid shape apart (Text.isBlank_of_asciiDigit? digit) solid, numeric,
        Iso.form?_dateTime days joint time offsetText_zero] at iso
      exact iso
    | @minus cs _ size =>
      have ends := (((size.endsInDigit.cons '\u2212').append ts).cons joint).append ds
      have unread : Iso.form? (ds ++ joint :: (ts ++ '\u2212' :: cs)) = none := by
        rw [Iso.form?_append days joint (by simp), time?_minus time size]
        rfl
      rw [Timestamp.ofText_of_digits (starts _) ends, unread] at iso
      cases iso

/-- **The agreement on the calendar**: a text that the check takes for a date, or a date and a
time, is the same timestamp to the reader of ISO 8601, if that reader takes it. -/
theorem timestamp_eq_of_calendarText? {cs : List Char} {t iso : Timestamp}
    (payload : calendarText? cs = some t)
    (read : Timestamp.ofText (String.ofList cs) = .ok iso) : iso = t := by
  obtain ⟨form, text, wall, offset⟩ := exists_calendarText payload
  obtain ⟨-, wall', offset'⟩ := Iso.Form.timestamp_eq_ok_iff.1 (text.timestamp_eq read)
  rw [wall, Except.ok.injEq] at wall'
  cases iso
  cases t
  simp_all

/-! ### The disagreement -/

/-- A decimal number without a sign: digits, and maybe a point and more digits. -/
def IsUnsignedDecimal (cs : List Char) : Prop :=
  ∃ whole fraction : List Char,
    (∀ c ∈ whole ++ fraction, ∃ d, Text.asciiDigit? c = some d) ∧
      (cs = whole ∨ cs = whole ++ '.' :: fraction)

theorem isUnsignedDecimal_of_decimalParts? {cs : List Char}
    {parts : List Nat × Option (List Nat)} (h : decimalParts? cs = some parts) :
    IsUnsignedDecimal cs := by
  have whole : ∀ c ∈ cs.takeWhile (fun c => (Text.asciiDigit? c).isSome),
      ∃ d, Text.asciiDigit? c = some d := fun c mem =>
    Option.isSome_iff_exists.1 (List.all_eq_true.1 List.all_takeWhile c mem)
  have parted : cs = cs.takeWhile (fun c => (Text.asciiDigit? c).isSome) ++
      cs.dropWhile (fun c => (Text.asciiDigit? c).isSome) := List.takeWhile_append_dropWhile.symm
  obtain ⟨ds, -, h⟩ := Option.bind_eq_some_iff.1 h
  split at h
  case isTrue => cases h
  split at h
  case h_1 none =>
    refine ⟨cs.takeWhile fun c => (Text.asciiDigit? c).isSome, [], ?_, .inl ?_⟩
    · rwa [List.append_nil]
    · rwa [none, List.append_nil] at parted
  case h_2 fs pointed =>
    obtain ⟨fraction, read, -⟩ := Option.map_eq_some_iff.1 h
    have numeral : Numeral fs.length fs (Decimal.value fraction) := ⟨rfl, fraction, read, rfl⟩
    refine ⟨cs.takeWhile fun c => (Text.asciiDigit? c).isSome, fs, fun c mem => ?_, .inr ?_⟩
    · exact (List.mem_append.1 mem).elim (whole c) numeral.digit
    · rwa [pointed] at parted
  case h_3 => cases h

/-- Both readers take a text that is no calendar text to the check, only if it is a decimal
number. It has no sign, for what the reader of ISO 8601 takes starts with the year. -/
theorem isUnsignedDecimal_of_unixText? {cs : List Char} {t iso : Timestamp}
    (payload : unixText? cs = some t)
    (read : Timestamp.ofText (String.ofList cs) = .ok iso) : IsUnsignedDecimal cs := by
  obtain ⟨⟨whole, fraction⟩, parts, -⟩ := Option.bind_eq_some_iff.1 payload
  -- a sign in front is no digit
  split at parts
  · obtain ⟨d, digit⟩ := Timestamp.digit_of_ofText read (by decide)
    cases digit
  · obtain ⟨d, digit⟩ := Timestamp.digit_of_ofText read (by decide)
    cases digit
  · exact isUnsignedDecimal_of_decimalParts? parts

/-- **What two readers make of one text.** If both take it, the check takes it for the same
timestamp, or the text is a decimal number, which the check takes for Unix time. -/
theorem timestamp_string_eq_ok {text : String} {t iso : Timestamp}
    (payload : timestamp (.string text) = .ok t) (read : Timestamp.ofText text = .ok iso) :
    t = iso ∨ IsUnsignedDecimal text.toList ∧ unixText? text.toList = some t := by
  rw [← String.ofList_toList (s := text)] at read
  rw [timestamp] at payload
  cases calendar : calendarText? text.toList with
  | some t' =>
    rw [calendar] at payload
    cases payload
    exact .inl (timestamp_eq_of_calendarText? calendar read).symm
  | none =>
    rw [calendar, Option.none_or] at payload
    cases unix : unixText? text.toList with
    | none =>
      rw [unix] at payload
      cases payload
    | some t' =>
      rw [unix] at payload
      cases payload
      exact .inr ⟨isUnsignedDecimal_of_unixText? unix read, rfl⟩

end Check

end DocumentFilter
