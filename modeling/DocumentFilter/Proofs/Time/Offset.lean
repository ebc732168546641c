import DocumentFilter.Proofs.Time.Universal

/-!
# Offsets

The reading of a clock on a wall, `YYYY-MM-DDTHH:MM` with or without seconds and a fraction of
them, is an instant only together with how far the clock is ahead. Behind the reading this is
written as `Z` or as a sign, hours and minutes. Both are read by the same parts of the reader,
so with an offset the text denotes what it denotes with `Z`, less the offset. The date and the
time of day that the clock shows are counted as microseconds in between, and this is why no
carry over a day, the end of a month or a leap day has to be looked at: each day has one date
(`DocumentFilter.Date.Valid.dayNumber_inj`), so the count has forgotten nothing.

What can go wrong is that universal time is no longer in the years 1 to 9999. Shifting a clock
that far **overflows**, which is another failure than the refusal of a text, and it is turned
into one where it happens. The reader is written once more with all that can be raised in it,
to say that nothing else gets out.

* `DocumentFilter.WallText`, `DocumentFilter.ZoneText`: the grammar;
* `DocumentFilter.Timestamp.ofText_zulu`: the reader behind a `Z`;
* `DocumentFilter.Moment.ofText_eq_ok_iff`: which texts without an offset are accepted;
* `DocumentFilter.Raised`, `DocumentFilter.Moment.Raising.read`: the reader that raises;
* `DocumentFilter.Moment.ofText_offset`: **an offset moves an instant, or leaves the calendar,
  and nothing but a refusal comes of it**.
-/

namespace DocumentFilter

/-! ### The grammar -/

/-- The text of a clock on a wall that shows a date and a time of day:
`YYYY-MM-DDTHH:MM[:SS[.ffffff]]`. -/
inductive WallText : List Char → Date → Clock → Prop
  | minutes {ds hs ms : List Char} {date : Date} {hour minute : Nat} (days : Iso.DateText ds date)
      (hours : Numeral 2 hs hour) (minutes : Numeral 2 ms minute) :
      WallText (ds ++ 'T' :: (hs ++ ':' :: ms)) date ⟨hour, minute, 0, 0⟩
  | seconds {ds hs ms ss : List Char} {date : Date} {hour minute second : Nat}
      (days : Iso.DateText ds date) (hours : Numeral 2 hs hour) (minutes : Numeral 2 ms minute)
      (seconds : Numeral 2 ss second) :
      WallText (ds ++ 'T' :: (hs ++ ':' :: (ms ++ ':' :: ss))) date ⟨hour, minute, second, 0⟩
  | fraction {ds hs ms ss fs : List Char} {date : Date} {hour minute second micro : Nat}
      (days : Iso.DateText ds date) (hours : Numeral 2 hs hour) (minutes : Numeral 2 ms minute)
      (seconds : Numeral 2 ss second) (micros : Numeral 6 fs micro) :
      WallText (ds ++ 'T' :: (hs ++ ':' :: (ms ++ ':' :: (ss ++ '.' :: fs)))) date
        ⟨hour, minute, second, micro⟩

/-- The text of an offset, `+HH:MM` or `-HH:MM` of less than a day, and the offset in
microseconds. -/
inductive ZoneText : List Char → Int → Prop
  | ahead {hs ms : List Char} {hour minute : Nat} (hours : Numeral 2 hs hour)
      (minutes : Numeral 2 ms minute) (hour_le : hour ≤ 23) (minute_le : minute ≤ 59) :
      ZoneText ('+' :: (hs ++ ':' :: ms)) ((hour * 60 + minute) * 60000000)
  | behind {hs ms : List Char} {hour minute : Nat} (hours : Numeral 2 hs hour)
      (minutes : Numeral 2 ms minute) (hour_le : hour ≤ 23) (minute_le : minute ≤ 59) :
      ZoneText ('-' :: (hs ++ ':' :: ms)) (-((hour * 60 + minute) * 60000000))

/-- Such a text is a date and a time of day of the larger grammar. -/
theorem WallText.exists_parts {ws : List Char} {date : Date} {clock : Clock}
    (wall : WallText ws date clock) :
    ∃ ds ts, ws = ds ++ 'T' :: ts ∧ Iso.DateText ds date ∧ Iso.ClockText ts clock := by
  cases wall with
  | minutes days hours minutes => exact ⟨_, _, rfl, days, .minutes hours minutes⟩
  | seconds days hours minutes seconds =>
    exact ⟨_, _, rfl, days, .seconds hours minutes seconds⟩
  | fraction days hours minutes seconds micros =>
    exact ⟨_, _, rfl, days, .fraction hours minutes seconds (.inl rfl) micros.fraction?_eq⟩

/-- A clock that is ahead by hours and minutes is ahead by that many minutes. -/
theorem Iso.ahead_minutes (hour minute : Nat) :
    ahead ⟨hour, minute, 0, 0⟩ = (hour * 60 + minute) * 60000000 := by
  simp only [ahead, Clock.micros]
  split <;> omega

/-- Such an offset is one of the larger grammar, and it is in range. -/
theorem ZoneText.offsetText {os : List Char} {offset : Int} (zone : ZoneText os offset) :
    Iso.OffsetText os (some offset) ∧ Iso.OffsetInRange (some offset) := by
  rw [Iso.OffsetInRange, Clock.dayMicros]
  cases zone with
  | ahead hours minutes hour_le minute_le =>
    refine ⟨Iso.ahead_minutes _ _ ▸ .ahead (.minutes hours minutes), fun micros mem => ?_⟩
    cases mem
    omega
  | behind hours minutes hour_le minute_le =>
    refine ⟨Iso.ahead_minutes _ _ ▸ .behind (.minutes hours minutes), fun micros mem => ?_⟩
    cases mem
    omega

/-! ### The reader -/

namespace Timestamp

/-- **Behind a `Z`** the clock shows universal time. -/
theorem ofText_zulu {ds ts : List Char} {date : Date} {clock : Clock}
    (days : Iso.DateText ds date) (joint : Char) (time : Iso.ClockText ts clock) :
    ofText (String.ofList (ds ++ joint :: (ts ++ ['Z']))) =
      Iso.Form.timestamp ⟨date, clock, some 0⟩ := by
  -- the text does not end in a digit, and it is the letter that keeps a blank away from its end
  obtain ⟨c, d, rest, starts, digit⟩ := days.ends.1.append (joint :: (ts ++ ['Z']))
  have shape : ds ++ joint :: (ts ++ ['Z']) = (ds ++ joint :: ts) ++ ['Z'] := by
    rw [List.append_assoc, List.cons_append]
  have numeric : Iso.numericZone (ds ++ joint :: (ts ++ ['Z'])) =
      ds ++ joint :: (ts ++ "+00:00".toList) := by
    rw [shape, Iso.numericZone_concat _ (.inl rfl), List.append_assoc, List.cons_append]
  have zero : Iso.OffsetText "+00:00".toList (some 0) :=
    offsetText_zero ▸ offsetText_spec Iso.offsetLegible_zero
  rw [ofText_of_solid starts shape (Text.isBlank_of_asciiDigit? digit) (by decide), numeric,
    Iso.form?_dateTime days joint time zero]

/-- A timestamp that denotes an instant has one in range. -/
theorem hasInstant_of_instant? {t : Timestamp} {moment : Moment}
    (instant : t.instant? = some moment) : t.HasInstant := by
  have below : (moment.micros : Int) < (dayLimit * Clock.dayMicros : Nat) :=
    Int.ofNat_lt.2 moment.micros_lt
  rw [Nat.cast_mul] at below
  rw [HasInstant, ← instant?_eq_some_iff.1 instant]
  exact ⟨Int.natCast_nonneg _, below⟩

end Timestamp

namespace Moment

/-- The instant of a timestamp that is read, or the refusal of one that has none. -/
theorem ofText_of_timestamp {text : String} {t : Timestamp}
    (read : Timestamp.ofText text = .ok t) :
    (t.HasInstant → ∃ moment, ofText text = .ok moment ∧ (moment.micros : Int) = t.utcMicros) ∧
      (¬t.HasInstant → ofText text = .error (.instant text)) := by
  refine ⟨fun inside => ?_, fun outside => ?_⟩
  · obtain ⟨moment, instant⟩ := inside.exists_instant
    have found : ofText text = .ok moment := by simp only [ofText, read, instant]
    exact ⟨moment, found, Timestamp.instant?_eq_some_iff.1 instant⟩
  · cases instant : t.instant? with
    | some moment => exact absurd (Timestamp.hasInstant_of_instant? instant) outside
    | none => simp only [ofText, read, instant]

/-- **A text with nothing behind the time of day** is accepted where the clock shows a moment, and
is read as that moment. -/
theorem ofText_eq_ok_iff {ws : List Char} {date : Date} {clock : Clock} {moment : Moment}
    (wall : WallText ws date clock) :
    ofText (String.ofList ws) = .ok moment ↔ ofFields date clock = .ok moment := by
  obtain ⟨ds, ts, rfl, days, time⟩ := wall.exists_parts
  have parts := Timestamp.ofText_dateTime days 'T' time .none
  rw [List.append_nil] at parts
  rw [ofText, parts]
  constructor
  · intro read
    -- a clock that says nothing about its offset shows the instant itself
    cases made : Iso.Form.timestamp ⟨date, clock, none⟩ with
    | error error =>
      rw [made] at read
      cases read
    | ok t =>
      obtain ⟨-, shown, offset⟩ := Iso.Form.timestamp_eq_ok_iff.1 made
      simp only [made, Timestamp.instant?, offset] at read
      cases read
      exact shown
  · intro made
    have read : Iso.Form.timestamp ⟨date, clock, none⟩ = .ok ⟨moment, none⟩ :=
      Iso.Form.timestamp_eq_ok_iff.2 ⟨Iso.offsetLegible_none.1, made, rfl⟩
    rw [read]
    rfl

end Moment

/-! ### What is raised -/

/-- What can be raised where a document is read as an instant. -/
inductive Raised
  /-- Something that texts have is asked of a document of another kind. -/
  | attribute (doc : Document)
  /-- The document is refused. -/
  | value (error : Iso.Error)
  /-- A clock would have to show a time outside of the years 1 to 9999. -/
  | overflow

namespace Moment.Raising

/-- A text without the blanks around it. -/
def strip : Document → Except Raised (List Char)
  | .string text => .ok (Text.strip text.toList)
  | doc => .error (.attribute doc)

/-- A timestamp in ISO 8601. -/
def fromIso (cs : List Char) : Except Raised Timestamp :=
  match Iso.form? cs with
  | none => .error (.value (.form (String.ofList cs)))
  | some form => form.timestamp.mapError .value

/-- The clock that shows universal time when another shows what it says. -/
def toUniversal (wall : Moment) (offset : Int) : Except Raised Moment :=
  match wall.shift? (-offset) with
  | some moment => .ok moment
  | none => .error .overflow

/-- The timestamp that a text denotes. -/
def timestamp (doc : Document) : Except Raised Timestamp := do
  let cs ← strip doc
  if cs = [] then .error (.value .blank) else fromIso (Iso.numericZone cs)

/-- The instant of a timestamp, which is not shifted unless it has an offset. What overflows is
caught, and the text is refused. -/
def instant (text : String) (t : Timestamp) : Except Raised Moment :=
  match t.offset with
  | none => .ok t.wall
  | some offset =>
    match toUniversal t.wall offset with
    | .error .overflow => .error (.value (.instant text))
    | result => result

/-- **The instant that a document denotes**, with all that is raised on the way. -/
def read : Document → Except Raised Moment
  | .string text => timestamp (.string text) >>= instant text
  | doc => .error (.value (.notText doc))

/-- The instant, or nothing where the document is refused. Nothing else is caught. -/
def tryRead (doc : Document) : Except Raised (Option Moment) :=
  match read doc with
  | .ok moment => .ok (some moment)
  | .error (.value _) => .ok none
  | .error raised => .error raised

theorem timestamp_eq (text : String) :
    timestamp (.string text) = (Timestamp.ofText text).mapError .value := by
  rw [timestamp, strip, Timestamp.ofText]
  change (if Text.strip text.toList = [] then _ else _) = _
  cases Text.strip text.toList with
  | nil => rfl
  | cons c cs =>
    rw [if_neg (List.cons_ne_nil _ _), fromIso]
    simp only
    cases Iso.form? (Iso.numericZone (c :: cs)) <;> rfl

/-- An overflow is caught where it is raised. -/
theorem instant_eq (text : String) (t : Timestamp) : instant text t =
    match t.instant? with
    | some moment => .ok moment
    | none => .error (.value (.instant text)) := by
  obtain ⟨wall, _ | offset⟩ := t
  · rfl
  · -- nothing else than an overflow comes of the shift
    simp only [instant, Timestamp.instant?, toUniversal]
    cases wall.shift? (-offset) <;> rfl

/-- **Raising makes no difference**: whatever is raised in the end is a refusal. -/
theorem read_eq (doc : Document) : read doc = (Moment.ofDocument doc).mapError .value := by
  cases doc with
  | string text =>
    rw [read, timestamp_eq, ofDocument, ofText]
    cases Timestamp.ofText text with
    | error error => rfl
    | ok t =>
      change instant text t = _
      simp only [instant_eq]
      cases t.instant? <;> rfl
  | null => rfl
  | bool b => rfl
  | number n => rfl
  | array items => rfl
  | object fields => rfl

theorem tryRead_eq (doc : Document) : tryRead doc = .ok (Moment.ofDocument doc).toOption := by
  rw [tryRead, read_eq]
  cases Moment.ofDocument doc <;> rfl

end Moment.Raising

/-! ### The main theorem -/

/-- **An offset moves an instant.** What a wall clock shows is read as universal time, with or
without a `Z`. With an offset the instant is that one less the offset, exactly if this lies in
the years 1 to 9999, and otherwise the text is refused. No document makes the reader raise
anything but a refusal, and the reader that returns nothing instead does so where it is raised
and nowhere else. -/
theorem Moment.ofText_offset :
    (∀ {ws os : List Char} {date : Date} {clock : Clock} {offset : Int} {shown : Moment},
      WallText ws date clock → ZoneText os offset → ofText (String.ofList ws) = .ok shown →
      shown.date = date ∧ shown.clock = clock ∧
      ofText (String.ofList (ws ++ ['Z'])) = .ok shown ∧
      (Timestamp.HasInstant ⟨shown, some offset⟩ →
        ∃ moment, ofText (String.ofList (ws ++ os)) = .ok moment ∧
          (moment.micros : Int) = shown.micros - offset) ∧
      (¬Timestamp.HasInstant ⟨shown, some offset⟩ →
        ofText (String.ofList (ws ++ os)) = .error (.instant (String.ofList (ws ++ os))))) ∧
    ∀ doc, Raising.read doc = (ofDocument doc).mapError .value ∧
      ((∃ moment, Raising.read doc = .ok moment ∧ Raising.tryRead doc = .ok (some moment)) ∨
        ∃ error, Raising.read doc = .error (.value error) ∧ Raising.tryRead doc = .ok none) := by
  refine ⟨?_, fun doc => ⟨Raising.read_eq doc, ?_⟩⟩
  · intro ws os date clock offset shown wall zone read
    have made := (ofText_eq_ok_iff wall).1 read
    obtain ⟨dated, timed⟩ := date_clock_of_ofFields made
    obtain ⟨ds, ts, rfl, days, time⟩ := wall.exists_parts
    obtain ⟨zone, range⟩ := zone.offsetText
    -- what stands behind the time of day is read together with it, so the text is cut before both
    rw [List.append_assoc, List.cons_append, List.append_assoc, List.cons_append]
    refine ⟨dated, timed, ?_, ?_⟩
    · have zulu : Iso.Form.timestamp ⟨date, clock, some 0⟩ = .ok shown.atUtc :=
        Iso.Form.timestamp_eq_ok_iff.2 ⟨shown.offsetLegible_atUtc.1, made, rfl⟩
      rw [ofText, Timestamp.ofText_zulu days 'T' time, zulu]
      simp only [instant?_atUtc]
    · have ahead : Iso.Form.timestamp ⟨date, clock, some offset⟩ = .ok ⟨shown, some offset⟩ :=
        Iso.Form.timestamp_eq_ok_iff.2 ⟨range, made, rfl⟩
      exact ofText_of_timestamp ((Timestamp.ofText_dateTime days 'T' time zone).trans ahead)
  · rw [Raising.tryRead_eq, Raising.read_eq]
    cases ofDocument doc with
    | ok moment => exact .inl ⟨moment, rfl, rfl⟩
    | error error => exact .inr ⟨error, rfl, rfl⟩

/-- Half an hour before midnight on a clock that is an hour behind: from the leap day the instant is
carried into March, and from the last day of year 9999 out of the calendar. -/
theorem Moment.ofText_offset_midnight :
    (∃ moment, ofText "2024-02-29T23:30-01:00" = .ok moment ∧
      moment.date = ⟨2024, 3, 1⟩ ∧ moment.clock = ⟨0, 30, 0, 0⟩) ∧
    ofText "9999-12-31T23:30-01:00" = .error (.instant "9999-12-31T23:30-01:00") := by
  have wall {date : Date} (valid : date.Valid) :
      WallText (date.isoText ++ "T23:30".toList) date ⟨23, 30, 0, 0⟩ :=
    have digits : "T23:30".toList = 'T' :: (Decimal.padded 2 23 ++ ':' :: Decimal.padded 2 30) := by
      decide +kernel
    digits ▸ .minutes valid.dateText (numeral_padded (by decide) (by decide))
      (numeral_padded (by decide) (by decide))
  have zone : ZoneText "-01:00".toList (-3600000000) :=
    have digits : "-01:00".toList = '-' :: (Decimal.padded 2 1 ++ ':' :: Decimal.padded 2 0) := by
      decide +kernel
    digits ▸ .behind (numeral_padded (by decide) (by decide))
      (numeral_padded (by decide) (by decide)) (by decide) (by decide)
  have leapDay : Date.Valid ⟨2024, 2, 29⟩ := by decide
  have lastDay : Date.Valid ⟨9999, 12, 31⟩ := by decide
  let shown : Moment := ⟨63844846200000000, by decide⟩
  let last : Moment := ⟨dayLimit * Clock.dayMicros - 1800000000, by decide⟩
  have made : ofFields ⟨2024, 2, 29⟩ ⟨23, 30, 0, 0⟩ = .ok shown :=
    ofFields_eq_ok leapDay (by decide) (by decide)
  have made' : ofFields ⟨9999, 12, 31⟩ ⟨23, 30, 0, 0⟩ = .ok last :=
    ofFields_eq_ok lastDay (by decide) (by decide)
  have read := (ofText_eq_ok_iff (wall leapDay)).2 made
  have read' := (ofText_eq_ok_iff (wall lastDay)).2 made'
  obtain ⟨-, -, -, inside, -⟩ := ofText_offset.1 (wall leapDay) zone read
  obtain ⟨-, -, -, -, outside⟩ := ofText_offset.1 (wall lastDay) zone read'
  have text : String.ofList (Date.isoText ⟨2024, 2, 29⟩ ++ "T23:30".toList ++ "-01:00".toList) =
      "2024-02-29T23:30-01:00" := by decide +kernel
  have text' : String.ofList (Date.isoText ⟨9999, 12, 31⟩ ++ "T23:30".toList ++ "-01:00".toList) =
      "9999-12-31T23:30-01:00" := by decide +kernel
  rw [text] at inside
  rw [text'] at outside
  refine ⟨?_, outside (by decide)⟩
  obtain ⟨moment, denoted, shifted⟩ := inside (by decide)
  refine ⟨moment, denoted, date_clock_of_ofFields (ofFields_eq_ok (by decide) (by decide) ?_)⟩
  exact Int.natCast_inj.1 (shifted.trans (by decide)).symm

end DocumentFilter
