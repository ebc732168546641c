import DocumentFilter.Proofs.Time.Calendar
import DocumentFilter.Proofs.Time.Iso

/-!
# Timestamps are read back

What is written for a day or a timestamp is a text of the grammar in
`DocumentFilter.Proofs.Time.Iso`, so the reader finds in it the date, the time of day and the
offset that were written. From these the calendar makes the same moment again, by
`DocumentFilter.Moment.ofFields_date_clock`. Only an offset of less than a day is a time of day,
and one of less than a second is read as none, so it is not read back unless it is zero.

* `DocumentFilter.Date.Valid.dateText`, `DocumentFilter.Clock.Valid.clockText`,
  `DocumentFilter.offsetText_spec`: what is written, part by part;
* `DocumentFilter.Timestamp.ofText_isoText`, `DocumentFilter.Timestamp.ofText_dateText`: **it is
  read back**;
* `DocumentFilter.Moment.ofText?_isoText`: the instant of what is written.
-/

namespace DocumentFilter

/-! ### Dates -/

theorem Date.monthLength_le (year month : Nat) : monthLength year month ≤ 31 := by
  have all : ∀ length ∈ monthLengths (isLeap year), length ≤ 31 := by
    cases isLeap year <;> decide
  rw [monthLength]
  cases at_ : (monthLengths (isLeap year))[month - 1]? with
  | none => exact Nat.zero_le _
  | some length => exact all length (List.mem_of_getElem? at_)

/-- The text of a date of the calendar. -/
theorem Date.Valid.dateText {date : Date} (valid : date.Valid) :
    Iso.DateText date.isoText date := by
  obtain ⟨⟨-, year⟩, ⟨-, month⟩, -, day⟩ := valid
  have length := monthLength_le date.year date.month
  rw [lastYear] at year
  rw [isoText, List.append_assoc, List.cons_append]
  exact .intro (numeral_padded (by omega) (by decide)) (numeral_padded (by omega) (by decide))
    (numeral_padded (by omega) (by decide))

/-! ### Times of day -/

/-- Six digits are a fraction in microseconds. -/
theorem Numeral.fraction?_eq {cs : List Char} {micro : Nat} (h : Numeral 6 cs micro) :
    Iso.fraction? cs = some micro := by
  obtain ⟨ds, read, rfl⟩ := h.read
  have ne : cs ≠ [] := by
    rintro rfl
    cases h.length
  have length : ds.length = 6 := (forall₂_of_mapM read).length_eq.symm.trans h.length
  rw [Iso.fraction?, if_neg ne, read, Option.map_some, List.take_left' length]

/-- The text of a time of day. -/
theorem Clock.Valid.clockText {clock : Clock} (valid : clock.Valid) :
    Iso.ClockText clock.isoText clock := by
  obtain ⟨hour, minute, second, micro⟩ := clock
  obtain ⟨hour_lt, minute_lt, second_lt, micro_lt⟩ := valid
  have hours : Numeral 2 (Decimal.padded 2 hour) hour :=
    numeral_padded (Nat.lt_trans hour_lt (by decide)) (by decide)
  have minutes : Numeral 2 (Decimal.padded 2 minute) minute :=
    numeral_padded (Nat.lt_trans minute_lt (by decide)) (by decide)
  have seconds : Numeral 2 (Decimal.padded 2 second) second :=
    numeral_padded (Nat.lt_trans second_lt (by decide)) (by decide)
  rw [isoText, fractionText, List.append_assoc, List.append_assoc, List.cons_append,
    List.cons_append]
  by_cases whole : micro = 0
  · rw [if_pos whole, List.append_nil, whole]
    exact .seconds hours minutes seconds
  · rw [if_neg whole]
    exact .fraction hours minutes seconds (.inl rfl)
      (numeral_padded micro_lt (by decide)).fraction?_eq

/-! ### Offsets -/

/-- The time of an offset, without its sign. -/
theorem offsetText_size {offset : Int} (range : offset.natAbs < Clock.dayMicros) :
    ∃ cs, Iso.ClockText cs (Clock.ofMicros offset.natAbs) ∧
      offsetText offset = (if offset < 0 then '-' else '+') :: cs := by
  have valid := Clock.valid_ofMicros range
  rw [offsetText]
  generalize Clock.ofMicros offset.natAbs = clock at valid ⊢
  by_cases whole : clock.second = 0 ∧ clock.micro = 0
  · obtain ⟨hour, minute, second, micro⟩ := clock
    obtain ⟨rfl, rfl⟩ := whole
    refine ⟨_, .minutes (numeral_padded (Nat.lt_trans valid.1 (by decide)) (by decide))
      (numeral_padded (Nat.lt_trans valid.2.1 (by decide)) (by decide)), rfl⟩
  · exact ⟨_, valid.clockText, by simp only [if_neg whole]⟩

/-- An offset whose text the reader takes for it: less than a day, and no part of a second. -/
def Iso.OffsetLegible (offset : Option Int) : Prop :=
  OffsetInRange offset ∧ ∀ micros ∈ offset, micros = 0 ∨ 1000000 ≤ micros.natAbs

instance (offset : Option Int) : Decidable (Iso.OffsetLegible offset) :=
  match offset with
  | none => isTrue (by simp [Iso.OffsetLegible, Iso.OffsetInRange])
  | some micros => decidable_of_iff
      (Iso.OffsetInRange (some micros) ∧ (micros = 0 ∨ 1000000 ≤ micros.natAbs))
      (by simp [Iso.OffsetLegible])

theorem Iso.offsetLegible_none : OffsetLegible none := by
  decide

theorem Iso.offsetLegible_zero : OffsetLegible (some 0) := by
  decide

/-- A clock that is ahead by a second or more, or not at all, is ahead by what it shows. -/
theorem Iso.ahead_ofMicros {n : Nat} (legible : n = 0 ∨ 1000000 ≤ n) :
    ahead (Clock.ofMicros n) = n := by
  have micros := Clock.micros_ofMicros n
  have shown : (Clock.ofMicros n).hour = n / 3600000000 ∧
      (Clock.ofMicros n).minute = n / 60000000 % 60 ∧
      (Clock.ofMicros n).second = n / 1000000 % 60 := ⟨rfl, rfl, rfl⟩
  rw [ahead, micros]
  split
  · omega
  · rfl

/-- The text of an offset that is legible. -/
theorem offsetText_spec {offset : Int} (legible : Iso.OffsetLegible (some offset)) :
    Iso.OffsetText (offsetText offset) (some offset) := by
  obtain ⟨cs, size, text⟩ := offsetText_size (legible.1 offset rfl)
  have whole : offset.natAbs = 0 ∨ 1000000 ≤ offset.natAbs :=
    (legible.2 offset rfl).imp Int.natAbs_eq_zero.2 id
  have shown := Iso.ahead_ofMicros whole
  by_cases negative : offset < 0
  · have value : offset = -Iso.ahead (Clock.ofMicros offset.natAbs) := by
      rw [shown]
      omega
    rw [text, if_pos negative]
    exact value ▸ .behind size
  · have value : offset = Iso.ahead (Clock.ofMicros offset.natAbs) := by
      rw [shown]
      omega
    rw [text, if_neg negative]
    exact value ▸ .ahead size

/-- What is written for a clock that shows universal time. -/
theorem offsetText_zero : offsetText 0 = "+00:00".toList := by
  decide +kernel

/-- The text of an offset that may be missing. -/
theorem offsetText_getD {offset : Option Int} (legible : Iso.OffsetLegible offset) :
    Iso.OffsetText ((offset.map offsetText).getD []) offset := by
  cases offset with
  | none => exact .none
  | some offset => exact offsetText_spec legible

/-! ### Timestamps -/

theorem Moment.dateText (moment : Moment) : Iso.DateText moment.date.isoText moment.date :=
  (Date.valid_ofDayNumber moment.day.number_lt).dateText

theorem Moment.clockText (moment : Moment) : Iso.ClockText moment.clock.isoText moment.clock :=
  (Clock.valid_ofMicros (Nat.mod_lt _ (by decide))).clockText

theorem Day.dateText (day : Day) : Iso.DateText day.date.isoText day.date :=
  (Date.valid_ofDayNumber day.number_lt).dateText

/-- The text of a timestamp, by its parts. -/
theorem Timestamp.isoText_eq (t : Timestamp) :
    t.isoText = t.wall.date.isoText ++
      'T' :: (t.wall.clock.isoText ++ (t.offset.map offsetText).getD []) := by
  rw [isoText, Moment.isoText, List.append_assoc, List.cons_append]

/-- **A timestamp is read back** from its text. -/
theorem Timestamp.ofText_isoText {t : Timestamp} (legible : Iso.OffsetLegible t.offset) :
    ofText (String.ofList t.isoText) = .ok t := by
  rw [isoText_eq, ofText_dateTime t.wall.dateText 'T' t.wall.clockText (offsetText_getD legible)]
  exact Iso.Form.timestamp_eq_ok_iff.2 ⟨legible.1, t.wall.ofFields_date_clock, rfl⟩

/-- **A day is read back** from its text, as its midnight. -/
theorem Timestamp.ofText_dateText (day : Day) :
    ofText (String.ofList day.date.isoText) = .ok ⟨day.midnight, none⟩ := by
  have ends := day.dateText.ends
  rw [ofText_of_digits ends.1 ends.2, Iso.form?_date day.dateText]
  exact Iso.Form.timestamp_eq_ok_iff.2 ⟨Iso.offsetLegible_none.1, day.ofFields_midnight, rfl⟩

/-- The instant of what is written for a timestamp. -/
theorem Moment.ofText?_isoText {t : Timestamp} {moment : Moment}
    (legible : Iso.OffsetLegible t.offset) (instant : t.instant? = some moment) :
    ofText? (String.ofList t.isoText) = some moment := by
  simp only [ofText?, ofText, Timestamp.ofText_isoText legible, instant]
  rfl

/-- The instant of what is written for a day. -/
theorem Moment.ofText?_dateText (day : Day) :
    ofText? (String.ofList day.date.isoText) = some day.midnight := by
  simp only [ofText?, ofText, Timestamp.ofText_dateText]
  rfl

end DocumentFilter
