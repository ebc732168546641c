import DocumentFilter.Proofs.Time.Printing

/-!
# The text of an instant

A timestamp shows universal time plus its offset, so the microseconds that it shows less those
of the offset are its instant, if there is such a microsecond in the years 1 to 9999
(`DocumentFilter.Timestamp.instant?_eq_some_iff`). What is written for the instant is written
for nothing else, for it is itself the text of a timestamp: of one with the offset zero, whose
clock reads the instant. So it is read back like every timestamp, and this makes the text a name
of the instant, the same for all timestamps that denote it.

* `DocumentFilter.Timestamp.utcMicros`: universal time, in range or not;
* `DocumentFilter.Moment.ofText_utcText`: the text of an instant is read as that instant;
* `DocumentFilter.Timestamp.utcText?_spec`: **timestamps have the same text exactly if they are
  the same instant**.
-/

namespace DocumentFilter

/-! ### Universal time -/

/-- There is one moment with a given number of microseconds, if there is any. -/
theorem Moment.ofMicros?_eq_some_iff {n : Int} {moment : Moment} :
    ofMicros? n = some moment ↔ (moment.micros : Int) = n := by
  constructor
  · intro found
    rw [ofMicros?] at found
    split at found
    case isTrue range =>
      cases found
      exact Int.toNat_of_nonneg range.1
    case isFalse => cases found
  · rintro rfl
    exact moment.ofMicros?_micros

theorem Moment.exists_ofMicros? {n : Int} (range : 0 ≤ n ∧ n < dayLimit * Clock.dayMicros) :
    ∃ moment, ofMicros? n = some moment := by
  refine ⟨_, dif_pos ⟨range.1, ?_⟩⟩
  rw [Int.toNat_lt range.1, Nat.cast_mul]
  exact range.2

namespace Timestamp

/-- **Universal time** when a clock shows what the timestamp says, in microseconds from the start
of year 1. It can lie outside of the years 1 to 9999 even if the reading does not. -/
def utcMicros (t : Timestamp) : Int :=
  t.wall.micros - t.offset.getD 0

/-- A timestamp whose instant lies in the years 1 to 9999. -/
def HasInstant (t : Timestamp) : Prop :=
  0 ≤ t.utcMicros ∧ t.utcMicros < dayLimit * Clock.dayMicros

instance (t : Timestamp) : Decidable t.HasInstant :=
  inferInstanceAs (Decidable (_ ∧ _))

theorem instant?_eq (t : Timestamp) : t.instant? = Moment.ofMicros? t.utcMicros := by
  obtain ⟨wall, offset⟩ := t
  cases offset with
  | none =>
    rw [utcMicros, Option.getD_none, Int.sub_zero, wall.ofMicros?_micros]
    rfl
  | some offset => rfl

/-- The instant of a timestamp is its universal time. -/
theorem instant?_eq_some_iff {t : Timestamp} {moment : Moment} :
    t.instant? = some moment ↔ (moment.micros : Int) = t.utcMicros := by
  rw [instant?_eq, Moment.ofMicros?_eq_some_iff]

theorem HasInstant.exists_instant {t : Timestamp} (h : t.HasInstant) :
    ∃ moment, t.instant? = some moment := by
  rw [instant?_eq]
  exact Moment.exists_ofMicros? h

end Timestamp

/-! ### The text of an instant -/

namespace Moment

/-- The timestamp of a clock that shows universal time and says so. -/
def atUtc (moment : Moment) : Timestamp :=
  ⟨moment, some 0⟩

/-- The text of an instant is that of a timestamp. -/
theorem utcText_eq (moment : Moment) : moment.utcText = String.ofList moment.atUtc.isoText := by
  rw [utcText, Timestamp.isoText, atUtc, Option.map_some, Option.getD_some, offsetText_zero]

theorem instant?_atUtc (moment : Moment) : moment.atUtc.instant? = some moment :=
  Timestamp.instant?_eq_some_iff.2 (Int.sub_zero _).symm

theorem offsetLegible_atUtc (moment : Moment) : Iso.OffsetLegible moment.atUtc.offset :=
  Iso.offsetLegible_zero

/-- **The text of an instant is read** as that instant. -/
theorem ofText_utcText (moment : Moment) : ofText moment.utcText = .ok moment := by
  have read := Timestamp.ofText_isoText moment.offsetLegible_atUtc
  rw [utcText_eq, ofText, read]
  simp only [instant?_atUtc]

/-- The text of an instant is that of no other. -/
theorem utcText_inj {m n : Moment} : m.utcText = n.utcText ↔ m = n := by
  constructor
  · intro same
    have read := ofText_utcText m
    rw [same, ofText_utcText] at read
    exact (Except.ok.inj read).symm
  · rintro rfl
    rfl

end Moment

/-- **The text of a timestamp in universal time** is read as its instant. So two timestamps have
the same text exactly if they are the same instant, whatever their offsets and whether or not
they have one. -/
theorem Timestamp.utcText?_spec {t u : Timestamp} (ht : t.HasInstant) (hu : u.HasInstant) :
    (∃ text moment, t.utcText? = some text ∧ Moment.ofText text = .ok moment ∧
      (moment.micros : Int) = t.utcMicros) ∧
    (t.utcText? = u.utcText? ↔ t.utcMicros = u.utcMicros) := by
  obtain ⟨m, instant⟩ := ht.exists_instant
  obtain ⟨n, instant'⟩ := hu.exists_instant
  have micros := instant?_eq_some_iff.1 instant
  have micros' := instant?_eq_some_iff.1 instant'
  have text : t.utcText? = some m.utcText := by rw [utcText?, instant, Option.map_some]
  have text' : u.utcText? = some n.utcText := by rw [utcText?, instant', Option.map_some]
  refine ⟨⟨_, m, text, m.ofText_utcText, micros⟩, ?_⟩
  calc t.utcText? = u.utcText?
      ↔ m.utcText = n.utcText := by rw [text, text', Option.some.injEq]
    _ ↔ t.instant? = some n := by rw [Moment.utcText_inj, instant, Option.some.injEq]
    _ ↔ t.utcMicros = u.utcMicros := by rw [instant?_eq_some_iff, micros', eq_comm]

/-- The last microsecond of year 9999 on a clock that is an hour ahead, and the same instant on
one that says nothing about its offset. -/
theorem Timestamp.utcText?_spec_ahead :
    let ahead : Timestamp := ⟨⟨dayLimit * Clock.dayMicros - 1, by decide⟩, some 3600000000⟩
    let naive : Timestamp := ⟨⟨dayLimit * Clock.dayMicros - 3600000001, by decide⟩, none⟩
    ahead.HasInstant ∧ naive.HasInstant ∧
      (∃ text moment, ahead.utcText? = some text ∧ Moment.ofText text = .ok moment ∧
        (moment.micros : Int) = ahead.utcMicros) ∧
      ahead.utcText? = naive.utcText? := by
  intro ahead naive
  have inRange : ahead.HasInstant := by decide
  have inRange' : naive.HasInstant := by decide
  obtain ⟨read, same⟩ := utcText?_spec inRange inRange'
  exact ⟨inRange, inRange', read, same.2 (by decide)⟩

end DocumentFilter
