import Propagation.Moment.Lemmas
import Propagation.Timestamp

/-!
# The normal form of a time

Of the many notations of a moment a timestamp keeps one, the written form. Whatever notation was
read, the timestamp is that of the moment, in whatever year it lies and also in a leap second after
the second 59; nothing is lost from then on, however often the timestamp is read and written again.
What is lost at first is where a leap second lies that follows another second, for it is written
like the second that comes next.

## Main statements

* `Timestamp.moment_ofMoment`, `Timestamp.ofMoment_moment`: timestamps and settled moments
  correspond.
* `Timestamp.read_text`: a timestamp is read back from its own text.
* `Timestamp.normal_form`: which texts are read, and what becomes of them.
* `Timestamp.normal_form_unsettled`: a leap second that is not read back.
-/

namespace Propagation.Timestamp

/-- The text of `t` denotes `t.moment`: there is always such a moment. -/
theorem read_toList (t : Timestamp) : Moment.read t.text.toList = .ok t.moment := by
  obtain ⟨text, m, rfl⟩ := t
  have hread : Moment.read m.text.toList = .ok m.settle := by
    rw [Moment.toList_text, Moment.read_chars]
  rw [moment]
  simp only [hread]

/-- The moment of a timestamp is settled. -/
theorem settled_moment (t : Timestamp) : t.moment.Settled := Moment.settled_of_read t.read_toList

@[simp] theorem text_ofMoment (m : Moment) : (ofMoment m).text = m.text := rfl

/-- The moment of a timestamp that was made of `m` is the one to which `m` settles. -/
@[simp] theorem moment_ofMoment (m : Moment) : (ofMoment m).moment = m.settle := by
  have hread := (ofMoment m).read_toList
  rw [text_ofMoment, Moment.toList_text, Moment.read_chars] at hread
  exact (Except.ok.inj hread).symm

theorem moment_ofMoment_of_settled {m : Moment} (h : m.Settled) : (ofMoment m).moment = m := by
  rw [moment_ofMoment, Moment.settle_of_settled h]

/-- A timestamp `t` is that of its moment. -/
@[simp] theorem ofMoment_moment (t : Timestamp) : ofMoment t.moment = t := by
  obtain ⟨text, m, rfl⟩ := t
  apply text_injective
  rw [text_ofMoment]
  exact (congrArg Moment.text (moment_ofMoment m)).trans m.text_settle

theorem text_eq (t : Timestamp) : t.text = t.moment.text := by
  rw [← text_ofMoment, ofMoment_moment]

/-- The timestamp `t` is read back from its own text. -/
theorem read_text (t : Timestamp) : read t.text = .ok t := by
  rw [read, read_toList, Except.map, ofMoment_moment]

/-- The text `s` is read as `t` just if it is a notation of `t.moment`. -/
theorem read_eq_ok_iff {s : String} {t : Timestamp} :
    read s = .ok t ↔ Moment.IsNotation s.toList t.moment := by
  rw [← Moment.read_eq_ok_iff, read]
  cases hread : Moment.read s.toList with
  | error e => exact iff_of_false nofun nofun
  | ok m =>
    have hsettled := Moment.settled_of_read hread
    rw [Except.map, Except.ok.injEq, Except.ok.injEq]
    constructor
    · rintro rfl
      exact (moment_ofMoment_of_settled hsettled).symm
    · rintro rfl
      exact ofMoment_moment t

/-- Every moment is read back from its written form as the moment that it settles to: as itself just
if it lies in no leap second but one after the second 59, so that no two such moments are written
alike. The texts that are read are the notations of moments. What is read from a text is read again
from its own text, and written again as it is; for its own text always denotes a moment. -/
theorem normal_form :
    (∀ m : Moment, read m.text = .ok (ofMoment m) ∧ (ofMoment m).moment = m.settle ∧
      ((ofMoment m).moment = m ↔ m.Settled)) ∧
    Set.InjOn Moment.text {m | m.Settled} ∧
    (∀ s t, read s = .ok t ↔ Moment.IsNotation s.toList t.moment) ∧
    (∀ s, (read s >>= fun t => read t.text) = read s ∧
      (fun t => ofMoment t.moment) <$> read s = read s) ∧
    ∀ t : Timestamp, Moment.read t.text.toList = .ok t.moment := by
  refine ⟨fun m => ⟨(ofMoment m).read_text, moment_ofMoment m, ?_⟩, Moment.text_injOn,
    fun s t => read_eq_ok_iff, fun s => ?_, read_toList⟩
  · rw [moment_ofMoment]
    exact Moment.settle_eq_self_iff
  · cases read s with
    | error e => exact ⟨rfl, rfl⟩
    | ok t => exact ⟨t.read_text, congrArg Except.ok t.ofMoment_moment⟩

/-- The start of the leap second after the second 5 is written like the second 6, and read back as
that. -/
theorem normal_form_unsettled : ∃ m m' : Moment, m ≠ m' ∧
    m.text = "2016-01-01T00:00:06.000000" ∧ m'.text = "2016-01-01T00:00:06.000000" ∧
    (read m.text).map moment = .ok m' := by
  let leap : Moment := ⟨2016, 1, 1, 0, 0, 5, 1000000, by decide, by decide, by decide, by decide,
    by decide, by decide, by decide⟩
  let next : Moment := ⟨2016, 1, 1, 0, 0, 6, 0, by decide, by decide, by decide, by decide,
    by decide, by decide, by decide⟩
  exact ⟨leap, next, by decide +kernel⟩

/-- Blanks, single digits, a sign with leading zeros and a leap second, without a fraction. -/
example : (read " +02016-6- 30T 23:5:60").map text = .ok "2016-06-30T23:05:60.000000" := by
  decide +kernel

end Propagation.Timestamp
