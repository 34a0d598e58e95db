import Mathlib.Data.List.DropRight
import Mathlib.Data.Nat.Digits.Defs
import Propagation.Config
import Propagation.Moment.Notation
import Propagation.Proofs.Attempts

/-!
# The number of attempts

How often a serialized scope is tried can be set from the environment. What counts as a setting is
told here without its reader: digits in whatever number, perhaps behind a plus sign, with blanks at
either end. The reader stops at the first character that is no digit and at the first digit that
leads to the limit. Both come to the same, since to read on never makes a number smaller.

However a configuration is obtained, it allows an attempt, and so a scope calls its body.

## Main definitions

* `Numeral.value`: the number that decimal digits denote.
* `Count.IsNotation`, `Config.IsSetting`: the notations of a count, without blanks and with them.
* `Config.Obtained`: the ways in which a configuration is obtained.

## Main statements

* `Count.read_eq_ok_iff`: which texts are read as a count.
* `Config.readAttempts_eq_ok_iff`: which settings are read.
* `Scope.exists_call`: a policy that allows an attempt has it made.
* `Config.retry_budget`: what the environment sets, and that a configuration allows an attempt.
-/

namespace Propagation

/-! ## Digits -/

namespace Numeral

/-- The number that the decimal digits `ds` denote. -/
def value (ds : List Char) : Nat := Nat.ofDigits 10 (ds.reverse.map fun c => c.toNat - '0'.toNat)

theorem value_cons (c : Char) (ds : List Char) :
    value (c :: ds) = (c.toNat - '0'.toNat) * 10 ^ ds.length + value ds := by
  rw [value, List.reverse_cons, List.map_append, Nat.ofDigits_append, List.map_singleton,
    Nat.ofDigits_singleton, List.length_map, List.length_reverse, Nat.mul_comm, Nat.add_comm]
  rfl

theorem digitValue?_of_digit {c : Char} (hc : '0' ≤ c ∧ c ≤ '9') :
    digitValue? 10 c = some (c.toNat - '0'.toNat) := by
  have h9 : c.toNat ≤ '9'.toNat := hc.2
  have hlt : c.toNat - 48 < 10 := by
    have : '9'.toNat = 57 := rfl
    omega
  rw [digitValue?, if_pos hc, Option.filter_some, if_pos (by simpa using hlt)]
  rfl

/-- The decimal digits are those from zero to nine, and no others in any script. -/
theorem isDecimal_iff {c : Char} : isDecimal c = true ↔ '0' ≤ c ∧ c ≤ '9' := by
  constructor
  · exact toNat_of_isDecimal
  · intro hc
    rw [isDecimal, digitValue?_of_digit hc]
    rfl

/-- Digits `ds` that are read behind the number `start` shift it by their count and add their value.
-/
theorem extend?_of_digits {ds : List Char} (hds : ∀ c ∈ ds, '0' ≤ c ∧ c ≤ '9') (start : Nat) :
    extend? 10 start ds = some (start * 10 ^ ds.length + value ds) := by
  induction ds generalizing start with
  | nil => simp [extend?, value]
  | cons c ds ih =>
    obtain ⟨hc, hds⟩ := List.forall_mem_cons.1 hds
    have hread : extend? 10 start (c :: ds) =
        extend? 10 (start * 10 + (c.toNat - '0'.toNat)) ds := by
      rw [extend?, digitValue?_of_digit hc]
      rfl
    rw [hread, ih hds, value_cons, List.length_cons, Nat.pow_succ']
    congr 1
    ring

/-- The digits `ds` denote their `value`. -/
theorem denotes_iff {ds : List Char} {n : Nat} :
    Denotes ds n ↔ ds ≠ [] ∧ (∀ c ∈ ds, '0' ≤ c ∧ c ≤ '9') ∧ value ds = n := by
  have hvalue (hds : ∀ c ∈ ds, '0' ≤ c ∧ c ≤ '9') : ofDigits? 10 ds = some (value ds) := by
    rw [ofDigits?, extend?_of_digits hds, Nat.zero_mul, Nat.zero_add]
  constructor
  · rintro ⟨hne, hds, hn⟩
    simp only [isDecimal_iff] at hds
    rw [hvalue hds] at hn
    exact ⟨hne, hds, Option.some.inj hn⟩
  · rintro ⟨hne, hds, rfl⟩
    exact ⟨hne, fun c hc => isDecimal_iff.2 (hds c hc), hvalue hds⟩

end Numeral

/-! ## Counts -/

namespace Count

/-- The text `s` is a notation of `n`: digits, at least one, perhaps behind one plus sign. -/
def IsNotation (s : List Char) (n : Nat) : Prop :=
  ∃ sign digits, s = sign ++ digits ∧ (sign = [] ∨ sign = ['+']) ∧ digits ≠ [] ∧
    (∀ c ∈ digits, '0' ≤ c ∧ c ≤ '9') ∧ Numeral.value digits = n

theorem isNotation_plus {ds : List Char} {n : Nat} :
    IsNotation ('+' :: ds) n ↔ Numeral.Denotes ds n := by
  rw [Numeral.denotes_iff]
  constructor
  · rintro ⟨sign, ds', heq, rfl | rfl, hds⟩
    · -- A plus sign is no digit.
      cases heq
      exact absurd (hds.2.1 '+' (.head _)) (by decide)
    · cases heq
      exact hds
  · exact fun hds => ⟨['+'], ds, rfl, .inr rfl, hds⟩

theorem isNotation_of_ne {s : List Char} (hs : ∀ ds, s ≠ '+' :: ds) {n : Nat} :
    IsNotation s n ↔ Numeral.Denotes s n := by
  rw [Numeral.denotes_iff]
  constructor
  · rintro ⟨sign, ds, rfl, rfl | rfl, hds⟩
    · exact hds
    · exact absurd rfl (hs ds)
  · exact fun hds => ⟨[], s, rfl, .inl rfl, hds⟩

/-- The reader `extend` gives up at the first digit that leads to `limit`, which is to read to the
end and to compare then. -/
theorem extend_eq_ok_iff {limit start n : Nat} (hstart : start < limit) {ds : List Char} :
    extend limit start ds = .ok n ↔ Numeral.extend? 10 start ds = some n ∧ n < limit := by
  induction ds generalizing start with
  | nil =>
    rw [extend, Numeral.extend?, Except.ok.injEq, Option.some.injEq]
    exact ⟨fun h => ⟨h, h ▸ hstart⟩, And.left⟩
  | cons c ds ih =>
    rw [extend, Numeral.extend?]
    cases Numeral.digitValue? 10 c with
    | none =>
      constructor
      · intro h
        cases h
      · rintro ⟨h, -⟩
        cases h
    | some d =>
      dsimp only [Option.bind_eq_bind, Option.bind_some]
      split
      case isTrue hd => exact ih hd
      case isFalse hd =>
        constructor
        · intro h
          cases h
        · rintro ⟨hn, hlt⟩
          exact absurd (Nat.lt_of_le_of_lt (Numeral.le_of_extend? hn) hlt) hd

/-- Digits that `extend` accepts are those that denote a number below `limit`. -/
theorem extend_zero_eq_ok_iff {limit n : Nat} (hlimit : 0 < limit) {ds : List Char}
    (hds : ds ≠ []) : extend limit 0 ds = .ok n ↔ Numeral.Denotes ds n ∧ n < limit := by
  rw [extend_eq_ok_iff hlimit]
  refine and_congr_left fun _ => ⟨fun h => ⟨hds, ?_, h⟩, fun h => h.value⟩
  intro c hc
  exact Moment.isDecimal_of_extend? h c hc

/-- A text is read as the count `n` that it is a notation of, if this is below `limit`. -/
theorem read_eq_ok_iff {limit n : Nat} (hlimit : 0 < limit) {s : List Char} :
    read limit s = .ok n ↔ IsNotation s n ∧ n < limit := by
  have hnil : ¬ Numeral.Denotes [] n := fun h => h.ne_nil rfl
  rw [read.eq_def]
  split
  case h_1 =>
    rw [isNotation_of_ne fun _ => (List.cons_ne_nil _ _).symm]
    exact iff_of_false nofun fun h => hnil h.1
  case h_2 =>
    rw [isNotation_plus]
    exact iff_of_false nofun fun h => hnil h.1
  case h_3 ds hds =>
    rw [isNotation_plus]
    exact extend_zero_eq_ok_iff hlimit fun h => hds (by rw [h])
  case h_4 hne _ hplus =>
    rw [isNotation_of_ne hplus]
    exact extend_zero_eq_ok_iff hlimit hne

end Count

/-! ## Blanks at either end -/

namespace Text

/-- A text `s` is itself without the blanks at either end, and these blanks. -/
theorem exists_trim (s : List Char) : ∃ before after, s = before ++ (trim s ++ after) ∧
    (∀ c ∈ before, isBlank c = true) ∧ ∀ c ∈ after, isBlank c = true := by
  obtain ⟨before, hs, hbefore⟩ := Moment.skipBlank_eq s
  refine ⟨before, (skipBlank s).rtakeWhile isBlank, ?_, hbefore, fun c => List.mem_rtakeWhile_imp⟩
  have htrim : trim s ++ (skipBlank s).rtakeWhile isBlank = skipBlank s :=
    List.rdropWhile_append_rtakeWhile
  rw [htrim, ← hs]

/-- To `trim` a text leaves `s` where only blanks stand before and after `s`. -/
theorem trim_append {before s after : List Char} (hbefore : ∀ c ∈ before, isBlank c = true)
    (hafter : ∀ c ∈ after, isBlank c = true) (hne : s ≠ [])
    (hs : ∀ c ∈ s, 33 ≤ c.toNat ∧ c.toNat ≤ 57) : trim (before ++ (s ++ after)) = s := by
  obtain ⟨c, t, rfl⟩ := List.exists_cons_of_ne_nil hne
  have hskip : skipBlank (before ++ (c :: t ++ after)) = c :: t ++ after :=
    Moment.skipBlank_append hbefore (hs c (.head _)) _
  obtain ⟨d, u, hu⟩ := List.exists_cons_of_ne_nil (List.reverse_ne_nil_iff.2 hne)
  have hd : d ∈ c :: t := List.mem_reverse.1 (hu ▸ .head u)
  have hreverse : ∀ e ∈ after.reverse, isBlank e = true := fun e he =>
    hafter e (List.mem_reverse.1 he)
  rw [trim, hskip, List.reverse_append, hu, Moment.skipBlank_append hreverse (hs d hd), ← hu,
    List.reverse_reverse]

end Text

/-! ## Settings -/

namespace Config

/-- The setting `raw` is a notation of `n`, between blanks. -/
def IsSetting (raw : String) (n : Nat) : Prop :=
  ∃ before count after, raw.toList = before ++ (count ++ after) ∧
    (∀ c ∈ before, Text.isBlank c = true) ∧ (∀ c ∈ after, Text.isBlank c = true) ∧
    Count.IsNotation count n

/-- No character of a notation is blank, so the blanks around it are those that are cut. -/
theorem isSetting_iff {raw : String} {n : Nat} :
    IsSetting raw n ↔ Count.IsNotation (Text.trim raw.toList) n := by
  constructor
  · rintro ⟨before, count, after, hraw, hbefore, hafter, hcount⟩
    have hvisible : count ≠ [] ∧ ∀ c ∈ count, 33 ≤ c.toNat ∧ c.toNat ≤ 57 := by
      obtain ⟨sign, ds, rfl, hsign, hne, hds, -⟩ := hcount
      refine ⟨by simp [hne], fun c hc => ?_⟩
      rcases List.mem_append.1 hc with hc | hc
      · rcases hsign with rfl | rfl
        · cases hc
        · rw [List.mem_singleton.1 hc]
          decide
      · have := Numeral.toNat_of_isDecimal (Numeral.isDecimal_iff.2 (hds c hc))
        omega
    rw [hraw, Text.trim_append hbefore hafter hvisible.1 hvisible.2]
    exact hcount
  · intro hcount
    obtain ⟨before, after, hraw, hbefore, hafter⟩ := Text.exists_trim raw.toList
    exact ⟨before, _, after, hraw, hbefore, hafter, hcount⟩

/-- The setting `raw` is read as the number that it is a notation of, if this fits. -/
theorem readAttempts_eq_ok_iff {raw : String} {attempts : UInt32} :
    readAttempts raw = .ok attempts ↔ IsSetting raw attempts.toNat := by
  have hread {n : Nat} : Count.read UInt32.size (Text.trim raw.toList) = .ok n ↔
      IsSetting raw n ∧ n < UInt32.size := by
    rw [isSetting_iff, Count.read_eq_ok_iff (by decide)]
  rw [readAttempts]
  constructor
  · intro h
    split at h
    case h_1 n hn =>
      obtain ⟨hsetting, hlt⟩ := hread.1 hn
      cases h
      rwa [UInt32.toNat_ofNat_of_lt' hlt]
    case h_2 => cases h
  · intro h
    rw [hread.2 ⟨h, attempts.toNat_lt⟩]
    exact congrArg Except.ok UInt32.ofNat_toNat

/-- The first number that does not fit. -/
example : readAttempts " 4294967296" =
    .error (.badCount attemptsVariable " 4294967296" .tooLarge) := by decide +kernel

/-- A configuration `c` is admitted, as it is, if it allows an attempt. -/
theorem check_eq_ok_iff {c d : Config} :
    c.check = .ok d ↔ 1 ≤ c.retry.maxAttempts.toNat ∧ d = c := by
  rw [check]
  split
  case isTrue h =>
    refine iff_of_false nofun fun hpos => ?_
    rw [h] at hpos
    exact absurd hpos.1 (by decide)
  case isFalse h =>
    have hpos : 1 ≤ c.retry.maxAttempts.toNat :=
      Nat.pos_of_ne_zero fun h0 => h (UInt32.toNat.inj h0)
    rw [Except.ok.injEq, eq_comm, and_iff_right hpos]

/-- What `environment` sets takes the place of what was configured. -/
theorem override_of_some {environment : String → Option String} {raw : String}
    (h : environment attemptsVariable = some raw) {base c : Config} :
    base.override environment = .ok c ↔ ∃ n, 1 ≤ n ∧ n ≤ 4294967295 ∧ IsSetting raw n ∧
      c.retry.maxAttempts.toNat = n ∧ c.backend = base.backend := by
  have hoverride : base.override environment =
      readAttempts raw >>= fun maxAttempts => check { base with retry := { maxAttempts } } := by
    rw [override, h]
  rw [hoverride]
  constructor
  · intro hok
    cases hread : readAttempts raw with
    | error e =>
      rw [hread] at hok
      cases hok
    | ok attempts =>
      rw [hread] at hok
      obtain ⟨hpos, rfl⟩ := check_eq_ok_iff.1 hok
      exact ⟨_, hpos, Nat.le_of_lt_succ attempts.toNat_lt, readAttempts_eq_ok_iff.1 hread, rfl,
        rfl⟩
  · rintro ⟨_, hpos, -, hsetting, rfl, hbackend⟩
    obtain ⟨⟨attempts⟩, backend⟩ := c
    cases hbackend
    rw [readAttempts_eq_ok_iff.2 hsetting]
    exact check_eq_ok_iff.2 ⟨hpos, rfl⟩

/-- What `environment` does not set stays as it was configured. -/
theorem override_of_none {environment : String → Option String}
    (h : environment attemptsVariable = none) {base c : Config} :
    base.override environment = .ok c ↔ 1 ≤ base.retry.maxAttempts.toNat ∧ c = base := by
  rw [override, h]
  exact check_eq_ok_iff

/-- The ways in which the configuration `c` is obtained. -/
inductive Obtained (c : Config) : Prop
  /-- From a text. -/
  | text {s : String} (h : read s = .ok c)
  /-- From the contents of a file. -/
  | file {contents : Option String} (h : ofFile contents = .ok c)
  /-- From another one and the environment. -/
  | override {environment : String → Option String} {base : Config}
    (h : base.override environment = .ok c)
  /-- From the environment alone. -/
  | environment {environment : String → Option String} (h : ofEnvironment environment = .ok c)

/-- However a configuration is obtained, it has been checked. -/
theorem Obtained.allows {c : Config} (h : c.Obtained) : 1 ≤ c.retry.maxAttempts.toNat := by
  have hchecked {b : Config} (hb : b.check = .ok c) : 1 ≤ c.retry.maxAttempts.toNat := by
    obtain ⟨hpos, rfl⟩ := check_eq_ok_iff.1 hb
    exact hpos
  have hread {s : String} (hs : read s = .ok c) : 1 ≤ c.retry.maxAttempts.toNat := by
    rw [read] at hs
    split at hs
    case h_1 => exact hchecked hs
    case h_2 => cases hs
  have hoverride {environment : String → Option String} {base : Config}
      (hb : base.override environment = .ok c) : 1 ≤ c.retry.maxAttempts.toNat := by
    cases hraw : environment attemptsVariable with
    | some raw =>
      obtain ⟨_, hpos, -, -, rfl, -⟩ := (override_of_some hraw).1 hb
      exact hpos
    | none =>
      obtain ⟨hpos, rfl⟩ := (override_of_none hraw).1 hb
      exact hpos
  cases h with
  | text hs => exact hread hs
  | @file contents hs =>
    cases contents with
    | none => cases hs
    | some s => exact hread hs
  | override hb => exact hoverride hb
  | environment hb => exact hoverride hb

end Config

/-! ## Attempts -/

namespace Scope

variable {σ α : Type}

/-- Where `policy` allows an attempt, `body` is called, with a new transaction of the store. -/
theorem exists_call {policy : RetryPolicy} (hpolicy : 1 ≤ policy.maxAttempts.toNat)
    (body : Body σ α) (s : Store × σ) : ∃ later,
    (serialized policy body.recorded (s.1, s.2, [])).2.2.2 =
      attempt .readWrite .serializable body s :: later := by
  obtain ⟨calls, left, answer, final, hcourse, -, hdiary⟩ := course_retryAmid id body
    (.exhausted policy.maxAttempts) policy.maxAttempts.toNat s
  have hrun : serialized policy body.recorded (s.1, s.2, []) =
      (answer, final.1, final.2, calls) := by
    rw [serialized, ← retryAmid_id]
    exact hdiary []
  rw [hrun]
  have hfollow := hcourse.follow
  cases calls with
  | nil =>
    obtain ⟨hlength, -⟩ | ⟨before, a, hcalls, -⟩ := hcourse.answer_cases
    · rw [← hlength] at hpolicy
      cases hpolicy
    · simp at hcalls
  | cons a later =>
    obtain ⟨rfl, -⟩ := hfollow
    exact ⟨later, rfl⟩

end Scope

namespace Config

/-- A configuration is overridden by what the environment sets. This succeeds exactly if the setting
is a notation, between blanks, of a number from one to the largest that fits: digits, with any
number of zeros in front, perhaps behind one plus sign. Then that is the number of attempts, and the
store stays as it was configured. Where nothing is set, it succeeds exactly if an attempt is allowed
already, and changes nothing. So whichever way a configuration is obtained, a serialized scope that
follows it calls its body at least once. -/
theorem retry_budget :
    (∀ (environment : String → Option String) (base c : Config),
      match environment attemptsVariable with
      | some raw => base.override environment = .ok c ↔
        ∃ n, 1 ≤ n ∧ n ≤ 4294967295 ∧ IsSetting raw n ∧
          c.retry.maxAttempts.toNat = n ∧ c.backend = base.backend
      | none => base.override environment = .ok c ↔ 1 ≤ base.retry.maxAttempts.toNat ∧ c = base) ∧
    ∀ c : Config, c.Obtained → ∀ {σ α : Type} (body : Scope.Body σ α) (s : Store × σ), ∃ later,
      (Scope.serialized c.retry body.recorded (s.1, s.2, [])).2.2.2 =
        Scope.attempt .readWrite .serializable body s :: later := by
  refine ⟨fun environment base c => ?_, fun c hc _ _ body s => Scope.exists_call hc.allows body s⟩
  split
  case h_1 raw hraw => exact override_of_some hraw
  case h_2 hraw => exact override_of_none hraw

/-- An environment in which every name is set to `raw`. -/
def setTo (raw : String) (name : String) : Option String :=
  if name = attemptsVariable then some raw else none

/-- The count seven is written with a sign, with zeros and between blanks, one of them outside of
ASCII. No attempt was allowed before; now the body is called. -/
theorem retry_budget_padded :
    setTo "\u00a0+007\t" attemptsVariable = some "\u00a0+007\t" ∧
    override (setTo "\u00a0+007\t") { retry := { maxAttempts := 0 } } =
      .ok { retry := { maxAttempts := 7 } } ∧
    IsSetting "\u00a0+007\t" 7 ∧
    ∀ (body : Scope.Body Unit Unit) (s : Store × Unit),
      (Scope.serialized { maxAttempts := 7 } body.recorded (s.1, s.2, [])).2.2.2 ≠ [] := by
  have hok : override (setTo "\u00a0+007\t") { retry := { maxAttempts := 0 } } =
      .ok { retry := { maxAttempts := 7 } } := by decide +kernel
  obtain ⟨hoverride, hcalls⟩ := retry_budget
  refine ⟨rfl, hok, ?_, fun body s => ?_⟩
  · obtain ⟨n, -, -, hsetting, hn, -⟩ := (hoverride (setTo "\u00a0+007\t") _ _).1 hok
    cases hn
    exact hsetting
  · obtain ⟨later, hlater⟩ := hcalls _ (.override hok) body s
    rw [hlater]
    exact List.cons_ne_nil _ _

end Config

end Propagation
