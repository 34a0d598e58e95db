import Mathlib
import Propagation.Text.Numeral

/-!
# Reading numerals back

A written number reads back, up to the digits that were written, and is made of digits only.

## Main statements

* `Numeral.ofDigits?_digits`: the shortest numeral denotes the number.
* `Numeral.ofDigits?_fixed`: its last digits denote the number modulo a power of the base.
* `Numeral.ofDigits?_padded`: zeros in front make no difference.
* `Numeral.padded_eq_fixed`: a number that fits has as many digits as there is room for.
-/

namespace Propagation.Numeral

/-! ## Digits -/

theorem digitValue?_digit {base d : Nat} (hb : base ≤ 16) (hd : d < base) :
    digitValue? base (digit d) = some d := by
  have table : ∀ d < 16, digitValue? 16 (digit d) = some d := by decide
  have h := table d (by omega)
  simp only [digitValue?, Option.filter_eq_some_iff] at h ⊢
  exact ⟨h.1, by simpa using hd⟩

theorem isDecimal_digit {d : Nat} (hd : d < 10) : isDecimal (digit d) = true := by
  rw [isDecimal, digitValue?_digit (by omega) hd, Option.isSome_some]

theorem digitValue?_lt {base d : Nat} {c : Char} (h : digitValue? base c = some d) :
    d < base := by
  simp only [digitValue?, Option.filter_eq_some_iff] at h
  simpa using h.2

theorem digitValue?_ten_eq_some {c : Char} {d : Nat} (h : digitValue? 10 c = some d) :
    48 ≤ c.toNat ∧ c.toNat ≤ 57 ∧ d = c.toNat - 48 := by
  have hd := digitValue?_lt h
  simp only [digitValue?, Option.filter_eq_some_iff] at h
  have h := h.1
  split at h
  · rename_i hc
    have h0 : '0'.toNat ≤ c.toNat := hc.1
    have h9 : c.toNat ≤ '9'.toNat := hc.2
    exact ⟨h0, h9, (Option.some.inj h).symm⟩
  · split at h
    · rename_i hc
      have ha : 'a'.toNat ≤ c.toNat := hc.1
      have : 97 ≤ c.toNat := ha
      have := Option.some.inj h
      omega
    · split at h
      · rename_i hc
        have hA : 'A'.toNat ≤ c.toNat := hc.1
        have : 65 ≤ c.toNat := hA
        have := Option.some.inj h
        omega
      · cases h

theorem toNat_of_isDecimal {c : Char} (h : isDecimal c = true) :
    48 ≤ c.toNat ∧ c.toNat ≤ 57 := by
  obtain ⟨d, hd⟩ := Option.isSome_iff_exists.1 h
  have := digitValue?_ten_eq_some hd
  exact ⟨this.1, this.2.1⟩

/-! ## Reading -/

theorem extend?_append (base start : Nat) (s t : List Char) :
    extend? base start (s ++ t) = (extend? base start s).bind (extend? base · t) := by
  induction s generalizing start with
  | nil => rfl
  | cons c s ih => cases h : digitValue? base c <;> simp [extend?, h, ih]

theorem extend?_singleton (base start : Nat) (c : Char) :
    extend? base start [c] = (digitValue? base c).map (start * base + ·) := by
  cases h : digitValue? base c <;> simp [extend?, h]

theorem ofDigits?_concat {base : Nat} (hb : base ≤ 16) {d : Nat} (hd : d < base)
    (s : List Char) :
    ofDigits? base (s ++ [digit d]) = (ofDigits? base s).map (· * base + d) := by
  rw [ofDigits?, extend?_append, ofDigits?]
  cases extend? base 0 s <;> simp [extend?_singleton, digitValue?_digit hb hd]

theorem ofDigits?_digits {base : Nat} (h2 : 2 ≤ base) (hb : base ≤ 16) (n : Nat) :
    ofDigits? base (digits base n) = some n := by
  fun_induction digits base n with
  | case1 n h ih =>
    rw [ofDigits?_concat hb (Nat.mod_lt _ (by omega)), ih]
    simp [Nat.div_add_mod']
  | case2 n h =>
    have hn : n < base := by omega
    simp [ofDigits?, extend?, digitValue?_digit hb hn]

theorem ofDigits?_fixed {base : Nat} (h2 : 2 ≤ base) (hb : base ≤ 16) (width n : Nat) :
    ofDigits? base (fixed base width n) = some (n % base ^ width) := by
  induction width generalizing n with
  | zero => simp [fixed, ofDigits?, extend?, Nat.mod_one]
  | succ width ih =>
    rw [fixed, ofDigits?_concat hb (Nat.mod_lt _ (by omega)), ih, Option.map_some, Nat.pow_succ',
      Nat.mod_mul, Nat.mul_comm, Nat.add_comm]

theorem extend?_zeros (base k : Nat) (hb : 1 ≤ base) (s : List Char) :
    extend? base 0 (List.replicate k '0' ++ s) = extend? base 0 s := by
  have h0 : digitValue? base '0' = some 0 := by
    have : ('0'.toNat - 48 : Nat) = 0 := by decide
    simp [digitValue?, Option.filter]
    omega
  induction k with
  | zero => rfl
  | succ k ih => simp [List.replicate_succ, extend?, h0, ih]

theorem ofDigits?_padded (width n : Nat) : ofDigits? 10 (padded width n) = some n := by
  rw [padded, ofDigits?, extend?_zeros 10 _ (by omega)]
  exact ofDigits?_digits (by omega) (by omega) n

/-! ## Shape -/

@[simp] theorem length_fixed (base width n : Nat) : (fixed base width n).length = width := by
  induction width generalizing n with
  | zero => rfl
  | succ width ih => simp [fixed, ih]

theorem isDecimal_of_mem_digits {n : Nat} {c : Char} (h : c ∈ digits 10 n) :
    isDecimal c = true := by
  fun_induction digits 10 n with
  | case1 n hn ih =>
    rcases List.mem_append.1 h with h | h
    · exact ih h
    · rw [List.mem_singleton.1 h]
      exact isDecimal_digit (Nat.mod_lt _ (by omega))
  | case2 n hn =>
    rw [List.mem_singleton.1 h]
    exact isDecimal_digit (by omega)

theorem isDecimal_of_mem_fixed {width n : Nat} {c : Char} (h : c ∈ fixed 10 width n) :
    isDecimal c = true := by
  induction width generalizing n with
  | zero => simp [fixed] at h
  | succ width ih =>
    rcases List.mem_append.1 h with h | h
    · exact ih h
    · rw [List.mem_singleton.1 h]
      exact isDecimal_digit (Nat.mod_lt _ (by omega))

theorem isDecimal_of_mem_padded {width n : Nat} {c : Char} (h : c ∈ padded width n) :
    isDecimal c = true := by
  rcases List.mem_append.1 h with h | h
  · rw [List.eq_of_mem_replicate h]
    decide
  · exact isDecimal_of_mem_digits h

theorem digits_ne_nil (base n : Nat) : digits base n ≠ [] := by
  rw [digits]
  split <;> simp

theorem fixed_zero (width : Nat) : fixed 10 width 0 = List.replicate width '0' := by
  induction width with
  | zero => rfl
  | succ width ih =>
    rw [fixed, Nat.zero_div, ih, List.replicate_succ']
    rfl

/-- A number that fits is filled up to the whole `width`. -/
theorem padded_eq_fixed {width n : Nat} (h : n < 10 ^ (width + 1)) :
    padded (width + 1) n = fixed 10 (width + 1) n := by
  induction width generalizing n with
  | zero =>
    rw [Nat.pow_one] at h
    rw [padded, digits, if_neg (by omega), fixed, fixed, Nat.mod_eq_of_lt h]
    rfl
  | succ width ih =>
    rw [padded, digits, fixed]
    split
    · rename_i hn
      have hrest : n / 10 < 10 ^ (width + 1) := Nat.div_lt_of_lt_mul (by rwa [Nat.pow_succ'] at h)
      rw [← ih hrest, padded, List.length_append, List.length_singleton, Nat.add_sub_add_right,
        List.append_assoc]
    · have hn : n < 10 := by omega
      rw [Nat.div_eq_of_lt hn, Nat.mod_eq_of_lt hn, fixed_zero]
      rfl

end Propagation.Numeral
