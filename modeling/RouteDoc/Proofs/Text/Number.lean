/-
  The numbers that texts are read as.

  1. **Digits** — `IsDigits`, `decimal`: the digits of a number, and their value in base ten. Digits are
     read from the left, one after the other; their value is a sum of powers, and the two agree
     (`digitsValue?_eq_some_iff`).
  2. **Signs** — `Writes`: how a whole number can be written. A text is read as a number if it writes that
     number and the number fits into 64 bits, and as none otherwise (`int64?_eq_some_iff`).
-/
import Mathlib.Data.Nat.Digits.Defs
import RouteDoc.Text.Basic

namespace RouteDoc.Text

/-! ## Digits -/

/-- Decimal digits, at least one. -/
def IsDigits (cs : List Char) : Prop :=
  cs ≠ [] ∧ ∀ c ∈ cs, c.isDigit = true

instance (cs : List Char) : Decidable (IsDigits cs) :=
  decidable_of_iff (cs ≠ [] ∧ cs.all Char.isDigit = true) (by simp [IsDigits])

/-- The value of decimal digits, the last of which counts once. -/
def decimal (cs : List Char) : Nat :=
  Nat.ofDigits 10 (cs.map fun c => c.toNat - '0'.toNat).reverse

theorem decimal_eq_foldl (cs : List Char) :
    decimal cs = cs.foldl (fun n c => 10 * n + (c.toNat - '0'.toNat)) 0 := by
  rw [decimal, Nat.ofDigits_eq_foldr, List.foldr_reverse, List.foldl_map]
  simp only [Nat.cast_id, Nat.add_comm]

theorem digitsValue?_eq_some_iff {cs : List Char} {n : Nat} :
    digitsValue? cs = some n ↔ IsDigits cs ∧ n = decimal cs := by
  rw [digitsValue?, ← decimal_eq_foldl]
  by_cases h : IsDigits cs
  · have hread : (cs.isEmpty || !cs.all Char.isDigit) = false := by
      simpa [IsDigits] using h
    simp [hread, h, eq_comm]
  · have hother : (cs.isEmpty || !cs.all Char.isDigit) = true := by
      by_contra hnone
      rw [Bool.not_eq_true] at hnone
      exact h (by simpa [IsDigits] using hnone)
    simp [hother, h]

/-! ## Signs -/

/-- A text that writes a whole number: digits, perhaps behind a sign. -/
inductive Writes : List Char → Int → Prop where
  | plain {cs : List Char} (h : IsDigits cs) : Writes cs (decimal cs)
  | plus {cs : List Char} (h : IsDigits cs) : Writes ('+' :: cs) (decimal cs)
  | minus {cs : List Char} (h : IsDigits cs) : Writes ('-' :: cs) (-(decimal cs : Int))

/-- A text that writes a whole number of 64 bits. -/
def WritesInt64 (cs : List Char) (n : Int) : Prop :=
  Writes cs n ∧ -2 ^ 63 ≤ n ∧ n < 2 ^ 63

theorem not_isDigits_cons {c : Char} (hc : c.isDigit = false) (cs : List Char) :
    ¬ IsDigits (c :: cs) := by
  intro h
  have hdigit := h.2 c List.mem_cons_self
  rw [hc] at hdigit
  exact Bool.noConfusion hdigit

theorem writes_minus_iff {cs : List Char} {n : Int} :
    Writes ('-' :: cs) n ↔ IsDigits cs ∧ n = -(decimal cs : Int) := by
  constructor
  · intro h
    cases h with
    | plain h => exact absurd h (not_isDigits_cons rfl cs)
    | minus h => exact ⟨h, rfl⟩
  · rintro ⟨h, rfl⟩
    exact .minus h

theorem writes_plus_iff {cs : List Char} {n : Int} : Writes ('+' :: cs) n ↔ IsDigits cs
    ∧ n = decimal cs := by
  constructor
  · intro h
    cases h with
    | plain h => exact absurd h (not_isDigits_cons rfl cs)
    | plus h => exact ⟨h, rfl⟩
  · rintro ⟨h, rfl⟩
    exact .plus h

theorem writes_unsigned_iff {cs : List Char} {n : Int} (hminus : ∀ ds, cs = '-' :: ds → False)
    (hplus : ∀ ds, cs = '+' :: ds → False) : Writes cs n ↔ IsDigits cs ∧ n = decimal cs := by
  constructor
  · intro h
    cases h with
    | plain h => exact ⟨h, rfl⟩
    | plus h => exact (hplus _ rfl).elim
    | minus h => exact (hminus _ rfl).elim
  · rintro ⟨h, rfl⟩
    exact .plain h

/-- The value of digits as an integer, if it is within a bound. -/
theorem digitsWithin_eq_some_iff {cs : List Char} {p : Nat → Bool} {n : Int} :
    (do let value ← (digitsValue? cs).filter p; pure (value : Int)) = some n
      ↔ IsDigits cs ∧ p (decimal cs) = true ∧ n = decimal cs := by
  simp only [Option.bind_eq_bind, Option.bind_eq_some_iff, Option.filter_eq_some_iff,
    digitsValue?_eq_some_iff, Option.pure_def, Option.some.injEq]
  constructor
  · rintro ⟨value, ⟨⟨hdigits, rfl⟩, hp⟩, rfl⟩
    exact ⟨hdigits, hp, rfl⟩
  · rintro ⟨hdigits, hp, rfl⟩
    exact ⟨decimal cs, ⟨⟨hdigits, rfl⟩, hp⟩, rfl⟩

/-- **A text is read as a number** if it writes that number, and the number fits into 64 bits. -/
theorem int64?_eq_some_iff {s : String} {n : Int} : int64? s = some n ↔ WritesInt64 s.toList n := by
  have hpow : Nat.pow 2 63 = 9223372036854775808 := rfl
  rw [int64?, WritesInt64]
  split
  · next cs hs =>
    simp only [hs, writes_minus_iff, Option.map_eq_some_iff, digitsWithin_eq_some_iff,
      decide_eq_true_eq, hpow]
    grind
  · next cs hs =>
    simp only [hs, writes_plus_iff, Option.map_eq_some_iff, digitsWithin_eq_some_iff,
      decide_eq_true_eq, hpow]
    grind
  · next hminus hplus =>
    simp only [writes_unsigned_iff hminus hplus, Option.map_eq_some_iff, digitsWithin_eq_some_iff,
      decide_eq_true_eq, hpow]
    grind

theorem WritesInt64.unique {cs : List Char} {n m : Int} (hn : WritesInt64 cs n)
    (hm : WritesInt64 cs m) : n = m := by
  rw [← String.toList_ofList (l := cs), ← int64?_eq_some_iff] at hn hm
  exact Option.some.inj (hn.symm.trans hm)

end RouteDoc.Text
