/-
DefinitionTree/Number/Numeral.lean

Decimal numerals: the digits of a natural number, the text of an integer,
and the number that a list of digits denotes.

The two directions are separate definitions, and `value_digits` says that
reading undoes writing.
-/

namespace DefinitionTree.Numeral

/-! ### Writing -/

/-- The character of a digit below ten. -/
def digit (d : Nat) : Char := Char.ofNat (48 + d)

/-- The decimal digits of a number, the most significant first. -/
def digits (n : Nat) : List Char :=
  if n < 10 then [digit n] else digits (n / 10) ++ [digit (n % 10)]
termination_by n
decreasing_by omega

/-- An integer in decimal, with a minus sign if it is negative. -/
def ofInt : Int → List Char
  | .ofNat n => digits n
  | .negSucc n => '-' :: digits (n + 1)

/-- The digits of an integer in a text, however many there are. -/
def text (i : Int) : String := String.ofList (ofInt i)

/-- The number of digits that an integer may have where one is written or read. -/
def digitLimit : Nat := 4300

/-- The integer can be written: it has no more digits than are allowed. -/
def isWritable (i : Int) : Bool := (digits i.natAbs).length ≤ digitLimit

/-! ### Reading -/

/-- The decimal digits of the basic Latin range. -/
def isDigit (c : Char) : Bool := '0' ≤ c && c ≤ '9'

/-- The number a list of decimal digits denotes. -/
def value (ds : List Char) : Nat :=
  ds.foldl (fun n c => 10 * n + (c.toNat - 48)) 0

/-! ### How many digits there are -/

theorem digits_ne_nil (n : Nat) : digits n ≠ [] := by
  rw [digits]
  split <;> simp

/-- A number has no more digits than this just if it is below that power of ten. -/
theorem length_digits_le_iff {n k : Nat} :
    (digits n).length ≤ k + 1 ↔ n < Nat.pow 10 (k + 1) := by
  fun_induction digits n generalizing k with
  | case1 n h =>
    have pos : 0 < Nat.pow 10 k := Nat.pow_pos (by decide)
    have step : Nat.pow 10 (k + 1) = Nat.pow 10 k * 10 := rfl
    exact iff_of_true (by simp) (by omega)
  | case2 n h ih =>
    rw [List.length_append, List.length_singleton, Nat.add_le_add_iff_right]
    cases k with
    | zero =>
      have one : Nat.pow 10 (0 + 1) = 10 := rfl
      have pos := List.length_pos_iff.mpr (digits_ne_nil (n / 10))
      omega
    | succ k =>
      have step : Nat.pow 10 (k + 1 + 1) = Nat.pow 10 (k + 1) * 10 := rfl
      rw [ih]
      omega

/-- The integers that can be written lie between two powers of ten. -/
theorem isWritable_iff {i : Int} : isWritable i = true ↔ i.natAbs < Nat.pow 10 digitLimit := by
  obtain ⟨k, limit⟩ : ∃ k, digitLimit = k + 1 := ⟨4299, rfl⟩
  rw [isWritable, decide_eq_true_eq, limit]
  exact length_digits_le_iff

theorem isWritable_of_le {n : Nat} (long : Nat.pow 10 digitLimit ≤ n) :
    isWritable (.ofNat n) = false := by
  rw [← Bool.not_eq_true, isWritable_iff]
  exact Nat.not_lt.mpr long

/-! ### Reading undoes writing -/

theorem toNat_digit {d : Nat} (h : d < 10) : (digit d).toNat = 48 + d := by
  have all : ∀ d < 10, (digit d).toNat = 48 + d := by decide
  exact all d h

/-- What holds of the ten digits holds of every digit. -/
theorem forall_isDigit {P : Char → Prop} (each : ∀ d < 10, P (digit d)) {c : Char}
    (h : isDigit c = true) : P c := by
  simp only [isDigit, Bool.and_eq_true, decide_eq_true_eq] at h
  have low : 48 ≤ c.toNat := h.1
  have high : c.toNat ≤ 57 := h.2
  have here := each (c.toNat - 48) (by omega)
  rwa [digit, Nat.add_sub_cancel' low, Char.ofNat_toNat] at here

theorem value_append (xs : List Char) (c : Char) :
    value (xs ++ [c]) = 10 * value xs + (c.toNat - 48) := by
  simp [value]

theorem value_digits (n : Nat) : value (digits n) = n := by
  fun_induction digits n with
  | case1 n h => simp [value, toNat_digit h]
  | case2 n h ih => rw [value_append, ih, toNat_digit (by omega)]; omega

end DefinitionTree.Numeral
