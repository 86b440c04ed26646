/-
DefinitionTree/Proofs/Xml/Scalar.lean

The values that texts of elements stand for.

A value of an element is always one that is written with the very same text.  A
text that does not read as a number stands for itself, the two words for truth
values aside; and a number is read as the number it was, unless it has too many
digits.

Main statements:

* `scalarText_of_literal`: the text of a value;
* `literal_of_not_numberLike`: texts that do not read as numbers;
* `literal_of_int`: integers;
* `textValue_of_isClean`: texts that elements give back.
-/
import DefinitionTree.Proofs.Xml.Element
import Mathlib.Data.List.TakeWhile

namespace DefinitionTree.Xml

open Text (isDecimal)

/-- A value is written with the text it was read from. -/
theorem scalarText_of_literal {s : String} {t : Tree} (h : literal s = .ok t) :
    t.scalarText = s := by
  unfold literal at h
  simp only at h
  split at h
  · rename_i word
    cases h
    exact word.symm
  split at h
  · rename_i _ word
    cases h
    exact word.symm
  split at h
  · split at h
    · cases h
    split at h
    · rename_i same
      cases h
      show Numeral.text (integerOf s.toList) = s
      rw [Numeral.text, same, String.ofList_toList]
    · cases h
      rfl
  · split at h
    · split at h
      · rename_i same
        cases h
        exact same
      · cases h
        rfl
    · cases h
      rfl

/-! ### Digits -/

theorem isDecimal_of_isDigit {c : Char} (h : Numeral.isDigit c = true) : isDecimal c = true :=
  @Numeral.forall_isDigit (isDecimal · = true) (by decide) c h

/-- Digits without anything else are a decimal. -/
theorem isUnsignedDecimal_of_digits {cs : List Char} (some_ : cs ≠ [])
    (all : cs.all isDecimal = true) : Text.isUnsignedDecimal cs = true := by
  have taken : cs.takeWhile isDecimal = cs := List.takeWhile_eq_self_iff.mpr (by simpa using all)
  have dropped : cs.dropWhile isDecimal = [] := List.dropWhile_eq_nil_iff.mpr (by simpa using all)
  rw [Text.isUnsignedDecimal]
  simp only [taken, dropped]
  simpa [Text.isExponent] using some_

/-- Digits with a point and more digits behind are a decimal. -/
theorem isUnsignedDecimal_of_fraction {xs ys : List Char} (some_ : xs ≠ [])
    (whole : xs.all isDecimal = true) (fraction : ys.all isDecimal = true) :
    Text.isUnsignedDecimal (xs ++ '.' :: ys) = true := by
  have point : isDecimal '.' = false := by decide
  have taken : (xs ++ '.' :: ys).takeWhile isDecimal = xs := by
    rw [List.takeWhile_append_of_pos (by simpa using whole), List.takeWhile_cons, point]
    simp
  have dropped : (xs ++ '.' :: ys).dropWhile isDecimal = '.' :: ys := by
    rw [List.dropWhile_append_of_pos (by simpa using whole), List.dropWhile_cons, point]
    simp
  have gone : ys.dropWhile isDecimal = [] := List.dropWhile_eq_nil_iff.mpr (by simpa using fraction)
  rw [Text.isUnsignedDecimal]
  simp only [taken, dropped, gone]
  simp [Text.isExponent, some_]

/-- An integer starts with a digit of the basic Latin range, and goes on with
digits. -/
theorem digits_of_isWhole {cs : List Char} (h : isWhole cs = true) :
    ∃ d ds, cs = d :: ds ∧ Numeral.isDigit d = true ∧ ds.all isDecimal = true := by
  unfold isWhole at h
  split at h
  · exact ⟨'0', [], rfl, by decide, rfl⟩
  · rename_i c cs _
    simp only [Bool.and_eq_true, decide_eq_true_eq] at h
    refine ⟨c, cs, rfl, ?_, h.2⟩
    simp only [Numeral.isDigit, Bool.and_eq_true, decide_eq_true_eq]
    exact ⟨Char.le_trans (by decide) h.1.1, h.1.2⟩
  · cases h

theorem all_isDecimal_of_isWhole {cs : List Char} (h : isWhole cs = true) :
    cs ≠ [] ∧ cs.all isDecimal = true := by
  obtain ⟨d, ds, rfl, digit, rest⟩ := digits_of_isWhole h
  exact ⟨by simp, by rw [List.all_cons, isDecimal_of_isDigit digit, rest]; rfl⟩

/-- A sign in front of a decimal is dropped either way. -/
theorem dropSign_of_digits {cs : List Char} {c : Char} (first : (dropMinus cs).head? = some c)
    (digit : isDecimal c = true) : Text.dropSign cs = dropMinus cs := by
  unfold Text.dropSign
  split
  · cases first
    exact absurd digit (by decide)
  · rfl
  · rename_i noPlus noMinus
    unfold dropMinus
    split
    · exact absurd rfl (noMinus _)
    · rfl

/-- Where no blank stands at the end no line ends. -/
theorem dropLineEnd_of_trim {cs : List Char} (h : Text.trim cs = cs) :
    Text.dropLineEnd cs = cs := by
  unfold Text.dropLineEnd
  split
  · rename_i last
    rw [← h] at last
    exact absurd (Text.getLast?_strip last) (by decide)
  · rfl

/-- A line break at the end is a blank there. -/
theorem trim_dropLineEnd (cs : List Char) : Text.trim (Text.dropLineEnd cs) = Text.trim cs := by
  unfold Text.dropLineEnd
  split
  · rename_i last
    obtain ⟨start, rfl⟩ := List.getLast?_eq_some_iff.mp last
    rw [List.dropLast_concat]
    exact (Text.strip_back (by decide) start).symm
  · rfl

/-- A sign does not bring a blank in. -/
theorem trim_of_dropMinus {cs : List Char} (h : ∀ c ∈ dropMinus cs, Text.isBlank c = false) :
    Text.trim cs = cs := by
  refine Text.strip_eq_self ?_
  unfold dropMinus at h
  split at h
  · exact List.forall_mem_cons.mpr ⟨by decide, h⟩
  · exact h

theorem isBlank_of_isDecimal {c : Char} (h : isDecimal c = true) : Text.isBlank c = false := by
  rw [← Bool.not_eq_true]
  intro blank
  have no : isDecimal c = false := @Text.forall_isBlank (isDecimal · = false) (by decide) c blank
  rw [h] at no
  cases no

theorem isNumberLike_of_isNumber {s : String}
    (h : Text.isUnsignedDecimal (Text.dropSign (Text.trim s.toList)) = true) :
    Text.isNumberLike s = true := by
  rw [Text.isNumberLike]
  simp only [Text.isNumber, h, Bool.true_or, Bool.or_true]

/-- Integers of whatever length read as numbers, also with a line break behind
them. -/
theorem isNumberLike_of_isWhole {s : String}
    (h : isWhole (dropMinus (Text.dropLineEnd s.toList)) = true) :
    Text.isNumberLike s = true := by
  obtain ⟨some_, all⟩ := all_isDecimal_of_isWhole h
  obtain ⟨c, cs, eq⟩ := List.exists_cons_of_ne_nil some_
  have digits := List.all_eq_true.mp all
  have trimmed : Text.trim s.toList = Text.dropLineEnd s.toList := by
    rw [← trim_dropLineEnd]
    exact trim_of_dropMinus fun c mem => isBlank_of_isDecimal (digits c mem)
  refine isNumberLike_of_isNumber ?_
  rw [trimmed, dropSign_of_digits (by rw [eq]; rfl)
    (digits c (by rw [eq]; exact List.mem_cons_self))]
  exact isUnsignedDecimal_of_digits some_ all

/-- Decimal fractions read as numbers. -/
theorem isNumberLike_of_fraction {s : String} {x : Binary64} (h : fraction? s.toList = some x) :
    Text.isNumberLike s = true := by
  obtain ⟨⟨whole, fraction⟩, parts, -⟩ := Option.map_eq_some_iff.mp h
  unfold fractionParts? at parts
  simp only at parts
  split at parts
  · rename_i digits point
    split at parts
    · rename_i shape
      simp only [Bool.and_eq_true] at shape
      obtain ⟨⟨⟨whole_, -⟩, fraction_⟩, -⟩ := shape
      obtain ⟨some_, all⟩ := all_isDecimal_of_isWhole whole_
      -- the text is digits, a point, and digits, after a minus sign perhaps
      have body : dropMinus s.toList
          = (dropMinus s.toList).takeWhile Numeral.isDigit ++ '.' :: digits := by
        rw [← point, List.takeWhile_append_dropWhile]
      obtain ⟨c, cs, eq⟩ := List.exists_cons_of_ne_nil some_
      have digit : isDecimal c = true :=
        List.all_eq_true.mp all c (by rw [eq]; exact List.mem_cons_self)
      have first : (dropMinus s.toList).head? = some c := by
        rw [body, eq]
        rfl
      have decimals : ∀ d ∈ digits, isDecimal d = true :=
        fun d mem => isDecimal_of_isDigit (List.all_eq_true.mp fraction_ d mem)
      have trimmed : Text.trim s.toList = s.toList := by
        refine trim_of_dropMinus fun d mem => ?_
        rw [body, List.mem_append, List.mem_cons] at mem
        rcases mem with mem | rfl | mem
        · exact isBlank_of_isDecimal (List.all_eq_true.mp all d mem)
        · decide
        · exact isBlank_of_isDecimal (decimals d mem)
      refine isNumberLike_of_isNumber ?_
      rw [trimmed, dropSign_of_digits first digit, body]
      exact isUnsignedDecimal_of_fraction some_ all (List.all_eq_true.mpr decimals)
    · cases parts
  · cases parts

/-- A text that does not read as a number stands for itself, unless it is a word
for a truth value. -/
theorem literal_of_not_numberLike {s : String} (h : Text.isNumberLike s = false) :
    literal s = .ok (if s = "true" then .bool true else if s = "false" then .bool false else .text s) := by
  unfold literal
  simp only
  split
  · rfl
  split
  · rfl
  split
  · rename_i whole
    rw [isNumberLike_of_isWhole whole] at h
    cases h
  · split
    · rename_i x fraction
      rw [isNumberLike_of_fraction fraction] at h
      cases h
    · rfl

/-! ### Integers -/

/-- The digits of a number other than zero do not start with zero. -/
theorem digits_of_pos {n : Nat} (pos : 0 < n) : ∃ c cs, Numeral.digits n = c :: cs ∧
    ('1' ≤ c ∧ c ≤ '9') ∧ cs.all Numeral.isDigit = true := by
  have leading : ∀ d < 10, 0 < d → '1' ≤ Numeral.digit d ∧ Numeral.digit d ≤ '9' := by decide
  have any : ∀ d < 10, Numeral.isDigit (Numeral.digit d) = true := by decide
  fun_induction Numeral.digits n with
  | case1 n small => exact ⟨_, [], rfl, leading n small pos, rfl⟩
  | case2 n _ ih =>
    obtain ⟨c, cs, eq, first, rest⟩ := ih (by omega)
    refine ⟨c, cs ++ [Numeral.digit (n % 10)], by rw [eq]; rfl, first, ?_⟩
    rw [List.all_append, rest, List.all_cons, any (n % 10) (by omega)]
    rfl

theorem isWhole_of_first {c : Char} {cs : List Char} (first : '1' ≤ c ∧ c ≤ '9')
    (rest : cs.all Numeral.isDigit = true) : isWhole (c :: cs) = true := by
  have decimal : cs.all isDecimal = true := by
    rw [List.all_eq_true] at rest ⊢
    exact fun d mem => isDecimal_of_isDigit (rest d mem)
  unfold isWhole
  split
  · rfl
  · rename_i d ds _ eq
    cases eq
    simp [first, decimal]
  · rename_i eq
    cases eq

theorem isWhole_digits (n : Nat) : isWhole (Numeral.digits n) = true
    ∧ (Numeral.digits n).all Numeral.isDigit = true := by
  rcases Nat.eq_zero_or_pos n with rfl | pos
  · decide +kernel
  · obtain ⟨c, cs, eq, first, rest⟩ := digits_of_pos pos
    rw [eq]
    refine ⟨isWhole_of_first first rest, ?_⟩
    rw [List.all_cons, rest, Bool.and_true, Numeral.isDigit]
    simp only [Bool.and_eq_true, decide_eq_true_eq]
    exact ⟨Char.le_trans (by decide) first.1, first.2⟩

theorem dropMinus_digits (n : Nat) : dropMinus (Numeral.digits n) = Numeral.digits n := by
  rw [dropMinus]
  intro ds eq
  have digit := List.all_eq_true.mp (isWhole_digits n).2 '-' (by rw [eq]; exact List.mem_cons_self)
  exact absurd digit (by decide)

/-- Without its sign an integer is the digits of its absolute value. -/
theorem dropMinus_ofInt (i : Int) : dropMinus (Numeral.ofInt i) = Numeral.digits i.natAbs := by
  cases i with
  | ofNat n => exact dropMinus_digits n
  | negSucc n => rfl

theorem ofInt_facts (i : Int) : isWhole (dropMinus (Numeral.ofInt i)) = true
    ∧ integerOf (Numeral.ofInt i) = i
    ∧ ∀ c ∈ Numeral.ofInt i, c = '-' ∨ Numeral.isDigit c = true := by
  have digit (n : Nat) (c : Char) (mem : c ∈ Numeral.digits n) : Numeral.isDigit c = true :=
    List.all_eq_true.mp (isWhole_digits n).2 c mem
  refine ⟨by rw [dropMinus_ofInt]; exact (isWhole_digits _).1, ?_⟩
  cases i with
  | ofNat n =>
    refine ⟨?_, fun c mem => .inr (digit n c mem)⟩
    rw [Numeral.ofInt, integerOf]
    · rw [Numeral.value_digits]
      rfl
    · intro ds eq
      exact absurd (digit n '-' (by rw [eq]; exact List.mem_cons_self)) (by decide)
  | negSucc n =>
    refine ⟨?_, List.forall_mem_cons.mpr ⟨.inl rfl, fun c mem => .inr (digit _ c mem)⟩⟩
    rw [Numeral.ofInt, integerOf, Numeral.value_digits]
    rfl

/-- An integer can be written just if it has no more digits than are read. -/
theorem isWritable_int_iff {i : Int} : (Tree.int i).isWritable = true ↔
    (dropMinus (Numeral.ofInt i)).length ≤ Numeral.digitLimit := by
  rw [dropMinus_ofInt]
  exact decide_eq_true_iff

theorem dropLineEnd_ofInt (i : Int) :
    Text.dropLineEnd (Numeral.ofInt i) = Numeral.ofInt i := by
  have noBreak : '\n' ∉ Numeral.ofInt i := fun mem =>
    absurd ((ofInt_facts i).2.2 _ mem) (by decide)
  rw [Text.dropLineEnd, if_neg fun last => noBreak (List.mem_of_getLast? last)]

/-- An integer with few digits is read as the number it is. -/
theorem literal_of_int {i : Int}
    (short : (dropMinus (Numeral.ofInt i)).length ≤ Numeral.digitLimit) :
    literal (Numeral.text i) = .ok (.int i) := by
  obtain ⟨whole, value, -⟩ := ofInt_facts i
  have chars : (Numeral.text i).toList = Numeral.ofInt i := String.toList_ofList
  have noWord (s : String) (h : isWhole (dropMinus s.toList) = false) : Numeral.text i ≠ s := by
    rintro rfl
    rw [chars, whole] at h
    cases h
  unfold literal
  simp only [chars, dropLineEnd_ofInt, whole, value, if_true, if_neg (noWord "true" (by decide)),
    if_neg (noWord "false" (by decide)), if_neg (Nat.not_lt.mpr short)]

/-- Whatever a text spells can be written. -/
theorem isWritable_of_literal {s : String} {t : Tree} (h : literal s = .ok t) :
    t.isWritable = true := by
  unfold literal at h
  simp only at h
  split at h
  · cases h
    rfl
  split at h
  · cases h
    rfl
  split at h
  · split at h
    · cases h
    rename_i short
    split at h
    · rename_i same
      cases h
      rw [← same, dropLineEnd_ofInt] at short
      exact isWritable_int_iff.mpr (Nat.not_lt.mp short)
    · cases h
      rfl
  · split at h
    · split at h <;> cases h <;> rfl
    · cases h
      rfl

/-! ### Texts that elements give back -/

/-- An element gives the text back: it holds characters of markup, no carriage
return, and no blanks at its ends. -/
def isClean (s : String) : Bool :=
  s.toList.all isXmlChar && !s.toList.contains '\r' && Text.trim s.toList == s.toList

theorem isClean_iff {s : String} : isClean s = true ↔
    s.toList.all isXmlChar = true ∧ '\r' ∉ s.toList ∧ Text.trim s.toList = s.toList := by
  simp [isClean, and_assoc]

/-- A text without blanks is given back, if it holds characters of markup. -/
theorem isClean_of_noBlank {s : String}
    (h : ∀ c ∈ s.toList, isXmlChar c = true ∧ Text.isBlank c = false) : isClean s = true := by
  refine isClean_iff.mpr ⟨List.all_eq_true.mpr fun c mem => (h c mem).1, fun mem => ?_,
    Text.strip_eq_self fun c mem => (h c mem).2⟩
  exact absurd (h _ mem).2 (by decide)

theorem heldText_of_isClean {s : String} (h : isClean s = true) : heldText s = s.toList := by
  obtain ⟨-, noReturn, trimmed⟩ := isClean_iff.mp h
  rw [heldText, unifyLineBreaks_eq_self noReturn, trimmed]

/-- The text of an integer is given back by an element. -/
theorem isClean_text (i : Int) : isClean (Numeral.text i) = true := by
  have marks : isXmlChar '-' = true ∧ Text.isBlank '-' = false := by decide
  refine isClean_of_noBlank fun c mem => ?_
  rw [Numeral.text, String.toList_ofList] at mem
  rcases (ofInt_facts i).2.2 c mem with rfl | digit
  · exact marks
  · exact @Numeral.forall_isDigit
      (fun c => isXmlChar c = true ∧ Text.isBlank c = false) (by decide) c digit

/-- A text that an element gives back is read there as the scalar that it spells. -/
theorem textValue_of_isClean {s : String} (h : isClean s = true) (some_ : s ≠ "") :
    textValue s = literal s := by
  rw [textValue, heldText_of_isClean h]
  split
  · rename_i none
    exact absurd (String.toList_eq_nil_iff.mp none) some_
  · rw [String.ofList_toList]

/-! ### Names as texts -/

theorem isClean_of_isName {s : String} (named : isName s.toList = true) : isClean s = true := by
  obtain ⟨all, -⟩ := chars_of_isName named
  refine isClean_of_noBlank fun c mem => ⟨isXmlChar_of_isNameChar (all c mem), ?_⟩
  rw [← Bool.not_eq_true]
  intro blank
  have no := isNameChar_of_isBlank blank
  rw [all c mem] at no
  cases no

/-- No name is a number, so none is one that is too long. -/
theorem isOverlong_of_isName {s : String} (named : isName s.toList = true) :
    isOverlong s.toList = false := by
  obtain ⟨-, -, trimmed⟩ := isClean_iff.mp (isClean_of_isName named)
  rcases chars : s.toList with - | ⟨c, cs⟩
  · rfl
  have start := (chars_of_isName named).2 c (by rw [chars]; rfl)
  rw [isOverlong, ← chars, dropLineEnd_of_trim trimmed, chars]
  have noMinus : c ≠ '-' := by
    rintro rfl
    exact absurd start (by decide +kernel)
  have noDigit : isWhole (c :: cs) = false := by
    rw [← Bool.not_eq_true]
    intro whole
    obtain ⟨d, ds, eq, digit, -⟩ := digits_of_isWhole whole
    cases eq
    have no : isNameStart c = false :=
      @Numeral.forall_isDigit (isNameStart · = false) (by decide +kernel) c digit
    rw [start] at no
    cases no
  have body : dropMinus (c :: cs) = c :: cs := by
    rw [dropMinus]
    rintro ds eq
    exact noMinus (List.cons.inj eq).1
  rw [body, noDigit]
  rfl

end DefinitionTree.Xml
