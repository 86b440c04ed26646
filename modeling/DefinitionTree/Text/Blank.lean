/-
DefinitionTree/Text/Blank.lean

White space, blank characters, and stripping a text of them.

White space is that of every script.  Blank is the wider notion: white space,
and the four information separators U+001C to U+001F as well.  It is what
element text is trimmed of, and what may surround a number in a definition.
The zero width space and the byte order mark are neither.

What `strip` drops are characters of the class, what it leaves does not end with one
(`strip_append`, `getLast?_strip`), and characters of the class around a text make no
difference to it (`strip_front`, `strip_back`).
-/
import DefinitionTree.Text.Basic

namespace DefinitionTree.Text

/-! ### White space and blank characters -/

/-- White space, as ranges of code points. -/
def whiteRanges : List (Nat × Nat) := [
  (0x09, 0x0D), (0x20, 0x20), (0x85, 0x85), (0xA0, 0xA0), (0x1680, 0x1680),
  (0x2000, 0x200A), (0x2028, 0x2029), (0x202F, 0x202F), (0x205F, 0x205F),
  (0x3000, 0x3000)]

/-- White space of any script. -/
def isWhite (c : Char) : Bool := inRanges whiteRanges c

/-- The information separators. -/
def isSeparator (c : Char) : Bool := inRanges [(0x1C, 0x1F)] c

/-- White space of any script, and the information separators. -/
def isBlank (c : Char) : Bool := isWhite c || isSeparator c

/-- What holds of the code points in the ranges holds of every blank. -/
theorem forall_isBlank {P : Char → Prop}
    (ranges : ∀ r ∈ whiteRanges ++ [(0x1C, 0x1F)], ∀ n ∈ List.range' r.1 (r.2 - r.1 + 1),
      P (Char.ofNat n)) {c : Char} (h : isBlank c = true) : P c := by
  have within : ∃ r ∈ whiteRanges ++ [(0x1C, 0x1F)], r.1 ≤ c.toNat ∧ c.toNat ≤ r.2 := by
    unfold isBlank isWhite isSeparator inRanges at h
    rw [← List.any_append] at h
    simpa using h
  obtain ⟨r, hr, low, high⟩ := within
  have here := ranges r hr c.toNat (List.mem_range'_1.mpr ⟨low, by omega⟩)
  rwa [Char.ofNat_toNat] at here

/-! ### Stripping -/

/-- Drops the characters of a class at the start. -/
def stripStart (p : Char → Bool) (cs : List Char) : List Char := cs.dropWhile p

/-- Drops the characters of a class at the end. -/
def stripEnd (p : Char → Bool) (cs : List Char) : List Char := (stripStart p cs.reverse).reverse

/-- Drops the characters of a class at both ends. -/
def strip (p : Char → Bool) (cs : List Char) : List Char := stripEnd p (stripStart p cs)

/-- Drops the blanks at the end. -/
abbrev trimEnd (cs : List Char) : List Char := stripEnd isBlank cs

/-- Drops the blanks at both ends. -/
abbrev trim (cs : List Char) : List Char := strip isBlank cs

/-! ### What stripping drops and what it leaves -/

variable {p : Char → Bool}

theorem head?_stripStart {cs : List Char} {c : Char} (h : (stripStart p cs).head? = some c) :
    p c = false := by
  have := List.head?_dropWhile_not p cs
  unfold stripStart at h
  simpa [h] using this

theorem stripStart_append (p : Char → Bool) (cs : List Char) :
    ∃ front, front.all p = true ∧ front ++ stripStart p cs = cs :=
  ⟨cs.takeWhile p, List.all_takeWhile, List.takeWhile_append_dropWhile⟩

theorem stripEnd_append (p : Char → Bool) (cs : List Char) :
    ∃ back, back.all p = true ∧ stripEnd p cs ++ back = cs := by
  obtain ⟨front, blank, eq⟩ := stripStart_append p cs.reverse
  refine ⟨front.reverse, by simpa using blank, ?_⟩
  rw [stripEnd, ← List.reverse_append, eq, List.reverse_reverse]

/-- Nothing but characters of the class is dropped. -/
theorem strip_append (p : Char → Bool) (cs : List Char) :
    ∃ front back, front.all p = true ∧ back.all p = true ∧
      front ++ strip p cs ++ back = cs := by
  obtain ⟨front, hf, ef⟩ := stripStart_append p cs
  obtain ⟨back, hb, eb⟩ := stripEnd_append p (stripStart p cs)
  exact ⟨front, back, hf, hb, by rw [List.append_assoc, strip, eb, ef]⟩

/-- A stripped text does not end with a character of the class. -/
theorem getLast?_strip {cs : List Char} {c : Char} (h : (strip p cs).getLast? = some c) :
    p c = false := by
  rw [strip, stripEnd, List.getLast?_reverse] at h
  exact head?_stripStart h

theorem stripStart_eq_self {cs : List Char} (h : ∀ c ∈ cs, p c = false) :
    stripStart p cs = cs := by
  cases cs with
  | nil => rfl
  | cons c cs =>
    rw [stripStart, List.dropWhile_cons, h c List.mem_cons_self]
    rfl

/-- Where no character is of the class nothing is dropped. -/
theorem strip_eq_self {cs : List Char} (h : ∀ c ∈ cs, p c = false) : strip p cs = cs := by
  rw [strip, stripStart_eq_self h, stripEnd,
    stripStart_eq_self fun c mem => h c (List.mem_reverse.mp mem), List.reverse_reverse]

/-- Characters of the class in front make no difference. -/
theorem strip_front {front : List Char} (h : front.all p = true) (cs : List Char) :
    strip p (front ++ cs) = strip p cs := by
  rw [strip, strip, stripStart, stripStart,
    List.dropWhile_append_of_pos (by simpa using h)]

/-- Characters of the class behind make no difference. -/
theorem strip_back {back : List Char} (h : back.all p = true) (cs : List Char) :
    strip p (cs ++ back) = strip p cs := by
  have ends (xs : List Char) : stripEnd p (xs ++ back) = stripEnd p xs := by
    rw [stripEnd, stripEnd, List.reverse_append, stripStart, stripStart,
      List.dropWhile_append_of_pos (by simpa using h)]
  rw [strip, strip, stripStart, stripStart, List.dropWhile_append]
  split
  · rename_i none
    have gone : (back ++ []).dropWhile p = [].dropWhile p :=
      List.dropWhile_append_of_pos (by simpa using h)
    rw [List.append_nil] at gone
    rw [List.isEmpty_iff.mp none, gone]
    rfl
  · exact ends _

end DefinitionTree.Text
