/-
DefinitionTree/Proofs/Xml/Protection.lean

What the reader makes of texts that were written with their sentinels.

A text that reads as a number is written as a sentinel.  Every other text is
written as it is, and is read as a value that it spells.  Whatever spells a
number reads as one, so no text becomes a number; but the words for the truth
values read as no number, and nothing marks them.

Main statements:

* `isOverlong_of_few`: few digits make no integer that is too long;
* `literal_of_wrap`: texts as they are written, and as they are read.
-/
import DefinitionTree.Proofs.Xml.Legible
import DefinitionTree.Proofs.Xml.Scalar

namespace DefinitionTree.Xml

open Text (isDecimal)
open Wire (Sentinel)

variable {s : String}

/-! ### Few digits -/

theorem dropMinus_sublist (cs : List Char) : (dropMinus cs).Sublist cs := by
  unfold dropMinus
  split
  · exact List.sublist_cons_self ..
  · exact .refl _

theorem dropLineEnd_sublist (cs : List Char) : (Text.dropLineEnd cs).Sublist cs := by
  unfold Text.dropLineEnd
  split
  · exact List.dropLast_sublist _
  · exact .refl _

/-- The digits of an integer are digits of the text. -/
theorem isOverlong_of_few {cs : List Char} (few : cs.countP isDecimal ≤ Numeral.digitLimit) :
    isOverlong cs = false := by
  have part : (dropMinus (Text.dropLineEnd cs)).Sublist cs :=
    (dropMinus_sublist _).trans (dropLineEnd_sublist cs)
  -- of the text nothing more is needed than that it has these characters
  unfold isOverlong
  generalize dropMinus (Text.dropLineEnd cs) = body at part
  by_cases whole : isWhole body = true
  · have digits : body.countP isDecimal = body.length :=
      List.countP_eq_length.mpr (List.all_eq_true.mp (all_isDecimal_of_isWhole whole).2)
    have short : body.length ≤ Numeral.digitLimit := by
      rw [← digits]
      exact Nat.le_trans part.countP_le few
    simpa using fun _ => short
  · simp [whole]

/-! ### Texts in their sentinels -/

theorem wrap_numberLike (h : Text.isNumberLike s = true) :
    Wire.wrap (.text s) = .map [Sentinel.string.mark, (Wire.textKey, .text s)] := by
  rw [Wire.wrap, if_pos h]

theorem wrap_not_numberLike (h : Text.isNumberLike s = false) :
    Wire.wrap (.text s) = .text s := by
  rw [Wire.wrap, if_neg (by rw [h]; decide)]

/-- A string sentinel stands for the text of what it holds. -/
theorem decode_string (t : Tree) :
    Wire.decode (.map [Sentinel.string.mark, (Wire.textKey, t)]) = .text <$> t.toText := rfl

/-- A text is written as it is, or as a string sentinel.  As it is it comes back,
if it is no word for a truth value, and as that truth value if it is one.  From a
string sentinel it comes back whatever value the reader makes of it. -/
theorem literal_of_wrap (few : s.toList.countP isDecimal ≤ Numeral.digitLimit) :
    (Wire.wrap (.text s) = .text s ∨ Wire.sentinel? (Wire.wrap (.text s)) = some .string) ∧
    (Wire.wrap (.text s) = .text s →
      literal s = .ok (if s = "true" then .bool true else if s = "false" then .bool false
        else .text s)) ∧
    (Wire.sentinel? (Wire.wrap (.text s)) = some .string →
      Wire.wrap (.text s) = .map [Sentinel.string.mark, (Wire.textKey, .text s)] ∧
      ∃ t, literal s = .ok t ∧
        Wire.decode (.map [Sentinel.string.mark, (Wire.textKey, t)]) = .ok (.text s)) := by
  obtain ⟨t, read⟩ := (exists_literal_iff s).mpr (isOverlong_of_few few)
  have back : Wire.decode (.map [Sentinel.string.mark, (Wire.textKey, t)]) = .ok (.text s) := by
    rw [decode_string, Tree.toText_eq_ok (isWritable_of_literal read), scalarText_of_literal read]
    rfl
  rcases number : Text.isNumberLike s with - | -
  · -- whatever spells a number reads as one, so this text spells none
    rw [wrap_not_numberLike number]
    exact ⟨.inl rfl, fun _ => literal_of_not_numberLike number, nofun⟩
  · rw [wrap_numberLike number]
    exact ⟨.inr rfl, nofun, fun _ => ⟨rfl, t, read, back⟩⟩

/-- A word comes back as it is, and a numeral from its sentinel. -/
theorem literal_of_wrap_samples :
    literal "display" = .ok (.text "display") ∧
    ∃ t, literal "12" = .ok t ∧
      Wire.decode (.map [Sentinel.string.mark, (Wire.textKey, t)]) = .ok (.text "12") :=
  ⟨(@literal_of_wrap "display" (by decide)).2.1 (wrap_not_numberLike (by decide)),
    ((@literal_of_wrap "12" (by decide)).2.2 (by decide)).2⟩

/-- The word `true` is written as it is, and comes back as a truth value. -/
theorem literal_true :
    "true".toList.countP isDecimal ≤ Numeral.digitLimit ∧
      Wire.wrap (.text "true") = .text "true" ∧ literal "true" = .ok (.bool true) ∧
      literal "true" ≠ .ok (.text "true") := by
  have read : literal "true" = .ok (.bool true) := rfl
  refine ⟨by decide, wrap_not_numberLike (by decide), read, ?_⟩
  rw [read]
  nofun

end DefinitionTree.Xml
