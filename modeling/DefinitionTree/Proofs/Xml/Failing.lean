/-
DefinitionTree/Proofs/Xml/Failing.lean

How reading elements fails.

Almost every step of reading fails in one way only: the text is not well-formed.
The one other failure is that of an integer with too many digits.  It comes at the
closing bracket of an end tag, when the text of an element is taken as a value, and
so it comes where a run has got that far and no further.

Main definitions:

* `OnlyMalformed`: outcomes that are no other failure;
* `Reading.EndsOverlong`: the steps that meet the other one;
* `Reading.MeetsOverlong`: the texts in which such a step is reached.

Main statements:

* `literal_eq_error_iff`: texts that stand for no value;
* `Reading.cases_of_step_eq_error`, `Reading.step_of_endsOverlong`: one step;
* `Reading.steps_overlong_iff`, `Reading.cases_of_steps_eq_error`: a whole text.
-/
import DefinitionTree.Proofs.Outcome
import DefinitionTree.Proofs.Xml.Legible

namespace DefinitionTree.Xml

/-! ### Failing in one way -/

/-- If this fails, it is because the text is not well-formed. -/
def OnlyMalformed {α : Type} (x : Except Failure α) : Prop := ∀ f, x = .error f → f = .malformed

namespace OnlyMalformed

variable {α β : Type} {x y : Except Failure α} {g : α → Except Failure β}

theorem ok (a : α) : OnlyMalformed (.ok a) := fun _ eq => nomatch eq

theorem malformed : OnlyMalformed (.error .malformed : Except Failure α) :=
  fun _ eq => (Except.error.inj eq).symm

theorem bind (first : OnlyMalformed x) (next : ∀ a, OnlyMalformed (g a)) :
    OnlyMalformed (x >>= g) := by
  intro f failed
  rcases bind_eq_error_iff.mp failed with failed | ⟨a, -, failed⟩
  · exact first f failed
  · exact next a f failed

theorem ite {p : Prop} [Decidable p] (here : OnlyMalformed x) (there : OnlyMalformed y) :
    OnlyMalformed (if p then x else y) := by
  split
  · exact here
  · exact there

end OnlyMalformed

/-! ### References -/

namespace Reference

theorem onlyMalformed_charOf (n : Nat) : OnlyMalformed (charOf n) := .ite (.ok _) .malformed

theorem onlyMalformed_digit (value? : Option Nat) (next : Nat → Reference) :
    OnlyMalformed (digit value? next) := by
  cases value? with
  | none => exact .malformed
  | some d => exact .ok _

theorem onlyMalformed_step (r : Reference) (c : Char) : OnlyMalformed (r.step c) := by
  cases r with
  | start => exact .ite (.ok _) (.ite (.ok _) .malformed)
  | name letters => exact .ite (.ok _) (.ite (.ok _) .malformed)
  | number => exact .ite (.ok _) (onlyMalformed_digit _ _)
  | decimal n => exact .ite (onlyMalformed_charOf n) (onlyMalformed_digit _ _)
  | hexMark => exact onlyMalformed_digit _ _
  | hex n => exact .ite (onlyMalformed_charOf n) (onlyMalformed_digit _ _)

theorem onlyMalformed_entityChar? (hidden : Bool) (name : String) :
    OnlyMalformed (entityChar? hidden name) := by
  rw [entityChar?]
  split
  · exact .ok _
  · exact .ite (.ok _) .malformed

end Reference

/-! ### Tags -/

theorem OpenValue.onlyMalformed_close (v : OpenValue) : OnlyMalformed v.close :=
  .ite .malformed (.ok _)

theorem OpenValue.onlyMalformed_step (v : OpenValue) (c : Char) : OnlyMalformed (v.step c) :=
  .ite (.bind v.onlyMalformed_close fun _ => .ok _)
    (.ite .malformed (.ite (.ok _) (.ite (.ok _) (.ok _))))

theorem OpenValue.onlyMalformed_stepReference (hidden : Bool) (v : OpenValue) (r : Reference)
    (c : Char) : OnlyMalformed (v.stepReference hidden r c) := by
  refine .bind (r.onlyMalformed_step c) fun read => ?_
  cases read with
  | more r => exact .ok _
  | char c => exact .ok _
  | entity name =>
    refine .bind (Reference.onlyMalformed_entityChar? hidden name) fun c? => ?_
    cases c? with
    | none => exact .ok _
    | some c => exact .ok _

theorem StartTag.onlyMalformed_step (tag : StartTag) (spaced : Bool) (c : Char) :
    OnlyMalformed (tag.step spaced c) :=
  .ite (.ok _) (.ite (.ok _) (.ite (.ok _) (.ite (.ok _) .malformed)))

theorem TagPlace.onlyMalformed_step (hidden : Bool) (p : TagPlace) (c : Char) :
    OnlyMalformed (p.step hidden c) := by
  cases p with
  | name letters => exact .ite (.ok _) (StartTag.onlyMalformed_step _ _ c)
  | between tag spaced => exact tag.onlyMalformed_step spaced c
  | slash tag => exact .ite (.ok _) .malformed
  | attributeName tag letters => exact .ite (.ok _) (.ite (.ok _) (.ite (.ok _) .malformed))
  | equals tag key => exact .ite (.ok _) (.ite (.ok _) .malformed)
  | mark tag key => exact .ite (.ok _) (.ite (.ok _) .malformed)
  | value v => exact v.onlyMalformed_step c
  | reference v r => exact v.onlyMalformed_stepReference hidden r c

/-! ### Comments and instructions -/

theorem Aside.onlyMalformed_step (a : Aside) (c : Char) : OnlyMalformed (a.step c) := by
  cases a with
  | comment hyphens => exact .ite (.ok _) (.ite (.ok _) .malformed)
  | target letters => exact .ite (.ok _) (.ite .malformed (.ite (.ok _) (.ite (.ok _) .malformed)))
  | targetEnd => exact .ite (.ok _) .malformed
  | instruction mark => exact .ite (.ok _) (.ok _)

theorem Aside.onlyMalformed_skip (a : Aside) (cs : List Char) : OnlyMalformed (a.skip cs) := by
  induction cs generalizing a with
  | nil => exact .malformed
  | cons c cs ih =>
    refine .ite (.bind (a.onlyMalformed_step c) fun next => ?_) .malformed
    cases next with
    | none => exact .ok _
    | some b => exact ih b

/-! ### Values of elements -/

/-- A text stands for no value if it spells an integer with too many digits. -/
theorem literal_eq_error_iff {s : String} {f : Failure} :
    literal s = .error f ↔ isOverlong s.toList = true ∧
      f = .integerTooLong (dropMinus (Text.dropLineEnd s.toList)).length := by
  constructor
  · intro failed
    have overlong : isOverlong s.toList = true := by
      rcases overlong : isOverlong s.toList
      · obtain ⟨t, read⟩ := (exists_literal_iff s).mpr overlong
        cases failed.symm.trans read
      · rfl
    refine ⟨overlong, ?_⟩
    obtain ⟨whole, long⟩ := Bool.and_eq_true_iff.mp overlong
    unfold literal at failed
    simp only [whole, of_decide_eq_true long, if_true] at failed
    split at failed
    · cases failed
    split at failed
    · cases failed
    · exact (Except.error.inj failed).symm
  · rintro ⟨overlong, rfl⟩
    obtain ⟨whole, long⟩ := Bool.and_eq_true_iff.mp overlong
    -- the words for truth values are no integers, so they are not overlong
    have noWord (word : String) (short : isOverlong word.toList = false) : s ≠ word := by
      rintro rfl
      rw [short] at overlong
      cases overlong
    rw [literal, if_neg (noWord "true" (by decide)), if_neg (noWord "false" (by decide)),
      if_pos whole, if_pos (of_decide_eq_true long)]

namespace OpenElement

/-- The text of the element, without the white space around it. -/
def trimmed (e : OpenElement) : List Char := Text.trim e.text.reverse

/-- An element has no value if its text is too long an integer. -/
theorem value_eq_error_iff {e : OpenElement} {f : Failure} :
    e.value = .error f ↔ isOverlong e.trimmed = true ∧
      f = .integerTooLong (dropMinus (Text.dropLineEnd e.trimmed)).length := by
  rw [value, ← trimmed]
  rcases held : e.trimmed with - | ⟨c, cs⟩
  · have short : isOverlong [] ≠ true := by decide
    cases e.entries with
    | nil => exact iff_of_false (by rintro ⟨⟩) fun it => short it.1
    | cons x es => exact iff_of_false (by rintro ⟨⟩) fun it => short it.1
  · have read := @literal_eq_error_iff (String.ofList (c :: cs)) f
    rw [String.toList_ofList] at read
    rw [← read]
    cases e.entries with
    | nil => rfl
    | cons x es =>
      show (literal (String.ofList (c :: cs)) >>= fun t => pure (Tree.map _)) = .error f ↔ _
      rcases literal (String.ofList (c :: cs)) with fault | t
      · exact Iff.rfl
      · exact iff_of_false (by rintro ⟨⟩) (by rintro ⟨⟩)

end OpenElement

/-! ### One step -/

/-- The name in the end tag that the next closing bracket ends. -/
def Place.closes? : Place → Option String
  | .endName letters => if letters.isEmpty then none else some (String.ofList letters.reverse)
  | .endTag name => some name
  | _ => none

namespace Reading

variable {d : Doctype} {s : Reading} {c : Char} {cs : List Char} {f : Failure}

/-- The character ends an element whose text is too long an integer. -/
def EndsOverlong (s : Reading) (c : Char) : Prop :=
  c = '>' ∧ ∃ e rest, s.elements = e :: rest ∧ s.place.closes? = some e.name ∧
    isOverlong e.trimmed = true

/-- Closing an element fails if it is not the innermost one, or has no value. -/
theorem cases_of_closeElement_eq_error {name : String} (h : s.closeElement name = .error f) :
    f = .malformed ∨ ∃ e rest, s.elements = e :: rest ∧ e.name = name ∧ e.value = .error f := by
  rw [closeElement] at h
  rcases elements : s.elements with - | ⟨e, rest⟩
  · rw [elements] at h
    exact .inl (Except.error.inj h).symm
  · rw [elements] at h
    simp only at h
    split at h
    · rename_i same
      rcases value : e.value with fault | t
      · rw [value] at h
        cases h
        exact .inr ⟨e, rest, rfl, same, value⟩
      · rw [value] at h
        cases rest <;> cases h
    · exact .inl (Except.error.inj h).symm

theorem closeElement_of_overlong {e : OpenElement} {rest : List OpenElement}
    (elements : s.elements = e :: rest) (overlong : isOverlong e.trimmed = true) :
    ∃ n, s.closeElement e.name = .error (.integerTooLong n) := by
  have value := OpenElement.value_eq_error_iff.mpr ⟨overlong, rfl⟩
  refine ⟨(dropMinus (Text.dropLineEnd e.trimmed)).length, ?_⟩
  rw [closeElement, elements]
  simp only [if_true, value]
  rfl

theorem onlyMalformed_put (s : Reading) (c : Char) (p : Place) : OnlyMalformed (s.put c p) := by
  rw [put]
  split
  · exact .ok _
  · exact .malformed

theorem onlyMalformed_stepReference (hidden : Bool) (s : Reading) (r : Reference) (c : Char) :
    OnlyMalformed (s.stepReference hidden r c) := by
  refine .bind (r.onlyMalformed_step c) fun read => ?_
  cases read with
  | more r => exact .ok _
  | char c => exact s.onlyMalformed_put c _
  | entity name =>
    refine .bind (Reference.onlyMalformed_entityChar? hidden name) fun c? => ?_
    cases c? with
    | none => exact .ok _
    | some c => exact s.onlyMalformed_put c _

theorem onlyMalformed_stepPlainMark (s : Reading) (cs : List Char) (c : Char) :
    OnlyMalformed (s.stepPlainMark cs c) := by
  unfold stepPlainMark
  split
  · exact .malformed
  · exact .ite (.ok _) .malformed
  · exact .ite (.ok _) .malformed

theorem onlyMalformed_stepAside (s : Reading) (a : Aside) (c : Char) :
    OnlyMalformed (s.stepAside a c) := by
  refine .bind (a.onlyMalformed_step c) fun next => ?_
  cases next with
  | none => exact .ok _
  | some a => exact .ok _

/-- An element that a start tag closes itself has no text, and so a value. -/
theorem onlyMalformed_stepStartTag (d : Doctype) (s : Reading) (p : TagPlace) (c : Char) :
    OnlyMalformed (s.stepStartTag d p c) := by
  refine .bind (p.onlyMalformed_step d.isHidden c) fun read => ?_
  cases read with
  | more p => exact .ok _
  | opened tag => exact .ok _
  | empty tag =>
    intro f failed
    rcases cases_of_closeElement_eq_error failed with malformed | ⟨e, rest, elements, -, value⟩
    · exact malformed
    · cases elements
      have short : isOverlong [] ≠ true := by decide
      exact absurd (OpenElement.value_eq_error_iff.mp value).1 short

/-- In an end tag the closing bracket may meet an integer that is too long. -/
theorem cases_of_stepEndTag_eq_error {name : String} (place : s.place = .endTag name)
    (h : s.stepEndTag name c = .error f) :
    f = .malformed ∨ (∃ n, f = .integerTooLong n) ∧ s.EndsOverlong c := by
  unfold stepEndTag at h
  split at h
  · rename_i closing
    refine (cases_of_closeElement_eq_error h).imp id ?_
    rintro ⟨e, rest, elements, rfl, value⟩
    obtain ⟨overlong, rfl⟩ := OpenElement.value_eq_error_iff.mp value
    exact ⟨⟨_, rfl⟩, closing, e, rest, elements, by rw [place]; rfl, overlong⟩
  split at h
  · cases h
  · exact .inl (Except.error.inj h).symm

theorem cases_of_stepEndName_eq_error {letters : List Char} (place : s.place = .endName letters)
    (h : s.stepEndName letters c = .error f) :
    f = .malformed ∨ (∃ n, f = .integerTooLong n) ∧ s.EndsOverlong c := by
  cases letters with
  | nil => exact .inl (OnlyMalformed.ite (.ok _) .malformed f h)
  | cons l ls =>
    unfold stepEndName at h
    simp only [List.isEmpty_cons, Bool.false_eq_true, if_false] at h
    split at h
    · cases h
    split at h
    · rename_i closing
      refine (cases_of_closeElement_eq_error h).imp id ?_
      rintro ⟨e, rest, elements, name, value⟩
      obtain ⟨overlong, rfl⟩ := OpenElement.value_eq_error_iff.mp value
      exact ⟨⟨_, rfl⟩, closing, e, rest, elements, by rw [place, name]; rfl, overlong⟩
    split at h
    · cases h
    · exact .inl (Except.error.inj h).symm

/-- **One step.**  If reading a character fails, the text is not well-formed or the
character ends an element whose text is too long an integer. -/
theorem cases_of_step_eq_error (h : s.step d c = .error f) :
    f = .malformed ∨ (∃ n, f = .integerTooLong n) ∧ s.EndsOverlong c := by
  unfold step at h
  split at h
  · exact .inl (Except.error.inj h).symm
  split at h
  · exact .inl (OnlyMalformed.ite (.ok _) (.ite (.ite (.ok _) .malformed)
      (.ite (.ok _) (.ite .malformed (s.onlyMalformed_put c _)))) f h)
  · exact .inl (s.onlyMalformed_stepReference _ _ c f h)
  · exact .inl (OnlyMalformed.ite (.ok _) (.ite (.ok _) (.ite (.ok _)
      (.ite (.ok _) .malformed))) f h)
  · exact .inl (s.onlyMalformed_stepStartTag d _ c f h)
  · exact cases_of_stepEndName_eq_error ‹_› h
  · exact cases_of_stepEndTag_eq_error ‹_› h
  · exact .inl (OnlyMalformed.ite (.ok _) (.ite (.ok _) .malformed) f h)
  · exact .inl (OnlyMalformed.ite (.ok _) .malformed f h)
  · exact .inl (s.onlyMalformed_stepPlainMark _ c f h)
  · exact .inl (OnlyMalformed.ite (.ok _) (s.onlyMalformed_put c _) f h)
  · exact .inl (s.onlyMalformed_stepAside _ c f h)

/-- Reading a character that ends an element whose text is too long an integer fails with
just that. -/
theorem step_of_endsOverlong (d : Doctype) (h : s.EndsOverlong c) :
    ∃ n, s.step d c = .error (.integerTooLong n) := by
  obtain ⟨rfl, e, rest, elements, closes, overlong⟩ := h
  obtain ⟨n, closed⟩ := closeElement_of_overlong elements overlong
  refine ⟨n, ?_⟩
  unfold Place.closes? at closes
  split at closes
  · rename_i letters place
    cases letters with
    | nil => cases closes
    | cons l ls =>
      have step : s.step d '>' = s.closeElement (String.ofList (l :: ls).reverse) := by
        rw [step, place]
        rfl
      have name : String.ofList (l :: ls).reverse = e.name := Option.some.inj closes
      rw [step, name, closed]
  · rename_i name place
    have step : s.step d '>' = s.closeElement name := by
      rw [step, place]
      rfl
    rw [step, Option.some.inj closes, closed]
  · cases closes

/-! ### A whole text -/

/-- Reading the text from a state on comes to such a character. -/
def MeetsOverlong (d : Doctype) (s : Reading) (cs : List Char) : Prop :=
  ∃ front c back reached, cs = front ++ c :: back ∧
    front.foldlM (step d) s = .ok reached ∧ reached.EndsOverlong c

end Reading

/-- A fold fails where one of its steps is the first to fail. -/
theorem foldlM_eq_error_iff {σ α : Type} {g : σ → α → Except Failure σ} {xs : List α} {s : σ}
    {f : Failure} : xs.foldlM g s = .error f ↔
      ∃ front x back reached, xs = front ++ x :: back ∧ front.foldlM g s = .ok reached ∧
        g reached x = .error f := by
  constructor
  · intro h
    induction xs generalizing s with
    | nil => cases h
    | cons x xs ih =>
      rw [List.foldlM_cons] at h
      rcases first : g s x with e | next
      · rw [first] at h
        cases h
        exact ⟨[], x, xs, s, rfl, rfl, first⟩
      · rw [first] at h
        obtain ⟨front, y, back, reached, rfl, done, failed⟩ := ih h
        refine ⟨x :: front, y, back, reached, rfl, ?_, failed⟩
        rw [List.foldlM_cons, first]
        exact done
  · rintro ⟨front, x, back, reached, rfl, done, failed⟩
    rw [List.foldlM_append, done]
    show (x :: back).foldlM g reached = _
    rw [List.foldlM_cons, failed]
    rfl

namespace Reading

variable {d : Doctype} {s : Reading} {cs : List Char} {f : Failure}

/-- **A whole text.**  If reading fails, the text is not well-formed or an integer that
is too long is met. -/
theorem cases_of_steps_eq_error (h : cs.foldlM (step d) s = .error f) :
    f = .malformed ∨ (∃ n, f = .integerTooLong n) ∧ MeetsOverlong d s cs := by
  obtain ⟨front, c, back, reached, rfl, done, failed⟩ := foldlM_eq_error_iff.mp h
  exact (cases_of_step_eq_error failed).imp id fun ⟨tooLong, ends⟩ =>
    ⟨tooLong, front, c, back, reached, rfl, done, ends⟩

theorem steps_of_meetsOverlong (h : MeetsOverlong d s cs) :
    ∃ n, cs.foldlM (step d) s = .error (.integerTooLong n) := by
  obtain ⟨front, c, back, reached, rfl, done, ends⟩ := h
  obtain ⟨n, failed⟩ := step_of_endsOverlong d ends
  exact ⟨n, foldlM_eq_error_iff.mpr ⟨front, c, back, reached, rfl, done, failed⟩⟩

theorem onlyMalformed_finish (s : Reading) : OnlyMalformed s.finish := by
  unfold finish
  split
  · exact .ok _
  · exact .malformed

end Reading

end DefinitionTree.Xml
