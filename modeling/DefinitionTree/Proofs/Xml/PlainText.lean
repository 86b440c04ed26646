/-
DefinitionTree/Proofs/Xml/PlainText.lean

Plain text, as it is read.

Between the marks of plain text every character stands for itself, ampersands
included, up to the first mark of its end.  But the named entities of a document
are replaced before its markup is looked at, in plain text as everywhere else.
There the references that take their place are no references any more: they
are read as the characters they are written with.

So plain text is read as it stands exactly if it holds no named entity.

Main definitions:

* `plainText`: a definition of one entry whose text is plain;
* `plainReading`: what it says, each character for itself.

Main statements:

* `Reading.run_plainText`: plain text inside an element;
* `definition_plainText_iff`: when it is read as it stands.
-/
import DefinitionTree.Proofs.Xml.Substitution

namespace DefinitionTree.Xml

variable {cs us rest : List Char}

/-! ### Inside an element -/

namespace Reading

variable {e : OpenElement} {elements : List OpenElement} {document : Entries}

/-- Reading goes on where a step leads. -/
theorem steps_cons {d : Doctype} {s s' : Reading} {c : Char} (step : s.step d c = .ok s')
    (cs : List Char) : (c :: cs).foldlM (Reading.step d) s = cs.foldlM (Reading.step d) s' := by
  rw [List.foldlM_cons, step]
  rfl

/-- A character that does not end plain text is put into the innermost
element. -/
theorem step_plain {c : Char} (xml : isXmlChar c = true) {closers : Nat}
    (inside : ¬ (c = '>' ∧ closers = 2)) :
    step {} ⟨e :: elements, document, .plain closers⟩ c
      = .ok ⟨e.push c :: elements, document, .plain (countClosers closers c)⟩ := by
  rw [step_eq xml]
  simp only [stepPlain, if_neg inside]
  rfl

/-- Characters that do not end plain text are put into the innermost element one after the
other. -/
theorem steps_plain (xml : cs.all isXmlChar = true) {closers : Nat}
    (inside : closes closers cs = false) :
    ∃ n, cs.foldlM (step {}) ⟨e :: elements, document, .plain closers⟩
      = .ok ⟨{ e with text := cs.reverse ++ e.text } :: elements, document, .plain n⟩ := by
  induction cs generalizing e closers with
  | nil => exact ⟨closers, rfl⟩
  | cons c cs ih =>
    rw [List.all_cons, Bool.and_eq_true] at xml
    rw [closes, Bool.or_eq_false_iff, decide_eq_false_iff_not] at inside
    obtain ⟨n, steps⟩ := @ih (e.push c) xml.2 _ inside.2
    refine ⟨n, ?_⟩
    rw [steps_cons (step_plain xml.1 inside.1), steps]
    simp [OpenElement.push]

/-- The brackets of its end are taken out again. -/
theorem steps_plainEnd (closers : Nat) :
    "]]>".toList.foldlM (step {}) ⟨e :: elements, document, .plain closers⟩
      = .ok ⟨e :: elements, document, .text 0⟩ := by
  have bracket (e : OpenElement) (closers : Nat) :
      step {} ⟨e :: elements, document, .plain closers⟩ ']'
        = .ok ⟨e.push ']' :: elements, document, .plain (min 2 (closers + 1))⟩ :=
    step_plain (by decide) (by simp)
  have two : min 2 (min 2 (closers + 1) + 1) = 2 := by omega
  refine (steps_cons (bracket e closers) _).trans ((steps_cons (bracket _ _) _).trans ?_)
  rw [two]
  rfl

/-- Plain text is put into the innermost element once its entities are
replaced. -/
theorem run_plainText (xml : cs.all isXmlChar = true) (noReturn : '\r' ∉ cs)
    (noEnd : ¬ "]]>".toList <:+: cs) (rest : List Char) :
    run ⟨e :: elements, document, .text 0⟩ ("<![CDATA[".toList ++ (cs ++ ("]]>".toList ++ rest)))
      = run ⟨{ e with text := (replaceFrom 0 cs).reverse ++ e.text } :: elements, document,
          .text 0⟩ rest := by
  have replaced := replaced_replaceFrom cs
  have inside : closes 0 (replaceFrom 0 cs) = false := by
    rw [← Bool.not_eq_true]
    exact fun ends => noEnd (infix_of_closes (Nat.zero_le 2) (replaced.closes ends))
  have scanned : scan (cs ++ ("]]>".toList ++ rest))
      = replaceFrom 0 cs ++ "]]>".toList ++ scan rest := by
    have alone : replaceFrom 0 (cs ++ ("]]>".toList ++ rest))
        = replaceFrom 0 cs ++ replaceFrom 0 ("]]>".toList ++ rest) :=
      replaced.append (by decide) (by decide) _
    rw [scan, alone, unifyLineBreaks_append (replaced.notMem_carriageReturn noReturn),
      List.append_assoc]
    exact congrArg (replaceFrom 0 cs ++ ·) (scan_append (by decide) rest)
  have opened : "<![CDATA[".toList.foldlM (step {}) ⟨e :: elements, document, .text 0⟩
      = .ok ⟨e :: elements, document, .plain 0⟩ := rfl
  obtain ⟨n, steps⟩ := @steps_plain _ e elements document (replaced.all_isXmlChar xml) 0 inside
  rw [run_of_scan (fun ds => scan_append (by decide) ds) opened, run, scanned, List.foldlM_append,
    List.foldlM_append, steps]
  exact congrArg (· >>= fun s => (scan rest).foldlM (step {}) s) (steps_plainEnd n)

end Reading

/-! ### Definitions -/

/-- A definition of one entry, whose text is plain text. -/
def plainText (t : String) : String := "<root><a><![CDATA[" ++ t ++ "]]></a></root>"

/-- The definition of one entry, with the value that a text stands for. -/
def plainReading (t : String) : Except Failure Entries :=
  if Text.trim t.toList = [] then .ok [(.text "a", .null)]
  else do return [(.text "a", ← literal (String.ofList (Text.trim t.toList)))]

theorem value_plain (cs : List Char) :
    (OpenElement.value ⟨"a", [], cs.reverse⟩ >>= fun t => .ok [(.text "a", t)])
      = plainReading (String.ofList cs) := by
  rw [plainReading, String.toList_ofList]
  simp only [OpenElement.value, List.reverse_reverse]
  rcases Text.trim cs with - | ⟨c, cs⟩
  · rfl
  · rfl

/-- The text of a start tag without attributes. -/
theorem Reading.run_plainTag {elements : List OpenElement} {name : String}
    (named : isName name.toList = true) (rest : List Char) :
    Reading.run ⟨elements, [], .text 0⟩ ('<' :: (name.toList ++ '>' :: rest))
      = Reading.run ⟨⟨name, [], []⟩ :: elements, [], .text 0⟩ rest := by
  have bracket : Reading.step {} ⟨elements, [], .text 0⟩ '<' = .ok ⟨elements, [], .markup⟩ := rfl
  have tag : Reading.run ⟨elements, [], .markup⟩ (name.toList ++ '>' :: rest)
      = readTag name [] >>= fun tag =>
          Reading.run ⟨⟨tag.name, Doctype.attributes {} tag, []⟩ :: elements, [], .text 0⟩ rest :=
    Reading.run_startTag (.inl rfl) (nameFault?_of_isName named) (List.forall_mem_nil _) rest
  rw [Reading.run_of_step (by decide) bracket]
  refine tag.trans ?_
  rw [readTag, if_pos named]
  rfl

/-- The definition, piece by piece. -/
theorem toList_plainText (t : String) :
    (plainText t).toList = '<' :: ("root".toList ++ '>' :: '<' :: ("a".toList ++ '>' ::
      ("<![CDATA[".toList ++ (t.toList ++ ("]]>".toList ++ '<' :: '/' :: ("a".toList ++ '>' ::
        '<' :: '/' :: ("root".toList ++ ['>']))))))) := by
  have front : "<root><a><![CDATA[".toList
      = '<' :: ("root".toList ++ '>' :: '<' :: ("a".toList ++ '>' :: "<![CDATA[".toList)) := by
    decide
  have back : "]]></a></root>".toList
      = "]]>".toList ++ '<' :: '/' :: ("a".toList ++ '>' :: '<' :: '/' :: ("root".toList ++ ['>'])) := by
    decide
  unfold plainText
  rw [String.toList_append, String.toList_append, front, back]
  simp only [List.cons_append, List.append_assoc]

/-- What the definition holds is what its plain text comes to, once its entities
are replaced. -/
theorem definition_of_plainText {t : String} (xml : t.toList.all isXmlChar = true)
    (noReturn : '\r' ∉ t.toList) (noEnd : ¬ "]]>".toList <:+: t.toList) :
    definition (plainText t) = plainReading (replaceEntities t) := by
  have name : isName "a".toList = true := by decide
  have outerName : isName "root".toList = true := by decide
  have bracket (e : OpenElement) (elements : List OpenElement) :
      Reading.step {} ⟨e :: elements, [], .text 0⟩ '<' = .ok ⟨e :: elements, [], .markup⟩ := rfl
  have run : Reading.run {} (plainText t).toList
      = OpenElement.value ⟨"a", [], (replaceFrom 0 t.toList).reverse⟩ >>= fun v =>
          .ok ⟨[], [(.text "root", .map [(.text "a", v)])], .text 0⟩ := by
    rw [toList_plainText, Reading.run_plainTag outerName, Reading.run_plainTag name,
      Reading.run_plainText xml noReturn noEnd, List.append_nil,
      Reading.run_of_step (by decide) (bracket _ _), Reading.run_endTag name (by simp),
      Reading.closeElement_eq]
    rcases OpenElement.value _ with fault | v
    · rfl
    show Reading.run ⟨[⟨"root", [(.text "a", v)], []⟩], [], .text 0⟩ _ = _
    rw [Reading.run_of_step (by decide) (bracket _ _), Reading.run_endTag outerName (by simp),
      Reading.closeElement_eq]
    rfl
  obtain ⟨cs, start⟩ : ∃ cs, (plainText t).toList = '<' :: 'r' :: cs := ⟨_, toList_plainText t⟩
  have read : document (plainText t) = Reading.run {} (plainText t).toList >>= Reading.finish := by
    rw [start, ← document_of_startTag (by decide), ← start, String.ofList_toList]
  rw [definition, read, run, replaceEntities, ← value_plain]
  rcases OpenElement.value _ with fault | v
  · rfl
  · rfl

/-! ### When plain text is read as it stands -/

theorem HoldsEntity.mem (h : HoldsEntity cs) : '&' ∈ cs := by
  obtain ⟨front, rest, rfl, -⟩ := h
  simp

/-- A character that is not blank stays when a text is trimmed. -/
theorem count_trim {c : Char} (ink : Text.isBlank c = false) (cs : List Char) :
    (Text.trim cs).count c = cs.count c := by
  obtain ⟨front, back, before, behind, eq⟩ := Text.strip_append Text.isBlank cs
  have none {xs : List Char} (blank : xs.all Text.isBlank = true) : xs.count c = 0 := by
    refine List.count_eq_zero.mpr fun mem => ?_
    have := List.all_eq_true.mp blank c mem
    rw [ink] at this
    cases this
  conv_rhs => rw [← eq, List.count_append, List.count_append, none before, none behind]
  simp

/-- What is no part of an integer keeps a text from being one. -/
theorem isOverlong_of_mem {c : Char} (noDigit : Text.isDecimal c = false)
    (other : c ∉ ['-', '\n']) (mem : c ∈ cs) : isOverlong cs = false := by
  simp only [List.mem_cons, List.not_mem_nil, or_false, not_or] at other
  have body : c ∈ dropMinus (Text.dropLineEnd cs) := by
    have line : c ∈ Text.dropLineEnd cs := by
      unfold Text.dropLineEnd
      split
      · rename_i last
        obtain ⟨front, rfl⟩ := List.getLast?_eq_some_iff.mp last
        simpa [other.2] using mem
      · exact mem
    unfold dropMinus
    split
    · rename_i eq
      rw [eq] at line
      exact (List.mem_cons.mp line).resolve_left other.1
    · exact line
  rw [isOverlong, Bool.and_eq_false_iff]
  refine .inl (Bool.not_eq_true _ ▸ fun whole => ?_)
  have := List.all_eq_true.mp (all_isDecimal_of_isWhole whole).2 c body
  rw [noDigit] at this
  cases this

/-- The value in a definition is written as the text it was read from. -/
theorem scalarText_of_plainReading {t : String} {v : Tree}
    (h : plainReading t = .ok [(.text "a", v)]) :
    v.scalarText = String.ofList (Text.trim t.toList) := by
  unfold plainReading at h
  split at h
  · rename_i none
    cases h
    rw [none]
    rfl
  · obtain ⟨w, read, eq⟩ := bind_eq_ok_iff.mp h
    cases eq
    exact scalarText_of_literal read

theorem exists_plainReading {t : String} (mem : '&' ∈ t.toList) :
    ∃ v, plainReading t = .ok [(.text "a", v)] := by
  have ink : '&' ∈ Text.trim t.toList := by
    rw [← List.count_pos_iff, count_trim (by decide), List.count_pos_iff]
    exact mem
  obtain ⟨v, read⟩ := (exists_literal_iff (String.ofList (Text.trim t.toList))).mpr
    (by rw [String.toList_ofList]; exact isOverlong_of_mem (by decide) (by decide) ink)
  refine ⟨v, ?_⟩
  rw [plainReading, if_neg (List.ne_nil_of_mem ink), read]
  rfl

/-- Plain text is read as it stands once its named entities are replaced, and so
it is read as it stands exactly if it holds none. -/
theorem definition_plainText_iff {t : String} (xml : t.toList.all isXmlChar = true)
    (noReturn : '\r' ∉ t.toList) (noEnd : ¬ "]]>".toList <:+: t.toList) :
    definition (plainText t) = plainReading (replaceEntities t) ∧
      (definition (plainText t) = plainReading t ↔ ¬ HoldsEntity t.toList) := by
  have read := definition_of_plainText xml noReturn noEnd
  refine ⟨read, fun same holds => ?_, fun none => ?_⟩
  · -- the number signs of the references would have to stand in the text
    obtain ⟨v, value⟩ := exists_plainReading holds.mem
    have value_ : plainReading (replaceEntities t) = .ok [(.text "a", v)] :=
      read.symm.trans (same.trans value)
    have texts := (scalarText_of_plainReading value_).symm.trans (scalarText_of_plainReading value)
    rw [replaceEntities, String.toList_ofList] at texts
    have trimmed := congrArg String.toList texts
    rw [String.toList_ofList, String.toList_ofList] at trimmed
    have signs := congrArg (List.count '#') trimmed
    rw [count_trim (by decide), count_trim (by decide)] at signs
    exact absurd signs.symm (Nat.ne_of_lt ((replaced_replaceFrom t.toList).count_lt holds))
  · rw [read, replaceEntities, replaceFrom_eq_self_iff.mpr none, String.ofList_toList]

/-- Markup in plain text is text. -/
theorem definition_plainText_markup :
    definition (plainText "<b>1 & 2</b>") = .ok [(.text "a", .text "<b>1 & 2</b>")] := by
  have none : ¬ HoldsEntity "<b>1 & 2</b>".toList := replaceFrom_eq_self_iff.mp (by decide)
  have noEnd : ¬ "]]>".toList <:+: "<b>1 & 2</b>".toList := by decide +kernel
  exact ((definition_plainText_iff (by decide) (by decide) noEnd).2.mpr none).trans rfl

/-- The name of an accented letter does not stay as it is. -/
theorem definition_plainText_accent :
    ("&eacute;".toList.all isXmlChar = true ∧ '\r' ∉ "&eacute;".toList ∧
      ¬ "]]>".toList <:+: "&eacute;".toList) ∧
    plainReading "&eacute;" = .ok [(.text "a", .text "&eacute;")] ∧
    definition (plainText "&eacute;") = .ok [(.text "a", .text "&#233;")] := by
  have replaced : replaceEntities "&eacute;" = "&#233;" := by decide +kernel
  have noEnd : ¬ "]]>".toList <:+: "&eacute;".toList := by decide +kernel
  refine ⟨⟨by decide, by decide, noEnd⟩, rfl, ?_⟩
  rw [definition_of_plainText (by decide) (by decide) noEnd, replaced]
  rfl

end DefinitionTree.Xml
