/-
DefinitionTree/Proofs/Xml/Running.lean

Reading start tags that were written.

A run reads characters as they stand in a written text, from a state on.  There
is one rule for each piece of a start tag that a writer puts out.  Each says to
which state the piece leads whatever stands behind it, and when it leads to
none.

Main definitions:

* `Reading.run`: reading from a state on;
* `readTag`: what a start tag is read as.

Main statements:

* `Reading.run_value`: values of attributes;
* `Reading.run_attributes`: attributes;
* `Reading.run_startTag`: start tags.
-/
import DefinitionTree.Proofs.Xml.Scanning

namespace DefinitionTree.Xml

/-! ### Characters of names -/

/-- Nothing in the tables of names lies beyond them. -/
theorem toNat_lt_of_inRanges {ranges : List (Nat × Nat)} (bound : ∀ r ∈ ranges, r.2 < 0xFFFE)
    {c : Char} (h : Text.inRanges ranges c = true) : c.toNat < 0xFFFE := by
  obtain ⟨r, hr, within⟩ := List.any_eq_true.mp h
  have := bound r hr
  simp only [Bool.and_eq_true, decide_eq_true_eq] at within
  omega

/-- Below a code point it can be checked for each character that one class lies in another. -/
theorem subclass_of_low {p q : Char → Bool} {bound : Nat}
    (low : ∀ n < bound, p (Char.ofNat n) = true → q (Char.ofNat n) = true) {c : Char}
    (small : c.toNat < bound) (h : p c = true) : q c = true := by
  have here := low c.toNat small
  rw [Char.ofNat_toNat] at here
  exact here h

theorem isNameChar_of_isNameStart {c : Char} (h : isNameStart c = true) : isNameChar c = true := by
  have low : ∀ n < 128, isNameStart (Char.ofNat n) = true → isNameChar (Char.ofNat n) = true := by
    decide
  by_cases small : c.toNat < 128
  · exact subclass_of_low low small h
  · rw [isNameChar, if_neg small, h]
    rfl

theorem isXmlChar_of_isNameChar {c : Char} (h : isNameChar c = true) : isXmlChar c = true := by
  have low : ∀ n < 128, isNameChar (Char.ofNat n) = true → isXmlChar (Char.ofNat n) = true := by
    decide
  by_cases small : c.toNat < 128
  · exact subclass_of_low low small h
  · have bounded : c.toNat < 0xFFFE := by
      rw [isNameChar, if_neg small, isNameStart, if_neg small, Bool.or_eq_true, Bool.or_eq_true] at h
      rcases h with (h | h) | h
      · exact toNat_lt_of_inRanges (by decide) h
      · exact toNat_lt_of_inRanges (by decide) h
      · exact toNat_lt_of_inRanges (by decide) h
    have ne : c.toNat ≠ 0xFFFE ∧ c.toNat ≠ 0xFFFF := by omega
    rw [isXmlChar, if_neg (by omega)]
    simp [ne.1, ne.2]

/-- A name starts with a letter and goes on with characters of names. -/
theorem exists_cons_of_isName {cs : List Char} (named : isName cs = true) :
    ∃ c rest, cs = c :: rest ∧ isNameStart c = true ∧ rest.all isNameChar = true := by
  cases cs with
  | nil => cases named
  | cons c rest =>
    rw [isName, Bool.and_eq_true] at named
    exact ⟨c, rest, rfl, named⟩

/-- No character of a name has a meaning of its own in markup. -/
theorem isNameChar_eq_false : ∀ c ∈ ['&', '\r', '<', '>', '/', '=', ' ', '!', '?'],
    isNameChar c = false := by
  intro c hc
  simp only [List.mem_cons, List.not_mem_nil, or_false] at hc
  rcases hc with rfl | rfl | rfl | rfl | rfl | rfl | rfl | rfl | rfl <;> decide

theorem staysAsIs_of_isNameChar {c : Char} (h : isNameChar c = true) : staysAsIs c = true := by
  have ampersand : c ≠ '&' := by
    rintro rfl
    exact absurd h (by decide)
  have carriageReturn : c ≠ '\r' := by
    rintro rfl
    exact absurd h (by decide)
  simp [staysAsIs, ampersand, carriageReturn]

/-! ### What start tags are read as -/

/-- Adds a written attribute to a start tag, as it is read. -/
def addAttribute (tag : StartTag) (a : String × String) : Except Failure StartTag :=
  if isName a.1.toList && a.2.toList.all isXmlChar && (tag.attributes.lookup a.1).isNone then
    .ok { tag with attributes := (a.1, a.2.toList) :: tag.attributes }
  else .error .malformed

/-- Makes a start tag of its parts, as it is read. -/
def readTag (name : String) (attributes : List (String × String)) : Except Failure StartTag :=
  if isName name.toList then attributes.foldlM addAttribute ⟨name, []⟩ else .error .malformed

namespace Reading

/-! ### Runs -/

/-- Reads characters of a written text. -/
def run (s : Reading) (cs : List Char) : Except Failure Reading :=
  (scan cs).foldlM (step {}) s

variable {s : Reading} {c : Char} {cs rest : List Char} {elements : List OpenElement}
  {document : Entries}

theorem run_cons (s : Reading) (stays : staysAsIs c = true) (cs : List Char) :
    s.run (c :: cs) = s.step {} c >>= fun s => s.run cs := by
  rw [run, scan_cons stays, List.foldlM_cons]
  rfl

/-- A run goes on where a step leads. -/
theorem run_of_step {s' : Reading} (stays : staysAsIs c = true) (step : s.step {} c = .ok s')
    (cs : List Char) : s.run (c :: cs) = s'.run cs := by
  rw [run_cons s stays, step]
  rfl

/-- A run ends where a step fails. -/
theorem run_of_error {f : Failure} (step : s.step {} c = .error f)
    (next : ∃ ds, scan (c :: cs) = c :: ds) : s.run (c :: cs) = .error f := by
  obtain ⟨ds, eq⟩ := next
  rw [run, eq, List.foldlM_cons, step]
  rfl

/-- The first character of what is scanned, unless it is a carriage return. -/
theorem scan_first (h : c ≠ '\r') (cs : List Char) : ∃ ds, scan (c :: cs) = c :: ds := by
  by_cases ampersand : c = '&'
  · subst ampersand
    exact scan_ampersand cs
  · exact ⟨_, scan_cons (by simp [staysAsIs, ampersand, h]) cs⟩

theorem run_malformed (step : s.step {} c = .error .malformed) (h : c ≠ '\r') (cs : List Char) :
    s.run (c :: cs) = .error .malformed :=
  run_of_error step (scan_first h cs)

theorem step_eq (xml : isXmlChar c = true) (s : Reading) :
    s.step {} c = match s.place with
      | .text closers => s.stepText closers c
      | .reference r => s.stepReference false r c
      | .markup => s.stepMarkup c
      | .startTag p => s.stepStartTag {} p c
      | .endName letters => s.stepEndName letters c
      | .endTag name => s.stepEndTag name c
      | .declaration => s.stepDeclaration c
      | .hyphen => if c = '-' then s.goTo (.aside (.comment 0)) else .error .malformed
      | .plainMark cs => s.stepPlainMark cs c
      | .plain closers => s.stepPlain closers c
      | .aside a => s.stepAside a c := by
  rw [step, xml]
  rfl

theorem step_of_not_xml (h : isXmlChar c = false) (s : Reading) :
    s.step {} c = .error .malformed := by
  rw [step, h]
  rfl

/-! ### Names -/

/-- A place that takes each character of a name takes the whole name. -/
theorem run_taken {taking : List Char → Reading}
    (takes : ∀ c letters, isNameChar c = true →
      (taking letters).step {} c = .ok (taking (c :: letters)))
    {xs : List Char} (h : xs.all isNameChar = true) (letters : List Char) :
    (taking letters).run (xs ++ rest) = (taking (xs.reverse ++ letters)).run rest := by
  induction xs generalizing letters with
  | nil => rfl
  | cons c xs ih =>
    rw [List.all_cons, Bool.and_eq_true] at h
    rw [List.cons_append, run_of_step (staysAsIs_of_isNameChar h.1) (takes c letters h.1), ih h.2]
    simp

/-- The characters of a name are collected. -/
theorem run_tagName {xs : List Char} (h : xs.all isNameChar = true) (letters : List Char) :
    run ⟨elements, document, .startTag (.name letters)⟩ (xs ++ rest)
      = run ⟨elements, document, .startTag (.name (xs.reverse ++ letters))⟩ rest := by
  have takes (c : Char) (letters : List Char) (h : isNameChar c = true) :
      (Reading.mk elements document (.startTag (.name letters))).step {} c
        = .ok ⟨elements, document, .startTag (.name (c :: letters))⟩ := by
    rw [step_eq (isXmlChar_of_isNameChar h)]
    simp only [stepStartTag, TagPlace.step, h, if_true]
    rfl
  exact run_taken takes h letters

theorem run_attributeName {xs : List Char} (h : xs.all isNameChar = true) (tag : StartTag)
    (letters : List Char) :
    run ⟨elements, document, .startTag (.attributeName tag letters)⟩ (xs ++ rest)
      = run ⟨elements, document, .startTag (.attributeName tag (xs.reverse ++ letters))⟩ rest := by
  have takes (c : Char) (letters : List Char) (h : isNameChar c = true) :
      (Reading.mk elements document (.startTag (.attributeName tag letters))).step {} c
        = .ok ⟨elements, document, .startTag (.attributeName tag (c :: letters))⟩ := by
    rw [step_eq (isXmlChar_of_isNameChar h)]
    simp only [stepStartTag, TagPlace.step, h, if_true]
    rfl
  exact run_taken takes h letters

theorem run_endName {xs letters : List Char} (h : xs.all isNameChar = true) (some_ : letters ≠ []) :
    run ⟨elements, document, .endName letters⟩ (xs ++ rest)
      = run ⟨elements, document, .endName (xs.reverse ++ letters)⟩ rest := by
  -- the end tag has its first letter already, so what follows need not start a name
  have takes (c : Char) (more : List Char) (h : isNameChar c = true) :
      (Reading.mk elements document (.endName (more ++ letters))).step {} c
        = .ok ⟨elements, document, .endName (c :: more ++ letters)⟩ := by
    have later : (more ++ letters).isEmpty = false := by simp [some_]
    rw [step_eq (isXmlChar_of_isNameChar h)]
    simp only [stepEndName, later, h]
    rfl
  have taken : run ⟨elements, document, .endName letters⟩ (xs ++ rest)
      = run ⟨elements, document, .endName (xs.reverse ++ [] ++ letters)⟩ rest :=
    run_taken takes h []
  rwa [List.append_nil] at taken

/-! ### Values of attributes -/

/-- Characters that scanning leaves alone are read one after the other. -/
theorem run_of_scan {xs : List Char} {s s' : Reading} (stay : ∀ cs, scan (xs ++ cs) = xs ++ scan cs)
    (steps : xs.foldlM (step {}) s = .ok s') (rest : List Char) :
    s.run (xs ++ rest) = s'.run rest := by
  rw [run, stay, List.foldlM_append, steps]
  rfl

/-- A character of a value that needs no reference. -/
theorem run_valueChar {v : OpenValue} (plain : c ≠ '&' ∧ c ≠ '<' ∧ c ≠ v.mark)
    (noBreak : c ≠ '\n' ∧ c ≠ '\r' ∧ c ≠ '\t') :
    run ⟨elements, document, .startTag (.value v)⟩ (c :: rest)
      = if isXmlChar c then run ⟨elements, document, .startTag (.value (v.push c))⟩ rest
        else .error .malformed := by
  split
  · rename_i xml
    refine run_of_step (by simp [staysAsIs, plain.1, noBreak.2.1]) ?_ rest
    rw [step_eq xml]
    simp only [stepStartTag, TagPlace.step, OpenValue.step, plain, if_false]
    by_cases space : c = ' '
    · subst space
      rfl
    · have none : isSpace c = false := by simp [isSpace, space, noBreak]
      rw [none]
      rfl
  · rename_i xml
    exact run_malformed (step_of_not_xml (by simpa using xml) _) noBreak.2.1 rest

/-- A character of a value is read as itself. -/
theorem run_escapedAttribute {v : OpenValue} (mark : v.mark = '"' ∨ v.mark = '\'' ∧ c ≠ '\'') :
    run ⟨elements, document, .startTag (.value v)⟩ (escapeAttribute v.mark c ++ rest)
      = if isXmlChar c then run ⟨elements, document, .startTag (.value (v.push c))⟩ rest
        else .error .malformed := by
  obtain ⟨tag, key, m, chars⟩ := v
  simp only at mark
  have m_cases : m = '"' ∨ m = '\'' := mark.imp id And.left
  -- what a character is escaped by is read in several steps, which together push it
  have reference {xs : List Char} (stay : ∀ cs, scan (xs ++ cs) = xs ++ scan cs)
      (xml : isXmlChar c = true)
      (steps : xs.foldlM (step {}) ⟨elements, document, .startTag (.value ⟨tag, key, m, chars⟩)⟩
        = .ok ⟨elements, document, .startTag (.value ⟨tag, key, m, c :: chars⟩)⟩) :
      run ⟨elements, document, .startTag (.value ⟨tag, key, m, chars⟩)⟩ (xs ++ rest)
        = if isXmlChar c then
            run ⟨elements, document, .startTag (.value ⟨tag, key, m, c :: chars⟩)⟩ rest
          else .error .malformed := by
    rw [run_of_scan stay steps, xml]
    rfl
  unfold escapeAttribute
  by_cases lineFeed : c = '\n'
  · subst lineFeed
    exact reference (@scan_number ['1', '0'] (by decide)) (by decide)
      (by rcases m_cases with rfl | rfl <;> rfl)
  by_cases carriageReturn : c = '\r'
  · subst carriageReturn
    exact reference (@scan_number ['1', '3'] (by decide)) (by decide)
      (by rcases m_cases with rfl | rfl <;> rfl)
  by_cases tab : c = '\t'
  · subst tab
    exact reference (@scan_number ['9'] (by decide)) (by decide)
      (by rcases m_cases with rfl | rfl <;> rfl)
  by_cases quote : c = '"' ∧ m = '"'
  · obtain ⟨rfl, rfl⟩ := quote
    exact reference scan_quot (by decide) rfl
  rw [if_neg lineFeed, if_neg carriageReturn, if_neg tab, if_neg quote]
  rcases escapeText_cases c with ⟨rfl, eq⟩ | ⟨rfl, eq⟩ | ⟨rfl, eq⟩ | ⟨plain, eq⟩
  · rw [eq]
    exact reference scan_amp (by decide) (by rcases m_cases with rfl | rfl <;> rfl)
  · rw [eq]
    exact reference scan_lt (by decide) (by rcases m_cases with rfl | rfl <;> rfl)
  · rw [eq]
    exact reference scan_gt (by decide) (by rcases m_cases with rfl | rfl <;> rfl)
  · have noMark : c ≠ m := by
      rcases mark with rfl | ⟨rfl, ne⟩
      · exact fun eq => quote ⟨eq, rfl⟩
      · exact ne
    rw [eq]
    exact run_valueChar ⟨plain.1, plain.2.1, noMark⟩ ⟨lineFeed, carriageReturn, tab⟩

/-- A value is read as it was, unless it holds what markup must not hold. -/
theorem run_value {v : OpenValue} (mark : v.mark = '"' ∨ v.mark = '\'' ∧ '\'' ∉ cs) :
    run ⟨elements, document, .startTag (.value v)⟩ (cs.flatMap (escapeAttribute v.mark) ++ rest)
      = if cs.all isXmlChar then
          run ⟨elements, document, .startTag (.value { v with chars := cs.reverse ++ v.chars })⟩ rest
        else .error .malformed := by
  induction cs generalizing v with
  | nil => rfl
  | cons c cs ih =>
    have here : v.mark = '"' ∨ v.mark = '\'' ∧ c ≠ '\'' :=
      mark.imp id (And.imp id fun none eq => none (eq ▸ List.mem_cons_self))
    have there : (v.push c).mark = '"' ∨ (v.push c).mark = '\'' ∧ '\'' ∉ cs :=
      mark.imp id (And.imp id fun none mem => none (List.mem_cons_of_mem _ mem))
    have next := ih there
    rw [List.flatMap_cons, List.append_assoc, run_escapedAttribute here, List.all_cons]
    cases xml : isXmlChar c
    · rfl
    · rw [if_pos rfl, Bool.true_and]
      refine next.trans ?_
      simp [OpenValue.push]

/-! ### Names that can be written -/

/-- What can be written as a name holds nothing that would end it. -/
theorem writable_of_nameFault? {name : String} (h : nameFault? name = none) {c : Char}
    (mem : c ∈ name.toList) :
    c ≠ '<' ∧ c ≠ '>' ∧ c ≠ '/' ∧ c ≠ '=' ∧ Text.isBlank c = false := by
  have none {p : Char → Bool} (holds : Xml.holds p name = false) : p c = false := by
    rw [← Bool.not_eq_true]
    intro pc
    have : Xml.holds p name = true := List.any_eq_true.mpr ⟨c, mem, pc⟩
    rw [holds] at this
    cases this
  unfold nameFault? at h
  split at h
  · cases h
  split at h
  · cases h
  split at h
  · cases h
  split at h
  · cases h
  split at h
  · cases h
  split at h
  · cases h
  rename_i brackets slash quotes equals blank
  have bracket := none (by simpa using brackets)
  have slash := none (by simpa using slash)
  have equals := none (by simpa using equals)
  simp only [Bool.or_eq_false_iff, beq_eq_false_iff_ne] at bracket slash equals
  exact ⟨bracket.1, bracket.2, slash, equals, none (by simpa using blank)⟩

/-- What can be written as a name does not start like an instruction or a declaration. -/
theorem head?_of_nameFault? {name : String} (h : nameFault? name = none) {c : Char}
    {cs : List Char} (eq : name.toList = c :: cs) : c ≠ '?' ∧ c ≠ '!' := by
  unfold nameFault? at h
  split at h
  · cases h
  · rename_i head
    simpa [eq] using head

theorem isSpace_of_isBlank {c : Char} (h : Text.isBlank c = false) :
    isSpace c = false ∧ c ≠ '\r' ∧ c ≠ ' ' := by
  have ne (d : Char) (blank : Text.isBlank d = true) : c ≠ d := by
    rintro rfl
    rw [blank] at h
    cases h
  have space := ne ' ' (by decide)
  have carriageReturn := ne '\r' (by decide)
  exact ⟨by simp [isSpace, space, carriageReturn, ne '\t' (by decide), ne '\n' (by decide)],
    carriageReturn, space⟩

/-- Where not all characters are of a class there is a first that is not. -/
theorem exists_first_not {p : Char → Bool} {xs : List Char} (h : xs.all p = false) :
    ∃ front c back, xs = front ++ c :: back ∧ front.all p = true ∧ p c = false := by
  induction xs with
  | nil => cases h
  | cons x xs ih =>
    cases px : p x
    · exact ⟨[], x, xs, rfl, rfl, px⟩
    · rw [List.all_cons, px, Bool.true_and] at h
      obtain ⟨front, c, back, rfl, all, none⟩ := ih h
      exact ⟨x :: front, c, back, rfl, by rw [List.all_cons, px, all]; rfl, none⟩

/-! ### Attributes -/

variable {tag : StartTag} {name value : String}

/-- A character of a start tag. -/
theorem step_startTag (xml : isXmlChar c = true) (p : TagPlace) :
    step {} ⟨elements, document, .startTag p⟩ c = p.step false c >>= fun
      | .more p => .ok ⟨elements, document, .startTag p⟩
      | .opened tag => .ok (openElement {} ⟨elements, document, .startTag p⟩ tag)
      | .empty tag =>
        closeElement (openElement {} ⟨elements, document, .startTag p⟩ tag) tag.name := by
  rw [step_eq xml]
  show (p.step false c >>= _) = _
  rcases p.step false c with e | p | tag | tag <;> rfl

/-- The position in a start tag after a character of it. -/
theorem run_more {p q : TagPlace} (stays : staysAsIs c = true) (xml : isXmlChar c = true)
    (h : p.step false c = .ok (.more q)) (rest : List Char) :
    run ⟨elements, document, .startTag p⟩ (c :: rest)
      = run ⟨elements, document, .startTag q⟩ rest := by
  refine run_of_step stays ?_ rest
  rw [step_startTag xml, h]
  rfl

/-- A character that a start tag must not hold there. -/
theorem run_tagError {p : TagPlace} (h : isXmlChar c = true → p.step false c = .error .malformed)
    (noReturn : c ≠ '\r') (rest : List Char) :
    run ⟨elements, document, .startTag p⟩ (c :: rest) = .error .malformed := by
  refine run_malformed ?_ noReturn rest
  cases xml : isXmlChar c
  · exact step_of_not_xml xml _
  · rw [step_startTag xml, h xml]
    rfl

/-- The name of an attribute, up to the mark of its value. -/
theorem run_attributeStart (writable : nameFault? name = none) (mark : Char)
    (quoted : mark = '"' ∨ mark = '\'') :
    run ⟨elements, document, .startTag (.between tag true)⟩ (name.toList ++ '=' :: mark :: rest)
      = if isName name.toList then
          run ⟨elements, document, .startTag (.value ⟨tag, name, mark, []⟩)⟩ rest
        else .error .malformed := by
  have writable (c : Char) (mem : c ∈ name.toList) := writable_of_nameFault? writable mem
  rcases chars : name.toList with - | ⟨c, cs⟩
  · exact run_tagError (fun _ => rfl) (by decide) _
  rw [chars] at writable
  obtain ⟨-, noClose, noSlash, -, noBlank⟩ := writable c List.mem_cons_self
  obtain ⟨noSpace, noReturn, -⟩ := isSpace_of_isBlank noBlank
  rw [List.cons_append, isName]
  cases start : isNameStart c
  · refine run_tagError (fun _ => ?_) noReturn _
    simp [TagPlace.step, StartTag.step, noClose, noSlash, noSpace, start]
  have isChar := isNameChar_of_isNameStart start
  have first : (TagPlace.between tag true).step false c = .ok (.more (.attributeName tag [c])) := by
    simp [TagPlace.step, StartTag.step, noClose, noSlash, noSpace, start]
  rw [run_more (staysAsIs_of_isNameChar isChar) (isXmlChar_of_isNameChar isChar) first,
    Bool.true_and]
  cases all : cs.all isNameChar
  · obtain ⟨front, d, back, rfl, good, bad⟩ := exists_first_not all
    obtain ⟨-, -, -, noEquals, noBlank⟩ := writable d (by simp)
    obtain ⟨noSpace, noReturn, -⟩ := isSpace_of_isBlank noBlank
    rw [List.append_assoc, run_attributeName good]
    refine run_tagError (fun _ => ?_) noReturn _
    simp [TagPlace.step, bad, noEquals, noSpace]
  · have equals : (TagPlace.attributeName tag (cs.reverse ++ [c])).step false '='
        = .ok (.more (.mark tag name)) := by
      have spelled : String.ofList (c :: cs) = name := by rw [← chars, String.ofList_toList]
      have none : isNameChar '=' = false := by decide
      simp [TagPlace.step, none, spelled]
    have opens : (TagPlace.mark tag name).step false mark
        = .ok (.more (.value ⟨tag, name, mark, []⟩)) := by
      rcases quoted with rfl | rfl <;> rfl
    rw [run_attributeName all, run_more (by decide) (by decide) equals,
      run_more (by rcases quoted with rfl | rfl <;> decide)
        (by rcases quoted with rfl | rfl <;> decide) opens]
    rfl

/-- The mark of a value does not stand in it as it is. -/
theorem valueMark_cases (cs : List Char) :
    valueMark cs = '"' ∨ valueMark cs = '\'' ∧ '\'' ∉ cs := by
  unfold valueMark
  split
  · rename_i h
    simp only [Bool.and_eq_true, Bool.not_eq_true', List.contains_eq_mem,
      decide_eq_false_iff_not] at h
    exact .inr ⟨rfl, h.2⟩
  · exact .inl rfl

/-- The mark behind a value ends the attribute. -/
theorem run_closeValue {v : OpenValue} (quoted : v.mark = '"' ∨ v.mark = '\'') :
    run ⟨elements, document, .startTag (.value v)⟩ (v.mark :: rest)
      = v.close >>= fun tag => run ⟨elements, document, .startTag (.between tag false)⟩ rest := by
  have here : (TagPlace.value v).step false v.mark
      = v.close >>= fun tag => .ok (.more (.between tag false)) := by
    simp only [TagPlace.step, OpenValue.step]
    rfl
  have xml : isXmlChar v.mark = true := by rcases quoted with h | h <;> rw [h] <;> decide
  have stays : staysAsIs v.mark = true := by rcases quoted with h | h <;> rw [h] <;> decide
  rcases closed : v.close with e | closedTag
  · rw [closed] at here
    rw [run_cons _ stays, step_startTag xml, here]
    rfl
  · rw [closed] at here
    exact run_more stays xml here rest

/-- A written attribute is added to the tag. -/
theorem run_attribute (writable : nameFault? name = none) (spaced : Bool) :
    run ⟨elements, document, .startTag (.between tag spaced)⟩ (writeAttribute name value ++ rest)
      = addAttribute tag (name, value) >>= fun tag =>
          run ⟨elements, document, .startTag (.between tag false)⟩ rest := by
  have quoted : valueMark value.toList = '"' ∨ valueMark value.toList = '\'' :=
    (valueMark_cases value.toList).imp id And.left
  have blank : (TagPlace.between tag spaced).step false ' ' = .ok (.more (.between tag true)) := rfl
  have written : writeAttribute name value ++ rest
      = ' ' :: (name.toList ++ '=' :: valueMark value.toList ::
          (value.toList.flatMap (escapeAttribute (valueMark value.toList))
            ++ valueMark value.toList :: rest)) := by
    simp [writeAttribute]
  rw [written, run_more (by decide) (by decide) blank, run_attributeStart writable _ quoted,
    addAttribute]
  cases named : isName name.toList
  · rfl
  rw [if_pos rfl, Bool.true_and]
  have read := @run_value value.toList (valueMark value.toList :: rest) elements document
    ⟨tag, name, valueMark value.toList, []⟩ (valueMark_cases value.toList)
  rw [read]
  cases xml : value.toList.all isXmlChar
  · rfl
  rw [if_pos rfl, Bool.true_and]
  rw [@run_closeValue rest elements document
    ⟨tag, name, valueMark value.toList, value.toList.reverse ++ []⟩ quoted, OpenValue.close]
  cases tag.attributes.lookup name
  · simp
  · rfl

/-- Attributes are added one after the other, and then the tag ends. -/
theorem run_attributes {attributes : List (String × String)}
    (writable : ∀ a ∈ attributes, nameFault? a.1 = none) (tag : StartTag) :
    run ⟨elements, document, .startTag (.between tag false)⟩
        (attributes.flatMap (fun a => writeAttribute a.1 a.2) ++ '>' :: rest)
      = attributes.foldlM addAttribute tag >>= fun tag =>
          run ⟨⟨tag.name, Doctype.attributes {} tag, []⟩ :: elements, document, .text 0⟩ rest := by
  induction attributes generalizing tag with
  | nil =>
    refine run_of_step (by decide) ?_ rest
    rw [step_startTag (by decide)]
    rfl
  | cons a attributes ih =>
    rw [List.flatMap_cons, List.append_assoc, run_attribute (writable a List.mem_cons_self),
      List.foldlM_cons]
    rcases addAttribute tag (a.1, a.2) with e | next
    · rfl
    · exact ih (fun b mem => writable b (List.mem_cons_of_mem _ mem)) next

/-! ### Start tags -/

/-- What comes behind the name of an element ends it. -/
theorem run_nameEnd (letters : List Char) (h : c = ' ' ∨ c = '>') :
    run ⟨elements, document, .startTag (.name letters)⟩ (c :: rest)
      = run ⟨elements, document, .startTag (.between ⟨String.ofList letters.reverse, []⟩ false)⟩
          (c :: rest) := by
  have none : isNameChar c = false := by rcases h with rfl | rfl <;> decide
  have xml : isXmlChar c = true := by rcases h with rfl | rfl <;> decide
  have stays : staysAsIs c = true := by rcases h with rfl | rfl <;> decide
  rw [run_cons _ stays, run_cons _ stays, step_startTag xml, step_startTag xml]
  simp only [TagPlace.step, none]
  rcases h with rfl | rfl <;> rfl

/-- A start tag opens an element. -/
theorem run_startTag {attributes : List (String × String)} (free : document = [] ∨ elements ≠ [])
    (writable : nameFault? name = none)
    (allWritable : ∀ a ∈ attributes, nameFault? a.1 = none) (rest : List Char) :
    run ⟨elements, document, .markup⟩
        (name.toList ++ (attributes.flatMap (fun a => writeAttribute a.1 a.2) ++ '>' :: rest))
      = readTag name attributes >>= fun tag =>
          run ⟨⟨tag.name, Doctype.attributes {} tag, []⟩ :: elements, document, .text 0⟩ rest := by
  -- a blank or the bracket comes behind the name
  obtain ⟨next, more, behind, ends⟩ : ∃ next more,
      attributes.flatMap (fun a => writeAttribute a.1 a.2) ++ '>' :: rest = next :: more
        ∧ (next = ' ' ∨ next = '>') := by
    cases attributes with
    | nil => exact ⟨_, _, rfl, .inr rfl⟩
    | cons a attributes => exact ⟨_, _, rfl, .inl rfl⟩
  have between := @run_attributes rest elements document attributes allWritable ⟨name, []⟩
  have writable_ (c : Char) (mem : c ∈ name.toList) := writable_of_nameFault? writable mem
  rcases chars : name.toList with - | ⟨c, cs⟩
  · rw [behind, readTag, chars]
    refine run_malformed ?_ (by rcases ends with rfl | rfl <;> decide) more
    rw [step_eq (by rcases ends with rfl | rfl <;> decide)]
    have none : isNameStart next = false := by rcases ends with rfl | rfl <;> decide
    rcases ends with rfl | rfl <;> simp [stepMarkup, none]
  obtain ⟨-, -, noSlash, -, noBlank⟩ := writable_ c (by rw [chars]; exact List.mem_cons_self)
  obtain ⟨noQuestion, noExclamation⟩ := head?_of_nameFault? writable chars
  rw [readTag, chars, isName, List.cons_append]
  cases start : isNameStart c
  · refine run_malformed ?_ (isSpace_of_isBlank noBlank).2.1 _
    cases xml : isXmlChar c
    · exact step_of_not_xml xml _
    · rw [step_eq xml]
      simp [stepMarkup, noQuestion, noExclamation, noSlash, start]
  have isChar := isNameChar_of_isNameStart start
  have first : step {} ⟨elements, document, .markup⟩ c
      = .ok ⟨elements, document, .startTag (.name [c])⟩ := by
    rw [step_eq (isXmlChar_of_isNameChar isChar)]
    rcases free with rfl | some_
    · simp [stepMarkup, noQuestion, noExclamation, noSlash, start, goTo]
    · simp [stepMarkup, noQuestion, noExclamation, noSlash, start, goTo, some_]
  rw [run_of_step (staysAsIs_of_isNameChar isChar) first, Bool.true_and]
  cases all : cs.all isNameChar
  · obtain ⟨front, d, back, rfl, good, bad⟩ := exists_first_not all
    obtain ⟨-, noClose, noSlash, -, noBlank⟩ := writable_ d (by simp [chars])
    obtain ⟨noSpace, noReturn, -⟩ := isSpace_of_isBlank noBlank
    rw [List.append_assoc, run_tagName good]
    refine run_tagError (fun _ => ?_) noReturn _
    simp [TagPlace.step, StartTag.step, bad, noClose, noSlash, noSpace]
  · rw [run_tagName all, behind, run_nameEnd _ ends, ← behind]
    have spelled : String.ofList (cs.reverse ++ [c]).reverse = name := by
      simp [← chars]
    rw [spelled, between]
    rfl

end Reading

end DefinitionTree.Xml
