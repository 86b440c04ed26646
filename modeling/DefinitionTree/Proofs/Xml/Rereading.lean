/-
DefinitionTree/Proofs/Xml/Rereading.lean

Reading nodes that were written.

A node that is read again adds an entry to the element it stands in, and the
layout around it adds blanks to the text of that element, which trimming drops
again.  What a node adds is defined by recursion over the node, without a text
in between; the main statement is that reading the written text comes to that.

Main definitions:

* `Node.addTo`: what an element holds after a node of it is read;
* `readElement`: what an element is read as.

Main statements:

* `Reading.run_text`, `Reading.run_comment`, `Reading.run_endTag`: pieces;
* `Reading.run_writeNodes`: the nodes inside an element;
* `document_writeNode`: a document.
-/
import DefinitionTree.Proofs.Outcome
import DefinitionTree.Proofs.Xml.Running

namespace DefinitionTree.Xml

namespace Reading

variable {c : Char} {cs rest : List Char} {e : OpenElement} {elements : List OpenElement}
  {document : Entries}

/-! ### Text -/

/-- Neither unifying line breaks nor the lack of it makes a character one that
a document may hold. -/
theorem all_unifyLineBreaks (cs : List Char) :
    (unifyLineBreaks cs).all isXmlChar = cs.all isXmlChar := by
  fun_induction unifyLineBreaks cs with
  | case1 => rfl
  | case2 cs ih => simpa [isXmlChar] using ih
  | case3 cs _ ih => simpa [isXmlChar] using ih
  | case4 c cs _ _ ih => simp [ih]

/-- A character of text is put into the innermost element. -/
theorem steps_escapeText (xml : isXmlChar c = true) (closers : Nat) :
    ∃ next, (escapeText c).foldlM (step {}) ⟨e :: elements, document, .text closers⟩
      = .ok ⟨e.push c :: elements, document, .text next⟩ := by
  rcases escapeText_cases c with ⟨rfl, eq⟩ | ⟨rfl, eq⟩ | ⟨rfl, eq⟩ | ⟨plain, eq⟩
  · exact ⟨0, by rw [eq]; rfl⟩
  · exact ⟨0, by rw [eq]; rfl⟩
  · exact ⟨0, by rw [eq]; rfl⟩
  · refine ⟨countClosers closers c, ?_⟩
    rw [eq, List.foldlM_cons, step_eq xml]
    simp only [stepText, plain.1, plain.2.1, plain.2.2, if_false, false_and]
    rfl

theorem steps_not_xml (h : isXmlChar c = false) (s : Reading) :
    (escapeText c).foldlM (step {}) s = .error .malformed := by
  rcases escapeText_cases c with ⟨rfl, -⟩ | ⟨rfl, -⟩ | ⟨rfl, -⟩ | ⟨-, eq⟩
  · cases h
  · cases h
  · cases h
  · rw [eq, List.foldlM_cons, step_of_not_xml h]
    rfl

/-- The characters of text up to the next markup are put into the innermost element. -/
theorem steps_text (xs : List Char) (closers : Nat) :
    (xs.flatMap escapeText ++ ['<']).foldlM (step {}) ⟨e :: elements, document, .text closers⟩
      = if xs.all isXmlChar then
          .ok ⟨{ e with text := xs.reverse ++ e.text } :: elements, document, .markup⟩
        else .error .malformed := by
  induction xs generalizing e closers with
  | nil => rfl
  | cons x xs ih =>
    rw [List.flatMap_cons, List.append_assoc, List.foldlM_append, List.all_cons]
    cases xml : isXmlChar x
    · rw [steps_not_xml xml]
      rfl
    · obtain ⟨next, eq⟩ := @steps_escapeText x e elements document xml closers
      rw [eq]
      refine (ih next).trans ?_
      simp [OpenElement.push]

/-- The text of an element, up to the next markup. -/
theorem run_text (cs rest : List Char) (closers : Nat) :
    run ⟨e :: elements, document, .text closers⟩ (cs.flatMap escapeText ++ '<' :: rest)
      = if cs.all isXmlChar then
          run ⟨{ e with text := (unifyLineBreaks cs).reverse ++ e.text } :: elements, document,
            .markup⟩ rest
        else .error .malformed := by
  have pieces : scan (cs.flatMap escapeText ++ '<' :: rest)
      = (unifyLineBreaks cs).flatMap escapeText ++ ['<'] ++ scan rest := by
    rw [scan_escapeText (by simp), scan_cons (by decide), List.append_assoc]
    rfl
  rw [run, pieces, List.foldlM_append, steps_text, all_unifyLineBreaks]
  split <;> rfl

/-! ### Layout -/

/-- Characters that only lay out a text. -/
def isLayout (c : Char) : Bool := c == ' ' || c == '\t' || c == '\n'

theorem isLayout_cases (h : isLayout c = true) : c = ' ' ∨ c = '\t' ∨ c = '\n' := by
  simpa [isLayout, or_assoc] using h

/-- Layout is put into the text of the innermost element. -/
theorem run_layout (blank : cs.all isLayout = true) (rest : List Char) :
    run ⟨e :: elements, document, .text 0⟩ (cs ++ rest)
      = run ⟨{ e with text := cs.reverse ++ e.text } :: elements, document, .text 0⟩ rest := by
  induction cs generalizing e with
  | nil => rfl
  | cons c cs ih =>
    rw [List.all_cons, Bool.and_eq_true] at blank
    have step : step {} ⟨e :: elements, document, .text 0⟩ c
        = .ok ⟨e.push c :: elements, document, .text 0⟩ := by
      rcases isLayout_cases blank.1 with rfl | rfl | rfl <;> rfl
    have stays : staysAsIs c = true := by
      rcases isLayout_cases blank.1 with rfl | rfl | rfl <;> decide
    rw [List.cons_append, run_of_step stays step, ih blank.2]
    simp [OpenElement.push]

/-! ### Comments -/

/-- The text closes no comment: it has no two hyphens in a row and none at its
end, where one hyphen may stand in front of it already. -/
def isInside (hyphen : Bool) : List Char → Bool
  | [] => !hyphen
  | c :: cs => if c = '-' then !hyphen && isInside true cs else isInside false cs

theorem isInside_unifyLineBreaks (hyphen : Bool) (cs : List Char) :
    isInside hyphen (unifyLineBreaks cs) = isInside hyphen cs := by
  fun_induction unifyLineBreaks cs generalizing hyphen with
  | case1 => rfl
  | case2 cs ih => exact ih false
  | case3 cs _ ih => exact ih false
  | case4 c cs _ _ ih => simp only [isInside, ih]

/-- What can be written as a comment closes none. -/
theorem isInside_of_noDouble {cs : List Char} (single : hasDoubleHyphen cs = false)
    (last : cs.getLast? ≠ some '-') : isInside false cs = true := by
  induction cs with
  | nil => rfl
  | cons c cs ih =>
    have inner : isInside false cs = true := by
      cases cs with
      | nil => rfl
      | cons d cs =>
        refine ih ?_ (by simpa using last)
        unfold hasDoubleHyphen at single
        split at single
        · cases single
        · rename_i eq
          cases eq
          exact single
        · rename_i eq
          cases eq
    by_cases hyphen : c = '-'
    · subst hyphen
      cases cs with
      | nil => exact absurd rfl last
      | cons d cs =>
        have other : d ≠ '-' := by
          rintro rfl
          cases single
        simpa [isInside, other] using inner
    · simpa [isInside, hyphen] using inner

/-- A character of a comment. -/
theorem step_comment (xml : isXmlChar c = true) {hyphens : Nat} (few : hyphens < 2) :
    step {} ⟨elements, document, .aside (.comment hyphens)⟩ c
      = .ok ⟨elements, document, .aside (.comment (if c = '-' then hyphens + 1 else 0))⟩ := by
  rw [step_eq xml]
  simp only [stepAside, Aside.step, few, if_true]
  rfl

/-- Nothing of a comment is kept. -/
theorem steps_comment {xs : List Char} {hyphen : Bool} (inside : isInside hyphen xs = true) :
    (xs.flatMap escapeText ++ "-->".toList).foldlM (step {})
        ⟨elements, document, .aside (.comment hyphen.toNat)⟩
      = if xs.all isXmlChar then .ok ⟨elements, document, .text 0⟩ else .error .malformed := by
  induction xs generalizing hyphen with
  | nil =>
    cases hyphen with
    | true => cases inside
    | false => rfl
  | cons x xs ih =>
    rw [List.flatMap_cons, List.append_assoc, List.foldlM_append, List.all_cons]
    cases xml : isXmlChar x
    · rw [steps_not_xml xml]
      rfl
    have few : hyphen.toNat < 2 := by cases hyphen <;> decide
    by_cases dash : x = '-'
    · subst dash
      cases hyphen with
      | true => cases inside
      | false => exact @ih true inside
    · have inner : isInside false xs = true := by simpa [isInside, dash] using inside
      have steps : (escapeText x).foldlM (step {})
          ⟨elements, document, .aside (.comment hyphen.toNat)⟩
            = .ok ⟨elements, document, .aside (.comment 0)⟩ := by
        rcases escapeText_cases x with ⟨rfl, eq⟩ | ⟨rfl, eq⟩ | ⟨rfl, eq⟩ | ⟨-, eq⟩
        · cases hyphen <;> rw [eq] <;> rfl
        · cases hyphen <;> rw [eq] <;> rfl
        · cases hyphen <;> rw [eq] <;> rfl
        · rw [eq, List.foldlM_cons, step_comment xml few, if_neg dash]
          rfl
      rw [steps]
      exact @ih false inner

/-- A comment, from the exclamation mark on. -/
theorem run_comment (single : hasDoubleHyphen cs = false) (last : cs.getLast? ≠ some '-')
    (rest : List Char) :
    run ⟨elements, document, .markup⟩
        ("!--".toList ++ (cs.flatMap escapeText ++ ("-->".toList ++ rest)))
      = if cs.all isXmlChar then run ⟨elements, document, .text 0⟩ rest
        else .error .malformed := by
  have pieces : scan (cs.flatMap escapeText ++ ("-->".toList ++ rest))
      = (unifyLineBreaks cs).flatMap escapeText ++ "-->".toList ++ scan rest := by
    rw [scan_escapeText (by simp), scan_append (by decide), List.append_assoc]
  have opened : run ⟨elements, document, .markup⟩
      ("!--".toList ++ (cs.flatMap escapeText ++ ("-->".toList ++ rest)))
        = run ⟨elements, document, .aside (.comment 0)⟩
            (cs.flatMap escapeText ++ ("-->".toList ++ rest)) :=
    run_of_scan (fun ds => scan_append (by decide) ds) rfl _
  have inside : isInside false (unifyLineBreaks cs) = true := by
    rw [isInside_unifyLineBreaks, isInside_of_noDouble single last]
  have steps := @steps_comment elements document _ false inside
  rw [opened, run, pieces, List.foldlM_append]
  refine (congrArg (· >>= fun s => (scan rest).foldlM (step {}) s) steps).trans ?_
  rw [all_unifyLineBreaks]
  split <;> rfl

/-! ### End tags -/

/-- An end tag closes the innermost element. -/
theorem run_endTag {name : String} (named : isName name.toList = true) (inside : elements ≠ [])
    (rest : List Char) :
    run ⟨elements, document, .markup⟩ ('/' :: (name.toList ++ '>' :: rest))
      = closeElement ⟨elements, document, .markup⟩ name >>= fun s => run s rest := by
  obtain ⟨c, cs, chars, start, all⟩ := exists_cons_of_isName named
  rw [chars]
  have isChar := isNameChar_of_isNameStart start
  have slash : step {} ⟨elements, document, .markup⟩ '/'
      = .ok ⟨elements, document, .endName []⟩ := by
    rw [step_eq (by decide)]
    simp [stepMarkup, inside, goTo]
  have first : step {} ⟨elements, document, .endName []⟩ c
      = .ok ⟨elements, document, .endName [c]⟩ := by
    rw [step_eq (isXmlChar_of_isNameChar isChar)]
    simp [stepEndName, start, goTo]
  have spelled : String.ofList (cs.reverse ++ [c]).reverse = name := by simp [← chars]
  have last : step {} ⟨elements, document, .endName (cs.reverse ++ [c])⟩ '>'
      = closeElement ⟨elements, document, .markup⟩ name := by
    have none : isNameChar '>' = false := isNameChar_eq_false '>' (by simp)
    rw [step_eq (by decide), ← spelled]
    simp [stepEndName, none, closeElement]
  rw [run_of_step (by decide) slash, List.cons_append,
    run_of_step (staysAsIs_of_isNameChar isChar) first, run_endName all (by simp),
    run_cons _ (by decide), last]

end Reading

/-! ### What a node is read as -/

/-- What an element is read as; `inner` adds what is inside to the attributes. -/
def readElement (name : String) (attributes : List (String × String)) (text : String)
    (inner : Entries → Except Failure Entries) : Except Failure Tree := do
  let tag ← readTag name attributes
  let es ← inner (Doctype.attributes {} tag)
  if text.toList.all isXmlChar then
    OpenElement.value ⟨name, es, (unifyLineBreaks text.toList).reverse⟩
  else .error .malformed

mutual

/-- What an element holds after a node inside it is read. -/
def Node.addTo (es : Entries) : Node → Except Failure Entries
  | .comment none => .ok es
  | .comment (some s) => if s.toList.all isXmlChar then .ok es else .error .malformed
  | .element name attributes children text => do
    let t ← readElement name attributes text fun es => addAll es children
    return addChild name t es

/-- What an element holds after nodes inside it are read. -/
def addAll (es : Entries) : List Node → Except Failure Entries
  | [] => .ok es
  | n :: rest => do addAll (← n.addTo es) rest

end

mutual

/-- The names in a node can be written, and its comments, too. -/
def Node.IsWritable : Node → Prop
  | .comment none => True
  | .comment (some s) => hasDoubleHyphen s.toList = false ∧ s.toList.getLast? ≠ some '-'
  | .element name attributes children _ =>
    nameFault? name = none ∧ (∀ a ∈ attributes, nameFault? a.1 = none) ∧ AreWritable children

/-- The names and comments in all nodes of the list can be written. -/
def AreWritable : List Node → Prop
  | [] => True
  | n :: rest => n.IsWritable ∧ AreWritable rest

end

/-! ### Layout around nodes -/

namespace Style

/-- Indentation consists of spaces and tabs. -/
def isPlain (style : Style) : Bool := style.indent.all fun c => c == ' ' || c == '\t'

/-- What stands around a node at a depth. -/
def around (style : Style) (depth : Nat) : Node → List Char
  | .comment none => []
  | _ => style.margin depth ++ style.lineEnd

variable {style : Style}

theorem margin_plain (plain : style.isPlain = true) (depth : Nat) {c : Char}
    (mem : c ∈ style.margin depth) : c = ' ' ∨ c = '\t' := by
  unfold margin at mem
  split at mem
  · obtain ⟨cs, among, inside⟩ := List.mem_flatten.mp mem
    rw [List.eq_of_mem_replicate among] at inside
    simpa using List.all_eq_true.mp plain c inside
  · cases mem

theorem margin_layout (plain : style.isPlain = true) (depth : Nat) :
    (style.margin depth).all Reading.isLayout = true := by
  rw [List.all_eq_true]
  intro c mem
  rcases margin_plain plain depth mem with rfl | rfl <;> rfl

theorem lineEnd_layout (style : Style) : style.lineEnd.all Reading.isLayout = true := by
  unfold lineEnd
  split <;> rfl

theorem around_layout (plain : style.isPlain = true) (depth : Nat) (nodes : List Node) :
    (nodes.flatMap (style.around depth)).all Reading.isLayout = true := by
  rw [List.all_flatMap, List.all_eq_true]
  intro n _
  unfold around
  split
  · rfl
  · rw [List.all_append, margin_layout plain, lineEnd_layout]
    rfl

end Style

theorem isXmlChar_of_isLayout {cs : List Char} (h : cs.all Reading.isLayout = true) :
    cs.all isXmlChar = true := by
  rw [List.all_eq_true] at h ⊢
  intro c mem
  rcases Reading.isLayout_cases (h c mem) with rfl | rfl | rfl <;> decide

theorem isBlank_of_isLayout {cs : List Char} (h : cs.all Reading.isLayout = true) :
    cs.all Text.isBlank = true := by
  rw [List.all_eq_true] at h ⊢
  intro c mem
  rcases Reading.isLayout_cases (h c mem) with rfl | rfl | rfl <;> decide

/-- Spaces and tabs are written as they are. -/
theorem escapeText_margin {style : Style} (plain : style.isPlain = true) (depth : Nat) :
    (style.margin depth).flatMap escapeText = style.margin depth := by
  have same {xs : List Char} (h : ∀ c ∈ xs, c = ' ' ∨ c = '\t') : xs.flatMap escapeText = xs := by
    induction xs with
    | nil => rfl
    | cons x xs ih =>
      rw [List.flatMap_cons, ih fun c mem => h c (List.mem_cons_of_mem _ mem)]
      rcases h x List.mem_cons_self with rfl | rfl <;> rfl
  exact same fun c => Style.margin_plain plain depth

theorem unifyLineBreaks_margin {style : Style} (plain : style.isPlain = true) (depth : Nat)
    (cs : List Char) :
    unifyLineBreaks (cs ++ style.margin depth) = unifyLineBreaks cs ++ style.margin depth := by
  have noReturn : '\r' ∉ style.margin depth := by
    intro mem
    rcases Style.margin_plain plain depth mem with h | h <;> cases h
  fun_induction unifyLineBreaks cs with
  | case1 => exact unifyLineBreaks_eq_self noReturn
  | case2 cs ih =>
    show unifyLineBreaks ('\r' :: '\n' :: (cs ++ _)) = _
    rw [unifyLineBreaks, ih]
    rfl
  | case3 cs single ih =>
    -- a carriage return at the end of the text is followed by no line feed of the margin
    have alone : ∀ ds, cs ++ style.margin depth = '\n' :: ds → False := by
      intro ds eq
      cases cs with
      | nil =>
        have first : '\n' ∈ style.margin depth := by
          rw [show style.margin depth = '\n' :: ds from eq]
          exact List.mem_cons_self
        rcases Style.margin_plain plain depth first with h | h <;> cases h
      | cons c cs =>
        cases eq
        exact single cs rfl
    show unifyLineBreaks ('\r' :: (cs ++ _)) = _
    rw [unifyLineBreaks, ih]
    · rfl
    · exact alone
  | case4 c cs _ single ih =>
    rw [List.cons_append, unifyLineBreaks_cons (fun eq => single eq), ih]
    rfl

/-- Blanks around the text of an element are no part of its value. -/
theorem OpenElement.value_blank {front back : List Char} (before : front.all Text.isBlank = true)
    (behind : back.all Text.isBlank = true) (name : String) (es : Entries) (cs : List Char) :
    OpenElement.value ⟨name, es, back.reverse ++ (cs.reverse ++ front.reverse)⟩
      = OpenElement.value ⟨name, es, cs.reverse⟩ := by
  have text : Text.trim (back.reverse ++ (cs.reverse ++ front.reverse)).reverse
      = Text.trim cs.reverse.reverse := by
    simp only [List.reverse_append, List.reverse_reverse]
    show Text.strip Text.isBlank (front ++ cs ++ back) = Text.strip Text.isBlank cs
    rw [Text.strip_back behind, Text.strip_front before]
  simp only [OpenElement.value, text]

/-! ### Reading nodes -/

theorem name_of_attributes {attributes : List (String × String)} {start tag : StartTag}
    (h : attributes.foldlM addAttribute start = .ok tag) : tag.name = start.name := by
  induction attributes generalizing start with
  | nil =>
    cases h
    rfl
  | cons a attributes ih =>
    rw [List.foldlM_cons] at h
    rcases added : addAttribute start a with fault | next
    · rw [added] at h
      cases h
    · rw [added] at h
      rw [ih h]
      unfold addAttribute at added
      split at added
      · cases added
        rfl
      · cases added

/-- A start tag is read under the name it was written with. -/
theorem name_of_readTag {name : String} {attributes : List (String × String)} {tag : StartTag}
    (h : readTag name attributes = .ok tag) : isName name.toList = true ∧ tag.name = name := by
  unfold readTag at h
  split at h
  · exact ⟨‹_›, name_of_attributes h⟩
  · cases h

namespace Reading

variable {style : Style} {rest : List Char} {e : OpenElement} {elements : List OpenElement}
  {document : Entries}

/-- Where reading goes on behind an element. -/
def behind (elements : List OpenElement) (document : Entries) (name : String) (t : Tree) :
    Reading :=
  match elements with
  | [] => ⟨[], Xml.addChild name t document, .text 0⟩
  | p :: more => ⟨p.addChild name t :: more, document, .text 0⟩

theorem closeElement_eq (e : OpenElement) (p : Place) :
    closeElement ⟨e :: elements, document, p⟩ e.name
      = e.value >>= fun t => .ok (behind elements document e.name t) := by
  simp only [closeElement, if_true]
  rcases e.value with fault | t
  · rfl
  · cases elements <;> rfl

/-- The inside of an element, as it is written. -/
def writeInside (style : Style) (depth : Nat) (children : List Node) (text : String) : List Char :=
  (if children.isEmpty then [] else style.lineEnd) ++ writeNodes style (depth + 1) children
    ++ text.toList.flatMap escapeText ++ (if children.isEmpty then [] else style.margin depth)

/-- A start tag is read from its name on. -/
theorem run_bracket (name : String) (attributes : List (String × String)) (rest : List Char) :
    run ⟨elements, document, .text 0⟩ (startTag name attributes ++ rest)
      = run ⟨elements, document, .markup⟩
          (name.toList ++ (attributes.flatMap (fun a => writeAttribute a.1 a.2) ++ '>' :: rest)) := by
  have bracket : step {} ⟨elements, document, .text 0⟩ '<'
      = .ok ⟨elements, document, .markup⟩ := rfl
  rw [startTag, List.cons_append, run_of_step (by decide) bracket]
  simp only [List.append_assoc, List.cons_append, List.nil_append]

/-- What stands between a text and the end tag is read with the text, which it only
lays out. -/
theorem exists_margin (plain : style.isPlain = true) (depth : Nat) (children : List Node)
    (text : List Char) : ∃ margin, (if children.isEmpty then [] else style.margin depth) = margin ∧
      margin.all isLayout = true ∧ margin.flatMap escapeText = margin ∧
      unifyLineBreaks (text ++ margin) = unifyLineBreaks text ++ margin := by
  split
  · exact ⟨[], rfl, rfl, rfl, by simp⟩
  · exact ⟨_, rfl, Style.margin_layout plain depth, escapeText_margin plain depth,
      unifyLineBreaks_margin plain depth _⟩

/-- An element is read if what is inside is. -/
theorem run_element (plain : style.isPlain = true) {depth : Nat} {name : String}
    {attributes : List (String × String)} {children : List Node} {text : String}
    (writable : nameFault? name = none) (allWritable : ∀ a ∈ attributes, nameFault? a.1 = none)
    (inside : ∀ (e : OpenElement) (rest : List Char),
      run ⟨e :: elements, document, .text 0⟩ (writeNodes style (depth + 1) children ++ rest)
        = addAll e.entries children >>= fun es =>
            run ⟨{ e with
              entries := es
              text := (children.flatMap (style.around (depth + 1))).reverse ++ e.text } :: elements,
              document, .text 0⟩ rest)
    (free : document = [] ∨ elements ≠ []) (rest : List Char) :
    run ⟨elements, document, .text 0⟩
        (startTag name attributes ++ (writeInside style depth children text
          ++ (endTag name ++ rest)))
      = readElement name attributes text (addAll · children) >>= fun t =>
          run (behind elements document name t) rest := by
  rw [run_bracket, run_startTag free writable allWritable, readElement]
  rcases tagRead : readTag name attributes with fault | tag
  · rfl
  obtain ⟨named, rfl⟩ := name_of_readTag tagRead
  obtain ⟨margin, eq, blank, escaped, unified⟩ := exists_margin plain depth children text.toList
  have front : (if children.isEmpty then [] else style.lineEnd).all isLayout = true := by
    split
    · rfl
    · exact Style.lineEnd_layout style
  -- inside the tags come layout, the children, and the text with the margin behind it
  have written : writeInside style depth children text ++ (endTag tag.name ++ rest)
      = (if children.isEmpty then [] else style.lineEnd) ++ (writeNodes style (depth + 1) children
          ++ ((text.toList ++ margin).flatMap escapeText
            ++ '<' :: '/' :: (tag.name.toList ++ '>' :: rest))) := by
    simp only [writeInside, endTag, eq, List.flatMap_append, escaped, List.append_assoc,
      List.cons_append, List.nil_append]
  have around := Style.around_layout plain (depth + 1) children
  show run ⟨⟨tag.name, Doctype.attributes {} tag, []⟩ :: elements, document, .text 0⟩ _ = _
  rw [written, run_layout front, inside]
  show _ = (addAll (Doctype.attributes {} tag) children >>= _) >>= _
  rcases addAll (Doctype.attributes {} tag) children with fault | es
  · rfl
  show run _ _ = _
  rw [run_text, List.all_append, isXmlChar_of_isLayout blank, Bool.and_true, unified]
  show _ = (if text.toList.all isXmlChar then _ else _) >>= _
  split
  -- the layout around the children went into the text, and is stripped from it
  · rw [run_endTag named (by simp)]
    have before : ((if children.isEmpty then [] else style.lineEnd)
        ++ children.flatMap (style.around (depth + 1))).all isLayout = true := by
      rw [List.all_append, front, around]
      rfl
    have value := OpenElement.value_blank (isBlank_of_isLayout before) (isBlank_of_isLayout blank)
      tag.name es (unifyLineBreaks text.toList)
    rw [← value, closeElement_eq]
    simp only [List.reverse_append, List.append_assoc, List.append_nil]
    rcases OpenElement.value _ with fault | t <;> rfl
  · rfl

mutual

/-- A node inside an element adds to what the element holds. -/
theorem run_writeNode (plain : style.isPlain = true) (depth : Nat) (n : Node)
    (writable : n.IsWritable) (e : OpenElement) (elements : List OpenElement)
    (rest : List Char) :
    run ⟨e :: elements, document, .text 0⟩ (writeNode style (depth + 1) n ++ rest)
      = n.addTo e.entries >>= fun es =>
          run ⟨{ e with
            entries := es
            text := (style.around (depth + 1) n).reverse ++ e.text } :: elements,
            document, .text 0⟩ rest := by
  cases n with
  | comment text =>
    cases text with
    | none => rfl
    | some s =>
      rw [Node.IsWritable] at writable
      have written : writeNode style (depth + 1) (.comment (some s)) ++ rest
          = style.margin (depth + 1) ++ '<' :: ("!--".toList ++ (s.toList.flatMap escapeText
              ++ ("-->".toList ++ (style.lineEnd ++ rest)))) := by
        simp [writeNode]
      have bracket (e : OpenElement) : step {} ⟨e :: elements, document, .text 0⟩ '<'
          = .ok ⟨e :: elements, document, .markup⟩ := rfl
      rw [written, run_layout (Style.margin_layout plain _), run_of_step (by decide) (bracket _),
        run_comment writable.1 writable.2, Node.addTo]
      split
      · rw [run_layout (Style.lineEnd_layout style)]
        simp [Style.around]
      · rfl
  | element name attributes children text =>
    rw [Node.IsWritable] at writable
    obtain ⟨named, allNamed, inner⟩ := writable
    have written : writeNode style (depth + 1) (.element name attributes children text) ++ rest
        = style.margin (depth + 1) ++ (startTag name attributes
            ++ (writeInside style (depth + 1) children text
              ++ (endTag name ++ (style.lineEnd ++ rest)))) := by
      simp [writeNode, writeInside]
    rw [written, run_layout (Style.margin_layout plain _),
      run_element plain named allNamed
        (fun e rest => run_writeNodes plain (depth + 1) children inner e _ rest)
        (.inr (by simp)), Node.addTo]
    rcases readElement name attributes text fun es => addAll es children with fault | t
    · rfl
    · show run ⟨_ :: elements, document, .text 0⟩ _ = run _ _
      rw [run_layout (Style.lineEnd_layout style)]
      simp [Style.around, OpenElement.addChild]

/-- Nodes one after the other inside an element add to what the element holds. -/
theorem run_writeNodes (plain : style.isPlain = true) (depth : Nat) (nodes : List Node)
    (writable : AreWritable nodes) (e : OpenElement) (elements : List OpenElement)
    (rest : List Char) :
    run ⟨e :: elements, document, .text 0⟩ (writeNodes style (depth + 1) nodes ++ rest)
      = addAll e.entries nodes >>= fun es =>
          run ⟨{ e with
            entries := es
            text := (nodes.flatMap (style.around (depth + 1))).reverse ++ e.text } :: elements,
            document, .text 0⟩ rest := by
  cases nodes with
  | nil => rfl
  | cons n nodes =>
    rw [AreWritable] at writable
    rw [writeNodes, List.append_assoc, run_writeNode plain depth n writable.1, addAll]
    rcases n.addTo e.entries with fault | es
    · rfl
    · show run _ _ = addAll es nodes >>= _
      rw [run_writeNodes plain depth nodes writable.2]
      simp

end

/-- At the outermost level an element is all of the document. -/
theorem run_outermost (plain : style.isPlain = true) {name : String}
    {attributes : List (String × String)} {children : List Node} {text : String}
    (writable : (Node.element name attributes children text).IsWritable) :
    run {} (writeNode style 0 (.element name attributes children text))
      = readElement name attributes text (addAll · children) >>= fun t =>
          .ok ⟨[], [(.text name, t)], .text 0⟩ := by
  rw [Node.IsWritable] at writable
  obtain ⟨named, allNamed, inner⟩ := writable
  have noMargin : style.margin 0 = [] := by
    unfold Style.margin
    split <;> rfl
  have written : writeNode style 0 (.element name attributes children text)
      = startTag name attributes ++ (writeInside style 0 children text ++ (endTag name ++ [])) := by
    simp [writeNode, writeInside, noMargin]
  rw [written]
  exact run_element plain named allNamed
    (fun e rest => run_writeNodes plain 0 children inner e _ rest) (.inl rfl) []

end Reading

/-! ### Documents -/

/-- A start tag is no declaration, comment, instruction or document type. -/
theorem prolog_of_startTag {c : Char} (start : isNameStart c = true) (rest : List Char) :
    prolog ('<' :: c :: rest) = .ok ({}, '<' :: c :: rest) := by
  have noQuestion : c ≠ '?' := by
    rintro rfl
    exact absurd start (by decide)
  have noExclamation : c ≠ '!' := by
    rintro rfl
    exact absurd start (by decide)
  have noDeclaration : documentStart ('<' :: c :: rest) = .ok ({}, '<' :: c :: rest) := by
    simp [documentStart, dropStart?, noQuestion.symm]
  have noAside : Aside.start? ('<' :: c :: rest) = none := by
    unfold Aside.start?
    split
    · rename_i eq
      exact absurd (List.cons.inj (List.cons.inj eq).2).1 noQuestion
    · rename_i eq
      exact absurd (List.cons.inj (List.cons.inj eq).2).1 noExclamation
    · rfl
  have noSkip : skipAsides ('<' :: c :: rest) = .ok ('<' :: c :: rest) := by
    rw [skipAsides, if_neg (by decide)]
    split
    · rename_i eq
      rw [noAside] at eq
      cases eq
    · rfl
  have noType : Doctype.keyword? ('<' :: c :: rest) = none := by
    unfold Doctype.keyword?
    split
    · rename_i eq
      exact absurd (List.cons.inj (List.cons.inj eq).2).1 noExclamation
    · rfl
  rw [prolog, noDeclaration]
  show (skipAsides _ >>= _) = _
  rw [noSkip]
  simp only [bind, Except.bind, noType]
  rfl

/-- A text that starts with a start tag has nothing in front of its outermost
element. -/
theorem document_of_startTag {c : Char} (start : isNameStart c = true) (cs : List Char) :
    document (String.ofList ('<' :: c :: cs)) = Reading.run {} ('<' :: c :: cs) >>= Reading.finish := by
  have scanned : scan ('<' :: c :: cs) = '<' :: c :: scan cs := by
    rw [scan_cons (by decide), scan_cons (staysAsIs_of_isNameChar (isNameChar_of_isNameStart start))]
  have text : unifyLineBreaks (dropByteOrderMark
      (replaceEntities (String.ofList ('<' :: c :: cs))).toList) = '<' :: c :: scan cs := by
    rw [← scanned, replaceEntities, String.toList_ofList, String.toList_ofList, scan, replaceFrom,
      if_neg (by decide)]
    rfl
  rw [document, text, prolog_of_startTag start, Reading.run, scanned]
  rfl

/-- A document that was written is read as its outermost element. -/
theorem document_writeNode {style : Style} (plain : style.isPlain = true) {name : String}
    {attributes : List (String × String)} {children : List Node} {text : String}
    (named : isName name.toList = true)
    (writable : (Node.element name attributes children text).IsWritable) :
    document (String.ofList (writeNode style 0 (.element name attributes children text)))
      = readElement name attributes text (addAll · children) >>= fun t =>
          .ok [(.text name, t)] := by
  have noMargin : style.margin 0 = [] := by
    unfold Style.margin
    split <;> rfl
  obtain ⟨c, cs, chars, start, -⟩ := exists_cons_of_isName named
  obtain ⟨more, written⟩ : ∃ more,
      writeNode style 0 (.element name attributes children text) = '<' :: c :: more := by
    simp [writeNode, noMargin, startTag, chars]
  rw [written, document_of_startTag start, ← written, Reading.run_outermost plain writable]
  rcases readElement name attributes text (addAll · children) with fault | t <;> rfl

/-- A definition that was written is what its outermost element is read as. -/
theorem definition_writeNode {style : Style} (plain : style.isPlain = true)
    {attributes : List (String × String)} {children : List Node} {text : String}
    (writable : (Node.element rootName attributes children text).IsWritable) :
    definition (String.ofList (writeNodes style 0 [.element rootName attributes children text]))
      = readElement rootName attributes text (addAll · children) >>= fun
          | .null => .ok []
          | .map es => .ok es
          | t => .error (.rootHoldsText t.shown) := by
  have named : isName rootName.toList = true := by decide
  rw [definition, writeNodes, writeNodes, List.append_nil, document_writeNode plain named writable]
  rcases readElement rootName attributes text (addAll · children) with fault | t
  · rfl
  · cases t <;> rfl

end DefinitionTree.Xml
