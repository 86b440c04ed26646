/-
DefinitionTree/Proofs/Xml/Replacing.lean

What is written holds no named entity that would be replaced.

Before a document is read its named entities are replaced, whatever they stand
in.  Every ampersand that is written starts one of the entities of markup itself
or a numeric reference, and these stay, so what is legible when it is written is
read just as it stands.

Main definitions and statements:

* `Stays`: texts that stay as they are, whatever follows them;
* `stays_writeNode`: a legible node is one;
* `replaceEntities_write`: so is a definition that can be read.
-/
import DefinitionTree.Proofs.Xml.Element

namespace DefinitionTree.Xml

/-! ### Texts that stay -/

/-- Nothing in the text is replaced, whatever follows it. -/
def Stays (xs : List Char) : Prop := ∀ cs, replaceFrom 0 (xs ++ cs) = xs ++ replaceFrom 0 cs

variable {xs ys : List Char}

theorem stays_nil : Stays [] := fun _ => rfl

theorem Stays.append (front : Stays xs) (back : Stays ys) : Stays (xs ++ ys) := by
  intro cs
  rw [List.append_assoc, front, back, List.append_assoc]

theorem stays_cons {c : Char} (plain : c ≠ '&') (h : Stays xs) : Stays (c :: xs) := by
  intro cs
  rw [List.cons_append, replaceFrom, if_neg plain, h]
  rfl

/-- Only ampersands start entities. -/
theorem stays_of_notMem (h : '&' ∉ xs) : Stays xs := by
  induction xs with
  | nil => exact stays_nil
  | cons c xs ih =>
    rw [List.mem_cons, not_or] at h
    exact stays_cons (Ne.symm h.1) (ih h.2)

theorem stays_flatMap {α : Type} {f : α → List Char} {as : List α} (h : ∀ a ∈ as, Stays (f a)) :
    Stays (as.flatMap f) := by
  induction as with
  | nil => exact stays_nil
  | cons a as ih =>
    obtain ⟨here, there⟩ := List.forall_mem_cons.mp h
    rw [List.flatMap_cons]
    exact here.append (ih there)

/-! ### References -/

theorem stays_predefined {name : String} (known : (predefined.lookup name).isSome = true)
    (letters : name.toList.all Char.isAlphanum = true) :
    Stays ('&' :: (name.toList ++ [';'])) := by
  have plain : '&' ∉ name.toList ++ [';'] := by
    intro mem
    rcases List.mem_append.mp mem with mem | mem
    · exact absurd (List.all_eq_true.mp letters _ mem) (by decide)
    · exact absurd mem (by decide)
  intro cs
  have rest := stays_of_notMem plain cs
  rw [List.append_assoc, List.singleton_append] at rest
  rw [List.cons_append, List.append_assoc, List.singleton_append, replaceFrom, if_pos rfl,
    replacement?_predefined known letters]
  exact congrArg ('&' :: ·) (rest.trans (by simp))

theorem stays_number (h : '&' ∉ xs) : Stays ('&' :: '#' :: xs) := by
  intro cs
  have number : '&' ∉ '#' :: xs := by simpa using h
  have rest := stays_of_notMem number cs
  rw [List.cons_append, List.cons_append, replaceFrom, if_pos rfl, replacement?_number]
  exact congrArg ('&' :: ·) rest

/-- A character of text stays as it is written. -/
theorem stays_escapeText (c : Char) : Stays (escapeText c) := by
  rcases escapeText_cases c with ⟨-, eq⟩ | ⟨-, eq⟩ | ⟨-, eq⟩ | ⟨plain, eq⟩
  · rw [eq]
    exact @stays_predefined "amp" rfl (by decide)
  · rw [eq]
    exact @stays_predefined "lt" rfl (by decide)
  · rw [eq]
    exact @stays_predefined "gt" rfl (by decide)
  · rw [eq]
    exact stays_of_notMem (by simpa using plain.1.symm)

/-- A character of an attribute's value stays as it is written. -/
theorem stays_escapeAttribute (mark c : Char) : Stays (escapeAttribute mark c) := by
  unfold escapeAttribute
  split
  · exact stays_number (by decide)
  split
  · exact stays_number (by decide)
  split
  · exact stays_number (by decide)
  split
  · exact @stays_predefined "quot" rfl (by decide)
  · exact stays_escapeText c

/-! ### Nodes -/

theorem stays_name {s : String} (named : isName s.toList = true) : Stays s.toList := by
  refine stays_of_notMem fun mem => ?_
  exact absurd ((chars_of_isName named).1 _ mem) (by decide)

theorem stays_layout {cs : List Char} (h : cs.all Reading.isLayout = true) : Stays cs := by
  refine stays_of_notMem fun mem => ?_
  exact absurd (List.all_eq_true.mp h _ mem) (by decide)

theorem stays_writeAttribute {name : String} (named : isName name.toList = true) (value : String) :
    Stays (writeAttribute name value) := by
  have mark : Stays [valueMark value.toList] := by
    rcases Reading.valueMark_cases value.toList with eq | ⟨eq, -⟩
    · rw [eq]
      exact stays_of_notMem (by decide)
    · rw [eq]
      exact stays_of_notMem (by decide)
  have escaped : Stays (value.toList.flatMap (escapeAttribute (valueMark value.toList))) :=
    stays_flatMap fun c _ => stays_escapeAttribute _ c
  have quoted := mark.append (escaped.append mark)
  exact stays_cons (by decide) ((stays_name named).append (stays_cons (by decide) quoted))

theorem stays_startTag {name : String} {attributes : List (String × String)}
    (named : isName name.toList = true) (legible : AreAttributes attributes) :
    Stays (startTag name attributes) := by
  have attributes_ : Stays (attributes.flatMap fun a => writeAttribute a.1 a.2) :=
    stays_flatMap fun a mem => stays_writeAttribute (legible.legible a mem).1 a.2
  exact stays_cons (by decide)
    (((stays_name named).append attributes_).append (stays_of_notMem (by decide)))

theorem stays_endTag {name : String} (named : isName name.toList = true) :
    Stays (endTag name) :=
  stays_cons (by decide) (stays_cons (by decide)
    ((stays_name named).append (stays_of_notMem (by decide))))

variable {style : Style}

mutual

/-- Nothing is replaced in a legible node. -/
theorem stays_writeNode (plain : style.isPlain = true) (depth : Nat) (n : Node)
    (h : n.IsLegible) : Stays (writeNode style depth n) := by
  have margin := stays_layout (Style.margin_layout plain depth)
  have lineEnd := stays_layout (Style.lineEnd_layout style)
  have text (s : String) : Stays (s.toList.flatMap escapeText) :=
    stays_flatMap fun c _ => stays_escapeText c
  cases n with
  | comment s =>
    cases s with
    | none => exact stays_nil
    | some s =>
      rw [writeNode]
      have open_ : Stays "<!--".toList := stays_of_notMem (by decide)
      have close : Stays "-->".toList := stays_of_notMem (by decide)
      exact (((margin.append open_).append (text s)).append close).append lineEnd
  | element name attributes children s =>
    obtain ⟨⟨named, legible⟩, inside, -⟩ := h
    have children_ := stays_writeNodes plain (depth + 1) children inside
    have opened := margin.append (stays_startTag named legible)
    have ifSome {P : Prop} [Decidable P] {xs : List Char} (h : Stays xs) :
        Stays (if P then [] else xs) := by
      split
      · exact stays_nil
      · exact h
    rw [writeNode]
    exact (((((opened.append (ifSome lineEnd)).append children_).append (text s)).append
      (ifSome margin)).append (stays_endTag named)).append (ifSome lineEnd)

theorem stays_writeNodes (plain : style.isPlain = true) (depth : Nat) (nodes : List Node)
    (h : AreLegible nodes) : Stays (writeNodes style depth nodes) := by
  cases nodes with
  | nil => exact stays_nil
  | cons n nodes =>
    rw [writeNodes]
    exact (stays_writeNode plain depth n h.1).append (stays_writeNodes plain depth nodes h.2)

end

/-! ### Definitions -/

/-- Nothing is replaced in the text of a definition that is read where it was
written. -/
theorem replaceEntities_write (plain : style.isPlain = true) {es : Entries} {text : String}
    {w : Tree} (written : write style (.map es) = .ok text)
    (read : reread rootName (.map es) = .ok w) : replaceEntities text = text := by
  obtain ⟨n, element, read⟩ := bind_eq_ok_iff.mp read
  have legible := (exists_read_iff element).mp ⟨w, read⟩
  have eq : text = String.ofList (writeNodes style 0 [n]) := by
    have bound := write_bind style es (@Except.ok Failure String)
    rw [written, element] at bound
    exact Except.ok.inj bound
  have stays := stays_writeNodes plain 0 [n] ⟨legible, trivial⟩ []
  rw [List.append_nil] at stays
  rw [eq, replaceEntities, String.toList_ofList, stays, replaceFrom, List.append_nil]

end DefinitionTree.Xml
