/-
DefinitionTree/Proofs/Canonical/Markup.lean

Reading what was written as markup.

Here the wire form becomes the element of a document, and is read again.  A text
comes back if its element gives it back, and it is no number with too many
digits; the words for truth values come back only where a text is declared.
Numbers come back where no text is, and names have to be names of markup.

Main statement:

* `Passage.markup`: the passage through markup.
-/
import DefinitionTree.Proofs.Canonical.Mapping
import DefinitionTree.Proofs.Xml.Scalar
import DefinitionTree.Proofs.Xml.Sentinel

namespace DefinitionTree

open Xml

/-! ### What is let in -/

/-- The text is a word for a truth value. -/
def isTruthWord (s : String) : Bool := s == "true" || s == "false"

/-- Texts that elements give back, truth values, and integers that are not too
long, each where it is read as what it is. -/
def Admission.markup : Admission where
  leaf type t :=
    match t with
    | .text s => (isClean s = true ∧ isOverlong s.toList = false)
        ∧ (isTruthWord s = true → type.any (·.isString) = true)
    | .bool _ => True
    | .int i => (dropMinus (Numeral.ofInt i)).length ≤ Numeral.digitLimit
        ∧ type.any (·.isString) = false
    | _ => False
  name s := isName s.toList = true ∧ isTruthWord s = false
  isScalar := by
    intro type t h
    cases t with
    | text _ => trivial
    | bool _ => trivial
    | int _ => trivial
    | null => exact h
    | float _ => trivial
    | ref _ _ => exact h
    | list _ => exact h
    | map _ => exact h

namespace Passage

/-! ### What scalars are read as -/

variable {name : String} {type : Option TypeRef}

/-- The sentinel of a text is read as one, and says the same. -/
theorem reread_stringSentinel (named : isName name.toList = true) {s : String}
    (clean : isClean s = true) (short : isOverlong s.toList = false) :
    ∃ fs, reread name (.map [Wire.Sentinel.string.mark, (Wire.textKey, .text s)]) = .ok (.map fs)
      ∧ Wire.sentinelOf? fs = some .string ∧ (Wire.textIn fs).toText = .ok s := by
  rw [reread_marked named _ (isClean_iff.mp clean).1, heldText_of_isClean clean]
  split
  · rename_i none
    have empty : s = "" := String.toList_eq_nil_iff.mp none
    subst empty
    exact ⟨_, rfl, rfl, rfl⟩
  · rename_i some_
    have ne : s ≠ "" := fun eq => some_ (String.toList_eq_nil_iff.mpr eq)
    obtain ⟨t, value⟩ := (exists_literal_iff s).mpr short
    rw [textValue_of_isClean clean ne, value]
    refine ⟨_, rfl, rfl, ?_⟩
    show t.toText = _
    rw [Tree.toText_eq_ok (isWritable_of_literal value), scalarText_of_literal value]

/-- The sentinel of a truth value is read as one, and says the same. -/
theorem reread_booleanSentinel (named : isName name.toList = true) (b : Bool) :
    ∃ fs, reread name (Wire.wrap (.bool b)) = .ok (.map fs)
      ∧ Wire.sentinelOf? fs = some .boolean ∧ Wire.textIn fs = .bool b := by
  have words : ∀ b, isClean (Tree.bool b).scalarText = true ∧ (Tree.bool b).scalarText ≠ ""
      ∧ literal (Tree.bool b).scalarText = .ok (.bool b) := by
    intro b
    cases b
    · exact ⟨by decide, by decide, rfl⟩
    · exact ⟨by decide, by decide, rfl⟩
  obtain ⟨clean, some_, value⟩ := words b
  rw [Wire.wrap, reread_marked named _ (isClean_iff.mp clean).1, heldText_of_isClean clean,
    if_neg fun none => some_ (String.toList_eq_nil_iff.mp none), textValue_of_isClean clean some_,
    value]
  exact ⟨_, rfl, rfl, rfl⟩

/-- A text that does not read as a number stands for itself or for a truth
value. -/
theorem reread_text (named : isName name.toList = true) {s : String} (clean : isClean s = true)
    (word : Text.isNumberLike s = false) :
    reread name (.text s)
      = .ok (if s = "true" then .bool true else if s = "false" then .bool false else .text s) := by
  obtain ⟨chars, -, -⟩ := isClean_iff.mp clean
  have some_ : s ≠ "" := by
    rintro rfl
    exact absurd word (by decide)
  exact (@reread_leaf (.text s) rfl rfl name named chars).trans
    ((textValue_of_isClean clean some_).trans (literal_of_not_numberLike word))

/-- An integer is read as the number it is. -/
theorem reread_int (named : isName name.toList = true) {i : Int}
    (short : (dropMinus (Numeral.ofInt i)).length ≤ Numeral.digitLimit) :
    reread name (.int i) = .ok (.int i) := by
  have some_ : Numeral.text i ≠ "" := by
    intro eq
    have whole := (ofInt_facts i).1
    rw [← @String.toList_ofList (Numeral.ofInt i), ← Numeral.text, eq] at whole
    cases whole
  have chars := (isClean_iff.mp (isClean_text i)).1
  exact (@reread_leaf (.int i) rfl (isWritable_int_iff.mpr short) name named chars).trans
    ((textValue_of_isClean (isClean_text i) some_).trans (literal_of_int short))

/-! ### The passage -/

/-- The tree is something where it is read again, under whatever name. -/
def IsReread (t : Tree) : Prop :=
  (∀ ts, t ≠ .list ts) ∧ ∀ name, isName name.toList = true → ∃ w, reread name t = .ok w ∧ w ≠ .null

theorem isReread_text {s : String} (clean : isClean s = true)
    (short : isOverlong s.toList = false) : IsReread (Wire.wrap (.text s)) := by
  rw [Wire.wrap]
  split
  · refine ⟨by simp, fun name named => ?_⟩
    obtain ⟨fs, read, -⟩ := reread_stringSentinel named clean short
    exact ⟨_, read, by simp⟩
  · rename_i word
    refine ⟨by simp, fun name named => ⟨_, reread_text named clean (by simpa using word), ?_⟩⟩
    split
    · simp
    split <;> simp

theorem isReread_leaf {t : Tree} (h : Admission.markup.leaf type t) :
    IsReread (Wire.wrap t) := by
  cases t with
  | text s => exact isReread_text h.1.1 h.1.2
  | bool b =>
    refine ⟨by simp [Wire.wrap], fun name named => ?_⟩
    obtain ⟨fs, read, -⟩ := reread_booleanSentinel named b
    exact ⟨_, read, by simp⟩
  | int i => exact ⟨by simp [Wire.wrap], fun name named => ⟨_, reread_int named h.1, by simp⟩⟩
  | null => exact h.elim
  | float => exact h.elim
  | ref => exact h.elim
  | list => exact h.elim
  | map => exact h.elim

theorem isReread_array {ts : List Tree} (some_ : ts ≠ []) (all : ∀ t ∈ ts, IsReread t) :
    IsReread (Wire.arraySentinel ts) := by
  refine ⟨by simp [Wire.arraySentinel], fun name named => ?_⟩
  have each : ∀ t ∈ ts, ∃ u, reread "_ITEM_" t = .ok u := by
    intro t mem
    obtain ⟨u, read, -⟩ := (all t mem).2 _ itemName
    exact ⟨u, read⟩
  obtain ⟨us, reads⟩ := exists_forall₂ each
  exact ⟨_, (reread_array named some_).mpr ⟨us, reads, rfl⟩, by simp⟩

/-- The items of a list are found again, be it one or more. -/
theorem items_joined {ts us : List Tree} (some_ : ts ≠ []) (all : ∀ t ∈ ts, IsReread t)
    (reads : List.Forall₂ (fun t u => reread "_ITEM_" t = .ok u) ts us) :
    Wire.items (some (joined us)) = us := by
  match ts, us, reads with
  | [], _, _ => exact absurd rfl some_
  | [t], [u], .cons read .nil =>
    obtain ⟨w, read', ne⟩ := (all t List.mem_cons_self).2 _ itemName
    cases read'.symm.trans read
    have noList := ne_list_of_reread read
    rw [joined, Wire.items]
    · simpa using ne
    · exact noList
  | _ :: _ :: _, _ :: _ :: _, _ => rfl

/-- The keys of an admitted mapping are names of markup. -/
theorem isName_of_entry {e : Key × Tree}
    (h : ∃ s, e.1 = .text s ∧ (e.1 = Wire.tagKey ∨ IsPlainName s ∧ Admission.markup.name s)) :
    ∃ s, e.1 = .text s ∧ isName s.toList = true := by
  obtain ⟨s, eq, tag | ⟨-, named, -⟩⟩ := h
  · exact ⟨"_T_", tag, by decide⟩
  · exact ⟨s, eq, named⟩

/-- Entries whose keys are names of markup, and whose values can be read, are read one by
one. -/
theorem exists_rereads {es : Entries}
    (all : ∀ e ∈ es, (∃ s, e.1 = .text s ∧ isName s.toList = true) ∧ IsReread e.2) :
    ∃ fs, List.Forall₂ Rereads es fs := by
  refine exists_forall₂ fun e mem => ?_
  obtain ⟨⟨s, eq, named⟩, -, reads⟩ := all e mem
  obtain ⟨w, read, -⟩ := reads s named
  exact ⟨(e.1, w), rfl, s, eq, read⟩

theorem isReread_map {es : Entries} (some_ : es ≠ []) (distinct : (keysOf es).Nodup)
    (all : ∀ e ∈ es, (∃ s, e.1 = .text s ∧ isName s.toList = true) ∧ IsReread e.2) :
    IsReread (.map es) := by
  refine ⟨by simp, fun name named => ?_⟩
  have children : ∀ e ∈ es, IsChild e := fun e he => ⟨(all e he).1, (all e he).2.1⟩
  obtain ⟨fs, reads⟩ := exists_rereads all
  exact ⟨_, (reread_map named some_ children distinct).mpr ⟨fs, reads, rfl⟩, by simp⟩

/-- A truth word was let in only where it is declared to be a text. -/
theorem gives_truth {n : Normalizer} {s : String} {b : Bool}
    (word : isTruthWord s = true → type.any (·.isString) = true)
    (spelled : s = (Tree.bool b).scalarText) : n.Gives type (.bool b) (.ok (.text s)) := by
  have declared : type.any (·.isString) = true :=
    word (by cases b <;> simp [spelled, isTruthWord, Tree.scalarText])
  have visited : Normalizer.visitScalar type (.bool b) = .ok (.text s) := by
    rw [Normalizer.visitScalar, if_pos declared, spelled]
    rfl
  exact Normalizer.gives_scalar rfl (fun _ => rfl) visited

/-- The value of a scalar that was let in is what it is decoded to. -/
theorem gives_reread {n : Normalizer} (lookup : n.lookup = none) {t w : Tree}
    (h : Admission.markup.leaf type t) (named : isName name.toList = true)
    (read : reread name (Wire.wrap t) = .ok w) : n.Gives type w (.ok t) := by
  cases t with
  | text s =>
    obtain ⟨⟨clean, short⟩, word⟩ := h
    rw [Wire.wrap] at read
    split at read
    · obtain ⟨fs, eq, mark, text⟩ := reread_stringSentinel named clean short
      cases eq.symm.trans read
      exact Normalizer.gives_string mark text
    · rename_i numberLike
      have eq := reread_text named clean (by simpa using numberLike)
      have outcome := (Except.ok.inj (eq.symm.trans read)).symm
      subst outcome
      split
      · rename_i spelled
        exact gives_truth word spelled
      split
      · rename_i spelled
        exact gives_truth word spelled
      · exact Normalizer.gives_text (Normalizer.isUnresolved_of_no_lookup lookup s)
  | bool b =>
    obtain ⟨fs, eq, mark, held⟩ := reread_booleanSentinel named b
    cases eq.symm.trans read
    have text : (Wire.textIn fs).toText = .ok (Tree.bool b).scalarText := by
      rw [held]
      rfl
    have gives := @Normalizer.gives_boolean n type fs _ mark text
    rwa [held] at gives
  | int i =>
    have eq : reread name (.int i) = .ok (.int i) := reread_int named h.1
    cases eq.symm.trans read
    exact Normalizer.gives_number rfl (fun _ => rfl) h.2
  | null => exact h.elim
  | float => exact h.elim
  | ref => exact h.elim
  | list => exact h.elim
  | map => exact h.elim

/-- What is written is read again as an element. -/
def markup (n : Normalizer) (lookup : n.lookup = none) : Passage n .markup where
  carries t w := ∃ name, isName name.toList = true ∧ reread name t = .ok w
  takes := IsReread
  takes_leaf := isReread_leaf
  takes_mark := fun _ => ⟨by simp, fun _ named => ⟨_, reread_mark named _, by simp⟩⟩
  takes_array := isReread_array
  takes_tag := fun h => isReread_text (isClean_of_isName h.1) (isOverlong_of_isName h.1)
  takes_map := fun some_ distinct all =>
    isReread_map some_ distinct fun e he => ⟨isName_of_entry (all e he).1, (all e he).2⟩
  leaf := by
    rintro type t w h ⟨name, named, read⟩
    exact gives_reread lookup h named read
  mark := by
    rintro s w h ⟨name, named, read⟩
    cases (reread_mark named s).symm.trans read
    refine ⟨_, rfl, ?_, rfl⟩
    cases s <;> rfl
  array := by
    rintro ts w some_ all ⟨name, named, read⟩
    obtain ⟨us, reads, rfl⟩ := (reread_array named some_).mp read
    refine ⟨_, rfl, rfl, ?_⟩
    show List.Forall₂ _ ts (Wire.items (some (joined us)))
    rw [items_joined some_ all reads]
    exact reads.imp fun t u read => ⟨_, itemName, read⟩
  tag := by
    rintro s w ⟨named, noWord⟩ ⟨name, named', read⟩
    have clean := isClean_of_isName named
    rw [Wire.wrap] at read
    split at read
    · rename_i numberLike
      obtain ⟨fs, eq, -⟩ := reread_stringSentinel named' clean (isOverlong_of_isName named)
      cases eq.symm.trans read
      rw [if_pos numberLike]
      rfl
    · rename_i numberLike
      have eq := reread_text named' clean (by simpa using numberLike)
      simp only [isTruthWord, Bool.or_eq_false_iff, beq_eq_false_iff_ne] at noWord
      rw [if_neg noWord.1, if_neg noWord.2] at eq
      cases eq.symm.trans read
      rw [if_neg numberLike]
      rfl
  map := by
    rintro es w some_ distinct all ⟨name, named, read⟩
    have children : ∀ e ∈ es, IsChild e :=
      fun e he => ⟨isName_of_entry (all e he).1, (all e he).2.1⟩
    obtain ⟨fs, reads, rfl⟩ := (reread_map named some_ children distinct).mp read
    refine ⟨fs, rfl, ?_⟩
    clear some_ distinct named read all
    induction reads with
    | nil => exact .nil
    | cons here _ ih =>
      obtain ⟨⟨⟨s, eq, named⟩, -⟩, rest⟩ := List.forall_mem_cons.mp children
      obtain ⟨same, s', eq', read⟩ := here
      cases eq.symm.trans eq'
      exact .cons ⟨same, s, named, read⟩ (ih rest)

end Passage

end DefinitionTree
