/-
DefinitionTree/Proofs/Xml/Scanning.lean

What is made of a text before it is read as markup.

Named entities are replaced and line breaks unified before anything is read.
Neither touches a character other than an ampersand or a carriage return, and
the references that are written stay as they are, since the entities of markup
itself and numeric references are not replaced.

Main statements:

* `Xml.scan_cons`, `Xml.scan_append`: characters that stay;
* `Xml.scan_predefined`, `Xml.scan_number`: references that stay;
* `Xml.scan_ampersand`: an ampersand is never lost;
* `Xml.scan_break`, `Xml.scan_carriageReturn`: carriage returns;
* `Xml.scan_escapeText`: text that is written.
-/
import DefinitionTree.Xml.Document

namespace DefinitionTree.Xml

/-- A text with its entities replaced and its line breaks unified. -/
def scan (cs : List Char) : List Char := unifyLineBreaks (replaceFrom 0 cs)

variable {c : Char} {cs xs : List Char}

/-! ### Characters that stay -/

theorem unifyLineBreaks_cons (h : c ≠ '\r') (cs : List Char) :
    unifyLineBreaks (c :: cs) = c :: unifyLineBreaks cs := by
  rw [unifyLineBreaks]
  · rintro rest rfl
    exact absurd rfl h
  · rintro rfl
    exact absurd rfl h

/-- Without a carriage return there is no line break to unify. -/
theorem unifyLineBreaks_append (none : '\r' ∉ cs) (rest : List Char) :
    unifyLineBreaks (cs ++ rest) = cs ++ unifyLineBreaks rest := by
  induction cs with
  | nil => rfl
  | cons c cs ih =>
    simp only [List.mem_cons, not_or] at none
    rw [List.cons_append, unifyLineBreaks_cons (Ne.symm none.1), ih none.2]
    rfl

theorem unifyLineBreaks_eq_self (none : '\r' ∉ cs) : unifyLineBreaks cs = cs := by
  simpa [unifyLineBreaks] using unifyLineBreaks_append none []

/-- The character is neither an ampersand nor a carriage return. -/
def staysAsIs (c : Char) : Bool := c != '&' && c != '\r'

theorem scan_cons (h : staysAsIs c = true) (cs : List Char) : scan (c :: cs) = c :: scan cs := by
  simp only [staysAsIs, Bool.and_eq_true, bne_iff_ne] at h
  rw [scan, replaceFrom, if_neg h.1, unifyLineBreaks_cons h.2]
  rfl

theorem scan_append (h : xs.all staysAsIs = true) (cs : List Char) :
    scan (xs ++ cs) = xs ++ scan cs := by
  induction xs with
  | nil => rfl
  | cons c xs ih =>
    rw [List.all_cons, Bool.and_eq_true] at h
    rw [List.cons_append, scan_cons h.1, ih h.2]
    rfl

/-! ### References that stay -/

/-- An ampersand in front of an entity of markup itself stays. -/
theorem replacement?_predefined {name : String} (known : (predefined.lookup name).isSome = true)
    (letters : name.toList.all Char.isAlphanum = true) (cs : List Char) :
    replacement? (name.toList ++ ';' :: cs) = none := by
  have front : (name.toList ++ ';' :: cs).takeWhile Char.isAlphanum = name.toList := by
    rw [List.takeWhile_append_of_pos (by simpa using letters)]
    simp
  rw [replacement?, front, String.ofList_toList, Option.isNone_eq_false_iff.mpr known,
    Bool.and_false]
  rfl

theorem scan_predefined {name : String} (known : (predefined.lookup name).isSome = true)
    (letters : name.toList.all Char.isAlphanum = true)
    (stays : name.toList.all staysAsIs = true) (cs : List Char) :
    scan ('&' :: (name.toList ++ ';' :: cs)) = '&' :: (name.toList ++ ';' :: scan cs) := by
  have rest : scan (name.toList ++ ';' :: cs) = name.toList ++ ';' :: scan cs := by
    rw [scan_append stays, scan_cons (by decide)]
  rw [← rest, scan, replaceFrom, if_pos rfl, replacement?_predefined known letters,
    unifyLineBreaks_cons (by decide)]
  rfl

/-- An ampersand in front of the number of a character stays. -/
theorem replacement?_number (cs : List Char) : replacement? ('#' :: cs) = none := by
  have front : ('#' :: cs).takeWhile Char.isAlphanum = [] := by
    rw [List.takeWhile_cons, if_neg (by decide)]
  rw [replacement?, front]
  rfl

theorem scan_number {ds : List Char} (stays : ds.all staysAsIs = true) (cs : List Char) :
    scan ('&' :: '#' :: (ds ++ ';' :: cs)) = '&' :: '#' :: (ds ++ ';' :: scan cs) := by
  have rest : scan ('#' :: (ds ++ ';' :: cs)) = '#' :: (ds ++ ';' :: scan cs) := by
    rw [scan_cons (by decide), scan_append stays, scan_cons (by decide)]
  rw [← rest, scan, replaceFrom, if_pos rfl, replacement?_number, unifyLineBreaks_cons (by decide)]
  rfl

/-! ### Other ampersands -/

/-- Every named entity stands for at least one character. -/
theorem named_ne_nil : ∀ table ∈ namedByLetter, ∀ entity ∈ table.2, entity.2 ≠ [] := by
  decide +kernel

theorem mem_of_lookup {α β : Type} [BEq α] [LawfulBEq α] {xs : List (α × β)} {a : α} {b : β}
    (h : xs.lookup a = some b) : (a, b) ∈ xs := by
  obtain ⟨front, back, rfl, -⟩ := List.lookup_eq_some_iff.mp h
  exact List.mem_append_right _ List.mem_cons_self

/-- The entity of a name stands for some characters. -/
theorem named?_ne_nil {name : List Char} {ns : List Nat} (named : named? name = some ns) :
    ns ≠ [] := by
  unfold named? at named
  split at named
  · cases named
  · obtain ⟨table, byLetter, byName⟩ := Option.bind_eq_some_iff.mp named
    exact named_ne_nil _ (mem_of_lookup byLetter) _ (mem_of_lookup byName)

/-- What replaces an entity starts with an ampersand again. -/
theorem head?_of_replacement? {taken : Nat} (h : replacement? cs = some (xs, taken)) :
    ∃ ys, xs = '&' :: ys := by
  simp only [replacement?] at h
  split at h
  · obtain ⟨ns, named, eq⟩ := Option.map_eq_some_iff.mp h
    cases eq
    obtain ⟨n, ns, rfl⟩ := List.exists_cons_of_ne_nil (named?_ne_nil named)
    exact ⟨_, rfl⟩
  · cases h

/-- Whatever follows it, an ampersand is read as one. -/
theorem replaceFrom_ampersand (cs : List Char) : ∃ ds, replaceFrom 0 ('&' :: cs) = '&' :: ds := by
  rw [replaceFrom, if_pos rfl]
  rcases replaced : replacement? cs with - | ⟨xs, taken⟩
  · exact ⟨_, rfl⟩
  · obtain ⟨ys, rfl⟩ := head?_of_replacement? replaced
    exact ⟨_, rfl⟩

theorem scan_ampersand (cs : List Char) : ∃ ds, scan ('&' :: cs) = '&' :: ds := by
  obtain ⟨ds, eq⟩ := replaceFrom_ampersand cs
  rw [scan, eq, unifyLineBreaks_cons (by decide)]
  exact ⟨_, rfl⟩

/-! ### Carriage returns -/

/-- A carriage return and the line feed behind it are one line break. -/
theorem scan_break (cs : List Char) : scan ('\r' :: '\n' :: cs) = '\n' :: scan cs := by
  rw [scan, replaceFrom, if_neg (by decide), replaceFrom, if_neg (by decide), unifyLineBreaks]
  rfl

/-- A line feed comes first only if it was there. -/
theorem head?_replaceFrom (h : cs.head? ≠ some '\n') : (replaceFrom 0 cs).head? ≠ some '\n' := by
  cases cs with
  | nil => exact h
  | cons c cs =>
    by_cases ampersand : c = '&'
    · subst ampersand
      obtain ⟨ds, eq⟩ := replaceFrom_ampersand cs
      rw [eq]
      simp
    · rw [replaceFrom, if_neg ampersand]
      exact h

/-- A carriage return alone is one, too. -/
theorem scan_carriageReturn (h : cs.head? ≠ some '\n') : scan ('\r' :: cs) = '\n' :: scan cs := by
  have next := head?_replaceFrom h
  rw [scan, replaceFrom, if_neg (by decide), unifyLineBreaks]
  · rfl
  · intro rest eq
    rw [eq] at next
    exact absurd rfl next

/-! ### Text -/

theorem scan_amp (cs : List Char) : scan ("&amp;".toList ++ cs) = "&amp;".toList ++ scan cs :=
  @scan_predefined "amp" rfl (by decide) (by decide) cs

theorem scan_lt (cs : List Char) : scan ("&lt;".toList ++ cs) = "&lt;".toList ++ scan cs :=
  @scan_predefined "lt" rfl (by decide) (by decide) cs

theorem scan_gt (cs : List Char) : scan ("&gt;".toList ++ cs) = "&gt;".toList ++ scan cs :=
  @scan_predefined "gt" rfl (by decide) (by decide) cs

theorem scan_quot (cs : List Char) : scan ("&quot;".toList ++ cs) = "&quot;".toList ++ scan cs :=
  @scan_predefined "quot" rfl (by decide) (by decide) cs

/-- A character of text is escaped, or stays as it is. -/
theorem escapeText_cases (c : Char) :
    c = '&' ∧ escapeText c = "&amp;".toList ∨ c = '<' ∧ escapeText c = "&lt;".toList ∨
      c = '>' ∧ escapeText c = "&gt;".toList ∨
      (c ≠ '&' ∧ c ≠ '<' ∧ c ≠ '>') ∧ escapeText c = [c] := by
  unfold escapeText
  by_cases amp : c = '&'
  · exact .inl ⟨amp, if_pos amp⟩
  · by_cases lt : c = '<'
    · exact .inr (.inl ⟨lt, by rw [if_neg amp, if_pos lt]⟩)
    · by_cases gt : c = '>'
      · exact .inr (.inr (.inl ⟨gt, by rw [if_neg amp, if_neg lt, if_pos gt]⟩))
      · exact .inr (.inr (.inr ⟨⟨amp, lt, gt⟩, by rw [if_neg amp, if_neg lt, if_neg gt]⟩))

/-- Escaping a text puts no line feed in front of it. -/
theorem head?_escapeText {rest : List Char} (first : cs.head? ≠ some '\n')
    (behind : rest.head? ≠ some '\n') : (cs.flatMap escapeText ++ rest).head? ≠ some '\n' := by
  cases cs with
  | nil => exact behind
  | cons c cs =>
    rw [List.flatMap_cons]
    rcases escapeText_cases c with ⟨-, eq⟩ | ⟨-, eq⟩ | ⟨-, eq⟩ | ⟨-, eq⟩
    · simp [eq]
    · simp [eq]
    · simp [eq]
    · simpa [eq] using first

/-- An escaped text is the escaped form of what it is read as. -/
theorem scan_escapeText {rest : List Char} (behind : rest.head? ≠ some '\n') (cs : List Char) :
    scan (cs.flatMap escapeText ++ rest) = (unifyLineBreaks cs).flatMap escapeText ++ scan rest := by
  fun_induction unifyLineBreaks cs with
  | case1 => rfl
  | case2 cs ih => exact (scan_break _).trans (congrArg ('\n' :: ·) ih)
  | case3 cs single ih =>
    have first : cs.head? ≠ some '\n' := by
      intro eq
      obtain ⟨ds, rfl⟩ := List.head?_eq_some_iff.mp eq
      exact single ds rfl
    exact (scan_carriageReturn (head?_escapeText first behind)).trans (congrArg ('\n' :: ·) ih)
  | case4 c cs _ single ih =>
    have noReturn : c ≠ '\r' := fun eq => single eq
    rw [List.flatMap_cons, List.flatMap_cons, List.append_assoc, List.append_assoc, ← ih]
    rcases escapeText_cases c with ⟨rfl, eq⟩ | ⟨rfl, eq⟩ | ⟨rfl, eq⟩ | ⟨plain, eq⟩
    · exact scan_amp _
    · exact scan_lt _
    · exact scan_gt _
    · rw [eq]
      exact scan_cons (by simp [staysAsIs, plain.1, noReturn]) _

end DefinitionTree.Xml
