/-
DefinitionTree/Text/Dotted.lean

Dotted names: segments with a full stop between them.

`segments` cuts a text at every full stop and `dotted` puts segments together.
Putting together what was cut gives the text back (`dotted_segments`), and
cutting what was put together gives the segments back as long as none of them
holds a full stop itself (`segments_dotted`).
-/

namespace DefinitionTree.Text

/-! ### Cutting and joining -/

/-- Cuts at every full stop. -/
def cut : List Char → List (List Char)
  | [] => [[]]
  | c :: cs =>
    if c = '.' then [] :: cut cs
    else match cut cs with
      | [] => [[c]]
      | s :: rest => (c :: s) :: rest

/-- Puts segments together with a full stop between two. -/
def join : List (List Char) → List Char
  | [] => []
  | [s] => s
  | s :: rest => s ++ '.' :: join rest

/-- The segments of a dotted name. -/
def segments (s : String) : List String := (cut s.toList).map String.ofList

/-- The dotted name with the given segments. -/
def dotted (ss : List String) : String := String.ofList (join (ss.map String.toList))

/-! ### Either undoes the other -/

theorem cut_ne_nil (cs : List Char) : cut cs ≠ [] := by
  cases cs with
  | nil => simp [cut]
  | cons c cs =>
    simp only [cut]
    split
    · simp
    · split <;> simp

theorem join_cons {s : List Char} {rest : List (List Char)} (h : rest ≠ []) :
    join (s :: rest) = s ++ '.' :: join rest := by
  cases rest with
  | nil => exact absurd rfl h
  | cons => rfl

theorem join_cut (cs : List Char) : join (cut cs) = cs := by
  induction cs with
  | nil => rfl
  | cons c cs ih =>
    by_cases h : c = '.'
    · simp [cut, h, join_cons (cut_ne_nil cs), ih]
    · obtain ⟨s, rest, e⟩ := List.exists_cons_of_ne_nil (cut_ne_nil cs)
      rw [e] at ih
      cases rest with
      | nil => simp_all [cut, join]
      | cons => simp_all [cut, join]

theorem dotted_segments (s : String) : dotted (segments s) = s := by
  have e : (String.toList ∘ String.ofList) = id := funext fun cs => String.toList_ofList
  simp [dotted, segments, List.map_map, e, join_cut, String.ofList_toList]

theorem cut_eq_self {s : List Char} (h : '.' ∉ s) : cut s = [s] := by
  induction s with
  | nil => rfl
  | cons c s ih =>
    have ⟨hc, hs⟩ : '.' ≠ c ∧ '.' ∉ s := by simpa using h
    simp [cut, Ne.symm hc, ih hs]

theorem cut_append {s : List Char} (h : '.' ∉ s) (t : List Char) :
    cut (s ++ '.' :: t) = s :: cut t := by
  induction s with
  | nil => simp [cut]
  | cons c s ih =>
    have ⟨hc, hs⟩ : '.' ≠ c ∧ '.' ∉ s := by simpa using h
    simp [cut, Ne.symm hc, ih hs]

theorem cut_join {ss : List (List Char)} (ne : ss ≠ []) (h : ∀ s ∈ ss, '.' ∉ s) :
    cut (join ss) = ss := by
  induction ss with
  | nil => exact absurd rfl ne
  | cons s rest ih =>
    cases rest with
    | nil => exact cut_eq_self (h s (by simp))
    | cons t rest =>
      rw [join_cons (by simp), cut_append (h s (by simp)),
        ih (by simp) fun u hu => h u (by simp [hu])]

theorem segments_dotted {ss : List String} (ne : ss ≠ [])
    (h : ∀ s ∈ ss, '.' ∉ s.toList) : segments (dotted ss) = ss := by
  have e : (String.ofList ∘ String.toList) = id := funext fun s => String.ofList_toList
  rw [segments, dotted, String.toList_ofList, cut_join (by simpa using ne)]
  · simp [List.map_map, e]
  · simpa using h

end DefinitionTree.Text
