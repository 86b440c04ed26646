/-
DefinitionTree/Proofs/Json/Unambiguity.lean

Canonical texts are not mistaken for each other.

What kind of value a text holds shows in its first character, and where it ends can be
seen from what follows.  The parts of a list or a mapping are found one after the
other, so whoever reads the text of a tree knows where it ends, whatever stands behind
it.  Floating-point numbers are left out.

Main definitions and statements:

* `Tree.IsTextual`: the trees that are told from each other;
* `Json.exists_first`: what a text begins with;
* `Json.unambiguous_canonical`: where it ends.
-/
import DefinitionTree.Proofs.Json.Form
import DefinitionTree.Proofs.Json.Text
import DefinitionTree.Proofs.Xml.Scalar

namespace DefinitionTree

namespace Tree

/-! ### Trees that can be told -/

/-- The canonical form can tell the tree from others: its keys are texts, it holds no
floating-point number, and no mapping in it looks like a stored reference. -/
structure IsTextual (t : Tree) : Prop where
  keys : t.HasTextKeys
  noFloat : ∀ x, ¬(float x).IsIn t
  plain : ∀ name, ¬(map [(.text refKey, .text name)]).IsIn t

theorem IsTextual.of_isIn {t u : Tree} (h : t.IsTextual) (inside : u.IsIn t) : u.IsTextual where
  keys es found := h.keys es (found.trans inside)
  noFloat x found := h.noFloat x (found.trans inside)
  plain name found := h.plain name (found.trans inside)

theorem IsTextual.of_mem_list {t : Tree} {ts : List Tree} (h : (Tree.list ts).IsTextual)
    (mem : t ∈ ts) : t.IsTextual :=
  h.of_isIn (.item mem (.self t))

theorem IsTextual.of_mem_map {e : Key × Tree} {es : Entries} (h : (Tree.map es).IsTextual)
    (mem : e ∈ es) : e.2.IsTextual :=
  h.of_isIn (.entry mem (.self e.2))

theorem IsTextual.ne_float {t : Tree} (h : t.IsTextual) (x : Binary64) : t ≠ .float x := by
  rintro rfl
  exact h.noFloat x (.self _)

theorem isTextual_leaf {t : Tree} (scalar : t.key?.isSome = true) (noFloat : ∀ x, t ≠ .float x) :
    t.IsTextual where
  keys := hasTextKeys_leaf scalar
  noFloat x found := by
    cases found with
    | self => exact noFloat x rfl
    | item => cases scalar
    | entry => cases scalar
  plain name found := by
    cases found <;> cases scalar

theorem isTextual_text (s : String) : (text s).IsTextual := isTextual_leaf rfl (by simp)

theorem IsTextual.list {ts : List Tree} (each : ∀ t ∈ ts, t.IsTextual) :
    (Tree.list ts).IsTextual where
  keys es found := by
    cases found with
    | item mem inside => exact (each _ mem).keys es inside
  noFloat x found := by
    cases found with
    | item mem inside => exact (each _ mem).noFloat x inside
  plain name found := by
    cases found with
    | item mem inside => exact (each _ mem).plain name inside

theorem IsTextual.map {es : Entries} (keys : Entries.HasTextKeys es)
    (plain : ∀ name, es ≠ [(.text refKey, .text name)]) (each : ∀ e ∈ es, e.2.IsTextual) :
    (Tree.map es).IsTextual where
  keys := .map keys fun e mem => (each e mem).keys
  noFloat x found := by
    cases found with
    | entry mem inside => exact (each _ mem).noFloat x inside
  plain name found := by
    cases found with
    | self => exact plain name rfl
    | entry mem inside => exact (each _ mem).plain name inside

end Tree

namespace Json

open DefinitionTree.Tree (IsTextual)

/-! ### The first character -/

/-- What a value begins with. -/
inductive Lead where
  | word
  | quote
  | bracket
  | brace
deriving DecidableEq

/-- What begins with the character. -/
def leadOf? (c : Char) : Option Lead :=
  if isWordChar c then some .word
  else if c = '"' then some .quote
  else if c = '[' then some .bracket
  else if c = '{' then some .brace
  else none

/-- What the text of a tree begins with. -/
def lead : Tree → Lead
  | .text _ => .quote
  | .list _ => .bracket
  | .map _ => .brace
  | .ref _ _ => .brace
  | _ => .word

theorem word_ofInt (i : Int) :
    Numeral.ofInt i ≠ [] ∧ ∀ c ∈ Numeral.ofInt i, isWordChar c = true := by
  obtain ⟨whole, -, chars⟩ := Xml.ofInt_facts i
  refine ⟨fun none => ?_, fun c mem => ?_⟩
  · rw [none] at whole
    cases whole
  · rcases chars c mem with rfl | digit
    · decide
    · exact @Numeral.forall_isDigit (isWordChar · = true) (by decide) c digit

/-- A scalar that is no text is a word. -/
theorem word_canonical {t : Tree} (noFloat : ∀ x, t ≠ .float x) (word : lead t = .word) :
    canonical t ≠ [] ∧ ∀ c ∈ canonical t, isWordChar c = true := by
  cases t with
  | null => exact ⟨by decide, List.all_eq_true.mp (by decide)⟩
  | bool b => cases b <;> exact ⟨by decide, List.all_eq_true.mp (by decide)⟩
  | int i => exact word_ofInt i
  | float x => exact absurd rfl (noFloat x)
  | _ => cases word

theorem exists_first {t : Tree} (noFloat : ∀ x, t ≠ .float x) :
    ∃ c rest, canonical t = c :: rest ∧ leadOf? c = some (lead t) := by
  have word (isWord : lead t = .word) :
      ∃ c rest, canonical t = c :: rest ∧ leadOf? c = some (lead t) := by
    obtain ⟨some_, chars⟩ := word_canonical noFloat isWord
    obtain ⟨c, rest, eq⟩ := List.exists_cons_of_ne_nil some_
    refine ⟨c, rest, eq, ?_⟩
    rw [leadOf?, if_pos (chars c (eq ▸ List.mem_cons_self)), isWord]
  cases t with
  | text => exact ⟨_, _, rfl, rfl⟩
  | list => exact ⟨_, _, rfl, rfl⟩
  | map => exact ⟨_, _, rfl, rfl⟩
  | ref => exact ⟨_, _, rfl, rfl⟩
  | _ => exact word rfl

theorem begins_canonical {t : Tree} (noFloat : ∀ x, t ≠ .float x) : Begins (canonical t) := by
  obtain ⟨c, rest, eq, leads⟩ := exists_first noFloat
  refine ⟨c, rest, eq, ?_⟩
  rintro (rfl | rfl | rfl) <;> cases leads

/-- Trees with the same text begin alike. -/
theorem lead_eq {t u : Tree} (noFloat : ∀ x, t ≠ .float x) (noFloat' : ∀ x, u ≠ .float x)
    {r r' : List Char} (h : canonical t ++ r = canonical u ++ r') : lead t = lead u := by
  obtain ⟨c, rest, eq, leads⟩ := exists_first noFloat
  obtain ⟨c', rest', eq', leads'⟩ := exists_first noFloat'
  rw [eq, eq'] at h
  obtain rfl := (List.cons.inj h).1
  exact Option.some.inj (leads.symm.trans leads')

/-! ### Where a value ends -/

theorem memberText_inj {m n : String × List Char} (h : memberText m = memberText n) : m = n := by
  obtain ⟨key, rest⟩ := string_append_inj h
  exact Prod.ext key (List.cons.inj rest).2

/-- The texts of two members are unambiguous if those of their values are. -/
theorem unambiguous_memberText {m n : String × List Char} (h : Unambiguous m.2 n.2) :
    Unambiguous (memberText m) (memberText n) := by
  intro r r' ends ends' eq
  rw [memberText, memberText, List.append_assoc, List.append_assoc] at eq
  obtain ⟨key, rest⟩ := string_append_inj eq
  obtain ⟨value, rest⟩ := h r r' ends ends' (List.cons.inj rest).2
  exact ⟨by rw [memberText, memberText, key, value], rest⟩

theorem begins_memberText (m : String × List Char) : Begins (memberText m) :=
  ⟨_, _, rfl, by simp [IsEnd]⟩

theorem bracketed_append_inj {css dss : List (List Char)} {r r' : List Char}
    (begins : ∀ cs ∈ css, Begins cs) (begins' : ∀ ds ∈ dss, Begins ds)
    (apart : ∀ cs ∈ css, ∀ ds ∈ dss, Unambiguous cs ds)
    (h : bracketed css ++ r = bracketed dss ++ r') : css = dss ∧ r = r' := by
  have closing : IsEnd ']' := .inr (.inl rfl)
  refine separated_inj closing (by decide) apart begins begins' ?_
  simpa [bracketed] using h

theorem braced_append_inj {ms ns : List (String × List Char)} {r r' : List Char}
    (apart : ∀ m ∈ ms, ∀ n ∈ ns, Unambiguous m.2 n.2)
    (h : braced ms ++ r = braced ns ++ r') : ms = ns ∧ r = r' := by
  have closing : IsEnd '}' := .inr (.inr rfl)
  have parts : ms.map memberText = ns.map memberText ∧ r = r' := by
    refine separated_inj closing (by decide) ?_ ?_ ?_ ?_
    · simp only [List.forall_mem_map]
      exact fun m mem n mem' => unambiguous_memberText (apart m mem n mem')
    · simp only [List.forall_mem_map]
      exact fun m _ => begins_memberText m
    · simp only [List.forall_mem_map]
      exact fun n _ => begins_memberText n
    · simpa [braced] using h
  exact ⟨(List.map_inj_right fun m n => memberText_inj).mp parts.1, parts.2⟩

/-- A list is told by its items. -/
theorem canonical_list_append_inj {ts us : List Tree} (h : (Tree.list ts).IsTextual)
    (h' : (Tree.list us).IsTextual)
    (apart : ∀ t ∈ ts, ∀ u ∈ us, Unambiguous (canonical t) (canonical u)) {r r' : List Char}
    (eq : canonical (.list ts) ++ r = canonical (.list us) ++ r') :
    ts.map canonical = us.map canonical ∧ r = r' := by
  rw [canonical, canonical, canonicalItems_eq_map, canonicalItems_eq_map] at eq
  refine bracketed_append_inj ?_ ?_ ?_ eq
  · exact List.forall_mem_map.mpr fun t mem => begins_canonical (h.of_mem_list mem).ne_float
  · exact List.forall_mem_map.mpr fun u mem => begins_canonical (h'.of_mem_list mem).ne_float
  · exact List.forall_mem_map.mpr fun t mem => List.forall_mem_map.mpr (apart t mem)

/-- The members of a mapping or a reference. -/
def parts : Tree → List (String × List Char)
  | .ref id _ => [(refKey, string id.fullName)]
  | .map es => byKey (members es)
  | _ => []

theorem canonical_eq_braced {t : Tree} (brace : lead t = .brace) :
    canonical t = braced (parts t) := by
  cases t with
  | ref => rfl
  | map => rfl
  | _ => cases brace

/-- The value of a member is the text of a tree: one in the mapping, or the full name of
the reference. -/
theorem exists_of_mem_parts {t : Tree} {m : String × List Char} (h : m ∈ parts t) :
    (∃ es e, t = .map es ∧ e ∈ es ∧ m = member e) ∨
      ∃ id target, t = .ref id target ∧ m = (refKey, canonical (.text id.fullName)) := by
  cases t with
  | ref id target => exact .inr ⟨id, target, rfl, List.mem_singleton.mp h⟩
  | map es =>
    obtain ⟨e, mem, rfl⟩ := List.mem_map.mp ((byKey_perm es).mem_iff.mp h)
    exact .inl ⟨es, e, rfl, mem, rfl⟩
  | _ => cases h

theorem unambiguous_text (s : String) {u : Tree} (h : u.IsTextual) :
    Unambiguous (canonical (.text s)) (canonical u) := by
  intro r r' _ _ eq
  have kind := lead_eq (Tree.isTextual_text s).ne_float h.ne_float eq
  cases u with
  | text s' =>
    obtain ⟨rfl, rest⟩ := string_append_inj eq
    exact ⟨rfl, rest⟩
  | _ => cases kind

theorem exists_textual {t : Tree} (h : t.IsTextual) {m : String × List Char} (mem : m ∈ parts t) :
    ∃ u, u.IsTextual ∧ m.2 = canonical u := by
  rcases exists_of_mem_parts mem with ⟨es, e, rfl, held, rfl⟩ | ⟨id, target, -, rfl⟩
  · exact ⟨e.2, h.of_mem_map held, rfl⟩
  · exact ⟨_, Tree.isTextual_text id.fullName, rfl⟩

/-- Whether a mapping or a reference can be told depends on its members. -/
theorem unambiguous_braced {t u : Tree} (h : t.IsTextual) (h' : u.IsTextual)
    (brace : lead t = .brace)
    (apart : ∀ m ∈ parts t, ∀ u, u.IsTextual → Unambiguous m.2 (canonical u)) :
    Unambiguous (canonical t) (canonical u) := by
  intro r r' _ _ eq
  have brace' : lead u = .brace := (lead_eq h.ne_float h'.ne_float eq).symm.trans brace
  rw [canonical_eq_braced brace, canonical_eq_braced brace'] at eq ⊢
  obtain ⟨same, rest⟩ := braced_append_inj (fun m mem n mem' => by
    obtain ⟨v, textual, value⟩ := exists_textual h' mem'
    rw [value]
    exact apart m mem v textual) eq
  exact ⟨by rw [same], rest⟩

/-- The texts of two trees are not mistaken for each other. -/
theorem unambiguous_canonical {t u : Tree} (h : t.IsTextual) (h' : u.IsTextual) :
    Unambiguous (canonical t) (canonical u) := by
  induction t using Tree.induct generalizing u with
  | leaf t scalar =>
    cases t with
    | list => cases scalar
    | map => cases scalar
    | text s => exact unambiguous_text s h'
    | ref id target =>
      refine unambiguous_braced h h' rfl fun m mem u textual => ?_
      -- the only member of a reference is the full name
      rcases exists_of_mem_parts mem with ⟨es, e, ⟨⟩, -⟩ | ⟨id, target, -, rfl⟩
      exact unambiguous_text _ textual
    | _ =>
      intro r r' ends ends' eq
      have word := (lead_eq h.ne_float h'.ne_float eq).symm
      exact unambiguous_words (word_canonical h.ne_float rfl).2 (word_canonical h'.ne_float word).2
        r r' ends ends' eq
  | list ts ih =>
    intro r r' ends ends' eq
    have bracket := lead_eq h.ne_float h'.ne_float eq
    cases u with
    | list us =>
      obtain ⟨items, rest⟩ := canonical_list_append_inj h h' (fun t mem u mem' =>
        ih t mem (h.of_mem_list mem) (h'.of_mem_list mem')) eq
      refine ⟨?_, rest⟩
      rw [canonical, canonical, canonicalItems_eq_map, canonicalItems_eq_map, items]
    | _ => cases bracket
  | map es ih =>
    refine unambiguous_braced h h' rfl fun m mem u textual => ?_
    rcases exists_of_mem_parts mem with ⟨es, e, ⟨⟩, held, rfl⟩ | ⟨id, target, ⟨⟩, -⟩
    exact ih e held (h.of_mem_map held) textual

end Json

end DefinitionTree
