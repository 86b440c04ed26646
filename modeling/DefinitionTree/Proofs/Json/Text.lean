/-
DefinitionTree/Proofs/Json/Text.lean

Parts of JSON text that are not mistaken for each other.

A string ends at the first quotation mark that is not escaped, and every escape
stands for one character, so the text of a string tells the string and where it
ends.  A word, such as a number or a truth value, ends where something else than a
character of words follows.  And the parts of a list or a mapping can be told apart
if each of them can be told in front of a comma or a closing bracket.

Main definitions and statements:

* `Json.Unambiguous`: two texts that are not mistaken for each other;
* `Json.string_append_inj`, `Json.unambiguous_words`: strings and words;
* `Json.separated_inj`: parts between separators.
-/
import DefinitionTree.Json.Token
import DefinitionTree.Json.Writer

namespace DefinitionTree.Json

/-! ### Where a value ends -/

/-- The character cannot stand at the beginning of a value. -/
def IsEnd (c : Char) : Prop := c = ',' ∨ c = ']' ∨ c = '}'

/-- A value has come to its end here. -/
def Ends (r : List Char) : Prop := ∀ c ∈ r.head?, IsEnd c

/-- The text begins like a value. -/
def Begins (cs : List Char) : Prop := ∃ c rest, cs = c :: rest ∧ ¬IsEnd c

/-- A text that begins with the one value and with the other one shows that the two values
are the same, and what follows them, too. -/
def Unambiguous (cs ds : List Char) : Prop :=
  ∀ r r', Ends r → Ends r' → cs ++ r = ds ++ r' → cs = ds ∧ r = r'

theorem ends_cons {c : Char} (h : IsEnd c) (r : List Char) : Ends (c :: r) := by
  rintro _ ⟨⟩
  exact h

theorem Begins.not_ends {cs : List Char} (h : Begins cs) (r : List Char) : ¬Ends (cs ++ r) := by
  obtain ⟨c, rest, rfl, begins⟩ := h
  exact fun ends => begins (ends c rfl)

/-! ### Strings -/

/-- Four hexadecimal digits give a small number back. -/
theorem hexUnit?_hex {n : Nat} (small : n < 32) :
    ∃ a b c d, Text.hex 4 n = [a, b, c, d] ∧ hexUnit? a b c d = some n := by
  have all : ∀ n < 32, hexUnit? (Text.hexDigit (n / 16 / 16 / 16 % 16))
      (Text.hexDigit (n / 16 / 16 % 16)) (Text.hexDigit (n / 16 % 16)) (Text.hexDigit (n % 16))
        = some n := by
    decide
  exact ⟨_, _, _, _, rfl, all n small⟩

/-- Every character of a string is read back. -/
theorem stringBody_escapeChar (units : List Nat) (c : Char) (r : List Char) :
    stringBody units (escapeChar c ++ r) = stringBody (c.toNat :: units) r := by
  unfold escapeChar
  split
  · subst c
    rfl
  split
  · subst c
    rfl
  split
  · subst c
    rfl
  split
  · subst c
    rfl
  split
  · subst c
    rfl
  split
  · rename_i eq
    rw [eq]
    rfl
  split
  · rename_i eq
    rw [eq]
    rfl
  -- a control character is written as the number of its code point
  split
  · rename_i small
    obtain ⟨a, b, c', d, digits, unit⟩ := hexUnit?_hex small
    rw [digits]
    simp only [List.cons_append, List.nil_append, stringBody, unit]
  · rename_i mark slash _ _ _ _ _ large
    rw [List.singleton_append, stringBody.eq_def]
    split
    · rename_i eq
      cases eq
    · rename_i eq
      cases eq
      exact absurd rfl mark
    · rename_i eq
      cases eq
      exact absurd rfl slash
    · rename_i eq
      cases eq
      exact absurd rfl slash
    · rename_i eq
      cases eq
      rw [if_neg (not_or.mpr ⟨slash, large⟩)]

theorem stringBody_string (units : List Nat) (cs r : List Char) :
    stringBody units (cs.flatMap escapeChar ++ '"' :: r)
      = some ((cs.map Char.toNat).reverse ++ units, r) := by
  induction cs generalizing units with
  | nil => rfl
  | cons c cs ih =>
    rw [List.flatMap_cons, List.append_assoc, stringBody_escapeChar, ih, List.map_cons,
      List.reverse_cons, List.append_assoc]
    rfl

/-- The text of a string tells the string and what follows. -/
theorem string_append_inj {s s' : String} {r r' : List Char} (h : string s ++ r = string s' ++ r') :
    s = s' ∧ r = r' := by
  have body : s.toList.flatMap escapeChar ++ '"' :: r
      = s'.toList.flatMap escapeChar ++ '"' :: r' := by
    simpa [string] using h
  have same := congrArg (stringBody []) body
  rw [stringBody_string, stringBody_string] at same
  obtain ⟨units, rest⟩ := Prod.mk.inj (Option.some.inj same)
  rw [List.append_nil, List.append_nil, List.reverse_inj] at units
  exact ⟨String.toList_inj.mp ((List.map_inj_right fun _ _ => Char.toNat_inj.mp).mp units), rest⟩

/-! ### Words -/

/-- The characters of words: the names of scalars, and numbers. -/
def isWordChar (c : Char) : Bool := c.isAlphanum || c == '-' || c == '+' || c == '.'

theorem isWordChar_of_isEnd {c : Char} (h : IsEnd c) : isWordChar c = false := by
  rcases h with rfl | rfl | rfl <;> decide

/-- Two words are not mistaken for each other. -/
theorem unambiguous_words {cs ds : List Char} (word : ∀ c ∈ cs, isWordChar c = true)
    (word' : ∀ d ∈ ds, isWordChar d = true) : Unambiguous cs ds := by
  intro r r' ends ends' eq
  have stops {r : List Char} (ends : Ends r) : r.takeWhile isWordChar = [] := by
    rcases r with - | ⟨c, r⟩
    · rfl
    · rw [List.takeWhile_cons, isWordChar_of_isEnd (ends c rfl)]
      rfl
  have same := congrArg (List.takeWhile isWordChar) eq
  rw [List.takeWhile_append_of_pos word, List.takeWhile_append_of_pos word', stops ends, stops ends',
    List.append_nil, List.append_nil] at same
  subst same
  exact ⟨rfl, List.append_cancel_left eq⟩

/-! ### Parts -/

/-- What follows the first part of a list or a mapping. -/
def others : List (List Char) → List Char → List Char
  | [], r => r
  | cs :: css, r => ',' :: (cs ++ others css r)

theorem separated_append (cs : List Char) (css : List (List Char)) (r : List Char) :
    separated [','] (cs :: css) ++ r = cs ++ others css r := by
  induction css generalizing cs with
  | nil => rfl
  | cons ds css ih =>
    rw [separated, List.append_assoc, List.append_assoc, ih]
    · rfl
    · simp

section

variable {css dss : List (List Char)} {close : Char} (closing : IsEnd close) (noComma : close ≠ ',')
  (apart : ∀ cs ∈ css, ∀ ds ∈ dss, Unambiguous cs ds) {r r' : List Char}

theorem ends_others (closing : IsEnd close) (css : List (List Char)) (r : List Char) :
    Ends (others css (close :: r)) := by
  cases css with
  | nil => exact ends_cons closing r
  | cons => exact ends_cons (.inl rfl) _

include closing noComma apart

/-- The parts of a list or a mapping behind the first one are read one after the other, up
to the closing bracket. -/
theorem others_inj (h : others css (close :: r) = others dss (close :: r')) :
    css = dss ∧ r = r' := by
  induction css generalizing dss with
  | nil =>
    cases dss with
    | nil => exact ⟨rfl, (List.cons.inj h).2⟩
    | cons => exact absurd (List.cons.inj h).1 noComma
  | cons cs css ih =>
    cases dss with
    | nil => exact absurd (List.cons.inj h).1.symm noComma
    | cons ds dss =>
      obtain ⟨here, there⟩ := List.forall_mem_cons.mp apart
      obtain ⟨rfl, rest⟩ := here ds List.mem_cons_self _ _ (ends_others closing css r)
        (ends_others closing dss r') (List.cons.inj h).2
      obtain ⟨rfl, eq⟩ := ih (fun cs mem ds mem' => there cs mem ds (List.mem_cons_of_mem _ mem'))
        rest
      exact ⟨rfl, eq⟩

/-- Parts that are not mistaken for each other tell what is put together from them. -/
theorem separated_inj (begins : ∀ cs ∈ css, Begins cs) (begins' : ∀ ds ∈ dss, Begins ds)
    (h : separated [','] css ++ close :: r = separated [','] dss ++ close :: r') :
    css = dss ∧ r = r' := by
  -- if one of the two has no part, the other one would have to begin with the bracket
  have nothing {cs : List Char} {css : List (List Char)} {r r' : List Char}
      (begins : ∀ ds ∈ cs :: css, Begins ds)
      (eq : close :: r = separated [','] (cs :: css) ++ close :: r') : False := by
    rw [separated_append] at eq
    exact (begins cs List.mem_cons_self).not_ends _ (eq ▸ ends_cons closing r)
  cases css with
  | nil =>
    cases dss with
    | nil => exact ⟨rfl, (List.cons.inj h).2⟩
    | cons => exact (nothing begins' h).elim
  | cons cs css =>
    cases dss with
    | nil => exact (nothing begins h.symm).elim
    | cons ds dss =>
      rw [separated_append, separated_append] at h
      obtain ⟨here, there⟩ := List.forall_mem_cons.mp apart
      obtain ⟨rfl, rest⟩ := here ds List.mem_cons_self _ _ (ends_others closing css r)
        (ends_others closing dss r') h
      obtain ⟨rfl, eq⟩ := others_inj closing noComma
        (fun cs mem ds mem' => there cs mem ds (List.mem_cons_of_mem _ mem')) rest
      exact ⟨rfl, eq⟩

end

end DefinitionTree.Json
