/-
DefinitionTree/Proofs/Xml/Substitution.lean

What replacing the named entities makes of a text.

Replacing goes through a text from its start.  Where an ampersand, a name that
stands for something and a semicolon come next, numeric references take their
place; every other character is kept.  The relation `Replaced` has one case for
each of the two, so facts about the whole text are proved by induction on it.

Nothing that is put in is a bracket, a carriage return or a character that
markup must not hold.  But each reference brings a number sign with it, and none
is ever taken out, so the text is another one as soon as it holds an entity.

Main definitions:

* `IsEntity`: the names that are replaced, and what they stand for;
* `HoldsEntity`: the texts that hold one;
* `Replaced`: a text and what replacing makes of it.

Main statements:

* `replaced_iff`: the relation is the function;
* `Replaced.append`: a text in front of a bracket is replaced on its own;
* `Replaced.closes`: no end of plain text comes about;
* `Replaced.count_lt`: every entity that is replaced brings a number sign;
* `replaceFrom_eq_self_iff`: when a text stays as it is.
-/
import DefinitionTree.Proofs.Xml.Scalar

namespace DefinitionTree.Xml

variable {cs us name xs : List Char} {ns : List Nat} {c : Char}

/-! ### Entities -/

/-- The name stands for these code points, and is none of markup's own. -/
structure IsEntity (name : List Char) (ns : List Nat) : Prop where
  letters : name.all Char.isAlphanum = true
  foreign : predefined.lookup (String.ofList name) = none
  named : named? name = some ns

/-- A name that stands for code points comes next, and a semicolon behind it. -/
def OpensEntity (cs : List Char) : Prop :=
  ∃ name ns rest, IsEntity name ns ∧ cs = name ++ ';' :: rest

/-- A named entity that is replaced stands somewhere in the text. -/
def HoldsEntity (cs : List Char) : Prop :=
  ∃ front rest, cs = front ++ '&' :: rest ∧ OpensEntity rest

theorem IsEntity.notMem (h : IsEntity name ns) (special : c.isAlphanum = false) : c ∉ name := by
  intro mem
  have := List.all_eq_true.mp h.letters c mem
  rw [special] at this
  cases this

theorem IsEntity.ne_nil (h : IsEntity name ns) : ns ≠ [] :=
  named?_ne_nil h.named

theorem takeWhile_name (letters : name.all Char.isAlphanum = true) (rest : List Char) :
    (name ++ ';' :: rest).takeWhile Char.isAlphanum = name := by
  rw [List.takeWhile_append_of_pos (by simpa using letters), List.takeWhile_cons_of_neg (by decide),
    List.append_nil]

/-- What replaces an entity are the references to its characters. -/
theorem replacement?_entity (h : IsEntity name ns) (rest : List Char) :
    replacement? (name ++ ';' :: rest) = some (ns.flatMap numericReference, name.length + 1) := by
  rw [replacement?, takeWhile_name h.letters, h.foreign, h.named]
  simp

/-- Nothing but an entity is replaced. -/
theorem exists_of_replacement? {taken : Nat} (h : replacement? cs = some (xs, taken)) :
    ∃ name ns rest, IsEntity name ns ∧ cs = name ++ ';' :: rest ∧
      xs = ns.flatMap numericReference ∧ taken = name.length + 1 := by
  rw [replacement?] at h
  generalize front : cs.takeWhile Char.isAlphanum = name at h
  have letters : name.all Char.isAlphanum = true := front ▸ List.all_takeWhile
  have split_ : cs = name ++ cs.drop name.length := by
    have prefix_ : name <+: cs := front ▸ List.takeWhile_prefix _
    obtain ⟨back, rfl⟩ := prefix_
    simp
  split at h
  · rename_i holds
    simp only [Bool.and_eq_true, decide_eq_true_eq, Option.isNone_iff_eq_none] at holds
    obtain ⟨ns, named, eq⟩ := Option.map_eq_some_iff.mp h
    obtain ⟨rest, behind⟩ := List.head?_eq_some_iff.mp holds.1
    cases eq
    exact ⟨name, ns, rest, ⟨letters, holds.2, named⟩, by rw [← behind]; exact split_, rfl, rfl⟩
  · cases h

/-! ### Replacing, entity by entity -/

/-- A text and what it becomes when its named entities are replaced. -/
inductive Replaced : List Char → List Char → Prop
  /-- nothing is left -/
  | nil : Replaced [] []
  /-- the next character starts no entity, and is kept -/
  | keep {c : Char} {cs us : List Char} (none : c = '&' → ¬ OpensEntity cs)
      (rest : Replaced cs us) : Replaced (c :: cs) (c :: us)
  /-- an entity comes next, and references take its place -/
  | entity {name cs us : List Char} {ns : List Nat} (here : IsEntity name ns)
      (rest : Replaced cs us) :
      Replaced ('&' :: (name ++ ';' :: cs)) (ns.flatMap numericReference ++ us)

theorem replaceFrom_skip (n : Nat) (cs : List Char) :
    replaceFrom n cs = replaceFrom 0 (cs.drop n) := by
  induction cs generalizing n with
  | nil => rw [List.drop_nil, replaceFrom, replaceFrom]
  | cons c cs ih =>
    cases n with
    | zero => rfl
    | succ n => rw [replaceFrom, ih, List.drop_succ_cons]

theorem replaceFrom_entity (h : IsEntity name ns) (rest : List Char) :
    replaceFrom 0 ('&' :: (name ++ ';' :: rest))
      = ns.flatMap numericReference ++ replaceFrom 0 rest := by
  have behind : (name ++ ';' :: rest).drop (name.length + 1) = rest := by simp
  rw [replaceFrom, if_pos rfl, replacement?_entity h]
  show _ ++ replaceFrom (name.length + 1) (name ++ ';' :: rest) = _
  rw [replaceFrom_skip, behind]

theorem replaceFrom_keep (none : c = '&' → ¬ OpensEntity cs) :
    replaceFrom 0 (c :: cs) = c :: replaceFrom 0 cs := by
  rw [replaceFrom]
  split
  · rename_i ampersand
    rcases replaced : replacement? cs with - | ⟨xs, taken⟩
    · rfl
    · obtain ⟨name, ns, rest, entity, eq, -⟩ := exists_of_replacement? replaced
      exact absurd ⟨name, ns, rest, entity, eq⟩ (none ampersand)
  · rfl

theorem replaced_replaceFrom (cs : List Char) : Replaced cs (replaceFrom 0 cs) := by
  -- an entity takes more than one character, so the induction is on the length
  induction length : cs.length using Nat.strongRecOn generalizing cs with
  | _ n ih =>
    cases cs with
    | nil => exact .nil
    | cons c cs =>
      by_cases opens : c = '&' ∧ OpensEntity cs
      · obtain ⟨rfl, name, ns, rest, entity, rfl⟩ := opens
        have shorter : rest.length < n := by
          rw [← length]
          simp only [List.length_cons, List.length_append]
          omega
        rw [replaceFrom_entity entity]
        exact .entity entity (ih _ shorter rest rfl)
      · have none : c = '&' → ¬ OpensEntity cs := not_and.mp opens
        rw [replaceFrom_keep none]
        exact .keep none (ih _ (by rw [← length]; simp) cs rfl)

/-- Replacing is what the relation says it is. -/
theorem replaced_iff : Replaced cs us ↔ us = replaceFrom 0 cs := by
  constructor
  · intro h
    induction h with
    | nil => rfl
    | keep none _ ih => rw [replaceFrom_keep none, ih]
    | entity entity _ ih => rw [replaceFrom_entity entity, ih]
  · rintro rfl
    exact replaced_replaceFrom cs

/-! ### Texts on their own -/

/-- What opens no entity does not open one in front of a character that no
entity holds behind its ampersand. -/
theorem not_opensEntity_append (none : ¬ OpensEntity cs) (letter : c.isAlphanum = false)
    (semicolon : c ≠ ';') (rest : List Char) : ¬ OpensEntity (cs ++ c :: rest) := by
  rintro ⟨name, ns, behind, entity, parts⟩
  rcases List.append_eq_append_iff.mp parts with ⟨front, rfl, eq⟩ | ⟨back, rfl, eq⟩
  · -- the name would reach to the character
    cases front with
    | nil => exact semicolon (List.cons.inj eq).1
    | cons d front =>
      obtain rfl := (List.cons.inj eq).1
      exact entity.notMem letter (by simp)
  · cases back with
    | nil => exact semicolon (List.cons.inj eq).1.symm
    | cons d back =>
      obtain rfl := (List.cons.inj eq).1
      exact none ⟨name, ns, back, entity, rfl⟩

/-- In front of such a character a text is replaced on its own. -/
theorem Replaced.append (h : Replaced cs us) (letter : c.isAlphanum = false)
    (semicolon : c ≠ ';') (rest : List Char) :
    replaceFrom 0 (cs ++ c :: rest) = us ++ replaceFrom 0 (c :: rest) := by
  induction h with
  | nil => rfl
  | keep none _ ih =>
    rw [List.cons_append, List.cons_append, ← ih]
    exact replaceFrom_keep fun eq => not_opensEntity_append (none eq) letter semicolon rest
  | entity entity _ ih =>
    rw [List.cons_append, List.append_assoc, List.cons_append, replaceFrom_entity entity, ih,
      List.append_assoc]

/-! ### What is put in -/

/-- A reference holds an ampersand, a number sign, digits and a semicolon. -/
theorem mem_references (mem : c ∈ ns.flatMap numericReference) :
    c = '&' ∨ c = '#' ∨ Numeral.isDigit c = true ∨ c = ';' := by
  obtain ⟨n, -, inside⟩ := List.mem_flatMap.mp mem
  simp only [numericReference, List.mem_cons, List.mem_append, List.not_mem_nil, or_false] at inside
  rcases inside with ampersand | number | digit | semicolon
  · exact .inl ampersand
  · exact .inr (.inl number)
  · exact .inr (.inr (.inl (List.all_eq_true.mp (isWhole_digits n).2 c digit)))
  · exact .inr (.inr (.inr semicolon))

/-- Every other character was there before. -/
theorem Replaced.mem (h : Replaced cs us) (mem : c ∈ us) :
    c ∈ cs ∨ c = '&' ∨ c = '#' ∨ Numeral.isDigit c = true ∨ c = ';' := by
  induction h with
  | nil => exact .inl mem
  | keep _ _ ih =>
    rcases List.mem_cons.mp mem with rfl | later
    · exact .inl List.mem_cons_self
    · exact (ih later).imp (List.mem_cons_of_mem _) id
  | entity _ _ ih =>
    rcases List.mem_append.mp mem with inside | later
    · exact .inr (mem_references inside)
    · refine (ih later).imp (fun among => ?_) id
      simp [among]

theorem isXmlChar_of_isDigit (digit : Numeral.isDigit c = true) : isXmlChar c = true :=
  @Numeral.forall_isDigit (isXmlChar · = true) (by decide) c digit

theorem Replaced.all_isXmlChar (h : Replaced cs us) (all : cs.all isXmlChar = true) :
    us.all isXmlChar = true := by
  refine List.all_eq_true.mpr fun c mem => ?_
  rcases h.mem mem with before | rfl | rfl | digit | rfl
  · exact List.all_eq_true.mp all c before
  · decide
  · decide
  · exact isXmlChar_of_isDigit digit
  · decide

theorem Replaced.notMem_carriageReturn (h : Replaced cs us) (none : '\r' ∉ cs) : '\r' ∉ us := by
  intro mem
  rcases h.mem mem with before | eq | eq | digit | eq
  · exact none before
  · cases eq
  · cases eq
  · cases digit
  · cases eq

/-! ### The end of plain text -/

/-- The text ends plain text, where this many closing brackets in a row stand in
front of it. -/
def closes (closers : Nat) : List Char → Bool
  | [] => false
  | c :: cs => decide (c = '>' ∧ closers = 2) || closes (Reading.countClosers closers c) cs

/-- Where brackets are counted, the mark of the end is what is looked for. -/
theorem infix_of_closes {closers : Nat} (few : closers ≤ 2) (h : closes closers cs = true) :
    "]]>".toList <:+: List.replicate closers ']' ++ cs := by
  induction cs generalizing closers with
  | nil => cases h
  | cons c cs ih =>
    rw [closes, Bool.or_eq_true, decide_eq_true_eq] at h
    rcases h with ⟨rfl, rfl⟩ | later
    · exact ⟨[], cs, rfl⟩
    have few_ : Reading.countClosers closers c ≤ 2 := by
      unfold Reading.countClosers
      split
      · exact Nat.min_le_left _ _
      · exact Nat.zero_le 2
    -- no more than two brackets count, so a third one drops the first of the row
    have behind : List.replicate (Reading.countClosers closers c) ']' ++ cs
        <:+ List.replicate closers ']' ++ c :: cs := by
      unfold Reading.countClosers
      split
      · rename_i bracket
        subst bracket
        have more : List.replicate closers ']' ++ ']' :: cs
            = List.replicate (closers + 1) ']' ++ cs := by
          rw [List.replicate_succ', List.append_assoc]
          rfl
        refine ⟨List.replicate (closers + 1 - min 2 (closers + 1)) ']', ?_⟩
        rw [more, ← List.append_assoc, List.replicate_append_replicate]
        congr 2
        omega
      · exact (List.suffix_cons c cs).trans (List.suffix_append _ _)
    exact (ih few_ later).trans behind.isInfix

/-- Characters that are no brackets start the count again. -/
theorem closes_append (some_ : xs ≠ []) (none : ']' ∉ xs ∧ '>' ∉ xs) (closers : Nat)
    (rest : List Char) : closes closers (xs ++ rest) = closes 0 rest := by
  induction xs generalizing closers with
  | nil => exact absurd rfl some_
  | cons c xs ih =>
    simp only [List.mem_cons, not_or] at none
    have restart : Reading.countClosers closers c = 0 := if_neg (Ne.symm none.1.1)
    rw [List.cons_append, closes, restart]
    cases xs with
    | nil => simp [Ne.symm none.2.1]
    | cons d xs => rw [ih (by simp) ⟨none.1.2, none.2.2⟩]; simp [Ne.symm none.2.1]

theorem notMem_references (special : Numeral.isDigit c = false) (other : c ∉ ['&', '#', ';']) :
    c ∉ ns.flatMap numericReference := by
  intro mem
  rcases mem_references mem with rfl | rfl | digit | rfl
  · exact other (by decide)
  · exact other (by decide)
  · rw [special] at digit
    cases digit
  · exact other (by decide)

/-- Replacing brings about no end of plain text. -/
theorem Replaced.closes (h : Replaced cs us) {closers : Nat} (ends : closes closers us = true) :
    Xml.closes closers cs = true := by
  induction h generalizing closers with
  | nil => exact ends
  | keep _ _ ih =>
    rw [Xml.closes, Bool.or_eq_true] at ends ⊢
    exact ends.imp id ih
  | @entity name cs us ns entity _ ih =>
    have some_ : ns.flatMap numericReference ≠ [] := by
      obtain ⟨n, ns, rfl⟩ := List.exists_cons_of_ne_nil entity.ne_nil
      simp [numericReference]
    have split_ : '&' :: (name ++ ';' :: cs) = '&' :: (name ++ [';']) ++ cs := by simp
    have bracket : ']' ∉ name := entity.notMem (by decide)
    have angle : '>' ∉ name := entity.notMem (by decide)
    rw [closes_append some_
      ⟨notMem_references (by decide) (by decide), notMem_references (by decide) (by decide)⟩] at ends
    rw [split_, closes_append (by simp) ⟨by simpa using bracket, by simpa using angle⟩]
    exact ih ends

/-! ### Texts that stay as they are -/

/-- Nothing is replaced where no entity stands. -/
theorem replaced_self (none : ¬ HoldsEntity cs) : Replaced cs cs := by
  induction cs with
  | nil => exact .nil
  | cons c cs ih =>
    refine .keep (fun ampersand opens => none ⟨[], cs, by rw [ampersand]; rfl, opens⟩) (ih ?_)
    rintro ⟨front, rest, rfl, opens⟩
    exact none ⟨c :: front, rest, rfl, opens⟩

theorem IsEntity.count_numberSign (h : IsEntity name ns) (cs : List Char) :
    ('&' :: (name ++ ';' :: cs)).count '#' = cs.count '#' := by
  have letters : name.count '#' = 0 := List.count_eq_zero.mpr (h.notMem (by decide))
  simp [letters]

/-- No number sign is taken out. -/
theorem Replaced.count_le (h : Replaced cs us) : cs.count '#' ≤ us.count '#' := by
  induction h with
  | nil => exact Nat.le_refl _
  | keep _ _ ih =>
    rw [List.count_cons, List.count_cons]
    exact Nat.add_le_add_right ih _
  | entity entity _ ih =>
    rw [entity.count_numberSign, List.count_append]
    exact Nat.le_add_left_of_le ih

/-- One is put in for every entity. -/
theorem Replaced.count_lt (h : Replaced cs us) (holds : HoldsEntity cs) :
    cs.count '#' < us.count '#' := by
  induction h with
  | nil =>
    obtain ⟨front, rest, eq, -⟩ := holds
    simp at eq
  | keep none _ ih =>
    obtain ⟨front, rest, eq, opens⟩ := holds
    cases front with
    | nil =>
      obtain ⟨rfl, rfl⟩ := List.cons.inj eq
      exact absurd opens (none rfl)
    | cons d front =>
      obtain ⟨rfl, rfl⟩ := List.cons.inj eq
      rw [List.count_cons, List.count_cons]
      exact Nat.add_lt_add_right (ih ⟨front, rest, rfl, opens⟩) _
  | @entity name cs us ns entity replaced _ =>
    have some_ : 0 < (ns.flatMap numericReference).count '#' := by
      obtain ⟨n, ns, rfl⟩ := List.exists_cons_of_ne_nil entity.ne_nil
      exact List.count_pos_iff.mpr (by simp [numericReference])
    rw [entity.count_numberSign, List.count_append]
    exact Nat.lt_of_le_of_lt replaced.count_le (Nat.lt_add_of_pos_left some_)

/-- A text stays as it is exactly if no entity stands in it. -/
theorem replaceFrom_eq_self_iff : replaceFrom 0 cs = cs ↔ ¬ HoldsEntity cs := by
  constructor
  · intro same holds
    have more := (replaced_replaceFrom cs).count_lt holds
    rw [same] at more
    exact absurd more (Nat.lt_irrefl _)
  · intro none
    exact (replaced_iff.mp (replaced_self none)).symm

end DefinitionTree.Xml
