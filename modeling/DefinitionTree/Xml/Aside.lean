/-
DefinitionTree/Xml/Aside.lean

Comments and instructions.

Both stand beside the content: they may come before, inside and after the
outermost element, and nothing of them is kept.  They are read one character
at a time.  A comment ends at its first two hyphens, which the closing bracket
has to follow; an instruction ends at the first question mark with a closing
bracket, and its target is a name other than `xml` in whatever case.
-/
import DefinitionTree.Failure
import DefinitionTree.Xml.Name

namespace DefinitionTree.Xml

/-! ### Positions -/

/-- A position inside a comment or an instruction. -/
inductive Aside where
  /-- in a comment, behind this many hyphens in a row -/
  | comment (hyphens : Nat)
  /-- in the target of an instruction, whose letters stand last first -/
  | target (letters : List Char)
  /-- behind a target and a question mark -/
  | targetEnd
  /-- behind the target, with or without a question mark in front -/
  | instruction (mark : Bool)
deriving DecidableEq, Repr

namespace Aside

/-! ### Reading -/

/-- The letters, last first, spell the name that only the declaration at the
start of a document has. -/
def isReserved (letters : List Char) : Bool := letters.map Char.toLower == ['l', 'm', 'x']

/-- The position behind the next character, or nothing at the end. -/
def step : Aside → Char → Except Failure (Option Aside)
  | .comment hyphens, c =>
    if hyphens < 2 then .ok (some (.comment (if c = '-' then hyphens + 1 else 0)))
    else if c = '>' then .ok none
    else .error .malformed
  | .target letters, c =>
    if if letters.isEmpty then isNameStart c else isNameChar c then
      .ok (some (.target (c :: letters)))
    else if letters.isEmpty || isReserved letters then .error .malformed
    else if c = '?' then .ok (some .targetEnd)
    else if isSpace c then .ok (some (.instruction false))
    else .error .malformed
  | .targetEnd, c => if c = '>' then .ok none else .error .malformed
  | .instruction mark, c =>
    if mark ∧ c = '>' then .ok none else .ok (some (.instruction (c = '?')))

/-- The comment or instruction that starts here, and what comes behind the
first characters of it. -/
def start? : List Char → Option (Aside × List Char)
  | '<' :: '?' :: rest => some (.target [], rest)
  | '<' :: '!' :: '-' :: '-' :: rest => some (.comment 0, rest)
  | _ => none

/-- What comes behind a comment or an instruction. -/
def skip (a : Aside) : List Char → Except Failure (List Char)
  | [] => .error .malformed
  | c :: rest =>
    if isXmlChar c then do
      match ← a.step c with
      | some b => b.skip rest
      | none => return rest
    else .error .malformed

/-- Skipping leaves less than there was. -/
theorem length_skip_lt {a : Aside} {cs rest : List Char} (h : a.skip cs = .ok rest) :
    rest.length < cs.length := by
  induction cs generalizing a with
  | nil => simp [skip] at h
  | cons c cs ih =>
    simp only [skip] at h
    split at h
    · rcases hs : a.step c with e | (_ | b)
      · simp [hs, bind, Except.bind] at h
      · simp only [hs, bind, Except.bind, pure, Except.pure, Except.ok.injEq] at h
        simp [h]
      · simp only [hs, bind, Except.bind] at h
        have := ih h
        simp only [List.length_cons]
        omega
    · simp at h

theorem length_start?_lt {cs rest : List Char} {a : Aside} (h : start? cs = some (a, rest)) :
    rest.length < cs.length := by
  unfold start? at h
  split at h
  · obtain ⟨_, rfl⟩ : Aside.target [] = a ∧ _ = rest := by simpa using h
    simp only [List.length_cons]
    omega
  · obtain ⟨_, rfl⟩ : Aside.comment 0 = a ∧ _ = rest := by simpa using h
    simp only [List.length_cons]
    omega
  · simp at h

/-- Skipping a comment or an instruction from its start leaves less than there
was. -/
theorem length_skip_start?_lt {cs more rest : List Char} {a : Aside}
    (hs : start? cs = some (a, more)) (h : a.skip more = .ok rest) : rest.length < cs.length :=
  Nat.lt_trans (length_skip_lt h) (length_start?_lt hs)

end Aside

end DefinitionTree.Xml
