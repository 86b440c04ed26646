/-
DefinitionTree/Xml/Doctype/Token.lean

The tokens of declarations.

Inside a declaration stand names, literals and a few marks, with white space
between them.  What follows a token has to be able to follow it, so that a name
does not run into a literal.  A declaration is the list of its tokens up to its
closing bracket; where no token can be read the list ends in a fault.
-/
import DefinitionTree.Xml.Name

namespace DefinitionTree.Xml.Doctype

/-! ### Tokens -/

/-- A token.  Names and closing parentheses may carry a mark that says how
often what they stand for occurs. -/
inductive Token where
  | name (s : String) (mark : Option Char)
  /-- what consists of name characters but is no name -/
  | word (s : String)
  /-- a name behind a number sign -/
  | keyword (s : String)
  | literal (mark : Char) (cs : List Char)
  | percent
  /-- a reference to a parameter entity -/
  | parameter
  | comma
  | bar
  | openParen
  | closeParen (mark : Option Char)
  | openBracket
  | close
  | fault
deriving DecidableEq, Repr

namespace Token

/-- No token of the declaration follows. -/
def isLast : Token → Bool
  | .openBracket => true
  | .close => true
  | .fault => true
  | _ => false

/-! ### Reading one token -/

/-- The text is at its end, or one of these characters or white space comes
next. -/
def endsBefore (marks : List Char) : List Char → Bool
  | [] => true
  | c :: _ => isSpace c || marks.contains c

/-- The mark that comes next, if it is one of occurrence. -/
def occurrence? : List Char → Option Char
  | c :: _ => if c = '?' || c = '*' || c = '+' then some c else none
  | [] => none

/-- A name or a word. -/
def nextName (c : Char) (rest : List Char) : Token × Nat :=
  let tail := rest.takeWhile isNameChar
  let after := rest.drop tail.length
  let s := String.ofList (c :: tail)
  match occurrence? after with
  | some mark => if isNameStart c then (.name s (some mark), tail.length + 1) else (.fault, 0)
  | none =>
    if !endsBefore ['>', ')', ',', '|', '[', '%'] after then (.fault, 0)
    else if isNameStart c then (.name s none, tail.length)
    else (.word s, tail.length)

/-- A name behind a number sign. -/
def nextKeyword (rest : List Char) : Token × Nat :=
  let cs := rest.takeWhile isNameChar
  if isName cs && endsBefore ['>', ')', '|', '%'] (rest.drop cs.length) then
    (.keyword (String.ofList cs), cs.length)
  else (.fault, 0)

/-- A literal. -/
def nextLiteral (mark : Char) (rest : List Char) : Token × Nat :=
  let cs := rest.takeWhile (· != mark)
  match rest.drop cs.length with
  | _ :: after =>
    if cs.all isXmlChar && endsBefore ['>', '%', '['] after then (.literal mark cs, cs.length + 1)
    else (.fault, 0)
  | [] => (.fault, 0)

/-- A percent sign, or a reference to a parameter entity. -/
def nextPercent (rest : List Char) : Token × Nat :=
  let cs := rest.takeWhile isNameChar
  if endsBefore ['%'] rest then (.percent, 0)
  else if isName cs && (rest.drop cs.length).head? = some ';' then (.parameter, cs.length + 1)
  else (.fault, 0)

/-- A closing parenthesis. -/
def nextCloseParen (rest : List Char) : Token × Nat :=
  match occurrence? rest with
  | some mark => (.closeParen (some mark), 1)
  | none => if endsBefore ['>', ',', '|', ')'] rest then (.closeParen none, 0) else (.fault, 0)

/-- The token that starts with a character, and how many of the characters
behind it belong to it. -/
def next (c : Char) (rest : List Char) : Token × Nat :=
  match c with
  | '"' => nextLiteral c rest
  | '\'' => nextLiteral c rest
  | '%' => nextPercent rest
  | '#' => nextKeyword rest
  | '(' => (.openParen, 0)
  | ')' => nextCloseParen rest
  | ',' => (.comma, 0)
  | '|' => (.bar, 0)
  | '[' => (.openBracket, 0)
  | '>' => (.close, 0)
  | _ => if isNameChar c then nextName c rest else (.fault, 0)

end Token

/-! ### Reading a declaration -/

/-- The tokens of a declaration, and what comes behind it. -/
def tokens : List Char → List Token × List Char
  | [] => ([.fault], [])
  | c :: rest =>
    if isSpace c then tokens rest
    else
      let (t, n) := Token.next c rest
      if t.isLast then ([t], rest.drop n)
      else
        let (ts, after) := tokens (rest.drop n)
        (t :: ts, after)
termination_by cs => cs.length
decreasing_by
  · simp
  · simp only [List.length_drop, List.length_cons]
    omega

/-- Reading a declaration leaves no more than there was. -/
theorem length_tokens_le (cs : List Char) : (tokens cs).2.length ≤ cs.length := by
  fun_induction tokens cs with
  | case1 => simp
  | case2 c rest _ ih =>
    simp only [List.length_cons]
    omega
  | case3 c rest _ t n _ _ =>
    simp only [List.length_drop, List.length_cons]
    omega
  | case4 c rest _ t n _ _ ts after h ih =>
    simp only [h, List.length_drop] at ih
    simp only [List.length_cons]
    omega

end DefinitionTree.Xml.Doctype
