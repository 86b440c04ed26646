/-
DefinitionTree/Command/Path.lean

Paths of files.

Two paths that differ only in repeated slashes, or in parts that are a single
full stop, are the same path, and are shown without these; but exactly two
slashes at the start stay two.  What stands behind the last full stop of a
file's name is its suffix, unless the name starts or ends there.
-/

namespace DefinitionTree.Command

namespace Path

/-- The parts of a path between its slashes. -/
def parts (s : String) : List String :=
  (s.splitOn "/").filter fun p => p ≠ "" && p ≠ "."

/-- The slashes that a path starts with. -/
def root (s : String) : String :=
  match (s.toList.takeWhile (· == '/')).length with
  | 0 => ""
  | 2 => "//"
  | _ => "/"

/-- The path in its simplest form. -/
def normal (s : String) : String :=
  match root s ++ "/".intercalate (parts s) with
  | "" => "."
  | path => path

/-- The path holds the character with code zero. -/
def hasNull (s : String) : Bool := s.toList.any fun c => c.toNat = 0

/-- The name of the file. -/
def name (s : String) : String := (parts s).getLast?.getD ""

/-- The folders that a file is in, from the outermost to the innermost.  The
current one is none of them. -/
def folders (s : String) : List String :=
  (List.range (parts s).dropLast.length).map fun n =>
    root s ++ "/".intercalate ((parts s).take (n + 1))

/-- The folder that a file is in, unless it is the current one. -/
def folder? (s : String) : Option String := (folders s).getLast?

/-- The name of a file in front of its last full stop and behind it, if there
is one that neither starts nor ends the name. -/
def split? (name : String) : Option (List Char × List Char) :=
  let behind := name.toList.reverse.takeWhile (· != '.')
  let front := name.toList.reverse.drop (behind.length + 1)
  if front.isEmpty || behind.isEmpty then none else some (front.reverse, behind.reverse)

/-- The name of the file without its suffix. -/
def stem (s : String) : String :=
  match split? (name s) with
  | some (front, _) => String.ofList front
  | none => name s

/-- The suffix of the file in lower case. -/
def suffix (s : String) : String :=
  match split? (name s) with
  | some (_, behind) => String.ofList (behind.map Char.toLower)
  | none => ""

/-- The file holds a bare definition, going by its name. -/
def isDefinition (s : String) : Bool := suffix s = "xml"

end Path

end DefinitionTree.Command
