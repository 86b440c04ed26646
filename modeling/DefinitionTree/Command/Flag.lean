/-
DefinitionTree/Command/Flag.lean

Commands and their flags.

Every command has the flags that help, that set how much is reported, and that
name the kind and the settings; some have more.  A flag may be shortened as
long as it stays the only flag of its command that starts so, and a value may
follow it behind an equals sign or as the next argument.  The call for help has
a spelling of one letter, too, and letters may be run together behind its
hyphen.
-/
import DefinitionTree.Definition.Kind
import DefinitionTree.Text.Basic

namespace DefinitionTree.Command

/-! ### Commands and flags -/

/-- What can be asked for. -/
inductive Action where
  | fetch
  | deploy
  | roundTrip
  | validate
  | schema
deriving DecidableEq, Repr

/-- What an argument that starts with a hyphen can stand for. -/
inductive Flag where
  | help
  | version
  | quiet
  | verbose
  | kind
  | config
  | name
  | collections
  | xmlOnly
  | output
deriving DecidableEq, Repr

namespace Action

/-- All commands. -/
def all : List Action := [.fetch, .deploy, .roundTrip, .validate, .schema]

/-- The word for a command. -/
def word : Action → String
  | .fetch => "fetch"
  | .deploy => "deploy"
  | .roundTrip => "roundtrip"
  | .validate => "validate"
  | .schema => "schema"

/-- The command for a word. -/
def ofWord? (s : String) : Option Action := all.find? fun a => a.word = s

/-- The command reads an input file. -/
def hasInput : Action → Bool
  | .schema => false
  | _ => true

/-- The flags that every command has. -/
def sharedFlags : List Flag := [.help, .quiet, .verbose, .kind, .config]

/-- The flags of a command. -/
def flags : Action → List Flag
  | .fetch => sharedFlags ++ [.name, .collections, .output]
  | .deploy => sharedFlags ++ [.name, .xmlOnly, .output]
  | .roundTrip => sharedFlags ++ [.collections]
  | .validate => sharedFlags
  | .schema => sharedFlags

end Action

namespace Flag

/-- The flags in front of a command. -/
def leading : List Flag := [.help, .version]

/-- The spellings of a flag. -/
def spellings : Flag → List String
  | .help => ["-h", "--help"]
  | .version => ["--version"]
  | .quiet => ["--quiet"]
  | .verbose => ["--verbose"]
  | .kind => ["--kind"]
  | .config => ["--config"]
  | .name => ["--name"]
  | .collections => ["--translations"]
  | .xmlOnly => ["--xml-only"]
  | .output => ["--output"]

/-- A value belongs to the flag. -/
def hasValue : Flag → Bool
  | .kind => true
  | .config => true
  | .name => true
  | .collections => true
  | .output => true
  | _ => false

end Flag

/-! ### Arguments -/

/-- What a single argument is. -/
inductive Argument where
  /-- a flag, perhaps with a value behind an equals sign -/
  | flag (f : Flag) (value : Option String)
  /-- two hyphens: all that follows are words -/
  | separator
  /-- a flag of no kind, or one that is shortened too much -/
  | stray (isAmbiguous : Bool)
  | word (s : String)
deriving DecidableEq, Repr

namespace Argument

/-- The argument in front of its first equals sign, and what is behind it. -/
def splitValue (cs : List Char) : List Char × Option (List Char) :=
  let front := cs.takeWhile (· != '=')
  match cs.drop front.length with
  | _ :: value => (front, some value)
  | [] => (front, none)

/-- A number without sign: digits, or a fraction, which may lack the digits in
front of the point. -/
def isUnsigned (cs : List Char) : Bool :=
  let digits := cs.takeWhile Text.isDecimal
  match cs.dropWhile Text.isDecimal with
  | [] => !digits.isEmpty
  | '.' :: fraction => !fraction.isEmpty && fraction.all Text.isDecimal
  | _ => false

/-- A negative number.  A line break behind it is tolerated. -/
def isNegativeNumber : List Char → Bool
  | '-' :: cs => isUnsigned (Text.dropLineEnd cs)
  | _ => false

/-- The flags that have a spelling which starts like this. -/
def flagsLike (flags : List Flag) (cs : List Char) : List Flag :=
  flags.filter fun f => f.spellings.any fun s => cs.isPrefixOf s.toList

/-- What letters run together behind the call for help come to.  No other flag
has a letter, so a letter that does not call for help ends the run and belongs
nowhere; but what looks like a value is taken for one. -/
def ofLetters : List Char → Argument
  | 'h' :: cs => ofLetters cs
  | '=' :: value => .flag .help (some (String.ofList value))
  | '-' :: cs => .flag .help (some (String.ofList ('-' :: cs)))
  | _ => .flag .help none

/-- An argument that starts with a hyphen and spells no flag in full. -/
def ofShort (flags : List Flag) (cs : List Char) : Argument :=
  let (front, value) := splitValue cs
  match if "--".toList.isPrefixOf cs then flagsLike flags front else [], cs with
  | [f], _ => .flag f (value.map String.ofList)
  | _ :: _ :: _, _ => .stray true
  | [], '-' :: 'h' :: letters => ofLetters letters
  | [], cs =>
    if isNegativeNumber cs || cs.contains ' ' then .word (String.ofList cs) else .stray false

/-- What an argument is, given the flags there are. -/
def ofText (flags : List Flag) (s : String) : Argument :=
  let (front, value) := splitValue s.toList
  if s = "--" then .separator
  else if s = "-" || s.toList.head? ≠ some '-' then .word s
  else
    match flags.find? fun f => f.spellings.contains s,
        flags.find? fun f => f.spellings.contains (String.ofList front) with
    | some f, _ => .flag f none
    | none, some f => .flag f (value.map String.ofList)
    | none, none => ofShort flags s.toList

end Argument

end DefinitionTree.Command
