/-
DefinitionTree/Command/Invocation.lean

From arguments to a request.

In front of the command only the flags that help and that show the version may
stand.  Behind it come its flags, in any order, and the input file.  The kind
has to be given, and the input file if the command has one.  A call for help
counts as soon as it is read, unless something before it cannot be understood,
or an argument anywhere could be several flags; an argument that belongs nowhere
is refused only at the end.  Two hyphens may stand next to the input file, and
then everything behind them is a word.
-/
import DefinitionTree.Command.Flag
import DefinitionTree.Command.Path

namespace DefinitionTree.Command

/-! ### Requests -/

/-- What a command is asked to do. -/
structure Request where
  action : Action
  kind : Kind
  input : String := "."
  isQuiet : Bool := false
  isVerbose : Bool := false
  xmlOnly : Bool := false
  config : Option String := none
  name : Option String := none
  collections : Option String := none
  output : Option String := none
deriving Repr

/-- What arguments come to. -/
inductive Invocation where
  | request (r : Request)
  /-- help is asked for -/
  | help
  /-- the version is asked for -/
  | version
  /-- nothing is asked for -/
  | nothing
  /-- the arguments cannot be understood -/
  | refused
deriving Repr

/-! ### Behind the command -/

/-- A request as far as it is read. -/
structure Pending where
  kind : Option Kind := none
  input : Option String := none
  isQuiet : Bool := false
  isVerbose : Bool := false
  xmlOnly : Bool := false
  config : Option String := none
  name : Option String := none
  collections : Option String := none
  output : Option String := none
  /-- there are arguments that belong nowhere -/
  hasStrays : Bool := false
deriving Repr

namespace Pending

/-- Sets a flag without a value. -/
def raise (p : Pending) : Flag → Pending
  | .quiet => { p with isQuiet := true }
  | .verbose => { p with isVerbose := true }
  | .xmlOnly => { p with xmlOnly := true }
  | _ => p

/-- Sets a flag with a value, if the value is one for it. -/
def set? (p : Pending) (value : String) : Flag → Option Pending
  | .kind => (Kind.ofName? value).map fun k => { p with kind := some k }
  | .config => some { p with config := some (Path.normal value) }
  | .name => some { p with name := some value }
  | .collections => some { p with collections := some (Path.normal value) }
  | .output => some { p with output := some (Path.normal value) }
  | _ => none

/-- The input file comes next. -/
def needsInput (p : Pending) (a : Action) : Bool := a.hasInput && p.input.isNone

/-- Takes a word: the first one is the input file. -/
def take (p : Pending) (a : Action) (s : String) : Pending :=
  if p.needsInput a then { p with input := some (Path.normal s) }
  else { p with hasStrays := true }

/-- The request, if it is complete. -/
def finish (p : Pending) (a : Action) : Invocation :=
  match p.kind, p.hasStrays, p.needsInput a with
  | some kind, false, false =>
    .request {
      action := a, kind, input := p.input.getD ".", isQuiet := p.isQuiet,
      isVerbose := p.isVerbose, xmlOnly := p.xmlOnly, config := p.config, name := p.name,
      collections := p.collections, output := p.output }
  | _, _, _ => .refused

/-- Reads words only. -/
def readWords (p : Pending) (a : Action) (words : List String) : Invocation :=
  (words.foldl (fun p s => p.take a s) p).finish a

/-- Reads the arguments behind a command. -/
def read (p : Pending) (a : Action) : List String → Invocation
  | [] => p.finish a
  | s :: rest =>
    match Argument.ofText a.flags s with
    | .word s =>
      -- two hyphens behind the input file say nothing if they are the last
      if p.needsInput a && rest = ["--"] then (p.take a s).finish a
      else (p.take a s).read a rest
    | .stray true => .refused
    | .stray false => { p with hasStrays := true }.read a rest
    | .separator => if p.needsInput a then p.readWords a rest else .refused
    | .flag f (some value) =>
      match p.set? value f with
      | some p => p.read a rest
      | none => .refused
    | .flag f none =>
      if f = .help then .help
      else if !f.hasValue then (p.raise f).read a rest
      else
        match rest with
        | [] => .refused
        | v :: rest =>
          -- what follows is the value only if it would be a word by itself
          match Argument.ofText a.flags v, p.set? v f with
          | .word _, some p => p.read a rest
          | _, _ => .refused

end Pending

/-! ### In front of the command -/

namespace Invocation

/-- Reads arguments from the first one on. -/
def readFrom (strays : Bool) : List String → Invocation
  | [] => if strays then .refused else .nothing
  | s :: rest =>
    match Argument.ofText Flag.leading s with
    | .flag .help none => .help
    | .flag .version none => .version
    | .flag _ _ => .refused
    | .stray true => .refused
    | .stray false => readFrom true rest
    | .separator => .refused
    | .word s =>
      match Action.ofWord? s with
      | some a => ({ hasStrays := strays } : Pending).read a rest
      | none => .refused

/-- One of the arguments that may be flags could be several. -/
def isAmbiguous (args : List String) : Bool :=
  (args.takeWhile (· ≠ "--")).any fun s => Argument.ofText Flag.leading s = .stray true

/-- Reads arguments. -/
def read (args : List String) : Invocation :=
  if isAmbiguous args then .refused else readFrom false args

end Invocation

end DefinitionTree.Command
