/-
DefinitionTree/Command/Run.lean

Carrying out a request.

A request is carried out against the files there are, and comes to a report:
the exit code, what is printed, and the file that is written.  Failures that a
user can mend are reported as errors; any other failure ends the program.
-/
import DefinitionTree.Command.Invocation
import DefinitionTree.Definition.RoundTrip
import DefinitionTree.Definition.Validity
import DefinitionTree.Json.Writer
import DefinitionTree.Schema.Description
import DefinitionTree.Tree.Pairs

namespace DefinitionTree.Command

/-! ### Files and reports -/

/-- The files there are, with their contents, and the folders. -/
structure Files where
  contents : List (String × String)
  folders : List String := []
deriving Repr

namespace Files

/-- The content of a file. -/
def content? (fs : Files) (path : String) : Option String :=
  (fs.contents.find? fun f => Path.normal f.1 = path).map (·.2)

/-- The path is that of a folder: the current one, one that it is in, or one
of those there are. -/
def isFolder (fs : Files) (path : String) : Bool :=
  (Path.parts path).all (· == "..") || fs.folders.contains (Path.normal path)

/-- Why there can be no file with this path, if there is none. -/
def obstacle (fs : Files) (path : String) : Failure :=
  if Path.hasNull path then .nullInPath
  else if fs.isFolder path then .notAFile path
  else if (Path.folders path).any fun f => (fs.content? f).isSome then .notAFolder path
  else .missingFile path

/-- The content of a file; it fails if there is no such file. -/
def content (fs : Files) (path : String) : Except Failure String :=
  match fs.content? path with
  | some s => .ok s
  | none => .error (fs.obstacle path)

/-- A file with this path can be written. -/
def canWrite (fs : Files) (path : String) : Bool :=
  !Path.hasNull path && !fs.isFolder path && (Path.folder? path).all fs.isFolder

end Files

/-- What running the program comes to. -/
structure Report where
  exitCode : Nat := 0
  /-- the lines that are printed -/
  lines : List String := []
  /-- the notes that are shown -/
  notes : List Note := []
  /-- the failure that is shown -/
  failure : Option Failure := none
  /-- the file that is written, with its content -/
  written : Option (String × String) := none
deriving Repr

/-! ### Reading files -/

/-- The tree that a file holds in stored form. -/
def readTree (fs : Files) (path : String) : Except Failure Tree := do
  (← Json.parse (← fs.content path)).ofStored

/-- The value of an instance in a file: an object, or a bare definition, whose
script id is then the name of the file. -/
def readValue (fs : Files) (path : String) : Except Failure Entries := do
  if Path.isDefinition path then
    let s ← fs.content path
    -- a file is read as text, so its line breaks are single characters
    return [(.text "scriptid", .text (Path.stem path)),
      (definitionKey, .text (String.ofList (Xml.unifyLineBreaks s.toList)))]
  match ← readTree fs path with
  | .map es => return es
  | _ => throw (.objectExpected path)

/-- The string collections in a file. -/
def readCollections (fs : Files) (path : String) : Except Failure (List Element) := do
  match ← readTree fs path with
  | .map es => es.mapM fun e => do
    return .instance (Localized.collection e.1.plain (← e.2.asEntries))
  | _ => throw (.collectionsExpected path)

/-- The lookup of a request. -/
def readLookup (fs : Files) (r : Request) : Except Failure Lookup :=
  match r.collections with
  | some path => do return { working := ← readCollections fs path }
  | none => .ok {}

/-- The settings of a request. -/
def readSettings (fs : Files) (r : Request) : Except Failure Settings :=
  match r.config with
  | some path =>
    -- a file that is missing makes a bad configuration, a path of no file does not
    if Path.hasNull path then .error .nullInPath
    else Settings.ofFile path (fs.content? path)
  | none => .ok {}

/-! ### Carrying out -/

/-- A report that prints a text, or writes it where the request says so. -/
def deliver (fs : Files) (r : Request) (s : String) : Except Failure Report :=
  match r.output with
  | none => .ok { lines := [s] }
  | some path =>
    if fs.canWrite path then .ok { written := some (path, s ++ "\n") }
    else .error (fs.obstacle path)

/-- Fetches. -/
def runFetch (fs : Files) (r : Request) : Journal Report := do
  let settings ← Journal.of (readSettings fs r)
  let value ← Journal.of (readValue fs r.input)
  let lookup ← Journal.of (readLookup fs r)
  let result ← fetch settings (some lookup) r.kind r.name value
  Journal.of do deliver fs r (← Json.prettyText (.map result))

/-- The text to deliver of a value to deploy. -/
def deployedText (r : Request) (es : Entries) : Except Failure String :=
  match r.xmlOnly, definitionText? es with
  | true, some s => .ok s
  | _, _ => Json.prettyText (.map es)

/-- Deploys. -/
def runDeploy (fs : Files) (r : Request) : Except Failure Report := do
  let settings ← readSettings fs r
  let value ← readValue fs r.input
  let result ← deploy settings r.kind r.name value
  deliver fs r (← deployedText r result)

/-- Fetches, deploys and fetches again. -/
def runRoundTrip (fs : Files) (r : Request) : Journal Report := do
  let settings ← Journal.of (readSettings fs r)
  let value ← Journal.of (readValue fs r.input)
  let lookup ← Journal.of (readLookup fs r)
  let trip ← roundTrip settings (some lookup) r.kind none value
  let mark := if trip.isStable then "[OK]" else "[CHANGED]"
  return {
    exitCode := if trip.isStable then 0 else 1
    lines := if r.isQuiet then [] else
      [(definitionText? trip.deployed).getD "", mark ++ " Round trip complete"] }

/-- The line that shows a warning. -/
def warningLine (w : ChangeWarning) : String :=
  "[" ++ w.issue.severity.text ++ "] " ++ w.instanceId ++ ": " ++ w.issue.message

/-- Validates the modification of a value. -/
def runValidate (fs : Files) (r : Request) : Except Failure Report := do
  discard (readSettings fs r)
  let value ← readValue fs r.input
  let found ← warnings [⟨"modify", none, some (.instance (r.kind.instanceOf none value))⟩]
  let total := "[OK] Validation complete (" ++ toString found.length ++ " issue(s))"
  return { lines := if r.isQuiet then [] else found.map warningLine ++ [total] }

/-- Describes a schema. -/
def runSchema (fs : Files) (r : Request) : Except Failure Report := do
  discard (readSettings fs r)
  return { lines := [← Json.prettyText r.kind.schema.describe] }

/-- Carries out a request. -/
def carryOut (fs : Files) (r : Request) : Journal Report :=
  match r.action with
  | .fetch => runFetch fs r
  | .deploy => Journal.of (runDeploy fs r)
  | .roundTrip => runRoundTrip fs r
  | .validate => Journal.of (runValidate fs r)
  | .schema => Journal.of (runSchema fs r)

/-! ### Reporting -/

/-- The failure is one that a user can mend, and is shown. -/
def isShown : Failure → Bool
  | .unknownName _ => false
  | .annotationClash => false
  | .compoundTag => false
  | .unwritableKey => false
  | .notIterable => false
  | .notAMapping => false
  | .noEntries => false
  | .notAnInstance => false
  | .elementWithoutId => false
  | .endlessDefault _ _ => false
  | .notAFile _ => false
  | .notAFolder _ => false
  | _ => true

/-- The note is shown. -/
def showsNote (r : Request) (n : Note) : Bool :=
  if r.isQuiet then false else r.isVerbose || n.level = .warning

/-- Runs a request. -/
def runRequest (fs : Files) (r : Request) : Except Failure Report :=
  let j := carryOut fs r
  let notes := j.notes.filter (showsNote r)
  match j.outcome with
  | .ok report => .ok { report with notes }
  | .error e => if isShown e then .ok { exitCode := 1, notes, failure := some e } else .error e

/-- How the program is called. -/
def usage : String :=
  "usage: definitiontree [-h] [--version] \x7bfetch,deploy,roundtrip,validate,schema\x7d ..."

/-- Runs the program. -/
def run (fs : Files) (args : List String) : Except Failure Report :=
  match Invocation.read args with
  | .request r => runRequest fs r
  | .help => .ok { lines := [usage] }
  | .version => .ok { lines := ["definitiontree"] }
  | .nothing => .ok { exitCode := 1, lines := [usage] }
  | .refused => .ok { exitCode := 2 }

/-- The lines that a report shows besides what is printed. -/
def Report.errorLines (r : Report) : List String :=
  if r.exitCode = 2 then [usage]
  else r.notes.map Note.line ++ (r.failure.map fun e => "Error: " ++ e.message).toList

end DefinitionTree.Command
