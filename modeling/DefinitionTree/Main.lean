/-
DefinitionTree/Main.lean

The program: it reads the files that its arguments name, runs, and prints the
report.
-/
import DefinitionTree.Command.Run

namespace DefinitionTree.Command

/-- The files that a request reads. -/
def Request.files (r : Request) : List String :=
  (if r.action.hasInput then [r.input] else []) ++ r.config.toList ++ r.collections.toList

/-- The files that arguments name. -/
def namedFiles (args : List String) : List String :=
  match Invocation.read args with
  | .request r => r.files
  | _ => []

/-- The folder of the file that arguments have written. -/
def namedFolders (args : List String) : List String :=
  match Invocation.read args with
  | .request r => (r.output.bind Path.folder?).toList
  | _ => []

/-- Reads the files with these paths, as far as they exist. -/
def readFiles : List String → IO (List (String × String))
  | [] => return []
  | path :: rest => do
    let more ← readFiles rest
    try
      return (path, ← IO.FS.readFile path) :: more
    catch _ => return more

/-- Writes a file, and gives the exit code. -/
def writeOutput (code : Nat) (path content : String) : IO UInt32 := do
  try
    IO.FS.writeFile path content
    return code.toUInt32
  catch _ =>
    IO.eprintln ("Error: " ++ (Failure.missingFile path).message)
    return 1

/-- Prints a report, writes its file, and gives the exit code. -/
def showReport (r : Report) : IO UInt32 := do
  r.lines.forM IO.println
  r.errorLines.forM IO.eprintln
  match r.written with
  | some (path, content) => writeOutput r.exitCode path content
  | none => return r.exitCode.toUInt32

end DefinitionTree.Command

open DefinitionTree DefinitionTree.Command in
/-- Runs the program. -/
def main (args : List String) : IO UInt32 := do
  let contents ← readFiles (namedFiles args)
  match run ⟨contents, namedFolders args⟩ args with
  | .ok r => showReport r
  | .error e =>
    IO.eprintln e.message
    return 1
