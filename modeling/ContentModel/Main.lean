import ContentModel.Command.Line

/-
# The program

Reads the files that a command looks at, runs the command, and writes the files that it changed.  There
is no way out to other hosts from here: every address counts as unreachable.
-/

namespace ContentModel

/-- Places what stands at a path in a tree, if anything does. -/
def lookAt (files : Files.Tree) (path : String) : IO Files.Tree := do
  let place (text : Option String) : Files.Tree :=
    match files.place path text with
    | .ok files => files
    | .error _ => files
  try
    return place (some (← IO.FS.readFile path))
  catch
    | .noFileOrDirectory _ _ _ => return files
    | _ => return place none

/-- The files and directories at paths, and the directories that they stand in. -/
def lookAtAll (paths : List String) : IO Files.Tree :=
  (paths.flatMap fun path => (Files.parent? path).toList ++ [path]).foldlM lookAt .empty

/-- Writes files, after creating their directories. -/
def writeFiles (files : List (String × String)) : IO Unit := do
  for (path, text) in files do
    match Files.parent? path with
    | some parent => IO.FS.createDirAll parent
    | none => pure ()
    IO.FS.writeFile path text

/-- Shows what a command did and writes what it changed. -/
def report (before : Files.Tree) (outcome : Command.Outcome) : IO UInt32 := do
  for line in outcome.log do
    IO.eprintln line.text
  IO.eprint outcome.stderr
  IO.print outcome.stdout
  writeFiles (outcome.files.changesSince before)
  match outcome.result with
  | .ok () => return 0
  | .error e =>
    IO.eprintln ("Error: " ++ e.message)
    return 1

/-- Runs a command line. -/
def runLine (line : Command.Line) : IO UInt32 := do
  let files ← lookAtAll (line.settings :: line.invocation.paths)
  match Settings.load line.settings files with
  | .error e => report files (.failed (.settings e) files)
  | .ok settings => report files (line.invocation.run ⟨files, .offline, settings⟩)

end ContentModel

/-- Runs the command that the arguments give. -/
def main (arguments : List String) : IO UInt32 := do
  match ContentModel.Command.Line.read arguments with
  | .ok line => ContentModel.runLine line
  | .error e =>
    IO.eprintln e.message
    return 2
