import Ceylon.Command.Check
import Ceylon.Command.Symbols
import Ceylon.Prompt.Dialog

/-!
# The command line

The program works on the folder it is started in, which is the root of its file tree: `/` and `.` both stand for
it.  The first argument says what to do with the source trees in it: `check` reports their problems, `symbols`
lists their declarations, and `repl` answers what is entered.
-/

namespace Ceylon

/-- Reads the source files of a folder and of those inside it.  Folders that are never entered are left out. -/
partial def readFolder (tree : Files.Tree) (path : String) : IO Files.Tree := do
  let mut tree := tree.makeFolder path
  for entry in ← (← IO.FS.realPath ("./" ++ path)).readDir do
    let inner := path ++ "/" ++ entry.fileName
    if ← entry.path.isDir then
      if !Files.isHidden entry.fileName then tree ← readFolder tree inner
    else if entry.fileName.endsWith Files.extension then
      tree := tree.write inner (← IO.FS.readFile entry.path)
  return tree

/-- Prints the outcome of a command. -/
def finish (outcome : Except Command.UsageError Command.Outcome) : IO UInt32 := do
  match outcome with
  | .error e =>
    IO.eprintln e.message
    return Command.badInvocation.toUInt32
  | .ok o =>
    IO.print o.stdout
    IO.eprint o.stderr
    return o.code.toUInt32

/-- Answers what is entered, once all of it has been entered.  The packages of a source tree can be used if its
root is named. -/
def converse (files : Files.Tree) (root : Option String) : IO UInt32 := do
  let base := (root.map files.inside).getD {}
  match Prompt.run base {} (← (← IO.getStdin).readToEnd) with
  | .error e =>
    IO.eprintln (Prompt.noSession e)
    return Command.badInvocation.toUInt32
  | .ok out =>
    IO.eprint out
    return 0

end Ceylon

open Ceylon in
/-- Runs the command that the arguments name. -/
def main (arguments : List String) : IO UInt32 := do
  let files ← readFolder {} ""
  match arguments with
  | "check" :: rest => finish (Command.check files {} rest)
  | "symbols" :: rest => finish (Command.symbols files {} rest)
  | "repl" :: rest => converse files rest.head?
  | _ =>
    IO.eprintln "usage: ceylon-spec (check | symbols | repl) [arguments]"
    return Command.badInvocation.toUInt32
