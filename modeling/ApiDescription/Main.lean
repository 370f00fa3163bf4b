import ApiDescription.Command.Run

/-!
# The command line

The program sees the files below its working directory. It prints what a command reports, its warnings on
the standard error, and writes the files that the command leaves behind.
-/

set_option autoImplicit false

namespace ApiDescription.CommandLine

/-- How the program is called. -/
def usage : String :=
  "usage: generate [-i DIRECTORY] [-o FILE] [-f yaml|json] [-t TITLE] [-V VERSION]\n" ++
  "                [-d DESCRIPTION] [-s URL]... [-v]\n" ++
  "       combine  [-o FILE] [-f yaml|json] [-t TITLE] [-V VERSION] [-b URL] [-c FILE]\n" ++
  "                [-p SERVICE:PREFIX]... [--include-tags TAGS] [--exclude-tags TAGS]\n" ++
  "                [--merge-schemas[=BOOLEAN]] [--validate[=BOOLEAN]] [-v] [FILE]...\n"

/-- The version of the program. -/
def version : String := "0.1.0"

/-- What the program says about arguments that are no command. -/
def explanation : UsageError → String
  | .unknownArgument => "unexpected argument"
  | .invalidValue => "a value is missing, or is none of the possible ones"
  | .malformedValue => "a value cannot be read"
  | .tooManyValues => "an option takes fewer values"
  | .repeatedArgument => "an option cannot be given twice"
  | .unknownCommand => "unrecognized command"
  | .noCommand => "a command is required"
  | .help => "help"
  | .version => "version"

/-- Reads a file, or a directory with everything below it. -/
partial def readEntry (e : IO.FS.DirEntry) : IO (String × FileTree) := do
  if ← e.path.isDir then
    let entries ← (← e.path.readDir).mapM readEntry
    return (e.fileName, .directory entries.toList)
  else
    return (e.fileName, .file (← IO.FS.readBinFile e.path))

/-- Reads the working directory. -/
def readFiles : IO FileTree := do
  let entries ← (← (← IO.currentDir).readDir).mapM readEntry
  return .directory entries.toList

/-- Writes a file below the working directory. -/
def writeFile (path : String) (bytes : ByteArray) : IO Unit := do
  if let some directory := FilePath.parent? path then
    unless directory.isEmpty do IO.FS.createDirAll directory
  IO.FS.writeBinFile path bytes

/-- Says why the program was given no command. -/
def refuse : UsageError → IO UInt32
  | .help => do
    IO.print usage
    return 0
  | .version => do
    IO.println version
    return 0
  | e => do
    IO.eprint ("error: " ++ explanation e ++ "\n\n" ++ usage)
    return 2

/-- Runs a command on the working directory. -/
def execute (c : Command) : IO UInt32 := do
  let before ← readFiles
  let outcome := c.run before
  for warning in outcome.warnings do IO.eprintln ("WARN " ++ warning)
  for (path, bytes) in before.changes outcome.files do writeFile path bytes
  match outcome.result with
  | .ok _ =>
    IO.print outcome.output
    return 0
  | .error e =>
    IO.eprintln ("error: " ++ e.text)
    return 1

end ApiDescription.CommandLine

/-- Runs the command that the arguments ask for. -/
def main (arguments : List String) : IO UInt32 :=
  match ApiDescription.Command.ofArguments arguments with
  | .ok c => ApiDescription.CommandLine.execute c
  | .error e => ApiDescription.CommandLine.refuse e
