import RegisterMap.Job

/-!
# The program

Reads a description from a file and prints its listing, or writes it to a file.
Notices and failures go to the standard error.
-/

namespace RegisterMap.Main

/-- The cause that an error of the system stands for. -/
def toFileFault : IO.Error → FileFault
  | .noFileOrDirectory _ _ _ => .notFound
  | .inappropriateType _ _ _ => .isDirectory
  | e => .other (toString e)

/-- The text of a file. -/
def readText (path : String) : IO (Except FileFault String) := do
  try
    match String.fromUTF8? (← IO.FS.readBinFile path) with
    | some text => return .ok text
    | none => return .error .notText
  catch e => return .error (toFileFault e)

/-- Writes a text to a file. -/
def writeText (path text : String) : IO (Except FileFault Unit) := do
  try
    IO.FS.writeFile path text
    return .ok ()
  catch e => return .error (toFileFault e)

/-- Prints the notices that a reader asks for. -/
def printNotices (verbose : Bool) (notices : List Notice) : IO Unit := do
  let most := if verbose then Level.debug else Level.info
  for n in notices do
    if n.level.rank ≤ most.rank then IO.eprintln n.message

/-- Reports a failure. -/
def abort (failure : Job.Failure) : IO UInt32 := do
  IO.eprintln failure.line
  return 1

/-- Runs a job. -/
def perform (job : Job) : IO UInt32 := do
  IO.eprintln ("Generating constants from: " ++ job.input)
  let checked := job.listing (← readText job.input)
  printNotices job.verbose checked.notices
  match checked.result with
  | .error .capacityOverflow =>
    IO.eprintln Fault.capacityOverflow.message
    return 101
  | .error fault => abort (.compilation job.input fault)
  | .ok text =>
    match job.output with
    | none =>
      IO.print text
      return 0
    | some path =>
      match ← writeText path text with
      | .error cause => abort (.output path cause)
      | .ok () =>
        IO.eprintln ("Output written to: " ++ path)
        return 0

/-- How the program is called. -/
def usage : String :=
  "Usage: xtask [-v|--verbose] svd-gen <SVD> [-o|--output FILE] [--include NAME]..."
    ++ " [--exclude NAME]... [--no-groups] [--no-docs]"

end RegisterMap.Main

/-- Runs the program. The exit code is 1 if a job fails, 101 if it breaks off, and 2 if the
    command line asks for none. -/
def main (args : List String) : IO UInt32 := do
  match RegisterMap.Job.parse args with
  | .ok job => RegisterMap.Main.perform job
  | .error .help =>
    IO.println RegisterMap.Main.usage
    return 0
  | .error .version =>
    IO.print RegisterMap.Job.versionLine
    return 0
  | .error (.usage fault) =>
    IO.eprintln ("error: " ++ fault.message)
    IO.eprintln RegisterMap.Main.usage
    return 2
