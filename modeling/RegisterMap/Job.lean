import RegisterMap.CommandLine
import RegisterMap.Compile
import RegisterMap.FileTree
import RegisterMap.Listing.Text

/-!
# Running a job

From a command line to what the program leaves behind: an exit code, what it
prints, and the files. The listing is complete before anything is written, so
that a fault leaves every file as it was.
-/

namespace RegisterMap

/-- The listing of a device as a text, with the notices on what it leaves out. -/
def Device.listingText (d : Device) (o : Options) : Checked String := do
  let l := d.listing o
  Checked.noteAll l.notices
  return l.text

namespace Job

/-- The listing of the description that a file holds, given what reading the file gave. -/
def listing (job : Job) (contents : Except FileFault String) : Checked String := do
  (← Device.ofFile job.input contents).listingText job.options

/-! ## Failures -/

/-- What keeps a job from its end. -/
inductive Failure where
  | compilation (input : String) (fault : Fault)
  | output (path : String) (cause : FileFault)
  deriving Repr, DecidableEq

/-- The wording of a failure, down to its first cause. The fault of an unreadable file
    names its cause too, so that this one comes twice. -/
def Failure.message : Failure → String
  | compilation input (.unreadable path cause) =>
    "failed to compile " ++ input ++ ": " ++ (Fault.unreadable path cause).message ++ ": "
      ++ cause.message
  | compilation input fault => "failed to compile " ++ input ++ ": " ++ fault.message
  | output path cause => "failed to write " ++ path ++ ": " ++ cause.message

/-- The line that reports a failure. -/
def Failure.line (f : Failure) : String := "Error: " ++ f.message

/-! ## Running -/

/-- What a run of the program leaves behind. -/
structure Report where
  exitCode : Nat
  output : String
  failure : Option Failure
  files : FileTree

/-- The line that tells the version. -/
def versionLine : String := "xtask 0.1.0\n"

/-- Writes a listing to the output of a job. -/
def deliver (job : Job) (files : FileTree) (text : String) : Report :=
  match job.output with
  | none => ⟨0, text, none, files⟩
  | some path =>
    match files.writeText path text with
    | .error cause => ⟨1, "", some (.output path cause), files⟩
    | .ok files => ⟨0, "", none, files⟩

/-- Runs a job on a file tree. A program that breaks off has an exit code of its own, and
    reports no failure. -/
def perform (job : Job) (files : FileTree) : Report :=
  match (job.listing (files.readText job.input)).result with
  | .error .capacityOverflow => ⟨101, "", none, files⟩
  | .error fault => ⟨1, "", some (.compilation job.input fault), files⟩
  | .ok text => job.deliver files text

/-- Runs the program with a command line on a file tree. -/
def run (words : List String) (files : FileTree) : Report :=
  match Job.parse words with
  | .error .help => ⟨0, "", none, files⟩
  | .error .version => ⟨0, versionLine, none, files⟩
  | .error (.usage _) => ⟨2, "", none, files⟩
  | .ok job => job.perform files

end Job
end RegisterMap
