import RegisterMap.Listing.Basic

/-!
# The command line

What the words behind the name of the program ask for. Options may stand in any
order around the one input, in a long or a short form, with their value
attached or in the next word; a double dash ends them. The words are read one
by one by `Reading.step`, and the first fault or the first call for help ends
the reading.
-/

namespace RegisterMap

/-! ## Requests -/

/-- A listing to make: from which description, and where to write it. -/
structure Job where
  input : String
  output : Option String
  options : Options
  verbose : Bool
  deriving Repr, DecidableEq

namespace CommandLine

/-- What can be wrong with a command line. -/
inductive UsageFault where
  | missingCommand
  | unknownCommand (text : String)
  | unknownOption (text : String)
  | missingValue
  | unexpectedValue (option : String)
  | repeatedOption
  | missingInput
  | unexpectedInput (text : String)
  | emptyPath
  deriving Repr, DecidableEq

/-- The wording of a usage fault. -/
def UsageFault.message : UsageFault → String
  | missingCommand => "a command is required"
  | unknownCommand text => "unknown command `" ++ text ++ "`"
  | unknownOption text => "unknown option `" ++ text ++ "`"
  | missingValue => "an option lacks its value"
  | unexpectedValue option => "the option `" ++ option ++ "` takes no value"
  | repeatedOption => "an option is given twice"
  | missingInput => "a description is required"
  | unexpectedInput text => "unexpected argument `" ++ text ++ "`"
  | emptyPath => "a path must not be empty"

/-- Why a command line asks for no job. -/
inductive Stop where
  | help
  | version
  | usage (fault : UsageFault)
  deriving Repr, DecidableEq

/-! ## Words -/

/-- A word of a command line by its form. -/
inductive Word where
  /-- A double dash. -/
  | escape
  /-- A name behind two dashes, maybe with a value behind an equals sign. -/
  | long (name : String) (value : Option String)
  /-- Letters behind one dash. -/
  | short (letters : List Char)
  /-- Any other word, a single dash among them. -/
  | plain (text : String)
  deriving Repr, DecidableEq

/-- The form of a word. -/
def Word.ofText (text : String) : Word :=
  match text.toList with
  | ['-', '-'] => .escape
  | '-' :: '-' :: rest =>
    let name := String.ofList (rest.takeWhile (· ≠ '='))
    match rest.dropWhile (· ≠ '=') with
    | [] => .long name none
    | _ :: value => .long name (some (String.ofList value))
  | '-' :: c :: cs => .short (c :: cs)
  | _ => .plain text

/-! ## Options -/

/-- An option without a value. -/
inductive Flag where
  | help | verbose | noGroups | noDocs
  deriving Repr, DecidableEq

/-- An option with a value. -/
inductive Setting where
  | output | included | excluded
  deriving Repr, DecidableEq

/-- An option of the command that makes a listing. -/
inductive Switch where
  | flag (f : Flag)
  | setting (s : Setting)
  deriving Repr, DecidableEq

/-- The option with a long name. -/
def Switch.ofName? : String → Option Switch
  | "help" => some (.flag .help)
  | "verbose" => some (.flag .verbose)
  | "no-groups" => some (.flag .noGroups)
  | "no-docs" => some (.flag .noDocs)
  | "output" => some (.setting .output)
  | "include" => some (.setting .included)
  | "exclude" => some (.setting .excluded)
  | _ => none

/-- The option with a letter. -/
def Switch.ofLetter? : Char → Option Switch
  | 'h' => some (.flag .help)
  | 'v' => some (.flag .verbose)
  | 'o' => some (.setting .output)
  | _ => none

/-! ## Reading the options of a job -/

/-- What the next word may be. -/
inductive Mode where
  | any
  /-- Only the value of an option. -/
  | value (s : Setting)
  /-- Only an input. -/
  | inputs
  deriving Repr, DecidableEq

/-- A job as far as its words have been read. -/
structure Reading where
  mode : Mode := .any
  input : Option String := none
  output : Option String := none
  included : List String := []
  excluded : List String := []
  raised : List Flag := []
  deriving Repr, DecidableEq

namespace Reading

/-- Raises a flag, which may happen once. -/
def raise (r : Reading) (f : Flag) : Except Stop Reading :=
  if f = .help then .error .help
  else if r.raised.contains f then .error (.usage .repeatedOption)
  else .ok { r with raised := r.raised ++ [f] }

/-- Gives an option its value. The output may be given once, and names may be given any
    number of times. -/
def assign (r : Reading) (s : Setting) (value : String) : Except Stop Reading :=
  match s with
  | .output =>
    if r.output.isSome then .error (.usage .repeatedOption)
    else if value = "" then .error (.usage .emptyPath)
    else .ok { r with mode := .any, output := some value }
  | .included => .ok { r with mode := .any, included := r.included ++ [value] }
  | .excluded => .ok { r with mode := .any, excluded := r.excluded ++ [value] }

/-- Takes the one input. -/
def take (r : Reading) (path : String) : Except Stop Reading :=
  if r.input.isSome then .error (.usage (.unexpectedInput path))
  else if path = "" then .error (.usage .emptyPath)
  else .ok { r with input := some path }

/-- Reads letters behind one dash. The first one that stands for an option with a value
    takes the rest as its value, or the next word if nothing is left. -/
def letters (r : Reading) : List Char → Except Stop Reading
  | [] => .ok r
  | c :: cs =>
    match Switch.ofLetter? c with
    | none => .error (.usage (.unknownOption c.toString))
    | some (.flag f) =>
      match r.raise f with
      | .error stop => .error stop
      | .ok r => r.letters cs
    | some (.setting s) =>
      match cs with
      | [] => .ok { r with mode := .value s }
      | '=' :: value => r.assign s (String.ofList value)
      | value => r.assign s (String.ofList value)

/-- Reads one word. -/
def step (r : Reading) (text : String) : Except Stop Reading :=
  match r.mode, Word.ofText text with
  | .inputs, _ => r.take text
  | .value s, .plain value => r.assign s value
  | .value _, _ => .error (.usage .missingValue)
  | .any, .escape => .ok { r with mode := .inputs }
  | .any, .plain path => r.take path
  | .any, .short letters => r.letters letters
  | .any, .long name value =>
    match Switch.ofName? name, value with
    | none, _ => .error (.usage (.unknownOption name))
    | some (.flag f), none => r.raise f
    | some (.flag _), some _ => .error (.usage (.unexpectedValue name))
    | some (.setting s), none => .ok { r with mode := .value s }
    | some (.setting s), some value => r.assign s value

/-- The peripherals that the words select. -/
def selection (r : Reading) : Selection :=
  r.excluded.foldl Selection.withExcluded (r.included.foldl Selection.withIncluded .all)

/-- The job that all words ask for. -/
def job (r : Reading) (verbose : Bool) : Except Stop Job :=
  match r.mode, r.input with
  | .value _, _ => .error (.usage .missingValue)
  | _, none => .error (.usage .missingInput)
  | _, some input =>
    .ok
      { input
        output := r.output
        options :=
          { groups := !r.raised.contains .noGroups
            descriptions := !r.raised.contains .noDocs
            selection := r.selection }
        verbose := verbose || r.raised.contains .verbose }

end Reading

/-! ## Reading a command line -/

/-- The name of the command that makes a listing. -/
def commandName : String := "svd-gen"

/-- Reads letters in front of the command. The result tells whether the job is verbose. -/
def globalLetters (verbose : Bool) : List Char → Except Stop Bool
  | [] => .ok verbose
  | 'v' :: cs => if verbose then .error (.usage .repeatedOption) else globalLetters true cs
  | 'h' :: _ => .error .help
  | 'V' :: _ => .error .version
  | c :: _ => .error (.usage (.unknownOption c.toString))

/-- Reads an option in front of the command. -/
def globalOption (verbose : Bool) (name : String) (value : Option String) : Except Stop Bool :=
  match name, value with
  | "verbose", none => if verbose then .error (.usage .repeatedOption) else .ok true
  | "help", none => .error .help
  | "version", none => .error .version
  | _, some _ => .error (.usage (.unexpectedValue name))
  | _, none => .error (.usage (.unknownOption name))

/-- The words behind a call for help, which may name one command. -/
def helpOn (words : List String) : Stop :=
  if words = [] ∨ words = [commandName] ∨ words = ["help"] then .help
  else .usage (.unknownCommand (" ".intercalate words))

/-- Reads a command line, given whether the words before made it verbose. -/
def parseFrom (verbose : Bool) : List String → Except Stop Job
  | [] => .error (.usage .missingCommand)
  | text :: words =>
    match Word.ofText text with
    | .escape => .error (.usage .missingCommand)
    | .plain name =>
      if name = commandName then do (← words.foldlM Reading.step {}).job verbose
      else if name = "help" then .error (helpOn words)
      else .error (.usage (.unknownCommand name))
    | .long name value =>
      match globalOption verbose name value with
      | .error stop => .error stop
      | .ok verbose => parseFrom verbose words
    | .short letters =>
      match globalLetters verbose letters with
      | .error stop => .error stop
      | .ok verbose => parseFrom verbose words

end CommandLine

/-- The job that a command line asks for. -/
def Job.parse (words : List String) : Except CommandLine.Stop Job :=
  CommandLine.parseFrom false words

end RegisterMap
