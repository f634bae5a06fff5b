import RegisterMap.Location
import RegisterMap.Numeral

/-!
# Faults

What can stop the compilation of a description. The first fault ends it and no
partial device is given. A constructor holds the cause and, where one
declaration is to blame, its location; `Fault.message` is the one place that
words them.
-/

namespace RegisterMap

/-! ## Parts of a fault -/

/-- What can be wrong with the dimension of a declaration. -/
inductive DimensionFlaw where
  | count
  | increment
  | reversedRange
  | rangeBounds
  | emptyEntry
  | offsetOverflow
  deriving Repr, DecidableEq

/-- The wording of a flaw. -/
def DimensionFlaw.message : DimensionFlaw → String
  | count => "count is not a non-negative integer"
  | increment => "increment is not a non-negative integer"
  | reversedRange => "index range is reversed"
  | rangeBounds => "index range bounds must be numbers or letters"
  | emptyEntry => "index list has an empty entry"
  | offsetOverflow => "element offset overflows"

/-- Why a file cannot be read or written. -/
inductive FileFault where
  | notFound
  | isDirectory
  | notDirectory
  | notText
  | other (message : String)
  deriving Repr, DecidableEq

/-- The wording of the system for a file that cannot be read or written. -/
def FileFault.message : FileFault → String
  | notFound => "No such file or directory (os error 2)"
  | isDirectory => "Is a directory (os error 21)"
  | notDirectory => "Not a directory (os error 20)"
  | notText => "stream did not contain valid UTF-8"
  | other message => message

/-- The bits that a field takes, by its lowest bit and its width. -/
structure BitSpan where
  offset : Nat
  width : Nat
  deriving Repr, DecidableEq

/-- The text of a bit span: its highest and its lowest bit. A field without bits is
    written like one with a single bit. The highest bit is not bounded here. The program
    computes it with 64 bits, so that a span that ends behind bit 2^64 - 1 is out of the scope
    of this definition: what the program does there depends on how it was built. -/
def BitSpan.text (span : BitSpan) : String :=
  "[" ++ toString (span.offset + (span.width - 1)) ++ ":" ++ toString span.offset ++ "]"

/-! ## Faults -/

/-- The cause that ends a compilation. -/
inductive Fault where
  /-- A name that is no word. -/
  | invalidName (location : Location) (name : String)
  /-- A required element that is absent or has no text. -/
  | missingElement (location : Location) (tag : String)
  /-- A dimension whose text cannot be read, or that leads beyond 64 bits. -/
  | malformedDimension (location : Location) (text : String) (flaw : DimensionFlaw)
  /-- An index list whose length is not the declared count. -/
  | dimensionMismatch (location : Location) (declared : Nat) (index : String) (listed : Nat)
  /-- A register of one name at two offsets of a group. -/
  | registerConflict (location : Location) (group register : String) (first second : Nat)
  /-- A field of one name at two bit spans of a register. -/
  | fieldConflict (location : Location) (field : String) (first second : BitSpan)
  /-- An interrupt of one name with two numbers. -/
  | interruptConflict (location : Location) (interrupt : String) (first second : Nat)
  /-- An interrupt without its name or its number. -/
  | missingInterruptPart (location : Location) (tag : String)
  /-- An interrupt number that is no 32-bit word. -/
  | invalidInterruptNumber (location : Location) (text : String)
  /-- A number that cannot be read. -/
  | invalidNumber (location : Location) (tag text : String)
  /-- A peripheral derived from one that is not declared. -/
  | unknownParent (peripheral parent : String)
  /-- A peripheral whose chain of parents comes back to a name on it. -/
  | circularDerivation (peripheral : String) (chain : List String)
  /-- A device without an address width. -/
  | missingWidth
  /-- An address width that is none of the four. -/
  | invalidWidth (text : String)
  /-- A text that is no well-formed document. -/
  | malformedDocument
  /-- A file that cannot be read. -/
  | unreadable (path : String) (cause : FileFault)
  /-- A range of indices that no list has room for. It is no error that is reported: the
      program breaks off. -/
  | capacityOverflow
  deriving Repr, DecidableEq

/-- The wording of a fault. -/
def Fault.message : Fault → String
  | invalidName loc name =>
    loc.text ++ ": invalid name `" ++ name ++ "`, only [A-Za-z0-9_] is allowed"
  | missingElement loc tag => loc.text ++ ": missing required `" ++ tag ++ "`"
  | malformedDimension loc text flaw =>
    loc.text ++ ": malformed dimension `" ++ text ++ "`: " ++ flaw.message
  | dimensionMismatch loc declared index listed =>
    loc.text ++ ": dimension declares " ++ toString declared ++ " elements but `" ++ index
      ++ "` lists " ++ toString listed
  | registerConflict loc group register first second =>
    loc.text ++ ": register " ++ register ++ " in group " ++ group ++ " declared at "
      ++ Numeral.hex first ++ " and at " ++ Numeral.hex second
  | fieldConflict loc field first second =>
    loc.text ++ ": field " ++ field ++ " redeclared at bits " ++ second.text
      ++ " (first declared at bits " ++ first.text ++ ")"
  | interruptConflict loc interrupt first second =>
    loc.text ++ ": interrupt " ++ interrupt ++ " declared with number " ++ toString first
      ++ " and " ++ toString second
  | missingInterruptPart loc tag => loc.text ++ ": interrupt is missing `" ++ tag ++ "`"
  | invalidInterruptNumber loc text =>
    loc.text ++ ": interrupt number `" ++ text ++ "` is not a non-negative integer"
  | invalidNumber loc tag text =>
    loc.text ++ ": `" ++ tag ++ "` value `" ++ text ++ "` is not a number"
  | unknownParent peripheral parent =>
    "peripheral " ++ peripheral ++ " is derived from unknown peripheral " ++ parent
  | circularDerivation peripheral chain =>
    "peripheral " ++ peripheral ++ " has a circular derivedFrom chain: "
      ++ " -> ".intercalate chain
  | missingWidth => "device does not declare an address width"
  | invalidWidth text => "address width `" ++ text ++ "` is not one of 8, 16, 32 or 64"
  | malformedDocument => "malformed document"
  | unreadable path cause => "failed to read " ++ path ++ ": " ++ cause.message
  | capacityOverflow => "capacity overflow"

/-- The location a fault blames, if it blames a declaration. -/
def Fault.location? : Fault → Option Location
  | invalidName loc _ | missingElement loc _ | malformedDimension loc _ _
  | dimensionMismatch loc _ _ _ | registerConflict loc _ _ _ _ | fieldConflict loc _ _ _
  | interruptConflict loc _ _ _ | missingInterruptPart loc _ | invalidInterruptNumber loc _
  | invalidNumber loc _ _ => some loc
  | unknownParent _ _ | circularDerivation _ _ | missingWidth | invalidWidth _
  | malformedDocument | unreadable _ _ | capacityOverflow => none

end RegisterMap
