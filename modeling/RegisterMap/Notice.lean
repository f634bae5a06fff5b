import RegisterMap.Location
import RegisterMap.Numeral
import RegisterMap.Width

/-!
# Notices

What the compiler reports besides its result: oddities of the description that
do not stop it, items that a listing leaves out, and the course of the work.
Like faults, notices are causes, and `Notice.message` words them.
-/

namespace RegisterMap

/-- How much a notice matters. -/
inductive Level where
  | warn | info | debug
  deriving Repr, DecidableEq

/-- The rank of a level; a reader that asks for one level gets all of lower rank too. -/
def Level.rank : Level → Nat
  | warn => 0
  | info => 1
  | debug => 2

/-- One report of the compiler. -/
inductive Notice where
  /-- A file has been read and is about to be compiled. -/
  | compiling (path : String)
  /-- A description has been compiled, with this many entries. -/
  | compiled (peripherals groups interrupts : Nat)
  /-- An address is written in decimal. -/
  | decimalAddress (location : Location) (tag text : String)
  /-- A peripheral has been read. -/
  | baseAddress (location : Location) (base : Nat)
  /-- The registers of a derived peripheral are not read. -/
  | layoutIgnored (location : Location)
  /-- A register cluster is not read. -/
  | clusterSkipped (location : Location) (name : Option String)
  /-- The access mode of a register has an unknown name. -/
  | unknownAccess (location : Location) (text : String)
  /-- A register is repeated no times. -/
  | emptyDimension (location : Location)
  /-- A register is declared again at its offset. -/
  | registerRepeated (group register : String)
  /-- A field is declared again at its bits. -/
  | fieldRepeated (location : Location) (field : String)
  /-- An interrupt is declared again with its number. -/
  | interruptRepeated (location : Location) (interrupt : String)
  /-- An unused vector has been filled. -/
  | vectorFilled (number : Nat)
  /-- A derived peripheral has been given the group of its parent. -/
  | groupDerived (peripheral group parent : String)
  /-- An item of a listing has the name of an earlier one. -/
  | collision (item name : String)
  /-- A register takes the name that the base address of its peripheral would have. -/
  | baseOmitted (peripheral : String)
  /-- The value of an item is beyond the width of the device. -/
  | tooWide (item : String) (value : Nat) (width : Width)
  /-- The address of an item is beyond 64 bits. -/
  | addressOverflow (item : String)
  deriving Repr, DecidableEq

/-- How much each notice matters. -/
def Notice.level : Notice → Level
  | compiling _ | compiled _ _ _ => .info
  | decimalAddress _ _ _ | clusterSkipped _ _ | unknownAccess _ _ => .warn
  | collision _ _ | baseOmitted _ | tooWide _ _ _ | addressOverflow _ => .warn
  | baseAddress _ _ | layoutIgnored _ | emptyDimension _ | registerRepeated _ _
  | fieldRepeated _ _ | interruptRepeated _ _ | vectorFilled _ | groupDerived _ _ _ => .debug

/-- The wording of a notice. -/
def Notice.message : Notice → String
  | compiling path => "compiling " ++ path
  | compiled peripherals groups interrupts =>
    "compiled " ++ toString peripherals ++ " peripherals, " ++ toString groups
      ++ " register groups, " ++ toString interrupts ++ " interrupt vectors"
  | decimalAddress loc tag text =>
    loc.text ++ ": " ++ tag ++ " `" ++ text ++ "` is not hexadecimal"
  | baseAddress loc base => loc.text ++ ": base address " ++ Numeral.hex base
  | layoutIgnored loc => loc.text ++ ": derived peripheral, own registers ignored"
  | clusterSkipped loc name =>
    loc.text ++ ": cluster " ++ name.getD "<unnamed>" ++ " not supported, skipped"
  | unknownAccess loc text => loc.text ++ ": unknown access `" ++ text ++ "` ignored"
  | emptyDimension loc => loc.text ++ ": dimension of 0, register skipped"
  | registerRepeated group register =>
    group ++ ": " ++ register ++ " already declared, keeping first"
  | fieldRepeated loc field => loc.text ++ ": repeated field " ++ field ++ " ignored"
  | interruptRepeated loc interrupt =>
    loc.text ++ ": interrupt " ++ interrupt ++ " already declared"
  | vectorFilled number =>
    "interrupt vector " ++ toString number ++ " unused, adding placeholder"
  | groupDerived peripheral group parent =>
    peripheral ++ " derives group " ++ group ++ " from " ++ parent
  | collision item name =>
    item ++ ": `" ++ name ++ "` collides with an earlier item, skipped"
  | baseOmitted peripheral =>
    peripheral ++ ": register named BASE_ADDRESS, base address constant omitted"
  | tooWide item value width =>
    item ++ ": " ++ Numeral.hex value ++ " does not fit in " ++ width.typeName ++ ", skipped"
  | addressOverflow item => item ++ ": address overflows, skipped"

end RegisterMap
