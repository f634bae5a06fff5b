import RegisterMap.Fault

/-!
# File trees

A working directory with files and directories in it, as far as a program that
reads one file and writes another can tell. A path is followed part by part
from the working directory. Nothing outside of it can be found.
-/

namespace RegisterMap

/-- What stands at a place of a tree. -/
inductive FileTree.Entry where
  | file (bytes : ByteArray)
  | directory

/-- The entries below a working directory, each at the names that lead to it. -/
structure FileTree where
  entries : List (List String × FileTree.Entry) := []

namespace FileTree

/-! ## Finding places -/

/-- What stands at a place. The working directory itself is always there. -/
def entry? (t : FileTree) : List String → Option Entry
  | [] => some .directory
  | place => t.entries.lookup place

/-- The place that one part of a path leads to. -/
def step (dir : List String) (part : String) : List String :=
  if part = "" ∨ part = "." then dir
  else if part = ".." then dir.dropLast
  else dir ++ [part]

/-- The place that the parts of a path lead to. Every place on the way has to be a
    directory. -/
def follow (t : FileTree) (dir : List String) : List String → Except FileFault (List String)
  | [] => .ok dir
  | part :: parts =>
    match t.entry? dir with
    | none => .error .notFound
    | some (.file _) => .error .notDirectory
    | some .directory => t.follow (step dir part) parts

/-- The parts of a path inside the working directory. -/
def parts (path : String) : Except FileFault (List String) :=
  if path = "" then .error .notFound
  else if path.toList.all (· == '/') then .ok []
  else if path.toList.head? = some '/' then .error .notFound
  else .ok (path.splitOn "/")

/-! ## Reading -/

/-- The contents of a file. -/
def read (t : FileTree) (path : String) : Except FileFault ByteArray := do
  match t.entry? (← t.follow [] (← parts path)) with
  | none => .error .notFound
  | some .directory => .error .isDirectory
  | some (.file bytes) => .ok bytes

/-- The text of a file. -/
def readText (t : FileTree) (path : String) : Except FileFault String := do
  match String.fromUTF8? (← t.read path) with
  | none => .error .notText
  | some text => .ok text

/-! ## Writing -/

/-- The tree with an entry at a place, in the stead of what stood there. -/
def put (t : FileTree) (place : List String) (e : Entry) : FileTree :=
  ⟨t.entries.filter (·.1 != place) ++ [(place, e)]⟩

/-- The tree with a text in a file, which is created if its directory exists. A path that
    ends in a slash leads to no file. -/
def writeText (t : FileTree) (path text : String) : Except FileFault FileTree := do
  let parts ← parts path
  let names := parts.filter (· ≠ "")
  let dir ← t.follow [] names.dropLast
  match t.entry? dir with
  | none => .error .notFound
  | some (.file _) => .error .notDirectory
  | some .directory =>
    let place := step dir (names.getLast?.getD ".")
    match t.entry? place with
    | some .directory => .error .isDirectory
    | _ =>
      if parts.getLast? = some "" then .error .isDirectory
      else .ok (t.put place (.file text.toUTF8))

/-- The tree with an entry at some names, and with the directories on the way to it. -/
def add (t : FileTree) (place : List String) (e : Entry) : FileTree :=
  let way := (List.range' 1 (place.length - 1)).map place.take
  let missing := way.filter fun dir => (t.entry? dir).isNone
  (missing.foldl (fun t dir => t.put dir .directory) t).put place e

end FileTree
end RegisterMap
