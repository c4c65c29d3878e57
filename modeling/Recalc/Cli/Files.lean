import Recalc.Cli.Host
import Std.Data.TreeMap

/-!
# Files held in memory

The files of a working directory without subdirectories. Paths may also lead to the directories
above it, to the root and to the null device, which is empty and keeps nothing that is written.
-/

namespace Recalc.Cli

/-- Files by the way to them, which is the name for a file in the working directory. -/
abbrev Files := Std.TreeMap String (List UInt8)

namespace Files

/-- The most bytes that a name may have. -/
def longestName : Nat := 255

/-- The most bytes that a path may have. -/
def longestPath : Nat := 4095

def nullDevice : String := "/dev/null"

/-- A directory. -/
inductive Place where
  /-- The directory so many levels above the working directory. -/
  | above (levels : Nat)
  | root
  | devices
  deriving DecidableEq, Repr

namespace Place

def parent : Place → Place
  | above levels => above (levels + 1)
  | root | devices => root

/-- The way to a name in a directory. -/
def wayTo (name : String) : Place → String
  | above levels => String.join (List.replicate levels "../") ++ name
  | root => "/" ++ name
  | devices => "/dev/" ++ name

/-- The directory that a part of a path leads to, unless it is the name of a file. -/
def enter? (part : String) (place : Place) : Option Place :=
  if part = "." then some place
  else if part = ".." then some place.parent
  else if place = root && part = "dev" then some devices
  else none

end Place

/-- Where a path leads. -/
inductive Target where
  | directory
  /-- A name that may be the name of a file. -/
  | entry (place : Place) (name : String)
  | nowhere (cause : FileError)
  deriving DecidableEq, Repr

/-- The bytes of a file. -/
def bytes? (files : Files) (way : String) : Option (List UInt8) :=
  if way = nullDevice then some [] else files[way]?

/-- Why there is no file of a name. -/
def absence (name : String) : FileError :=
  if longestName < name.utf8ByteSize then .nameTooLong else .missing

/-- Why nothing is found below a name. -/
def blocked (files : Files) (place : Place) (name : String) : FileError :=
  if (files.bytes? (place.wayTo name)).isSome then .notDirectory else absence name

/-- Go on from a directory by the parts of a path. -/
def walk (files : Files) : Place → List String → Target
  | _, [] => .directory
  | place, part :: rest =>
      match place.enter? part with
      | some next => walk files next rest
      | none => if rest.isEmpty then .entry place part else .nowhere (files.blocked place part)

/-- What stands between the slashes of a path. -/
def partsOf (path : String) : List String :=
  ((path.toList.splitOn '/').filter fun part => !part.isEmpty).map String.ofList

/-- Follow a path. Only the length of a path is looked at before its first part. -/
def follow (files : Files) (path : String) : Target :=
  if path.isEmpty then .nowhere .missing
  else if longestPath < path.utf8ByteSize then .nowhere .nameTooLong
  else
    let start := if path.startsWith "/" then Place.root else .above 0
    files.walk start (partsOf path)

/-- A directory can be opened, but not read. A slash behind a name asks for a directory. -/
def read (files : Files) (path : String) : Except Csv.Error (List UInt8) :=
  match files.follow path with
  | .directory => .error (.reading .directory)
  | .nowhere cause => .error (.file cause)
  | .entry place name =>
      match files.bytes? (place.wayTo name) with
      | none => .error (.file (absence name))
      | some bytes => if path.endsWith "/" then .error (.file .notDirectory) else .ok bytes

/-- Write a file, which may be new. No file is made from a name with a slash behind it. -/
def write (files : Files) (path : String) (bytes : List UInt8) : Except Csv.Error Files :=
  match files.follow path with
  | .directory => .error (.file .directory)
  | .nowhere cause => .error (.file cause)
  | .entry place name =>
      let way := place.wayTo name
      if path.endsWith "/" then .error (.file .directory)
      else if longestName < name.utf8ByteSize then .error (.file .nameTooLong)
      else if way = nullDevice then .ok files
      else .ok (files.insert way bytes)

/-- A host whose files are held in memory and whose clock stands still. -/
def host : Host (StateM Files) where
  readFile path := return (← get).read path
  writeFile path bytes := do
    match (← get).write path bytes with
    | .ok files =>
        set files
        return .ok ()
    | .error e => return .error e
  timed computation := return (computation (), 0)

end Files

end Recalc.Cli
