import TopDown.Text.Quoted
import TopDown.Text.Utf8

/-
  Files as the program sees them: the bytes of a path, or why there are none. A path is walked part
  by part. A folder of files answers for the paths that lead into it; the folders above it are only
  known to be there.
-/

namespace TopDown.Program

/-- Why a path has no bytes. -/
inductive FileFault where
  | missing
  | directory
  | notDirectory
  | tooLong
  /-- The path holds a character that no path may hold. -/
  | unusable
  deriving DecidableEq

/-- The bytes of every path. -/
abbrev Reader := String → Except FileFault (List UInt8)

/-- Files by name. A name with slashes in it lies in a folder inside this one. -/
abbrev Folder := List (String × List UInt8)

/-- The parts of a path between slashes. -/
def pathParts (path : List Char) : List (List Char) :=
  match path with
  | [] => [[]]
  | c :: rest =>
    match pathParts rest with
    | [] => [[c]]
    | part :: parts => if c = '/' then [] :: part :: parts else (c :: part) :: parts

/-- Does a part of a path lead anywhere? -/
def isStep (part : String) : Bool :=
  part ≠ "" && part ≠ "."

/-- The parts of a path as texts. -/
def splitPath (path : String) : List String :=
  (pathParts path.toList).map String.ofList

/-- A path without empty parts and without parts that stay where they are; two slashes in front
are kept as they are, more count as one. -/
def tidyPath (path : String) : String :=
  let slashes := (path.toList.takeWhile (· = '/')).length
  let root := if slashes = 2 then "//" else if slashes = 0 then "" else "/"
  let tidy := root ++ "/".intercalate ((splitPath path).filter isStep)
  if tidy = "" then "." else tidy

/-- The most bytes a whole path may have. -/
def pathLimit : Nat := 4095

/-- The most bytes one part of a path may have. -/
def partLimit : Nat := 255

/-- What rules a path out before any folder is looked at. -/
def pathFault? (path : String) : Option FileFault :=
  if path.contains '\x00' then some .unusable
  else if pathLimit < path.utf8ByteSize then some .tooLong
  else if path = "" then some .missing
  else none

/-- How far a walk along a path has come. -/
inductive Spot where
  /-- In the folder, or in one inside it. -/
  | inside (trail : List String)
  /-- In one of the folders above. -/
  | above
  | file (bytes : List UInt8)
  deriving DecidableEq

namespace Folder

/-- What lies at a trail of names inside the folder. -/
def spotAt? (folder : Folder) (trail : List String) : Option Spot :=
  match folder.find? fun entry => splitPath entry.1 = trail with
  | some entry => some (.file entry.2)
  | none =>
    if folder.any fun entry => trail.isPrefixOf (splitPath entry.1) then some (.inside trail)
    else none

/-- One part further. -/
def step (folder : Folder) (spot : Spot) (part : String) : Except FileFault Spot :=
  match spot with
  | .file _ => .error .notDirectory
  | .above =>
    if !isStep part || part = ".." then .ok .above
    else if partLimit < part.utf8ByteSize then .error .tooLong
    else .error .missing
  | .inside trail =>
    if !isStep part then .ok spot
    else if part = ".." then .ok (if trail = [] then .above else .inside trail.dropLast)
    else if partLimit < part.utf8ByteSize then .error .tooLong
    else
      match folder.spotAt? (trail ++ [part]) with
      | some next => .ok next
      | none => .error .missing

/-- The bytes of a path, seen from inside the folder. -/
def read (folder : Folder) : Reader := fun path =>
  match pathFault? path with
  | some fault => .error fault
  | none =>
    let start := if path.toList.head? = some '/' then Spot.above else .inside []
    match (splitPath path).foldlM folder.step start with
    | .error fault => .error fault
    | .ok (.file bytes) => .ok bytes
    | .ok _ => .error .directory

end Folder

end TopDown.Program
