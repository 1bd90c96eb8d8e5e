import Phototaxis.Files.Path
import Phototaxis.Text.Utf8

/-!
# Files

A world is assembled from files and its trajectory is written to files. Here a disk
is a list of entries, each a file with its bytes or a directory, under the names
that lead to it from the root. Paths are followed piece by piece, an absolute one
from the root and any other from the home of the disk; a file on the way, a missing
name, or a file where a directory is wanted are told apart.

Whoever only reads is given a `Reader`, so that it does not matter where the files
are.
-/

namespace Phototaxis

/-- What keeps a file from being read or made. -/
inductive FileFault where
  | notFound
  | alreadyExists
  | notDirectory
  | isDirectory
  | notText
  /-- Any other reason, as the host tells it. -/
  | other (reason : String)
deriving DecidableEq

/-- The text of a fault. -/
def FileFault.message : FileFault → String
  | notFound => "No such file or directory (os error 2)"
  | alreadyExists => "File exists (os error 17)"
  | notDirectory => "Not a directory (os error 20)"
  | isDirectory => "Is a directory (os error 21)"
  | notText => "stream did not contain valid UTF-8"
  | other reason => reason

namespace Files

/-- What a path leads to. -/
inductive Entry where
  | file (bytes : List UInt8)
  | directory
deriving DecidableEq

/-- A way to open what a path leads to. -/
abbrev Reader := String → Except FileFault Entry

/-- The text of the file at a path. -/
def Reader.text (read : Reader) (path : String) : Except FileFault String :=
  match read path with
  | .error e => .error e
  | .ok .directory => .error .isDirectory
  | .ok (.file bytes) =>
    match Text.decodeUtf8 bytes with
    | .ok text => .ok text
    | .error _ => .error .notText

/-- The files and directories below a root directory, each under the names that lead to it. -/
structure Disk where
  entries : List (List String × Entry)
  /-- The names that lead to the directory in which relative paths begin. -/
  home : List String := []
deriving Inhabited

namespace Disk

/-- The disk with nothing on it. -/
def empty : Disk := { entries := [] }

/-- What lies under a list of names. The root is a directory. -/
def entry? (disk : Disk) (names : List String) : Option Entry :=
  if names.isEmpty then some .directory
  else (disk.entries.find? (·.1 == names)).map (·.2)

/-- The disk with an entry put under a list of names, in place of what was there. -/
def put (disk : Disk) (names : List String) (entry : Entry) : Disk :=
  { disk with entries := (names, entry) :: disk.entries.filter (·.1 != names) }

/-- The disk with a directory under every list of names that leads to the given one. -/
def putParents (disk : Disk) (names : List String) : Disk :=
  (List.range (names.length - 1)).foldl
    (fun disk i => disk.put (names.take (i + 1)) .directory) disk

/-- The disk with a file put at a relative path; the directories on the way are there too. -/
def putFile (disk : Disk) (path : String) (bytes : List UInt8) : Disk :=
  let names := disk.home ++ (Path.pieces path).filter fun piece => piece != "" && piece != "."
  (disk.putParents names).put names (.file bytes)

/-- The disk with the given files below its home, which is there also if there are none. -/
def ofFiles (home : List String) (files : List (String × List UInt8)) : Disk :=
  let disk := { empty with home := home }
  files.foldl (fun disk (path, bytes) => disk.putFile path bytes) (disk.putParents (home ++ [""]))

/-- Follows the pieces of a path from a list of names. The last piece may name nothing; it is given
back with what is there, if anything. -/
def follow (disk : Disk) (names : List String) :
    List String → Except FileFault (List String × Option Entry)
  | [] => .ok (names, disk.entry? names)
  | piece :: rest =>
    match disk.entry? names with
    | none => .error .notFound
    | some (.file _) => .error .notDirectory
    | some .directory =>
      if piece == "" || piece == "." then follow disk names rest
      else if piece == ".." then follow disk names.dropLast rest
      else follow disk (names ++ [piece]) rest

/-- Follows a path. The empty path leads nowhere. -/
def locate (disk : Disk) (path : String) : Except FileFault (List String × Option Entry) :=
  if path.isEmpty then .error .notFound
  else disk.follow (if Path.isAbsolute path then [] else disk.home) (Path.pieces path)

/-- Opens what a path leads to. -/
def reader (disk : Disk) : Reader := fun path => do
  match (← disk.locate path).2 with
  | some entry => return entry
  | none => throw .notFound

/-- Whether a path leads to a directory. -/
def isDirectory (disk : Disk) (path : String) : Bool :=
  match disk.locate path with
  | .ok (_, some .directory) => true
  | _ => false

/-- Makes a directory at a path that names nothing yet. A dot or two dots at its end name what is
there already; slashes at its end count for nothing. -/
def makeDirectory (disk : Disk) (path : String) : Except FileFault Disk :=
  let pieces := (Path.pieces path).reverse.dropWhile (· == "")
  match pieces with
  | [] => .error (if path.isEmpty then .notFound else .alreadyExists)
  | name :: before => do
    let start := if Path.isAbsolute path then [] else disk.home
    match ← disk.follow start before.reverse with
    | (_, none) => throw .notFound
    | (_, some (.file _)) => throw .notDirectory
    | (names, some .directory) =>
      if name == "." || name == ".." then throw .alreadyExists
      if (disk.entry? (names ++ [name])).isSome then throw .alreadyExists
      return disk.put (names ++ [name]) .directory

/-- Makes a directory at a path, unless it is there. -/
def ensureDirectory (disk : Disk) (path : String) : Except FileFault Disk :=
  match disk.makeDirectory path with
  | .error .alreadyExists => if disk.isDirectory path then .ok disk else .error .alreadyExists
  | result => result

/-- Makes the directory at the first path. Where the way to it is missing, that of the next path,
which leads to it, is made before. -/
def ensureUpward (disk : Disk) : List String → Except FileFault Disk
  | [] => .ok disk
  | path :: shorter =>
    match disk.ensureDirectory path with
    | .error .notFound => do (← disk.ensureUpward shorter).ensureDirectory path
    | result => result

/-- Makes the directory at a path and those on the way to it, as far as they are missing. -/
def createDirectory (disk : Disk) (path : String) : Except FileFault Disk :=
  disk.ensureUpward (Path.upward path)

/-- Writes a file, in place of one that may be there. -/
def write (disk : Disk) (path : String) (bytes : List UInt8) : Except FileFault Disk := do
  let (names, entry) ← disk.locate path
  match entry with
  | some .directory => throw .isDirectory
  | _ => return disk.put names (.file bytes)

end Disk

end Files

end Phototaxis
