/-!
# Paths

A path is a text of names between slashes. It is absolute if it starts with one.
Nothing is normalised: joining two paths only puts a slash between them where it is
missing.
-/

namespace Phototaxis.Path

/-- Whether the path starts at the root. -/
def isAbsolute (path : String) : Bool := path.toList.head? == some '/'

/-- The second path as seen from the first; an absolute path stands for itself. -/
def join (directory path : String) : String :=
  if isAbsolute path || directory.isEmpty then path
  else if directory.toList.getLast? == some '/' then directory ++ path
  else directory ++ "/" ++ path

/-- The pieces between the slashes, also the empty ones; the current piece is given by its
characters so far. -/
def piecesFrom (current : List Char) : List Char → List (List Char)
  | [] => [current]
  | '/' :: rest => current :: piecesFrom [] rest
  | c :: rest => piecesFrom (current ++ [c]) rest

/-- The pieces of a path between its slashes, also the empty ones. -/
def pieces (path : String) : List String := (piecesFrom [] path.toList).map String.ofList

/-- Drops trailing slashes and trailing pieces that are a single dot, as long as a name stands
before them; the characters are in reverse. -/
def dropIdle : List Char → List Char
  | ['/'] => ['/']
  | '/' :: rest => dropIdle rest
  | ['.', '/'] => ['/']
  | '.' :: '/' :: rest => dropIdle rest
  | chars => chars

/-- The path of the directory that holds what the path names; none for the root and for the empty
path. A bare name lies in the directory with the empty path. -/
def parent? (path : String) : Option String :=
  match dropIdle path.toList.reverse with
  | [] => none
  | ['/'] => none
  | named => some (String.ofList (dropIdle (named.dropWhile (· != '/'))).reverse)

/-- The path and the paths of the directories that lead to it, the longest first, as long as they
have a name; the number bounds how many there are. -/
def upwardFrom : Nat → String → List String
  | 0, _ => []
  | count + 1, path =>
    match parent? path with
    | none => []
    | some parent => path :: upwardFrom count parent

/-- The path and the paths of the directories that lead to it, the longest first. The root and the
empty path, which are always there, are not among them. -/
def upward (path : String) : List String := upwardFrom path.length path

end Phototaxis.Path
