/-!
# Paths

A path leads to a file by the names between its slashes.  Empty names and single
dots lead nowhere; a path that starts with a slash is absolute.

Main definitions:

- {lit}`Path.names`: the names of a path.
- {lit}`Path.join`: a path below a directory.
- {lit}`Path.parent`: the directory of a path.
-/

namespace CommandSet
namespace Path

/-- The parts between the slashes of a text. -/
def pieces : List Char → List (List Char)
  | [] => [[]]
  | c :: rest =>
      if c == '/' then [] :: pieces rest
      else
        match pieces rest with
        | [] => [[c]]
        | piece :: others => (c :: piece) :: others

/-- A part that names something. -/
def isName (piece : List Char) : Bool :=
  !piece.isEmpty && piece != ['.']

/-- The names of a path; two dots count as a name. -/
def names (path : String) : List String :=
  ((pieces path.toList).filter isName).map String.ofList

/-- An absolute path starts at the root and not at the working directory. -/
def isAbsolute (path : String) : Bool :=
  ['/'].isPrefixOf path.toList

/-- Whether a path can only lead to a directory: its end is a slash or a single dot. -/
def namesDirectory (path : String) : Bool :=
  !((pieces path.toList).getLast?.any isName)

/-- A path below a directory.  The empty path is the working directory, and an
absolute path is below nothing. -/
def join (directory path : String) : String :=
  if directory.isEmpty || isAbsolute path then path
  else if ['/'].isSuffixOf directory.toList then directory ++ path
  else directory ++ "/" ++ path

/-- The directory of a path: the path up to its last name, without the slashes and
single dots in between. -/
def parent (path : String) : String :=
  let above := ((pieces path.toList).reverse.dropWhile (!isName ·)).drop 1
  let kept := (above.dropWhile (!isName ·)).reverse.map String.ofList
  if kept.isEmpty && isAbsolute path then "/" else String.intercalate "/" kept

end Path
end CommandSet
