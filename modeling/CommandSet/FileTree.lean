import CommandSet.FileStore
import CommandSet.Path

/-!
# File trees

A tree of directories and files in memory, with a working directory.  It behaves
like the file system of the system: a missing directory, a file in place of a
directory, a directory in place of a file and names beyond the limits are told
apart, and the first of them on the way decides how an access fails.

Main definitions:

- {lit}`FileTree`, {lit}`FileTree.find?`: the tree by location.
- {lit}`FileTree.locate`: the location that a path leads to.
- {lit}`FileTree.readFile`: the content of a file.
- {lit}`FileTree.ensureDirectory`: create the directories of a path.
- {lit}`FileTree.writeFile`: create or replace a file.
- {lit}`FileTree.changes`: the files of a tree that another one lacks.
-/

namespace CommandSet

/-- What lies at a location. -/
inductive FileNode where
  | file (content : ByteArray)
  | directory

/-- Whether something is a file with this content. -/
def FileNode.holds (content : ByteArray) : FileNode → Bool
  | file other => other.data == content.data
  | directory => false

/-- A tree below its root; a location is the list of names that leads to it. -/
structure FileTree where
  workingDirectory : List String
  nodes : List (List String × FileNode)

/-- Accesses to a tree.  What one has created stays when it fails. -/
abbrev FileAccess :=
  ExceptT FileError (StateM FileTree)

namespace FileTree

/-! ## Locations -/

/-- The tree that holds a working directory and nothing else. -/
def ofWorkingDirectory (location : List String) : FileTree :=
  ⟨location, []⟩

/-- What lies at a location.  The working directory and the directories above it
are always there. -/
def find? (tree : FileTree) (location : List String) : Option FileNode :=
  if location.isPrefixOf tree.workingDirectory then some .directory
  else tree.nodes.lookup location

/-- Put something at a location, in place of what lies there. -/
def insert (tree : FileTree) (location : List String) (node : FileNode) : FileTree :=
  ⟨tree.workingDirectory, tree.nodes.filter (·.1 != location) ++ [(location, node)]⟩

/-- The longest name, in bytes of UTF-8. -/
def maxNameLength : Nat :=
  255

/-- The longest path, in bytes of UTF-8. -/
def maxPathLength : Nat :=
  4095

/-- Why a path leads nowhere in any tree. -/
def pathFault? (path : String) : Option FileError :=
  if path.toList.contains (Char.ofNat 0) then some .nulInPath
  else if path.isEmpty then some .notFound
  else if path.utf8ByteSize > maxPathLength then some .nameTooLong
  else none

/-- The location that a path leads to from {lit}`location`. -/
def walk (tree : FileTree) (location : List String) :
    List String → Except FileError (List String)
  | [] => .ok location
  | name :: rest =>
      match tree.find? location with
      | some .directory =>
          if name == ".." then walk tree location.dropLast rest
          else if name.utf8ByteSize > maxNameLength then .error .nameTooLong
          else walk tree (location ++ [name]) rest
      | some (.file _) => .error .notADirectory
      | none => .error .notFound

/-- Where a path starts. -/
def start (tree : FileTree) (path : String) : List String :=
  if Path.isAbsolute path then [] else tree.workingDirectory

/-- The location that a path leads to.  Its directory exists, the last name itself
need not. -/
def locate (tree : FileTree) (path : String) : Except FileError (List String) :=
  match pathFault? path with
  | some error => .error error
  | none => tree.walk (tree.start path) (Path.names path)

/-! ## Access -/

/-- The content of a file. -/
def readFile (path : String) : FileAccess ByteArray := do
  let tree ← get
  let location ← tree.locate path
  match tree.find? location with
  | some (.file content) =>
      if Path.namesDirectory path then throw .notADirectory else pure content
  | some .directory => throw .isADirectory
  | none => throw .notFound

/-- Make a directory exist whose own directory exists. -/
def makeDirectory (origin names : List String) : FileAccess Unit := do
  let tree ← get
  let location ← tree.walk origin names
  match tree.find? location with
  | some .directory => pure ()
  | some (.file _) => throw .alreadyExists
  | none => set (tree.insert location .directory)

/-- Make a directory exist with all directories on the way to it, by its names in
reverse.  The way is climbed only as far up as directories are missing. -/
def ensureDirectory (origin : List String) : List String → FileAccess Unit
  | [] => pure ()
  | name :: above =>
      tryCatch (makeDirectory origin (name :: above).reverse) fun
        | .notFound => do
            ensureDirectory origin above
            makeDirectory origin (name :: above).reverse
        | error => throw error

/-- Make the directory of a path exist. -/
def ensureParent (path : String) : FileAccess Unit := do
  let parent := Path.parent path
  if !parent.isEmpty then
    match pathFault? parent with
    | some error => throw error
    | none => ensureDirectory ((← get).start path) (Path.names parent).reverse

/-- Create or replace a file, with the directories on its path. -/
def writeFile (path : String) (content : ByteArray) : FileAccess Unit := do
  ensureParent path
  let tree ← get
  let location ← tree.locate path
  if Path.namesDirectory path then throw .isADirectory
  match tree.find? location with
  | some .directory => throw .isADirectory
  | _ => set (tree.insert location (.file content))

/-- A tree is a file store. -/
instance : FileStore (StateM FileTree) where
  read path := (readFile path).run
  write path text := (writeFile path text.toUTF8).run

/-! ## Comparison -/

/-- The files below the working directory that {lit}`before` lacks or holds with
another content. -/
def changes (before tree : FileTree) : List (String × ByteArray) :=
  tree.nodes.filterMap fun
    | (location, .file content) =>
        if !tree.workingDirectory.isPrefixOf location
            || (before.find? location).any (·.holds content) then none
        else
          some (String.intercalate "/" (location.drop tree.workingDirectory.length), content)
    | (_, .directory) => none

end FileTree
end CommandSet
