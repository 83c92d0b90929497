import Transpiler.Command.Arguments
import Transpiler.Command.Storage

/-!
Contract: files and directories as a value.

A location is the list of names on the way from the root. Paths are followed name by
name: every name but the last must be a directory, a single dot stays and two dots go
up. A slash at the end of a path asks for a directory. Names and paths are limited in
length, and a name is measured when it is looked up.
-/

namespace Transpiler

/-- Files with their contents, the directories there are, and the directory that relative
paths start from. -/
structure FileTree where
  files : List (List String × ByteArray)
  directories : List (List String)
  workingDirectory : List String

/-- What stands at a location. -/
inductive FileEntry where
  | directory
  | file (contents : ByteArray)

namespace FileTree

/-- The file that is always empty: what is written to it is lost. -/
def nullDevice : List String := ["dev", "null"]

/-- A tree with an empty working directory, and no file but the null device. -/
def empty : FileTree :=
  ⟨[(nullDevice, .empty)], [[], ["dev"], ["tmp"], ["tmp", "work"]], ["tmp", "work"]⟩

/-- The most bytes that a name may have. -/
def nameLimit : Nat := 255

/-- The most bytes that a path may have. -/
def pathLimit : Nat := 4095

def entry? (tree : FileTree) (location : List String) : Option FileEntry :=
  if tree.directories.contains location then some .directory
  else (tree.files.find? (·.1 == location)).map fun (_, contents) => .file contents

/-- What stands under a name in a directory. -/
def lookup (tree : FileTree) (directory : List String) (name : String) :
    Except FileError (Option FileEntry) :=
  if nameLimit < name.utf8ByteSize then .error .nameTooLong
  else .ok (tree.entry? (directory ++ [name]))

/-- The directory reached by following names from a directory. -/
def follow (tree : FileTree) (location : List String) :
    List String → Except FileError (List String)
  | [] => .ok location
  | name :: rest =>
      if name == "" || name == "." then tree.follow location rest
      else if name == ".." then tree.follow location.dropLast rest
      else
        match tree.lookup location name with
        | .ok (some .directory) => tree.follow (location ++ [name]) rest
        | .ok (some (.file _)) => .error .notDirectory
        | .ok none => .error .notFound
        | .error cause => .error cause

/-- Where a path leads. -/
inductive Target where
  /-- A directory, by its dots or as the root. -/
  | directory
  /-- A name in a directory, with a slash behind it or not. -/
  | named (parent : List String) (name : String) (hasSlash : Bool)
deriving DecidableEq, Repr

/-- Follows a path up to its last name. -/
def locate (tree : FileTree) (path : String) : Except FileError Target :=
  if path.toList.contains '\x00' then .error .nulInPath
  else if path.isEmpty then .error .notFound
  else if pathLimit < path.utf8ByteSize then .error .nameTooLong
  else
    let isAbsolute := path.toList.head? == some '/'
    let base := if isAbsolute then [] else tree.workingDirectory
    let parts := (pathParts path.toList).map String.ofList
    let named := (parts.reverse.dropWhile (·.isEmpty)).reverse
    match named.getLast? with
    | none => .ok .directory
    | some last => do
        let parent ← tree.follow base named.dropLast
        if last == "." || last == ".." then return .directory
        else return .named parent last (named.length < parts.length)

/-- The contents of a file. -/
def read (tree : FileTree) (path : String) : Except FileError ByteArray := do
  match ← tree.locate path with
  | .directory => throw .isDirectory
  | .named parent name hasSlash =>
      match ← tree.lookup parent name with
      | none => throw .notFound
      | some .directory => throw .isDirectory
      | some (.file contents) => if hasSlash then throw .notDirectory else return contents

/-- The tree with the contents of one file replaced or a new file added. -/
def store (tree : FileTree) (location : List String) (contents : ByteArray) : FileTree :=
  if location == nullDevice then tree
  else if tree.files.any (·.1 == location) then
    { tree with files := tree.files.map fun file =>
        if file.1 == location then (location, contents) else file }
  else { tree with files := tree.files ++ [(location, contents)] }

/-- Writes a file, whose directory must exist. -/
def write (tree : FileTree) (path : String) (contents : ByteArray) :
    Except FileError FileTree := do
  match ← tree.locate path with
  | .directory => throw .isDirectory
  | .named parent name hasSlash =>
      if hasSlash then throw .isDirectory
      else
        match ← tree.lookup parent name with
        | some .directory => throw .isDirectory
        | _ => return tree.store (parent ++ [name]) contents

/-- The location that a path names below the working directory, dots not resolved. -/
def locationOf (tree : FileTree) (path : String) : List String :=
  tree.workingDirectory
    ++ ((pathParts path.toList).filter fun part => part != [] && part != ['.']).map String.ofList

/-- Every way down to a location, the location included. -/
def ancestors (location : List String) : List (List String) :=
  (List.range (location.length + 1)).map location.take

/-- The tree with a directory and all directories above it. -/
def addDirectory (tree : FileTree) (location : List String) : FileTree :=
  let missing := (ancestors location).filter fun directory =>
    !tree.directories.contains directory
  { tree with directories := tree.directories ++ missing }

/-- The tree with a file at a location, and the directories above it. -/
def addFile (tree : FileTree) (location : List String) (contents : ByteArray) : FileTree :=
  (tree.addDirectory location.dropLast).store location contents

/-- The files below the working directory, by their relative paths. -/
def relativeFiles (tree : FileTree) : List (String × ByteArray) :=
  (tree.files.filter fun (location, _) => tree.workingDirectory.isPrefixOf location).map
    fun (location, contents) =>
      (String.intercalate "/" (location.drop tree.workingDirectory.length), contents)

/-- The files of this tree that an earlier one did not have or had with other contents. -/
def changesSince (tree earlier : FileTree) : List (String × ByteArray) :=
  tree.relativeFiles.filter fun file => !earlier.relativeFiles.contains file

/-- The tree as a place where a run keeps its files. -/
def storage : Storage (StateM FileTree) where
  read path := do
    let tree ← get
    return tree.read path
  write path contents := do
    let tree ← get
    match tree.write path contents with
    | .ok next =>
        set next
        return .ok ()
    | .error cause => return .error cause

end FileTree
end Transpiler
