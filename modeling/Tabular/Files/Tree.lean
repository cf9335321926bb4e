import Tabular.Files.Basic
/-!
# Trees of files

Files held in memory, read by path from the directory they stand in. What lies outside that
directory is taken to be empty.
-/

namespace Tabular

/-- The paths of files, with their bytes, and of directories. Every directory on the way to one of
them exists too. -/
structure FileTree where
  files : List (List String × List UInt8)
  directories : List (List String)

namespace FileTree

inductive Node
  | file (bytes : List UInt8)
  | directory

/-- A place reached by walking: a path from the directory of the tree, or somewhere outside. -/
inductive Place
  | inside (path : List String)
  | outside

def node? (tree : FileTree) : Place → Option Node
  | .outside => some .directory
  | .inside path =>
    match tree.files.lookup path with
    | some bytes => some (.file bytes)
    | none =>
      if path.isEmpty || tree.directories.any (path.isPrefixOf ·) ||
          tree.files.any (path.isPrefixOf ·.1) then some .directory
      else none

def Place.parent : Place → Place
  | .inside (name :: path) => .inside (name :: path).dropLast
  | _ => .outside

def Place.child? (tree : FileTree) (name : String) : Place → Option Place
  | .outside => none
  | .inside path =>
    if (tree.node? (.inside (path ++ [name]))).isSome then some (.inside (path ++ [name])) else none

/-- Walks along the parts of a path. Each part, also an empty one, needs a directory to start
from. -/
def walk (tree : FileTree) (place : Place) : List String → Except ReadError Place
  | [] => .ok place
  | part :: parts =>
    match tree.node? place with
    | some .directory =>
      if part = "" ∨ part = "." then tree.walk place parts
      else if part = ".." then tree.walk place.parent parts
      else if 255 < part.utf8ByteSize then .error .nameTooLong
      else
        match place.child? tree part with
        | some next => tree.walk next parts
        | none => .error .notFound
    | _ => .error .notDirectory

def parts (path : String) : List String := (path.toList.splitOn '/').map String.ofList

/-- Reads the file at a path. A path that starts with a slash starts outside. -/
def read (tree : FileTree) : Files := fun path => do
  if path.toList.contains '\x00' then throw .nulInName
  if 4096 ≤ path.utf8ByteSize then throw .nameTooLong
  if path.isEmpty then throw .notFound
  let start := if path.toList.head? = some '/' then Place.outside else .inside []
  let place ← tree.walk start (parts path)
  match tree.node? place with
  | some (.file bytes) => return bytes
  | _ => throw .isDirectory

/-- The path of an entry: its parts without empty ones and single points. -/
def entryPath (path : String) : List String := (parts path).filter fun part => part ≠ "" ∧ part ≠ "."

end FileTree

end Tabular
