import Chip8.Program

set_option autoImplicit false

/-! # Files and paths

A path is the way to a file: names divided by slashes, from the root if it starts with a slash and
from the working directory if not. The names are followed one by one, and each must be looked up in
a directory, also the empty name after a slash at the end. A single dot stays in the directory, two
dots lead to the one above it; the root is above itself. The first name that goes wrong decides what
is reported. -/

namespace Chip8

/-- Why there is nothing to read at a path. -/
inductive FileError where
  | missing
  /-- A name is to be looked up in something that is not a directory. -/
  | notDirectory
  | directory
  /-- The path, or a name in it, is too long. -/
  | tooLong
  /-- The system has another reason. -/
  | other (reason : String)
  deriving DecidableEq, Inhabited

/-- The reason in words, with the system's number for it. -/
def FileError.message : FileError → String
  | .missing => "No such file or directory (os error 2)"
  | .notDirectory => "Not a directory (os error 20)"
  | .directory => "Is a directory (os error 21)"
  | .tooLong => "File name too long (os error 36)"
  | .other reason => reason

/-- What a name can stand for. -/
inductive FileEntry where
  | file (content : Source)
  | directory

/-- A place in a file tree: the names that lead there from the root. -/
abbrev Place := List String

/-- A tree of files and directories. -/
structure FileTree where
  /-- What is at a place, if anything is. -/
  entry : Place → Option FileEntry
  home : Place

namespace FileTree

/-- The most bytes that a name can have. -/
def maxNameBytes : Nat := 255

/-- The most bytes that a path can have. -/
def maxPathBytes : Nat := 4095

/-- The file tree with the given entries below its root. -/
def ofEntries (entries : List (Place × FileEntry)) (home : Place) : FileTree where
  entry place := if place = [] then some .directory else entries.lookup place
  home := home

/-- The place that a name leads to from a directory. -/
def follow (t : FileTree) (place : Place) (name : String) : Except FileError Place :=
  if name = "" ∨ name = "." then .ok place
  else if name = ".." then .ok place.dropLast
  else if maxNameBytes < name.utf8ByteSize then .error .tooLong
  else if (t.entry (place ++ [name])).isSome then .ok (place ++ [name])
  else .error .missing

/-- The place that some names lead to, one after the other. -/
def walk (t : FileTree) : Place → List String → Except FileError Place
  | place, [] => .ok place
  | place, name :: rest =>
    match t.entry place with
    | none => .error .missing
    | some (.file _) => .error .notDirectory
    | some .directory =>
      match t.follow place name with
      | .error e => .error e
      | .ok next => walk t next rest

/-- The place that a path leads to. -/
def locate (t : FileTree) (path : String) : Except FileError Place :=
  if path = "" then .error .missing
  else if maxPathBytes < path.utf8ByteSize then .error .tooLong
  else t.walk (if path.startsWith "/" then [] else t.home) (path.splitOn "/")

/-- What there is to read at a path. -/
def read (t : FileTree) (path : String) : Except FileError Source :=
  match t.locate path with
  | .error e => .error e
  | .ok place =>
    match t.entry place with
    | none => .error .missing
    | some .directory => .error .directory
    | some (.file content) => .ok content

end FileTree

/-- The source for what was found at a path. One for which there is nothing to read breaks down at
    once. -/
def Source.ofFound : Except FileError Source → Source
  | .ok source => source
  | .error e => { reads := [.failed e.message] }

end Chip8
