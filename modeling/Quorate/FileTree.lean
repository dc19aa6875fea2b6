import Quorate.Bytes.Basic

/-!
# File trees

A tree of directories and files, and what is read at a path. The parts of a path are taken one after the
other: an empty part and a single dot stay where they are, two dots lead to the directory above, which at
the root is the root. The first part that leads nowhere decides the error.
-/

namespace Quorate

inductive FileError
  /-- The path holds the zero character. -/
  | zeroInPath
  /-- The path as a whole, or one of its parts, is longer than any name may be. -/
  | nameTooLong
  | absent
  /-- The path goes on below a file. -/
  | notDirectory
  | isDirectory
  | notText
deriving DecidableEq, Repr

def FileError.message : FileError → String
  | zeroInPath => "file name contained an unexpected NUL byte"
  | nameTooLong => "File name too long (os error 36)"
  | absent => "No such file or directory (os error 2)"
  | notDirectory => "Not a directory (os error 20)"
  | isDirectory => "Is a directory (os error 21)"
  | notText => "stream did not contain valid UTF-8"

inductive FileTree
  | file (content : Bytes)
  | directory (entries : List (String × FileTree))

namespace FileTree

/-- The greatest number of bytes that a path may have. -/
def pathLimit : Nat := 4095

def partLimit : Nat := 255

/-- The pieces of a path between slashes. -/
def parts : List Char → List (List Char)
  | [] => [[]]
  | '/' :: rest => [] :: parts rest
  | c :: rest =>
    match parts rest with
    | [] => [[c]]
    | part :: others => (c :: part) :: others

/-- What stands at the end of a path from `here`, the nearest of the directories above first. -/
def walk (above : List FileTree) (here : FileTree) : List (List Char) → Except FileError FileTree
  | [] => .ok here
  | part :: rest =>
    match here with
    | file _ => .error .notDirectory
    | directory entries =>
      if part = [] ∨ part = ['.'] then walk above here rest
      else if part = ['.', '.'] then
        match above with
        | [] => walk [] here rest
        | parent :: others => walk others parent rest
      else
        let name := String.ofList part
        match entries.lookup name with
        | some there => walk (here :: above) there rest
        | none => .error (if partLimit < (Bytes.ofText name).length then .nameTooLong else .absent)

/-- The bytes of the file at a path. A path that does not begin with a slash is taken from an empty directory
below the root. -/
def read (root : FileTree) (path : String) : Except FileError Bytes :=
  if path.toList.contains '\x00' then .error .zeroInPath
  else if path = "" then .error .absent
  else if pathLimit < (Bytes.ofText path).length then .error .nameTooLong
  else
    let found :=
      match path.toList with
      | '/' :: rest => walk [] root (parts rest)
      | relative => walk [root] (.directory []) (parts relative)
    match found with
    | .ok (file content) => .ok content
    | .ok (directory _) => .error .isDirectory
    | .error e => .error e

def line (s : String) : FileTree :=
  .file (Bytes.ofText s ++ [10])

/-- The tree of a host on which nothing was configured. -/
def bare : FileTree :=
  .directory [
    ("bin", .directory [("sh", .file [0x7f, 0x45, 0x4c, 0x46, 0xff])]),
    ("dev", .directory [("null", .file [])]),
    ("etc", .directory [("hostname", line "host"), ("hosts", line "127.0.0.1 localhost"),
      ("passwd", line "root:x:0:0:root:/root:/bin/sh")]),
    ("home", .directory []), ("lib", .directory []), ("opt", .directory []), ("proc", .directory []),
    ("root", .directory []), ("run", .directory []), ("sbin", .directory []), ("sys", .directory []),
    ("tmp", .directory []), ("usr", .directory [("bin", .directory []), ("lib", .directory [])]),
    ("var", .directory [("log", .directory []), ("tmp", .directory [])])]

end FileTree

end Quorate
