/-!
# Files

A directory tree in memory, with paths resolved the way a file system does. It lets a run of the command
be computed without touching a disk.
-/

set_option autoImplicit false

namespace BraceLang

/-- Why a path cannot be read as text: there is no file at its end, or what the file holds is no text. -/
inductive ReadFailure where
  | notFound
  | notADirectory
  | isADirectory
  | notText
  /-- Anything else, in the words of the system. -/
  | other (message : String)
deriving DecidableEq, Inhabited

/-- What the system says about a failure, with the number it has there. -/
def ReadFailure.message : ReadFailure → String
  | notFound => "No such file or directory (os error 2)"
  | notADirectory => "Not a directory (os error 20)"
  | isADirectory => "Is a directory (os error 21)"
  | notText => "stream did not contain valid UTF-8"
  | other message => message

/-- A file, by the names on the way to it from the working directory. -/
structure File where
  path : List String
  bytes : ByteArray

/-- The files below the working directory. Directories are those on the way to a file. -/
abbrev Files := List File

namespace Files

/-- Where a path leads, as far as the files below the working directory tell. -/
inductive Place where
  /-- A directory below the working directory, or that directory itself. -/
  | inside (path : List String)
  /-- A directory that the working directory lies in. -/
  | outside
  | file (bytes : ByteArray)

/-- The names in a path, with an empty one before, between or after slashes that have none. -/
def names (path : String) : List String :=
  path.splitOn "/"

/-- Follows one name from a place. An empty name and a dot lead nowhere else, and two dots lead up. -/
def follow (files : Files) (place : Place) (name : String) : Except ReadFailure Place :=
  match place with
  | .file _ => .error .notADirectory
  | .outside => if name ∈ ["", ".", ".."] then .ok .outside else .error .notFound
  | .inside path =>
    if name ∈ ["", "."] then .ok (.inside path)
    else if name = ".." then
      if path.isEmpty then .ok .outside else .ok (.inside path.dropLast)
    else
      let target := path ++ [name]
      match files.find? fun file => file.path = target with
      | some file => .ok (.file file.bytes)
      | none =>
        if files.any fun file => target.isPrefixOf file.path then .ok (.inside target)
        else .error .notFound

/-- Where a path leads from the working directory. The empty path leads nowhere. -/
def resolve (files : Files) (path : String) : Except ReadFailure Place :=
  if path = "" then .error .notFound
  else (names path).foldlM (follow files) (if path.startsWith "/" then .outside else .inside [])

/-- The text of the file that a path leads to, if it leads to one and the file holds UTF-8. -/
def read (files : Files) (path : String) : Except ReadFailure String :=
  match resolve files path with
  | .error failure => .error failure
  | .ok (.file bytes) =>
    match String.fromUTF8? bytes with
    | some text => .ok text
    | none => .error .notText
  | .ok _ => .error .isADirectory

/-- The last name in a path, or the whole path if it does not end with a name. -/
def lastName (path : String) : String :=
  match ((names path).filter fun name => name ≠ "" ∧ name ≠ ".").getLast? with
  | some name => if name = ".." then path else name
  | none => path

end Files

end BraceLang
