import Recast.Text.Bytes

/-!
# Files

What a run may learn about files: the text of a file, or why there is none. A run sees files only
through `Files`, so it can be given a disk or a folder that exists in memory.

* `Folder.follow` goes from directory to directory as a path says;
* `Files.ofFolder` is a machine with a folder in memory: relative paths with texts, or without one
  for a directory.
-/

namespace Recast

/-- Why a file gives no text. -/
inductive ReadError where
  | notFound
  | notDirectory
  | isDirectory
  | denied
  /-- A name, or the whole path, is longer than a machine takes. -/
  | tooLong
  /-- The file is there, but it is no text. -/
  | notText
  | other (message : String)
deriving DecidableEq

/-- The wording of a read error. -/
def ReadError.message : ReadError → String
  | .notFound => "No such file or directory (os error 2)"
  | .notDirectory => "Not a directory (os error 20)"
  | .isDirectory => "Is a directory (os error 21)"
  | .denied => "Permission denied (os error 13)"
  | .tooLong => "File name too long (os error 36)"
  | .notText => "stream did not contain valid UTF-8"
  | .other message => message

/-- The files of a machine: what reading a path gives. -/
structure Files where
  read : String → Except ReadError String

namespace Files

/-- Whether a path leads to a file. -/
def isFile (f : Files) (path : String) : Bool :=
  match f.read path with
  | .ok _ | .error .notText | .error .denied => true
  | .error _ => false

end Files

/-! ## 1. Paths -/

/-- Whether a path starts at the root of the machine. -/
def isAbsolute (path : String) : Bool :=
  match path.toList with
  | '/' :: _ => true
  | _ => false

/-- A path seen from a directory. -/
def joinPath (dir path : String) : String :=
  if isAbsolute path then path
  else if dir.toList.getLast? = some '/' then dir ++ path
  else dir ++ "/" ++ path

/-- The names between the slashes of a path, `name` being the one read so far in reverse. -/
def splitPathAux (name : List Char) : List Char → List String
  | [] => [String.ofList name.reverse]
  | c :: cs =>
    if c = '/' then String.ofList name.reverse :: splitPathAux [] cs
    else splitPathAux (c :: name) cs

/-- The names between the slashes of a path. -/
def splitPath (path : String) : List String := splitPathAux [] path.toList

/-! ## 2. A folder in memory -/

/-- A folder: paths from it with the texts of files, or with nothing for a directory. -/
abbrev Folder := List (List String × Option String)

/-- What a path in a folder leads to. -/
inductive Entry where
  | file (text : String)
  | directory
deriving DecidableEq

namespace Folder

/-- The folder with the given relative paths, in which empty names and points stand for nothing. -/
def ofPaths (files : List (String × Option String)) : Folder :=
  files.map fun (path, text) => ((splitPath path).filter fun n => n ≠ "" ∧ n ≠ ".", text)

/-- What every machine has: the usual directories, and a file that is always empty. -/
def usual : Folder :=
  [(["dev", "null"], some ""), (["etc"], none), (["home"], none), (["proc"], none),
   (["root"], none), (["tmp"], none), (["usr"], none), (["var"], none)]

/-- A folder seen from above, where it stands at the given place. -/
def moveTo (place : List String) (f : Folder) : Folder :=
  (place, none) :: f.map fun (names, text) => (place ++ names, text)

/-- What stands at a path without detours; a directory is there as soon as something is in it, and
    the folder itself always is. -/
def entry? (f : Folder) (names : List String) : Option Entry :=
  if names.isEmpty then some .directory
  else
    match f.find? fun e => e.1 == names with
    | some (_, some text) => some (.file text)
    | some (_, none) => some .directory
    | none => if f.any fun e => names.isPrefixOf e.1 then some .directory else none

/-- The length in bytes that a name may have. -/
def maxName : Nat := 255

/-- Follows names from a place in the folder, given by its own names in reverse. Only a directory
    can be followed further; an empty name or a point stays where it is, and two points go up,
    though never out of the folder. -/
def follow (f : Folder) (here : List String) : List String → Except ReadError Entry
  | [] =>
    match f.entry? here.reverse with
    | some e => .ok e
    | none => .error .notFound
  | name :: names =>
    match f.entry? here.reverse with
    | none => .error .notFound
    | some (.file _) => .error .notDirectory
    | some .directory =>
      if name = "" ∨ name = "." then f.follow here names
      else if name = ".." then f.follow here.tail names
      else if maxName < Text.length name then .error .tooLong
      else f.follow (name :: here) names

/-- Reads what a list of names leads to from a place in the folder. -/
def read (f : Folder) (here names : List String) : Except ReadError String :=
  match f.follow here.reverse names with
  | .ok (.file text) => .ok text
  | .ok .directory => .error .isDirectory
  | .error e => .error e

end Folder

/-- The length in bytes that a path must stay below. -/
def maxPath : Nat := 4096

/-- A machine with a folder at `dir`, which is also where relative paths start, and with what every
    machine has. -/
def Files.ofFolder (dir : String) (f : Folder) : Files where
  read path :=
    let here := (splitPath dir).filter (· ≠ "")
    let machine := f.moveTo here ++ Folder.usual
    if path.isEmpty then .error .notFound
    else if maxPath ≤ Text.length path then .error .tooLong
    else machine.read (if isAbsolute path then [] else here) (splitPath path)

end Recast
