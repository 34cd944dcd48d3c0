/-!
# Files

Texts by path. A path is followed name by name through directories; where that fails or does not end
on a file, the fault tells why.
-/

namespace MethodSynthesis

inductive FileFault where
  | notFound
  | notADirectory
  | isADirectory
  | nameTooLong
  | nulInPath
  deriving DecidableEq

def FileFault.message : FileFault → String
  | .notFound => "No such file or directory (os error 2)"
  | .notADirectory => "Not a directory (os error 20)"
  | .isADirectory => "Is a directory (os error 21)"
  | .nameTooLong => "File name too long (os error 36)"
  | .nulInPath => "file name contained an unexpected NUL byte"

namespace Path

def isAbsolute (path : String) : Bool := path.startsWith "/"

def resolve (base path : String) : String :=
  if isAbsolute path then path
  else if base.isEmpty || base.endsWith "/" then base ++ path
  else base ++ "/" ++ path

def names (path : String) : List String := path.splitOn "/"

def maxSize : Nat := 4095

def maxNameSize : Nat := 255

end Path

/-- A place of files and directories: the names below the root or below the working directory. -/
structure Location where
  absolute : Bool
  names : List String := []
  deriving DecidableEq

namespace Location

def startOf (path : String) : Location := { absolute := Path.isAbsolute path }

/-- The location that a path without ".." names; an empty name and a single dot lead nowhere. -/
def ofPath (path : String) : Location :=
  { absolute := Path.isAbsolute path
    names := (Path.names path).filter fun name => name ≠ "" && name ≠ "." }

/-- Nothing lies above the location where paths begin. -/
def parent (place : Location) : Location := { place with names := place.names.dropLast }

def child (place : Location) (name : String) : Location :=
  { place with names := place.names ++ [name] }

def holds (place other : Location) : Bool :=
  place.absolute = other.absolute && place.names.isPrefixOf other.names

end Location

inductive FileNode where
  | directory
  | file (text : String)
  deriving DecidableEq

/-- The readable files, path and text, and paths of directories that may hold none of them. -/
structure Files where
  entries : List (String × String) := []
  directories : List String := []
  deriving DecidableEq

namespace Files

/-- Directories are where paths begin, those given, and those on the way to them or to a file. -/
def isDirectory (files : Files) (place : Location) : Bool :=
  place.names.isEmpty ||
    (files.directories ++ files.entries.map Prod.fst).any fun path =>
      place.holds (Location.ofPath path)

def node? (files : Files) (place : Location) : Option FileNode :=
  match files.entries.find? fun entry => Location.ofPath entry.1 = place with
  | some entry => some (.file entry.2)
  | none => if files.isDirectory place then some .directory else none

/-- Follows a name from one location to the next; only directories are followed. -/
def follow (files : Files) (place : Location) (name : String) : Except FileFault Location :=
  if files.node? place ≠ some .directory then .error .notADirectory
  else if name = "" || name = "." then .ok place
  else if name = ".." then .ok place.parent
  else if Path.maxNameSize < name.utf8ByteSize then .error .nameTooLong
  else if (files.node? (place.child name)).isNone then .error .notFound
  else .ok (place.child name)

def read (files : Files) (path : String) : Except FileFault String := do
  if path.contains '\x00' then throw .nulInPath
  if path.isEmpty then throw .notFound
  if Path.maxSize < path.utf8ByteSize then throw .nameTooLong
  let place ← (Path.names path).foldlM files.follow (.startOf path)
  match files.node? place with
  | some (.file text) => return text
  | some .directory => throw .isADirectory
  | none => throw .notFound

end Files

end MethodSynthesis
