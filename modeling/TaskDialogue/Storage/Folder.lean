/-!
# Where texts are read from

Programs read texts by path. A folder in memory answers like a directory on disk that lies
among the temporary files of a system: paths may lead out of it to the usual directories
and to the null device, but to no file of the system.
-/
namespace TaskDialogue

inductive ReadError where
  | notFound
  | notADirectory
  | isADirectory
  | nameTooLong
  | nulInPath
  | other (message : String)
deriving DecidableEq, Repr

namespace ReadError

def message : ReadError → String
  | notFound => "No such file or directory (os error 2)"
  | notADirectory => "Not a directory (os error 20)"
  | isADirectory => "Is a directory (os error 21)"
  | nameTooLong => "File name too long (os error 36)"
  | nulInPath => "file name contained an unexpected NUL byte"
  | other message => message

end ReadError

inductive Resource where
  | file (text : String)
  /-- What can be read like a file but is none. -/
  | device (text : String)
  | directory
deriving DecidableEq, Repr

namespace Resource

def text : Resource → Except ReadError String
  | file text | device text => .ok text
  | directory => .error .isADirectory

def isDirectory : Resource → Bool
  | directory => true
  | _ => false

end Resource

/-- How paths are looked up, with whatever effects that takes. -/
abbrev Locate (m : Type → Type) := String → m (Except ReadError Resource)

def Locate.read {m : Type → Type} [Monad m] (locate : Locate m) (path : String) :
    m (Except ReadError String) :=
  return (← locate path).bind Resource.text

/-- Texts by path, all within one folder. -/
abbrev Folder := List (String × String)

namespace Folder

/-- The steps of a path; a step to the same place is none. -/
def steps (path : String) : List String :=
  ((path.toList.splitOn '/').map String.ofList).filter fun s => s ≠ "" && s ≠ "."

/-- Whether a path asks for a directory by its end. -/
def asksDirectory (path : String) : Bool :=
  (path.toList.splitOn '/').getLast?.any fun s => s = [] || s = ['.']

/-- The place of the folder, as names from the root of the system. The name of the folder
itself is kept from programs, so that they can leave it but not enter it. -/
def home : List String := ["tmp", ""]

def systemDirectories : List String :=
  ["/bin", "/boot", "/dev", "/etc", "/home", "/lib", "/media", "/mnt", "/opt", "/proc", "/root",
    "/run", "/sbin", "/srv", "/sys", "/tmp", "/usr", "/usr/bin", "/usr/lib", "/usr/local",
    "/usr/sbin", "/usr/share", "/var", "/var/lib", "/var/log", "/var/tmp"]

/-- Whether a place is a directory: on the way to the folder or within it, or one of the
system. -/
def isDirectory (folder : Folder) (place : List String) : Bool :=
  place.isPrefixOf home || systemDirectories.any (fun path => place = steps path) ||
    folder.any fun file => place.isPrefixOf (home ++ steps file.1) && place ≠ home ++ steps file.1

def at? (folder : Folder) (place : List String) : Option Resource :=
  match folder.find? fun file => home ++ steps file.1 = place with
  | some file => some (.file file.2)
  | none =>
    if place = ["dev", "null"] then some (.device "")
    else if folder.isDirectory place then some .directory
    else none

/-- How many bytes a name may have. -/
def nameBound : Nat := 255

def pathBound : Nat := 4095

/-- What steps from a place lead to, where two points lead back. A step can only be taken
from a directory. -/
def follow (folder : Folder) : (place steps : List String) → Except ReadError Resource
  | place, [] =>
    match folder.at? place with
    | some found => .ok found
    | none => .error .notFound
  | place, step :: rest =>
    match folder.at? place with
    | none => .error .notFound
    | some .directory =>
      if nameBound < step.utf8ByteSize then .error .nameTooLong
      else folder.follow (if step = ".." then place.dropLast else place ++ [step]) rest
    | some _ => .error .notADirectory

def locate (folder : Folder) (path : String) : Except ReadError Resource :=
  if path.toList.contains '\x00' then .error .nulInPath
  else if path = "" then .error .notFound
  else if pathBound < path.utf8ByteSize then .error .nameTooLong
  else do
    let found ← folder.follow (if path.toList.head? = some '/' then [] else home) (steps path)
    if asksDirectory path && !found.isDirectory then .error .notADirectory else .ok found

end Folder

end TaskDialogue
