import Scriptlet.Path

/-!
# Files

A workspace is what a command can see of the file system: some files and directories, one of which
is the directory in which the command runs. Looking up a path follows its names one by one, so that
each name on the way has to be a directory.
-/

namespace Scriptlet

/-- The files that a command can see. A place is the list of names that lead to it from the root. -/
structure Workspace where
  /-- The directory in which the command runs. -/
  directory : List Text
  files : List (List Text × Text)
  /-- Directories that exist even if there is nothing in them. -/
  directories : List (List Text) := []
  /-- The home directory of the user, empty if there is none. -/
  home : Text := []

/-- What is at a place. -/
inductive Entry where
  | file (content : Text)
  | directory
  deriving DecidableEq, Repr

/-- Why there is nothing at a path, or nothing that can be read. -/
inductive FileFault where
  | missing
  /-- A name on the way is that of a file. -/
  | notDirectory
  | isDirectory
  deriving DecidableEq, Repr

/-- What the system says about a fault. -/
def FileFault.message : FileFault → Text
  | .missing => "no such file or directory"
  | .notDirectory => "not a directory"
  | .isDirectory => "is a directory"

/-- What was being done to a file. -/
inductive FileAction where
  | opening
  | reading
  | inspecting
  deriving DecidableEq, Repr

/-- The word for an action. -/
def FileAction.text : FileAction → Text
  | .opening => "open"
  | .reading => "read"
  | .inspecting => "stat"

/-- A fault that came up while something was done to the file at a path. -/
structure FileError where
  action : FileAction
  path : Text
  fault : FileFault
  deriving DecidableEq, Repr

/-- What an error says. -/
def FileError.message (e : FileError) : Text :=
  e.action.text ++ " " ++ e.path ++ ": " ++ e.fault.message

namespace Workspace

/-- What is at a place, if anything. All that leads to a known file or directory is a directory. -/
def entry? (w : Workspace) (place : List Text) : Option Entry :=
  match w.files.lookup place with
  | some content => some (.file content)
  | none =>
    let below := w.directory :: w.directories ++ w.files.map Prod.fst
    if below.any place.isPrefixOf then some .directory else none

/-- Follows names from a place, which lists its names last first. -/
def follow (w : Workspace) (place : List Text) : List Text → Except FileFault Entry
  | [] =>
    match w.entry? place.reverse with
    | some entry => .ok entry
    | none => .error .missing
  | name :: rest =>
    match w.entry? place.reverse with
    | none => .error .missing
    | some (.file _) => .error .notDirectory
    | some .directory =>
      if name = Path.here then follow w place rest
      else if name = Path.above then follow w place.tail rest
      else follow w (name :: place) rest

/-- What a path leads to. A slash at its end asks for a directory. -/
def find (w : Workspace) (path : Text) : Except FileFault Entry :=
  if path = [] then .error .missing
  else
    let names := Path.names path
    let asksDirectory := path.getLast? = some (Text.byte '/')
    w.follow (if Path.isRooted path then [] else w.directory.reverse)
      (if asksDirectory then names ++ [Path.here] else names)

/-- The path of the directory in which the command runs. -/
def directoryPath (w : Workspace) : Text := "/" ++ .join "/" w.directory

/-- A path that starts at the root, cleaned. -/
def absolute (w : Workspace) (path : Text) : Text :=
  if Path.isRooted path then Path.clean path else Path.join w.directoryPath path

/-- The content of a file, or why it cannot be read. -/
def read (w : Workspace) (path : Text) : Except FileError Text :=
  match w.find path with
  | .ok (.file content) => .ok content
  | .ok .directory => .error ⟨.reading, path, .isDirectory⟩
  | .error fault => .error ⟨.opening, path, fault⟩

end Workspace

end Scriptlet
