import Scriptlet.Settings.Reader
import Scriptlet.Workspace

/-!
# Settings in files

Settings come from a file that the user names, or from the file with a fixed name in the working
directory. Without either, the defaults hold.
-/

namespace Scriptlet.Settings

/-- Why a text does not hold settings. -/
inductive Fault where
  | unreadable (fault : ReadFault)
  | invalid (issues : List Issue)
  deriving DecidableEq, Repr

/-- What a fault says. -/
def Fault.message : Fault → Text
  | .unreadable fault => "parse: " ++ fault.message
  | .invalid issues => issuesMessage (issues.map Issue.text)

/-- The settings that a text holds. -/
def parse (source : Text) : Except Fault Settings :=
  match readChoices source with
  | .error fault => .error (.unreadable fault)
  | .ok choices =>
    let settings := ofChoices choices
    match settings.issues with
    | [] => .ok settings
    | issues => .error (.invalid issues)

/-- The name under which settings are looked for. -/
def fileName : Text := ".fail.yaml"

/-- Why settings cannot be loaded. -/
inductive LoadFault where
  | emptyPath
  /-- The file cannot be opened, or what is there cannot be inspected. -/
  | inaccessible (error : FileError)
  /-- The file is open and cannot be read. -/
  | unread (error : FileError)
  /-- A directory has the name of the settings file. -/
  | isDirectory (path : Text)
  | rejected (path : Text) (fault : Fault)
  deriving DecidableEq, Repr

namespace LoadFault

/-- What a fault says. -/
def message : LoadFault → Text
  | .emptyPath => "config: empty path"
  | .inaccessible error => "config: " ++ error.action.text ++ " " ++ error.path ++ ": " ++ error.message
  | .unread error => "config: " ++ error.path ++ ": parse: yaml: input error: " ++ error.message
  | .isDirectory path => "config: " ++ path ++ " is a directory"
  | .rejected path fault => "config: " ++ path ++ ": " ++ fault.message

/-- Whether the settings could be read and are not valid. -/
def isValidation : LoadFault → Bool
  | .rejected _ (.invalid _) => true
  | _ => false

/-- Whether there is no such file. -/
def isMissing : LoadFault → Bool
  | .inaccessible error | .unread error => error.fault = .missing
  | _ => false

end LoadFault

/-- The settings in the file at a path. -/
def load (w : Workspace) (path : Text) : Except LoadFault Settings :=
  if path = [] then .error .emptyPath
  else
    let path := w.absolute path
    match w.read path with
    | .error error =>
      if error.action = .reading then .error (.unread error) else .error (.inaccessible error)
    | .ok source =>
      match parse source with
      | .ok settings => .ok { settings with path := path }
      | .error fault => .error (.rejected path fault)

/-- The settings of a directory: those in its settings file, or the defaults if it has none. -/
def discover (w : Workspace) (directory : Text) : Except LoadFault Settings :=
  let path := Path.join directory fileName
  match w.find path with
  | .ok (.file _) => load w path
  | .ok .directory => .error (.isDirectory path)
  | .error .missing => .ok {}
  | .error fault => .error (.inaccessible ⟨.inspecting, path, fault⟩)

/-- The file that keeps the inputs of the console. A tilde at the beginning stands for the home
directory; there is no answer if it is needed and not known. -/
def historyPath? (s : Settings) (home : Text) : Option Text :=
  match Text.dropBeginning? "~" s.historyFile with
  | some rest =>
    if rest = [] ∨ Path.isRooted rest then
      if home = [] then none else some (Path.join home rest)
    else some s.historyFile
  | none => some s.historyFile

/-- The message that the home directory is not known. -/
def homeMissing : Text := "config: resolve user home: $HOME is not defined"

end Scriptlet.Settings
