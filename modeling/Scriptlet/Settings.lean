import Scriptlet.Value

/-!
# Settings

What a user can choose: the native functions that programs see, the prompt and the history of the
interactive console, and which findings are shown and how.
-/

namespace Scriptlet

/-- The choices of a user. -/
structure Settings where
  /-- The file that the settings were read from; empty for the defaults. -/
  path : Text := []
  natives : List Text := Native.all.map Native.name
  prompt : Text := "fail> "
  historyFile : Text := "~/.fail_history"
  warnings : Bool := true
  color : Bool := true

namespace Settings

/-- What is wrong with settings that could be read. -/
inductive Issue where
  | unknownNative (index : Nat) (name : Text)
  | repeatedNative (index : Nat) (name : Text)
  | emptyPrompt
  deriving DecidableEq, Repr

/-- What an issue says. -/
def Issue.text : Issue → Text
  | .unknownNative index name =>
    "natives[" ++ .ofNat index ++ "]: unknown native function " ++ name.quoted
  | .repeatedNative index name =>
    "natives[" ++ .ofNat index ++ "]: " ++ name.quoted ++ " listed twice"
  | .emptyPrompt => "repl.prompt must be a non-empty string"

/-- The message about a list of issues. -/
def issuesMessage (issues : List Text) : Text :=
  if issues.isEmpty then "config: invalid configuration"
  else "config validation failed:" ++ (issues.flatMap fun issue => ("\n- " ++ issue : Text))

/-- The issues of a list of native functions, from an index on, after some names. -/
def nativeIssues (index : Nat) (seen : List Text) : List Text → List Issue
  | [] => []
  | name :: rest =>
    let later := nativeIssues (index + 1) (name :: seen) rest
    if (Native.ofName? name).isNone then .unknownNative index name :: later
    else if seen.contains name then .repeatedNative index name :: later
    else later

/-- All that is wrong with settings. -/
def issues (s : Settings) : List Issue :=
  nativeIssues 0 [] s.natives ++ if s.prompt.trim = [] then [.emptyPrompt] else []

end Settings

end Scriptlet
