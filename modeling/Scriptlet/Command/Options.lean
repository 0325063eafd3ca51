import Scriptlet.Text.Quoted

/-!
# Options of a command

Options may stand before and after the other arguments. One or two hyphens introduce an option, a
value may follow an equals sign, and an argument of two hyphens alone says that the next argument
is no option.
-/

namespace Scriptlet

/-- What a user asked for beside the command. -/
structure Options where
  json : Bool := false
  verbose : Bool := false
  /-- The settings file; empty if none was named. -/
  config : Text := []
  /-- The other arguments, in order. -/
  arguments : List Text := []
  deriving DecidableEq, Repr

namespace Options

/-- Why arguments cannot be read. -/
inductive Fault where
  | malformed (argument : Text)
  | undefined (name : Text)
  | valueMissing (name : Text)
  | notBoolean (name value : Text)
  | helpRequested
  deriving DecidableEq, Repr

/-- What a fault says. -/
def Fault.message : Fault → Text
  | .malformed argument => "bad flag syntax: " ++ argument
  | .undefined name => "flag provided but not defined: -" ++ name
  | .valueMissing name => "flag needs an argument: -" ++ name
  | .notBoolean name value =>
    "invalid boolean value " ++ value.quoted ++ " for -" ++ name ++ ": parse error"
  | .helpRequested => "flag: help requested"

/-- The form of an argument. -/
inductive Form where
  | plain
  /-- Two hyphens alone. -/
  | separator
  /-- Hyphens without a name. -/
  | malformed
  | option (name : Text) (value : Option Text)

/-- The form of a name after its hyphens. An equals sign ends it, unless it comes first. -/
def Form.ofName (name : Text) : Form :=
  match name with
  | [] => .malformed
  | first :: rest =>
    if first = Text.byte '-' ∨ first = Text.byte '=' then .malformed
    else
      let front := first :: rest.takeWhile (· ≠ Text.byte '=')
      match rest.dropWhile (· ≠ Text.byte '=') with
      | [] => .option front none
      | _ :: value => .option front (some value)

/-- The form of an argument. A hyphen alone is a plain argument. -/
def Form.of (argument : Text) : Form :=
  match argument with
  | first :: second :: rest =>
    if first ≠ Text.byte '-' then .plain
    else if second ≠ Text.byte '-' then .ofName (second :: rest)
    else if rest = [] then .separator
    else .ofName rest
  | _ => .plain

/-- The truth values that an option takes. -/
def boolean? (value : Text) : Option Bool :=
  if [("1" : Text), "t", "T", "true", "TRUE", "True"].contains value then some true
  else if [("0" : Text), "f", "F", "false", "FALSE", "False"].contains value then some false
  else none

/-- The value of an option that is on or off. -/
def switch (name : Text) (value : Option Text) : Except Fault Bool :=
  match value with
  | none => .ok true
  | some value =>
    match boolean? value with
    | some b => .ok b
    | none => .error (.notBoolean name value)

/-- Adds an argument that is no option. -/
def push (o : Options) (argument : Text) : Options :=
  { o with arguments := o.arguments ++ [argument] }

/-- Reads arguments from left to right. The first fault ends the reading. -/
def readFrom (o : Options) : List Text → Except Fault Options
  | [] => .ok o
  | argument :: rest =>
    match Form.of argument with
    | .plain => readFrom (o.push argument) rest
    | .separator =>
      match rest with
      | [] => .ok o
      | next :: rest => readFrom (o.push next) rest
    | .malformed => .error (.malformed argument)
    | .option name value =>
      if name = ("json" : Text) then
        match switch name value with
        | .ok b => readFrom { o with json := b } rest
        | .error fault => .error fault
      else if name = ("verbose" : Text) then
        match switch name value with
        | .ok b => readFrom { o with verbose := b } rest
        | .error fault => .error fault
      else if name = ("config" : Text) then
        match value, rest with
        | some value, rest => readFrom { o with config := value } rest
        | none, next :: rest => readFrom { o with config := next } rest
        | none, [] => .error (.valueMissing name)
      else if name = ("help" : Text) ∨ name = ("h" : Text) then .error .helpRequested
      else .error (.undefined name)

/-- The options that a list of arguments asks for. -/
def read (arguments : List Text) : Except Fault Options := readFrom {} arguments

end Options

end Scriptlet
