import Scriptlet.Command
import Std.Time.DateTime.Timestamp

/-!
# The program

This is all that touches the world: it gathers the files that the arguments may name, starts the
command, and hands the lines of a user to its console.
-/

namespace Scriptlet

/-- Writes a text to a stream. -/
def writeText (stream : IO.FS.Stream) (t : Text) : IO Unit := do
  stream.write ⟨t.toArray⟩
  stream.flush

/-- Writes to both streams. -/
def writePrinted (p : Printed) : IO Unit := do
  writeText (← IO.getStdout) p.out
  writeText (← IO.getStderr) p.err

/-- The paths that arguments may name: the arguments themselves, values after an equals sign, and the
settings file. -/
def candidates (arguments : List String) : List String :=
  ".fail.yaml" :: arguments.flatMap fun a => [a, "=".intercalate ((a.splitOn "=").drop 1)]

/-- The files among some paths. -/
def gather (directory : List Text) (home : Text) (paths : List String) : IO Workspace := do
  let mut w : Workspace := ⟨directory, [], [], home⟩
  for path in paths do
    let place := Path.names (w.absolute path)
    try
      if ← (← IO.FS.realPath path).isDir then
        w := { w with directories := place :: w.directories }
      else
        w := { w with files := (place, (← IO.FS.readBinFile path).toList) :: w.files }
    catch _ => pure ()
  return w

/-- The time as commands need it. The log tells the time of day at which the command began. -/
def readClock : IO Clock := do
  let nanoseconds := (← Std.Time.Timestamp.now).toNanosecondsSinceUnixEpoch.val
  let two (n : Int) : Text := (Text.ofNat (100 + n.toNat)).drop 1
  let seconds := nanoseconds / 1000000000
  let micros := nanoseconds % 1000000000 / 1000
  let stamp : Text := two (seconds / 3600 % 24) ++ ":" ++ two (seconds / 60 % 60) ++ ":" ++
    two (seconds % 60) ++ "." ++ (Text.ofNat (1000000 + micros.toNat)).drop 1
  return ⟨(Int64.ofInt nanoseconds).toFloat / 1000000000, stamp, "0s"⟩

/-- More fuel than a computer can burn. -/
def plenty : Nat := Nat.pow 10 15

/-- Hands the lines of a user to a console until either ends. -/
partial def converse (console : Console) : IO Unit := do
  let line ← (← IO.getStdin).getLine
  if line.isEmpty then writePrinted ⟨Console.farewell, []⟩
  else
    let mut console := console
    for input in inputs line do
      match console.step plenty input with
      | some (.waiting printed next) =>
        writePrinted printed
        console := next
      | _ => return
    converse console

end Scriptlet

open Scriptlet in
/-- Carries out the command that the arguments ask for. -/
def main (arguments : List String) : IO UInt32 := do
  let directory := Path.names (← IO.currentDir).toString
  let home := (← IO.getEnv "HOME").getD ""
  let w ← gather directory home (candidates arguments)
  match Command.start plenty w (← readClock) (arguments.map Text.ofString) with
  | none => return Command.misuse.toUInt32
  | some (.ended reply) =>
    writePrinted reply.printed
    return reply.exit.toUInt32
  | some (.waiting printed console) =>
    writePrinted printed
    converse console
    return 0
