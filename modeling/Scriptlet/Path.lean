import Scriptlet.Text

/-!
# Paths

A path is a text of names between slashes. Cleaning a path is a matter of its text alone: empty
names and single dots go, and a double dot takes the name before it away.
-/

namespace Scriptlet

namespace Path

/-- Whether a path starts at the root. -/
def isRooted (path : Text) : Bool := path.head? = some (Text.byte '/')

/-- The names of a path. -/
def names (path : Text) : List Text := (Text.splitOn (Text.byte '/') path).filter (· ≠ [])

/-- The name of the directory itself. -/
def here : Text := "."

/-- The name of the directory above. -/
def above : Text := ".."

/-- The names that are left when single and double dots are carried out, the last one first. -/
def settle (rooted : Bool) (done : List Text) (name : Text) : List Text :=
  if name = here then done
  else if name = above then
    match done with
    | [] => if rooted then [] else [above]
    | last :: rest => if last = above then above :: done else rest
  else name :: done

/-- The shortest path with the same meaning, as far as the text tells. -/
def clean (path : Text) : Text :=
  let rooted := isRooted path
  let kept : Text := .join "/" ((names path).foldl (settle rooted) []).reverse
  if rooted then "/" ++ kept else if kept = [] then here else kept

/-- The path of one path inside another. -/
def join (first second : Text) : Text :=
  match [first, second].filter (· ≠ []) with
  | [] => []
  | parts => clean (.join "/" parts)

end Path

end Scriptlet
