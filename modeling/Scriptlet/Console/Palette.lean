import Scriptlet.Text

/-!
# Colours of the console

A palette paints a text by writing the codes of its inks before it and the code that clears them
after it. A palette that is switched off leaves every text as it is.
-/

namespace Scriptlet

/-- A way in which a terminal shows text. -/
inductive Ink where
  | bold
  | red
  | yellow
  | cyan
  | gray
  deriving DecidableEq, Repr

/-- The code with a number that a terminal obeys. -/
def Ink.escape (number : Nat) : Text := "\x1b[" ++ .ofNat number ++ "m"

/-- What switches an ink on. -/
def Ink.code : Ink → Text
  | .bold => escape 1
  | .red => escape 31
  | .yellow => escape 33
  | .cyan => escape 36
  | .gray => escape 90

/-- Whether texts are painted. -/
structure Palette where
  enabled : Bool

/-- A text in some inks. -/
def Palette.paint (p : Palette) (inks : List Ink) (t : Text) : Text :=
  if p.enabled then inks.flatMap Ink.code ++ t ++ Ink.escape 0 else t

end Scriptlet
