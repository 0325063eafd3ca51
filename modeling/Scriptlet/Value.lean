import Scriptlet.Number
import Scriptlet.Scope.Resolver

/-!
# Values

Programs compute with `none`, truth values, numbers, texts, functions, classes, instances and native
functions. Functions, classes and instances are told apart by identity: each time one is made it
gets a number that no other has. A class holds its superclass itself, so a chain of superclasses
ends; the fields of an instance are kept in the heap.
-/

namespace Scriptlet

/-- The functions that the language brings along. -/
inductive Native where
  | clock
  | len
  | str
  | search
  deriving DecidableEq, Repr

namespace Native

/-- All native functions, in their order. -/
def all : List Native := [.clock, .len, .str, .search]

/-- The name by which programs call a native function. -/
def name : Native → Text
  | .clock => "clock"
  | .len => "len"
  | .str => "str"
  | .search => "matches"

/-- The native function with a name. -/
def ofName? (name : Text) : Option Native := all.find? fun n => n.name == name

/-- How many arguments a native function takes. -/
def arity : Native → Nat
  | .clock => 0
  | .len => 1
  | .str => 1
  | .search => 2

end Native

/-- A place in the heap where variables live. -/
abbrev ScopeId := Nat

/-- A place in the heap where the fields of an instance live. -/
abbrev ObjectId := Nat

/-- A tree whose references have been resolved; a reference without a link could not be. -/
abbrev LinkedFunction := Function (Option Link)

/-- A function together with the scope that it was made in. -/
structure Closure where
  identity : Nat
  /-- The name of a declared function; a function literal has none. -/
  name : Text
  function : LinkedFunction
  scope : ScopeId
  /-- An initializer yields its receiver, whatever it returns. -/
  initializer : Bool

namespace Closure

/-- How many arguments a function takes. -/
def arity (c : Closure) : Nat := c.function.params.length

/-- Whether a function runs when it is read. -/
def getter (c : Closure) : Bool := c.function.getter

/-- A function as programs print it. -/
def text (c : Closure) : Text :=
  if c.name = [] then "<fn>" else "<fn " ++ c.name ++ ">"

end Closure

/-- A value for each of some names. -/
abbrev Entries (α : Type) := List (Text × α)

namespace Entries

variable {α : Type}

/-- The value of a name. -/
def get? (name : Text) : Entries α → Option α
  | [] => none
  | (n, a) :: rest => if n == name then some a else get? name rest

/-- Whether a name has a value. -/
def has (es : Entries α) (name : Text) : Bool := (es.get? name).isSome

/-- Gives a name a value; a name that has one keeps its place. -/
def put (name : Text) (value : α) : Entries α → Entries α
  | [] => [(name, value)]
  | (n, a) :: rest => if n == name then (n, value) :: rest else (n, a) :: put name value rest

/-- The names that have values. -/
def names (es : Entries α) : List Text := es.map Prod.fst

end Entries

/-- What a class adds to its superclass. -/
structure ClassBody where
  identity : Nat
  name : Text
  methods : Entries Closure
  classMethods : Entries Closure

/-- A class, alone or derived from another. -/
inductive ClassValue where
  | base (body : ClassBody)
  | derived (body : ClassBody) (superclass : ClassValue)

namespace ClassValue

/-- The class with a body and a superclass, if it has one. -/
def make (body : ClassBody) : Option ClassValue → ClassValue
  | none => .base body
  | some superclass => .derived body superclass

def body : ClassValue → ClassBody
  | .base body => body
  | .derived body _ => body

def name (c : ClassValue) : Text := c.body.name

def identity (c : ClassValue) : Nat := c.body.identity

/-- The method with a name, of the class itself or of the nearest superclass that has it. -/
def method? (name : Text) : ClassValue → Option Closure
  | .base body => body.methods.get? name
  | .derived body superclass =>
    match body.methods.get? name with
    | some m => some m
    | none => superclass.method? name

/-- The class method with a name, of the class itself or of the nearest superclass that has it. -/
def classMethod? (name : Text) : ClassValue → Option Closure
  | .base body => body.classMethods.get? name
  | .derived body superclass =>
    match body.classMethods.get? name with
    | some m => some m
    | none => superclass.classMethod? name

/-- The name of initializers. -/
def initName : Text := "init"

/-- How many arguments it takes to make an instance. -/
def arity (c : ClassValue) : Nat :=
  match c.method? initName with
  | some init => init.arity
  | none => 0

end ClassValue

/-- A value. -/
inductive Value where
  | none
  | bool (b : Bool)
  | number (x : Float)
  | text (t : Text)
  | function (closure : Closure)
  | cls (cls : ClassValue)
  /-- An instance of a class. -/
  | object (fields : ObjectId) (cls : ClassValue)
  | native (native : Native)

namespace Value

/-- The value of a constant. -/
def ofLiteral : Literal → Value
  | .none => .none
  | .bool b => .bool b
  | .number x => .number x
  | .text t => .text t

/-- The name of a value's type. -/
def typeName : Value → Text
  | .none => "none"
  | .bool _ => "bool"
  | .number _ => "number"
  | .text _ => "string"
  | .function _ => "function"
  | .cls _ => "class"
  | .object .. => "instance"
  | .native _ => "native"

/-- A value as programs print it. -/
def shown : Value → Text
  | .none => "none"
  | .bool b => if b then "true" else "false"
  | .number x => formatNumber x
  | .text t => t
  | .function f => f.text
  | .cls c => c.name
  | .object _ c => c.name ++ " instance"
  | .native _ => "<native fn>"

/-- Only `none` and `false` count as false. -/
def truthy : Value → Bool
  | .none => false
  | .bool b => b
  | _ => true

/-- Values of different types are never equal. Functions, classes and instances are equal only to
themselves. -/
def equal : Value → Value → Bool
  | .none, .none => true
  | .bool a, .bool b => a == b
  | .number x, .number y => x == y
  | .text s, .text t => s == t
  | .function f, .function g => f.identity == g.identity
  | .cls c, .cls d => c.identity == d.identity
  | .object a _, .object b _ => a == b
  | .native m, .native n => m == n
  | _, _ => false

end Value

end Scriptlet
