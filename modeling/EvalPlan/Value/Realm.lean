import EvalPlan.Problem

/-!
# Realms

What plain objects, lists, functions, errors and the other values inherit from, and the functions
that they find there, are themselves objects. A realm is one set of them. The program around the
scripts has the main realm, and every run of a script has a realm of its own, so that a script that
changes what its lists inherit changes it for itself alone.

The objects of a realm follow each other in the heap, and a realm is named by the first of them:
for each family of values the template, which the values of the family inherit from, and the maker,
which makes new ones; behind them the standard functions.
-/

namespace EvalPlan

/-- The values that inherit from the same object. -/
inductive Family
  /-- Plain objects. -/
  | object
  /-- Whatever can be called. -/
  | function
  /-- Lists. -/
  | list
  /-- Texts. -/
  | text
  /-- Numbers. -/
  | number
  /-- Truth values. -/
  | truth
  /-- Integers without bound. -/
  | integer
  /-- Symbols. -/
  | symbol
  /-- What the errors of the engine have in common. -/
  | refusal
  /-- Errors of a kind. -/
  | error (kind : ErrorKind)
deriving DecidableEq, Inhabited

namespace Family

/-- Every family. -/
def all : List Family :=
  [object, function, list, text, number, truth, integer, symbol, refusal] ++ ErrorKind.all.map error

/-- The position of a family in the list of all of them. -/
def index : Family → Nat
  | object => 0
  | function => 1
  | list => 2
  | text => 3
  | number => 4
  | truth => 5
  | integer => 6
  | symbol => 7
  | refusal => 8
  | error .general => 9
  | error .type => 10
  | error .range => 11
  | error .grammar => 12
  | error .reference => 13
  | error .yaml => 14
  | error .resourceRead => 15
  | error .scriptCompile => 16
  | error .configuration => 17
  | error .invalidArgument => 18
  | error .typeLoad => 19

theorem all_index (f : Family) : all[f.index]? = some f := by
  cases f <;> first | rfl | (rename_i kind; cases kind <;> rfl)

/-- The name of the maker of a family. -/
def name : Family → Text
  | object => "Object"
  | function => "Function"
  | list => "Array"
  | text => "String"
  | number => "Number"
  | truth => "Boolean"
  | integer => "BigInt"
  | symbol => "Symbol"
  | refusal => "EvalConfigError"
  | error kind => kind.name

/-- The family whose template the template of a family inherits from. -/
def base? : Family → Option Family
  | object => none
  | error .general => some object
  | refusal => some (error .general)
  | error kind => some (if kind.isEngine then refusal else error .general)
  | _ => some object

/-- Scripts find the maker of the family under its name. -/
def isGlobal : Family → Bool
  | refusal => false
  | error .yaml => false
  | error kind => !kind.isEngine
  | _ => true

end Family

/-- The functions that the templates of a realm offer. -/
inductive Standard
  /-- Calls the receiver on another receiver. -/
  | call
  /-- Calls the receiver on another receiver with the items of a list. -/
  | apply
  /-- Ties the receiver to another receiver and to arguments. -/
  | bind
  /-- The declaration of a function. -/
  | declaration
  /-- Does nothing. -/
  | idle
  /-- The text of an object. -/
  | objectText
  /-- The receiver itself. -/
  | itself
  /-- The text that the receiver finds for itself. -/
  | localText
  /-- The object has a property of its own. -/
  | owns
  /-- The object has a property of its own that enumeration shows. -/
  | shows
  /-- Another object inherits from this one. -/
  | isAncestor
  /-- What the object inherits from. -/
  | parent
  /-- Lets the object inherit from another one. -/
  | setParent
  /-- The texts of the items with a separator between them. -/
  | join
  /-- The text of a list. -/
  | listText
  /-- The list of what a function answers for the items. -/
  | map
  /-- A function answers something true for every item. -/
  | every
  /-- The value is one of the items. -/
  | includes
  /-- Adds items at the end. -/
  | push
  /-- The text of an error. -/
  | errorText
  /-- One text stands within another. -/
  | textIncludes
  /-- The pieces of a text between separators. -/
  | split
  /-- The text without blanks at its ends. -/
  | trim
  /-- The text of what is no object. -/
  | plainText
  /-- What is no object, as it is. -/
  | plainValue
  /-- The description of a symbol. -/
  | description
  /-- Refuses to say how a function was called. -/
  | unsaid
deriving DecidableEq, Inhabited

namespace Standard

/-- Every standard function. -/
def all : List Standard :=
  [call, apply, bind, declaration, idle, objectText, itself, localText, owns, shows, isAncestor, parent,
    setParent, join, listText, map, every, includes, push, errorText, textIncludes, split, trim,
    plainText, plainValue, description, unsaid]

/-- The position of a standard function in the list of all of them. -/
def index (f : Standard) : Nat := all.idxOf f

/-- The name of a standard function. -/
def name : Standard → Text
  | call => "call"
  | apply => "apply"
  | bind => "bind"
  | declaration => "toString"
  | idle => []
  | objectText => "toString"
  | itself => "valueOf"
  | localText => "toLocaleString"
  | owns => "hasOwnProperty"
  | shows => "propertyIsEnumerable"
  | isAncestor => "isPrototypeOf"
  | parent => "get __proto__"
  | setParent => "set __proto__"
  | join => "join"
  | listText => "toString"
  | map => "map"
  | every => "every"
  | includes => "includes"
  | push => "push"
  | errorText => "toString"
  | textIncludes => "includes"
  | split => "split"
  | trim => "trim"
  | plainText => "toString"
  | plainValue => "valueOf"
  | description => "get description"
  | unsaid => []

/-- The number of parameters of a standard function. -/
def arity : Standard → Nat
  | call => 1
  | apply => 2
  | bind => 1
  | owns => 1
  | shows => 1
  | isAncestor => 1
  | setParent => 1
  | join => 1
  | map => 1
  | every => 1
  | includes => 1
  | push => 1
  | textIncludes => 1
  | split => 2
  | _ => 0

end Standard

/-- A realm, named by the first of its objects. -/
structure Realm where
  /-- The first of its objects. -/
  base : Ref
deriving DecidableEq, Inhabited

namespace Realm

/-- The realm of the program around the scripts. -/
def main : Realm := ⟨0⟩

/-- What the values of a family inherit from. -/
def template (realm : Realm) (f : Family) : Ref := realm.base + 2 * f.index

/-- What makes values of a family. -/
def maker (realm : Realm) (f : Family) : Ref := realm.base + 2 * f.index + 1

/-- A standard function. -/
def standard (realm : Realm) (f : Standard) : Ref := realm.base + 2 * Family.all.length + f.index

/-- The number of objects of a realm. -/
def size : Nat := 2 * Family.all.length + Standard.all.length

end Realm

end EvalPlan
