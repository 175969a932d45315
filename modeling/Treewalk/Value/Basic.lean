import Treewalk.Tree.Basic

/-!
Values of a running program: data, functions with the place they were declared in, and the clock. A program
that runs has numbers for labels and frames for places.
-/

set_option autoImplicit false

namespace Treewalk

-- The place of a frame among all frames made so far.
abbrev FrameId := Nat

/-- A function that a declaration made. Each execution of a declaration makes another one, told apart by
its serial number. -/
structure Closure (ν : Type := NodeId) (ρ : Type := FrameId) where
  serial : Nat
  name : Token
  params : List Token
  body : List (Stmt ν)
  home : ρ
deriving Repr

inductive Value (ν : Type := NodeId) (ρ : Type := FrameId) where
  | datum (value : Datum)
  | closure (value : Closure ν ρ)
  | clock
deriving Repr

namespace Value

variable {ν ρ : Type}

def nil : Value ν ρ := .datum .nil
def boolean (value : Bool) : Value ν ρ := .datum (.boolean value)
def number (value : Float) : Value ν ρ := .datum (.number value)
def text (value : String) : Value ν ρ := .datum (.text value)

def display : Value ν ρ → String
  | .datum value => value.display
  | .closure value => "<fn " ++ value.name.lexeme ++ ">"
  | .clock => "<native fn>"

def toBool : Value ν ρ → Bool
  | .datum value => value.toBool
  | _ => true

/-- Functions are equal only to themselves. -/
def equals : Value ν ρ → Value ν ρ → Bool
  | .datum left, .datum right => left.equals right
  | .closure left, .closure right => left.serial == right.serial
  | .clock, .clock => true
  | _, _ => false

def number? : Value ν ρ → Option Float
  | .datum (.number value) => some value
  | _ => none

def isText : Value ν ρ → Bool
  | .datum (.text _) => true
  | _ => false

-- The number of arguments of something that can be called.
def arity? : Value ν ρ → Option Nat
  | .datum _ => none
  | .closure value => some value.params.length
  | .clock => some 0

end Value

end Treewalk
