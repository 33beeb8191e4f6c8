import Shorthand.Text.Basic
/-!
# TOML values

What a TOML document holds.  Floats, dates and times are kept as they were written, as nothing here computes with them.
-/
namespace Shorthand.Toml

/-- A value of a TOML document. -/
inductive Value where
  | text (t : Text)
  | integer (n : Int)
  | float (literal : Text)
  | truth (b : Bool)
  | moment (literal : Text)
  | list (items : List Value)
  | table (entries : List (Text × Value))

/-- The entries of a table, in the order of their first appearance. -/
abbrev Table := List (Text × Value)

def Table.get? (t : Table) (key : String) : Option Value := (t.find? fun e => e.1 = key.toList).map Prod.snd

/-- Every key of the table is one of those given. -/
def Table.hasOnly (t : Table) (keys : List String) : Bool := t.all fun e => keys.any fun k => e.1 = k.toList

/-- The least integer that every reader of TOML has to take. -/
def leastInteger : Int := -0x8000000000000000

/-- The greatest integer that every reader of TOML has to take. -/
def greatestInteger : Int := 0x7FFFFFFFFFFFFFFF

namespace Value

mutual

/-- Every integer in the value lies between the bounds. -/
def integersIn (low high : Int) : Value → Bool
  | .integer n => low ≤ n && n ≤ high
  | .list items => listIntegersIn low high items
  | .table entries => tableIntegersIn low high entries
  | _ => true

def listIntegersIn (low high : Int) : List Value → Bool
  | [] => true
  | v :: vs => v.integersIn low high && listIntegersIn low high vs

/-- Every integer in the entries lies between the bounds. -/
def tableIntegersIn (low high : Int) : List (Text × Value) → Bool
  | [] => true
  | (_, v) :: es => v.integersIn low high && tableIntegersIn low high es

end

def asText? : Value → Option Text
  | .text t => some t
  | _ => none

def asTruth? : Value → Option Bool
  | .truth b => some b
  | _ => none

def asOffset? : Value → Option Nat
  | .integer n => if 0 ≤ n && n ≤ maxOffset then some n.toNat else none
  | _ => none

def asTable? : Value → Option Table
  | .table t => some t
  | _ => none

end Value
end Shorthand.Toml
