import Shorthand.Toml.Value
/-!
# Outlines

A TOML document names its tables in headers and in dotted keys, in nearly any order, and a table must not be defined
twice.  An outline is what has been defined so far: of each table, how it came about, which decides what may still be
added to it.
-/
namespace Shorthand.Toml

/-- How a table came about: on the way to a header, by a header of its own, or by a dotted key. -/
inductive Origin where
  | implied
  | header
  | dotted
  deriving DecidableEq

/-- What a key stands for: a complete value, a table, or a list of tables that headers go on adding to. -/
inductive Entry where
  | value (v : Value)
  | table (origin : Origin) (entries : List (Text × Entry))
  | tables (items : List (List (Text × Entry)))

/-- What has been defined, in the order of first appearance. -/
abbrev Outline := List (Text × Entry)

namespace Outline

/-- What `key` stands for. -/
def get? (o : Outline) (key : Text) : Option Entry := (o.find? fun e => e.1 = key).map Prod.snd

/-- The outline with `key` standing for `entry`, in its old place if it has one. -/
def set (o : Outline) (key : Text) (entry : Entry) : Outline :=
  if o.any fun e => e.1 = key then o.map fun e => if e.1 = key then (key, entry) else e else o ++ [(key, entry)]

/-- The outline changed by `f` in the table that a header's path leads to; of a list of tables that is the last one. -/
def within? (f : Outline → Option Outline) : List Text → Outline → Option Outline
  | [], o => f o
  | key :: path, o =>
    match o.get? key with
    | none => (within? f path []).map fun inner => o.set key (.table .implied inner)
    | some (.value _) => none
    | some (.table origin inner) => (within? f path inner).map fun inner => o.set key (.table origin inner)
    | some (.tables items) =>
      match items.getLast? with
      | none => none
      | some last => (within? f path last).map fun last => o.set key (.tables (items.dropLast ++ [last]))

/-- Opens the table that the header of `key` names, which may have been implied before. -/
def openTable? (key : Text) (o : Outline) : Option Outline :=
  match o.get? key with
  | none => some (o.set key (.table .header []))
  | some (.table .implied inner) => some (o.set key (.table .header inner))
  | _ => none

/-- Opens one more table of the list that the header of `key` names. -/
def openItem? (key : Text) (o : Outline) : Option Outline :=
  match o.get? key with
  | none => some (o.set key (.tables [[]]))
  | some (.tables items) => some (o.set key (.tables (items ++ [[]])))
  | _ => none

/-- Defines the value of a dotted key: `path` leads to its table, which no header may have defined. -/
def define? (key : Text) (v : Value) : List Text → Outline → Option Outline
  | [], o => if (o.get? key).isSome then none else some (o.set key (.value v))
  | part :: path, o =>
    match o.get? part with
    | none => (define? key v path []).map fun inner => o.set part (.table .dotted inner)
    | some (.table .dotted inner) => (define? key v path inner).map fun inner => o.set part (.table .dotted inner)
    | some (.table .implied inner) =>
      if path = [] then none else (define? key v path inner).map fun inner => o.set part (.table .implied inner)
    | some (.tables items) =>
      match path, items.getLast? with
      | _ :: _, some last => (define? key v path last).map fun last => o.set part (.tables (items.dropLast ++ [last]))
      | _, _ => none
    | _ => none

mutual

def entryValue : Entry → Value
  | .value v => v
  | .table _ entries => .table (toTable entries)
  | .tables items => .list (itemValues items)

def toTable : List (Text × Entry) → List (Text × Value)
  | [] => []
  | (key, entry) :: o => (key, entryValue entry) :: toTable o

def itemValues : List (List (Text × Entry)) → List Value
  | [] => []
  | o :: os => .table (toTable o) :: itemValues os

end

end Outline
end Shorthand.Toml
