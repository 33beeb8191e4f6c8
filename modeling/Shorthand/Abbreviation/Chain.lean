import Shorthand.Abbreviation.Node
/-!
# Chains

An abbreviation is written as a chain: nodes without children, with operators between them that tell where in the tree
the next node goes, relative to the one before.  `Chain.assemble` builds the tree, keeping the levels that are still
open: of each the nodes that are finished and the last one, whose children are being read.
-/
namespace Shorthand.Abbreviation

/-- Where the next node goes: beside the last one, below it, or beside its parent of the given number of levels up, the
top level being its own parent. -/
inductive Operator where
  | sibling
  | child
  | climb (levels : Nat)
  deriving DecidableEq, Repr

/-- Nodes without children and the operators between them. -/
structure Chain where
  first : Node
  rest : List (Operator × Node)
  deriving Repr

namespace Chain

/-- A level that is open: its finished nodes, and the one whose children are being read. -/
abbrev Level := List Node × Node

/-- The level `n` steps up and its nodes, given the open levels around the nodes `level`. -/
def climb : Nat → List Level → List Node → List Level × List Node
  | 0, outer, level => (outer, level)
  | _ + 1, [], level => ([], level)
  | n + 1, (done, parent) :: outer, level => climb n outer (done ++ [parent.adopt level])

/-- The nodes of the top level, once the rest of a chain is read: `last` is the node read last, `done` its finished
siblings and `outer` the open levels around them. -/
def assembleFrom (outer : List Level) (done : List Node) (last : Node) : List (Operator × Node) → List Node
  | [] => (climb outer.length outer (done ++ [last])).2
  | (.sibling, node) :: rest => assembleFrom outer (done ++ [last]) node rest
  | (.child, node) :: rest => assembleFrom ((done, last) :: outer) [] node rest
  | (.climb levels, node) :: rest =>
    let (outer', done') := climb levels outer (done ++ [last])
    assembleFrom outer' done' node rest

def assemble (c : Chain) : List Node := assembleFrom [] [] c.first c.rest

end Chain
end Shorthand.Abbreviation
