import Shorthand.Abbreviation.Chain
/-!
# Trees as chains

Every list of nodes can be written as a chain: a node, then its children one level down, and then its next sibling, as
many levels up as the last descendants of the node go down (`Chain.ofNodes`).  Assembling that chain gives the nodes
back (`assemble_ofNodes`).

Whatever holds of the nodes of a chain, and goes on to hold of a node that adopts others of which it holds, holds of the
nodes that the chain is assembled to (`assemble_forall`).
-/
namespace Shorthand.Abbreviation

namespace Node

/-- The node without its children. -/
def alone : Node → Node
  | .element e count _ => .element e count []
  | .group items count _ => .group items count []

mutual

/-- The number of levels below a node, going from each last child to its last child. -/
def depth : Node → Nat
  | .element _ _ children => lastDepth children
  | .group _ _ children => lastDepth children

/-- The number of levels that the last of some nodes reaches down, its own one included. -/
def lastDepth : List Node → Nat
  | [] => 0
  | [n] => n.depth + 1
  | _ :: n :: ns => lastDepth (n :: ns)

end

/-- The operator that leads from the last descendant of a node to its next sibling. -/
def next (n : Node) : Operator := if n.depth = 0 then .sibling else .climb n.depth

mutual

/-- The steps from a node through all that is below it. -/
def descent : Node → List (Operator × Node)
  | .element _ _ children => stepsThrough .child children
  | .group _ _ children => stepsThrough .child children

/-- The steps through some siblings, the operator leading to the first. -/
def stepsThrough : Operator → List Node → List (Operator × Node)
  | _, [] => []
  | o, n :: ns => (o, n.alone) :: (n.descent ++ stepsThrough n.next ns)

end

theorem depth_eq (n : Node) : n.depth = lastDepth n.children := by cases n <;> simp only [depth, children]

theorem descent_eq (n : Node) : n.descent = stepsThrough .child n.children := by
  cases n <;> simp only [descent, children]

theorem adopt_alone (n : Node) : n.alone.adopt n.children = n := by cases n <;> rfl

theorem alone_of_childless {n : Node} (h : n.children = []) : n.alone = n := by
  cases n <;> cases h <;> rfl

theorem sizeOf_children_lt (n : Node) : sizeOf n.children < sizeOf n := by
  cases n <;> simp only [children, Node.element.sizeOf_spec, Node.group.sizeOf_spec] <;> omega

end Node

namespace Chain

open Node (lastDepth stepsThrough)

/-- **The chain of the nodes** `n` and, behind it, `ns`. -/
def ofNodes (n : Node) (ns : List Node) : Chain := ⟨n.alone, n.descent ++ stepsThrough n.next ns⟩

theorem climb_succ : ∀ (levels : Nat) (outer : List Level) (level : List Node),
    climb (levels + 1) outer level = climb 1 (climb levels outer level).1 (climb levels outer level).2
  | 0, _, _ => rfl
  | _ + 1, [], _ => rfl
  | levels + 1, (done, parent) :: outer, level => climb_succ levels outer (done ++ [parent.adopt level])

/-- **Closing the innermost `levels` of the open levels leaves those of `outer`**, with `nodes` on the next one. -/
structure Closes (levels : Nat) (opened : List Level) (done : List Node) (last : Node) (outer : List Level)
    (nodes : List Node) : Prop where
  length_eq : opened.length = outer.length + levels
  climb_eq : climb levels opened (done ++ [last]) = (outer, nodes)

/-- The next sibling of a node goes behind it, when all below the node has been read. -/
theorem Closes.assembleFrom_next {n m : Node} {opened outer : List Level} {done nodes : List Node} {last : Node}
    (h : Closes n.depth opened done last outer nodes) (more : List (Operator × Node)) :
    assembleFrom opened done last ((n.next, m) :: more) = assembleFrom outer nodes m more := by
  have hc := h.climb_eq
  unfold Node.next
  split
  · next hd =>
    rw [hd] at hc
    cases hc
    rfl
  · rw [assembleFrom, hc]

mutual

/-- Reading all that is below a node leaves levels open that close to the node itself. -/
theorem assembleFrom_below (n : Node) (outer : List Level) (before : List Node) (more : List (Operator × Node)) :
    ∃ opened done last, assembleFrom outer before n.alone (n.descent ++ more) = assembleFrom opened done last more ∧
      Closes n.depth opened done last outer (before ++ [n]) := by
  rw [Node.descent_eq, Node.depth_eq]
  cases hc : n.children with
  | nil =>
    refine ⟨outer, before, n.alone, rfl, rfl, ?_⟩
    rw [Node.alone_of_childless hc]
    rfl
  | cons c cs =>
    -- the children are read on a level of their own, whose parent is `n`: closing it too has `n` adopt them
    obtain ⟨levels, opened, done, last, hd, ha, hl⟩ := assembleFrom_siblings c cs ((before, n.alone) :: outer) [] more
    refine ⟨opened, done, last, ?_, ?_, ?_⟩
    · rw [← ha, stepsThrough, List.cons_append, assembleFrom, List.append_assoc]
    · rw [hd, hl.length_eq, List.length_cons]
      omega
    · rw [hd, climb_succ, hl.climb_eq, List.nil_append, ← hc]
      simp only [climb, Node.adopt_alone]
termination_by sizeOf n
decreasing_by
  have := n.sizeOf_children_lt
  rw [hc, List.cons.sizeOf_spec] at this
  omega

/-- Reading siblings and all that is below them leaves levels open that close to the siblings. -/
theorem assembleFrom_siblings (n : Node) (ns : List Node) (outer : List Level) (before : List Node)
    (more : List (Operator × Node)) :
    ∃ levels opened done last, lastDepth (n :: ns) = levels + 1 ∧
      assembleFrom outer before n.alone (n.descent ++ (stepsThrough n.next ns ++ more)) =
        assembleFrom opened done last more ∧
      Closes levels opened done last outer (before ++ n :: ns) := by
  obtain ⟨opened, done, last, ha, hc⟩ := assembleFrom_below n outer before (stepsThrough n.next ns ++ more)
  cases ns with
  | nil => exact ⟨n.depth, opened, done, last, by simp only [lastDepth], ha, hc⟩
  | cons m ns =>
    -- the operator in front of `m` closes what `n` has left open
    obtain ⟨levels, opened', done', last', hd, ha', hc'⟩ := assembleFrom_siblings m ns outer (before ++ [n]) more
    refine ⟨levels, opened', done', last', ?_, ?_, ?_⟩
    · simpa only [lastDepth] using hd
    · rw [ha, ← ha', stepsThrough, List.cons_append, hc.assembleFrom_next, List.append_assoc]
    · rwa [List.append_assoc] at hc'
termination_by sizeOf n + sizeOf ns + 1
decreasing_by
  · omega
  · rw [List.cons.sizeOf_spec]
    omega

end

/-- **Assembling the chain of some nodes gives the nodes.** -/
theorem assemble_ofNodes (n : Node) (ns : List Node) : (ofNodes n ns).assemble = n :: ns := by
  obtain ⟨levels, opened, done, last, -, ha, hc⟩ := assembleFrom_siblings n ns [] [] []
  have hl : opened.length = levels := by rw [hc.length_eq, List.length_nil, Nat.zero_add]
  unfold assemble ofNodes
  rw [List.append_nil] at ha
  rw [ha, assembleFrom, hl, hc.climb_eq]
  rfl

/-! ## What all nodes have in common -/

variable {P : Node → Prop} (adopt : ∀ {n : Node} {more : List Node}, P n → (∀ m ∈ more, P m) → P (n.adopt more))

include adopt

theorem climb_forall (levels : Nat) {outer : List Level} {level : List Node}
    (ho : ∀ l ∈ outer, (∀ n ∈ l.1, P n) ∧ P l.2) (hl : level ≠ [] ∧ ∀ n ∈ level, P n) :
    (∀ l ∈ (climb levels outer level).1, (∀ n ∈ l.1, P n) ∧ P l.2) ∧
      (climb levels outer level).2 ≠ [] ∧ ∀ n ∈ (climb levels outer level).2, P n := by
  induction levels generalizing outer level with
  | zero => exact ⟨ho, hl⟩
  | succ levels ih =>
    cases outer with
    | nil => exact ⟨ho, hl⟩
    | cons l outer =>
      obtain ⟨⟨hd, hp⟩, ho⟩ := List.forall_mem_cons.1 ho
      exact ih ho ⟨by simp, List.forall_mem_append.2 ⟨hd, List.forall_mem_singleton.2 (adopt hp hl.2)⟩⟩

theorem assembleFrom_forall {outer : List Level} {done : List Node} {last : Node} {steps : List (Operator × Node)}
    (ho : ∀ l ∈ outer, (∀ n ∈ l.1, P n) ∧ P l.2) (hd : ∀ n ∈ done, P n) (hl : P last)
    (hs : ∀ step ∈ steps, P step.2) :
    assembleFrom outer done last steps ≠ [] ∧ ∀ n ∈ assembleFrom outer done last steps, P n := by
  have hlevel {done : List Node} {last : Node} (hd : ∀ n ∈ done, P n) (hl : P last) :
      done ++ [last] ≠ [] ∧ ∀ n ∈ done ++ [last], P n :=
    ⟨by simp, List.forall_mem_append.2 ⟨hd, List.forall_mem_singleton.2 hl⟩⟩
  induction steps generalizing outer done last with
  | nil => exact (climb_forall adopt _ ho (hlevel hd hl)).2
  | cons step steps ih =>
    obtain ⟨operator, node⟩ := step
    obtain ⟨hn, hr⟩ := List.forall_mem_cons.1 hs
    cases operator with
    | sibling => exact ih ho (hlevel hd hl).2 hn hr
    | child => exact ih (List.forall_mem_cons.2 ⟨⟨hd, hl⟩, ho⟩) nofun hn hr
    | climb levels =>
      have hc := climb_forall adopt levels ho (hlevel hd hl)
      exact ih hc.1 hc.2.2 hn hr

/-- **What holds of the nodes of a chain holds of the nodes it is assembled to**, of which there are some. -/
theorem assemble_forall {c : Chain} (hf : P c.first) (hr : ∀ step ∈ c.rest, P step.2) :
    c.assemble ≠ [] ∧ ∀ n ∈ c.assemble, P n :=
  assembleFrom_forall adopt nofun nofun hf hr

end Chain
end Shorthand.Abbreviation
