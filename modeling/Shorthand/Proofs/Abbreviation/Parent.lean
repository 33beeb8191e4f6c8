import Shorthand.Abbreviation.Markup
/-!
# What the element around an abbreviation matters to

The element around an abbreviation names those elements of it that are written without a name and stand at the top, in
groups or not.  It matters to nothing else (`nodesOutput_eq`), and to the output it matters whenever it is asked: two
elements that name their children differently lead to texts that part somewhere (`differs_nodesOutput`).
-/
namespace Shorthand.Abbreviation

mutual

/-- An element of the output gets its name from the element around the node. -/
def Node.asksParent : Node → Bool
  | .element e count _ => e.name = [] && 0 < count
  | .group items count children => 0 < count && (nodesAskParent items || nodesAskParent children)

def nodesAskParent : List Node → Bool
  | [] => false
  | n :: ns => n.asksParent || nodesAskParent ns

end

variable {p q : Option Text}

/-! ## Where parents agree -/

theorem Element.nameIn_eq {e : Element} (h : e.name = [] → usualChild p = usualChild q) : e.nameIn p = e.nameIn q := by
  unfold nameIn
  split
  · next he => exact h he
  · rfl

mutual

theorem Node.output_eq : ∀ (n : Node), (n.asksParent = true → usualChild p = usualChild q) → n.output p = n.output q
  | .element e count children, h => by
    rw [Node.output, Node.output]
    rcases Nat.eq_zero_or_pos count with rfl | hc
    · rfl
    · rw [Element.nameIn_eq fun he => h (by simp [Node.asksParent, he, hc])]
  | .group items count children, h => by
    rw [Node.output, Node.output]
    rcases Nat.eq_zero_or_pos count with rfl | hc
    · rfl
    · rw [nodesOutput_eq items fun hi => h (by simp [Node.asksParent, hi, hc]),
        nodesOutput_eq children fun hi => h (by simp [Node.asksParent, hi, hc])]

/-- **Nodes that ask nothing of their parent come out alike in any.** -/
theorem nodesOutput_eq : ∀ (ns : List Node), (nodesAskParent ns = true → usualChild p = usualChild q) →
    nodesOutput p ns = nodesOutput q ns
  | [], _ => by rw [nodesOutput, nodesOutput]
  | n :: ns, h => by
    rw [nodesOutput, nodesOutput, Node.output_eq n fun hn => h (by simp [nodesAskParent, hn]),
      nodesOutput_eq ns fun hn => h (by simp [nodesAskParent, hn])]

end

/-! ## Where they do not -/

/-- The texts part before either of them ends. -/
def clash : Text → Text → Bool
  | c :: t, d :: t' => c ≠ d || clash t t'
  | _, _ => false

theorem clash_append {t t' : Text} (h : clash t t' = true) (r r' : Text) : clash (t ++ r) (t' ++ r') = true := by
  induction t generalizing t' with
  | nil => cases h
  | cons c t ih =>
    cases t' with
    | nil => cases h
    | cons d t' =>
      rcases Bool.or_eq_true_iff.1 h with hc | ht
      · exact Bool.or_eq_true_iff.2 (.inl hc)
      · exact Bool.or_eq_true_iff.2 (.inr (ih ht))

theorem clash_append_left {t t' : Text} (h : clash t t' = true) (r : Text) : clash (r ++ t) (r ++ t') = true := by
  induction r with
  | nil => exact h
  | cons c r ih => exact Bool.or_eq_true_iff.2 (.inr ih)

theorem clash_irrefl (t : Text) : clash t t = false := by
  induction t with
  | nil => rfl
  | cons c t ih => simp [clash, ih]

namespace Output

variable {a a' b : Output}

/-- **The texts of the outputs part**, however the stops are numbered. -/
def Differs (a a' : Output) : Prop := ∀ stop, clash (a stop).1 (a' stop).1 = true

theorem Differs.append (h : a.Differs a') (b b' : Output) : (a ++ b).Differs (a' ++ b') := fun _ =>
  clash_append (h _) _ _

theorem Differs.prepend (h : a.Differs a') (b : Output) : (b ++ a).Differs (b ++ a') := fun _ =>
  clash_append_left (h _) _

theorem Differs.times (h : a.Differs a') : ∀ {n : Nat}, 0 < n → (times n a).Differs (times n a')
  | 0, hn => absurd hn (Nat.lt_irrefl 0)
  | _ + 1, _ => h.append _ _

end Output

open Output

/-- The names that elements without one can get. -/
def usualChildren : List Text := ["li".toList, "tr".toList, "td".toList, "option".toList, "div".toList]

theorem usualChild_mem (parent : Option Text) : usualChild parent ∈ usualChildren := by
  unfold usualChild
  split
  · decide
  split
  · decide
  split
  · decide
  split <;> decide

theorem isVoid_usualChild (parent : Option Text) : isVoid (usualChild parent) = false := by
  have h : ∀ name ∈ usualChildren, isVoid name = false := by decide
  exact h _ (usualChild_mem parent)

theorem clash_usualChild (h : usualChild p ≠ usualChild q) : clash (usualChild p) (usualChild q) = true := by
  have hc : ∀ x ∈ usualChildren, ∀ y ∈ usualChildren, x ≠ y → clash x y = true := by decide
  exact hc _ (usualChild_mem p) _ (usualChild_mem q) h

theorem differs_elementOutput (h : usualChild p ≠ usualChild q) (e : Element) (childless : Bool) (content content' : Output) :
    (elementOutput (usualChild p) e childless content).Differs (elementOutput (usualChild q) e childless content') := by
  have hname : (Output.text ('<' :: usualChild p)).Differs (.text ('<' :: usualChild q)) := fun _ =>
    clash_append_left (clash_usualChild h) ['<']
  have hopen : (openingTag (usualChild p) e).Differs (openingTag (usualChild q) e) :=
    (((hname.append _ _).append _ _).append _ _).append _ _
  unfold elementOutput
  rw [isVoid_usualChild, isVoid_usualChild]
  exact ((hopen.append _ _).append _ _).append _ _

mutual

theorem Node.differs_output (h : usualChild p ≠ usualChild q) : ∀ {n : Node}, n.asksParent = true →
    (n.output p).Differs (n.output q)
  | .element e count children, ha => by
    simp only [Node.asksParent, Bool.and_eq_true, decide_eq_true_eq] at ha
    have hn : ∀ parent, e.nameIn parent = usualChild parent := fun _ => if_pos ha.1
    rw [Node.output, Node.output, hn, hn]
    exact (differs_elementOutput h e _ _ _).times ha.2
  | .group items count children, ha => by
    simp only [Node.asksParent, Bool.and_eq_true, decide_eq_true_eq, Bool.or_eq_true] at ha
    rw [Node.output, Node.output]
    refine Differs.times ?_ ha.1
    by_cases hi : nodesAskParent items = true
    · exact (differs_nodesOutput h hi).append _ _
    · -- the items come out alike, so it is the children that ask
      rw [nodesOutput_eq (p := p) (q := q) items fun hi' => absurd hi' hi]
      exact (differs_nodesOutput h (ha.2.resolve_left hi)).prepend _

theorem differs_nodesOutput (h : usualChild p ≠ usualChild q) : ∀ {ns : List Node}, nodesAskParent ns = true →
    (nodesOutput p ns).Differs (nodesOutput q ns)
  | [], ha => nomatch ha
  | n :: ns, ha => by
    simp only [nodesAskParent, Bool.or_eq_true] at ha
    rw [nodesOutput, nodesOutput]
    by_cases hn : n.asksParent = true
    · exact (Node.differs_output h hn).append _ _
    · rw [Node.output_eq (p := p) (q := q) n fun hn' => absurd hn' hn]
      exact (differs_nodesOutput h (ha.resolve_left hn)).prepend _

end

/-- **The element around an abbreviation matters to what it expands to just if it is asked for a name and gives
another.** -/
theorem expand_eq_iff {nodes : List Node} {o o' : Options} : expand nodes o = expand nodes o' ↔
    (nodesAskParent nodes = true → usualChild (o.context.map (·.name)) = usualChild (o'.context.map (·.name))) := by
  constructor
  · intro h ha
    refine Decidable.byContradiction fun hne => ?_
    have hd := differs_nodesOutput hne ha 1
    unfold expand at h
    generalize (nodesOutput (o.context.map (·.name)) nodes 1).1 = t at h hd
    generalize (nodesOutput (o'.context.map (·.name)) nodes 1).1 = t' at h hd
    cases t with
    | nil => cases hd
    | cons c t =>
      cases t' with
      | nil => cases hd
      | cons d t' =>
        rw [Except.ok.inj h, clash_irrefl] at hd
        cases hd
  · intro ha
    unfold expand
    rw [nodesOutput_eq nodes ha]

end Shorthand.Abbreviation
