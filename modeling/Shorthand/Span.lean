import Shorthand.Text.Basic
/-!
# Spans

A span is the stretch of a text from `start` up to `stop`, in char offsets.  A caret right behind the last char still
lies in it; another span does only when all of it does.  A span whose ends are reversed is empty.
-/
namespace Shorthand

/-- The stretch from `start` up to `stop`. -/
structure Span where
  start : Nat
  stop : Nat
  deriving DecidableEq, Repr

namespace Span

/-- The span between two offsets, given in either order. -/
def between (a b : Nat) : Span := ⟨min a b, max a b⟩

def point (pos : Nat) : Span := ⟨pos, pos⟩

def size (s : Span) : Nat := s.stop - s.start

/-- The span covers no char. -/
def isEmpty (s : Span) : Bool := s.stop ≤ s.start

/-- A caret at `pos` lies in the span, both ends included. -/
def contains (s : Span) (pos : Nat) : Bool := s.start ≤ pos && pos ≤ s.stop

/-- All of `s'` lies in `s`. -/
def covers (s s' : Span) : Bool := s.start ≤ s'.start && s'.stop ≤ s.stop

/-- Both ends moved back to `length` where they lie behind it. -/
def clamp (s : Span) (length : Nat) : Span := ⟨min s.start length, min s.stop length⟩

def describe (s : Span) : String := "[" ++ toString s.start ++ ", " ++ toString s.stop ++ ")"

def textIn (s : Span) (t : Text) : Text := t.slice s.start s.stop

/-- The ends are in order and lie in a text of `length` chars. -/
def Within (s : Span) (length : Nat) : Prop := s.start ≤ s.stop ∧ s.stop ≤ length

instance (s : Span) (length : Nat) : Decidable (s.Within length) := inferInstanceAs (Decidable (_ ∧ _))

theorem between_ordered (a b : Nat) : (between a b).start ≤ (between a b).stop := by
  simp only [between]; omega

theorem between_of_le {a b : Nat} (h : a ≤ b) : between a b = ⟨a, b⟩ := by
  unfold between
  rw [Nat.min_eq_left h, Nat.max_eq_right h]

theorem clamp_within {s : Span} (h : s.start ≤ s.stop) (length : Nat) : (s.clamp length).Within length := by
  simp only [clamp, Within]; omega

theorem clamp_eq_self {s : Span} {length : Nat} (h : s.Within length) : s.clamp length = s := by
  obtain ⟨h₁, h₂⟩ := h
  cases s
  simp only [clamp, Span.mk.injEq] at *
  omega

end Span
end Shorthand
