import Mathlib.Logic.Relation
import Shorthand.Proofs.Abbreviation.Located
import Shorthand.Proofs.Session.Keeping
import Shorthand.Proofs.Tracking.StartRule
/-!
# What the service does, move by move

Whatever it is told, the service does to the document in hand one of a few things (`Moves`): it starts or ends a
tracker, takes it along with an edit or an undo, or changes nothing that a tracker stands for.  A session becomes
another one move by move (`Tends`), and a property that each move keeps is kept (`Tends.preserves`).
-/
namespace Shorthand

open Abbreviation (Options enclosing?)

/-! ## Where trackers start -/

/-- A tracker that is started by typing starts with the marker in front of the char typed. -/
theorem trackingStart?_some {t : Text} {pos : Nat} {lead : Option Text} {found : TrackingStart}
    (h : trackingStart? t pos lead = some found) :
    found.span.start ≤ found.span.stop ∧ found.offset = (lead.map List.length).getD 0 := by
  obtain ⟨⟨hpos, -, -⟩, ho, hstart, hstop⟩ := trackingStart?_eq_some h
  refine ⟨?_, ho⟩
  rw [hstart, hstop]
  split <;> omega

namespace Session

variable {s s' : Session} {t : Tracker} {p : Patch} {d : Document}

/-! ## Moves -/

/-- **One thing that the service does to the document in hand**, told of an edit or an undo of it where there has been
one. -/
inductive Moves (s : Session) : Session → Prop
  | quiet {s' : Session} (same : s.Quiet s') : Moves s s'
  | stop : Moves s s.stop
  | start {span : Span} {forced : Bool} {offset : Nat} {options : Options} (ordered : span.start ≤ span.stop)
      (offset_eq : offset = if forced then 0 else s.service.leadLength) : Moves s (s.start span forced offset options)
  | edit {p : Patch} {d : Document} (takes : s.document.Takes p d) : Moves s ((s.withDocument d).followEdit p)
  | replace {p : Patch} {d : Document} (takes : s.document.Takes p d) : Moves s (s.withDocument d).stop
  | undone {d : Document} (back : d = s.document ∨ s.document.undo? = some d) : Moves s (s.withDocument d).onUndone

namespace Keeps

theorem start (s : Session) (span : Span) (forced : Bool) (offset : Nat) (options : Options) :
    s.Keeps (s.start span forced offset options) :=
  hold s _

theorem followEdit (s : Session) (p : Patch) : s.Keeps (s.followEdit p) := by
  rcases followEdit_cases s p with ⟨-, h⟩ | ⟨t, -, -, h⟩ | ⟨t, -, -, h⟩ <;> rw [h]
  · exact refl s
  · exact stop s
  · exact hold s _

theorem onUndone (s : Session) : s.Keeps s.onUndone := by
  rcases onUndone_cases s with ⟨-, -, h⟩ | ⟨m, -, -, h⟩ | ⟨t, m, -, -, h⟩ | ⟨t, -, -, -, h⟩ | ⟨t, -, -, -, h⟩ <;> rw [h]
  · exact noteCaret s
  · exact (start s _ _ _ _).trans ((Quiet.showPreview _).toKeeps.trans (noteCaret _))
  · exact (withTracker s _).trans (noteCaret _)
  · exact (hold s _).trans (noteCaret _)
  · exact (stop s).trans (noteCaret _)

end Keeps

theorem Keeps.of_undo? (h : d = s.document ∨ s.document.undo? = some d) : s.Keeps (s.withDocument d) := by
  rcases h with rfl | h
  · exact refl s
  · unfold Document.undo? at h
    split at h
    · cases h
    · cases h
      exact withDocument rfl rfl rfl

theorem Moves.keeps (h : s.Moves s') : s.Keeps s' := by
  cases h with
  | quiet same => exact same.toKeeps
  | stop => exact .stop s
  | start _ _ => exact .start s _ _ _ _
  | edit takes => exact (Keeps.takes takes).trans (.followEdit _ _)
  | replace takes => exact (Keeps.takes takes).trans (.stop _)
  | undone back => exact (Keeps.of_undo? back).trans (.onUndone _)

/-- **`s` becomes `s'` move by move.** -/
def Tends (s s' : Session) : Prop := Relation.ReflTransGen Moves s s'

namespace Tends

theorem refl (s : Session) : s.Tends s := Relation.ReflTransGen.refl

theorem trans {s₁ s₂ s₃ : Session} (h : s₁.Tends s₂) (h' : s₂.Tends s₃) : s₁.Tends s₃ :=
  Relation.ReflTransGen.trans h h'

theorem move (h : s.Moves s') : s.Tends s' := Relation.ReflTransGen.single h

theorem quiet (h : s.Quiet s') : s.Tends s' := move (.quiet h)

theorem stop (s : Session) : s.Tends s.stop := move .stop

theorem keeps (h : s.Tends s') : s.Keeps s' := by
  induction h with
  | refl => exact .refl s
  | tail _ hm ih => exact ih.trans hm.keeps

/-- **What every move keeps is kept.** -/
theorem preserves {P : Session → Prop} (moves : ∀ {s s' : Session}, s.Moves s' → P s → P s') (h : s.Tends s')
    (hs : P s) : P s' := by
  induction h with
  | refl => exact hs
  | tail _ hm ih => exact moves hm ih

end Tends

end Session
end Shorthand
