import Shorthand.Proofs.Host.Forced
import Shorthand.Proofs.Session.OneLine
/-!
# Automatic trackers stay on one line

As long as nothing is undone that brings a marker back to what is no abbreviation in one line, and nothing is extracted
within a line end, every tracker of a host that is not forced is on something to read in one line after every step.  It
is so just as long (`Opening.one_line_iff`): the check that a report makes is not made where an undo or an extraction
starts or moves a tracker.
-/
namespace Shorthand

/-- **Every tracker that is not forced is on something to read in one line**, whatever document it is in. -/
def Service.InLines (v : Service) : Prop := ∀ id t, v.trackers.get? id = some t → t.forced = false → t.InLine

namespace Host

variable {h : Host} {i : Nat} {s s' : Session}

theorem trim_of_inLines (hv : h.service.InLines) (hs : h.session? i = some s) : s.Trim := by
  intro t ht hf
  rw [← (session?_eq_some.1 hs).2] at hv
  exact hv s.document.id t ht hf

/-- What a session leaves to the other documents was so before. -/
theorem inLines_put_iff (hv : h.service.InLines) (hs : h.session? i = some s) (hk : s.Keeps s') :
    (h.put i s').service.InLines ↔ s'.Trim := by
  constructor
  · intro hv' t ht hf
    exact hv' s'.document.id t ht hf
  · intro ht' id t ht hf
    by_cases hid : id = s.document.id
    · rw [hid, ← hk.id] at ht
      exact ht' t ht hf
    · have ho : s'.service.trackers.get? id = h.service.trackers.get? id := by
        rw [hk.others id hid, (session?_eq_some.1 hs).2]
      exact hv id t (ho.symm.trans ht) hf

theorem inLines_activateAll (hv : h.service.InLines) : h.activateAll.service.InLines := by
  unfold Host.activateAll
  generalize List.range _ = indices
  induction indices generalizing h with
  | nil => exact hv
  | cons i indices ih =>
    refine ih ?_
    dsimp only
    cases hs : h.session? i with
    | none => rwa [on_of_none hs]
    | some s =>
      have hq := Session.Quiet.onActivated s
      rw [on_of_some hs]
      exact (inLines_put_iff hv hs hq.toKeeps).2 (hq.trim_iff.2 (trim_of_inLines hv hs))

/-- The step leaves what is no abbreviation in one line tracked. -/
def strays (h : Host) : Step → Bool
  | .on i a => (h.session? i).any (·.strays a)
  | .choose _ => false

/-- No step leaves what is no abbreviation in one line tracked. -/
def keepsLines (h : Host) (steps : List Step) : Bool := along step (fun h st => !h.strays st) h steps

/-- **One step keeps all trackers to one line just if it does not stray.** -/
theorem inLines_step_iff (hh : h.Holds Session.Sound) (hv : h.service.InLines) (st : Step) :
    (h.step st).service.InLines ↔ (!h.strays st) = true := by
  cases st with
  | choose settings => exact iff_of_true hv rfl
  | on i a =>
    cases hs : h.session? i with
    | none =>
      have hst : h.step (.on i a) = h := on_of_none hs (·.act a)
      rw [hst]
      exact iff_of_true hv (by simp [strays, hs])
    | some s =>
      obtain ⟨hsound, hw, hu⟩ := hh.of_session? hs
      have hst : h.step (.on i a) = h.put i (s.act a) := on_of_some hs (·.act a)
      have hstrays : h.strays (.on i a) = s.strays a := by simp [strays, hs]
      rw [hst, inLines_put_iff hv hs (Session.tends_act hw hu a).keeps, hstrays, Bool.not_eq_true']
      exact Session.trim_act_iff (trim_of_inLines hv hs) hsound hu a

end Host

namespace Opening

theorem inLines (o : Opening) : o.host.service.InLines :=
  Host.inLines_activateAll (h := ⟨{ dialect := o.dialect, settings := o.settings }, o.documents⟩) nofun

/-- **Every tracker that is not forced is on something to read in one line after every step**, just if no step leaves
one elsewhere: no undo by the marker that it brings back, and no extraction by what is found within a line end. -/
theorem one_line_iff (o : Opening) (steps : List Host.Step) :
    (∀ pre st post, steps = pre ++ st :: post → ((o.host.run pre).step st).service.InLines) ↔
      o.host.keepsLines steps = true := by
  let I (h : Host) : Prop := h.Holds Session.Sound ∧ h.service.InLines
  have hi : I o.host := ⟨o.sound [], o.inLines⟩
  refine along_iff (Q := fun h st => (h.step st).service.InLines) ?_ ?_ steps hi
  · rintro h st ⟨hh, hv⟩
    exact Host.inLines_step_iff hh hv st
  · rintro h st ⟨hh, hv⟩ hp
    exact ⟨hh.step_sound st, (Host.inLines_step_iff hh hv st).2 hp⟩

/-- In one document an abbreviation is extracted in front of a line end, and a char behind it typed and taken back; in
another a forced tracker is on two lines. -/
theorem one_line_iff_in_front_of_a_line_end :
    let o := ofTexts ⟨"html", true⟩ {} ["a\r\nul".toList, "x ".toList]
    let steps : List Host.Step := [.on 0 (.complete false), .on 0 (.select 1 1), .on 0 (.command .extract),
      .on 0 (.type ".b".toList), .on 0 .undo, .on 0 .undo, .on 1 (.type "p>a".toList), .on 1 (.select 2 5),
      .on 1 (.command .enter), .on 1 (.type "+\nb".toList), .on 1 .undo]
    ∃ s s' t t', o.host.keepsLines steps = true ∧
      (∀ pre st post, steps = pre ++ st :: post → ((o.host.run pre).step st).service.InLines) ∧
      (o.host.run steps).session? 0 = some s ∧ s.tracker? = some t ∧ t.forced = false ∧ t.reading.text = ['a'] ∧
      (o.host.run steps).session? 1 = some s' ∧ s'.tracker? = some t' ∧ t'.forced = true ∧
      t'.reading.text = "p>a+\n".toList := by
  intro o steps
  have hk : o.host.keepsLines steps = true := by decide +kernel
  have hc : ((o.host.run steps).session? 0).any (fun s => s.tracker?.any fun t =>
      !t.forced && t.reading.text = ['a']) = true := by decide +kernel
  have hc' : ((o.host.run steps).session? 1).any (fun s => s.tracker?.any fun t =>
      t.forced && t.reading.text = "p>a+\n".toList) = true := by decide +kernel
  obtain ⟨s, hs, hc⟩ := (Option.any_eq_true _ _).1 hc
  obtain ⟨s', hs', hc'⟩ := (Option.any_eq_true _ _).1 hc'
  simp only [Option.any_eq_true, Bool.and_eq_true, Bool.not_eq_true', decide_eq_true_eq] at hc hc'
  obtain ⟨t, ht, hf, hr⟩ := hc
  obtain ⟨t', ht', hf', hr'⟩ := hc'
  exact ⟨s, s', t, t', hk, (one_line_iff o steps).2 hk, hs, ht, hf, hr, hs', ht', hf', hr'⟩

/-- **A tracker that is not forced may be left on nothing**: where an undo brings back the marker of one that was forced
and has been ended since. -/
theorem tracker_left_on_nothing :
    ¬ ∀ (o : Opening) (steps pre : List Host.Step) (st : Host.Step) (post : List Host.Step),
      steps = pre ++ st :: post → ((o.host.run pre).step st).service.InLines := by
  intro h
  let o := ofTexts ⟨"html", true⟩ {} [[]]
  let pre : List Host.Step := [.on 0 (.command .enter), .on 0 (.type ['a']), .on 0 (.command .clear)]
  have hc : (((o.host.run pre).step (.on 0 .undo)).session? 0).any (fun s => s.tracker?.any fun t =>
      !t.forced && t.reading.isEmpty) = true := by decide +kernel
  obtain ⟨s, hs, hc⟩ := (Option.any_eq_true _ _).1 hc
  simp only [Option.any_eq_true, Bool.and_eq_true, Bool.not_eq_true'] at hc
  obtain ⟨t, ht, hf, hr⟩ := hc
  have hv := h o (pre ++ [.on 0 .undo]) pre (.on 0 .undo) [] rfl
  have hn := (Host.trim_of_inLines hv hs t ht hf).nonempty
  rw [hr] at hn
  cases hn

/-- It may be left on a carriage return too, where an abbreviation is extracted between that and its line feed. -/
example :
    let o := ofTexts ⟨"html", true⟩ {} ["ul\r\n".toList]
    let steps : List Host.Step := [.on 0 (.select 3 3), .on 0 (.command .extract)]
    ((o.host.run steps).session? 0).any (fun s => s.tracker?.any fun t =>
      !t.forced && t.reading.text = "ul\r".toList) = true := by
  decide +kernel

end Opening
end Shorthand
