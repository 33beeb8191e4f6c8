import Shorthand.Proofs.Patch.Checked
import Shorthand.Abbreviation.Enclosing
import Shorthand.Abbreviation.Location
import Shorthand.Text.Line
import Shorthand.Tracking.Registry
import Shorthand.Tracking.Start
import Shorthand.Tracking.Stop
/-!
# Trackers with every bound checked

Finding abbreviations and following them, with the checked operations.  Finding needs no assumption: it looks at a text
only as far as it reaches.  A region that is followed has to have its ends in order; and a tracker that may have to end
has to read no more than its region, which is so whenever it has read a text (`Tracker.length_reading_reread`).
-/
namespace Shorthand

open Text (closerOf isAbbreviationStart isBlank isLineBreak isMarkedStart isWordBound trailingClosers)

/-! ## Around and before a position -/

def Text.lineStartChecked (t : Text) (pos : Nat) : Option Nat :=
  if pos ≤ t.length then some (Text.lineStart t pos) else none

namespace Abbreviation

def enclosingChecked? (t : Text) (pos : Nat) (dialect : String) : Option (Option Context) :=
  if plainDialects.contains dialect then some none else (t.slice? 0 (min pos t.length)).map innermost?

theorem enclosingChecked?_eq (t : Text) (pos : Nat) (dialect : String) :
    enclosingChecked? t pos dialect = some (enclosing? t pos dialect) := by
  unfold enclosingChecked? enclosing?
  split
  · rfl
  · rw [Text.slice?_of_le (Nat.zero_le _) (Nat.min_le_right _ _), Option.map_some]
    unfold Text.slice
    rw [List.drop_zero, ← List.take_eq_take_min]

def lastLeadChecked? (lead before : Text) : Nat → Option (Option Nat)
  | 0 => some none
  | pos + 1 => do
    let c ← before[pos + lead.length]?
    if isBlank c then some none
    else
      let behind ← before.slice? pos before.length
      if lead.isPrefixOf behind then some (some pos) else lastLeadChecked? lead before pos

theorem lastLeadChecked?_eq (lead before : Text) : ∀ {bound : Nat}, bound ≤ before.length - lead.length →
    lastLeadChecked? lead before bound = some (lastLead? lead before bound)
  | 0, _ => rfl
  | pos + 1, h => by
    have hc : before[pos + lead.length]? = some before[pos + lead.length] := List.getElem?_eq_getElem (by omega)
    unfold lastLeadChecked? lastLead?
    rw [hc, Text.slice?_of_le (by omega) (Nat.le_refl _), Text.slice_length, lastLeadChecked?_eq lead before (by omega)]
    simp only [Option.bind_eq_bind, Option.bind_some, Option.any_some]
    split
    · rfl
    · split <;> rfl

/-- Where the run of chars in front of `start` begins that are all in an abbreviation. -/
def runStartChecked (before : Text) : Nat → Option Nat
  | 0 => some 0
  | start + 1 => do
    let c ← before[start]?
    if isOutside c then some (start + 1) else runStartChecked before start

theorem runStartChecked_eq (before : Text) : ∀ {start : Nat}, start ≤ before.length →
    runStartChecked before start = some (start - ((before.take start).reverse.takeWhile fun c => !isOutside c).length)
  | 0, _ => rfl
  | start + 1, h => by
    have hc : before[start]? = some before[start] := List.getElem?_eq_getElem h
    have ht : (before.take (start + 1)).reverse = before[start] :: (before.take start).reverse := by
      rw [List.take_add_one, hc, List.reverse_append]
      rfl
    unfold runStartChecked
    rw [hc, ht, runStartChecked_eq before (by omega), List.takeWhile_cons]
    simp only [Option.bind_eq_bind, Option.bind_some]
    cases isOutside before[start] with
    | true => rfl
    | false => simp

def bareStartChecked (before : Text) : Option Nat := do
  let start ← runStartChecked before before.length
  if start = 0 then some start
  else
    let last ← sub? start 1
    let c ← before[last]?
    let run ← before.slice? start before.length
    if c = '<' && run.contains '>' then some (start + (run.takeWhile (· != '>')).length + 1) else some start

theorem bareStartChecked_eq (before : Text) : bareStartChecked before = some (bareStart before) := by
  have hs := runStartChecked_eq before (Nat.le_refl before.length)
  rw [List.take_length] at hs
  -- the run is what the text ends with from `start` on
  have hsuffix : (before.reverse.takeWhile fun c => !isOutside c).reverse <:+ before := by
    rw [← List.reverse_prefix, List.reverse_reverse]
    exact List.takeWhile_prefix _
  have hrun := List.suffix_iff_eq_drop.1 hsuffix
  rw [List.length_reverse] at hrun
  have hle := hsuffix.length_le
  have hle : before.length - (before.reverse.takeWhile fun c => !isOutside c).length ≤ before.length := Nat.sub_le _ _
  unfold bareStartChecked bareStart
  dsimp only
  rw [hs, List.length_reverse, hrun]
  simp only [Option.bind_eq_bind, Option.bind_some]
  generalize before.length - (before.reverse.takeWhile fun c => !isOutside c).length = start at hle
  split
  · next h => simp [h]
  · next h =>
    have hlast : start - 1 < before.length := by omega
    have hc : before[start - 1]? = some before[start - 1] := List.getElem?_eq_getElem hlast
    have hpos : 0 < start := Nat.pos_of_ne_zero h
    rw [sub?_of_le hpos, Option.bind_some, hc, Option.bind_some, Text.slice?_of_le hle (Nat.le_refl _), Text.slice_length,
      Option.bind_some, decide_eq_true hpos, Bool.true_and]
    simp only [Option.some.injEq]
    split <;> rfl

def locatedAtChecked? (before : Text) (start location : Nat) : Option (Option Located) :=
  if location < before.length then
    (before.slice? location before.length).map fun text => some ⟨text, start, before.length, location⟩
  else some none

theorem locatedAtChecked?_eq (before : Text) (start location : Nat) : locatedAtChecked? before start location =
    some (if location < before.length then some ⟨before.drop location, start, before.length, location⟩ else none) := by
  unfold locatedAtChecked?
  split
  · next h => rw [Text.slice?_of_le (Nat.le_of_lt h) (Nat.le_refl _), Text.slice_length, Option.map_some]
  · rfl

def locateChecked? (line : Text) (pos : Nat) (lead : Option Text) : Option (Option Located) := do
  let before := line.take pos
  match lead with
  | some lead =>
    match ← lastLeadChecked? lead before (before.length - lead.length) with
    | none => some none
    | some start => locatedAtChecked? before start (start + lead.length)
  | none =>
    let start ← bareStartChecked before
    locatedAtChecked? before start start

theorem locateChecked?_eq (line : Text) (pos : Nat) (lead : Option Text) :
    locateChecked? line pos lead = some (locate? line pos lead) := by
  unfold locateChecked? locate?
  cases lead with
  | none =>
    dsimp only
    rw [bareStartChecked_eq, Option.bind_eq_bind, Option.bind_some, locatedAtChecked?_eq]
  | some lead =>
    dsimp only
    rw [lastLeadChecked?_eq lead (line.take pos) (Nat.le_refl _), Option.bind_eq_bind, Option.bind_some]
    cases lastLead? lead (line.take pos) ((line.take pos).length - lead.length) with
    | none => rfl
    | some start => exact locatedAtChecked?_eq (line.take pos) start (start + lead.length)

end Abbreviation

/-! ## Where tracking starts -/

/-- The chars in front of `pos - 1` let an abbreviation start there. -/
def boundedChecked (t : Text) (pos : Nat) : Option Bool :=
  if pos = 1 then some true
  else do
    let before ← sub? pos 2
    let c ← t[before]?
    some (isWordBound c)

/-- Where an abbreviation that the char before `pos` opens begins, and the length of the marker it begins with. -/
def openingChecked? (t : Text) (pos : Nat) : Option Text → Option (Option (Nat × Nat))
  | some lead =>
    if pos < lead.length + 1 then some none
    else do
      let start ← sub? pos (lead.length + 1)
      let window ← t.slice? start pos
      let typed ← window[lead.length]?
      some (if window.take lead.length = lead && isMarkedStart typed then some (start, lead.length) else none)
  | none => do
    let last ← sub? pos 1
    let typed ← t[last]?
    let bounded ← boundedChecked t pos
    some (if bounded && isAbbreviationStart typed then some (last, 0) else none)

/-- Behind the char before `pos`, or behind the closer that follows it if it is an opener. -/
def closedStopChecked (t : Text) (pos : Nat) : Option Nat := do
  let last ← sub? pos 1
  let typed ← t[last]?
  match closerOf typed with
  | none => some pos
  | some close =>
    if pos < t.length then
      let c ← t[pos]?
      some (if c = close then pos + 1 else pos)
    else some pos

def trackingStartChecked? (t : Text) (pos : Nat) (lead : Option Text) : Option (Option TrackingStart) :=
  if pos = 0 || t.length < pos then some none
  else do
    match ← openingChecked? t pos lead with
    | none => some none
    | some (start, offset) =>
      let stop ← closedStopChecked t pos
      some (some ⟨.between start stop, offset⟩)

section

variable {t : Text} {before : Nat} {typed : Char}

theorem closedStopChecked_eq (h : t[before]? = some typed) : closedStopChecked t (before + 1) =
    some (if (closerOf typed).isSome && t[before + 1]? = closerOf typed then before + 2 else before + 1) := by
  unfold closedStopChecked
  rw [sub?_of_le (Nat.le_add_left 1 before), Nat.add_sub_cancel]
  simp only [Option.bind_eq_bind, Option.bind_some, h]
  cases closerOf typed with
  | none => rfl
  | some close =>
    dsimp only
    split
    · next hl =>
      have hc : t[before + 1]? = some t[before + 1] := List.getElem?_eq_getElem hl
      rw [hc, Option.bind_some]
      simp
    · next hl =>
      rw [List.getElem?_eq_none (Nat.le_of_not_lt hl)]
      rfl

theorem openingChecked?_marked (h : t[before]? = some typed) (lead : Text) :
    openingChecked? t (before + 1) (some lead) = some
      (if lead.length ≤ before && t.slice (before - lead.length) before = lead && isMarkedStart typed then
        some (before - lead.length, lead.length) else none) := by
  obtain ⟨hb, -⟩ := List.getElem?_eq_some_iff.1 h
  rw [openingChecked?]
  split
  · next hl =>
    have hn : ¬ lead.length ≤ before := by omega
    simp [hn]
  · next hl =>
    have hle : lead.length ≤ before := by omega
    have hstart : before + 1 - (lead.length + 1) = before - lead.length := by omega
    -- the window is the marker, if it is one, and the char behind it
    have hwindow := Text.slice_concat (Nat.sub_le before lead.length) h
    have hlen : (t.slice (before - lead.length) before).length = lead.length := by
      rw [Text.length_slice]
      omega
    have htyped : (t.slice (before - lead.length) (before + 1))[lead.length]? = some typed := by
      rw [hwindow, List.getElem?_append_right (Nat.le_of_eq hlen), hlen, Nat.sub_self]
      rfl
    have hlead : (t.slice (before - lead.length) (before + 1)).take lead.length =
        t.slice (before - lead.length) before := by
      rw [hwindow, List.take_left' hlen]
    rw [sub?_of_le (by omega), hstart]
    simp only [Option.bind_eq_bind, Option.bind_some]
    rw [Text.slice?_of_le (by omega) hb, Option.bind_some, htyped, Option.bind_some, hlead, decide_eq_true hle,
      Bool.true_and]

theorem openingChecked?_bare (h : t[before]? = some typed) :
    openingChecked? t (before + 1) none = some
      (if (before = 0 || t[before - 1]?.any isWordBound) && isAbbreviationStart typed then some (before, 0)
       else none) := by
  have hbound : boundedChecked t (before + 1) = some (before = 0 || t[before - 1]?.any isWordBound) := by
    obtain ⟨hb, -⟩ := List.getElem?_eq_some_iff.1 h
    unfold boundedChecked
    cases before with
    | zero => rfl
    | succ n =>
      have hc : t[n]? = some t[n] := List.getElem?_eq_getElem (by omega)
      rw [if_neg (by omega), sub?_of_le (by omega)]
      simp [hc]
  unfold openingChecked?
  rw [sub?_of_le (Nat.le_add_left 1 before), Nat.add_sub_cancel]
  simp only [Option.bind_eq_bind, Option.bind_some, h, hbound]

end

theorem trackingStartChecked?_eq (t : Text) (pos : Nat) (lead : Option Text) :
    trackingStartChecked? t pos lead = some (trackingStart? t pos lead) := by
  unfold trackingStartChecked? trackingStart?
  cases pos with
  | zero => rfl
  | succ before =>
    cases h : t[before]? with
    | none =>
      have hl : t.length < before + 1 := Nat.lt_succ_of_le (List.getElem?_eq_none_iff.1 h)
      simp [hl, h]
    | some typed =>
      obtain ⟨hb, -⟩ := List.getElem?_eq_some_iff.1 h
      have hin : (before + 1 = 0 || t.length < before + 1) = false := by simp; omega
      have hstop : before ≤ if (closerOf typed).isSome && t[before + 1]? = closerOf typed then before + 2
          else before + 1 := by
        split <;> omega
      rw [hin]
      simp only [Bool.false_eq_true, if_false, closedStopChecked_eq h, Option.bind_eq_bind, h]
      generalize (if (closerOf typed).isSome && t[before + 1]? = closerOf typed then before + 2 else before + 1) = stop
        at hstop
      cases lead with
      | some lead =>
        dsimp only
        rw [openingChecked?_marked h, ← Span.between_of_le (Nat.le_trans (Nat.sub_le before lead.length) hstop)]
        generalize (_ && isMarkedStart typed) = opens
        cases opens <;> rfl
      | none =>
        dsimp only
        rw [openingChecked?_bare h, ← Span.between_of_le hstop]
        generalize (_ && isAbbreviationStart typed) = opens
        cases opens <;> rfl

/-! ## Trackers -/

namespace Tracker

def followChecked (t : Tracker) (p : Patch) : Option Tracker :=
  (p.mapSpanChecked t.region).map fun region => { t with region }

theorem followChecked_eq {t : Tracker} (h : t.region.start ≤ t.region.stop) (p : Patch) :
    t.followChecked p = some (t.follow p) := by
  unfold followChecked
  rw [p.mapSpanChecked_eq h]
  rfl

def rereadChecked (read : Reader) (t : Tracker) (text : Text) : Option Tracker :=
  let span := t.abbreviationSpan.clamp text.length
  (text.slice? span.start span.stop).map fun abbreviation => { t with reading := .of read abbreviation }

theorem abbreviationSpan_ordered (t : Tracker) : t.abbreviationSpan.start ≤ t.abbreviationSpan.stop :=
  Span.between_ordered _ _

/-- **A tracker can always read its region**, wherever that is. -/
theorem rereadChecked_eq (read : Reader) (t : Tracker) (text : Text) :
    t.rereadChecked read text = some (t.reread read text) := by
  obtain ⟨h, h'⟩ := Span.clamp_within t.abbreviationSpan_ordered text.length
  unfold rereadChecked
  dsimp only
  rw [Text.slice?_of_le h h']
  rfl

theorem length_reading_reread (read : Reader) (t : Tracker) (text : Text) :
    (t.reread read text).reading.text.length ≤ t.region.stop := by
  unfold reread
  dsimp only
  rw [Reading.text_of]
  unfold Span.textIn
  rw [Text.length_slice]
  simp only [Span.clamp, abbreviationSpan, Span.between]
  omega

def stopReasonChecked? (t : Tracker) (pos : Nat) : Option (Option StopReason) :=
  if t.forced then some none
  else
    match t.reading with
    | .empty => some (some .empty)
    | .valid text _ => some (if text.any isLineBreak then some .lineBreak else none)
    | .invalid text _ =>
      if text.any isLineBreak then some (some .lineBreak)
      else if t.region.stop = pos then some (some .invalidEnd)
      else
        (sub? t.region.stop (trailingClosers text)).map fun start =>
          if start = pos then some .invalidBeforeClosers else none

theorem stopReasonChecked?_eq {t : Tracker} (h : t.reading.text.length ≤ t.region.stop) (pos : Nat) :
    t.stopReasonChecked? pos = some (t.stopReason? pos) := by
  unfold stopReasonChecked? stopReason?
  split
  · rfl
  · cases hr : t.reading with
    | empty => rfl
    | valid text nodes => rfl
    | invalid text error =>
      rw [hr] at h
      have hc : trailingClosers text ≤ t.region.stop := Nat.le_trans (Text.trailingClosers_le text) h
      dsimp only
      rw [sub?_of_le hc]
      split
      · rfl
      · split <;> rfl

end Tracker

namespace Registry

def editedChecked (read : Reader) (r : Registry) (id : DocId) (p : Patch) (text : Text) : Option Registry :=
  match r.get? id with
  | none => some r
  | some t =>
    (t.followChecked p).bind fun t =>
      if t.region.isEmpty && !t.forced then some (r.erase id) else (t.rereadChecked read text).map (r.insert id)

theorem editedChecked_eq (read : Reader) {r : Registry} {id : DocId}
    (h : ∀ t, r.get? id = some t → t.region.start ≤ t.region.stop) (p : Patch) (text : Text) :
    r.editedChecked read id p text = some (r.edited read id p text) := by
  unfold editedChecked edited
  cases ht : r.get? id with
  | none => rfl
  | some t =>
    dsimp only
    rw [Tracker.followChecked_eq (h t ht), Option.bind_some, Tracker.rereadChecked_eq]
    split <;> rfl

def movedChecked (read : Reader) (r : Registry) (id : DocId) (region : Span) (text : Text) : Option Registry :=
  match r.get? id with
  | none => some r
  | some t => (Tracker.rereadChecked read { t with region := region.clamp text.length } text).map (r.insert id)

theorem movedChecked_eq (read : Reader) (r : Registry) (id : DocId) (region : Span) (text : Text) :
    r.movedChecked read id region text = some (r.moved read id region text) := by
  unfold movedChecked moved
  cases r.get? id with
  | none => rfl
  | some t =>
    dsimp only
    rw [Tracker.rereadChecked_eq]
    rfl

end Registry
end Shorthand
