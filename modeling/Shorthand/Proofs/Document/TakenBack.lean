import Shorthand.Proofs.Document.Balanced
/-!
# Taking a char back

Taking back right after typing a char undoes just that (`backspace?_takes_back`).  Typing decides by the char behind
the caret whether a closer comes along, taking back by the chars around the caret whether a closer goes too: the closer
that has come along stands behind the caret then, and what stands there if none has come along is never taken for one
(`takenCloser_eq`).  The two patches put a piece in and take it out again, which no span notices.
-/
namespace Shorthand.Document

open Text (closerOf isCloser isAlphanumeric)

variable {d d' : Document} {p : Patch} {before behind : Text} {c : Char}

/-- The closer that is taken back along with `c` in front of `behind`. -/
def takenCloser (d : Document) (c : Char) (behind : Text) : Text :=
  if d.autoPairs then (closerOf c).toList.filter fun close => behind.head? = some close else []

/-- The char before the caret and the closer behind it make a pair. -/
theorem Parted.isPairAround_eq (h : d.Parted (before ++ [c]) behind) :
    d.isPairAround (before.length + 1) = (closerOf c).any fun close => behind.head? = some close := by
  have hprev : d.text[before.length]? = some c := by
    rw [h.text, List.append_assoc, List.getElem?_append_right (Nat.le_refl _), Nat.sub_self]
    rfl
  have hnext : d.text[before.length + 1]? = behind.head? := by
    have hspan := h.next_eq
    rw [h.span_eq, List.length_append] at hspan
    exact hspan
  unfold isPairAround
  rw [Nat.add_sub_cancel, hprev, hnext, Option.bind_some]
  cases closerOf c <;> rfl

/-- The closer taken back stands behind the caret. -/
theorem length_takenCloser_le (d : Document) (c : Char) (behind : Text) :
    (d.takenCloser c behind).length ≤ behind.length := by
  unfold takenCloser
  cases behind with
  | nil => simp
  | cons next behind =>
    have hone : (closerOf c).toList.length ≤ 1 := by cases closerOf c <;> simp
    have hfilter := List.length_filter_le (fun close => (next :: behind).head? = some close) (closerOf c).toList
    rw [List.length_cons]
    split
    · omega
    · exact Nat.zero_le _

theorem Parted.takenStop_eq (h : d.Parted (before ++ [c]) behind) :
    (if d.autoPairs && d.isPairAround (before.length + 1) then before.length + 1 + 1 else before.length + 1) =
      before.length + (c :: d.takenCloser c behind).length := by
  unfold takenCloser
  rw [h.isPairAround_eq]
  cases d.autoPairs with
  | false => rfl
  | true =>
    cases closerOf c with
    | none => rfl
    | some close => by_cases hnext : behind.head? = some close <;> simp [hnext]

theorem Parted.backspace?_eq (h : d.Parted (before ++ [c]) behind) : d.backspace? =
    d.replace? ⟨before.length, before.length + (c :: d.takenCloser c behind).length, []⟩ before.length := by
  have hspan : d.selection.span = .point (before.length + 1) := by
    rw [h.span_eq, List.length_append]
    rfl
  have hempty : (!(Span.point (before.length + 1)).isEmpty) = false :=
    congrArg not (decide_eq_true (Nat.le_refl (before.length + 1)))
  rw [← h.takenStop_eq]
  unfold backspace?
  dsimp only
  rw [hspan, hempty, if_neg Bool.false_ne_true]
  exact if_neg (Nat.succ_ne_zero before.length)

/-- **Taking back the char before the caret**, and the closer that makes a pair with it. -/
theorem Parted.backspace? (h : d.Parted (before ++ [c]) behind) :
    ∃ d' p, d.backspace? = .ok (d', p) ∧ d.Takes p d' ∧ p.length = d.length ∧
      p.replacements = [⟨before.length, before.length + (c :: d.takenCloser c behind).length, []⟩] ∧
      d'.Parted before (behind.drop (d.takenCloser c behind).length) := by
  have hb := h.backspace?_eq
  have htaken := length_takenCloser_le d c behind
  have hlength : d.length = before.length + 1 + behind.length := by
    unfold length
    rw [h.text]
    simp only [List.length_append, List.length_cons, List.length_nil]
  generalize d.takenCloser c behind = taken at hb htaken
  have hle : before.length + (c :: taken).length ≤ d.length := by
    rw [hlength, List.length_cons]
    omega
  have he : (⟨before.length, before.length + (c :: taken).length, []⟩ : Replacement).Effective := .inl (by simp)
  obtain ⟨d', p, hd, -, hx, hsel⟩ := replace?_ok (r := ⟨before.length, before.length + (c :: taken).length, []⟩)
    h.readonly (Nat.le_add_right _ _) hle before.length
  obtain ⟨htakes, hlen⟩ := takes_of_replace? hd
  refine ⟨d', p, hb.trans hd, htakes, hlen, replacements_of_replace? he hd,
    ⟨?_, hsel, htakes.readonly_eq.trans h.readonly⟩⟩
  have hbehind : (before ++ ([c] ++ behind)).drop (before.length + (taken.length + 1)) = behind.drop taken.length := by
    rw [← List.drop_drop, List.drop_left, Nat.add_comm, ← List.drop_drop]
    rfl
  rw [hx, h.text, List.append_assoc]
  unfold Text.splice
  rw [List.take_left, List.length_cons, hbehind, List.nil_append]

/-! ## Typing and taking back -/

/-- Where typing a char has put something in, the caret has been between two texts. -/
theorem parted_of_type? (hs : d.selection.isEmpty = true) (ht : d.type? c = .ok (d', p)) (hn : p.isEmpty = false) :
    ∃ before behind, d.Parted before behind ∧ d.stepsOver c = false := by
  have hw : d.readonly = false := (takes_of_type? ht).1.writable hn
  unfold type? at ht
  dsimp only at ht
  split at ht
  · cases ht
    cases hn
  next hover =>
  have hpos : d.selection.span.stop ≤ d.length := (within_of_replace? ht).2
  have hhead : d.selection.head ≤ d.selection.span.stop := Nat.le_max_right _ _
  exact ⟨_, _, .of_point hw (Selection.eq_point hs) (Nat.le_trans hhead hpos), Bool.eq_false_iff.2 hover⟩

/-- **The closer that is taken back is the one that has come along.** -/
theorem Parted.takenCloser_eq (h : d.Parted before behind) (ha : d'.autoPairs = d.autoPairs) :
    d'.takenCloser c (d.broughtCloser c ++ behind) = d.broughtCloser c := by
  unfold takenCloser
  rw [ha, h.broughtCloser_eq]
  cases d.autoPairs with
  | false => rfl
  | true =>
    cases ho : closerOf c with
    | none => simp
    | some close =>
      obtain ⟨-, -, hcloses⟩ := Text.closer_of_closerOf ho
      cases hnext : behind.head?.any isAlphanumeric with
      | false => simp
      | true =>
        -- what stands there is a letter or digit, and so no closer
        have hother : behind.head? ≠ some close := by
          intro he
          rw [he, Option.any_some, Text.isAlphanumeric_of_isCloser hcloses] at hnext
          cases hnext
        simp [hother]

/-- **Taking back undoes what has just been typed.**  If typing a char with nothing selected has changed the text, taking
back succeeds and brings back the text, the caret and every marker; the two patches made one after the other cancel
out. -/
theorem backspace?_takes_back (hs : d.selection.isEmpty = true) (ht : d.type? c = .ok (d', p))
    (hn : p.isEmpty = false) :
    ∃ d'' q, d'.backspace? = .ok (d'', q) ∧ d''.text = d.text ∧ d''.selection = d.selection ∧
      d''.markers = d.markers ∧ p.result? d.text = .ok d'.text ∧ q.result? d'.text = .ok d.text := by
  obtain ⟨before, behind, hd, hover⟩ := parted_of_type? hs ht hn
  obtain ⟨d₁, p₁, ht', htakes, hlen, hput, hd'⟩ := hd.type?_in hover
  cases ht.symm.trans ht'
  have htaken := hd.takenCloser_eq (c := c) htakes.autoPairs_eq
  obtain ⟨d'', q, hb, htakes', hlen', hout, hd''⟩ := hd'.backspace?
  rw [htaken] at hout hd''
  rw [List.drop_left] at hd''
  have htext : d''.text = d.text := hd''.text.trans hd.text.symm
  have hmarkers : d''.markers = d.markers := by
    rw [htakes'.markers_eq, htakes.markers_eq, Keyed.mapValues_mapValues]
    simp only [Patch.mapSpan_takenOut hput hout]
    exact d.markers.mapValues_id
  refine ⟨d'', q, hb, htext, hd''.selection.trans hd.selection.symm, hmarkers, htakes.result?_eq hlen, ?_⟩
  rw [← htext]
  exact htakes'.result?_eq hlen'

/-- A bracket in front of the same closer, with a marker on each side of the caret and one around it: the closer that has
come along goes, the other one stays. -/
theorem backspace?_takes_back_bracket :
    let d := ((({ id := 1, text := "a)b".toList, selection := .point 1 } : Document).setMarker "in front" ⟨0, 1⟩).setMarker
      "around" ⟨0, 3⟩).setMarker "behind" ⟨2, 3⟩
    d.selection.isEmpty = true ∧ ∃ d' p, d.type? '(' = .ok (d', p) ∧ p.isEmpty = false ∧ d'.text = "a())b".toList ∧
      d'.marker? "in front" = some ⟨0, 3⟩ ∧ d'.marker? "behind" = some ⟨4, 5⟩ ∧
      ∃ d'' q, d'.backspace? = .ok (d'', q) ∧ d''.text = "a)b".toList ∧ d''.markers = d.markers ∧
        q.result? d'.text = .ok "a)b".toList := by
  intro d
  have hd : d.Parted ['a'] [')', 'b'] := ⟨rfl, rfl, rfl⟩
  have hover : d.stepsOver '(' = false := by decide
  obtain ⟨d', p, ht, htakes, -, hr, hd'⟩ := hd.type?_in hover
  have hbrought : d.broughtCloser '(' = [')'] := by decide
  rw [hbrought] at hr hd'
  have hn : p.isEmpty = false := by
    unfold Patch.isEmpty
    rw [hr]
    rfl
  have hfront : p.mapSpan ⟨0, 1⟩ = ⟨0, 3⟩ := by
    unfold Patch.mapSpan
    rw [hr]
    decide
  have hbehind : p.mapSpan ⟨2, 3⟩ = ⟨4, 5⟩ := by
    unfold Patch.mapSpan
    rw [hr]
    decide
  obtain ⟨d'', q, hb, hx, -, hm, -, hq⟩ := backspace?_takes_back (d := d) rfl ht hn
  exact ⟨rfl, d', p, ht, hn, hd'.text, (htakes.marker?_eq _).trans (congrArg some hfront),
    (htakes.marker?_eq _).trans (congrArg some hbehind), d'', q, hb, hx, hm, hq⟩

end Shorthand.Document
