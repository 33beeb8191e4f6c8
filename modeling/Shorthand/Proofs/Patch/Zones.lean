import Shorthand.Proofs.Patch.Traced
/-!
# What a span covers after a patch

A replacement touches a span if it ends no earlier than the span starts and starts no later than the span reaches, with
the touching replacements in front of it taken in.  So every char of the text after a patch has one of three zones
(`Zone`): in front of the span are the chars kept from there and what the replacements put in that end before it, behind
the span what is kept from there and what the others put in that do not touch it, and all else is within.

The span is followed in three phases: replacements that end before it (`zones_unreached`), those that may touch it
(`zones_reached`), and from the first that starts too late all that come behind it (`zones_behind`).  Together they say
that the followed span covers just the chars within (`mapSpan_content`).
-/
namespace Shorthand.Patch

open Replacement (Fits)

/-- Where a char of the text after a patch belongs, seen from a span. -/
inductive Zone where
  | front
  | within
  | behind
  deriving DecidableEq, Repr

variable {t : Text} {s m : Span} {last reach : Nat} {shift : Int} {r : Replacement} {rs : List Replacement}

/-- The replacements with the zones of what they put in.  `reach` is how far the span and those that have touched it
reach. -/
def zoned (s : Span) : Nat → List Replacement → List (Replacement × Zone)
  | _, [] => []
  | reach, r :: rs =>
    if r.stop < s.start then (r, .front) :: zoned s reach rs
    else if r.start ≤ reach then (r, .within) :: zoned s (max reach r.stop) rs
    else (r, .behind) :: zoned s reach rs

/-- A char that is kept belongs where it has been, and one put in where its replacement does. -/
def Origin.zone (s : Span) : Origin Zone → Zone
  | .kept offset => if offset < s.start then .front else if offset < s.stop then .within else .behind
  | .put z => z

/-- The chars of a zone, in order. -/
def charsIn (s : Span) (z : Zone) (chars : List (Origin Zone × Char)) : Text :=
  (chars.filter fun x => x.1.zone s = z).map Prod.snd

theorem map_fst_zoned (s : Span) : ∀ (reach : Nat) (rs : List Replacement), (zoned s reach rs).map Prod.fst = rs
  | _, [] => rfl
  | reach, r :: rs => by
    unfold zoned
    split
    · rw [List.map_cons, map_fst_zoned s reach rs]
    · split
      · rw [List.map_cons, map_fst_zoned s (max reach r.stop) rs]
      · rw [List.map_cons, map_fst_zoned s reach rs]

theorem zoned_of_front (h : r.stop < s.start) : zoned s reach (r :: rs) = (r, .front) :: zoned s reach rs := by
  rw [zoned, if_pos h]

theorem zoned_of_within (h : s.start ≤ r.stop) (h' : r.start ≤ reach) :
    zoned s reach (r :: rs) = (r, .within) :: zoned s (max reach r.stop) rs := by
  rw [zoned, if_neg (Nat.not_lt.2 h), if_pos h']

theorem zoned_of_behind (h : s.start ≤ r.stop) (h' : reach < r.start) :
    zoned s reach (r :: rs) = (r, .behind) :: zoned s reach rs := by
  rw [zoned, if_neg (Nat.not_lt.2 h), if_neg (Nat.not_le.2 h')]

/-! ## Chars of one zone -/

/-- All of `chars` belong to the zone `z`. -/
def InZone (s : Span) (z : Zone) (chars : List (Origin Zone × Char)) : Prop := ∀ x ∈ chars, x.1.zone s = z

theorem InZone.append {z : Zone} {a b : List (Origin Zone × Char)} (ha : InZone s z a) (hb : InZone s z b) :
    InZone s z (a ++ b) := List.forall_mem_append.2 ⟨ha, hb⟩

theorem inZone_put (s : Span) (z : Zone) (piece : Text) : InZone s z (piece.map (Prod.mk (.put z))) := by
  intro x hx
  obtain ⟨c, -, rfl⟩ := List.mem_map.1 hx
  rfl

theorem inZone_front {start stop : Nat} (h : stop ≤ s.start) : InZone s .front (stretch t start stop) := by
  intro x hx
  obtain ⟨i, hi, -, hlt⟩ := exists_of_mem_stretch hx
  rw [hi, Origin.zone, if_pos (by omega)]

/-- What is kept between two touching replacements has been in the span. -/
theorem inZone_within {stop : Nat} (h : s.start ≤ last) (h' : stop ≤ max s.stop last) :
    InZone s .within (stretch t last stop) := by
  intro x hx
  obtain ⟨i, hi, hle, hlt⟩ := exists_of_mem_stretch hx
  rw [hi, Origin.zone, if_neg (by omega), if_pos (by omega)]

theorem inZone_behind {start stop : Nat} (h : s.start ≤ start) (h' : s.stop ≤ start) :
    InZone s .behind (stretch t start stop) := by
  intro x hx
  obtain ⟨i, hi, hle, -⟩ := exists_of_mem_stretch hx
  rw [hi, Origin.zone, if_neg (by omega), if_neg (by omega)]

theorem charsIn_append (s : Span) (z : Zone) (a b : List (Origin Zone × Char)) :
    charsIn s z (a ++ b) = charsIn s z a ++ charsIn s z b := by
  unfold charsIn
  rw [List.filter_append, List.map_append]

theorem charsIn_self {z : Zone} {chars : List (Origin Zone × Char)} (h : InZone s z chars) :
    charsIn s z chars = chars.map Prod.snd := by
  unfold charsIn
  rw [List.filter_eq_self.2 fun x hx => decide_eq_true (h x hx)]

theorem charsIn_other {z z' : Zone} {chars : List (Origin Zone × Char)} (h : InZone s z chars) (hz : z ≠ z') :
    charsIn s z' chars = [] := by
  unfold charsIn
  rw [List.filter_eq_nil_iff.2 fun x hx => by simpa [h x hx] using hz]
  rfl

/-- Of three parts that belong to one zone each, the chars of a zone are those of its part. -/
theorem charsIn_parts {f w b : List (Origin Zone × Char)} (hf : InZone s .front f) (hw : InZone s .within w)
    (hb : InZone s .behind b) :
    charsIn s .front (f ++ (w ++ b)) = f.map Prod.snd ∧ charsIn s .within (f ++ (w ++ b)) = w.map Prod.snd ∧
      charsIn s .behind (f ++ (w ++ b)) = b.map Prod.snd := by
  simp only [charsIn_append]
  refine ⟨?_, ?_, ?_⟩
  · rw [charsIn_self hf, charsIn_other hw (by decide), charsIn_other hb (by decide), List.append_nil, List.append_nil]
  · rw [charsIn_other hf (by decide), charsIn_self hw, charsIn_other hb (by decide), List.append_nil, List.nil_append]
  · rw [charsIn_other hf (by decide), charsIn_other hw (by decide), charsIn_self hb, List.nil_append, List.nil_append]

/-! ## Replacements without effect -/

/-- A replacement without effect leaves a span as it is. -/
theorem followSpan_cons_of_not_effective (h : 0 ≤ r.start + shift) (he : ¬ r.Effective) (m : Span) :
    followSpan (r :: rs) shift m = followSpan rs shift m := by
  obtain ⟨hs, hi⟩ := not_or.1 he
  have hs : r.start = r.stop := Decidable.not_not.1 hs
  have hremoved : r.removed = 0 := by unfold Replacement.removed; omega
  have hinserted : r.inserted.length = 0 := by rw [Decidable.not_not.1 hi]; rfl
  rw [followSpan_cons h (Nat.le_of_eq hs), hremoved, hinserted]
  congr 1
  · omega
  split
  · rfl
  split
  · have hmin : min m.start (moved r.start shift) = m.start := by unfold moved; omega
    have hmax : max m.stop (moved r.stop shift) = m.stop := by unfold moved; omega
    rw [hmin, hmax]
    rfl
  · rfl

theorem followSpan_filter : ∀ {last : Nat} {rs : List Replacement} {shift : Int} {m : Span}, Fits t.length last rs →
    0 ≤ last + shift → followSpan (rs.filter fun r => r.Effective) shift m = followSpan rs shift m
  | _, [], _, _, _, _ => rfl
  | last, r :: rs, shift, m, ⟨h₁, h₂, h₃, h₄⟩, hl => by
    have removed_eq : r.removed = r.stop - r.start := rfl
    by_cases he : r.Effective
    · rw [List.filter_cons_of_pos (by simpa using he), followSpan_cons (by omega) h₂, followSpan_cons (by omega) h₂,
        followSpan_filter h₄ (by omega)]
    · rw [List.filter_cons_of_neg (by simpa using he), followSpan_cons_of_not_effective (by omega) he,
        followSpan_filter h₄ (by omega)]

/-! ## The three phases -/

/-- Once a replacement starts behind the span, it and all that follow leave the span alone. -/
theorem zones_behind : ∀ {last : Nat} {rs : List Replacement} (shift : Int), Fits t.length last rs →
    0 ≤ last + shift → s.start ≤ s.stop → s.stop ≤ reach → reach < last → m.start ≤ m.stop → m.stop < last + shift →
    followSpan rs shift m = m ∧ InZone s .behind (traced t last (zoned s reach rs))
  | last, [], _, _, _, hs, hsr, hreach, _, _ => ⟨rfl, inZone_behind (by omega) (by omega)⟩
  | last, r :: rs, shift, ⟨h₁, h₂, h₃, h₄⟩, hl, hs, hsr, hreach, hm, hml => by
    have removed_eq : r.removed = r.stop - r.start := rfl
    have ih := zones_behind (shift + r.inserted.length - r.removed) h₄ (by omega) hs hsr (by omega) hm (by omega)
    rw [followSpan_cons (by omega) h₂, if_neg (by omega), if_neg (by omega), zoned_of_behind (by omega) (by omega)]
    exact ⟨ih.1, (inZone_behind (by omega) (by omega)).append ((inZone_put s _ _).append ih.2)⟩

/-- The replacements from an offset in the span on, or from behind one that touches it.  The span goes on as far as what
they put in and what is kept of it reaches. -/
theorem zones_reached : ∀ {last : Nat} {rs : List Replacement} (shift : Int) (m : Span), Fits t.length last rs →
    0 ≤ last + shift → s.Within t.length → s.start ≤ last → last ≤ t.length → m.start ≤ last + shift →
    m.stop = max s.stop last + shift →
    ∃ w b, traced t last (zoned s (max s.stop last) rs) = w ++ b ∧ InZone s .within w ∧ InZone s .behind b ∧
      (followSpan rs shift m).start = m.start ∧ ((followSpan rs shift m).stop : Int) = last + shift + w.length
  | last, [], shift, m, _, hl, ⟨hs, hst⟩, hsl, hlast, hm, hstop => by
    refine ⟨stretch t last (max s.stop last), stretch t (max s.stop last) t.length, ?_,
      inZone_within hsl (Nat.le_refl _), inZone_behind (by omega) (by omega), rfl, ?_⟩
    · exact (stretch_append (by omega) (by omega) (by omega)).symm
    · rw [length_stretch (by omega)]
      unfold followSpan
      omega
  | last, r :: rs, shift, m, ⟨h₁, h₂, h₃, h₄⟩, hl, ⟨hs, hst⟩, hsl, hlast, hm, hstop => by
    have removed_eq : r.removed = r.stop - r.start := rfl
    by_cases htouches : r.start ≤ max s.stop last
    · -- the span takes the replacement in
      have hreach : max (max s.stop last) r.stop = max s.stop r.stop := by omega
      have hmin : min m.start (moved r.start shift) = m.start := by unfold moved; omega
      have hmax : (max m.stop (moved r.stop shift) : Int) = max s.stop r.stop + shift := by unfold moved; omega
      rw [followSpan_cons (by omega) h₂, if_neg (by omega), if_pos (by omega), zoned_of_within (by omega) htouches,
        hreach, hmin]
      obtain ⟨w, b, htraced, hw, hb, hstart, hend⟩ := zones_reached
        (shift + r.inserted.length - r.removed)
        ⟨m.start, max m.stop (moved r.stop shift) + r.inserted.length - r.removed⟩
        h₄ (by omega) ⟨hs, hst⟩ (by omega) h₃ (by dsimp only; omega) (by dsimp only; omega)
      refine ⟨stretch t last r.start ++ (r.inserted.map (Prod.mk (.put .within)) ++ w), b, ?_,
        (inZone_within hsl htouches).append ((inZone_put s _ _).append hw), hb, hstart, ?_⟩
      · rw [traced, htraced]
        simp only [List.append_assoc]
      · rw [hend, List.length_append, List.length_append, length_stretch (by omega), List.length_map]
        omega
    · -- the replacement starts behind all that the span reaches
      obtain ⟨hfollow, hrest⟩ := zones_behind (s := s) (m := m) (shift + r.inserted.length - r.removed) h₄
        (by omega) hs (Nat.le_max_left s.stop last) (by omega) (by omega) (by omega)
      have hsplit := stretch_append (κ := Zone) (t := t) (a := last) (b := max s.stop last) (c := r.start)
        (by omega) (by omega) (by omega)
      rw [followSpan_cons (by omega) h₂, if_neg (by omega), if_neg (by omega),
        zoned_of_behind (by omega) (Nat.not_le.1 htouches), hfollow]
      refine ⟨stretch t last (max s.stop last), stretch t (max s.stop last) r.start ++
        (r.inserted.map (Prod.mk (.put .behind)) ++ traced t r.stop (zoned s (max s.stop last) rs)), ?_,
        inZone_within hsl (Nat.le_refl _),
        (inZone_behind (by omega) (by omega)).append ((inZone_put s _ _).append hrest), rfl, ?_⟩
      · rw [traced, ← hsplit, List.append_assoc]
      · rw [length_stretch (by omega)]
        omega

/-- The replacements in front of a span, which move it, up to the first that touches it or is behind it. -/
theorem zones_unreached : ∀ {last : Nat} {rs : List Replacement} (shift : Int) (m : Span), Fits t.length last rs →
    0 ≤ last + shift → s.Within t.length → last ≤ s.start → m.start = s.start + shift → m.stop = s.stop + shift →
    ∃ f w b, traced t last (zoned s s.stop rs) = f ++ (w ++ b) ∧ InZone s .front f ∧ InZone s .within w ∧
      InZone s .behind b ∧ ((followSpan rs shift m).start : Int) = last + shift + f.length ∧
      ((followSpan rs shift m).stop : Int) = last + shift + f.length + w.length
  | last, rs, shift, m, hf, hl, ⟨hs, hst⟩, hlast, hstart, hstop => by
    by_cases hreached : Fits t.length s.start rs
    · -- nothing is replaced in front of the span
      have hreach : max s.stop s.start = s.stop := Nat.max_eq_left hs
      obtain ⟨w, b, htraced, hw, hb, hstart', hstop'⟩ := zones_reached shift m hreached (by omega)
        ⟨hs, hst⟩ (Nat.le_refl _) (by omega) (by omega) (by omega)
      rw [hreach] at htraced
      refine ⟨stretch t last s.start, w, b, ?_, inZone_front (Nat.le_refl _), hw, hb, ?_, ?_⟩
      · rw [← htraced, stretch_append_traced hlast (by omega) (by rwa [map_fst_zoned])]
      · rw [hstart', length_stretch (by omega)]
        omega
      · rw [hstop', length_stretch (by omega)]
        omega
    cases rs with
    | nil => exact absurd trivial hreached
    | cons r rs =>
      obtain ⟨h₁, h₂, h₃, h₄⟩ := hf
      have removed_eq : r.removed = r.stop - r.start := rfl
      have hlt : r.start < s.start := by
        by_contra hle
        exact hreached ⟨Nat.not_lt.1 hle, h₂, h₃, h₄⟩
      have hlength : (stretch t last r.start : List (Origin Zone × Char)).length = r.start - last :=
        length_stretch (by omega) last
      by_cases hends : r.stop < s.start
      · -- the replacement ends in front of the span
        rw [followSpan_cons (by omega) h₂, if_pos (by omega), zoned_of_front hends]
        obtain ⟨f, w, b, htraced, hf, hw, hb, hstart', hstop'⟩ := zones_unreached
          (shift + r.inserted.length - r.removed)
          ⟨m.start + r.inserted.length - r.removed, m.stop + r.inserted.length - r.removed⟩
          h₄ (by omega) ⟨hs, hst⟩ (by omega) (by dsimp only; omega) (by dsimp only; omega)
        refine ⟨stretch t last r.start ++ (r.inserted.map (Prod.mk (.put .front)) ++ f), w, b, ?_,
          (inZone_front (by omega)).append ((inZone_put s _ _).append hf), hw, hb, ?_, ?_⟩
        · rw [traced, htraced]
          simp only [List.append_assoc]
        · rw [hstart', List.length_append, List.length_append, hlength, List.length_map]
          omega
        · rw [hstop', List.length_append, List.length_append, hlength, List.length_map]
          omega
      · -- the replacement takes the start of the span away
        have hmin : min m.start (moved r.start shift) = moved r.start shift := by unfold moved; omega
        have hmoved : (moved r.start shift : Int) = r.start + shift := Int.toNat_of_nonneg (by omega)
        have hmax : (max m.stop (moved r.stop shift) : Int) = max s.stop r.stop + shift := by unfold moved; omega
        rw [followSpan_cons (by omega) h₂, if_neg (by omega), if_pos (by omega), zoned_of_within (by omega) (by omega),
          hmin]
        obtain ⟨w, b, htraced, hw, hb, hstart', hstop'⟩ := zones_reached
          (shift + r.inserted.length - r.removed)
          ⟨moved r.start shift, max m.stop (moved r.stop shift) + r.inserted.length - r.removed⟩
          h₄ (by omega) ⟨hs, hst⟩ (by omega) h₃ (by dsimp only; omega) (by dsimp only; omega)
        refine ⟨stretch t last r.start, r.inserted.map (Prod.mk (.put .within)) ++ w, b, ?_, inZone_front (by omega),
          (inZone_put s _ _).append hw, hb, ?_, ?_⟩
        · rw [traced, htraced]
          simp only [List.append_assoc]
        · rw [hstart', hlength]
          dsimp only
          omega
        · rw [hstop', hlength, List.length_append, List.length_map]
          omega

/-! ## What a span covers -/

/-- The ends of the replacements in the text as it has become when their turn comes, as integers. -/
def movedEnds : Int → List Replacement → List Int
  | _, [] => []
  | shift, r :: rs =>
    (r.start + shift) :: (r.stop + shift) :: movedEnds (shift + r.inserted.length - r.removed) rs

/-- How many chars the replacements put in. -/
def putLength : List Replacement → Nat
  | [] => 0
  | r :: rs => r.inserted.length + putLength rs

/-- **No end is moved in front of the text**, nor further behind it than by all that is put in. -/
theorem movedEnds_bounded : ∀ {last : Nat} {rs : List Replacement} {shift : Int}, Fits t.length last rs →
    0 ≤ last + shift → ∀ e ∈ movedEnds shift rs,
      0 ≤ e ∧ e ≤ t.length + shift + putLength rs
  | _, [], _, _, _, _, he => absurd he List.not_mem_nil
  | last, r :: rs, shift, ⟨h₁, h₂, h₃, h₄⟩, hl, e, he => by
    have removed_eq : r.removed = r.stop - r.start := rfl
    rw [putLength]
    cases he with
    | head => omega
    | tail _ he =>
      cases he with
      | head => omega
      | tail _ he =>
        have ih := movedEnds_bounded h₄ (by omega) e he
        omega

theorem putLength_filter : ∀ rs : List Replacement, putLength (rs.filter fun r => r.Effective) = putLength rs
  | [] => rfl
  | r :: rs => by
    have ih := putLength_filter rs
    by_cases he : r.Effective
    · rw [List.filter_cons_of_pos (by simpa using he), putLength, putLength, ih]
    · have hi : r.inserted = [] := Decidable.not_not.1 (not_or.1 he).2
      rw [List.filter_cons_of_neg (by simpa using he), ih, putLength, hi, List.length_nil, Nat.zero_add]

/-- **A span covers what is left of it and what touches it.**  The text after a patch consists of what belongs in front
of the span, what belongs within and what belongs behind, and the followed span is where the chars within are.  It has
been followed without a difference below zero, and no offset on the way has been further behind the text than by what is
put in. -/
theorem mapSpan_content {p : Patch} (hp : of? t.length rs = .ok p) (hs : s.Within t.length) :
    let chars := traced t 0 (zoned s s.stop rs)
    ∃ t', p.result? t = .ok t' ∧ t' = chars.map Prod.snd ∧ (p.mapSpan s).Within t'.length ∧
      t'.take (p.mapSpan s).start = charsIn s .front chars ∧ (p.mapSpan s).textIn t' = charsIn s .within chars ∧
      t'.drop (p.mapSpan s).stop = charsIn s .behind chars ∧
      p.mapSpanChecked s = some (p.mapSpan s) ∧
      ∀ e ∈ movedEnds 0 p.replacements, 0 ≤ e ∧ e ≤ t.length + putLength rs := by
  intro chars
  obtain ⟨hf, hl, hr⟩ := of?_eq_ok_iff.1 hp
  have hresult : p.result? t = .ok (chars.map Prod.snd) := by
    rw [result?_eq_weave hp, map_snd_traced, map_fst_zoned]
  obtain ⟨f, w, b, hchars, hfront, hwithin, hbehind, hstart, hstop⟩ := zones_unreached 0 s hf
    (Int.le_refl 0) hs (Nat.zero_le _) (Int.add_zero _).symm (Int.add_zero _).symm
  have hfollow : p.mapSpan s = followSpan rs 0 s := by
    unfold mapSpan
    rw [hr, followSpan_filter hf (Int.le_refl 0)]
  have hstart : (p.mapSpan s).start = (f.map Prod.snd).length := by
    rw [hfollow, List.length_map]
    omega
  have hstop : (p.mapSpan s).stop = (f.map Prod.snd ++ w.map Prod.snd).length := by
    rw [hfollow, List.length_append, List.length_map, List.length_map]
    omega
  have htext : chars.map Prod.snd = (f.map Prod.snd ++ w.map Prod.snd) ++ b.map Prod.snd := by
    change (traced t 0 (zoned s s.stop rs)).map Prod.snd = _
    rw [hchars, List.map_append, List.map_append, List.append_assoc]
  obtain ⟨hcharsFront, hcharsWithin, hcharsBehind⟩ := charsIn_parts hfront hwithin hbehind
  rw [← hchars] at hcharsFront hcharsWithin hcharsBehind
  refine ⟨chars.map Prod.snd, hresult, rfl, ⟨?_, ?_⟩, ?_, ?_, ?_, mapSpanChecked_eq p hs.1, fun e he => ?_⟩
  · rw [hstart, hstop, List.length_append]
    exact Nat.le_add_right _ _
  · rw [hstop, htext]
    exact (List.sublist_append_left _ _).length_le
  · rw [hcharsFront, htext, hstart, List.append_assoc, List.take_left]
  · rw [hcharsWithin, Span.textIn, Text.slice, htext, hstop, List.take_left, hstart, List.drop_left]
  · rw [hcharsBehind, htext, hstop, List.drop_left]
  · rw [hr] at he
    have hbounded := movedEnds_bounded (hf.filter fun r => r.Effective) (Int.le_refl 0) e he
    rw [putLength_filter] at hbounded
    omega

/-- A span that a first replacement takes the start of: the second one touches it only because the first reaches there,
and the third is behind it. -/
theorem mapSpan_content_chain :
    let t : Text := "a<ul>b c".toList
    let rs : List Replacement := [⟨0, 1, ['x', 'y']⟩, ⟨2, 5, ['p']⟩, ⟨5, 6, ['q']⟩, ⟨7, 8, ['z']⟩]
    let s : Span := ⟨3, 4⟩
    ∃ p, of? 8 rs = .ok p ∧ p.result? t = .ok "xy<pq z".toList ∧ s.Within 8 ∧ p.mapSpan s = ⟨3, 5⟩ ∧
      (p.mapSpan s).textIn "xy<pq z".toList = ['p', 'q'] ∧
      charsIn s .within (traced t 0 (zoned s s.stop rs)) = ['p', 'q'] := by
  intro t rs s
  have hfits : Replacement.Fits 8 0 rs := by decide +kernel
  obtain ⟨p, hp, hl, hr⟩ := of?_of_fits hfits
  have hmade : of? t.length rs = .ok p := hp
  have hspan : p.mapSpan s = ⟨3, 5⟩ := by
    unfold mapSpan
    rw [hr]
    decide +kernel
  obtain ⟨t', hresult, ht', -, -, hwithin, -⟩ := mapSpan_content (s := s) hmade (by decide +kernel)
  have hwoven : (traced t 0 (zoned s s.stop rs)).map Prod.snd = "xy<pq z".toList := by decide +kernel
  have hchars : charsIn s .within (traced t 0 (zoned s s.stop rs)) = ['p', 'q'] := by decide +kernel
  rw [hwoven] at ht'
  subst ht'
  exact ⟨p, hp, hresult, by decide, hspan, hwithin.trans hchars, hchars⟩

end Shorthand.Patch
