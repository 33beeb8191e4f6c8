import Shorthand.Proofs.Patch.Traced
/-!
# Positions between the chars around them

A position stands between two chars.  If a patch keeps the one in front of it, the position goes right behind that char
with `Side.before`; if it keeps the one behind, the position is to go right in front of that one with `Side.after`, so
that whatever is put in at the position lies between the two.  The first holds for all patches, the second just if no
more than one replacement puts something in there (`mapPos_between`): the position stops behind the first of them.

The chars after the patch carry their origins (`origins`), and are parted at what is put in at the position
(`origins_around`).
-/
namespace Shorthand.Patch

open Replacement (Fits)

variable {t : Text} {last pos : Nat} {rs : List Replacement} {shift : Int}

/-- No replacement takes the char at `offset` away. -/
def Survives (rs : List Replacement) (offset : Nat) : Prop := ∀ r ∈ rs, ¬ (r.start ≤ offset ∧ offset < r.stop)

instance (rs : List Replacement) (offset : Nat) : Decidable (Survives rs offset) :=
  inferInstanceAs (Decidable (∀ r ∈ rs, _))

/-- The replacements that put something in at `pos`. -/
def puttingAt (rs : List Replacement) (pos : Nat) : List Replacement :=
  rs.filter fun r => r.start = pos ∧ r.inserted ≠ []

/-- The chars that a replacement puts in. -/
def putIn (r : Replacement) : List (Origin Replacement × Char) := r.inserted.map (Prod.mk (.put r))

/-- What the replacements leave of `t` from `last` on, each char with its offset or the replacement that puts it in. -/
def origins (t : Text) (last : Nat) (rs : List Replacement) : List (Origin Replacement × Char) :=
  traced t last (rs.map fun r => (r, r))

/-- The char has been put in at `pos`. -/
def Origin.PutAt (pos : Nat) : Origin Replacement → Prop
  | .kept _ => False
  | .put r => r.start = pos

instance (pos : Nat) : (o : Origin Replacement) → Decidable (o.PutAt pos)
  | .kept _ => inferInstanceAs (Decidable False)
  | .put r => inferInstanceAs (Decidable (r.start = pos))

theorem map_fst_labelled (rs : List Replacement) : (rs.map fun r => (r, r)).map Prod.fst = rs := by
  rw [List.map_map]
  exact List.map_id rs

theorem origins_cons (t : Text) (last : Nat) (r : Replacement) (rs : List Replacement) :
    origins t last (r :: rs) = stretch t last r.start ++ (putIn r ++ origins t r.stop rs) := rfl

theorem stretch_append_origins (h : last ≤ pos) (hpos : pos ≤ t.length) (hf : Fits t.length pos rs) :
    stretch t last pos ++ origins t pos rs = origins t last rs :=
  stretch_append_traced h hpos (by rwa [map_fst_labelled])

/-! ## What is put in at a position -/

theorem le_start_of_fits : ∀ {last : Nat} {rs : List Replacement}, Fits t.length last rs → ∀ r ∈ rs, last ≤ r.start
  | _, _ :: _, ⟨h₁, h₂, _, h₄⟩, _, hr => by
    cases hr with
    | head => exact h₁
    | tail _ hr => exact Nat.le_trans h₁ (Nat.le_trans h₂ (le_start_of_fits h₄ _ hr))

theorem puttingAt_of_lt (h : Fits t.length last rs) (hp : pos < last) : puttingAt rs pos = [] := by
  refine List.filter_eq_nil_iff.2 fun r hr => ?_
  have hle := le_start_of_fits h r hr
  simp only [decide_eq_true_eq]
  omega

theorem not_putAt_of_mem_stretch {start stop : Nat} {x : Origin Replacement × Char} (h : x ∈ stretch t start stop) :
    ¬ x.1.PutAt pos := by
  obtain ⟨i, hi, -⟩ := exists_of_mem_stretch h
  rw [hi]
  exact not_false

theorem putAt_of_mem_putIn {r : Replacement} {x : Origin Replacement × Char} (h : x ∈ putIn r) :
    x.1.PutAt pos ↔ r.start = pos := by
  obtain ⟨c, -, rfl⟩ := List.mem_map.1 h
  exact Iff.rfl

theorem length_puttingAt_cons_le (r : Replacement) (rs : List Replacement) (pos : Nat) :
    (puttingAt (r :: rs) pos).length ≤ (puttingAt rs pos).length + 1 := by
  unfold puttingAt
  rw [List.filter_cons]
  split
  · exact Nat.le_refl _
  · exact Nat.le_succ _

theorem flatMap_putIn_of_start {r : Replacement} (h : r.start = pos) :
    (puttingAt (r :: rs) pos).flatMap putIn = putIn r ++ (puttingAt rs pos).flatMap putIn := by
  unfold puttingAt
  by_cases hi : r.inserted = []
  · have hr : putIn r = [] := by rw [putIn, hi]; rfl
    rw [List.filter_cons_of_neg (by simp [hi]), hr, List.nil_append]
  · rw [List.filter_cons_of_pos (by simp [h, hi]), List.flatMap_cons]

/-- Behind the first piece put in at a position there is a char put in there, unless that piece is the only one. -/
theorem exists_second (h : 1 < (puttingAt rs pos).length) :
    ∃ r c rest, ((puttingAt rs pos).drop 1).flatMap putIn = (.put r, c) :: rest ∧ r.start = pos := by
  cases hd : (puttingAt rs pos).drop 1 with
  | nil =>
    have := List.drop_eq_nil_iff.1 hd
    omega
  | cons r others =>
    have hr : r ∈ puttingAt rs pos := List.mem_of_mem_drop (hd ▸ List.mem_cons_self)
    obtain ⟨hstart, hi⟩ := of_decide_eq_true (List.mem_filter.1 hr).2
    obtain ⟨c, cs, hc⟩ := List.exists_cons_of_ne_nil hi
    exact ⟨r, c, cs.map (Prod.mk (.put r)) ++ others.flatMap putIn, by rw [List.flatMap_cons, putIn, hc]; rfl, hstart⟩

/-- A char put in at a position comes from one of the replacements that put something in there. -/
theorem not_putAt_of_puttingAt : ∀ {last : Nat} {rs : List Replacement}, puttingAt rs pos = [] →
    ∀ x ∈ origins t last rs, ¬ x.1.PutAt pos
  | _, [], _, x, hx => not_putAt_of_mem_stretch hx
  | last, r :: rs, h, x, hx => by
    obtain ⟨hr, hrs⟩ := List.forall_mem_cons.1 (List.filter_eq_nil_iff.1 h)
    rw [origins_cons, List.mem_append, List.mem_append] at hx
    obtain hx | hx | hx := hx
    · exact not_putAt_of_mem_stretch hx
    · intro hp
      have hi : r.inserted ≠ [] := fun hi => by simp [putIn, hi] at hx
      exact hr (decide_eq_true ⟨(putAt_of_mem_putIn hx).1 hp, hi⟩)
    · exact not_putAt_of_puttingAt (List.filter_eq_nil_iff.2 hrs) x hx

/-! ## The two sides of a position -/

/-- Nothing is put in within a stretch that goes. -/
theorem puttingAt_of_inside : ∀ {last : Nat} {rs : List Replacement}, Fits t.length last rs →
    (∃ r ∈ rs, r.start < pos ∧ pos < r.stop) → puttingAt rs pos = []
  | _, r :: rs, ⟨h₁, h₂, h₃, h₄⟩, ⟨r', hr', hstart, hstop⟩ => by
    have hf : Fits t.length r.start (r :: rs) := ⟨Nat.le_refl _, h₂, h₃, h₄⟩
    have hlt : r.start < pos := Nat.lt_of_le_of_lt (le_start_of_fits hf r' hr') hstart
    rw [puttingAt, List.filter_cons_of_neg (by simp; omega)]
    cases hr' with
    | head => exact puttingAt_of_lt h₄ hstop
    | tail _ hr' => exact puttingAt_of_inside h₄ ⟨r', hr', hstart, hstop⟩

/-! ## Replacements without effect -/

theorem origins_filter (h : Fits t.length last rs) :
    origins t last (rs.filter fun r => r.Effective) = origins t last rs := by
  have hm : (rs.filter fun r => r.Effective).map (fun r => (r, r)) =
      (rs.map fun r => (r, r)).filter fun x => x.1.Effective := by
    rw [List.filter_map]
    rfl
  unfold origins
  rw [hm, traced_filter (by rwa [map_fst_labelled])]

theorem puttingAt_filter (rs : List Replacement) (pos : Nat) :
    puttingAt (rs.filter fun r => r.Effective) pos = puttingAt rs pos := by
  unfold puttingAt
  rw [List.filter_filter]
  refine List.filter_congr fun r _ => ?_
  simp only [Replacement.Effective, Bool.decide_and]
  grind

theorem survives_filter {offset : Nat} (h : Survives rs offset) :
    Survives (rs.filter fun r => r.Effective) offset :=
  fun r hr => h r (List.mem_filter.1 hr).1

/-! ## Where the loop leaves a position -/

variable {r : Replacement} {side : Side}

theorem min_moved (h : 0 ≤ pos + shift) (h' : pos + shift ≤ maxOffset) :
    ((min maxOffset (moved pos shift) : Nat) : Int) = pos + shift := by
  unfold moved
  omega

theorem followPos_of_lt (h : pos < r.start) : followPos side (r :: rs) shift pos = min maxOffset (moved pos shift) := by
  unfold followPos
  rw [if_pos (by simp [h])]

theorem followPos_of_le (h : r.start < pos) (h' : r.stop ≤ pos) :
    followPos side (r :: rs) shift pos = followPos side rs (shift + r.inserted.length - r.removed) pos := by
  conv => lhs; unfold followPos
  rw [if_neg (by simp; omega), if_neg (by simp; omega)]

theorem followPos_before_of_insertion (h : pos = r.start) (h' : pos = r.stop) :
    followPos .before (r :: rs) shift pos = min maxOffset (moved pos shift) := by
  unfold followPos
  rw [if_pos (by simp [← h, ← h'])]

theorem followPos_before_of_lt (h : r.start ≤ pos) (h' : pos < r.stop) :
    followPos .before (r :: rs) shift pos = moved r.start shift := by
  unfold followPos
  rw [if_neg (by simp; omega), if_pos (by simp; omega)]

theorem followPos_after_of_start (h : pos = r.start) (h' : r.start ≤ r.stop) :
    followPos .after (r :: rs) shift pos = moved r.start shift + r.inserted.length := by
  unfold followPos
  rw [if_neg (by simp; omega), if_pos (by simp; omega)]

/-! ## The two sides of a position -/

/-- The replacements from a position on: first what they put in right there, and then, if it survives, the char behind
the position.  On the side `before` the position stays in front of it all, on the side `after` it passes the first. -/
theorem origins_here : ∀ {rs : List Replacement} (shift : Int), Fits t.length pos rs → (∀ r ∈ rs, r.Effective) →
    pos ≤ t.length → 0 ≤ pos + shift → t.length + shift + growth rs ≤ maxOffset →
    ∃ back, origins t pos rs = (puttingAt rs pos).flatMap putIn ++ back ∧ (∀ x ∈ back, ¬ x.1.PutAt pos) ∧
      (∀ c, t[pos]? = some c → Survives rs pos → back.head? = some (.kept pos, c)) ∧
      (followPos .before rs shift pos : Int) = pos + shift ∧
      (followPos .after rs shift pos : Int) = pos + shift + (((puttingAt rs pos).take 1).flatMap putIn).length
  | [], shift, _, _, hpos, hs, hw => by
    simp only [growth] at hw
    refine ⟨stretch t pos t.length, rfl, fun x hx => not_putAt_of_mem_stretch hx, fun c hc _ => ?_, ?_, ?_⟩
    · exact head?_stretch (List.getElem?_eq_some_iff.1 hc).1 hc
    · exact min_moved hs (by omega)
    · exact (min_moved hs (by omega)).trans (Int.add_zero _).symm
  | r :: rs, shift, ⟨h₁, h₂, h₃, h₄⟩, he, hpos, hs, hw => by
    have hbound : (pos : Int) ≤ t.length + growth (r :: rs) := le_add_growth hpos ⟨h₁, h₂, h₃, h₄⟩
    have hfit : pos + shift ≤ maxOffset := by omega
    obtain hlt | heq := Nat.lt_or_eq_of_le h₁
    · -- nothing happens at the position
      have hrest : Fits t.length r.start (r :: rs) := ⟨Nat.le_refl _, h₂, h₃, h₄⟩
      have hnone : puttingAt (r :: rs) pos = [] := puttingAt_of_lt hrest hlt
      rw [hnone, followPos_of_lt hlt, followPos_of_lt hlt, min_moved hs hfit]
      refine ⟨origins t pos (r :: rs), rfl, not_putAt_of_puttingAt hnone, fun c hc _ => ?_, rfl, by simp⟩
      rw [origins_cons, List.head?_append, head?_stretch hlt hc]
      rfl
    have hmoved : (moved r.start shift : Int) = pos + shift := by unfold moved; omega
    have hfirst : origins t pos (r :: rs) = putIn r ++ origins t r.stop rs := by
      rw [origins_cons, ← heq, stretch_self, List.nil_append]
    have hlength : (putIn r).length = r.inserted.length := List.length_map ..
    have hafter : followPos .after (r :: rs) shift pos = moved r.start shift + r.inserted.length :=
      followPos_after_of_start heq h₂
    obtain hgone | hstop := Nat.lt_or_eq_of_le h₂
    · -- the char behind the position goes
      have hrest : puttingAt rs pos = [] := puttingAt_of_lt h₄ (heq ▸ hgone)
      have hone : (puttingAt (r :: rs) pos).length ≤ 1 :=
        calc (puttingAt (r :: rs) pos).length
          _ ≤ (puttingAt rs pos).length + 1 := length_puttingAt_cons_le r rs pos
          _ = 1 := by rw [hrest]; rfl
      have hputs : (puttingAt (r :: rs) pos).flatMap putIn = putIn r := by
        rw [flatMap_putIn_of_start heq.symm, hrest, List.flatMap_nil, List.append_nil]
      refine ⟨origins t r.stop rs, by rw [hfirst, hputs], not_putAt_of_puttingAt hrest, fun c _ hs => ?_, ?_, ?_⟩
      · exact absurd ⟨Nat.le_of_eq heq.symm, heq ▸ hgone⟩ (hs r List.mem_cons_self)
      · rw [followPos_before_of_lt (Nat.le_of_eq heq.symm) (heq ▸ hgone), hmoved]
      · rw [hafter, List.take_of_length_le hone, hputs, hlength, Int.natCast_add, hmoved]
    · -- a piece is put in between the two chars
      have hi : r.inserted ≠ [] := ((he r List.mem_cons_self).resolve_left (· hstop))
      have hputs : puttingAt (r :: rs) pos = r :: puttingAt rs pos :=
        List.filter_cons_of_pos (decide_eq_true ⟨heq.symm, hi⟩)
      have hp : r.stop = pos := (heq.trans hstop).symm
      have hr : r.removed = 0 := by unfold Replacement.removed; omega
      rw [hp] at h₄
      simp only [growth, hr] at hw
      obtain ⟨back, horigins, hfree, hhead, -, -⟩ := origins_here (shift + r.inserted.length) h₄
        (fun r' h' => he r' (List.mem_cons_of_mem r h')) hpos (by omega) (by omega)
      refine ⟨back, ?_, hfree, fun c hc hs => hhead c hc fun r' h' => hs r' (List.mem_cons_of_mem r h'), ?_, ?_⟩
      · rw [hfirst, hp, horigins, hputs, List.flatMap_cons, List.append_assoc]
      · rw [followPos_before_of_insertion heq hp.symm, min_moved hs hfit]
      · rw [hafter, hputs, Int.natCast_add, hmoved]
        simp [hlength]

/-- The replacements from an offset up to a position on, and then from the position on.  If the char in front of the
position survives, it is the last of the first part. -/
theorem origins_around : ∀ {last : Nat} {rs : List Replacement} (shift : Int), Fits t.length last rs →
    (∀ r ∈ rs, r.Effective) → (∀ r ∈ rs, ¬ (r.start < pos ∧ pos < r.stop)) → last ≤ pos → pos ≤ t.length →
    0 ≤ last + shift → t.length + shift + growth rs ≤ maxOffset →
    ∃ front back, origins t last rs = front ++ ((puttingAt rs pos).flatMap putIn ++ back) ∧
      (∀ x ∈ front, ¬ x.1.PutAt pos) ∧ (∀ x ∈ back, ¬ x.1.PutAt pos) ∧
      (∀ n c, pos = n + 1 → last ≤ n → t[n]? = some c → Survives rs n → front.getLast? = some (.kept n, c)) ∧
      (∀ c, t[pos]? = some c → Survives rs pos → back.head? = some (.kept pos, c)) ∧
      (followPos .before rs shift pos : Int) = last + shift + front.length ∧
      (followPos .after rs shift pos : Int) =
        last + shift + front.length + (((puttingAt rs pos).take 1).flatMap putIn).length
  | last, rs, shift, hf, he, hin, hl, hpos, hs, hw => by
    by_cases hreached : Fits t.length pos rs
    · -- nothing is replaced up to the position
      obtain ⟨back, horigins, hfree, hhead, hbefore, hafter⟩ := origins_here shift hreached he hpos (by omega) hw
      have hlength := length_stretch (κ := Replacement) hpos last
      refine ⟨stretch t last pos, back, ?_, fun x hx => not_putAt_of_mem_stretch hx, hfree, ?_, hhead, ?_, ?_⟩
      · rw [← horigins, stretch_append_origins hl hpos hreached]
      · rintro n c rfl hn hc -
        exact getLast?_stretch hn hc
      · rw [hbefore]; omega
      · rw [hafter]; omega
    cases rs with
    | nil => exact absurd trivial hreached
    | cons r rs =>
      obtain ⟨h₁, h₂, h₃, h₄⟩ := hf
      have hlt : r.start < pos := by
        by_contra hle
        exact hreached ⟨Nat.not_lt.1 hle, h₂, h₃, h₄⟩
      have hle : r.stop ≤ pos := Nat.not_lt.1 fun h => hin r List.mem_cons_self ⟨hlt, h⟩
      have hremoved : r.removed = r.stop - r.start := rfl
      simp only [growth] at hw
      obtain ⟨front, back, horigins, hfront, hback, hlast, hhead, hbefore, hafter⟩ :=
        origins_around (shift + r.inserted.length - r.removed) h₄ (fun r' h' => he r' (List.mem_cons_of_mem r h'))
          (fun r' h' => hin r' (List.mem_cons_of_mem r h')) hle hpos (by omega) (by omega)
      have hputs : puttingAt (r :: rs) pos = puttingAt rs pos :=
        List.filter_cons_of_neg (by simp; omega)
      have hlength : (stretch t last r.start ++ (putIn r ++ front)).length =
          r.start - last + (r.inserted.length + front.length) := by
        rw [List.length_append, List.length_append, length_stretch (by omega), putIn, List.length_map]
      refine ⟨stretch t last r.start ++ (putIn r ++ front), back, ?_, ?_, hback, ?_, ?_, ?_, ?_⟩
      · rw [origins_cons, horigins, hputs]
        simp only [List.append_assoc]
      · intro x hx
        obtain hx | hx := List.mem_append.1 hx
        · exact not_putAt_of_mem_stretch hx
        obtain hx | hx := List.mem_append.1 hx
        · rw [putAt_of_mem_putIn hx]
          omega
        · exact hfront x hx
      · intro n c hn hle' hc hsurvives
        have hstop : r.stop ≤ n := by
          have := hsurvives r List.mem_cons_self
          omega
        have hkept := hlast n c hn hstop hc fun r' h' => hsurvives r' (List.mem_cons_of_mem r h')
        rw [List.getLast?_append, List.getLast?_append, hkept]
        rfl
      · exact fun c hc hsurvives => hhead c hc fun r' h' => hsurvives r' (List.mem_cons_of_mem r h')
      · rw [followPos_of_le hlt hle, hbefore, hlength]
        omega
      · rw [followPos_of_le hlt hle, hafter, hlength, hputs]
        omega

/-- What a patch makes of the text, parted at a position that does not lie within a stretch that goes: `first` is the
first piece put in at the position, which is passed on the side `after` only, and `others` are those behind it. -/
theorem origins_parted {p : Patch} (hp : of? t.length rs = .ok p) (hw : p.lengthAfter ≤ maxOffset)
    (hpos : pos ≤ t.length) (hin : ¬ ∃ r ∈ rs, r.start < pos ∧ pos < r.stop) :
    ∃ front first others back, origins t 0 rs = (front ++ first) ++ (others ++ back) ∧
      p.mapPos .before pos = front.length ∧ p.mapPos .after pos = (front ++ first).length ∧
      (∀ x ∈ front, ¬ x.1.PutAt pos) ∧ (∀ x ∈ back, ¬ x.1.PutAt pos) ∧
      (∀ n c, pos = n + 1 → t[n]? = some c → Survives rs n → front.getLast? = some (.kept n, c)) ∧
      (∀ c, t[pos]? = some c → Survives rs pos → back.head? = some (.kept pos, c)) ∧
      ((puttingAt rs pos).length ≤ 1 → others = []) ∧
      (1 < (puttingAt rs pos).length → ∃ r c rest, others = (.put r, c) :: rest ∧ r.start = pos) := by
  obtain ⟨hf, hl, hr⟩ := of?_eq_ok_iff.1 hp
  have hgrowth := lengthAfter_eq p
  rw [hl, hr] at hgrowth
  obtain ⟨front, back, horigins, hfront, hback, hlast, hhead, hbefore, hafter⟩ :=
    origins_around 0 (hf.filter _) (fun r h => of_decide_eq_true (List.mem_filter.1 h).2)
      (fun r h hr => hin ⟨r, (List.mem_filter.1 h).1, hr⟩) (Nat.zero_le pos) hpos (Int.le_refl 0) (by omega)
  rw [origins_filter hf, puttingAt_filter] at horigins
  rw [puttingAt_filter, ← hr] at hafter
  rw [← hr] at hbefore
  have hputs : (puttingAt rs pos).flatMap putIn =
      ((puttingAt rs pos).take 1).flatMap putIn ++ ((puttingAt rs pos).drop 1).flatMap putIn := by
    rw [← List.flatMap_append, List.take_append_drop]
  refine ⟨front, ((puttingAt rs pos).take 1).flatMap putIn, ((puttingAt rs pos).drop 1).flatMap putIn, back, ?_, ?_, ?_,
    hfront, hback, fun n c hn hc hs => hlast n c hn (Nat.zero_le n) hc (survives_filter hs),
    fun c hc hs => hhead c hc (survives_filter hs), fun hone => ?_, exists_second⟩
  · rw [horigins, hputs]
    simp only [List.append_assoc]
  · unfold mapPos
    omega
  · rw [List.length_append]
    unfold mapPos
    omega
  · rw [List.drop_eq_nil_iff.2 hone]
    rfl

/-- **A position follows the chars around it, as long as no more than one piece is put in between them.**  If the char
in front of it survives, it is right in front of the position on the side `before`, and nothing put in at the position
is in front of that.  If the char behind it survives, it is right behind the position on the side `after`, with all that
is put in there in front, just if that is at most one piece.  The text after the patch has to be one whose offsets can
be written. -/
theorem mapPos_between {p : Patch} (hp : of? t.length rs = .ok p) (hw : p.lengthAfter ≤ maxOffset)
    (hpos : pos ≤ t.length) :
    p.result? t = .ok ((origins t 0 rs).map Prod.snd) ∧
    (∀ n c, pos = n + 1 → t[n]? = some c → Survives rs n →
      0 < p.mapPos .before pos ∧ (origins t 0 rs)[p.mapPos .before pos - 1]? = some (.kept n, c)) ∧
    (∀ x ∈ (origins t 0 rs).take (p.mapPos .before pos), ¬ x.1.PutAt pos) ∧
    (∀ c, t[pos]? = some c → Survives rs pos →
      ((origins t 0 rs)[p.mapPos .after pos]? = some (.kept pos, c) ↔ (puttingAt rs pos).length ≤ 1)) ∧
    ((∀ x ∈ (origins t 0 rs).drop (p.mapPos .after pos), ¬ x.1.PutAt pos) ↔ (puttingAt rs pos).length ≤ 1) := by
  have hresult : p.result? t = .ok ((origins t 0 rs).map Prod.snd) := by
    rw [result?_eq_weave hp, origins, map_snd_traced, map_fst_labelled]
  refine ⟨hresult, ?_⟩
  by_cases hin : ∃ r ∈ rs, r.start < pos ∧ pos < r.stop
  · -- the chars on both sides go
    have hnone := puttingAt_of_inside (of?_eq_ok_iff.1 hp).1 hin
    have hfree : ∀ x ∈ origins t 0 rs, ¬ x.1.PutAt pos := not_putAt_of_puttingAt hnone
    obtain ⟨r, hr, hstart, hstop⟩ := hin
    refine ⟨fun n c hn _ hs => absurd ⟨by omega, by omega⟩ (hs r hr), fun x hx => hfree x (List.mem_of_mem_take hx),
      fun c _ hs => absurd ⟨by omega, hstop⟩ (hs r hr), ?_⟩
    rw [hnone]
    exact iff_of_true (fun x hx => hfree x (List.mem_of_mem_drop hx)) (Nat.zero_le 1)
  obtain ⟨front, first, others, back, hparts, hbefore, hafter, hfront, hback, hlast, hhead, hone, hmore⟩ :=
    origins_parted hp hw hpos hin
  have hbehind : (origins t 0 rs).drop (p.mapPos .after pos) = others ++ back := by rw [hparts, hafter, List.drop_left]
  refine ⟨fun n c hn hc hs => ?_, ?_, fun c hc hs => ?_, ?_⟩
  · obtain ⟨init, rfl⟩ := List.getLast?_eq_some_iff.1 (hlast n c hn hc hs)
    rw [hbefore, hparts, List.length_append]
    refine ⟨Nat.succ_pos _, ?_⟩
    simp
  · rw [hbefore, hparts, List.append_assoc, List.take_left]
    exact hfront
  · rw [← List.head?_drop, hbehind]
    by_cases h : (puttingAt rs pos).length ≤ 1
    · rw [hone h]
      exact iff_of_true (hhead c hc hs) h
    · obtain ⟨r, c', rest, hothers, -⟩ := hmore (Nat.not_le.1 h)
      refine iff_of_false (fun hnext => ?_) h
      rw [hothers] at hnext
      cases hnext
  · rw [hbehind]
    by_cases h : (puttingAt rs pos).length ≤ 1
    · rw [hone h]
      exact iff_of_true hback h
    · obtain ⟨r, c', rest, hothers, hstart⟩ := hmore (Nat.not_le.1 h)
      exact iff_of_false (fun hall => hall (.put r, c') (by simp [hothers]) hstart) h

/-- A comma put in at the position stands between the two chars around it, with other replacements on both sides. -/
theorem mapPos_between_around_comma :
    let t : Text := "hello world".toList
    let rs : List Replacement := [⟨0, 1, ['H']⟩, ⟨5, 5, []⟩, ⟨5, 5, [',']⟩, ⟨6, 11, "you".toList⟩]
    ∃ p, of? 11 rs = .ok p ∧ p.result? t = .ok "Hello, you".toList ∧
      (origins t 0 rs).map Prod.snd = "Hello, you".toList ∧
      p.mapPos .before 5 = 5 ∧ (origins t 0 rs)[4]? = some (.kept 4, 'o') ∧
      p.mapPos .after 5 = 6 ∧ (origins t 0 rs)[6]? = some (.kept 5, ' ') := by
  intro t rs
  have hfits : Fits 11 0 rs := by decide +kernel
  obtain ⟨p, hp, hl, hr⟩ := of?_of_fits hfits
  have hpositions : p.lengthAfter = 10 ∧ p.mapPos .before 5 = 5 ∧ p.mapPos .after 5 = 6 := by
    unfold lengthAfter mapPos
    rw [hl, hr]
    decide +kernel
  obtain ⟨hafter, hbefore5, hafter5⟩ := hpositions
  have hwritable : p.lengthAfter ≤ maxOffset := by rw [hafter]; decide
  have hmade : of? t.length rs = .ok p := hp
  have hpos : 5 ≤ t.length := by decide +kernel
  obtain ⟨hresult, hfront, -, hback, -⟩ := mapPos_between hmade hwritable hpos
  have hwoven : (origins t 0 rs).map Prod.snd = "Hello, you".toList := by decide +kernel
  have ho := (hfront 4 'o' rfl (by decide +kernel) (by decide +kernel)).2
  have hspace := (hback ' ' (by decide +kernel) (by decide +kernel)).2 (by decide +kernel)
  rw [hbefore5] at ho
  rw [hafter5] at hspace
  exact ⟨p, hp, hwoven ▸ hresult, hwoven, hbefore5, ho, hafter5, hspace⟩

/-- Of two pieces put in at one offset, the position passes the first only: the second one is where the char behind the
position should be. -/
theorem mapPos_between_two_pieces :
    let rs : List Replacement := [⟨1, 1, ['x']⟩, ⟨1, 1, ['y']⟩]
    ∃ p, of? 3 rs = .ok p ∧ p.lengthAfter = 5 ∧ p.result? ['a', 'b', 'c'] = .ok ['a', 'x', 'y', 'b', 'c'] ∧
      Survives rs 1 ∧ p.mapPos .after 1 = 2 ∧
      (origins ['a', 'b', 'c'] 0 rs)[p.mapPos .after 1]? = some (.put ⟨1, 1, ['y']⟩, 'y') ∧
      (origins ['a', 'b', 'c'] 0 rs)[p.mapPos .after 1]? ≠ some (.kept 1, 'b') := by
  refine ⟨⟨3, [⟨1, 1, ['x']⟩, ⟨1, 1, ['y']⟩], by decide, by decide⟩, rfl, rfl, rfl, ?_, rfl, rfl, ?_⟩
  · decide
  · decide

end Shorthand.Patch
