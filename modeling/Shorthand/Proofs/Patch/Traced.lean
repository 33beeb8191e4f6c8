import Mathlib.Data.List.TakeDrop
import Shorthand.Proofs.Patch.Weave
/-!
# Where the chars after a patch come from

Two texts can have the same chars for different reasons.  So the text after replacements is written here with each char
carrying its origin (`traced`): the offset that it has had in the text before, or a label of the replacement that has
put it in.  Without the origins it is the woven text (`map_snd_traced`), and what has no effect leaves no trace
(`traced_filter`).
-/
namespace Shorthand.Patch

open Replacement (Fits)

/-- A char of the text after replacements has been kept, or put in by a replacement with some label. -/
inductive Origin (κ : Type) where
  | kept (offset : Nat)
  | put (label : κ)
  deriving DecidableEq, Repr

variable {κ : Type} {t : Text}

/-! ## What is kept -/

/-- The chars of `t` from `start` up to `stop`, with their offsets. -/
def stretch (t : Text) (start stop : Nat) : List (Origin κ × Char) :=
  ((t.slice start stop).zipIdx start).map fun x => (.kept x.2, x.1)

@[simp] theorem map_snd_stretch (t : Text) (start stop : Nat) :
    (stretch t start stop : List (Origin κ × Char)).map Prod.snd = t.slice start stop := by
  unfold stretch
  rw [List.map_map]
  exact List.zipIdx_map_fst start (t.slice start stop)

theorem length_stretch {stop : Nat} (h : stop ≤ t.length) (start : Nat) :
    (stretch t start stop : List (Origin κ × Char)).length = stop - start := by
  unfold stretch
  rw [List.length_map, List.length_zipIdx, Text.length_slice, Nat.min_eq_left h]

@[simp] theorem stretch_self (t : Text) (pos : Nat) : (stretch t pos pos : List (Origin κ × Char)) = [] := by
  unfold stretch
  rw [Text.slice_self]
  rfl

theorem stretch_append {a b c : Nat} (h : a ≤ b) (h' : b ≤ c) (hb : b ≤ t.length) :
    (stretch t a b ++ stretch t b c : List (Origin κ × Char)) = stretch t a c := by
  have hl : a + (t.slice a b).length = b := by rw [Text.length_slice]; omega
  unfold stretch
  rw [← Text.slice_append_slice t h h', List.zipIdx_append, List.map_append, hl]

theorem stretch_single {i : Nat} {c : Char} (hc : t[i]? = some c) :
    (stretch t i (i + 1) : List (Origin κ × Char)) = [(.kept i, c)] := by
  have hi : t.slice i (i + 1) = [c] := by rw [Text.slice_concat (Nat.le_refl i) hc, Text.slice_self, List.nil_append]
  unfold stretch
  rw [hi]
  rfl

theorem head?_stretch {start stop : Nat} {c : Char} (h : start < stop) (hc : t[start]? = some c) :
    (stretch t start stop : List (Origin κ × Char)).head? = some (.kept start, c) := by
  have hl : start < t.length := (List.getElem?_eq_some_iff.1 hc).1
  rw [← stretch_append (Nat.le_add_right start 1) h hl, stretch_single hc]
  rfl

theorem getLast?_stretch {start i : Nat} {c : Char} (h : start ≤ i) (hc : t[i]? = some c) :
    (stretch t start (i + 1) : List (Origin κ × Char)).getLast? = some (.kept i, c) := by
  have hl : i < t.length := (List.getElem?_eq_some_iff.1 hc).1
  rw [← stretch_append h (Nat.le_add_right i 1) (Nat.le_of_lt hl), stretch_single hc]
  exact List.getLast?_concat

theorem exists_of_mem_stretch {start stop : Nat} {x : Origin κ × Char} (h : x ∈ stretch t start stop) :
    ∃ i, x.1 = .kept i ∧ start ≤ i ∧ i < stop := by
  obtain ⟨⟨c, i⟩, hi, rfl⟩ := List.mem_map.1 h
  have hb := List.mem_zipIdx hi
  rw [Text.length_slice] at hb
  exact ⟨i, rfl, hb.1, by omega⟩

/-! ## What is put in -/

/-- **What is left of `t` from `last` on, with what the replacements put in, and where each char comes from.** -/
def traced (t : Text) : Nat → List (Replacement × κ) → List (Origin κ × Char)
  | last, [] => stretch t last t.length
  | last, (r, k) :: rs => stretch t last r.start ++ (r.inserted.map (Prod.mk (.put k)) ++ traced t r.stop rs)

theorem map_snd_traced (t : Text) : ∀ (last : Nat) (rs : List (Replacement × κ)),
    (traced t last rs).map Prod.snd = weave t last (rs.map Prod.fst)
  | last, [] => by rw [traced, map_snd_stretch, Text.slice_length]; rfl
  | last, (r, k) :: rs => by
    have hr : (r.inserted.map (Prod.mk (Origin.put k))).map Prod.snd = r.inserted := by
      rw [List.map_map]
      exact List.map_id r.inserted
    rw [traced, List.map_append, List.map_append, map_snd_stretch, hr, map_snd_traced t r.stop rs]
    rfl

/-- What is kept in front of the first replacement can be read in two parts. -/
theorem stretch_append_traced {last pos : Nat} {rs : List (Replacement × κ)} (h : last ≤ pos) (hpos : pos ≤ t.length)
    (hf : Fits t.length pos (rs.map Prod.fst)) : stretch t last pos ++ traced t pos rs = traced t last rs := by
  cases rs with
  | nil => exact stretch_append h hpos hpos
  | cons x rs => rw [traced, traced, ← List.append_assoc, stretch_append h hf.1 hpos]

theorem fits_filter {last : Nat} {rs : List (Replacement × κ)} (h : Fits t.length last (rs.map Prod.fst)) :
    Fits t.length last ((rs.filter fun x => x.1.Effective).map Prod.fst) := by
  have hm : (rs.map Prod.fst).filter (fun r => r.Effective) = (rs.filter fun x => x.1.Effective).map Prod.fst :=
    List.filter_map
  rw [← hm]
  exact h.filter _

/-- Replacements without effect leave no trace. -/
theorem traced_filter : ∀ {last : Nat} {rs : List (Replacement × κ)}, Fits t.length last (rs.map Prod.fst) →
    traced t last (rs.filter fun x => x.1.Effective) = traced t last rs
  | _, [], _ => rfl
  | last, (r, k) :: rs, ⟨h₁, h₂, h₃, h₄⟩ => by
    have ih := traced_filter h₄
    by_cases he : r.Effective
    · rw [List.filter_cons_of_pos (by simpa using he), traced, traced, ih]
    · obtain ⟨hs, hi⟩ := not_or.1 he
      have hs : r.start = r.stop := Decidable.not_not.1 hs
      rw [List.filter_cons_of_neg (by simpa using he), traced, Decidable.not_not.1 hi, ← ih, List.map_nil,
        List.nil_append, hs, stretch_append_traced (hs ▸ h₁) h₃ (fits_filter h₄)]

end Shorthand.Patch
