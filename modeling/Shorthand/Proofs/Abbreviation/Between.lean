import Shorthand.Proofs.Abbreviation.Nesting
/-!
# What lies between two offsets

The element around an offset is the one around an offset in front of it, unless a tag ends in between that makes a
difference (`enclosing?_eq_iff`): one that opens an element there, or closes the one around the first offset.  The scan
of the tags can be cut in two anywhere, also within a tag, if the part of the tag that has been read is handed on
(`tagAfter`).
-/
namespace Shorthand.Abbreviation

variable {t : Text} {start stop : Nat}

/-- The chars of the tag that is being read behind `t`, last one first, if one is. -/
def tagAfter : Option Text → Text → Option Text
  | tag, [] => tag
  | none, c :: t => if c = '<' then tagAfter (some []) t else tagAfter none t
  | some tag, c :: t => if c = '>' then tagAfter none t else tagAfter (some (c :: tag)) t

/-- **The tags of two texts, one behind the other**, are those of the first and those that the second ends. -/
theorem tagsFrom_append_tagAfter (tag : Option Text) (t behind : Text) :
    tagsFrom tag (t ++ behind) = tagsFrom tag t ++ tagsFrom (tagAfter tag t) behind := by
  induction t generalizing tag with
  | nil => rw [List.nil_append, tagsFrom, tagAfter, List.nil_append]
  | cons c t ih =>
    cases tag with
    | none =>
      rw [List.cons_append, tagsFrom, tagsFrom, tagAfter]
      by_cases hc : c = '<'
      · rw [if_pos hc, if_pos hc, if_pos hc, ih]
      · rw [if_neg hc, if_neg hc, if_neg hc, ih]
    | some tag =>
      rw [List.cons_append, tagsFrom, tagsFrom, tagAfter]
      by_cases hc : c = '>'
      · rw [if_pos hc, if_pos hc, if_pos hc, ih, List.cons_append]
      · rw [if_neg hc, if_neg hc, if_neg hc, ih]

/-- A text without a `>` ends no tag. -/
theorem tagsFrom_of_not_mem (h : '>' ∉ t) (tag : Option Text) : tagsFrom tag t = [] := by
  induction t generalizing tag with
  | nil => rw [tagsFrom]
  | cons c t ih =>
    rw [List.mem_cons, not_or] at h
    obtain ⟨hc, ht⟩ := h
    cases tag with
    | none =>
      rw [tagsFrom]
      by_cases ho : c = '<'
      · rw [if_pos ho, ih ht]
      · rw [if_neg ho, ih ht]
    | some tag => rw [tagsFrom, if_neg (Ne.symm hc), ih ht]

/-- The tags that end between two offsets. -/
def tagsBetween (t : Text) (start stop : Nat) : List Text := tagsFrom (tagAfter none (t.take start)) (t.slice start stop)

/-- **What ends between two offsets makes no difference to the innermost open element.** -/
def LeavesInnermost (t : Text) (start stop : Nat) : Prop :=
  ((tagsBetween t start stop).foldl afterTag (scan [] (t.take start))).head? = (scan [] (t.take start)).head?

instance (t : Text) (start stop : Nat) : Decidable (LeavesInnermost t start stop) :=
  inferInstanceAs (Decidable (_ = _))

theorem leavesInnermost_of_not_mem (h : '>' ∉ t.slice start stop) : LeavesInnermost t start stop := by
  unfold LeavesInnermost tagsBetween
  rw [tagsFrom_of_not_mem h]
  rfl

theorem innermost?_take (t : Text) (h : start ≤ stop) : innermost? (t.take stop) =
    ((tagsBetween t start stop).foldl afterTag (scan [] (t.take start))).head? := by
  have htake : t.take stop = t.take start ++ t.slice start stop := by
    rw [← Text.slice_zero t start, Text.slice_append_slice t (Nat.zero_le _) h, Text.slice_zero]
  have htags : tags (t.take stop) = tags (t.take start) ++ tagsBetween t start stop := by
    rw [htake]
    exact tagsFrom_append_tagAfter none (t.take start) (t.slice start stop)
  unfold innermost? scan
  rw [htags, List.foldl_append]

/-- **The element around an offset is the one around an offset in front of it** just if the dialect has no elements or
what ends in between makes no difference. -/
theorem enclosing?_eq_iff (h : start ≤ stop) (dialect : String) :
    enclosing? t stop dialect = enclosing? t start dialect ↔
      dialect ∈ ["css", "scss", "less"] ∨ LeavesInnermost t start stop := by
  unfold enclosing?
  by_cases hd : plainDialects.contains dialect = true
  · rw [if_pos hd, if_pos hd]
    exact iff_of_true rfl (.inl (List.contains_iff_mem.1 hd))
  · rw [if_neg hd, if_neg hd, innermost?_take t h]
    exact (or_iff_right (mt List.contains_iff_mem.2 hd)).symm

/-- Behind the end of the text there is nothing more to be scanned. -/
theorem enclosing?_min (t : Text) (pos : Nat) (dialect : String) :
    enclosing? t (min pos t.length) dialect = enclosing? t pos dialect := by
  unfold enclosing?
  rw [← List.take_eq_take_min]

end Shorthand.Abbreviation
