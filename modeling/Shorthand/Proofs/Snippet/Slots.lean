import Shorthand.Proofs.Snippet.Template
/-!
# Texts written into a snippet as they are

Text may be written into a snippet without escaping its dollars, with tab stops between that are numbered as they come
(`Slot.write`).  Read back it is what it was meant to be just if no two neighbours make something else of each other
(`Slot.pieces_write_iff`): a dollar in front of a digit or of an opening brace becomes a stop, and a backslash in front of
a dollar is lost.  A fence, a char that takes no part in that, keeps what is on its two sides apart.
-/
namespace Shorthand.Snippet

/-- A char that is to stand for itself, or a tab stop. -/
inductive Slot where
  | char (c : Char)
  | stop
  deriving DecidableEq, Repr

namespace Slot

variable {c f : Char} {n : Nat} {t : Text} {slots slots' : List Slot}

/-! ## Writing and reading -/

/-- The snippet of slots whose stops are numbered from `n` on. -/
def write : Nat → List Slot → Text
  | _, [] => []
  | n, .char c :: slots => c :: write n slots
  | n, .stop :: slots => writeStop n [] ++ write (n + 1) slots

/-- What the snippet is meant to be read as. -/
def pieces : Nat → List Slot → List Piece
  | _, [] => []
  | n, .char c :: slots => .char c :: pieces n slots
  | n, .stop :: slots => .stop (min maxOffset n) :: pieces (n + 1) slots

/-- The chars that are left when the stops are gone. -/
def text : List Slot → Text
  | [] => []
  | .char c :: slots => c :: text slots
  | .stop :: slots => text slots

/-- The place of the first stop among those chars. -/
def caret? : List Slot → Option Nat
  | [] => none
  | .char _ :: slots => (caret? slots).map (· + 1)
  | .stop :: _ => some 0

/-- **The two are read as what they are when the one stands in front of the other.** -/
def Apart : Slot → Slot → Prop
  | .char c, .char d => (c = '\\' → d ≠ '$') ∧ (c = '$' → d.isDigit = false ∧ d ≠ '\x7b')
  | .char c, .stop => c ≠ '\\'
  | .stop, _ => True

instance : DecidableRel Apart
  | .char c, .char d => inferInstanceAs (Decidable ((c = '\\' → d ≠ '$') ∧ (c = '$' → d.isDigit = false ∧ d ≠ '\x7b')))
  | .char c, .stop => inferInstanceAs (Decidable (c ≠ '\\'))
  | .stop, _ => inferInstanceAs (Decidable True)

theorem write_map_char_append (n : Nat) (t : Text) (slots : List Slot) :
    write n (t.map .char ++ slots) = t ++ write n slots := by
  induction t with
  | nil => rfl
  | cons c t ih =>
    rw [List.cons_append, ← ih]
    rfl

theorem write_append (n : Nat) (slots slots' : List Slot) :
    write n (slots ++ slots') = write n slots ++ write (n + slots.count .stop) slots' := by
  induction slots generalizing n with
  | nil => rfl
  | cons s slots ih =>
    cases s with
    | char c =>
      rw [List.count_cons_of_ne (by simp)]
      exact congrArg (c :: ·) (ih n)
    | stop =>
      rw [List.count_cons_self, ← Nat.add_assoc, Nat.add_right_comm, List.cons_append, write, write, ih,
        List.append_assoc]

/-- A char is read as itself just if what follows makes nothing else of it. -/
theorem pieces_cons_iff {ps : List Piece} : Snippet.pieces (c :: t) = .char c :: ps ↔
    ((c = '\\' → t.head? ≠ some '$') ∧ (c = '$' → t.head?.any Char.isDigit = false ∧ t.head? ≠ some '\x7b')) ∧
      Snippet.pieces t = ps := by
  by_cases hb : c = '\\'
  · subst hb
    by_cases hd : t.head? = some '$'
    · obtain ⟨t, rfl⟩ := List.head?_eq_some_iff.1 hd
      have hr : Snippet.pieces ('\\' :: '$' :: t) = .char '$' :: Snippet.pieces t := rfl
      rw [hr]
      simp
    · rw [pieces_cons (by decide) fun _ => hd]
      simp [hd]
  · by_cases hd : c = '$'
    · subst hd
      by_cases hn : t.head?.any Char.isDigit = true
      · simp [Snippet.pieces, piecesFrom, hn]
      · by_cases ho : t.head? = some '\x7b'
        · simp [Snippet.pieces, piecesFrom, ho]
        · simp [Snippet.pieces, piecesFrom, hn, ho]
    · rw [pieces_cons hd fun h => absurd h hb]
      simp [hb, hd]

/-- What follows a char in the snippet is what follows it among the slots, a stop beginning with a dollar. -/
theorem apart_head?_iff : (∀ s ∈ slots.head?, Apart (.char c) s) ↔
    (c = '\\' → (write n slots).head? ≠ some '$') ∧
      (c = '$' → (write n slots).head?.any Char.isDigit = false ∧ (write n slots).head? ≠ some '\x7b') := by
  cases slots with
  | nil => simp [write]
  | cons s slots => cases s <;> simp [write, writeStop, Apart]

/-- **What is written is read as what it is meant to be just if all neighbours are kept apart.** -/
theorem pieces_write_iff (n : Nat) (slots : List Slot) :
    Snippet.pieces (write n slots) = pieces n slots ↔ slots.IsChain Apart := by
  induction slots generalizing n with
  | nil => exact ⟨fun _ => .nil, fun _ => rfl⟩
  | cons s slots ih =>
    rw [List.isChain_cons]
    cases s with
    | char c =>
      rw [apart_head?_iff (n := n), ← ih n, ← pieces_cons_iff]
      rfl
    | stop =>
      have hclosed : closesBraces 0 [] = true := rfl
      rw [← ih (n + 1), write, pieces_writeStop hclosed]
      constructor
      · exact fun h => ⟨fun _ _ => trivial, (List.cons.inj h).2⟩
      · exact fun h => congrArg (_ :: ·) h.2

/-! ## What is left behind -/

theorem textOf_pieces (n : Nat) (slots : List Slot) : textOf (pieces n slots) = text slots := by
  induction slots generalizing n with
  | nil => rfl
  | cons s slots ih =>
    cases s with
    | char c => exact congrArg (c :: ·) (ih n)
    | stop => exact ih (n + 1)

/-- The stops come in the order of their visits: those counted from one on. -/
theorem rank_min (hn : n ≠ 0) : rank (min maxOffset n) = min maxOffset n := by
  have hm : maxOffset ≠ 0 := by decide
  exact if_neg (by omega)

theorem le_of_mem_stopsFrom {stop : Nat × Nat} (hn : n ≠ 0) : ∀ {offset : Nat} {slots : List Slot},
    stop ∈ stopsFrom offset (pieces n slots) → min maxOffset n ≤ stop.1 := by
  intro offset slots
  induction slots generalizing n offset with
  | nil => exact nofun
  | cons s slots ih =>
    cases s with
    | char c => exact ih hn
    | stop =>
      intro h
      rcases List.mem_cons.1 h with rfl | h
      · exact Nat.le_of_eq (rank_min hn).symm
      · have hle := ih (Nat.succ_ne_zero n) h
        omega

theorem firstStop_pieces (hn : n ≠ 0) (offset : Nat) (slots : List Slot) :
    (firstStop (stopsFrom offset (pieces n slots))).map Prod.snd = (caret? slots).map (offset + ·) := by
  induction slots generalizing offset with
  | nil => rfl
  | cons s slots ih =>
    cases s with
    | char c =>
      refine (ih (offset + 1)).trans ?_
      rw [caret?, Option.map_map]
      exact congrArg (Option.map · _) (funext fun k => by simp only [Function.comp_apply]; omega)
    | stop =>
      have hs : stopsFrom offset (pieces n (.stop :: slots)) =
          (rank (min maxOffset n), offset) :: stopsFrom offset (pieces (n + 1) slots) := rfl
      have hf : firstStop (stopsFrom offset (pieces n (.stop :: slots))) = some (min maxOffset n, offset) := by
        rw [hs, rank_min hn]
        refine firstStop_eq_some_iff.2 ⟨[], _, rfl, nofun, fun s hs => ?_⟩
        have hle := le_of_mem_stopsFrom (Nat.succ_ne_zero n) hs
        dsimp only
        omega
      rw [hf]
      rfl

/-- **Flattening what is written leaves the chars, and the caret where the first stop was**, if all neighbours are kept
apart. -/
theorem flatten_write_of_apart (h : slots.IsChain Apart) : flatten (write 1 slots) = ⟨text slots, caret? slots⟩ := by
  unfold flatten
  rw [(pieces_write_iff 1 slots).2 h, textOf_pieces, firstStop_pieces (by decide) 0 slots]
  simp

/-! ## Fences -/

/-- A char that makes nothing of a neighbour, and of which no neighbour makes anything. -/
def IsFence (c : Char) : Prop := c ≠ '\\' ∧ c ≠ '$' ∧ c ≠ '\x7b' ∧ c.isDigit = false

instance : DecidablePred IsFence := fun c =>
  inferInstanceAs (Decidable (c ≠ '\\' ∧ c ≠ '$' ∧ c ≠ '\x7b' ∧ c.isDigit = false))

theorem IsFence.apart_left (h : IsFence f) (s : Slot) : Apart (.char f) s := by
  obtain ⟨hb, hd, -, -⟩ := h
  cases s with
  | char c => exact ⟨fun he => absurd he hb, fun he => absurd he hd⟩
  | stop => exact hb

theorem IsFence.apart_right (h : IsFence f) (s : Slot) : Apart s (.char f) := by
  obtain ⟨-, hd, ho, hn⟩ := h
  cases s with
  | char c => exact ⟨fun _ => hd, fun _ => ⟨hn, ho⟩⟩
  | stop => trivial

theorem IsFence.isChain_cons (h : IsFence f) : (.char f :: slots).IsChain Apart ↔ slots.IsChain Apart := by
  rw [List.isChain_cons]
  exact and_iff_right fun s _ => h.apart_left s

/-- **A fence parts slots in two.** -/
theorem IsFence.isChain_append (h : IsFence f) : (slots ++ .char f :: slots').IsChain Apart ↔
    slots.IsChain Apart ∧ slots'.IsChain Apart := by
  rw [List.isChain_append, h.isChain_cons]
  constructor
  · exact fun hc => ⟨hc.1, hc.2.1⟩
  · rintro ⟨hs, hs'⟩
    refine ⟨hs, hs', fun s _ s' hm => ?_⟩
    cases hm
    exact h.apart_right s

end Slot

/-- **The text can be written into a snippet as it is**, as far as it goes by itself: no dollar of it stands in front of a
digit or an opening brace, and none behind a backslash. -/
def Verbatim (t : Text) : Prop :=
  t.IsChain fun c d => (c = '\\' → d ≠ '$') ∧ (c = '$' → d.isDigit = false ∧ d ≠ '\x7b')

instance : DecidablePred Verbatim := fun t =>
  inferInstanceAs (Decidable (t.IsChain fun c d => (c = '\\' → d ≠ '$') ∧ (c = '$' → d.isDigit = false ∧ d ≠ '\x7b')))

theorem Slot.isChain_map_char {t : Text} : (t.map Slot.char).IsChain Apart ↔ Verbatim t := List.isChain_map _

end Shorthand.Snippet
