/-!
# Keyed values

A finite map as the list of its entries, the newest binding of a key being the only one.  The order of the entries is
that of the bindings and shows nowhere: a reader sees `get?` and the keys.
-/
namespace Shorthand

/-- A finite map from keys to values. -/
structure Keyed (κ α : Type) where
  entries : List (κ × α)
  deriving DecidableEq, Repr

namespace Keyed

variable {κ α : Type} [DecidableEq κ]

def empty : Keyed κ α := ⟨[]⟩

def get? (m : Keyed κ α) (k : κ) : Option α := (m.entries.find? fun e => e.1 = k).map Prod.snd

def erase (m : Keyed κ α) (k : κ) : Keyed κ α := ⟨m.entries.filter fun e => e.1 ≠ k⟩

def insert (m : Keyed κ α) (k : κ) (a : α) : Keyed κ α := ⟨(k, a) :: (m.erase k).entries⟩

def mapValues (f : α → α) (m : Keyed κ α) : Keyed κ α := ⟨m.entries.map fun e => (e.1, f e.2)⟩

def keys (m : Keyed κ α) : List κ := m.entries.map Prod.fst

def size (m : Keyed κ α) : Nat := m.entries.length

@[simp] theorem get?_empty (k : κ) : (empty : Keyed κ α).get? k = none := rfl

@[simp] theorem get?_erase (m : Keyed κ α) (k k' : κ) :
    (m.erase k).get? k' = if k' = k then none else m.get? k' := by
  unfold get? erase
  rw [List.find?_filter]
  split
  · next h =>
    rw [Option.map_eq_none_iff, List.find?_eq_none]
    intro e _
    simp only [decide_eq_true_eq, ne_eq, not_and]
    intro h₁ h₂
    exact h₁ (h₂.trans h)
  · next h =>
    congr 1
    apply congrArg (fun p => m.entries.find? p)
    funext e
    by_cases he : e.1 = k' <;> simp [he, h]

@[simp] theorem get?_insert (m : Keyed κ α) (k k' : κ) (a : α) :
    (m.insert k a).get? k' = if k' = k then some a else m.get? k' := by
  have h := get?_erase m k k'
  unfold get? at h ⊢
  by_cases hk : k = k'
  · simp [insert, hk]
  · rw [if_neg (Ne.symm hk)] at h ⊢
    simpa [insert, List.find?_cons, hk] using h

@[simp] theorem get?_mapValues (f : α → α) (m : Keyed κ α) (k : κ) : (m.mapValues f).get? k = (m.get? k).map f := by
  unfold get? mapValues
  rw [List.find?_map, Option.map_map, Option.map_map]
  rfl

omit [DecidableEq κ] in
theorem mapValues_id (m : Keyed κ α) : m.mapValues (fun a => a) = m :=
  congrArg Keyed.mk (List.map_id' m.entries)

omit [DecidableEq κ] in
theorem mapValues_mapValues (f g : α → α) (m : Keyed κ α) :
    (m.mapValues f).mapValues g = m.mapValues fun a => g (f a) := by
  unfold mapValues
  rw [List.map_map]
  rfl

end Keyed
end Shorthand
