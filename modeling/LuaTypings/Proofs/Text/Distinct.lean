import Mathlib.Data.List.Induction
import Mathlib.Data.List.Nodup
import LuaTypings.Proofs.Text.Cut

/-!
# Joined texts without repeats

Of equal elements of a list only the first may be kept (`eraseDups_concat`, `nodup_eraseDups`). When the elements are
texts that are joined, one more text either changes nothing or is written behind a further separator
(`joinDistinct_concat_of_mem`, `joinDistinct_concat_of_not_mem`).
-/

namespace LuaTypings

/-! ## Without repeats -/

/-- One more element of a list without repeats is new or changes nothing. -/
theorem eraseDups_concat {α : Type} [BEq α] [LawfulBEq α] (l : List α) (a : α) :
    (l ++ [a]).eraseDups = if a ∈ l then l.eraseDups else l.eraseDups ++ [a] := by
  rw [List.eraseDups_append]
  by_cases h : a ∈ l
  · simp [h, List.removeAll]
  · simp [h, List.removeAll, List.eraseDups_cons]

/-- A list without repeats has none. -/
theorem nodup_eraseDups {α : Type} [BEq α] [LawfulBEq α] (l : List α) : l.eraseDups.Nodup := by
  induction l using List.reverseRecOn with
  | nil => exact List.nodup_nil
  | append_singleton l a ih =>
    rw [eraseDups_concat]
    split
    · exact ih
    · rename_i h
      rw [← List.concat_eq_append]
      exact ih.concat (by rwa [List.mem_eraseDups])

/-- A list with an element still has one when repeats are left out. -/
theorem eraseDups_ne_nil {α : Type} [BEq α] [LawfulBEq α] {l : List α} (h : l ≠ []) : l.eraseDups ≠ [] := by
  obtain ⟨a, ha⟩ := List.exists_mem_of_ne_nil l h
  exact List.ne_nil_of_mem (List.mem_eraseDups.mpr ha)

namespace Text

/-! ## Joined texts -/

/-- The texts one after another with a separator between neighbours, where repeated ones are written once. -/
def joinDistinct (separator : Text) (parts : List Text) : Text := join separator parts.eraseDups

variable {separator s t : Text} {parts : List Text}

/-- A text that is among the others changes nothing behind them. -/
theorem joinDistinct_concat_of_mem (h : t ∈ parts) :
    joinDistinct separator (parts ++ [t]) = joinDistinct separator parts := by
  rw [joinDistinct, eraseDups_concat, if_pos h, joinDistinct]

/-- A text that is not among the others is written behind them. -/
theorem joinDistinct_concat_of_not_mem (hne : parts ≠ []) (h : t ∉ parts) :
    joinDistinct separator (parts ++ [t]) = joinDistinct separator parts ++ separator ++ t := by
  rw [joinDistinct, eraseDups_concat, if_neg h, join_concat separator (eraseDups_ne_nil hne), joinDistinct]

/-- A single text is joined to nothing. -/
theorem joinDistinct_singleton (separator t : Text) : joinDistinct separator [t] = t := by
  have honce : [t].eraseDups = [t] := by simp [List.eraseDups_cons]
  rw [joinDistinct, honce, join_singleton]

/-- One more text changes the joined texts unless it is among them. -/
theorem joinDistinct_concat_eq_self_iff (hseparator : separator ≠ []) (hne : parts ≠ []) :
    joinDistinct separator (parts ++ [t]) = joinDistinct separator parts ↔ t ∈ parts := by
  refine ⟨fun heq => ?_, joinDistinct_concat_of_mem⟩
  by_contra hnew
  rw [joinDistinct_concat_of_not_mem hne hnew, List.append_assoc, List.append_right_eq_self] at heq
  exact hseparator (List.append_eq_nil_iff.mp heq).1

/-- Two texts are joined to the same when they are equal, or when both are among the texts in front of them. -/
theorem joinDistinct_concat_eq_iff (hseparator : separator ≠ []) :
    joinDistinct separator (parts ++ [s]) = joinDistinct separator (parts ++ [t]) ↔ s = t ∨ s ∈ parts ∧ t ∈ parts := by
  by_cases hne : parts = []
  · simp [hne, joinDistinct_singleton]
  refine ⟨fun heq => ?_, ?_⟩
  · by_cases hs : s ∈ parts
    · rw [joinDistinct_concat_of_mem hs] at heq
      exact .inr ⟨hs, (joinDistinct_concat_eq_self_iff hseparator hne).mp heq.symm⟩
    · by_cases ht : t ∈ parts
      · rw [joinDistinct_concat_of_mem ht] at heq
        exact absurd ((joinDistinct_concat_eq_self_iff hseparator hne).mp heq) hs
      · rw [joinDistinct_concat_of_not_mem hne hs, joinDistinct_concat_of_not_mem hne ht] at heq
        exact .inl (List.append_cancel_left heq)
  · rintro (rfl | ⟨hs, ht⟩)
    · rfl
    · rw [joinDistinct_concat_of_mem hs, joinDistinct_concat_of_mem ht]

/-- One more text makes the joined texts no shorter. -/
theorem length_joinDistinct_le_concat (separator : Text) (parts : List Text) (t : Text) :
    (joinDistinct separator parts).length ≤ (joinDistinct separator (parts ++ [t])).length := by
  by_cases h : t ∈ parts
  · rw [joinDistinct_concat_of_mem h]
  · by_cases hne : parts = []
    · rw [hne]
      exact Nat.zero_le _
    · rw [joinDistinct_concat_of_not_mem hne h, List.append_assoc, List.length_append]
      exact Nat.le_add_right _ _

/-- One more text makes the joined texts longer by itself and a separator at most. -/
theorem length_joinDistinct_concat_le (separator : Text) (parts : List Text) (t : Text) :
    (joinDistinct separator (parts ++ [t])).length ≤ (joinDistinct separator parts).length + (separator ++ t).length := by
  by_cases hne : parts = []
  · rw [hne, List.nil_append, joinDistinct_singleton, List.length_append]
    omega
  · by_cases h : t ∈ parts
    · rw [joinDistinct_concat_of_mem h]
      exact Nat.le_add_right _ _
    · rw [joinDistinct_concat_of_not_mem hne h, List.append_assoc, List.length_append]

end Text

end LuaTypings
