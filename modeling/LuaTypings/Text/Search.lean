import LuaTypings.Text.Basic

/-!
# Finding and cutting

Literal text at the start, at the end or anywhere in a text. Each function gives back what stands beside
the mark that it found, so that nothing is cut twice. What it gives back and the mark make up the text
(`dropStart?_eq_some_iff`, `dropEnd?_eq_some_iff`, `eq_append_of_cutAt?`).
-/

namespace LuaTypings.Text

/-- What follows the mark in a text that starts with it. -/
def dropStart? : Text → Text → Option Text
  | [], t => some t
  | _ :: _, [] => none
  | m :: mark, c :: t => if m = c then dropStart? mark t else none

/-- A text is what `dropStart?` leaves, with the mark in front. -/
theorem dropStart?_eq_some_iff {mark t rest : Text} : dropStart? mark t = some rest ↔ t = mark ++ rest := by
  induction mark generalizing t with
  | nil => simp [dropStart?, eq_comm]
  | cons m mark ih =>
    cases t with
    | nil => simp [dropStart?]
    | cons c t =>
      by_cases h : m = c
      · simp [dropStart?, h, ih]
      · simp [dropStart?, h, Ne.symm h]

/-- What comes before the mark in a text that ends with it. -/
def dropEnd? (mark t : Text) : Option Text := (dropStart? mark.reverse t.reverse).map List.reverse

/-- A text is what `dropEnd?` leaves, with the mark behind it. -/
theorem dropEnd?_eq_some_iff {mark t rest : Text} : dropEnd? mark t = some rest ↔ t = rest ++ mark := by
  rw [dropEnd?, Option.map_eq_some_iff]
  constructor
  · rintro ⟨r, hr, rfl⟩
    rw [dropStart?_eq_some_iff] at hr
    rw [← List.reverse_reverse t, hr, List.reverse_append, List.reverse_reverse]
  · rintro rfl
    exact ⟨rest.reverse, dropStart?_eq_some_iff.mpr (by simp), by simp⟩

/-- The mark behind a text is found. -/
theorem dropEnd?_append (mark t : Text) : dropEnd? mark (t ++ mark) = some t := dropEnd?_eq_some_iff.mpr rfl

/-- Whether the text starts with the mark. -/
def startsWith (mark t : Text) : Bool := mark.isPrefixOf t

/-- Whether the text ends with the mark. -/
def endsWith (mark t : Text) : Bool := mark.isSuffixOf t

/-- What stands before and after the first place where the mark occurs. -/
def cutAt? (mark : Text) : Text → Option (Text × Text)
  | [] => if mark = [] then some ([], []) else none
  | c :: t =>
    match dropStart? mark (c :: t) with
    | some rest => some ([], rest)
    | none => (cutAt? mark t).map fun (before, after) => (c :: before, after)

/-- A cut at a mark gives back the text with the mark taken out. -/
theorem eq_append_of_cutAt? {mark t head rest : Text} (h : cutAt? mark t = some (head, rest)) :
    t = head ++ (mark ++ rest) := by
  induction t generalizing head with
  | nil =>
    rw [cutAt?] at h
    split at h
    · rename_i hmark
      obtain ⟨rfl, rfl⟩ := Prod.mk.inj (Option.some.inj h)
      rw [hmark]
      rfl
    · cases h
  | cons c t ih =>
    rw [cutAt?] at h
    split at h
    · rename_i rest' hdrop
      obtain ⟨rfl, rfl⟩ := Prod.mk.inj (Option.some.inj h)
      rw [List.nil_append]
      exact dropStart?_eq_some_iff.mp hdrop
    · obtain ⟨⟨head', rest'⟩, hcut, heq⟩ := Option.map_eq_some_iff.mp h
      obtain ⟨rfl, rfl⟩ := Prod.mk.inj heq
      rw [List.cons_append, ← ih hcut]

/-- The text up to the first occurrence of the mark, all of it when there is none. -/
def before (mark t : Text) : Text :=
  match cutAt? mark t with
  | some (head, _) => head
  | none => t

/-- What stands before the first such character, and after it when there is one. -/
def cutAtChar (c : Char) (t : Text) : Text × Option Text :=
  match t.span (· ≠ c) with
  | (head, []) => (head, none)
  | (head, _ :: rest) => (head, some rest)

/-- Whether the mark occurs anywhere in the text. -/
def hasText (mark t : Text) : Bool := (cutAt? mark t).isSome

/-- A mark is found in a text exactly when it is a part of it. -/
theorem hasText_iff {mark t : Text} : hasText mark t = true ↔ mark <:+: t := by
  induction t with
  | nil => by_cases h : mark = [] <;> simp [hasText, cutAt?, h]
  | cons c t ih =>
    rw [hasText, cutAt?, List.infix_cons_iff, ← ih]
    cases hstart : dropStart? mark (c :: t) with
    | some rest => simp [dropStart?_eq_some_iff.mp hstart]
    | none =>
      have hfirst : ¬ mark <+: c :: t := by
        rintro ⟨rest, hrest⟩
        rw [dropStart?_eq_some_iff.mpr hrest.symm] at hstart
        cases hstart
      simp [hfirst, hasText]

end LuaTypings.Text
