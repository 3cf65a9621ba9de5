import Mathlib.Data.List.Infix
import LuaTypings.Proofs.Text.Cut
import LuaTypings.Proofs.Text.Substitution

/-!
# Literal texts in what a substitution leaves

A substitution can bring a literal text about that was nowhere before: in what it writes, or across an end of it.
`not_isInfix_substituteFrom` says what excludes both. For a rule that writes one literal text for another this is a check
of the two texts (`keepsEnds`, `avoids`), and a rule that passes it leaves no place for itself and makes none for another
text (`not_isInfix_substitute_literalRule`).
-/

namespace LuaTypings.Text

variable {rule : Rule} {mark old new : Text}

/-! ## Literal rules -/

/-- A literal rule takes the one text and writes the other. -/
theorem literalRule_eq_some_iff {previous : Option Char} {t written rest : Text} :
    literalRule old new previous t = some (written, rest) ↔ t = old ++ rest ∧ written = new := by
  simp only [literalRule, Option.map_eq_some_iff, Prod.mk.injEq, dropStart?_eq_some_iff]
  constructor
  · rintro ⟨_, rfl, rfl, rfl⟩
    exact ⟨rfl, rfl⟩
  · rintro ⟨rfl, rfl⟩
    exact ⟨rest, rfl, rfl, rfl⟩

/-- A literal rule applies nowhere but in front of its text. -/
theorem literalRule_eq_none_iff {previous : Option Char} {t : Text} :
    literalRule old new previous t = none ↔ ¬ old <+: t := by
  rw [Option.eq_none_iff_forall_ne_some]
  constructor
  · rintro h ⟨rest, rfl⟩
    exact h (new, rest) (literalRule_eq_some_iff.mpr ⟨rfl, rfl⟩)
  · rintro h ⟨written, rest⟩ hrule
    exact h ⟨rest, (literalRule_eq_some_iff.mp hrule).1.symm⟩

/-- A literal rule takes its text. -/
theorem takes_literalRule (hne : old ≠ []) : (literalRule old new).Takes := fun _ _ _ _ h =>
  ⟨old, hne, (literalRule_eq_some_iff.mp h).1⟩

/-- A literal rule changes nothing in a text without its own. -/
theorem substitute_literalRule_of_not_isInfix {t : Text} (h : ¬ old <:+: t) (limit : Option Nat) :
    substitute (literalRule old new) limit t = t := by
  refine substituteFrom_of_isIdle (isIdle_iff.mpr fun before c after hsplit => ?_) limit
  rw [literalRule_eq_none_iff]
  rintro ⟨rest, hrest⟩
  exact h ⟨before, rest, by rw [hsplit, ← hrest, List.append_assoc]⟩

/-- Writing a shorter text makes a text shorter where it was found. -/
theorem length_substituteFrom_literalRule (hlength : new.length < old.length) (previous : Option Char) (t : Text) :
    (substituteFrom (literalRule old new) none 0 previous t).length ≤ t.length ∧
      (old <:+: t → (substituteFrom (literalRule old new) none 0 previous t).length < t.length) := by
  have hne : old ≠ [] := fun h => by simp [h] at hlength
  refine substituteFrom_induction (takes_literalRule hne)
    (motive := fun _ t u => u.length ≤ t.length ∧ (old <:+: t → u.length < t.length)) ?_ ?_ ?_ previous t
  · exact fun _ => ⟨Nat.le_refl _, fun h => absurd (List.infix_nil.mp h) hne⟩
  · rintro previous c t hnone ⟨hle, hlt⟩
    rw [literalRule_eq_none_iff] at hnone
    refine ⟨by simpa using hle, fun h => ?_⟩
    have hrest := hlt ((List.infix_cons_iff.mp h).resolve_left hnone)
    simpa using hrest
  · rintro previous taken rest written - hrule ⟨hle, -⟩
    obtain ⟨htaken, rfl⟩ := literalRule_eq_some_iff.mp hrule
    obtain rfl := List.append_cancel_right htaken
    simp only [List.length_append]
    exact ⟨by omega, fun _ => by omega⟩

/-- Writing a shorter text changes nothing exactly in a text without the longer one. -/
theorem substitute_literalRule_eq_self_iff (hlength : new.length < old.length) {t : Text} :
    substitute (literalRule old new) none t = t ↔ ¬ old <:+: t := by
  refine ⟨fun heq h => ?_, fun h => substitute_literalRule_of_not_isInfix h none⟩
  have hlt := (length_substituteFrom_literalRule hlength none t).2 h
  exact absurd (congrArg List.length heq) (Nat.ne_of_lt hlt)

/-! ## A mark in what is left -/

/-- Where what a rule writes starts with an end of the mark, so does what it takes. -/
def Rule.KeepsEnds (rule : Rule) (mark : Text) : Prop :=
  ∀ ⦃previous t written rest⦄, rule previous t = some (written, rest) →
    ∀ m, m <:+ mark → ∀ u, m <+: written ++ u → m <+: t

/-- An end of the mark at the start of what a substitution leaves was at the start before. -/
theorem isPrefix_of_substituteFrom (htakes : rule.Takes) (hends : rule.KeepsEnds mark) (previous : Option Char)
    (t : Text) : ∀ m, m <:+ mark → m <+: substituteFrom rule none 0 previous t → m <+: t := by
  refine substituteFrom_induction htakes
    (motive := fun _ t u => ∀ m, m <:+ mark → m <+: u → m <+: t) ?_ ?_ ?_ previous t
  · exact fun _ m _ h => h
  · intro previous c t _ ih m hm h
    cases m with
    | nil => exact List.nil_prefix
    | cons d m =>
      obtain ⟨rfl, hrest⟩ := List.cons_prefix_cons.mp h
      exact List.cons_prefix_cons.mpr ⟨rfl, ih m ((List.suffix_cons d m).trans hm) hrest⟩
  · exact fun previous taken rest written _ hrule _ m hm h => hends hrule m hm _ h

/-- A mark in two texts one behind the other is in the second, or starts in the first. -/
theorem isInfix_append {s u : Text} (h : mark <:+: s ++ u) :
    mark <:+: u ∨ ∃ r, r ≠ [] ∧ r <:+ s ∧ mark <+: r ++ u := by
  induction s with
  | nil => exact .inl h
  | cons c s ih =>
    rw [List.cons_append, List.infix_cons_iff] at h
    obtain h | h := h
    · exact .inr ⟨c :: s, List.cons_ne_nil c s, List.suffix_refl _, h⟩
    · exact (ih h).imp_right fun ⟨r, hne, hr, hmark⟩ => ⟨r, hne, hr.trans (List.suffix_cons c s), hmark⟩

/-- A mark without a character stands on one side of that character or on the other. -/
theorem isInfix_or_of_not_mem {c : Char} {s t : Text} (h : mark <:+: s ++ c :: t) (hc : c ∉ mark) :
    mark <:+: s ∨ mark <:+: t := by
  obtain hin | ⟨r, -, hr, hfirst⟩ := isInfix_append h
  · obtain hfirst | hin := List.infix_cons_iff.mp hin
    · have hnil : mark <+: [] := isPrefix_of_not_mem (s := []) hfirst hc
      exact .inl (hnil.isInfix.trans (List.nil_infix))
    · exact .inr hin
  · exact .inl ((isPrefix_of_not_mem hfirst hc).isInfix.trans hr.isInfix)

/-- A mark that lacks a character is in front of it, when it is not behind it. -/
theorem hasText_append_cons {c : Char} {t : Text} (hc : c ∉ mark) (ht : ¬ mark <:+: t) (s : Text) :
    hasText mark (s ++ c :: t) = hasText mark s := by
  rw [Bool.eq_iff_iff, hasText_iff, hasText_iff]
  refine ⟨fun h => ?_, fun h => h.trans (List.prefix_append s _).isInfix⟩
  exact (isInfix_or_of_not_mem h hc).resolve_right ht

/-- A mark that lacks a character is looked for behind it, when it is not in front of it. -/
theorem cutAt?_append_cons {c : Char} {s : Text} (hc : c ∉ mark) (hs : ¬ mark <:+: s) (t : Text) :
    cutAt? mark (s ++ c :: t) = (cutAt? mark t).map fun (head, rest) => (s ++ c :: head, rest) := by
  have hstart : ∀ {u : Text}, ¬ mark <+: u → dropStart? mark (u ++ c :: t) = none := by
    intro u hu
    rw [Option.eq_none_iff_forall_ne_some]
    intro rest hrest
    exact hu (isPrefix_of_not_mem ⟨rest, (dropStart?_eq_some_iff.mp hrest).symm⟩ hc)
  induction s with
  | nil =>
    have hnone : dropStart? mark (c :: t) = none := hstart (u := []) fun h => hs h.isInfix
    rw [List.nil_append, cutAt?, hnone]
    rfl
  | cons d s ih =>
    rw [List.infix_cons_iff, not_or] at hs
    have hnone : dropStart? mark (d :: (s ++ c :: t)) = none := hstart hs.1
    rw [List.cons_append, cutAt?, hnone, ih hs.2]
    cases cutAt? mark t <;> rfl

/-- A substitution leaves no mark when none stands at a kept place and none starts in what is written. Both may rest on
what is known of the text and of every end of it. -/
theorem not_isInfix_substituteFrom (htakes : rule.Takes) (hends : rule.KeepsEnds mark) (hmark : mark ≠ [])
    (known : Text → Prop) (hdrop : ∀ s t, known (s ++ t) → known t)
    (hkeep : ∀ previous c t, rule previous (c :: t) = none → known (c :: t) → ¬ mark <+: c :: t)
    (hwrite : ∀ previous taken rest written, rule previous (taken ++ rest) = some (written, rest) →
      known (taken ++ rest) → ∀ r, r ≠ [] → r <:+ written →
        ¬ mark <+: r ++ substituteFrom rule none 0 taken.getLast? rest)
    (previous : Option Char) (t : Text) (h : known t) : ¬ mark <:+: substituteFrom rule none 0 previous t := by
  revert h
  refine substituteFrom_induction htakes (motive := fun _ t u => known t → ¬ mark <:+: u) ?_ ?_ ?_ previous t
  · exact fun _ _ h => hmark (List.infix_nil.mp h)
  · intro previous c t hnone ih h hmem
    obtain hmem | hmem := List.infix_cons_iff.mp hmem
    · -- A mark that starts at a kept character goes on with an end of the mark.
      refine hkeep previous c t hnone h ?_
      cases mark with
      | nil => exact absurd rfl hmark
      | cons d m =>
        obtain ⟨rfl, hmem⟩ := List.cons_prefix_cons.mp hmem
        have hrest := isPrefix_of_substituteFrom htakes hends (some d) t m (List.suffix_cons d m) hmem
        exact List.cons_prefix_cons.mpr ⟨rfl, hrest⟩
    · exact ih (hdrop [c] t h) hmem
  · intro previous taken rest written _ hrule ih h hmem
    obtain hmem | ⟨r, hne, hr, hmem⟩ := isInfix_append hmem
    · exact ih (hdrop taken rest h) hmem
    · exact hwrite previous taken rest written hrule h r hne hr hmem

/-- A substitution leaves no mark that was nowhere before, when one that starts in what is written would be in what is
taken. -/
theorem not_isInfix_substituteFrom_of_taken (htakes : rule.Takes) (hends : rule.KeepsEnds mark) (hmark : mark ≠ [])
    (htaken : ∀ previous taken rest written, rule previous (taken ++ rest) = some (written, rest) →
      ∀ r, r ≠ [] → r <:+ written → ∀ u, mark <+: r ++ u → mark <:+: taken)
    (previous : Option Char) {t : Text} (h : ¬ mark <:+: t) :
    ¬ mark <:+: substituteFrom rule none 0 previous t := by
  refine not_isInfix_substituteFrom htakes hends hmark (¬ mark <:+: ·) ?_ ?_ ?_ previous t h
  · exact fun s t hnone hmem => hnone (hmem.trans (List.suffix_append s t).isInfix)
  · exact fun previous c t _ hnone hmem => hnone hmem.isInfix
  · intro previous taken rest written hrule hnone r hne hr hmem
    have hin := htaken previous taken rest written hrule r hne hr _ hmem
    exact hnone (hin.trans (List.prefix_append taken rest).isInfix)

/-- An end of two texts one behind the other is an end of the second, or an end of the first with the second behind it. -/
theorem isSuffix_append {r s t : Text} (h : r <:+ s ++ t) : r <:+ t ∨ ∃ a, a <:+ s ∧ r = a ++ t := by
  obtain ⟨front, hfront⟩ := h
  obtain ⟨x, hs, hr⟩ | ⟨x, -, ht⟩ := List.append_eq_append_iff.mp hfront
  · exact .inr ⟨x, ⟨front, hs.symm⟩, hr⟩
  · exact .inl ⟨x, ht.symm⟩

/-! ## A check of two literal texts -/

/-- Whether two texts agree as far as both go. -/
def agrees (s t : Text) : Bool := s.isPrefixOf t || t.isPrefixOf s

/-- Whether every end of the mark that could start what is written starts what is taken. -/
def keepsEnds (mark old new : Text) : Bool := mark.tails.all fun m => !agrees m new || m.isPrefixOf old

/-- Whether the mark could start nowhere in what is written. -/
def avoids (mark new : Text) : Bool := new.tails.all fun r => r.isEmpty || !agrees mark r

/-- A text agrees with what it starts with. -/
theorem agrees_of_isPrefix_append {m s u : Text} (h : m <+: s ++ u) : agrees m s = true := by
  rw [agrees, Bool.or_eq_true, List.isPrefixOf_iff_prefix, List.isPrefixOf_iff_prefix]
  exact List.prefix_or_prefix_of_prefix h (List.prefix_append s u)

/-- The check of the ends is sound. -/
theorem isPrefix_of_keepsEnds (h : keepsEnds mark old new = true) {m u : Text} (hm : m <:+ mark)
    (hmem : m <+: new ++ u) : m <+: old := by
  have hcheck := List.all_eq_true.mp h m ((List.mem_tails _ _).mpr hm)
  rwa [agrees_of_isPrefix_append hmem, Bool.not_true, Bool.false_or, List.isPrefixOf_iff_prefix] at hcheck

/-- The check of the ends is sound behind another text. -/
theorem isPrefix_append_of_keepsEnds (h : keepsEnds mark old new = true) {front m u : Text} (hm : m <:+ mark)
    (hmem : m <+: front ++ (new ++ u)) : m <+: front ++ old := by
  obtain ⟨v, hv⟩ := hmem
  obtain ⟨x, rfl, -⟩ | ⟨x, rfl, hx⟩ := List.append_eq_append_iff.mp hv
  · exact (List.prefix_append m x).trans (List.prefix_append _ _)
  · have hend : x <+: old := isPrefix_of_keepsEnds h ((List.suffix_append front x).trans hm) ⟨v, hx.symm⟩
    exact (List.prefix_append_right_inj front).mpr hend

/-- A literal rule keeps the ends of a mark that passes the check. -/
theorem keepsEnds_literalRule (h : keepsEnds mark old new = true) : (literalRule old new).KeepsEnds mark := by
  intro previous t written rest hrule m hm u hmem
  obtain ⟨rfl, rfl⟩ := literalRule_eq_some_iff.mp hrule
  exact (isPrefix_of_keepsEnds h hm hmem).trans (List.prefix_append old rest)

/-- An end of the mark at the start of a text stays there, when every end of it that could start what is taken starts what
is written. -/
theorem isPrefix_substituteFrom_literalRule (hold : old ≠ []) (h : keepsEnds mark new old = true)
    (previous : Option Char) (t : Text) :
    ∀ m, m <:+ mark → m <+: t → m <+: substituteFrom (literalRule old new) none 0 previous t := by
  refine substituteFrom_induction (takes_literalRule hold)
    (motive := fun _ t u => ∀ m, m <:+ mark → m <+: t → m <+: u) ?_ ?_ ?_ previous t
  · exact fun _ m _ h => h
  · intro previous c t _ ih m hm hmem
    cases m with
    | nil => exact List.nil_prefix
    | cons d m =>
      obtain ⟨rfl, hrest⟩ := List.cons_prefix_cons.mp hmem
      exact List.cons_prefix_cons.mpr ⟨rfl, ih m ((List.suffix_cons d m).trans hm) hrest⟩
  · intro previous taken rest written _ hrule _ m hm hmem
    obtain ⟨htaken, rfl⟩ := literalRule_eq_some_iff.mp hrule
    obtain rfl := List.append_cancel_right htaken
    exact (isPrefix_of_keepsEnds h hm hmem).trans (List.prefix_append _ _)

/-- The check of what is written is sound. -/
theorem not_isPrefix_of_avoids (h : avoids mark new = true) {r : Text} (hne : r ≠ []) (hr : r <:+ new) (u : Text) :
    ¬ mark <+: r ++ u := by
  intro hmem
  have hcheck := List.all_eq_true.mp h r ((List.mem_tails _ _).mpr hr)
  rw [agrees_of_isPrefix_append hmem, Bool.not_true, Bool.or_false, List.isEmpty_iff] at hcheck
  exact hne hcheck

/-- Writing one literal text for another leaves no place for itself, and makes none for a text that was nowhere before,
when the texts pass the check. -/
theorem not_isInfix_substitute_literalRule (hold : old ≠ []) (hmark : mark ≠ [])
    (hends : keepsEnds mark old new = true) (havoids : avoids mark new = true) {t : Text}
    (h : mark = old ∨ ¬ mark <:+: t) : ¬ mark <:+: substitute (literalRule old new) none t := by
  refine not_isInfix_substituteFrom (takes_literalRule hold) (keepsEnds_literalRule hends) hmark
    (fun t => mark = old ∨ ¬ mark <:+: t) ?_ ?_ ?_ none t h
  · exact fun s t hknown => hknown.imp_right fun hnone hmem => hnone (hmem.trans (List.suffix_append s t).isInfix)
  · rintro previous c t hnone (rfl | hknown)
    · exact literalRule_eq_none_iff.mp hnone
    · exact fun hmem => hknown hmem.isInfix
  · intro previous taken rest written hrule _ r hne hr
    obtain ⟨-, rfl⟩ := literalRule_eq_some_iff.mp hrule
    exact not_isPrefix_of_avoids havoids hne hr _

end LuaTypings.Text
