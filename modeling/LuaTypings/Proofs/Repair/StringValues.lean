import Mathlib.Data.Option.Basic
import LuaTypings.Repair.Basic
import LuaTypings.Proofs.Text.Literal

/-!
# String values

The rule for string types with a value behind them takes the type and leaves the value (`stringValueRule_eq_some_iff`).
What is written is followed by a quote just before its end, so a value that ends as a string type does could go on with
the text behind it. Where no value ends so, the rule has no place left (`isIdle_substitute_stringValueRule`).
-/

namespace LuaTypings.Repair

open Text

/-- The string type in front of a value. -/
def typeLead : Text := ": string "

/-- What stands in front of a value alone. -/
def valueLead : Text := ": "

/-- A string type with a value behind it. -/
def typedValue (value : Text) : Text := typeLead ++ '"' :: (value ++ ['"', ';'])

/-- A value alone. -/
def bareValue (value : Text) : Text := valueLead ++ '"' :: (value ++ ['"', ';'])

/-- Whether a text can stand between quotes as a value. -/
def IsValue (value : Text) : Prop := value ≠ [] ∧ '"' ∉ value

/-- A text starts with a string type and a value. -/
def StartsTypedValue (t : Text) : Prop := ∃ value rest, IsValue value ∧ t = typedValue value ++ rest

/-- A value that ends as a string type does, up to the end of its line. -/
def typedEnd : Text := typeLead ++ ['"', ';']

variable {previous : Option Char} {t written rest : Text}

/-- A string type up to the quote in front of its value. -/
theorem dropStart?_typeLead_iff : dropStart? ": string \"" t = some rest ↔ t = typeLead ++ '"' :: rest := by
  have hlead : ": string \"".toList = typeLead ++ ['"'] := by decide
  rw [hlead, dropStart?_eq_some_iff, List.append_assoc, List.singleton_append]

/-- The rule takes a string type with a value and writes the value alone. -/
theorem stringValueRule_eq_some_iff :
    stringValueRule previous t = some (written, rest) ↔
      ∃ value, IsValue value ∧ t = typedValue value ++ rest ∧ written = bareValue value := by
  have hwritten : ∀ value : Text, ": \"".toList ++ value ++ "\";".toList = bareValue value := by
    intro value
    have hlead : ": \"".toList = valueLead ++ ['"'] := by decide
    have hend : "\";".toList = ['"', ';'] := by decide
    rw [hlead, hend, bareValue, List.append_assoc, List.append_assoc, List.singleton_append]
  rw [stringValueRule]
  constructor
  · intro h
    simp only [Option.bind_eq_bind, Option.bind_eq_some_iff] at h
    obtain ⟨afterType, htype, h⟩ := h
    split at h
    · rename_i value afterValue hvalue
      simp only [Option.bind_eq_some_iff, Option.guard_eq_some'] at h
      obtain ⟨_, hne, rest', hsemicolon, hresult⟩ := h
      obtain ⟨rfl, rfl⟩ := Prod.mk.inj (Option.some.inj hresult)
      obtain rfl := dropStart?_eq_some_iff.mp hsemicolon
      obtain ⟨rfl, hquote⟩ := cutAtChar_eq_some_iff.mp hvalue
      obtain rfl := dropStart?_typeLead_iff.mp htype
      refine ⟨value, ⟨by simpa using hne, hquote⟩, ?_, hwritten value⟩
      simp [typedValue]
    · cases h
  · rintro ⟨value, ⟨hne, hquote⟩, rfl, rfl⟩
    have htype : dropStart? ": string \"" (typedValue value ++ rest) = some (value ++ '"' :: ';' :: rest) :=
      dropStart?_typeLead_iff.mpr (by simp [typedValue])
    have hvalue := cutAtChar_append_cons hquote (';' :: rest)
    have hsemicolon : dropStart? ";".toList (';' :: rest) = some rest := dropStart?_eq_some_iff.mpr rfl
    simp only [htype, hvalue, hsemicolon, hwritten, Option.bind_eq_bind, Option.bind_some]
    simp [hne, guard]

/-- The rule applies nowhere but in front of a string type with a value. -/
theorem stringValueRule_eq_none_iff : stringValueRule previous t = none ↔ ¬ StartsTypedValue t := by
  rw [Option.eq_none_iff_forall_ne_some]
  constructor
  · rintro hnone ⟨value, rest, hvalue, rfl⟩
    exact hnone _ (stringValueRule_eq_some_iff.mpr ⟨value, hvalue, rfl, rfl⟩)
  · rintro hnot ⟨written, rest⟩ hsome
    obtain ⟨value, hvalue, ht, -⟩ := stringValueRule_eq_some_iff.mp hsome
    exact hnot ⟨value, rest, hvalue, ht⟩

/-- The rule takes the type with the value. -/
theorem takes_stringValueRule : stringValueRule.Takes := by
  intro previous t written rest h
  obtain ⟨value, -, rfl, -⟩ := stringValueRule_eq_some_iff.mp h
  exact ⟨typedValue value, by simp [typedValue], rfl⟩

/-! ## Places in a value alone -/

/-- An end of a value alone starts in front of its first quote, in the value, or behind it. -/
theorem isSuffix_bareValue {value r : Text} (hr : r <:+ bareValue value) (hne : r ≠ []) :
    (∃ a, a <:+ valueLead ∧ r = a ++ '"' :: (value ++ ['"', ';'])) ∨
      (∃ b, b <:+ value ∧ r = b ++ ['"', ';']) ∨ r = [';'] := by
  obtain hr | hr := isSuffix_append hr
  · obtain rfl | hr := List.suffix_cons_iff.mp hr
    · exact .inl ⟨[], List.nil_suffix, rfl⟩
    · obtain hr | hr := isSuffix_append hr
      · obtain rfl | hr := List.suffix_cons_iff.mp hr
        · exact .inr (.inl ⟨[], List.nil_suffix, rfl⟩)
        · obtain rfl | hr := List.suffix_cons_iff.mp hr
          · exact .inr (.inr rfl)
          · exact absurd (List.suffix_nil.mp hr) hne
      · exact .inr (.inl hr)
  · exact .inl hr

/-- A string type starts in a value alone only when the value ends in one. -/
theorem typedEnd_isInfix {value r u : Text} (hvalue : IsValue value) (hr : r <:+ bareValue value) (hne : r ≠ [])
    (h : StartsTypedValue (r ++ u)) : typedEnd <:+: typedValue value := by
  obtain ⟨other, rest, -, heq⟩ := h
  have hlead : '"' ∉ typeLead := by decide
  obtain ⟨a, ha, rfl⟩ | ⟨b, hb, rfl⟩ | rfl := isSuffix_bareValue hr hne
  · have hquote : '"' ∉ a := fun hmem => absurd (ha.subset hmem) (by decide)
    have hcut : a ++ '"' :: (value ++ '"' :: ';' :: u) = typeLead ++ '"' :: (other ++ '"' :: ';' :: rest) := by
      simpa [typedValue] using heq
    obtain ⟨rfl, -⟩ := eq_of_first_append_cons hcut hquote hlead
    exact absurd ha (by decide)
  · have hquote : '"' ∉ b := fun hmem => hvalue.2 (hb.subset hmem)
    have hcut : b ++ '"' :: ';' :: u = typeLead ++ '"' :: (other ++ '"' :: ';' :: rest) := by
      simpa [typedValue] using heq
    obtain ⟨rfl, -⟩ := eq_of_first_append_cons hcut hquote hlead
    obtain ⟨front, rfl⟩ := hb
    exact ⟨typeLead ++ '"' :: front, [], by simp [typedEnd, typedValue]⟩
  · have hcolon : typeLead = ':' :: " string ".toList := by decide
    rw [typedValue, hcolon] at heq
    exact absurd (List.cons.inj heq).1 (by decide)

/-- A string type that starts in front of a value alone starts there as well when the value still has its type. -/
theorem StartsTypedValue.of_bareValue {value s u : Text} (hvalue : IsValue value)
    (h : StartsTypedValue (s ++ (bareValue value ++ u))) (rest : Text) :
    StartsTypedValue (s ++ (typedValue value ++ rest)) := by
  obtain ⟨other, rest', hother, heq⟩ := h
  have hcut : s ++ valueLead ++ '"' :: (value ++ '"' :: ';' :: u) =
      typeLead ++ '"' :: (other ++ '"' :: ';' :: rest') := by
    simpa [bareValue, typedValue] using heq
  obtain ⟨hlead, -⟩ | ⟨m, hm, hcut⟩ := eq_or_of_append_cons_eq hcut (by decide)
  · -- The quote of the value would be that of the type, but they stand behind different texts.
    exact absurd ⟨s, hlead⟩ (by decide : ¬ valueLead <:+ typeLead)
  obtain ⟨a, rfl, rfl⟩ := eq_append_cons_of_append_eq hm (by decide)
  obtain ⟨rfl, hsemicolon⟩ | ⟨m, hm, hrest⟩ := eq_or_of_append_cons_eq hcut.symm hother.2
  · -- The quote of the value ends the other one. With its type in front it does so, too.
    obtain ⟨c, value, rfl⟩ := List.exists_cons_of_ne_nil hvalue.1
    obtain ⟨rfl, -⟩ := List.cons.inj hsemicolon
    have hquote : '"' ∉ a ++ typeLead := by
      have hlead : '"' ∉ typeLead := by decide
      have ha : '"' ∉ a := fun hmem => hother.2 (List.mem_append_left _ hmem)
      simp [ha, hlead]
    have hne : a ++ typeLead ≠ [] := List.append_ne_nil_of_right_ne_nil a (by decide)
    exact ⟨a ++ typeLead, value ++ '"' :: ';' :: rest, ⟨hne, hquote⟩, by simp [typedValue]⟩
  · -- The other value ends before.
    cases m with
    | nil => exact absurd (List.cons.inj hrest).1 (by decide)
    | cons c m =>
      obtain ⟨rfl, -⟩ := List.cons.inj hrest
      have hend : a ++ valueLead = (other ++ ['"']) ++ ';' :: m := by simpa using hm
      obtain ⟨b, rfl, -⟩ := eq_append_cons_of_append_eq hend (by decide)
      exact ⟨other, b ++ (typedValue value ++ rest), hother, by simp [typedValue]⟩

/-! ## What the rule leaves -/

/-- Taking types away brings no other one in front of a value. -/
theorem StartsTypedValue.of_substitute (previous : Option Char) (t : Text) :
    ∀ s, StartsTypedValue (s ++ substituteFrom stringValueRule none 0 previous t) → StartsTypedValue (s ++ t) := by
  refine starts_of_substituteFrom takes_stringValueRule (fun previous taken rest written hrule s u h => ?_) previous t
  obtain ⟨value, hvalue, htaken, rfl⟩ := stringValueRule_eq_some_iff.mp hrule
  obtain rfl := List.append_cancel_right htaken
  exact StartsTypedValue.of_bareValue hvalue h rest

/-- What ends in a quoted value ends in a semicolon. -/
theorem getLast?_quoted (lead value : Text) : (lead ++ '"' :: (value ++ ['"', ';'])).getLast? = some ';' := by
  have hend : lead ++ '"' :: (value ++ ['"', ';']) = (lead ++ '"' :: (value ++ ['"'])) ++ [';'] := by simp
  rw [hend, List.getLast?_concat]

/-- Where no value ends as a string type does, the rule leaves no place for itself. -/
theorem isIdle_substitute_stringValueRule (previous : Option Char) {t : Text} (h : ¬ typedEnd <:+: t) :
    stringValueRule.IsIdle previous (substituteFrom stringValueRule none 0 previous t) := by
  refine isIdle_substituteFrom takes_stringValueRule (fun _ t => ¬ typedEnd <:+: t) ?_ ?_ previous t h
  · intro previous c t hnone h
    refine ⟨?_, fun hmem => h (hmem.trans (List.suffix_cons c t).isInfix)⟩
    rw [stringValueRule_eq_none_iff] at hnone ⊢
    exact fun hstarts => hnone (StartsTypedValue.of_substitute (some c) t [c] hstarts)
  · intro previous taken rest written hrule h
    obtain ⟨value, hvalue, htaken, rfl⟩ := stringValueRule_eq_some_iff.mp hrule
    obtain rfl := List.append_cancel_right htaken
    refine ⟨(getLast?_quoted valueLead value).trans (getLast?_quoted typeLead value).symm,
      fun hmem => h (hmem.trans (List.suffix_append _ rest).isInfix), fun before c after hsplit place u => ?_⟩
    rw [stringValueRule_eq_none_iff]
    intro hstarts
    have hend := typedEnd_isInfix hvalue ⟨before, hsplit.symm⟩ (List.cons_ne_nil c after) hstarts
    exact h (hend.trans (List.prefix_append _ rest).isInfix)

/-- Taking types away brings no text about that has no quote and starts neither as a value does nor as it ends. -/
theorem not_isInfix_substitute_stringValueRule {c : Char} {m t : Text} (hquote : '"' ∉ c :: m)
    (hc : c ∉ valueLead ++ [';']) (h : ¬ c :: m <:+: t) : ¬ c :: m <:+: substitute stringValueRule none t := by
  refine not_isInfix_substituteFrom_of_taken takes_stringValueRule ?_ (List.cons_ne_nil c m) ?_ none h
  · intro previous t written rest hrule n hn u hmem
    obtain ⟨value, -, rfl, rfl⟩ := stringValueRule_eq_some_iff.mp hrule
    rw [bareValue, List.append_assoc, List.cons_append] at hmem
    have hlead : n <+: valueLead := isPrefix_of_not_mem hmem fun hin => hquote (hn.subset hin)
    rw [typedValue, List.append_assoc]
    exact (hlead.trans (by decide : valueLead <+: typeLead)).trans (List.prefix_append _ _)
  · intro previous taken rest written hrule r hne hr u hmem
    obtain ⟨value, hvalue, htaken, rfl⟩ := stringValueRule_eq_some_iff.mp hrule
    obtain rfl := List.append_cancel_right htaken
    rw [List.mem_append, List.mem_singleton, not_or] at hc
    obtain ⟨a, ha, rfl⟩ | ⟨b, hb, rfl⟩ | rfl := isSuffix_bareValue hr hne
    · rw [List.append_assoc, List.cons_append] at hmem
      have hin := (isPrefix_of_not_mem hmem hquote).subset List.mem_cons_self
      exact absurd (ha.subset hin) hc.1
    · have hin : c :: m <+: b ++ '"' :: ';' :: u := by simpa using hmem
      have hvalue : c :: m <:+: value := (isPrefix_of_not_mem hin hquote).isInfix.trans hb.isInfix
      exact hvalue.trans ⟨typeLead ++ ['"'], ['"', ';'], by simp [typedValue]⟩
    · exact absurd (List.cons_prefix_cons.mp hmem).1 hc.2

end LuaTypings.Repair
