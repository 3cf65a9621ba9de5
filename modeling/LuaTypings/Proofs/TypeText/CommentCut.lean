import LuaTypings.Proofs.Text.Literal
import LuaTypings.Proofs.TypeText.Prose

/-!
# Where a comment is cut off

Two marks start a comment, and a text is cut at one after the other, trimmed in between. Neither mark starts inside the
other (`avoids`), and neither ends in a blank. So a cut at the one never cuts through the other (`IsFirstCut.before`),
trimming takes no mark away (`strip_before_strip`), and the two cuts are one cut at the first place of either mark,
whichever is made first (`withoutComment_first_mark`).
-/

namespace LuaTypings

namespace Text

variable {marks more : List Text} {mark t head rest : Text}

/-! ## The first of several marks -/

/-- A text is cut in front of the first place at which one of the marks starts, or behind its end when there is none. -/
structure IsFirstCut (marks : List Text) (t head rest : Text) : Prop where
  /-- The two sides of the cut make up the text. -/
  append_eq : head ++ rest = t
  /-- One of the marks starts behind the cut, unless nothing stands there. -/
  at_mark : rest = [] ∨ ∃ mark ∈ marks, mark <+: rest
  /-- None of the marks starts in front of the cut. -/
  first : ∀ u v, u ++ v = head → v ≠ [] → ∀ mark ∈ marks, ¬ mark <+: v ++ rest

/-- A cut at more marks is no later. -/
theorem IsFirstCut.isPrefix_of_subset {head' rest' : Text} (h : IsFirstCut marks t head rest)
    (h' : IsFirstCut more t head' rest') (hsub : marks ⊆ more) : head' <+: head := by
  have hwhole : head ++ rest = head' ++ rest' := h.append_eq.trans h'.append_eq.symm
  obtain ⟨v, rfl, hrest⟩ | ⟨v, rfl, -⟩ := List.append_eq_append_iff.mp hwhole
  · by_cases hv : v = []
    · rw [hv, List.append_nil]
    · -- The mark behind the one cut stands in front of the other.
      have hne : rest ≠ [] := by
        rw [hrest]
        exact List.append_ne_nil_of_left_ne_nil hv rest'
      obtain ⟨mark, hmem, hmark⟩ := h.at_mark.resolve_left hne
      exact absurd (hrest ▸ hmark) (h'.first head v rfl hv mark (hsub hmem))
  · exact List.prefix_append head' v

/-- A text has one first cut at the same marks, in whatever order they are given. -/
theorem IsFirstCut.head_eq {head' rest' : Text} (h : IsFirstCut marks t head rest) (h' : IsFirstCut more t head' rest')
    (hsame : ∀ mark, mark ∈ marks ↔ mark ∈ more) : head = head' :=
  (h'.isPrefix_of_subset h fun mark hmem => (hsame mark).mpr hmem).eq_of_length_le
    (h.isPrefix_of_subset h' fun mark hmem => (hsame mark).mp hmem).length_le

/-- A text is cut at a mark in front of its first place. -/
theorem exists_isFirstCut_before (mark t : Text) : ∃ rest, IsFirstCut [mark] t (before mark t) rest := by
  induction t with
  | nil =>
    have hnil : before mark [] = [] := List.prefix_nil.mp (isPrefix_before mark [])
    rw [hnil]
    exact ⟨[], rfl, .inl rfl, fun u v h hv => absurd (List.append_eq_nil_iff.mp h).2 hv⟩
  | cons c t ih =>
    by_cases hfirst : mark <+: c :: t
    · rw [before_of_isPrefix hfirst]
      exact ⟨c :: t, rfl, .inr ⟨mark, List.mem_singleton_self mark, hfirst⟩,
        fun u v h hv => absurd (List.append_eq_nil_iff.mp h).2 hv⟩
    · obtain ⟨rest, hcut⟩ := ih
      rw [before_cons_of_not_isPrefix hfirst]
      refine ⟨rest, congrArg (c :: ·) hcut.append_eq, hcut.at_mark, fun u v h hv => ?_⟩
      cases u with
      | nil =>
        obtain rfl : v = c :: before mark t := h
        rw [List.cons_append, hcut.append_eq]
        exact List.forall_mem_singleton.mpr hfirst
      | cons d u => exact hcut.first u v (List.cons.inj h).2 hv

/-- A mark in which none of several others starts does not reach across a cut at them. -/
theorem IsFirstCut.isPrefix_of_avoids (h : IsFirstCut marks t head rest)
    (hmark : ∀ other ∈ marks, avoids other mark = true) {s : Text} (hstart : mark <+: s ++ rest) : mark <+: s := by
  obtain ⟨w, hw⟩ := hstart
  obtain ⟨x, hx, -⟩ | ⟨x, hx, hrest⟩ := List.append_eq_append_iff.mp hw
  · exact ⟨x, hx.symm⟩
  · by_cases hne : x = []
    · rw [hx, hne, List.append_nil]
    · -- An end of the mark stands behind the cut, where another mark starts.
      have hrest' : rest ≠ [] := by
        rw [hrest]
        exact List.append_ne_nil_of_left_ne_nil hne w
      obtain ⟨other, hother, hstart⟩ := h.at_mark.resolve_left hrest'
      exact absurd (hrest ▸ hstart) (not_isPrefix_of_avoids (hmark other hother) hne ⟨s, hx.symm⟩ w)

/-- What stands in front of the first of several marks is cut at one more mark, when none of them starts inside it. -/
theorem IsFirstCut.before (h : IsFirstCut marks t head rest) (mark : Text)
    (hmark : ∀ other ∈ marks, avoids other mark = true) :
    ∃ rest', IsFirstCut (mark :: marks) t (before mark head) rest' := by
  obtain ⟨behind, hcut⟩ := exists_isFirstCut_before mark head
  refine ⟨behind ++ rest, ?_, ?_, fun u v huv hv => ?_⟩
  · rw [← List.append_assoc, hcut.append_eq, h.append_eq]
  · obtain rfl | ⟨other, hother, hstart⟩ := hcut.at_mark
    · exact h.at_mark.imp_right fun ⟨other, hother, hstart⟩ => ⟨other, List.mem_cons_of_mem mark hother, hstart⟩
    · obtain rfl := List.mem_singleton.mp hother
      exact .inr ⟨other, List.mem_cons_self, hstart.trans (List.prefix_append behind rest)⟩
  · rw [← List.append_assoc]
    refine List.forall_mem_cons.mpr ⟨fun hstart => ?_, fun other hother => ?_⟩
    · exact hcut.first u v huv hv mark (List.mem_singleton_self mark) (h.isPrefix_of_avoids hmark hstart)
    · refine h.first u (v ++ behind) ?_ (List.append_ne_nil_of_left_ne_nil hv behind) other hother
      rw [← List.append_assoc, huv, hcut.append_eq]

/-- Of two marks neither of which starts inside the other, either can be cut at first. -/
theorem before_before_comm {m n : Text} (hmn : avoids m n = true) (hnm : avoids n m = true) (t : Text) :
    before n (before m t) = before m (before n t) := by
  obtain ⟨_, hm⟩ := exists_isFirstCut_before m t
  obtain ⟨_, hn⟩ := exists_isFirstCut_before n t
  obtain ⟨_, hfirst⟩ := hm.before n (List.forall_mem_singleton.mpr hmn)
  obtain ⟨_, hsecond⟩ := hn.before m (List.forall_mem_singleton.mpr hnm)
  exact hfirst.head_eq hsecond fun mark => by simp [or_comm]

/-! ## Trimming -/

/-- A mark that does not end in a blank does not reach into blanks at the end of a text. -/
theorem isInfix_of_append_blanks {w : Text} (hw : ∀ c ∈ w, isBlank c = true) {c : Char} (hlast : mark.getLast? = some c)
    (hc : isBlank c = false) (h : mark <:+: t ++ w) : mark <:+: t := by
  obtain ⟨front, rfl⟩ := List.getLast?_eq_some_iff.mp hlast
  obtain ⟨u, v, huv⟩ := h
  have hmem : c ∉ w := fun hmem => ne_of_isBlank (hw c hmem) hc rfl
  have hplace : t ++ w = (u ++ front) ++ c :: v := by
    rw [← huv]
    simp
  obtain ⟨a, ha, -⟩ := eq_append_cons_of_append_eq hplace hmem
  exact ⟨u, a, by rw [ha]; simp⟩

/-- A text that starts with no blank can be trimmed before it is cut at a mark that does not end in a blank. -/
theorem strip_before_strip (hstart : ∀ c ∈ t.head?, isBlank c = false) {c : Char} (hlast : mark.getLast? = some c)
    (hc : isBlank c = false) : strip (before mark (strip t)) = strip (before mark t) := by
  obtain ⟨w, hw, hwhole⟩ : ∃ w, (∀ c ∈ w, isBlank c = true) ∧ strip t ++ w = t := by
    rw [strip, stripStart_eq_self_iff.mpr hstart]
    exact exists_stripEnd_append t
  by_cases hmark : mark <:+: strip t
  · have hcut := before_append_of_isInfix hmark w
    rw [hwhole] at hcut
    rw [hcut]
  · have hnone : ¬ mark <:+: t := fun hin => hmark (isInfix_of_append_blanks hw hlast hc (hwhole.symm ▸ hin))
    rw [before_eq_self hmark, before_eq_self hnone, strip_strip]

end Text

namespace TypeText

open Text

/-! ## Comments -/

/-- The marks that start a comment. -/
def commentMarks : List Text := [" --", "  #"]

/-- A trimmed text that is cut at two marks, and trimmed in between, can be trimmed after both cuts. -/
theorem strip_before_strip_before {m n : Text} {c : Char} (hlast : n.getLast? = some c) (hc : isBlank c = false)
    (t : Text) : strip (before n (strip (before m (strip t)))) = strip (before n (before m (strip t))) := by
  refine strip_before_strip (fun d hd => ?_) hlast hc
  have hhead : ∀ d ∈ (strip t).head?, isBlank d = false := (strip_eq_self_iff.mp (strip_strip t)).1
  obtain ⟨rest, hrest⟩ := isPrefix_before m (strip t)
  refine hhead d ?_
  rw [← hrest]
  exact List.mem_head?_append_of_mem_head? hd

/-- A comment is cut off by two cuts of the trimmed text. -/
theorem withoutComment_eq (t : Text) : withoutComment t = strip (before "  #" (before " --" (strip t))) :=
  strip_before_strip_before (n := "  #") rfl (by decide) t

/-- The two cuts are the first cut at either mark. -/
theorem exists_isFirstCut_commentMarks (t : Text) :
    ∃ rest, IsFirstCut commentMarks t (before "  #" (before " --" t)) rest := by
  obtain ⟨_, hdashes⟩ := exists_isFirstCut_before " --" t
  obtain ⟨rest, hboth⟩ := hdashes.before "  #" (List.forall_mem_singleton.mpr (by decide))
  exact ⟨rest, hboth.append_eq, by simpa [commentMarks, or_comm] using hboth.at_mark,
    fun u v huv hv mark hmem => hboth.first u v huv hv mark (by simpa [commentMarks, or_comm] using hmem)⟩

/-- What is left without a comment starts the trimmed text. -/
theorem isPrefix_withoutComment (t : Text) : withoutComment t <+: strip t := by
  have hcut : before "  #" (before " --" (strip t)) <+: strip t := (isPrefix_before _ _).trans (isPrefix_before _ _)
  rw [withoutComment_eq]
  refine List.IsPrefix.trans (isPrefix_strip fun c hc => ?_) hcut
  obtain ⟨rest, hrest⟩ := hcut
  refine (strip_eq_self_iff.mp (strip_strip t)).1 c ?_
  rw [← hrest]
  exact List.mem_head?_append_of_mem_head? hc

/-- Nothing is left without a comment exactly of a blank text. -/
theorem withoutComment_eq_nil_iff {t : Text} : withoutComment t = [] ↔ ∀ c ∈ t, isBlank c = true := by
  rw [← strip_eq_nil_iff]
  constructor
  · intro h
    by_contra hne
    obtain ⟨c, u, hcons⟩ := List.exists_cons_of_ne_nil hne
    obtain ⟨v, hv⟩ := exists_withoutComment hcons
    rw [h] at hv
    cases hv
  · intro h
    have hprefix := isPrefix_withoutComment t
    rw [h] at hprefix
    exact List.prefix_nil.mp hprefix

/-- **A comment is cut off at the first mark.** What is left is the trimmed text up to the first place at which either
mark starts, trimmed again. It starts the trimmed text and holds neither mark, so cutting again changes nothing; the cut
at the number sign may as well be made first; and nothing is left of blank texts alone. -/
theorem withoutComment_first_mark (t : Text) :
    (∃ head rest, IsFirstCut commentMarks (strip t) head rest ∧ withoutComment t = strip head) ∧
      (withoutComment t <+: strip t ∧ ∀ mark ∈ commentMarks, ¬ mark <:+: withoutComment t) ∧
      withoutComment (withoutComment t) = withoutComment t ∧
      strip (before " --" (strip (before "  #" (strip t)))) = withoutComment t ∧
      (withoutComment t = [] ↔ ∀ c ∈ t, isBlank c = true) := by
  have hbare := isBare_withoutComment t
  obtain ⟨rest, hcut⟩ := exists_isFirstCut_commentMarks (strip t)
  refine ⟨⟨_, rest, hcut, withoutComment_eq t⟩, ⟨isPrefix_withoutComment t, ?_⟩, withoutComment_of_isBare hbare, ?_,
    withoutComment_eq_nil_iff⟩
  · exact List.forall_mem_cons.mpr ⟨hbare.no_dashes, List.forall_mem_singleton.mpr hbare.no_numberSign⟩
  · have hother := strip_before_strip_before (m := "  #") (n := " --") rfl (by decide) t
    rw [hother, withoutComment_eq, before_before_comm (by decide) (by decide)]

/-- A number sign stands in front of the dashes, and one of its two spaces behind other dashes. -/
example : withoutComment "\ta--  # b --c" = "a--" ∧ withoutComment "a  -- b  #c " = "a" := by decide

end TypeText

end LuaTypings
