import LuaTypings.Proofs.TypeText.Operands

/-!
# Where a text is split

A text is split at the separators that stand where no bracket is open. To see them, every character of the text is
written with the number of brackets that are open before it (`withDepths`): openers count up and closers down, and the
number never falls below zero, so that texts with stray closers are covered, too. The pieces of a text are what
splitting that list at the separators of depth zero gives (`segments_eq_splitOnP`).

Every piece but the last leaves no bracket open, and no separator stands outside the brackets of a piece. This is what
induction over the separators (`separator_induction`) shows of any text, balanced or not. Therefore a part is split into
itself alone, and parts that are joined with the separator are split into the same parts again.
-/

namespace LuaTypings.TypeText

/-- The characters of a text that starts inside `depth` open brackets, each with the number of brackets that are open
before it. -/
def withDepths (depth : Nat) (t : Text) : List (Char × Nat) := t.zip (t.scanl depthAfter depth)

variable {p : Char → Bool}

/-! ## Depths -/

/-- Behind its first character a text goes on inside the brackets that are open then. -/
theorem withDepths_cons (depth : Nat) (c : Char) (t : Text) :
    withDepths depth (c :: t) = (c, depth) :: withDepths (depthAfter depth c) t := by
  rw [withDepths, List.scanl_cons, List.zip_cons_cons]
  rfl

/-- A separator stands where no bracket is open, and leaves it so. -/
theorem depth_of_isTopSeparator {depth : Nat} {c : Char} (h : isTopSeparator p depth c = true) :
    depth = 0 ∧ depthAfter depth c = 0 := by
  simp only [isTopSeparator, Bool.and_eq_true, Bool.not_eq_true', beq_iff_eq] at h
  obtain ⟨⟨⟨rfl, hopener⟩, hcloser⟩, -⟩ := h
  exact ⟨rfl, depthAfter_of_plain hopener hcloser 0⟩

/-- Only the separating character separates. -/
theorem eq_of_isTopSeparator {depth : Nat} {c d : Char} (h : isTopSeparator (· == d) depth c = true) : c = d := by
  rw [isTopSeparator, Bool.and_eq_true, beq_iff_eq] at h
  exact h.2

/-- The pieces of a text are those of its characters with their depths, split at the separators. -/
theorem segments_eq_splitOnP (depth : Nat) (t : Text) :
    segments p depth t =
      ((withDepths depth t).splitOnP fun x => isTopSeparator p x.2 x.1).map (·.map Prod.fst) := by
  induction t generalizing depth with
  | nil => rfl
  | cons c t ih =>
    rw [withDepths_cons, List.splitOnP_cons_eq_if_modifyHead]
    by_cases hc : isTopSeparator p depth c = true
    · obtain ⟨rfl, hdepth⟩ := depth_of_isTopSeparator hc
      rw [segments_separator hc, if_pos hc, List.map_cons, hdepth, ih]
      rfl
    · rw [if_neg hc, segments_cons (by simpa using hc), ih]
      cases (withDepths (depthAfter depth c) t).splitOnP fun x => isTopSeparator p x.2 x.1 <;> rfl

/-! ## Induction over the separators -/

/-- A text is unbroken or has a first separator. -/
theorem isUnbroken_or_exists (depth : Nat) (t : Text) :
    isUnbroken p depth t = true ∨
      ∃ s c r, t = s ++ c :: r ∧ isUnbroken p depth s = true ∧ openAfter depth s = 0 ∧ isTopSeparator p 0 c = true := by
  induction t generalizing depth with
  | nil => exact .inl rfl
  | cons c t ih =>
    by_cases hc : isTopSeparator p depth c = true
    · obtain ⟨rfl, -⟩ := depth_of_isTopSeparator hc
      exact .inr ⟨[], c, t, rfl, rfl, rfl, hc⟩
    · have hplain : isTopSeparator p depth c = false := by simpa using hc
      have hcons : ∀ s, isUnbroken p depth (c :: s) = isUnbroken p (depthAfter depth c) s := fun s => by
        rw [isUnbroken, hplain]
        rfl
      obtain h | ⟨s, d, r, rfl, hs, hopen, hd⟩ := ih (depthAfter depth c)
      · exact .inl ((hcons t).trans h)
      · exact .inr ⟨c :: s, d, r, rfl, (hcons s).trans hs, hopen, hd⟩

/-- What holds of unbroken texts, and of a text whenever it holds behind its first separator, holds of every text. -/
theorem separator_induction {motive : Text → Prop} (unbroken : ∀ t, isUnbroken p 0 t = true → motive t)
    (separated : ∀ s c r, isUnbroken p 0 s = true → openAfter 0 s = 0 → isTopSeparator p 0 c = true → motive r →
      motive (s ++ c :: r)) (t : Text) : motive t := by
  induction hlen : t.length using Nat.strong_induction_on generalizing t with
  | _ n ih =>
    obtain h | ⟨s, c, r, rfl, hs, hopen, hc⟩ := isUnbroken_or_exists (p := p) 0 t
    · exact unbroken t h
    · have hshorter : r.length < n := by
        rw [← hlen, List.length_append, List.length_cons]
        omega
      exact separated s c r hs hopen hc (ih r.length hshorter r rfl)

/-! ## Pieces -/

/-- No separator stands outside the brackets of a piece. -/
theorem isUnbroken_of_mem_segments {t : Text} : ∀ s ∈ segments p 0 t, isUnbroken p 0 s = true := by
  induction t using separator_induction (p := p) with
  | unbroken t h =>
    rw [segments_of_isUnbroken h]
    exact List.forall_mem_singleton.mpr h
  | separated s c r hs hopen hc ih =>
    rw [segments_append_separator hopen hs hc]
    exact List.forall_mem_cons.mpr ⟨hs, ih⟩

/-- Every piece but the last leaves no bracket open. -/
theorem openAfter_of_mem_dropLast {t : Text} : ∀ s ∈ (segments p 0 t).dropLast, openAfter 0 s = 0 := by
  induction t using separator_induction (p := p) with
  | unbroken t h =>
    rw [segments_of_isUnbroken h]
    exact fun _ hs => absurd hs List.not_mem_nil
  | separated s c r hs hopen hc ih =>
    rw [segments_append_separator hopen hs hc, List.dropLast_cons_of_ne_nil (segments_ne_nil 0 r)]
    exact List.forall_mem_cons.mpr ⟨hopen, ih⟩

/-! ## Trimming -/

/-- Blanks neither open nor close brackets. -/
theorem openAfter_of_blanks {w : Text} (hw : ∀ c ∈ w, Text.isBlank c = true) (depth : Nat) : openAfter depth w = depth := by
  have h := openAfter_of_closesFrom (isBalanced_of_blanks hw) depth
  rwa [Nat.zero_add] at h

/-- A trimmed text leaves as many brackets open. -/
theorem openAfter_strip (depth : Nat) (t : Text) : openAfter depth (Text.strip t) = openAfter depth t := by
  obtain ⟨v, w, hv, hw, ht⟩ := Text.exists_append_strip_append t
  conv_rhs => rw [← ht]
  rw [openAfter_append, openAfter_append, openAfter_of_blanks hv, openAfter_of_blanks hw]

/-- A trimmed text is unbroken when the whole text is. -/
theorem isUnbroken_strip {depth : Nat} {t : Text} (h : isUnbroken p depth t = true) :
    isUnbroken p depth (Text.strip t) = true := by
  obtain ⟨v, w, hv, -, ht⟩ := Text.exists_append_strip_append t
  rw [← ht, List.append_assoc, isUnbroken_append_openAfter, Bool.and_eq_true, openAfter_of_blanks hv] at h
  exact isUnbroken_of_isPrefix (List.prefix_append _ w) h.2

/-! ## Parts -/

/-- A part is a piece that is trimmed. -/
theorem exists_of_mem_topPartsBy {t part : Text} (h : part ∈ topPartsBy p t) : ∃ s ∈ segments p 0 t, part = Text.strip s := by
  obtain ⟨s, hs, rfl⟩ := List.mem_map.mp (List.mem_of_mem_filter h)
  exact ⟨s, hs, rfl⟩

/-- No separator stands outside the brackets of a part. -/
theorem isUnbroken_of_mem_topPartsBy {t part : Text} (h : part ∈ topPartsBy p t) : isUnbroken p 0 part = true := by
  obtain ⟨s, hs, rfl⟩ := exists_of_mem_topPartsBy h
  exact isUnbroken_strip (isUnbroken_of_mem_segments s hs)

/-- A part is trimmed. -/
theorem strip_of_mem_topPartsBy {t part : Text} (h : part ∈ topPartsBy p t) : Text.strip part = part := by
  obtain ⟨s, -, rfl⟩ := exists_of_mem_topPartsBy h
  exact Text.strip_strip s

/-- What comes before the last of some elements of a list comes before the last of all. -/
theorem sublist_dropLast {α : Type} {l m : List α} (h : l.Sublist m) : l.dropLast.Sublist m.dropLast := by
  have htail := h.reverse.tail
  rwa [List.tail_reverse, List.tail_reverse, List.reverse_sublist] at htail

/-- Every part but the last leaves no bracket open. -/
theorem openAfter_of_mem_dropLast_topPartsBy {t part : Text} (h : part ∈ (topPartsBy p t).dropLast) :
    openAfter 0 part = 0 := by
  -- Pieces without text are left out, which moves no piece behind the last one.
  have hmem := (sublist_dropLast List.filter_sublist).subset h
  rw [← List.map_dropLast] at hmem
  obtain ⟨s, hs, rfl⟩ := List.mem_map.mp hmem
  rw [openAfter_strip, openAfter_of_mem_dropLast s hs]

/-- A part is split into itself alone. -/
theorem topPartsBy_of_mem {t part : Text} (h : part ∈ topPartsBy p t) : topPartsBy p part = [part] :=
  topPartsBy_of_isUnbroken (isUnbroken_of_mem_topPartsBy h) (ne_nil_of_mem_topPartsBy h) (strip_of_mem_topPartsBy h)

/-- Unbroken trimmed texts with a separator between neighbours are read back one by one, when all but the last leave no
bracket open. -/
theorem topPartsBy_join_of_closed {c : Char} (hc : isTopSeparator p 0 c = true) {parts : List Text}
    (hu : ∀ r ∈ parts, isUnbroken p 0 r = true) (hclosed : ∀ r ∈ parts.dropLast, openAfter 0 r = 0)
    (htrim : ∀ r ∈ parts, r ≠ [] ∧ Text.strip r = r) : topPartsBy p (Text.join [c] parts) = parts := by
  cases parts with
  | nil => rfl
  | cons s parts =>
    have hstrip : (s :: parts).map Text.strip = s :: parts :=
      (List.map_congr_left fun r hr => (htrim r hr).2).trans (List.map_id _)
    rw [topPartsBy, segments_join hc hu hclosed, hstrip]
    exact List.filter_eq_self.mpr fun r hr => by simpa using (htrim r hr).1

/-- Some of the parts of a text, with a separator between neighbours, are split into the same parts. -/
theorem topPartsBy_join_of_sublist {c : Char} (hc : isTopSeparator p 0 c = true) {t : Text} {parts : List Text}
    (h : parts.Sublist (topPartsBy p t)) : topPartsBy p (Text.join [c] parts) = parts :=
  topPartsBy_join_of_closed hc (fun _ hr => isUnbroken_of_mem_topPartsBy (h.subset hr))
    (fun _ hr => openAfter_of_mem_dropLast_topPartsBy ((sublist_dropLast h).subset hr))
    fun _ hr => ⟨ne_nil_of_mem_topPartsBy (h.subset hr), strip_of_mem_topPartsBy (h.subset hr)⟩

/-- Parts with a separator between neighbours are split into the same parts. -/
theorem topPartsBy_join_topPartsBy {c : Char} (hc : isTopSeparator p 0 c = true) (t : Text) :
    topPartsBy p (Text.join [c] (topPartsBy p t)) = topPartsBy p t :=
  topPartsBy_join_of_sublist hc (List.Sublist.refl _)

/-! ## Blanks around a text -/

/-- A blank in front of a text is in no part. -/
theorem topPartsBy_blank_cons {b : Char} (hb : Text.isBlank b = true) (t : Text) :
    topPartsBy p (b :: t) = topPartsBy p t := by
  unfold topPartsBy
  by_cases hsep : isTopSeparator p 0 b = true
  · rw [segments_separator hsep]
    rfl
  · -- The blank belongs to the first piece, which is trimmed of it.
    have hdepth : depthAfter 0 b = 0 := openAfter_of_blanks (List.forall_mem_singleton.mpr hb) 0
    rw [segments_cons (by simpa using hsep), hdepth]
    cases hpieces : segments p 0 t with
    | nil => exact absurd hpieces (segments_ne_nil 0 t)
    | cons s pieces =>
      have hstrip : Text.strip (b :: s) = Text.strip s :=
        Text.strip_blanks_append (List.forall_mem_singleton.mpr hb) s
      rw [List.modifyHead_cons, List.map_cons, List.map_cons, hstrip]

/-- A blank behind a text is in no part, even where a bracket is open. -/
theorem topPartsBy_concat_blank {b : Char} (hb : Text.isBlank b = true) (t : Text) :
    topPartsBy p (t ++ [b]) = topPartsBy p t := by
  unfold topPartsBy
  induction t using separator_induction (p := p) with
  | unbroken t h =>
    rw [segments_of_isUnbroken h]
    by_cases hsep : isTopSeparator p (openAfter 0 t) b = true
    · have hopen := (depth_of_isTopSeparator hsep).1
      rw [hopen] at hsep
      -- The blank separates the text from an empty piece.
      rw [segments_append_separator hopen h hsep, List.map_cons, List.map_singleton, List.filter_cons,
        List.filter_cons]
      rfl
    · have hwhole : isUnbroken p 0 (t ++ [b]) = true := by
        rw [isUnbroken_append_openAfter, h, isUnbroken, Bool.eq_false_iff.mpr hsep]
        rfl
      have hstrip : Text.strip (t ++ [b]) = Text.strip t :=
        Text.strip_append_blanks (List.forall_mem_singleton.mpr hb) t
      rw [segments_of_isUnbroken hwhole, List.map_singleton, List.map_singleton, hstrip]
  | separated s c r hs hopen hc ih =>
    rw [List.append_assoc, List.cons_append, segments_append_separator hopen hs hc,
      segments_append_separator hopen hs hc, List.map_cons, List.map_cons, List.filter_cons, List.filter_cons, ih]

/-- Blanks around a text are in no part. -/
theorem topPartsBy_strip (t : Text) : topPartsBy p (Text.strip t) = topPartsBy p t := by
  have hfront : ∀ v : Text, (∀ c ∈ v, Text.isBlank c = true) → ∀ s, topPartsBy p (v ++ s) = topPartsBy p s := by
    intro v hv s
    induction v with
    | nil => rfl
    | cons b v ih =>
      rw [List.forall_mem_cons] at hv
      rw [List.cons_append, topPartsBy_blank_cons hv.1, ih hv.2]
  have hbehind : ∀ w : Text, (∀ c ∈ w, Text.isBlank c = true) → ∀ s, topPartsBy p (s ++ w) = topPartsBy p s := by
    intro w hw s
    induction w using List.reverseRecOn with
    | nil => rw [List.append_nil]
    | append_singleton w b ih =>
      rw [List.forall_mem_append, List.forall_mem_singleton] at hw
      rw [← List.append_assoc, topPartsBy_concat_blank hw.2, ih hw.1]
  obtain ⟨v, w, hv, hw, ht⟩ := Text.exists_append_strip_append t
  calc topPartsBy p (Text.strip t) = topPartsBy p (v ++ Text.strip t) := (hfront v hv _).symm
    _ = topPartsBy p (v ++ Text.strip t ++ w) := (hbehind w hw _).symm
    _ = topPartsBy p t := by rw [ht]

/-- Blanks alone have no part. -/
theorem topPartsBy_of_blanks {w : Text} (hw : ∀ c ∈ w, Text.isBlank c = true) : topPartsBy p w = [] := by
  have hnil : Text.strip w = [] := Text.strip_append_blanks hw []
  rw [← topPartsBy_strip, hnil]
  rfl

/-! ## Two texts with a separator between them -/

/-- Behind a text that leaves no bracket open a separator ends its last piece. -/
theorem segments_append_cons {s : Text} {c : Char} (hopen : openAfter 0 s = 0) (hc : isTopSeparator p 0 c = true)
    (t : Text) : segments p 0 (s ++ c :: t) = segments p 0 s ++ segments p 0 t := by
  induction s using separator_induction (p := p) with
  | unbroken s h => rw [segments_append_separator hopen h hc, segments_of_isUnbroken h, List.singleton_append]
  | separated s d r hs hs' hd ih =>
    have hrest : openAfter 0 r = 0 := by
      rwa [openAfter_append, hs', openAfter, List.foldl_cons, (depth_of_isTopSeparator hd).2] at hopen
    rw [List.append_assoc, List.cons_append, segments_append_separator hs' hs hd, segments_append_separator hs' hs hd,
      ih hrest, List.cons_append]

/-- Behind a text that leaves no bracket open a separator ends its last part. -/
theorem topPartsBy_append_cons {s : Text} {c : Char} (hopen : openAfter 0 s = 0) (hc : isTopSeparator p 0 c = true)
    (t : Text) : topPartsBy p (s ++ c :: t) = topPartsBy p s ++ topPartsBy p t := by
  rw [topPartsBy, segments_append_cons hopen hc, List.map_append, List.filter_append]
  rfl

/-- An unbroken text without a part is blank. -/
theorem isBlank_of_topPartsBy_eq_nil {t : Text} (hu : isUnbroken p 0 t = true) (h : topPartsBy p t = []) :
    ∀ c ∈ t, Text.isBlank c = true := by
  refine Text.isBlank_of_strip_eq_nil ?_
  by_contra hne
  rw [← topPartsBy_strip, topPartsBy_of_isUnbroken (isUnbroken_strip hu) hne (Text.strip_strip t)] at h
  cases h

/-- A text without parts holds nothing but blanks and separators. -/
theorem isBlank_or_of_topPartsBy_eq_nil {t : Text} (h : topPartsBy p t = []) :
    ∀ c ∈ t, Text.isBlank c = true ∨ p c = true := by
  induction t using separator_induction (p := p) with
  | unbroken t hu => exact fun c hc => .inl (isBlank_of_topPartsBy_eq_nil hu h c hc)
  | separated s c r hs hopen hc ih =>
    rw [topPartsBy_append_cons hopen hc, List.append_eq_nil_iff] at h
    have hkind : p c = true := by
      rw [isTopSeparator, Bool.and_eq_true] at hc
      exact hc.2
    refine List.forall_mem_append.mpr ⟨fun d hd => .inl (isBlank_of_topPartsBy_eq_nil hs h.1 d hd), ?_⟩
    exact List.forall_mem_cons.mpr ⟨.inr hkind, ih h.2⟩

/-- Every text is unbroken or has a last separator. -/
theorem isUnbroken_or_exists_last (t : Text) : isUnbroken p 0 t = true ∨
    ∃ s c r, t = s ++ c :: r ∧ openAfter 0 s = 0 ∧ isTopSeparator p 0 c = true ∧ isUnbroken p 0 r = true := by
  induction t using separator_induction (p := p) with
  | unbroken t h => exact .inl h
  | separated s c r hs hopen hc ih =>
    refine .inr ?_
    obtain hr | ⟨s', d, r', rfl, hopen', hd, hr'⟩ := ih
    · exact ⟨s, c, r, rfl, hopen, hc, hr⟩
    · -- The last separator behind the first one is the last of all.
      refine ⟨s ++ c :: s', d, r', by rw [List.append_assoc, List.cons_append], ?_, hd, hr'⟩
      rw [openAfter_append, hopen, openAfter, List.foldl_cons, (depth_of_isTopSeparator hc).2]
      exact hopen'

/-! ## Splitting at a character -/

/-- A text of one character separates as the character does. -/
theorem topPartsAt_singleton (separator : Char) (t : Text) : topPartsAt [separator] t = topParts separator t := by
  have hkind : (fun c => [separator] == [c]) = (· == separator) := by
    funext c
    exact (Bool.and_true (separator == c)).trans BEq.comm
  rw [topPartsAt, topParts, hkind]

/-- **Splitting at a character.** Let a character be no bracket. The parts of a text are the trimmed pieces between the
places where that character stands at depth zero, in their order and without the empty ones. So every part is split into
itself alone, and the parts that are joined with the character are split into the same parts again. -/
theorem topParts_eq_splitOn {separator : Char} (hopener : isOpener separator = false) (hcloser : isCloser separator = false)
    (t : Text) :
    topPartsAt [separator] t = topParts separator t ∧
      topParts separator t =
        (((withDepths 0 t).splitOn (separator, 0)).map fun piece => Text.strip (piece.map Prod.fst)).filter (· ≠ []) ∧
      (∀ part ∈ topParts separator t, topParts separator part = [part]) ∧
      topParts separator (Text.join [separator] (topParts separator t)) = topParts separator t := by
  -- A character separates exactly when it is paired with depth zero.
  have hseparates : ∀ x : Char × Nat, isTopSeparator (· == separator) x.2 x.1 = (x == (separator, 0)) := by
    rintro ⟨c, depth⟩
    by_cases hc : c = separator
    · subst hc
      simp [isTopSeparator, hopener, hcloser]
    · have hchar : (c == separator) = false := beq_false_of_ne hc
      have hpair : ((c, depth) == (separator, 0)) = false := beq_false_of_ne fun h => hc (congrArg Prod.fst h)
      rw [isTopSeparator, hchar, Bool.and_false, hpair]
  refine ⟨topPartsAt_singleton separator t, ?_, fun part hpart => topPartsBy_of_mem hpart, topPartsBy_join_topPartsBy ?_ t⟩
  · rw [topParts, topPartsBy, segments_eq_splitOnP, List.map_map, List.splitOn_eq_splitOnP]
    simp only [hseparates]
    refine List.filter_congr fun part _ => ?_
    cases part <;> rfl
  · rw [hseparates (separator, 0)]
    exact beq_self_eq_true _

/-- A stray closer, empty pieces, nested separators and a group that stays open. -/
theorem topParts_eq_splitOn_of_stray :
    let t : Text := "a>, b(c, d) ,, e(f, g"
    topParts ',' t = ["a>", "b(c, d)", "e(f, g"] ∧
      (∀ part ∈ topParts ',' t, topParts ',' part = [part]) ∧
      topParts ',' (Text.join [','] (topParts ',' t)) = topParts ',' t := by
  intro t
  obtain ⟨-, hparts, halone, hjoin⟩ :=
    topParts_eq_splitOn (by decide : isOpener ',' = false) (by decide : isCloser ',' = false) t
  exact ⟨hparts.trans (by decide), halone, hjoin⟩

end LuaTypings.TypeText
