import LuaTypings.Proofs.TypeText.TrailingNil

/-!
# Notes behind a type

A note is a comment of word characters behind two dashes. Where a type is read its note is cut off with the dashes, so
it makes no difference (`declaredType_append_note`), nor does it behind the return type of a function
(`WrittenReturn.ofText_append_note`). But the dashes start a comment only behind a space that stands behind some text:
where a function type ends in the colon of its returns, the note itself is read as what is returned
(`WrittenReturn.toText_ofText_colon_note`).
-/

namespace LuaTypings.TypeText

/-- A text with a note behind it. -/
def withNote (t note : Text) : Text := t ++ " -- " ++ note

/-- A note by itself, with its dashes and without blanks at its ends. -/
def noteText (note : Text) : Text := Text.strip ("-- " ++ note)

/-- Whether a character is one that notes are made of. -/
def isNoteChar (c : Char) : Bool := c == '-' || c == ' ' || Text.isWordChar c

variable {t note rest : Text}

/-! ## The note by itself -/

/-- The dashes are trimmed. -/
theorem strip_dashes : Text.strip "--" = "--".toList := by decide

/-- A note without words is its dashes. -/
theorem noteText_nil : noteText [] = "--".toList := by decide

/-- A note with a word is all that was written. -/
theorem noteText_of_isWord (h : Text.isWord note = true) : noteText note = "-- " ++ note :=
  Text.strip_append_append (m := " ") strip_dashes (Text.strip_of_isWord h) (by decide) (Text.isWord_iff.mp h).1

/-- A note starts with two dashes. -/
theorem exists_noteText (note : Text) : ∃ u, noteText note = '-' :: '-' :: u := by
  have hdash : Text.isBlank '-' = false := by decide
  have hsecond : Text.stripEnd ('-' :: (' ' :: note)) = '-' :: Text.stripEnd (' ' :: note) :=
    Text.stripEnd_append_cons hdash [] _
  have hfirst : noteText note = '-' :: Text.stripEnd ('-' :: (' ' :: note)) := Text.strip_cons hdash _
  exact ⟨_, hfirst.trans (congrArg _ hsecond)⟩

/-- A note is made of dashes, spaces and word characters. -/
theorem isNoteChar_of_mem_noteText (hnote : ∀ c ∈ note, Text.isWordChar c = true) :
    ∀ c ∈ noteText note, isNoteChar c = true := by
  have hstart : ∀ d ∈ "-- ".toList, isNoteChar d = true := List.all_eq_true.mp (by decide)
  have hwhole : ∀ c ∈ "-- ".toList ++ note, isNoteChar c = true :=
    List.forall_mem_append.mpr ⟨hstart, fun c hc => by rw [isNoteChar, hnote c hc, Bool.or_true]⟩
  exact fun c hc => hwhole c ((Text.isInfix_strip _).subset hc)

/-- Other characters are not in texts of the characters of notes. -/
theorem not_mem_of_isNoteChar (h : ∀ c ∈ t, isNoteChar c = true) {d : Char} (hd : isNoteChar d = false) : d ∉ t := by
  intro hmem
  rw [h d hmem] at hd
  cases hd

/-- The characters of notes are no brackets. -/
theorem not_bracket_of_isNoteChar {c : Char} (h : isNoteChar c = true) : isOpener c = false ∧ isCloser c = false :=
  not_bracket_of_kind (by decide) h

/-- A trimmed text with a note is trimmed but for the blanks behind a note without words. -/
theorem strip_withNote (htrim : Text.strip t = t) (hne : t ≠ []) (hnote : ∀ c ∈ note, Text.isWordChar c = true) :
    Text.strip (withNote t note) = t ++ ' ' :: noteText note := by
  rcases eq_or_ne note [] with rfl | hword
  · have hends := Text.strip_append_append (m := " ") htrim strip_dashes hne (by decide)
    have hblank : withNote t [] = (t ++ " ".toList ++ "--".toList) ++ " ".toList := by simp [withNote]
    rw [hblank, noteText_nil]
    refine (Text.strip_append_blanks Text.isBlank_of_mem_space _).trans (hends.trans ?_)
    simp
  · have hword' : Text.isWord note = true := Text.isWord_iff.mpr ⟨hword, hnote⟩
    rw [withNote, Text.strip_append_append htrim (Text.strip_of_isWord hword') hne hword, noteText_of_isWord hword']
    simp

/-- A note behind nothing is left alone. -/
theorem strip_withNote_nil (note : Text) : Text.strip (withNote [] note) = noteText note :=
  Text.strip_blanks_append Text.isBlank_of_mem_space ("-- " ++ note)

/-- A note behind blanks is trimmed to itself. -/
theorem strip_blanks_append_note {w : Text} (hw : ∀ c ∈ w, Text.isBlank c = true) (note : Text) :
    Text.strip (w ++ ' ' :: noteText note) = noteText note := by
  have hblanks : ∀ c ∈ w ++ [' '], Text.isBlank c = true := List.forall_mem_append.mpr ⟨hw, Text.isBlank_of_mem_space⟩
  have hfront := Text.strip_blanks_append hblanks (noteText note)
  rw [List.append_assoc, List.singleton_append] at hfront
  rw [hfront, noteText, Text.strip_strip]

/-- A note behind a text that does not end in a blank stands behind the trimmed text. -/
theorem strip_append_note (hend : ∀ c ∈ t.getLast?, Text.isBlank c = false)
    (hnote : ∀ c ∈ note, Text.isWordChar c = true) :
    Text.strip (t ++ ' ' :: noteText note) = Text.strip (withNote (Text.strip t) note) := by
  obtain ⟨v, hv, hwhole⟩ := Text.exists_append_strip_of_getLast? hend
  have hfront : Text.strip (t ++ ' ' :: noteText note) = Text.strip (Text.strip t ++ ' ' :: noteText note) := by
    conv_lhs => rw [← hwhole, List.append_assoc]
    exact Text.strip_blanks_append hv _
  rw [hfront]
  by_cases hstrip : Text.strip t = []
  · rw [hstrip, strip_withNote_nil, strip_blanks_append_note (List.forall_mem_nil _)]
  · rw [← strip_withNote (Text.strip_strip t) hstrip hnote, Text.strip_strip]

/-- A note leaves something of a text. -/
theorem strip_withNote_ne_nil (t note : Text) : Text.strip (withNote t note) ≠ [] := by
  intro hnil
  have hdash : '-' ∈ withNote t note := List.mem_append_left note (List.mem_append_right t (by decide))
  exact absurd (Text.isBlank_of_strip_eq_nil hnil '-' hdash) (by decide)

/-! ## Comments -/

/-- A text with a note keeps the blanks that stood at its end, in front of the dashes. -/
theorem exists_strip_append_note {c : Char} {u : Text} (h : Text.strip t = c :: u) (note : Text) :
    ∃ w, (∀ d ∈ w, Text.isBlank d = true) ∧ c :: (u ++ w) <:+: t ∧
      Text.strip (t ++ ' ' :: noteText note) = c :: Text.stripEnd ((u ++ w) ++ ' ' :: noteText note) := by
  obtain ⟨v, w, hv, hw, ht⟩ := Text.exists_append_strip_append t
  have hwhole : t = v ++ c :: (u ++ w) := by
    conv_lhs => rw [← ht, h]
    simp
  refine ⟨w, hw, ⟨v, [], by rw [hwhole, List.append_nil]⟩, ?_⟩
  conv_lhs => rw [hwhole]
  rw [List.append_assoc, List.cons_append, Text.strip_blanks_append hv,
    Text.strip_cons (Text.isBlank_of_strip_eq_cons h)]

/-- Dashes behind a space start a comment behind a text that is not blank. -/
theorem withoutComment_append_note (hblank : Text.strip t ≠ []) (hdashes : ¬ " --".toList <:+: t) (note : Text) :
    withoutComment (t ++ ' ' :: noteText note) = withoutComment t := by
  obtain ⟨c, u, hcons⟩ := List.exists_cons_of_ne_nil hblank
  obtain ⟨w, hw, hin, hstrip⟩ := exists_strip_append_note hcons note
  obtain ⟨n, hn⟩ := exists_noteText note
  have hwhole : Text.strip (t ++ ' ' :: noteText note) =
      (c :: (u ++ w)) ++ ' ' :: ("--".toList ++ Text.stripEnd n) := by
    have hend : (u ++ w) ++ ' ' :: noteText note = ((u ++ w) ++ " -".toList) ++ '-' :: n := by
      rw [hn]
      simp
    rw [hstrip, hend, Text.stripEnd_append_cons (by decide)]
    simp
  have hcut : Text.before " --" (Text.strip (t ++ ' ' :: noteText note)) = Text.strip t ++ w := by
    rw [hwhole, hcons]
    exact Text.before_append_mark (by decide) (fun hmark => hdashes (hmark.trans hin)) _
  have hcut' : Text.before " --" (Text.strip t) = Text.strip t :=
    Text.before_eq_self fun hmark => hdashes (hmark.trans (Text.isInfix_strip t))
  rw [withoutComment, withoutComment, hcut, hcut', Text.strip_append_blanks hw]

/-- A note behind a type makes no difference to it. -/
theorem declaredType_append_note (ht : IsBare t) (hne : t ≠ []) (note : Text) :
    declaredType (t ++ ' ' :: noteText note) = declaredType t :=
  declaredType_congr (withoutComment_append_note (ht.trimmed.symm ▸ hne) ht.no_dashes note)

/-! ## Function types -/

/-- A note makes a function type of nothing but the keyword alone. -/
theorem isFunctionText_append_note (hkeyword : t ≠ "fun".toList) (note : Text) :
    isFunctionText (t ++ ' ' :: noteText note) = isFunctionText t := by
  have hgroup : Text.startsWith "fun(" (t ++ ' ' :: noteText note) = Text.startsWith "fun(" t := by
    rw [Text.startsWith, Text.startsWith, Bool.eq_iff_iff, List.isPrefixOf_iff_prefix, List.isPrefixOf_iff_prefix]
    exact ⟨fun h => Text.isPrefix_of_not_mem h (by decide), fun h => h.trans (List.prefix_append _ _)⟩
  have hspace : Text.startsWith "fun " (t ++ ' ' :: noteText note) = Text.startsWith "fun " t := by
    rw [Text.startsWith, Text.startsWith, Bool.eq_iff_iff, List.isPrefixOf_iff_prefix, List.isPrefixOf_iff_prefix]
    refine ⟨fun h => ?_, fun h => h.trans (List.prefix_append _ _)⟩
    -- The first space of the text stands behind the keyword.
    obtain ⟨u, hu⟩ := h
    have hfirst : t ++ ' ' :: noteText note = "fun".toList ++ ' ' :: u := hu.symm
    obtain ⟨rfl, -⟩ | ⟨m, rfl, -⟩ := Text.eq_or_of_append_cons_eq hfirst (by decide)
    · exact absurd rfl hkeyword
    · exact ⟨m, by simp⟩
  rw [isFunctionText, isFunctionText, hgroup, hspace]

/-- A note is left behind the parameter list of a function type. -/
theorem firstGroup?_append_note (hnote : ∀ c ∈ note, Text.isWordChar c = true) (t : Text) :
    firstGroup? (t ++ ' ' :: noteText note) =
      (firstGroup? t).map fun (inside, rest) => (inside, rest ++ ' ' :: noteText note) := by
  have hchars : ∀ c ∈ ' ' :: noteText note, isNoteChar c = true :=
    List.forall_mem_cons.mpr ⟨by decide, isNoteChar_of_mem_noteText hnote⟩
  exact firstGroup?_append_plain (not_mem_of_isNoteChar hchars (by decide))
    (fun c hc => (not_bracket_of_isNoteChar (hchars c hc)).2) t

/-- Nothing is returned where some other character than a colon stands. -/
theorem WrittenReturn.ofText_of_ne_colon {c : Char} {u : Text} (h : Text.strip t = c :: u) (hc : c ≠ ':') :
    WrittenReturn.ofText t = .absent := by
  refine WrittenReturn.ofText_of_no_colon ?_
  rw [Option.eq_none_iff_forall_ne_some]
  intro r hr
  exact hc (List.cons.inj (h.symm.trans (Text.dropStart?_eq_some_iff.mp hr))).1

/-- Behind a colon, returns with a note are read from what stands behind the colon. -/
theorem WrittenReturn.ofText_colon_append_note {u : Text} (hcolon : Text.strip rest = ':' :: u) (note : Text) :
    ∃ w, (∀ c ∈ w, Text.isBlank c = true) ∧ u ++ w <:+: rest ∧
      ofText (rest ++ ' ' :: noteText note) = .ofCleaned (withoutProse ((u ++ w) ++ ' ' :: noteText note)) := by
  obtain ⟨w, hw, hin, hstrip⟩ := exists_strip_append_note hcolon note
  refine ⟨w, hw, (List.suffix_cons ':' (u ++ w)).isInfix.trans hin, ?_⟩
  rw [ofText_of_colon hstrip, withoutProse_congr_strip (Text.strip_stripEnd _)]

/-- A note behind the returns of a function type makes no difference to them, unless they end in their colon. -/
theorem WrittenReturn.ofText_append_note (hdashes : ¬ " --".toList <:+: rest) (hcolon : Text.strip rest ≠ ":".toList)
    (note : Text) : ofText (rest ++ ' ' :: noteText note) = ofText rest := by
  cases hstrip : Text.strip rest with
  | nil =>
    -- Behind blanks there is the note alone, which starts with no colon.
    obtain ⟨n, hn⟩ := exists_noteText note
    have hnote : Text.strip (rest ++ ' ' :: noteText note) = '-' :: '-' :: n :=
      (strip_blanks_append_note (Text.isBlank_of_strip_eq_nil hstrip) note).trans hn
    have hnone : Text.dropStart? ":".toList (Text.strip rest) = none := by rw [hstrip]; rfl
    rw [ofText_of_ne_colon hnote (by decide), ofText_of_no_colon hnone]
  | cons c u =>
    by_cases hc : c = ':'
    · subst hc
      obtain ⟨w, hw, hin, hread⟩ := ofText_colon_append_note hstrip note
      -- Some text that is not blank stands behind the colon.
      have hblank : Text.strip (u ++ w) ≠ [] := by
        rw [Text.strip_append_blanks hw]
        intro hnil
        have hend : Text.stripEnd u = [] := Text.stripEnd_append_blanks (Text.isBlank_of_strip_eq_nil hnil) []
        have htrim := Text.strip_strip rest
        rw [hstrip, Text.strip_cons (by decide), hend] at htrim
        exact hcolon (hstrip.trans htrim.symm)
      have hcomment : withoutComment ((u ++ w) ++ ' ' :: noteText note) = withoutComment (u ++ w) :=
        withoutComment_append_note hblank (fun hmark => hdashes (hmark.trans hin)) note
      rw [hread, ofText_of_colon hstrip, withoutProse_congr hcomment,
        withoutProse_congr_strip (Text.strip_append_blanks hw u)]
    · obtain ⟨w, -, -, hnote⟩ := exists_strip_append_note hstrip note
      rw [ofText_of_ne_colon hnote hc, ofText_of_ne_colon hstrip hc]

/-- A note behind a function type makes no difference to its callable, unless it ends in the colon of its returns. -/
theorem Callable.ofText_append_note (hdashes : ¬ " --".toList <:+: t)
    (hcolon : ∀ inside rest, firstGroup? t = some (inside, rest) → Text.strip rest ≠ ":".toList)
    (hnote : ∀ c ∈ note, Text.isWordChar c = true) :
    Callable.ofText (t ++ ' ' :: noteText note) = Callable.ofText t := by
  have hbehind := firstGroup?_append_note hnote t
  cases hgroup : firstGroup? t with
  | none =>
    rw [hgroup, Option.map_none] at hbehind
    rw [ofText_of_no_group hgroup, ofText_of_no_group hbehind]
  | some group =>
    obtain ⟨inside, rest⟩ := group
    rw [hgroup, Option.map_some] at hbehind
    obtain ⟨c, -, hsuffix⟩ := exists_isSuffix_of_firstGroup? hgroup
    have hin : rest <:+: t := (((List.suffix_cons c rest).trans (List.suffix_append inside _)).trans hsuffix).isInfix
    have hreturns : WrittenReturn.ofText (rest ++ ' ' :: noteText note) = WrittenReturn.ofText rest :=
      WrittenReturn.ofText_append_note (fun hmark => hdashes (hmark.trans hin)) (hcolon inside rest hgroup) note
    rw [ofText_of_firstGroup? hgroup, ofText_of_firstGroup? hbehind, hreturns]

/-! ## Notes that are read as types -/

/-- A text of the characters of notes that starts with a dash names itself. -/
theorem ofBare_dash {u : Text} (htrim : Text.strip ('-' :: u) = '-' :: u)
    (hchars : ∀ c ∈ '-' :: u, isNoteChar c = true) : View.ofBare ('-' :: u) = .name ('-' :: u) := by
  have hdash : '-' ∈ '-' :: u := List.mem_cons_self
  have hbar : '|' ∉ '-' :: u := not_mem_of_isNoteChar hchars (by decide)
  have hmark : '?' ∉ '-' :: u := not_mem_of_isNoteChar hchars (by decide)
  have hbracket : ']' ∉ '-' :: u := not_mem_of_isNoteChar hchars (by decide)
  have hvoid := not_void_of_not_isWordChar hdash (by decide)
  have hnull : nullableBase? ('-' :: u) = none := by
    rw [nullableBase?, Text.dropEnd?_eq_none_of_not_mem hbar (by decide),
      Text.dropEnd?_eq_none_of_not_mem hbar (by decide)]
    rfl
  have hbasic := lookup_basicTypes_of_not_isWordChar hdash (by decide)
  have hopt : optionalBase? ('-' :: u) = none := by
    rw [optionalBase?, Text.dropEnd?_eq_none_of_not_mem hmark (by decide), ite_self]
  have hunion : unionParts? ('-' :: u) = none :=
    unionParts?_of_isUnbroken (isUnbroken_of_not_mem hbar 0) (List.cons_ne_nil _ _) htrim
  have henclosed : enclosed? ('-' :: u) = none := rfl
  have harray : arrayElement? ('-' :: u) = none := by
    rw [arrayElement?, Text.dropEnd?_eq_none_of_not_mem hbracket (by decide)]
  have hrecord : recordParts? ('-' :: u) = none := rfl
  have hfunction : isFunctionText ('-' :: u) = false := rfl
  simp only [View.ofBare, hvoid, hnull, hbasic, hopt, hunion, henclosed, harray, hrecord, hfunction, Bool.false_eq_true,
    if_false]

/-- A return text that starts with a dash and is made of the characters of notes declares itself. -/
theorem WrittenReturn.toText_ofCleaned_dash {u : Text} (hbare : IsBare ('-' :: u))
    (hchars : ∀ c ∈ '-' :: u, isNoteChar c = true) : (ofCleaned ('-' :: u)).toText declaredType = '-' :: u := by
  have hcomma : ',' ∉ '-' :: u := not_mem_of_isNoteChar hchars (by decide)
  have hparts : topParts ',' ('-' :: u) = ['-' :: u] :=
    topPartsBy_of_isUnbroken (isUnbroken_of_not_mem hcomma 0) (List.cons_ne_nil _ _) hbare.trimmed
  have hsingle : ofCleaned ('-' :: u) = .single ('-' :: u) := by rw [ofCleaned, hparts]
  rw [hsingle, toText, declaredType_of_isBare hbare, ofBare_dash hbare.trimmed hchars]
  rfl

/-- Where a function type ends in the colon of its returns nothing is returned, and behind it a note is. -/
theorem WrittenReturn.toText_ofText_colon_note (hcolon : Text.strip rest = ":".toList)
    (hnote : ∀ c ∈ note, Text.isWordChar c = true) :
    (ofText rest).toText declaredType = voidType ∧
      (ofText (rest ++ ' ' :: noteText note)).toText declaredType ≠ voidType := by
  constructor
  · rw [ofText_of_colon hcolon]
    decide
  · obtain ⟨w, hw, -, hread⟩ := ofText_colon_append_note hcolon note
    obtain ⟨n, hn⟩ := exists_noteText note
    have htrim : Text.strip (noteText note) = noteText note := Text.strip_strip _
    have hfront : Text.strip (([] ++ w) ++ ' ' :: noteText note) = Text.strip (noteText note) :=
      (strip_blanks_append_note hw note).trans htrim.symm
    rw [hread, withoutProse_congr_strip hfront]
    obtain hany | ⟨u, hu⟩ := exists_withoutProse (htrim.trans hn)
    · rw [hany]
      decide
    · -- What is left of the note starts with its dash and names itself.
      have hchars : ∀ c ∈ '-' :: u, isNoteChar c = true := by
        obtain h | h := isInfix_withoutProse (noteText note)
        · cases hu.symm.trans h
        · exact fun c hc => isNoteChar_of_mem_noteText hnote c (h.subset (hu ▸ hc))
      have hbare : IsBare ('-' :: u) := hu ▸ (isClean_withoutProse (noteText note)).bare
      rw [hu, toText_ofCleaned_dash hbare hchars]
      exact fun heq => absurd (List.cons.inj heq).1 (by decide)

/-- A note behind a function type that ends in the colon of its returns changes what the function type declares. -/
theorem Callable.typeText_append_note_ne {inside : Text} (hgroup : firstGroup? t = some (inside, rest))
    (hcolon : Text.strip rest = ":".toList) (hnote : ∀ c ∈ note, Text.isWordChar c = true) :
    (Callable.ofText (t ++ ' ' :: noteText note)).typeText ≠ (Callable.ofText t).typeText := by
  obtain ⟨hvoid, hne⟩ := WrittenReturn.toText_ofText_colon_note hcolon hnote
  have hbehind := firstGroup?_append_note hnote t
  rw [hgroup, Option.map_some] at hbehind
  rw [ofText_of_firstGroup? hgroup, ofText_of_firstGroup? hbehind, typeText_toCallable, typeText_toCallable, hvoid]
  exact fun heq => hne (List.append_cancel_left heq)

end LuaTypings.TypeText
