import LuaTypings.Proofs.TypeText.AliasAlternatives
import LuaTypings.Proofs.TypeText.LiteralMembers
import LuaTypings.Proofs.TypeText.Note

/-!
# Aliases with a note

What an alias is taken for is decided before any note is cut off. An object literal with a note is none any more, so it
is declared as a type (`declaredAlias_of_no_literal`). A body of alternatives is split with the note at the end of the
last one (`topParts_append_note`), and that one is read with it: a note makes no difference to a type or to a function
type, but it is read as part of the alternative where nothing, the keyword of a function type alone or the colon of its
returns stands in front of it (`takesNote`). `declaredAlias_withNote` says for every body what a note makes of it.
-/

namespace LuaTypings.TypeText

/-- What a body declares that is not taken for an object literal. -/
def declaredPlain (t : Text) : Text :=
  if t.contains '|' && Text.hasText "fun(" t then
    Text.joinDistinct " | " ((topParts '|' t).map declaredAlternative)
  else declaredType t

/-- What stands behind the last bar outside all brackets. -/
def lastAlternative (t : Text) : Text := Text.strip ((segments (· == '|') 0 t).getLastD [])

/-- The alternatives in front of the last bar outside all brackets. -/
def earlierAlternatives (t : Text) : List Text :=
  ((segments (· == '|') 0 t).dropLast.map Text.strip).filter (!·.isEmpty)

/-- Whether an alternative takes a note for a part of itself: nothing stands in front of the note, or nothing but the
keyword of a function type, or a function type that ends in the colon of its returns. -/
def takesNote (a : Text) : Bool :=
  a.isEmpty || a == "fun" || isFunctionText a && (firstGroup? a).any fun (_, rest) => Text.strip rest == ":"

/-- Whether a body is split into alternatives with the note, the last of which takes it for a part of itself. -/
def splitsNote (body : Text) : Bool :=
  body.contains '|' && Text.hasText "fun(" body && takesNote (lastAlternative body)

variable {t a body note inner : Text} {c : Char}

/-! ## The last alternative -/

/-- The pieces of a text end in the text itself or in what stands behind its last bar. -/
theorem exists_segments_eq (t : Text) :
    ∃ pieces last, segments (· == '|') 0 t = pieces ++ [last] ∧ (t = last ∨ ∃ front, t = front ++ '|' :: last) := by
  obtain h | ⟨s, c, r, rfl, hopen, hc, hr⟩ := isUnbroken_or_exists_last (p := (· == '|')) t
  · exact ⟨[], t, segments_of_isUnbroken h, .inl rfl⟩
  · obtain rfl : c = '|' := eq_of_isTopSeparator hc
    refine ⟨segments (· == '|') 0 s, r, ?_, .inr ⟨s, rfl⟩⟩
    rw [segments_append_cons hopen hc, segments_of_isUnbroken hr]

/-- The last alternative of a text without comments has none. -/
theorem IsBare.lastAlternative (h : IsBare t) : IsBare (lastAlternative t) := by
  obtain ⟨pieces, last, hpieces, hlast⟩ := exists_segments_eq t
  have hin : last <:+: t := by
    obtain rfl | ⟨front, rfl⟩ := hlast
    · exact List.infix_rfl
    · exact ((List.suffix_cons '|' last).trans (List.suffix_append front _)).isInfix
  rw [TypeText.lastAlternative, hpieces, List.getLastD_concat]
  exact h.of_isInfix ((Text.isInfix_strip last).trans hin) (Text.strip_strip last)

/-- A text ends as its last alternative does, unless it ends in a bar. -/
theorem getLast?_lastAlternative (h : t.getLast? = some c) (hbar : c ≠ '|') (hblank : Text.isBlank c = false) :
    (lastAlternative t).getLast? = some c := by
  obtain ⟨pieces, last, hpieces, hlast⟩ := exists_segments_eq t
  rw [lastAlternative, hpieces, List.getLastD_concat]
  refine Text.getLast?_strip ?_ hblank
  obtain rfl | ⟨front, rfl⟩ := hlast
  · exact h
  · rw [List.getLast?_append, List.getLast?_cons] at h
    cases hend : last.getLast? with
    | none =>
      rw [hend] at h
      exact absurd (Option.some.inj h).symm hbar
    | some d =>
      rw [hend] at h
      exact h

/-- The alternatives of a text are those in front of the last bar and what stands behind it, unless that is blank. -/
theorem topParts_eq_append_last (t : Text) :
    topParts '|' t = earlierAlternatives t ++ if lastAlternative t = [] then [] else [lastAlternative t] := by
  obtain ⟨pieces, last, h, -⟩ := exists_segments_eq t
  rw [topParts, topPartsBy, earlierAlternatives, lastAlternative, h, List.map_append, List.filter_append,
    List.map_singleton, List.dropLast_concat, List.getLastD_concat]
  by_cases hlast : Text.strip last = []
  · simp [hlast]
  · simp [hlast]

/-- Text without a bar outside its brackets is put behind the last piece. -/
theorem segments_append_unbroken {u last : Text} {pieces : List Text} (hopen : openAfter 0 t = 0)
    (hu : isUnbroken (· == '|') 0 u = true) (h : segments (· == '|') 0 t = pieces ++ [last]) :
    segments (· == '|') 0 (t ++ u) = pieces ++ [last ++ u] := by
  obtain hone | ⟨s, c, r, rfl, hs, hc, hr⟩ := isUnbroken_or_exists_last (p := (· == '|')) t
  · have hwhole : isUnbroken (· == '|') 0 (t ++ u) = true := by
      rw [isUnbroken_append_openAfter, hone, hopen, hu]
      rfl
    have hall : [] ++ [t] = pieces ++ [last] := (segments_of_isUnbroken hone).symm.trans h
    obtain ⟨hpieces, hlast⟩ := List.append_inj' hall rfl
    rw [segments_of_isUnbroken hwhole, ← hpieces, ← (List.cons.inj hlast).1]
    rfl
  · have hopen' : openAfter 0 r = 0 := by
      rwa [openAfter_append, hs, openAfter, List.foldl_cons, (depth_of_isTopSeparator hc).2] at hopen
    have hwhole : isUnbroken (· == '|') 0 (r ++ u) = true := by
      rw [isUnbroken_append_openAfter, hr, hopen', hu]
      rfl
    rw [segments_append_cons hs hc, segments_of_isUnbroken hr] at h
    obtain ⟨hpieces, hlast⟩ := List.append_inj' h rfl
    rw [List.append_assoc, List.cons_append, segments_append_cons hs hc, segments_of_isUnbroken hwhole, hpieces,
      (List.cons.inj hlast).1]

/-- A note is put behind the last alternative. -/
theorem alternatives_append_note (htrim : Text.strip t = t) (hopen : openAfter 0 t = 0)
    (hnote : ∀ c ∈ note, Text.isWordChar c = true) :
    earlierAlternatives (t ++ ' ' :: noteText note) = earlierAlternatives t ∧
      lastAlternative (t ++ ' ' :: noteText note) = Text.strip (withNote (lastAlternative t) note) := by
  obtain ⟨pieces, last, h, hend⟩ := exists_segments_eq t
  have hbar : '|' ∉ ' ' :: noteText note :=
    not_mem_of_isNoteChar (List.forall_mem_cons.mpr ⟨by decide, isNoteChar_of_mem_noteText hnote⟩) (by decide)
  -- The last piece ends as the text does, in no blank.
  have hlast : ∀ c ∈ last.getLast?, Text.isBlank c = false := by
    intro c hc
    refine (Text.strip_eq_self_iff.mp htrim).2 c ?_
    obtain rfl | ⟨front, rfl⟩ := hend
    · exact hc
    · exact Text.mem_getLast?_append_cons hc
  have hwhole := segments_append_unbroken hopen (isUnbroken_of_not_mem hbar 0) h
  constructor
  · rw [earlierAlternatives, earlierAlternatives, hwhole, h, List.dropLast_concat, List.dropLast_concat]
  · rw [lastAlternative, lastAlternative, hwhole, h, List.getLastD_concat, List.getLastD_concat,
      strip_append_note hlast hnote]

/-- Behind a note there is always a last alternative. -/
theorem topParts_append_note (htrim : Text.strip t = t) (hopen : openAfter 0 t = 0)
    (hnote : ∀ c ∈ note, Text.isWordChar c = true) :
    topParts '|' (t ++ ' ' :: noteText note) =
      earlierAlternatives t ++ [Text.strip (withNote (lastAlternative t) note)] := by
  obtain ⟨hearlier, hlast⟩ := alternatives_append_note htrim hopen hnote
  rw [topParts_eq_append_last, hearlier, hlast, if_neg (strip_withNote_ne_nil _ note)]

/-! ## An alternative with a note -/

/-- The alternatives that take a note for a part of themselves. -/
theorem takesNote_iff : takesNote a = true ↔ a = [] ∨ a = "fun".toList ∨
    isFunctionText a = true ∧ ∃ inside rest, firstGroup? a = some (inside, rest) ∧ Text.strip rest = ":".toList := by
  simp only [takesNote, Bool.or_eq_true, Bool.and_eq_true, List.isEmpty_iff, beq_iff_eq, Option.any_eq_true, Prod.exists,
    or_assoc]

/-- An alternative that does not take a note for a part of itself declares the same with a note. -/
theorem declaredAlternative_withNote (ha : IsBare a) (htakes : takesNote a = false)
    (hnote : ∀ c ∈ note, Text.isWordChar c = true) :
    declaredAlternative (Text.strip (withNote a note)) = declaredAlternative a := by
  have hother := Bool.eq_false_iff.mp htakes
  have hne : a ≠ [] := fun h => hother (takesNote_iff.mpr (.inl h))
  have hkeyword : a ≠ "fun".toList := fun h => hother (takesNote_iff.mpr (.inr (.inl h)))
  rw [strip_withNote ha.trimmed hne hnote, declaredAlternative, declaredAlternative,
    isFunctionText_append_note hkeyword]
  cases hfun : isFunctionText a with
  | false => simp only [Bool.false_eq_true, if_false, declaredType_append_note ha hne]
  | true =>
    have hcolon : ∀ inside rest, firstGroup? a = some (inside, rest) → Text.strip rest ≠ ":".toList :=
      fun inside rest hgroup h => hother (takesNote_iff.mpr (.inr (.inr ⟨hfun, inside, rest, hgroup, h⟩)))
    simp only [if_true, Callable.ofText_append_note ha.no_dashes hcolon hnote]

/-- An alternative that takes a note for a part of itself declares something else with a note. -/
theorem declaredAlternative_withNote_ne (ha : IsBare a) (hne : a ≠ []) (htakes : takesNote a = true)
    (hnote : ∀ c ∈ note, Text.isWordChar c = true) :
    declaredAlternative (Text.strip (withNote a note)) ≠ declaredAlternative a := by
  rw [strip_withNote ha.trimmed hne hnote, declaredAlternative, declaredAlternative]
  obtain hnil | rfl | ⟨hfun, inside, rest, hgroup, hcolon⟩ := takesNote_iff.mp htakes
  · exact absurd hnil hne
  · -- With a space behind it, the keyword starts a function type.
    have hnoted : isFunctionText ("fun".toList ++ ' ' :: noteText note) = true := rfl
    have halone : isFunctionText "fun".toList = false := rfl
    have hname : declaredType "fun".toList = "fun".toList := by decide
    rw [hnoted, halone, if_pos rfl, if_neg Bool.false_ne_true, hname]
    exact fun heq => absurd (List.cons.inj heq).1 (by decide)
  · have hkeyword : a ≠ "fun".toList := by
      rintro rfl
      cases hfun
    rw [isFunctionText_append_note hkeyword, hfun, if_pos rfl, if_pos rfl]
    have hchanged := Callable.typeText_append_note_ne hgroup hcolon hnote
    exact fun heq => hchanged (List.append_cancel_left (List.append_cancel_right heq))

/-- Behind a curly bracket a note is no part of the alternative. -/
theorem takesNote_of_getLast? (h : a.getLast? = some '}') : takesNote a = false := by
  rw [Bool.eq_false_iff]
  intro htakes
  obtain rfl | rfl | ⟨-, inside, rest, hgroup, hcolon⟩ := takesNote_iff.mp htakes
  · cases h
  · exact absurd h (by decide)
  · -- What stands behind the parameter list ends as the alternative does.
    obtain ⟨c, -, hsuffix⟩ := exists_isSuffix_of_firstGroup? hgroup
    obtain ⟨front, hfront⟩ := (List.suffix_cons c rest).trans ((List.suffix_append inside _).trans hsuffix)
    have hsome : rest ≠ [] := by
      rintro rfl
      cases hcolon
    rw [← hfront, List.getLast?_append_of_ne_nil _ hsome] at h
    have hend := Text.getLast?_strip h (by decide)
    rw [hcolon] at hend
    exact absurd hend (by decide)

/-! ## A body with a note -/

/-- A note brings no bar and no mark of a function with it. -/
theorem marks_append_note (hnote : ∀ c ∈ note, Text.isWordChar c = true) (t : Text) :
    (t ++ ' ' :: noteText note).contains '|' = t.contains '|' ∧
      Text.hasText "fun(" (t ++ ' ' :: noteText note) = Text.hasText "fun(" t := by
  have hchars : ∀ c ∈ ' ' :: noteText note, isNoteChar c = true :=
    List.forall_mem_cons.mpr ⟨by decide, isNoteChar_of_mem_noteText hnote⟩
  have hbar : '|' ∉ ' ' :: noteText note := not_mem_of_isNoteChar hchars (by decide)
  have hparen : '(' ∉ noteText note :=
    not_mem_of_isNoteChar (fun c hc => hchars c (List.mem_cons_of_mem ' ' hc)) (by decide)
  refine ⟨?_, Text.hasText_append_cons (by decide) (fun hin => hparen (hin.subset (by decide))) t⟩
  rw [Bool.eq_iff_iff, List.contains_iff_mem, List.contains_iff_mem, List.mem_append, or_iff_left hbar]

/-- What is no object literal declares its alternatives or its type. -/
theorem declaredAlias_of_no_literal (h : literalBody? (Text.strip t) = none) :
    declaredAlias t = declaredPlain (Text.strip t) := by
  simp only [declaredAlias, h]
  rfl

/-- A body with a note is no object literal. -/
theorem literalBody?_append_note (hnote : ∀ c ∈ note, Text.isWordChar c = true) (t : Text) :
    literalBody? (t ++ ' ' :: noteText note) = none := by
  obtain ⟨u, hu⟩ := exists_noteText note
  obtain ⟨c, hc⟩ : ∃ c, (noteText note).getLast? = some c := by
    rw [hu]
    exact ⟨_, List.getLast?_eq_some_getLast (List.cons_ne_nil _ _)⟩
  have hlast : (t ++ ' ' :: noteText note).getLast? = some c := Text.mem_getLast?_append_cons hc
  refine literalBody?_of_getLast? hlast ?_
  rintro rfl
  exact absurd (isNoteChar_of_mem_noteText hnote '}' (List.mem_of_mem_getLast? hc)) (by decide)

/-- A note behind a body is declared with its alternatives or its type. -/
theorem declaredAlias_withNote_eq (htrim : Text.strip body = body) (hne : body ≠ [])
    (hnote : ∀ c ∈ note, Text.isWordChar c = true) :
    declaredAlias (withNote body note) = declaredPlain (body ++ ' ' :: noteText note) := by
  have hstrip := strip_withNote htrim hne hnote
  have hliteral : literalBody? (Text.strip (withNote body note)) = none :=
    hstrip ▸ literalBody?_append_note hnote body
  rw [declaredAlias_of_no_literal hliteral, hstrip]

/-- A note makes no difference to a body that is no object literal, unless its last alternative takes it for a part of
itself. -/
theorem declaredPlain_append_note (hbare : IsBare body) (hne : body ≠ []) (hopen : openAfter 0 body = 0)
    (hnote : ∀ c ∈ note, Text.isWordChar c = true) (hsplits : splitsNote body = false) :
    declaredPlain (body ++ ' ' :: noteText note) = declaredPlain body := by
  obtain ⟨hbar, hmark⟩ := marks_append_note hnote body
  rw [declaredPlain, declaredPlain, hbar, hmark]
  cases halternatives : body.contains '|' && Text.hasText "fun(" body with
  | false => simp only [Bool.false_eq_true, if_false, declaredType_append_note hbare hne]
  | true =>
    have htakes : takesNote (lastAlternative body) = false := by
      rwa [splitsNote, halternatives, Bool.true_and] at hsplits
    have hsome : lastAlternative body ≠ [] := by
      intro hnil
      rw [hnil] at htakes
      cases htakes
    rw [if_pos rfl, if_pos rfl, topParts_append_note hbare.trimmed hopen hnote, topParts_eq_append_last body,
      if_neg hsome, List.map_append, List.map_append, List.map_singleton, List.map_singleton,
      declaredAlternative_withNote hbare.lastAlternative htakes hnote]

/-- A last alternative that takes a note for a part of itself is declared with the note. -/
theorem declaredPlain_append_note_of_splitsNote (hbare : IsBare body) (hopen : openAfter 0 body = 0)
    (hnote : ∀ c ∈ note, Text.isWordChar c = true) (hsplits : splitsNote body = true) :
    declaredPlain (body ++ ' ' :: noteText note) =
      Text.joinDistinct " | " ((earlierAlternatives body).map declaredAlternative ++
        [declaredAlternative (Text.strip (withNote (lastAlternative body) note))]) := by
  obtain ⟨hbar, hmark⟩ := marks_append_note hnote body
  rw [splitsNote, Bool.and_eq_true] at hsplits
  rw [declaredPlain, hbar, hmark, if_pos hsplits.1, topParts_append_note hbare.trimmed hopen hnote, List.map_append,
    List.map_singleton]

/-- A note that the last alternative takes for a part of itself makes no difference only where that alternative repeats
earlier ones, with the note and without it. -/
theorem declaredPlain_append_note_iff (hbare : IsBare body) (hopen : openAfter 0 body = 0)
    (hnote : ∀ c ∈ note, Text.isWordChar c = true) (hsplits : splitsNote body = true) :
    declaredPlain (body ++ ' ' :: noteText note) = declaredPlain body ↔
      (lastAlternative body = [] ∨
          declaredAlternative (lastAlternative body) ∈ (earlierAlternatives body).map declaredAlternative) ∧
        declaredAlternative (Text.strip (withNote (lastAlternative body) note)) ∈
          (earlierAlternatives body).map declaredAlternative := by
  have hmarks := (Bool.and_eq_true_iff.mp hsplits).1
  have htakes := (Bool.and_eq_true_iff.mp hsplits).2
  rw [declaredPlain_append_note_of_splitsNote hbare hopen hnote hsplits, declaredPlain, if_pos hmarks,
    topParts_eq_append_last body]
  by_cases hlast : lastAlternative body = []
  · -- The text with the mark of a function has some alternative, so one stands in front of the last bar.
    have hsome := topParts_ne_nil_of_mark (Bool.and_eq_true_iff.mp hmarks).2
    rw [topParts_eq_append_last body, if_pos hlast, List.append_nil] at hsome
    have hearlier : (earlierAlternatives body).map declaredAlternative ≠ [] := by simpa using hsome
    rw [if_pos hlast, List.append_nil, Text.joinDistinct_concat_eq_self_iff (by decide) hearlier]
    exact (and_iff_right (.inl hlast)).symm
  · have hother := declaredAlternative_withNote_ne hbare.lastAlternative hlast htakes hnote
    rw [if_neg hlast, List.map_append, List.map_singleton, Text.joinDistinct_concat_eq_iff (by decide),
      or_iff_right hother, or_iff_right hlast, and_comm]

/-! ## Object literals with a note -/

/-- A note is no part of the last alternative of an object literal. -/
theorem splitsNote_of_literalBody? (h : literalBody? body = some inner) : splitsNote body = false := by
  have hlast : body.getLast? = some '}' := eq_of_literalBody? h ▸ List.getLast?_concat
  have hend := getLast?_lastAlternative hlast (by decide) (by decide)
  rw [splitsNote, takesNote_of_getLast? hend, Bool.and_false]

/-- Curly brackets around a balanced text have no other form, and no bar stands outside of them. -/
theorem ofBare_of_literalBody? (htrim : Text.strip body = body) (h : literalBody? body = some inner)
    (hinner : isBalanced inner = true) : View.ofBare body = .name body ∧ topParts '|' body = [body] := by
  have hwhole := eq_of_literalBody? h
  have hne : body ≠ [] := hwhole ▸ List.cons_ne_nil _ _
  have hunbroken : isUnbroken (· == '|') 0 body = true := hwhole ▸ isUnbroken_bracketed (by decide) hinner '}'
  have hlast : body.getLast? = some '}' := hwhole ▸ List.getLast?_concat
  have hunion := unionParts?_of_isUnbroken hunbroken hne htrim
  have henclosed : enclosed? body = none :=
    enclosed?_of_getLast? fun heq => absurd (Option.some.inj (hlast.symm.trans heq)) (by decide)
  have harray := arrayElement?_of_getLast? hlast (by decide)
  have hrecord := recordParts?_of_getLast? hlast (by decide)
  have hfun : isFunctionText body = false := hwhole ▸ rfl
  refine ⟨?_, topPartsBy_of_isUnbroken hunbroken hne htrim⟩
  rw [ofBare_of_closed hlast (by decide) hunion, henclosed, harray, hrecord, hfun]
  rfl

/-- Curly brackets around a balanced text name themselves where no object literal is read. -/
theorem declaredPlain_of_literalBody? (hbare : IsBare body) (h : literalBody? body = some inner)
    (hinner : isBalanced inner = true) : declaredPlain body = body := by
  obtain ⟨hform, hone⟩ := ofBare_of_literalBody? hbare.trimmed h hinner
  have hfun : isFunctionText body = false := eq_of_literalBody? h ▸ rfl
  have htype : declaredType body = body := by
    rw [declaredType_of_isBare hbare, hform]
    rfl
  have halternative : declaredAlternative body = body := by
    rw [declaredAlternative, hfun, if_neg Bool.false_ne_true, htype]
  rw [declaredPlain, hone, List.map_singleton, Text.joinDistinct_singleton, halternative, htype, ite_self]

/-- **Aliases with a note.** An object literal with a note is declared as a type is, so just as it was written when its
brackets match. Any other body declares the same with a note, unless it is split into alternatives of which the last
takes the note for a part of itself: that one is declared with the note then, and the note makes no difference only where
the last alternative repeats earlier ones both with the note and without it. -/
theorem declaredAlias_withNote (hbare : IsBare body) (hne : body ≠ []) (hbalanced : isBalanced body = true)
    (hnote : ∀ c ∈ note, Text.isWordChar c = true) :
    let earlier := (earlierAlternatives body).map declaredAlternative
    let last := lastAlternative body
    let noted := declaredAlternative (Text.strip (withNote last note))
    (∀ inner, literalBody? body = some inner →
        declaredAlias (withNote body note) = declaredPlain body ∧
          (isBalanced inner = true → declaredAlias (withNote body note) = body)) ∧
      (literalBody? body = none → splitsNote body = false →
        declaredAlias (withNote body note) = declaredAlias body) ∧
      (literalBody? body = none → splitsNote body = true →
        declaredAlias (withNote body note) = Text.joinDistinct " | " (earlier ++ [noted]) ∧
          (declaredAlias (withNote body note) = declaredAlias body ↔
            (last = [] ∨ declaredAlternative last ∈ earlier) ∧ noted ∈ earlier)) := by
  intro earlier last noted
  have hopen : openAfter 0 body = 0 := openAfter_of_isBalanced hbalanced
  have hplain : literalBody? body = none → declaredAlias body = declaredPlain body := by
    intro hliteral
    have halone := declaredAlias_of_no_literal (t := body) (by rwa [hbare.trimmed])
    rwa [hbare.trimmed] at halone
  rw [declaredAlias_withNote_eq hbare.trimmed hne hnote]
  refine ⟨fun inner hliteral => ?_, fun hliteral hsplits => ?_, fun hliteral hsplits => ?_⟩
  · have hsame := declaredPlain_append_note hbare hne hopen hnote (splitsNote_of_literalBody? hliteral)
    exact ⟨hsame, fun hinner => hsame.trans (declaredPlain_of_literalBody? hbare hliteral hinner)⟩
  · rw [hplain hliteral, declaredPlain_append_note hbare hne hopen hnote hsplits]
  · rw [hplain hliteral]
    exact ⟨declaredPlain_append_note_of_splitsNote hbare hopen hnote hsplits,
      declaredPlain_append_note_iff hbare hopen hnote hsplits⟩

/-- With a note an object literal keeps its types as they were written, and a function type that ends in the colon of its
returns is said to return the note's dashes; behind its returns a note makes no difference. -/
theorem declaredAlias_withNote_of_literal :
    declaredAlias (withNote "\x7b hp: integer \x7d" "stats") = "\x7b hp: integer \x7d".toList ∧
      declaredAlias "\x7b hp: integer \x7d" = "\x7b hp: number \x7d".toList ∧
      declaredAlias (withNote "string|fun(): number" "stats") = declaredAlias "string|fun(): number" ∧
      declaredAlias (withNote "string|fun():" "stats") = "string | ((this: void) => --)".toList ∧
      declaredAlias (withNote "string|fun():" "stats") ≠ declaredAlias "string|fun():" := by
  have hnote : ∀ c ∈ "stats".toList, Text.isWordChar c = true := (Text.isWord_iff.mp (by decide)).2
  have hbareLiteral : IsBare "\x7b hp: integer \x7d".toList := ⟨by decide, by decide, by decide⟩
  have hbareReturns : IsBare "string|fun(): number".toList := ⟨by decide, by decide, by decide⟩
  have hbareColon : IsBare "string|fun():".toList := ⟨by decide, by decide, by decide⟩
  have hliteral := declaredAlias_withNote hbareLiteral (by decide) (by decide) hnote
  have hreturns := declaredAlias_withNote hbareReturns (by decide) (by decide) hnote
  have hcolon := declaredAlias_withNote hbareColon (by decide) (by decide) hnote
  obtain ⟨hread, hsame⟩ := hcolon.2.2 (by decide) (by decide)
  refine ⟨(hliteral.1 " hp: integer " (by decide)).2 (by decide), by decide, hreturns.2.1 (by decide) (by decide),
    hread.trans (by decide +kernel), fun heq => ?_⟩
  exact absurd (hsame.mp heq).2 (by decide +kernel)

/-- A note makes a difference to some bodies. -/
theorem declaredAlias_withNote_differently :
    ¬ ∀ body note : Text, IsBare body → body ≠ [] → isBalanced body = true →
      (∀ c ∈ note, Text.isWordChar c = true) → declaredAlias (withNote body note) = declaredAlias body := by
  intro h
  have hliteral := h "\x7b hp: integer \x7d" "stats" ⟨by decide, by decide, by decide⟩ (by decide) (by decide)
    (Text.isWord_iff.mp (by decide)).2
  exact absurd hliteral (by decide +kernel)

end LuaTypings.TypeText
