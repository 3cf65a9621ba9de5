import LuaTypings.Proofs.Repair.OpenAlternatives

/-!
# Function alternatives that are repaired again

The repair of function alternatives looks for the members and the aliases of a list of names. A line has a heading of
one name at most (`IsHeading.lineName_eq`), and it is repaired behind the heading as often as that name is listed
(`parenthesizeNames_append`). Each time closes one open alternative. `apply_functionUnions_twice_iff` says when a second
repair of a text changes nothing: when no line has more open alternatives than its name has places in the list.
-/

namespace LuaTypings.Repair

open Text

variable {line heading body name : Text} {members : List Text}

/-! ## Headings -/

/-- The heading of an alias of this name. -/
def aliasHeading (name : Text) : Text := "type " ++ name ++ " = "

/-- The marks between the name of a member and its type, for a required member and for an optional one. -/
def memberMarks : List Text := [": ", "?: "]

/-- A heading under which a name is looked for: of a member behind blanks, or of an alias. -/
inductive IsHeading (name : Text) : Text → Prop
  /-- The heading of a member. -/
  | member (indent mark : Text) (hindent : ∀ c ∈ indent, isBlank c = true) (hmark : mark ∈ memberMarks) :
    IsHeading name (indent ++ (name ++ mark))
  /-- The heading of an alias. -/
  | aliased : IsHeading name (aliasHeading name)

/-- The word behind the blanks at the start of a line, or the next one when a space follows it. -/
def lineName (line : Text) : Text :=
  match (stripStart line).span isWordChar with
  | (_, ' ' :: behind) => behind.takeWhile isWordChar
  | (word, _) => word

/-- The number of open alternatives on a line with a heading of this name. -/
def openAlternatives (name line : Text) : Nat :=
  match (cutMember? name line).or (cutHeading? (aliasHeading name) line) with
  | some (_, body) => openIn body
  | none => 0

/-- The line with its function alternative in parentheses, when it has a heading of this name. -/
def parenthesizeNamed (line name : Text) : Text :=
  parenthesizeLine (cutHeading? (aliasHeading name)) (parenthesizeLine (cutMember? name) line)

/-- The blanks in front of a word are the indentation of its line. -/
theorem indent_append {indent : Text} (hindent : ∀ c ∈ indent, isBlank c = true) (hname : isWord name = true)
    (t : Text) :
    (indent ++ (name ++ t)).takeWhile isBlank = indent ∧ stripStart (indent ++ (name ++ t)) = name ++ t := by
  have hhead : ∀ c ∈ (name ++ t).head?, isBlank c = false := by
    obtain ⟨c, word, rfl⟩ := List.exists_cons_of_ne_nil (isWord_iff.mp hname).1
    intro d hd
    rw [← Option.some.inj hd]
    exact isBlank_of_mem_isWord hname c List.mem_cons_self
  have hspan := span_append hindent hhead
  rw [List.span_eq_takeWhile_dropWhile] at hspan
  exact Prod.mk.inj hspan

/-- A word ends where a character follows it that no name holds. -/
theorem span_word {c : Char} (hname : isWord name = true) (hc : isWordChar c = false) (t : Text) :
    (name ++ c :: t).span isWordChar = (name, c :: t) :=
  span_append (isWord_iff.mp hname).2 (by simp [hc])

/-- A mark behind a name starts with a character that no name holds and that is no space. -/
theorem exists_of_mem_memberMarks {mark : Text} (h : mark ∈ memberMarks) :
    ∃ c t, mark = c :: t ∧ isWordChar c = false ∧ c ≠ ' ' := by
  obtain rfl | h := List.mem_cons.mp h
  · exact ⟨':', [' '], rfl, by decide, by decide⟩
  · obtain rfl := List.mem_singleton.mp h
    exact ⟨'?', [':', ' '], rfl, by decide, by decide⟩

/-- The name of an alias stands behind the keyword. -/
theorem aliasHeading_append (name t : Text) :
    aliasHeading name ++ t = "type ".toList ++ (name ++ (" = ".toList ++ t)) := by
  change "type ".toList ++ name ++ " = ".toList ++ t = _
  simp only [List.append_assoc]

/-- No blanks stand in front of the keyword of an alias. -/
theorem stripStart_keyword (t : Text) : stripStart ("type ".toList ++ t) = "type".toList ++ ' ' :: t := rfl

/-- A line is looked for by the name in its heading. -/
theorem IsHeading.lineName_eq (h : IsHeading name heading) (hname : isWord name = true) (body : Text) :
    lineName (heading ++ body) = name := by
  cases h with
  | member indent mark hindent hmark =>
    obtain ⟨c, t, rfl, hc, hspace⟩ := exists_of_mem_memberMarks hmark
    rw [lineName, List.append_assoc, List.append_assoc, (indent_append hindent hname _).2, List.cons_append,
      span_word hname hc]
    split
    · rename_i heq
      exact absurd (List.cons.inj (Prod.mk.inj heq).2).1 hspace
    · rename_i heq
      exact (Prod.mk.inj heq).1.symm
  | aliased =>
    have hkeyword : isWord "type".toList = true := by decide
    have hspan : ("type".toList ++ ' ' :: (name ++ (" = ".toList ++ body))).span isWordChar =
        ("type".toList, ' ' :: (name ++ (" = ".toList ++ body))) := span_word hkeyword (by decide) _
    have hbehind : (name ++ (" = ".toList ++ body)).takeWhile isWordChar = name := by
      have hspan' : (name ++ (" = ".toList ++ body)).span isWordChar = (name, " = ".toList ++ body) :=
        span_word hname (by decide) _
      rw [List.span_eq_takeWhile_dropWhile] at hspan'
      exact (Prod.mk.inj hspan').1
    rw [lineName, aliasHeading_append, stripStart_keyword, hspan]
    exact hbehind

/-- A line that is cut behind the name of a member has the heading of one. -/
theorem exists_of_cutMember? (h : cutMember? name line = some (heading, body)) :
    line = heading ++ body ∧
      ∃ indent mark, (∀ c ∈ indent, isBlank c = true) ∧ mark ∈ memberMarks ∧ heading = indent ++ (name ++ mark) := by
  obtain ⟨⟨named, rest⟩, hcut, heq⟩ := Option.bind_eq_some_iff.mp h
  obtain ⟨rfl, rfl⟩ := Prod.mk.inj (Option.some.inj heq)
  have hindent : ∀ c ∈ line.takeWhile isBlank, isBlank c = true := fun c hc => List.mem_takeWhile_imp hc
  have hline : line = line.takeWhile isBlank ++ stripStart line := List.takeWhile_append_dropWhile.symm
  obtain ⟨mark, hmark, hcut⟩ : ∃ mark ∈ memberMarks, cutHeading? (name ++ mark) (stripStart line) = some (named, rest) := by
    obtain hcut | ⟨-, hcut⟩ := (Option.orElse_eq_some _ _ _).mp hcut
    · exact ⟨": ", by decide, hcut⟩
    · exact ⟨"?: ", by decide, hcut⟩
  obtain ⟨u, hdrop, heq⟩ := Option.map_eq_some_iff.mp hcut
  obtain ⟨rfl, rfl⟩ := Prod.mk.inj heq
  rw [dropStart?_eq_some_iff.mp hdrop, ← List.append_assoc] at hline
  exact ⟨hline, _, mark, hindent, hmark, rfl⟩

/-- A line that is cut behind a heading has that heading. -/
theorem isHeading_of_cut
    (h : cutMember? name line = some (heading, body) ∨ cutHeading? (aliasHeading name) line = some (heading, body)) :
    line = heading ++ body ∧ IsHeading name heading := by
  obtain h | h := h
  · obtain ⟨hline, indent, mark, hindent, hmark, rfl⟩ := exists_of_cutMember? h
    exact ⟨hline, .member indent mark hindent hmark⟩
  · obtain ⟨rest, hdrop, heq⟩ := Option.map_eq_some_iff.mp h
    obtain ⟨rfl, rfl⟩ := Prod.mk.inj heq
    exact ⟨dropStart?_eq_some_iff.mp hdrop, .aliased⟩

/-- The name of a member is followed by another character than the keyword of an alias. -/
theorem member_ne_alias {indent mark : Text} (hindent : ∀ c ∈ indent, isBlank c = true) (hname : isWord name = true)
    (hmark : mark ∈ memberMarks) (t u : Text) : indent ++ (name ++ (mark ++ t)) ≠ "type ".toList ++ u := by
  intro heq
  obtain ⟨c, s, rfl, hc, hspace⟩ := exists_of_mem_memberMarks hmark
  have hkeyword : isWord "type".toList = true := by decide
  have hstrip := congrArg stripStart heq
  have hstrip' : stripStart ("type ".toList ++ u) = "type".toList ++ ' ' :: u := stripStart_keyword u
  rw [(indent_append hindent hname _).2, hstrip', List.cons_append] at hstrip
  obtain hmem | hmem := mem_or_mem_of_append_cons_eq hspace hstrip
  · exact not_mem_of_isWord hname (by decide) hmem
  · exact not_mem_of_isWord hkeyword hc hmem

/-- The heading of a member is none of an alias. -/
theorem cutHeading?_of_member {indent mark : Text} (hindent : ∀ c ∈ indent, isBlank c = true)
    (hname : isWord name = true) (hmark : mark ∈ memberMarks) (t : Text) :
    cutHeading? (aliasHeading name) (indent ++ (name ++ (mark ++ t))) = none := by
  rw [cutHeading?, Option.map_eq_none_iff, Option.eq_none_iff_forall_ne_some]
  intro rest hrest
  rw [dropStart?_eq_some_iff, aliasHeading_append] at hrest
  exact member_ne_alias hindent hname hmark t _ hrest

/-- The heading of an alias is none of a member. -/
theorem cutMember?_of_alias (hname : isWord name = true) (t : Text) : cutMember? name ("type ".toList ++ t) = none := by
  rw [Option.eq_none_iff_forall_ne_some]
  rintro ⟨heading, body⟩ hcut
  obtain ⟨hline, indent, mark, hindent, hmark, rfl⟩ := exists_of_cutMember? hcut
  rw [List.append_assoc, List.append_assoc] at hline
  exact member_ne_alias hindent hname hmark _ _ hline.symm

/-- The name and the mark of a member are found behind its indentation. -/
theorem cutMember?_of_member {indent mark : Text} (hindent : ∀ c ∈ indent, isBlank c = true)
    (hname : isWord name = true) (hmark : mark ∈ memberMarks) (t : Text) :
    cutMember? name (indent ++ (name ++ (mark ++ t))) = some (indent ++ (name ++ mark), t) := by
  have hfound : cutHeading? (name ++ mark) (name ++ (mark ++ t)) = some (name ++ mark, t) := by
    rw [cutHeading?, dropStart?_eq_some_iff.mpr (List.append_assoc name mark t).symm]
    rfl
  obtain ⟨hblanks, hstrip⟩ := indent_append hindent hname (mark ++ t)
  obtain rfl | hmark := List.mem_cons.mp hmark
  · rw [cutMember?, hblanks, hstrip, hfound]
    rfl
  · obtain rfl := List.mem_singleton.mp hmark
    -- A question mark is no colon, so the first of the two marks is not found.
    have hnone : cutHeading? (name ++ ": ".toList) (name ++ ("?: ".toList ++ t)) = none := by
      rw [cutHeading?, Option.map_eq_none_iff, Option.eq_none_iff_forall_ne_some]
      intro rest hrest
      rw [dropStart?_eq_some_iff, List.append_assoc, List.append_cancel_left_eq] at hrest
      exact absurd (List.cons.inj hrest).1 (by decide)
    rw [cutMember?, hblanks, hstrip, hnone, hfound]
    rfl

/-- Whatever stands behind a heading, the line is cut there, either as that of a member or as that of an alias. -/
theorem IsHeading.cut_eq (h : IsHeading name heading) (hname : isWord name = true) :
    (∀ body, cutMember? name (heading ++ body) = some (heading, body) ∧
        cutHeading? (aliasHeading name) (heading ++ body) = none) ∨
      ∀ body, cutMember? name (heading ++ body) = none ∧
        cutHeading? (aliasHeading name) (heading ++ body) = some (heading, body) := by
  cases h with
  | member indent mark hindent hmark =>
    refine .inl fun body => ?_
    rw [List.append_assoc, List.append_assoc]
    exact ⟨cutMember?_of_member hindent hname hmark body, cutHeading?_of_member hindent hname hmark body⟩
  | aliased =>
    refine .inr fun body => ⟨?_, ?_⟩
    · rw [aliasHeading_append]
      exact cutMember?_of_alias hname _
    · rw [cutHeading?, dropStart?_eq_some_iff.mpr rfl]
      rfl

/-! ## Lines -/

section Cut

variable {cut? : Text → Option (Text × Text)}

/-- A line that is cut is repaired behind the cut. -/
theorem parenthesizeLine_of_cut (h : cut? (heading ++ body) = some (heading, body)) :
    parenthesizeLine cut? (heading ++ body) = heading ++ wrap body := by
  rw [parenthesizeLine, h, Option.bind_some]
  dsimp only
  rw [parenthesizeBody?_eq, wrap]
  cases parenthesizeBody? [] body <;> rfl

/-- A line that is not cut stays as it is. -/
theorem parenthesizeLine_of_not_cut (h : cut? line = none) : parenthesizeLine cut? line = line := by
  rw [parenthesizeLine, h]
  rfl

/-- A repair behind a cut makes no second line of a line. -/
theorem keepsLines_parenthesizeLine
    (hcut : ∀ line heading body, cut? line = some (heading, body) → line = heading ++ body) :
    KeepsLines (parenthesizeLine cut?) := by
  intro line hline
  cases h : cut? line with
  | none => rwa [parenthesizeLine_of_not_cut h]
  | some parts =>
    obtain ⟨heading, body⟩ := parts
    obtain rfl := hcut line heading body h
    rw [List.mem_append, not_or] at hline
    rw [parenthesizeLine_of_cut h, List.mem_append, not_or]
    exact ⟨hline.1, not_mem_wrap hline.2⟩

end Cut

/-- A line with a heading of a name is repaired behind it. -/
theorem parenthesizeNamed_append (h : IsHeading name heading) (hname : isWord name = true) (body : Text) :
    parenthesizeNamed (heading ++ body) name = heading ++ wrap body := by
  rw [parenthesizeNamed]
  obtain hcut | hcut := h.cut_eq hname
  · rw [parenthesizeLine_of_cut (hcut body).1, parenthesizeLine_of_not_cut (hcut (wrap body)).2]
  · rw [parenthesizeLine_of_not_cut (hcut body).1, parenthesizeLine_of_cut (hcut body).2]

/-- The open alternatives of a line with a heading are those behind it. -/
theorem openAlternatives_append (h : IsHeading name heading) (hname : isWord name = true) (body : Text) :
    openAlternatives name (heading ++ body) = openIn body := by
  rw [openAlternatives]
  obtain hcut | hcut := h.cut_eq hname
  · rw [(hcut body).1]
    rfl
  · rw [(hcut body).1, (hcut body).2]
    rfl

/-- A line without a heading of a name has no open alternatives for it, and stays as it is. -/
theorem parenthesizeNamed_of_no_heading (h : ∀ heading body, line = heading ++ body → ¬ IsHeading name heading) :
    parenthesizeNamed line name = line ∧ openAlternatives name line = 0 := by
  have hmember : cutMember? name line = none := Option.eq_none_iff_forall_ne_some.mpr fun parts hcut =>
    have hheading := isHeading_of_cut (.inl hcut)
    h _ _ hheading.1 hheading.2
  have halias : cutHeading? (aliasHeading name) line = none := Option.eq_none_iff_forall_ne_some.mpr fun parts hcut =>
    have hheading := isHeading_of_cut (.inr hcut)
    h _ _ hheading.1 hheading.2
  constructor
  · rw [parenthesizeNamed, parenthesizeLine_of_not_cut hmember, parenthesizeLine_of_not_cut halias]
  · rw [openAlternatives, hmember, halias]
    rfl

/-- The line after the repairs for all names. -/
def parenthesizeNames (members : List Text) (line : Text) : Text := members.foldl parenthesizeNamed line

/-- A line that no name changes stays as it is. -/
theorem parenthesizeNames_eq_self (h : ∀ name ∈ members, parenthesizeNamed line name = line) :
    parenthesizeNames members line = line := foldl_eq_self h

/-- A line with a heading is repaired behind it as often as its name is listed. -/
theorem parenthesizeNames_append (h : IsHeading name heading) (hname : isWord name = true)
    (hmembers : ∀ m ∈ members, isWord m = true) (body : Text) :
    parenthesizeNames members (heading ++ body) = heading ++ wrap^[members.count name] body := by
  induction members generalizing body with
  | nil => rfl
  | cons m members ih =>
    have ih := ih fun n hn => hmembers n (List.mem_cons_of_mem m hn)
    rw [parenthesizeNames, List.foldl_cons, ← parenthesizeNames]
    by_cases hm : m = name
    · subst hm
      rw [parenthesizeNamed_append h hname, ih, List.count_cons_self, Function.iterate_succ_apply]
    · -- The heading names one member only, which is not this one.
      have hother : ∀ other rest, heading ++ body = other ++ rest → ¬ IsHeading m other := by
        intro other rest heq hother
        have hlist := hother.lineName_eq (hmembers m List.mem_cons_self) rest
        rw [← heq, h.lineName_eq hname body] at hlist
        exact hm hlist.symm
      rw [(parenthesizeNamed_of_no_heading hother).1, ih, List.count_cons_of_ne hm]

/-- A second repair of a line changes nothing exactly when the first one has closed all its alternatives. -/
theorem parenthesizeNames_twice_iff (hmembers : ∀ m ∈ members, isWord m = true) (line : Text) :
    parenthesizeNames members (parenthesizeNames members line) = parenthesizeNames members line ↔
      ∀ name ∈ members, openAlternatives name line ≤ members.count name := by
  -- The line has the heading of one listed name, or of none of them.
  by_cases hline : ∃ name ∈ members, ∃ heading body, line = heading ++ body ∧ IsHeading name heading
  · obtain ⟨name, hname, heading, body, rfl, h⟩ := hline
    have hword := hmembers name hname
    have hcount : members.count name ≠ 0 := (List.count_pos_iff.mpr hname).ne'
    rw [parenthesizeNames_append h hword hmembers, parenthesizeNames_append h hword hmembers,
      List.append_cancel_left_eq, iterate_wrap_twice_iff hcount]
    constructor
    · intro hopen other hother
      by_cases hheading : ∃ heading' body', heading ++ body = heading' ++ body' ∧ IsHeading other heading'
      · obtain ⟨heading', body', heq, h'⟩ := hheading
        have hsame := h'.lineName_eq (hmembers other hother) body'
        rw [← heq, h.lineName_eq hword] at hsame
        rw [← hsame, openAlternatives_append h hword]
        exact hopen
      · have hnone := parenthesizeNamed_of_no_heading fun heading' body' heq h' => hheading ⟨heading', body', heq, h'⟩
        rw [hnone.2]
        exact Nat.zero_le _
    · intro hopen
      have hthis := hopen name hname
      rwa [openAlternatives_append h hword] at hthis
  · have hnone : ∀ name ∈ members, parenthesizeNamed line name = line ∧ openAlternatives name line = 0 :=
      fun name hname => parenthesizeNamed_of_no_heading fun heading body heq h =>
        hline ⟨name, hname, heading, body, heq, h⟩
    have hkept := parenthesizeNames_eq_self fun name hname => (hnone name hname).1
    rw [hkept, hkept]
    refine iff_of_true rfl fun name hname => ?_
    rw [(hnone name hname).2]
    exact Nat.zero_le _

/-- The repair for one name makes no second line of a line. -/
theorem keepsLines_parenthesizeNamed (name : Text) : KeepsLines (parenthesizeNamed · name) := by
  have hmember : KeepsLines (parenthesizeLine (cutMember? name)) :=
    keepsLines_parenthesizeLine fun _ _ _ hcut => (isHeading_of_cut (.inl hcut)).1
  have halias : KeepsLines (parenthesizeLine (cutHeading? (aliasHeading name))) :=
    keepsLines_parenthesizeLine fun _ _ _ hcut => (isHeading_of_cut (.inr hcut)).1
  exact fun _ hline => halias (hmember hline)

/-- The repairs for all names make no second line of a line. -/
theorem keepsLines_parenthesizeNames (members : List Text) : KeepsLines (parenthesizeNames members) := by
  intro line hline
  induction members generalizing line with
  | nil => exact hline
  | cons name members ih => exact ih (keepsLines_parenthesizeNamed name hline)

/-- The repair for one name changes every line by itself. -/
theorem parenthesizeMember_eq_mapLines (t name : Text) :
    parenthesizeMember t name = mapLines (parenthesizeNamed · name) t :=
  mapLines_mapLines (keepsLines_parenthesizeLine fun _ _ _ hcut => (isHeading_of_cut (.inl hcut)).1) _ t

/-- The repair of function alternatives changes every line by itself. -/
theorem apply_functionUnions (members : List Text) (t : Text) :
    apply t (.functionUnions members) = mapLines (parenthesizeNames members) t := by
  change members.foldl parenthesizeMember t = _
  induction members generalizing t with
  | nil => exact (mapLines_eq_self fun _ _ => rfl).symm
  | cons name members ih =>
    rw [List.foldl_cons, ih, parenthesizeMember_eq_mapLines, mapLines_mapLines (keepsLines_parenthesizeNamed name)]
    rfl

/-- A second repair of function alternatives changes nothing exactly when no line has more open alternatives than its
name has places in the list. -/
theorem apply_functionUnions_twice_iff (hmembers : ∀ name ∈ members, isWord name = true) (t : Text) :
    apply (apply t (.functionUnions members)) (.functionUnions members) = apply t (.functionUnions members) ↔
      ∀ line ∈ splitAll (· == '\n') t, ∀ name ∈ members, openAlternatives name line ≤ members.count name := by
  have hkeep := keepsLines_parenthesizeNames members
  have hkeep' : KeepsLines (parenthesizeNames members ∘ parenthesizeNames members) := fun _ hline => hkeep (hkeep hline)
  rw [apply_functionUnions, apply_functionUnions, mapLines_mapLines hkeep, mapLines_eq_mapLines_iff hkeep' hkeep]
  exact forall₂_congr fun line _ => parenthesizeNames_twice_iff hmembers line

/-- A function that takes no function alternative is put in parentheses once and for all. -/
theorem apply_functionUnions_twice_of_plain :
    isWord "vec2".toList = true ∧
      apply (apply "  vec2: vec2 | (this: void, x: number) => vec2;" (.functionUnions ["vec2".toList]))
          (.functionUnions ["vec2".toList]) =
        apply "  vec2: vec2 | (this: void, x: number) => vec2;" (.functionUnions ["vec2".toList]) :=
  ⟨by decide, (apply_functionUnions_twice_iff (by decide) _).mpr (by decide +kernel)⟩

/-- A function that takes a function alternative is repaired again, inside its parameters. -/
theorem apply_functionUnions_nested :
    apply "  vec2: x | (this: void, cb: y | (this: void) => void) => void;" (.functionUnions ["vec2".toList]) =
        "  vec2: x | ((this: void, cb: y | (this: void) => void) => void);".toList ∧
      apply "  vec2: x | ((this: void, cb: y | (this: void) => void) => void);" (.functionUnions ["vec2".toList]) =
        "  vec2: x | ((this: void, cb: y | ((this: void) => void) => void));".toList ∧
      apply (apply "  vec2: x | (this: void, cb: y | (this: void) => void) => void;" (.functionUnions ["vec2".toList]))
          (.functionUnions ["vec2".toList]) ≠
        apply "  vec2: x | (this: void, cb: y | (this: void) => void) => void;" (.functionUnions ["vec2".toList]) := by
  decide +kernel

end LuaTypings.Repair
