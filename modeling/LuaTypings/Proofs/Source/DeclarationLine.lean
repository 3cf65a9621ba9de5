import LuaTypings.Proofs.Source.LineText

/-!
# Lines of members that are functions

A function is declared as a member of a class by its path and its parameters, or documented by a field of a function
type. Both lines are read back, whatever stands behind the closing parenthesis of the declaration
(`ofLine_declaration`, `ofLine_functionField`).
-/

namespace LuaTypings.Source

open Text (isWord isLastPart isWordChar isBlank splitAll)

/-! ## Declared parameters -/

/-- Whether a text can be declared as a parameter: a name, or the three dots. -/
def isParamName (t : Text) : Bool := isWord t || t == "..."

/-- A declared parameter consists of word characters and dots. -/
theorem char_of_mem_isParamName {t : Text} (h : isParamName t = true) : ∀ c ∈ t, isWordChar c = true ∨ c = '.' := by
  rw [isParamName, Bool.or_eq_true, beq_iff_eq] at h
  obtain hword | rfl := h
  · exact fun c hc => .inl ((Text.isWord_iff.mp hword).2 c hc)
  · exact fun c hc => .inr (by simpa using hc)

/-- A declared parameter is not empty. -/
theorem ne_nil_of_isParamName {t : Text} (h : isParamName t = true) : t ≠ [] := by
  rintro rfl
  exact absurd h (by decide)

/-- A declared parameter is trimmed. -/
theorem strip_of_isParamName {t : Text} (h : isParamName t = true) : Text.strip t = t := by
  refine Text.strip_of_not_blank fun c hc => ?_
  obtain hword | rfl := char_of_mem_isParamName h c hc
  · exact Text.isBlank_of_isWordChar hword
  · decide

/-- A character that is neither a word character nor a dot does not occur in a declared parameter. -/
theorem not_mem_of_isParamName {t : Text} {d : Char} (h : isParamName t = true) (hd : isWordChar d = false)
    (hdot : d ≠ '.') : d ∉ t := by
  intro hmem
  obtain hword | hdot' := char_of_mem_isParamName h d hmem
  · exact Text.ne_of_isWordChar hword hd rfl
  · exact hdot hdot'

/-- A space in front of a text makes no difference to its trimmed pieces. -/
theorem map_strip_splitAll_space (t : Text) :
    (splitAll (· == ',') (' ' :: t)).map Text.strip = (splitAll (· == ',') t).map Text.strip := by
  obtain ⟨piece, pieces, hpieces⟩ := Text.exists_splitAll (· == ',') t
  have hcons : splitAll (· == ',') (' ' :: t) = (' ' :: piece) :: pieces := by
    rw [splitAll, if_neg (by decide), hpieces]
  have hstrip : Text.strip (' ' :: piece) = Text.strip piece := Text.strip_blanks_append Text.isBlank_of_mem_space piece
  rw [hcons, hpieces, List.map_cons, List.map_cons, hstrip]

/-- Declared parameters are cut apart again. -/
theorem strip_splitAll_join {params : List Text} (h : ∀ name ∈ params, isParamName name = true) :
    ((splitAll (· == ',') (Text.join ", " params)).map Text.strip).filter (!·.isEmpty) = params := by
  have hone : ∀ name : Text, isParamName name = true → splitAll (· == ',') name = [name] := fun name hname =>
    Text.splitAll_of_forall fun c hc => beq_false_of_ne fun heq => not_mem_of_isParamName hname (by decide) (by decide) (heq ▸ hc)
  have hne : ∀ name : Text, isParamName name = true → (!name.isEmpty) = true := fun name hname => by
    simpa using ne_nil_of_isParamName hname
  induction params with
  | nil => rfl
  | cons name params ih =>
    obtain ⟨hname, hrest⟩ := List.forall_mem_cons.mp h
    have hfilter : ∀ pieces : List Text, (name :: pieces).filter (!·.isEmpty) = name :: pieces.filter (!·.isEmpty) :=
      fun pieces => List.filter_cons_of_pos (hne name hname)
    cases params with
    | nil =>
      rw [Text.join_singleton, hone name hname, List.map_singleton, strip_of_isParamName hname, hfilter]
      rfl
    | cons next params =>
      have hcut : splitAll (· == ',') (Text.join ", " (name :: next :: params)) =
          name :: splitAll (· == ',') (' ' :: Text.join ", " (next :: params)) := by
        have hjoin : Text.join ", " (name :: next :: params) = name ++ ',' :: ' ' :: Text.join ", " (next :: params) := by
          rw [Text.join_cons_cons]
          simp
        rw [hjoin, Text.splitAll_append_cons (by decide), hone name hname]
        rfl
      rw [hcut, List.map_cons, map_strip_splitAll_space, strip_of_isParamName hname, hfilter, ih hrest]

/-- Parameters in parentheses are read, whatever follows. -/
theorem declaredParams?_append {params : List Text} (h : ∀ name ∈ params, isParamName name = true) (tail : Text) :
    declaredParams? ('(' :: (Text.join ", " params ++ ')' :: tail)) = some params := by
  have hparen : isBlank '(' = false := by decide
  have hstart : Text.stripStart ('(' :: (Text.join ", " params ++ ')' :: tail)) =
      '(' :: (Text.join ", " params ++ ')' :: tail) := Text.stripStart_eq_self_iff.mpr (by simp [hparen])
  have hinside : ')' ∉ Text.join ", " params := by
    by_cases hne : params = []
    · rw [hne]
      decide
    · refine Text.join_of_append (motive := fun t => ')' ∉ t) (fun s t hs ht => by simp [hs, ht]) (by decide) hne ?_
      exact fun name hname => not_mem_of_isParamName (h name hname) (by decide) (by decide)
  have hopen : Text.dropStart? "(" ('(' :: (Text.join ", " params ++ ')' :: tail)) =
      some (Text.join ", " params ++ ')' :: tail) := rfl
  rw [declaredParams?, hstart, hopen, Option.bind_eq_bind, Option.bind_some, Text.cutAtChar_append_cons hinside]
  exact congrArg some (strip_splitAll_join h)

/-! ## Declarations -/

/-- Words between dots are read up to what is neither a word character nor a dot. -/
theorem dottedWords?_join {names : List Text} (hne : names ≠ []) (h : ∀ name ∈ names, isWord name = true) {rest : Text}
    (hrest : ∀ c ∈ rest.head?, (isWordChar c || c == '.') = false) :
    dottedWords? (Text.join "." names ++ rest) = some (names, rest) := by
  have hchars : ∀ c ∈ Text.join "." names, (isWordChar c || c == '.') = true := by
    refine Text.join_of_append (motive := fun t => ∀ c ∈ t, (isWordChar c || c == '.') = true)
      (fun s t hs ht => List.forall_mem_append.mpr ⟨hs, ht⟩) (List.forall_mem_singleton.mpr (by decide)) hne ?_
    exact fun name hname c hc => by simp [(Text.isWord_iff.mp (h name hname)).2 c hc]
  have hsplit : splitAll (· == '.') (Text.join "." names) = names := by
    have hone : ∀ name ∈ names, splitAll (· == '.') name = [name] := fun name hname =>
      Text.splitAll_of_forall fun c hc => beq_false_of_ne fun heq =>
        Text.not_mem_of_isWord (h name hname) (by decide) (heq ▸ hc)
    calc splitAll (· == '.') (Text.join "." names)
        = names.flatMap (splitAll (· == '.')) := Text.splitAll_join hne
      _ = names.flatMap fun name => [name] := List.flatMap_congr hone
      _ = names := by simp
  have hempty : names.any List.isEmpty = false := by
    rw [List.any_eq_false]
    exact fun name hname => by simpa using (Text.isWord_iff.mp (h name hname)).1
  rw [dottedWords?, Text.span_append hchars hrest]
  simp only [hsplit, hempty]
  rfl

/-- A path behind a space is what stands behind the blanks. -/
theorem afterBlanks?_space_join {names : List Text} (hne : names ≠ []) (h : ∀ name ∈ names, isWord name = true)
    (rest : Text) : afterBlanks? (' ' :: (Text.join "." names ++ rest)) = some (Text.join "." names ++ rest) := by
  have hspace : isBlank ' ' = true := by decide
  have hhead : ∀ c ∈ (Text.join "." names ++ rest).head?, isBlank c = false := by
    obtain ⟨name, names, rfl⟩ := List.exists_cons_of_ne_nil hne
    obtain ⟨hword, -⟩ := List.forall_mem_cons.mp h
    obtain ⟨c, name, rfl⟩ := List.exists_cons_of_ne_nil (Text.isWord_iff.mp hword).1
    have hc : isBlank c = false := Text.isBlank_of_mem_isWord hword c List.mem_cons_self
    cases names with
    | nil => simpa [Text.join_singleton] using hc
    | cons next names => simpa [Text.join_cons_cons] using hc
  have hstrip : Text.stripStart (' ' :: (Text.join "." names ++ rest)) = Text.join "." names ++ rest := by
    rw [Text.stripStart, List.dropWhile_cons_of_pos hspace]
    exact Text.stripStart_eq_self_iff.mpr hhead
  rw [afterBlanks?, hstrip]
  simp [hspace]

section Declaration

variable {path params : List Text} {className method : Text} (hpath : ∀ name ∈ path, isWord name = true)
  (hclass : isWord className = true) (hmethod : isWord method = true)
include hpath hclass hmethod

/-- A declaration with a colon is read when its parameters are. -/
theorem declaredFunction?_colon {list : Text} (hlist : declaredParams? ('(' :: list) = some params) :
    declaredFunction? ("function" ++ ' ' :: (Text.join "." (path ++ [className]) ++ ':' :: (method ++ '(' :: list))) =
      some ⟨className, method, params, true⟩ := by
  have hnames : ∀ name ∈ path ++ [className], isWord name = true :=
    List.forall_mem_append.mpr ⟨hpath, List.forall_mem_singleton.mpr hclass⟩
  have hne : path ++ [className] ≠ [] := by simp
  have hkeyword : ∀ rest : Text, Text.dropStart? "function" ("function" ++ rest) = some rest := fun rest =>
    Text.dropStart?_eq_some_iff.mpr rfl
  have hcolon : (isWordChar ':' || ':' == '.') = false := by decide
  have hparen : isWordChar '(' = false := by decide
  have hdotted : dottedWords? (Text.join "." (path ++ [className]) ++ ':' :: (method ++ '(' :: list)) =
      some (path ++ [className], ':' :: (method ++ '(' :: list)) :=
    dottedWords?_join hne hnames fun c hc => Option.mem_some_iff.mp hc ▸ hcolon
  have hword : word? (method ++ '(' :: list) = some (method, '(' :: list) :=
    word?_append hmethod fun c hc => Option.mem_some_iff.mp hc ▸ hparen
  simp only [declaredFunction?, hkeyword, afterBlanks?_space_join hne hnames, hdotted, hword, hlist,
    Option.bind_eq_bind, Option.bind_some, List.getLast?_concat, Option.pure_def]

/-- A declaration with a dot is read when its parameters are. -/
theorem declaredFunction?_dot {list : Text} (hlist : declaredParams? ('(' :: list) = some params) :
    declaredFunction? ("function" ++ ' ' :: (Text.join "." (path ++ [className, method]) ++ '(' :: list)) =
      some ⟨className, method, params, false⟩ := by
  have hnames : ∀ name ∈ path ++ [className, method], isWord name = true :=
    List.forall_mem_append.mpr ⟨hpath, by simp [hclass, hmethod]⟩
  have hne : path ++ [className, method] ≠ [] := by simp
  have hkeyword : ∀ rest : Text, Text.dropStart? "function" ("function" ++ rest) = some rest := fun rest =>
    Text.dropStart?_eq_some_iff.mpr rfl
  have hparen : (isWordChar '(' || '(' == '.') = false := by decide
  have hdotted : dottedWords? (Text.join "." (path ++ [className, method]) ++ '(' :: list) =
      some (path ++ [className, method], '(' :: list) :=
    dottedWords?_join hne hnames fun c hc => Option.mem_some_iff.mp hc ▸ hparen
  have hpair : path ++ [className, method] = (path ++ [className]) ++ [method] := by simp
  have hlast : (path ++ [className, method]).getLast? = some method := by rw [hpair, List.getLast?_concat]
  have hbefore : (path ++ [className, method]).dropLast.getLast? = some className := by
    rw [hpair, List.dropLast_concat, List.getLast?_concat]
  simp only [declaredFunction?, hkeyword, afterBlanks?_space_join hne hnames, hdotted, hlist, hlast, hbefore,
    Option.bind_eq_bind, Option.bind_some, Option.pure_def]
  rfl

end Declaration

/-- The line of a declaration is trimmed behind its parameters. -/
theorem strip_function_append (middle tail : Text) :
    Text.strip ("function" ++ middle ++ ')' :: tail) = "function" ++ middle ++ ')' :: Text.stripEnd tail := by
  have hfunction : "function".toList = 'f' :: "unction".toList := rfl
  rw [hfunction, List.cons_append, List.cons_append, Text.strip_cons (by decide), Text.stripEnd_append_cons (by decide)]
  rfl

/-- A declaration is read back, whatever stands behind its parameters. -/
theorem ofLine_declaration {path : List Text} {d : DeclaredFunction} (hpath : ∀ name ∈ path, isWord name = true)
    (hclass : isWord d.className = true) (hmethod : isWord d.method = true)
    (hparams : ∀ name ∈ d.params, isParamName name = true) (tail : Text) :
    Directive.ofLine (d.line path ++ tail) = .function d := by
  obtain ⟨className, method, params, colon⟩ := d
  have hlist := declaredParams?_append hparams (Text.stripEnd tail)
  have hkeyword : "function ".toList = "function".toList ++ [' '] := rfl
  have hfound : declaredFunction? (Text.strip (DeclaredFunction.line path ⟨className, method, params, colon⟩ ++ tail)) =
      some ⟨className, method, params, colon⟩ := by
    cases colon with
    | true =>
      have hline : DeclaredFunction.line path ⟨className, method, params, true⟩ = "function ".toList ++
          Text.join "." (path ++ [className]) ++ [':'] ++ method ++ ['('] ++ Text.join ", " params ++ [')'] := rfl
      have hwhole : DeclaredFunction.line path ⟨className, method, params, true⟩ ++ tail = "function" ++
          (' ' :: (Text.join "." (path ++ [className]) ++ ':' :: (method ++ '(' :: Text.join ", " params))) ++
            ')' :: tail := by
        rw [hline, hkeyword]
        simp only [List.append_assoc, List.cons_append, List.nil_append]
      have hread := declaredFunction?_colon hpath hclass hmethod hlist
      rw [hwhole, strip_function_append, ← hread]
      simp only [List.append_assoc, List.cons_append]
    | false =>
      have hline : DeclaredFunction.line path ⟨className, method, params, false⟩ = "function ".toList ++
          Text.join "." (path ++ [className]) ++ ['.'] ++ method ++ ['('] ++ Text.join ", " params ++ [')'] := rfl
      have hjoin : Text.join "." (path ++ [className, method]) = Text.join "." (path ++ [className]) ++ ['.'] ++ method := by
        have hpair : path ++ [className, method] = (path ++ [className]) ++ [method] := by simp
        rw [hpair, Text.join_concat _ (by simp)]
        rfl
      have hwhole : DeclaredFunction.line path ⟨className, method, params, false⟩ ++ tail = "function" ++
          (' ' :: (Text.join "." (path ++ [className, method]) ++ '(' :: Text.join ", " params)) ++ ')' :: tail := by
        rw [hline, hkeyword, hjoin]
        simp only [List.append_assoc, List.cons_append, List.nil_append]
      have hread := declaredFunction?_dot hpath hclass hmethod hlist
      rw [hwhole, strip_function_append, ← hread]
      simp only [List.append_assoc, List.cons_append]
  rw [Directive.ofLine, hfound]

/-! ## Fields of a function type -/

/-- A text that is read in no other way behind a scope is read as it is. -/
theorem scoped?_of_forall {α : Type} {read : Text → Option α} {t : Text}
    (h : ∀ s, afterScope? t = some s → read s = none) : scoped? read t = read t := by
  rw [scoped?]
  cases hscope : afterScope? t with
  | none => rfl
  | some s =>
    rw [Option.bind_some, h s hscope]
    rfl

/-- A function type is no field: no blank stands behind its keyword. -/
theorem fieldNote?_of_functionType (rest : Text) : fieldNote? ("fun(" ++ rest) = none := by
  have hword : word? ("fun" ++ '(' :: rest) = some ("fun".toList, '(' :: rest) :=
    word?_append (by decide) (by simp; decide)
  have hmarked : markedWord? ("fun(" ++ rest) = some ("fun".toList, false, '(' :: rest) := by
    have htext : "fun(".toList ++ rest = "fun".toList ++ '(' :: rest := rfl
    rw [htext, markedWord?, hword]
    rfl
  rw [fieldNote?, hmarked]
  rfl

/-- A field of a function type is read back, whatever its name. -/
theorem ofLine_functionField {name rest : Text} (hname : isWord name = true) (htype : isLastPart ("fun(" ++ rest) = true) :
    Directive.ofLine (annotationLine "field" [name, "fun(" ++ rest]) = .field ⟨name, "fun(" ++ rest, false, none⟩ := by
  have hfunction : TypeText.isFunctionText ("fun(" ++ rest) = true := by
    have hstart : "fun(".toList <+: "fun(" ++ rest := List.prefix_append _ _
    rw [TypeText.isFunctionText, Text.startsWith, List.isPrefixOf_iff_prefix.mpr hstart]
    rfl
  have hinner := fieldNote?_of_functionType rest
  have hindexInner : indexField? ("fun" ++ '(' :: rest) = none := indexField?_of_isWord (by decide) ('(' :: rest)
  have htext : "fun".toList ++ '(' :: rest = "fun(".toList ++ rest := rfl
  rw [htext] at hindexInner
  generalize "fun(".toList ++ rest = type at *
  have hword : word? (name ++ ' ' :: type) = some (name, ' ' :: type) := word?_marked hname false type
  -- A name that is a scope, too, leaves only the type behind it.
  have hscope : ∀ s, afterScope? (name ++ ' ' :: type) = some s → s = type := by
    intro s hs
    have hspace : isBlank ' ' = true := by decide
    have hblanks : afterBlanks? (' ' :: type) = some type := by
      rw [afterBlanks?, stripStart_space_cons htype]
      simp [hspace]
    rw [afterScope?, hword, Option.bind_eq_bind, Option.bind_some] at hs
    dsimp only at hs
    split at hs
    · exact Option.some.inj (hs.symm.trans hblanks)
    · cases hs
  have hindex : scoped? indexField? (name ++ ' ' :: type) = none := by
    rw [scoped?_of_forall fun s hs => hscope s hs ▸ hindexInner]
    exact indexField?_of_isWord hname _
  have hfield : scoped? fieldNote? (name ++ ' ' :: type) = some ⟨name, type, false, none⟩ := by
    rw [scoped?_of_forall fun s hs => hscope s hs ▸ hinner, ← FieldNote.ofParts_of_not_prose false (.inl hfunction)]
    exact fieldNote?_marked hname false htype
  have htag : tagged? "field" (name ++ ' ' :: type) = some (.field ⟨name, type, false, none⟩) := by
    change (((scoped? indexField? _).map fun found => Directive.indexField found.1 found.2) <|>
      (scoped? fieldNote? _).map Directive.field) = _
    rw [hindex, hfield]
    rfl
  rw [ofLine_annotationLine (by decide) (List.cons_ne_nil _ _)
    (forall_mem_pair (Text.isLastPart_of_isWord hname) htype), join_pair, htag]
  rfl

/-- A return line gives what is left of its text without prose. -/
theorem ofLine_returns {type : Text} (htype : isLastPart type = true) :
    Directive.ofLine (annotationLine "return" [type]) = .returns (TypeText.withoutProse type) := by
  obtain ⟨hne, -, hfeed⟩ := Text.isLastPart_iff.mp htype
  have hfeed : type.contains '\n' = false := by simpa using hfeed
  have htag : tagged? "return" type = some (.returns (TypeText.withoutProse type)) := by
    change (if type.isEmpty || type.contains '\n' then none else some (Directive.returns (TypeText.withoutProse type))) = _
    rw [hfeed, List.isEmpty_eq_false_iff.mpr hne]
    rfl
  rw [ofLine_annotationLine (by decide) (List.cons_ne_nil _ _) (List.forall_mem_singleton.mpr htype),
    Text.join_singleton, htag]
  rfl

end LuaTypings.Source
