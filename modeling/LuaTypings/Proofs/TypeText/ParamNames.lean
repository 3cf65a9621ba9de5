import Mathlib.Data.List.Nodup
import LuaTypings.Proofs.TypeText.SignatureText

/-!
# Names of parameters

A parameter keeps its name in the declaration, with two exceptions: a reserved word gets an underscore in front of it,
and a variadic parameter without a name is called `args`. Hence no parameter is named by a reserved word, and parameters
with different names are declared under different names unless one of them is written under the very name that another
one gets (`declaredName_eq_iff`). The receiver is declared as `this`, which is a reserved word, so it never takes the
name of a parameter (`Callable.names_ofText`).
-/

namespace LuaTypings.TypeText

/-! ## Written and declared names -/

/-- Whether a part of a parameter list is a variadic parameter. -/
def isVariadicPart (part : Text) : Bool := (Text.dropStart? "..." part).isSome

/-- The name in a part of a parameter list: behind the dots of a variadic parameter and in front of the colon, without
the question marks of an optional parameter. It is empty where nothing but dots is written. -/
def writtenName (part : Text) : Text :=
  match Text.dropStart? "..." part with
  | some rest => Text.strip (Text.cutAtChar ':' rest).1
  | none =>
    match Text.cutAtChar ':' part with
    | (name, none) => Text.strip name
    | (name, some _) => Text.stripQuestionMarks (Text.strip name)

/-- The name of a parameter, which is `args` where none is written. -/
def givenName (name : Text) : Text := if name.isEmpty then "args" else name

/-- The name under which a parameter is declared. -/
def declaredName (name : Text) : Text := safeParamName (givenName name)

/-- Whether a parameter of the first name is declared under the second one because its own cannot stand. -/
def NamesClash (x y : Text) : Prop := (x ∈ forbiddenParamNames ∧ y = '_' :: x) ∨ (x = [] ∧ y = "args")

instance : DecidableRel NamesClash := fun _ _ => inferInstanceAs (Decidable (_ ∨ _))

/-- The entries of a callable's parameter list: the receiver first, then the parameters. -/
def Callable.entries (c : Callable) : List Text :=
  ("this: " ++ c.receiver?.getD voidType) :: c.params.map Param.render

/-- The identifier that an entry of a parameter list declares: the word behind the dots, if there are any. -/
def declaredIdentifier (entry : Text) : Text := (Text.spanWord ((Text.dropStart? "..." entry).getD entry)).1

/-! ## Renaming -/

/-- No reserved word starts with an underscore. -/
theorem head?_of_mem_forbiddenParamNames : ∀ name ∈ forbiddenParamNames, name.head? ≠ some '_' := by decide

/-- Reserved words are words. -/
theorem isWord_of_mem_forbiddenParamNames : ∀ name ∈ forbiddenParamNames, Text.isWord name = true := by decide +kernel

/-- A reserved word is declared with an underscore in front of it. -/
theorem declaredName_of_mem {name : Text} (h : name ∈ forbiddenParamNames) : declaredName name = '_' :: name := by
  have hne : name ≠ [] := (Text.isWord_iff.mp (isWord_of_mem_forbiddenParamNames name h)).1
  simp [declaredName, givenName, safeParamName, h, hne]

/-- A variadic parameter without a name is declared under the name `args`. -/
theorem declaredName_nil : declaredName [] = "args" := by decide

/-- Any other name is kept. -/
theorem declaredName_of_not_mem {name : Text} (h : name ∉ forbiddenParamNames) (hne : name ≠ []) :
    declaredName name = name := by
  simp [declaredName, givenName, safeParamName, h, hne]

/-- A name is none, or a reserved word, or one that is kept. -/
theorem declaredName_cases (name : Text) :
    (name = [] ∧ declaredName name = "args".toList) ∨ (name ∈ forbiddenParamNames ∧ declaredName name = '_' :: name) ∨
      (name ∉ forbiddenParamNames ∧ declaredName name = name) := by
  rcases eq_or_ne name [] with rfl | hne
  · exact .inl ⟨rfl, declaredName_nil⟩
  · by_cases hmem : name ∈ forbiddenParamNames
    · exact .inr (.inl ⟨hmem, declaredName_of_mem hmem⟩)
    · exact .inr (.inr ⟨hmem, declaredName_of_not_mem hmem hne⟩)

/-- No parameter is declared under a reserved word. -/
theorem declaredName_not_mem (name : Text) : declaredName name ∉ forbiddenParamNames := by
  obtain ⟨-, heq⟩ | ⟨-, heq⟩ | ⟨hmem, heq⟩ := declaredName_cases name
  · rw [heq]
    decide
  · rw [heq]
    exact fun hmem => head?_of_mem_forbiddenParamNames _ hmem rfl
  · rwa [heq]

/-- A parameter with a name, or a variadic one, is declared under a word. -/
theorem isWord_declaredName {name : Text} (h : Text.isWord name = true ∨ name = []) :
    Text.isWord (declaredName name) = true := by
  obtain h | rfl := h
  · obtain ⟨rfl, heq⟩ | ⟨-, heq⟩ | ⟨-, heq⟩ := declaredName_cases name
    · cases h
    · rw [heq, Text.isWord_iff]
      exact ⟨List.cons_ne_nil _ _, List.forall_mem_cons.mpr ⟨by decide, (Text.isWord_iff.mp h).2⟩⟩
    · rwa [heq]
  · decide

/-- A name clashes with none that it equals. -/
theorem ne_of_namesClash {x y : Text} (h : NamesClash x y) : x ≠ y := by
  rintro rfl
  obtain ⟨-, h⟩ | ⟨rfl, h⟩ := h
  · exact List.cons_ne_self '_' x h.symm
  · exact absurd h (by decide)

/-- The receiver's name clashes with none. -/
theorem ne_receiverName_of_namesClash {x y : Text} (h : NamesClash x y) : x ≠ receiverName ∧ y ≠ receiverName := by
  obtain ⟨hmem, rfl⟩ | ⟨rfl, rfl⟩ := h
  · refine ⟨?_, by simp [receiverName]⟩
    rintro rfl
    exact absurd hmem (by decide)
  · decide

/-- Names that clash are declared alike. -/
theorem declaredName_of_namesClash {x y : Text} (h : NamesClash x y) : declaredName x = declaredName y := by
  obtain ⟨hmem, rfl⟩ | ⟨rfl, rfl⟩ := h
  · have hkept : '_' :: x ∉ forbiddenParamNames := fun hmem' => head?_of_mem_forbiddenParamNames _ hmem' rfl
    rw [declaredName_of_mem hmem, declaredName_of_not_mem hkept (List.cons_ne_nil _ _)]
  · decide

/-- Two names are declared alike exactly when they are the same or clash. -/
theorem declaredName_eq_iff (x y : Text) :
    declaredName x = declaredName y ↔ x = y ∨ NamesClash x y ∨ NamesClash y x := by
  constructor
  · intro h
    obtain ⟨rfl, hx⟩ | ⟨hmem, hx⟩ | ⟨-, hx⟩ := declaredName_cases x <;>
      obtain ⟨rfl, hy⟩ | ⟨hmem', hy⟩ | ⟨-, hy⟩ := declaredName_cases y <;> replace h := hx.symm.trans (h.trans hy)
    · exact .inl rfl
    · cases h
    · exact .inr (.inl (.inr ⟨rfl, h.symm⟩))
    · cases h
    · exact .inl (List.cons.inj h).2
    · exact .inr (.inl (.inl ⟨hmem, h.symm⟩))
    · exact .inr (.inr (.inr ⟨rfl, h⟩))
    · exact .inr (.inr (.inl ⟨hmem', h⟩))
    · exact .inl h
  · rintro (rfl | h | h)
    · rfl
    · exact declaredName_of_namesClash h
    · exact (declaredName_of_namesClash h).symm

/-- Different names other than the receiver's are declared under different names unless two of them clash. -/
theorem nodup_map_declaredName_erase {names : List Text} (h : names.Nodup) :
    ((names.erase receiverName).map declaredName).Nodup ↔ ∀ x ∈ names, ∀ y ∈ names, ¬ NamesClash x y := by
  rw [List.nodup_map_iff_inj_on (h.erase receiverName)]
  constructor
  · intro hinj x hx y hy hclash
    obtain ⟨hx', hy'⟩ := ne_receiverName_of_namesClash hclash
    have hsame := hinj x ((List.mem_erase_of_ne hx').mpr hx) y ((List.mem_erase_of_ne hy').mpr hy)
      (declaredName_of_namesClash hclash)
    exact ne_of_namesClash hclash hsame
  · intro hclear x hx y hy heq
    have hx' := List.mem_of_mem_erase hx
    have hy' := List.mem_of_mem_erase hy
    obtain hsame | hclash | hclash := (declaredName_eq_iff x y).mp heq
    · exact hsame
    · exact absurd hclash (hclear x hx' y hy')
    · exact absurd hclash (hclear y hy' x hx')

/-! ## The names of a callable -/

/-- The name of a parameter is read from its part. -/
theorem WrittenParam.name_ofText {part : Text} (h : writtenName part = [] → isVariadicPart part = true) :
    (ofText part).name = givenName (writtenName part) := by
  cases hdots : Text.dropStart? "..." part with
  | some rest =>
    simp only [ofText, writtenName, hdots]
    rfl
  | none =>
    have hne : writtenName part ≠ [] := by
      intro hnil
      have hvariadic := h hnil
      rw [isVariadicPart, hdots] at hvariadic
      cases hvariadic
    rw [givenName, if_neg (by rwa [List.isEmpty_iff])]
    simp only [ofText, writtenName, hdots]
    obtain ⟨name, _ | type⟩ := Text.cutAtChar ':' part
    · rfl
    · -- Question marks are taken from the name wherever it ends in one.
      dsimp only
      by_cases hmark : (Text.strip name).getLast? = some '?'
      · simp [hmark]
      · rw [stripQuestionMarks_of_getLast? hmark]
        split <;> rfl

/-- The receiver's name is given only where it is written. -/
theorem givenName_eq_receiverName_iff (name : Text) : givenName name = receiverName ↔ name = receiverName := by
  rcases eq_or_ne name [] with rfl | hne
  · decide
  · simp [givenName, hne]

/-- The declared names are made from the written ones other than the receiver's. -/
theorem Callable.map_name_params {t inside rest : Text} (h : firstGroup? t = some (inside, rest))
    (hnames : ∀ part ∈ topParts ',' inside, writtenName part = [] → isVariadicPart part = true) :
    (Callable.ofText t).params.map (·.name) =
      (((topParts ',' inside).map writtenName).erase receiverName).map declaredName := by
  have hparams : (Callable.ofText t).params =
      (((topParts ',' inside).map WrittenParam.ofText).eraseP (·.name = receiverName)).map
        (·.toParam declaredType) := by
    rw [Callable.ofText_of_firstGroup? h]
    rfl
  have hread : ((topParts ',' inside).map WrittenParam.ofText).map (·.name) =
      ((topParts ',' inside).map writtenName).map givenName := by
    rw [List.map_map, List.map_map]
    exact List.map_congr_left fun part hpart => WrittenParam.name_ofText (hnames part hpart)
  have herase : (((topParts ',' inside).map WrittenParam.ofText).eraseP (·.name = receiverName)).map (·.name) =
      (((topParts ',' inside).map writtenName).erase receiverName).map givenName := by
    have hkind : (fun name : Text => decide (name = receiverName)) ∘ givenName = (· == receiverName) := by
      funext name
      rw [Function.comp_apply, beq_eq_decide, decide_eq_decide.mpr (givenName_eq_receiverName_iff name)]
    calc (((topParts ',' inside).map WrittenParam.ofText).eraseP (·.name = receiverName)).map (·.name)
        = (((topParts ',' inside).map WrittenParam.ofText).map (·.name)).eraseP (· = receiverName) :=
          (List.eraseP_map (p := fun name : Text => decide (name = receiverName)) (f := WrittenParam.name)).symm
      _ = (((topParts ',' inside).map writtenName).map givenName).eraseP (· = receiverName) := by rw [hread]
      _ = (((topParts ',' inside).map writtenName).eraseP (· == receiverName)).map givenName := by
          rw [List.eraseP_map, hkind]
      _ = (((topParts ',' inside).map writtenName).erase receiverName).map givenName := by
          rw [List.erase_eq_eraseP']
  have hsafe := congrArg (List.map safeParamName) herase
  rw [List.map_map, List.map_map] at hsafe
  rw [hparams, List.map_map]
  exact hsafe

/-- The identifier of a parameter in its entry is its name. -/
theorem declaredIdentifier_render {p : Param} (h : Text.isWord p.name = true) :
    declaredIdentifier p.render = p.name := by
  obtain ⟨hne, hchars⟩ := Text.isWord_iff.mp h
  -- What is written behind the name starts with a question mark or a colon.
  have hspan : ∀ rest : Text, rest.head? = some '?' ∨ rest.head? = some ':' →
      Text.spanWord (p.name ++ rest) = (p.name, rest) := by
    refine fun rest hrest => Text.span_append hchars fun c hc => ?_
    obtain hmark | hcolon := hrest
    · obtain rfl : '?' = c := Option.some.inj (hmark.symm.trans hc)
      decide
    · obtain rfl : ':' = c := Option.some.inj (hcolon.symm.trans hc)
      decide
  rw [declaredIdentifier, Param.render]
  cases p.variadic with
  | true =>
    have hdrop : Text.dropStart? "...".toList ("...".toList ++ p.name ++ ": ".toList ++ p.type) =
        some (p.name ++ (": ".toList ++ p.type)) := by
      rw [Text.dropStart?_eq_some_iff, List.append_assoc, List.append_assoc]
    rw [if_pos rfl, hdrop, Option.getD_some, hspan _ (.inr rfl)]
  | false =>
    have hdots : ∀ rest, Text.dropStart? "..." (p.name ++ rest) = none :=
      dropStart?_dots_of_marked hne fun c hc => .inl (hchars c hc)
    rw [if_neg (by decide), List.append_assoc, List.append_assoc, hdots, Option.getD_none, hspan]
    cases p.optional
    · exact .inr rfl
    · exact .inl rfl

/-- The entries of a callable declare the receiver and the parameters. -/
theorem Callable.map_declaredIdentifier_entries {c : Callable} (h : ∀ p ∈ c.params, Text.isWord p.name = true) :
    c.entries.map declaredIdentifier = "this".toList :: c.params.map (·.name) := by
  have hreceiver : declaredIdentifier ("this: " ++ c.receiver?.getD voidType) = "this" := rfl
  have hparams : (c.params.map Param.render).map declaredIdentifier = c.params.map (·.name) := by
    rw [List.map_map]
    exact List.map_congr_left fun p hp => declaredIdentifier_render (h p hp)
  rw [Callable.entries, List.map_cons, hreceiver, hparams]

/-- **Names of parameters.** Let the parameters of a function type have different names, each of them a word or, for a
variadic parameter, nothing. Then none is declared under a reserved word; the entries of the parameter list declare
`this` and the names of the parameters; and these identifiers are different exactly when no reserved word stands beside
its own form with an underscore and no variadic parameter without a name beside a parameter `args`. -/
theorem Callable.names_ofText {t inside rest : Text} (h : firstGroup? t = some (inside, rest))
    (hword : ∀ part ∈ topParts ',' inside,
      Text.isWord (writtenName part) = true ∨ (writtenName part = [] ∧ isVariadicPart part = true))
    (hnodup : ((topParts ',' inside).map writtenName).Nodup) :
    (∀ p ∈ (Callable.ofText t).params, p.name ∉ forbiddenParamNames) ∧
      (Callable.ofText t).paramList = Text.join ", " (Callable.ofText t).entries ∧
      (Callable.ofText t).entries.map declaredIdentifier = "this".toList :: (Callable.ofText t).params.map (·.name) ∧
      (((Callable.ofText t).params.map (·.name)).Nodup ↔
        ∀ x ∈ (topParts ',' inside).map writtenName, ∀ y ∈ (topParts ',' inside).map writtenName, ¬ NamesClash x y) ∧
      (((Callable.ofText t).entries.map declaredIdentifier).Nodup ↔
        ((Callable.ofText t).params.map (·.name)).Nodup) := by
  have hnames := Callable.map_name_params h fun part hpart hnil =>
    (hword part hpart).elim (fun hw => absurd hnil (Text.isWord_iff.mp hw).1) And.right
  have hmem : ∀ p ∈ (Callable.ofText t).params,
      ∃ x ∈ ((topParts ',' inside).map writtenName).erase receiverName, declaredName x = p.name := by
    intro p hp
    rw [← List.mem_map, ← hnames]
    exact List.mem_map_of_mem hp
  have hreserved : ∀ p ∈ (Callable.ofText t).params, p.name ∉ forbiddenParamNames := by
    intro p hp
    obtain ⟨x, -, heq⟩ := hmem p hp
    rw [← heq]
    exact declaredName_not_mem x
  have hwords : ∀ p ∈ (Callable.ofText t).params, Text.isWord p.name = true := by
    intro p hp
    obtain ⟨x, hx, heq⟩ := hmem p hp
    obtain ⟨part, hpart, rfl⟩ := List.mem_map.mp (List.mem_of_mem_erase hx)
    rw [← heq]
    exact isWord_declaredName ((hword part hpart).imp_right And.left)
  have hentries := Callable.map_declaredIdentifier_entries hwords
  refine ⟨hreserved, rfl, hentries, ?_, ?_⟩
  · rw [hnames]
    exact nodup_map_declaredName_erase hnodup
  · rw [hentries, List.nodup_cons, and_iff_right]
    intro hthis
    obtain ⟨p, hp, heq⟩ := List.mem_map.mp hthis
    exact hreserved p hp (heq ▸ by decide)

/-- A receiver, a reserved word, a name that starts with an underscore and a variadic parameter. -/
def sampleParams : Text := "self: T, in?: fun(in: A, _in: B), _x, ...: C"

/-- The receiver is no parameter, and the other three are declared under different names. -/
theorem Callable.names_ofText_sample :
    firstGroup? ("fun(" ++ sampleParams ++ "): D") = some (sampleParams, ": D".toList) ∧
      (topParts ',' sampleParams).map writtenName = ["self".toList, "in".toList, "_x".toList, []] ∧
      ((Callable.ofText ("fun(" ++ sampleParams ++ "): D")).params.map (·.name)).Nodup ∧
      (Callable.ofText ("fun(" ++ sampleParams ++ "): D")).params.map (·.name) = ["_in", "_x", "args"] := by
  have hgroup : firstGroup? ("fun(" ++ sampleParams ++ "): D") = some (sampleParams, ": D".toList) := by decide
  have hnames := Callable.names_ofText hgroup (by decide) (by decide)
  exact ⟨hgroup, by decide, hnames.2.2.2.1.mpr (by decide), by decide +kernel⟩

/-- A reserved word beside its own form with an underscore is declared under the same name. -/
theorem Callable.names_ofText_differently :
    ¬ ∀ t inside rest : Text, firstGroup? t = some (inside, rest) →
      (∀ part ∈ topParts ',' inside,
        Text.isWord (writtenName part) = true ∨ (writtenName part = [] ∧ isVariadicPart part = true)) →
      ((topParts ',' inside).map writtenName).Nodup → (topParts ',' inside).countP isVariadicPart ≤ 1 →
      ((Callable.ofText t).params.map (·.name)).Nodup ∧
        ∀ p ∈ (Callable.ofText t).params, p.name ∉ forbiddenParamNames := by
  intro hall
  have hnodup := (hall "fun(in: string, _in: number)" "in: string, _in: number" "" (by decide) (by decide) (by decide)
    (by decide)).1
  revert hnodup
  decide +kernel

end LuaTypings.TypeText
