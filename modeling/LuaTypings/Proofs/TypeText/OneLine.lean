import Mathlib.Data.Option.Basic
import LuaTypings.Proofs.Text.OneLine
import LuaTypings.Proofs.TypeText.Prose
import LuaTypings.TypeText.Leading

/-!
# Types on one line

The declared type of a type on one line is on one line (`isOneLine_declaredType`). Reading a type only cuts it: each text
that its outermost form holds has no other characters than the type, or is one that the reader supplies
(`View.isOneLine_of_mem_texts`). Rendering a form only writes marks on one line around the texts that it holds and the
declared types of its operands (`View.isOneLine_render`). Types nest as deep as they are long, so the two alternate down
to the names that stand in the type.
-/

namespace LuaTypings.TypeText

open Text

variable {s t : Text}

/-! ## Pieces of a type -/

/-- A piece between separators has only characters of the text. -/
theorem subset_of_mem_segments {p : Char → Bool} {depth : Nat} (h : s ∈ segments p depth t) : s ⊆ t := by
  induction t generalizing depth s with
  | nil =>
    obtain rfl := List.mem_singleton.mp h
    exact List.Subset.refl []
  | cons c t ih =>
    rw [segments] at h
    split at h
    · obtain rfl | h := List.mem_cons.mp h
      · exact List.nil_subset _
      · exact List.Subset.trans (ih h) (List.subset_cons_self c t)
    · split at h
      · rename_i hnone
        exact absurd hnone (segments_ne_nil _ _)
      · rename_i piece pieces hpieces
        obtain rfl | h := List.mem_cons.mp h
        · exact List.cons_subset_cons c (ih (hpieces ▸ List.mem_cons_self))
        · exact List.Subset.trans (ih (hpieces ▸ List.mem_cons_of_mem piece h)) (List.subset_cons_self c t)

/-- A part of a text has only characters of the text. -/
theorem subset_of_mem_topPartsBy {p : Char → Bool} (h : s ∈ topPartsBy p t) : s ⊆ t := by
  obtain ⟨piece, hpiece, rfl⟩ := List.mem_map.mp (List.mem_of_mem_filter h)
  exact List.Subset.trans (isInfix_strip piece).subset (subset_of_mem_segments hpiece)

/-- The parts of a text on one line are on one line. -/
theorem isOneLine_of_mem_topParts {c : Char} (ht : isOneLine t = true) : ∀ part ∈ topParts c t, isOneLine part = true :=
  fun _ hpart => isOneLine_of_subset (subset_of_mem_topPartsBy hpart) ht

/-- What the closer of an open bracket ends and what follows it have only characters of the text. -/
theorem subset_of_splitAtClose? {depth : Nat} {inside rest : Text}
    (h : splitAtClose? (depth + 1) t = some (inside, rest)) : inside ⊆ t ∧ rest ⊆ t := by
  obtain ⟨c, -, -, rfl⟩ := exists_of_splitAtClose? h
  exact ⟨List.subset_append_left _ _, List.Subset.trans (List.subset_cons_self c rest) (List.subset_append_right _ _)⟩

/-- What the first parentheses enclose and what follows them have only characters of the text. -/
theorem subset_of_firstGroup? {inside rest : Text} (h : firstGroup? t = some (inside, rest)) :
    inside ⊆ t ∧ rest ⊆ t := by
  obtain ⟨c, -, hsuffix⟩ := exists_isSuffix_of_firstGroup? h
  have hwhole : inside ++ c :: rest ⊆ t := hsuffix.subset
  exact ⟨List.Subset.trans (List.subset_append_left _ _) hwhole,
    List.Subset.trans (List.Subset.trans (List.subset_cons_self c rest) (List.subset_append_right _ _)) hwhole⟩

/-- What parentheses around a text enclose has only characters of the text. -/
theorem subset_of_enclosed? {inside : Text} (h : enclosed? t = some inside) : inside ⊆ t := by
  unfold enclosed? at h
  split at h
  · rename_i rest
    split at h
    · rename_i inside' hclose
      split at h
      · obtain rfl := Option.some.inj h
        exact List.Subset.trans (subset_of_splitAtClose? hclose).1 (List.subset_cons_self '(' rest)
      · cases h
    · cases h
  · cases h

/-- The type that a text starts with is on one line when the text is. -/
theorem isOneLine_spanType (ht : isOneLine t = true) : isOneLine (spanType t).1 = true := by
  have htaken : ∀ words : List Text, (spanGlued words).1 ⊆ words := by
    intro words
    fun_induction spanGlued words with
    | case1 => exact List.nil_subset _
    | case2 word => exact List.Subset.refl _
    | case3 word next words hglued taken rest hrest ih =>
      rw [hrest] at ih
      exact List.cons_subset_cons word ih
    | case4 word next words hglued => exact List.cons_subset_cons word (List.nil_subset _)
  refine isOneLine_join (by decide) fun word hword => ?_
  exact isOneLine_of_subset (subset_of_mem_topPartsBy (htaken _ hword)) ht

/-! ## Comments and prose -/

/-- The type in a return text on one line is on one line. -/
theorem isOneLine_withoutProse (ht : isOneLine t = true) : isOneLine (withoutProse t) = true := by
  obtain h | h := isInfix_withoutProse t
  · rw [h]
    decide
  · exact isOneLine_of_isInfix h ht

/-! ## Signatures -/

/-- The texts of a written parameter: its name and its type. -/
def WrittenParam.texts (p : WrittenParam) : List Text := [p.name, p.type]

/-- A parameter on one line has its name and its type on one line. -/
theorem WrittenParam.isOneLine_of_mem_texts (ht : isOneLine t = true) :
    ∀ s ∈ (WrittenParam.ofText t).texts, isOneLine s = true := by
  have hboth : ∀ p : WrittenParam, isOneLine p.name = true → isOneLine p.type = true →
      ∀ s ∈ p.texts, isOneLine s = true := fun p hname htype => by simp [texts, hname, htype]
  have hmarks : ∀ s : Text, isOneLine s = true → isOneLine (stripQuestionMarks s) = true := fun s hs =>
    isOneLine_of_isInfix (List.rdropWhile_prefix (fun c => c == '?') s).isInfix hs
  unfold ofText
  split
  · -- Behind three dots the name or the type may be missing.
    rename_i rest hrest
    have hline : isOneLine rest = true := isOneLine_of_dropStart? hrest ht
    split
    rename_i name type hcut
    obtain ⟨hname, htype⟩ := subset_of_cutAtChar hcut
    apply hboth
    · dsimp only
      split
      · decide
      · exact isOneLine_strip (isOneLine_of_subset hname hline)
    · refine isOneLine_append_of ?_ (by decide)
      split
      · rename_i type
        exact isOneLine_strip (isOneLine_of_subset (htype type rfl) hline)
      · decide
  · split
    · rename_i name hcut
      have hany : isOneLine "any" = true := by decide
      exact hboth _ (isOneLine_strip (isOneLine_of_subset (subset_of_cutAtChar hcut).1 ht)) hany
    · rename_i name type hcut
      obtain ⟨hname, htype⟩ := subset_of_cutAtChar hcut
      have hname := isOneLine_strip (isOneLine_of_subset hname ht)
      have htype := isOneLine_strip (isOneLine_of_subset (htype type rfl) ht)
      dsimp only
      split
      · exact hboth _ (hmarks _ hname) (hmarks _ htype)
      · exact hboth _ hname htype

/-- Returns on one line have each of their types on one line. -/
theorem WrittenReturn.isOneLine_of_mem_types (ht : isOneLine t = true) :
    ∀ s ∈ (WrittenReturn.ofText t).types, isOneLine s = true := by
  intro s hs
  cases hcolon : dropStart? ":".toList (strip t) with
  | none =>
    rw [ofText_of_no_colon hcolon] at hs
    exact absurd hs List.not_mem_nil
  | some rest =>
    have hrest : strip t = ':' :: rest := dropStart?_eq_some_iff.mp hcolon
    have hline : isOneLine rest = true :=
      isOneLine_of_subset (List.subset_cons_self ':' rest) (hrest ▸ isOneLine_strip ht)
    have hclean := isOneLine_withoutProse hline
    rw [ofText_of_colon hrest, ofCleaned] at hs
    split at hs
    · rename_i first second more hparts
      exact isOneLine_of_mem_topParts hclean s (hparts ▸ hs)
    · rw [types, List.mem_singleton] at hs
      rw [hs]
      exact hclean

/-- The texts of a written signature: those of its parameters, and its types returned. -/
def WrittenSignature.texts (signature : WrittenSignature) : List Text :=
  signature.params.flatMap (·.texts) ++ signature.returns.types

/-- A signature on one line has each of its texts on one line. -/
theorem WrittenSignature.isOneLine_of_mem_texts (ht : isOneLine t = true) {signature : WrittenSignature}
    (h : ofText? t = some signature) : ∀ s ∈ signature.texts, isOneLine s = true := by
  obtain ⟨⟨inside, rest⟩, hgroup, rfl⟩ := Option.map_eq_some_iff.mp h
  obtain ⟨hinside, hrest⟩ := subset_of_firstGroup? hgroup
  refine List.forall_mem_append.mpr ⟨fun s hs => ?_, ?_⟩
  · obtain ⟨p, hp, hs⟩ := List.mem_flatMap.mp hs
    obtain ⟨part, hpart, rfl⟩ := List.mem_map.mp hp
    exact WrittenParam.isOneLine_of_mem_texts (isOneLine_of_mem_topParts (isOneLine_of_subset hinside ht) part hpart) s hs
  · exact WrittenReturn.isOneLine_of_mem_types (isOneLine_of_subset hrest ht)

/-! ## Forms -/

namespace View

/-- The texts that a form holds: its operands, and the names that are written as they are. -/
def texts : View → List Text
  | .basic type => [type]
  | .name text => [text]
  | .callable (some signature) => signature.texts
  | v => v.operands

/-- The operands are among the texts of a form. -/
theorem operands_subset_texts (v : View) : v.operands ⊆ v.texts := by
  cases v with
  | callable signature =>
    cases signature with
    | none => exact List.Subset.refl []
    | some signature =>
      rw [operands_callable, texts, WrittenSignature.texts]
      intro o ho
      refine (List.mem_append.mp ho).elim (fun ho => ?_) (List.mem_append_right _)
      obtain ⟨p, hp, rfl⟩ := List.mem_map.mp ho
      exact List.mem_append_left _ (List.mem_flatMap.mpr ⟨p, hp, by simp [WrittenParam.texts]⟩)
  | basic | name => exact List.nil_subset _
  | _ => exact List.Subset.refl _

/-- The form of a type on one line has each of its texts on one line. -/
theorem isOneLine_of_mem_texts_ofBare (ht : isOneLine t = true) : ∀ s ∈ (ofBare t).texts, isOneLine s = true := by
  -- One step for each form, in the order in which the forms are tried.
  unfold ofBare
  split
  · simp [texts, operands]
  split
  · rename_i base hbase
    obtain ⟨front, hfront, rfl⟩ := Option.map_eq_some_iff.mp hbase
    refine List.forall_mem_singleton.mpr (isOneLine_strip ?_)
    obtain hfront | ⟨-, hfront⟩ := (Option.orElse_eq_some _ _ _).mp hfront
    · exact isOneLine_of_dropEnd? hfront ht
    · exact isOneLine_of_dropEnd? hfront ht
  split
  · rename_i type htype
    have htable : ∀ entry ∈ basicTypes, isOneLine entry.2 = true := by decide
    obtain ⟨before, after, hbasic, -⟩ := List.lookup_eq_some_iff.mp htype
    exact List.forall_mem_singleton.mpr (htable (t, type) (by simp [hbasic]))
  split
  · rename_i base hbase
    rw [optionalBase?] at hbase
    split at hbase
    · cases hbase
    · exact List.forall_mem_singleton.mpr (isOneLine_of_dropEnd? hbase ht)
  split
  · rename_i parts hparts
    rw [unionParts?] at hparts
    split at hparts
    · rename_i first second more hseveral
      obtain rfl := Option.some.inj hparts
      exact hseveral ▸ isOneLine_of_mem_topParts ht
    · cases hparts
  split
  · rename_i inside hinside
    have hline := isOneLine_of_subset (subset_of_enclosed? hinside) ht
    rw [ofEnclosed]
    split
    · rename_i first second more hseveral
      exact hseveral ▸ isOneLine_of_mem_topParts hline
    · exact List.forall_mem_singleton.mpr hline
  split
  · rename_i element helement
    rw [arrayElement?] at helement
    split at helement
    · cases helement
    · exact List.forall_mem_singleton.mpr (isOneLine_of_dropEnd? helement ht)
  split
  · rename_i key value hrecord
    simp only [recordParts?, Option.bind_eq_bind, Option.bind_eq_some_iff] at hrecord
    obtain ⟨front, hfront, inner, hinner, hrecord⟩ := hrecord
    have hparts := isOneLine_of_mem_topParts (c := ',')
      (isOneLine_of_dropEnd? hinner (isOneLine_of_dropStart? hfront ht))
    split at hrecord
    · rename_i hboth
      obtain ⟨rfl, rfl⟩ := Prod.mk.inj (Option.some.inj hrecord)
      exact fun s hs => hparts s (hboth ▸ hs)
    · cases hrecord
  split
  · cases hsignature : WrittenSignature.ofText? t with
    | none => simp [texts, operands]
    | some signature => exact WrittenSignature.isOneLine_of_mem_texts ht hsignature
  · exact List.forall_mem_singleton.mpr ht

/-- The form of a type on one line has each of its texts on one line, its comment left out. -/
theorem isOneLine_of_mem_texts (ht : isOneLine t = true) : ∀ s ∈ (ofText t).texts, isOneLine s = true :=
  isOneLine_of_mem_texts_ofBare (isOneLine_of_isInfix (isInfix_withoutComment t) ht)

end View

/-! ## Rendering -/

/-- What stands in a callable: its types, and the names of its parameters. -/
def Callable.texts (c : Callable) : List Text :=
  c.receiver?.toList ++ c.params.flatMap (fun p => [p.name, p.type]) ++ [c.returns]

namespace Callable

/-- A callable about which nothing is known returns nothing, which is on one line. -/
theorem isOneLine_of_mem_unknown : ∀ s ∈ unknown.texts, isOneLine s = true := by decide

variable {c : Callable}

/-- A parameter list is on one line when what stands in it is. -/
theorem isOneLine_paramList (h : ∀ s ∈ c.texts, isOneLine s = true) : isOneLine c.paramList = true := by
  have hreceiver : isOneLine (c.receiver?.getD voidType) = true := by
    cases hr : c.receiver? with
    | none => decide
    | some type => exact h type (by simp [texts, hr])
  have hparam : ∀ p ∈ c.params, isOneLine p.render = true := by
    intro p hp
    have hname : isOneLine p.name = true := h p.name (by simpa [texts] using .inr (.inl ⟨p, hp, .inl rfl⟩))
    have htype : isOneLine p.type = true := h p.type (by simpa [texts] using .inr (.inl ⟨p, hp, .inr rfl⟩))
    rw [Param.render]
    split
    · simp only [isOneLine_append, hname, htype]
      decide
    · simp only [isOneLine_append, hname, htype]
      split <;> decide
  refine isOneLine_join (by decide) (List.forall_mem_cons.mpr ⟨isOneLine_append_of (by decide) hreceiver, ?_⟩)
  exact List.forall_mem_map.mpr hparam

/-- A function type is on one line when what stands in it is. -/
theorem isOneLine_typeText (h : ∀ s ∈ c.texts, isOneLine s = true) : isOneLine c.typeText = true := by
  cases c with
  | unknown => decide
  | typed receiver params returns =>
    have hparams := isOneLine_paramList h
    have hreturns : isOneLine (Callable.typed receiver params returns).returns = true := h _ (by simp [texts])
    simp only [typeText, isOneLine_append, hparams, hreturns]
    decide

/-- A method is on one line when its name and what stands in its type are. -/
theorem isOneLine_memberText {name : Text} (hname : isOneLine name = true) (h : ∀ s ∈ c.texts, isOneLine s = true) :
    isOneLine (c.memberText name) = true := by
  have hkey : isOneLine (methodKey name) = true := by
    rw [methodKey]
    split
    · exact isOneLine_append_of (isOneLine_append_of (by decide) hname) (by decide)
    · exact hname
  cases c with
  | unknown => exact isOneLine_append_of hkey (by decide)
  | typed receiver params returns =>
    have hparams := isOneLine_paramList h
    have hreturns : isOneLine (Callable.typed receiver params returns).returns = true := h _ (by simp [texts])
    simp only [memberText, isOneLine_append, hkey, hparams, hreturns]
    decide

end Callable

/-- The type of an absent value is on one line. -/
theorem isOneLine_voidType : isOneLine voidType = true := by decide

/-- Several return values are on one line when each of their types is. -/
theorem isOneLine_severalReturns {types : List Text} (h : ∀ type ∈ types, isOneLine type = true) :
    isOneLine (severalReturns types) = true :=
  isOneLine_append_of (isOneLine_append_of (by decide) (isOneLine_join (by decide) h)) (by decide)

section Declared

variable {declared : Text → Text}

/-- A callable has what stands in it on one line when its signature has, the declared types of its parts included. -/
theorem WrittenSignature.isOneLine_of_mem_toCallable {signature : WrittenSignature}
    (htexts : ∀ s ∈ signature.texts, isOneLine s = true)
    (hdeclared : ∀ o ∈ (View.callable (some signature)).operands, isOneLine (declared o) = true) :
    ∀ s ∈ (signature.toCallable declared).texts, isOneLine s = true := by
  rw [operands_callable] at hdeclared
  obtain ⟨hparams, hreturns⟩ := List.forall_mem_append.mp hdeclared
  have htype : ∀ p ∈ signature.params, isOneLine (declared p.type) = true := List.forall_mem_map.mp hparams
  refine List.forall_mem_append.mpr ⟨List.forall_mem_append.mpr ⟨?_, ?_⟩, List.forall_mem_singleton.mpr ?_⟩
  · intro s hs
    obtain ⟨p, hp, rfl⟩ := Option.map_eq_some_iff.mp (Option.mem_toList.mp hs)
    exact htype p (List.mem_of_find?_eq_some hp)
  · intro s hs
    obtain ⟨q, hq, hs⟩ := List.mem_flatMap.mp hs
    obtain ⟨p, hp, rfl⟩ := List.mem_map.mp hq
    have hp := List.mem_of_mem_eraseP hp
    have hname : isOneLine (safeParamName p.name) = true := by
      have hwritten : isOneLine p.name = true :=
        htexts p.name (List.mem_append_left _ (List.mem_flatMap.mpr ⟨p, hp, List.mem_cons_self⟩))
      rw [safeParamName]
      split
      · exact isOneLine_append_of (s := ['_']) (by decide) hwritten
      · exact hwritten
    have hboth : ∀ s ∈ [safeParamName p.name, declared p.type], isOneLine s = true := by simp [hname, htype p hp]
    exact hboth s hs
  · change isOneLine (signature.returns.toText declared) = true
    cases hr : signature.returns with
    | absent => exact isOneLine_voidType
    | single type => exact hreturns type (by simp [hr, WrittenReturn.types])
    | several types =>
      rw [hr] at hreturns
      exact isOneLine_severalReturns (List.forall_mem_map.mpr hreturns)

/-- A form is rendered on one line when its texts and the declared types of its operands are on one line. -/
theorem View.isOneLine_render {v : View} (htexts : ∀ s ∈ v.texts, isOneLine s = true)
    (hdeclared : ∀ o ∈ v.operands, isOneLine (declared o) = true) : isOneLine (v.render declared) = true := by
  cases v with
  | void => exact isOneLine_voidType
  | basic type => exact htexts type List.mem_cons_self
  | name text => exact htexts text List.mem_cons_self
  | nullable base => exact isOneLine_append_of (hdeclared base List.mem_cons_self) (by decide)
  | optional base => exact isOneLine_append_of (hdeclared base List.mem_cons_self) (by decide)
  | group inner => exact hdeclared inner List.mem_cons_self
  | union parts =>
    have hparts : ∀ s ∈ parts.map declared, isOneLine s = true := List.forall_mem_map.mpr hdeclared
    exact isOneLine_join (by decide) fun s hs => hparts s (List.mem_eraseDups.mp hs)
  | tuple parts => exact isOneLine_severalReturns (List.forall_mem_map.mpr hdeclared)
  | array element =>
    have helement := hdeclared element List.mem_cons_self
    rw [render_array, renderArray]
    split
    · exact isOneLine_append_of (isOneLine_append_of (by decide) helement) (by decide)
    · exact isOneLine_append_of helement (by decide)
  | record key value =>
    have hkey := hdeclared key List.mem_cons_self
    have hvalue := hdeclared value (List.mem_cons_of_mem key List.mem_cons_self)
    rw [render_record]
    simp only [isOneLine_append, hkey, hvalue]
    decide
  | callable signature =>
    cases signature with
    | none => exact Callable.isOneLine_typeText (c := .unknown) Callable.isOneLine_of_mem_unknown
    | some signature =>
      exact Callable.isOneLine_typeText (WrittenSignature.isOneLine_of_mem_toCallable htexts hdeclared)

end Declared

/-- The declared type of a type on one line is on one line. -/
theorem isOneLine_declaredType (ht : isOneLine t = true) : isOneLine (declaredType t) = true := by
  -- The operands are shorter than the type, and on one line as it is.
  induction hn : t.length using Nat.strong_induction_on generalizing t with
  | _ n ih =>
    subst hn
    have htexts := View.isOneLine_of_mem_texts ht
    rw [declaredType_eq]
    refine View.isOneLine_render htexts fun o ho => ?_
    exact ih o.length (length_lt_of_mem_operands t o ho) (htexts o (View.operands_subset_texts _ ho)) rfl

/-- A method whose name and type are on one line is declared on one line. -/
theorem isOneLine_memberText_ofText {name : Text} (hname : isOneLine name = true) (ht : isOneLine t = true) :
    isOneLine ((Callable.ofText t).memberText name) = true := by
  refine Callable.isOneLine_memberText hname ?_
  rw [Callable.ofText]
  cases hsignature : WrittenSignature.ofText? t with
  | none => exact Callable.isOneLine_of_mem_unknown
  | some signature =>
    have htexts := WrittenSignature.isOneLine_of_mem_texts ht hsignature
    refine WrittenSignature.isOneLine_of_mem_toCallable htexts fun o ho => isOneLine_declaredType (htexts o ?_)
    exact View.operands_subset_texts (.callable (some signature)) ho

end LuaTypings.TypeText
