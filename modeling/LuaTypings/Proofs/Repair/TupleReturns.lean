import Mathlib.Data.List.Induction
import Mathlib.Data.Option.Basic
import LuaTypings.Repair.Basic
import LuaTypings.Proofs.Text.Cut
import LuaTypings.Proofs.Text.Substitution
import LuaTypings.Proofs.Text.Trim

/-!
# Restored returns

A method whose returns were cut short is known by its parts, a `CutReturn`. What is written for it opens no parenthesis
and ends in a semicolon that follows no comma, so a method with cut returns in front of it is all in the text before it
(`StartsCutShort.of_restored`). Hence restoring one method leaves none of it behind and cuts no other one short
(`isIdle_substitute`), and after all methods of all families none is left (`isIdle_foldl_restoreMethod`).
-/

namespace LuaTypings.Repair

open Text (isWord isWordChar isBlank)
open TypeText (severalReturns)

/-! ## Returns that were cut short -/

/-- The parts of a method whose returns were cut short: its parameters, the blanks behind the colon, and the types that
are left of an opened list. -/
structure CutReturn where
  params : Text
  blanks : Text
  types : Text
  params_open : ')' ∉ params
  blanks_blank : ∀ c ∈ blanks, isBlank c = true
  types_open : ';' ∉ types

namespace CutReturn

/-- The method up to the end of its parameters. -/
def head (r : CutReturn) (method : Text) : Text := method ++ '(' :: r.params

/-- The method as it stands in a declaration: the list ends in a comma and a semicolon. -/
def text (r : CutReturn) (method : Text) : Text :=
  r.head method ++ ')' :: ':' :: r.blanks ++ '(' :: r.types ++ [',', ';']

/-- The method with the types that it returns. -/
def restored (r : CutReturn) (method : Text) (shape : List Text) : Text :=
  r.head method ++ ')' :: ':' :: ' ' :: severalReturns shape ++ [';']

/-- A method with cut returns ends in a semicolon. -/
theorem getLast?_text (r : CutReturn) (method : Text) : (r.text method).getLast? = some ';' :=
  List.getLast?_append_of_ne_nil _ (List.cons_ne_nil _ _)

/-- A restored method ends in a semicolon. -/
theorem getLast?_restored (r : CutReturn) (method : Text) (shape : List Text) :
    (r.restored method shape).getLast? = some ';' := List.getLast?_concat

end CutReturn

/-- A text starts with a method whose returns were cut short. -/
def StartsCutShort (method t : Text) : Prop := ∃ (r : CutReturn) (rest : Text), t = r.text method ++ rest

/-- Somewhere in a text the returns of a method are cut short, and its name is a word of its own. -/
def HasCutShort (method t : Text) : Prop :=
  ∃ before after, t = before ++ after ∧ Text.atWordBoundary before.getLast? after = true ∧ StartsCutShort method after

/-- What is behind blanks and an opened parenthesis. -/
theorem dropStart?_opener_iff {t rest : Text} :
    Text.dropStart? "(" (Text.stripStart t) = some rest ↔
      ∃ blanks, t = blanks ++ '(' :: rest ∧ ∀ c ∈ blanks, isBlank c = true := by
  rw [Text.dropStart?_eq_some_iff]
  constructor
  · intro h
    have hsplit := List.takeWhile_append_dropWhile (p := isBlank) (l := t)
    rw [Text.stripStart] at h
    rw [h] at hsplit
    exact ⟨t.takeWhile isBlank, hsplit.symm, fun c hc => List.all_eq_true.mp List.all_takeWhile c hc⟩
  · rintro ⟨blanks, rfl, hblanks⟩
    have hopener : isBlank '(' = false := by decide
    rw [Text.stripStart, List.dropWhile_append_of_pos hblanks, List.dropWhile_cons_of_neg (by simp [hopener])]
    rfl

variable {shape : List Text} {method : Text} {previous : Option Char} {t written rest : Text}

/-- The rule applies where a method with cut returns starts, and writes the method with all its returns. -/
theorem tupleReturnRule_eq_some_iff :
    tupleReturnRule shape method previous t = some (written, rest) ↔
      Text.atWordBoundary previous t = true ∧
        ∃ r : CutReturn, t = r.text method ++ rest ∧ written = r.restored method shape := by
  rw [tupleReturnRule]
  constructor
  · intro h
    simp only [Option.bind_eq_bind, Option.bind_eq_some_iff, Option.guard_eq_some'] at h
    obtain ⟨-, hboundary, afterName, hname, h⟩ := h
    split at h
    · rename_i params afterParams hparams
      simp only [Option.bind_eq_some_iff] at h
      obtain ⟨afterColon, hcolon, list, hlist, h⟩ := h
      split at h
      · rename_i types rest' htypes
        obtain ⟨_, hcomma, hresult⟩ := Option.bind_eq_some_iff.mp h
        rw [Option.guard_eq_some', List.getLast?_eq_some_iff] at hcomma
        obtain ⟨types, rfl⟩ := hcomma
        -- Each cut gives back the text that it was made in.
        obtain ⟨rfl, hsemicolon⟩ := Text.cutAtChar_eq_some_iff.mp htypes
        obtain ⟨blanks, rfl, hblanks⟩ := dropStart?_opener_iff.mp hlist
        obtain rfl := Text.dropStart?_eq_some_iff.mp hcolon
        obtain ⟨rfl, hparen⟩ := Text.cutAtChar_eq_some_iff.mp hparams
        obtain rfl := Text.dropStart?_eq_some_iff.mp hname
        obtain ⟨rfl, rfl⟩ := Prod.mk.inj (Option.some.inj hresult)
        have htypes : ';' ∉ types := fun hmem => hsemicolon (List.mem_append_left _ hmem)
        refine ⟨hboundary, ⟨params, blanks, types, hparen, hblanks, htypes⟩, ?_, ?_⟩
        · simp [CutReturn.text, CutReturn.head]
        · simp [CutReturn.restored, CutReturn.head]
      · cases h
    · cases h
  · rintro ⟨hboundary, r, rfl, rfl⟩
    have hname : Text.dropStart? (method ++ "(".toList) (r.text method ++ rest) =
          some (r.params ++ ')' :: (':' :: (r.blanks ++ '(' :: (r.types ++ [','] ++ ';' :: rest)))) :=
      Text.dropStart?_eq_some_iff.mpr (by simp [CutReturn.text, CutReturn.head])
    have hcut := Text.cutAtChar_append_cons r.params_open (':' :: (r.blanks ++ '(' :: (r.types ++ [','] ++ ';' :: rest)))
    have hcolon : Text.dropStart? ":".toList (':' :: (r.blanks ++ '(' :: (r.types ++ [','] ++ ';' :: rest))) =
        some (r.blanks ++ '(' :: (r.types ++ [','] ++ ';' :: rest)) := Text.dropStart?_eq_some_iff.mpr rfl
    have hlist : Text.dropStart? "(".toList (Text.stripStart (r.blanks ++ '(' :: (r.types ++ [','] ++ ';' :: rest))) =
        some (r.types ++ [','] ++ ';' :: rest) := dropStart?_opener_iff.mpr ⟨r.blanks, rfl, r.blanks_blank⟩
    have htypes : ';' ∉ r.types ++ [','] := by
      rw [List.mem_append, List.mem_singleton, not_or]
      exact ⟨r.types_open, by decide⟩
    have hsemicolon := Text.cutAtChar_append_cons htypes rest
    simp only [hname, hcut, hcolon, hlist, hsemicolon, hboundary, Option.bind_eq_bind, Option.bind_some]
    simp [CutReturn.restored, CutReturn.head, guard]

/-- Where the rule applies does not depend on the shape. -/
theorem tupleReturnRule_eq_none_iff :
    tupleReturnRule shape method previous t = none ↔
      ¬ (Text.atWordBoundary previous t = true ∧ StartsCutShort method t) := by
  rw [Option.eq_none_iff_forall_ne_some]
  constructor
  · rintro hnone ⟨hboundary, r, rest, rfl⟩
    exact hnone _ (tupleReturnRule_eq_some_iff.mpr ⟨hboundary, r, rfl, rfl⟩)
  · rintro hnot ⟨written, rest⟩ hsome
    obtain ⟨hboundary, r, ht, -⟩ := tupleReturnRule_eq_some_iff.mp hsome
    exact hnot ⟨hboundary, r, rest, ht⟩

/-- The rule takes the whole method. -/
theorem takes_tupleReturnRule : (tupleReturnRule shape method).Takes := by
  intro previous t written rest h
  obtain ⟨-, r, rfl, -⟩ := tupleReturnRule_eq_some_iff.mp h
  exact ⟨r.text method, by simp [CutReturn.text], rfl⟩

/-! ## The text that is written -/

/-- The parameters of a method close behind its head. -/
theorem CutReturn.not_mem_head (r : CutReturn) (hmethod : isWord method = true) : ')' ∉ r.head method := by
  rw [CutReturn.head, List.mem_append, List.mem_cons, not_or, not_or]
  exact ⟨Text.not_mem_of_isWord hmethod (by decide), by decide, r.params_open⟩

/-- Several returns hold no character that is neither in a name nor in their fixed parts. -/
theorem not_mem_severalReturns (hshape : ∀ type ∈ shape, isWord type = true) {c : Char} (hc : isWordChar c = false)
    (hfixed : c ∉ "LuaMultiReturn<[".toList ∧ c ∉ ", ".toList ∧ c ∉ "]>".toList) : c ∉ severalReturns shape := by
  obtain ⟨hopener, hcomma, hcloser⟩ := hfixed
  have hjoin : c ∉ Text.join ", " shape := by
    by_cases hne : shape = []
    · rw [hne]
      exact List.not_mem_nil
    · have happend : ∀ s t : Text, c ∉ s → c ∉ t → c ∉ s ++ t := fun s t hs ht hmem =>
        (List.mem_append.mp hmem).elim hs ht
      exact Text.join_of_append (motive := (c ∉ ·)) happend hcomma hne fun type htype =>
        Text.not_mem_of_isWord (hshape type htype) hc
  have hparts : severalReturns shape = "LuaMultiReturn<[".toList ++ Text.join ", " shape ++ "]>".toList := rfl
  rw [hparts, List.mem_append, List.mem_append, not_or, not_or]
  exact ⟨⟨hopener, hjoin⟩, hcloser⟩

/-- Several returns end in an angle bracket. -/
theorem getLast?_severalReturns (shape : List Text) : (severalReturns shape).getLast? = some '>' :=
  List.getLast?_append_of_ne_nil _ (by decide)

/-- A method with cut returns in front of restored ones is all in the text before them. -/
theorem StartsCutShort.of_restored (hmethod : isWord method = true) (hshape : ∀ type ∈ shape, isWord type = true)
    {s u : Text} (h : StartsCutShort method (s ++ ')' :: ':' :: ' ' :: severalReturns shape ++ ';' :: u)) :
    StartsCutShort method s := by
  obtain ⟨r, rest, h⟩ := h
  obtain ⟨tail, htail⟩ : ∃ tail, severalReturns shape = 'L' :: tail := ⟨_, rfl⟩
  have hparens : s ++ ')' :: (':' :: ' ' :: severalReturns shape ++ ';' :: u) =
      r.head method ++ ')' :: (':' :: r.blanks ++ '(' :: r.types ++ [',', ';'] ++ rest) := by
    simpa [CutReturn.text] using h
  obtain ⟨-, hrest⟩ | ⟨m, rfl, hrest⟩ := Text.eq_or_of_append_cons_eq hparens (r.not_mem_head hmethod)
  · -- The parameters would end in front of the restored returns, which open no parenthesis.
    have hblanks := r.blanks_blank
    rw [htail] at hrest
    match hmatch : r.blanks with
    | [] => simp [hmatch] at hrest
    | [b] => simp [hmatch] at hrest
    | b :: d :: blanks =>
      simp only [hmatch, List.cons_append, List.cons.injEq] at hrest
      obtain ⟨-, -, rfl, -⟩ := hrest
      have hletter : isBlank 'L' = true := hblanks 'L' (by simp [hmatch])
      exact absurd hletter (by decide)
  · -- The first semicolon behind the opened list is not the one of the restored returns, which follows no comma.
    have hopen : ';' ∉ ':' :: r.blanks ++ '(' :: r.types ++ [','] := by
      have hblank : isBlank ';' = false := by decide
      have hblanks : ';' ∉ r.blanks := fun hmem => by simp [r.blanks_blank _ hmem] at hblank
      simp [hblanks, r.types_open]
    have hsemicolons : (m ++ ')' :: ':' :: ' ' :: severalReturns shape) ++ ';' :: u =
        (':' :: r.blanks ++ '(' :: r.types ++ [',']) ++ ';' :: rest := by simpa using hrest.symm
    obtain ⟨hsame, -⟩ | ⟨k, hk, -⟩ := Text.eq_or_of_append_cons_eq hsemicolons hopen
    · have hangle : (m ++ ')' :: ':' :: ' ' :: severalReturns shape).getLast? = some '>' := by
        have hsplit : m ++ ')' :: ':' :: ' ' :: severalReturns shape =
            (m ++ [')', ':', ' ']) ++ severalReturns shape := by simp
        rw [hsplit, List.getLast?_append, getLast?_severalReturns, Option.some_or]
      rw [hsame, List.getLast?_concat] at hangle
      exact absurd (Option.some.inj hangle) (by decide)
    · -- So that semicolon stands in front of the restored returns, and all of the method with it.
      have htail : ';' ∉ ')' :: ':' :: ' ' :: severalReturns shape := by
        have hshapes : ';' ∉ severalReturns shape := not_mem_severalReturns hshape (by decide) (by decide)
        simp [hshapes]
      obtain ⟨n, -, hn⟩ | ⟨n, hn, hcons⟩ := List.append_eq_append_iff.mp hk
      · exact absurd (hn ▸ List.mem_append_right n List.mem_cons_self) htail
      · obtain _ | ⟨d, n⟩ := n
        · exact absurd (List.cons.inj hcons).1 (by decide)
        · obtain ⟨rfl, -⟩ := List.cons.inj hcons
          exact ⟨r, n, by simp [hn, CutReturn.text]⟩

/-- What stands behind a method with cut returns makes no difference. -/
theorem StartsCutShort.append {s : Text} (h : StartsCutShort method s) (u : Text) : StartsCutShort method (s ++ u) := by
  obtain ⟨r, rest, rfl⟩ := h
  exact ⟨r, rest ++ u, List.append_assoc _ _ _⟩

/-! ## One method after another -/

variable {other : Text} {otherShape : List Text}

/-- A method with cut returns closes its parameters. -/
theorem StartsCutShort.mem {s : Text} (h : StartsCutShort method s) : ')' ∈ s := by
  obtain ⟨r, rest, rfl⟩ := h
  simp [CutReturn.text]

/-- A place in a restored method stands in its head, with the end of the parameters behind it, or nothing opens a
parenthesis before the semicolon. -/
theorem CutReturn.place_restored (hshape : ∀ type ∈ shape, isWord type = true) (r : CutReturn) {before after : Text}
    {c : Char} (hsplit : r.restored method shape = before ++ c :: after) :
    (∃ m, m <:+ r.head method ∧ c :: after = m ++ ')' :: ':' :: ' ' :: severalReturns shape ++ [';']) ∨
      ∃ z, '(' ∉ z ∧ c :: after = z ++ [';'] := by
  have hsplit' : r.head method ++ (')' :: ':' :: ' ' :: severalReturns shape ++ [';']) = before ++ c :: after := by
    simpa [CutReturn.restored] using hsplit
  obtain ⟨m, -, hm⟩ | ⟨m, hhead, hm⟩ := List.append_eq_append_iff.mp hsplit'
  · obtain ⟨z, hz, hafter⟩ := Text.eq_append_of_concat_eq hm
    have hparen : '(' ∉ ')' :: ':' :: ' ' :: severalReturns shape := by
      have hnone : '(' ∉ severalReturns shape := not_mem_severalReturns hshape (by decide) (by decide)
      simp [hnone]
    exact .inr ⟨z, fun hmem => hparen (hz ▸ List.mem_append_right m hmem), hafter⟩
  · exact .inl ⟨m, ⟨before, hhead.symm⟩, by simpa using hm⟩

/-- A word with an opened parenthesis does not start in front of a semicolon with no such parenthesis before it. -/
theorem ne_of_not_mem_opener (hmethod : isWord method = true) {z u rest : Text} (hz : '(' ∉ z) :
    z ++ ';' :: u ≠ method ++ '(' :: rest := fun h =>
  (Text.mem_or_mem_of_append_cons_eq (by decide) h).elim hz (Text.not_mem_of_isWord hmethod (by decide))

/-- A restored method has no place where a method is cut short. -/
theorem not_startsCutShort_restored (hmethod : isWord method = true) (hother : isWord other = true)
    (hshape : ∀ type ∈ shape, isWord type = true) (r : CutReturn) {before after : Text} {c : Char}
    (hsplit : r.restored method shape = before ++ c :: after) (u : Text) :
    ¬ StartsCutShort other (c :: after ++ u) := by
  intro h
  obtain ⟨m, hm, hafter⟩ | ⟨z, hz, hafter⟩ := r.place_restored hshape hsplit
  · rw [hafter] at h
    have hm' := StartsCutShort.of_restored hother hshape (s := m) (u := u) (by simpa using h)
    exact r.not_mem_head hmethod (hm.subset hm'.mem)
  · obtain ⟨q, rest, hq⟩ := h
    have hopener : z ++ ';' :: u = other ++ '(' ::
        (q.params ++ ')' :: (':' :: q.blanks ++ '(' :: q.types ++ [',', ';'] ++ rest)) := by
      simpa [hafter, CutReturn.text, CutReturn.head] using hq
    exact ne_of_not_mem_opener hother hz hopener

/-- Restoring returns cuts no method short. -/
theorem StartsCutShort.of_substitute (hother : isWord other = true)
    (hshape : ∀ type ∈ shape, isWord type = true) (previous : Option Char) (t : Text) :
    ∀ s, StartsCutShort other (s ++ Text.substituteFrom (tupleReturnRule shape method) none 0 previous t) →
      StartsCutShort other (s ++ t) := by
  refine Text.starts_of_substituteFrom takes_tupleReturnRule (fun previous taken rest written hrule s u h => ?_)
    previous t
  obtain ⟨-, r, htaken, rfl⟩ := tupleReturnRule_eq_some_iff.mp hrule
  obtain rfl := List.append_cancel_right htaken
  have hhead : StartsCutShort other (s ++ r.head method) :=
    StartsCutShort.of_restored hother hshape (by simpa [CutReturn.restored] using h)
  have hall := hhead.append (')' :: ':' :: r.blanks ++ '(' :: r.types ++ [',', ';'] ++ rest)
  simpa [CutReturn.text] using hall

/-- After the returns of a method are restored, its rule applies nowhere, and neither does the rule of any other method
that applied nowhere before. -/
theorem isIdle_substitute (hmethod : isWord method = true) (hother : isWord other = true)
    (hshape : ∀ type ∈ shape, isWord type = true) (previous : Option Char) (t : Text)
    (h : other = method ∨ (tupleReturnRule otherShape other).IsIdle previous t) :
    (tupleReturnRule otherShape other).IsIdle previous
      (Text.substituteFrom (tupleReturnRule shape method) none 0 previous t) := by
  refine Text.isIdle_substituteFrom takes_tupleReturnRule
    (fun previous t => other = method ∨ (tupleReturnRule otherShape other).IsIdle previous t) ?_ ?_ previous t h
  · intro previous c t hnone h
    have hhere : tupleReturnRule otherShape other previous (c :: t) = none := by
      obtain rfl | h := h
      · rwa [tupleReturnRule_eq_none_iff] at hnone ⊢
      · exact h.1
    refine ⟨?_, h.imp_right And.right⟩
    -- Whether a word starts at a kept character is seen from it and the one before.
    rw [tupleReturnRule_eq_none_iff] at hhere ⊢
    rintro ⟨hboundary, hstarts⟩
    exact hhere ⟨hboundary, StartsCutShort.of_substitute hother hshape (some c) t [c] hstarts⟩
  · intro previous taken rest written hrule h
    obtain ⟨-, r, htaken, rfl⟩ := tupleReturnRule_eq_some_iff.mp hrule
    obtain rfl := List.append_cancel_right htaken
    refine ⟨(r.getLast?_restored method shape).trans (r.getLast?_text method).symm, h.imp_right fun h => ?_,
      fun before c after hsplit place u => ?_⟩
    · have hrest := (Text.isIdle_append.mp h).2
      rwa [r.getLast?_text, Option.some_or, ← r.getLast?_text method] at hrest
    · rw [tupleReturnRule_eq_none_iff]
      exact fun hstarts => not_startsCutShort_restored hmethod hother hshape r hsplit _ hstarts.2

/-! ## All methods -/

/-- The methods of families with the types that they return, in order. -/
def passes (families : List TupleFamily) : List (List Text × Text) :=
  families.flatMap fun family => family.methods.map fun method => (family.shape, method)

/-- Restores the returns of one method. -/
def restoreMethod (t : Text) (pass : List Text × Text) : Text :=
  Text.substitute (tupleReturnRule pass.1 pass.2) none t

/-- Families are restored one method after another. -/
theorem apply_tupleReturns (families : List TupleFamily) (t : Text) :
    apply t (.tupleReturns families) = (passes families).foldl restoreMethod t := by
  change families.foldl restoreFamily t = _
  induction families generalizing t with
  | nil => rfl
  | cons family families ih =>
    have hfamily : restoreFamily t family =
        (family.methods.map fun method => (family.shape, method)).foldl restoreMethod t := by
      rw [List.foldl_map]
      rfl
    rw [List.foldl_cons, ih, hfamily, ← List.foldl_append]
    rfl

/-- After a series of methods none of them is left with cut returns. -/
theorem isIdle_foldl_restoreMethod {list : List (List Text × Text)}
    (hwords : ∀ pass ∈ list, isWord pass.2 = true ∧ ∀ type ∈ pass.1, isWord type = true) (t : Text) :
    ∀ pass ∈ list, ∀ shape, (tupleReturnRule shape pass.2).IsIdle none (list.foldl restoreMethod t) := by
  induction list using List.reverseRecOn with
  | nil => exact fun pass hpass => absurd hpass List.not_mem_nil
  | append_singleton list last ih =>
    intro pass hpass shape
    have hlast := hwords last (by simp)
    rw [List.foldl_append]
    refine isIdle_substitute hlast.1 (hwords pass hpass).1 hlast.2 none _ ?_
    obtain hpass | hpass := List.mem_append.mp hpass
    · exact .inr (ih (fun pass hmem => hwords pass (List.mem_append_left _ hmem)) pass hpass shape)
    · exact .inl (congrArg Prod.snd (List.mem_singleton.mp hpass))

/-- Where no method is left with cut returns nothing changes. -/
theorem foldl_restoreMethod_of_isIdle {list : List (List Text × Text)} {t : Text}
    (h : ∀ pass ∈ list, ∀ shape, (tupleReturnRule shape pass.2).IsIdle none t) : list.foldl restoreMethod t = t :=
  Text.foldl_eq_self fun pass hpass => Text.substituteFrom_of_isIdle (h pass hpass pass.1) none

/-- A text without a comma in front of a semicolon is kept: a list of returns that was cut short ends in both. -/
theorem apply_tupleReturns_of_not_isInfix {t : Text} (h : ¬ [',', ';'] <:+: t) (families : List TupleFamily) :
    apply t (.tupleReturns families) = t := by
  rw [apply_tupleReturns]
  refine foldl_restoreMethod_of_isIdle fun pass _ shape => Text.isIdle_iff.mpr fun before c after hsplit => ?_
  rw [tupleReturnRule_eq_none_iff]
  rintro ⟨-, r, rest, hstarts⟩
  have hmark : [',', ';'] <:+: r.text pass.2 := (List.suffix_append _ [',', ';']).isInfix
  have hstart : r.text pass.2 <:+: before ++ c :: after := ⟨before, rest, by rw [hstarts, List.append_assoc]⟩
  exact h (hsplit ▸ hmark.trans hstart)

/-- The rule of a method applies nowhere exactly where no returns of it are cut short. -/
theorem isIdle_tupleReturnRule_iff : (tupleReturnRule shape method).IsIdle none t ↔ ¬ HasCutShort method t :=
  Text.isIdle_iff_of_boundary (fun _ _ => tupleReturnRule_eq_none_iff) fun _ h => List.ne_nil_of_mem h.mem

variable {families : List TupleFamily}

/-- The methods of families and the types that they return are words when they are in every family. -/
theorem isWord_of_mem_passes
    (hwords : ∀ family ∈ families,
      (∀ method ∈ family.methods, isWord method = true) ∧ ∀ type ∈ family.shape, isWord type = true) :
    ∀ pass ∈ passes families, isWord pass.2 = true ∧ ∀ type ∈ pass.1, isWord type = true := by
  intro pass hpass
  obtain ⟨family, hfamily, hpass⟩ := List.mem_flatMap.mp hpass
  obtain ⟨method, hmethod, rfl⟩ := List.mem_map.mp hpass
  exact ⟨(hwords family hfamily).1 method hmethod, (hwords family hfamily).2⟩

/-- To restore the returns once more changes nothing. -/
theorem apply_tupleReturns_twice
    (hwords : ∀ pass ∈ passes families, isWord pass.2 = true ∧ ∀ type ∈ pass.1, isWord type = true) (t : Text) :
    apply (apply t (.tupleReturns families)) (.tupleReturns families) = apply t (.tupleReturns families) := by
  simp only [apply_tupleReturns]
  exact foldl_restoreMethod_of_isIdle (isIdle_foldl_restoreMethod hwords t)

/-- **Restored returns.** Whatever the text, no method of the families is left with returns that were cut short, and to
restore the returns once more changes nothing. -/
theorem tupleReturns_complete (families : List TupleFamily)
    (hwords : ∀ family ∈ families,
      (∀ method ∈ family.methods, isWord method = true) ∧ ∀ type ∈ family.shape, isWord type = true) (t : Text) :
    (∀ family ∈ families, ∀ method ∈ family.methods, ¬ HasCutShort method (apply t (.tupleReturns families))) ∧
      apply (apply t (.tupleReturns families)) (.tupleReturns families) = apply t (.tupleReturns families) := by
  have hpasses := isWord_of_mem_passes hwords
  refine ⟨fun family hfamily method hmethod => ?_, apply_tupleReturns_twice hpasses t⟩
  have hpass : (family.shape, method) ∈ passes families :=
    List.mem_flatMap.mpr ⟨family, hfamily, List.mem_map.mpr ⟨method, hmethod, rfl⟩⟩
  rw [apply_tupleReturns]
  exact isIdle_tupleReturnRule_iff.mp (isIdle_foldl_restoreMethod hpasses t _ hpass family.shape)

/-- Of two methods that are cut short, one inside the list of the other, restoring the inner one ends the outer list. -/
theorem tupleReturns_complete_nested :
    apply "is_cc(u): (\n slow(u): (A,;" (.tupleReturns [⟨["slow", "is_cc"], ["number", "string"]⟩]) =
        "is_cc(u): (\n slow(u): LuaMultiReturn<[number, string]>;".toList ∧
      ¬ HasCutShort "is_cc" "is_cc(u): (\n slow(u): LuaMultiReturn<[number, string]>;" := by
  have happly : apply "is_cc(u): (\n slow(u): (A,;" (.tupleReturns [⟨["slow", "is_cc"], ["number", "string"]⟩]) =
      "is_cc(u): (\n slow(u): LuaMultiReturn<[number, string]>;".toList := by decide
  have h := (tupleReturns_complete [⟨["slow", "is_cc"], ["number", "string"]⟩] (by decide)
    "is_cc(u): (\n slow(u): (A,;").1 _ List.mem_cons_self "is_cc" (by decide)
  rw [happly] at h
  exact ⟨happly, h⟩

end LuaTypings.Repair
