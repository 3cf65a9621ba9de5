import LuaTypings.Declaration.Block
import LuaTypings.Proofs.Source.DeclarationLine
import LuaTypings.Proofs.Source.DeclaredSignature
import LuaTypings.Proofs.TypeText.Prose

/-!
# Two ways to document what a method returns

A method without parameters is documented by a field of a function type or by the annotation of a return above its
declaration. The text of the return is cleaned once on the first way (`classes_byField`) and twice on the second
(`classes_byDeclaration`), so the two ways agree unless the cleaned text ends in a word that looks like prose.
-/

namespace LuaTypings.Declaration

open TypeText
open Text (isWord isPhrase)

/-- A method documented by a field of a function type. -/
def byField (className method returns : Text) : List Text :=
  [Source.annotationLine "class" [className], Source.annotationLine "field" [method, functionText [] returns]]

/-- A method documented by an annotation above its declaration. -/
def byDeclaration (className method returns : Text) : List Text :=
  [Source.annotationLine "return" [returns], Source.DeclaredFunction.line [] ⟨className, method, [], false⟩ ++ " end"]

example : byField "C" "m" "string" = ["---@class C", "---@field m fun(): string"] := by decide
example : byDeclaration "C" "m" "string" = ["---@return string", "function C.m() end"] := by decide

/-- The type of a cleaned return text. -/
def returnText (cleaned : Text) : Text := (WrittenReturn.ofCleaned cleaned).toText declaredType

/-- The interface of a class whose only member is a method without parameters. -/
def interfaceOf (className method returns : Text) : Text :=
  Text.join "\n"
    ["interface " ++ className ++ " \x7b", "  " ++ (methodKey method ++ "(this: void): " ++ returns) ++ ";", ['\x7d']]

/-- The class of a method that is documented by one text. -/
def documentedClass (className method returns : Text) : ClassModel :=
  ⟨className, [⟨method, functionText [] returns, none⟩], [], []⟩

variable {className method returns : Text}

/-- A method without parameters returns the type of its cleaned text. -/
theorem ofText_functionText_nil (returns : Text) :
    Callable.ofText (functionText [] returns) = .typed none [] (returnText (withoutProse returns)) := by
  rw [Callable.ofText, WrittenSignature.ofText?_functionText fun _ h => absurd h List.not_mem_nil, Callable.ofWritten,
    WrittenSignature.toCallable, returnText]
  simp only [WrittenSignature.receiver?, WrittenSignature.arguments, List.map_nil, List.find?_nil, List.eraseP_nil,
    Option.map_none]

/-- A method without parameters as a member. -/
theorem memberText_of_no_params (method returns : Text) :
    (Callable.typed none [] returns).memberText method = methodKey method ++ "(this: void): " ++ returns := by
  have hparams : (Callable.typed none [] returns).paramList = "this: void".toList :=
    (Text.join_singleton _ _).trans rfl
  have hmember : (Callable.typed none [] returns).memberText method =
      methodKey method ++ "(" ++ (Callable.typed none [] returns).paramList ++ "): " ++ returns := rfl
  have hlist : "(this: void): ".toList = "(".toList ++ "this: void".toList ++ "): ".toList := by decide
  rw [hmember, hparams, hlist]
  simp only [List.append_assoc]

/-- The interface of a documented method. -/
theorem interfaceText_documentedClass (names : List Text) (className method returns : Text) :
    interfaceText names (documentedClass className method returns) =
      interfaceOf className method (returnText (withoutProse returns)) := by
  have hline : methodLine ⟨method, functionText [] returns, none⟩ =
      "  " ++ (methodKey method ++ "(this: void): " ++ returnText (withoutProse returns)) ++ ";" := by
    rw [methodLine, ofText_functionText_nil, memberText_of_no_params]
  rw [interfaceText, interfaceLines, documentedClass, braced]
  simp only [List.map_nil, List.flatMap_nil, List.flatMap_cons, List.nil_append, hline, docLines]
  rfl

/-! ## The two ways -/

/-- The function type without parameters that returns a phrase is a phrase. -/
theorem isPhrase_functionText_nil (hreturns : isPhrase returns = true) : isPhrase (functionText [] returns) = true :=
  Text.isPhrase_append (s := "fun(" ++ Text.join ", " [] ++ ")" ) (m := ": ") (by decide) (by decide) hreturns

/-- Two lines are read one after the other. -/
theorem ofLines_pair (first second : Text) : Model.ofLines [first, second] =
    ((Source.Progress.start.step (.ofLine first)).step (.ofLine second)).model := rfl

section Ways

variable (hclass : isWord className = true) (hmethod : isWord method = true) (hreturns : isPhrase returns = true)
include hclass hmethod hreturns

/-- A field of a function type gives a method that returns what is written. -/
theorem classes_byField : (Model.ofLines (byField className method returns)).classes =
    [documentedClass className method returns] := by
  have htype : functionText [] returns = "fun(" ++ (Text.join ", " [] ++ ("): " ++ returns)) := by
    rw [← List.append_assoc, ← List.append_assoc]
    rfl
  have hphrase := isPhrase_functionText_nil hreturns
  have hfunction : isFunctionText (functionText [] returns) = true := rfl
  rw [htype] at hphrase hfunction
  rw [byField, ofLines_pair, Source.ofLine_classStart hclass, documentedClass, htype,
    Source.ofLine_functionField hmethod (Text.isLastPart_of_isPhrase hphrase)]
  generalize "fun(".toList ++ (Text.join ", " [] ++ ("): ".toList ++ returns)) = type at hfunction
  have hentry : (Source.Progress.start.step (.classStart className)).context.fieldEntry className
      ⟨method, type, false, none⟩ = .method className ⟨method, type, none⟩ := if_pos hfunction
  have hmodel : ((Source.Progress.start.step (.classStart className)).step (.field ⟨method, type, false, none⟩)).model =
      (Source.Progress.start.step (.classStart className)).model.add (.method className ⟨method, type, none⟩) := by
    rw [← hentry]
    rfl
  rw [hmodel]
  exact if_pos rfl

/-- A declaration gives a method that returns what is left of the annotation without prose. -/
theorem classes_byDeclaration : (Model.ofLines (byDeclaration className method returns)).classes =
    [documentedClass className method (withoutProse returns)] := by
  have hleft : withoutProse returns ≠ [] := by
    obtain ⟨hne, htrim, -⟩ := Text.isPhrase_iff.mp hreturns
    exact withoutProse_ne_nil (htrim.symm ▸ hne)
  have hdeclaration : Source.Directive.ofLine (Source.DeclaredFunction.line [] ⟨className, method, [], false⟩ ++ " end") =
      .function ⟨className, method, [], false⟩ :=
    Source.ofLine_declaration (fun _ h => absurd h List.not_mem_nil) hclass hmethod (fun _ h => absurd h List.not_mem_nil) _
  have htype : Source.Context.functionType ⟨none, [], some (withoutProse returns), []⟩ ⟨className, method, [], false⟩ =
      functionText [] (withoutProse returns) := by
    rw [Source.Context.functionType_eq, Source.Context.writtenReturns]
    split
    · rename_i h
      cases h
    · rename_i h
      exact absurd (Option.some.inj h) hleft
    · rename_i h
      rw [Option.some.inj h]
      rfl
  rw [byDeclaration, ofLines_pair, Source.ofLine_returns (Text.isLastPart_of_isPhrase hreturns), hdeclaration,
    documentedClass, ← htype]
  rfl

/-- **Two ways to document a return.** The field way gives the type of the cleaned text, and the declaration way that of
the text cleaned twice. The second cleaning drops one more word when the cleaned text still ends in a word of prose, and
nothing otherwise; a third one never changes anything. So the two ways agree on every text whose cleaned form does not
end in a word of prose. -/
theorem interfaceText_documented (names : List Text) :
    (¬ EndsInProse (withoutProse returns) →
        (Model.ofLines (byField className method returns)).classes.map (interfaceText names) =
          (Model.ofLines (byDeclaration className method returns)).classes.map (interfaceText names)) ∧
      (withoutProse (withoutProse returns) = withoutProse returns ↔ ¬ EndsInProse (withoutProse returns)) ∧
      (Model.ofLines (byField className method returns)).classes.map (interfaceText names) =
        [interfaceOf className method (returnText (withoutProse returns))] ∧
      (Model.ofLines (byDeclaration className method returns)).classes.map (interfaceText names) =
        [interfaceOf className method (returnText (withoutProse (withoutProse returns)))] ∧
      (∀ front word, withoutProse returns = front ++ ' ' :: word → isWord word = true → isProseWord word = true →
        withoutProse (withoutProse returns) = Text.strip front) ∧
      withoutProse (withoutProse (withoutProse returns)) = withoutProse (withoutProse returns) := by
  have hfield : (Model.ofLines (byField className method returns)).classes.map (interfaceText names) =
      [interfaceOf className method (returnText (withoutProse returns))] := by
    rw [classes_byField hclass hmethod hreturns, List.map_singleton, interfaceText_documentedClass]
  have hdeclaration : (Model.ofLines (byDeclaration className method returns)).classes.map (interfaceText names) =
      [interfaceOf className method (returnText (withoutProse (withoutProse returns)))] := by
    rw [classes_byDeclaration hclass hmethod hreturns, List.map_singleton, interfaceText_documentedClass]
  refine ⟨fun hends => ?_, withoutProse_twice_iff returns, hfield, hdeclaration, ?_, withoutProse_thrice returns⟩
  · rw [hfield, hdeclaration, (withoutProse_twice_iff returns).mpr hends]
  · intro front word hsplit hword hprose
    rw [withoutProse_withoutProse, hsplit, dropProseWord_append hword hprose]

end Ways

/-- Two types in front of prose are documented alike: the last one is a basic type. -/
theorem interfaceText_documented_pair :
    (Model.ofLines (byField "C" "get" "vec3, number The rest")).classes.map (interfaceText []) =
      (Model.ofLines (byDeclaration "C" "get" "vec3, number The rest")).classes.map (interfaceText []) :=
  (interfaceText_documented (by decide) (by decide) (by decide) []).1
    (dropProseWord_eq_self_iff.mp (by decide))

/-- The name of a class behind a comma is taken for prose when a text is cleaned again. -/
theorem interfaceText_documented_differently :
    isPhrase "string, vec3 position" = true ∧
      (Model.ofLines (byField "C" "m" "string, vec3 position")).classes.map (interfaceText []) =
        ["interface C \x7b\n  m(this: void): LuaMultiReturn<[string, vec3]>;\n\x7d"] ∧
      (Model.ofLines (byDeclaration "C" "m" "string, vec3 position")).classes.map (interfaceText []) =
        ["interface C \x7b\n  m(this: void): string,;\n\x7d"] ∧
      withoutProse (withoutProse "string, vec3 position") ≠ withoutProse "string, vec3 position" := by
  decide +kernel

end LuaTypings.Declaration
