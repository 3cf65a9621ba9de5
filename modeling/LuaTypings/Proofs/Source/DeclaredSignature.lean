import LuaTypings.Source.Context
import LuaTypings.Proofs.TypeText.SignatureText

/-!
# Signatures of declared functions

The function type of a declaration is written from the annotations that wait for it and is later read as a text. The
two agree: `ofText_functionType` gives the callable that the reader finds in terms of the declaration and the
annotations alone.
-/

namespace LuaTypings.Source.Context

open TypeText

/-! ## What a declaration means -/

/-- The annotation of a parameter; one that is not annotated takes any. -/
def noteOf (c : Context) (name : Text) : ParamNote := (c.param? name).getD ⟨name, "any", false⟩

/-- A declared parameter. A question mark behind the annotated type makes it optional and is no part of the type. -/
def declaredParam (c : Context) (name : Text) : Param :=
  { name := safeParamName name
    type := declaredType (Text.stripQuestionMarks (c.noteOf name).type)
    optional := (c.noteOf name).optional || (c.noteOf name).type.getLast? == some '?'
    variadic := false }

/-- The receiver of a declared function: the class for the colon form, else the parameter of the receiver's name. -/
def declaredReceiver? (c : Context) (d : DeclaredFunction) : Option Text :=
  if d.colon then some (declaredType d.className)
  else if receiverName ∈ d.params then some (c.declaredParam receiverName).type
  else none

/-- What a declared function returns, without prose behind it; nothing when no type is annotated. -/
def declaredReturns (c : Context) : Text :=
  match c.returns with
  | none | some [] => voidType
  | some type => (WrittenReturn.ofCleaned (withoutProse type)).toText declaredType

/-! ## What is written -/

/-- The returns as they are written: nil when no type is annotated. -/
def writtenReturns (c : Context) : Text :=
  match c.returns with
  | none | some [] => "nil"
  | some type => type

/-- A declaration is written from its parameters and the returns. -/
theorem functionType_eq (c : Context) (d : DeclaredFunction) :
    c.functionType d = functionText (c.writeParams d) c.writtenReturns := rfl

/-- The type of an annotation can stand among parameters when the types of all annotations can. -/
theorem isListable_noteOf {c : Context} (h : ∀ note ∈ c.params, isListable note.type = true) (name : Text) :
    isListable (c.noteOf name).type = true := by
  rw [noteOf]
  cases hfound : c.param? name with
  | none => exact isListable_of_isWord (t := "any") (by decide)
  | some note => exact h note (List.mem_of_find?_eq_some hfound)

/-- A parameter is written from its annotation. -/
theorem writeParam_eq (c : Context) (name : Text) :
    c.writeParam name = paramText name (c.noteOf name).optional (c.noteOf name).type := by
  rw [writeParam, noteOf]
  cases c.param? name with
  | none => simp [paramText]
  | some note => rfl

/-- A parameter of a declaration as it is read back. -/
def readParam (c : Context) (name : Text) : WrittenParam :=
  .ofParts name (c.noteOf name).optional (c.noteOf name).type

/-- The parameters of a declaration as they are read back. -/
def readParams (c : Context) (d : DeclaredFunction) : List WrittenParam :=
  if d.colon then .ofParts receiverName false d.className :: (d.params.filter (· ≠ receiverName)).map c.readParam
  else d.params.map c.readParam

section Written

variable {c : Context} {d : DeclaredFunction} (hclass : Text.isWord d.className = true)
  (hparams : ∀ name ∈ d.params, Text.isWord name = true) (htypes : ∀ note ∈ c.params, isListable note.type = true)

include hclass hparams htypes

/-- Every written parameter of a declaration is listable. -/
theorem isListable_writeParams : ∀ part ∈ c.writeParams d, isListable part = true := by
  have hone : ∀ name ∈ d.params, isListable (c.writeParam name) = true := fun name hname => by
    rw [writeParam_eq]
    exact isListable_paramText (hparams name hname) _ (isListable_noteOf htypes name)
  intro part hpart
  rw [writeParams] at hpart
  -- The colon form writes the class in front; all else is written from a declared name.
  split at hpart
  · rw [List.mem_cons] at hpart
    obtain rfl | hpart := hpart
    · have hreceiver : Text.isWord receiverName = true := by decide
      exact isListable_paramText hreceiver false (isListable_of_isWord hclass)
    · obtain ⟨name, hname, rfl⟩ := List.mem_map.mp hpart
      exact hone name (List.mem_of_mem_filter hname)
  · obtain ⟨name, hname, rfl⟩ := List.mem_map.mp hpart
    exact hone name hname

/-- The written parameters of a declaration are read back. -/
theorem map_ofText_writeParams : (c.writeParams d).map WrittenParam.ofText = c.readParams d := by
  have hone : ∀ name ∈ d.params, WrittenParam.ofText (c.writeParam name) = c.readParam name := fun name hname => by
    rw [writeParam_eq]
    exact WrittenParam.ofText_paramText (hparams name hname) _ (isListable_iff.mp (isListable_noteOf htypes name)).2.1
  rw [writeParams, readParams]
  split
  · have hreceiver : WrittenParam.ofText (paramText receiverName false d.className) =
        .ofParts receiverName false d.className :=
      WrittenParam.ofText_paramText (by decide) false (Text.strip_of_isWord hclass)
    rw [List.map_cons, List.map_map]
    congr 1
    exact List.map_congr_left fun name hname => hone name (List.mem_of_mem_filter hname)
  · rw [List.map_map]
    exact List.map_congr_left hone

end Written

/-! ## Receiver and arguments -/

/-- A parameter is read back under its name. -/
theorem name_readParam (c : Context) (name : Text) : (c.readParam name).name = name := rfl

/-- The declared type of a parameter that is read back. -/
theorem declaredType_readParam (c : Context) (name : Text) :
    declaredType (c.readParam name).type = (c.declaredParam name).type := by
  rw [readParam, WrittenParam.ofParts, declaredParam]

/-- Among parameters that are read back the first of a name is the one of that name. -/
theorem find?_map_readParam (c : Context) (params : List Text) (name : Text) :
    (params.map c.readParam).find? (·.name = name) = if name ∈ params then some (c.readParam name) else none := by
  induction params with
  | nil => rfl
  | cons other params ih =>
    rw [List.map_cons, List.find?_cons, ih, name_readParam]
    by_cases h : other = name
    · simp [h]
    · simp [h, Ne.symm h]

/-- The receiver is the class or the parameter of the receiver's name. -/
theorem find?_readParams (c : Context) (d : DeclaredFunction) (hclass : Text.isWord d.className = true) :
    ((c.readParams d).find? (·.name = receiverName)).map (fun p => declaredType p.type) = c.declaredReceiver? d := by
  rw [readParams, declaredReceiver?]
  split
  · have htype : Text.stripQuestionMarks d.className = d.className :=
      stripQuestionMarks_of_getLast? (getLast?_of_isWord hclass)
    rw [WrittenParam.ofParts, htype, List.find?_cons_of_pos (by simp), Option.map_some]
  · rw [find?_map_readParam]
    split
    · rw [Option.map_some, declaredType_readParam]
    · rfl

/-- All parameters but the receiver are arguments. -/
theorem eraseP_readParams (c : Context) {d : DeclaredFunction} (hnodup : d.params.Nodup) :
    (c.readParams d).eraseP (·.name = receiverName) = (d.params.filter (· ≠ receiverName)).map c.readParam := by
  rw [readParams]
  split
  · rw [WrittenParam.ofParts, List.eraseP_cons_of_pos (by simp)]
  · have herase : d.params.eraseP (· = receiverName) = d.params.filter (· ≠ receiverName) := by
      simpa [List.erase_eq_eraseP', beq_eq_decide, bne] using hnodup.erase_eq_filter receiverName
    rw [List.eraseP_map, ← herase]
    rfl

/-- What is written for the returns is read as what the declaration returns. -/
theorem toText_writtenReturns (c : Context) :
    (WrittenReturn.ofCleaned (withoutProse c.writtenReturns)).toText declaredType = c.declaredReturns := by
  have hnil : (WrittenReturn.ofCleaned (withoutProse "nil")).toText declaredType = voidType := by decide
  rw [writtenReturns, declaredReturns]
  rcases c.returns with _ | _ | ⟨ch, type⟩
  · exact hnil
  · exact hnil
  · rfl

/-- **The signature of a declaration.** The function type that is written from a declaration and the annotations before
it is read back: the receiver is the class for the colon form, else the parameter of the receiver's name if there is
one; the arguments are the other parameters in their order, each with the type of its first annotation, optional when
the annotation or a question mark behind its type says so; the returns are those annotated. -/
theorem ofText_functionType (c : Context) (d : DeclaredFunction) (hclass : Text.isWord d.className = true)
    (hparams : ∀ name ∈ d.params, Text.isWord name = true) (hnodup : d.params.Nodup)
    (htypes : ∀ note ∈ c.params, isListable note.type = true) :
    Callable.ofText (c.functionType d) =
      .typed (c.declaredReceiver? d) ((d.params.filter (· ≠ receiverName)).map c.declaredParam) c.declaredReturns := by
  have hsignature : WrittenSignature.ofText? (c.functionType d) =
      some ⟨c.readParams d, .ofCleaned (withoutProse c.writtenReturns)⟩ := by
    rw [functionType_eq, WrittenSignature.ofText?_functionText (isListable_writeParams hclass hparams htypes),
      map_ofText_writeParams hclass hparams htypes]
  -- The receiver is looked up and then left out, so a declared parameter of its name is no argument.
  rw [Callable.ofText, hsignature, Callable.ofWritten, WrittenSignature.toCallable, WrittenSignature.receiver?,
    WrittenSignature.arguments, find?_readParams c d hclass, eraseP_readParams c hnodup, toText_writtenReturns,
    List.map_map]
  rfl

/-- A dotted declaration with an annotated receiver, a callback with several parameters of its own, and a reserved word
without an annotation. -/
theorem ofText_functionType_callback :
    Callable.ofText "fun(self: Unit?, cb?: fun(k: K, v: V): V?, in: any): K, V At most" =
      .typed (some "Unit")
        [⟨"cb", "(this: void, k: K, v: V) => V", true, false⟩, ⟨"_in", "any", false, false⟩]
        "LuaMultiReturn<[K, V]>" :=
  (ofText_functionType
    ⟨none, [⟨"cb", "fun(k: K, v: V): V?", true⟩, ⟨"self", "Unit?", false⟩, ⟨"cb", "K", false⟩],
      some "K, V At most", []⟩
    ⟨"Unit", "each", ["self", "cb", "in"], false⟩
    (by decide) (by decide) (by decide) (by decide)).trans (by decide)

end LuaTypings.Source.Context
