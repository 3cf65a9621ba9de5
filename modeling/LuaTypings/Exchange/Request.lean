import LuaTypings.Json.Reader
import LuaTypings.ModuleSpec

/-!
# Requests

A request comes as a structured value, whose text has to be within the limits of the reader. Every fault in the value
is found, each with its location.
-/

namespace LuaTypings.Exchange

/-- What is wrong with a part of a request. -/
inductive FaultKind where
  /-- The request is no structured value. -/
  | malformed
  /-- The part is missing. -/
  | missing
  /-- The part is no object. -/
  | notObject
  /-- The part is no string. -/
  | notText
  /-- The part is no list. -/
  | notList
  /-- The part can be no truth value. -/
  | notBool
  /-- The part could be a truth value, but is none. -/
  | unknownBool
  deriving DecidableEq, Repr

/-- The name of a kind of fault. -/
def FaultKind.name : FaultKind → Text
  | malformed => "json_invalid"
  | missing => "missing"
  | notObject => "model_attributes_type"
  | notText => "string_type"
  | notList => "list_type"
  | notBool => "bool_type"
  | unknownBool => "bool_parsing"

/-- A fault and the names that lead to it. -/
structure Fault where
  location : List Text
  kind : FaultKind
  deriving DecidableEq, Repr

/-- Why a body makes no request. -/
inductive Refusal where
  /-- It goes beyond the limits of the reader. -/
  | unreadable
  /-- It has faults. -/
  | faulty (faults : List Fault)
  deriving DecidableEq, Repr

/-- A source to declare, and how. -/
structure SourceRequest where
  source : Text
  spec : ModuleSpec
  deriving DecidableEq, Repr

open Json (Value)

/-- A part of a request, or the faults in it. -/
abbrev Checked (α : Type) := Except (List Fault) α

/-- The faults in a part. -/
def faultsOf {α : Type} : Checked α → List Fault
  | .ok _ => []
  | .error faults => faults

/-- The location of the body of a request. -/
def bodyLocation : List Text := ["body"]

/-- The source file of a request that gives none. -/
def unnamedSource : Text := "<request>"

/-- A part that has one fault. -/
def faulty {α : Type} (location : List Text) (kind : FaultKind) : Checked α := .error [⟨location, kind⟩]

/-- A string. -/
def textOf (location : List Text) : Value → Checked Text
  | .string t => .ok t
  | _ => faulty location .notText

/-- A string, or nothing. -/
def textOrNullOf (location : List Text) : Value → Checked (Option Text)
  | .null => .ok none
  | v => (textOf location v).map some

/-- The strings of items that are numbered from an index on. -/
def textsFrom (location : List Text) : (index : Nat) → List Value → Checked (List Text)
  | _, [] => .ok []
  | index, item :: items =>
    match textOf (location ++ [Text.ofNat index]) item, textsFrom location (index + 1) items with
    | .ok first, .ok others => .ok (first :: others)
    | first, others => .error (faultsOf first ++ faultsOf others)

/-- A list of strings. -/
def textsOf (location : List Text) : Value → Checked (List Text)
  | .list items => textsFrom location 0 items
  | _ => faulty location .notList

/-- The words for yes. -/
def yesWords : List Text := ["true".toList, "t".toList, "yes".toList, "y".toList, "on".toList, "1".toList]

/-- The words for no. -/
def noWords : List Text := ["false".toList, "f".toList, "no".toList, "n".toList, "off".toList, "0".toList]

/-- A truth value, which one of a few words, one and zero are too. Other words and whole numbers are unknown. -/
def boolOf (location : List Text) : Value → Checked Bool
  | .bool b => .ok b
  | .whole n => if n = 1 then .ok true else if n = 0 then .ok false else faulty location .unknownBool
  | .fraction t =>
    if t = "1.0".toList then .ok true
    else if t = "0.0".toList || t = "-0.0".toList then .ok false
    else faulty location (if Text.endsWith ".0" t then .unknownBool else .notBool)
  | .string t =>
    if yesWords.contains (Text.lower t) then .ok true
    else if noWords.contains (Text.lower t) then .ok false
    else faulty location .unknownBool
  | .null | .list _ | .object _ => faulty location .notBool

/-- A part that has to be given. -/
def required {α : Type} (entries : List (Text × Value)) (name : Text) (read : List Text → Value → Checked α) :
    Checked α :=
  match Json.lookup name entries with
  | none => faulty (bodyLocation ++ [name]) .missing
  | some v => read (bodyLocation ++ [name]) v

/-- A part that may be left out. -/
def optional {α : Type} (entries : List (Text × Value)) (name : Text) (default : α)
    (read : List Text → Value → Checked α) : Checked α :=
  match Json.lookup name entries with
  | none => .ok default
  | some v => read (bodyLocation ++ [name]) v

/-- The request that entries make. -/
def SourceRequest.ofEntries (entries : List (Text × Value)) : Checked SourceRequest :=
  let source := required entries "source" textOf
  let name := required entries "module_name" textOf
  let sourceFile := optional entries "source_file" unnamedSource textOf
  let mainExport := optional entries "main_export" none textOrNullOf
  let classFilter := optional entries "filter_classes" [] textsOf
  let declareGlobal := optional entries "declare_global_var" false boolOf
  match source, name, sourceFile, mainExport, classFilter, declareGlobal with
  | .ok source, .ok name, .ok sourceFile, .ok mainExport, .ok classFilter, .ok declareGlobal =>
    .ok ⟨source, ⟨name, sourceFile, mainExport, classFilter, declareGlobal⟩⟩
  | _, _, _, _, _, _ =>
    .error (faultsOf source ++ faultsOf name ++ faultsOf sourceFile ++ faultsOf mainExport ++
      faultsOf classFilter ++ faultsOf declareGlobal)

/-- The request that a value makes. -/
def SourceRequest.ofValue : Value → Checked SourceRequest
  | .null => faulty bodyLocation .missing
  | .object entries => SourceRequest.ofEntries entries
  | _ => faulty bodyLocation .notObject

/-- The request that the body of a message makes. An empty body counts as one that says nothing. -/
def SourceRequest.ofBody (body : Text) : Except Refusal SourceRequest :=
  let read := if body.isEmpty then .ok .null else Value.ofText body
  match read with
  | .ok value => (SourceRequest.ofValue value).mapError .faulty
  | .error (.unexpected position) => .error (.faulty [⟨bodyLocation ++ [Text.ofNat position], .malformed⟩])
  | .error .tooLarge => .error .unreadable

end LuaTypings.Exchange
