import LuaTypings.Exchange.Request
import LuaTypings.Exchange.Route

/-!
# The description of the service

The service describes itself in the format OpenAPI: for each route that does its work the method, the body that it
takes and the answers that it gives, and the shapes of these by name. Titles are names with their words apart.
-/

namespace LuaTypings.Exchange

open Json (Value)

/-- An entry of a structured value. -/
def entry (name : Text) (value : Value) : Text × Value := (name, value)

/-- The shape of a value. -/
inductive Shape where
  | text
  | whole
  | truth
  | null
  | anything
  | entries
  | listOf (item : Shape)
  | either (first second : Shape)
  /-- The shape that goes by a name. -/
  | named (name : Text)
  deriving DecidableEq, Repr

namespace Shape

/-- A shape that says its type and no more. -/
def typed (name : Text) : List (Text × Value) := [("type", .string name)]

/-- A shape as the entries of a structured value. -/
def described : Shape → List (Text × Value)
  | text => typed "string"
  | whole => typed "integer"
  | truth => typed "boolean"
  | null => typed "null"
  | anything => []
  | entries => typed "object"
  | listOf item => typed "array" ++ [entry "items" (.object item.described)]
  | either first second => [("anyOf", .list [.object first.described, .object second.described])]
  | named name => [("$ref", .string ("#/components/schemas/".toList ++ name))]

end Shape

/-- The words of a name, which underscores part, with capitals and blanks between them. -/
def titleOf (name : Text) : Text :=
  let capitalized : Text → Text
    | [] => []
    | c :: t => c.toUpper :: t
  Text.join " " ((Text.splitAll (· == '_') name).map capitalized)

/-- Whether a part has to be given, and what it is when it is not. -/
inductive Presence where
  | required
  | optional
  | default (value : Value)
  deriving Repr

/-- A part of an object. -/
structure Part where
  name : Text
  title : Text
  shape : Shape
  presence : Presence
  deriving Repr

/-- A part with the title that its name gives. -/
def Part.titled (name : Text) (shape : Shape) (presence : Presence) : Part := ⟨name, titleOf name, shape, presence⟩

/-- A part as an entry of a structured value. -/
def Part.described (p : Part) : Text × Value :=
  let default := match p.presence with
    | .default value => [entry "default" value]
    | .required | .optional => []
  (p.name, .object (p.shape.described ++ [entry "title" (.string p.title)] ++ default))

/-- An object's shape, which goes by a name. -/
structure ObjectShape where
  name : Text
  parts : List Part
  deriving Repr

namespace ObjectShape

/-- The parts that have to be given. -/
def requiredParts (o : ObjectShape) : List Part :=
  o.parts.filter fun p => match p.presence with
    | .required => true
    | .optional | .default _ => false

/-- An object's shape as an entry of a structured value. -/
def described (o : ObjectShape) : Text × Value :=
  let required := o.requiredParts.map fun p => Value.string p.name
  (o.name, .object (Shape.entries.described ++
    [entry "title" (.string o.name), entry "properties" (.object (o.parts.map Part.described))] ++
    (if required.isEmpty then [] else [entry "required" (.list required)])))

/-- The parts that say how a source is declared, besides its name and its file. -/
def choices : List Part := [
  .titled "main_export" (.either .text .null) .optional,
  .titled "filter_classes" (.listOf .text) (.default (.list [])),
  .titled "declare_global_var" .truth (.default (.bool false))]

/-- That the service is well. -/
def health : ObjectShape := ⟨"HealthResponse", [.titled "status" .text .required]⟩

/-- A module of the registry. -/
def moduleInfo : ObjectShape :=
  ⟨"ModuleInfo", [.titled "name" .text .required, .titled "source_file" .text .required] ++ choices⟩

/-- A source to declare. -/
def sourceRequest : ObjectShape :=
  ⟨"TranslateRequest", [.titled "source" .text .required, .titled "module_name" .text .required,
    .titled "source_file" .text (.default (.string unnamedSource))] ++ choices⟩

/-- What becomes of a source. -/
def outcome : ObjectShape :=
  ⟨"TranslateResponse", [.titled "status" .text .required, .titled "declaration" (.either .text .null) .optional,
    .titled "reason" (.either .text .null) .optional]⟩

/-- A fault in a request. -/
def fault : ObjectShape :=
  ⟨"ValidationError", [⟨"loc", "Location", .listOf (.either .text .whole), .required⟩,
    ⟨"msg", "Message", .text, .required⟩, ⟨"type", "Error Type", .text, .required⟩,
    ⟨"input", "Input", .anything, .optional⟩, ⟨"ctx", "Context", .entries, .optional⟩]⟩

/-- The faults in a request. -/
def faults : ObjectShape := ⟨"HTTPValidationError", [.titled "detail" (.listOf (.named fault.name)) .optional]⟩

/-- All shapes that go by a name. -/
def all : List ObjectShape := [faults, health, moduleInfo, sourceRequest, outcome, fault]

end ObjectShape

/-- What the description says of a route. -/
structure Operation where
  route : Route
  name : Text
  method : Text
  takes : Option ObjectShape
  gives : Shape
  deriving Repr

namespace Operation

/-- The operations of the service. -/
def all : List Operation := [
  ⟨.health, "health", "get", none, .named ObjectShape.health.name⟩,
  ⟨.modules, "list_modules", "get", none, .listOf (.named ObjectShape.moduleInfo.name)⟩,
  ⟨.translate, "translate_unit", "post", some .sourceRequest, .named ObjectShape.outcome.name⟩]

/-- The name by which no other operation goes. -/
def identifier (o : Operation) : Text :=
  o.name ++ o.route.path.map (fun c => if c == '/' then '_' else c) ++ ['_'] ++ o.method

/-- A body with entries that say its shape. -/
def content (shape : List (Text × Value)) : Text × Value :=
  ("content", .object [("application/json", .object [("schema", .object shape)])])

/-- The shape of an answer. A list has a title besides. -/
def answerShape (o : Operation) : List (Text × Value) :=
  o.gives.described ++ match o.gives with
    | .listOf _ => [entry "title" (.string (titleOf ("Response_".toList ++ o.identifier)))]
    | _ => []

/-- The answers of an operation, by their status. Where a body is taken it may have faults. -/
def answers (o : Operation) : List (Text × Value) :=
  let answer (status description : Text) (shape : List (Text × Value)) : Text × Value :=
    (status, .object [("description", .string description), content shape])
  [answer "200" "Successful Response" o.answerShape] ++
    match o.takes with
    | none => []
    | some _ => [answer "422" "Validation Error" (Shape.named ObjectShape.faults.name).described]

/-- An operation as an entry of a structured value. -/
def described (o : Operation) : Text × Value :=
  let body := o.takes.toList.map fun taken =>
    entry "requestBody" (.object [("required", .bool true), content (Shape.named taken.name).described])
  (o.route.path, .object [(o.method, .object ([entry "summary" (.string (titleOf o.name)),
    entry "operationId" (.string o.identifier), entry "responses" (.object o.answers)] ++ body))])

end Operation

/-- The description of the service. -/
def serviceDescription : Value :=
  .object [
    ("openapi", .string "3.1.0"),
    ("info", .object [("title", .string "dtsgen Service"), ("version", .string "1.0.0")]),
    ("paths", .object (Operation.all.map Operation.described)),
    ("components", .object [("schemas", .object (ObjectShape.all.map ObjectShape.described))])]

end LuaTypings.Exchange
