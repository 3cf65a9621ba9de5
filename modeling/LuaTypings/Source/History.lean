import LuaTypings.Source.Context

/-!
# What waits after a history of directives

The context after some directives, read off their list: each part of it is what a stretch of directives at the end of
the list says.
-/

namespace LuaTypings.Source

namespace Directive

/-- The class that a directive starts. -/
def startedClass? : Directive → Option Text
  | classStart name => some name
  | _ => none

/-- The parameter that a directive describes. -/
def param? : Directive → Option ParamNote
  | param note => some note
  | _ => none

/-- The return type that a directive gives. -/
def returned? : Directive → Option Text
  | returns type => some type
  | _ => none

/-- The prose of a directive. -/
def prose? : Directive → Option Text
  | description text => some text
  | _ => none

end Directive

/-- A directive in its place: whether a class was started before it. -/
structure Event where
  withinClass : Bool
  directive : Directive
  deriving DecidableEq, Repr

namespace Event

/-- Directives in their places, the first of them where a class was started or not. -/
def ofDirectives : (started : Bool) → List Directive → List Event
  | _, [] => []
  | started, d :: ds => ⟨started, d⟩ :: ofDirectives (started || d.startedClass?.isSome) ds

/-- Whether everything that waits is taken or discarded: by code, by a declaration, and by a table assigned outside
all classes. -/
def resets (e : Event) : Bool :=
  match e.directive with
  | .otherCode | .function _ => true
  | .nested _ _ => !e.withinClass
  | _ => false

/-- Whether the prose that waits is taken by a field of a class. -/
def takesProse (e : Event) : Bool :=
  match e.directive with
  | .field _ => e.withinClass
  | _ => false

end Event

/-- The items behind the last one of a kind, all of them when there is none. -/
def afterLast {α : Type} (isLast : α → Bool) (items : List α) : List α :=
  (items.reverse.takeWhile (!isLast ·)).reverse

/-- The context that directives lead to. -/
def Context.ofDirectives (ds : List Directive) : Context :=
  let events := Event.ofDirectives false ds
  let sinceReset := (afterLast Event.resets events).map (·.directive)
  let sinceProse := (afterLast (fun e => e.resets || e.takesProse) events).map (·.directive)
  { openClass := (ds.filterMap Directive.startedClass?).getLast?
    params := sinceReset.filterMap Directive.param?
    returns := (sinceReset.filterMap Directive.returned?).getLast?
    description := sinceProse.filterMap Directive.prose? }

end LuaTypings.Source
