import LuaTypings.TypeText.View

/-!
# The declared type

The declaration's type of a type text is that of its outermost form, made from the declared types of the operands.
Operands are shorter than the text, so forms nest no deeper than the text is long.
-/

namespace LuaTypings.TypeText

/-- The declaration's type of a text that is nested less than `depth` deep. -/
def declaredWithin : Nat → Text → Text
  | 0, _ => []
  | depth + 1, t => (View.ofText t).render (declaredWithin depth)

/-- The declaration's type of a type text. -/
def declaredType (t : Text) : Text := declaredWithin (t.length + 1) t

/-- The callable of a function type's text. -/
def Callable.ofText (t : Text) : Callable := .ofWritten declaredType (WrittenSignature.ofText? t)

end LuaTypings.TypeText
