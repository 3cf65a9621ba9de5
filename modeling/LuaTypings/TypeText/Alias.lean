import LuaTypings.TypeText.Declared

/-!
# Alias bodies

The body of an alias may be what no other type is: an object literal, or a union in which function types stand
without parentheses.
-/

namespace LuaTypings.TypeText

/-- What curly brackets at both ends of a text enclose. -/
def literalBody? (t : Text) : Option Text := do
  Text.dropEnd? "\x7d" (← Text.dropStart? "\x7b" t)

/-- A member of an object literal; a part without a colon is none. -/
def literalMember? (part : Text) : Option Text :=
  match Text.cutAtChar ':' part with
  | (_, none) => none
  | (name, some type) => some (Text.strip name ++ ": " ++ declaredType (Text.strip type))

/-- An object literal with the declared types of its members. -/
def renderLiteral (body : Text) : Text :=
  if (Text.strip body).isEmpty then "\x7b\x7d"
  else "\x7b " ++ Text.join "; " ((topParts ',' (Text.strip body)).filterMap literalMember?) ++ " \x7d"

/-- An alternative of an alias: a function type stands in parentheses. -/
def declaredAlternative (part : Text) : Text :=
  if isFunctionText part then "(" ++ (Callable.ofText part).typeText ++ ")" else declaredType part

/-- The declaration's type of an alias body. -/
def declaredAlias (body : Text) : Text :=
  let t := Text.strip body
  match literalBody? t with
  | some inner => renderLiteral inner
  | none =>
    if t.contains '|' && Text.hasText "fun(" t then
      Text.join " | " ((topParts '|' t).map declaredAlternative).eraseDups
    else declaredType t

end LuaTypings.TypeText
