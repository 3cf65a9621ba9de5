import LuaTypings.Text.Basic

/-!
# Doc comments

A description becomes a comment in front of its member. The text that would end the comment early is written
with a backslash between its two characters.
-/

namespace LuaTypings.Declaration

/-- The description with every comment end broken by a backslash. -/
def escapeCommentEnd : Text → Text
  | '*' :: '/' :: t => '*' :: '\\' :: '/' :: escapeCommentEnd t
  | c :: t => c :: escapeCommentEnd t
  | [] => []

/-- The comment of a description. -/
def commentText (description : Text) : Text := "/** " ++ escapeCommentEnd description ++ " */"

/-- The comment line of a member, if it has a description that is not empty. -/
def docLines (description : Option Text) : List Text :=
  match description with
  | none | some [] => []
  | some text => ["  " ++ commentText text]

end LuaTypings.Declaration
