import LuaTypings.Declaration.DocComment
import LuaTypings.Proofs.Text.Literal

/-!
# Where a comment ends

A description is written between the marks of a comment, and its own comment ends are broken by a backslash. What is
written for them holds no comment end and makes none with the text around it (`not_isInfix_escapeCommentEnd`), and the
blanks beside the marks keep them apart from the description. So the comment has one end, and whatever is written behind the
comment is read from there on (`commentText_ends_once`).
-/

namespace LuaTypings.Declaration

open Text

/-- What is read behind the comment that a text starts with: all that follows the first comment end in it. Nothing is, when
the text starts with no comment or its comment never ends. -/
def behindComment? (t : Text) : Option Text := do
  let inside ← dropStart? "/*" t
  (cutAt? "*/" inside).map (·.2)

/-- Comment ends are broken one after another, from left to right. -/
theorem substituteFrom_escapeCommentEnd (previous : Option Char) (d : Text) :
    substituteFrom (literalRule "*/" "*\\/") none 0 previous d = escapeCommentEnd d := by
  induction d using escapeCommentEnd.induct generalizing previous with
  | case1 t ih =>
    have hwrite : substituteFrom (literalRule "*/" "*\\/") none 0 previous ("*/".toList ++ t) =
        "*\\/" ++ substituteFrom (literalRule "*/" "*\\/") none 0 (some '/') t :=
      substituteFrom_write (List.cons_ne_nil _ _) (literalRule_eq_some_iff.mpr ⟨rfl, rfl⟩)
    rw [ih] at hwrite
    exact hwrite
  | case2 c t hnot ih =>
    have hnone : literalRule "*/" "*\\/" previous (c :: t) = none := by
      rw [literalRule_eq_none_iff]
      rintro ⟨rest, hrest⟩
      obtain ⟨rfl, rfl⟩ := List.cons.inj hrest
      exact hnot rest rfl rfl
    rw [substituteFrom_keep hnone, ih, escapeCommentEnd]
    exact hnot
  | case3 => rfl

/-- A description is escaped by writing a broken comment end for every comment end. -/
theorem escapeCommentEnd_eq (d : Text) : escapeCommentEnd d = substitute (literalRule "*/" "*\\/") none d :=
  (substituteFrom_escapeCommentEnd none d).symm

/-- An escaped description holds no comment end. -/
theorem not_isInfix_escapeCommentEnd (d : Text) : ¬ "*/".toList <:+: escapeCommentEnd d := by
  rw [escapeCommentEnd_eq]
  exact not_isInfix_substitute_literalRule (by decide) (by decide) (by decide) (by decide) (.inl rfl)

/-- A description without a comment end stays as it is. -/
theorem escapeCommentEnd_of_not_isInfix {d : Text} (h : ¬ "*/".toList <:+: d) : escapeCommentEnd d = d := by
  rw [escapeCommentEnd_eq]
  exact substitute_literalRule_of_not_isInfix h none

/-- The first comment end behind the opening of a comment is the one that the comment is written with. -/
theorem cutAt?_opening {opening : Text} (h : ¬ "*/".toList <:+: opening) (d rest : Text) :
    cutAt? "*/" (opening ++ ' ' :: (escapeCommentEnd d ++ ' ' :: ("*/".toList ++ rest))) =
      some (opening ++ ' ' :: (escapeCommentEnd d ++ ' ' :: []), rest) := by
  have hend : cutAt? "*/" ("*/".toList ++ rest) = some ([], rest) := rfl
  rw [cutAt?_append_cons (by decide) h, cutAt?_append_cons (by decide) (not_isInfix_escapeCommentEnd d), hend]
  rfl

/-- A comment with a text behind it, by its parts. -/
theorem commentText_append (d rest : Text) :
    commentText d ++ rest = "/**".toList ++ ' ' :: (escapeCommentEnd d ++ ' ' :: ("*/".toList ++ rest)) := by
  simp [commentText]

/-- What is read behind a comment is what is written behind it. -/
theorem behindComment?_commentText (d rest : Text) : behindComment? (commentText d ++ rest) = some rest := by
  have hopened : dropStart? "/*" (commentText d ++ rest) =
      some ("*".toList ++ ' ' :: (escapeCommentEnd d ++ ' ' :: ("*/".toList ++ rest))) := by
    rw [commentText_append]
    rfl
  rw [behindComment?, hopened, Option.bind_eq_bind, Option.bind_some, cutAt?_opening (by decide)]
  rfl

/-- **A description never ends its comment.** The comment of a description has exactly one comment end, its own, whatever
stars and slashes the description has. A description without a comment end stands in it letter by letter, and in another one
every comment end is broken by a backslash, from left to right. So whatever is written behind the comment, a reader who skips
the comment goes on there. -/
theorem commentText_ends_once (d : Text) :
    (∀ before after : Text, commentText d = before ++ ("*/" ++ after) ↔
      before = "/** " ++ escapeCommentEnd d ++ " " ∧ after = []) ∧
      (¬ "*/".toList <:+: d → commentText d = "/** " ++ d ++ " */") ∧
      escapeCommentEnd d = substitute (literalRule "*/" "*\\/") none d ∧
      ∀ rest, behindComment? (commentText d ++ rest) = some rest := by
  refine ⟨fun before after => ⟨fun h => ?_, ?_⟩, fun h => ?_, escapeCommentEnd_eq d, behindComment?_commentText d⟩
  · -- The comment end that is looked at is not in front of the first one, and nothing follows that.
    obtain ⟨head, rest, hcut, more, hbefore⟩ := exists_cutAt?_append "*/" before after
    have hfirst : cutAt? "*/" (commentText d ++ []) = some ("/** " ++ escapeCommentEnd d ++ " ", []) := by
      rw [commentText_append, cutAt?_opening (by decide)]
      rfl
    rw [List.append_nil, h, hcut] at hfirst
    obtain ⟨rfl, rfl⟩ := Prod.mk.inj (Option.some.inj hfirst)
    have hwhole : commentText d = ("/** " ++ escapeCommentEnd d ++ " ") ++ "*/" := by simp [commentText]
    have hlength := congrArg List.length (hwhole.symm.trans h)
    rw [← hbefore] at hlength
    simp only [List.length_append] at hlength
    obtain rfl : more = [] := List.eq_nil_of_length_eq_zero (by omega)
    obtain rfl : after = [] := List.eq_nil_of_length_eq_zero (by omega)
    exact ⟨by rw [← hbefore, List.append_nil], rfl⟩
  · rintro ⟨rfl, rfl⟩
    simp [commentText]
  · rw [commentText, escapeCommentEnd_of_not_isInfix h]

/-- Stars and slashes that would end the comment early, among themselves and with the marks around them. -/
theorem commentText_ends_once_of_stars :
    let d : Text := "/*/ **// export type A = 1; /**/*"
    "*/".toList <:+: d ∧ commentText d = "/** /*\\/ **\\// export type A = 1; /**\\/* */" ∧
      behindComment? (commentText d ++ "\n  hp: number;") = some "\n  hp: number;".toList ∧
      commentText "/ *" = "/** / * */" := by
  intro d
  obtain ⟨-, -, hescape, hbehind⟩ := commentText_ends_once d
  obtain ⟨-, hplain, -, -⟩ := commentText_ends_once "/ *"
  refine ⟨hasText_iff.mp (by decide), ?_, hbehind _, hplain (mt hasText_iff.mpr (by decide))⟩
  rw [commentText, hescape]
  decide +kernel

end LuaTypings.Declaration
