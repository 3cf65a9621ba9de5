import Mathlib.Data.List.Induction
import LuaTypings.Source.History

/-!
# What waits for a declaration

Reading lines keeps a context up to date, one directive after another. `context_eq_ofDirectives` gives it in closed form:
it is what the directives since the last reset say. Annotations that other code follows leave no trace in the model
(`ofLines_discard`).
-/

namespace LuaTypings.Source

/-! ## Stretches at the end of a history -/

/-- The items behind the last one of a kind, after one more item. -/
theorem afterLast_concat {α : Type} (isLast : α → Bool) (items : List α) (x : α) :
    afterLast isLast (items ++ [x]) = if isLast x then [] else afterLast isLast items ++ [x] := by
  unfold afterLast
  rw [List.reverse_append, List.reverse_singleton, List.singleton_append]
  by_cases h : isLast x = true
  · rw [List.takeWhile_cons_of_neg (by simp [h]), if_pos h, List.reverse_nil]
  · rw [List.takeWhile_cons_of_pos (by simpa using h), if_neg h, List.reverse_cons]

/-- What one more item adds to the selected ones. -/
theorem filterMap_concat {α β : Type} (f : α → Option β) (items : List α) (x : α) :
    (items ++ [x]).filterMap f = items.filterMap f ++ (f x).toList := by
  rw [List.filterMap_append, List.filterMap_cons, List.filterMap_nil]
  cases f x <;> rfl

/-- The last selected item, after one more item. -/
theorem getLast?_filterMap_concat {α β : Type} (f : α → Option β) (items : List α) (x : α) :
    ((items ++ [x]).filterMap f).getLast? = (f x).or (items.filterMap f).getLast? := by
  rw [filterMap_concat, List.getLast?_append]
  cases f x <;> rfl

/-- Whether a class was started. -/
def startsClass (ds : List Directive) : Bool := ds.any (·.startedClass?.isSome)

/-- A directive behind others has its place within a class when one of them starts a class. -/
theorem Event.ofDirectives_concat (started : Bool) (ds : List Directive) (d : Directive) :
    Event.ofDirectives started (ds ++ [d]) =
      Event.ofDirectives started ds ++ [⟨started || startsClass ds, d⟩] := by
  induction ds generalizing started with
  | nil => simp [Event.ofDirectives, startsClass]
  | cons e ds ih => simp [Event.ofDirectives, startsClass, ih, Bool.or_assoc]

/-- The directives behind the last event of a kind. -/
def since (isLast : Event → Bool) (ds : List Directive) : List Directive :=
  (afterLast isLast (Event.ofDirectives false ds)).map (·.directive)

/-- The directives behind the last event of a kind, after one more directive. -/
theorem since_concat (isLast : Event → Bool) (ds : List Directive) (d : Directive) :
    since isLast (ds ++ [d]) = if isLast ⟨startsClass ds, d⟩ then [] else since isLast ds ++ [d] := by
  unfold since
  rw [Event.ofDirectives_concat, Bool.false_or, afterLast_concat]
  split
  · rfl
  · rw [List.map_append, List.map_singleton]

/-! ## The context after a history -/

namespace Context

/-- The class that is open after a directive is the one it starts, or else the one before. -/
theorem openClass_next (c : Context) (d : Directive) :
    (c.next d).openClass = d.startedClass?.or c.openClass := by
  cases d with
  | field note =>
    rw [next]
    split <;> rfl
  | nested outer inner =>
    rw [next]
    split <;> rfl
  | _ => rfl

variable (ds : List Directive) (d : Directive)

/-- The directive that stands behind a history, in its place. -/
def eventAfter : Event := ⟨startsClass ds, d⟩

/-- The open class after one more directive. -/
theorem openClass_concat :
    (ofDirectives (ds ++ [d])).openClass = d.startedClass?.or (ofDirectives ds).openClass :=
  getLast?_filterMap_concat Directive.startedClass? ds d

/-- The parameters that wait after one more directive. -/
theorem params_concat :
    (ofDirectives (ds ++ [d])).params =
      if (eventAfter ds d).resets then [] else (ofDirectives ds).params ++ d.param?.toList := by
  change (since Event.resets (ds ++ [d])).filterMap Directive.param? = _
  rw [since_concat, eventAfter]
  split
  · rfl
  · exact filterMap_concat Directive.param? _ d

/-- The returns that wait after one more directive. -/
theorem returns_concat :
    (ofDirectives (ds ++ [d])).returns =
      if (eventAfter ds d).resets then none else d.returned?.or (ofDirectives ds).returns := by
  change ((since Event.resets (ds ++ [d])).filterMap Directive.returned?).getLast? = _
  rw [since_concat, eventAfter]
  split
  · rfl
  · exact getLast?_filterMap_concat Directive.returned? _ d

/-- The prose that waits after one more directive. -/
theorem description_concat :
    (ofDirectives (ds ++ [d])).description =
      if (eventAfter ds d).resets || (eventAfter ds d).takesProse then []
      else (ofDirectives ds).description ++ d.prose?.toList := by
  change (since (fun e => e.resets || e.takesProse) (ds ++ [d])).filterMap Directive.prose? = _
  rw [since_concat, eventAfter]
  split
  · rfl
  · exact filterMap_concat Directive.prose? _ d

/-- A class is open as soon as one was started. -/
theorem isSome_openClass_ofDirectives : (ofDirectives ds).openClass.isSome = startsClass ds := by
  change (ds.filterMap Directive.startedClass?).getLast?.isSome = _
  rw [Bool.eq_iff_iff, List.getLast?_isSome, ne_eq, List.filterMap_eq_nil_iff, startsClass]
  simp [Option.isSome_iff_ne_none]

/-- One more directive leads from the context of a history to that of the longer history. -/
theorem ofDirectives_concat : ofDirectives (ds ++ [d]) = (ofDirectives ds).next d := by
  have hopen := isSome_openClass_ofDirectives ds
  have hext : ∀ b c : Context, b.openClass = c.openClass → b.params = c.params → b.returns = c.returns →
      b.description = c.description → b = c := by
    rintro ⟨⟩ ⟨⟩ rfl rfl rfl rfl
    rfl
  -- Fields and assigned tables do different things inside a class and outside, the other directives do not.
  cases hstarts : startsClass ds
  all_goals
    rw [hstarts] at hopen
    apply hext
    · rw [openClass_concat]
      cases d <;> simp [next, Directive.startedClass?, cleared, hopen]
    · rw [params_concat]
      cases d <;> simp [next, Directive.param?, cleared, eventAfter, Event.resets, hopen, hstarts]
    · rw [returns_concat]
      cases d <;> simp [next, Directive.returned?, cleared, eventAfter, Event.resets, hopen, hstarts]
    · rw [description_concat]
      cases d <;> simp [next, Directive.prose?, cleared, eventAfter, Event.resets, Event.takesProse, hopen, hstarts]

end Context

/-! ## Annotations that are discarded -/

/-- Whether a directive only waits for a declaration: a parameter, returns or prose. -/
def Directive.waits : Directive → Bool
  | .param _ | .returns _ | .description _ => true
  | _ => false

namespace Progress

/-- The same model with nothing waiting. -/
def cleared (p : Progress) : Progress := ⟨p.context.cleared, p.model⟩

/-- Reading lines goes on where reading the lines before them ended. -/
theorem readLines_append (p : Progress) (lines more : List Text) :
    p.readLines (lines ++ more) = (p.readLines lines).readLines more := List.foldl_append

/-- The first of several lines is read by itself. -/
theorem readLines_cons (p : Progress) (line : Text) (lines : List Text) :
    p.readLines (line :: lines) = (p.step (.ofLine line)).readLines lines := rfl

/-- The entries that lines add to the model when they are read from here on. -/
def entries (p : Progress) : List Text → List Entry
  | [] => []
  | line :: lines => (p.context.entry? (.ofLine line)).toList ++ (p.step (.ofLine line)).entries lines

/-- Reading lines adds their entries to the model. -/
theorem model_readLines (p : Progress) (lines : List Text) :
    (p.readLines lines).model = (p.entries lines).foldl Model.add p.model := by
  induction lines generalizing p with
  | nil => rfl
  | cons line lines ih =>
    rw [readLines_cons, ih, entries, List.foldl_append, step]
    cases p.context.entry? (.ofLine line) <;> rfl

/-- Other code discards what waits. -/
theorem step_otherCode (p : Progress) : p.step .otherCode = p.cleared := rfl

/-- A directive that waits makes no difference once it is discarded. -/
theorem cleared_step_of_waits {d : Directive} (hd : d.waits = true) (p : Progress) :
    (p.step d).cleared = p.cleared := by
  cases d with
  | param note => rfl
  | returns type => rfl
  | description text => rfl
  | _ => cases hd

/-- Lines that wait make no difference once they are discarded. -/
theorem cleared_readLines_of_waits {block : List Text}
    (hblock : ∀ line ∈ block, (Directive.ofLine line).waits = true) (p : Progress) :
    (p.readLines block).cleared = p.cleared := by
  induction block generalizing p with
  | nil => rfl
  | cons line block ih =>
    have hline := hblock line List.mem_cons_self
    have hrest := fun l hl => hblock l (List.mem_cons_of_mem line hl)
    calc (p.readLines (line :: block)).cleared = ((p.step (.ofLine line)).readLines block).cleared := rfl
      _ = (p.step (.ofLine line)).cleared := ih hrest _
      _ = p.cleared := cleared_step_of_waits hline p

end Progress

/-- The context after lines is what their directives say, in closed form. -/
theorem context_eq_ofDirectives (lines : List Text) :
    (Progress.start.readLines lines).context = .ofDirectives (lines.map .ofLine) := by
  induction lines using List.reverseRecOn with
  | nil => rfl
  | append_singleton lines line ih =>
    rw [Progress.readLines_append, List.map_append, List.map_singleton, Context.ofDirectives_concat, ← ih]
    rfl

/-- Annotations in front of other code make no difference to the model. -/
theorem ofLines_discard {block : List Text} {code : Text}
    (hblock : ∀ line ∈ block, (Directive.ofLine line).waits = true) (hcode : Directive.ofLine code = .otherCode)
    (before after : List Text) :
    Model.ofLines (before ++ block ++ code :: after) = Model.ofLines (before ++ code :: after) := by
  have hread : ∀ p : Progress, p.readLines (code :: after) = p.cleared.readLines after := fun p => by
    rw [Progress.readLines_cons, hcode, Progress.step_otherCode]
  have hcleared := Progress.cleared_readLines_of_waits hblock (Progress.start.readLines before)
  rw [Model.ofLines, Model.ofLines, Progress.readLines_append, Progress.readLines_append, Progress.readLines_append,
    hread, hread, hcleared]

/-- **What waits, in closed form.** After any lines the open class is the last one that was started, the parameters and
the returns are those since the last reset, and the prose is what was written since the last reset or the last field of a
class. So annotations in front of other code can be left out. -/
theorem context_readLines :
    (∀ lines : List Text,
        (Progress.start.readLines lines).context = .ofDirectives (lines.map .ofLine)) ∧
      ∀ (before block : List Text) (code : Text) (after : List Text),
        (∀ line ∈ block, (Directive.ofLine line).waits = true) → Directive.ofLine code = .otherCode →
          Model.ofLines (before ++ block ++ code :: after) = Model.ofLines (before ++ code :: after) :=
  ⟨context_eq_ofDirectives, fun before _ _ after hblock hcode => ofLines_discard hblock hcode before after⟩

/-- A local variable between annotations and a declaration of the same parameter. -/
theorem context_readLines_of_local :
    (Progress.start.readLines
        ["---@class A", "--- Prose", "---@field n T", "---@return T", "--- More", "---@param x T"]).context =
      ⟨some "A", [⟨"x", "T", false⟩], some "T", ["More"]⟩ ∧
    Model.ofLines
        ["---@class A", "---@param x T", "---@return T", "--- More", "local x = 1", "function A.f(x) end"] =
      Model.ofLines ["---@class A", "local x = 1", "function A.f(x) end"] :=
  ⟨(context_readLines.1 _).trans (by decide),
    context_readLines.2 ["---@class A"] ["---@param x T", "---@return T", "--- More"] "local x = 1"
      ["function A.f(x) end"] (by decide) (by decide)⟩

end LuaTypings.Source
