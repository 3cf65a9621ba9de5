import LuaTypings.Proofs.Model.Descriptions
import LuaTypings.Proofs.Source.Waiting

/-!
# Fields and the prose in front of them

Lines of prose wait for the member that they describe. Within a class the wait ends with the line of a named field, with
a function declaration and with other code (`Directive.endsProse`). A named field therefore keeps the prose in front of
it from all that follows: what is read behind its line is the same whatever prose was waiting. The line that declares
what a class holds under every key of a type ends no wait: the prose stays where it is and goes to the next member with
a description (`entries_behind_field`).
-/

namespace LuaTypings.Source

namespace Directive

/-- Whether a directive within a class takes or discards the prose that waits. -/
def endsProse : Directive → Bool
  | .field _ | .function _ | .otherCode => true
  | _ => false

/-- Whether a directive within a class declares a member with a description. -/
def isDescribed : Directive → Bool
  | .field _ | .function _ => true
  | _ => false

/-- A directive that ends no wait declares no member with a description. -/
theorem isDescribed_of_endsProse {d : Directive} (h : d.endsProse = false) : d.isDescribed = false := by
  cases d with
  | field note => cases h
  | function declaration => cases h
  | _ => rfl

end Directive

/-! ## One directive -/

namespace Context

variable {c : Context} {d : Directive}

/-- The context with other prose waiting. -/
def withProse (c : Context) (prose : List Text) : Context := { c with description := prose }

/-- A class stays open. -/
theorem isSome_openClass_next (hopen : c.openClass.isSome = true) (d : Directive) :
    (c.next d).openClass.isSome = true := by
  rw [openClass_next, Option.isSome_or, hopen, Bool.or_true]

/-- Nothing is left of the prose behind a directive that ends the wait. -/
theorem next_withProse_of_endsProse (hopen : c.openClass.isSome = true) (hd : d.endsProse = true) (prose : List Text) :
    (c.withProse prose).next d = c.next d := by
  cases d with
  | field note =>
    have hopen' : (c.withProse prose).openClass.isSome = true := hopen
    rw [next, next, if_pos hopen, if_pos hopen']
    rfl
  | function declaration => rfl
  | otherCode => rfl
  | _ => cases hd

/-- The prose goes on waiting behind any other directive, together with the prose of that one. -/
theorem next_withProse (hopen : c.openClass.isSome = true) (hd : d.endsProse = false) (prose : List Text) :
    (c.withProse prose).next d = (c.next d).withProse (prose ++ d.prose?.toList) := by
  cases d with
  | description text => rfl
  | nested outer inner =>
    have hopen' : (c.withProse prose).openClass.isSome = true := hopen
    show _ = Context.withProse _ (prose ++ [])
    rw [next, next, if_pos hopen, if_pos hopen', List.append_nil]
  | field note => cases hd
  | function declaration => cases hd
  | otherCode => cases hd
  | _ =>
    show _ = Context.withProse _ (prose ++ [])
    rw [List.append_nil]
    rfl

/-- The prose makes no difference to what has no description. -/
theorem entry?_withProse (hd : d.isDescribed = false) (prose : List Text) :
    Context.entry? (c.withProse prose) d = c.entry? d := by
  cases d with
  | field note => cases hd
  | function declaration => cases hd
  | _ => rfl

/-- A member with a description gets the prose that waits. -/
theorem exists_entry_of_prose? (hopen : c.openClass.isSome = true) (hd : d.isDescribed = true) {text : Text}
    (htext : c.prose? = some text) : ∃ e, c.entry? d = some e ∧ e.description? = some text := by
  cases d with
  | field note =>
    obtain ⟨className, hname⟩ := Option.isSome_iff_exists.mp hopen
    refine ⟨c.fieldEntry className note, by rw [Context.entry?, hname, Option.map_some], ?_⟩
    rw [fieldEntry, htext]
    split <;> rfl
  | function declaration => exact ⟨_, rfl, htext⟩
  | _ => cases hd

/-- Prose that starts with a character is a text that starts with it. -/
theorem prose?_withProse (c : Context) (x : Char) (more : List Text) :
    ∃ rest, (c.withProse ([x] :: more)).prose? = some (x :: rest) := by
  obtain ⟨rest, hrest⟩ : ∃ rest, Text.join " " ([x] :: more) = x :: rest := by
    cases more with
    | nil => exact ⟨[], Text.join_singleton _ _⟩
    | cons t more => exact ⟨_, by rw [Text.join_cons_cons]; rfl⟩
  have hjoined : Text.join " " (c.withProse ([x] :: more)).description = x :: rest := hrest
  exact ⟨rest, by rw [prose?, hjoined]⟩

/-- The description of a member starts as the prose that waits for it. -/
theorem exists_entry_withProse (hopen : c.openClass.isSome = true) (hd : d.isDescribed = true) (x : Char)
    (more : List Text) :
    ∃ e rest, Context.entry? (c.withProse ([x] :: more)) d = some e ∧ e.description? = some (x :: rest) := by
  have hopen' : (c.withProse ([x] :: more)).openClass.isSome = true := hopen
  obtain ⟨rest, hrest⟩ := prose?_withProse c x more
  obtain ⟨e, he, hdescription⟩ := exists_entry_of_prose? hopen' hd hrest
  exact ⟨e, rest, he, hdescription⟩

end Context

/-! ## What is read behind a line -/

namespace Progress

variable {p q : Progress}

/-- The progress with other prose waiting. -/
def withProse (p : Progress) (prose : List Text) : Progress := ⟨p.context.withProse prose, p.model⟩

/-- The entries of lines depend on the context only. -/
theorem entries_congr (h : p.context = q.context) (lines : List Text) : p.entries lines = q.entries lines := by
  induction lines generalizing p q with
  | nil => rfl
  | cons line lines ih =>
    have hnext : (p.step (.ofLine line)).context = (q.step (.ofLine line)).context := by rw [step, step, h]
    rw [entries, entries, h, ih hnext]

/-- The first directive of some lines that takes or discards the prose in front of them. -/
def firstEnd (lines : List Text) : Option Directive := (lines.map Directive.ofLine).find? (·.endsProse)

/-- A directive that ends no wait leaves the prose waiting, together with its own. -/
theorem step_withProse (hopen : p.context.openClass.isSome = true) {d : Directive} (hd : d.endsProse = false)
    (prose : List Text) : (p.withProse prose).step d = (p.step d).withProse (prose ++ d.prose?.toList) := by
  have hentry : (p.withProse prose).context.entry? d = p.context.entry? d :=
    Context.entry?_withProse (Directive.isDescribed_of_endsProse hd) prose
  have hnext : (p.withProse prose).context.next d = (p.context.next d).withProse (prose ++ d.prose?.toList) :=
    Context.next_withProse hopen hd prose
  rw [step, step, hentry, hnext]
  rfl

/-- Nothing behind a directive that ends the wait depends on the prose in front of it. -/
theorem entries_step_of_endsProse (hopen : p.context.openClass.isSome = true) {d : Directive}
    (hd : d.endsProse = true) (prose : List Text) (lines : List Text) :
    ((p.withProse prose).step d).entries lines = (p.step d).entries lines :=
  entries_congr (Context.next_withProse_of_endsProse hopen hd prose) lines

/-- Behind a line that ends no wait, lines are read with the prose of the line added to what waits. -/
theorem entries_withProse_cons (hopen : p.context.openClass.isSome = true) {line : Text}
    (hline : (Directive.ofLine line).endsProse = false) (prose lines : List Text) :
    (p.withProse prose).entries (line :: lines) =
      (p.context.entry? (.ofLine line)).toList ++
        ((p.step (.ofLine line)).withProse (prose ++ (Directive.ofLine line).prose?.toList)).entries lines := by
  have hentry : (p.withProse prose).context.entry? (.ofLine line) = p.context.entry? (.ofLine line) :=
    Context.entry?_withProse (Directive.isDescribed_of_endsProse hline) prose
  rw [entries, hentry, step_withProse hopen hline]

/-- Prose that no member takes makes no difference. -/
theorem entries_withProse (hopen : p.context.openClass.isSome = true) {lines : List Text}
    (hfirst : ∀ d ∈ firstEnd lines, d.isDescribed = false) (prose : List Text) :
    (p.withProse prose).entries lines = p.entries lines := by
  induction lines generalizing p prose with
  | nil => rfl
  | cons line lines ih =>
    rw [firstEnd, List.map_cons] at hfirst
    cases hline : (Directive.ofLine line).endsProse with
    | true =>
      rw [List.find?_cons_of_pos hline] at hfirst
      have hentry : (p.withProse prose).context.entry? (.ofLine line) = p.context.entry? (.ofLine line) :=
        Context.entry?_withProse (hfirst _ rfl) prose
      rw [entries, entries, hentry, entries_step_of_endsProse hopen hline]
    | false =>
      rw [List.find?_cons_of_neg (by simp [hline])] at hfirst
      rw [entries_withProse_cons hopen hline, ih (Context.isSome_openClass_next hopen _) hfirst, entries]

/-- Prose that a member takes makes a difference. -/
theorem entries_withProse_ne (hopen : p.context.openClass.isSome = true) {lines : List Text} {d : Directive}
    (hfirst : firstEnd lines = some d) (hd : d.isDescribed = true) {x y : Char} (hne : x ≠ y) (more : List Text) :
    (p.withProse ([x] :: more)).entries lines ≠ (p.withProse ([y] :: more)).entries lines := by
  induction lines generalizing p more with
  | nil => cases hfirst
  | cons line lines ih =>
    rw [firstEnd, List.map_cons] at hfirst
    cases hline : (Directive.ofLine line).endsProse with
    | true =>
      rw [List.find?_cons_of_pos hline] at hfirst
      obtain rfl := Option.some.inj hfirst
      -- The two descriptions start with different characters.
      obtain ⟨e, r, he, hdescription⟩ := Context.exists_entry_withProse hopen hd x more
      obtain ⟨e', s, he', hdescription'⟩ := Context.exists_entry_withProse hopen hd y more
      have hentry : (p.withProse ([x] :: more)).context.entry? (.ofLine line) = some e := he
      have hentry' : (p.withProse ([y] :: more)).context.entry? (.ofLine line) = some e' := he'
      rw [entries, entries, hentry, hentry']
      intro heq
      obtain rfl : e = e' := (List.cons.inj heq).1
      exact hne (List.cons.inj (Option.some.inj (hdescription.symm.trans hdescription'))).1
    | false =>
      rw [List.find?_cons_of_neg (by simp [hline])] at hfirst
      rw [entries_withProse_cons hopen hline, entries_withProse_cons hopen hline, List.cons_append, List.cons_append]
      intro heq
      exact ih (Context.isSome_openClass_next hopen _) hfirst _ (List.append_cancel_left heq)

/-- What waits behind lines that end no wait is what was waiting in front of them and their own prose. -/
theorem description_readLines (hopen : p.context.openClass.isSome = true) {lines : List Text}
    (hlines : ∀ line ∈ lines, (Directive.ofLine line).endsProse = false) :
    (p.readLines lines).context.description =
      p.context.description ++ (lines.map Directive.ofLine).filterMap Directive.prose? := by
  induction lines generalizing p with
  | nil => exact (List.append_nil _).symm
  | cons line lines ih =>
    obtain ⟨hline, hrest⟩ := List.forall_mem_cons.mp hlines
    have hnext : (p.context.next (.ofLine line)).description =
        p.context.description ++ (Directive.ofLine line).prose?.toList :=
      congrArg Context.description (Context.next_withProse hopen hline p.context.description)
    have hread : (p.step (.ofLine line)).context.description =
        p.context.description ++ (Directive.ofLine line).prose?.toList := hnext
    rw [readLines_cons, ih (Context.isSome_openClass_next hopen _) hrest, hread, List.append_assoc, List.map_cons,
      List.filterMap_cons]
    cases (Directive.ofLine line).prose? <;> rfl

/-- **What becomes of the prose in front of a field.** Let a class be open. What is read behind the line of a named
field does not depend on the prose in front of it. The line of an index field leaves the context as it is: the prose
waits on and is joined by the prose behind the line, and the entries behind the line do not depend on it exactly when
other code comes before every line of a named field and every function declaration, or neither comes at all. -/
theorem entries_behind_field {line : Text} (hopen : p.context.openClass.isSome = true) :
    (∀ note, Directive.ofLine line = .field note → ∀ prose lines : List Text,
        ((p.withProse prose).step (.ofLine line)).entries lines = (p.step (.ofLine line)).entries lines) ∧
      ∀ key value, Directive.ofLine line = .indexField key value →
        (p.step (.ofLine line)).context = p.context ∧
          (∀ lines : List Text, (∀ l ∈ lines, (Directive.ofLine l).endsProse = false) →
            ((p.step (.ofLine line)).readLines lines).context.description =
              p.context.description ++ (lines.map Directive.ofLine).filterMap Directive.prose?) ∧
          ∀ lines : List Text,
            (∀ prose : List Text,
                ((p.withProse prose).step (.ofLine line)).entries lines = (p.step (.ofLine line)).entries lines) ↔
              ∀ d ∈ firstEnd lines, d.isDescribed = false := by
  refine ⟨fun note hline prose lines => ?_, fun key value hline => ?_⟩
  · rw [hline]
    exact entries_step_of_endsProse hopen rfl prose lines
  · have hstep : (p.step (.ofLine line)).context = p.context := by rw [hline]; rfl
    have hsame : ∀ prose lines : List Text,
        ((p.withProse prose).step (.ofLine line)).entries lines = (p.withProse prose).entries lines :=
      fun prose lines => entries_congr (by rw [hline]; rfl) lines
    have hkept : ∀ lines : List Text, (p.step (.ofLine line)).entries lines = p.entries lines :=
      fun lines => entries_congr hstep lines
    refine ⟨hstep, fun lines hlines => ?_, fun lines => ?_⟩
    · rw [description_readLines (hstep ▸ hopen) hlines, hstep]
    · simp only [hsame, hkept]
      constructor
      · intro hindependent d hfirst
        rw [← Bool.not_eq_true]
        intro hd
        have hne : 'a' ≠ 'b' := by decide
        exact entries_withProse_ne hopen hfirst hd hne [] ((hindependent ["a"]).trans (hindependent ["b"]).symm)
      · exact fun hfirst prose => entries_withProse hopen hfirst prose

/-- A class with prose in front of its next line. -/
def describedClass : Progress := start.readLines ["---@class C", "--- Items by index"]

/-- Prose in front of an index field stays, with what is added to it, and describes the next field; behind any other field it
has no effect. -/
theorem entries_behind_field_of_index :
    describedClass.context.openClass.isSome = true ∧
      Directive.ofLine "---@field [integer] string" = .indexField "integer" "string" ∧
      ((describedClass.step (.ofLine "---@field [integer] string")).readLines
          ["---@alias Size number", "--- in order"]).context.description =
        ["Items by index".toList, "in order".toList] ∧
      (¬ ∀ prose, ((describedClass.withProse prose).step (.ofLine "---@field [integer] string")).entries
          ["---@alias Size number", "---@field size Size"] =
        (describedClass.step (.ofLine "---@field [integer] string")).entries
          ["---@alias Size number", "---@field size Size"]) ∧
      ∀ prose, ((describedClass.withProse prose).step (.ofLine "---@field first string")).entries
          ["---@field size number"] = [.dataField "C" ⟨"size", "number", none, false⟩] := by
  have hopen : describedClass.context.openClass.isSome = true := by decide +kernel
  have hindex : Directive.ofLine "---@field [integer] string" = .indexField "integer" "string" := by decide +kernel
  obtain ⟨-, hwaits, hindependent⟩ := (entries_behind_field hopen).2 _ _ hindex
  refine ⟨hopen, hindex, (hwaits _ (by decide +kernel)).trans (by decide +kernel), fun hsame => ?_, fun prose => ?_⟩
  · have hfirst := (hindependent _).mp hsame
    revert hfirst
    decide +kernel
  · have hnamed : Directive.ofLine "---@field first string" = .field ⟨"first", "string", false, none⟩ := by
      decide +kernel
    exact ((entries_behind_field hopen).1 _ hnamed prose _).trans (by decide +kernel)

/-- The prose in front of an index field is the description of the field behind it. -/
theorem entries_behind_field_differently :
    ¬ ∀ (before : List Text) (line : Text), (start.readLines before).context.openClass.isSome = true →
      ((∃ note, Directive.ofLine line = .field note) ∨ ∃ key value, Directive.ofLine line = .indexField key value) →
      ∀ prose lines : List Text,
        (((start.readLines before).withProse prose).step (.ofLine line)).entries lines =
          ((start.readLines before).step (.ofLine line)).entries lines := by
  intro hall
  have hsame := hall ["---@class C", "--- Items by index"] "---@field [integer] string" (by decide +kernel)
    (.inr ⟨"integer", "string", by decide +kernel⟩) [] ["---@field size number"]
  revert hsame
  decide +kernel

end Progress

end LuaTypings.Source
