import Mathlib.Data.List.Induction
import Mathlib.Data.List.Nodup
import LuaTypings.Model.Build

/-!
# Classes by their entries

A class of a model is what the entries about it make of an empty class, one after another; entries about other classes
make no difference to it. `class?_ofEntries` says so for the model of any sequence of entries. Since every class occurs
once (`nodup_classNames_ofEntries`), it holds of all classes in the model (`eq_changeAll_of_mem`).
-/

namespace LuaTypings

namespace Entry

/-- The class that an entry is about, if it is about one. -/
def className? : Entry → Option Text
  | .classStart name | .indexSignature name _ | .method name _ | .dataField name _ => some name
  | .alias _ _ | .mainExport _ => none

/-- What an entry makes of the class that it is about. -/
def change : Entry → ClassModel → ClassModel
  | .indexSignature _ signature, c => c.putIndexSignature signature
  | .method _ m, c => c.putMethod m
  | .dataField _ f, c => c.putDataField f
  | .classStart _, c | .alias _ _, c | .mainExport _, c => c

/-- A class keeps its name. -/
theorem change_name (e : Entry) (c : ClassModel) : (e.change c).name = c.name := by
  cases e with
  | dataField className f =>
    rw [change, ClassModel.putDataField]
    split <;> rfl
  | _ => rfl

end Entry

namespace Model

/-- The entries about a class. -/
def entriesOf (name : Text) (entries : List Entry) : List Entry := entries.filter (·.className? = some name)

/-- What entries make of a class. -/
def changeAll (entries : List Entry) (c : ClassModel) : ClassModel := entries.foldl (fun c e => e.change c) c

/-! ## One entry -/

/-- A changed class is found where it was or at the end, and every other class as before. -/
theorem find?_updateClass {change : ClassModel → ClassModel} (hchange : ∀ c, (change c).name = c.name)
    (name other : Text) (classes : List ClassModel) :
    (updateClass name change classes).find? (·.name = other) =
      if name = other then some (change ((classes.find? (·.name = other)).getD (.empty name)))
      else classes.find? (·.name = other) := by
  induction classes with
  | nil =>
    by_cases h : name = other
    · subst h
      simp [updateClass, hchange, ClassModel.empty]
    · simp [updateClass, hchange, ClassModel.empty, h]
  | cons c classes ih =>
    rw [updateClass]
    by_cases hc : c.name = name
    · by_cases h : name = other
      · simp [hc, hchange, h]
      · simp [hc, hchange, h]
    · -- A class in front of the changed one keeps its place in the search.
      rw [if_neg hc]
      by_cases hother : c.name = other
      · have h : name ≠ other := fun h => hc (hother.trans h.symm)
        simp [hother, h]
      · rw [List.find?_cons_of_neg (by simpa using hother), List.find?_cons_of_neg (by simpa using hother), ih]

/-- The names of the classes after a change of one of them. -/
theorem map_name_updateClass {change : ClassModel → ClassModel} (hchange : ∀ c, (change c).name = c.name)
    (name : Text) (classes : List ClassModel) :
    (updateClass name change classes).map (·.name) =
      if name ∈ classes.map (·.name) then classes.map (·.name) else classes.map (·.name) ++ [name] := by
  induction classes with
  | nil =>
    have hempty : (change (.empty name)).name = name := hchange _
    simp [updateClass, hempty]
  | cons c classes ih =>
    rw [updateClass]
    by_cases hc : c.name = name
    · simp [hc, hchange]
    · rw [if_neg hc, List.map_cons, ih]
      have hne : name ≠ c.name := Ne.symm hc
      by_cases hmem : name ∈ classes.map (·.name)
      · simp [hmem]
      · simp [hmem, hne]

/-- An entry about a class changes that class; any other entry leaves the classes as they are. -/
theorem classes_add (m : Model) (e : Entry) :
    (m.add e).classes =
      match e.className? with
      | some name => updateClass name e.change m.classes
      | none => m.classes := by
  cases e <;> rfl

/-- The class of a name after one more entry. -/
theorem class?_add (m : Model) (e : Entry) (name : Text) :
    (m.add e).class? name =
      if e.className? = some name then some (e.change ((m.class? name).getD (.empty name)))
      else m.class? name := by
  rw [class?, classes_add]
  cases hclass : e.className? with
  | none => simp [class?]
  | some className =>
    dsimp only
    rw [find?_updateClass e.change_name, class?]
    by_cases h : className = name
    · simp [h]
    · simp [h]

/-- The names of the classes after one more entry. -/
theorem classNames_add (m : Model) (e : Entry) :
    (m.add e).classNames =
      match e.className? with
      | some name => if name ∈ m.classNames then m.classNames else m.classNames ++ [name]
      | none => m.classNames := by
  rw [classNames, classes_add]
  cases e.className? with
  | none => rfl
  | some name =>
    dsimp only
    rw [map_name_updateClass e.change_name]
    rfl

/-! ## All entries -/

/-- One more entry is added to the model of those before it. -/
theorem ofEntries_concat (entries : List Entry) (e : Entry) :
    ofEntries (entries ++ [e]) = (ofEntries entries).add e := by
  rw [ofEntries, List.foldl_append]
  rfl

/-- One more change is made to what those before it made. -/
theorem changeAll_concat (entries : List Entry) (e : Entry) (c : ClassModel) :
    changeAll (entries ++ [e]) c = e.change (changeAll entries c) := by
  rw [changeAll, List.foldl_append]
  rfl

/-- Changes keep the name of a class. -/
theorem changeAll_name (entries : List Entry) (c : ClassModel) : (changeAll entries c).name = c.name := by
  induction entries using List.reverseRecOn with
  | nil => rfl
  | append_singleton entries e ih => rw [changeAll_concat, Entry.change_name, ih]

/-- The entries about a class after one more entry. -/
theorem entriesOf_concat (name : Text) (entries : List Entry) (e : Entry) :
    entriesOf name (entries ++ [e]) =
      if e.className? = some name then entriesOf name entries ++ [e] else entriesOf name entries := by
  rw [entriesOf, List.filter_append, List.filter_singleton]
  by_cases h : e.className? = some name
  · simp [h, entriesOf]
  · simp [h, entriesOf]

/-- A class is what the entries about it make of an empty class; without such an entry there is none. -/
theorem class?_ofEntries (entries : List Entry) (name : Text) :
    (ofEntries entries).class? name =
      if entriesOf name entries = [] then none else some (changeAll (entriesOf name entries) (.empty name)) := by
  induction entries using List.reverseRecOn with
  | nil => rfl
  | append_singleton entries e ih =>
    rw [ofEntries_concat, class?_add, ih, entriesOf_concat]
    by_cases h : e.className? = some name
    · -- The entry is about the class, which it may be the first to mention.
      have hsome : entriesOf name entries ++ [e] ≠ [] :=
        List.append_ne_nil_of_right_ne_nil _ (List.cons_ne_nil e [])
      rw [if_pos h, if_pos h, changeAll_concat]
      by_cases hnone : entriesOf name entries = []
      · rw [if_pos hnone, if_neg hsome, hnone]
        rfl
      · rw [if_neg hnone, if_neg hsome]
        rfl
    · rw [if_neg h, if_neg h]

/-- The classes of a model have different names. -/
theorem nodup_classNames_ofEntries (entries : List Entry) : (ofEntries entries).classNames.Nodup := by
  induction entries using List.reverseRecOn with
  | nil => exact List.nodup_nil
  | append_singleton entries e ih =>
    rw [ofEntries_concat, classNames_add]
    cases e.className? with
    | none => exact ih
    | some name =>
      dsimp only
      split
      · exact ih
      · rename_i hnew
        rw [← List.concat_eq_append]
        exact ih.concat hnew

/-- The classes of a model are the ones its entries are about. -/
theorem mem_classNames_ofEntries {entries : List Entry} {name : Text} :
    name ∈ (ofEntries entries).classNames ↔ ∃ e ∈ entries, e.className? = some name := by
  induction entries using List.reverseRecOn generalizing name with
  | nil => simp [ofEntries, empty, classNames]
  | append_singleton entries e ih =>
    rw [ofEntries_concat, classNames_add]
    cases hclass : e.className? with
    | none => simp [ih, hclass]
    | some className =>
      dsimp only
      split
      · rename_i hknown
        rw [ih] at hknown ⊢
        simp only [List.mem_append, List.mem_singleton, or_and_right, exists_or, exists_eq_left, hclass,
          Option.some.injEq]
        constructor
        · exact .inl
        · rintro (h | rfl)
          · exact h
          · exact hknown
      · simp only [List.mem_append, List.mem_singleton, ih, or_and_right, exists_or, exists_eq_left, hclass,
          Option.some.injEq, eq_comm (a := name)]

/-- A class in a model is what the entries about it make of an empty class. -/
theorem eq_changeAll_of_mem {entries : List Entry} {c : ClassModel} (hc : c ∈ (ofEntries entries).classes) :
    c = changeAll (entriesOf c.name entries) (.empty c.name) := by
  have hfound : (ofEntries entries).class? c.name = some c := by
    have hnodup := nodup_classNames_ofEntries entries
    rw [classNames, List.nodup_iff_pairwise_ne, List.pairwise_map] at hnodup
    rw [class?, List.find?_eq_some_iff_append]
    -- No class in front of `c` has its name, so the search finds `c` and no other.
    obtain ⟨front, rest, hsplit⟩ := List.append_of_mem hc
    refine ⟨by simp, front, rest, hsplit, fun d hd => ?_⟩
    rw [hsplit, List.pairwise_append] at hnodup
    simpa using hnodup.2.2 d hd c List.mem_cons_self
  rw [class?_ofEntries] at hfound
  split at hfound
  · contradiction
  · exact (Option.some.inj hfound).symm

end Model

end LuaTypings
