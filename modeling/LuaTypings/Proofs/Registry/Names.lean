import Mathlib.Data.List.Nodup
import LuaTypings.Registry.Basic

/-!
# Names in a registry

Modules make a registry unless a name comes up again; then the first one that does so is reported
(`ofModules_eq_error_iff`). As the names in a registry are different, it has one answer for each of them and no answer for
any other (`get_eq_ok_iff`, `get_eq_error_iff`).
-/

namespace LuaTypings.Registry

variable {modules : List ModuleSpec} {seen : List Text} {name : Text} {r : Registry} {m : ModuleSpec}
  {error : RegistryError}

/-! ## Repeated names -/

/-- The first repeated name is the name of a module behind others that have different names, none of them seen before, when
it was seen before or is among them. -/
theorem firstRepeated?_eq_some_iff :
    firstRepeated? seen modules = some name ↔
      ∃ front m back, modules = front ++ m :: back ∧ m.name = name ∧ (front.map (·.name)).Nodup ∧
        (∀ other ∈ front, other.name ∉ seen) ∧ (name ∈ seen ∨ name ∈ front.map (·.name)) := by
  induction modules generalizing seen with
  | nil => simp [firstRepeated?]
  | cons first rest ih =>
    rw [firstRepeated?]
    split
    · rename_i hseen
      constructor
      · intro h
        obtain rfl := Option.some.inj h
        exact ⟨[], first, rest, rfl, rfl, List.nodup_nil, by simp, .inl hseen⟩
      · rintro ⟨front, m, back, hsplit, rfl, -, hfresh, -⟩
        cases front with
        | nil => rw [(List.cons.inj hsplit).1]
        | cons other front =>
          obtain ⟨rfl, -⟩ := List.cons.inj hsplit
          exact absurd hseen (hfresh first List.mem_cons_self)
    · rename_i hfirst
      rw [ih]
      constructor
      · rintro ⟨front, m, back, rfl, rfl, hnodup, hfresh, hrepeated⟩
        refine ⟨first :: front, m, back, rfl, rfl, ?_, ?_, ?_⟩
        · rw [List.map_cons, List.nodup_cons]
          refine ⟨fun hmem => ?_, hnodup⟩
          obtain ⟨other, hother, heq⟩ := List.mem_map.mp hmem
          exact hfresh other hother (heq ▸ List.mem_cons_self)
        · exact List.forall_mem_cons.mpr
            ⟨hfirst, fun other hother hmem => hfresh other hother (List.mem_cons_of_mem _ hmem)⟩
        · simpa [or_assoc, or_left_comm] using hrepeated
      · rintro ⟨front, m, back, hsplit, rfl, hnodup, hfresh, hrepeated⟩
        cases front with
        | nil =>
          obtain ⟨rfl, -⟩ := List.cons.inj hsplit
          simp [hfirst] at hrepeated
        | cons other front =>
          obtain ⟨rfl, rfl⟩ := List.cons.inj hsplit
          obtain ⟨hnew, hnodup⟩ := List.nodup_cons.mp hnodup
          refine ⟨front, m, back, rfl, rfl, hnodup, fun other hother hmem => ?_, ?_⟩
          · obtain heq | hmem := List.mem_cons.mp hmem
            · exact hnew (List.mem_map.mpr ⟨other, hother, heq⟩)
            · exact hfresh other (List.mem_cons_of_mem _ hother) hmem
          · simpa [or_assoc, or_left_comm] using hrepeated

/-- Modules make no registry when one of them has the name of one before it; the first such name is reported. -/
theorem ofModules_eq_error_iff :
    ofModules modules = .error error ↔
      ∃ front m back, modules = front ++ m :: back ∧ (front.map (·.name)).Nodup ∧ m.name ∈ front.map (·.name) ∧
        error = .duplicate m.name := by
  have hrepeated : ofModules modules = .error error ↔
      ∃ name, firstRepeated? [] modules = some name ∧ error = .duplicate name := by
    rw [ofModules]
    split
    · rename_i name hname
      simp [hname, eq_comm]
    · rename_i hnone
      simp [hnone]
  rw [hrepeated]
  constructor
  · rintro ⟨name, hname, rfl⟩
    obtain ⟨front, m, back, hsplit, rfl, hnodup, -, hmem⟩ := firstRepeated?_eq_some_iff.mp hname
    exact ⟨front, m, back, hsplit, hnodup, by simpa using hmem, rfl⟩
  · rintro ⟨front, m, back, hsplit, hnodup, hmem, rfl⟩
    exact ⟨m.name, firstRepeated?_eq_some_iff.mpr ⟨front, m, back, hsplit, rfl, hnodup, by simp, .inr hmem⟩, rfl⟩

/-- The registry of modules has them all, in order. -/
theorem modules_of_ofModules (h : ofModules modules = .ok r) : r.modules = modules := by
  rw [ofModules] at h
  split at h
  · cases h
  · rw [← Except.ok.inj h]

/-- Modules make the registry that has them. -/
theorem ofModules_eq_ok_iff : ofModules modules = .ok r ↔ r.modules = modules := by
  refine ⟨modules_of_ofModules, ?_⟩
  rintro rfl
  cases h : ofModules r.modules with
  | error error =>
    obtain ⟨front, m, back, hsplit, -, hmem, -⟩ := ofModules_eq_error_iff.mp h
    have hnodup := r.names_nodup
    rw [hsplit, List.map_append, List.map_cons, List.nodup_append] at hnodup
    exact absurd rfl (hnodup.2.2 m.name hmem m.name List.mem_cons_self)
  | ok other =>
    obtain ⟨modules, _⟩ := r
    obtain ⟨others, _⟩ := other
    obtain rfl : others = modules := modules_of_ofModules h
    rfl

/-! ## Lookup -/

/-- A registry contains the names of its modules. -/
theorem contains_iff : r.contains name = true ↔ name ∈ r.names := by
  simp [contains, names]

/-- The answer for a name is the module that has it. -/
theorem get_eq_ok_iff : r.get name = .ok m ↔ m ∈ r.modules ∧ m.name = name := by
  rw [get]
  split
  · rename_i found hfound
    have hname : found.name = name := by simpa using List.find?_some hfound
    have hmem : found ∈ r.modules := List.mem_of_find?_eq_some hfound
    rw [Except.ok.injEq]
    constructor
    · rintro rfl
      exact ⟨hmem, hname⟩
    · rintro ⟨hm, hsame⟩
      exact List.inj_on_of_nodup_map r.names_nodup hmem hm (hname.trans hsame.symm)
  · rename_i hnone
    have hother : ∀ other ∈ r.modules, other.name ≠ name := by simpa using hnone
    simpa using fun hm => hother m hm

/-- There is no answer for a name exactly when no module has it. -/
theorem get_eq_error_iff : r.get name = .error error ↔ r.contains name = false ∧ error = .unknown name r.names := by
  rw [get]
  split
  · rename_i found hfound
    have hname : found.name = name := by simpa using List.find?_some hfound
    have hmem : r.contains name = true :=
      contains_iff.mpr (List.mem_map.mpr ⟨found, List.mem_of_find?_eq_some hfound, hname⟩)
    simp [hmem]
  · rename_i hnone
    have hcontains : r.contains name = false := by simpa [contains] using hnone
    simp [hcontains, eq_comm]

end LuaTypings.Registry
