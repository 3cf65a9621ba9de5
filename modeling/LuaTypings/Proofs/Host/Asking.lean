import LuaTypings.Host.Workspace

/-!
# Questions that change nothing

On many hosts asking what is at a path, reading a file, and asking for a variable or for a home directory change nothing
(`Host.AsksOnly`). Then the programs that are built from these change nothing either, and one behind the other goes on with
the answer of the first (`run_bind_of_run_eq`). A text is read as the bytes of its file decide (`AsksOnly.run_readText`), and
a path is expanded unless it starts at a home directory that the host does not know (`AsksOnly.run_expandHome`). A workspace
is such a host (`Workspace.asksOnly`).
-/

namespace LuaTypings

open Text (Bytes)

/-- What comes behind a step that changes nothing goes on with its answer. -/
theorem run_bind_of_run_eq {σ α β : Type} {x : StateM σ α} {f : α → StateM σ β} {s : σ} {a : α} (h : x.run s = (a, s)) :
    (x >>= f).run s = (f a).run s := by
  rw [StateT.run_bind, h]
  rfl

namespace Host

/-- What a host needs for questions to change nothing. -/
structure AsksOnly (σ : Type) [Host (StateM σ)] : Prop where
  /-- Asking what is at a path changes nothing. -/
  kind : ∀ p (s : σ), ((Host.kind? p : StateM σ _).run s).2 = s
  /-- Reading a file changes nothing. -/
  read : ∀ p (s : σ), ((Host.read p : StateM σ _).run s).2 = s
  /-- Asking for a variable changes nothing. -/
  environmentValue : ∀ name (s : σ), ((Host.environmentValue name : StateM σ _).run s).2 = s
  /-- Asking for a home directory changes nothing. -/
  userHome : ∀ name (s : σ), ((Host.userHome? name : StateM σ _).run s).2 = s

variable {σ : Type} [Host (StateM σ)] {s : σ} {p : Path} {bytes : Bytes}

/-- What a path leads to: a file with a content, or nothing. -/
def HasContent (s : σ) (p : Path) : Option Bytes → Prop
  | none => ((Host.kind? p : StateM σ _).run s).1 = none
  | some bytes => ((Host.kind? p : StateM σ _).run s).1 ≠ none ∧ ((Host.read p : StateM σ _).run s).1 = .ok bytes

/-- Whether a path starts at a home directory that the host does not know. -/
def StartsAtUnknownHome (s : σ) (p : Path) : Prop :=
  ∃ name names, p = ⟨.relative, ('~' :: name) :: names⟩ ∧ ((Host.home? name : StateM σ _).run s).1 = none

namespace AsksOnly

variable (h : AsksOnly σ)

include h

/-- There is something where a file has a content. -/
theorem run_exists?_some (hcontent : HasContent s p (some bytes)) :
    (Host.exists? p : StateM σ _).run s = (true, s) := by
  have hkind : (Host.kind? p : StateM σ _).run s = (((Host.kind? p : StateM σ _).run s).1, s) := Prod.ext rfl (h.kind p s)
  rw [Host.exists?, run_bind_of_run_eq hkind, Option.isSome_iff_ne_none.mpr hcontent.1]
  rfl

/-- There is nothing where no file is. -/
theorem run_exists?_none (hcontent : HasContent s p none) : (Host.exists? p : StateM σ _).run s = (false, s) := by
  have hkind : (Host.kind? p : StateM σ _).run s = (none, s) := Prod.ext hcontent (h.kind p s)
  rw [Host.exists?, run_bind_of_run_eq hkind]
  rfl

/-- A text is read as the bytes of its file decide. -/
theorem run_readText (hcontent : HasContent s p (some bytes)) :
    (Host.readText p : StateM σ _).run s = (((Text.decode bytes).mapError .encoding).map Text.unifyNewlines, s) := by
  have hread : (Host.read p : StateM σ _).run s = (.ok bytes, s) := Prod.ext hcontent.2 (h.read p s)
  rw [Host.readText, run_bind_of_run_eq hread]
  dsimp only
  cases Text.decode bytes <;> rfl

/-- Asking for the home directory of a name changes nothing. -/
theorem run_home? (name : Text) (s : σ) :
    (Host.home? name : StateM σ _).run s = (((Host.home? name : StateM σ _).run s).1, s) := by
  have hgiven : (Host.givenHome? name : StateM σ _).run s = (((Host.givenHome? name : StateM σ _).run s).1, s) := by
    cases name with
    | nil => exact Prod.ext rfl (h.environmentValue _ s)
    | cons c name => rfl
  have huser : (Host.userHome? name : StateM σ _).run s = (((Host.userHome? name : StateM σ _).run s).1, s) :=
    Prod.ext rfl (h.userHome name s)
  refine Prod.ext rfl ?_
  rw [Host.home?, run_bind_of_run_eq hgiven]
  cases ((Host.givenHome? name : StateM σ _).run s).1 with
  | some home => rfl
  | none =>
    dsimp only
    rw [run_bind_of_run_eq huser]
    rfl

/-- A path is expanded unless it starts at a home directory that is not known. -/
theorem run_expandHome (p : Path) (s : σ) :
    ∃ found, (Host.expandHome p : StateM σ _).run s = (found, s) ∧ (found = none ↔ StartsAtUnknownHome s p) := by
  rw [Host.expandHome]
  split
  · rename_i name names hanchor hnames
    have hp : p = ⟨.relative, ('~' :: name) :: names⟩ := by rw [← hanchor, ← hnames]
    refine ⟨_, by rw [run_bind_of_run_eq (h.run_home? name s)]; rfl, ?_⟩
    rw [Option.map_eq_none_iff]
    constructor
    · exact fun hnone => ⟨name, names, hp, hnone⟩
    · rintro ⟨other, _, hother, hnone⟩
      obtain ⟨⟨-, rfl⟩, -⟩ : (True ∧ name = other) ∧ _ := by simpa using hp.symm.trans hother
      exact hnone
  · rename_i hnot
    refine ⟨some p, rfl, iff_of_false nofun ?_⟩
    rintro ⟨name, names, rfl, -⟩
    exact hnot name names rfl rfl

end AsksOnly

end Host

/-- Questions change nothing in a workspace. -/
theorem Workspace.asksOnly : Host.AsksOnly Workspace :=
  ⟨fun _ _ => rfl, fun _ _ => rfl, fun _ _ => rfl, fun _ _ => rfl⟩

end LuaTypings
