import LuaTypings.Host.Workspace

/-!
# Nodes and walks of a file tree

A node that is put into a tree is found at its location, and every other node as before (`node?_set`). A walk that gets to
its end goes the same way in every tree that has the same directories or more (`walk_of_directories`). A tree is changed at
one location, where no directory is (`of_makeDirectory`, `of_change`), and paths go on leading where they led
(`locate_set`). Where a content is read, there is a file (`kind?_of_read`).
-/

namespace LuaTypings

open Text (Bytes)

namespace FileTree

variable {t u : FileTree} {l : Location} {node : FileNode}

/-- The first entry of a list is looked at first. -/
theorem lookup_cons (l k : Location) (node : FileNode) (nodes : List (Location × FileNode)) :
    ((l, node) :: nodes).lookup k = if k = l then some node else nodes.lookup k := by
  rw [List.lookup_cons]
  by_cases h : k = l
  · rw [if_pos h, beq_iff_eq.mpr h]
  · rw [if_neg h, beq_false_of_ne h]

/-- A node that is put into a list is found at its location, and every other one as before. -/
theorem lookup_setNode (l : Location) (node : FileNode) (nodes : List (Location × FileNode)) (k : Location) :
    (setNode l node nodes).lookup k = if k = l then some node else nodes.lookup k := by
  induction nodes with
  | nil => exact lookup_cons l k node []
  | cons entry nodes ih =>
    obtain ⟨known, old⟩ := entry
    rw [setNode]
    by_cases hknown : known = l
    · rw [if_pos hknown, hknown, lookup_cons, lookup_cons]
      split <;> rfl
    · rw [if_neg hknown, lookup_cons, lookup_cons, ih]
      by_cases h : k = known
      · have hne : k ≠ l := fun hk => hknown (h.symm.trans hk)
        rw [if_pos h, if_neg hne, if_pos h]
      · rw [if_neg h, if_neg h]

/-- A node that is put into a tree, where no directory is, is found at its location, and every other one as before. -/
theorem node?_set (hl : t.node? l ≠ some .directory) (node : FileNode) (k : Location) :
    (t.set l node).node? k = if k = l then some node else t.node? k := by
  -- The root always is a directory.
  have hroot : l ≠ [] := by
    rintro rfl
    exact hl rfl
  unfold node? set
  dsimp only
  rw [lookup_setNode]
  by_cases hk : k = []
  · rw [if_pos hk, if_pos hk, if_neg fun h => hroot (h.symm.trans hk)]
  · rw [if_neg hk, if_neg hk]

/-- A walk gets to the same end where the same directories are, and perhaps more. -/
theorem walk_of_directories (h : ∀ k, t.node? k = some .directory → u.node? k = some .directory) {names : List Text}
    {k : Location} (hwalk : t.walk l names = .ok k) : u.walk l names = .ok k := by
  induction names generalizing l with
  | nil => exact hwalk
  | cons name names ih =>
    unfold walk at hwalk ⊢
    split at hwalk
    · cases hwalk
    · cases hwalk
    · rename_i hdirectory
      rw [h l hdirectory]
      exact ih hwalk

/-- A path goes on leading where it led when a node is put where no directory is. -/
theorem locate_set {current k : Location} {p : Path} (hl : t.node? l ≠ some .directory)
    (h : t.locate current p = .ok k) : (t.set l node).locate current p = .ok k := by
  refine walk_of_directories (fun j hj => ?_) h
  have hne : j ≠ l := by
    rintro rfl
    exact hl hj
  rw [node?_set hl, if_neg hne, hj]

/-! ## Reading -/

variable {current : Location} {p : Path}

/-- A file is where a content is read. -/
theorem kind?_of_read {bytes : Bytes} (h : t.read current p = .ok bytes) : t.kind? current p = some .file := by
  unfold read at h
  split at h
  · cases h
  · rename_i l hlocate
    split at h
    · cases h
    · cases h
    · rename_i content hfile
      simp [kind?, hlocate, hfile]

/-! ## Changes -/

/-- A directory is made where nothing is. -/
theorem of_makeDirectory (h : t.makeDirectory current p = .ok u) : ∃ l, t.node? l = none ∧ u = t.set l .directory := by
  unfold makeDirectory at h
  split at h
  · cases h
  · rename_i l _
    split at h
    · cases h
    · rename_i hnone
      exact ⟨l, hnone, (Except.ok.inj h).symm⟩

/-- A file is changed where the path leads and no directory is. -/
theorem of_change {newContent : Bytes → Bytes} (h : t.change current p newContent = .ok u) :
    ∃ l content, t.locate current p = .ok l ∧ t.node? l ≠ some .directory ∧ u = t.set l (.file (newContent content)) := by
  unfold change at h
  split at h
  · cases h
  · rename_i l hlocate
    split at h
    · cases h
    · rename_i content hfile
      exact ⟨l, content, hlocate, by simp [hfile], (Except.ok.inj h).symm⟩
    · rename_i hnone
      exact ⟨l, [], hlocate, by simp [hnone], (Except.ok.inj h).symm⟩

end FileTree

/-- A change of the files is made if it succeeds, and else nothing is. -/
theorem Workspace.run_changeFiles (change : Workspace → Except FileError FileTree) (w : Workspace) :
    (changeFiles change).run w =
      match change w with
      | .error e => (.error e, w)
      | .ok files => (.ok (), w.withFiles files) := by
  unfold changeFiles
  cases h : change w <;> simp [h] <;> rfl

/-- What a change of the files comes to: it fails and nothing is changed, or it is made. -/
theorem Workspace.of_changeFiles {change : Workspace → Except FileError FileTree} {w u : Workspace}
    {answer : Except FileError Unit} (h : (changeFiles change).run w = (answer, u)) :
    (∃ e, answer = .error e ∧ u = w) ∨ ∃ files, answer = .ok () ∧ change w = .ok files ∧ u = w.withFiles files := by
  rw [run_changeFiles] at h
  split at h
  · rename_i e _
    obtain ⟨hanswer, hu⟩ := Prod.mk.inj h
    exact .inl ⟨e, hanswer.symm, hu.symm⟩
  · rename_i files hfiles
    obtain ⟨hanswer, hu⟩ := Prod.mk.inj h
    exact .inr ⟨files, hanswer.symm, hfiles, hu.symm⟩

end LuaTypings
