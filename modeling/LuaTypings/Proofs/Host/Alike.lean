import LuaTypings.Proofs.Host.FileTree
import LuaTypings.Proofs.Host.Lasting

/-!
# Programs that are alike for the files

Two programs over one host are alike for the files when they give the same answer and leave the same files, whenever they
start with the same files (`Alike`). The rest of the host may differ: what was printed, and the time. Likeness is kept by
putting programs one after another (`Alike.bind`, `Alike.mapM`). A host whose files answer by themselves, and are not
changed by what is printed, has this for all it is built from (`FilesApart`), and what is made of these has it as well,
because the property lasts (`FilesApart.lasting`).
A workspace is such a host (`Workspace.filesApart`).
-/

namespace LuaTypings

namespace Host

section Alike

variable {σ F α β : Type} {files : σ → F}

/-- Whether two programs give the same answers and leave the same files when they start with the same files. -/
def Alike (files : σ → F) (x y : StateM σ α) : Prop :=
  ∀ s t, files s = files t → (x.run s).1 = (y.run t).1 ∧ files (x.run s).2 = files (y.run t).2

namespace Alike

variable {x y z : StateM σ α}

/-- An answer by itself touches no files. -/
theorem pure (a : α) : Alike files (Pure.pure a : StateM σ α) (Pure.pure a) := fun _ _ h => ⟨rfl, h⟩

/-- Likeness goes in both directions. -/
theorem symm (h : Alike files x y) : Alike files y x := fun s t hst =>
  ⟨(h t s hst.symm).1.symm, (h t s hst.symm).2.symm⟩

/-- Likeness goes on. -/
theorem trans (h : Alike files x y) (h' : Alike files y z) : Alike files x z := by
  intro s t hst
  -- The program in the middle may start from either state.
  obtain ⟨hanswer, hfiles⟩ := h s t hst
  obtain ⟨hanswer', hfiles'⟩ := h' t t rfl
  exact ⟨hanswer.trans hanswer', hfiles.trans hfiles'⟩

/-- Programs that go on alike after programs that are alike are alike. -/
theorem bind (h : Alike files x y) {f g : α → StateM σ β} (hfg : ∀ a, Alike files (f a) (g a)) :
    Alike files (x >>= f) (y >>= g) := by
  intro s t hst
  obtain ⟨hanswer, hfiles⟩ := h s t hst
  have hx : (x >>= f).run s = (f (x.run s).1).run (x.run s).2 := rfl
  have hy : (y >>= g).run t = (g (x.run s).1).run (y.run t).2 := by
    rw [hanswer]
    rfl
  rw [hx, hy]
  exact hfg (x.run s).1 _ _ hfiles

/-- The same is made of the answers of programs that are alike. -/
theorem map (f : α → β) (h : Alike files x y) : Alike files (f <$> x) (f <$> y) := by
  rw [map_eq_pure_bind, map_eq_pure_bind]
  exact h.bind fun a => pure (f a)

/-- A program that does nothing to the files can be left out in front of another. -/
theorem skip {u : StateM σ Unit} (hu : Alike files u (Pure.pure ())) {v w : StateM σ α} (h : Alike files v w) :
    Alike files (u >>= fun _ => v) w := by
  have hboth := hu.bind fun _ => h
  rwa [pure_bind] at hboth

/-- Programs for the items of a list are alike one after another when they are so for each item. -/
theorem mapM {ι : Type} {f g : ι → StateM σ α} {items : List ι} (h : ∀ i ∈ items, Alike files (f i) (g i)) :
    Alike files (items.mapM f) (items.mapM g) := by
  induction items with
  | nil =>
    rw [List.mapM_nil, List.mapM_nil]
    exact pure []
  | cons i items ih =>
    obtain ⟨hi, hrest⟩ := List.forall_mem_cons.mp h
    rw [List.mapM_cons, List.mapM_cons]
    exact hi.bind fun a => (ih hrest).bind fun as => pure (a :: as)

end Alike

end Alike

/-! ## Hosts -/

/-- What a host needs for its files to be a part of it that can be looked at alone: asking about them and changing them
depends on them only, and printing does not change them. -/
structure FilesApart {σ F : Type} [Host (StateM σ)] (files : σ → F) : Prop where
  /-- What a path leads to depends on the files. -/
  kind : ∀ p, Alike files (Host.kind? p : StateM σ _) (Host.kind? p)
  /-- What is read depends on the files. -/
  read : ∀ p, Alike files (Host.read p : StateM σ _) (Host.read p)
  /-- Whether and where a directory is made depends on the files. -/
  makeDirectory : ∀ p, Alike files (Host.makeDirectory p : StateM σ _) (Host.makeDirectory p)
  /-- What is written depends on the files and on what is to be written. -/
  write : ∀ p bytes, Alike files (Host.write p bytes : StateM σ _) (Host.write p bytes)
  /-- What is printed goes to no file. -/
  print : ∀ stream text, Alike files (Host.print stream text : StateM σ _) (pure ())

namespace FilesApart

variable {σ F : Type} [Host (StateM σ)] {files : σ → F} (h : FilesApart files)

include h

/-- What is built from questions about files and new directories depends on the files. -/
theorem lasting : Lasting fun α (x : StateM σ α) => Alike files x x where
  pure := Alike.pure
  bind hx hf := hx.bind hf
  kind := h.kind
  read := h.read
  makeDirectory := h.makeDirectory

/-- What becomes of a text that is written depends on the files. -/
theorem writeText (p : Path) (t : Text) : Alike files (Host.writeText p t : StateM σ _) (Host.writeText p t) :=
  h.write p (Text.encode t)

/-- Without a log file a record changes no files. -/
theorem record {log : Log} (hlog : log.file = none) (level : LogLevel) (source message : Text) :
    Alike files (log.record level source message : StateM σ _) (Pure.pure ()) := by
  unfold Log.record
  dsimp only
  split
  · rw [hlog]
    exact (h.print _ _).skip (.pure ())
  · exact .pure ()

end FilesApart

end Host

/-! ## Workspaces -/

namespace Workspace

/-- What of a workspace decides about its files: the tree and the place from which relative paths are seen. -/
def fileState (w : Workspace) : FileTree × Location := (w.files, w.current)

/-- A change of the files that depends on them alone is alike from everywhere. -/
theorem alike_changeFiles {change : Workspace → Except FileError FileTree}
    (hchange : ∀ v w : Workspace, v.fileState = w.fileState → change v = change w) :
    Host.Alike fileState (changeFiles change) (changeFiles change) := by
  intro v w h
  rw [run_changeFiles, run_changeFiles, hchange v w h]
  split
  · exact ⟨rfl, h⟩
  · rename_i files _
    exact ⟨rfl, congrArg (Prod.mk files) (Prod.mk.inj h).2⟩

/-- The files of a workspace are apart from the rest of it. -/
theorem filesApart : Host.FilesApart fileState := by
  have hsame : ∀ {α : Type} (f : FileTree → Location → α) (v w : Workspace), v.fileState = w.fileState →
      f v.files v.current = f w.files w.current := by
    intro α f v w h
    obtain ⟨hfiles, hcurrent⟩ := Prod.mk.inj h
    rw [hfiles, hcurrent]
  constructor
  · exact fun p v w h => ⟨hsame (fun files current => files.kind? current p) v w h, h⟩
  · exact fun p v w h => ⟨hsame (fun files current => files.read current p) v w h, h⟩
  · exact fun p => alike_changeFiles (hsame fun files current => files.makeDirectory current p)
  · intro p bytes
    exact (alike_changeFiles (hsame fun files current => files.change current p fun _ => bytes)).bind fun _ => .pure _
  · intro stream text v w h
    cases stream <;> exact ⟨rfl, h⟩

end Workspace

end LuaTypings
