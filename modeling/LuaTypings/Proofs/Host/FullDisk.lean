import LuaTypings.Proofs.Host.FileView

/-!
# Hosts with a full disk

On a full disk files can be opened, which empties those that are to be written, but nothing can be put into them. The
operations of such a host change no more of its files than they should (`FullDisk.fileView_lawful`), and yet a write that
fails loses what a file held.
-/

namespace LuaTypings

/-- A host with a full disk: a workspace, but nothing can be added to its files. A file that is opened to be written is
empty from then on. -/
def FullDisk : Type := Workspace

namespace FullDisk

open Workspace (changeFiles)

/-- What the system says when there is no space. -/
def noSpace : FileError := .other "[Errno 28] No space left on device"

/-- Opens a file to write it, which then fails. -/
def write (p : Path) : StateM Workspace (Except WriteError Unit) := do
  match ← changeFiles fun w => w.files.change w.current p fun _ => [] with
  | .error e => return .error (.unopened e)
  | .ok () => return .error (.unfinished noSpace)

instance : Host (StateM FullDisk) :=
  { (inferInstance : Host (StateM Workspace)) with
    write := fun p _ => write p
    append := fun _ _ => return .error noSpace }

/-- The files are seen as those of the workspace. -/
def fileView : FileView FullDisk Location := Workspace.fileView

/-- What a write comes to: its file is not opened and nothing is changed, or it is empty from then on. -/
theorem of_write {p : Path} {w u : Workspace} {answer : Except WriteError Unit} (h : (write p).run w = (answer, u)) :
    (∃ e, answer = .error (.unopened e) ∧ u = w) ∨
      answer = .error (.unfinished noSpace) ∧ ∃ l, fileView.named? u p = some l ∧ fileView.ChangesOnly (· = l) w u := by
  generalize hchange : (changeFiles fun w => w.files.change w.current p fun _ => []).run w = result
  obtain ⟨changed, t⟩ := result
  rw [write, StateT.run_bind, hchange] at h
  obtain ⟨e, rfl, rfl⟩ | ⟨rfl, l, -, hl, -, hchanges⟩ := Workspace.of_changeFiles_change hchange
  · obtain ⟨rfl, rfl⟩ := Prod.mk.inj h
    exact .inl ⟨e, rfl, rfl⟩
  · obtain ⟨rfl, rfl⟩ := Prod.mk.inj h
    exact .inr ⟨rfl, l, hl, hchanges⟩

/-- The operations of a host with a full disk change no more of its files than they should. -/
theorem fileView_lawful : fileView.Lawful where
  kind := Workspace.fileView_lawful.kind
  read := Workspace.fileView_lawful.read
  makeDirectory := Workspace.fileView_lawful.makeDirectory
  print := Workspace.fileView_lawful.print
  timestamp := Workspace.fileView_lawful.timestamp
  write_ok h := by obtain ⟨e, hanswer, -⟩ | ⟨hanswer, -⟩ := of_write h <;> cases hanswer
  write_unopened h := by
    obtain ⟨e, -, rfl⟩ | ⟨hanswer, -⟩ := of_write h
    · exact ⟨id, fun _ => rfl⟩
    · cases hanswer
  write_unfinished h := by
    obtain ⟨e, hanswer, -⟩ | ⟨-, hl⟩ := of_write h
    · cases hanswer
    · exact hl
  append h := by
    obtain ⟨-, rfl⟩ := Prod.mk.inj h
    exact ⟨id, fun _ => rfl⟩

end FullDisk

end LuaTypings
