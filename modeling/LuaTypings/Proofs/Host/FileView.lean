import LuaTypings.Proofs.Host.FileTree
import LuaTypings.Proofs.Host.Lasting

/-!
# What programs write

A view of a host's files says what each file holds and which file a path names, so that two paths may name one file
(`FileView`). What an operation may change is known of each operation of a host (`FileView.Lawful`): asking, reading, making
a directory and printing change no file, and a write changes at most the file that its path names. When the file was not
opened none is changed; when the write breaks off behind that, nothing is known of what the file holds.

After some writes every file holds what the last write to it gave it, if that came to an end, or what it held before when
there was none (`FileView.Wrote`). A program is described by the writes that there are when it is over, given those before it
(`FileView.Writes`); these descriptions are put together as the programs are (`Writes.bind`, `Writes.mapM`). One file is
left out: the one at the path `aside`, to which a log may add lines at any time. The files of a workspace are such a view
(`Workspace.fileView_lawful`).
-/

namespace LuaTypings

open Text (Bytes)

/-- A way to look at the files of a host. -/
structure FileView (σ Id : Type) where
  /-- What a file holds; nothing when there is no such file. -/
  content? : σ → Id → Option Bytes
  /-- The file that a path names. -/
  named? : σ → Path → Option Id

/-- A write to a file that was opened. -/
structure FileWrite where
  path : Path
  /-- What was written; nothing when the write broke off. -/
  content? : Option Bytes

/-- The write that there was, by the answer. -/
def FileWrite.ofAnswer (p : Path) (bytes : Bytes) : Except WriteError Unit → List FileWrite
  | .ok _ => [⟨p, some bytes⟩]
  | .error (.unopened _) => []
  | .error (.unfinished _) => [⟨p, none⟩]

namespace FileView

variable {σ Id : Type}

/-- Every path names the file that it named, and files hold what they held, some of them excepted. -/
structure ChangesOnly (v : FileView σ Id) (changed : Id → Prop) (s t : σ) : Prop where
  /-- No path comes to name another file. -/
  names : ∀ {p i}, v.named? s p = some i → v.named? t p = some i
  /-- The other files hold what they held. -/
  contents : ∀ {i}, ¬ changed i → v.content? t i = v.content? s i

/-- No file was changed between two states. -/
abbrev Unchanged (v : FileView σ Id) (s t : σ) : Prop := v.ChangesOnly (fun _ => False) s t

/-- What the operations of a host may change. -/
structure Lawful [Host (StateM σ)] (v : FileView σ Id) : Prop where
  /-- Asking what is at a path changes no file. -/
  kind : ∀ p s, v.Unchanged s ((Host.kind? p : StateM σ _).run s).2
  /-- Reading changes no file. -/
  read : ∀ p s, v.Unchanged s ((Host.read p : StateM σ _).run s).2
  /-- Making a directory changes no file, and it may fail. -/
  makeDirectory : ∀ {p s answer t}, (Host.makeDirectory p : StateM σ _).run s = (answer, t) → v.Unchanged s t
  /-- Printing changes no file. -/
  print : ∀ stream text s, v.Unchanged s ((Host.print stream text : StateM σ _).run s).2
  /-- Asking for the time changes no file. -/
  timestamp : ∀ s, v.Unchanged s ((Host.timestamp : StateM σ _).run s).2
  /-- A write changes the file that its path names then, and gives it what was written. -/
  write_ok : ∀ {p bytes s t}, (Host.write p bytes : StateM σ _).run s = (.ok (), t) →
    ∃ i, v.named? t p = some i ∧ v.content? t i = some bytes ∧ v.ChangesOnly (· = i) s t
  /-- A write to a file that is not opened changes no file. -/
  write_unopened : ∀ {p bytes s e t}, (Host.write p bytes : StateM σ _).run s = (.error (.unopened e), t) →
    v.Unchanged s t
  /-- A write that breaks off changes at most the file that its path names then, which may hold anything. -/
  write_unfinished : ∀ {p bytes s e t}, (Host.write p bytes : StateM σ _).run s = (.error (.unfinished e), t) →
    ∃ i, v.named? t p = some i ∧ v.ChangesOnly (· = i) s t
  /-- Adding to a file changes at most the one that the path names then. -/
  append : ∀ {p bytes s answer t}, (Host.append p bytes : StateM σ _).run s = (answer, t) →
    v.ChangesOnly (fun i => v.named? t p = some i) s t

/-! ## Writes -/

/-- What a file holds after some writes, when it held `old` before them. -/
inductive Holds (v : FileView σ Id) (t : σ) (i : Id) (old : Option Bytes) (writes : List FileWrite) : Prop
  /-- No write went to the file. -/
  | kept (same : v.content? t i = old) (elsewhere : ∀ w ∈ writes, v.named? t w.path ≠ some i)
  /-- It holds what the last write to it gave it, if that did not break off. -/
  | written (earlier : List FileWrite) (w : FileWrite) (later : List FileWrite)
      (split : writes = earlier ++ w :: later) (here : v.named? t w.path = some i)
      (content : ∀ bytes ∈ w.content?, v.content? t i = some bytes) (last : ∀ w ∈ later, v.named? t w.path ≠ some i)

/-- The writes that there were between two states: each went to the file that its path names, and every file holds what it
has from them. Nothing is said about the file at the path `aside`. -/
structure Wrote (v : FileView σ Id) (aside : Option Path) (s : σ) (writes : List FileWrite) (t : σ) : Prop where
  /-- The paths of the writes name files. -/
  named : ∀ w ∈ writes, ∃ i, v.named? t w.path = some i
  /-- Each file holds what it has from the writes. -/
  holds : ∀ i, aside.bind (v.named? t) ≠ some i → v.Holds t i (v.content? s i) writes

variable {v : FileView σ Id} {aside : Option Path} {r s t : σ} {i : Id} {writes : List FileWrite}

/-- Without writes nothing is changed. -/
theorem Wrote.refl (s : σ) : v.Wrote aside s [] s :=
  ⟨fun _ hw => absurd hw List.not_mem_nil, fun _ _ => .kept rfl fun _ hw => absurd hw List.not_mem_nil⟩

/-- What a file holds from some writes it still holds where the paths name the same files and it was not changed. -/
theorem Holds.carry {old : Option Bytes} (h : v.Holds s i old writes)
    (hnames : ∀ w ∈ writes, v.named? t w.path = v.named? s w.path) (hsame : v.content? t i = v.content? s i) :
    v.Holds t i old writes := by
  cases h with
  | kept same elsewhere =>
    refine .kept (hsame.trans same) fun w hw => ?_
    rw [hnames w hw]
    exact elsewhere w hw
  | written earlier w later split here content last =>
    subst split
    refine .written earlier w later rfl ?_ (fun bytes hbytes => hsame.trans (content bytes hbytes)) fun w' hw' => ?_
    · rw [hnames w (List.mem_append_right _ List.mem_cons_self)]
      exact here
    · rw [hnames w' (List.mem_append_right _ (List.mem_cons_of_mem _ hw'))]
      exact last w' hw'

/-- A write that goes to another file leaves what a file holds. -/
theorem Holds.concat {old : Option Bytes} {w : FileWrite} (h : v.Holds t i old writes) (hw : v.named? t w.path ≠ some i) :
    v.Holds t i old (writes ++ [w]) := by
  cases h with
  | kept same elsewhere =>
    exact .kept same (List.forall_mem_append.mpr ⟨elsewhere, List.forall_mem_singleton.mpr hw⟩)
  | written earlier last' later split here content last =>
    refine .written earlier last' (later ++ [w]) ?_ here content
      (List.forall_mem_append.mpr ⟨last, List.forall_mem_singleton.mpr hw⟩)
    rw [split, List.append_assoc, List.cons_append]

namespace Wrote

variable {changed : Id → Prop}

/-- The paths of the writes go on naming the files that they named. -/
theorem names_eq (h : v.Wrote aside r writes s) (hst : v.ChangesOnly changed s t) :
    ∀ w ∈ writes, v.named? t w.path = v.named? s w.path := by
  intro w hw
  obtain ⟨j, hj⟩ := h.named w hw
  rw [hj, hst.names hj]

/-- A file that is not changed further holds what it has from the writes. -/
theorem holds_of_unchanged (h : v.Wrote aside r writes s) (hst : v.ChangesOnly changed s t) (hi : ¬ changed i)
    (haside : aside.bind (v.named? t) ≠ some i) : v.Holds t i (v.content? r i) writes := by
  refine (h.holds i fun hs => haside ?_).carry (h.names_eq hst) (hst.contents hi)
  -- The path that is left out does not come to name another file.
  obtain ⟨p, hp, hnamed⟩ := Option.bind_eq_some_iff.mp hs
  exact Option.bind_eq_some_iff.mpr ⟨p, hp, hst.names hnamed⟩

/-- What changes no file but the one that is left out adds no write. -/
theorem keep (h : v.Wrote aside r writes s) (hst : v.ChangesOnly changed s t)
    (hchanged : ∀ i, changed i → aside.bind (v.named? t) = some i) : v.Wrote aside r writes t := by
  refine ⟨fun w hw => ?_, fun i hi => h.holds_of_unchanged hst (fun hc => hi (hchanged i hc)) hi⟩
  rw [h.names_eq hst w hw]
  exact h.named w hw

/-- What changes one file adds a write. -/
theorem write (h : v.Wrote aside r writes s) {w : FileWrite} {j : Id} (hst : v.ChangesOnly (· = j) s t)
    (hw : v.named? t w.path = some j) (hcontent : ∀ bytes ∈ w.content?, v.content? t j = some bytes) :
    v.Wrote aside r (writes ++ [w]) t := by
  constructor
  · refine List.forall_mem_append.mpr ⟨fun w' hw' => ?_, List.forall_mem_singleton.mpr ⟨j, hw⟩⟩
    rw [h.names_eq hst w' hw']
    exact h.named w' hw'
  · intro i hi
    -- This write is the last one to its own file, and one to another file for every other.
    by_cases hij : i = j
    · subst hij
      exact .written writes w [] rfl hw hcontent fun w' hw' => absurd hw' List.not_mem_nil
    · refine (h.holds_of_unchanged hst hij hi).concat fun hwi => hij ?_
      exact Option.some.inj (hwi.symm.trans hw)

end Wrote

/-! ## Programs -/

/-- The writes that there are when a program is over, by its answer, when there were some before it. -/
def Writes {α : Type} (v : FileView σ Id) (aside : Option Path) (before : List FileWrite) (x : StateM σ α)
    (after : α → List FileWrite) : Prop :=
  ∀ r s, v.Wrote aside r before s → v.Wrote aside r (after (x.run s).1) (x.run s).2

namespace Writes

variable {α β ι : Type} {before : List FileWrite} {x : StateM σ α} {after : α → List FileWrite}

/-- An answer by itself writes nothing. -/
theorem pure {a : α} (h : after a = before) : v.Writes aside before (Pure.pure a) after := by
  intro r s hs
  show v.Wrote aside r (after a) s
  rwa [h]

/-- What changes no file writes nothing. -/
theorem of_unchanged (h : ∀ s, v.Unchanged s (x.run s).2) : v.Writes aside before x fun _ => before :=
  fun _ s hs => hs.keep (h s) fun _ hi => hi.elim

/-- The writes of a program that goes on come after the first ones. -/
theorem bind {f : α → StateM σ β} {afterAll : β → List FileWrite} (hx : v.Writes aside before x after)
    (hf : ∀ a, v.Writes aside (after a) (f a) afterAll) : v.Writes aside before (x >>= f) afterAll :=
  fun r s hs => hf (x.run s).1 r (x.run s).2 (hx r s hs)

/-- Programs for the items of a list, each of which makes one write or none, make those of all answers. -/
theorem mapM {f : ι → StateM σ α} {written? : α → Option FileWrite}
    (h : ∀ i before, v.Writes aside before (f i) fun a => before ++ (written? a).toList) (items : List ι)
    (before : List FileWrite) :
    v.Writes aside before (items.mapM f) fun answers => before ++ answers.filterMap written? := by
  -- The writes of the first item are among those before the others.
  induction items generalizing before with
  | nil =>
    rw [List.mapM_nil]
    exact pure (List.append_nil before)
  | cons i items ih =>
    rw [List.mapM_cons]
    refine (h i before).bind fun a => (ih _).bind fun answers => pure ?_
    rw [List.append_assoc, List.filterMap_cons]
    cases written? a <;> rfl

end Writes

end FileView

/-! ## Hosts -/

namespace FileView.Lawful

variable {σ Id : Type} [Host (StateM σ)] {v : FileView σ Id} (h : v.Lawful) {aside : Option Path}
  {before : List FileWrite}

include h

/-- What is built from questions about files and new directories writes nothing. -/
theorem lasting : Host.Lasting fun α (x : StateM σ α) => v.Writes aside before x fun _ => before where
  pure _ := Writes.pure rfl
  bind hx hf := hx.bind hf
  kind p := Writes.of_unchanged (h.kind p)
  read p := Writes.of_unchanged (h.read p)
  makeDirectory _ := Writes.of_unchanged fun _ => h.makeDirectory rfl

/-- A text that is written is one write, unless its file is not opened. -/
theorem writeText (p : Path) (t : Text) : v.Writes aside before (Host.writeText p t : StateM σ _)
    fun answer => before ++ FileWrite.ofAnswer p (Text.encode t) answer := by
  unfold Host.writeText
  intro r s hs
  generalize hrun : (Host.write p (Text.encode t) : StateM σ _).run s = result
  obtain ⟨answer, u⟩ := result
  cases answer with
  | ok done =>
    obtain ⟨i, hp, hcontent, hst⟩ := h.write_ok hrun
    refine hs.write (w := ⟨p, some (Text.encode t)⟩) hst hp ?_
    rintro bytes ⟨⟩
    exact hcontent
  | error e =>
    cases e with
    | unopened e =>
      show v.Wrote aside r (before ++ []) u
      rw [List.append_nil]
      exact hs.keep (h.write_unopened hrun) fun _ hi => hi.elim
    | unfinished e =>
      obtain ⟨i, hp, hst⟩ := h.write_unfinished hrun
      exact hs.write (w := ⟨p, none⟩) hst hp nofun

/-- A record writes to no file but the log's. -/
theorem record (log : Log) (level : LogLevel) (source message : Text) :
    v.Writes log.file before (log.record level source message : StateM σ _) fun _ => before := by
  unfold Log.record
  dsimp only
  split
  · refine (Writes.of_unchanged (h.print _ _)).bind fun _ => ?_
    cases hfile : log.file with
    | none => exact .pure rfl
    | some file =>
      have happend : ∀ bytes, v.Writes (some file) before (Host.append file bytes : StateM σ _) fun _ => before :=
        fun bytes r s hs => hs.keep (h.append rfl) fun i hi => hi
      exact (Writes.of_unchanged h.timestamp).bind fun time => (happend _).bind fun _ => .pure rfl
  · exact .pure rfl

end FileView.Lawful

/-! ## Workspaces -/

namespace Workspace

/-- The files of a workspace: a path names the location that it leads to. -/
def fileView : FileView Workspace Location where
  content? w l := match w.files.node? l with
    | some (.file content) => some content
    | _ => none
  named? w p := (w.files.locate w.current p).toOption

/-- A path names where it leads. -/
theorem named?_eq_some {w : Workspace} {p : Path} {l : Location} :
    fileView.named? w p = some l ↔ w.files.locate w.current p = .ok l := by
  show (w.files.locate w.current p).toOption = some l ↔ _
  cases w.files.locate w.current p with
  | error e => exact ⟨nofun, nofun⟩
  | ok k => exact ⟨fun h => congrArg Except.ok (Option.some.inj h), fun h => congrArg some (Except.ok.inj h)⟩

section Set

variable {w : Workspace} {l : Location} (hl : w.files.node? l ≠ some .directory)

include hl

/-- What is put where no directory is changes only what is there. -/
theorem changesOnly_set (node : FileNode) :
    fileView.ChangesOnly (· = l) w (w.withFiles (w.files.set l node)) := by
  constructor
  · intro p k hnamed
    exact named?_eq_some.mpr (FileTree.locate_set hl (named?_eq_some.mp hnamed))
  · intro k hk
    unfold fileView withFiles
    dsimp only
    rw [FileTree.node?_set hl, if_neg hk]

/-- A file that is put where no directory is holds its content. -/
theorem content?_set (content : Bytes) :
    fileView.content? (w.withFiles (w.files.set l (.file content))) l = some content := by
  unfold fileView withFiles
  dsimp only
  rw [FileTree.node?_set hl, if_pos rfl]

end Set

/-- A directory that is made is no file, and nothing was where it is. -/
theorem unchanged_makeDirectory {w : Workspace} {l : Location} (hl : w.files.node? l = none) :
    fileView.Unchanged w (w.withFiles (w.files.set l .directory)) := by
  have hdirectory : w.files.node? l ≠ some .directory := by simp [hl]
  refine ⟨(changesOnly_set hdirectory .directory).names, fun {k} _ => ?_⟩
  by_cases hk : k = l
  · subst hk
    simp [fileView, withFiles, FileTree.node?_set hdirectory, hl]
  · exact (changesOnly_set hdirectory .directory).contents hk

/-- What a change of a file comes to: it fails and nothing is changed, or the file that the path names is given the new
content. -/
theorem of_changeFiles_change {p : Path} {newContent : Bytes → Bytes} {w u : Workspace} {answer : Except FileError Unit}
    (h : (changeFiles fun w => w.files.change w.current p newContent).run w = (answer, u)) :
    (∃ e, answer = .error e ∧ u = w) ∨
      answer = .ok () ∧ ∃ l content, fileView.named? u p = some l ∧
        fileView.content? u l = some (newContent content) ∧ fileView.ChangesOnly (· = l) w u := by
  obtain ⟨e, hanswer, hu⟩ | ⟨files, hanswer, hfiles, rfl⟩ := of_changeFiles h
  · exact .inl ⟨e, hanswer, hu⟩
  · obtain ⟨l, content, hlocate, hl, rfl⟩ := FileTree.of_change hfiles
    have hchanges := changesOnly_set hl (.file (newContent content))
    exact .inr ⟨hanswer, l, content, hchanges.names (named?_eq_some.mpr hlocate), content?_set hl _, hchanges⟩

/-- What a write comes to: its file is not opened and nothing is changed, or it is given the content. -/
theorem of_write {p : Path} {bytes : Bytes} {w u : Workspace} {answer : Except WriteError Unit}
    (h : (Host.write p bytes : StateM Workspace _).run w = (answer, u)) :
    (∃ e, answer = .error (.unopened e) ∧ u = w) ∨
      answer = .ok () ∧ ∃ l, fileView.named? u p = some l ∧ fileView.content? u l = some bytes ∧
        fileView.ChangesOnly (· = l) w u := by
  generalize hchange : (changeFiles fun w => w.files.change w.current p fun _ => bytes).run w = result
  obtain ⟨changed, t⟩ := result
  have hwrite : (Host.write p bytes : StateM Workspace _).run w = (changed.mapError .unopened, t) :=
    congrArg (fun r : Except FileError Unit × Workspace => (r.1.mapError WriteError.unopened, r.2)) hchange
  obtain ⟨rfl, rfl⟩ := Prod.mk.inj (hwrite.symm.trans h)
  obtain ⟨e, rfl, ht⟩ | ⟨rfl, l, -, hl⟩ := of_changeFiles_change hchange
  · exact .inl ⟨e, rfl, ht⟩
  · exact .inr ⟨rfl, l, hl⟩

/-- The operations of a workspace change no more of its files than they should. -/
theorem fileView_lawful : fileView.Lawful := by
  have hrefl : ∀ w, fileView.Unchanged w w := fun w => ⟨id, fun _ => rfl⟩
  constructor
  · exact fun p w => hrefl w
  · exact fun p w => hrefl w
  · intro p w answer u h
    obtain ⟨e, -, rfl⟩ | ⟨files, -, hfiles, rfl⟩ := of_changeFiles h
    · exact hrefl u
    · obtain ⟨l, hnone, rfl⟩ := FileTree.of_makeDirectory hfiles
      exact unchanged_makeDirectory hnone
  · intro stream text w
    cases stream <;> exact ⟨id, fun _ => rfl⟩
  · exact fun w => hrefl w
  · intro p bytes w u h
    obtain ⟨e, hanswer, -⟩ | ⟨-, hl⟩ := of_write h
    · cases hanswer
    · exact hl
  · intro p bytes w e u h
    obtain ⟨e, -, rfl⟩ | ⟨hanswer, -⟩ := of_write h
    · exact hrefl u
    · cases hanswer
  · intro p bytes w e u h
    -- Whatever is opened here is written to the end.
    obtain ⟨e, hanswer, -⟩ | ⟨hanswer, -⟩ := of_write h <;> cases hanswer
  · intro p bytes w answer u h
    obtain ⟨e, -, rfl⟩ | ⟨-, l, content, hl, -, hchanges⟩ := of_changeFiles_change h
    · exact ⟨id, fun _ => rfl⟩
    · refine ⟨hchanges.names, fun {k} hk => hchanges.contents fun hkl => hk ?_⟩
      rw [hkl]
      exact hl

end Workspace

end LuaTypings
