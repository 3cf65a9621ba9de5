import LuaTypings.Batch

/-!
# Lasting properties of programs

A property of programs lasts on a host when answers have it, when a program that goes on has it as soon as its parts do,
and when asking about files, reading them and making directories have it (`Host.Lasting`). Then the programs that are built
from these have it too: what looks for files, reads texts and makes directories is gone through here once, for every
property of this kind.
-/

namespace LuaTypings

namespace Host

variable {m : Type → Type} [Monad m] [Host m]

/-- What a property of programs needs to be had by all that is built from questions about files and new directories. -/
structure Lasting (P : (α : Type) → m α → Prop) : Prop where
  /-- An answer by itself has the property. -/
  pure : ∀ {α} (a : α), P α (Pure.pure a)
  /-- A program that goes on has the property when its parts do. -/
  bind : ∀ {α β} {x : m α} {f : α → m β}, P α x → (∀ a, P β (f a)) → P β (x >>= f)
  /-- Asking what is at a path has the property. -/
  kind : ∀ p, P _ (Host.kind? p)
  /-- Reading has the property. -/
  read : ∀ p, P _ (Host.read p)
  /-- Making a directory has the property. -/
  makeDirectory : ∀ p, P _ (Host.makeDirectory p)

namespace Lasting

variable {P : (α : Type) → m α → Prop} (h : Lasting P)

include h

/-- Asking whether a path leads to anything has the property. -/
theorem exists? (p : Path) : P _ (Host.exists? p) := h.bind (h.kind p) fun kind => h.pure kind.isSome

/-- Asking whether a path leads to a directory has the property. -/
theorem isDirectory (p : Path) : P _ (Host.isDirectory p) :=
  h.bind (h.kind p) fun kind => h.pure (kind == some .directory)

/-- Reading a text has the property. -/
theorem readText (p : Path) : P _ (Host.readText p) := by
  refine h.bind (h.read p) fun answer => ?_
  cases answer with
  | error e => exact h.pure _
  | ok bytes =>
    dsimp only
    cases Text.decode bytes with
    | error e => exact h.pure _
    | ok t => exact h.pure _

/-- Making a directory that may exist already has the property. -/
theorem ensureDirectory (p : Path) : P _ (Host.ensureDirectory p) := by
  refine h.bind (h.makeDirectory p) fun answer => ?_
  cases answer with
  | ok done => exact h.pure _
  | error e =>
    cases e with
    | notFound q => exact h.pure _
    | _ => exact h.bind (h.isDirectory p) fun _ => h.pure _

/-- Making a directory and those above it has the property, however far it gets. -/
theorem ensureDirectories (p : Path) : P _ (Host.ensureDirectories p) := by
  have hgo : ∀ (steps : Nat) (p : Path), P _ (Host.ensureDirectories.go p steps) := by
    intro steps
    induction steps with
    | zero => exact h.ensureDirectory
    | succ steps ih =>
      intro p
      rw [ensureDirectories.go]
      refine h.bind (h.ensureDirectory p) fun answer => ?_
      cases answer with
      | ok done => exact h.pure _
      | error e =>
        cases e with
        | notFound q =>
          -- The directory above is made first, and this one once more.
          refine h.bind (ih p.parent) fun answer => ?_
          cases answer with
          | ok done => exact h.ensureDirectory p
          | error e => exact h.pure _
        | _ => exact h.pure _
  exact hgo p.names.length p

/-- Finding out what becomes of a source has the property when records have it. -/
theorem outcomeLogged {log : Log} (hrecord : ∀ level source message, P _ (log.record level source message))
    (renderer : Renderer) (source : Text) (spec : ModuleSpec) : P _ (Batch.outcomeLogged log renderer source spec) := by
  unfold Batch.outcomeLogged
  dsimp only
  cases Outcome.ofSourceBy renderer source spec with
  | generated declaration => exact h.bind (hrecord _ _ _) fun _ => h.pure _
  | skipped reason => exact h.pure _
  | failed reason => exact h.bind (hrecord _ _ _) fun _ => h.pure _

/-- Translating a module has the property when records have it. -/
theorem translateModule {log : Log} (hrecord : ∀ level source message, P _ (log.record level source message))
    (apiDirectory : Path) (module : ModuleSpec) : P _ (Batch.translateModule log apiDirectory module) := by
  refine h.bind (h.exists? _) fun found => ?_
  cases found with
  | false => exact h.pure _
  | true =>
    refine h.bind (h.readText _) fun answer => ?_
    cases answer with
    | error e => exact h.pure _
    | ok source => exact h.outcomeLogged hrecord _ _ _

end Lasting

end Host

end LuaTypings
