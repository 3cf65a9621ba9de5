import Mathlib.Data.List.Nodup
import LuaTypings.Proofs.Source.Waiting

/-!
# The order of annotations

Annotations in front of a declaration may stand in any order, as long as each parameter is described once, at most one
return is given, and the lines of prose keep theirs: `ofLines_perm`. The two contexts that such blocks lead to need not be
equal, since their parameters wait in different orders. They agree (`Context.Agrees`): whatever is looked up in the one is
found in the other. Every directive keeps contexts in agreement and takes the same entry from them (`Context.Agrees.next`,
`Context.Agrees.entry?_eq`), so the rest of the source is read alike.
-/

namespace LuaTypings.Source

namespace Context

/-! ## Contexts that agree -/

/-- What a source finds in two contexts is the same: the open class, the annotation of each parameter, the returns and
the prose. The order in which the parameters wait is left open. -/
structure Agrees (b c : Context) : Prop where
  openClass : b.openClass = c.openClass
  param? : ∀ name, b.param? name = c.param? name
  returns : b.returns = c.returns
  description : b.description = c.description

variable {b c : Context}

/-- The annotation of a parameter when more parameters wait behind the others. -/
theorem find?_params_append (c : Context) (notes : List ParamNote) (name : Text) :
    (c.params ++ notes).find? (·.name = name) = (c.param? name).or (notes.find? (·.name = name)) :=
  List.find?_append

/-- The same prose waits where contexts agree. -/
theorem Agrees.prose?_eq (h : b.Agrees c) : b.prose? = c.prose? := by
  rw [prose?, prose?, h.description]

/-- A declaration has the same function type where contexts agree. -/
theorem Agrees.functionType_eq (h : b.Agrees c) (d : DeclaredFunction) : b.functionType d = c.functionType d := by
  have hparam : b.writeParam = c.writeParam := by
    funext name
    rw [writeParam, writeParam, h.param?]
  have hparams : b.writeParams d = c.writeParams d := by rw [writeParams, writeParams, hparam]
  unfold functionType
  rw [hparams, h.returns]

/-- A directive adds the same entry where contexts agree. -/
theorem Agrees.entry?_eq (h : b.Agrees c) (d : Directive) : b.entry? d = c.entry? d := by
  cases d with
  | indexField key value =>
    unfold entry?
    rw [h.openClass]
  | field note =>
    have hfield : ∀ className, b.fieldEntry className note = c.fieldEntry className note := by
      intro className
      rw [fieldEntry, fieldEntry, h.prose?_eq]
    unfold entry?
    simp only [h.openClass, hfield]
  | function d =>
    unfold entry?
    simp only [h.functionType_eq, h.prose?_eq]
  | nested outer inner =>
    unfold entry?
    rw [h.openClass]
  | _ => rfl

/-- Contexts in which the same class is open agree when nothing else waits. -/
theorem Agrees.cleared (h : b.Agrees c) : b.cleared.Agrees c.cleared where
  openClass := h.openClass
  param? _ := rfl
  returns := rfl
  description := rfl

/-- Contexts that agree still do after a directive. -/
theorem Agrees.next (h : b.Agrees c) (d : Directive) : (b.next d).Agrees (c.next d) := by
  cases d with
  | classStart name => exact { h with openClass := rfl }
  | param note =>
    refine { h with param? := fun name => ?_ }
    change (b.params ++ [note]).find? (·.name = name) = (c.params ++ [note]).find? (·.name = name)
    rw [find?_params_append, find?_params_append, h.param?]
  | returns type => exact { h with returns := rfl }
  | description text => exact { h with description := congrArg (· ++ [text]) h.description }
  | field note =>
    rw [Context.next, Context.next, h.openClass]
    split
    · exact ⟨rfl, h.param?, h.returns, rfl⟩
    · exact h
  | nested outer inner =>
    rw [Context.next, Context.next, h.openClass]
    split
    · exact h
    · exact h.cleared
  | function d => exact h.cleared
  | otherCode => exact h.cleared
  | _ => exact h

end Context

/-- Two readings that have come to the same model and find the same in what waits. -/
structure Progress.Agrees (p q : Progress) : Prop where
  context : p.context.Agrees q.context
  model : p.model = q.model

/-- A directive keeps readings in agreement. -/
theorem Progress.Agrees.step {p q : Progress} (h : p.Agrees q) (d : Directive) : (p.step d).Agrees (q.step d) where
  context := h.context.next d
  model := by rw [Progress.step, Progress.step, h.context.entry?_eq, h.model]

/-- Lines keep readings in agreement. -/
theorem Progress.Agrees.readLines {p q : Progress} (h : p.Agrees q) (lines : List Text) :
    (p.readLines lines).Agrees (q.readLines lines) := by
  induction lines generalizing p q with
  | nil => exact h
  | cons line lines ih => exact ih (h.step (.ofLine line))

/-! ## Blocks of annotations -/

/-- Whether a directive can stand in a block of annotations: it waits for a declaration, or it says nothing. -/
def Directive.annotates (d : Directive) : Bool := d.waits || d == .silent

/-- The context with the annotations of a block behind those that wait. -/
def Context.annotated (c : Context) (ds : List Directive) : Context :=
  { c with
    params := c.params ++ ds.filterMap Directive.param?
    returns := (ds.filterMap Directive.returned?).getLast?.or c.returns
    description := c.description ++ ds.filterMap Directive.prose? }

/-- The first annotation of a block comes before the others. -/
theorem Context.annotated_cons (c : Context) (d : Directive) (ds : List Directive) :
    c.annotated (d :: ds) = (c.annotated [d]).annotated ds := by
  rw [← List.singleton_append]
  simp only [annotated, List.filterMap_append, List.getLast?_append, Option.or_assoc, List.append_assoc]

/-- A directive of a block only adds to what waits. -/
theorem Progress.step_of_annotates {d : Directive} (hd : d.annotates = true) (p : Progress) :
    p.step d = ⟨p.context.annotated [d], p.model⟩ := by
  cases d with
  | param _ | returns _ | description _ | silent =>
    simp [step, Context.next, Context.entry?, Context.annotated, List.filterMap_cons, Directive.param?,
      Directive.returned?, Directive.prose?]
  | _ => cases hd

/-- A block of annotations only adds to what waits. -/
theorem Progress.readLines_of_annotates {block : List Text}
    (hblock : ∀ line ∈ block, (Directive.ofLine line).annotates = true) (p : Progress) :
    p.readLines block = ⟨p.context.annotated (block.map .ofLine), p.model⟩ := by
  induction block generalizing p with
  | nil => simp [readLines, Context.annotated]
  | cons line block ih =>
    obtain ⟨hline, hrest⟩ := List.forall_mem_cons.mp hblock
    rw [readLines_cons, ih hrest, step_of_annotates hline, List.map_cons, Context.annotated_cons _ _ (block.map _)]

/-! ## Blocks in another order -/

/-- Among items of different keys the one of a key does not depend on their order. -/
theorem find?_key_of_perm {α κ : Type} [DecidableEq κ] {key : α → κ} {items others : List α} (hperm : others.Perm items)
    (hnodup : (items.map key).Nodup) (k : κ) : others.find? (key · = k) = items.find? (key · = k) := by
  have hfound : ∀ xs : List α, (xs.map key).Nodup → ∀ x, xs.find? (key · = k) = some x ↔ x ∈ xs ∧ key x = k := by
    intro xs hxs x
    constructor
    · intro h
      exact ⟨List.mem_of_find?_eq_some h, by simpa using List.find?_some h⟩
    · rintro ⟨hx, hk⟩
      have hsome : (xs.find? (key · = k)).isSome = true := List.find?_isSome.mpr ⟨x, hx, by simpa using hk⟩
      obtain ⟨y, hy⟩ := Option.isSome_iff_exists.mp hsome
      have hykey : key y = k := by simpa using List.find?_some hy
      rw [hy, List.inj_on_of_nodup_map hxs (List.mem_of_find?_eq_some hy) hx (hykey.trans hk.symm)]
  have hothers : (others.map key).Nodup := (hperm.map key).nodup_iff.mpr hnodup
  ext x
  rw [hfound others hothers, hfound items hnodup, hperm.mem_iff]

/-- At most one item has only one order. -/
theorem eq_of_perm_of_length_le_one {α : Type} {items others : List α} (hperm : others.Perm items)
    (hlength : items.length ≤ 1) : others = items := by
  match items, hlength with
  | [], _ => exact hperm.eq_nil
  | [x], _ => exact List.perm_singleton.mp hperm

/-- Blocks of the same annotations in two orders lead to contexts that agree. -/
theorem Context.agrees_annotated_of_perm {ds es : List Directive} (hperm : es.Perm ds)
    (hnames : ((ds.filterMap Directive.param?).map (·.name)).Nodup)
    (hreturns : (ds.filterMap Directive.returned?).length ≤ 1)
    (hprose : es.filterMap Directive.prose? = ds.filterMap Directive.prose?) (c : Context) :
    (c.annotated es).Agrees (c.annotated ds) where
  openClass := rfl
  param? name := by
    change (c.params ++ es.filterMap Directive.param?).find? (·.name = name) =
      (c.params ++ ds.filterMap Directive.param?).find? (·.name = name)
    rw [find?_params_append, find?_params_append, find?_key_of_perm (hperm.filterMap _) hnames]
  returns := by
    have hsame := eq_of_perm_of_length_le_one (hperm.filterMap Directive.returned?) hreturns
    rw [annotated, annotated, hsame]
  description := by rw [annotated, annotated, hprose]

/-- The prose of lines is that of the lines of prose among them. -/
theorem filterMap_prose?_map_ofLine (lines : List Text) :
    (lines.map Directive.ofLine).filterMap Directive.prose? =
      (lines.filter fun line => (Directive.ofLine line).prose?.isSome).filterMap fun line =>
        (Directive.ofLine line).prose? := by
  rw [List.filterMap_map, List.filterMap_filter]
  refine List.filterMap_congr fun line _ => ?_
  cases h : (Directive.ofLine line).prose? <;> simp [h]

/-- **The order of annotations.** A block of annotations of different parameters, with at most one return among them,
can be put in any order that keeps the order of its lines of prose: whatever stands before and after it, the source has the
same model. -/
theorem ofLines_perm {block other : List Text}
    (hblock : ∀ line ∈ block, (Directive.ofLine line).annotates = true)
    (hnames : (((block.map Directive.ofLine).filterMap Directive.param?).map (·.name)).Nodup)
    (hreturns : ((block.map Directive.ofLine).filterMap Directive.returned?).length ≤ 1) (hperm : other.Perm block)
    (hprose : other.filter (fun line => (Directive.ofLine line).prose?.isSome) =
      block.filter fun line => (Directive.ofLine line).prose?.isSome)
    (before after : List Text) :
    Model.ofLines (before ++ other ++ after) = Model.ofLines (before ++ block ++ after) := by
  have hother : ∀ line ∈ other, (Directive.ofLine line).annotates = true := fun line hline =>
    hblock line (hperm.subset hline)
  have hread : ∀ lines : List Text, (∀ line ∈ lines, (Directive.ofLine line).annotates = true) →
      Model.ofLines (before ++ lines ++ after) =
        (Progress.readLines ⟨(Progress.start.readLines before).context.annotated (lines.map .ofLine),
          (Progress.start.readLines before).model⟩ after).model := by
    intro lines hlines
    rw [Model.ofLines, Progress.readLines_append, Progress.readLines_append, Progress.readLines_of_annotates hlines]
  have hagree := Context.agrees_annotated_of_perm (hperm.map Directive.ofLine) hnames hreturns
    (by rw [filterMap_prose?_map_ofLine, filterMap_prose?_map_ofLine, hprose])
    (Progress.start.readLines before).context
  have hstart : Progress.Agrees
      ⟨(Progress.start.readLines before).context.annotated (other.map .ofLine), (Progress.start.readLines before).model⟩
      ⟨(Progress.start.readLines before).context.annotated (block.map .ofLine), (Progress.start.readLines before).model⟩ :=
    ⟨hagree, rfl⟩
  rw [hread other hother, hread block hblock]
  exact (hstart.readLines after).model

/-- A block with all kinds of annotations is turned around. One of its parameters is described before the block, too. -/
theorem ofLines_perm_of_described_parameters :
    let before : List Text := ["---@class A", "---@param x K"]
    let block : List Text := ["---@param y V", "---", "--- Two", "---@return T", "--- lines", "---@param x T"]
    let other : List Text := ["--- Two", "---@param x T", "--- lines", "---@param y V", "---@return T", "---"]
    let after : List Text := ["function A.f(x, y) end", "function A.g(x) end"]
    (Progress.start.readLines (before ++ other)).context ≠ (Progress.start.readLines (before ++ block)).context ∧
      Model.ofLines (before ++ other ++ after) = Model.ofLines (before ++ block ++ after) :=
  ⟨by decide +kernel,
    ofLines_perm (by decide +kernel) (by decide +kernel) (by decide +kernel) (by decide +kernel) (by decide +kernel) _ _⟩

end LuaTypings.Source
