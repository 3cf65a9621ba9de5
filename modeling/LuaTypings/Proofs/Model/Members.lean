import LuaTypings.TypeText.Declared
import LuaTypings.Proofs.Model.Entries
import LuaTypings.Proofs.Text.Distinct

/-!
# The members that entries leave

Which methods and data fields a class holds depends only on the definitions that its entries give, in their order.
A method is settled on one of the definitions of its name: the first that names a receiver, or the first of all when
none does (`settledMethod`). A data field is the first definition of its name, and there is none when a method of that
name is given anywhere. `methods_ofEntries` and `dataFields_ofEntries` say so of every class of a model; both rest on
what one more definition does (`MethodsSettled.insertMethod`, `FieldsSettled.change`).
-/

namespace LuaTypings

namespace Entry

/-- The method that an entry defines, if it defines one. -/
def method? : Entry → Option Method
  | .method _ m => some m
  | _ => none

/-- The data field that an entry defines, if it defines one. -/
def dataField? : Entry → Option DataField
  | .dataField _ f => some f
  | _ => none

end Entry

namespace Model

/-- The definitions of methods that entries give a class. -/
def methodsGiven (name : Text) (entries : List Entry) : List Method :=
  (entriesOf name entries).filterMap Entry.method?

/-- The definitions of data fields that entries give a class. -/
def dataFieldsGiven (name : Text) (entries : List Entry) : List DataField :=
  (entriesOf name entries).filterMap Entry.dataField?

/-- The definition that counts among those of a name: the first that names a receiver, or else the first. -/
def settledMethod (given : List Method) (name : Text) : Option Method :=
  (given.find? fun m => m.name = name && TypeText.namesReceiver m.type).or (given.find? (·.name = name))

end Model

open ClassModel Model TypeText

/-! ## Receivers -/

/-- A function type names a receiver exactly when its callable has one. -/
theorem TypeText.isSome_receiver? (t : Text) : (Callable.ofText t).receiver?.isSome = namesReceiver t := by
  rw [Callable.ofText, namesReceiver]
  cases WrittenSignature.ofText? t with
  | none => rfl
  | some signature =>
    rw [Callable.ofWritten, WrittenSignature.toCallable, Callable.receiver?, Option.isSome_map,
      WrittenSignature.receiver?, Option.any_some, List.isSome_find?]

/-! ## Methods -/

section Methods

variable {given methods : List Method} {m : Method} {name : Text}

/-- The settled definition of a name is one of those of the name, and names a receiver if any of them does. -/
theorem of_settledMethod (h : settledMethod given name = some m) :
    m ∈ given ∧ m.name = name ∧
      (namesReceiver m.type = true ↔ ∃ d ∈ given, d.name = name ∧ namesReceiver d.type = true) := by
  rw [settledMethod, Option.or_eq_some_iff] at h
  obtain h | ⟨hnone, h⟩ := h
  · have hmem := List.mem_of_find?_eq_some h
    have hm := List.find?_some h
    simp only [Bool.and_eq_true, decide_eq_true_eq] at hm
    exact ⟨hmem, hm.1, fun hr => ⟨m, hmem, hm.1, hr⟩, fun _ => hm.2⟩
  · have hmem := List.mem_of_find?_eq_some h
    have hm : m.name = name := by simpa using List.find?_some h
    refine ⟨hmem, hm, fun hr => ⟨m, hmem, hm, hr⟩, ?_⟩
    rintro ⟨d, hd, hname, hr⟩
    have hd' := List.find?_eq_none.mp hnone d hd
    simp [hname, hr] at hd'

/-- A name is settled as soon as a definition of it is given. -/
theorem settledMethod_eq_none_iff : settledMethod given name = none ↔ name ∉ given.map (·.name) := by
  rw [settledMethod, Option.or_eq_none_iff, List.find?_eq_none, List.find?_eq_none]
  constructor
  · rintro ⟨-, h⟩ hmem
    obtain ⟨d, hd, hname⟩ := List.mem_map.mp hmem
    simpa [hname] using h d hd
  · intro h
    have hne : ∀ d ∈ given, d.name ≠ name := fun d hd hname => h (List.mem_map.mpr ⟨d, hd, hname⟩)
    exact ⟨fun d hd => by simp [hne d hd], fun d hd => by simp [hne d hd]⟩

/-- One more definition settles its own name anew only when it is the first or upgrades the one before. -/
theorem settledMethod_concat :
    settledMethod (given ++ [m]) name =
      if m.name = name then
        some (match settledMethod given name with
          | none => m
          | some earlier => if upgrades m earlier then m else earlier)
      else settledMethod given name := by
  by_cases hname : m.name = name
  · rw [if_pos hname]
    cases hsettled : settledMethod given name with
    | none =>
      have hnone := hsettled
      rw [settledMethod, Option.or_eq_none_iff] at hnone
      rw [settledMethod, List.find?_append, List.find?_append, hnone.1, hnone.2]
      by_cases hr : namesReceiver m.type = true <;> simp [hname, hr]
    | some earlier =>
      have hearlier := hsettled
      rw [settledMethod, Option.or_eq_some_iff] at hearlier
      rw [settledMethod, List.find?_append, List.find?_append]
      obtain hfound | ⟨hnone, hfound⟩ := hearlier
      · -- the settled definition names a receiver, so nothing upgrades it
        have hr := List.find?_some hfound
        simp only [Bool.and_eq_true, decide_eq_true_eq] at hr
        simp [hfound, upgrades, hr.2]
      · have hr := List.find?_eq_none.mp hnone earlier (List.mem_of_find?_eq_some hfound)
        have hearlierName : earlier.name = name := by simpa using List.find?_some hfound
        have hplain : namesReceiver earlier.type = false := by simpa [hearlierName] using hr
        by_cases hm : namesReceiver m.type = true <;> simp [hnone, hfound, upgrades, hplain, hname, hm]
  · rw [if_neg hname, settledMethod, List.find?_append, List.find?_append]
    simp [hname, settledMethod]

/-- The names of the methods after one more. -/
theorem map_name_insertMethod (m : Method) (methods : List Method) :
    (insertMethod m methods).map (·.name) =
      if m.name ∈ methods.map (·.name) then methods.map (·.name) else methods.map (·.name) ++ [m.name] := by
  induction methods with
  | nil => rfl
  | cons earlier rest ih =>
    rw [insertMethod]
    by_cases h : earlier.name = m.name
    · simp only [if_pos h, List.map_cons]
      by_cases hu : upgrades m earlier = true <;> simp [hu, h]
    · rw [if_neg h, List.map_cons, ih]
      have hne : m.name ≠ earlier.name := Ne.symm h
      by_cases hmem : m.name ∈ rest.map (·.name)
      · simp [hmem]
      · simp [hmem, hne]

/-- Of methods with different names one of another name stays, and the one of the name itself is upgraded or stays. -/
theorem mem_insertMethod (hnodup : (methods.map (·.name)).Nodup) {k : Method} (hk : k ∈ insertMethod m methods) :
    (k ∈ methods ∧ m.name ≠ k.name) ∨ (k = m ∧ m.name ∉ methods.map (·.name)) ∨
      ∃ earlier ∈ methods, earlier.name = m.name ∧ k = if upgrades m earlier then m else earlier := by
  induction methods with
  | nil => exact .inr (.inl ⟨List.mem_singleton.mp hk, List.not_mem_nil⟩)
  | cons earlier rest ih =>
    rw [List.map_cons, List.nodup_cons] at hnodup
    rw [insertMethod] at hk
    by_cases h : earlier.name = m.name
    · rw [if_pos h, List.mem_cons] at hk
      obtain hk | hk := hk
      · exact .inr (.inr ⟨earlier, List.mem_cons_self, h, hk⟩)
      · have hne : m.name ≠ k.name := fun heq => hnodup.1 (List.mem_map.mpr ⟨k, hk, (h.trans heq).symm⟩)
        exact .inl ⟨List.mem_cons_of_mem _ hk, hne⟩
    · rw [if_neg h, List.mem_cons] at hk
      obtain rfl | hk := hk
      · exact .inl ⟨List.mem_cons_self, Ne.symm h⟩
      · obtain ⟨hmem, hne⟩ | ⟨rfl, hnew⟩ | ⟨earlier', hmem, hname, hk⟩ := ih hnodup.2 hk
        · exact .inl ⟨List.mem_cons_of_mem _ hmem, hne⟩
        · refine .inr (.inl ⟨rfl, ?_⟩)
          rw [List.map_cons, List.mem_cons, not_or]
          exact ⟨Ne.symm h, hnew⟩
        · exact .inr (.inr ⟨earlier', List.mem_cons_of_mem _ hmem, hname, hk⟩)

/-- What holds of the methods of a class at any time: one for each name that was given, in the order in which the
names were first given, and each one the settled definition. -/
structure MethodsSettled (given methods : List Method) : Prop where
  names : methods.map (·.name) = (given.map (·.name)).eraseDups
  settled : ∀ m ∈ methods, settledMethod given m.name = some m

/-- One more definition leaves methods settled. -/
theorem MethodsSettled.insertMethod (h : MethodsSettled given methods) (m : Method) :
    MethodsSettled (given ++ [m]) (insertMethod m methods) := by
  constructor
  · rw [map_name_insertMethod, h.names, List.map_append, List.map_singleton, eraseDups_concat]
    simp only [List.mem_eraseDups]
  · intro k hk
    have hnodup : (methods.map (·.name)).Nodup := h.names ▸ nodup_eraseDups _
    rw [settledMethod_concat]
    obtain ⟨hmem, hne⟩ | ⟨rfl, hnew⟩ | ⟨earlier, hmem, hname, rfl⟩ := mem_insertMethod hnodup hk
    · rw [if_neg hne, h.settled k hmem]
    · -- The first definition of its name.
      rw [h.names, List.mem_eraseDups] at hnew
      rw [if_pos rfl, settledMethod_eq_none_iff.mpr hnew]
    · -- The name was settled before, and the new definition upgrades the one in its place or not.
      have hsettled : settledMethod given m.name = some earlier := hname ▸ h.settled earlier hmem
      have hown : m.name = (if upgrades m earlier then m else earlier).name := by
        split
        · rfl
        · exact hname.symm
      rw [if_pos hown, ← hown, hsettled]

/-- An entry changes the methods of a class only by a definition of one. -/
theorem methods_change (e : Entry) (c : ClassModel) :
    (e.change c).methods =
      match e.method? with
      | some m => ClassModel.insertMethod m c.methods
      | none => c.methods := by
  cases e with
  | dataField _ f =>
    rw [Entry.change, putDataField]
    split <;> rfl
  | _ => rfl

/-- The methods that entries leave are settled. -/
theorem methodsSettled_changeAll (entries : List Entry) (name : Text) :
    MethodsSettled (entries.filterMap Entry.method?) (changeAll entries (.empty name)).methods := by
  induction entries using List.reverseRecOn with
  | nil => exact ⟨rfl, fun m hm => absurd hm List.not_mem_nil⟩
  | append_singleton entries e ih =>
    rw [changeAll_concat, methods_change, List.filterMap_append, List.filterMap_cons, List.filterMap_nil]
    cases e.method? with
    | none => simpa using ih
    | some m => exact ih.insertMethod m

end Methods

/-! ## Data fields -/

section DataFields

variable {fields : List DataField} {methods : List Method} {c : ClassModel}

/-- What holds of the data fields of a class at any time: one for each name that was given and is not the name of a
method, in the order in which the names were first given, and each one the first definition of its name. -/
structure FieldsSettled (fields : List DataField) (methods : List Method) (dataFields : List DataField) : Prop where
  names : dataFields.map (·.name) = (fields.map (·.name)).eraseDups.filter (· ∉ methods.map (·.name))
  first : ∀ f ∈ dataFields, fields.find? (·.name = f.name) = some f

/-- A definition of a method takes the field of its name away and leaves the others settled. -/
theorem FieldsSettled.putMethod (h : FieldsSettled fields methods c.dataFields) (m : Method) :
    FieldsSettled fields (methods ++ [m]) (c.putMethod m).dataFields := by
  constructor
  · have hfilter : (c.dataFields.filter (·.name ≠ m.name)).map (·.name) =
        (c.dataFields.map (·.name)).filter (· ≠ m.name) := by
      rw [List.filter_map]
      rfl
    rw [ClassModel.putMethod, hfilter, h.names, List.filter_filter]
    refine List.filter_congr fun name _ => ?_
    rw [List.map_append, List.map_singleton, ← Bool.decide_and, decide_eq_decide, List.mem_append,
      List.mem_singleton, not_or, and_comm]
  · intro f hf
    exact h.first f (List.mem_of_mem_filter hf)

/-- A name is in use in a class as soon as a member of it was given. -/
theorem FieldsSettled.hasMember_iff (h : FieldsSettled fields methods c.dataFields)
    (hmethods : MethodsSettled methods c.methods) (name : Text) :
    c.hasMember name = true ↔ name ∈ methods.map (·.name) ∨ name ∈ fields.map (·.name) := by
  have hmethod : c.methods.any (·.name = name) = true ↔ name ∈ c.methods.map (·.name) := by simp
  have hfield : c.dataFields.any (·.name = name) = true ↔ name ∈ c.dataFields.map (·.name) := by simp
  rw [hasMember, Bool.or_eq_true, hmethod, hfield, hmethods.names, h.names, List.mem_filter, List.mem_eraseDups,
    List.mem_eraseDups, decide_eq_true_eq]
  by_cases hm : name ∈ methods.map (·.name)
  · simp [hm]
  · simp [hm]

/-- A definition of a field counts when no member of its name was given before, and leaves the fields settled. -/
theorem FieldsSettled.putDataField (h : FieldsSettled fields methods c.dataFields)
    (hmethods : MethodsSettled methods c.methods) (f : DataField) :
    FieldsSettled (fields ++ [f]) methods (c.putDataField f).dataFields := by
  have hfirst : ∀ g ∈ c.dataFields, (fields ++ [f]).find? (·.name = g.name) = some g := fun g hg => by
    rw [List.find?_append, h.first g hg, Option.some_or]
  have hused := h.hasMember_iff hmethods f.name
  rw [ClassModel.putDataField]
  by_cases hf : f.name ∈ fields.map (·.name)
  · -- A repeat, even of a field that a method has taken away since, changes nothing.
    rw [if_pos (hused.mpr (.inr hf))]
    refine ⟨?_, hfirst⟩
    rw [h.names, List.map_append, List.map_singleton, eraseDups_concat, if_pos hf]
  · have hnames : ((fields ++ [f]).map (·.name)).eraseDups = (fields.map (·.name)).eraseDups ++ [f.name] := by
      rw [List.map_append, List.map_singleton, eraseDups_concat, if_neg hf]
    by_cases hm : f.name ∈ methods.map (·.name)
    · -- The name is given for the first time, but belongs to a method.
      rw [if_pos (hused.mpr (.inl hm))]
      refine ⟨?_, hfirst⟩
      rw [h.names, hnames, List.filter_append, List.filter_cons_of_neg (by simpa using hm), List.filter_nil,
        List.append_nil]
    · rw [if_neg (fun hmem => (hused.mp hmem).elim hm hf)]
      constructor
      · rw [List.map_append, h.names, hnames, List.filter_append, List.filter_cons_of_pos (by simpa using hm)]
        rfl
      · intro g hg
        rw [List.mem_append, List.mem_singleton] at hg
        obtain hg | rfl := hg
        · exact hfirst g hg
        · have hnone : fields.find? (·.name = g.name) = none := by
            rw [List.find?_eq_none]
            intro d hd hname
            exact hf (List.mem_map.mpr ⟨d, hd, by simpa using hname⟩)
          rw [List.find?_append, hnone, Option.none_or, List.find?_singleton, if_pos (decide_eq_true rfl)]

/-- The data fields that entries leave are settled. -/
theorem fieldsSettled_changeAll (entries : List Entry) (name : Text) :
    FieldsSettled (entries.filterMap Entry.dataField?) (entries.filterMap Entry.method?)
      (changeAll entries (.empty name)).dataFields := by
  induction entries using List.reverseRecOn with
  | nil => exact ⟨rfl, fun f hf => absurd hf List.not_mem_nil⟩
  | append_singleton entries e ih =>
    rw [changeAll_concat, List.filterMap_append, List.filterMap_append]
    cases e with
    | method _ m =>
      simp only [List.filterMap_cons, List.filterMap_nil, Entry.method?, Entry.dataField?, List.append_nil]
      exact ih.putMethod m
    | dataField _ f =>
      simp only [List.filterMap_cons, List.filterMap_nil, Entry.method?, Entry.dataField?, List.append_nil]
      exact ih.putDataField (methodsSettled_changeAll entries name) f
    | _ =>
      simp only [List.filterMap_cons, List.filterMap_nil, Entry.method?, Entry.dataField?, List.append_nil]
      exact ih

end DataFields

/-! ## The members of a class -/

namespace Model

variable {entries : List Entry} {c : ClassModel}

/-- The methods of a class in a model are settled. -/
theorem methodsSettled_of_mem (hc : c ∈ (ofEntries entries).classes) :
    MethodsSettled (methodsGiven c.name entries) c.methods := by
  rw [eq_changeAll_of_mem hc, changeAll_name]
  exact methodsSettled_changeAll _ _

/-- The data fields of a class in a model are settled. -/
theorem fieldsSettled_of_mem (hc : c ∈ (ofEntries entries).classes) :
    FieldsSettled (dataFieldsGiven c.name entries) (methodsGiven c.name entries) c.dataFields := by
  rw [eq_changeAll_of_mem hc, changeAll_name]
  exact fieldsSettled_changeAll _ _

/-- **The methods of a model.** Any sequence of entries leaves the classes it is about, each with one method for every
name that a method of it was given, in the order of the first definitions. It is the first definition of its name
that names a receiver, or the first when none does; so its callable has a receiver exactly when some definition names
one. -/
theorem methods_ofEntries (entries : List Entry) :
    (∀ name, name ∈ (ofEntries entries).classNames ↔ ∃ e ∈ entries, e.className? = some name) ∧
      ∀ c ∈ (ofEntries entries).classes,
        c.methods.map (·.name) = ((methodsGiven c.name entries).map (·.name)).eraseDups ∧
          ∀ m ∈ c.methods,
            settledMethod (methodsGiven c.name entries) m.name = some m ∧
              ((Callable.ofText m.type).receiver?.isSome = true ↔
                ∃ d ∈ methodsGiven c.name entries, d.name = m.name ∧ namesReceiver d.type = true) := by
  refine ⟨fun name => mem_classNames_ofEntries, fun c hc => ?_⟩
  have h := methodsSettled_of_mem hc
  refine ⟨h.names, fun m hm => ⟨h.settled m hm, ?_⟩⟩
  rw [isSome_receiver?]
  exact (of_settledMethod (h.settled m hm)).2.2

/-- A definition with a receiver replaces one without, across an entry about another class. -/
theorem methods_of_upgraded_method :
    ∃ c ∈ (ofEntries [.method "P" ⟨"go", "fun()", none⟩, .classStart "Q",
        .method "P" ⟨"go", "fun(self: P)", none⟩]).classes,
      c.methods.map (·.name) = ["go"] ∧ ∀ m ∈ c.methods, (Callable.ofText m.type).receiver?.isSome = true := by
  have hc : (⟨"P", [⟨"go", "fun(self: P)", none⟩], [], []⟩ : ClassModel) ∈
      (ofEntries [.method "P" ⟨"go", "fun()", none⟩, .classStart "Q",
        .method "P" ⟨"go", "fun(self: P)", none⟩]).classes := by decide
  have h := (methods_ofEntries _).2 _ hc
  refine ⟨_, hc, h.1.trans (by decide), fun m hm => ((h.2 m hm).2).mpr ?_⟩
  rw [List.mem_singleton.mp hm]
  decide

/-- **The data fields of a model.** Any sequence of entries leaves the classes it is about, each with one data field
for every name that a data field but no method of it was given, in the order of the first definitions, and it is the
first definition. So all members of a class have different names. An entry about one class, or about none, leaves
every other class as it was. -/
theorem dataFields_ofEntries (entries : List Entry) :
    (∀ name, (ofEntries entries).class? name = none ↔ entriesOf name entries = []) ∧
      (∀ c ∈ (ofEntries entries).classes,
        c.dataFields.map (·.name) =
            ((dataFieldsGiven c.name entries).map (·.name)).eraseDups.filter
              (· ∉ (methodsGiven c.name entries).map (·.name)) ∧
          (∀ f ∈ c.dataFields, (dataFieldsGiven c.name entries).find? (·.name = f.name) = some f) ∧
          (c.methods.map (·.name) ++ c.dataFields.map (·.name)).Nodup) ∧
      ∀ (e : Entry) (name : Text), e.className? ≠ some name →
        ((ofEntries entries).add e).class? name = (ofEntries entries).class? name := by
  refine ⟨fun name => ?_, fun c hc => ?_, fun e name hne => ?_⟩
  · rw [class?_ofEntries]
    by_cases h : entriesOf name entries = []
    · simp [h]
    · simp [h]
  · have hmethods := methodsSettled_of_mem hc
    have hfields := fieldsSettled_of_mem hc
    refine ⟨hfields.names, hfields.first, ?_⟩
    rw [hmethods.names, hfields.names, List.nodup_append]
    refine ⟨nodup_eraseDups _, (nodup_eraseDups _).filter _, fun name hm other hf => ?_⟩
    rw [List.mem_eraseDups] at hm
    rw [List.mem_filter, decide_eq_true_eq] at hf
    rintro rfl
    exact hf.2 hm
  · rw [class?_add, if_neg hne]

/-- A method takes its name from a data field, which cannot come back. -/
theorem dataFields_of_taken_name :
    ∃ c ∈ (ofEntries [.dataField "P" ⟨"go", "number", none, false⟩, .dataField "P" ⟨"x", "number", none, false⟩,
        .method "P" ⟨"go", "fun()", none⟩, .dataField "P" ⟨"go", "number", none, false⟩]).classes,
      c.dataFields.map (·.name) = ["x"] ∧ (c.methods.map (·.name) ++ c.dataFields.map (·.name)).Nodup := by
  have hc : (⟨"P", [⟨"go", "fun()", none⟩], [⟨"x", "number", none, false⟩], []⟩ : ClassModel) ∈
      (ofEntries [.dataField "P" ⟨"go", "number", none, false⟩, .dataField "P" ⟨"x", "number", none, false⟩,
        .method "P" ⟨"go", "fun()", none⟩, .dataField "P" ⟨"go", "number", none, false⟩]).classes := by decide
  have h := (dataFields_ofEntries _).2.1 _ hc
  exact ⟨_, hc, h.1.trans (by decide), h.2.2⟩

end Model

end LuaTypings
