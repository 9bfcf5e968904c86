import ClassModel.Proofs.Snapshot.NormalForm
import Mathlib.Data.List.Forall2

/-!
# Filling a class

What restoring makes of one class. `World.Built` relates a class to the snapshot it was made from:
each reference is written by name in the class and has not been resolved yet. `restoreClass_accepts`
says that filling a class goes through exactly if its names are well formed, that the class is then
built as the snapshot says, and that nothing else has changed.
-/

namespace ClassModel

open Change Name

def RefSnapshot.target (c : ClassId) : RefSnapshot → Target
  | .qualified n => .qualified n c
  | .unqualified n => .unqualified n c

namespace World

section
variable (w : World) (c : ClassId)

structure BuiltRef (x : RefSnapshot) (r : RefId) : Prop where
  lt : r.index < w.references.size
  eq : w.reference r = ⟨x.target c, none⟩

structure BuiltParameter (x : ParameterSnapshot) (p : Parameter) : Prop where
  name : p.name = x.name
  type : w.BuiltRef c x.type p.type

structure BuiltField (x : FieldSnapshot) (f : FieldId) : Prop where
  lt : f.index < w.fields.size
  owner : (w.field f).owner = c
  name : (w.field f).name = x.name
  modifiers : (w.field f).modifiers = x.modifiers
  type : w.BuiltRef c x.type (w.field f).type

structure BuiltMethod (x : MethodSnapshot) (m : MethodId) : Prop where
  lt : m.index < w.methods.size
  owner : (w.method m).owner = c
  name : (w.method m).name = x.name
  modifiers : (w.method m).modifiers = x.modifiers
  returnType : w.BuiltRef c x.returnType (w.method m).returnType
  parameters : List.Forall₂ (w.BuiltParameter c) x.parameters (w.method m).parameters.list

structure BuiltConstructor (x : ConstructorSnapshot) (k : ConstructorId) : Prop where
  lt : k.index < w.constructors.size
  owner : (w.constructor k).owner = c
  modifiers : (w.constructor k).modifiers = x.modifiers
  parameters : List.Forall₂ (w.BuiltParameter c) x.parameters (w.constructor k).parameters.list

structure Built (x : ClassSnapshot) : Prop where
  lt : c.index < w.nodes.size
  kind : (w.node c).kind = .declared
  package : (w.node c).package = x.package
  simpleName : (w.node c).simpleName = x.simpleName
  modifiers : (w.node c).modifiers = x.modifiers
  isInterface : (w.node c).isInterface = x.isInterface
  isAnnotationType : (w.node c).isAnnotationType = x.isAnnotationType
  isUnresolved : (w.node c).isUnresolved = x.isUnresolved
  imports : (w.node c).imports.map Import.text = x.imports
  superclass : List.Forall₂ (w.BuiltRef c) x.superclass.toList (w.node c).superclass.toList
  interfaces : List.Forall₂ (w.BuiltRef c) x.interfaces (w.node c).interfaces
  fields : List.Forall₂ (w.BuiltField c) x.fields (w.node c).fields
  methods : List.Forall₂ (w.BuiltMethod c) x.methods (w.node c).methods
  constructors : List.Forall₂ (w.BuiltConstructor c) x.constructors (w.node c).constructors

structure Fills (cs : List ClassId) (w w' : World) : Prop where
  size : w'.nodes.size = w.nodes.size
  node : ∀ d, d ∉ cs → w'.node d = w.node d
  identity : ∀ d, (w'.node d).lookup = (w.node d).lookup ∧ (w'.node d).settings = (w.node d).settings ∧
    (w'.node d).imports = (w.node d).imports
  fields : w.fields.Extends w'.fields
  methods : w.methods.Extends w'.methods
  constructors : w.constructors.Extends w'.constructors
  references : w.references.Extends w'.references
  loaders : w'.loaders = w.loaders
  directories : w'.directories = w.directories
  gone : w'.gone = w.gone

end

section
variable {w w₀ w₁ w₂ w' : World} {c : ClassId} {cs : List ClassId}

theorem Fills.refl (cs : List ClassId) (w : World) : Fills cs w w :=
  ⟨rfl, fun _ _ => rfl, fun _ => ⟨rfl, rfl, rfl⟩, .refl _, .refl _, .refl _, .refl _, rfl, rfl, rfl⟩

theorem Fills.trans (h₁ : Fills cs w w₁) (h₂ : Fills cs w₁ w₂) : Fills cs w w₂ where
  size := h₂.size.trans h₁.size
  node d hd := (h₂.node d hd).trans (h₁.node d hd)
  identity d := by
    obtain ⟨a, b, e⟩ := h₂.identity d
    obtain ⟨a', b', e'⟩ := h₁.identity d
    exact ⟨a.trans a', b.trans b', e.trans e'⟩
  fields := h₁.fields.trans h₂.fields
  methods := h₁.methods.trans h₂.methods
  constructors := h₁.constructors.trans h₂.constructors
  references := h₁.references.trans h₂.references
  loaders := h₂.loaders.trans h₁.loaders
  directories := h₂.directories.trans h₁.directories
  gone := h₂.gone.trans h₁.gone

theorem Fills.mono {ds : List ClassId} (h : Fills cs w w') (hs : cs ⊆ ds) : Fills ds w w' :=
  { h with node := fun d hd => h.node d fun hc => hd (hs hc) }

/-! ### What a step of filling leaves alone -/

theorem Fills.withReference (h : Fills cs w₀ w) (t : Target) : Fills cs w₀ (w.withReference t) :=
  { h with references := h.references.trans (.push _ _) }

theorem Fills.withField (h : Fills cs w₀ w) (x : Field) : Fills cs w₀ (w.withField x) :=
  { h with fields := h.fields.trans (.push _ _) }

theorem Fills.withMethod (h : Fills cs w₀ w) (x : Method) : Fills cs w₀ (w.withMethod x) :=
  { h with methods := h.methods.trans (.push _ _) }

theorem Fills.withConstructor (h : Fills cs w₀ w) (x : Constructor) : Fills cs w₀ (w.withConstructor x) :=
  { h with constructors := h.constructors.trans (.push _ _) }

theorem Fills.editField (h : Fills cs w₀ w) {i : FieldId} (hi : w₀.fields.size ≤ i.index) (f : Field → Field) :
    Fills cs w₀ (w.editField i f) :=
  { h with fields := h.fields.modify f hi }

theorem Fills.editMethod (h : Fills cs w₀ w) {m : MethodId} (hm : w₀.methods.size ≤ m.index)
    (f : Method → Method) : Fills cs w₀ (w.editMethod m f) :=
  { h with methods := h.methods.modify f hm }

theorem Fills.editConstructor (h : Fills cs w₀ w) {k : ConstructorId} (hk : w₀.constructors.size ≤ k.index)
    (f : Constructor → Constructor) : Fills cs w₀ (w.editConstructor k f) :=
  { h with constructors := h.constructors.modify f hk }

/-- An edit that leaves alone who the class is. -/
theorem Fills.editNode (h : Fills cs w₀ w) (hc : c ∈ cs) {f : ClassNode → ClassNode}
    (hf : ∀ n, (f n).lookup = n.lookup ∧ (f n).settings = n.settings ∧ (f n).imports = n.imports) :
    Fills cs w₀ (w.editNode c f) :=
  { h with
    size := (Store.size_modify _ _ _).trans h.size
    node := fun d hd => by rw [node_editNode_of_ne w (fun e => hd (by rw [e]; exact hc)), h.node d hd]
    identity := fun d => by
      obtain ⟨a, b, e⟩ := h.identity d
      rw [node_editNode]
      split
      · obtain ⟨a', b', e'⟩ := hf (w.node d)
        exact ⟨a'.trans a, b'.trans b, e'.trans e⟩
      · exact ⟨a, b, e⟩ }

/-! ### What is built stays built -/

theorem BuiltRef.mono {x : RefSnapshot} {r : RefId} (h : w.BuiltRef c x r)
    (he : w.references.Extends w'.references) : w'.BuiltRef c x r :=
  ⟨Nat.lt_of_lt_of_le h.lt he.size_le, by rw [← h.eq]; exact he.get_eq _ h.lt⟩

theorem BuiltParameter.mono {x : ParameterSnapshot} {p : Parameter} (h : w.BuiltParameter c x p)
    (he : w.references.Extends w'.references) : w'.BuiltParameter c x p := ⟨h.name, h.type.mono he⟩

theorem BuiltField.mono {x : FieldSnapshot} {f : FieldId} (h : w.BuiltField c x f)
    (he : w.references.Extends w'.references) (hf : w.fields.Extends w'.fields) : w'.BuiltField c x f := by
  have heq : w'.field f = w.field f := hf.get_eq _ h.lt
  exact ⟨Nat.lt_of_lt_of_le h.lt hf.size_le, by rw [heq, h.owner], by rw [heq, h.name],
    by rw [heq, h.modifiers], by rw [heq]; exact h.type.mono he⟩

theorem BuiltMethod.mono {x : MethodSnapshot} {m : MethodId} (h : w.BuiltMethod c x m)
    (he : w.references.Extends w'.references) (hm : w.methods.Extends w'.methods) : w'.BuiltMethod c x m := by
  have heq : w'.method m = w.method m := hm.get_eq _ h.lt
  exact ⟨Nat.lt_of_lt_of_le h.lt hm.size_le, by rw [heq, h.owner], by rw [heq, h.name],
    by rw [heq, h.modifiers], by rw [heq]; exact h.returnType.mono he,
    by rw [heq]; exact h.parameters.imp fun _ _ hp => hp.mono he⟩

theorem BuiltConstructor.mono {x : ConstructorSnapshot} {k : ConstructorId} (h : w.BuiltConstructor c x k)
    (he : w.references.Extends w'.references) (hk : w.constructors.Extends w'.constructors) :
    w'.BuiltConstructor c x k := by
  have heq : w'.constructor k = w.constructor k := hk.get_eq _ h.lt
  exact ⟨Nat.lt_of_lt_of_le h.lt hk.size_le, by rw [heq, h.owner], by rw [heq, h.modifiers],
    by rw [heq]; exact h.parameters.imp fun _ _ hp => hp.mono he⟩

/-- The members and references of a class are still those of its snapshot after any filling, so only
its own record matters. -/
theorem Built.update {x : ClassSnapshot} (h : w.Built c x) (hf : Fills cs w w') {y : ClassSnapshot}
    {n : ClassNode} (hn : w'.node c = n)
    (flags : n.kind = .declared ∧ n.package = y.package ∧ n.simpleName = y.simpleName ∧
      n.modifiers = y.modifiers ∧ n.isInterface = y.isInterface ∧ n.isAnnotationType = y.isAnnotationType ∧
      n.isUnresolved = y.isUnresolved ∧ n.imports.map Import.text = y.imports)
    (superclass : List.Forall₂ (w'.BuiltRef c) x.superclass.toList (w.node c).superclass.toList →
      List.Forall₂ (w'.BuiltRef c) y.superclass.toList n.superclass.toList)
    (interfaces : List.Forall₂ (w'.BuiltRef c) x.interfaces (w.node c).interfaces →
      List.Forall₂ (w'.BuiltRef c) y.interfaces n.interfaces)
    (fields : List.Forall₂ (w'.BuiltField c) x.fields (w.node c).fields →
      List.Forall₂ (w'.BuiltField c) y.fields n.fields)
    (methods : List.Forall₂ (w'.BuiltMethod c) x.methods (w.node c).methods →
      List.Forall₂ (w'.BuiltMethod c) y.methods n.methods)
    (constructors : List.Forall₂ (w'.BuiltConstructor c) x.constructors (w.node c).constructors →
      List.Forall₂ (w'.BuiltConstructor c) y.constructors n.constructors) : w'.Built c y := by
  subst hn
  obtain ⟨h₁, h₂, h₃, h₄, h₅, h₆, h₇, h₈⟩ := flags
  exact ⟨by rw [hf.size]; exact h.lt, h₁, h₂, h₃, h₄, h₅, h₆, h₇, h₈,
    superclass (h.superclass.imp fun _ _ hr => hr.mono hf.references),
    interfaces (h.interfaces.imp fun _ _ hr => hr.mono hf.references),
    fields (h.fields.imp fun _ _ hr => hr.mono hf.references hf.fields),
    methods (h.methods.imp fun _ _ hr => hr.mono hf.references hf.methods),
    constructors (h.constructors.imp fun _ _ hr => hr.mono hf.references hf.constructors)⟩

theorem Built.extend {x : ClassSnapshot} (h : w.Built c x) (hn : w'.node c = w.node c)
    (hc : c.index < w'.nodes.size) (hr : w.references.Extends w'.references) (hf : w.fields.Extends w'.fields)
    (hm : w.methods.Extends w'.methods) (hk : w.constructors.Extends w'.constructors) : w'.Built c x := by
  refine ⟨hc, ?_, ?_, ?_, ?_, ?_, ?_, ?_, ?_, ?_, ?_, ?_, ?_, ?_⟩ <;> rw [hn]
  · exact h.kind
  · exact h.package
  · exact h.simpleName
  · exact h.modifiers
  · exact h.isInterface
  · exact h.isAnnotationType
  · exact h.isUnresolved
  · exact h.imports
  · exact h.superclass.imp fun _ _ hr' => hr'.mono hr
  · exact h.interfaces.imp fun _ _ hr' => hr'.mono hr
  · exact h.fields.imp fun _ _ hf' => hf'.mono hr hf
  · exact h.methods.imp fun _ _ hm' => hm'.mono hr hm
  · exact h.constructors.imp fun _ _ hk' => hk'.mono hr hk

/-- A class that is not filled stays as it is built. -/
theorem Built.mono {x : ClassSnapshot} (h : w.Built c x) (hf : Fills cs w w') (hc : c ∉ cs) : w'.Built c x :=
  h.extend (hf.node c hc) (by rw [hf.size]; exact h.lt) hf.references hf.fields hf.methods hf.constructors

end

/-! ## Members under construction -/

structure Filled (c : ClassId) (w₀ : World) (x : ClassSnapshot) (w : World) : Prop where
  fills : Fills [c] w₀ w
  built : w.Built c x

structure Grown (c : ClassId) (w₀ : World) (n : ClassNode) (w : World) : Prop where
  fills : Fills [c] w₀ w
  node : w.node c = n

section
variable {w w₀ : World} {c : ClassId} {n : ClassNode}

theorem Grown.withReference (h : Grown c w₀ n w) (t : Target) : Grown c w₀ n (w.withReference t) :=
  ⟨h.fills.withReference t, h.node⟩

theorem Grown.editField (h : Grown c w₀ n w) {i : FieldId} (hi : w₀.fields.size ≤ i.index) (f : Field → Field) :
    Grown c w₀ n (w.editField i f) := ⟨h.fills.editField hi f, h.node⟩

theorem Grown.editMethod (h : Grown c w₀ n w) {m : MethodId} (hm : w₀.methods.size ≤ m.index)
    (f : Method → Method) : Grown c w₀ n (w.editMethod m f) := ⟨h.fills.editMethod hm f, h.node⟩

theorem Grown.editConstructor (h : Grown c w₀ n w) {k : ConstructorId} (hk : w₀.constructors.size ≤ k.index)
    (f : Constructor → Constructor) : Grown c w₀ n (w.editConstructor k f) :=
  ⟨h.fills.editConstructor hk f, h.node⟩

/-- The record of a class that is built agrees with the snapshot in all that is not a list. -/
theorem Built.flags {x : ClassSnapshot} (h : w.Built c x) : (w.node c).kind = .declared ∧
    (w.node c).package = x.package ∧ (w.node c).simpleName = x.simpleName ∧
    (w.node c).modifiers = x.modifiers ∧ (w.node c).isInterface = x.isInterface ∧
    (w.node c).isAnnotationType = x.isAnnotationType ∧ (w.node c).isUnresolved = x.isUnresolved ∧
    (w.node c).imports.map Import.text = x.imports :=
  ⟨h.kind, h.package, h.simpleName, h.modifiers, h.isInterface, h.isAnnotationType, h.isUnresolved, h.imports⟩

theorem builtRef_next (w : World) (c : ClassId) (x : RefSnapshot) :
    (w.withReference (x.target c)).BuiltRef c x w.nextReference :=
  ⟨(by show w.references.size < (w.references.push _).size; simp), reference_next _ _⟩

theorem builtField_next (w : World) {x : FieldSnapshot} {r : RefId} (h : w.BuiltRef c x.type r) :
    (w.withField ⟨c, x.name, x.modifiers, r⟩).BuiltField c x w.nextField := by
  have hself : (w.withField ⟨c, x.name, x.modifiers, r⟩).field w.nextField = ⟨c, x.name, x.modifiers, r⟩ :=
    Store.get_push_self _ _
  exact ⟨(by show w.fields.size < (w.fields.push _).size; simp), by rw [hself], by rw [hself], by rw [hself],
    by rw [hself]; exact h.mono (.refl _)⟩

theorem builtMethod_next (w : World) {x : MethodSnapshot} (hx : x.parameters = []) {r : RefId}
    (h : w.BuiltRef c x.returnType r) :
    (w.withMethod ⟨c, x.name, x.modifiers, r, ⟨[], 0⟩⟩).BuiltMethod c x w.nextMethod := by
  have hself : (w.withMethod ⟨c, x.name, x.modifiers, r, ⟨[], 0⟩⟩).method w.nextMethod =
      ⟨c, x.name, x.modifiers, r, ⟨[], 0⟩⟩ := Store.get_push_self _ _
  exact ⟨(by show w.methods.size < (w.methods.push _).size; simp), by rw [hself], by rw [hself], by rw [hself],
    by rw [hself]; exact h.mono (.refl _), by rw [hself, hx]; exact .nil⟩

theorem builtConstructor_next (w : World) (c : ClassId) {x : ConstructorSnapshot} (hx : x.parameters = []) :
    (w.withConstructor ⟨c, x.modifiers, ⟨[], 0⟩⟩).BuiltConstructor c x w.nextConstructor := by
  have hself : (w.withConstructor ⟨c, x.modifiers, ⟨[], 0⟩⟩).constructor w.nextConstructor =
      ⟨c, x.modifiers, ⟨[], 0⟩⟩ := Store.get_push_self _ _
  exact ⟨(by show w.constructors.size < (w.constructors.push _).size; simp), by rw [hself], by rw [hself],
    by rw [hself, hx]; exact .nil⟩

theorem BuiltField.edit {x y : FieldSnapshot} {f : FieldId} (h : w.BuiltField c x f) {g : Field → Field}
    (hg : (g (w.field f)).owner = c ∧ (g (w.field f)).name = y.name ∧ (g (w.field f)).modifiers = y.modifiers ∧
      w.BuiltRef c y.type (g (w.field f)).type) : (w.editField f g).BuiltField c y f := by
  have hself : (w.editField f g).field f = g (w.field f) := Store.get_modify_self _ g h.lt
  obtain ⟨h₁, h₂, h₃, h₄⟩ := hg
  exact ⟨(by show f.index < (w.fields.modify _ _).size; rw [Store.size_modify]; exact h.lt), by rw [hself, h₁],
    by rw [hself, h₂], by rw [hself, h₃], by rw [hself]; exact h₄.mono (.refl _)⟩

theorem BuiltMethod.edit {x y : MethodSnapshot} {m : MethodId} (h : w.BuiltMethod c x m) {g : Method → Method}
    (hg : (g (w.method m)).owner = c ∧ (g (w.method m)).name = y.name ∧ (g (w.method m)).modifiers = y.modifiers ∧
      w.BuiltRef c y.returnType (g (w.method m)).returnType ∧
      List.Forall₂ (w.BuiltParameter c) y.parameters (g (w.method m)).parameters.list) :
    (w.editMethod m g).BuiltMethod c y m := by
  have hself : (w.editMethod m g).method m = g (w.method m) := Store.get_modify_self _ g h.lt
  obtain ⟨h₁, h₂, h₃, h₄, h₅⟩ := hg
  exact ⟨(by show m.index < (w.methods.modify _ _).size; rw [Store.size_modify]; exact h.lt), by rw [hself, h₁],
    by rw [hself, h₂], by rw [hself, h₃], by rw [hself]; exact h₄.mono (.refl _),
    by rw [hself]; exact h₅.imp fun _ _ hp => hp.mono (.refl _)⟩

theorem BuiltConstructor.edit {x y : ConstructorSnapshot} {k : ConstructorId} (h : w.BuiltConstructor c x k)
    {g : Constructor → Constructor} (hg : (g (w.constructor k)).owner = c ∧
      (g (w.constructor k)).modifiers = y.modifiers ∧
      List.Forall₂ (w.BuiltParameter c) y.parameters (g (w.constructor k)).parameters.list) :
    (w.editConstructor k g).BuiltConstructor c y k := by
  have hself : (w.editConstructor k g).constructor k = g (w.constructor k) := Store.get_modify_self _ g h.lt
  obtain ⟨h₁, h₂, h₃⟩ := hg
  exact ⟨(by show k.index < (w.constructors.modify _ _).size; rw [Store.size_modify]; exact h.lt),
    by rw [hself, h₁], by rw [hself, h₂], by rw [hself]; exact h₃.imp fun _ _ hp => hp.mono (.refl _)⟩

theorem forall₂_parameters_append {w' : World} {ps : List ParameterSnapshot} {qs : List Parameter}
    (h : List.Forall₂ (w.BuiltParameter c) ps qs) (he : w.references.Extends w'.references)
    {p : ParameterSnapshot} {r : RefId} (hr : w'.BuiltRef c p.type r) :
    List.Forall₂ (w'.BuiltParameter c) (ps ++ [p]) (qs ++ [⟨p.name, r⟩]) :=
  List.rel_append (h.imp fun _ _ hp => hp.mono he) (.cons ⟨rfl, hr⟩ .nil)

end

end World

/-! ## Edits made from snapshots -/

theorem RefSnapshot.superclassEdit_makes (x : RefSnapshot) (c : ClassId) (w : World) :
    (ClassEdit.apply c x.superclassEdit).Makes w (IsClassName x.name ∧ w.Editable c) .nothing
      ((w.withReference (x.target c)).editNode c fun n => { n with superclass := some w.nextReference }) := by
  cases x with
  | qualified n => exact ClassEdit.superclassByName_makes c w n _
  | unqualified n => exact ClassEdit.superclassByName_makes c w n _

theorem RefSnapshot.interfaceEdit_makes (x : RefSnapshot) (c : ClassId) (w : World) :
    (ClassEdit.apply c x.interfaceEdit).Makes w (IsClassName x.name ∧ w.Editable c) .nothing
      ((w.withReference (x.target c)).editNode c fun n =>
        { n with interfaces := n.interfaces ++ [w.nextReference] }) := by
  cases x with
  | qualified n => exact ClassEdit.interfaceByName_makes c w n _
  | unqualified n => exact ClassEdit.interfaceByName_makes c w n _

theorem RefSnapshot.fieldEdit_makes (x : RefSnapshot) (f : FieldId) (w : World) :
    (FieldEdit.apply f x.fieldEdit).Makes w (IsClassName x.name) .nothing
      ((w.withReference (x.target (w.field f).owner)).editField f fun z =>
        { z with type := w.nextReference }) := by
  cases x with
  | qualified n => exact FieldEdit.setType_makes f w n
  | unqualified n => exact FieldEdit.setTypeUnqualified_makes f w n

theorem RefSnapshot.returnEdit_makes (x : RefSnapshot) (m : MethodId) (w : World) :
    (MethodEdit.apply m x.returnEdit).Makes w (IsClassName x.name) .nothing
      ((w.withReference (x.target (w.method m).owner)).editMethod m fun z =>
        { z with returnType := w.nextReference }) := by
  cases x with
  | qualified n => exact MethodEdit.setReturnType_makes m w n
  | unqualified n => exact MethodEdit.setReturnTypeUnqualified_makes m w n

theorem ParameterSnapshot.edit_makes (p : ParameterSnapshot) (owner : ClassId) (ps : Parameters) (w : World) :
    (ParameterEdit.apply owner ps p.edit).Makes w p.Named
      (⟨ps.list ++ [⟨p.name, w.nextReference⟩], ps.made + 1⟩, .nothing)
      (w.withReference (p.type.target owner)) := by
  obtain ⟨name, type⟩ := p
  cases type with
  | qualified n => exact (ParameterEdit.addNamed_makes w ps name n _).congr and_comm
  | unqualified n => exact (ParameterEdit.addNamed_makes w ps name n _).congr and_comm

/-- Two changes neither of which is ever refused. -/
theorem Change.Accepts.seq {x : Change α} {f : α → Change β} {w : World} {r : α → World → Prop}
    {s : β → World → Prop} (hx : x.Accepts w True r) (hf : ∀ a w', r a w' → (f a).Accepts w' True s) :
    (x >>= f).Accepts w True s :=
  (hx.bind fun a w' _ h => hf a w' h).congr (and_self_iff) fun _ _ _ h => h

/-- A change for each element in order, each of which keeps an invariant of what is done. -/
theorem Change.Accepts.each {g : List α → Change Unit} {k : α → Change β} (nil : g [] = Pure.pure ())
    (cons : ∀ x xs, g (x :: xs) = k x >>= fun _ => g xs) {p : α → Prop} {I : List α → World → Prop}
    (hstep : ∀ done x w, I done w → (k x).Accepts w (p x) fun _ w' => I (done ++ [x]) w') :
    ∀ (xs done : List α) (w : World), I done w → (g xs).Accepts w (∀ x ∈ xs, p x) fun _ w' => I (done ++ xs) w' := by
  intro xs
  induction xs with
  | nil =>
    intro done w h
    rw [nil]
    exact (Accepts.pure (r := fun _ w' => I done w') h).congr (by simp) fun _ _ _ h => by simpa using h
  | cons x xs ih =>
    intro done w h
    rw [cons]
    exact ((hstep done x w h).bind fun _ w' _ h' => ih (done ++ [x]) w' h').congr (by simp) fun _ _ _ h => by
      simpa using h

namespace Snapshot

open World

section
variable {c : ClassId} {w w₀ : World} {y : ClassSnapshot}

theorem restoreField_accepts (h : Filled c w₀ y w) (x : FieldSnapshot) :
    (restoreField c x).Accepts w x.Named fun _ w' => Filled c w₀ { y with fields := y.fields ++ [x] } w' := by
  let f := w.nextField
  let n := { w.node c with fields := (w.node c).fields ++ [f], fieldsMade := (w.node c).fieldsMade + 1 }
  let Now (x : FieldSnapshot) (w' : World) := Grown c w n w' ∧ w'.BuiltField c x f
  let fresh : FieldSnapshot := ⟨(w.node c).settings.memberName (w.node c).fieldsMade, .none,
    .qualified (w.node c).settings.defaultFieldType⟩
  have hnew : w.fields.size ≤ f.index := Nat.le_refl _
  have hadd : (ClassEdit.apply c .addField).Accepts w True fun made w' => made = .field f ∧ Now fresh w' := by
    refine (ClassEdit.addNewField_makes c w |>.congr (q := True) (by simp [Editable, h.built.kind])).accepts
      fun _ => ⟨rfl, ⟨?_, ?_⟩, ?_⟩
    · exact (((Fills.refl [c] w).withReference _).withField _).editNode (by simp) fun _ => ⟨rfl, rfl, rfl⟩
    · exact node_editNode_self (by exact h.built.lt) _
    · exact (builtField_next (w.withReference _) (builtRef_next w c fresh.type)).mono (.refl _) (.refl _)
  have hname (w' : World) (hw' : Now fresh w') : (FieldEdit.apply f (.setName x.name)).Accepts w'
      (IsIdentifier x.name) fun _ w'' => Now { fresh with name := x.name } w'' :=
    (FieldEdit.setName_makes f w' x.name).accepts fun _ => ⟨hw'.1.editField hnew _,
      hw'.2.edit ⟨hw'.2.owner, rfl, hw'.2.modifiers, hw'.2.type⟩⟩
  have hmodifiers (w' : World) (hw' : Now { fresh with name := x.name } w') :
      (FieldEdit.apply f (.setModifiers x.modifiers)).Accepts w' True
        fun _ w'' => Now { x with type := fresh.type } w'' :=
    (FieldEdit.setModifiers_makes f w' x.modifiers).accepts fun _ => ⟨hw'.1.editField hnew _,
      hw'.2.edit ⟨hw'.2.owner, hw'.2.name, rfl, hw'.2.type⟩⟩
  have htype (w' : World) (hw' : Now { x with type := fresh.type } w') :
      (FieldEdit.apply f x.type.fieldEdit).Accepts w' (IsClassName x.type.name) fun _ w'' => Now x w'' := by
    refine (x.type.fieldEdit_makes f w').accepts fun _ => ?_
    rw [hw'.2.owner]
    have hw'' : (w'.withReference (x.type.target c)).BuiltField c _ f := hw'.2.mono (.push _ _) (.refl _)
    exact ⟨(hw'.1.withReference _).editField hnew _,
      hw''.edit ⟨hw''.owner, hw''.name, hw''.modifiers, builtRef_next w' c x.type⟩⟩
  unfold restoreField
  refine (hadd.bind (q := x.Named) (s := fun _ w' => Now x w') ?_).congr (by simp) ?_
  · rintro _ w₁ - ⟨rfl, h₁⟩
    exact ((hname w₁ h₁).bind fun _ w₂ _ h₂ => (hmodifiers w₂ h₂).bind fun _ w₃ _ h₃ =>
      (htype w₃ h₃).bind fun _ w₄ _ h₄ => Accepts.pure (a := ()) (r := fun _ w' => Now x w') h₄).congr
      (by simp [FieldSnapshot.Named]) fun _ _ _ h => h
  · rintro _ w' - ⟨hw', hf⟩
    refine ⟨h.fills.trans hw'.fills, h.built.update hw'.fills hw'.node ?_ id id (fun hfs => ?_) id id⟩
    · exact h.built.flags
    · exact List.rel_append hfs (.cons hf .nil)

theorem restoreMethod_accepts (h : Filled c w₀ y w) (x : MethodSnapshot) :
    (restoreMethod c x).Accepts w x.Named fun _ w' => Filled c w₀ { y with methods := y.methods ++ [x] } w' := by
  let m := w.nextMethod
  let n := { w.node c with methods := (w.node c).methods ++ [m], methodsMade := (w.node c).methodsMade + 1 }
  let Now (x : MethodSnapshot) (w' : World) := Grown c w n w' ∧ w'.BuiltMethod c x m
  let fresh : MethodSnapshot := ⟨(w.node c).settings.memberName (w.node c).methodsMade, .none,
    .qualified (w.node c).settings.defaultReturnType, []⟩
  have hnew : w.methods.size ≤ m.index := Nat.le_refl _
  have hadd : (ClassEdit.apply c .addMethod).Accepts w True fun made w' => made = .method m ∧ Now fresh w' := by
    refine (ClassEdit.addNewMethod_makes c w |>.congr (q := True) (by simp [Editable, h.built.kind])).accepts
      fun _ => ⟨rfl, ⟨?_, ?_⟩, ?_⟩
    · exact (((Fills.refl [c] w).withReference _).withMethod _).editNode (by simp) fun _ => ⟨rfl, rfl, rfl⟩
    · exact node_editNode_self (by exact h.built.lt) _
    · exact (builtMethod_next (w.withReference _) rfl (builtRef_next w c fresh.returnType)).mono (.refl _) (.refl _)
  have hname (w' : World) (hw' : Now fresh w') : (MethodEdit.apply m (.setName x.name)).Accepts w'
      (IsIdentifier x.name) fun _ w'' => Now { fresh with name := x.name } w'' :=
    (MethodEdit.setName_makes m w' x.name).accepts fun _ => ⟨hw'.1.editMethod hnew _,
      hw'.2.edit ⟨hw'.2.owner, rfl, hw'.2.modifiers, hw'.2.returnType, hw'.2.parameters⟩⟩
  have hmodifiers (w' : World) (hw' : Now { fresh with name := x.name } w') :
      (MethodEdit.apply m (.setModifiers x.modifiers)).Accepts w' True
        fun _ w'' => Now { x with returnType := fresh.returnType, parameters := [] } w'' :=
    (MethodEdit.setModifiers_makes m w' x.modifiers).accepts fun _ => ⟨hw'.1.editMethod hnew _,
      hw'.2.edit ⟨hw'.2.owner, hw'.2.name, rfl, hw'.2.returnType, hw'.2.parameters⟩⟩
  have htype (w' : World) (hw' : Now { x with returnType := fresh.returnType, parameters := [] } w') :
      (MethodEdit.apply m x.returnType.returnEdit).Accepts w' (IsClassName x.returnType.name)
        fun _ w'' => Now { x with parameters := [] } w'' := by
    refine (x.returnType.returnEdit_makes m w').accepts fun _ => ?_
    rw [hw'.2.owner]
    have hw'' : (w'.withReference (x.returnType.target c)).BuiltMethod c _ m := hw'.2.mono (.push _ _) (.refl _)
    exact ⟨(hw'.1.withReference _).editMethod hnew _,
      hw''.edit ⟨hw''.owner, hw''.name, hw''.modifiers, builtRef_next w' c x.returnType, hw''.parameters⟩⟩
  have hparameter (done : List ParameterSnapshot) (p : ParameterSnapshot) (w' : World)
      (hw' : Now { x with parameters := done } w') : (MethodEdit.apply m (.parameters p.edit)).Accepts w' p.Named
        fun _ w'' => Now { x with parameters := done ++ [p] } w'' := by
    refine (MethodEdit.parameters_makes (p.edit_makes _ _ w')).accepts fun _ => ?_
    rw [hw'.2.owner]
    have hw'' : (w'.withReference (p.type.target c)).BuiltMethod c _ m := hw'.2.mono (.push _ _) (.refl _)
    exact ⟨(hw'.1.withReference _).editMethod hnew _, hw''.edit ⟨hw''.owner, hw''.name, hw''.modifiers,
      hw''.returnType, forall₂_parameters_append hw'.2.parameters (.push _ _) (builtRef_next w' c p.type)⟩⟩
  unfold restoreMethod
  refine (hadd.bind (q := x.Named) (s := fun _ w' => Now x w') ?_).congr (by simp) ?_
  · rintro _ w₁ - ⟨rfl, h₁⟩
    exact ((hname w₁ h₁).bind fun _ w₂ _ h₂ => (hmodifiers w₂ h₂).bind fun _ w₃ _ h₃ =>
      (htype w₃ h₃).bind fun _ w₄ _ h₄ => Accepts.each (g := restoreMethodParameters m) rfl (fun _ _ => rfl)
        (I := fun ps => Now { x with parameters := ps }) hparameter x.parameters [] w₄ h₄).congr
      (by simp [MethodSnapshot.Named]) fun _ _ _ h => h
  · rintro _ w' - ⟨hw', hm⟩
    refine ⟨h.fills.trans hw'.fills, h.built.update hw'.fills hw'.node ?_ id id id (fun hms => ?_) id⟩
    · exact h.built.flags
    · exact List.rel_append hms (.cons hm .nil)

theorem restoreConstructor_accepts (h : Filled c w₀ y w) (x : ConstructorSnapshot) :
    (restoreConstructor c x).Accepts w x.Named
      fun _ w' => Filled c w₀ { y with constructors := y.constructors ++ [x] } w' := by
  let k := w.nextConstructor
  let n := { w.node c with constructors := (w.node c).constructors ++ [k] }
  let Now (x : ConstructorSnapshot) (w' : World) := Grown c w n w' ∧ w'.BuiltConstructor c x k
  have hnew : w.constructors.size ≤ k.index := Nat.le_refl _
  have hadd : (ClassEdit.apply c .addConstructor).Accepts w True
      fun made w' => made = .constructor k ∧ Now ⟨.none, []⟩ w' := by
    refine (ClassEdit.addNewConstructor_makes c w |>.congr (q := True)
      (by simp [Editable, h.built.kind])).accepts fun _ => ⟨rfl, ⟨?_, ?_⟩, ?_⟩
    · exact ((Fills.refl [c] w).withConstructor _).editNode (by simp) fun _ => ⟨rfl, rfl, rfl⟩
    · exact node_editNode_self (by exact h.built.lt) _
    · exact (builtConstructor_next w c rfl).mono (.refl _) (.refl _)
  have hmodifiers (w' : World) (hw' : Now ⟨.none, []⟩ w') :
      (ConstructorEdit.apply k (.setModifiers x.modifiers)).Accepts w' True
        fun _ w'' => Now { x with parameters := [] } w'' :=
    (ConstructorEdit.setModifiers_makes k w' x.modifiers).accepts fun _ => ⟨hw'.1.editConstructor hnew _,
      hw'.2.edit ⟨hw'.2.owner, rfl, hw'.2.parameters⟩⟩
  have hparameter (done : List ParameterSnapshot) (p : ParameterSnapshot) (w' : World)
      (hw' : Now { x with parameters := done } w') :
      (ConstructorEdit.apply k (.parameters p.edit)).Accepts w' p.Named
        fun _ w'' => Now { x with parameters := done ++ [p] } w'' := by
    refine (ConstructorEdit.parameters_makes (p.edit_makes _ _ w')).accepts fun _ => ?_
    rw [hw'.2.owner]
    have hw'' : (w'.withReference (p.type.target c)).BuiltConstructor c _ k := hw'.2.mono (.push _ _) (.refl _)
    exact ⟨(hw'.1.withReference _).editConstructor hnew _, hw''.edit ⟨hw''.owner, hw''.modifiers,
      forall₂_parameters_append hw'.2.parameters (.push _ _) (builtRef_next w' c p.type)⟩⟩
  unfold restoreConstructor
  refine (hadd.bind (q := x.Named) (s := fun _ w' => Now x w') ?_).congr (by simp) ?_
  · rintro _ w₁ - ⟨rfl, h₁⟩
    exact ((hmodifiers w₁ h₁).bind fun _ w₂ _ h₂ =>
      Accepts.each (g := restoreConstructorParameters k) rfl (fun _ _ => rfl)
        (I := fun ps => Now { x with parameters := ps }) hparameter x.parameters [] w₂ h₂).congr
      (by simp [ConstructorSnapshot.Named]) fun _ _ _ h => h
  · rintro _ w' - ⟨hw', hk⟩
    refine ⟨h.fills.trans hw'.fills, h.built.update hw'.fills hw'.node ?_ id id id id fun hks => ?_⟩
    · exact h.built.flags
    · exact List.rel_append hks (.cons hk .nil)

/-! ## Filling a class -/

theorem flagEdit_accepts (h : Filled c w₀ y w) {f : ClassNode → ClassNode} {z : ClassSnapshot}
    (hf : ∀ n, f n = { n with
      modifiers := (f n).modifiers, isInterface := (f n).isInterface,
      isAnnotationType := (f n).isAnnotationType, isUnresolved := (f n).isUnresolved })
    (hz : z = { y with
      modifiers := z.modifiers, isInterface := z.isInterface,
      isAnnotationType := z.isAnnotationType, isUnresolved := z.isUnresolved })
    (flags : (f (w.node c)).modifiers = z.modifiers ∧ (f (w.node c)).isInterface = z.isInterface ∧
      (f (w.node c)).isAnnotationType = z.isAnnotationType ∧ (f (w.node c)).isUnresolved = z.isUnresolved) :
    (ClassEdit.update c f).Accepts w True fun _ w' => Filled c w₀ z w' := by
  refine (ClassEdit.update_makes c w f |>.congr (q := True) (by simp [Editable, h.built.kind])).accepts
    fun _ => ?_
  have hn : (w.editNode c f).node c = f (w.node c) := node_editNode_self h.built.lt f
  have hfill : Fills [c] w (w.editNode c f) := (Fills.refl [c] w).editNode (by simp) fun n => by
    rw [hf n]; exact ⟨rfl, rfl, rfl⟩
  refine ⟨h.fills.trans hfill, h.built.update hfill hn ⟨?_, ?_, ?_, flags.1, flags.2.1, flags.2.2.1,
    flags.2.2.2, ?_⟩ ?_ ?_ ?_ ?_ ?_⟩
  · rw [hf]; exact h.built.kind
  · rw [hf, hz]; exact h.built.package
  · rw [hf, hz]; exact h.built.simpleName
  · rw [hf, hz]; exact h.built.imports
  all_goals rw [hf (w.node c), hz]; exact id

theorem superclassEdit_accepts (h : Filled c w₀ y w) (x : RefSnapshot) :
    (ClassEdit.apply c x.superclassEdit).Accepts w (IsClassName x.name)
      fun _ w' => Filled c w₀ { y with superclass := some x } w' := by
  refine (x.superclassEdit_makes c w |>.congr (q := IsClassName x.name)
    (by simp [Editable, h.built.kind])).accepts fun _ => ?_
  have hfill : Fills [c] w ((w.withReference (x.target c)).editNode c fun n =>
      { n with superclass := some w.nextReference }) :=
    ((Fills.refl [c] w).withReference _).editNode (by simp) fun _ => ⟨rfl, rfl, rfl⟩
  refine ⟨h.fills.trans hfill, h.built.update hfill (node_editNode_self (by exact h.built.lt) _)
    h.built.flags (fun _ => ?_) id id id id⟩
  exact .cons ((builtRef_next w c x).mono (.refl _)) .nil

theorem interfaceEdit_accepts (h : Filled c w₀ y w) (x : RefSnapshot) :
    (ClassEdit.apply c x.interfaceEdit).Accepts w (IsClassName x.name)
      fun _ w' => Filled c w₀ { y with interfaces := y.interfaces ++ [x] } w' := by
  refine (x.interfaceEdit_makes c w |>.congr (q := IsClassName x.name)
    (by simp [Editable, h.built.kind])).accepts fun _ => ?_
  have hfill : Fills [c] w ((w.withReference (x.target c)).editNode c fun n =>
      { n with interfaces := n.interfaces ++ [w.nextReference] }) :=
    ((Fills.refl [c] w).withReference _).editNode (by simp) fun _ => ⟨rfl, rfl, rfl⟩
  refine ⟨h.fills.trans hfill, h.built.update hfill (node_editNode_self (by exact h.built.lt) _)
    h.built.flags id (fun hrs => ?_) id id id⟩
  exact List.rel_append hrs (.cons ((builtRef_next w c x).mono (.refl _)) .nil)

def blank (x : ClassSnapshot) : ClassSnapshot where
  package := x.package
  simpleName := x.simpleName
  modifiers := .none
  isInterface := false
  isAnnotationType := false
  isUnresolved := false
  imports := x.trimmed.imports
  superclass := none
  interfaces := []
  fields := []
  methods := []
  constructors := []

theorem editFlags_accepts (x : ClassSnapshot) (h : Filled c w₀ (blank x) w) :
    (editEach c [.setModifiers x.modifiers, .setInterface x.isInterface,
      .setAnnotationType x.isAnnotationType]).Accepts w True fun _ w' => Filled c w₀ { blank x with
        modifiers := x.modifiers, isInterface := x.isInterface, isAnnotationType := x.isAnnotationType } w' := by
  have hm := flagEdit_accepts h (z := { blank x with modifiers := x.modifiers })
    (f := fun n => { n with modifiers := x.modifiers }) (fun _ => rfl) rfl
    ⟨rfl, h.built.isInterface, h.built.isAnnotationType, h.built.isUnresolved⟩
  refine hm.seq fun _ w₁ h₁ => ?_
  have hi := flagEdit_accepts h₁ (z := { blank x with modifiers := x.modifiers, isInterface := x.isInterface })
    (f := fun n => { n with isInterface := x.isInterface }) (fun _ => rfl) rfl
    ⟨h₁.built.modifiers, rfl, h₁.built.isAnnotationType, h₁.built.isUnresolved⟩
  refine hi.seq fun _ w₂ h₂ => ?_
  have ha := flagEdit_accepts h₂ (z := { blank x with
      modifiers := x.modifiers, isInterface := x.isInterface, isAnnotationType := x.isAnnotationType })
    (f := fun n => { n with isAnnotationType := x.isAnnotationType }) (fun _ => rfl) rfl
    ⟨h₂.built.modifiers, h₂.built.isInterface, rfl, h₂.built.isUnresolved⟩
  exact ha.seq fun _ w₃ h₃ => .pure h₃

theorem editMark_accepts (x : ClassSnapshot) (h : Filled c w₀ { x with isUnresolved := false } w) :
    (editEach c [.setUnresolved x.isUnresolved]).Accepts w True fun _ w' => Filled c w₀ x w' := by
  have hu := flagEdit_accepts h (z := x) (f := fun n => { n with isUnresolved := x.isUnresolved })
    (fun _ => rfl) rfl ⟨h.built.modifiers, h.built.isInterface, h.built.isAnnotationType, rfl⟩
  exact hu.seq fun _ w₁ h₁ => .pure h₁

theorem restoreClass_accepts (x : ClassSnapshot) (h : Filled c w₀ (blank x) w) :
    (restoreClass x c).Accepts w x.Fillable fun _ w' => Filled c w₀ x.trimmed w' := by
  -- The snapshot of what there is after each step, up to the mark that comes last.
  let y₁ := { blank x with
    modifiers := x.modifiers, isInterface := x.isInterface, isAnnotationType := x.isAnnotationType }
  let y₂ := { y₁ with superclass := x.superclass }
  let y₃ := { y₂ with interfaces := x.interfaces }
  let y₄ := { y₃ with fields := x.fields }
  let y₅ := { y₄ with methods := x.methods }
  let y₆ := { y₅ with constructors := x.constructors }
  have hsuper (w' : World) (h' : Filled c w₀ y₁ w') :
      (editEach c (x.superclass.toList.map RefSnapshot.superclassEdit)).Accepts w'
        (∀ r ∈ x.superclass.toList, IsClassName r.name) fun _ w'' => Filled c w₀ y₂ w'' := by
    have := Accepts.each (g := fun rs : List RefSnapshot => editEach c (rs.map RefSnapshot.superclassEdit))
      rfl (fun _ _ => rfl) (p := fun r => IsClassName r.name)
      (I := fun done => Filled c w₀ { y₁ with superclass := done.getLast? })
      (fun done r w' h' => by simpa using superclassEdit_accepts h' r) x.superclass.toList [] w' h'
    have hlast : x.superclass.toList.getLast? = x.superclass := by cases x.superclass <;> rfl
    simpa [y₂, hlast] using this
  have hinterfaces (w' : World) (h' : Filled c w₀ y₂ w') :
      (editEach c (x.interfaces.map RefSnapshot.interfaceEdit)).Accepts w'
        (∀ r ∈ x.interfaces, IsClassName r.name) fun _ w'' => Filled c w₀ y₃ w'' :=
    Accepts.each (g := fun rs : List RefSnapshot => editEach c (rs.map RefSnapshot.interfaceEdit))
      rfl (fun _ _ => rfl) (I := fun done => Filled c w₀ { y₂ with interfaces := done })
      (fun done r w' h' => interfaceEdit_accepts h' r) x.interfaces [] w' h'
  have hfields (w' : World) (h' : Filled c w₀ y₃ w') : (restoreEach (restoreField c) x.fields).Accepts w'
      (∀ f ∈ x.fields, f.Named) fun _ w'' => Filled c w₀ y₄ w'' :=
    Accepts.each rfl (fun _ _ => rfl) (I := fun done => Filled c w₀ { y₃ with fields := done })
      (fun done f w' h' => restoreField_accepts h' f) x.fields [] w' h'
  have hmethods (w' : World) (h' : Filled c w₀ y₄ w') : (restoreEach (restoreMethod c) x.methods).Accepts w'
      (∀ m ∈ x.methods, m.Named) fun _ w'' => Filled c w₀ y₅ w'' :=
    Accepts.each rfl (fun _ _ => rfl) (I := fun done => Filled c w₀ { y₄ with methods := done })
      (fun done m w' h' => restoreMethod_accepts h' m) x.methods [] w' h'
  have hconstructors (w' : World) (h' : Filled c w₀ y₅ w') :
      (restoreEach (restoreConstructor c) x.constructors).Accepts w'
        (∀ k ∈ x.constructors, k.Named) fun _ w'' => Filled c w₀ y₆ w'' :=
    Accepts.each rfl (fun _ _ => rfl) (I := fun done => Filled c w₀ { y₅ with constructors := done })
      (fun done k w' h' => restoreConstructor_accepts h' k) x.constructors [] w' h'
  have hall := (editFlags_accepts x h).bind fun _ w₁ _ h₁ => (hsuper w₁ h₁).bind fun _ w₂ _ h₂ =>
    (hinterfaces w₂ h₂).bind fun _ w₃ _ h₃ => (hfields w₃ h₃).bind fun _ w₄ _ h₄ =>
      (hmethods w₄ h₄).bind fun _ w₅ _ h₅ => (hconstructors w₅ h₅).bind fun _ w₆ _ h₆ => editMark_accepts x.trimmed h₆
  refine hall.congr ⟨?_, ?_⟩ fun _ _ _ h => h
  · rintro ⟨-, hs, hi, hf, hm, hk, -⟩
    exact ⟨by simpa using hs, hi, hf, hm, hk⟩
  · rintro ⟨hs, hi, hf, hm, hk⟩
    exact ⟨trivial, by simpa using hs, hi, hf, hm, hk, trivial⟩

end

end Snapshot

end ClassModel
