import ClassModel.Proofs.Graph.Runs

/-!
# Rosters

The roster of a world is what its classes list as their members, the names and parameters of these, and
the counters behind default names. Only edits touch it, and `Edit.Records` says for each of them where.
-/

namespace ClassModel

open Change

structure ClassNode.SameRoster (n n' : ClassNode) : Prop where
  fields : n'.fields = n.fields
  methods : n'.methods = n.methods
  constructors : n'.constructors = n.constructors
  fieldsMade : n'.fieldsMade = n.fieldsMade
  methodsMade : n'.methodsMade = n.methodsMade

theorem ClassNode.SameRoster.refl (n : ClassNode) : n.SameRoster n := ⟨rfl, rfl, rfl, rfl, rfl⟩

theorem ClassNode.SameRoster.trans {n n' n'' : ClassNode} (h : n.SameRoster n') (h' : n'.SameRoster n'') :
    n.SameRoster n'' :=
  ⟨h'.fields.trans h.fields, h'.methods.trans h.methods, h'.constructors.trans h.constructors,
    h'.fieldsMade.trans h.fieldsMade, h'.methodsMade.trans h.methodsMade⟩

namespace World

structure SameRoster (w w' : World) : Prop where
  node : ∀ c, (w.node c).SameRoster (w'.node c)
  fieldName : ∀ f, (w'.field f).name = (w.field f).name
  methodName : ∀ m, (w'.method m).name = (w.method m).name
  methodParameters : ∀ m, (w'.method m).parameters = (w.method m).parameters
  constructorParameters : ∀ k, (w'.constructor k).parameters = (w.constructor k).parameters
  methodsSize : w'.methods.size = w.methods.size
  constructorsSize : w'.constructors.size = w.constructors.size

namespace SameRoster

variable {w w' : World}

theorem ofStores (hn : w'.nodes = w.nodes) (hf : w'.fields = w.fields) (hm : w'.methods = w.methods)
    (hk : w'.constructors = w.constructors) : w.SameRoster w' := by
  refine ⟨fun c => ?_, fun f => ?_, fun m => ?_, fun m => ?_, fun k => ?_, by rw [hm], by rw [hk]⟩
  · rw [show w'.node c = w.node c from congrArg (Store.get · c.index) hn]; exact .refl _
  · unfold field; rw [hf]
  · unfold method; rw [hm]
  · unfold method; rw [hm]
  · unfold constructor; rw [hk]

instance : IsPreorder World SameRoster where
  refl _ := ofStores rfl rfl rfl rfl
  trans _ _ _ h h' :=
    { node := fun c => (h.node c).trans (h'.node c)
      fieldName := fun f => (h'.fieldName f).trans (h.fieldName f)
      methodName := fun m => (h'.methodName m).trans (h.methodName m)
      methodParameters := fun m => (h'.methodParameters m).trans (h.methodParameters m)
      constructorParameters := fun k => (h'.constructorParameters k).trans (h.constructorParameters k)
      methodsSize := h'.methodsSize.trans h.methodsSize
      constructorsSize := h'.constructorsSize.trans h.constructorsSize }

theorem refl (w : World) : w.SameRoster w := refl_of SameRoster w

theorem trans {w₁ : World} (h : w.SameRoster w₁) (h' : w₁.SameRoster w') : w.SameRoster w' :=
  trans_of SameRoster h h'

theorem withReference (w : World) (t : Target) : w.SameRoster (w.withReference t) := ofStores rfl rfl rfl rfl

theorem editNode (c : ClassId) {f : ClassNode → ClassNode} (hf : ∀ n : ClassNode, n.SameRoster (f n)) :
    w.SameRoster (w.editNode c f) :=
  { refl w with
    node := fun d => by
      rw [node_editNode]
      split
      · exact hf _
      · exact .refl _ }

/-- A number that has not been given out reads as a class without members, so one is no news. -/
theorem withNode {n : ClassNode} (hn : ClassNode.SameRoster default n) : w.SameRoster (w.withNode n) :=
  { refl w with
    node := fun d => by
      rw [node_withNode]
      split
      · rename_i hd
        rw [show w.node d = default from Store.get_of_size_le _ (by rw [hd]; exact Nat.le_refl _)]
        exact hn
      · exact .refl _ }

theorem editField (i : FieldId) {f : Field → Field} (hf : ∀ x, (f x).name = x.name) :
    w.SameRoster (w.editField i f) :=
  { refl w with
    fieldName := fun j => by
      rw [field_editField]
      split
      · exact hf _
      · rfl }

theorem editMethod (i : MethodId) {f : Method → Method}
    (hf : ∀ x, (f x).name = x.name ∧ (f x).parameters = x.parameters) : w.SameRoster (w.editMethod i f) := by
  have hget (j) : ((w.editMethod i f).method j).name = (w.method j).name ∧
      ((w.editMethod i f).method j).parameters = (w.method j).parameters := by
    rw [method_editMethod]
    split
    · exact hf _
    · exact ⟨rfl, rfl⟩
  exact { refl w with
    methodName := fun j => (hget j).1
    methodParameters := fun j => (hget j).2
    methodsSize := Store.size_modify _ _ _ }

theorem editConstructor (i : ConstructorId) {f : Constructor → Constructor}
    (hf : ∀ x, (f x).parameters = x.parameters) : w.SameRoster (w.editConstructor i f) :=
  { refl w with
    constructorParameters := fun j => by
      rw [constructor_editConstructor]
      split
      · exact hf _
      · rfl
    constructorsSize := Store.size_modify _ _ _ }

end SameRoster

end World

open World

/-! ## What edits record -/

inductive ParameterEdit.Records (s : Settings) (ps : Parameters) : ParameterEdit → Parameters → Prop
  | add {name type} (p : Parameter) : Records s ps (.add name type) ⟨ps.list ++ [p], ps.made + 1⟩
  | addUnqualified {name type} (p : Parameter) :
      Records s ps (.addUnqualified name type) ⟨ps.list ++ [p], ps.made + 1⟩
  | addNew (p : Parameter) : p.name = s.memberName ps.made → Records s ps .addNew ⟨ps.list ++ [p], ps.made + 1⟩
  | remove (i : Nat) : Records s ps (.remove i) { ps with list := ps.list.eraseIdx i }

/-- The edit is none of those that make, remove or name members or parameters. -/
def Edit.Marginal : Edit → Prop
  | .onClass _ .addField | .onClass _ .addMethod | .onClass _ .addConstructor => False
  | .onClass _ (.removeField _) | .onClass _ (.removeMethod _) | .onClass _ (.removeConstructor _) => False
  | .onField _ (.setName _) | .onMethod _ (.setName _) => False
  | .onMethod _ (.parameters _) | .onConstructor _ (.parameters _) => False
  | _ => True

inductive Edit.Records (w : World) : Edit → World → Prop
  | nothing {e w'} : e.Marginal → w.SameRoster w' → Records w e w'
  | addField {c w'} (x : Field) : x.name = (w.node c).settings.memberName (w.node c).fieldsMade →
      ((w.withField x).editNode c fun n =>
        { n with fields := n.fields ++ [w.nextField], fieldsMade := n.fieldsMade + 1 }).SameRoster w' →
      Records w (.onClass c .addField) w'
  | addMethod {c w'} (x : Method) : x.name = (w.node c).settings.memberName (w.node c).methodsMade →
      x.parameters = ⟨[], 0⟩ →
      ((w.withMethod x).editNode c fun n =>
        { n with methods := n.methods ++ [w.nextMethod], methodsMade := n.methodsMade + 1 }).SameRoster w' →
      Records w (.onClass c .addMethod) w'
  | addConstructor {c w'} (x : Constructor) : x.parameters = ⟨[], 0⟩ →
      ((w.withConstructor x).editNode c fun n =>
        { n with constructors := n.constructors ++ [w.nextConstructor] }).SameRoster w' →
      Records w (.onClass c .addConstructor) w'
  | removeField {c} (f : FieldId) : Records w (.onClass c (.removeField f))
      (w.editNode c fun n => { n with fields := n.fields.filter (· != f) })
  | removeMethod {c} (m : MethodId) : Records w (.onClass c (.removeMethod m))
      (w.editNode c fun n => { n with methods := n.methods.filter (· != m) })
  | removeConstructor {c} (k : ConstructorId) : Records w (.onClass c (.removeConstructor k))
      (w.editNode c fun n => { n with constructors := n.constructors.filter (· != k) })
  | renameField {f} (name : String) : Records w (.onField f (.setName name))
      (w.editField f fun x => { x with name := name })
  | renameMethod {m} (name : String) : Records w (.onMethod m (.setName name))
      (w.editMethod m fun x => { x with name := name })
  | methodParameters {m e ps w'} :
      ParameterEdit.Records (w.node (w.method m).owner).settings (w.method m).parameters e ps →
      (w.editMethod m fun x => { x with parameters := ps }).SameRoster w' →
      Records w (.onMethod m (.parameters e)) w'
  | constructorParameters {k e ps w'} :
      ParameterEdit.Records (w.node (w.constructor k).owner).settings (w.constructor k).parameters e ps →
      (w.editConstructor k fun x => { x with parameters := ps }).SameRoster w' →
      Records w (.onConstructor k (.parameters e)) w'

section
variable {w w' : World} {made : Made}

theorem ClassEdit.records {c : ClassId} {e : ClassEdit} (h : apply c e w = (.ok made, w')) :
    Edit.Records w (.onClass c e) w' := by
  have hsupertype {t : Target} {f : ClassNode → ClassNode} (hf : ∀ n : ClassNode, n.SameRoster (f n)) :
      w.SameRoster ((w.withReference t).editNode c f) :=
    (SameRoster.withReference w t).trans (.editNode c hf)
  have hupdate {f : ClassNode → ClassNode} (h : update c f w = (.ok made, w')) : w' = w.editNode c f :=
    ((update_makes c w f).ok h).2.2
  cases e with
  | setSimpleName name => cases h
  | setSuperclass name =>
    obtain ⟨-, -, rfl⟩ := (superclassByName_makes c w name _).ok h
    exact .nothing trivial (hsupertype fun _ => ⟨rfl, rfl, rfl, rfl, rfl⟩)
  | setSuperclassUnqualified name =>
    obtain ⟨-, -, rfl⟩ := (superclassByName_makes c w name _).ok h
    exact .nothing trivial (hsupertype fun _ => ⟨rfl, rfl, rfl, rfl, rfl⟩)
  | setSuperclassClass d =>
    obtain ⟨-, -, rfl⟩ := (setSuperclassClass_makes c w d).ok h
    exact .nothing trivial (hsupertype fun _ => ⟨rfl, rfl, rfl, rfl, rfl⟩)
  | addInterface name =>
    obtain ⟨-, -, rfl⟩ := (interfaceByName_makes c w name _).ok h
    exact .nothing trivial (hsupertype fun _ => ⟨rfl, rfl, rfl, rfl, rfl⟩)
  | addInterfaceUnqualified name =>
    obtain ⟨-, -, rfl⟩ := (interfaceByName_makes c w name _).ok h
    exact .nothing trivial (hsupertype fun _ => ⟨rfl, rfl, rfl, rfl, rfl⟩)
  | addInterfaceClass d =>
    obtain ⟨-, -, rfl⟩ := (addInterfaceClass_makes c w d).ok h
    exact .nothing trivial (hsupertype fun _ => ⟨rfl, rfl, rfl, rfl, rfl⟩)
  | addField =>
    obtain ⟨-, -, rfl⟩ := (addNewField_makes c w).ok h
    exact .addField _ rfl (.ofStores rfl rfl rfl rfl)
  | addMethod =>
    obtain ⟨-, -, rfl⟩ := (addNewMethod_makes c w).ok h
    exact .addMethod _ rfl rfl (.ofStores rfl rfl rfl rfl)
  | addConstructor =>
    obtain ⟨-, -, rfl⟩ := (addNewConstructor_makes c w).ok h
    exact .addConstructor _ rfl (.refl _)
  | removeField f => obtain rfl := hupdate h; exact .removeField f
  | removeMethod m => obtain rfl := hupdate h; exact .removeMethod m
  | removeConstructor k => obtain rfl := hupdate h; exact .removeConstructor k
  | _ =>
    obtain rfl := hupdate h
    exact .nothing trivial (.editNode c fun _ => ⟨rfl, rfl, rfl, rfl, rfl⟩)

theorem ParameterEdit.records {owner : ClassId} {ps : Parameters} {e : ParameterEdit} {r : Parameters × Made}
    (h : apply owner ps e w = (.ok r, w')) :
    e.Records (w.node owner).settings ps r.1 ∧ w'.nodes = w.nodes ∧ w'.fields = w.fields ∧
      w'.methods = w.methods ∧ w'.constructors = w.constructors := by
  cases e with
  | add name type =>
    obtain ⟨-, rfl, rfl⟩ := (addNamed_makes w ps name type _).ok h
    exact ⟨.add _, rfl, rfl, rfl, rfl⟩
  | addUnqualified name type =>
    obtain ⟨-, rfl, rfl⟩ := (addNamed_makes w ps name type _).ok h
    exact ⟨.addUnqualified _, rfl, rfl, rfl, rfl⟩
  | addNew =>
    obtain ⟨-, rfl, rfl⟩ := (addNew_makes w ps owner).ok h
    exact ⟨.addNew _ rfl, rfl, rfl, rfl, rfl⟩
  | remove i =>
    obtain ⟨-, rfl, rfl⟩ := (remove_makes w ps owner i).ok h
    exact ⟨.remove i, rfl, rfl, rfl, rfl⟩

theorem FieldEdit.records {f : FieldId} {e : FieldEdit} (h : apply f e w = (.ok made, w')) :
    Edit.Records w (.onField f e) w' := by
  have htype {t : Target} {g : Field → Field} (hg : ∀ x, (g x).name = x.name) :
      w.SameRoster ((w.withReference t).editField f g) :=
    (SameRoster.withReference w t).trans (.editField f hg)
  cases e with
  | setName name => obtain ⟨-, -, rfl⟩ := (setName_makes f w name).ok h; exact .renameField name
  | setModifiers m =>
    obtain ⟨-, -, rfl⟩ := (setModifiers_makes f w m).ok h
    exact .nothing trivial (.editField f fun _ => rfl)
  | setType name => obtain ⟨-, -, rfl⟩ := (setType_makes f w name).ok h; exact .nothing trivial (htype fun _ => rfl)
  | setTypeUnqualified name =>
    obtain ⟨-, -, rfl⟩ := (setTypeUnqualified_makes f w name).ok h; exact .nothing trivial (htype fun _ => rfl)
  | setTypeClass c => obtain ⟨-, -, rfl⟩ := (setTypeClass_makes f w c).ok h; exact .nothing trivial (htype fun _ => rfl)

theorem MethodEdit.records {m : MethodId} {e : MethodEdit} (h : apply m e w = (.ok made, w')) :
    Edit.Records w (.onMethod m e) w' := by
  have htype {t : Target} {g : Method → Method}
      (hg : ∀ x, (g x).name = x.name ∧ (g x).parameters = x.parameters) :
      w.SameRoster ((w.withReference t).editMethod m g) :=
    (SameRoster.withReference w t).trans (.editMethod m hg)
  cases e with
  | setName name => obtain ⟨-, -, rfl⟩ := (setName_makes m w name).ok h; exact .renameMethod name
  | setModifiers ms =>
    obtain ⟨-, -, rfl⟩ := (setModifiers_makes m w ms).ok h
    exact .nothing trivial (.editMethod m fun _ => ⟨rfl, rfl⟩)
  | setReturnType name =>
    obtain ⟨-, -, rfl⟩ := (setReturnType_makes m w name).ok h
    exact .nothing trivial (htype fun _ => ⟨rfl, rfl⟩)
  | setReturnTypeUnqualified name =>
    obtain ⟨-, -, rfl⟩ := (setReturnTypeUnqualified_makes m w name).ok h
    exact .nothing trivial (htype fun _ => ⟨rfl, rfl⟩)
  | parameters e =>
    obtain ⟨p, ⟨ps, made'⟩, v, hv, -⟩ := ParameterEdit.makes w (w.method m).owner (w.method m).parameters e
    obtain ⟨hp, -, rfl⟩ := (parameters_makes hv).ok h
    obtain ⟨hr, hn, hf, hm, hk⟩ := ParameterEdit.records (hv.made hp)
    exact .methodParameters hr (.ofStores hn hf (congrArg (Store.modify · m.index _) hm) hk)

theorem ConstructorEdit.records {k : ConstructorId} {e : ConstructorEdit} (h : apply k e w = (.ok made, w')) :
    Edit.Records w (.onConstructor k e) w' := by
  cases e with
  | setModifiers m =>
    obtain ⟨-, -, rfl⟩ := (setModifiers_makes k w m).ok h
    exact .nothing trivial (.editConstructor k fun _ => rfl)
  | parameters e =>
    obtain ⟨p, ⟨ps, made'⟩, v, hv, -⟩ :=
      ParameterEdit.makes w (w.constructor k).owner (w.constructor k).parameters e
    obtain ⟨hp, -, rfl⟩ := (parameters_makes hv).ok h
    obtain ⟨hr, hn, hf, hm, hk⟩ := ParameterEdit.records (hv.made hp)
    exact .constructorParameters hr (.ofStores hn hf hm (congrArg (Store.modify · k.index _) hk))

theorem Edit.records {e : Edit} (h : e.apply w = (.ok made, w')) : e.Records w w' := by
  cases e with
  | onClass c e => exact ClassEdit.records h
  | onField f e => exact FieldEdit.records h
  | onMethod m e => exact MethodEdit.records h
  | onConstructor k e => exact ConstructorEdit.records h

end

/-! ## What else happens -/

namespace SameRoster

theorem addNode {n : ClassNode} (hn : ClassNode.SameRoster default n) : Within World.SameRoster (Step.addNode n) :=
  fun _ => .withNode hn

theorem onLoader (l : LoaderId) (f : Loader → Loader) : Within World.SameRoster (Step.onLoader l f) :=
  fun _ => .ofStores rfl rfl rfl rfl

theorem log (e : Log.Event) : Within World.SameRoster (Step.log e) := fun _ => .ofStores rfl rfl rfl rfl

theorem addBuiltins (l : LoaderId) (settings : Settings) :
    ∀ kinds, Within World.SameRoster (Loader.addBuiltins l settings kinds)
  | [] => .pure ()
  | _ :: rest => .bind (addNode ⟨rfl, rfl, rfl, rfl, rfl⟩) fun _ =>
      .bind (onLoader l _) fun _ => addBuiltins l settings rest

theorem make (settings : Settings) (sources : List Source) : Within World.SameRoster (Loader.make settings sources) :=
  .bindChange (.ofMakes fun w => ⟨_, _, _, requireSettings_makes settings w, fun _ => .refl w⟩) fun _ =>
    .bindChange (s := Change.of (Step.addLoader _)) (fun _ => .ofStores rfl rfl rfl rfl) fun l =>
      .bindChange (.of (addBuiltins l settings _)) fun _ => .accept l

theorem define (l : LoaderId) (package simpleName : String) (imports : List Import) :
    Within World.SameRoster (Loader.define l package simpleName imports) := .ofMakes fun w =>
  ⟨_, _, _, Loader.define_makes l package simpleName imports w, fun _ =>
    (World.SameRoster.withNode (w := w) (n := { ClassNode.bare package simpleName .declared (some (.loader l))
      (w.loader l).settings with imports := imports }) ⟨rfl, rfl, rfl, rfl, rfl⟩).trans
      (.ofStores rfl rfl rfl rfl)⟩

theorem standIn (w : World) (l : LoaderId) (name : String) :
    w.SameRoster (Loader.placeholder l name w).2 := by
  rw [placeholder_run]
  split
  · exact .refl w
  · have hnode := World.SameRoster.withNode (w := w)
      (n := Loader.standIn name (some (.loader l)) (w.loader l).settings) ⟨rfl, rfl, rfl, rfl, rfl⟩
    exact hnode.trans (.ofStores rfl rfl rfl rfl)

end SameRoster

/-- A move that is no edit leaves the roster alone. -/
theorem World.Move.edit_or_sameRoster {w w' : World} {made : List (LoaderId × ClassId)} (h : Move w made w') :
    (∃ e : Edit, ∃ a, e.apply w = (.ok a, w')) ∨ w.SameRoster w' := by
  have hof {α : Type} {x : Change α} {a : α} (hx : Within World.SameRoster x) (h : x w = (.ok a, w')) :
      w.SameRoster w' := by
    have := hx w
    rwa [h] at this
  cases h with
  | make h => exact .inr (hof (SameRoster.make _ _) h)
  | define _ _ h => exact .inr (hof (SameRoster.define _ _ _ _) h)
  | defineUncounted _ h => exact .inr (hof (SameRoster.define _ _ _ _) h)
  | create h =>
    obtain ⟨-, -, rfl⟩ := (createClass_makes _ _ _ _ w).ok h
    exact .inr (.withNode ⟨rfl, rfl, rfl, rfl, rfl⟩)
  | edit h => exact .inl ⟨_, _, h⟩
  | refer => exact .inr (.withReference w _)
  | dropInterfaces keep hc => exact .inr (.editNode _ fun _ => ⟨rfl, rfl, rfl, rfl, rfl⟩)
  | standIn l name => exact .inr (SameRoster.standIn w l name)
  | stray => exact .inr (.withNode ⟨rfl, rfl, rfl, rfl, rfl⟩)
  | remember | answer | ask | aside | release => exact .inr (.ofStores rfl rfl rfl rfl)

end ClassModel
