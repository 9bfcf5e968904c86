import ClassModel.Graph.Assignability
import ClassModel.Graph.Liveness
import ClassModel.Graph.Walk
import ClassModel.Proofs.Graph.Loaders

/-!
# Moves

Every run of a program over a model is a sequence of moves: making loaders and classes, edits, and
what resolving leaves behind. `World.Reached` gathers the worlds that there can be, together with
the classes that loaders have defined so far. `World.Keeps` is what no move touches: who a class or
member is, what is written in a reference, and what a loader was made with.
-/

namespace ClassModel

open Change

def Target.context? : Target → Option ClassId
  | .direct _ => none
  | .qualified _ c => some c
  | .unqualified _ c => some c

namespace World

def Unregistered (w : World) (c : ClassId) : Prop := ∀ l, ∀ e ∈ (w.loader l).classes, e.2 ≠ c

/-- One step, with the class that it defines and the loader in which it does. A class can only be
registered before it is there if a source answers with an identity that it has made up; such a
class is not counted. -/
inductive Move : World → List (LoaderId × ClassId) → World → Prop
  | make {w w' settings sources l} : Loader.make settings sources w = (.ok l, w') → Move w [] w'
  | define {w w' l package simpleName imports c} : l.index < w.loaders.size → w.Unregistered c →
      Loader.define l package simpleName imports w = (.ok c, w') → Move w [(l, c)] w'
  | defineUncounted {w w' l package simpleName imports c} : ¬ (l.index < w.loaders.size ∧ w.Unregistered c) →
      Loader.define l package simpleName imports w = (.ok c, w') → Move w [] w'
  | create {w w' package simpleName lookup settings c} :
      createClass package simpleName lookup settings w = (.ok c, w') → Move w [] w'
  | edit {w w'} {e : Edit} {made} : e.apply w = (.ok made, w') → Move w [] w'
  | refer {w : World} {t : Target} : (∀ c, t.context? = some c → c.index < w.nodes.size) →
      Move w [] (w.withReference t)
  | dropInterfaces {w c} (keep : RefId → Bool) : w.Editable c →
      Move w [] (w.editNode c fun n => { n with interfaces := n.interfaces.filter keep })
  | standIn (w : World) (l : LoaderId) (name : String) : Move w [] (Loader.placeholder l name w).2
  | stray (w : World) (name : String) (lookup : Option Collaborator) (c : ClassId) :
      Move w [] (w.withNode (Loader.standIn name lookup (w.node c).settings))
  | remember (w : World) (r : RefId) (c : ClassId) :
      Move w [] (w.editReference r fun x => { x with memo := some c })
  | answer {w : World} {l : LoaderId} (c : ClassId) : (w.loader l).sources ≠ [] →
      Move w [] (w.editLoader l fun x => { x with classes := x.classes.insertNew (w.nameOf c) c })
  | ask (w : World) (l : LoaderId) (f : List String → List String)
      (g : List (Nat × String) → List (Nat × String)) :
      Move w [] (w.editLoader l fun x => { x with loading := f x.loading, asked := g x.asked })
  | aside {w : World} {directories : Store Directory} (log : List Log.Event) :
      w.directories.size ≤ directories.size → Move w [] { w with directories := directories, log := log }
  | release (w : World) (outside : List Object) : Move w [] (w.release outside)

inductive Moves : World → List (LoaderId × ClassId) → World → Prop
  | refl (w : World) : Moves w [] w
  | tail {w w' w'' made made'} : Moves w made w' → Move w' made' w'' → Moves w (made ++ made') w''

/-- There has been a sequence of moves to this world, and these are the classes that were defined. -/
def Reached (w : World) (made : List (LoaderId × ClassId)) : Prop := Moves .empty made w

theorem Moves.trans {w w' w'' : World} {made made' : List (LoaderId × ClassId)} (h : Moves w made w')
    (h' : Moves w' made' w'') : Moves w (made ++ made') w'' := by
  induction h' with
  | refl => simpa using h
  | tail _ hm ih => rw [← List.append_assoc]; exact ih.tail hm

theorem Move.moves {w w' : World} {made : List (LoaderId × ClassId)} (h : Move w made w') : Moves w made w' :=
  (Moves.refl w).tail h

section
variable {w : World} {made : List (LoaderId × ClassId)}

theorem unregistered_iff {c : ClassId} :
    w.Unregistered c ↔ ∀ i < w.loaders.size, ∀ e ∈ (w.loader ⟨i⟩).classes, e.2 ≠ c := by
  refine ⟨fun h i _ => h ⟨i⟩, fun h l e he => ?_⟩
  by_cases hl : l.index < w.loaders.size
  · exact h l.index hl e he
  · rw [show w.loader l = default from Store.get_of_size_le _ (Nat.not_lt.mp hl)] at he
    cases he

theorem Reached.define (h : Reached w made) {l : LoaderId} {package simpleName : String} {imports : List Import}
    {c : ClassId} (hl : l.index < w.loaders.size)
    (hc : ∀ i < w.loaders.size, ∀ e ∈ (w.loader ⟨i⟩).classes, e.2 ≠ c)
    (hok : (Loader.define l package simpleName imports w).1 = .ok c) :
    Reached (Loader.define l package simpleName imports w).2 (made ++ [(l, c)]) :=
  h.tail (.define hl (unregistered_iff.mpr hc) (run_of_ok hok))

theorem Reached.edit (h : Reached w made) {e : Edit} {a : Made} (hok : (e.apply w).1 = .ok a) :
    Reached (e.apply w).2 made := by
  have := h.tail (.edit (run_of_ok hok))
  rwa [List.append_nil] at this

def single : World := (Loader.make .standard [] .empty).2

theorem reached_single : Reached single [] :=
  (Move.make (run_of_ok (a := (⟨0⟩ : LoaderId)) (by decide +kernel))).moves

end

/-! ## What no move touches -/

structure SameClass (n n' : ClassNode) : Prop where
  package : n'.package = n.package
  simpleName : n'.simpleName = n.simpleName
  kind : n'.kind = n.kind
  lookup : n'.lookup = n.lookup
  settings : n'.settings = n.settings

structure Keeps (w w' : World) : Prop where
  size : w.nodes.size ≤ w'.nodes.size
  same : ∀ c, c.index < w.nodes.size → SameClass (w.node c) (w'.node c)
  fixed : ∀ c, c.index < w.nodes.size → ¬ w.Editable c → w'.node c = w.node c
  fields : ∀ f, f.index < w.fields.size → f.index < w'.fields.size ∧ (w'.field f).owner = (w.field f).owner
  methods : ∀ m, m.index < w.methods.size →
    m.index < w'.methods.size ∧ (w'.method m).owner = (w.method m).owner
  constructors : ∀ k, k.index < w.constructors.size →
    k.index < w'.constructors.size ∧ (w'.constructor k).owner = (w.constructor k).owner
  references : ∀ r, r.index < w.references.size →
    r.index < w'.references.size ∧ (w'.reference r).target = (w.reference r).target
  loaders : ∀ l, l.index < w.loaders.size → l.index < w'.loaders.size ∧
    (w'.loader l).settings = (w.loader l).settings ∧ (w'.loader l).sources = (w.loader l).sources
  directories : w.directories.size ≤ w'.directories.size
  gone : w.gone ⊆ w'.gone

theorem SameClass.refl (n : ClassNode) : SameClass n n := ⟨rfl, rfl, rfl, rfl, rfl⟩

theorem SameClass.trans {n n' n'' : ClassNode} (h : SameClass n n') (h' : SameClass n' n'') : SameClass n n'' :=
  ⟨h'.package.trans h.package, h'.simpleName.trans h.simpleName, h'.kind.trans h.kind,
    h'.lookup.trans h.lookup, h'.settings.trans h.settings⟩

section
variable {w w₁ w₂ : World}

theorem Keeps.refl (w : World) : w.Keeps w :=
  ⟨Nat.le_refl _, fun _ _ => .refl _, fun _ _ _ => rfl, fun _ h => ⟨h, rfl⟩, fun _ h => ⟨h, rfl⟩,
    fun _ h => ⟨h, rfl⟩, fun _ h => ⟨h, rfl⟩, fun _ h => ⟨h, rfl, rfl⟩, Nat.le_refl _, fun _ h => h⟩

theorem Keeps.trans (h : w.Keeps w₁) (h' : w₁.Keeps w₂) : w.Keeps w₂ where
  size := Nat.le_trans h.size h'.size
  same c hc := (h.same c hc).trans (h'.same c (Nat.lt_of_lt_of_le hc h.size))
  fixed c hc hk := by
    have hn := h.fixed c hc hk
    rw [← hn]
    exact h'.fixed c (Nat.lt_of_lt_of_le hc h.size) (by unfold Editable; rw [hn]; exact hk)
  fields f hf := ⟨(h'.fields f (h.fields f hf).1).1, (h'.fields f (h.fields f hf).1).2.trans (h.fields f hf).2⟩
  methods m hm := ⟨(h'.methods m (h.methods m hm).1).1, (h'.methods m (h.methods m hm).1).2.trans (h.methods m hm).2⟩
  constructors k hk := ⟨(h'.constructors k (h.constructors k hk).1).1,
    (h'.constructors k (h.constructors k hk).1).2.trans (h.constructors k hk).2⟩
  references r hr := ⟨(h'.references r (h.references r hr).1).1,
    (h'.references r (h.references r hr).1).2.trans (h.references r hr).2⟩
  loaders l hl := by
    obtain ⟨h₁, h₂, h₃⟩ := h.loaders l hl
    obtain ⟨h₁', h₂', h₃'⟩ := h'.loaders l h₁
    exact ⟨h₁', h₂'.trans h₂, h₃'.trans h₃⟩
  directories := Nat.le_trans h.directories h'.directories
  gone := fun _ ho => h'.gone (h.gone ho)

/-- Where nodes and loaders have only been added to, and nothing else is different. -/
theorem Keeps.ofExtends (h : w.Extends w₁) : w.Keeps w₁ where
  size := h.nodes.size_le
  same c hc := by rw [show w₁.node c = w.node c from h.nodes.get_eq _ hc]; exact .refl _
  fixed c hc _ := h.nodes.get_eq _ hc
  fields f hf := ⟨Nat.lt_of_lt_of_le hf h.fields.size_le, by
    rw [show w₁.field f = w.field f from h.fields.get_eq _ hf]⟩
  methods m hm := ⟨Nat.lt_of_lt_of_le hm h.methods.size_le, by
    rw [show w₁.method m = w.method m from h.methods.get_eq _ hm]⟩
  constructors k hk := ⟨Nat.lt_of_lt_of_le hk h.constructors.size_le, by
    rw [show w₁.constructor k = w.constructor k from h.constructors.get_eq _ hk]⟩
  references r hr := ⟨Nat.lt_of_lt_of_le hr h.references.size_le, by
    rw [show w₁.reference r = w.reference r from h.references.get_eq _ hr]⟩
  loaders l hl := ⟨Nat.lt_of_lt_of_le hl h.loaders.size_le, by
    rw [show w₁.loader l = w.loader l from h.loaders.get_eq _ hl]; exact ⟨rfl, rfl⟩⟩
  directories := by rw [h.directories]
  gone := by rw [h.gone]; exact fun _ ho => ho

theorem Keeps.withReference (w : World) (t : Target) : w.Keeps (w.withReference t) :=
  .ofExtends ⟨.refl _, .refl _, .refl _, .refl _, .push _ _, .refl _, rfl, rfl⟩

theorem Keeps.withField (w : World) (x : Field) : w.Keeps (w.withField x) :=
  .ofExtends ⟨.refl _, .push _ _, .refl _, .refl _, .refl _, .refl _, rfl, rfl⟩

theorem Keeps.withMethod (w : World) (x : Method) : w.Keeps (w.withMethod x) :=
  .ofExtends ⟨.refl _, .refl _, .push _ _, .refl _, .refl _, .refl _, rfl, rfl⟩

theorem Keeps.withConstructor (w : World) (x : Constructor) : w.Keeps (w.withConstructor x) :=
  .ofExtends ⟨.refl _, .refl _, .refl _, .push _ _, .refl _, .refl _, rfl, rfl⟩

theorem Keeps.withNode (w : World) (n : ClassNode) : w.Keeps (w.withNode n) :=
  .ofExtends ⟨.push _ _, .refl _, .refl _, .refl _, .refl _, .refl _, rfl, rfl⟩

theorem Keeps.aside {directories : Store Directory} (hd : w.directories.size ≤ directories.size)
    (log : List Log.Event) : w.Keeps { w with directories := directories, log := log } :=
  { Keeps.refl w with directories := hd }

theorem Keeps.editNode {c : ClassId} (hc : w.Editable c) {f : ClassNode → ClassNode}
    (hf : ∀ n, SameClass n (f n)) : w.Keeps (w.editNode c f) :=
  { Keeps.refl w with
    size := by show _ ≤ (w.nodes.modify _ _).size; rw [Store.size_modify]
    same := fun d _ => by
      rw [node_editNode]
      split
      · exact hf _
      · exact .refl _
    fixed := fun d _ hd => node_editNode_of_ne w (fun e => hd (by rw [e]; exact hc)) f }

theorem Keeps.editField {i : FieldId} {f : Field → Field} (hf : ∀ x, (f x).owner = x.owner) :
    w.Keeps (w.editField i f) :=
  { Keeps.refl w with
    fields := fun j hj => ⟨by show _ < (w.fields.modify _ _).size; rwa [Store.size_modify], by
      rw [field_editField]
      split
      · exact hf _
      · rfl⟩ }

theorem Keeps.editMethod {m : MethodId} {f : Method → Method} (hf : ∀ x, (f x).owner = x.owner) :
    w.Keeps (w.editMethod m f) :=
  { Keeps.refl w with
    methods := fun j hj => ⟨by show _ < (w.methods.modify _ _).size; rwa [Store.size_modify], by
      rw [method_editMethod]
      split
      · exact hf _
      · rfl⟩ }

theorem Keeps.editConstructor {k : ConstructorId} {f : Constructor → Constructor}
    (hf : ∀ x, (f x).owner = x.owner) : w.Keeps (w.editConstructor k f) :=
  { Keeps.refl w with
    constructors := fun j hj => ⟨by show _ < (w.constructors.modify _ _).size; rwa [Store.size_modify], by
      rw [constructor_editConstructor]
      split
      · exact hf _
      · rfl⟩ }

theorem Keeps.editReference {r : RefId} {f : Reference → Reference} (hf : ∀ x, (f x).target = x.target) :
    w.Keeps (w.editReference r f) :=
  { Keeps.refl w with
    references := fun j hj => ⟨by show _ < (w.references.modify _ _).size; rwa [Store.size_modify], by
      show ((w.references.modify _ _).get _).target = _
      rw [Store.get_modify]
      split
      · exact hf _
      · rfl⟩ }

theorem Keeps.editLoader {l : LoaderId} {f : Loader → Loader}
    (hf : ∀ x, (f x).settings = x.settings ∧ (f x).sources = x.sources) : w.Keeps (w.editLoader l f) :=
  { Keeps.refl w with
    loaders := fun j hj => ⟨by show _ < (w.loaders.modify _ _).size; rwa [Store.size_modify], by
      show ((w.loaders.modify _ _).get _).settings = _ ∧ ((w.loaders.modify _ _).get _).sources = _
      rw [Store.get_modify]
      split
      · exact hf _
      · exact ⟨rfl, rfl⟩⟩ }

theorem extends_withLoader (w : World) (settings : Settings) (sources : List Source) :
    w.Extends (w.withLoader settings sources) := by
  have h := withLoader_spec w settings sources
  refine ⟨h.nodes, ?_, ?_, ?_, ?_, ⟨by rw [h.size]; exact Nat.le_succ _, fun i hi => ?_⟩, ?_, ?_⟩
  case refine_5 => exact h.other ⟨i⟩ (by simp [nextLoader]; omega)
  all_goals rw [h.rest]
  all_goals first | rfl | exact .refl _

theorem Keeps.withLoader (w : World) (settings : Settings) (sources : List Source) :
    w.Keeps (w.withLoader settings sources) := .ofExtends (extends_withLoader w settings sources)

theorem Keeps.release (w : World) (outside : List Object) : w.Keeps (w.release outside) :=
  { Keeps.refl w with gone := fun _ ho => List.mem_append_left _ ho }

end

end World

/-! ## Edits -/

section
variable (w : World)

theorem ClassEdit.makes (c : ClassId) (e : ClassEdit) :
    ∃ p made w', (apply c e).Makes w p made w' ∧ w.Spares w' := by
  cases e with
  | setSimpleName name => exact ⟨False, .nothing, w, ⟨False.elim, fun _ => ⟨_, rfl⟩⟩, .refl w⟩
  | setSuperclass name => exact ⟨_, _, _, superclassByName_makes c w name _, .ofNode rfl rfl (.ofPush rfl)⟩
  | setSuperclassUnqualified name => exact ⟨_, _, _, superclassByName_makes c w name _, .ofNode rfl rfl (.ofPush rfl)⟩
  | setSuperclassClass d => exact ⟨_, _, _, setSuperclassClass_makes c w d, .ofNode rfl rfl (.ofPush rfl)⟩
  | addInterface name => exact ⟨_, _, _, interfaceByName_makes c w name _, .ofNode rfl rfl (.ofPush rfl)⟩
  | addInterfaceUnqualified name => exact ⟨_, _, _, interfaceByName_makes c w name _, .ofNode rfl rfl (.ofPush rfl)⟩
  | addInterfaceClass d => exact ⟨_, _, _, addInterfaceClass_makes c w d, .ofNode rfl rfl (.ofPush rfl)⟩
  | addField => exact ⟨_, _, _, addNewField_makes c w, .ofNode rfl rfl (.ofPush rfl)⟩
  | addMethod => exact ⟨_, _, _, addNewMethod_makes c w, .ofNode rfl rfl (.ofPush rfl)⟩
  | addConstructor => exact ⟨_, _, _, addNewConstructor_makes c w, .ofNode rfl rfl (.ofSame rfl)⟩
  | _ => exact ⟨_, _, _, update_makes c w _, .ofNode rfl rfl (.ofSame rfl)⟩

theorem ParameterEdit.makes (owner : ClassId) (ps : Parameters) (e : ParameterEdit) :
    ∃ p r w', (apply owner ps e).Makes w p r w' ∧ w.Spares w' := by
  cases e with
  | add name type => exact ⟨_, _, _, addNamed_makes w ps name type _, .ofMember rfl rfl (.ofPush rfl)⟩
  | addUnqualified name type => exact ⟨_, _, _, addNamed_makes w ps name type _, .ofMember rfl rfl (.ofPush rfl)⟩
  | addNew => exact ⟨_, _, _, addNew_makes w ps owner, .ofMember rfl rfl (.ofPush rfl)⟩
  | remove i => exact ⟨_, _, _, remove_makes w ps owner i, .refl w⟩

theorem FieldEdit.makes (f : FieldId) (e : FieldEdit) :
    ∃ p made w', (apply f e).Makes w p made w' ∧ w.Spares w' := by
  cases e with
  | setName name => exact ⟨_, _, _, setName_makes f w name, .ofMember rfl rfl (.ofSame rfl)⟩
  | setModifiers m => exact ⟨_, _, _, setModifiers_makes f w m, .ofMember rfl rfl (.ofSame rfl)⟩
  | setType name => exact ⟨_, _, _, setType_makes f w name, .ofMember rfl rfl (.ofPush rfl)⟩
  | setTypeUnqualified name => exact ⟨_, _, _, setTypeUnqualified_makes f w name, .ofMember rfl rfl (.ofPush rfl)⟩
  | setTypeClass c => exact ⟨_, _, _, setTypeClass_makes f w c, .ofMember rfl rfl (.ofPush rfl)⟩

theorem MethodEdit.makes (m : MethodId) (e : MethodEdit) :
    ∃ p made w', (apply m e).Makes w p made w' ∧ w.Spares w' := by
  cases e with
  | setName name => exact ⟨_, _, _, setName_makes m w name, .ofMember rfl rfl (.ofSame rfl)⟩
  | setModifiers ms => exact ⟨_, _, _, setModifiers_makes m w ms, .ofMember rfl rfl (.ofSame rfl)⟩
  | setReturnType name => exact ⟨_, _, _, setReturnType_makes m w name, .ofMember rfl rfl (.ofPush rfl)⟩
  | setReturnTypeUnqualified name =>
    exact ⟨_, _, _, setReturnTypeUnqualified_makes m w name, .ofMember rfl rfl (.ofPush rfl)⟩
  | parameters e =>
    obtain ⟨p, ⟨ps, made⟩, w', h, hs⟩ := ParameterEdit.makes w (w.method m).owner (w.method m).parameters e
    exact ⟨_, _, _, parameters_makes h, hs.size, hs.loaders, hs.references.kept, hs.references.unresolved⟩

theorem ConstructorEdit.makes (k : ConstructorId) (e : ConstructorEdit) :
    ∃ p made w', (apply k e).Makes w p made w' ∧ w.Spares w' := by
  cases e with
  | setModifiers m => exact ⟨_, _, _, setModifiers_makes k w m, .ofMember rfl rfl (.ofSame rfl)⟩
  | parameters e =>
    obtain ⟨p, ⟨ps, made⟩, w', h, hs⟩ := ParameterEdit.makes w (w.constructor k).owner (w.constructor k).parameters e
    exact ⟨_, _, _, parameters_makes h, hs.size, hs.loaders, hs.references.kept, hs.references.unresolved⟩

/-- An edit is made as a whole or refused as a whole. Loaders have no part in it, and it resolves
nothing. -/
theorem Edit.makes (e : Edit) : ∃ p made w', e.apply.Makes w p made w' ∧ w.Spares w' := by
  cases e with
  | onClass c e => exact e.makes w c
  | onField f e => exact e.makes w f
  | onMethod m e => exact e.makes w m
  | onConstructor k e => exact e.makes w k

theorem Edit.spares (e : Edit) : w.Spares (e.apply w).2 := by
  obtain ⟨p, made, w', h, hs⟩ := e.makes w
  exact h.keeps (.refl w) fun _ => hs

end

theorem World.Reached.edits {w : World} {made : List (LoaderId × ClassId)} (h : Reached w made) (es : List Edit) :
    Reached (es.foldl (fun w e => (e.apply w).2) w) made := by
  induction es generalizing w with
  | nil => exact h
  | cons e es ih =>
    obtain ⟨p, a, w', hmakes, -⟩ := e.makes w
    refine ih ?_
    by_cases hp : p
    · exact h.edit (a := a) (by rw [hmakes.made hp])
    · obtain ⟨err, herr⟩ := hmakes.refused hp
      show Reached (e.apply w).2 made
      rwa [herr]

/-! ## What moves keep -/

section
variable {w w' : World}

theorem ClassEdit.keeps {c : ClassId} {e : ClassEdit} {made : Made} (h : apply c e w = (.ok made, w')) :
    w.Keeps w' := by
  have hnode {v : World} (hv : w.Keeps v) (hc : v.node c = w.node c) (hw : w.Editable c) {f : ClassNode → ClassNode}
      (hf : ∀ n, World.SameClass n (f n)) : w.Keeps (v.editNode c f) :=
    hv.trans (.editNode (by unfold World.Editable; rw [hc]; exact hw) hf)
  have hupdate {f : ClassNode → ClassNode} (h : update c f w = (.ok made, w')) (hf : ∀ n, World.SameClass n (f n)) :
      w.Keeps w' := by
    obtain ⟨hc, -, rfl⟩ := (update_makes c w f).ok h
    exact hnode (.refl w) rfl hc hf
  cases e with
  | setSimpleName name => cases h
  | setSuperclass name =>
    obtain ⟨⟨-, hc⟩, -, rfl⟩ := (superclassByName_makes c w name _).ok h
    exact hnode (.withReference w _) rfl hc fun _ => ⟨rfl, rfl, rfl, rfl, rfl⟩
  | setSuperclassUnqualified name =>
    obtain ⟨⟨-, hc⟩, -, rfl⟩ := (superclassByName_makes c w name _).ok h
    exact hnode (.withReference w _) rfl hc fun _ => ⟨rfl, rfl, rfl, rfl, rfl⟩
  | setSuperclassClass d =>
    obtain ⟨hc, -, rfl⟩ := (setSuperclassClass_makes c w d).ok h
    exact hnode (.withReference w _) rfl hc fun _ => ⟨rfl, rfl, rfl, rfl, rfl⟩
  | addInterface name =>
    obtain ⟨⟨-, hc⟩, -, rfl⟩ := (interfaceByName_makes c w name _).ok h
    exact hnode (.withReference w _) rfl hc fun _ => ⟨rfl, rfl, rfl, rfl, rfl⟩
  | addInterfaceUnqualified name =>
    obtain ⟨⟨-, hc⟩, -, rfl⟩ := (interfaceByName_makes c w name _).ok h
    exact hnode (.withReference w _) rfl hc fun _ => ⟨rfl, rfl, rfl, rfl, rfl⟩
  | addInterfaceClass d =>
    obtain ⟨hc, -, rfl⟩ := (addInterfaceClass_makes c w d).ok h
    exact hnode (.withReference w _) rfl hc fun _ => ⟨rfl, rfl, rfl, rfl, rfl⟩
  | addField =>
    obtain ⟨hc, -, rfl⟩ := (addNewField_makes c w).ok h
    exact hnode ((World.Keeps.withReference w _).trans (.withField _ _)) rfl hc fun _ => ⟨rfl, rfl, rfl, rfl, rfl⟩
  | addMethod =>
    obtain ⟨hc, -, rfl⟩ := (addNewMethod_makes c w).ok h
    exact hnode ((World.Keeps.withReference w _).trans (.withMethod _ _)) rfl hc fun _ => ⟨rfl, rfl, rfl, rfl, rfl⟩
  | addConstructor =>
    obtain ⟨hc, -, rfl⟩ := (addNewConstructor_makes c w).ok h
    exact hnode (.withConstructor w _) rfl hc fun _ => ⟨rfl, rfl, rfl, rfl, rfl⟩
  | _ => exact hupdate h fun _ => ⟨rfl, rfl, rfl, rfl, rfl⟩

theorem ParameterEdit.keeps {owner : ClassId} {ps : Parameters} {e : ParameterEdit} {r : Parameters × Made}
    (h : apply owner ps e w = (.ok r, w')) : w.Keeps w' := by
  cases e with
  | add name type => obtain ⟨-, -, rfl⟩ := (addNamed_makes w ps name type _).ok h; exact .withReference _ _
  | addUnqualified name type =>
    obtain ⟨-, -, rfl⟩ := (addNamed_makes w ps name type _).ok h; exact .withReference _ _
  | addNew => obtain ⟨-, -, rfl⟩ := (addNew_makes w ps owner).ok h; exact .withReference _ _
  | remove i => obtain ⟨-, -, rfl⟩ := (remove_makes w ps owner i).ok h; exact .refl _

theorem FieldEdit.keeps {f : FieldId} {e : FieldEdit} {made : Made} (h : apply f e w = (.ok made, w')) :
    w.Keeps w' := by
  cases e with
  | setName name => obtain ⟨-, -, rfl⟩ := (setName_makes f w name).ok h; exact .editField fun _ => rfl
  | setModifiers m => obtain ⟨-, -, rfl⟩ := (setModifiers_makes f w m).ok h; exact .editField fun _ => rfl
  | setType name =>
    obtain ⟨-, -, rfl⟩ := (setType_makes f w name).ok h
    exact (World.Keeps.withReference w _).trans (.editField fun _ => rfl)
  | setTypeUnqualified name =>
    obtain ⟨-, -, rfl⟩ := (setTypeUnqualified_makes f w name).ok h
    exact (World.Keeps.withReference w _).trans (.editField fun _ => rfl)
  | setTypeClass c =>
    obtain ⟨-, -, rfl⟩ := (setTypeClass_makes f w c).ok h
    exact (World.Keeps.withReference w _).trans (.editField fun _ => rfl)

theorem MethodEdit.keeps {m : MethodId} {e : MethodEdit} {made : Made} (h : apply m e w = (.ok made, w')) :
    w.Keeps w' := by
  cases e with
  | setName name => obtain ⟨-, -, rfl⟩ := (setName_makes m w name).ok h; exact .editMethod fun _ => rfl
  | setModifiers ms => obtain ⟨-, -, rfl⟩ := (setModifiers_makes m w ms).ok h; exact .editMethod fun _ => rfl
  | setReturnType name =>
    obtain ⟨-, -, rfl⟩ := (setReturnType_makes m w name).ok h
    exact (World.Keeps.withReference w _).trans (.editMethod fun _ => rfl)
  | setReturnTypeUnqualified name =>
    obtain ⟨-, -, rfl⟩ := (setReturnTypeUnqualified_makes m w name).ok h
    exact (World.Keeps.withReference w _).trans (.editMethod fun _ => rfl)
  | parameters e =>
    obtain ⟨p, ⟨ps, made'⟩, v, hv, -⟩ := ParameterEdit.makes w (w.method m).owner (w.method m).parameters e
    obtain ⟨hp, -, rfl⟩ := (parameters_makes hv).ok h
    exact (ParameterEdit.keeps (hv.made hp)).trans (.editMethod fun _ => rfl)

theorem ConstructorEdit.keeps {k : ConstructorId} {e : ConstructorEdit} {made : Made}
    (h : apply k e w = (.ok made, w')) : w.Keeps w' := by
  cases e with
  | setModifiers m =>
    obtain ⟨-, -, rfl⟩ := (setModifiers_makes k w m).ok h; exact .editConstructor fun _ => rfl
  | parameters e =>
    obtain ⟨p, ⟨ps, made'⟩, v, hv, -⟩ :=
      ParameterEdit.makes w (w.constructor k).owner (w.constructor k).parameters e
    obtain ⟨hp, -, rfl⟩ := (parameters_makes hv).ok h
    exact (ParameterEdit.keeps (hv.made hp)).trans (.editConstructor fun _ => rfl)

theorem Edit.keeps {e : Edit} {made : Made} (h : e.apply w = (.ok made, w')) : w.Keeps w' := by
  cases e with
  | onClass c e => exact ClassEdit.keeps h
  | onField f e => exact FieldEdit.keeps h
  | onMethod m e => exact MethodEdit.keeps h
  | onConstructor k e => exact ConstructorEdit.keeps h

namespace World

theorem Keeps.define {l : LoaderId} {package simpleName : String} {imports : List Import} {c : ClassId}
    (h : Loader.define l package simpleName imports w = (.ok c, w')) : w.Keeps w' := by
  obtain ⟨-, -, rfl⟩ := (Loader.define_makes l package simpleName imports w).ok h
  let n := { ClassNode.bare package simpleName .declared (some (.loader l)) (w.loader l).settings with
    imports := imports }
  have hnode : w.Keeps (w.withNode n) := .withNode w n
  have hloader : (w.withNode n).Keeps ((w.withNode n).editLoader l fun x => { x with
      classes := x.classes.insert (Name.qualify package simpleName) w.nextClass
      placeholders := x.placeholders.erase (Name.qualify package simpleName) }) :=
    .editLoader fun _ => ⟨rfl, rfl⟩
  exact { hnode.trans hloader with }

theorem Keeps.standIn (w : World) (l : LoaderId) (name : String) :
    w.Keeps (Loader.placeholder l name w).2 := by
  rw [placeholder_run]
  split
  · exact .refl w
  · exact (Keeps.withNode w _).trans (.editLoader fun _ => ⟨rfl, rfl⟩)

theorem Move.keeps {made : List (LoaderId × ClassId)} (h : Move w made w') : w.Keeps w' := by
  cases h with
  | make h => obtain ⟨-, -, rfl⟩ := (Loader.make_makes _ _ w).ok h; exact .withLoader w _ _
  | define _ _ h => exact .define h
  | defineUncounted _ h => exact .define h
  | create h => obtain ⟨-, -, rfl⟩ := (createClass_makes _ _ _ _ w).ok h; exact .withNode w _
  | edit h => exact Edit.keeps h
  | refer => exact .withReference w _
  | dropInterfaces keep hc => exact .editNode hc fun _ => ⟨rfl, rfl, rfl, rfl, rfl⟩
  | standIn l name => exact .standIn w l name
  | stray => exact .withNode w _
  | remember => exact .editReference fun _ => rfl
  | answer => exact .editLoader fun _ => ⟨rfl, rfl⟩
  | ask => exact .editLoader fun _ => ⟨rfl, rfl⟩
  | aside log hd => exact .aside hd log
  | release => exact .release w _

theorem Moves.keeps {made : List (LoaderId × ClassId)} (h : Moves w made w') : w.Keeps w' := by
  induction h with
  | refl => exact .refl _
  | tail _ hm ih => exact ih.trans hm.keeps

end World

end

end ClassModel
