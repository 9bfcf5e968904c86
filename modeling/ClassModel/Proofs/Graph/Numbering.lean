import ClassModel.Proofs.Graph.Registration
import ClassModel.Proofs.Graph.Rosters
import Mathlib.Logic.Relation

/-!
# Default names

A member that is made without a name is called after a counter of its class, and so is a parameter after
a counter of its method or constructor. As long as nothing is given a name, the names in a list are what
is left of those that its counter has given, so the next one is none of them.
-/

namespace ClassModel

open Change World

namespace Settings

/-- What is left of the first `made` default names. -/
def Numbered (s : Settings) (names : List String) (made : Nat) : Prop :=
  names.Sublist ((List.range made).map s.memberName)

variable {s : Settings} {names : List String} {made : Nat}

theorem Numbered.add (h : s.Numbered names made) : s.Numbered (names ++ [s.memberName made]) (made + 1) := by
  unfold Numbered
  rw [List.range_succ, List.map_append]
  exact h.append (.refl _)

theorem Numbered.remove (h : s.Numbered names made) {names' : List String} (hs : names'.Sublist names) :
    s.Numbered names' made := hs.trans h

theorem Numbered.exists_ordinals (h : s.Numbered names made) :
    ∃ ordinals : List Nat, ordinals.Sublist (List.range made) ∧ names = ordinals.map s.memberName :=
  List.sublist_map_iff.mp h

theorem memberName_mem {ordinals : List Nat} {n : Nat} : s.memberName n ∈ ordinals.map s.memberName ↔ n ∈ ordinals :=
  List.mem_map_of_injective s.memberName_injective

theorem Numbered.fresh (h : s.Numbered names made) : s.memberName made ∉ names := fun hm =>
  List.not_mem_range_self (memberName_mem.mp (h.subset hm))

end Settings

open Settings

def Parameters.names (ps : Parameters) : List String := ps.list.map (·.name)

theorem Parameters.length_names (ps : Parameters) : ps.names.length = ps.list.length := List.length_map _

namespace World

structure Counted (w : World) (s : Settings) (n : ClassNode) : Prop where
  fields : s.Numbered (n.fields.map fun f => (w.field f).name) n.fieldsMade
  methods : s.Numbered (n.methods.map fun m => (w.method m).name) n.methodsMade
  methodParameters : ∀ m ∈ n.methods, s.Numbered (w.method m).parameters.names (w.method m).parameters.made
  constructorParameters : ∀ k ∈ n.constructors,
    s.Numbered (w.constructor k).parameters.names (w.constructor k).parameters.made

section
variable {w w' : World} {s : Settings} {n : ClassNode} {c : ClassId}

theorem Counted.ofEmpty (hf : n.fields = []) (hm : n.methods = []) (hk : n.constructors = []) : w.Counted s n := by
  refine ⟨?_, ?_, ?_, ?_⟩
  · rw [hf]; exact List.nil_sublist _
  · rw [hm]; exact List.nil_sublist _
  · rw [hm]; exact fun m h => absurd h List.not_mem_nil
  · rw [hk]; exact fun k h => absurd h List.not_mem_nil

theorem Counted.same (h : w.Counted s (w.node c)) (hr : w.SameRoster w') : w'.Counted s (w'.node c) := by
  obtain ⟨hfields, hmethods, hconstructors, hfieldsMade, hmethodsMade⟩ := hr.node c
  refine ⟨?_, ?_, fun m hm => ?_, fun k hk => ?_⟩
  · simpa only [hfields, hfieldsMade, hr.fieldName] using h.fields
  · simpa only [hmethods, hmethodsMade, hr.methodName] using h.methods
  · rw [hr.methodParameters]; exact h.methodParameters m (hmethods ▸ hm)
  · rw [hr.constructorParameters]; exact h.constructorParameters k (hconstructors ▸ hk)

/-- Only the record of the class itself matters. -/
theorem Counted.editNode (h : w.Counted s (w.node c)) {d : ClassId} {f : ClassNode → ClassNode}
    (hf : d = c → w.Counted s (f (w.node c))) : (w.editNode d f).Counted s ((w.editNode d f).node c) := by
  have hnode {n : ClassNode} (h : w.Counted s n) : (w.editNode d f).Counted s n :=
    ⟨h.fields, h.methods, h.methodParameters, h.constructorParameters⟩
  rw [node_editNode]
  split
  · rename_i hd; exact hnode (hf hd.1)
  · exact hnode h

section
variable (h : w.Counted s n)
include h

/-! A new record is none that the class lists. -/

theorem Counted.withField (hlt : ∀ f ∈ n.fields, f.index < w.fields.size) (x : Field) :
    (w.withField x).Counted s n :=
  { h with
    fields := by
      have : (n.fields.map fun f => ((w.withField x).field f).name) = n.fields.map fun f => (w.field f).name :=
        List.map_congr_left fun f hf => congrArg Field.name (Store.get_push_of_lt w.fields x (hlt f hf))
      rw [this]; exact h.fields }

theorem Counted.withMethod (hlt : ∀ m ∈ n.methods, m.index < w.methods.size) (x : Method) :
    (w.withMethod x).Counted s n := by
  have hold (m) (hm : m ∈ n.methods) : (w.withMethod x).method m = w.method m :=
    Store.get_push_of_lt w.methods x (hlt m hm)
  refine ⟨h.fields, ?_, fun m hm => ?_, h.constructorParameters⟩
  · rw [List.map_congr_left fun m hm => congrArg Method.name (hold m hm)]; exact h.methods
  · rw [hold m hm]; exact h.methodParameters m hm

theorem Counted.withConstructor (hlt : ∀ k ∈ n.constructors, k.index < w.constructors.size) (x : Constructor) :
    (w.withConstructor x).Counted s n :=
  { h with
    constructorParameters := fun k hk => by
      rw [show (w.withConstructor x).constructor k = w.constructor k from
        Store.get_push_of_lt w.constructors x (hlt k hk)]
      exact h.constructorParameters k hk }

/-! A member under the next default name, listed behind the others. -/

theorem Counted.listField (hlt : ∀ f ∈ n.fields, f.index < w.fields.size) {x : Field}
    (hx : x.name = s.memberName n.fieldsMade) :
    (w.withField x).Counted s { n with fields := n.fields ++ [w.nextField], fieldsMade := n.fieldsMade + 1 } := by
  have h₁ := h.withField hlt x
  have hnext : (w.withField x).field w.nextField = x := Store.get_push_self _ _
  refine { h₁ with fields := ?_ }
  simp only [List.map_append, List.map_cons, List.map_nil, hnext, hx]
  exact h₁.fields.add

theorem Counted.listMethod (hlt : ∀ m ∈ n.methods, m.index < w.methods.size) {x : Method}
    (hx : x.name = s.memberName n.methodsMade) (hps : x.parameters = ⟨[], 0⟩) :
    (w.withMethod x).Counted s
      { n with methods := n.methods ++ [w.nextMethod], methodsMade := n.methodsMade + 1 } := by
  have h₁ := h.withMethod hlt x
  have hnext : (w.withMethod x).method w.nextMethod = x := Store.get_push_self _ _
  refine { h₁ with methods := ?_, methodParameters := fun m hm => ?_ }
  · simp only [List.map_append, List.map_cons, List.map_nil, hnext, hx]
    exact h₁.methods.add
  · rcases List.mem_append.mp hm with hm | hm
    · exact h₁.methodParameters m hm
    · cases List.mem_singleton.mp hm
      rw [hnext, hps]
      exact List.nil_sublist _

theorem Counted.listConstructor (hlt : ∀ k ∈ n.constructors, k.index < w.constructors.size) {x : Constructor}
    (hps : x.parameters = ⟨[], 0⟩) :
    (w.withConstructor x).Counted s { n with constructors := n.constructors ++ [w.nextConstructor] } := by
  have h₁ := h.withConstructor hlt x
  have hnext : (w.withConstructor x).constructor w.nextConstructor = x := Store.get_push_self _ _
  refine { h₁ with constructorParameters := fun k hk => ?_ }
  rcases List.mem_append.mp hk with hk | hk
  · exact h₁.constructorParameters k hk
  · cases List.mem_singleton.mp hk
    rw [hnext, hps]
    exact List.nil_sublist _

theorem Counted.editField {i : FieldId} {f : Field → Field}
    (hf : i ∈ n.fields → (f (w.field i)).name = (w.field i).name) : (w.editField i f).Counted s n :=
  { h with
    fields := by
      have : (n.fields.map fun j => ((w.editField i f).field j).name) = n.fields.map fun j => (w.field j).name :=
        List.map_congr_left fun j hj => by
          rw [field_editField]
          split
          · rename_i hij; obtain ⟨rfl, -⟩ := hij; exact hf hj
          · rfl
      rw [this]; exact h.fields }

/-- Of a method that the class lists, the name stays and the parameters stay numbered. -/
theorem Counted.editMethod {i : MethodId} {f : Method → Method} (hf : i ∈ n.methods →
    (f (w.method i)).name = (w.method i).name ∧
      s.Numbered (f (w.method i)).parameters.names (f (w.method i)).parameters.made) :
    (w.editMethod i f).Counted s n := by
  refine ⟨h.fields, ?_, fun j hj => ?_, h.constructorParameters⟩
  · have : (n.methods.map fun j => ((w.editMethod i f).method j).name) = n.methods.map fun j => (w.method j).name :=
      List.map_congr_left fun j hj => by
        rw [method_editMethod]
        split
        · rename_i hij; obtain ⟨rfl, -⟩ := hij; exact (hf hj).1
        · rfl
    rw [this]; exact h.methods
  · rw [method_editMethod]
    split
    · rename_i hij; obtain ⟨rfl, -⟩ := hij; exact (hf hj).2
    · exact h.methodParameters j hj

theorem Counted.editConstructor {i : ConstructorId} {f : Constructor → Constructor} (hf : i ∈ n.constructors →
    s.Numbered (f (w.constructor i)).parameters.names (f (w.constructor i)).parameters.made) :
    (w.editConstructor i f).Counted s n :=
  { h with
    constructorParameters := fun j hj => by
      rw [constructor_editConstructor]
      split
      · rename_i hij; obtain ⟨rfl, -⟩ := hij; exact hf hj
      · exact h.constructorParameters j hj }

end

end

end World

/-! ## Edits that give no name -/

def ParameterEdit.Names : ParameterEdit → Prop
  | .add _ _ | .addUnqualified _ _ => True
  | .addNew | .remove _ => False

def Edit.Names (w : World) (c : ClassId) : Edit → Prop
  | .onField f (.setName _) => w.ownerOf (.field f) = c
  | .onMethod m (.setName _) => w.ownerOf (.method m) = c
  | .onMethod m (.parameters e) => w.ownerOf (.method m) = c ∧ e.Names
  | .onConstructor k (.parameters e) => w.ownerOf (.constructor k) = c ∧ e.Names
  | _ => False

section
variable {w w' : World} {s : Settings} {c : ClassId} {made : List (LoaderId × ClassId)}

theorem ParameterEdit.Records.numbered {ps ps' : Parameters} {e : ParameterEdit} (h : e.Records s ps ps')
    (hps : s.Numbered ps.names ps.made) (hn : ¬ e.Names) : s.Numbered ps'.names ps'.made := by
  cases h with
  | add p => exact (hn trivial).elim
  | addUnqualified p => exact (hn trivial).elim
  | addNew p hp =>
    have hnames : (Parameters.mk (ps.list ++ [p]) (ps.made + 1)).names = ps.names ++ [s.memberName ps.made] := by
      simp [Parameters.names, hp]
    rw [hnames]
    exact hps.add
  | remove i => exact hps.remove ((List.eraseIdx_sublist _ i).map _)

/-- A class has counted as before once an edit is made that gives no name in it. -/
theorem World.Counted.edit (h : w.Counted s (w.node c)) (hw : w.Sound made) (hs : (w.node c).settings = s)
    {e : Edit} (he : e.Records w w') (hn : ¬ e.Names w c) : w'.Counted s (w'.node c) := by
  have hnode := hw.nodes c
  have hfields (f) (hf : f ∈ (w.node c).fields) : f.index < w.fields.size := (hnode.fields f hf).1
  have hmethods (m) (hm : m ∈ (w.node c).methods) : m.index < w.methods.size := (hnode.methods m hm).1
  have hconstructors (k) (hk : k ∈ (w.node c).constructors) : k.index < w.constructors.size :=
    (hnode.constructors k hk).1
  cases he with
  | nothing _ hr => exact h.same hr
  | addField x hx hr =>
    refine ((h.withField hfields x).editNode fun hd => ?_).same hr
    subst hd
    exact h.listField hfields (hs ▸ hx)
  | addMethod x hx hps hr =>
    refine ((h.withMethod hmethods x).editNode fun hd => ?_).same hr
    subst hd
    exact h.listMethod hmethods (hs ▸ hx) hps
  | addConstructor x hps hr =>
    refine ((h.withConstructor hconstructors x).editNode fun hd => ?_).same hr
    subst hd
    exact h.listConstructor hconstructors hps
  | removeField f =>
    exact h.editNode fun _ => { h with fields := h.fields.remove (List.filter_sublist.map _) }
  | removeMethod m =>
    exact h.editNode fun _ =>
      { h with
        methods := h.methods.remove (List.filter_sublist.map _)
        methodParameters := fun m hm => h.methodParameters m (List.mem_of_mem_filter hm) }
  | removeConstructor k =>
    exact h.editNode fun _ =>
      { h with constructorParameters := fun k hk => h.constructorParameters k (List.mem_of_mem_filter hk) }
  -- a new name for a member of the class is what `hn` rules out
  | renameField name => exact h.editField fun hf => (hn (hnode.fields _ hf).2).elim
  | renameMethod name => exact h.editMethod fun hm => (hn (hnode.methods _ hm).2).elim
  | @methodParameters m e ps _ hps hr =>
    refine (h.editMethod fun hm => ⟨rfl, ?_⟩).same hr
    have ho := (hnode.methods m hm).2
    rw [ho, hs] at hps
    exact hps.numbered (h.methodParameters m hm) fun he => hn ⟨ho, he⟩
  | @constructorParameters k e ps _ hps hr =>
    refine (h.editConstructor fun hk => ?_).same hr
    have ho := (hnode.constructors k hk).2
    rw [ho, hs] at hps
    exact hps.numbered (h.constructorParameters k hk) fun he => hn ⟨ho, he⟩

/-- A step that gives no name in the class: an edit, or a move that leaves all rosters alone. -/
inductive World.Unnamed (c : ClassId) (w w' : World) : Prop
  | edit {e : Edit} {a : Made} : e.apply w = (.ok a, w') → ¬ e.Names w c → Unnamed c w w'
  | aside {made : List (LoaderId × ClassId)} : Move w made w' → w.SameRoster w' → Unnamed c w w'

theorem World.Unnamed.move (h : Unnamed c w w') : ∃ made, Move w made w' := by
  cases h with
  | edit he => exact ⟨_, .edit he⟩
  | aside hm => exact ⟨_, hm⟩

theorem World.Unnamed.counted (h : Unnamed c w w') (hw : w.Sound made) (hs : (w.node c).settings = s)
    (hn : w.Counted s (w.node c)) : w'.Counted s (w'.node c) := by
  cases h with
  | edit he hnot => exact hn.edit hw hs (Edit.records he) hnot
  | aside _ hr => exact hn.same hr

/-- Every move is such a step, unless it is an edit that gives a name in the class. -/
theorem World.Move.unnamed_or_names (h : Move w made w') (c : ClassId) :
    Unnamed c w w' ∨ ∃ e : Edit, ∃ a, e.apply w = (.ok a, w') ∧ e.Names w c := by
  rcases h.edit_or_sameRoster with ⟨e, a, he⟩ | hr
  · by_cases hn : e.Names w c
    · exact .inr ⟨e, a, he, hn⟩
    · exact .inl (.edit he hn)
  · exact .inl (.aside h hr)

/-- However many steps are made, the class has counted what it lists. -/
theorem World.Counted.run (hw : Reached w made) (hc : c.index < w.nodes.size) (hs : (w.node c).settings = s)
    (hn : w.Counted s (w.node c)) (h : Relation.ReflTransGen (Unnamed c) w w') :
    ∃ made', Moves w made' w' ∧ w'.Counted s (w'.node c) := by
  induction h with
  | refl => exact ⟨[], .refl w, hn⟩
  | @tail w₁ w₂ _ hstep ih =>
    obtain ⟨made₁, hm, hn₁⟩ := ih
    obtain ⟨made₂, hmove⟩ := hstep.move
    have hs₁ : (w₁.node c).settings = s := by rw [(hm.keeps.same c hc).settings, hs]
    exact ⟨made₁ ++ made₂, hm.tail hmove, hstep.counted (World.Reached.sound (hw.trans hm)) hs₁ hn₁⟩

end

/-! ## The next name -/

def World.nameMade? (w : World) : Made → Option String
  | .field f => some (w.memberName (.field f))
  | .method m => some (w.memberName (.method m))
  | .parameter p => some p.name
  | .nothing | .constructor _ => none

def World.Gives (w : World) (e : Edit) (name : String) : Prop :=
  ∃ a w', e.apply w = (.ok a, w') ∧ w'.nameMade? a = some name

def ClassEdit.add : MemberKind → ClassEdit
  | .field => .addField
  | .method => .addMethod

def ClassNode.made (n : ClassNode) : MemberKind → Nat
  | .field => n.fieldsMade
  | .method => n.methodsMade

section
variable {w : World} {s : Settings} {c : ClassId}

theorem gives_member (hc : w.Editable c) (hs : (w.node c).settings = s) (kind : MemberKind) :
    w.Gives (.onClass c (.add kind)) (s.memberName ((w.node c).made kind)) := by
  subst hs
  cases kind with
  | field =>
    exact ⟨_, _, (ClassEdit.addNewField_makes c w).made hc,
      congrArg (fun x : Field => some x.name) (Store.get_push_self w.fields _)⟩
  | method =>
    exact ⟨_, _, (ClassEdit.addNewMethod_makes c w).made hc,
      congrArg (fun x : Method => some x.name) (Store.get_push_self w.methods _)⟩

theorem gives_methodParameter {m : MethodId} (hs : (w.node (w.method m).owner).settings = s) :
    w.Gives (.onMethod m (.parameters .addNew)) (s.memberName (w.method m).parameters.made) := by
  subst hs
  exact ⟨_, _, (MethodEdit.parameters_makes (ParameterEdit.addNew_makes w _ _)).made trivial, rfl⟩

theorem gives_constructorParameter {k : ConstructorId} (hs : (w.node (w.constructor k).owner).settings = s) :
    w.Gives (.onConstructor k (.parameters .addNew)) (s.memberName (w.constructor k).parameters.made) := by
  subst hs
  exact ⟨_, _, (ConstructorEdit.parameters_makes (ParameterEdit.addNew_makes w _ _)).made trivial, rfl⟩

theorem World.Counted.declared (h : w.Counted s (w.node c)) (kind : MemberKind) :
    s.Numbered ((w.declared kind c).map w.memberName) ((w.node c).made kind) := by
  have hsublist {α : Type} {ids : List α} {f : α → Member} (b : Bool) :
      (((if b then [] else ids).map f).map w.memberName).Sublist ((ids.map f).map w.memberName) := by
    cases b
    · exact .refl _
    · exact List.nil_sublist _
  cases kind with
  | field =>
    refine Numbered.remove ?_ (hsublist _)
    rw [List.map_map]
    exact h.fields
  | method =>
    refine Numbered.remove ?_ (hsublist _)
    rw [List.map_map]
    exact h.methods

end

end ClassModel
