import ClassModel.Proofs.Graph.Numbering
import ClassModel.Proofs.Snapshot.Queries

/-!
# Default names in restored classes

A snapshot shows which members are left and not how many there have been. Restoring makes and counts the
ones that are left, so a restored class goes on from their number. The name that this gives is taken
already exactly if the member of that number is among them, which needs that others have been removed.
-/

namespace ClassModel

open Change World

/-! ## Steps that remove nothing -/

def Parameters.lost (ps : Parameters) : Int := ps.made - ps.list.length

def ClassNode.members (n : ClassNode) : MemberKind → List Member
  | .field => n.fields.map .field
  | .method => n.methods.map .method

def ClassNode.lost (n : ClassNode) (kind : MemberKind) : Int := n.made kind - (n.members kind).length

namespace World

structure LosesNone (w w' : World) : Prop where
  members : ∀ c kind, (w'.node c).lost kind = (w.node c).lost kind
  methodParameters : ∀ m, (w'.method m).parameters.lost = (w.method m).parameters.lost
  constructorParameters : ∀ k, (w'.constructor k).parameters.lost = (w.constructor k).parameters.lost
  methods : ∀ c, ∀ m ∈ (w'.node c).methods, m ∈ (w.node c).methods ∨ w.methods.size ≤ m.index
  constructors : ∀ c, ∀ k ∈ (w'.node c).constructors, k ∈ (w.node c).constructors ∨ w.constructors.size ≤ k.index
  methodsSize : w.methods.size ≤ w'.methods.size
  constructorsSize : w.constructors.size ≤ w'.constructors.size

namespace LosesNone

variable {w w₁ w' : World}

instance : IsPreorder World LosesNone where
  refl _ := ⟨fun _ _ => rfl, fun _ => rfl, fun _ => rfl, fun _ _ => .inl, fun _ _ => .inl, Nat.le_refl _, Nat.le_refl _⟩
  trans _ _ _ h h' :=
    { members := fun c kind => (h'.members c kind).trans (h.members c kind)
      methodParameters := fun m => (h'.methodParameters m).trans (h.methodParameters m)
      constructorParameters := fun k => (h'.constructorParameters k).trans (h.constructorParameters k)
      methods := fun c m hm => (h'.methods c m hm).elim (h.methods c m) fun hle => .inr (Nat.le_trans h.methodsSize hle)
      constructors := fun c k hk => (h'.constructors c k hk).elim (h.constructors c k) fun hle =>
        .inr (Nat.le_trans h.constructorsSize hle)
      methodsSize := Nat.le_trans h.methodsSize h'.methodsSize
      constructorsSize := Nat.le_trans h.constructorsSize h'.constructorsSize }

theorem refl (w : World) : w.LosesNone w := refl_of LosesNone w

theorem trans (h : w.LosesNone w₁) (h' : w₁.LosesNone w') : w.LosesNone w' := trans_of LosesNone h h'

theorem ofSame (h : w.SameRoster w') : w.LosesNone w' where
  members c kind := by
    obtain ⟨hfields, hmethods, -, hfieldsMade, hmethodsMade⟩ := h.node c
    cases kind <;> simp only [ClassNode.lost, ClassNode.members, ClassNode.made, *]
  methodParameters m := by rw [h.methodParameters]
  constructorParameters k := by rw [h.constructorParameters]
  methods c m hm := .inl ((h.node c).methods ▸ hm)
  constructors c k hk := .inl ((h.node c).constructors ▸ hk)
  methodsSize := Nat.le_of_eq h.methodsSize.symm
  constructorsSize := Nat.le_of_eq h.constructorsSize.symm

theorem withMethod (w : World) {x : Method} (hx : x.parameters = ⟨[], 0⟩) : w.LosesNone (w.withMethod x) :=
  { refl w with
    methodParameters := fun m => by
      rw [method_withMethod]
      split
      · rename_i hm
        rw [hx, show w.method m = default from Store.get_of_size_le _ (Nat.le_of_eq hm.symm)]; rfl
      · rfl
    methodsSize := by show _ ≤ (w.methods.push x).size; rw [Store.size_push]; exact Nat.le_succ _ }

theorem withConstructor (w : World) {x : Constructor} (hx : x.parameters = ⟨[], 0⟩) :
    w.LosesNone (w.withConstructor x) :=
  { refl w with
    constructorParameters := fun k => by
      rw [constructor_withConstructor]
      split
      · rename_i hk
        rw [hx, show w.constructor k = default from Store.get_of_size_le _ (Nat.le_of_eq hk.symm)]; rfl
      · rfl
    constructorsSize := by show _ ≤ (w.constructors.push x).size; rw [Store.size_push]; exact Nat.le_succ _ }

/-- A class may list what is new since `w`. -/
theorem editNode (h : w.LosesNone w₁) (c : ClassId) {f : ClassNode → ClassNode}
    (hlost : ∀ n kind, (f n).lost kind = n.lost kind)
    (hm : ∀ n, ∀ m ∈ (f n).methods, m ∈ n.methods ∨ w.methods.size ≤ m.index)
    (hk : ∀ n, ∀ k ∈ (f n).constructors, k ∈ n.constructors ∨ w.constructors.size ≤ k.index) :
    w.LosesNone (w₁.editNode c f) := by
  have hnode (d) : (w₁.editNode c f).node d = w₁.node d ∨ (w₁.editNode c f).node d = f (w₁.node d) := by
    rw [node_editNode]
    split
    · exact .inr rfl
    · exact .inl rfl
  refine { h with members := fun d kind => ?_, methods := fun d m hmem => ?_, constructors := fun d k hmem => ?_ }
  · rcases hnode d with hd | hd <;> rw [hd]
    · exact h.members d kind
    · rw [hlost]; exact h.members d kind
  · rcases hnode d with hd | hd <;> rw [hd] at hmem
    · exact h.methods d m hmem
    · exact (hm _ m hmem).elim (h.methods d m) .inr
  · rcases hnode d with hd | hd <;> rw [hd] at hmem
    · exact h.constructors d k hmem
    · exact (hk _ k hmem).elim (h.constructors d k) .inr

theorem editMethod (i : MethodId) {f : Method → Method}
    (hf : (f (w.method i)).parameters.lost = (w.method i).parameters.lost) : w.LosesNone (w.editMethod i f) :=
  { refl w with
    methodParameters := fun m => by
      rw [method_editMethod]
      split
      · rename_i hm; obtain ⟨rfl, -⟩ := hm; exact hf
      · rfl
    methodsSize := Nat.le_of_eq (Store.size_modify _ _ _).symm }

theorem editConstructor (i : ConstructorId) {f : Constructor → Constructor}
    (hf : (f (w.constructor i)).parameters.lost = (w.constructor i).parameters.lost) :
    w.LosesNone (w.editConstructor i f) :=
  { refl w with
    constructorParameters := fun k => by
      rw [constructor_editConstructor]
      split
      · rename_i hk; obtain ⟨rfl, -⟩ := hk; exact hf
      · rfl
    constructorsSize := Nat.le_of_eq (Store.size_modify _ _ _).symm }

end LosesNone

end World

theorem ParameterEdit.Records.lost {s : Settings} {ps ps' : Parameters} {e : ParameterEdit} (h : e.Records s ps ps')
    (hn : ∀ i, e ≠ .remove i) : ps'.lost = ps.lost := by
  cases h with
  | remove i => exact (hn i rfl).elim
  | _ => simp only [Parameters.lost, List.length_append, List.length_cons, List.length_nil]; omega

theorem Edit.Records.losesNone {w w' : World} {e : Edit} (h : e.Records w w') (hn : ¬ e.Removes) : w.LosesNone w' := by
  cases h with
  | nothing _ hr => exact .ofSame hr
  | @addField c _ x hx hr =>
    have hfield : w.LosesNone (w.withField x) := { LosesNone.refl w with }
    refine .trans ?_ (.ofSame hr)
    refine hfield.editNode c (fun n kind => ?_) (fun _ _ => .inl) fun _ _ => .inl
    cases kind with
    -- one more is made, and one more is listed
    | field => simp only [ClassNode.lost, ClassNode.members, ClassNode.made, List.map_append, List.length_append,
        List.map_cons, List.map_nil, List.length_cons, List.length_nil]; omega
    | method => rfl
  | @addMethod c _ x hx hps hr =>
    refine .trans ?_ (.ofSame hr)
    refine (LosesNone.withMethod w hps).editNode c (fun n kind => ?_) (fun n m hm => ?_) fun _ _ => .inl
    · cases kind with
      | field => rfl
      | method => simp only [ClassNode.lost, ClassNode.members, ClassNode.made, List.map_append, List.length_append,
          List.map_cons, List.map_nil, List.length_cons, List.length_nil]; omega
    · exact (List.mem_append.mp hm).imp_right fun hm => by rw [List.mem_singleton.mp hm]; exact Nat.le_refl _
  | @addConstructor c _ x hps hr =>
    refine .trans ?_ (.ofSame hr)
    refine (LosesNone.withConstructor w hps).editNode c (fun n kind => ?_) (fun _ _ => .inl) fun n k hk => ?_
    · cases kind <;> rfl
    · exact (List.mem_append.mp hk).imp_right fun hk => by rw [List.mem_singleton.mp hk]; exact Nat.le_refl _
  | removeField f => exact (hn trivial).elim
  | removeMethod m => exact (hn trivial).elim
  | removeConstructor k => exact (hn trivial).elim
  | renameField name => exact { LosesNone.refl w with }
  | renameMethod name => exact .editMethod _ rfl
  | @methodParameters m e ps _ hps hr =>
    refine .trans (.editMethod m ?_) (.ofSame hr)
    exact hps.lost fun i hi => hn (hi ▸ trivial)
  | @constructorParameters k e ps _ hps hr =>
    refine .trans (.editConstructor k ?_) (.ofSame hr)
    exact hps.lost fun i hi => hn (hi ▸ trivial)

theorem losesNone_restore (settings : Settings) (s : Snapshot) : Within LosesNone (s.restore settings) :=
  Rebuilding.restore
    { make := fun settings => (SameRoster.make settings []).mono fun _ _ => .ofSame
      define := fun l package simpleName imports =>
        (SameRoster.define l package simpleName imports).mono fun _ _ => .ofSame
      edit := fun e hn => .ofMakes fun w => by
        obtain ⟨p, made, w', h, -⟩ := e.makes w
        exact ⟨p, made, w', h, fun hp => (Edit.records (h.made hp)).losesNone hn.removes⟩
      log := fun e => (SameRoster.log e).mono fun _ _ => .ofSame } settings s

/-- What is new has counted what it lists. -/
theorem World.LosesNone.counts {w w' : World} (h : w.LosesNone w') {c : ClassId} (hc : w.nodes.size ≤ c.index) :
    (∀ kind, (w'.node c).made kind = ((w'.node c).members kind).length) ∧
      (∀ m ∈ (w'.node c).methods, (w'.method m).parameters.made = (w'.method m).parameters.list.length) ∧
      ∀ k ∈ (w'.node c).constructors,
        (w'.constructor k).parameters.made = (w'.constructor k).parameters.list.length := by
  have hdefault : w.node c = default := Store.get_of_size_le _ hc
  refine ⟨fun kind => ?_, fun m hm => ?_, fun k hk => ?_⟩
  · have hlost := h.members c kind
    have : (default : ClassNode).lost kind = 0 := by cases kind <;> rfl
    rw [hdefault, this] at hlost
    unfold ClassNode.lost at hlost
    omega
  · have hlost := h.methodParameters m
    rcases h.methods c m hm with hold | hnew
    · rw [hdefault] at hold; cases hold
    · rw [show w.method m = default from Store.get_of_size_le _ hnew] at hlost
      have : (default : Method).parameters.lost = 0 := rfl
      rw [this] at hlost
      unfold Parameters.lost at hlost
      omega
  · have hlost := h.constructorParameters k
    rcases h.constructors c k hk with hold | hnew
    · rw [hdefault] at hold; cases hold
    · rw [show w.constructor k = default from Store.get_of_size_le _ hnew] at hlost
      have : (default : Constructor).parameters.lost = 0 := rfl
      rw [this] at hlost
      unfold Parameters.lost at hlost
      omega

/-! ## Restored classes -/

/-- A counter of 32 bits that stands here can count one more. -/
def HasRoom (made : Nat) : Prop := made + 1 < UInt32.size

instance (made : Nat) : Decidable (HasRoom made) := Nat.decLt _ _

theorem HasRoom.mono {n made : Nat} (h : HasRoom made) (hle : n ≤ made) : HasRoom n :=
  Nat.lt_of_le_of_lt (Nat.add_le_add_right hle 1) h

structure World.RoomIn (w : World) (c : ClassId) : Prop where
  members : ∀ kind, HasRoom ((w.node c).made kind)
  methodParameters : ∀ m ∈ (w.node c).methods, HasRoom (w.method m).parameters.made
  constructorParameters : ∀ k ∈ (w.node c).constructors, HasRoom (w.constructor k).parameters.made

/-- A list of names and its copy. The names are those left of the first `made` that a counter has given.
In the original `e` gives the next one after all that there have been. In the copy `e'` gives the one
that was given after as many as are left, which may be left itself if any have been removed. Both counters
have room for it. -/
structure Recounted (s : Settings) (made : Nat) (w : World) (names : List String) (e : Edit)
    (v : World) (names' : List String) (e' : Edit) : Prop where
  copied : names' = names
  room : HasRoom made
  copy_room : HasRoom names.length
  original : w.Gives e (s.memberName made)
  original_fresh : s.memberName made ∉ names
  copy : v.Gives e' (s.memberName names.length)
  copy_fresh : ∃ ordinals : List Nat, ordinals.Sublist (List.range made) ∧ names = ordinals.map s.memberName ∧
    (s.memberName names.length ∉ names' ↔ names.length ∉ ordinals)
  copy_fresh_of_all : names.length = made → s.memberName names.length ∉ names'

theorem Settings.Numbered.recounted {s : Settings} {names names' : List String} {made : Nat}
    (h : s.Numbered names made) (hroom : HasRoom made) (hcopied : names' = names) {w v : World} {e e' : Edit}
    (hw : w.Gives e (s.memberName made)) (hv : v.Gives e' (s.memberName names'.length)) :
    Recounted s made w names e v names' e' := by
  subst hcopied
  obtain ⟨ordinals, hleft, hnames⟩ := h.exists_ordinals
  have hiff (n : Nat) : s.memberName n ∉ names' ↔ n ∉ ordinals := by
    rw [hnames]; exact not_congr Settings.memberName_mem
  have hle : names'.length ≤ made := by simpa [hnames] using hleft.length_le
  exact ⟨rfl, hroom, hroom.mono hle, hw, h.fresh, hv, ⟨ordinals, hleft, hnames, hiff _⟩, fun hall => hall ▸ h.fresh⟩

namespace World

section
variable {w v : World} {c c' : ClassId} {settings : Settings}

structure Copies (w v : World) (c c' : ClassId) : Prop where
  built : v.Built c' (w.captureClass c).trimmed
  made : ∀ kind, (v.node c').made kind = ((v.node c').members kind).length
  methodParameters : ∀ m ∈ (v.node c').methods, (v.method m).parameters.made = (v.method m).parameters.list.length
  constructorParameters : ∀ k ∈ (v.node c').constructors,
    (v.constructor k).parameters.made = (v.constructor k).parameters.list.length

theorem Copies.fields (h : w.Copies v c c') :
    (v.node c').fields.map v.captureField = (w.node c).declaredFields.map w.captureField :=
  map_eq_of_forall₂ (fun h => BuiltField.capture h) h.built.fields

theorem Copies.methods (h : w.Copies v c c') :
    (v.node c').methods.map v.captureMethod = (w.node c).declaredMethods.map w.captureMethod :=
  map_eq_of_forall₂ (fun h => BuiltMethod.capture h) h.built.methods

theorem Copies.constructors (h : w.Copies v c c') :
    (v.node c').constructors.map v.captureConstructor = (w.node c).declaredConstructors.map w.captureConstructor :=
  map_eq_of_forall₂ (fun h => BuiltConstructor.capture h) h.built.constructors

/-- What the original hides has not been restored, so the copy has nothing to hide. -/
theorem Copies.shown (h : w.Copies v c c') : (v.node c').declaredFields = (v.node c').fields ∧
    (v.node c').declaredMethods = (v.node c').methods ∧
    (v.node c').declaredConstructors = (v.node c').constructors := by
  have hunresolved : (v.node c').isUnresolved = (w.node c).isUnresolved := h.built.isUnresolved
  have hfields := h.fields
  have hmethods := h.methods
  have hconstructors := h.constructors
  unfold ClassNode.declaredFields ClassNode.declaredMethods ClassNode.declaredConstructors at *
  rw [hunresolved]
  split
  · rename_i hu
    rw [if_pos hu, List.map_nil, List.map_eq_nil_iff] at hfields hmethods hconstructors
    exact ⟨hfields.symm, hmethods.symm, hconstructors.symm⟩
  · exact ⟨rfl, rfl, rfl⟩

theorem Copies.declared (h : w.Copies v c c') (kind : MemberKind) :
    (v.declared kind c').map v.memberName = (w.declared kind c).map w.memberName := by
  obtain ⟨hfields, hmethods, -⟩ := h.shown
  cases kind with
  | field =>
    have := congrArg (List.map FieldSnapshot.name) h.fields
    simpa [World.declared, hfields, captureField, memberName, Function.comp_def] using this
  | method =>
    have := congrArg (List.map MethodSnapshot.name) h.methods
    simpa [World.declared, hmethods, captureMethod, memberName, Function.comp_def] using this

theorem Copies.made_eq (h : w.Copies v c c') (kind : MemberKind) :
    (v.node c').made kind = ((v.declared kind c').map v.memberName).length := by
  obtain ⟨hfields, hmethods, -⟩ := h.shown
  rw [h.made kind, List.length_map]
  cases kind
  · exact congrArg (fun fs => (fs.map Member.field).length) hfields.symm
  · exact congrArg (fun ms => (ms.map Member.method).length) hmethods.symm

theorem captureParameters_names (w : World) (ps : Parameters) : (w.captureParameters ps).map (·.name) = ps.names := by
  simp [captureParameters, Parameters.names]

end

end World

theorem Snapshot.RestoredAs.copies {settings : Settings} {s : Snapshot} {w v₀ v : World} {l' : LoaderId}
    {c c' : ClassId} {pairs : List (ClassSnapshot × ClassId)} (hr : Snapshot.RestoredAs settings s v₀ l' v pairs)
    (hlost : v₀.LosesNone v) (hp : (w.captureClass c, c') ∈ pairs) : w.Copies v c c' := by
  have hmem := hr.mem_classes.mpr ⟨_, hp, rfl⟩
  obtain ⟨hmade, hmethods, hconstructors⟩ := hlost.counts (hr.fresh _ (List.mem_append_right _ hmem))
  exact ⟨hr.built _ hp, hmade, hmethods, hconstructors⟩

namespace World

section
variable {w w₀ w₁ v : World} {s : Settings} {l : LoaderId} {c c' : ClassId} {made : List (LoaderId × ClassId)}

/-- A class that has just been defined has counted nothing yet. -/
theorem counted_of_define {package simpleName : String} {imports : List Import} (hl : l.index < w₀.loaders.size)
    (h : Loader.define l package simpleName imports w₀ = (.ok c, w₁)) : c.index < w₁.nodes.size ∧
      w₁.nameOf c = Name.qualify package simpleName ∧ w₁.Editable c ∧
      (w₁.node c).settings = (w₁.loader l).settings ∧ w₁.Counted (w₁.loader l).settings (w₁.node c) ∧
      (w₁.loader l).classes.get? (Name.qualify package simpleName) = some c := by
  obtain ⟨-, rfl, rfl⟩ := (Loader.define_makes l package simpleName imports w₀).ok h
  have hloader := loader_withDefined_self package simpleName imports hl
  refine ⟨by rw [size_withDefined]; exact Nat.lt_succ_self _, nameOf_withDefined_self _ _ _, ?_, ?_, ?_, ?_⟩
  · unfold Editable; rw [node_withDefined_self]; rfl
  · rw [node_withDefined_self, hloader]; rfl
  · rw [node_withDefined_self]; exact .ofEmpty rfl rfl rfl
  · rw [hloader]; exact Registry.get?_insert_self _ _ _

theorem exists_move_of_define {package simpleName : String} {imports : List Import}
    (h : Loader.define l package simpleName imports w₀ = (.ok c, w₁)) : ∃ made, Move w₀ made w₁ := by
  by_cases hc : l.index < w₀.loaders.size ∧ w₀.Unregistered c
  · exact ⟨_, .define hc.1 hc.2 h⟩
  · exact ⟨_, .defineUncounted hc h⟩

section
variable (hn : w.Counted s (w.node c)) (hroom : w.RoomIn c) (hs : (w.node c).settings = s) (h : w.Copies v c c')
  (hs' : (v.node c').settings = s)
include hn hroom hs h hs'

theorem Copies.recounted (hc : w.Editable c) (kind : MemberKind) : Recounted s ((w.node c).made kind)
    w ((w.declared kind c).map w.memberName) (.onClass c (.add kind))
    v ((v.declared kind c').map v.memberName) (.onClass c' (.add kind)) :=
  (hn.declared kind).recounted (hroom.members kind) (h.declared kind) (gives_member hc hs kind)
    (h.made_eq kind ▸ gives_member h.built.kind hs' kind)

theorem Copies.methods_recounted (hw : w.Sound made) :
    List.Forall₂ (fun m m' => Recounted s (w.method m).parameters.made
      w (w.method m).parameters.names (.onMethod m (.parameters .addNew))
      v (v.method m').parameters.names (.onMethod m' (.parameters .addNew)))
      (w.node c).declaredMethods (v.node c').declaredMethods := by
  rw [h.shown.2.1]
  refine (forall₂_of_map_eq h.methods).imp fun m m' ⟨hm, hm', hcapture⟩ => ?_
  have hnames : (v.method m').parameters.names = (w.method m).parameters.names := by
    have := congrArg (fun x : MethodSnapshot => x.parameters.map (·.name)) hcapture
    simpa only [captureMethod, captureParameters_names] using this
  have hmem := declaredMethods_subset _ hm
  obtain ⟨_, -, hbuilt⟩ := exists_of_mem_right h.built.methods hm'
  refine (hn.methodParameters m hmem).recounted (hroom.methodParameters m hmem) hnames (gives_methodParameter ?_) ?_
  · rw [((hw.nodes c).methods m hmem).2, hs]
  · rw [Parameters.length_names, ← h.methodParameters m' hm']
    exact gives_methodParameter (by rw [hbuilt.owner, hs'])

theorem Copies.constructors_recounted (hw : w.Sound made) :
    List.Forall₂ (fun k k' => Recounted s (w.constructor k).parameters.made
      w (w.constructor k).parameters.names (.onConstructor k (.parameters .addNew))
      v (v.constructor k').parameters.names (.onConstructor k' (.parameters .addNew)))
      (w.node c).declaredConstructors (v.node c').declaredConstructors := by
  rw [h.shown.2.2]
  refine (forall₂_of_map_eq h.constructors).imp fun k k' ⟨hk, hk', hcapture⟩ => ?_
  have hnames : (v.constructor k').parameters.names = (w.constructor k).parameters.names := by
    have := congrArg (fun x : ConstructorSnapshot => x.parameters.map (·.name)) hcapture
    simpa only [captureConstructor, captureParameters_names] using this
  have hmem := declaredConstructors_subset _ hk
  obtain ⟨_, -, hbuilt⟩ := exists_of_mem_right h.built.constructors hk'
  refine (hn.constructorParameters k hmem).recounted (hroom.constructorParameters k hmem) hnames
    (gives_constructorParameter ?_) ?_
  · rw [((hw.nodes c).constructors k hmem).2, hs]
  · rw [Parameters.length_names, ← h.constructorParameters k' hk']
    exact gives_constructorParameter (by rw [hbuilt.owner, hs'])

end

end

/-- As long as the counters have room, in a class in which nothing has been given a name since it was defined the
next default name is none that is there. In the class that is restored from it the next default name is numbered by
how many are left, and is none that is there exactly if the one of that number is not left. -/
theorem restored_default_names {w₀ w₁ w v₀ v : World} {made : List (LoaderId × ClassId)} (hw₀ : Reached w₀ made)
    {l l' : LoaderId} (hl : l.index < w₀.loaders.size) {package simpleName : String} {imports : List Import}
    {c : ClassId} (hdefine : Loader.define l package simpleName imports w₀ = (.ok c, w₁))
    (hrun : Relation.ReflTransGen (Unnamed c) w₁ w) (hroom : w.RoomIn c)
    (hrestore : Snapshot.restore (w.loader l).settings (w.snapshot l) v₀ = (.ok l', v)) :
    ∃ c', (v.loader l').classes.get? (Name.qualify package simpleName) = some c' ∧
      (∀ kind, Recounted (w.loader l).settings ((w.node c).made kind)
        w ((w.declared kind c).map w.memberName) (.onClass c (.add kind))
        v ((v.declared kind c').map v.memberName) (.onClass c' (.add kind))) ∧
      List.Forall₂ (fun m m' => Recounted (w.loader l).settings (w.method m).parameters.made
        w (w.method m).parameters.names (.onMethod m (.parameters .addNew))
        v (v.method m').parameters.names (.onMethod m' (.parameters .addNew)))
        (w.node c).declaredMethods (v.node c').declaredMethods ∧
      List.Forall₂ (fun k k' => Recounted (w.loader l).settings (w.constructor k).parameters.made
        w (w.constructor k).parameters.names (.onConstructor k (.parameters .addNew))
        v (v.constructor k').parameters.names (.onConstructor k' (.parameters .addNew)))
        (w.node c).declaredConstructors (v.node c').declaredConstructors := by
  obtain ⟨made₀, hmove⟩ := exists_move_of_define hdefine
  have hw₁ : Reached w₁ (made ++ made₀) := hw₀.tail hmove
  obtain ⟨hlt, hname, hc, hs, hcounted, hget⟩ := counted_of_define hl hdefine
  obtain ⟨made₁, hmoves, hn⟩ := hcounted.run hw₁ hlt hs hrun
  have hsound : w.Sound _ := Reached.sound (hw₁.trans hmoves)
  have hkeeps := hmoves.keeps
  have hsame := hkeeps.same c hlt
  have hsettings : (w.loader l).settings = (w₁.loader l).settings :=
    (hkeeps.loaders l ((Keeps.define hdefine).loaders l hl).1).2.1
  rw [← hsettings] at hs hn
  have hregistered : c ∈ (w.loader l).classes.values :=
    Registry.mem_values.mpr ⟨_, Registry.mem_of_get? (hmoves.get? hget)⟩
  obtain ⟨-, pairs, hr⟩ := (Snapshot.restore_accepts _ _ _).of_ok hrestore
  have hlost : v₀.LosesNone v := by
    have := losesNone_restore (w.loader l).settings (w.snapshot l) v₀
    rwa [hrestore] at this
  obtain ⟨⟨x, c'⟩, hp, hx⟩ : ∃ p ∈ pairs, p.1 = w.captureClass c := by
    rw [← List.mem_map, hr.snapshots]
    exact List.mem_map_of_mem hregistered
  obtain rfl : x = w.captureClass c := hx
  have hcopies := hr.copies hlost hp
  have hs' := (hr.definedIn _ hp).settings
  have heditable : w.Editable c := hsame.kind.trans hc
  refine ⟨c', ?_, hcopies.recounted hn hroom (hsame.settings.trans hs) hs' heditable,
    hcopies.methods_recounted hn hroom (hsame.settings.trans hs) hs' hsound,
    hcopies.constructors_recounted hn hroom (hsame.settings.trans hs) hs' hsound⟩
  refine Registry.get?_of_mem hr.sorted (hr.mem_classes.mpr ⟨_, hp, ?_⟩)
  exact (hkeeps.nameOf hlt).trans hname

def dwindled : World :=
  ((Edit.onClass ⟨10⟩ (.removeField ⟨0⟩)).apply ((Edit.onClass ⟨10⟩ .addField).apply
    ((Edit.onClass ⟨10⟩ .addField).apply (Loader.define ⟨0⟩ "p" "A" [] single).2).2).2).2

theorem unnamed_dwindled :
    Relation.ReflTransGen (Unnamed ⟨10⟩) (Loader.define ⟨0⟩ "p" "A" [] single).2 dwindled :=
  ((Relation.ReflTransGen.refl.tail
    (.edit (e := .onClass ⟨10⟩ .addField) (a := .field ⟨0⟩) (run_of_ok (by decide +kernel)) id)).tail
    (.edit (e := .onClass ⟨10⟩ .addField) (a := .field ⟨1⟩) (run_of_ok (by decide +kernel)) id)).tail
    (.edit (e := .onClass ⟨10⟩ (.removeField ⟨0⟩)) (a := .nothing) (run_of_ok (by decide +kernel)) id)

theorem roomIn_dwindled : dwindled.RoomIn ⟨10⟩ where
  members kind := by cases kind <;> decide +kernel
  methodParameters := by decide +kernel
  constructorParameters := by decide +kernel

def dwindledRestored : World :=
  (Snapshot.restore (dwindled.loader ⟨0⟩).settings (dwindled.snapshot ⟨0⟩) dwindled).2

theorem restore_dwindled : Snapshot.restore (dwindled.loader ⟨0⟩).settings (dwindled.snapshot ⟨0⟩) dwindled =
    (.ok ⟨1⟩, dwindledRestored) := run_of_ok (by decide +kernel)

theorem dwindled_default_names : Reached single [] ∧ (Loader.define ⟨0⟩ "p" "A" [] single).1 = .ok ⟨10⟩ ∧
    Relation.ReflTransGen (Unnamed ⟨10⟩) (Loader.define ⟨0⟩ "p" "A" [] single).2 dwindled ∧ dwindled.RoomIn ⟨10⟩ ∧
    Snapshot.restore (dwindled.loader ⟨0⟩).settings (dwindled.snapshot ⟨0⟩) dwindled = (.ok ⟨1⟩, dwindledRestored) ∧
    ∃ c', (dwindledRestored.loader ⟨1⟩).classes.get? "p.A" = some c' ∧
      Recounted (dwindled.loader ⟨0⟩).settings ((dwindled.node ⟨10⟩).made .field)
        dwindled ((dwindled.declared .field ⟨10⟩).map dwindled.memberName) (.onClass ⟨10⟩ (.add .field))
        dwindledRestored ((dwindledRestored.declared .field c').map dwindledRestored.memberName)
        (.onClass c' (.add .field)) := by
  have hdefine : (Loader.define ⟨0⟩ "p" "A" [] single).1 = .ok ⟨10⟩ := by decide +kernel
  obtain ⟨c', hget, hmembers, -⟩ := restored_default_names reached_single (by decide +kernel) (run_of_ok hdefine)
    unnamed_dwindled roomIn_dwindled restore_dwindled
  exact ⟨reached_single, hdefine, unnamed_dwindled, roomIn_dwindled, restore_dwindled, c', hget, hmembers .field⟩

/-- The field that is added to the restored class is called like the one that is there. -/
theorem dwindled_reuses_name : Reached single [] ∧ (Loader.define ⟨0⟩ "p" "A" [] single).1 = .ok ⟨10⟩ ∧
    Relation.ReflTransGen (Unnamed ⟨10⟩) (Loader.define ⟨0⟩ "p" "A" [] single).2 dwindled ∧
    Snapshot.restore (dwindled.loader ⟨0⟩).settings (dwindled.snapshot ⟨0⟩) dwindled = (.ok ⟨1⟩, dwindledRestored) ∧
    (dwindledRestored.loader ⟨1⟩).classes.get? "p.A" = some ⟨21⟩ ∧
    dwindledRestored.Gives (.onClass ⟨21⟩ .addField) "unnamed_1" ∧
    "unnamed_1" ∈ (dwindledRestored.declared .field ⟨21⟩).map dwindledRestored.memberName := by
  refine ⟨reached_single, by decide +kernel, unnamed_dwindled, restore_dwindled, by decide +kernel, ?_,
    by decide +kernel⟩
  exact ⟨.field ⟨3⟩, _, run_of_ok (by decide +kernel), by decide +kernel⟩

end World

end ClassModel
