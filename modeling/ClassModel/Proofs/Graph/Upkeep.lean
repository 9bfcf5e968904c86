import ClassModel.Proofs.Graph.Calls
import ClassModel.Proofs.Graph.Lifetimes

/-!
# Calls that name what is there

A step that is handed only what is there keeps a world in which what is held is there, and hands out only what is
there. So does whatever a source's program does, as long as it does not bring back what is lost, and with it every
lookup of a loader that is there. What a run of such calls leads to is a world in which what is held lasts.
-/

namespace ClassModel

open Change Relation

open World

/-! ## Steps that hand out what is there -/

/-- From a whole world the step leads to a whole one, and `Q` holds of what it hands out. -/
def Upholds (lost : List Object) (Q : α → Prop) (s : World → α × World) : Prop :=
  ∀ w, w.Whole lost → (s w).2.Whole lost ∧ Q (s w).1

def Found (lost : List Object) (found : Option ClassId) : Prop := ∀ c ∈ found, .node c ∉ lost

theorem Found.none {lost : List Object} : Found lost none := nofun

theorem Found.some {lost : List Object} {c : ClassId} (h : .node c ∉ lost) : Found lost (some c) :=
  fun d hd => by cases hd; exact h

def Granted (Q : α → Prop) (r : Except ModelError α) : Prop := ∀ a, r = .ok a → Q a

namespace Upholds

section
variable {lost : List Object} {α β : Type} {Q : α → Prop} {R : β → Prop}

theorem mono {s : World → α × World} {Q' : α → Prop} (h : Upholds lost Q s) (hQ : ∀ a, Q a → Q' a) :
    Upholds lost Q' s := fun w hw => ⟨(h w hw).1, hQ _ (h w hw).2⟩

theorem pure {a : α} (h : Q a) : Upholds lost Q (Pure.pure a : Step α) := fun _ hw => ⟨hw, h⟩

theorem see {f : World → α} (h : ∀ w, w.Whole lost → Q (f w)) : Upholds lost Q (Step.see f) := fun w hw => ⟨hw, h w hw⟩

theorem look (f : World → α) : Upholds lost (fun _ => True) (Step.see f) := see fun _ _ => trivial

theorem bind {s : Step α} {f : α → Step β} (hs : Upholds lost Q s) (hf : ∀ a, Q a → Upholds lost R (f a)) :
    Upholds lost R (s >>= f) := fun w hw => hf _ (hs w hw).2 _ (hs w hw).1

theorem map {s : Step α} (f : α → β) (hs : Upholds lost (R ∘ f) s) : Upholds lost R (f <$> s) := hs

theorem log (e : Log.Event) : Upholds lost (fun _ => True) (Step.log e) := fun _ hw => ⟨hw.log e, trivial⟩

theorem ofMakes {x : Change α} (h : ∀ w, w.Whole lost → ∃ p a w', x.Makes w p a w' ∧ (p → w'.Whole lost ∧ Q a)) :
    Upholds lost (Granted Q) x := fun w hw => by
  obtain ⟨p, a, w', hx, hQ⟩ := h w hw
  by_cases hp : p
  · rw [hx.made hp]
    exact ⟨(hQ hp).1, fun b hb => by cases hb; exact (hQ hp).2⟩
  · obtain ⟨e, he⟩ := hx.refused hp
    rw [he]
    exact ⟨hw, nofun⟩

theorem ofEdit {x : Change α} (h : ∀ w, w.Whole lost → ∃ p a w', x.Makes w p a w' ∧ (p → w'.Whole lost)) :
    Upholds lost (fun _ => True) x := fun w hw => by
  obtain ⟨p, a, w', hx, hw'⟩ := h w hw
  exact ⟨hx.keeps hw hw', trivial⟩

/-- What is found, or else what the step comes to. -/
theorem orElse {s : Step ClassId} (hs : Upholds lost (fun d => .node d ∉ lost) s) {found : Option ClassId} :
    Found lost found → Upholds lost (fun d => .node d ∉ lost) (match found with
      | some d => Pure.pure d
      | none => s : Step ClassId) := fun hfound => by
  cases found with
  | some d => exact pure (hfound d rfl)
  | none => exact hs

theorem firstHit {ask : String → Step (Option ClassId)} (h : ∀ name, Upholds lost (Found lost) (ask name)) :
    ∀ names, Upholds lost (Found lost) (ClassModel.firstHit ask names)
  | [] => pure Found.none
  | name :: rest => bind (h name) fun found hfound => by
    cases found with
    | some c => exact pure hfound
    | none => exact firstHit h rest

end

end Upholds

/-! ## Edits -/

section
variable {lost : List Object}

namespace World.Whole

variable {w : World} (h : w.Whole lost) {t : Target} (ht : t.Spares lost)
include h ht

theorem withSuperclass (c : ClassId) :
    ((w.withReference t).editNode c fun n => { n with superclass := some w.nextReference }).Whole lost := by
  have hnew := h.nextReference
  refine (h.withReference ht).editNode fun p hp => ?_
  rw [ClassNode.mem_holds] at hp ⊢
  grind

theorem withInterface (c : ClassId) :
    ((w.withReference t).editNode c fun n =>
      { n with interfaces := n.interfaces ++ [w.nextReference] }).Whole lost := by
  have hnew := h.nextReference
  refine (h.withReference ht).editNode fun p hp => ?_
  rw [ClassNode.mem_holds] at hp ⊢
  grind

theorem withFieldType (f : FieldId) :
    ((w.withReference t).editField f fun x => { x with type := w.nextReference }).Whole lost :=
  (h.withReference ht).editField fun _ => .inr h.nextReference

theorem withReturnType (m : MethodId) :
    ((w.withReference t).editMethod m fun x => { x with returnType := w.nextReference }).Whole lost :=
  (h.withReference ht).editMethod (fun _ => .inr h.nextReference) fun _ => .inl

end World.Whole

theorem ClassEdit.upholds (c : ClassId) (e : ClassEdit) (hd : ∀ d ∈ (Edit.onClass c e).direct?, .node d ∉ lost) :
    Upholds lost (fun _ => True) (apply c e) := by
  have hupdate {f : ClassNode → ClassNode} (hf : ∀ n, ∀ p ∈ (f n).holds, p ∈ n.holds) :
      Upholds lost (fun _ => True) (update c f) := .ofEdit fun w hw =>
    ⟨_, _, _, update_makes c w f, fun _ => hw.editNode fun p hp => .inl (hf _ p hp)⟩
  cases e with
  | setSimpleName name => exact fun w hw => ⟨hw, trivial⟩
  | setSuperclass name =>
    refine .ofEdit fun w hw => ⟨_, _, _, superclassByName_makes c w name _, fun _ => ?_⟩
    exact hw.withSuperclass (Target.spares_qualified _ _) c
  | setSuperclassUnqualified name =>
    refine .ofEdit fun w hw => ⟨_, _, _, superclassByName_makes c w name _, fun _ => ?_⟩
    exact hw.withSuperclass (Target.spares_unqualified _ _) c
  | setSuperclassClass d =>
    refine .ofEdit fun w hw => ⟨_, _, _, setSuperclassClass_makes c w d, fun _ => ?_⟩
    exact hw.withSuperclass (fun _ he => by cases he; exact hd d rfl) c
  | addInterface name =>
    refine .ofEdit fun w hw => ⟨_, _, _, interfaceByName_makes c w name _, fun _ => ?_⟩
    exact hw.withInterface (Target.spares_qualified _ _) c
  | addInterfaceUnqualified name =>
    refine .ofEdit fun w hw => ⟨_, _, _, interfaceByName_makes c w name _, fun _ => ?_⟩
    exact hw.withInterface (Target.spares_unqualified _ _) c
  | addInterfaceClass d =>
    refine .ofEdit fun w hw => ⟨_, _, _, addInterfaceClass_makes c w d, fun _ => ?_⟩
    exact hw.withInterface (fun _ he => by cases he; exact hd d rfl) c
  | addField =>
    refine .ofEdit fun w hw => ⟨_, _, _, addNewField_makes c w, fun _ => ?_⟩
    have hnew : .field w.nextField ∉ lost := hw.new (Nat.lt_irrefl _)
    refine ((hw.withReference (Target.spares_qualified _ _)).withField hw.nextReference).editNode fun p hp => ?_
    rw [ClassNode.mem_holds] at hp ⊢
    grind
  | addMethod =>
    refine .ofEdit fun w hw => ⟨_, _, _, addNewMethod_makes c w, fun _ => ?_⟩
    have hnew : .method w.nextMethod ∉ lost := hw.new (Nat.lt_irrefl _)
    refine ((hw.withReference (Target.spares_qualified _ _)).withMethod hw.nextReference rfl).editNode fun p hp => ?_
    rw [ClassNode.mem_holds] at hp ⊢
    grind
  | addConstructor =>
    refine .ofEdit fun w hw => ⟨_, _, _, addNewConstructor_makes c w, fun _ => ?_⟩
    have hnew : .constructor w.nextConstructor ∉ lost := hw.new (Nat.lt_irrefl _)
    refine (hw.withConstructor rfl).editNode fun p hp => ?_
    rw [ClassNode.mem_holds] at hp ⊢
    grind
  | clearSuperclass | removeField f | removeMethod m | removeConstructor k =>
    exact hupdate fun n p hp => by rw [ClassNode.mem_holds] at hp ⊢; grind
  | addImport i | setInterface b | setAnnotationType b | setUnresolved b | setModifiers m =>
    exact hupdate fun _ _ => id

theorem FieldEdit.upholds (f : FieldId) (e : FieldEdit) (hd : ∀ d ∈ (Edit.onField f e).direct?, .node d ∉ lost) :
    Upholds lost (fun _ => True) (apply f e) := by
  cases e with
  | setName name =>
    exact .ofEdit fun w hw => ⟨_, _, _, setName_makes f w name, fun _ => hw.editField fun _ => .inl rfl⟩
  | setModifiers m =>
    exact .ofEdit fun w hw => ⟨_, _, _, setModifiers_makes f w m, fun _ => hw.editField fun _ => .inl rfl⟩
  | setType name =>
    refine .ofEdit fun w hw => ⟨_, _, _, setType_makes f w name, fun _ => ?_⟩
    exact hw.withFieldType (Target.spares_qualified _ _) f
  | setTypeUnqualified name =>
    refine .ofEdit fun w hw => ⟨_, _, _, setTypeUnqualified_makes f w name, fun _ => ?_⟩
    exact hw.withFieldType (Target.spares_unqualified _ _) f
  | setTypeClass d =>
    refine .ofEdit fun w hw => ⟨_, _, _, setTypeClass_makes f w d, fun _ => ?_⟩
    exact hw.withFieldType (fun _ he => by cases he; exact hd d rfl) f

/-- Only the type of a new parameter is new. -/
theorem ParameterEdit.whole {w : World} (hw : w.Whole lost) (owner : ClassId) (ps : Parameters) (e : ParameterEdit) :
    ∃ p ps' made w', (apply owner ps e).Makes w p (ps', made) w' ∧ w'.Whole lost ∧ w'.methods = w.methods ∧
      w'.constructors = w.constructors ∧ ∀ q ∈ memberTypes ps', q ∈ memberTypes ps ∨ q ∉ lost := by
  have hadded {name : String} :
      ∀ q ∈ memberTypes ⟨ps.list ++ [⟨name, w.nextReference⟩], ps.made + 1⟩, q ∈ memberTypes ps ∨ q ∉ lost := by
    intro q hq
    simp only [memberTypes, List.map_append, List.mem_append, List.map_cons, List.map_nil, List.mem_singleton] at hq ⊢
    refine hq.imp id fun hq => ?_
    rw [hq]
    exact hw.nextReference
  cases e with
  | add name type =>
    have hw' := hw.withReference (Target.spares_qualified type owner)
    exact ⟨_, _, _, _, addNamed_makes w ps name type _, hw', rfl, rfl, hadded⟩
  | addUnqualified name type =>
    have hw' := hw.withReference (Target.spares_unqualified type owner)
    exact ⟨_, _, _, _, addNamed_makes w ps name type _, hw', rfl, rfl, hadded⟩
  | addNew =>
    have hw' := hw.withReference (Target.spares_qualified (w.node owner).settings.defaultFieldType owner)
    exact ⟨_, _, _, _, addNew_makes w ps owner, hw', rfl, rfl, hadded⟩
  | remove i =>
    refine ⟨_, _, _, _, remove_makes w ps owner i, hw, rfl, rfl, fun q hq => .inl ?_⟩
    obtain ⟨p, hp, rfl⟩ := List.mem_map.mp hq
    exact List.mem_map.mpr ⟨p, List.mem_of_mem_eraseIdx hp, rfl⟩

theorem MethodEdit.upholds (m : MethodId) (e : MethodEdit) : Upholds lost (fun _ => True) (apply m e) := by
  cases e with
  | setName name =>
    refine .ofEdit fun w hw => ⟨_, _, _, setName_makes m w name, fun _ => ?_⟩
    exact hw.editMethod (fun _ => .inl rfl) fun _ => .inl
  | setModifiers ms =>
    refine .ofEdit fun w hw => ⟨_, _, _, setModifiers_makes m w ms, fun _ => ?_⟩
    exact hw.editMethod (fun _ => .inl rfl) fun _ => .inl
  | setReturnType name =>
    refine .ofEdit fun w hw => ⟨_, _, _, setReturnType_makes m w name, fun _ => ?_⟩
    exact hw.withReturnType (Target.spares_qualified _ _) m
  | setReturnTypeUnqualified name =>
    refine .ofEdit fun w hw => ⟨_, _, _, setReturnTypeUnqualified_makes m w name, fun _ => ?_⟩
    exact hw.withReturnType (Target.spares_unqualified _ _) m
  | parameters e =>
    refine .ofEdit fun w hw => ?_
    obtain ⟨p, ps, made, w', h, hw', hmethods, -, hps⟩ := e.whole hw (w.method m).owner (w.method m).parameters
    refine ⟨_, _, _, parameters_makes h, fun _ => hw'.editMethod (fun _ => .inl rfl) fun q hq => ?_⟩
    rw [method, hmethods]
    exact hps q hq

theorem ConstructorEdit.upholds (k : ConstructorId) (e : ConstructorEdit) :
    Upholds lost (fun _ => True) (apply k e) := by
  cases e with
  | setModifiers m =>
    exact .ofEdit fun w hw => ⟨_, _, _, setModifiers_makes k w m, fun _ => hw.editConstructor fun _ => .inl⟩
  | parameters e =>
    refine .ofEdit fun w hw => ?_
    obtain ⟨p, ps, made, w', h, hw', -, hconstructors, hps⟩ :=
      e.whole hw (w.constructor k).owner (w.constructor k).parameters
    refine ⟨_, _, _, parameters_makes h, fun _ => hw'.editConstructor fun q hq => ?_⟩
    rw [constructor, hconstructors]
    exact hps q hq

theorem Edit.upholds (e : Edit) (hd : ∀ d ∈ e.direct?, .node d ∉ lost) :
    Upholds lost (fun _ => True) e.apply := by
  cases e with
  | onClass c e => exact e.upholds c hd
  | onField f e => exact e.upholds f hd
  | onMethod m e => exact e.upholds m
  | onConstructor k e => exact e.upholds k

end

/-! ## Making classes and loaders -/

section
variable {lost : List Object}

theorem Upholds.addNode {n : ClassNode} (hn : n.holds = []) :
    Upholds lost (fun c => .node c ∉ lost) (Step.addNode n) := fun _ hw => ⟨hw.withNode hn, hw.nextClass⟩

theorem Upholds.create (package simpleName : String) (lookup : Option Collaborator) (settings : Settings) :
    Upholds lost (Granted fun c => .node c ∉ lost) (createClass package simpleName lookup settings) :=
  .ofMakes fun w hw => ⟨_, _, _, createClass_makes package simpleName lookup settings w, fun _ =>
    ⟨hw.withNode rfl, hw.nextClass⟩⟩

theorem Upholds.define (l : LoaderId) (package simpleName : String) (imports : List Import) :
    Upholds lost (Granted fun c => .node c ∉ lost) (Loader.define l package simpleName imports) :=
  .ofMakes fun w hw => ⟨_, _, _, Loader.define_makes l package simpleName imports w, fun _ =>
    ⟨hw.withDefined l package simpleName imports, hw.nextClass⟩⟩

theorem Upholds.make (settings : Settings) {sources : List Source} (hs : ∀ s ∈ sources, s.Minds lost) :
    Upholds lost (fun _ => True) (Loader.make settings sources) :=
  .ofEdit fun w hw => ⟨_, _, _, Loader.make_makes settings sources w, fun _ => hw.withLoader settings hs⟩

end

/-! ## Sources -/

def Bounded.Upholds (lost : List Object) (Q : α → Prop) (s : Bounded α) : Prop :=
  ∀ w a w', w.Whole lost → s w = some (a, w') → w'.Whole lost ∧ Q a

namespace Bounded.Upholds

section
variable {lost : List Object} {α β : Type} {Q : α → Prop} {R : β → Prop}

theorem of {s : Step α} (h : ClassModel.Upholds lost Q s) : Upholds lost Q (of s) := fun w a w' hw hs => by
  have hrun : s w = (a, w') := Option.some.inj hs
  have hs := h w hw
  rwa [hrun] at hs

theorem pure {a : α} (h : Q a) : Upholds lost Q (Pure.pure a : Bounded α) := .of (.pure h)

theorem exhausted : Upholds lost Q (exhausted : Bounded α) := fun _ _ _ _ h => by cases h

theorem bind {s : Bounded α} {f : α → Bounded β} (hs : Upholds lost Q s) (hf : ∀ a, Q a → Upholds lost R (f a)) :
    Upholds lost R (s >>= f) := fun w b w' hw h => by
  obtain ⟨a, w₁, h₁, h₂⟩ := bind_eq_some.mp h
  obtain ⟨hw₁, ha⟩ := hs w a w₁ hw h₁
  exact hf a ha w₁ b w' hw₁ h₂

theorem complete {s : Bounded α} (h : Upholds lost Q s) {otherwise : α} (ho : Q otherwise) :
    ClassModel.Upholds lost Q (s.complete otherwise) := fun w hw => by
  unfold Bounded.complete
  cases hs : s w with
  | none => exact ⟨hw, ho⟩
  | some r => exact h w r.1 r.2 hw hs

theorem firstHit {ask : String → Bounded (Option ClassId)} (h : ∀ name, Upholds lost (Found lost) (ask name)) :
    ∀ names, Upholds lost (Found lost) (ClassModel.firstHit ask names)
  | [] => pure Found.none
  | name :: rest => bind (h name) fun found hfound => by
    cases found with
    | some c => exact pure hfound
    | none => exact firstHit h rest

end

section
variable {lost : List Object} {l : LoaderId} (hl : .loader l ∉ lost) {lookup : String → Bounded (Option ClassId)}
  (hlookup : ∀ name, Upholds lost (Found lost) (lookup name))
include hl

theorem loader : Upholds lost (Loader.Minds lost) (Bounded.see (·.loader l)) := .of (.see fun _ hw => hw.loader hl)

theorem placeholder (name : String) : Upholds lost (fun c => .node c ∉ lost) (Bounded.of (Loader.placeholder l name)) :=
  .of fun _ hw => ⟨hw.placeholder l name, hw.placeholder_there hl name⟩

include hlookup

theorem lookupDefaultWith (name : String) : Upholds lost (Found lost) (Loader.lookupDefaultWith l lookup name) :=
  bind (loader hl) fun x hx => by
    cases hb : x.builtins.get? name with
    | some c => exact pure (Found.some (hx.held c (mem_held_of_cached? (cached?_of_builtin hb))))
    | none => exact firstHit hlookup _

theorem loadWith (name : String) : Upholds lost (fun c => .node c ∉ lost) (Loader.loadWith l lookup name) :=
  bind (hlookup name) fun found hfound => by
    cases found with
    | some c => exact pure (hfound c rfl)
    | none => exact bind (.of (.log _)) fun _ _ => placeholder hl name

/-- Induction on the program. What it is handed is there, so what it takes hold of is. -/
theorem run : ∀ p : Program, p.Minds lost → Upholds lost (Found lost) (Loader.run l lookup p)
  | .answer found, hp => pure hp
  | .define package simpleName imports next, hp =>
    bind (.of (.define l package simpleName imports)) fun r hr => run (next r) (hp r hr)
  | .create package simpleName collaborator settings next, hp =>
    bind (.of (.create package simpleName collaborator settings)) fun r hr => run (next r) (hp r hr)
  | .edit e next, hp => bind (.of (e.upholds hp.1)) fun r _ => run (next r) (hp.2 r)
  | .lookup name next, hp => bind (hlookup name) fun found hfound => run (next found) (hp found hfound)
  | .lookupDefault name next, hp =>
    bind (lookupDefaultWith hl hlookup name) fun found hfound => run (next found) (hp found hfound)
  | .load name next, hp => bind (loadWith hl hlookup name) fun c hc => run (next c) (hp c hc)
  | .placeholder name next, hp => bind (placeholder hl name) fun c hc => run (next c) (hp c hc)
  | .classes next, hp => by
    refine bind (Q := fun cs => ∀ c ∈ cs, .node c ∉ lost) (.of (.see fun w hw c hc => ?_)) fun cs hcs =>
      run (next cs) (hp cs hcs)
    exact (hw.loader hl).held c (Loader.mem_held.mpr (.inr (.inl hc)))
  | .inspect c next, hp => bind (.of (.look _)) fun n _ => run (next n) (hp n)

theorem askSources (name : String) : ∀ (sources : List Source) (i : Nat), (∀ s ∈ sources, s.Minds lost) →
    Upholds lost (Found lost) (Loader.askSources l lookup name i sources)
  | [], _, _ => pure Found.none
  | s :: rest, i, hs => by
    have hnote : ClassModel.Upholds lost (fun _ => True)
        (Step.onLoader l fun x => { x with asked := (i, name) :: x.asked }) := fun w hw =>
      ⟨hw.asking l id fun asked => (i, name) :: asked, trivial⟩
    refine bind (.of (.look _)) fun x _ => bind (.of hnote) fun _ _ =>
      bind (run hl hlookup _ (hs s List.mem_cons_self x.asked name)) fun found hfound => ?_
    cases found with
    | some c => exact pure hfound
    | none => exact askSources name rest (i + 1) fun s' hs' => hs s' (List.mem_cons_of_mem _ hs')

end

end Bounded.Upholds

/-! ## Looking up -/

section
variable {lost : List Object}

theorem Bounded.Upholds.whileLoading {Q : α → Prop} {s : Bounded α} (l : LoaderId) (name : String)
    (h : s.Upholds lost Q) : (Loader.whileLoading l name s).Upholds lost Q := fun w a w' hw hs => by
  rw [Loader.whileLoading_run] at hs
  obtain ⟨⟨b, v⟩, hb, hv⟩ := Option.map_eq_some_iff.mp hs
  obtain ⟨rfl, rfl⟩ := Prod.mk.inj hv
  obtain ⟨hwhole, hQ⟩ := h _ _ _ (hw.asking l (name :: ·) id) hb
  exact ⟨hwhole.asking l (·.erase name) id, hQ⟩

theorem Bounded.Upholds.register (l : LoaderId) (name : String) {found : Option ClassId} (hfound : Found lost found) :
    (Loader.register l name found).Upholds lost (Found lost) := fun w r w' hw h => by
  cases found with
  | none => cases h; exact ⟨hw, Found.none⟩
  | some c =>
    cases h
    exact ⟨(hw.log (.loaded name (w.nameOf c))).register l (w.nameOf c) (hfound c rfl), hfound⟩

section
variable {l : LoaderId} (hl : .loader l ∉ lost)
include hl

/-- Induction on the depth. -/
theorem Bounded.Upholds.lookupWithin : ∀ depth name, (Loader.lookupWithin depth l name).Upholds lost (Found lost)
  | 0, _ => .exhausted
  | depth + 1, name => fun w r w' hw h => by
    have hloader := hw.loader hl
    rw [Loader.lookupWithin_eq] at h
    unfold Loader.lookupBy at h
    revert h
    dsimp only
    cases hc : (w.loader l).cached? name with
    | some c => exact (pure (Found.some (hloader.held c (mem_held_of_cached? hc)))) w r w' hw
    | none =>
      dsimp only
      split
      · exact (pure Found.none) w r w' hw
      · split
        · exact (bind (.of (.log _)) fun _ _ => pure Found.none) w r w' hw
        · have hasked := askSources hl (lookupWithin depth) name (w.loader l).sources 0 hloader.sources
          exact (bind (whileLoading l name hasked) fun found hfound => register l name hfound) w r w' hw

namespace Upholds

theorem loaderLookup (name : String) : Upholds lost (Found lost) (Loader.lookup l name) :=
  bind (look _) fun _ _ => (Bounded.Upholds.lookupWithin hl _ name).complete Found.none

theorem loaderLookupDefault (name : String) : Upholds lost (Found lost) (Loader.lookupDefault l name) :=
  bind (look _) fun _ _ =>
    (Bounded.Upholds.lookupDefaultWith hl (Bounded.Upholds.lookupWithin hl _) name).complete Found.none

theorem standIn (name : String) : Upholds lost (fun c => .node c ∉ lost) (Loader.placeholder l name) := fun _ hw =>
  ⟨hw.placeholder l name, hw.placeholder_there hl name⟩

theorem load (name : String) : Upholds lost (fun c => .node c ∉ lost) (Loader.load l name) :=
  bind (loaderLookup hl name) fun _ => (bind (log _) fun _ _ => standIn hl name).orElse

end Upholds

end

namespace Upholds

section
variable {d : DirectoryId} (hd : .directory d ∉ lost)
include hd

theorem directory : Upholds lost (fun x => (∀ c ∈ x.table.values, .node c ∉ lost) ∧ ∀ l ∈ x.inner, .loader l ∉ lost)
    (Step.see (·.directory d)) := see fun w hw => by
  by_cases hhas : w.Has (.directory d)
  · have hholds := hw.holds _ hhas hd
    simp only [holds, List.mem_append, List.mem_map, Option.mem_toList] at hholds
    exact ⟨fun c hc => hholds _ (.inl ⟨c, hc, rfl⟩), fun l hl => hholds _ (.inr ⟨l, hl, rfl⟩)⟩
  · rw [show w.directory d = default from Store.get_of_size_le _ (Nat.not_lt.mp hhas)]
    exact ⟨fun _ hc => (List.not_mem_nil hc).elim, fun _ hl => (Option.not_mem_none _ hl).elim⟩

theorem answer (name : String) {ask : LoaderId → String → Step (Option ClassId)}
    (hask : ∀ l, .loader l ∉ lost → Upholds lost (Found lost) (ask l name)) :
    Upholds lost (Found lost) (Directory.answer d name ask) :=
  bind (directory hd) fun x ⟨htable, hinner⟩ => by
    cases hc : x.table.get? name with
    | some c =>
      have hmem : c ∈ x.table.values := Registry.mem_values.mpr ⟨name, Registry.mem_of_get? hc⟩
      exact pure (Found.some (htable c hmem))
    | none =>
      cases hi : x.inner with
      | some l => exact hask l (hinner l hi)
      | none => exact pure Found.none

omit hd in
theorem record (p : Probe) : Upholds lost (fun _ => True) (Directory.record d p) := fun _ hw => ⟨hw.record d p, trivial⟩

theorem directoryLookup (name : String) : Upholds lost (Found lost) (Directory.lookup d name) :=
  bind (record _) fun _ _ => answer hd name fun _ hl => loaderLookup hl name

theorem directoryLookupDefault (name : String) : Upholds lost (Found lost) (Directory.lookupDefault d name) :=
  bind (look _) fun x _ => by
    split
    · exact bind (record _) fun _ _ => answer hd name fun _ hl => loaderLookupDefault hl name
    · exact directoryLookup hd name

theorem directoryPlaceholder (name : String) : Upholds lost (Found lost) (Directory.placeholder d name) :=
  bind (directory hd) fun x ⟨_, hinner⟩ => by
    split
    · refine bind (record _) fun _ _ => ?_
      cases hi : x.inner with
      | some l => exact bind (standIn (hinner l hi) name) fun c hc => pure (Found.some hc)
      | none => exact pure Found.none
    · exact pure Found.none

end

section
variable {k : Collaborator} (hk : k.object ∉ lost)
include hk

theorem lookup (name : String) : Upholds lost (Found lost) (k.lookup name) := by
  cases k with
  | loader l => exact loaderLookup hk name
  | directory d => exact directoryLookup hk name

theorem lookupDefault (name : String) : Upholds lost (Found lost) (k.lookupDefault name) := by
  cases k with
  | loader l => exact loaderLookupDefault hk name
  | directory d => exact directoryLookupDefault hk name

theorem collaboratorPlaceholder (name : String) : Upholds lost (Found lost) (k.placeholder name) := by
  cases k with
  | loader l => exact map some ((standIn hk name).mono fun _ => Found.some)
  | directory d => exact directoryPlaceholder hk name

end

/-! ## What a reference finds -/

/-- A class asks nobody who is not there. -/
theorem collaborator (c : ClassId) : Upholds lost (fun k => ∀ k' ∈ k, k'.object ∉ lost) c.collaborator :=
  see fun w hw k hk => by
    rw [← hw.gone]
    exact isAlive_iff.mp (Option.filter_eq_some_iff.mp hk).2

theorem context (c : ClassId) : Upholds lost (fun x => ∀ k ∈ x.lookup, k.object ∉ lost) c.context :=
  bind (look _) fun _ _ => bind (collaborator c) fun _ hk => pure hk

theorem contextResolve {x : Context} (hx : ∀ k ∈ x.lookup, k.object ∉ lost) (name : String) :
    Upholds lost (Found lost) (x.resolve name) := by
  unfold Context.resolve
  cases hk : x.lookup with
  | none => exact pure Found.none
  | some k =>
    have hthere := hx k hk
    have hprobe (name : String) : Upholds lost (Found lost) (Context.probe k name) :=
      bind (log _) fun _ _ => lookup hthere name
    have hfall (name : String) : Upholds lost (Found lost) (Context.fallBack k name) :=
      bind (log _) fun _ _ => lookupDefault hthere name
    unfold resolveWith
    refine bind (hprobe _) fun found hfound => ?_
    cases found with
    | some c => exact pure hfound
    | none =>
      refine bind (look _) fun imports _ => bind (firstHit hprobe _) fun found hfound => ?_
      cases found with
      | some c => exact pure hfound
      | none => exact hfall name

theorem placeholder (c : ClassId) (name : String) : Upholds lost (fun d => .node d ∉ lost) (c.placeholder name) :=
  bind (look _) fun n _ => bind (collaborator c) fun k hk => by
    have hstray : Upholds lost (fun d => .node d ∉ lost) (Step.addNode (Loader.standIn name n.lookup n.settings)) :=
      addNode rfl
    cases k with
    | some k => exact bind (collaboratorPlaceholder (hk k rfl) name) fun _ => hstray.orElse
    | none => exact bind (pure Found.none) fun _ => hstray.orElse

theorem missed (name : String) (c : ClassId) : Upholds lost (fun d => .node d ∉ lost) (RefId.missed name c) :=
  bind (look _) fun _ _ => bind (log _) fun _ _ => placeholder c name

theorem findQualified (name : String) (c : ClassId) :
    Upholds lost (fun d => .node d ∉ lost) (RefId.findQualified name c) :=
  bind (look _) fun alive _ => by
    split
    · refine bind (collaborator c) fun k hk => ?_
      cases k with
      | none => exact bind (pure Found.none) fun _ => (missed name c).orElse
      | some k => exact bind (log _) fun _ _ => bind (lookup (hk k rfl) name) fun _ => (missed name c).orElse
    · exact addNode rfl

theorem findUnqualified (name : String) (c : ClassId) :
    Upholds lost (fun d => .node d ∉ lost) (RefId.findUnqualified name c) :=
  bind (look _) fun alive _ => by
    split
    · exact bind (context c) fun x hx => bind (contextResolve hx name) fun _ => (missed name c).orElse
    · exact addNode rfl

theorem forName (c : ClassId) (name : String) : Upholds lost (fun d => .node d ∉ lost) (c.forName name) :=
  bind (collaborator c) fun k hk => by
    cases k with
    | some k => exact bind (lookup (hk k rfl) name) fun _ => (placeholder c name).orElse
    | none => exact bind (pure Found.none) fun _ => (placeholder c name).orElse

/-- Whether or not the reference is there, only what has just been found is remembered. -/
theorem resolve (r : RefId) : Upholds lost (fun _ => True) r.resolve := fun w hw => by
  rw [resolve_run]
  refine ⟨?_, trivial⟩
  cases (w.reference r).known? with
  | some c => exact hw
  | none =>
    have hremember {find : Step ClassId} (hf : Upholds lost (fun d => .node d ∉ lost) find) :
        ((find >>= r.remember) w).2.Whole lost := (hf w hw).1.remember r (hf w hw).2
    cases (w.reference r).target with
    | direct c => exact hw
    | qualified name c => exact hremember (findQualified name c)
    | unqualified name c => exact hremember (findUnqualified name c)

end Upholds

end

/-! ## Walks and whole snapshots -/

def World.Keeping (lost : List Object) (w w' : World) : Prop := w.Whole lost → w'.Whole lost

section
variable {lost : List Object}

instance : IsPreorder World (Keeping lost) where
  refl _ := id
  trans _ _ _ h h' := h' ∘ h

theorem Upholds.keeping {Q : α → Prop} {s : World → α × World} (h : Upholds lost Q s) : Within (Keeping lost) s :=
  fun w hw => (h w hw).1

namespace Keeping

theorem resolve (r : RefId) : Within (Keeping lost) r.resolve := (Upholds.resolve r).keeping

theorem resolveAll : ∀ rs, Within (Keeping lost) (RefId.resolveAll rs)
  | [] => .pure []
  | r :: rs => .bind (resolve r) fun _ => .bind (resolveAll rs) fun _ => .pure _

theorem qualifiedName (r : RefId) : Within (Keeping lost) r.qualifiedName :=
  .bind (.see _) fun x => by
    cases x.target with
    | direct c => exact .see _
    | qualified name c => exact .pure name
    | unqualified name c => exact .bind (resolve r) fun _ => .see _

theorem namedReferences (name : String) : ∀ rs, Within (Keeping lost) (ClassId.namedReferences name rs)
  | [] => .pure []
  | r :: rs => .bind (qualifiedName r) fun _ => .bind (namedReferences name rs) fun _ => .pure _

theorem walking : Walking (Keeping lost) where
  superclass c := .bind (.see _) fun
    | none => .pure none
    | some r => .map some (resolve r)
  interfaces c := .bind (.see _) resolveAll
  named c name := .of (.bind (.see _) fun n => namedReferences name n.interfaces)
  drop c doomed := .ofMakes fun w => by
    refine ⟨_, _, _, dropInterfaces_makes c doomed w, fun _ hw => hw.editNode fun p hp => .inl ?_⟩
    rw [ClassNode.mem_holds] at hp ⊢
    grind

theorem rebuilding : Rebuilding (Keeping lost) where
  make settings := (Upholds.make settings fun _ hs => by cases hs).keeping
  define l package simpleName imports := (Upholds.define l package simpleName imports).keeping
  edit e he := (e.upholds (by simp [he.direct])).keeping
  log e := (Upholds.log e).keeping

end Keeping

end

/-! ## Calls -/

def Query.Spares (lost : List Object) : Query → Prop
  | .lookup k _ | .lookupDefault k _ => k.object ∉ lost
  | .load l _ => .loader l ∉ lost
  | _ => True

def Mutation.direct? : Mutation → Option ClassId
  | .edit e => e.direct?
  | _ => none

section
variable {lost : List Object}

theorem Query.keeping {q : Query} (hq : q.Spares lost) : Within (Keeping lost) q.ask := by
  have hw : Walking (Keeping lost) := Keeping.walking
  cases q with
  | lookup k name => exact .map _ (Upholds.lookup hq name).keeping
  | lookupDefault k name => exact .map _ (Upholds.lookupDefault hq name).keeping
  | load l name => exact .map _ (Upholds.load hq name).keeping
  | forName c name => exact .map _ (Upholds.forName c name).keeping
  | resolve r => exact .map _ (Keeping.resolve r)
  | qualifiedName r => exact .map _ (Keeping.qualifiedName r)
  | superclass c => exact .map _ (hw.superclass c)
  | interfaces c => exact .map _ (hw.interfaces c)
  | flatten c kind => exact .map _ (hw.flatten c kind)
  | tryFlatten c kind => exact .map _ (hw.tryFlatten c kind)
  | isAssignableFrom target other => exact .map _ (hw.isAssignableFrom target other)
  | tryIsAssignableFrom target other => exact .map _ (hw.tryIsAssignableFrom target other)
  | types p => exact .bind (.see _) fun rs => .map _ (Keeping.resolveAll rs)
  | classes l => exact .map _ (.see _)
  | snapshot l => exact .map _ (.see _)

theorem Mutation.keeping {m : Mutation} (hm : ∀ d ∈ m.direct?, .node d ∉ lost) : Within (Keeping lost) m.run := by
  have hw : Walking (Keeping lost) := Keeping.walking
  cases m with
  | define l package simpleName imports =>
    exact .bindChange (Upholds.define l package simpleName imports).keeping fun _ => .accept ()
  | edit e => exact .bindChange (e.upholds hm).keeping fun _ => .accept ()
  | removeInterface c name => exact hw.removeInterface c name
  | removeInterfaceClass c d => exact .bindChange (.of (.see _)) fun name => hw.removeInterface c name

end

namespace World

/-- A call that takes hold of nothing that is gone. -/
inductive Minds : World → World → Prop
  | makeLoader {w : World} (settings : Settings) {sources : List Source} : (∀ s ∈ sources, s.Minds w.gone) →
      Minds w (Loader.make settings sources w).2
  | makeDirectory {w : World} {d : Directory} : (∀ c ∈ d.table.values, .node c ∉ w.gone) →
      (∀ l ∈ d.inner, .loader l ∉ w.gone) → Minds w (Step.addDirectory d w).2
  | create (w : World) (package simpleName : String) (lookup : Option Collaborator) (settings : Settings) :
      Minds w (createClass package simpleName lookup settings w).2
  | refer {w : World} {t : Target} : (∀ c, t.context? = some c → c.index < w.nodes.size) → t.Spares w.gone →
      Minds w (Step.addReference t w).2
  | mutate {w : World} {m : Mutation} : (∀ d ∈ m.direct?, .node d ∉ w.gone) → Minds w (m.run w).2
  | ask {w : World} {q : Query} : q.Placed w → q.Spares w.gone → Minds w (q.ask w).2
  | placeholder {w : World} {k : Collaborator} (name : String) : k.object ∉ w.gone → Minds w (k.placeholder name w).2
  | resolveName {w : World} {x : Context} (name : String) : (∀ k ∈ x.lookup, k.object ∉ w.gone) →
      Minds w (x.resolve name w).2
  | restore (w : World) (settings : Settings) (s : Snapshot) : Minds w (s.restore settings w).2
  | release {w : World} {outside : List Object} : (∀ l, .loader l ∉ (w.release outside).gone →
      ∀ s ∈ (w.loader l).sources, s.Minds (w.release outside).gone) → Minds w (w.release outside)
  | foreign {w : World} {r : RefId} {c d : ClassId} {k : DirectoryId} : .node c ∉ w.gone → w.Placed r →
      (w.reference r).known? = none → (w.reference r).target.context? = some d →
      (w.node d).lookup = some (.directory k) → Minds w (w.editReference r fun x => { x with memo := some c })

variable {w w' : World}

theorem Minds.does (h : Minds w w') : Does w w' := by
  cases h with
  | makeLoader settings _ => exact .makeLoader w settings _
  | makeDirectory _ _ => exact .makeDirectory w _
  | create package simpleName lookup settings => exact .create w package simpleName lookup settings
  | refer ht _ => exact .refer _ ht
  | mutate _ => exact .mutate w _
  | ask hq _ => exact .ask hq
  | placeholder name _ => exact .placeholder w _ name
  | resolveName name _ => exact .resolveName w _ name
  | restore settings s => exact .restore w settings s
  | release _ => exact .release w _
  | foreign _ hr hk hd hlookup => exact .foreign _ hr hk hd hlookup

theorem Minds.whole (h : Minds w w') (hw : w.Whole w.gone) : w'.Whole w'.gone := by
  have hsame (hkeeps : Keeping w.gone w w') : w'.Whole w'.gone := by
    have hw' := hkeeps hw
    rwa [hw'.gone]
  cases h with
  | makeLoader settings hs => exact hsame ((Upholds.make settings hs).keeping w)
  | makeDirectory htable hinner => exact hsame fun hw => hw.withDirectory htable hinner
  | create package simpleName lookup settings =>
    exact hsame ((Upholds.create package simpleName lookup settings).keeping w)
  | refer _ ht => exact hsame fun hw => hw.withReference ht
  | mutate hm => exact hsame (Mutation.keeping hm w)
  | ask _ hq => exact hsame (Query.keeping hq w)
  | placeholder name hk => exact hsame ((Upholds.collaboratorPlaceholder hk name).keeping w)
  | resolveName name hx => exact hsame ((Upholds.contextResolve hx name).keeping w)
  | restore settings s => exact hsame (Keeping.rebuilding.restore settings s w)
  | release hminds => exact hw.release hminds
  | foreign hc _ _ _ _ => exact hsame fun hw => hw.remember _ hc

theorem run_of_minds (h : ReflTransGen Minds w w') : Run w w' := ReflTransGen.mono (fun _ _ h => h.does) _ _ h

/-- After any number of calls that take hold of nothing that is gone, what is held is there. -/
theorem intact_of_minds (h : ReflTransGen Minds .empty w) : w.Intact := by
  have hwhole : w.Whole w.gone := by
    induction h with
    | refl => exact whole_empty
    | tail _ hd ih => exact hd.whole ih
  exact hwhole.intact

/-- Changes that refer to nothing directly. -/
theorem minds_changed {changes : List Mutation} (h : ∀ m ∈ changes, m.direct? = none) :
    ReflTransGen Minds .empty (changed changes) := by
  have hall : ∀ {w : World}, ReflTransGen Minds .empty w →
      ReflTransGen Minds .empty (changes.foldl (fun w m => (m.run w).2) w) := by
    induction changes with
    | nil => exact fun hw => hw
    | cons m changes ih =>
      obtain ⟨hm, hchanges⟩ := List.forall_mem_cons.mp h
      exact fun hw => ih hchanges (hw.tail (.mutate (by simp [hm])))
  exact hall (.single (.makeLoader .standard fun _ hs => by cases hs))

end World

end ClassModel
