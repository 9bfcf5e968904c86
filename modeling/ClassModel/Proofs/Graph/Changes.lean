import ClassModel.Graph.Loader
import ClassModel.Proofs.Names

/-!
# What changes do

Every edit checks first and then does one thing: `Change.Makes` says when it is made, what it hands
back and what world it leaves. An edit that is refused leaves the world as it was. `Change.Accepts`
says the same of longer changes without naming the world: when they go through, and what then holds.
-/

namespace ClassModel

/-! ## Stores -/

namespace Store

structure Extends {α : Type} [Inhabited α] (s s' : Store α) : Prop where
  size_le : s.size ≤ s'.size
  get_eq : ∀ i < s.size, s'.get i = s.get i

theorem modify_of_size_le {α : Type} (s : Store α) (f : α → α) {i : Nat} (h : s.size ≤ i) :
    s.modify i f = s := by
  simp only [size] at h
  have : s.items.modify i f = s.items := by
    apply Array.ext <;> simp [Array.getElem_modify]
    intro j hj hji; omega
  simp [modify, this]

section
variable {α : Type} [Inhabited α]

theorem Extends.refl (s : Store α) : s.Extends s := ⟨Nat.le_refl _, fun _ _ => rfl⟩

theorem Extends.trans {s t u : Store α} (h₁ : s.Extends t) (h₂ : t.Extends u) : s.Extends u :=
  ⟨Nat.le_trans h₁.size_le h₂.size_le, fun i hi => by
    rw [h₂.get_eq i (Nat.lt_of_lt_of_le hi h₁.size_le), h₁.get_eq i hi]⟩

theorem Extends.push (s : Store α) (x : α) : s.Extends (s.push x) :=
  ⟨by simp, fun _ hi => get_push_of_lt s x hi⟩

theorem Extends.modify {s t : Store α} (h : s.Extends t) (f : α → α) {i : Nat} (hi : s.size ≤ i) :
    s.Extends (t.modify i f) :=
  ⟨by simpa using h.size_le, fun j hj => by rw [get_modify_of_ne t f (by omega), h.get_eq j hj]⟩

theorem get_of_size_le (s : Store α) {i : Nat} (h : s.size ≤ i) : s.get i = default := by
  simp only [size] at h
  simp [get, Array.getD, Nat.not_lt.mpr h]

theorem get_push (s : Store α) (x : α) (i : Nat) : (s.push x).get i = if i = s.size then x else s.get i := by
  split
  · rename_i h; rw [h, get_push_self]
  · rename_i h
    by_cases hi : i < s.size
    · rw [get_push_of_lt s x hi]
    · rw [get_of_size_le s (by omega), get_of_size_le _ (by rw [size_push]; omega)]

theorem get_modify (s : Store α) (f : α → α) (i j : Nat) :
    (s.modify i f).get j = if i = j ∧ j < s.size then f (s.get j) else s.get j := by
  by_cases hj : i = j
  · subst hj
    by_cases hi : i < s.size
    · rw [get_modify_self s f hi, if_pos ⟨rfl, hi⟩]
    · rw [modify_of_size_le s f (by omega), if_neg (fun h => hi h.2)]
  · rw [get_modify_of_ne s f hj, if_neg (fun h => hj h.1)]

theorem ext_get {s t : Store α} (hsize : s.size = t.size) (h : ∀ i < s.size, s.get i = t.get i) : s = t := by
  obtain ⟨a⟩ := s
  obtain ⟨b⟩ := t
  congr 1
  refine Array.ext hsize fun i ha hb => ?_
  simpa [get, Array.getD, ha, hb] using h i ha

theorem modify_congr (s : Store α) {f g : α → α} {i : Nat} (h : f (s.get i) = g (s.get i)) :
    s.modify i f = s.modify i g := by
  refine ext_get (by simp) fun j _ => ?_
  rw [get_modify, get_modify]
  split
  · rename_i hij
    obtain ⟨rfl, -⟩ := hij
    exact h
  · rfl

theorem modify_modify (s : Store α) (f g : α → α) (i : Nat) : (s.modify i f).modify i g = s.modify i (g ∘ f) := by
  refine ext_get (by simp) fun j _ => ?_
  simp only [get_modify, size_modify]
  split <;> rfl

theorem modify_id (s : Store α) (i : Nat) : s.modify i id = s := by
  refine ext_get (by simp) fun j _ => ?_
  rw [get_modify]
  split <;> rfl

end

end Store

/-! ## Changed worlds -/

namespace World

def nextClass (w : World) : ClassId := ⟨w.nodes.size⟩
def nextField (w : World) : FieldId := ⟨w.fields.size⟩
def nextMethod (w : World) : MethodId := ⟨w.methods.size⟩
def nextConstructor (w : World) : ConstructorId := ⟨w.constructors.size⟩
def nextReference (w : World) : RefId := ⟨w.references.size⟩

def withNode (w : World) (n : ClassNode) : World := { w with nodes := w.nodes.push n }
def withField (w : World) (f : Field) : World := { w with fields := w.fields.push f }
def withMethod (w : World) (m : Method) : World := { w with methods := w.methods.push m }
def withConstructor (w : World) (k : Constructor) : World :=
  { w with constructors := w.constructors.push k }
def withReference (w : World) (t : Target) : World := { w with references := w.references.push ⟨t, none⟩ }

def editNode (w : World) (c : ClassId) (f : ClassNode → ClassNode) : World :=
  { w with nodes := w.nodes.modify c.index f }
def editField (w : World) (i : FieldId) (f : Field → Field) : World :=
  { w with fields := w.fields.modify i.index f }
def editMethod (w : World) (m : MethodId) (f : Method → Method) : World :=
  { w with methods := w.methods.modify m.index f }
def editConstructor (w : World) (k : ConstructorId) (f : Constructor → Constructor) : World :=
  { w with constructors := w.constructors.modify k.index f }
def editReference (w : World) (r : RefId) (f : Reference → Reference) : World :=
  { w with references := w.references.modify r.index f }
def editLoader (w : World) (l : LoaderId) (f : Loader → Loader) : World :=
  { w with loaders := w.loaders.modify l.index f }

structure Extends (w w' : World) : Prop where
  nodes : w.nodes.Extends w'.nodes
  fields : w.fields.Extends w'.fields
  methods : w.methods.Extends w'.methods
  constructors : w.constructors.Extends w'.constructors
  references : w.references.Extends w'.references
  loaders : w.loaders.Extends w'.loaders
  directories : w'.directories = w.directories
  gone : w'.gone = w.gone

structure AddsReferences (w w' : World) : Prop where
  kept : w.references.Extends w'.references
  unresolved : ∀ r : RefId, w.references.size ≤ r.index → (w'.reference r).memo = none

theorem AddsReferences.ofSame {w w' : World} (h : w'.references = w.references) : w.AddsReferences w' where
  kept := by rw [h]; exact .refl _
  unresolved r hr := by
    unfold reference
    rw [h, Store.get_of_size_le _ hr]; rfl

theorem AddsReferences.ofPush {w w' : World} {t : Target} (h : w'.references = w.references.push ⟨t, none⟩) :
    w.AddsReferences w' where
  kept := by rw [h]; exact .push _ _
  unresolved r hr := by
    unfold reference
    rw [h, Store.get_push]
    split
    · rfl
    · rw [Store.get_of_size_le _ hr]; rfl

theorem AddsReferences.trans {w w₁ w₂ : World} (h : w.AddsReferences w₁) (h' : w₁.AddsReferences w₂) :
    w.AddsReferences w₂ where
  kept := h.kept.trans h'.kept
  unresolved r hr := by
    by_cases hlt : r.index < w₁.references.size
    · rw [show w₂.reference r = w₁.reference r from h'.kept.get_eq _ hlt]
      exact h.unresolved r hr
    · exact h'.unresolved r (Nat.not_lt.mp hlt)

structure Spares (w w' : World) : Prop where
  size : w'.nodes.size = w.nodes.size
  loaders : w'.loaders = w.loaders
  references : w.AddsReferences w'

section
variable {w w' : World}

theorem Spares.refl (w : World) : w.Spares w := ⟨rfl, rfl, .ofSame rfl⟩

theorem Spares.ofMember (hn : w'.nodes = w.nodes) (hl : w'.loaders = w.loaders) (hr : w.AddsReferences w') :
    w.Spares w' := ⟨by rw [hn], hl, hr⟩

theorem Spares.ofNode {c : ClassId} {f : ClassNode → ClassNode} (hn : w'.nodes = w.nodes.modify c.index f)
    (hl : w'.loaders = w.loaders) (hr : w.AddsReferences w') : w.Spares w' :=
  ⟨by rw [hn, Store.size_modify], hl, hr⟩

end

def Editable (w : World) (c : ClassId) : Prop := (w.node c).kind = .declared

theorem node_editNode (w : World) (c d : ClassId) (f : ClassNode → ClassNode) :
    (w.editNode c f).node d = if c = d ∧ d.index < w.nodes.size then f (w.node d) else w.node d := by
  have : c.index = d.index ↔ c = d := by cases c; cases d; simp
  simp only [editNode, node, Store.get_modify, this]

theorem field_editField (w : World) (i j : FieldId) (f : Field → Field) :
    (w.editField i f).field j = if i = j ∧ j.index < w.fields.size then f (w.field j) else w.field j := by
  have : i.index = j.index ↔ i = j := by cases i; cases j; simp
  simp only [editField, field, Store.get_modify, this]

theorem method_editMethod (w : World) (i j : MethodId) (f : Method → Method) :
    (w.editMethod i f).method j = if i = j ∧ j.index < w.methods.size then f (w.method j) else w.method j := by
  have : i.index = j.index ↔ i = j := by cases i; cases j; simp
  simp only [editMethod, method, Store.get_modify, this]

theorem constructor_editConstructor (w : World) (i j : ConstructorId) (f : Constructor → Constructor) :
    (w.editConstructor i f).constructor j =
      if i = j ∧ j.index < w.constructors.size then f (w.constructor j) else w.constructor j := by
  have : i.index = j.index ↔ i = j := by cases i; cases j; simp
  simp only [editConstructor, constructor, Store.get_modify, this]

theorem field_withField (w : World) (x : Field) (f : FieldId) :
    (w.withField x).field f = if f.index = w.fields.size then x else w.field f := Store.get_push _ _ _

theorem method_withMethod (w : World) (x : Method) (m : MethodId) :
    (w.withMethod x).method m = if m.index = w.methods.size then x else w.method m := Store.get_push _ _ _

theorem constructor_withConstructor (w : World) (x : Constructor) (k : ConstructorId) :
    (w.withConstructor x).constructor k = if k.index = w.constructors.size then x else w.constructor k :=
  Store.get_push _ _ _

theorem node_editNode_self {w : World} {c : ClassId} (h : c.index < w.nodes.size) (f : ClassNode → ClassNode) :
    (w.editNode c f).node c = f (w.node c) := by
  rw [node_editNode, if_pos ⟨rfl, h⟩]

theorem node_editNode_of_ne (w : World) {c d : ClassId} (h : d ≠ c) (f : ClassNode → ClassNode) :
    (w.editNode c f).node d = w.node d := by
  rw [node_editNode, if_neg fun e => h e.1.symm]

theorem reference_next (w : World) (t : Target) :
    (w.withReference t).reference w.nextReference = ⟨t, none⟩ := Store.get_push_self _ _

end World

/-! ## Runs -/

theorem Step.run_of_fst {s : Step α} {w : World} {a : α} (h : (s w).1 = a) : s w = (a, (s w).2) := Prod.ext h rfl

theorem Bounded.bind_run (s : Bounded α) (f : α → Bounded β) (w : World) :
    (s >>= f) w = (s w).bind fun r => f r.1 r.2 := rfl

namespace Change

theorem bind_run (x : Change α) (f : α → Change β) (w : World) :
    (x >>= f) w = match x w with
      | (.ok a, w') => f a w'
      | (.error e, w') => (.error e, w') := by
  show ExceptT.bindCont f (x w).1 (x w).2 = _
  rcases x w with ⟨_ | _, _⟩ <;> rfl

theorem run_of_ok {x : Change α} {w : World} {a : α} (h : (x w).1 = .ok a) : x w = (.ok a, (x w).2) := Prod.ext h rfl

/-- From `w` the change is made exactly if `p`, and then it hands back `a` and leaves `w'`; if it is
refused, everything is as before. -/
structure Makes (x : Change α) (w : World) (p : Prop) (a : α) (w' : World) : Prop where
  made : p → x w = (.ok a, w')
  refused : ¬ p → ∃ e, x w = (.error e, w)

section
variable {x : Change α} {f : α → Change β} {w w' : World} {p q : Prop} {a : α} {b : β}

theorem Makes.of_eq (h : x w = (.ok a, w')) : x.Makes w True a w' := ⟨fun _ => h, fun n => (n trivial).elim⟩

theorem Makes.congr (h : x.Makes w p a w') (hpq : p ↔ q) : x.Makes w q a w' :=
  ⟨fun hq => h.made (hpq.mpr hq), fun hq => h.refused fun hp => hq (hpq.mp hp)⟩

theorem Makes.guard (hx : x.Makes w p a w) (hf : (f a).Makes w q b w') : (x >>= f).Makes w (p ∧ q) b w' where
  made h := by rw [bind_run, hx.made h.1]; exact hf.made h.2
  refused h := by
    by_cases hp : p
    · rw [bind_run, hx.made hp]; exact hf.refused fun hq => h ⟨hp, hq⟩
    · obtain ⟨e, he⟩ := hx.refused hp
      exact ⟨e, by rw [bind_run, he]⟩

theorem Makes.andThen {w₁ : World} (hx : x.Makes w p a w₁) (hf : f a w₁ = (.ok b, w')) :
    (x >>= f).Makes w p b w' where
  made h := by rw [bind_run, hx.made h]; exact hf
  refused h := by
    obtain ⟨e, he⟩ := hx.refused h
    exact ⟨e, by rw [bind_run, he]⟩

theorem Makes.look {g : World → γ} {f : γ → Change β} (hf : (f (g w)).Makes w q b w') :
    (see g >>= f).Makes w q b w' := ⟨hf.made, hf.refused⟩

theorem Makes.ok (h : x.Makes w p a w') {b : α} {w₁ : World} (hx : x w = (.ok b, w₁)) : p ∧ b = a ∧ w₁ = w' := by
  by_cases hp : p
  · rw [h.made hp] at hx; cases hx; exact ⟨hp, rfl, rfl⟩
  · obtain ⟨e, he⟩ := h.refused hp
    rw [he] at hx; cases hx

theorem Makes.keeps (h : x.Makes w p a w') {inv : World → Prop} (hw : inv w) (hw' : p → inv w') :
    inv (x w).2 := by
  by_cases hp : p
  · rw [h.made hp]; exact hw' hp
  · obtain ⟨e, he⟩ := h.refused hp
    rw [he]; exact hw

def Accepts (x : Change α) (w : World) (p : Prop) (q : α → World → Prop) : Prop :=
  (p → ∃ a w', x w = (.ok a, w') ∧ q a w') ∧ (¬ p → ∃ e w', x w = (.error e, w'))

theorem Makes.accepts (h : x.Makes w p a w') {r : α → World → Prop} (hr : p → r a w') : x.Accepts w p r :=
  ⟨fun hp => ⟨a, w', h.made hp, hr hp⟩, fun hp => (h.refused hp).imp fun _ he => ⟨w, he⟩⟩

theorem Accepts.congr {r s : α → World → Prop} (h : x.Accepts w p r) (hpq : p ↔ q)
    (hrs : ∀ a w', q → r a w' → s a w') : x.Accepts w q s := by
  refine ⟨fun hq => ?_, fun hq => h.2 fun hp => hq (hpq.mp hp)⟩
  obtain ⟨a, w', he, hr⟩ := h.1 (hpq.mpr hq)
  exact ⟨a, w', he, hrs a w' hq hr⟩

theorem Accepts.bind {r : α → World → Prop} {s : β → World → Prop} (hx : x.Accepts w p r)
    (hf : ∀ a w', p → r a w' → (f a).Accepts w' q s) : (x >>= f).Accepts w (p ∧ q) s := by
  constructor
  · rintro ⟨hp, hq⟩
    obtain ⟨a, w', he, hr⟩ := hx.1 hp
    obtain ⟨b, w'', hb, hs⟩ := (hf a w' hp hr).1 hq
    exact ⟨b, w'', by rw [bind_run, he]; exact hb, hs⟩
  · intro h
    by_cases hp : p
    · obtain ⟨a, w', he, hr⟩ := hx.1 hp
      obtain ⟨e, w'', hb⟩ := (hf a w' hp hr).2 fun hq => h ⟨hp, hq⟩
      exact ⟨e, w'', by rw [bind_run, he]; exact hb⟩
    · obtain ⟨e, w', he⟩ := hx.2 hp
      exact ⟨e, w', by rw [bind_run, he]⟩

theorem Accepts.of_ok {r : α → World → Prop} (h : x.Accepts w p r) {a : α} (hx : x w = (.ok a, w')) :
    p ∧ r a w' := by
  by_cases hp : p
  · obtain ⟨b, w₁, hb, hr⟩ := h.1 hp
    rw [hb] at hx; cases hx; exact ⟨hp, hr⟩
  · obtain ⟨e, w₁, he⟩ := h.2 hp
    rw [he] at hx; cases hx

theorem Accepts.ok_iff {r : α → World → Prop} (h : x.Accepts w p r) : (∃ a w', x w = (.ok a, w')) ↔ p :=
  ⟨fun ⟨_, _, hx⟩ => (h.of_ok hx).1, fun hp => (h.1 hp).imp fun _ ⟨w', hx, _⟩ => ⟨w', hx⟩⟩

theorem Accepts.pure {r : α → World → Prop} (h : r a w) : (Pure.pure a : Change α).Accepts w True r :=
  ⟨fun _ => ⟨a, w, rfl, h⟩, fun n => (n trivial).elim⟩

end

theorem requireName_makes (check : Except InvalidName Unit) (w : World) :
    (requireName check).Makes w (check = .ok ()) () w := by
  cases check with
  | ok u => exact ⟨fun _ => rfl, fun h => (h rfl).elim⟩
  | error e => exact ⟨fun h => (by cases h), fun _ => ⟨_, rfl⟩⟩

theorem requireSettings_makes (s : Settings) (w : World) : (requireSettings s).Makes w s.Sound () w := by
  have hs := Settings.check_ok (s := s)
  unfold requireSettings
  cases hc : s.check with
  | ok u => exact ⟨fun _ => rfl, fun h => (h (hs.mp hc)).elim⟩
  | error e => exact ⟨fun h => (by rw [hs.mpr h] at hc; cases hc), fun _ => ⟨_, rfl⟩⟩

theorem requireDeclared_makes (c : ClassId) (w : World) : (requireDeclared c).Makes w (w.Editable c) () w := by
  have hrun : requireDeclared c w = (if (w.node c).kind = .declared then pure ()
      else refuse (.builtinFixed (w.node c).qualifiedName) : Change Unit) w := rfl
  unfold World.Editable
  by_cases h : (w.node c).kind = .declared
  · exact ⟨fun _ => by rw [hrun, if_pos h]; rfl, fun hn => (hn h).elim⟩
  · exact ⟨fun hp => (h hp).elim, fun _ => ⟨_, by rw [hrun, if_neg h]; rfl⟩⟩

end Change

open Change Name

theorem createClass_makes (package simpleName : String) (lookup : Option Collaborator) (settings : Settings)
    (w : World) : (createClass package simpleName lookup settings).Makes w
      (IsPackageName package ∧ IsIdentifier simpleName ∧ settings.Sound) w.nextClass
      (w.withNode (.bare package simpleName .declared lookup settings)) :=
  ((requireName_makes _ w).guard <| (requireName_makes _ w).guard <|
    (requireSettings_makes settings w).guard <| .of_eq rfl).congr <| by
      rw [checkPackageName_ok, checkIdentifier_ok, and_true]

/-! ## Edits of classes -/

namespace ClassEdit

variable (c : ClassId) (w : World)

theorem superclassByName_makes (name : String) (t : Target) :
    (superclassByName c name t).Makes w (IsClassName name ∧ w.Editable c) .nothing
      ((w.withReference t).editNode c fun n => { n with superclass := some w.nextReference }) :=
  ((requireName_makes _ w).guard <| (requireDeclared_makes c w).guard <| .of_eq rfl).congr <| by
    rw [checkClassName_ok, and_true]

theorem interfaceByName_makes (name : String) (t : Target) :
    (interfaceByName c name t).Makes w (IsClassName name ∧ w.Editable c) .nothing
      ((w.withReference t).editNode c fun n => { n with interfaces := n.interfaces ++ [w.nextReference] }) :=
  ((requireName_makes _ w).guard <| (requireDeclared_makes c w).guard <| .of_eq rfl).congr <| by
    rw [checkClassName_ok, and_true]

theorem update_makes (f : ClassNode → ClassNode) :
    (update c f).Makes w (w.Editable c) .nothing (w.editNode c f) :=
  ((requireDeclared_makes c w).guard <| .of_eq rfl).congr (by rw [and_true])

theorem addNewField_makes : (addNewField c).Makes w (w.Editable c) (.field w.nextField)
    (((w.withReference (.qualified (w.node c).settings.defaultFieldType c)).withField
      ⟨c, (w.node c).settings.memberName (w.node c).fieldsMade, .none, w.nextReference⟩).editNode c fun n =>
        { n with fields := n.fields ++ [w.nextField], fieldsMade := n.fieldsMade + 1 }) :=
  ((requireDeclared_makes c w).guard <| .of_eq rfl).congr (by rw [and_true])

theorem addNewMethod_makes : (addNewMethod c).Makes w (w.Editable c) (.method w.nextMethod)
    (((w.withReference (.qualified (w.node c).settings.defaultReturnType c)).withMethod
      ⟨c, (w.node c).settings.memberName (w.node c).methodsMade, .none, w.nextReference, ⟨[], 0⟩⟩).editNode c
        fun n => { n with methods := n.methods ++ [w.nextMethod], methodsMade := n.methodsMade + 1 }) :=
  ((requireDeclared_makes c w).guard <| .of_eq rfl).congr (by rw [and_true])

theorem addNewConstructor_makes : (addNewConstructor c).Makes w (w.Editable c)
    (.constructor w.nextConstructor)
    ((w.withConstructor ⟨c, .none, ⟨[], 0⟩⟩).editNode c fun n =>
      { n with constructors := n.constructors ++ [w.nextConstructor] }) :=
  ((requireDeclared_makes c w).guard <| .of_eq rfl).congr (by rw [and_true])

theorem setSuperclassClass_makes (d : ClassId) :
    (apply c (.setSuperclassClass d)).Makes w (w.Editable c) .nothing
      ((w.withReference (.direct d)).editNode c fun n => { n with superclass := some w.nextReference }) :=
  ((requireDeclared_makes c w).guard <| .of_eq rfl).congr (by rw [and_true])

theorem addInterfaceClass_makes (d : ClassId) :
    (apply c (.addInterfaceClass d)).Makes w (w.Editable c) .nothing
      ((w.withReference (.direct d)).editNode c fun n =>
        { n with interfaces := n.interfaces ++ [w.nextReference] }) :=
  ((requireDeclared_makes c w).guard <| .of_eq rfl).congr (by rw [and_true])

end ClassEdit

/-! ## Edits of members -/

theorem typeReference_makes (name : String) (t : Target) (w : World) :
    (typeReference name t).Makes w (IsClassName name) w.nextReference (w.withReference t) :=
  ((requireName_makes _ w).guard <| .of_eq rfl).congr <| by rw [checkClassName_ok, and_true]

namespace ParameterEdit

variable (w : World) (ps : Parameters)

theorem addNamed_makes (name type : String) (t : Target) :
    (addNamed ps name type t).Makes w (IsClassName type ∧ IsIdentifier name)
      (⟨ps.list ++ [⟨name, w.nextReference⟩], ps.made + 1⟩, .nothing) (w.withReference t) :=
  ((requireName_makes _ w).guard <| (requireName_makes _ w).guard <| .of_eq rfl).congr <| by
    rw [checkClassName_ok, checkIdentifier_ok, and_true]

theorem addNew_makes (owner : ClassId) : (apply owner ps .addNew).Makes w True
    (⟨ps.list ++ [⟨(w.node owner).settings.memberName ps.made, w.nextReference⟩], ps.made + 1⟩,
      .parameter ⟨(w.node owner).settings.memberName ps.made, w.nextReference⟩)
    (w.withReference (.qualified (w.node owner).settings.defaultFieldType owner)) :=
  .of_eq rfl

theorem remove_makes (owner : ClassId) (i : Nat) : (apply owner ps (.remove i)).Makes w (i < ps.list.length)
    ({ ps with list := ps.list.eraseIdx i }, match ps.list[i]? with
      | some p => .parameter p
      | none => .nothing) w := by
  unfold apply
  by_cases hi : i < ps.list.length
  · simp only [List.getElem?_eq_getElem hi]
    exact (Makes.of_eq rfl).congr (by simp [hi])
  · simp only [List.getElem?_eq_none (Nat.not_lt.mp hi)]
    exact ⟨fun h => absurd h hi, fun _ => ⟨_, rfl⟩⟩

end ParameterEdit

namespace FieldEdit

variable (f : FieldId) (w : World)

theorem setName_makes (name : String) : (apply f (.setName name)).Makes w (IsIdentifier name) .nothing
    (w.editField f fun x => { x with name := name }) :=
  ((requireName_makes _ w).guard <| .of_eq rfl).congr <| by rw [checkIdentifier_ok, and_true]

theorem setModifiers_makes (m : Modifiers) : (apply f (.setModifiers m)).Makes w True .nothing
    (w.editField f fun x => { x with modifiers := m }) := .of_eq rfl

theorem setType_makes (name : String) : (apply f (.setType name)).Makes w (IsClassName name) .nothing
    ((w.withReference (.qualified name (w.field f).owner)).editField f fun x =>
      { x with type := w.nextReference }) :=
  .look <| (typeReference_makes name (.qualified name (w.field f).owner) w).andThen rfl

theorem setTypeUnqualified_makes (name : String) :
    (apply f (.setTypeUnqualified name)).Makes w (IsClassName name) .nothing
      ((w.withReference (.unqualified name (w.field f).owner)).editField f fun x =>
        { x with type := w.nextReference }) :=
  .look <| (typeReference_makes name (.unqualified name (w.field f).owner) w).andThen rfl

theorem setTypeClass_makes (c : ClassId) : (apply f (.setTypeClass c)).Makes w True .nothing
    ((w.withReference (.direct c)).editField f fun x => { x with type := w.nextReference }) := .of_eq rfl

end FieldEdit

namespace MethodEdit

variable (m : MethodId) (w : World)

theorem setName_makes (name : String) : (apply m (.setName name)).Makes w (IsIdentifier name) .nothing
    (w.editMethod m fun x => { x with name := name }) :=
  ((requireName_makes _ w).guard <| .of_eq rfl).congr <| by rw [checkIdentifier_ok, and_true]

theorem setModifiers_makes (ms : Modifiers) : (apply m (.setModifiers ms)).Makes w True .nothing
    (w.editMethod m fun x => { x with modifiers := ms }) := .of_eq rfl

theorem setReturnType_makes (name : String) :
    (apply m (.setReturnType name)).Makes w (IsClassName name) .nothing
      ((w.withReference (.qualified name (w.method m).owner)).editMethod m fun x =>
        { x with returnType := w.nextReference }) :=
  .look <| (typeReference_makes name (.qualified name (w.method m).owner) w).andThen rfl

theorem setReturnTypeUnqualified_makes (name : String) :
    (apply m (.setReturnTypeUnqualified name)).Makes w (IsClassName name) .nothing
      ((w.withReference (.unqualified name (w.method m).owner)).editMethod m fun x =>
        { x with returnType := w.nextReference }) :=
  .look <| (typeReference_makes name (.unqualified name (w.method m).owner) w).andThen rfl

variable {m w} in
theorem parameters_makes {e : ParameterEdit} {p : Prop} {ps : Parameters} {made : Made} {w' : World}
    (h : (e.apply (w.method m).owner (w.method m).parameters).Makes w p (ps, made) w') :
    (apply m (.parameters e)).Makes w p made (w'.editMethod m fun x => { x with parameters := ps }) :=
  .look <| h.andThen rfl

end MethodEdit

namespace ConstructorEdit

variable (k : ConstructorId) (w : World)

theorem setModifiers_makes (m : Modifiers) : (apply k (.setModifiers m)).Makes w True .nothing
    (w.editConstructor k fun x => { x with modifiers := m }) := .of_eq rfl

variable {k w} in
theorem parameters_makes {e : ParameterEdit} {p : Prop} {ps : Parameters} {made : Made} {w' : World}
    (h : (e.apply (w.constructor k).owner (w.constructor k).parameters).Makes w p (ps, made) w') :
    (apply k (.parameters e)).Makes w p made (w'.editConstructor k fun x => { x with parameters := ps }) :=
  .look <| h.andThen rfl

end ConstructorEdit

end ClassModel
