import ClassModel.Proofs.Graph.Loaders
import ClassModel.Snapshot.Capture
import ClassModel.Snapshot.Restore
import Mathlib.Data.List.Sort

/-!
# Well-formed snapshots and their normal form

Which snapshots can be restored, and what a restored one looks like: its classes in the order of
their names, the texts of imports without blanks around them, and nothing but its flags of a class
that is marked unresolved. What the mark hides is still recorded (`World.recordClass`).
-/

namespace ClassModel

open Name

namespace ClassSnapshot

def qualifiedName (x : ClassSnapshot) : String := qualify x.package x.simpleName

def trimmed (x : ClassSnapshot) : ClassSnapshot := { x with imports := x.imports.map Text.trim }

def shown (x : ClassSnapshot) : ClassSnapshot :=
  if x.isUnresolved then
    { x with superclass := none, interfaces := [], fields := [], methods := [], constructors := [] }
  else x

structure Definable (settings : Settings) (x : ClassSnapshot) : Prop where
  imports : ∀ t ∈ x.imports, ∃ i, Import.parse t = .ok i
  package : IsPackageName x.package
  simpleName : IsIdentifier x.simpleName
  notBuiltin : ¬ Loader.IsBuiltinName settings x.qualifiedName

end ClassSnapshot

def ParameterSnapshot.Named (p : ParameterSnapshot) : Prop := IsIdentifier p.name ∧ IsClassName p.type.name

def FieldSnapshot.Named (f : FieldSnapshot) : Prop := IsIdentifier f.name ∧ IsClassName f.type.name

def MethodSnapshot.Named (m : MethodSnapshot) : Prop :=
  IsIdentifier m.name ∧ IsClassName m.returnType.name ∧ ∀ p ∈ m.parameters, p.Named

def ConstructorSnapshot.Named (k : ConstructorSnapshot) : Prop := ∀ p ∈ k.parameters, p.Named

structure ClassSnapshot.Fillable (x : ClassSnapshot) : Prop where
  superclass : ∀ r ∈ x.superclass, IsClassName r.name
  interfaces : ∀ r ∈ x.interfaces, IsClassName r.name
  fields : ∀ f ∈ x.fields, f.Named
  methods : ∀ m ∈ x.methods, m.Named
  constructors : ∀ k ∈ x.constructors, k.Named

namespace Snapshot

structure WellFormed (settings : Settings) (s : Snapshot) : Prop where
  accepted : settings.check = .ok ()
  definable : ∀ x ∈ s.classes, x.Definable settings
  distinct : (s.classes.map (·.qualifiedName)).Nodup
  fillable : ∀ x ∈ s.classes, x.Fillable

def inOrder (xs : List ClassSnapshot) : List ClassSnapshot :=
  xs.mergeSort fun a b => a.qualifiedName ≤ b.qualifiedName

def records (s : Snapshot) : List ClassSnapshot := (inOrder s.classes).map (·.trimmed)

def normal (s : Snapshot) : Snapshot := ⟨ClassModel.schemaVersion, s.records.map (·.shown)⟩

theorem inOrder_perm (xs : List ClassSnapshot) : (inOrder xs).Perm xs := List.mergeSort_perm _ _

theorem eq_of_perm_of_ascending : ∀ {xs ys : List ClassSnapshot}, xs.Perm ys →
    xs.Pairwise (fun a b => a.qualifiedName < b.qualifiedName) →
    ys.Pairwise (fun a b => a.qualifiedName < b.qualifiedName) → xs = ys :=
  fun hp hx hy => hp.eq_of_pairwise (fun _ _ _ _ h h' => (String.lt_asymm h h').elim) hx hy

theorem inOrder_ascending {xs : List ClassSnapshot} (hd : (xs.map (·.qualifiedName)).Nodup) :
    (inOrder xs).Pairwise fun a b => a.qualifiedName < b.qualifiedName := by
  have hle : (inOrder xs).Pairwise fun a b => a.qualifiedName ≤ b.qualifiedName := by
    have := @List.pairwise_mergeSort _ (fun a b : ClassSnapshot => decide (a.qualifiedName ≤ b.qualifiedName))
      (fun a b c h h' => by simp only [decide_eq_true_eq] at *; exact String.le_trans h h')
      (fun a b => by simpa using String.le_total a.qualifiedName b.qualifiedName) xs
    simpa [inOrder] using this
  have hne : ((inOrder xs).map (·.qualifiedName)).Nodup := (inOrder_perm xs).map _ |>.nodup_iff.mpr hd
  rw [List.Nodup, List.pairwise_map] at hne
  exact (hle.and hne).imp fun ⟨h, h'⟩ => Decidable.byContradiction fun hlt =>
    h' (String.le_antisymm h (String.not_lt.mp hlt))

end Snapshot

namespace World

def parameterTypes (ps : Parameters) : List RefId := ps.list.map (·.type)

def shownReferences (w : World) (c : ClassId) : List RefId :=
  (w.node c).superclassRef.toList ++ (w.node c).interfaceRefs ++
    (w.node c).declaredFields.map (fun f => (w.field f).type) ++
    (w.node c).declaredMethods.flatMap (fun m => (w.method m).returnType :: parameterTypes (w.method m).parameters) ++
    (w.node c).declaredConstructors.flatMap fun k => parameterTypes (w.constructor k).parameters

section
variable {w : World} {c : ClassId}

theorem superclass_shown {r : RefId} (h : (w.node c).superclassRef = some r) : r ∈ w.shownReferences c := by
  simp [shownReferences, h]

theorem interface_shown {r : RefId} (h : r ∈ (w.node c).interfaceRefs) : r ∈ w.shownReferences c := by
  simp [shownReferences, h]

theorem field_shown {f : FieldId} (h : f ∈ (w.node c).declaredFields) : (w.field f).type ∈ w.shownReferences c := by
  simp only [shownReferences, List.mem_append, List.mem_map]
  exact .inl (.inl (.inr ⟨f, h, rfl⟩))

theorem method_shown {m : MethodId} (h : m ∈ (w.node c).declaredMethods) :
    (w.method m).returnType :: parameterTypes (w.method m).parameters ⊆ w.shownReferences c := by
  intro r hr
  simp only [shownReferences, List.mem_append, List.mem_flatMap]
  exact .inl (.inr ⟨m, h, hr⟩)

theorem constructor_shown {k : ConstructorId} (h : k ∈ (w.node c).declaredConstructors) :
    parameterTypes (w.constructor k).parameters ⊆ w.shownReferences c := by
  intro r hr
  simp only [shownReferences, List.mem_append, List.mem_flatMap]
  exact .inr ⟨k, h, hr⟩

end

/-- All that a class is made of, hidden or not, as a snapshot shows it. -/
def recordClass (w : World) (c : ClassId) : ClassSnapshot :=
  let n := w.node c
  { package := n.package
    simpleName := n.simpleName
    modifiers := n.modifiers
    isInterface := n.isInterface
    isAnnotationType := n.isAnnotationType
    isUnresolved := n.isUnresolved
    imports := n.imports.map Import.text
    superclass := n.superclass.map w.captureRef
    interfaces := n.interfaces.map w.captureRef
    fields := n.fields.map w.captureField
    methods := n.methods.map w.captureMethod
    constructors := n.constructors.map w.captureConstructor }

theorem captureClass_eq (w : World) (c : ClassId) : w.captureClass c = (w.recordClass c).shown := by
  unfold captureClass recordClass ClassSnapshot.shown ClassNode.superclassRef ClassNode.interfaceRefs
    ClassNode.declaredFields ClassNode.declaredMethods ClassNode.declaredConstructors
  by_cases h : (w.node c).isUnresolved = true <;> simp [h]

def records (w : World) (l : LoaderId) : List ClassSnapshot := (w.loader l).classes.values.map w.recordClass

theorem snapshot_eq (w : World) (l : LoaderId) : w.snapshot l = ⟨schemaVersion, (w.records l).map (·.shown)⟩ := by
  simp [snapshot, records, captureClass_eq]

end World

end ClassModel
