import ClassModel.Proofs.Graph.Soundness
import ClassModel.Proofs.Snapshot.Restoring

/-!
# Names of reachable classes

A name that is given as a text is checked where it is given. A ready-made import or class is taken as
it is, and there are stand-ins for any text. So the names that a class shows are well formed exactly if
its imports are and the classes it refers to directly, and exactly then can its snapshot be restored.
-/

namespace ClassModel

open Change Name

theorem Target.WrittenIn.named {c : ClassId} {t : Target} (h : t.WrittenIn c) {n : String} {d : ClassId}
    (ht : t = .qualified n d ∨ t = .unqualified n d) : IsClassName n := by
  rcases ht with rfl | rfl <;> exact h.2

namespace World

def NamedParameters (w : World) (ps : Parameters) : Prop :=
  ∀ p ∈ ps.list, IsIdentifier p.name ∧ IsClassName (w.writtenName p.type)

/-- Every name that the class shows passes its check, apart from those of its imports. -/
structure Checked (w : World) (c : ClassId) : Prop where
  superclass : ∀ r ∈ (w.node c).superclassRef, IsClassName (w.writtenName r)
  interfaces : ∀ r ∈ (w.node c).interfaceRefs, IsClassName (w.writtenName r)
  fields : ∀ f ∈ (w.node c).declaredFields,
    IsIdentifier (w.field f).name ∧ IsClassName (w.writtenName (w.field f).type)
  methods : ∀ m ∈ (w.node c).declaredMethods, IsIdentifier (w.method m).name ∧
    IsClassName (w.writtenName (w.method m).returnType) ∧ w.NamedParameters (w.method m).parameters
  constructors : ∀ k ∈ (w.node c).declaredConstructors, w.NamedParameters (w.constructor k).parameters

def WellNamed (w : World) (c : ClassId) : Prop := (∀ i ∈ (w.node c).imports, IsClassName i.path) ∧ w.Checked c

def DirectNamed (w : World) (c : ClassId) : Prop :=
  ∀ r ∈ w.shownReferences c, ∀ d, (w.reference r).target = .direct d → IsClassName (w.nameOf d)

section
variable {w : World} {made : List (LoaderId × ClassId)} {l : LoaderId} {c : ClassId}

@[simp]
theorem captureRef_name (w : World) (r : RefId) : (w.captureRef r).name = w.writtenName r := by
  unfold captureRef writtenName
  cases (w.reference r).target <;> rfl

theorem captureParameters_named {ps : Parameters} :
    (∀ p ∈ w.captureParameters ps, p.Named) ↔ w.NamedParameters ps := by
  unfold captureParameters NamedParameters
  rw [List.forall_mem_map]
  simp only [ParameterSnapshot.Named, captureRef_name]

theorem checked_iff_fillable : w.Checked c ↔ (w.captureClass c).Fillable := by
  have hsuper : (∀ r ∈ (w.captureClass c).superclass, IsClassName r.name) ↔
      ∀ r ∈ (w.node c).superclassRef, IsClassName (w.writtenName r) := by
    simp [captureClass]
  have hinterfaces : (∀ r ∈ (w.captureClass c).interfaces, IsClassName r.name) ↔
      ∀ r ∈ (w.node c).interfaceRefs, IsClassName (w.writtenName r) := by
    simp [captureClass]
  have hfields : (∀ f ∈ (w.captureClass c).fields, f.Named) ↔ ∀ f ∈ (w.node c).declaredFields,
      IsIdentifier (w.field f).name ∧ IsClassName (w.writtenName (w.field f).type) := by
    simp [captureClass, captureField, FieldSnapshot.Named]
  have hmethods : (∀ m ∈ (w.captureClass c).methods, m.Named) ↔ ∀ m ∈ (w.node c).declaredMethods,
      IsIdentifier (w.method m).name ∧ IsClassName (w.writtenName (w.method m).returnType) ∧
        w.NamedParameters (w.method m).parameters := by
    simp [captureClass, captureMethod, MethodSnapshot.Named, captureParameters_named]
  have hconstructors : (∀ k ∈ (w.captureClass c).constructors, k.Named) ↔
      ∀ k ∈ (w.node c).declaredConstructors, w.NamedParameters (w.constructor k).parameters := by
    simp [captureClass, captureConstructor, ConstructorSnapshot.Named, captureParameters_named]
  constructor
  · intro h
    exact ⟨hsuper.mpr h.superclass, hinterfaces.mpr h.interfaces, hfields.mpr h.fields,
      hmethods.mpr h.methods, hconstructors.mpr h.constructors⟩
  · intro h
    exact ⟨hsuper.mp h.superclass, hinterfaces.mp h.interfaces, hfields.mp h.fields,
      hmethods.mp h.methods, hconstructors.mp h.constructors⟩

/-! ## Reachable classes -/

theorem DefinedBy.isClassName {k : LoaderId} (h : w.DefinedBy k c) : IsClassName (w.nameOf c) :=
  isClassName_qualify h.package h.simpleName

theorem Sound.isClassName (h : w.Sound made) (hc : (w.node c).isBuiltinType = true ∨ ∃ k, (k, c) ∈ made) :
    IsClassName (w.nameOf c) := by
  rcases hc with hb | ⟨k, hk⟩
  · exact (h.nodes c).builtin (by simpa [ClassNode.isBuiltinType] using hb)
  · exact (h.made _ hk).isClassName

/-- The name of a reference was checked when it was written, unless the reference is direct. -/
theorem Written.named {r : RefId} (hr : w.Written c r)
    (hdirect : ∀ d, (w.reference r).target = .direct d → IsClassName (w.nameOf d)) : IsClassName (w.writtenName r) := by
  unfold writtenName
  cases ht : (w.reference r).target with
  | direct d => exact hdirect d ht
  | qualified n d => exact hr.target.named (.inl ht)
  | unqualified n d => exact hr.target.named (.inr ht)

theorem Sound.written (h : w.Sound made) {r : RefId} (hr : r ∈ w.shownReferences c) : w.Written c r := by
  have hn := h.nodes c
  have hparameters {ps : Parameters} (hps : w.SoundParameters c ps) (hr : r ∈ parameterTypes ps) : w.Written c r := by
    obtain ⟨p, hp, rfl⟩ := List.mem_map.mp hr
    exact (hps p hp).2
  simp only [shownReferences, List.mem_append, List.mem_map, List.mem_flatMap] at hr
  rcases hr with (((hr | hr) | ⟨f, hf, rfl⟩) | ⟨m, hm, hr⟩) | ⟨k, hk, hr⟩
  · exact hn.supertypes r (List.mem_append_left _ (superclassRef_subset _ hr))
  · exact hn.supertypes r (List.mem_append_right _ (interfaceRefs_subset _ hr))
  · obtain ⟨hlt, ho⟩ := hn.fields f (declaredFields_subset _ hf)
    exact ho ▸ (h.fields f hlt).type
  · obtain ⟨hlt, ho⟩ := hn.methods m (declaredMethods_subset _ hm)
    rcases List.mem_cons.mp hr with rfl | hr
    · exact ho ▸ (h.methods m hlt).returnType
    · exact hparameters (ho ▸ (h.methods m hlt).parameters) hr
  · obtain ⟨hlt, ho⟩ := hn.constructors k (declaredConstructors_subset _ hk)
    exact hparameters (ho ▸ h.constructors k hlt) hr

/-- A class that is well named refers to well-named classes. -/
theorem Checked.writtenName (h : w.Checked c) {r : RefId} (hr : r ∈ w.shownReferences c) :
    IsClassName (w.writtenName r) := by
  have hparameters {ps : Parameters} (hps : w.NamedParameters ps) (hr : r ∈ parameterTypes ps) :
      IsClassName (w.writtenName r) := by
    obtain ⟨p, hp, rfl⟩ := List.mem_map.mp hr
    exact (hps p hp).2
  simp only [shownReferences, List.mem_append, List.mem_map, List.mem_flatMap, Option.mem_toList] at hr
  rcases hr with (((hr | hr) | ⟨f, hf, rfl⟩) | ⟨m, hm, hr⟩) | ⟨k, hk, hr⟩
  · exact h.superclass r hr
  · exact h.interfaces r hr
  · exact (h.fields f hf).2
  · obtain ⟨-, htype, hps⟩ := h.methods m hm
    rcases List.mem_cons.mp hr with rfl | hr
    · exact htype
    · exact hparameters hps hr
  · exact hparameters (h.constructors k hk) hr

/-- The names of members and all names given as texts have been checked, so what is left are the classes
that were handed in. -/
theorem Sound.checked_iff (h : w.Sound made) : w.Checked c ↔ w.DirectNamed c := by
  constructor
  · intro hn r hr d hd
    have hname := hn.writtenName hr
    unfold World.writtenName at hname
    rwa [hd] at hname
  · intro hdirect
    have hn := h.nodes c
    have hname {r : RefId} (hr : r ∈ w.shownReferences c) : IsClassName (w.writtenName r) :=
      (h.written hr).named (hdirect r hr)
    have hparameters {ps : Parameters} (hps : w.SoundParameters c ps)
        (hsub : parameterTypes ps ⊆ w.shownReferences c) : w.NamedParameters ps := fun p hp =>
      ⟨(hps p hp).1, hname (hsub (List.mem_map.mpr ⟨p, hp, rfl⟩))⟩
    refine ⟨fun r hr => hname (superclass_shown hr), fun r hr => hname (interface_shown hr), fun f hf => ?_,
      fun m hm => ?_, fun k hk => ?_⟩
    · have hlt := (hn.fields f (declaredFields_subset _ hf)).1
      exact ⟨(h.fields f hlt).name, hname (field_shown hf)⟩
    · obtain ⟨hlt, ho⟩ := hn.methods m (declaredMethods_subset _ hm)
      have hshown := method_shown hm
      exact ⟨(h.methods m hlt).name, hname (hshown List.mem_cons_self),
        hparameters (ho ▸ (h.methods m hlt).parameters) fun r hr => hshown (List.mem_cons_of_mem _ hr)⟩
    · obtain ⟨hlt, ho⟩ := hn.constructors k (declaredConstructors_subset _ hk)
      exact hparameters (ho ▸ h.constructors k hlt) (constructor_shown hk)

/-! ## Snapshots of defined classes -/

section
variable (h : w.Sound made) (hdef : ∀ c ∈ (w.loader l).classes.values, (l, c) ∈ made)
include h hdef

theorem Sound.ascending : (w.snapshot l).classes.Pairwise fun a b => a.qualifiedName < b.qualifiedName := by
  have heq : (w.snapshot l).classes = (w.loader l).classes.map fun e => w.captureClass e.2 := by
    simp [snapshot, Registry.values]
  have hkey (e) (he : e ∈ (w.loader l).classes) : (w.captureClass e.2).qualifiedName = e.1 := by
    have hmade := hdef e.2 (Registry.mem_values.mpr ⟨e.1, he⟩)
    exact ((h.loaders l).keys e he _ hmade rfl).symm
  rw [heq, List.pairwise_map]
  exact (h.loaders l).sorted.imp_of_mem fun ha hb hlt => by rwa [hkey _ ha, hkey _ hb]

theorem Sound.wellFormed_iff : (w.snapshot l).WellFormed (w.loader l).settings ↔
    ∀ c ∈ (w.loader l).classes.values,
      (∀ i ∈ (w.node c).imports, ∃ j, Import.parse i.text = .ok j) ∧ w.DirectNamed c := by
  constructor
  · intro hw c hc
    have hx : w.captureClass c ∈ (w.snapshot l).classes := List.mem_map.mpr ⟨c, hc, rfl⟩
    exact ⟨fun i hi => (hw.definable _ hx).imports _ (List.mem_map.mpr ⟨i, hi, rfl⟩),
      h.checked_iff.mp (checked_iff_fillable.mpr (hw.fillable _ hx))⟩
  · intro hall
    refine ⟨Settings.check_ok.mpr (h.loaders l).settings, fun x hx => ?_, ?_, fun x hx => ?_⟩
    · obtain ⟨c, hc, rfl⟩ := List.mem_map.mp hx
      have hd := h.made _ (hdef c hc)
      exact ⟨List.forall_mem_map.mpr (hall c hc).1, hd.package, hd.simpleName, hd.notBuiltin⟩
    · exact List.pairwise_map.mpr ((h.ascending hdef).imp fun hlt heq => by
        rw [heq] at hlt; exact String.lt_irrefl _ hlt)
    · obtain ⟨c, hc, rfl⟩ := List.mem_map.mp hx
      exact checked_iff_fillable.mp (h.checked_iff.mpr (hall c hc).2)

end

end

/-- A class is well named exactly if the imports and the classes are that it was handed ready-made, and a
builtin or a defined class is always fit for that. The snapshot of a loader that holds what it has
defined can be restored exactly if the imports are readable and the classes handed in well named. -/
theorem wellNamed_of_reached {w : World} {made : List (LoaderId × ClassId)} (hw : Reached w made) :
    (∀ c, w.WellNamed c ↔ (∀ i ∈ (w.node c).imports, IsClassName i.path) ∧ w.DirectNamed c) ∧
      (∀ c, (w.node c).isBuiltinType = true ∨ (∃ l, (l, c) ∈ made) → IsClassName (w.nameOf c)) ∧
      ∀ l, (∀ c ∈ (w.loader l).classes.values, (l, c) ∈ made) → ∀ w₀,
        ((∃ l' w', Snapshot.restore (w.loader l).settings (w.snapshot l) w₀ = (.ok l', w')) ↔
          ∀ c ∈ (w.loader l).classes.values,
            (∀ i ∈ (w.node c).imports, ∃ j, Import.parse i.text = .ok j) ∧ w.DirectNamed c) ∧
        ((∀ c ∈ (w.loader l).classes.values, w.WellNamed c) →
          ∃ l' w', Snapshot.restore (w.loader l).settings (w.snapshot l) w₀ = (.ok l', w')) := by
  have h := hw.sound
  refine ⟨fun c => and_congr_right fun _ => h.checked_iff, fun c => h.isClassName, fun l hdef w₀ => ?_⟩
  have hrestore := (Snapshot.restore_accepts (w.loader l).settings (w.snapshot l) w₀).ok_iff.trans
    (h.wellFormed_iff hdef)
  refine ⟨hrestore, fun hall => hrestore.mpr fun c hc => ?_⟩
  obtain ⟨himports, hnamed⟩ := hall c hc
  exact ⟨fun i hi => ⟨i, Import.parse_text_of_path (himports i hi)⟩, h.checked_iff.mp hnamed⟩

/-- A class with an imported superclass, an interface and a member of each kind. -/
def furnished : World :=
  [Edit.onClass ⟨12⟩ (.setInterface true), .onClass ⟨10⟩ (.setSuperclassUnqualified "B"),
    .onClass ⟨10⟩ (.addInterface "q.I"), .onClass ⟨11⟩ .addMethod, .onClass ⟨10⟩ .addField,
    .onField ⟨0⟩ (.setType "q.Missing"), .onClass ⟨10⟩ .addMethod, .onMethod ⟨1⟩ (.parameters .addNew),
    .onMethod ⟨1⟩ (.setReturnType "int"), .onClass ⟨10⟩ .addConstructor].foldl (fun w e => (e.apply w).2)
      (Loader.define ⟨0⟩ "q" "I" [] (Loader.define ⟨0⟩ "q" "B" []
        (Loader.define ⟨0⟩ "p" "A" [.single "q.B"] single).2).2).2

theorem reached_furnished : Reached furnished [(⟨0⟩, ⟨10⟩), (⟨0⟩, ⟨11⟩), (⟨0⟩, ⟨12⟩)] := by
  refine Reached.edits ?_ _
  exact ((reached_single.define (c := ⟨10⟩) (by decide +kernel) (by decide +kernel) (by decide +kernel)).define
    (c := ⟨11⟩) (by decide +kernel) (by decide +kernel) (by decide +kernel)).define (c := ⟨12⟩) (by decide +kernel)
    (by decide +kernel) (by decide +kernel)

theorem furnished_restorable : Reached furnished [(⟨0⟩, ⟨10⟩), (⟨0⟩, ⟨11⟩), (⟨0⟩, ⟨12⟩)] ∧
    (furnished.loader ⟨0⟩).classes.values = [⟨10⟩, ⟨11⟩, ⟨12⟩] ∧
    furnished.shownReferences ⟨10⟩ = [⟨0⟩, ⟨1⟩, ⟨4⟩, ⟨7⟩, ⟨6⟩] ∧
    (∀ c ∈ (furnished.loader ⟨0⟩).classes.values, furnished.WellNamed c) ∧
    ∃ l' w', Snapshot.restore (furnished.loader ⟨0⟩).settings (furnished.snapshot ⟨0⟩) .empty = (.ok l', w') := by
  have h := wellNamed_of_reached reached_furnished
  have hclasses : (furnished.loader ⟨0⟩).classes.values = [⟨10⟩, ⟨11⟩, ⟨12⟩] := by decide +kernel
  have hnamed : ∀ c ∈ (furnished.loader ⟨0⟩).classes.values,
      (∀ i ∈ (furnished.node c).imports, IsClassName i.path) ∧
      ∀ r ∈ furnished.shownReferences c, (furnished.reference r).kind ≠ .direct := by decide +kernel
  have hwell : ∀ c ∈ (furnished.loader ⟨0⟩).classes.values, furnished.WellNamed c := fun c hc => by
    refine (h.1 c).mpr ⟨(hnamed c hc).1, fun r hr d hd => ((hnamed c hc).2 r hr ?_).elim⟩
    simp only [Reference.kind, hd]
  refine ⟨reached_furnished, hclasses, by decide +kernel, hwell, (h.2.2 ⟨0⟩ ?_ .empty).2 hwell⟩
  rw [hclasses]
  decide

def importing : World := (Loader.define ⟨0⟩ "p" "A" [.single "p.B"] single).2

theorem reached_importing : Reached importing [(⟨0⟩, ⟨10⟩)] :=
  reached_single.define (by decide +kernel) (by decide +kernel) (by decide +kernel)

/-- A class that extends a stand-in for a text that is no name. -/
def misnamed : World :=
  ((Edit.onClass ⟨10⟩ (.setSuperclassClass ⟨11⟩)).apply (Loader.placeholder ⟨0⟩ "1x" importing).2).2

theorem reached_misnamed : Reached misnamed [(⟨0⟩, ⟨10⟩)] := by
  have hload : Reached (Loader.placeholder ⟨0⟩ "1x" importing).2 [(⟨0⟩, ⟨10⟩)] :=
    reached_importing.tail (.standIn _ ⟨0⟩ "1x")
  exact hload.edit (a := .nothing) (by decide +kernel)

theorem misnamed_classes : (misnamed.loader ⟨0⟩).classes.values = [⟨10⟩] := by decide +kernel

theorem misnamed_defined : ∀ c ∈ (misnamed.loader ⟨0⟩).classes.values,
    ((⟨0⟩ : LoaderId), c) ∈ [((⟨0⟩ : LoaderId), (⟨10⟩ : ClassId))] := by
  rw [misnamed_classes]
  decide

/-- The edit is accepted, the name of the superclass is malformed, and the snapshot is refused. -/
theorem misnamed_unrestorable : Reached misnamed [(⟨0⟩, ⟨10⟩)] ∧
    (misnamed.loader ⟨0⟩).classes.values = [⟨10⟩] ∧
    (misnamed.node ⟨10⟩).superclassRef = some ⟨0⟩ ∧ misnamed.writtenName ⟨0⟩ = "1x" ∧ ¬ IsClassName "1x" ∧
    ¬ misnamed.WellNamed ⟨10⟩ ∧
    ∀ l' w', Snapshot.restore (misnamed.loader ⟨0⟩).settings (misnamed.snapshot ⟨0⟩) .empty ≠ (.ok l', w') := by
  have hsuper : (misnamed.node ⟨10⟩).superclassRef = some ⟨0⟩ := by decide +kernel
  have hname : misnamed.writtenName ⟨0⟩ = "1x" := by decide +kernel
  have hbad : ¬ IsClassName "1x" := by decide +kernel
  have hnot : ¬ misnamed.Checked ⟨10⟩ := fun h => hbad (hname ▸ h.superclass _ hsuper)
  refine ⟨reached_misnamed, misnamed_classes, hsuper, hname, hbad, fun h => hnot h.2, fun l' w' hok => ?_⟩
  have hwell := (Snapshot.restore_accepts _ (misnamed.snapshot ⟨0⟩) .empty).of_ok hok
  have hall := (reached_misnamed.sound.wellFormed_iff misnamed_defined).mp hwell.1 ⟨10⟩ (by
    rw [misnamed_classes]
    exact List.mem_singleton_self _)
  exact hnot (reached_misnamed.sound.checked_iff.mpr hall.2)

end World

end ClassModel
