import ClassModel.Proofs.Graph.Assignability
import ClassModel.Proofs.Graph.Housing
import ClassModel.Proofs.Snapshot.Queries

/-!
# Primitive types and void

The subtype test goes by the kinds of the classes where one is a primitive type or void. A loader that asks
nobody has classes of these kinds under the names that go with them and nowhere else, so each matches itself
alone. But the settings may call the root by such a name, and then the root is all that there is under it.
-/

namespace ClassModel

open Name Relation

/-- The names of types whose values are no objects. -/
def IsValueName (name : String) : Prop := name ∈ primitiveNames ∨ name = voidName

instance (name : String) : Decidable (IsValueName name) := inferInstanceAs (Decidable (_ ∨ _))

theorem isBuiltinName_of_isValueName {settings : Settings} {name : String} (h : IsValueName name) :
    Loader.IsBuiltinName settings name := h.imp_right .inl

/-- Under its own name the root displaces whatever else would be provided. -/
theorem isValueType_of_mem_builtinKinds {n : ClassNode} {settings : Settings} {name : String}
    (h : (name, n.kind) ∈ Loader.builtinKinds settings) :
    n.isValueType ↔ IsValueName name ∧ name ≠ settings.rootClass := by
  have hbuiltin : Loader.IsBuiltinName settings name := Loader.isBuiltinName_iff.mpr ⟨_, h⟩
  unfold ClassNode.isValueType
  rw [Loader.kind_of_mem_builtinKinds h]
  by_cases hroot : name = settings.rootClass
  · simp [hroot]
  · have hvalue : IsValueName name := hbuiltin.imp_right fun h => h.resolve_right hroot
    rw [if_neg hroot]
    split <;> simp [hroot, hvalue]

namespace World

structure TrueToName (w : World) (l : LoaderId) (c : ClassId) : Prop where
  value : (w.node c).isValueType ↔ IsValueName (w.nameOf c) ∧ w.nameOf c ≠ (w.loader l).settings.rootClass
  object : (w.node c).isObjectType ↔ w.nameOf c = (w.loader l).settings.rootClass

section
variable {w : World} {l : LoaderId} {name : String} {c d : ClassId}

theorem Housed.trueToName (h : w.Housed l name c) (hname : w.nameOf c = name)
    (hkind : w.Editable c ∧ ¬ Loader.IsBuiltinName (w.loader l).settings name ∨
      (name, (w.node c).kind) ∈ Loader.builtinKinds (w.loader l).settings) : w.TrueToName l c where
  value := by
    rw [hname]
    rcases hkind with ⟨hc, hnot⟩ | hkind
    · have hplain : (w.node c).isValueType = false := by simp [ClassNode.isValueType, show _ = _ from hc]
      simp only [hplain, Bool.false_eq_true, false_iff, not_and]
      exact fun hv => (hnot (isBuiltinName_of_isValueName hv)).elim
    · exact isValueType_of_mem_builtinKinds hkind
  object := by
    unfold ClassNode.isObjectType
    rw [h.settings, beq_iff_eq]
    rfl

theorem Run.trueToName (hw : Run .empty w) (hs : (w.loader l).sources = [])
    (hc : c ∈ (w.loader l).builtins.values ++ (w.loader l).classes.values) : w.TrueToName l c := by
  obtain ⟨ho, -⟩ := hw.enclosed
  obtain ⟨made, hsound⟩ := ho.sound
  rcases List.mem_append.mp hc with hc | hc <;> obtain ⟨name, hc⟩ := Registry.mem_values.mp hc
  · have hh := hsound.housed_builtin hc
    obtain ⟨-, kind, hkind, hnode⟩ := ((hsound.loaders l).provides (lt_of_mem_builtins hc)).node _ hc
    have hname := Loader.isClassName_of_builtin (hsound.loaders l).settings (Loader.isBuiltinName_iff.mpr ⟨kind, hkind⟩)
    refine hh.trueToName (hh.nameOf.trans (qualify_packageOf_simpleNameOf hname)) (.inr ?_)
    rwa [hnode]
  · obtain ⟨hh, hname, hnot⟩ := (ho.houses l hs).classes _ hc
    have hnameOf := hh.nameOf.trans (qualify_packageOf_simpleNameOf hname)
    refine hh.trueToName hnameOf (.inl ⟨?_, hnot⟩)
    refine (hw.kind c).resolve_right fun hkind => hnot (Loader.isBuiltinName_iff.mpr ⟨(w.node c).kind, ?_⟩)
    rwa [hnameOf, hh.settings] at hkind

/-! ## The test -/

/-- Above a class into which nothing has been put there is nothing to search. -/
theorem reachesWithin_of_plain (h : (w.node c).Plain) (target : String) (depth : Nat) :
    reachesWithin target (depth + 1) c w = some (decide (w.nameOf c = target), w) := by
  have hinterfaces : Bounded.of c.interfaces w = some ([], w) := by
    show some (RefId.resolveAll (w.node c).interfaceRefs w) = _
    rw [show (w.node c).interfaceRefs = [] by simp [ClassNode.interfaceRefs, h.interfaces]]
    rfl
  have hsuperclass : Bounded.of c.superclass w = some (none, w) := by
    show some (c.superclass w) = _
    rw [superclass_run, show (w.node c).superclassRef = none by simp [ClassNode.superclassRef, h.superclass]]
    rfl
  unfold reachesWithin
  rw [Bounded.bind_run, show Bounded.see (·.nameOf c) w = some (w.nameOf c, w) from rfl, Option.bind_some]
  by_cases hname : w.nameOf c = target
  · rw [if_pos hname, decide_eq_true hname]
    rfl
  · rw [if_neg hname, decide_eq_false hname, Bounded.bind_run, hinterfaces, Option.bind_some, Bounded.bind_run]
    show (Bounded.of c.superclass >>= _) w = _
    rw [Bounded.bind_run, hsuperclass]
    rfl

def Decides (w : World) (target other : ClassId) (b : Bool) : Prop :=
  w.Ends target other b ∧ target.isAssignableFrom other w = (b, w)

theorem decides_of_atOnce {b : Bool} (h : w.assignableAtOnce? c d = some b) : w.Decides c d b :=
  ⟨.inl h, by rw [isAssignableFrom_run, h]⟩

theorem decides_of_value (h : (w.node c).isValueType ∨ (w.node d).isValueType) :
    w.Decides c d (decide (w.nameOf c = w.nameOf d)) :=
  decides_of_atOnce (by simp only [assignableAtOnce?, Bool.or_eq_true, h, if_true]; rfl)

theorem decides_of_plain (h : w.assignableAtOnce? c d = none) (hd : (w.node d).Plain) :
    w.Decides c d (decide (w.nameOf d = w.nameOf c)) := by
  refine ⟨.inr ⟨h, 1, w, reachesWithin_of_plain hd _ 0⟩, ?_⟩
  rw [isAssignableFrom_run, h]
  dsimp only
  rw [show w.walkBound = w.walkBound - 1 + 1 from rfl, reachesWithin_of_plain hd]
  rfl

/-- Under such a name there is nothing else but the root. -/
theorem TrueToName.root (hc : w.TrueToName l c) (hname : IsValueName (w.nameOf c)) (hvalue : ¬ (w.node c).isValueType) :
    w.nameOf c = (w.loader l).settings.rootClass := by
  by_contra hne
  exact hvalue (hc.value.mpr ⟨hname, hne⟩)

/-- What a class of such a name takes. -/
theorem TrueToName.takes (hc : w.TrueToName l c) (hd : w.TrueToName l d) (hname : IsValueName (w.nameOf c)) :
    w.Decides c d (decide (w.nameOf d = w.nameOf c ∨
      w.nameOf c = (w.loader l).settings.rootClass ∧ ¬ IsValueName (w.nameOf d))) := by
  by_cases hvalue : (w.node c).isValueType ∨ (w.node d).isValueType
  · have hiff : w.nameOf c = w.nameOf d ↔ w.nameOf d = w.nameOf c ∨
        w.nameOf c = (w.loader l).settings.rootClass ∧ ¬ IsValueName (w.nameOf d) := by
      -- One of the two is not called like the root.
      rw [hc.value, hd.value] at hvalue
      refine ⟨fun h => .inl h.symm, fun h => (h.resolve_right fun ⟨hroot, hnot⟩ => ?_).symm⟩
      rcases hvalue with ⟨-, hne⟩ | ⟨hv, -⟩
      · exact hne hroot
      · exact hnot hv
    rw [← decide_eq_decide.mpr hiff]
    exact decides_of_value hvalue
  · obtain ⟨hcv, hdv⟩ := not_or.mp hvalue
    have hroot := hc.root hname hcv
    rw [decide_eq_true]
    · exact decides_of_atOnce (by simp [assignableAtOnce?, hcv, hdv, hc.object.mpr hroot])
    · by_contra h
      obtain ⟨hne, hv⟩ := not_or.mp h
      exact hdv (hd.value.mpr ⟨Decidable.byContradiction fun hnot => hv ⟨hroot, hnot⟩, by rwa [← hroot]⟩)

/-- What takes a class of such a name. -/
theorem TrueToName.taken (hc : w.TrueToName l c) (hd : w.TrueToName l d) (hname : IsValueName (w.nameOf c))
    (hplain : (w.node c).Plain) : w.Decides d c (decide (w.nameOf d = w.nameOf c)) := by
  by_cases hvalue : (w.node d).isValueType ∨ (w.node c).isValueType
  · exact decides_of_value hvalue
  · obtain ⟨hdv, hcv⟩ := not_or.mp hvalue
    have hroot := hc.root hname hcv
    by_cases hobject : (w.node d).isObjectType
    · rw [decide_eq_true ((hd.object.mp hobject).trans hroot.symm)]
      exact decides_of_atOnce (by simp [assignableAtOnce?, hcv, hdv, hobject])
    · rw [decide_eq_decide.mpr eq_comm]
      exact decides_of_plain (by simp [assignableAtOnce?, hcv, hdv, hobject]) hplain

end

/-- A primitive type or void takes itself alone and is taken by itself alone. If the root goes by its name, then there
is the root in its place, which takes all classes but the other primitive types and void. -/
theorem value_types_match {w : World} (hw : Run .empty w) {l : LoaderId} (hl : l.index < w.loaders.size)
    (hs : (w.loader l).sources = []) {name : String} (hname : IsValueName name) :
    ∃ c, Loader.load l name w = (c, w) ∧ ∀ d ∈ (w.loader l).builtins.values ++ (w.loader l).classes.values,
      w.Decides c d (decide (w.nameOf d = name ∨
        name = (w.loader l).settings.rootClass ∧ ¬ IsValueName (w.nameOf d))) ∧
      w.Decides d c (decide (w.nameOf d = name)) := by
  obtain ⟨made, hsound⟩ := Run.sound hw soundEmpty
  obtain ⟨hfound, hall⟩ := provided ((hsound.loaders l).provides hl) rfl
  obtain ⟨c, hc⟩ := hall (isBuiltinName_of_isValueName hname)
  obtain ⟨-, -, kind, hkind, hnode⟩ := hfound hc
  have hmem : c ∈ (w.loader l).builtins.values := Registry.mem_values.mpr ⟨name, Registry.mem_of_get? hc⟩
  have htrue := hw.trueToName hs (List.mem_append_left _ hmem)
  have hplain : (w.node c).Plain := by rw [hnode]; exact ⟨rfl, rfl, rfl, rfl⟩
  have hnameOf : w.nameOf c = name := by
    have hclass := Loader.isClassName_of_builtin (hsound.loaders l).settings (isBuiltinName_of_isValueName hname)
    exact (congrArg ClassNode.qualifiedName hnode).trans (qualify_packageOf_simpleNameOf hclass)
  refine ⟨c, load_of_cached (cached?_of_builtin hc), fun d hd => ?_⟩
  subst hnameOf
  exact ⟨htrue.takes (hw.trueToName hs hd) hname, htrue.taken (hw.trueToName hs hd) hname hplain⟩

def numeric : World := changed [.define ⟨0⟩ "p" "A" [], .edit (.onClass ⟨10⟩ (.setSuperclass "int"))]

theorem numeric_value_types_match : Run .empty numeric ∧ (⟨10⟩ : ClassId) ∈ (numeric.loader ⟨0⟩).classes.values ∧
    (ClassId.superclass ⟨10⟩ numeric).1 = some (Loader.load ⟨0⟩ "int" numeric).1 ∧
    numeric.Decides (Loader.load ⟨0⟩ "int" numeric).1 ⟨10⟩ false ∧
    numeric.Decides ⟨10⟩ (Loader.load ⟨0⟩ "int" numeric).1 false := by
  have hclass : (⟨10⟩ : ClassId) ∈ (numeric.loader ⟨0⟩).classes.values := by decide +kernel
  have hint : IsValueName "int" := by decide
  obtain ⟨c, hload, hall⟩ := value_types_match (run_changed _) (l := ⟨0⟩) (w := numeric) (by decide +kernel)
    (List.isEmpty_iff.mp (by decide +kernel)) hint
  obtain ⟨htakes, htaken⟩ := hall ⟨10⟩ (List.mem_append_right _ hclass)
  rw [decide_eq_false (by decide +kernel)] at htakes htaken
  rw [hload]
  refine ⟨run_changed _, hclass, ?_, htakes, htaken⟩
  rw [← congrArg Prod.fst hload]
  decide +kernel

def intRooted : World :=
  ((Mutation.define ⟨0⟩ "p" "A" []).run (Loader.make { Settings.standard with rootClass := "int" } [] .empty).2).2

/-- The settings are accepted, and no class is its own supertype. Yet what is loaded under the name of the primitive
type takes a class that does not go by this name. -/
theorem intRooted_takes_object : Run .empty intRooted ∧ intRooted.Solitary ⟨0⟩ ∧
    (∀ c, ¬ TransGen intRooted.Supertype c c) ∧ "int" ∈ primitiveNames ∧
    (⟨9⟩ : ClassId) ∈ (intRooted.loader ⟨0⟩).classes.values ∧ intRooted.nameOf ⟨9⟩ = "p.A" ∧
    ∃ c, Loader.load ⟨0⟩ "int" intRooted = (c, intRooted) ∧ intRooted.Decides c ⟨9⟩ true := by
  have hlayered : intRooted.Solitary ⟨0⟩ ∧ intRooted.Layered := by decide +kernel
  have hcached : (intRooted.loader ⟨0⟩).cached? "int" = some ⟨8⟩ := by decide +kernel
  exact ⟨.tail (.tail .refl (.makeLoader _ _ [])) (.mutate _ _), hlayered.1, hlayered.2.acyclic, by decide,
    by decide +kernel, by decide +kernel, ⟨8⟩, load_of_cached hcached, decides_of_atOnce (by decide +kernel)⟩

end World

end ClassModel
