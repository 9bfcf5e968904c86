import ClassModel.Proofs.Snapshot.RoundTrip

/-!
# What a snapshot does not hold

A class that is marked as unresolved shows its flags alone, and a snapshot holds what classes show. What the
mark hides comes to light again once the mark is taken away, but not in a loader that has been restored in the
meantime: there the class has lost its supertypes and members, and nothing else is different.
-/

namespace ClassModel

open Change Name

namespace ClassSnapshot

def bare (x : ClassSnapshot) : ClassSnapshot :=
  { x with superclass := none, interfaces := [], fields := [], methods := [], constructors := [] }

def unmarked (x : ClassSnapshot) : ClassSnapshot := { x with isUnresolved := false }

def ifNamed (name : String) (change : ClassSnapshot → ClassSnapshot) (x : ClassSnapshot) : ClassSnapshot :=
  if x.qualifiedName = name then change x else x

theorem qualifiedName_shown (x : ClassSnapshot) : x.shown.qualifiedName = x.qualifiedName := by
  unfold shown
  split <;> rfl

theorem shown_unmarked (x : ClassSnapshot) : x.unmarked.shown = x.unmarked := rfl

theorem shown_of_marked {x : ClassSnapshot} (h : x.isUnresolved = true) : x.shown = x.bare := if_pos h

/-- What has been shown of a class that is marked comes out bare once the mark is taken away. -/
theorem unmarked_shown {x : ClassSnapshot} {name : String} (h : x.qualifiedName = name → x.isUnresolved = true) :
    (ifNamed name unmarked x.shown).shown = ifNamed name bare (ifNamed name unmarked x).shown := by
  unfold ifNamed
  by_cases hx : x.qualifiedName = name
  · have hbare : x.bare.qualifiedName = name := hx
    have hunmarked : x.unmarked.qualifiedName = name := hx
    rw [shown_of_marked (h hx), if_pos hbare, if_pos hx, shown_unmarked, shown_unmarked, if_pos hunmarked]
    rfl
  · rw [if_neg (by rwa [qualifiedName_shown]), if_neg hx, if_neg (by rwa [qualifiedName_shown]), World.shown_shown]

theorem bare_eq_iff (x : ClassSnapshot) : x.bare = x ↔
    x.superclass = none ∧ x.interfaces = [] ∧ x.fields = [] ∧ x.methods = [] ∧ x.constructors = [] := by
  cases x
  simp [bare, eq_comm]

end ClassSnapshot

open ClassSnapshot

def Snapshot.baring (name : String) (s : Snapshot) : Snapshot := ⟨s.schemaVersion, s.classes.map (ifNamed name bare)⟩

namespace World

section
variable {w w' : World} {made : List (LoaderId × ClassId)} {l : LoaderId} {c : ClassId}

def unmark (w : World) (c : ClassId) : World := w.editNode c fun n => { n with isUnresolved := false }

theorem setUnresolved_run (h : w.Editable c) :
    (Edit.onClass c (.setUnresolved false)).apply w = (.ok .nothing, w.unmark c) :=
  (ClassEdit.update_makes c w fun n => { n with isUnresolved := false }).made h

theorem nameOf_unmark (w : World) (c d : ClassId) : (w.unmark c).nameOf d = w.nameOf d := by
  unfold unmark World.nameOf
  rw [node_editNode]
  split <;> rfl

theorem recordClass_unmark (hc : c.index < w.nodes.size) (d : ClassId) :
    (w.unmark c).recordClass d = if d = c then (w.recordClass d).unmarked else w.recordClass d := by
  -- what is captured of references and members does not show the mark
  have href : (w.unmark c).captureRef = w.captureRef := by
    funext r
    unfold captureRef
    rw [show (w.unmark c).reference r = w.reference r from rfl]
    simp only [nameOf_unmark]
  have hparameters : (w.unmark c).captureParameters = w.captureParameters := by
    funext ps
    unfold captureParameters
    rw [href]
  have hfield : (w.unmark c).captureField = w.captureField := by
    funext f
    unfold captureField
    rw [href]
    rfl
  have hmethod : (w.unmark c).captureMethod = w.captureMethod := by
    funext m
    unfold captureMethod
    rw [href, hparameters]
    rfl
  have hconstructor : (w.unmark c).captureConstructor = w.captureConstructor := by
    funext k
    unfold captureConstructor
    rw [hparameters]
    rfl
  unfold recordClass
  rw [href, hfield, hmethod, hconstructor]
  unfold unmark
  rw [node_editNode]
  by_cases hd : d = c
  · subst hd
    rw [if_pos ⟨rfl, hc⟩, if_pos rfl]
    rfl
  · rw [if_neg fun h => hd h.1.symm, if_neg hd]

theorem qualifiedName_recordClass (w : World) (c : ClassId) : (w.recordClass c).qualifiedName = w.nameOf c := rfl

theorem records_names (w : World) (l : LoaderId) :
    (w.records l).map (·.qualifiedName) = (w.loader l).classes.values.map w.nameOf := by
  unfold records
  rw [List.map_map]
  rfl

theorem names_shown (xs : List ClassSnapshot) :
    (xs.map (·.shown)).map (·.qualifiedName) = xs.map (·.qualifiedName) := by
  rw [List.map_map]
  exact List.map_congr_left fun x _ => qualifiedName_shown x

structure Lone (w : World) (l : LoaderId) (c : ClassId) : Prop where
  lt : c.index < w.nodes.size
  mem : c ∈ (w.loader l).classes.values
  names : ((w.loader l).classes.values.map w.nameOf).Nodup

theorem Lone.eq (h : w.Lone l c) {d : ClassId} (hd : d ∈ (w.loader l).classes.values)
    (hname : w.nameOf d = w.nameOf c) : d = c := List.inj_on_of_nodup_map h.names hd h.mem hname

theorem Lone.records_unmark (h : w.Lone l c) :
    (w.unmark c).records l = (w.records l).map (ifNamed (w.nameOf c) unmarked) := by
  unfold records
  rw [List.map_map]
  refine List.map_congr_left fun d hmem => ?_
  rw [recordClass_unmark h.lt]
  show _ = if w.nameOf d = w.nameOf c then _ else _
  by_cases hd : d = c
  · rw [if_pos hd, if_pos (by rw [hd])]
  · rw [if_neg hd, if_neg fun hname => hd (h.eq hmem hname)]

/-- In the loader that holds what has been shown of another, the class whose mark is taken away is bare. -/
theorem Lone.snapshot_unmark {l' : LoaderId} {c' : ClassId} (h : w.Lone l c) (h' : w'.Lone l' c')
    (hname : w'.nameOf c' = w.nameOf c) (hmark : (w.node c).isUnresolved = true)
    (hrecords : w'.records l' = (w.records l).map (·.shown)) :
    (w'.unmark c').snapshot l' = ((w.unmark c).snapshot l).baring (w.nameOf c) := by
  have hpoint (x : ClassSnapshot) (hx : x ∈ w.records l) : (ifNamed (w.nameOf c) unmarked x.shown).shown =
      ifNamed (w.nameOf c) bare (ifNamed (w.nameOf c) unmarked x).shown := by
    refine unmarked_shown fun hxname => ?_
    obtain ⟨d, hmem, rfl⟩ := List.mem_map.mp hx
    rw [qualifiedName_recordClass] at hxname
    rw [h.eq hmem hxname]
    exact hmark
  rw [snapshot_eq, snapshot_eq, h'.records_unmark, h.records_unmark, hname, hrecords, Snapshot.baring]
  simp only [List.map_map]
  refine congrArg (Snapshot.mk _) (List.map_congr_left fun x hx => ?_)
  simp only [Function.comp_apply]
  exact hpoint x hx

/-- Nothing is missing exactly if the class has recorded neither supertypes nor members. -/
theorem Lone.baring_eq_iff (h : w.Lone l c) :
    ((w.unmark c).snapshot l).baring (w.nameOf c) = (w.unmark c).snapshot l ↔
      (w.node c).superclass = none ∧ (w.node c).interfaces = [] ∧ (w.node c).fields = [] ∧
        (w.node c).methods = [] ∧ (w.node c).constructors = [] := by
  have hbare : (w.recordClass c).unmarked.bare = (w.recordClass c).unmarked ↔
      (w.node c).superclass = none ∧ (w.node c).interfaces = [] ∧ (w.node c).fields = [] ∧
        (w.node c).methods = [] ∧ (w.node c).constructors = [] := by
    rw [bare_eq_iff]
    simp [unmarked, recordClass]
  have hshown : ((w.unmark c).snapshot l).classes =
      (w.loader l).classes.values.map fun d => ((w.unmark c).recordClass d).shown := by
    rw [snapshot_eq, records, List.map_map]
    rfl
  have hbared : (((w.unmark c).snapshot l).baring (w.nameOf c)).classes =
      (w.loader l).classes.values.map fun d => ifNamed (w.nameOf c) bare ((w.unmark c).recordClass d).shown := by
    show ((w.unmark c).snapshot l).classes.map _ = _
    rw [hshown, List.map_map]
    rfl
  have hself : ((w.unmark c).recordClass c).shown = (w.recordClass c).unmarked := by
    rw [recordClass_unmark h.lt, if_pos rfl, shown_unmarked]
  have hname (d : ClassId) : ((w.unmark c).recordClass d).shown.qualifiedName = w.nameOf d := by
    rw [qualifiedName_shown, qualifiedName_recordClass, nameOf_unmark]
  have heach : ((w.unmark c).snapshot l).baring (w.nameOf c) = (w.unmark c).snapshot l ↔
      ∀ d ∈ (w.loader l).classes.values, ifNamed (w.nameOf c) bare ((w.unmark c).recordClass d).shown =
        ((w.unmark c).recordClass d).shown := by
    rw [← List.map_inj_left, ← hshown, ← hbared]
    exact ⟨fun he => congrArg Snapshot.classes he, fun he => congrArg (Snapshot.mk _) he⟩
  rw [← hbare, heach]
  -- baring leaves every record but that of `c` alone, since no other class of the loader has its name
  constructor
  · intro hall
    have hc := hall c h.mem
    rwa [ifNamed, if_pos (hname c), hself] at hc
  · intro hc d hd
    by_cases hdc : d = c
    · subst hdc
      rw [ifNamed, if_pos (hname d), hself, hc]
    · rw [ifNamed, hname, if_neg fun he => hdc (h.eq hd he)]

end

/-- A class that is marked as unresolved is restored without what the mark hides. Once the mark is taken away in
both loaders, the class has its superclass, interfaces, fields, methods and constructors in the one and none of them
in the other; all else is the same, so the snapshots are equal only if there are none. -/
theorem unmarked_after_restoring {w : World} {made : List (LoaderId × ClassId)} {l : LoaderId} {c : ClassId}
    (hw : Reached w made) (hp : w.Portable made l) (hc : c ∈ (w.loader l).classes.values)
    (hmark : (w.node c).isUnresolved = true) (w₀ : World) :
    ∃ l' w' c' v v', Snapshot.restore (w.loader l).settings (w.snapshot l) w₀ = (.ok l', w') ∧
      (w'.loader l').classes.get? (w.nameOf c) = some c' ∧
      (Edit.onClass c (.setUnresolved false)).apply w = (.ok .nothing, v) ∧
      (Edit.onClass c' (.setUnresolved false)).apply w' = (.ok .nothing, v') ∧
      v'.snapshot l' = (v.snapshot l).baring (w.nameOf c) ∧
      (v'.snapshot l' = v.snapshot l ↔ (w.node c).superclass = none ∧ (w.node c).interfaces = [] ∧
        (w.node c).fields = [] ∧ (w.node c).methods = [] ∧ (w.node c).constructors = []) := by
  have hsound := hw.sound
  have hdefined := hsound.made _ (hp.defined c hc)
  obtain ⟨l', w', h, pairs, hr⟩ :=
    (Snapshot.restore_accepts (w.loader l).settings (w.snapshot l) w₀).1 (hp.wellFormed hsound)
  obtain ⟨⟨x, c'⟩, hpair, hx⟩ : ∃ p ∈ pairs, p.1 = w.captureClass c := by
    rw [← List.mem_map, hr.snapshots]
    exact List.mem_map_of_mem hc
  obtain rfl : x = w.captureClass c := hx
  have hbuilt := hr.built _ hpair
  have hmem' : (w.nameOf c, c') ∈ (w'.loader l').classes :=
    hr.classes.mem_iff.mpr (List.mem_map.mpr ⟨_, hpair, rfl⟩)
  have hrecords : w'.records l' = (w.records l).map (·.shown) := by
    rw [hr.records, hp.records hsound, snapshot_eq]
  have hnames : ((w.loader l).classes.values.map w.nameOf).Nodup := by
    have hdistinct := (hp.wellFormed hsound).distinct
    rwa [snapshot_eq, names_shown, records_names] at hdistinct
  have hlone : w.Lone l c := ⟨hdefined.lt, hc, hnames⟩
  have hlone' : w'.Lone l' c' := by
    refine ⟨hbuilt.lt, Registry.mem_values.mpr ⟨_, hmem'⟩, ?_⟩
    rwa [← records_names, hrecords, names_shown, records_names]
  have hsnapshot := hlone.snapshot_unmark hlone' (congrArg ClassSnapshot.qualifiedName hbuilt.record) hmark hrecords
  refine ⟨l', w', c', _, _, h, Registry.get?_of_mem hr.sorted hmem', setUnresolved_run hdefined.kind,
    setUnresolved_run hbuilt.kind, hsnapshot, ?_⟩
  rw [hsnapshot]
  exact hlone.baring_eq_iff

def veiled : World :=
  ((Edit.onClass ⟨10⟩ (.setUnresolved true)).apply ((Edit.onClass ⟨10⟩ .addField).apply
    ((Edit.onClass ⟨10⟩ (.setSuperclass "p.B")).apply (Loader.define ⟨0⟩ "p" "A" [] single).2).2).2).2

theorem reached_veiled : Reached veiled [(⟨0⟩, ⟨10⟩)] :=
  (((reached_single.define (c := ⟨10⟩) (by decide +kernel) (by decide +kernel) (by decide +kernel)).edit
    (a := .nothing) (by decide +kernel)).edit (a := .field ⟨0⟩) (by decide +kernel)).edit
    (a := .nothing) (by decide +kernel)

theorem veiled_classes : (veiled.loader ⟨0⟩).classes.values = [⟨10⟩] := by decide +kernel

theorem portable_veiled : veiled.Portable [(⟨0⟩, ⟨10⟩)] ⟨0⟩ := by
  have himports : (veiled.node ⟨10⟩).imports = [] := by decide +kernel
  have hreferences : veiled.shownReferences ⟨10⟩ = [] := by decide +kernel
  refine ⟨fun c hc => ?_, fun c hc i hi => ?_, fun c hc r hr d hd => ?_⟩ <;>
    (rw [veiled_classes] at hc; cases List.mem_singleton.mp hc)
  · exact List.mem_singleton_self _
  · rw [himports] at hi
    cases hi
  · rw [hreferences] at hr
    cases hr

theorem veiled_mem : (⟨10⟩ : ClassId) ∈ (veiled.loader ⟨0⟩).classes.values := by
  rw [veiled_classes]
  exact List.mem_singleton_self _

theorem veiled_unmarked : Reached veiled [(⟨0⟩, ⟨10⟩)] ∧ veiled.Portable [(⟨0⟩, ⟨10⟩)] ⟨0⟩ ∧
    (veiled.node ⟨10⟩).isUnresolved = true ∧
    ∃ l' w' c' v v', Snapshot.restore (veiled.loader ⟨0⟩).settings (veiled.snapshot ⟨0⟩) .empty = (.ok l', w') ∧
      (w'.loader l').classes.get? "p.A" = some c' ∧
      (Edit.onClass ⟨10⟩ (.setUnresolved false)).apply veiled = (.ok .nothing, v) ∧
      (Edit.onClass c' (.setUnresolved false)).apply w' = (.ok .nothing, v') ∧
      v'.snapshot l' = (v.snapshot ⟨0⟩).baring "p.A" := by
  have hmark : (veiled.node ⟨10⟩).isUnresolved = true := by decide +kernel
  have hname : veiled.nameOf ⟨10⟩ = "p.A" := by decide +kernel
  obtain ⟨l', w', c', v, v', hrestore, hget, hfirst, hsecond, hbare, -⟩ :=
    unmarked_after_restoring reached_veiled portable_veiled veiled_mem hmark .empty
  rw [hname] at hget hbare
  exact ⟨reached_veiled, portable_veiled, hmark, l', w', c', v, v', hrestore, hget, hfirst, hsecond, hbare⟩

def veiledRestored : World := (Snapshot.restore (veiled.loader ⟨0⟩).settings (veiled.snapshot ⟨0⟩) veiled).2

def unveiled : World := ((Edit.onClass ⟨10⟩ (.setUnresolved false)).apply veiled).2

def unveiledRestored : World := ((Edit.onClass ⟨21⟩ (.setUnresolved false)).apply veiledRestored).2

/-- Without the mark the class has its superclass and its field, and the restored one has neither. -/
theorem veiled_loses_structure : Reached veiled [(⟨0⟩, ⟨10⟩)] ∧ veiled.Portable [(⟨0⟩, ⟨10⟩)] ⟨0⟩ ∧
    ⟨10⟩ ∈ (veiled.loader ⟨0⟩).classes.values ∧ (veiled.node ⟨10⟩).isUnresolved = true ∧
    Snapshot.restore (veiled.loader ⟨0⟩).settings (veiled.snapshot ⟨0⟩) veiled = (.ok ⟨1⟩, veiledRestored) ∧
    (veiledRestored.loader ⟨1⟩).classes.get? (veiled.nameOf ⟨10⟩) = some ⟨21⟩ ∧
    (Edit.onClass ⟨10⟩ (.setUnresolved false)).apply veiled = (.ok .nothing, unveiled) ∧
    (Edit.onClass ⟨21⟩ (.setUnresolved false)).apply veiledRestored = (.ok .nothing, unveiledRestored) ∧
    unveiledRestored.snapshot ⟨1⟩ ≠ unveiled.snapshot ⟨0⟩ := by
  have hrestore : (Snapshot.restore (veiled.loader ⟨0⟩).settings (veiled.snapshot ⟨0⟩) veiled).1 = .ok ⟨1⟩ := by
    decide +kernel
  have hfirst : ((Edit.onClass ⟨10⟩ (.setUnresolved false)).apply veiled).1 = .ok .nothing := by decide +kernel
  have hsecond : ((Edit.onClass ⟨21⟩ (.setUnresolved false)).apply veiledRestored).1 = .ok .nothing := by
    decide +kernel
  exact ⟨reached_veiled, portable_veiled, veiled_mem, by decide +kernel, run_of_ok hrestore, by decide +kernel,
    run_of_ok hfirst, run_of_ok hsecond, by decide +kernel⟩

end World

end ClassModel
