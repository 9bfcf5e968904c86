import ClassModel.Proofs.Graph.Acts
import ClassModel.Proofs.Snapshot.Mirrors
import ClassModel.Proofs.Snapshot.RoundTrip

/-!
# Restored loaders answer as before

A loader that refers to nothing outside itself mirrors the loader that is restored from its snapshot:
direct references have become names, what had been resolved is resolved anew and stand-ins are made
again, but subtype tests, inherited members and the names of types come out the same.
-/

namespace ClassModel

open Relation

namespace World

def forget (w : World) (r : RefId) : World := w.editReference r fun x => { x with memo := none }

/-- Loader `l` has no sources and holds only what it has defined with imports that come from texts,
its classes refer directly only to each other and to builtins, and no class is above itself. Nobody
has changed its stand-ins, and what has been resolved would be resolved to the same class again. -/
structure SelfContained (w : World) (made : List (LoaderId × ClassId)) (l : LoaderId) : Prop where
  lt : l.index < w.loaders.size
  alive : w.isAlive (.loader l)
  sources : (w.loader l).sources = []
  defined : ∀ c ∈ (w.loader l).classes.values, (l, c) ∈ made
  imports : ∀ c ∈ (w.loader l).classes.values, ∀ i ∈ (w.node c).imports, ∃ t, Import.parse t = .ok i
  direct : ∀ c ∈ (w.loader l).classes.values, ∀ r ∈ w.shownReferences c, ∀ d, (w.reference r).target = .direct d →
    d ∈ (w.loader l).builtins.values ∨ d ∈ (w.loader l).classes.values
  acyclic : ∀ c ∈ (w.loader l).classes.values, ¬ TransGen w.Supertype c c
  standIns : ∀ e ∈ (w.loader l).placeholders,
    w.node e.2 = Loader.standIn e.1 (some (.loader l)) (w.loader l).settings
  fresh : ∀ c ∈ (w.loader l).classes.values, ∀ r ∈ w.shownReferences c, ∀ d, (w.reference r).known? = some d →
    d.index < w.nodes.size ∧ (r.resolve (w.forget r)).1 = d

/-! ## Builtins -/

section
variable {w w' : World} {l l' : LoaderId} {settings : Settings} {name : String} {kind : TypeKind} {c c' : ClassId}

theorem shownReferences_builtin (h : w.node c = Loader.builtinNode l settings name kind) :
    w.shownReferences c = [] := by
  unfold shownReferences
  simp only [h]; rfl

theorem Resident.ofBuiltin (hlt : c.index < w.nodes.size) (hn : w.node c = Loader.builtinNode l settings name kind)
    (hname : Name.IsClassName name) (halive : w.isAlive (.node c)) : w.Resident l name c where
  lt := hlt
  name := by
    unfold World.nameOf
    rw [hn]; exact Name.qualify_packageOf_simpleNameOf hname
  lookup := by rw [hn]; rfl
  present := halive
  written r hr := by rw [shownReferences_builtin hn] at hr; cases hr
  owners kind m hm := by
    unfold declared at hm
    simp only [hn] at hm
    cases kind <;> cases hm

theorem Twins.ofBuiltins (hn : w.node c = Loader.builtinNode l settings name kind)
    (hn' : w'.node c' = Loader.builtinNode l' settings name kind) : w.Twins w' c c' where
  shown := by
    unfold captureClass
    simp only [hn, hn']; rfl
  kind := by rw [hn, hn']; rfl
  imports := by rw [hn, hn']; rfl
  settings := by rw [hn, hn']; rfl

/-- A loader provides a class of a name exactly if the name is a builtin one. -/
theorem provided (h : Loader.Provides w l (Loader.builtinKinds settings)) (hs : (w.loader l).settings = settings) :
    (∀ {name c}, (w.loader l).builtins.get? name = some c → Loader.IsBuiltinName settings name ∧
      c.index < w.nodes.size ∧ ∃ kind, (name, kind) ∈ Loader.builtinKinds settings ∧
        w.node c = Loader.builtinNode l settings name kind) ∧
      ∀ {name}, Loader.IsBuiltinName settings name → ∃ c, (w.loader l).builtins.get? name = some c := by
  refine ⟨fun {name c} hc => ?_, fun {name} hn => ?_⟩
  · obtain ⟨hlt, kind, hk, hn⟩ := h.node _ (Registry.mem_of_get? hc)
    rw [hs] at hn
    exact ⟨Loader.isBuiltinName_iff.mpr ⟨kind, hk⟩, hlt, kind, hk, hn⟩
  · obtain ⟨kind, hk⟩ := Loader.isBuiltinName_iff.mp hn
    exact Option.isSome_iff_exists.mp (h.all _ hk)

theorem builtins_twins (h : Loader.Provides w l (Loader.builtinKinds settings))
    (h' : Loader.Provides w' l' (Loader.builtinKinds settings)) (hs : (w.loader l).settings = settings)
    (hs' : (w'.loader l').settings = settings) (name : String) :
    Option.Rel (Twins w w') ((w.loader l).builtins.get? name) ((w'.loader l').builtins.get? name) := by
  obtain ⟨hfound, hall⟩ := provided h hs
  obtain ⟨hfound', hall'⟩ := provided h' hs'
  cases hc : (w.loader l).builtins.get? name with
  | none =>
    cases hc' : (w'.loader l').builtins.get? name with
    | none => exact .none
    | some c' =>
      obtain ⟨c, hc'⟩ := hall (hfound' hc').1
      rw [hc] at hc'; cases hc'
  | some c =>
    obtain ⟨hname, -, kind, hk, hn⟩ := hfound hc
    obtain ⟨c', hc'⟩ := hall' hname
    obtain ⟨-, -, kind', hk', hn'⟩ := hfound' hc'
    have hkind : kind = kind' :=
      (Loader.kind_of_mem_builtinKinds hk).trans (Loader.kind_of_mem_builtinKinds hk').symm
    subst hkind
    rw [hc']
    exact .some (.ofBuiltins hn hn')

/-- It is enough to look at the classes that the loader has defined. -/
theorem Standing.ofProvides (h : Loader.Provides w l (Loader.builtinKinds settings))
    (hs : (w.loader l).settings = settings) (hsound : settings.Sound) (sources : (w.loader l).sources = [])
    (alive : w.isAlive (.loader l)) (sorted : (w.loader l).classes.Sorted)
    (hbuiltins : ∀ e ∈ (w.loader l).builtins, w.isAlive (.node e.2))
    (hnames : ∀ e ∈ (w.loader l).classes, ¬ Loader.IsBuiltinName settings e.1)
    (hclasses : ∀ e ∈ (w.loader l).classes, w.Resident l e.1 e.2) : w.Standing l where
  sources := sources
  alive := alive
  sorted := sorted
  listed e he := by
    have hnone : (w.loader l).builtins.get? e.1 = none := by
      cases hb : (w.loader l).builtins.get? e.1 with
      | none => rfl
      | some c => exact (hnames e he ((provided h hs).1 hb).1).elim
    unfold Loader.cached?
    rw [hnone, Registry.get?_of_mem sorted he]; rfl
  resident {name c} hc := by
    rcases Option.or_eq_some_iff.mp hc with hb | ⟨-, hc⟩
    · obtain ⟨hname, hlt, kind, hk, hn⟩ := (provided h hs).1 hb
      exact .ofBuiltin hlt hn (Loader.isClassName_of_builtin hsound hname) (hbuiltins _ (Registry.mem_of_get? hb))
    · exact hclasses _ (Registry.mem_of_get? hc)
  topmost {name c} hc := by
    obtain ⟨-, -, kind, -, hn⟩ := (provided h hs).1 hc
    exact shownReferences_builtin hn

/-! ## The loader as it is -/

variable {made : List (LoaderId × ClassId)}

theorem SelfContained.standing (hl : w.SelfContained made l) (h : w.Sound made) : w.Standing l := by
  have hsl := h.loaders l
  have halive : .loader l ∉ w.gone := by
    have := hl.alive
    simpa [isAlive] using this
  have hheld {c : ClassId} (hc : c ∈ (w.loader l).held) : w.isAlive (.node c) := by
    simpa [isAlive] using (hsl.held hl.sources c hc).2 halive
  have hmade (e) (he : e ∈ (w.loader l).classes) : (l, e.2) ∈ made :=
    hl.defined e.2 (Registry.mem_values.mpr ⟨e.1, he⟩)
  have hname (e) (he : e ∈ (w.loader l).classes) : e.1 = w.nameOf e.2 := hsl.keys e he _ (hmade e he) rfl
  refine .ofProvides (hsl.provides hl.lt) rfl hsl.settings hl.sources hl.alive hsl.sorted (fun e he => hheld ?_)
    (fun e he => ?_) fun e he => ?_
  · simp only [Loader.held, List.mem_append]
    exact .inl (.inl (Registry.mem_values.mpr ⟨e.1, he⟩))
  · rw [hname e he]
    exact (h.made _ (hmade e he)).notBuiltin
  · have hd := h.made _ (hmade e he)
    refine ⟨hd.lt, (hname e he).symm, hd.lookup, hheld ?_, fun r hr n d ht => ?_,
      fun kind m hm => h.ownerOf_declared hm⟩
    · simp only [Loader.held, List.mem_append]
      exact .inl (.inr (Registry.mem_values.mpr ⟨e.1, he⟩))
    · have hw := (h.written hr).target
      rcases ht with ht | ht <;> rw [ht] at hw <;> exact hw.1

theorem lead_forget {r : RefId} (hr : r.index < w.references.size) :
    (w.forget r).lead r = w.leadAnew (w.reference r).target := by
  have hforget : (w.forget r).reference r = { w.reference r with memo := none } := Store.get_modify_self _ _ hr
  unfold lead Reference.known?
  rw [hforget]
  cases (w.reference r).target <;> rfl

/-- What has been resolved is what would be found again. -/
theorem lead_of_fresh {r : RefId} (hr : r.index < w.references.size) (hs : w.Settles r)
    (hfresh : ∀ d, (w.reference r).known? = some d → d.index < w.nodes.size ∧ (r.resolve (w.forget r)).1 = d) :
    w.lead r = w.leadAnew (w.reference r).target := by
  cases hk : (w.reference r).known? with
  | none => exact lead_of_unknown hk
  | some d =>
    obtain ⟨hd, hresolve⟩ := hfresh d hk
    have hs' : (w.forget r).Settles r := by
      intro n c hc
      rw [show (w.forget r).reference r = { w.reference r with memo := none } from Store.get_modify_self _ _ hr] at hc
      exact hs n c hc
    have hleads := (Brings.resolve (.refl _) hs').result
    rw [hresolve, lead_forget hr] at hleads
    rw [lead_of_known hk]
    cases hl : w.leadAnew (w.reference r).target with
    | known e =>
      rw [hl] at hleads
      rw [show d = e from hleads]
    | missing n =>
      rw [hl] at hleads
      exact (Nat.not_lt.mpr hleads.1 hd).elim

theorem SelfContained.independent (hl : w.SelfContained made l) (h : w.Sound made) : w.Independent l where
  toStanding := hl.standing h
  leads {name c} hc r hr := by
    have hst := hl.standing h
    rcases Option.or_eq_some_iff.mp hc with hb | ⟨-, hclass⟩
    · rw [hst.topmost hb] at hr; cases hr
    · have hmem : c ∈ (w.loader l).classes.values := Registry.mem_values.mpr ⟨name, Registry.mem_of_get? hclass⟩
      have hw := h.written hr
      rw [lead_of_fresh hw.lt (hst.settles hc hr) (hl.fresh _ hmem r hr)]
      have htarget := hw.target
      unfold captureRef
      cases ht : (w.reference r).target with
      | direct d =>
        have hd : (w.loader l).cached? (w.nameOf d) = some d := by
          rcases hl.direct c hmem r hr d ht with hd | hd
          · obtain ⟨n, hd⟩ := Registry.mem_values.mp hd
            have hget := cached?_of_builtin (Registry.get?_of_mem ((h.loaders l).provides hl.lt).sorted hd)
            rw [(hst.resident hget).name, hget]
          · obtain ⟨n, hd⟩ := Registry.mem_values.mp hd
            have hget := hst.listed _ hd
            rw [(hst.resident hget).name, hget]
        rw [hst.writtenLead_eq hc]
        simp only [World.seek, World.found?, hd, leadAnew]
      | qualified n d =>
        rw [ht] at htarget
        obtain ⟨rfl, -⟩ := htarget
        rfl
      | unqualified n d =>
        rw [ht] at htarget
        obtain ⟨rfl, -⟩ := htarget
        rfl

theorem SelfContained.portable (hl : w.SelfContained made l) (h : w.Sound made) : w.Portable made l where
  defined := hl.defined
  imports := hl.imports
  direct c hc r hr d hd := by
    rcases hl.direct c hc r hr d hd with hd | hd
    · obtain ⟨n, hd⟩ := Registry.mem_values.mp hd
      obtain ⟨-, kind, hk, hn⟩ := ((h.loaders l).provides hl.lt).node _ hd
      refine .inl ?_
      rw [hn]
      have hne := Loader.ne_declared_of_mem_builtinKinds hk
      simpa [ClassNode.isBuiltinType, Loader.builtinNode, ClassNode.bare] using hne
    · exact .inr ⟨l, hl.defined d hd⟩

/-! ## The loader that is restored -/

/-- A reference that a restored class shows is still as it was written. -/
theorem Built.shown {x : ClassSnapshot} (h : w.Built c x) {r : RefId} (hr : r ∈ w.shownReferences c) :
    ∃ y, w.BuiltRef c y r := by
  have hparameters {xs : List ParameterSnapshot} {ps : Parameters} (hps : List.Forall₂ (w.BuiltParameter c) xs ps.list)
      (hr : r ∈ parameterTypes ps) : ∃ y, w.BuiltRef c y r := by
    obtain ⟨p, hp, rfl⟩ := List.mem_map.mp hr
    obtain ⟨y, -, hy⟩ := exists_of_mem_right hps hp
    exact ⟨y.type, hy.type⟩
  simp only [shownReferences, List.mem_append, List.mem_map, List.mem_flatMap] at hr
  rcases hr with (((hr | hr) | ⟨f, hf, rfl⟩) | ⟨m, hm, hr⟩) | ⟨k, hk, hr⟩
  · obtain ⟨y, -, hy⟩ := exists_of_mem_right h.superclass (superclassRef_subset _ hr)
    exact ⟨y, hy⟩
  · obtain ⟨y, -, hy⟩ := exists_of_mem_right h.interfaces (interfaceRefs_subset _ hr)
    exact ⟨y, hy⟩
  · obtain ⟨y, -, hy⟩ := exists_of_mem_right h.fields (declaredFields_subset _ hf)
    exact ⟨y.type, hy.type⟩
  · obtain ⟨y, -, hy⟩ := exists_of_mem_right h.methods (declaredMethods_subset _ hm)
    rcases List.mem_cons.mp hr with rfl | hr
    · exact ⟨y.returnType, hy.returnType⟩
    · exact hparameters hy.parameters hr
  · obtain ⟨y, -, hy⟩ := exists_of_mem_right h.constructors (declaredConstructors_subset _ hk)
    exact hparameters hy.parameters hr

theorem Built.resident {x y : ClassSnapshot} (h : w.Built c x) (hd : Snapshot.DefinedIn l settings y c w)
    (hname : x.qualifiedName = name) (halive : w.isAlive (.node c)) : w.Resident l name c where
  lt := h.lt
  name := h.nameOf.trans hname
  lookup := hd.lookup
  present := halive
  written r hr n d ht := by
    obtain ⟨y, hy⟩ := h.shown hr
    rw [hy.eq] at ht
    cases y <;> rcases ht with ht | ht <;> cases ht <;> rfl
  owners kind m hm := by
    unfold declared at hm
    cases kind with
    | field =>
      obtain ⟨f, hf, rfl⟩ := List.mem_map.mp hm
      obtain ⟨y, -, hy⟩ := exists_of_mem_right h.fields (declaredFields_subset _ hf)
      exact hy.owner
    | method =>
      obtain ⟨i, hi, rfl⟩ := List.mem_map.mp hm
      obtain ⟨y, -, hy⟩ := exists_of_mem_right h.methods (declaredMethods_subset _ hi)
      exact hy.owner

end

end World

namespace Snapshot

open World

variable {settings : Settings} {s : Snapshot} {l : LoaderId} {w₀ w : World} {pairs : List (ClassSnapshot × ClassId)}
  {made : List (LoaderId × ClassId)} (h : RestoredAs settings s w₀ l w pairs)
include h

theorem RestoredAs.mem_classes {name : String} {c : ClassId} :
    (name, c) ∈ (w.loader l).classes ↔ ∃ x, (x, c) ∈ pairs ∧ x.qualifiedName = name := by
  rw [h.classes.mem_iff, List.mem_map]
  constructor
  · rintro ⟨⟨x, d⟩, hp, he⟩
    cases he; exact ⟨x, hp, rfl⟩
  · rintro ⟨x, hp, rfl⟩
    exact ⟨_, hp, rfl⟩

theorem RestoredAs.isAlive (h₀ : w₀.Sound made) {c : ClassId} (hc : w₀.nodes.size ≤ c.index) : w.isAlive (.node c) := by
  have hnew : .node c ∉ w.gone := by rw [h.keeps.gone]; exact h₀.not_gone hc
  simpa [World.isAlive] using hnew

theorem RestoredAs.standing (h₀ : w₀.Sound made) (hwf : s.WellFormed settings) : w.Standing l := by
  have hnotgone : .loader l ∉ w.gone := by
    rw [h.keeps.gone]
    intro hg
    have hlt : l.index < w₀.loaders.size := h₀.gone _ hg
    rw [h.new] at hlt
    exact Nat.lt_irrefl _ hlt
  have hmem {x : ClassSnapshot} {c : ClassId} (hp : (x, c) ∈ pairs) : x ∈ s.classes := by
    rw [← h.snapshots]; exact List.mem_map_of_mem hp
  refine .ofProvides h.provides (congrArg Loader.settings h.loader) (Settings.check_ok.mp hwf.accepted)
    (congrArg Loader.sources h.loader) (by simpa [World.isAlive] using hnotgone) h.sorted (fun e he => ?_)
    (fun e he => ?_) fun e he => ?_
  · exact h.isAlive h₀ (h.fresh e (List.mem_append_left _ he))
  · obtain ⟨x, hp, hx⟩ := h.mem_classes.mp he
    rw [← hx]
    exact (hwf.definable x (hmem hp)).notBuiltin
  · obtain ⟨x, hp, hx⟩ := h.mem_classes.mp he
    exact (h.built _ hp).resident (h.definedIn _ hp) hx (h.isAlive h₀ (h.fresh e (List.mem_append_right _ he)))

theorem RestoredAs.independent (h₀ : w₀.Sound made) (hwf : s.WellFormed settings) : w.Independent l where
  toStanding := h.standing h₀ hwf
  leads {name c} hc r hr := by
    rcases Option.or_eq_some_iff.mp hc with hb | ⟨-, hclass⟩
    · rw [(h.standing h₀ hwf).topmost hb] at hr; cases hr
    · obtain ⟨x, hp, -⟩ := h.mem_classes.mp (Registry.mem_of_get? hclass)
      obtain ⟨y, hy⟩ := (h.built _ hp).shown hr
      have hunknown : (w.reference r).known? = none := by
        rw [hy.eq]
        cases y <;> rfl
      rw [lead_of_unknown hunknown, hy.capture, hy.eq]
      cases y <;> rfl

end Snapshot

namespace World

section
variable {w w₀ w' : World} {l l' : LoaderId} {made made₀ : List (LoaderId × ClassId)}
  {pairs : List (ClassSnapshot × ClassId)}

theorem parsed_unique {ts : List String} {is js : List Import}
    (h : List.Forall₂ (fun t i => Import.parse t = .ok i) ts is)
    (h' : List.Forall₂ (fun t i => Import.parse t = .ok i) ts js) : is = js := by
  induction h generalizing js with
  | nil => cases h'; rfl
  | cons hi _ ih =>
    cases h' with
    | cons hj hjs => rw [hi] at hj; cases hj; rw [ih hjs]

section
variable (hl : w.SelfContained made l) (h : w.Sound made)
  (hr : Snapshot.RestoredAs (w.loader l).settings (w.snapshot l) w₀ l' w' pairs)
include hl h hr

theorem SelfContained.twins {c c' : ClassId} (hc : c ∈ (w.loader l).classes.values)
    (hp : (w.captureClass c, c') ∈ pairs) : w.Twins w' c c' := by
  have hd := h.made _ (hl.defined c hc)
  have hb := hr.built _ hp
  have hdefined := hr.definedIn _ hp
  refine ⟨?_, hb.kind.trans hd.kind.symm, ?_, hdefined.settings.trans hd.settings.symm⟩
  · rw [captureClass_eq, hb.record]
    rw [(hl.portable h).trimmed (List.mem_map_of_mem hc), captureClass_eq w, shown_shown]
  · refine parsed_unique hdefined.imports (List.forall₂_map_left_iff.mpr ?_)
    refine List.forall₂_same.mpr fun i hi => ?_
    obtain ⟨t, ht⟩ := hl.imports c hc i hi
    exact Import.parse_text ht

/-- The class that is restored from a snapshot goes by the name of the class in the snapshot. -/
theorem SelfContained.classes_twins (name : String) :
    Option.Rel (Twins w w') ((w.loader l).classes.get? name) ((w'.loader l').classes.get? name) := by
  have hsl := h.loaders l
  have hsnapshots : pairs.map Prod.fst = (w.loader l).classes.values.map w.captureClass := hr.snapshots
  have hnamed {name : String} {c : ClassId} (hc : (name, c) ∈ (w.loader l).classes) :
      (w.captureClass c).qualifiedName = name := by
    have hmem : c ∈ (w.loader l).classes.values := Registry.mem_values.mpr ⟨name, hc⟩
    exact (hsl.keys _ hc _ (hl.defined c hmem) rfl).symm
  cases hc : (w.loader l).classes.get? name with
  | none =>
    cases hc' : (w'.loader l').classes.get? name with
    | none => exact .none
    | some c' =>
      obtain ⟨x, hx, hname⟩ := hr.mem_classes.mp (Registry.mem_of_get? hc')
      have hx' : x ∈ (w.loader l).classes.values.map w.captureClass := by
        rw [← hsnapshots]; exact List.mem_map_of_mem hx
      obtain ⟨c, hmem, rfl⟩ := List.mem_map.mp hx'
      obtain ⟨n, hn⟩ := Registry.mem_values.mp hmem
      rw [← hname, hnamed hn, Registry.get?_of_mem hsl.sorted hn] at hc
      cases hc
  | some c =>
    have hmem := Registry.mem_of_get? hc
    have hvalue : c ∈ (w.loader l).classes.values := Registry.mem_values.mpr ⟨name, hmem⟩
    have hx : w.captureClass c ∈ pairs.map Prod.fst := by
      rw [hsnapshots]; exact List.mem_map_of_mem hvalue
    obtain ⟨⟨x, c'⟩, hp, hxc⟩ := List.mem_map.mp hx
    obtain rfl : x = w.captureClass c := hxc
    have hc' : (name, c') ∈ (w'.loader l').classes := hr.mem_classes.mpr ⟨_, hp, hnamed hmem⟩
    rw [Registry.get?_of_mem hr.sorted hc']
    exact .some (hl.twins h hr hvalue hp)

end

theorem SelfContained.mirrors (hl : w.SelfContained made l) (h : w.Sound made) (h₀ : w₀.Sound made₀)
    (hr : Snapshot.RestoredAs (w.loader l).settings (w.snapshot l) w₀ l' w' pairs) : w.Mirrors w' l l' := by
  have hwf := (hl.portable h).wellFormed h
  have hsl := h.loaders l
  have hsettings : (w'.loader l').settings = (w.loader l).settings := by rw [hr.loader]
  have hstandIns : (w'.loader l').placeholders = [] := by rw [hr.loader]
  have hsnapshots : pairs.map Prod.fst = (w.loader l).classes.values.map w.captureClass := hr.snapshots
  have hlength : pairs.length = (w.loader l).classes.length := by
    simpa [Registry.values] using congrArg List.length hsnapshots
  refine ⟨hl.independent h, hr.independent h₀ hwf, hsettings,
    builtins_twins (hsl.provides hl.lt) hr.provides rfl hsettings, hl.classes_twins h hr,
    hr.classes.length_eq.trans ((List.length_map _).trans hlength), fun name c hp => ?_, hstandIns⟩
  have he := Registry.mem_of_get? hp
  have hheld : c ∈ (w.loader l).held := by
    simp only [Loader.held, List.mem_append]
    exact .inr (Registry.mem_values.mpr ⟨name, he⟩)
  exact ⟨(hsl.held hl.sources c hheld).1, _, _, hl.standIns _ he⟩

structure AnswersAlike (w w' : World) (l l' : LoaderId) : Prop where
  known : ∀ name, ((w'.loader l').cached? name).isSome = ((w.loader l).cached? name).isSome
  assignable : ∀ {a b c d c' d'}, (w.loader l).cached? a = some c → (w.loader l).cached? b = some d →
    (w'.loader l').cached? a = some c' → (w'.loader l').cached? b = some d' →
    ∃ answer, (w.Ends c d answer ∧ (c.isAssignableFrom d w).1 = answer) ∧
      w'.Ends c' d' answer ∧ (c'.isAssignableFrom d' w').1 = answer
  members : ∀ {a c c'} kind, (w.loader l).cached? a = some c → (w'.loader l').cached? a = some c' →
    ∃ names, w.Flattens kind c names ∧ w'.Flattens kind c' names
  types : ∀ {a c c'}, (w.loader l).cached? a = some c → (w'.loader l').cached? a = some c' →
    w'.typeNames c' = w.typeNames c

theorem Mirrors.answersAlike (h : Mirrors w w' l l')
    (hacyclic : ∀ c ∈ (w.loader l).classes.values, ¬ TransGen w.Supertype c c) : w.AnswersAlike w' l l' where
  known name := by
    have hc := h.cached name
    revert hc
    generalize (w.loader l).cached? name = c
    generalize (w'.loader l').cached? name = c'
    intro hc
    cases hc <;> rfl
  assignable ha hb ha' hb' := h.answers hacyclic ⟨_, ha, ha'⟩ ⟨_, hb, hb'⟩
  members kind ha ha' := h.flattens hacyclic ⟨_, ha, ha'⟩ kind
  types ha ha' := h.typeNames ⟨_, ha, ha'⟩

end

/-- A loader that refers to nothing outside itself is restored to one that answers as it does. -/
theorem snapshot_restore_answers {w w₀ : World} {made made₀ : List (LoaderId × ClassId)} {l : LoaderId}
    (hw : Reached w made) (hl : w.SelfContained made l) (hw₀ : Reached w₀ made₀) :
    ∃ l' w', Snapshot.restore (w.loader l).settings (w.snapshot l) w₀ = (.ok l', w') ∧ w.AnswersAlike w' l l' := by
  have hwf := (hl.portable hw.sound).wellFormed hw.sound
  obtain ⟨l', w', h, pairs, hr⟩ :=
    (Snapshot.restore_accepts (w.loader l).settings (w.snapshot l) w₀).1 hwf
  exact ⟨l', w', h, (hl.mirrors hw.sound hw₀.sound hr).answersAlike hl.acyclic⟩

/-- The imported superclass has been resolved, and the type of the field to a stand-in. -/
def settled : World := ((⟨4⟩ : RefId).resolve ((⟨0⟩ : RefId).resolve furnished).2).2

theorem reached_settled :
    ∃ made, Reached settled ([(⟨0⟩, ⟨10⟩), (⟨0⟩, ⟨11⟩), (⟨0⟩, ⟨12⟩)] ++ made) := by
  have hplaced : ∀ r ∈ [(⟨0⟩ : RefId), ⟨4⟩], r.index < furnished.references.size ∧
      ∀ c ∈ (furnished.reference r).target.context?, c.index < furnished.nodes.size := by decide +kernel
  have hplaced (r : RefId) (hr : r ∈ [⟨0⟩, ⟨4⟩]) : furnished.Placed r := ⟨(hplaced r hr).1, (hplaced r hr).2⟩
  have hfirst := resolve_acts (hplaced ⟨0⟩ (by simp))
  have hsecond := resolve_acts ((hplaced ⟨4⟩ (by simp)).keeps hfirst.keeps)
  obtain ⟨made, hm⟩ := (hfirst.trans hsecond).moves
  exact ⟨made, reached_furnished.trans hm⟩

theorem selfContained_settled (made : List (LoaderId × ClassId)) :
    settled.SelfContained ([(⟨0⟩, ⟨10⟩), (⟨0⟩, ⟨11⟩), (⟨0⟩, ⟨12⟩)] ++ made) ⟨0⟩ := by
  have hclasses : (settled.loader ⟨0⟩).classes.values = [⟨10⟩, ⟨11⟩, ⟨12⟩] := by decide +kernel
  have himports : ∀ c ∈ (settled.loader ⟨0⟩).classes.values, ∀ i ∈ (settled.node c).imports,
      Import.parse i.text = .ok i := by decide +kernel
  have hnamed : ∀ c ∈ (settled.loader ⟨0⟩).classes.values, ∀ r ∈ settled.shownReferences c,
      (settled.reference r).kind ≠ .direct := by decide +kernel
  have hlayered : settled.Layered := by decide +kernel
  have hstandIns : (settled.loader ⟨0⟩).placeholders = [("q.Missing", ⟨13⟩)] := by decide +kernel
  have hfresh : ∀ c ∈ (settled.loader ⟨0⟩).classes.values, ∀ r ∈ settled.shownReferences c,
      ∀ d ∈ (settled.reference r).known?, d.index < settled.nodes.size ∧ (r.resolve (settled.forget r)).1 = d := by
    decide +kernel
  exact
    { lt := by decide +kernel
      alive := by decide +kernel
      sources := List.isEmpty_iff.mp (by decide +kernel)
      defined := fun c hc => by
        rw [hclasses] at hc
        refine List.mem_append_left _ ?_
        revert c
        decide
      imports := fun c hc i hi => ⟨i.text, himports c hc i hi⟩
      direct := fun c hc r hr d hd => (hnamed c hc r hr (by simp only [Reference.kind, hd])).elim
      acyclic := fun c _ => hlayered.acyclic c
      standIns := fun e he => by
        rw [hstandIns] at he
        cases List.mem_singleton.mp he
        decide +kernel
      fresh := hfresh }

theorem settled_restore_answers :
    (settled.reference ⟨0⟩).target = .unqualified "B" ⟨10⟩ ∧ (settled.reference ⟨0⟩).memo = some ⟨11⟩ ∧
    (settled.node ⟨13⟩).isUnresolved = true ∧ (settled.reference ⟨4⟩).memo = some ⟨13⟩ ∧
    ∃ made, Reached settled made ∧ settled.SelfContained made ⟨0⟩ ∧
      ∃ l' w', Snapshot.restore (settled.loader ⟨0⟩).settings (settled.snapshot ⟨0⟩) settled = (.ok l', w') ∧
        settled.AnswersAlike w' ⟨0⟩ l' := by
  obtain ⟨made, hreached⟩ := reached_settled
  exact ⟨by decide +kernel, by decide +kernel, by decide +kernel, by decide +kernel, _, hreached,
    selfContained_settled made, snapshot_restore_answers hreached (selfContained_settled made) hreached⟩

end World

end ClassModel
