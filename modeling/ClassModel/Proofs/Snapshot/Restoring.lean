import ClassModel.Proofs.Snapshot.Filling

/-!
# Restoring accepts the well-formed snapshots

Two passes over the classes, each with many checks, come down to one condition on the snapshot. What
is restored shows the normal form of the snapshot, so the order of its classes does not matter.
-/

namespace ClassModel

open Change Name

namespace World

section
variable {w : World} {c : ClassId}

/-! ## Built classes are captured as they were written -/

theorem map_eq_of_forall₂ {R : α → β → Prop} {capture : β → α} (hR : ∀ {a b}, R a b → capture b = a)
    {as : List α} {bs : List β} (h : List.Forall₂ R as bs) : bs.map capture = as := by
  induction h with
  | nil => rfl
  | cons hab _ ih => rw [List.map_cons, ih, hR hab]

theorem BuiltRef.capture {x : RefSnapshot} {r : RefId} (h : w.BuiltRef c x r) : w.captureRef r = x := by
  unfold captureRef
  rw [h.eq]
  cases x <;> rfl

theorem captureParameters_of_built {xs : List ParameterSnapshot} {ps : Parameters}
    (h : List.Forall₂ (w.BuiltParameter c) xs ps.list) : w.captureParameters ps = xs :=
  map_eq_of_forall₂ (fun hp => by rw [hp.name, hp.type.capture]) h

theorem BuiltField.capture {x : FieldSnapshot} {f : FieldId} (h : w.BuiltField c x f) :
    w.captureField f = x := by
  simp only [captureField, h.name, h.modifiers, h.type.capture]

theorem BuiltMethod.capture {x : MethodSnapshot} {m : MethodId} (h : w.BuiltMethod c x m) :
    w.captureMethod m = x := by
  simp only [captureMethod, h.name, h.modifiers, h.returnType.capture, captureParameters_of_built h.parameters]

theorem BuiltConstructor.capture {x : ConstructorSnapshot} {k : ConstructorId}
    (h : w.BuiltConstructor c x k) : w.captureConstructor k = x := by
  simp only [captureConstructor, h.modifiers, captureParameters_of_built h.parameters]

theorem Built.record {x : ClassSnapshot} (h : w.Built c x) : w.recordClass c = x := by
  have hsuper : (w.node c).superclass.map w.captureRef = x.superclass := by
    have := map_eq_of_forall₂ (fun h => BuiltRef.capture h) h.superclass
    cases hs : (w.node c).superclass <;> cases hx : x.superclass <;> simp_all
  simp only [recordClass, h.package, h.simpleName, h.modifiers, h.isInterface, h.isAnnotationType,
    h.isUnresolved, h.imports, hsuper, map_eq_of_forall₂ (fun h => BuiltRef.capture h) h.interfaces,
    map_eq_of_forall₂ (fun h => BuiltField.capture h) h.fields,
    map_eq_of_forall₂ (fun h => BuiltMethod.capture h) h.methods,
    map_eq_of_forall₂ (fun h => BuiltConstructor.capture h) h.constructors]

theorem Built.nameOf {x : ClassSnapshot} (h : w.Built c x) :
    w.nameOf c = x.qualifiedName := by
  unfold World.nameOf ClassNode.qualifiedName ClassSnapshot.qualifiedName
  rw [h.package, h.simpleName]

end

end World

namespace Snapshot

open World

/-! ## Defining the classes -/

theorem parseImports_accepts (texts : List String) (w : World) : (parseImports texts).Accepts w
    (∀ t ∈ texts, ∃ i, Import.parse t = .ok i)
    fun is w' => w' = w ∧ List.Forall₂ (fun t i => Import.parse t = .ok i) texts is := by
  rw [← Import.exists_parseAll_iff]
  unfold parseImports
  cases h : Import.parseAll texts with
  | ok is => exact ⟨fun _ => ⟨is, w, rfl, rfl, Import.parseAll_ok.mp h⟩, fun n => (n ⟨is, rfl⟩).elim⟩
  | error e => exact ⟨fun ⟨_, h⟩ => (by cases h), fun _ => ⟨_, w, rfl⟩⟩

structure DefinedIn (l : LoaderId) (settings : Settings) (x : ClassSnapshot) (c : ClassId) (w : World) : Prop where
  lookup : (w.node c).lookup = some (.loader l)
  settings : (w.node c).settings = settings
  imports : List.Forall₂ (fun t i => Import.parse t = .ok i) x.imports (w.node c).imports

structure Defined (l : LoaderId) (w₀ : World) (done : List (ClassSnapshot × ClassId)) (w : World) : Prop where
  rest : w = { w₀ with nodes := w.nodes, loaders := w.loaders, log := w.log }
  nodes : w₀.nodes.Extends w.nodes
  size : w.loaders.size = w₀.loaders.size
  other : ∀ l' ≠ l, w.loader l' = w₀.loader l'
  self : w.loader l = { w₀.loader l with classes := (w.loader l).classes }
  sorted : (w.loader l).classes.Sorted
  classes : (w.loader l).classes.Perm (done.map fun e => (e.1.qualifiedName, e.2))
  fresh : ∀ e ∈ done, w₀.nodes.size ≤ e.2.index
  distinct : (done.map (·.2)).Nodup
  blank : ∀ e ∈ done, w.Built e.2 (blank e.1)
  definedIn : ∀ e ∈ done, DefinedIn l (w₀.loader l).settings e.1 e.2 w

section
variable {l : LoaderId} {w₀ w : World} {done : List (ClassSnapshot × ClassId)}

theorem Defined.get?_eq_none (h : Defined l w₀ done w) (name : String) :
    (w.loader l).classes.get? name = none ↔ name ∉ done.map (·.1.qualifiedName) := by
  rw [Registry.get?_eq_none_iff]
  constructor
  · intro hne hmem
    obtain ⟨e, he, rfl⟩ := List.mem_map.mp hmem
    exact hne _ (h.classes.mem_iff.mpr (List.mem_map.mpr ⟨e, he, rfl⟩)) rfl
  · rintro hn e he rfl
    obtain ⟨e', he', rfl⟩ := List.mem_map.mp (h.classes.mem_iff.mp he)
    exact hn (List.mem_map.mpr ⟨e', he', rfl⟩)

theorem map_text_of_parsed {ts : List String} {is : List Import}
    (h : List.Forall₂ (fun t i => Import.parse t = .ok i) ts is) : is.map Import.text = ts.map Text.trim := by
  induction h with
  | nil => rfl
  | cons hi _ ih => rw [List.map_cons, List.map_cons, ih, Import.text_of_parse hi]

section
variable {x : ClassSnapshot} {is : List Import} (hi : List.Forall₂ (fun t i => Import.parse t = .ok i) x.imports is)
include hi

theorem built_withDefined (l : LoaderId) (w : World) :
    (w.withDefined l x.package x.simpleName is).Built w.nextClass (blank x) := by
  have hnode : (w.withDefined l x.package x.simpleName is).node w.nextClass = _ :=
    node_withDefined_self x.package x.simpleName is
  refine ⟨?_, ?_, ?_, ?_, ?_, ?_, ?_, ?_, ?_, ?_, ?_, ?_, ?_, ?_⟩
  case refine_1 => rw [size_withDefined]; exact Nat.lt_succ_self _
  all_goals rw [hnode]
  case refine_9 => exact map_text_of_parsed hi
  all_goals first | rfl | exact .nil

theorem definedIn_withDefined (l : LoaderId) (w : World) :
    DefinedIn l (w.loader l).settings x w.nextClass (w.withDefined l x.package x.simpleName is) := by
  have hnode : (w.withDefined l x.package x.simpleName is).node w.nextClass = _ :=
    node_withDefined_self x.package x.simpleName is
  exact ⟨by rw [hnode]; rfl, by rw [hnode]; rfl, by rw [hnode]; exact hi⟩

end

/-- No stand-in is given up, since a loader that is being restored has none. -/
theorem Defined.loader_withDefined (h : Defined l w₀ done w) (hl : l.index < w₀.loaders.size)
    (hp : (w₀.loader l).placeholders = []) (package simpleName : String) (imports : List Import) :
    (w.withDefined l package simpleName imports).loader l =
      { w₀.loader l with classes := (w.loader l).classes.insert (qualify package simpleName) w.nextClass } := by
  rw [loader_withDefined_self package simpleName imports (by rw [h.size]; exact hl)]
  have hs := h.self
  generalize w.loader l = y at hs ⊢
  rw [hs]
  simp [hp, Registry.erase]

theorem Defined.withDefined (h : Defined l w₀ done w) (hl : l.index < w₀.loaders.size)
    (hp : (w₀.loader l).placeholders = []) {x : ClassSnapshot} {is : List Import}
    (hi : List.Forall₂ (fun t i => Import.parse t = .ok i) x.imports is)
    (hx : (w.loader l).classes.get? x.qualifiedName = none) :
    Defined l w₀ (done ++ [(x, w.nextClass)]) (w.withDefined l x.package x.simpleName is) := by
  let w' := w.withDefined l x.package x.simpleName is
  have hself : w'.loader l = { w₀.loader l with
      classes := (w.loader l).classes.insert x.qualifiedName w.nextClass } := h.loader_withDefined hl hp _ _ _
  have hsettings : (w.loader l).settings = (w₀.loader l).settings := by rw [h.self]
  have hsize : w.nodes.size ≤ w'.nodes.size := by rw [size_withDefined]; exact Nat.le_succ _
  have hold (e) (he : e ∈ done) : w'.node e.2 = w.node e.2 :=
    Store.get_push_of_lt _ _ (h.blank e he).lt
  refine ⟨?_, h.nodes.trans (.push _ _), ?_, ?_, ?_, ?_, ?_, ?_, ?_, ?_, ?_⟩
  · have hrest := h.rest
    show { w with nodes := _, loaders := _, log := _ } = _
    rw [hrest]; rfl
  · exact (Store.size_modify _ _ _).trans h.size
  · exact fun l' hl' => (loader_withDefined_of_ne _ _ _ hl').trans (h.other l' hl')
  · rw [hself]
  · rw [hself]; exact Registry.sorted_insert _ _ h.sorted
  · rw [hself, List.map_append]
    exact (Registry.insert_perm _ _ hx).trans ((h.classes.cons _).trans (List.perm_append_singleton _ _).symm)
  · intro e he
    rcases List.mem_append.mp he with he | he
    · exact h.fresh e he
    · cases List.mem_singleton.mp he; exact h.nodes.size_le
  · rw [List.map_append]
    refine List.nodup_append.mpr ⟨h.distinct, List.nodup_singleton _, ?_⟩
    rintro c hc d hd rfl
    obtain ⟨e, he, rfl⟩ := List.mem_map.mp hc
    have hlt := (h.blank e he).lt
    rw [List.mem_singleton.mp hd] at hlt
    exact Nat.lt_irrefl _ hlt
  · intro e he
    rcases List.mem_append.mp he with he | he
    · exact (h.blank e he).extend (hold e he) (Nat.lt_of_lt_of_le (h.blank e he).lt hsize) (.refl _)
        (.refl _) (.refl _) (.refl _)
    · cases List.mem_singleton.mp he
      exact built_withDefined hi l w
  · intro e he
    rcases List.mem_append.mp he with he | he
    · have hd := h.definedIn e he
      exact ⟨by rw [hold e he, hd.lookup], by rw [hold e he, hd.settings], by rw [hold e he]; exact hd.imports⟩
    · cases List.mem_singleton.mp he
      exact hsettings ▸ definedIn_withDefined hi l w

theorem Defined.builtin_none (h : Defined l w₀ done w)
    (hb : Loader.Provides w₀ l (Loader.builtinKinds (w₀.loader l).settings)) (name : String) :
    (w.loader l).builtins.get? name = none ↔ ¬ Loader.IsBuiltinName (w₀.loader l).settings name := by
  have hsame : (w.loader l).builtins = (w₀.loader l).builtins := by rw [h.self]
  rw [hsame, Loader.isBuiltinName_iff]
  constructor
  · rintro hn ⟨kind, hk⟩
    have := hb.all _ hk
    rw [hn] at this; cases this
  · intro hn
    rw [Registry.get?_eq_none_iff]
    rintro e he rfl
    obtain ⟨-, kind, hk, -⟩ := hb.node e he
    exact hn ⟨kind, hk⟩

/-- The classes are defined exactly if each of them can be and no two have one name. -/
theorem defineEach_accepts (hl : l.index < w₀.loaders.size) (hp : (w₀.loader l).placeholders = [])
    (hb : Loader.Provides w₀ l (Loader.builtinKinds (w₀.loader l).settings)) :
    ∀ (xs : List ClassSnapshot) (done : List (ClassSnapshot × ClassId)) (w : World), Defined l w₀ done w →
      (defineEach l xs).Accepts w
        ((∀ x ∈ xs, x.Definable (w₀.loader l).settings) ∧ (∀ x ∈ xs, x.qualifiedName ∉ done.map (·.1.qualifiedName)) ∧
          (xs.map (·.qualifiedName)).Nodup)
        fun cs w' => cs.length = xs.length ∧ Defined l w₀ (done ++ xs.zip cs) w'
  | [], done, w, h =>
    (Accepts.pure (a := []) (r := fun cs w' => cs.length = 0 ∧ Defined l w₀ (done ++ [].zip cs) w')
      ⟨rfl, by simpa using h⟩).congr (by simp) fun _ _ _ h => h
  | x :: xs, done, w, h => by
    have hdefine (w₁ : World) (is : List Import) (hw₁ : w₁ = w)
        (hi : List.Forall₂ (fun t i => Import.parse t = .ok i) x.imports is) :
        (Loader.define l x.package x.simpleName is).Accepts w₁
          (IsPackageName x.package ∧ IsIdentifier x.simpleName ∧
            ¬ Loader.IsBuiltinName (w₀.loader l).settings x.qualifiedName ∧
            x.qualifiedName ∉ done.map (·.1.qualifiedName))
          fun c w' => Defined l w₀ (done ++ [(x, c)]) w' := by
      subst hw₁
      rw [← h.builtin_none hb, ← h.get?_eq_none]
      exact (Loader.define_makes l x.package x.simpleName is w₁).accepts fun hd =>
        h.withDefined hl hp hi hd.2.2.2
    have hrest (c : ClassId) (w₂ : World) (h₂ : Defined l w₀ (done ++ [(x, c)]) w₂) :
        (defineEach l xs).Accepts w₂ ((∀ y ∈ xs, y.Definable (w₀.loader l).settings) ∧
          (∀ y ∈ xs, y.qualifiedName ∉ done.map (·.1.qualifiedName) ++ [x.qualifiedName]) ∧
          (xs.map (·.qualifiedName)).Nodup)
          fun cs w' => cs.length = xs.length ∧ Defined l w₀ ((done ++ [(x, c)]) ++ xs.zip cs) w' := by
      -- the names that are taken grow by that of `x`, which is how the names of `xs` must differ from it
      have := defineEach_accepts hl hp hb xs (done ++ [(x, c)]) w₂ h₂
      rwa [List.map_append] at this
    have hall := (parseImports_accepts x.imports w).bind fun is w₁ _ hr =>
      (hdefine w₁ is hr.1 hr.2).bind fun c w₂ _ h₂ => (hrest c w₂ h₂).bind fun cs w₃ _ h₃ =>
        Accepts.pure (a := c :: cs) (r := fun cs w' => cs.length = (x :: xs).length ∧
          Defined l w₀ (done ++ (x :: xs).zip cs) w')
          ⟨by rw [List.length_cons, h₃.1, List.length_cons], by simpa using h₃.2⟩
    refine hall.congr ⟨?_, ?_⟩ fun _ _ _ h => h
    · rintro ⟨hi, ⟨hpkg, hname, hbuiltin, hx⟩, ⟨hdef, hnew, hnodup⟩, -⟩
      refine ⟨List.forall_mem_cons.mpr ⟨⟨hi, hpkg, hname, hbuiltin⟩, hdef⟩, ?_, ?_⟩
      · exact List.forall_mem_cons.mpr ⟨hx, fun y hy hm => hnew y hy (List.mem_append_left _ hm)⟩
      · refine List.nodup_cons.mpr ⟨fun hm => ?_, hnodup⟩
        obtain ⟨y, hy, hyx⟩ := List.mem_map.mp hm
        exact hnew y hy (by simp [hyx])
    · rintro ⟨hdef, hnew, hnodup⟩
      obtain ⟨hxdef, hdef⟩ := List.forall_mem_cons.mp hdef
      obtain ⟨hx, hnew⟩ := List.forall_mem_cons.mp hnew
      obtain ⟨hxs, hnodup⟩ := List.nodup_cons.mp hnodup
      refine ⟨hxdef.imports, ⟨hxdef.package, hxdef.simpleName, hxdef.notBuiltin, hx⟩, ⟨hdef, ?_, hnodup⟩, trivial⟩
      intro y hy hm
      rcases List.mem_append.mp hm with hm | hm
      · exact hnew y hy hm
      · exact hxs (List.mem_map.mpr ⟨y, hy, List.mem_singleton.mp hm⟩)

end

/-! ## Filling the classes -/

theorem fillEach_accepts : ∀ (todo : List (ClassSnapshot × ClassId)) (w : World), (todo.map (·.2)).Nodup →
    (∀ e ∈ todo, w.Built e.2 (blank e.1)) →
    (restoreEach (fun (x, c) => restoreClass x c) todo).Accepts w (∀ e ∈ todo, e.1.Fillable)
      fun _ w' => Fills (todo.map (·.2)) w w' ∧ ∀ e ∈ todo, w'.Built e.2 e.1.trimmed
  | [], w, _, _ =>
    (Accepts.pure (r := fun _ w' => Fills [] w w') (.refl _ w)).congr (by simp) fun _ _ _ h => ⟨h, by simp⟩
  | (x, c) :: todo, w, hd, hb => by
    obtain ⟨hc, hd⟩ := List.nodup_cons.mp hd
    obtain ⟨hbx, hb⟩ := List.forall_mem_cons.mp hb
    have hne (e) (he : e ∈ todo) : e.2 ∉ [c] := fun h =>
      hc (List.mem_map.mpr ⟨e, he, List.mem_singleton.mp h⟩)
    have hall := (restoreClass_accepts x ⟨.refl [c] w, hbx⟩).bind fun _ w₁ _ h₁ =>
      (fillEach_accepts todo w₁ hd fun e he => (hb e he).mono h₁.fills (hne e he)).congr
        (s := fun _ w' => Fills ((x, c) :: todo |>.map (·.2)) w w' ∧ ∀ e ∈ (x, c) :: todo, w'.Built e.2 e.1.trimmed)
        Iff.rfl fun _ w' _ h' => ⟨(h₁.fills.mono (by simp)).trans (h'.1.mono (by simp)),
          List.forall_mem_cons.mpr ⟨h₁.built.mono h'.1 hc, h'.2⟩⟩
    exact hall.congr (by simp) fun _ _ _ h => h

theorem DefinedIn.fills {l : LoaderId} {settings : Settings} {x : ClassSnapshot} {c : ClassId} {w w' : World}
    {cs : List ClassId} (h : DefinedIn l settings x c w) (hf : Fills cs w w') : DefinedIn l settings x c w' := by
  obtain ⟨hlookup, hsettings, himports⟩ := hf.identity c
  exact ⟨by rw [hlookup, h.lookup], by rw [hsettings, h.settings], by rw [himports]; exact h.imports⟩

/-! ## Restoring -/

/-- Loader `l` has been made from the snapshot, and its classes are `pairs`. -/
structure RestoredAs (settings : Settings) (s : Snapshot) (w₀ : World) (l : LoaderId) (w : World)
    (pairs : List (ClassSnapshot × ClassId)) : Prop where
  loader : w.loader l = ⟨settings, (w.loader l).builtins, (w.loader l).classes, [], [], [], []⟩
  snapshots : pairs.map (·.1) = s.classes
  sorted : (w.loader l).classes.Sorted
  classes : (w.loader l).classes.Perm (pairs.map fun e => (e.1.qualifiedName, e.2))
  built : ∀ e ∈ pairs, w.Built e.2 e.1.trimmed
  definedIn : ∀ e ∈ pairs, DefinedIn l settings e.1 e.2 w
  provides : Loader.Provides w l (Loader.builtinKinds settings)
  fresh : ∀ e ∈ (w.loader l).builtins ++ (w.loader l).classes, w₀.nodes.size ≤ e.2.index
  new : l = w₀.nextLoader
  lt : l.index < w.loaders.size
  keeps : w₀.Extends w

section
variable {settings : Settings} {s : Snapshot} {l : LoaderId} {w₀ w₁ w₂ w₃ : World}

theorem Defined.start (h : w₀.MadeLoader settings [] w₁) : Defined w₀.nextLoader w₁ [] w₁ := by
  have hclasses : (w₁.loader w₀.nextLoader).classes = [] := by rw [h.self]
  refine ⟨rfl, .refl _, rfl, fun _ _ => rfl, rfl, ?_, ?_, by simp, .nil, by simp, by simp⟩
  · rw [hclasses]; exact Registry.sorted_nil
  · rw [hclasses]; exact .nil

section
variable {pairs : List (ClassSnapshot × ClassId)} (hmade : w₀.MadeLoader settings [] w₁)
  (hdef : Defined w₀.nextLoader w₁ pairs w₂) (hfill : Fills (pairs.map (·.2)) w₂ w₃)
include hdef hfill

theorem size_ofPasses : w₁.nodes.size ≤ w₃.nodes.size := by
  rw [hfill.size]; exact hdef.nodes.size_le

/-- A class that was there before the passes is not among those that they fill. -/
theorem node_ofPasses {c : ClassId} (hc : c.index < w₁.nodes.size) : w₃.node c = w₁.node c := by
  rw [hfill.node c fun hm => ?_]
  · exact hdef.nodes.get_eq _ hc
  · obtain ⟨e, he, rfl⟩ := List.mem_map.mp hm
    have := hdef.fresh e he
    omega

omit hdef in
theorem loader_ofPasses (l : LoaderId) : w₃.loader l = w₂.loader l := by
  show w₃.loaders.get _ = _
  rw [hfill.loaders]
  rfl

include hmade

theorem extends_ofPasses : w₀.Extends w₃ := by
  have hnodes := size_ofPasses hdef hfill
  have hsize : w₃.loaders.size = w₀.loaders.size + 1 := by rw [hfill.loaders, hdef.size, hmade.size]
  obtain ⟨hfields, hmethods, hconstructors, hreferences, hdirectories, hgone⟩ :
      w₂.fields = w₀.fields ∧ w₂.methods = w₀.methods ∧ w₂.constructors = w₀.constructors ∧
        w₂.references = w₀.references ∧ w₂.directories = w₀.directories ∧ w₂.gone = w₀.gone := by
    rw [hdef.rest, hmade.rest]
    exact ⟨rfl, rfl, rfl, rfl, rfl, rfl⟩
  refine ⟨?_, ?_, ?_, ?_, ?_, ?_, ?_, ?_⟩
  · refine ⟨Nat.le_trans hmade.nodes.size_le hnodes, fun i hi => ?_⟩
    have hold : w₃.node ⟨i⟩ = w₁.node ⟨i⟩ := node_ofPasses hdef hfill (Nat.lt_of_lt_of_le hi hmade.nodes.size_le)
    exact hold.trans (hmade.nodes.get_eq i hi)
  · rw [← hfields]; exact hfill.fields
  · rw [← hmethods]; exact hfill.methods
  · rw [← hconstructors]; exact hfill.constructors
  · rw [← hreferences]; exact hfill.references
  · refine ⟨by rw [hsize]; exact Nat.le_succ _, fun i hi => ?_⟩
    have hne : (⟨i⟩ : LoaderId) ≠ w₀.nextLoader := by simp [nextLoader]; omega
    exact (loader_ofPasses hfill ⟨i⟩).trans ((hdef.other ⟨i⟩ hne).trans (hmade.other ⟨i⟩ hne))
  · rw [hfill.directories, hdirectories]
  · rw [hfill.gone, hgone]

theorem provides_ofPasses : Loader.Provides w₃ w₀.nextLoader (Loader.builtinKinds settings) := by
  have hbuiltins : (w₃.loader w₀.nextLoader).builtins = (w₁.loader w₀.nextLoader).builtins := by
    rw [loader_ofPasses hfill, hdef.self]
  refine ⟨?_, ?_, ?_⟩
  · rw [hbuiltins]; exact hmade.provides.sorted
  · intro e he
    rw [hbuiltins] at he
    obtain ⟨hlt, kind, hk, hn⟩ := hmade.provides.node e he
    refine ⟨Nat.lt_of_lt_of_le hlt (size_ofPasses hdef hfill), kind, hk, ?_⟩
    rw [node_ofPasses hdef hfill hlt, hn, loader_ofPasses hfill, hdef.self]
  · intro nk hnk
    rw [hbuiltins]; exact hmade.provides.all nk hnk

theorem RestoredAs.ofPasses (hpairs : pairs.map (·.1) = s.classes)
    (hbuilt : ∀ e ∈ pairs, w₃.Built e.2 e.1.trimmed) : RestoredAs settings s w₀ w₀.nextLoader w₃ pairs := by
  have hself : w₁.loader w₀.nextLoader = ⟨settings, _, [], [], [], [], []⟩ := hmade.self
  have hsettings : (w₁.loader w₀.nextLoader).settings = settings := by rw [hself]
  have hloader := loader_ofPasses hfill w₀.nextLoader
  refine ⟨?_, hpairs, ?_, ?_, hbuilt, ?_, provides_ofPasses hmade hdef hfill, ?_, rfl, ?_,
    extends_ofPasses hmade hdef hfill⟩
  · rw [hloader, hdef.self, hself]
  · rw [hloader]; exact hdef.sorted
  · rw [hloader]; exact hdef.classes
  · intro e he
    have := (hdef.definedIn e he).fills hfill
    rwa [hsettings] at this
  · intro e he
    rcases List.mem_append.mp he with he | he
    · rw [hloader, hdef.self] at he; exact hmade.fresh e he
    · rw [hloader] at he
      obtain ⟨p, hp, rfl⟩ := List.mem_map.mp (hdef.classes.mem_iff.mp he)
      exact Nat.le_trans hmade.nodes.size_le (hdef.fresh p hp)
  · rw [hfill.loaders, hdef.size, hmade.size]; exact Nat.lt_succ_self _

end

theorem RestoredAs.log {pairs : List (ClassSnapshot × ClassId)} (h : RestoredAs settings s w₀ l w₁ pairs)
    (e : Log.Event) : RestoredAs settings s w₀ l { w₁ with log := e :: w₁.log } pairs :=
  { loader := h.loader, snapshots := h.snapshots, sorted := h.sorted, classes := h.classes
    built := fun e he => (h.built e he).extend rfl (h.built e he).lt (.refl _) (.refl _) (.refl _) (.refl _)
    definedIn := fun e he => ⟨(h.definedIn e he).lookup, (h.definedIn e he).settings, (h.definedIn e he).imports⟩
    provides := ⟨h.provides.sorted, h.provides.node, h.provides.all⟩
    fresh := h.fresh, new := h.new, lt := h.lt
    keeps := ⟨h.keeps.nodes, h.keeps.fields, h.keeps.methods, h.keeps.constructors, h.keeps.references,
      h.keeps.loaders, h.keeps.directories, h.keeps.gone⟩ }

theorem restore_accepts (settings : Settings) (s : Snapshot) (w₀ : World) :
    (restore settings s).Accepts w₀ (s.WellFormed settings)
      fun l w => ∃ pairs, RestoredAs settings s w₀ l w pairs := by
  have hmake := (Loader.make_makes settings [] w₀).accepts
    (r := fun l w => l = w₀.nextLoader ∧ w₀.MadeLoader settings [] w)
    fun _ => ⟨rfl, withLoader_spec w₀ settings []⟩
  have hdefine (l : LoaderId) (w₁ : World) (h : l = w₀.nextLoader ∧ w₀.MadeLoader settings [] w₁) :
      (defineEach l s.classes).Accepts w₁
        ((∀ x ∈ s.classes, x.Definable settings) ∧ (s.classes.map (·.qualifiedName)).Nodup)
        fun cs w₂ => cs.length = s.classes.length ∧ Defined w₀.nextLoader w₁ (s.classes.zip cs) w₂ := by
    obtain ⟨rfl, hmade⟩ := h
    have hself : w₁.loader w₀.nextLoader = ⟨settings, _, [], [], [], [], []⟩ := hmade.self
    have hsettings : (w₁.loader w₀.nextLoader).settings = settings := by rw [hself]
    have := @defineEach_accepts w₀.nextLoader w₁
      (by rw [hmade.size]; exact Nat.lt_succ_self _) (by rw [hself])
      (by rw [hsettings]; exact hmade.provides) s.classes [] w₁ (.start hmade)
    rw [hsettings] at this
    exact this.congr (by simp) fun _ _ _ h => h
  -- filling is stated for records paired with classes, well-formedness for the records alone
  have hzip {cs : List ClassId} (h : cs.length = s.classes.length) : (s.classes.zip cs).map (·.1) = s.classes :=
    List.map_fst_zip (by omega)
  have hfill (w₁ w₂ : World) (cs : List ClassId) (hmade : w₀.MadeLoader settings [] w₁)
      (h : cs.length = s.classes.length ∧ Defined w₀.nextLoader w₁ (s.classes.zip cs) w₂) :
      (restoreEach (fun (x, c) => restoreClass x c) (s.classes.zip cs)).Accepts w₂ (∀ x ∈ s.classes, x.Fillable)
        fun _ w₃ => RestoredAs settings s w₀ w₀.nextLoader w₃ (s.classes.zip cs) := by
    refine (fillEach_accepts _ w₂ h.2.distinct h.2.blank).congr ?_ fun _ w₃ _ h₃ =>
      .ofPasses hmade h.2 h₃.1 (hzip h.1) h₃.2
    have : (∀ x ∈ (s.classes.zip cs).map (·.1), x.Fillable) ↔ ∀ e ∈ s.classes.zip cs, e.1.Fillable :=
      List.forall_mem_map
    rw [← this, hzip h.1]
  have hlog (l : LoaderId) (cs : List ClassId) (w₃ : World)
      (h : RestoredAs settings s w₀ l w₃ (s.classes.zip cs)) :
      (do of <| Step.log (.restored cs.length); return l : Change LoaderId).Accepts w₃ True
        fun l w => ∃ pairs, RestoredAs settings s w₀ l w pairs :=
    ⟨fun _ => ⟨l, _, rfl, _, h.log _⟩, fun n => (n trivial).elim⟩
  have hall := hmake.bind fun l w₁ _ h₁ => (hdefine l w₁ h₁).bind fun cs w₂ _ h₂ =>
    (hfill w₁ w₂ cs h₁.2 h₂).bind fun _ w₃ _ h₃ => hlog l cs w₃ (h₁.1 ▸ h₃)
  refine hall.congr ⟨?_, ?_⟩ fun _ _ _ h => h
  · rintro ⟨hs, ⟨hdef, hnodup⟩, hfillable, -⟩
    exact ⟨Settings.check_ok.mpr hs, hdef, hnodup, hfillable⟩
  · rintro ⟨hs, hdef, hnodup, hfillable⟩
    exact ⟨Settings.check_ok.mp hs, ⟨hdef, hnodup⟩, hfillable, trivial⟩

/-! ## The normal form -/

section
variable {pairs : List (ClassSnapshot × ClassId)}

theorem RestoredAs.distinct (h : RestoredAs settings s w₀ l w₁ pairs) :
    (s.classes.map (·.qualifiedName)).Nodup := by
  have hkeys : ((w₁.loader l).classes.map (·.1)).Nodup :=
    List.pairwise_map.mpr (h.sorted.imp fun hlt heq => by rw [heq] at hlt; exact String.lt_irrefl _ hlt)
  have hperm : ((w₁.loader l).classes.map (·.1)).Perm (s.classes.map (·.qualifiedName)) := by
    rw [← h.snapshots, List.map_map]
    exact (h.classes.map (·.1)).trans (.of_eq (by rw [List.map_map]))
  exact hperm.nodup_iff.mp hkeys

theorem RestoredAs.records_perm (h : RestoredAs settings s w₀ l w₁ pairs) :
    (w₁.records l).Perm (s.classes.map (·.trimmed)) := by
  rw [← h.snapshots, List.map_map]
  refine ((h.classes.map (·.2)).map w₁.recordClass).trans (.of_eq ?_)
  rw [List.map_map, List.map_map]
  exact List.map_congr_left fun e he => (h.built e he).record

theorem RestoredAs.records_ascending (h : RestoredAs settings s w₀ l w₁ pairs) :
    (w₁.records l).Pairwise fun a b => a.qualifiedName < b.qualifiedName := by
  have hkey (e) (he : e ∈ (w₁.loader l).classes) : (w₁.recordClass e.2).qualifiedName = e.1 := by
    obtain ⟨p, hp, rfl⟩ := List.mem_map.mp (h.classes.mem_iff.mp he)
    show (w₁.recordClass p.2).qualifiedName = p.1.qualifiedName
    rw [(h.built p hp).record]; rfl
  have heq : w₁.records l = (w₁.loader l).classes.map fun e => w₁.recordClass e.2 := by
    simp [World.records, Registry.values]
  rw [heq, List.pairwise_map]
  exact h.sorted.imp_of_mem fun ha hb hlt => by rwa [hkey _ ha, hkey _ hb]

/-- The loader holds the classes of the snapshot in order, what their marks hide included. -/
theorem RestoredAs.records (h : RestoredAs settings s w₀ l w₁ pairs) : w₁.records l = s.records := by
  refine eq_of_perm_of_ascending (h.records_perm.trans ((inOrder_perm s.classes).map _).symm)
    h.records_ascending ?_
  exact List.pairwise_map.mpr (inOrder_ascending h.distinct)

theorem RestoredAs.snapshot (h : RestoredAs settings s w₀ l w₁ pairs) : w₁.snapshot l = s.normal := by
  rw [snapshot_eq, h.records]; rfl

end

/-! ## The order of the classes -/

theorem WellFormed.perm {t : Snapshot} (hp : s.classes.Perm t.classes) (h : s.WellFormed settings) :
    t.WellFormed settings where
  accepted := h.accepted
  definable x hx := h.definable x (hp.mem_iff.mpr hx)
  distinct := (hp.map _).nodup_iff.mp h.distinct
  fillable x hx := h.fillable x (hp.mem_iff.mpr hx)

theorem wellFormed_iff_of_perm {t : Snapshot} (hp : s.classes.Perm t.classes) :
    s.WellFormed settings ↔ t.WellFormed settings := ⟨.perm hp, .perm hp.symm⟩

theorem records_of_perm {t : Snapshot} (hd : (s.classes.map (·.qualifiedName)).Nodup)
    (hp : s.classes.Perm t.classes) : s.records = t.records := by
  have : inOrder s.classes = inOrder t.classes :=
    eq_of_perm_of_ascending ((inOrder_perm _).trans (hp.trans (inOrder_perm _).symm)) (inOrder_ascending hd)
      (inOrder_ascending ((hp.map _).nodup_iff.mp hd))
  unfold Snapshot.records
  rw [this]

/-- Restoring goes through exactly for well-formed snapshots, and what is restored is their normal
form, in whatever order the classes are. -/
theorem restore_normalizes (settings : Settings) (s : Snapshot) (w₀ : World) :
    ((∃ l w, restore settings s w₀ = (.ok l, w)) ↔ s.WellFormed settings) ∧
      (∀ l w, restore settings s w₀ = (.ok l, w) → w.snapshot l = s.normal ∧ w.records l = s.records) ∧
      ∀ (t : Snapshot) (v₀ : World), s.classes.Perm t.classes →
        ((∃ l w, restore settings s w₀ = (.ok l, w)) ↔ ∃ m v, restore settings t v₀ = (.ok m, v)) ∧
        ∀ l w m v, restore settings s w₀ = (.ok l, w) → restore settings t v₀ = (.ok m, v) →
          w.snapshot l = v.snapshot m ∧ w.records l = v.records m ∧ (w.loader l).settings = (v.loader m).settings := by
  have hs := restore_accepts settings s w₀
  refine ⟨hs.ok_iff, fun l w h => ?_, fun t v₀ hp => ?_⟩
  · obtain ⟨-, pairs, hr⟩ := hs.of_ok h
    exact ⟨hr.snapshot, hr.records⟩
  · have ht := restore_accepts settings t v₀
    refine ⟨?_, fun l w m v hl hm => ?_⟩
    · rw [hs.ok_iff, ht.ok_iff, wellFormed_iff_of_perm hp]
    · obtain ⟨hwf, pairs, hr⟩ := hs.of_ok hl
      obtain ⟨-, pairs', hr'⟩ := ht.of_ok hm
      have hrec : s.records = t.records := records_of_perm hwf.distinct hp
      refine ⟨?_, ?_, ?_⟩
      · rw [hr.snapshot, hr'.snapshot, normal, normal, hrec]
      · rw [hr.records, hr'.records, hrec]
      · rw [hr.loader, hr'.loader]

end

end Snapshot

end ClassModel
