import ClassModel.Proofs.Graph.Acts
import ClassModel.Proofs.Graph.Supertypes

/-!
# What is held lasts

Whatever something holds that is there is there as well, as long as nobody takes hold of what is gone. A caller can
only do so with a class that is gone already; the program of a source can with any class that it does not get from
its loader.
-/

namespace ClassModel

open Change Relation

/-- If it is handed nothing that is lost, the program takes hold of nothing that is lost. -/
def Program.Minds (lost : List Object) : Program → Prop
  | .answer found => ∀ c ∈ found, .node c ∉ lost
  | .define _ _ _ next | .create _ _ _ _ next => ∀ r, (∀ c, r = .ok c → .node c ∉ lost) → (next r).Minds lost
  | .edit e next => (∀ c ∈ e.direct?, .node c ∉ lost) ∧ ∀ r, (next r).Minds lost
  | .lookup _ next | .lookupDefault _ next => ∀ found, (∀ c ∈ found, .node c ∉ lost) → (next found).Minds lost
  | .load _ next | .placeholder _ next => ∀ c, .node c ∉ lost → (next c).Minds lost
  | .classes next => ∀ cs, (∀ c ∈ cs, .node c ∉ lost) → (next cs).Minds lost
  | .inspect _ next => ∀ n, (next n).Minds lost

def Source.Minds (lost : List Object) (s : Source) : Prop := ∀ asked name, (s.program asked name).Minds lost

structure Loader.Minds (lost : List Object) (x : Loader) : Prop where
  held : ∀ c ∈ x.held, .node c ∉ lost
  sources : ∀ s ∈ x.sources, s.Minds lost

def Target.Spares (lost : List Object) (t : Target) : Prop := ∀ c, t = .direct c → .node c ∉ lost

theorem Target.spares_qualified {lost : List Object} (name : String) (c : ClassId) : (qualified name c).Spares lost :=
  nofun

theorem Target.spares_unqualified {lost : List Object} (name : String) (c : ClassId) :
    (unqualified name c).Spares lost := nofun

def ClassNode.holds (n : ClassNode) : List Object :=
  (n.superclass.toList.map .reference) ++ (n.interfaces.map .reference) ++ (n.fields.map .field) ++
    (n.methods.map .method) ++ n.constructors.map .constructor

theorem ClassNode.mem_holds {n : ClassNode} {p : Object} : p ∈ n.holds ↔ (∃ r ∈ n.superclass, .reference r = p) ∨
    (∃ r ∈ n.interfaces, .reference r = p) ∨ (∃ f ∈ n.fields, .field f = p) ∨ (∃ m ∈ n.methods, .method m = p) ∨
      ∃ k ∈ n.constructors, .constructor k = p := by
  simp [holds]

namespace World

/-- What something holds that is there is there as well. -/
def Intact (w : World) : Prop := ∀ o, w.Has o → w.isAlive o → ∀ p ∈ w.holds o, w.isAlive p

/-- Just these objects are gone. Nothing that is there holds one of them, and no source takes hold of one. -/
structure Whole (lost : List Object) (w : World) : Prop where
  gone : w.gone = lost
  had : ∀ o ∈ lost, w.Has o
  holds : ∀ o, w.Has o → o ∉ lost → ∀ p ∈ w.holds o, p ∉ lost
  minds : ∀ l, .loader l ∉ lost → ∀ s ∈ (w.loader l).sources, s.Minds lost

section
variable {lost : List Object} {w w' : World}

theorem isAlive_iff {o : Object} : w.isAlive o ↔ o ∉ w.gone := by simp [isAlive]

theorem Whole.intact (h : w.Whole lost) : w.Intact := fun o ho halive p hp => by
  rw [isAlive_iff, h.gone] at halive ⊢
  exact h.holds o ho halive p hp

theorem Whole.new {o : Object} (h : w.Whole lost) (ho : ¬ w.Has o) : o ∉ lost := fun hg => ho (h.had o hg)

theorem Whole.nextReference (h : w.Whole lost) : .reference w.nextReference ∉ lost := h.new (Nat.lt_irrefl _)

/-! ## Worlds that are added to -/

theorem Has.extends {o : Object} (h : w.Has o) (he : w.Extends w') : w'.Has o := h.keeps (.ofExtends he)

theorem holds_of_extends {o : Object} (h : w.Has o) (he : w.Extends w') : w'.holds o = w.holds o := by
  cases o with
  | node c => simp only [holds, show w'.node c = w.node c from he.nodes.get_eq _ h]
  | field f => simp only [holds, show w'.field f = w.field f from he.fields.get_eq _ h]
  | method m => simp only [holds, show w'.method m = w.method m from he.methods.get_eq _ h]
  | constructor k => simp only [holds, show w'.constructor k = w.constructor k from he.constructors.get_eq _ h]
  | reference r => simp only [holds, show w'.reference r = w.reference r from he.references.get_eq _ h]
  | loader l => simp only [holds, show w'.loader l = w.loader l from he.loaders.get_eq _ h]
  | directory d => simp only [holds, directory, he.directories]

/-- What is new holds only what is there. -/
theorem Whole.extends (h : w.Whole lost) (he : w.Extends w')
    (hholds : ∀ o, w'.Has o → ¬ w.Has o → ∀ p ∈ w'.holds o, p ∉ lost)
    (hminds : ∀ l, w'.Has (.loader l) → ¬ w.Has (.loader l) → ∀ s ∈ (w'.loader l).sources, s.Minds lost) :
    w'.Whole lost where
  gone := he.gone.trans h.gone
  had o ho := (h.had o ho).extends he
  holds o ho halive p hp := by
    by_cases hold : w.Has o
    · rw [holds_of_extends hold he] at hp
      exact h.holds o hold halive p hp
    · exact hholds o ho hold p hp
  minds l hl s hs := by
    by_cases hold : w.Has (.loader l)
    · rw [show w'.loader l = w.loader l from he.loaders.get_eq _ hold] at hs
      exact h.minds l hl s hs
    · by_cases hlt : w'.Has (.loader l)
      · exact hminds l hlt hold s hs
      · rw [show w'.loader l = default from Store.get_of_size_le _ (Nat.not_lt.mp hlt)] at hs
        cases hs

theorem eq_of_has_push {α : Type} {s : Store α} {x : α} {i : Nat} (h : i < (s.push x).size) (hn : ¬ i < s.size) :
    i = s.size := by
  rw [Store.size_push] at h
  omega

theorem Whole.withNode (h : w.Whole lost) {n : ClassNode} (hn : n.holds = []) : (w.withNode n).Whole lost := by
  refine h.extends ⟨.push _ _, .refl _, .refl _, .refl _, .refl _, .refl _, rfl, rfl⟩ (fun o ho hold p hp => ?_)
    fun l hl hold => (hold hl).elim
  cases o with
  | node c =>
    obtain rfl : c = w.nextClass := congrArg ClassId.mk (eq_of_has_push ho hold)
    have hnode : (w.withNode n).holds (.node w.nextClass) = n.holds :=
      congrArg ClassNode.holds (Store.get_push_self w.nodes n)
    rw [hnode, hn] at hp
    cases hp
  | _ => exact (hold ho).elim

theorem Whole.withReference (h : w.Whole lost) {t : Target} (ht : t.Spares lost) : (w.withReference t).Whole lost := by
  refine h.extends ⟨.refl _, .refl _, .refl _, .refl _, .push _ _, .refl _, rfl, rfl⟩ (fun o ho hold p hp => ?_)
    fun l hl hold => (hold hl).elim
  cases o with
  | reference r =>
    obtain rfl : r = w.nextReference := congrArg RefId.mk (eq_of_has_push ho hold)
    rw [World.holds, reference_next] at hp
    cases t with
    | direct c =>
      obtain rfl : p = .node c := by simpa [Reference.known?] using hp
      exact ht c rfl
    | qualified name c => cases hp
    | unqualified name c => cases hp
  | _ => exact (hold ho).elim

theorem Whole.withField (h : w.Whole lost) {x : Field} (hx : .reference x.type ∉ lost) :
    (w.withField x).Whole lost := by
  refine h.extends ⟨.refl _, .push _ _, .refl _, .refl _, .refl _, .refl _, rfl, rfl⟩ (fun o ho hold p hp => ?_)
    fun l hl hold => (hold hl).elim
  cases o with
  | field f =>
    obtain rfl : f = w.nextField := congrArg FieldId.mk (eq_of_has_push ho hold)
    rw [World.holds, show (w.withField x).field w.nextField = x from Store.get_push_self _ _,
      List.mem_singleton] at hp
    rwa [hp]
  | _ => exact (hold ho).elim

theorem Whole.withMethod (h : w.Whole lost) {x : Method} (hx : .reference x.returnType ∉ lost)
    (hps : x.parameters.list = []) : (w.withMethod x).Whole lost := by
  refine h.extends ⟨.refl _, .refl _, .push _ _, .refl _, .refl _, .refl _, rfl, rfl⟩ (fun o ho hold p hp => ?_)
    fun l hl hold => (hold hl).elim
  cases o with
  | method m =>
    obtain rfl : m = w.nextMethod := congrArg MethodId.mk (eq_of_has_push ho hold)
    rw [World.holds, show (w.withMethod x).method w.nextMethod = x from Store.get_push_self _ _, memberTypes, hps,
      List.map_nil, List.mem_singleton] at hp
    rwa [hp]
  | _ => exact (hold ho).elim

theorem Whole.withConstructor (h : w.Whole lost) {x : Constructor} (hps : x.parameters.list = []) :
    (w.withConstructor x).Whole lost := by
  refine h.extends ⟨.refl _, .refl _, .refl _, .push _ _, .refl _, .refl _, rfl, rfl⟩ (fun o ho hold p hp => ?_)
    fun l hl hold => (hold hl).elim
  cases o with
  | constructor k =>
    obtain rfl : k = w.nextConstructor := congrArg ConstructorId.mk (eq_of_has_push ho hold)
    rw [World.holds, show (w.withConstructor x).constructor w.nextConstructor = x from Store.get_push_self _ _,
      memberTypes, hps] at hp
    cases hp
  | _ => exact (hold ho).elim

theorem Whole.withLoader (h : w.Whole lost) (settings : Settings) {sources : List Source}
    (hs : ∀ s ∈ sources, s.Minds lost) : (w.withLoader settings sources).Whole lost := by
  have hspec := withLoader_spec w settings sources
  have hnext {l : LoaderId} (hl : (w.withLoader settings sources).Has (.loader l)) (hold : ¬ w.Has (.loader l)) :
      l = w.nextLoader := by
    have hlt : l.index < w.loaders.size + 1 := hspec.size ▸ hl
    cases l
    simp only [Has, nextLoader, LoaderId.mk.injEq] at hold hlt ⊢
    omega
  refine h.extends (extends_withLoader w settings sources) (fun o ho hold p hp => ?_) fun l hl hold s hmem => ?_
  · cases o with
    | node c =>
      obtain ⟨nk, -, hn⟩ := hspec.added c (Nat.not_lt.mp hold) ho
      rw [World.holds, hn] at hp
      cases hp
    | loader l =>
      cases hnext ho hold
      rw [World.holds, hspec.self] at hp
      obtain ⟨c, hc, rfl⟩ := List.mem_map.mp hp
      simp only [Registry.values, List.map_nil, List.append_nil] at hc
      obtain ⟨e, he, rfl⟩ := List.mem_map.mp hc
      exact h.new (Nat.not_lt.mpr (hspec.fresh e he))
    | _ => exact (hold (by rw [hspec.rest] at ho; exact ho)).elim
  · cases hnext hl hold
    rw [hspec.self] at hmem
    exact hs s hmem

/-! ## Worlds that are changed -/

/-- What is newly held is there. -/
theorem Whole.step (h : w.Whole lost) (hgone : w'.gone = w.gone) (hhas : ∀ o, w'.Has o ↔ w.Has o)
    (hloaders : ∀ l, (w'.loader l).sources = (w.loader l).sources)
    (hholds : ∀ o, ∀ p ∈ w'.holds o, p ∈ w.holds o ∨ p ∉ lost) : w'.Whole lost where
  gone := hgone.trans h.gone
  had o ho := (hhas o).mpr (h.had o ho)
  holds o ho halive p hp := (hholds o p hp).elim (h.holds o ((hhas o).mp ho) halive p) id
  minds l hl s hs := h.minds l hl s (by rwa [← hloaders])

theorem Whole.editNode (h : w.Whole lost) {c : ClassId} {f : ClassNode → ClassNode}
    (hf : ∀ p ∈ (f (w.node c)).holds, p ∈ (w.node c).holds ∨ p ∉ lost) : (w.editNode c f).Whole lost := by
  refine h.step rfl (fun o => by cases o <;> simp [Has, World.editNode]) (fun _ => rfl) fun o p hp => ?_
  cases o with
  | node d =>
    have hnode : (w.editNode c f).holds (.node d) = ((w.editNode c f).node d).holds := rfl
    rw [hnode, node_editNode] at hp
    split at hp
    · rename_i hd
      obtain ⟨rfl, -⟩ := hd
      exact hf p hp
    · exact .inl hp
  | _ => exact .inl hp

theorem Whole.editField (h : w.Whole lost) {i : FieldId} {f : Field → Field}
    (hf : ∀ x, (f x).type = x.type ∨ .reference (f x).type ∉ lost) : (w.editField i f).Whole lost := by
  refine h.step rfl (fun o => by cases o <;> simp [Has, World.editField]) (fun _ => rfl) fun o p hp => ?_
  cases o with
  | field j =>
    rw [World.holds, field_editField, List.mem_singleton] at hp
    rw [World.holds, List.mem_singleton]
    split at hp
    · rw [hp]
      exact (hf (w.field j)).imp (fun he => by rw [he]) id
    · exact .inl hp
  | _ => exact .inl hp

theorem Whole.editMethod (h : w.Whole lost) {m : MethodId} {f : Method → Method}
    (hreturn : ∀ x, (f x).returnType = x.returnType ∨ .reference (f x).returnType ∉ lost)
    (hps : ∀ p ∈ memberTypes (f (w.method m)).parameters, p ∈ memberTypes (w.method m).parameters ∨ p ∉ lost) :
    (w.editMethod m f).Whole lost := by
  refine h.step rfl (fun o => by cases o <;> simp [Has, World.editMethod]) (fun _ => rfl) fun o p hp => ?_
  cases o with
  | method j =>
    rw [World.holds, method_editMethod] at hp
    rw [World.holds]
    split at hp
    · rename_i hj
      obtain ⟨rfl, -⟩ := hj
      rcases List.mem_cons.mp hp with rfl | hp
      · exact (hreturn (w.method m)).imp (fun he => by rw [he]; exact List.mem_cons_self) id
      · exact (hps p hp).imp (List.mem_cons_of_mem _) id
    · exact .inl hp
  | _ => exact .inl hp

theorem Whole.editConstructor (h : w.Whole lost) {k : ConstructorId} {f : Constructor → Constructor}
    (hps : ∀ p ∈ memberTypes (f (w.constructor k)).parameters,
      p ∈ memberTypes (w.constructor k).parameters ∨ p ∉ lost) : (w.editConstructor k f).Whole lost := by
  refine h.step rfl (fun o => by cases o <;> simp [Has, World.editConstructor]) (fun _ => rfl) fun o p hp => ?_
  cases o with
  | constructor j =>
    rw [World.holds, constructor_editConstructor] at hp
    rw [World.holds]
    split at hp
    · rename_i hj
      obtain ⟨rfl, -⟩ := hj
      exact hps p hp
    · exact .inl hp
  | _ => exact .inl hp

theorem Whole.remember (h : w.Whole lost) (r : RefId) {c : ClassId} (hc : .node c ∉ lost) :
    (w.editReference r fun x => { x with memo := some c }).Whole lost := by
  refine h.step rfl (fun o => by cases o <;> simp [Has, World.editReference]) (fun _ => rfl) fun o p hp => ?_
  cases o with
  | reference q =>
    rw [World.holds, reference_remember] at hp
    rw [World.holds]
    split at hp
    · unfold Reference.known? at hp ⊢
      cases ht : (w.reference q).target with
      | direct d => rw [ht] at hp; exact .inl hp
      | qualified name d | unqualified name d =>
        rw [ht] at hp
        obtain rfl : p = .node c := by simpa using hp
        exact .inr hc
    · exact .inl hp
  | _ => exact .inl hp

theorem Whole.editLoader (h : w.Whole lost) {l : LoaderId} {f : Loader → Loader}
    (hs : ∀ x, (f x).sources = x.sources) (hf : ∀ c ∈ (f (w.loader l)).held, c ∈ (w.loader l).held ∨ .node c ∉ lost) :
    (w.editLoader l f).Whole lost := by
  refine h.step rfl (fun o => by cases o <;> simp [Has, World.editLoader]) (fun k => ?_) fun o p hp => ?_
  · obtain ⟨rfl, -, hk⟩ | hk := w.loader_editLoader_cases k l f <;> rw [hk]
    exact hs _
  · cases o with
    | loader k =>
      obtain ⟨c, hc, rfl⟩ := List.mem_map.mp hp
      obtain ⟨rfl, -, hk⟩ | hk := w.loader_editLoader_cases k l f <;> rw [hk] at hc
      · exact (hf c hc).imp (fun hc => List.mem_map.mpr ⟨c, hc, rfl⟩) id
      · exact .inl (List.mem_map.mpr ⟨c, hc, rfl⟩)
    | _ => exact .inl hp

theorem Whole.withDirectory (h : w.Whole lost) {x : Directory} (htable : ∀ c ∈ x.table.values, .node c ∉ lost)
    (hinner : ∀ l ∈ x.inner, .loader l ∉ lost) : (Step.addDirectory x w).2.Whole lost where
  gone := h.gone
  had o ho := by
    have hhas := h.had o ho
    cases o with
    | directory d => exact Nat.lt_of_lt_of_le hhas (by simp [Step.addDirectory])
    | _ => exact hhas
  holds o ho halive p hp := by
    cases o with
    | directory d =>
      have hget : (Step.addDirectory x w).2.directory d = if d.index = w.directories.size then x else w.directory d :=
        Store.get_push _ _ _
      rw [World.holds, hget] at hp
      split at hp
      · rcases List.mem_append.mp hp with hp | hp
        · obtain ⟨c, hc, rfl⟩ := List.mem_map.mp hp
          exact htable c hc
        · obtain ⟨l, hl, rfl⟩ := List.mem_map.mp hp
          exact hinner l (Option.mem_toList.mp hl)
      · rename_i hd
        have hlt : d.index < w.directories.size + 1 := by simpa [Has, Step.addDirectory] using ho
        exact h.holds (.directory d) (show d.index < _ by omega) halive p hp
    | _ => exact h.holds _ (by exact ho) halive p hp
  minds := h.minds

theorem Whole.record (h : w.Whole lost) (d : DirectoryId) (p : Probe) : (Directory.record d p w).2.Whole lost := by
  refine h.step rfl (fun o => by cases o <;> simp [Has, Directory.record, Step.onDirectory]) (fun _ => rfl)
    fun o q hq => ?_
  cases o with
  | directory k =>
    have hget : (Directory.record d p w).2.directory k = if d.index = k.index ∧ k.index < w.directories.size then
        { w.directory k with probes := p :: (w.directory k).probes } else w.directory k := Store.get_modify _ _ _ _
    rw [World.holds, hget] at hq
    split at hq <;> exact .inl hq
  | _ => exact .inl hq

theorem Whole.log (h : w.Whole lost) (e : Log.Event) : (Step.log e w).2.Whole lost := ⟨h.gone, h.had, h.holds, h.minds⟩

/-! ## Loaders -/

theorem Whole.loader (h : w.Whole lost) {l : LoaderId} (hl : .loader l ∉ lost) : (w.loader l).Minds lost := by
  refine ⟨fun c hc => ?_, h.minds l hl⟩
  by_cases hhas : w.Has (.loader l)
  · exact h.holds _ hhas hl _ (List.mem_map.mpr ⟨c, hc, rfl⟩)
  · rw [show w.loader l = default from Store.get_of_size_le _ (Nat.not_lt.mp hhas)] at hc
    cases hc

theorem Whole.nextClass (h : w.Whole lost) : .node w.nextClass ∉ lost := h.new (Nat.lt_irrefl _)

theorem Whole.asking (h : w.Whole lost) (l : LoaderId) (f : List String → List String)
    (g : List (Nat × String) → List (Nat × String)) :
    (w.editLoader l fun x => { x with loading := f x.loading, asked := g x.asked }).Whole lost :=
  h.editLoader (fun _ => rfl) fun _ hc => .inl hc

theorem Whole.register (h : w.Whole lost) (l : LoaderId) (name : String) {c : ClassId} (hc : .node c ∉ lost) :
    (w.editLoader l fun x => { x with classes := x.classes.insertNew name c }).Whole lost := by
  refine h.editLoader (fun _ => rfl) fun d hd => ?_
  rw [Loader.mem_held] at hd ⊢
  rcases hd with hd | hd | hd
  · exact .inl (.inl hd)
  · exact (Registry.mem_values_insertNew hd).elim (fun he => .inr (he ▸ hc)) fun hd => .inl (.inr (.inl hd))
  · exact .inl (.inr (.inr hd))

theorem Whole.placeholder (h : w.Whole lost) (l : LoaderId) (name : String) :
    (Loader.placeholder l name w).2.Whole lost := by
  rw [placeholder_run]
  cases (w.loader l).placeholders.get? name with
  | some c => exact h
  | none =>
    refine (h.withNode rfl).editLoader (fun _ => rfl) fun d hd => ?_
    rw [Loader.mem_held] at hd ⊢
    rcases hd with hd | hd | hd
    · exact .inl (.inl hd)
    · exact .inl (.inr (.inl hd))
    · exact (Registry.mem_values_insert hd).elim (fun he => .inr (he ▸ h.nextClass)) fun hd => .inl (.inr (.inr hd))

theorem Whole.placeholder_there (h : w.Whole lost) {l : LoaderId} (hl : .loader l ∉ lost) (name : String) :
    .node (Loader.placeholder l name w).1 ∉ lost := by
  rw [placeholder_run]
  cases hp : (w.loader l).placeholders.get? name with
  | some c => exact (h.loader hl).held c (mem_held_of_standIn? hp)
  | none => exact h.nextClass

theorem Whole.withDefined (h : w.Whole lost) (l : LoaderId) (package simpleName : String) (imports : List Import) :
    (w.withDefined l package simpleName imports).Whole lost := by
  have hnode : (w.withNode { ClassNode.bare package simpleName .declared (some (.loader l)) (w.loader l).settings with
      imports := imports }).Whole lost := h.withNode rfl
  suffices (World.editLoader _ l fun x => { x with
      classes := x.classes.insert (Name.qualify package simpleName) w.nextClass
      placeholders := x.placeholders.erase (Name.qualify package simpleName) }).Whole lost from this.log (.defined _)
  refine hnode.editLoader (fun _ => rfl) fun d hd => ?_
  rw [Loader.mem_held] at hd ⊢
  rcases hd with hd | hd | hd
  · exact .inl (.inl hd)
  · exact (Registry.mem_values_insert hd).elim (fun he => .inr (he ▸ h.nextClass)) fun hd => .inl (.inr (.inl hd))
  · obtain ⟨name, hd⟩ := Registry.mem_values.mp hd
    exact .inl (.inr (.inr (Registry.mem_values.mpr ⟨name, (Registry.mem_erase.mp hd).1⟩)))

/-! ## Letting go -/

theorem whole_empty : World.empty.Whole [] :=
  ⟨rfl, nofun, fun o ho => by cases o <;> exact (Nat.not_lt_zero _ ho).elim, fun _ _ _ hs => by cases hs⟩

/-- Whatever is let go, what is held stays. -/
theorem Whole.release (h : w.Whole w.gone) {outside : List Object} (hminds : ∀ l,
      .loader l ∉ (w.release outside).gone → ∀ s ∈ (w.loader l).sources, s.Minds (w.release outside).gone) :
    (w.release outside).Whole (w.release outside).gone where
  gone := rfl
  had o ho := by
    rcases mem_gone_release.mp ho with hg | ⟨hpresent, -⟩
    · exact h.had o hg
    · exact has_of_mem_objects (List.mem_filter.mp hpresent).1
  holds o ho hstays p hp := by
    have hbefore : o ∉ w.gone := fun hg => hstays (mem_gone_release.mpr (.inl hg))
    exact not_mem_gone_release hp ho hstays (h.holds o ho hbefore p hp)
  minds := hminds

/-- `lasting` by lists alone, which can be evaluated. -/
def lastingAmong (w : World) (outside : List Object) : Nat → List Object → List Object
  | 0, present => present
  | n + 1, present =>
    let kept := present.filter fun o => (outside ++ present.flatMap w.holds).contains o
    if kept.length = present.length then present else lastingAmong w outside n kept

theorem lasting_eq (w : World) (outside : List Object) : ∀ n present,
    w.lasting outside n present = w.lastingAmong outside n present
  | 0, _ => rfl
  | n + 1, present => by
    have hkept : w.stillHeld outside present =
        present.filter fun o => (outside ++ present.flatMap w.holds).contains o :=
      List.filter_congr fun _ _ => Std.HashSet.contains_ofList
    rw [lasting, lastingAmong, hkept, lasting_eq w outside n]

theorem release_eq (w : World) (outside : List Object) : w.release outside = { w with
    gone := w.gone ++ (w.objects.filter w.isAlive).filter fun o =>
      !(w.lastingAmong outside (w.objects.filter w.isAlive).length (w.objects.filter w.isAlive)).contains o } := by
  simp only [World.release, lasting_eq, Std.HashSet.contains_ofList]

end

end World

end ClassModel
