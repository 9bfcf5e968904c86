import ClassModel.Proofs.Graph.Acts
import ClassModel.Snapshot.Capture

/-!
# Calls

What there is to ask of a model and to do to it. A run is any number of calls, with whatever somebody
else's lookup may answer in between. A reference resolves once in a run, and a change that is refused
has changed nothing.
-/

namespace ClassModel

open Change Relation

inductive TypePlace where
  | field (f : FieldId)
  | returned (m : MethodId)
  | parameters (m : MethodId)
  | constructorParameters (k : ConstructorId)

/-- What can be asked about a model. Inherited fields and methods are flattened members of a kind. -/
inductive Query where
  | lookup (k : Collaborator) (name : String)
  | lookupDefault (k : Collaborator) (name : String)
  | load (l : LoaderId) (name : String)
  | forName (c : ClassId) (name : String)
  | resolve (r : RefId)
  | qualifiedName (r : RefId)
  | superclass (c : ClassId)
  | interfaces (c : ClassId)
  | flatten (c : ClassId) (kind : MemberKind)
  | tryFlatten (c : ClassId) (kind : MemberKind)
  | isAssignableFrom (target other : ClassId)
  | tryIsAssignableFrom (target other : ClassId)
  | types (p : TypePlace)
  | classes (l : LoaderId)
  | snapshot (l : LoaderId)

inductive Answer where
  | found (c : Option ClassId)
  | classes (cs : List ClassId)
  | name (text : String)
  | members (r : Except ModelError (List Member))
  | assignable (r : Except ModelError Bool)
  | snapshot (s : Snapshot)

inductive Mutation where
  | define (l : LoaderId) (package simpleName : String) (imports : List Import)
  | edit (e : Edit)
  | removeInterface (c : ClassId) (name : String)
  | removeInterfaceClass (c d : ClassId)

def World.typesAt (w : World) : TypePlace → List RefId
  | .field f => [(w.field f).type]
  | .returned m => [(w.method m).returnType]
  | .parameters m => (w.method m).parameters.list.map (·.type)
  | .constructorParameters k => (w.constructor k).parameters.list.map (·.type)

namespace Query

def ask : Query → Step Answer
  | lookup k name => .found <$> k.lookup name
  | lookupDefault k name => .found <$> k.lookupDefault name
  | load l name => (.found ∘ some) <$> Loader.load l name
  | forName c name => (.found ∘ some) <$> c.forName name
  | resolve r => (.found ∘ some) <$> r.resolve
  | qualifiedName r => .name <$> r.qualifiedName
  | superclass c => .found <$> c.superclass
  | interfaces c => .classes <$> c.interfaces
  | flatten c kind => (.members ∘ .ok) <$> c.flatten kind
  | tryFlatten c kind => .members <$> (c.tryFlatten kind).run
  | isAssignableFrom target other => (.assignable ∘ .ok) <$> target.isAssignableFrom other
  | tryIsAssignableFrom target other => .assignable <$> (target.tryIsAssignableFrom other).run
  | types p => do
    let rs ← Step.see (·.typesAt p)
    .classes <$> RefId.resolveAll rs
  | classes l => .classes <$> Step.see fun w => (w.loader l).classes.values
  | snapshot l => .snapshot <$> Step.see (·.snapshot l)

def Placed (w : World) : Query → Prop
  | resolve r => w.Placed r
  | qualifiedName r => w.Placed r
  | types p => ∀ r ∈ w.typesAt p, w.Placed r
  | _ => True

end Query

def Mutation.run : Mutation → Change Unit
  | define l package simpleName imports => do let _ ← Loader.define l package simpleName imports
  | edit e => do let _ ← e.apply
  | removeInterface c name => c.removeInterface name
  | removeInterfaceClass c d => do c.removeInterface (← Change.see (·.nameOf d))

namespace World

/-- One call, or the end of resolving a name that somebody else looks up, which may be with any class. -/
inductive Does : World → World → Prop
  | makeLoader (w : World) (settings : Settings) (sources : List Source) : Does w (Loader.make settings sources w).2
  | makeDirectory (w : World) (d : Directory) : Does w (Step.addDirectory d w).2
  | create (w : World) (package simpleName : String) (lookup : Option Collaborator) (settings : Settings) :
      Does w (createClass package simpleName lookup settings w).2
  | refer {w : World} (t : Target) : (∀ c, t.context? = some c → c.index < w.nodes.size) →
      Does w (Step.addReference t w).2
  | mutate (w : World) (m : Mutation) : Does w (m.run w).2
  | ask {w : World} {q : Query} : q.Placed w → Does w (q.ask w).2
  | placeholder (w : World) (k : Collaborator) (name : String) : Does w (k.placeholder name w).2
  | resolveName (w : World) (x : Context) (name : String) : Does w (x.resolve name w).2
  | restore (w : World) (settings : Settings) (s : Snapshot) : Does w (s.restore settings w).2
  | release (w : World) (outside : List Object) : Does w (w.release outside)
  | foreign {w : World} {r : RefId} {d : ClassId} {k : DirectoryId} (c : ClassId) : w.Placed r →
      (w.reference r).known? = none → (w.reference r).target.context? = some d →
      (w.node d).lookup = some (.directory k) → Does w (w.editReference r fun x => { x with memo := some c })

abbrev Run : World → World → Prop := ReflTransGen Does

end World

open World

/-! ## Every call acts -/

theorem Mutation.within {R : World → World → Prop} [IsPreorder World R] (h : Walking R)
    (define : ∀ l package simpleName imports, Within R (Loader.define l package simpleName imports))
    (edit : ∀ e : Edit, Within R e.apply) (m : Mutation) : Within R m.run := by
  cases m with
  | define l package simpleName imports => exact .bindChange (define l package simpleName imports) fun _ => .accept ()
  | edit e => exact .bindChange (edit e) fun _ => .accept ()
  | removeInterface c name => exact h.removeInterface c name
  | removeInterfaceClass c d => exact .bindChange (.of (.see _)) fun name => h.removeInterface c name

theorem Mutation.proceeds (m : Mutation) : Within Proceeds m.run :=
  m.within Proceeds.walking
    (fun l package simpleName imports => Proceeds.ofBuilds (Builds.define l package simpleName imports))
    fun e => Proceeds.ofBuilds (Builds.edit e)

theorem Query.proceeds {w : World} {q : Query} (hq : q.Placed w) : Proceeds w (q.ask w).2 := by
  cases q with
  | lookup k name => exact Proceeds.ofBuilds (Builds.finding.lookup name k) w
  | lookupDefault k name => exact Proceeds.ofBuilds (Builds.finding.lookupDefault name k) w
  | load l name => exact Proceeds.ofBuilds (Builds.finding.load l name) w
  | forName c name => exact Proceeds.ofBuilds (Builds.finding.forName c name) w
  | resolve r => exact fun _ => resolve_acts hq
  | qualifiedName r => exact fun _ => qualifiedName_acts hq
  | superclass c => exact Proceeds.walking.superclass c w
  | interfaces c => exact Proceeds.walking.interfaces c w
  | flatten c kind => exact Proceeds.walking.flatten c kind w
  | tryFlatten c kind => exact Proceeds.walking.tryFlatten c kind w
  | isAssignableFrom target other => exact Proceeds.walking.isAssignableFrom target other w
  | tryIsAssignableFrom target other => exact Proceeds.walking.tryIsAssignableFrom target other w
  | types p => exact fun _ => resolveAll_acts hq
  | classes l => exact refl_of Proceeds w
  | snapshot l => exact refl_of Proceeds w

namespace World

section
variable {w w' : World}

theorem Does.acts (h : Does w w') (hw : ∃ made, w.Sound made) : w.Acts w' := by
  cases h with
  | makeLoader settings sources => exact (Builds.make settings sources w).acts
  | makeDirectory d => exact (Builds.addDirectory d w).acts
  | create package simpleName lookup settings => exact (Builds.create package simpleName lookup settings w).acts
  | refer t ht => exact ((Move.refer ht).builds (.ofPush rfl)).acts
  | mutate m => exact m.proceeds w hw
  | ask hq => exact Query.proceeds hq hw
  | placeholder k name => exact (Builds.finding.collaboratorPlaceholder name k w).acts
  | resolveName x name => exact (Builds.finding.contextResolve x name w).acts
  | restore settings s => exact (Builds.restore settings s w).acts
  | release outside => exact ((Move.release w outside).builds (.ofSame rfl)).acts
  | foreign c hr hk hd hlookup =>
    -- The class has no loader to look the name up.
    refine (Acts.refl w).remember ⟨hr, hk, fun e he l hl => ?_, fun name e he l hl => ?_⟩
    · cases hd.symm.trans he
      cases hlookup.symm.trans hl
    · cases hd.symm.trans (congrArg Target.context? he)
      cases hlookup.symm.trans hl

theorem Run.sound (h : Run w w') (hw : ∃ made, w.Sound made) : ∃ made, w'.Sound made := by
  induction h with
  | refl => exact hw
  | tail _ hd ih => exact (hd.acts ih).sound ih

theorem soundEmpty : ∃ made, World.empty.Sound made := ⟨[], .empty⟩

theorem Run.keeps (h : Run w w') (hw : ∃ made, w.Sound made) : w.Keeps w' := by
  induction h with
  | refl => exact .refl w
  | tail hr hd ih => exact ih.trans (hd.acts (Run.sound hr hw)).keeps

theorem Run.acts (h : Run w w') (hw : ∃ made, w.Sound made) : w.Acts w' := by
  induction h with
  | refl => exact .refl w
  | tail hr hd ih => exact ih.trans (hd.acts (Run.sound hr hw))

/-- What holds at first and lasts whatever is built or remembered holds at the end of a run. -/
theorem Run.lasts {P : World → Prop} (h : Run w w') (hw : ∃ made, w.Sound made) (start : P w)
    (builds : ∀ {w w'}, P w → w.Builds w' → P w')
    (remember : ∀ {w r c}, P w → w.MayRemember r c → P (w.editReference r fun x => { x with memo := some c })) :
    P w' := by
  have ha := h.acts hw
  clear h hw
  induction ha with
  | refl => exact start
  | builds _ hb ih => exact builds ih hb
  | remember _ hm ih => exact remember ih hm

theorem Run.lastsMove {P : World → Prop} (h : Run w w') (hw : ∃ made, w.Sound made) (start : P w)
    (move : ∀ {w made w'}, P w → Move w made w' → P w') : P w' := by
  refine h.lasts hw start (fun hP hb => ?_) fun hP _ => move hP (.remember _ _ _)
  obtain ⟨made, hm⟩ := hb.moves
  clear hb
  induction hm with
  | refl => exact hP
  | tail _ hm ih => exact move ih hm

theorem Run.holds {P : World → Prop} (h : Run .empty w) (empty : P .empty)
    (move : ∀ {w made w'}, P w → Move w made w' → P w') : P w :=
  h.lastsMove soundEmpty empty move

/-! ## A reference resolves once -/

theorem Run.known? (h : Run w w') (hw : ∃ made, w.Sound made) {r : RefId} (hr : r.index < w.references.size)
    {c : ClassId} (hc : (w.reference r).known? = some c) : (w'.reference r).known? = some c :=
  (h.acts hw).known? hr hc

/-- In `w` the reference resolves to class `c`, and that leaves `w'`. A name that somebody else looks up
may resolve to any class, and anything may be done on the way but to resolve the reference. -/
inductive Resolves (w : World) (r : RefId) : ClassId → World → Prop
  | own : Resolves w r (r.resolve w).1 (r.resolve w).2
  | foreign {v : World} {d : ClassId} {k : DirectoryId} (c : ClassId) : (w.reference r).known? = none →
      (w.reference r).target.context? = some d → (w.node d).lookup = some (.directory k) → Run w v →
      (v.reference r).known? = none → Resolves w r c (v.editReference r fun x => { x with memo := some c })

theorem known?_remember {r : RefId} (hr : r.index < w.references.size) (hk : (w.reference r).known? = none)
    (c : ClassId) : ((w.editReference r fun x => { x with memo := some c }).reference r).known? = some c := by
  rw [reference_remember, if_pos ⟨rfl, hr⟩]
  unfold Reference.known? at hk ⊢
  cases ht : (w.reference r).target with
  | direct d => rw [ht] at hk; cases hk
  | qualified name d => rfl
  | unqualified name d => rfl

/-- A reference that has to be resolved is looked up, and then remembers what has been found. -/
theorem resolve_builds (w : World) (r : RefId) : (w.reference r).known? = some (r.resolve w).1 ∧ (r.resolve w).2 = w ∨
    (w.reference r).known? = none ∧ ∃ v, w.Builds v ∧
      (r.resolve w).2 = v.editReference r fun x => { x with memo := some (r.resolve w).1 } := by
  rw [resolve_run]
  cases hk : (w.reference r).known? with
  | some c => exact .inl ⟨rfl, rfl⟩
  | none =>
    refine .inr ⟨rfl, ?_⟩
    dsimp only
    cases ht : (w.reference r).target with
    | direct c => unfold Reference.known? at hk; rw [ht] at hk; cases hk
    | qualified name c => exact ⟨_, Builds.finding.findQualified name c w, rfl⟩
    | unqualified name c => exact ⟨_, Builds.finding.findUnqualified name c w, rfl⟩

/-- What a reference has been resolved to it knows, and no more has been done than in a run. -/
theorem Resolves.spec {r : RefId} {c : ClassId} (h : w.Resolves r c w') (hr : r.index < w.references.size)
    (hw : ∃ made, w.Sound made) :
    (w'.reference r).known? = some c ∧ r.index < w'.references.size ∧ ∃ made, w'.Sound made := by
  have hremember {v : World} (hv : w.Keeps v) (hs : ∃ made, v.Sound made) (hk : (v.reference r).known? = none) :
      ((v.editReference r fun x => { x with memo := some c }).reference r).known? = some c ∧
        r.index < (v.editReference r fun x => { x with memo := some c }).references.size ∧
        ∃ made, (v.editReference r fun x => { x with memo := some c }).Sound made := by
    have hlt := (hv.references r hr).1
    obtain ⟨made, hs⟩ := hs
    exact ⟨known?_remember hlt hk c, by show _ < (v.references.modify _ _).size; rwa [Store.size_modify],
      made, hs.editReference r fun _ => rfl⟩
  cases h with
  | own =>
    rcases resolve_builds w r with ⟨hk, he⟩ | ⟨hk, v, hb, he⟩
    · rw [he]
      exact ⟨hk, hr, hw⟩
    · rw [he]
      refine hremember hb.keeps (hb.acts.sound hw) ?_
      rw [show v.reference r = w.reference r from hb.references.kept.get_eq _ hr]
      exact hk
  | foreign c _ _ _ hrun hk => exact hremember (hrun.keeps hw) (hrun.sound hw) hk

/-- What a reference has been resolved to it resolves to after any number of calls, without anything
being done for it, and what has been resolved stays so. -/
theorem resolve_lasts {w w₁ w' : World} {r : RefId} {c : ClassId} (hw : Run .empty w)
    (hr : r.index < w.references.size) (h : w.Resolves r c w₁) (hrun : Run w₁ w') :
    r.resolve w' = (c, w') ∧ (∀ c' w'', w'.Resolves r c' w'' → c' = c ∧ w'' = w') ∧
      ∀ u, Run .empty u → Run u w' → ∀ q : RefId, q.index < u.references.size → (u.reference q).isResolved →
        (w'.reference q).isResolved := by
  obtain ⟨hk₁, hr₁, hs₁⟩ := h.spec hr (Run.sound hw soundEmpty)
  have hk : (w'.reference r).known? = some c := hrun.known? hs₁ hr₁ hk₁
  have hresolve : r.resolve w' = (c, w') := by rw [resolve_run, hk]
  refine ⟨hresolve, fun c' w'' h' => ?_, fun u hu hrun' q hq hres => ?_⟩
  · cases h' with
    | own => rw [hresolve]; exact ⟨rfl, rfl⟩
    | foreign _ hn => rw [hk] at hn; cases hn
  · obtain ⟨d, hd⟩ := Option.isSome_iff_exists.mp hres
    exact Option.isSome_iff_exists.mpr ⟨d, hrun'.known? (Run.sound hu soundEmpty) hq hd⟩

end

def changed (changes : List Mutation) : World := changes.foldl (fun w m => (m.run w).2) single

theorem run_changed (changes : List Mutation) : Run .empty (changed changes) := by
  have hall : ∀ {w : World}, Run .empty w → Run .empty (changes.foldl (fun w m => (m.run w).2) w) := by
    induction changes with
    | nil => exact fun hw => hw
    | cons m changes ih => exact fun hw => ih (hw.tail (.mutate _ m))
  exact hall (.single (.makeLoader _ .standard []))

def early : World :=
  ((Mutation.edit (.onClass ⟨10⟩ (.setSuperclass "p.B"))).run ((Mutation.define ⟨0⟩ "p" "A" []).run single).2).2

/-- The superclass that nobody had defined has been missed and then defined, and everything but the reference to it
has been let go. -/
def late : World :=
  ((Mutation.define ⟨0⟩ "p" "B" []).run ((⟨0⟩ : RefId).resolve early).2).2.release [.reference ⟨0⟩]

theorem run_early : Run .empty early :=
  .tail (.tail (.tail .refl (.makeLoader _ .standard [])) (.mutate _ _)) (.mutate _ _)

theorem early_resolve_lasts : Run .empty early ∧ 0 < early.references.size ∧
    early.Resolves ⟨0⟩ ⟨11⟩ ((⟨0⟩ : RefId).resolve early).2 ∧ Run ((⟨0⟩ : RefId).resolve early).2 late ∧
    (⟨0⟩ : RefId).resolve late = (⟨11⟩, late) := by
  have hr : 0 < early.references.size := by decide +kernel
  have hfirst : ((⟨0⟩ : RefId).resolve early).1 = ⟨11⟩ := by decide +kernel
  have hown : early.Resolves ⟨0⟩ ⟨11⟩ ((⟨0⟩ : RefId).resolve early).2 := by
    rw [← hfirst]
    exact .own
  have hrun : Run ((⟨0⟩ : RefId).resolve early).2 late := .tail (.tail .refl (.mutate _ _)) (.release _ _)
  exact ⟨run_early, hr, hown, hrun, (resolve_lasts run_early hr hown hrun).1⟩

end World

/-! ## A change that is refused has changed nothing -/

structure ClassNode.Plain (n : ClassNode) : Prop where
  superclass : n.superclass = none
  interfaces : n.interfaces = []
  fields : n.fields = []
  methods : n.methods = []

/-- The class is as it was made. Only those that a loader provides are not declared. -/
structure ClassNode.Fresh (n : ClassNode) : Prop extends n.Plain where
  constructors : n.constructors = []
  fieldsMade : n.fieldsMade = 0
  methodsMade : n.methodsMade = 0
  kind : n.kind = .declared ∨ (n.qualifiedName, n.kind) ∈ Loader.builtinKinds n.settings

theorem ClassNode.Fresh.declared {n : ClassNode} (h : n.Plain) (hk : n.constructors = []) (hf : n.fieldsMade = 0)
    (hm : n.methodsMade = 0) (hkind : n.kind = .declared) : n.Fresh := ⟨h, hk, hf, hm, .inl hkind⟩

theorem Loader.fresh_builtinNode {l : LoaderId} {settings : Settings} (hs : settings.Sound) {name : String}
    {kind : TypeKind} (h : (name, kind) ∈ Loader.builtinKinds settings) :
    (Loader.builtinNode l settings name kind).Fresh := by
  refine ⟨⟨rfl, rfl, rfl, rfl⟩, rfl, rfl, rfl, .inr ?_⟩
  have hname := Loader.isClassName_of_builtin hs (Loader.isBuiltinName_iff.mpr ⟨kind, h⟩)
  rwa [show (Loader.builtinNode l settings name kind).qualifiedName = name from
    Name.qualify_packageOf_simpleNameOf hname]

namespace World

theorem Move.fresh {w w' : World} {made : List (LoaderId × ClassId)} (h : Move w made w') {c : ClassId}
    (hc : w.nodes.size ≤ c.index) : (w'.node c).Fresh := by
  -- a class that is not there yet reads as the default record, which is fresh
  have hnone {v : World} (hv : v.nodes.size ≤ c.index) : (v.node c).Fresh := by
    rw [show v.node c = default from Store.get_of_size_le _ hv]
    exact .declared ⟨rfl, rfl, rfl, rfl⟩ rfl rfl rfl rfl
  have hnode {n : ClassNode} (hn : n.Fresh) : ((w.withNode n).node c).Fresh := by
    rw [node_withNode]
    split
    · exact hn
    · exact hnone hc
  cases h with
  | @make _ settings sources _ h =>
    obtain ⟨hs, -, rfl⟩ := (Loader.make_makes settings sources w).ok h
    by_cases hlt : c.index < (w.withLoader settings sources).nodes.size
    · obtain ⟨nk, hk, hn⟩ := (withLoader_spec w settings sources).added c hc hlt
      rw [hn]
      exact Loader.fresh_builtinNode hs hk
    · exact hnone (Nat.not_lt.mp hlt)
  | define _ _ h =>
    obtain ⟨-, -, rfl⟩ := (Loader.define_makes _ _ _ _ w).ok h
    exact hnode (.declared ⟨rfl, rfl, rfl, rfl⟩ rfl rfl rfl rfl)
  | defineUncounted _ h =>
    obtain ⟨-, -, rfl⟩ := (Loader.define_makes _ _ _ _ w).ok h
    exact hnode (.declared ⟨rfl, rfl, rfl, rfl⟩ rfl rfl rfl rfl)
  | create h =>
    obtain ⟨-, -, rfl⟩ := (createClass_makes _ _ _ _ w).ok h
    exact hnode (.declared ⟨rfl, rfl, rfl, rfl⟩ rfl rfl rfl rfl)
  | @edit _ e _ h =>
    have hs := e.spares w
    rw [h] at hs
    exact hnone (by rw [hs.size]; exact hc)
  | refer => exact hnone hc
  | dropInterfaces keep _ => exact hnone (by show (w.nodes.modify _ _).size ≤ _; rwa [Store.size_modify])
  | standIn l name =>
    rw [placeholder_run]
    cases (w.loader l).placeholders.get? name with
    | some d => exact hnone hc
    | none => exact hnode (.declared ⟨rfl, rfl, rfl, rfl⟩ rfl rfl rfl rfl)
  | stray name lookup d => exact hnode (.declared ⟨rfl, rfl, rfl, rfl⟩ rfl rfl rfl rfl)
  | remember r d => exact hnone hc
  | answer d _ => exact hnone hc
  | ask l f g => exact hnone hc
  | aside log _ => exact hnone hc
  | release outside => exact hnone hc

/-- A class is declared or one of those that its settings want to be provided. -/
theorem Run.kind {w : World} (h : Run .empty w) :
    ∀ c, w.Editable c ∨ (w.nameOf c, (w.node c).kind) ∈ Loader.builtinKinds (w.node c).settings := by
  refine h.holds (P := fun w => ∀ c, w.Editable c ∨ (w.nameOf c, (w.node c).kind) ∈
    Loader.builtinKinds (w.node c).settings) (fun _ => .inl rfl) fun {w _ w'} hw hm c => ?_
  by_cases hlt : c.index < w.nodes.size
  · have hsame := hm.keeps.same c hlt
    have hc := hw c
    unfold Editable at hc ⊢
    rwa [hm.keeps.nameOf hlt, hsame.kind, hsame.settings]
  · exact (hm.fresh (Nat.not_lt.mp hlt)).kind

/-- Nothing is put into a class that may not be changed. -/
theorem Move.plain_of_fixed {w w' : World} {made : List (LoaderId × ClassId)} (h : Move w made w')
    (hw : ∀ c, ¬ w.Editable c → (w.node c).Plain) (c : ClassId) (hc : ¬ w'.Editable c) : (w'.node c).Plain := by
  by_cases hlt : c.index < w.nodes.size
  · have hfixed : ¬ w.Editable c := by
      unfold Editable at hc ⊢
      rwa [← (h.keeps.same c hlt).kind]
    rw [h.keeps.fixed c hlt hfixed]
    exact hw c hfixed
  · exact (h.fresh (Nat.not_lt.mp hlt)).toPlain

theorem Run.plain {w : World} (h : Run .empty w) : ∀ c, ¬ w.Editable c → (w.node c).Plain :=
  h.holds (fun _ _ => ⟨rfl, rfl, rfl, rfl⟩) fun hw hm => hm.plain_of_fixed hw

def BuiltinsTopmost (w : World) : Prop := ∀ c, ¬ w.Editable c → (w.node c).interfaces = []

theorem Run.builtinsTopmost {w : World} (h : Run .empty w) : w.BuiltinsTopmost :=
  fun c hc => (h.plain c hc).interfaces

end World

namespace Change

def Undone (x : Change α) (w : World) : Prop := ∀ e w', x w = (.error e, w') → w' = w

theorem Makes.undone {x : Change α} {w w' : World} {p : Prop} {a : α} (h : x.Makes w p a w') : x.Undone w :=
  fun e w₁ he => by
    by_cases hp : p
    · rw [h.made hp] at he; cases he
    · obtain ⟨e', he'⟩ := h.refused hp
      rw [he'] at he; cases he; rfl

end Change

/-- Names are resolved before it is seen whether the class may be changed. One that may not be has no
interfaces, and so no names to resolve. -/
theorem ClassId.removeInterface_undone {w : World} (hw : ∃ made, w.Sound made) (ht : w.BuiltinsTopmost) (c : ClassId)
    (name : String) : (c.removeInterface name).Undone w := by
  intro e w' h
  unfold ClassId.removeInterface at h
  dsimp only at h
  split at h
  · cases h; rfl
  · let named := ClassId.namedReferences name (w.node c).interfaces w
    have hdrop : (if named.1.isEmpty then pure () else do
        requireDeclared c
        Change.of <| Step.onNode c fun n =>
          { n with interfaces := n.interfaces.filter fun r => !named.1.contains r } : Change Unit) named.2 =
        (.error e, w') := h
    by_cases hnone : (w.node c).interfaces = []
    · rw [show named = ([], w) by simp only [named, hnone]; rfl] at hdrop
      cases hdrop
    · have hlt : c.index < w.nodes.size := by
        by_contra hlt
        rw [show w.node c = default from Store.get_of_size_le _ (Nat.not_lt.mp hlt)] at hnone
        exact hnone rfl
      have hkeeps : w.Keeps named.2 := by
        obtain ⟨_, hw⟩ := hw
        exact (namedReferences_acts name fun r hr => hw.placed (List.mem_append_right _ hr)).keeps
      have hdeclared : named.2.Editable c := by
        unfold Editable
        rw [(hkeeps.same c hlt).kind]
        exact Decidable.byContradiction fun hc => hnone (ht c hc)
      split at hdrop
      · cases hdrop
      · rw [(dropInterfaces_makes c named.1 named.2).made hdeclared] at hdrop
        cases hdrop

namespace World

/-- A change that is refused leaves everything as it was. -/
theorem refused_changes_nothing {w : World} (hw : Run .empty w) (m : Mutation) : m.run.Undone w := by
  have hthen {α : Type} {x : Change α} (h : x.Undone w) : Change.Undone (do let _ ← x) w := by
    intro e w' he
    rw [bind_run] at he
    cases hx : x w with
    | mk r v =>
      rw [hx] at he
      cases r with
      | ok a => cases he
      | error _ => cases he; exact h _ _ hx
  cases m with
  | define l package simpleName imports => exact hthen (Loader.define_makes l package simpleName imports w).undone
  | edit e =>
    obtain ⟨p, made, w', h, -⟩ := e.makes w
    exact hthen h.undone
  | removeInterface c name => exact ClassId.removeInterface_undone (hw.sound soundEmpty) hw.builtinsTopmost c name
  | removeInterfaceClass c d =>
    have hrun : (Mutation.removeInterfaceClass c d).run w = c.removeInterface (w.nameOf d) w := rfl
    intro e w' h
    rw [hrun] at h
    exact ClassId.removeInterface_undone (hw.sound soundEmpty) hw.builtinsTopmost c (w.nameOf d) e w' h

theorem early_refused : Run .empty early ∧
    ((Mutation.edit (.onClass ⟨9⟩ .addField)).run early).1 = .error (.builtinFixed "java.lang.Object") ∧
    ((Mutation.edit (.onClass ⟨9⟩ .addField)).run early).2 = early := by
  have he : ((Mutation.edit (.onClass ⟨9⟩ .addField)).run early).1 = .error (.builtinFixed "java.lang.Object") := by
    decide +kernel
  have hrun : (Mutation.edit (.onClass ⟨9⟩ .addField)).run early = (.error (.builtinFixed "java.lang.Object"),
    ((Mutation.edit (.onClass ⟨9⟩ .addField)).run early).2) := Step.run_of_fst he
  exact ⟨run_early, he, refused_changes_nothing run_early _ _ _ hrun⟩

end World

end ClassModel
