import ClassModel.Proofs.Graph.Moves

/-!
# Reachable worlds are sound

The invariant of all moves: every stored name has passed its check, every reference knows the class
in which it was written, every member its class, and every loader its builtins and what it has
defined. What a loader without sources holds is there as long as the loader is.
-/

namespace ClassModel

open Change Name

def Target.WrittenIn (c : ClassId) : Target → Prop
  | .direct _ => True
  | .qualified n d => d = c ∧ IsClassName n
  | .unqualified n d => d = c ∧ IsClassName n

def Loader.held (x : Loader) : List ClassId := x.builtins.values ++ x.classes.values ++ x.placeholders.values

theorem Loader.mem_held {x : Loader} {c : ClassId} :
    c ∈ x.held ↔ c ∈ x.builtins.values ∨ c ∈ x.classes.values ∨ c ∈ x.placeholders.values := by
  rw [held, List.mem_append, List.mem_append, or_assoc]

namespace World

theorem superclassRef_subset (n : ClassNode) : n.superclassRef.toList ⊆ n.superclass.toList := by
  unfold ClassNode.superclassRef; split <;> simp

theorem interfaceRefs_subset (n : ClassNode) : n.interfaceRefs ⊆ n.interfaces := by
  unfold ClassNode.interfaceRefs; split <;> simp

theorem declaredFields_subset (n : ClassNode) : n.declaredFields ⊆ n.fields := by
  unfold ClassNode.declaredFields; split <;> simp

theorem declaredMethods_subset (n : ClassNode) : n.declaredMethods ⊆ n.methods := by
  unfold ClassNode.declaredMethods; split <;> simp

theorem declaredConstructors_subset (n : ClassNode) : n.declaredConstructors ⊆ n.constructors := by
  unfold ClassNode.declaredConstructors; split <;> simp

def Has (w : World) : Object → Prop
  | .node c => c.index < w.nodes.size
  | .field f => f.index < w.fields.size
  | .method m => m.index < w.methods.size
  | .constructor k => k.index < w.constructors.size
  | .reference r => r.index < w.references.size
  | .loader l => l.index < w.loaders.size
  | .directory d => d.index < w.directories.size

structure Written (w : World) (c : ClassId) (r : RefId) : Prop where
  lt : r.index < w.references.size
  target : (w.reference r).target.WrittenIn c

structure SoundNode (w : World) (c : ClassId) (n : ClassNode) : Prop where
  settings : n.settings.Sound
  builtin : n.kind ≠ .declared → IsClassName n.qualifiedName
  supertypes : ∀ r ∈ n.superclass.toList ++ n.interfaces, w.Written c r
  fields : ∀ f ∈ n.fields, f.index < w.fields.size ∧ (w.field f).owner = c
  methods : ∀ m ∈ n.methods, m.index < w.methods.size ∧ (w.method m).owner = c
  constructors : ∀ k ∈ n.constructors, k.index < w.constructors.size ∧ (w.constructor k).owner = c

structure SoundField (w : World) (x : Field) : Prop where
  name : IsIdentifier x.name
  type : w.Written x.owner x.type

def SoundParameters (w : World) (owner : ClassId) (ps : Parameters) : Prop :=
  ∀ p ∈ ps.list, IsIdentifier p.name ∧ w.Written owner p.type

structure SoundMethod (w : World) (x : Method) : Prop where
  name : IsIdentifier x.name
  returnType : w.Written x.owner x.returnType
  parameters : w.SoundParameters x.owner x.parameters

def SoundConstructor (w : World) (x : Constructor) : Prop := w.SoundParameters x.owner x.parameters

structure DefinedBy (w : World) (l : LoaderId) (c : ClassId) : Prop where
  lt : c.index < w.nodes.size
  loader : l.index < w.loaders.size
  kind : (w.node c).kind = .declared
  lookup : (w.node c).lookup = some (.loader l)
  settings : (w.node c).settings = (w.loader l).settings
  package : IsPackageName (w.node c).package
  simpleName : IsIdentifier (w.node c).simpleName
  notBuiltin : ¬ Loader.IsBuiltinName (w.loader l).settings (w.nameOf c)

structure SoundLoader (w : World) (made : List (LoaderId × ClassId)) (l : LoaderId) : Prop where
  settings : (w.loader l).settings.Sound
  sorted : (w.loader l).classes.Sorted
  keys : ∀ e ∈ (w.loader l).classes, ∀ p ∈ made, p.2 = e.2 → e.1 = w.nameOf e.2
  provides : l.index < w.loaders.size → Loader.Provides w l (Loader.builtinKinds (w.loader l).settings)
  held : (w.loader l).sources = [] → ∀ c ∈ (w.loader l).held, c.index < w.nodes.size ∧
    (.loader l ∉ w.gone → .node c ∉ w.gone)

structure Sound (w : World) (made : List (LoaderId × ClassId)) : Prop where
  nodes : ∀ c, w.SoundNode c (w.node c)
  fields : ∀ f, f.index < w.fields.size → w.SoundField (w.field f)
  methods : ∀ m, m.index < w.methods.size → w.SoundMethod (w.method m)
  constructors : ∀ k, k.index < w.constructors.size → w.SoundConstructor (w.constructor k)
  loaders : ∀ l, w.SoundLoader made l
  made : ∀ p ∈ made, w.DefinedBy p.1 p.2
  gone : ∀ o ∈ w.gone, w.Has o

section
variable {w w' : World} {made : List (LoaderId × ClassId)}

/-! ## What moves keep is sound -/

theorem Keeps.nameOf (hk : w.Keeps w') {c : ClassId} (hc : c.index < w.nodes.size) :
    w'.nameOf c = w.nameOf c := by
  unfold World.nameOf ClassNode.qualifiedName
  rw [(hk.same c hc).package, (hk.same c hc).simpleName]

theorem Written.keeps {c : ClassId} {r : RefId} (h : w.Written c r) (hk : w.Keeps w') : w'.Written c r :=
  ⟨(hk.references r h.lt).1, by rw [(hk.references r h.lt).2]; exact h.target⟩

theorem SoundNode.keeps {c : ClassId} {n : ClassNode} (h : w.SoundNode c n) (hk : w.Keeps w') :
    w'.SoundNode c n where
  settings := h.settings
  builtin := h.builtin
  supertypes r hr := (h.supertypes r hr).keeps hk
  fields f hf := ⟨(hk.fields f (h.fields f hf).1).1, (hk.fields f (h.fields f hf).1).2.trans (h.fields f hf).2⟩
  methods m hm := ⟨(hk.methods m (h.methods m hm).1).1, (hk.methods m (h.methods m hm).1).2.trans (h.methods m hm).2⟩
  constructors k hk' := ⟨(hk.constructors k (h.constructors k hk').1).1,
    (hk.constructors k (h.constructors k hk').1).2.trans (h.constructors k hk').2⟩

theorem SoundField.keeps {x : Field} (h : w.SoundField x) (hk : w.Keeps w') : w'.SoundField x :=
  ⟨h.name, h.type.keeps hk⟩

theorem SoundParameters.keeps {owner : ClassId} {ps : Parameters} (h : w.SoundParameters owner ps)
    (hk : w.Keeps w') : w'.SoundParameters owner ps := fun p hp => ⟨(h p hp).1, (h p hp).2.keeps hk⟩

theorem SoundMethod.keeps {x : Method} (h : w.SoundMethod x) (hk : w.Keeps w') : w'.SoundMethod x :=
  ⟨h.name, h.returnType.keeps hk, h.parameters.keeps hk⟩

theorem DefinedBy.keeps {l : LoaderId} {c : ClassId} (h : w.DefinedBy l c) (hk : w.Keeps w') :
    w'.DefinedBy l c := by
  have hs := hk.same c h.lt
  obtain ⟨hl, hsettings, -⟩ := hk.loaders l h.loader
  exact ⟨Nat.lt_of_lt_of_le h.lt hk.size, hl, hs.kind.trans h.kind, hs.lookup.trans h.lookup,
    by rw [hs.settings, hsettings, h.settings], by rw [hs.package]; exact h.package,
    by rw [hs.simpleName]; exact h.simpleName, by rw [hsettings, hk.nameOf h.lt]; exact h.notBuiltin⟩

theorem provides_keeps {l : LoaderId} (h : Loader.Provides w l (Loader.builtinKinds (w.loader l).settings))
    (hk : w.Keeps w') (hb : (w'.loader l).builtins = (w.loader l).builtins)
    (hs : (w'.loader l).settings = (w.loader l).settings) :
    Loader.Provides w' l (Loader.builtinKinds (w'.loader l).settings) := by
  refine ⟨by rw [hb]; exact h.sorted, fun e he => ?_, by rw [hb, hs]; exact h.all⟩
  rw [hb] at he
  obtain ⟨hlt, kind, hkind, hn⟩ := h.node e he
  refine ⟨Nat.lt_of_lt_of_le hlt hk.size, kind, by rw [hs]; exact hkind, ?_⟩
  rw [hk.fixed e.2 hlt, hn, hs]
  show ¬ (w.node e.2).kind = _
  rw [hn]
  exact Loader.ne_declared_of_mem_builtinKinds hkind

theorem Has.keeps {o : Object} (h : w.Has o) (hk : w.Keeps w') : w'.Has o := by
  cases o with
  | node c => exact Nat.lt_of_lt_of_le h hk.size
  | field f => exact (hk.fields f h).1
  | method m => exact (hk.methods m h).1
  | constructor k => exact (hk.constructors k h).1
  | reference r => exact (hk.references r h).1
  | loader l => exact (hk.loaders l h).1
  | directory d => exact Nat.lt_of_lt_of_le h hk.directories

theorem SoundLoader.keeps {l : LoaderId} (h : w.SoundLoader made l) (hmade : ∀ p ∈ made, w.DefinedBy p.1 p.2)
    (hk : w.Keeps w') (hg : w'.gone = w.gone) (hn : l.index < w'.loaders.size → l.index < w.loaders.size)
    (hl : w'.loader l = w.loader l) : w'.SoundLoader made l where
  settings := by rw [hl]; exact h.settings
  sorted := by rw [hl]; exact h.sorted
  keys e he p hp hpe := by
    rw [hl] at he
    rw [h.keys e he p hp hpe, hk.nameOf (hpe ▸ (hmade p hp).lt)]
  provides hlt := provides_keeps (h.provides (hn hlt)) hk (by rw [hl]) (by rw [hl])
  held hs c hc := by
    rw [hl] at hs hc
    rw [hg]
    exact ⟨Nat.lt_of_lt_of_le (h.held hs c hc).1 hk.size, (h.held hs c hc).2⟩

/-- Only what is different has to be looked at. -/
theorem Sound.step (h : w.Sound made) (hk : w.Keeps w') (hg : w'.gone = w.gone)
    (nodes : ∀ c, w'.node c = w.node c ∨ w'.SoundNode c (w'.node c))
    (fields : ∀ f, f.index < w'.fields.size →
      (f.index < w.fields.size ∧ w'.field f = w.field f) ∨ w'.SoundField (w'.field f))
    (methods : ∀ m, m.index < w'.methods.size →
      (m.index < w.methods.size ∧ w'.method m = w.method m) ∨ w'.SoundMethod (w'.method m))
    (constructors : ∀ k, k.index < w'.constructors.size →
      (k.index < w.constructors.size ∧ w'.constructor k = w.constructor k) ∨ w'.SoundConstructor (w'.constructor k))
    (loaders : ∀ l, (l.index < w'.loaders.size → l.index < w.loaders.size) ∧ w'.loader l = w.loader l ∨
      w'.SoundLoader made l) : w'.Sound made where
  nodes c := by
    rcases nodes c with hc | hc
    · rw [hc]; exact (h.nodes c).keeps hk
    · exact hc
  fields f hf := by
    rcases fields f hf with ⟨hlt, he⟩ | hf
    · rw [he]; exact (h.fields f hlt).keeps hk
    · exact hf
  methods m hm := by
    rcases methods m hm with ⟨hlt, he⟩ | hm
    · rw [he]; exact (h.methods m hlt).keeps hk
    · exact hm
  constructors k hk' := by
    rcases constructors k hk' with ⟨hlt, he⟩ | hk'
    · rw [he]; exact (h.constructors k hlt).keeps hk
    · exact hk'
  loaders l := by
    rcases loaders l with ⟨hn, hl⟩ | hl
    · exact (h.loaders l).keeps h.made hk hg hn hl
    · exact hl
  made p hp := (h.made p hp).keeps hk
  gone o ho := (h.gone o (hg ▸ ho)).keeps hk

/-! ## Single records -/

theorem Sound.withReference (h : w.Sound made) (t : Target) : (w.withReference t).Sound made :=
  h.step (.withReference w t) rfl (fun _ => .inl rfl) (fun _ hf => .inl ⟨hf, rfl⟩) (fun _ hm => .inl ⟨hm, rfl⟩)
    (fun _ hk => .inl ⟨hk, rfl⟩) fun _ => .inl ⟨id, rfl⟩

theorem Sound.editReference (h : w.Sound made) (r : RefId) {f : Reference → Reference}
    (hf : ∀ x, (f x).target = x.target) : (w.editReference r f).Sound made :=
  h.step (.editReference hf) rfl (fun _ => .inl rfl) (fun _ hf => .inl ⟨hf, rfl⟩) (fun _ hm => .inl ⟨hm, rfl⟩)
    (fun _ hk => .inl ⟨hk, rfl⟩) fun _ => .inl ⟨id, rfl⟩

theorem Sound.aside (h : w.Sound made) {directories : Store Directory}
    (hd : w.directories.size ≤ directories.size) (log : List Log.Event) :
    World.Sound { w with directories := directories, log := log } made :=
  h.step (.aside hd log) rfl (fun _ => .inl rfl) (fun _ hf => .inl ⟨hf, rfl⟩) (fun _ hm => .inl ⟨hm, rfl⟩)
    (fun _ hk => .inl ⟨hk, rfl⟩) fun _ => .inl ⟨id, rfl⟩

theorem Sound.withField (h : w.Sound made) {x : Field} (hx : w.SoundField x) : (w.withField x).Sound made := by
  have hk := Keeps.withField w x
  refine h.step hk rfl (fun _ => .inl rfl) (fun f hf => ?_) (fun _ hm => .inl ⟨hm, rfl⟩)
    (fun _ hk => .inl ⟨hk, rfl⟩) fun _ => .inl ⟨id, rfl⟩
  have hlt : f.index < w.fields.size + 1 := by rwa [show (w.withField x).fields.size = _ from Store.size_push _ _] at hf
  rw [field_withField]
  split
  · exact .inr (hx.keeps hk)
  · exact .inl ⟨by omega, rfl⟩

theorem Sound.withMethod (h : w.Sound made) {x : Method} (hx : w.SoundMethod x) : (w.withMethod x).Sound made := by
  have hk := Keeps.withMethod w x
  refine h.step hk rfl (fun _ => .inl rfl) (fun _ hf => .inl ⟨hf, rfl⟩) (fun m hm => ?_)
    (fun _ hk => .inl ⟨hk, rfl⟩) fun _ => .inl ⟨id, rfl⟩
  have hlt : m.index < w.methods.size + 1 := by
    rwa [show (w.withMethod x).methods.size = _ from Store.size_push _ _] at hm
  rw [method_withMethod]
  split
  · exact .inr (hx.keeps hk)
  · exact .inl ⟨by omega, rfl⟩

theorem Sound.withConstructor (h : w.Sound made) {x : Constructor} (hx : w.SoundConstructor x) :
    (w.withConstructor x).Sound made := by
  have hk := Keeps.withConstructor w x
  refine h.step hk rfl (fun _ => .inl rfl) (fun _ hf => .inl ⟨hf, rfl⟩) (fun _ hm => .inl ⟨hm, rfl⟩)
    (fun k hk' => ?_) fun _ => .inl ⟨id, rfl⟩
  have hlt : k.index < w.constructors.size + 1 := by
    rwa [show (w.withConstructor x).constructors.size = _ from Store.size_push _ _] at hk'
  rw [constructor_withConstructor]
  split
  · exact .inr (SoundParameters.keeps hx hk)
  · exact .inl ⟨by omega, rfl⟩

theorem Sound.withNode (h : w.Sound made) {n : ClassNode} (hn : w.SoundNode w.nextClass n) :
    (w.withNode n).Sound made := by
  have hk := Keeps.withNode w n
  refine h.step hk rfl (fun c => ?_) (fun _ hf => .inl ⟨hf, rfl⟩) (fun _ hm => .inl ⟨hm, rfl⟩)
    (fun _ hk => .inl ⟨hk, rfl⟩) fun _ => .inl ⟨id, rfl⟩
  rw [node_withNode]
  split
  · rename_i hc; subst hc; exact .inr (hn.keeps hk)
  · exact .inl rfl

theorem Sound.editNode (h : w.Sound made) {c : ClassId} (hc : w.Editable c) {f : ClassNode → ClassNode}
    (hf : ∀ n, SameClass n (f n)) (hn : w.SoundNode c (f (w.node c))) : (w.editNode c f).Sound made := by
  have hk := Keeps.editNode hc hf
  refine h.step hk rfl (fun d => ?_) (fun _ hf => .inl ⟨hf, rfl⟩) (fun _ hm => .inl ⟨hm, rfl⟩)
    (fun _ hk => .inl ⟨hk, rfl⟩) fun _ => .inl ⟨id, rfl⟩
  rw [node_editNode]
  split
  · rename_i hd; rw [← hd.1]; exact .inr (hn.keeps hk)
  · exact .inl rfl

theorem Sound.editField (h : w.Sound made) {i : FieldId} {f : Field → Field} (hf : ∀ x, (f x).owner = x.owner)
    (hx : i.index < w.fields.size → w.SoundField (f (w.field i))) : (w.editField i f).Sound made := by
  have hk : w.Keeps (w.editField i f) := .editField hf
  refine h.step hk rfl (fun _ => .inl rfl) (fun j hj => ?_) (fun _ hm => .inl ⟨hm, rfl⟩)
    (fun _ hk => .inl ⟨hk, rfl⟩) fun _ => .inl ⟨id, rfl⟩
  rw [show (w.editField i f).fields.size = _ from Store.size_modify _ _ _] at hj
  rw [field_editField]
  split
  · rename_i hij
    obtain ⟨rfl, -⟩ := hij
    exact .inr ((hx hj).keeps hk)
  · exact .inl ⟨hj, rfl⟩

theorem Sound.editMethod (h : w.Sound made) {i : MethodId} {f : Method → Method} (hf : ∀ x, (f x).owner = x.owner)
    (hx : i.index < w.methods.size → w.SoundMethod (f (w.method i))) : (w.editMethod i f).Sound made := by
  have hk : w.Keeps (w.editMethod i f) := .editMethod hf
  refine h.step hk rfl (fun _ => .inl rfl) (fun _ hf => .inl ⟨hf, rfl⟩) (fun j hj => ?_)
    (fun _ hk => .inl ⟨hk, rfl⟩) fun _ => .inl ⟨id, rfl⟩
  rw [show (w.editMethod i f).methods.size = _ from Store.size_modify _ _ _] at hj
  rw [method_editMethod]
  split
  · rename_i hij
    obtain ⟨rfl, -⟩ := hij
    exact .inr ((hx hj).keeps hk)
  · exact .inl ⟨hj, rfl⟩

theorem Sound.editConstructor (h : w.Sound made) {i : ConstructorId} {f : Constructor → Constructor}
    (hf : ∀ x, (f x).owner = x.owner)
    (hx : i.index < w.constructors.size → w.SoundConstructor (f (w.constructor i))) :
    (w.editConstructor i f).Sound made := by
  have hk : w.Keeps (w.editConstructor i f) := .editConstructor hf
  refine h.step hk rfl (fun _ => .inl rfl) (fun _ hf => .inl ⟨hf, rfl⟩) (fun _ hm => .inl ⟨hm, rfl⟩)
    (fun j hj => ?_) fun _ => .inl ⟨id, rfl⟩
  rw [show (w.editConstructor i f).constructors.size = _ from Store.size_modify _ _ _] at hj
  rw [constructor_editConstructor]
  split
  · rename_i hij
    obtain ⟨rfl, -⟩ := hij
    exact .inr (SoundParameters.keeps (hx hj) hk)
  · exact .inl ⟨hj, rfl⟩

/-! ## Loaders -/

theorem Sound.not_gone (h : w.Sound made) {c : ClassId} (hc : w.nodes.size ≤ c.index) : .node c ∉ w.gone :=
  fun hg => Nat.not_lt.mpr hc (h.gone _ hg)

theorem Sound.editLoader (h : w.Sound made) {l : LoaderId} {f : Loader → Loader}
    (hf : ∀ x, (f x).settings = x.settings ∧ (f x).sources = x.sources ∧ (f x).builtins = x.builtins)
    (sorted : (f (w.loader l)).classes.Sorted)
    (keys : ∀ e ∈ (f (w.loader l)).classes, e ∈ (w.loader l).classes ∨ e.1 = w.nameOf e.2)
    (held : (w.loader l).sources = [] → ∀ c ∈ (f (w.loader l)).classes.values ++ (f (w.loader l)).placeholders.values,
      c ∈ (w.loader l).held ∨ (c.index < w.nodes.size ∧ .node c ∉ w.gone)) :
    (w.editLoader l f).Sound made := by
  have hk : w.Keeps (w.editLoader l f) := .editLoader fun x => ⟨(hf x).1, (hf x).2.1⟩
  refine h.step hk rfl (fun _ => .inl rfl) (fun _ hf => .inl ⟨hf, rfl⟩) (fun _ hm => .inl ⟨hm, rfl⟩)
    (fun _ hk => .inl ⟨hk, rfl⟩) fun j => ?_
  have hsize : (w.editLoader l f).loaders.size = w.loaders.size := Store.size_modify _ _ _
  have hget : (w.editLoader l f).loader j = if l.index = j.index ∧ j.index < w.loaders.size then f (w.loader j)
      else w.loader j := Store.get_modify _ _ _ _
  rw [hsize, hget]
  split
  · rename_i hlj
    have : l = j := by cases l; cases j; simp_all
    subst this
    have hget : (w.editLoader l f).loader l = f (w.loader l) := by rw [hget, if_pos hlj]
    obtain ⟨hsettings, hsources, hbuiltins⟩ := hf (w.loader l)
    -- the edited loader: its names and what it holds have to be shown sound again
    right
    refine ⟨?_, ?_, fun e he p hp hpe => ?_, fun _ => ?_, fun hs c hc => ?_⟩
    · rw [hget, hsettings]; exact (h.loaders l).settings
    · rw [hget]; exact sorted
    · rw [hget] at he
      rcases keys e he with he | he
      · exact (h.loaders l).keys e he p hp hpe
      · exact he
    · exact provides_keeps ((h.loaders l).provides hlj.2) hk (by rw [hget, hbuiltins]) (by rw [hget, hsettings])
    · rw [hget] at hs hc
      rw [hsources] at hs
      have hold (hc : c ∈ (w.loader l).held) := (h.loaders l).held hs c hc
      rw [Loader.held, hbuiltins, List.append_assoc] at hc
      rcases List.mem_append.mp hc with hc | hc
      · exact hold (List.mem_append_left _ (List.mem_append_left _ hc))
      · rcases held hs c hc with hc | hc
        · exact hold hc
        · exact ⟨hc.1, fun _ => hc.2⟩
  · exact .inl ⟨id, rfl⟩

theorem soundNode_bare {settings : Settings} (hs : settings.Sound) (w : World) (c : ClassId)
    (package simpleName : String) {kind : TypeKind} (lookup : Option Collaborator)
    (hname : kind ≠ .declared → IsClassName (qualify package simpleName)) :
    w.SoundNode c (.bare package simpleName kind lookup settings) where
  settings := hs
  builtin := hname
  supertypes r hr := by cases hr
  fields f hf := by cases hf
  methods m hm := by cases hm
  constructors k hk := by cases hk

theorem soundNode_standIn {settings : Settings} (hs : settings.Sound) (w : World) (c : ClassId) (name : String)
    (lookup : Option Collaborator) : w.SoundNode c (Loader.standIn name lookup settings) where
  settings := hs
  builtin hk := (hk rfl).elim
  supertypes r hr := by cases hr
  fields f hf := by cases hf
  methods m hm := by cases hm
  constructors k hk := by cases hk

theorem Sound.withLoader (h : w.Sound made) {settings : Settings} (hs : settings.Sound) (sources : List Source) :
    (w.withLoader settings sources).Sound made := by
  have hmade := withLoader_spec w settings sources
  have hk := Keeps.withLoader w settings sources
  generalize hw' : w.withLoader settings sources = w' at hmade hk
  have hself : w'.loader w.nextLoader = ⟨settings, _, [], [], sources, [], []⟩ := hmade.self
  have hgone : w'.gone = w.gone := by rw [hmade.rest]
  refine h.step hk hgone (fun c => ?_) (fun f hf => .inl ?_) (fun m hm => .inl ?_) (fun k hk' => .inl ?_) fun l => ?_
  -- a class of before, one of the built-in types just made, or none at all
  · by_cases hc : c.index < w.nodes.size
    · exact .inl (hmade.nodes.get_eq _ hc)
    · by_cases hc' : c.index < w'.nodes.size
      · obtain ⟨nk, hnk, hn⟩ := hmade.added c (Nat.not_lt.mp hc) hc'
        have hname : IsClassName nk.1 := Loader.isClassName_of_builtin hs (Loader.isBuiltinName_iff.mpr ⟨nk.2, hnk⟩)
        rw [hn]
        exact .inr (soundNode_bare hs w' c _ _ _ fun _ => by rwa [qualify_packageOf_simpleNameOf hname])
      · left
        rw [show w'.node c = default from Store.get_of_size_le _ (Nat.not_lt.mp hc'),
          show w.node c = default from Store.get_of_size_le _ (Nat.not_lt.mp hc)]
  · rw [hmade.rest] at hf ⊢; exact ⟨hf, rfl⟩
  · rw [hmade.rest] at hm ⊢; exact ⟨hm, rfl⟩
  · rw [hmade.rest] at hk' ⊢; exact ⟨hk', rfl⟩
  · by_cases hl : l = w.nextLoader
    · subst hl
      right
      refine ⟨?_, ?_, ?_, fun _ => ?_, fun _ c hc => ?_⟩
      · rw [hself]; exact hs
      · rw [hself]; exact Registry.sorted_nil
      · rw [hself]; intro e he; cases he
      · have := hmade.provides
        rwa [show (w'.loader w.nextLoader).settings = settings by rw [hself]]
      · rw [hself] at hc
        have hc : c ∈ (w'.loader w.nextLoader).builtins.values := by
          simpa [Loader.held, Registry.values] using hc
        obtain ⟨name, he⟩ := Registry.mem_values.mp hc
        rw [hgone]
        exact ⟨(hmade.provides.node _ he).1, fun _ => h.not_gone (hmade.fresh _ he)⟩
    · refine .inl ⟨fun hlt => ?_, hmade.other l hl⟩
      rw [hmade.size] at hlt
      have : l.index ≠ w.loaders.size := fun e => hl (by cases l; simp_all [nextLoader])
      omega

theorem Sound.standIn (h : w.Sound made) (l : LoaderId) (name : String) :
    (Loader.placeholder l name w).2.Sound made := by
  rw [placeholder_run]
  split
  · exact h
  · have hn := h.withNode (soundNode_standIn (h.loaders l).settings w w.nextClass name (some (.loader l)))
    refine hn.editLoader (fun _ => ⟨rfl, rfl, rfl⟩) (h.loaders l).sorted (fun e he => .inl he) fun hs c hc => ?_
    rcases List.mem_append.mp hc with hc | hc
    · exact .inl (List.mem_append_left _ (List.mem_append_right _ hc))
    · obtain ⟨k, he⟩ := Registry.mem_values.mp hc
      rcases Registry.mem_insert_subset he with he | he
      · cases he
        right
        refine ⟨?_, h.not_gone (Nat.le_refl _)⟩
        show w.nodes.size < (w.nodes.push _).size
        simp
      · exact .inl (List.mem_append_right _ (Registry.mem_values.mpr ⟨k, he⟩))

theorem qualifiedName_withNode (w : World) (n : ClassNode) : (w.withNode n).nameOf w.nextClass = n.qualifiedName := by
  unfold World.nameOf
  rw [node_withNode, if_pos rfl]

theorem Sound.withDefined (h : w.Sound made) (l : LoaderId) (package simpleName : String)
    (imports : List Import) : (w.withDefined l package simpleName imports).Sound made := by
  let n := { ClassNode.bare package simpleName .declared (some (.loader l)) (w.loader l).settings with
    imports := imports }
  have hbare : w.SoundNode w.nextClass (.bare package simpleName .declared (some (.loader l)) (w.loader l).settings) :=
    soundNode_bare (h.loaders l).settings _ _ _ _ _ fun hk => (hk rfl).elim
  have hn : w.SoundNode w.nextClass n := { hbare with }
  have hdef := (h.withNode hn).editLoader (l := l) (f := fun x => { x with
      classes := x.classes.insert (qualify package simpleName) w.nextClass
      placeholders := x.placeholders.erase (qualify package simpleName) }) (fun _ => ⟨rfl, rfl, rfl⟩)
    (Registry.sorted_insert _ _ (h.loaders l).sorted) (fun e he => ?_) fun hs c hc => ?_
  · exact hdef.aside (Nat.le_refl _) _
  · rcases Registry.mem_insert_subset he with rfl | he
    · exact .inr (qualifiedName_withNode w n).symm
    · exact .inl he
  · rcases List.mem_append.mp hc with hc | hc
    · obtain ⟨k, he⟩ := Registry.mem_values.mp hc
      rcases Registry.mem_insert_subset he with he | he
      · cases he
        right
        refine ⟨?_, h.not_gone (Nat.le_refl _)⟩
        show w.nodes.size < (w.nodes.push _).size
        simp
      · exact .inl (List.mem_append_left _ (List.mem_append_right _ (Registry.mem_values.mpr ⟨k, he⟩)))
    · obtain ⟨k, he⟩ := Registry.mem_values.mp hc
      exact .inl (List.mem_append_right _ (Registry.mem_values.mpr ⟨k, (Registry.mem_erase.mp he).1⟩))

/-- A class that nobody had registered is known by the name with which it was defined. -/
theorem Sound.define (h : w.Sound made) {l : LoaderId} {package simpleName : String} {imports : List Import}
    {c : ClassId} (hl : l.index < w.loaders.size) (hc : w.Unregistered c)
    (hd : Loader.define l package simpleName imports w = (.ok c, w')) : w'.Sound (made ++ [(l, c)]) := by
  obtain ⟨⟨hp, hs, hb, -⟩, rfl, rfl⟩ := (Loader.define_makes l package simpleName imports w).ok hd
  have hsound := h.withDefined l package simpleName imports
  have hkeeps := Keeps.define hd
  have hnode := node_withDefined_self (w := w) (l := l) package simpleName imports
  have hname := nameOf_withDefined_self (w := w) (l := l) package simpleName imports
  have hsettings := (hkeeps.loaders l hl).2.1
  have hnew : (w.withDefined l package simpleName imports).DefinedBy l w.nextClass := by
    refine ⟨?_, (hkeeps.loaders l hl).1, by rw [hnode]; rfl, by rw [hnode]; rfl, ?_, by rw [hnode]; exact hp,
      by rw [hnode]; exact hs, ?_⟩
    · rw [size_withDefined]; exact Nat.lt_succ_self _
    · rw [hsettings, hnode]; rfl
    · rw [hname, hsettings, Loader.isBuiltinName_iff]
      rintro ⟨kind, hk⟩
      have := ((h.loaders l).provides hl).all _ hk
      rw [hb] at this; cases this
  have hmade (p) (hp : p ∈ made ++ [(l, w.nextClass)]) :
      (w.withDefined l package simpleName imports).DefinedBy p.1 p.2 := by
    rcases List.mem_append.mp hp with hp | hp
    · exact hsound.made p hp
    · cases List.mem_singleton.mp hp; exact hnew
  -- no registry had the new class, and that of `l` has it under its own name
  have hkeys (j : LoaderId) (e) (he : e ∈ ((w.withDefined l package simpleName imports).loader j).classes)
      (p) (hp : p ∈ made ++ [(l, w.nextClass)]) (hpe : p.2 = e.2) :
      e.1 = (w.withDefined l package simpleName imports).nameOf e.2 := by
    rcases List.mem_append.mp hp with hp | hp
    · exact (hsound.loaders j).keys e he p hp hpe
    · cases List.mem_singleton.mp hp
      have hpe : w.nextClass = e.2 := hpe
      by_cases hj : j = l
      · subst hj
        rw [loader_withDefined_self _ _ _ hl] at he
        rcases Registry.mem_insert_subset he with rfl | he
        · exact hname.symm
        · exact (hc j e he hpe.symm).elim
      · rw [loader_withDefined_of_ne _ _ _ hj] at he
        exact (hc j e he hpe.symm).elim
  exact { hsound with made := hmade, loaders := fun j => { hsound.loaders j with keys := hkeys j } }

/-! ## Letting go -/

theorem lasting_subset (w : World) (outside : List Object) : ∀ n present, w.lasting outside n present ⊆ present
  | 0, _ => fun _ h => h
  | n + 1, present => fun o h => by
    rw [lasting] at h
    split at h
    · exact h
    · exact (List.mem_filter.mp (lasting_subset w outside n _ h)).1

theorem lasting_holds (w : World) (outside : List Object) {o p : Object} (hp : p ∈ w.holds o) :
    ∀ n present, o ∈ w.lasting outside n present → p ∈ present → p ∈ w.lasting outside n present
  | 0, _, _, h => h
  | n + 1, present, ho, h => by
    rw [lasting] at ho ⊢
    split
    · exact h
    · rename_i hne
      rw [if_neg hne] at ho
      refine lasting_holds w outside hp n _ ho (List.mem_filter.mpr ⟨h, ?_⟩)
      have hop : o ∈ present := (List.mem_filter.mp (lasting_subset w outside n _ ho)).1
      simp only [Std.HashSet.contains_ofList, List.contains_iff_mem, List.mem_append, List.mem_flatMap]
      exact .inr ⟨o, hop, hp⟩

theorem mem_objects {o : Object} (h : w.Has o) : o ∈ w.objects := by
  unfold objects
  cases o <;> simp [Has] at h ⊢ <;> exact ⟨_, h, rfl⟩

theorem has_of_mem_objects {o : Object} (h : o ∈ w.objects) : w.Has o := by
  unfold objects at h
  simp only [List.mem_append, List.mem_map, List.mem_range] at h
  rcases h with (((((⟨i, hi, rfl⟩ | ⟨i, hi, rfl⟩) | ⟨i, hi, rfl⟩) | ⟨i, hi, rfl⟩) | ⟨i, hi, rfl⟩) | ⟨i, hi, rfl⟩) |
    ⟨i, hi, rfl⟩ <;> exact hi

/-- What a class shows as its own has been made for it. -/
theorem Sound.ownerOf_declared (h : w.Sound made) {kind : MemberKind} {c : ClassId} {m : Member}
    (hm : m ∈ w.declared kind c) : w.ownerOf m = c := by
  cases kind with
  | field =>
    obtain ⟨f, hf, rfl⟩ := List.mem_map.mp hm
    exact ((h.nodes c).fields f (declaredFields_subset _ hf)).2
  | method =>
    obtain ⟨i, hi, rfl⟩ := List.mem_map.mp hm
    exact ((h.nodes c).methods i (declaredMethods_subset _ hi)).2

theorem mem_gone_release {outside : List Object} {o : Object} :
    o ∈ (w.release outside).gone ↔ o ∈ w.gone ∨ o ∈ w.objects.filter w.isAlive ∧
      o ∉ w.lasting outside (w.objects.filter w.isAlive).length (w.objects.filter w.isAlive) := by
  unfold World.release
  simp only [List.mem_append, List.mem_filter, Std.HashSet.contains_ofList, Bool.not_eq_true', List.contains_eq_mem,
    decide_eq_false_iff_not]

/-- What something holds that stays is not let go. -/
theorem not_mem_gone_release {outside : List Object} {o p : Object} (hp : p ∈ w.holds o) (ho : w.Has o)
    (hstays : o ∉ (w.release outside).gone) (hpg : p ∉ w.gone) : p ∉ (w.release outside).gone := by
  intro hgone
  obtain ⟨hpresent, hlost⟩ := (mem_gone_release.mp hgone).resolve_left hpg
  have hog : o ∉ w.gone := fun h => hstays (mem_gone_release.mpr (.inl h))
  have hkept : o ∈ w.lasting outside (w.objects.filter w.isAlive).length (w.objects.filter w.isAlive) :=
    Decidable.byContradiction fun hn => hstays (mem_gone_release.mpr (.inr
      ⟨List.mem_filter.mpr ⟨mem_objects ho, by simpa [World.isAlive] using hog⟩, hn⟩))
  exact hlost (lasting_holds w outside hp _ _ hkept hpresent)

theorem Sound.release (h : w.Sound made) (outside : List Object) : (w.release outside).Sound made := by
  have hk := Keeps.release w outside
  refine ⟨fun c => (h.nodes c).keeps hk, fun f hf => (h.fields f hf).keeps hk, fun m hm => (h.methods m hm).keeps hk,
    fun k hk' => (h.constructors k hk').keeps hk, fun l => ?_, fun p hp => (h.made p hp).keeps hk, fun o ho => ?_⟩
  · have hl := h.loaders l
    refine ⟨hl.settings, hl.sorted, fun e he p hp hpe => ?_, fun hlt => provides_keeps (hl.provides hlt) hk rfl rfl,
      fun hs c hc => ⟨(hl.held hs c hc).1, fun hstays => ?_⟩⟩
    · exact hl.keys e he p hp hpe
    · have hlhas : w.Has (.loader l) := Nat.lt_of_not_le fun hn => by
        have : (w.release outside).loader l = default := Store.get_of_size_le _ hn
        rw [this] at hc; cases hc
      exact not_mem_gone_release (List.mem_map.mpr ⟨c, hc, rfl⟩) hlhas hstays
        ((hl.held hs c hc).2 fun h => hstays (mem_gone_release.mpr (.inl h)))
  · rcases mem_gone_release.mp ho with hg | ⟨hp, -⟩
    · exact (h.gone o hg).keeps hk
    · exact (has_of_mem_objects (List.mem_filter.mp hp).1).keeps hk

theorem written_next (w : World) {c : ClassId} {t : Target} (ht : t.WrittenIn c) :
    (w.withReference t).Written c w.nextReference := by
  refine ⟨?_, by rw [reference_next]; exact ht⟩
  show w.references.size < (w.references.push _).size
  simp

structure NarrowerNode (n' n : ClassNode) : Prop where
  supertypes : n'.superclass.toList ++ n'.interfaces ⊆ n.superclass.toList ++ n.interfaces
  fields : n'.fields ⊆ n.fields
  methods : n'.methods ⊆ n.methods
  constructors : n'.constructors ⊆ n.constructors

theorem NarrowerNode.refl (n : ClassNode) : NarrowerNode n n :=
  ⟨List.Subset.refl _, List.Subset.refl _, List.Subset.refl _, List.Subset.refl _⟩

theorem SoundNode.narrow {c : ClassId} {n n' : ClassNode} (h : w.SoundNode c n) (hs : SameClass n n')
    (hsub : NarrowerNode n' n) : w.SoundNode c n' where
  settings := by rw [hs.settings]; exact h.settings
  builtin hk := by
    unfold ClassNode.qualifiedName
    rw [hs.package, hs.simpleName]
    exact h.builtin (by rwa [hs.kind] at hk)
  supertypes r hr := h.supertypes r (hsub.supertypes hr)
  fields f hf := h.fields f (hsub.fields hf)
  methods m hm := h.methods m (hsub.methods hm)
  constructors k hk := h.constructors k (hsub.constructors hk)

theorem Sound.narrowNode (h : w.Sound made) {c : ClassId} (hc : w.Editable c) {f : ClassNode → ClassNode}
    (hs : ∀ n, SameClass n (f n)) (hsub : NarrowerNode (f (w.node c)) (w.node c)) : (w.editNode c f).Sound made :=
  h.editNode hc hs ((h.nodes c).narrow (hs _) hsub)

theorem Sound.withSuperclass (h : w.Sound made) {c : ClassId} {t : Target} (hc : w.Editable c) (ht : t.WrittenIn c) :
    ((w.withReference t).editNode c fun n => { n with superclass := some w.nextReference }).Sound made := by
  have h₁ := h.withReference t
  refine h₁.editNode hc (fun _ => ⟨rfl, rfl, rfl, rfl, rfl⟩) { h₁.nodes c with supertypes := fun r hr => ?_ }
  rcases List.mem_append.mp hr with hr | hr
  · have hnew : r = w.nextReference := by simpa using hr
    rw [hnew]
    exact written_next w ht
  · exact (h₁.nodes c).supertypes r (List.mem_append_right _ hr)

theorem Sound.withInterface (h : w.Sound made) {c : ClassId} {t : Target} (hc : w.Editable c) (ht : t.WrittenIn c) :
    ((w.withReference t).editNode c fun n =>
      { n with interfaces := n.interfaces ++ [w.nextReference] }).Sound made := by
  have h₁ := h.withReference t
  refine h₁.editNode hc (fun _ => ⟨rfl, rfl, rfl, rfl, rfl⟩) { h₁.nodes c with supertypes := fun r hr => ?_ }
  rw [← List.append_assoc] at hr
  rcases List.mem_append.mp hr with hr | hr
  · exact (h₁.nodes c).supertypes r hr
  · cases List.mem_singleton.mp hr
    exact written_next w ht

/-! A member is made first, and then the class it was made for lists it. -/

theorem Sound.withOwnField (h : w.Sound made) {c : ClassId} (hc : w.Editable c) {x : Field} (hx : w.SoundField x)
    (howner : x.owner = c) : ((w.withField x).editNode c fun n =>
      { n with fields := n.fields ++ [w.nextField], fieldsMade := n.fieldsMade + 1 }).Sound made := by
  have h₁ := h.withField hx
  refine h₁.editNode hc (fun _ => ⟨rfl, rfl, rfl, rfl, rfl⟩)
    { h₁.nodes c with fields := fun f hf => (List.mem_append.mp hf).elim ((h₁.nodes c).fields f) fun hf => ?_ }
  cases List.mem_singleton.mp hf
  refine ⟨by show _ < (w.fields.push _).size; rw [Store.size_push]; exact Nat.lt_succ_self _, ?_⟩
  exact (congrArg Field.owner (Store.get_push_self w.fields _)).trans howner

theorem Sound.withOwnMethod (h : w.Sound made) {c : ClassId} (hc : w.Editable c) {x : Method} (hx : w.SoundMethod x)
    (howner : x.owner = c) : ((w.withMethod x).editNode c fun n =>
      { n with methods := n.methods ++ [w.nextMethod], methodsMade := n.methodsMade + 1 }).Sound made := by
  have h₁ := h.withMethod hx
  refine h₁.editNode hc (fun _ => ⟨rfl, rfl, rfl, rfl, rfl⟩)
    { h₁.nodes c with methods := fun m hm => (List.mem_append.mp hm).elim ((h₁.nodes c).methods m) fun hm => ?_ }
  cases List.mem_singleton.mp hm
  refine ⟨by show _ < (w.methods.push _).size; rw [Store.size_push]; exact Nat.lt_succ_self _, ?_⟩
  exact (congrArg Method.owner (Store.get_push_self w.methods _)).trans howner

theorem Sound.withOwnConstructor (h : w.Sound made) {c : ClassId} (hc : w.Editable c) {x : Constructor}
    (hx : w.SoundConstructor x) (howner : x.owner = c) : ((w.withConstructor x).editNode c fun n =>
      { n with constructors := n.constructors ++ [w.nextConstructor] }).Sound made := by
  have h₁ := h.withConstructor hx
  refine h₁.editNode hc (fun _ => ⟨rfl, rfl, rfl, rfl, rfl⟩)
    { h₁.nodes c with
      constructors := fun k hk => (List.mem_append.mp hk).elim ((h₁.nodes c).constructors k) fun hk => ?_ }
  cases List.mem_singleton.mp hk
  refine ⟨by show _ < (w.constructors.push _).size; rw [Store.size_push]; exact Nat.lt_succ_self _, ?_⟩
  exact (congrArg Constructor.owner (Store.get_push_self w.constructors _)).trans howner

end

end World

open World

/-! ## Edits -/

section
variable {w w' : World} {made : List (LoaderId × ClassId)}

theorem ClassEdit.sound {c : ClassId} {e : ClassEdit} {result : Made} (h : w.Sound made)
    (he : apply c e w = (.ok result, w')) : w'.Sound made := by
  -- what only takes something away from the class, or sets what no name is written in
  have hnarrow {f : ClassNode → ClassNode} (he : update c f w = (.ok result, w')) (hs : ∀ n, SameClass n (f n))
      (hsub : ∀ n, NarrowerNode (f n) n) : w'.Sound made := by
    obtain ⟨hc, -, rfl⟩ := (update_makes c w f).ok he
    exact h.narrowNode hc hs (hsub _)
  have hs := (h.nodes c).settings
  cases e with
  | setSimpleName name => cases he
  | setSuperclass name =>
    obtain ⟨⟨hn, hc⟩, -, rfl⟩ := (superclassByName_makes c w name _).ok he
    exact h.withSuperclass hc ⟨rfl, hn⟩
  | setSuperclassUnqualified name =>
    obtain ⟨⟨hn, hc⟩, -, rfl⟩ := (superclassByName_makes c w name _).ok he
    exact h.withSuperclass hc ⟨rfl, hn⟩
  | setSuperclassClass d =>
    obtain ⟨hc, -, rfl⟩ := (setSuperclassClass_makes c w d).ok he
    exact h.withSuperclass hc trivial
  | addInterface name =>
    obtain ⟨⟨hn, hc⟩, -, rfl⟩ := (interfaceByName_makes c w name _).ok he
    exact h.withInterface hc ⟨rfl, hn⟩
  | addInterfaceUnqualified name =>
    obtain ⟨⟨hn, hc⟩, -, rfl⟩ := (interfaceByName_makes c w name _).ok he
    exact h.withInterface hc ⟨rfl, hn⟩
  | addInterfaceClass d =>
    obtain ⟨hc, -, rfl⟩ := (addInterfaceClass_makes c w d).ok he
    exact h.withInterface hc trivial
  | clearSuperclass =>
    exact hnarrow he (fun _ => ⟨rfl, rfl, rfl, rfl, rfl⟩) fun _ =>
      { NarrowerNode.refl _ with supertypes := List.subset_append_right _ _ }
  | removeField f =>
    exact hnarrow he (fun _ => ⟨rfl, rfl, rfl, rfl, rfl⟩) fun _ =>
      { NarrowerNode.refl _ with fields := fun _ h => (List.mem_filter.mp h).1 }
  | removeMethod m =>
    exact hnarrow he (fun _ => ⟨rfl, rfl, rfl, rfl, rfl⟩) fun _ =>
      { NarrowerNode.refl _ with methods := fun _ h => (List.mem_filter.mp h).1 }
  | removeConstructor k =>
    exact hnarrow he (fun _ => ⟨rfl, rfl, rfl, rfl, rfl⟩) fun _ =>
      { NarrowerNode.refl _ with constructors := fun _ h => (List.mem_filter.mp h).1 }
  | addField =>
    obtain ⟨hc, -, rfl⟩ := (addNewField_makes c w).ok he
    have ht : (Target.qualified (w.node c).settings.defaultFieldType c).WrittenIn c := ⟨rfl, hs.defaultFieldType⟩
    exact (h.withReference _).withOwnField hc ⟨hs.memberName (w.node c).fieldsMade, written_next w ht⟩ rfl
  | addMethod =>
    obtain ⟨hc, -, rfl⟩ := (addNewMethod_makes c w).ok he
    have ht : (Target.qualified (w.node c).settings.defaultReturnType c).WrittenIn c := ⟨rfl, hs.defaultReturnType⟩
    exact (h.withReference _).withOwnMethod hc
      ⟨hs.memberName (w.node c).methodsMade, written_next w ht, fun p hp => (by cases hp)⟩ rfl
  | addConstructor =>
    obtain ⟨hc, -, rfl⟩ := (addNewConstructor_makes c w).ok he
    exact h.withOwnConstructor hc (fun p hp => (by cases hp)) rfl
  | _ => exact hnarrow he (fun _ => ⟨rfl, rfl, rfl, rfl, rfl⟩) fun n => { NarrowerNode.refl n with }

theorem FieldEdit.sound {f : FieldId} {e : FieldEdit} {result : Made} (h : w.Sound made)
    (he : apply f e w = (.ok result, w')) : w'.Sound made := by
  have htype {t : Target} (ht : t.WrittenIn (w.field f).owner) :
      ((w.withReference t).editField f fun x => { x with type := w.nextReference }).Sound made :=
    (h.withReference t).editField (fun _ => rfl) fun hf => ⟨((h.withReference t).fields f hf).name, written_next w ht⟩
  cases e with
  | setName name =>
    obtain ⟨hn, -, rfl⟩ := (setName_makes f w name).ok he
    exact h.editField (fun _ => rfl) fun hf => ⟨hn, (h.fields f hf).type⟩
  | setModifiers m =>
    obtain ⟨-, -, rfl⟩ := (setModifiers_makes f w m).ok he
    exact h.editField (fun _ => rfl) fun hf => ⟨(h.fields f hf).name, (h.fields f hf).type⟩
  | setType name => obtain ⟨hn, -, rfl⟩ := (setType_makes f w name).ok he; exact htype ⟨rfl, hn⟩
  | setTypeUnqualified name =>
    obtain ⟨hn, -, rfl⟩ := (setTypeUnqualified_makes f w name).ok he; exact htype ⟨rfl, hn⟩
  | setTypeClass c => obtain ⟨-, -, rfl⟩ := (setTypeClass_makes f w c).ok he; exact htype trivial

theorem ParameterEdit.sound {owner : ClassId} {ps : Parameters} {e : ParameterEdit} {r : Parameters × Made}
    (h : w.Sound made) (hps : w.SoundParameters owner ps) (he : apply owner ps e w = (.ok r, w')) :
    w'.Sound made ∧ w'.SoundParameters owner r.1 ∧ w'.methods = w.methods ∧ w'.constructors = w.constructors := by
  have hadd {t : Target} {name : String} (ht : t.WrittenIn owner) (hn : IsIdentifier name) :
      (w.withReference t).SoundParameters owner ⟨ps.list ++ [⟨name, w.nextReference⟩], ps.made + 1⟩ := by
    intro p hp
    rcases List.mem_append.mp hp with hp | hp
    · exact hps.keeps (.withReference w t) p hp
    · cases List.mem_singleton.mp hp
      exact ⟨hn, written_next w ht⟩
  cases e with
  | add name type =>
    obtain ⟨⟨ht, hn⟩, rfl, rfl⟩ := (addNamed_makes w ps name type _).ok he
    exact ⟨h.withReference _, hadd ⟨rfl, ht⟩ hn, rfl, rfl⟩
  | addUnqualified name type =>
    obtain ⟨⟨ht, hn⟩, rfl, rfl⟩ := (addNamed_makes w ps name type _).ok he
    exact ⟨h.withReference _, hadd ⟨rfl, ht⟩ hn, rfl, rfl⟩
  | addNew =>
    obtain ⟨-, rfl, rfl⟩ := (addNew_makes w ps owner).ok he
    have hs := (h.nodes owner).settings
    exact ⟨h.withReference _, hadd ⟨rfl, hs.defaultFieldType⟩ (hs.memberName ps.made), rfl, rfl⟩
  | remove i =>
    obtain ⟨-, rfl, rfl⟩ := (remove_makes w ps owner i).ok he
    exact ⟨h, fun p hp => hps p (List.mem_of_mem_eraseIdx hp), rfl, rfl⟩

theorem World.Sound.methodParameters (h : w.Sound made) (m : MethodId) :
    w.SoundParameters (w.method m).owner (w.method m).parameters := by
  by_cases hm : m.index < w.methods.size
  · exact (h.methods m hm).parameters
  · rw [show w.method m = default from Store.get_of_size_le _ (Nat.not_lt.mp hm)]
    intro p hp; cases hp

theorem World.Sound.constructorParameters (h : w.Sound made) (k : ConstructorId) :
    w.SoundParameters (w.constructor k).owner (w.constructor k).parameters := by
  by_cases hk : k.index < w.constructors.size
  · exact h.constructors k hk
  · rw [show w.constructor k = default from Store.get_of_size_le _ (Nat.not_lt.mp hk)]
    intro p hp; cases hp

theorem MethodEdit.sound {m : MethodId} {e : MethodEdit} {result : Made} (h : w.Sound made)
    (he : apply m e w = (.ok result, w')) : w'.Sound made := by
  have htype {t : Target} (ht : t.WrittenIn (w.method m).owner) :
      ((w.withReference t).editMethod m fun x => { x with returnType := w.nextReference }).Sound made :=
    (h.withReference t).editMethod (fun _ => rfl) fun hm =>
      ⟨((h.withReference t).methods m hm).name, written_next w ht, ((h.withReference t).methods m hm).parameters⟩
  cases e with
  | setName name =>
    obtain ⟨hn, -, rfl⟩ := (setName_makes m w name).ok he
    exact h.editMethod (fun _ => rfl) fun hm => ⟨hn, (h.methods m hm).returnType, (h.methods m hm).parameters⟩
  | setModifiers ms =>
    obtain ⟨-, -, rfl⟩ := (setModifiers_makes m w ms).ok he
    exact h.editMethod (fun _ => rfl) fun hm =>
      ⟨(h.methods m hm).name, (h.methods m hm).returnType, (h.methods m hm).parameters⟩
  | setReturnType name => obtain ⟨hn, -, rfl⟩ := (setReturnType_makes m w name).ok he; exact htype ⟨rfl, hn⟩
  | setReturnTypeUnqualified name =>
    obtain ⟨hn, -, rfl⟩ := (setReturnTypeUnqualified_makes m w name).ok he; exact htype ⟨rfl, hn⟩
  | parameters e =>
    obtain ⟨p, ⟨ps, made'⟩, v, hv, -⟩ := ParameterEdit.makes w (w.method m).owner (w.method m).parameters e
    obtain ⟨hp, -, rfl⟩ := (parameters_makes hv).ok he
    obtain ⟨h₁, hps, hsame, -⟩ := ParameterEdit.sound h (h.methodParameters m) (hv.made hp)
    have hm₁ : v.method m = w.method m := by unfold World.method; rw [hsame]
    refine h₁.editMethod (fun _ => rfl) fun hm => ⟨(h₁.methods m hm).name, (h₁.methods m hm).returnType, ?_⟩
    rw [hm₁]; exact hps

theorem ConstructorEdit.sound {k : ConstructorId} {e : ConstructorEdit} {result : Made} (h : w.Sound made)
    (he : apply k e w = (.ok result, w')) : w'.Sound made := by
  cases e with
  | setModifiers m =>
    obtain ⟨-, -, rfl⟩ := (setModifiers_makes k w m).ok he
    exact h.editConstructor (fun _ => rfl) fun hk => h.constructors k hk
  | parameters e =>
    obtain ⟨p, ⟨ps, made'⟩, v, hv, -⟩ :=
      ParameterEdit.makes w (w.constructor k).owner (w.constructor k).parameters e
    obtain ⟨hp, -, rfl⟩ := (parameters_makes hv).ok he
    obtain ⟨h₁, hps, -, hsame⟩ := ParameterEdit.sound h (h.constructorParameters k) (hv.made hp)
    have hk₁ : v.constructor k = w.constructor k := by unfold World.constructor; rw [hsame]
    refine h₁.editConstructor (fun _ => rfl) fun hk => ?_
    rw [hk₁]; exact hps

theorem Edit.sound {e : Edit} {result : Made} (h : w.Sound made) (he : e.apply w = (.ok result, w')) :
    w'.Sound made := by
  cases e with
  | onClass c e => exact ClassEdit.sound h he
  | onField f e => exact FieldEdit.sound h he
  | onMethod m e => exact MethodEdit.sound h he
  | onConstructor k e => exact ConstructorEdit.sound h he

/-! ## Runs -/

namespace World

theorem Sound.empty : World.empty.Sound [] where
  nodes c := soundNode_bare Settings.standard_sound _ c "" "" _ fun hk => (hk rfl).elim
  fields f hf := absurd hf (Nat.not_lt_zero _)
  methods m hm := absurd hm (Nat.not_lt_zero _)
  constructors k hk := absurd hk (Nat.not_lt_zero _)
  loaders l := ⟨Settings.standard_sound, Registry.sorted_nil, fun e he => (by cases he),
    fun hl => absurd hl (Nat.not_lt_zero _), fun _ c hc => (by cases hc)⟩
  made p hp := (by cases hp)
  gone o ho := (by cases ho)

theorem Move.sound {made' : List (LoaderId × ClassId)} (h : w.Sound made) (hm : Move w made' w') :
    w'.Sound (made ++ made') := by
  cases hm with
  | define hl hc hd => exact h.define hl hc hd
  | make hm =>
    obtain ⟨hs, -, rfl⟩ := (Loader.make_makes _ _ w).ok hm
    rw [List.append_nil]; exact h.withLoader hs _
  | defineUncounted hn hd =>
    obtain ⟨-, -, rfl⟩ := (Loader.define_makes _ _ _ _ w).ok hd
    rw [List.append_nil]; exact h.withDefined _ _ _ _
  | create hc =>
    obtain ⟨⟨-, -, hs⟩, -, rfl⟩ := (createClass_makes _ _ _ _ w).ok hc
    rw [List.append_nil]
    exact h.withNode (soundNode_bare hs w _ _ _ _ fun hk => (hk rfl).elim)
  | edit he => rw [List.append_nil]; exact Edit.sound h he
  | refer => rw [List.append_nil]; exact h.withReference _
  | @dropInterfaces c keep hc =>
    rw [List.append_nil]
    refine h.narrowNode hc (fun _ => ⟨rfl, rfl, rfl, rfl, rfl⟩)
      { NarrowerNode.refl _ with supertypes := fun r hr => ?_ }
    rcases List.mem_append.mp hr with hr | hr
    · exact List.mem_append_left _ hr
    · exact List.mem_append_right _ (List.mem_filter.mp hr).1
  | standIn l name => rw [List.append_nil]; exact h.standIn l name
  | stray name lookup c =>
    rw [List.append_nil]; exact h.withNode (soundNode_standIn (h.nodes c).settings w _ name lookup)
  | remember r c => rw [List.append_nil]; exact h.editReference r fun _ => rfl
  | @answer l c hs =>
    rw [List.append_nil]
    refine h.editLoader (fun _ => ⟨rfl, rfl, rfl⟩) (Registry.sorted_insertNew (h.loaders l).sorted _ _) (fun e he => ?_)
      fun hn => (hs hn).elim
    rcases Registry.mem_insertNew he with rfl | he
    · exact .inr rfl
    · exact .inl he
  | ask l f g =>
    rw [List.append_nil]
    refine h.editLoader (fun _ => ⟨rfl, rfl, rfl⟩) (h.loaders l).sorted (fun e he => .inl he) fun _ c hc => .inl ?_
    rw [Loader.held, List.append_assoc]
    exact List.mem_append_right _ hc
  | aside log hd => rw [List.append_nil]; exact h.aside hd log
  | release outside => rw [List.append_nil]; exact h.release outside

theorem Moves.sound {made' : List (LoaderId × ClassId)} (h : w.Sound made) (hm : Moves w made' w') :
    w'.Sound (made ++ made') := by
  induction hm with
  | refl => rw [List.append_nil]; exact h
  | tail _ hm ih => rw [← List.append_assoc]; exact hm.sound ih

theorem Reached.sound (h : Reached w made) : w.Sound made := Moves.sound .empty h

end World

end

end ClassModel
