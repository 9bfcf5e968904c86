import ClassModel.Proofs.Graph.Registration

/-!
# Looking up again

What a lookup answers goes by what its loader has registered, as long as its sources go by nothing
else. So after a lookup that has registered nothing the next one has the same answer. But a source may
define a class and then give up: the first lookup of the name has no answer, the next one has the class.

Two runs are compared. From a world that differs only in what a first run has left behind, the second
run takes the same course.
-/

namespace ClassModel

open Change Name

/-- As long as the program has defined nothing, it goes by the registry of its loader alone, and it
answers with a class that it has been given. -/
def Program.Steady (given : List ClassId) : Program → Prop
  | .answer found => ∀ c ∈ found, c ∈ given
  | .define _ _ _ next => ∀ e, (next (.error e)).Steady given
  | .create _ _ _ _ _ => False
  | .edit _ next => (∀ r, (next r).Steady given) ∧ ∀ r r', next r = next r'
  | .lookup _ next => ∀ r, (next r).Steady (r.toList ++ given)
  | .lookupDefault _ next => ∀ r, (next r).Steady (r.toList ++ given)
  | .load _ next => ∀ c, (next c).Steady (c :: given)
  | .placeholder _ next => ∀ c, (next c).Steady (c :: given)
  | .classes next => ∀ cs, (next cs).Steady (cs ++ given)
  | .inspect _ _ => False

structure Source.Steady (given : List ClassId) (s : Source) : Prop where
  program : ∀ asked name, (s.program asked name).Steady given
  history : ∀ asked asked' name, s.program asked name = s.program asked' name

/-- All rules make steady sources but the one that makes classes without a loader. -/
theorem SourceRule.steady {r : SourceRule} (h : ∀ names, r ≠ .detached names) : r.source.Steady [] := by
  refine ⟨fun _ name => ?_, fun _ _ _ => rfl⟩
  show (r.program name).Steady []
  have hdefine (name : String) (imports : List Import) (next : ClassId → Program) :
      (defineNamed name imports next).Steady [] := fun _ _ h => by cases h
  have hnone : (Program.answer none).Steady [] := fun _ h => by cases h
  cases r with
  | table classes =>
    simp only [program, declare]
    cases get? classes name with
    | none => exact hnone
    | some d =>
      dsimp only
      cases Import.parseAll d.imports with
      | error e => exact hnone
      | ok imports => exact hdefine name imports _
  | package p isInterface =>
    simp only [program]
    by_cases hp : packageOf name = p
    · rw [if_pos hp]; exact hdefine name [] _
    · rw [if_neg hp]; exact hnone
  | redirect names => simp only [program]; cases get? names name <;> simp [Program.Steady]
  | touch names => simp only [program]; cases get? names name <;> simp [Program.Steady]
  | load names => simp only [program]; cases get? names name <;> simp [Program.Steady]
  | detached names => exact (h names rfl).elim

namespace World

structure Kept (x y : Loader) (size : Nat) : Prop where
  builtins : y.builtins = x.builtins
  classes : y.classes = x.classes
  loading : y.loading = x.loading
  standIns : ∀ name c, x.placeholders.get? name = some c → y.placeholders.get? name = some c
  fresh : ∀ e ∈ y.placeholders, e ∈ x.placeholders ∨ e.2.index < size

structure Quiet (l : LoaderId) (u v : World) : Prop where
  keeps : u.Keeps v
  kept : Kept (u.loader l) (v.loader l) v.nodes.size

/-- Nothing has been registered in loader `l`, or there is more than before. -/
structure Upkeep (l : LoaderId) (u v : World) : Prop where
  keeps : u.Keeps v
  builtins : (v.loader l).builtins = (u.loader l).builtins
  loading : (v.loader l).loading = (u.loader l).loading
  grows : Quiet l u v ∨ (u.loader l).classes.length < (v.loader l).classes.length

section
variable {l : LoaderId} {u v z : World}

theorem Kept.refl (x : Loader) (size : Nat) : Kept x x size := ⟨rfl, rfl, rfl, fun _ _ h => h, fun _ h => .inl h⟩

theorem Quiet.of_eq (hk : u.Keeps v) (h : v.loader l = u.loader l) : Quiet l u v := ⟨hk, by rw [h]; exact .refl _ _⟩

theorem Quiet.refl (l : LoaderId) (u : World) : Quiet l u u := .of_eq (.refl u) rfl

theorem Quiet.trans (h : Quiet l u v) (h' : Quiet l v z) : Quiet l u z := by
  refine ⟨h.keeps.trans h'.keeps, h'.kept.builtins.trans h.kept.builtins, h'.kept.classes.trans h.kept.classes,
    h'.kept.loading.trans h.kept.loading, fun name c hc => h'.kept.standIns name c (h.kept.standIns name c hc),
    fun e he => ?_⟩
  rcases h'.kept.fresh e he with he | hlt
  · rcases h.kept.fresh e he with he | hlt
    · exact .inl he
    · exact .inr (Nat.lt_of_lt_of_le hlt h'.keeps.size)
  · exact .inr hlt

theorem Quiet.noting (hu : l.index < u.loaders.size) (i : Nat) (name : String) :
    Quiet l u (u.editLoader l fun x => { x with asked := (i, name) :: x.asked }) := by
  refine ⟨.editLoader fun _ => ⟨rfl, rfl⟩, ?_⟩
  rw [loader_editLoader_self hu]
  exact ⟨rfl, rfl, rfl, fun _ _ h => h, fun _ h => .inl h⟩

theorem Quiet.placeholder (hu : l.index < u.loaders.size) (name : String) :
    Quiet l u (Loader.placeholder l name u).2 := by
  have hkeeps := Keeps.standIn u l name
  rw [placeholder_run] at hkeeps ⊢
  cases hn : (u.loader l).placeholders.get? name with
  | some c => exact .refl l u
  | none =>
    rw [hn] at hkeeps
    refine ⟨hkeeps, ?_⟩
    dsimp only
    rw [loader_editLoader_self (w := u.withNode _) hu]
    refine ⟨rfl, rfl, rfl, fun _ _ hc => Registry.get?_insert_of_some hn hc, fun e he => ?_⟩
    rcases Registry.mem_insert_subset he with rfl | he
    · exact .inr (by show u.nodes.size < (u.nodes.push _).size; simp)
    · exact .inl he

theorem Quiet.edit (u : World) (e : Edit) : Quiet l u (e.apply.run u).2 := by
  refine .of_eq ?_ ?_
  · obtain ⟨p, made, w', h, -⟩ := e.makes u
    exact h.keeps (.refl u) fun hp => Edit.keeps (h.made hp)
  · unfold World.loader
    rw [show (e.apply.run u).2.loaders = u.loaders from (e.spares u).loaders]

theorem Quiet.upkeep (h : Quiet l u v) : Upkeep l u v := ⟨h.keeps, h.kept.builtins, h.kept.loading, .inl h⟩

theorem Upkeep.refl (l : LoaderId) (u : World) : Upkeep l u u := (Quiet.refl l u).upkeep

theorem Upkeep.quiet (h : Upkeep l u v) (hc : (v.loader l).classes = (u.loader l).classes) : Quiet l u v := by
  rcases h.grows with h | h
  · exact h
  · rw [hc] at h
    exact (Nat.lt_irrefl _ h).elim

theorem Upkeep.length_le (h : Upkeep l u v) : (u.loader l).classes.length ≤ (v.loader l).classes.length := by
  rcases h.grows with h | h
  · rw [h.kept.classes]
  · exact Nat.le_of_lt h

theorem Upkeep.trans (h : Upkeep l u v) (h' : Upkeep l v z) : Upkeep l u z := by
  refine ⟨h.keeps.trans h'.keeps, h'.builtins.trans h.builtins, h'.loading.trans h.loading, ?_⟩
  rcases h.grows with hq | hlt
  · rcases h'.grows with hq' | hlt'
    · exact .inl (hq.trans hq')
    · rw [hq.kept.classes] at hlt'
      exact .inr hlt'
  · exact .inr (Nat.lt_of_lt_of_le hlt h'.length_le)

/-- If nothing has been registered in the end, nothing has been on the way. -/
theorem Upkeep.quiet_of_trans (h : Upkeep l u v) (h' : Upkeep l v z) (hz : Quiet l u z) :
    Quiet l u v ∧ Quiet l v z := by
  have hle := h.length_le
  have hle' := h'.length_le
  have hlen := congrArg List.length hz.kept.classes
  constructor
  · rcases h.grows with hq | hlt
    · exact hq
    · omega
  · rcases h'.grows with hq | hlt
    · exact hq
    · omega

end

end World

open World

/-! ## Runs that keep a loader up -/

def Bounded.Upkeeps (l : LoaderId) (s : Bounded α) : Prop :=
  ∀ u a v, l.index < u.loaders.size → s u = some (a, v) → Upkeep l u v

namespace Bounded.Upkeeps

variable {l : LoaderId}

theorem bind {s : Bounded α} {f : α → Bounded β} (hs : Upkeeps l s) (hf : ∀ a, Upkeeps l (f a)) :
    Upkeeps l (s >>= f) := by
  intro u b z hu h
  obtain ⟨a, v, h₁, h₂⟩ := bind_eq_some.mp h
  have hv := hs u a v hu h₁
  exact hv.trans (hf a v b z (hv.keeps.loaders l hu).1 h₂)

theorem of {s : Step α} (hs : ∀ u, l.index < u.loaders.size → Upkeep l u (s u).2) : Upkeeps l (Bounded.of s) := by
  intro u a v hu h
  have hrun : s u = (a, v) := Option.some.inj h
  have := hs u hu
  rwa [hrun] at this

theorem pure (a : α) : Upkeeps l (Pure.pure a : Bounded α) := of fun _ _ => .refl l _

theorem see (f : World → α) : Upkeeps l (see f) := of fun _ _ => .refl l _

theorem log (e : Log.Event) : Upkeeps l (Bounded.of (Step.log e)) :=
  of fun _ _ => (Quiet.of_eq (.aside (Nat.le_refl _) _) rfl).upkeep

theorem look {s : Bounded α} {g : World → γ} {f : γ → Bounded α} (hs : ∀ u, s u = f (g u) u)
    (hf : ∀ x, Upkeeps l (f x)) : Upkeeps l s := by
  intro u a v hu h
  rw [hs u] at h
  exact hf (g u) u a v hu h

theorem noting (i : Nat) (name : String) :
    Upkeeps l (Bounded.of (Step.onLoader l fun x => { x with asked := (i, name) :: x.asked })) := by
  exact of fun u hu => (Quiet.noting hu i name).upkeep

theorem placeholder (name : String) : Upkeeps l (Bounded.of (Loader.placeholder l name)) := by
  exact of fun u hu => (Quiet.placeholder hu name).upkeep

theorem define (package simpleName : String) (imports : List Import) :
    Upkeeps l (Bounded.of (Loader.define l package simpleName imports).run) := by
  refine of fun u hu => ?_
  have hmakes := Loader.define_makes l package simpleName imports u
  refine hmakes.keeps (.refl l u) fun hp => ?_
  have hself := loader_withDefined_self package simpleName imports hu
  refine ⟨.define (hmakes.made hp), by rw [hself], by rw [hself], .inr ?_⟩
  rw [hself, (Registry.insert_perm _ _ hp.2.2.2).length_eq]
  exact Nat.lt_succ_self _

theorem create (package simpleName : String) (lookup : Option Collaborator) (settings : Settings) :
    Upkeeps l (Bounded.of (createClass package simpleName lookup settings).run) := by
  refine of fun u _ => ?_
  refine (createClass_makes package simpleName lookup settings u).keeps (.refl l u) fun _ => ?_
  exact (Quiet.of_eq (.withNode u _) rfl).upkeep

theorem edit (e : Edit) : Upkeeps l (Bounded.of e.apply.run) := of fun u _ => (Quiet.edit u e).upkeep

theorem compositional (l : LoaderId) : Compositional l (Upkeeps l) where
  pure := pure
  bind := bind
  see := see
  log := log
  noting := noting
  placeholder := placeholder
  define := define
  create := create
  edit := edit

end Bounded.Upkeeps

/-! ## While a name is being asked for -/

namespace World

section
variable {l : LoaderId} {u v z : World} {name : String}

theorem loader_entered (hu : l.index < u.loaders.size) (name : String) :
    (u.entered l name).loader l = { u.loader l with loading := name :: (u.loader l).loading } :=
  loader_editLoader_self hu _

theorem loader_left (hu : l.index < u.loaders.size) (name : String) :
    (u.left l name).loader l = { u.loader l with loading := (u.loader l).loading.erase name } :=
  loader_editLoader_self hu _

theorem Keeps.entered (u : World) (l : LoaderId) (name : String) : u.Keeps (u.entered l name) :=
  .editLoader fun _ => ⟨rfl, rfl⟩

theorem Keeps.left (u : World) (l : LoaderId) (name : String) : u.Keeps (u.left l name) :=
  .editLoader fun _ => ⟨rfl, rfl⟩

theorem lt_of_entered (hu : l.index < u.loaders.size) (h : (u.entered l name).Keeps v) : l.index < v.loaders.size :=
  (((Keeps.entered u l name).trans h).loaders l hu).1

theorem Quiet.left (hu : l.index < u.loaders.size) (h : Quiet l (u.entered l name) v) : Quiet l u (v.left l name) := by
  have hkept := h.kept
  rw [loader_entered hu] at hkept
  refine ⟨((Keeps.entered u l name).trans h.keeps).trans (.left v l name), ?_⟩
  rw [loader_left (lt_of_entered hu h.keeps)]
  refine ⟨hkept.builtins, hkept.classes, ?_, hkept.standIns, hkept.fresh⟩
  show (v.loader l).loading.erase name = _
  rw [hkept.loading]
  exact List.erase_cons_head _ _

theorem Upkeep.left (hu : l.index < u.loaders.size) (h : Upkeep l (u.entered l name) v) :
    Upkeep l u (v.left l name) := by
  have hentered := loader_entered hu name
  have hleft := loader_left (lt_of_entered hu h.keeps) name
  refine ⟨((Keeps.entered u l name).trans h.keeps).trans (.left v l name), ?_, ?_, ?_⟩
  · rw [hleft]
    show (v.loader l).builtins = _
    rw [h.builtins, hentered]
  · rw [hleft]
    show (v.loader l).loading.erase name = _
    rw [h.loading, hentered]
    exact List.erase_cons_head _ _
  · rcases h.grows with hq | hlt
    · exact .inl (hq.left hu)
    · rw [hentered] at hlt
      exact .inr (by rw [hleft]; exact hlt)

theorem Upkeep.quiet_of_left (hu : l.index < u.loaders.size) (h : Upkeep l (u.entered l name) v)
    (hq : Quiet l u (v.left l name)) : Quiet l (u.entered l name) v := by
  refine h.quiet ?_
  have hclasses := hq.kept.classes
  rw [loader_left (lt_of_entered hu h.keeps)] at hclasses
  rw [loader_entered hu]
  exact hclasses

theorem Quiet.enter (hu : l.index < u.loaders.size) (h : Quiet l (u.entered l name) v)
    (hz : Quiet l (v.left l name) z) : Quiet l v (z.entered l name) := by
  have hv := lt_of_entered hu h.keeps
  have hloading := h.kept.loading
  have hkept := hz.kept
  rw [loader_entered hu] at hloading
  rw [loader_left hv] at hkept
  have hkeeps := (Keeps.left v l name).trans hz.keeps
  refine ⟨hkeeps.trans (.entered z l name), ?_⟩
  rw [loader_entered (hkeeps.loaders l hv).1]
  refine ⟨hkept.builtins, hkept.classes, ?_, hkept.standIns, hkept.fresh⟩
  show name :: (z.loader l).loading = _
  rw [hkept.loading, hloading]
  show name :: (name :: _).erase name = _
  rw [List.erase_cons_head]

end

end World

namespace Bounded.Upkeeps

variable {l : LoaderId}

theorem whileLoading {s : Bounded α} (hs : Upkeeps l s) (name : String) : Upkeeps l (Loader.whileLoading l name s) := by
  intro u a v hu h
  rw [Loader.whileLoading_run] at h
  obtain ⟨⟨b, v'⟩, hb, hv⟩ := Option.map_eq_some_iff.mp h
  cases hv
  have hentered := ((Keeps.entered u l name).loaders l hu).1
  exact (hs _ _ _ hentered hb).left hu

theorem insertNew (own : String) (c : ClassId) :
    Upkeeps l (Bounded.of (Step.onLoader l fun x => { x with classes := x.classes.insertNew own c })) := by
  refine of fun u hu => ?_
  have hself := loader_editLoader_self hu fun x => { x with classes := x.classes.insertNew own c }
  have hkeeps : u.Keeps (u.editLoader l fun x => { x with classes := x.classes.insertNew own c }) :=
    .editLoader fun _ => ⟨rfl, rfl⟩
  show Upkeep l u (u.editLoader l fun x => { x with classes := x.classes.insertNew own c })
  cases hown : (u.loader l).classes.get? own with
  | some d =>
    have hsame : (u.loader l).classes.insertNew own c = (u.loader l).classes := by simp [Registry.insertNew, hown]
    refine Quiet.upkeep ⟨hkeeps, ?_⟩
    rw [hself, hsame]
    exact .refl _ _
  | none =>
    refine ⟨hkeeps, by rw [hself], by rw [hself], .inr ?_⟩
    have hnew : (u.loader l).classes.insertNew own c = (u.loader l).classes.insert own c := by
      simp [Registry.insertNew, hown]
    rw [hself, hnew, (Registry.insert_perm own c hown).length_eq]
    exact Nat.lt_succ_self _

theorem register (name : String) (found : Option ClassId) : Upkeeps l (Loader.register l name found) := by
  cases found with
  | none => exact pure none
  | some c => exact (see _).bind fun own => (log _).bind fun _ => (insertNew own c).bind fun _ => pure _

theorem lookupWithin (depth : Nat) : ∀ name, Upkeeps l (Loader.lookupWithin depth l name) := by
  induction depth with
  | zero => intro name u a v _ h; cases h
  | succ depth ih =>
    refine fun name => look (Loader.lookupWithin_eq depth l name) fun ⟨cached, sources, asking⟩ => ?_
    unfold Loader.lookupBy
    cases cached with
    | some c => exact pure (some c)
    | none =>
      dsimp only
      by_cases hs : sources.isEmpty
      · rw [if_pos hs]; exact pure none
      · rw [if_neg hs]
        cases asking with
        | true => exact (log _).bind fun _ => pure none
        | false => exact (whileLoading ((compositional l).askSources ih name sources 0) name).bind (register name)

end Bounded.Upkeeps

/-! ## Runs that repeat themselves -/

namespace World

structure Fit (l : LoaderId) (u : World) : Prop where
  lt : l.index < u.loaders.size
  steady : ∃ given, (∀ c ∈ given, c.index < u.nodes.size) ∧ ∀ s ∈ (u.loader l).sources, s.Steady given
  builtins : ∀ e ∈ (u.loader l).builtins, e.2.index < u.nodes.size
  classes : ∀ e ∈ (u.loader l).classes, e.2.index < u.nodes.size
  standIns : ∀ e ∈ (u.loader l).placeholders, e.2.index < u.nodes.size

section
variable {l : LoaderId} {u v : World} {name : String}

theorem Quiet.fit (h : Quiet l u v) (hu : Fit l u) : Fit l v := by
  obtain ⟨hlt, -, hsources⟩ := h.keeps.loaders l hu.lt
  obtain ⟨given, hgiven, hsteady⟩ := hu.steady
  have hsize := h.keeps.size
  refine ⟨hlt, ⟨given, fun c hc => Nat.lt_of_lt_of_le (hgiven c hc) hsize, by rwa [hsources]⟩, fun e he => ?_,
    fun e he => ?_, fun e he => ?_⟩
  · rw [h.kept.builtins] at he
    exact Nat.lt_of_lt_of_le (hu.builtins e he) hsize
  · rw [h.kept.classes] at he
    exact Nat.lt_of_lt_of_le (hu.classes e he) hsize
  · rcases h.kept.fresh e he with he | hlt
    · exact Nat.lt_of_lt_of_le (hu.standIns e he) hsize
    · exact hlt

theorem Fit.entered (hu : Fit l u) (name : String) : Fit l (u.entered l name) := by
  have hself := loader_entered hu.lt name
  refine ⟨((Keeps.entered u l name).loaders l hu.lt).1, ?_, ?_, ?_, ?_⟩ <;> rw [hself]
  · exact hu.steady
  · exact hu.builtins
  · exact hu.classes
  · exact hu.standIns

theorem Quiet.cached? (h : Quiet l u v) (name : String) : (v.loader l).cached? name = (u.loader l).cached? name := by
  unfold Loader.cached?
  rw [h.kept.builtins, h.kept.classes]

theorem Quiet.refusal? (h : Quiet l u v) (package simpleName : String) :
    (v.loader l).refusal? package simpleName = (u.loader l).refusal? package simpleName := by
  unfold Loader.refusal?
  rw [h.kept.builtins, h.kept.classes]

/-- Only a refused definition is quiet. -/
theorem Quiet.refused {package simpleName : String} {imports : List Import} {r : Except ModelError ClassId}
    (h : Quiet l u v) (hu : l.index < u.loaders.size)
    (hdefine : Loader.define l package simpleName imports u = (r, v)) :
    v = u ∧ ∃ e, r = .error e ∧ (u.loader l).refusal? package simpleName = some e := by
  rw [Loader.define_run] at hdefine
  cases hr : (u.loader l).refusal? package simpleName with
  | some e =>
    rw [hr] at hdefine
    cases hdefine
    exact ⟨rfl, e, rfl, rfl⟩
  | none =>
    obtain ⟨-, -, -, hnone⟩ := Loader.refusal?_eq_none.mp hr
    rw [hr] at hdefine
    cases hdefine
    have hlen := congrArg List.length h.kept.classes
    rw [loader_withDefined_self package simpleName imports hu, (Registry.insert_perm _ _ hnone).length_eq] at hlen
    exact (Nat.succ_ne_self _ hlen).elim

theorem Fit.cached? (hu : Fit l u) {c : ClassId} (h : (u.loader l).cached? name = some c) :
    c.index < u.nodes.size := by
  rcases Option.or_eq_some_iff.mp h with h | ⟨-, h⟩
  · exact hu.builtins _ (Registry.mem_of_get? h)
  · exact hu.classes _ (Registry.mem_of_get? h)

end

end World

/-- Where the step has registered nothing, it does the same once more. It has been given classes that
are there, and hands out such. -/
def Bounded.Repeats (l : LoaderId) (given : List ClassId) (out : α → List ClassId) (s : Bounded α) : Prop :=
  ∀ u a v, Fit l u → (∀ c ∈ given, c.index < u.nodes.size) → s u = some (a, v) → Quiet l u v →
    (∀ c ∈ out a, c.index < v.nodes.size) ∧ ∀ z, Quiet l v z → ∃ z', s z = some (a, z') ∧ Quiet l z z'

namespace Bounded.Repeats

variable {l : LoaderId} {given : List ClassId} {out : α → List ClassId} {out' : β → List ClassId}

theorem mono {more : List ClassId} {s : Bounded α} (hs : Repeats l given out s) (h : given ⊆ more) :
    Repeats l more out s :=
  fun u a v hu hgiven => hs u a v hu fun c hc => hgiven c (h hc)

theorem bind {s : Bounded α} {f : α → Bounded β} (hks : Upkeeps l s) (hkf : ∀ a, Upkeeps l (f a))
    (hs : Repeats l given out s) (hf : ∀ a, Repeats l (out a ++ given) out' (f a)) :
    Repeats l given out' (s >>= f) := by
  intro u b v hu hgiven h hq
  obtain ⟨a, v₁, h₁, h₂⟩ := bind_eq_some.mp h
  have hk₁ := hks u a v₁ hu.lt h₁
  have hk₂ := hkf a v₁ b v (hk₁.keeps.loaders l hu.lt).1 h₂
  obtain ⟨hq₁, hq₂⟩ := hk₁.quiet_of_trans hk₂ hq
  obtain ⟨hout, hagain⟩ := hs u a v₁ hu hgiven h₁ hq₁
  have hmore : ∀ c ∈ out a ++ given, c.index < v₁.nodes.size := by
    intro c hc
    rcases List.mem_append.mp hc with hc | hc
    · exact hout c hc
    · exact Nat.lt_of_lt_of_le (hgiven c hc) hq₁.keeps.size
  obtain ⟨hout', hagain'⟩ := hf a v₁ b v (hq₁.fit hu) hmore h₂ hq₂
  refine ⟨hout', fun z hz => ?_⟩
  obtain ⟨z₁, hz₁, hqz₁⟩ := hagain z (hq₂.trans hz)
  obtain ⟨z', hz', hqz'⟩ := hagain' z₁ (hz.trans hqz₁)
  exact ⟨z', bind_eq_some.mpr ⟨a, z₁, hz₁, hz'⟩, hqz₁.trans hqz'⟩

theorem of {s : Step α} (hs : ∀ u, Fit l u → (∀ c ∈ given, c.index < u.nodes.size) → Quiet l u (s u).2 →
      (∀ c ∈ out (s u).1, c.index < (s u).2.nodes.size) ∧
        ∀ z, Quiet l (s u).2 z → (s z).1 = (s u).1 ∧ Quiet l z (s z).2) :
    Repeats l given out (Bounded.of s) := by
  intro u a v hu hgiven h hq
  have hrun : s u = (a, v) := Option.some.inj h
  have hall := hs u hu hgiven
  rw [hrun] at hall
  obtain ⟨hout, hagain⟩ := hall hq
  refine ⟨hout, fun z hz => ?_⟩
  obtain ⟨ha, hqz⟩ := hagain z hz
  exact ⟨(s z).2, congrArg some (Prod.ext ha rfl), hqz⟩

theorem pure {a : α} (h : ∀ c ∈ out a, c ∈ given) : Repeats l given out (Pure.pure a : Bounded α) :=
  of fun _ _ hgiven _ => ⟨fun c hc => hgiven c (h c hc), fun z _ => ⟨rfl, .refl l z⟩⟩

theorem see {f : World → α} (hout : ∀ u, Fit l u → ∀ c ∈ out (f u), c.index < u.nodes.size)
    (hf : ∀ u v, (∀ c ∈ given, c.index < u.nodes.size) → Quiet l u v → f v = f u) :
    Repeats l given out (Bounded.see f) :=
  of fun u hu hgiven _ => ⟨hout u hu, fun z hz => ⟨hf u z hgiven hz, .refl l z⟩⟩

theorem look {s : Bounded α} {g : World → γ} {f : γ → Bounded α} (hs : ∀ u, s u = f (g u) u)
    (hg : ∀ u v, Fit l u → Quiet l u v → g v = g u)
    (hf : ∀ u, Fit l u → ∃ seen, (∀ c ∈ seen, c.index < u.nodes.size) ∧ Repeats l seen out (f (g u))) :
    Repeats l given out s := by
  intro u a v hu _ h hq
  rw [hs u] at h
  obtain ⟨seen, hseen, hrepeats⟩ := hf u hu
  obtain ⟨hout, hagain⟩ := hrepeats u a v hu hseen h hq
  refine ⟨hout, fun z hz => ?_⟩
  obtain ⟨z', hz', hqz⟩ := hagain z hz
  refine ⟨z', ?_, hqz⟩
  rw [hs z, hg u z hu (hq.trans hz)]
  exact hz'

theorem after {s : Step β} {t : Bounded α} (hs : ∀ u, l.index < u.loaders.size → Quiet l u (s u).2)
    (hk : Upkeeps l t) (ht : Repeats l given out t) : Repeats l given out (Bounded.of s >>= fun _ => t) := by
  intro u a v hu hgiven h hq
  have hrun (u : World) : (Bounded.of s >>= fun _ => t) u = t (s u).2 := rfl
  rw [hrun] at h
  have hqs := hs u hu.lt
  have hks := hk _ a v (hqs.fit hu).lt h
  obtain ⟨hout, hagain⟩ := ht _ a v (hqs.fit hu) (fun c hc => Nat.lt_of_lt_of_le (hgiven c hc) hqs.keeps.size) h
    (hqs.upkeep.quiet_of_trans hks hq).2
  refine ⟨hout, fun z hz => ?_⟩
  have hqz := hs z ((hq.trans hz).fit hu).lt
  obtain ⟨z', hz', hqz'⟩ := hagain _ (hz.trans hqz)
  exact ⟨z', by rw [hrun]; exact hz', hqz.trans hqz'⟩

theorem log {t : Bounded α} (e : Log.Event) (hk : Upkeeps l t) (ht : Repeats l given out t) :
    Repeats l given out (Bounded.of (Step.log e) >>= fun _ => t) :=
  after (fun _ _ => .of_eq (.aside (Nat.le_refl _) _) rfl) hk ht

theorem placeholder (name : String) : Repeats l given (fun c => [c]) (Bounded.of (Loader.placeholder l name)) := by
  refine of fun u hu _ _ => ?_
  have hkept : ((Loader.placeholder l name u).2.loader l).placeholders.get? name =
      some (Loader.placeholder l name u).1 := by
    rw [placeholder_run]
    cases hn : (u.loader l).placeholders.get? name with
    | some c => exact hn
    | none =>
      dsimp only
      rw [loader_editLoader_self (w := u.withNode _) hu.lt]
      exact Registry.get?_insert_self _ _ _
  have hfit := (Quiet.placeholder hu.lt name).fit hu
  refine ⟨fun c hc => ?_, fun z hz => ?_⟩
  · rw [List.mem_singleton.mp hc]
    exact hfit.standIns _ (Registry.mem_of_get? hkept)
  · rw [placeholder_run z, hz.kept.standIns _ _ hkept]
    exact ⟨rfl, .refl l z⟩

/-- A definition that has registered nothing was refused, and is refused again. -/
theorem define {package simpleName : String} {imports : List Import} {next : Except ModelError ClassId → Bounded α}
    (hk : ∀ r, Upkeeps l (next r)) (hnext : ∀ e, Repeats l given out (next (.error e))) :
    Repeats l given out (Bounded.of (Loader.define l package simpleName imports).run >>= next) := by
  intro u a v hu hgiven h hq
  obtain ⟨r, v₁, h₁, h₂⟩ := bind_eq_some.mp h
  have hdefine := Upkeeps.define package simpleName imports u r v₁ hu.lt h₁
  obtain ⟨hq₁, hq₂⟩ := hdefine.quiet_of_trans (hk r v₁ a v (hdefine.keeps.loaders l hu.lt).1 h₂) hq
  obtain ⟨rfl, e, rfl, hrefusal⟩ := hq₁.refused hu.lt (Option.some.inj h₁)
  obtain ⟨hout, hagain⟩ := hnext e v₁ a v hu hgiven h₂ hq₂
  refine ⟨hout, fun z hz => ?_⟩
  obtain ⟨z', hz', hqz⟩ := hagain z hz
  refine ⟨z', bind_eq_some.mpr ⟨.error e, z, congrArg some ?_, hz'⟩, hqz⟩
  show Loader.define l package simpleName imports z = _
  rw [Loader.define_run, (hq.trans hz).refusal?, hrefusal]

theorem edit {t : Bounded α} (e : Edit) (hk : Upkeeps l t) (ht : Repeats l given out t) :
    Repeats l given out (Bounded.of e.apply.run >>= fun _ => t) := after (fun u _ => .edit u e) hk ht

theorem whileLoading {s : Bounded α} (hk : Upkeeps l s) (hs : Repeats l given out s) (name : String) :
    Repeats l given out (Loader.whileLoading l name s) := by
  intro u a v hu hgiven h hq
  rw [Loader.whileLoading_run] at h
  obtain ⟨⟨b, v'⟩, hb, hv⟩ := Option.map_eq_some_iff.mp h
  cases hv
  have hentered := hu.entered name
  have hq' := (hk _ _ _ hentered.lt hb).quiet_of_left hu.lt hq
  obtain ⟨hout, hagain⟩ := hs _ _ _ hentered hgiven hb hq'
  refine ⟨hout, fun z hz => ?_⟩
  obtain ⟨z', hz', hqz⟩ := hagain _ (hq'.enter hu.lt hz)
  refine ⟨z'.left l name, ?_, hqz.left ((hq.trans hz).fit hu).lt⟩
  rw [Loader.whileLoading_run, hz']
  rfl

/-- What has not been registered because its name was taken is not registered the next time. -/
theorem insertNew (own : String) (c : ClassId) : Repeats l given (fun _ => [])
    (Bounded.of (Step.onLoader l fun x => { x with classes := x.classes.insertNew own c })) := by
  refine of fun u hu _ hq => ⟨fun c hc => (List.not_mem_nil hc).elim, fun z hz => ⟨rfl, ?_⟩⟩
  have hq : Quiet l u (u.editLoader l fun x => { x with classes := x.classes.insertNew own c }) := hq
  have hlt := ((hq.trans hz).fit hu).lt
  have hclasses := hq.kept.classes
  rw [loader_editLoader_self hu.lt] at hclasses
  have htaken : (z.loader l).classes.insertNew own c = (z.loader l).classes := by
    rw [(hq.trans hz).kept.classes]
    exact hclasses
  refine ⟨.editLoader fun _ => ⟨rfl, rfl⟩, ?_⟩
  show Kept _ ((z.editLoader l _).loader l) _
  rw [loader_editLoader_self hlt, htaken]
  exact .refl _ _

theorem register (name : String) {found : Option ClassId} (h : found.toList ⊆ given) :
    Repeats l given Option.toList (Loader.register l name found) := by
  cases found with
  | none => exact pure fun c hc => (List.not_mem_nil hc).elim
  | some c =>
    have hc : c ∈ given := h (List.mem_singleton_self c)
    have hname : Repeats l given (fun _ => []) (Bounded.see (·.nameOf c)) :=
      see (fun _ _ d hd => (List.not_mem_nil hd).elim) fun u v hgiven hq => hq.keeps.nameOf (hgiven c hc)
    have hinsert (own : String) : Upkeeps l (Bounded.of (Step.onLoader l fun x =>
        { x with classes := x.classes.insertNew own c }) >>= fun _ => Pure.pure (some c)) :=
      (Upkeeps.insertNew own c).bind fun _ => .pure _
    refine bind (.see _) (fun own => (Upkeeps.log _).bind fun _ => hinsert own) hname fun own =>
      log _ (hinsert own) (bind (.insertNew own c) (fun _ => .pure _) (insertNew own c) fun _ => ?_)
    exact pure fun d hd => by rw [List.mem_singleton.mp hd]; exact hc

section
variable {lookup : String → Bounded (Option ClassId)} (hk : ∀ name, Upkeeps l (lookup name))
  (hlookup : ∀ name, Repeats l [] Option.toList (lookup name))
include hk hlookup

theorem firstHit (names : List String) : Repeats l [] Option.toList (ClassModel.firstHit lookup names) := by
  induction names with
  | nil => exact pure fun c hc => hc
  | cons name rest ih =>
    refine bind (hk name) (fun found => ?_) (hlookup name) fun found => ?_
    · cases found with
      | some c => exact .pure _
      | none => exact (Upkeeps.compositional l).firstHit hk rest
    · cases found with
      | some c => exact pure fun d hd => hd
      | none => exact ih

theorem lookupDefaultWith (name : String) : Repeats l [] Option.toList (Loader.lookupDefaultWith l lookup name) := by
  refine look (Loader.lookupDefaultWith_eq l lookup name) (fun u v hu hq => ?_) fun u hu => ?_
  · rw [hq.kept.builtins, (hq.keeps.loaders l hu.lt).2.1]
  · unfold Loader.defaultBy
    dsimp only
    cases hb : (u.loader l).builtins.get? name with
    | some c =>
      refine ⟨[c], fun d hd => ?_, pure fun d hd => hd⟩
      rw [List.mem_singleton.mp hd]
      exact hu.builtins _ (Registry.mem_of_get? hb)
    | none => exact ⟨[], fun d hd => (List.not_mem_nil hd).elim, firstHit hk hlookup _⟩

theorem loadWith (name : String) : Repeats l [] (fun c => [c]) (Loader.loadWith l lookup name) := by
  refine bind (hk name) (fun found => ?_) (hlookup name) fun found => ?_
  · cases found with
    | some c => exact .pure c
    | none => exact (Upkeeps.log _).bind fun _ => .placeholder name
  · cases found with
    | some c => exact pure fun d hd => hd
    | none => exact log _ (.placeholder name) (placeholder name)

theorem run (p : Program) : ∀ given, p.Steady given → Repeats l given Option.toList (Loader.run l lookup p) := by
  have hupkeep := Upkeeps.compositional l
  have hrun := hupkeep.run hk
  induction p with
  | answer found => exact fun given h => pure fun c hc => h c (Option.mem_toList.mp hc)
  | define package simpleName imports next ih =>
    exact fun given h => define (fun _ => hrun _) fun e => ih (.error e) given (h e)
  | create => exact fun _ h => h.elim
  | edit e next ih =>
    intro given ⟨hnext, hsame⟩
    -- the edit may come out differently each time, but the program goes on alike
    let r : Except ModelError Made := (e.apply.run default).1
    have hedit : Loader.run l lookup (.edit e next) =
        Bounded.of e.apply.run >>= fun _ => Loader.run l lookup (next r) := by
      show (Bounded.of e.apply.run >>= fun r => Loader.run l lookup (next r)) = _
      exact congrArg _ (funext fun r' => by rw [hsame r' r])
    rw [hedit]
    exact edit e (hrun _) (ih r given (hnext r))
  | lookup name next ih =>
    exact fun given h => bind (hk name) (fun _ => hrun _) ((hlookup name).mono (List.nil_subset _)) fun r =>
      ih r _ (h r)
  | lookupDefault name next ih =>
    exact fun given h => bind (hupkeep.lookupDefaultWith hk name) (fun _ => hrun _)
      ((lookupDefaultWith hk hlookup name).mono (List.nil_subset _)) fun r => ih r _ (h r)
  | load name next ih =>
    exact fun given h => bind (hupkeep.loadWith hk name) (fun _ => hrun _)
      ((loadWith hk hlookup name).mono (List.nil_subset _)) fun c => ih c _ (h c)
  | placeholder name next ih =>
    exact fun given h => bind (.placeholder name) (fun _ => hrun _) (placeholder name) fun c => ih c _ (h c)
  | classes next ih =>
    intro given h
    have hsee : Repeats l given id (Bounded.see fun w => (w.loader l).classes.values) := by
      refine see (fun u hu c hc => ?_) fun u v _ hq => by rw [hq.kept.classes]
      obtain ⟨name, he⟩ := Registry.mem_values.mp hc
      exact hu.classes _ he
    exact bind (.see _) (fun _ => hrun _) hsee fun cs => ih cs _ (h cs)
  | inspect => exact fun _ h => h.elim

theorem askSources (name : String) {sources : List Source} (h : ∀ s ∈ sources, s.Steady given) :
    ∀ i, Repeats l given Option.toList (Loader.askSources l lookup name i sources) := by
  have hupkeep := Upkeeps.compositional l
  induction sources with
  | nil => exact fun _ => pure fun c hc => (List.not_mem_nil hc).elim
  | cons s rest ih =>
    intro i
    have hs := h s (List.mem_cons_self ..)
    have hrest := ih fun s' hs' => h s' (List.mem_cons_of_mem s hs')
    have hnext (found : Option ClassId) : Upkeeps l (Loader.orAsk l lookup name i rest found) := by
      cases found with
      | some c => exact .pure _
      | none => exact hupkeep.askSources hk name rest (i + 1)
    have hask : Loader.askSources l lookup name i (s :: rest) =
        Bounded.of (Step.onLoader l fun x => { x with asked := (i, name) :: x.asked }) >>= fun _ =>
          Loader.run l lookup (s.program [] name) >>= Loader.orAsk l lookup name i rest := by
      funext w
      rw [Loader.askSources_cons, hs.history (w.loader l).asked []]
    rw [hask]
    refine after (fun u hu => .noting hu i name) ((hupkeep.run hk _).bind hnext)
      (bind (hupkeep.run hk _) hnext (run hk hlookup _ given (hs.program [] name)) fun found => ?_)
    cases found with
    | some c => exact pure fun d hd => List.mem_append_left _ hd
    | none => exact hrest (i + 1)

end

theorem lookupWithin (depth : Nat) : ∀ name, Repeats l [] Option.toList (Loader.lookupWithin depth l name) := by
  induction depth with
  | zero => intro name u a v _ _ h; cases h
  | succ depth ih =>
    intro name
    refine look (Loader.lookupWithin_eq depth l name) (fun u v hu hq => ?_) fun u hu => ?_
    · rw [hq.cached?, hq.kept.loading, (hq.keeps.loaders l hu.lt).2.2]
    · unfold Loader.lookupBy
      dsimp only
      cases hcached : (u.loader l).cached? name with
      | some c =>
        refine ⟨[c], fun d hd => ?_, pure fun d hd => hd⟩
        rw [List.mem_singleton.mp hd]
        exact hu.cached? hcached
      | none =>
        obtain ⟨given, hgiven, hsteady⟩ := hu.steady
        refine ⟨given, hgiven, ?_⟩
        have hk := Upkeeps.lookupWithin (l := l) depth
        have hnone : Repeats l given Option.toList (Pure.pure none) := pure fun d hd => (List.not_mem_nil hd).elim
        dsimp only
        by_cases hs : (u.loader l).sources.isEmpty
        · rw [if_pos hs]; exact hnone
        · rw [if_neg hs]
          cases (u.loader l).loading.contains name with
          | true => exact log _ (.pure none) hnone
          | false =>
            have hask := (Upkeeps.compositional l).askSources hk name (u.loader l).sources 0
            exact bind (.whileLoading hask name) (Upkeeps.register name)
              (whileLoading hask (askSources hk ih name hsteady 0) name) fun found =>
                register name (List.subset_append_left _ _)

end Bounded.Repeats

/-! ## Two lookups in a row -/

namespace World

section
variable {answers : LoaderId → ClassId → Prop} {w w' : World} {made : List (LoaderId × ClassId)} {l : LoaderId}
  {given : List ClassId} {name : String}

theorem Arisen.fit (h : Arisen answers w made) (hl : l.index < w.loaders.size)
    (hgiven : ∀ c ∈ given, c.index < w.nodes.size)
    (hsteady : ∀ s ∈ (w.loader l).sources, s.Steady given) : Fit l w :=
  ⟨hl, ⟨given, hgiven, hsteady⟩, fun e he => ((h.reached.sound.loaders l).provides hl).node e he |>.1, h.present l,
    fun e he => (h.reached.standIns l e he).1⟩

/-- A lookup keeps its loader up, also where it does not stay within its bound. -/
theorem upkeep_lookup (hl : l.index < w.loaders.size) (name : String) : Upkeep l w (Loader.lookup l name w).2 := by
  rw [lookup_run]
  cases hrun : Loader.lookupWithin (w.loader l).depth l name w with
  | none => exact .refl l w
  | some r => exact Bounded.Upkeeps.lookupWithin _ name w r.1 r.2 hl hrun

theorem Fit.same_answer (hw : Fit l w) (name : String) (hq : Quiet l w (Loader.lookup l name w).2) :
    (Loader.lookup l name (Loader.lookup l name w).2).1 = (Loader.lookup l name w).1 := by
  rw [lookup_run w] at hq ⊢
  cases hrun : Loader.lookupWithin (w.loader l).depth l name w with
  | none =>
    show (Loader.lookup l name w).1 = _
    rw [lookup_run, hrun]
  | some r =>
    rw [hrun] at hq
    obtain ⟨-, hagain⟩ := Bounded.Repeats.lookupWithin _ name w r.1 r.2 hw (fun c hc => (List.not_mem_nil hc).elim)
      hrun hq
    obtain ⟨z, hz, -⟩ := hagain r.2 (.refl l _)
    have hsources : (r.2.loader l).sources = (w.loader l).sources := (hq.keeps.loaders l hw.lt).2.2
    have hdepth : (r.2.loader l).depth = (w.loader l).depth := by
      unfold Loader.depth
      rw [hsources]
    show (Loader.lookup l name r.2).1 = r.1
    rw [lookup_run, hdepth, hz]
    rfl

/-- Where a lookup has had no answer and has registered nothing, the name is not registered. -/
theorem Quiet.cached?_of_none (hq : Quiet l w w') (h : Loader.lookup l name w = (none, w')) :
    (w'.loader l).cached? name = none := by
  rw [hq.cached?]
  cases hcached : (w.loader l).cached? name with
  | none => rfl
  | some c =>
    rw [lookup_of_cached hcached] at h
    cases h

theorem Quiet.load (hl : l.index < w.loaders.size) (hq : Quiet l w w') (h : Loader.lookup l name w = (none, w')) :
    Quiet l w' (Loader.load l name w).2 := by
  have hlog : Quiet l w' { w' with log := .notFound name :: w'.log } := .of_eq (.aside (Nat.le_refl _) _) rfl
  rw [load_run, h]
  exact hlog.trans (.placeholder (hlog.keeps.loaders l (hq.keeps.loaders l hl).1).1 name)

end

/-- Of two lookups of a name in a row the second has the answer of the first, if the first has
registered nothing, and then a stand-in is only handed out for a name that is not registered. Otherwise
the second has whatever the first has registered under the name. -/
theorem lookup_again {answers : LoaderId → ClassId → Prop} {w w' : World} {made : List (LoaderId × ClassId)}
    (h : Arisen answers w made) {l : LoaderId}
    (hl : l.index < w.loaders.size) {given : List ClassId} (hgiven : ∀ c ∈ given, c.index < w.nodes.size)
    (hsteady : ∀ s ∈ (w.loader l).sources, s.Steady given) {name : String} {found : Option ClassId}
    (hlookup : Loader.lookup l name w = (found, w')) :
    ((w'.loader l).classes = (w.loader l).classes →
      (Loader.lookup l name w').1 = found ∧
        (found = none → ((Loader.load l name w).2.loader l).cached? name = none)) ∧
      ∀ c, (w'.loader l).cached? name = some c →
        Loader.lookup l name w' = (some c, w') ∧ Loader.load l name w' = (c, w') := by
  refine ⟨fun hclasses => ?_, fun c hc => ⟨lookup_of_cached hc, load_of_cached hc⟩⟩
  have hq : Quiet l w w' := by
    have hupkeep := upkeep_lookup hl name
    rw [hlookup] at hupkeep
    exact hupkeep.quiet hclasses
  refine ⟨?_, ?_⟩
  · have hagain := (h.fit hl hgiven hsteady).same_answer name
    rw [hlookup] at hagain
    exact hagain hq
  · rintro rfl
    rw [(hq.load hl hlookup).cached?]
    exact hq.cached?_of_none hlookup

/-! A loader with a source that defines a class and gives up over its superclass. -/

def hastyRule : SourceRule := .table [("p.A",
  { imports := [], superclass := some "1x", superclassUnqualified := none, interfaces := []
    interfacesUnqualified := [], fields := [], isInterface := none, modifiers := none })]

def hasty : World := (Loader.make .standard [hastyRule.source] .empty).2

theorem make_hasty : Loader.make .standard [hastyRule.source] .empty = (.ok ⟨0⟩, hasty) :=
  run_of_ok (by decide +kernel)

theorem arisen_hasty : Arisen (fun _ _ => False) hasty [] :=
  Arisen.empty.move (.make make_hasty) (not_answers fun _ => rfl) (present_iff.mpr (by decide +kernel))

theorem steady_hasty : ∀ s ∈ (hasty.loader ⟨0⟩).sources, s.Steady [] := by
  obtain ⟨-, hl, hw⟩ := (Loader.make_makes .standard [hastyRule.source] .empty).ok make_hasty
  rw [hw, hl, (withLoader_spec .empty .standard [hastyRule.source]).self]
  intro s hs
  rw [List.mem_singleton.mp hs]
  exact SourceRule.steady fun _ h => by cases h

def hastyAsked (name : String) : World := (Loader.lookup ⟨0⟩ name hasty).2

theorem lookup_hasty {name : String} {found : Option ClassId} (h : (Loader.lookup ⟨0⟩ name hasty).1 = found) :
    Loader.lookup ⟨0⟩ name hasty = (found, hastyAsked name) := by
  unfold hastyAsked
  exact Step.run_of_fst h

theorem hasty_lookup_again : (Loader.lookup ⟨0⟩ "q.B" hasty).1 = none ∧
    (Loader.lookup ⟨0⟩ "q.B" (hastyAsked "q.B")).1 = none ∧
    Loader.lookup ⟨0⟩ "p.A" (hastyAsked "p.A") = (some ⟨10⟩, hastyAsked "p.A") := by
  have hnone : (Loader.lookup ⟨0⟩ "q.B" hasty).1 = none := by decide +kernel
  have hnone' : (Loader.lookup ⟨0⟩ "p.A" hasty).1 = none := by decide +kernel
  have hclasses : ((hastyAsked "q.B").loader ⟨0⟩).classes = (hasty.loader ⟨0⟩).classes := by decide +kernel
  have hcached : ((hastyAsked "p.A").loader ⟨0⟩).cached? "p.A" = some ⟨10⟩ := by decide +kernel
  have hlt : (⟨0⟩ : LoaderId).index < hasty.loaders.size := by decide +kernel
  have hgiven : ∀ c ∈ ([] : List ClassId), c.index < hasty.nodes.size := fun c hc => (List.not_mem_nil hc).elim
  have hquiet := lookup_again arisen_hasty hlt hgiven steady_hasty (lookup_hasty hnone)
  have hnoisy := lookup_again arisen_hasty hlt hgiven steady_hasty (lookup_hasty hnone')
  exact ⟨hnone, (hquiet.1 hclasses).1, (hnoisy.2 ⟨10⟩ hcached).1⟩

/-- The first lookup has no answer, the second one has, and a stand-in is handed out for a name that is
registered. -/
theorem hasty_gives_up : Arisen (fun _ _ => False) hasty [] ∧ (∀ s ∈ (hasty.loader ⟨0⟩).sources, s.Steady []) ∧
    (Loader.lookup ⟨0⟩ "p.A" hasty).1 = none ∧ (Loader.lookup ⟨0⟩ "p.A" (hastyAsked "p.A")).1 = some ⟨10⟩ ∧
    (Loader.load ⟨0⟩ "p.A" hasty).1 = ⟨11⟩ ∧ ((Loader.load ⟨0⟩ "p.A" hasty).2.node ⟨11⟩).isUnresolved = true ∧
    ((Loader.load ⟨0⟩ "p.A" hasty).2.loader ⟨0⟩).cached? "p.A" = some ⟨10⟩ :=
  ⟨arisen_hasty, steady_hasty, by decide +kernel, by decide +kernel, by decide +kernel, by decide +kernel,
    by decide +kernel⟩

end World

end ClassModel
