import ClassModel.Proofs.Graph.Changes
import ClassModel.Proofs.Registries

/-!
# What loaders do

Making a loader, defining a class and handing out a stand-in, each by the world that it leaves. A lookup
is taken apart into what it asks for and what it registers; the program of a source has every property
that its steps have and that lasts from one step to the next.
-/

namespace ClassModel

open Change Name

namespace Loader

/-! ## Builtins -/

def IsBuiltinName (settings : Settings) (name : String) : Prop :=
  name ∈ primitiveNames ∨ name = voidName ∨ name = settings.rootClass

instance (settings : Settings) (name : String) : Decidable (IsBuiltinName settings name) :=
  inferInstanceAs (Decidable (_ ∨ _))

theorem isBuiltinName_iff {settings : Settings} {name : String} :
    IsBuiltinName settings name ↔ ∃ kind, (name, kind) ∈ builtinKinds settings := by
  unfold builtinKinds IsBuiltinName
  simp only [List.mem_append, List.mem_filter, List.mem_map, List.mem_singleton, Prod.mk.injEq]
  by_cases hroot : name = settings.rootClass
  · subst hroot; simp
  · simp [hroot, exists_or]

theorem kind_of_mem_builtinKinds {settings : Settings} {name : String} {kind : TypeKind}
    (h : (name, kind) ∈ builtinKinds settings) :
    kind = if name = settings.rootClass then .builtin else if name = voidName then .void else .primitive := by
  unfold builtinKinds at h
  simp only [List.mem_append, List.mem_filter, List.mem_map, List.mem_singleton, Prod.mk.injEq] at h
  rcases h with ⟨⟨p, hp, rfl, rfl⟩ | ⟨rfl, rfl⟩, hne⟩ | ⟨rfl, rfl⟩
  · have hv : p ≠ voidName := by rintro rfl; revert hp; decide
    rw [if_neg (by simpa using hne), if_neg hv]
  · rw [if_neg (by simpa using hne), if_pos rfl]
  · rw [if_pos rfl]

theorem ne_declared_of_mem_builtinKinds {settings : Settings} {name : String} {kind : TypeKind}
    (h : (name, kind) ∈ builtinKinds settings) : kind ≠ .declared := by
  rw [kind_of_mem_builtinKinds h]
  split
  · simp
  · split <;> simp

theorem isClassName_of_builtin {settings : Settings} (hs : settings.Sound) {name : String}
    (h : IsBuiltinName settings name) : IsClassName name := by
  have hp : ∀ p ∈ primitiveNames, IsClassName p := by decide +kernel
  have hv : IsClassName voidName := by decide +kernel
  rcases h with h | rfl | rfl
  · exact hp name h
  · exact hv
  · exact hs.rootClass

def builtinNode (l : LoaderId) (settings : Settings) (name : String) (kind : TypeKind) : ClassNode :=
  .bare (packageOf name) (simpleNameOf name) kind (some (.loader l)) settings

structure Provides (w : World) (l : LoaderId) (kinds : List (String × TypeKind)) : Prop where
  sorted : (w.loader l).builtins.Sorted
  node : ∀ e ∈ (w.loader l).builtins, e.2.index < w.nodes.size ∧
    ∃ kind, (e.1, kind) ∈ kinds ∧ w.node e.2 = builtinNode l (w.loader l).settings e.1 kind
  all : ∀ nk ∈ kinds, ((w.loader l).builtins.get? nk.1).isSome = true

structure AddsBuiltins (l : LoaderId) (settings : Settings) (kinds : List (String × TypeKind)) (w w' : World) :
    Prop where
  rest : w' = { w with nodes := w'.nodes, loaders := w'.loaders }
  nodes : w.nodes.Extends w'.nodes
  added : ∀ c : ClassId, w.nodes.size ≤ c.index → c.index < w'.nodes.size →
    ∃ nk ∈ kinds, w'.node c = builtinNode l settings nk.1 nk.2
  size : w'.loaders.size = w.loaders.size
  other : ∀ l' ≠ l, w'.loader l' = w.loader l'
  self : w'.loader l = { w.loader l with builtins := (w'.loader l).builtins }
  fresh : ∀ e ∈ (w'.loader l).builtins, e ∈ (w.loader l).builtins ∨ w.nodes.size ≤ e.2.index

end Loader

namespace World

theorem loader_editLoader_self {w : World} {l : LoaderId} (h : l.index < w.loaders.size) (f : Loader → Loader) :
    (w.editLoader l f).loader l = f (w.loader l) := Store.get_modify_self _ f h

theorem loader_editLoader_of_ne (w : World) {l l' : LoaderId} (h : l' ≠ l) (f : Loader → Loader) :
    (w.editLoader l f).loader l' = w.loader l' :=
  Store.get_modify_of_ne _ f fun e => h (by cases l; cases l'; simp_all)

/-- A loader that is not there cannot be edited. -/
theorem loader_editLoader_cases (w : World) (l l' : LoaderId) (f : Loader → Loader) :
    (l = l' ∧ l.index < w.loaders.size ∧ (w.editLoader l' f).loader l = f (w.loader l)) ∨
      (w.editLoader l' f).loader l = w.loader l := by
  by_cases hll : l = l'
  · subst hll
    by_cases hl : l.index < w.loaders.size
    · exact .inl ⟨rfl, hl, loader_editLoader_self hl f⟩
    · right
      show (w.loaders.modify _ _).get _ = _
      rw [Store.get_modify, if_neg fun h => hl h.2]
      rfl
  · exact .inr (w.loader_editLoader_of_ne hll f)

theorem node_withNode (w : World) (n : ClassNode) (c : ClassId) :
    (w.withNode n).node c = if c = w.nextClass then n else w.node c := by
  have : c.index = w.nodes.size ↔ c = w.nextClass := by cases c; simp [nextClass]
  simp only [withNode, node, Store.get_push, this]

end World

namespace Loader

section
variable {l : LoaderId} {settings : Settings} {w : World}

theorem AddsBuiltins.refl (l : LoaderId) (settings : Settings) (w : World) : AddsBuiltins l settings [] w w :=
  ⟨rfl, .refl _, fun c h h' => by omega, rfl, fun _ _ => rfl, rfl, fun _ h => .inl h⟩

theorem AddsBuiltins.trans {w₁ w₂ : World} {kinds₁ kinds₂ : List (String × TypeKind)}
    (h₁ : AddsBuiltins l settings kinds₁ w w₁) (h₂ : AddsBuiltins l settings kinds₂ w₁ w₂) :
    AddsBuiltins l settings (kinds₁ ++ kinds₂) w w₂ where
  rest := by rw [h₂.rest, h₁.rest]
  nodes := h₁.nodes.trans h₂.nodes
  added c hc hc' := by
    by_cases h : c.index < w₁.nodes.size
    · obtain ⟨nk, hk, hn⟩ := h₁.added c hc h
      exact ⟨nk, List.mem_append_left _ hk, by rw [← hn]; exact h₂.nodes.get_eq _ h⟩
    · obtain ⟨nk, hk, hn⟩ := h₂.added c (by omega) hc'
      exact ⟨nk, List.mem_append_right _ hk, hn⟩
  size := h₂.size.trans h₁.size
  other l' hl' := (h₂.other l' hl').trans (h₁.other l' hl')
  self := by rw [h₂.self, h₁.self]
  fresh e he := by
    rcases h₂.fresh e he with he | he
    · exact h₁.fresh e he
    · exact .inr (Nat.le_trans h₁.nodes.size_le he)

def addBuiltin (l : LoaderId) (settings : Settings) (w : World) (name : String) (kind : TypeKind) : World :=
  (w.withNode (builtinNode l settings name kind)).editLoader l fun x =>
    { x with builtins := x.builtins.insert name w.nextClass }

theorem addBuiltin_adds (hl : l.index < w.loaders.size) (name : String) (kind : TypeKind) :
    AddsBuiltins l settings [(name, kind)] w (addBuiltin l settings w name kind) where
  rest := rfl
  nodes := .push _ _
  added c hc hc' := by
    have hc' : c.index < (w.nodes.push (builtinNode l settings name kind)).size := hc'
    rw [Store.size_push] at hc'
    have : c = w.nextClass := by cases c; simp [World.nextClass] at *; omega
    subst this
    exact ⟨_, List.mem_singleton_self _, Store.get_push_self _ _⟩
  size := Store.size_modify _ _ _
  other l' hl' := World.loader_editLoader_of_ne _ hl' _
  self := by
    unfold addBuiltin
    rw [World.loader_editLoader_self (by exact hl)]; rfl
  fresh e he := by
    unfold addBuiltin at he
    rw [World.loader_editLoader_self (by exact hl)] at he
    rcases Registry.mem_insert_subset he with rfl | he
    · exact .inr (Nat.le_refl _)
    · exact .inl he

theorem addBuiltin_provides (hl : l.index < w.loaders.size) (hs : (w.loader l).settings = settings)
    {kinds : List (String × TypeKind)} (h : Provides w l kinds) (name : String) (kind : TypeKind) :
    Provides (addBuiltin l settings w name kind) l (kinds ++ [(name, kind)]) := by
  have hx : (addBuiltin l settings w name kind).loader l =
      { w.loader l with builtins := (w.loader l).builtins.insert name w.nextClass } :=
    World.loader_editLoader_self (by exact hl) _
  have hsize : (addBuiltin l settings w name kind).nodes.size = w.nodes.size + 1 := Store.size_push _ _
  constructor
  · rw [hx]; exact Registry.sorted_insert _ _ h.sorted
  · rw [hx]
    intro e he
    rcases Registry.mem_insert_subset he with rfl | he
    · exact ⟨by rw [hsize]; exact Nat.lt_succ_self _, kind, by simp, by
        rw [show settings = (w.loader l).settings from hs.symm]; exact Store.get_push_self _ _⟩
    · obtain ⟨hlt, k, hk, hn⟩ := h.node e he
      exact ⟨by omega, k, by simp [hk], by rw [← hn]; exact Store.get_push_of_lt _ _ hlt⟩
  · rw [hx]
    intro nk hnk
    by_cases hname : nk.1 = name
    · rw [hname, Registry.get?_insert_self]; rfl
    · rw [Registry.get?_insert_of_ne _ hname]
      rcases List.mem_append.mp hnk with hnk | hnk
      · exact h.all nk hnk
      · exact absurd (by simpa using congrArg Prod.fst (List.mem_singleton.mp hnk)) hname

theorem addBuiltins_spec (l : LoaderId) (settings : Settings) : ∀ (more done : List (String × TypeKind)) (w : World),
    l.index < w.loaders.size → (w.loader l).settings = settings →
    Provides w l done → Provides (addBuiltins l settings more w).2 l (done ++ more) ∧
      AddsBuiltins l settings more w (addBuiltins l settings more w).2
  | [], done, w, _, _, h => by rw [List.append_nil]; exact ⟨h, .refl l settings w⟩
  | (name, kind) :: rest, done, w, hl, hs, h => by
    have hrun : (addBuiltins l settings ((name, kind) :: rest) w).2 =
        (addBuiltins l settings rest (addBuiltin l settings w name kind)).2 := rfl
    have hadd : AddsBuiltins l settings [(name, kind)] w (addBuiltin l settings w name kind) :=
      addBuiltin_adds hl name kind
    obtain ⟨hprov, hadds⟩ := addBuiltins_spec l settings rest (done ++ [(name, kind)])
      (addBuiltin l settings w name kind) (by rw [hadd.size]; exact hl) (by rw [hadd.self]; exact hs)
      (addBuiltin_provides hl hs h name kind)
    rw [hrun]
    exact ⟨by simpa using hprov, hadd.trans hadds⟩

end

end Loader

/-! ## New loaders -/

namespace World

def nextLoader (w : World) : LoaderId := ⟨w.loaders.size⟩

def withLoader (w : World) (settings : Settings) (sources : List Source) : World :=
  (Loader.addBuiltins w.nextLoader settings (Loader.builtinKinds settings)
    { w with loaders := w.loaders.push ⟨settings, [], [], [], sources, [], []⟩ }).2

end World

theorem Loader.make_makes (settings : Settings) (sources : List Source) (w : World) :
    (Loader.make settings sources).Makes w settings.Sound w.nextLoader (w.withLoader settings sources) :=
  ((requireSettings_makes settings w).guard <| .of_eq rfl).congr (by rw [and_true])

namespace World

structure MadeLoader (settings : Settings) (sources : List Source) (w w' : World) : Prop where
  rest : w' = { w with nodes := w'.nodes, loaders := w'.loaders }
  nodes : w.nodes.Extends w'.nodes
  added : ∀ c : ClassId, w.nodes.size ≤ c.index → c.index < w'.nodes.size →
    ∃ nk ∈ Loader.builtinKinds settings, w'.node c = Loader.builtinNode w.nextLoader settings nk.1 nk.2
  size : w'.loaders.size = w.loaders.size + 1
  other : ∀ l ≠ w.nextLoader, w'.loader l = w.loader l
  self : w'.loader w.nextLoader = ⟨settings, (w'.loader w.nextLoader).builtins, [], [], sources, [], []⟩
  provides : Loader.Provides w' w.nextLoader (Loader.builtinKinds settings)
  fresh : ∀ e ∈ (w'.loader w.nextLoader).builtins, w.nodes.size ≤ e.2.index

theorem withLoader_spec (w : World) (settings : Settings) (sources : List Source) :
    w.MadeLoader settings sources (w.withLoader settings sources) := by
  let w₀ : World := { w with loaders := w.loaders.push ⟨settings, [], [], [], sources, [], []⟩ }
  have hself : w₀.loader w.nextLoader = ⟨settings, [], [], [], sources, [], []⟩ := Store.get_push_self _ _
  have hstart : Loader.Provides w₀ w.nextLoader [] := by
    refine ⟨?_, ?_, by simp⟩
    · rw [hself]; exact Registry.sorted_nil
    · rw [hself]; simp
  have hlt : w.nextLoader.index < w₀.loaders.size := by
    show w.loaders.size < (w.loaders.push _).size
    simp
  obtain ⟨hprov, hadds⟩ := Loader.addBuiltins_spec w.nextLoader settings (Loader.builtinKinds settings) []
    w₀ hlt (by rw [hself]) hstart
  refine ⟨?_, hadds.nodes, hadds.added, ?_, ?_, ?_, hprov, ?_⟩
  · have := hadds.rest; exact this
  · rw [show (w.withLoader settings sources).loaders.size = w₀.loaders.size from hadds.size]
    exact Store.size_push _ _
  · intro l hl
    rw [show (w.withLoader settings sources).loader l = w₀.loader l from hadds.other l hl]
    show (w.loaders.push _).get l.index = w.loaders.get l.index
    rw [Store.get_push, if_neg]
    intro h; exact hl (by cases l; simp_all [nextLoader])
  · have := hadds.self
    rw [hself] at this; exact this
  · intro e he
    rcases hadds.fresh e he with he | he
    · rw [hself] at he; cases he
    · exact he

/-! ## Definitions -/

def withDefined (w : World) (l : LoaderId) (package simpleName : String) (imports : List Import) : World :=
  { (w.withNode { ClassNode.bare package simpleName .declared (some (.loader l)) (w.loader l).settings with
        imports := imports }).editLoader l fun x =>
      { x with
        classes := x.classes.insert (qualify package simpleName) w.nextClass
        placeholders := x.placeholders.erase (qualify package simpleName) } with
    log := .defined (qualify package simpleName) :: w.log }

section
variable {w : World} {l : LoaderId} (package simpleName : String) (imports : List Import)

theorem loader_withDefined_self (hl : l.index < w.loaders.size) :
    (w.withDefined l package simpleName imports).loader l = { w.loader l with
      classes := (w.loader l).classes.insert (qualify package simpleName) w.nextClass
      placeholders := (w.loader l).placeholders.erase (qualify package simpleName) } :=
  loader_editLoader_self (w := w.withNode _) hl _

theorem loader_withDefined_of_ne {l' : LoaderId} (h : l' ≠ l) :
    (w.withDefined l package simpleName imports).loader l' = w.loader l' :=
  loader_editLoader_of_ne _ h _

variable (w) in
theorem loader_withDefined_cases (l l' : LoaderId) :
    (l = l' ∧ l.index < w.loaders.size ∧ (w.withDefined l' package simpleName imports).loader l = { w.loader l with
      classes := (w.loader l).classes.insert (qualify package simpleName) w.nextClass
      placeholders := (w.loader l).placeholders.erase (qualify package simpleName) }) ∨
      (w.withDefined l' package simpleName imports).loader l = w.loader l :=
  (w.withNode _).loader_editLoader_cases l l' _

theorem size_withDefined : (w.withDefined l package simpleName imports).nodes.size = w.nodes.size + 1 :=
  Store.size_push _ _

theorem node_withDefined_self : (w.withDefined l package simpleName imports).node w.nextClass =
    { ClassNode.bare package simpleName .declared (some (.loader l)) (w.loader l).settings with imports := imports } :=
  Store.get_push_self _ _

theorem nameOf_withDefined_self :
    (w.withDefined l package simpleName imports).nameOf w.nextClass = qualify package simpleName := by
  unfold World.nameOf
  rw [node_withDefined_self]
  rfl

end

/-! ## Stand-ins -/

theorem placeholder_run (w : World) (l : LoaderId) (name : String) : Loader.placeholder l name w =
    match (w.loader l).placeholders.get? name with
    | some c => (c, w)
    | none => (w.nextClass,
      (w.withNode (Loader.standIn name (some (.loader l)) (w.loader l).settings)).editLoader l fun x =>
        { x with placeholders := x.placeholders.insert name w.nextClass }) := by
  show (match (w.loader l).placeholders.get? name with
    | some c => _
    | none => _ : Step ClassId) w = _
  cases (w.loader l).placeholders.get? name <;> rfl

end World

def Loader.refusal? (x : Loader) (package simpleName : String) : Option ModelError :=
  match checkPackageName package, checkIdentifier simpleName with
  | .error e, _ => some (.invalidName e)
  | _, .error e => some (.invalidName e)
  | .ok (), .ok () =>
    if (x.builtins.get? (qualify package simpleName)).isSome then some (.nameOfBuiltin (qualify package simpleName))
    else if (x.classes.get? (qualify package simpleName)).isSome then
      some (.alreadyDefined (qualify package simpleName))
    else none

theorem Loader.define_run (l : LoaderId) (package simpleName : String) (imports : List Import) (w : World) :
    Loader.define l package simpleName imports w =
      match (w.loader l).refusal? package simpleName with
      | some e => (.error e, w)
      | none => (.ok w.nextClass, w.withDefined l package simpleName imports) := by
  unfold Loader.define Loader.refusal?
  cases checkPackageName package with
  | error e => rfl
  | ok _ =>
    cases checkIdentifier simpleName with
    | error e => rfl
    | ok _ =>
      show (if ((w.loader l).builtins.get? (qualify package simpleName)).isSome then _ else _ : Change ClassId) w = _
      by_cases hb : ((w.loader l).builtins.get? (qualify package simpleName)).isSome
      · simp only [hb, if_true]; rfl
      · simp only [hb]
        by_cases hc : ((w.loader l).classes.get? (qualify package simpleName)).isSome
        · simp only [hc, if_true]; rfl
        · simp only [hc]; rfl

theorem Loader.refusal?_eq_none {x : Loader} {package simpleName : String} : x.refusal? package simpleName = none ↔
    IsPackageName package ∧ IsIdentifier simpleName ∧ x.builtins.get? (qualify package simpleName) = none ∧
      x.classes.get? (qualify package simpleName) = none := by
  rw [← checkPackageName_ok, ← checkIdentifier_ok]
  unfold refusal?
  cases checkPackageName package with
  | error e => simp
  | ok _ =>
    cases checkIdentifier simpleName with
    | error e => simp
    | ok _ =>
      cases x.builtins.get? (qualify package simpleName) <;> cases x.classes.get? (qualify package simpleName) <;> simp

theorem Loader.define_makes (l : LoaderId) (package simpleName : String) (imports : List Import) (w : World) :
    (Loader.define l package simpleName imports).Makes w
      (IsPackageName package ∧ IsIdentifier simpleName ∧
        (w.loader l).builtins.get? (qualify package simpleName) = none ∧
        (w.loader l).classes.get? (qualify package simpleName) = none) w.nextClass
      (w.withDefined l package simpleName imports) := by
  refine Makes.congr ?_ refusal?_eq_none
  constructor
  · intro h
    rw [define_run, h]
  · intro h
    rw [define_run]
    cases hr : (w.loader l).refusal? package simpleName with
    | none => exact (h hr).elim
    | some e => exact ⟨e, rfl⟩

/-! ## Lookups in parts -/

namespace World

def entered (w : World) (l : LoaderId) (name : String) : World :=
  w.editLoader l fun x => { x with loading := name :: x.loading }

def left (w : World) (l : LoaderId) (name : String) : World :=
  w.editLoader l fun x => { x with loading := x.loading.erase name }

end World

namespace Loader

/-- The last resort for a bare name, by the builtin of the name and the default packages. -/
def defaultBy (lookup : String → Bounded (Option ClassId)) (name : String) (x : Option ClassId × List String) :
    Bounded (Option ClassId) :=
  match x.1 with
  | some c => pure (some c)
  | none => firstHit lookup (x.2.map (qualify · name) ++ [name])

theorem lookupDefaultWith_eq (l : LoaderId) (lookup : String → Bounded (Option ClassId)) (name : String) (w : World) :
    lookupDefaultWith l lookup name w =
      defaultBy lookup name ((w.loader l).builtins.get? name, (w.loader l).settings.defaultPackages) w := rfl

def orAsk (l : LoaderId) (lookup : String → Bounded (Option ClassId)) (name : String) (i : Nat) (rest : List Source) :
    Option ClassId → Bounded (Option ClassId)
  | some c => pure (some c)
  | none => askSources l lookup name (i + 1) rest

theorem askSources_cons (l : LoaderId) (lookup : String → Bounded (Option ClassId)) (name : String) (i : Nat)
    (s : Source) (rest : List Source) (w : World) : askSources l lookup name i (s :: rest) w =
      (Bounded.of (Step.onLoader l fun x => { x with asked := (i, name) :: x.asked }) >>= fun _ =>
        run l lookup (s.program (w.loader l).asked name) >>= orAsk l lookup name i rest) w := rfl

def whileLoading (l : LoaderId) (name : String) (s : Bounded α) : Bounded α := do
  Bounded.of <| Step.onLoader l fun x => { x with loading := name :: x.loading }
  let a ← s
  Bounded.of <| Step.onLoader l fun x => { x with loading := x.loading.erase name }
  return a

theorem whileLoading_run (l : LoaderId) (name : String) (s : Bounded α) (w : World) :
    whileLoading l name s w = (s (w.entered l name)).map fun r => (r.1, r.2.left l name) := by
  unfold whileLoading
  rw [Bounded.bind_run]
  show (s >>= _) (w.entered l name) = _
  rw [Bounded.bind_run, Option.map_eq_bind]
  rfl

def register (l : LoaderId) (name : String) : Option ClassId → Bounded (Option ClassId)
  | none => pure none
  | some c => do
    let own ← Bounded.see (·.nameOf c)
    Bounded.of <| Step.log (.loaded name own)
    Bounded.of <| Step.onLoader l fun x => { x with classes := x.classes.insertNew own c }
    return some c

/-- A lookup by what the loader knows under the name, its sources, and whether the name is being asked
for. -/
def lookupBy (depth : Nat) (l : LoaderId) (name : String) (x : Option ClassId × List Source × Bool) :
    Bounded (Option ClassId) :=
  match x.1 with
  | some c => pure (some c)
  | none =>
    if x.2.1.isEmpty then pure none
    else if x.2.2 then do
      Bounded.of <| Step.log (.reentered name)
      return none
    else whileLoading l name (askSources l (lookupWithin depth l) name 0 x.2.1) >>= register l name

theorem lookupWithin_eq (depth : Nat) (l : LoaderId) (name : String) (w : World) :
    lookupWithin (depth + 1) l name w = lookupBy depth l name
      ((w.loader l).cached? name, (w.loader l).sources, (w.loader l).loading.contains name) w := by
  unfold lookupWithin lookupBy
  rw [Bounded.bind_run, show Bounded.see (·.loader l) w = some (w.loader l, w) from rfl]
  dsimp only [Option.bind_some]
  cases (w.loader l).cached? name with
  | some c => rfl
  | none =>
    dsimp only
    by_cases hs : (w.loader l).sources.isEmpty
    · rw [if_pos hs, if_pos hs]
    · rw [if_neg hs, if_neg hs]
      by_cases hn : (w.loader l).loading.contains name
      · rw [if_pos hn, if_pos hn]
      · rw [if_neg hn, if_neg hn]
        rw [Bounded.bind_run (whileLoading l name _) (register l name), whileLoading_run, Option.bind_map]
        show (askSources l (lookupWithin depth l) name 0 (w.loader l).sources (w.entered l name)).bind _ = _
        congr 1

end Loader

/-! ## What all runs of sources have -/

/-- All that a source's program can do has the property, and two steps one after the other have it if
both have it. -/
structure Bounded.Compositional (l : LoaderId) (P : {α : Type} → Bounded α → Prop) : Prop where
  pure {α : Type} (a : α) : P (Pure.pure a : Bounded α)
  bind {α β : Type} {s : Bounded α} {f : α → Bounded β} : P s → (∀ a, P (f a)) → P (s >>= f)
  see {α : Type} (f : World → α) : P (see f)
  log (e : Log.Event) : P (of (Step.log e))
  noting (i : Nat) (name : String) : P (of (Step.onLoader l fun x => { x with asked := (i, name) :: x.asked }))
  placeholder (name : String) : P (of (Loader.placeholder l name))
  define (package simpleName : String) (imports : List Import) :
    P (of (Loader.define l package simpleName imports).run)
  create (package simpleName : String) (lookup : Option Collaborator) (settings : Settings) :
    P (of (createClass package simpleName lookup settings).run)
  edit (e : Edit) : P (of e.apply.run)

namespace Bounded.Compositional

variable {l : LoaderId} {P : {α : Type} → Bounded α → Prop} (hP : Compositional l P)
  {lookup : String → Bounded (Option ClassId)} (hlookup : ∀ name, P (lookup name))
include hP hlookup

theorem firstHit (names : List String) : P (ClassModel.firstHit lookup names) := by
  induction names with
  | nil => exact hP.pure none
  | cons name rest ih =>
    refine hP.bind (hlookup name) fun found => ?_
    cases found with
    | some c => exact hP.pure (some c)
    | none => exact ih

theorem lookupDefaultWith (name : String) : P (Loader.lookupDefaultWith l lookup name) := by
  refine hP.bind (hP.see _) fun x => ?_
  cases x.builtins.get? name with
  | some c => exact hP.pure (some c)
  | none => exact hP.firstHit hlookup _

theorem loadWith (name : String) : P (Loader.loadWith l lookup name) := by
  refine hP.bind (hlookup name) fun found => ?_
  cases found with
  | some c => exact hP.pure c
  | none => exact hP.bind (hP.log _) fun _ => hP.placeholder name

theorem run (p : Program) : P (Loader.run l lookup p) := by
  induction p with
  | answer found => exact hP.pure found
  | define package simpleName imports next ih => exact hP.bind (hP.define package simpleName imports) ih
  | create package simpleName collaborator settings next ih =>
    exact hP.bind (hP.create package simpleName collaborator settings) ih
  | edit e next ih => exact hP.bind (hP.edit e) ih
  | lookup name next ih => exact hP.bind (hlookup name) ih
  | lookupDefault name next ih => exact hP.bind (hP.lookupDefaultWith hlookup name) ih
  | load name next ih => exact hP.bind (hP.loadWith hlookup name) ih
  | placeholder name next ih => exact hP.bind (hP.placeholder name) ih
  | classes next ih => exact hP.bind (hP.see _) ih
  | inspect c next ih => exact hP.bind (hP.see _) ih

theorem askSources (name : String) (sources : List Source) : ∀ i, P (Loader.askSources l lookup name i sources) := by
  induction sources with
  | nil => exact fun _ => hP.pure none
  | cons s rest ih =>
    intro i
    refine hP.bind (hP.see _) fun x => hP.bind (hP.noting i name) fun _ => hP.bind (hP.run hlookup _) fun found => ?_
    cases found with
    | some c => exact hP.pure (some c)
    | none => exact ih (i + 1)

end Bounded.Compositional

end ClassModel
