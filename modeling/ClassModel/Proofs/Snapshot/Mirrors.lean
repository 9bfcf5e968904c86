import ClassModel.Proofs.Graph.Flattening
import ClassModel.Proofs.Snapshot.NormalForm

/-!
# Loaders that mirror each other

Two loaders with classes of the same names that are captured alike. Their references lead to classes
of the same names, so a search or a walk of one goes as in the other. Where one loader has a stand-in
for a name already, the other may still have to make it.
-/

namespace ClassModel

open Relation

theorem forall₂_of_map_eq {f : α → γ} {g : β → γ} {as : List α} : ∀ {bs : List β}, bs.map g = as.map f →
    List.Forall₂ (fun a b => a ∈ as ∧ b ∈ bs ∧ g b = f a) as bs := by
  induction as with
  | nil => intro bs h; rw [List.map_nil, List.map_eq_nil_iff] at h; subst h; exact .nil
  | cons a as ih =>
    intro bs h
    cases bs with
    | nil => cases h
    | cons b bs =>
      simp only [List.map_cons, List.cons.injEq] at h
      refine .cons ⟨by simp, by simp, h.1⟩ ((ih h.2).imp fun x y hxy => ?_)
      exact ⟨List.mem_cons_of_mem _ hxy.1, List.mem_cons_of_mem _ hxy.2.1, hxy.2.2⟩

theorem exists_of_mem_left {R : α → β → Prop} {as : List α} {bs : List β} (h : List.Forall₂ R as bs) {a : α}
    (ha : a ∈ as) : ∃ b ∈ bs, R a b := by
  induction h with
  | nil => cases ha
  | cons hab _ ih =>
    rcases List.mem_cons.mp ha with rfl | ha
    · exact ⟨_, List.mem_cons_self, hab⟩
    · obtain ⟨b, hb, hR⟩ := ih ha
      exact ⟨b, List.mem_cons_of_mem _ hb, hR⟩

theorem exists_of_mem_right {R : α → β → Prop} {as : List α} {bs : List β} (h : List.Forall₂ R as bs) {b : β}
    (hb : b ∈ bs) : ∃ a ∈ as, R a b := exists_of_mem_left h.flip hb

namespace World

def seek (w : World) (c : ClassId) : RefSnapshot → Collaborator → Option ClassId
  | .qualified name => w.found? name
  | .unqualified name => w.foundUnqualified? c name

def writtenLead (w : World) (c : ClassId) (x : RefSnapshot) : Lead := w.leadFrom c x.name (w.seek c x)

structure Resident (w : World) (l : LoaderId) (name : String) (c : ClassId) : Prop where
  lt : c.index < w.nodes.size
  name : w.nameOf c = name
  lookup : (w.node c).lookup = some (.loader l)
  present : w.isAlive (.node c)
  written : ∀ r ∈ w.shownReferences c, ∀ n d,
    (w.reference r).target = .qualified n d ∨ (w.reference r).target = .unqualified n d → d = c
  owners : ∀ kind, ∀ m ∈ w.declared kind c, w.ownerOf m = c

structure Standing (w : World) (l : LoaderId) : Prop where
  sources : (w.loader l).sources = []
  alive : w.isAlive (.loader l)
  sorted : (w.loader l).classes.Sorted
  listed : ∀ e ∈ (w.loader l).classes, (w.loader l).cached? e.1 = some e.2
  resident : ∀ {name c}, (w.loader l).cached? name = some c → w.Resident l name c
  topmost : ∀ {name c}, (w.loader l).builtins.get? name = some c → w.shownReferences c = []

/-- The classes of the loader refer to what is written in them, as if nothing had been resolved. -/
structure Independent (w : World) (l : LoaderId) : Prop extends w.Standing l where
  leads : ∀ {name c}, (w.loader l).cached? name = some c → ∀ r ∈ w.shownReferences c,
    w.lead r = w.writtenLead c (w.captureRef r)

structure Twins (w w' : World) (c c' : ClassId) : Prop where
  shown : w'.captureClass c' = w.captureClass c
  kind : (w'.node c').kind = (w.node c).kind
  imports : (w'.node c').imports = (w.node c).imports
  settings : (w'.node c').settings = (w.node c).settings

structure Mirrors (w w' : World) (l l' : LoaderId) : Prop where
  left : w.Independent l
  right : w'.Independent l'
  settings : (w'.loader l').settings = (w.loader l).settings
  builtins : ∀ name, Option.Rel (Twins w w') ((w.loader l).builtins.get? name) ((w'.loader l').builtins.get? name)
  classes : ∀ name, Option.Rel (Twins w w') ((w.loader l).classes.get? name) ((w'.loader l').classes.get? name)
  length : (w'.loader l').classes.length = (w.loader l).classes.length
  standIns : ∀ name c, (w.loader l).placeholders.get? name = some c → c.index < w.nodes.size ∧
    ∃ lookup settings, w.node c = Loader.standIn name lookup settings
  noStandIns : (w'.loader l').placeholders = []

structure TypeNames where
  superclass : Option String
  interfaces : List String
  fields : List String
  /-- The type that a method returns, and its parameters. -/
  methods : List (String × List String)
  constructors : List (List String)

def typeNames (w : World) (c : ClassId) : TypeNames where
  superclass := (w.node c).superclassRef.map w.resolvedName
  interfaces := (w.node c).interfaceRefs.map w.resolvedName
  fields := (w.node c).declaredFields.map fun f => w.resolvedName (w.field f).type
  methods := (w.node c).declaredMethods.map fun m =>
    (w.resolvedName (w.method m).returnType, (parameterTypes (w.method m).parameters).map w.resolvedName)
  constructors := (w.node c).declaredConstructors.map fun k =>
    (parameterTypes (w.constructor k).parameters).map w.resolvedName

def TypeNames.of (name : RefSnapshot → String) (x : ClassSnapshot) : TypeNames where
  superclass := x.superclass.map name
  interfaces := x.interfaces.map name
  fields := x.fields.map (name ·.type)
  methods := x.methods.map fun m => (name m.returnType, m.parameters.map (name ·.type))
  constructors := x.constructors.map fun k => k.parameters.map (name ·.type)

def Known (w w' : World) (l l' : LoaderId) (c c' : ClassId) : Prop :=
  ∃ name, (w.loader l).cached? name = some c ∧ (w'.loader l').cached? name = some c'

inductive Matches (w w' : World) (l l' : LoaderId) : Lead → Lead → Prop
  | known {c c'} : Known w w' l l' c c' → Matches w w' l l' (.known c) (.known c')
  | standIn {name c} : (w.loader l).placeholders.get? name = some c →
      Matches w w' l l' (.known c) (.missing name)
  | missing (name : String) : Matches w w' l l' (.missing name) (.missing name)

section
variable {w w' : World} {l l' : LoaderId} {c c' : ClassId}

theorem Standing.collaborator? (h : w.Standing l) {name : String} (hc : (w.loader l).cached? name = some c) :
    w.collaborator? c = some (.loader l) := collaborator?_of_lookup (h.resident hc).lookup h.alive

theorem Standing.unsourced (h : w.Standing l) {name : String} (hc : (w.loader l).cached? name = some c) :
    w.Unsourced c := unsourced_of_lookup (h.resident hc).lookup h.sources

theorem Standing.settles (h : w.Standing l) {name : String} (hc : (w.loader l).cached? name = some c)
    {r : RefId} (hr : r ∈ w.shownReferences c) : w.Settles r := by
  intro n d ht
  obtain rfl := (h.resident hc).written r hr n d ht
  exact ⟨(h.resident hc).lt, h.unsourced hc⟩

theorem Standing.writtenLead_eq (h : w.Standing l) {name : String} (hc : (w.loader l).cached? name = some c)
    (x : RefSnapshot) : w.writtenLead c x = match w.seek c x (.loader l) with
      | some d => .known d
      | none => match (w.loader l).placeholders.get? x.name with
        | some d => .known d
        | none => .missing x.name := by
  unfold writtenLead leadFrom missedLead
  rw [if_pos ((h.resident hc).present), h.collaborator? hc]
  rfl

theorem supertypeRefs_shown {r : RefId} (hr : r ∈ w.supertypeRefs c) : r ∈ w.shownReferences c := by
  rcases List.mem_append.mp hr with hr | hr
  · exact interface_shown hr
  · exact superclass_shown (Option.mem_toList.mp hr)

/-- There are no more classes than there is room for. -/
theorem Standing.length_le (h : w.Standing l) : (w.loader l).classes.length + 2 ≤ w.walkBound := by
  have hnodup : ((w.loader l).classes.map (·.2.index)).Nodup := by
    refine List.pairwise_map.mpr (h.sorted.imp_of_mem fun {a b} ha hb hlt heq => ?_)
    have hab : a.2 = b.2 := by cases hx : a.2; cases hy : b.2; simp_all
    rw [← (h.resident (h.listed a ha)).name, ← (h.resident (h.listed b hb)).name, hab] at hlt
    exact String.lt_irrefl _ hlt
  have hsub : (w.loader l).classes.map (·.2.index) ⊆ List.range w.nodes.size := by
    intro i hi
    obtain ⟨e, he, rfl⟩ := List.mem_map.mp hi
    exact List.mem_range.mpr ((h.resident (h.listed e he)).lt)
  have hle := (hnodup.subperm hsub).length_le
  simp only [List.length_map, List.length_range] at hle
  show _ ≤ w.nodes.size + _ + 2
  omega

def memberNames (x : ClassSnapshot) : MemberKind → List String
  | .field => x.fields.map (·.name)
  | .method => x.methods.map (·.name)

theorem Standing.ownNames_eq (h : w.Standing l) {name : String} (hc : (w.loader l).cached? name = some c)
    (kind : MemberKind) :
    w.ownNames kind (.known c) = (memberNames (w.captureClass c) kind).map (Name.qualify name) := by
  have hqualify {m : Member} (hm : m ∈ w.declared kind c) :
      w.memberQualifiedName m = Name.qualify name (w.memberName m) := by
    unfold memberQualifiedName qualifyIn
    rw [(h.resident hc).owners kind m hm, if_pos ((h.resident hc).present), (h.resident hc).name]
  have hown : w.ownNames kind (.known c) = ((w.declared kind c).map w.memberName).map (Name.qualify name) := by
    rw [List.map_map]
    exact List.map_congr_left fun m hm => hqualify hm
  rw [hown]
  cases kind <;> simp [declared, memberNames, captureClass, captureField, captureMethod, memberName, Function.comp_def]

/-- What a class refers to is what is written in it. -/
theorem typeNames_eq (name : RefSnapshot → String)
    (h : ∀ r ∈ w.shownReferences c, w.resolvedName r = name (w.captureRef r)) :
    w.typeNames c = .of name (w.captureClass c) := by
  have hparameters {ps : Parameters} (hps : parameterTypes ps ⊆ w.shownReferences c) :
      (parameterTypes ps).map w.resolvedName = (w.captureParameters ps).map (name ·.type) := by
    unfold parameterTypes captureParameters at *
    rw [List.map_map, List.map_map]
    exact List.map_congr_left fun p hp => h _ (hps (List.mem_map_of_mem hp))
  unfold typeNames TypeNames.of captureClass
  simp only [List.map_map, Option.map_map, TypeNames.mk.injEq]
  refine ⟨?_, ?_, ?_, ?_, ?_⟩
  · exact Option.map_congr fun r hr => h r (superclass_shown hr)
  · exact List.map_congr_left fun r hr => h r (interface_shown hr)
  · exact List.map_congr_left fun f hf => h _ (field_shown hf)
  · refine List.map_congr_left fun m hm => ?_
    have hshown : (w.method m).returnType :: parameterTypes (w.method m).parameters ⊆ w.shownReferences c :=
      method_shown hm
    have hreturn := h _ (hshown List.mem_cons_self)
    have hps := hparameters fun r hr => hshown (List.mem_cons_of_mem _ hr)
    simp only [Function.comp, captureMethod, hreturn, hps]
  · exact List.map_congr_left fun k hk => hparameters (constructor_shown hk)

/-! ## Lookups -/

namespace Mirrors

variable (h : Mirrors w w' l l')
include h

theorem cached (name : String) :
    Option.Rel (Twins w w') ((w.loader l).cached? name) ((w'.loader l').cached? name) := by
  have hb := h.builtins name
  have hc := h.classes name
  unfold Loader.cached?
  revert hb hc
  generalize (w.loader l).builtins.get? name = b
  generalize (w'.loader l').builtins.get? name = b'
  intro hb hc
  cases hb with
  | some ht => exact .some ht
  | none => exact hc

theorem twins (hk : Known w w' l l' c c') : Twins w w' c c' := by
  obtain ⟨name, hc, hc'⟩ := hk
  have := h.cached name
  rw [hc, hc'] at this
  cases this with
  | some ht => exact ht

theorem found? (name : String) :
    Option.Rel (Known w w' l l') (w.found? name (.loader l)) (w'.found? name (.loader l')) := by
  have hc := h.cached name
  show Option.Rel _ ((w.loader l).cached? name) ((w'.loader l').cached? name)
  cases hl : (w.loader l).cached? name with
  | none => rw [hl] at hc; cases hr : (w'.loader l').cached? name <;> rw [hr] at hc <;> cases hc; exact .none
  | some c =>
    cases hr : (w'.loader l').cached? name with
    | none => rw [hl, hr] at hc; cases hc
    | some c' => exact .some ⟨name, hl, hr⟩

theorem findSome? (names : List String) : Option.Rel (Known w w' l l') (names.findSome? (w.found? · (.loader l)))
    (names.findSome? (w'.found? · (.loader l'))) := by
  induction names with
  | nil => exact .none
  | cons name names ih =>
    have hc := h.found? name
    rw [List.findSome?_cons, List.findSome?_cons]
    revert hc
    generalize w.found? name (.loader l) = o
    generalize w'.found? name (.loader l') = o'
    intro hc
    cases hc with
    | some hk => exact .some hk
    | none => exact ih

theorem foundDefault? (name : String) :
    Option.Rel (Known w w' l l') (w.foundDefault? name (.loader l)) (w'.foundDefault? name (.loader l')) := by
  have hb := h.builtins name
  have hfound := h.findSome? ((w.loader l).settings.defaultPackages.map (Name.qualify · name) ++ [name])
  simp only [World.foundDefault?, h.settings]
  cases hl : (w.loader l).builtins.get? name with
  | none =>
    rw [hl] at hb
    cases hr : (w'.loader l').builtins.get? name <;> rw [hr] at hb <;> cases hb
    exact hfound
  | some c =>
    cases hr : (w'.loader l').builtins.get? name with
    | none => rw [hl, hr] at hb; cases hb
    | some c' => exact .some ⟨name, cached?_of_builtin hl, cached?_of_builtin hr⟩

theorem seek (hk : Known w w' l l' c c') (x : RefSnapshot) :
    Option.Rel (Known w w' l l') (w.seek c x (.loader l)) (w'.seek c' x (.loader l')) := by
  cases x with
  | qualified name => exact h.found? name
  | unqualified name =>
    have ht := h.twins hk
    have hpackage : (w'.node c').package = (w.node c).package := congrArg ClassSnapshot.package ht.shown
    have hfound := h.findSome? (Name.qualify (w.node c).package name :: importedNames (w.node c).imports name)
    have hdefault := h.foundDefault? name
    simp only [World.seek, World.foundUnqualified?, hpackage, ht.imports]
    revert hfound
    generalize List.findSome? _ _ = o
    generalize List.findSome? _ _ = o'
    intro hfound
    cases hfound with
    | some hk => exact .some hk
    | none => exact hdefault

/-! ## Leads -/

theorem writtenLead (hk : Known w w' l l' c c') (x : RefSnapshot) :
    Matches w w' l l' (w.writtenLead c x) (w'.writtenLead c' x) := by
  have hseek := h.seek hk x
  obtain ⟨name, hc, hc'⟩ := hk
  rw [h.left.writtenLead_eq hc, h.right.writtenLead_eq hc', h.noStandIns]
  revert hseek
  generalize w.seek c x (.loader l) = o
  generalize w'.seek c' x (.loader l') = o'
  intro hseek
  cases hseek with
  | some hk => exact .known hk
  | none =>
    cases hp : (w.loader l).placeholders.get? x.name with
    | some d => exact .standIn hp
    | none => exact .missing _

/-- References that were written alike lead to the same place. -/
theorem lead (hk : Known w w' l l' c c') {r r' : RefId} (hr : r ∈ w.shownReferences c)
    (hr' : r' ∈ w'.shownReferences c') (hx : w'.captureRef r' = w.captureRef r) :
    Matches w w' l l' (w.lead r) (w'.lead r') := by
  have hmatch := h.writtenLead hk (w.captureRef r)
  obtain ⟨name, hc, hc'⟩ := hk
  rw [h.left.leads hc r hr, h.right.leads hc' r' hr', hx]
  exact hmatch

theorem leadName {x x' : Lead} (hx : Matches w w' l l' x x') : w'.leadName x' = w.leadName x := by
  cases hx with
  | known hk =>
    obtain ⟨name, hc, hc'⟩ := hk
    exact ((h.right.resident hc').name).trans ((h.left.resident hc).name).symm
  | standIn hp =>
    obtain ⟨-, lookup, settings, hn⟩ := h.standIns _ _ hp
    unfold World.leadName World.nameOf
    simp only [hn]; rfl
  | missing name => rfl

theorem interfaceLeads {x x' : Lead} (hx : Matches w w' l l' x x') :
    List.Forall₂ (Matches w w' l l') (w.interfaceLeads x) (w'.interfaceLeads x') := by
  cases hx with
  | known hk =>
    have hmap := forall₂_of_map_eq (congrArg ClassSnapshot.interfaces (h.twins hk).shown)
    refine List.forall₂_map_left_iff.mpr (List.forall₂_map_right_iff.mpr (hmap.imp fun r r' hr => ?_))
    exact h.lead hk (interface_shown hr.1) (interface_shown hr.2.1) hr.2.2
  | standIn hp =>
    obtain ⟨-, lookup, settings, hn⟩ := h.standIns _ _ hp
    simp only [World.interfaceLeads, hn]
    exact .nil
  | missing name => exact .nil

theorem superclassLead {x x' : Lead} (hx : Matches w w' l l' x x') :
    Option.Rel (Matches w w' l l') (w.superclassLead x) (w'.superclassLead x') := by
  cases hx with
  | @known c c' hk =>
    have hmap : (w'.node c').superclassRef.map w'.captureRef = (w.node c).superclassRef.map w.captureRef :=
      congrArg ClassSnapshot.superclass (h.twins hk).shown
    have hlead := @lead w w' l l' c c' h hk
    simp only [World.superclassLead]
    cases hr : (w.node c).superclassRef with
    | none =>
      rw [hr, Option.map_none, Option.map_eq_none_iff] at hmap
      rw [hmap]; exact .none
    | some r =>
      rw [hr, Option.map_some, Option.map_eq_some_iff] at hmap
      obtain ⟨r', hr', hx⟩ := hmap
      rw [hr']
      exact .some (hlead (superclass_shown hr) (superclass_shown hr') hx)
  | standIn hp =>
    obtain ⟨-, lookup, settings, hn⟩ := h.standIns _ _ hp
    simp only [World.superclassLead, hn]
    exact .none
  | missing name => exact .none

theorem supers {x x' : Lead} (hx : Matches w w' l l' x x') :
    List.Forall₂ (Matches w w' l l') (w.supers x) (w'.supers x') := by
  have hs := h.superclassLead hx
  rw [supers_eq, supers_eq]
  refine List.rel_append (h.interfaceLeads hx) ?_
  revert hs
  generalize w.superclassLead x = o
  generalize w'.superclassLead x' = o'
  intro hs
  cases hs with
  | some hy => exact .cons hy .nil
  | none => exact .nil

theorem interfaceAt {x x' : Lead} (hx : Matches w w' l l' x x') : w'.interfaceAt x' = w.interfaceAt x := by
  cases hx with
  | known hk => exact congrArg ClassSnapshot.isInterface (h.twins hk).shown
  | standIn hp =>
    obtain ⟨-, lookup, settings, hn⟩ := h.standIns _ _ hp
    simp only [World.interfaceAt, hn]; rfl
  | missing name => rfl

theorem inherited {x x' : Lead} (hx : Matches w w' l l' x x') :
    List.Forall₂ (Matches w w' l l') (w.inherited x) (w'.inherited x') := by
  unfold World.inherited
  rw [h.interfaceAt hx]
  split
  · exact h.interfaceLeads hx
  · exact h.supers hx

theorem ownNames (kind : MemberKind) {x x' : Lead} (hx : Matches w w' l l' x x') :
    w.ownNames kind x = w'.ownNames kind x' := by
  cases hx with
  | known hk =>
    have ht := h.twins hk
    obtain ⟨name, hc, hc'⟩ := hk
    rw [h.left.ownNames_eq hc, h.right.ownNames_eq hc', ht.shown]
  | standIn hp =>
    obtain ⟨-, lookup, settings, hn⟩ := h.standIns _ _ hp
    unfold World.ownNames declared
    simp only [hn]
    cases kind <;> rfl
  | missing name => rfl

/-! ## What is met -/

theorem eq_nil_of_standIn {name : String} {c : ClassId} (hp : (w.loader l).placeholders.get? name = some c) :
    w.shownReferences c = [] ∧ ∀ kind, w.declared kind c = [] := by
  obtain ⟨-, lookup, settings, hn⟩ := h.standIns _ _ hp
  unfold shownReferences declared
  simp only [hn]
  exact ⟨rfl, fun kind => by cases kind <;> rfl⟩

theorem left_region : w.Region fun x => ∃ x', Matches w w' l l' x x' where
  lt c hc := by
    obtain ⟨x', hx⟩ := hc
    cases hx with
    | known hk => obtain ⟨name, hc, -⟩ := hk; exact (h.left.resident hc).lt
    | standIn hp => exact (h.standIns _ _ hp).1
  settles c hc r hr := by
    have hr := supertypeRefs_shown hr
    obtain ⟨x', hx⟩ := hc
    cases hx with
    | known hk => obtain ⟨name, hc, -⟩ := hk; exact h.left.settles hc hr
    | standIn hp => rw [(h.eq_nil_of_standIn hp).1] at hr; cases hr
  closed x hx y hy := by
    obtain ⟨x', hx⟩ := hx
    obtain ⟨y', -, hyy⟩ := exists_of_mem_left (h.supers hx) hy
    exact ⟨y', hyy⟩

theorem right_region : w'.Region fun x' => ∃ x, Matches w w' l l' x x' where
  lt c hc := by
    obtain ⟨x', hx⟩ := hc
    cases hx with
    | known hk => obtain ⟨name, -, hc⟩ := hk; exact (h.right.resident hc).lt
  settles c hc r hr := by
    have hr := supertypeRefs_shown hr
    obtain ⟨x', hx⟩ := hc
    cases hx with
    | known hk => obtain ⟨name, -, hc⟩ := hk; exact h.right.settles hc hr
  closed x' hx y' hy := by
    obtain ⟨x, hx⟩ := hx
    obtain ⟨y, -, hyy⟩ := exists_of_mem_right (h.supers hx) hy
    exact ⟨y, hyy⟩

theorem mem_of_supers {x x' : Lead} (hx : Matches w w' l l' x x') (hne : w.supers x ≠ []) :
    x ∈ (w.loader l).classes.values.map Lead.known := by
  obtain ⟨y, hy⟩ := List.exists_mem_of_ne_nil _ hne
  obtain ⟨c, rfl, r, hr, -⟩ := mem_supers.mp hy
  have hshown := supertypeRefs_shown hr
  cases hx with
  | known hk =>
    obtain ⟨name, hc, -⟩ := hk
    rcases Option.or_eq_some_iff.mp hc with hb | ⟨-, hc⟩
    · rw [h.left.topmost hb] at hshown; cases hshown
    · exact List.mem_map_of_mem (Registry.mem_values.mpr ⟨name, Registry.mem_of_get? hc⟩)
  | standIn hp => rw [(h.eq_nil_of_standIn hp).1] at hshown; cases hshown

/-! ## Both loaders answer alike -/

theorem assignableAtOnce? {d d' : ClassId} (hk : Known w w' l l' c c') (hd : Known w w' l l' d d') :
    w'.assignableAtOnce? c' d' = w.assignableAtOnce? c d := by
  have ht := h.twins hk
  have htd := h.twins hd
  have hc : (w'.node c').qualifiedName = (w.node c).qualifiedName := h.leadName (.known hk)
  have hd : (w'.node d').qualifiedName = (w.node d).qualifiedName := h.leadName (.known hd)
  unfold World.assignableAtOnce? ClassNode.isValueType ClassNode.isObjectType
  simp only [ht.kind, htd.kind, hc, hd, ht.settings]

theorem typeNames (hk : Known w w' l l' c c') : w'.typeNames c' = w.typeNames c := by
  have hleft : ∀ r ∈ w.shownReferences c, w.resolvedName r = w.leadName (w.writtenLead c (w.captureRef r)) := by
    intro r hr
    have hmatch := h.writtenLead hk (w.captureRef r)
    obtain ⟨name, hc, -⟩ := hk
    rw [← h.left.leads hc r hr] at hmatch ⊢
    exact resolvedName_eq (h.left.settles hc hr) fun d hd => h.left_region.lt d ⟨_, hd ▸ hmatch⟩
  have hright : ∀ r ∈ w'.shownReferences c', w'.resolvedName r = w.leadName (w.writtenLead c (w'.captureRef r)) := by
    intro r hr
    have hmatch := h.writtenLead hk (w'.captureRef r)
    obtain ⟨name, -, hc⟩ := hk
    rw [← h.leadName hmatch]
    rw [← h.right.leads hc r hr] at hmatch ⊢
    exact resolvedName_eq (h.right.settles hc hr) fun d hd => h.right_region.lt d ⟨_, hd ▸ hmatch⟩
  rw [typeNames_eq (fun x => w.leadName (w.writtenLead c x)) hleft,
    typeNames_eq (fun x => w.leadName (w.writtenLead c x)) hright, (h.twins hk).shown]

section
variable (hacyclic : ∀ c ∈ (w.loader l).classes.values, ¬ TransGen w.Supertype c c)
include hacyclic

theorem acyclic {x x' : Lead} (hx : Matches w w' l l' x x') : ¬ TransGen (fun x y => y ∈ w.supers x) x x := by
  intro hcycle
  obtain ⟨c, rfl, hc⟩ := h.left_region.transGen_self ⟨x', hx⟩ hcycle
  obtain ⟨y, hy, -⟩ := TransGen.head'_iff.mp hcycle
  obtain ⟨d, hd, hdc⟩ := List.mem_map.mp (h.mem_of_supers hx (List.ne_nil_of_mem hy))
  cases hdc
  exact hacyclic c hd hc

theorem search_ends {x x' : Lead} (hx : Matches w w' l l' x x') (hit : Lead → Bool) :
    ∃ b, Descent.search w.supers hit ((w.loader l).classes.length + 2) x = some b := by
  have hends : ∃ b, Descent.search w.supers hit (((w.loader l).classes.values.map Lead.known).length + 2) x = some b :=
    Descent.search_ends _ h.left_region.closed (fun x ⟨_, hx⟩ => h.mem_of_supers hx)
      (fun x ⟨_, hx⟩ => h.acyclic hacyclic hx) ⟨x', hx⟩
  simpa [Registry.values] using hends

theorem gather_ends {x x' : Lead} (hx : Matches w w' l l' x x') (kind : MemberKind) :
    ∃ names, Descent.gather w.inherited (w.ownNames kind) ((w.loader l).classes.length + 2) x = some names := by
  have hsub : (fun x y => y ∈ w.inherited x) ≤ fun x y => y ∈ w.supers x := fun x y hy => inherited_subset _ x hy
  have hends : ∃ names, Descent.gather w.inherited (w.ownNames kind)
      (((w.loader l).classes.values.map Lead.known).length + 2) x = some names := by
    refine Descent.gather_ends _ (fun x hx y hy => h.left_region.closed x hx y (hsub x y hy)) ?_ ?_ ⟨x', hx⟩
    · intro x hx hne
      obtain ⟨_, hx⟩ := hx
      refine h.mem_of_supers hx fun hnil => hne (List.eq_nil_iff_forall_not_mem.mpr fun y hy => ?_)
      have hy : y ∈ w.supers x := hsub x y hy
      rw [hnil] at hy; cases hy
    · intro x hx hcycle
      obtain ⟨_, hx⟩ := hx
      exact h.acyclic hacyclic hx (TransGen.mono hsub _ _ hcycle)
  simpa [Registry.values] using hends

theorem answers {d d' : ClassId} (hk : Known w w' l l' c c') (hd : Known w w' l l' d d') :
    ∃ b, (w.Ends c d b ∧ (c.isAssignableFrom d w).1 = b) ∧ w'.Ends c' d' b ∧ (c'.isAssignableFrom d' w').1 = b := by
  have honce' := h.assignableAtOnce? hk hd
  cases honce : w.assignableAtOnce? c d with
  | some b =>
    rw [honce] at honce'
    refine ⟨b, ⟨.inl honce, ?_⟩, .inl honce', ?_⟩
    · rw [isAssignableFrom_run, honce]
    · rw [isAssignableFrom_run, honce']
  | none =>
    rw [honce] at honce'
    have hname : w'.nameOf c' = w.nameOf c := h.leadName (.known hk)
    obtain ⟨b, hb⟩ := h.search_ends hacyclic (.known hd) (w.hit (w.nameOf c))
    have hb' :
        Descent.search w'.supers (w'.hit (w'.nameOf c')) ((w.loader l).classes.length + 2) (.known d') = some b := by
      rw [← hb]
      refine (Descent.search_eq (fun x x' hx => h.supers hx) (fun x x' hx => ?_) _ _ _ (.known hd)).symm
      unfold hit
      rw [h.leadName hx, hname]
    refine ⟨b, answers_of_search h.left_region ⟨_, .known hd⟩ h.left.length_le honce hb, ?_⟩
    exact answers_of_search h.right_region ⟨_, .known hd⟩ (h.length ▸ h.right.length_le) honce' hb'

theorem flattens (hk : Known w w' l l' c c') (kind : MemberKind) :
    ∃ names, w.Flattens kind c names ∧ w'.Flattens kind c' names := by
  obtain ⟨names, hn⟩ := h.gather_ends hacyclic (.known hk) kind
  have hn' :
      Descent.gather w'.inherited (w'.ownNames kind) ((w.loader l).classes.length + 2) (.known c') = some names := by
    rw [← hn]
    exact (Descent.gather_eq (fun x x' hx => h.inherited hx) (fun x x' hx => h.ownNames kind hx) _ _ _ (.known hk)).symm
  refine ⟨names, ?_, ?_⟩
  · refine flattens_of_gather h.left_region (fun d hd m hm => ?_) ⟨_, .known hk⟩
      (Descent.gather_mono h.left.length_le hn)
    obtain ⟨_, hd⟩ := hd
    cases hd with
    | known hd =>
      obtain ⟨name, hd, -⟩ := hd
      rw [(h.left.resident hd).owners kind m hm]; exact (h.left.resident hd).lt
    | standIn hp => rw [(h.eq_nil_of_standIn hp).2] at hm; cases hm
  · refine flattens_of_gather h.right_region (fun d hd m hm => ?_) ⟨_, .known hk⟩
      (Descent.gather_mono (h.length ▸ h.right.length_le) hn')
    obtain ⟨_, hd⟩ := hd
    cases hd with
    | known hd =>
      obtain ⟨name, -, hd⟩ := hd
      rw [(h.right.resident hd).owners kind m hm]; exact (h.right.resident hd).lt

end

end Mirrors

end

end World

end ClassModel
