import ClassModel.Proofs.Graph.Calls
import ClassModel.Proofs.Graph.Turns

/-!
# Nobody is asked again

A name that a loader knows it knows for good, and no call leads to any source being asked for it, whatever
the sources do.
-/

namespace ClassModel

open Change Relation World

/-! ## While a lookup is in progress -/

namespace Moment

structure Retained (l : LoaderId) (name : String) (c : ClassId) (m : Moment) : Prop where
  cached : (m.world.loader l).cached? name = some c
  asking : ∀ a ∈ m.asking, a.name ≠ name
  unasked : ∀ e ∈ m.happened, ∀ i, e ≠ .asked i name

section
variable {l : LoaderId} {u w v : World} {m m' : Moment} {name : String} {c : ClassId}

theorem cached?_took (hu : l.index < u.loaders.size) (asked : String) (d : ClassId)
    (hc : (u.loader l).cached? name = some c) : ((u.took l asked d).loader l).cached? name = some c := by
  rw [loader_took hu]
  rcases Option.or_eq_some_iff.mp hc with hb | ⟨hb, hclass⟩
  · exact Option.or_eq_some_iff.mpr (.inl hb)
  · exact Option.or_eq_some_iff.mpr (.inr ⟨hb, Registry.get?_insertNew_of_some hclass⟩)

theorem Retained.step (h : Retained l name c m) (hlt : l.index < m.world.loaders.size) (hs : Step l m m') :
    Retained l name c m' := by
  have hstill {v : World} (hv : Still l m.world v) : (v.loader l).cached? name = some c :=
    (hv.cached? name).trans h.cached
  cases hs with
  | known => exact ⟨h.cached, h.asking, List.forall_mem_cons.mpr ⟨nofun, h.unasked⟩⟩
  | unsourced => exact ⟨h.cached, h.asking, List.forall_mem_cons.mpr ⟨nofun, h.unasked⟩⟩
  | reentered =>
    exact ⟨hstill (.log _ l _), h.asking, List.forall_mem_cons.mpr ⟨nofun, h.unasked⟩⟩
  | @enters w n _ _ _ _ hcached =>
    -- a source is asked only for a name that nothing is held under
    have hne : n ≠ name := fun he => by
      have hname := h.cached
      rw [← he, hcached] at hname
      cases hname
    have hentered := Still.entered hlt n
    have hnoted := Still.noted (hentered.keeps.loaders l hlt).1 0 n
    exact ⟨hstill (hentered.trans hnoted), List.forall_mem_cons.mpr ⟨hne, h.asking⟩,
      List.forall_mem_cons.mpr ⟨fun _ he => hne (Happening.asked.inj he).2, h.unasked⟩⟩
  | goes hnext =>
    obtain ⟨hself, hothers⟩ := List.forall_mem_cons.mp h.asking
    exact ⟨(Program.next_adds hlt hnext).cached?_of_some h.cached, List.forall_mem_cons.mpr ⟨hself, hothers⟩, h.unasked⟩
  | looks | tries => exact ⟨h.cached, h.asking, h.unasked⟩
  | resumes => exact ⟨hstill (.missing _ l _ _), h.asking, h.unasked⟩
  | @passes w a =>
    obtain ⟨hself, hothers⟩ := List.forall_mem_cons.mp h.asking
    refine ⟨hstill (.noted hlt _ _), List.forall_mem_cons.mpr ⟨hself, hothers⟩, ?_⟩
    exact List.forall_mem_cons.mpr ⟨fun _ he => hself (Happening.asked.inj he).2,
      List.forall_mem_cons.mpr ⟨nofun, h.unasked⟩⟩
  | fails =>
    exact ⟨hstill (.left hlt _), (List.forall_mem_cons.mp h.asking).2, List.forall_mem_cons.mpr
      ⟨nofun, List.forall_mem_cons.mpr ⟨nofun, h.unasked⟩⟩⟩
  | @loads w a p waiting happened d =>
    have hleft := Still.left hlt a.name
    exact ⟨cached?_took (hleft.keeps.loaders l hlt).1 _ d (hstill hleft), (List.forall_mem_cons.mp h.asking).2,
      List.forall_mem_cons.mpr ⟨nofun,
        List.forall_mem_cons.mpr ⟨nofun, h.unasked⟩⟩⟩

theorem Course.retained (hu : l.index < u.loaders.size) {n : String} (h : Course l (start u n) m)
    (hc : (u.loader l).cached? name = some c) : Retained l name c m := by
  induction h with
  | refl => exact ⟨hc, nofun, nofun⟩
  | tail hcourse hs ih => exact ih.step (Course.underway hu hcourse).lt hs

theorem Step.others (hs : Step l m m') (hlt : l.index < m.world.loaders.size) {l' : LoaderId} (hne : l' ≠ l) :
    m'.world.loader l' = m.world.loader l' := by
  have hedit (w : World) (f : Loader → Loader) : (w.editLoader l f).loader l' = w.loader l' :=
    loader_editLoader_of_ne w hne f
  cases hs with
  | known | unsourced | reentered | looks | tries => rfl
  | enters => exact (hedit _ _).trans (hedit _ _)
  | goes hnext => exact (Program.next_adds hlt hnext).others l' hne
  | @resumes w f waiting happened found => cases found <;> rfl
  | passes => exact hedit _ _
  | fails => exact hedit _ _
  | @loads w a p waiting happened d => exact (loader_editLoader_of_ne _ hne _).trans (hedit _ _)

theorem Course.others (hu : l.index < u.loaders.size) {n : String} (h : Course l (start u n) m) {l' : LoaderId}
    (hne : l' ≠ l) : m.world.loader l' = u.loader l' := by
  induction h with
  | refl => rfl
  | tail hcourse hs ih => exact (hs.others (Course.underway hu hcourse).lt hne).trans ih

end

end Moment

/-! ## Calls -/

namespace World

structure Retains (u v : World) : Prop where
  keeps : u.Keeps v
  loading : ∀ l, (v.loader l).loading = (u.loader l).loading
  known : ∀ l name c, l.index < u.loaders.size → (u.loader l).cached? name = some c →
    (v.loader l).cached? name = some c ∧
      (v.loader l).asked.filter (·.2 = name) = (u.loader l).asked.filter (·.2 = name)

instance : IsPreorder World Retains where
  refl u := ⟨.refl u, fun _ => rfl, fun _ _ _ _ hc => ⟨hc, rfl⟩⟩
  trans u v z h h' := by
    refine ⟨h.keeps.trans h'.keeps, fun l => (h'.loading l).trans (h.loading l), fun l name c hl hc => ?_⟩
    obtain ⟨hv, hasked⟩ := h.known l name c hl hc
    obtain ⟨hz, hasked'⟩ := h'.known l name c (h.keeps.loaders l hl).1 hv
    exact ⟨hz, hasked'.trans hasked⟩

end World

namespace Retains

theorem ofLoaders {u v : World} (hk : u.Keeps v) (h : v.loaders = u.loaders) : u.Retains v := by
  have hsame (l : LoaderId) : v.loader l = u.loader l := by unfold World.loader; rw [h]
  exact ⟨hk, fun l => by rw [hsame], fun l name c _ hc => by rw [hsame]; exact ⟨hc, rfl⟩⟩

theorem ofLoader {u v : World} {l : LoaderId} (hk : u.Keeps v) (hothers : ∀ l' ≠ l, v.loader l' = u.loader l')
    (hloading : (v.loader l).loading = (u.loader l).loading)
    (hself : ∀ name c, l.index < u.loaders.size → (u.loader l).cached? name = some c →
      (v.loader l).cached? name = some c ∧
        (v.loader l).asked.filter (·.2 = name) = (u.loader l).asked.filter (·.2 = name)) : u.Retains v := by
  refine ⟨hk, fun l' => ?_, fun l' name c hl hc => ?_⟩
  · by_cases hll : l' = l
    · rw [hll]
      exact hloading
    · rw [hothers l' hll]
  · by_cases hll : l' = l
    · subst hll
      exact hself name c hl hc
    · rw [hothers l' hll]
      exact ⟨hc, rfl⟩

theorem loading_editLoader (u : World) (l : LoaderId) {f : Loader → Loader} (hf : ∀ x, (f x).loading = x.loading) :
    ((u.editLoader l f).loader l).loading = (u.loader l).loading := by
  obtain ⟨-, -, hself⟩ | hsame := u.loader_editLoader_cases l l f
  · rw [hself, hf]
  · rw [hsame]

theorem edit (e : Edit) : Within Retains e.apply := fun w => ofLoaders (Builds.edit e w).keeps (e.spares w).loaders

theorem create (package simpleName : String) (lookup : Option Collaborator) (settings : Settings) :
    Within Retains (createClass package simpleName lookup settings) := .ofMakes fun w =>
  ⟨_, _, _, createClass_makes package simpleName lookup settings w, fun _ => ofLoaders (.withNode w _) rfl⟩

theorem make (settings : Settings) (sources : List Source) : Within Retains (Loader.make settings sources) :=
  .ofMakes fun w => by
    have hspec := withLoader_spec w settings sources
    refine ⟨_, _, _, Loader.make_makes settings sources w, fun _ => ?_⟩
    have hnone : w.loader w.nextLoader = default := Store.get_of_size_le _ (Nat.le_refl _)
    exact ofLoader (.withLoader w settings sources) hspec.other (by rw [hspec.self, hnone]; rfl)
      fun _ _ hlt _ => (Nat.lt_irrefl _ hlt).elim

theorem define (l : LoaderId) (package simpleName : String) (imports : List Import) :
    Within Retains (Loader.define l package simpleName imports) := .ofMakes fun w => by
  have hmakes := Loader.define_makes l package simpleName imports w
  refine ⟨_, _, _, hmakes, fun hp => ?_⟩
  refine ofLoader (.define (hmakes.made hp)) (fun _ => loader_withDefined_of_ne package simpleName imports)
    (loading_editLoader (w.withNode _) l fun _ => rfl) fun name c hl hc => ?_
  rw [loader_withDefined_self package simpleName imports hl]
  refine ⟨?_, rfl⟩
  rcases Option.or_eq_some_iff.mp hc with hb | ⟨hb, hclass⟩
  · exact Option.or_eq_some_iff.mpr (.inl hb)
  · exact Option.or_eq_some_iff.mpr (.inr ⟨hb, Registry.get?_insert_of_some hp.2.2.2 hclass⟩)

theorem standIn (l : LoaderId) (name : String) : Within Retains (Loader.placeholder l name) := fun w => by
  have hkeeps := Keeps.standIn w l name
  rw [placeholder_run] at hkeeps ⊢
  cases hn : (w.loader l).placeholders.get? name with
  | some c => exact refl_of Retains w
  | none =>
    rw [hn] at hkeeps
    refine ofLoader hkeeps (fun _ hne => loader_editLoader_of_ne (w.withNode _) hne _)
      (loading_editLoader (w.withNode _) l fun _ => rfl) fun name c hl hc => ?_
    dsimp only
    rw [loader_editLoader_self (w := w.withNode _) hl]
    exact ⟨hc, rfl⟩

theorem lookupWithin (l : LoaderId) (depth : Nat) (name : String) :
    (Loader.lookupWithin depth l name).Within Retains := by
  intro u found v h
  by_cases hl : l.index < u.loaders.size
  · obtain ⟨happened, hcourse⟩ := Moment.lookupWithin_course h
    have hunder := Moment.Course.underway hl hcourse
    refine ofLoader hunder.keeps (fun _ hne => Moment.Course.others hl hcourse hne) hunder.loading fun n c _ hc => ?_
    obtain ⟨hcached, -, hunasked⟩ := Moment.Course.retained hl hcourse hc
    refine ⟨hcached, ?_⟩
    have hnone : (List.filterMap (·.request?) (.returned name found :: happened)).filter (·.2 = n) = [] := by
      refine List.filter_eq_nil_iff.mpr fun r hr => ?_
      obtain ⟨e, he, hreq⟩ := List.mem_filterMap.mp hr
      cases e with
      | asked i asked => cases hreq; simpa using fun hn => hunasked _ he i (by rw [hn])
      | answered => cases hreq
      | returned => cases hreq
    rw [show (v.loader l).asked = _ from hunder.asked, List.filter_append, hnone]
    rfl
  · -- There is no such loader, and so it knows nothing and asks nobody.
    cases depth with
    | zero => cases h
    | succ depth =>
      rw [Loader.lookupWithin_eq, show u.loader l = default from Store.get_of_size_le _ (Nat.not_lt.mp hl)] at h
      cases h
      exact refl_of Retains u

theorem loaderLookup (l : LoaderId) (name : String) : Within Retains (Loader.lookup l name) :=
  .bind (.see _) fun _ => (lookupWithin l _ name).complete none

theorem loaderLookupDefault (l : LoaderId) (name : String) : Within Retains (Loader.lookupDefault l name) :=
  .bind (.see _) fun x => by
    refine Bounded.Within.complete (.bind (.see _) fun y => ?_) none
    cases y.builtins.get? name with
    | some c => exact .pure _
    | none => exact .firstHit (lookupWithin l x.depth) _

theorem finding : Finding Retains where
  keeps h := h.keeps
  log e := fun w => ofLoaders (Builds.log e w).keeps rfl
  loaderLookup := loaderLookup
  loaderLookupDefault := loaderLookupDefault
  standIn := standIn
  onDirectory d f := fun w => ofLoaders (Builds.onDirectory d f w).keeps rfl
  stray w _ _ _ := ofLoaders (.withNode w _) rfl

theorem rebuilding : Rebuilding Retains where
  make settings := make settings []
  define := define
  edit e _ := edit e
  log := finding.log

theorem remember (w : World) (r : RefId) (c : ClassId) :
    w.Retains (w.editReference r fun x => { x with memo := some c }) :=
  ofLoaders (.editReference fun _ => rfl) rfl

theorem resolve (r : RefId) : Within Retains r.resolve := fun w => by
  rw [resolve_run]
  cases (w.reference r).known? with
  | some c => exact refl_of Retains w
  | none =>
    dsimp only
    cases (w.reference r).target with
    | direct c => exact refl_of Retains w
    | qualified name c => exact trans_of Retains (finding.findQualified name c w) (remember _ r _)
    | unqualified name c => exact trans_of Retains (finding.findUnqualified name c w) (remember _ r _)

theorem qualifiedName (r : RefId) : Within Retains r.qualifiedName := .bind (.see _) fun x => by
  cases x.target with
  | direct c => exact .see _
  | qualified name c => exact .pure _
  | unqualified name c => exact .bind (resolve r) fun _ => .see _

theorem resolveAll (rs : List RefId) : Within Retains (RefId.resolveAll rs) := by
  induction rs with
  | nil => exact .pure []
  | cons r rs ih => exact .bind (resolve r) fun _ => .bind ih fun _ => .pure _

theorem namedReferences (name : String) (rs : List RefId) : Within Retains (ClassId.namedReferences name rs) := by
  induction rs with
  | nil => exact .pure []
  | cons r rs ih => exact .bind (qualifiedName r) fun _ => .bind ih fun _ => .pure _

theorem walking : Walking Retains where
  superclass c := .bind (.see _) fun r => by
    cases r with
    | none => exact .pure none
    | some r => exact .map some (resolve r)
  interfaces c := .bind (.see _) fun _ => resolveAll _
  named c name := .of (.bind (.see _) fun _ => namedReferences name _)
  drop c doomed := .ofMakes fun w => ⟨_, _, _, dropInterfaces_makes c doomed w, fun hc =>
    ofLoaders (.editNode hc fun _ => ⟨rfl, rfl, rfl, rfl, rfl⟩) rfl⟩

theorem query (q : Query) : Within Retains q.ask := by
  cases q with
  | lookup k name => exact finding.lookup name k
  | lookupDefault k name => exact finding.lookupDefault name k
  | load l name => exact finding.load l name
  | forName c name => exact finding.forName c name
  | resolve r => exact resolve r
  | qualifiedName r => exact qualifiedName r
  | superclass c => exact walking.superclass c
  | interfaces c => exact walking.interfaces c
  | flatten c kind => exact walking.flatten c kind
  | tryFlatten c kind => exact walking.tryFlatten c kind
  | isAssignableFrom target other => exact walking.isAssignableFrom target other
  | tryIsAssignableFrom target other => exact walking.tryIsAssignableFrom target other
  | types p => exact .bind (.see _) fun rs => resolveAll rs
  | classes l => exact .see _
  | snapshot l => exact .see _

end Retains

namespace World

theorem Does.retains {w w' : World} (h : Does w w') : w.Retains w' := by
  cases h with
  | makeLoader settings sources => exact Retains.make settings sources w
  | makeDirectory d => exact Retains.ofLoaders (Builds.addDirectory d w).keeps rfl
  | create package simpleName lookup settings => exact Retains.create package simpleName lookup settings w
  | refer t => exact Retains.ofLoaders (.withReference w t) rfl
  | mutate m => exact m.within Retains.walking Retains.define Retains.edit w
  | @ask q => exact Retains.query q w
  | placeholder k name => exact Retains.finding.collaboratorPlaceholder name k w
  | resolveName x name => exact Retains.finding.contextResolve x name w
  | restore settings s => exact Retains.rebuilding.restore settings s w
  | release outside => exact Retains.ofLoaders (.release w outside) rfl
  | foreign c => exact Retains.remember w _ c

theorem Run.retains {w w' : World} (h : Run w w') : w.Retains w' := by
  induction h with
  | refl => exact refl_of Retains w
  | tail _ hd ih => exact trans_of Retains ih hd.retains

end World

end ClassModel
