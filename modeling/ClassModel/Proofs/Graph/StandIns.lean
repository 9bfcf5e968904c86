import ClassModel.Proofs.Graph.Calls
import ClassModel.Proofs.Graph.Registration
import ClassModel.Proofs.Graph.Requests

/-!
# Stand-ins

A loader keeps one stand-in for each name that nobody has found there. It is lent to whoever misses the name,
and it is kept until the name is defined; from then on the name is not missed any more. So in a loader that asks
nobody all misses of a name share one stand-in, and nothing else is ever that class.
-/

namespace ClassModel

open Name

namespace World

/-- Class `c` stands in loader `l` for this name alone. It is no builtin, and no loader that asks nobody has
registered it. -/
structure StandsIn (w : World) (l : LoaderId) (name : String) (c : ClassId) : Prop where
  lt : c.index < w.nodes.size
  kind : (w.node c).kind = .declared
  unregistered : ∀ k, (w.loader k).sources = [] → ∀ e ∈ (w.loader k).classes, e.2 ≠ c
  only : ∀ e ∈ (w.loader l).placeholders, e.2 = c → e.1 = name

inductive Lends (w w' : World) (l : LoaderId) : Prop
  | kept : (w'.loader l).placeholders = (w.loader l).placeholders → Lends w w' l
  | evicted (name : String) : (w'.loader l).placeholders = (w.loader l).placeholders.erase name →
      ((w'.loader l).classes.get? name).isSome = true → Lends w w' l
  | lent (name : String) : (w.loader l).placeholders.get? name = none →
      (w'.loader l).placeholders = (w.loader l).placeholders.insert name w.nextClass →
      (∀ k, (w'.loader k).classes = (w.loader k).classes) → w.nextClass.index < w'.nodes.size →
      (w'.node w.nextClass).kind = .declared → Lends w w' l

section
variable {w w' : World} {made made' : List (LoaderId × ClassId)} {l l' : LoaderId} {name : String} {c : ClassId}

/-! ## What moves do to stand-ins -/

theorem Lends.of_eq (h : w'.loader l = w.loader l) : Lends w w' l := .kept (by rw [h])

theorem Lends.define {package simpleName : String} {imports : List Import}
    (hok : Loader.define l' package simpleName imports w = (.ok c, w')) : Lends w w' l := by
  obtain ⟨-, -, rfl⟩ := (Loader.define_makes l' package simpleName imports w).ok hok
  obtain ⟨rfl, -, hself⟩ | hsame := w.loader_withDefined_cases package simpleName imports l l'
  · refine .evicted (qualify package simpleName) (by rw [hself]) ?_
    rw [hself]
    exact Option.isSome_of_eq_some (Registry.get?_insert_self _ _ _)
  · exact .of_eq hsame

theorem Lends.placeholder (w : World) (l l' : LoaderId) (name : String) :
    Lends w (Loader.placeholder l' name w).2 l := by
  rw [placeholder_run]
  cases hp : (w.loader l').placeholders.get? name with
  | some d => exact .of_eq rfl
  | none =>
    let n := Loader.standIn name (some (.loader l')) (w.loader l').settings
    have hcases (k : LoaderId) := (w.withNode n).loader_editLoader_cases k l' fun x =>
      { x with placeholders := x.placeholders.insert name w.nextClass }
    obtain ⟨rfl, -, hself⟩ | hsame := hcases l
    · refine .lent name hp (by rw [hself]; rfl) (fun k => ?_) ?_ ?_
      · obtain ⟨-, -, hk⟩ | hk := hcases k <;> rw [hk] <;> rfl
      · show w.nodes.size < (w.nodes.push _).size
        simp
      · exact congrArg ClassNode.kind (Store.get_push_self w.nodes n)
    · exact .of_eq hsame

theorem Lends.editLoader {f : Loader → Loader} (hf : ∀ x, (f x).placeholders = x.placeholders) :
    Lends w (w.editLoader l' f) l := by
  obtain ⟨-, -, hself⟩ | hsame := w.loader_editLoader_cases l l' f
  · exact .kept (by rw [hself, hf])
  · exact .of_eq hsame

theorem Move.lends (hm : Move w made' w') (l : LoaderId) : Lends w w' l := by
  cases hm with
  | @make _ settings sources _ hok =>
    obtain ⟨-, -, rfl⟩ := (Loader.make_makes _ _ w).ok hok
    have hspec := withLoader_spec w settings sources
    by_cases hl : l = w.nextLoader
    · subst hl
      refine .kept ?_
      rw [hspec.self, show w.loader w.nextLoader = default from Store.get_of_size_le _ (Nat.le_refl _)]
      rfl
    · exact .of_eq (hspec.other l hl)
  | define _ _ hok => exact .define hok
  | defineUncounted _ hok => exact .define hok
  | create hok =>
    obtain ⟨-, -, rfl⟩ := (createClass_makes _ _ _ _ w).ok hok
    exact .of_eq rfl
  | @edit _ e _ hok =>
    have hloaders := (e.spares w).loaders
    rw [hok] at hloaders
    exact .of_eq (by unfold World.loader; rw [hloaders])
  | standIn l' name => exact .placeholder w l l' name
  | answer => exact .editLoader fun _ => rfl
  | ask => exact .editLoader fun _ => rfl
  | _ => exact .of_eq rfl

theorem StandsIn.move (h : w.StandsIn l name c) (hm : Move w made' w') : w'.StandsIn l name c where
  lt := Nat.lt_of_lt_of_le h.lt hm.keeps.size
  kind := by rw [(hm.keeps.same c h.lt).kind, h.kind]
  unregistered k hs e he := by
    have hs := hm.keeps.sources_eq_nil hs
    cases (hm.affects k).registry with
    | nothing hc => rw [hc] at he; exact h.unregistered k hs e he
    | defined _ hc =>
      rw [hc] at he
      rcases Registry.mem_insert_subset he with rfl | he
      · rintro rfl
        exact Nat.lt_irrefl _ h.lt
      · exact h.unregistered k hs e he
    | answered _ hs' => exact (hs' hs).elim
  only e he hec := by
    cases hm.lends l with
    | kept hp => rw [hp] at he; exact h.only e he hec
    | evicted _ hp => rw [hp] at he; exact h.only e (Registry.mem_erase.mp he).1 hec
    | lent _ _ hp =>
      rw [hp] at he
      rcases Registry.mem_insert_subset he with rfl | he
      · subst hec
        exact (Nat.lt_irrefl _ h.lt).elim
      · exact h.only e he hec

structure Lending (w : World) : Prop where
  sound : ∃ made, w.Sound made
  standsIn : ∀ l, ∀ e ∈ (w.loader l).placeholders, w.StandsIn l e.1 e.2

theorem Lending.move (h : w.Lending) (hm : Move w made' w') : w'.Lending where
  sound := by
    obtain ⟨made, hw⟩ := h.sound
    exact ⟨_, hm.sound hw⟩
  standsIn l e he := by
    cases hm.lends l with
    | kept hp => rw [hp] at he; exact (h.standsIn l e he).move hm
    | evicted _ hp => rw [hp] at he; exact (h.standsIn l e (Registry.mem_erase.mp he).1).move hm
    | lent name _ hp hclasses hlt hkind =>
      rw [hp] at he
      rcases Registry.mem_insert_subset he with rfl | he
      · -- What has been registered or lent before was there before.
        refine ⟨hlt, hkind, fun k hs e he hec => ?_, fun e he hec => ?_⟩
        · obtain ⟨made, hw⟩ := h.sound
          rw [hclasses] at he
          have hheld := (hw.loaders k).held (hm.keeps.sources_eq_nil hs) e.2
            (List.mem_append_left _ (List.mem_append_right _ (Registry.mem_values.mpr ⟨e.1, he⟩)))
          rw [hec] at hheld
          exact Nat.lt_irrefl _ hheld.1
        · rw [hp] at he
          rcases Registry.mem_insert_subset he with rfl | he
          · rfl
          · have hlt := (h.standsIn l e he).lt
            rw [hec] at hlt
            exact (Nat.lt_irrefl _ hlt).elim
      · exact (h.standsIn l e he).move hm

theorem Run.lending (h : Run .empty w) : w.Lending :=
  h.holds ⟨soundEmpty, fun l e he => by cases he⟩ fun hl hm => hl.move hm

/-! ## Kept until the name is defined -/

structure Shared (w : World) (l : LoaderId) (name : String) (c : ClassId) : Prop extends w.StandsIn l name c where
  loader : l.index < w.loaders.size
  kept : (w.loader l).placeholders.get? name = some c ∨ ((w.loader l).cached? name).isSome = true

theorem Move.cached?_isSome (hm : Move w made' w') (hl : l.index < w.loaders.size)
    (h : ((w.loader l).cached? name).isSome = true) : ((w'.loader l).cached? name).isSome = true := by
  have ha := hm.affects l
  unfold Loader.cached? at h ⊢
  rw [ha.builtins hl]
  cases hb : (w.loader l).builtins.get? name with
  | some d => rfl
  | none =>
    rw [hb] at h
    obtain ⟨d, hd⟩ := Option.isSome_iff_exists.mp h
    exact Option.isSome_of_eq_some (ha.registry.get? hd)

theorem Shared.move (h : w.Shared l name c) (hm : Move w made' w') : w'.Shared l name c where
  toStandsIn := h.toStandsIn.move hm
  loader := (hm.keeps.loaders l h.loader).1
  kept := by
    rcases h.kept with hk | hk
    · cases hm.lends l with
      | kept hp => exact .inl (by rw [hp]; exact hk)
      | evicted other hp hdefined =>
        by_cases he : name = other
        · subst he
          refine .inr ?_
          rw [Loader.cached?, Option.isSome_or, hdefined, Bool.or_true]
        · exact .inl (by rw [hp, Registry.get?_erase_of_ne he, hk])
      | lent other hn hp => exact .inl (by rw [hp]; exact Registry.get?_insert_of_some hn hk)
    · exact .inr (hm.cached?_isSome h.loader hk)

theorem Shared.run (h : w.Shared l name c) (hw : ∃ made, w.Sound made) (hrun : Run w w') : w'.Shared l name c :=
  hrun.lastsMove (P := fun w => w.Shared l name c) hw h fun h hm => h.move hm

/-! ## Ways to miss a name -/

def sought (w : World) (l : LoaderId) (c : ClassId) (name : String) : List String :=
  qualify (w.node c).package name :: singleCandidates (w.node c).imports name ++
    onDemandCandidates (w.node c).imports name ++
    ((w.loader l).settings.defaultPackages.map (qualify · name) ++ [name])

/-- A name is looked up in loader `l` in one of four ways and is missed. The class is what is handed out, in the
world that this leaves. -/
inductive Misses (w : World) (l : LoaderId) (name : String) : ClassId → World → Prop
  | load : (Loader.lookup l name w).1 = none → Misses w l name (Loader.load l name w).1 (Loader.load l name w).2
  | forName (d : ClassId) : (w.node d).lookup = some (.loader l) → w.isAlive (.loader l) →
      (Loader.lookup l name w).1 = none → Misses w l name (d.forName name w).1 (d.forName name w).2
  | qualified {r : RefId} {d : ClassId} : w.reference r = ⟨.qualified name d, none⟩ → w.isAlive (.node d) →
      (w.node d).lookup = some (.loader l) → w.isAlive (.loader l) → (Loader.lookup l name w).1 = none →
      Misses w l name (r.resolve w).1 (r.resolve w).2
  | unqualified {r : RefId} {d : ClassId} : w.reference r = ⟨.unqualified name d, none⟩ → w.isAlive (.node d) →
      (w.node d).lookup = some (.loader l) → w.isAlive (.loader l) →
      (∀ candidate ∈ w.sought l d name, (Loader.lookup l candidate w).1 = none) →
      Misses w l name (r.resolve w).1 (r.resolve w).2

theorem lookup_of_unsourced (hs : (w.loader l).sources = []) (name : String) :
    Loader.lookup l name w = ((w.loader l).cached? name, w) := by
  rw [lookup_run, show (w.loader l).depth = (w.loader l).depth - 1 + 1 from rfl, Says.lookupWithin_run hs]
  rfl

theorem placed_of_target {r : RefId} {t : Target} {d : ClassId} (hr : w.reference r = ⟨t, none⟩)
    (ht : t.context? = some d) {k : Collaborator} (hd : (w.node d).lookup = some k) : w.Placed r where
  lt := by
    by_contra hlt
    rw [show w.reference r = default from Store.get_of_size_le _ (Nat.not_lt.mp hlt)] at hr
    rw [← show (default : Reference).target = t from congrArg Reference.target hr] at ht
    cases ht
  context c hc := by
    rw [hr] at hc
    cases ht.symm.trans hc
    by_contra hlt
    rw [show w.node d = default from Store.get_of_size_le _ (Nat.not_lt.mp hlt)] at hd
    cases hd

theorem Misses.does {v : World} (h : w.Misses l name c v) : Does w v := by
  cases h with
  | load => exact .ask (q := .load l name) trivial
  | forName d => exact .ask (q := .forName d name) trivial
  | @qualified r d hr _ hd => exact .ask (q := .resolve r) (placed_of_target hr rfl hd)
  | @unqualified r d hr _ hd => exact .ask (q := .resolve r) (placed_of_target hr rfl hd)

theorem Misses.cached? {v : World} (h : w.Misses l name c v) (hs : (w.loader l).sources = []) :
    (w.loader l).cached? name = none := by
  have hnone {name : String} (h : (Loader.lookup l name w).1 = none) : (w.loader l).cached? name = none := by
    rwa [lookup_of_unsourced hs] at h
  cases h with
  | load h => exact hnone h
  | forName _ _ _ h => exact hnone h
  | qualified _ _ _ _ h => exact hnone h
  | unqualified _ _ _ _ h => exact hnone (h name (by simp [sought]))

theorem foundUnqualified?_of_missed (hs : (w.loader l).sources = [])
    (h : ∀ candidate ∈ w.sought l c name, (Loader.lookup l candidate w).1 = none) :
    w.foundUnqualified? c name (.loader l) = none := by
  have hnone : ∀ candidate ∈ w.sought l c name, (w.loader l).cached? candidate = none := fun candidate hc => by
    have := h candidate hc
    rwa [lookup_of_unsourced hs] at this
  unfold foundUnqualified? foundDefault?
  rw [importedNames_eq]
  simp only [Option.or_eq_none_iff, List.findSome?_eq_none_iff]
  refine ⟨fun x hx => hnone x (List.mem_append_left _ hx), ?_, fun x hx => hnone x (List.mem_append_right _ hx)⟩
  exact (Option.or_eq_none_iff.mp (hnone name (by simp [sought]))).1

def Borrowed (w : World) (l : LoaderId) (name : String) (c : ClassId) (v : World) : Prop :=
  (v.loader l).placeholders.get? name = some c ∧ ∀ d, (w.loader l).placeholders.get? name = some d → c = d

theorem borrowed_of_placeholder (hl : l.index < w.loaders.size) (name : String) :
    Leaves (Loader.placeholder l name) w (w.Borrowed l name) := fun log => by
  let u : World := { w with log := log }
  show w.Borrowed l name (Loader.placeholder l name u).1 (Loader.placeholder l name u).2
  rw [placeholder_run]
  cases hp : (u.loader l).placeholders.get? name with
  | some d => exact ⟨hp, fun e he => Option.some.inj (hp.symm.trans he)⟩
  | none =>
    refine ⟨?_, fun e he => by cases hp.symm.trans he⟩
    dsimp only
    rw [loader_editLoader_self (w := u.withNode _) hl]
    exact Registry.get?_insert_self _ _ _

theorem Borrowed.remember {v : World} (h : w.Borrowed l name c v) (r : RefId) :
    w.Borrowed l name (r.remember c v).1 (r.remember c v).2 := h

theorem Misses.borrowed {v : World} (h : w.Misses l name c v) (hs : (w.loader l).sources = [])
    (hl : l.index < w.loaders.size) : w.Borrowed l name c v := by
  have hnone := h.cached? hs
  have hstandIn := borrowed_of_placeholder hl name
  have hfound (d : ClassId) (hd : (w.loader l).cached? name = some d) (log : List Log.Event) :
      w.Borrowed l name d { w with log := log } := by rw [hnone] at hd; cases hd
  cases h with
  | load =>
    rw [load_run, lookup_of_unsourced hs, hnone]
    exact hstandIn (.notFound name :: w.log)
  | forName d hd halive =>
    have hleaves : Leaves (d.forName name) w (w.Borrowed l name) := by
      refine .after (.see fun _ => collaborator?_of_lookup hd halive) ?_
      refine .after (a := none) (s := Collaborator.lookup (.loader l) name) ?_ (placeholder_leaves hd halive hstandIn)
      rw [← hnone]
      exact .loaderLookup hs name
    exact hleaves w.log
  | @qualified r d hr hnode hd halive =>
    rw [resolve_run, hr]
    exact Borrowed.remember (findQualified_leaves hd halive hs hnode hfound hstandIn w.log) r
  | @unqualified r d hr hnode hd halive hmissed =>
    rw [resolve_run, hr]
    refine Borrowed.remember (findUnqualified_leaves hd halive hs hnode (fun e he => ?_) hstandIn w.log) r
    rw [foundUnqualified?_of_missed hs hmissed] at he
    cases he

end

/-- In a loader that asks nobody, all misses of a name hand out one class, in whichever ways the name is looked up
and whatever is done in between; misses of different names hand out different classes; and at no later time
is such a class a builtin of any loader, or registered in one that asks nobody. -/
theorem misses_share_stand_in {w v w' v' : World} {l : LoaderId} {name name' : String} {c c' : ClassId}
    (hw : Run .empty w) (hl : l.index < w.loaders.size) (hs : (w.loader l).sources = [])
    (hmiss : w.Misses l name c v) (hrun : Run v w') (hmiss' : w'.Misses l name' c' v') :
    (c' = c ↔ name' = name) ∧ ∀ u, Run v u → ∀ k, c ∉ (u.loader k).builtins.values ∧
      ((u.loader k).sources = [] → c ∉ (u.loader k).classes.values) := by
  have hv : Run .empty v := hw.tail hmiss.does
  have hw' : Run .empty w' := hv.trans hrun
  have hlv := (hmiss.does.acts (Run.sound hw soundEmpty)).keeps.loaders l hl
  have hlw' := (Run.keeps hrun (Run.sound hv soundEmpty)).loaders l hlv.1
  have hs' : (w'.loader l).sources = [] := by rw [hlw'.2.2, hlv.2.2, hs]
  have hkept := (hmiss.borrowed hs hl).1
  have hshared : v.Shared l name c :=
    ⟨hv.lending.standsIn l _ (Registry.mem_of_get? hkept), hlv.1, .inl hkept⟩
  have hlater := hshared.run (Run.sound hv soundEmpty) hrun
  obtain ⟨hkept', hsame⟩ := hmiss'.borrowed hs' hlw'.1
  refine ⟨⟨?_, ?_⟩, fun u hu k => ⟨fun hb => ?_, fun hk hc => ?_⟩⟩
  · rintro rfl
    have hlast := hlater.run (Run.sound hw' soundEmpty) (.single hmiss'.does)
    exact hlast.only _ (Registry.mem_of_get? hkept') rfl
  · rintro rfl
    rcases hlater.kept with hk | hk
    · exact hsame c hk
    · rw [hmiss'.cached? hs'] at hk
      cases hk
  · obtain ⟨made, hsound⟩ := Run.sound (hv.trans hu) soundEmpty
    obtain ⟨name, hb⟩ := Registry.mem_values.mp hb
    obtain ⟨-, kind, hkind, hnode⟩ := ((hsound.loaders k).provides (lt_of_mem_builtins hb)).node _ hb
    refine Loader.ne_declared_of_mem_builtinKinds hkind ?_
    rw [← (hshared.run (Run.sound hv soundEmpty) hu).kind, hnode]
    rfl
  · obtain ⟨name, hc⟩ := Registry.mem_values.mp hc
    exact (hshared.run (Run.sound hv soundEmpty) hu).unregistered k hk _ hc rfl

def writing : World :=
  (Step.addReference (.unqualified "M" ⟨10⟩) (Step.addReference (.qualified "M" ⟨10⟩)
    ((Mutation.define ⟨0⟩ "p" "A" []).run single).2).2).2

theorem run_writing : Run .empty writing := by
  have hsingle : Run .empty single := .single (.makeLoader _ .standard [])
  have hdefined := hsingle.tail (.mutate _ (.define ⟨0⟩ "p" "A" []))
  have hfirst := hdefined.tail (.refer (.qualified "M" ⟨10⟩) fun c hc => by cases hc; decide +kernel)
  exact hfirst.tail (.refer (.unqualified "M" ⟨10⟩) fun c hc => by cases hc; decide +kernel)

/-- The name has been missed, and another has been missed and defined. -/
def missedAndDefined : World :=
  ((Mutation.define ⟨0⟩ "p" "M2" []).run
    ((Query.forName ⟨10⟩ "p.M2").ask ((⟨0⟩ : RefId).resolve writing).2).2).2

theorem writing_misses : ((⟨0⟩ : RefId).resolve writing).1 = ⟨11⟩ ∧
    Run ((⟨0⟩ : RefId).resolve writing).2 missedAndDefined ∧
    ((⟨1⟩ : RefId).resolve missedAndDefined).1 = ⟨11⟩ ∧
    (Loader.load ⟨0⟩ "p.N" missedAndDefined).1 ≠ ⟨11⟩ ∧
    ⟨11⟩ ∉ (missedAndDefined.loader ⟨0⟩).classes.values := by
  have hfirst : ((⟨0⟩ : RefId).resolve writing).1 = ⟨11⟩ := by decide +kernel
  have hrun : Run ((⟨0⟩ : RefId).resolve writing).2 missedAndDefined :=
    .tail (.tail .refl (.ask (q := .forName ⟨10⟩ "p.M2") trivial)) (.mutate _ _)
  have hmiss : writing.Misses ⟨0⟩ "M" ⟨11⟩ ((⟨0⟩ : RefId).resolve writing).2 := by
    rw [← hfirst]
    exact .qualified (d := ⟨10⟩) (by decide +kernel) (by decide +kernel) (by decide +kernel) (by decide +kernel)
      (by decide +kernel)
  have hbare : missedAndDefined.Misses ⟨0⟩ "M" ((⟨1⟩ : RefId).resolve missedAndDefined).1
      ((⟨1⟩ : RefId).resolve missedAndDefined).2 :=
    .unqualified (d := ⟨10⟩) (by decide +kernel) (by decide +kernel) (by decide +kernel) (by decide +kernel)
      (by decide +kernel)
  have hother : missedAndDefined.Misses ⟨0⟩ "p.N" (Loader.load ⟨0⟩ "p.N" missedAndDefined).1
      (Loader.load ⟨0⟩ "p.N" missedAndDefined).2 := .load (by decide +kernel)
  have hsources : (writing.loader ⟨0⟩).sources = [] := List.isEmpty_iff.mp (by decide +kernel)
  obtain ⟨hsame, hapart⟩ := misses_share_stand_in run_writing (by decide +kernel) hsources hmiss hrun hbare
  obtain ⟨hdiffers, -⟩ := misses_share_stand_in run_writing (by decide +kernel) hsources hmiss hrun hother
  refine ⟨hfirst, hrun, hsame.mpr rfl, fun he => ?_, (hapart _ hrun ⟨0⟩).2 (List.isEmpty_iff.mp (by decide +kernel))⟩
  exact absurd (hdiffers.mp he) (by decide)

end World

end ClassModel
