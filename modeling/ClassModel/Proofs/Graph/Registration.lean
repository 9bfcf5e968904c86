import ClassModel.Graph.SourceRule
import ClassModel.Proofs.Graph.Leads
import ClassModel.Proofs.Graph.Runs
import ClassModel.Proofs.Graph.Soundness

/-!
# What loaders have registered

A move does one of three things to the registry of a loader: nothing, it defines a class, or it adds
what a source has answered, under its own name and unless that is taken. So whatever is registered
stays, and a definition is permanent. But a source may answer with any class, a builtin or a stand-in
among them, and so the registry holds definitions alone only where sources answer with nothing else.
-/

namespace ClassModel

open Change Name

namespace World

inductive Registers (w w' : World) (l : LoaderId) (made : List (LoaderId × ClassId)) : Prop
  | nothing : (w'.loader l).classes = (w.loader l).classes → Registers w w' l made
  | defined {name : String} : (w.loader l).classes.get? name = none →
      (w'.loader l).classes = (w.loader l).classes.insert name w.nextClass →
      w.nextClass.index < w'.nodes.size → w'.nameOf w.nextClass = name →
      (w.Unregistered w.nextClass → made = [(l, w.nextClass)]) → Registers w w' l made
  | answered (c : ClassId) : (w.loader l).sources ≠ [] →
      w' = (w.editLoader l fun x => { x with classes := x.classes.insertNew (w.nameOf c) c }) →
      (w'.loader l).classes = (w.loader l).classes.insertNew (w.nameOf c) c → Registers w w' l made

structure Affects (w w' : World) (l : LoaderId) (made : List (LoaderId × ClassId)) : Prop where
  builtins : l.index < w.loaders.size → (w'.loader l).builtins = (w.loader l).builtins
  registry : Registers w w' l made
  standIns : ∀ e ∈ (w'.loader l).placeholders, e ∈ (w.loader l).placeholders ∨
    made = [] ∧ e.2 = w.nextClass ∧ w.nextClass.index < w'.nodes.size

section
variable {w w' : World} {made made' : List (LoaderId × ClassId)} {l l' : LoaderId} {name : String} {c : ClassId}

theorem Affects.of_eq (h : w'.loader l = w.loader l) : Affects w w' l made := by
  refine ⟨fun _ => by rw [h], .nothing (by rw [h]), fun e he => .inl ?_⟩
  rwa [h] at he

theorem Affects.withDefined (package simpleName : String) (imports : List Import)
    (hname : (w.loader l').classes.get? (qualify package simpleName) = none)
    (hmade : l'.index < w.loaders.size → w.Unregistered w.nextClass → made = [(l', w.nextClass)]) :
    Affects w (w.withDefined l' package simpleName imports) l made := by
  obtain ⟨rfl, hl, hself⟩ | hsame := w.loader_withDefined_cases package simpleName imports l l'
  · refine ⟨fun _ => by rw [hself], .defined hname (by rw [hself]) ?_ (nameOf_withDefined_self _ _ _) (hmade hl),
      fun e he => ?_⟩
    · rw [size_withDefined]
      exact Nat.lt_succ_self _
    · rw [hself] at he
      exact .inl (Registry.mem_erase.mp he).1
  · exact .of_eq hsame

theorem Affects.placeholder (w : World) (l l' : LoaderId) (name : String) :
    Affects w (Loader.placeholder l' name w).2 l [] := by
  rw [placeholder_run]
  cases (w.loader l').placeholders.get? name with
  | some c => exact .of_eq rfl
  | none =>
    let n := Loader.standIn name (some (.loader l')) (w.loader l').settings
    obtain ⟨rfl, -, hself⟩ | hsame := (w.withNode n).loader_editLoader_cases l l' fun x =>
      { x with placeholders := x.placeholders.insert name w.nextClass }
    · refine ⟨fun _ => by rw [hself]; rfl, .nothing (by rw [hself]; rfl), fun e he => ?_⟩
      rw [hself] at he
      rcases Registry.mem_insert_subset he with rfl | he
      · refine .inr ⟨rfl, rfl, ?_⟩
        show w.nodes.size < (w.nodes.push _).size
        simp
      · exact .inl he
    · exact .of_eq hsame

theorem Move.affects (hm : Move w made w') (l : LoaderId) : Affects w w' l made := by
  cases hm with
  | @make _ settings sources _ h =>
    obtain ⟨-, -, rfl⟩ := (Loader.make_makes _ _ w).ok h
    have hspec := withLoader_spec w settings sources
    by_cases hl : l = w.nextLoader
    · subst hl
      have hnone : w.loader w.nextLoader = default := Store.get_of_size_le _ (Nat.le_refl _)
      -- there was no such loader before, and it begins with nothing registered
      refine ⟨fun hlt => (Nat.lt_irrefl _ hlt).elim, .nothing (by rw [hspec.self, hnone]; rfl), fun e he => ?_⟩
      rw [hspec.self] at he
      cases he
    · exact .of_eq (hspec.other l hl)
  | define _ _ h =>
    obtain ⟨⟨-, -, -, hname⟩, rfl, rfl⟩ := (Loader.define_makes _ _ _ _ w).ok h
    exact .withDefined _ _ _ hname fun _ _ => rfl
  | defineUncounted hnot h =>
    obtain ⟨⟨-, -, -, hname⟩, rfl, rfl⟩ := (Loader.define_makes _ _ _ _ w).ok h
    exact .withDefined _ _ _ hname fun hl hnew => (hnot ⟨hl, hnew⟩).elim
  | create h =>
    obtain ⟨-, -, rfl⟩ := (createClass_makes _ _ _ _ w).ok h
    exact .of_eq rfl
  | @edit _ e _ h =>
    have hloaders := (e.spares w).loaders
    rw [h] at hloaders
    exact .of_eq (by unfold World.loader; rw [hloaders])
  | standIn l' name => exact .placeholder w l l' name
  | @answer l' c hs =>
    obtain ⟨rfl, -, hself⟩ | hsame := w.loader_editLoader_cases l l' fun x =>
      { x with classes := x.classes.insertNew (w.nameOf c) c }
    · refine ⟨fun _ => by rw [hself], .answered c hs rfl (by rw [hself]), fun e he => .inl ?_⟩
      rwa [hself] at he
    · exact .of_eq hsame
  | ask l' f g =>
    obtain ⟨rfl, -, hself⟩ | hsame := w.loader_editLoader_cases l l' fun x =>
      { x with loading := f x.loading, asked := g x.asked }
    · refine ⟨fun _ => by rw [hself], .nothing (by rw [hself]), fun e he => .inl ?_⟩
      rwa [hself] at he
    · exact .of_eq hsame
  | _ => exact .of_eq rfl

/-! ## Registered for good -/

theorem Registers.get? (h : Registers w w' l made) (hc : (w.loader l).classes.get? name = some c) :
    (w'.loader l).classes.get? name = some c := by
  cases h with
  | nothing he => rw [he]; exact hc
  | defined hnew he => rw [he]; exact Registry.get?_insert_of_some hnew hc
  | answered d _ _ he => rw [he]; exact Registry.get?_insertNew_of_some hc

theorem Moves.get? (h : Moves w made w') (hc : (w.loader l).classes.get? name = some c) :
    (w'.loader l).classes.get? name = some c := by
  induction h with
  | refl => exact hc
  | tail _ hm ih => exact (hm.affects l).registry.get? ih

structure Registered (w : World) (l : LoaderId) (c : ClassId) (name : String) : Prop where
  loader : l.index < w.loaders.size
  lt : c.index < w.nodes.size
  nameOf : w.nameOf c = name
  builtin : (w.loader l).builtins.get? name = none
  registered : (w.loader l).classes.get? name = some c
  only : ∀ e ∈ (w.loader l).classes, e.2 = c → e.1 = name

theorem Registered.move (h : w.Registered l c name) (hm : Move w made w') : w'.Registered l c name := by
  have hr := (hm.affects l).registry
  have hk := hm.keeps
  refine ⟨(hk.loaders l h.loader).1, Nat.lt_of_lt_of_le h.lt hk.size, by rw [hk.nameOf h.lt, h.nameOf],
    by rw [(hm.affects l).builtins h.loader]; exact h.builtin, hr.get? h.registered, fun e he hec => ?_⟩
  cases hr with
  | nothing hc => rw [hc] at he; exact h.only e he hec
  | defined _ hc =>
    rw [hc] at he
    rcases Registry.mem_insert_subset he with rfl | he
    · subst hec; exact (Nat.lt_irrefl _ h.lt).elim
    · exact h.only e he hec
  | answered d _ _ hc =>
    rw [hc] at he
    rcases Registry.mem_insertNew he with rfl | he
    · subst hec; exact h.nameOf
    · exact h.only e he hec

theorem Registered.moves (h : w.Registered l c name) (hm : Moves w made w') : w'.Registered l c name := by
  induction hm with
  | refl => exact h
  | tail _ hm ih => exact ih.move hm

theorem registered_of_define {package simpleName : String} {imports : List Import} (hl : l.index < w.loaders.size)
    (hnew : w.Unregistered c) (h : Loader.define l package simpleName imports w = (.ok c, w')) :
    w'.Registered l c (qualify package simpleName) := by
  have hloader := ((Keeps.define h).loaders l hl).1
  obtain ⟨⟨-, -, hbuiltin, -⟩, rfl, rfl⟩ := (Loader.define_makes l package simpleName imports w).ok h
  have hself := loader_withDefined_self package simpleName imports hl
  refine ⟨hloader, by rw [size_withDefined]; exact Nat.lt_succ_self _, nameOf_withDefined_self _ _ _,
    by rw [hself]; exact hbuiltin, by rw [hself]; exact Registry.get?_insert_self _ _ _, fun e he hec => ?_⟩
  rw [hself] at he
  rcases Registry.mem_insert_subset he with rfl | he
  · rfl
  · exact (hnew l e he hec).elim

/-! ## What is registered is found -/

theorem Registered.cached? (h : w.Registered l c name) : (w.loader l).cached? name = some c := by
  unfold Loader.cached?
  rw [h.builtin, h.registered]
  rfl

theorem lookupWithin_of_cached (h : (w.loader l).cached? name = some c) (depth : Nat) :
    Loader.lookupWithin (depth + 1) l name w = some (some c, w) := by
  rw [Loader.lookupWithin_eq, h]
  rfl

theorem lookup_run (w : World) (l : LoaderId) (name : String) :
    Loader.lookup l name w = (Loader.lookupWithin (w.loader l).depth l name w).getD (none, w) := rfl

theorem load_run (w : World) (l : LoaderId) (name : String) :
    Loader.load l name w = (match (Loader.lookup l name w).1 with
      | some c => pure c
      | none => do Step.log (.notFound name); Loader.placeholder l name : Step ClassId)
      (Loader.lookup l name w).2 := rfl

theorem lookup_of_cached (h : (w.loader l).cached? name = some c) : Loader.lookup l name w = (some c, w) := by
  rw [lookup_run, show (w.loader l).depth = (w.loader l).depth - 1 + 1 from rfl, lookupWithin_of_cached h]
  rfl

theorem load_of_cached (h : (w.loader l).cached? name = some c) : Loader.load l name w = (c, w) := by
  rw [load_run, lookup_of_cached h]
  rfl

theorem resolve_of_cached {r : RefId} {context : ClassId} (h : (w.loader l).cached? name = some c)
    (hr : w.reference r = ⟨.qualified name context, none⟩) (hcontext : w.isAlive (.node context) = true)
    (hk : w.collaborator? context = some (.loader l)) : (r.resolve w).1 = c := by
  have hlookup : Says (Loader.lookup l name) w (some c) := fun log =>
    ⟨log, lookup_of_cached (w := { w with log := log }) h⟩
  have hfind : Says (RefId.findQualified name context) w c := by
    refine .bind (.see fun _ => hcontext) ?_
    rw [if_pos rfl]
    exact .bind (.see fun _ => hk) (.bind (.log _) (.bind hlookup (.pure c)))
  obtain ⟨log, hrun⟩ := hfind w.log
  rw [resolve_run, hr]
  show (RefId.findQualified name context w).1 = c
  rw [show RefId.findQualified name context w = _ from hrun]

theorem define_of_registered {package simpleName : String} (h : w.Registered l c (qualify package simpleName))
    (hp : IsPackageName package) (hs : IsIdentifier simpleName) (imports : List Import) :
    Loader.define l package simpleName imports w = (.error (.alreadyDefined (qualify package simpleName)), w) := by
  have hrefusal : (w.loader l).refusal? package simpleName = some (.alreadyDefined (qualify package simpleName)) := by
    simp [Loader.refusal?, checkPackageName_ok.mpr hp, checkIdentifier_ok.mpr hs, h.builtin, h.registered]
  rw [Loader.define_run, hrefusal]

end

/-- A definition is permanent. Whatever is done after it, a class that has been defined is the answer to
every lookup of its name, those of sources in the middle of a lookup among them, every reference to the
name resolves to it, it is listed once, and the name cannot be defined again. That the class is not
registered before it is there only excludes sources that make identities up. -/
theorem define_lasts {w₀ w₁ w : World} {made made' : List (LoaderId × ClassId)} (hw : Reached w₀ made)
    {l : LoaderId} (hl : l.index < w₀.loaders.size) {package simpleName : String} {imports : List Import} {n : ClassId}
    (hnew : w₀.Unregistered n) (hdefine : Loader.define l package simpleName imports w₀ = (.ok n, w₁))
    (hm : Moves w₁ made' w) {name : String} (hname : qualify package simpleName = name) :
    w.nameOf n = name ∧ (w.loader l).classes.get? name = some n ∧
      (∀ depth, Loader.lookupWithin (depth + 1) l name w = some (some n, w)) ∧
      Loader.lookup l name w = (some n, w) ∧ Loader.load l name w = (n, w) ∧
      (∀ r c, w.reference r = ⟨.qualified name c, none⟩ → w.isAlive (.node c) = true →
        (w.node c).lookup = some (.loader l) → w.isAlive (.loader l) = true → (r.resolve w).1 = n) ∧
      (w.loader l).classes.values.count n = 1 ∧
      (∀ imports', Loader.define l package simpleName imports' w = (.error (.alreadyDefined name), w)) ∧
      ∀ package' simpleName' imports', qualify package' simpleName' = name →
        ∃ e, Loader.define l package' simpleName' imports' w = (.error e, w) := by
  obtain ⟨⟨hpackage, hsimple, -, -⟩, -, -⟩ := (Loader.define_makes l package simpleName imports w₀).ok hdefine
  have h : w.Registered l n (qualify package simpleName) := (registered_of_define hl hnew hdefine).moves hm
  have hreached : Reached w (made ++ [(l, n)] ++ made') := (hw.tail (.define hl hnew hdefine)).trans hm
  have hsorted := (hreached.sound.loaders l).sorted
  rw [hname] at h
  refine ⟨h.nameOf, h.registered, lookupWithin_of_cached h.cached?, lookup_of_cached h.cached?,
    load_of_cached h.cached?, fun r c hr hc hlookup halive => ?_, ?_, fun imports' => ?_,
    fun package' simpleName' imports' hname' => ?_⟩
  · refine resolve_of_cached h.cached? hr hc ?_
    unfold collaborator?
    rw [hlookup, Option.filter_some, if_pos (show w.isAlive (Collaborator.loader l).object = true from halive)]
  · exact Registry.count_values hsorted (Registry.mem_of_get? h.registered) h.only
  · subst hname
    exact define_of_registered h hpackage hsimple imports'
  · refine (Loader.define_makes l package' simpleName' imports' w).refused ?_
    rintro ⟨-, -, -, hnone⟩
    rw [hname', h.registered] at hnone
    cases hnone

/-! A loader with a source that answers with a builtin class, and one that answers with a stand-in. -/

def sourced : World :=
  (Loader.make .standard
    [(SourceRule.redirect [("x.Y", "int")]).source, (SourceRule.load [("x.Z", "q.M")]).source] .empty).2

theorem reached_sourced : Reached sourced [] :=
  (Move.make (run_of_ok (a := (⟨0⟩ : LoaderId)) (by decide +kernel))).moves

def sourcedDefined : World := (Loader.define ⟨0⟩ "p" "A" [] sourced).2

def sourcedAsked (w : World) : World := (Loader.lookup ⟨0⟩ "x.Z" (Loader.lookup ⟨0⟩ "x.Y" w).2).2

theorem moves_sourcedAsked (w : World) : ∃ made, Moves w made (sourcedAsked w) := by
  have hfirst := Builds.loaderLookup ⟨0⟩ "x.Y" w
  have hsecond := Builds.loaderLookup ⟨0⟩ "x.Z" (Loader.lookup ⟨0⟩ "x.Y" w).2
  exact (trans_of Builds hfirst hsecond).moves

theorem sourced_define_lasts : (Loader.define ⟨0⟩ "p" "A" [] sourced).1 = .ok ⟨10⟩ ∧
    (∃ made, Moves sourcedDefined made (sourcedAsked sourcedDefined)) ∧
    Loader.lookup ⟨0⟩ "p.A" (sourcedAsked sourcedDefined) = (some ⟨10⟩, sourcedAsked sourcedDefined) ∧
    ((sourcedAsked sourcedDefined).loader ⟨0⟩).classes.values.count ⟨10⟩ = 1 ∧
    Loader.define ⟨0⟩ "p" "A" [] (sourcedAsked sourcedDefined) =
      (.error (.alreadyDefined "p.A"), sourcedAsked sourcedDefined) := by
  have hok : (Loader.define ⟨0⟩ "p" "A" [] sourced).1 = .ok ⟨10⟩ := by decide +kernel
  have hnew : ∀ i < sourced.loaders.size, ∀ e ∈ (sourced.loader ⟨i⟩).classes, e.2 ≠ ⟨10⟩ := by decide +kernel
  have hname : qualify "p" "A" = "p.A" := by decide +kernel
  obtain ⟨made, hm⟩ := moves_sourcedAsked sourcedDefined
  obtain ⟨-, -, -, hlookup, -, -, hcount, hdefine, -⟩ := define_lasts reached_sourced (by decide +kernel)
    (unregistered_iff.mpr hnew) (run_of_ok hok) hm hname
  exact ⟨hok, ⟨made, hm⟩, hlookup, hcount, hdefine []⟩

/-! ## What the registry lists -/

def Present (w : World) : Prop := ∀ l, ∀ e ∈ (w.loader l).classes, e.2.index < w.nodes.size

structure Answers (w w' : World) (l : LoaderId) (c : ClassId) : Prop where
  sources : (w.loader l).sources ≠ []
  free : (w.loader l).classes.get? (w.nameOf c) = none
  move : w' = w.editLoader l fun x => { x with classes := x.classes.insertNew (w.nameOf c) c }

/-- A world that has been reached with sources that have only answered with classes that were there, and
that `answers` allows where they have been registered for it. -/
inductive Arisen (answers : LoaderId → ClassId → Prop) : World → List (LoaderId × ClassId) → Prop
  | empty : Arisen answers .empty []
  | move {w w' made made'} : Arisen answers w made → Move w made' w' → (∀ l c, Answers w w' l c → answers l c) →
      w'.Present → Arisen answers w' (made ++ made')

section
variable {answers : LoaderId → ClassId → Prop} {w w' : World} {made made' : List (LoaderId × ClassId)} {l : LoaderId}
  {c : ClassId}

theorem lt_of_mem_classes {e : String × ClassId} (h : e ∈ (w.loader l).classes) : l.index < w.loaders.size := by
  by_contra hl
  rw [show w.loader l = default from Store.get_of_size_le _ (Nat.not_lt.mp hl)] at h
  cases h

theorem lt_of_mem_builtins {e : String × ClassId} (h : e ∈ (w.loader l).builtins) : l.index < w.loaders.size := by
  by_contra hl
  rw [show w.loader l = default from Store.get_of_size_le _ (Nat.not_lt.mp hl)] at h
  cases h

theorem Arisen.reached (h : Arisen answers w made) : Reached w made := by
  induction h with
  | empty => exact .refl _
  | move _ hm _ _ ih => exact ih.tail hm

theorem Arisen.present (h : Arisen answers w made) : w.Present := by
  cases h with
  | empty => intro l e he; cases he
  | move _ _ _ hp => exact hp

theorem not_answers (h : ∀ l, (w.loader l).sources = []) (l : LoaderId) (c : ClassId) : ¬ Answers w w' l c :=
  fun ha => ha.sources (h l)

theorem present_iff : w.Present ↔ ∀ i < w.loaders.size, ∀ e ∈ (w.loader ⟨i⟩).classes, e.2.index < w.nodes.size :=
  ⟨fun h i _ => h ⟨i⟩, fun h l e he => h l.index (lt_of_mem_classes he) e he⟩

theorem Present.unregistered (h : w.Present) : w.Unregistered w.nextClass := by
  intro l e he hec
  have := h l e he
  rw [hec] at this
  exact Nat.lt_irrefl _ this

structure Listed (answers : LoaderId → ClassId → Prop) (w : World) (made : List (LoaderId × ClassId)) (l : LoaderId)
    (e : String × ClassId) : Prop where
  name : e.1 = w.nameOf e.2
  origin : (l, e.2) ∈ made ∨ (w.loader l).sources ≠ [] ∧ answers l e.2

theorem Listed.move {e : String × ClassId} (h : Listed answers w made l e) (hl : l.index < w.loaders.size)
    (he : e.2.index < w.nodes.size) (hm : Move w made' w') : Listed answers w' (made ++ made') l e := by
  have hk := hm.keeps
  refine ⟨by rw [hk.nameOf he, h.name], ?_⟩
  rw [(hk.loaders l hl).2.2]
  exact h.origin.imp_left (List.mem_append_left _)

theorem Move.listed (hm : Move w made' w') (hp : w.Present) (hanswers : ∀ l c, Answers w w' l c → answers l c)
    (h : ∀ l, ∀ e ∈ (w.loader l).classes, Listed answers w made l e) (l : LoaderId) :
    ∀ e ∈ (w'.loader l).classes, Listed answers w' (made ++ made') l e := by
  intro e he
  have hold (he : e ∈ (w.loader l).classes) : Listed answers w' (made ++ made') l e :=
    (h l e he).move (lt_of_mem_classes he) (hp l e he) hm
  cases (hm.affects l).registry with
  | nothing hc => rw [hc] at he; exact hold he
  | defined _ hc _ hname hmade =>
    rw [hc] at he
    rcases Registry.mem_insert_subset he with rfl | he
    · refine ⟨hname.symm, .inl ?_⟩
      rw [hmade hp.unregistered]
      exact List.mem_append_right _ (List.mem_singleton_self _)
    · exact hold he
  | answered d hs hmove hc =>
    rw [hc] at he
    by_cases hfree : (w.loader l).classes.get? (w.nameOf d) = none
    · rcases Registry.mem_insertNew he with rfl | he
      · refine ⟨by rw [hmove]; rfl, .inr ⟨?_, hanswers l d ⟨hs, hfree, hmove⟩⟩⟩
        rw [(hm.keeps.loaders l (Loader.lt_of_sources hs)).2.2]
        exact hs
      · exact hold he
    · rw [Registry.insertNew, if_pos (Option.isSome_iff_ne_none.mpr hfree)] at he
      exact hold he

theorem Arisen.listed (h : Arisen answers w made) : ∀ l, ∀ e ∈ (w.loader l).classes, Listed answers w made l e := by
  induction h with
  | empty => intro l e he; cases he
  | move h hm hanswers _ ih => exact hm.listed h.present hanswers ih

theorem Move.mem_made (hm : Move w made w') {p : LoaderId × ClassId} (hp : p ∈ made) : p.2 = w.nextClass := by
  cases hm with
  | define _ _ h =>
    obtain ⟨-, rfl, -⟩ := (Loader.define_makes _ _ _ _ w).ok h
    cases List.mem_singleton.mp hp
    rfl
  | _ => cases hp

theorem Reached.standIns (h : Reached w made) (l : LoaderId) : ∀ e ∈ (w.loader l).placeholders,
    e.2.index < w.nodes.size ∧ ∀ p ∈ made, p.2 ≠ e.2 := by
  induction h with
  | refl => intro e he; cases he
  | @tail _ _ made made' h hm ih =>
    intro e he
    have hk := hm.keeps
    rcases (hm.affects l).standIns e he with he | ⟨rfl, hnext, hlt⟩
    · obtain ⟨hlt, hapart⟩ := ih e he
      refine ⟨Nat.lt_of_lt_of_le hlt hk.size, fun p hp => ?_⟩
      rcases List.mem_append.mp hp with hp | hp
      · exact hapart p hp
      · rw [hm.mem_made hp]
        rintro hpe
        rw [← hpe] at hlt
        exact Nat.lt_irrefl _ hlt
    · rw [hnext]
      refine ⟨hlt, fun p hp => ?_⟩
      rw [List.append_nil] at hp
      rintro hpe
      have hlt := ((show Reached _ _ from h).sound.made p hp).lt
      rw [hpe] at hlt
      exact Nat.lt_irrefl _ hlt

end

/-- The classes of a loader are listed in ascending order of their names, and every name is answered
with its class unless it is that of a builtin. What is listed has been defined in the loader or been the
answer of a source; and what has been defined is no builtin and no stand-in, and the answer to its name. -/
theorem classes_of_arisen {answers : LoaderId → ClassId → Prop} {w : World} {made : List (LoaderId × ClassId)}
    (h : Arisen answers w made) (l : LoaderId) :
    ((w.loader l).classes.values.map w.nameOf).Pairwise (· < ·) ∧
      (∀ c ∈ (w.loader l).classes.values,
        Loader.lookup l (w.nameOf c) w = (some (((w.loader l).builtins.get? (w.nameOf c)).getD c), w)) ∧
      (∀ c ∈ (w.loader l).classes.values, (l, c) ∈ made ∨ (w.loader l).sources ≠ [] ∧ answers l c) ∧
      ∀ c ∈ (w.loader l).classes.values, (l, c) ∈ made →
        c ∉ (w.loader l).builtins.values ∧ c ∉ (w.loader l).placeholders.values ∧
          Loader.lookup l (w.nameOf c) w = (some c, w) := by
  have hlisted := h.listed l
  have hsound := h.reached.sound
  have hsorted := (hsound.loaders l).sorted
  have hcached (c) (hc : c ∈ (w.loader l).classes.values) :
      (w.loader l).classes.get? (w.nameOf c) = some c := by
    obtain ⟨name, he⟩ := Registry.mem_values.mp hc
    rw [← show name = w.nameOf c from (hlisted _ he).name]
    exact Registry.get?_of_mem hsorted he
  refine ⟨Registry.pairwise_values hsorted fun e he => (hlisted e he).name, fun c hc => ?_, fun c hc => ?_,
    fun c hc hmade => ?_⟩
  · refine lookup_of_cached ?_
    unfold Loader.cached?
    rw [hcached c hc]
    cases (w.loader l).builtins.get? (w.nameOf c) <;> rfl
  · obtain ⟨name, he⟩ := Registry.mem_values.mp hc
    exact (hlisted _ he).origin
  · have hdefined := hsound.made _ hmade
    have hprovides := (hsound.loaders l).provides hdefined.loader
    refine ⟨fun hb => ?_, fun hp => ?_, lookup_of_cached ?_⟩
    · obtain ⟨name', hb⟩ := Registry.mem_values.mp hb
      obtain ⟨-, kind, hkind, hnode⟩ := hprovides.node _ hb
      refine Loader.ne_declared_of_mem_builtinKinds hkind ?_
      rw [← hdefined.kind, hnode]
      rfl
    · obtain ⟨name', hp⟩ := Registry.mem_values.mp hp
      exact (h.reached.standIns l _ hp).2 _ hmade rfl
    · unfold Loader.cached?
      rw [hcached c hc]
      cases hb : (w.loader l).builtins.get? (w.nameOf c) with
      | none => rfl
      | some b =>
        obtain ⟨-, kind, hkind, -⟩ := hprovides.node _ (Registry.mem_of_get? hb)
        exact (hdefined.notBuiltin (Loader.isBuiltinName_iff.mpr ⟨kind, hkind⟩)).elim

def defined : World := (Loader.define ⟨0⟩ "p" "A" [] single).2

theorem unsourced_single (l : LoaderId) : (single.loader l).sources = [] := by
  have hall : ∀ i < single.loaders.size, (single.loader ⟨i⟩).sources.isEmpty = true := by decide +kernel
  by_cases hl : l.index < single.loaders.size
  · exact List.isEmpty_iff.mp (hall l.index hl)
  · rw [show single.loader l = default from Store.get_of_size_le _ (Nat.not_lt.mp hl)]
    rfl

theorem arisen_defined : Arisen (fun _ _ => False) defined [(⟨0⟩, ⟨10⟩)] := by
  have hmake : Move .empty [] single := .make (run_of_ok (a := (⟨0⟩ : LoaderId)) (by decide +kernel))
  have hsingle : ∀ i < single.loaders.size, ∀ e ∈ (single.loader ⟨i⟩).classes, e.2 ≠ ⟨10⟩ := by decide +kernel
  have hdefine : Move single [(⟨0⟩, ⟨10⟩)] defined :=
    .define (by decide +kernel) (unregistered_iff.mpr hsingle) (run_of_ok (by decide +kernel))
  have harisen : Arisen (fun _ _ => False) single [] :=
    Arisen.empty.move hmake (not_answers fun _ => rfl) (present_iff.mpr (by decide +kernel))
  exact harisen.move hdefine (not_answers unsourced_single) (present_iff.mpr (by decide +kernel))

theorem defined_classes : Arisen (fun _ _ => False) defined [(⟨0⟩, ⟨10⟩)] ∧
    (defined.loader ⟨0⟩).classes.values = [⟨10⟩] ∧
    Loader.lookup ⟨0⟩ (defined.nameOf ⟨10⟩) defined = (some ⟨10⟩, defined) := by
  have hvalues : (defined.loader ⟨0⟩).classes.values = [⟨10⟩] := by decide +kernel
  have hlisted : (⟨10⟩ : ClassId) ∈ (defined.loader ⟨0⟩).classes.values := by
    rw [hvalues]
    exact List.mem_singleton_self _
  obtain ⟨-, -, horigin, hproper⟩ := classes_of_arisen arisen_defined ⟨0⟩
  obtain hmade | ⟨-, hnone⟩ := horigin ⟨10⟩ hlisted
  · obtain ⟨-, -, hlookup⟩ := hproper ⟨10⟩ hlisted hmade
    exact ⟨arisen_defined, hvalues, hlookup⟩
  · exact hnone.elim

/-- With sources the registry may list a builtin class and a stand-in. -/
theorem sourced_lists_builtin : (∃ made, Reached (sourcedAsked sourced) made) ∧
    (∃ c ∈ ((sourcedAsked sourced).loader ⟨0⟩).classes.values,
      c ∈ ((sourcedAsked sourced).loader ⟨0⟩).builtins.values) ∧
    ∃ c ∈ ((sourcedAsked sourced).loader ⟨0⟩).classes.values,
      c ∈ ((sourcedAsked sourced).loader ⟨0⟩).placeholders.values := by
  obtain ⟨made, hm⟩ := moves_sourcedAsked sourced
  exact ⟨⟨_, reached_sourced.trans hm⟩, by decide +kernel, by decide +kernel⟩

end World

end ClassModel
