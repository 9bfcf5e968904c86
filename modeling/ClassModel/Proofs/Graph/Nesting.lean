import ClassModel.Proofs.Graph.OnDemand
import Mathlib.Data.Finset.Card

/-!
# Lookups that come to an end

What a source does about a name may take further lookups, and these may ask the same sources again. A name is not
asked for while it is being asked for, so lookups do not nest deeper than there are names to look up. They come
to an end, and nothing of them is left behind.
-/

namespace ClassModel

open Change Name Relation World

def World.unloaded (w : World) (l : LoaderId) (names : Finset String) : Finset String :=
  names.filter (· ∉ (w.loader l).loading)

namespace World

variable {l : LoaderId} {w w' : World} {names : Finset String} {name : String}

theorem unloaded_congr (h : (w'.loader l).loading = (w.loader l).loading) :
    w'.unloaded l names = w.unloaded l names := by
  unfold unloaded
  rw [h]

theorem unloaded_entered_lt (hl : l.index < w.loaders.size) (hname : name ∈ names)
    (hn : name ∉ (w.loader l).loading) :
    ((w.entered l name).unloaded l names).card < (w.unloaded l names).card := by
  have hself : ((w.entered l name).loader l).loading = name :: (w.loader l).loading := by rw [loader_entered hl]
  refine Finset.card_lt_card ((Finset.ssubset_iff_of_subset fun n hmem => ?_).mpr ⟨name, ?_, ?_⟩)
  · obtain ⟨hmem, hnot⟩ := Finset.mem_filter.mp hmem
    rw [hself] at hnot
    exact Finset.mem_filter.mpr ⟨hmem, fun h => hnot (List.mem_cons_of_mem _ h)⟩
  · exact Finset.mem_filter.mpr ⟨hname, hn⟩
  · intro hmem
    have hnot := (Finset.mem_filter.mp hmem).2
    rw [hself] at hnot
    exact hnot (List.mem_cons_self ..)

end World

namespace Moment

/-- From here on, the names that sources look up are among `names`. -/
def Confined (l : LoaderId) (names : Finset String) (m : Moment) : Prop :=
  ∀ m', Course l m m' → ∀ name, m'.control = .seeks name → m'.waiting ≠ [] → name ∈ names

section
variable {l : LoaderId} {u v w : World} {m m' : Moment} {names : Finset String} {name : String}

theorem Confined.later (h : m.Confined l names) (hm : Course l m m') : m'.Confined l names :=
  fun m'' hm'' => h m'' (hm.trans hm'')

theorem Confined.mono {more : Finset String} (h : m.Confined l names) (hmore : names ⊆ more) : m.Confined l more :=
  fun m' hm' name hseeks hwaiting => hmore (h m' hm' name hseeks hwaiting)

/-! ## Lookups end -/

/-- A lookup of one of the names ends, however deep it is nested, if no more than `depth` of them can still be
asked for. -/
def Finds (l : LoaderId) (names : Finset String) (depth : Nat) : Prop :=
  ∀ name ∈ names, ∀ w waiting h, l.index < w.loaders.size → Confined l names ⟨w, .seeks name, waiting, h⟩ →
    (w.unloaded l names).card < depth → (Loader.lookupWithin depth l name w).isSome

def Halts (l : LoaderId) (names : Finset String) (depth : Nat) (p : Program) (w : World) : Prop :=
  ∀ a waiting h, l.index < w.loaders.size → Confined l names ⟨w, .runs a p, waiting, h⟩ →
    (w.unloaded l names).card < depth → (Loader.run l (Loader.lookupWithin depth l) p w).isSome

variable {depth : Nat}

theorem firstHit_isSome (hfinds : Finds l names depth) (a : Asking) (missed : Option Log.Event)
    (resume : Option ClassId → Program) (waiting : List Waiting) (asked : List String) :
    ∀ w h, l.index < w.loaders.size →
      Confined l names ⟨w, .hands none, ⟨a, asked, missed, resume⟩ :: waiting, h⟩ →
      (w.unloaded l names).card < depth → (firstHit (Loader.lookupWithin depth l) asked w).isSome := by
  induction asked with
  | nil => exact fun _ _ _ _ _ => rfl
  | cons name asked ih =>
    intro w h hlt hconfined hdepth
    have hsought := hconfined.later (.single .tries)
    have hname : name ∈ names := hsought _ .refl name rfl (List.cons_ne_nil _ _)
    obtain ⟨⟨found, v⟩, hfound⟩ := Option.isSome_iff_exists.mp (hfinds name hname w _ h hlt hsought hdepth)
    show (Loader.lookupWithin depth l name w >>= _ : Option _).isSome
    rw [hfound]
    cases found with
    | some c => rfl
    | none =>
      have hupkeep := Bounded.Upkeeps.lookupWithin depth name w none v hlt hfound
      obtain ⟨h', hcourse⟩ := lookupWithin_bridges l depth name w none v hfound _ h
      refine ih v _ (hupkeep.keeps.loaders l hlt).1 (hsought.later hcourse) ?_
      rw [unloaded_congr hupkeep.loading]
      exact hdepth

theorem Halts.goes {p p' : Program} {own : Option (String × ClassId)} {w' : World}
    (hnext : p.next l w = .goes own p' w') (h : Halts l names depth p' w') : Halts l names depth p w := by
  intro a waiting happened hlt hconfined hdepth
  have hadds := p.next_adds hlt hnext
  obtain ⟨standIns, hloader⟩ := hadds.loader
  rw [Loader.run_of_goes hnext]
  refine h _ waiting happened (hadds.keeps.loaders l hlt).1 (hconfined.later (.single (.goes hnext))) ?_
  rw [unloaded_congr (w := w) (by rw [hloader])]
  exact hdepth

theorem Halts.looks (hfinds : Finds l names depth) {p : Program} {asked : List String} {missed : Option Log.Event}
    {resume : Option ClassId → Program} (hnext : p.next l w = .looks asked missed resume)
    (h : ∀ r w, Halts l names depth (resume r) w) : Halts l names depth p w := by
  intro a waiting happened hlt hconfined hdepth
  have hwaits := hconfined.later (.single (.looks hnext))
  obtain ⟨⟨r, v⟩, hhit⟩ :=
    Option.isSome_iff_exists.mp (firstHit_isSome hfinds a missed resume waiting asked w happened hlt hwaits hdepth)
  have hupkeep :=
    (Bounded.Upkeeps.compositional l).firstHit (Bounded.Upkeeps.lookupWithin depth) asked w r v hlt hhit
  obtain ⟨h', hcourse⟩ := firstHit_course (lookupWithin_bridges l depth) a missed resume waiting asked w happened hhit
  have hmissing : (v.missing missed r).loader l = v.loader l := by cases r <;> rfl
  rw [Loader.run_of_looks hnext, hhit]
  refine h r _ a waiting h' ?_ (hwaits.later hcourse) ?_
  · exact ((Still.missing v l missed r).keeps.loaders l (hupkeep.keeps.loaders l hlt).1).1
  · rw [unloaded_congr (w := w) (by rw [hmissing, hupkeep.loading])]
    exact hdepth

theorem run_halts (hfinds : Finds l names depth) (p : Program) : ∀ w, Halts l names depth p w := by
  induction p with
  | answer found => exact fun _ _ _ _ _ _ _ => rfl
  | define package simpleName imports next ih => exact fun w => .goes rfl (ih _ _)
  | create package simpleName collaborator settings next ih => exact fun w => .goes rfl (ih _ _)
  | edit e next ih => exact fun w => .goes rfl (ih _ _)
  | placeholder name next ih => exact fun w => .goes rfl (ih _ _)
  | classes next ih => exact fun w => .goes rfl (ih _ _)
  | inspect c next ih => exact fun w => .goes rfl (ih _ _)
  | lookup name next ih => exact fun w => .looks hfinds rfl ih
  | lookupDefault name next ih =>
    intro w
    cases hb : (w.loader l).builtins.get? name with
    | some c => exact .goes (Program.next_lookupDefault_of_builtin hb) (ih _ _)
    | none => exact .looks hfinds (Program.next_lookupDefault hb) ih
  | load name next ih =>
    refine fun w => .looks hfinds rfl fun r w => ?_
    cases r with
    | some c => exact ih c w
    | none => exact .goes rfl (ih _ _)

/-- The source that is asked comes to an answer, with as many names left to ask for as before. -/
theorem exists_answer (hfinds : Finds l names depth) (a : Asking) (s : Source) (waiting : List Waiting)
    (happened : List Happening) (hlt : l.index < w.loaders.size)
    (hconfined : (asks l w a s waiting happened).Confined l names) (hdepth : (w.unloaded l names).card < depth) :
    ∃ r v own h', Loader.askSources l (Loader.lookupWithin depth l) a.name a.number (s :: a.rest) w =
        Loader.orAsk l (Loader.lookupWithin depth l) a.name a.number a.rest r v ∧
      Course l (asks l w a s waiting happened) ⟨v, .runs { a with own := own } (.answer r), waiting, h'⟩ ∧
      l.index < v.loaders.size ∧ (v.unloaded l names).card < depth := by
  have hnoted := loader_noted hlt a.number a.name
  have hlt' : l.index < (w.noted l a.number a.name).loaders.size :=
    ((Still.noted hlt a.number a.name).keeps.loaders l hlt).1
  have hdepth' : ((w.noted l a.number a.name).unloaded l names).card < depth := by
    rw [unloaded_congr (w := w) (by rw [hnoted])]
    exact hdepth
  obtain ⟨⟨r, v⟩, hrun⟩ := Option.isSome_iff_exists.mp
    (run_halts hfinds (s.program (w.loader l).asked a.name) _ a waiting _ hlt' hconfined hdepth')
  have hupkeep := (Bounded.Upkeeps.compositional l).run (Bounded.Upkeeps.lookupWithin depth) _ _ r v hlt' hrun
  obtain ⟨own, h', hcourse⟩ := run_course (lookupWithin_bridges l depth) _ _ r v hrun a waiting
    (.asked a.number a.name :: happened)
  refine ⟨r, v, own, h', ?_, hcourse, (hupkeep.keeps.loaders l hlt').1, ?_⟩
  · rw [Loader.askSources_cons]
    show (Loader.run l _ _ (w.noted l a.number a.name)).bind _ = _
    rw [hrun]
    rfl
  · rw [unloaded_congr hupkeep.loading]
    exact hdepth'

theorem askSources_isSome (hfinds : Finds l names depth) (name : String) (since : List Happening)
    (waiting : List Waiting) (rest : List Source) : ∀ i s w h, l.index < w.loaders.size →
      Confined l names (asks l w ⟨name, i, rest, [], since⟩ s waiting h) → (w.unloaded l names).card < depth →
      (Loader.askSources l (Loader.lookupWithin depth l) name i (s :: rest) w).isSome := by
  induction rest with
  | nil =>
    intro i s w h hlt hconfined hdepth
    obtain ⟨r, v, -, -, hask, -⟩ := exists_answer hfinds ⟨name, i, [], [], since⟩ s waiting h hlt hconfined hdepth
    rw [hask]
    cases r <;> rfl
  | cons s' rest ih =>
    intro i s w h hlt hconfined hdepth
    obtain ⟨r, v, own, h', hask, hcourse, hlt', hdepth'⟩ :=
      exists_answer hfinds ⟨name, i, s' :: rest, [], since⟩ s waiting h hlt hconfined hdepth
    rw [hask]
    cases r with
    | some c => rfl
    | none =>
      exact ih (i + 1) s' v _ hlt' (hconfined.later (hcourse.tail (.passes rfl rfl))) hdepth'

theorem lookupWithin_finds (l : LoaderId) (names : Finset String) (depth : Nat) : Finds l names depth := by
  induction depth with
  | zero => exact fun _ _ _ _ _ _ _ hdepth => (Nat.not_lt_zero _ hdepth).elim
  | succ depth ih =>
    intro name hname w waiting h hlt hconfined hdepth
    refine lookupWithin_isSome fun s rest hcached hs hn => ?_
    -- one name less is left to ask for
    have hless := unloaded_entered_lt hlt hname hn
    exact askSources_isSome ih name h waiting rest 0 s _ h ((Keeps.entered w l name).loaders l hlt).1
      (hconfined.later (.single (.enters hcached hs hn))) (by omega)

/-! ## How deep they nest -/

theorem Course.sought_mem (hconfined : (start u name).Confined l names) (h : Course l (start u name) m) {n : String}
    (hseeks : m.control = .seeks n) : n ∈ insert name names := by
  rcases ReflTransGen.cases_tail h with rfl | ⟨m₁, -, hs⟩
  · cases hseeks
    exact Finset.mem_insert_self _ _
  · refine Finset.mem_insert_of_mem (hconfined m h n hseeks ?_)
    cases hs with
    | tries => exact List.cons_ne_nil _ _
    | _ => cases hseeks

theorem Course.asking_mem (hconfined : (start u name).Confined l names) (h : Course l (start u name) m) :
    ∀ a ∈ m.asking, a.name ∈ insert name names := by
  induction h with
  | refl => nofun
  | tail hcourse hs ih =>
    cases hs with
    | known | unsourced | reentered | looks | tries | resumes => exact ih
    | enters => exact List.forall_mem_cons.mpr ⟨Course.sought_mem hconfined hcourse rfl, ih⟩
    | goes | passes => exact List.forall_mem_cons.mpr (List.forall_mem_cons.mp ih)
    | fails | loads => exact (List.forall_mem_cons.mp ih).2

theorem Course.length_asking_le (hu : l.index < u.loaders.size) (hconfined : (start u name).Confined l names)
    (h : Course l (start u name) m) : m.asking.length ≤ names.card + 1 := by
  have hsubset : (m.asking.map (·.name)).toFinset ⊆ insert name names := fun n hn => by
    obtain ⟨a, ha, rfl⟩ := List.mem_map.mp (List.mem_toFinset.mp hn)
    exact Course.asking_mem hconfined h a ha
  calc m.asking.length
      = (m.asking.map (·.name)).toFinset.card := by
        rw [List.toFinset_card_of_nodup (Course.underway hu h).nodup, List.length_map]
    _ ≤ (insert name names).card := Finset.card_le_card hsubset
    _ ≤ names.card + 1 := Finset.card_insert_le _ _

structure Shallow (l : LoaderId) (u : World) (names : Finset String) (m : Moment) : Prop where
  /-- The names in progress are those that sources are being asked for, the innermost first. -/
  loading : (m.world.loader l).loading = m.asking.map (·.name) ++ (u.loader l).loading
  depth : ∀ a p, m.control = .runs a p → m.waiting.length ≤ names.card
  /-- A lookup that is nested any deeper has its answer at once. -/
  returns : ∀ n, m.control = .seeks n → names.card < m.waiting.length →
    ∃ found v, Step l m ⟨v, .hands found, m.waiting, .returned n found :: m.happened⟩

theorem Course.shallow (hu : l.index < u.loaders.size) (hconfined : (start u name).Confined l names)
    (h : Course l (start u name) m) : m.Shallow l u names := by
  refine ⟨(Course.underway hu h).loading, fun a p hruns => ?_, fun n hseeks hdeep => ?_⟩
  · have hlength := Course.length_asking_le hu hconfined h
    unfold asking at hlength
    rw [hruns] at hlength
    simpa using hlength
  · obtain ⟨w, control, waiting, happened⟩ := m
    cases hseeks
    rcases exists_step l ⟨w, .seeks n, waiting, happened⟩ with ⟨m', hs⟩ | ⟨found, hcontrol, -⟩
    · cases hs with
      | known hcached => exact ⟨_, _, .known hcached⟩
      | unsourced hcached hsources => exact ⟨_, _, .unsourced hcached hsources⟩
      | reentered hcached hsources hn => exact ⟨_, _, .reentered hcached hsources hn⟩
      | enters hcached hsources hn =>
        -- there would be more names in progress than there are
        have hlength := Course.length_asking_le hu hconfined (h.tail (.enters hcached hsources hn))
        have hasking : (waiting.map (·.asking)).length + 1 ≤ names.card + 1 := hlength
        rw [List.length_map] at hasking
        exact absurd hdeep (by simpa using hasking)
    · cases hcontrol

end

/-! ## Sources that look up no other names -/

end Moment

/-- Whatever the program is told, it looks up none but these names. A bare name is looked up in the packages, and
as it stands. -/
def Program.Confined (packages : List String) (names : Finset String) : Program → Prop
  | .answer _ => True
  | .define _ _ _ next => ∀ r, (next r).Confined packages names
  | .create _ _ _ _ next => ∀ r, (next r).Confined packages names
  | .edit _ next => ∀ r, (next r).Confined packages names
  | .lookup name next => name ∈ names ∧ ∀ r, (next r).Confined packages names
  | .lookupDefault name next =>
    (∀ n ∈ packages.map (qualify · name) ++ [name], n ∈ names) ∧ ∀ r, (next r).Confined packages names
  | .load name next => name ∈ names ∧ ∀ c, (next c).Confined packages names
  | .placeholder _ next => ∀ c, (next c).Confined packages names
  | .classes next => ∀ cs, (next cs).Confined packages names
  | .inspect _ next => ∀ n, (next n).Confined packages names

def Source.Confined (packages : List String) (names : Finset String) (s : Source) : Prop :=
  ∀ asked name, (s.program asked name).Confined packages names

namespace SourceRule

variable {packages : List String} {names : Finset String} {c : ClassId} {next : Program}

theorem confined_answer (found : Option ClassId) : (Program.answer found).Confined packages names := trivial

theorem confined_andThen (e : Edit) {next : Made → Program} (h : ∀ made, (next made).Confined packages names) :
    (andThen e next).Confined packages names := by
  intro r
  cases r with
  | ok made => exact h made
  | error e => trivial

theorem confined_editAll (h : next.Confined packages names) (es : List ClassEdit) :
    (editAll c next es).Confined packages names := by
  induction es with
  | nil => exact h
  | cons e es ih => exact confined_andThen _ fun _ => ih

theorem confined_addFields (h : next.Confined packages names) (fields : List String) :
    (addFields c next fields).Confined packages names := by
  induction fields with
  | nil => exact h
  | cons name fields ih =>
    refine confined_andThen _ fun made => ?_
    cases made with
    | field f => exact confined_andThen _ fun _ => ih
    | _ => exact ih

theorem confined_defineNamed (name : String) (imports : List Import) {next : ClassId → Program}
    (h : ∀ c, (next c).Confined packages names) : (defineNamed name imports next).Confined packages names := by
  intro r
  cases r with
  | ok c => exact h c
  | error e => trivial

theorem mem_of_get? {table : List (String × String)} {name other : String} (h : get? table name = some other) :
    other ∈ table.map (·.2) := by
  obtain ⟨e, he, rfl⟩ := Option.map_eq_some_iff.mp h
  exact List.mem_map_of_mem (List.mem_of_find?_eq_some he)

/-- A rule looks up what it says. -/
theorem confined (r : SourceRule) (packages : List String) (hasks : ∀ n ∈ r.asks, n ∈ names) :
    r.source.Confined packages names := by
  intro _ name
  show (r.program name).Confined packages names
  cases r with
  | table classes =>
    simp only [program, declare]
    cases get? classes name with
    | none => trivial
    | some d =>
      dsimp only
      cases Import.parseAll d.imports with
      | error e => trivial
      | ok imports =>
        refine confined_defineNamed name imports fun c => confined_editAll (confined_addFields ?_ _) _
        exact confined_editAll (confined_answer _) _
  | package p isInterface =>
    simp only [program]
    by_cases hp : packageOf name = p
    · rw [if_pos hp]
      exact confined_defineNamed name [] fun c => confined_editAll (confined_answer _) _
    · rw [if_neg hp]
      trivial
  | redirect table =>
    simp only [program]
    cases hother : get? table name with
    | none => trivial
    | some other => exact ⟨hasks other (mem_of_get? hother), fun _ => trivial⟩
  | touch table =>
    simp only [program]
    cases hother : get? table name with
    | none => trivial
    | some other =>
      have hmem := hasks other (mem_of_get? hother)
      exact ⟨hmem, fun _ => ⟨hmem, fun _ => trivial⟩⟩
  | load table =>
    simp only [program]
    cases hother : get? table name with
    | none => trivial
    | some other => exact ⟨hasks other (mem_of_get? hother), fun _ => trivial⟩
  | detached table =>
    simp only [program]
    cases get? table name with
    | none => trivial
    | some other =>
      intro r
      cases r <;> trivial

end SourceRule

namespace Program.Confined

variable {l : LoaderId} {w w' : World} {p p' : Program} {packages : List String} {names : Finset String}

theorem goes {own : Option (String × ClassId)} (h : p.Confined packages names) (hnext : p.next l w = .goes own p' w') :
    p'.Confined packages names := by
  cases p with
  | define | create | edit | placeholder | classes | inspect => cases hnext; exact h _
  | lookupDefault name next =>
    simp only [Program.next] at hnext
    split at hnext
    · cases hnext; exact h.2 _
    · cases hnext
  | answer | lookup | load => cases hnext

theorem looks {asked : List String} {missed : Option Log.Event} {resume : Option ClassId → Program}
    (h : p.Confined (w.loader l).settings.defaultPackages names) (hnext : p.next l w = .looks asked missed resume) :
    (∀ n ∈ asked, n ∈ names) ∧ ∀ r, (resume r).Confined (w.loader l).settings.defaultPackages names := by
  cases p with
  | lookup name next => cases hnext; exact ⟨List.forall_mem_singleton.mpr h.1, h.2⟩
  | lookupDefault name next =>
    simp only [Program.next] at hnext
    split at hnext
    · cases hnext
    · cases hnext; exact h
  | load name next =>
    cases hnext
    refine ⟨List.forall_mem_singleton.mpr h.1, fun r => ?_⟩
    cases r with
    | some c => exact h.2 c
    | none => exact h.2
  | answer | define | create | edit | placeholder | classes | inspect => cases hnext

end Program.Confined

namespace Moment

section
variable {l : LoaderId} {u w : World} {names : Finset String} {name : String}

/-- Where no source ever looks up any other names, none does so while a name is being looked up. -/
theorem confined_of_sources (hu : l.index < u.loaders.size)
    (hsources : ∀ s ∈ (u.loader l).sources, s.Confined (u.loader l).settings.defaultPackages names) :
    (start u name).Confined l names := by
  let packages := (u.loader l).settings.defaultPackages
  have hlasting : Lasting l u (fun _ p => p.Confined packages names) (· ∈ names) := by
    refine ⟨fun s hs a asked _ => hsources s hs asked a.name, fun h hnext => h.goes hnext, fun hkeeps h hnext => ?_⟩
    have hpackages : packages = _ := congrArg Settings.defaultPackages (hkeeps.loaders l hu).2.1.symm
    rw [hpackages] at h ⊢
    exact h.looks hnext
  exact fun m hm n hseeks hwaiting => (Course.abiding hu hlasting hm).seeks n hseeks hwaiting

theorem confined_of_rules (hu : l.index < u.loaders.size)
    (hrules : ∀ s ∈ (u.loader l).sources, ∃ r : SourceRule, s = r.source) :
    (start u name).Confined l ((u.loader l).sources.flatMap (·.asks)).toFinset := by
  refine confined_of_sources hu fun s hs => ?_
  obtain ⟨r, rfl⟩ := hrules s hs
  exact r.confined _ fun n hn => List.mem_toFinset.mpr (List.mem_flatMap.mpr ⟨_, hs, hn⟩)

/-! ## Whole lookups -/

/-- If the names that sources look up while a name is being looked up are among finitely many, then the lookup
comes to an end, whatever has been loaded and is being loaded. At any time sources are asked no more lookups deep
than there are names, and what is in progress is what is being asked for. In the end the same names are in progress
as in the beginning, whatever the answer is, and none if the lookup is not part of another. -/
theorem nested_lookups_end (hl : l.index < w.loaders.size) (hconfined : (start w name).Confined l names) :
    (∃ found v, (∀ depth, names.card + 2 ≤ depth → Loader.lookupWithin depth l name w = some (found, v)) ∧
      (names.card ≤ ((w.loader l).sources.flatMap (·.asks)).length → Loader.lookup l name w = (found, v)) ∧
      (∃ happened, Course l (start w name) ⟨v, .hands found, [], .returned name found :: happened⟩) ∧
      (v.loader l).loading = (w.loader l).loading ∧ (Run .empty w → (v.loader l).loading = [])) ∧
    ∀ m, Course l (start w name) m → m.Shallow l w names := by
  have hcard : (w.unloaded l (insert name names)).card < names.card + 2 :=
    calc (w.unloaded l (insert name names)).card
        ≤ (insert name names).card := Finset.card_filter_le _ _
      _ ≤ names.card + 1 := Finset.card_insert_le _ _
      _ < names.card + 2 := Nat.lt_succ_self _
  obtain ⟨⟨found, v⟩, hfound⟩ := Option.isSome_iff_exists.mp <|
    lookupWithin_finds l (insert name names) (names.card + 2) name (Finset.mem_insert_self _ _) w [] [] hl
      (hconfined.mono (Finset.subset_insert _ _)) hcard
  have hdeeper (depth : Nat) (hdepth : names.card + 2 ≤ depth) : Loader.lookupWithin depth l name w = some (found, v) :=
    Bounded.deepens_of_le l hdepth name w _ hfound
  have hloading := (Bounded.Upkeeps.lookupWithin _ name w found v hl hfound).loading
  refine ⟨⟨found, v, hdeeper, fun hasks => ?_, lookupWithin_course hfound, hloading, fun hrun => ?_⟩,
    fun m hm => Course.shallow hl hconfined hm⟩
  · rw [lookup_run, hdeeper (w.loader l).depth (Nat.add_le_add_right hasks 2)]
    rfl
  · rw [hloading, hrun.retains.loading]
    rfl

end

/-! Two names that stand for each other. -/

def ringRule : SourceRule := .redirect [("p.A", "p.B"), ("p.B", "p.A")]

def ring : World := (Loader.make .standard [ringRule.source] .empty).2

theorem make_ring : Loader.make .standard [ringRule.source] .empty = (.ok ⟨0⟩, ring) := run_of_ok (by decide +kernel)

theorem sources_ring : (ring.loader ⟨0⟩).sources = [ringRule.source] := by
  obtain ⟨-, hl, hw⟩ := (Loader.make_makes _ _ .empty).ok make_ring
  rw [hw, hl, (withLoader_spec .empty .standard _).self]

/-- The first name is asked for, then the second, and then the first is given up. -/
theorem ring_lookup_ends : 0 < ring.loaders.size ∧ (start ring "p.A").Confined ⟨0⟩ {"p.A", "p.B"} ∧
    ∃ v, Loader.lookup ⟨0⟩ "p.A" ring = (none, v) ∧ (v.loader ⟨0⟩).asked = [(0, "p.B"), (0, "p.A")] ∧
      (v.loader ⟨0⟩).loading = [] := by
  have hl : 0 < ring.loaders.size := by decide +kernel
  have hconfined : (start ring "p.A").Confined ⟨0⟩ {"p.A", "p.B"} := by
    refine (confined_of_rules hl fun s hs => ?_).mono ?_
    · rw [sources_ring] at hs
      exact ⟨ringRule, List.mem_singleton.mp hs⟩
    · rw [sources_ring]
      decide
  obtain ⟨⟨found, v, -, hlookup, -, -, hloading⟩, -⟩ := nested_lookups_end hl hconfined
  have hfound : Loader.lookup ⟨0⟩ "p.A" ring = (found, v) := hlookup (by rw [sources_ring]; decide)
  have hmissed : (Loader.lookup ⟨0⟩ "p.A" ring).1 = none := by decide +kernel
  have hasked : ((Loader.lookup ⟨0⟩ "p.A" ring).2.loader ⟨0⟩).asked = [(0, "p.B"), (0, "p.A")] := by decide +kernel
  rw [hfound] at hmissed hasked
  obtain rfl : found = none := hmissed
  exact ⟨hl, hconfined, v, hfound, hasked, hloading (.single (.makeLoader ..))⟩

end Moment

end ClassModel
