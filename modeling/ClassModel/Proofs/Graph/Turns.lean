import ClassModel.Proofs.Graph.Loading

/-!
# Sources in turn

A loader asks its sources one after the other, and while it does it asks nobody else for the same name.
Where every source defines no more than the class that it is asked for, and answers with it, a name that has
been answered is never asked for again.
-/

namespace ClassModel

open Change Name Relation World

namespace World

structure Adds (l : LoaderId) (own : Option (String × ClassId)) (u v : World) : Prop where
  keeps : u.Keeps v
  loader : ∃ standIns, v.loader l = { u.loader l with
    classes := own.elim (u.loader l).classes fun e => (u.loader l).classes.insert e.1 e.2
    placeholders := standIns }
  others : ∀ l' ≠ l, v.loader l' = u.loader l'
  new : ∀ e ∈ own, (u.loader l).cached? e.1 = none ∧ e.2.index < v.nodes.size ∧ v.nameOf e.2 = e.1

structure Still (l : LoaderId) (u v : World) : Prop where
  keeps : u.Keeps v
  cached? : ∀ name, (v.loader l).cached? name = (u.loader l).cached? name

section
variable {l : LoaderId} {u v z : World} {own : Option (String × ClassId)} {name : String} {c : ClassId}

theorem Adds.of_eq (hk : u.Keeps v) (h : v.loaders = u.loaders) : Adds l none u v := by
  have hsame (l' : LoaderId) : v.loader l' = u.loader l' := by unfold World.loader; rw [h]
  exact ⟨hk, ⟨(u.loader l).placeholders, by rw [hsame]; rfl⟩, fun l' _ => hsame l', fun _ he => by cases he⟩

theorem Adds.cached?_of_ne (h : Adds l own u v) (hn : ∀ e ∈ own, e.1 ≠ name) :
    (v.loader l).cached? name = (u.loader l).cached? name := by
  obtain ⟨standIns, hv⟩ := h.loader
  rw [hv]
  cases own with
  | none => rfl
  | some e =>
    show ((u.loader l).builtins.get? name).or (((u.loader l).classes.insert e.1 e.2).get? name) = _
    rw [Registry.get?_insert_of_ne e.2 (hn e rfl).symm]
    rfl

theorem Adds.cached?_self (h : Adds l (some (name, c)) u v) : (v.loader l).cached? name = some c := by
  obtain ⟨standIns, hv⟩ := h.loader
  obtain ⟨hnone, -, -⟩ := h.new (name, c) rfl
  rw [hv]
  show ((u.loader l).builtins.get? name).or (((u.loader l).classes.insert name c).get? name) = _
  rw [(Option.or_eq_none_iff.mp hnone).1, Registry.get?_insert_self]
  rfl

theorem Adds.cached?_of_some (h : Adds l own u v) (hc : (u.loader l).cached? name = some c) :
    (v.loader l).cached? name = some c := by
  rw [h.cached?_of_ne fun e he hn => ?_, hc]
  rw [← hn, (h.new e he).1] at hc
  cases hc

theorem Still.refl (l : LoaderId) (u : World) : Still l u u := ⟨.refl u, fun _ => rfl⟩

theorem Still.trans (h : Still l u v) (h' : Still l v z) : Still l u z :=
  ⟨h.keeps.trans h'.keeps, fun name => (h'.cached? name).trans (h.cached? name)⟩

theorem Still.log (u : World) (l : LoaderId) (log : List Log.Event) : Still l u { u with log := log } :=
  ⟨.aside (Nat.le_refl _) log, fun _ => rfl⟩

theorem Still.editLoader (hu : l.index < u.loaders.size) {f : Loader → Loader}
    (hf : ∀ x, (f x).settings = x.settings ∧ (f x).sources = x.sources)
    (h : ∀ name, (f (u.loader l)).cached? name = (u.loader l).cached? name) : Still l u (u.editLoader l f) :=
  ⟨.editLoader hf, fun name => by rw [loader_editLoader_self hu, h name]⟩

theorem Still.entered (hu : l.index < u.loaders.size) (name : String) : Still l u (u.entered l name) :=
  .editLoader hu (fun _ => ⟨rfl, rfl⟩) fun _ => rfl

theorem Still.left (hu : l.index < u.loaders.size) (name : String) : Still l u (u.left l name) :=
  .editLoader hu (fun _ => ⟨rfl, rfl⟩) fun _ => rfl

theorem Still.noted (hu : l.index < u.loaders.size) (i : Nat) (name : String) : Still l u (u.noted l i name) :=
  .editLoader hu (fun _ => ⟨rfl, rfl⟩) fun _ => rfl

theorem loader_noted (hu : l.index < u.loaders.size) (i : Nat) (name : String) :
    (u.noted l i name).loader l = { u.loader l with asked := (i, name) :: (u.loader l).asked } :=
  loader_editLoader_self hu _

theorem loader_took (hu : l.index < u.loaders.size) (name : String) (c : ClassId) :
    (u.took l name c).loader l = { u.loader l with
      classes := (u.loader l).classes.insertNew (u.nameOf c) c } :=
  loader_editLoader_self (w := { u with log := _ }) hu _

theorem Keeps.took (u : World) (l : LoaderId) (name : String) (c : ClassId) : u.Keeps (u.took l name c) :=
  (Keeps.aside (Nat.le_refl _) _).trans (.editLoader fun _ => ⟨rfl, rfl⟩)

/-- A class is registered under its own name, which is taken. -/
theorem Still.took (hu : l.index < u.loaders.size) (h : ((u.loader l).cached? (u.nameOf c)).isSome) :
    Still l u (u.took l name c) := by
  refine ⟨.took u l name c, fun n => ?_⟩
  rw [loader_took hu]
  show ((u.loader l).builtins.get? n).or (((u.loader l).classes.insertNew (u.nameOf c) c).get? n) = _
  unfold Registry.insertNew
  split
  · rfl
  · rename_i hclass
    by_cases hn : n = u.nameOf c
    · unfold Loader.cached? at h ⊢
      rw [Option.not_isSome_iff_eq_none.mp hclass, Option.or_none] at h
      obtain ⟨d, hd⟩ := Option.isSome_iff_exists.mp h
      rw [hn, hd]
      rfl
    · rw [Registry.get?_insert_of_ne c hn]
      rfl

theorem Still.missing (u : World) (l : LoaderId) (missed : Option Log.Event) (found : Option ClassId) :
    Still l u (u.missing missed found) := by
  cases found with
  | some c => exact .refl l u
  | none => exact .log u l _

end

end World

/-! ## What a program adds -/

theorem Program.next_adds {l : LoaderId} {w w' : World} (hl : l.index < w.loaders.size) {p p' : Program}
    {own : Option (String × ClassId)} (h : p.next l w = .goes own p' w') : w.Adds l own w' := by
  cases p with
  | answer found => cases h
  | define package simpleName imports next =>
    have hrun := Loader.define_run l package simpleName imports w
    have hmakes := Loader.define_makes l package simpleName imports w
    cases hr : (w.loader l).refusal? package simpleName with
    | some e =>
      -- a source that defines a class it may not define goes on in the world it had
      rw [hr] at hrun
      simp only [Program.next, ExceptT.run, hrun, Next.goes.injEq] at h
      obtain ⟨rfl, -, rfl⟩ := h
      exact .of_eq (.refl w) rfl
    | none =>
      rw [hr] at hrun
      simp only [Program.next, ExceptT.run, hrun, Next.goes.injEq] at h
      obtain ⟨rfl, -, rfl⟩ := h
      obtain ⟨-, -, hbuiltin, hclass⟩ := Loader.refusal?_eq_none.mp hr
      refine ⟨.define hrun, ⟨_, loader_withDefined_self package simpleName imports hl⟩,
        fun _ hne => loader_withDefined_of_ne package simpleName imports hne, fun e he => ?_⟩
      cases he
      refine ⟨Option.or_eq_none_iff.mpr ⟨hbuiltin, hclass⟩, ?_, nameOf_withDefined_self _ _ _⟩
      rw [size_withDefined]
      exact Nat.lt_succ_self _
  | create package simpleName collaborator settings next =>
    cases h
    exact (createClass_makes package simpleName collaborator settings w).keeps (.of_eq (.refl w) rfl) fun _ =>
      .of_eq (.withNode w _) rfl
  | edit e next =>
    cases h
    exact .of_eq (Builds.edit e w).keeps (e.spares w).loaders
  | lookup name next => cases h
  | lookupDefault name next =>
    simp only [Program.next] at h
    split at h
    · cases h; exact .of_eq (.refl w) rfl
    · cases h
  | load name next => cases h
  | placeholder name next =>
    cases h
    have hkeeps := Keeps.standIn w l name
    rw [placeholder_run] at hkeeps ⊢
    cases hn : (w.loader l).placeholders.get? name with
    | some c => exact .of_eq (.refl w) rfl
    | none =>
      rw [hn] at hkeeps
      exact ⟨hkeeps, ⟨_, loader_editLoader_self (w := w.withNode _) hl _⟩,
        fun _ hne => loader_editLoader_of_ne (w.withNode _) hne _, fun _ he => by cases he⟩
  | classes next => cases h; exact .of_eq (.refl w) rfl
  | inspect c next => cases h; exact .of_eq (.refl w) rfl

/-! ## Lookups in progress -/

namespace Happening

def concerns (name : String) : Happening → Bool
  | asked _ n => n = name
  | answered _ n _ => n = name
  | returned _ _ => false

@[simp]
theorem concerns_asked (i : Nat) (n name : String) : (asked i n).concerns name = decide (n = name) := rfl

@[simp]
theorem concerns_answered (i : Nat) (n name : String) (found : Option ClassId) :
    (answered i n found).concerns name = decide (n = name) := rfl

def request? : Happening → Option (Nat × String)
  | asked i name => some (i, name)
  | _ => none

/-- All sources up to number `i` have been asked for the name one after the other, the latest first. None
but the last may have answered yet with a class. -/
def turns (name : String) : Nat → List Happening
  | 0 => [asked 0 name]
  | i + 1 => asked (i + 1) name :: answered i name none :: turns name i

end Happening

/-- Since the lookup began the sources have been asked for its name in turn, up to the one that is being
asked. -/
structure Asking.InTurn (sources : List Source) (happened : List Happening) (a : Asking) : Prop where
  number : a.number < sources.length
  rest : a.rest = sources.drop (a.number + 1)
  turns : ∃ newer, happened = newer ++ a.since ∧ newer.filter (·.concerns a.name) = Happening.turns a.name a.number

theorem Asking.InTurn.later {sources : List Source} {happened : List Happening} {a : Asking}
    (h : a.InTurn sources happened) (new : List Happening) (hnew : ∀ e ∈ new, e.concerns a.name = false) :
    a.InTurn sources (new ++ happened) := by
  obtain ⟨newer, rfl, hfilter⟩ := h.turns
  have hnone : new.filter (·.concerns a.name) = [] := List.filter_eq_nil_iff.mpr fun e he => by simp [hnew e he]
  exact ⟨h.number, h.rest, new ++ newer, (List.append_assoc ..).symm, by rw [List.filter_append, hnone, hfilter]; rfl⟩

theorem Asking.InTurn.first {sources : List Source} {s : Source} {rest : List Source} (h : sources = s :: rest)
    (name : String) (happened : List Happening) :
    Asking.InTurn sources (.asked 0 name :: happened) ⟨name, 0, rest, [], happened⟩ := by
  subst h
  exact ⟨Nat.succ_pos _, rfl, [.asked 0 name], rfl, by simp [Happening.turns]⟩

/-- After a source that has no class for the name it is the turn of the source behind it. -/
theorem Asking.InTurn.next {sources : List Source} {happened : List Happening} {a : Asking}
    (h : a.InTurn sources happened) {s : Source} {rest : List Source} (hrest : a.rest = s :: rest) :
    Asking.InTurn sources (.asked (a.number + 1) a.name :: .answered a.number a.name none :: happened)
      ⟨a.name, a.number + 1, rest, [], a.since⟩ := by
  obtain ⟨-, hdrop, newer, hnewer, hturns⟩ := h
  have hnext : sources.drop (a.number + 1) = s :: rest := hdrop.symm.trans hrest
  refine ⟨?_, ?_, .asked (a.number + 1) a.name :: .answered a.number a.name none :: newer, ?_, ?_⟩
  · refine Nat.lt_of_not_le fun hle => ?_
    rw [List.drop_eq_nil_of_le hle] at hnext
    cases hnext
  · show rest = sources.drop (a.number + 1 + 1)
    rw [← List.drop_drop, hnext]
    rfl
  · rw [hnewer]
    rfl
  · simp [hturns, Happening.turns]

theorem Asking.name_ne {a a' : Asking} {as : List Asking} (h : ((a :: as).map (·.name)).Nodup) (ha : a' ∈ as) :
    a.name ≠ a'.name := fun he => (List.nodup_cons.mp h).1 (List.mem_map.mpr ⟨a', ha, he.symm⟩)

namespace Moment

def asking (m : Moment) : List Asking :=
  match m.control with
  | .runs a _ => a :: m.waiting.map (·.asking)
  | _ => m.waiting.map (·.asking)

structure Underway (l : LoaderId) (u : World) (m : Moment) : Prop where
  lt : l.index < m.world.loaders.size
  keeps : u.Keeps m.world
  loading : (m.world.loader l).loading = m.asking.map (·.name) ++ (u.loader l).loading
  nodup : (m.asking.map (·.name)).Nodup
  asked : (m.world.loader l).asked = m.happened.filterMap (·.request?) ++ (u.loader l).asked
  inTurn : ∀ a ∈ m.asking, a.InTurn (u.loader l).sources m.happened

section
variable {l : LoaderId} {u w v : World} {m m' : Moment}

theorem Underway.sources (h : Underway l u m) (hu : l.index < u.loaders.size) :
    (m.world.loader l).sources = (u.loader l).sources := (h.keeps.loaders l hu).2.2

theorem underway_start (hu : l.index < u.loaders.size) (name : String) : Underway l u (start u name) :=
  ⟨hu, .refl u, rfl, List.nodup_nil, rfl, nofun⟩

theorem Underway.aside {control : Control} {waiting : List Waiting} (h : Underway l u m) (new : List Happening)
    (hw : m.world.Keeps w) (hloading : (w.loader l).loading = (m.world.loader l).loading)
    (hasked : (w.loader l).asked = (m.world.loader l).asked)
    (hnew : ∀ e ∈ new, ∃ name found, e = .returned name found)
    (hnames : (Moment.asking ⟨w, control, waiting, new ++ m.happened⟩).map (·.name) = m.asking.map (·.name))
    (hasking : ∀ a ∈ Moment.asking ⟨w, control, waiting, new ++ m.happened⟩,
      a.InTurn (u.loader l).sources m.happened) : Underway l u ⟨w, control, waiting, new ++ m.happened⟩ := by
  have hlt := (hw.loaders l h.lt).1
  refine ⟨hlt, h.keeps.trans hw, ?_, by rw [hnames]; exact h.nodup, ?_, fun a ha => ?_⟩
  · rw [hnames, hloading, h.loading]
  · show (w.loader l).asked = (new ++ m.happened).filterMap (·.request?) ++ _
    have hnone : new.filterMap (·.request?) = [] := List.filterMap_eq_nil_iff.mpr fun e he => by
      obtain ⟨name, found, rfl⟩ := hnew e he
      rfl
    rw [hasked, h.asked, List.filterMap_append, hnone]
    rfl
  · refine (hasking a ha).later new fun e he => ?_
    obtain ⟨name, found, rfl⟩ := hnew e he
    rfl

theorem Underway.asks {a : Asking} {s : Source} {waiting : List Waiting} {before happened : List Happening}
    (hlt : l.index < w.loaders.size) (hkeeps : u.Keeps w)
    (hloading : (w.loader l).loading = (a :: waiting.map (·.asking)).map (·.name) ++ (u.loader l).loading)
    (hnodup : ((a :: waiting.map (·.asking)).map (·.name)).Nodup)
    (hasked : (w.loader l).asked = happened.filterMap (·.request?) ++ (u.loader l).asked)
    (hself : a.InTurn (u.loader l).sources (.asked a.number a.name :: happened))
    (hothers : ∀ a' ∈ waiting.map (·.asking), a'.InTurn (u.loader l).sources before)
    (hbefore : happened = before ∨ ∃ i found, happened = .answered i a.name found :: before) :
    Underway l u (Moment.asks l w a s waiting happened) := by
  have hnoted := (Still.noted hlt a.number a.name).keeps
  refine ⟨(hnoted.loaders l hlt).1, hkeeps.trans hnoted, ?_, hnodup, ?_, fun a' ha' => ?_⟩
  · show ((w.noted l a.number a.name).loader l).loading = _
    rw [loader_noted hlt]
    exact hloading
  · show ((w.noted l a.number a.name).loader l).asked = _
    rw [loader_noted hlt, hasked]
    rfl
  · rcases List.mem_cons.mp ha' with rfl | ha'
    · exact hself
    · have hne : a.name ≠ a'.name := Asking.name_ne hnodup ha'
      have hfirst : (Happening.asked a.number a.name).concerns a'.name = false := by
        simpa using hne
      show a'.InTurn _ (.asked a.number a.name :: happened)
      rcases hbefore with rfl | ⟨i, found, rfl⟩
      · exact (hothers a' ha').later [_] fun e he => by rw [List.mem_singleton.mp he]; exact hfirst
      · refine (hothers a' ha').later [_, .answered i a.name found] fun e he => ?_
        rcases List.mem_cons.mp he with rfl | he
        · exact hfirst
        · rw [List.mem_singleton.mp he]
          simpa using hne

theorem Underway.leaves {a : Asking} {p : Program} {waiting : List Waiting} {happened : List Happening}
    (h : Underway l u ⟨w, .runs a p, waiting, happened⟩) (hw : w.Keeps v)
    (hloading : (v.loader l).loading = (w.loader l).loading.erase a.name)
    (hasked : (v.loader l).asked = (w.loader l).asked) (found : Option ClassId) :
    Underway l u ⟨v, .hands found, waiting,
      .returned a.name found :: .answered a.number a.name found :: happened⟩ := by
  have hnodup : ((a :: waiting.map (·.asking)).map (·.name)).Nodup := h.nodup
  refine ⟨(hw.loaders l h.lt).1, h.keeps.trans hw, ?_, (List.nodup_cons.mp hnodup).2, ?_, fun a' ha' => ?_⟩
  · show (v.loader l).loading = _
    rw [hloading, h.loading]
    exact List.erase_cons_head _ _
  · show (v.loader l).asked = _
    rw [hasked, h.asked]
    rfl
  · refine (h.inTurn a' (List.mem_cons_of_mem _ ha')).later [_, _] fun e he => ?_
    have hne : a.name ≠ a'.name := Asking.name_ne hnodup ha'
    rcases List.mem_cons.mp he with rfl | he
    · rfl
    · rw [List.mem_singleton.mp he]
      simpa using hne

theorem Underway.step (hu : l.index < u.loaders.size) (h : Underway l u m) (hs : Step l m m') : Underway l u m' := by
  cases hs with
  | @known w name waiting happened c hcached =>
    refine h.aside [_] (.refl w) rfl rfl ?_ rfl h.inTurn
    exact fun e he => ⟨name, some c, List.mem_singleton.mp he⟩
  | @unsourced w name waiting happened =>
    refine h.aside [_] (.refl w) rfl rfl ?_ rfl h.inTurn
    exact fun e he => ⟨name, none, List.mem_singleton.mp he⟩
  | @reentered w name waiting happened =>
    refine h.aside [_] (Still.log w l _).keeps rfl rfl ?_ rfl h.inTurn
    exact fun e he => ⟨name, none, List.mem_singleton.mp he⟩
  | @enters w name waiting happened s rest hcached hsources hn =>
    -- only an asking that is put on top changes what is being loaded; `hn` keeps the names apart
    have hself := loader_entered h.lt name
    have hkeeps := Keeps.entered w l name
    have hsources' : (u.loader l).sources = s :: rest := (h.sources hu).symm.trans hsources
    have hloading : (w.loader l).loading = (waiting.map (·.asking)).map (·.name) ++ (u.loader l).loading := h.loading
    refine Underway.asks (hkeeps.loaders l h.lt).1 (h.keeps.trans hkeeps) ?_ ?_ ?_ (.first hsources' name happened)
      h.inTurn (.inl rfl)
    · rw [hself, hloading]
      rfl
    · refine List.nodup_cons.mpr ⟨fun hmem => hn ?_, h.nodup⟩
      rw [hloading]
      exact List.mem_append_left _ hmem
    · rw [hself]
      exact h.asked
  | @goes w a p waiting happened own p' w' hnext =>
    have hadds := p.next_adds h.lt hnext
    obtain ⟨standIns, hw⟩ := hadds.loader
    refine h.aside [] hadds.keeps (by rw [hw]) (by rw [hw]) nofun rfl ?_
    intro a' ha'
    rcases List.mem_cons.mp ha' with rfl | ha'
    · obtain ⟨hnumber, hrest, hturns⟩ := h.inTurn a (List.mem_cons_self ..)
      exact ⟨hnumber, hrest, hturns⟩
    · exact h.inTurn a' (List.mem_cons_of_mem _ ha')
  | looks hnext => exact h.aside [] (.refl _) rfl rfl nofun rfl h.inTurn
  | tries => exact h.aside [] (.refl _) rfl rfl nofun rfl h.inTurn
  | @resumes w f waiting happened found =>
    have hsame : (w.missing f.missed found).loader l = w.loader l := by cases found <;> rfl
    exact h.aside [] (Still.missing w l _ _).keeps (by rw [hsame]) (by rw [hsame])
      nofun rfl h.inTurn
  | @passes w a p waiting happened s rest hnext hrest =>
    exact Underway.asks h.lt h.keeps h.loading h.nodup h.asked ((h.inTurn a (List.mem_cons_self ..)).next hrest)
      (fun a' ha' => h.inTurn a' (List.mem_cons_of_mem _ ha')) (.inr ⟨a.number, none, rfl⟩)
  | @fails w a p waiting happened hnext hrest =>
    have hself := loader_left h.lt a.name
    exact h.leaves (.left w l a.name) (by rw [hself]) (by rw [hself]) none
  | @loads w a p waiting happened c hnext =>
    have hself := loader_left h.lt a.name
    have hlt : l.index < (w.left l a.name).loaders.size := ((Keeps.left w l a.name).loaders l h.lt).1
    have htook := loader_took hlt a.name c
    exact h.leaves ((Keeps.left w l a.name).trans (.took _ l a.name c)) (by rw [htook, hself]) (by rw [htook, hself])
      (some c)

end

end Moment

/-! ## What is known stays known -/

namespace Happening

def answer? : Happening → Option (String × ClassId)
  | asked _ _ => none
  | answered _ name found => found.map (name, ·)
  | returned name found => found.map (name, ·)

def Fits (l : LoaderId) (w : World) : Happening → Prop
  | asked _ name => (w.loader l).cached? name = none
  | answered _ name found => ∀ c, found = some c → (w.loader l).cached? name = some c
  | returned name found => (w.loader l).cached? name = found

/-- After a name has been answered with a class, nobody is asked for it, and it is that class. -/
def Follows (later earlier : Happening) : Prop :=
  ∀ name c, earlier.answer? = some (name, c) →
    (∀ i, later ≠ .asked i name) ∧ ∀ found, later = .returned name found → found = some c

variable {l : LoaderId} {w : World} {e e' : Happening}

theorem Fits.answer? (h : e.Fits l w) {name : String} {c : ClassId} (he : e.answer? = some (name, c)) :
    (w.loader l).cached? name = some c := by
  cases e with
  | asked i n => cases he
  | answered i n found =>
    obtain ⟨d, rfl, heq⟩ := Option.map_eq_some_iff.mp he
    cases heq
    exact h c rfl
  | returned n found =>
    obtain ⟨d, rfl, heq⟩ := Option.map_eq_some_iff.mp he
    cases heq
    exact h

theorem Fits.unasked (h : e.Fits l w) {name : String} {c : ClassId} (hc : (w.loader l).cached? name = some c) :
    (∀ i, e ≠ .asked i name) ∧ ∀ found, e = .returned name found → found = some c := by
  refine ⟨fun i he => ?_, fun found he => ?_⟩
  · subst he
    rw [show (w.loader l).cached? name = none from h] at hc
    cases hc
  · subst he
    rw [show (w.loader l).cached? name = found from h] at hc
    exact hc

end Happening

structure Asking.Owns (l : LoaderId) (w : World) (a : Asking) : Prop where
  own : ∀ e ∈ a.own, e.1 = a.name ∧ (w.loader l).cached? e.1 = some e.2 ∧ e.2.index < w.nodes.size ∧
    w.nameOf e.2 = e.1
  free : a.own = [] → (w.loader l).cached? a.name = none

namespace Asking.Owns

variable {l : LoaderId} {u v : World} {a : Asking}

theorem still (h : a.Owns l u) (hs : Still l u v) : a.Owns l v := by
  refine ⟨fun e he => ?_, fun hown => (hs.cached? _).trans (h.free hown)⟩
  obtain ⟨hname, hcached, hlt, hself⟩ := h.own e he
  exact ⟨hname, (hs.cached? _).trans hcached, Nat.lt_of_lt_of_le hlt hs.keeps.size, (hs.keeps.nameOf hlt).trans hself⟩

theorem adds_own {own : Option (String × ClassId)} (h : a.Owns l u) (hs : Adds l own u v) :
    ∀ e ∈ a.own, e.1 = a.name ∧ (v.loader l).cached? e.1 = some e.2 ∧ e.2.index < v.nodes.size ∧
      v.nameOf e.2 = e.1 := fun e he => by
  obtain ⟨hname, hcached, hlt, hself⟩ := h.own e he
  exact ⟨hname, hs.cached?_of_some hcached, Nat.lt_of_lt_of_le hlt hs.keeps.size,
    (hs.keeps.nameOf hlt).trans hself⟩

theorem adds {own : Option (String × ClassId)} (h : a.Owns l u) (hs : Adds l own u v)
    (hne : ∀ e ∈ own, e.1 ≠ a.name) : a.Owns l v :=
  ⟨h.adds_own hs, fun hown => (hs.cached?_of_ne hne).trans (h.free hown)⟩

theorem adds_self {own : Option (String × ClassId)} (h : a.Owns l u) (hs : Adds l own u v)
    (hname : ∀ e ∈ own.toList ++ a.own, e.1 = a.name) :
    Asking.Owns l v { a with own := own.toList ++ a.own } := by
  refine ⟨fun e he => ?_, fun hown => ?_⟩
  · rcases List.mem_append.mp he with hnew | hold
    · obtain rfl := Option.mem_toList.mp hnew
      obtain ⟨-, hlt, hself⟩ := hs.new e rfl
      exact ⟨hname e he, hs.cached?_self, hlt, hself⟩
    · exact h.adds_own hs e hold
  · obtain ⟨hnone, hown⟩ := List.append_eq_nil_iff.mp hown
    have hnone : own = none := by simpa using hnone
    subst hnone
    exact (hs.cached?_of_ne fun _ he => by cases he).trans (h.free hown)

end Asking.Owns

namespace Moment

/-- A source that is being asked defines nothing but the class that it is asked for, and answers with what it
has defined. -/
structure Proper (m : Moment) : Prop where
  own : ∀ a p, m.control = .runs a p → ∀ e ∈ a.own, e.1 = a.name
  answer : ∀ a found, m.control = .runs a (.answer found) → a.own.map (·.2) = found.toList

section
variable {l : LoaderId} {u w v : World} {m m' : Moment}

structure Stays (l : LoaderId) (m m' : Moment) : Prop where
  still : Still l m.world m'.world
  asking : ∀ a ∈ m'.asking, a ∈ m.asking ∨ a.own = [] ∧ (m.world.loader l).cached? a.name = none
  fits : ∃ new, m'.happened = new ++ m.happened ∧ ∀ e ∈ new, e.Fits l m.world

structure GoesOn (l : LoaderId) (own : Option (String × ClassId)) (m m' : Moment) : Prop where
  adds : Adds l own m.world m'.world
  control : ∃ a p p', m.control = .runs a p ∧ m'.control = .runs { a with own := own.toList ++ a.own } p'
  waiting : m'.waiting = m.waiting
  happened : m'.happened = m.happened

theorem forall_mem_pair {e e' : Happening} {p : Happening → Prop} (h : p e) (h' : p e') : ∀ x ∈ [e, e'], p x :=
  List.forall_mem_cons.mpr ⟨h, List.forall_mem_singleton.mpr h'⟩

/-- What the source that is being asked has defined is what it answers with. -/
theorem Proper.known {a : Asking} {found : Option ClassId} (hp : m.Proper) (ha : m.control = .runs a (.answer found))
    (h : a.Owns l w) : (w.loader l).cached? a.name = found ∧ ∀ c, found = some c → w.nameOf c = a.name := by
  have hanswer := hp.answer a found ha
  cases found with
  | none => exact ⟨h.free (List.map_eq_nil_iff.mp hanswer), fun c hc => by cases hc⟩
  | some c =>
    obtain ⟨e, hown, rfl⟩ := List.map_eq_singleton_iff.mp hanswer
    obtain ⟨hname, hcached, -, hself⟩ := h.own e (by rw [hown]; exact List.mem_singleton_self e)
    rw [← hname]
    exact ⟨hcached, fun d hd => by cases hd; exact hself⟩

theorem Step.stays_or_goesOn (hs : Step l m m') (hlt : l.index < m.world.loaders.size)
    (howns : ∀ a ∈ m.asking, a.Owns l m.world) (hp : m.Proper) : Stays l m m' ∨ ∃ own, GoesOn l own m m' := by
  cases hs with
  | known hcached =>
    exact .inl ⟨.refl l _, fun _ ha => .inl ha, [_], rfl, List.forall_mem_singleton.mpr hcached⟩
  | unsourced hcached =>
    exact .inl ⟨.refl l _, fun _ ha => .inl ha, [_], rfl, List.forall_mem_singleton.mpr hcached⟩
  | reentered hcached =>
    exact .inl ⟨.log _ l _, fun _ ha => .inl ha, [_], rfl, List.forall_mem_singleton.mpr hcached⟩
  | @enters w name _ _ _ _ hcached =>
    have hentered := Still.entered hlt name
    have hnoted := Still.noted (hentered.keeps.loaders l hlt).1 0 name
    refine .inl ⟨hentered.trans hnoted, fun a ha => ?_, [_], rfl, List.forall_mem_singleton.mpr hcached⟩
    rcases List.mem_cons.mp ha with rfl | ha
    · exact .inr ⟨rfl, hcached⟩
    · exact .inl ha
  | goes hnext => exact .inr ⟨_, Program.next_adds hlt hnext, ⟨_, _, _, rfl, rfl⟩, rfl, rfl⟩
  | looks | tries => exact .inl ⟨.refl l _, fun _ ha => .inl ha, [], rfl, nofun⟩
  | resumes =>
    exact .inl ⟨.missing _ l _ _, fun _ ha => .inl ha, [], rfl, nofun⟩
  | @passes w a p waiting happened s rest hnext =>
    obtain rfl := Program.next_ends hnext
    obtain ⟨hnone, -⟩ := hp.known rfl (howns a (List.mem_cons_self ..))
    refine .inl ⟨.noted hlt _ _, fun a' ha' => ?_, [_, _], rfl, forall_mem_pair hnone fun c hc => by cases hc⟩
    rcases List.mem_cons.mp ha' with rfl | ha'
    · exact .inr ⟨rfl, hnone⟩
    · exact .inl (List.mem_cons_of_mem _ ha')
  | @fails w a p waiting happened hnext =>
    obtain rfl := Program.next_ends hnext
    obtain ⟨hnone, -⟩ := hp.known rfl (howns a (List.mem_cons_self ..))
    exact .inl ⟨.left hlt _, fun _ ha => .inl (List.mem_cons_of_mem _ ha), [_, _], rfl,
      forall_mem_pair hnone fun c hc => by cases hc⟩
  | @loads w a p waiting happened c hnext =>
    obtain rfl := Program.next_ends hnext
    obtain ⟨hcached, hself⟩ := hp.known rfl (howns a (List.mem_cons_self ..))
    have hleft := Still.left hlt a.name
    refine .inl ⟨hleft.trans (.took (hleft.keeps.loaders l hlt).1 ?_), fun _ ha => .inl (List.mem_cons_of_mem _ ha),
      [_, _], rfl, forall_mem_pair hcached fun d hd => by cases hd; exact hcached⟩
    rw [hleft.cached?]
    show ((w.loader l).cached? (w.nameOf c)).isSome
    rw [hself c rfl, hcached]
    rfl

structure Known (l : LoaderId) (m : Moment) : Prop where
  owns : ∀ a ∈ m.asking, a.Owns l m.world
  told : ∀ e ∈ m.happened, ∀ name c, e.answer? = some (name, c) → (m.world.loader l).cached? name = some c
  settled : m.happened.Pairwise Happening.Follows

theorem known_start (l : LoaderId) (u : World) (name : String) : Known l (start u name) :=
  ⟨nofun, nofun, .nil⟩

theorem Known.stays (h : Known l m) (hs : Stays l m m') : Known l m' := by
  obtain ⟨new, hnew, hfits⟩ := hs.fits
  have htold : ∀ e ∈ m'.happened, ∀ name c, e.answer? = some (name, c) →
      (m.world.loader l).cached? name = some c := by
    intro e he name c hc
    rw [hnew] at he
    rcases List.mem_append.mp he with he | he
    · exact (hfits e he).answer? hc
    · exact h.told e he name c hc
  refine ⟨fun a ha => ?_, fun e he name c hc => (hs.still.cached? name).trans (htold e he name c hc), ?_⟩
  · rcases hs.asking a ha with hold | ⟨hown, hnone⟩
    · exact (h.owns a hold).still hs.still
    · refine ⟨fun e he => ?_, fun _ => (hs.still.cached? _).trans hnone⟩
      rw [hown] at he
      cases he
  · -- What is new goes by what the loader knows, and so does all that was before it.
    have hfollows (e e' : Happening) (he : e ∈ new) (he' : e' ∈ m'.happened) : e.Follows e' :=
      fun name c hc => (hfits e he).unasked (htold e' he' name c hc)
    rw [hnew] at hfollows ⊢
    refine List.pairwise_append.mpr ⟨?_, h.settled, fun e he e' he' => hfollows e e' he (List.mem_append_right _ he')⟩
    exact List.pairwise_of_forall_mem_list fun e he e' he' => hfollows e e' he (List.mem_append_left _ he')

theorem Known.goesOn {own : Option (String × ClassId)} (h : Known l m) (hunder : Underway l u m) (hp : m'.Proper)
    (hg : GoesOn l own m m') : Known l m' := by
  obtain ⟨hadds, ⟨a, p, p', hc, hc'⟩, hwaiting, hhappened⟩ := hg
  have hold : m.asking = a :: m.waiting.map (·.asking) := by unfold asking; rw [hc]
  have hnew : m'.asking = { a with own := own.toList ++ a.own } :: m.waiting.map (·.asking) := by
    unfold asking
    rw [hc', hwaiting]
  have hown := hp.own _ _ hc'
  have hnodup := hunder.nodup
  have howns := h.owns
  rw [hold] at hnodup howns
  refine ⟨fun a' ha' => ?_, fun e he name c he' => ?_, by rw [hhappened]; exact h.settled⟩
  · rw [hnew] at ha'
    rcases List.mem_cons.mp ha' with rfl | ha'
    · exact (howns a (List.mem_cons_self ..)).adds_self hadds hown
    · refine (howns a' (List.mem_cons_of_mem _ ha')).adds hadds fun e he => ?_
      -- The class has the name of the innermost lookup.
      rw [hown e (List.mem_append_left _ (Option.mem_toList.mpr he))]
      exact Asking.name_ne hnodup ha'
  · rw [hhappened] at he
    exact hadds.cached?_of_some (h.told e he name c he')

/-- What has happened of the step goes by what the loader knows. -/
theorem Known.step (h : Known l m) (hunder : Underway l u m) (hp : m.Proper) (hp' : m'.Proper) (hs : Step l m m') :
    Known l m' ∧ (∀ name c, (m.world.loader l).cached? name = some c → (m'.world.loader l).cached? name = some c) ∧
      ∃ new, m'.happened = new ++ m.happened ∧ ∀ e ∈ new, e.Fits l m.world := by
  rcases hs.stays_or_goesOn hunder.lt h.owns hp with hstays | ⟨own, hgoes⟩
  · exact ⟨h.stays hstays, fun name c hc => (hstays.still.cached? name).trans hc, hstays.fits⟩
  · exact ⟨h.goesOn hunder hp' hgoes, fun name c hc => hgoes.adds.cached?_of_some hc, [], hgoes.happened,
      nofun⟩

/-! ## Whole lookups -/

theorem Course.underway (hu : l.index < u.loaders.size) {name : String} (h : Course l (start u name) m) :
    Underway l u m := by
  induction h with
  | refl => exact underway_start hu name
  | tail _ hs ih => exact ih.step hu hs

theorem Course.known (hu : l.index < u.loaders.size) {name : String}
    (hproper : ∀ m, Course l (start u name) m → m.Proper) (h : Course l (start u name) m) : Known l m := by
  induction h with
  | refl => exact known_start l u name
  | tail hc hs ih => exact (ih.step (Course.underway hu hc) (hproper _ hc) (hproper _ (hc.tail hs)) hs).1

/-- From where the loader knows a name, nobody is asked for it, and it is answered with the class that the
loader knows. -/
theorem Course.lasts (hu : l.index < u.loaders.size) {name : String}
    (hproper : ∀ m, Course l (start u name) m → m.Proper) (h : Course l (start u name) m) (h' : Course l m m')
    {n : String} {c : ClassId} (hc : (m.world.loader l).cached? n = some c) :
    (m'.world.loader l).cached? n = some c ∧ ∃ new, m'.happened = new ++ m.happened ∧
      ∀ e ∈ new, (∀ i, e ≠ .asked i n) ∧ ∀ found, e = .returned n found → found = some c := by
  induction h' with
  | refl => exact ⟨hc, [], rfl, nofun⟩
  | @tail m₁ m₂ hlater hs ih =>
    obtain ⟨hcached, new, hnew, hunasked⟩ := ih
    have hcourse := h.trans hlater
    obtain ⟨-, hmono, new', hnew', hfits⟩ := (Course.known hu hproper hcourse).step (Course.underway hu hcourse)
      (hproper _ hcourse) (hproper _ (hcourse.tail hs)) hs
    refine ⟨hmono n c hcached, new' ++ new, by rw [hnew', hnew, List.append_assoc], fun e he => ?_⟩
    rcases List.mem_append.mp he with he | he
    · exact (hfits e he).unasked hcached
    · exact hunasked e he

/-! ## What goes for all programs -/

/-- What holds of the programs of the sources in loader `l` to begin with holds of them as long as they run, and
`named` of all names that they look up. -/
structure Lasting (l : LoaderId) (u : World) (holds : Asking → Program → Prop) (named : String → Prop) : Prop where
  asks : ∀ s ∈ (u.loader l).sources, ∀ a asked, a.own = [] → holds a (s.program asked a.name)
  goes : ∀ {w w' a p p' own}, holds a p → p.next l w = .goes own p' w' →
    holds { a with own := own.toList ++ a.own } p'
  looks : ∀ {w a p names missed resume}, u.Keeps w → holds a p → p.next l w = .looks names missed resume →
    (∀ name ∈ names, named name) ∧ ∀ found, holds a (resume found)

structure Abiding (holds : Asking → Program → Prop) (named : String → Prop) (m : Moment) : Prop where
  runs : ∀ a p, m.control = .runs a p → holds a p
  waits : ∀ f ∈ m.waiting, (∀ name ∈ f.names, named name) ∧ ∀ found, holds f.asking (f.resume found)
  seeks : ∀ name, m.control = .seeks name → m.waiting ≠ [] → named name

section
variable {holds : Asking → Program → Prop} {named : String → Prop}

theorem Abiding.hands {found : Option ClassId} {happened : List Happening} (h : m.Abiding holds named) :
    Abiding holds named ⟨w, .hands found, m.waiting, happened⟩ :=
  ⟨nofun, h.waits, nofun⟩

theorem Abiding.runs_on {a : Asking} {p : Program} {happened : List Happening} (h : m.Abiding holds named)
    (hp : holds a p) : Abiding holds named ⟨w, .runs a p, m.waiting, happened⟩ :=
  ⟨fun a' p' ha => by cases ha; exact hp, h.waits, nofun⟩

theorem Abiding.step (hu : l.index < u.loaders.size) (hlasting : Lasting l u holds named) (hunder : Underway l u m)
    (h : m.Abiding holds named) (hs : Step l m m') : m'.Abiding holds named := by
  cases hs with
  | known | unsourced | reentered | fails | loads => exact h.hands
  | @enters w name waiting happened s rest _ hw =>
    refine h.runs_on (hlasting.asks s ?_ ⟨name, 0, rest, [], happened⟩ _ rfl)
    rw [← hunder.sources hu, hw]
    exact List.mem_cons_self ..
  | @passes w a p waiting happened s rest _ hrest =>
    refine h.runs_on (hlasting.asks s (List.mem_of_mem_drop (i := a.number + 1) ?_) _ _ rfl)
    rw [← (hunder.inTurn a (List.mem_cons_self ..)).rest, hrest]
    exact List.mem_cons_self ..
  | goes hnext => exact h.runs_on (hlasting.goes (h.runs _ _ rfl) hnext)
  | looks hnext =>
    exact ⟨nofun, List.forall_mem_cons.mpr ⟨hlasting.looks hunder.keeps (h.runs _ _ rfl) hnext, h.waits⟩, nofun⟩
  | tries =>
    obtain ⟨⟨hnames, hresume⟩, hwaits⟩ := List.forall_mem_cons.mp h.waits
    obtain ⟨hname, hnames⟩ := List.forall_mem_cons.mp hnames
    exact ⟨nofun, List.forall_mem_cons.mpr ⟨⟨hnames, hresume⟩, hwaits⟩, fun _ hn _ => by cases hn; exact hname⟩
  | @resumes w f waiting happened found =>
    obtain ⟨⟨-, hresume⟩, hwaits⟩ := List.forall_mem_cons.mp h.waits
    exact ⟨fun a p ha => by cases ha; exact hresume found, hwaits, nofun⟩

theorem Course.abiding (hu : l.index < u.loaders.size) (hlasting : Lasting l u holds named) {name : String}
    (h : Course l (start u name) m) : m.Abiding holds named := by
  induction h with
  | refl => exact ⟨nofun, nofun, fun _ _ hw => (hw rfl).elim⟩
  | tail hcourse hs ih => exact ih.step hu hlasting (Course.underway hu hcourse) hs

end

end

end Moment

end ClassModel
