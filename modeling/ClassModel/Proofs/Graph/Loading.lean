import ClassModel.Proofs.Graph.Lookups

/-!
# Loading step by step

A lookup may ask a source, and the source's program may look names up again before it ends. Here a lookup
goes one step after the other, with the programs that wait for an answer on top of each other, so that it
can be looked at while it is in progress, and also where it never comes to an end. Every lookup that ends
has gone these steps.
-/

namespace ClassModel

open Change Name Relation World

inductive Next where
  | ends (found : Option ClassId)
  /-- A step of its own, with what the program has defined by it. -/
  | goes (own : Option (String × ClassId)) (p : Program) (w : World)
  /-- It looks names up in order until one has a class. If none has, there may be something to log. -/
  | looks (names : List String) (missed : Option Log.Event) (resume : Option ClassId → Program)

def Program.next (l : LoaderId) (w : World) : Program → Next
  | .answer found => .ends found
  | .define package simpleName imports next =>
    let r := (Loader.define l package simpleName imports).run w
    .goes (r.1.toOption.map (qualify package simpleName, ·)) (next r.1) r.2
  | .create package simpleName collaborator settings next =>
    let r := (createClass package simpleName collaborator settings).run w
    .goes none (next r.1) r.2
  | .edit e next =>
    let r := e.apply.run w
    .goes none (next r.1) r.2
  | .lookup name next => .looks [name] none next
  | .lookupDefault name next =>
    match (w.loader l).builtins.get? name with
    | some c => .goes none (next (some c)) w
    | none => .looks ((w.loader l).settings.defaultPackages.map (qualify · name) ++ [name]) none next
  | .load name next =>
    .looks [name] (some (.notFound name)) fun
      | some c => next c
      | none => .placeholder name next
  | .placeholder name next =>
    let r := Loader.placeholder l name w
    .goes none (next r.1) r.2
  | .classes next => .goes none (next (w.loader l).classes.values) w
  | .inspect c next => .goes none (next (w.node c)) w

inductive Happening where
  | asked (number : Nat) (name : String)
  | answered (number : Nat) (name : String) (found : Option ClassId)
  | returned (name : String) (found : Option ClassId)
  deriving DecidableEq

/-- A lookup in which a source is being asked. -/
structure Asking where
  name : String
  /-- The number of the source. -/
  number : Nat
  /-- The sources after it. -/
  rest : List Source
  /-- What the program of the source has defined, the latest first. -/
  own : List (String × ClassId)
  /-- What had happened before the lookup. -/
  since : List Happening

/-- A source's program that waits for the answer to one of some names. -/
structure Waiting where
  asking : Asking
  /-- The names that it looks up if there is none. -/
  names : List String
  missed : Option Log.Event
  resume : Option ClassId → Program

inductive Control where
  | seeks (name : String)
  | runs (a : Asking) (p : Program)
  /-- A lookup has come to its end. -/
  | hands (found : Option ClassId)

structure Moment where
  world : World
  control : Control
  /-- The innermost first. -/
  waiting : List Waiting
  /-- The latest first. -/
  happened : List Happening

namespace World

def noted (w : World) (l : LoaderId) (i : Nat) (name : String) : World :=
  w.editLoader l fun x => { x with asked := (i, name) :: x.asked }

def took (w : World) (l : LoaderId) (name : String) (c : ClassId) : World :=
  { w with log := .loaded name (w.nameOf c) :: w.log }.editLoader l fun x =>
    { x with classes := x.classes.insertNew (w.nameOf c) c }

def missing (w : World) (missed : Option Log.Event) : Option ClassId → World
  | some _ => w
  | none => { w with log := missed.toList ++ w.log }

end World

namespace Moment

def start (w : World) (name : String) : Moment := ⟨w, .seeks name, [], []⟩

def asks (l : LoaderId) (w : World) (a : Asking) (s : Source) (waiting : List Waiting) (happened : List Happening) :
    Moment :=
  ⟨w.noted l a.number a.name, .runs a (s.program (w.loader l).asked a.name), waiting,
    .asked a.number a.name :: happened⟩

inductive Step (l : LoaderId) : Moment → Moment → Prop
  | known {w name waiting h c} : (w.loader l).cached? name = some c →
      Step l ⟨w, .seeks name, waiting, h⟩ ⟨w, .hands (some c), waiting, .returned name (some c) :: h⟩
  | unsourced {w name waiting h} : (w.loader l).cached? name = none → (w.loader l).sources = [] →
      Step l ⟨w, .seeks name, waiting, h⟩ ⟨w, .hands none, waiting, .returned name none :: h⟩
  | reentered {w name waiting h} : (w.loader l).cached? name = none → (w.loader l).sources ≠ [] →
      name ∈ (w.loader l).loading → Step l ⟨w, .seeks name, waiting, h⟩
        ⟨{ w with log := .reentered name :: w.log }, .hands none, waiting, .returned name none :: h⟩
  | enters {w name waiting h s rest} : (w.loader l).cached? name = none → (w.loader l).sources = s :: rest →
      name ∉ (w.loader l).loading →
      Step l ⟨w, .seeks name, waiting, h⟩ (asks l (w.entered l name) ⟨name, 0, rest, [], h⟩ s waiting h)
  | goes {w a p waiting h own p' w'} : p.next l w = .goes own p' w' →
      Step l ⟨w, .runs a p, waiting, h⟩ ⟨w', .runs { a with own := own.toList ++ a.own } p', waiting, h⟩
  | looks {w a p waiting h names missed resume} : p.next l w = .looks names missed resume →
      Step l ⟨w, .runs a p, waiting, h⟩ ⟨w, .hands none, ⟨a, names, missed, resume⟩ :: waiting, h⟩
  | tries {w a name names missed resume waiting h} :
      Step l ⟨w, .hands none, ⟨a, name :: names, missed, resume⟩ :: waiting, h⟩
        ⟨w, .seeks name, ⟨a, names, missed, resume⟩ :: waiting, h⟩
  | resumes {w f waiting h found} : (found = none → f.names = []) → Step l ⟨w, .hands found, f :: waiting, h⟩
      ⟨w.missing f.missed found, .runs f.asking (f.resume found), waiting, h⟩
  | passes {w a p waiting h s rest} : p.next l w = .ends none → a.rest = s :: rest →
      Step l ⟨w, .runs a p, waiting, h⟩ (asks l w ⟨a.name, a.number + 1, rest, [], a.since⟩ s waiting
        (.answered a.number a.name none :: h))
  | fails {w a p waiting h} : p.next l w = .ends none → a.rest = [] → Step l ⟨w, .runs a p, waiting, h⟩
      ⟨w.left l a.name, .hands none, waiting, .returned a.name none :: .answered a.number a.name none :: h⟩
  | loads {w a p waiting h c} : p.next l w = .ends (some c) → Step l ⟨w, .runs a p, waiting, h⟩
      ⟨(w.left l a.name).took l a.name c, .hands (some c), waiting,
        .returned a.name (some c) :: .answered a.number a.name (some c) :: h⟩

abbrev Course (l : LoaderId) : Moment → Moment → Prop := ReflTransGen (Step l)

theorem Step.unique {l : LoaderId} {m m₁ m₂ : Moment} (h₁ : Step l m m₁) (h₂ : Step l m m₂) : m₁ = m₂ := by
  cases h₁ <;> cases h₂ <;> simp_all

theorem exists_step (l : LoaderId) (m : Moment) :
    (∃ m', Step l m m') ∨ ∃ found, m.control = .hands found ∧ m.waiting = [] := by
  obtain ⟨w, control, waiting, h⟩ := m
  cases control with
  | seeks name =>
    left
    cases hcached : (w.loader l).cached? name with
    | some c => exact ⟨_, .known hcached⟩
    | none =>
      cases hs : (w.loader l).sources with
      | nil => exact ⟨_, .unsourced hcached hs⟩
      | cons s rest =>
        by_cases hn : name ∈ (w.loader l).loading
        · exact ⟨_, .reentered hcached (by rw [hs]; exact List.cons_ne_nil _ _) hn⟩
        · exact ⟨_, .enters hcached hs hn⟩
  | runs a p =>
    left
    cases hnext : p.next l w with
    | goes own p' w' => exact ⟨_, .goes hnext⟩
    | looks names missed resume => exact ⟨_, .looks hnext⟩
    | ends found =>
      cases found with
      | some c => exact ⟨_, .loads hnext⟩
      | none =>
        cases hrest : a.rest with
        | nil => exact ⟨_, .fails hnext hrest⟩
        | cons s rest => exact ⟨_, .passes hnext hrest⟩
  | hands found =>
    cases waiting with
    | nil => exact .inr ⟨found, rfl, rfl⟩
    | cons f waiting =>
      left
      by_cases hf : found = none → f.names = []
      · exact ⟨_, .resumes hf⟩
      · obtain ⟨a, names, missed, resume⟩ := f
        cases found with
        | some c => exact (hf fun hnone => by cases hnone).elim
        | none =>
          cases names with
          | nil => exact (hf fun _ => rfl).elim
          | cons name names => exact ⟨_, .tries⟩

end Moment

/-! ## Lookups go these steps -/

theorem Program.next_ends {l : LoaderId} {w : World} {p : Program} {found : Option ClassId}
    (h : p.next l w = .ends found) : p = .answer found := by
  cases p with
  | answer r => cases h; rfl
  | lookupDefault name next =>
    simp only [Program.next] at h
    split at h <;> cases h
  | _ => cases h

section
variable {l : LoaderId} {lookup : String → Bounded (Option ClassId)} {w w' : World} {name : String}

theorem Program.next_lookupDefault_of_builtin {next : Option ClassId → Program} {c : ClassId}
    (hb : (w.loader l).builtins.get? name = some c) :
    (Program.lookupDefault name next).next l w = .goes none (next (some c)) w := by
  simp only [Program.next, hb]

theorem Program.next_lookupDefault {next : Option ClassId → Program}
    (hb : (w.loader l).builtins.get? name = none) : (Program.lookupDefault name next).next l w =
      .looks ((w.loader l).settings.defaultPackages.map (qualify · name) ++ [name]) none next := by
  simp only [Program.next, hb]

theorem firstHit_singleton (lookup : String → Bounded (Option ClassId)) (name : String) :
    firstHit lookup [name] = lookup name := by
  funext w
  show (lookup name >>= _) w = _
  rw [Bounded.bind_run]
  cases lookup name w with
  | none => rfl
  | some r =>
    obtain ⟨found, v⟩ := r
    cases found <;> rfl

theorem Loader.run_lookupDefault (next : Option ClassId → Program) : run l lookup (.lookupDefault name next) w =
    (defaultBy lookup name ((w.loader l).builtins.get? name, (w.loader l).settings.defaultPackages) >>=
      fun r => run l lookup (next r)) w := rfl

theorem Loader.run_of_goes {p p' : Program} {own : Option (String × ClassId)} (h : p.next l w = .goes own p' w') :
    run l lookup p w = run l lookup p' w' := by
  cases p with
  | define | create | edit | placeholder | classes | inspect => cases h; rfl
  | lookupDefault name next =>
    cases hb : (w.loader l).builtins.get? name with
    | some c =>
      rw [Program.next_lookupDefault_of_builtin hb] at h
      cases h
      rw [run_lookupDefault, hb]
      rfl
    | none => rw [Program.next_lookupDefault hb] at h; cases h
  | answer | lookup | load => cases h

theorem Loader.bind_resume {s : Bounded (Option ClassId)} (next : Option ClassId → Program) :
    (s >>= fun r => run l lookup (next r)) w = (s w).bind fun r => run l lookup (next r.1) (r.2.missing none r.1) := by
  rw [Bounded.bind_run]
  congr 1
  funext ⟨r, v⟩
  cases r <;> rfl

theorem Loader.run_of_looks {p : Program} {names : List String} {missed : Option Log.Event}
    {resume : Option ClassId → Program} (h : p.next l w = .looks names missed resume) :
    run l lookup p w =
      (firstHit lookup names w).bind fun r => run l lookup (resume r.1) (r.2.missing missed r.1) := by
  cases p with
  | lookup name next =>
    cases h
    rw [firstHit_singleton]
    exact bind_resume resume
  | lookupDefault name next =>
    cases hb : (w.loader l).builtins.get? name with
    | some c => rw [Program.next_lookupDefault_of_builtin hb] at h; cases h
    | none =>
      rw [Program.next_lookupDefault hb] at h
      cases h
      rw [run_lookupDefault, hb]
      exact bind_resume resume
  | load name next =>
    cases h
    rw [firstHit_singleton]
    show (loadWith l lookup name >>= fun c => run l lookup (next c)) w = _
    unfold loadWith
    rw [bind_assoc, Bounded.bind_run]
    congr 1
    funext ⟨r, v⟩
    cases r <;> rfl
  | answer | define | create | edit | placeholder | classes | inspect => cases h

end

namespace Moment

variable {l : LoaderId} {lookup : String → Bounded (Option ClassId)} {w v : World} {name : String}
  {found : Option ClassId}

/-- Whatever `lookup` answers is what the steps come to, whoever waits for it. -/
def Bridges (l : LoaderId) (lookup : String → Bounded (Option ClassId)) : Prop :=
  ∀ name w found v, lookup name w = some (found, v) → ∀ waiting h,
    ∃ h', Course l ⟨w, .seeks name, waiting, h⟩ ⟨v, .hands found, waiting, .returned name found :: h'⟩

theorem firstHit_course (hl : Bridges l lookup) (a : Asking) (missed : Option Log.Event)
    (resume : Option ClassId → Program) (waiting : List Waiting) (names : List String) :
    ∀ w h, firstHit lookup names w = some (found, v) →
      ∃ h', Course l ⟨w, .hands none, ⟨a, names, missed, resume⟩ :: waiting, h⟩
        ⟨v.missing missed found, .runs a (resume found), waiting, h'⟩ := by
  induction names with
  | nil =>
    intro w h hhit
    cases hhit
    exact ⟨h, .single (.resumes fun _ => rfl)⟩
  | cons name names ih =>
    intro w h hhit
    obtain ⟨r, w₁, hname, hrest⟩ := Bounded.bind_eq_some.mp hhit
    obtain ⟨h₁, hsought⟩ := hl name w r w₁ hname (⟨a, names, missed, resume⟩ :: waiting) h
    have hfirst := hsought.head .tries
    cases r with
    | some c =>
      cases hrest
      exact ⟨_, hfirst.tail (.resumes nofun)⟩
    | none =>
      obtain ⟨h', hlater⟩ := ih w₁ (.returned name none :: h₁) hrest
      exact ⟨h', hfirst.trans hlater⟩

def Ends (l : LoaderId) (lookup : String → Bounded (Option ClassId)) (p : Program) (w : World) : Prop :=
  ∀ found v, Loader.run l lookup p w = some (found, v) → ∀ a waiting h, ∃ own h',
    Course l ⟨w, .runs a p, waiting, h⟩ ⟨v, .runs { a with own := own } (.answer found), waiting, h'⟩

theorem Ends.goes {p p' : Program} {own : Option (String × ClassId)} {w' : World}
    (hnext : p.next l w = .goes own p' w') (h : Ends l lookup p' w') : Ends l lookup p w := by
  intro found v hp a waiting happened
  rw [Loader.run_of_goes hnext] at hp
  obtain ⟨own', h', hcourse⟩ := h found v hp { a with own := own.toList ++ a.own } waiting happened
  exact ⟨own', h', hcourse.head (.goes hnext)⟩

theorem Ends.looks (hl : Bridges l lookup) {p : Program} {names : List String} {missed : Option Log.Event}
    {resume : Option ClassId → Program} (hnext : p.next l w = .looks names missed resume)
    (h : ∀ r w, Ends l lookup (resume r) w) : Ends l lookup p w := by
  intro found v hp a waiting happened
  rw [Loader.run_of_looks hnext] at hp
  obtain ⟨⟨r, w₁⟩, hhit, hrest⟩ := Option.bind_eq_some_iff.mp hp
  obtain ⟨h₁, hsought⟩ := firstHit_course hl a missed resume waiting names w happened hhit
  obtain ⟨own, h', hlater⟩ := h r _ found v hrest a waiting h₁
  exact ⟨own, h', (hsought.trans hlater).head (.looks hnext)⟩

theorem run_course (hl : Bridges l lookup) (p : Program) : ∀ w, Ends l lookup p w := by
  induction p with
  | answer found =>
    intro w r v hrun a waiting h
    cases hrun
    exact ⟨a.own, h, .refl⟩
  | define package simpleName imports next ih => exact fun w => .goes rfl (ih _ _)
  | create package simpleName collaborator settings next ih => exact fun w => .goes rfl (ih _ _)
  | edit e next ih => exact fun w => .goes rfl (ih _ _)
  | placeholder name next ih => exact fun w => .goes rfl (ih _ _)
  | classes next ih => exact fun w => .goes rfl (ih _ _)
  | inspect c next ih => exact fun w => .goes rfl (ih _ _)
  | lookup name next ih => exact fun w => .looks hl rfl ih
  | lookupDefault name next ih =>
    intro w
    cases hb : (w.loader l).builtins.get? name with
    | some c => exact .goes (Program.next_lookupDefault_of_builtin hb) (ih _ _)
    | none => exact .looks hl (Program.next_lookupDefault hb) ih
  | load name next ih =>
    refine fun w => .looks hl rfl fun r w => ?_
    cases r with
    | some c => exact ih c w
    | none => exact .goes rfl (ih _ _) -- The stand-in takes a step of its own.

theorem source_course (hl : Bridges l lookup) (a : Asking) {s : Source} {rest : List Source}
    (h : Loader.askSources l lookup a.name a.number (s :: rest) w = some (found, v)) (waiting : List Waiting)
    (happened : List Happening) : ∃ r w₁ own h', Loader.orAsk l lookup a.name a.number rest r w₁ = some (found, v) ∧
      Course l (asks l w a s waiting happened) ⟨w₁, .runs { a with own := own } (.answer r), waiting, h'⟩ := by
  rw [Loader.askSources_cons] at h
  obtain ⟨_, w₀, hnoted, hrun⟩ := Bounded.bind_eq_some.mp h
  cases hnoted
  obtain ⟨r, w₁, hprogram, hnext⟩ := Bounded.bind_eq_some.mp hrun
  obtain ⟨own, h', hcourse⟩ := run_course hl _ _ r w₁ hprogram a waiting (.asked a.number a.name :: happened)
  exact ⟨r, w₁, own, h', hnext, hcourse⟩

/-- The sources are asked in turn until one answers, and what it answers is registered. -/
theorem askSources_course (hl : Bridges l lookup) (name : String) (since : List Happening) (waiting : List Waiting)
    (rest : List Source) : ∀ i s w h, Loader.askSources l lookup name i (s :: rest) w = some (found, v) → ∃ h',
      Course l (asks l w ⟨name, i, rest, [], since⟩ s waiting h)
        ⟨found.elim (v.left l name) ((v.left l name).took l name), .hands found, waiting,
          .returned name found :: h'⟩ := by
  induction rest with
  | nil =>
    intro i s w h hask
    obtain ⟨r, w₁, own, h', hnext, hcourse⟩ := source_course hl ⟨name, i, [], [], since⟩ hask waiting h
    cases r with
    | some c => cases hnext; exact ⟨_, hcourse.tail (.loads rfl)⟩
    | none => cases hnext; exact ⟨_, hcourse.tail (.fails rfl rfl)⟩
  | cons s' rest ih =>
    intro i s w h hask
    obtain ⟨r, w₁, own, h', hnext, hcourse⟩ := source_course hl ⟨name, i, s' :: rest, [], since⟩ hask waiting h
    cases r with
    | some c => cases hnext; exact ⟨_, hcourse.tail (.loads rfl)⟩
    | none =>
      obtain ⟨h'', hlater⟩ := ih (i + 1) s' w₁ (.answered i name none :: h') hnext
      exact ⟨h'', (hcourse.tail (.passes rfl rfl)).trans hlater⟩

theorem lookupWithin_bridges (l : LoaderId) (depth : Nat) : Bridges l (Loader.lookupWithin depth l) := by
  induction depth with
  | zero => intro name w found v h; cases h
  | succ depth ih =>
    intro name w found v h waiting happened
    rw [Loader.lookupWithin_eq] at h
    unfold Loader.lookupBy at h
    dsimp only at h
    cases hcached : (w.loader l).cached? name with
    | some c =>
      rw [hcached] at h
      cases h
      exact ⟨_, .single (.known hcached)⟩
    | none =>
      rw [hcached] at h
      dsimp only at h
      cases hs : (w.loader l).sources with
      | nil =>
        rw [hs] at h
        cases h
        exact ⟨_, .single (.unsourced hcached hs)⟩
      | cons s rest =>
        rw [hs, if_neg (by simp)] at h
        by_cases hn : name ∈ (w.loader l).loading
        · rw [if_pos (List.contains_iff_mem.mpr hn)] at h
          cases h
          exact ⟨_, .single (.reentered hcached (by rw [hs]; exact List.cons_ne_nil _ _) hn)⟩
        · rw [if_neg (by simpa using hn)] at h
          -- the sources' own lookups go one level deeper, where the induction hypothesis takes over
          obtain ⟨_, _, hloading, hregister⟩ := Bounded.bind_eq_some.mp h
          rw [Loader.whileLoading_run] at hloading
          obtain ⟨⟨r, w₁⟩, hask, hleft⟩ := Option.map_eq_some_iff.mp hloading
          cases hleft
          obtain ⟨h', hcourse⟩ := askSources_course ih name happened waiting rest 0 s (w.entered l name) happened hask
          have henters := hcourse.head (.enters hcached hs hn)
          cases r with
          | none => cases hregister; exact ⟨h', henters⟩
          | some c => cases hregister; exact ⟨h', henters⟩

/-- A lookup that ends has gone steps, and they lead to its answer and the world that it leaves. -/
theorem lookupWithin_course {depth : Nat} (h : Loader.lookupWithin depth l name w = some (found, v)) :
    ∃ h', Course l (start w name) ⟨v, .hands found, [], .returned name found :: h'⟩ :=
  lookupWithin_bridges l depth name w found v h [] []

end Moment

/-! ## These are all steps that lookups go -/

namespace Bounded

def Deepens (s s' : Bounded α) : Prop := ∀ w r, s w = some r → s' w = some r

namespace Deepens

theorem refl (s : Bounded α) : s.Deepens s := fun _ _ h => h

theorem bind {s s' : Bounded α} {f f' : α → Bounded β} (hs : s.Deepens s') (hf : ∀ a, (f a).Deepens (f' a)) :
    (s >>= f).Deepens (s' >>= f') := by
  intro w ⟨b, v⟩ h
  obtain ⟨a, w₁, h₁, h₂⟩ := bind_eq_some.mp h
  exact bind_eq_some.mpr ⟨a, w₁, hs _ _ h₁, hf a _ _ h₂⟩

variable {l : LoaderId} {lookup lookup' : String → Bounded (Option ClassId)}
  (hl : ∀ name, (lookup name).Deepens (lookup' name))
include hl

theorem firstHit (names : List String) :
    (ClassModel.firstHit lookup names).Deepens (ClassModel.firstHit lookup' names) := by
  induction names with
  | nil => exact refl _
  | cons name names ih =>
    refine bind (hl name) fun found => ?_
    cases found with
    | some c => exact refl _
    | none => exact ih

theorem run (p : Program) : (Loader.run l lookup p).Deepens (Loader.run l lookup' p) := by
  induction p with
  | answer found => exact refl _
  | define package simpleName imports next ih => exact bind (refl _) ih
  | create package simpleName collaborator settings next ih => exact bind (refl _) ih
  | edit e next ih => exact bind (refl _) ih
  | lookup name next ih => exact bind (hl name) ih
  | lookupDefault name next ih =>
    refine bind (bind (refl _) fun x => ?_) ih
    cases x.builtins.get? name with
    | some c => exact refl _
    | none => exact firstHit hl _
  | load name next ih =>
    refine bind (bind (hl name) fun found => ?_) ih
    cases found <;> exact refl _
  | placeholder name next ih => exact bind (refl _) ih
  | classes next ih => exact bind (refl _) ih
  | inspect c next ih => exact bind (refl _) ih

theorem askSources (name : String) (sources : List Source) :
    ∀ i, (Loader.askSources l lookup name i sources).Deepens (Loader.askSources l lookup' name i sources) := by
  induction sources with
  | nil => exact fun _ => refl _
  | cons s rest ih =>
    intro i
    refine bind (refl _) fun x => bind (refl _) fun _ => bind (run hl _) fun found => ?_
    cases found with
    | some c => exact refl _
    | none => exact ih (i + 1)

omit hl in
theorem lookupWithin (l : LoaderId) (depth : Nat) :
    ∀ name, (Loader.lookupWithin depth l name).Deepens (Loader.lookupWithin (depth + 1) l name) := by
  induction depth with
  | zero => intro name w r h; cases h
  | succ depth ih =>
    refine fun name => bind (refl _) fun x => ?_
    cases x.cached? name with
    | some c => exact refl _
    | none =>
      dsimp only
      split
      · exact refl _
      · split
        · exact refl _
        · exact bind (refl _) fun _ => bind (askSources ih name _ 0) fun _ => refl _

end Deepens

theorem deepens_of_le (l : LoaderId) {depth depth' : Nat} (h : depth ≤ depth') (name : String) :
    (Loader.lookupWithin depth l name).Deepens (Loader.lookupWithin depth' l name) := by
  induction h with
  | refl => exact .refl _
  | step _ ih => exact fun w r hr => Deepens.lookupWithin l _ name w r (ih w r hr)

end Bounded

/-- What is left of a lookup in which a source runs the program: the program, and the sources after it. -/
def Asking.left (l : LoaderId) (lookup : String → Bounded (Option ClassId)) (a : Asking) (p : Program) :
    Bounded (Option ClassId) :=
  Loader.run l lookup p >>= Loader.orAsk l lookup a.name a.number a.rest

def orTry (lookup : String → Bounded (Option ClassId)) (names : List String) :
    Option ClassId → Bounded (Option ClassId)
  | some c => pure (some c)
  | none => firstHit lookup names

def Waiting.left (l : LoaderId) (lookup : String → Bounded (Option ClassId)) (f : Waiting) (found : Option ClassId) :
    Bounded (Option ClassId) := fun w =>
  (orTry lookup f.names found w).bind fun r => f.asking.left l lookup (f.resume r.1) (r.2.missing f.missed r.1)

namespace Moment

/-- What is left of the innermost lookup, if nested lookups go no deeper than `depth`. -/
def left (l : LoaderId) (depth : Nat) (m : Moment) : Option (Option ClassId × World) :=
  match m.control, m.waiting with
  | .seeks name, _ => Loader.lookupWithin depth l name m.world
  | .runs a p, _ => a.left l (Loader.lookupWithin depth l) p m.world
  | .hands found, f :: _ => f.left l (Loader.lookupWithin depth l) found m.world
  | .hands found, [] => some (found, m.world)

section
variable {l : LoaderId} {w v : World} {m m' t : Moment} {name : String} {found : Option ClassId}

theorem left_waiting_of_le {depth depth' : Nat} (h : depth ≤ depth') (f : Waiting) (found : Option ClassId) :
    (f.left l (Loader.lookupWithin depth l) found).Deepens (f.left l (Loader.lookupWithin depth' l) found) := by
  have hlookup (name : String) := Bounded.deepens_of_le l h name
  intro w r hr
  obtain ⟨⟨found', v⟩, hfound, hrest⟩ := Option.bind_eq_some_iff.mp hr
  have hask (found : Option ClassId) :
      (Loader.orAsk l (Loader.lookupWithin depth l) f.asking.name f.asking.number f.asking.rest found).Deepens
        (Loader.orAsk l (Loader.lookupWithin depth' l) f.asking.name f.asking.number f.asking.rest found) := by
    cases found with
    | some c => exact .refl _
    | none => exact Bounded.Deepens.askSources hlookup _ _ _
  refine Option.bind_eq_some_iff.mpr ⟨(found', v), ?_, (Bounded.Deepens.run hlookup _).bind hask _ _ hrest⟩
  cases found with
  | some c => exact hfound
  | none => exact Bounded.Deepens.firstHit hlookup _ _ _ hfound

theorem left_waiting_cons {lookup : String → Bounded (Option ClassId)} (a : Asking) (names : List String)
    (missed : Option Log.Event) (resume : Option ClassId → Program) (h : lookup name w = some (found, v)) :
    Waiting.left l lookup ⟨a, name :: names, missed, resume⟩ none w =
      Waiting.left l lookup ⟨a, names, missed, resume⟩ found v := by
  have hhit : firstHit lookup (name :: names) w = orTry lookup names found v := by
    show (lookup name >>= _) w = _
    rw [Bounded.bind_run, h]
    cases found <;> rfl
  show (firstHit lookup (name :: names) w).bind _ = (orTry lookup names found v).bind _
  rw [hhit]

/-- A lookup that gets to its sources has one depth more than they need. No other lookup needs any. -/
theorem lookupWithin_isSome {depth : Nat} (h : ∀ s rest, (w.loader l).cached? name = none →
    (w.loader l).sources = s :: rest → name ∉ (w.loader l).loading →
    (Loader.askSources l (Loader.lookupWithin depth l) name 0 (s :: rest) (w.entered l name)).isSome) :
    (Loader.lookupWithin (depth + 1) l name w).isSome := by
  rw [Loader.lookupWithin_eq]
  unfold Loader.lookupBy
  cases hcached : (w.loader l).cached? name with
  | some c => rfl
  | none =>
    dsimp only
    cases hs : (w.loader l).sources with
    | nil => rfl
    | cons s rest =>
      rw [if_neg (by simp)]
      by_cases hn : name ∈ (w.loader l).loading
      · rw [if_pos (List.contains_iff_mem.mpr hn)]
        rfl
      · obtain ⟨⟨found, v⟩, hask⟩ := Option.isSome_iff_exists.mp (h s rest hcached hs hn)
        rw [if_neg (by simpa using hn), Bounded.bind_run, Loader.whileLoading_run, hask]
        cases found <;> rfl

/-- The lookup of the name that is tried and what comes after it have each a depth of their own. -/
theorem exists_left_of_tries {a : Asking} {names : List String} {missed : Option Log.Event}
    {resume : Option ClassId → Program} {waiting : List Waiting} {h : List Happening}
    (hlater : ∀ m', Course l ⟨w, .seeks name, ⟨a, names, missed, resume⟩ :: waiting, h⟩ m' →
      ∃ depth, (m'.left l depth).isSome) :
    ∃ depth, (Moment.left l depth ⟨w, .hands none, ⟨a, name :: names, missed, resume⟩ :: waiting, h⟩).isSome := by
  obtain ⟨depth, hdepth⟩ := hlater _ .refl
  obtain ⟨⟨found, v⟩, hfound⟩ := Option.isSome_iff_exists.mp hdepth
  obtain ⟨h', hcourse⟩ := lookupWithin_bridges l depth name w found v hfound _ h
  obtain ⟨depth', hdepth'⟩ := hlater _ hcourse
  obtain ⟨r, hr⟩ := Option.isSome_iff_exists.mp hdepth'
  refine ⟨max depth depth', Option.isSome_iff_exists.mpr ⟨r, ?_⟩⟩
  have hdeep := Bounded.deepens_of_le l (Nat.le_max_left depth depth') name w _ hfound
  show Waiting.left l _ ⟨a, name :: names, missed, resume⟩ none w = _
  rw [left_waiting_cons a names missed resume hdeep]
  exact left_waiting_of_le (Nat.le_max_right depth depth') _ _ _ _ hr

/-- Something is left of a lookup that can be done if that is so of all that is left later. -/
theorem exists_left_of_later (hlater : ∀ m₁, Step l m m₁ → ∀ m', Course l m₁ m' → ∃ depth, (m'.left l depth).isSome) :
    ∃ depth, (m.left l depth).isSome := by
  have hnext (m₁ : Moment) (hs : Step l m m₁) : ∃ depth, (m₁.left l depth).isSome := hlater m₁ hs m₁ .refl
  rcases exists_step l m with ⟨m', hs⟩ | ⟨found, hcontrol, hwaiting⟩
  · have hm' := hnext m' hs
    cases hs with
    | known hcached => exact ⟨1, lookupWithin_isSome fun _ _ hnone => by rw [hcached] at hnone; cases hnone⟩
    | unsourced _ hsources => exact ⟨1, lookupWithin_isSome fun _ _ _ hs => by rw [hsources] at hs; cases hs⟩
    | reentered _ _ hn => exact ⟨1, lookupWithin_isSome fun _ _ _ _ hnot => (hnot hn).elim⟩
    -- entering a lookup is the one step that costs a depth
    | @enters w name waiting h s rest hcached hsources hn =>
      obtain ⟨depth, hdepth⟩ := hm'
      refine ⟨depth + 1, lookupWithin_isSome fun s' rest' _ hs _ => ?_⟩
      rw [← hs, hsources]
      exact hdepth
    | @goes w a p waiting h own p' w' hstep =>
      obtain ⟨depth, hdepth⟩ := hm'
      refine ⟨depth, ?_⟩
      show (a.left l _ p w).isSome
      unfold Asking.left
      rw [Bounded.bind_run, Loader.run_of_goes hstep]
      exact hdepth
    | @looks w a p waiting h names missed resume hstep =>
      obtain ⟨depth, hdepth⟩ := hm'
      refine ⟨depth, ?_⟩
      show (a.left l _ p w).isSome
      unfold Asking.left
      rw [Bounded.bind_run, Loader.run_of_looks hstep, Option.bind_assoc]
      exact hdepth
    | tries => exact exists_left_of_tries (hlater _ .tries)
    | @resumes w f waiting h found hnames =>
      obtain ⟨depth, hdepth⟩ := hm'
      refine ⟨depth, ?_⟩
      show (f.left l _ found w).isSome
      unfold Waiting.left
      cases found with
      | some c => exact hdepth
      | none =>
        rw [hnames rfl]
        exact hdepth
    | @passes w a p waiting h s rest hends hrest =>
      obtain ⟨depth, hdepth⟩ := hm'
      obtain rfl := Program.next_ends hends
      refine ⟨depth, ?_⟩
      show (Loader.askSources l _ a.name (a.number + 1) a.rest w).isSome
      rw [hrest]
      exact hdepth
    | @fails w a p waiting h hends hrest =>
      obtain rfl := Program.next_ends hends
      refine ⟨0, ?_⟩
      show (Loader.askSources l _ a.name (a.number + 1) a.rest w).isSome
      rw [hrest]
      rfl
    | @loads w a p waiting h c hends =>
      obtain rfl := Program.next_ends hends
      exact ⟨0, rfl⟩
  · exact ⟨0, by unfold left; rw [hcontrol, hwaiting]; rfl⟩

theorem acc_of_course (h : Course l m t) (ht : ∀ t', ¬ Step l t t') : Acc (fun m' m => Step l m m') m := by
  induction h using ReflTransGen.head_induction_on with
  | refl => exact .intro t fun t' hs => (ht t' hs).elim
  | head hs _ ih => exact .intro _ fun m' hs' => by rwa [← hs.unique hs']

theorem exists_left (h : Acc (fun m' m => Step l m m') m) :
    ∀ m', Course l m m' → ∃ depth, (m'.left l depth).isSome := by
  induction h with
  | intro m _ ih =>
    intro m' hm'
    rcases ReflTransGen.cases_head hm' with rfl | ⟨m₁, hs, hc⟩
    · exact exists_left_of_later ih
    · exact ih m₁ hs m' hc

theorem not_step_hands {h : List Happening} (m' : Moment) : ¬ Step l ⟨v, .hands found, [], h⟩ m' := nofun

/-- The steps come to an end just where there is a lookup that does, and with the same answer in the same
world. -/
theorem lookupWithin_iff_course : (∃ depth, Loader.lookupWithin depth l name w = some (found, v)) ↔
    ∃ h, Course l (start w name) ⟨v, .hands found, [], .returned name found :: h⟩ := by
  refine ⟨fun ⟨depth, h⟩ => lookupWithin_course h, fun ⟨h, hcourse⟩ => ?_⟩
  obtain ⟨depth, hdepth⟩ := exists_left (acc_of_course hcourse not_step_hands) _ .refl
  obtain ⟨⟨found', v'⟩, hfound⟩ := Option.isSome_iff_exists.mp hdepth
  obtain ⟨h', hcourse'⟩ := lookupWithin_course hfound
  refine ⟨depth, ?_⟩
  have hstop {m m' : Moment} (hm : Course l m m') (hstop : ∀ t, ¬ Step l m t) : m = m' := by
    rcases ReflTransGen.cases_head hm with heq | ⟨t, hs, -⟩
    · exact heq
    · exact (hstop t hs).elim
  have hunique : Relator.RightUnique (Step l) := fun _ _ _ hs hs' => hs.unique hs'
  rcases ReflTransGen.total_of_right_unique hunique hcourse hcourse' with hc | hc
  · cases hstop hc not_step_hands; exact hfound
  · cases hstop hc not_step_hands; exact hfound

end

end Moment

end ClassModel
