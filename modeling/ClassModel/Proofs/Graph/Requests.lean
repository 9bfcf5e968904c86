import ClassModel.Graph.Resolution
import ClassModel.Proofs.Graph.Loaders

/-!
# What resolution asks for

An unqualified name is resolved by asking for one candidate after another, up to the first that is
there. The collaborator that is asked may be anything: it may have a state, change the imports in the
midst of it, answer the same request differently the next time, or never come back. Which requests it gets, in
which order, and which of their answers becomes the result, is the same for all of them.
-/

namespace ClassModel

open Name

/-! ## Asking up to the first hit -/

inductive Asked (ask : ρ → StateT σ Option (Option α)) : List (ρ × Option α) → σ → σ → Prop
  | nil (s : σ) : Asked ask [] s s
  | cons {r : ρ} {found : Option α} {t : List (ρ × Option α)} {s s₁ s' : σ} :
      ask r s = some (found, s₁) → Asked ask t s₁ s' → Asked ask ((r, found) :: t) s s'

/-- A course of requests along a list of candidates: one after another is missed, up to the first hit or the
end of the list. -/
inductive Sweep : List ρ → List (ρ × Option α) → Option α → Prop
  | over : Sweep [] [] none
  | miss {r : ρ} {rest : List ρ} {t : List (ρ × Option α)} {found : Option α} :
      Sweep rest t found → Sweep (r :: rest) ((r, none) :: t) found
  | hit {r : ρ} {rest : List ρ} (x : α) : Sweep (r :: rest) [(r, some x)] (some x)

def Sweeps (ask : ρ → StateT σ Option (Option α)) (candidates : List ρ) (found : Option α) (s s' : σ) : Prop :=
  ∃ t, Asked ask t s s' ∧ Sweep candidates t found

namespace Sweeps

section
variable {ask : ρ → StateT σ Option (Option α)} {found : Option α} {s s' : σ}

theorem nil_iff : Sweeps ask [] found s s' ↔ found = none ∧ s' = s := by
  constructor
  · rintro ⟨_, ha, hs⟩
    cases hs
    cases ha
    exact ⟨rfl, rfl⟩
  · rintro ⟨rfl, rfl⟩
    exact ⟨[], .nil s', .over⟩

theorem cons_iff {r : ρ} {rest : List ρ} : Sweeps ask (r :: rest) found s s' ↔
    (∃ x, ask r s = some (some x, s') ∧ found = some x) ∨
      ∃ s₁, ask r s = some (none, s₁) ∧ Sweeps ask rest found s₁ s' := by
  constructor
  · rintro ⟨_, ha, hs⟩
    cases hs with
    | miss hs =>
      cases ha with
      | cons h ha => exact .inr ⟨_, h, _, ha, hs⟩
    | hit x =>
      cases ha with
      | cons h ha =>
        cases ha
        exact .inl ⟨x, h, rfl⟩
  · rintro (⟨x, h, rfl⟩ | ⟨s₁, h, t, ha, hs⟩)
    · exact ⟨_, .cons h (.nil s'), .hit x⟩
    · exact ⟨_, .cons h ha, .miss hs⟩

theorem append_iff {candidates more : List ρ} : Sweeps ask (candidates ++ more) found s s' ↔
    (∃ x, found = some x ∧ Sweeps ask candidates (some x) s s') ∨
      ∃ s₁, Sweeps ask candidates none s s₁ ∧ Sweeps ask more found s₁ s' := by
  induction candidates generalizing s with
  | nil => simp [nil_iff]
  | cons r rest ih =>
    simp only [List.cons_append, cons_iff, ih]
    constructor
    · rintro (⟨x, h, rfl⟩ | ⟨s₁, h, ⟨x, rfl, hs⟩ | ⟨s₂, hs, hmore⟩⟩)
      · exact .inl ⟨x, rfl, .inl ⟨x, h, rfl⟩⟩
      · exact .inl ⟨x, rfl, .inr ⟨s₁, h, hs⟩⟩
      · exact .inr ⟨s₂, .inr ⟨s₁, h, hs⟩, hmore⟩
    · rintro (⟨x, rfl, ⟨_, h, ⟨⟩⟩ | ⟨s₁, h, hs⟩⟩ | ⟨s₂, ⟨_, _, ⟨⟩⟩ | ⟨s₁, h, hs⟩, hmore⟩)
      · exact .inl ⟨x, h, rfl⟩
      · exact .inr ⟨s₁, h, .inl ⟨x, rfl, hs⟩⟩
      · exact .inr ⟨s₁, h, .inr ⟨s₂, hs, hmore⟩⟩

theorem map_iff {ρ' : Type} {f : ρ' → ρ} {candidates : List ρ'} :
    Sweeps ask (candidates.map f) found s s' ↔ Sweeps (fun r => ask (f r)) candidates found s s' := by
  induction candidates generalizing s with
  | nil => simp [nil_iff]
  | cons r rest ih => simp [cons_iff, ih]

end

end Sweeps

def otherwise [Monad m] (next : m (Option α)) : Option α → m (Option α)
  | some x => pure (some x)
  | none => next

section
variable {found : Option α} {s s' : σ}

theorem bind_otherwise {first next : StateT σ Option (Option α)} :
    (first >>= otherwise next) s = some (found, s') ↔ (∃ x, first s = some (some x, s') ∧ found = some x) ∨
      ∃ s₁, first s = some (none, s₁) ∧ next s₁ = some (found, s') := by
  show (first s).bind (fun r => otherwise next r.1 r.2) = _ ↔ _
  rcases first s with _ | ⟨_ | x, s₁⟩
  · simp
  · simp [otherwise]
  · show some (some x, s₁) = _ ↔ _
    simp [and_comm, eq_comm]

theorem firstHit_iff {ask : String → StateT σ Option (Option α)} {names : List String} :
    firstHit ask names s = some (found, s') ↔ Sweeps ask names found s s' := by
  induction names generalizing s with
  | nil =>
    rw [Sweeps.nil_iff, show firstHit ask [] s = some (none, s) from rfl, Option.some.injEq, Prod.mk.injEq]
    exact and_congr eq_comm eq_comm
  | cons name rest ih =>
    rw [show firstHit ask (name :: rest) = ask name >>= otherwise (firstHit ask rest) from rfl, bind_otherwise,
      Sweeps.cons_iff]
    simp only [ih]

end

/-! ## The candidates for an unqualified name -/

inductive Inquiry where
  | lookup (name : String)
  | lookupDefault (name : String)
  deriving DecidableEq

def singleCandidates (imports : List Import) (name : String) : List String :=
  (imports.filter fun i => i.importedName? = some name).map Import.path

def onDemandCandidates (imports : List Import) (name : String) : List String :=
  (imports.filter Import.isOnDemand).map fun i => qualify i.path name

theorem importedNames_eq (imports : List Import) (name : String) :
    importedNames imports name = singleCandidates imports name ++ onDemandCandidates imports name := by
  unfold importedNames singleCandidates onDemandCandidates
  congr 1
  · induction imports with
    | nil => rfl
    | cons i rest ih =>
      cases i with
      | single path => by_cases h : simpleNameOf path = name <;> simp [Import.importedName?, Import.path, h, ih]
      | onDemand path => simpa [Import.importedName?] using ih
  · induction imports with
    | nil => rfl
    | cons i rest ih =>
      cases i with
      | single path => exact ih
      | onDemand path => exact congrArg (qualify path name :: ·) ih

/-- All that is asked for while a name is resolved, as long as it is missed: the name in the package, by single
imports and by imports on demand, and in the end the name itself by the fallback. -/
def inquiries (package : String) (imports : List Import) (name : String) : List Inquiry :=
  (qualify package name :: singleCandidates imports name ++ onDemandCandidates imports name).map .lookup ++
    [.lookupDefault name]

section
variable {ask : Inquiry → StateT σ Option (Option α)} {name : String} {found : Option α} {s s' : σ}

/-- The fallback is one more candidate. -/
theorem fallBack_iff {names : List String} :
    (firstHit (fun c => ask (.lookup c)) names >>= otherwise (ask (.lookupDefault name))) s = some (found, s') ↔
      Sweeps ask (names.map .lookup ++ [.lookupDefault name]) found s s' := by
  have hlast (s₁ : σ) : Sweeps ask [.lookupDefault name] found s₁ s' ↔
      ask (.lookupDefault name) s₁ = some (found, s') := by
    rw [Sweeps.cons_iff]
    simp only [Sweeps.nil_iff]
    cases found <;> simp
  simp only [bind_otherwise, firstHit_iff, Sweeps.append_iff, Sweeps.map_iff, hlast]
  exact or_congr (exists_congr fun _ => and_comm) .rfl

variable (ask) in
/-- Resolving is one sweep. Its imports are those that are there once the package has been tried. -/
theorem resolveWith_iff {package : String} {imports : σ → List Import} :
    resolveWith (fun c => ask (.lookup c)) (fun c => ask (.lookupDefault c)) package
        (fun s => some (imports s, s)) name s = some (found, s') ↔
      ∃ first s₁, ask (.lookup (qualify package name)) s = some (first, s₁) ∧
        Sweeps ask (inquiries package (imports s₁) name) found s s' := by
  rw [show resolveWith (fun c => ask (.lookup c)) (fun c => ask (.lookupDefault c)) package
      (fun s => some (imports s, s)) name = ask (.lookup (qualify package name)) >>= otherwise fun s =>
        (firstHit (fun c => ask (.lookup c)) (importedNames (imports s) name) >>= otherwise
          (ask (.lookupDefault name))) s from rfl, bind_otherwise]
  simp only [fallBack_iff, importedNames_eq, inquiries, List.cons_append, List.map_cons, Sweeps.cons_iff]
  -- What the package is asked for decides alone which imports are read.
  rcases ask (.lookup (qualify package name)) s with _ | ⟨_ | x, s₁⟩ <;> simp

end

/-! ## Collaborators of classes -/

namespace Bounded

variable {β : Type} {lookup fallback : String → Step (Option β)}

theorem of_bind_otherwise (first next : Step (Option β)) :
    of (first >>= otherwise next) = of first >>= otherwise (of next) := by
  funext w
  show some (otherwise next (first w).1 (first w).2) = otherwise (of next) (first w).1 (first w).2
  cases (first w).1 <;> rfl

theorem of_firstHit (names : List String) :
    of (firstHit lookup names) = firstHit (fun name => of (lookup name)) names := by
  induction names with
  | nil => rfl
  | cons name rest ih =>
    rw [show firstHit lookup (name :: rest) = lookup name >>= otherwise (firstHit lookup rest) from rfl,
      of_bind_otherwise, ih]
    rfl

theorem of_resolveWith (package : String) (imports : World → List Import) (name : String) :
    of (resolveWith lookup fallback package (Step.see imports) name) =
      resolveWith (fun c => of (lookup c)) (fun c => of (fallback c)) package
        (fun w => some (imports w, w)) name := by
  rw [show resolveWith lookup fallback package (Step.see imports) name =
    lookup (qualify package name) >>= otherwise fun w =>
      (firstHit lookup (importedNames (imports w) name) >>= otherwise (fallback name)) w from rfl, of_bind_otherwise]
  congr 2
  funext w
  show of (firstHit lookup _ >>= otherwise (fallback name)) w = _
  rw [of_bind_otherwise, of_firstHit]
  rfl

end Bounded

def Collaborator.inquire (k : Collaborator) : Inquiry → Step (Option ClassId)
  | .lookup name => Context.probe k name
  | .lookupDefault name => Context.fallBack k name

/-- An unqualified name is asked for in its package, then by the imports of single classes that go by it, then by
the imports on demand, each of them in order and up to the first hit; only if all are missed the fallback
is asked for it, and once. The first hit is the class of the name. This is so for any collaborator, and for a
context that has one; without one nothing is found. The fallback of a loader has the builtin of the name, or
else asks in each default package in order and last for the name as it stands. -/
theorem unqualified_names_sought_in_order :
    (∀ (σ α : Type) (ask : Inquiry → StateT σ Option (Option α)) (package name : String)
        (imports : σ → List Import) (found : Option α) (s s' : σ),
      resolveWith (fun c => ask (.lookup c)) (fun c => ask (.lookupDefault c)) package
          (fun s => some (imports s, s)) name s = some (found, s') ↔
        ∃ first s₁, ask (.lookup (qualify package name)) s = some (first, s₁) ∧
          Sweeps ask (inquiries package (imports s₁) name) found s s') ∧
    (∀ (package name : String) (imports : World → List Import) (w : World),
      (⟨package, imports, none⟩ : Context).resolve name w = (none, w)) ∧
    (∀ (package name : String) (imports : World → List Import) (k : Collaborator) (found : Option ClassId)
        (w w' : World),
      (⟨package, imports, some k⟩ : Context).resolve name w = (found, w') ↔
        Sweeps (fun q => Bounded.of (k.inquire q))
          (inquiries package (imports (k.inquire (.lookup (qualify package name)) w).2) name) found w w') ∧
    (∀ (l : LoaderId) (lookup : String → Bounded (Option ClassId)) (name : String) (found : Option ClassId)
        (w w' : World),
      Loader.lookupDefaultWith l lookup name w = some (found, w') ↔
        match (w.loader l).builtins.get? name with
        | some c => found = some c ∧ w' = w
        | none => Sweeps lookup ((w.loader l).settings.defaultPackages.map (qualify · name) ++ [name]) found w w') ∧
    ∀ (l : LoaderId) (name : String) (w : World), Collaborator.lookupDefault (.loader l) name w =
      (Loader.lookupDefaultWith l (Loader.lookupWithin (w.loader l).depth l) name).complete none w := by
  refine ⟨fun σ α ask package name imports found s s' => resolveWith_iff ask, fun _ _ _ _ => rfl,
    fun package name imports k found w w' => ?_, fun l lookup name found w w' => ?_, fun _ _ _ => rfl⟩
  · rw [show (⟨package, imports, some k⟩ : Context).resolve name w = (found, w') ↔
      Bounded.of (resolveWith (fun c => k.inquire (.lookup c)) (fun c => k.inquire (.lookupDefault c)) package
        (Step.see imports) name) w = some (found, w') from Option.some_inj.symm, Bounded.of_resolveWith,
      resolveWith_iff fun q => Bounded.of (k.inquire q)]
    constructor
    · rintro ⟨first, w₁, h, hs⟩
      rwa [Option.some.inj h]
    · exact fun hs => ⟨_, _, rfl, hs⟩
  · rw [Loader.lookupDefaultWith_eq]
    unfold Loader.defaultBy
    cases (w.loader l).builtins.get? name with
    | some c =>
      show some (some c, w) = _ ↔ _
      simp [eq_comm]
    | none => exact firstHit_iff

example : inquiries "p" [.onDemand "u", .single "q.A", .single "v.B", .onDemand "", .single "r.A"] "A" =
    [.lookup "p.A", .lookup "q.A", .lookup "r.A", .lookup "u.A", .lookup "A", .lookupDefault "A"] := by
  decide +kernel

end ClassModel
