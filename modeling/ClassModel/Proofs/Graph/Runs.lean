import ClassModel.Proofs.Graph.Leads
import ClassModel.Proofs.Graph.Moves
import ClassModel.Snapshot.Restore
import Mathlib.Order.Defs.Unbundled

/-!
# Runs that resolve nothing

Whatever a source's program does, a lookup is a sequence of moves, and so are edits, stand-ins and
whole restored loaders. None of this resolves a reference: references are only added. A relation
between worlds holds of a program if it holds of its steps and lasts from one step to the next.
-/

namespace ClassModel

open Change

open World

/-! ## Steps that lead to related worlds -/

def Within (R : World → World → Prop) (s : World → α × World) : Prop := ∀ w, R w (s w).2

namespace Within

theorem mono {R R' : World → World → Prop} {s : World → α × World} (h : Within R s)
    (hR : ∀ w w', R w w' → R' w w') : Within R' s := fun w => hR w _ (h w)

theorem map {R : World → World → Prop} {s : Step α} (g : α → β) (hs : Within R s) : Within R (g <$> s) := hs

theorem of {R : World → World → Prop} {s : Step α} (h : Within R s) : Within R (Change.of s) := h

section
variable {R : World → World → Prop} [IsPreorder World R]

theorem pure (a : α) : Within R (Pure.pure a : Step α) := fun w => refl_of R w

theorem see (f : World → α) : Within R (Step.see f) := fun w => refl_of R w

theorem bind {s : Step α} {f : α → Step β} (hs : Within R s) (hf : ∀ a, Within R (f a)) : Within R (s >>= f) :=
  fun w => trans_of R (hs w) (hf (s w).1 (s w).2)

theorem refuse (e : ModelError) : Within R (Change.refuse e : Change α) := fun w => refl_of R w

theorem accept (a : α) : Within R (Pure.pure a : Change α) := fun w => refl_of R w

theorem bindChange {s : Change α} {f : α → Change β} (hs : Within R s) (hf : ∀ a, Within R (f a)) :
    Within R (s >>= f) := fun w => by
  have h := hs w
  rw [bind_run]
  cases hr : s w with
  | mk r w₁ =>
    rw [hr] at h
    cases r with
    | error e => exact h
    | ok a => exact trans_of R h (hf a w₁)

theorem ofMakes {x : Change α} (h : ∀ w, ∃ p a w', x.Makes w p a w' ∧ (p → R w w')) : Within R x := fun w => by
  obtain ⟨p, a, w', hx, hR⟩ := h w
  exact hx.keeps (refl_of R w) hR

theorem firstHit {ask : String → Step (Option α)} (h : ∀ name, Within R (ask name)) (names : List String) :
    Within R (ClassModel.firstHit ask names) := by
  induction names with
  | nil => exact pure none
  | cons name rest ih =>
    refine bind (h name) fun found => ?_
    cases found with
    | some c => exact pure _
    | none => exact ih

end

end Within

namespace Bounded

def Within (R : World → World → Prop) (s : Bounded α) : Prop := ∀ w a w', s w = some (a, w') → R w w'

theorem bind_eq_some {s : Bounded α} {f : α → Bounded β} {w w' : World} {b : β} :
    (s >>= f) w = some (b, w') ↔ ∃ a w₁, s w = some (a, w₁) ∧ f a w₁ = some (b, w') := by
  rw [bind_run, Option.bind_eq_some_iff]
  exact ⟨fun ⟨⟨a, w₁⟩, h⟩ => ⟨a, w₁, h⟩, fun ⟨a, w₁, h⟩ => ⟨⟨a, w₁⟩, h⟩⟩

namespace Within

theorem of {R : World → World → Prop} {s : Step α} (h : ClassModel.Within R s) : Within R (of s) := fun w a w' he => by
  have hs : s w = (a, w') := Option.some.inj he
  have := h w
  rwa [hs] at this

theorem exhausted {R : World → World → Prop} : Within R (exhausted : Bounded α) := fun _ _ _ h => by cases h

section
variable {R : World → World → Prop} [IsPreorder World R]

theorem pure (a : α) : Within R (Pure.pure a : Bounded α) := .of (.pure a)

theorem see (f : World → α) : Within R (see f) := .of (.see f)

theorem bind {s : Bounded α} {f : α → Bounded β} (hs : Within R s) (hf : ∀ a, Within R (f a)) :
    Within R (s >>= f) := fun w b w' h => by
  obtain ⟨a, w₁, h₁, h₂⟩ := bind_eq_some.mp h
  exact trans_of R (hs w a w₁ h₁) (hf a w₁ b w' h₂)

theorem complete {s : Bounded α} (h : Within R s) (otherwise : α) : ClassModel.Within R (s.complete otherwise) :=
  fun w => by
    unfold Bounded.complete
    cases hs : s w with
    | none => exact refl_of R w
    | some r => exact h w r.1 r.2 hs

theorem firstHit {ask : String → Bounded (Option α)} (h : ∀ name, Within R (ask name)) (names : List String) :
    Within R (ClassModel.firstHit ask names) := by
  induction names with
  | nil => exact pure none
  | cons name rest ih =>
    refine bind (h name) fun found => ?_
    cases found with
    | some c => exact pure _
    | none => exact ih

theorem anyClass {search : ClassId → Bounded Bool} (h : ∀ c, Within R (search c)) :
    ∀ cs, Within R (ClassModel.anyClass search cs)
  | [] => pure false
  | c :: cs => bind (h c) fun b => by
    split
    · exact pure true
    · exact anyClass h cs

theorem collectEach {walk : ClassId → Bounded (List α)} (h : ∀ c, Within R (walk c)) :
    ∀ cs, Within R (ClassModel.collectEach walk cs)
  | [] => pure []
  | c :: cs => bind (h c) fun _ => bind (collectEach h cs) fun _ => pure _

end

end Within

end Bounded

namespace Guarded

def Within (R : World → World → Prop) (s : Guarded α) : Prop := Bounded.Within R s.run

namespace Within

theorem exhausted {R : World → World → Prop} : Within R (ExceptT.lift Bounded.exhausted : Guarded α) :=
  fun _ _ _ h => by cases h

section
variable {R : World → World → Prop} [IsPreorder World R]

theorem pure (a : α) : Within R (Pure.pure a : Guarded α) := Bounded.Within.pure _

theorem refuse (e : ModelError) : Within R (refuse e : Guarded α) := Bounded.Within.pure _

theorem bind {s : Guarded α} {f : α → Guarded β} (hs : Within R s) (hf : ∀ a, Within R (f a)) : Within R (s >>= f) :=
  Bounded.Within.bind hs fun
    | .ok a => hf a
    | .error _ => Bounded.Within.pure _

theorem of {s : Step α} (h : ClassModel.Within R s) : Within R (of s) :=
  Bounded.Within.bind (Bounded.Within.of h) fun _ => Bounded.Within.pure _

theorem see (f : World → α) : Within R (see f) := of (.see f)

theorem complete {s : Guarded α} (h : Within R s) (otherwise : α) : ClassModel.Within R (s.complete otherwise) :=
  Bounded.Within.complete h (.ok otherwise)

theorem anyClass {search : ClassId → Guarded Bool} (h : ∀ c, Within R (search c)) :
    ∀ cs, Within R (ClassModel.anyClass search cs)
  | [] => pure false
  | c :: cs => bind (h c) fun
    | true => pure true
    | false => anyClass h cs

theorem collectEach {walk : ClassId → Guarded (List α)} (h : ∀ c, Within R (walk c)) :
    ∀ cs, Within R (ClassModel.collectEach walk cs)
  | [] => pure []
  | c :: cs => bind (h c) fun _ => bind (collectEach h cs) fun _ => pure _

end

end Within

end Guarded

/-! ## Moves that resolve nothing -/

namespace World

structure Builds (w w' : World) : Prop where
  moves : ∃ made, Moves w made w'
  references : w.AddsReferences w'

instance : IsPreorder World Builds where
  refl w := ⟨⟨[], .refl w⟩, .ofSame rfl⟩
  trans _ _ _ h h' := by
    obtain ⟨⟨made, hm⟩, hr⟩ := h
    obtain ⟨⟨made', hm'⟩, hr'⟩ := h'
    exact ⟨⟨_, hm.trans hm'⟩, hr.trans hr'⟩

theorem Builds.keeps {w w' : World} (h : w.Builds w') : w.Keeps w' := by
  obtain ⟨made, hm⟩ := h.moves
  exact hm.keeps

theorem Move.builds {w w' : World} {made : List (LoaderId × ClassId)} (h : Move w made w')
    (hr : w.AddsReferences w') : w.Builds w' := ⟨⟨made, h.moves⟩, hr⟩

theorem references_standIn (w : World) (l : LoaderId) (name : String) :
    (Loader.placeholder l name w).2.references = w.references := by
  rw [placeholder_run]
  cases (w.loader l).placeholders.get? name <;> rfl

end World

namespace Builds

theorem edit (e : Edit) : Within Builds e.apply := .ofMakes fun w => by
  obtain ⟨p, made, w', h, hs⟩ := e.makes w
  exact ⟨p, made, w', h, fun hp => (Move.edit (h.made hp)).builds hs.references⟩

theorem create (package simpleName : String) (lookup : Option Collaborator) (settings : Settings) :
    Within Builds (createClass package simpleName lookup settings) := .ofMakes fun w => by
  have h := createClass_makes package simpleName lookup settings w
  exact ⟨_, _, _, h, fun hp => (Move.create (h.made hp)).builds (.ofSame rfl)⟩

theorem make (settings : Settings) (sources : List Source) : Within Builds (Loader.make settings sources) :=
  .ofMakes fun w => by
    have h := Loader.make_makes settings sources w
    refine ⟨_, _, _, h, fun hp => (Move.make (h.made hp)).builds (.ofSame ?_)⟩
    rw [(withLoader_spec w settings sources).rest]

theorem define (l : LoaderId) (package simpleName : String) (imports : List Import) :
    Within Builds (Loader.define l package simpleName imports) := .ofMakes fun w => by
  have h := Loader.define_makes l package simpleName imports w
  refine ⟨_, _, _, h, fun hp => ?_⟩
  by_cases hc : l.index < w.loaders.size ∧ w.Unregistered w.nextClass
  · exact (Move.define hc.1 hc.2 (h.made hp)).builds (.ofSame rfl)
  · exact (Move.defineUncounted hc (h.made hp)).builds (.ofSame rfl)

/-! ## Looking up -/

theorem log (e : Log.Event) : Within Builds (Step.log e) := fun w =>
  (Move.aside (e :: w.log) (Nat.le_refl _)).builds (.ofSame rfl)

theorem standIn (l : LoaderId) (name : String) : Within Builds (Loader.placeholder l name) := fun w =>
  (Move.standIn w l name).builds (.ofSame (references_standIn w l name))

theorem ask (l : LoaderId) (f : List String → List String) (g : List (Nat × String) → List (Nat × String)) :
    Within Builds (Step.onLoader l fun x => { x with loading := f x.loading, asked := g x.asked }) := fun w =>
  (Move.ask w l f g).builds (.ofSame rfl)

theorem compositional (l : LoaderId) : Bounded.Compositional l (Bounded.Within Builds) where
  pure := .pure
  bind := .bind
  see := .see
  log e := .of (log e)
  noting i name := .of (ask l id fun asked => (i, name) :: asked)
  placeholder name := .of (standIn l name)
  define package simpleName imports := .of (define l package simpleName imports)
  create package simpleName lookup settings := .of (create package simpleName lookup settings)
  edit e := .of (edit e)

end Builds

theorem Loader.lt_of_sources {w : World} {l : LoaderId} (h : (w.loader l).sources ≠ []) :
    l.index < w.loaders.size :=
  Decidable.byContradiction fun hl => h (by
    rw [show w.loader l = default from Store.get_of_size_le _ (Nat.not_lt.mp hl)]; rfl)

namespace Builds

theorem whileLoading {s : Bounded α} (l : LoaderId) (name : String) (h : s.Within Builds) :
    (Loader.whileLoading l name s).Within Builds :=
  (Bounded.Within.of (ask l (name :: ·) id)).bind fun _ => h.bind fun _ =>
    (Bounded.Within.of (ask l (·.erase name) id)).bind fun _ => .pure _

/-- Only a loader with sources registers an answer. -/
theorem register {l : LoaderId} {name : String} {found r : Option ClassId} {w w' : World}
    (hs : (w.loader l).sources ≠ []) (h : Loader.register l name found w = some (r, w')) : w.Builds w' := by
  cases found with
  | none => cases h; exact refl_of Builds w
  | some c =>
    cases h
    have hlog := log (.loaded name (w.nameOf c)) w
    have hanswer := Move.answer (w := (Step.log (.loaded name (w.nameOf c)) w).2) c hs
    exact trans_of Builds hlog (hanswer.builds (.ofSame rfl))

theorem lookupWithin (l : LoaderId) : ∀ depth name, (Loader.lookupWithin depth l name).Within Builds
  | 0, _ => .exhausted
  | depth + 1, name => fun w r w' h => by
    rw [Loader.lookupWithin_eq] at h
    unfold Loader.lookupBy at h
    revert h
    dsimp only
    cases (w.loader l).cached? name with
    | some c => exact fun h => Bounded.Within.pure _ w r w' h
    | none =>
      dsimp only
      by_cases hs : (w.loader l).sources = []
      · rw [hs]
        exact fun h => Bounded.Within.pure _ w r w' h
      · rw [if_neg (by simpa using hs)]
        cases (w.loader l).loading.contains name with
        | true => exact fun h => (Bounded.Within.bind (.of (log _)) fun _ => .pure none) w r w' h
        | false =>
          intro h
          obtain ⟨found, w₁, h₁, h₂⟩ := Bounded.bind_eq_some.mp h
          have hask := (compositional l).askSources (lookupWithin l depth) name
          have hloading := whileLoading l name (hask (w.loader l).sources 0) w found w₁ h₁
          -- The loader still has the sources with which it was made.
          have hs₁ : (w₁.loader l).sources ≠ [] := by
            rwa [(hloading.keeps.loaders l (Loader.lt_of_sources hs)).2.2]
          exact trans_of Builds hloading (register hs₁ h₂)

theorem loaderLookup (l : LoaderId) (name : String) : Within Builds (Loader.lookup l name) :=
  .bind (.see _) fun _ => (lookupWithin l _ name).complete none

theorem loaderLookupDefault (l : LoaderId) (name : String) : Within Builds (Loader.lookupDefault l name) :=
  .bind (.see _) fun _ => ((compositional l).lookupDefaultWith (lookupWithin l _) name).complete none

theorem addDirectory (d : Directory) : Within Builds (Step.addDirectory d) := fun w =>
  (Move.aside w.log (by rw [Store.size_push]; exact Nat.le_succ _)).builds (.ofSame rfl)

theorem onDirectory (d : DirectoryId) (f : Directory → Directory) : Within Builds (Step.onDirectory d f) := fun w =>
  (Move.aside w.log (by rw [Store.size_modify])).builds (.ofSame rfl)

end Builds

/-! ## What a reference finds -/

/-- What it takes to find a class leads to related worlds. A stand-in of its own has the settings of some
class, and one that is there keeps its settings. -/
structure Finding (R : World → World → Prop) : Prop where
  keeps : ∀ {w w'}, R w w' → w.Keeps w'
  log : ∀ e, Within R (Step.log e)
  loaderLookup : ∀ l name, Within R (Loader.lookup l name)
  loaderLookupDefault : ∀ l name, Within R (Loader.lookupDefault l name)
  standIn : ∀ l name, Within R (Loader.placeholder l name)
  onDirectory : ∀ d f, Within R (Step.onDirectory d f)
  stray : ∀ w name lookup d, R w (w.withNode (Loader.standIn name lookup (w.node d).settings))

namespace Finding

theorem exists_settings {w w₁ : World} (hw : w.Keeps w₁) (c : ClassId) :
    ∃ d, (w₁.node d).settings = (w.node c).settings := by
  by_cases hc : c.index < w.nodes.size
  · exact ⟨c, (hw.same c hc).settings⟩
  · refine ⟨w₁.nextClass, ?_⟩
    rw [show w.node c = default from Store.get_of_size_le _ (Nat.not_lt.mp hc),
      show w₁.node w₁.nextClass = default from Store.get_of_size_le _ (Nat.le_refl _)]

section
variable {R : World → World → Prop} [IsPreorder World R]

theorem answer (d : DirectoryId) (name : String) {ask : LoaderId → String → Step (Option ClassId)}
    (hask : ∀ l name, Within R (ask l name)) : Within R (Directory.answer d name ask) :=
  .bind (.see _) fun x => by
    cases x.table.get? name with
    | some c => exact .pure _
    | none =>
      cases x.inner with
      | some l => exact hask l name
      | none => exact .pure _

theorem collaborator (c : ClassId) : Within R c.collaborator := .see _

theorem context (c : ClassId) : Within R c.context :=
  .bind (.see _) fun _ => .bind (collaborator c) fun _ => .pure _

variable (h : Finding R)
include h

theorem load (l : LoaderId) (name : String) : Within R (Loader.load l name) :=
  .bind (h.loaderLookup l name) fun
    | some _ => .pure _
    | none => .bind (h.log _) fun _ => h.standIn l name

theorem directoryLookup (d : DirectoryId) (name : String) : Within R (Directory.lookup d name) :=
  .bind (h.onDirectory d _) fun _ => answer d name h.loaderLookup

theorem directoryLookupDefault (d : DirectoryId) (name : String) : Within R (Directory.lookupDefault d name) :=
  .bind (.see _) fun x => by
    split
    · exact .bind (h.onDirectory d _) fun _ => answer d name h.loaderLookupDefault
    · exact h.directoryLookup d name

theorem directoryPlaceholder (d : DirectoryId) (name : String) : Within R (Directory.placeholder d name) :=
  .bind (.see _) fun x => by
    split
    · refine .bind (h.onDirectory d _) fun _ => ?_
      cases x.inner with
      | some l => exact .bind (h.standIn l name) fun _ => .pure _
      | none => exact .pure _
    · exact .pure _

theorem lookup (name : String) : ∀ k : Collaborator, Within R (k.lookup name)
  | .loader l => h.loaderLookup l name
  | .directory d => h.directoryLookup d name

theorem lookupDefault (name : String) : ∀ k : Collaborator, Within R (k.lookupDefault name)
  | .loader l => h.loaderLookupDefault l name
  | .directory d => h.directoryLookupDefault d name

theorem collaboratorPlaceholder (name : String) : ∀ k : Collaborator, Within R (k.placeholder name)
  | .loader l => .map some (h.standIn l name)
  | .directory d => h.directoryPlaceholder d name

theorem contextResolve (x : Context) (name : String) : Within R (x.resolve name) := by
  unfold Context.resolve
  cases x.lookup with
  | none => exact .pure none
  | some k =>
    have hprobe (name : String) : Within R (Context.probe k name) := .bind (h.log _) fun _ => h.lookup name k
    have hfall (name : String) : Within R (Context.fallBack k name) := .bind (h.log _) fun _ => h.lookupDefault name k
    unfold resolveWith
    refine .bind (hprobe _) fun
      | some _ => .pure _
      | none => .bind (.see _) fun imports => ?_
    refine .bind (.firstHit hprobe _) fun
      | some _ => .pure _
      | none => hfall name

/-- The settings of a stand-in are those of the class that missed the name. -/
theorem placeholder (c : ClassId) (name : String) : Within R (c.placeholder name) := fun w => by
  have hstray (lookup : Option Collaborator) (w₁ : World) (hw : w.Keeps w₁) :
      R w₁ (Step.addNode (Loader.standIn name lookup (w.node c).settings) w₁).2 := by
    obtain ⟨d, hd⟩ := exists_settings hw c
    rw [← hd]
    exact h.stray w₁ name lookup d
  rw [classPlaceholder_run]
  cases w.collaborator? c with
  | none => exact hstray _ w (.refl w)
  | some k =>
    have hshared := h.collaboratorPlaceholder name k w
    have hbind (f : Option ClassId → Step ClassId) : (k.placeholder name >>= f) w =
        f (k.placeholder name w).1 (k.placeholder name w).2 := rfl
    dsimp only
    rw [hbind]
    cases (k.placeholder name w).1 with
    | some d => exact hshared
    | none => exact trans_of R hshared (hstray (w.node c).lookup _ (h.keeps hshared))

omit [IsPreorder World R] in
theorem detachedStandIn (name : String) : Within R (ClassModel.detachedStandIn name) := fun w => by
  have hd : Settings.standard = (w.node w.nextClass).settings := by
    rw [show w.node w.nextClass = default from Store.get_of_size_le _ (Nat.le_refl _)]; rfl
  unfold ClassModel.detachedStandIn
  rw [hd]
  exact h.stray w name none w.nextClass

theorem missed (name : String) (c : ClassId) : Within R (RefId.missed name c) :=
  .bind (.see _) fun _ => .bind (h.log _) fun _ => h.placeholder c name

theorem orMissed (name : String) (c : ClassId) (found : Option ClassId) : Within R (match found with
    | some d => Pure.pure d
    | none => RefId.missed name c : Step ClassId) := by
  cases found with
  | some d => exact .pure d
  | none => exact h.missed name c

theorem findQualified (name : String) (c : ClassId) : Within R (RefId.findQualified name c) :=
  .bind (.see _) fun alive => by
    split
    · refine .bind (collaborator c) fun k => ?_
      cases k with
      | none => exact .bind (.pure none) (h.orMissed name c)
      | some k => exact .bind (h.log _) fun _ => .bind (h.lookup name k) (h.orMissed name c)
    · exact h.detachedStandIn name

theorem findUnqualified (name : String) (c : ClassId) : Within R (RefId.findUnqualified name c) :=
  .bind (.see _) fun alive => by
    split
    · refine .bind (context c) fun x => .bind (h.contextResolve x name) fun
        | some _ => .pure _
        | none => h.missed name c
    · exact h.detachedStandIn name

theorem orPlaceholder (c : ClassId) (name : String) (found : Option ClassId) : Within R (match found with
    | some d => Pure.pure d
    | none => c.placeholder name : Step ClassId) := by
  cases found with
  | some d => exact .pure d
  | none => exact h.placeholder c name

theorem forName (c : ClassId) (name : String) : Within R (c.forName name) :=
  .bind (collaborator c) fun k => by
    cases k with
    | some k => exact .bind (h.lookup name k) (h.orPlaceholder c name)
    | none => exact .bind (.pure none) (h.orPlaceholder c name)

end

end Finding

namespace Builds

theorem finding : Finding Builds where
  keeps h := h.keeps
  log := log
  loaderLookup := loaderLookup
  loaderLookupDefault := loaderLookupDefault
  standIn := standIn
  onDirectory := onDirectory
  stray w name lookup d := (Move.stray w name lookup d).builds (.ofSame rfl)

end Builds

/-! ## Restoring -/

def Edit.Removes : Edit → Prop
  | .onClass _ (.removeField _) | .onClass _ (.removeMethod _) | .onClass _ (.removeConstructor _)
  | .onMethod _ (.parameters (.remove _)) | .onConstructor _ (.parameters (.remove _)) => True
  | _ => False

def Edit.direct? : Edit → Option ClassId
  | .onClass _ (.setSuperclassClass d) | .onClass _ (.addInterfaceClass d) | .onField _ (.setTypeClass d) => some d
  | _ => none

structure Edit.Rebuilds (e : Edit) : Prop where
  removes : ¬ e.Removes
  direct : e.direct? = none

/-- What snapshots are restored by leads to related worlds. -/
structure Rebuilding (R : World → World → Prop) : Prop where
  make : ∀ settings, Within R (Loader.make settings [])
  define : ∀ l package simpleName imports, Within R (Loader.define l package simpleName imports)
  edit : ∀ e : Edit, e.Rebuilds → Within R e.apply
  log : ∀ e, Within R (Step.log e)

namespace Rebuilding

section
variable {R : World → World → Prop} [IsPreorder World R]

theorem parseImports (texts : List String) : Within R (Snapshot.parseImports texts) := by
  unfold Snapshot.parseImports
  cases Import.parseAll texts with
  | ok is => exact .accept is
  | error e => exact .refuse _

theorem restoreEach {restore : α → Change Unit} (h : ∀ x, Within R (restore x)) (xs : List α) :
    Within R (Snapshot.restoreEach restore xs) := by
  induction xs with
  | nil => exact .accept ()
  | cons x xs ih => exact .bindChange (h x) fun _ => ih

variable (h : Rebuilding R)
include h

theorem defineEach (l : LoaderId) (xs : List ClassSnapshot) : Within R (Snapshot.defineEach l xs) := by
  induction xs with
  | nil => exact .accept []
  | cons x xs ih =>
    exact .bindChange (parseImports _) fun _ => .bindChange (h.define l _ _ _) fun _ => .bindChange ih fun _ =>
      .accept _

theorem editEach (c : ClassId) {es : List ClassEdit} (hes : ∀ e ∈ es, (Edit.onClass c e).Rebuilds) :
    Within R (ClassModel.editEach c es) := by
  induction es with
  | nil => exact .accept ()
  | cons e es ih =>
    obtain ⟨he, hes⟩ := List.forall_mem_cons.mp hes
    exact .bindChange (h.edit (.onClass c e) he) fun _ => ih hes

theorem restoreField (c : ClassId) (x : FieldSnapshot) : Within R (Snapshot.restoreField c x) :=
  .bindChange (h.edit (.onClass c .addField) ⟨id, rfl⟩) fun
    | .field f => .bindChange (h.edit (.onField f (.setName _)) ⟨id, rfl⟩) fun _ =>
        .bindChange (h.edit (.onField f (.setModifiers _)) ⟨id, rfl⟩) fun _ =>
          .bindChange (h.edit (.onField f x.type.fieldEdit) ⟨id, by cases x.type <;> rfl⟩) fun _ => .accept ()
    | .nothing | .method _ | .constructor _ | .parameter _ => .accept ()

theorem restoreMethodParameters (m : MethodId) (ps : List ParameterSnapshot) :
    Within R (Snapshot.restoreMethodParameters m ps) := by
  induction ps with
  | nil => exact .accept ()
  | cons p ps ih =>
    refine .bindChange (h.edit (.onMethod m (.parameters p.edit)) ⟨?_, rfl⟩) fun _ => ih
    unfold ParameterSnapshot.edit
    cases p.type <;> exact id

theorem restoreMethod (c : ClassId) (x : MethodSnapshot) : Within R (Snapshot.restoreMethod c x) :=
  .bindChange (h.edit (.onClass c .addMethod) ⟨id, rfl⟩) fun
    | .method m => .bindChange (h.edit (.onMethod m (.setName _)) ⟨id, rfl⟩) fun _ =>
        .bindChange (h.edit (.onMethod m (.setModifiers _)) ⟨id, rfl⟩) fun _ =>
          .bindChange (h.edit (.onMethod m x.returnType.returnEdit) ⟨by cases x.returnType <;> exact id, rfl⟩) fun _ =>
            restoreMethodParameters h m _
    | .nothing | .field _ | .constructor _ | .parameter _ => .accept ()

theorem restoreConstructorParameters (k : ConstructorId) (ps : List ParameterSnapshot) :
    Within R (Snapshot.restoreConstructorParameters k ps) := by
  induction ps with
  | nil => exact .accept ()
  | cons p ps ih =>
    refine .bindChange (h.edit (.onConstructor k (.parameters p.edit)) ⟨?_, rfl⟩) fun _ => ih
    unfold ParameterSnapshot.edit
    cases p.type <;> exact id

theorem restoreConstructor (c : ClassId) (x : ConstructorSnapshot) : Within R (Snapshot.restoreConstructor c x) :=
  .bindChange (h.edit (.onClass c .addConstructor) ⟨id, rfl⟩) fun
    | .constructor k => .bindChange (h.edit (.onConstructor k (.setModifiers _)) ⟨id, rfl⟩) fun _ =>
        restoreConstructorParameters h k _
    | .nothing | .field _ | .method _ | .parameter _ => .accept ()

theorem restoreClass (x : ClassSnapshot) (c : ClassId) : Within R (Snapshot.restoreClass x c) := by
  have hsuper : ∀ e ∈ x.superclass.toList.map RefSnapshot.superclassEdit, (Edit.onClass c e).Rebuilds :=
    List.forall_mem_map.mpr fun r _ => by cases r <;> exact ⟨id, rfl⟩
  have hinterfaces : ∀ e ∈ x.interfaces.map RefSnapshot.interfaceEdit, (Edit.onClass c e).Rebuilds :=
    List.forall_mem_map.mpr fun r _ => by cases r <;> exact ⟨id, rfl⟩
  have hmodifiers (m : Modifiers) : (Edit.onClass c (.setModifiers m)).Rebuilds := ⟨id, rfl⟩
  have hinterface (b : Bool) : (Edit.onClass c (.setInterface b)).Rebuilds := ⟨id, rfl⟩
  have hannotation (b : Bool) : (Edit.onClass c (.setAnnotationType b)).Rebuilds := ⟨id, rfl⟩
  have hunresolved (b : Bool) : (Edit.onClass c (.setUnresolved b)).Rebuilds := ⟨id, rfl⟩
  exact .bindChange (h.editEach c (by simp [hmodifiers, hinterface, hannotation])) fun _ =>
    .bindChange (h.editEach c hsuper) fun _ => .bindChange (h.editEach c hinterfaces) fun _ =>
      .bindChange (restoreEach (h.restoreField c) _) fun _ => .bindChange (restoreEach (h.restoreMethod c) _) fun _ =>
        .bindChange (restoreEach (h.restoreConstructor c) _) fun _ => h.editEach c (by simp [hunresolved])

theorem restore (settings : Settings) (s : Snapshot) : Within R (s.restore settings) := by
  unfold Snapshot.restore
  refine .bindChange (h.make settings) fun l => .bindChange (h.defineEach l _) fun cs => .bindChange ?_ fun _ => ?_
  · refine restoreEach ?_ _
    rintro ⟨x, c⟩
    exact h.restoreClass x c
  · exact .bindChange (.of (h.log _)) fun _ => .accept l

end

end Rebuilding

namespace Builds

theorem restore (settings : Settings) (s : Snapshot) : Within Builds (s.restore settings) :=
  Rebuilding.restore ⟨fun settings => make settings [], define, fun e _ => edit e, log⟩ settings s

end Builds

end ClassModel
