import ClassModel.Proofs.Graph.Observations

/-!
# What walks resolve

All that a walk for members does to a world is to resolve references, one after the other. The plain walk and
the guarded one come by the same classes, but the guarded one asks an interface for its superclass as well,
before it sees that an interface does not inherit from it.
-/

namespace ClassModel

open Relation

namespace World

/-! ## Stand-ins that are made on the way -/

def HasStandIn (w : World) (l : LoaderId) (name : String) : Prop :=
  ((w.loader l).placeholders.get? name).isSome = true

def Lacks (w : World) (l : LoaderId) (name : String) : Target → Prop
  | .direct _ => False
  | .qualified text c => w.isAlive (.node c) ∧ w.collaborator? c = some (.loader l) ∧ text = name ∧
      (w.loader l).cached? text = none
  | .unqualified text c => w.isAlive (.node c) ∧ w.collaborator? c = some (.loader l) ∧ text = name ∧
      w.foundUnqualified? c text (.loader l) = none

structure Lent (w w' : World) (P : LoaderId → String → Prop) : Prop where
  references : w'.references = w.references
  size : w'.loaders.size = w.loaders.size
  standIns : ∀ l name, l.index < w.loaders.size → (w'.HasStandIn l name ↔ w.HasStandIn l name ∨ P l name)

section
variable {w w₀ : World} {c : ClassId} {name : String} {P : LoaderId → String → Prop}

theorem Lent.none (hP : ∀ l name, ¬ P l name) (log : List Log.Event) : w.Lent { w with log := log } P :=
  ⟨rfl, rfl, fun l name _ => (or_iff_left (hP l name)).symm⟩

theorem Lent.stray (hP : ∀ l name, ¬ P l name) (n : ClassNode) (log : List Log.Event) :
    w.Lent ({ w with log := log }.withNode n) P :=
  ⟨rfl, rfl, fun l name _ => (or_iff_left (hP l name)).symm⟩

theorem loaderPlaceholder_lent (w : World) (l : LoaderId) (name : String) :
    w.Lent (Loader.placeholder l name w).2 fun k other => k = l ∧ other = name := by
  rw [placeholder_run]
  cases hp : (w.loader l).placeholders.get? name with
  | some d =>
    refine ⟨rfl, rfl, fun k other _ => (or_iff_left_of_imp ?_).symm⟩
    rintro ⟨rfl, rfl⟩
    exact Option.isSome_of_eq_some hp
  | none =>
    refine ⟨rfl, Store.size_modify _ _ _, fun k other hk => ?_⟩
    unfold HasStandIn
    dsimp only
    by_cases hkl : k = l
    · subst hkl
      rw [loader_editLoader_self (w := w.withNode _) hk]
      dsimp only
      by_cases ho : other = name
      · subst ho
        simp [Registry.get?_insert_self]
      · rw [Registry.get?_insert_of_ne _ ho]
        simp only [ho, and_false, or_false]
        rfl
    · rw [(w.withNode _).loader_editLoader_of_ne hkl]
      simp only [hkl, false_and, or_false]
      rfl

theorem placeholder_lent (hu : w.Unsourced c) (name : String) : Leaves (c.placeholder name) w fun _ w' =>
    w.Lent w' fun l other => w.collaborator? c = some (.loader l) ∧ other = name := fun log => by
  rw [classPlaceholder_run, show ({ w with log := log } : World).collaborator? c = w.collaborator? c from rfl]
  cases hk : w.collaborator? c with
  | none => exact .stray (fun _ _ h => by cases h.1) _ log
  | some k =>
    obtain ⟨l, rfl, -⟩ := hu k hk
    have h := loaderPlaceholder_lent { w with log := log } l name
    refine ⟨h.references, h.size, fun k other hk' => (h.standIns k other hk').trans (or_congr_right ?_)⟩
    simp [eq_comm]

theorem orMissed_lent (hu : w.Unsourced c) {s : Step (Option ClassId)} {find : Collaborator → Option ClassId}
    (hfind : Says s w ((w.collaborator? c).bind find)) :
    Leaves (do match ← s with
      | some d => return d
      | none => RefId.missed name c) w fun _ w' =>
        w.Lent w' fun l text => w.collaborator? c = some (.loader l) ∧ name = text ∧ find (.loader l) = none := by
  refine .after hfind ?_
  cases hd : (w.collaborator? c).bind find with
  | some d =>
    refine .pure (.none ?_)
    rintro l text ⟨hk, -, hnone⟩
    rw [hk, Option.bind_some, hnone] at hd
    cases hd
  | none =>
    refine missed_leaves fun log => ?_
    obtain ⟨hrefs, hsize, hstandIns⟩ := placeholder_lent hu name log
    refine ⟨hrefs, hsize, fun l text hl => (hstandIns l text hl).trans (or_congr_right (and_congr_right fun hk => ?_))⟩
    rw [hk, Option.bind_some] at hd
    simp [hd, eq_comm]

theorem Lent.congr {w' : World} {Q : LoaderId → String → Prop} (h : w.Lent w' P) (hPQ : ∀ l name, P l name ↔ Q l name) :
    w.Lent w' Q := ⟨h.references, h.size, fun l name hl => (h.standIns l name hl).trans (or_congr_right (hPQ l name))⟩

theorem findQualified_lent (hu : w.Unsourced c) (name : String) : Leaves (RefId.findQualified name c) w fun _ w' =>
    w.Lent w' fun l text => w.Lacks l text (.qualified name c) := by
  refine .after (.see (a := w.isAlive (.node c)) fun _ => rfl) ?_
  by_cases halive : w.isAlive (.node c)
  · rw [if_pos halive]
    refine .after (.see (a := w.collaborator? c) fun _ => rfl) ?_
    have hor (s : Step (Option ClassId)) (hs : Says s w ((w.collaborator? c).bind (w.found? name))) :
        Leaves (do match ← s with
          | some d => return d
          | none => RefId.missed name c) w fun _ w' =>
            w.Lent w' fun l text => w.Lacks l text (.qualified name c) :=
      fun log => (orMissed_lent hu hs log).congr fun l text => by simp [Lacks, halive, found?]
    cases hk : w.collaborator? c with
    | none => exact hor _ (by rw [hk]; exact .pure none)
    | some k =>
      obtain ⟨l, rfl, hl⟩ := hu k hk
      refine hor (do Step.log _; Collaborator.lookup (.loader l) name) ?_
      rw [hk]
      exact .bind (.log _) (.loaderLookup hl name)
  · rw [if_neg halive]
    exact fun log => .stray (fun l text h => halive h.1) _ log

theorem findUnqualified_lent (hu : w.Unsourced c) (name : String) : Leaves (RefId.findUnqualified name c) w fun _ w' =>
    w.Lent w' fun l text => w.Lacks l text (.unqualified name c) := by
  refine .after (.see (a := w.isAlive (.node c)) fun _ => rfl) ?_
  by_cases halive : w.isAlive (.node c)
  · rw [if_pos halive]
    have hs : Says (do (← c.context).resolve name) w ((w.collaborator? c).bind (w.foundUnqualified? c name)) := by
      cases hk : w.collaborator? c with
      | none =>
        have hcontext : Says c.context w ⟨(w.node c).package, fun w => (w.node c).imports, none⟩ :=
          .bind (.see fun _ => rfl) (.bind (.see fun _ => hk) (.pure _))
        exact .bind hcontext (.pure none)
      | some k => exact .contextResolve hk (hu k hk) name
    exact fun log => (orMissed_lent hu hs log).congr fun l text => by simp [Lacks, halive]
  · rw [if_neg halive]
    exact fun log => .stray (fun l text h => halive h.1) _ log

structure Resolved (w w' : World) (resolved : RefId → Prop) (lent : LoaderId → String → Prop) : Prop where
  size : w'.loaders.size = w.loaders.size
  known : ∀ r, (w'.reference r).known?.isSome = true ↔ (w.reference r).known?.isSome = true ∨ resolved r
  standIns : ∀ l name, l.index < w.loaders.size → (w'.HasStandIn l name ↔ w.HasStandIn l name ∨ lent l name)

theorem lt_of_unknown {r : RefId} (hk : (w.reference r).known? = none) : r.index < w.references.size := by
  by_contra hlt
  rw [show w.reference r = default from Store.get_of_size_le _ (Nat.not_lt.mp hlt)] at hk
  cases hk

theorem remember_resolved {w' : World} {r : RefId} (h : w.Lent w' P)
    (hk : (w.reference r).known? = none) (d : ClassId) :
    w.Resolved (r.remember d w').2 (· = r) P := by
  have hrefs (q : RefId) : w'.reference q = w.reference q := by unfold World.reference; rw [h.references]
  refine ⟨h.size, fun q => ?_, h.standIns⟩
  rw [show (r.remember d w').2 = w'.editReference r fun x => { x with memo := some d } from rfl, reference_remember,
    hrefs]
  have hlt := lt_of_unknown hk
  by_cases hq : q = r
  · subst hq
    rw [if_pos ⟨rfl, by rw [h.references]; exact hlt⟩]
    simp only [or_true, iff_true]
    unfold Reference.known?
    cases (w.reference q).target <;> rfl
  · rw [if_neg (fun h => hq h.1.symm)]
    simp [hq]

theorem resolve_resolved {r : RefId} (hr : w.Settles r) : w.Resolved (r.resolve w).2 (· = r) fun l name =>
    (w.reference r).known? = none ∧ w.Lacks l name (w.reference r).target := by
  rw [resolve_run]
  cases hk : (w.reference r).known? with
  | some d =>
    refine ⟨rfl, fun q => (or_iff_left_of_imp ?_).symm, fun l name _ => by simp⟩
    rintro rfl
    rw [hk]
    rfl
  | none =>
    simp only [true_and]
    cases ht : (w.reference r).target with
    | direct c => unfold Reference.known? at hk; rw [ht] at hk; cases hk
    | qualified name c => exact remember_resolved (findQualified_lent (hr name c (.inl ht)).2 name w.log) hk _
    | unqualified name c => exact remember_resolved (findUnqualified_lent (hr name c (.inr ht)).2 name w.log) hk _

theorem Settled.lacks (h : w₀.Settled w) {r : RefId} (hr : w₀.Settles r) (l : LoaderId) (name : String) :
    w.Lacks l name (w.reference r).target ↔ w₀.Lacks l name (w₀.reference r).target := by
  rw [h.targets r]
  cases ht : (w₀.reference r).target with
  | direct c => rfl
  | qualified text c =>
    have hc := (hr text c (.inl ht)).1
    unfold Lacks
    dsimp only
    rw [h.isAlive, h.collaborator? hc, show (w.loader l).cached? text = (w₀.loader l).cached? text from
      h.found? text (.loader l)]
  | unqualified text c =>
    have hc := (hr text c (.inr ht)).1
    unfold Lacks
    dsimp only
    rw [h.isAlive, h.collaborator? hc, h.foundUnqualified? hc]

theorem resolveAll_resolved : ∀ {rs : List RefId} {w : World}, (∀ r ∈ rs, w.Settles r) →
    w.Resolved (RefId.resolveAll rs w).2 (· ∈ rs) fun l name =>
      ∃ r ∈ rs, (w.reference r).known? = none ∧ w.Lacks l name (w.reference r).target
  | [], w, _ => ⟨rfl, fun r => by simp [show RefId.resolveAll [] w = ([], w) from rfl],
    fun l name _ => by simp [show RefId.resolveAll [] w = ([], w) from rfl]⟩
  | r :: rs, w, h => by
    obtain ⟨hr, hrs⟩ := List.forall_mem_cons.mp h
    have hfirst := resolve_resolved hr
    have hsettled := (Brings.resolve (.refl w) hr).settled
    have hrest := resolveAll_resolved fun q hq => hsettled.settles (hrs q hq)
    rw [show (RefId.resolveAll (r :: rs) w).2 = (RefId.resolveAll rs (r.resolve w).2).2 from rfl]
    refine ⟨hrest.size.trans hfirst.size, fun q => ?_, fun l name hl => ?_⟩
    · rw [hrest.known, hfirst.known, List.mem_cons, or_assoc]
    · rw [hrest.standIns l name (hfirst.size ▸ hl), hfirst.standIns l name hl]
      -- If it is listed again, it is not resolved again.
      have hunknown (q : RefId) : ((r.resolve w).2.reference q).known? = none ↔
          (w.reference q).known? = none ∧ q ≠ r := by
        rw [← Option.not_isSome_iff_eq_none, ← Option.not_isSome_iff_eq_none, hfirst.known, not_or]
      rw [or_assoc]
      refine or_congr_right ⟨?_, ?_⟩
      · rintro (⟨hk, hlacks⟩ | ⟨q, hq, hk, hlacks⟩)
        · exact ⟨r, List.mem_cons_self, hk, hlacks⟩
        · exact ⟨q, List.mem_cons_of_mem _ hq, ((hunknown q).mp hk).1, (hsettled.lacks (hrs q hq) l name).mp hlacks⟩
      · rintro ⟨q, hq, hk, hlacks⟩
        by_cases hqr : q = r
        · subst hqr
          exact .inl ⟨hk, hlacks⟩
        · have hq := (List.mem_cons.mp hq).resolve_left hqr
          exact .inr ⟨q, hq, (hunknown q).mpr ⟨hk, hqr⟩, (hsettled.lacks (hrs q hq) l name).mpr hlacks⟩

end

/-! ## Trails -/

def shownInterfaces (w : World) : Lead → List RefId
  | .known c => (w.node c).interfaceRefs
  | .missing _ => []

def shownSuperclass (w : World) : Lead → List RefId
  | .known c => (w.node c).superclassRef.toList
  | .missing _ => []

/-- The references that a walk resolves, in order. The guarded walk asks interfaces for their superclasses. -/
def trail (w : World) (guarded : Bool) : Nat → Lead → List RefId
  | 0, _ => []
  | depth + 1, x =>
    w.shownInterfaces x ++ ((w.interfaceLeads x).flatMap (w.trail guarded depth) ++
      if w.interfaceAt x then (if guarded then w.shownSuperclass x else [])
      else w.shownSuperclass x ++ (w.superclassLead x).toList.flatMap (w.trail guarded depth))

/-- If the walk ends, it has brought out where these references lead by resolving them in order. -/
def Trails (w₀ w : World) (rs : List RefId) (R : World → α → Prop) (x : Option (α × World)) : Prop :=
  ∀ a w', x = some (a, w') → w₀.Settled w' ∧ w.nodes.Extends w'.nodes ∧ w' = (RefId.resolveAll rs w).2 ∧ R w' a

theorem resolveAll_append : ∀ (rs rs' : List RefId) (w : World),
    (RefId.resolveAll (rs ++ rs') w).2 = (RefId.resolveAll rs' (RefId.resolveAll rs w).2).2
  | [], _, _ => rfl
  | r :: rs, rs', w => resolveAll_append rs rs' (r.resolve w).2

namespace Trails

variable {w₀ w : World} {rs rs' : List RefId}

theorem pure (h : w₀.Settled w) {R : World → α → Prop} {a : α} (hR : R w a) :
    Trails w₀ w [] R ((Pure.pure a : Bounded α) w) := by
  rintro _ _ ⟨⟩
  exact ⟨h, .refl _, rfl, hR⟩

theorem bind {s : Bounded α} {f : α → Bounded β} {R : World → α → Prop} {Q : World → β → Prop}
    (hs : Trails w₀ w rs R (s w))
    (hf : ∀ a w', w₀.Settled w' → w.nodes.Extends w'.nodes → R w' a → Trails w₀ w' rs' Q (f a w')) :
    Trails w₀ w (rs ++ rs') Q ((s >>= f) w) := by
  intro b v h
  rw [Bounded.bind_run] at h
  obtain ⟨⟨a, w'⟩, ha, hb⟩ := Option.bind_eq_some_iff.mp h
  obtain ⟨hw', hn, hrun, hR⟩ := hs a w' ha
  obtain ⟨hv, hn', hrun', hQ⟩ := hf a w' hw' hn hR b v hb
  exact ⟨hv, hn.trans hn', by rw [resolveAll_append, ← hrun, hrun'], hQ⟩

theorem of {s : Step α} {R : World → α → Prop} (hs : Brings w₀ s w R) (hrun : (s w).2 = (RefId.resolveAll rs w).2) :
    Trails w₀ w rs R (Bounded.of s w) := by
  intro a w' h
  have h : s w = (a, w') := Option.some.inj h
  have hsettled := hs.settled
  have hnodes := hs.nodes
  have hresult := hs.result
  rw [h] at hsettled hnodes hrun hresult
  exact ⟨hsettled, hnodes, hrun, hresult⟩

theorem map {s : Bounded α} (f : α → β) {R : World → α → Prop} (hs : Trails w₀ w rs R (s w)) :
    Trails w₀ w rs (fun _ _ => True) ((s >>= fun a => Pure.pure (f a)) w) := by
  rw [← List.append_nil rs]
  exact hs.bind fun a w' hw' _ _ => .pure hw' trivial

theorem see {f : World → α} {g : α → Bounded β} {Q : World → β → Prop} (h : Trails w₀ w rs Q (g (f w) w)) :
    Trails w₀ w rs Q ((Bounded.see f >>= g) w) := h

end Trails

section
variable {w₀ w : World} {S : Lead → Prop} {x : Lead} {c : ClassId}

section
variable (hS : w₀.Region S) (h : w₀.Settled w) (hx : S x) (hc : w₀.LeadsTo w x c)
include hS h hx hc

theorem Region.shown : (w.node c).interfaceRefs = w₀.shownInterfaces x ∧
    (w.node c).superclassRef.toList = w₀.shownSuperclass x := by
  cases x with
  | known d => cases hc; rw [h.node (hS.lt c hx)]; exact ⟨rfl, rfl⟩
  | missing name =>
    obtain ⟨-, -, lookup, settings, hn⟩ := hc
    rw [hn]; exact ⟨rfl, rfl⟩

theorem Region.interfaces_trails : Trails w₀ w (w₀.shownInterfaces x)
    (fun w' cs => List.Forall₂ (w₀.LeadsTo w') (w₀.interfaceLeads x) cs) (Bounded.of c.interfaces w) := by
  refine .of (hS.interfaces h hx hc) ?_
  rw [← (hS.shown h hx hc).1]
  rfl

theorem Region.superclass_trails : Trails w₀ w (w₀.shownSuperclass x)
    (fun w' d => Option.Rel (w₀.LeadsTo w') (w₀.superclassLead x) d) (Bounded.of c.superclass w) := by
  refine .of (hS.superclass h hx hc) ?_
  rw [← (hS.shown h hx hc).2, superclass_run]
  cases (w.node c).superclassRef <;> rfl

end

theorem collectEach_trails {walk : ClassId → Bounded (List Member)} {f : Lead → List RefId} {xs : List Lead}
    (h : ∀ x ∈ xs, ∀ c w, w₀.Settled w → w₀.LeadsTo w x c → Trails w₀ w (f x) (fun _ _ => True) (walk c w)) :
    ∀ {cs : List ClassId} {w : World}, w₀.Settled w → List.Forall₂ (w₀.LeadsTo w) xs cs →
      Trails w₀ w (xs.flatMap f) (fun _ _ => True) (collectEach walk cs w) := by
  induction xs with
  | nil => intro cs w hw hcs; cases hcs; exact .pure hw trivial
  | cons x xs ih =>
    intro cs w hw hcs
    obtain ⟨hx, hxs⟩ := List.forall_mem_cons.mp h
    cases hcs with
    | cons hc hcs =>
      rw [List.flatMap_cons]
      exact (hx _ w hw hc).bind fun ms w₁ hw₁ hn₁ _ => (ih hxs hw₁ (hcs.imp fun _ _ hl => hl.mono hn₁)).map _

theorem flattenWithin_trails (hS : w₀.Region S) (kind : MemberKind) (depth : Nat) :
    ∀ (x : Lead) (c : ClassId) (w : World), S x → w₀.Settled w → w₀.LeadsTo w x c →
      Trails w₀ w (w₀.trail false depth x) (fun _ _ => True) (flattenWithin kind depth c w) := by
  induction depth with
  | zero => intro _ _ _ _ _ _ _ _ h; cases h
  | succ depth ih =>
    intro x c w hx hw hc
    have hclosed := hS.closed x hx
    unfold flattenWithin trail
    refine .see ((hS.interfaces_trails hw hx hc).bind fun cs w₁ hw₁ hn₁ hcs => ?_)
    refine (collectEach_trails (fun y hy d w hw hd =>
      ih y d w (hclosed y (List.mem_append_left _ hy)) hw hd) hw₁ hcs).bind fun ms w₂ hw₂ hn₂ _ => ?_
    have hc₂ := (hc.mono hn₁).mono hn₂
    refine .see ?_
    rw [hS.isInterface hw₂ hx hc₂]
    cases w₀.interfaceAt x with
    | true => exact .pure hw₂ trivial
    | false =>
      refine (hS.superclass_trails hw₂ hx hc₂).bind fun d w₃ hw₃ hn₃ hd => ?_
      cases hsuper : w₀.superclassLead x with
      | none =>
        rw [hsuper] at hd; cases hd
        exact .pure hw₃ trivial
      | some y =>
        rw [hsuper] at hd
        cases hd with
        | some hd =>
          have hy : S y := hclosed y (mem_supers_of_superclass hsuper)
          rw [Option.toList_some, List.flatMap_singleton]
          exact (ih y _ w₃ hy hw₃ hd).map _

end

end World

/-! ### The guarded walk -/

def Guarded.granted (s : Guarded α) : Bounded α := fun w =>
  match s.run w with
  | some (.ok a, w') => some (a, w')
  | _ => none

namespace Guarded

theorem granted_eq_some {s : Guarded α} {w w' : World} {a : α} :
    s.granted w = some (a, w') ↔ s.run w = some (.ok a, w') := by
  unfold granted
  rcases s.run w with _ | ⟨_ | _, _⟩ <;> simp

theorem granted_bind (s : Guarded α) (f : α → Guarded β) :
    (s >>= f).granted = s.granted >>= fun a => (f a).granted := by
  funext w
  rw [Bounded.bind_run]
  unfold granted
  rw [Guarded.bind_run]
  rcases s.run w with _ | ⟨_ | _, _⟩ <;> rfl

theorem granted_of (s : Step α) : (of s).granted = Bounded.of s := rfl

theorem granted_pure (a : α) : (pure a : Guarded α).granted = pure a := rfl

theorem granted_collectEach (walk : ClassId → Guarded (List α)) : ∀ cs : List ClassId,
    (collectEach walk cs).granted = collectEach (fun c => (walk c).granted) cs
  | [] => rfl
  | c :: cs => by
    unfold collectEach
    simp only [granted_bind, granted_pure, granted_collectEach walk cs]

end Guarded

namespace World

section
variable {w₀ w : World} {S : Lead → Prop} {x : Lead} {c : ClassId}

theorem flattenBelow_trails (hS : w₀.Region S) (kind : MemberKind) (depth : Nat) :
    ∀ (above : List ClassId) (x : Lead) (c : ClassId) (w : World), S x → w₀.Settled w → w₀.LeadsTo w x c →
      Trails w₀ w (w₀.trail true depth x) (fun _ _ => True) ((flattenBelow kind depth above c).granted w) := by
  induction depth with
  | zero => intro _ _ _ _ _ _ _ _ _ h; cases h
  | succ depth ih =>
    intro above x c w hx hw hc
    have hclosed := hS.closed x hx
    unfold flattenBelow trail
    by_cases hcircle : above.contains c
    · rw [if_pos hcircle]
      intro _ _ h
      cases h
    · rw [if_neg hcircle]
      simp only [Guarded.granted_bind, Guarded.granted_collectEach, Guarded.granted_of, Guarded.see]
      refine .see ((hS.interfaces_trails hw hx hc).bind fun cs w₁ hw₁ hn₁ hcs => ?_)
      refine (collectEach_trails (fun y hy d w hw hd =>
        ih (c :: above) y d w (hclosed y (List.mem_append_left _ hy)) hw hd) hw₁ hcs).bind fun ms w₂ hw₂ hn₂ _ => ?_
      have hc₂ := (hc.mono hn₁).mono hn₂
      have hsuperclass := hS.superclass_trails hw₂ hx hc₂
      cases hi : w₀.interfaceAt x with
      | true =>
        -- The superclass is asked for, but the walk does not go on to it.
        show Trails w₀ w₂ (w₀.shownSuperclass x) _ _
        rw [← List.append_nil (w₀.shownSuperclass x)]
        refine hsuperclass.bind fun d w₃ hw₃ hn₃ _ => .see ?_
        rw [hS.isInterface hw₃ hx (hc₂.mono hn₃), hi]
        cases d <;> exact .pure hw₃ trivial
      | false =>
        refine hsuperclass.bind fun d w₃ hw₃ hn₃ hd => .see ?_
        rw [hS.isInterface hw₃ hx (hc₂.mono hn₃), hi]
        cases hsuper : w₀.superclassLead x with
        | none =>
          rw [hsuper] at hd; cases hd
          exact .pure hw₃ trivial
        | some y =>
          rw [hsuper] at hd
          cases hd with
          | some hd =>
            have hy : S y := hclosed y (mem_supers_of_superclass hsuper)
            rw [Option.toList_some, List.flatMap_singleton]
            simp only [Guarded.granted_bind, Guarded.granted_pure]
            exact (ih _ y _ w₃ hy hw₃ hd).map _

end

/-! ## What is on a trail -/

def walkedRefs (w : World) (guarded : Bool) (x : Lead) : List RefId :=
  w.shownInterfaces x ++ if w.interfaceAt x && !guarded then [] else w.shownSuperclass x

section
variable {w : World} {guarded : Bool} {depth : Nat} {kind : MemberKind} {x y : Lead} {r : RefId}

theorem trail_succ (w : World) (guarded : Bool) (depth : Nat) (x : Lead) : w.trail guarded (depth + 1) x =
    w.shownInterfaces x ++ ((w.interfaceLeads x).flatMap (w.trail guarded depth) ++
      if w.interfaceAt x then (if guarded then w.shownSuperclass x else [])
      else w.shownSuperclass x ++ (w.superclassLead x).toList.flatMap (w.trail guarded depth)) := rfl

theorem mem_trail_succ : r ∈ w.trail guarded (depth + 1) x ↔
    r ∈ w.walkedRefs guarded x ∨ ∃ y ∈ w.inherited x, r ∈ w.trail guarded depth y := by
  rw [trail_succ]
  unfold walkedRefs inherited supers
  cases w.interfaceAt x <;> cases guarded <;>
    simp only [List.mem_append, List.mem_flatMap, or_and_right, exists_or, Bool.false_eq_true, if_true, if_false,
      Bool.and_true, Bool.and_false, Bool.not_true, Bool.not_false, List.not_mem_nil, or_false] <;>
    grind

theorem exists_of_mem_trail : ∀ {depth : Nat} {x : Lead}, r ∈ w.trail guarded depth x →
    ∃ y, ReflTransGen (fun x y => y ∈ w.inherited x) x y ∧ r ∈ w.walkedRefs guarded y
  | 0, _, h => by cases h
  | depth + 1, x, h => by
    rcases mem_trail_succ.mp h with hx | ⟨y, hy, h⟩
    · exact ⟨x, .refl, hx⟩
    · obtain ⟨z, hyz, hz⟩ := exists_of_mem_trail h
      exact ⟨z, .head hy hyz, hz⟩

/-- A walk that ends has come by everything above. -/
theorem mem_trail_of_gather {own : Lead → List Member} (hxy : ReflTransGen (fun x y => y ∈ w.inherited x) x y)
    (hr : r ∈ w.walkedRefs guarded y) : ∀ {depth : Nat} {ms : List Member},
      Descent.gather w.inherited own depth x = some ms → r ∈ w.trail guarded depth x := by
  induction hxy using ReflTransGen.head_induction_on with
  | refl =>
    intro depth ms h
    cases depth with
    | zero => cases h
    | succ depth => exact mem_trail_succ.mpr (.inl hr)
  | head hy _ ih =>
    intro depth ms h
    cases depth with
    | zero => cases h
    | succ depth =>
      unfold Descent.gather at h
      obtain ⟨found, hfound, -⟩ := Option.map_eq_some_iff.mp h
      obtain ⟨ms', hms'⟩ := Descent.gatherAll_ends hfound _ hy
      exact mem_trail_succ.mpr (.inr ⟨_, hy, ih hms'⟩)

/-- Where interfaces show no superclass that has not been resolved, both trails are the same but for what has been. -/
theorem filter_trail {P : RefId → Bool} {S : Lead → Prop} (hclosed : ∀ x, S x → ∀ y ∈ w.inherited x, S y)
    (hP : ∀ x, S x → w.interfaceAt x = true → ∀ r ∈ w.shownSuperclass x, P r = false) (depth : Nat) :
    ∀ x, S x → (w.trail true depth x).filter P = (w.trail false depth x).filter P := by
  induction depth with
  | zero => intro x _; rfl
  | succ depth ih =>
    intro x hx
    have hbelow {ys : List Lead} (hys : ys ⊆ w.inherited x) :
        (ys.flatMap (w.trail true depth)).filter P = (ys.flatMap (w.trail false depth)).filter P := by
      rw [List.filter_flatMap, List.filter_flatMap]
      exact List.flatMap_congr fun y hy => ih y (hclosed x hx y (hys hy))
    unfold inherited at hbelow
    rw [trail_succ, trail_succ]
    simp only [List.filter_append]
    cases hi : w.interfaceAt x with
    | true =>
      have hnone : (w.shownSuperclass x).filter P = [] := by
        rw [List.filter_eq_nil_iff]
        exact fun r hr => by simp [hP x hx hi r hr]
      rw [hi, if_pos rfl] at hbelow
      simp [hbelow (List.Subset.refl _), hnone]
    | false =>
      rw [hi] at hbelow
      simp only [Bool.false_eq_true, if_false, supers_eq] at hbelow ⊢
      rw [List.filter_append, List.filter_append, hbelow (List.subset_append_left _ _),
        hbelow (List.subset_append_right _ _)]

/-- What has been resolved need not be resolved again. -/
theorem resolveAll_filter {w₀ : World} : ∀ {rs : List RefId} {w : World}, w₀.Settled w → (∀ r ∈ rs, w₀.Settles r) →
    (RefId.resolveAll (rs.filter fun r => (w₀.reference r).known?.isNone) w).2 = (RefId.resolveAll rs w).2
  | [], _, _, _ => rfl
  | r :: rs, w, h, hrs => by
    obtain ⟨hr, hrs⟩ := List.forall_mem_cons.mp hrs
    rw [List.filter_cons]
    cases hk : (w₀.reference r).known? with
    | none => exact resolveAll_filter (Brings.resolve h hr).settled hrs
    | some c =>
      have hkeep : r.resolve w = (c, w) := by
        rcases h.known? r with he | ⟨hnone, -⟩
        · rw [resolve_run, he, hk]
        · rw [hk] at hnone; cases hnone
      rw [show (RefId.resolveAll (r :: rs) w).2 = (RefId.resolveAll rs (r.resolve w).2).2 from rfl, hkeep]
      exact resolveAll_filter h hrs

end

/-! ## Both walks on a hierarchy without circles -/

def Passed (w : World) (refs : ClassId → List RefId) (c : ClassId) (r : RefId) : Prop :=
  ∃ d, ReflTransGen w.Inherits c d ∧ r ∈ refs d

section
variable {w : World} {S : Lead → Prop} {c d : ClassId} {r : RefId} {kind : MemberKind}

theorem mem_walkedRefs_plain : r ∈ w.walkedRefs false (.known d) ↔ r ∈ w.inheritedRefs d := by
  unfold walkedRefs inheritedRefs supertypeRefs interfaceAt
  cases hi : (w.node d).isInterface <;> simp [shownInterfaces, shownSuperclass, hi]

theorem mem_walkedRefs_guarded : r ∈ w.walkedRefs true (.known d) ↔ r ∈ w.supertypeRefs d := by
  simp [walkedRefs, supertypeRefs, shownInterfaces, shownSuperclass]

theorem exists_known_of_mem_walkedRefs {guarded : Bool} {x : Lead} (hr : r ∈ w.walkedRefs guarded x) :
    ∃ d, x = .known d ∧ r ∈ w.supertypeRefs d := by
  cases x with
  | known d =>
    refine ⟨d, rfl, ?_⟩
    cases guarded with
    | true => exact mem_walkedRefs_guarded.mp hr
    | false => exact w.inheritedRefs_subset d (mem_walkedRefs_plain.mp hr)
  | missing name => simp [walkedRefs, shownInterfaces, shownSuperclass] at hr

section
variable (hS : w.Region S) (hc : S (.known c)) (hacyclic : ∀ d, ReflTransGen w.Inherits c d → ¬ TransGen w.Inherits d d)
include hS hc hacyclic

theorem Region.not_transGen_self {x : Lead} (hx : ReflTransGen (fun x y => y ∈ w.inherited x) (.known c) x) :
    ¬ TransGen (fun x y => y ∈ w.inherited x) x x := by
  rw [leading_inheritedRefs] at hx ⊢
  intro hcircle
  obtain ⟨hSx, hclasses⟩ := hS.resolving_of_leading w.inheritedRefs_subset hc hx
  obtain ⟨d, rfl, hdd⟩ := hS.resolving_self w.inheritedRefs_subset hSx hcircle
  exact hacyclic d (hclasses d rfl) hdd

end

theorem exists_flattened (hS : w.Region (w.AtOrAbove c)) (hc : c.index < w.nodes.size)
    (hacyclic : ∀ d, ReflTransGen w.Inherits c d → ¬ TransGen w.Inherits d d) (kind : MemberKind) :
    ∃ ms v v', Descent.gather w.inherited (w.ownMembers kind) w.walkBound (.known c) = some ms ∧
      flattenWithin kind w.walkBound c w = some (ms, v) ∧
      (flattenBelow kind w.walkBound [] c).granted w = some (ms, v') := by
  have hS' : w.AtOrAbove c (.known c) := ⟨hc, .refl⟩
  obtain ⟨r, r', v', hrun, hguarded, hagrees⟩ := exists_flattenBelow hS hc kind
  cases hagrees with
  | found ms =>
    have hgather := Descent.gather_of_guarded hguarded
    obtain ⟨v, hv⟩ := (exists_flattenWithin_iff hS hS' w.walkBound ms).mpr hgather
    exact ⟨ms, v, v', hgather, hv, Guarded.granted_eq_some.mpr hrun⟩
  | refused x =>
    -- It would have met a class that inherits from itself.
    obtain ⟨hpath, hcircle⟩ := Descent.path_of_gatherGuarded_error hguarded
    exact (hS.not_transGen_self hS' hacyclic hpath (hcircle.resolve_left (by simp))).elim

theorem Region.mem_trail (hS : w.Region S) (hc : S (.known c)) {guarded : Bool} {depth : Nat} {ms : List Member}
    (hends : Descent.gather w.inherited (w.ownMembers kind) depth (.known c) = some ms) :
    r ∈ w.trail guarded depth (.known c) ↔ w.Passed (fun d => w.walkedRefs guarded (.known d)) c r := by
  constructor
  · intro h
    obtain ⟨y, hy, hr⟩ := exists_of_mem_trail h
    obtain ⟨d, rfl, -⟩ := exists_known_of_mem_walkedRefs hr
    rw [leading_inheritedRefs] at hy
    exact ⟨d, (hS.resolving_of_leading w.inheritedRefs_subset hc hy).2 d rfl, hr⟩
  · rintro ⟨d, hd, hr⟩
    obtain ⟨e, he, hsuper⟩ := exists_known_of_mem_walkedRefs hr
    cases he
    obtain ⟨-, hpath⟩ := hS.leading_of_resolving w.inheritedRefs_subset hc hd (lt_of_mem_supertypeRefs hsuper)
    rw [← leading_inheritedRefs] at hpath
    exact mem_trail_of_gather hpath hr hends

theorem Region.settles_trail (hS : w.Region S) (hc : S (.known c)) {guarded : Bool} {depth : Nat} :
    ∀ r ∈ w.trail guarded depth (.known c), w.Settles r := by
  intro r hr
  obtain ⟨y, hy, hr⟩ := exists_of_mem_trail hr
  obtain ⟨d, rfl, hsuper⟩ := exists_known_of_mem_walkedRefs hr
  rw [leading_inheritedRefs] at hy
  exact hS.settles d (hS.resolving_of_leading w.inheritedRefs_subset hc hy).1 r hsuper

theorem Resolved.congr {v : World} {P Q : RefId → Prop} {P' Q' : LoaderId → String → Prop} (h : w.Resolved v P P')
    (hP : ∀ r, P r ↔ Q r) (hP' : ∀ l name, P' l name ↔ Q' l name) : w.Resolved v Q Q' :=
  ⟨h.size, fun r => (h.known r).trans (or_congr_right (hP r)),
    fun l name hl => (h.standIns l name hl).trans (or_congr_right (hP' l name))⟩

def Needs (w : World) (P : RefId → Prop) (l : LoaderId) (name : String) : Prop :=
  ∃ r, P r ∧ (w.reference r).known? = none ∧ w.Lacks l name (w.reference r).target

theorem Region.resolved_trail (hS : w.Region S) (hc : S (.known c)) {guarded : Bool} {depth : Nat} {ms : List Member}
    (hends : Descent.gather w.inherited (w.ownMembers kind) depth (.known c) = some ms) {refs : ClassId → List RefId}
    (hrefs : ∀ d r, r ∈ w.walkedRefs guarded (.known d) ↔ r ∈ refs d) :
    w.Resolved (RefId.resolveAll (w.trail guarded depth (.known c)) w).2 (w.Passed refs c)
      (w.Needs (w.Passed refs c)) := by
  have hpassed (r : RefId) : r ∈ w.trail guarded depth (.known c) ↔ w.Passed refs c r := by
    rw [hS.mem_trail hc hends]
    exact exists_congr fun d => and_congr_right fun _ => hrefs d r
  exact (resolveAll_resolved (hS.settles_trail hc)).congr hpassed fun l name =>
    exists_congr fun r => and_congr_left fun _ => hpassed r

end

/-- On a hierarchy without circles in which nobody has to be asked, both walks find the same members. The plain walk
resolves the references by which classes inherit, the guarded one those to all supertypes, and each makes the
stand-ins that these need. So if the interfaces that are come by show no superclass that is still to be resolved,
both leave the same world. -/
theorem flattened_worlds {w : World} (hw : Run .empty w) (hg : w.Grounded) {c : ClassId} (hc : c.index < w.nodes.size)
    (hu : ∀ d, ReflTransGen w.Supertype c d → w.Unsourced d)
    (hacyclic : ∀ d, ReflTransGen w.Inherits c d → ¬ TransGen w.Inherits d d) (kind : MemberKind) :
    (c.tryFlatten kind w).1 = .ok (c.flatten kind w).1 ∧
      w.Resolved (c.flatten kind w).2 (w.Passed w.inheritedRefs c) (w.Needs (w.Passed w.inheritedRefs c)) ∧
      w.Resolved (c.tryFlatten kind w).2 (w.Passed w.supertypeRefs c) (w.Needs (w.Passed w.supertypeRefs c)) ∧
      ((∀ d, ReflTransGen w.Inherits c d → (w.node d).isInterface = true → ∀ r, (w.node d).superclassRef = some r →
        (w.reference r).known? ≠ none) → (c.tryFlatten kind w).2 = (c.flatten kind w).2) := by
  obtain ⟨made, hsound⟩ := Run.sound hw soundEmpty
  have hS : w.Region (w.AtOrAbove c) := hsound.region hg hu
  have hS' : w.AtOrAbove c (.known c) := ⟨hc, .refl⟩
  obtain ⟨ms, v, v', hends, hplain, hguarded⟩ := exists_flattened hS hc hacyclic kind
  obtain ⟨-, -, hv, -⟩ := flattenWithin_trails hS kind w.walkBound (.known c) c w hS' (.refl w) rfl ms v hplain
  obtain ⟨-, -, hv', -⟩ := flattenBelow_trails hS kind w.walkBound [] (.known c) c w hS' (.refl w) rfl ms v' hguarded
  rw [tryFlatten_run, flatten_run, hplain, Guarded.granted_eq_some.mp hguarded]
  dsimp only [Option.getD_some]
  refine ⟨rfl, ?_, ?_, fun hquiet => ?_⟩
  · rw [hv]
    exact hS.resolved_trail hS' hends fun d r => mem_walkedRefs_plain
  · rw [hv']
    exact hS.resolved_trail hS' hends fun d r => mem_walkedRefs_guarded
  · rw [hv, hv', ← resolveAll_filter (.refl w) (hS.settles_trail hS'),
      ← resolveAll_filter (.refl w) (hS.settles_trail hS')]
    congr 2
    refine filter_trail (S := ReflTransGen (fun x y => y ∈ w.inherited x) (.known c))
      (fun x hx y hy => hx.tail hy) (fun x hx hi r hr => ?_) _ _ .refl
    cases x with
    | missing name => cases hr
    | known d =>
      rw [leading_inheritedRefs] at hx
      have hd := (hS.resolving_of_leading w.inheritedRefs_subset hS' hx).2 d rfl
      exact Option.isNone_eq_false_iff.mpr (Option.isSome_iff_ne_none.mpr (hquiet d hd hi r (Option.mem_toList.mp hr)))

def lingering : World := changed [.define ⟨0⟩ "p" "A" [], .define ⟨0⟩ "p" "I" [],
  .edit (.onClass ⟨10⟩ (.addInterface "p.I")), .edit (.onClass ⟨11⟩ (.setInterface true)),
  .edit (.onClass ⟨11⟩ (.setSuperclass "p.M")), .edit (.onClass ⟨10⟩ .addMethod), .edit (.onClass ⟨11⟩ .addMethod)]

theorem run_lingering : Run .empty lingering := run_changed _

theorem lingering_layered : lingering.Solitary ⟨0⟩ ∧ lingering.Layered := by decide +kernel

theorem lingering_worlds : Run .empty lingering ∧ lingering.Grounded ∧
    (∀ d, ReflTransGen lingering.Supertype ⟨10⟩ d → lingering.Unsourced d) ∧
    (∀ d, ReflTransGen lingering.Inherits ⟨10⟩ d → ¬ TransGen lingering.Inherits d d) ∧
    (ClassId.tryFlatten ⟨10⟩ .method lingering).1 = .ok [.method ⟨0⟩, .method ⟨1⟩] ∧
    ¬ ((ClassId.flatten ⟨10⟩ .method lingering).2.reference ⟨1⟩).known?.isSome = true ∧
    ((ClassId.tryFlatten ⟨10⟩ .method lingering).2.reference ⟨1⟩).known?.isSome = true := by
  have hacyclic (d : ClassId) (_ : ReflTransGen lingering.Inherits ⟨10⟩ d) : ¬ TransGen lingering.Inherits d d :=
    fun h => lingering_layered.2.acyclic d (TransGen.mono lingering.inherits_le _ _ h)
  have hall := flattened_worlds run_lingering lingering_layered.1.grounded (c := ⟨10⟩) (by decide +kernel)
    (fun d _ => lingering_layered.1.unsourced d) hacyclic .method
  have hinherits : lingering.Inherits ⟨10⟩ ⟨11⟩ := ⟨⟨0⟩, by decide +kernel, by decide +kernel⟩
  refine ⟨run_lingering, lingering_layered.1.grounded, fun d _ => lingering_layered.1.unsourced d, hacyclic, ?_,
    by decide +kernel, ?_⟩
  · rw [hall.1]
    decide +kernel
  · exact (hall.2.2.1.known ⟨1⟩).mpr (.inr ⟨⟨11⟩, .single hinherits, by decide +kernel⟩)

/-- Whether the class is defined that an interface has as its superclass, if its name has been defined after this. -/
def superclassDefined (w : World) : Option Bool :=
  ((do
    let d ← ClassId.superclass ⟨11⟩
    Step.see fun w => d.map fun d => !(w.node d).isUnresolved : Step (Option Bool))
      ((Mutation.define ⟨0⟩ "p" "M" []).run w).2).1

/-- Both walks find the same, but not the same references are resolved afterwards, and not the same stand-ins are
there; and once the superclass is defined, a query tells which of the two it has been. -/
theorem lingering_told_apart : Run .empty lingering ∧ (lingering.loader ⟨0⟩).sources = [] ∧
    (∀ d, ¬ TransGen lingering.Supertype d d) ∧
    (ClassId.tryFlatten ⟨10⟩ .method lingering).1 = .ok (ClassId.flatten ⟨10⟩ .method lingering).1 ∧
    ((ClassId.flatten ⟨10⟩ .method lingering).2.reference ⟨1⟩).known? = none ∧
    ((ClassId.tryFlatten ⟨10⟩ .method lingering).2.reference ⟨1⟩).known? ≠ none ∧
    ((ClassId.flatten ⟨10⟩ .method lingering).2.loader ⟨0⟩).placeholders.get? "p.M" = none ∧
    ((ClassId.tryFlatten ⟨10⟩ .method lingering).2.loader ⟨0⟩).placeholders.get? "p.M" ≠ none ∧
    superclassDefined (ClassId.flatten ⟨10⟩ .method lingering).2 = some true ∧
    superclassDefined (ClassId.tryFlatten ⟨10⟩ .method lingering).2 = some false :=
  ⟨run_lingering, lingering_layered.1.sources, lingering_layered.2.acyclic, by decide +kernel⟩

end World

end ClassModel
