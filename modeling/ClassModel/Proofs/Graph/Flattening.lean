import ClassModel.Graph.Inheritance
import ClassModel.Proofs.Graph.Assignability

/-!
# Inherited members

As long as nobody has to be asked, the members that a class has and inherits are gathered along the
leads to its supertypes. The guarded walk gathers what the plain one does wherever that one ends, and
refuses exactly where a class inherits from itself.
-/

namespace ClassModel

open Relation

namespace World

def interfaceAt (w : World) : Lead → Bool
  | .known c => (w.node c).isInterface
  | .missing _ => false

/-- From where a class inherits, in order. An interface does not inherit from its superclass. -/
def inherited (w : World) (x : Lead) : List Lead := if w.interfaceAt x then w.interfaceLeads x else w.supers x

def ownMembers (w : World) (kind : MemberKind) : Lead → List Member
  | .known c => w.declared kind c
  | .missing _ => []

def ownNames (w : World) (kind : MemberKind) : Lead → List String
  | .known c => (w.declared kind c).map w.memberQualifiedName
  | .missing _ => []

def Named (w : World) (ms : List Member) (names : List String) : Prop :=
  (∀ m ∈ ms, (w.ownerOf m).index < w.nodes.size) ∧ ms.map w.memberQualifiedName = names

section
variable {w₀ w : World} {S : Lead → Prop} {kind : MemberKind}

theorem ownNames_eq (w : World) (kind : MemberKind) :
    w.ownNames kind = fun x => (w.ownMembers kind x).map w.memberQualifiedName := by
  funext x
  cases x <;> rfl

/-- The names stay what they are. -/
theorem Named.settled {ms : List Member} {names : List String} (hn : w₀.Named ms names) (h : w₀.Settled w) :
    ms.map w.memberQualifiedName = names := by
  obtain ⟨howner, rfl⟩ := hn
  refine List.map_congr_left fun m hm => ?_
  have hlt := howner m hm
  have hqualify (name : String) : w.qualifyIn (w₀.ownerOf m) name = w₀.qualifyIn (w₀.ownerOf m) name := by
    unfold qualifyIn World.nameOf
    rw [h.isAlive, h.node hlt]
  cases m with
  | field f =>
    have hf : w.field f = w₀.field f := by unfold World.field; rw [h.fields]
    simp only [memberQualifiedName, ownerOf, memberName, hf]
    exact hqualify _
  | method i =>
    have hi : w.method i = w₀.method i := by unfold World.method; rw [h.methods]
    simp only [memberQualifiedName, ownerOf, memberName, hi]
    exact hqualify _
  | constructor k =>
    have hk : w.constructor k = w₀.constructor k := by unfold World.constructor; rw [h.constructors]
    simp only [memberQualifiedName, ownerOf, memberName, hk]
    have hnode : w.node (w₀.constructor k).owner = w₀.node (w₀.constructor k).owner := h.node hlt
    rw [h.isAlive, hnode]
    exact hqualify _

theorem inherited_subset (w : World) (x : Lead) : w.inherited x ⊆ w.supers x := by
  unfold inherited
  split
  · exact List.subset_append_left _ _
  · exact List.Subset.refl _

theorem Region.inherited_closed (hS : w.Region S) : ∀ x, S x → ∀ y ∈ w.inherited x, S y :=
  fun x hx y hy => hS.closed x hx y (w.inherited_subset x hy)

theorem Region.inherited_known (hS : w.Region S) : ∀ x, S x → w.inherited x ≠ [] → x ∈ w.knownLeads :=
  fun x hx hne => hS.mem_knownLeads hx fun h => hne (List.subset_nil.mp (h ▸ w.inherited_subset x))

theorem collectEach_follows {walk : ClassId → Bounded (List Member)} {f : Lead → Option (List Member)} {xs : List Lead}
    (h : ∀ x ∈ xs, ∀ c w, w₀.Settled w → w₀.LeadsTo w x c → Follows w₀ w (fun _ => Eq) (walk c w) (f x)) :
    ∀ {cs : List ClassId} {w : World}, w₀.Settled w → List.Forall₂ (w₀.LeadsTo w) xs cs →
      Follows w₀ w (fun _ => Eq) (collectEach walk cs w) (Descent.gatherAll f xs) := by
  induction xs with
  | nil => intro cs w hw hcs; cases hcs; exact .pure hw rfl
  | cons x xs ih =>
    intro cs w hw hcs
    obtain ⟨hx, hxs⟩ := List.forall_mem_cons.mp h
    cases hcs with
    | cons hc hcs =>
      refine (hx _ w hw hc).bind fun ms w₁ _ hw₁ hn₁ hms => ?_
      subst hms
      refine (ih hxs hw₁ (hcs.imp fun _ _ hl => hl.mono hn₁)).map fun ms' w₂ _ hw₂ _ hms' => ?_
      subst hms'
      exact .pure hw₂ rfl

theorem collectEach_followsGuarded {walk : ClassId → Guarded (List Member)}
    {f : Lead → Option (Except Lead (List Member))} {xs : List Lead}
    (h : ∀ x ∈ xs, ∀ c w, w₀.Settled w → w₀.LeadsTo w x c → Follows w₀ w (fun _ => Agrees w₀) ((walk c).run w) (f x)) :
    ∀ {cs : List ClassId} {w : World}, w₀.Settled w → List.Forall₂ (w₀.LeadsTo w) xs cs →
      Follows w₀ w (fun _ => Agrees w₀) ((collectEach walk cs).run w) (Descent.gatherAllGuarded f xs) := by
  induction xs with
  | nil => intro cs w hw hcs; cases hcs; exact .pure hw (.found [])
  | cons x xs ih =>
    intro cs w hw hcs
    obtain ⟨hx, hxs⟩ := List.forall_mem_cons.mp h
    cases hcs with
    | cons hc hcs =>
      refine (hx _ w hw hc).bindGuarded fun ms w₁ hw₁ hn₁ => ?_
      refine (ih hxs hw₁ (hcs.imp fun _ _ hl => hl.mono hn₁)).bindGuarded fun ms' w₂ hw₂ _ => ?_
      exact .pure hw₂ (.found (ms ++ ms'))

section
variable {x : Lead} {c : ClassId} (hS : w₀.Region S) (h : w₀.Settled w) (hx : S x) (hc : w₀.LeadsTo w x c)
include hS h hx hc

theorem Region.isInterface : (w.node c).isInterface = w₀.interfaceAt x := by
  cases x with
  | known d => cases hc; rw [h.node (hS.lt c hx)]; rfl
  | missing name =>
    obtain ⟨-, -, lookup, settings, hn⟩ := hc
    rw [hn]; rfl

theorem Region.own : w.declared kind c = w₀.ownMembers kind x := by
  unfold declared
  cases x with
  | known d => cases hc; rw [h.node (hS.lt c hx)]; rfl
  | missing name =>
    obtain ⟨-, -, lookup, settings, hn⟩ := hc
    rw [hn]; cases kind <;> rfl

end

theorem flattenWithin_follows (hS : w₀.Region S) (kind : MemberKind) (depth : Nat) :
    ∀ (x : Lead) (c : ClassId) (w : World), S x → w₀.Settled w → w₀.LeadsTo w x c →
      Follows w₀ w (fun _ => Eq) (flattenWithin kind depth c w)
        (Descent.gather w₀.inherited (w₀.ownMembers kind) depth x) := by
  induction depth with
  | zero => intro _ _ _ _ _ _; exact .exhausted
  | succ depth ih =>
    intro x c w hx hw hc
    have hclosed := hS.closed x hx
    -- each call may resolve references, so the next one starts in a later world that shows the same
    unfold flattenWithin Descent.gather
    refine .after (R := fun _ own => own = w₀.ownMembers kind x) ⟨hw, .refl _, hS.own hw hx hc⟩
      fun own w₁ hw₁ hn₁ hown => ?_
    subst hown
    have hc₁ := hc.mono hn₁
    refine .after (hS.interfaces hw₁ hx hc₁) fun cs w₂ hw₂ hn₂ hcs => ?_
    have hc₂ := hc₁.mono hn₂
    have hfrom := collectEach_follows (fun y hy d w hw hd =>
      ih y d w (hclosed y (List.mem_append_left _ hy)) hw hd) hw₂ hcs
    unfold inherited
    by_cases hi : w₀.interfaceAt x = true
    · rw [if_pos hi]
      refine hfrom.map fun ms w₃ _ hw₃ hn₃ hms => ?_
      subst hms
      have hsee := hS.isInterface hw₃ hx (hc₂.mono hn₃)
      refine .after (R := fun _ b => b = true) ⟨hw₃, .refl _, hsee.trans hi⟩ fun b w₄ hw₄ _ hb => ?_
      rw [hb]
      exact .pure hw₄ rfl
    · rw [if_neg hi, supers_eq, Descent.gatherAll_append, Option.map_bind]
      refine hfrom.bind fun ms w₃ _ hw₃ hn₃ hms => ?_
      subst hms
      have hc₃ := hc₂.mono hn₃
      have hsee := hS.isInterface hw₃ hx hc₃
      refine .after (R := fun _ b => b = false) ⟨hw₃, .refl _, hsee.trans (by simpa using hi)⟩
        fun b w₄ hw₄ hn₄ hb => ?_
      rw [hb]
      refine .after (hS.superclass hw₄ hx (hc₃.mono hn₄)) fun d w₅ hw₅ hn₅ hd => ?_
      cases hsuper : w₀.superclassLead x with
      | none =>
        rw [hsuper] at hd; cases hd
        exact .pure hw₅ (by simp)
      | some y =>
        rw [hsuper] at hd
        cases hd with
        | some hd =>
          have hy : S y := hclosed y (mem_supers_of_superclass hsuper)
          show Follows w₀ w₅ _ _ (((Descent.gatherAll _ [y]).map (ms ++ ·)).map (w₀.ownMembers kind x ++ ·))
          rw [Descent.gatherAll_singleton, Option.map_map]
          refine (ih y _ w₅ hy hw₅ hd).map fun ms' w₆ _ hw₆ _ hms' => ?_
          subst hms'
          exact .pure hw₆ (List.append_assoc _ _ _)

/-- The guarded walk gathers along the leads as well, and refuses at the same class. -/
theorem flattenBelow_follows (hS : w₀.Region S) (kind : MemberKind) (depth : Nat) :
    ∀ (above : List ClassId) (x : Lead) (c : ClassId) (w : World), (∀ d ∈ above, d.index < w₀.nodes.size) → S x →
      w₀.Settled w → w₀.LeadsTo w x c →
      Follows w₀ w (fun _ => Agrees w₀) ((flattenBelow kind depth above c).run w)
        (Descent.gatherGuarded w₀.inherited (w₀.ownMembers kind) depth (above.map .known) x) := by
  induction depth with
  | zero => intro _ _ _ _ _ _ _ _; exact .exhausted
  | succ depth ih =>
    intro above x c w habove hx hw hc
    have hmem := hc.mem_above habove
    have hbelow := hS.follows_below ih habove hx hc
    unfold flattenBelow Descent.gatherGuarded
    by_cases hcircle : x ∈ above.map Lead.known
    · rw [if_pos (hmem.mpr hcircle), if_pos hcircle]
      refine .afterGuarded (R := fun _ own => own = w₀.leadName x) ⟨hw, .refl _, hS.name hw hx hc⟩
        fun own w₁ hw₁ _ hown => ?_
      subst hown
      exact .pure hw₁ (.refused x)
    · rw [if_neg (fun h => hcircle (hmem.mp h)), if_neg hcircle]
      refine .afterGuarded (R := fun _ own => own = w₀.ownMembers kind x) ⟨hw, .refl _, hS.own hw hx hc⟩
        fun own w₁ hw₁ hn₁ hown => ?_
      subst hown
      have hc₁ := hc.mono hn₁
      refine .afterGuarded (hS.interfaces hw₁ hx hc₁) fun cs w₂ hw₂ hn₂ hcs => ?_
      have hc₂ := hc₁.mono hn₂
      have hfrom := collectEach_followsGuarded (fun y hy d w hw hd =>
        hbelow y (List.mem_append_left _ hy) d w hw hd) hw₂ hcs
      unfold inherited
      by_cases hi : w₀.interfaceAt x = true
      · rw [if_pos hi]
        refine hfrom.bindGuarded fun ms w₃ hw₃ hn₃ => ?_
        have hc₃ := hc₂.mono hn₃
        refine .afterGuarded (hS.superclass hw₃ hx hc₃) fun d w₄ hw₄ hn₄ _ => ?_
        have hsee := hS.isInterface hw₄ hx (hc₃.mono hn₄)
        refine .afterGuarded (R := fun _ b => b = true) ⟨hw₄, .refl _, hsee.trans hi⟩ fun b w₅ hw₅ _ hb => ?_
        subst hb
        cases d <;> exact .pure hw₅ (.found _)
      · rw [if_neg hi, supers_eq, Descent.gatherAllGuarded_append, Descent.andThen_assoc]
        refine hfrom.bindGuarded fun ms w₃ hw₃ hn₃ => ?_
        have hc₃ := hc₂.mono hn₃
        refine .afterGuarded (hS.superclass hw₃ hx hc₃) fun d w₄ hw₄ hn₄ hd => ?_
        have hsee := hS.isInterface hw₄ hx (hc₃.mono hn₄)
        refine .afterGuarded (R := fun _ b => b = false) ⟨hw₄, .refl _, hsee.trans (by simpa using hi)⟩
          fun b w₅ hw₅ hn₅ hb => ?_
        subst hb
        cases hsuper : w₀.superclassLead x with
        | none =>
          rw [hsuper] at hd; cases hd
          exact .pure hw₅ (by simpa [Descent.gatherAllGuarded] using .found _)
        | some y =>
          rw [hsuper] at hd
          cases hd with
          | some hd =>
            have hy : y ∈ w₀.supers x := mem_supers_of_superclass hsuper
            rw [Option.toList_some, Descent.gatherAllGuarded_singleton, Descent.andThen_assoc]
            refine (hbelow y hy _ w₅ hw₅ (hd.mono hn₅)).bindGuarded fun ms' w₆ hw₆ _ => ?_
            refine .pure hw₆ ?_
            rw [← List.append_assoc]
            exact .found _

end

/-! ## Both kinds of inherited members -/

/-- The walk comes to an end, and what it hands back has these names. -/
def Flattens (w : World) (kind : MemberKind) (c : ClassId) (names : List String) : Prop :=
  ∃ ms w', flattenWithin kind w.walkBound c w = some (ms, w') ∧ c.flatten kind w = (ms, w') ∧
    ms.map w'.memberQualifiedName = names

section
variable {w : World} {S : Lead → Prop} {kind : MemberKind} {c : ClassId} {names : List String}

theorem flattens_of_gather (hS : w.Region S)
    (howners : ∀ d, S (.known d) → ∀ m ∈ w.declared kind d, (w.ownerOf m).index < w.nodes.size) (hc : S (.known c))
    (h : Descent.gather w.inherited (w.ownNames kind) w.walkBound (.known c) = some names) :
    w.Flattens kind c names := by
  rw [ownNames_eq, Descent.gather_map] at h
  obtain ⟨ms, hms, hnames⟩ := Option.map_eq_some_iff.mp h
  have hnamed : w.Named ms names := by
    refine ⟨Descent.gather_forall hS.inherited_closed ?_ _ hc hms, hnames⟩
    intro x hx
    cases x with
    | known d => exact howners d hx
    | missing name => simp [ownMembers]
  have hf := flattenWithin_follows hS kind w.walkBound (.known c) c w hc (.refl w) rfl
  have hrun : c.flatten kind w = (flattenWithin kind w.walkBound c w).getD ([], w) := rfl
  rw [hms] at hf
  unfold Flattens
  rw [hrun]
  revert hf
  generalize flattenWithin kind w.walkBound c w = r
  intro hf
  cases hf with
  | ends hw _ hab => subst hab; exact ⟨_, _, rfl, rfl, hnamed.settled hw⟩

end

/-! ## The guarded walk -/

def inheritedRefs (w : World) (c : ClassId) : List RefId :=
  if (w.node c).isInterface then (w.node c).interfaceRefs else w.supertypeRefs c

def Inherits (w : World) : ClassId → ClassId → Prop := w.Resolving w.inheritedRefs

section
variable {w : World} {S : Lead → Prop} {kind : MemberKind} {c : ClassId}

theorem inheritedRefs_subset (w : World) (c : ClassId) : w.inheritedRefs c ⊆ w.supertypeRefs c := by
  unfold inheritedRefs supertypeRefs
  by_cases hi : (w.node c).isInterface
  · rw [if_pos hi]
    exact List.subset_append_left _ _
  · rw [if_neg hi]
    exact List.Subset.refl _

theorem inherits_le (w : World) : w.Inherits ≤ w.Supertype :=
  fun _ _ ⟨r, hr, hd⟩ => ⟨r, w.inheritedRefs_subset _ hr, hd⟩

theorem leading_inheritedRefs : (fun x y => y ∈ w.inherited x) = w.Leading w.inheritedRefs := by
  funext x y
  unfold Leading inheritedRefs inherited
  cases x with
  | missing name => simp [interfaceAt, supers, interfaceLeads, superclassLead]
  | known c =>
    by_cases hi : (w.node c).isInterface
    · simp [interfaceAt, interfaceLeads, hi]
    · simpa [interfaceAt, hi] using mem_supers (w := w) (x := .known c) (y := y)

theorem tryFlatten_run (w : World) (kind : MemberKind) (c : ClassId) :
    c.tryFlatten kind w = ((flattenBelow kind w.walkBound [] c).run w).getD (.ok [], w) := rfl

theorem flatten_run (w : World) (kind : MemberKind) (c : ClassId) :
    c.flatten kind w = (flattenWithin kind w.walkBound c w).getD ([], w) := rfl

theorem exists_flattenWithin_iff (hS : w.Region S) (hc : S (.known c)) (depth : Nat) (ms : List Member) :
    (∃ w', flattenWithin kind depth c w = some (ms, w')) ↔
      Descent.gather w.inherited (w.ownMembers kind) depth (.known c) = some ms := by
  have h := flattenWithin_follows hS kind depth (.known c) c w hc (.refl w) rfl
  generalize flattenWithin kind depth c w = r at h
  generalize Descent.gather w.inherited (w.ownMembers kind) depth (.known c) = o at h
  cases h with
  | exhausted => simp
  | ends _ _ hab => subst hab; simp

/-- The guarded walk stays within the bound of a walk: it passes each class that is there once. -/
theorem exists_flattenBelow (hS : w.Region (w.AtOrAbove c)) (hc : c.index < w.nodes.size) (kind : MemberKind) :
    ∃ r r' w', (flattenBelow kind w.walkBound [] c).run w = some (r, w') ∧
      Descent.gatherGuarded w.inherited (w.ownMembers kind) w.walkBound [] (.known c) = some r' ∧ Agrees w r r' := by
  have hS' : w.AtOrAbove c (.known c) := ⟨hc, .refl⟩
  have h := flattenBelow_follows hS kind w.walkBound [] (.known c) c w (by simp) hS' (.refl w) rfl
  have hends : Descent.gatherGuarded w.inherited (w.ownMembers kind) w.walkBound [] (.known c) ≠ none :=
    Descent.gatherGuarded_ends w.knownLeads hS.inherited_closed hS.inherited_known w.knownLeads_length_le hS'
  revert h hends
  rw [List.map_nil]
  generalize (flattenBelow kind w.walkBound [] c).run w = r
  generalize Descent.gatherGuarded w.inherited (w.ownMembers kind) w.walkBound [] (.known c) = r'
  intro h hends
  cases h with
  | exhausted => exact (hends rfl).elim
  | ends _ _ hr => exact ⟨_, _, _, rfl, rfl, hr⟩

end

/-- On classes whose names nobody has to be asked for, the guarded walk for members always ends. It
hands out what the plain one does if that ends. Otherwise a class above inherits from itself, and the
guarded walk refuses and names such a class. -/
theorem tryFlatten_total {w : World} {made : List (LoaderId × ClassId)} (hw : Reached w made) (hg : w.Grounded)
    {c : ClassId} (hc : c.index < w.nodes.size) (hu : ∀ d, ReflTransGen w.Supertype c d → w.Unsourced d)
    (kind : MemberKind) :
    (∃ r w', (flattenBelow kind w.walkBound [] c).run w = some (r, w')) ∧
      (∀ ms, (c.tryFlatten kind w).1 = .ok ms ↔ ∃ depth w', flattenWithin kind depth c w = some (ms, w')) ∧
      ((∃ name, (c.tryFlatten kind w).1 = .error (.cyclicHierarchy name)) ↔
        ∃ d, ReflTransGen w.Inherits c d ∧ TransGen w.Inherits d d) ∧
      (∀ e, (c.tryFlatten kind w).1 = .error e → ∃ d, e = .cyclicHierarchy (w.nameOf d) ∧
        ReflTransGen w.Inherits c d ∧ TransGen w.Inherits d d) ∧
      ∀ depth ms w', flattenWithin kind depth c w = some (ms, w') → (c.flatten kind w).1 = ms := by
  have hS : w.Region (w.AtOrAbove c) := hw.sound.region hg hu
  have hS' : w.AtOrAbove c (.known c) := ⟨hc, .refl⟩
  obtain ⟨r, r', w', hrun, hguarded, hagrees⟩ := exists_flattenBelow hS hc kind
  refine ⟨⟨r, w', hrun⟩, ?_⟩
  have hplain (ms : List Member) : (∃ depth w', flattenWithin kind depth c w = some (ms, w')) ↔
      ∃ depth, Descent.gather w.inherited (w.ownMembers kind) depth (.known c) = some ms :=
    exists_congr fun depth => exists_flattenWithin_iff hS hS' depth ms
  -- Below a class that inherits from itself the plain walk never ends.
  have hnever {d : ClassId} (hd : ReflTransGen w.Inherits c d) (hdd : TransGen w.Inherits d d) (depth : Nat) :
      Descent.gather w.inherited (w.ownMembers kind) depth (.known c) = none := by
    obtain ⟨hpath, hcircle⟩ := hS.leading_self w.inheritedRefs_subset hS' hd hdd
    rw [← leading_inheritedRefs] at hpath hcircle
    exact Descent.gather_of_reaches_cycle hpath hcircle depth
  rw [tryFlatten_run, flatten_run, hrun]
  simp only [hplain]
  cases hagrees with
  | found ms =>
    have hfound := Descent.gather_of_guarded hguarded
    have honly (ms' : List Member) :
        (∃ depth, Descent.gather w.inherited (w.ownMembers kind) depth (.known c) = some ms') ↔ ms = ms' :=
      ⟨fun ⟨_, h⟩ => Descent.gather_unique hfound h, fun h => ⟨_, h ▸ hfound⟩⟩
    have hacyclic : ¬ ∃ d, ReflTransGen w.Inherits c d ∧ TransGen w.Inherits d d := by
      rintro ⟨d, hd, hdd⟩
      rw [hnever hd hdd] at hfound
      cases hfound
    obtain ⟨w'', hend⟩ := (exists_flattenWithin_iff hS hS' w.walkBound ms).mpr hfound
    refine ⟨by simp [honly], by simpa using hacyclic, by simp, fun depth ms' w₁ h => ?_⟩
    rw [hend]
    exact (honly ms').mp ((hplain ms').mp ⟨depth, w₁, h⟩)
  | refused x =>
    obtain ⟨hpath, hcircle⟩ := Descent.path_of_gatherGuarded_error hguarded
    have hcircle := hcircle.resolve_left (by simp)
    rw [leading_inheritedRefs] at hpath hcircle
    obtain ⟨hx, hclasses⟩ := hS.resolving_of_leading w.inheritedRefs_subset hS' hpath
    obtain ⟨d, rfl, hdd⟩ := hS.resolving_self w.inheritedRefs_subset hx hcircle
    have hd := hclasses d rfl
    have hno (ms : List Member) :
        ¬ ∃ depth, Descent.gather w.inherited (w.ownMembers kind) depth (.known c) = some ms := by
      rintro ⟨depth, h⟩
      rw [hnever hd hdd] at h
      cases h
    refine ⟨by simp [hno], ?_, ?_, fun depth ms w₁ h => (hno ms ((hplain ms).mp ⟨depth, w₁, h⟩)).elim⟩
    · exact ⟨fun _ => ⟨d, hd, hdd⟩, fun _ => ⟨_, rfl⟩⟩
    · intro e he
      exact ⟨d, (Except.error.inj he).symm, hd, hdd⟩

theorem circle_tryFlatten_total : Reached circle [(⟨0⟩, ⟨10⟩), (⟨0⟩, ⟨11⟩)] ∧ circle.Grounded ∧
    (∀ d, ReflTransGen circle.Supertype ⟨10⟩ d → circle.Unsourced d) ∧
    (ClassId.tryFlatten ⟨10⟩ .field circle).1 = .error (.cyclicHierarchy "p.A") ∧
    (∃ d, ReflTransGen circle.Inherits ⟨10⟩ d ∧ TransGen circle.Inherits d d) ∧
    ∀ ms, ¬ ∃ depth w', flattenWithin .field depth ⟨10⟩ circle = some (ms, w') := by
  have hrefused : (ClassId.tryFlatten ⟨10⟩ .field circle).1 = .error (.cyclicHierarchy "p.A") := by
    decide +kernel
  have hall := @tryFlatten_total circle _ reached_circle solitary_circle.grounded ⟨10⟩ (by decide +kernel)
    (fun d _ => solitary_circle.unsourced d) .field
  refine ⟨reached_circle, solitary_circle.grounded, fun d _ => solitary_circle.unsourced d, hrefused,
    hall.2.2.1.mp ⟨_, hrefused⟩, ?_⟩
  intro ms hends
  rw [← hall.2.1 ms, hrefused] at hends
  cases hends

/-! An interface that is its own superclass, and a class that has it twice as an interface. -/

def twice : World :=
  let edits : List Edit := [.onClass ⟨10⟩ .addMethod, .onClass ⟨10⟩ (.setInterface true),
    .onClass ⟨11⟩ (.addInterface "p.A"), .onClass ⟨11⟩ (.addInterface "p.A")]
  edits.foldl (fun w e => (e.apply w).2) circle

-- Neither is a circle: what is reached on two paths is listed twice.
example : (ClassId.tryFlatten ⟨11⟩ .method twice).1 = .ok [.method ⟨0⟩, .method ⟨0⟩] := by decide +kernel

end World

end ClassModel
