import ClassModel.Graph.Assignability
import ClassModel.Proofs.Graph.Descents
import ClassModel.Proofs.Graph.Supertypes

/-!
# The guarded subtype test

On classes whose names nobody has to be asked for, both subtype tests are searches of one graph, that
of the places where references lead. So the guarded test always comes to an end, it agrees with the
plain one wherever that one does, and it refuses exactly where the plain one never ends.
-/

namespace ClassModel

open Relation

theorem Guarded.bind_run (s : Guarded α) (f : α → Guarded β) (w : World) :
    (s >>= f).run w = (s.run w).bind fun r => match r.1 with
      | .ok a => (f a).run r.2
      | .error e => some (.error e, r.2) := by
  show (s.run w).bind _ = _
  congr 1
  funext ⟨r, _⟩
  cases r <;> rfl

namespace World

/-! ## Walks that follow the leads -/

/-- The walk from `w` ends if the other one does, with a related result, and has done nothing but
bring out where references lead. -/
inductive Follows (w₀ w : World) (R : World → α → β → Prop) : Option (α × World) → Option β → Prop
  | exhausted : Follows w₀ w R none none
  | ends {a w' b} : w₀.Settled w' → w.nodes.Extends w'.nodes → R w' a b → Follows w₀ w R (some (a, w')) (some b)

namespace Follows

variable {w₀ w : World}

theorem pure (h : w₀.Settled w) {R : World → α → β → Prop} {a : α} {b : β} (hR : R w a b) :
    Follows w₀ w R ((Pure.pure a : Bounded α) w) (some b) := .ends h (.refl _) hR

theorem trans {w₁ : World} {R : World → α → β → Prop} {x : Option (α × World)} {o : Option β}
    (hn : w.nodes.Extends w₁.nodes) (h : Follows w₀ w₁ R x o) : Follows w₀ w R x o := by
  cases h with
  | exhausted => exact .exhausted
  | ends hs hn' hR => exact .ends hs (hn.trans hn') hR

theorem bind {s : Bounded α} {f : α → Bounded γ} {o : Option β} {g : β → Option δ} {R : World → α → β → Prop}
    {Q : World → γ → δ → Prop} (hs : Follows w₀ w R (s w) o)
    (hf : ∀ a w' b, w₀.Settled w' → w.nodes.Extends w'.nodes → R w' a b → Follows w₀ w' Q (f a w') (g b)) :
    Follows w₀ w Q ((s >>= f) w) (o.bind g) := by
  rw [Bounded.bind_run]
  generalize s w = x at hs
  cases hs with
  | exhausted => exact .exhausted
  | ends h hn hR => exact (hf _ _ _ h hn hR).trans hn

theorem map {s : Bounded α} {f : α → Bounded γ} {o : Option β} {g : β → δ} {R : World → α → β → Prop}
    {Q : World → γ → δ → Prop} (hs : Follows w₀ w R (s w) o)
    (hf : ∀ a w' b, w₀.Settled w' → w.nodes.Extends w'.nodes → R w' a b → Follows w₀ w' Q (f a w') (some (g b))) :
    Follows w₀ w Q ((s >>= f) w) (o.map g) := by
  rw [Option.map_eq_bind]
  exact hs.bind hf

theorem after {s : Step α} {f : α → Bounded γ} {o : Option δ} {R : World → α → Prop} {Q : World → γ → δ → Prop}
    (hs : Brings w₀ s w R)
    (hf : ∀ a w', w₀.Settled w' → w.nodes.Extends w'.nodes → R w' a → Follows w₀ w' Q (f a w') o) :
    Follows w₀ w Q ((Bounded.of s >>= f) w) o :=
  (hf _ _ hs.settled hs.nodes hs.result).trans hs.nodes

end Follows

/-! ## The plain search -/

section
variable {w₀ : World} {S : Lead → Prop}

theorem anyClass_follows {search : ClassId → Bounded Bool} {f : Lead → Option Bool}
    (h : ∀ x c w, S x → w₀.Settled w → w₀.LeadsTo w x c → Follows w₀ w (fun _ => Eq) (search c w) (f x)) :
    ∀ {xs : List Lead} {cs : List ClassId} {w : World}, (∀ x ∈ xs, S x) → w₀.Settled w →
      List.Forall₂ (w₀.LeadsTo w) xs cs → Follows w₀ w (fun _ => Eq) (anyClass search cs w) (Descent.anyOf f xs)
  | [], [], w, _, hw, .nil => .pure hw rfl
  | x :: xs, c :: cs, w, hS, hw, .cons hc hcs => by
    obtain ⟨hx, hxs⟩ := List.forall_mem_cons.mp hS
    rw [Descent.anyOf_cons]
    refine (h x c w hx hw hc).bind fun a w' b hw' hn hab => ?_
    subst hab
    cases a with
    | true => exact .pure hw' rfl
    | false => exact anyClass_follows h hxs hw' (hcs.imp fun _ _ hl => hl.mono hn)

def hit (w : World) (target : String) (x : Lead) : Bool := w.leadName x = target

/-- The plain search for a name is the search along the leads. -/
theorem reachesWithin_follows (hS : w₀.Region S) (target : String) :
    ∀ (depth : Nat) (x : Lead) (c : ClassId) (w : World),
    S x → w₀.Settled w → w₀.LeadsTo w x c →
      Follows w₀ w (fun _ => Eq) (reachesWithin target depth c w) (Descent.search w₀.supers (w₀.hit target) depth x)
  | 0, _, _, _, _, _, _ => .exhausted
  | depth + 1, x, c, w, hx, hw, hc => by
    have ih := reachesWithin_follows hS target depth
    have hname : w.nameOf c = w₀.leadName x := hS.name hw hx hc
    have hclosed := hS.closed x hx
    unfold reachesWithin Descent.search
    refine .after (R := fun _ own => own = w₀.leadName x) (.ofSays (.see fun _ => hname) hw)
      fun own w₁ hw₁ hn hown => ?_
    subst hown
    by_cases hhit : w₀.leadName x = target
    · rw [if_pos hhit, if_pos (by simp [hit, hhit])]
      exact .pure hw₁ rfl
    · rw [if_neg hhit, if_neg (by simp [hit, hhit])]
      have hc₁ := hc.mono hn
      refine .after (hS.interfaces hw₁ hx hc₁) fun cs w₂ hw₂ hn₂ hcs => ?_
      rw [supers_eq, Descent.anyOf_append]
      refine (anyClass_follows ih (fun y hy => hclosed y (List.mem_append_left _ hy)) hw₂ hcs).bind
        fun a w₃ b hw₃ hn₃ hab => ?_
      subst hab
      cases a with
      | true => exact .pure hw₃ rfl
      | false =>
        refine .after (hS.superclass hw₃ hx ((hc₁.mono hn₂).mono hn₃)) fun d w₄ hw₄ hn₄ hd => ?_
        cases hsuper : w₀.superclassLead x with
        | none => rw [hsuper] at hd; cases hd; exact .pure hw₄ rfl
        | some y =>
          rw [hsuper] at hd
          cases hd with
          | some hd =>
            show Follows _ _ _ _ (Descent.anyOf _ [y])
            rw [Descent.anyOf_singleton]
            exact ih y _ w₄ (hclosed y (mem_supers_of_superclass hsuper)) hw₄ hd

end

/-! ## The guarded search -/

/-- Both walks find out the same, or both refuse at the same class. -/
inductive Agrees {α : Type} (w₀ : World) : Except ModelError α → Except Lead α → Prop
  | found (a : α) : Agrees w₀ (.ok a) (.ok a)
  | refused (x : Lead) : Agrees w₀ (.error (.cyclicHierarchy (w₀.leadName x))) (.error x)

namespace Follows

variable {w₀ w : World}

theorem afterGuarded {s : Step α} {f : α → Guarded γ} {o : Option δ} {R : World → α → Prop}
    {Q : World → Except ModelError γ → δ → Prop} (hs : Brings w₀ s w R)
    (hf : ∀ a w', w₀.Settled w' → w.nodes.Extends w'.nodes → R w' a → Follows w₀ w' Q ((f a).run w') o) :
    Follows w₀ w Q ((Guarded.of s >>= f).run w) o :=
  (hf _ _ hs.settled hs.nodes hs.result).trans hs.nodes

theorem bindGuarded {α β : Type} {s : Guarded α} {f : α → Guarded β} {o : Option (Except Lead α)}
    {g : α → Option (Except Lead β)} (hs : Follows w₀ w (fun _ => Agrees w₀) (s.run w) o)
    (hf : ∀ a w', w₀.Settled w' → w.nodes.Extends w'.nodes → Follows w₀ w' (fun _ => Agrees w₀) ((f a).run w') (g a)) :
    Follows w₀ w (fun _ => Agrees w₀) ((s >>= f).run w) (Descent.andThen o g) := by
  rw [Guarded.bind_run]
  generalize s.run w = x at hs
  cases hs with
  | exhausted => exact .exhausted
  | ends h hn hR =>
    cases hR with
    | found b => exact (hf b _ h hn).trans hn
    | refused x => exact .ends h hn (.refused x)

end Follows

section
variable {w₀ : World} {S : Lead → Prop}

theorem anyClass_followsGuarded {search : ClassId → Guarded Bool} {f : Lead → Option (Except Lead Bool)} :
    ∀ {xs : List Lead} {cs : List ClassId} {w : World},
      (∀ x ∈ xs, ∀ c w, w₀.Settled w → w₀.LeadsTo w x c →
        Follows w₀ w (fun _ => Agrees w₀) ((search c).run w) (f x)) →
      w₀.Settled w → List.Forall₂ (w₀.LeadsTo w) xs cs →
        Follows w₀ w (fun _ => Agrees w₀) ((anyClass search cs).run w) (Descent.anyOfGuarded f xs)
  | [], [], w, _, hw, .nil => .pure hw (.found false)
  | x :: xs, c :: cs, w, h, hw, .cons hc hcs => by
    obtain ⟨hx, hxs⟩ := List.forall_mem_cons.mp h
    unfold anyClass
    rw [Descent.anyOfGuarded_cons]
    refine (hx c w hw hc).bindGuarded fun a w' hw' hn => ?_
    cases a with
    | true => exact .pure hw' (.found true)
    | false => exact anyClass_followsGuarded hxs hw' (hcs.imp fun _ _ hl => hl.mono hn)

/-- The classes above are there, so no stand-in that has been made since is among them. -/
theorem LeadsTo.mem_above {w : World} {x : Lead} {c : ClassId} (hc : w₀.LeadsTo w x c) {above : List ClassId}
    (habove : ∀ d ∈ above, d.index < w₀.nodes.size) : above.contains c ↔ x ∈ above.map Lead.known := by
  rw [List.contains_iff_mem]
  cases x with
  | known d => cases hc; simp
  | missing name =>
    obtain ⟨hnew, -⟩ := hc
    simp only [List.mem_map, reduceCtorEq, and_false, exists_const, iff_false]
    intro hmem
    exact Nat.not_lt.mpr hnew (habove c hmem)

/-- Only below a class that was there is there anything to walk to, so what is known of a guarded walk below classes
that were there goes for the supertypes. -/
theorem Region.follows_below {walk : List ClassId → ClassId → Guarded α}
    {f : List Lead → Lead → Option (Except Lead α)} (hS : w₀.Region S)
    (h : ∀ above x c w, (∀ d ∈ above, d.index < w₀.nodes.size) → S x → w₀.Settled w → w₀.LeadsTo w x c →
      Follows w₀ w (fun _ => Agrees w₀) ((walk above c).run w) (f (above.map .known) x))
    {above : List ClassId} {x : Lead} {c : ClassId} {w : World} (habove : ∀ d ∈ above, d.index < w₀.nodes.size)
    (hx : S x) (hc : w₀.LeadsTo w x c) : ∀ y ∈ w₀.supers x, ∀ d w, w₀.Settled w → w₀.LeadsTo w y d →
      Follows w₀ w (fun _ => Agrees w₀) ((walk (c :: above) d).run w) (f (x :: above.map .known) y) := by
  intro y hy d w hw hd
  obtain ⟨b, rfl, -⟩ := mem_supers.mp hy
  cases hc
  exact h (c :: above) y d w (List.forall_mem_cons.mpr ⟨hS.lt c hx, habove⟩) (hS.closed _ hx y hy) hw hd

theorem reachesBelow_follows (hS : w₀.Region S) (target : String) : ∀ (depth : Nat) (above : List ClassId) (x : Lead)
    (c : ClassId) (w : World), (∀ d ∈ above, d.index < w₀.nodes.size) → S x → w₀.Settled w → w₀.LeadsTo w x c →
      Follows w₀ w (fun _ => Agrees w₀) ((reachesBelow target depth above c).run w)
        (Descent.guarded w₀.supers (w₀.hit target) depth (above.map .known) x)
  | 0, _, _, _, _, _, _, _, _ => .exhausted
  | depth + 1, above, x, c, w, habove, hx, hw, hc => by
    have hname : w.nameOf c = w₀.leadName x := hS.name hw hx hc
    have hbelow := hS.follows_below (reachesBelow_follows hS target depth) habove hx hc
    unfold reachesBelow Descent.guarded
    refine .afterGuarded (R := fun _ own => own = w₀.leadName x) (.ofSays (.see fun _ => hname) hw)
      fun own w₁ hw₁ hn hown => ?_
    subst hown
    by_cases hhit : w₀.leadName x = target
    · have hhit' : w₀.hit target x = true := by simp [hit, hhit]
      rw [if_pos hhit, if_pos hhit']
      exact .pure hw₁ (.found true)
    · have hnot : w₀.hit target x ≠ true := by simp [hit, hhit]
      rw [if_neg hhit, if_neg hnot]
      have hmem := hc.mem_above habove
      by_cases hcircle : x ∈ above.map Lead.known
      · rw [if_pos (hmem.mpr hcircle), if_pos hcircle]
        exact .pure hw₁ (.refused x)
      · rw [if_neg (fun h => hcircle (hmem.mp h)), if_neg hcircle]
        have hc₁ := hc.mono hn
        refine .afterGuarded (hS.interfaces hw₁ hx hc₁) fun cs w₂ hw₂ hn₂ hcs => ?_
        rw [supers_eq, Descent.anyOfGuarded_append]
        refine (anyClass_followsGuarded (fun y hy => hbelow y (List.mem_append_left _ hy)) hw₂ hcs).bindGuarded
          fun a w₃ hw₃ hn₃ => ?_
        cases a with
        | true => exact .pure hw₃ (.found true)
        | false =>
          refine .afterGuarded (hS.superclass hw₃ hx ((hc₁.mono hn₂).mono hn₃)) fun d w₄ hw₄ hn₄ hd => ?_
          cases hsuper : w₀.superclassLead x with
          | none => rw [hsuper] at hd; cases hd; exact .pure hw₄ (.found false)
          | some y =>
            rw [hsuper] at hd
            cases hd with
            | some hd =>
              show Follows _ _ _ _ (Descent.anyOfGuarded _ [y])
              rw [Descent.anyOfGuarded_singleton]
              exact hbelow y (mem_supers_of_superclass hsuper) _ w₄ hw₄ hd

end

/-! ## Both tests -/

/-- The plain test comes to an end with this answer, if nothing bounds its depth. -/
def Ends (w : World) (target other : ClassId) (b : Bool) : Prop :=
  w.assignableAtOnce? target other = some b ∨ w.assignableAtOnce? target other = none ∧
    ∃ depth w', reachesWithin (w.nameOf target) depth other w = some (b, w')

theorem isAssignableFrom_run (w : World) (target other : ClassId) :
    target.isAssignableFrom other w = match w.assignableAtOnce? target other with
      | some b => (b, w)
      | none => (reachesWithin (w.nameOf target) w.walkBound other w).getD (false, w) := by
  have hrun : target.isAssignableFrom other w = (match w.assignableAtOnce? target other with
      | some b => return b
      | none => do
        let name ← Step.see (·.nameOf target)
        let bound ← Step.see walkBound
        (reachesWithin name bound other).complete false : Step Bool) w := rfl
  rw [hrun]
  cases w.assignableAtOnce? target other <;> rfl

theorem tryIsAssignableFrom_run (w : World) (target other : ClassId) :
    target.tryIsAssignableFrom other w = match w.assignableAtOnce? target other with
      | some b => (.ok b, w)
      | none => ((reachesBelow (w.nameOf target) w.walkBound [] other).run w).getD (.ok false, w) := by
  have hrun : target.tryIsAssignableFrom other w = (match w.assignableAtOnce? target other with
      | some b => return b
      | none => do
        let name ← Change.see (·.nameOf target)
        let bound ← Change.see walkBound
        (reachesBelow name bound [] other).complete false : Change Bool) w := rfl
  rw [hrun]
  cases w.assignableAtOnce? target other <;> rfl

section
variable {w : World} {S : Lead → Prop} {target : String} {c : ClassId}

theorem exists_reachesWithin_iff (hS : w.Region S) (hc : S (.known c)) (depth : Nat) (b : Bool) :
    (∃ w', reachesWithin target depth c w = some (b, w')) ↔
      Descent.search w.supers (w.hit target) depth (.known c) = some b := by
  have h := reachesWithin_follows hS target depth (.known c) c w hc (.refl w) rfl
  generalize reachesWithin target depth c w = r at h
  generalize Descent.search w.supers (w.hit target) depth (.known c) = o at h
  cases h with
  | exhausted => simp
  | ends _ _ hab => subst hab; simp

theorem answers_of_search {target other : ClassId} (hS : w.Region S) (hother : S (.known other)) {depth : Nat}
    {b : Bool} (hdepth : depth ≤ w.walkBound) (honce : w.assignableAtOnce? target other = none)
    (h : Descent.search w.supers (w.hit (w.nameOf target)) depth (.known other) = some b) :
    w.Ends target other b ∧ (target.isAssignableFrom other w).1 = b := by
  obtain ⟨w', hrun⟩ := (exists_reachesWithin_iff hS hother w.walkBound b).mpr (Descent.search_mono hdepth h)
  refine ⟨.inr ⟨honce, w.walkBound, w', hrun⟩, ?_⟩
  rw [isAssignableFrom_run, honce, hrun]; rfl

/-- The guarded search stays within the bound of a walk: it passes each class that is there once. -/
theorem exists_reachesBelow (hS : w.Region (w.AtOrAbove c)) (hc : c.index < w.nodes.size) (target : String) :
    ∃ r r' w', (reachesBelow target w.walkBound [] c).run w = some (r, w') ∧
      Descent.guarded w.supers (w.hit target) w.walkBound [] (.known c) = some r' ∧ Agrees w r r' := by
  have hS' : w.AtOrAbove c (.known c) := ⟨hc, .refl⟩
  have h := reachesBelow_follows hS target w.walkBound [] (.known c) c w (by simp) hS' (.refl w) rfl
  have hends : Descent.guarded w.supers (w.hit target) w.walkBound [] (.known c) ≠ none :=
    Descent.guarded_ends w.knownLeads hS.closed (fun x hx hne => hS.mem_knownLeads hx hne) w.knownLeads_length_le hS'
  revert h hends
  rw [List.map_nil]
  generalize (reachesBelow target w.walkBound [] c).run w = r
  generalize Descent.guarded w.supers (w.hit target) w.walkBound [] (.known c) = r'
  intro h hends
  cases h with
  | exhausted => exact (hends rfl).elim
  | ends _ _ hr => exact ⟨_, _, _, rfl, rfl, hr⟩

end

/-- On classes whose names nobody has to be asked for, the guarded subtype test always ends. It finds
out what the plain one does if that ends, and otherwise it refuses and names a class on a circle. -/
theorem tryIsAssignableFrom_total {w : World} {made : List (LoaderId × ClassId)} (hw : Reached w made) (hg : w.Grounded)
    {target other : ClassId} (hother : other.index < w.nodes.size)
    (hu : ∀ c, ReflTransGen w.Supertype other c → w.Unsourced c) :
    (∃ r w', (reachesBelow (w.nameOf target) w.walkBound [] other).run w = some (r, w')) ∧
      (∀ b, (target.tryIsAssignableFrom other w).1 = .ok b ↔ w.Ends target other b) ∧
      ((∃ name, (target.tryIsAssignableFrom other w).1 = .error (.cyclicHierarchy name)) ↔
        ∀ b, ¬ w.Ends target other b) ∧
      (∀ e, (target.tryIsAssignableFrom other w).1 = .error e → ∃ c, e = .cyclicHierarchy (w.nameOf c) ∧
        ReflTransGen w.Supertype other c ∧ TransGen w.Supertype c c) ∧
      ∀ b, w.Ends target other b → (target.isAssignableFrom other w).1 = b := by
  have hS : w.Region (w.AtOrAbove other) := hw.sound.region hg hu
  have hS' : w.AtOrAbove other (.known other) := ⟨hother, .refl⟩
  obtain ⟨r, r', w', hrun, hguarded, hagrees⟩ := exists_reachesBelow hS hother (w.nameOf target)
  refine ⟨⟨r, w', hrun⟩, ?_⟩
  have hplain (b : Bool) : (∃ depth w', reachesWithin (w.nameOf target) depth other w = some (b, w')) ↔
      ∃ depth, Descent.search w.supers (w.hit (w.nameOf target)) depth (.known other) = some b :=
    exists_congr fun depth => exists_reachesWithin_iff hS hS' depth b
  rw [tryIsAssignableFrom_run, isAssignableFrom_run, hrun]
  unfold Ends
  simp only [hplain]
  cases w.assignableAtOnce? target other with
  | some a => simp
  | none =>
    cases hagrees with
    | found a =>
      have hfound := Descent.search_of_guarded hguarded
      have honly (b : Bool) :
          (∃ depth, Descent.search w.supers (w.hit (w.nameOf target)) depth (.known other) = some b) ↔
          a = b := ⟨fun ⟨_, hb⟩ => Descent.search_unique hfound hb, fun hab => ⟨_, hab ▸ hfound⟩⟩
      obtain ⟨w'', hend⟩ := (exists_reachesWithin_iff hS hS' w.walkBound a).mpr hfound
      rw [hend]
      simp [honly]
    | refused x =>
      obtain ⟨hpath, hcircle⟩ := Descent.calls_of_guarded_error hguarded
      have hcircle := hcircle.resolve_left (by simp)
      have hnever (b : Bool) :
          ¬ ∃ depth, Descent.search w.supers (w.hit (w.nameOf target)) depth (.known other) = some b := by
        rintro ⟨depth, hb⟩
        rw [Descent.search_of_reaches_cycle hpath hcircle depth] at hb
        cases hb
      have hmem : Descent.Calls w.supers (w.hit (w.nameOf target)) ≤ fun x y => y ∈ w.supers x :=
        fun _ _ => Descent.Calls.mem
      obtain ⟨hx, hclasses⟩ := hS.reflTransGen hS' (ReflTransGen.mono hmem _ _ hpath)
      obtain ⟨c, rfl, hclass⟩ := hS.transGen_self hx (TransGen.mono hmem _ _ hcircle)
      simpa [hnever] using ⟨c, rfl, hclasses c rfl, hclass⟩

/-! A loader with a class that is its own superclass, and another class. -/

def circle : World :=
  ((Edit.onClass ⟨10⟩ (.setSuperclass "p.A")).apply
    (Loader.define ⟨0⟩ "p" "B" [] (Loader.define ⟨0⟩ "p" "A" [] single).2).2).2

theorem reached_circle : Reached circle [(⟨0⟩, ⟨10⟩), (⟨0⟩, ⟨11⟩)] :=
  (((reached_single.define (c := ⟨10⟩) (by decide +kernel) (by decide +kernel) (by decide +kernel)).define
    (c := ⟨11⟩) (by decide +kernel) (by decide +kernel) (by decide +kernel)).edit (a := .nothing) (by decide +kernel))

theorem solitary_circle : circle.Solitary ⟨0⟩ := by decide +kernel

theorem circle_tryIsAssignableFrom_total : Reached circle [(⟨0⟩, ⟨10⟩), (⟨0⟩, ⟨11⟩)] ∧ circle.Grounded ∧
    (∀ c, ReflTransGen circle.Supertype ⟨10⟩ c → circle.Unsourced c) ∧
    (ClassId.tryIsAssignableFrom ⟨11⟩ ⟨10⟩ circle).1 = .error (.cyclicHierarchy "p.A") ∧
    ∀ b, ¬ circle.Ends ⟨11⟩ ⟨10⟩ b := by
  have hrefused : (ClassId.tryIsAssignableFrom ⟨11⟩ ⟨10⟩ circle).1 = .error (.cyclicHierarchy "p.A") := by
    decide +kernel
  have hall := @tryIsAssignableFrom_total circle _ reached_circle solitary_circle.grounded ⟨11⟩ ⟨10⟩ (by decide +kernel)
    fun c _ => solitary_circle.unsourced c
  exact ⟨reached_circle, solitary_circle.grounded, fun c _ => solitary_circle.unsourced c, hrefused,
    hall.2.2.1.mp ⟨_, hrefused⟩⟩

end World

end ClassModel
