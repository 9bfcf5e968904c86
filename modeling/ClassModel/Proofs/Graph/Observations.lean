import ClassModel.Proofs.Graph.Enclosures

/-!
# Resolving cannot be observed

In a loader that asks nobody and refers to nothing outside itself, each query has an outcome that is
settled before anything is asked, up to who the stand-ins are that are made for it. So a query is
answered as if nothing had been asked before.
-/

namespace ClassModel

open Relation

/-! ## Queries about one loader -/

namespace Query

/-- The query is about loader `l`: it asks the loader itself, or one of its classes, or for something that
was written in one of them. -/
def About (w : World) (l : LoaderId) : Query → Prop
  | lookup k _ => k = .loader l
  | lookupDefault k _ => k = .loader l
  | load l' _ => l' = l
  | forName c _ => w.Own l c
  | resolve r => w.Refers l r
  | qualifiedName r => w.Refers l r
  | superclass c => w.Own l c
  | interfaces c => w.Own l c
  | flatten c _ => w.Own l c
  | tryFlatten c _ => w.Own l c
  | isAssignableFrom target other => w.Own l target ∧ w.Own l other
  | tryIsAssignableFrom target other => w.Own l target ∧ w.Own l other
  | types p => ∀ r ∈ w.typesAt p, w.Refers l r
  | classes l' => l' = l
  | snapshot l' => l' = l

theorem About.placed {w : World} {l : LoaderId} {q : Query} (hq : q.About w l) : q.Placed w := by
  cases q with
  | resolve r => exact World.Refers.placed hq
  | qualifiedName r => exact World.Refers.placed hq
  | types p => exact fun r hr => (hq r hr).placed
  | _ => trivial

def Ends (w : World) : Query → Prop
  | flatten c kind => ∃ depth r, flattenWithin kind depth c w = some r
  | tryFlatten c kind => ∃ depth r, (flattenBelow kind depth [] c).run w = some r
  | isAssignableFrom target other => w.assignableAtOnce? target other = none →
      ∃ depth r, reachesWithin (w.nameOf target) depth other w = some r
  | tryIsAssignableFrom target other => w.assignableAtOnce? target other = none →
      ∃ depth r, (reachesBelow (w.nameOf target) depth [] other).run w = some r
  | _ => True

end Query

/-! ## Answers that cannot be told apart -/

namespace World

/-- A class in `u` and one in `v` are the same class of `w`, or stand-ins of one name made since. -/
inductive Alike (w u v : World) : ClassId → ClassId → Prop
  | same {c : ClassId} : c.index < w.nodes.size → Alike w u v c c
  | standIns {c d : ClassId} : w.nodes.size ≤ c.index → w.nodes.size ≤ d.index → (u.node c).isUnresolved →
      (v.node d).isUnresolved → u.nameOf c = v.nameOf d → Alike w u v c d

end World

inductive Answer.Alike (w u v : World) : Answer → Answer → Prop
  | found {c d : Option ClassId} : Option.Rel (w.Alike u v) c d → Alike w u v (.found c) (.found d)
  | classes {cs ds : List ClassId} : List.Forall₂ (w.Alike u v) cs ds → Alike w u v (.classes cs) (.classes ds)
  | name (text : String) : Alike w u v (.name text) (.name text)
  | members (r : Except ModelError (List Member)) : Alike w u v (.members r) (.members r)
  | assignable (r : Except ModelError Bool) : Alike w u v (.assignable r) (.assignable r)
  | snapshot (s : Snapshot) : Alike w u v (.snapshot s) (.snapshot s)

/-! ## What is settled of an answer -/

inductive Outcome where
  | found (x : Option Lead)
  | classes (xs : List Lead)
  | name (text : String)
  | members (r : Except ModelError (List Member))
  | assignable (r : Except ModelError Bool)
  | snapshot (s : Snapshot)

namespace World

def standInLead (w : World) (l : LoaderId) (name : String) : Lead :=
  match (w.loader l).placeholders.get? name with
  | some c => .known c
  | none => .missing name

def loadLead (w : World) (l : LoaderId) (name : String) : Lead :=
  match (w.loader l).cached? name with
  | some c => .known c
  | none => w.standInLead l name

def referredName (w : World) (r : RefId) : String :=
  match (w.reference r).target with
  | .direct c => w.nameOf c
  | .qualified name _ => name
  | .unqualified _ _ => w.leadName (w.lead r)

def spelt (w : World) : Except Lead α → Except ModelError α
  | .ok a => .ok a
  | .error x => .error (.cyclicHierarchy (w.leadName x))

def outcome (w : World) (l : LoaderId) : Query → Outcome
  | .lookup _ name => .found (((w.loader l).cached? name).map .known)
  | .lookupDefault _ name => .found ((w.foundDefault? name (.loader l)).map .known)
  | .load _ name => .found (some (w.loadLead l name))
  | .forName _ name => .found (some (w.loadLead l name))
  | .resolve r => .found (some (w.lead r))
  | .qualifiedName r => .name (w.referredName r)
  | .superclass c => .found (w.superclassLead (.known c))
  | .interfaces c => .classes (w.interfaceLeads (.known c))
  | .flatten c kind =>
    .members (.ok ((Descent.gather w.inherited (w.ownMembers kind) w.reach (.known c)).getD []))
  | .tryFlatten c kind =>
    .members (w.spelt ((Descent.gatherGuarded w.inherited (w.ownMembers kind) w.reach [] (.known c)).getD (.ok [])))
  | .isAssignableFrom target other =>
    .assignable (.ok ((w.assignableAtOnce? target other).getD
      ((Descent.search w.supers (w.hit (w.nameOf target)) w.reach (.known other)).getD false)))
  | .tryIsAssignableFrom target other =>
    .assignable (((w.assignableAtOnce? target other).map .ok).getD
      (w.spelt ((Descent.guarded w.supers (w.hit (w.nameOf target)) w.reach [] (.known other)).getD (.ok false))))
  | .types p => .classes ((w.typesAt p).map w.lead)
  | .classes _ => .classes ((w.loader l).classes.values.map .known)
  | .snapshot _ => .snapshot (w.snapshot l)

structure Finds (w : World) (l : LoaderId) (v : World) (x : Lead) (c : ClassId) : Prop where
  inside : w.Inside l x
  leads : w.LeadsTo v x c

inductive Reads (w : World) (l : LoaderId) (v : World) : Outcome → Answer → Prop
  | found {x c} : Option.Rel (w.Finds l v) x c → Reads w l v (.found x) (.found c)
  | classes {xs cs} : List.Forall₂ (w.Finds l v) xs cs → Reads w l v (.classes xs) (.classes cs)
  | name {text text'} : text' = text → Reads w l v (.name text) (.name text')
  | members {r r'} : r' = r → Reads w l v (.members r) (.members r')
  | assignable {r r'} : r' = r → Reads w l v (.assignable r) (.assignable r')
  | snapshot {s s'} : s' = s → Reads w l v (.snapshot s) (.snapshot s')

section
variable {w u v : World} {l : LoaderId}

theorem Finds.alike {x : Lead} {c d : ClassId} (h : w.Finds l u x c) (h' : w.Finds l v x d) : w.Alike u v c d := by
  cases x with
  | known e =>
    obtain rfl : c = e := h.leads
    obtain rfl : d = c := h'.leads
    exact .same h.inside.lt
  | missing name =>
    obtain ⟨hc, -, lookup, settings, hcn⟩ := h.leads
    obtain ⟨hd, -, lookup', settings', hdn⟩ := h'.leads
    refine .standIns hc hd (by rw [hcn]; rfl) (by rw [hdn]; rfl) ?_
    unfold World.nameOf
    rw [hcn, hdn]
    rfl

theorem Reads.alike {o : Outcome} {a b : Answer} (h : w.Reads l u o a) (h' : w.Reads l v o b) :
    Answer.Alike w u v a b := by
  cases h with
  | found hc =>
    cases h' with
    | found hd =>
      refine .found ?_
      cases hc with
      | none => cases hd; exact .none
      | some hc => cases hd with | some hd => exact .some (hc.alike hd)
  | @classes xs cs hcs =>
    cases h' with
    | @classes _ ds hds =>
      refine .classes ?_
      induction hcs generalizing ds with
      | nil => cases hds; exact .nil
      | cons hc _ ih => cases hds with | cons hd hds => exact .cons (hc.alike hd) (ih hds)
  | name he => cases h' with | name he' => rw [he, he']; exact .name _
  | members he => cases h' with | members he' => rw [he, he']; exact .members _
  | assignable he => cases h' with | assignable he' => rw [he, he']; exact .assignable _
  | snapshot he => cases h' with | snapshot he' => rw [he, he']; exact .snapshot _

end

section
variable {w v : World} {l : LoaderId}

theorem finds_known {o : Option ClassId} (h : ∀ c, o = some c → w.Own l c) :
    Option.Rel (w.Finds l v) (o.map .known) o := by
  cases o with
  | none => exact .none
  | some c => exact .some ⟨h c rfl, rfl⟩

theorem finds_option {o : Option Lead} {d : Option ClassId} (h : ∀ x ∈ o, w.Inside l x)
    (hd : Option.Rel (w.LeadsTo v) o d) : Option.Rel (w.Finds l v) o d := by
  cases hd with
  | none => exact .none
  | some hd => exact .some ⟨h _ rfl, hd⟩

theorem finds_list {xs : List Lead} {cs : List ClassId} (h : ∀ x ∈ xs, w.Inside l x)
    (hcs : List.Forall₂ (w.LeadsTo v) xs cs) : List.Forall₂ (w.Finds l v) xs cs := by
  induction hcs with
  | nil => exact .nil
  | cons hc _ ih =>
    obtain ⟨hx, hxs⟩ := List.forall_mem_cons.mp h
    exact .cons ⟨hx, hc⟩ (ih hxs)

end

/-! ## Each query by itself -/

namespace Brings

variable {w₀ w : World}

theorem imp {s : Step α} {R Q : World → α → Prop} (hs : Brings w₀ s w R) (h : ∀ w' a, R w' a → Q w' a) :
    Brings w₀ s w Q :=
  ⟨hs.settled, hs.nodes, h _ _ hs.result⟩

theorem map {s : Step α} {g : α → β} {R : World → α → Prop} {Q : World → β → Prop} (hs : Brings w₀ s w R)
    (h : ∀ w' a, R w' a → Q w' (g a)) : Brings w₀ (g <$> s) w Q :=
  ⟨hs.settled, hs.nodes, h _ _ hs.result⟩

end Brings

section
variable {w₀ w : World} {R : α → β → Prop}

/-- A walk that does not stay within its bound leaves everything as it was. -/
theorem Follows.complete (h : w₀.Settled w) {s : Bounded α} {o : Option β} (hs : Follows w₀ w (fun _ => R) (s w) o)
    {a : α} {b : β} (hab : R a b) : Brings w₀ (s.complete a) w fun _ a => R a (o.getD b) := by
  have hrun : s.complete a w = (s w).getD (a, w) := rfl
  refine .of_eq (t := fun _ => (s w).getD (a, w)) hrun ?_
  revert hs
  generalize s w = r
  intro hs
  cases hs with
  | exhausted => exact ⟨h, .refl _, hab⟩
  | ends hs hn hR => exact ⟨hs, hn, hR⟩

theorem Follows.ends_iff {x : Option (α × World)} {o : Option β} (h : Follows w₀ w (fun _ => R) x o) :
    (∃ r, x = some r) ↔ ∃ b, o = some b := by
  cases h with
  | exhausted => simp
  | ends _ _ _ => simp

theorem Follows.ends_alike (h : w₀.Settled w) {s : Bounded α} {o : Option β}
    (hs : ∀ u, w₀.Settled u → Follows w₀ u (fun _ => R) (s u) o) : (∃ r, s w = some r) ↔ ∃ r, s w₀ = some r :=
  (hs w h).ends_iff.trans (hs w₀ (.refl w₀)).ends_iff.symm

theorem Agrees.eq_spelt {r : Except ModelError α} {r' : Except Lead α} (h : Agrees w₀ r r') : r = w₀.spelt r' := by
  cases h with
  | found a => rfl
  | refused x => rfl

end

section
variable {w v : World} {l : LoaderId} {c : ClassId} (hw : Run .empty w) (hl : w.Enclosed l) (hv : w.Settled v)

section
include hl hv

theorem Enclosed.lookup (name : String) : Says (Loader.lookup l name) v ((w.loader l).cached? name) := by
  have hcached : (v.loader l).cached? name = (w.loader l).cached? name := hv.found? name (.loader l)
  rw [← hcached]
  exact .loaderLookup (by rw [hv.sources, hl.sources]) name

theorem Enclosed.lookupDefault (name : String) :
    Says (Loader.lookupDefault l name) v (w.foundDefault? name (.loader l)) := by
  rw [← hv.foundDefault? name (.loader l)]
  exact .loaderLookupDefault (by rw [hv.sources, hl.sources]) name

theorem Enclosed.load (name : String) : Brings w (Loader.load l name) v fun v' => w.LeadsTo v' (w.loadLead l name) := by
  refine .after hv (hl.lookup hv name) fun v₁ h₁ => ?_
  unfold loadLead
  cases (w.loader l).cached? name with
  | some c => exact .pure h₁ rfl
  | none => exact .after h₁ (.log _) fun v₂ h₂ => .loaderPlaceholder h₂ l name

theorem Enclosed.forName (hc : w.Own l c) (name : String) :
    Brings w (c.forName name) v fun v' => w.LeadsTo v' (w.loadLead l name) := by
  have hk := hl.collaborator? hc
  refine .after hv (.see fun _ => (hv.collaborator? hc.lt).trans hk) fun v₁ h₁ => ?_
  refine .after h₁ (hl.lookup h₁ name) fun v₂ h₂ => ?_
  unfold loadLead
  cases (w.loader l).cached? name with
  | some d => exact .pure h₂ rfl
  | none =>
    have hmissed : w.missedLead c name = w.standInLead l name := by
      unfold missedLead standInLead
      rw [hk]
      rfl
    rw [← hmissed]
    exact .placeholder h₂ hc.lt (hl.unsourced hc) name

end

include hw hl

theorem Enclosed.inside_load (name : String) : w.Inside l (w.loadLead l name) := by
  unfold loadLead
  cases hc : (w.loader l).cached? name with
  | some c => exact hl.own_of_cached? hw hc
  | none => exact hl.inside_standIn hw name

include hv

theorem Enclosed.qualifiedName {r : RefId} (hr : w.Refers l r) :
    Brings w r.qualifiedName v fun _ text => text = w.referredName r := by
  refine .after hv (a := v.reference r) (.see fun _ => rfl) fun v₁ h₁ => ?_
  unfold referredName
  rw [hv.targets r]
  cases ht : (w.reference r).target with
  | direct c =>
    refine .ofSays (.see fun _ => ?_) h₁
    exact congrArg ClassNode.qualifiedName (h₁.node (hr.direct c ht).lt)
  | qualified name c => exact .pure h₁ rfl
  | unqualified name c =>
    refine (Brings.resolve h₁ (hr.settles hl)).bind fun d v₂ h₂ _ hd => .ofSays (.see fun _ => ?_) h₂
    exact (hl.region hw).name (h₂.log _) (hl.inside hw hr) hd

/-! ### Walks -/

section
variable (hc : w.Own l c)
include hc

theorem Enclosed.flatten (kind : MemberKind) : Brings w (c.flatten kind) v fun _ ms =>
    ms = (Descent.gather w.inherited (w.ownMembers kind) w.reach (.known c)).getD [] := by
  have hS := hl.region hw
  have hx : w.Inside l (.known c) := hc
  have h := flattenWithin_follows hS kind v.walkBound (.known c) c v hx hv rfl
  rw [Descent.gather_stable w.knownLeads hS.inherited_closed hS.inherited_known hv.reach_le hx] at h
  exact .of_eq (flatten_run v kind c) (h.complete hv rfl)

theorem Enclosed.tryFlatten (kind : MemberKind) : Brings w (c.tryFlatten kind).run v fun _ r =>
    r = w.spelt ((Descent.gatherGuarded w.inherited (w.ownMembers kind) w.reach [] (.known c)).getD (.ok [])) := by
  have hS := hl.region hw
  have hx : w.Inside l (.known c) := hc
  have h := flattenBelow_follows hS kind v.walkBound [] (.known c) c v (by simp) hx hv rfl
  rw [List.map_nil,
    Descent.gatherGuarded_stable w.knownLeads hS.inherited_closed hS.inherited_known hv.reach_le hx] at h
  have hrun : (c.tryFlatten kind).run v = _ := tryFlatten_run v kind c
  exact .of_eq hrun ((h.complete hv (.found [])).imp fun _ _ => Agrees.eq_spelt)

end

section
variable {target other : ClassId} (ht : w.Own l target) (ho : w.Own l other)
include ht ho

theorem Enclosed.isAssignableFrom : Brings w (target.isAssignableFrom other) v fun _ b =>
    b = (w.assignableAtOnce? target other).getD
      ((Descent.search w.supers (w.hit (w.nameOf target)) w.reach (.known other)).getD false) := by
  have hS := hl.region hw
  have hx : w.Inside l (.known other) := ho
  have hrun := isAssignableFrom_run v target other
  rw [hv.assignableAtOnce? ht.lt ho.lt, hv.nameOf ht.lt] at hrun
  cases honce : w.assignableAtOnce? target other with
  | some b =>
    rw [honce] at hrun
    exact .of_eq (t := Pure.pure b) hrun (.pure hv rfl)
  | none =>
    rw [honce] at hrun
    have h := reachesWithin_follows hS (w.nameOf target) v.walkBound (.known other) other v hx hv rfl
    rw [Descent.search_stable w.knownLeads hS.closed (fun _ => hS.mem_knownLeads) hv.reach_le hx] at h
    exact .of_eq hrun (h.complete hv rfl)

theorem Enclosed.tryIsAssignableFrom : Brings w (target.tryIsAssignableFrom other).run v fun _ r =>
    r = ((w.assignableAtOnce? target other).map .ok).getD
      (w.spelt ((Descent.guarded w.supers (w.hit (w.nameOf target)) w.reach [] (.known other)).getD (.ok false))) := by
  have hS := hl.region hw
  have hx : w.Inside l (.known other) := ho
  have hrun : (target.tryIsAssignableFrom other).run v = _ := tryIsAssignableFrom_run v target other
  rw [hv.assignableAtOnce? ht.lt ho.lt, hv.nameOf ht.lt] at hrun
  cases honce : w.assignableAtOnce? target other with
  | some b =>
    rw [honce] at hrun
    exact .of_eq (t := fun _ => (.ok b, v)) hrun ⟨hv, .refl _, rfl⟩
  | none =>
    rw [honce] at hrun
    have h := reachesBelow_follows hS (w.nameOf target) v.walkBound [] (.known other) other v (by simp) hx hv rfl
    rw [List.map_nil, Descent.guarded_stable w.knownLeads hS.closed (fun _ => hS.mem_knownLeads) hv.reach_le hx] at h
    exact .of_eq hrun ((h.complete hv (.found false)).imp fun _ _ => Agrees.eq_spelt)

end

theorem Enclosed.classes : Brings w (Step.see fun v => (v.loader l).classes.values) v fun v' cs =>
    List.Forall₂ (w.Finds l v') ((w.loader l).classes.values.map .known) cs := by
  have hclasses : (v.loader l).classes = (w.loader l).classes := by rw [hv.loaders l]
  refine ⟨hv, .refl _, ?_⟩
  show List.Forall₂ (w.Finds l v) _ (v.loader l).classes.values
  rw [hclasses, List.forall₂_map_left_iff, List.forall₂_same]
  exact fun c hc => ⟨hl.own_of_registered hw hc, rfl⟩

/-! ### All queries -/

/-- However much has been resolved before, a query brings out what is settled of its answer. -/
theorem Enclosed.ask {q : Query} (hq : q.About w l) : Brings w q.ask v fun v' a => w.Reads l v' (w.outcome l q) a := by
  have hS := hl.region hw
  have hcached {name : String} {c : ClassId} (hc : (w.loader l).cached? name = some c) : w.Own l c :=
    hl.own_of_cached? hw hc
  cases q with
  | lookup k name =>
    subst hq
    refine (Brings.ofSays (hl.lookup hv name) hv).map fun v' a ha => .found ?_
    subst ha
    exact finds_known fun c => hcached
  | lookupDefault k name =>
    subst hq
    refine (Brings.ofSays (hl.lookupDefault hv name) hv).map fun v' a ha => .found ?_
    subst ha
    refine finds_known fun c hc => ?_
    obtain ⟨_, hc⟩ := exists_cached?_of_foundDefault? hc
    exact hcached hc
  | load l' name =>
    subst hq
    exact (hl.load hv name).map fun v' c hc => .found (.some ⟨hl.inside_load hw name, hc⟩)
  | forName c name => exact (hl.forName hv hq name).map fun v' d hd => .found (.some ⟨hl.inside_load hw name, hd⟩)
  | resolve r =>
    exact (Brings.resolve hv (hq.settles hl)).map fun v' c hc => .found (.some ⟨hl.inside hw hq, hc⟩)
  | qualifiedName r => exact (hl.qualifiedName hw hv hq).map fun _ _ => .name
  | superclass c =>
    have hx : w.Inside l (.known c) := hq
    have hclosed (y) (hy : y ∈ w.superclassLead (.known c)) : w.Inside l y :=
      hS.closed _ hx y (mem_supers_of_superclass hy)
    exact (hS.superclass hv hx rfl).map fun v' d hd => .found (finds_option hclosed hd)
  | interfaces c =>
    have hx : w.Inside l (.known c) := hq
    have hclosed (y) (hy : y ∈ w.interfaceLeads (.known c)) : w.Inside l y :=
      hS.closed _ hx y (List.mem_append_left _ hy)
    exact (hS.interfaces hv hx rfl).map fun v' ds hds => .classes (finds_list hclosed hds)
  | flatten c kind => exact (hl.flatten hw hv hq kind).map fun _ _ hms => .members (congrArg Except.ok hms)
  | tryFlatten c kind => exact (hl.tryFlatten hw hv hq kind).map fun _ _ => .members
  | isAssignableFrom target other =>
    exact (hl.isAssignableFrom hw hv hq.1 hq.2).map fun _ _ hb => .assignable (congrArg Except.ok hb)
  | tryIsAssignableFrom target other => exact (hl.tryIsAssignableFrom hw hv hq.1 hq.2).map fun _ _ => .assignable
  | types p =>
    refine .after hv (.see fun _ => hv.typesAt p) fun v₁ h₁ => ?_
    have hclosed (y) (hy : y ∈ (w.typesAt p).map w.lead) : w.Inside l y := by
      obtain ⟨r, hr, rfl⟩ := List.mem_map.mp hy
      exact hl.inside hw (hq r hr)
    have hresolve := Brings.resolveAll h₁ fun r hr => (hq r hr).settles hl
    exact hresolve.map fun v' cs hcs => .classes (finds_list hclosed hcs)
  | classes l' => subst hq; exact (hl.classes hw hv).map fun v' cs hcs => .classes hcs
  | snapshot l' =>
    subst hq
    have hsee : Brings w (Step.see (·.snapshot l')) v fun _ s => s = w.snapshot l' := ⟨hv, .refl _, hl.snapshot hw hv⟩
    exact hsee.map fun _ _ => .snapshot

theorem Enclosed.ends_iff {q : Query} (hq : q.About w l) : q.Ends v ↔ q.Ends w := by
  have hS := hl.region hw
  cases q with
  | flatten c kind =>
    have hx : w.Inside l (.known c) := hq
    exact exists_congr fun depth => Follows.ends_alike hv fun u hu =>
      flattenWithin_follows hS kind depth (.known c) c u hx hu rfl
  | tryFlatten c kind =>
    have hx : w.Inside l (.known c) := hq
    exact exists_congr fun depth => Follows.ends_alike hv fun u hu =>
      flattenBelow_follows hS kind depth [] (.known c) c u (by simp) hx hu rfl
  | isAssignableFrom target other =>
    obtain ⟨ht, ho⟩ := hq
    have hx : w.Inside l (.known other) := ho
    unfold Query.Ends
    dsimp only
    rw [hv.assignableAtOnce? ht.lt ho.lt, hv.nameOf ht.lt]
    exact imp_congr_right fun _ => exists_congr fun depth => Follows.ends_alike hv fun u hu =>
      reachesWithin_follows hS (w.nameOf target) depth (.known other) other u hx hu rfl
  | tryIsAssignableFrom target other =>
    obtain ⟨ht, ho⟩ := hq
    have hx : w.Inside l (.known other) := ho
    unfold Query.Ends
    dsimp only
    rw [hv.assignableAtOnce? ht.lt ho.lt, hv.nameOf ht.lt]
    exact imp_congr_right fun _ => exists_congr fun depth => Follows.ends_alike hv fun u hu =>
      reachesBelow_follows hS (w.nameOf target) depth [] (.known other) other u (by simp) hx hu rfl
  | _ => rfl

end

/-! ## Any number of queries -/

abbrev Asked (l : LoaderId) : World → World → Prop := ReflTransGen fun u v => ∃ q : Query, q.About u l ∧ v = (q.ask u).2

section
variable {w v : World} {l : LoaderId}

theorem Enclosed.asked (hw : Run .empty w) (hl : w.Enclosed l) (h : Asked l w v) :
    Run .empty v ∧ w.Settled v := by
  induction h with
  | refl => exact ⟨hw, .refl w⟩
  | @tail u _ _ hq ih =>
    obtain ⟨hu, hs⟩ := ih
    obtain ⟨q, hq, rfl⟩ := hq
    -- A query may be about a stand-in that an earlier one has made, so the step is taken from `u`.
    have hstep := (hl.settled hw hs).ask hu (.refl u) hq
    exact ⟨hu.tail (.ask hq.placed), hs.trans hstep.settled⟩

/-- Resolving cannot be observed: after any number of queries, each query is answered as if it were the
first, and the classes of the loader and its snapshot are what they were. -/
theorem queries_unobserved (hw : Run .empty w) (hl : w.Enclosed l) (h : Asked l w v) :
    (∀ q : Query, q.About w l → (q.Ends v ↔ q.Ends w) ∧
      Answer.Alike w (q.ask w).2 (q.ask v).2 (q.ask w).1 (q.ask v).1) ∧
      (v.loader l).classes = (w.loader l).classes ∧ v.snapshot l = w.snapshot l ∧ Run .empty v ∧ v.Enclosed l := by
  obtain ⟨hrun, hv⟩ := hl.asked hw h
  refine ⟨fun q hq => ⟨hl.ends_iff hw hv hq, ?_⟩, by rw [hv.loaders l], hl.snapshot hw hv, hrun, hl.settled hw hv⟩
  have hbefore := (hl.ask hw (.refl w) hq).result
  have hafter := (hl.ask hw hv hq).result
  exact hbefore.alike hafter

end

/-! A class with a superclass and an interface that nobody has defined. Which of them is asked for first
shows in who their stand-ins are, and nowhere else. -/

def gaps : World :=
  let changes : List Mutation := [.define ⟨0⟩ "p" "A" [], .edit (.onClass ⟨10⟩ (.setSuperclass "q.M")),
    .edit (.onClass ⟨10⟩ (.addInterface "q.N"))]
  changes.foldl (fun w m => (m.run w).2) single

theorem run_gaps : Run .empty gaps :=
  .tail (.tail (.tail (.tail .refl (.makeLoader _ .standard [])) (.mutate _ _)) (.mutate _ _)) (.mutate _ _)

theorem enclosed_gaps : gaps.Enclosed ⟨0⟩ where
  alive := by decide +kernel
  sources := List.isEmpty_iff.mp (by decide +kernel)
  present c _ := by
    have hgone : gaps.gone = [] := List.isEmpty_iff.mp (by decide +kernel)
    unfold World.isAlive
    rw [hgone]
    rfl
  direct c hc r hr d hd := by
    have h : ∀ i < gaps.nodes.size, ∀ r ∈ gaps.shownReferences ⟨i⟩, (gaps.reference r).kind ≠ .direct := by
      decide +kernel
    exact (h c.index hc.lt r hr (by unfold Reference.kind; rw [hd])).elim

theorem own_gaps : gaps.Own ⟨0⟩ ⟨10⟩ := ⟨by decide +kernel, by decide +kernel⟩

theorem gaps_unobserved : Run .empty gaps ∧ gaps.Enclosed ⟨0⟩ ∧
    Asked ⟨0⟩ gaps ((Query.interfaces ⟨10⟩).ask gaps).2 ∧
    (ClassId.superclass ⟨10⟩ gaps).1 = some ⟨11⟩ ∧
    (ClassId.superclass ⟨10⟩ ((Query.interfaces ⟨10⟩).ask gaps).2).1 = some ⟨12⟩ ∧
    Answer.Alike gaps ((Query.superclass ⟨10⟩).ask gaps).2
      ((Query.superclass ⟨10⟩).ask ((Query.interfaces ⟨10⟩).ask gaps).2).2
      (.found (some ⟨11⟩)) (.found (some ⟨12⟩)) := by
  have hfirst : (ClassId.superclass ⟨10⟩ gaps).1 = some ⟨11⟩ := by decide +kernel
  have hsecond : (ClassId.superclass ⟨10⟩ ((Query.interfaces ⟨10⟩).ask gaps).2).1 = some ⟨12⟩ := by decide +kernel
  have hasked : Asked ⟨0⟩ gaps ((Query.interfaces ⟨10⟩).ask gaps).2 := .single ⟨.interfaces ⟨10⟩, own_gaps, rfl⟩
  obtain ⟨hanswers, -⟩ := queries_unobserved run_gaps enclosed_gaps hasked
  obtain ⟨-, halike⟩ := hanswers (.superclass ⟨10⟩) own_gaps
  have hask (w : World) : ((Query.superclass ⟨10⟩).ask w).1 = .found (ClassId.superclass ⟨10⟩ w).1 := rfl
  rw [hask, hask, hfirst, hsecond] at halike
  exact ⟨run_gaps, enclosed_gaps, hasked, hfirst, hsecond, halike⟩

end World

end ClassModel
