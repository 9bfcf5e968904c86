import ClassModel.Proofs.Graph.Trails
import Mathlib.Data.List.Forall2

/-!
# Removing interfaces

A removal compares names. It resolves the references that were written without a package, since these alone do not
say what their classes are called, and nothing else. In a class whose loader asks nobody a qualified reference does
say it, whatever it has been resolved to and whenever: so the references that go are those that resolve to a class
of the name.
-/

namespace ClassModel

open Name Change

def ClassNode.keeping (n : ClassNode) (keep : RefId → Bool) : ClassNode :=
  { n with interfaces := n.interfaces.filter keep }

namespace World

/-! ## Qualified names hold -/

/-- Whatever a qualified reference remembers has the name that was written, if the loader of the class in which it
was written asks nobody. -/
def Faithful (w : World) : Prop := ∀ r name c d, (w.reference r).target = .qualified name c →
  (w.reference r).memo = some d → c.index < w.nodes.size ∧ ∀ l, (w.node c).lookup = some (.loader l) →
    (w.loader l).sources = [] → IsClassName name → d.index < w.nodes.size ∧ w.nameOf d = name

section
variable {w w' : World} {l : LoaderId} {c d : ClassId} {r : RefId}

theorem Faithful.adds (h : w.Faithful) (hk : w.Keeps w') (ha : w.AddsReferences w') : w'.Faithful := by
  intro r name c d ht hd
  by_cases hr : r.index < w.references.size
  · rw [show w'.reference r = w.reference r from ha.kept.get_eq _ hr] at ht hd
    obtain ⟨hlt, hname⟩ := h r name c d ht hd
    refine ⟨Nat.lt_of_lt_of_le hlt hk.size, fun l hlookup hs hclass => ?_⟩
    rw [(hk.same c hlt).lookup] at hlookup
    obtain ⟨hdlt, hnameOf⟩ := hname l hlookup (hk.sources_eq_nil hs) hclass
    exact ⟨Nat.lt_of_lt_of_le hdlt hk.size, by rw [hk.nameOf hdlt, hnameOf]⟩
  · rw [ha.unresolved r (Nat.not_lt.mp hr)] at hd
    cases hd

theorem Faithful.remember (h : w.Faithful) (hw : w.Orderly) (hm : w.MayRemember r c) :
    (w.editReference r fun x => { x with memo := some c }).Faithful := by
  intro q name e d ht hd
  rw [reference_remember] at ht hd
  split at hd
  · rename_i hq
    rw [if_pos hq] at ht
    obtain ⟨rfl, -⟩ := hq
    cases hd
    refine ⟨hm.placed.context e (congrArg Target.context? ht), fun l hlookup hs hclass => ?_⟩
    obtain ⟨hname, hlt⟩ := hw.leadName_of_goesBy hs hclass (hm.goesBy name e ht l hlookup hs)
    exact ⟨hlt c rfl, hname⟩
  · rename_i hq
    rw [if_neg hq] at ht
    exact h q name e d ht hd

theorem Run.faithful (h : Run .empty w) : w.Faithful :=
  (h.lasts (P := fun w => w.Orderly ∧ w.Faithful) soundEmpty ⟨.empty, fun _ _ _ _ _ hd => by cases hd⟩
    (fun ⟨ho, hf⟩ hb => ⟨ho.builds hb, hf.adds hb.keeps hb.references⟩)
    fun ⟨ho, hf⟩ hm => ⟨ho.move (.remember _ _ _), hf.remember ho hm⟩).2

structure Tells (w : World) (r : RefId) : Prop where
  settles : w.Settles r
  lt : ∀ d, w.lead r = .known d → d.index < w.nodes.size
  qualified : ∀ name c, (w.reference r).target = .qualified name c → w.leadName (w.lead r) = name

theorem Run.tells (h : Run .empty w) (hg : w.Grounded) (hc : w.Own l c) (hs : (w.loader l).sources = [])
    (hr : w.Written c r) : w.Tells r := by
  obtain ⟨ho, -⟩ := h.enclosed
  obtain ⟨made, hw⟩ := ho.sound
  have hsettles := hr.settles hc.lt (unsourced_of_lookup hc.lookup hs)
  refine ⟨hsettles, fun d => hw.lead_lt hg hr.lt hsettles, fun name d ht => ?_⟩
  obtain ⟨rfl, hname⟩ : d = c ∧ IsClassName name := by
    have htarget := hr.target
    rwa [ht] at htarget
  cases hk : (w.reference r).known? with
  | some e =>
    have hmemo : (w.reference r).memo = some e := by rwa [Reference.known?, ht] at hk
    rw [lead_of_known hk]
    exact ((h.faithful r name d e ht hmemo).2 l hc.lookup hs hname).2
  | none =>
    rw [lead_of_unknown hk, ht]
    exact (ho.leadName_of_goesBy hs hname (goesBy_leadFrom hc.lookup name)).1

end

/-! ## Comparing names -/

section
variable {w₀ w v : World} {r : RefId} {rs : List RefId} {c : ClassId} {q : String}

theorem Tells.resolvedName (h : w.Tells r) : w.resolvedName r = w.leadName (w.lead r) := resolvedName_eq h.settles h.lt

theorem Tells.nameOf (h : w.Tells r) (hv : w.Settled v) (hc : w.LeadsTo v (w.lead r) c) :
    v.nameOf c = w.resolvedName r := by rw [h.resolvedName, hc.nameOf hv h.lt]

/-- What is brought out changes nothing. -/
theorem Tells.settled (h : w.Tells r) (hv : w.Settled v) : v.Tells r ∧ v.resolvedName r = w.resolvedName r := by
  have hled : v.leadName (v.lead r) = w.leadName (w.lead r) ∧ ∀ d, v.lead r = .known d → d.index < v.nodes.size := by
    rcases hv.led h.settles with he | ⟨d, he, hd⟩
    · rw [he]
      refine ⟨?_, fun d hd => Nat.lt_of_lt_of_le (h.lt d hd) hv.nodes.size_le⟩
      cases hl : w.lead r with
      | known d => exact hv.nameOf (h.lt d hl)
      | missing name => rfl
    · rw [he]
      refine ⟨hd.nameOf hv h.lt, ?_⟩
      rintro _ ⟨⟩
      cases hl : w.lead r with
      | known e =>
        rw [hl] at hd
        cases hd
        exact Nat.lt_of_lt_of_le (h.lt d hl) hv.nodes.size_le
      | missing name =>
        rw [hl] at hd
        exact hd.2.1
  have htells : v.Tells r := ⟨hv.settles h.settles, hled.2, fun name c ht => by
    rw [hled.1]
    exact h.qualified name c (by rwa [hv.targets] at ht)⟩
  exact ⟨htells, by rw [htells.resolvedName, h.resolvedName, hled.1]⟩

theorem qualifiedName_run (w : World) (r : RefId) : r.qualifiedName w = (match (w.reference r).target with
    | .direct c => Step.see (·.nameOf c)
    | .qualified name _ => pure name
    | .unqualified _ _ => r.resolve >>= fun c => Step.see (·.nameOf c) : Step String) w := rfl

theorem qualifiedName_brings (h : w₀.Tells r) (hw : w₀.Settled w) :
    Brings w₀ r.qualifiedName w fun _ name => name = w₀.resolvedName r := by
  refine .of_eq (qualifiedName_run w r) ?_
  rw [hw.targets r]
  cases ht : (w₀.reference r).target with
  | direct c =>
    have hlead : w₀.lead r = .known c := lead_of_known (by rw [Reference.known?, ht])
    exact .ofSays (.see fun _ => h.nameOf (hw.log _) (by rw [hlead]; rfl)) hw
  | qualified name c => exact .pure hw (by rw [h.resolvedName, h.qualified name c ht])
  | unqualified name c =>
    exact (Brings.resolve hw h.settles).bind fun d v hv _ hd => .ofSays (.see fun _ => h.nameOf (hv.log _) hd) hv

theorem namedReferences_brings (q : String) : ∀ {rs : List RefId} {w : World}, (∀ r ∈ rs, w₀.Tells r) → w₀.Settled w →
    Brings w₀ (ClassId.namedReferences q rs) w fun _ named => named = rs.filter fun r => w₀.resolvedName r = q
  | [], _, _, hw => .pure hw rfl
  | r :: rs, _, h, hw => by
    obtain ⟨hr, hrs⟩ := List.forall_mem_cons.mp h
    refine (qualifiedName_brings hr hw).bind fun own w₁ hw₁ _ hown => ?_
    refine (namedReferences_brings q hrs hw₁).bind fun rest w₂ hw₂ _ hrest => .pure hw₂ ?_
    subst hown hrest
    rw [List.filter_cons]
    simp only [decide_eq_true_eq]

def bareAmong (w : World) (rs : List RefId) : List RefId := rs.filter fun r => (w.reference r).kind = .unqualified

theorem Settled.bareAmong (h : w₀.Settled w) (rs : List RefId) : w.bareAmong rs = w₀.bareAmong rs := by
  unfold World.bareAmong Reference.kind
  simp only [h.targets]

/-- These are resolved in order, and nothing else is done, whatever the name is. -/
theorem namedReferences_resolves (q : String) : ∀ {rs : List RefId} {w : World}, (∀ r ∈ rs, w.Settles r) →
    (ClassId.namedReferences q rs w).2 = (RefId.resolveAll (w.bareAmong rs) w).2
  | [], _, _ => rfl
  | r :: rs, w, h => by
    obtain ⟨hr, hrs⟩ := List.forall_mem_cons.mp h
    have hrun : (ClassId.namedReferences q (r :: rs) w).2 = (ClassId.namedReferences q rs (r.qualifiedName w).2).2 :=
      rfl
    have hname := congrArg Prod.snd (qualifiedName_run w r)
    have hkeep (hsame : (r.qualifiedName w).2 = w) (hkind : (w.reference r).kind ≠ .unqualified) :
        (ClassId.namedReferences q (r :: rs) w).2 = (RefId.resolveAll (w.bareAmong (r :: rs)) w).2 := by
      rw [hrun, hsame, namedReferences_resolves q hrs, bareAmong, bareAmong,
        List.filter_cons_of_neg (by simpa using hkind)]
    cases ht : (w.reference r).target with
    | direct c => exact hkeep (by rw [hname, ht]; rfl) (by simp [Reference.kind, ht])
    | qualified name c => exact hkeep (by rw [hname, ht]; rfl) (by simp [Reference.kind, ht])
    | unqualified name c =>
      have hsettled := (Brings.resolve (.refl w) hr).settled
      have hresolve : (r.qualifiedName w).2 = (r.resolve w).2 := by rw [hname, ht]; rfl
      rw [hrun, hresolve, namedReferences_resolves q fun q hq => hsettled.settles (hrs q hq), hsettled.bareAmong,
        bareAmong, bareAmong, List.filter_cons_of_pos (by simp [Reference.kind, ht])]
      rfl

theorem resolveAll_of_known : ∀ {rs : List RefId} {w : World}, (∀ r ∈ rs, (w.reference r).isResolved) →
    (RefId.resolveAll rs w).2 = w
  | [], _, _ => rfl
  | r :: rs, w, h => by
    obtain ⟨hr, hrs⟩ := List.forall_mem_cons.mp h
    obtain ⟨d, hd⟩ := Option.isSome_iff_exists.mp hr
    have hsame : r.resolve w = (d, w) := by rw [resolve_run, hd]
    rw [show (RefId.resolveAll (r :: rs) w).2 = (RefId.resolveAll rs (r.resolve w).2).2 from rfl, hsame]
    exact resolveAll_of_known hrs

/-- The interfaces have the names of the classes to which the references resolve. -/
theorem names_interfaces (h : ∀ r ∈ (w.node c).interfaceRefs, w.Tells r) :
    (c.interfaces w).1.map (c.interfaces w).2.nameOf = (w.node c).interfaceRefs.map w.resolvedName := by
  have hbrings := Brings.resolveAll (.refl w) fun r hr => (h r hr).settles
  have hpairs := (List.forall₂_and_left _ _).mpr ⟨h, List.forall₂_map_left_iff.mp hbrings.result⟩
  have hnames := hpairs.imp fun r d hrd => (hrd.1.nameOf hbrings.settled hrd.2).symm
  have hsame : List.Forall₂ Eq ((w.node c).interfaceRefs.map w.resolvedName)
      ((c.interfaces w).1.map (c.interfaces w).2.nameOf) :=
    List.forall₂_map_left_iff.mpr (List.forall₂_map_right_iff.mpr hnames)
  rw [List.forall₂_eq_eq_eq] at hsame
  exact hsame.symm

/-! ## What a removal does -/

/-- The world in which the names of all interfaces of the class can be compared. -/
def told (w : World) (c : ClassId) : World := (RefId.resolveAll (w.bareAmong (w.node c).interfaces) w).2

def keeping (w : World) (c : ClassId) (keep : RefId → Bool) : World := w.editNode c (·.keeping keep)

section
variable {keep keep' : RefId → Bool}

theorem keeping_congr (h : ∀ r ∈ (w.node c).interfaces, keep r = keep' r) : w.keeping c keep = w.keeping c keep' := by
  have hnode : (w.node c).keeping keep = (w.node c).keeping keep' := by
    unfold ClassNode.keeping
    rw [List.filter_congr h]
  unfold keeping editNode
  rw [Store.modify_congr w.nodes (f := (·.keeping keep)) (g := (·.keeping keep')) hnode]

theorem keeping_all (h : ∀ r ∈ (w.node c).interfaces, keep r) : w.keeping c keep = w := by
  have hnode : (w.node c).keeping keep = id (w.node c) := by
    unfold ClassNode.keeping
    rw [List.filter_eq_self.mpr h]
    rfl
  unfold keeping editNode
  rw [Store.modify_congr w.nodes (f := (·.keeping keep)) (g := id) hnode, Store.modify_id]

theorem keeping_keeping : (w.keeping c keep).keeping c keep' = w.keeping c fun r => keep r && keep' r := by
  unfold keeping editNode
  simp only [Store.modify_modify]
  congr 2
  funext n
  simp [ClassNode.keeping, List.filter_filter, Bool.and_comm]

variable (w c keep)

theorem sameClass_keeping (d : ClassId) : (w.node d).imports = ((w.keeping c keep).node d).imports ∧
    SameClass (w.node d) ((w.keeping c keep).node d) := by
  unfold keeping
  rw [node_editNode]
  split <;> exact ⟨rfl, rfl, rfl, rfl, rfl, rfl⟩

theorem lead_keeping (r : RefId) : (w.keeping c keep).lead r = w.lead r := by
  have hcollaborator (d : ClassId) : (w.keeping c keep).collaborator? d = w.collaborator? d := by
    unfold collaborator?
    rw [(w.sameClass_keeping c keep d).2.lookup]
    rfl
  have hfrom (d : ClassId) (name : String) (find : Collaborator → Option ClassId) :
      (w.keeping c keep).leadFrom d name find = w.leadFrom d name find := by
    unfold leadFrom missedLead
    rw [hcollaborator]
    rfl
  have hunqualified (d : ClassId) (name : String) :
      (w.keeping c keep).foundUnqualified? d name = w.foundUnqualified? d name := by
    funext k
    unfold foundUnqualified?
    rw [(w.sameClass_keeping c keep d).2.package, ← (w.sameClass_keeping c keep d).1]
    rfl
  unfold lead leadAnew
  simp only [hfrom, hunqualified]
  rfl

end

theorem Tells.keeping (h : w.Tells r) (c : ClassId) (keep : RefId → Bool) :
    (w.keeping c keep).Tells r ∧ (w.keeping c keep).resolvedName r = w.resolvedName r := by
  have hlead := w.lead_keeping c keep r
  have hsize : (w.keeping c keep).nodes.size = w.nodes.size := Store.size_modify _ _ _
  have hname (x : Lead) : (w.keeping c keep).leadName x = w.leadName x := by
    cases x with
    | known d =>
      have hsame := (w.sameClass_keeping c keep d).2
      simp only [leadName, World.nameOf, ClassNode.qualifiedName, hsame.package, hsame.simpleName]
    | missing name => rfl
  have htells : (w.keeping c keep).Tells r := by
    refine ⟨fun name d ht => ?_, fun d hd => ?_, fun name d ht => ?_⟩
    · obtain ⟨hlt, hu⟩ := h.settles name d ht
      refine ⟨hsize ▸ hlt, fun k hk => hu k ?_⟩
      unfold collaborator? at hk ⊢
      rwa [(w.sameClass_keeping c keep d).2.lookup] at hk
    · rw [hlead] at hd
      rw [hsize]
      exact h.lt d hd
    · rw [hlead, hname]
      exact h.qualified name d ht
  exact ⟨htells, by rw [htells.resolvedName, h.resolvedName, hlead, hname]⟩

structure Comparable (w : World) (c : ClassId) : Prop where
  lt : c.index < w.nodes.size
  editable : w.Editable c
  tells : ∀ r ∈ (w.node c).interfaces, w.Tells r

def without (w : World) (c : ClassId) (q : String) : World := (w.told c).keeping c fun r => w.resolvedName r != q

namespace Comparable

theorem settled_told (h : w.Comparable c) : w.Settled (w.told c) :=
  (Brings.resolveAll (.refl w) fun r hr => (h.tells r (List.mem_filter.mp hr).1).settles).settled

theorem node_told (h : w.Comparable c) : (w.told c).node c = w.node c := h.settled_told.node h.lt

theorem removeInterface (h : w.Comparable c) (hq : q ≠ "") : c.removeInterface q w = (.ok (), w.without c q) := by
  have htells := h.tells
  have hnamed : ClassId.namedReferences q (w.node c).interfaces w =
      ((w.node c).interfaces.filter fun r => w.resolvedName r = q, w.told c) :=
    Prod.ext (namedReferences_brings q htells (.refl w)).result
      (namedReferences_resolves q fun r hr => (htells r hr).settles)
  have hkeep : ∀ r ∈ ((w.told c).node c).interfaces,
      (!((w.node c).interfaces.filter fun r => w.resolvedName r = q).contains r) = (w.resolvedName r != q) := by
    intro r hr
    rw [h.node_told] at hr
    by_cases hname : w.resolvedName r = q <;> simp [hname, hr]
  have hrun : c.removeInterface q w = ((fun doomed : List RefId => (do
      if doomed.isEmpty then return ()
      requireDeclared c
      Change.of <| Step.onNode c fun n =>
        { n with interfaces := n.interfaces.filter fun r => !doomed.contains r } : Change Unit))
      (ClassId.namedReferences q (w.node c).interfaces w).1) (ClassId.namedReferences q (w.node c).interfaces w).2 := by
    unfold ClassId.removeInterface
    rw [if_neg (by simpa using hq)]
    rfl
  rw [hrun, hnamed]
  dsimp only
  generalize hdoomed : (w.node c).interfaces.filter (fun r => w.resolvedName r = q) = doomed at hkeep
  by_cases hnone : doomed.isEmpty
  · rw [if_pos hnone]
    rw [List.isEmpty_iff.mp hnone] at hkeep
    exact Prod.ext rfl (keeping_all fun r hr => by simpa using (hkeep r hr).symm).symm
  · rw [if_neg hnone]
    have hc : (w.told c).Editable c := by
      unfold Editable
      rw [h.node_told]
      exact h.editable
    exact ((dropInterfaces_makes c doomed (w.told c)).made hc).trans (Prod.ext rfl (keeping_congr hkeep))

theorem node_without (h : w.Comparable c) (q : String) :
    (w.without c q).node c = (w.node c).keeping fun r => w.resolvedName r != q := by
  have hlt : c.index < (w.told c).nodes.size := Nat.lt_of_lt_of_le h.lt h.settled_told.nodes.size_le
  rw [without, keeping, node_editNode_self hlt, h.node_told]

theorem node_without_of_ne (h : w.Comparable c) {d : ClassId} (hd : d ≠ c) (hlt : d.index < w.nodes.size) :
    (w.without c q).node d = w.node d := by
  rw [without, keeping, node_editNode_of_ne _ hd, h.settled_told.node hlt]

/-- What the interfaces are called a removal does not change. -/
theorem tells_without (h : w.Comparable c) (q : String) (hr : r ∈ (w.node c).interfaces) :
    (w.without c q).Tells r ∧ (w.without c q).resolvedName r = w.resolvedName r := by
  obtain ⟨htold, hname⟩ := (h.tells r hr).settled h.settled_told
  obtain ⟨hkept, hname'⟩ := htold.keeping c fun r => w.resolvedName r != q
  exact ⟨hkept, hname'.trans hname⟩

theorem without (h : w.Comparable c) (q : String) : (w.without c q).Comparable c := by
  have hnode := h.node_without q
  refine ⟨?_, ?_, fun r hr => ?_⟩
  · show c.index < ((w.told c).nodes.modify _ _).size
    rw [Store.size_modify]
    exact Nat.lt_of_lt_of_le h.lt h.settled_told.nodes.size_le
  · unfold Editable
    rw [hnode]
    exact h.editable
  · rw [hnode] at hr
    exact (h.tells_without q (List.mem_filter.mp hr).1).1

/-- By then all is known that has to be compared. -/
theorem told_without (h : w.Comparable c) (q : String) : (w.without c q).told c = w.without c q := by
  refine resolveAll_of_known fun r hr => ?_
  obtain ⟨hmem, hkind⟩ := List.mem_filter.mp hr
  rw [h.node_without q] at hmem
  have hsettles : ∀ r ∈ w.bareAmong (w.node c).interfaces, w.Settles r := fun r hr =>
    (h.tells r (List.mem_filter.mp hr).1).settles
  have hresolved := resolveAll_resolved hsettles
  refine (hresolved.known r).mpr (.inr ?_)
  rw [← h.settled_told.bareAmong]
  exact List.mem_filter.mpr ⟨(List.mem_filter.mp hmem).1, hkind⟩

theorem without_without (h : w.Comparable c) (q q' : String) : (w.without c q).without c q' =
    (w.told c).keeping c fun r => w.resolvedName r != q && w.resolvedName r != q' := by
  have hkeep : ∀ r ∈ ((w.without c q).node c).interfaces,
      ((w.without c q).resolvedName r != q') = (w.resolvedName r != q') := by
    intro r hr
    rw [h.node_without q] at hr
    rw [(h.tells_without q (List.mem_filter.mp hr).1).2]
  rw [World.without, h.told_without, keeping_congr hkeep]
  exact keeping_keeping

end Comparable

end

/-- Of the interfaces of class `c` those have gone that are called `q`, in whichever way they have been written, and
of the class nothing else. -/
structure RidOf (w w' : World) (c : ClassId) (q : String) : Prop where
  node : w'.node c = { w.node c with interfaces := (w.node c).interfaces.filter fun r => w.resolvedName r != q }
  others : ∀ d ≠ c, d.index < w.nodes.size → w'.node d = w.node d
  fields : w'.fields = w.fields
  methods : w'.methods = w.methods
  constructors : w'.constructors = w.constructors
  interfaces : ∀ d ∈ (c.interfaces w').1, (c.interfaces w').2.nameOf d ≠ q

theorem Comparable.ridOf {w : World} {c : ClassId} (h : w.Comparable c) (q : String) : w.RidOf (w.without c q) c q where
  node := h.node_without q
  others _ hd hlt := h.node_without_of_ne hd hlt
  fields := h.settled_told.fields
  methods := h.settled_told.methods
  constructors := h.settled_told.constructors
  interfaces d hd := by
    have hnames := names_interfaces fun r hr => (h.without q).tells r (interfaceRefs_subset _ hr)
    have hmem := List.mem_map_of_mem (f := (c.interfaces (w.without c q)).2.nameOf) hd
    rw [hnames] at hmem
    obtain ⟨r, hr, hname⟩ := List.mem_map.mp hmem
    have hr := interfaceRefs_subset _ hr
    rw [h.node_without q] at hr
    obtain ⟨hr, hne⟩ := List.mem_filter.mp hr
    rw [← hname, (h.tells_without q hr).2]
    simpa using hne

/-- In a class whose names a loader looks up that asks nobody, removing the interfaces of a name goes through, and just
those go that resolve to a class of the name. Once is as good as twice, and two removals can be made in either order.
The same goes for removing them by a class of the name; a name that is empty is refused. -/
theorem interfaces_removed {w : World} (hw : Run .empty w) (hg : w.Grounded) {l : LoaderId} {c : ClassId}
    (hc : w.Own l c) (heditable : w.Editable c) (hs : (w.loader l).sources = []) :
    (∀ q, q ≠ "" → ∃ w', c.removeInterface q w = (.ok (), w') ∧ w.RidOf w' c q ∧
      c.removeInterface q w' = (.ok (), w')) ∧
    (∀ q q', q ≠ "" → q' ≠ "" → ∃ w', (c.removeInterface q >>= fun _ => c.removeInterface q') w = (.ok (), w') ∧
      (c.removeInterface q' >>= fun _ => c.removeInterface q) w = (.ok (), w')) ∧
    ∀ d, (w.nameOf d ≠ "" → ∃ w', (Mutation.removeInterfaceClass c d).run w = (.ok (), w') ∧
        w.RidOf w' c (w.nameOf d)) ∧
      (w.nameOf d = "" → (Mutation.removeInterfaceClass c d).run w = (.error .emptyInterfaceName, w)) := by
  obtain ⟨made, hsound⟩ := Run.sound hw soundEmpty
  have h : w.Comparable c := ⟨hc.lt, heditable, fun r hr =>
    hw.tells hg hc hs ((hsound.nodes c).supertypes r (List.mem_append_right _ hr))⟩
  refine ⟨fun q hq => ⟨_, h.removeInterface hq, h.ridOf q, ?_⟩,
    fun q q' hq hq' => ⟨(w.without c q).without c q', ?_, ?_⟩,
    fun d => ⟨fun hd => ⟨_, h.removeInterface hd, h.ridOf _⟩, fun hd => ?_⟩⟩
  · rw [(h.without q).removeInterface hq, h.without_without]
    simp only [Bool.and_self]
    rfl
  · rw [bind_run, h.removeInterface hq]
    exact (h.without q).removeInterface hq'
  · rw [bind_run, h.removeInterface hq']
    dsimp only
    rw [(h.without q').removeInterface hq, h.without_without, h.without_without]
    simp only [Bool.and_comm]
  · show c.removeInterface (w.nameOf d) w = _
    rw [hd]
    rfl

/-- A class with one interface, which has been missed, and then found in three more ways, and with another that is
missing. -/
def implementing : World :=
  let later : List Mutation := [.define ⟨0⟩ "p" "I" [], .edit (.onClass ⟨10⟩ (.addInterfaceUnqualified "I")),
    .edit (.onClass ⟨10⟩ (.addInterface "p.J")), .edit (.onClass ⟨10⟩ (.addInterfaceClass ⟨12⟩)),
    .edit (.onClass ⟨10⟩ (.addInterface "p.I"))]
  later.foldl (fun w m => (m.run w).2) (Query.ask (.interfaces ⟨10⟩) (changed
    [.define ⟨0⟩ "p" "A" [], .edit (.onClass ⟨10⟩ (.addInterface "p.I"))])).2

theorem run_implementing : Run .empty implementing :=
  .tail (.tail (.tail (.tail (.tail (.tail (run_changed _) (.ask (q := .interfaces ⟨10⟩) trivial)) (.mutate _ _))
    (.mutate _ _)) (.mutate _ _)) (.mutate _ _)) (.mutate _ _)

theorem implementing_interfaces_removed : Run .empty implementing ∧ implementing.Grounded ∧
    implementing.Own ⟨0⟩ ⟨10⟩ ∧ implementing.Editable ⟨10⟩ ∧
    (implementing.node ⟨10⟩).interfaces = [⟨0⟩, ⟨1⟩, ⟨2⟩, ⟨3⟩, ⟨4⟩] ∧
    (implementing.reference ⟨0⟩).memo = some ⟨11⟩ ∧ (implementing.node ⟨11⟩).isUnresolved ∧
    (∃ w', ClassId.removeInterface ⟨10⟩ "p.I" implementing = (.ok (), w') ∧ (w'.node ⟨10⟩).interfaces = [⟨2⟩]) ∧
    ∃ w', (Mutation.removeInterfaceClass ⟨10⟩ ⟨12⟩).run implementing = (.ok (), w') ∧
      (w'.node ⟨10⟩).interfaces = [⟨2⟩] := by
  have hsolitary : implementing.Solitary ⟨0⟩ := by decide +kernel
  have hown : implementing.Own ⟨0⟩ ⟨10⟩ := ⟨by decide +kernel, by decide +kernel⟩
  have heditable : implementing.Editable ⟨10⟩ := show _ = _ by decide +kernel
  have hleft : (implementing.node ⟨10⟩).interfaces.filter (fun r => implementing.resolvedName r != "p.I") = [⟨2⟩] := by
    decide +kernel
  have hname : implementing.nameOf ⟨12⟩ = "p.I" := by decide +kernel
  obtain ⟨hremoved, -, hclass⟩ :=
    interfaces_removed run_implementing hsolitary.grounded hown heditable hsolitary.sources
  obtain ⟨w', hrun, hrid, -⟩ := hremoved "p.I" (by decide)
  obtain ⟨w'', hrun', hrid'⟩ := (hclass ⟨12⟩).1 (by rw [hname]; decide)
  refine ⟨run_implementing, hsolitary.grounded, hown, heditable, by decide +kernel, by decide +kernel,
    by decide +kernel, ⟨w', hrun, by rw [hrid.node, hleft]⟩, w'', hrun', by rw [hrid'.node, hname, hleft]⟩

end World

end ClassModel
