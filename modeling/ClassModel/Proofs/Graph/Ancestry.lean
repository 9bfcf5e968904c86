import ClassModel.Proofs.Graph.Paths
import ClassModel.Proofs.Graph.Upkeep

/-!
# Where inherited members come from

The walk for members goes by some of the references by which the subtype test goes. So whatever class it finds a
member in, the test finds that class too, and a class that has or inherits members is none of those which the test
answers for by their names alone. What is come by from a class that is there is there as well, since what something
holds lasts as long as it does itself.
-/

namespace ClassModel

open Relation

namespace World

/-! ## What is held is there -/

section
variable {w : World} {S : Lead → Prop} {c d : ClassId} {r : RefId}

theorem Intact.supertypeRef (h : w.Intact) (hlt : c.index < w.nodes.size) (hc : w.isAlive (.node c))
    (hr : r ∈ w.supertypeRefs c) : w.isAlive (.reference r) := by
  refine h (.node c) hlt hc _ ?_
  simp only [holds, List.mem_append, List.mem_map, Option.mem_toList]
  rcases List.mem_append.mp hr with hr | hr
  · exact .inl (.inl (.inl (.inr ⟨r, interfaceRefs_subset _ hr, rfl⟩)))
  · exact .inl (.inl (.inl (.inl ⟨r, Option.mem_toList.mp (superclassRef_subset _ hr), rfl⟩)))

theorem Intact.lead (h : w.Intact) (hlt : r.index < w.references.size) (halive : w.isAlive (.reference r))
    (hs : w.Settles r) (hd : w.lead r = .known d) : w.isAlive (.node d) := by
  cases hk : (w.reference r).known? with
  | some e =>
    rw [lead_of_known hk] at hd
    cases hd
    exact h (.reference r) hlt halive _ (by simp [holds, hk])
  | none =>
    rw [lead_of_unknown hk] at hd
    rcases held_of_leadAnew hs hd with ht | ⟨e, -, l, hl, -, hheld⟩
    · unfold Reference.known? at hk; rw [ht] at hk; cases hk
    · have hloader : w.Has (.loader l) := Nat.lt_of_not_le fun hn => by
        rw [show w.loader l = default from Store.get_of_size_le _ hn] at hheld
        cases hheld
      exact h (.loader l) hloader (Option.filter_eq_some_iff.mp hl).2 _ (List.mem_map.mpr ⟨d, hheld, rfl⟩)

theorem Intact.above (h : w.Intact) {made : List (LoaderId × ClassId)} (hw : w.Sound made) (hS : w.Region S)
    (hc : S (.known c)) (halive : w.isAlive (.node c)) {x : Lead}
    (hx : ReflTransGen (fun x y => y ∈ w.supers x) (.known c) x) : ∀ d, x = .known d → w.isAlive (.node d) := by
  induction hx with
  | refl => intro d hd; cases hd; exact halive
  | tail hpath hy ih =>
    intro d hd
    obtain ⟨e, rfl, r, hr, rfl⟩ := mem_supers.mp hy
    have he := (hS.reflTransGen hc hpath).1
    exact h.lead (hw.supertypeRef_written hr).lt (h.supertypeRef (hS.lt e he) (ih e rfl) hr) (hS.settles e he r hr) hd

end

/-! ## Only a class that may be changed has members or supertypes -/

section
variable {w : World} {c d : ClassId} {kind : MemberKind} {m : Member}

theorem not_isValueType_of_editable (h : w.Editable c) : (w.node c).isValueType = false := by
  unfold Editable at h
  simp [ClassNode.isValueType, h]

theorem Run.editable_of_declared (hw : Run .empty w) (hm : m ∈ w.declared kind c) : w.Editable c := by
  by_contra hc
  have hplain := hw.plain c hc
  unfold declared at hm
  cases kind with
  | field =>
    obtain ⟨f, hf, -⟩ := List.mem_map.mp hm
    have := declaredFields_subset _ hf
    simp [hplain.fields] at this
  | method =>
    obtain ⟨i, hi, -⟩ := List.mem_map.mp hm
    have := declaredMethods_subset _ hi
    simp [hplain.methods] at this

theorem Run.editable_of_supertypeRef (hw : Run .empty w) {r : RefId} (hr : r ∈ w.supertypeRefs c) : w.Editable c := by
  by_contra hc
  have hplain := hw.plain c hc
  rcases List.mem_append.mp hr with hr | hr
  · have := interfaceRefs_subset _ hr
    simp [hplain.interfaces] at this
  · have := superclassRef_subset _ hr
    simp [hplain.superclass] at this

end

/-! ## The test finds the class of a member -/

section
variable {w v : World} {S : Lead → Prop} {c d : ClassId}

/-- If there is no circle, the test finds any class above, whatever has been resolved since. -/
theorem Region.reachesWithin_above (hS : w.Region S) (hc : S (.known c))
    (hacyclic : ∀ d, ReflTransGen w.Supertype c d → ¬ TransGen w.Supertype d d)
    (hd : ReflTransGen (fun x y => y ∈ w.supers x) (.known c) (.known d)) (hv : w.Settled v) :
    ∃ v', reachesWithin (w.nameOf d) v.walkBound c v = some (true, v') := by
  have hends : ∃ b, Descent.search w.supers (w.hit (w.nameOf d)) w.reach (.known c) = some b := by
    refine Descent.search_ends w.knownLeads (S := ReflTransGen (fun x y => y ∈ w.supers x) (.known c))
      (fun _ hx _ hy => hx.tail hy) (fun x hx => hS.mem_knownLeads (hS.reflTransGen hc hx).1)
      (fun x hx hcircle => ?_) .refl
    obtain ⟨e, rfl, hee⟩ := hS.transGen_self (hS.reflTransGen hc hx).1 hcircle
    exact hacyclic e ((hS.reflTransGen hc hx).2 e rfl) hee
  obtain ⟨b, hb⟩ := hends
  obtain rfl : b = true := (Descent.search_eq_true_iff hb).mpr ⟨_, hd, by simp [hit, leadName]⟩
  have hf := reachesWithin_follows hS (w.nameOf d) v.walkBound (.known c) c v hc hv rfl
  rw [Descent.search_mono hv.reach_le hb] at hf
  generalize reachesWithin (w.nameOf d) v.walkBound c v = r at hf ⊢
  cases hf with
  | ends _ _ hab => subst hab; exact ⟨_, rfl⟩

theorem Region.assignable_above (hS : w.Region S) (hc : S (.known c))
    (hacyclic : ∀ d, ReflTransGen w.Supertype c d → ¬ TransGen w.Supertype d d)
    (hd : ReflTransGen (fun x y => y ∈ w.supers x) (.known c) (.known d)) (hv : w.Settled v)
    (htypes : (w.node d).isValueType = false ∧ (w.node c).isValueType = false) :
    v.Ends d c true ∧ (d.isAssignableFrom c v).1 = true := by
  have hlt := hS.lt d (hS.reflTransGen hc hd).1
  have honce : v.assignableAtOnce? d c = if (w.node d).isObjectType then some true else none := by
    rw [hv.assignableAtOnce? hlt (hS.lt c hc)]
    simp [assignableAtOnce?, htypes]
  rw [isAssignableFrom_run, Ends, honce, hv.nameOf hlt]
  by_cases hroot : (w.node d).isObjectType
  · simp [hroot]
  · obtain ⟨v', hrun⟩ := hS.reachesWithin_above hc hacyclic hd hv
    simp only [hroot, Bool.false_eq_true, if_false, hrun]
    exact ⟨.inr ⟨trivial, _, _, hrun⟩, rfl⟩

theorem exists_declared_of_gather {kind : MemberKind} {depth : Nat} {ms : List Member}
    (h : Descent.gather w.inherited (w.ownMembers kind) depth (.known c) = some ms) : ∀ m ∈ ms,
      ∃ d, ReflTransGen (fun x y => y ∈ w.inherited x) (.known c) (.known d) ∧ m ∈ w.declared kind d := by
  refine Descent.gather_forall (S := ReflTransGen (fun x y => y ∈ w.inherited x) (.known c))
    (fun _ hx _ hy => hx.tail hy) (fun x hx m hm => ?_) depth .refl h
  cases x with
  | known d => exact ⟨d, hx, hm⟩
  | missing name => cases hm

end

/-- On a hierarchy without circles in which nobody has to be asked, the walk for members ends, and the class of each
member that it finds is there and takes the class that it began with. -/
theorem flatten_assignable {w : World} (hw : Run .empty w) (hg : w.Grounded) (hintact : w.Intact) {c : ClassId}
    (hc : c.index < w.nodes.size) (halive : w.isAlive (.node c))
    (hu : ∀ d, ReflTransGen w.Supertype c d → w.Unsourced d)
    (hacyclic : ∀ d, ReflTransGen w.Supertype c d → ¬ TransGen w.Supertype d d) (kind : MemberKind) :
    (∃ depth, flattenWithin kind depth c w = some (c.flatten kind w)) ∧
      ∀ m ∈ (c.flatten kind w).1, ∃ d, (c.flatten kind w).2.declaringClass m = some d ∧
        (c.flatten kind w).2.Ends d c true ∧ (d.isAssignableFrom c (c.flatten kind w).2).1 = true := by
  obtain ⟨made, hsound⟩ := Run.sound hw soundEmpty
  have hS : w.Region (w.AtOrAbove c) := hsound.region hg hu
  have hS' : w.AtOrAbove c (.known c) := ⟨hc, .refl⟩
  have hacyclic' (d : ClassId) (hd : ReflTransGen w.Inherits c d) : ¬ TransGen w.Inherits d d :=
    fun h => hacyclic d (ReflTransGen.mono w.inherits_le _ _ hd) (TransGen.mono w.inherits_le _ _ h)
  obtain ⟨ms, hms⟩ := hS.exists_gathered hS' hacyclic' (w.ownMembers kind)
  obtain ⟨v, hrun, hv⟩ := hS.exists_flattenWithin hS' hms (.refl w) rfl
  have hflatten : c.flatten kind w = (ms, v) := by rw [flatten_run, hrun]; rfl
  rw [hflatten]
  refine ⟨⟨_, hrun⟩, fun m hm => ?_⟩
  obtain ⟨d, hinherits, hdeclared⟩ := exists_declared_of_gather hms m hm
  have hd : ReflTransGen (fun x y => y ∈ w.supers x) (.known c) (.known d) :=
    ReflTransGen.mono (fun x _ hy => w.inherited_subset x hy) _ _ hinherits
  have hclass : v.declaringClass m = some d := by
    have howner : v.ownerOf m = d := (hv.ownerOf m).trans (hsound.ownerOf_declared hdeclared)
    rw [declaringClass, howner, hv.isAlive, if_pos (hintact.above hsound hS hS' halive hd d rfl)]
  -- Either the member is its own or it has a supertype.
  have hfirst : w.Editable c := by
    rcases ReflTransGen.cases_head hd with he | ⟨x, hx, -⟩
    · cases he
      exact hw.editable_of_declared hdeclared
    · obtain ⟨_, he, r, hr, -⟩ := mem_supers.mp hx
      cases he
      exact hw.editable_of_supertypeRef hr
  exact ⟨d, hclass, hS.assignable_above hS' hacyclic hd hv
    ⟨not_isValueType_of_editable (hw.editable_of_declared hdeclared), not_isValueType_of_editable hfirst⟩⟩

/-- A class with an inherited method that has had another superclass, which nobody else holds, and a field. -/
def laden : World :=
  [Mutation.edit (.onClass ⟨10⟩ (.setSuperclassClass ⟨12⟩)), .edit (.onClass ⟨10⟩ .clearSuperclass),
    .edit (.onClass ⟨10⟩ .addField), .edit (.onClass ⟨10⟩ (.removeField ⟨0⟩))].foldl (fun w m => (m.run w).2)
      (createClass "q" "X" (some (.loader ⟨0⟩)) .standard lingering).2

def lightened : World := laden.release [.loader ⟨0⟩]

theorem lightened_eq :
    lightened = { laden with gone := [.node ⟨12⟩, .field ⟨0⟩, .reference ⟨4⟩, .reference ⟨5⟩] } := by
  have hgone : (laden.release [.loader ⟨0⟩]).gone = [.node ⟨12⟩, .field ⟨0⟩, .reference ⟨4⟩, .reference ⟨5⟩] := by
    rw [release_eq]
    decide +kernel
  exact congrArg (fun gone => { laden with gone := gone }) hgone

theorem minds_lightened : ReflTransGen Minds .empty lightened := by
  have hlingering : ReflTransGen Minds .empty lingering := minds_changed (by decide)
  have hladen : ReflTransGen Minds .empty laden :=
    ((((hlingering.tail (.create _ _ _ _ _)).tail (.mutate (by decide +kernel))).tail (.mutate (by decide))).tail
      (.mutate (by decide))).tail (.mutate (by decide))
  refine hladen.tail (.release fun l _ s hs => ?_)
  have hsources : ∀ i < laden.loaders.size, (laden.loader ⟨i⟩).sources.isEmpty := by decide +kernel
  have hnone := hsources l.index (Loader.lt_of_sources (List.ne_nil_of_mem hs))
  rw [List.isEmpty_iff.mp hnone] at hs
  cases hs

theorem lightened_layered : lightened.Solitary ⟨0⟩ ∧ lightened.Layered := by
  rw [lightened_eq]
  decide +kernel

theorem lightened_assignable : Run .empty lightened ∧ lightened.Grounded ∧ lightened.Intact ∧
    ¬ lightened.isAlive (.node ⟨12⟩) ∧ lightened.isAlive (.node ⟨10⟩) ∧
    (∀ d, ReflTransGen lightened.Supertype ⟨10⟩ d → lightened.Unsourced d) ∧
    (∀ d, ReflTransGen lightened.Supertype ⟨10⟩ d → ¬ TransGen lightened.Supertype d d) ∧
    (ClassId.flatten ⟨10⟩ .method lightened).1 = [.method ⟨0⟩, .method ⟨1⟩] ∧
    (ClassId.flatten ⟨10⟩ .method lightened).2.declaringClass (.method ⟨1⟩) = some ⟨11⟩ ∧
    (ClassId.isAssignableFrom ⟨11⟩ ⟨10⟩ (ClassId.flatten ⟨10⟩ .method lightened).2).1 = true := by
  have hfacts : ¬ lightened.isAlive (.node ⟨12⟩) ∧ lightened.isAlive (.node ⟨10⟩) ∧ 10 < lightened.nodes.size ∧
      (ClassId.flatten ⟨10⟩ .method lightened).1 = [.method ⟨0⟩, .method ⟨1⟩] ∧
      (ClassId.flatten ⟨10⟩ .method lightened).2.declaringClass (.method ⟨1⟩) = some ⟨11⟩ := by
    rw [lightened_eq]
    decide +kernel
  obtain ⟨hgone, halive, hlt, hmethods, hclass⟩ := hfacts
  have hrun : Run .empty lightened := run_of_minds minds_lightened
  have hgrounded := lightened_layered.1.grounded
  have hintact := intact_of_minds minds_lightened
  have hunsourced (d : ClassId) (_ : ReflTransGen lightened.Supertype ⟨10⟩ d) := lightened_layered.1.unsourced d
  have hacyclic (d : ClassId) (_ : ReflTransGen lightened.Supertype ⟨10⟩ d) := lightened_layered.2.acyclic d
  have hall := flatten_assignable hrun hgrounded hintact hlt halive hunsourced hacyclic .method
  obtain ⟨d, hd, -, htakes⟩ := hall.2 (.method ⟨1⟩) (by rw [hmethods]; simp)
  obtain rfl : d = ⟨11⟩ := Option.some.inj (hd.symm.trans hclass)
  exact ⟨hrun, hgrounded, hintact, hgone, halive, hunsourced, hacyclic, hmethods, hclass, htakes⟩

end World

end ClassModel
