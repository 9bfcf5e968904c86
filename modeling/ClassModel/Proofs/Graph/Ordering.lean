import ClassModel.Proofs.Graph.Housing
import ClassModel.Proofs.Snapshot.Queries
import Mathlib.Order.Defs.Unbundled

/-!
# Assignability is an order

The subtype test compares names. In a loader that asks nobody and in which nothing that has been
resolved is stale, every class that is met goes by its name alone: the loader has no other class and
no other stand-in under it. So the test says which class lies above which, and that is a partial order.
-/

namespace ClassModel

open Name Relation

def Loader.under? (x : Loader) (name : String) : Option ClassId := (x.cached? name).or (x.placeholders.get? name)

namespace World

/-- The classes of a loader, and those to which the references resolve that they show. -/
inductive Involved (w : World) (l : LoaderId) : ClassId → Prop
  | provided {c} : c ∈ (w.loader l).builtins.values → Involved w l c
  | registered {c} : c ∈ (w.loader l).classes.values → Involved w l c
  | referred {c d r} : Involved w l c → r ∈ w.shownReferences c → (r.resolve w).1 = d → d.index < w.nodes.size →
      Involved w l d

/-- Loader `l` is there and asks nobody. Its classes refer directly only to each other and to builtins,
none is above itself, and what has been resolved would be resolved to the same class again. -/
structure Ordered (w : World) (l : LoaderId) : Prop where
  lt : l.index < w.loaders.size
  alive : w.isAlive (.loader l)
  sources : (w.loader l).sources = []
  direct : ∀ c, w.Involved l c → ∀ r ∈ w.shownReferences c, ∀ d, (w.reference r).target = .direct d →
    d ∈ (w.loader l).builtins.values ∨ d ∈ (w.loader l).classes.values
  acyclic : ∀ c, w.Involved l c → ¬ TransGen w.Supertype c c
  fresh : ∀ c, w.Involved l c → ∀ r ∈ w.shownReferences c, ∀ d, (w.reference r).known? = some d →
    d.index < w.nodes.size ∧ (r.resolve (w.forget r)).1 = d

structure Filed (w : World) (l : LoaderId) (c : ClassId) : Prop extends w.Housed l (w.nameOf c) c where
  under : (w.loader l).under? (w.nameOf c) = some c
  present : w.isAlive (.node c)

def FiledLead (w : World) (l : LoaderId) : Lead → Prop
  | .known c => w.Filed l c
  | .missing name => IsClassName name ∧ (w.loader l).under? name = none

def Met (w : World) (l : LoaderId) (x : Lead) : Prop := w.FiledLead l x ∧ ∀ c, x = .known c → w.Involved l c

section
variable {w : World} {l : LoaderId} {name : String} {a b c d : ClassId} {r : RefId}

/-! ## Names and classes -/

theorem Filed.unique (ha : w.Filed l a) (hb : w.Filed l b) (h : w.nameOf a = w.nameOf b) : a = b :=
  Option.some.inj (ha.under.symm.trans (h ▸ hb.under))

section
variable (hw : w.Orderly) (hl : w.Ordered l)
include hw hl

theorem Ordered.present (hc : c ∈ (w.loader l).held) : w.isAlive (.node c) := by
  obtain ⟨made, hs⟩ := hw.sound
  have halive : .loader l ∉ w.gone := by simpa [isAlive] using hl.alive
  simpa [isAlive] using (((hs.loaders l).held hl.sources c hc).2 halive)

theorem Ordered.filed_of_cached (hc : (w.loader l).cached? name = some c) : w.Filed l c ∧ w.nameOf c = name := by
  obtain ⟨hh, hname⟩ := hw.housed_of_cached hl.sources hc
  have hnameOf : w.nameOf c = name := hh.nameOf.trans (qualify_packageOf_simpleNameOf hname)
  refine ⟨⟨by rw [hnameOf]; exact hh, ?_, hl.present hw (mem_held_of_cached? hc)⟩, hnameOf⟩
  unfold Loader.under?
  rw [hnameOf, hc]
  rfl

theorem Ordered.filed_of_under (hname : IsClassName name) (hc : (w.loader l).under? name = some c) :
    w.Filed l c ∧ w.nameOf c = name := by
  rcases Option.or_eq_some_iff.mp hc with hb | ⟨-, hb⟩
  · exact hl.filed_of_cached hw hb
  · have hh := (hw.houses l hl.sources).standIns _ (Registry.mem_of_get? hb)
    have hnameOf : w.nameOf c = name := hh.nameOf.trans (qualify_packageOf_simpleNameOf hname)
    exact ⟨⟨by rw [hnameOf]; exact hh, by rw [hnameOf]; exact hc, hl.present hw (mem_held_of_standIn? hb)⟩, hnameOf⟩

theorem Ordered.cached?_of_provided (hc : c ∈ (w.loader l).builtins.values) :
    ∃ name, (w.loader l).cached? name = some c := by
  obtain ⟨made, hs⟩ := hw.sound
  obtain ⟨name, he⟩ := Registry.mem_values.mp hc
  exact ⟨name, cached?_of_builtin (Registry.get?_of_mem ((hs.loaders l).provides hl.lt).sorted he)⟩

theorem Ordered.cached?_of_registered (hc : c ∈ (w.loader l).classes.values) :
    ∃ name, (w.loader l).cached? name = some c := by
  obtain ⟨made, hs⟩ := hw.sound
  obtain ⟨name, he⟩ := Registry.mem_values.mp hc
  obtain ⟨-, -, hnot⟩ := (hw.houses l hl.sources).classes _ he
  refine ⟨name, ?_⟩
  unfold Loader.cached?
  rw [Registry.get?_of_mem (hs.loaders l).sorted he]
  cases hb : (w.loader l).builtins.get? name with
  | none => rfl
  | some b => exact (hnot ((provided ((hs.loaders l).provides hl.lt) rfl).1 hb).1).elim

/-! ## Where the classes refer -/

omit hw hl in
theorem leadFrom_own (hc : w.isAlive (.node c)) (hk : w.collaborator? c = some (.loader l)) (name : String)
    (find : Collaborator → Option ClassId) : w.leadFrom c name find =
      match (find (.loader l)).or ((w.loader l).placeholders.get? name) with
      | some d => .known d
      | none => .missing name := by
  unfold leadFrom missedLead
  rw [if_pos hc, hk]
  simp only [Option.bind_some]
  cases find (.loader l) with
  | some d => rfl
  | none => rfl

theorem Ordered.settles (hc : w.Filed l c) (hr : r ∈ w.shownReferences c) : w.Settles r := by
  obtain ⟨made, hs⟩ := hw.sound
  exact (hs.written hr).settles hc.lt (unsourced_of_lookup hc.lookup hl.sources)

theorem Ordered.filedLead_leadFrom (hc : w.Filed l c) (hname : IsClassName name) {find : Collaborator → Option ClassId}
    (hsome : ∀ d, find (.loader l) = some d → ∃ name', (w.loader l).cached? name' = some d)
    (hnone : find (.loader l) = none → (w.loader l).cached? name = none) : w.FiledLead l (w.leadFrom c name find) := by
  rw [leadFrom_own hc.present (collaborator?_of_lookup hc.lookup hl.alive)]
  cases hf : find (.loader l) with
  | some d =>
    obtain ⟨name', hd⟩ := hsome d hf
    exact (hl.filed_of_cached hw hd).1
  | none =>
    have hunder : (w.loader l).under? name = (w.loader l).placeholders.get? name := by
      unfold Loader.under?
      rw [hnone hf]
      rfl
    rw [Option.none_or, ← hunder]
    cases hu : (w.loader l).under? name with
    | some d => exact (hl.filed_of_under hw hname hu).1
    | none => exact ⟨hname, hu⟩

omit hw hl in
theorem cached?_eq_none_of_foundUnqualified? (h : w.foundUnqualified? c name (.loader l) = none) :
    (w.loader l).cached? name = none := by
  obtain ⟨-, hdefault⟩ := Option.or_eq_none_iff.mp h
  obtain ⟨-, hall⟩ := Option.or_eq_none_iff.mp hdefault
  exact List.findSome?_eq_none_iff.mp hall name (List.mem_append_right _ (List.mem_singleton_self name))

theorem Ordered.filedLead (hc : w.Filed l c) (hinvolved : w.Involved l c) (hr : r ∈ w.shownReferences c) :
    w.FiledLead l (w.lead r) := by
  obtain ⟨made, hs⟩ := hw.sound
  have hwritten := hs.written hr
  have htarget := hwritten.target
  rw [lead_of_fresh hwritten.lt (hl.settles hw hc hr) (hl.fresh c hinvolved r hr)]
  cases ht : (w.reference r).target with
  | direct d =>
    obtain ⟨name, hname⟩ := (hl.direct c hinvolved r hr d ht).elim (hl.cached?_of_provided hw)
      (hl.cached?_of_registered hw)
    exact (hl.filed_of_cached hw hname).1
  | qualified name d =>
    rw [ht] at htarget
    obtain ⟨rfl, hname⟩ := htarget
    exact hl.filedLead_leadFrom hw hc hname (fun d hd => ⟨name, hd⟩) id
  | unqualified name d =>
    rw [ht] at htarget
    obtain ⟨rfl, hname⟩ := htarget
    exact hl.filedLead_leadFrom hw hc hname (fun d => exists_cached?_of_foundUnqualified?)
      cached?_eq_none_of_foundUnqualified?

theorem Ordered.lead_eq (hc : w.Filed l c) (hr : r ∈ w.shownReferences c) (hd : (r.resolve w).1.index < w.nodes.size) :
    w.lead r = .known (r.resolve w).1 := by
  have hresult := (Brings.resolve (.refl w) (hl.settles hw hc hr)).result
  cases hlead : w.lead r with
  | known d =>
    rw [hlead] at hresult
    rw [show (r.resolve w).1 = d from hresult]
  | missing name =>
    rw [hlead] at hresult
    exact (Nat.not_lt.mpr hresult.1 hd).elim

theorem Ordered.filed (h : w.Involved l c) : w.Filed l c := by
  induction h with
  | provided hc =>
    obtain ⟨name, hname⟩ := hl.cached?_of_provided hw hc
    exact (hl.filed_of_cached hw hname).1
  | registered hc =>
    obtain ⟨name, hname⟩ := hl.cached?_of_registered hw hc
    exact (hl.filed_of_cached hw hname).1
  | referred hc hr he hlt ih =>
    subst he
    have hfiled := hl.filedLead hw ih hc hr
    rw [hl.lead_eq hw ih hr hlt] at hfiled
    exact hfiled

theorem Ordered.met (h : w.Involved l c) : w.Met l (.known c) := ⟨hl.filed hw h, fun _ hd => by cases hd; exact h⟩

theorem Ordered.region : w.Region (w.Met l) where
  lt c hc := hc.1.lt
  settles c hc r hr := hl.settles hw hc.1 (supertypeRefs_shown hr)
  closed x hx y hy := by
    obtain ⟨c, rfl, r, hr, rfl⟩ := mem_supers.mp hy
    have hr := supertypeRefs_shown hr
    obtain ⟨hfiled, hinvolved⟩ := hx
    have hlead := hl.filedLead hw hfiled (hinvolved c rfl) hr
    refine ⟨hlead, fun d hd => .referred (hinvolved c rfl) hr ?_ ?_⟩
    · have hresult := (Brings.resolve (.refl w) (hl.settles hw hfiled hr)).result
      rw [hd] at hresult
      exact hresult
    · rw [hd] at hlead
      exact hlead.lt

/-! ## Who is above whom -/

theorem Ordered.eq_of_hit {x : Lead} (ha : w.Involved l a) (hx : w.Met l x) (hit : w.hit (w.nameOf a) x = true) :
    x = .known a := by
  have hname : w.leadName x = w.nameOf a := by simpa [World.hit] using hit
  have hfiled := hl.filed hw ha
  cases x with
  | known c => rw [hx.1.unique hfiled hname]
  | missing name =>
    obtain ⟨hclass, hnone⟩ := hx.1
    have hname : name = w.nameOf a := (qualify_packageOf_simpleNameOf hclass).symm.trans hname
    rw [hname, hfiled.under] at hnone
    cases hnone

def Above (w : World) (a c : ClassId) : Prop := ReflTransGen (fun x y => y ∈ w.supers x) (.known c) (.known a)

theorem Ordered.above_antisymm (ha : w.Involved l a) (hab : w.Above a b) (hba : w.Above b a) : a = b := by
  rcases reflTransGen_iff_eq_or_transGen.mp hab with h | h
  · cases h; rfl
  · -- The two paths make a circle.
    obtain ⟨d, hd, hcircle⟩ := (hl.region hw).transGen_self (hl.met hw ha) (h.trans_right hba)
    cases hd
    exact (hl.acyclic a ha hcircle).elim

theorem Ordered.search_iff (ha : w.Involved l a) (hb : w.Involved l b) :
    ∃ found, Descent.search w.supers (w.hit (w.nameOf a)) w.walkBound (.known b) = some found ∧
      (found = true ↔ w.Above a b) := by
  have hS := hl.region hw
  have hends : ∃ found,
      Descent.search w.supers (w.hit (w.nameOf a)) (w.knownLeads.length + 2) (.known b) = some found := by
    refine Descent.search_ends w.knownLeads hS.closed (fun x hx => hS.mem_knownLeads hx) (fun x hx hcircle => ?_)
      (hl.met hw hb)
    obtain ⟨d, rfl, hd⟩ := hS.transGen_self hx hcircle
    exact hl.acyclic d (hx.2 d rfl) hd
  obtain ⟨found, hfound⟩ := hends
  refine ⟨found, Descent.search_mono w.knownLeads_length_le hfound, ?_⟩
  rw [Descent.search_eq_true_iff hfound]
  constructor
  · rintro ⟨x, hpath, hit⟩
    have hx := (hS.reflTransGen (hl.met hw hb) hpath).1
    rwa [hl.eq_of_hit hw ha hx hit] at hpath
  · intro hpath
    exact ⟨_, hpath, by simp [World.hit, leadName]⟩

theorem Ordered.nameOf_root (ha : w.Involved l a) (hroot : (w.node a).isObjectType = true) :
    w.nameOf a = (w.loader l).settings.rootClass := by
  rw [← (hl.filed hw ha).settings]
  simpa [ClassNode.isObjectType, World.nameOf] using hroot

/-- The root of the hierarchy is the builtin class, and it has nothing above itself. -/
theorem Ordered.supers_root (ha : w.Involved l a) (hroot : (w.node a).isObjectType = true) :
    w.supers (.known a) = [] := by
  obtain ⟨made, hs⟩ := hw.sound
  have hfiled := hl.filed hw ha
  have hname := hl.nameOf_root hw ha hroot
  obtain ⟨b, hb⟩ := (provided ((hs.loaders l).provides hl.lt) rfl).2 (.inr (.inr hname))
  obtain ⟨-, -, kind, -, hn⟩ := (provided ((hs.loaders l).provides hl.lt) rfl).1 hb
  have hab : a = b := by
    have hunder := hfiled.under
    unfold Loader.under? at hunder
    rw [cached?_of_builtin hb] at hunder
    exact (Option.some.inj hunder).symm
  subst hab
  unfold supers interfaceLeads superclassLead
  simp only [hn]
  rfl

theorem Ordered.ends (ha : w.Involved l a) (hb : w.Involved l b) : w.Ends a b (a.isAssignableFrom b w).1 := by
  cases honce : w.assignableAtOnce? a b with
  | some found =>
    rw [isAssignableFrom_run, honce]
    exact .inl honce
  | none =>
    obtain ⟨found, hsearch, -⟩ := hl.search_iff hw ha hb
    obtain ⟨hends, hfound⟩ := answers_of_search (hl.region hw) (hl.met hw hb) (Nat.le_refl _) honce hsearch
    rwa [hfound]

/-- The test without its special cases: what is not a value type can stand for the root and for all
that is above it. -/
theorem Ordered.isAssignableFrom_iff (ha : w.Involved l a) (hb : w.Involved l b) :
    (a.isAssignableFrom b w).1 = true ↔ a = b ∨
      ((w.node a).isValueType = false ∧ (w.node b).isValueType = false) ∧
        ((w.node a).isObjectType = true ∨ w.Above a b) := by
  have hname : w.nameOf a = w.nameOf b ↔ a = b :=
    ⟨fun h => (hl.filed hw ha).unique (hl.filed hw hb) h, fun h => by rw [h]⟩
  rw [isAssignableFrom_run]
  unfold assignableAtOnce?
  by_cases hvalue : (w.node a).isValueType || (w.node b).isValueType
  · simp only [hvalue, if_true]
    rw [beq_iff_eq]
    refine ⟨fun h => .inl (hname.mp h), fun h => h.elim hname.mpr fun ⟨⟨h₁, h₂⟩, _⟩ => ?_⟩
    simp [h₁, h₂] at hvalue
  · have hnone : (w.node a).isValueType = false ∧ (w.node b).isValueType = false := by simpa using hvalue
    by_cases hroot : (w.node a).isObjectType
    · simp [hnone, hroot]
    · obtain ⟨found, hsearch, hiff⟩ := hl.search_iff hw ha hb
      obtain ⟨w', hrun⟩ := (exists_reachesWithin_iff (hl.region hw) (hl.met hw hb) w.walkBound found).mpr hsearch
      simp only [hnone, hroot, Bool.or_self, Bool.false_eq_true, if_false, hrun, Option.getD_some, hiff, true_and,
        false_or, and_self]
      refine ⟨.inr, fun h => h.elim (fun h => ?_) id⟩
      subst h
      exact .refl

end

end

/-- Assignability is a partial order of the classes that a loader has or refers to, if it asks nobody, no
class is above itself and nothing that has been resolved is stale. -/
theorem isAssignableFrom_isPartialOrder {w : World} {l : LoaderId} (hw : Run .empty w) (hl : w.Ordered l) :
    (∀ a b, w.Involved l a → w.Involved l b → w.Ends a b (a.isAssignableFrom b w).1) ∧
      IsPartialOrder { c // w.Involved l c } fun a b => (a.1.isAssignableFrom b.1 w).1 = true := by
  obtain ⟨hw, -⟩ := hw.enclosed
  refine ⟨fun a b => hl.ends hw, ?_⟩
  have hiff {a b : { c // w.Involved l c }} := hl.isAssignableFrom_iff hw a.2 b.2
  -- Nothing is above the root, so whatever takes the root is the root.
  have htop {a b : ClassId} (ha : w.Involved l a) (hr : (w.node a).isObjectType = true) (h : w.Above b a) : b = a := by
    rcases ReflTransGen.cases_head h with he | ⟨x, hx, -⟩
    · cases he; rfl
    · rw [hl.supers_root hw ha hr] at hx; cases hx
  refine { refl := fun a => hiff.mpr (.inl rfl), trans := fun a b c hab hbc => ?_, antisymm := fun a b hab hba => ?_ }
  · rcases hiff.mp hab with he | ⟨⟨hva, -⟩, hab'⟩
    · rwa [Subtype.ext he]
    rcases hiff.mp hbc with he | ⟨⟨-, hvc⟩, hbc'⟩
    · rwa [← Subtype.ext he]
    rcases hab', hbc' with ⟨hra | hab', hrb | hbc'⟩
    · exact hiff.mpr (.inr ⟨⟨hva, hvc⟩, .inl hra⟩)
    · exact hiff.mpr (.inr ⟨⟨hva, hvc⟩, .inl hra⟩)
    · rwa [Subtype.ext (htop b.2 hrb hab')]
    · exact hiff.mpr (.inr ⟨⟨hva, hvc⟩, .inr (hbc'.trans hab')⟩)
  · rcases hiff.mp hab with he | ⟨-, hab'⟩
    · exact Subtype.ext he
    rcases hiff.mp hba with he | ⟨-, hba'⟩
    · exact Subtype.ext he.symm
    rcases hab', hba' with ⟨hra | hab', hrb | hba'⟩
    · refine Subtype.ext ((hl.filed hw a.2).unique (hl.filed hw b.2) ?_)
      rw [hl.nameOf_root hw a.2 hra, hl.nameOf_root hw b.2 hrb]
    · exact Subtype.ext (htop a.2 hra hba').symm
    · exact Subtype.ext (htop b.2 hrb hab')
    · exact Subtype.ext (hl.above_antisymm hw a.2 hab' hba')

/-! A class, one below it, and a stand-in for an interface that is missing. -/

def ladder : World :=
  let changes : List Mutation := [.define ⟨0⟩ "p" "A" [], .define ⟨0⟩ "p" "B" [],
    .edit (.onClass ⟨10⟩ (.addInterface "q.M")), .edit (.onClass ⟨11⟩ (.setSuperclassUnqualified "A"))]
  (Query.ask (.interfaces ⟨10⟩) (changes.foldl (fun w m => (m.run w).2) single)).2

theorem run_ladder : Run .empty ladder :=
  .tail (.tail (.tail (.tail (.tail (.tail .refl (.makeLoader _ .standard [])) (.mutate _ _)) (.mutate _ _))
    (.mutate _ _)) (.mutate _ _)) (.ask (q := .interfaces ⟨10⟩) trivial)

def ladderRank (c : ClassId) : Nat := if c = ⟨11⟩ then 2 else if c = ⟨10⟩ then 1 else 0

theorem ladder_involved {c : ClassId} (h : ladder.Involved ⟨0⟩ c) : c.index < 13 := by
  have hbuiltins : ∀ c ∈ (ladder.loader ⟨0⟩).builtins.values, c.index < 13 := by decide +kernel
  have hclasses : ∀ c ∈ (ladder.loader ⟨0⟩).classes.values, c.index < 13 := by decide +kernel
  have hsize : ladder.nodes.size = 13 := by decide +kernel
  cases h with
  | provided hc => exact hbuiltins c hc
  | registered hc => exact hclasses c hc
  | referred _ _ _ hlt => rwa [hsize] at hlt

theorem ordered_ladder : ladder.Ordered ⟨0⟩ where
  lt := by decide +kernel
  alive := by decide +kernel
  sources := List.isEmpty_iff.mp (by decide +kernel)
  direct c hc r hr d hd := by
    have h : ∀ i < 13, ∀ r ∈ ladder.shownReferences ⟨i⟩, (ladder.reference r).kind ≠ .direct := by decide +kernel
    exact (h c.index (ladder_involved hc) r hr (by unfold Reference.kind; rw [hd])).elim
  acyclic c hc hcircle := by
    have hstep : ∀ i < 13, ∀ r ∈ ladder.supertypeRefs ⟨i⟩, ladderRank (r.resolve ladder).1 < ladderRank ⟨i⟩ := by
      decide +kernel
    have hsize : ladder.nodes.size = 13 := by decide +kernel
    have hlower {c d : ClassId} (h : TransGen ladder.Supertype c d) : ladderRank d < ladderRank c := by
      have hone {c d : ClassId} (h : ladder.Supertype c d) : ladderRank d < ladderRank c := by
        obtain ⟨r, hr, rfl⟩ := h
        have hc := lt_of_mem_supertypeRefs hr
        rw [hsize] at hc
        exact hstep c.index hc r hr
      induction h with
      | single h => exact hone h
      | tail _ h ih => exact Nat.lt_trans (hone h) ih
    exact Nat.lt_irrefl _ (hlower hcircle)
  fresh c hc r hr d hd := by
    have h : ∀ i < 13, ∀ r ∈ ladder.shownReferences ⟨i⟩, ∀ d ∈ (ladder.reference r).known?,
        d.index < ladder.nodes.size ∧ (r.resolve (ladder.forget r)).1 = d := by decide +kernel
    exact h c.index (ladder_involved hc) r hr d hd

theorem ladder_isPartialOrder : Run .empty ladder ∧ ladder.Ordered ⟨0⟩ ∧ ladder.Involved ⟨0⟩ ⟨12⟩ ∧
    ladder.Ends ⟨12⟩ ⟨11⟩ true ∧
    IsPartialOrder { c // ladder.Involved ⟨0⟩ c } fun a b => (a.1.isAssignableFrom b.1 ladder).1 = true := by
  have hclass : ladder.Involved ⟨0⟩ ⟨10⟩ := .registered (by decide +kernel)
  have hlower : ladder.Involved ⟨0⟩ ⟨11⟩ := .registered (by decide +kernel)
  have hstandIn : ladder.Involved ⟨0⟩ ⟨12⟩ :=
    hclass.referred (r := ⟨0⟩) (by decide +kernel) (by decide +kernel) (by decide +kernel)
  have hanswer : (ClassId.isAssignableFrom ⟨12⟩ ⟨11⟩ ladder).1 = true := by decide +kernel
  obtain ⟨hends, horder⟩ := isAssignableFrom_isPartialOrder run_ladder ordered_ladder
  have hend := hends _ _ hstandIn hlower
  rw [hanswer] at hend
  exact ⟨run_ladder, ordered_ladder, hstandIn, hend, horder⟩

end World

end ClassModel
