import ClassModel.Graph.Inheritance
import ClassModel.Proofs.Graph.Leads
import ClassModel.Proofs.Graph.Soundness

/-!
# Supertypes

The supertypes of a class are what its references to them resolve to. In a reachable world all that
is met on the way up from a class is there, and as long as nobody has to be asked it does not depend
on what has been resolved before.
-/

namespace ClassModel

open Relation

namespace World

def Supertype (w : World) (c d : ClassId) : Prop := ∃ r ∈ w.supertypeRefs c, (r.resolve w).1 = d

def Resolving (w : World) (refs : ClassId → List RefId) (c d : ClassId) : Prop := ∃ r ∈ refs c, (r.resolve w).1 = d

def Grounded (w : World) : Prop :=
  ∀ r, r.index < w.references.size → ∀ c, (w.reference r).known? = some c → c.index < w.nodes.size

/-- The classes at or above class `c`, and all stand-ins that are not there yet. -/
def AtOrAbove (w : World) (c : ClassId) : Lead → Prop
  | .known d => d.index < w.nodes.size ∧ ReflTransGen w.Supertype c d
  | .missing _ => True

def Solitary (w : World) (l : LoaderId) : Prop :=
  (w.loader l).sources.isEmpty ∧ (∀ i < w.nodes.size, ∀ k ∈ w.collaborator? ⟨i⟩, k = .loader l) ∧
    ∀ i < w.references.size, ∀ c ∈ (w.reference ⟨i⟩).known?, c.index < w.nodes.size

instance (w : World) (l : LoaderId) : Decidable (w.Solitary l) := inferInstanceAs (Decidable (_ ∧ _ ∧ _))

def Layered (w : World) : Prop := ∀ i < w.nodes.size, ∀ r ∈ w.supertypeRefs ⟨i⟩, i < (r.resolve w).1.index

instance (w : World) : Decidable w.Layered :=
  inferInstanceAs (Decidable (∀ i < w.nodes.size, ∀ r ∈ w.supertypeRefs ⟨i⟩, i < (r.resolve w).1.index))

section
variable {w : World} {l : LoaderId}

theorem Solitary.sources (h : w.Solitary l) : (w.loader l).sources = [] := List.isEmpty_iff.mp h.1

theorem Solitary.grounded (h : w.Solitary l) : w.Grounded := fun r hr c hc => h.2.2 r.index hr c hc

theorem Solitary.unsourced (h : w.Solitary l) (c : ClassId) : w.Unsourced c := by
  intro k hk
  by_cases hc : c.index < w.nodes.size
  · exact ⟨l, h.2.1 c.index hc k hk, h.sources⟩
  · rw [collaborator?, show w.node c = default from Store.get_of_size_le _ (Nat.not_lt.mp hc)] at hk
    cases hk

end

section
variable {w : World} {made : List (LoaderId × ClassId)} {r : RefId} {c d : ClassId}

theorem cached?_of_builtin {x : Loader} {name : String} (h : x.builtins.get? name = some c) :
    x.cached? name = some c := by
  unfold Loader.cached?
  rw [h]
  rfl

theorem mem_held_of_cached? {x : Loader} {name : String} (h : x.cached? name = some c) : c ∈ x.held := by
  rcases Option.or_eq_some_iff.mp h with h | ⟨-, h⟩
  · exact Loader.mem_held.mpr (.inl (Registry.mem_values.mpr ⟨name, Registry.mem_of_get? h⟩))
  · exact Loader.mem_held.mpr (.inr (.inl (Registry.mem_values.mpr ⟨name, Registry.mem_of_get? h⟩)))

theorem mem_held_of_standIn? {l : LoaderId} {name : String} (h : w.standIn? name (.loader l) = some c) :
    c ∈ (w.loader l).held :=
  Loader.mem_held.mpr (.inr (.inr (Registry.mem_values.mpr ⟨name, Registry.mem_of_get? h⟩)))

theorem exists_cached?_of_foundDefault? {l : LoaderId} {name : String} (h : w.foundDefault? name (.loader l) = some c) :
    ∃ name', (w.loader l).cached? name' = some c := by
  rcases Option.or_eq_some_iff.mp h with h | ⟨-, h⟩
  · exact ⟨name, cached?_of_builtin h⟩
  · obtain ⟨name', -, h⟩ := List.exists_of_findSome?_eq_some h
    exact ⟨name', h⟩

theorem exists_cached?_of_foundUnqualified? {l : LoaderId} {name : String}
    (h : w.foundUnqualified? d name (.loader l) = some c) : ∃ name', (w.loader l).cached? name' = some c := by
  rcases Option.or_eq_some_iff.mp h with h | ⟨-, h⟩
  · obtain ⟨name', -, h⟩ := List.exists_of_findSome?_eq_some h
    exact ⟨name', h⟩
  · exact exists_cached?_of_foundDefault? h

theorem mem_held_of_foundUnqualified? {l : LoaderId} {name : String}
    (h : w.foundUnqualified? d name (.loader l) = some c) : c ∈ (w.loader l).held := by
  obtain ⟨_, h⟩ := exists_cached?_of_foundUnqualified? h
  exact mem_held_of_cached? h

/-- Where names lead that nobody is asked for is held by the loader that looks them up. -/
theorem held_of_leadFrom (hd : w.Unsourced d) {name : String} {find : Collaborator → Option ClassId}
    (hfind : ∀ l c, find (.loader l) = some c → c ∈ (w.loader l).held) (hc : w.leadFrom d name find = .known c) :
    ∃ l, w.collaborator? d = some (.loader l) ∧ (w.loader l).sources = [] ∧ c ∈ (w.loader l).held := by
  unfold leadFrom at hc
  split at hc
  · split at hc
    · rename_i hb
      obtain ⟨k, hk, hb⟩ := Option.bind_eq_some_iff.mp hb
      obtain ⟨l, rfl, hl⟩ := hd k hk
      cases hc; exact ⟨l, hk, hl, hfind l c hb⟩
    · unfold missedLead at hc
      split at hc
      · rename_i hb
        obtain ⟨k, hk, hb⟩ := Option.bind_eq_some_iff.mp hb
        obtain ⟨l, rfl, hl⟩ := hd k hk
        cases hc; exact ⟨l, hk, hl, mem_held_of_standIn? hb⟩
      · cases hc
  · cases hc

theorem Settles.context (hr : w.Settles r) (h : (w.reference r).target.context? = some d) :
    d.index < w.nodes.size ∧ w.Unsourced d := by
  cases ht : (w.reference r).target with
  | direct e => rw [ht] at h; cases h
  | qualified name e => rw [ht] at h; cases h; exact hr name d (.inl ht)
  | unqualified name e => rw [ht] at h; cases h; exact hr name d (.inr ht)

/-- A name leads to what the loader of its class holds. -/
theorem held_of_leadAnew (hr : w.Settles r) (hc : w.leadAnew (w.reference r).target = .known c) :
    (w.reference r).target = .direct c ∨ ∃ d, (w.reference r).target.context? = some d ∧ ∃ l,
      w.collaborator? d = some (.loader l) ∧ (w.loader l).sources = [] ∧ c ∈ (w.loader l).held := by
  cases ht : (w.reference r).target with
  | direct d => rw [ht] at hc; cases hc; exact .inl rfl
  | qualified name d =>
    rw [ht] at hc
    exact .inr ⟨d, rfl, held_of_leadFrom (hr _ _ (.inl ht)).2 (fun _ _ => mem_held_of_cached?) hc⟩
  | unqualified name d =>
    rw [ht] at hc
    exact .inr ⟨d, rfl, held_of_leadFrom (hr _ _ (.inr ht)).2 (fun _ _ => mem_held_of_foundUnqualified?) hc⟩

theorem Sound.lead_lt (h : w.Sound made) (hg : w.Grounded) (hlt : r.index < w.references.size) (hr : w.Settles r)
    (hc : w.lead r = .known c) : c.index < w.nodes.size := by
  cases hk : (w.reference r).known? with
  | some d =>
    rw [lead_of_known hk] at hc
    cases hc; exact hg r hlt c hk
  | none =>
    rw [lead_of_unknown hk] at hc
    rcases held_of_leadAnew hr hc with ht | ⟨d, -, l, -, hs, hheld⟩
    · unfold Reference.known? at hk; rw [ht] at hk; cases hk
    · exact ((h.loaders l).held hs c hheld).1

def resolvedName (w : World) (r : RefId) : String := (r.resolve w).2.nameOf (r.resolve w).1

theorem resolvedName_eq (hs : w.Settles r) (hlt : ∀ c, w.lead r = .known c → c.index < w.nodes.size) :
    w.resolvedName r = w.leadName (w.lead r) := by
  have h := Brings.resolve (.refl w) hs
  exact h.result.nameOf h.settled hlt

theorem Resolving.of_lead {refs : ClassId → List RefId} (hr : r ∈ refs c) (hs : w.Settles r)
    (hd : w.lead r = .known d) : w.Resolving refs c d := by
  have h := (Brings.resolve (.refl w) hs).result
  rw [hd] at h
  exact ⟨r, hr, h⟩

theorem Sound.supertypeRef_written (h : w.Sound made) (hr : r ∈ w.supertypeRefs c) : w.Written c r := by
  refine (h.nodes c).supertypes r ?_
  rcases List.mem_append.mp hr with hr | hr
  · exact List.mem_append_right _ (interfaceRefs_subset _ hr)
  · exact List.mem_append_left _ (superclassRef_subset _ hr)

theorem Written.settles (h : w.Written c r) (hc : c.index < w.nodes.size) (hu : w.Unsourced c) : w.Settles r := by
  have htarget := h.target
  rintro name d (ht | ht) <;> rw [ht] at htarget <;> obtain ⟨rfl, -⟩ := htarget <;> exact ⟨hc, hu⟩

theorem Sound.region (h : w.Sound made) (hg : w.Grounded) (hu : ∀ d, ReflTransGen w.Supertype c d → w.Unsourced d) :
    w.Region (w.AtOrAbove c) where
  lt d hd := hd.1
  settles d hd r hr := (h.supertypeRef_written hr).settles hd.1 (hu d hd.2)
  closed x hx y hy := by
    obtain ⟨d, rfl, r, hr, rfl⟩ := mem_supers.mp hy
    have hwritten := h.supertypeRef_written hr
    have hs := hwritten.settles hx.1 (hu d hx.2)
    cases he : w.lead r with
    | known e => exact ⟨h.lead_lt hg hwritten.lt hs he, hx.2.tail (Resolving.of_lead hr hs he)⟩
    | missing name => trivial

def knownLeads (w : World) : List Lead := (List.range w.nodes.size).map fun i => .known ⟨i⟩

theorem knownLeads_length_le (w : World) : w.knownLeads.length + 2 ≤ w.walkBound := by
  unfold walkBound knownLeads
  simp only [List.length_map, List.length_range]
  omega

theorem Region.mem_knownLeads {S : Lead → Prop} (hS : w.Region S) {x : Lead} (hx : S x) (h : w.supers x ≠ []) :
    x ∈ w.knownLeads := by
  cases x with
  | known d => exact List.mem_map.mpr ⟨d.index, List.mem_range.mpr (hS.lt d hx), rfl⟩
  | missing name => exact (h rfl).elim

/-! ## Paths -/

def Leading (w : World) (refs : ClassId → List RefId) (x y : Lead) : Prop :=
  ∃ c, x = .known c ∧ ∃ r ∈ refs c, w.lead r = y

/-- What is not there has no supertypes. -/
theorem lt_of_mem_supertypeRefs (hr : r ∈ w.supertypeRefs c) : c.index < w.nodes.size := by
  by_contra hc
  have hn : w.node c = default := Store.get_of_size_le _ (Nat.not_lt.mp hc)
  unfold supertypeRefs at hr
  rw [hn] at hr
  cases hr

theorem Layered.acyclic (h : w.Layered) (d : ClassId) : ¬ TransGen w.Supertype d d := by
  have hlt {d e : ClassId} (hde : TransGen w.Supertype d e) : d.index < e.index := by
    induction hde with
    | single hde =>
      obtain ⟨r, hr, rfl⟩ := hde
      exact h _ (lt_of_mem_supertypeRefs hr) r hr
    | tail _ hde ih =>
      obtain ⟨r, hr, rfl⟩ := hde
      exact ih.trans (h _ (lt_of_mem_supertypeRefs hr) r hr)
  exact fun hd => Nat.lt_irrefl _ (hlt hd)

section
variable {S : Lead → Prop} {refs : ClassId → List RefId} (hS : w.Region S) (hrefs : ∀ c, refs c ⊆ w.supertypeRefs c)
include hS hrefs

/-- A path along the leads is a path of classes, but for a stand-in at its end. -/
theorem Region.resolving_of_leading (hc : S (.known c)) {x : Lead} (h : ReflTransGen (w.Leading refs) (.known c) x) :
    S x ∧ ∀ d, x = .known d → ReflTransGen (w.Resolving refs) c d := by
  induction h with
  | refl => exact ⟨hc, fun d hd => by cases hd; exact .refl⟩
  | tail _ hy ih =>
    obtain ⟨e, rfl, r, hr, rfl⟩ := hy
    obtain ⟨he, hpath⟩ := ih
    refine ⟨hS.closed _ he _ (mem_supers.mpr ⟨e, rfl, r, hrefs e hr, rfl⟩), fun d hd => ?_⟩
    exact (hpath e rfl).tail (.of_lead hr (hS.settles e he r (hrefs e hr)) hd)

theorem Region.resolving_self {x : Lead} (hx : S x) (h : TransGen (w.Leading refs) x x) :
    ∃ d, x = .known d ∧ TransGen (w.Resolving refs) d d := by
  obtain ⟨_, ⟨d, rfl, -⟩, -⟩ := TransGen.head'_iff.mp h
  obtain ⟨_, hz, e, rfl, r, hr, hlead⟩ := TransGen.tail'_iff.mp h
  obtain ⟨he, hpath⟩ := hS.resolving_of_leading hrefs hx hz
  exact ⟨d, rfl, .tail' (hpath e rfl) (.of_lead hr (hS.settles e he r (hrefs e hr)) hlead)⟩

theorem Region.leading_step (hc : S (.known c)) (h : w.Resolving refs c d) (hd : d.index < w.nodes.size) :
    S (.known d) ∧ w.Leading refs (.known c) (.known d) := by
  obtain ⟨r, hr, rfl⟩ := h
  have hs := hS.settles c hc r (hrefs c hr)
  have hresult := (Brings.resolve (.refl w) hs).result
  cases hl : w.lead r with
  | known d =>
    rw [hl] at hresult
    rw [show (r.resolve w).1 = d from hresult]
    exact ⟨hS.closed _ hc _ (mem_supers.mpr ⟨c, rfl, r, hrefs c hr, hl⟩), c, rfl, r, hr, hl⟩
  | missing name =>
    rw [hl] at hresult
    exact absurd hd (Nat.not_lt.mpr hresult.1)

theorem Region.leading_of_resolving (hc : S (.known c)) (h : ReflTransGen (w.Resolving refs) c d) :
    d.index < w.nodes.size → S (.known d) ∧ ReflTransGen (w.Leading refs) (.known c) (.known d) := by
  induction h with
  | refl => exact fun _ => ⟨hc, .refl⟩
  | tail _ he ih =>
    intro hlt
    obtain ⟨r, hr, -⟩ := id he
    obtain ⟨hb, hpath⟩ := ih (lt_of_mem_supertypeRefs (hrefs _ hr))
    obtain ⟨hd, hstep⟩ := hS.leading_step hrefs hb he hlt
    exact ⟨hd, hpath.tail hstep⟩

theorem Region.leading_self (hc : S (.known c)) (h : ReflTransGen (w.Resolving refs) c d)
    (hd : TransGen (w.Resolving refs) d d) :
    ReflTransGen (w.Leading refs) (.known c) (.known d) ∧ TransGen (w.Leading refs) (.known d) (.known d) := by
  obtain ⟨_, ⟨r, hr, -⟩, -⟩ := TransGen.head'_iff.mp hd
  have hlt := lt_of_mem_supertypeRefs (hrefs _ hr)
  obtain ⟨hSd, hpath⟩ := hS.leading_of_resolving hrefs hc h hlt
  obtain ⟨e, hde, hed⟩ := TransGen.tail'_iff.mp hd
  obtain ⟨r', hr', -⟩ := id hed
  obtain ⟨hSe, hpath'⟩ := hS.leading_of_resolving hrefs hSd hde (lt_of_mem_supertypeRefs (hrefs _ hr'))
  exact ⟨hpath, .tail' hpath' (hS.leading_step hrefs hSe hed hlt).2⟩

end

theorem leading_supertypeRefs : (fun x y => y ∈ w.supers x) = w.Leading w.supertypeRefs := by
  funext x y
  exact propext mem_supers

theorem Region.reflTransGen {S : Lead → Prop} (hS : w.Region S) (hc : S (.known c)) {x : Lead}
    (h : ReflTransGen (fun x y => y ∈ w.supers x) (.known c) x) :
    S x ∧ ∀ d, x = .known d → ReflTransGen w.Supertype c d := by
  rw [leading_supertypeRefs] at h
  exact hS.resolving_of_leading (fun _ => List.Subset.refl _) hc h

theorem Region.transGen_self {S : Lead → Prop} (hS : w.Region S) {x : Lead} (hx : S x)
    (h : TransGen (fun x y => y ∈ w.supers x) x x) : ∃ d, x = .known d ∧ TransGen w.Supertype d d := by
  rw [leading_supertypeRefs] at h
  exact hS.resolving_self (fun _ => List.Subset.refl _) hx h

end

end World

end ClassModel
