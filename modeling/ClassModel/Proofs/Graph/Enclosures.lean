import ClassModel.Proofs.Graph.Housing
import ClassModel.Proofs.Snapshot.Mirrors
import ClassModel.Proofs.Snapshot.RoundTrip

/-!
# Loaders that refer to nothing outside themselves

Queries resolve references and make stand-ins, each of them in its own order. But in a loader that
asks nobody and whose classes refer directly only to each other, all of them bring out what has been
settled before the first is asked: nothing of it changes with what has been brought out.
-/

namespace ClassModel

open Relation

namespace World

/-! ## Bringing out in steps -/

def Led (w₀ w : World) (x y : Lead) : Prop := y = x ∨ ∃ c, y = .known c ∧ w₀.LeadsTo w x c

section
variable {w₀ w v : World} {c : ClassId} {x y : Lead}

theorem LeadsTo.after (hxy : w₀.Led w x y) (h : w.LeadsTo v y c) (hw : w₀.nodes.Extends w.nodes)
    (hv : w.nodes.Extends v.nodes) : w₀.LeadsTo v x c := by
  rcases hxy with rfl | ⟨d, rfl, hd⟩
  · cases y with
    | known d => exact h
    | missing name =>
      obtain ⟨hnew, hlt, hnode⟩ := h
      exact ⟨Nat.le_trans hw.size_le hnew, hlt, hnode⟩
  · cases h
    exact hd.mono hv

theorem Settled.missedLead (h : w₀.Settled w) (hc : c.index < w₀.nodes.size) (name : String) :
    w₀.Led w (w₀.missedLead c name) (w.missedLead c name) := by
  unfold World.missedLead
  rw [h.collaborator? hc]
  cases w₀.collaborator? c with
  | none => exact .inl rfl
  | some k =>
    cases k with
    | directory d => exact .inl rfl
    | loader l =>
      simp only [Option.bind_some, World.standIn?]
      rcases h.standIns l name with he | ⟨hn, d, hd, hl⟩
      · rw [he]
        exact .inl rfl
      · rw [hn, hd]
        exact .inr ⟨d, rfl, hl⟩

theorem Settled.leadFrom (h : w₀.Settled w) (hc : c.index < w₀.nodes.size) (name : String)
    {find₀ find : Collaborator → Option ClassId} (hfind : ∀ k, find k = find₀ k) :
    w₀.Led w (w₀.leadFrom c name find₀) (w.leadFrom c name find) := by
  unfold World.leadFrom
  rw [h.isAlive, h.collaborator? hc, funext hfind]
  split
  · cases (w₀.collaborator? c).bind find₀ with
    | some d => exact .inl rfl
    | none => exact h.missedLead hc name
  · exact .inl rfl

theorem Settled.leadAnew (h : w₀.Settled w) {t : Target} (ht : ∀ c, t.context? = some c → c.index < w₀.nodes.size) :
    w₀.Led w (w₀.leadAnew t) (w.leadAnew t) := by
  cases t with
  | direct d => exact .inl rfl
  | qualified name c => exact h.leadFrom (ht c rfl) name (h.found? name)
  | unqualified name c => exact h.leadFrom (ht c rfl) name (h.foundUnqualified? (ht c rfl) name)

theorem Settled.led (h : w₀.Settled w) {r : RefId} (hr : w₀.Settles r) : w₀.Led w (w₀.lead r) (w.lead r) := by
  rcases h.known? r with he | ⟨-, c, hc, hl⟩
  · unfold World.lead
    rw [he]
    cases (w₀.reference r).known? with
    | some c => exact .inl rfl
    | none =>
      dsimp only
      rw [h.targets r]
      exact h.leadAnew fun c hc => (hr.context hc).1
  · rw [lead_of_known hc]
    exact .inr ⟨c, rfl, hl hr⟩

theorem Settled.settles (h : w₀.Settled w) {r : RefId} (hr : w₀.Settles r) : w.Settles r := by
  intro name c ht
  rw [h.targets r] at ht
  obtain ⟨hlt, hu⟩ := hr name c ht
  refine ⟨Nat.lt_of_lt_of_le hlt h.nodes.size_le, fun k hk => ?_⟩
  rw [h.collaborator? hlt] at hk
  obtain ⟨l, rfl, hl⟩ := hu k hk
  exact ⟨l, rfl, by rw [h.sources, hl]⟩

theorem Settled.trans (h : w₀.Settled w) (h' : w.Settled v) : w₀.Settled v where
  nodes := h.nodes.trans h'.nodes
  added c hc hlt := by
    by_cases hcw : c.index < w.nodes.size
    · obtain ⟨name, lookup, settings, hn⟩ := h.added c hc hcw
      exact ⟨name, lookup, settings, (h'.node hcw).trans hn⟩
    · exact h'.added c (Nat.not_lt.mp hcw) hlt
  fields := h'.fields.trans h.fields
  methods := h'.methods.trans h.methods
  constructors := h'.constructors.trans h.constructors
  targets r := (h'.targets r).trans (h.targets r)
  memos r := by
    rcases h'.memos r with he | ⟨hn, c, hc, hl⟩
    · rw [he]
      exact (h.memos r).imp_right fun ⟨hn, c, hc, hl⟩ => ⟨hn, c, hc, fun hr => (hl hr).mono h'.nodes⟩
    · have hn₀ : (w₀.reference r).known? = none := by
        rcases h.known? r with he | ⟨hn₀, -⟩
        · rw [← he]; exact hn
        · exact hn₀
      -- Where the reference has led at first it has led in between, but for a stand-in made by then.
      exact .inr ⟨hn₀, c, hc, fun hr => (hl (h.settles hr)).after (h.led hr) h.nodes h'.nodes⟩
  loaders l := by rw [h'.loaders l, h.loaders l]
  standIns l name := by
    rcases h'.standIns l name with he | ⟨hn, c, hc, hl⟩
    · rw [he]
      exact (h.standIns l name).imp_right fun ⟨hn, c, hc, hl⟩ => ⟨hn, c, hc, hl.mono h'.nodes⟩
    · have hn₀ : (w₀.loader l).placeholders.get? name = none := by
        rcases h.standIns l name with he | ⟨hn₀, -⟩
        · rw [← he]; exact hn
        · exact hn₀
      exact .inr ⟨hn₀, c, hc, hl.after (.inl rfl) h.nodes h'.nodes⟩
  gone := h'.gone.trans h.gone

end

/-- A depth at which every walk that comes to an end has done so. -/
def reach (w : World) : Nat := w.knownLeads.length + 2

section
variable {w₀ w : World} {c : ClassId}

theorem Settled.field (h : w₀.Settled w) (f : FieldId) : w.field f = w₀.field f := by
  unfold World.field; rw [h.fields]

theorem Settled.method (h : w₀.Settled w) (m : MethodId) : w.method m = w₀.method m := by
  unfold World.method; rw [h.methods]

theorem Settled.constructor (h : w₀.Settled w) (k : ConstructorId) : w.constructor k = w₀.constructor k := by
  unfold World.constructor; rw [h.constructors]

theorem Settled.shownReferences (h : w₀.Settled w) (hc : c.index < w₀.nodes.size) :
    w.shownReferences c = w₀.shownReferences c := by
  unfold World.shownReferences
  simp only [h.node hc, h.field, h.method, h.constructor]

theorem Settled.typesAt (h : w₀.Settled w) (p : TypePlace) : w.typesAt p = w₀.typesAt p := by
  cases p <;> simp only [World.typesAt, h.field, h.method, h.constructor]

theorem Settled.ownerOf (h : w₀.Settled w) (m : Member) : w.ownerOf m = w₀.ownerOf m := by
  cases m <;> simp only [World.ownerOf, h.field, h.method, h.constructor]

theorem Settled.nameOf (h : w₀.Settled w) (hc : c.index < w₀.nodes.size) : w.nameOf c = w₀.nameOf c :=
  congrArg ClassNode.qualifiedName (h.node hc)

theorem Settled.reach_le (h : w₀.Settled w) : w₀.reach ≤ w.walkBound := by
  have hlength : w₀.knownLeads.length ≤ w.knownLeads.length := by
    unfold knownLeads
    simpa using h.nodes.size_le
  have hbound := w.knownLeads_length_le
  unfold reach
  omega

theorem Settled.assignableAtOnce? (h : w₀.Settled w) {target other : ClassId} (ht : target.index < w₀.nodes.size)
    (ho : other.index < w₀.nodes.size) : w.assignableAtOnce? target other = w₀.assignableAtOnce? target other := by
  unfold World.assignableAtOnce?
  rw [h.node ht, h.node ho]

theorem Settled.captureRef (h : w₀.Settled w) {r : RefId}
    (hr : ∀ d, (w₀.reference r).target = .direct d → d.index < w₀.nodes.size) : w.captureRef r = w₀.captureRef r := by
  unfold World.captureRef
  rw [h.targets r]
  cases ht : (w₀.reference r).target with
  | direct d =>
    dsimp only
    rw [h.nameOf (hr d ht)]
  | qualified name d => rfl
  | unqualified name d => rfl

theorem Settled.captureClass (h : w₀.Settled w) (hc : c.index < w₀.nodes.size)
    (hr : ∀ r ∈ w₀.shownReferences c, ∀ d, (w₀.reference r).target = .direct d → d.index < w₀.nodes.size) :
    w.captureClass c = w₀.captureClass c := by
  have href {r : RefId} (hshown : r ∈ w₀.shownReferences c) : w.captureRef r = w₀.captureRef r :=
    h.captureRef (hr r hshown)
  have hparameters {ps : Parameters} (hps : parameterTypes ps ⊆ w₀.shownReferences c) :
      w.captureParameters ps = w₀.captureParameters ps :=
    List.map_congr_left fun p hp => by rw [href (hps (List.mem_map_of_mem hp))]
  unfold World.captureClass
  simp only [h.node hc, ClassSnapshot.mk.injEq, true_and]
  refine ⟨?_, ?_, ?_, ?_, ?_⟩
  · exact Option.map_congr fun r hr => href (superclass_shown hr)
  · exact List.map_congr_left fun r hr => href (interface_shown hr)
  · refine List.map_congr_left fun f hf => ?_
    simp only [World.captureField, h.field, href (field_shown hf)]
  · refine List.map_congr_left fun m hm => ?_
    have hshown := method_shown hm
    simp only [World.captureMethod, h.method, href (hshown List.mem_cons_self),
      hparameters fun r hr => hshown (List.mem_cons_of_mem _ hr)]
  · refine List.map_congr_left fun k hk => ?_
    simp only [World.captureConstructor, h.constructor, hparameters (constructor_shown hk)]

theorem shownReferences_standIn {name : String} {lookup : Option Collaborator} {settings : Settings}
    (h : w.node c = Loader.standIn name lookup settings) : w.shownReferences c = [] := by
  unfold World.shownReferences
  simp only [h]
  rfl

end

/-! ## Loaders that refer to nothing outside themselves -/

/-- Loader `l` is there with all its classes, it asks nobody, and its classes refer directly only to each
other. -/
structure Enclosed (w : World) (l : LoaderId) : Prop where
  alive : w.isAlive (.loader l)
  sources : (w.loader l).sources = []
  present : ∀ c, w.Own l c → w.isAlive (.node c)
  direct : ∀ c, w.Own l c → ∀ r ∈ w.shownReferences c, ∀ d, (w.reference r).target = .direct d → w.Own l d

structure Refers (w : World) (l : LoaderId) (r : RefId) : Prop where
  lt : r.index < w.references.size
  direct : ∀ d, (w.reference r).target = .direct d → w.Own l d
  context : ∀ c, (w.reference r).target.context? = some c → w.Own l c

def Inside (w : World) (l : LoaderId) : Lead → Prop
  | .known c => w.Own l c
  | .missing _ => True

section
variable {w v : World} {l : LoaderId} {c d : ClassId} {r : RefId} (hw : Run .empty w) (hl : w.Enclosed l)

theorem Refers.placed (h : w.Refers l r) : w.Placed r := ⟨h.lt, fun c hc => (h.context c hc).lt⟩

section
include hl

theorem Enclosed.collaborator? (hc : w.Own l c) : w.collaborator? c = some (.loader l) :=
  collaborator?_of_lookup hc.lookup hl.alive

theorem Enclosed.unsourced (hc : w.Own l c) : w.Unsourced c := unsourced_of_lookup hc.lookup hl.sources

theorem Refers.settles (hr : w.Refers l r) : w.Settles r := by
  rintro name c (ht | ht)
  · have hc := hr.context c (by rw [ht]; rfl)
    exact ⟨hc.lt, hl.unsourced hc⟩
  · have hc := hr.context c (by rw [ht]; rfl)
    exact ⟨hc.lt, hl.unsourced hc⟩

end

include hw hl

theorem Enclosed.refers (hc : w.Own l c) (hr : r ∈ w.shownReferences c) : w.Refers l r := by
  obtain ⟨made, hs⟩ := hw.enclosed.1.sound
  have hwritten := hs.written hr
  refine ⟨hwritten.lt, hl.direct c hc r hr, fun d hd => ?_⟩
  have htarget := hwritten.target
  cases ht : (w.reference r).target with
  | direct e => rw [ht] at hd; cases hd
  | qualified name e => rw [ht] at hd htarget; cases hd; rw [htarget.1]; exact hc
  | unqualified name e => rw [ht] at hd htarget; cases hd; rw [htarget.1]; exact hc

omit hw hl in
theorem known?_of_context (ht : (w.reference r).target.context? = some c) :
    (w.reference r).known? = (w.reference r).memo := by
  unfold Reference.known?
  cases h : (w.reference r).target with
  | direct d => rw [h] at ht; cases ht
  | qualified name d => rfl
  | unqualified name d => rfl

theorem Enclosed.own_of_lead (hr : w.Refers l r) (ht : (w.reference r).target.context? = some c)
    (hd : w.lead r = .known d) : w.Own l d := by
  obtain ⟨ho, hi⟩ := hw.enclosed
  have hc := hr.context c ht
  cases hk : (w.reference r).known? with
  | some e =>
    rw [lead_of_known hk] at hd
    cases hd
    rw [known?_of_context ht] at hk
    -- What is remembered has been found, or made, by the loader.
    exact (hi r c d ht hk).own l hc.lookup (hl.present c hc) hl.alive hl.sources
  | none =>
    rw [lead_of_unknown hk] at hd
    rcases held_of_leadAnew (hr.settles hl) hd with he | ⟨e, he, l', hl', -, hheld⟩
    · rw [he] at ht; cases ht
    · rw [ht] at he
      cases he
      rw [hl.collaborator? hc] at hl'
      cases hl'
      exact ho.own_of_held hl.sources hheld

theorem Enclosed.inside (hr : w.Refers l r) : w.Inside l (w.lead r) := by
  cases hd : w.lead r with
  | missing name => trivial
  | known d =>
    cases ht : (w.reference r).target with
    | direct e =>
      rw [lead_of_known (show (w.reference r).known? = some e by unfold Reference.known?; rw [ht])] at hd
      cases hd
      exact hr.direct d ht
    | qualified name c => exact hl.own_of_lead hw hr (by rw [ht]; rfl) hd
    | unqualified name c => exact hl.own_of_lead hw hr (by rw [ht]; rfl) hd

theorem Enclosed.region : w.Region (w.Inside l) where
  lt c hc := hc.lt
  settles c hc r hr := (hl.refers hw hc (supertypeRefs_shown hr)).settles hl
  closed x hx y hy := by
    obtain ⟨c, rfl, r, hr, rfl⟩ := mem_supers.mp hy
    exact hl.inside hw (hl.refers hw hx (supertypeRefs_shown hr))

theorem Enclosed.own_of_cached? {name : String} (hc : (w.loader l).cached? name = some c) : w.Own l c :=
  hw.enclosed.1.own_of_held hl.sources (mem_held_of_cached? hc)

theorem Enclosed.own_of_registered (hc : c ∈ (w.loader l).classes.values) : w.Own l c :=
  hw.enclosed.1.own_of_held hl.sources (Loader.mem_held.mpr (.inr (.inl hc)))

theorem Enclosed.inside_standIn (name : String) :
    w.Inside l (match (w.loader l).placeholders.get? name with
      | some d => .known d
      | none => .missing name) := by
  cases hd : (w.loader l).placeholders.get? name with
  | some d => exact hw.enclosed.1.own_of_held hl.sources (mem_held_of_standIn? hd)
  | none => trivial

theorem Enclosed.snapshot (hv : w.Settled v) : v.snapshot l = w.snapshot l := by
  have hclasses : (v.loader l).classes = (w.loader l).classes := by rw [hv.loaders l]
  unfold World.snapshot
  rw [hclasses]
  congr 1
  refine List.map_congr_left fun c hc => ?_
  have hown := hl.own_of_registered hw hc
  exact hv.captureClass hown.lt fun r hr d hd => (hl.direct c hown r hr d hd).lt

theorem Enclosed.settled (hv : w.Settled v) : v.Enclosed l := by
  obtain ⟨made, hs⟩ := hw.enclosed.1.sound
  have hold {c : ClassId} (hc : v.Own l c) (hlt : c.index < w.nodes.size) : w.Own l c :=
    ⟨hlt, by rw [← hv.node hlt]; exact hc.lookup⟩
  have hnew {c : ClassId} (hc : w.Own l c) : v.Own l c :=
    ⟨Nat.lt_of_lt_of_le hc.lt hv.nodes.size_le, by rw [hv.node hc.lt]; exact hc.lookup⟩
  refine ⟨by rw [hv.isAlive]; exact hl.alive, by rw [hv.sources]; exact hl.sources, fun c hc => ?_,
    fun c hc r hr d hd => ?_⟩
  · rw [hv.isAlive]
    by_cases hlt : c.index < w.nodes.size
    · exact hl.present c (hold hc hlt)
    · have := hs.not_gone (Nat.not_lt.mp hlt)
      simpa [World.isAlive] using this
  · by_cases hlt : c.index < w.nodes.size
    · rw [hv.shownReferences hlt] at hr
      rw [hv.targets r] at hd
      exact hnew (hl.direct c (hold hc hlt) r hr d hd)
    · -- Only stand-ins have been added, and they refer to nothing.
      obtain ⟨name, lookup, settings, hn⟩ := hv.added c (Nat.not_lt.mp hlt) hc.lt
      rw [shownReferences_standIn hn] at hr
      cases hr

end

end World

end ClassModel
