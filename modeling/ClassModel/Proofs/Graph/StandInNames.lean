import ClassModel.Proofs.Graph.Observations
import ClassModel.Proofs.Graph.StandIns
import ClassModel.Proofs.NameParts

/-!
# Names of stand-ins

A stand-in is made for a text that nobody has checked. The text is taken apart at its last dot, and the name
that the class shows is joined again from the two parts. Nothing is lost on the way but one thing: a dot with
nothing before it, if it is the only one.
-/

namespace ClassModel

namespace Name

/-- The default package has no name, so the dot behind it is not put back. -/
theorem qualify_of_leading_dot {rest : String} (h : '.' ∉ rest.toList) :
    qualify (packageOf ("." ++ rest)) (simpleNameOf ("." ++ rest)) = rest := by
  have hsplit : splitAtLastDot ("." ++ rest).toList = some ([], rest.toList) := by
    rw [String.toList_append, show (".").toList ++ rest.toList = [] ++ '.' :: rest.toList from rfl,
      splitAtLastDot_append h]
  have hpackage : packageOf ("." ++ rest) = "" := by rw [packageOf, hsplit]
  rw [hpackage, simpleNameOf, hsplit]
  exact String.ofList_toList

theorem qualify_of_no_leading_dot {name : String} (h : ∀ rest, name = "." ++ rest → '.' ∈ rest.toList) :
    qualify (packageOf name) (simpleNameOf name) = name := by
  refine qualify_of_front fun back hs => ?_
  have hname : name = "." ++ String.ofList back :=
    String.toList_injective (by simpa using splitAtLastDot_some hs)
  have hdot := h _ hname
  rw [String.toList_ofList] at hdot
  exact not_mem_back_of_splitAtLastDot hs hdot

end Name

open Name

namespace World

/-- Loader `l` is asked for a name: by the name alone, from one of its classes, or by a reference that has been
written in one of its classes and is resolved for the first time. -/
inductive Seeks (w : World) (l : LoaderId) (name : String) : Step ClassId → Prop
  | load : Seeks w l name (Loader.load l name)
  | forName {c : ClassId} : w.Own l c → Seeks w l name (c.forName name)
  | resolve {r : RefId} {c : ClassId} : w.Own l c → w.reference r = ⟨.qualified name c, none⟩ →
      Seeks w l name r.resolve

def ToStandIn (w : World) (name : String) : Lead → Prop
  | .known d => ∃ l, w.Housed l name d
  | .missing other => other = name

section
variable {w v : World} {l : LoaderId} {name : String} {c : ClassId} {x : Lead}

theorem ToStandIn.nameOf (h : w.ToStandIn name x) (hv : w.Settled v) (hc : w.LeadsTo v x c) :
    v.nameOf c = qualify (packageOf name) (simpleNameOf name) := by
  cases x with
  | known d =>
    obtain ⟨l, hd⟩ := h
    cases hc
    rw [hv.nameOf hd.lt, hd.nameOf]
  | missing other =>
    cases h
    obtain ⟨-, -, lookup, settings, hn⟩ := hc
    exact congrArg ClassNode.qualifiedName hn

variable (hw : w.Orderly) (hs : (w.loader l).sources = [])
include hw hs

theorem Orderly.toStandIn (name : String) : w.ToStandIn name (w.standInLead l name) := by
  unfold standInLead
  cases hd : (w.loader l).placeholders.get? name with
  | some d => exact ⟨l, (hw.houses l hs).standIns _ (Registry.mem_of_get? hd)⟩
  | none => rfl

theorem Orderly.toStandIn_missed (hc : w.Own l c) (name : String) : w.ToStandIn name (w.missedLead c name) := by
  have hshared := hw.toStandIn hs name
  unfold standInLead at hshared
  unfold missedLead
  cases hk : w.collaborator? c with
  | none => rfl
  | some _ =>
    cases eq_of_collaborator? hc.lookup hk
    exact hshared

variable (hnone : (w.loader l).cached? name = none)
include hnone

theorem Seeks.brings {s : Step ClassId} (h : w.Seeks l name s) :
    Brings w s w fun v c => ∃ x, w.ToStandIn name x ∧ w.LeadsTo v x c := by
  have hlookup {v : World} (hv : w.Settled v) : Says (Loader.lookup l name) v none := by
    have hcached : (v.loader l).cached? name = (w.loader l).cached? name := hv.found? name (.loader l)
    rw [← hnone, ← hcached]
    exact .loaderLookup (by rw [hv.sources, hs]) name
  cases h with
  | load =>
    refine .after (.refl w) (hlookup (.refl w)) fun v hv => .after hv (.log _) fun v' hv' => ?_
    exact (Brings.loaderPlaceholder hv' l name).imp fun _ _ hc => ⟨_, hw.toStandIn hs name, hc⟩
  | @forName d hd =>
    have hmissed {v : World} (hv : w.Settled v) :
        Brings w (d.placeholder name) v fun v c => ∃ x, w.ToStandIn name x ∧ w.LeadsTo v x c :=
      (Brings.placeholder hv hd.lt (unsourced_of_lookup hd.lookup hs) name).imp fun _ _ hc =>
        ⟨_, hw.toStandIn_missed hs hd name, hc⟩
    cases hk : w.collaborator? d with
    | none =>
      refine .after (.refl w) (.see fun _ => hk) fun v hv => .after hv (.pure none) fun v' hv' => hmissed hv'
    | some _ =>
      cases eq_of_collaborator? hd.lookup hk
      refine .after (.refl w) (.see fun _ => hk) fun v hv => .after hv (hlookup hv) fun v' hv' => hmissed hv'
  | @resolve r d hd hr =>
    have hsettles : w.Settles r := by
      rintro other e (ht | ht) <;> rw [hr] at ht <;> cases ht
      exact ⟨hd.lt, unsourced_of_lookup hd.lookup hs⟩
    refine (Brings.resolve (.refl w) hsettles).imp fun v c hc => ⟨_, ?_, hc⟩
    have hlead : w.lead r = w.leadFrom d name (w.found? name) := by
      rw [lead_of_unknown (by rw [hr]; rfl), hr]
      rfl
    rw [hlead]
    unfold leadFrom
    split
    · have hfound : (w.collaborator? d).bind (w.found? name) = none := by
        cases hk : w.collaborator? d with
        | none => rfl
        | some _ => cases eq_of_collaborator? hd.lookup hk; exact hnone
      rw [hfound]
      exact hw.toStandIn_missed hs hd name
    · rfl

end

/-- In a loader that asks nobody, whoever misses a name is handed a class of this name; but if the name is a dot
and no other dot follows, then the class has the name without the dot. -/
theorem stand_in_named {w : World} (hw : Run .empty w) {l : LoaderId} (hs : (w.loader l).sources = [])
    {name : String} (hmiss : (Loader.lookup l name w).1 = none) {s : Step ClassId} (hseek : w.Seeks l name s) :
    ((∀ rest, name = "." ++ rest → '.' ∈ rest.toList) → (s w).2.nameOf (s w).1 = name) ∧
      ∀ rest, name = "." ++ rest → '.' ∉ rest.toList → (s w).2.nameOf (s w).1 = rest := by
  rw [lookup_of_unsourced hs] at hmiss
  have hbrings := hseek.brings hw.enclosed.1 hs hmiss
  obtain ⟨x, hx, hc⟩ := hbrings.result
  rw [hx.nameOf hbrings.settled hc]
  refine ⟨qualify_of_no_leading_dot, ?_⟩
  rintro rest rfl hrest
  exact qualify_of_leading_dot hrest

def dotted : World :=
  (Step.addReference (.qualified ".x" ⟨10⟩) ((Mutation.define ⟨0⟩ "p" "A" []).run single).2).2

theorem run_dotted : Run .empty dotted := by
  have hsingle : Run .empty single := .single (.makeLoader _ .standard [])
  have hdefined := hsingle.tail (.mutate _ (.define ⟨0⟩ "p" "A" []))
  exact hdefined.tail (.refer (.qualified ".x" ⟨10⟩) fun c hc => by cases hc; decide +kernel)

theorem own_dotted : dotted.Own ⟨0⟩ ⟨10⟩ := ⟨by decide +kernel, by decide +kernel⟩

theorem sources_dotted : (dotted.loader ⟨0⟩).sources = [] := List.isEmpty_iff.mp (by decide +kernel)

theorem dotted_named : Run .empty dotted ∧
    (∀ s ∈ [Loader.load ⟨0⟩ "..x", ClassId.forName ⟨10⟩ "..x"], (s dotted).2.nameOf (s dotted).1 = "..x") ∧
    ((⟨0⟩ : RefId).resolve dotted).2.nameOf ((⟨0⟩ : RefId).resolve dotted).1 = "x" := by
  have hwhole (s : Step ClassId) (hs : dotted.Seeks ⟨0⟩ "..x" s) : (s dotted).2.nameOf (s dotted).1 = "..x" := by
    refine (stand_in_named run_dotted sources_dotted (by decide +kernel) hs).1 fun rest hrest => ?_
    have hrest : rest = ".x" := String.toList_injective (by simpa using (congrArg String.toList hrest).symm)
    rw [hrest]
    decide
  refine ⟨run_dotted, fun s hs => ?_, ?_⟩
  · simp only [List.mem_cons, List.not_mem_nil, or_false] at hs
    rcases hs with rfl | rfl
    · exact hwhole _ .load
    · exact hwhole _ (.forName own_dotted)
  · exact (stand_in_named run_dotted sources_dotted (by decide +kernel)
      (.resolve own_dotted (by decide +kernel))).2 "x" rfl (by decide)

/-- Whichever way the name is asked for, the class has another name; and as a type it is no longer told from the
stand-in for that name. -/
theorem dotted_loses_dot : Run .empty dotted ∧ dotted.Own ⟨0⟩ ⟨10⟩ ∧ (dotted.loader ⟨0⟩).sources = [] ∧
    (Loader.lookup ⟨0⟩ ".x" dotted).1 = none ∧ (dotted.reference ⟨0⟩) = ⟨.qualified ".x" ⟨10⟩, none⟩ ∧
    (∀ s ∈ [Loader.load ⟨0⟩ ".x", ClassId.forName ⟨10⟩ ".x", (⟨0⟩ : RefId).resolve],
      (s dotted).2.nameOf (s dotted).1 ≠ ".x") ∧
    ((do
      let c ← Loader.load ⟨0⟩ ".x"
      let d ← Loader.load ⟨0⟩ "x"
      return (c == d, ← c.isAssignableFrom d) : Step (Bool × Bool)) dotted).1 = (false, true) := by
  have hnames : (Loader.load ⟨0⟩ ".x" dotted).2.nameOf (Loader.load ⟨0⟩ ".x" dotted).1 = "x" ∧
      (ClassId.forName ⟨10⟩ ".x" dotted).2.nameOf (ClassId.forName ⟨10⟩ ".x" dotted).1 = "x" ∧
      ((⟨0⟩ : RefId).resolve dotted).2.nameOf ((⟨0⟩ : RefId).resolve dotted).1 = "x" := by decide +kernel
  refine ⟨run_dotted, own_dotted, sources_dotted, by decide +kernel, by decide +kernel, fun s hs => ?_,
    by decide +kernel⟩
  simp only [List.mem_cons, List.not_mem_nil, or_false] at hs
  rcases hs with rfl | rfl | rfl
  · rw [hnames.1]; decide
  · rw [hnames.2.1]; decide
  · rw [hnames.2.2]; decide

end World

end ClassModel
