import ClassModel.Proofs.Graph.Runs
import ClassModel.Proofs.Graph.Supertypes

/-!
# Runs that resolve references

A reference remembers a class only if it has not been resolved, and the class is one that whoever
looks names up for it has handed out. With lookups in between, and edits, that is all that resolving
does, and all that walks over supertypes and members do.
-/

namespace ClassModel

open Change

open World

/-! ## What a loader hands out to its own classes -/

namespace World

def Belongs (w : World) (l : LoaderId) (c : ClassId) : Prop :=
  c ∈ (w.loader l).held ∨ c.index < w.nodes.size ∧ (w.node c).lookup = some (.loader l)

def GoesBy (w : World) (l : LoaderId) (name : String) : Lead → Prop
  | .known c => (w.loader l).cached? name = some c ∨ (w.loader l).placeholders.get? name = some c ∨
    c.index < w.nodes.size ∧ ∃ lookup settings, w.node c = Loader.standIn name lookup settings
  | .missing other => other = name

section
variable {w v : World} {l : LoaderId} {c d : ClassId}

/-- Whatever is still there of the class and its loader, a name leads to a class that goes by it. -/
theorem goesBy_leadFrom (hlookup : (w.node c).lookup = some (.loader l)) (name : String) :
    w.GoesBy l name (w.leadFrom c name (w.found? name)) := by
  unfold leadFrom
  split
  · split
    · rename_i hb
      obtain ⟨k, hk, hb⟩ := Option.bind_eq_some_iff.mp hb
      cases eq_of_collaborator? hlookup hk
      exact .inl hb
    · unfold missedLead
      split
      · rename_i hb
        obtain ⟨k, hk, hb⟩ := Option.bind_eq_some_iff.mp hb
        cases eq_of_collaborator? hlookup hk
        exact .inr (.inl hb)
      · rfl
  · rfl

theorem GoesBy.leadsTo {name : String} {x : Lead} (h : w.GoesBy l name x) (hv : w.Settled v) (hd : w.LeadsTo v x d) :
    v.GoesBy l name (.known d) := by
  cases x with
  | known e =>
    cases hd
    rcases h with h | h | ⟨hlt, hn⟩
    · exact .inl ((hv.found? name (.loader l)).trans h)
    · rcases hv.standIns l name with he | ⟨hnone, -⟩
      · exact .inr (.inl (he.trans h))
      · cases hnone.symm.trans h
    · exact .inr (.inr ⟨Nat.lt_of_lt_of_le hlt hv.nodes.size_le, by rwa [hv.node hlt]⟩)
  | missing other =>
    cases h
    obtain ⟨-, hlt, hn⟩ := hd
    exact .inr (.inr ⟨hlt, hn⟩)

end

end World

/-- Whatever the log says, what the step hands out and leaves satisfies `Q`. -/
def Leaves (s : Step α) (w : World) (Q : α → World → Prop) : Prop :=
  ∀ log, Q (s { w with log := log }).1 (s { w with log := log }).2

namespace Leaves

variable {w : World} {Q : β → World → Prop}

theorem pure {b : β} (h : ∀ log, Q b { w with log := log }) : Leaves (Pure.pure b) w Q := h

theorem after {s : Step α} {f : α → Step β} {a : α} (hs : Says s w a) (hf : Leaves (f a) w Q) :
    Leaves (s >>= f) w Q := fun log => by
  obtain ⟨log', h⟩ := hs log
  show Q (f (s { w with log := log }).1 (s { w with log := log }).2).1 (f _ _).2
  rw [h]
  exact hf log'

end Leaves

section
variable {w : World} {l : LoaderId} {c : ClassId} {name : String} {Q : ClassId → World → Prop}

theorem missed_leaves (h : Leaves (c.placeholder name) w Q) : Leaves (RefId.missed name c) w Q :=
  .after (.see (a := w.nameOf c) fun _ => rfl) (.after (.log _) h)

theorem orMissed_leaves {s : Step (Option ClassId)} {found : Option ClassId} (hfind : Says s w found)
    (hfound : ∀ d, found = some d → ∀ log, Q d { w with log := log }) (h : Leaves (c.placeholder name) w Q) :
    Leaves (do match ← s with
      | some d => return d
      | none => RefId.missed name c) w Q := by
  refine .after hfind ?_
  cases found with
  | some d => exact .pure (hfound d rfl)
  | none => exact missed_leaves h

variable (hlookup : (w.node c).lookup = some (.loader l)) (hl : w.isAlive (.loader l))
include hlookup hl

theorem placeholder_of_lookup (name : String) (log : List Log.Event) :
    c.placeholder name { w with log := log } = Loader.placeholder l name { w with log := log } := by
  have hk : ({ w with log := log } : World).collaborator? c = some (.loader l) := collaborator?_of_lookup hlookup hl
  rw [classPlaceholder_run, hk]
  rfl

theorem placeholder_leaves (h : Leaves (Loader.placeholder l name) w Q) : Leaves (c.placeholder name) w Q :=
  fun log => by
    rw [placeholder_of_lookup hlookup hl]
    exact h log

variable (hs : (w.loader l).sources = []) (halive : w.isAlive (.node c))
include hs halive

theorem findQualified_leaves (hfound : ∀ d, (w.loader l).cached? name = some d → ∀ log, Q d { w with log := log })
    (h : Leaves (Loader.placeholder l name) w Q) : Leaves (RefId.findQualified name c) w Q := by
  refine .after (.see (a := true) fun _ => halive) ?_
  rw [if_pos rfl]
  refine .after (.see fun _ => collaborator?_of_lookup hlookup hl) ?_
  exact orMissed_leaves (s := do Step.log _; Collaborator.lookup (.loader l) name)
    (.bind (.log _) (.loaderLookup hs name)) hfound (placeholder_leaves hlookup hl h)

theorem findUnqualified_leaves
    (hfound : ∀ d, w.foundUnqualified? c name (.loader l) = some d → ∀ log, Q d { w with log := log })
    (h : Leaves (Loader.placeholder l name) w Q) : Leaves (RefId.findUnqualified name c) w Q := by
  refine .after (.see (a := true) fun _ => halive) ?_
  rw [if_pos rfl]
  exact orMissed_leaves (s := do (← c.context).resolve name)
    (.contextResolve (collaborator?_of_lookup hlookup hl) ⟨l, rfl, hs⟩ name) hfound (placeholder_leaves hlookup hl h)

end

section
variable {w : World} {l : LoaderId} {c : ClassId}

theorem loaderPlaceholder_belongs (w : World) (l : LoaderId) (name : String) :
    Leaves (Loader.placeholder l name) w fun d w' => w'.Belongs l d := fun log => by
  let v : World := { w with log := log }
  show World.Belongs (Loader.placeholder l name v).2 l (Loader.placeholder l name v).1
  rw [placeholder_run]
  cases hp : (v.loader l).placeholders.get? name with
  | some d => exact .inl (mem_held_of_standIn? hp)
  | none =>
    refine .inr ⟨?_, ?_⟩
    · show v.nodes.size < (v.nodes.push _).size
      simp
    · exact congrArg ClassNode.lookup (Store.get_push_self v.nodes _)

theorem findQualified_belongs (hlookup : (w.node c).lookup = some (.loader l)) (hl : w.isAlive (.loader l))
    (hs : (w.loader l).sources = []) (halive : w.isAlive (.node c)) (name : String) :
    (RefId.findQualified name c w).2.Belongs l (RefId.findQualified name c w).1 :=
  findQualified_leaves hlookup hl hs halive (fun _ hd _ => .inl (mem_held_of_cached? hd))
    (loaderPlaceholder_belongs w l name) w.log

theorem findUnqualified_belongs (hlookup : (w.node c).lookup = some (.loader l)) (hl : w.isAlive (.loader l))
    (hs : (w.loader l).sources = []) (halive : w.isAlive (.node c)) (name : String) :
    (RefId.findUnqualified name c w).2.Belongs l (RefId.findUnqualified name c w).1 :=
  findUnqualified_leaves hlookup hl hs halive (fun _ hd _ => .inl (mem_held_of_foundUnqualified? hd))
    (loaderPlaceholder_belongs w l name) w.log

end

/-! ## Acts -/

namespace World

structure Placed (w : World) (r : RefId) : Prop where
  lt : r.index < w.references.size
  context : ∀ c, (w.reference r).target.context? = some c → c.index < w.nodes.size

/-- The reference has not been resolved. If its class and the loader of its class are there and
nobody else is asked, then class `c` is one that this loader hands out. A name that is qualified is the
one by which it goes, whether they are there or not. -/
structure MayRemember (w : World) (r : RefId) (c : ClassId) : Prop where
  placed : w.Placed r
  unknown : (w.reference r).known? = none
  belongs : ∀ d, (w.reference r).target.context? = some d → ∀ l, (w.node d).lookup = some (.loader l) →
    w.isAlive (.node d) → w.isAlive (.loader l) → (w.loader l).sources = [] → w.Belongs l c
  goesBy : ∀ name d, (w.reference r).target = .qualified name d → ∀ l, (w.node d).lookup = some (.loader l) →
    (w.loader l).sources = [] → w.GoesBy l name (.known c)

inductive Acts : World → World → Prop
  | refl (w : World) : Acts w w
  | builds {w w' w'' : World} : Acts w w' → w'.Builds w'' → Acts w w''
  | remember {w w' : World} {r : RefId} {c : ClassId} : Acts w w' → w'.MayRemember r c →
      Acts w (w'.editReference r fun x => { x with memo := some c })

section
variable {w w' w'' : World}

theorem Builds.acts (h : w.Builds w') : w.Acts w' := (Acts.refl w).builds h

theorem Acts.trans (h : w.Acts w') (h' : w'.Acts w'') : w.Acts w'' := by
  induction h' with
  | refl => exact h
  | builds _ hb ih => exact ih.builds hb
  | remember _ hr ih => exact ih.remember hr

theorem Acts.moves (h : w.Acts w') : ∃ made, Moves w made w' := by
  induction h with
  | refl => exact ⟨[], .refl w⟩
  | builds _ hb ih =>
    obtain ⟨made, hm⟩ := ih
    obtain ⟨made', hm'⟩ := hb.moves
    exact ⟨_, hm.trans hm'⟩
  | remember _ _ ih =>
    obtain ⟨made, hm⟩ := ih
    exact ⟨_, hm.tail (.remember _ _ _)⟩

theorem Keeps.isAlive (h : w.Keeps w') {o : Object} (ho : w'.isAlive o) : w.isAlive o := by
  simp only [World.isAlive, Bool.not_eq_eq_eq_not, Bool.not_true, List.contains_eq_mem, decide_eq_false_iff_not] at ho ⊢
  exact fun hg => ho (h.gone hg)

theorem Keeps.sources_eq_nil (h : w.Keeps w') {l : LoaderId} (hs : (w'.loader l).sources = []) :
    (w.loader l).sources = [] := by
  by_cases hl : l.index < w.loaders.size
  · rw [← (h.loaders l hl).2.2]; exact hs
  · rw [show w.loader l = default from Store.get_of_size_le _ (Nat.not_lt.mp hl)]; rfl

theorem Acts.keeps (h : w.Acts w') : w.Keeps w' := by
  obtain ⟨made, hm⟩ := h.moves
  exact hm.keeps

theorem Acts.sound (h : w.Acts w') (hw : ∃ made, w.Sound made) : ∃ made, w'.Sound made := by
  obtain ⟨made, hw⟩ := hw
  obtain ⟨made', hm⟩ := h.moves
  exact ⟨_, hm.sound hw⟩

theorem Placed.keeps {r : RefId} (h : w.Placed r) (hk : w.Keeps w') : w'.Placed r where
  lt := (hk.references r h.lt).1
  context c hc := by
    rw [(hk.references r h.lt).2] at hc
    exact Nat.lt_of_lt_of_le (h.context c hc) hk.size

theorem reference_remember (w : World) (r q : RefId) (c : ClassId) :
    (w.editReference r fun x => { x with memo := some c }).reference q =
      if r = q ∧ q.index < w.references.size then { w.reference q with memo := some c } else w.reference q := by
  have : r.index = q.index ↔ r = q := by cases r; cases q; simp
  simp only [editReference, reference, Store.get_modify, this]

theorem Acts.known? (h : w.Acts w') {r : RefId} (hr : r.index < w.references.size) {c : ClassId}
    (hc : (w.reference r).known? = some c) : (w'.reference r).known? = some c := by
  induction h with
  | refl => exact hc
  | @builds u v hu hb ih =>
    rw [show v.reference r = u.reference r from hb.references.kept.get_eq _ (hu.keeps.references r hr).1]
    exact ih
  | @remember u q d _ hq ih =>
    have hne : q ≠ r := by
      rintro rfl
      rw [hq.unknown] at ih
      cases ih
    rw [reference_remember, if_neg (fun h => hne h.1)]
    exact ih

end

/-! ## Resolving -/

section
variable {w w' : World} {r : RefId}

/-- If nothing else has been resolved since, a class that the loader hands out may be remembered. -/
theorem mayRemember_of_builds {c d : ClassId} (hr : w.Placed r) (hk : (w.reference r).known? = none)
    (hc : (w.reference r).target.context? = some c) (hb : w.Builds w')
    (hd : ∀ l, (w.node c).lookup = some (.loader l) → w.isAlive (.node c) → w.isAlive (.loader l) →
      (w.loader l).sources = [] → w'.Belongs l d)
    (hname : ∀ name, (w.reference r).target = .qualified name c → ∀ l, (w.node c).lookup = some (.loader l) →
      (w.loader l).sources = [] → w'.GoesBy l name (.known d)) : w'.MayRemember r d := by
  have hkeeps := hb.keeps
  have hsame : w'.reference r = w.reference r := hb.references.kept.get_eq _ hr.lt
  refine ⟨hr.keeps hkeeps, by rw [hsame]; exact hk, fun e he l hlookup hnode hloader hsources => ?_,
    fun name e he l hlookup hsources => ?_⟩
  · rw [hsame, hc] at he
    cases he
    rw [(hkeeps.same c (hr.context c hc)).lookup] at hlookup
    exact hd l hlookup (hkeeps.isAlive hnode) (hkeeps.isAlive hloader) (hkeeps.sources_eq_nil hsources)
  · rw [hsame] at he
    obtain rfl : c = e := Option.some.inj (hc.symm.trans (congrArg Target.context? he))
    rw [(hkeeps.same c (hr.context c hc)).lookup] at hlookup
    exact hname name he l hlookup (hkeeps.sources_eq_nil hsources)

theorem resolve_acts (hr : w.Placed r) : w.Acts (r.resolve w).2 := by
  rw [resolve_run]
  cases hk : (w.reference r).known? with
  | some c => exact .refl w
  | none =>
    dsimp only
    cases ht : (w.reference r).target with
    | direct c => unfold Reference.known? at hk; rw [ht] at hk; cases hk
    | qualified name c =>
      have hc : (w.reference r).target.context? = some c := by rw [ht]; rfl
      have hb := Builds.finding.findQualified name c w
      refine hb.acts.remember (mayRemember_of_builds hr hk hc hb (fun l hlookup hnode hloader hsources =>
        findQualified_belongs hlookup hloader hsources hnode name) fun other he l hlookup hsources => ?_)
      cases ht.symm.trans he
      have hbrings := Brings.findQualified (.refl w) (hr.context c hc) (unsourced_of_lookup hlookup hsources) name
      exact (goesBy_leadFrom hlookup name).leadsTo hbrings.settled hbrings.result
    | unqualified name c =>
      have hc : (w.reference r).target.context? = some c := by rw [ht]; rfl
      have hb := Builds.finding.findUnqualified name c w
      exact hb.acts.remember (mayRemember_of_builds hr hk hc hb (fun l hlookup hnode hloader hsources =>
        findUnqualified_belongs hlookup hloader hsources hnode name) fun _ he => by cases ht.symm.trans he)

theorem qualifiedName_acts (hr : w.Placed r) : w.Acts (r.qualifiedName w).2 := by
  dsimp only [RefId.qualifiedName, bind, StateT.bind, Step.see]
  cases (w.reference r).target with
  | direct c => exact .refl w
  | qualified name c => exact .refl w
  | unqualified name c => exact resolve_acts hr

theorem resolveAll_acts {rs : List RefId} : ∀ {w : World}, (∀ r ∈ rs, w.Placed r) →
    w.Acts (RefId.resolveAll rs w).2 := by
  induction rs with
  | nil => exact fun _ => .refl _
  | cons r rs ih =>
    intro w h
    obtain ⟨hr, hrs⟩ := List.forall_mem_cons.mp h
    have hacts := resolve_acts hr
    exact hacts.trans (ih fun q hq => (hrs q hq).keeps hacts.keeps)

theorem namedReferences_acts (name : String) {rs : List RefId} : ∀ {w : World}, (∀ r ∈ rs, w.Placed r) →
    w.Acts (ClassId.namedReferences name rs w).2 := by
  induction rs with
  | nil => exact fun _ => .refl _
  | cons r rs ih =>
    intro w h
    obtain ⟨hr, hrs⟩ := List.forall_mem_cons.mp h
    have hacts := qualifiedName_acts hr
    exact hacts.trans (ih fun q hq => (hrs q hq).keeps hacts.keeps)

theorem Written.placed {c : ClassId} (h : w.Written c r) (hc : c.index < w.nodes.size) : w.Placed r where
  lt := h.lt
  context d hd := by
    have ht := h.target
    cases hr : (w.reference r).target with
    | direct e => rw [hr] at hd; cases hd
    | qualified name e => rw [hr] at hd ht; cases hd; rw [ht.1]; exact hc
    | unqualified name e => rw [hr] at hd ht; cases hd; rw [ht.1]; exact hc

/-- A class that has supertypes is there, shown or not. -/
theorem Sound.placed {made : List (LoaderId × ClassId)} (h : w.Sound made) {c : ClassId}
    (hr : r ∈ (w.node c).superclass.toList ++ (w.node c).interfaces) : w.Placed r := by
  refine ((h.nodes c).supertypes r hr).placed ?_
  by_contra hc
  rw [show w.node c = default from Store.get_of_size_le _ (Nat.not_lt.mp hc)] at hr
  cases hr

end

end World

/-! ## Walks -/

/-- What walks over supertypes take, and the removal of interfaces, leads to related worlds. -/
structure Walking (R : World → World → Prop) : Prop where
  superclass : ∀ c : ClassId, Within R c.superclass
  interfaces : ∀ c : ClassId, Within R c.interfaces
  named : ∀ (c : ClassId) name, Within R (Change.of (do
    let n ← Step.see (·.node c)
    ClassId.namedReferences name n.interfaces))
  drop : ∀ (c : ClassId) (doomed : List RefId), Within R (requireDeclared c >>= fun _ =>
    Change.of (Step.onNode c fun n => { n with interfaces := n.interfaces.filter fun r => !doomed.contains r }))

theorem dropInterfaces_makes (c : ClassId) (doomed : List RefId) (w : World) :
    Change.Makes (requireDeclared c >>= fun _ =>
      Change.of (Step.onNode c fun n => { n with interfaces := n.interfaces.filter fun r => !doomed.contains r }))
    w (w.Editable c) () (w.editNode c fun n =>
      { n with interfaces := n.interfaces.filter fun r => !doomed.contains r }) :=
  ((requireDeclared_makes c w).guard (.of_eq rfl)).congr (by rw [and_true])

namespace Walking

section
variable {R : World → World → Prop} [IsPreorder World R] (h : Walking R)
include h

theorem removeInterface (c : ClassId) (name : String) : Within R (c.removeInterface name) := by
  have hrest (doomed : List RefId) : Within R (if doomed.isEmpty then pure () else requireDeclared c >>= fun _ =>
      Change.of (Step.onNode c fun n =>
        { n with interfaces := n.interfaces.filter fun r => !doomed.contains r }) : Change Unit) := by
    by_cases hd : doomed.isEmpty = true
    · rw [if_pos hd]; exact .accept ()
    · rw [if_neg hd]; exact h.drop c doomed
  unfold ClassId.removeInterface
  dsimp only
  split
  · exact .bindChange (.refuse _) fun _ => .bindChange (h.named c name) hrest
  · exact .bindChange (h.named c name) hrest

theorem reachesWithin (target : String) : ∀ depth c, (ClassModel.reachesWithin target depth c).Within R
  | 0, _ => .exhausted
  | depth + 1, c => by
    have ih := reachesWithin target depth
    unfold ClassModel.reachesWithin
    refine .bind (.see _) fun own => ?_
    split
    · exact .pure true
    · refine .bind (.of (h.interfaces c)) fun is => .bind (.anyClass ih is) fun b => ?_
      split
      · exact .pure true
      · exact .bind (.of (h.superclass c)) fun
          | none => .pure false
          | some d => ih d

theorem isAssignableFrom (target other : ClassId) : Within R (target.isAssignableFrom other) :=
  .bind (.see _) fun
    | some _ => .pure _
    | none => .bind (.see _) fun _ => .bind (.see _) fun _ => (h.reachesWithin _ _ other).complete false

theorem flattenWithin (kind : MemberKind) : ∀ depth c, (ClassModel.flattenWithin kind depth c).Within R
  | 0, _ => .exhausted
  | depth + 1, c => by
    have ih := flattenWithin kind depth
    unfold ClassModel.flattenWithin
    refine .bind (.see _) fun own => .bind (.of (h.interfaces c)) fun is => .bind (.collectEach ih is) fun below =>
      .bind (.see _) fun isInterface => ?_
    cases isInterface with
    | true => exact .pure _
    | false =>
      exact .bind (.of (h.superclass c)) fun
        | none => .pure _
        | some d => .bind (ih d) fun _ => .pure _

theorem flatten (c : ClassId) (kind : MemberKind) : Within R (c.flatten kind) :=
  .bind (.see _) fun bound => (h.flattenWithin kind bound c).complete []

theorem flattenBelow (kind : MemberKind) :
    ∀ depth above c, (ClassModel.flattenBelow kind depth above c).Within R
  | 0, _, _ => .exhausted
  | depth + 1, above, c => by
    have ih := flattenBelow kind depth (c :: above)
    unfold ClassModel.flattenBelow
    by_cases hc : above.contains c
    · rw [if_pos hc]
      exact .bind (.see _) fun _ => .refuse _
    · rw [if_neg hc]
      exact .bind (.see _) fun own => .bind (.of (h.interfaces c)) fun is => .bind (.collectEach ih is) fun below =>
        .bind (.of (h.superclass c)) fun d => .bind (.see _) fun isInterface => match d, isInterface with
          | some d, false => .bind (ih d) fun _ => .pure _
          | none, false => .pure _
          | none, true => .pure _
          | some _, true => .pure _

theorem reachesBelow (target : String) :
    ∀ depth above c, (ClassModel.reachesBelow target depth above c).Within R
  | 0, _, _ => .exhausted
  | depth + 1, above, c => by
    have ih := reachesBelow target depth (c :: above)
    unfold ClassModel.reachesBelow
    refine .bind (.see _) fun own => ?_
    by_cases hown : own = target
    · rw [if_pos hown]
      exact .pure true
    · rw [if_neg hown]
      by_cases hc : above.contains c
      · rw [if_pos hc]
        exact .refuse _
      · rw [if_neg hc]
        exact .bind (.of (h.interfaces c)) fun is => .bind (.anyClass ih is) fun
          | true => .pure true
          | false => .bind (.of (h.superclass c)) fun
            | none => .pure false
            | some d => ih d

theorem tryFlatten (c : ClassId) (kind : MemberKind) : Within R (c.tryFlatten kind) :=
  .bindChange (.of (.see _)) fun bound => (h.flattenBelow kind bound [] c).complete []

theorem tryIsAssignableFrom (target other : ClassId) : Within R (target.tryIsAssignableFrom other) :=
  .bindChange (.of (.see _)) fun
    | some _ => .accept _
    | none => .bindChange (.of (.see _)) fun name => .bindChange (.of (.see _)) fun bound =>
      (h.reachesBelow name bound [] other).complete false

end

end Walking

namespace World

def Proceeds (w w' : World) : Prop := (∃ made, w.Sound made) → w.Acts w'

instance : IsPreorder World Proceeds where
  refl w _ := .refl w
  trans _ _ _ h h' hw := (h hw).trans (h' ((h hw).sound hw))

end World

namespace Proceeds

theorem ofBuilds {s : World → α × World} (h : Within Builds s) : Within Proceeds s :=
  h.mono fun _ _ hb _ => hb.acts

theorem walking : Walking Proceeds where
  superclass c := fun w ⟨_, hw⟩ => by
    rw [superclass_run]
    cases hr : (w.node c).superclassRef with
    | none => exact .refl w
    | some r =>
      refine resolve_acts (hw.placed (c := c) (List.mem_append_left _ (superclassRef_subset _ ?_)))
      rw [hr]
      exact List.mem_singleton_self r
  interfaces c := fun _ ⟨_, hw⟩ => resolveAll_acts fun _ hr =>
    hw.placed (List.mem_append_right _ (interfaceRefs_subset _ hr))
  named c name := fun _ ⟨_, hw⟩ => namedReferences_acts name fun r hr => hw.placed (List.mem_append_right _ hr)
  drop c doomed := ofBuilds <| .ofMakes fun w =>
    ⟨_, _, _, dropInterfaces_makes c doomed w, fun hc => (Move.dropInterfaces _ hc).builds (.ofSame rfl)⟩

end Proceeds

end ClassModel
