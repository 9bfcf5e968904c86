import ClassModel.Graph.Assignability
import ClassModel.Proofs.Graph.Loaders

/-!
# Where references lead

As long as nobody is asked, the loaders of a world settle where each of its references leads: to a
class, or to the stand-in for a name. Resolving only brings out what is settled. It makes stand-ins
and remembers classes, and whatever has been resolved before, a reference leads to the same place.
-/

namespace ClassModel

inductive Lead where
  | known (c : ClassId)
  /-- To a stand-in that is made once somebody asks for it. -/
  | missing (name : String)
  deriving DecidableEq, Repr

namespace World

def collaborator? (w : World) (c : ClassId) : Option Collaborator :=
  (w.node c).lookup.filter fun k => w.isAlive k.object

def found? (w : World) (name : String) : Collaborator → Option ClassId
  | .loader l => (w.loader l).cached? name
  | .directory _ => none

def foundDefault? (w : World) (name : String) : Collaborator → Option ClassId
  | .loader l =>
    ((w.loader l).builtins.get? name).or
      (((w.loader l).settings.defaultPackages.map (Name.qualify · name) ++ [name]).findSome? (w.loader l).cached?)
  | .directory _ => none

def foundUnqualified? (w : World) (c : ClassId) (name : String) (k : Collaborator) : Option ClassId :=
  ((Name.qualify (w.node c).package name :: importedNames (w.node c).imports name).findSome? (w.found? · k)).or
    (w.foundDefault? name k)

def standIn? (w : World) (name : String) : Collaborator → Option ClassId
  | .loader l => (w.loader l).placeholders.get? name
  | .directory _ => none

def missedLead (w : World) (context : ClassId) (name : String) : Lead :=
  match (w.collaborator? context).bind (w.standIn? name) with
  | some c => .known c
  | none => .missing name

def leadFrom (w : World) (context : ClassId) (name : String) (find : Collaborator → Option ClassId) : Lead :=
  if w.isAlive (.node context) then
    match (w.collaborator? context).bind find with
    | some c => .known c
    | none => w.missedLead context name
  else .missing name

def leadAnew (w : World) : Target → Lead
  | .direct c => .known c
  | .qualified name context => w.leadFrom context name (w.found? name)
  | .unqualified name context => w.leadFrom context name (w.foundUnqualified? context name)

def lead (w : World) (r : RefId) : Lead :=
  match (w.reference r).known? with
  | some c => .known c
  | none => w.leadAnew (w.reference r).target

theorem lead_of_known {w : World} {r : RefId} {c : ClassId} (h : (w.reference r).known? = some c) :
    w.lead r = .known c := by
  unfold lead; rw [h]

theorem lead_of_unknown {w : World} {r : RefId} (h : (w.reference r).known? = none) :
    w.lead r = w.leadAnew (w.reference r).target := by
  unfold lead; rw [h]

def leadName (w : World) : Lead → String
  | .known c => w.nameOf c
  | .missing name => Name.qualify (Name.packageOf name) (Name.simpleNameOf name)

def supertypeRefs (w : World) (c : ClassId) : List RefId :=
  (w.node c).interfaceRefs ++ (w.node c).superclassRef.toList

def interfaceLeads (w : World) : Lead → List Lead
  | .known c => (w.node c).interfaceRefs.map w.lead
  | .missing _ => []

def superclassLead (w : World) : Lead → Option Lead
  | .known c => (w.node c).superclassRef.map w.lead
  | .missing _ => none

def supers (w : World) (x : Lead) : List Lead := w.interfaceLeads x ++ (w.superclassLead x).toList

def Unsourced (w : World) (c : ClassId) : Prop :=
  ∀ k, w.collaborator? c = some k → ∃ l, k = .loader l ∧ (w.loader l).sources = []

theorem collaborator?_of_lookup {w : World} {l : LoaderId} {c : ClassId}
    (hlookup : (w.node c).lookup = some (.loader l)) (hl : w.isAlive (.loader l)) :
    w.collaborator? c = some (.loader l) := by
  unfold World.collaborator?
  rw [hlookup]
  simp [Collaborator.object, hl]

theorem eq_of_collaborator? {w : World} {c : ClassId} {k k' : Collaborator} (hlookup : (w.node c).lookup = some k)
    (hk : w.collaborator? c = some k') : k' = k := by
  unfold World.collaborator? at hk
  rw [hlookup] at hk
  exact (Option.some.inj (Option.filter_eq_some_iff.mp hk).1).symm

theorem unsourced_of_lookup {w : World} {l : LoaderId} {c : ClassId} (hlookup : (w.node c).lookup = some (.loader l))
    (hs : (w.loader l).sources = []) : w.Unsourced c := fun _ hk => ⟨l, eq_of_collaborator? hlookup hk, hs⟩

/-- Nobody is asked to resolve the reference. -/
def Settles (w : World) (r : RefId) : Prop :=
  ∀ name c, (w.reference r).target = .qualified name c ∨ (w.reference r).target = .unqualified name c →
    c.index < w.nodes.size ∧ w.Unsourced c

def LeadsTo (w₀ w : World) : Lead → ClassId → Prop
  | .known d, c => c = d
  | .missing name, c => w₀.nodes.size ≤ c.index ∧ c.index < w.nodes.size ∧
    ∃ lookup settings, w.node c = Loader.standIn name lookup settings

/-- Since `w₀` nothing has been done but to bring out where its references lead. A reference that somebody
is asked to resolve may have been resolved to any class. -/
structure Settled (w₀ w : World) : Prop where
  nodes : w₀.nodes.Extends w.nodes
  added : ∀ c : ClassId, w₀.nodes.size ≤ c.index → c.index < w.nodes.size →
    ∃ name lookup settings, w.node c = Loader.standIn name lookup settings
  fields : w.fields = w₀.fields
  methods : w.methods = w₀.methods
  constructors : w.constructors = w₀.constructors
  targets : ∀ r, (w.reference r).target = (w₀.reference r).target
  memos : ∀ r, (w.reference r).memo = (w₀.reference r).memo ∨ (w₀.reference r).known? = none ∧
    ∃ c, (w.reference r).memo = some c ∧ (w₀.Settles r → w₀.LeadsTo w (w₀.lead r) c)
  loaders : ∀ l, w.loader l = { w₀.loader l with placeholders := (w.loader l).placeholders }
  standIns : ∀ l name, (w.loader l).placeholders.get? name = (w₀.loader l).placeholders.get? name ∨
    (w₀.loader l).placeholders.get? name = none ∧
      ∃ c, (w.loader l).placeholders.get? name = some c ∧ w₀.LeadsTo w (.missing name) c
  gone : w.gone = w₀.gone

end World

/-! ## Lookups that ask nobody -/

def Says (s : Step α) (w : World) (a : α) : Prop :=
  ∀ log, ∃ log', s { w with log := log } = (a, { w with log := log' })

namespace Says

section
variable {w : World}

theorem pure (a : α) : Says (Pure.pure a) w a := fun log => ⟨log, rfl⟩

theorem see {f : World → α} {a : α} (h : ∀ log, f { w with log := log } = a) : Says (Step.see f) w a := fun log =>
  ⟨log, by rw [← h log]; rfl⟩

theorem log (e : Log.Event) : Says (Step.log e) w () := fun log => ⟨e :: log, rfl⟩

theorem bind {s : Step α} {f : α → Step β} {a : α} {b : β} (hs : Says s w a) (hf : Says (f a) w b) :
    Says (s >>= f) w b := by
  intro log
  obtain ⟨log₁, h₁⟩ := hs log
  obtain ⟨log₂, h₂⟩ := hf log₁
  refine ⟨log₂, ?_⟩
  show f (s { w with log := log }).1 (s { w with log := log }).2 = _
  rw [h₁, h₂]

end

/-! ### Loaders without sources -/

variable {w : World} {l : LoaderId}

theorem lookupWithin_run (h : (w.loader l).sources = []) (depth : Nat) (name : String) :
    Loader.lookupWithin (depth + 1) l name w = some ((w.loader l).cached? name, w) := by
  rw [Loader.lookupWithin_eq, h]
  unfold Loader.lookupBy
  cases (w.loader l).cached? name with
  | some c => rfl
  | none => rfl

theorem firstHit_run {ask : String → Bounded (Option ClassId)} {find : String → Option ClassId}
    (h : ∀ name, ask name w = some (find name, w)) :
    ∀ names, ClassModel.firstHit ask names w = some (names.findSome? find, w)
  | [] => rfl
  | name :: rest => by
    unfold ClassModel.firstHit
    rw [Bounded.bind_run, h name, List.findSome?_cons]
    dsimp only [Option.bind_some]
    cases find name with
    | some c => rfl
    | none => exact firstHit_run h rest

theorem loaderLookup (h : (w.loader l).sources = []) (name : String) :
    Says (Loader.lookup l name) w ((w.loader l).cached? name) := by
  intro log
  refine ⟨log, ?_⟩
  have hrun := @lookupWithin_run { w with log := log } l h ((w.loader l).depth - 1) name
  show ((Loader.lookupWithin (w.loader l).depth l name) { w with log := log }).getD _ = _
  rw [show (w.loader l).depth = (w.loader l).depth - 1 + 1 from rfl, hrun]; rfl

theorem loaderLookupDefault (h : (w.loader l).sources = []) (name : String) :
    Says (Loader.lookupDefault l name) w (w.foundDefault? name (.loader l)) := by
  intro log
  refine ⟨log, ?_⟩
  let v : World := { w with log := log }
  have hlookup (name : String) : Loader.lookupWithin (w.loader l).depth l name v =
      some ((w.loader l).cached? name, v) := @lookupWithin_run v l h _ name
  have hrun : Loader.lookupDefaultWith l (Loader.lookupWithin (w.loader l).depth l) name v =
      some (w.foundDefault? name (.loader l), v) := by
    unfold Loader.lookupDefaultWith World.foundDefault?
    rw [Bounded.bind_run, show Bounded.see (·.loader l) v = some (w.loader l, v) from rfl]
    dsimp only [Option.bind_some]
    cases (w.loader l).builtins.get? name with
    | some c => rfl
    | none => exact firstHit_run hlookup _
  show ((Loader.lookupDefaultWith l (Loader.lookupWithin (w.loader l).depth l) name) v).getD _ = _
  rw [hrun]; rfl

theorem firstHit {ask : String → Step (Option ClassId)} {find : String → Option ClassId}
    (h : ∀ name, Says (ask name) w (find name)) :
    ∀ names, Says (ClassModel.firstHit ask names) w (names.findSome? find)
  | [] => pure none
  | name :: rest => by
    rw [List.findSome?_cons]
    refine bind (h name) ?_
    cases find name with
    | some c => exact pure (some c)
    | none => exact firstHit h rest

theorem contextResolve {c : ClassId} {k : Collaborator} (hk : w.collaborator? c = some k)
    (h : ∃ l, k = .loader l ∧ (w.loader l).sources = []) (name : String) :
    Says (do (← c.context).resolve name) w (w.foundUnqualified? c name k) := by
  obtain ⟨l, rfl, hl⟩ := h
  have hprobe (name : String) : Says (Context.probe (.loader l) name) w (w.found? name (.loader l)) :=
    bind (log _) (loaderLookup hl name)
  have hfall : Says (Context.fallBack (.loader l) name) w (w.foundDefault? name (.loader l)) :=
    bind (log _) (loaderLookupDefault hl name)
  have hcontext : Says c.context w ⟨(w.node c).package, fun w => (w.node c).imports, some (.loader l)⟩ :=
    bind (see fun _ => rfl) (bind (see fun _ => hk) (pure _))
  refine bind hcontext ?_
  show Says (resolveWith _ _ _ _ _) w _
  unfold resolveWith World.foundUnqualified?
  rw [List.findSome?_cons]
  refine bind (hprobe _) ?_
  cases w.found? (Name.qualify (w.node c).package name) (.loader l) with
  | some d => exact pure _
  | none =>
    refine bind (see (a := (w.node c).imports) fun _ => rfl) (bind (firstHit hprobe _) ?_)
    cases (importedNames (w.node c).imports name).findSome? (w.found? · (.loader l)) with
    | some d => exact pure _
    | none => exact hfall

end Says

namespace World

/-! ## Nothing else is brought out -/

section
variable {w₀ w w' : World} {r : RefId} {c : ClassId}

theorem LeadsTo.mono {x : Lead} (h : w₀.LeadsTo w x c) (hn : w.nodes.Extends w'.nodes) : w₀.LeadsTo w' x c := by
  cases x with
  | known d => exact h
  | missing name =>
    obtain ⟨hnew, hlt, lookup, settings, hc⟩ := h
    exact ⟨hnew, Nat.lt_of_lt_of_le hlt hn.size_le, lookup, settings, (hn.get_eq _ hlt).trans hc⟩

theorem Settled.refl (w : World) : w.Settled w :=
  ⟨.refl _, fun _ h h' => (Nat.not_lt.mpr h h').elim, rfl, rfl, rfl, fun _ => rfl, fun _ => .inl rfl, fun _ => rfl,
    fun _ _ => .inl rfl, rfl⟩

theorem Settled.log (h : w₀.Settled w) (log : List Log.Event) : w₀.Settled { w with log := log } :=
  ⟨h.nodes, h.added, h.fields, h.methods, h.constructors, h.targets, h.memos, h.loaders, h.standIns, h.gone⟩

theorem Settled.withStandIn (h : w₀.Settled w) (name : String) (lookup : Option Collaborator) (settings : Settings) :
    w₀.Settled (w.withNode (Loader.standIn name lookup settings)) where
  nodes := h.nodes.trans (.push _ _)
  added c hc hlt := by
    rw [node_withNode]
    split
    · exact ⟨name, lookup, settings, rfl⟩
    · rename_i hne
      have hlt : c.index < (w.nodes.push _).size := hlt
      rw [Store.size_push] at hlt
      exact h.added c hc (Nat.lt_of_le_of_ne (Nat.le_of_lt_succ hlt) fun he => hne (by cases c; cases he; rfl))
  fields := h.fields
  methods := h.methods
  constructors := h.constructors
  targets := h.targets
  memos r := (h.memos r).imp_right fun ⟨hr, c, hc, hl⟩ => ⟨hr, c, hc, fun hs => (hl hs).mono (.push _ _)⟩
  loaders := h.loaders
  standIns l name := (h.standIns l name).imp_right fun ⟨hn, c, hc, hl⟩ => ⟨hn, c, hc, hl.mono (.push _ _)⟩
  gone := h.gone

theorem Settled.remember (h : w₀.Settled w) (hr : (w₀.reference r).known? = none) (hc : w₀.LeadsTo w (w₀.lead r) c) :
    w₀.Settled (w.editReference r fun x => { x with memo := some c }) := by
  have hget (q : RefId) : (w.editReference r fun x => { x with memo := some c }).reference q =
      if r.index = q.index ∧ q.index < w.references.size then { w.reference q with memo := some c }
      else w.reference q := Store.get_modify _ _ _ _
  refine { h with targets := fun q => ?_, memos := fun q => ?_ }
  · rw [hget, ← h.targets q]; split <;> rfl
  · rw [hget]
    split
    · rename_i hq
      obtain rfl : r = q := by cases r; cases q; simp_all
      exact .inr ⟨hr, c, rfl, fun _ => hc⟩
    · exact h.memos q

theorem Settled.insertStandIn (h : w₀.Settled w) {l : LoaderId} {name : String}
    (hn : (w.loader l).placeholders.get? name = none) (hc : w₀.LeadsTo w (.missing name) c) :
    w₀.Settled (w.editLoader l fun x => { x with placeholders := x.placeholders.insert name c }) := by
  have hget (k : LoaderId) :
      (w.editLoader l fun x => { x with placeholders := x.placeholders.insert name c }).loader k =
        if l.index = k.index ∧ k.index < w.loaders.size then
          { w.loader k with placeholders := (w.loader k).placeholders.insert name c }
        else w.loader k := Store.get_modify _ _ _ _
  refine { h with loaders := fun k => ?_, standIns := fun k other => ?_ }
  · rw [hget]
    have := h.loaders k
    split
    · rw [this]
    · exact this
  · rw [hget]
    split
    · rename_i hk
      obtain rfl : l = k := by cases l; cases k; simp_all
      by_cases ho : other = name
      · subst ho
        refine .inr ⟨?_, c, Registry.get?_insert_self _ _ _, hc⟩
        rcases h.standIns l other with he | ⟨hn', -⟩
        · rw [← he]; exact hn
        · exact hn'
      · rw [Registry.get?_insert_of_ne _ ho]
        exact h.standIns l other
    · exact h.standIns k other

/-! ## What is found stays the same -/

theorem Settled.node (h : w₀.Settled w) (hc : c.index < w₀.nodes.size) : w.node c = w₀.node c := h.nodes.get_eq _ hc

theorem Settled.isAlive (h : w₀.Settled w) (o : Object) : w.isAlive o = w₀.isAlive o := by
  unfold World.isAlive; rw [h.gone]

theorem Settled.collaborator? (h : w₀.Settled w) (hc : c.index < w₀.nodes.size) :
    w.collaborator? c = w₀.collaborator? c := by
  unfold World.collaborator? World.isAlive
  rw [h.node hc, h.gone]

theorem Settled.found? (h : w₀.Settled w) (name : String) (k : Collaborator) : w.found? name k = w₀.found? name k := by
  cases k with
  | loader l => simp only [World.found?]; rw [h.loaders l]; rfl
  | directory d => rfl

theorem Settled.foundDefault? (h : w₀.Settled w) (name : String) (k : Collaborator) :
    w.foundDefault? name k = w₀.foundDefault? name k := by
  cases k with
  | loader l => simp only [World.foundDefault?]; rw [h.loaders l]; rfl
  | directory d => rfl

theorem Settled.foundUnqualified? (h : w₀.Settled w) (hc : c.index < w₀.nodes.size) (name : String) (k : Collaborator) :
    w.foundUnqualified? c name k = w₀.foundUnqualified? c name k := by
  unfold World.foundUnqualified?
  rw [h.node hc, h.foundDefault?]
  simp only [h.found?]

theorem Settled.known? (h : w₀.Settled w) (r : RefId) :
    (w.reference r).known? = (w₀.reference r).known? ∨ (w₀.reference r).known? = none ∧
      ∃ c, (w.reference r).known? = some c ∧ (w₀.Settles r → w₀.LeadsTo w (w₀.lead r) c) := by
  have hmemo := h.memos r
  cases ht : (w₀.reference r).target with
  | direct d => exact .inl (by unfold Reference.known?; rw [h.targets r, ht])
  | _ =>
    have hw : (w.reference r).known? = (w.reference r).memo := by unfold Reference.known?; rw [h.targets r, ht]
    have hw₀ : (w₀.reference r).known? = (w₀.reference r).memo := by unfold Reference.known?; rw [ht]
    rw [hw₀] at hmemo
    rw [hw, hw₀]; exact hmemo

theorem Settled.sources (h : w₀.Settled w) (l : LoaderId) : (w.loader l).sources = (w₀.loader l).sources := by
  rw [h.loaders l]

end

/-! ## Steps that bring out where references lead -/

def resolveAnew (r : RefId) : Target → Step ClassId
  | .direct c => pure c
  | .qualified name context => do r.remember (← RefId.findQualified name context)
  | .unqualified name context => do r.remember (← RefId.findUnqualified name context)

theorem resolve_unfold (w : World) (r : RefId) : r.resolve w =
    (match (w.reference r).target, (w.reference r).memo with
      | .direct c, _ => pure c
      | _, some c => pure c
      | .qualified name context, none => do r.remember (← RefId.findQualified name context)
      | .unqualified name context, none => do r.remember (← RefId.findUnqualified name context) : Step ClassId) w := rfl

theorem resolve_run (w : World) (r : RefId) : r.resolve w = match (w.reference r).known? with
    | some c => (c, w)
    | none => resolveAnew r (w.reference r).target w := by
  rw [resolve_unfold]
  rcases w.reference r with ⟨_ | _ | _, _ | _⟩ <;> rfl

theorem superclass_run (w : World) (c : ClassId) : c.superclass w = (match (w.node c).superclassRef with
    | none => pure none
    | some r => some <$> r.resolve : Step (Option ClassId)) w := rfl

theorem classPlaceholder_run (w : World) (c : ClassId) (name : String) : c.placeholder name w =
    match w.collaborator? c with
    | some k => (k.placeholder name >>= fun
        | some d => pure d
        | none => Step.addNode (Loader.standIn name (w.node c).lookup (w.node c).settings) : Step ClassId) w
    | none => Step.addNode (Loader.standIn name (w.node c).lookup (w.node c).settings) w := by
  show (do
    let shared ← match w.collaborator? c with
      | some k => k.placeholder name
      | none => pure none
    match shared with
    | some d => return d
    | none => Step.addNode (Loader.standIn name (w.node c).lookup (w.node c).settings) : Step ClassId) w = _
  cases w.collaborator? c <;> rfl

structure Brings (w₀ : World) (s : Step α) (w : World) (R : World → α → Prop) : Prop where
  settled : w₀.Settled (s w).2
  nodes : w.nodes.Extends (s w).2.nodes
  result : R (s w).2 (s w).1

namespace Brings

section
variable {w₀ w : World} {c : ClassId}

theorem pure (h : w₀.Settled w) {R : World → α → Prop} {a : α} (hR : R w a) : Brings w₀ (Pure.pure a) w R :=
  ⟨h, .refl _, hR⟩

theorem of_eq {s t : Step α} {R : World → α → Prop} (hst : s w = t w) (ht : Brings w₀ t w R) : Brings w₀ s w R :=
  ⟨by rw [hst]; exact ht.settled, by rw [hst]; exact ht.nodes, by rw [hst]; exact ht.result⟩

theorem ofSays {s : Step α} {a : α} (hs : Says s w a) (h : w₀.Settled w) : Brings w₀ s w fun _ b => b = a := by
  obtain ⟨log, hs⟩ := hs w.log
  have hs : s w = (a, { w with log := log }) := hs
  exact ⟨by rw [hs]; exact h.log log, by rw [hs]; exact .refl _, by rw [hs]⟩

theorem bind {s : Step α} {f : α → Step β} {R : World → α → Prop} {Q : World → β → Prop} (hs : Brings w₀ s w R)
    (hf : ∀ a w', w₀.Settled w' → w.nodes.Extends w'.nodes → R w' a → Brings w₀ (f a) w' Q) :
    Brings w₀ (s >>= f) w Q := by
  have h := hf _ _ hs.settled hs.nodes hs.result
  exact ⟨h.settled, hs.nodes.trans h.nodes, h.result⟩

theorem after {s : Step α} {f : α → Step β} {a : α} {Q : World → β → Prop} (h : w₀.Settled w) (hs : Says s w a)
    (hf : ∀ w', w₀.Settled w' → Brings w₀ (f a) w' Q) : Brings w₀ (s >>= f) w Q :=
  (ofSays hs h).bind fun b w' h' _ hb => by rw [hb]; exact hf w' h'

theorem addStandIn (h : w₀.Settled w) (name : String) (lookup : Option Collaborator) (settings : Settings) :
    Brings w₀ (Step.addNode (Loader.standIn name lookup settings)) w fun w' => w₀.LeadsTo w' (.missing name) :=
  ⟨h.withStandIn name lookup settings, .push _ _, h.nodes.size_le, by
    show w.nodes.size < (w.nodes.push _).size
    rw [Store.size_push]; exact Nat.lt_succ_self _, lookup, settings, Store.get_push_self _ _⟩

theorem loaderPlaceholder (h : w₀.Settled w) (l : LoaderId) (name : String) :
    Brings w₀ (Loader.placeholder l name) w fun w' =>
      w₀.LeadsTo w' (match (w₀.loader l).placeholders.get? name with
        | some d => .known d
        | none => .missing name) := by
  have hrun := placeholder_run w l name
  rcases h.standIns l name with he | ⟨hn, c, hc, hl⟩
  · rw [he] at hrun
    cases hp : (w₀.loader l).placeholders.get? name with
    | some c =>
      rw [hp] at hrun
      exact of_eq (t := Pure.pure c) hrun (pure h rfl)
    | none =>
      rw [hp] at hrun
      have hnew := addStandIn h name (some (.loader l)) (w.loader l).settings
      have hkept := hnew.settled.insertStandIn (he.trans hp) hnew.result
      exact of_eq (t := fun _ => _) hrun ⟨hkept, hnew.nodes, hnew.result⟩
  · rw [hc] at hrun
    rw [hn]
    exact of_eq (t := Pure.pure c) hrun (pure h hl)

theorem placeholder (h : w₀.Settled w) (hc : c.index < w₀.nodes.size) (hs : w₀.Unsourced c) (name : String) :
    Brings w₀ (c.placeholder name) w fun w' => w₀.LeadsTo w' (w₀.missedLead c name) := by
  have hrun := classPlaceholder_run w c name
  rw [h.collaborator? hc] at hrun
  unfold missedLead
  cases hk : w₀.collaborator? c with
  | none =>
    rw [hk] at hrun
    exact of_eq hrun (addStandIn h name (w.node c).lookup (w.node c).settings)
  | some k =>
    rw [hk] at hrun
    obtain ⟨l, rfl, -⟩ := hs k hk
    refine of_eq hrun (Brings.bind (R := fun w' a => ∃ d, a = some d ∧ w₀.LeadsTo w'
      (match (w₀.loader l).placeholders.get? name with
        | some d => .known d
        | none => .missing name) d) ?_ ?_)
    · exact (loaderPlaceholder h l name).bind fun d w' h' _ hd => pure h' ⟨d, rfl, hd⟩
    · rintro _ w' h' - ⟨d, rfl, hd⟩
      exact pure h' hd

theorem missed (h : w₀.Settled w) (hc : c.index < w₀.nodes.size) (hs : w₀.Unsourced c) (name : String) :
    Brings w₀ (RefId.missed name c) w fun w' => w₀.LeadsTo w' (w₀.missedLead c name) :=
  after h (.see (a := w.nameOf c) fun _ => rfl) fun _ h' => after h' (.log _) fun _ h' => placeholder h' hc hs name

theorem orMissed (h : w₀.Settled w) (hc : c.index < w₀.nodes.size) (hs : w₀.Unsourced c) (halive : w₀.isAlive (.node c))
    (name : String) {find : Collaborator → Option ClassId} {s : Step (Option ClassId)}
    (hfind : Says s w ((w₀.collaborator? c).bind find)) :
    Brings w₀ (do match ← s with
      | some d => return d
      | none => RefId.missed name c) w fun w' => w₀.LeadsTo w' (w₀.leadFrom c name find) := by
  refine after h hfind fun w' h' => ?_
  unfold leadFrom
  rw [if_pos halive]
  cases (w₀.collaborator? c).bind find with
  | some d => exact pure h' rfl
  | none => exact missed h' hc hs name

theorem detached (h : w₀.Settled w) (name : String) (find : Collaborator → Option ClassId)
    (hgone : ¬ w₀.isAlive (.node c)) :
    Brings w₀ (detachedStandIn name) w fun w' => w₀.LeadsTo w' (w₀.leadFrom c name find) := by
  unfold leadFrom
  rw [if_neg hgone]
  exact addStandIn h name none .standard

theorem findQualified (h : w₀.Settled w) (hc : c.index < w₀.nodes.size) (hs : w₀.Unsourced c) (name : String) :
    Brings w₀ (RefId.findQualified name c) w fun w' => w₀.LeadsTo w' (w₀.leadFrom c name (w₀.found? name)) := by
  refine after h (.see fun _ => h.isAlive _) fun w₁ h₁ => ?_
  by_cases halive : w₀.isAlive (.node c)
  · rw [if_pos halive]
    refine after h₁ (.see fun _ => h₁.collaborator? hc) fun w₂ h₂ => ?_
    have hor (s : Step (Option ClassId)) (hresult : Says s w₂ ((w₀.collaborator? c).bind (w₀.found? name))) :=
      orMissed h₂ hc hs halive name hresult
    cases hk : w₀.collaborator? c with
    | none => exact hor _ (by rw [hk]; exact .pure none)
    | some k =>
      obtain ⟨l, rfl, hl⟩ := hs k hk
      refine hor (do Step.log _; Collaborator.lookup (.loader l) name) ?_
      rw [hk, Option.bind_some, ← h₂.found?]
      exact .bind (.log _) (.loaderLookup (by rw [h₂.sources, hl]) name)
  · rw [if_neg halive]
    exact detached h₁ name _ halive

theorem findUnqualified (h : w₀.Settled w) (hc : c.index < w₀.nodes.size) (hs : w₀.Unsourced c) (name : String) :
    Brings w₀ (RefId.findUnqualified name c) w fun w' =>
      w₀.LeadsTo w' (w₀.leadFrom c name (w₀.foundUnqualified? c name)) := by
  refine after h (.see fun _ => h.isAlive _) fun w₁ h₁ => ?_
  by_cases halive : w₀.isAlive (.node c)
  · rw [if_pos halive]
    refine orMissed (s := do (← c.context).resolve name) h₁ hc hs halive name ?_
    cases hk : w₀.collaborator? c with
    | none =>
      have hcontext : Says c.context w₁ ⟨(w₁.node c).package, fun w => (w.node c).imports, none⟩ :=
        .bind (.see fun _ => rfl) (.bind (.see fun _ => (h₁.collaborator? hc).trans hk) (.pure _))
      exact .bind hcontext (.pure none)
    | some k =>
      obtain ⟨l, rfl, hl⟩ := hs k hk
      rw [Option.bind_some, ← h₁.foundUnqualified? hc]
      exact .contextResolve ((h₁.collaborator? hc).trans hk) ⟨l, rfl, by rw [h₁.sources, hl]⟩ name
  · rw [if_neg halive]
    exact detached h₁ name _ halive

theorem remember {r : RefId} {d : ClassId} (h : w₀.Settled w) (hr : (w₀.reference r).known? = none)
    (hd : w₀.LeadsTo w (w₀.lead r) d) : Brings w₀ (r.remember d) w fun w' => w₀.LeadsTo w' (w₀.lead r) :=
  ⟨h.remember hr hd, .refl _, hd.mono (.refl _)⟩

theorem resolveAnew {r : RefId} (h : w₀.Settled w) (hr : w₀.Settles r) (hk : (w₀.reference r).known? = none) :
    Brings w₀ (ClassModel.World.resolveAnew r (w₀.reference r).target) w fun w' => w₀.LeadsTo w' (w₀.lead r) := by
  have hlead := lead_of_unknown hk
  cases ht : (w₀.reference r).target with
  | direct c => rw [hlead, ht]; exact pure h rfl
  | qualified name c =>
    obtain ⟨hc, hs⟩ := hr name c (.inl ht)
    refine (findQualified h hc hs name).bind fun d w' h' _ hd => remember h' hk ?_
    rw [hlead, ht]; exact hd
  | unqualified name c =>
    obtain ⟨hc, hs⟩ := hr name c (.inr ht)
    refine (findUnqualified h hc hs name).bind fun d w' h' _ hd => remember h' hk ?_
    rw [hlead, ht]; exact hd

theorem resolve {r : RefId} (h : w₀.Settled w) (hr : w₀.Settles r) :
    Brings w₀ r.resolve w fun w' => w₀.LeadsTo w' (w₀.lead r) := by
  cases hk : (w.reference r).known? with
  | some c =>
    refine of_eq (t := Pure.pure c) (by rw [resolve_run, hk]; rfl) (pure h ?_)
    rcases h.known? r with he | ⟨-, d, hd, hl⟩
    · rw [lead_of_known (he.symm.trans hk)]; rfl
    · cases hk.symm.trans hd; exact hl hr
  | none =>
    refine of_eq (by rw [resolve_run, hk]) (?_ : Brings w₀ (ClassModel.World.resolveAnew r (w.reference r).target) w _)
    rcases h.known? r with he | ⟨-, d, hd, -⟩
    · rw [h.targets r]; exact resolveAnew h hr (he ▸ hk)
    · rw [hk] at hd; cases hd

theorem resolveAll : ∀ {rs : List RefId} {w : World}, w₀.Settled w → (∀ r ∈ rs, w₀.Settles r) →
    Brings w₀ (RefId.resolveAll rs) w fun w' cs => List.Forall₂ (w₀.LeadsTo w') (rs.map w₀.lead) cs
  | [], _, h, _ => pure h .nil
  | r :: rs, _, h, hrs => by
    obtain ⟨hr, hrs⟩ := List.forall_mem_cons.mp hrs
    refine (resolve h hr).bind fun c w₁ h₁ _ hc => (resolveAll h₁ hrs).bind fun cs w₂ h₂ hn hcs => ?_
    exact pure h₂ (.cons (hc.mono hn) hcs)

end

end Brings

/-! ## What is met below a lead -/

/-- What is met below these leads is there, and nobody is asked for its supertypes. -/
structure Region (w : World) (S : Lead → Prop) : Prop where
  lt : ∀ c, S (.known c) → c.index < w.nodes.size
  settles : ∀ c, S (.known c) → ∀ r ∈ w.supertypeRefs c, w.Settles r
  closed : ∀ x, S x → ∀ y ∈ w.supers x, S y

section
variable {w₀ w : World} {S : Lead → Prop} {x : Lead} {c : ClassId}

theorem supers_eq (w : World) (x : Lead) : w.supers x = w.interfaceLeads x ++ (w.superclassLead x).toList := rfl

theorem mem_supers_of_superclass {x y : Lead} (h : w.superclassLead x = some y) : y ∈ w.supers x :=
  List.mem_append_right _ (Option.mem_toList.mpr h)

theorem mem_supers {x y : Lead} : y ∈ w.supers x ↔ ∃ c, x = .known c ∧ ∃ r ∈ w.supertypeRefs c, w.lead r = y := by
  unfold supers
  cases x with
  | known c =>
    have hoption (o : Option RefId) : (o.map w.lead).toList = o.toList.map w.lead := by cases o <;> rfl
    show y ∈ _ ++ ((w.node c).superclassRef.map w.lead).toList ↔ _
    rw [hoption, interfaceLeads, ← List.map_append, List.mem_map]
    exact ⟨fun h => ⟨c, rfl, h⟩, fun ⟨_, hx, h⟩ => by cases hx; exact h⟩
  | missing name => simp [interfaceLeads, superclassLead]

/-- The class to which a lead leads has its name. -/
theorem LeadsTo.nameOf (hc : w₀.LeadsTo w x c) (h : w₀.Settled w)
    (hlt : ∀ d, x = .known d → d.index < w₀.nodes.size) : w.nameOf c = w₀.leadName x := by
  cases x with
  | known d => cases hc; exact congrArg ClassNode.qualifiedName (h.node (hlt c rfl))
  | missing name =>
    obtain ⟨-, -, lookup, settings, hn⟩ := hc
    exact congrArg ClassNode.qualifiedName hn

theorem Region.name (hS : w₀.Region S) (h : w₀.Settled w) (hx : S x) (hc : w₀.LeadsTo w x c) :
    w.nameOf c = w₀.leadName x := hc.nameOf h fun d hd => hS.lt d (hd ▸ hx)

theorem Region.interfaces (hS : w₀.Region S) (h : w₀.Settled w) (hx : S x) (hc : w₀.LeadsTo w x c) :
    Brings w₀ c.interfaces w fun w' cs => List.Forall₂ (w₀.LeadsTo w') (w₀.interfaceLeads x) cs := by
  have hrun : c.interfaces w = RefId.resolveAll (w.node c).interfaceRefs w := rfl
  refine .of_eq hrun ?_
  cases x with
  | known d =>
    cases hc
    rw [h.node (hS.lt c hx)]
    exact .resolveAll h fun r hr => hS.settles c hx r (List.mem_append_left _ hr)
  | missing name =>
    obtain ⟨-, -, lookup, settings, hn⟩ := hc
    rw [hn]; exact .pure h .nil

theorem Region.superclass (hS : w₀.Region S) (h : w₀.Settled w) (hx : S x) (hc : w₀.LeadsTo w x c) :
    Brings w₀ c.superclass w fun w' d => Option.Rel (w₀.LeadsTo w') (w₀.superclassLead x) d := by
  refine .of_eq (superclass_run w c) ?_
  cases x with
  | known d =>
    cases hc
    rw [h.node (hS.lt c hx)]
    show Brings w₀ _ w fun w' d => Option.Rel (w₀.LeadsTo w') ((w₀.node c).superclassRef.map w₀.lead) d
    cases hr : (w₀.node c).superclassRef with
    | none => exact .pure h .none
    | some r =>
      have hs := hS.settles c hx r (List.mem_append_right _ (by rw [hr]; exact List.mem_singleton_self r))
      exact (Brings.resolve h hs).bind fun d w' h' _ hd => .pure h' (.some hd)
  | missing name =>
    obtain ⟨-, -, lookup, settings, hn⟩ := hc
    rw [hn]; exact .pure h .none

end

end World

end ClassModel
