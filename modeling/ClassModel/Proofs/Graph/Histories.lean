import ClassModel.Proofs.Graph.Calls
import ClassModel.Proofs.Graph.Numbering

/-!
# Histories

What a class lists is what has been made on it and not been taken off it since. How something new is called goes
by how much of its kind there has ever been, whatever has become of it. This is said here of all edits since the
class was made, which are written down with what they made and how it was called then.
-/

namespace ClassModel

open Change Relation World

inductive Listing where
  | fields
  | methods
  | constructors
  deriving DecidableEq

def Member.listing : Member → Listing
  | .field _ => .fields
  | .method _ => .methods
  | .constructor _ => .constructors

def MemberKind.listing : MemberKind → Listing
  | .field => .fields
  | .method => .methods

def ClassNode.listed (n : ClassNode) : Listing → List Member
  | .fields => n.fields.map .field
  | .methods => n.methods.map .method
  | .constructors => n.constructors.map .constructor

def ParameterEdit.adds : ParameterEdit → Bool
  | .add _ _ | .addUnqualified _ _ | .addNew => true
  | .remove _ => false

namespace Edit

def removes (c : ClassId) (m : Member) : Edit → Bool
  | .onClass b (.removeField f) => b = c && m = .field f
  | .onClass b (.removeMethod i) => b = c && m = .method i
  | .onClass b (.removeConstructor k) => b = c && m = .constructor k
  | _ => false

def lengthens (m : Member) : Edit → Bool
  | .onMethod i (.parameters e) => m = .method i && e.adds
  | .onConstructor k (.parameters e) => m = .constructor k && e.adds
  | _ => false

end Edit

/-- An edit that has gone through, with what it has made, and the name that this had at the time. -/
structure Deed where
  edit : Edit
  made : Made
  name? : Option String

namespace Deed

def creates (c : ClassId) (d : Deed) : List Member :=
  match d.edit, d.made with
  | .onClass b .addField, .field f => if b = c then [.field f] else []
  | .onClass b .addMethod, .method m => if b = c then [.method m] else []
  | .onClass b .addConstructor, .constructor k => if b = c then [.constructor k] else []
  | _, _ => []

def created (c : ClassId) (deeds : List Deed) : List Member := deeds.flatMap (·.creates c)

def remaining (c : ClassId) : List Deed → List Member
  | [] => []
  | d :: later => (d.creates c).filter (fun m => !later.any (·.edit.removes c m)) ++ remaining c later

def additions (c : ClassId) (m : Member) : List Deed → Nat
  | [] => 0
  | d :: later => if m ∈ d.creates c then later.countP (·.edit.lengthens m) else additions c m later

def names (c : ClassId) (x : Listing) (deeds : List Deed) : List (Option String) :=
  deeds.flatMap fun d => ((d.creates c).filter (·.listing = x)).map fun _ => d.name?

section
variable {c : ClassId} {m : Member} (d : Deed) (deeds : List Deed)

theorem created_snoc : created c (deeds ++ [d]) = created c deeds ++ d.creates c := by simp [created]

theorem remaining_snoc : remaining c (deeds ++ [d]) =
    (remaining c deeds).filter (fun m => !d.edit.removes c m) ++ d.creates c := by
  induction deeds with
  | nil => simp [remaining]
  | cons e deeds ih =>
    simp only [List.cons_append, remaining, ih, List.any_append, List.any_cons, List.any_nil, Bool.or_false,
      Bool.not_or, List.filter_append, List.filter_filter, List.append_assoc, Bool.and_comm]

theorem remaining_sublist : (remaining c deeds).Sublist (created c deeds) := by
  induction deeds with
  | nil => exact .slnil
  | cons d deeds ih => exact List.filter_sublist.append ih

theorem additions_snoc {deeds : List Deed} (hm : m ∈ created c deeds) :
    additions c m (deeds ++ [d]) = additions c m deeds + (d.edit.lengthens m).toNat := by
  induction deeds with
  | nil => cases hm
  | cons e deeds ih =>
    simp only [List.cons_append, additions]
    by_cases he : m ∈ e.creates c
    · rw [if_pos he, if_pos he, List.countP_append, List.countP_singleton]
      cases d.edit.lengthens m <;> rfl
    · rw [if_neg he, if_neg he]
      exact ih ((List.mem_append.mp hm).resolve_left he)

/-- Nothing has been added to what has just been made. -/
theorem additions_of_new {deeds : List Deed} (hm : m ∉ created c deeds) (hd : m ∈ d.creates c) :
    additions c m (deeds ++ [d]) = 0 := by
  induction deeds with
  | nil => exact if_pos hd
  | cons e deeds ih =>
    have he : m ∉ e.creates c := fun h => hm (List.mem_append_left _ h)
    simp only [List.cons_append, additions, if_neg he]
    exact ih fun h => hm (List.mem_append_right _ h)

theorem names_snoc (x : Listing) : names c x (deeds ++ [d]) =
    names c x deeds ++ ((d.creates c).filter (·.listing = x)).map fun _ => d.name? := by simp [names]

end

end Deed

/-! ## What an edit does -/

def Member.object : Member → Object
  | .field f => .field f
  | .method m => .method m
  | .constructor k => .constructor k

namespace ClassNode

theorem SameRoster.listed {n n' : ClassNode} (h : n.SameRoster n') (x : Listing) : n'.listed x = n.listed x := by
  cases x with
  | fields => exact congrArg _ h.fields
  | methods => exact congrArg _ h.methods
  | constructors => exact congrArg _ h.constructors

theorem SameRoster.made {n n' : ClassNode} (h : n.SameRoster n') (kind : MemberKind) : n'.made kind = n.made kind := by
  cases kind with
  | field => exact h.fieldsMade
  | method => exact h.methodsMade

section
variable (n : ClassNode) (x : Listing)

theorem listed_addField (f : FieldId) (made : Nat) :
    ({ n with fields := n.fields ++ [f], fieldsMade := made } : ClassNode).listed x =
      n.listed x ++ [Member.field f].filter (·.listing = x) := by
  cases x <;> simp [listed, Member.listing]

theorem listed_addMethod (i : MethodId) (made : Nat) :
    ({ n with methods := n.methods ++ [i], methodsMade := made } : ClassNode).listed x =
      n.listed x ++ [Member.method i].filter (·.listing = x) := by
  cases x <;> simp [listed, Member.listing]

theorem listed_addConstructor (k : ConstructorId) :
    ({ n with constructors := n.constructors ++ [k] } : ClassNode).listed x =
      n.listed x ++ [Member.constructor k].filter (·.listing = x) := by
  cases x <;> simp [listed, Member.listing]

theorem listed_removeField (f : FieldId) : ({ n with fields := n.fields.filter (· != f) } : ClassNode).listed x =
    (n.listed x).filter fun m => !decide (m = .field f) := by
  cases x <;> simp [listed, List.filter_map, Function.comp_def, bne, beq_eq_decide]

theorem listed_removeMethod (i : MethodId) : ({ n with methods := n.methods.filter (· != i) } : ClassNode).listed x =
    (n.listed x).filter fun m => !decide (m = .method i) := by
  cases x <;> simp [listed, List.filter_map, Function.comp_def, bne, beq_eq_decide]

theorem listed_removeConstructor (k : ConstructorId) :
    ({ n with constructors := n.constructors.filter (· != k) } : ClassNode).listed x =
      (n.listed x).filter fun m => !decide (m = .constructor k) := by
  cases x <;> simp [listed, List.filter_map, Function.comp_def, bne, beq_eq_decide]

end

end ClassNode

namespace World

def parametersOf (w : World) : Member → Parameters
  | .field _ => ⟨[], 0⟩
  | .method m => (w.method m).parameters
  | .constructor k => (w.constructor k).parameters

section
variable {w w' : World} {b c : ClassId} {m : Member}

theorem SameRoster.parametersOf (h : w.SameRoster w') (m : Member) : w'.parametersOf m = w.parametersOf m := by
  cases m with
  | field f => rfl
  | method m => exact h.methodParameters m
  | constructor k => exact h.constructorParameters k

theorem Keeps.ownerOf (h : w.Keeps w') (hm : w.Has m.object) : w'.ownerOf m = w.ownerOf m := by
  cases m with
  | field f => exact (h.fields f hm).2
  | method m => exact (h.methods m hm).2
  | constructor k => exact (h.constructors k hm).2

theorem node_editNode_if (hc : c.index < w.nodes.size) (f : ClassNode → ClassNode) :
    (w.editNode b f).node c = if b = c then f (w.node c) else w.node c := by
  rw [node_editNode]
  by_cases hb : b = c
  · rw [if_pos ⟨hb, hc⟩, if_pos hb]
  · rw [if_neg fun h => hb h.1, if_neg hb]

end

end World

namespace Edit

def creates (w : World) (c : ClassId) : Edit → List Member
  | .onClass b .addField => if b = c then [.field w.nextField] else []
  | .onClass b .addMethod => if b = c then [.method w.nextMethod] else []
  | .onClass b .addConstructor => if b = c then [.constructor w.nextConstructor] else []
  | _ => []

section
variable {w w' : World} {c : ClassId} {e : Edit} {a : Made}

/-- None of the others do anything of all this. -/
theorem Marginal.idle (h : e.Marginal) :
    e.creates w c = [] ∧ (∀ m, e.removes c m = false) ∧ ∀ m, e.lengthens m = false := by
  unfold creates removes lengthens
  refine ⟨?_, fun m => ?_, fun m => ?_⟩ <;> split <;> first | rfl | exact h.elim

theorem creates_made (h : e.apply w = (.ok a, w')) (name? : Option String) :
    (Deed.mk e a name?).creates c = e.creates w c := by
  cases e with
  | onClass b e =>
    cases e with
    | addField => obtain ⟨-, rfl, -⟩ := (ClassEdit.addNewField_makes b w).ok h; rfl
    | addMethod => obtain ⟨-, rfl, -⟩ := (ClassEdit.addNewMethod_makes b w).ok h; rfl
    | addConstructor => obtain ⟨-, rfl, -⟩ := (ClassEdit.addNewConstructor_makes b w).ok h; rfl
    | _ => rfl
  | _ => rfl

theorem creates_cases (e : Edit) (w : World) (c : ClassId) : e.creates w c = [] ∨ ∃ m, e.creates w c = [m] := by
  unfold creates
  split <;> try split
  all_goals first | exact .inl rfl | exact .inr ⟨_, rfl⟩

theorem Records.listed (h : e.Records w w') (hc : c.index < w.nodes.size) (x : Listing) :
    (w'.node c).listed x = ((w.node c).listed x).filter (fun m => !e.removes c m) ++
      (e.creates w c).filter (·.listing = x) := by
  cases h with
  | nothing hm hr =>
    obtain ⟨hcreates, hremoves, -⟩ := hm.idle (w := w) (c := c)
    simp [(hr.node c).listed, hcreates, hremoves]
  | @addField b _ y _ hr =>
    rw [(hr.node c).listed, node_editNode_if (w := w.withField y) hc, show (w.withField y).node c = w.node c from rfl]
    by_cases hb : b = c <;> simp [hb, creates, removes, ClassNode.listed_addField]
  | @addMethod b _ y _ _ hr =>
    rw [(hr.node c).listed, node_editNode_if (w := w.withMethod y) hc, show (w.withMethod y).node c = w.node c from rfl]
    by_cases hb : b = c <;> simp [hb, creates, removes, ClassNode.listed_addMethod]
  | @addConstructor b _ y _ hr =>
    rw [(hr.node c).listed, node_editNode_if (w := w.withConstructor y) hc,
      show (w.withConstructor y).node c = w.node c from rfl]
    by_cases hb : b = c <;> simp [hb, creates, removes, ClassNode.listed_addConstructor]
  | @removeField b f =>
    rw [node_editNode_if hc]
    by_cases hb : b = c <;> simp [hb, creates, removes, ClassNode.listed_removeField]
  | @removeMethod b i =>
    rw [node_editNode_if hc]
    by_cases hb : b = c <;> simp [hb, creates, removes, ClassNode.listed_removeMethod]
  | @removeConstructor b k =>
    rw [node_editNode_if hc]
    by_cases hb : b = c <;> simp [hb, creates, removes, ClassNode.listed_removeConstructor]
  | renameField | renameMethod =>
    show (w.node c).listed x = _
    simp [creates, removes]
  | methodParameters _ hr | constructorParameters _ hr =>
    rw [(hr.node c).listed]
    show (w.node c).listed x = _
    simp [creates, removes]

theorem Records.made (h : e.Records w w') (hc : c.index < w.nodes.size) (kind : MemberKind) : (w'.node c).made kind =
    (w.node c).made kind + ((e.creates w c).filter (·.listing = kind.listing)).length := by
  cases h with
  | nothing hm hr =>
    obtain ⟨hcreates, -⟩ := hm.idle (w := w) (c := c)
    simp [(hr.node c).made, hcreates]
  | @addField b _ y _ hr =>
    rw [(hr.node c).made, node_editNode_if (w := w.withField y) hc, show (w.withField y).node c = w.node c from rfl]
    by_cases hb : b = c <;> cases kind <;> simp [hb, creates, ClassNode.made, Member.listing, MemberKind.listing]
  | @addMethod b _ y _ _ hr =>
    rw [(hr.node c).made, node_editNode_if (w := w.withMethod y) hc, show (w.withMethod y).node c = w.node c from rfl]
    by_cases hb : b = c <;> cases kind <;> simp [hb, creates, ClassNode.made, Member.listing, MemberKind.listing]
  | @addConstructor b _ y _ hr =>
    rw [(hr.node c).made, node_editNode_if (w := w.withConstructor y) hc,
      show (w.withConstructor y).node c = w.node c from rfl]
    by_cases hb : b = c <;> cases kind <;> simp [hb, creates, ClassNode.made, Member.listing, MemberKind.listing]
  | @removeField b | @removeMethod b | @removeConstructor b =>
    rw [node_editNode_if hc]
    by_cases hb : b = c <;> cases kind <;> simp [hb, creates, ClassNode.made]
  | renameField | renameMethod => rfl
  | methodParameters _ hr | constructorParameters _ hr => exact (hr.node c).made kind

theorem Records.parameters {m : Member} (h : e.Records w w') (hm : w.Has m.object) :
    (w'.parametersOf m).made = (w.parametersOf m).made + (e.lengthens m).toNat := by
  have hadds {s : Settings} {ps ps' : Parameters} {e : ParameterEdit} (h : e.Records s ps ps') :
      ps'.made = ps.made + e.adds.toNat := by cases h <;> rfl
  cases h with
  | nothing hmarginal hr =>
    obtain ⟨-, -, hlengthens⟩ := hmarginal.idle (w := w) (c := default)
    simp [hr.parametersOf, hlengthens]
  | addField y _ hr =>
    rw [hr.parametersOf]
    cases m <;> rfl
  | addMethod y _ _ hr =>
    rw [hr.parametersOf]
    cases m with
    -- the member was there before, so it is not the one that is added
    | method i => exact congrArg (·.parameters.made) (Store.get_push_of_lt w.methods y hm)
    | field | constructor => rfl
  | addConstructor y _ hr =>
    rw [hr.parametersOf]
    cases m with
    | constructor k => exact congrArg (·.parameters.made) (Store.get_push_of_lt w.constructors y hm)
    | field | method => rfl
  | removeField | removeMethod | removeConstructor | renameField => cases m <;> rfl
  | @renameMethod i name =>
    cases m with
    | method j =>
      simp only [World.parametersOf, method_editMethod, lengthens]
      split <;> rfl
    | field | constructor => rfl
  | @methodParameters i _ _ _ hps hr =>
    rw [hr.parametersOf]
    cases m with
    | method j =>
      simp only [World.parametersOf, method_editMethod, lengthens]
      by_cases hij : i = j
      · subst hij
        simpa [show i.index < w.methods.size from hm] using hadds hps
      · simp [hij, Ne.symm hij]
    | field | constructor => rfl
  | @constructorParameters i _ _ _ hps hr =>
    rw [hr.parametersOf]
    cases m with
    | constructor j =>
      simp only [World.parametersOf, constructor_editConstructor, lengthens]
      by_cases hij : i = j
      · subst hij
        simpa [show i.index < w.constructors.size from hm] using hadds hps
      · simp [hij, Ne.symm hij]
    | field | method => rfl

theorem mem_creates {m : Member} (hm : m ∈ e.creates w c) :
    e = .onClass c .addField ∧ m = .field w.nextField ∨ e = .onClass c .addMethod ∧ m = .method w.nextMethod ∨
      e = .onClass c .addConstructor ∧ m = .constructor w.nextConstructor := by
  unfold creates at hm
  split at hm <;> try split at hm
  all_goals simp_all

/-- What is made is new, it belongs to the class, and nothing has been added to it. -/
theorem new_of_creates {m : Member} (h : e.apply w = (.ok a, w')) (hm : m ∈ e.creates w c) :
    ¬ w.Has m.object ∧ w'.Has m.object ∧ w'.ownerOf m = c ∧ (w'.parametersOf m).made = 0 := by
  rcases mem_creates hm with ⟨rfl, rfl⟩ | ⟨rfl, rfl⟩ | ⟨rfl, rfl⟩
  · obtain ⟨-, -, rfl⟩ := (ClassEdit.addNewField_makes c w).ok h
    refine ⟨Nat.lt_irrefl _, ?_, congrArg Field.owner (Store.get_push_self w.fields _), rfl⟩
    show w.fields.size < (w.fields.push _).size
    simp
  · obtain ⟨-, -, rfl⟩ := (ClassEdit.addNewMethod_makes c w).ok h
    refine ⟨Nat.lt_irrefl _, ?_, congrArg Method.owner (Store.get_push_self w.methods _),
      congrArg (·.parameters.made) (Store.get_push_self w.methods _)⟩
    show w.methods.size < (w.methods.push _).size
    simp
  · obtain ⟨-, -, rfl⟩ := (ClassEdit.addNewConstructor_makes c w).ok h
    refine ⟨Nat.lt_irrefl _, ?_, congrArg Constructor.owner (Store.get_push_self w.constructors _),
      congrArg (·.parameters.made) (Store.get_push_self w.constructors _)⟩
    show w.constructors.size < (w.constructors.push _).size
    simp

/-- What is made has the next default name. -/
theorem name_made {m : Member} {kind : MemberKind} (h : e.apply w = (.ok a, w')) (hm : m ∈ e.creates w c)
    (hkind : m.listing = kind.listing) :
    w'.nameMade? a = some ((w.node c).settings.memberName ((w.node c).made kind)) := by
  have hgives (he : e = .onClass c (.add kind)) (hc : w.Editable c) :
      w'.nameMade? a = some ((w.node c).settings.memberName ((w.node c).made kind)) := by
    obtain ⟨a', v, hrun, hname⟩ := gives_member hc rfl kind
    rw [← he, h] at hrun
    cases hrun
    exact hname
  rcases mem_creates hm with ⟨rfl, rfl⟩ | ⟨rfl, rfl⟩ | ⟨rfl, rfl⟩
  · cases kind with
    | field => exact hgives rfl ((ClassEdit.addNewField_makes c w).ok h).1
    | method => cases hkind
  · cases kind with
    | method => exact hgives rfl ((ClassEdit.addNewMethod_makes c w).ok h).1
    | field => cases hkind
  · cases kind <;> cases hkind

end

end Edit

/-! ## What has been done since -/

namespace World

/-- What has been done since world `u`, in order. Edits that are refused leave nothing to write down, and neither
does anything that leaves all members alone. -/
inductive History (u : World) : List Deed → World → Prop
  | start : History u [] u
  | done {deeds w w' e a} : History u deeds w → e.apply w = (.ok a, w') →
      History u (deeds ++ [⟨e, a, w'.nameMade? a⟩]) w'
  | refused {deeds w w'} {e : Edit} {error} : History u deeds w → e.apply w = (.error error, w') → History u deeds w'
  | aside {deeds w w' made} : History u deeds w → Move w made w' → w.SameRoster w' → History u deeds w'
  | refer {deeds w} (t : Target) : History u deeds w → History u deeds (w.withReference t)

/-- The class has just been made. -/
def Bears (u : World) (c : ClassId) : Prop :=
  ∃ v made, Move v made u ∧ v.nodes.size ≤ c.index ∧ c.index < u.nodes.size

structure Recounts (w : World) (c : ClassId) (deeds : List Deed) : Prop where
  /-- The members of a kind are numbered as they are made. -/
  names : ∀ kind : MemberKind, Deed.names c kind.listing deeds =
    (List.range (Deed.names c kind.listing deeds).length).map fun i =>
      some ((w.node c).settings.defaultMemberPrefix ++ toString i)
  distinct : ∀ kind : MemberKind, (Deed.names c kind.listing deeds).Nodup
  once : (Deed.remaining c deeds).Nodup
  fields : (w.node c).isUnresolved = false →
    (w.node c).declaredFields.map .field = (Deed.remaining c deeds).filter (·.listing = .fields)
  methods : (w.node c).isUnresolved = false →
    (w.node c).declaredMethods.map .method = (Deed.remaining c deeds).filter (·.listing = .methods)
  constructors : (w.node c).isUnresolved = false →
    (w.node c).declaredConstructors.map .constructor = (Deed.remaining c deeds).filter (·.listing = .constructors)
  /-- A parameter without a name is numbered behind all that have been added. -/
  methodParameters : ∀ m, .method m ∈ Deed.created c deeds → w.Gives (.onMethod m (.parameters .addNew))
    ((w.node c).settings.memberName (Deed.additions c (.method m) deeds))
  constructorParameters : ∀ k, .constructor k ∈ Deed.created c deeds → w.Gives (.onConstructor k (.parameters .addNew))
    ((w.node c).settings.memberName (Deed.additions c (.constructor k) deeds))

structure Accounts (w : World) (c : ClassId) (deeds : List Deed) : Prop where
  lt : c.index < w.nodes.size
  made : ∀ kind : MemberKind, (w.node c).made kind = (Deed.names c kind.listing deeds).length
  names : ∀ kind : MemberKind, Deed.names c kind.listing deeds =
    (List.range (Deed.names c kind.listing deeds).length).map fun i => some ((w.node c).settings.memberName i)
  listed : ∀ x, (w.node c).listed x = (Deed.remaining c deeds).filter (·.listing = x)
  has : ∀ m ∈ Deed.created c deeds, w.Has m.object ∧ w.ownerOf m = c
  once : (Deed.created c deeds).Nodup
  parameters : ∀ m ∈ Deed.created c deeds, (w.parametersOf m).made = Deed.additions c m deeds

section
variable {u w w' : World} {c : ClassId} {deeds : List Deed}

theorem accounts_fresh (hc : c.index < u.nodes.size) (h : (u.node c).Fresh) : u.Accounts c [] := by
  refine ⟨hc, fun kind => ?_, fun _ => rfl, fun x => ?_, nofun, .nil, nofun⟩
  · cases kind with
    | field => exact h.fieldsMade
    | method => exact h.methodsMade
  · cases x with
    | fields => exact congrArg _ h.fields
    | methods => exact congrArg _ h.methods
    | constructors => exact congrArg _ h.constructors

theorem Accounts.same (h : w.Accounts c deeds) (hk : w.Keeps w') (hr : w.SameRoster w') : w'.Accounts c deeds := by
  have hsettings := (hk.same c h.lt).settings
  refine ⟨Nat.lt_of_lt_of_le h.lt hk.size, fun kind => ((hr.node c).made kind).trans (h.made kind), ?_,
    fun x => ((hr.node c).listed x).trans (h.listed x), fun m hm => ?_, h.once, fun m hm => ?_⟩
  · rw [hsettings]
    exact h.names
  · obtain ⟨hhas, howner⟩ := h.has m hm
    exact ⟨hhas.keeps hk, (hk.ownerOf hhas).trans howner⟩
  · rw [hr.parametersOf]
    exact h.parameters m hm

theorem eq_map_range_snoc {α : Type} {xs : List α} {f : Nat → α} {x : α} (h : xs = (List.range xs.length).map f)
    (hx : x = f xs.length) : xs ++ [x] = (List.range (xs ++ [x]).length).map f := by
  rw [List.length_append, List.length_singleton, List.range_succ, List.map_append, ← h, hx]
  rfl

theorem Accounts.edit (h : w.Accounts c deeds) {e : Edit} {a : Made} (he : e.apply w = (.ok a, w')) :
    w'.Accounts c (deeds ++ [⟨e, a, w'.nameMade? a⟩]) := by
  have hk := (Move.edit he).keeps
  have hrecords := Edit.records he
  have hcreates := Edit.creates_made (c := c) he (w'.nameMade? a)
  have hsettings := (hk.same c h.lt).settings
  have hnew (m : Member) (hm : m ∈ e.creates w c) := Edit.new_of_creates he hm
  have hold (m : Member) (hm : m ∈ e.creates w c) : m ∉ Deed.created c deeds := fun hmem =>
    (hnew m hm).1 (h.has m hmem).1
  refine ⟨Nat.lt_of_lt_of_le h.lt hk.size, fun kind => ?_, fun kind => ?_, fun x => ?_, fun m hm => ?_, ?_,
    fun m hm => ?_⟩
  · rw [hrecords.made h.lt, h.made, Deed.names_snoc, hcreates, List.length_append, List.length_map]
  · rw [Deed.names_snoc, hcreates, hsettings]
    -- a member that is named takes the number at which the counter stood before the edit
    rcases e.creates_cases w c with hnone | ⟨m, hm⟩
    · simpa [hnone] using h.names kind
    · by_cases hkind : m.listing = kind.listing
      · have hname := Edit.name_made he (by rw [hm]; exact List.mem_singleton_self m) hkind
        rw [h.made kind] at hname
        have hone : (e.creates w c).filter (·.listing = kind.listing) = [m] := by simp [hm, hkind]
        rw [hone]
        exact eq_map_range_snoc (h.names kind) hname
      · simpa [hm, hkind] using h.names kind
  · rw [hrecords.listed h.lt, h.listed, Deed.remaining_snoc, hcreates]
    simp [List.filter_filter, Bool.and_comm]
  · rw [Deed.created_snoc, hcreates] at hm
    rcases List.mem_append.mp hm with hm | hm
    · obtain ⟨hhas, howner⟩ := h.has m hm
      exact ⟨hhas.keeps hk, (hk.ownerOf hhas).trans howner⟩
    · obtain ⟨-, hhas, howner, -⟩ := hnew m hm
      exact ⟨hhas, howner⟩
  · rw [Deed.created_snoc, hcreates]
    refine List.nodup_append.mpr ⟨h.once, ?_, fun m hm m' hm' heq => hold m' hm' (heq ▸ hm)⟩
    rcases e.creates_cases w c with hnone | ⟨m, hm⟩
    · rw [hnone]
      exact .nil
    · rw [hm]
      exact List.pairwise_singleton _ m
  · rw [Deed.created_snoc, hcreates] at hm
    rcases List.mem_append.mp hm with hm | hm
    · rw [Deed.additions_snoc _ hm, hrecords.parameters (h.has m hm).1, h.parameters m hm]
    · rw [Deed.additions_of_new _ (hold m hm) (by rw [hcreates]; exact hm)]
      exact (hnew m hm).2.2.2

theorem History.accounts (hc : c.index < u.nodes.size) (hfresh : (u.node c).Fresh) (h : History u deeds w) :
    w.Accounts c deeds := by
  induction h with
  | start => exact accounts_fresh hc hfresh
  | done _ he ih => exact ih.edit he
  | @refused _ w w' e error _ he ih =>
    obtain ⟨p, a, v, hmakes, -⟩ := e.makes w
    rwa [hmakes.undone error w' he]
  | aside _ hm hr ih => exact ih.same hm.keeps hr
  | @refer _ w t _ ih => exact ih.same (.withReference w t) (.withReference w t)

theorem Accounts.recounts (h : w.Accounts c deeds) : w.Recounts c deeds := by
  have hshown {α : Type} {x : List α} {f : α → Member} {y : List Member} (hx : x.map f = y)
      (hn : (w.node c).isUnresolved = false) : (if (w.node c).isUnresolved then [] else x).map f = y := by
    rw [if_neg (by rw [hn]; decide)]
    exact hx
  refine ⟨h.names, fun kind => ?_, h.once.sublist (Deed.remaining_sublist deeds), hshown (h.listed .fields),
    hshown (h.listed .methods), hshown (h.listed .constructors), fun m hm => ?_, fun k hk => ?_⟩
  · rw [h.names kind]
    exact List.Pairwise.map _ (fun i j hij hsame =>
      hij ((w.node c).settings.memberName_injective (Option.some.inj hsame))) List.nodup_range
  · rw [← h.parameters _ hm]
    exact gives_methodParameter (by rw [show (w.method m).owner = c from (h.has _ hm).2])
  · rw [← h.parameters _ hk]
    exact gives_constructorParameter (by rw [show (w.constructor k).owner = c from (h.has _ hk).2])

theorem Run.exists_history (h : Run .empty w) :
    ∀ c, c.index < w.nodes.size → ∃ u deeds, u.Bears c ∧ History u deeds w := by
  refine h.holds (P := fun w => ∀ c, c.index < w.nodes.size → ∃ u deeds, u.Bears c ∧ History u deeds w)
    (fun c hc => (Nat.not_lt_zero _ hc).elim) fun {w made w'} hw hm c hc => ?_
  by_cases hlt : c.index < w.nodes.size
  · obtain ⟨u, deeds, hu, hhistory⟩ := hw c hlt
    rcases hm.edit_or_sameRoster with ⟨e, a, he⟩ | hr
    · exact ⟨u, _, hu, hhistory.done he⟩
    · exact ⟨u, deeds, hu, hhistory.aside hm hr⟩
  · exact ⟨w', [], ⟨w, made, hm, Nat.not_lt.mp hlt, hc⟩, .start⟩

/-- In every run the members of a class go by what has been done since it was made. -/
theorem members_follow_history (hw : Run .empty w) (hc : c.index < w.nodes.size) :
    (∃ u deeds, u.Bears c ∧ History u deeds w) ∧ ∀ u deeds, u.Bears c → History u deeds w → w.Recounts c deeds := by
  refine ⟨hw.exists_history c hc, fun u deeds hu h => ?_⟩
  obtain ⟨v, made, hm, hsize, hlt⟩ := hu
  exact (h.accounts hlt (hm.fresh hsize)).recounts

def perform (w : World) (edits : List Edit) : List Deed × World :=
  edits.foldl (fun p e => match e.apply p.2 with
    | (.ok a, w') => (p.1 ++ [⟨e, a, w'.nameMade? a⟩], w')
    | (.error _, w') => (p.1, w')) ([], w)

theorem perform_append (edits : List Edit) (e : Edit) : w.perform (edits ++ [e]) =
    match e.apply (w.perform edits).2 with
    | (.ok a, w') => ((w.perform edits).1 ++ [⟨e, a, w'.nameMade? a⟩], w')
    | (.error _, w') => ((w.perform edits).1, w') := by
  unfold perform
  rw [List.foldl_append]
  rfl

theorem history_perform (edits : List Edit) : History w (w.perform edits).1 (w.perform edits).2 := by
  induction edits using List.reverseRecOn with
  | nil => exact .start
  | append_singleton edits e ih =>
    rw [perform_append]
    cases he : e.apply (w.perform edits).2 with
    | mk r w' =>
      cases r with
      | ok a => exact ih.done he
      | error error => exact ih.refused he

theorem run_discard {α : Type} (x : Change α) (w : World) : ((do let _ ← x : Change Unit) w).2 = (x w).2 := by
  rw [bind_run]
  cases x w with
  | mk r w' => cases r <;> rfl

theorem run_perform (hw : Run .empty w) (edits : List Edit) : Run .empty (w.perform edits).2 := by
  induction edits using List.reverseRecOn with
  | nil => exact hw
  | append_singleton edits e ih =>
    have hnext := ih.tail (.mutate _ (.edit e))
    rw [show ((Mutation.edit e).run (w.perform edits).2).2 = _ from run_discard e.apply _] at hnext
    rw [perform_append]
    cases he : e.apply (w.perform edits).2 with
    | mk r w' =>
      rw [he] at hnext
      cases r <;> exact hnext

end

/-! The first field of a class is taken off it, and a parameter is refused. -/

def holding : World := (Loader.define ⟨0⟩ "m" "Holder" [] single).2

def holderEdits : List Edit :=
  [.onClass ⟨10⟩ .addField, .onClass ⟨10⟩ .addMethod, .onClass ⟨10⟩ .addField, .onClass ⟨10⟩ (.removeField ⟨0⟩),
    .onField ⟨1⟩ (.setName "unnamed_2"), .onClass ⟨10⟩ .addField, .onMethod ⟨0⟩ (.parameters (.add "1x" "int")),
    .onMethod ⟨0⟩ (.parameters (.add "x" "int"))]

theorem run_holding : Run .empty holding := by
  have hrun := (run_changed []).tail (.mutate _ (.define ⟨0⟩ "m" "Holder" []))
  rwa [show ((Mutation.define ⟨0⟩ "m" "Holder" []).run (changed [])).2 = _ from run_discard _ _] at hrun

theorem bears_holding : holding.Bears ⟨10⟩ :=
  ⟨single, _, .define (l := ⟨0⟩) (by decide +kernel) (unregistered_iff.mpr (by decide +kernel))
    (run_of_ok (a := (⟨10⟩ : ClassId)) (by decide +kernel)), by decide +kernel, by decide +kernel⟩

theorem holder_members_follow :
    Run .empty (holding.perform holderEdits).2 ∧ 10 < (holding.perform holderEdits).2.nodes.size ∧
      Deed.names ⟨10⟩ .fields (holding.perform holderEdits).1 =
        [some "unnamed_0", some "unnamed_1", some "unnamed_2"] ∧
      ((holding.perform holderEdits).2.node ⟨10⟩).declaredFields.map .field = [Member.field ⟨1⟩, .field ⟨2⟩] ∧
      (holding.perform holderEdits).2.Gives (.onMethod ⟨0⟩ (.parameters .addNew)) "unnamed_1" := by
  have hrun := run_perform run_holding holderEdits
  have hc : 10 < (holding.perform holderEdits).2.nodes.size := by decide +kernel
  have hrecounts := (members_follow_history hrun hc).2 holding _ bears_holding (history_perform holderEdits)
  have hnames := hrecounts.names .field
  have hlength : (Deed.names ⟨10⟩ .fields (holding.perform holderEdits).1).length = 3 := by decide +kernel
  have hremaining : (Deed.remaining ⟨10⟩ (holding.perform holderEdits).1).filter (·.listing = .fields) =
      [.field ⟨1⟩, .field ⟨2⟩] := by decide +kernel
  have hnext : ((holding.perform holderEdits).2.node ⟨10⟩).settings.memberName
      (Deed.additions ⟨10⟩ (.method ⟨0⟩) (holding.perform holderEdits).1) = "unnamed_1" := by decide +kernel
  refine ⟨hrun, hc, ?_, (hrecounts.fields (by decide +kernel)).trans hremaining, ?_⟩
  · rw [show MemberKind.field.listing = .fields from rfl, hlength] at hnames
    rw [hnames]
    decide +kernel
  · rw [← hnext]
    exact hrecounts.methodParameters ⟨0⟩ (by decide +kernel)

end World

end ClassModel
