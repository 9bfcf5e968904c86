import ClassModel.Graph.Walk
import ClassModel.Proofs.Graph.Histories

/-!
# What walks come by

The editing walk settles its course before the first visit and so comes by the members that there are then,
whatever is done on the way. The reading walk asks the class again for each list, so it is led by the visits,
but only by those that change the class. The two part where a class is marked as unresolved: it shows no
members, and only the reading walk goes by what it shows.
-/

namespace ClassModel

namespace ClassNode

def elements (n : ClassNode) : List Element :=
  (n.fields.map fun f => .member (.field f)) ++ (n.constructors.map fun k => .member (.constructor k)) ++
    n.methods.map fun m => .member (.method m)

def fieldElements (n : ClassNode) : List Element := n.declaredFields.map fun f => .member (.field f)

def constructorElements (n : ClassNode) : List Element :=
  n.declaredConstructors.map fun k => .member (.constructor k)

def methodElements (n : ClassNode) : List Element := n.declaredMethods.map fun m => .member (.method m)

def declaredElements (n : ClassNode) : List Element :=
  n.fieldElements ++ n.constructorElements ++ n.methodElements

theorem declaredElements_eq (n : ClassNode) : n.declaredElements = if n.isUnresolved then [] else n.elements := by
  unfold declaredElements fieldElements constructorElements methodElements elements
  unfold declaredFields declaredConstructors declaredMethods
  cases n.isUnresolved <;> simp

theorem declaredElements_eq_iff (n : ClassNode) :
    n.declaredElements = n.elements ↔ n.isUnresolved = false ∨ n.elements = [] := by
  rw [declaredElements_eq]
  cases n.isUnresolved with
  | false => simp
  | true => simp only [if_true, Bool.true_eq_false, false_or]; exact eq_comm

end ClassNode

/-! ## Courses -/

section
variable {α : Type} (visit : Element → Step (List α))

theorem visitEach_cons (e : Element) (es : List Element) (w : World) : visitEach visit (e :: es) w =
    ((visit e w).1 ++ (visitEach visit es (visit e w).2).1, (visitEach visit es (visit e w).2).2) := rfl

theorem visitEach_append (es fs : List Element) : ∀ w : World, visitEach visit (es ++ fs) w =
    ((visitEach visit es w).1 ++ (visitEach visit fs (visitEach visit es w).2).1,
      (visitEach visit fs (visitEach visit es w).2).2) := by
  induction es with
  | nil => intro w; rfl
  | cons e es ih =>
    intro w
    rw [List.cons_append, visitEach_cons, ih, visitEach_cons, List.append_assoc]

/-- Visits as `visit` does, and reports where it has been. -/
def recording (e : Element) : Step (List Element) := do
  let _ ← visit e
  return [e]

theorem visitEach_recording (es : List Element) : ∀ w : World, (visitEach (recording visit) es w).1 = es := by
  induction es with
  | nil => intro w; rfl
  | cons e es ih =>
    intro w
    rw [visitEach_cons, ih]
    rfl

theorem walkEditing_eq (c : ClassId) (w : World) :
    c.walkEditing visit w = visitEach visit (.node c :: (w.node c).elements) w := rfl

theorem walk_run (c : ClassId) (w : World) : c.walk visit w =
    let head := visit (.node c) w
    let fields := visitEach visit (head.2.node c).fieldElements head.2
    let constructors := visitEach visit (fields.2.node c).constructorElements fields.2
    let methods := visitEach visit (constructors.2.node c).methodElements constructors.2
    (head.1 ++ fields.1 ++ constructors.1 ++ methods.1, methods.2) := rfl

def Spares (c : ClassId) : Prop := ∀ e (w : World), (visit e w).2.node c = w.node c

variable {visit} {c : ClassId}

theorem Spares.recording (h : Spares visit c) : Spares (recording visit) c := fun e w => h e w

theorem Spares.visitEach (h : Spares visit c) (es : List Element) :
    ∀ w : World, (ClassModel.visitEach visit es w).2.node c = w.node c := by
  induction es with
  | nil => intro w; rfl
  | cons e es ih =>
    intro w
    exact (ih (visit e w).2).trans (h e w)

theorem Spares.walk_eq (h : Spares visit c) (w : World) :
    c.walk visit w = ClassModel.visitEach visit (.node c :: (w.node c).declaredElements) w := by
  rw [walk_run]
  dsimp only
  rw [h.visitEach, h.visitEach, h.visitEach, h (.node c) w, visitEach_cons, ClassNode.declaredElements,
    visitEach_append, visitEach_append]
  simp only [List.append_assoc]

end

/-- Whatever the visits do, the editing walk comes by the class and all the members that it has when the walk
begins. If the visits leave the class alone, the reading walk comes by the class and the members it shows, and the
two walks are the same just if no mark hides any. -/
theorem walks_visit_members (w : World) (c : ClassId) {α : Type} (visit : Element → Step (List α)) :
    (c.walkEditing (recording visit) w).1 = .node c :: (w.node c).elements ∧
    (Spares visit c →
      (c.walk (recording visit) w).1 = .node c :: (w.node c).declaredElements ∧
      ((w.node c).isUnresolved = false ∨ (w.node c).elements = [] →
        c.walk visit w = c.walkEditing visit w) ∧
      ((c.walk (recording visit) w).1 = (c.walkEditing (recording visit) w).1 ↔
        (w.node c).isUnresolved = false ∨ (w.node c).elements = [])) := by
  have hediting : (c.walkEditing (recording visit) w).1 = .node c :: (w.node c).elements := by
    rw [walkEditing_eq, visitEach_recording]
  refine ⟨hediting, fun h => ?_⟩
  have hreading : (c.walk (recording visit) w).1 = .node c :: (w.node c).declaredElements := by
    rw [h.recording.walk_eq, visitEach_recording]
  refine ⟨hreading, fun hshown => ?_, ?_⟩
  · rw [h.walk_eq, walkEditing_eq, (w.node c).declaredElements_eq_iff.mpr hshown]
  · rw [hreading, hediting, List.cons.injEq, eq_self, true_and]
    exact (w.node c).declaredElements_eq_iff

/-! A class with two fields, a constructor and a method, and visits that take the first field off and add members. -/

def drafted : World := (World.holding.perform [.onClass ⟨10⟩ .addMethod, .onClass ⟨10⟩ .addField,
  .onClass ⟨10⟩ .addConstructor, .onClass ⟨10⟩ .addField]).2

def redrafting : EditPlan := { EditPlan.none with addMembers := true, removeFields := [⟨0⟩], fieldSuffix := some "x" }

def draftedElements : List Element :=
  [.node ⟨10⟩, .member (.field ⟨0⟩), .member (.field ⟨1⟩), .member (.constructor ⟨0⟩), .member (.method ⟨0⟩)]

theorem spares_report (c : ClassId) : Spares report c := fun _ _ => rfl

theorem drafted_walks : World.Run .empty drafted ∧
    (ClassId.walkEditing ⟨10⟩ (recording redrafting.visit) drafted).1 = draftedElements ∧
    (((ClassId.walkEditing ⟨10⟩ redrafting.visit drafted).2.node ⟨10⟩).fields = [⟨1⟩, ⟨2⟩]) ∧
    Spares report ⟨10⟩ ∧ (drafted.node ⟨10⟩).isUnresolved = false ∧
    (ClassId.walk ⟨10⟩ (recording report) drafted).1 = draftedElements ∧
    ClassId.walk ⟨10⟩ report drafted = ClassId.walkEditing ⟨10⟩ report drafted := by
  have helements : .node ⟨10⟩ :: (drafted.node ⟨10⟩).elements = draftedElements := by decide +kernel
  have hmark : (drafted.node ⟨10⟩).isUnresolved = false := by decide +kernel
  have hediting := (walks_visit_members drafted ⟨10⟩ redrafting.visit).1
  obtain ⟨-, hreport⟩ := walks_visit_members drafted ⟨10⟩ report
  obtain ⟨hreading, hsame, -⟩ := hreport (spares_report ⟨10⟩)
  rw [(ClassNode.declaredElements_eq_iff _).mpr (.inl hmark)] at hreading
  exact ⟨World.run_perform World.run_holding _, hediting.trans helements, by decide +kernel, spares_report _, hmark,
    hreading.trans helements, hsame (.inl hmark)⟩

def marked : World := (World.holding.perform [.onClass ⟨10⟩ .addField, .onClass ⟨10⟩ (.setUnresolved true)]).2

/-- On a class that is marked as unresolved the editing walk comes by a field that the reading walk does not. -/
theorem marked_walks_part : World.Run .empty marked ∧ (∀ e v, (report e v).2 = v) ∧
    (ClassId.walk ⟨10⟩ (recording report) marked).1 = [.node ⟨10⟩] ∧
    (ClassId.walkEditing ⟨10⟩ (recording report) marked).1 = [.node ⟨10⟩, .member (.field ⟨0⟩)] :=
  ⟨World.run_perform World.run_holding _, fun _ _ => rfl, by decide +kernel, by decide +kernel⟩

end ClassModel
