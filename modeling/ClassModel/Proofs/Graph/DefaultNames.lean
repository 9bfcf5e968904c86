import ClassModel.Proofs.Graph.Histories

/-!
# Default names pass their check

A prefix of default names is checked with one number behind it, and this settles all numbers. So nothing that is
made without a name, in whatever state, goes by a name that it could not be given by hand.
-/

namespace ClassModel

open Change World

namespace Member

/-- The edit that names the member. A constructor goes by the name of its class. -/
def naming? (name : String) : Member → Option Edit
  | .field f => some (.onField f (.setName name))
  | .method m => some (.onMethod m (.setName name))
  | .constructor _ => none

def parameterEdit? (e : ParameterEdit) : Member → Option Edit
  | .field _ => none
  | .method m => some (.onMethod m (.parameters e))
  | .constructor k => some (.onConstructor k (.parameters e))

end Member

def ParameterEdit.named (name type : String) : List ParameterEdit := [.add name type, .addUnqualified name type]

namespace Settings

open Name

theorem memberName_checked {s : Settings} :
    checkIdentifier (s.memberName 0) = .ok () ↔ ∀ n, checkIdentifier (s.memberName n) = .ok () := by
  simp only [checkIdentifier_ok]
  exact ⟨memberName_isIdentifier, fun h => h 0⟩

end Settings

namespace World

def Permits (w : World) (e : Edit) : Prop := ∃ a w', e.apply w = (.ok a, w')

structure NamesByDefault (w : World) (c : ClassId) : Prop where
  settings : (w.node c).settings.check = .ok ()
  members : w.Editable c → ∀ kind : MemberKind,
    w.Gives (.onClass c (.add kind)) ((w.node c).settings.memberName ((w.node c).made kind))
  parameters : ∀ m : Member, w.ownerOf m = c → ∀ e ∈ m.parameterEdit? .addNew,
    w.Gives e ((w.node c).settings.memberName (w.parametersOf m).made)

/-- The member could be given the name it has, and each of its parameters could be added under the name it has. -/
structure NamedAsByHand (w : World) (m : Member) : Prop where
  name : ∀ e ∈ m.naming? (w.memberName m), w.Permits e
  parameters : ∀ p ∈ (w.parametersOf m).list, ∀ type, Name.checkClassName type = .ok () →
    ∀ pe ∈ ParameterEdit.named p.name type, ∀ e ∈ m.parameterEdit? pe, w.Permits e

section
variable {w : World} {made : List (LoaderId × ClassId)}

theorem permits_naming {m : Member} {name : String} (hn : Name.IsIdentifier name) :
    ∀ e ∈ m.naming? name, w.Permits e := by
  cases m with
  | field f =>
    rintro _ ⟨⟩
    exact ⟨_, _, (FieldEdit.setName_makes f w name).made hn⟩
  | method m =>
    rintro _ ⟨⟩
    exact ⟨_, _, (MethodEdit.setName_makes m w name).made hn⟩
  | constructor k => rintro _ ⟨⟩

/-- Both names are checked, and nothing else. -/
theorem makes_named {name type : String} (hn : Name.IsIdentifier name) (ht : Name.IsClassName type)
    {pe : ParameterEdit} (hpe : pe ∈ ParameterEdit.named name type) (owner : ClassId) (ps : Parameters) :
    ∃ r v, (pe.apply owner ps).Makes w True r v := by
  have hadd (t : Target) : ∃ r v, (ParameterEdit.addNamed ps name type t).Makes w True r v :=
    ⟨_, _, (ParameterEdit.addNamed_makes w ps name type t).congr (iff_true_intro ⟨ht, hn⟩)⟩
  rcases List.mem_pair.mp hpe with rfl | rfl
  · exact hadd (.qualified type owner)
  · exact hadd (.unqualified type owner)

theorem permits_named {m : Member} {name type : String} (hn : Name.IsIdentifier name) (ht : Name.IsClassName type)
    {pe : ParameterEdit} (hpe : pe ∈ ParameterEdit.named name type) : ∀ e ∈ m.parameterEdit? pe, w.Permits e := by
  cases m with
  | field f => rintro _ ⟨⟩
  | method m =>
    rintro _ ⟨⟩
    obtain ⟨r, v, hmakes⟩ := makes_named (w := w) hn ht hpe (w.method m).owner (w.method m).parameters
    exact ⟨_, _, (MethodEdit.parameters_makes hmakes).made trivial⟩
  | constructor k =>
    rintro _ ⟨⟩
    obtain ⟨r, v, hmakes⟩ := makes_named (w := w) hn ht hpe (w.constructor k).owner (w.constructor k).parameters
    exact ⟨_, _, (ConstructorEdit.parameters_makes hmakes).made trivial⟩

variable (hw : w.Sound made)
include hw

theorem Sound.namesByDefault (c : ClassId) : w.NamesByDefault c := by
  refine ⟨Settings.check_ok.mpr (hw.nodes c).settings, fun hc kind => gives_member hc rfl kind, ?_⟩
  rintro m rfl
  cases m with
  | field f => rintro _ ⟨⟩
  | method m => rintro _ ⟨⟩; exact gives_methodParameter rfl
  | constructor k => rintro _ ⟨⟩; exact gives_constructorParameter rfl

theorem Sound.parameterName {m : Member} (hm : w.Has m.object) {p : Parameter} (hp : p ∈ (w.parametersOf m).list) :
    Name.IsIdentifier p.name := by
  cases m with
  | field f => cases hp
  | method m => exact ((hw.methods m hm).parameters p hp).1
  | constructor k => exact (hw.constructors k hm p hp).1

theorem Sound.namedAsByHand {m : Member} (hm : w.Has m.object) : w.NamedAsByHand m where
  name := by
    cases m with
    | field f => exact permits_naming (hw.fields f hm).name
    | method m => exact permits_naming (hw.methods m hm).name
    | constructor k => rintro _ ⟨⟩
  parameters p hp _ ht _ hpe := permits_named (hw.parameterName hm hp) (Name.checkClassName_ok.mp ht) hpe

end

/-- Of the default names with one prefix all are identifiers if the first is, and settings are accepted just if
theirs are. In every run all classes have such settings, and call by them what is made without a name, and no
field, method or parameter goes by a name that would be refused. -/
theorem default_names_accepted :
    (∀ stem : String, Name.checkIdentifier (stem ++ "0") = .ok () ↔
      ∀ n : Nat, Name.checkIdentifier (stem ++ toString n) = .ok ()) ∧
    (∀ s : Settings, s.check = .ok () ↔
      Settings.checkNames s.classNames = .ok () ∧ ∀ n, Name.checkIdentifier (s.memberName n) = .ok ()) ∧
    ∀ w, Run .empty w → (∀ c, w.NamesByDefault c) ∧ ∀ m : Member, w.Has m.object → w.NamedAsByHand m := by
  refine ⟨fun stem => ?_, fun s => ?_, fun w hw => ?_⟩
  · exact Settings.memberName_checked (s := { Settings.standard with defaultMemberPrefix := stem })
  · rw [Settings.check_eq_ok_iff, Settings.memberName_checked]
  · obtain ⟨made, hsound⟩ := hw.sound soundEmpty
    exact ⟨hsound.namesByDefault, fun m hm => hsound.namedAsByHand hm⟩

/-! A prefix of one letter, and a field and a method with a parameter that nobody has named. -/

def accents : Settings := { Settings.standard with defaultMemberPrefix := "é" }

def accented : World := (Loader.define ⟨0⟩ "m" "Holder" [] (Loader.make accents [] .empty).2).2

def unnamed : World :=
  (accented.perform [.onClass ⟨10⟩ .addField, .onClass ⟨10⟩ .addMethod, .onMethod ⟨0⟩ (.parameters .addNew)]).2

theorem run_unnamed : Run .empty unnamed := by
  refine run_perform ?_ _
  have hmake : Run .empty (Loader.make accents [] .empty).2 := .single (.makeLoader _ accents [])
  have hdefine := hmake.tail (.mutate _ (.define ⟨0⟩ "m" "Holder" []))
  rwa [show ((Mutation.define ⟨0⟩ "m" "Holder" []).run _).2 = accented from run_discard _ _] at hdefine

theorem unnamed_names_accepted : Run .empty unnamed ∧
    (unnamed.node ⟨10⟩).settings.check = .ok () ∧ unnamed.Gives (.onClass ⟨10⟩ .addField) "é1" ∧
    unnamed.memberName (.field ⟨0⟩) = "é0" ∧ unnamed.Permits (.onField ⟨0⟩ (.setName "é0")) ∧
    unnamed.Permits (.onMethod ⟨0⟩ (.parameters (.addUnqualified "é0" "int"))) := by
  obtain ⟨-, -, hruns⟩ := default_names_accepted
  obtain ⟨hdefaults, hnamed⟩ := hruns unnamed run_unnamed
  have hfield : unnamed.memberName (.field ⟨0⟩) = "é0" := by decide +kernel
  have hnext : (unnamed.node ⟨10⟩).settings.memberName ((unnamed.node ⟨10⟩).made .field) = "é1" := by decide +kernel
  have hparameter : (unnamed.parametersOf (.method ⟨0⟩)).list = [⟨"é0", ⟨2⟩⟩] := by decide +kernel
  have hkind : (unnamed.node ⟨10⟩).kind = .declared := by decide +kernel
  have hfields : 0 < unnamed.fields.size := by decide +kernel
  have hmethods : 0 < unnamed.methods.size := by decide +kernel
  refine ⟨run_unnamed, (hdefaults ⟨10⟩).settings, ?_, hfield, ?_, ?_⟩
  · exact hnext ▸ (hdefaults ⟨10⟩).members hkind .field
  · exact (hnamed (.field ⟨0⟩) hfields).name _ (hfield ▸ rfl)
  · refine (hnamed (.method ⟨0⟩) hmethods).parameters ⟨"é0", ⟨2⟩⟩ ?_ "int" (by decide +kernel)
      (.addUnqualified "é0" "int") (by decide) _ rfl
    rw [hparameter]
    exact List.mem_singleton_self _

end World

end ClassModel
