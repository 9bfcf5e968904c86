import ClassModel.Proofs.Document.JsonText
import ClassModel.Proofs.Document.Records
import ClassModel.Snapshot.Codec

/-!
# Snapshots are read back

A snapshot is read from the text it is written as. It is read alike from every text in which the
entries of some records stand in another order, unknown ones have been added, or such are missing as
are empty or false.
-/

namespace ClassModel

open Document

/-! ## Ways to write a snapshot -/

def SpelledOption (spelled : α → Data → Prop) : Option α → Data → Prop
  | none, d => d = .null
  | some x, d => spelled x d

def RefSnapshot.kindName : RefSnapshot → String
  | .qualified _ => "qualified"
  | .unqualified _ => "unqualified"

def RefSnapshot.entries (r : RefSnapshot) : List Entry := [
  ⟨"kind", false, (· = .string r.kindName)⟩,
  ⟨"name", false, (· = .string r.name)⟩]

def RefSnapshot.Spelled (r : RefSnapshot) : Data → Prop := Document.Spelled r.entries

def ParameterSnapshot.entries (p : ParameterSnapshot) : List Entry := [
  ⟨"name", false, (· = .string p.name)⟩,
  ⟨"ty", false, p.type.Spelled⟩]

def ParameterSnapshot.Spelled (p : ParameterSnapshot) : Data → Prop := Document.Spelled p.entries

def FieldSnapshot.entries (f : FieldSnapshot) : List Entry := [
  ⟨"name", false, (· = .string f.name)⟩,
  ⟨"modifiers", f.modifiers = .none, (· = f.modifiers.data)⟩,
  ⟨"ty", false, f.type.Spelled⟩]

def FieldSnapshot.Spelled (f : FieldSnapshot) : Data → Prop := Document.Spelled f.entries

def MethodSnapshot.entries (m : MethodSnapshot) : List Entry := [
  ⟨"name", false, (· = .string m.name)⟩,
  ⟨"modifiers", m.modifiers = .none, (· = m.modifiers.data)⟩,
  ⟨"return_type", false, m.returnType.Spelled⟩,
  ⟨"parameters", m.parameters.isEmpty, SpelledList ParameterSnapshot.Spelled m.parameters⟩]

def MethodSnapshot.Spelled (m : MethodSnapshot) : Data → Prop := Document.Spelled m.entries

def ConstructorSnapshot.entries (k : ConstructorSnapshot) : List Entry := [
  ⟨"modifiers", k.modifiers = .none, (· = k.modifiers.data)⟩,
  ⟨"parameters", k.parameters.isEmpty, SpelledList ParameterSnapshot.Spelled k.parameters⟩]

def ConstructorSnapshot.Spelled (k : ConstructorSnapshot) : Data → Prop := Document.Spelled k.entries

def ClassSnapshot.entries (c : ClassSnapshot) : List Entry := [
  ⟨"package", false, (· = .string c.package)⟩,
  ⟨"simple_name", false, (· = .string c.simpleName)⟩,
  ⟨"modifiers", c.modifiers = .none, (· = c.modifiers.data)⟩,
  ⟨"is_interface", !c.isInterface, (· = .boolean c.isInterface)⟩,
  ⟨"is_annotation_type", !c.isAnnotationType, (· = .boolean c.isAnnotationType)⟩,
  ⟨"is_unresolved", !c.isUnresolved, (· = .boolean c.isUnresolved)⟩,
  ⟨"imports", c.imports.isEmpty, SpelledList (fun t d => d = .string t) c.imports⟩,
  ⟨"superclass", c.superclass.isNone, SpelledOption RefSnapshot.Spelled c.superclass⟩,
  ⟨"interfaces", c.interfaces.isEmpty, SpelledList RefSnapshot.Spelled c.interfaces⟩,
  ⟨"fields", c.fields.isEmpty, SpelledList FieldSnapshot.Spelled c.fields⟩,
  ⟨"methods", c.methods.isEmpty, SpelledList MethodSnapshot.Spelled c.methods⟩,
  ⟨"constructors", c.constructors.isEmpty, SpelledList ConstructorSnapshot.Spelled c.constructors⟩]

def ClassSnapshot.Spelled (c : ClassSnapshot) : Data → Prop := Document.Spelled c.entries

def Snapshot.entries (s : Snapshot) : List Entry := [
  ⟨"schema_version", false, (· = .integer s.schemaVersion)⟩,
  ⟨"classes", false, SpelledList ClassSnapshot.Spelled s.classes⟩]

def Snapshot.Spelled (s : Snapshot) : Data → Prop := Document.Spelled s.entries

/-! ## The way it is written -/

theorem RefSnapshot.spelled_data (r : RefSnapshot) : r.Spelled r.data := by
  have h : Document.Spelled r.entries _ := .full (.cons rfl (.cons rfl .nil))
  cases r <;> exact h

theorem ParameterSnapshot.spelled_data (p : ParameterSnapshot) : p.Spelled p.data :=
  .full (.cons rfl (.cons p.type.spelled_data .nil))

theorem FieldSnapshot.spelled_data (f : FieldSnapshot) : f.Spelled f.data :=
  .full (.cons rfl (.cons rfl (.cons f.type.spelled_data .nil)))

theorem MethodSnapshot.spelled_data (m : MethodSnapshot) : m.Spelled m.data :=
  .full (.cons rfl (.cons rfl (.cons m.returnType.spelled_data
    (.cons (spelledList_map ParameterSnapshot.spelled_data m.parameters) .nil))))

theorem ConstructorSnapshot.spelled_data (k : ConstructorSnapshot) : k.Spelled k.data :=
  .full (.cons rfl (.cons (spelledList_map ParameterSnapshot.spelled_data k.parameters) .nil))

theorem spelledOption_superclassData : ∀ r : Option RefSnapshot, SpelledOption RefSnapshot.Spelled r (superclassData r)
  | none => rfl
  | some r => r.spelled_data

theorem spelledList_string (ts : List String) :
    SpelledList (fun t d => d = .string t) ts (.ofItems (ts.map .string)) := by
  refine spelledList_map ?_ ts
  exact fun _ => rfl

theorem ClassSnapshot.spelled_data (c : ClassSnapshot) : c.Spelled c.data :=
  .full (.cons rfl (.cons rfl (.cons rfl (.cons rfl (.cons rfl (.cons rfl
    (.cons (spelledList_string c.imports)
    (.cons (spelledOption_superclassData c.superclass)
    (.cons (spelledList_map RefSnapshot.spelled_data c.interfaces)
    (.cons (spelledList_map FieldSnapshot.spelled_data c.fields)
    (.cons (spelledList_map MethodSnapshot.spelled_data c.methods)
    (.cons (spelledList_map ConstructorSnapshot.spelled_data c.constructors) .nil))))))))))))

theorem Snapshot.spelled_data (s : Snapshot) : s.Spelled s.data :=
  .full (.cons rfl (.cons (spelledList_map ClassSnapshot.spelled_data s.classes) .nil))

/-! ## Reading -/

theorem understands_string (s : String) : Understands Data.readString (· = .string s) s := by
  rintro _ rfl _
  rfl

theorem understands_boolean (b : Bool) : Understands Data.readBoolean (· = .boolean b) b := by
  rintro _ rfl _
  rfl

theorem understands_modifiers (m : Modifiers) : Understands Modifiers.read (· = m.data) m := by
  rintro _ rfl _
  have hm : m.bits.toNat < Nat.pow 2 16 := m.bits.toNat_lt
  simp [Modifiers.read, Modifiers.data, Data.readUnsigned, hm, Except.map, Modifiers.ofNat]

theorem understands_option {read : Data → Reading α} {spelled : α → Data → Prop}
    (h : ∀ x, Understands read (spelled x) x) (hnull : ∀ x, ¬ spelled x .null) :
    ∀ x : Option α, Understands (Data.readOption read) (SpelledOption spelled x) x
  | none => by
    rintro _ rfl _
    rfl
  | some x => by
    intro d hd hskip
    cases d with
    | null => exact absurd hd (hnull x)
    | _ => exact (h x).map some _ hd hskip

namespace RefSnapshot

/-- What a reference's reader passes over makes no difference. -/
theorem readEntries_filter (depth : Nat) (known : String × Data → Bool) :
    ∀ (p : Progress) (entries : List (String × Data)),
      (∀ e ∈ entries, known e = false → e.1 ≠ "kind" ∧ e.1 ≠ "name" ∧ e.2.skippable = true) →
      readEntries depth p entries = readEntries depth p (entries.filter known)
  | _, [], _ => rfl
  | p, e :: rest, h => by
    have hrest := fun p => readEntries_filter depth known p rest fun x hx => h x (List.mem_cons_of_mem _ hx)
    cases hk : known e with
    | true =>
      rw [List.filter_cons_of_pos hk, readEntries, readEntries]
      cases p.add depth e.1 e.2 with
      | error => rfl
      | ok p => exact hrest p
    | false =>
      obtain ⟨hkind, hname, hskip⟩ := h e List.mem_cons_self hk
      rw [List.filter_cons_of_neg (by simp [hk]), readEntries]
      simp only [Progress.add, hkind, hname, hskip, if_false, if_true]
      exact hrest p

theorem perm_pair {a b : α} {l : List α} (h : l.Perm [a, b]) : l = [a, b] ∨ l = [b, a] := by
  obtain ⟨x, y, rfl⟩ := List.length_eq_two.mp h.length_eq
  have hx : x = a ∨ x = b := by simpa using h.subset List.mem_cons_self
  rcases hx with rfl | rfl
  · rw [List.perm_singleton.mp h.cons_inv]
    exact .inl rfl
  · rw [List.perm_singleton.mp (h.trans (.swap ..)).cons_inv]
    exact .inr rfl

theorem ofName_kindName : ∀ r : RefSnapshot, ∃ k, Kind.ofName r.kindName = .ok k ∧ k.build r.name = r
  | .qualified _ => ⟨.qualified, rfl, rfl⟩
  | .unqualified _ => ⟨.unqualified, rfl, rfl⟩

theorem understood (above : Nat) (r : RefSnapshot) : Understands (read above) r.Spelled r := by
  rintro d ⟨kept, extra, entries, hkept, hextra, hperm, rfl⟩ hskip
  simp only [Data.ofEntries, Data.skippable, Bool.and_eq_true] at hskip
  have hkept : kept = [("kind", .string r.kindName), ("name", .string r.name)] := by
    cases hkept with
    | drop h => cases h
    | keep hkind hkept =>
      cases hkept with
      | drop h => cases h
      | keep hname hkept =>
        cases hkept
        cases hkind
        cases hname
        rfl
  obtain ⟨k, hk, hbuild⟩ := ofName_kindName r
  let known (e : String × Data) : Bool := e.1 ∈ r.entries.map Entry.name
  have hunknown : ∀ e ∈ extra, known e = false := fun e he => decide_eq_false (hextra e he)
  have hsurplus : ∀ e ∈ entries, known e = false → e.1 ≠ "kind" ∧ e.1 ≠ "name" ∧ e.2.skippable = true := by
    intro e he hk
    have hnot : e.1 ∉ ["kind", "name"] := of_decide_eq_false hk
    simp only [List.mem_cons, List.not_mem_nil, or_false, not_or] at hnot
    exact ⟨hnot.1, hnot.2, skippableEntries_iff.mp hskip.1 e he⟩
  have hfilter : (entries.filter known).Perm kept := by
    have hnil : extra.filter known = [] := List.filter_eq_nil_iff.mpr fun e he => by simp [hunknown e he]
    have hall : kept.filter known = kept := by
      rw [hkept]
      exact List.filter_eq_self.mpr (by simp [known, RefSnapshot.entries])
    have h := hperm.filter known
    rwa [List.filter_append, hnil, hall, List.append_nil] at h
  have hread : ∀ depth, readEntries depth .start entries = .ok (.done r) := by
    intro depth
    rw [readEntries_filter depth known .start entries hsurplus]
    rw [hkept] at hfilter
    -- Either the kind says at once how the name is read, or the name waits for it.
    rcases perm_pair hfilter with h | h <;>
      simp [h, readEntries, Progress.add, Progress.addKind, Progress.addName, Kind.read, hk, Data.readString,
        Data.readable, Except.map, bind, Except.bind, hbuild, pure, Except.pure]
  simp [Data.ofEntries, read, hread, bind, Except.bind, Data.uncut, Progress.finish]

end RefSnapshot

namespace ParameterSnapshot

theorem understood (p : ParameterSnapshot) : Understands read p.Spelled p := by
  intro d hd hskip
  have hagrees : RecordShape.Agrees shape.fields p.entries [.name p.name, .type p.type] :=
    .cons rfl (fun _ => rfl) ((understands_string _).map _) <|
    .cons rfl (fun _ => rfl) ((RefSnapshot.understood 8 _).map _) .nil
  obtain ⟨xs, hxs, hsub, hthere⟩ := RecordShape.read_spelled rfl (by decide) hagrees hd hskip
  simp only [entries, List.forall₂_cons, Bool.false_eq_true, false_or] at hthere
  obtain ⟨hname, htype, -⟩ := hthere
  have hparts : ofParts xs = some p :=
    Option.bind_eq_some_iff.mpr ⟨_, pick_required hsub hname rfl (by simp),
      Option.bind_eq_some_iff.mpr ⟨_, pick_required hsub htype rfl (by simp), rfl⟩⟩
  simp [read, RecordShape.build, hxs, hparts]

end ParameterSnapshot

namespace FieldSnapshot

theorem understood (f : FieldSnapshot) : Understands read f.Spelled f := by
  intro d hd hskip
  have hagrees : RecordShape.Agrees shape.fields f.entries [.name f.name, .modifiers f.modifiers, .type f.type] :=
    .cons rfl (fun _ => rfl) ((understands_string _).map _) <|
    .cons rfl nofun ((understands_modifiers _).map _) <|
    .cons rfl (fun _ => rfl) ((RefSnapshot.understood 6 _).map _) .nil
  obtain ⟨xs, hxs, hsub, hthere⟩ := RecordShape.read_spelled rfl (by decide) hagrees hd hskip
  simp only [entries, List.forall₂_cons, Bool.false_eq_true, false_or] at hthere
  obtain ⟨hname, hmodifiers, htype, -⟩ := hthere
  have hparts : ofParts xs = some f := by
    refine Option.bind_eq_some_iff.mpr ⟨_, pick_required hsub hname rfl (by simp),
      Option.bind_eq_some_iff.mpr ⟨_, pick_required hsub htype rfl (by simp), ?_⟩⟩
    cases f
    simp only [pure, Option.some.injEq, FieldSnapshot.mk.injEq, true_and, and_true]
    exact pick_optional hsub hmodifiers rfl (by simp) of_decide_eq_true
  simp [read, RecordShape.build, hxs, hparts]

end FieldSnapshot

namespace MethodSnapshot

theorem understood (m : MethodSnapshot) : Understands read m.Spelled m := by
  intro d hd hskip
  have hagrees : RecordShape.Agrees shape.fields m.entries
      [.name m.name, .modifiers m.modifiers, .returnType m.returnType, .parameters m.parameters] :=
    .cons rfl (fun _ => rfl) ((understands_string _).map _) <|
    .cons rfl nofun ((understands_modifiers _).map _) <|
    .cons rfl (fun _ => rfl) ((RefSnapshot.understood 6 _).map _) <|
    .cons rfl nofun ((readList_spelled ParameterSnapshot.understood _).map _) .nil
  obtain ⟨xs, hxs, hsub, hthere⟩ := RecordShape.read_spelled rfl (by decide) hagrees hd hskip
  simp only [entries, List.forall₂_cons, Bool.false_eq_true, false_or] at hthere
  obtain ⟨hname, hmodifiers, htype, hparameters, -⟩ := hthere
  have hparts : ofParts xs = some m := by
    refine Option.bind_eq_some_iff.mpr ⟨_, pick_required hsub hname rfl (by simp),
      Option.bind_eq_some_iff.mpr ⟨_, pick_required hsub htype rfl (by simp), ?_⟩⟩
    cases m
    simp only [pure, Option.some.injEq, MethodSnapshot.mk.injEq, true_and]
    exact ⟨pick_optional hsub hmodifiers rfl (by simp) of_decide_eq_true,
      pick_optional hsub hparameters rfl (by simp) List.isEmpty_iff.mp⟩
  simp [read, RecordShape.build, hxs, hparts]

end MethodSnapshot

namespace ConstructorSnapshot

theorem understood (k : ConstructorSnapshot) : Understands read k.Spelled k := by
  intro d hd hskip
  have hagrees : RecordShape.Agrees shape.fields k.entries [.modifiers k.modifiers, .parameters k.parameters] :=
    .cons rfl nofun ((understands_modifiers _).map _) <|
    .cons rfl nofun ((readList_spelled ParameterSnapshot.understood _).map _) .nil
  obtain ⟨xs, hxs, hsub, hthere⟩ := RecordShape.read_spelled rfl (by decide) hagrees hd hskip
  simp only [entries, List.forall₂_cons] at hthere
  obtain ⟨hmodifiers, hparameters, -⟩ := hthere
  have hparts : ofParts xs = some k := by
    cases k
    simp only [ofParts, Option.some.injEq, ConstructorSnapshot.mk.injEq]
    exact ⟨pick_optional hsub hmodifiers rfl (by simp) of_decide_eq_true,
      pick_optional hsub hparameters rfl (by simp) List.isEmpty_iff.mp⟩
  simp [read, RecordShape.build, hxs, hparts]

end ConstructorSnapshot

theorem RefSnapshot.not_spelled_null (r : RefSnapshot) : ¬ r.Spelled .null := by
  rintro ⟨_, _, _, _, _, _, h⟩
  cases h

namespace ClassSnapshot

def parts (c : ClassSnapshot) : List Part := [
  .package c.package, .simpleName c.simpleName, .modifiers c.modifiers, .isInterface c.isInterface,
  .isAnnotationType c.isAnnotationType, .isUnresolved c.isUnresolved, .imports c.imports, .superclass c.superclass,
  .interfaces c.interfaces, .fields c.fields, .methods c.methods, .constructors c.constructors]

theorem agrees (c : ClassSnapshot) : RecordShape.Agrees shape.fields c.entries c.parts :=
  .cons rfl (fun _ => rfl) ((understands_string _).map _) <|
  .cons rfl (fun _ => rfl) ((understands_string _).map _) <|
  .cons rfl nofun ((understands_modifiers _).map _) <|
  .cons rfl nofun ((understands_boolean _).map _) <|
  .cons rfl nofun ((understands_boolean _).map _) <|
  .cons rfl nofun ((understands_boolean _).map _) <|
  .cons rfl nofun ((readList_spelled understands_string _).map _) <|
  .cons rfl nofun ((understands_option (RefSnapshot.understood 4) RefSnapshot.not_spelled_null _).map _) <|
  .cons rfl nofun ((readList_spelled (RefSnapshot.understood 5) _).map _) <|
  .cons rfl nofun ((readList_spelled FieldSnapshot.understood _).map _) <|
  .cons rfl nofun ((readList_spelled MethodSnapshot.understood _).map _) <|
  .cons rfl nofun ((readList_spelled ConstructorSnapshot.understood _).map _) .nil

theorem understood (c : ClassSnapshot) : Understands read c.Spelled c := by
  intro d hd hskip
  obtain ⟨xs, hxs, hsub, hthere⟩ := RecordShape.read_spelled rfl (by decide) c.agrees hd hskip
  simp only [entries, parts, List.forall₂_cons, Bool.false_eq_true, false_or] at hthere
  obtain ⟨hpackage, hsimpleName, hmodifiers, hinterface, hannotation, hunresolved, himports, hsuperclass, hinterfaces,
    hfields, hmethods, hconstructors, -⟩ := hthere
  have hparts : ofParts xs = some c := by
    refine Option.bind_eq_some_iff.mpr ⟨_, pick_required hsub hpackage rfl (by simp [parts]),
      Option.bind_eq_some_iff.mpr ⟨_, pick_required hsub hsimpleName rfl (by simp [parts]), ?_⟩⟩
    cases c
    simp only [pure, Option.some.injEq, ClassSnapshot.mk.injEq, true_and]
    exact ⟨pick_optional hsub hmodifiers rfl (by simp [parts]) of_decide_eq_true,
      pick_optional hsub hinterface rfl (by simp [parts]) (Bool.not_eq_true' _).mp,
      pick_optional hsub hannotation rfl (by simp [parts]) (Bool.not_eq_true' _).mp,
      pick_optional hsub hunresolved rfl (by simp [parts]) (Bool.not_eq_true' _).mp,
      pick_optional hsub himports rfl (by simp [parts]) List.isEmpty_iff.mp,
      pick_optional hsub hsuperclass rfl (by simp [parts]) Option.isNone_iff_eq_none.mp,
      pick_optional hsub hinterfaces rfl (by simp [parts]) List.isEmpty_iff.mp,
      pick_optional hsub hfields rfl (by simp [parts]) List.isEmpty_iff.mp,
      pick_optional hsub hmethods rfl (by simp [parts]) List.isEmpty_iff.mp,
      pick_optional hsub hconstructors rfl (by simp [parts]) List.isEmpty_iff.mp⟩
  simp [read, RecordShape.build, hxs, hparts]

end ClassSnapshot

theorem Snapshot.understood (s : Snapshot) (hs : s.schemaVersion < UInt32.size) :
    Understands Snapshot.read s.Spelled s := by
  intro d hd hskip
  have hversion : Understands (Data.readUnsigned 32) (· = .integer s.schemaVersion) s.schemaVersion := by
    rintro _ rfl _
    have hs : s.schemaVersion < Nat.pow 2 32 := hs
    simp [Data.readUnsigned, hs]
  have hagrees : RecordShape.Agrees shape.fields s.entries [.schemaVersion s.schemaVersion, .classes s.classes] :=
    .cons rfl (fun _ => rfl) (hversion.map _) <|
    .cons rfl (fun _ => rfl) ((readList_spelled ClassSnapshot.understood _).map _) .nil
  obtain ⟨xs, hxs, hsub, hthere⟩ := RecordShape.read_spelled rfl (by decide) hagrees hd hskip
  simp only [entries, List.forall₂_cons, Bool.false_eq_true, false_or] at hthere
  obtain ⟨hschema, hclasses, -⟩ := hthere
  have hparts : ofParts xs = some s :=
    Option.bind_eq_some_iff.mpr ⟨_, pick_required hsub hschema rfl (by simp),
      Option.bind_eq_some_iff.mpr ⟨_, pick_required hsub hclasses rfl (by simp), rfl⟩⟩
  simp [read, RecordShape.build, hxs, hparts]

/-! ## The text of a snapshot -/

open Json (Plain)

theorem fits_of_lt {n : Nat} (h : n < UInt32.size) : Json.Fits n :=
  ⟨Int.le_trans (Int.neg_nonpos_of_nonneg (Int.natCast_nonneg _)) (Int.natCast_nonneg n),
    Int.ofNat_le.mpr (Nat.le_trans (Nat.le_of_lt h) (by decide))⟩

theorem Modifiers.plain_data (m : Modifiers) : Plain m.data :=
  .integer (fits_of_lt (Nat.lt_trans m.bits.toNat_lt (by decide)))

theorem plain_map {f : α → Data} (h : ∀ x, Plain (f x)) (xs : List α) : Plain (.ofItems (xs.map f)) :=
  .items (List.forall_mem_map.mpr fun x _ => h x)

theorem RefSnapshot.plain_data : ∀ r : RefSnapshot, Plain r.data
  | .qualified n | .unqualified n => .entries (by simp [Plain.string])

theorem ParameterSnapshot.plain_data (p : ParameterSnapshot) : Plain p.data :=
  .entries (by simp [Plain.string, RefSnapshot.plain_data])

theorem FieldSnapshot.plain_data (f : FieldSnapshot) : Plain f.data :=
  .entries (by simp [Plain.string, RefSnapshot.plain_data, Modifiers.plain_data])

theorem MethodSnapshot.plain_data (m : MethodSnapshot) : Plain m.data :=
  .entries (by simp [Plain.string, RefSnapshot.plain_data, Modifiers.plain_data,
    plain_map ParameterSnapshot.plain_data])

theorem ConstructorSnapshot.plain_data (k : ConstructorSnapshot) : Plain k.data :=
  .entries (by simp [Modifiers.plain_data, plain_map ParameterSnapshot.plain_data])

theorem plain_superclassData : ∀ r : Option RefSnapshot, Plain (superclassData r)
  | none => .null
  | some r => r.plain_data

theorem ClassSnapshot.plain_data (c : ClassSnapshot) : Plain c.data :=
  .entries (by simp [Plain.string, Plain.boolean, Modifiers.plain_data, plain_map Plain.string, plain_superclassData,
    plain_map RefSnapshot.plain_data, plain_map FieldSnapshot.plain_data, plain_map MethodSnapshot.plain_data,
    plain_map ConstructorSnapshot.plain_data])

namespace Snapshot

theorem plain_data (s : Snapshot) (hs : s.schemaVersion < UInt32.size) : Plain s.data :=
  .entries (by simp [Plain.integer (fits_of_lt hs), plain_map ClassSnapshot.plain_data])

def answer (s : Snapshot) : Except SnapshotError Snapshot :=
  if s.schemaVersion = ClassModel.schemaVersion then .ok s else .error (.schemaVersion s.schemaVersion)

theorem ofJson_of_spelled {s : Snapshot} (hs : s.schemaVersion < UInt32.size) {text : String} {d : Data}
    (htext : Json.ofText text = (d, false)) (hd : s.Spelled d) : ofJson text = s.answer := by
  have hread : read d = .ok s := s.understood hs d hd (Json.skippable_of_ofText htext)
  unfold ofJson
  simp only [htext, hread, Bool.false_eq_true, if_false]
  rfl

/-- A snapshot is read from the text that it is written as, and from every text that spells it otherwise:
with entries in another order, with unknown ones, and without such as say nothing new. -/
theorem ofJson_spelled {s : Snapshot} (hs : s.schemaVersion < UInt32.size) :
    ofJson s.toJson = s.answer ∧
      ∀ (text : String) (d : Data), Json.ofText text = (d, false) → s.Spelled d → ofJson text = s.answer :=
  ⟨ofJson_of_spelled hs (Json.ofText_toText (s.plain_data hs)) s.spelled_data,
    fun _ _ htext hd => ofJson_of_spelled hs htext hd⟩

def plainInterface : ClassSnapshot where
  package := "p"
  simpleName := "A"
  modifiers := .none
  isInterface := true
  isAnnotationType := false
  isUnresolved := false
  imports := []
  superclass := none
  interfaces := []
  fields := []
  methods := []
  constructors := []

/-- The interface written backwards. Most of what says nothing new is left out, and something unknown is added. -/
def terseInterface : Data := .ofEntries [("since", .integer 17), ("superclass", .null), ("is_interface", .boolean true),
  ("simple_name", .string "A"), ("package", .string "p")]

theorem spelled_terseInterface : plainInterface.Spelled terseInterface :=
  ⟨[("package", .string "p"), ("simple_name", .string "A"), ("is_interface", .boolean true), ("superclass", .null)],
    [("since", .integer 17)], _,
    .keep rfl <| .keep rfl <| .drop rfl <| .keep rfl <| .drop rfl <| .drop rfl <| .drop rfl <| .keep rfl <|
      .drop rfl <| .drop rfl <| .drop rfl <| .drop rfl .nil,
    by decide, List.reverse_perm _, rfl⟩

def terse (version : Nat) : Data :=
  .ofEntries [("classes", .ofItems [terseInterface]), ("schema_version", .integer version)]

theorem plain_terse {version : Nat} (h : version < UInt32.size) : Plain (terse version) := by
  have hsince : Json.Fits 17 := by constructor <;> decide
  have hinterface : Plain terseInterface :=
    .entries (by simp [Plain.integer hsince, Plain.null, Plain.boolean, Plain.string])
  have hclasses : Plain (.ofItems [terseInterface]) := .items (by simpa using hinterface)
  exact .entries (by simp [Plain.integer (fits_of_lt h), hclasses])

theorem spelled_terse (version : Nat) : Spelled ⟨version, [plainInterface]⟩ (terse version) :=
  ⟨[("schema_version", .integer version), ("classes", .ofItems [terseInterface])], [], _,
    .keep rfl (.keep ⟨_, .cons spelled_terseInterface .nil, rfl⟩ .nil), nofun, List.reverse_perm _, rfl⟩

theorem ofJson_terse :
    ofJson (Json.toText (terse 1)) = .ok ⟨1, [plainInterface]⟩ ∧
      ofJson (Json.toText (terse 2)) = .error (.schemaVersion 2) :=
  ⟨(ofJson_spelled (s := ⟨1, [plainInterface]⟩) (by decide)).2 _ _ (Json.ofText_toText (plain_terse (by decide)))
      (spelled_terse 1),
    (ofJson_spelled (s := ⟨2, [plainInterface]⟩) (by decide)).2 _ _ (Json.ofText_toText (plain_terse (by decide)))
      (spelled_terse 2)⟩

end Snapshot

end ClassModel
