import ClassModel.Proofs.NameGrammar
import Mathlib.Data.Set.Operations

/-!
# Parts of names

A qualified name comes apart at its last dot into package and simple name. The text of an import comes apart into
a name and perhaps a star, once the blanks around it are cut off. What is joined from well-formed parts comes apart
into the same parts, and what comes apart is joined into the same text again.
-/

namespace ClassModel

namespace Name

open Text

/-! ## The last dot -/

theorem splitAtLastDot_eq_none : ∀ {cs : List Char}, splitAtLastDot cs = none ↔ '.' ∉ cs
  | [] => by simp [splitAtLastDot]
  | c :: cs => by
    rw [splitAtLastDot, List.mem_cons, not_or, ← splitAtLastDot_eq_none]
    cases splitAtLastDot cs with
    | some fb => simp
    | none => simp [eq_comm]

theorem not_mem_back_of_splitAtLastDot : ∀ {cs front back : List Char},
    splitAtLastDot cs = some (front, back) → '.' ∉ back
  | c :: cs, front, back, h => by
    rw [splitAtLastDot] at h
    cases hs : splitAtLastDot cs with
    | some fb =>
      simp only [hs, Option.some.injEq, Prod.mk.injEq] at h
      obtain ⟨-, rfl⟩ := h
      exact not_mem_back_of_splitAtLastDot hs
    | none =>
      simp only [hs] at h
      split at h
      · cases h
        exact splitAtLastDot_eq_none.mp hs
      · cases h

theorem splitAtLastDot_append {back : List Char} (h : '.' ∉ back) : ∀ front : List Char,
    splitAtLastDot (front ++ '.' :: back) = some (front, back)
  | [] => by rw [List.nil_append, splitAtLastDot, splitAtLastDot_eq_none.mpr h]; rfl
  | c :: front => by rw [List.cons_append, splitAtLastDot, splitAtLastDot_append h front]

/-- Whatever the package is, a simple name without a dot can be taken off again. -/
theorem parts_qualify (package : String) {simpleName : String} (h : '.' ∉ simpleName.toList) :
    packageOf (qualify package simpleName) = package ∧ simpleNameOf (qualify package simpleName) = simpleName := by
  unfold qualify packageOf simpleNameOf
  by_cases hp : package = ""
  · subst hp
    have hsplit : splitAtLastDot simpleName.toList = none := splitAtLastDot_eq_none.mpr h
    rw [if_pos (by decide), hsplit]
    exact ⟨rfl, rfl⟩
  · have hsplit : splitAtLastDot (package ++ "." ++ simpleName).toList =
        some (package.toList, simpleName.toList) := by
      simpa using splitAtLastDot_append h package.toList
    rw [if_neg (by simpa using hp), hsplit]
    exact ⟨String.ofList_toList, String.ofList_toList⟩

theorem dot_notMem_simpleNameOf (name : String) : '.' ∉ (simpleNameOf name).toList := by
  unfold simpleNameOf
  cases hs : splitAtLastDot name.toList with
  | none => exact splitAtLastDot_eq_none.mp hs
  | some fb =>
    obtain ⟨front, back⟩ := fb
    simpa using not_mem_back_of_splitAtLastDot hs

/-- A dot leaves hope for a name just if it stands behind one. -/
theorem eq_none_of_open_dot {verdict : Option NameFault} (h : IsOpen (extended verdict '.')) : verdict = none := by
  have hstart : isIdentifierStart '.' = false := by decide +kernel
  cases verdict with
  | none => rfl
  | some f =>
    cases f with
    | empty => rcases h (.badStart '.') (by simp [extended, hstart]) with he | he <;> cases he
    | trailingDot => rcases h .doubleDot rfl with he | he <;> cases he
    | badStart c => rcases h (.badStart c) rfl with he | he <;> cases he
    | illegal c => rcases h (.illegal c) rfl with he | he <;> cases he
    | doubleDot => rcases h .doubleDot rfl with he | he <;> cases he

/-- Before a dot of a name stands a name, and behind the dot something. -/
theorem sides_of_dot {front back : List Char} (h : fault? (front ++ '.' :: back) = none) :
    fault? front = none ∧ back ≠ [] := by
  rw [List.append_cons] at h
  obtain ⟨segments, hspells⟩ := fault?_eq_none_iff.mp h
  have hopen : IsOpen (fault? (front ++ ['.'])) := begins_iff.mp ⟨back, segments, hspells⟩
  rw [fault?_snoc] at hopen
  have hfront : fault? front = none := eq_none_of_open_dot hopen
  refine ⟨hfront, ?_⟩
  rintro rfl
  rw [List.append_nil, fault?_snoc, hfront] at h
  cases h

theorem IsClassName.parts {name : String} (h : IsClassName name) :
    IsPackageName (packageOf name) ∧ simpleNameOf name ≠ "" := by
  unfold packageOf simpleNameOf
  cases hs : splitAtLastDot name.toList with
  | none =>
    refine ⟨.inl rfl, ?_⟩
    rintro rfl
    cases h
  | some fb =>
    obtain ⟨front, back⟩ := fb
    unfold IsClassName at h
    rw [splitAtLastDot_some hs] at h
    obtain ⟨hfront, hback⟩ := sides_of_dot h
    refine ⟨.inr ?_, ?_⟩
    · simpa [IsClassName] using hfront
    · simpa [String.ext_iff] using hback

/-- A well-formed package name and an identifier make a class name that comes apart into the two of them, and a
class name comes apart into two such parts that make it, but for what a simple name may begin with. -/
theorem qualified_names_come_apart :
    (∀ package simpleName, checkPackageName package = .ok () → checkIdentifier simpleName = .ok () →
      checkClassName (qualify package simpleName) = .ok () ∧
      packageOf (qualify package simpleName) = package ∧ simpleNameOf (qualify package simpleName) = simpleName) ∧
    Set.InjOn (fun parts : String × String => qualify parts.1 parts.2)
      {parts | checkPackageName parts.1 = .ok () ∧ checkIdentifier parts.2 = .ok ()} ∧
    ∀ name, checkClassName name = .ok () →
      checkPackageName (packageOf name) = .ok () ∧
      simpleNameOf name ≠ "" ∧ '.' ∉ (simpleNameOf name).toList ∧
      qualify (packageOf name) (simpleNameOf name) = name := by
  simp only [checkPackageName_ok, checkIdentifier_ok, checkClassName_ok]
  refine ⟨fun package simpleName hp hs => ⟨isClassName_qualify hp hs, parts_qualify package hs.2⟩, ?_,
    fun name h => ?_⟩
  · rintro ⟨p, s⟩ ⟨-, hs⟩ ⟨p', s'⟩ ⟨-, hs'⟩ heq
    obtain ⟨hp, hn⟩ := parts_qualify p hs.2
    obtain ⟨hp', hn'⟩ := parts_qualify p' hs'.2
    simp only at heq
    rw [heq] at hp hn
    exact Prod.ext (hp.symm.trans hp') (hn.symm.trans hn')
  · obtain ⟨hpackage, hsimple⟩ := h.parts
    exact ⟨hpackage, hsimple, dot_notMem_simpleNameOf name, qualify_packageOf_simpleNameOf h⟩

/-- The simple name of the second begins with a digit, so it could not be given to a class. -/
theorem nested_names_come_apart :
    (checkClassName (qualify "a.b" "C") = .ok () ∧
      packageOf (qualify "a.b" "C") = "a.b" ∧ simpleNameOf (qualify "a.b" "C") = "C") ∧
    checkIdentifier (simpleNameOf "a.1b") ≠ .ok () ∧
    checkPackageName (packageOf "a.1b") = .ok () ∧
    qualify (packageOf "a.1b") (simpleNameOf "a.1b") = "a.1b" := by
  obtain ⟨hjoined, -, hapart⟩ := qualified_names_come_apart
  obtain ⟨hpackage, -, -, hname⟩ := hapart "a.1b" (by decide +kernel)
  exact ⟨hjoined "a.b" "C" (by decide +kernel) (by decide +kernel), by decide +kernel, hpackage, hname⟩

end Name

namespace Text

/-! ## Blanks at both ends -/

/-- The second text is what is left of the first when all blanks are cut off at both ends. -/
structure TrimsTo (text core : String) : Prop where
  cut : ∃ front back : List Char, text.toList = front ++ core.toList ++ back ∧
    (∀ c ∈ front, isBlank c = true) ∧ ∀ c ∈ back, isBlank c = true
  head : ∀ c, core.toList.head? = some c → isBlank c = false
  last : ∀ c, core.toList.getLast? = some c → isBlank c = false

theorem trimsTo_trim (text : String) : TrimsTo text (trim text) := by
  have hcore : (trim text).toList = trimChars text.toList := String.toList_ofList
  refine ⟨⟨text.toList.takeWhile isBlank, (text.toList.dropWhile isBlank).rtakeWhile isBlank, ?_,
    fun c hc => List.mem_takeWhile_imp hc, fun c hc => List.mem_rtakeWhile_imp hc⟩, fun c hc => ?_, fun c hc => ?_⟩
  · rw [hcore, trimChars_eq, List.append_assoc, List.rdropWhile_append_rtakeWhile, List.takeWhile_append_dropWhile]
  · exact trimChars_head (hcore ▸ hc)
  · exact trimChars_last (hcore ▸ hc)

theorem trimsTo_iff {text core : String} : TrimsTo text core ↔ core = trim text := by
  constructor
  · rintro ⟨⟨front, back, htext, hfront, hback⟩, hhead, hlast⟩
    apply String.toList_injective
    rw [trim, String.toList_ofList, htext, trimChars_between hfront hback hhead hlast]
  · rintro rfl
    exact trimsTo_trim text

end Text

namespace Import

open Text

/-! ## Imports -/

/-- Exactly that is read whose text is what is left without the blanks, if its name is a class name. -/
theorem parse_eq_ok_iff {t : String} {i : Import} : parse t = .ok i ↔ i.text = trim t ∧ Name.IsClassName i.path := by
  constructor
  · exact of_parse
  · rintro ⟨htext, hpath⟩
    rw [← parse_trim, ← htext]
    exact parse_text_of_path hpath

/-- Without the blanks around it, the text of an import is a class name or one with a star, and it is read as what
it is and written as it was. -/
theorem imports_read_and_written (t : String) :
    (∀ core, TrimsTo t core ↔ core = trim t) ∧
    (∀ path, parse t = .ok (.single path) ↔ path = trim t ∧ Name.checkClassName path = .ok ()) ∧
    (∀ path, parse t = .ok (.onDemand path) ↔ path ++ ".*" = trim t ∧ Name.checkClassName path = .ok ()) ∧
    ¬ (Name.checkClassName (trim t) = .ok () ∧
      ∃ path, path ++ ".*" = trim t ∧ Name.checkClassName path = .ok ()) ∧
    ∀ i, parse t = .ok i → i.text = trim t ∧ parse i.text = .ok i ∧ ∀ u, trim u ≠ trim t → parse u ≠ .ok i := by
  simp only [Name.checkClassName_ok]
  refine ⟨fun core => trimsTo_iff, fun path => parse_eq_ok_iff, fun path => parse_eq_ok_iff, ?_, fun i hi => ?_⟩
  · rintro ⟨hname, path, htext, hpath⟩
    have hsingle : parse t = .ok (.single (trim t)) := parse_eq_ok_iff.mpr ⟨rfl, hname⟩
    have honDemand : parse t = .ok (.onDemand path) := parse_eq_ok_iff.mpr ⟨htext, hpath⟩
    rw [hsingle] at honDemand
    cases honDemand
  · refine ⟨text_of_parse hi, parse_text hi, fun u hne hu => hne ?_⟩
    rw [← text_of_parse hu, text_of_parse hi]

example : parse "\t a.b.* \n" = .ok (.onDemand "a.b") := by decide +kernel

end Import

end ClassModel
