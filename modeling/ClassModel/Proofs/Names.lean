import ClassModel.Import
import ClassModel.Settings
import Mathlib.Data.List.DropRight

/-!
# Well-formed names

The checks of names as properties of texts, and what the rest of the library needs of them: there is
no blank in a name; a digit may stand anywhere but in front, so settings that pass their check give
every member a good name; an import reads back from its own text, for only blanks at its ends are cut
off; and a class name is joined again from its two parts.
-/

namespace ClassModel

namespace Text

def blankPoints : List Nat :=
  [9, 10, 11, 12, 13, 0x20, 0x85, 0xa0, 0x1680, 0x2000, 0x2001, 0x2002, 0x2003, 0x2004, 0x2005, 0x2006, 0x2007,
    0x2008, 0x2009, 0x200a, 0x2028, 0x2029, 0x202f, 0x205f, 0x3000]

theorem mem_blankPoints {c : Char} (h : isBlank c = true) : c.toNat ∈ blankPoints := by
  simp only [isBlank, Bool.or_eq_true, Bool.and_eq_true, decide_eq_true_eq, beq_iff_eq] at h
  generalize c.toNat = n at h ⊢
  -- The two runs are counted from their first point, all else is one point each.
  have hcontrols : ∀ k < 5, 9 + k ∈ blankPoints := by decide
  have hspaces : ∀ k < 11, 0x2000 + k ∈ blankPoints := by decide
  rcases h with (((((((((h | rfl) | rfl) | rfl) | rfl) | h) | rfl) | rfl) | rfl) | rfl) | rfl
  · have hn := hcontrols (n - 9) (by omega)
    rwa [show 9 + (n - 9) = n by omega] at hn
  · decide
  · decide
  · decide
  · decide
  · have hn := hspaces (n - 0x2000) (by omega)
    rwa [show 0x2000 + (n - 0x2000) = n by omega] at hn
  all_goals decide

theorem not_isBlank_of {p : Char → Bool} (hblanks : ∀ n ∈ blankPoints, p (Char.ofNat n) = false) {c : Char}
    (h : p c = true) : isBlank c = false := by
  refine Bool.eq_false_iff.mpr fun hb => ?_
  have hp := hblanks c.toNat (mem_blankPoints hb)
  rw [Char.ofNat_toNat, h] at hp
  cases hp

end Text

namespace Name

open Text

def IsClassName (name : String) : Prop := fault? name.toList = none

def IsIdentifier (name : String) : Prop := IsClassName name ∧ '.' ∉ name.toList

def IsPackageName (name : String) : Prop := name = "" ∨ IsClassName name

instance (name : String) : Decidable (IsClassName name) := inferInstanceAs (Decidable (_ = none))

instance (name : String) : Decidable (IsIdentifier name) := inferInstanceAs (Decidable (_ ∧ _))

instance (name : String) : Decidable (IsPackageName name) := inferInstanceAs (Decidable (_ ∨ _))

theorem checkClassName_ok {name : String} : checkClassName name = .ok () ↔ IsClassName name := by
  unfold checkClassName IsClassName
  cases fault? name.toList <;> simp

theorem checkIdentifier_ok {name : String} : checkIdentifier name = .ok () ↔ IsIdentifier name := by
  unfold checkIdentifier IsIdentifier IsClassName
  cases fault? name.toList with
  | some f => simp
  | none => by_cases h : '.' ∈ name.toList <;> simp [h]

theorem checkPackageName_ok {name : String} : checkPackageName name = .ok () ↔ IsPackageName name := by
  unfold checkPackageName IsPackageName
  by_cases h : name = ""
  · simp [h]
  · have he : name.isEmpty = false := by simpa using h
    simp [h, he, checkClassName_ok]

/-! ## Characters -/

theorem faultBehind_chars : ∀ {cs : List Char} {prev : Char}, faultBehind prev cs = none →
    ∀ c ∈ cs, isIdentifierPart c = true ∨ c = '.'
  | [], _, _ => by simp
  | c :: cs, prev, h => by
    unfold faultBehind at h
    by_cases hdot : c = '.'
    · rw [if_pos hdot] at h
      split at h
      · cases h
      · exact List.forall_mem_cons.mpr ⟨.inr hdot, faultBehind_chars h⟩
    · rw [if_neg hdot] at h
      split at h
      · rename_i hpart
        exact List.forall_mem_cons.mpr ⟨.inl hpart, faultBehind_chars h⟩
      · cases h

theorem IsClassName.chars {name : String} (h : IsClassName name) :
    ∀ c ∈ name.toList, isIdentifierPart c = true ∨ c = '.' := by
  unfold IsClassName at h
  cases hcs : name.toList with
  | nil => simp
  | cons c cs =>
    rw [hcs, fault?] at h
    split at h
    · rename_i hstart
      exact List.forall_mem_cons.mpr ⟨.inl (isIdentifierPart_of_start hstart), faultBehind_chars h⟩
    · cases h

theorem not_isBlank_of_part {c : Char} (h : isIdentifierPart c = true) : isBlank c = false :=
  not_isBlank_of (by decide +kernel) h

theorem IsClassName.not_isBlank {name : String} (h : IsClassName name) : ∀ c ∈ name.toList, isBlank c = false := by
  intro c hc
  rcases h.chars c hc with hpart | rfl
  · exact not_isBlank_of_part hpart
  · rfl

/-! ## Digits -/

theorem isIdentifierPart_digit {c : Char} (h : c.isDigit = true) : isIdentifierPart c = true := by
  have hc : 48 ≤ c.toNat ∧ c.toNat ≤ 57 := by
    simp only [Char.isDigit, Bool.and_eq_true, decide_eq_true_eq] at h
    exact ⟨UInt32.le_iff_toNat_le.mp h.1, UInt32.le_iff_toNat_le.mp h.2⟩
  have all : ∀ n < 10, isIdentifierPart (Char.ofNat (48 + n)) = true := by decide +kernel
  have hn := all (c.toNat - 48) (by omega)
  rwa [show 48 + (c.toNat - 48) = c.toNat by omega, Char.ofNat_toNat] at hn

theorem ne_dot_of_part {c : Char} (h : isIdentifierPart c = true) : c ≠ '.' := by
  intro e; subst e; rw [isIdentifierPart_dot] at h; cases h

theorem not_start_zero : isIdentifierStart '0' = false := by decide +kernel

theorem faultBehind_parts : ∀ {ds : List Char} {prev : Char}, prev ≠ '.' →
    (∀ d ∈ ds, isIdentifierPart d = true) → faultBehind prev ds = none
  | [], prev, hp, _ => by simp [faultBehind, hp]
  | d :: ds, prev, _, hd => by
    have hpart := hd d (by simp)
    have hdot := ne_dot_of_part hpart
    simp only [faultBehind, hdot, if_false, hpart, if_true]
    exact faultBehind_parts hdot fun e he => hd e (by simp [he])

/-- Behind the same front, one run of identifier characters is as good as another. -/
theorem faultBehind_append_parts {ds es : List Char} (hds : ds ≠ []) (hes : es ≠ [])
    (hd : ∀ d ∈ ds, isIdentifierPart d = true) (he : ∀ e ∈ es, isIdentifierPart e = true) :
    ∀ (cs : List Char) (prev : Char),
      faultBehind prev (cs ++ ds) = none → faultBehind prev (cs ++ es) = none
  | [], prev, _ => by
    cases es with
    | nil => exact absurd rfl hes
    | cons e es =>
      have hpart := he e (by simp)
      have hdot := ne_dot_of_part hpart
      simp only [List.nil_append, faultBehind, hdot, if_false, hpart, if_true]
      exact faultBehind_parts hdot fun e' h' => he e' (by simp [h'])
  | c :: cs, prev, h => by
    simp only [List.cons_append, faultBehind] at h ⊢
    split at h
    · split at h
      · cases h
      · rename_i hc hp
        simp only [hc, if_true, hp, if_false]
        exact faultBehind_append_parts hds hes hd he cs _ (hc ▸ h)
    · split at h
      · rename_i hc hp
        simp only [hc, if_false, hp, if_true]
        exact faultBehind_append_parts hds hes hd he cs _ h
      · cases h

theorem faultBehind_append_dot {ds : List Char} (hd : fault? ds = none) :
    ∀ (cs : List Char) {prev : Char}, faultBehind prev cs = none → faultBehind prev (cs ++ '.' :: ds) = none
  | [], prev, h => by
    have hprev : prev ≠ '.' := fun e => by simp [faultBehind, e] at h
    cases ds with
    | nil => cases hd
    | cons d ds =>
      simp only [fault?] at hd
      split at hd
      · rename_i hstart
        have hpart := isIdentifierPart_of_start hstart
        have hdot := ne_dot_of_part hpart
        simp only [List.nil_append, faultBehind, if_true, hprev, if_false, hdot, hpart, hd]
      · cases hd
  | c :: cs, prev, h => by
    simp only [List.cons_append, faultBehind] at h ⊢
    split at h
    · split at h
      · cases h
      · rename_i hc hp
        simp only [hc, if_true, hp, if_false]
        exact faultBehind_append_dot hd cs (hc ▸ h)
    · split at h
      · rename_i hc hp
        simp only [hc, if_false, hp, if_true]
        exact faultBehind_append_dot hd cs h
      · cases h

/-- The class of a package that may exist is named as a class may be. -/
theorem isClassName_qualify {package simpleName : String} (hp : IsPackageName package)
    (hs : IsIdentifier simpleName) : IsClassName (qualify package simpleName) := by
  unfold qualify
  by_cases he : package = ""
  · subst he; exact hs.1
  · have hp : IsClassName package := hp.resolve_left he
    rw [if_neg (by simpa using he)]
    unfold IsClassName at hp ⊢
    have hdot : (".").toList = ['.'] := rfl
    rw [String.toList_append, String.toList_append, hdot]
    cases hcs : package.toList with
    | nil => rw [hcs] at hp; cases hp
    | cons c cs =>
      rw [hcs] at hp
      simp only [fault?, List.cons_append, List.append_assoc, List.nil_append] at hp ⊢
      split at hp
      · rename_i hstart
        rw [if_pos hstart]
        exact faultBehind_append_dot hs.1 cs hp
      · cases hp

theorem toDigits_parts (n : Nat) : ∀ d ∈ Nat.toDigits 10 n, isIdentifierPart d = true := fun _ hd =>
  isIdentifierPart_digit (Nat.isDigit_of_mem_toDigits (by decide) (by decide) hd)

theorem toDigits_ne_nil (n : Nat) : Nat.toDigits 10 n ≠ [] := by
  have := Nat.length_toDigits_pos (b := 10) (n := n)
  intro h; simp [h] at this

end Name

namespace Settings

open Name

theorem memberName_toList (s : Settings) (n : Nat) :
    (s.memberName n).toList = s.defaultMemberPrefix.toList ++ Nat.toDigits 10 n := by
  rw [memberName, String.toList_append]
  congr 1
  exact Nat.toList_repr

theorem memberName_injective (s : Settings) : Function.Injective s.memberName := fun m n h => by
  have hchars := congrArg String.toList h
  rw [memberName_toList, memberName_toList] at hchars
  have hvalue := congrArg (Nat.ofDigitChars 10 · 0) (List.append_cancel_left hchars)
  simpa only [Nat.ofDigitChars_toDigits (b := 10) (by decide) (by decide)] using hvalue

/-- Checking a prefix with the first number behind it covers every number. -/
theorem memberName_isIdentifier {s : Settings} (h : IsIdentifier (s.memberName 0)) (n : Nat) :
    IsIdentifier (s.memberName n) := by
  obtain ⟨hname, hdot⟩ := h
  unfold IsIdentifier IsClassName at *
  rw [memberName_toList] at hname hdot ⊢
  have hzero : Nat.toDigits 10 0 = ['0'] := rfl
  rw [hzero] at hname hdot
  constructor
  · cases hp : s.defaultMemberPrefix.toList with
    | nil => simp [hp, fault?, not_start_zero] at hname
    | cons c cs =>
      rw [hp] at hname
      simp only [List.cons_append, fault?] at hname ⊢
      split at hname
      · rename_i hc
        simp only [hc, if_true]
        exact faultBehind_append_parts (by simp) (toDigits_ne_nil n) (toDigits_parts 0) (toDigits_parts n)
          cs c hname
      · cases hname
  · simp only [List.mem_append, not_or] at hdot ⊢
    exact ⟨hdot.1, fun hd => ne_dot_of_part (toDigits_parts n _ hd) rfl⟩

theorem checkNames_ok : ∀ {names : List (Key × String)},
    checkNames names = .ok () ↔ ∀ kn ∈ names, IsClassName kn.2
  | [] => by simp [checkNames]
  | (key, name) :: rest => by
    rw [checkNames, List.forall_mem_cons, ← checkClassName_ok, ← @checkNames_ok rest]
    cases checkClassName name <;> simp

structure Sound (s : Settings) : Prop where
  rootClass : IsClassName s.rootClass
  defaultFieldType : IsClassName s.defaultFieldType
  defaultReturnType : IsClassName s.defaultReturnType
  defaultPackages : ∀ p ∈ s.defaultPackages, IsClassName p
  memberName : ∀ n, IsIdentifier (s.memberName n)

theorem check_eq_ok_iff {s : Settings} : s.check = .ok () ↔
    checkNames s.classNames = .ok () ∧ checkIdentifier (s.memberName 0) = .ok () := by
  unfold check
  cases checkNames s.classNames <;> cases checkIdentifier (s.memberName 0) <;> simp

theorem check_ok {s : Settings} : s.check = .ok () ↔ s.Sound := by
  have hnames : checkNames s.classNames = .ok () ↔ IsClassName s.rootClass ∧ IsClassName s.defaultFieldType ∧
      IsClassName s.defaultReturnType ∧ ∀ p ∈ s.defaultPackages, IsClassName p := by
    rw [checkNames_ok]; simp [classNames]
  rw [check_eq_ok_iff, hnames, checkIdentifier_ok]
  constructor
  · rintro ⟨⟨hr, hf, ht, hp⟩, h0⟩
    exact ⟨hr, hf, ht, hp, memberName_isIdentifier h0⟩
  · intro h
    exact ⟨⟨h.rootClass, h.defaultFieldType, h.defaultReturnType, h.defaultPackages⟩, h.memberName 0⟩

theorem standard_sound : Sound standard :=
  check_ok.mp (by decide +kernel)

end Settings

namespace Text

/-! ## Blanks at both ends -/

theorem trimChars_eq (cs : List Char) : trimChars cs = (cs.dropWhile isBlank).rdropWhile isBlank := rfl

theorem not_isBlank_head (cs : List Char) {c : Char} (h : (cs.dropWhile isBlank).head? = some c) :
    isBlank c = false := by
  have hnot := List.head?_dropWhile_not isBlank cs
  rwa [h] at hnot

theorem dropWhile_of_head {cs : List Char} (h : ∀ c, cs.head? = some c → isBlank c = false) :
    cs.dropWhile isBlank = cs := by
  cases cs with
  | nil => rfl
  | cons c cs => exact List.dropWhile_cons_of_neg (by simp [h c rfl])

theorem trimChars_between {front core back : List Char} (hfront : ∀ c ∈ front, isBlank c = true)
    (hback : ∀ c ∈ back, isBlank c = true) (hhead : ∀ c, core.head? = some c → isBlank c = false)
    (hlast : ∀ c, core.getLast? = some c → isBlank c = false) : trimChars (front ++ core ++ back) = core := by
  unfold trimChars
  rw [List.append_assoc, List.dropWhile_append_of_pos hfront]
  cases core with
  | nil =>
    -- All is blank, so the first pass has taken it off already.
    rw [List.nil_append, List.dropWhile_eq_nil_iff.mpr hback]
    rfl
  | cons c cs =>
    have hkeep : (c :: cs ++ back).dropWhile isBlank = c :: cs ++ back := dropWhile_of_head fun d hd => hhead d hd
    have hreversed : ((c :: cs).reverse).dropWhile isBlank = (c :: cs).reverse :=
      dropWhile_of_head fun d hd => hlast d (by rwa [List.head?_reverse] at hd)
    rw [hkeep, List.reverse_append, List.dropWhile_append_of_pos (by simpa using hback), hreversed,
      List.reverse_reverse]

theorem trimChars_of_bare {cs : List Char} (hhead : ∀ c, cs.head? = some c → isBlank c = false)
    (hlast : ∀ c, cs.getLast? = some c → isBlank c = false) : trimChars cs = cs := by
  simpa using @trimChars_between [] cs [] nofun nofun hhead hlast

theorem trimChars_eq_self {cs : List Char} (h : ∀ c ∈ cs, isBlank c = false) : trimChars cs = cs :=
  trimChars_of_bare (fun c hc => h c (List.mem_of_head? hc)) fun c hc => h c (List.mem_of_getLast? hc)

theorem trimChars_head {cs : List Char} {c : Char} (h : (trimChars cs).head? = some c) : isBlank c = false := by
  obtain ⟨more, hm⟩ := List.rdropWhile_prefix isBlank (l := cs.dropWhile isBlank)
  refine not_isBlank_head cs ?_
  rw [← hm, List.head?_append, ← trimChars_eq, h]
  rfl

theorem trimChars_last {cs : List Char} {c : Char} (h : (trimChars cs).getLast? = some c) : isBlank c = false := by
  rw [trimChars, List.getLast?_reverse] at h
  exact not_isBlank_head _ h

theorem trimChars_trimChars (cs : List Char) : trimChars (trimChars cs) = trimChars cs :=
  trimChars_of_bare (fun _ => trimChars_head) fun _ => trimChars_last

theorem trim_trim (t : String) : trim (trim t) = trim t := by
  unfold trim
  rw [String.toList_ofList, trimChars_trimChars]

end Text

namespace Import

open Text

theorem beforeStar?_eq_some {cs front : List Char} (h : beforeStar? cs = some front) :
    cs = front ++ ['.', '*'] := by
  unfold beforeStar? at h
  split at h
  · rename_i rest hr
    cases h
    have := congrArg List.reverse hr
    simpa using this
  · cases h

/-- What is read spells what is left without the blanks, and names a class or a package. -/
theorem of_parse {t : String} {i : Import} (h : parse t = .ok i) : i.text = trim t ∧ Name.IsClassName i.path := by
  unfold parse at h
  unfold trim
  cases hb : beforeStar? (trimChars t.toList) with
  | some front =>
    simp only [hb] at h
    cases hc : Name.checkClassName (String.ofList front) with
    | error e => simp [hc, Except.map] at h
    | ok u =>
      simp only [hc, Except.map, Except.ok.injEq] at h
      subst h
      refine ⟨?_, Name.checkClassName_ok.mp hc⟩
      rw [beforeStar?_eq_some hb]
      apply String.toList_injective
      simp [text]
  | none =>
    simp only [hb] at h
    cases hc : Name.checkClassName (String.ofList (trimChars t.toList)) with
    | error e => simp [hc, Except.map] at h
    | ok u =>
      simp only [hc, Except.map, Except.ok.injEq] at h
      subst h
      exact ⟨rfl, Name.checkClassName_ok.mp hc⟩

theorem text_of_parse {t : String} {i : Import} (h : parse t = .ok i) : i.text = trim t := (of_parse h).1

theorem parse_trim (t : String) : parse (trim t) = parse t := by
  unfold parse trim
  simp only [String.toList_ofList, trimChars_trimChars]

theorem parse_text {t : String} {i : Import} (h : parse t = .ok i) : parse i.text = .ok i := by
  rw [text_of_parse h, parse_trim, h]

/-- An import of a class name reads back from its text, however it was made. -/
theorem parse_text_of_path {i : Import} (h : Name.IsClassName i.path) : parse i.text = .ok i := by
  cases i with
  | single p =>
    have hp : Name.IsClassName p := h
    have hstar : beforeStar? p.toList = none := by
      rw [Option.eq_none_iff_forall_not_mem]
      intro front hfront
      have hmem : '*' ∈ p.toList := by simp [beforeStar?_eq_some hfront]
      have hstar : isIdentifierPart '*' = false := by decide +kernel
      rcases hp.chars _ hmem with hpart | hdot
      · rw [hstar] at hpart
        cases hpart
      · exact absurd hdot (by decide)
    have hcheck := Name.checkClassName_ok.mpr hp
    simp [parse, text, trimChars_eq_self hp.not_isBlank, hstar, hcheck, Except.map]
  | onDemand p =>
    have hp : Name.IsClassName p := h
    have hblank : ∀ c ∈ p.toList ++ ['.', '*'], isBlank c = false := by
      intro c hc
      rcases List.mem_append.mp hc with hc | hc
      · exact hp.not_isBlank c hc
      · rcases List.mem_cons.mp hc with rfl | hc
        · decide
        · rw [List.mem_singleton.mp hc]; decide
    have hstar : beforeStar? (p.toList ++ ['.', '*']) = some p.toList := by simp [beforeStar?]
    have hcheck := Name.checkClassName_ok.mpr hp
    simp [parse, text, trimChars_eq_self hblank, hstar, hcheck, Except.map]

theorem parseAll_ok : ∀ {ts : List String} {is : List Import},
    parseAll ts = .ok is ↔ List.Forall₂ (fun t i => parse t = .ok i) ts is
  | [], is => by
    simp only [parseAll, Except.ok.injEq]
    constructor
    · rintro rfl; exact .nil
    · intro h; cases h; rfl
  | t :: ts, is => by
    rw [parseAll]
    constructor
    · intro h
      cases hp : parse t with
      | error e => simp [hp] at h
      | ok i =>
        simp only [hp] at h
        cases hr : parseAll ts with
        | error e => simp [hr, Except.map] at h
        | ok js =>
          simp only [hr, Except.map, Except.ok.injEq] at h
          subst h
          exact .cons hp (parseAll_ok.mp hr)
    · intro h
      cases h with
      | cons hp hr => simp [hp, parseAll_ok.mpr hr, Except.map]

theorem exists_parseAll_iff : ∀ {ts : List String},
    (∃ is, parseAll ts = .ok is) ↔ ∀ t ∈ ts, ∃ i, parse t = .ok i
  | [] => by simp [parseAll]
  | t :: ts => by
    rw [List.forall_mem_cons, ← @exists_parseAll_iff ts]
    simp only [parseAll_ok]
    constructor
    · rintro ⟨is, h⟩
      cases h with
      | cons hp hr => exact ⟨⟨_, hp⟩, ⟨_, hr⟩⟩
    · rintro ⟨⟨i, hp⟩, ⟨is, hr⟩⟩
      exact ⟨i :: is, .cons hp hr⟩

end Import

namespace Name

/-! ## Joining and splitting -/

theorem splitAtLastDot_some : ∀ {cs front back : List Char},
    splitAtLastDot cs = some (front, back) → cs = front ++ '.' :: back
  | c :: cs, front, back, h => by
    rw [splitAtLastDot] at h
    cases hs : splitAtLastDot cs with
    | some fb =>
      simp only [hs, Option.some.injEq, Prod.mk.injEq] at h
      obtain ⟨rfl, rfl⟩ := h
      rw [splitAtLastDot_some hs]; rfl
    | none =>
      simp only [hs] at h
      split at h
      · rename_i hc
        cases h; subst hc; rfl
      · cases h

/-- Only a dot in front of everything is lost when a name is taken apart. -/
theorem qualify_of_front {name : String} (h : ∀ back, splitAtLastDot name.toList ≠ some ([], back)) :
    qualify (packageOf name) (simpleNameOf name) = name := by
  cases hs : splitAtLastDot name.toList with
  | none => simp [packageOf, simpleNameOf, hs, qualify]
  | some fb =>
    obtain ⟨front, back⟩ := fb
    have hfront : front ≠ [] := by
      rintro rfl
      exact h back hs
    have hne : (String.ofList front).isEmpty = false := by
      simpa [String.ext_iff] using hfront
    simp only [packageOf, simpleNameOf, hs, qualify, hne]
    apply String.toList_injective
    simp [splitAtLastDot_some hs]

theorem qualify_of_packageOf {name : String} (h : packageOf name ≠ "") :
    qualify (packageOf name) (simpleNameOf name) = name := by
  refine qualify_of_front fun back hs => h ?_
  simp [packageOf, hs]

theorem qualify_packageOf_simpleNameOf {name : String} (h : IsClassName name) :
    qualify (packageOf name) (simpleNameOf name) = name := by
  refine qualify_of_front fun back hs => ?_
  unfold IsClassName at h
  rw [splitAtLastDot_some hs, List.nil_append, fault?, if_neg] at h
  · cases h
  · decide +kernel

end Name

end ClassModel
