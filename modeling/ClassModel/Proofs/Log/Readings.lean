import ClassModel.Proofs.Log.Filters
import ClassModel.Proofs.Names

/-!
# How preferences are read

Preferences become text, and the text is read as a filter. The pieces of the text are read one by one, so the
filter is put together from what the level of the preferences is read as and what each target is. A target
without a comma is one directive with its level; one with commas is several.
-/

namespace ClassModel.Log

/-! ## Spelling a level -/

namespace Level

def spellings : Level → List String
  | warn => ["warn", "warning"]
  | l => [l.word]

/-- In any case, with any blanks around. -/
def Spelled (l : Level) (text : String) : Prop := (Text.trim text).map Char.toLower ∈ l.spellings

instance (l : Level) (text : String) : Decidable (l.Spelled text) := inferInstanceAs (Decidable (_ ∈ _))

theorem toLower_toLower (c : Char) : c.toLower.toLower = c.toLower := by
  unfold Char.toLower
  grind

theorem ofWord?_eq_some_iff {s : String} {l : Level} : ofWord? s = some l ↔ s.map Char.toLower = l.word := by
  unfold ofWord?
  constructor
  · intro h
    have hl := List.find?_some h
    exact (beq_iff_eq.mp hl).symm
  · intro h
    rw [h]
    cases l <;> decide

theorem isDigit_of_digitsValue? {cs : List Char} {n : Nat} (h : digitsValue? cs = some n) :
    ∀ c ∈ cs, c.isDigit = true := by
  unfold digitsValue? at h
  by_cases hcs : cs.all Char.isDigit = true
  · exact List.all_eq_true.mp hcs
  · simp [hcs] at h

theorem notMem_equals {text : String} {l : Level} (h : ofText? text = some l) : '=' ∉ text.toList := by
  intro hmem
  rcases Option.or_eq_some_iff.mp h with hn | ⟨-, hw⟩
  · -- Only a plus sign may stand before the digits of a number.
    obtain ⟨n, hn, -⟩ := Option.bind_eq_some_iff.mp hn
    have hdigits := isDigit_of_digitsValue? hn
    split at hdigits
    · rename_i rest he
      rw [he] at hmem
      have hrest : '=' ∈ rest := by simpa using hmem
      exact absurd (hdigits _ hrest) (by decide)
    · exact absurd (hdigits _ hmem) (by decide)
  · have hlower : '=' ∈ (text.map Char.toLower).toList := by
      rw [String.toList_map]
      exact List.mem_map.mpr ⟨'=', hmem, by decide⟩
    rw [ofWord?_eq_some_iff.mp hw] at hlower
    revert hlower
    cases l <;> decide

end Level

theorem plainLevel?_eq_some_iff {text : String} {l : Level} : plainLevel? text = some l ↔ l.Spelled text := by
  unfold plainLevel? Level.Spelled
  have hlower : ((Text.trim text).map Char.toLower).map Char.toLower = (Text.trim text).map Char.toLower := by
    rw [String.map_map]
    exact congrArg (String.map · _) (funext Level.toLower_toLower)
  generalize (Text.trim text).map Char.toLower = word at hlower ⊢
  dsimp only
  by_cases hword : word = "warning"
  · rw [if_pos hword, hword]
    cases l <;> decide
  · rw [if_neg hword, Level.ofWord?_eq_some_iff, hlower]
    cases l <;> simp [Level.spellings, hword, Level.word]

theorem plainLevel?_trim (text : String) : plainLevel? (Text.trim text) = plainLevel? text := by
  unfold plainLevel?
  rw [Text.trim_trim]

/-! ## Reading a piece -/

/-- A text that is read as a target if a level follows. -/
def IsTarget (key : String) : Prop :=
  key.toList.head?.any Directive.beginsWell = true ∧ ',' ∉ key.toList ∧ '=' ∉ key.toList ∧ '[' ∉ key.toList

instance (key : String) : Decidable (IsTarget key) := inferInstanceAs (Decidable (_ ∧ _))

namespace Directive

theorem not_isBlank_of_beginsWell {c : Char} (h : beginsWell c = true) : Text.isBlank c = false :=
  Text.not_isBlank_of (by decide +kernel) h

def isTargetChar (c : Char) : Bool := c != '=' && c != '['

theorem ofPiece?_eq_some {cs : List Char} {d : Directive} (h : ofPiece? cs = some d) :
    cs.dropWhile isTargetChar = [] ∨ ∃ level, cs.dropWhile isTargetChar = '=' :: level ∧
      ofPair? (String.ofList (cs.takeWhile isTargetChar)) level = some d := by
  unfold ofPiece? at h
  split at h
  · cases h
  · split at h
    · cases h
    · dsimp only at h
      split at h
      · rename_i hdrop
        exact .inl hdrop
      · rename_i level hdrop
        split at h
        · exact .inr ⟨level, hdrop, h⟩
        · cases h
      · cases h

section
variable {t : List Char} {l : Level}

theorem ofPair?_word (target : String) (l : Level) : ofPair? target l.word.toList = some ⟨some target, l⟩ := by
  unfold ofPair?
  rw [String.ofList_toList, Level.ofText?_word]
  cases l <;> rfl

theorem notMem_equals_of_ofPair? {target : String} {level : List Char} {d : Directive}
    (h : ofPair? target level = some d) : '=' ∉ level := by
  unfold ofPair? at h
  cases level with
  | nil => simp
  | cons c cs =>
    obtain ⟨l, hl, -⟩ := Option.map_eq_some_iff.mp h
    have hequals := Level.notMem_equals hl
    rwa [String.toList_ofList] at hequals

theorem takeWhile_pair (ht : ∀ c ∈ t, isTargetChar c = true) (level : List Char) :
    (t ++ '=' :: level).takeWhile isTargetChar = t := by
  rw [List.takeWhile_append_of_pos ht]
  simp [isTargetChar]

theorem dropWhile_pair (ht : ∀ c ∈ t, isTargetChar c = true) (level : List Char) :
    (t ++ '=' :: level).dropWhile isTargetChar = '=' :: level := by
  rw [List.dropWhile_append_of_pos ht]
  simp [isTargetChar]

theorem ofPiece?_pair {c : Char} (hhead : t.head? = some c) (hc : beginsWell c = true)
    (ht : ∀ d ∈ t, isTargetChar d = true) :
    ofPiece? (t ++ '=' :: l.word.toList) = some ⟨some (String.ofList t), l⟩ := by
  have hblank := not_isBlank_of_beginsWell hc
  have htake := takeWhile_pair ht l.word.toList
  have hdrop := dropWhile_pair ht l.word.toList
  unfold isTargetChar at htake hdrop
  cases t with
  | nil => cases hhead
  | cons d t =>
    cases hhead
    unfold ofPiece?
    rw [htake, hdrop]
    simp [hblank, hc, ofPair?_word]

/-- A piece that ends in an equals sign and a level is about what stands before them, if it is about anything. -/
theorem eq_of_ofPiece?_pair {d : Directive} (h : ofPiece? (t ++ '=' :: l.word.toList) = some d) :
    d = ⟨some (String.ofList t), l⟩ := by
  by_cases ht : ∀ c ∈ t, isTargetChar c = true
  · rcases ofPiece?_eq_some h with hdrop | ⟨level, hdrop, hd⟩
    · rw [dropWhile_pair ht] at hdrop
      cases hdrop
    · rw [dropWhile_pair ht] at hdrop
      cases hdrop
      rw [takeWhile_pair ht, ofPair?_word] at hd
      cases hd
      rfl
  · -- The first equals sign or bracket stands in `t`, so an equals sign is left for the level.
    have hne : t.dropWhile isTargetChar ≠ [] := fun he => ht (List.dropWhile_eq_nil_iff.mp he)
    obtain ⟨c, cs, hcs⟩ := List.exists_cons_of_ne_nil hne
    have hdrop : (t ++ '=' :: l.word.toList).dropWhile isTargetChar = c :: (cs ++ '=' :: l.word.toList) := by
      rw [List.dropWhile_append, hcs]
      simp
    rcases ofPiece?_eq_some h with hnil | ⟨level, hlevel, hd⟩
    · rw [hdrop] at hnil
      cases hnil
    · rw [hdrop] at hlevel
      cases hlevel
      exact absurd (by simp) (notMem_equals_of_ofPair? hd)

end

end Directive

namespace Filter

theorem pieces_of_notMem {cs : List Char} (h : ',' ∉ cs) : pieces cs = [cs] := by
  induction cs with
  | nil => rfl
  | cons c cs ih =>
    simp only [List.mem_cons, not_or] at h
    rw [pieces, ih h.2]
    simp [Ne.symm h.1]

variable {t : String} {l : Level}

theorem parse?_pair (ht : ',' ∉ t.toList) :
    parse? (t ++ "=" ++ l.word) = (Directive.ofPiece? (t.toList ++ '=' :: l.word.toList)).map fun d => [d] := by
  have hchars : (t ++ "=" ++ l.word).toList = t.toList ++ '=' :: l.word.toList := by simp
  have hword : ',' ∉ l.word.toList := by cases l <;> decide
  have hcomma : ',' ∉ t.toList ++ '=' :: l.word.toList := by simp [ht, hword]
  unfold parse?
  rw [hchars, pieces_of_notMem hcomma]
  cases hd : Directive.ofPiece? (t.toList ++ '=' :: l.word.toList) <;> simp [ofPieces?, hd]

theorem parse?_target (ht : IsTarget t) : parse? (t ++ "=" ++ l.word) = some [⟨some t, l⟩] := by
  obtain ⟨hwell, hcomma, hequals, hbracket⟩ := ht
  obtain ⟨c, hhead, hc⟩ := (Option.any_eq_true _ _).mp hwell
  have hchars : ∀ d ∈ t.toList, Directive.isTargetChar d = true := by
    intro d hd
    have he : d ≠ '=' := fun he => hequals (he ▸ hd)
    have hb : d ≠ '[' := fun hb => hbracket (hb ▸ hd)
    simp [Directive.isTargetChar, he, hb]
  rw [parse?_pair hcomma, Directive.ofPiece?_pair hhead hc hchars, String.ofList_toList]
  rfl

theorem eq_of_parse?_pair {f : Filter} (ht : ',' ∉ t.toList) (h : parse? (t ++ "=" ++ l.word) = some f) :
    f = [⟨some t, l⟩] := by
  rw [parse?_pair ht] at h
  obtain ⟨d, hd, rfl⟩ := Option.map_eq_some_iff.mp h
  rw [Directive.eq_of_ofPiece?_pair hd, String.ofList_toList]

end Filter

/-! ## Reading preferences -/

namespace Preferences

open Log.Filter

def entryFilter? (entry : String × String) : Option Filter :=
  (plainLevel? entry.2).bind fun l => parse? (entry.1 ++ "=" ++ l.word)

def entriesFilter? : List (String × String) → Option Filter
  | [] => some []
  | e :: es => (entryFilter? e).bind fun f => (entriesFilter? es).map (f ++ ·)

theorem entriesFilter?_append (es es' : List (String × String)) :
    entriesFilter? (es ++ es') = (entriesFilter? es).bind fun f => (entriesFilter? es').map (f ++ ·) := by
  induction es with
  | nil => simp [entriesFilter?]
  | cons e es ih =>
    rw [List.cons_append, entriesFilter?, entriesFilter?, ih]
    cases entryFilter? e <;> cases entriesFilter? es <;> cases entriesFilter? es' <;> simp

theorem parse?_targetTexts {es : List (String × String)} : ∀ {texts : List String} (text : String),
    targetTexts es = .ok texts →
      parse? (text ++ String.join texts) = (parse? text).bind fun f => (entriesFilter? es).map (f ++ ·) := by
  induction es with
  | nil =>
    intro texts text h
    cases h
    simp [entriesFilter?]
  | cons e es ih =>
    obtain ⟨t, s⟩ := e
    intro texts text h
    rw [targetTexts] at h
    cases hl : plainLevel? s with
    | none => rw [hl] at h; cases h
    | some l =>
      rw [hl] at h
      cases hes : targetTexts es with
      | error e => rw [hes] at h; cases h
      | ok rest =>
        rw [hes] at h
        cases h
        have hjoin : text ++ String.join (("," ++ t ++ "=" ++ l.word) :: rest) =
            (text ++ "," ++ (t ++ "=" ++ l.word)) ++ String.join rest := by
          simp [String.append_assoc]
        rw [hjoin, ih _ hes, parse?_comma_eq, entriesFilter?, entryFilter?, hl]
        simp only [Option.bind_some]
        cases parse? text <;> cases parse? (t ++ "=" ++ l.word) <;> cases entriesFilter? es <;> simp

theorem targetTexts_of_entriesFilter? {es : List (String × String)} {f : Filter}
    (h : entriesFilter? es = some f) : ∃ texts, targetTexts es = .ok texts := by
  induction es generalizing f with
  | nil => exact ⟨[], rfl⟩
  | cons e es ih =>
    obtain ⟨t, s⟩ := e
    rw [entriesFilter?] at h
    obtain ⟨g, hg, h⟩ := Option.bind_eq_some_iff.mp h
    obtain ⟨l, hl, -⟩ := Option.bind_eq_some_iff.mp hg
    obtain ⟨g', hg', -⟩ := Option.map_eq_some_iff.mp h
    obtain ⟨texts, htexts⟩ := ih hg'
    exact ⟨("," ++ t ++ "=" ++ l.word) :: texts, by rw [targetTexts, hl, htexts]; rfl⟩

def reading? (p : Preferences) : Option Filter :=
  (parse? p.baseText).bind fun f => (entriesFilter? p.targets).map (f ++ ·)

variable {p : Preferences}

theorem parse?_of_directives {text : String} (h : p.directives = .ok text) :
    ∃ f, parse? text = some f ∧ p.reading? = some f := by
  unfold directives at h
  cases ht : targetTexts p.targets with
  | error e => rw [ht] at h; cases h
  | ok texts =>
    rw [ht] at h
    dsimp only at h
    have hread := parse?_targetTexts p.baseText ht
    cases hf : parse? (p.baseText ++ String.join texts) with
    | none => rw [hf] at h; cases h
    | some f =>
      rw [hf] at h
      cases h
      exact ⟨f, hf, by rw [reading?, ← hread, hf]⟩

theorem directives_of_reading? {f : Filter} (h : p.reading? = some f) :
    ∃ text, p.directives = .ok text ∧ parse? text = some f := by
  obtain ⟨g, hg, hmap⟩ := Option.bind_eq_some_iff.mp h
  obtain ⟨g', hg', -⟩ := Option.map_eq_some_iff.mp hmap
  obtain ⟨texts, ht⟩ := targetTexts_of_entriesFilter? hg'
  have hread := (parse?_targetTexts p.baseText ht).trans h
  exact ⟨_, by rw [directives, ht]; dsimp only; rw [hread], hread⟩

theorem filter_of_reading? {f : Filter} (h : p.reading? = some f) :
    p.filter none = if f = [] then [⟨none, .error⟩] else f := by
  obtain ⟨text, htext, hf⟩ := directives_of_reading? h
  show p.configuredFilter = _
  unfold configuredFilter configuredText
  rw [htext]
  dsimp only
  rw [hf]
  cases f <;> rfl

end Preferences

end ClassModel.Log
