import ClassModel.Log.Preferences

/-!
# Filters put together

A filter that is made of two decides by the longest target of both, and of equally long ones by the
second. The environment's filter is put behind the configured one, so what it says about an event
counts unless the configuration has a longer target for it.
-/

namespace ClassModel.Log

namespace Filter

section
variable {f g : Filter} {event : String} {c d : Directive}

theorem deciding?_eq_none_iff : deciding? f event = none ↔ ∀ d ∈ f, d.appliesTo event = false := by
  induction f with
  | nil => simp [deciding?]
  | cons c f ih =>
    rw [List.forall_mem_cons, ← ih, deciding?]
    cases deciding? f event with
    | some e => simp only [reduceCtorEq, and_false, iff_false]; split <;> simp
    | none => cases c.appliesTo event <;> simp

theorem deciding?_applies (h : deciding? f event = some d) : d ∈ f ∧ d.appliesTo event = true := by
  induction f with
  | nil => cases h
  | cons c f ih =>
    rw [deciding?] at h
    cases hf : deciding? f event with
    | some e =>
      rw [hf] at h
      dsimp only at h
      split at h
      · rename_i hc
        cases h
        exact ⟨List.mem_cons_self, (Bool.and_eq_true_iff.mp hc).1⟩
      · cases h
        exact ⟨List.mem_cons_of_mem _ (ih hf).1, (ih hf).2⟩
    | none =>
      rw [hf] at h
      dsimp only at h
      split at h
      · cases h; exact ⟨List.mem_cons_self, ‹_›⟩
      · cases h

theorem weight_le_of_deciding? (h : deciding? f event = some d) (hc : c ∈ f) (ha : c.appliesTo event = true) :
    c.weight ≤ d.weight := by
  induction f generalizing d with
  | nil => cases hc
  | cons b f ih =>
    rw [deciding?] at h
    cases hf : deciding? f event with
    | some e =>
      rw [hf] at h
      dsimp only at h
      -- `b` decides only if it weighs more than what decides behind it
      rcases List.mem_cons.mp hc with rfl | hc
      · split at h
        · cases h; exact Nat.le_refl _
        · rename_i hw
          cases h
          simpa [ha] using hw
      · have hle := ih hf hc
        split at h
        · rename_i hw
          cases h
          simp only [Bool.and_eq_true, decide_eq_true_eq] at hw
          omega
        · cases h; exact hle
    | none =>
      rw [hf] at h
      rcases List.mem_cons.mp hc with rfl | hc
      · dsimp only at h
        rw [if_pos ha] at h
        cases h
        exact Nat.le_refl _
      · rw [deciding?_eq_none_iff.mp hf c hc] at ha
        cases ha

/-- Of two filters the second decides, unless the first has a longer target. -/
theorem deciding?_append (f g : Filter) (event : String) : deciding? (f ++ g) event =
    match deciding? f event, deciding? g event with
    | some c, some d => if d.weight < c.weight then some c else some d
    | some c, none => some c
    | none, found => found := by
  induction f with
  | nil => rfl
  | cons b f ih =>
    rw [List.cons_append, deciding?, deciding?, ih]
    cases deciding? f event with
    | none => cases deciding? g event <;> cases b.appliesTo event <;> simp
    | some c =>
      cases deciding? g event with
      | none => cases b.appliesTo event <;> simp only [Bool.false_and, Bool.true_and] <;> split <;> rfl
      | some d =>
        -- The heaviest of three, the latest of equally heavy ones: two comparisons settle the third.
        cases b.appliesTo event with
        | false => by_cases hdc : d.weight < c.weight <;> simp [hdc]
        | true =>
          by_cases hbc : c.weight < b.weight <;> by_cases hdc : d.weight < c.weight <;>
            by_cases hdb : d.weight < b.weight <;> simp [hbc, hdc, hdb] <;> omega

theorem level_of_deciding? (h : deciding? f event = some d) : level f event = d.level := by
  unfold level; rw [h]

theorem exists_deciding? (h : ∃ d ∈ f, d.appliesTo event) : ∃ d, deciding? f event = some d := by
  obtain ⟨d, hd, ha⟩ := h
  refine Option.isSome_iff_exists.mp (Option.isSome_iff_ne_none.mpr fun hnone => ?_)
  rw [deciding?_eq_none_iff.mp hnone d hd] at ha
  cases ha

/-- The second filter decides where it has as long a target as the first. -/
theorem level_append_of_le (h : ∃ d ∈ g, d.appliesTo event)
    (hle : ∀ c ∈ f, c.appliesTo event → ∃ d ∈ g, d.appliesTo event ∧ c.weight ≤ d.weight) :
    level (f ++ g) event = level g event := by
  have happend := deciding?_append f g event
  obtain ⟨d, hd⟩ := exists_deciding? h
  rw [level_of_deciding? hd]
  cases hc : deciding? f event with
  | none =>
    rw [hc, hd] at happend
    exact level_of_deciding? happend
  | some c =>
    obtain ⟨hmem, ha⟩ := deciding?_applies hc
    obtain ⟨e, he, hea, hce⟩ := hle c hmem ha
    have hed := weight_le_of_deciding? hd he hea
    rw [hc, hd] at happend
    dsimp only at happend
    rw [if_neg (by omega)] at happend
    exact level_of_deciding? happend

/-- The first filter decides where it has a longer target than the second. -/
theorem level_append_of_lt
    (h : ∃ c ∈ f, c.appliesTo event ∧ ∀ d ∈ g, d.appliesTo event → d.weight < c.weight) :
    level (f ++ g) event = level f event := by
  have happend := deciding?_append f g event
  obtain ⟨c, hc, hca, hlt⟩ := h
  obtain ⟨b, hb⟩ := exists_deciding? ⟨c, hc, hca⟩
  have hcb := weight_le_of_deciding? hb hc hca
  rw [level_of_deciding? hb]
  cases hd : deciding? g event with
  | none =>
    rw [hb, hd] at happend
    exact level_of_deciding? happend
  | some d =>
    obtain ⟨hmem, ha⟩ := deciding?_applies hd
    have hdc := hlt d hmem ha
    rw [hb, hd] at happend
    dsimp only at happend
    rw [if_pos (by omega)] at happend
    exact level_of_deciding? happend

end

/-! ## Reading two filters -/

theorem pieces_ne_nil : ∀ cs : List Char, pieces cs ≠ []
  | [] => by simp [pieces]
  | c :: cs => by
    rw [pieces]
    split
    · simp
    · split <;> simp

theorem pieces_comma (b : List Char) : ∀ a : List Char, pieces (a ++ ',' :: b) = pieces a ++ pieces b
  | [] => by
    have hb := pieces_ne_nil b
    cases hp : pieces b with
    | nil => exact absurd hp hb
    | cons p ps => simp [pieces, hp]
  | c :: a => by
    have ha := pieces_ne_nil a
    rw [List.cons_append, pieces, pieces_comma b a, pieces]
    cases hp : pieces a with
    | nil => exact absurd hp ha
    | cons p ps =>
      simp only [List.cons_append]
      split <;> rfl

theorem ofPieces?_append (xs ys : List (List Char)) :
    ofPieces? (xs ++ ys) = (ofPieces? xs).bind fun f => (ofPieces? ys).map (f ++ ·) := by
  induction xs with
  | nil => simp [ofPieces?]
  | cons p xs ih =>
    rw [List.cons_append, ofPieces?, ofPieces?, ih]
    cases Directive.ofPiece? p with
    | none => rfl
    | some d => cases ofPieces? xs <;> cases ofPieces? ys <;> rfl

theorem parse?_comma_eq (a b : String) :
    parse? (a ++ "," ++ b) = (parse? a).bind fun f => (parse? b).map (f ++ ·) := by
  have hchars : (a ++ "," ++ b).toList = a.toList ++ ',' :: b.toList := by simp
  unfold parse?
  rw [hchars, pieces_comma, List.filter_append, ofPieces?_append]

theorem parse?_comma {a b : String} {f g : Filter} (hf : parse? a = some f) (hg : parse? b = some g) :
    parse? (a ++ "," ++ b) = some (f ++ g) := by
  rw [parse?_comma_eq, hf, hg]
  rfl

end Filter

namespace Preferences

open Log.Filter

theorem parse?_standard : (parse? "warn,keystone=info").isSome := by decide +kernel

theorem exists_parse?_configuredText (p : Preferences) : ∃ f, parse? p.configuredText = some f := by
  unfold configuredText
  cases hd : p.directives with
  | error e => exact Option.isSome_iff_exists.mp parse?_standard
  | ok text =>
    unfold directives at hd
    cases ht : targetTexts p.targets with
    | error e => rw [ht] at hd; cases hd
    | ok texts =>
      rw [ht] at hd
      dsimp only at hd
      split at hd
      · cases hd
      · rename_i f hf
        cases hd
        exact ⟨f, hf⟩

/-- Where nothing is configured, only errors get through, which is said about no target. -/
theorem configuredFilter_eq {p : Preferences} {f : Filter} (hf : parse? p.configuredText = some f) :
    p.configuredFilter = f ∨ f = [] ∧ p.configuredFilter = [⟨none, .error⟩] := by
  unfold configuredFilter
  rw [hf]
  cases f with
  | nil => exact .inr ⟨rfl, rfl⟩
  | cons d ds => exact .inl rfl

theorem filter_eq {p : Preferences} {v : String} {f g : Filter} (hf : parse? p.configuredText = some f)
    (hg : parse? (Text.trim v) = some g) (hv : (Text.trim v).isEmpty = false) : p.filter (some v) = f ++ g := by
  unfold filter
  simp only [Option.map_some, hv, parse?_comma hf hg, Bool.false_eq_true, if_false, Option.getD_some]

/-- No condition on spans is written into the preferences. -/
structure Spanless (p : Preferences) : Prop where
  level : '[' ∉ p.level.toList
  targets : ∀ e ∈ p.targets, '[' ∉ e.1.toList

instance (p : Preferences) : Decidable p.Spanless :=
  decidable_of_iff ('[' ∉ p.level.toList ∧ ∀ e ∈ p.targets, '[' ∉ e.1.toList) ⟨fun h => ⟨h.1, h.2⟩, fun h => ⟨h.1, h.2⟩⟩

/-- The environment asks for the filter `own`, and neither it nor the preferences speak of spans. Blanks around
what it asks for do not count. -/
structure Overridden (p : Preferences) (v : String) (own : Filter) : Prop where
  spanless : p.Spanless ∧ '[' ∉ v.toList
  reads : parse? (Text.trim v) = some own

/-- Where the environment's filter says something about an event, it decides; only a configured
directive with a longer target than any of its own goes before it. -/
theorem environment_decides {p : Preferences} {v : String} {own : Filter} (hv : p.Overridden v own)
    {event : String} (h : ∃ d ∈ own, d.appliesTo event) :
    ((∀ c ∈ p.configuredFilter, c.appliesTo event → ∃ d ∈ own, d.appliesTo event ∧ c.weight ≤ d.weight) →
      (p.filter (some v)).level event = own.level event) ∧
    ((∃ c ∈ p.configuredFilter, c.appliesTo event ∧ ∀ d ∈ own, d.appliesTo event → d.weight < c.weight) →
      (p.filter (some v)).level event = p.configuredFilter.level event) := by
  obtain ⟨f, hf⟩ := p.exists_parse?_configuredText
  have hne : (Text.trim v).isEmpty = false := by
    obtain ⟨d, hd, -⟩ := h
    refine Bool.eq_false_iff.mpr fun hempty => ?_
    have hnone := hv.reads
    rw [show Text.trim v = "" by simpa using hempty] at hnone
    cases hnone
    cases hd
  rw [filter_eq hf hv.reads hne]
  -- What stands in for an empty configuration has no target, so it goes before nothing.
  rcases configuredFilter_eq hf with hconf | ⟨rfl, hconf⟩
  · rw [hconf]
    exact ⟨level_append_of_le h, level_append_of_lt⟩
  · rw [hconf]
    refine ⟨fun _ => rfl, fun ⟨c, hc, _, hlt⟩ => ?_⟩
    obtain ⟨d, hd, ha⟩ := h
    cases List.mem_singleton.mp hc
    exact absurd (hlt d hd ha) (Nat.not_lt_zero _)

theorem standard_under_debug : standard.Overridden "debug" [⟨none, .debug⟩] ∧
    (standard.filter (some "debug")).level "app" = .debug ∧
    (standard.filter (some "debug")).level "keystone" = .info := by
  have hv : standard.Overridden "debug" [⟨none, .debug⟩] := ⟨by decide +kernel, by decide +kernel⟩
  have hconf : standard.configuredFilter = [⟨none, .warn⟩, ⟨some "keystone", .info⟩] := by decide +kernel
  have happlies (event : String) : ∃ d ∈ [⟨none, .debug⟩], Directive.appliesTo d event :=
    ⟨_, List.mem_singleton_self _, rfl⟩
  refine ⟨hv, ?_, ?_⟩
  · refine ((environment_decides hv (happlies "app")).1 ?_).trans rfl
    rw [hconf]
    decide +kernel
  · refine ((environment_decides hv (happlies "keystone")).2 ?_).trans ?_
    · rw [hconf]
      decide +kernel
    · rw [hconf]
      decide +kernel

/-- A level for everything does not reach the library's own events: the configuration names them. -/
theorem keystone_keeps_its_level : ∃ own : Filter, Filter.parse? "debug" = some own ∧ own.level "keystone" = .debug ∧
    (∃ d ∈ own, d.appliesTo "keystone") ∧ (standard.filter (some "debug")).level "keystone" = .info :=
  ⟨[⟨none, .debug⟩], by decide +kernel, rfl, ⟨_, List.mem_singleton_self _, rfl⟩, by decide +kernel⟩

end Preferences

end ClassModel.Log
