import ClassModel.Config
import ClassModel.Proofs.Log.Readings
import ClassModel.Proofs.Registries

/-!
# Levels of single targets

Preferences with a plain level and targets that are read as such say what they seem to say: the longest key that
begins an event decides about it. One more target puts its own directives among the others and takes none away, so
nothing changes for events that these are not about. They are about the target and nothing else only if there is
no comma in it. And where there is no directive at all errors get through, until the first target ends that.
-/

namespace ClassModel.Log

namespace Directive

variable {t event : String} {d : Directive}

theorem appliesTo_target {l : Level} : appliesTo ⟨some t, l⟩ event = true ↔ t.toList <+: event.toList :=
  List.isPrefixOf_iff_prefix

theorem weight_le_of_appliesTo (h : d.appliesTo event = true) : d.weight ≤ event.length + 1 := by
  obtain ⟨target, l⟩ := d
  cases target with
  | none => simp [weight]
  | some t =>
    have hle := (appliesTo_target.mp h).length_le
    rw [String.length_toList, String.length_toList] at hle
    simpa [weight] using hle

theorem eq_of_length_eq {s : String} (ht : t.toList <+: event.toList) (hs : s.toList <+: event.toList)
    (h : t.length = s.length) : t = s := by
  have hlength : t.toList.length = s.toList.length := by rw [String.length_toList, String.length_toList, h]
  have hpre := List.prefix_of_prefix_length_le ht hs (Nat.le_of_eq hlength)
  exact String.toList_injective (hpre.eq_of_length hlength)

end Directive

namespace Filter

variable {f g : Filter} {event : String} {d : Directive}

/-- No directive in front of the one that decides is longer, and none behind it is as long. -/
theorem level_of_split (hd : d.appliesTo event) (hf : ∀ c ∈ f, c.appliesTo event → c.weight ≤ d.weight)
    (hg : ∀ c ∈ g, c.appliesTo event → c.weight < d.weight) : level (f ++ d :: g) event = d.level := by
  have hmem : d ∈ d :: g := List.mem_cons_self
  have hown : level ([d] ++ g) event = level [d] event :=
    level_append_of_lt ⟨d, List.mem_singleton_self d, hd, hg⟩
  rw [level_append_of_le ⟨d, hmem, hd⟩ fun c hc ha => ⟨d, hmem, hd, hf c hc ha⟩]
  rw [← List.singleton_append, hown]
  simp [level, deciding?, hd]

theorem level_of_idle (a b : Filter) (hg : ∀ d ∈ g, d.appliesTo event = false) :
    level (a ++ (g ++ b)) event = level (a ++ b) event := by
  have hidle : deciding? (g ++ b) event = deciding? b event := by
    rw [deciding?_append, deciding?_eq_none_iff.mpr hg]
  unfold level
  rw [deciding?_append, hidle, ← deciding?_append]

end Filter

namespace Preferences

open Log.Filter

/-! ## Keys -/

def Ordered (p : Preferences) : Prop := Registry.Sorted p.targets

instance (p : Preferences) : Decidable p.Ordered := inferInstanceAs (Decidable (List.Pairwise _ _))

theorem insertTarget_eq_insert (t s : String) (es : List (String × String)) :
    insertTarget t s es = Registry.insert t s es := by
  induction es with
  | nil => rfl
  | cons e es ih => rw [insertTarget, Registry.insert, ih]

/-- What is read of a document is in order. -/
theorem sorted_ofEntries (entries : List (String × String)) : Registry.Sorted (ofEntries entries) := by
  unfold ofEntries
  induction entries using List.reverseRecOn with
  | nil => exact Registry.sorted_nil
  | append_singleton entries e ih =>
    rw [List.foldl_append, List.foldl_cons, List.foldl_nil]
    show Registry.Sorted (insertTarget e.1 e.2 _)
    rw [insertTarget_eq_insert]
    exact Registry.sorted_insert e.1 e.2 ih

structure Plain (p : Preferences) : Prop where
  ordered : p.Ordered
  level : Text.trim p.level = "" ∨ ∃ l : Level, l.Spelled p.level
  targets : ∀ e ∈ p.targets, IsTarget e.1 ∧ ∃ l : Level, l.Spelled e.2

/-- Every target gives its level to its own key. The level in general is for the library's own events, unless they
have a target. -/
inductive Gives (p : Preferences) : String → Level → Prop
  | target {key text : String} {l : Level} : (key, text) ∈ p.targets → l.Spelled text → Gives p key l
  | general {l : Level} : (∀ text, ("keystone", text) ∉ p.targets) →
      l.Spelled p.level ∨ Text.trim p.level = "" ∧ l = .info → Gives p "keystone" l

structure Decides (p : Preferences) (key event : String) : Prop where
  begins : key.toList <+: event.toList
  longest : ∀ other l, p.Gives other l → other.toList <+: event.toList → other.length ≤ key.length

def generalLevel (p : Preferences) : Level := (plainLevel? p.level).getD .info

def entryDirective (e : String × String) : Directive := ⟨some e.1, (plainLevel? e.2).getD .off⟩

section
variable {p : Preferences}

theorem generalLevel_eq {l : Level} (h : l.Spelled p.level ∨ Text.trim p.level = "" ∧ l = .info) :
    p.generalLevel = l := by
  unfold generalLevel
  rcases h with hl | ⟨he, rfl⟩
  · rw [plainLevel?_eq_some_iff.mpr hl]
    rfl
  · rw [← plainLevel?_trim, he]
    decide +kernel

theorem baseText_of_plain (h : p.Plain) : p.baseText = "warn,keystone=" ++ p.generalLevel.word := by
  unfold baseText
  dsimp only
  rw [plainLevel?_trim]
  rcases h.level with he | ⟨l, hl⟩
  · have hnone : plainLevel? p.level = none := by
      rw [← plainLevel?_trim, he]
      decide +kernel
    rw [hnone, generalLevel_eq (.inr ⟨he, rfl⟩), he]
    rfl
  · rw [plainLevel?_eq_some_iff.mpr hl, generalLevel_eq (.inl hl)]

theorem parse?_general (l : Level) :
    parse? ("warn,keystone=" ++ l.word) = some [⟨none, .warn⟩, ⟨some "keystone", l⟩] := by
  cases l <;> decide +kernel

theorem entriesFilter?_of_targets {es : List (String × String)}
    (h : ∀ e ∈ es, IsTarget e.1 ∧ ∃ l : Level, l.Spelled e.2) :
    entriesFilter? es = some (es.map entryDirective) := by
  induction es with
  | nil => rfl
  | cons e es ih =>
    obtain ⟨⟨htarget, l, hl⟩, hes⟩ := List.forall_mem_cons.mp h
    have hl := plainLevel?_eq_some_iff.mpr hl
    rw [entriesFilter?, entryFilter?, hl, ih hes, Option.bind_some, parse?_target htarget]
    simp [entryDirective, hl]

theorem reading?_of_plain (h : p.Plain) : p.reading? =
    some ([⟨none, .warn⟩, ⟨some "keystone", p.generalLevel⟩] ++ p.targets.map entryDirective) := by
  rw [reading?, baseText_of_plain h, parse?_general, entriesFilter?_of_targets h.targets]
  rfl

theorem filter_of_plain (h : p.Plain) : p.filter none =
    [⟨none, .warn⟩, ⟨some "keystone", p.generalLevel⟩] ++ p.targets.map entryDirective := by
  rw [filter_of_reading? (reading?_of_plain h)]
  simp

theorem gives_entry (h : p.Plain) {e : String × String} (he : e ∈ p.targets) :
    p.Gives e.1 (entryDirective e).level := by
  obtain ⟨-, l, hl⟩ := h.targets e he
  have hlevel : (entryDirective e).level = l := by simp [entryDirective, plainLevel?_eq_some_iff.mpr hl]
  rw [hlevel]
  exact .target he hl

theorem gives_general (h : p.Plain) (hkey : ∀ text, ("keystone", text) ∉ p.targets) :
    p.Gives "keystone" p.generalLevel := by
  rcases h.level with he | ⟨l, hl⟩
  · rw [generalLevel_eq (.inr ⟨he, rfl⟩)]
    exact .general hkey (.inr ⟨he, rfl⟩)
  · rw [generalLevel_eq (.inl hl)]
    exact .general hkey (.inl hl)

theorem exists_gives_keystone (h : p.Plain) : ∃ l, p.Gives "keystone" l := by
  by_cases hkey : ∃ text, ("keystone", text) ∈ p.targets
  · obtain ⟨text, htext⟩ := hkey
    exact ⟨_, gives_entry h htext⟩
  · exact ⟨_, gives_general h fun text htext => hkey ⟨text, htext⟩⟩

theorem exists_split (h : p.Plain) {key : String} {l : Level} (hkey : p.Gives key l) :
    ∃ front back, p.filter none = front ++ ⟨some key, l⟩ :: back ∧
      ∀ d ∈ back, ∃ e ∈ p.targets, d = entryDirective e ∧ e.1 ≠ key := by
  rw [filter_of_plain h]
  cases hkey with
  | @target _ text _ hmem hl =>
    obtain ⟨before, after, hsplit⟩ := List.append_of_mem hmem
    have hlater : ∀ e ∈ after, key < e.1 := by
      have hordered : Registry.Sorted p.targets := h.ordered
      rw [hsplit] at hordered
      exact (List.pairwise_cons.mp (List.pairwise_append.mp hordered).2.1).1
    have hdirective : entryDirective (key, text) = ⟨some key, l⟩ := by
      simp [entryDirective, plainLevel?_eq_some_iff.mpr hl]
    refine ⟨[⟨none, .warn⟩, ⟨some "keystone", p.generalLevel⟩] ++ before.map entryDirective,
      after.map entryDirective, ?_, fun d hd => ?_⟩
    · rw [hsplit, List.map_append, List.map_cons, hdirective, List.append_assoc]
    · obtain ⟨e, he, rfl⟩ := List.mem_map.mp hd
      refine ⟨e, by rw [hsplit]; simp [he], rfl, fun heq => ?_⟩
      exact String.lt_irrefl key (heq ▸ hlater e he)
  | general hnone hl =>
    refine ⟨[⟨none, .warn⟩], p.targets.map entryDirective, ?_, fun d hd => ?_⟩
    · simp [generalLevel_eq hl]
    · obtain ⟨e, he, rfl⟩ := List.mem_map.mp hd
      exact ⟨e, he, rfl, fun heq => hnone e.2 (heq ▸ he)⟩

theorem exists_key_of_appliesTo (h : p.Plain) {d : Directive} (hd : d ∈ p.filter none) {event : String}
    (ha : d.appliesTo event = true) :
    d = ⟨none, .warn⟩ ∨ ∃ key l, p.Gives key l ∧ key.toList <+: event.toList ∧ d.weight = key.length + 1 := by
  rw [filter_of_plain h] at hd
  simp only [List.cons_append, List.nil_append, List.mem_cons, List.mem_map] at hd
  rcases hd with rfl | rfl | ⟨e, he, rfl⟩
  · exact .inl rfl
  · obtain ⟨l, hl⟩ := exists_gives_keystone h
    exact .inr ⟨"keystone", l, hl, Directive.appliesTo_target.mp ha, rfl⟩
  · exact .inr ⟨e.1, _, gives_entry h he, Directive.appliesTo_target.mp ha, rfl⟩

/-- Plain preferences come to a filter. The longest key that begins an event decides about it with its level, and
where there is none, warnings get through. -/
theorem longest_key_decides (h : p.Plain) : (∃ text, p.directives = .ok text) ∧ ∀ event : String,
    (∀ key l, p.Gives key l → p.Decides key event → (p.filter none).level event = l) ∧
    ((∀ key l, p.Gives key l → ¬ key.toList <+: event.toList) → (p.filter none).level event = .warn) := by
  obtain ⟨text, htext, -⟩ := directives_of_reading? (reading?_of_plain h)
  refine ⟨⟨text, htext⟩, fun event => ⟨fun key l hkey hdecides => ?_, fun hnone => ?_⟩⟩
  · obtain ⟨front, back, hfilter, hback⟩ := exists_split h hkey
    have hle : ∀ d ∈ p.filter none, d.appliesTo event = true → d.weight ≤ key.length + 1 := by
      intro d hd ha
      rcases exists_key_of_appliesTo h hd ha with rfl | ⟨other, l', hother, hbegins, hweight⟩
      · simp [Directive.weight]
      · have := hdecides.longest other l' hother hbegins
        omega
    rw [hfilter] at hle ⊢
    refine level_of_split (Directive.appliesTo_target.mpr hdecides.begins)
      (fun c hc ha => hle c (by simp [hc]) ha) fun c hc ha => ?_
    refine Nat.lt_of_le_of_ne (hle c (by simp [hc]) ha) fun hweight => ?_
    -- As long a key that begins the same event is the same key, and that is not behind it.
    obtain ⟨e, he, rfl, hne⟩ := hback c hc
    refine hne (Directive.eq_of_length_eq (Directive.appliesTo_target.mp ha) hdecides.begins ?_)
    simpa [entryDirective, Directive.weight] using hweight
  · have hothers : ∀ c ∈ p.filter none, c.appliesTo event = true → c = ⟨none, .warn⟩ := by
      intro c hc ha
      rcases exists_key_of_appliesTo h hc ha with hwarn | ⟨key, l, hkey, hbegins, -⟩
      · exact hwarn
      · exact absurd hbegins (hnone key l hkey)
    obtain ⟨d, hd⟩ : ∃ d, deciding? (p.filter none) event = some d :=
      exists_deciding? ⟨⟨none, .warn⟩, by rw [filter_of_plain h]; simp, rfl⟩
    obtain ⟨hmem, ha⟩ := deciding?_applies hd
    rw [level_of_deciding? hd, hothers d hmem ha]

end

/-! Keys that begin each other, one of them the library's own. -/

def layered : Preferences where
  level := " Debug "
  targets := [("app", "Off"), ("app.db", " INFO"), ("keystone", "warning")]
  json := false

theorem plain_layered : layered.Plain where
  ordered := by decide +kernel
  level := .inr ⟨.debug, by decide +kernel⟩
  targets := List.forall_mem_cons.mpr ⟨⟨by decide +kernel, .off, by decide +kernel⟩, List.forall_mem_cons.mpr
    ⟨⟨by decide +kernel, .info, by decide +kernel⟩, List.forall_mem_singleton.mpr
      ⟨by decide +kernel, .warn, by decide +kernel⟩⟩⟩

theorem layered_keys_decide : layered.Plain ∧ layered.Gives "app.db" .info ∧ layered.Decides "app.db" "app.db.pool" ∧
    (layered.filter none).level "app.db.pool" = .info := by
  have hmem : ("app.db", " INFO") ∈ layered.targets := by decide +kernel
  have hgives : layered.Gives "app.db" .info := .target hmem (by decide +kernel)
  have hdecides : layered.Decides "app.db" "app.db.pool" := by
    refine ⟨by decide +kernel, fun other l hother hbegins => ?_⟩
    have htargets : ∀ e ∈ layered.targets, e.1.toList <+: "app.db.pool".toList → e.1.length ≤ 6 := by
      decide +kernel
    cases hother with
    | target hmem _ => exact htargets _ hmem hbegins
    | general _ _ => exact absurd hbegins (by decide +kernel)
  exact ⟨plain_layered, hgives, hdecides, ((longest_key_decides plain_layered).2 _).1 _ _ hgives hdecides⟩

/-! ## One more target -/

def withTarget (p : Preferences) (target level : String) : Preferences :=
  { p with targets := insertTarget target level p.targets }

theorem Ordered.withTarget {p : Preferences} (h : p.Ordered) (t s : String) : (p.withTarget t s).Ordered := by
  show Registry.Sorted (insertTarget t s p.targets)
  rw [insertTarget_eq_insert]
  exact Registry.sorted_insert t s h

theorem exists_insertTarget {es : List (String × String)} (hes : Registry.Sorted es) {t s : String}
    (ht : ∀ s', (t, s') ∉ es) : ∃ before after, es = before ++ after ∧
      insertTarget t s es = before ++ (t, s) :: after ∧ ∀ e ∈ after, t < e.1 := by
  induction es with
  | nil => exact ⟨[], [], rfl, rfl, by simp⟩
  | cons e es ih =>
    obtain ⟨k, l⟩ := e
    obtain ⟨hfirst, hes⟩ := List.pairwise_cons.mp hes
    have hne : t ≠ k := fun he => ht l (by simp [he])
    rw [insertTarget, if_neg hne]
    by_cases hlt : t < k
    · refine ⟨[], (k, l) :: es, rfl, by simp [hlt], fun e he => ?_⟩
      rcases List.mem_cons.mp he with rfl | he
      · exact hlt
      · exact String.lt_trans hlt (hfirst e he)
    · obtain ⟨before, after, rfl, hinsert, hafter⟩ := ih hes fun s' hs => ht s' (List.mem_cons_of_mem _ hs)
      exact ⟨(k, l) :: before, after, rfl, by rw [if_neg hlt, hinsert]; rfl, hafter⟩

theorem exists_of_mem_entriesFilter? {es : List (String × String)} {f : Filter} {d : Directive}
    (h : entriesFilter? es = some f) (hd : d ∈ f) : ∃ e ∈ es, ∃ g, entryFilter? e = some g ∧ d ∈ g := by
  induction es generalizing f with
  | nil =>
    cases h
    cases hd
  | cons e es ih =>
    rw [entriesFilter?] at h
    obtain ⟨g, hg, h⟩ := Option.bind_eq_some_iff.mp h
    obtain ⟨g', hg', rfl⟩ := Option.map_eq_some_iff.mp h
    rcases List.mem_append.mp hd with hd | hd
    · exact ⟨e, List.mem_cons_self, g, hg, hd⟩
    · obtain ⟨e', he', hread⟩ := ih hg' hd
      exact ⟨e', List.mem_cons_of_mem _ he', hread⟩

theorem entryFilter?_of_notMem {e : String × String} {f : Filter} (hcomma : ',' ∉ e.1.toList)
    (h : entryFilter? e = some f) : ∃ l : Level, f = [⟨some e.1, l⟩] := by
  obtain ⟨l, -, hf⟩ := Option.bind_eq_some_iff.mp h
  exact ⟨l, eq_of_parse?_pair hcomma hf⟩

section
variable {p : Preferences} {t s : String}

/-- One more target puts what it is read as among the other directives, behind those of all lesser targets. -/
theorem exists_reading?_withTarget (hp : p.Ordered) (ht : ∀ s', (t, s') ∉ p.targets) {f f' : Filter}
    (hf : p.reading? = some f) (hf' : (p.withTarget t s).reading? = some f') :
    ∃ front own after back, f = front ++ back ∧ f' = front ++ (own ++ back) ∧ entryFilter? (t, s) = some own ∧
      (∀ e ∈ after, e ∈ p.targets ∧ t < e.1) ∧ entriesFilter? after = some back := by
  obtain ⟨before, after, htargets, hinsert, hafter⟩ := exists_insertTarget (s := s) hp ht
  have hbase : (p.withTarget t s).baseText = p.baseText := rfl
  rw [reading?, hbase, withTarget, hinsert, entriesFilter?_append, entriesFilter?] at hf'
  rw [reading?, htargets, entriesFilter?_append] at hf
  obtain ⟨base, hparse, hf⟩ := Option.bind_eq_some_iff.mp hf
  obtain ⟨rest, hrest, rfl⟩ := Option.map_eq_some_iff.mp hf
  obtain ⟨earlier, hbefore, hrest⟩ := Option.bind_eq_some_iff.mp hrest
  obtain ⟨back, hback, rfl⟩ := Option.map_eq_some_iff.mp hrest
  rw [hparse, hbefore, hback] at hf'
  cases hown : entryFilter? (t, s) with
  | none => rw [hown] at hf'; cases hf'
  | some own =>
    rw [hown] at hf'
    cases hf'
    refine ⟨base ++ earlier, own, after, back, by simp, by simp, rfl, fun e he => ?_, hback⟩
    exact ⟨by rw [htargets]; exact List.mem_append_right _ he, hafter e he⟩

structure Accepted (p : Preferences) (text : String) : Prop where
  ordered : p.Ordered
  spanless : p.Spanless
  accepted : p.directives = .ok text

/-- A level for one more target without a comma changes nothing for events that do not begin with the target,
except that it takes their errors from them if there was no directive. The target itself gets the level, unless
a greater one has a comma. -/
theorem override_isolated {text text' : String} {l : Level} (hp : p.Accepted text) (ht : ∀ s', (t, s') ∉ p.targets)
    (hl : l.Spelled s) (hq : (p.withTarget t s).Accepted text') (hcomma : ',' ∉ t.toList) :
    (∀ event : String, ¬ t.toList <+: event.toList →
      (parse? text ≠ some [] →
        ((p.withTarget t s).filter none).level event = (p.filter none).level event) ∧
      (parse? text = some [] →
        (p.filter none).level event = .error ∧ ((p.withTarget t s).filter none).level event = .off)) ∧
    ((∀ e ∈ p.targets, t < e.1 → ',' ∉ e.1.toList) → ((p.withTarget t s).filter none).level t = l) := by
  obtain ⟨f, htext, hf⟩ := parse?_of_directives hp.accepted
  obtain ⟨f', -, hf'⟩ := parse?_of_directives hq.accepted
  obtain ⟨front, own, after, back, rfl, rfl, hown, hafter, hback⟩ := exists_reading?_withTarget hp.ordered ht hf hf'
  obtain rfl : own = [⟨some t, l⟩] := by
    rw [entryFilter?, plainLevel?_eq_some_iff.mpr hl] at hown
    exact eq_of_parse?_pair hcomma hown
  have hq : (p.withTarget t s).filter none = front ++ ([⟨some t, l⟩] ++ back) := by
    rw [filter_of_reading? hf', if_neg (by simp)]
  have hp := filter_of_reading? hf
  rw [hq, hp, htext]
  refine ⟨fun event hevent => ?_, fun hlater => ?_⟩
  · have hidle : ∀ d ∈ [(⟨some t, l⟩ : Directive)], d.appliesTo event = false := by
      intro d hd
      cases List.mem_singleton.mp hd
      exact Bool.eq_false_iff.mpr fun ha => hevent (Directive.appliesTo_target.mp ha)
    rw [level_of_idle front back hidle]
    refine ⟨fun hsome => ?_, fun hnone => ?_⟩
    · rw [if_neg fun he => hsome (by rw [he])]
    · rw [Option.some.inj hnone]
      exact ⟨rfl, rfl⟩
  · refine level_of_split (Directive.appliesTo_target.mpr List.prefix_rfl)
      (fun c _ ha => Directive.weight_le_of_appliesTo ha) fun c hc ha => ?_
    obtain ⟨e, he, g, hg, hcg⟩ := exists_of_mem_entriesFilter? hback hc
    obtain ⟨hmem, hlt⟩ := hafter e he
    obtain ⟨l', rfl⟩ := entryFilter?_of_notMem (hlater e hmem hlt) hg
    cases List.mem_singleton.mp hcg
    refine Nat.lt_of_le_of_ne (Directive.weight_le_of_appliesTo ha) fun hweight => ?_
    have hlength : e.1.length = t.length := by simpa [Directive.weight] using hweight
    have heq := Directive.eq_of_length_eq (Directive.appliesTo_target.mp ha) List.prefix_rfl hlength
    exact String.lt_irrefl t (heq ▸ hlt)

end

theorem layered_override :
    layered.Accepted "warn,keystone=debug,app=off,app.db=info,keystone=warn" ∧
    (∀ s, ("app.db.pool", s) ∉ layered.targets) ∧ Level.error.Spelled " ERROR " ∧
    (layered.withTarget "app.db.pool" " ERROR ").Accepted
      "warn,keystone=debug,app=off,app.db=info,app.db.pool=error,keystone=warn" ∧
    ((layered.withTarget "app.db.pool" " ERROR ").filter none).level "app.db" = .info ∧
    ((layered.withTarget "app.db.pool" " ERROR ").filter none).level "app.db.pool" = .error := by
  have hp : layered.Accepted "warn,keystone=debug,app=off,app.db=info,keystone=warn" :=
    ⟨plain_layered.ordered, by decide +kernel, by decide +kernel⟩
  have hkeys : ∀ e ∈ layered.targets, e.1 ≠ "app.db.pool" ∧ ',' ∉ e.1.toList := by decide +kernel
  have ht : ∀ s, ("app.db.pool", s) ∉ layered.targets := fun s hs => (hkeys _ hs).1 rfl
  have hl : Level.error.Spelled " ERROR " := by decide +kernel
  have hq : (layered.withTarget "app.db.pool" " ERROR ").Accepted
      "warn,keystone=debug,app=off,app.db=info,app.db.pool=error,keystone=warn" :=
    ⟨plain_layered.ordered.withTarget _ _, by decide +kernel, by decide +kernel⟩
  obtain ⟨hothers, hown⟩ := override_isolated hp ht hl hq (by decide +kernel)
  have hsame := (hothers "app.db" (by decide +kernel)).1 (by decide +kernel)
  have hinfo : (layered.filter none).level "app.db" = .info := by
    rw [filter_of_plain plain_layered]
    decide +kernel
  exact ⟨hp, ht, hl, hq, hsame.trans hinfo, hown fun e he _ => (hkeys e he).2⟩

/-- The part of a target that stands behind a comma is a target of its own, and what stands before it lets
everything through. -/
theorem comma_reaches_others : standard.directives = .ok "warn,keystone=info" ∧
    (∀ s, ("x,app", s) ∉ standard.targets) ∧ Level.off.Spelled "off" ∧
    (standard.withTarget "x,app" "off").directives = .ok "warn,keystone=info,x,app=off" ∧
    ¬ "x,app".toList <+: "app".toList ∧ (standard.filter none).level "app" = .warn ∧
    ((standard.withTarget "x,app" "off").filter none).level "app" = .off ∧
    ((standard.withTarget "x,app" "off").filter none).level "x,app" = .trace :=
  ⟨by decide +kernel, fun _ => List.not_mem_nil, by decide +kernel, by decide +kernel, by decide +kernel,
    by decide +kernel, by decide +kernel, by decide +kernel⟩

end Preferences

end ClassModel.Log
