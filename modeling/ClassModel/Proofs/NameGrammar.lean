import ClassModel.Proofs.Names

/-!
# The grammar of names

A class name is made of segments with single dots between them. A check reads from the front, and each
character turns the verdict on what stands before it into the verdict on both: so a text is refused at the
first character behind which no name comes about any more, and one more letter makes a name of a text that is
only unfinished.
-/

namespace ClassModel

namespace Name

open Text

/-! ## Segments -/

def IsSegment (cs : List Char) : Prop := cs ≠ [] ∧ ∀ c ∈ cs, isIdentifierPart c = true

/-- The text is the segments with dots between them, and begins as an identifier does. -/
structure Spells (segments : List (List Char)) (cs : List Char) : Prop where
  nonempty : segments ≠ []
  segment : ∀ s ∈ segments, IsSegment s
  joined : cs = ['.'].intercalate segments
  start : ∃ c, cs.head? = some c ∧ isIdentifierStart c = true

theorem intercalate_cons_head (c : Char) (s : List Char) (segments : List (List Char)) :
    ['.'].intercalate ((c :: s) :: segments) = c :: ['.'].intercalate (s :: segments) := by
  cases segments with
  | nil => simp
  | cons t segments => simp [List.intercalate_cons_cons]

theorem faultBehind_eq_none_iff {cs : List Char} : ∀ {prev : Char}, faultBehind prev cs = none ↔
    ∃ s segments, (prev = '.' → s ≠ []) ∧ (∀ c ∈ s, isIdentifierPart c = true) ∧
      (∀ t ∈ segments, IsSegment t) ∧ cs = ['.'].intercalate (s :: segments) := by
  -- The first segment is the one that `prev` stands in, so only behind a dot may it not be empty.
  induction cs with
  | nil =>
    intro prev
    simp only [faultBehind, ite_eq_right_iff, reduceCtorEq, imp_false]
    constructor
    · intro h
      exact ⟨[], [], fun he => absurd he h, by simp, by simp, by simp⟩
    · rintro ⟨s, segments, hs, -, -, he⟩ hprev
      cases s with
      | nil => exact hs hprev rfl
      | cons c s => simp at he
  | cons c cs ih =>
    intro prev
    constructor
    · intro h
      simp only [faultBehind] at h
      split at h
      · rename_i hc
        split at h
        · cases h
        · rename_i hprev
          obtain ⟨s, segments, hs, hparts, hsegments, he⟩ := ih.mp h
          have hs : IsSegment s := ⟨hs hc, hparts⟩
          refine ⟨[], s :: segments, fun hp => absurd hp hprev, by simp, ?_, ?_⟩
          · exact List.forall_mem_cons.mpr ⟨hs, hsegments⟩
          · simp [List.intercalate_cons_cons, hc, he]
      · split at h
        · rename_i hpart
          obtain ⟨s, segments, -, hparts, hsegments, he⟩ := ih.mp h
          refine ⟨c :: s, segments, by simp, List.forall_mem_cons.mpr ⟨hpart, hparts⟩, hsegments, ?_⟩
          rw [intercalate_cons_head, he]
        · cases h
    · rintro ⟨s, segments, hs, hparts, hsegments, he⟩
      cases s with
      | nil =>
        -- An empty front ends at a dot, which another segment follows.
        cases segments with
        | nil => simp at he
        | cons t segments =>
          obtain ⟨ht, hsegments⟩ := List.forall_mem_cons.mp hsegments
          simp only [List.intercalate_cons_cons, List.nil_append, List.singleton_append,
            List.cons.injEq] at he
          obtain ⟨rfl, rfl⟩ := he
          have hprev : prev ≠ '.' := fun hp => hs hp rfl
          simp only [faultBehind, if_true, hprev, if_false]
          exact ih.mpr ⟨t, segments, fun _ => ht.1, ht.2, hsegments, rfl⟩
      | cons d s =>
        rw [intercalate_cons_head, List.cons.injEq] at he
        obtain ⟨rfl, rfl⟩ := he
        obtain ⟨hpart, hparts⟩ := List.forall_mem_cons.mp hparts
        have hdot := ne_dot_of_part hpart
        simp only [faultBehind, hdot, if_false, hpart, if_true]
        exact ih.mpr ⟨s, segments, fun hc => absurd hc hdot, hparts, hsegments, rfl⟩

theorem fault?_eq_none_iff {cs : List Char} : fault? cs = none ↔ ∃ segments, Spells segments cs := by
  cases cs with
  | nil =>
    simp only [fault?, reduceCtorEq, false_iff, not_exists]
    intro segments h
    obtain ⟨c, hc, -⟩ := h.start
    cases hc
  | cons c cs =>
    constructor
    · intro h
      simp only [fault?] at h
      split at h
      · rename_i hstart
        obtain ⟨s, segments, -, hparts, hsegments, he⟩ := faultBehind_eq_none_iff.mp h
        refine ⟨(c :: s) :: segments, by simp, ?_, ?_, c, rfl, hstart⟩
        · have hs : IsSegment (c :: s) :=
            ⟨by simp, List.forall_mem_cons.mpr ⟨isIdentifierPart_of_start hstart, hparts⟩⟩
          exact List.forall_mem_cons.mpr ⟨hs, hsegments⟩
        · rw [intercalate_cons_head, he]
      · cases h
    · rintro ⟨segments, h⟩
      obtain ⟨d, hd, hstart⟩ := h.start
      cases hd
      have he := h.joined
      have hsegments := h.segment
      cases segments with
      | nil => exact absurd rfl h.nonempty
      | cons s segments =>
        obtain ⟨hs, hrest⟩ := List.forall_mem_cons.mp hsegments
        cases s with
        | nil => exact absurd rfl hs.1
        | cons d s =>
          rw [intercalate_cons_head, List.cons.injEq] at he
          obtain ⟨rfl, rfl⟩ := he
          have hparts := (List.forall_mem_cons.mp hs.2).2
          have hdot := ne_dot_of_part (isIdentifierPart_of_start hstart)
          simp only [fault?, hstart, if_true]
          exact faultBehind_eq_none_iff.mpr ⟨s, segments, fun hc => absurd hc hdot, hparts, hrest, rfl⟩

theorem Spells.notMem_dot_iff {segments : List (List Char)} {cs : List Char} (h : Spells segments cs) :
    '.' ∉ cs ↔ segments.length = 1 := by
  have he := h.joined
  have hsegments := h.segment
  match segments with
  | [] => exact absurd rfl h.nonempty
  | [s] =>
    have hs := hsegments s (by simp)
    simp only [List.intercalate_singleton] at he
    subst he
    simp only [List.length_singleton, iff_true]
    intro hdot
    exact ne_dot_of_part (hs.2 _ hdot) rfl
  | s :: t :: segments =>
    subst he
    simp [List.intercalate_cons_cons]

/-! ## Reading on -/

def extended (verdict : Option NameFault) (c : Char) : Option NameFault :=
  match verdict with
  | some .empty => if isIdentifierStart c then none else some (.badStart c)
  | some .trailingDot =>
    if c = '.' then some .doubleDot else if isIdentifierPart c then none else some (.illegal c)
  | none => if c = '.' then some .trailingDot else if isIdentifierPart c then none else some (.illegal c)
  | some f => some f

theorem faultBehind_snoc (c : Char) : ∀ (cs : List Char) (prev : Char),
    faultBehind prev (cs ++ [c]) = extended (faultBehind prev cs) c
  | [], prev => by
    by_cases hprev : prev = '.' <;> by_cases hc : c = '.' <;> by_cases hpart : isIdentifierPart c = true <;>
      simp [faultBehind, extended, hprev, hc, hpart]
  | d :: cs, prev => by
    have ih := faultBehind_snoc c cs d
    simp only [List.cons_append, faultBehind]
    by_cases hd : d = '.'
    · by_cases hprev : prev = '.'
      · simp [hd, hprev, extended]
      · simp only [hd, if_true, hprev, if_false]
        rw [← hd]
        exact ih
    · by_cases hpart : isIdentifierPart d = true
      · simp only [hd, if_false, hpart, if_true]
        exact ih
      · simp [hd, hpart, extended]

theorem fault?_snoc (cs : List Char) (c : Char) : fault? (cs ++ [c]) = extended (fault? cs) c := by
  cases cs with
  | nil =>
    by_cases hc : isIdentifierStart c = true
    · have hdot := ne_dot_of_part (isIdentifierPart_of_start hc)
      simp [fault?, faultBehind, extended, hc, hdot]
    · simp [fault?, extended, hc]
  | cons d cs =>
    by_cases hd : isIdentifierStart d = true
    · simpa [fault?, hd] using faultBehind_snoc c cs d
    · simp [fault?, hd, extended]

/-- No fault, or one that more characters may mend. -/
def IsOpen (verdict : Option NameFault) : Prop := ∀ f, verdict = some f → f = .empty ∨ f = .trailingDot

theorem extended_of_not_open {verdict : Option NameFault} (h : ¬ IsOpen verdict) (c : Char) :
    extended verdict c = verdict := by
  cases verdict with
  | none => exact absurd (fun f hf => by cases hf) h
  | some f =>
    cases f with
    | empty => exact absurd (fun f hf => by cases hf; exact .inl rfl) h
    | trailingDot => exact absurd (fun f hf => by cases hf; exact .inr rfl) h
    | badStart d => rfl
    | illegal d => rfl
    | doubleDot => rfl

theorem extended_letter {verdict : Option NameFault} (h : IsOpen verdict) : extended verdict 'a' = none := by
  have hstart : isIdentifierStart 'a' = true := by decide +kernel
  have hpart := isIdentifierPart_of_start hstart
  cases verdict with
  | none => simp [extended, hpart]
  | some f => rcases h f rfl with rfl | rfl <;> simp [extended, hstart, hpart]

theorem fault?_append_of_not_open (ds : List Char) : ∀ {cs : List Char}, ¬ IsOpen (fault? cs) →
    fault? (cs ++ ds) = fault? cs := by
  induction ds with
  | nil => intro cs _; rw [List.append_nil]
  | cons d ds ih =>
    intro cs h
    have hsnoc : fault? (cs ++ [d]) = fault? cs := by rw [fault?_snoc, extended_of_not_open h]
    rw [List.append_cons, ih (by rwa [hsnoc]), hsnoc]

/-! ## Dead ends -/

def Begins (cs : List Char) : Prop := ∃ rest segments, Spells segments (cs ++ rest)

def IsUnfinished (cs : List Char) : Prop := ∃ rest segments, rest ≠ [] ∧ Spells segments (cs ++ rest)

theorem isUnfinished_of_open {cs : List Char} (h : IsOpen (fault? cs)) : IsUnfinished cs := by
  obtain ⟨segments, hspells⟩ : ∃ segments, Spells segments (cs ++ ['a']) := by
    rw [← fault?_eq_none_iff, fault?_snoc, extended_letter h]
  exact ⟨['a'], segments, by simp, hspells⟩

theorem begins_iff {cs : List Char} : Begins cs ↔ IsOpen (fault? cs) := by
  constructor
  · rintro ⟨rest, segments, h⟩
    by_contra hopen
    have hnone := fault?_eq_none_iff.mpr ⟨segments, h⟩
    rw [fault?_append_of_not_open rest hopen] at hnone
    exact hopen fun f hf => by rw [hnone] at hf; cases hf
  · intro h
    obtain ⟨rest, segments, -, hspells⟩ := isUnfinished_of_open h
    exact ⟨rest, segments, hspells⟩

theorem isUnfinished_iff {cs : List Char} : IsUnfinished cs ↔ IsOpen (fault? cs) :=
  ⟨fun ⟨rest, segments, _, h⟩ => begins_iff.mp ⟨rest, segments, h⟩, isUnfinished_of_open⟩

theorem Begins.of_le {cs ds es : List Char} (h : Begins cs) (hd : ds <+: cs ++ es) (hle : ds.length ≤ cs.length) :
    Begins ds := by
  obtain ⟨more, rfl⟩ := List.prefix_of_prefix_length_le hd (List.prefix_append cs es) hle
  obtain ⟨rest, segments, hspells⟩ := h
  exact ⟨more ++ rest, segments, by rwa [← List.append_assoc]⟩

def faultAt (front : List Char) (c : Char) : NameFault :=
  if front = [] then .badStart c else if c = '.' then .doubleDot else .illegal c

/-- Up to and with the character, the text is its shortest beginning with which no name begins. -/
structure DeadEnd (front : List Char) (c : Char) (cs : List Char) : Prop where
  reached : front ++ [c] <+: cs
  closed : ¬ Begins (front ++ [c])
  shortest : ∀ ds, ds <+: cs → ¬ Begins ds → front.length < ds.length

theorem extended_ne_empty (verdict : Option NameFault) (c : Char) : extended verdict c ≠ some .empty := by
  cases verdict with
  | none =>
    simp only [extended]
    by_cases hdot : c = '.' <;> by_cases hpart : isIdentifierPart c = true <;> simp [hdot, hpart]
  | some f =>
    cases f with
    | empty => by_cases hstart : isIdentifierStart c = true <;> simp [extended, hstart]
    | trailingDot =>
      simp only [extended]
      by_cases hdot : c = '.' <;> by_cases hpart : isIdentifierPart c = true <;> simp [hdot, hpart]
    | badStart d => simp [extended]
    | illegal d => simp [extended]
    | doubleDot => simp [extended]

theorem fault?_eq_empty_iff {cs : List Char} : fault? cs = some .empty ↔ cs = [] := by
  rcases List.eq_nil_or_concat cs with rfl | ⟨front, c, rfl⟩
  · simp [fault?]
  · rw [List.concat_eq_append, fault?_snoc]
    simp [extended_ne_empty]

theorem eq_faultAt {cs : List Char} {c : Char} {f : NameFault} (h : IsOpen (fault? cs))
    (hf : fault? (cs ++ [c]) = some f) (hclosed : ¬ IsOpen (some f)) : f = faultAt cs c := by
  have hdot : f ≠ .trailingDot := fun he => hclosed fun g hg => by cases hg; exact .inr he
  rw [fault?_snoc] at hf
  unfold faultAt
  by_cases hcs : cs = []
  · subst hcs
    simp only [fault?, extended] at hf
    split at hf
    · cases hf
    · cases hf; simp
  · rw [if_neg hcs]
    -- in front of `c` there is a name, or a name and a dot
    have hverdict : fault? cs = none ∨ fault? cs = some .trailingDot := by
      cases hv : fault? cs with
      | none => exact .inl rfl
      | some g =>
        rcases h g hv with rfl | rfl
        · exact absurd (fault?_eq_empty_iff.mp hv) hcs
        · exact .inr rfl
    rcases hverdict with hv | hv <;> rw [hv] at hf <;> simp only [extended] at hf
    · split at hf
      · cases hf; exact absurd rfl hdot
      · rename_i hc
        split at hf <;> cases hf
        rw [if_neg hc]
    · split at hf
      · rename_i hc
        cases hf; rw [if_pos hc]
      · rename_i hc
        split at hf <;> cases hf
        rw [if_neg hc]

theorem exists_deadEnd {cs : List Char} {f : NameFault} (hf : fault? cs = some f) (hclosed : ¬ IsOpen (some f)) :
    ∃ front c, DeadEnd front c cs ∧ f = faultAt front c := by
  induction cs using List.reverseRecOn with
  | nil => cases hf; exact absurd (fun f hf => by cases hf; exact .inl rfl) hclosed
  | append_singleton cs c ih =>
    by_cases hopen : IsOpen (fault? cs)
    · have hbegins := begins_iff.mpr hopen
      refine ⟨cs, c, ⟨List.prefix_rfl, ?_, fun ds hds hd => ?_⟩, eq_faultAt hopen hf hclosed⟩
      · rwa [begins_iff, hf]
      · by_contra hle
        exact hd (hbegins.of_le hds (Nat.not_lt.mp hle))
    · rw [fault?_append_of_not_open [c] hopen] at hf
      obtain ⟨front, d, hdead, hfault⟩ := ih hf
      refine ⟨front, d, ⟨hdead.reached.trans (List.prefix_append cs [c]), hdead.closed, fun ds hds hd => ?_⟩, hfault⟩
      by_cases hle : ds.length ≤ cs.length
      · exact hdead.shortest ds (List.prefix_of_prefix_length_le hds (List.prefix_append cs [c]) hle) hd
      · have hlength := hdead.reached.length_le
        simp at hlength
        omega

/-- The checks of class names and identifiers accept what the grammar makes. What they refuse is refused as empty
or as ending in a dot just if it is unfinished, and otherwise for the character at the first dead end. -/
theorem names_checked (name : String) :
    (checkClassName name = .ok () ↔ ∃ segments, Spells segments name.toList) ∧
    (checkIdentifier name = .ok () ↔ ∃ segments, Spells segments name.toList ∧ segments.length = 1) ∧
    ∀ e, checkClassName name = .error e → e.name = name ∧
      (e.fault = .empty ∨ e.fault = .trailingDot ↔ IsUnfinished name.toList) ∧
      (¬ IsUnfinished name.toList → ∃ front c, DeadEnd front c name.toList ∧ e.fault = faultAt front c) := by
  refine ⟨checkClassName_ok.trans fault?_eq_none_iff, ?_, fun e he => ?_⟩
  · rw [checkIdentifier_ok]
    constructor
    · rintro ⟨hname, hdot⟩
      obtain ⟨segments, h⟩ := fault?_eq_none_iff.mp hname
      exact ⟨segments, h, h.notMem_dot_iff.mp hdot⟩
    · rintro ⟨segments, h, hlength⟩
      exact ⟨fault?_eq_none_iff.mpr ⟨segments, h⟩, h.notMem_dot_iff.mpr hlength⟩
  · unfold checkClassName at he
    cases hf : fault? name.toList with
    | none => rw [hf] at he; cases he
    | some f =>
      rw [hf] at he
      cases he
      have hopen : f = .empty ∨ f = .trailingDot ↔ IsOpen (some f) :=
        ⟨fun h g hg => by cases hg; exact h, fun h => h f rfl⟩
      rw [isUnfinished_iff, hf]
      exact ⟨rfl, hopen, exists_deadEnd hf⟩

end Name

end ClassModel
