import ClassModel.Document.Record
import Mathlib.Data.List.Forall2
import Mathlib.Data.List.Perm.Basic

/-!
# Ways to write a record

The entries of a record may stand in any order and among others that its reader does not know, and an
entry that says nothing new may be missing. A record that is not strict is read alike from all of these.
-/

namespace ClassModel.Document

structure Entry where
  name : String
  optional : Bool
  value : Data → Prop

inductive Thinned : List Entry → List (String × Data) → Prop where
  | nil : Thinned [] []
  | keep {e : Entry} {d : Data} {es : List Entry} {kept : List (String × Data)} (value : e.value d)
      (rest : Thinned es kept) : Thinned (e :: es) ((e.name, d) :: kept)
  | drop {e : Entry} {es : List Entry} {kept : List (String × Data)} (optional : e.optional = true)
      (rest : Thinned es kept) : Thinned (e :: es) kept

/-- A record with these entries, in any order and among entries with other names. -/
def Spelled (es : List Entry) (d : Data) : Prop :=
  ∃ kept extra entries, Thinned es kept ∧ (∀ e ∈ extra, e.1 ∉ es.map Entry.name) ∧ entries.Perm (kept ++ extra) ∧
    d = .ofEntries entries

def SpelledList (spelled : α → Data → Prop) (xs : List α) (d : Data) : Prop :=
  ∃ ds, List.Forall₂ spelled xs ds ∧ d = .ofItems ds

namespace Thinned

variable {es : List Entry} {kept : List (String × Data)}

theorem sublist (h : Thinned es kept) : (kept.map Prod.fst).Sublist (es.map Entry.name) := by
  induction h with
  | nil => exact .slnil
  | keep _ _ ih => exact ih.cons_cons _
  | drop _ _ ih => exact ih.cons _

theorem full : ∀ {es : List Entry} {ds : List Data}, List.Forall₂ (fun e d => e.value d) es ds →
    Thinned es (List.zipWith (fun e d => (e.name, d)) es ds)
  | [], [], .nil => .nil
  | _ :: _, _ :: _, .cons h hs => .keep h (full hs)

end Thinned

theorem Spelled.full {es : List Entry} {ds : List Data} (h : List.Forall₂ (fun e d => e.value d) es ds) :
    Spelled es (.ofEntries (List.zipWith (fun e d => (e.name, d)) es ds)) :=
  ⟨_, [], _, .full h, by simp, by simp, rfl⟩

theorem spelledList_map {spelled : α → Data → Prop} {f : α → Data} (h : ∀ x, spelled x (f x)) (xs : List α) :
    SpelledList spelled xs (.ofItems (xs.map f)) := by
  refine ⟨_, ?_, rfl⟩
  rw [List.forall₂_map_right_iff, List.forall₂_same]
  exact fun x _ => h x

/-! ## Lists -/

theorem skippableItems_iff : ∀ {ds : List Data}, Data.skippableItems ds = true ↔ ∀ d ∈ ds, d.skippable = true
  | [] => by simp [Data.skippableItems]
  | d :: ds => by simp [Data.skippableItems, skippableItems_iff]

theorem skippableEntries_iff : ∀ {es : List (String × Data)},
    Data.skippableEntries es = true ↔ ∀ e ∈ es, e.2.skippable = true
  | [] => by simp [Data.skippableEntries]
  | (k, d) :: es => by simp [Data.skippableEntries, skippableEntries_iff]

/-- The reader takes a value that is spelled like this, wherever it is well formed. -/
def Understands (read : Data → Reading α) (spelled : Data → Prop) (x : α) : Prop :=
  ∀ d, spelled d → d.skippable = true → read d = .ok x

theorem Understands.map {read : Data → Reading α} {spelled : Data → Prop} {x : α} (h : Understands read spelled x)
    (part : α → β) : Understands (fun d => (read d).map part) spelled (part x) := by
  intro d hd hskip
  show (read d).map part = _
  rw [h d hd hskip]
  rfl

theorem readEach_forall₂ {read : Data → Reading α} {spelled : α → Data → Prop} (h : ∀ x, Understands read (spelled x) x)
    {xs : List α} {ds : List Data} (hs : List.Forall₂ spelled xs ds) (hd : ∀ d ∈ ds, d.skippable = true) :
    Data.readEach read ds = .ok xs := by
  induction hs with
  | nil => rfl
  | cons hx _ ih =>
    rw [Data.readEach, h _ _ hx (hd _ List.mem_cons_self), ih fun d hm => hd d (List.mem_cons_of_mem _ hm)]
    rfl

theorem readList_spelled {read : Data → Reading α} {spelled : α → Data → Prop} (h : ∀ x, Understands read (spelled x) x)
    (xs : List α) : Understands (Data.readList read) (SpelledList spelled xs) xs := by
  rintro d ⟨ds, hs, rfl⟩ hd
  simp only [Data.ofItems, Data.skippable, Bool.and_eq_true] at hd
  unfold Data.ofItems Data.readList
  simp only [readEach_forall₂ h hs (skippableItems_iff.mp hd.1)]
  rfl

/-! ## Records -/

namespace RecordShape

variable {α : Type} {r : RecordShape α}

inductive Agrees : List (FieldShape α) → List Entry → List α → Prop where
  | nil : Agrees [] [] []
  | cons {f : FieldShape α} {e : Entry} {x : α} {fs : List (FieldShape α)} {es : List Entry} {xs : List α}
      (name : f.name = e.name) (required : f.required = true → e.optional = false)
      (read : Understands f.read e.value x) (rest : Agrees fs es xs) : Agrees (f :: fs) (e :: es) (x :: xs)

theorem Agrees.names {fs : List (FieldShape α)} {es : List Entry} {xs : List α} (h : Agrees fs es xs) :
    fs.map (·.name) = es.map Entry.name := by
  induction h with
  | nil => rfl
  | cons name _ _ _ ih => rw [List.map_cons, List.map_cons, name, ih]

theorem Agrees.kept {fs : List (FieldShape α)} {es : List Entry} {xs : List α} (h : Agrees fs es xs)
    {kept : List (String × Data)} (hkept : Thinned es kept) (hskip : ∀ e ∈ kept, e.2.skippable = true) :
    ∀ e ∈ kept, ∃ f ∈ fs, ∃ x ∈ xs, f.name = e.1 ∧ f.read e.2 = .ok x := by
  induction h generalizing kept with
  | nil =>
    cases hkept
    simp
  | cons name required read rest ih =>
    cases hkept with
    | keep value hrest =>
      rintro e (_ | ⟨_, he⟩)
      · exact ⟨_, List.mem_cons_self, _, List.mem_cons_self, name, read _ value (hskip _ List.mem_cons_self)⟩
      · obtain ⟨f, hf, x, hx, hname, hread⟩ := ih hrest (fun e he => hskip e (List.mem_cons_of_mem _ he)) e he
        exact ⟨f, List.mem_cons_of_mem _ hf, x, List.mem_cons_of_mem _ hx, hname, hread⟩
    | drop _ hrest =>
      intro e he
      obtain ⟨f, hf, x, hx, hname, hread⟩ := ih hrest hskip e he
      exact ⟨f, List.mem_cons_of_mem _ hf, x, List.mem_cons_of_mem _ hx, hname, hread⟩

theorem Agrees.there {fs : List (FieldShape α)} {es : List Entry} {xs : List α} (h : Agrees fs es xs)
    {kept : List (String × Data)} (hkept : Thinned es kept) :
    ∀ f ∈ fs, f.required = true → ∃ e ∈ kept, e.1 = f.name := by
  induction h generalizing kept with
  | nil => simp
  | cons name required _ _ ih =>
    intro f hf hreq
    cases hkept with
    | keep _ hrest =>
      rcases List.mem_cons.mp hf with rfl | hf
      · exact ⟨_, List.mem_cons_self, name.symm⟩
      · obtain ⟨e, he, hname⟩ := ih hrest f hf hreq
        exact ⟨e, List.mem_cons_of_mem _ he, hname⟩
    | drop optional hrest =>
      rcases List.mem_cons.mp hf with rfl | hf
      · rw [required hreq] at optional
        cases optional
      · exact ih hrest f hf hreq

def Delivers (r : RecordShape α) (entries : List (String × Data)) (x : α) : Prop :=
  ∃ e ∈ entries, ∃ f, r.field? e.1 = some f ∧ f.read e.2 = .ok x

theorem Agrees.delivered {fs : List (FieldShape α)} {es : List Entry} {xs : List α} (h : Agrees fs es xs)
    (hfield : ∀ f ∈ fs, r.field? f.name = some f) {kept : List (String × Data)} (hkept : Thinned es kept)
    (hskip : ∀ e ∈ kept, e.2.skippable = true) :
    List.Forall₂ (fun e x => e.optional = true ∨ r.Delivers kept x) es xs := by
  induction h generalizing kept with
  | nil => exact .nil
  | @cons f e x _ _ _ name required read rest ih =>
    have hrest := fun g hg => hfield g (List.mem_cons_of_mem _ hg)
    cases hkept with
    | drop optional hs => exact .cons (.inl optional) (ih hrest hs hskip)
    | keep value hs =>
      refine .cons (.inr ⟨_, List.mem_cons_self, f, ?_, read _ value (hskip _ List.mem_cons_self)⟩)
        ((ih hrest hs fun e he => hskip e (List.mem_cons_of_mem _ he)).imp ?_)
      · rw [← name]
        exact hfield f List.mem_cons_self
      · rintro a y (ha | ⟨e', he, hy⟩)
        · exact .inl ha
        · exact .inr ⟨e', List.mem_cons_of_mem _ he, hy⟩

theorem field?_of_mem (hnames : r.fieldNames.Nodup) {f : FieldShape α} (hf : f ∈ r.fields) :
    r.field? f.name = some f := by
  unfold field?
  unfold fieldNames at hnames
  generalize r.fields = fs at hf hnames
  induction fs with
  | nil => cases hf
  | cons g fs ih =>
    obtain ⟨hg, hnames⟩ := List.nodup_cons.mp hnames
    rcases List.mem_cons.mp hf with rfl | hf
    · rw [List.find?_cons_of_pos (by simp)]
    · rw [List.find?_cons_of_neg, ih hf hnames]
      rw [beq_iff_eq]
      intro h
      exact hg (List.mem_map.mpr ⟨f, hf, h.symm⟩)

theorem field?_eq_none {name : String} (h : name ∉ r.fieldNames) : r.field? name = none := by
  unfold field?
  rw [List.find?_eq_none]
  intro f hf
  rw [beq_iff_eq]
  exact fun hname => h (hname ▸ List.mem_map_of_mem hf)

def Takes (r : RecordShape α) (e : String × Data) : Prop :=
  (r.field? e.1 = none ∧ e.2.skippable = true) ∨ ∃ f x, r.field? e.1 = some f ∧ f.read e.2 = .ok x

def Apart (r : RecordShape α) (a b : String × Data) : Prop := a.1 = b.1 → r.field? a.1 = none

theorem Apart.symm {a b : String × Data} (h : r.Apart a b) : r.Apart b a := by
  intro heq
  rw [heq]
  exact h heq.symm

theorem readEntries_takes (hstrict : r.strict = false) : ∀ (entries : List (String × Data)) (seen : List String),
    (∀ e ∈ entries, r.Takes e) → entries.Pairwise r.Apart → (∀ e ∈ entries, e.1 ∈ seen → r.field? e.1 = none) →
    ∃ xs, r.readEntries seen entries = .ok xs ∧ ∀ x, x ∈ xs ↔ r.Delivers entries x
  | [], _, _, _, _ => ⟨[], rfl, by simp [Delivers]⟩
  | (key, value) :: rest, seen, htakes, hapart, hseen => by
    obtain ⟨hhead, hapart⟩ := List.pairwise_cons.mp hapart
    have hrest := fun e he => htakes e (List.mem_cons_of_mem _ he)
    rcases htakes _ List.mem_cons_self with ⟨hnone, hskip⟩ | ⟨f, x, hf, hx⟩
    · obtain ⟨xs, hxs, hmem⟩ := readEntries_takes hstrict rest seen hrest hapart
        fun e he => hseen e (List.mem_cons_of_mem _ he)
      refine ⟨xs, ?_, fun y => (hmem y).trans ?_⟩
      · rw [readEntries]
        simp only [hnone, hstrict, hskip, Bool.false_eq_true, if_false, if_true, hxs]
      · simp [Delivers, hnone]
    -- a field is read once, so its key must be new and no later entry may have it
    · have hkey : key ∉ seen := by
        intro hkey
        have := hseen _ List.mem_cons_self hkey
        simp [hf] at this
      obtain ⟨xs, hxs, hmem⟩ := readEntries_takes hstrict rest (key :: seen) hrest hapart (by
        intro e he hmem
        rcases List.mem_cons.mp hmem with heq | hmem
        · rw [heq]
          exact hhead e he heq.symm
        · exact hseen e (List.mem_cons_of_mem _ he) hmem)
      refine ⟨x :: xs, ?_, fun y => ?_⟩
      · rw [readEntries]
        simp only [hf, hkey, if_false, hx, hxs]
        rfl
      · rw [List.mem_cons, hmem y]
        simp [Delivers, hf, hx, eq_comm]

section

variable {es : List Entry} {kept extra entries : List (String × Data)} {parts : List α}

theorem Agrees.known (h : Agrees r.fields es parts) (hnames : r.fieldNames.Nodup) (hkept : Thinned es kept)
    (hskip : ∀ e ∈ kept, e.2.skippable = true) :
    ∀ e ∈ kept, ∃ f, r.field? e.1 = some f ∧ ∃ x ∈ parts, f.read e.2 = .ok x := by
  intro e he
  obtain ⟨f, hf, x, hx, hname, hread⟩ := h.kept hkept hskip e he
  exact ⟨f, hname ▸ field?_of_mem hnames hf, x, hx, hread⟩

theorem Agrees.unknown (h : Agrees r.fields es parts) (hextra : ∀ e ∈ extra, e.1 ∉ es.map Entry.name) :
    ∀ e ∈ extra, r.field? e.1 = none := by
  intro e he
  have hsame : r.fieldNames = es.map Entry.name := h.names
  exact field?_eq_none (hsame ▸ hextra e he)

theorem Agrees.apart (h : Agrees r.fields es parts) (hnames : r.fieldNames.Nodup) (hkept : Thinned es kept)
    (hunknown : ∀ e ∈ extra, r.field? e.1 = none) : (kept ++ extra).Pairwise r.Apart := by
  rw [List.pairwise_append]
  refine ⟨?_, ?_, ?_⟩
  · have hsame : r.fieldNames = es.map Entry.name := h.names
    have hnodup : (kept.map Prod.fst).Nodup := hkept.sublist.nodup (hsame ▸ hnames)
    exact (List.pairwise_map.mp hnodup).imp fun hne heq => absurd heq hne
  · exact List.pairwise_of_forall_mem_list fun a ha b _ _ => hunknown a ha
  · intro a _ b hb heq
    rw [heq]
    exact hunknown b hb

theorem Agrees.nothing_missing (h : Agrees r.fields es parts) (hkept : Thinned es kept) (hsub : kept ⊆ entries) :
    r.missing? entries = none := by
  unfold missing?
  rw [Option.map_eq_none_iff, List.find?_eq_none]
  intro f hf
  rw [Bool.and_eq_true, Bool.not_eq_true', List.any_eq_false]
  rintro ⟨hreq, hany⟩
  obtain ⟨e, he, hname⟩ := h.there hkept f hf hreq
  exact hany e (hsub he) (beq_iff_eq.mpr hname)

end

/-- A record that is not strict is read from every way to write it: as parts of the record, among which
are those of all entries that may not be left out. -/
theorem read_spelled (hstrict : r.strict = false) (hnames : r.fieldNames.Nodup) {es : List Entry} {parts : List α}
    (hagrees : Agrees r.fields es parts) {d : Data} (hd : Spelled es d) (hskip : d.skippable = true) :
    ∃ xs, r.read d = .ok xs ∧ (∀ x ∈ xs, x ∈ parts) ∧
      List.Forall₂ (fun e x => e.optional = true ∨ x ∈ xs) es parts := by
  obtain ⟨kept, extra, entries, hkept, hextra, hperm, rfl⟩ := hd
  simp only [Data.ofEntries, Data.skippable, Bool.and_eq_true] at hskip
  have hskip : ∀ e ∈ kept ++ extra, e.2.skippable = true := fun e he =>
    skippableEntries_iff.mp hskip.1 e (hperm.symm.subset he)
  have hkeptSkip := fun e he => hskip e (List.mem_append_left _ he)
  have hsub : kept ⊆ entries := fun e he => hperm.symm.subset (List.mem_append_left _ he)
  have hknown := hagrees.known hnames hkept hkeptSkip
  have hunknown := hagrees.unknown hextra
  have htakes : ∀ e ∈ entries, r.Takes e := by
    intro e he
    rcases List.mem_append.mp (hperm.subset he) with he | he
    · obtain ⟨f, hf, x, -, hx⟩ := hknown e he
      exact .inr ⟨f, x, hf, hx⟩
    · exact .inl ⟨hunknown e he, hskip e (List.mem_append_right _ he)⟩
  have hapart : entries.Pairwise r.Apart :=
    (hperm.pairwise_iff Apart.symm).mpr (hagrees.apart hnames hkept hunknown)
  obtain ⟨xs, hxs, hmem⟩ := readEntries_takes hstrict entries [] htakes hapart (by simp)
  have hdelivered := hagrees.delivered (fun f hf => field?_of_mem hnames hf) hkept hkeptSkip
  refine ⟨xs, ?_, ?_, hdelivered.imp ?_⟩
  · simp only [Data.ofEntries, read, hxs, Data.uncut, Option.isSome_none, Bool.false_eq_true, if_false,
      hagrees.nothing_missing hkept hsub]
  · intro x hx
    obtain ⟨e, he, f, hf, hread⟩ := (hmem x).mp hx
    rcases List.mem_append.mp (hperm.subset he) with he | he
    · obtain ⟨g, hg, y, hy, hyread⟩ := hknown e he
      cases hf.symm.trans hg
      cases hread.symm.trans hyread
      exact hy
    · cases hf.symm.trans (hunknown e he)
  · rintro e x (he | ⟨a, ha, hx⟩)
    · exact .inl he
    · exact .inr ((hmem x).mpr ⟨a, hsub ha, hx⟩)

end RecordShape

/-! ## Parts -/

section

variable {α β : Type} {xs parts : List α} {pick : α → Option β} {x : α} {v : β}

theorem pick_required (hsub : ∀ y ∈ xs, y ∈ parts) (hmem : x ∈ xs) (hx : pick x = some v)
    (hpick : ∀ y ∈ parts, ∀ u, pick y = some u → u = v) : xs.findSome? pick = some v := by
  cases hfind : xs.findSome? pick with
  | none =>
    rw [List.findSome?_eq_none_iff.mp hfind x hmem] at hx
    cases hx
  | some u =>
    obtain ⟨y, hy, hu⟩ := List.exists_of_findSome?_eq_some hfind
    rw [hpick y (hsub y hy) u hu]

theorem pick_optional {standard : β} {optional : Bool} (hsub : ∀ y ∈ xs, y ∈ parts) (hmem : optional = true ∨ x ∈ xs)
    (hx : pick x = some v) (hpick : ∀ y ∈ parts, ∀ u, pick y = some u → u = v) (hopt : optional = true → v = standard) :
    (xs.findSome? pick).getD standard = v := by
  cases hfind : xs.findSome? pick with
  | some u =>
    obtain ⟨y, hy, hu⟩ := List.exists_of_findSome?_eq_some hfind
    exact hpick y (hsub y hy) u hu
  | none =>
    rcases hmem with hmem | hmem
    · exact (hopt hmem).symm
    · rw [List.findSome?_eq_none_iff.mp hfind x hmem] at hx
      cases hx

end

end ClassModel.Document
