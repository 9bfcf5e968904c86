import ClassModel.Proofs.Graph.Retention

/-!
# Classes on demand

Sources are asked for a name in turn until one of them has defined it, and then nobody is asked for it any
more. This takes sources that define the class that they are asked for or none, which can be seen from their
programs.
-/

namespace ClassModel

open Change Name Relation World

/-! ## Sources that define what they are asked for -/

/-- Whatever the program is told, it defines nothing but the class `name` and answers with what it has defined.
The classes in `own` it has defined already. -/
def Program.Proper (name : String) : Program → List ClassId → Prop
  | .answer found, own => own = found.toList
  | .define package simpleName _ next, own => qualify package simpleName = name ∧
    (∀ c, (next (.ok c)).Proper name (c :: own)) ∧ ∀ e, (next (.error e)).Proper name own
  | .create _ _ _ _ next, own => ∀ r, (next r).Proper name own
  | .edit _ next, own => ∀ r, (next r).Proper name own
  | .lookup _ next, own => ∀ r, (next r).Proper name own
  | .lookupDefault _ next, own => ∀ r, (next r).Proper name own
  | .load _ next, own => ∀ c, (next c).Proper name own
  | .placeholder _ next, own => ∀ c, (next c).Proper name own
  | .classes next, own => ∀ cs, (next cs).Proper name own
  | .inspect _ next, own => ∀ n, (next n).Proper name own

def Source.Proper (s : Source) : Prop := ∀ asked name, (s.program asked name).Proper name []

theorem SourceRule.proper_touch (names : List (String × String)) : (touch names).source.Proper := by
  intro _ name
  show (SourceRule.program (touch names) name).Proper name []
  unfold SourceRule.program
  dsimp only
  cases get? names name with
  | none => rfl
  | some other => exact fun _ _ => rfl

theorem SourceRule.proper_package {p : String} (hp : p ≠ "") : (package p none).source.Proper := by
  intro _ name
  show (SourceRule.program (package p none) name).Proper name []
  unfold SourceRule.program
  dsimp only
  by_cases hname : packageOf name = p
  · rw [if_pos hname]
    exact ⟨qualify_of_packageOf (by rw [hname]; exact hp), fun _ => rfl, fun _ => rfl⟩
  · rw [if_neg hname]
    rfl

namespace Program.Proper

variable {l : LoaderId} {w w' : World} {p p' : Program} {name : String} {own : List ClassId}

theorem goes {new : Option (String × ClassId)} (h : p.Proper name own) (hnext : p.next l w = .goes new p' w') :
    (∀ e ∈ new, e.1 = name) ∧ p'.Proper name (new.toList.map (·.2) ++ own) := by
  have hnone : ∀ e ∈ (none : Option (String × ClassId)), e.1 = name := fun e he => by cases he
  cases p with
  | define package simpleName imports next =>
    obtain ⟨hname, hok, herror⟩ := h
    simp only [Program.next, Next.goes.injEq] at hnext
    obtain ⟨rfl, rfl, -⟩ := hnext
    cases ((Loader.define l package simpleName imports).run w).1 with
    | ok c =>
      refine ⟨fun e he => ?_, hok c⟩
      cases he
      exact hname
    | error e => exact ⟨hnone, herror e⟩
  | create | edit | placeholder | classes | inspect => cases hnext; exact ⟨hnone, h _⟩
  | lookupDefault n next =>
    simp only [Program.next] at hnext
    split at hnext
    · cases hnext; exact ⟨hnone, h _⟩
    · cases hnext
  | answer | lookup | load => cases hnext

theorem looks {names : List String} {missed : Option Log.Event} {resume : Option ClassId → Program}
    (h : p.Proper name own) (hnext : p.next l w = .looks names missed resume) (found : Option ClassId) :
    (resume found).Proper name own := by
  cases p with
  | lookup n next => cases hnext; exact h found
  | lookupDefault n next =>
    simp only [Program.next] at hnext
    split at hnext
    · cases hnext
    · cases hnext; exact h found
  | load n next =>
    cases hnext
    cases found with
    | some c => exact h c
    | none => exact fun c => h c
  | answer | define | create | edit | placeholder | classes | inspect => cases hnext

end Program.Proper

def Asking.Fair (a : Asking) (p : Program) : Prop := (∀ e ∈ a.own, e.1 = a.name) ∧ p.Proper a.name (a.own.map (·.2))

namespace Moment

section
variable {l : LoaderId} {u : World} {m : Moment}

theorem lasting_fair (hsources : ∀ s ∈ (u.loader l).sources, s.Proper) : Lasting l u Asking.Fair fun _ => True := by
  refine ⟨fun s hs a asked hown => ?_, fun {w w' a p p' own} h hnext => ?_, fun _ h hnext => ?_⟩
  · unfold Asking.Fair
    rw [hown]
    exact ⟨nofun, hsources s hs asked a.name⟩
  · obtain ⟨hnew, hp⟩ := h.2.goes hnext
    refine ⟨fun e he => ?_, by rw [List.map_append]; exact hp⟩
    rcases List.mem_append.mp he with he | he
    · exact hnew e (Option.mem_toList.mp he)
    · exact h.1 e he
  · exact ⟨fun _ _ => trivial, fun found => ⟨h.1, h.2.looks hnext found⟩⟩

/-- Where all sources define what they are asked for, they do so at any time. -/
theorem proper_of_sources (hu : l.index < u.loaders.size) (hsources : ∀ s ∈ (u.loader l).sources, s.Proper)
    {name : String} (h : Course l (start u name) m) : m.Proper := by
  have habiding := Course.abiding hu (lasting_fair hsources) h
  exact ⟨fun a p ha => (habiding.runs a p ha).1, fun a _ ha => (habiding.runs a _ ha).2⟩

end

/-! ## Whole lookups -/

structure InOrder (l : LoaderId) (u : World) (m : Moment) : Prop where
  /-- No name is asked for while it is being asked for. -/
  once : (m.asking.map (·.name)).Nodup
  turns : ∀ a ∈ m.asking, a.InTurn (u.loader l).sources m.happened
  /-- The loader has a record of all that has been asked. -/
  noted : (m.world.loader l).asked = m.happened.filterMap (·.request?) ++ (u.loader l).asked
  settled : m.happened.Pairwise Happening.Follows
  told : ∀ name c, .returned name (some c) ∈ m.happened → (m.world.loader l).cached? name = some c
  /-- A name that the loader knows does not get to a source in the rest of the lookup. -/
  unasked : ∀ name c, (m.world.loader l).cached? name = some c → ∀ m', Course l m m' →
    ∃ new, m'.happened = new ++ m.happened ∧
      ∀ e ∈ new, (∀ i, e ≠ .asked i name) ∧ ∀ found, e = .returned name found → found = some c
  /-- It does not after any number of calls, and the loader still answers with the same class. -/
  lasts : ∀ name c, (m.world.loader l).cached? name = some c → ∀ w, Run m.world w →
    (w.loader l).asked.filter (·.2 = name) = (m.world.loader l).asked.filter (·.2 = name) ∧
      Loader.lookup l name w = (some c, w)

/-- While a name is being looked up, the sources are asked for it one after the other and none twice, whatever
else is looked up meanwhile, and none after one that has answered. A name that has been answered, or is known
from the start, is not asked for any more, and every later lookup has the same class. This goes for lookups
that end and for what there is of those that do not. -/
theorem sources_asked_in_turn {l : LoaderId} {w : World} (hl : l.index < w.loaders.size) {name : String}
    (hproper : ∀ m, Course l (start w name) m → m.Proper) :
    (∀ m, Course l (start w name) m → m.InOrder l w) ∧
      ∀ found v, (∃ depth, Loader.lookupWithin depth l name w = some (found, v)) ↔
        ∃ happened, Course l (start w name) ⟨v, .hands found, [], .returned name found :: happened⟩ := by
  refine ⟨fun m hm => ?_, fun found v => lookupWithin_iff_course⟩
  have hunder := Course.underway hl hm
  have hknown := Course.known hl hproper hm
  refine ⟨hunder.nodup, hunder.inTurn, hunder.asked, hknown.settled, fun n c hn => hknown.told _ hn n c rfl,
    fun n c hc m' hm' => (Course.lasts hl hproper hm hm' hc).2, fun n c hc v hrun => ?_⟩
  obtain ⟨hcached, hasked⟩ := hrun.retains.known l n c hunder.lt hc
  exact ⟨hasked, lookup_of_cached hcached⟩

/-! A source that looks another name up and answers nothing, and one in which every class exists. -/

def touching : World :=
  (Loader.make .standard
    [(SourceRule.touch [("gen.A", "gen.B")]).source, (SourceRule.package "gen" none).source] .empty).2

theorem make_touching : Loader.make .standard
    [(SourceRule.touch [("gen.A", "gen.B")]).source, (SourceRule.package "gen" none).source] .empty =
      (.ok ⟨0⟩, touching) := run_of_ok (by decide +kernel)

theorem proper_touching : ∀ s ∈ (touching.loader ⟨0⟩).sources, s.Proper := by
  obtain ⟨-, hl, hw⟩ := (Loader.make_makes _ _ .empty).ok make_touching
  rw [hw, hl, (withLoader_spec .empty .standard _).self]
  exact List.forall_mem_cons.mpr ⟨SourceRule.proper_touch _,
    List.forall_mem_singleton.mpr (SourceRule.proper_package (by decide))⟩

/-- The second class is defined while the first one is looked up, and each source is asked for each. -/
theorem touching_asked_in_turn : 0 < touching.loaders.size ∧
    (∀ m, Course ⟨0⟩ (start touching "gen.A") m → m.Proper) ∧
    ∃ v, Loader.lookupWithin 4 ⟨0⟩ "gen.A" touching = some (some ⟨11⟩, v) ∧
      (v.loader ⟨0⟩).asked = [(1, "gen.A"), (1, "gen.B"), (0, "gen.B"), (0, "gen.A")] ∧
      Loader.lookup ⟨0⟩ "gen.A" v = (some ⟨11⟩, v) := by
  have hl : 0 < touching.loaders.size := by decide +kernel
  have hproper (m : Moment) (hm : Course ⟨0⟩ (start touching "gen.A") m) : m.Proper :=
    proper_of_sources hl proper_touching hm
  have hrun : (Loader.lookupWithin 4 ⟨0⟩ "gen.A" touching).map (fun r => (r.1, (r.2.loader ⟨0⟩).asked)) =
      some (some ⟨11⟩, [(1, "gen.A"), (1, "gen.B"), (0, "gen.B"), (0, "gen.A")]) := by decide +kernel
  obtain ⟨⟨found, v⟩, hv, heq⟩ := Option.map_eq_some_iff.mp hrun
  obtain ⟨rfl, hasked⟩ := Prod.mk.inj heq
  obtain ⟨hinOrder, hends⟩ := sources_asked_in_turn hl hproper
  obtain ⟨happened, hcourse⟩ := (hends _ v).mp ⟨4, hv⟩
  have hend := hinOrder _ hcourse
  have hcached := hend.told "gen.A" ⟨11⟩ (List.mem_cons_self ..)
  exact ⟨hl, hproper, v, hv, hasked, (hend.lasts _ _ hcached v .refl).2⟩

end Moment

end ClassModel
