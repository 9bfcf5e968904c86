import ClassModel.Proofs.Graph.Calls
import ClassModel.Proofs.Graph.Registration

/-!
# Loaders that ask nobody

What a loader without sources holds it has made itself, under the name by which it is held. While
the loader and its classes are there, what is written in them is looked up there and nowhere else, so
apart from direct references nothing leads out of the loader.
-/

namespace ClassModel

open Name

namespace World

structure Own (w : World) (l : LoaderId) (c : ClassId) : Prop where
  lt : c.index < w.nodes.size
  lookup : (w.node c).lookup = some (.loader l)

structure Housed (w : World) (l : LoaderId) (name : String) (c : ClassId) : Prop extends w.Own l c where
  settings : (w.node c).settings = (w.loader l).settings
  nameOf : w.nameOf c = qualify (packageOf name) (simpleNameOf name)

structure Houses (w : World) (l : LoaderId) : Prop where
  classes : ∀ e ∈ (w.loader l).classes, w.Housed l e.1 e.2 ∧ IsClassName e.1 ∧
    ¬ Loader.IsBuiltinName (w.loader l).settings e.1
  standIns : ∀ e ∈ (w.loader l).placeholders, w.Housed l e.1 e.2

structure Orderly (w : World) : Prop where
  sound : ∃ made, w.Sound made
  houses : ∀ l, (w.loader l).sources = [] → w.Houses l

section
variable {w w' : World} {made made' : List (LoaderId × ClassId)} {l : LoaderId} {name : String} {c d : ClassId}

theorem Own.keeps (h : w.Own l c) (hk : w.Keeps w') : w'.Own l c :=
  ⟨Nat.lt_of_lt_of_le h.lt hk.size, by rw [(hk.same c h.lt).lookup]; exact h.lookup⟩

theorem Housed.keeps (h : w.Housed l name c) (hk : w.Keeps w') (hl : l.index < w.loaders.size) :
    w'.Housed l name c where
  toOwn := h.toOwn.keeps hk
  settings := by rw [(hk.same c h.lt).settings, (hk.loaders l hl).2.1]; exact h.settings
  nameOf := by rw [hk.nameOf h.lt]; exact h.nameOf

/-! ## What moves do to the classes of a loader -/

theorem Houses.of_subset (h : w.Houses l) (hk : w.Keeps w') (hl : l.index < w.loaders.size)
    (hc : (w'.loader l).classes ⊆ (w.loader l).classes) (hs : (w'.loader l).placeholders ⊆ (w.loader l).placeholders) :
    w'.Houses l where
  classes e he := by
    obtain ⟨hh, hname, hb⟩ := h.classes e (hc he)
    exact ⟨hh.keeps hk hl, hname, by rw [(hk.loaders l hl).2.1]; exact hb⟩
  standIns e he := (h.standIns e (hs he)).keeps hk hl

theorem Houses.of_none (hc : (w.loader l).classes = []) (hs : (w.loader l).placeholders = []) : w.Houses l :=
  ⟨fun e he => (by rw [hc] at he; cases he), fun e he => (by rw [hs] at he; cases he)⟩

theorem Houses.of_same (h : w.Houses l) (hk : w.Keeps w') (he : w'.loader l = w.loader l) : w'.Houses l := by
  by_cases hl : l.index < w.loaders.size
  · exact h.of_subset hk hl (by rw [he]; exact fun _ h => h) (by rw [he]; exact fun _ h => h)
  · have hnone : w.loader l = default := Store.get_of_size_le _ (Nat.not_lt.mp hl)
    exact .of_none (by rw [he, hnone]; rfl) (by rw [he, hnone]; rfl)

theorem Houses.define {l' : LoaderId} {package simpleName : String} {imports : List Import} (h : w.Houses l)
    (hw : w.Sound made) (hok : Loader.define l' package simpleName imports w = (.ok c, w')) : w'.Houses l := by
  have hk := Keeps.define hok
  obtain ⟨⟨hp, hs, hb, -⟩, rfl, rfl⟩ := (Loader.define_makes l' package simpleName imports w).ok hok
  obtain ⟨rfl, hl, hself⟩ | hsame := w.loader_withDefined_cases package simpleName imports l l'
  · have hname := isClassName_qualify hp hs
    have hnode := node_withDefined_self (w := w) (l := l) package simpleName imports
    have hnew : (w.withDefined l package simpleName imports).Housed l (qualify package simpleName) w.nextClass := by
      refine ⟨⟨?_, by rw [hnode]; rfl⟩, by rw [hnode, hself]; rfl, ?_⟩
      · rw [size_withDefined]
        exact Nat.lt_succ_self _
      · rw [qualify_packageOf_simpleNameOf hname]
        exact nameOf_withDefined_self package simpleName imports
    refine ⟨fun e he => ?_, fun e he => ?_⟩
    · rw [hself] at he ⊢
      rcases Registry.mem_insert_subset he with rfl | he
      -- a built-in type holds its name, so that nothing was defined under it
      · refine ⟨hnew, hname, fun hbuiltin => ?_⟩
        obtain ⟨kind, hkind⟩ := Loader.isBuiltinName_iff.mp hbuiltin
        have := ((hw.loaders l).provides hl).all _ hkind
        rw [hb] at this
        cases this
      · obtain ⟨hh, hname, hnot⟩ := h.classes e he
        exact ⟨hh.keeps hk hl, hname, hnot⟩
    · rw [hself] at he
      exact (h.standIns e (Registry.mem_erase.mp he).1).keeps hk hl
  · exact h.of_same hk hsame

theorem Houses.placeholder (h : w.Houses l) (l' : LoaderId) (name : String) :
    (Loader.placeholder l' name w).2.Houses l := by
  have hk := Keeps.standIn w l' name
  rw [placeholder_run] at hk ⊢
  cases hp : (w.loader l').placeholders.get? name with
  | some d => exact h
  | none =>
    rw [hp] at hk
    let n := Loader.standIn name (some (.loader l')) (w.loader l').settings
    obtain ⟨rfl, hl, hself⟩ | hsame := (w.withNode n).loader_editLoader_cases l l' fun x =>
      { x with placeholders := x.placeholders.insert name w.nextClass }
    · refine ⟨fun e he => ?_, fun e he => ?_⟩
      · rw [hself] at he ⊢
        obtain ⟨hh, hname, hnot⟩ := h.classes e he
        exact ⟨hh.keeps hk hl, hname, hnot⟩
      · rw [hself] at he
        rcases Registry.mem_insert_subset he with rfl | he
        · have hnode : (w.withNode n).node w.nextClass = n := Store.get_push_self _ _
          refine ⟨⟨?_, congrArg ClassNode.lookup hnode⟩, ?_, congrArg ClassNode.qualifiedName hnode⟩
          · show w.nodes.size < (w.nodes.push _).size
            simp
          · rw [hself]
            exact congrArg ClassNode.settings hnode
        · exact (h.standIns e he).keeps hk hl
    · exact h.of_same hk hsame

theorem Move.houses (hm : Move w made' w') (hw : w.Sound made) (h : w.Houses l) (hs : (w.loader l).sources = []) :
    w'.Houses l := by
  have hk := hm.keeps
  cases hm with
  | @make _ settings sources _ hok =>
    obtain ⟨-, -, rfl⟩ := (Loader.make_makes _ _ w).ok hok
    have hspec := withLoader_spec w settings sources
    by_cases hl : l = w.nextLoader
    · subst hl
      exact .of_none (by rw [hspec.self]) (by rw [hspec.self])
    · exact h.of_same hk (hspec.other l hl)
  | define _ _ hok => exact h.define hw hok
  | defineUncounted _ hok => exact h.define hw hok
  | create hok =>
    obtain ⟨-, -, rfl⟩ := (createClass_makes _ _ _ _ w).ok hok
    exact h.of_same hk rfl
  | @edit _ e _ hok =>
    have hloaders := (e.spares w).loaders
    rw [hok] at hloaders
    exact h.of_same hk (by unfold World.loader; rw [hloaders])
  | standIn l' name => exact h.placeholder l' name
  | @answer l' d hs' =>
    have hll : l ≠ l' := by
      rintro rfl
      exact hs' hs
    exact h.of_same hk (w.loader_editLoader_of_ne hll _)
  | ask l' f g =>
    obtain ⟨rfl, hl, hself⟩ | hsame := w.loader_editLoader_cases l l' fun x =>
      { x with loading := f x.loading, asked := g x.asked }
    · exact h.of_subset hk hl (by rw [hself]; exact fun _ h => h) (by rw [hself]; exact fun _ h => h)
    · exact h.of_same hk hsame
  | _ => exact h.of_same hk rfl

theorem Orderly.empty : World.empty.Orderly := ⟨soundEmpty, fun _ _ => .of_none rfl rfl⟩

theorem Orderly.move (h : w.Orderly) (hm : Move w made' w') : w'.Orderly := by
  obtain ⟨made, hw⟩ := h.sound
  refine ⟨⟨_, hm.sound hw⟩, fun l hs => ?_⟩
  have hs := hm.keeps.sources_eq_nil hs
  exact hm.houses hw (h.houses l hs) hs

theorem Orderly.builds (h : w.Orderly) (hb : w.Builds w') : w'.Orderly := by
  obtain ⟨made, hm⟩ := hb.moves
  clear hb
  induction hm with
  | refl => exact h
  | tail _ hm ih => exact ih.move hm

/-! ## Nothing leads out -/

theorem Sound.housed_builtin (h : w.Sound made) (hc : (name, c) ∈ (w.loader l).builtins) : w.Housed l name c := by
  obtain ⟨hlt, kind, -, hn⟩ := ((h.loaders l).provides (lt_of_mem_builtins hc)).node _ hc
  exact ⟨⟨hlt, congrArg ClassNode.lookup hn⟩, congrArg ClassNode.settings hn, congrArg ClassNode.qualifiedName hn⟩

/-- What a loader that asks nobody finds under a name it has made for this name, which is well formed. -/
theorem Orderly.housed_of_cached (h : w.Orderly) (hs : (w.loader l).sources = [])
    (hc : (w.loader l).cached? name = some c) : w.Housed l name c ∧ IsClassName name := by
  obtain ⟨made, hw⟩ := h.sound
  rcases Option.or_eq_some_iff.mp hc with hb | ⟨-, hb⟩
  · have hmem := Registry.mem_of_get? hb
    obtain ⟨-, kind, hkind, -⟩ := ((hw.loaders l).provides (lt_of_mem_builtins hmem)).node _ hmem
    exact ⟨hw.housed_builtin hmem,
      Loader.isClassName_of_builtin (hw.loaders l).settings (Loader.isBuiltinName_iff.mpr ⟨kind, hkind⟩)⟩
  · obtain ⟨hh, hname, -⟩ := (h.houses l hs).classes _ (Registry.mem_of_get? hb)
    exact ⟨hh, hname⟩

/-- What goes by a well-formed name has this name. -/
theorem Orderly.leadName_of_goesBy (h : w.Orderly) (hs : (w.loader l).sources = []) (hname : IsClassName name)
    {x : Lead} (hx : w.GoesBy l name x) : w.leadName x = name ∧ ∀ c, x = .known c → c.index < w.nodes.size := by
  have hjoin := qualify_packageOf_simpleNameOf hname
  have hhoused {c : ClassId} (hc : w.Housed l name c) :
      w.leadName (.known c) = name ∧ ∀ d, Lead.known c = .known d → d.index < w.nodes.size :=
    ⟨hc.nameOf.trans hjoin, by rintro d ⟨⟩; exact hc.lt⟩
  cases x with
  | known c =>
    rcases hx with hx | hx | ⟨hlt, lookup, settings, hn⟩
    · exact hhoused (h.housed_of_cached hs hx).1
    · exact hhoused ((h.houses l hs).standIns _ (Registry.mem_of_get? hx))
    · exact ⟨(congrArg ClassNode.qualifiedName hn).trans hjoin, by rintro d ⟨⟩; exact hlt⟩
  | missing other =>
    cases hx
    exact ⟨hjoin, nofun⟩

theorem Orderly.own_of_held (h : w.Orderly) (hs : (w.loader l).sources = []) (hc : c ∈ (w.loader l).held) :
    w.Own l c := by
  obtain ⟨made, hw⟩ := h.sound
  have hh := h.houses l hs
  rcases Loader.mem_held.mp hc with hc | hc | hc <;> obtain ⟨name, hc⟩ := Registry.mem_values.mp hc
  · exact (hw.housed_builtin hc).toOwn
  · exact (hh.classes _ hc).1.toOwn
  · exact (hh.standIns _ hc).toOwn

/-- If the loader of class `c` and the class are there and the loader asks nobody, then `d` is a class of
this loader too. -/
structure Encloses (w : World) (c d : ClassId) : Prop where
  lt : c.index < w.nodes.size
  own : ∀ l, (w.node c).lookup = some (.loader l) → w.isAlive (.node c) → w.isAlive (.loader l) →
    (w.loader l).sources = [] → w.Own l d

def Inward (w : World) : Prop :=
  ∀ r c d, (w.reference r).target.context? = some c → (w.reference r).memo = some d → w.Encloses c d

theorem Encloses.keeps (h : w.Encloses c d) (hk : w.Keeps w') : w'.Encloses c d where
  lt := Nat.lt_of_lt_of_le h.lt hk.size
  own l hlookup hnode hloader hs := by
    rw [(hk.same c h.lt).lookup] at hlookup
    exact (h.own l hlookup (hk.isAlive hnode) (hk.isAlive hloader) (hk.sources_eq_nil hs)).keeps hk

theorem Inward.adds (h : w.Inward) (hk : w.Keeps w') (ha : w.AddsReferences w') : w'.Inward := by
  intro r c d hc hd
  by_cases hr : r.index < w.references.size
  · rw [show w'.reference r = w.reference r from ha.kept.get_eq _ hr] at hc hd
    exact (h r c d hc hd).keeps hk
  · rw [ha.unresolved r (Nat.not_lt.mp hr)] at hd
    cases hd

theorem MayRemember.encloses {r : RefId} (h : w.MayRemember r c) (hw : w.Orderly)
    (hd : (w.reference r).target.context? = some d) : w.Encloses d c where
  lt := h.placed.context d hd
  own l hlookup hnode hloader hs := by
    rcases h.belongs d hd l hlookup hnode hloader hs with hheld | ⟨hlt, hlookup⟩
    · exact hw.own_of_held hs hheld
    · exact ⟨hlt, hlookup⟩

theorem Inward.remember {r : RefId} (h : w.Inward) (hw : w.Orderly) (hm : w.MayRemember r c) :
    (w.editReference r fun x => { x with memo := some c }).Inward := by
  intro q e d he hd
  have hk : w.Keeps (w.editReference r fun x => { x with memo := some c }) := .editReference fun _ => rfl
  rw [reference_remember] at he hd
  split at hd
  · rename_i hq
    rw [if_pos hq] at he
    obtain ⟨rfl, -⟩ := hq
    cases hd
    exact (hm.encloses hw he).keeps hk
  · rename_i hq
    rw [if_neg hq] at he
    exact (h q e d he hd).keeps hk

theorem Run.enclosed (h : Run .empty w) : w.Orderly ∧ w.Inward :=
  h.lasts (P := fun w => w.Orderly ∧ w.Inward) soundEmpty ⟨.empty, fun _ _ _ _ hd => by cases hd⟩
    (fun ⟨ho, hi⟩ hb => ⟨ho.builds hb, hi.adds hb.keeps hb.references⟩)
    fun ⟨ho, hi⟩ hm => ⟨ho.move (.remember _ _ _), hi.remember ho hm⟩

end

end World

end ClassModel
