import ClassModel.Proofs.Graph.Runs
import ClassModel.Proofs.Snapshot.WellNamed

/-!
# Snapshots of reachable loaders

The snapshot of a loader that holds only what it has defined can be restored, and the restored
loader has the same snapshot. This rests on the soundness of reachable worlds: whatever has been
stored has passed the checks that restoring makes.
-/

namespace ClassModel

open Change Name

namespace World

/-- Loader `l` has registered nothing but what it has defined, its classes have imports that come
from texts, and they refer directly only to builtins and defined classes. -/
structure Portable (w : World) (made : List (LoaderId × ClassId)) (l : LoaderId) : Prop where
  defined : ∀ c ∈ (w.loader l).classes.values, (l, c) ∈ made
  imports : ∀ c ∈ (w.loader l).classes.values, ∀ i ∈ (w.node c).imports, ∃ t, Import.parse t = .ok i
  direct : ∀ c ∈ (w.loader l).classes.values, ∀ r ∈ w.shownReferences c, ∀ d, (w.reference r).target = .direct d →
    (w.node d).isBuiltinType = true ∨ ∃ k, (k, d) ∈ made

section
variable {w : World} {made : List (LoaderId × ClassId)} {l : LoaderId} {c : ClassId}

/-- The loader's classes hold nothing that their snapshot could not. -/
theorem Portable.wellFormed (h : w.Sound made) (hp : w.Portable made l) :
    (w.snapshot l).WellFormed (w.loader l).settings := by
  refine (h.wellFormed_iff hp.defined).mpr fun c hc => ⟨fun i hi => ?_, fun r hr d hd => ?_⟩
  · obtain ⟨t, ht⟩ := hp.imports c hc i hi
    exact ⟨i, Import.parse_text ht⟩
  · exact h.isClassName (hp.direct c hc r hr d hd)

/-! ## The snapshot is its own normal form -/

theorem shown_shown (x : ClassSnapshot) : x.shown.shown = x.shown := by
  unfold ClassSnapshot.shown
  by_cases hx : x.isUnresolved = true <;> simp [hx]

theorem Portable.trimmed (hp : w.Portable made l) {x : ClassSnapshot} (hx : x ∈ (w.snapshot l).classes) :
    x.trimmed = x := by
  obtain ⟨c, hc, rfl⟩ := List.mem_map.mp hx
  have himports : (w.captureClass c).imports.map Text.trim = (w.captureClass c).imports := by
    show ((w.node c).imports.map Import.text).map Text.trim = (w.node c).imports.map Import.text
    rw [List.map_map]
    refine List.map_congr_left fun i hi => ?_
    obtain ⟨t, ht⟩ := hp.imports c hc i hi
    rw [Function.comp, Import.text_of_parse ht, Text.trim_trim]
  unfold ClassSnapshot.trimmed
  rw [himports]

theorem Portable.records (h : w.Sound made) (hp : w.Portable made l) :
    (w.snapshot l).records = (w.snapshot l).classes := by
  have horder : Snapshot.inOrder (w.snapshot l).classes = (w.snapshot l).classes :=
    Snapshot.eq_of_perm_of_ascending (Snapshot.inOrder_perm _)
      (Snapshot.inOrder_ascending (hp.wellFormed h).distinct) (h.ascending hp.defined)
  unfold Snapshot.records
  rw [horder]
  exact (List.map_congr_left fun x hx => hp.trimmed hx).trans (List.map_id _)

theorem Portable.normal (h : w.Sound made) (hp : w.Portable made l) : (w.snapshot l).normal = w.snapshot l := by
  have hshown : (w.snapshot l).classes.map (·.shown) = (w.snapshot l).classes := by
    rw [snapshot_eq]
    simp only [List.map_map]
    exact List.map_congr_left fun x _ => shown_shown x
  unfold Snapshot.normal
  rw [hp.records h, hshown]
  rfl

end

/-- The snapshot of a reachable loader is restored as it is. -/
theorem snapshot_restore_snapshot {w : World} {made : List (LoaderId × ClassId)} {l : LoaderId}
    (hw : Reached w made) (hp : w.Portable made l) (w₀ : World) :
    ∃ l' w', Snapshot.restore (w.loader l).settings (w.snapshot l) w₀ = (.ok l', w') ∧
      w'.snapshot l' = w.snapshot l := by
  obtain ⟨l', w', h, pairs, hr⟩ :=
    (Snapshot.restore_accepts (w.loader l).settings (w.snapshot l) w₀).1 (hp.wellFormed hw.sound)
  exact ⟨l', w', h, by rw [hr.snapshot, hp.normal hw.sound]⟩

/-! A loader with a class of its own that extends the root class and has a field. -/

def sample : World :=
  ((Edit.onClass ⟨10⟩ (.setSuperclassClass ⟨9⟩)).apply
    ((Edit.onClass ⟨10⟩ .addField).apply (Loader.define ⟨0⟩ "p" "A" [.single "p.B"] single).2).2).2

theorem reached_sample : Reached sample [(⟨0⟩, ⟨10⟩)] :=
  ((reached_single.define (c := ⟨10⟩) (by decide +kernel) (by decide +kernel) (by decide +kernel)).edit
    (a := .field ⟨0⟩) (by decide +kernel)).edit (a := .nothing) (by decide +kernel)

theorem sample_classes : (sample.loader ⟨0⟩).classes.values = [⟨10⟩] := by decide +kernel

theorem sample_direct {r : RefId} (hr : r ∈ sample.shownReferences ⟨10⟩) {d : ClassId}
    (hd : (sample.reference r).target = .direct d) : d = ⟨9⟩ := by
  have h : ∀ r ∈ sample.shownReferences ⟨10⟩, (sample.reference r).target = .direct ⟨9⟩ ∨
      (sample.reference r).target = .qualified "java.lang.Object" ⟨10⟩ := by decide +kernel
  rcases h r hr with h | h <;> rw [h] at hd <;> cases hd
  rfl

theorem portable_sample : sample.Portable [(⟨0⟩, ⟨10⟩)] ⟨0⟩ := by
  have himports : (sample.node ⟨10⟩).imports = [.single "p.B"] := by decide +kernel
  refine ⟨fun c hc => ?_, fun c hc i hi => ?_, fun c hc r hr d hd => ?_⟩ <;>
    (rw [sample_classes] at hc; cases List.mem_singleton.mp hc)
  · exact List.mem_singleton_self _
  · rw [himports] at hi
    cases List.mem_singleton.mp hi
    exact ⟨"p.B", by decide +kernel⟩
  · rw [sample_direct hr hd]
    exact .inl (by decide +kernel)

theorem sample_restore_snapshot : Reached sample [(⟨0⟩, ⟨10⟩)] ∧ sample.Portable [(⟨0⟩, ⟨10⟩)] ⟨0⟩ ∧
    ∃ l' w', Snapshot.restore (sample.loader ⟨0⟩).settings (sample.snapshot ⟨0⟩) .empty = (.ok l', w') ∧
      w'.snapshot l' = sample.snapshot ⟨0⟩ :=
  ⟨reached_sample, portable_sample, snapshot_restore_snapshot reached_sample portable_sample .empty⟩

end World

end ClassModel
