import ClassModel.Proofs.Graph.Rosters
import ClassModel.Proofs.Graph.Trails
import Mathlib.Data.Set.Card

/-!
# Members by path

A member is listed once for each path on which its class is come by. A path is told by its steps: which of the
references by which a class inherits is followed at each class. Members of a class stand in the order in which
they were made, so none of them is listed twice on one path.
-/

namespace ClassModel

open Relation

/-! ## Fields and methods -/

section
variable {α β : Type}

theorem collectEach_map {m : Type → Type} [Monad m] [LawfulMonad m] (g : α → β)
    {walk : ClassId → m (List α)} {walk' : ClassId → m (List β)} (h : ∀ c, walk' c = List.map g <$> walk c) :
    ∀ cs, collectEach walk' cs = List.map g <$> collectEach walk cs
  | [] => by simp [collectEach]
  | c :: cs => by simp [collectEach, h, collectEach_map g h cs]

/-- Whether what is listed of each class is changed on the way or at the end makes no difference. -/
theorem flattenBy_map (g : α → β) (declared : World → ClassId → List α) (depth : Nat) :
    ∀ c, flattenBy (fun w d => (declared w d).map g) depth c = List.map g <$> flattenBy declared depth c := by
  induction depth with
  | zero => exact fun _ => rfl
  | succ depth ih =>
    intro c
    have hsee : Bounded.see (fun w => (declared w c).map g) = List.map g <$> Bounded.see (declared · c) := rfl
    unfold flattenBy
    simp only [hsee, collectEach_map g ih, ih, map_bind, bind_map_left]
    refine bind_congr fun own => bind_congr fun interfaces => bind_congr fun below => bind_congr fun isInterface => ?_
    cases isInterface with
    | true => simp
    | false =>
      simp only [Bool.false_eq_true, if_false, map_bind]
      refine bind_congr fun d => ?_
      cases d <;> simp

theorem Bounded.complete_map (f : α → β) (s : Bounded α) (otherwise : α) :
    (f <$> s).complete (f otherwise) = f <$> s.complete otherwise := by
  funext w
  simp only [complete, Functor.map, StateT.map]
  cases s w <;> rfl

theorem flatten_eq_map (g : α → Member) (declared : World → ClassId → List α) (kind : MemberKind)
    (h : ∀ w c, w.declared kind c = (declared w c).map g) (c : ClassId) :
    c.flatten kind = do
      let bound ← Step.see World.walkBound
      let found ← (flattenBy declared bound c).complete []
      return found.map g := by
  have hkind : (fun w c => w.declared kind c) = fun w c => (declared w c).map g := funext fun w => funext (h w)
  unfold ClassId.flatten flattenWithin
  refine bind_congr fun bound => ?_
  rw [hkind, flattenBy_map, show ([] : List Member) = [].map g from rfl, Bounded.complete_map]
  rfl

theorem fields_eq_flatten (c : ClassId) : c.fields = c.flatten .field :=
  (flatten_eq_map .field _ .field (fun _ _ => rfl) c).symm

theorem methods_eq_flatten (c : ClassId) : c.methods = c.flatten .method :=
  (flatten_eq_map .method _ .method (fun _ _ => rfl) c).symm

end

namespace Descent

section
variable {α β : Type} {next : α → List α} {own : α → List β}

/-- Where a path leads that goes on, at each node, to the one of this number behind it. -/
def follow (next : α → List α) : α → List Nat → Option α
  | x, [] => some x
  | x, i :: path => (next x)[i]?.bind fun y => follow next y path

theorem gatherAll_flatMap {f : α → Option (List α)} {g : α → Option (List β)} (xs : List α)
    (h : ∀ x ∈ xs, g x = (f x).map (·.flatMap own)) : gatherAll g xs = (gatherAll f xs).map (·.flatMap own) := by
  induction xs with
  | nil => rfl
  | cons x xs ih =>
    obtain ⟨hx, hxs⟩ := List.forall_mem_cons.mp h
    simp only [gatherAll, hx, ih hxs]
    cases f x with
    | none => rfl
    | some a => cases gatherAll f xs <;> simp

theorem gather_eq_visits (next : α → List α) (own : α → List β) (depth : Nat) : ∀ x : α,
    gather next own depth x = (gather next (fun x => [x]) depth x).map (·.flatMap own) := by
  induction depth with
  | zero => intro x; rfl
  | succ depth ih =>
    intro x
    unfold gather
    rw [gatherAll_flatMap (next x) fun y _ => ih y]
    cases gatherAll (gather next (fun x => [x]) depth) (next x) <;> simp

theorem gatherAll_eq_flatMap {f : α → Option (List β)} : ∀ {xs : List α} {bs : List β}, gatherAll f xs = some bs →
    bs = xs.flatMap fun x => (f x).getD []
  | [], bs, h => by cases h; rfl
  | x :: xs, bs, h => by
    simp only [gatherAll, Option.bind_eq_some_iff, Option.map_eq_some_iff] at h
    obtain ⟨found, hfound, more, hmore, rfl⟩ := h
    rw [List.flatMap_cons, hfound, ← gatherAll_eq_flatMap hmore]
    rfl

variable [DecidableEq α]

/-- The paths through one of these nodes, which begin with its number counted from `k`. -/
theorem exists_paths_through {f : α → Option (List α)} {y : α} : ∀ {xs : List α} {ys : List α} (k : Nat),
    (∀ x ∈ xs, ∀ ys, f x = some ys → ∃ paths : List (List Nat), paths.Nodup ∧
      (∀ path, path ∈ paths ↔ follow next x path = some y) ∧ paths.length = ys.count y) →
    gatherAll f xs = some ys → ∃ paths : List (List Nat), paths.Nodup ∧
      (∀ path, path ∈ paths ↔ ∃ i x rest, path = (k + i) :: rest ∧ xs[i]? = some x ∧ follow next x rest = some y) ∧
      paths.length = ys.count y
  | [], ys, k, _, h => by
    cases h
    exact ⟨[], .nil, by simp, rfl⟩
  | x :: xs, ys, k, hf, h => by
    obtain ⟨hx, hxs⟩ := List.forall_mem_cons.mp hf
    simp only [gatherAll, Option.bind_eq_some_iff, Option.map_eq_some_iff] at h
    obtain ⟨found, hfound, more, hmore, rfl⟩ := h
    obtain ⟨ps, hps, hpsmem, hpslen⟩ := hx found hfound
    obtain ⟨qs, hqs, hqsmem, hqslen⟩ := exists_paths_through (k + 1) hxs hmore
    refine ⟨ps.map (k :: ·) ++ qs, ?_, fun path => ?_, by simp [hpslen, hqslen]⟩
    · -- Paths through the first node begin with `k`, all others with a larger number.
      refine List.nodup_append.mpr ⟨hps.map (List.cons_injective), hqs, ?_⟩
      rintro _ hp _ hq rfl
      obtain ⟨p, -, rfl⟩ := List.mem_map.mp hp
      obtain ⟨i, _, _, he, -⟩ := (hqsmem _).mp hq
      have := (List.cons.inj he).1
      omega
    · rw [List.mem_append, List.mem_map, hqsmem]
      constructor
      · rintro (⟨p, hp, rfl⟩ | ⟨i, z, rest, rfl, hz, hrest⟩)
        · exact ⟨0, x, p, rfl, rfl, (hpsmem p).mp hp⟩
        · exact ⟨i + 1, z, rest, by rw [Nat.add_right_comm k 1 i]; rfl, hz, hrest⟩
      · rintro ⟨i, z, rest, rfl, hz, hrest⟩
        cases i with
        | zero =>
          cases hz
          exact .inl ⟨rest, (hpsmem rest).mpr hrest, rfl⟩
        | succ i => exact .inr ⟨i, z, rest, by rw [Nat.add_right_comm k 1 i]; rfl, hz, hrest⟩

/-- A node is come by as often as there are paths to it. -/
theorem exists_paths {depth : Nat} {y : α} : ∀ {x : α} {ys : List α}, gather next (fun x => [x]) depth x = some ys →
    ∃ paths : List (List Nat), paths.Nodup ∧ (∀ path, path ∈ paths ↔ follow next x path = some y) ∧
      paths.length = ys.count y := by
  induction depth with
  | zero => intro x ys h; cases h
  | succ depth ih =>
    intro x ys h
    unfold gather at h
    obtain ⟨found, hfound, rfl⟩ := Option.map_eq_some_iff.mp h
    obtain ⟨qs, hqs, hqsmem, hqslen⟩ := exists_paths_through 0 (fun z _ zs hz => ih hz) hfound
    have hlonger (i : Nat) (rest : List Nat) : i :: rest ∈ qs ↔ follow next x (i :: rest) = some y := by
      rw [hqsmem, follow, Option.bind_eq_some_iff]
      constructor
      · rintro ⟨j, z, rest', he, hz, hrest⟩
        obtain ⟨rfl, rfl⟩ := List.cons.inj he
        exact ⟨z, by simpa using hz, hrest⟩
      · rintro ⟨z, hz, hrest⟩
        exact ⟨i, z, rest, by rw [Nat.zero_add], hz, hrest⟩
    have hnil : [] ∉ qs := fun h => by
      obtain ⟨_, _, _, he, -⟩ := (hqsmem _).mp h
      cases he
    -- The empty path is one more if this is the node itself.
    by_cases hxy : x = y
    · subst hxy
      refine ⟨[] :: qs, List.nodup_cons.mpr ⟨hnil, hqs⟩, fun path => ?_, by simp [hqslen]⟩
      cases path with
      | nil => simp [follow]
      | cons i rest => simp [hlonger]
    · refine ⟨qs, hqs, fun path => ?_, by simp [hqslen, hxy]⟩
      cases path with
      | nil => simp [follow, hxy, hnil]
      | cons i rest => exact hlonger i rest

end

end Descent

/-! ## Members in the order in which they were made -/

def Member.number : Member → Nat
  | .field f => f.index
  | .method m => m.index
  | .constructor k => k.index

structure ClassNode.Ascending (n : ClassNode) : Prop where
  fields : n.fields.Pairwise (·.index < ·.index)
  methods : n.methods.Pairwise (·.index < ·.index)

theorem ClassNode.Ascending.same {n n' : ClassNode} (h : n.Ascending) (hr : n.SameRoster n') : n'.Ascending :=
  ⟨by rw [hr.fields]; exact h.fields, by rw [hr.methods]; exact h.methods⟩

theorem pairwise_snoc {α : Type} {f : α → Nat} {xs : List α} {x : α} (h : xs.Pairwise (f · < f ·))
    (hx : ∀ y ∈ xs, f y < f x) : (xs ++ [x]).Pairwise (f · < f ·) :=
  List.pairwise_append.mpr ⟨h, List.pairwise_singleton _ _, fun y hy z hz => by
    rw [List.mem_singleton.mp hz]; exact hx y hy⟩

namespace World

section
variable {w w' : World} {made : List (LoaderId × ClassId)} {c : ClassId}

theorem ascending_editNode (h : ∀ c, (w.node c).Ascending) {d : ClassId} {f : ClassNode → ClassNode}
    (hf : (f (w.node d)).Ascending) (c : ClassId) : ((w.editNode d f).node c).Ascending := by
  rw [node_editNode]
  split
  · rename_i hd
    rw [← hd.1]
    exact hf
  · exact h c

theorem ascending_records (hw : w.Sound made) (h : ∀ c, (w.node c).Ascending) {e : Edit} (he : e.Records w w')
    (c : ClassId) : (w'.node c).Ascending := by
  have hfilter {α : Type} {f : α → Nat} {xs : List α} (p : α → Bool) (hxs : xs.Pairwise (f · < f ·)) :
      (xs.filter p).Pairwise (f · < f ·) := hxs.sublist List.filter_sublist
  cases he with
  | nothing _ hr => exact (h c).same (hr.node c)
  | @addField d _ x _ hr =>
    refine (ascending_editNode (w := w.withField x) h ⟨?_, (h d).methods⟩ c).same (hr.node c)
    exact pairwise_snoc (h d).fields fun f hf => ((hw.nodes d).fields f hf).1
  | @addMethod d _ x _ _ hr =>
    refine (ascending_editNode (w := w.withMethod x) h ⟨(h d).fields, ?_⟩ c).same (hr.node c)
    exact pairwise_snoc (h d).methods fun m hm => ((hw.nodes d).methods m hm).1
  | @addConstructor d _ x _ hr =>
    exact (ascending_editNode (w := w.withConstructor x) h ⟨(h d).fields, (h d).methods⟩ c).same (hr.node c)
  | @removeField d f => exact ascending_editNode h ⟨hfilter _ (h d).fields, (h d).methods⟩ c
  | @removeMethod d m => exact ascending_editNode h ⟨(h d).fields, hfilter _ (h d).methods⟩ c
  | @removeConstructor d k => exact ascending_editNode h ⟨(h d).fields, (h d).methods⟩ c
  | renameField | renameMethod => exact h c
  | methodParameters _ hr | constructorParameters _ hr => exact (h c).same (hr.node c)

theorem Run.ascending (h : Run .empty w) : ∀ c, (w.node c).Ascending := by
  refine (h.holds (P := fun w => (∃ made, w.Sound made) ∧ ∀ c, (w.node c).Ascending)
    ⟨soundEmpty, fun _ => ⟨.nil, .nil⟩⟩ fun ⟨⟨made, hw⟩, ha⟩ hm => ⟨⟨_, hm.sound hw⟩, ?_⟩).2
  rcases hm.edit_or_sameRoster with ⟨e, a, he⟩ | hr
  · exact ascending_records hw ha (Edit.records he)
  · exact fun c => (ha c).same (hr.node c)

theorem pairwise_declared (h : (w.node c).Ascending) (kind : MemberKind) :
    (w.declared kind c).Pairwise (·.number < ·.number) := by
  unfold declared ClassNode.declaredFields ClassNode.declaredMethods
  cases kind <;> cases (w.node c).isUnresolved
  · exact List.pairwise_map.mpr h.fields
  · exact .nil
  · exact List.pairwise_map.mpr h.methods
  · exact .nil

theorem lt_of_mem_declared {kind : MemberKind} {m : Member} (hm : m ∈ w.declared kind c) : c.index < w.nodes.size := by
  by_contra hc
  unfold declared at hm
  rw [show w.node c = default from Store.get_of_size_le _ (Nat.not_lt.mp hc)] at hm
  cases kind <;> cases hm

end

/-! ## Paths of classes -/

/-- Where a path leads that follows, at each class, the one of this number among the references by which the class
inherits. These are its interfaces and then, unless it is an interface, its superclass. -/
def climb (w : World) : ClassId → List Nat → Option ClassId
  | c, [] => some c
  | c, i :: path => (w.inheritedRefs c)[i]?.bind fun r => climb w (r.resolve w).1 path

section
variable {w v : World} {S : Lead → Prop} {kind : MemberKind} {c d : ClassId} {x : Lead}

theorem inherited_of_known (w : World) (c : ClassId) : w.inherited (.known c) = (w.inheritedRefs c).map w.lead := by
  unfold inherited inheritedRefs supertypeRefs supers interfaceAt interfaceLeads superclassLead
  cases hi : (w.node c).isInterface <;> cases hs : (w.node c).superclassRef <;> simp [hi, hs]

/-- Along the leads a path leads to the same class, if that is there. -/
theorem Region.follow_eq_climb (hS : w.Region S) (hd : d.index < w.nodes.size) : ∀ {c : ClassId} (path : List Nat),
    S (.known c) → (Descent.follow w.inherited (.known c) path = some (.known d) ↔ w.climb c path = some d)
  | c, [], _ => by simp [Descent.follow, climb]
  | c, i :: path, hc => by
    rw [Descent.follow, climb, inherited_of_known, List.getElem?_map]
    cases hr : (w.inheritedRefs c)[i]? with
    | none => simp
    | some r =>
      have hmem := w.inheritedRefs_subset c (List.mem_of_getElem? hr)
      have hlead := (Brings.resolve (.refl w) (hS.settles c hc r hmem)).result
      simp only [Option.map_some, Option.bind_some]
      cases hl : w.lead r with
      | known e =>
        rw [hl] at hlead
        rw [show (r.resolve w).1 = e from hlead]
        exact hS.follow_eq_climb hd path (hS.closed _ hc _ (mem_supers.mpr ⟨c, rfl, r, hmem, hl⟩))
      | missing name =>
        -- A stand-in is not there yet, and nothing is behind it.
        rw [hl] at hlead
        cases path with
        | nil =>
          simp only [Descent.follow, climb, Option.some.injEq, reduceCtorEq, false_iff]
          rintro rfl
          exact Nat.not_lt.mpr hlead.1 hd
        | cons j path =>
          have hnone : w.inheritedRefs (r.resolve w).1 = [] := List.eq_nil_iff_forall_not_mem.mpr fun q hq =>
            Nat.not_lt.mpr hlead.1 (lt_of_mem_supertypeRefs (w.inheritedRefs_subset _ hq))
          simp [Descent.follow, climb, hnone, inherited, supers, interfaceAt, interfaceLeads, superclassLead]

/-- What the walk finds below a lead, whatever has been resolved since. -/
theorem Region.exists_flattenWithin (hS : w.Region S) (hx : S x) {ms : List Member}
    (h : Descent.gather w.inherited (w.ownMembers kind) w.reach x = some ms) (hv : w.Settled v)
    (hc : w.LeadsTo v x c) : ∃ v', flattenWithin kind v.walkBound c v = some (ms, v') ∧ w.Settled v' := by
  have hf := flattenWithin_follows hS kind v.walkBound x c v hx hv hc
  rw [Descent.gather_mono hv.reach_le h] at hf
  generalize flattenWithin kind v.walkBound c v = r at hf
  cases hf with
  | ends hv' _ hab => subst hab; exact ⟨_, rfl, hv'⟩

theorem Region.flatten_eq (hS : w.Region S) (hx : S x) {ms : List Member}
    (h : Descent.gather w.inherited (w.ownMembers kind) w.reach x = some ms) (hv : w.Settled v)
    (hc : w.LeadsTo v x c) : (c.flatten kind v).1 = ms := by
  obtain ⟨v', hrun, -⟩ := hS.exists_flattenWithin hx h hv hc
  rw [flatten_run, hrun]
  rfl

theorem Sound.count_ownMembers {made : List (LoaderId × ClassId)} (hw : w.Sound made)
    (ha : ∀ c, (w.node c).Ascending) {m : Member} (hm : m ∈ w.declared kind d) (y : Lead) :
    (w.ownMembers kind y).count m = if y = .known d then 1 else 0 := by
  cases y with
  | missing name => rfl
  | known e =>
    by_cases he : e = d
    · subst he
      rw [if_pos rfl]
      have hnodup : (w.declared kind e).Nodup := (pairwise_declared (ha e) kind).imp fun h he => by
        rw [he] at h
        exact Nat.lt_irrefl _ h
      exact List.count_eq_one_of_mem hnodup hm
    · rw [if_neg fun h => he (by cases h; rfl)]
      refine List.count_eq_zero.mpr fun hme => he ?_
      rw [← hw.ownerOf_declared hm, ← hw.ownerOf_declared (show m ∈ w.declared kind e from hme)]

theorem Sound.count_flatMap {made : List (LoaderId × ClassId)} (hw : w.Sound made)
    (ha : ∀ c, (w.node c).Ascending) {m : Member} (hm : m ∈ w.declared kind d) : ∀ ys : List Lead,
    (ys.flatMap (w.ownMembers kind)).count m = ys.count (.known d)
  | [] => rfl
  | y :: ys => by
    rw [List.flatMap_cons, List.count_append, hw.count_ownMembers ha hm, hw.count_flatMap ha hm ys, List.count_cons,
      Nat.add_comm]
    simp

theorem Region.exists_gathered (hS : w.Region S) (hc : S (.known c))
    (hacyclic : ∀ d, ReflTransGen w.Inherits c d → ¬ TransGen w.Inherits d d) {β : Type} (own : Lead → List β) :
    ∃ bs, Descent.gather w.inherited own w.reach (.known c) = some bs := by
  have hreached {x : Lead} (hx : ReflTransGen (fun x y => y ∈ w.inherited x) (.known c) x) : S x := by
    rw [leading_inheritedRefs] at hx
    exact (hS.resolving_of_leading w.inheritedRefs_subset hc hx).1
  exact Descent.gather_ends w.knownLeads (S := ReflTransGen (fun x y => y ∈ w.inherited x) (.known c))
    (fun _ hx _ hy => hx.tail hy) (fun x hx => hS.inherited_known x (hreached hx))
    (fun _ hx => hS.not_transGen_self hc hacyclic hx) .refl

theorem Region.flatten_step (hS : w.Region S) (hc : S (.known c)) {ms : List Member}
    (h : Descent.gather w.inherited (w.ownMembers kind) w.reach (.known c) = some ms) :
    ms = w.declared kind c ++ (w.inheritedRefs c).flatMap fun r => ((do (← r.resolve).flatten kind) w).1 := by
  have hn : w.reach = w.knownLeads.length + 1 + 1 := rfl
  have hdeeper := h
  rw [hn, Descent.gather] at h
  obtain ⟨found, hfound, rfl⟩ := Option.map_eq_some_iff.mp h
  rw [Descent.gatherAll_eq_flatMap hfound, inherited_of_known, List.flatMap_map]
  refine congrArg (w.declared kind c ++ ·) (List.flatMap_congr fun r hr => ?_)
  have hmem := w.inheritedRefs_subset c hr
  have hbelow := hS.closed _ hc _ (mem_supers.mpr ⟨c, rfl, r, hmem, rfl⟩)
  have hbrings := Brings.resolve (.refl w) (hS.settles c hc r hmem)
  obtain ⟨zs, hzs⟩ := Descent.gatherAll_ends hfound (w.lead r)
    (by rw [inherited_of_known]; exact List.mem_map_of_mem hr)
  have hflatten := hS.flatten_eq hbelow (Descent.gather_succ hzs) hbrings.settled hbrings.result
  rw [hzs]
  exact hflatten.symm

end

/-- On a hierarchy without circles in which nobody has to be asked, the walk for members ends. It lists what the class
shows itself, in the order in which it was made, then what there is below each of its interfaces in order, and then,
unless the class is an interface, what there is below its superclass. So every member is listed once for each path
that leads to the class that shows it. -/
theorem flatten_by_path {w : World} (hw : Run .empty w) (hg : w.Grounded) {c : ClassId} (hc : c.index < w.nodes.size)
    (hu : ∀ d, ReflTransGen w.Supertype c d → w.Unsourced d)
    (hacyclic : ∀ d, ReflTransGen w.Inherits c d → ¬ TransGen w.Inherits d d) (kind : MemberKind) :
    (∃ depth w', flattenWithin kind depth c w = some ((c.flatten kind w).1, w')) ∧
      (∀ d, ∀ m ∈ w.declared kind d, {path | w.climb c path = some d}.Finite ∧
        (c.flatten kind w).1.count m = {path | w.climb c path = some d}.ncard) ∧
      (∀ m ∈ (c.flatten kind w).1, ∃ d path, w.climb c path = some d ∧ m ∈ w.declared kind d) ∧
      (w.declared kind c).Pairwise (·.number < ·.number) ∧
      (c.flatten kind w).1 = w.declared kind c ++
        ((w.node c).interfaceRefs.flatMap fun r => ((do (← r.resolve).flatten kind) w).1) ++
        (if (w.node c).isInterface then []
          else (w.node c).superclassRef.toList.flatMap fun r => ((do (← r.resolve).flatten kind) w).1) ∧
      c.fields = c.flatten .field ∧ c.methods = c.flatten .method := by
  obtain ⟨made, hsound⟩ := Run.sound hw soundEmpty
  have hS : w.Region (w.AtOrAbove c) := hsound.region hg hu
  have hS' : w.AtOrAbove c (.known c) := ⟨hc, .refl⟩
  obtain ⟨ys, hys⟩ := hS.exists_gathered hS' hacyclic fun x => [x]
  have hgather : Descent.gather w.inherited (w.ownMembers kind) w.reach (.known c) =
      some (ys.flatMap (w.ownMembers kind)) := by rw [Descent.gather_eq_visits, hys]; rfl
  have hflatten : (c.flatten kind w).1 = ys.flatMap (w.ownMembers kind) := hS.flatten_eq hS' hgather (.refl w) rfl
  -- The walk comes by a class once for each path to it.
  have hpaths (d : ClassId) (hd : d.index < w.nodes.size) : ∃ paths : List (List Nat), paths.Nodup ∧
      (∀ path, path ∈ paths ↔ w.climb c path = some d) ∧ paths.length = ys.count (.known d) := by
    obtain ⟨paths, hnodup, hmem, hlength⟩ := Descent.exists_paths (y := .known d) hys
    exact ⟨paths, hnodup, fun path => (hmem path).trans (hS.follow_eq_climb hd path hS'), hlength⟩
  refine ⟨?_, fun d m hm => ?_, fun m hm => ?_, pairwise_declared (hw.ascending c) kind, ?_, fields_eq_flatten c,
    methods_eq_flatten c⟩
  · rw [hflatten]
    exact ⟨w.reach, (exists_flattenWithin_iff hS hS' w.reach _).mpr hgather⟩
  · obtain ⟨paths, hnodup, hmem, hlength⟩ := hpaths d (lt_of_mem_declared hm)
    have hset : {path | w.climb c path = some d} = ↑paths.toFinset := by
      ext path
      simp [hmem]
    rw [hset, Set.ncard_coe_finset, List.toFinset_card_of_nodup hnodup, hlength, hflatten,
      hsound.count_flatMap hw.ascending hm]
    exact ⟨paths.toFinset.finite_toSet, rfl⟩
  · rw [hflatten] at hm
    obtain ⟨y, hy, hm⟩ := List.mem_flatMap.mp hm
    cases y with
    | missing name => cases hm
    | known d =>
      obtain ⟨paths, -, hmem, hlength⟩ := hpaths d (lt_of_mem_declared hm)
      have hpos : 0 < paths.length := by rw [hlength]; exact List.count_pos_iff.mpr hy
      obtain ⟨path, hpath⟩ := List.exists_mem_of_length_pos hpos
      exact ⟨d, path, (hmem path).mp hpath, hm⟩
  · rw [hflatten, hS.flatten_step hS' hgather, List.append_assoc]
    unfold inheritedRefs supertypeRefs
    cases (w.node c).isInterface <;> simp

/-- A class that has an interface twice and another once, which lead to one class with a method. -/
def diamond : World := changed [.define ⟨0⟩ "p" "A" [], .define ⟨0⟩ "p" "B" [], .define ⟨0⟩ "p" "C" [],
  .define ⟨0⟩ "p" "D" [], .edit (.onClass ⟨10⟩ (.addInterface "p.B")), .edit (.onClass ⟨10⟩ (.addInterface "p.C")),
  .edit (.onClass ⟨10⟩ (.addInterface "p.B")), .edit (.onClass ⟨11⟩ (.addInterface "p.D")),
  .edit (.onClass ⟨12⟩ (.setSuperclass "p.D")), .edit (.onClass ⟨13⟩ .addMethod), .edit (.onClass ⟨10⟩ .addMethod)]

theorem diamond_by_path : Run .empty diamond ∧ diamond.Grounded ∧
    (∀ d, ReflTransGen diamond.Supertype ⟨10⟩ d → diamond.Unsourced d) ∧
    (∀ d, ReflTransGen diamond.Inherits ⟨10⟩ d → ¬ TransGen diamond.Inherits d d) ∧
    (ClassId.flatten ⟨10⟩ .method diamond).1 = [.method ⟨1⟩, .method ⟨0⟩, .method ⟨0⟩, .method ⟨0⟩] ∧
    {path | diamond.climb ⟨10⟩ path = some ⟨13⟩}.ncard = 3 := by
  have hlayered : diamond.Solitary ⟨0⟩ ∧ diamond.Layered := by decide +kernel
  have hacyclic (d : ClassId) (_ : ReflTransGen diamond.Inherits ⟨10⟩ d) : ¬ TransGen diamond.Inherits d d :=
    fun h => hlayered.2.acyclic d (TransGen.mono diamond.inherits_le _ _ h)
  have hmethods : (ClassId.flatten ⟨10⟩ .method diamond).1 =
      [.method ⟨1⟩, .method ⟨0⟩, .method ⟨0⟩, .method ⟨0⟩] := by decide +kernel
  have hrun : Run .empty diamond := run_changed _
  have hall := flatten_by_path hrun hlayered.1.grounded (c := ⟨10⟩) (by decide +kernel)
    (fun d _ => hlayered.1.unsourced d) hacyclic .method
  refine ⟨hrun, hlayered.1.grounded, fun d _ => hlayered.1.unsourced d, hacyclic, hmethods, ?_⟩
  rw [← (hall.2.1 ⟨13⟩ (.method ⟨0⟩) (by decide +kernel)).2, hmethods]
  rfl

end World

end ClassModel
