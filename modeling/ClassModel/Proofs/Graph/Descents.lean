import Mathlib.Data.List.Forall2
import Mathlib.Data.List.Perm.Subperm
import Mathlib.Logic.Relation

/-!
# Searches below a node

A search looks at a node and then, in order, below each node behind it, up to the first success. The
plain search is only bounded in depth; the guarded one refuses to enter a node below itself. On a
finite graph the guarded search always ends, and it refuses exactly where the plain one never ends:
a refusal shows a node that the plain search calls below itself.
-/

namespace ClassModel.Descent

def anyOf {α : Type} (f : α → Option Bool) : List α → Option Bool
  | [] => some false
  | x :: xs =>
    match f x with
    | none => none
    | some true => some true
    | some false => anyOf f xs

def anyOfGuarded {α : Type} (f : α → Option (Except α Bool)) : List α → Option (Except α Bool)
  | [] => some (.ok false)
  | x :: xs =>
    match f x with
    | none => none
    | some (.error e) => some (.error e)
    | some (.ok true) => some (.ok true)
    | some (.ok false) => anyOfGuarded f xs

section
variable {α : Type} (next : α → List α) (hit : α → Bool)

def search : Nat → α → Option Bool
  | 0, _ => none
  | depth + 1, x => if hit x then some true else anyOf (search depth) (next x)

def guarded [DecidableEq α] : Nat → List α → α → Option (Except α Bool)
  | 0, _, _ => none
  | depth + 1, above, x =>
    if hit x then some (.ok true)
    else if x ∈ above then some (.error x)
    else anyOfGuarded (guarded depth (x :: above)) (next x)

/-- The plain search at `x` goes on to `y` unless it has no end before. -/
def Calls (x y : α) : Prop :=
  hit x = false ∧ ∃ before after, next x = before ++ y :: after ∧
    ∀ z ∈ before, ∃ depth, search next hit depth z = some false

end

section
variable {α β γ δ : Type} {next : α → List α} {hit : α → Bool}

theorem anyOf_cons (f : α → Option Bool) (x : α) (xs : List α) :
    anyOf f (x :: xs) = (f x).bind fun b => if b then some true else anyOf f xs := by
  rw [anyOf]
  cases f x with
  | none => rfl
  | some b => cases b <;> rfl

theorem anyOf_append (f : α → Option Bool) (xs ys : List α) :
    anyOf f (xs ++ ys) = (anyOf f xs).bind fun b => if b then some true else anyOf f ys := by
  induction xs with
  | nil => rfl
  | cons x xs ih =>
    rw [List.cons_append, anyOf_cons, anyOf_cons, ih]
    cases f x with
    | none => rfl
    | some b => cases b <;> rfl

theorem anyOf_singleton (f : α → Option Bool) (x : α) : anyOf f [x] = f x := by
  rw [anyOf_cons]
  cases f x with
  | none => rfl
  | some b => cases b <;> rfl

def andThen (o : Option (Except α β)) (g : β → Option (Except α γ)) : Option (Except α γ) :=
  o.bind fun
    | .ok b => g b
    | .error e => some (.error e)

@[simp] theorem andThen_ok (b : β) (g : β → Option (Except α γ)) : andThen (some (.ok b)) g = g b := rfl

@[simp] theorem andThen_answer (o : Option (Except α β)) : (andThen o fun b => some (.ok b)) = o := by
  rcases o with _ | _ | _ <;> rfl

theorem andThen_eq_ok {o : Option (Except α β)} {g : β → Option (Except α γ)} {c : γ}
    (h : andThen o g = some (.ok c)) : ∃ b, o = some (.ok b) ∧ g b = some (.ok c) := by
  rcases o with _ | e | b
  · cases h
  · cases h
  · exact ⟨b, rfl, h⟩

theorem andThen_eq_error {o : Option (Except α β)} {g : β → Option (Except α γ)} {e : α}
    (h : andThen o g = some (.error e)) : o = some (.error e) ∨ ∃ b, o = some (.ok b) ∧ g b = some (.error e) := by
  rcases o with _ | e' | b
  · cases h
  · cases h; exact .inl rfl
  · exact .inr ⟨b, rfl, h⟩

theorem andThen_assoc (o : Option (Except α β)) (g : β → Option (Except α γ)) (f : γ → Option (Except α δ)) :
    andThen (andThen o g) f = andThen o fun b => andThen (g b) f := by
  rcases o with _ | _ | _ <;> rfl

theorem andThen_ne_none {o : Option (Except α β)} {g : β → Option (Except α γ)} (ho : o ≠ none)
    (hg : ∀ b, g b ≠ none) : andThen o g ≠ none := by
  rcases o with _ | e | b
  · exact (ho rfl).elim
  · exact Option.some_ne_none _
  · exact hg b

theorem anyOfGuarded_cons (f : α → Option (Except α Bool)) (x : α) (xs : List α) :
    anyOfGuarded f (x :: xs) = andThen (f x) fun b => if b then some (.ok true) else anyOfGuarded f xs := by
  rw [anyOfGuarded]
  rcases f x with _ | _ | _ | _ <;> rfl

theorem anyOfGuarded_append (f : α → Option (Except α Bool)) (xs ys : List α) :
    anyOfGuarded f (xs ++ ys) =
      andThen (anyOfGuarded f xs) fun b => if b then some (.ok true) else anyOfGuarded f ys := by
  induction xs with
  | nil => rfl
  | cons x xs ih =>
    rw [List.cons_append, anyOfGuarded_cons, anyOfGuarded_cons, ih]
    rcases f x with _ | _ | _ | _ <;> rfl

theorem anyOfGuarded_singleton (f : α → Option (Except α Bool)) (x : α) : anyOfGuarded f [x] = f x := by
  rw [anyOfGuarded_cons]
  rcases f x with _ | _ | _ | _ <;> rfl

/-! ## Depth does not matter once it is enough -/

theorem anyOf_congr {f g : α → Option Bool} : ∀ {xs : List α} {b : Bool},
    (∀ x ∈ xs, ∀ b, f x = some b → g x = some b) → anyOf f xs = some b → anyOf g xs = some b
  | [], _, _, h => h
  | x :: xs, b, hfg, h => by
    obtain ⟨hx, hxs⟩ := List.forall_mem_cons.mp hfg
    unfold anyOf at h ⊢
    cases hf : f x with
    | none => simp [hf] at h
    | some c =>
      rw [hx c hf]
      rw [hf] at h
      cases c with
      | true => exact h
      | false => exact anyOf_congr hxs h

theorem search_succ : ∀ {depth : Nat} {x : α} {b : Bool}, search next hit depth x = some b →
    search next hit (depth + 1) x = some b
  | depth + 1, x, b, h => by
    unfold search at h ⊢
    split at h
    · rename_i hx; rw [if_pos hx]; exact h
    · rename_i hx
      rw [if_neg hx]
      exact anyOf_congr (fun y _ c hc => search_succ hc) h

theorem search_mono {depth depth' : Nat} (hle : depth ≤ depth') {x : α} {b : Bool}
    (h : search next hit depth x = some b) : search next hit depth' x = some b := by
  induction hle with
  | refl => exact h
  | step _ ih => exact search_succ ih

theorem search_unique {depth depth' : Nat} {x : α} {b b' : Bool} (h : search next hit depth x = some b)
    (h' : search next hit depth' x = some b') : b = b' := by
  rcases Nat.le_total depth depth' with hle | hle
  · exact Option.some.inj ((search_mono hle h).symm.trans h')
  · exact Option.some.inj (h.symm.trans (search_mono hle h'))

/-! ## What the search finds -/

theorem anyOf_eq_true {f : α → Option Bool} {xs : List α} (h : anyOf f xs = some true) : ∃ x ∈ xs, f x = some true := by
  induction xs with
  | nil => cases h
  | cons x xs ih =>
    rw [anyOf_cons, Option.bind_eq_some_iff] at h
    obtain ⟨b, hx, h⟩ := h
    cases b with
    | true => exact ⟨x, List.mem_cons_self, hx⟩
    | false =>
      obtain ⟨y, hy, hfy⟩ := ih h
      exact ⟨y, List.mem_cons_of_mem _ hy, hfy⟩

theorem anyOf_eq_false {f : α → Option Bool} {xs : List α} (h : anyOf f xs = some false) :
    ∀ x ∈ xs, f x = some false := by
  induction xs with
  | nil => simp
  | cons x xs ih =>
    rw [anyOf_cons, Option.bind_eq_some_iff] at h
    obtain ⟨b, hx, h⟩ := h
    cases b with
    | true => cases h
    | false => exact List.forall_mem_cons.mpr ⟨hx, ih h⟩

theorem exists_hit_of_search {depth : Nat} : ∀ {x : α}, search next hit depth x = some true →
    ∃ y, Relation.ReflTransGen (fun x y => y ∈ next x) x y ∧ hit y = true := by
  induction depth with
  | zero => intro x h; cases h
  | succ depth ih =>
    intro x h
    unfold search at h
    by_cases hx : hit x = true
    · exact ⟨x, .refl, hx⟩
    · rw [if_neg hx] at h
      obtain ⟨y, hy, hsearch⟩ := anyOf_eq_true h
      obtain ⟨z, hyz, hz⟩ := ih hsearch
      exact ⟨z, .head hy hyz, hz⟩

theorem no_hit_of_search {depth : Nat} : ∀ {x y : α}, search next hit depth x = some false →
    Relation.ReflTransGen (fun x y => y ∈ next x) x y → hit y = false := by
  induction depth with
  | zero => intro x y h; cases h
  | succ depth ih =>
    intro x y h hxy
    unfold search at h
    by_cases hx : hit x = true
    · rw [if_pos hx] at h; cases h
    · rw [if_neg hx] at h
      rcases Relation.ReflTransGen.cases_head hxy with rfl | ⟨z, hz, hzy⟩
      · exact Bool.eq_false_iff.mpr hx
      · exact ih (anyOf_eq_false h z hz) hzy

/-- A search that ends finds out whether there is a success behind the node. -/
theorem search_eq_true_iff {depth : Nat} {x : α} {b : Bool} (h : search next hit depth x = some b) :
    b = true ↔ ∃ y, Relation.ReflTransGen (fun x y => y ∈ next x) x y ∧ hit y = true := by
  cases b with
  | true => exact ⟨fun _ => exists_hit_of_search h, fun _ => rfl⟩
  | false =>
    refine ⟨fun hb => (by cases hb), fun ⟨y, hxy, hy⟩ => ?_⟩
    rw [no_hit_of_search h hxy] at hy
    cases hy

/-! ## Walks that never end -/

/-- Where the walk ends it has ended before at every node to which it goes on. -/
def Descends (f : Nat → α → Option β) (E : α → α → Prop) : Prop :=
  ∀ {x y}, E x y → ∀ {depth b}, f depth x = some b → ∃ depth' < depth, ∃ b', f depth' y = some b'

namespace Descends

variable {f : Nat → α → Option β} {E : α → α → Prop}

theorem transGen (h : Descends f E) : Descends f (Relation.TransGen E) := by
  intro x y hxy
  induction hxy with
  | single hy => exact h hy
  | tail _ hy ih =>
    intro depth b hb
    obtain ⟨d₁, h₁, b₁, hb₁⟩ := ih hb
    obtain ⟨d₂, h₂, b₂, hb₂⟩ := h hy hb₁
    exact ⟨d₂, Nat.lt_trans h₂ h₁, b₂, hb₂⟩

/-- A walk that gets back to where it was has no end: every end would have an earlier one within it. -/
theorem none_of_cycle (h : Descends f E) {x : α} (hx : Relation.TransGen E x x) (depth : Nat) :
    f depth x = none := by
  induction depth using Nat.strongRecOn with
  | ind depth ih =>
    cases hf : f depth x with
    | none => rfl
    | some b =>
      obtain ⟨depth', hlt, b', hb'⟩ := h.transGen hx hf
      rw [ih depth' hlt] at hb'
      cases hb'

theorem none_of_reaches_cycle (h : Descends f E) {x y : α} (hxy : Relation.ReflTransGen E x y)
    (hy : Relation.TransGen E y y) (depth : Nat) : f depth x = none := by
  cases hf : f depth x with
  | none => rfl
  | some b =>
    rcases Relation.reflTransGen_iff_eq_or_transGen.mp hxy with rfl | hxy
    · rw [h.none_of_cycle hy] at hf; cases hf
    · obtain ⟨depth', -, b', hb'⟩ := h.transGen hxy hf
      rw [h.none_of_cycle hy] at hb'; cases hb'

end Descends

/-! ## What the plain search calls -/

/-- A search over nodes that ends has come to an end at each node up to the first success. -/
theorem anyOf_ends {f : α → Option Bool} {b : Bool} {y : α} : ∀ {before after : List α},
    anyOf f (before ++ y :: after) = some b → (∀ z ∈ before, ∀ c, f z = some c → c = false) →
    ∃ c, f y = some c
  | [], after, h, _ => by
    simp only [List.nil_append, anyOf] at h
    cases hf : f y with
    | none => simp [hf] at h
    | some c => exact ⟨c, rfl⟩
  | z :: before, after, h, hb => by
    obtain ⟨hz, hb⟩ := List.forall_mem_cons.mp hb
    simp only [List.cons_append, anyOf] at h
    cases hf : f z with
    | none => simp [hf] at h
    | some c =>
      obtain rfl := hz c hf
      rw [hf] at h
      exact anyOf_ends h hb

theorem search_descends : Descends (search next hit) (Calls next hit) := by
  intro x y hc depth b h
  obtain ⟨hx, before, after, hnext, hbefore⟩ := hc
  cases depth with
  | zero => cases h
  | succ depth =>
    unfold search at h
    rw [if_neg (by simp [hx]), hnext] at h
    refine ⟨depth, Nat.lt_succ_self _, anyOf_ends h fun z hz c hzc => ?_⟩
    obtain ⟨_, hd⟩ := hbefore z hz
    exact search_unique hzc hd

theorem search_of_reaches_cycle {x y : α} (hxy : Relation.ReflTransGen (Calls next hit) x y)
    (hy : Relation.TransGen (Calls next hit) y y) (depth : Nat) : search next hit depth x = none :=
  search_descends.none_of_reaches_cycle hxy hy depth

theorem Calls.mem {x y : α} (hc : Calls next hit x y) : y ∈ next x := by
  obtain ⟨-, before, after, hnext, -⟩ := hc
  rw [hnext]; simp

/-! ## Finite graphs -/

section
variable (nodes : List α) {S : α → Prop} (hclosed : ∀ x, S x → ∀ y ∈ next x, S y)
  (hnodes : ∀ x, S x → next x ≠ [] → x ∈ nodes)
include hclosed hnodes

/-- What holds at a node once it holds behind it, one level less deep and with the node itself above,
holds everywhere in a finite graph: with every level there is one node more above, and no node twice. -/
theorem descendBelow {P : Nat → List α → α → Prop}
    (hstep : ∀ depth above x, S x → (x ∉ above → ∀ y ∈ next x, P depth (x :: above) y) → P (depth + 1) above x)
    (depth : Nat) : ∀ {above : List α} {x : α}, S x → above.Nodup → above ⊆ nodes →
      nodes.length + 2 ≤ depth + above.length → P depth above x := by
  induction depth with
  | zero =>
    intro above x _ hn hsub hd
    have := (hn.subperm hsub).length_le
    omega
  | succ depth ih =>
    intro above x hx hn hsub hd
    refine hstep depth above x hx fun hmem y hy => ?_
    refine ih (hclosed x hx y hy) (List.nodup_cons.mpr ⟨hmem, hn⟩)
      (List.cons_subset.mpr ⟨hnodes x hx (List.ne_nil_of_mem hy), hsub⟩) ?_
    rw [List.length_cons]
    omega

/-- Without circles it need not say what is above. -/
theorem descend {P : Nat → α → Prop} (hacyclic : ∀ x, S x → ¬ Relation.TransGen (fun x y => y ∈ next x) x x)
    (hstep : ∀ depth x, (∀ y ∈ next x, P depth y) → P (depth + 1) x) {x : α} (hx : S x) : P (nodes.length + 2) x := by
  refine descendBelow (P := fun depth above x =>
      (∀ a ∈ above, Relation.TransGen (fun x y => y ∈ next x) a x) → P depth x)
    nodes hclosed hnodes (fun depth above x hx h habove => hstep depth x fun y hy => ?_) _ hx .nil (List.nil_subset _)
    (by simp) (by simp)
  refine h (fun hmem => hacyclic x hx (habove x hmem)) y hy fun a ha => ?_
  rcases List.mem_cons.mp ha with rfl | ha
  · exact .single hy
  · exact (habove a ha).tail hy

end

/-! ## The guarded search -/

theorem anyOf_of_anyOfGuarded {f : α → Option Bool} {g : α → Option (Except α Bool)} :
    ∀ {xs : List α} {b : Bool}, (∀ x ∈ xs, ∀ b, g x = some (.ok b) → f x = some b) →
      anyOfGuarded g xs = some (.ok b) → anyOf f xs = some b
  | [], b, _, h => by cases h; rfl
  | x :: xs, b, hfg, h => by
    obtain ⟨hx, hxs⟩ := List.forall_mem_cons.mp hfg
    unfold anyOfGuarded at h
    unfold anyOf
    cases hg : g x with
    | none => simp [hg] at h
    | some r =>
      rw [hg] at h
      cases r with
      | error e => cases h
      | ok c =>
        rw [hx c hg]
        cases c with
        | true => cases h; rfl
        | false => exact anyOf_of_anyOfGuarded hxs h

theorem search_of_guarded [DecidableEq α] : ∀ {depth : Nat} {above : List α} {x : α} {b : Bool},
    guarded next hit depth above x = some (.ok b) → search next hit depth x = some b
  | depth + 1, above, x, b, h => by
    unfold guarded at h
    unfold search
    split at h
    · rename_i hx; cases h; rw [if_pos hx]
    · rename_i hx
      rw [if_neg hx]
      split at h
      · cases h
      · exact anyOf_of_anyOfGuarded (fun y _ c hc => search_of_guarded hc) h

/-- Where a guarded search of nodes in order refuses, all before have ended without success. -/
theorem anyOfGuarded_error {g : α → Option (Except α Bool)} {e : α} : ∀ {xs : List α},
    anyOfGuarded g xs = some (.error e) → ∃ before y after, xs = before ++ y :: after ∧
      (∀ z ∈ before, g z = some (.ok false)) ∧ g y = some (.error e)
  | x :: xs, h => by
    unfold anyOfGuarded at h
    cases hg : g x with
    | none => simp [hg] at h
    | some r =>
      rw [hg] at h
      cases r with
      | error e' => cases h; exact ⟨[], x, xs, rfl, by simp, hg⟩
      | ok c =>
        cases c with
        | true => cases h
        | false =>
          obtain ⟨before, y, after, rfl, hb, hy⟩ := anyOfGuarded_error h
          exact ⟨x :: before, y, after, rfl, List.forall_mem_cons.mpr ⟨hg, hb⟩, hy⟩

/-- A refusal names a node that the plain search calls, and calls below itself unless the node was
above from the start. -/
theorem calls_of_guarded_error [DecidableEq α] : ∀ {depth : Nat} {above : List α} {x c : α},
    guarded next hit depth above x = some (.error c) →
    Relation.ReflTransGen (Calls next hit) x c ∧ (c ∈ above ∨ Relation.TransGen (Calls next hit) c c)
  | depth + 1, above, x, c, h => by
    unfold guarded at h
    split at h
    · cases h
    · rename_i hx
      split at h
      · rename_i hmem; cases h; exact ⟨.refl, .inl hmem⟩
      · obtain ⟨before, y, after, hnext, hbefore, hy⟩ := anyOfGuarded_error h
        have hcall : Calls next hit x y :=
          ⟨by simpa using hx, before, after, hnext, fun z hz => ⟨depth, search_of_guarded (hbefore z hz)⟩⟩
        obtain ⟨hyc, hc⟩ := calls_of_guarded_error hy
        refine ⟨.head hcall hyc, ?_⟩
        rcases hc with hc | hc
        · rcases List.mem_cons.mp hc with rfl | hc
          · exact .inr (.head' hcall hyc)
          · exact .inl hc
        · exact .inr hc

theorem anyOfGuarded_ne_none {g : α → Option (Except α Bool)} : ∀ {xs : List α}, (∀ x ∈ xs, g x ≠ none) →
    anyOfGuarded g xs ≠ none
  | [], _ => by simp [anyOfGuarded]
  | x :: xs, h => by
    obtain ⟨hx, hxs⟩ := List.forall_mem_cons.mp h
    unfold anyOfGuarded
    cases hg : g x with
    | none => exact (hx hg).elim
    | some r =>
      cases r with
      | error e => simp
      | ok c =>
        cases c with
        | true => simp
        | false => exact anyOfGuarded_ne_none hxs

theorem guarded_ends [DecidableEq α] (nodes : List α) {S : α → Prop} (hclosed : ∀ x, S x → ∀ y ∈ next x, S y)
    (hnodes : ∀ x, S x → next x ≠ [] → x ∈ nodes) {depth : Nat} (hd : nodes.length + 2 ≤ depth) {x : α} (hx : S x) :
    guarded next hit depth [] x ≠ none := by
  refine descendBelow (P := fun depth above x => guarded next hit depth above x ≠ none) nodes hclosed hnodes
    (fun depth above x _ h => ?_) depth hx .nil (List.nil_subset _) (by simpa using hd)
  unfold guarded
  by_cases hhit : hit x = true
  · simp [hhit]
  · by_cases hmem : x ∈ above
    · simp [hhit, hmem]
    · simp only [hhit, hmem]
      exact anyOfGuarded_ne_none (h hmem)

theorem andThen_mono {o o' : Option (Except α β)} {g g' : β → Option (Except α γ)} {r : Except α γ}
    (ho : ∀ s, o = some s → o' = some s) (hg : ∀ b s, g b = some s → g' b = some s) (h : andThen o g = some r) :
    andThen o' g' = some r := by
  rcases o with _ | e | b
  · cases h
  · rw [ho _ rfl]; exact h
  · rw [ho _ rfl]; exact hg b r h

theorem anyOfGuarded_mono {f g : α → Option (Except α Bool)} {xs : List α} (hfg : ∀ x r, f x = some r → g x = some r) :
    ∀ {r : Except α Bool}, anyOfGuarded f xs = some r → anyOfGuarded g xs = some r := by
  induction xs with
  | nil => intro r h; exact h
  | cons x xs ih =>
    intro r h
    rw [anyOfGuarded_cons] at h ⊢
    refine andThen_mono (hfg x) (fun b s hs => ?_) h
    cases b with
    | true => exact hs
    | false => exact ih hs

theorem guarded_mono [DecidableEq α] {depth depth' : Nat} (hle : depth ≤ depth') : ∀ {above : List α} {x : α}
    {r : Except α Bool}, guarded next hit depth above x = some r → guarded next hit depth' above x = some r := by
  induction depth generalizing depth' with
  | zero => intro above x r h; cases h
  | succ depth ih =>
    intro above x r h
    obtain ⟨n, rfl⟩ := Nat.exists_eq_add_of_le' hle
    rw [← Nat.add_assoc]
    unfold guarded at h ⊢
    by_cases hx : hit x = true
    · rw [if_pos hx] at h ⊢; exact h
    · rw [if_neg hx] at h ⊢
      by_cases hmem : x ∈ above
      · rw [if_pos hmem] at h ⊢; exact h
      · rw [if_neg hmem] at h ⊢
        exact anyOfGuarded_mono (fun y r => ih (Nat.le_add_left _ _)) h

/-! ## Gathering -/

def gatherAll {α β : Type} (f : α → Option (List β)) : List α → Option (List β)
  | [] => some []
  | x :: xs => (f x).bind fun found => (gatherAll f xs).map (found ++ ·)

/-- What a node has, and then what is found below each node behind it, at most `depth` nodes deep. -/
def gather {α β : Type} (next : α → List α) (own : α → List β) : Nat → α → Option (List β)
  | 0, _ => none
  | depth + 1, x => (gatherAll (gather next own depth) (next x)).map (own x ++ ·)

variable {own : α → List β}

theorem gatherAll_append (f : α → Option (List β)) (xs ys : List α) :
    gatherAll f (xs ++ ys) = (gatherAll f xs).bind fun found => (gatherAll f ys).map (found ++ ·) := by
  induction xs with
  | nil => simp [gatherAll]
  | cons x xs ih =>
    simp only [List.cons_append, gatherAll, ih]
    cases f x with
    | none => rfl
    | some a =>
      cases gatherAll f xs with
      | none => rfl
      | some b => simp [Function.comp_def]

theorem gatherAll_singleton (f : α → Option (List β)) (x : α) : gatherAll f [x] = f x := by
  simp only [gatherAll]
  cases f x <;> simp

theorem gatherAll_ne_none {f : α → Option (List β)} {xs : List α} (h : ∀ x ∈ xs, f x ≠ none) :
    gatherAll f xs ≠ none := by
  induction xs with
  | nil => simp [gatherAll]
  | cons x xs ih =>
    obtain ⟨hx, hxs⟩ := List.forall_mem_cons.mp h
    obtain ⟨a, ha⟩ := Option.ne_none_iff_exists'.mp hx
    obtain ⟨b, hb⟩ := Option.ne_none_iff_exists'.mp (ih hxs)
    simp [gatherAll, ha, hb]

theorem gatherAll_congr {f g : α → Option (List β)} {xs : List α} : ∀ {bs : List β},
    (∀ x ∈ xs, ∀ b, f x = some b → g x = some b) → gatherAll f xs = some bs → gatherAll g xs = some bs := by
  induction xs with
  | nil => intro bs _ h; exact h
  | cons x xs ih =>
    intro bs hfg h
    obtain ⟨hx, hxs⟩ := List.forall_mem_cons.mp hfg
    simp only [gatherAll, Option.bind_eq_some_iff, Option.map_eq_some_iff] at h ⊢
    obtain ⟨a, ha, b, hb, hab⟩ := h
    exact ⟨a, hx a ha, b, ih hxs hb, hab⟩

theorem gather_succ {depth : Nat} : ∀ {x : α} {bs : List β}, gather next own depth x = some bs →
    gather next own (depth + 1) x = some bs := by
  induction depth with
  | zero => intro x bs h; cases h
  | succ depth ih =>
    intro x bs h
    unfold gather at h ⊢
    simp only [Option.map_eq_some_iff] at h ⊢
    obtain ⟨found, hf, hbs⟩ := h
    exact ⟨found, gatherAll_congr (fun y _ b hb => ih hb) hf, hbs⟩

theorem gather_mono {depth depth' : Nat} (hle : depth ≤ depth') {x : α} {bs : List β}
    (h : gather next own depth x = some bs) : gather next own depth' x = some bs := by
  induction hle with
  | refl => exact h
  | step _ ih => exact gather_succ ih

/-! ### What never ends -/

theorem gatherAll_ends {f : α → Option (List β)} {xs : List α} : ∀ {bs : List β}, gatherAll f xs = some bs →
    ∀ x ∈ xs, ∃ b, f x = some b := by
  induction xs with
  | nil => intro bs _ x hx; cases hx
  | cons x xs ih =>
    intro bs h
    simp only [gatherAll, Option.bind_eq_some_iff, Option.map_eq_some_iff] at h
    obtain ⟨a, ha, b, hb, -⟩ := h
    exact List.forall_mem_cons.mpr ⟨⟨a, ha⟩, ih hb⟩

theorem gather_descends : Descends (gather next own) fun x y => y ∈ next x := by
  intro x y hy depth bs h
  cases depth with
  | zero => cases h
  | succ depth =>
    unfold gather at h
    obtain ⟨found, hfound, -⟩ := Option.map_eq_some_iff.mp h
    exact ⟨depth, Nat.lt_succ_self _, gatherAll_ends hfound y hy⟩

theorem gather_of_reaches_cycle {x y : α} (hxy : Relation.ReflTransGen (fun x y => y ∈ next x) x y)
    (hy : Relation.TransGen (fun x y => y ∈ next x) y y) (depth : Nat) : gather next own depth x = none :=
  gather_descends.none_of_reaches_cycle hxy hy depth

theorem gather_unique {depth depth' : Nat} {x : α} {bs bs' : List β} (h : gather next own depth x = some bs)
    (h' : gather next own depth' x = some bs') : bs = bs' := by
  rcases Nat.le_total depth depth' with hle | hle
  · exact Option.some.inj ((gather_mono hle h).symm.trans h')
  · exact Option.some.inj (h.symm.trans (gather_mono hle h'))

/-! ### What is gathered -/

theorem gatherAll_forall {P : β → Prop} {f : α → Option (List β)} {xs : List α} : ∀ {bs : List β},
    (∀ x ∈ xs, ∀ found, f x = some found → ∀ b ∈ found, P b) → gatherAll f xs = some bs → ∀ b ∈ bs, P b := by
  induction xs with
  | nil => intro bs _ h; cases h; simp
  | cons x xs ih =>
    intro bs hf h
    obtain ⟨hx, hxs⟩ := List.forall_mem_cons.mp hf
    simp only [gatherAll, Option.bind_eq_some_iff, Option.map_eq_some_iff] at h
    obtain ⟨found, hfound, rest, hrest, rfl⟩ := h
    intro b hb
    rcases List.mem_append.mp hb with hb | hb
    · exact hx found hfound b hb
    · exact ih hxs hrest b hb

theorem gather_forall {S : α → Prop} {P : β → Prop} (hclosed : ∀ x, S x → ∀ y ∈ next x, S y)
    (hown : ∀ x, S x → ∀ b ∈ own x, P b) (depth : Nat) : ∀ {x : α} {bs : List β}, S x →
      gather next own depth x = some bs → ∀ b ∈ bs, P b := by
  induction depth with
  | zero => intro x bs _ h; cases h
  | succ depth ih =>
    intro x bs hx h b hb
    unfold gather at h
    obtain ⟨found, hfound, rfl⟩ := Option.map_eq_some_iff.mp h
    rcases List.mem_append.mp hb with hb | hb
    · exact hown x hx b hb
    · exact gatherAll_forall (fun y hy _ hf => ih (hclosed x hx y hy) hf) hfound b hb

theorem gatherAll_map (m : β → γ) {f : α → Option (List β)} {g : α → Option (List γ)} (xs : List α)
    (h : ∀ x ∈ xs, g x = (f x).map (List.map m)) : gatherAll g xs = (gatherAll f xs).map (List.map m) := by
  induction xs with
  | nil => rfl
  | cons x xs ih =>
    obtain ⟨hx, hxs⟩ := List.forall_mem_cons.mp h
    simp only [gatherAll, hx, ih hxs]
    cases f x with
    | none => rfl
    | some a => cases gatherAll f xs <;> simp

theorem gather_map (m : β → γ) (depth : Nat) : ∀ x : α,
    gather next (fun x => (own x).map m) depth x = (gather next own depth x).map (List.map m) := by
  induction depth with
  | zero => intro x; rfl
  | succ depth ih =>
    intro x
    unfold gather
    rw [gatherAll_map m (next x) fun y _ => ih y]
    cases gatherAll (gather next own depth) (next x) <;> simp

/-! ## Guarded gathering -/

def gatherAllGuarded (f : α → Option (Except α (List β))) : List α → Option (Except α (List β))
  | [] => some (.ok [])
  | x :: xs => andThen (f x) fun found => andThen (gatherAllGuarded f xs) fun rest => some (.ok (found ++ rest))

def gatherGuarded [DecidableEq α] (next : α → List α) (own : α → List β) :
    Nat → List α → α → Option (Except α (List β))
  | 0, _, _ => none
  | depth + 1, above, x =>
    if x ∈ above then some (.error x)
    else andThen (gatherAllGuarded (gatherGuarded next own depth (x :: above)) (next x)) fun found =>
      some (.ok (own x ++ found))

theorem gatherAllGuarded_singleton (f : α → Option (Except α (List β))) (x : α) : gatherAllGuarded f [x] = f x := by
  simp [gatherAllGuarded]

theorem gatherAllGuarded_append (f : α → Option (Except α (List β))) (xs ys : List α) :
    gatherAllGuarded f (xs ++ ys) =
      andThen (gatherAllGuarded f xs) fun found => andThen (gatherAllGuarded f ys) fun rest =>
        some (.ok (found ++ rest)) := by
  induction xs with
  | nil => simp [gatherAllGuarded]
  | cons x xs ih => simp only [List.cons_append, gatherAllGuarded, ih, andThen_assoc, andThen_ok, List.append_assoc]

theorem gatherAll_of_gatherAllGuarded {f : α → Option (List β)} {g : α → Option (Except α (List β))} {xs : List α} :
    ∀ {bs : List β}, (∀ x ∈ xs, ∀ b, g x = some (.ok b) → f x = some b) → gatherAllGuarded g xs = some (.ok bs) →
      gatherAll f xs = some bs := by
  induction xs with
  | nil => intro bs _ h; cases h; rfl
  | cons x xs ih =>
    intro bs hfg h
    obtain ⟨hx, hxs⟩ := List.forall_mem_cons.mp hfg
    obtain ⟨found, hfound, h⟩ := andThen_eq_ok h
    obtain ⟨rest, hrest, h⟩ := andThen_eq_ok h
    cases h
    simp [gatherAll, hx found hfound, ih hxs hrest]

theorem gatherAllGuarded_error {g : α → Option (Except α (List β))} {e : α} {xs : List α}
    (h : gatherAllGuarded g xs = some (.error e)) : ∃ x ∈ xs, g x = some (.error e) := by
  induction xs with
  | nil => cases h
  | cons x xs ih =>
    rcases andThen_eq_error h with hx | ⟨found, -, h⟩
    · exact ⟨x, List.mem_cons_self, hx⟩
    · rcases andThen_eq_error h with hxs | ⟨rest, -, h⟩
      · obtain ⟨y, hy, he⟩ := ih hxs
        exact ⟨y, List.mem_cons_of_mem _ hy, he⟩
      · cases h

theorem gatherAllGuarded_ne_none {g : α → Option (Except α (List β))} {xs : List α} (h : ∀ x ∈ xs, g x ≠ none) :
    gatherAllGuarded g xs ≠ none := by
  induction xs with
  | nil => simp [gatherAllGuarded]
  | cons x xs ih =>
    obtain ⟨hx, hxs⟩ := List.forall_mem_cons.mp h
    exact andThen_ne_none hx fun _ => andThen_ne_none (ih hxs) fun _ => Option.some_ne_none _

section
variable [DecidableEq α]

theorem gather_of_guarded {depth : Nat} : ∀ {above : List α} {x : α} {bs : List β},
    gatherGuarded next own depth above x = some (.ok bs) → gather next own depth x = some bs := by
  induction depth with
  | zero => intro above x bs h; cases h
  | succ depth ih =>
    intro above x bs h
    unfold gatherGuarded at h
    by_cases hmem : x ∈ above
    · rw [if_pos hmem] at h; cases h
    · rw [if_neg hmem] at h
      obtain ⟨found, hfound, h⟩ := andThen_eq_ok h
      cases h
      unfold gather
      rw [gatherAll_of_gatherAllGuarded (fun y _ b hb => ih hb) hfound]
      rfl

/-- A refusal names a node that is behind the one where it started, and behind itself unless it was
above from the start. -/
theorem path_of_gatherGuarded_error {depth : Nat} : ∀ {above : List α} {x c : α},
    gatherGuarded next own depth above x = some (.error c) →
      Relation.ReflTransGen (fun x y => y ∈ next x) x c ∧
        (c ∈ above ∨ Relation.TransGen (fun x y => y ∈ next x) c c) := by
  induction depth with
  | zero => intro above x c h; cases h
  | succ depth ih =>
    intro above x c h
    unfold gatherGuarded at h
    by_cases hmem : x ∈ above
    · rw [if_pos hmem] at h; cases h
      exact ⟨.refl, .inl hmem⟩
    · rw [if_neg hmem] at h
      rcases andThen_eq_error h with h | ⟨found, -, h⟩
      · obtain ⟨y, hy, he⟩ := gatherAllGuarded_error h
        obtain ⟨hyc, hc⟩ := ih he
        refine ⟨.head hy hyc, ?_⟩
        rcases hc with hc | hc
        · rcases List.mem_cons.mp hc with rfl | hc
          · exact .inr (.head' hy hyc)
          · exact .inl hc
        · exact .inr hc
      · cases h

theorem gatherGuarded_ends (nodes : List α) {S : α → Prop} (hclosed : ∀ x, S x → ∀ y ∈ next x, S y)
    (hnodes : ∀ x, S x → next x ≠ [] → x ∈ nodes) {depth : Nat} (hd : nodes.length + 2 ≤ depth) {x : α} (hx : S x) :
    gatherGuarded next own depth [] x ≠ none := by
  refine descendBelow (P := fun depth above x => gatherGuarded next own depth above x ≠ none) nodes hclosed hnodes
    (fun depth above x _ h => ?_) depth hx .nil (List.nil_subset _) (by simpa using hd)
  unfold gatherGuarded
  by_cases hmem : x ∈ above
  · simp [hmem]
  · rw [if_neg hmem]
    exact andThen_ne_none (gatherAllGuarded_ne_none (h hmem)) fun _ => Option.some_ne_none _

end

/-! ## On a finite graph there is a depth that is enough -/

theorem gatherAllGuarded_mono {f g : α → Option (Except α (List β))} {xs : List α}
    (hfg : ∀ x r, f x = some r → g x = some r) :
    ∀ {r : Except α (List β)}, gatherAllGuarded f xs = some r → gatherAllGuarded g xs = some r := by
  induction xs with
  | nil => intro r h; exact h
  | cons x xs ih =>
    intro r h
    exact andThen_mono (hfg x) (fun _ _ => andThen_mono (fun _ => ih) fun _ _ => id) h

section
variable [DecidableEq α]

theorem gatherGuarded_mono {depth depth' : Nat} (hle : depth ≤ depth') : ∀ {above : List α} {x : α}
    {r : Except α (List β)}, gatherGuarded next own depth above x = some r →
      gatherGuarded next own depth' above x = some r := by
  induction depth generalizing depth' with
  | zero => intro above x r h; cases h
  | succ depth ih =>
    intro above x r h
    obtain ⟨n, rfl⟩ := Nat.exists_eq_add_of_le' hle
    rw [← Nat.add_assoc]
    unfold gatherGuarded at h ⊢
    by_cases hmem : x ∈ above
    · rw [if_pos hmem] at h ⊢; exact h
    · rw [if_neg hmem] at h ⊢
      exact andThen_mono (fun _ => gatherAllGuarded_mono fun y r => ih (Nat.le_add_left _ _)) (fun _ _ => id) h

variable (nodes : List α) {S : α → Prop} (hclosed : ∀ x, S x → ∀ y ∈ next x, S y)
  (hnodes : ∀ x, S x → next x ≠ [] → x ∈ nodes) {depth : Nat} (hd : nodes.length + 2 ≤ depth) {x : α} (hx : S x)
include hclosed hnodes hx

theorem exists_guarded (hit : α → Bool) : ∃ r, guarded next hit (nodes.length + 2) [] x = some r :=
  Option.ne_none_iff_exists'.mp (guarded_ends nodes hclosed hnodes (Nat.le_refl _) hx)

theorem exists_gatherGuarded (own : α → List β) : ∃ r, gatherGuarded next own (nodes.length + 2) [] x = some r :=
  Option.ne_none_iff_exists'.mp (gatherGuarded_ends nodes hclosed hnodes (Nat.le_refl _) hx)

include hd

theorem guarded_stable : guarded next hit depth [] x = guarded next hit (nodes.length + 2) [] x := by
  obtain ⟨r, hr⟩ := exists_guarded nodes hclosed hnodes hx hit
  rw [hr]
  exact guarded_mono hd hr

theorem gatherGuarded_stable : gatherGuarded next own depth [] x = gatherGuarded next own (nodes.length + 2) [] x := by
  obtain ⟨r, hr⟩ := exists_gatherGuarded nodes hclosed hnodes hx own
  rw [hr]
  exact gatherGuarded_mono hd hr

/-- A plain search that ends does so within the depth that is enough for the guarded one. -/
theorem search_stable : search next hit depth x = search next hit (nodes.length + 2) x := by
  obtain ⟨r, hr⟩ := exists_guarded nodes hclosed hnodes hx hit
  cases r with
  | ok b =>
    have hsearch := search_of_guarded hr
    rw [hsearch]
    exact search_mono hd hsearch
  | error e =>
    obtain ⟨hpath, hcircle⟩ := calls_of_guarded_error hr
    have hnever := search_of_reaches_cycle hpath (hcircle.resolve_left (by simp))
    rw [hnever, hnever]

theorem gather_stable : gather next own depth x = gather next own (nodes.length + 2) x := by
  obtain ⟨r, hr⟩ := exists_gatherGuarded nodes hclosed hnodes hx own
  cases r with
  | ok bs =>
    have hgather := gather_of_guarded hr
    rw [hgather]
    exact gather_mono hd hgather
  | error e =>
    obtain ⟨hpath, hcircle⟩ := path_of_gatherGuarded_error hr
    have hnever (depth : Nat) : gather next own depth x = none :=
      gather_of_reaches_cycle hpath (hcircle.resolve_left (by simp)) depth
    rw [hnever, hnever]

end

/-! ## Graphs without circles -/

theorem anyOf_ne_none {f : α → Option Bool} {xs : List α} (h : ∀ x ∈ xs, f x ≠ none) : anyOf f xs ≠ none := by
  induction xs with
  | nil => simp [anyOf]
  | cons x xs ih =>
    obtain ⟨hx, hxs⟩ := List.forall_mem_cons.mp h
    obtain ⟨a, ha⟩ := Option.ne_none_iff_exists'.mp hx
    cases a <;> simp [anyOf, ha, ih hxs]

section
variable (nodes : List α) {S : α → Prop} (hclosed : ∀ x, S x → ∀ y ∈ next x, S y)
  (hnodes : ∀ x, S x → next x ≠ [] → x ∈ nodes)
  (hacyclic : ∀ x, S x → ¬ Relation.TransGen (fun x y => y ∈ next x) x x)
include hclosed hnodes hacyclic

theorem search_ends {x : α} (hx : S x) : ∃ b, search next hit (nodes.length + 2) x = some b := by
  refine Option.ne_none_iff_exists'.mp (descend (P := fun depth x => search next hit depth x ≠ none) nodes hclosed
    hnodes hacyclic (fun depth x h => ?_) hx)
  unfold search
  by_cases hh : hit x = true
  · simp [hh]
  · simp only [hh]; exact anyOf_ne_none h

theorem gather_ends {x : α} (hx : S x) : ∃ bs, gather next own (nodes.length + 2) x = some bs := by
  refine Option.ne_none_iff_exists'.mp (descend (P := fun depth x => gather next own depth x ≠ none) nodes hclosed
    hnodes hacyclic (fun depth x h => ?_) hx)
  unfold gather
  simpa using gatherAll_ne_none h

end

/-! ## Graphs that look alike -/

section
variable {next' : γ → List γ} {R : α → γ → Prop}

theorem anyOf_eq {f : α → Option Bool} {g : γ → Option Bool} {xs : List α} {ys : List γ} (h : List.Forall₂ R xs ys)
    (hfg : ∀ x y, R x y → f x = g y) : anyOf f xs = anyOf g ys := by
  induction h with
  | nil => rfl
  | cons hxy _ ih => rw [anyOf_cons, anyOf_cons, hfg _ _ hxy, ih]

theorem search_eq (hnext : ∀ x y, R x y → List.Forall₂ R (next x) (next' y)) {hit' : γ → Bool}
    (hhit : ∀ x y, R x y → hit x = hit' y) (depth : Nat) : ∀ x y, R x y →
      search next hit depth x = search next' hit' depth y := by
  induction depth with
  | zero => intro x y _; rfl
  | succ depth ih =>
    intro x y hxy
    unfold search
    rw [hhit x y hxy, anyOf_eq (hnext x y hxy) ih]

theorem gatherAll_eq {f : α → Option (List β)} {g : γ → Option (List β)} {xs : List α} {ys : List γ}
    (h : List.Forall₂ R xs ys) (hfg : ∀ x y, R x y → f x = g y) : gatherAll f xs = gatherAll g ys := by
  induction h with
  | nil => rfl
  | cons hxy _ ih => simp only [gatherAll, hfg _ _ hxy, ih]

theorem gather_eq (hnext : ∀ x y, R x y → List.Forall₂ R (next x) (next' y)) {own' : γ → List β}
    (hown : ∀ x y, R x y → own x = own' y) (depth : Nat) : ∀ x y, R x y →
      gather next own depth x = gather next' own' depth y := by
  induction depth with
  | zero => intro x y _; rfl
  | succ depth ih =>
    intro x y hxy
    unfold gather
    rw [hown x y hxy, gatherAll_eq (hnext x y hxy) ih]

end

end

end ClassModel.Descent
