import Mathlib.Data.List.Nodup

/-!
# Tables with a primary key

A table is the list of its rows in storage order, no two of which share a key. Through `find` it
is a partial map from keys to rows, and every operation is described by its effect on `find`.
-/

namespace SocialApp.Library

structure Table {ρ κ : Type*} (key : ρ → κ) where
  rows : List ρ
  nodup : (rows.map key).Nodup

namespace Table
variable {ρ κ : Type*} {key : ρ → κ}

@[ext] theorem ext {t u : Table key} (h : t.rows = u.rows) : t = u := by
  cases t; cases u; simpa using h

def empty : Table key := ⟨[], List.nodup_nil⟩

@[simp] theorem empty_rows : (empty : Table key).rows = [] := rfl

def keys (t : Table key) : List κ := t.rows.map key

instance [DecidableEq ρ] : DecidableEq (Table key) := fun t u =>
  decidable_of_iff (t.rows = u.rows) ⟨Table.ext, fun h => h ▸ rfl⟩

def mapRows (t : Table key) (f : ρ → ρ) (keeps : ∀ r, key (f r) = key r) : Table key where
  rows := t.rows.map f
  nodup := by
    have same : (t.rows.map f).map key = t.rows.map key := by
      simp [List.map_map, Function.comp_def, keeps]
    exact same ▸ t.nodup

@[simp] theorem mapRows_rows (t : Table key) (f : ρ → ρ) (keeps : ∀ r, key (f r) = key r) :
    (t.mapRows f keeps).rows = t.rows.map f := rfl

/-- What is made of some of the rows still has distinct keys. -/
theorem nodup_filterMap {σ : Type*} {key' : σ → κ} {g : ρ → Option σ}
    (keeps : ∀ r s, g r = some s → key' s = key r) {rs : List ρ} (distinct : (rs.map key).Nodup) :
    ((rs.filterMap g).map key').Nodup := by
  induction rs with
  | nil => exact List.nodup_nil
  | cons r rs ih =>
      simp only [List.map_cons, List.nodup_cons] at distinct
      cases got : g r with
      | none =>
          rw [List.filterMap_cons_none got]
          exact ih distinct.2
      | some s =>
          rw [List.filterMap_cons_some got, List.map_cons, List.nodup_cons]
          refine ⟨?_, ih distinct.2⟩
          intro member
          obtain ⟨s', member, same⟩ := List.mem_map.mp member
          obtain ⟨r', member, got'⟩ := List.mem_filterMap.mp member
          apply distinct.1
          rw [← keeps r s got, ← same, keeps r' s' got']
          exact List.mem_map_of_mem member

variable [DecidableEq κ]

def find (t : Table key) (k : κ) : Option ρ := t.rows.find? fun r => key r = k

@[simp] theorem find_empty (k : κ) : (empty : Table key).find k = none := rfl

theorem find_eq_some_iff {t : Table key} {k : κ} {r : ρ} :
    t.find k = some r ↔ r ∈ t.rows ∧ key r = k := by
  constructor
  · intro found
    exact ⟨List.mem_of_find?_eq_some found, by simpa using List.find?_some found⟩
  · rintro ⟨member, rfl⟩
    cases found : t.find (key r) with
    | none =>
        have absent := List.find?_eq_none.mp found r member
        simp at absent
    | some r' =>
        have same : key r' = key r := by simpa using List.find?_some found
        rw [List.inj_on_of_nodup_map t.nodup (List.mem_of_find?_eq_some found) member same]

theorem find_isSome_iff {t : Table key} {k : κ} : (t.find k).isSome ↔ k ∈ t.keys := by
  simp only [Option.isSome_iff_exists, find_eq_some_iff, keys, List.mem_map]

theorem find_key {t : Table key} {r : ρ} (member : r ∈ t.rows) : t.find (key r) = some r :=
  find_eq_some_iff.mpr ⟨member, rfl⟩

theorem map_find_keys {t : Table key} {rs : List ρ} (members : ∀ r ∈ rs, r ∈ t.rows) :
    (rs.map key).map t.find = rs.map some := by
  rw [List.map_map]
  exact List.map_congr_left fun r member => find_key (members r member)

/-! ## Insertion and replacement -/

def upsertRows (key : ρ → κ) (r : ρ) : List ρ → List ρ
  | [] => [r]
  | x :: xs => if key x = key r then r :: xs else x :: upsertRows key r xs

theorem map_key_upsertRows (r : ρ) (rs : List ρ) :
    (upsertRows key r rs).map key =
      if key r ∈ rs.map key then rs.map key else rs.map key ++ [key r] := by
  induction rs with
  | nil => rfl
  | cons x xs ih =>
      by_cases same : key x = key r
      · simp [upsertRows, same]
      · have other : key r ≠ key x := fun h => same h.symm
        simp only [upsertRows, same, if_false, List.map_cons, ih, List.mem_cons, other, false_or]
        split <;> simp

def upsert (t : Table key) (r : ρ) : Table key where
  rows := upsertRows key r t.rows
  nodup := by
    rw [map_key_upsertRows]
    split
    · exact t.nodup
    · rename_i fresh
      rw [← List.concat_eq_append]
      exact t.nodup.concat fresh

theorem mem_upsertRows {r x : ρ} {rs : List ρ} (nodup : (rs.map key).Nodup) :
    x ∈ upsertRows key r rs ↔ x = r ∨ (x ∈ rs ∧ key x ≠ key r) := by
  induction rs with
  | nil => simp [upsertRows]
  | cons y ys ih =>
      simp only [List.map_cons, List.nodup_cons, List.mem_map, not_exists, not_and] at nodup
      by_cases same : key y = key r
      · simp only [upsertRows, same, if_true, List.mem_cons]
        have others : x ∈ ys → key x ≠ key r := fun member eq => nodup.1 x member (eq.trans same.symm)
        constructor
        · rintro (rfl | member)
          · exact Or.inl rfl
          · exact Or.inr ⟨Or.inr member, others member⟩
        · rintro (rfl | ⟨rfl | member, different⟩)
          · exact Or.inl rfl
          · exact absurd same different
          · exact Or.inr member
      · simp only [upsertRows, same, if_false, List.mem_cons, ih nodup.2]
        constructor
        · rintro (rfl | rfl | ⟨member, different⟩)
          · exact Or.inr ⟨Or.inl rfl, same⟩
          · exact Or.inl rfl
          · exact Or.inr ⟨Or.inr member, different⟩
        · rintro (rfl | ⟨rfl | member, different⟩)
          · exact Or.inr (Or.inl rfl)
          · exact Or.inl rfl
          · exact Or.inr (Or.inr ⟨member, different⟩)

theorem mem_upsert {t : Table key} {r x : ρ} :
    x ∈ (t.upsert r).rows ↔ x = r ∨ (x ∈ t.rows ∧ key x ≠ key r) :=
  mem_upsertRows t.nodup

theorem find_upsert (t : Table key) (r : ρ) (k : κ) :
    (t.upsert r).find k = if key r = k then some r else t.find k := by
  ext x
  rw [find_eq_some_iff, mem_upsert]
  by_cases same : key r = k
  · subst same
    simp only [if_true, Option.some.injEq]
    constructor
    · rintro ⟨rfl | ⟨_, different⟩, eq⟩
      · rfl
      · exact absurd eq different
    · rintro rfl
      exact ⟨Or.inl rfl, rfl⟩
  · simp only [same, if_false, find_eq_some_iff]
    constructor
    · rintro ⟨rfl | ⟨member, _⟩, eq⟩
      · exact absurd eq same
      · exact ⟨member, eq⟩
    · rintro ⟨member, rfl⟩
      exact ⟨Or.inr ⟨member, fun eq => same eq.symm⟩, rfl⟩

def upsertAll (t : Table key) (rs : List ρ) : Table key := rs.foldl upsert t

def latest (key : ρ → κ) (rs : List ρ) (k : κ) : Option ρ := rs.reverse.find? fun r => key r = k

theorem latest_cons (r : ρ) (rs : List ρ) (k : κ) :
    latest key (r :: rs) k = (latest key rs k).or (if key r = k then some r else none) := by
  by_cases same : key r = k <;> simp [latest, same]

theorem latest_append (rs rs' : List ρ) (k : κ) :
    latest key (rs ++ rs') k = (latest key rs' k).or (latest key rs k) := by
  simp [latest]

theorem latest_isSome_iff {rs : List ρ} {k : κ} : (latest key rs k).isSome ↔ k ∈ rs.map key := by
  simp [latest, List.find?_isSome]

theorem mem_of_latest {rs : List ρ} {k : κ} {r : ρ} (last : latest key rs k = some r) : r ∈ rs :=
  List.mem_reverse.mp (List.mem_of_find?_eq_some last)

theorem latest_eq_some_iff {rs : List ρ} (distinct : (rs.map key).Nodup) {k : κ} {r : ρ} :
    latest key rs k = some r ↔ r ∈ rs ∧ key r = k := by
  have reversed : (rs.reverse.map key).Nodup := by
    rw [List.map_reverse]
    exact List.nodup_reverse.mpr distinct
  have found := find_eq_some_iff (t := ⟨rs.reverse, reversed⟩) (k := k) (r := r)
  rw [List.mem_reverse] at found
  exact found

theorem find_upsertAll (t : Table key) (rs : List ρ) (k : κ) :
    (t.upsertAll rs).find k = (latest key rs k).or (t.find k) := by
  induction rs generalizing t with
  | nil => rfl
  | cons r rs ih =>
      change ((t.upsert r).upsertAll rs).find k = _
      rw [ih, find_upsert, latest_cons, Option.or_assoc]
      split <;> rfl

@[simp] theorem upsertAll_nil (t : Table key) : t.upsertAll [] = t := rfl

theorem find_upsertAll_empty (rs : List ρ) (k : κ) :
    ((empty : Table key).upsertAll rs).find k = latest key rs k := by
  rw [find_upsertAll, find_empty, Option.or_none]

theorem mem_of_mem_upsertAll_empty {rs : List ρ} {r : ρ}
    (member : r ∈ ((empty : Table key).upsertAll rs).rows) : r ∈ rs := by
  have found := find_key member
  rw [find_upsertAll_empty] at found
  exact mem_of_latest found

theorem mem_keys_upsertAll {t : Table key} {rs : List ρ} {k : κ} :
    k ∈ (t.upsertAll rs).keys ↔ k ∈ rs.map key ∨ k ∈ t.keys := by
  rw [← find_isSome_iff, find_upsertAll, Option.isSome_or, Bool.or_eq_true, latest_isSome_iff,
    find_isSome_iff]

theorem length_upsertRows_le (r : ρ) (rs : List ρ) :
    (upsertRows key r rs).length ≤ rs.length + 1 := by
  induction rs with
  | nil => exact Nat.le_refl 1
  | cons x xs ih =>
      rw [upsertRows]
      split
      · exact Nat.le_succ _
      · exact Nat.succ_le_succ ih

theorem length_upsertAll_le (t : Table key) (rs : List ρ) :
    (t.upsertAll rs).rows.length ≤ t.rows.length + rs.length := by
  induction rs generalizing t with
  | nil => exact Nat.le_refl _
  | cons r rs ih =>
      have first : (t.upsert r).rows.length ≤ t.rows.length + 1 := length_upsertRows_le r t.rows
      have rest := ih (t.upsert r)
      change ((t.upsert r).upsertAll rs).rows.length ≤ _
      rw [List.length_cons]
      omega

theorem filter_upsertRows {r : ρ} {p : ρ → Bool} (new : p r = false) {rs : List ρ}
    (old : ∀ x ∈ rs, key x = key r → p x = false) :
    (upsertRows key r rs).filter p = rs.filter p := by
  induction rs with
  | nil => simp [upsertRows, new]
  | cons x xs ih =>
      by_cases same : key x = key r
      · simp [upsertRows, same, new, old x List.mem_cons_self same]
      · have rest := ih fun y member => old y (List.mem_cons_of_mem _ member)
        simp only [upsertRows, same, if_false, List.filter_cons, rest]

theorem filter_upsert {t : Table key} {r : ρ} {p : ρ → Bool} (new : p r = false)
    (old : ∀ x, t.find (key r) = some x → p x = false) :
    (t.upsert r).rows.filter p = t.rows.filter p :=
  filter_upsertRows new fun x member same => old x (find_eq_some_iff.mpr ⟨member, same⟩)

theorem filter_upsertAll {t : Table key} {rs : List ρ} {p : ρ → Bool} (new : ∀ r ∈ rs, p r = false)
    (old : ∀ r ∈ rs, ∀ x, t.find (key r) = some x → p x = false) :
    (t.upsertAll rs).rows.filter p = t.rows.filter p := by
  induction rs generalizing t with
  | nil => rfl
  | cons r rs ih =>
      have first := filter_upsert (new r List.mem_cons_self) (old r List.mem_cons_self)
      change ((t.upsert r).upsertAll rs).rows.filter p = _
      rw [ih (fun s member => new s (List.mem_cons_of_mem _ member)) ?_, first]
      intro s member x found
      rw [find_upsert] at found
      split at found
      · cases found
        exact new r List.mem_cons_self
      · exact old s (List.mem_cons_of_mem _ member) x found

/-! ## Removal -/

def removeAll (t : Table key) (p : ρ → Bool) : Table key where
  rows := t.rows.filter fun r => !p r
  nodup := t.nodup.sublist (List.filter_sublist.map key)

theorem find_removeAll (t : Table key) (p : ρ → Bool) (k : κ) :
    (t.removeAll p).find k = (t.find k).filter fun r => !p r := by
  ext r
  rw [find_eq_some_iff, Option.filter_eq_some_iff, find_eq_some_iff, removeAll, List.mem_filter]
  exact ⟨fun h => ⟨⟨h.1.1, h.2⟩, h.1.2⟩, fun h => ⟨⟨h.1.1, h.2⟩, h.1.2⟩⟩

/-! ## Rewriting rows in place -/

def modify (t : Table key) (k : κ) (f : ρ → ρ) (keeps : ∀ r, key (f r) = key r) : Table key :=
  t.mapRows (fun r => if key r = k then f r else r) fun r => by split <;> simp [keeps]

theorem modify_rows (t : Table key) (k : κ) (f : ρ → ρ) (keeps : ∀ r, key (f r) = key r) :
    (t.modify k f keeps).rows = t.rows.map fun r => if key r = k then f r else r := rfl

theorem keys_modify (t : Table key) (k : κ) (f : ρ → ρ) (keeps : ∀ r, key (f r) = key r) :
    (t.modify k f keeps).keys = t.keys := by
  rw [keys, modify_rows, List.map_map]
  apply List.map_congr_left
  intro r _
  simp only [Function.comp_apply]
  split <;> simp [keeps]

theorem find_modify (t : Table key) (k : κ) (f : ρ → ρ) (keeps : ∀ r, key (f r) = key r) (j : κ) :
    (t.modify k f keeps).find j = if j = k then (t.find j).map f else t.find j := by
  rw [find, modify_rows, List.find?_map]
  have same : ((fun r => decide (key r = j)) ∘ fun r => if key r = k then f r else r) =
      fun r => decide (key r = j) := by
    funext r
    simp only [Function.comp_apply]
    split <;> simp [keeps]
  rw [same]
  show (t.find j).map _ = _
  cases found : t.find j with
  | none => simp
  | some r =>
      have key_eq : key r = j := (find_eq_some_iff.mp found).2
      by_cases here : j = k <;> simp [key_eq, here]

theorem count_keys [BEq κ] [LawfulBEq κ] (t : Table key) (k : κ) :
    t.keys.count k = if (t.find k).isSome then 1 else 0 := by
  simp only [find_isSome_iff]
  exact List.Nodup.count t.nodup

/-! ## Writes that arrive in any order -/

variable {δ : Type*} (f : δ → ρ → ρ) (keeps : ∀ d r, key (f d r) = key r)

def modifyAll (t : Table key) (writes : List (κ × δ)) : Table key :=
  writes.foldl (fun t w => t.modify w.1 (f w.2) (keeps w.2)) t

theorem modifyAll_rows (t : Table key) (writes : List (κ × δ))
    (distinct : (writes.map Prod.fst).Nodup) :
    (t.modifyAll f keeps writes).rows =
      t.rows.map fun r => (writes.find? fun w => w.1 = key r).elim r fun w => f w.2 r := by
  induction writes generalizing t with
  | nil => simp [modifyAll]
  | cons w ws ih =>
      simp only [List.map_cons, List.nodup_cons, List.mem_map, not_exists, not_and] at distinct
      change ((t.modify w.1 (f w.2) (keeps w.2)).modifyAll f keeps ws).rows = _
      rw [ih _ distinct.2, modify_rows, List.map_map]
      apply List.map_congr_left
      intro r _
      obtain ⟨k, d⟩ := w
      by_cases here : key r = k
      · subst here
        have absent : (ws.find? fun x => x.1 = key r) = none := by
          rw [List.find?_eq_none]
          intro x member same
          exact distinct.1 x member (decide_eq_true_eq.mp same)
        simp [keeps, absent]
      · have other : ¬ k = key r := fun same => here same.symm
        simp [here, other]

def rewrite (t : Table key) (written : κ → Option δ) : Table key :=
  t.mapRows (fun r => (written (key r)).elim r fun d => f d r) fun r => by
    cases written (key r) <;> simp [keeps]

omit [DecidableEq κ] in
@[simp] theorem rewrite_rows (t : Table key) (written : κ → Option δ) :
    (t.rewrite f keeps written).rows =
      t.rows.map fun r => (written (key r)).elim r fun d => f d r := rfl

omit [DecidableEq κ] in
theorem rewrite_none (t : Table key) : t.rewrite f keeps (fun _ => none) = t := by
  apply ext
  rw [rewrite_rows]
  exact List.map_id' t.rows

theorem find_rewrite (t : Table key) (written : κ → Option δ) (k : κ) :
    (t.rewrite f keeps written).find k =
      (t.find k).map fun r => (written k).elim r fun d => f d r := by
  have same : ((fun r => decide (key r = k)) ∘ fun r => (written (key r)).elim r fun d => f d r) =
      fun r => decide (key r = k) := by
    funext r
    cases got : written (key r) <;> simp [got, keeps]
  rw [find, rewrite_rows, List.find?_map, same]
  show (t.find k).map _ = _
  apply Option.map_congr
  intro r found
  rw [(find_eq_some_iff.mp found).2]

variable {f keeps} in
theorem modify_rewrite (overwrites : ∀ d d' r, f d (f d' r) = f d r) (t : Table key)
    (written : κ → Option δ) (k : κ) (d : δ) :
    (t.rewrite f keeps written).modify k (f d) (keeps d) =
      t.rewrite f keeps (Function.update written k (some d)) := by
  apply ext
  rw [modify_rows, rewrite_rows, rewrite_rows, List.map_map]
  apply List.map_congr_left
  intro r _
  by_cases here : key r = k
  · subst here
    cases got : written (key r) <;> simp [got, keeps, overwrites]
  · cases got : written (key r) <;> simp [got, keeps, here]

theorem rewrite_eq_self_iff {t : Table key} {written : κ → Option δ} :
    t.rewrite f keeps written = t ↔
      ∀ k d, written k = some d → ∀ r, t.find k = some r → f d r = r := by
  rw [Table.ext_iff, rewrite, mapRows_rows]
  conv_lhs => rhs; rw [← List.map_id t.rows]
  rw [List.map_inj_left]
  constructor
  · intro same k d got r found
    obtain ⟨member, rfl⟩ := find_eq_some_iff.mp found
    simpa [got] using same r member
  · intro all r member
    cases got : written (key r) with
    | none => rfl
    | some d => exact all (key r) d got r (find_key member)

/-- The order of the writes does not matter: only what is written to each key does. -/
theorem modifyAll_eq_rewrite (t : Table key) (writes : List (κ × δ))
    (distinct : (writes.map Prod.fst).Nodup) (written : κ → Option δ)
    (exact_writes : ∀ k d, (k, d) ∈ writes ↔ written k = some d) :
    t.modifyAll f keeps writes = t.rewrite f keeps written := by
  apply ext
  rw [modifyAll_rows f keeps t writes distinct, rewrite, mapRows_rows]
  apply List.map_congr_left
  intro r _
  cases w : written (key r) with
  | none =>
      have absent : (writes.find? fun x => x.1 = key r) = none := by
        rw [List.find?_eq_none]
        rintro ⟨k, d⟩ member same
        obtain rfl : k = key r := by simpa using same
        simp [(exact_writes _ _).mp member] at w
      simp [absent]
  | some d =>
      let table : Table (Prod.fst : κ × δ → κ) := ⟨writes, distinct⟩
      have member : (key r, d) ∈ table.rows := (exact_writes _ _).mpr w
      have found := find_key member
      change (writes.find? fun x => x.1 = key r) = some (key r, d) at found
      simp [found]

end Table
end SocialApp.Library
