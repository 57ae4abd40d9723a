import SocialApp.Library.Outlet
import SocialApp.Library.Table

/-!
# Keyed maps that are replaced as a whole and edited at keys

A map from keys to records is either replaced by what a list says about each key, or has one field
of the record at one key assigned. After a replacement the record at a key is the last one the
list has for it, with what was assigned there last since.
-/

namespace SocialApp.Library

inductive Edit (κ ρ δ : Type*)
  | replace (rows : List ρ)
  | assign (k : κ) (d : δ)

namespace Edit
variable {κ ρ δ : Type*} [DecidableEq κ]

def apply (key : ρ → κ) (set : δ → ρ → ρ) (m : κ → Option ρ) : Edit κ ρ δ → κ → Option ρ
  | replace rows => Table.latest key rows
  | assign k d => Function.update m k ((m k).map (set d))

def assignedAt (k : κ) : Edit κ ρ δ → Option δ
  | replace _ => none
  | assign j d => if j = k then some d else none

def IsAssign : Edit κ ρ δ → Prop
  | replace _ => False
  | assign _ _ => True

/-! ## Tables under edits -/

section Tables
variable {key : ρ → κ} (set : δ → ρ → ρ)

theorem find_replaced (table : Table key) (rows : List ρ) :
    ((Table.empty : Table key).upsertAll rows).find = apply key set table.find (replace rows) := by
  funext k
  exact Table.find_upsertAll_empty rows k

theorem find_assigned (keeps : ∀ d r, key (set d r) = key r) (table : Table key) (k : κ) (d : δ) :
    (table.modify k (set d) (keeps d)).find = apply key set table.find (assign k d) := by
  funext j
  rw [Table.find_modify]
  by_cases here : j = k
  · subst here
    simp [apply]
  · rw [if_neg here, apply, Function.update_of_ne here]

end Tables

/-! ## Sequences of edits -/

variable {key : ρ → κ} {set : δ → ρ → ρ} (overwrites : ∀ d d' r, set d (set d' r) = set d r)
include overwrites

theorem foldl_assigns {edits : List (Edit κ ρ δ)} (assigns : ∀ edit ∈ edits, edit.IsAssign)
    (m : κ → Option ρ) (k : κ) :
    edits.foldl (apply key set) m k =
      (m k).map fun r => (lastSome (assignedAt k) edits).elim r fun d => set d r := by
  induction edits generalizing m with
  | nil => simp [lastSome]
  | cons edit edits ih =>
      rw [List.foldl_cons, ih fun e member => assigns e (List.mem_cons_of_mem _ member)]
      cases edit with
      | replace rows => exact absurd (assigns _ List.mem_cons_self) id
      | assign j d =>
          rw [lastSome_cons, apply, assignedAt]
          by_cases here : j = k
          · subst here
            cases m j <;> cases lastSome (assignedAt j) edits <;> simp [overwrites]
          · rw [Function.update_of_ne (Ne.symm here), if_neg here, Option.or_none]

theorem foldl_replace {before after : List (Edit κ ρ δ)} {rows : List ρ}
    (assigns : ∀ edit ∈ after, edit.IsAssign) (m : κ → Option ρ) (k : κ) :
    (before ++ replace rows :: after).foldl (apply key set) m k =
      (Table.latest key rows k).map fun r =>
        (lastSome (assignedAt k) after).elim r fun d => set d r := by
  rw [List.foldl_append, List.foldl_cons, foldl_assigns overwrites assigns]
  rfl

end Edit
end SocialApp.Library
