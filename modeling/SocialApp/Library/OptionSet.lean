import Mathlib.Data.Nat.Bitwise

/-!
# Option sets

Members that have a bit of their own, and the bitmasks that stand for sets of them.
-/

namespace SocialApp.Library.OptionSet
variable {ι : Type*} (bit : ι → Nat)

def raw (members : List ι) : Nat := members.foldl (fun mask member => mask ||| 1 <<< bit member) 0

def contains (mask : Nat) (member : ι) : Bool := mask &&& 1 <<< bit member = 1 <<< bit member

theorem contains_eq_testBit (mask : Nat) (member : ι) :
    contains bit mask member = mask.testBit (bit member) := by
  have positive := Nat.two_pow_pos (bit member)
  rw [contains, Nat.one_shiftLeft, Nat.and_two_pow]
  cases mask.testBit (bit member) <;> simp
  omega

theorem testBit_raw_iff {members : List ι} {i : Nat} :
    (raw bit members).testBit i ↔ ∃ member ∈ members, bit member = i := by
  have fold : ∀ start : Nat,
      (members.foldl (fun mask member => mask ||| 1 <<< bit member) start).testBit i ↔
        start.testBit i ∨ ∃ member ∈ members, bit member = i := by
    induction members with
    | nil => simp
    | cons member members ih =>
        intro start
        rw [List.foldl_cons, ih]
        simp [Nat.one_shiftLeft, Nat.testBit_two_pow, or_assoc]
  simpa [raw] using fold 0

theorem raw_lt {bound : Nat} (bounded : ∀ member, bit member < bound) (members : List ι) :
    raw bit members < 2 ^ bound := by
  apply Nat.lt_pow_two_of_testBit
  intro i large
  rw [Bool.eq_false_iff, ne_eq, testBit_raw_iff]
  intro present
  obtain ⟨member, _, same⟩ := present
  have small := bounded member
  omega

variable {bit}

theorem contains_raw_iff (injective : Function.Injective bit) {members : List ι} {member : ι} :
    contains bit (raw bit members) member ↔ member ∈ members := by
  rw [contains_eq_testBit, testBit_raw_iff]
  constructor
  · intro present
    obtain ⟨other, listed, same⟩ := present
    exact injective same ▸ listed
  · intro listed
    exact ⟨member, listed, rfl⟩

end SocialApp.Library.OptionSet
