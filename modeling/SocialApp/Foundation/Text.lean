import Mathlib.Data.List.Infix
import SocialApp.Library.Table

/-!
# Strings, integers and dictionaries of the Swift library

What the program uses of them, following their documented behaviour.
-/

namespace SocialApp.Foundation
open Library

def components (separator : Char) (text : String) : List String :=
  (text.toList.splitOn separator).map String.ofList

def decimal : List Char → Option Nat
  | [] => none
  | digits => digits.foldlM (fun n c =>
      if c.isDigit then some (10 * n + (c.toNat - '0'.toNat)) else none) 0

def intMin : Int := -9223372036854775808
def intMax : Int := 9223372036854775807

/-- The result of an arithmetic operation on `Int`, which traps on overflow. -/
def checked (value : Int) : Option Int :=
  if intMin ≤ value ∧ value ≤ intMax then some value else none

/-- `Int(_:)` of a string: an optional sign and decimal digits, within 64 bits. -/
def swiftInt (text : String) : Option Int :=
  let value : Option Int := match text.toList with
    | '-' :: digits => (decimal digits).map fun n => -(n : Int)
    | '+' :: digits => (decimal digits).map Int.ofNat
    | digits => (decimal digits).map Int.ofNat
  value.filter fun v => decide (intMin ≤ v ∧ v ≤ intMax)

theorem decimal_of_digits {digits : List Char} (nonempty : digits ≠ [])
    (all : ∀ c ∈ digits, c.isDigit) : decimal digits = some (Nat.ofDigitChars 10 digits 0) := by
  have fold : ∀ n, digits.foldlM (fun n c =>
      if c.isDigit then some (10 * n + (c.toNat - '0'.toNat)) else none) n =
        some (Nat.ofDigitChars 10 digits n) := by
    clear nonempty
    induction digits with
    | nil => exact fun n => rfl
    | cons c digits ih =>
        intro n
        rw [List.foldlM_cons, if_pos (all c List.mem_cons_self), Option.bind_eq_bind,
          Option.bind_some, ih fun d member => all d (List.mem_cons_of_mem c member)]
        rfl
  cases digits with
  | nil => exact absurd rfl nonempty
  | cons c digits => exact fold 0

theorem decimal_toDigits (n : Nat) : decimal (Nat.toDigits 10 n) = some n := by
  rw [decimal_of_digits Nat.toDigits_ne_nil fun c member =>
      Nat.isDigit_of_mem_toDigits (by decide) (by decide) member, Nat.ofDigitChars_ten_toDigits]

theorem swiftInt_toString {n : Int} (inRange : intMin ≤ n ∧ n ≤ intMax) :
    swiftInt (toString n) = some n := by
  cases n with
  | ofNat m =>
      have text : (toString (Int.ofNat m)).toList = Nat.toDigits 10 m := Nat.toList_repr
      have digits : ∀ c ∈ Nat.toDigits 10 m, c.isDigit := fun c member =>
        Nat.isDigit_of_mem_toDigits (by decide) (by decide) member
      simp only [swiftInt, text]
      split
      · rename_i rest cons
        rw [cons] at digits
        exact absurd (digits '-' List.mem_cons_self) (by decide)
      · rename_i rest cons
        rw [cons] at digits
        exact absurd (digits '+' List.mem_cons_self) (by decide)
      · rw [decimal_toDigits, Option.map_some, Option.filter_some, if_pos]
        exact decide_eq_true inRange
  | negSucc m =>
      have text : (toString (Int.negSucc m)).toList = '-' :: Nat.toDigits 10 (m + 1) := by
        show ("-" ++ (m + 1).repr).toList = _
        simp
      simp only [swiftInt, text, decimal_toDigits]
      show (some (Int.negSucc m)).filter _ = _
      rw [Option.filter_some, if_pos]
      exact decide_eq_true inRange
theorem plain_toString {c : Char} (n : Int) (sign : c ≠ '-') (noDigit : ¬ c.isDigit) :
    c ∉ (toString n).toList := by
  have digits : ∀ m, c ∉ Nat.toDigits 10 m := fun m member =>
    noDigit (Nat.isDigit_of_mem_toDigits (by decide) (by decide) member)
  cases n with
  | ofNat m =>
      show c ∉ m.repr.toList
      rw [Nat.toList_repr]
      exact digits m
  | negSucc m =>
      show c ∉ ("-" ++ (m + 1).repr).toList
      simp [sign, digits]

abbrev Dictionary := Table (Prod.fst : String × String → String)

namespace Dictionary

def get (d : Dictionary) (key : String) : Option String := (d.find key).map Prod.snd

def set (d : Dictionary) (key value : String) : Dictionary := d.upsert (key, value)

end Dictionary

structure TextOperations where
  lowercased : String → String
  contains : String → String → Bool

def ascii : TextOperations where
  lowercased text := String.ofList (text.toList.map Char.toLower)
  contains text part := decide (part.toList <:+: text.toList)

abbrev Data := List UInt8

end SocialApp.Foundation
