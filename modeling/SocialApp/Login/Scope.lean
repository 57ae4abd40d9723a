import SocialApp.Library.OptionSet
import SocialApp.Login.Fragment

/-!
# The scopes that the login asks for

`VKScopeBitmask` is an option set, and its raw value stands in the query of the authorization URL.
-/

namespace SocialApp.Login
open Library Foundation

inductive VKScope
  | notify | friends | photos | audio | video | stories | pages | status | notes | messages | wall
  | ads | offline | docs | groups | notifications | stats | email | market
  deriving DecidableEq

def VKScope.bit : VKScope → Nat
  | notify => 0
  | friends => 1
  | photos => 2
  | audio => 3
  | video => 4
  | stories => 6
  | pages => 7
  | status => 10
  | notes => 11
  | messages => 12
  | wall => 13
  | ads => 15
  | offline => 16
  | docs => 17
  | groups => 18
  | notifications => 19
  | stats => 20
  | email => 22
  | market => 27

structure VKScopeBitmask where
  rawValue : Nat

namespace VKScopeBitmask

def ofScopes (scopes : List VKScope) : VKScopeBitmask := ⟨OptionSet.raw VKScope.bit scopes⟩

def contains (mask : VKScopeBitmask) (scope : VKScope) : Bool :=
  OptionSet.contains VKScope.bit mask.rawValue scope

def all : VKScopeBitmask := ofScopes [
  .notify, .friends, .photos, .audio, .video, .stories, .pages, .status, .notes, .wall, .ads,
  .offline, .docs, .groups, .notifications, .stats, .email, .market]

end VKScopeBitmask

def queryItems (scope : VKScopeBitmask) : List Parameter := [
  { key := "client_id", value := "7676176", key_plain := by decide, value_plain := by decide },
  { key := "display", value := "mobile", key_plain := by decide, value_plain := by decide },
  { key := "redirect_uri", value := "https://oauth.vk.com/blank.html",
    key_plain := by decide, value_plain := by decide },
  { key := "scope", value := toString (scope.rawValue : Int),
    key_plain := by decide, value_plain := plain_toString _ (by decide) (by decide) },
  { key := "response_type", value := "token", key_plain := by decide, value_plain := by decide },
  { key := "v", value := "5.126", key_plain := by decide, value_plain := by decide }]

/-- The query of `urlComponents.url`. None of the values has a character to escape. -/
def authorizationQuery (scope : VKScopeBitmask) : String := encoded (queryItems scope)

/-- What a reader of the query takes the scope parameter for. -/
def requestedScope (query : String) : Option VKScopeBitmask :=
  (params query).bind fun d => (d.get "scope").bind fun text =>
    (swiftInt text).map fun value => ⟨value.toNat⟩

theorem bit_injective : Function.Injective VKScope.bit := by
  intro a b same
  cases a <;> cases b <;> first | rfl | exact absurd same (by decide)

theorem bit_lt (scope : VKScope) : scope.bit < 28 := by
  cases scope <;> decide

theorem contains_ofScopes_iff {scopes : List VKScope} {scope : VKScope} :
    (VKScopeBitmask.ofScopes scopes).contains scope ↔ scope ∈ scopes :=
  OptionSet.contains_raw_iff bit_injective

theorem rawValue_lt (scopes : List VKScope) :
    (VKScopeBitmask.ofScopes scopes).rawValue < 2 ^ 28 :=
  OptionSet.raw_lt VKScope.bit bit_lt scopes

theorem requestedScope_query (scopes : List VKScope) :
    requestedScope (authorizationQuery (.ofScopes scopes)) = some (.ofScopes scopes) := by
  have items : queryItems (.ofScopes scopes) ≠ [] := by simp [queryItems]
  obtain ⟨d, parsed, read⟩ := params_encoded items
  have last : lastValue (queryItems (.ofScopes scopes)) "scope" =
      some (toString ((VKScopeBitmask.ofScopes scopes).rawValue : Int)) := by
    simp [lastValue, Table.latest, queryItems]
  have digits : '=' ∉ (toString ((VKScopeBitmask.ofScopes scopes).rawValue : Int)).toList :=
    plain_toString _ (by decide) (by decide)
  have small := rawValue_lt scopes
  have number : swiftInt (toString ((VKScopeBitmask.ofScopes scopes).rawValue : Int)) =
      some ((VKScopeBitmask.ofScopes scopes).rawValue : Int) := by
    apply swiftInt_toString
    simp only [intMin, intMax]
    omega
  rw [requestedScope, authorizationQuery, parsed, Option.bind_some, read, last, Option.map_some,
    firstPart_eq_self_iff.mpr digits, Option.bind_some, number, Option.map_some, Int.toNat_natCast]

theorem all_contains_iff (scope : VKScope) :
    VKScopeBitmask.all.contains scope ↔ scope ≠ .messages := by
  rw [VKScopeBitmask.all, contains_ofScopes_iff]
  cases scope <;> decide

theorem scopes_read_back :
    (∀ scopes, ∃ mask, requestedScope (authorizationQuery (.ofScopes scopes)) = some mask ∧
      ∀ scope, mask.contains scope ↔ scope ∈ scopes) ∧
      ∀ scope, VKScopeBitmask.all.contains scope ↔ scope ≠ .messages :=
  ⟨fun scopes => ⟨_, requestedScope_query scopes, fun _ => contains_ofScopes_iff⟩, all_contains_iff⟩

end SocialApp.Login
