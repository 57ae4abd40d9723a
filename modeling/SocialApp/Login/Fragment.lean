import SocialApp.Login.Session

/-!
# Parsing the fragment of the redirect

`params` splits the fragment at `&`, each component at `=`, and takes the first two parts of each
as key and value. What it does on any text, and on the text of a list of parameters.
-/

namespace SocialApp.Login
open Library Foundation Machine

structure Parameter where
  key : String
  value : String
  key_plain : '&' ∉ key.toList ∧ '=' ∉ key.toList
  value_plain : '&' ∉ value.toList

def Parameter.text (parameter : Parameter) : String := parameter.key ++ "=" ++ parameter.value

def encoded (parameters : List Parameter) : String :=
  "&".intercalate (parameters.map Parameter.text)

def lastValue (parameters : List Parameter) (key : String) : Option String :=
  (Table.latest Parameter.key parameters key).map Parameter.value

theorem components_of_not_mem {separator : Char} {text : String}
    (absent : separator ∉ text.toList) : components separator text = [text] := by
  rw [components, List.splitOn_eq_singleton absent, List.map_singleton, String.ofList_toList]

theorem components_append {separator : Char} {first : String} (absent : separator ∉ first.toList)
    (rest : String) :
    components separator (first ++ String.singleton separator ++ rest) =
      first :: components separator rest := by
  have text : (first ++ String.singleton separator ++ rest).toList =
      first.toList ++ separator :: rest.toList := by simp
  rw [components, text, List.splitOn_append_cons_self_of_not_mem absent, List.map_cons,
    String.ofList_toList, components]

theorem exists_cons_components (separator : Char) (text : String) :
    ∃ first rest, components separator text = first :: rest :=
  List.exists_cons_of_ne_nil (by simp [components])

theorem exists_components {separator : Char} {text : String} (present : separator ∈ text.toList) :
    ∃ first rest, text = first ++ String.singleton separator ++ rest ∧
      components separator text = first :: components separator rest := by
  obtain ⟨before, after, split, absent⟩ := List.eq_append_cons_of_mem present
  have text_eq : text =
      String.ofList before ++ String.singleton separator ++ String.ofList after := by
    rw [← String.toList_inj]
    simp [split]
  refine ⟨String.ofList before, String.ofList after, text_eq, ?_⟩
  rw [text_eq]
  exact components_append (by simpa using absent) _

/-- What the parser reads as the value of a parameter. -/
def firstPart (value : String) : String := (components '=' value).headD ""

theorem firstPart_eq_self_iff {value : String} : firstPart value = value ↔ '=' ∉ value.toList := by
  constructor
  · intro whole present
    obtain ⟨first, rest, text, parts⟩ := exists_components present
    simp only [firstPart, parts, List.headD_cons] at whole
    have length := congrArg (fun t => t.toList.length) text
    simp [← whole] at length
  · intro absent
    simp [firstPart, components_of_not_mem absent]

theorem two_parts_iff {component : String} :
    2 ≤ (components '=' component).length ↔ '=' ∈ component.toList := by
  by_cases present : '=' ∈ component.toList
  · obtain ⟨first, rest, _, parts⟩ := exists_components present
    obtain ⟨second, others, more⟩ := exists_cons_components '=' rest
    simp [parts, more, present]
  · simp [components_of_not_mem present, present]

theorem addParam_isSome_iff (result : Dictionary) (param : List String) :
    (addParam result param).isSome ↔ 2 ≤ param.length := by
  rcases param with _ | ⟨key, _ | ⟨value, rest⟩⟩ <;> simp [addParam]

theorem addParam_text (result : Dictionary) (parameter : Parameter) :
    addParam result (components '=' parameter.text) =
      some (result.set parameter.key (firstPart parameter.value)) := by
  have parts := components_append parameter.key_plain.2 parameter.value
  obtain ⟨second, others, more⟩ := exists_cons_components '=' parameter.value
  simp only [Parameter.text, addParam]
  rw [show ("=" : String) = String.singleton '=' from rfl, parts]
  simp [firstPart, more]

theorem params_isSome_iff {fragment : String} :
    (params fragment).isSome ↔ ∀ component ∈ components '&' fragment, '=' ∈ component.toList := by
  rw [params, ← run_eq_foldlM, run_isSome_iff addParam_isSome_iff, List.forall_mem_map]
  simp only [two_parts_iff]

theorem foldlM_texts (result : Dictionary) (parameters : List Parameter) :
    ((parameters.map Parameter.text).map (components '=')).foldlM addParam result =
      some (result.upsertAll (parameters.map fun p => (p.key, firstPart p.value))) := by
  induction parameters generalizing result with
  | nil => rfl
  | cons parameter parameters ih =>
      simp only [List.map_cons, List.foldlM_cons, addParam_text, Option.bind_eq_bind,
        Option.bind_some, ih]
      rfl

theorem components_encoded {parameters : List Parameter} (nonempty : parameters ≠ []) :
    components '&' (encoded parameters) = parameters.map Parameter.text := by
  have plain : ∀ text ∈ (parameters.map Parameter.text).map String.toList, '&' ∉ text := by
    intro text member
    simp only [List.map_map, List.mem_map, Function.comp_apply] at member
    obtain ⟨parameter, _, rfl⟩ := member
    simp [Parameter.text, parameter.key_plain.1, parameter.value_plain]
  have split := List.splitOn_intercalate '&' plain (by simpa using nonempty)
  rw [components, encoded, String.toList_intercalate]
  show (List.splitOn '&' (['&'].intercalate _)).map String.ofList = _
  rw [split, List.map_map]
  simp [Function.comp_def]

theorem latest_map_firstPart (parameters : List Parameter) (key : String) :
    Table.latest Prod.fst (parameters.map fun p => (p.key, firstPart p.value)) key =
      (Table.latest Parameter.key parameters key).map fun p => (p.key, firstPart p.value) := by
  simp only [Table.latest, ← List.map_reverse, List.find?_map]
  rfl

theorem params_encoded {parameters : List Parameter} (nonempty : parameters ≠ []) :
    ∃ d, params (encoded parameters) = some d ∧
      ∀ key, d.get key = (lastValue parameters key).map firstPart := by
  rw [params, components_encoded nonempty, foldlM_texts]
  refine ⟨_, rfl, fun key => ?_⟩
  rw [Dictionary.get, Table.find_upsertAll, latest_map_firstPart, lastValue]
  cases Table.latest Parameter.key parameters key <;> rfl

def RoundTrips (parameters : List Parameter) : Prop :=
  ∃ d, params (encoded parameters) = some d ∧ ∀ key, d.get key = lastValue parameters key

theorem params_empty : params "" = none := by decide

theorem roundTrips_iff {parameters : List Parameter} :
    RoundTrips parameters ↔ parameters ≠ [] ∧
      ∀ key value, lastValue parameters key = some value → '=' ∉ value.toList := by
  by_cases empty : parameters = []
  · subst empty
    have text : encoded [] = "" := String.intercalate_nil
    simp [RoundTrips, text, params_empty]
  · obtain ⟨d, parsed, read⟩ := params_encoded empty
    simp only [RoundTrips, parsed, Option.some.injEq, exists_eq_left', read, ne_eq, empty,
      not_false_eq_true, true_and]
    apply forall_congr'
    intro key
    cases lastValue parameters key <;> simp [firstPart_eq_self_iff]

theorem fragment_parser_iff (fragment : String) (parameters : List Parameter) :
    ((params fragment).isSome ↔ ∀ component ∈ components '&' fragment, '=' ∈ component.toList) ∧
      (RoundTrips parameters ↔ parameters ≠ [] ∧
        ∀ key value, lastValue parameters key = some value → '=' ∉ value.toList) :=
  ⟨params_isSome_iff, roundTrips_iff⟩

def paddedToken : Parameter where
  key := "access_token"
  value := "YQ=="
  key_plain := by decide
  value_plain := by decide

theorem fragment_parser_fails : ¬ (params "").isSome ∧ ¬ RoundTrips [paddedToken] := by
  constructor
  · decide
  · intro roundTrip
    obtain ⟨d, parsed, read⟩ := roundTrip
    have token := read "access_token"
    have text : encoded [paddedToken] = "access_token=YQ==" := by
      rw [encoded, List.map_singleton, String.intercalate_singleton]
      rfl
    rw [text] at parsed
    have got : (params "access_token=YQ==").bind (fun d => d.get "access_token") = some "YQ" := by
      decide
    rw [parsed, Option.bind_some, token] at got
    revert got
    decide

end SocialApp.Login
