import Mentra.Foundation.Text
import Mentra.Json.Core

/-!
# The check of a tool call's input

Model of `mentra/src/tool/schema.rs`, and what JSON Schema says about the keywords that are
looked at.  The pattern of a name is matched by a relation that is not looked into.

The check knows neither `patternProperties` nor that numbers of different kinds can be equal.
A valid input is accepted exactly if nothing turns on either.
-/

namespace Mentra.Schema

open List

open Json (field)

/-! ## The check -/

def matchesTypeName (name : String) (value : Json) : Bool :=
  match name with
  | "object" => (value matches .object _)
  | "array" => (value matches .array _)
  | "string" => (value matches .string _)
  | "boolean" => (value matches .bool _)
  | "integer" =>
    match value with
    | .number number => number.asI64.isSome || number.asF64.den = 1
    | _ => false
  | "number" => (value matches .number _)
  | "null" => (value matches .null)
  | _ => true

def typeMatches (declared value : Json) : Bool :=
  match declared with
  | .string name => matchesTypeName name value
  | .array names => (names.filterMap Json.asStr).any fun name => matchesTypeName name value
  | _ => true

def jsonTypeName : Json → String
  | .null => "null"
  | .bool _ => "boolean"
  | .number _ => "number"
  | .string _ => "string"
  | .array _ => "array"
  | .object _ => "object"

def joinPath (path name : String) : String :=
  if path.isEmpty then name else path ++ "." ++ name

def describe (path : String) : String :=
  if path.isEmpty then "the input" else "'" ++ path ++ "'"

section Check

-- `Value::to_string`.
variable (print : Json → String)

def describeType : Json → String
  | .string name => name
  | .array names => " or ".intercalate (names.filterMap Json.asStr)
  | other => print other

def rootShapeError (schema input : Json) : Option String :=
  match schema with
  | .object keywords =>
    if (field keywords "type").isSome || (input matches .object _) then none
    else if (field keywords "properties").isNone && (field keywords "required").isNone then none
    else some ("input should be an object, got " ++ jsonTypeName input)
  | _ => none

variable (keywords : List (String × Json))

/-- The error of the `enum` keyword. -/
def enumError (value : Json) (path : String) : List String :=
  match field keywords "enum" with
  | some (.array allowed) =>
    if allowed.any fun option => option.eq value then []
    else [describe path ++ " should be one of " ++ ", ".intercalate (allowed.map print)]
  | _ => []

/-- The errors of the `required` keyword. -/
def requiredErrors (value : Json) (path : String) : List String :=
  match field keywords "required", value with
  | some (.array required), .object fields =>
    ((required.filterMap Json.asStr).filter fun name => (field fields name).isNone).map
      fun name => describe (joinPath path name) ++ " is required"
  | _, _ => []

/-- The errors of names that are no properties. -/
def unknownErrors (fields : List (String × Json)) (path : String) : List String :=
  match field keywords "additionalProperties", field keywords "properties" with
  | some (.bool false), some (.object properties) =>
    ((fields.map Prod.fst).filter fun name => (field properties name).isNone).map
      fun name => describe (joinPath path name) ++ " is not a property of this tool"
  | _, _ => []

mutual

/-- `check`: the errors it adds. -/
def check : Json → Json → String → List String
  | .object keywords, value, path =>
    if (field keywords "type").any fun declared => !typeMatches declared value then
      (field keywords "type").toList.map fun declared =>
        describe path ++ " should be " ++ describeType print declared ++ ", got " ++
          jsonTypeName value
    else
      enumError print keywords value path ++ requiredErrors keywords value path ++
        match value with
        | .object fields =>
          unknownErrors keywords fields path ++ checkProperties keywords fields path
        | _ => []
  | _, _, _ => []
termination_by structural schema => schema

/-- The end of `check`: the keywords are searched for the properties. -/
def checkProperties : List (String × Json) → List (String × Json) → String → List String
  | [], _, _ => []
  | (name, keyword) :: keywords, fields, path =>
    if name = "properties" then checkKeyword keyword fields path
    else checkProperties keywords fields path
termination_by structural keywords => keywords

def checkKeyword : Json → List (String × Json) → String → List String
  | .object properties, fields, path => checkEach properties fields path
  | _, _, _ => []
termination_by structural keyword => keyword

/-- The loop over the properties. -/
def checkEach : List (String × Json) → List (String × Json) → String → List String
  | [], _, _ => []
  | (name, schema) :: properties, fields, path =>
    (match field fields name with
    | some present => check schema present (joinPath path name)
    | none => []) ++ checkEach properties fields path
termination_by structural properties => properties

end

def validateToolInput (schema input : Json) : Except String Unit :=
  match rootShapeError schema input with
  | some error => .error error
  | none =>
    let errors := check print schema input ""
    if errors.isEmpty then .ok () else .error ("; ".intercalate errors)

end Check

/-! ## Validity -/

/-- The value is of a type.  A name that JSON Schema does not have says nothing. -/
inductive IsOf : String → Json → Prop
  | object (fields : List (String × Json)) : IsOf "object" (.object fields)
  | array (items : List Json) : IsOf "array" (.array items)
  | string (text : String) : IsOf "string" (.string text)
  | boolean (value : Bool) : IsOf "boolean" (.bool value)
  | integer (number : Number) (whole : number.IsWhole) : IsOf "integer" (.number number)
  | number (number : Number) : IsOf "number" (.number number)
  | null : IsOf "null" .null
  | other {name : String} (value : Json)
      (unknown : name ∉ ["object", "array", "string", "boolean", "integer", "number", "null"]) :
      IsOf name value

/-- The value is of the declared type, or of one of them. -/
inductive HasType : Json → Json → Prop
  | one {name : String} {value : Json} (isOf : IsOf name value) : HasType (.string name) value
  | several {names : List Json} {name : String} {value : Json} (listed : .string name ∈ names)
      (isOf : IsOf name value) : HasType (.array names) value

/-- The value is valid for a schema under JSON Schema, as far as the six keywords go. -/
inductive Valid (Matches : String → String → Prop) : Json → Json → Prop
  | anything (value : Json) : Valid Matches (.bool true) value
  | keywords {keywords : List (String × Json)} {value : Json}
      (types : ∀ declared, field keywords "type" = some declared → HasType declared value)
      (enum : ∀ allowed, field keywords "enum" = some (.array allowed) →
        ∃ option ∈ allowed, option.Same value)
      (required : ∀ names fields, field keywords "required" = some (.array names) →
        value = .object fields → ∀ name, .string name ∈ names → (field fields name).isSome)
      (properties : ∀ properties fields, field keywords "properties" = some (.object properties) →
        value = .object fields → ∀ name schema present, (name, schema) ∈ properties →
          field fields name = some present → Valid Matches schema present)
      (patternProperties : ∀ patterns fields,
        field keywords "patternProperties" = some (.object patterns) → value = .object fields →
          ∀ pattern schema name present, (pattern, schema) ∈ patterns → Matches pattern name →
            field fields name = some present → Valid Matches schema present)
      (additionalProperties : ∀ schema fields,
        field keywords "additionalProperties" = some schema → value = .object fields →
          ∀ name present, field fields name = some present →
            (∀ properties, field keywords "properties" = some (.object properties) →
              field properties name = none) →
            (∀ patterns, field keywords "patternProperties" = some (.object patterns) →
              ∀ pattern ∈ patterns, ¬ Matches pattern.1 name) →
            Valid Matches schema present) :
      Valid Matches (.object keywords) value

/-- Each enumerated value is written as it is in the schema, and no name of a closed object is
there by a pattern alone. -/
inductive Plain : Json → Json → Prop
  | other {schema : Json} (value : Json) (noKeywords : schema.asObject = none) : Plain schema value
  | keywords {keywords : List (String × Json)} {value : Json}
      (enum : ∀ allowed, field keywords "enum" = some (.array allowed) →
        allowed.any fun option => option.eq value)
      (closed : ∀ properties fields,
        field keywords "additionalProperties" = some (.bool false) →
          field keywords "properties" = some (.object properties) → value = .object fields →
            ∀ name ∈ fields.map Prod.fst, (field properties name).isSome)
      (properties : ∀ properties fields, field keywords "properties" = some (.object properties) →
        value = .object fields → ∀ name schema present, (name, schema) ∈ properties →
          field fields name = some present → Plain schema present) :
      Plain (.object keywords) value

theorem matchesTypeName_of_isOf {name : String} {value : Json} (isOf : IsOf name value) :
    matchesTypeName name value := by
  cases isOf with
  | object fields | array items | string text | boolean value => rfl
  | integer number whole =>
    obtain ⟨whole, isWhole⟩ := whole
    cases number with
    | posInt value => simp [matchesTypeName, Number.asF64]
    | negInt value negative => rfl
    | float value =>
      have same : value.value = whole := isWhole
      simp [matchesTypeName, Number.asF64, same]
  | number number | null => rfl
  | other value unknown =>
    simp only [mem_cons, not_mem_nil, or_false, not_or] at unknown
    obtain ⟨object, array, string, boolean, integer, number, null⟩ := unknown
    rw [matchesTypeName]
    all_goals assumption

theorem typeMatches_of_hasType {declared value : Json} (hasType : HasType declared value) :
    typeMatches declared value := by
  cases hasType with
  | one isOf => exact matchesTypeName_of_isOf isOf
  | several listed isOf =>
    rw [typeMatches, any_eq_true]
    exact ⟨_, mem_filterMap.mpr ⟨_, listed, rfl⟩, matchesTypeName_of_isOf isOf⟩

/-! ## What the check does -/

section Errors

variable {print : Json → String} {keywords properties fields : List (String × Json)}
  {value : Json} {path : String}

theorem enumError_eq_nil_iff : enumError print keywords value path = [] ↔
    ∀ allowed, field keywords "enum" = some (.array allowed) →
      allowed.any fun option => option.eq value := by
  rw [enumError]
  split
  · rename_i allowed found
    constructor
    · intro none others same
      cases found.symm.trans same
      by_contra missing
      rw [if_neg missing] at none
      cases none
    · intro listed
      rw [if_pos (listed allowed found)]
  · rename_i other
    exact iff_of_true rfl fun allowed found => absurd found (other allowed)

theorem requiredErrors_eq_nil (required : ∀ names fields,
    field keywords "required" = some (.array names) → value = .object fields →
      ∀ name, .string name ∈ names → (field fields name).isSome) :
    requiredErrors keywords value path = [] := by
  unfold requiredErrors
  split
  · rename_i names fields found
    rw [map_eq_nil_iff, filter_eq_nil_iff]
    intro name listed
    obtain ⟨item, mem, isName⟩ := mem_filterMap.mp listed
    cases item with
    | string text =>
      cases isName
      have present := required names fields found rfl name mem
      rw [Option.isNone_iff_eq_none, ← Option.not_isSome_iff_eq_none]
      exact not_not.mpr present
    | _ => cases isName
  · rfl

theorem unknownErrors_eq_nil_iff : unknownErrors keywords fields path = [] ↔
    ∀ properties, field keywords "additionalProperties" = some (.bool false) →
      field keywords "properties" = some (.object properties) →
        ∀ name ∈ fields.map Prod.fst, (field properties name).isSome := by
  rw [unknownErrors]
  split
  · rename_i properties closed found
    rw [map_eq_nil_iff, filter_eq_nil_iff]
    simp only [Option.isNone_iff_eq_none, ← Option.not_isSome_iff_eq_none, not_not]
    constructor
    · intro known others _ same
      cases found.symm.trans same
      exact known
    · exact fun known => known properties closed found
  · rename_i other
    exact iff_of_true rfl fun properties closed found => absurd found (other properties closed)

theorem checkProperties_eq : checkProperties print keywords fields path =
    ((field keywords "properties").map fun keyword =>
      checkKeyword print keyword fields path).getD [] := by
  induction keywords with
  | nil => rfl
  | cons keyword keywords ih =>
    rw [checkProperties, field, find?_cons]
    by_cases named : keyword.1 = "properties"
    · simp [named]
    · simp only [named, decide_false, if_false, ih]
      rfl

theorem checkEach_eq_nil_iff : checkEach print properties fields path = [] ↔
    ∀ name schema present, (name, schema) ∈ properties → field fields name = some present →
      check print schema present (joinPath path name) = [] := by
  induction properties with
  | nil => exact iff_of_true rfl fun _ _ _ mem => absurd mem not_mem_nil
  | cons property properties ih =>
    obtain ⟨name, schema⟩ := property
    rw [checkEach, append_eq_nil_iff, ih]
    constructor
    · rintro ⟨first, rest⟩ other otherSchema present mem found
      rcases mem_cons.mp mem with same | later
      · cases same
        rw [found] at first
        exact first
      · exact rest other otherSchema present later found
    · intro all
      refine ⟨?_, fun other otherSchema present mem => all other otherSchema present
        (mem_cons_of_mem _ mem)⟩
      split
      · rename_i present found
        exact all name schema present mem_cons_self found
      · rfl

theorem checkProperties_eq_nil_iff : checkProperties print keywords fields path = [] ↔
    ∀ properties, field keywords "properties" = some (.object properties) →
      ∀ name schema present, (name, schema) ∈ properties → field fields name = some present →
        check print schema present (joinPath path name) = [] := by
  rw [checkProperties_eq]
  cases found : field keywords "properties" with
  | none => exact iff_of_true rfl nofun
  | some keyword =>
    cases keyword with
    | object properties =>
      rw [Option.map_some, Option.getD_some, checkKeyword, checkEach_eq_nil_iff]
      constructor
      · intro all others same
        cases same
        exact all
      · exact fun all => all properties rfl
    | _ => exact iff_of_true rfl nofun

/-- What is of the right type is checked further. -/
theorem check_keywords_eq_nil_iff (typed : ∀ declared, field keywords "type" = some declared →
    typeMatches declared value) :
    check print (.object keywords) value path = [] ↔
      enumError print keywords value path = [] ∧ requiredErrors keywords value path = [] ∧
        ∀ fields, value = .object fields → unknownErrors keywords fields path = [] ∧
          checkProperties print keywords fields path = [] := by
  have fits : ¬ ((field keywords "type").any fun declared => !typeMatches declared value) := by
    rw [Option.any_eq_true]
    rintro ⟨declared, found, wrong⟩
    rw [typed declared found] at wrong
    cases wrong
  unfold check
  rw [if_neg fits, append_eq_nil_iff, append_eq_nil_iff, and_assoc]
  refine and_congr_right fun _ => and_congr_right fun _ => ?_
  cases value with
  | object fields =>
    rw [append_eq_nil_iff]
    constructor
    · intro none others same
      cases same
      exact none
    · exact fun none => none fields rfl
  | _ => exact iff_of_true rfl nofun

end Errors

/-- A valid value passes the check exactly if nothing of it turns on what the check does
not know. -/
theorem check_eq_nil_iff {Matches : String → String → Prop} (print : Json → String)
    {schema value : Json} (valid : Valid Matches schema value) (path : String) :
    check print schema value path = [] ↔ Plain schema value := by
  induction valid generalizing path with
  | anything value => exact iff_of_true rfl (.other value rfl)
  | @keywords keywords value types enum required properties _ _ ih _ _ =>
    have typed (declared : Json) (found : field keywords "type" = some declared) :
        typeMatches declared value := typeMatches_of_hasType (types declared found)
    rw [check_keywords_eq_nil_iff typed, enumError_eq_nil_iff]
    constructor
    · rintro ⟨listed, _, checked⟩
      refine .keywords listed ?_ ?_
      · intro properties fields closed found isObject
        exact unknownErrors_eq_nil_iff.mp (checked fields isObject).1 properties closed found
      · intro properties fields found isObject name schema present mem inFields
        have passed := checkProperties_eq_nil_iff.mp (checked fields isObject).2
        exact (ih properties fields found isObject name schema present mem inFields _).mp
          (passed properties found name schema present mem inFields)
    · intro plain
      cases plain with
      | other _ noKeywords => cases noKeywords
      | keywords listed known plain =>
        refine ⟨listed, requiredErrors_eq_nil required, fun fields isObject => ⟨?_, ?_⟩⟩
        · exact unknownErrors_eq_nil_iff.mpr fun properties closed found =>
            known properties fields closed found isObject
        · refine checkProperties_eq_nil_iff.mpr ?_
          intro properties found name schema present mem inFields
          exact (ih properties fields found isObject name schema present mem inFields _).mpr
            (plain properties fields found isObject name schema present mem inFields)

/-- A valid object is accepted exactly if each enumerated value in it is written as in
the schema and no name of a closed object is there by a pattern alone. -/
theorem validateToolInput_ok_iff (Matches : String → String → Prop) (print : Json → String)
    (schema : Json) (fields : List (String × Json))
    (valid : Valid Matches schema (.object fields)) :
    validateToolInput print schema (.object fields) = .ok () ↔ Plain schema (.object fields) := by
  have shaped : rootShapeError schema (.object fields) = none := by
    unfold rootShapeError
    split
    · rw [Bool.or_true, if_pos rfl]
    · rfl
  rw [validateToolInput, shaped, ← check_eq_nil_iff print valid ""]
  dsimp only
  split
  · rename_i empty
    exact iff_of_true rfl (isEmpty_iff.mp empty)
  · rename_i nonempty
    exact iff_of_false nofun fun none => nonempty (isEmpty_iff.mpr none)

/-- A tool that needs one of two paths and takes nothing else. -/
def pathSchema : Json :=
  .object [("additionalProperties", .bool false),
    ("properties", .object [("path", .object [("enum", .array [.string "a.rs", .string "b.rs"]),
      ("type", .string "string")])]),
    ("required", .array [.string "path"]), ("type", .string "object")]

def pathInput : List (String × Json) :=
  [("path", .string "b.rs")]

theorem pathInput_accepted :
    Valid (fun _ _ => False) pathSchema (.object pathInput) ∧
      validateToolInput (fun _ => "") pathSchema (.object pathInput) = .ok () := by
  have valid : Valid (fun _ _ => False) pathSchema (.object pathInput) := by
    refine .keywords ?_ nofun ?_ ?_ nofun ?_
    · rintro declared ⟨⟩
      exact .one (.object _)
    · rintro names fields ⟨⟩ ⟨⟩ name mem
      cases mem_singleton.mp mem
      rfl
    · rintro properties fields ⟨⟩ ⟨⟩ name schema present mem found
      cases mem_singleton.mp mem
      cases found
      refine .keywords ?_ ?_ nofun nofun nofun nofun
      · rintro declared ⟨⟩
        exact .one (.string _)
      · rintro allowed ⟨⟩
        exact ⟨_, mem_cons_of_mem _ mem_cons_self, .string _⟩
    · rintro schema fields ⟨⟩ ⟨⟩ name present found unlisted
      have named : name = "path" := by
        by_contra other
        simp [field, pathInput, Ne.symm other] at found
      subst named
      cases unlisted _ rfl
  refine ⟨valid, (validateToolInput_ok_iff _ _ _ _ valid).mpr (.keywords nofun ?_ ?_)⟩
  · rintro properties fields ⟨⟩ ⟨⟩ ⟨⟩ name mem
    cases mem_singleton.mp mem
    rfl
  · rintro properties fields ⟨⟩ ⟨⟩ name schema present mem found
    cases mem_singleton.mp mem
    cases found
    refine .keywords ?_ nofun nofun
    rintro allowed ⟨⟩
    rfl

/-- A closed object with names of its own and names by a pattern. -/
def patternedSchema : Json :=
  .object [("additionalProperties", .bool false),
    ("patternProperties", .object [("^x-", .object [])]),
    ("properties", .object [("path", .object [])])]

def patternedInput : List (String × Json) :=
  [("x-note", .string "hello")]

/-- The level can only be one. -/
def levelSchema : Json :=
  .object [("properties", .object [("level", .object [("enum", .array [.number (.posInt 1)])])])]

/-- A level of one, written as a double. -/
def levelInput : List (String × Json) :=
  [("level", .number (.float ⟨1, 0, by decide, by decide⟩))]

/-- Both inputs are valid, and both are refused. -/
theorem valid_input_refused :
    (Valid (fun pattern name => pattern = "^x-" ∧ name = "x-note") patternedSchema
        (.object patternedInput) ∧
      validateToolInput (fun _ => "") patternedSchema (.object patternedInput) ≠ .ok ()) ∧
    (Valid (fun _ _ => False) levelSchema (.object levelInput) ∧
      validateToolInput (fun _ => "") levelSchema (.object levelInput) ≠ .ok ()) := by
  refine ⟨⟨.keywords nofun nofun nofun ?_ ?_ ?_, nofun⟩, .keywords nofun nofun nofun ?_ nofun nofun,
    nofun⟩
  · rintro properties fields ⟨⟩ ⟨⟩ name schema present mem found
    cases mem_singleton.mp mem
    cases found
  · rintro patterns fields ⟨⟩ ⟨⟩ pattern schema name present mem _ found
    cases mem_singleton.mp mem
    exact .keywords nofun nofun nofun nofun nofun nofun
  · rintro schema fields ⟨⟩ ⟨⟩ name present found _ unmatched
    have named : name = "x-note" := by
      by_contra other
      simp [field, patternedInput, Ne.symm other] at found
    exact absurd ⟨rfl, named⟩ (unmatched _ rfl _ mem_cons_self)
  · rintro properties fields ⟨⟩ ⟨⟩ name schema present mem found
    cases mem_singleton.mp mem
    cases found
    refine .keywords nofun ?_ nofun nofun nofun nofun
    rintro allowed ⟨⟩
    refine ⟨_, mem_singleton_self _, .number ?_⟩
    simp [Number.value, Float64.value]

end Mentra.Schema
