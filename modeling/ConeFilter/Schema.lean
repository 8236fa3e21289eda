/-!
Schemas: named models with named fields. A field holds a scalar or relates its
model to a target model. A registry is a set of models without repeated names
and without relations that lead nowhere, listed by name; a catalog is all that
resolution asks of one.
-/
namespace ConeFilter

inductive FieldKind where
  | bool
  | int
  | float
  | text
  | date
  | timestamp
  | relation (target : String)
deriving DecidableEq, Inhabited

structure Field where
  name : String
  kind : FieldKind
deriving DecidableEq, Inhabited

structure Model where
  name : String
  fields : List Field
deriving DecidableEq, Inhabited

namespace Field

def target? (field : Field) : Option String :=
  match field.kind with
  | .relation target => some target
  | _ => none

end Field

namespace Model

def field? (model : Model) (name : String) : Option Field :=
  model.fields.find? fun field => field.name == name

end Model

/-! Faults of a list of models. -/

inductive SchemaError where
  | duplicateModel (model : String)
  | duplicateField (model field : String)
  | unknownTarget (model field target : String)
deriving DecidableEq

namespace SchemaError

def message : SchemaError → String
  | .duplicateModel model => "duplicate model '" ++ model ++ "'"
  | .duplicateField model field => "model '" ++ model ++ "' repeats field '" ++ field ++ "'"
  | .unknownTarget model field target =>
      "relation '" ++ model ++ "." ++ field ++ "' targets unknown model '" ++ target ++ "'"

end SchemaError

structure Registry where
  models : List Model
deriving DecidableEq, Inhabited

namespace Registry

def model? (registry : Registry) (name : String) : Option Model :=
  registry.models.find? fun model => model.name == name

/-- The first name that stands earlier in the list too. -/
def firstRepeat (seen : List String) : List String → Option String
  | [] => none
  | name :: rest => if name ∈ seen then some name else firstRepeat (name :: seen) rest

def insertModel (model : Model) : List Model → List Model
  | [] => [model]
  | other :: rest =>
      if model.name < other.name then model :: other :: rest
      else other :: insertModel model rest

/-- Models are taken in the order given. Within one, a repeated field is noticed before the
name of the model itself. -/
def collect (taken : List Model) : List Model → Except SchemaError (List Model)
  | [] => .ok taken
  | model :: rest =>
      match firstRepeat [] (model.fields.map Field.name) with
      | some field => .error (.duplicateField model.name field)
      | none =>
          if taken.any fun other => other.name == model.name then
            .error (.duplicateModel model.name)
          else collect (insertModel model taken) rest

/-- Relations are checked once all names are known, so they may point forward. -/
def danglingField (names : List String) (model : Model) : Option SchemaError :=
  model.fields.findSome? fun field =>
    match field.target? with
    | some target =>
        if target ∈ names then none else some (.unknownTarget model.name field.name target)
    | none => none

def ofModels (models : List Model) : Except SchemaError Registry :=
  match collect [] models with
  | .error fault => .error fault
  | .ok sorted =>
      match sorted.findSome? (danglingField (sorted.map Model.name)) with
      | some fault => .error fault
      | none => .ok { models := sorted }

def fieldExists (registry : Registry) (model field : String) : Bool :=
  ((registry.model? model).bind fun found => found.field? field).isSome

def relatedModel (registry : Registry) (model field : String) : Option String :=
  ((registry.model? model).bind fun found => found.field? field).bind Field.target?

end Registry

/-! The view of a schema that resolution needs. -/

structure Catalog where
  fieldExists : String → String → Bool
  relatedModel : String → String → Option String

def Registry.catalog (registry : Registry) : Catalog :=
  { fieldExists := registry.fieldExists
    relatedModel := registry.relatedModel }

end ConeFilter
