import ConeFilter.Proofs.CanonicalResults
import ConeFilter.Proofs.FilterOutcomes
import ConeFilter.Proofs.WordRange

/-!
Writing as JSON and reading back. A predicate comes back as it was exactly when
every double in it is finite, and so do the cones beside it. Any other double is
written as a null, which no reader takes for a number, so nothing else comes back
in its place. What a pass returns has finite doubles only, so every filter
survives.
-/
namespace ConeFilter

/-! The doubles in what is written, in the order in which they stand. -/

def AllFinite (doubles : List Float) : Prop := ∀ number ∈ doubles, number.isFinite = true

instance : DecidablePred AllFinite := fun doubles =>
  inferInstanceAs (Decidable (∀ number ∈ doubles, number.isFinite = true))

theorem allFinite_append (before after : List Float) :
    AllFinite (before ++ after) ↔ AllFinite before ∧ AllFinite after := List.forall_mem_append

def Value.doubles : Value → List Float
  | .float number => [number]
  | .text _ | .int _ | .bool _ => []

def Operand.doubles (operand : Operand) : List Float := operand.values.flatMap Value.doubles

def Predicate.doubles (predicate : Predicate) : List Float := predicate.values.flatMap Value.doubles

def Cone.doubles (cone : Cone) : List Float := [cone.ra, cone.dec, cone.radius]

def Extra.doubles (extra : Extra) : List Float := extra.cones.flatMap Cone.doubles

/-! Reading back. Each part is read if its doubles are finite, and a whole is read if
all of its parts are. -/

section IfFinite
variable {α β : Type} {before after : List Float}

def ifFinite (doubles : List Float) (result : α) : Option α :=
  if AllFinite doubles then some result else none

theorem ifFinite_nil (result : α) : ifFinite [] result = some result := by
  simp [ifFinite, AllFinite]

theorem ifFinite_map (f : α → β) (result : α) :
    (ifFinite before result).map f = ifFinite before (f result) := by
  unfold ifFinite
  split <;> rfl

theorem ifFinite_last (f : α → β) (result : α) :
    ((ifFinite before result).bind fun last => some (f last)) = ifFinite before (f result) := by
  rw [← ifFinite_map f result, Option.map_eq_bind]
  rfl

/-- Reading goes on with what has been read. -/
theorem ifFinite_bind (f : α → Option β) {result : α} {whole : β}
    (follows : f result = ifFinite after whole) :
    (ifFinite before result).bind f = ifFinite (before ++ after) whole := by
  by_cases finite : AllFinite before
  · simp [ifFinite, finite, follows, allFinite_append]
  · simp [ifFinite, finite, allFinite_append]

theorem mapM_ifFinite (write : α → Json) (read : Json → Option α) (doubles : α → List Float)
    (each : ∀ item, read (write item) = ifFinite (doubles item) item) (items : List α) :
    (items.map write).mapM read = ifFinite (items.flatMap doubles) items := by
  induction items with
  | nil => exact (ifFinite_nil []).symm
  | cons item rest ih =>
      rw [List.map_cons, List.mapM_cons, each, ih, List.flatMap_cons]
      exact ifFinite_bind _ (ifFinite_last (List.cons item) rest)

end IfFinite

theorem Json.toFloat_ofFloat (number : Float) :
    (Json.ofFloat number).toFloat? = ifFinite [number] number := by
  by_cases finite : number.isFinite <;> simp [ofFloat, ifFinite, AllFinite, finite, toFloat?]

/-- Words and doubles have tags of their own, so neither is read as the other. -/
theorem Value.ofJson_toJson (value : Value) :
    Value.ofJson (value.toJson Json.ofFloat) = ifFinite value.doubles value := by
  cases value with
  | text content => exact (ifFinite_nil _).symm
  | int word =>
      change (Numeral.exactWord word.toInt).map Value.int = _
      rw [Numeral.exactWord_toInt]
      exact (ifFinite_nil _).symm
  | float number =>
      change (Json.ofFloat number).toFloat?.map Value.float = _
      rw [Json.toFloat_ofFloat]
      exact ifFinite_map Value.float number
  | bool truth => exact (ifFinite_nil _).symm

theorem ArithOp.ofJson_name (op : ArithOp) : ArithOp.ofJson (.string op.name) = some op := by
  cases op <;> rfl

theorem CompareOp.ofJson_name (op : CompareOp) : CompareOp.ofJson (.string op.name) = some op := by
  cases op <;> rfl

theorem Operand.doubles_binary (op : ArithOp) (left right : Operand) :
    (binary op left right).doubles = left.doubles ++ right.doubles := List.flatMap_append

theorem Operand.ofJson_toJson (operand : Operand) :
    Operand.ofJson (operand.toJson Json.ofFloat) = ifFinite operand.doubles operand := by
  induction operand with
  | literal value =>
      change (Value.ofJson (value.toJson Json.ofFloat)).map literal = _
      rw [Value.ofJson_toJson, ifFinite_map, doubles, values, List.flatMap_singleton]
  | field name => exact (ifFinite_nil _).symm
  | binary op left right leftRead rightRead =>
      have read : Operand.ofJson ((binary op left right).toJson Json.ofFloat) =
          (ArithOp.ofJson (.string op.name)).bind fun op =>
            (Operand.ofJson (left.toJson Json.ofFloat)).bind fun left =>
              (Operand.ofJson (right.toJson Json.ofFloat)).bind fun right =>
                some (binary op left right) := by
        rw [toJson, Json.tagged, ofJson, Json.tagged, ofArithmeticJson]
        rfl
      rw [read, ArithOp.ofJson_name, leftRead, rightRead, doubles_binary]
      exact ifFinite_bind _ (ifFinite_last _ _)
  | negation operand ih =>
      rw [toJson, Json.tagged, ofJson, Json.tagged, ofArithmeticJson, ih]
      exact ifFinite_map negation operand

namespace Predicate

theorem doubles_compare (op : CompareOp) (left right : Operand) :
    (compare op left right).doubles = left.doubles ++ right.doubles := List.flatMap_append

theorem doubles_isNull (operand : Operand) (expected : Bool) :
    (isNull operand expected).doubles = operand.doubles := rfl

theorem doubles_and (left right : Predicate) :
    (and left right).doubles = left.doubles ++ right.doubles := List.flatMap_append

theorem doubles_or (left right : Predicate) :
    (or left right).doubles = left.doubles ++ right.doubles := List.flatMap_append

theorem doubles_member (operand : Operand) (listed : List Value) :
    (member operand listed).doubles = operand.doubles ++ listed.flatMap Value.doubles :=
  List.flatMap_append

theorem ofJson_toJson (predicate : Predicate) :
    Predicate.ofJson (predicate.toJson Json.ofFloat) = ifFinite predicate.doubles predicate := by
  induction predicate with
  | compare op left right =>
      have read : Predicate.ofJson ((compare op left right).toJson Json.ofFloat) =
          (CompareOp.ofJson (.string op.name)).bind fun op =>
            (Operand.ofJson (left.toJson Json.ofFloat)).bind fun left =>
              (Operand.ofJson (right.toJson Json.ofFloat)).bind fun right =>
                some (compare op left right) := rfl
      rw [read, CompareOp.ofJson_name, left.ofJson_toJson, right.ofJson_toJson, doubles_compare]
      exact ifFinite_bind _ (ifFinite_last _ _)
  | isNull operand expected =>
      have read : Predicate.ofJson ((isNull operand expected).toJson Json.ofFloat) =
          (Operand.ofJson (operand.toJson Json.ofFloat)).bind fun operand =>
            some (isNull operand expected) := rfl
      rw [read, operand.ofJson_toJson]
      exact ifFinite_last _ _
  | and left right leftRead rightRead =>
      rw [toJson, Json.tagged, ofJson, leftRead, rightRead, doubles_and]
      exact ifFinite_bind _ (ifFinite_last _ _)
  | or left right leftRead rightRead =>
      rw [toJson, Json.tagged, ofJson, leftRead, rightRead, doubles_or]
      exact ifFinite_bind _ (ifFinite_last _ _)
  | not inner ih =>
      rw [toJson, Json.tagged, ofJson, ih]
      exact ifFinite_map not inner
  | member operand listed =>
      have read : Predicate.ofJson ((member operand listed).toJson Json.ofFloat) =
          (Operand.ofJson (operand.toJson Json.ofFloat)).bind fun operand =>
            ((listed.map (Value.toJson Json.ofFloat)).mapM Value.ofJson).bind fun listed =>
              some (member operand listed) := rfl
      rw [read, operand.ofJson_toJson, mapM_ifFinite _ _ _ Value.ofJson_toJson, doubles_member]
      exact ifFinite_bind _ (ifFinite_last _ _)

end Predicate

theorem Cone.ofJson_toJson (cone : Cone) :
    Cone.ofJson (cone.toJson Json.ofFloat) = ifFinite cone.doubles cone := by
  have read : Cone.ofJson (cone.toJson Json.ofFloat) =
      (Json.ofFloat cone.ra).toFloat?.bind fun ra =>
        (Json.ofFloat cone.dec).toFloat?.bind fun dec =>
          (Json.ofFloat cone.radius).toFloat?.bind fun radius => some { ra, dec, radius } := rfl
  rw [read, Json.toFloat_ofFloat, Json.toFloat_ofFloat, Json.toFloat_ofFloat]
  exact ifFinite_bind _ (ifFinite_bind _ (ifFinite_last _ _))

/-- Lists are read back item by item. -/
theorem mapM_written {α β : Type} (write : α → β) (read : β → Option α)
    (each : ∀ item, read (write item) = some item) (items : List α) :
    (items.map write).mapM read = some items := by
  have identity : read ∘ write = some := funext each
  rw [List.mapM_map, identity]
  exact (List.mapM_pure (f := id)).trans (congrArg some (List.map_id _))

theorem Json.readTable_table (dictionary : Dictionary String) :
    (table Json.string dictionary).table? toString? = some dictionary := by
  have entries := mapM_written (fun entry : String × String => (entry.1, Json.string entry.2))
    (fun entry => (toString? entry.2).map fun value => (entry.1, value)) (fun _ => rfl)
    dictionary.entries
  rw [table, table?, entries, Option.map_some, Dictionary.ofList_entries]

theorem Extra.ofJson_toJson (extra : Extra) :
    Extra.ofJson (extra.toJson Json.ofFloat) = ifFinite extra.doubles extra := by
  have read : Extra.ofJson (extra.toJson Json.ofFloat) =
      ((extra.cones.map (Cone.toJson Json.ofFloat)).mapM Cone.ofJson).bind fun cones =>
        ((Json.table .string extra.aliases).table? Json.toString?).bind fun aliases =>
          some { cones, aliases } := rfl
  rw [read, mapM_ifFinite _ _ _ Cone.ofJson_toJson, Json.readTable_table]
  exact ifFinite_last _ _

theorem Filter.ofJson_toJson (filter : Filter) :
    Filter.ofJson (filter.toJson Json.ofFloat) =
      ifFinite (filter.predicate.doubles ++ filter.extra.doubles) filter := by
  have read : Filter.ofJson (filter.toJson Json.ofFloat) =
      (Predicate.ofJson (filter.predicate.toJson Json.ofFloat)).bind fun predicate =>
        (Extra.ofJson (filter.extra.toJson Json.ofFloat)).bind fun extra =>
          some { predicate, extra } := rfl
  rw [read, Predicate.ofJson_toJson, Extra.ofJson_toJson]
  exact ifFinite_bind _ (ifFinite_last _ _)

/-! Doubles that are not finite. Each leaves a null behind, and nothing else is null. -/

mutual

def Json.nulls : Json → Nat
  | .null => 1
  | .array elements => nullsInArray elements
  | .object members => nullsInObject members
  | .bool _ | .int _ | .float _ | .string _ => 0

def Json.nullsInArray : List Json → Nat
  | [] => 0
  | element :: rest => element.nulls + nullsInArray rest

def Json.nullsInObject : List (String × Json) → Nat
  | [] => 0
  | (_, element) :: rest => element.nulls + nullsInObject rest

end

/-- How many doubles JSON has no number for. -/
def lost (doubles : List Float) : Nat := doubles.countP fun number => !number.isFinite

theorem lost_append (before after : List Float) :
    lost (before ++ after) = lost before + lost after := List.countP_append

namespace Json

theorem nulls_ofFloat (number : Float) : (ofFloat number).nulls = lost [number] := by
  by_cases finite : number.isFinite <;> simp [ofFloat, lost, finite, nulls]

theorem nulls_tagged (name : String) (content : Json) :
    (tagged name content).nulls = content.nulls := rfl

variable {α : Type} (write : α → Json) (doubles : α → List Float)

theorem nulls_array (each : ∀ item, (write item).nulls = lost (doubles item))
    (items : List α) :
    (array (items.map write)).nulls = lost (items.flatMap doubles) := by
  induction items with
  | nil => rfl
  | cons item rest ih =>
      rw [List.flatMap_cons, lost_append, ← each, ← ih]
      rfl

theorem nulls_strings (entries : List (String × String)) :
    nullsInObject (entries.map fun entry => (entry.1, string entry.2)) = 0 := by
  induction entries with
  | nil => rfl
  | cons entry rest ih => exact (Nat.zero_add _).trans ih

end Json

theorem Value.nulls_toJson (value : Value) :
    (value.toJson Json.ofFloat).nulls = lost value.doubles := by
  cases value with
  | float number => exact Json.nulls_ofFloat number
  | text _ | int _ | bool _ => rfl

theorem Operand.nulls_toJson (operand : Operand) :
    (operand.toJson Json.ofFloat).nulls = lost operand.doubles := by
  induction operand with
  | literal value =>
      rw [doubles, values, List.flatMap_singleton]
      exact value.nulls_toJson
  | field name => rfl
  | binary op left right leftNulls rightNulls =>
      rw [doubles_binary, lost_append, ← leftNulls, ← rightNulls, toJson]
      simp only [Json.nulls_tagged, Json.nulls, Json.nullsInObject, Nat.add_zero, Nat.zero_add]
  | negation operand ih => exact ih

theorem Predicate.nulls_toJson (predicate : Predicate) :
    (predicate.toJson Json.ofFloat).nulls = lost predicate.doubles := by
  induction predicate with
  | compare op left right =>
      rw [doubles_compare, lost_append, ← left.nulls_toJson, ← right.nulls_toJson, toJson]
      simp only [Json.nulls_tagged, Json.nulls, Json.nullsInObject, Nat.add_zero, Nat.zero_add]
  | isNull operand expected =>
      rw [doubles_isNull, ← operand.nulls_toJson, toJson]
      simp only [Json.nulls_tagged, Json.nulls, Json.nullsInObject, Nat.add_zero, Nat.zero_add]
  | and left right leftNulls rightNulls =>
      rw [doubles_and, lost_append, ← leftNulls, ← rightNulls]
      rfl
  | or left right leftNulls rightNulls =>
      rw [doubles_or, lost_append, ← leftNulls, ← rightNulls]
      rfl
  | not inner ih => exact ih
  | member operand listed =>
      rw [doubles_member, lost_append, ← operand.nulls_toJson,
        ← Json.nulls_array _ _ Value.nulls_toJson]
      rfl

theorem Cone.nulls_toJson (cone : Cone) :
    (cone.toJson Json.ofFloat).nulls = lost cone.doubles := by
  have parts : lost cone.doubles = lost [cone.ra] + (lost [cone.dec] + lost [cone.radius]) := by
    rw [← lost_append, ← lost_append]
    rfl
  rw [parts, ← Json.nulls_ofFloat, ← Json.nulls_ofFloat, ← Json.nulls_ofFloat, toJson]
  simp only [Json.nulls, Json.nullsInObject]
  omega

theorem Extra.nulls_toJson (extra : Extra) :
    (extra.toJson Json.ofFloat).nulls = lost extra.doubles := by
  have aliases : (Json.table .string extra.aliases).nulls = 0 :=
    Json.nulls_strings extra.aliases.entries
  have cones := Json.nulls_array _ _ Cone.nulls_toJson extra.cones
  rw [doubles, ← cones, toJson]
  simp only [Json.nulls, Json.nullsInObject, aliases, Nat.zero_add, Nat.add_zero]

/-! Whole filters. -/

/-- What is written is read as it was if all of its doubles are finite; if not, it has as many
nulls as it had other doubles, and nothing is read from it. -/
structure RoundTrip {α : Type} (item : α) (doubles : List Float) (written : Json)
    (read : Option α) : Prop where
  back : read = some item ↔ AllFinite doubles
  nothing_else : ¬ AllFinite doubles → read = none
  nulls : written.nulls = doubles.countP fun number => !number.isFinite

theorem RoundTrip.of_ifFinite {α : Type} {item : α} {doubles : List Float} {written : Json}
    {read : Option α} (same : read = ifFinite doubles item) (nulls : written.nulls = lost doubles) :
    RoundTrip item doubles written read := by
  refine ⟨?_, fun infinite => ?_, nulls⟩
  · simp [same, ifFinite]
  · rw [same, ifFinite, if_neg infinite]

theorem Value.allFinite_doubles (value : Value) (finite : value.Finite) :
    AllFinite value.doubles := by
  cases value with
  | float number => exact List.forall_mem_singleton.mpr finite
  | text _ | int _ | bool _ => exact fun _ absent => nomatch absent

theorem Resolution.Canonical.allFinite {predicate : Predicate} {extra : Extra}
    (canonical : Resolution.Canonical { value := .condition predicate, extra }) :
    AllFinite (predicate.doubles ++ extra.doubles) := by
  refine (allFinite_append _ _).mpr ⟨?_, ?_⟩
  · exact List.forall_mem_flatMap.mpr fun value written =>
      value.allFinite_doubles (canonical.finite_values value written)
  · refine List.forall_mem_flatMap.mpr fun cone recorded => ?_
    obtain ⟨ra, dec, radius⟩ := canonical.finite_cones cone recorded
    simp [Cone.doubles, ra, dec, radius]

/-- A predicate and cones survive their JSON form exactly when they are finite, and so every
filter that is read from a text does. -/
theorem json_round_trips :
    (∀ predicate : Predicate, RoundTrip predicate predicate.doubles
      (predicate.toJson Json.ofFloat) (Predicate.ofJson (predicate.toJson Json.ofFloat))) ∧
    (∀ extra : Extra, RoundTrip extra extra.doubles
      (extra.toJson Json.ofFloat) (Extra.ofJson (extra.toJson Json.ofFloat))) ∧
    ∀ (front : FrontEnd) (config : Config) (scope : Scope) (text : String) (filter : Filter),
      (front.parse config scope text).1 = .ok filter →
        Filter.ofJson (filter.toJson Json.ofFloat) = some filter := by
  refine ⟨fun predicate => ?_, fun extra => ?_, fun front config scope text filter parsed => ?_⟩
  · exact .of_ifFinite predicate.ofJson_toJson predicate.nulls_toJson
  · exact .of_ifFinite extra.ofJson_toJson extra.nulls_toJson
  · obtain ⟨node, resolved⟩ := front.parse_resolves config scope text filter parsed
    obtain ⟨_, events, asserted⟩ := (scope.resolve_condition_iff _ _ _).mp resolved
    rw [filter.ofJson_toJson, ifFinite, if_pos asserted.resolution.allFinite]

/-! Stars of some brightness inside a cone survive, and a comparison with infinity does not. -/

def boundless : Predicate := .compare .less (.field "mag") (.literal (.float (1.0 / 0.0)))

theorem bright_stars_survive :
    (∃ filter, (FrontEnd.sql.parse {} starScope "cone(1, 2, 0.5) AND mag < 4.5").1 = .ok filter ∧
      filter.predicate.render = "(cone_query = TRUE AND mag < 4.5)" ∧
      Filter.ofJson (filter.toJson Json.ofFloat) = some filter) ∧
    ¬ AllFinite boundless.doubles ∧
    Predicate.ofJson (boundless.toJson Json.ofFloat) = none ∧
    (boundless.toJson Json.ofFloat).nulls = 1 := by
  obtain ⟨predicates, -, filters⟩ := json_round_trips
  have infinite : ¬ AllFinite boundless.doubles := by decide +kernel
  have read : (FrontEnd.sql.parse {} starScope "cone(1, 2, 0.5) AND mag < 4.5").1.toOption.map
      (fun filter => filter.predicate.render) = some "(cone_query = TRUE AND mag < 4.5)" := by
    decide +kernel
  refine ⟨?_, infinite, (predicates boundless).nothing_else infinite, ?_⟩
  · cases parsed : (FrontEnd.sql.parse {} starScope "cone(1, 2, 0.5) AND mag < 4.5").1 with
    | error fault =>
        rw [parsed] at read
        cases read
    | ok filter =>
        rw [parsed] at read
        exact ⟨filter, rfl, Option.some.inj read, filters _ _ _ _ filter parsed⟩
  · rw [(predicates boundless).nulls]
    decide +kernel

end ConeFilter
