import ConeFilter.Proofs.ExpressionTrees
import ConeFilter.Proofs.ReturningPasses

/-!
What a pass can return, as two judgements without state. `Denotes` says which
operand a tree stands for and `Asserts` which predicate, given the number of
cones in front of the tree. An operand is built from operands alone, so no
condition and no cone call is ever below one. `returns_iff` ties both
judgements to the pass that runs: it returns a result exactly when there is a
derivation of it, and then adds the derived cones and events to its progress.
-/
namespace ConeFilter

/-! The judgements. An operand never depends on the cones before it, and a
negated literal has a rule of its own because its sign is read with its text.
There is no rule for a bare NULL, so nothing is compared with one. -/

inductive Denotes (scope : Scope) : Node → Operand → List Event → Prop where
  | literal {kind : LiteralKind} {raw : String} {value : Value}
      (typed : kind.read? raw = some value) :
      Denotes scope (.literal kind raw) (.literal value) []
  | column {path : List String} (walked : Scope.walk scope.catalog scope.model path = .ok ()) :
      Denotes scope (.column path) (.field (Scope.flatten path)) [.fieldResolved (path.length - 1)]
  | quoted {path : List String} {identifier : String} (last : path.getLast? = some identifier) :
      Denotes scope (.quoted path) (.literal (.text identifier)) []
  | negateLiteral {kind : LiteralKind} {raw : String} {value : Value}
      (typed : kind.readNegative? raw = some value) :
      Denotes scope (.negate (.literal kind raw)) (.literal value) []
  | negate {inner : Node} {operand negated : Operand} {events : List Event}
      (unread : ∀ kind raw, inner ≠ .literal kind raw)
      (denoted : Denotes scope inner operand events)
      (result : operand.negate = .ok negated) : Denotes scope (.negate inner) negated events
  | nested {inner : Node} {operand : Operand} {events : List Event}
      (denoted : Denotes scope inner operand events) : Denotes scope (.nested inner) operand events
  | arithmetic {op : ArithOp} {left right : Node} {first second combined : Operand}
      {events rest : List Event} (leftDenoted : Denotes scope left first events)
      (rightDenoted : Denotes scope right second rest)
      (result : Operand.combine op first second = .ok combined) :
      Denotes scope (.arithmetic op left right) combined (events ++ rest)

theorem Denotes.ne_null {scope : Scope} {node : Node} {operand : Operand} {events : List Event}
    (denoted : Denotes scope node operand events) : node ≠ .null := by
  rintro rfl
  cases denoted

/-- Every item of a list denotes a literal. -/
inductive Lists (scope : Scope) : List Node → List Value → List Event → Prop where
  | nil : Lists scope [] [] []
  | cons {item : Node} {items : List Node} {value : Value} {values : List Value}
      {events rest : List Event} (head : Denotes scope item (.literal value) events)
      (tail : Lists scope items values rest) :
      Lists scope (item :: items) (value :: values) (events ++ rest)

/-- A literal argument of a cone call, as the number that the cone records. -/
inductive Measures (scope : Scope) (argument : Node) (number : Float) (events : List Event) :
    Prop where
  | intro (value : Value) (denoted : Denotes scope argument (.literal value) events)
      (numeric : value.toFloat? = some number)

inductive Asserts (scope : Scope) : Nat → Node → Predicate → List Cone → List Event → Prop where
  | not {first : Nat} {condition : Node} {predicate : Predicate} {cones : List Cone}
      {events : List Event} (asserted : Asserts scope first condition predicate cones events) :
      Asserts scope first (.not condition) (.not predicate) cones events
  | nested {first : Nat} {inner : Node} {predicate : Predicate} {cones : List Cone}
      {events : List Event} (asserted : Asserts scope first inner predicate cones events) :
      Asserts scope first (.nested inner) predicate cones events
  | connect {first : Nat} {op : Connective} {left right : Node} {before after : Predicate}
      {cones later : List Cone} {events rest : List Event}
      (leftAsserted : Asserts scope first left before cones events)
      (rightAsserted : Asserts scope (first + cones.length) right after later rest) :
      Asserts scope first (.connect op left right) (op.join before after) (cones ++ later)
        (events ++ rest)
  | isNull {first : Nat} {op : Equality} {subject : Node} {operand : Operand}
      {events : List Event} (denoted : Denotes scope subject operand events) :
      Asserts scope first (.equality op subject .null) (.isNull operand op.positive) [] events
  | equality {first : Nat} {op : Equality} {left right : Node} {before after : Operand}
      {events rest : List Event} (leftDenoted : Denotes scope left before events)
      (rightDenoted : Denotes scope right after rest) :
      Asserts scope first (.equality op left right) (op.compare before after) [] (events ++ rest)
  | relate {first : Nat} {op : Relation} {left right : Node} {before after : Operand}
      {events rest : List Event} (leftDenoted : Denotes scope left before events)
      (rightDenoted : Denotes scope right after rest) :
      Asserts scope first (.relate op left right) (.compare op.compareOp before after) []
        (events ++ rest)
  | between {first : Nat} {subject low high : Node} {operand least greatest : Operand}
      {events lowEvents highEvents : List Event} (denoted : Denotes scope subject operand events)
      (lowDenoted : Denotes scope low least lowEvents)
      (highDenoted : Denotes scope high greatest highEvents) :
      Asserts scope first (.between subject low high)
        (.and (.compare .greaterEqual operand least) (.compare .lessEqual operand greatest)) []
        (events ++ lowEvents ++ highEvents)
  | member {first : Nat} {subject : Node} {items : List Node} {operand : Operand}
      {values : List Value} {events rest : List Event}
      (denoted : Denotes scope subject operand events) (listed : Lists scope items values rest) :
      Asserts scope first (.member subject items) (.member operand values) [] (events ++ rest)
  | cone {first : Nat} {name : String} {ra dec radius : Node} {cone : Cone}
      {raEvents decEvents radiusEvents : List Event} (named : isConeName name = true)
      (raMeasured : Measures scope ra cone.ra raEvents)
      (decMeasured : Measures scope dec cone.dec decEvents)
      (radiusMeasured : Measures scope radius cone.radius radiusEvents) :
      Asserts scope first (.call name [ra, dec, radius])
        (.compare .equal (.field (Cone.slotName first)) (.literal (.bool true))) [cone]
        (raEvents ++ decEvents ++ radiusEvents ++ [.coneRecorded first])

/-- The result of a tree and what resolving the tree adds to the progress before it. -/
def Yields (scope : Scope) (node : Node) (before : Progress) : Resolved → Progress → Prop
  | .operand operand, after =>
      ∃ events, Denotes scope node operand events ∧ after = before.extend [] events
  | .condition predicate, after => ∃ cones events,
      Asserts scope before.cones.length node predicate cones events ∧
        after = before.extend cones events

/-! The pass follows the rules. A step cannot be undone, so what the second child
returns is derived from the progress that the first one left. -/

namespace Node

theorem lists_of_returns (scope : Scope) (items : List Node)
    (sound : ∀ item ∈ items, ∀ before after result,
      (item.resolve scope).Returns before result after → Yields scope item before result after)
    (before after : Progress) (values : List Value)
    (returned : (resolveItems scope items).Returns before values after) :
    ∃ events, Lists scope items values events ∧ after = before.extend [] events := by
  induction items generalizing before values with
  | nil =>
      obtain ⟨rfl, rfl⟩ := (Pass.returns_pure _ _ _ _).mp returned
      exact ⟨[], .nil, after.extend_nothing.symm⟩
  | cons item rest ih =>
      simp only [resolveItems, returns_listed] at returned
      simp only [Pass.returns_bind, Pass.returns_pure] at returned
      obtain ⟨value, _, itemReturned, values, _, restReturned, rfl, rfl⟩ := returned
      obtain ⟨events, denoted, rfl⟩ := sound item List.mem_cons_self _ _ _ itemReturned
      obtain ⟨later, listed, rfl⟩ := ih (fun other member =>
        sound other (List.mem_cons_of_mem item member)) _ _ restReturned
      exact ⟨events ++ later, .cons denoted listed, before.extend_extend _ _ _ _⟩

/-- A string has no sign to be read, and its negation is refused. -/
theorem returns_negated_literal {scope : Scope} {kind : LiteralKind} {raw : String}
    {before after : Progress} {result : Resolved}
    (returned : ((negate (.literal kind raw)).resolve scope).Returns before result after) :
    ∃ value, kind.readNegative? raw = some value ∧ result = .operand (.literal value) ∧
      after = before := by
  unfold resolve at returned
  split at returned
  · rename_i string
    subst string
    simp only [Pass.returns_bind, Pass.returns_require, typeLiteral_ok,
      LiteralKind.read?] at returned
    obtain ⟨_, _, ⟨⟨rfl⟩, rfl⟩, negated, _⟩ := returned
    simp [Resolved.negate, Operand.negate, Value.isNumeric, Except.map] at negated
  · simp only [Pass.returns_bind, Pass.returns_require, Pass.returns_pure,
      typeNegative_ok] at returned
    obtain ⟨value, _, ⟨typed, rfl⟩, rfl, rfl⟩ := returned
    exact ⟨value, typed, rfl, rfl⟩

/-- No function but the cone search returns, and that one only with three arguments. -/
theorem cone_of_returns {scope : Scope} {name : String} {arguments : List Node}
    {before after : Progress} {result : Resolved}
    (returned : ((call name arguments).resolve scope).Returns before result after) :
    ∃ ra dec radius, isConeName name = true ∧ arguments = [ra, dec, radius] := by
  unfold resolve at returned
  split at returned
  · rename_i named
    split at returned
    · exact ⟨_, _, _, named, rfl⟩
    · exact absurd returned (Pass.returns_throw _ _ _ _)
  · exact absurd returned (Pass.returns_throw _ _ _ _)

theorem yields_of_returns (scope : Scope) (node : Node) (before after : Progress)
    (result : Resolved) (returned : (node.resolve scope).Returns before result after) :
    Yields scope node before result after := by
  induction node generalizing before result after with
  | literal kind raw =>
      simp only [resolve, Pass.returns_bind, Pass.returns_require, Pass.returns_pure,
        typeLiteral_ok] at returned
      obtain ⟨value, _, ⟨typed, rfl⟩, rfl, rfl⟩ := returned
      exact ⟨[], .literal typed, after.extend_nothing.symm⟩
  | column path =>
      simp only [resolve, Pass.returns_bind, Pass.returns_column, Pass.returns_pure] at returned
      obtain ⟨_, _, ⟨walked, rfl, rfl⟩, rfl, rfl⟩ := returned
      exact ⟨_, .column walked, rfl⟩
  | quoted path =>
      unfold resolve at returned
      split at returned
      · rename_i identifier last
        obtain ⟨rfl, rfl⟩ := (Pass.returns_pure _ _ _ _).mp returned
        exact ⟨[], .quoted last, after.extend_nothing.symm⟩
      · exact absurd returned (Pass.returns_throw _ _ _ _)
  | null => exact absurd returned (Pass.returns_throw _ _ _ _)
  | negate operand ih =>
      -- A literal below is not resolved on its own, so its hypothesis does not apply.
      by_cases read : ∃ kind raw, operand = .literal kind raw
      · obtain ⟨kind, raw, rfl⟩ := read
        obtain ⟨value, typed, rfl, rfl⟩ := returns_negated_literal returned
        exact ⟨[], .negateLiteral typed, after.extend_nothing.symm⟩
      · have unread : ∀ kind raw, operand ≠ .literal kind raw :=
          fun kind raw same => read ⟨kind, raw, same⟩
        rw [resolve_negate scope operand unread] at returned
        simp only [Pass.returns_bind, Pass.returns_require, Resolved.negate_ok] at returned
        obtain ⟨_, _, inner, ⟨_, _, rfl, negated, rfl⟩, rfl⟩ := returned
        obtain ⟨events, denoted, rfl⟩ := ih _ _ _ inner
        exact ⟨events, .negate unread denoted negated, rfl⟩
  | not condition ih =>
      simp only [resolve, returns_predicate, Pass.returns_pure] at returned
      obtain ⟨predicate, _, inner, rfl, rfl⟩ := returned
      obtain ⟨cones, events, asserted, extended⟩ := ih _ _ _ inner
      exact ⟨cones, events, .not asserted, extended⟩
  | nested inner ih =>
      have derived := ih before after result returned
      cases result with
      | operand operand =>
          obtain ⟨events, denoted, extended⟩ := derived
          exact ⟨events, .nested denoted, extended⟩
      | condition predicate =>
          obtain ⟨cones, events, asserted, extended⟩ := derived
          exact ⟨cones, events, .nested asserted, extended⟩
  | connect op left right leftSound rightSound =>
      simp only [resolve, returns_predicate, Pass.returns_pure] at returned
      obtain ⟨_, _, leftReturned, _, _, rightReturned, rfl, rfl⟩ := returned
      obtain ⟨cones, events, leftAsserted, rfl⟩ := leftSound _ _ _ leftReturned
      obtain ⟨later, rest, rightAsserted, rfl⟩ := rightSound _ _ _ rightReturned
      -- The right side is derived behind the cones of the left side too.
      rw [Progress.extend_cones, List.length_append] at rightAsserted
      exact ⟨_, _, .connect leftAsserted rightAsserted, before.extend_extend _ _ _ _⟩
  | equality op left right leftSound rightSound =>
      by_cases bare : right = .null
      · subst bare
        simp only [resolve, returns_operand, Pass.returns_pure] at returned
        obtain ⟨_, _, leftReturned, rfl, rfl⟩ := returned
        obtain ⟨events, denoted, extended⟩ := leftSound _ _ _ leftReturned
        exact ⟨[], events, .isNull denoted, extended⟩
      · rw [resolve_equality scope op left right bare] at returned
        simp only [returns_operand, Pass.returns_pure] at returned
        obtain ⟨_, _, leftReturned, _, _, rightReturned, rfl, rfl⟩ := returned
        obtain ⟨events, leftDenoted, rfl⟩ := leftSound _ _ _ leftReturned
        obtain ⟨rest, rightDenoted, rfl⟩ := rightSound _ _ _ rightReturned
        exact ⟨[], _, .equality leftDenoted rightDenoted, before.extend_extend _ _ _ _⟩
  | relate op left right leftSound rightSound =>
      simp only [resolve, returns_operand, Pass.returns_pure] at returned
      obtain ⟨_, _, leftReturned, _, _, rightReturned, rfl, rfl⟩ := returned
      obtain ⟨events, leftDenoted, rfl⟩ := leftSound _ _ _ leftReturned
      obtain ⟨rest, rightDenoted, rfl⟩ := rightSound _ _ _ rightReturned
      exact ⟨[], _, .relate leftDenoted rightDenoted, before.extend_extend _ _ _ _⟩
  | arithmetic op left right leftSound rightSound =>
      simp only [resolve, returns_operand] at returned
      simp only [Pass.returns_bind, Pass.returns_require, Pass.returns_pure] at returned
      obtain ⟨_, _, leftReturned, _, _, rightReturned, _, _, ⟨combined, rfl⟩, rfl, rfl⟩ := returned
      obtain ⟨events, leftDenoted, rfl⟩ := leftSound _ _ _ leftReturned
      obtain ⟨rest, rightDenoted, rfl⟩ := rightSound _ _ _ rightReturned
      exact ⟨_, .arithmetic leftDenoted rightDenoted combined, before.extend_extend _ _ _ _⟩
  | between subject low high subjectSound lowSound highSound =>
      simp only [resolve, returns_operand, Pass.returns_pure] at returned
      obtain ⟨_, _, subjectReturned, _, _, lowReturned, _, _, highReturned, rfl, rfl⟩ := returned
      obtain ⟨events, denoted, rfl⟩ := subjectSound _ _ _ subjectReturned
      obtain ⟨lowEvents, lowDenoted, rfl⟩ := lowSound _ _ _ lowReturned
      obtain ⟨highEvents, highDenoted, rfl⟩ := highSound _ _ _ highReturned
      exact ⟨[], _, .between denoted lowDenoted highDenoted, by simp [Progress.extend_extend]⟩
  | member subject items subjectSound itemsSound =>
      simp only [resolve, returns_operand] at returned
      simp only [Pass.returns_bind, Pass.returns_pure] at returned
      obtain ⟨_, _, subjectReturned, _, _, itemsReturned, rfl, rfl⟩ := returned
      obtain ⟨events, denoted, rfl⟩ := subjectSound _ _ _ subjectReturned
      obtain ⟨rest, listed, rfl⟩ := lists_of_returns scope items
        itemsSound _ _ _ itemsReturned
      exact ⟨[], _, .member denoted listed, before.extend_extend _ _ _ _⟩
  | call name arguments argumentsSound =>
      obtain ⟨ra, dec, radius, named, rfl⟩ := cone_of_returns returned
      simp only [resolve, named, if_true, returns_measured] at returned
      simp only [Pass.returns_bind, Pass.returns_recordCone, Pass.returns_pure] at returned
      obtain ⟨_, _, _, raReturned, raNumber, _, _, _, decReturned, decNumber, _, _, _,
        radiusReturned, radiusNumber, _, _, ⟨rfl, rfl⟩, rfl, rfl⟩ := returned
      obtain ⟨_, raDenoted, rfl⟩ := argumentsSound ra (by simp) _ _ _ raReturned
      obtain ⟨_, decDenoted, rfl⟩ := argumentsSound dec (by simp) _ _ _ decReturned
      obtain ⟨_, radiusDenoted, rfl⟩ := argumentsSound radius (by simp) _ _ _ radiusReturned
      simp only [Progress.extend_extend, Progress.extend_cones, List.append_nil, List.nil_append]
      exact ⟨[⟨_, _, _⟩], _, .cone named ⟨_, raDenoted, raNumber⟩ ⟨_, decDenoted, decNumber⟩
        ⟨_, radiusDenoted, radiusNumber⟩, rfl⟩
  | unsupported text => exact absurd returned (Pass.returns_throw _ _ _ _)

theorem returns_of_denotes {scope : Scope} {node : Node} {operand : Operand}
    {events : List Event} (denoted : Denotes scope node operand events) (before : Progress) :
    (node.resolve scope).Returns before (.operand operand) (before.extend [] events) := by
  induction denoted generalizing before with
  | literal typed =>
      simp only [resolve, Pass.returns_bind, Pass.returns_require, Pass.returns_pure,
        typeLiteral_ok]
      exact ⟨_, _, ⟨typed, rfl⟩, rfl, before.extend_nothing⟩
  | column walked =>
      simp only [resolve, Pass.returns_bind, Pass.returns_column, Pass.returns_pure]
      exact ⟨_, _, ⟨walked, rfl, rfl⟩, rfl, rfl⟩
  | quoted last =>
      simp only [resolve, last, Pass.returns_pure]
      exact ⟨trivial, before.extend_nothing⟩
  | @negateLiteral kind raw value typed =>
      have signed : kind ≠ .string := by
        rintro rfl
        cases typed
      simp only [resolve, signed, if_false, Pass.returns_bind, Pass.returns_require,
        Pass.returns_pure, typeNegative_ok]
      exact ⟨_, _, ⟨typed, rfl⟩, rfl, before.extend_nothing⟩
  | negate unread _ negated ih =>
      rw [resolve_negate scope _ unread]
      simp only [Pass.returns_bind, Pass.returns_require, Resolved.negate_ok]
      exact ⟨_, _, ih before, ⟨_, _, rfl, negated, rfl⟩, rfl⟩
  | nested _ ih => exact ih before
  | arithmetic _ _ combined leftReturns rightReturns =>
      simp only [resolve, returns_operand]
      refine ⟨_, _, leftReturns before, _, _, rightReturns _, ?_⟩
      simp only [Pass.returns_bind, Pass.returns_require, Pass.returns_pure]
      exact ⟨_, _, ⟨combined, rfl⟩, rfl, (before.extend_extend [] [] _ _).symm⟩

theorem returns_of_lists {scope : Scope} {items : List Node} {values : List Value}
    {events : List Event} (listed : Lists scope items values events) (before : Progress) :
    (resolveItems scope items).Returns before values (before.extend [] events) := by
  induction listed generalizing before with
  | nil => exact (Pass.returns_pure _ _ _ _).mpr ⟨rfl, before.extend_nothing⟩
  | cons head _ ih =>
      simp only [resolveItems, returns_listed]
      refine ⟨_, _, returns_of_denotes head before, ?_⟩
      simp only [Pass.returns_bind, Pass.returns_pure]
      exact ⟨_, _, ih _, rfl, (before.extend_extend [] [] _ _).symm⟩

theorem returns_of_asserts {scope : Scope} {first : Nat} {node : Node} {predicate : Predicate}
    {cones : List Cone} {events : List Event}
    (asserted : Asserts scope first node predicate cones events) (before : Progress)
    (counted : before.cones.length = first) :
    (node.resolve scope).Returns before (.condition predicate) (before.extend cones events) := by
  induction asserted generalizing before with
  | not _ ih =>
      simp only [resolve, returns_predicate, Pass.returns_pure]
      exact ⟨_, _, ih before counted, rfl, rfl⟩
  | nested _ ih => exact ih before counted
  | connect _ _ leftReturns rightReturns =>
      simp only [resolve, returns_predicate, Pass.returns_pure]
      exact ⟨_, _, leftReturns before counted, _, _, rightReturns _ (by simp [counted]), rfl,
        (before.extend_extend _ _ _ _).symm⟩
  | isNull denoted =>
      simp only [resolve, returns_operand, Pass.returns_pure]
      exact ⟨_, _, returns_of_denotes denoted before, rfl, rfl⟩
  | equality leftDenoted rightDenoted =>
      rw [resolve_equality scope _ _ _ rightDenoted.ne_null]
      simp only [returns_operand, Pass.returns_pure]
      exact ⟨_, _, returns_of_denotes leftDenoted before, _, _,
        returns_of_denotes rightDenoted _, rfl, (before.extend_extend [] [] _ _).symm⟩
  | relate leftDenoted rightDenoted =>
      simp only [resolve, returns_operand, Pass.returns_pure]
      exact ⟨_, _, returns_of_denotes leftDenoted before, _, _,
        returns_of_denotes rightDenoted _, rfl, (before.extend_extend [] [] _ _).symm⟩
  | between denoted lowDenoted highDenoted =>
      simp only [resolve, returns_operand, Pass.returns_pure]
      exact ⟨_, _, returns_of_denotes denoted before, _, _, returns_of_denotes lowDenoted _,
        _, _, returns_of_denotes highDenoted _, rfl, by simp [Progress.extend_extend]⟩
  | member denoted listed =>
      simp only [resolve, returns_operand]
      refine ⟨_, _, returns_of_denotes denoted before, ?_⟩
      simp only [Pass.returns_bind, Pass.returns_pure]
      exact ⟨_, _, returns_of_lists listed _, rfl, (before.extend_extend [] [] _ _).symm⟩
  | cone named raMeasured decMeasured radiusMeasured =>
      obtain ⟨_, raDenoted, raNumber⟩ := raMeasured
      obtain ⟨_, decDenoted, decNumber⟩ := decMeasured
      obtain ⟨_, radiusDenoted, radiusNumber⟩ := radiusMeasured
      subst counted
      simp only [resolve, named, if_true, returns_measured]
      refine ⟨_, _, _, returns_of_denotes raDenoted before, raNumber, _, _, _,
        returns_of_denotes decDenoted _, decNumber, _, _, _,
        returns_of_denotes radiusDenoted _, radiusNumber, ?_⟩
      simp only [Pass.returns_bind, Pass.returns_recordCone, Pass.returns_pure]
      exact ⟨_, _, ⟨rfl, rfl⟩, by simp [Progress.extend_extend]⟩

/-- A pass returns exactly what can be derived, whatever its progress so far. -/
theorem returns_iff (scope : Scope) (node : Node) (before after : Progress) (result : Resolved) :
    (node.resolve scope).Returns before result after ↔ Yields scope node before result after := by
  constructor
  · exact yields_of_returns scope node before after result
  · intro derived
    cases result with
    | operand operand =>
        obtain ⟨events, denoted, rfl⟩ := derived
        exact returns_of_denotes denoted before
    | condition predicate =>
        obtain ⟨cones, events, asserted, rfl⟩ := derived
        exact returns_of_asserts asserted before rfl

end Node

/-! Whole passes start without cones and keep nothing but what was derived. -/

namespace Scope

theorem resolve_ok (scope : Scope) (node : Node) (resolution : Resolution) :
    (scope.resolve node).1 = .ok resolution ↔ ∃ after : Progress,
      (node.resolve scope).Returns {} resolution.value after ∧
        resolution.extra = { cones := after.cones } := by
  obtain ⟨value, extra⟩ := resolution
  unfold resolve Pass.Returns Pass.runFrom
  rcases (node.resolve scope).run.run {} with ⟨failure | result, after⟩
  · simp
  · simp [eq_comm, and_assoc]

theorem resolve_operand_iff (scope : Scope) (node : Node) (operand : Operand) (extra : Extra) :
    (scope.resolve node).1 = .ok { value := .operand operand, extra } ↔
      extra = {} ∧ ∃ events, Denotes scope node operand events := by
  simp only [resolve_ok, Node.returns_iff, Yields]
  constructor
  · rintro ⟨_, ⟨events, denoted, rfl⟩, same⟩
    exact ⟨same, events, denoted⟩
  · rintro ⟨same, events, denoted⟩
    exact ⟨_, ⟨events, denoted, rfl⟩, same⟩

theorem resolve_condition_iff (scope : Scope) (node : Node) (predicate : Predicate)
    (extra : Extra) :
    (scope.resolve node).1 = .ok { value := .condition predicate, extra } ↔
      extra.aliases = {} ∧ ∃ events, Asserts scope 0 node predicate extra.cones events := by
  simp only [resolve_ok, Node.returns_iff, Yields]
  constructor
  · rintro ⟨_, ⟨cones, events, asserted, rfl⟩, rfl⟩
    exact ⟨rfl, events, asserted⟩
  · obtain ⟨cones, aliases⟩ := extra
    rintro ⟨rfl, events, asserted⟩
    exact ⟨_, ⟨cones, events, asserted, rfl⟩, rfl⟩

end Scope

end ConeFilter
