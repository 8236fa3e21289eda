import ConeFilter.Proofs.ConeAccounting

/-!
Fields of a result. An operand mentions the columns of its tree from left to
right, whatever was computed on the way, because what is computed has no fields
left. A predicate mentions the columns of its tree and the slots of its cones,
and nothing else, and lists them in strictly increasing order. Every column
mentioned is a walk through the schema.
-/
namespace ConeFilter

namespace Operand

theorem combine_fields (op : ArithOp) (left right combined : Operand)
    (result : combine op left right = .ok combined) :
    combined.fields = left.fields ++ right.fields := by
  obtain ⟨a, b, value, rfl, rfl, -, rfl⟩ | ⟨rfl, -⟩ := combine_cases _ _ _ _ result
  · rfl
  · rfl

theorem negate_fields (operand negated : Operand) (result : operand.negate = .ok negated) :
    negated.fields = operand.fields := by
  obtain ⟨value, opposite, rfl, -, rfl⟩ | ⟨rfl, -⟩ := negate_cases _ _ result
  · rfl
  · rfl

end Operand

namespace Predicate

theorem mem_insertName (field name : String) (names : List String) :
    field ∈ insertName name names ↔ field = name ∨ field ∈ names := by
  induction names with
  | nil => simp [insertName]
  | cons other rest ih =>
      unfold insertName
      split
      · simp
      · split
        · rename_i same
          simp [same]
        · simp [ih, or_left_comm]

theorem mem_referencedFields (predicate : Predicate) (field : String) :
    field ∈ predicate.referencedFields ↔ field ∈ predicate.fields := by
  unfold referencedFields
  induction predicate.fields with
  | nil => simp
  | cons name rest ih => simp [mem_insertName, ih]

/-- Names are inserted as the keys of a dictionary are. -/
theorem insertName_keys {α : Type} (name : String) (value : α) (entries : List (String × α)) :
    insertName name (entries.map Prod.fst) = (insertEntry name value entries).map Prod.fst := by
  induction entries with
  | nil => rfl
  | cons head rest ih =>
      simp only [List.map_cons, insertName, insertEntry]
      by_cases before : name < head.1
      · simp [before]
      · by_cases same : name = head.1
        · simp [same]
        · simp [before, same, ih]

theorem sorted_insertName (name : String) (names : List String)
    (sorted : names.Pairwise (· < ·)) : (insertName name names).Pairwise (· < ·) := by
  have keys : (names.map fun other => (other, ())).map Prod.fst = names := by
    simp [List.map_map, Function.comp_def]
  have entries : SortedKeys (names.map fun other => (other, ())) := List.pairwise_map.mpr sorted
  rw [← keys, insertName_keys name ()]
  exact List.pairwise_map.mpr (sortedKeys_insertEntry name () _ entries)

theorem sorted_referencedFields (predicate : Predicate) :
    predicate.referencedFields.Pairwise (· < ·) := by
  unfold referencedFields
  induction predicate.fields with
  | nil => exact .nil
  | cons name rest ih => exact sorted_insertName name _ ih

end Predicate

section Derivations
variable {scope : Scope} {first : Nat} {node argument : Node} {items : List Node}
  {operand : Operand} {value : Value} {values : List Value} {number : Float}
  {predicate : Predicate} {cones : List Cone} {events : List Event}

/-! Operands, and the lists and arguments that are made of literals. -/

theorem Denotes.fields (denoted : Denotes scope node operand events) :
    operand.fields = node.columns.map Scope.flatten := by
  induction denoted with
  | literal _ => rfl
  | column _ => rfl
  | quoted _ => rfl
  | negateLiteral _ => rfl
  | negate _ _ result ih =>
      rw [Operand.negate_fields _ _ result, ih, Node.columns_children (.negate _)]
      simp
  | nested _ ih =>
      rw [ih, Node.columns_children (.nested _)]
      simp
  | arithmetic _ _ result leftFields rightFields =>
      rw [Operand.combine_fields _ _ _ _ result, leftFields, rightFields,
        Node.columns_children (.arithmetic _ _ _)]
      simp

theorem Denotes.columnless (denoted : Denotes scope node (.literal value) events) :
    node.columns = [] :=
  List.map_eq_nil_iff.mp denoted.fields.symm

theorem Lists.columnless (listed : Lists scope items values events) :
    items.flatMap Node.columns = [] := by
  induction listed with
  | nil => rfl
  | cons head _ ih => rw [List.flatMap_cons, head.columnless, ih, List.nil_append]

theorem Measures.columnless (measured : Measures scope argument number events) :
    argument.columns = [] := by
  obtain ⟨_, denoted, _⟩ := measured
  exact denoted.columnless

/-! Predicates. A range tests its subject twice, so membership is all that is kept. -/

theorem Asserts.mem_fields (asserted : Asserts scope first node predicate cones events)
    (field : String) :
    field ∈ predicate.fields ↔ field ∈ node.columns.map Scope.flatten ∨
      field ∈ (List.range' first cones.length).map Cone.slotName := by
  induction asserted with
  | not _ ih =>
      rw [Node.columns_children]
      simpa [Predicate.fields] using ih
  | nested _ ih =>
      rw [Node.columns_children]
      simpa using ih
  | @connect first op _ _ before after cones later _ _ _ _ leftFields rightFields =>
      have joined : (op.join before after).fields = before.fields ++ after.fields := by
        cases op <;> rfl
      rw [joined, List.mem_append, leftFields, rightFields,
        Node.columns_children (.connect _ _ _), List.length_append, ← List.range'_append_1]
      simp only [Node.children, Node.column?, List.flatMap_cons, List.flatMap_nil,
        Option.toList_none, List.append_nil, List.map_append, List.mem_append]
      exact or_or_or_comm
  | isNull denoted =>
      rw [Node.columns_children]
      simp [Predicate.fields, denoted.fields, Node.columns_null]
  | @equality _ op _ _ _ _ _ _ leftDenoted rightDenoted =>
      rw [Node.columns_children]
      cases op <;> simp [Equality.compare, Equality.positive, Predicate.fields, leftDenoted.fields,
        rightDenoted.fields]
  | relate leftDenoted rightDenoted =>
      rw [Node.columns_children]
      simp [Predicate.fields, leftDenoted.fields, rightDenoted.fields]
  | @between _ subject low high _ _ _ _ _ _ denoted lowDenoted highDenoted =>
      have mentioned : (Node.between subject low high).columns =
          subject.columns ++ low.columns ++ high.columns := by
        rw [Node.columns_children]
        simp
      rw [mentioned, List.map_append, List.map_append, ← denoted.fields, ← lowDenoted.fields,
        ← highDenoted.fields]
      simp only [Predicate.fields, List.mem_append, List.length_nil, List.range'_zero,
        List.map_nil, List.not_mem_nil, or_false]
      -- The subject stands once in the tree and twice in the predicate.
      constructor
      · rintro ((subject | low) | (subject | high))
        · exact .inl (.inl subject)
        · exact .inl (.inr low)
        · exact .inl (.inl subject)
        · exact .inr high
      · rintro ((subject | low) | high)
        · exact .inl (.inl subject)
        · exact .inl (.inr low)
        · exact .inr (.inr high)
  | member denoted listed =>
      rw [Node.columns_children]
      simp [Predicate.fields, denoted.fields, listed.columnless]
  | cone _ raMeasured decMeasured radiusMeasured =>
      rw [Node.columns_children]
      simp [Predicate.fields, Operand.fields, raMeasured.columnless, decMeasured.columnless,
        radiusMeasured.columnless]

/-! Columns that were let through. -/

theorem Denotes.walked (denoted : Denotes scope node operand events) :
    ∀ path ∈ node.columns, Scope.walk scope.catalog scope.model path = .ok () := by
  induction denoted with
  | literal _ => simp [Node.columns_children (.literal _ _)]
  | column walked => simpa [Node.columns_children (.column _)] using walked
  | quoted _ => simp [Node.columns_children (.quoted _)]
  | negateLiteral _ =>
      simp [Node.columns_children (.negate _), Node.columns_children (.literal _ _)]
  | negate _ _ _ ih =>
      rw [Node.columns_children]
      simpa using ih
  | nested _ ih =>
      rw [Node.columns_children]
      simpa using ih
  | arithmetic _ _ _ leftWalked rightWalked =>
      rw [Node.columns_children]
      simpa [or_imp, forall_and] using ⟨leftWalked, rightWalked⟩

theorem Asserts.walked (asserted : Asserts scope first node predicate cones events) :
    ∀ path ∈ node.columns, Scope.walk scope.catalog scope.model path = .ok () := by
  induction asserted with
  | not _ ih | nested _ ih =>
      rw [Node.columns_children]
      simpa using ih
  | connect _ _ leftWalked rightWalked =>
      rw [Node.columns_children]
      simpa [or_imp, forall_and] using ⟨leftWalked, rightWalked⟩
  | isNull denoted =>
      rw [Node.columns_children]
      simpa [Node.columns_null] using denoted.walked
  | equality leftDenoted rightDenoted | relate leftDenoted rightDenoted =>
      rw [Node.columns_children]
      simpa [or_imp, forall_and] using ⟨leftDenoted.walked, rightDenoted.walked⟩
  | between denoted lowDenoted highDenoted =>
      rw [Node.columns_children]
      simpa [or_imp, forall_and] using ⟨denoted.walked, lowDenoted.walked, highDenoted.walked⟩
  | member denoted listed =>
      rw [Node.columns_children]
      simpa [listed.columnless] using denoted.walked
  | cone _ raMeasured decMeasured radiusMeasured =>
      rw [Node.columns_children]
      simp [raMeasured.columnless, decMeasured.columnless,
        radiusMeasured.columnless]

end Derivations

/-! Whole passes. -/

/-- The fields of a predicate are the columns of its tree and the slots of its cones, each listed
once and in increasing order. -/
theorem Predicate.fields_exact (scope : Scope) (node : Node) (predicate : Predicate)
    (extra : Extra)
    (resolved : (scope.resolve node).1 = .ok { value := .condition predicate, extra }) :
    predicate.referencedFields.Pairwise (· < ·) ∧
    ∀ field, field ∈ predicate.referencedFields ↔
      (∃ path ∈ node.columns, field = Scope.flatten path) ∨
        ∃ index, index < extra.cones.length ∧ field = Cone.slotName index := by
  obtain ⟨-, events, asserted⟩ := (scope.resolve_condition_iff _ _ _).mp resolved
  refine ⟨predicate.sorted_referencedFields, fun field => ?_⟩
  rw [predicate.mem_referencedFields, asserted.mem_fields, List.mem_map, List.mem_map,
    ← List.range_eq_range']
  constructor
  · rintro (⟨path, mentioned, rfl⟩ | ⟨index, inside, rfl⟩)
    · exact .inl ⟨path, mentioned, rfl⟩
    · exact .inr ⟨index, List.mem_range.mp inside, rfl⟩
  · rintro (⟨path, mentioned, rfl⟩ | ⟨index, inside, rfl⟩)
    · exact .inl ⟨path, mentioned, rfl⟩
    · exact .inr ⟨index, List.mem_range.mpr inside, rfl⟩

/-! A cone beside a null test and a negated column, with a quoted name and a computed constant
that leave no field behind. -/

def mentionedStars : Node :=
  .connect .and (.call "cone" (integers ["1", "2", "3"]))
    (.connect .or (.equality .unequal (.column ["cone"]) .null)
      (.between (.negate (.nested (.column ["mag"]))) (.quoted ["ra"])
        (.arithmetic .sub (.literal .integer "1") (.literal .integer "2"))))

def mentionedFields : Predicate :=
  .and (.compare .equal (.field (Cone.slotName 0)) (.literal (.bool true)))
    (.or (.isNull (.field "cone") false)
      (.and (.compare .greaterEqual (.negation (.field "mag")) (.literal (.text "ra")))
        (.compare .lessEqual (.negation (.field "mag")) (.literal (.int (-1))))))

theorem mentionedStars_resolve : (starScope.resolve mentionedStars).1 =
    .ok { value := .condition mentionedFields, extra := { cones := [firstCone] } } := rfl

theorem mentionedStars_fields :
    mentionedFields.referencedFields.Pairwise (· < ·) ∧
    "mag" ∈ mentionedFields.referencedFields ∧ "cone" ∈ mentionedFields.referencedFields ∧
    Cone.slotName 0 ∈ mentionedFields.referencedFields ∧
    "ra" ∉ mentionedFields.referencedFields := by
  obtain ⟨sorted, exact⟩ := Predicate.fields_exact _ _ _ _ mentionedStars_resolve
  have columns : mentionedStars.columns = [["cone"], ["mag"]] := by decide
  simp only [columns] at exact
  refine ⟨sorted, (exact "mag").mpr (.inl ⟨["mag"], by simp, rfl⟩),
    (exact "cone").mpr (.inl ⟨["cone"], by simp, rfl⟩),
    (exact (Cone.slotName 0)).mpr (.inr ⟨0, by decide, rfl⟩), ?_⟩
  rw [exact]
  rintro (⟨path, mentioned, named⟩ | ⟨index, inside, named⟩)
  · simp only [List.mem_cons, List.not_mem_nil, or_false] at mentioned
    rcases mentioned with rfl | rfl <;> exact absurd named (by decide)
  · obtain rfl : index = 0 := Nat.lt_one_iff.mp inside
    exact absurd named (by decide)

end ConeFilter
