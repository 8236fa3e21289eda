import ConeFilter.Proofs.CanonicalResults
import ConeFilter.Proofs.FilterMeaning
import ConeFilter.Proofs.WordRange

/-!
Parentheses. They leave nothing behind in a result, but in two places a node
looks at the shape of the node below it, and parentheses hide that shape: an
equality looks for a bare NULL, and a minus sign for a literal, whose text is
then read together with the sign. Taking parentheses away changes nothing about
an accepted tree whose integers are written without signs. Putting them in
changes nothing either, except where they hide a NULL or an integer that is no
word without its sign, and then the tree is refused.
-/
namespace ConeFilter

/-! Literals behind a minus sign. The two ways to read one agree on text that has no
sign of its own. -/

namespace Numeral

def Unsigned (raw : String) : Prop := raw.toList ≠ [] ∧ ∀ c ∈ raw.toList, c.isDigit = true

theorem Unsigned.readNat {raw : String} (unsigned : Unsigned raw) :
    readNat raw.toList = some (natOfDigits raw.toList) := by
  obtain ⟨present, digits⟩ := unsigned
  have all : raw.toList.all Char.isDigit = true := List.all_eq_true.mpr digits
  simp [Numeral.readNat, present, all]

theorem unsigned_iff (raw : String) : Unsigned raw ↔ ∃ n, readNat raw.toList = some n := by
  constructor
  · intro unsigned
    exact ⟨_, unsigned.readNat⟩
  · rintro ⟨n, read⟩
    refine ⟨?_, List.all_eq_true.mp (digits_of_readNat _ n read)⟩
    intro empty
    rw [empty] at read
    cases read

theorem toInt_of_readWord (raw : String) (n : Nat) (word : Int64)
    (digits : readNat raw.toList = some n) (read : readWord raw = some word) :
    word.toInt = n := by
  rw [readWord, readInt_digits _ n digits, Option.bind_some] at read
  exact toInt_of_exactWord n word read

end Numeral

namespace LiteralKind

theorem readNegative_digits (raw : String) (n : Nat)
    (digits : Numeral.readNat raw.toList = some n) :
    LiteralKind.integer.readNegative? raw = Value.ofInt? (-(n : Int)) := by
  rw [readNegative?, Numeral.readWord, Numeral.minus_toList, Numeral.readInt_minus, digits]
  rfl

/-- What is read behind a sign is a run of digits. -/
theorem unsigned_of_readNegative (raw : String) (value : Value)
    (typed : LiteralKind.integer.readNegative? raw = some value) : Numeral.Unsigned raw := by
  obtain ⟨word, read, -⟩ := Option.map_eq_some_iff.mp typed
  obtain ⟨n, signed, -⟩ := Option.bind_eq_some_iff.mp read
  rw [Numeral.minus_toList, Numeral.readInt_minus] at signed
  obtain ⟨digits, unsigned, -⟩ := Option.map_eq_some_iff.mp signed
  exact (Numeral.unsigned_iff raw).mpr ⟨digits, unsigned⟩

/-- Reading a literal together with its sign is reading it first and negating it then. -/
theorem readNegative_of_read (kind : LiteralKind) (raw : String) (value : Value)
    (unsigned : kind = .integer → Numeral.Unsigned raw) (read : kind.read? raw = some value)
    (numeric : value.isNumeric = true) : kind.readNegative? raw = value.negate? := by
  cases kind with
  | string =>
      cases read
      cases numeric
  | integer =>
      obtain ⟨n, digits⟩ := (Numeral.unsigned_iff raw).mp (unsigned rfl)
      obtain ⟨word, readWord, rfl⟩ := Option.map_eq_some_iff.mp read
      have value := Numeral.toInt_of_readWord raw n word digits readWord
      rw [readNegative_digits raw n digits, Value.negate?, value]
  | decimal =>
      rw [readNegative_decimal, read]
      rfl
  | other => cases read

/-- Only the least word needs its sign to be read. -/
theorem negate_of_readNegative (kind : LiteralKind) (raw : String) (value : Value)
    (typed : kind.readNegative? raw = some value)
    (fits : kind = .integer → Numeral.readWord raw ≠ none) :
    ∃ positive, kind.read? raw = some positive ∧
      (Operand.literal positive).negate = .ok (.literal value) := by
  have unsigned : kind = .integer → Numeral.Unsigned raw := by
    rintro rfl
    exact unsigned_of_readNegative raw value typed
  have readable : ∃ positive, kind.read? raw = some positive ∧ positive.isNumeric = true := by
    cases kind with
    | string => cases typed
    | integer =>
        obtain ⟨word, read⟩ := Option.ne_none_iff_exists'.mp (fits rfl)
        exact ⟨.int word, by rw [read?, read]; rfl, rfl⟩
    | decimal =>
        obtain ⟨number, read, -⟩ := Option.map_eq_some_iff.mp typed
        exact ⟨.float number, by rw [read?, read]; rfl, rfl⟩
    | other => cases typed
  obtain ⟨positive, read, numeric⟩ := readable
  have agree := readNegative_of_read kind raw positive unsigned read numeric
  rw [typed] at agree
  exact ⟨positive, read, by simp [Operand.negate, numeric, ← agree, pure, Except.pure]⟩

/-- An unsigned integer is not the least word, so it has a negation. -/
theorem negate_of_read (kind : LiteralKind) (raw : String) (value : Value) (negated : Operand)
    (unsigned : kind = .integer → Numeral.Unsigned raw) (read : kind.read? raw = some value)
    (result : (Operand.literal value).negate = .ok negated) :
    ∃ opposite, kind.readNegative? raw = some opposite ∧ negated = .literal opposite := by
  have numeric := (Operand.negate_succeeds_iff _).mp ⟨negated, result⟩ value rfl
  rw [readNegative_of_read kind raw value unsigned read numeric]
  obtain ⟨_, opposite, ⟨rfl⟩, computed, rfl⟩ | ⟨rfl, stuck⟩ := Operand.negate_cases _ _ result
  · exact ⟨opposite, computed, rfl⟩
  · have least := Value.negate_eq_none value numeric (stuck value rfl).2
    subst least
    cases kind with
    | string => cases read
    | integer =>
        obtain ⟨n, digits⟩ := (Numeral.unsigned_iff raw).mp (unsigned rfl)
        obtain ⟨word, readWord, same⟩ := Option.map_eq_some_iff.mp read
        cases same
        have positive := Numeral.toInt_of_readWord raw n _ digits readWord
        rw [Int64.toInt_minValue] at positive
        omega
    | decimal =>
        obtain ⟨number, _, same⟩ := Option.map_eq_some_iff.mp read
        cases same
    | other => cases read

end LiteralKind

namespace Node

mutual

def strip : Node → Node
  | .nested inner => inner.strip
  | .negate operand => .negate operand.strip
  | .not condition => .not condition.strip
  | .connect op left right => .connect op left.strip right.strip
  | .equality op left right => .equality op left.strip right.strip
  | .relate op left right => .relate op left.strip right.strip
  | .arithmetic op left right => .arithmetic op left.strip right.strip
  | .between subject low high => .between subject.strip low.strip high.strip
  | .member subject items => .member subject.strip (stripAll items)
  | .call name arguments => .call name (stripAll arguments)
  | leaf => leaf

def stripAll : List Node → List Node
  | [] => []
  | node :: rest => node.strip :: stripAll rest

end

theorem stripAll_map (nodes : List Node) : stripAll nodes = nodes.map strip := by
  induction nodes with
  | nil => rfl
  | cons node rest ih => rw [stripAll, ih, List.map_cons]

theorem subtrees_of_child {node child : Node} (below : child ∈ node.children) :
    child.subtrees ⊆ node.subtrees := by
  intro other inside
  rw [subtrees_children]
  exact List.mem_append_left _ (List.mem_flatMap.mpr ⟨child, below, inside⟩)

def UnsignedIntegers (node : Node) : Prop :=
  ∀ raw, .literal .integer raw ∈ node.subtrees → Numeral.Unsigned raw

theorem UnsignedIntegers.child {node child : Node} (unsigned : node.UnsignedIntegers)
    (below : child ∈ node.children) : child.UnsignedIntegers :=
  fun raw inside => unsigned raw (subtrees_of_child below inside)

theorem literal_of_strip {node : Node} {kind : LiteralKind} {raw : String}
    (bare : node.strip = .literal kind raw) : .literal kind raw ∈ node.subtrees := by
  induction node with
  | literal _ _ =>
      cases bare
      exact List.mem_singleton_self _
  | nested inner ih => exact List.mem_append_left _ (ih bare)
  | _ => cases bare

end Node

section Derivations
variable {scope : Scope} {first : Nat} {node argument : Node} {items : List Node}
  {operand negated : Operand} {values : List Value} {number : Float}
  {predicate : Predicate} {cones : List Cone} {events : List Event}

/-! Parentheses taken away. Where a minus sign comes to stand in front of a literal, the literal
is read in the other way. -/

theorem Denotes.negate_literal {kind : LiteralKind} {raw : String}
    (denoted : Denotes scope (.literal kind raw) operand events)
    (unsigned : kind = .integer → Numeral.Unsigned raw) (result : operand.negate = .ok negated) :
    Denotes scope (.negate (.literal kind raw)) negated events := by
  cases denoted with
  | literal read =>
      obtain ⟨opposite, typed, rfl⟩ := kind.negate_of_read raw _ negated unsigned read result
      exact .negateLiteral typed

theorem Denotes.strip (denoted : Denotes scope node operand events)
    (unsigned : node.UnsignedIntegers) : Denotes scope node.strip operand events := by
  induction denoted with
  | literal typed => exact .literal typed
  | column walked => exact .column walked
  | quoted last => exact .quoted last
  | negateLiteral typed => exact .negateLiteral typed
  | @negate inner _ _ _ _ _ result ih =>
      have below := ih (unsigned.child (by simp))
      by_cases bare : ∃ kind raw, inner.strip = .literal kind raw
      · obtain ⟨kind, raw, literal⟩ := bare
        have digits : kind = .integer → Numeral.Unsigned raw := by
          rintro rfl
          exact unsigned.child (by simp) raw (Node.literal_of_strip literal)
        rw [literal] at below
        rw [Node.strip, literal]
        exact below.negate_literal digits result
      · have unread : ∀ kind raw, inner.strip ≠ .literal kind raw :=
          fun kind raw same => bare ⟨kind, raw, same⟩
        exact .negate unread below result
  | nested _ ih => exact ih (unsigned.child (by simp))
  | arithmetic _ _ result leftStripped rightStripped =>
      exact .arithmetic (leftStripped (unsigned.child (by simp)))
        (rightStripped (unsigned.child (by simp))) result

theorem Lists.strip (listed : Lists scope items values events)
    (unsigned : ∀ item ∈ items, item.UnsignedIntegers) :
    Lists scope (items.map Node.strip) values events := by
  induction listed with
  | nil => exact .nil
  | cons head _ ih =>
      obtain ⟨headUnsigned, tailUnsigned⟩ := List.forall_mem_cons.mp unsigned
      exact .cons (head.strip headUnsigned) (ih tailUnsigned)

theorem Measures.strip (measured : Measures scope argument number events)
    (unsigned : argument.UnsignedIntegers) : Measures scope argument.strip number events := by
  obtain ⟨value, denoted, numeric⟩ := measured
  exact ⟨value, denoted.strip unsigned, numeric⟩

theorem Asserts.strip (asserted : Asserts scope first node predicate cones events)
    (unsigned : node.UnsignedIntegers) : Asserts scope first node.strip predicate cones events := by
  induction asserted with
  | not _ ih => exact .not (ih (unsigned.child (by simp)))
  | nested _ ih => exact ih (unsigned.child (by simp))
  | connect _ _ leftStripped rightStripped =>
      exact .connect (leftStripped (unsigned.child (by simp)))
        (rightStripped (unsigned.child (by simp)))
  | isNull denoted => exact .isNull (denoted.strip (unsigned.child (by simp)))
  | equality leftDenoted rightDenoted =>
      exact .equality (leftDenoted.strip (unsigned.child (by simp)))
        (rightDenoted.strip (unsigned.child (by simp)))
  | relate leftDenoted rightDenoted =>
      exact .relate (leftDenoted.strip (unsigned.child (by simp)))
        (rightDenoted.strip (unsigned.child (by simp)))
  | between denoted lowDenoted highDenoted =>
      exact .between (denoted.strip (unsigned.child (by simp)))
        (lowDenoted.strip (unsigned.child (by simp)))
        (highDenoted.strip (unsigned.child (by simp)))
  | member denoted listed =>
      rw [Node.strip, Node.stripAll_map]
      exact .member (denoted.strip (unsigned.child (by simp)))
        (listed.strip fun item inside => unsigned.child (by simp [inside]))
  | cone named raMeasured decMeasured radiusMeasured =>
      exact .cone named (raMeasured.strip (unsigned.child (by simp)))
        (decMeasured.strip (unsigned.child (by simp)))
        (radiusMeasured.strip (unsigned.child (by simp)))

end Derivations

/-! Parentheses put in. -/

namespace Node

/-- Parentheses stand between a node and the shape that it looks for below it. -/
def Hides : Node → Prop
  | .equality _ _ (.nested right) => right.strip = .null
  | .negate (.nested inner) =>
      ∃ raw, inner.strip = .literal .integer raw ∧ Numeral.readWord raw = none
  | _ => False

def Exposed (node : Node) : Prop := ∀ below ∈ node.subtrees, ¬ below.Hides

theorem exposed_children (node : Node) :
    node.Exposed ↔ (∀ child ∈ node.children, child.Exposed) ∧ ¬ node.Hides := by
  simp only [Exposed, subtrees_children node, List.forall_mem_append, List.forall_mem_singleton,
    List.mem_flatMap]
  constructor
  · rintro ⟨below, here⟩
    exact ⟨fun child stands other inside => below other ⟨child, stands, inside⟩, here⟩
  · rintro ⟨below, here⟩
    exact ⟨fun other ⟨child, stands, inside⟩ => below child stands other inside, here⟩

theorem Exposed.child {node child : Node} (exposed : node.Exposed)
    (below : child ∈ node.children) : child.Exposed :=
  (exposed_children node).mp exposed |>.1 child below

theorem Exposed.shown {node : Node} (exposed : node.Exposed) : ¬ node.Hides :=
  ((exposed_children node).mp exposed).2

theorem exposed_of_children {node : Node} (shown : ¬ node.Hides)
    (below : ∀ child ∈ node.children, child.Exposed) : node.Exposed :=
  (exposed_children node).mpr ⟨below, shown⟩

theorem null_of_strip {op : Equality} {left right : Node} (bare : right.strip = .null)
    (shown : ¬ (equality op left right).Hides) : right = .null := by
  cases right with
  | null => rfl
  | nested inner => exact absurd bare shown
  | _ => cases bare

theorem Hides.null {op : Equality} {left right : Node} (hidden : (equality op left right).Hides) :
    right.strip = .null := by
  cases right with
  | nested inner => exact hidden
  | _ => exact hidden.elim

theorem Hides.integer {inner : Node} (hidden : (negate inner).Hides) :
    ∃ raw, inner.strip = .literal .integer raw ∧ Numeral.readWord raw = none := by
  cases inner with
  | nested deeper => exact hidden
  | _ => exact hidden.elim

end Node

section Derivations
variable {scope : Scope} {first : Nat} {node argument : Node} {items : List Node}
  {operand : Operand} {values : List Value} {number : Float}
  {predicate : Predicate} {cones : List Cone} {events : List Event}

/-- A literal in parentheses is read first and negated then, which it survives if it is a word. -/
theorem Denotes.of_negated_strip {inner : Node} {kind : LiteralKind} {raw : String} {value : Value}
    (bare : inner.strip = .literal kind raw) (typed : kind.readNegative? raw = some value)
    (shown : ¬ (Node.negate inner).Hides)
    (restored : ∀ operand events, Denotes scope inner.strip operand events →
      Denotes scope inner operand events) :
    Denotes scope (.negate inner) (.literal value) [] := by
  cases inner with
  | literal _ _ =>
      cases bare
      exact .negateLiteral typed
  | nested deeper =>
      have fits : kind = .integer → Numeral.readWord raw ≠ none := by
        rintro rfl unread
        exact shown ⟨raw, bare, unread⟩
      obtain ⟨positive, read, result⟩ := kind.negate_of_readNegative raw value typed fits
      rw [bare] at restored
      exact .negate (by simp) (restored _ _ (.literal read)) result
  | _ => cases bare

theorem Denotes.of_strip (node : Node) (exposed : node.Exposed)
    (denoted : Denotes scope node.strip operand events) : Denotes scope node operand events := by
  induction node generalizing operand events with
  | negate inner ih =>
      have restored : ∀ operand events, Denotes scope inner.strip operand events →
          Denotes scope inner operand events := fun _ _ => ih (exposed.child (by simp))
      rw [Node.strip] at denoted
      generalize bare : inner.strip = stripped at denoted
      cases denoted with
      | negateLiteral typed => exact Denotes.of_negated_strip bare typed exposed.shown restored
      | negate unread below result =>
          have unwrapped : ∀ kind raw, inner ≠ .literal kind raw := by
            rintro kind raw rfl
            exact unread kind raw bare.symm
          rw [← bare] at below
          exact .negate unwrapped (restored _ _ below) result
  | nested inner ih => exact .nested (ih (exposed.child (by simp)) denoted)
  | arithmetic op left right leftRestored rightRestored =>
      rw [Node.strip] at denoted
      cases denoted with
      | arithmetic leftDenoted rightDenoted result =>
          exact .arithmetic (leftRestored (exposed.child (by simp)) leftDenoted)
            (rightRestored (exposed.child (by simp)) rightDenoted) result
  | literal _ _ | column _ | quoted _ => exact denoted
  | _ =>
      simp only [Node.strip] at denoted
      cases denoted

theorem Lists.of_strip (exposed : ∀ item ∈ items, item.Exposed)
    (listed : Lists scope (items.map Node.strip) values events) :
    Lists scope items values events := by
  induction items generalizing values events with
  | nil => exact listed
  | cons item rest ih =>
      obtain ⟨headExposed, tailExposed⟩ := List.forall_mem_cons.mp exposed
      cases listed with
      | cons head tail => exact .cons (.of_strip item headExposed head) (ih tailExposed tail)

theorem Measures.of_strip (exposed : argument.Exposed)
    (measured : Measures scope argument.strip number events) :
    Measures scope argument number events := by
  obtain ⟨value, denoted, numeric⟩ := measured
  exact ⟨value, .of_strip argument exposed denoted, numeric⟩

theorem Asserts.of_strip (node : Node) (exposed : node.Exposed)
    (asserted : Asserts scope first node.strip predicate cones events) :
    Asserts scope first node predicate cones events := by
  induction node generalizing first predicate cones events with
  | not condition ih =>
      rw [Node.strip] at asserted
      cases asserted with
      | not inner => exact .not (ih (exposed.child (by simp)) inner)
  | nested inner ih => exact .nested (ih (exposed.child (by simp)) asserted)
  | connect op left right leftRestored rightRestored =>
      rw [Node.strip] at asserted
      cases asserted with
      | connect leftAsserted rightAsserted =>
          exact .connect (leftRestored (exposed.child (by simp)) leftAsserted)
            (rightRestored (exposed.child (by simp)) rightAsserted)
  | equality op left right =>
      rw [Node.strip] at asserted
      generalize bare : right.strip = stripped at asserted
      cases asserted with
      | isNull denoted =>
          rw [Node.null_of_strip bare exposed.shown]
          exact .isNull (.of_strip left (exposed.child (by simp)) denoted)
      | equality leftDenoted rightDenoted =>
          rw [← bare] at rightDenoted
          exact .equality (.of_strip left (exposed.child (by simp)) leftDenoted)
            (.of_strip right (exposed.child (by simp)) rightDenoted)
  | relate op left right =>
      rw [Node.strip] at asserted
      cases asserted with
      | relate leftDenoted rightDenoted =>
          exact .relate (.of_strip left (exposed.child (by simp)) leftDenoted)
            (.of_strip right (exposed.child (by simp)) rightDenoted)
  | between subject low high =>
      rw [Node.strip] at asserted
      cases asserted with
      | between denoted lowDenoted highDenoted =>
          exact .between (.of_strip subject (exposed.child (by simp)) denoted)
            (.of_strip low (exposed.child (by simp)) lowDenoted)
            (.of_strip high (exposed.child (by simp)) highDenoted)
  | member subject items =>
      rw [Node.strip, Node.stripAll_map] at asserted
      cases asserted with
      | member denoted listed =>
          exact .member (.of_strip subject (exposed.child (by simp)) denoted)
            (.of_strip (fun item inside => exposed.child (by simp [inside])) listed)
  | call name arguments =>
      rw [Node.strip, Node.stripAll_map] at asserted
      generalize bare : arguments.map Node.strip = stripped at asserted
      cases asserted with
      | cone named raMeasured decMeasured radiusMeasured =>
          obtain ⟨ra, dec, radius, rfl⟩ : ∃ ra dec radius, arguments = [ra, dec, radius] :=
            List.length_eq_three.mp (by simpa using congrArg List.length bare)
          cases bare
          exact .cone named (raMeasured.of_strip (exposed.child (by simp)))
            (decMeasured.of_strip (exposed.child (by simp)))
            (radiusMeasured.of_strip (exposed.child (by simp)))
  | _ =>
      simp only [Node.strip] at asserted
      cases asserted

/-! A hidden shape is met by the pass and refused. -/

theorem Denotes.read_of_strip {kind : LiteralKind} {raw : String}
    (denoted : Denotes scope node operand events) (bare : node.strip = .literal kind raw) :
    kind.read? raw ≠ none := by
  induction denoted with
  | literal typed =>
      cases bare
      simp [typed]
  | nested _ ih => exact ih bare
  | _ => cases bare

theorem Denotes.strip_ne_null (denoted : Denotes scope node operand events) :
    node.strip ≠ .null := by
  induction denoted with
  | nested _ ih => exact ih
  | _ => simp [Node.strip]

theorem Denotes.exposed (denoted : Denotes scope node operand events) : node.Exposed := by
  induction denoted with
  | literal _ | column _ | quoted _ => exact Node.exposed_of_children id (by simp)
  | @negateLiteral kind raw _ _ =>
      have leaf : (Node.literal kind raw).Exposed := Node.exposed_of_children id (by simp)
      exact Node.exposed_of_children id (by simpa using leaf)
  | negate _ denoted _ ih =>
      refine Node.exposed_of_children (fun hidden => ?_) (by simpa using ih)
      obtain ⟨raw, bare, unread⟩ := hidden.integer
      exact denoted.read_of_strip bare (by rw [LiteralKind.read?, unread]; rfl)
  | nested _ ih => exact Node.exposed_of_children id (by simpa using ih)
  | arithmetic _ _ _ leftExposed rightExposed =>
      exact Node.exposed_of_children id (by simp [leftExposed, rightExposed])

theorem Lists.exposed (listed : Lists scope items values events) :
    ∀ item ∈ items, item.Exposed := by
  induction listed with
  | nil => simp
  | cons head _ ih => exact List.forall_mem_cons.mpr ⟨head.exposed, ih⟩

theorem Measures.exposed (measured : Measures scope argument number events) :
    argument.Exposed := by
  obtain ⟨_, denoted, _⟩ := measured
  exact denoted.exposed

theorem Asserts.exposed (asserted : Asserts scope first node predicate cones events) :
    node.Exposed := by
  induction asserted with
  | not _ ih | nested _ ih => exact Node.exposed_of_children id (by simpa using ih)
  | connect _ _ leftExposed rightExposed =>
      exact Node.exposed_of_children id (by simp [leftExposed, rightExposed])
  | isNull denoted =>
      have bare : Node.null.Exposed := Node.exposed_of_children id (by simp)
      exact Node.exposed_of_children id (by simp [denoted.exposed, bare])
  | equality leftDenoted rightDenoted =>
      refine Node.exposed_of_children (fun hidden => ?_)
        (by simp [leftDenoted.exposed, rightDenoted.exposed])
      exact rightDenoted.strip_ne_null hidden.null
  | relate leftDenoted rightDenoted =>
      exact Node.exposed_of_children id (by simp [leftDenoted.exposed, rightDenoted.exposed])
  | between denoted lowDenoted highDenoted =>
      exact Node.exposed_of_children id
        (by simp [denoted.exposed, lowDenoted.exposed, highDenoted.exposed])
  | member denoted listed =>
      exact Node.exposed_of_children id
        (List.forall_mem_cons.mpr ⟨denoted.exposed, listed.exposed⟩)
  | cone _ raMeasured decMeasured radiusMeasured =>
      exact Node.exposed_of_children id
        (by simp [raMeasured.exposed, decMeasured.exposed, radiusMeasured.exposed])

end Derivations

/-! Whole passes, with their events. -/

namespace Scope

theorem resolve_of_returns (scope : Scope) (node : Node) (result : Resolved) (after : Progress)
    (returned : (node.resolve scope).Returns {} result after) : scope.resolve node =
      (.ok { value := result, extra := { cones := after.cones } },
        .started scope.model :: after.events ++ [.finished scope.model after.cones.length]) := by
  unfold Pass.Returns Pass.runFrom at returned
  unfold resolve
  rw [returned]

/-- Two trees have the same pass if whatever can be derived for the one, which is accepted, can be
derived for the other. -/
theorem resolve_congr (scope : Scope) (node other : Node) (resolution : Resolution)
    (accepted : (scope.resolve node).1 = .ok resolution)
    (derived : ∀ result after, Yields scope node {} result after →
      Yields scope other {} result after) : scope.resolve other = scope.resolve node := by
  obtain ⟨after, returned, -⟩ := (scope.resolve_ok node resolution).mp accepted
  have yields := derived _ _ ((Node.returns_iff scope node {} after _).mp returned)
  rw [resolve_of_returns scope node _ after returned,
    resolve_of_returns scope other _ after ((Node.returns_iff scope other {} after _).mpr yields)]

theorem exposed_of_accepted (scope : Scope) (node : Node) (resolution : Resolution)
    (accepted : (scope.resolve node).1 = .ok resolution) : node.Exposed := by
  obtain ⟨value, extra⟩ := resolution
  cases value with
  | operand operand =>
      obtain ⟨-, events, denoted⟩ := (scope.resolve_operand_iff _ _ _).mp accepted
      exact denoted.exposed
  | condition predicate =>
      obtain ⟨-, events, asserted⟩ := (scope.resolve_condition_iff _ _ _).mp accepted
      exact asserted.exposed

/-- A tree that is accepted without its parentheses is accepted with them, and its pass is the
same, exactly if they hide nothing. -/
theorem parentheses_transparent (scope : Scope) (node : Node) (resolution : Resolution)
    (accepted : (scope.resolve node.strip).1 = .ok resolution) :
    ((∃ wrapped, (scope.resolve node).1 = .ok wrapped) ↔ node.Exposed) ∧
      (node.Exposed → scope.resolve node = scope.resolve node.strip) := by
  have same : node.Exposed → scope.resolve node = scope.resolve node.strip := by
    intro exposed
    apply scope.resolve_congr node.strip node resolution accepted
    intro result after derived
    cases result with
    | operand operand =>
        obtain ⟨events, denoted, extended⟩ := derived
        exact ⟨events, .of_strip node exposed denoted, extended⟩
    | condition predicate =>
        obtain ⟨cones, events, asserted, extended⟩ := derived
        exact ⟨cones, events, .of_strip node exposed asserted, extended⟩
  refine ⟨⟨?_, ?_⟩, same⟩
  · rintro ⟨wrapped, found⟩
    exact scope.exposed_of_accepted node wrapped found
  · intro exposed
    rw [same exposed]
    exact ⟨resolution, accepted⟩

end Scope

/-! Parentheses around a cone, its arguments, a column and the greatest word behind a sign. -/

def wrappedStars : Node :=
  .nested (.connect .and
    (.nested (.nested (.call "cone" [.nested (.literal .integer "010"),
      .negate (.nested (.literal .decimal "2.5")), .literal .integer "3"])))
    (.not (.nested (.relate .greater (.nested (.column ["mag"]))
      (.negate (.nested (.literal .integer "9223372036854775807")))))))

def wrappedCone : Cone :=
  { ra := Value.wordToFloat 10
    dec := -Float.ofScientific 25 true 1
    radius := Value.wordToFloat 3 }

def wrappedResolution : Resolution where
  value := .condition (.and (Predicate.slotTest 0)
    (.not (.compare .greater (.field "mag") (.literal (.int (-9223372036854775807))))))
  extra := { cones := [wrappedCone] }

theorem wrappedStars_resolve : (starScope.resolve wrappedStars).1 = .ok wrappedResolution := rfl

theorem bareStars_resolve : (starScope.resolve wrappedStars.strip).1 = .ok wrappedResolution := rfl

theorem wrappedStars_transparent :
    wrappedStars.Exposed ∧ starScope.resolve wrappedStars = starScope.resolve wrappedStars.strip := by
  obtain ⟨accepted, same⟩ :=
    Scope.parentheses_transparent starScope wrappedStars _ bareStars_resolve
  have exposed := accepted.mp ⟨_, wrappedStars_resolve⟩
  exact ⟨exposed, same exposed⟩

/-- A bare NULL and the least word are accepted where they stand, and refused in parentheses. -/
theorem parentheses_hide :
    (starScope.resolve (Node.equality .equal (.column ["mag"]) (.nested .null)).strip).1 =
        .ok { value := .condition (.isNull (.field "mag") true), extra := {} } ∧
      (starScope.resolve (.equality .equal (.column ["mag"]) (.nested .null))).1 =
        .error (.misuse (.noCounterpart "NULL")) ∧
      (starScope.resolve
          (Node.negate (.nested (.literal .integer "9223372036854775808"))).strip).1 =
        .ok { value := .operand (.literal (.int Int64.minValue)), extra := {} } ∧
      (starScope.resolve (.negate (.nested (.literal .integer "9223372036854775808")))).1 =
        .error (.invalidLiteral "9223372036854775808") :=
  ⟨rfl, rfl, rfl, rfl⟩

/-- The pass over an accepted tree is the same without its parentheses, and literals that come to
stand behind a minus sign are read as their negation. -/
theorem Scope.parentheses_redundant (scope : Scope) (node : Node) (resolution : Resolution)
    (unsigned : node.UnsignedIntegers) (accepted : (scope.resolve node).1 = .ok resolution) :
    scope.resolve node.strip = scope.resolve node ∧
    ∀ kind raw value, .literal kind raw ∈ node.subtrees → kind.read? raw = some value →
      value.isNumeric = true → kind.readNegative? raw = value.negate? := by
  constructor
  · apply scope.resolve_congr node node.strip resolution accepted
    intro result after derived
    cases result with
    | operand operand =>
        obtain ⟨events, denoted, extended⟩ := derived
        exact ⟨events, denoted.strip unsigned, extended⟩
    | condition predicate =>
        obtain ⟨cones, events, asserted, extended⟩ := derived
        exact ⟨cones, events, asserted.strip unsigned, extended⟩
  · intro kind raw value inside read numeric
    apply kind.readNegative_of_read raw value ?_ read numeric
    rintro rfl
    exact unsigned raw inside

theorem wrappedStars_redundant :
    wrappedStars.UnsignedIntegers ∧
    starScope.resolve wrappedStars.strip = starScope.resolve wrappedStars ∧
    LiteralKind.integer.readNegative? "9223372036854775807" =
      some (.int (-9223372036854775807)) := by
  have unsigned : wrappedStars.UnsignedIntegers := by
    intro raw inside
    simp only [wrappedStars, Node.subtrees, Node.forest, List.mem_append, List.mem_cons,
      List.not_mem_nil, or_false, Node.literal.injEq, reduceCtorEq, false_or, or_self,
      true_and, false_and] at inside
    rcases inside with (rfl | rfl) | rfl <;> exact (Numeral.unsigned_iff _).mpr ⟨_, rfl⟩
  obtain ⟨same, negated⟩ :=
    Scope.parentheses_redundant starScope wrappedStars _ unsigned wrappedStars_resolve
  refine ⟨unsigned, same, ?_⟩
  exact negated .integer "9223372036854775807" (.int 9223372036854775807) (by
    simp [wrappedStars, Node.subtrees, Node.forest]) rfl rfl

end ConeFilter
