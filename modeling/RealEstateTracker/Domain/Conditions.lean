import RealEstateTracker.Domain.Vocabulary

/-!
# The condition tree

Leaves name a field, an operator and a value whose shape fits the operator;
groups combine one or more children.  Neither a misshapen leaf nor an empty
group can be built.
-/

namespace RealEstateTracker.Domain

open Foundation

/-! ## Operators -/

inductive Operator where
  | eq
  | neq
  | lt
  | lte
  | gt
  | gte
  | between
  | isIn
  | notIn
  | contains
  | notContains
  | doesExist
  | notExists
  deriving DecidableEq, Repr

namespace Operator

def value : Operator → String
  | eq => "EQ"
  | neq => "NEQ"
  | lt => "LT"
  | lte => "LTE"
  | gt => "GT"
  | gte => "GTE"
  | between => "BETWEEN"
  | isIn => "IN"
  | notIn => "NOT_IN"
  | contains => "CONTAINS"
  | notContains => "NOT_CONTAINS"
  | doesExist => "EXISTS"
  | notExists => "NOT_EXISTS"

def all : List Operator :=
  [eq, neq, lt, lte, gt, gte, between, isIn, notIn, contains, notContains,
    doesExist, notExists]

def ofValue [PythonRuntime] : String → Except PyError Operator :=
  memberOf "Operator" all value

@[simp] theorem ofValue_value [PythonRuntime] (operator : Operator) :
    ofValue operator.value = .ok operator := by
  cases operator
  all_goals rfl

def isNullary : Operator → Bool
  | doesExist | notExists => true
  | _ => false

end Operator

inductive GroupOperator where
  | all
  | any
  | none
  deriving DecidableEq, Repr

namespace GroupOperator

def value : GroupOperator → String
  | all => "ALL"
  | any => "ANY"
  | none => "NONE"

def members : List GroupOperator := [all, any, none]

def ofValue [PythonRuntime] : String → Except PyError GroupOperator :=
  memberOf "GroupOperator" members value

@[simp] theorem ofValue_value [PythonRuntime] (operator : GroupOperator) :
    ofValue operator.value = .ok operator := by
  cases operator
  all_goals rfl

end GroupOperator

/-! ## Values -/

inductive Scalar where
  | str (s : String)
  | int (n : Int)
  | dec (d : Decimal)
  | bool (b : Bool)
  deriving DecidableEq, Repr

inductive ConditionValue where
  | scalar (s : Scalar)
  | tuple (items : List Scalar)
  deriving DecidableEq, Repr

def ConditionValue.scalars : ConditionValue → List Scalar
  | scalar s => [s]
  | tuple items => items

/-- Every `Decimal` object is within the limits of the type. -/
def Scalar.InRange : Scalar → Prop
  | dec d => d.InRange
  | _ => True

def ConditionValue.InRange : ConditionValue → Prop
  | scalar s => s.InRange
  | tuple items => ∀ s ∈ items, s.InRange

instance : DecidablePred Scalar.InRange := fun s => by
  cases s <;> unfold Scalar.InRange <;> infer_instance

instance : DecidablePred ConditionValue.InRange := fun value => by
  cases value <;> unfold ConditionValue.InRange <;> infer_instance

/-! ## Leaves -/

/-- `AlertCondition.__post_init__`. -/
def checkCondition (fieldKey : String) (operator : Operator)
    (value : Option ConditionValue) : Except PyError Unit :=
  if isBlank fieldKey then
    .error (.valueError "AlertCondition.field_key must not be empty")
  else if operator.isNullary then
    match value with
    | none => .ok ()
    | some _ => .error (.valueError (operator.value ++ " takes no value"))
  else if operator = .between then
    match value with
    | some (.tuple [_, _]) => .ok ()
    | _ => .error (.valueError "BETWEEN requires a (low, high) tuple")
  else if operator = .isIn ∨ operator = .notIn then
    match value with
    | some (.tuple (_ :: _)) => .ok ()
    | _ => .error (.valueError (operator.value ++ " requires a non-empty tuple"))
  else
    match value with
    | some (.scalar _) => .ok ()
    | _ => .error (.valueError
        (operator.value ++ " requires a single scalar value"))

structure AlertCondition where
  fieldKey : String
  operator : Operator
  value : Option ConditionValue
  valid : checkCondition fieldKey operator value = .ok ()
  inRange : ∀ v ∈ value, v.InRange
  deriving DecidableEq, Repr

/-- The constructor; a value out of range cannot come up, see `Scalar.InRange`. -/
def AlertCondition.new (fieldKey : String) (operator : Operator)
    (value : Option ConditionValue) : Except PyError AlertCondition :=
  match h : checkCondition fieldKey operator value with
  | .error error => .error error
  | .ok () =>
      if hrange : ∀ v ∈ value, v.InRange then
        .ok ⟨fieldKey, operator, value, h, hrange⟩
      else .error (.decimal .invalidOperation)

@[simp] theorem AlertCondition.new_self (c : AlertCondition) :
    new c.fieldKey c.operator c.value = .ok c := by
  unfold new
  split
  · next error h => simp [c.valid] at h
  · rw [dif_pos c.inRange]

theorem AlertCondition.shape (c : AlertCondition) :
    (c.operator.isNullary = true ∧ c.value = none) ∨
      (c.operator = .between ∧ ∃ low high, c.value = some (.tuple [low, high])) ∨
      (c.operator = .isIn ∨ c.operator = .notIn) ∨
      (c.operator.isNullary = false ∧ c.operator ≠ .between ∧
        ∃ s, c.value = some (.scalar s)) := by
  have h := c.valid
  generalize c.operator = operator at h
  generalize c.value = value at h
  unfold checkCondition at h
  split at h
  · cases h
  · split at h
    · next hnullary =>
      cases value with
      | none => exact .inl ⟨hnullary, rfl⟩
      | some v => cases h
    · next hnullary =>
      split at h
      · next hbetween =>
        split at h
        · next low high => exact .inr (.inl ⟨hbetween, low, high, rfl⟩)
        · cases h
      · next hbetween =>
        split at h
        · next hmembership => exact .inr (.inr (.inl hmembership))
        · split at h
          · next s =>
            exact .inr (.inr (.inr ⟨by simpa using hnullary, hbetween, s, rfl⟩))
          · cases h

/-! ## Trees -/

inductive ConditionNode where
  | leaf (condition : AlertCondition)
  | group (operator : GroupOperator) (first : ConditionNode)
      (rest : List ConditionNode)

/-- A group node: a nonempty list of children under a combinator. -/
structure RuleGroup where
  operator : GroupOperator
  first : ConditionNode
  rest : List ConditionNode

namespace RuleGroup

def children (g : RuleGroup) : List ConditionNode := g.first :: g.rest

def node (g : RuleGroup) : ConditionNode := .group g.operator g.first g.rest

def new (operator : GroupOperator) :
    List ConditionNode → Except PyError RuleGroup
  | [] => .error (.valueError "RuleGroup must have at least one child")
  | first :: rest => .ok ⟨operator, first, rest⟩

@[simp] theorem new_children (g : RuleGroup) :
    new g.operator g.children = .ok g := rfl

end RuleGroup

/-- Induction over a tree with one hypothesis for all the children of a group. -/
theorem ConditionNode.induct {motive : ConditionNode → Prop}
    (leaf : ∀ condition, motive (.leaf condition))
    (group : ∀ operator first rest,
      (∀ child ∈ first :: rest, motive child) →
        motive (.group operator first rest))
    (node : ConditionNode) : motive node :=
  @ConditionNode.rec motive (fun nodes => ∀ child ∈ nodes, motive child)
    leaf
    (fun operator first rest hfirst hrest => group operator first rest
      (List.forall_mem_cons.mpr ⟨hfirst, hrest⟩))
    (fun _ h => absurd h List.not_mem_nil)
    (fun _ _ hhead htail => List.forall_mem_cons.mpr ⟨hhead, htail⟩)
    node

mutual

def ConditionNode.leafCount : ConditionNode → Nat
  | .leaf _ => 1
  | .group _ first rest => first.leafCount + leafCounts rest

def leafCounts : List ConditionNode → Nat
  | [] => 0
  | node :: rest => node.leafCount + leafCounts rest

end

def RuleGroup.leafCount (g : RuleGroup) : Nat := leafCounts g.children

mutual

def ConditionNode.leaves : ConditionNode → List AlertCondition
  | .leaf condition => [condition]
  | .group _ first rest => first.leaves ++ leavesOf rest

def leavesOf : List ConditionNode → List AlertCondition
  | [] => []
  | node :: rest => node.leaves ++ leavesOf rest

end

def RuleGroup.leaves (g : RuleGroup) : List AlertCondition :=
  leavesOf g.children

theorem mem_leavesOf {nodes : List ConditionNode} {node : ConditionNode}
    (h : node ∈ nodes) {c : AlertCondition} (hc : c ∈ node.leaves) :
    c ∈ leavesOf nodes := by
  induction nodes with
  | nil => simp at h
  | cons first rest ih =>
      rcases List.mem_cons.mp h with rfl | h
      · exact List.mem_append_left _ hc
      · exact List.mem_append_right _ (ih h)

theorem RuleGroup.mem_leaves {g : RuleGroup} {c : AlertCondition}
    (h : .leaf c ∈ g.children) : c ∈ g.leaves :=
  mem_leavesOf h (by simp [ConditionNode.leaves])

theorem ConditionNode.leafCount_pos (node : ConditionNode) :
    1 ≤ node.leafCount := by
  induction node using ConditionNode.induct with
  | leaf condition => simp [leafCount]
  | group operator first rest ih =>
      have := ih first (.head rest)
      simp only [leafCount]
      omega

/-- A group always has a leaf, so the check for one never fails. -/
theorem RuleGroup.leafCount_pos (g : RuleGroup) : 1 ≤ g.leafCount := by
  have := g.first.leafCount_pos
  simp only [leafCount, children, leafCounts]
  omega

end RealEstateTracker.Domain
