import RealEstateTracker.Persistence.Store

/-!
# Condition trees as rows

A tree is stored as one row per node.  Each row names its parent and its
position among its siblings; the order of the rows in the table carries no
information, so the tree has to come back from any permutation of them.
-/

namespace RealEstateTracker.Persistence

open Foundation Domain

/-! ## The codec of condition values -/

def encodeScalar : Scalar → EncodedScalar
  | .bool b => .bool b
  | .int n => .int n
  | .dec d => .dec (String.ofList d.toText)
  | .str s => .str s

def decodeScalar : EncodedScalar → Except PyError Scalar
  | .bool b => .ok (.bool b)
  | .int n => .ok (.int n)
  | .dec text =>
      match Decimal.ofText text.toList with
      | some d => .ok (.dec d)
      | none => .error (.decimal .invalidOperation)
  | .str s => .ok (.str s)

def encodeValue : ConditionValue → EncodedValue
  | .scalar s => .scalar (encodeScalar s)
  | .tuple items => .tuple (items.map encodeScalar)

def decodeValue : Option EncodedValue → Except PyError (Option ConditionValue)
  | none => .ok none
  | some (.scalar s) => do return some (.scalar (← decodeScalar s))
  | some (.tuple items) => do
      return some (.tuple (← items.mapM decodeScalar))

theorem decodeScalar_encodeScalar {s : Scalar} (h : s.InRange) :
    decodeScalar (encodeScalar s) = .ok s := by
  cases s with
  | str s => rfl
  | int n => rfl
  | bool b => rfl
  | dec d => simp [encodeScalar, decodeScalar, Decimal.ofText_toText h]

theorem mapM_decodeScalar {items : List Scalar}
    (h : ∀ s ∈ items, s.InRange) :
    (items.map encodeScalar).mapM decodeScalar = .ok items := by
  induction items with
  | nil => rfl
  | cons s items ih =>
      rw [List.map_cons, List.mapM_cons,
        decodeScalar_encodeScalar (h s (.head items)),
        ih fun t ht => h t (.tail s ht)]
      rfl

/-- A stored value comes back with the same type and value. -/
theorem decodeValue_encodeValue {value : Option ConditionValue}
    (h : ∀ v ∈ value, v.InRange) :
    decodeValue (value.map encodeValue) = .ok value := by
  cases value with
  | none => rfl
  | some v =>
      have hv := h v rfl
      cases v with
      | scalar s =>
          simp only [Option.map_some, encodeValue, decodeValue,
            decodeScalar_encodeScalar hv]
          rfl
      | tuple items =>
          simp only [Option.map_some, encodeValue, decodeValue,
            mapM_decodeScalar hv]
          rfl

/-! ## From trees to rows -/

def leafColumns (c : AlertCondition) : NodeColumns :=
  .condition c.fieldKey c.operator.value (c.value.map encodeValue)

mutual

/-- `_build_rows`: append the rows of a subtree to `out`, drawing one identifier each. -/
def buildRows (uuid4 : Nat → Uuid) (alertId : AlertId) :
    ConditionNode → Option Uuid → Nat → List ConditionRow → List ConditionRow
  | .leaf condition, parent, position, out =>
      out ++ [⟨uuid4 out.length, alertId, parent, leafColumns condition,
        position⟩]
  | .group operator first rest, parent, position, out =>
      let nodeId := uuid4 out.length
      let out := out ++
        [⟨nodeId, alertId, parent, .group operator.value, position⟩]
      let out := buildRows uuid4 alertId first (some nodeId) 0 out
      buildChildren uuid4 alertId rest nodeId 1 out

def buildChildren (uuid4 : Nat → Uuid) (alertId : AlertId) :
    List ConditionNode → Uuid → Nat → List ConditionRow → List ConditionRow
  | [], _, _, out => out
  | child :: rest, parent, index, out =>
      buildChildren uuid4 alertId rest parent (index + 1)
        (buildRows uuid4 alertId child (some parent) index out)

end

/-! ## From rows to trees -/

def orderByPosition (rows : List ConditionRow) : List ConditionRow :=
  rows.insertionSort (·.position ≤ ·.position)

/-- `by_parent[parent]`. -/
def childrenOf (rows : List ConditionRow) (parent : Option Uuid) :
    List ConditionRow :=
  orderByPosition (rows.filter (·.parentGroupId = parent))

def noFuel : PyError := .otherError "RecursionError"

/-- `build`, with fuel for the depth of the tree. -/
def buildNode [PythonRuntime] (rows : List ConditionRow) :
    Nat → ConditionRow → Except PyError ConditionNode
  | 0, _ => .error noFuel
  | fuel + 1, row =>
      match row.columns with
      | .group groupOperator => do
          let children ← (childrenOf rows (some row.id)).mapM
            (buildNode rows fuel)
          let operator ← GroupOperator.ofValue groupOperator
          let group ← RuleGroup.new operator children
          return group.node
      | .condition fieldKey operator value => do
          let operator ← Operator.ofValue operator
          let value ← decodeValue value
          let condition ← AlertCondition.new fieldKey operator value
          return .leaf condition

def rebuildTree [PythonRuntime] (rows : List ConditionRow) :
    Except PyError RuleGroup :=
  match childrenOf rows none with
  | [root] => do
      match ← buildNode rows rows.length root with
      | .group operator first rest => .ok ⟨operator, first, rest⟩
      | .leaf _ => .error (.valueError "root condition node must be a group")
  | roots => .error (.valueError (String.ofList
      ("expected exactly one root condition group, found ".toList ++
        Text.ofNat roots.length)))

/-! ## The rows of a subtree -/

section Rows

variable (uuid4 : Nat → Uuid) (alertId : AlertId)

mutual

def nodeCount : ConditionNode → Nat
  | .leaf _ => 1
  | .group _ first rest => 1 + (nodeCount first + nodeCounts rest)

def nodeCounts : List ConditionNode → Nat
  | [] => 0
  | node :: rest => nodeCount node + nodeCounts rest

end

mutual

/-- The rows of a subtree whose first identifier is number `start`. -/
def treeRows (start : Nat) :
    ConditionNode → Option Uuid → Nat → List ConditionRow
  | .leaf condition, parent, position =>
      [⟨uuid4 start, alertId, parent, leafColumns condition, position⟩]
  | .group operator first rest, parent, position =>
      ⟨uuid4 start, alertId, parent, .group operator.value, position⟩ ::
        (treeRows (start + 1) first (some (uuid4 start)) 0 ++
          forestRows (start + 1 + nodeCount first) rest (uuid4 start) 1)

def forestRows (start : Nat) :
    List ConditionNode → Uuid → Nat → List ConditionRow
  | [], _, _ => []
  | child :: rest, parent, index =>
      treeRows start child (some parent) index ++
        forestRows (start + nodeCount child) rest parent (index + 1)

end

/-- The columns that distinguish the two kinds of node. -/
def nodeColumns : ConditionNode → NodeColumns
  | .leaf condition => leafColumns condition
  | .group operator _ _ => .group operator.value

def headRow (start : Nat) (node : ConditionNode) (parent : Option Uuid)
    (position : Nat) : ConditionRow :=
  ⟨uuid4 start, alertId, parent, nodeColumns node, position⟩

/-- The first rows of the subtrees of a forest. -/
def headRows (start : Nat) :
    List ConditionNode → Uuid → Nat → List ConditionRow
  | [], _, _ => []
  | child :: rest, parent, index =>
      headRow uuid4 alertId start child (some parent) index ::
        headRows (start + nodeCount child) rest parent (index + 1)

theorem treeRows_leaf (start : Nat) (condition : AlertCondition)
    (parent : Option Uuid) (position : Nat) :
    treeRows uuid4 alertId start (.leaf condition) parent position =
      [headRow uuid4 alertId start (.leaf condition) parent position] := by
  simp only [treeRows, headRow, nodeColumns]

theorem treeRows_group (start : Nat) (operator : GroupOperator)
    (first : ConditionNode) (rest : List ConditionNode) (parent : Option Uuid)
    (position : Nat) :
    treeRows uuid4 alertId start (.group operator first rest) parent position =
      headRow uuid4 alertId start (.group operator first rest) parent position ::
        forestRows uuid4 alertId (start + 1) (first :: rest) (uuid4 start) 0 := by
  simp only [treeRows, forestRows, headRow, nodeColumns, Nat.zero_add]

theorem nodeCount_group (operator : GroupOperator) (first : ConditionNode)
    (rest : List ConditionNode) :
    nodeCount (.group operator first rest) = nodeCounts (first :: rest) + 1 := by
  simp only [nodeCount, nodeCounts]
  omega

theorem nodeCount_pos (node : ConditionNode) : 1 ≤ nodeCount node := by
  cases node with
  | leaf condition => simp [nodeCount]
  | group operator first rest => rw [nodeCount_group]; omega

end Rows

/-- Induction over trees and forests at once. -/
theorem tree_induct {tree : ConditionNode → Prop}
    {forest : List ConditionNode → Prop}
    (leaf : ∀ condition, tree (.leaf condition))
    (group : ∀ operator first rest, forest (first :: rest) →
      tree (.group operator first rest))
    (nil : forest [])
    (cons : ∀ child rest, tree child → forest rest → forest (child :: rest)) :
    (∀ node, tree node) ∧ ∀ nodes, forest nodes := by
  have htree : ∀ node, tree node := fun node =>
    @ConditionNode.rec tree forest leaf
      (fun operator first rest hfirst hrest =>
        group operator first rest (cons first rest hfirst hrest))
      nil cons node
  refine ⟨htree, fun nodes => ?_⟩
  induction nodes with
  | nil => exact nil
  | cons child rest ih => exact cons child rest (htree child) ih

section Rows

variable {uuid4 : Nat → Uuid} {alertId : AlertId}

theorem length_rows :
    (∀ node start parent position,
      (treeRows uuid4 alertId start node parent position).length =
        nodeCount node) ∧
    ∀ nodes start parent index,
      (forestRows uuid4 alertId start nodes parent index).length =
        nodeCounts nodes := by
  apply tree_induct
  case leaf =>
    intro condition start parent position
    rw [treeRows_leaf]
    simp [nodeCount]
  case group =>
    intro operator first rest ih start parent position
    rw [treeRows_group, List.length_cons, ih, nodeCount_group]
  case nil =>
    intro start parent index
    simp [forestRows, nodeCounts]
  case cons =>
    intro child rest hchild hrest start parent index
    rw [forestRows, List.length_append, hchild, hrest, nodeCounts]

/-- The accumulator of `_build_rows` only ever grows by the rows of the subtree. -/
theorem buildRows_eq :
    (∀ node parent position out,
      buildRows uuid4 alertId node parent position out =
        out ++ treeRows uuid4 alertId out.length node parent position) ∧
    ∀ nodes parent index out,
      buildChildren uuid4 alertId nodes parent index out =
        out ++ forestRows uuid4 alertId out.length nodes parent index := by
  apply tree_induct
  case leaf =>
    intro condition parent position out
    simp only [buildRows, treeRows]
  case group =>
    intro operator first rest ih parent position out
    rw [treeRows_group]
    have := ih (uuid4 out.length) 0
      (out ++ [headRow uuid4 alertId out.length (.group operator first rest)
        parent position])
    simp only [buildChildren, List.length_append, List.length_singleton,
      List.append_assoc, List.singleton_append, Nat.zero_add] at this
    simpa only [buildRows, headRow, nodeColumns] using this
  case nil =>
    intro parent index out
    simp [buildChildren, forestRows]
  case cons =>
    intro child rest hchild hrest parent index out
    rw [buildChildren, hchild, hrest, forestRows, List.length_append,
      length_rows.1, List.append_assoc]

def Within (uuid4 : Nat → Uuid) (start count : Nat) (id : Uuid) : Prop :=
  ∃ k, start ≤ k ∧ k < start + count ∧ id = uuid4 k

theorem parent_headRows {start : Nat} {nodes : List ConditionNode}
    {parent : Uuid} {index : Nat} {row : ConditionRow}
    (h : row ∈ headRows uuid4 alertId start nodes parent index) :
    row.parentGroupId = some parent := by
  induction nodes generalizing start index with
  | nil => simp [headRows] at h
  | cons child rest ih =>
      rw [headRows, List.mem_cons] at h
      obtain rfl | h := h
      · rfl
      · exact ih h

theorem mem_rows :
    (∀ node start parent position row,
      row ∈ treeRows uuid4 alertId start node parent position →
        row.alertId = alertId ∧ Within uuid4 start (nodeCount node) row.id ∧
          (row = headRow uuid4 alertId start node parent position ∨
            ∃ id, Within uuid4 start (nodeCount node) id ∧
              row.parentGroupId = some id)) ∧
    ∀ nodes start parent index row,
      row ∈ forestRows uuid4 alertId start nodes parent index →
        row.alertId = alertId ∧ Within uuid4 start (nodeCounts nodes) row.id ∧
          (row ∈ headRows uuid4 alertId start nodes parent index ∨
            ∃ id, Within uuid4 start (nodeCounts nodes) id ∧
              row.parentGroupId = some id) := by
  apply tree_induct
  case leaf =>
    intro condition start parent position row hrow
    rw [treeRows_leaf, List.mem_singleton] at hrow
    subst hrow
    exact ⟨rfl, ⟨start, le_rfl, by simp [nodeCount], rfl⟩, .inl rfl⟩
  case group =>
    intro operator first rest ih start parent position row hrow
    rw [nodeCount_group]
    rw [treeRows_group, List.mem_cons] at hrow
    obtain rfl | hrow := hrow
    · exact ⟨rfl, ⟨start, le_rfl, by omega, rfl⟩, .inl rfl⟩
    · obtain ⟨halert, ⟨k, hk, hk', hid⟩, hparent⟩ := ih _ _ _ row hrow
      refine ⟨halert, ⟨k, by omega, by omega, hid⟩, .inr ?_⟩
      obtain hhead | ⟨id, ⟨j, hj, hj', rfl⟩, hparent⟩ := hparent
      · exact ⟨uuid4 start, ⟨start, le_rfl, by omega, rfl⟩,
          parent_headRows hhead⟩
      · exact ⟨_, ⟨j, by omega, by omega, rfl⟩, hparent⟩
  case nil =>
    intro start parent index row hrow
    simp [forestRows] at hrow
  case cons =>
    intro child rest hchild hrest start parent index row hrow
    rw [forestRows, List.mem_append] at hrow
    rw [nodeCounts]
    obtain hrow | hrow := hrow
    · obtain ⟨halert, ⟨k, hk, hk', hid⟩, hparent⟩ := hchild _ _ _ row hrow
      refine ⟨halert, ⟨k, hk, by omega, hid⟩, ?_⟩
      obtain rfl | ⟨id, ⟨j, hj, hj', rfl⟩, hparent⟩ := hparent
      · exact .inl (.head _)
      · exact .inr ⟨_, ⟨j, hj, by omega, rfl⟩, hparent⟩
    · obtain ⟨halert, ⟨k, hk, hk', hid⟩, hparent⟩ := hrest _ _ _ row hrow
      refine ⟨halert, ⟨k, by omega, by omega, hid⟩, ?_⟩
      obtain hhead | ⟨id, ⟨j, hj, hj', rfl⟩, hparent⟩ := hparent
      · exact .inl (.tail _ hhead)
      · exact .inr ⟨_, ⟨j, by omega, by omega, rfl⟩, hparent⟩

theorem exists_row :
    (∀ node start parent position id, Within uuid4 start (nodeCount node) id →
      ∃ row ∈ treeRows uuid4 alertId start node parent position, row.id = id) ∧
    ∀ nodes start parent index id, Within uuid4 start (nodeCounts nodes) id →
      ∃ row ∈ forestRows uuid4 alertId start nodes parent index, row.id = id := by
  apply tree_induct
  case leaf =>
    rintro condition start parent position _ ⟨k, hk, hk', rfl⟩
    rw [nodeCount] at hk'
    obtain rfl : k = start := by omega
    exact ⟨_, by rw [treeRows_leaf]; exact .head _, rfl⟩
  case group =>
    rintro operator first rest ih start parent position _ ⟨k, hk, hk', rfl⟩
    rw [nodeCount_group] at hk'
    rw [treeRows_group]
    obtain rfl | hne := eq_or_ne k start
    · exact ⟨_, .head _, rfl⟩
    · obtain ⟨row, hrow, hid⟩ := ih (start + 1) (uuid4 start) 0 (uuid4 k)
        ⟨k, by omega, by omega, rfl⟩
      exact ⟨row, .tail _ hrow, hid⟩
  case nil =>
    rintro start parent index _ ⟨k, hk, hk', rfl⟩
    rw [nodeCounts] at hk'
    omega
  case cons =>
    rintro child rest hchild hrest start parent index _ ⟨k, hk, hk', rfl⟩
    rw [nodeCounts] at hk'
    rw [forestRows]
    by_cases hlt : k < start + nodeCount child
    · obtain ⟨row, hrow, hid⟩ := hchild start (some parent) index (uuid4 k)
        ⟨k, hk, hlt, rfl⟩
      exact ⟨row, List.mem_append_left _ hrow, hid⟩
    · obtain ⟨row, hrow, hid⟩ := hrest (start + nodeCount child) parent
        (index + 1) (uuid4 k) ⟨k, by omega, by omega, rfl⟩
      exact ⟨row, List.mem_append_right _ hrow, hid⟩

theorem roots_buildRows (uuid4 : Nat → Uuid) (alertId : AlertId)
    (group : RuleGroup) :
    ((buildRows uuid4 alertId group.node none 0 []).filter
      (·.parentGroupId = none)).length = 1 := by
  rw [buildRows_eq.1, RuleGroup.node, List.nil_append, treeRows_group,
    List.filter_cons_of_pos (by simp [headRow]), List.filter_eq_nil_iff.mpr]
  · rfl
  · intro row hrow
    obtain ⟨-, -, hhead | ⟨id, -, hparent⟩⟩ := mem_rows.2 _ _ _ _ row hrow
    · simp [parent_headRows hhead]
    · simp [hparent]

theorem position_headRows {start : Nat} {nodes : List ConditionNode}
    {parent : Uuid} {index : Nat} {row : ConditionRow}
    (h : row ∈ headRows uuid4 alertId start nodes parent index) :
    index ≤ row.position := by
  induction nodes generalizing start index with
  | nil => simp [headRows] at h
  | cons child rest ih =>
      rw [headRows, List.mem_cons] at h
      obtain rfl | h := h
      · exact le_rfl
      · exact (Nat.le_succ index).trans (ih h)

theorem pairwise_headRows (start : Nat) (nodes : List ConditionNode)
    (parent : Uuid) (index : Nat) :
    (headRows uuid4 alertId start nodes parent index).Pairwise
      (·.position < ·.position) := by
  induction nodes generalizing start index with
  | nil => exact .nil
  | cons child rest ih =>
      refine .cons (fun row hrow => ?_) (ih _ _)
      exact position_headRows hrow

/-- Sorting any permutation of siblings puts them back into their order. -/
theorem orderByPosition_headRows {rows : List ConditionRow} {start : Nat}
    {nodes : List ConditionNode} {parent : Uuid} {index : Nat}
    (h : rows.Perm (headRows uuid4 alertId start nodes parent index)) :
    orderByPosition rows = headRows uuid4 alertId start nodes parent index := by
  have hlt : (headRows uuid4 alertId start nodes parent index).Pairwise
      (·.position < ·.position) := pairwise_headRows start nodes parent index
  have hperm : (orderByPosition rows).Perm
      (headRows uuid4 alertId start nodes parent index) :=
    (List.perm_insertionSort _ rows).trans h
  have hle : (headRows uuid4 alertId start nodes parent index).Pairwise
      (·.position ≤ ·.position) := hlt.imp Nat.le_of_lt
  refine hperm.eq_of_pairwise ?_ ?_ hle
  · intro a b ha hb hab hba
    by_contra hne
    have ha := hperm.mem_iff.mp ha
    obtain hlt' | hlt' := List.Pairwise.forall_of_forall_of_flip
      (R := fun a b : ConditionRow => a = b ∨ a.position < b.position ∨
        b.position < a.position)
      (fun _ _ => .inl rfl) (hlt.imp fun h => .inr (.inl h))
      (hlt.imp fun h => .inr (.inr h)) ha hb
    · exact hne hlt'
    · omega
  · exact List.pairwise_insertionSort _ rows

/-! ## The round trip -/

section RoundTrip

variable {limit : Nat} (hinj : Set.InjOn uuid4 (Set.Iio limit))

include hinj

theorem index_eq {j k : Nat} (h : uuid4 j = uuid4 k) (hj : j < limit)
    (hk : k < limit) : j = k :=
  hinj hj hk h

theorem parent_treeRows {start k : Nat} {node : ConditionNode} {parent : Option Uuid}
    {position : Nat} {row : ConditionRow}
    (hrow : row ∈ treeRows uuid4 alertId start node parent position)
    (hp : row.parentGroupId = some (uuid4 k)) (hk : k < limit)
    (hlimit : start + nodeCount node ≤ limit) :
    parent = some (uuid4 k) ∨ start ≤ k ∧ k < start + nodeCount node := by
  obtain ⟨-, -, rfl | ⟨id, ⟨j, hj, hj', rfl⟩, hrowParent⟩⟩ :=
    mem_rows.1 _ _ _ _ row hrow
  · exact .inl hp
  · rw [hrowParent, Option.some.injEq] at hp
    obtain rfl := index_eq hinj hp (by omega) hk
    exact .inr ⟨hj, hj'⟩

theorem parent_forestRows {start k : Nat} {nodes : List ConditionNode}
    {parent index : Nat} {row : ConditionRow}
    (hrow : row ∈ forestRows uuid4 alertId start nodes (uuid4 parent) index)
    (hp : row.parentGroupId = some (uuid4 k)) (hk : k < limit)
    (hparent : parent < limit) (hlimit : start + nodeCounts nodes ≤ limit) :
    k = parent ∨ start ≤ k ∧ k < start + nodeCounts nodes := by
  obtain ⟨-, -, hhead | ⟨id, ⟨j, hj, hj', rfl⟩, hrowParent⟩⟩ :=
    mem_rows.2 _ _ _ _ row hrow
  · rw [parent_headRows hhead, Option.some.injEq] at hp
    exact .inl (index_eq hinj hp hparent hk).symm
  · rw [hrowParent, Option.some.injEq] at hp
    obtain rfl := index_eq hinj hp (by omega) hk
    exact .inr ⟨hj, hj'⟩

theorem filter_forestRows {start : Nat} {nodes : List ConditionNode}
    {parent : Nat} {index : Nat} (hparent : parent < start)
    (hlimit : start + nodeCounts nodes ≤ limit) :
    (forestRows uuid4 alertId start nodes (uuid4 parent) index).filter
        (·.parentGroupId = some (uuid4 parent)) =
      headRows uuid4 alertId start nodes (uuid4 parent) index := by
  induction nodes generalizing start index with
  | nil => simp [forestRows, headRows]
  | cons child rest ih =>
      rw [nodeCounts] at hlimit
      have htree : (treeRows uuid4 alertId start child (some (uuid4 parent))
          index).filter (·.parentGroupId = some (uuid4 parent)) =
            [headRow uuid4 alertId start child (some (uuid4 parent)) index] := by
        cases child with
        | leaf condition => rw [treeRows_leaf]; simp [headRow]
        | group operator first rest' =>
            rw [nodeCount_group] at hlimit
            rw [treeRows_group, List.filter_cons_of_pos (by simp [headRow]),
              List.cons_eq_cons]
            refine ⟨rfl, List.filter_eq_nil_iff.mpr fun row hrow hp => ?_⟩
            have := parent_forestRows hinj hrow (of_decide_eq_true hp)
              (by omega) (by omega) (by omega)
            omega
      rw [forestRows, List.filter_append, htree, ih (by omega) (by omega),
        headRows]
      rfl

theorem childrenOf_group {rows others : List ConditionRow} {start : Nat}
    {operator : GroupOperator} {first : ConditionNode}
    {rest : List ConditionNode} {parent : Option Uuid} {position : Nat}
    (hrows : rows.Perm (treeRows uuid4 alertId start
      (.group operator first rest) parent position ++ others))
    (hothers : ∀ row ∈ others, row.parentGroupId ≠ some (uuid4 start))
    (hparent : parent ≠ some (uuid4 start))
    (hlimit : start + nodeCounts (first :: rest) + 1 ≤ limit) :
    childrenOf rows (some (uuid4 start)) =
      headRows uuid4 alertId (start + 1) (first :: rest) (uuid4 start) 0 := by
  apply orderByPosition_headRows
  have hnone : others.filter (·.parentGroupId = some (uuid4 start)) = [] :=
    List.filter_eq_nil_iff.mpr fun row hrow => by simpa using hothers row hrow
  have hfilter := hrows.filter (·.parentGroupId = some (uuid4 start))
  rwa [List.filter_append, treeRows_group,
    List.filter_cons_of_neg (by simp [headRow, hparent]),
    filter_forestRows hinj (Nat.lt_succ_self start) (by omega), hnone,
    List.append_nil] at hfilter

variable [PythonRuntime]

/--
Building from the first row of a subtree gives the subtree, provided that the
other rows of the table have no parent in it.
-/
theorem buildNode_treeRows :
    (∀ node start parent position rows others fuel,
      rows.Perm (treeRows uuid4 alertId start node parent position ++ others) →
      (∀ row ∈ others, ∀ id, Within uuid4 start (nodeCount node) id →
        row.parentGroupId ≠ some id) →
      (∀ id, Within uuid4 start (nodeCount node) id → parent ≠ some id) →
      start + nodeCount node ≤ limit → nodeCount node ≤ fuel →
        buildNode rows fuel (headRow uuid4 alertId start node parent position) =
          .ok node) ∧
    ∀ nodes start parent index rows others fuel,
      rows.Perm (forestRows uuid4 alertId start nodes (uuid4 parent) index ++
        others) →
      (∀ row ∈ others, ∀ id, Within uuid4 start (nodeCounts nodes) id →
        row.parentGroupId ≠ some id) →
      parent < start → start + nodeCounts nodes ≤ limit →
      nodeCounts nodes ≤ fuel →
        (headRows uuid4 alertId start nodes (uuid4 parent) index).mapM
          (buildNode rows fuel) = .ok nodes := by
  apply tree_induct
  case leaf =>
    intro condition start parent position rows others fuel _ _ _ _ hfuel
    cases fuel with
    | zero => simp [nodeCount] at hfuel
    | succ fuel =>
        simp only [buildNode, headRow, nodeColumns, leafColumns,
          Operator.ofValue_value, decodeValue_encodeValue condition.inRange]
        change (AlertCondition.new condition.fieldKey condition.operator
          condition.value).bind _ = _
        rw [AlertCondition.new_self]
        rfl
  case group =>
    intro operator first rest ih start parent position rows others fuel hrows
      hothers hparent hlimit hfuel
    rw [nodeCount_group] at hfuel hlimit hothers hparent
    have hstart : Within uuid4 start (nodeCounts (first :: rest) + 1)
        (uuid4 start) := ⟨start, le_rfl, by omega, rfl⟩
    cases fuel with
    | zero => omega
    | succ fuel =>
        have hchildren : (childrenOf rows (some (uuid4 start))).mapM
            (buildNode rows fuel) = .ok (first :: rest) := by
          rw [childrenOf_group hinj hrows
            (fun row hrow => hothers row hrow _ hstart) (hparent _ hstart)
            (by omega)]
          refine ih (start + 1) start 0 rows
            (headRow uuid4 alertId start (.group operator first rest) parent
              position :: others) fuel ?_ ?_ (Nat.lt_succ_self start) (by omega)
            (by omega)
          · rw [treeRows_group] at hrows
            exact hrows.trans List.perm_middle.symm
          · rintro row hrow _ ⟨k, hk, hk', rfl⟩
            have hk : Within uuid4 start (nodeCounts (first :: rest) + 1)
                (uuid4 k) := ⟨k, by omega, by omega, rfl⟩
            obtain rfl | hrow := List.mem_cons.mp hrow
            · exact hparent _ hk
            · exact hothers row hrow _ hk
        simp only [buildNode, headRow, nodeColumns, GroupOperator.ofValue_value]
        rw [hchildren]
        rfl
  case nil =>
    intro start parent index rows others fuel _ _ _ _ _
    rfl
  case cons =>
    intro child rest hchild hrest start parent index rows others fuel hrows
      hothers hparent hlimit hfuel
    rw [nodeCounts] at hfuel hlimit hothers
    have hcount := nodeCount_pos child
    have hfirst : buildNode rows fuel
        (headRow uuid4 alertId start child (some (uuid4 parent)) index) =
          .ok child := by
      refine hchild start _ index rows
        (forestRows uuid4 alertId (start + nodeCount child) rest (uuid4 parent)
          (index + 1) ++ others) fuel ?_ ?_ ?_ (by omega) (by omega)
      · rwa [forestRows, List.append_assoc] at hrows
      · rintro row hrow _ ⟨k, hk, hk', rfl⟩ hp
        obtain hrow | hrow := List.mem_append.mp hrow
        · have := parent_forestRows hinj hrow hp (by omega) (by omega) (by omega)
          omega
        · exact hothers row hrow _ ⟨k, hk, by omega, rfl⟩ hp
      · rintro _ ⟨k, hk, hk', rfl⟩ hp
        have := index_eq hinj (Option.some.inj hp) (by omega) (by omega)
        omega
    have hothersRest : (headRows uuid4 alertId (start + nodeCount child) rest
        (uuid4 parent) (index + 1)).mapM (buildNode rows fuel) = .ok rest := by
      refine hrest _ parent _ rows
        (treeRows uuid4 alertId start child (some (uuid4 parent)) index ++
          others) fuel ?_ ?_ (by omega) (by omega) (by omega)
      · rw [forestRows] at hrows
        refine hrows.trans ?_
        rw [List.append_assoc, ← List.append_assoc, ← List.append_assoc]
        exact List.perm_append_comm.append_right others
      · rintro row hrow _ ⟨k, hk, hk', rfl⟩ hp
        obtain hrow | hrow := List.mem_append.mp hrow
        · obtain hparent | hwithin :=
            parent_treeRows hinj hrow hp (by omega) (by omega)
          · have := index_eq hinj (Option.some.inj hparent) (by omega) (by omega)
            omega
          · omega
        · exact hothers row hrow _ ⟨k, by omega, by omega, rfl⟩ hp
    rw [headRows, List.mapM_cons, hfirst, hothersRest]
    rfl

/-- The rows of one tree, in any order, give the tree back. -/
theorem rebuildTree_perm {rows : List ConditionRow} {group : RuleGroup}
    (hlimit : nodeCount group.node ≤ limit)
    (hrows : rows.Perm (buildRows uuid4 alertId group.node none 0 [])) :
    rebuildTree rows = .ok group := by
  rw [buildRows_eq.1, List.nil_append, List.length_nil] at hrows
  have hroot : childrenOf rows none =
      [headRow uuid4 alertId 0 group.node none 0] := by
    have hfilter := hrows.filter (·.parentGroupId = none)
    have hroots : (treeRows uuid4 alertId 0 group.node none 0).filter
        (·.parentGroupId = none) =
          [headRow uuid4 alertId 0 group.node none 0] := by
      rw [RuleGroup.node, treeRows_group,
        List.filter_cons_of_pos (by simp [headRow]), List.cons_eq_cons]
      refine ⟨rfl, List.filter_eq_nil_iff.mpr fun row hrow => ?_⟩
      obtain ⟨-, -, hhead | ⟨id, -, hparent⟩⟩ := mem_rows.2 _ _ _ _ row hrow
      · simp [parent_headRows hhead]
      · simp [hparent]
    rw [hroots] at hfilter
    rw [childrenOf, List.perm_singleton.mp hfilter]
    rfl
  have hlength : rows.length = nodeCount group.node := by
    rw [hrows.length_eq, length_rows.1]
  have hbuild := (buildNode_treeRows hinj).1 group.node 0 none 0 rows []
    rows.length (by simpa using hrows) (by simp) (by simp) (by simpa using hlimit)
    hlength.ge
  unfold rebuildTree
  rw [hroot]
  simp only [hbuild]
  rfl

end RoundTrip

end Rows

/-! ## Stored trees -/

def DistinctIds (uuid4 : Nat → Uuid) (group : RuleGroup) : Prop :=
  Set.InjOn uuid4 (Set.Iio (nodeCount group.node))

/-- Every condition tree survives storage, whatever order its rows come back in. -/
theorem condition_tree_survives_storage [PythonRuntime] (group : RuleGroup)
    (alertId : AlertId) (uuid4 : Nat → Uuid) (hdistinct : DistinctIds uuid4 group)
    (rows : List ConditionRow)
    (hrows : rows.Perm (buildRows uuid4 alertId group.node none 0 [])) :
    rebuildTree rows = .ok group :=
  rebuildTree_perm hdistinct le_rfl hrows

/-- The rows of a nested tree, read from the last to the first. -/
theorem condition_tree_survives_storage_reversed :
    let condition : AlertCondition :=
      ⟨"price", .between, some (.tuple [.int 1, .dec (.ofInt 2)]), by decide,
        by decide⟩
    let flag : AlertCondition :=
      ⟨"features.has_lift", .eq, some (.scalar (.bool true)), by decide, by decide⟩
    let group : RuleGroup := ⟨.all, .group .any (.leaf condition) [.leaf flag], []⟩
    @rebuildTree .plain
      (buildRows .given (.given 0) group.node none 0 []).reverse = .ok group :=
  @condition_tree_survives_storage .plain _ _ _
    (fun _ _ _ _ h => Uuid.given.inj h) _ (List.reverse_perm _)

end RealEstateTracker.Persistence
